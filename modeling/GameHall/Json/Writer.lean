import GameHall.Json.Basic

/-!
# Writing JSON

The compact form: no blanks, and in strings only quotes, backslashes and the characters below
space are escaped, five of these by a letter.
-/

namespace GameHall.Json

/-- The lower-case hexadecimal digit of a number below sixteen. -/
def hexDigit (n : Nat) : Char :=
  if n < 10 then Char.ofNat ('0'.toNat + n) else Char.ofNat ('a'.toNat + (n - 10))

/-- How a character stands in a string. -/
def escape (c : Char) : List Char :=
  if c = '"' then ['\\', '"']
  else if c = '\\' then ['\\', '\\']
  else if c = '\n' then ['\\', 'n']
  else if c = '\r' then ['\\', 'r']
  else if c = '\t' then ['\\', 't']
  else if c.toNat = 8 then ['\\', 'b']
  else if c.toNat = 12 then ['\\', 'f']
  else if c.toNat < 0x20 then
    ['\\', 'u', '0', '0', hexDigit (c.toNat / 16), hexDigit (c.toNat % 16)]
  else [c]

/-- A string with its quotes. -/
def quote (s : List Char) : List Char := '"' :: (s.flatMap escape ++ ['"'])

/-- A number; one that is not integral has no form here and is written as its whole part. -/
def writeNumber (n : JsonNumber) : List Char :=
  (if n.negative then ['-'] else []) ++ Nat.toDigits 10 n.whole

mutual

/-- The compact form of a value. -/
def write : Json → List Char
  | null => ['n', 'u', 'l', 'l']
  | bool true => ['t', 'r', 'u', 'e']
  | bool false => ['f', 'a', 'l', 's', 'e']
  | number n => writeNumber n
  | string s => quote (s.getD "").toList
  | array elements => '[' :: (writeElements elements ++ [']'])
  | object members => '{' :: (writeMembers members ++ ['}'])

/-- The elements of an array with commas between. -/
def writeElements : List Json → List Char
  | [] => []
  | [v] => write v
  | v :: vs => write v ++ ',' :: writeElements vs

/-- The members of an object with commas between. -/
def writeMembers : List (Option String × Json) → List Char
  | [] => []
  | [(k, v)] => quote (k.getD "").toList ++ ':' :: write v
  | (k, v) :: ms => quote (k.getD "").toList ++ ':' :: (write v ++ ',' :: writeMembers ms)

end

/-- The compact text of a value. -/
def render (v : Json) : String := String.ofList v.write

end GameHall.Json
