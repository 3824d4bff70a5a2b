import GameHall.Json.Basic

/-!
# Reading JSON

A reader of the JSON grammar, and of nothing besides: no comments, no trailing commas, no leading
zeros, no byte order mark. Arrays and objects may nest `Json.maxDepth` deep.

The recursion is over an allowance of steps that twice the length of the input always covers.
-/

namespace GameHall.Json

/-- How deep arrays and objects may nest. -/
def maxDepth : Nat := 127

/-- Drops the four characters that may stand between tokens. -/
def skipBlanks (cs : List Char) : List Char :=
  cs.dropWhile fun c => c == ' ' || c == '\n' || c == '\t' || c == '\r'

/-- The characters after `token`, if `cs` begins with it. -/
def after? : (token cs : List Char) → Option (List Char)
  | [], cs => some cs
  | t :: ts, c :: cs => if t = c then after? ts cs else none
  | _ :: _, [] => none

/-! ## Numbers -/

/-- The digits at the front and what follows them. -/
def takeDigits (cs : List Char) : List Char × List Char := cs.span Char.isDigit

/-- The number that decimal digits spell. -/
def digitsValue (ds : List Char) : Nat :=
  ds.foldl (fun n d => n * 10 + (d.toNat - '0'.toNat)) 0

/-- A fraction, if one begins here; `some` with a flag that one was there. -/
def takeFraction : List Char → Option (Bool × List Char)
  | '.' :: cs =>
    match takeDigits cs with
    | ([], _) => none
    | (_, rest) => some (true, rest)
  | cs => some (false, cs)

/-- The digits of an exponent, of which there must be one. -/
def takeExponentDigits (cs : List Char) : Option (Bool × List Char) :=
  match takeDigits cs with
  | ([], _) => none
  | (_, rest) => some (true, rest)

/-- An exponent, if one begins here. -/
def takeExponent : List Char → Option (Bool × List Char)
  | c :: cs =>
    if c = 'e' ∨ c = 'E' then
      match cs with
      | '+' :: cs => takeExponentDigits cs
      | '-' :: cs => takeExponentDigits cs
      | cs => takeExponentDigits cs
    else some (false, c :: cs)
  | [] => some (false, [])

/-- A number whose sign has been read. -/
def takeNumber (negative : Bool) (cs : List Char) : Option (Json × List Char) :=
  match takeDigits cs with
  | ([], _) => none
  | ('0' :: _ :: _, _) => none
  | (ds, rest) => do
    let (fraction, rest) ← takeFraction rest
    let (exponent, rest) ← takeExponent rest
    return (.number ⟨negative, digitsValue ds, !fraction && !exponent⟩, rest)

/-! ## Strings -/

/-- A piece of a string: a character, or half of a surrogate pair. -/
inductive Piece where
  | char (c : Char)
  | surrogate (n : Nat)

/-- The value of a hexadecimal digit. -/
def hexValue? (c : Char) : Option Nat :=
  if c.isDigit then some (c.toNat - '0'.toNat)
  else if 'a' ≤ c ∧ c ≤ 'f' then some (c.toNat - 'a'.toNat + 10)
  else if 'A' ≤ c ∧ c ≤ 'F' then some (c.toNat - 'A'.toNat + 10)
  else none

/-- The number of four hexadecimal digits. -/
def hexUnit? (a b c d : Char) : Option Nat := do
  return (((← hexValue? a) * 16 + (← hexValue? b)) * 16 + (← hexValue? c)) * 16 + (← hexValue? d)

/-- The piece that a 16-bit unit is. -/
def pieceOfUnit (n : Nat) : Piece :=
  if 0xD800 ≤ n ∧ n < 0xE000 then .surrogate n else .char (Char.ofNat n)

/-- The character that a letter after a backslash stands for. -/
def escaped? (c : Char) : Option Char :=
  if c = '"' ∨ c = '\\' ∨ c = '/' then some c
  else if c = 'n' then some '\n'
  else if c = 'r' then some '\r'
  else if c = 't' then some '\t'
  else if c = 'b' then some (Char.ofNat 8)
  else if c = 'f' then some (Char.ofNat 12)
  else none

/-- The pieces of a string up to its closing quote. -/
def takePieces : List Char → Option (List Piece × List Char)
  | [] => none
  | '"' :: rest => some ([], rest)
  | '\\' :: 'u' :: a :: b :: c :: d :: rest => do
    let n ← hexUnit? a b c d
    let (ps, rest) ← takePieces rest
    return (pieceOfUnit n :: ps, rest)
  | '\\' :: e :: rest => do
    let c ← escaped? e
    let (ps, rest) ← takePieces rest
    return (.char c :: ps, rest)
  | c :: rest =>
    if c = '\\' ∨ c.toNat < 0x20 then none
    else do
      let (ps, rest) ← takePieces rest
      return (.char c :: ps, rest)

/-- The characters of pieces in which every surrogate is half of a pair. -/
def joinPieces : List Piece → Option (List Char)
  | [] => some []
  | .char c :: ps => do return c :: (← joinPieces ps)
  | .surrogate high :: .surrogate low :: ps =>
    if high < 0xDC00 ∧ 0xDC00 ≤ low then do
      return Char.ofNat (0x10000 + (high - 0xD800) * 1024 + (low - 0xDC00)) :: (← joinPieces ps)
    else none
  | .surrogate _ :: _ => none

/-- A string whose opening quote has been read. -/
def takeString (cs : List Char) : Option (Option String × List Char) := do
  let (ps, rest) ← takePieces cs
  return ((joinPieces ps).map String.ofList, rest)

/-! ## Values -/

mutual

/-- A value off the front; arrays and objects in it may nest `depth` deep. -/
def takeValue : (allowance depth : Nat) → List Char → Option (Json × List Char)
  | 0, _, _ => none
  | allowance + 1, depth, cs =>
    match skipBlanks cs with
    | 'n' :: rest => do return (.null, ← after? ['u', 'l', 'l'] rest)
    | 't' :: rest => do return (.bool true, ← after? ['r', 'u', 'e'] rest)
    | 'f' :: rest => do return (.bool false, ← after? ['a', 'l', 's', 'e'] rest)
    | '"' :: rest => do
      let (s, rest) ← takeString rest
      return (.string s, rest)
    | '-' :: rest => takeNumber true rest
    | '[' :: rest =>
      match depth with
      | 0 => none
      | depth + 1 =>
        match skipBlanks rest with
        | ']' :: rest => some (.array [], rest)
        | rest => do
          let (elements, rest) ← takeElements allowance depth rest
          return (.array elements, rest)
    | '{' :: rest =>
      match depth with
      | 0 => none
      | depth + 1 =>
        match skipBlanks rest with
        | '}' :: rest => some (.object [], rest)
        | rest => do
          let (members, rest) ← takeMembers allowance depth rest
          return (.object members, rest)
    | rest => takeNumber false rest

/-- The elements of an array up to its closing bracket. -/
def takeElements : (allowance depth : Nat) → List Char → Option (List Json × List Char)
  | 0, _, _ => none
  | allowance + 1, depth, cs => do
    let (v, rest) ← takeValue allowance depth cs
    match skipBlanks rest with
    | ',' :: rest => do
      let (vs, rest) ← takeElements allowance depth rest
      return (v :: vs, rest)
    | ']' :: rest => return ([v], rest)
    | _ => none

/-- The members of an object up to its closing brace. -/
def takeMembers : (allowance depth : Nat) → List Char →
    Option (List (Option String × Json) × List Char)
  | 0, _, _ => none
  | allowance + 1, depth, cs => do
    match skipBlanks cs with
    | '"' :: rest => do
      let (k, rest) ← takeString rest
      match skipBlanks rest with
      | ':' :: rest => do
        let (v, rest) ← takeValue allowance depth rest
        match skipBlanks rest with
        | ',' :: rest => do
          let (ms, rest) ← takeMembers allowance depth rest
          return ((k, v) :: ms, rest)
        | '}' :: rest => return ([(k, v)], rest)
        | _ => none
      | _ => none
    | _ => none

end

/-- The value that a whole text spells. -/
def read (text : String) : Option Json :=
  let cs := text.toList
  match takeValue (2 * cs.length + 2) maxDepth cs with
  | some (v, rest) => if (skipBlanks rest).isEmpty then some v else none
  | none => none

end GameHall.Json
