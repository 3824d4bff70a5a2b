import GameHall.Toml.Value

/-!
# TOML scalars

Strings, numbers and dates. Every reader takes what it reads off the front of a list of characters
and gives what is left; `none` says that no such thing begins there.
-/

namespace GameHall.Toml

/-- Takes something off the front. -/
abbrev Taker (α : Type) := List Char → Option (α × List Char)

/-- Spaces and tabs. -/
def isSpace (c : Char) : Bool := c == ' ' || c == '\t'

/-- Drops spaces and tabs. -/
def skipSpaces (cs : List Char) : List Char := cs.dropWhile isSpace

/-- The end of a line, with or without a carriage return. -/
def takeNewline : List Char → Option (List Char)
  | '\n' :: rest => some rest
  | '\r' :: '\n' :: rest => some rest
  | _ => none

/-- Characters that may stand in a comment or a string: all but the controls, the tab excepted. -/
def isPlain (c : Char) : Bool := c == '\t' || (0x20 ≤ c.toNat && c.toNat != 0x7F)

/-! ## Strings -/

/-- The value of a hexadecimal digit. -/
def hexValue? (c : Char) : Option Nat :=
  if c.isDigit then some (c.toNat - '0'.toNat)
  else if 'a' ≤ c ∧ c ≤ 'f' then some (c.toNat - 'a'.toNat + 10)
  else if 'A' ≤ c ∧ c ≤ 'F' then some (c.toNat - 'A'.toNat + 10)
  else none

/-- The number of some hexadecimal digits. -/
def hexNumber? (ds : List Char) : Option Nat :=
  ds.foldlM (fun n d => do return n * 16 + (← hexValue? d)) 0

/-- The character with a number; surrogates and numbers beyond the last character have none. -/
def charOf? (n : Nat) : Option Char := if n.isValidChar then some (Char.ofNat n) else none

/-- The character that a letter after a backslash stands for. -/
def escaped? (c : Char) : Option Char :=
  if c = '"' ∨ c = '\\' then some c
  else if c = 'n' then some '\n'
  else if c = 'r' then some '\r'
  else if c = 't' then some '\t'
  else if c = 'b' then some (Char.ofNat 8)
  else if c = 'f' then some (Char.ofNat 12)
  else none

/-- Puts a character before what a string holds. -/
def withChar (c : Char) (s : Option (List Char × List Char)) : Option (List Char × List Char) := do
  let (cs, rest) ← s
  return (c :: cs, rest)

/-- A string on one line, up to its closing quote. -/
def takeBasic : Taker (List Char)
  | [] => none
  | '"' :: rest => some ([], rest)
  | '\\' :: 'u' :: a :: b :: c :: d :: rest => do
    withChar (← charOf? (← hexNumber? [a, b, c, d])) (takeBasic rest)
  | '\\' :: 'U' :: a :: b :: c :: d :: e :: f :: g :: h :: rest => do
    withChar (← charOf? (← hexNumber? [a, b, c, d, e, f, g, h])) (takeBasic rest)
  | '\\' :: e :: rest => do withChar (← escaped? e) (takeBasic rest)
  | c :: rest => if c = '\\' ∨ !isPlain c then none else withChar c (takeBasic rest)

/-- A string without escapes on one line, up to its closing apostrophe. -/
def takeLiteral : Taker (List Char)
  | [] => none
  | '\'' :: rest => some ([], rest)
  | c :: rest => if isPlain c then withChar c (takeLiteral rest) else none

/-- What follows three closing quotes. Up to two more quotes belong to the string. -/
def closeTriple (quote : Char) : List Char → List Char × List Char
  | a :: b :: rest =>
    if a = quote then
      if b = quote then ([quote, quote], rest) else ([quote], b :: rest)
    else ([], a :: b :: rest)
  | [a] => if a = quote then ([quote], []) else ([], [a])
  | [] => ([], [])

/-- Whether nothing but blanks is left on the line. -/
def endsLine (cs : List Char) : Bool := (takeNewline (skipSpaces cs)).isSome

/-- A string over several lines, up to its three closing quotes. A backslash at the end of a line
drops the blanks and newlines that follow; `skipping` says that they are being dropped. -/
def takeLongBasic : (skipping : Bool) → Taker (List Char)
  | _, [] => none
  | _, '"' :: '"' :: '"' :: rest => some (closeTriple '"' rest)
  | skipping, '\r' :: '\n' :: rest =>
    if skipping then takeLongBasic true rest else withChar '\n' (takeLongBasic false rest)
  | skipping, '\n' :: rest =>
    if skipping then takeLongBasic true rest else withChar '\n' (takeLongBasic false rest)
  | _, '\\' :: 'u' :: a :: b :: c :: d :: rest => do
    withChar (← charOf? (← hexNumber? [a, b, c, d])) (takeLongBasic false rest)
  | _, '\\' :: 'U' :: a :: b :: c :: d :: e :: f :: g :: h :: rest => do
    withChar (← charOf? (← hexNumber? [a, b, c, d, e, f, g, h])) (takeLongBasic false rest)
  | _, '\\' :: e :: rest =>
    if endsLine (e :: rest) then takeLongBasic true (e :: rest)
    else do withChar (← escaped? e) (takeLongBasic false rest)
  | skipping, c :: rest =>
    if c = '\\' ∨ !isPlain c then none
    else if skipping && isSpace c then takeLongBasic true rest
    else withChar c (takeLongBasic false rest)

/-- A string without escapes over several lines, up to its three closing apostrophes. -/
def takeLongLiteral : Taker (List Char)
  | [] => none
  | '\'' :: '\'' :: '\'' :: rest => some (closeTriple '\'' rest)
  | '\r' :: '\n' :: rest => withChar '\n' (takeLongLiteral rest)
  | '\n' :: rest => withChar '\n' (takeLongLiteral rest)
  | c :: rest => if isPlain c then withChar c (takeLongLiteral rest) else none

/-- Drops a newline right after the opening quotes. -/
def dropNewline (cs : List Char) : List Char := (takeNewline cs).getD cs

/-- A string of any of the four kinds. -/
def takeString : Taker String := fun cs => do
  let (s, rest) ← match cs with
    | '"' :: '"' :: '"' :: rest => takeLongBasic false (dropNewline rest)
    | '\'' :: '\'' :: '\'' :: rest => takeLongLiteral (dropNewline rest)
    | '"' :: rest => takeBasic rest
    | '\'' :: rest => takeLiteral rest
    | _ => none
  return (String.ofList s, rest)

/-! ## Numbers -/

/-- Digits with single underscores between them; `ok` tells the digits. -/
def takeDigits (ok : Char → Bool) : Taker (List Char)
  | [] => none
  | [c] => if ok c then some ([c], []) else none
  | c :: d :: rest =>
    if !ok c then none
    else if ok d then withChar c (takeDigits ok (d :: rest))
    else if d = '_' then
      match takeDigits ok rest with
      | some (ds, rest) => some (c :: ds, rest)
      | none => some ([c], d :: rest)
    else some ([c], d :: rest)

/-- The number of some digits in a base. -/
def number (base : Nat) (ds : List Char) : Nat :=
  ds.foldl (fun n d => n * base + (hexValue? d).getD 0) 0

/-- A sign, if there is one: whether it is a minus, and what follows. -/
def takeSign : List Char → Bool × List Char
  | '+' :: rest => (false, rest)
  | '-' :: rest => (true, rest)
  | cs => (false, cs)

/-- The digits of a decimal integer, which has no leading zero. -/
def takeWhole : Taker (List Char) := fun cs =>
  match cs with
  | '0' :: rest => some (['0'], rest)
  | cs => takeDigits Char.isDigit cs

/-- An integer, if it fits 64 bits. -/
def integer? (v : Int) : Option Value :=
  if -9223372036854775808 ≤ v ∧ v ≤ 9223372036854775807 then some (.integer v) else none

/-- An integer in a base, its letter read. -/
def takeInBase (base : Nat) (ok : Char → Bool) : Taker Value := fun cs => do
  let (ds, rest) ← takeDigits ok cs
  return (← integer? (number base ds), rest)

/-- An integer. Only a decimal one has a sign. -/
def takeInteger : Taker Value
  | '0' :: 'x' :: rest => takeInBase 16 (fun c => (hexValue? c).isSome) rest
  | '0' :: 'o' :: rest => takeInBase 8 (fun c => '0' ≤ c && c ≤ '7') rest
  | '0' :: 'b' :: rest => takeInBase 2 (fun c => c == '0' || c == '1') rest
  | cs => do
    let (negative, cs) := takeSign cs
    let (ds, rest) ← takeWhole cs
    let n : Int := number 10 ds
    return (← integer? (if negative then -n else n), rest)

/-- The fraction of a float. -/
def takeFraction : Taker (List Char)
  | '.' :: rest => takeDigits Char.isDigit rest
  | _ => none

/-- The exponent of a float. -/
def takeExponent : Taker Int
  | c :: rest =>
    if c = 'e' ∨ c = 'E' then do
      let (negative, rest) := takeSign rest
      let (ds, rest) ← takeDigits Char.isDigit rest
      let n : Int := number 10 ds
      return (if negative then -n else n, rest)
    else none
  | [] => none

/-- Whether `digits * 10 ^ exponent`, rounded to double precision, is infinite: whether it is no
less than the midpoint between the greatest double and the next power of two. The number of digits
decides all but the borderline cases. -/
def overflows (digits : List Char) (exponent : Int) : Bool :=
  let ds := digits.dropWhile (· == '0')
  let size := ds.length + exponent
  let bound := (1 <<< 54 - 1) <<< 970
  if ds.isEmpty || size < 300 then false
  else if 310 < size then true
  else if 0 ≤ exponent then bound ≤ number 10 ds * Nat.pow 10 exponent.toNat
  else bound * Nat.pow 10 (-exponent).toNat ≤ number 10 ds

/-- A float: a whole part and a fraction, an exponent or both. One that is too great for a double
is refused, unless it is negative. -/
def takeFloat : Taker Value := fun cs => do
  let (negative, cs) := takeSign cs
  match cs with
  | 'i' :: 'n' :: 'f' :: rest => return (.float, rest)
  | 'n' :: 'a' :: 'n' :: rest => return (.float, rest)
  | cs => do
    let (whole, cs) ← takeWhole cs
    let (fraction, exponent, rest) ← match takeFraction cs with
      | some (fraction, cs) =>
        match takeExponent cs with
        | some (e, rest) => some (fraction, e, rest)
        | none => some (fraction, 0, cs)
      | none =>
        match takeExponent cs with
        | some (e, rest) => some ([], e, rest)
        | none => none
    if !negative && overflows (whole ++ fraction) (exponent - fraction.length) then none
    else return (.float, rest)

/-! ## Dates -/

/-- A number of exactly `n` digits between two bounds. -/
def takeField (n low high : Nat) : Taker Nat := fun cs =>
  let ds := cs.take n
  if ds.length = n ∧ ds.all Char.isDigit then
    let v := number 10 ds
    if low ≤ v ∧ v ≤ high then some (v, cs.drop n) else none
  else none

/-- One character. -/
def takeChar (c : Char) : List Char → Option (List Char)
  | d :: rest => if d = c then some rest else none
  | [] => none

/-- The days of a month. -/
def daysIn (year month : Nat) : Nat :=
  if month = 2 then
    if year % 4 = 0 ∧ (year % 100 ≠ 0 ∨ year % 400 = 0) then 29 else 28
  else if month = 4 ∨ month = 6 ∨ month = 9 ∨ month = 11 then 30
  else 31

/-- A day: year, month and day of the month. -/
def takeDay (cs : List Char) : Option (List Char) := do
  let (year, cs) ← takeField 4 0 9999 cs
  let (month, cs) ← takeField 2 1 12 (← takeChar '-' cs)
  let (_, cs) ← takeField 2 1 (daysIn year month) (← takeChar '-' cs)
  return cs

/-- A time of day, with as many places of the second as there are. -/
def takeTime (cs : List Char) : Option (List Char) := do
  let (_, cs) ← takeField 2 0 23 cs
  let (_, cs) ← takeField 2 0 59 (← takeChar ':' cs)
  let (_, cs) ← takeField 2 0 60 (← takeChar ':' cs)
  match cs with
  | '.' :: d :: rest => if d.isDigit then return rest.dropWhile Char.isDigit else none
  | cs => return cs

/-- The distance to the time at Greenwich. -/
def takeOffset : List Char → Option (List Char)
  | c :: cs =>
    if c = 'Z' ∨ c = 'z' then some cs
    else if c = '+' ∨ c = '-' then do
      let (_, cs) ← takeField 2 0 23 cs
      let (_, cs) ← takeField 2 0 59 (← takeChar ':' cs)
      return cs
    else none
  | [] => none

/-- The time that may follow a day. -/
def takeTimeOfDay : List Char → Option (List Char)
  | c :: cs =>
    if c = 'T' ∨ c = 't' ∨ c = ' ' then do
      let cs ← takeTime cs
      return (takeOffset cs).getD cs
    else none
  | [] => none

/-- A day, a time or both. -/
def takeDate : Taker Value := fun cs =>
  match takeDay cs with
  | some cs => some (.date, (takeTimeOfDay cs).getD cs)
  | none => do return (.date, ← takeTime cs)

/-! ## Scalars -/

/-- The characters after `token`, if `cs` begins with it. -/
def after? : (token cs : List Char) → Option (List Char)
  | [], cs => some cs
  | t :: ts, c :: cs => if t = c then after? ts cs else none
  | _ :: _, [] => none

/-- A value that is neither array nor table. -/
def takeScalar : Taker Value := fun cs =>
  match cs with
  | '"' :: _ => do
    let (s, rest) ← takeString cs
    return (.text s, rest)
  | '\'' :: _ => do
    let (s, rest) ← takeString cs
    return (.text s, rest)
  | 't' :: rest => do return (.bool true, ← after? ['r', 'u', 'e'] rest)
  | 'f' :: rest => do return (.bool false, ← after? ['a', 'l', 's', 'e'] rest)
  | cs =>
    match takeDate cs with
    | some found => some found
    | none =>
      match takeFloat cs with
      | some found => some found
      | none => takeInteger cs

end GameHall.Toml
