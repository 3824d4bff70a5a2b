/-!
# Network addresses

An address is the number of a host, in one of the two families, and a port. Its text is read strictly:
no blanks, no names, no octal digits in the old family; the new family is written in brackets, with
at most one run of zero groups left out and perhaps the old form in the last two groups.
-/

namespace GameHall

/-- The number of a host. -/
inductive Host where
  | v4 (a b c d : UInt8)
  /-- Eight groups of sixteen bits. -/
  | v6 (groups : List UInt16)
  deriving DecidableEq

/-- A host with a port. The scope matters to the new family only; zero stands for none. -/
structure Address where
  host : Host
  scope : Nat
  port : UInt16
  deriving DecidableEq

namespace Address

/-! ## Reading -/

/-- The digits at the front in a base, as a number below `limit`, and what follows them. There must
be one digit at least and `most` at most. -/
def takeNumber (base most limit : Nat) (cs : List Char) : Option (Nat × List Char) :=
  let value? (c : Char) : Option Nat :=
    let n := if c.isDigit then c.toNat - '0'.toNat
      else if 'a' ≤ c ∧ c ≤ 'f' then c.toNat - 'a'.toNat + 10
      else if 'A' ≤ c ∧ c ≤ 'F' then c.toNat - 'A'.toNat + 10
      else 16
    if n < base then some n else none
  let (ds, rest) := cs.span fun c => (value? c).isSome
  let n := ds.foldl (fun n d => n * base + (value? d).getD 0) 0
  if ds.isEmpty || most < ds.length || limit ≤ n then none else some (n, rest)

/-- A character that has to come next. -/
def takeChar (c : Char) : List Char → Option (List Char)
  | d :: rest => if d = c then some rest else none
  | [] => none

/-- A number below 256 without a leading zero. -/
def takeOctet (cs : List Char) : Option (UInt8 × List Char) := do
  let (n, rest) ← takeNumber 10 3 256 cs
  match cs with
  | '0' :: d :: _ => if d.isDigit then none else return (UInt8.ofNat n, rest)
  | _ => return (UInt8.ofNat n, rest)

/-- Four numbers with dots between. -/
def takeV4 (cs : List Char) : Option ((UInt8 × UInt8 × UInt8 × UInt8) × List Char) := do
  let (a, cs) ← takeOctet cs
  let (b, cs) ← takeOctet (← takeChar '.' cs)
  let (c, cs) ← takeOctet (← takeChar '.' cs)
  let (d, cs) ← takeOctet (← takeChar '.' cs)
  return ((a, b, c, d), cs)

/-- Two octets as one group. -/
def group (a b : UInt8) : UInt16 := UInt16.ofNat (a.toNat * 256 + b.toNat)

/-- Up to `room` groups with colons between; the old form may stand for the last two, and then the
flag is set. `first` tells that no colon is due. -/
def takeGroups : (room : Nat) → (first : Bool) → List Char → List UInt16 × Bool × List Char
  | 0, _, cs => ([], false, cs)
  | room + 1, first, cs =>
    let start := if first then some cs else takeChar ':' cs
    match room, start.bind takeV4 with
    | _ + 1, some ((a, b, c, d), rest) => ([group a b, group c d], true, rest)
    | _, _ =>
      match start.bind (takeNumber 16 4 65536) with
      | none => ([], false, cs)
      | some (n, rest) =>
        let (groups, old, rest) := takeGroups room false rest
        (UInt16.ofNat n :: groups, old, rest)

/-- A host of the new family. Where groups are left out, one at least is. -/
def takeV6 (cs : List Char) : Option (List UInt16 × List Char) :=
  match takeGroups 8 true cs with
  | (front, old, rest) =>
    if front.length = 8 then some (front, rest)
    else if old then none
    else do
      let rest ← takeChar ':' (← takeChar ':' rest)
      let (back, _, rest) := takeGroups (7 - front.length) true rest
      return (front ++ List.replicate (8 - front.length - back.length) 0 ++ back, rest)

/-- A colon and a port, and nothing after it. -/
def takePort (cs : List Char) : Option UInt16 := do
  let cs ← takeChar ':' cs
  let (n, rest) ← takeNumber 10 cs.length 65536 cs
  if rest.isEmpty then return UInt16.ofNat n else none

/-- A percent sign and a scope, or nothing. -/
def takeScope (cs : List Char) : Nat × List Char :=
  match cs with
  | '%' :: digits => (takeNumber 10 digits.length UInt32.size digits).getD (0, cs)
  | cs => (0, cs)

/-- Reads an address. -/
def read (text : String) : Option Address :=
  match text.toList with
  | '[' :: cs => do
    let (groups, cs) ← takeV6 cs
    let (scope, cs) := takeScope cs
    return ⟨.v6 groups, scope, ← takePort (← takeChar ']' cs)⟩
  | cs => do
    let ((a, b, c, d), cs) ← takeV4 cs
    return ⟨.v4 a b c d, 0, ← takePort cs⟩

/-- The words for a text that is no address. -/
def invalid : String := "invalid socket address syntax"

/-! ## Writing -/

/-- The text of a host of the old family. -/
def v4Text (a b c d : UInt8) : String := s!"{a}.{b}.{c}.{d}"

/-- Groups in hexadecimal with colons between. -/
def groupsText (groups : List UInt16) : String :=
  ":".intercalate (groups.map fun g => String.ofList (Nat.toDigits 16 g.toNat))

/-- How many groups at the front are zero. -/
def zeros (groups : List UInt16) : Nat := (groups.takeWhile (· == 0)).length

/-- Where the longest run of zero groups begins and how long it is; of two the first. -/
def longestRun : (start : Nat) → List UInt16 → Nat × Nat
  | _, [] => (0, 0)
  | start, g :: groups =>
    let here := zeros (g :: groups)
    let (later, size) := longestRun (start + 1) groups
    if size ≤ here then (start, here) else (later, size)

/-- The text of a host of the new family: a host of the old family in the form kept for these, and
otherwise the longest run of zero groups, if it has two at least, left out. -/
def v6Text (groups : List UInt16) : String :=
  match groups with
  | [0, 0, 0, 0, 0, 0xffff, a, b] =>
    s!"::ffff:{a.toNat / 256}.{a.toNat % 256}.{b.toNat / 256}.{b.toNat % 256}"
  | groups =>
    let (start, size) := longestRun 0 groups
    if size < 2 then groupsText groups
    else groupsText (groups.take start) ++ "::" ++ groupsText (groups.drop (start + size))

/-- The text of a host. -/
def hostText : Host → String
  | .v4 a b c d => v4Text a b c d
  | .v6 groups => v6Text groups

/-- The text of an address. -/
def text (a : Address) : String :=
  match a.host with
  | .v4 .. => s!"{hostText a.host}:{a.port}"
  | .v6 _ =>
    if a.scope = 0 then s!"[{hostText a.host}]:{a.port}" else s!"[{hostText a.host}%{a.scope}]:{a.port}"

end Address

end GameHall
