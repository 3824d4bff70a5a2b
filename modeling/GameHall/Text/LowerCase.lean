import GameHall.Text.CaseTable

/-!
# Lower case

The lower case of a text is that of its characters one by one, with two exceptions. A capital sigma
at the end of a word becomes a final sigma: it must follow a cased character and not be followed by
one, ignorable characters passed over. And `İ` becomes two characters.
-/

namespace GameHall.LowerCase

/-- Whether a character lies in one of the ranges. -/
def inRanges (ranges : List (Nat × Nat)) (c : Char) : Bool :=
  ranges.any fun (first, last) => first ≤ c.toNat && c.toNat ≤ last

/-- Whether a character is passed over when its neighbours' case is looked at. -/
def isIgnorable (c : Char) : Bool := inRanges CaseTable.ignorable c

/-- Whether a character has case. -/
def isCased (c : Char) : Bool := inRanges CaseTable.cased c

/-- The lower case of a character that is no capital sigma. -/
def lowerChar (c : Char) : List Char :=
  if c.toNat < 0x80 then [c.toLower]
  else if c = 'İ' then ['i', '\u0307']
  else
    let n := c.toNat
    match CaseTable.lower.find? fun (first, last, step, _) =>
        first ≤ n && n ≤ last && (n - first) % step == 0 with
    | some (first, _, _, partner) => [Char.ofNat (partner + (n - first))]
    | none => [c]

/-- Whether the first character that is not ignorable has case. -/
def meetsCased (cs : List Char) : Bool :=
  match cs.dropWhile isIgnorable with
  | [] => false
  | c :: _ => isCased c

/-- The lower case of the characters `cs` after the characters `before`, latest first. -/
def lowerFrom (before : List Char) : List Char → List Char
  | [] => []
  | c :: cs =>
    let here :=
      if c = 'Σ' then [if meetsCased before && !meetsCased cs then 'ς' else 'σ'] else lowerChar c
    here ++ lowerFrom (c :: before) cs

end GameHall.LowerCase

namespace GameHall

/-- The lower case of a text. -/
def lowerCase (s : String) : String := String.ofList (LowerCase.lowerFrom [] s.toList)

end GameHall
