/-!
# JSON values

A JSON value as a document spells it, to the extent that anyone here asks. A number keeps its sign,
its whole part and whether anything followed that; a string whose escapes leave half of a surrogate
pair alone is a string in the grammar but no text.
-/

namespace GameHall

/-- A number as it is written. -/
structure JsonNumber where
  negative : Bool
  whole : Nat
  /-- Written without fraction and exponent. -/
  integral : Bool
  deriving DecidableEq

/-- A JSON value. The members of an object stand in the order of the document. -/
inductive Json where
  | null
  | bool (b : Bool)
  | number (n : JsonNumber)
  | string (s : Option String)
  | array (elements : List Json)
  | object (members : List (Option String × Json))

namespace Json

/-- A text as a value. -/
def ofText (s : String) : Json := .string (some s)

/-- A natural number as a value. -/
def ofNat (n : Nat) : Json := .number ⟨false, n, true⟩

/-- An integer as a value. -/
def ofInt : Int → Json
  | .ofNat n => .number ⟨false, n, true⟩
  | .negSucc n => .number ⟨true, n + 1, true⟩

/-- A number below `2 ^ 64`, written as a natural number and not as minus zero. -/
def asWord? : Json → Option Nat
  | number n => if !n.negative && n.integral && n.whole < UInt64.size then some n.whole else none
  | _ => none

/-- A text. -/
def asText? : Json → Option String
  | string s => s
  | _ => none

/-- A truth value. -/
def asBool? : Json → Option Bool
  | bool b => some b
  | _ => none

/-- A list of texts. -/
def asTexts? : Json → Option (List String)
  | array elements => elements.mapM asText?
  | _ => none

end Json

end GameHall
