/-!
# TOML values

What a TOML document holds, to the extent that a configuration asks: the instants that dates stand
for and the numbers that floats stand for are not kept.
-/

namespace GameHall.Toml

/-- A value of a document. The entries of a table stand in the order of the document. -/
inductive Value where
  | text (s : String)
  | integer (v : Int)
  | float
  | bool (b : Bool)
  | date
  | array (elements : List Value)
  | table (entries : List (String × Value))
  deriving Inhabited

namespace Value

def asText? : Value → Option String
  | text s => some s
  | _ => none

def asBool? : Value → Option Bool
  | bool b => some b
  | _ => none

/-- An integer that is not negative. -/
def asNat? : Value → Option Nat
  | integer (.ofNat n) => some n
  | _ => none

/-- An array of texts. -/
def asTexts? : Value → Option (List String)
  | array elements => elements.mapM asText?
  | _ => none

end Value

end GameHall.Toml
