import GameHall.Assoc
import GameHall.Toml.Value

/-!
# Putting tables together

The lines of a document say piece by piece what is in which table. A table may be written in one way
only: with a header of its own, by dotted keys, or inline; and each key of it is given once.

While a document is read, its tables remember how they came to be (`Origin`). A header turns a table
that is only implied by the header of a table inside it into one of its own; dotted keys add only to
tables that dotted keys have made, though they may pass through tables that headers imply, and
through the latest table of an array.
-/

namespace GameHall.Toml

/-- How a table came to be. -/
inductive Origin where
  /-- It has a header. -/
  | header
  /-- A table inside it has a header. -/
  | implied
  /-- A dotted key leads through it. -/
  | dotted
  deriving DecidableEq

/-- What stands under a key while tables are put together. -/
inductive Node where
  | value (v : Value)
  | table (origin : Origin) (entries : List (String × Node))
  /-- An array of tables: those that are finished, latest first, and the latest of all. -/
  | tables (finished : List Value) (latest : List (String × Node))

mutual

/-- The value that a node stands for. -/
def Node.toValue : Node → Value
  | .value v => v
  | .table _ entries => .table (Node.toValues entries)
  | .tables finished latest => .array (finished.reverse ++ [.table (Node.toValues latest)])

/-- The entries of a table as values. -/
def Node.toValues : List (String × Node) → List (String × Value)
  | [] => []
  | (k, n) :: rest => (k, n.toValue) :: Node.toValues rest

end

namespace Table

/-- Gives a key a value in the table that `path` leads to by dotted keys. -/
def assign (entries : List (String × Node)) (path : List String) (key : String) (v : Value) :
    Option (List (String × Node)) :=
  match path with
  | [] => if Assoc.has entries key then none else some (Assoc.set entries key (.value v))
  | k :: path =>
    match Assoc.get? entries k with
    | none => do return Assoc.set entries k (.table .dotted (← assign [] path key v))
    | some (.table .dotted inner) => do
      return Assoc.set entries k (.table .dotted (← assign inner path key v))
    | some (.table .implied inner) =>
      if path.isEmpty then none
      else do return Assoc.set entries k (.table .implied (← assign inner path key v))
    | some (.tables finished latest) =>
      if path.isEmpty then none
      else do return Assoc.set entries k (.tables finished (← assign latest path key v))
    | some (.table .header _) => none
    | some (.value _) => none

/-- Changes the table that the headers `path` lead to. -/
def within (entries : List (String × Node)) (path : List String)
    (change : List (String × Node) → Option (List (String × Node))) :
    Option (List (String × Node)) :=
  match path with
  | [] => change entries
  | k :: path =>
    match Assoc.get? entries k with
    | none => do return Assoc.set entries k (.table .implied (← within [] path change))
    | some (.table origin inner) => do
      return Assoc.set entries k (.table origin (← within inner path change))
    | some (.tables finished latest) => do
      return Assoc.set entries k (.tables finished (← within latest path change))
    | some (.value _) => none

/-- Opens the table of a header. -/
def openTable (key : String) (entries : List (String × Node)) : Option (List (String × Node)) :=
  match Assoc.get? entries key with
  | none => some (Assoc.set entries key (.table .header []))
  | some (.table .implied inner) => some (Assoc.set entries key (.table .header inner))
  | some _ => none

/-- Opens the next table of an array of tables. -/
def openNext (key : String) (entries : List (String × Node)) : Option (List (String × Node)) :=
  match Assoc.get? entries key with
  | none => some (Assoc.set entries key (.tables [] []))
  | some (.tables finished latest) =>
    some (Assoc.set entries key (.tables (.table (Node.toValues latest) :: finished) []))
  | some _ => none

/-- A key that may be dotted, in two parts: the tables it leads through and the last name. -/
def split : List String → Option (List String × String)
  | [] => none
  | [k] => some ([], k)
  | k :: ks => do
    let (path, last) ← split ks
    return (k :: path, last)

/-- The table that keys with their values make. -/
def ofPairs (entries : List (String × Node)) : List (List String × Value) →
    Option (List (String × Node))
  | [] => some entries
  | (keys, v) :: rest => do
    let (path, key) ← split keys
    ofPairs (← assign entries path key v) rest

end Table

end GameHall.Toml
