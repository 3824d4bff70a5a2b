import GameHall.Toml.Scalar
import GameHall.Toml.Table

/-!
# Reading TOML

A document is a sequence of lines: headers, which open a table, and keys with their values, which
are put into the table opened last. Arrays and inline tables may nest, and keys may be dotted, less
than `maxDepth` deep.

The recursion is over an allowance of steps that twice the length of the input always covers.
-/

namespace GameHall.Toml

/-- The depth at which arrays, inline tables and dotted keys are refused. -/
def maxDepth : Nat := 80

/-! ## Blanks, comments and keys -/

/-- Drops blanks, newlines and comments; `comment` says that a comment is being dropped. -/
def skipFiller : (comment : Bool) → List Char → List Char
  | _, [] => []
  | _, '\n' :: rest => skipFiller false rest
  | _, '\r' :: '\n' :: rest => skipFiller false rest
  | true, c :: rest => if isPlain c then skipFiller true rest else c :: rest
  | false, c :: rest =>
    if isSpace c then skipFiller false rest
    else if c = '#' then skipFiller true rest
    else c :: rest

/-- The end of a line after a statement: blanks, perhaps a comment, and a newline or the end of the
document. -/
def endStatement (cs : List Char) : Option (List Char) :=
  let cs := match skipSpaces cs with
    | '#' :: rest => rest.dropWhile isPlain
    | cs => cs
  if cs.isEmpty then some [] else takeNewline cs

/-- Characters of a key without quotes. -/
def isBare (c : Char) : Bool := c.isAlphanum || c == '_' || c == '-'

/-- One name of a key. -/
def takeName : Taker String := fun cs =>
  match cs with
  | '"' :: rest => do
    let (s, rest) ← takeBasic rest
    return (String.ofList s, rest)
  | '\'' :: rest => do
    let (s, rest) ← takeLiteral rest
    return (String.ofList s, rest)
  | cs =>
    match cs.span isBare with
    | ([], _) => none
    | (s, rest) => some (String.ofList s, rest)

/-- The names of a key, with dots between and blanks around them. -/
def takeNames : (allowance : Nat) → Taker (List String)
  | 0, _ => none
  | allowance + 1, cs => do
    let (name, rest) ← takeName (skipSpaces cs)
    match skipSpaces rest with
    | '.' :: rest => do
      let (names, rest) ← takeNames allowance rest
      return (name :: names, rest)
    | rest => return ([name], rest)

/-- A key. -/
def takeKey : Taker (List String) := fun cs => do
  let (names, rest) ← takeNames (cs.length + 1) cs
  if names.length < maxDepth then return (names, rest) else none

/-! ## Values -/

mutual

/-- A value; `depth` more arrays and inline tables may be opened. -/
def takeValue : (allowance depth : Nat) → Taker Value
  | 0, _, _ => none
  | allowance + 1, depth, cs =>
    match cs, depth with
    | '[' :: _, 0 => none
    | '[' :: rest, depth + 1 => do
      let (elements, rest) ← takeElements allowance depth rest
      return (.array elements, rest)
    | '{' :: _, 0 => none
    | '{' :: rest, depth + 1 => do
      let (pairs, rest) ← match skipSpaces rest with
        | '}' :: rest => some ([], rest)
        | rest => takePairs allowance depth rest
      return (.table (Node.toValues (← Table.ofPairs [] pairs)), rest)
    | cs, _ => takeScalar cs

/-- The elements of an array up to its closing bracket. A comma may follow the last. -/
def takeElements : (allowance depth : Nat) → Taker (List Value)
  | 0, _, _ => none
  | allowance + 1, depth, cs =>
    match skipFiller false cs with
    | ']' :: rest => some ([], rest)
    | cs => do
      let (v, rest) ← takeValue allowance depth cs
      match skipFiller false rest with
      | ',' :: rest => do
        let (vs, rest) ← takeElements allowance depth rest
        return (v :: vs, rest)
      | ']' :: rest => return ([v], rest)
      | _ => none

/-- The pairs of an inline table up to its closing brace. -/
def takePairs : (allowance depth : Nat) → Taker (List (List String × Value))
  | 0, _, _ => none
  | allowance + 1, depth, cs => do
    let (key, rest) ← takeKey cs
    let (v, rest) ← takeValue allowance depth (skipSpaces (← takeChar '=' rest))
    match skipSpaces rest with
    | ',' :: rest => do
      let (pairs, rest) ← takePairs allowance depth rest
      return ((key, v) :: pairs, rest)
    | '}' :: rest => return ([(key, v)], rest)
    | _ => none

end

/-! ## Documents -/

/-- A line of a document. -/
inductive Statement where
  | header (key : List String)
  | arrayHeader (key : List String)
  | pair (key : List String) (v : Value)

/-- A statement. -/
def takeStatement : Taker Statement := fun cs =>
  match cs with
  | '[' :: '[' :: rest => do
    let (key, rest) ← takeKey rest
    return (.arrayHeader key, ← takeChar ']' (← takeChar ']' rest))
  | '[' :: rest => do
    let (key, rest) ← takeKey rest
    return (.header key, ← takeChar ']' rest)
  | cs => do
    let (key, rest) ← takeKey cs
    let rest := skipSpaces (← takeChar '=' rest)
    let (v, rest) ← takeValue (2 * rest.length + 2) (maxDepth - 1) rest
    return (.pair key v, rest)

/-- The statements of a document. -/
def takeStatements : (allowance : Nat) → List Char → Option (List Statement)
  | 0, _ => none
  | allowance + 1, cs =>
    match skipFiller false cs with
    | [] => some []
    | cs => do
      let (s, rest) ← takeStatement cs
      return s :: (← takeStatements allowance (← endStatement rest))

/-- Puts the statements into tables; `current` leads to the table opened last. -/
def assemble (root : List (String × Node)) (current : List String) : List Statement →
    Option (List (String × Node))
  | [] => some root
  | .header key :: rest => do
    let (path, name) ← Table.split key
    assemble (← Table.within root path (Table.openTable name)) key rest
  | .arrayHeader key :: rest => do
    let (path, name) ← Table.split key
    assemble (← Table.within root path (Table.openNext name)) key rest
  | .pair key v :: rest => do
    let (path, name) ← Table.split key
    assemble (← Table.within root current fun t => Table.assign t path name v) current rest

/-- Drops the mark that may stand at the very beginning of a text. -/
def dropMark : List Char → List Char
  | c :: rest => if c.toNat = 0xFEFF then rest else c :: rest
  | [] => []

/-- The entries of the table that a document is. -/
def read (text : String) : Option (List (String × Value)) := do
  let cs := dropMark text.toList
  let statements ← takeStatements (cs.length + 1) cs
  return Node.toValues (← assemble [] [] statements)

end GameHall.Toml
