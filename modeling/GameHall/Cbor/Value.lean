import GameHall.Text.Utf8
import GameHall.Cbor.Head

/-!
# Whole data items

Payloads may hold any data item: nested arrays and maps, tags, numbers of every kind and strings
in segments. `Value.take` reads one whole item off the front of an octet string and leaves the
rest.

Containers and tags nest at most `Value.maxDepth` deep. The reader's recursion is over an
allowance of steps: a step down costs two and a step along costs one, and as every item has at
least one octet, twice the length of the input is more than can be used up.
-/

namespace GameHall.Cbor

/-- A data item. A tagged bignum of at most sixteen octets is the integer it stands for. -/
inductive Value where
  | int (v : Int)
  | bytes (body : Octets)
  | text (s : String)
  | bool (b : Bool)
  | null
  | float (x : Double)
  | array (elements : List Value)
  | map (entries : List (Value × Value))
  | tag (n : Nat) (v : Value)

namespace Value

/-- How deep containers and tags may nest. -/
def maxDepth : Nat := 256

/-- The longest octet string that is read as a bignum after tag 2 or 3. -/
def maxBignum : Nat := 16

/-- Exactly `n` octets off the front. -/
def takeOctets (n : Nat) (bs : Octets) : Option (Octets × Octets) :=
  if bs.length < n then none else some (bs.take n, bs.drop n)

/-- The octets of a string in segments: definite strings of the same kind, `opened` of them
begun and not ended, up to the stop that ends the outermost. `check` is asked about every
segment. -/
def takeSegments (segment : Head → Option (Option Nat)) (check : Octets → Bool) :
    (allowance opened : Nat) → Octets → Option (Octets × Octets)
  | 0, _, _ => none
  | allowance + 1, opened, bs =>
    match Head.take bs with
    | .found .stop rest =>
      if opened ≤ 1 then some ([], rest) else takeSegments segment check allowance (opened - 1) rest
    | .found head rest => do
      match ← segment head with
      | none => takeSegments segment check allowance (opened + 1) rest
      | some n =>
        let (body, rest) ← takeOctets n rest
        if check body then
          let (more, rest) ← takeSegments segment check allowance opened rest
          return (body ++ more, rest)
        else none
    | _ => none

/-- The length in the head of an octet string. -/
def bytesSegment : Head → Option (Option Nat)
  | .bytes length => some length
  | _ => none

/-- The length in the head of a text string. -/
def textSegment : Head → Option (Option Nat)
  | .text length => some length
  | _ => none

/-- Whether octets are text. -/
def isText (bs : Octets) : Bool := (Utf8.decode? bs).isSome

/-- The rest of an octet string whose head has been read. -/
def takeBytes (length : Option Nat) (bs : Octets) : Option (Value × Octets) := do
  let (body, rest) ← match length with
    | some n => takeOctets n bs
    | none => takeSegments bytesSegment (fun _ => true) (bs.length + 1) 1 bs
  return (.bytes body, rest)

/-- The rest of a text string whose head has been read. -/
def takeText (length : Option Nat) (bs : Octets) : Option (Value × Octets) := do
  let (body, rest) ← match length with
    | some n => takeOctets n bs
    | none => takeSegments textSegment isText (bs.length + 1) 1 bs
  return (.text (← Utf8.decode? body), rest)

/-- The integer of a tagged octet string: tag 2 counts up from zero, tag 3 down from `-1`. A
bignum below `-2 ^ 127` is refused. -/
def bignum (tag : Nat) (body : Octets) : Option Value :=
  let n := Octets.toNat body
  if tag = 2 then some (.int n)
  else if n < 1 <<< 127 then some (.int (.negSucc n))
  else none

/-- Whether a tag and the head after it make a bignum, and of how many octets. -/
def bignumLength (tag : Nat) (head : Head) : Option Nat :=
  match head with
  | .bytes (some n) => if (tag = 2 ∨ tag = 3) ∧ n ≤ maxBignum then some n else none
  | _ => none

mutual

/-- One item off the front; containers and tags in it may nest `depth` deep. -/
def takeWithin : (allowance depth : Nat) → Octets → Option (Value × Octets)
  | 0, _, _ => none
  | allowance + 1, depth, bs =>
    match Head.take bs with
    | .found (.positive n) rest => some (.int n, rest)
    | .found (.negative n) rest => some (.int (.negSucc n), rest)
    | .found (.bytes length) rest => takeBytes length rest
    | .found (.text length) rest => takeText length rest
    | .found (.float x) rest => some (.float x, rest)
    | .found (.simple 20) rest => some (.bool false, rest)
    | .found (.simple 21) rest => some (.bool true, rest)
    | .found (.simple 22) rest => some (.null, rest)
    | .found (.simple 23) rest => some (.null, rest)
    | .found (.array length) rest =>
      match depth with
      | 0 => none
      | depth + 1 => do
        let (elements, rest) ← match length with
          | some n => takeMany allowance depth n rest
          | none => takeUntilStop allowance depth rest
        return (.array elements, rest)
    | .found (.map length) rest =>
      match depth with
      | 0 => none
      | depth + 1 => do
        let (entries, rest) ← match length with
          | some n => takePairs allowance depth n rest
          | none => takePairsUntilStop allowance depth rest
        return (.map entries, rest)
    | .found (.tag n) rest =>
      match Head.take rest with
      | .found head body =>
        match bignumLength n head with
        | some length => do
          let (body, rest) ← takeOctets length body
          return (← bignum n body, rest)
        | none =>
          match depth with
          | 0 => none
          | depth + 1 => do
            let (v, rest) ← takeWithin allowance depth rest
            return (.tag n v, rest)
      | _ => none
    | _ => none

/-- `n` items off the front. -/
def takeMany : (allowance depth n : Nat) → Octets → Option (List Value × Octets)
  | _, _, 0, bs => some ([], bs)
  | 0, _, _ + 1, _ => none
  | allowance + 1, depth, n + 1, bs => do
    let (v, rest) ← takeWithin allowance depth bs
    let (vs, rest) ← takeMany allowance depth n rest
    return (v :: vs, rest)

/-- Items up to a stop. -/
def takeUntilStop : (allowance depth : Nat) → Octets → Option (List Value × Octets)
  | 0, _, _ => none
  | allowance + 1, depth, bs =>
    match Head.take bs with
    | .found .stop rest => some ([], rest)
    | _ => do
      let (v, rest) ← takeWithin allowance depth bs
      let (vs, rest) ← takeUntilStop allowance depth rest
      return (v :: vs, rest)

/-- `n` keys, each with its value. -/
def takePairs : (allowance depth n : Nat) → Octets → Option (List (Value × Value) × Octets)
  | _, _, 0, bs => some ([], bs)
  | 0, _, _ + 1, _ => none
  | allowance + 1, depth, n + 1, bs => do
    let (k, rest) ← takeWithin allowance depth bs
    let (v, rest) ← takeWithin allowance depth rest
    let (entries, rest) ← takePairs allowance depth n rest
    return ((k, v) :: entries, rest)

/-- Keys with their values up to a stop in the place of a key. -/
def takePairsUntilStop : (allowance depth : Nat) → Octets → Option (List (Value × Value) × Octets)
  | 0, _, _ => none
  | allowance + 1, depth, bs =>
    match Head.take bs with
    | .found .stop rest => some ([], rest)
    | _ => do
      let (k, rest) ← takeWithin allowance depth bs
      let (v, rest) ← takeWithin allowance depth rest
      let (entries, rest) ← takePairsUntilStop allowance depth rest
      return ((k, v) :: entries, rest)

end

/-- One whole item off the front. -/
def take (bs : Octets) : Option (Value × Octets) := takeWithin (2 * bs.length + 2) maxDepth bs

/-- The text of a text string, or of an octet string that is text. -/
def asText? : Value → Option String
  | .text s => some s
  | .bytes body => Utf8.decode? body
  | _ => none

/-- An integer of 32 bits. -/
def asInt32? : Value → Option Int
  | .int v => if -2147483648 ≤ v ∧ v ≤ 2147483647 then some v else none
  | _ => none

end Value

end GameHall.Cbor
