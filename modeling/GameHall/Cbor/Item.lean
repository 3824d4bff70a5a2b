import GameHall.Cbor.Head

/-!
# Items of a frame

Frames are flat: an array head and then scalars. `Item.take` removes one item from the front of a
buffer, all of it or nothing: an item whose last octet has not arrived leaves the buffer alone, so
nothing is ever read twice. `Item.write` writes an item in its shortest form.

A string is an item together with its body; an array is its head alone, and its elements are the
items that follow.
-/

namespace GameHall.Cbor

/-- One item of a frame. A text string is kept as octets; whether they are text is for the reader
of the frame to ask. -/
inductive Item where
  | array (length : Nat)
  | int (value : Int)
  | bytes (body : Octets)
  | text (body : Octets)
  | bool (value : Bool)
  | null
  deriving DecidableEq

namespace Item

/-- The sorts of item. -/
inductive Kind where
  | array | int | bytes | text | bool | null
  deriving DecidableEq

/-- The word for a sort of item. -/
def Kind.name : Kind → String
  | array => "array"
  | int => "integer"
  | bytes => "byte string"
  | text => "text string"
  | bool => "bool"
  | null => "null"

/-- The sort of an item. -/
def kind : Item → Kind
  | array _ => .array
  | int _ => .int
  | bytes _ => .bytes
  | text _ => .text
  | bool _ => .bool
  | null => .null

/-- Why the front of a buffer is no item of a frame. -/
inductive Fault where
  /-- The first octet begins no head. -/
  | badHead
  /-- A string declares more octets than are accepted. -/
  | oversized (length : Nat)
  /-- A well-formed head of an item that frames do not have. -/
  | unsupported (head : Head)
  deriving DecidableEq

/-- The words for a fault. A fault is always found at the very front of the buffer. -/
def Fault.message : Fault → String
  | badHead => "invalid item header at offset 0"
  | oversized length => s!"string item of {length} bytes exceeds limit"
  | unsupported head => s!"unsupported item {head.describe}"

/-- The longest string accepted from a peer: sixteen mebibytes. -/
def maxLength : Nat := 16 * 1024 * 1024

/-- The body of a string of `length` octets and what follows it. The limit is tested before the
body has to be there. -/
def takeBody (length : Nat) (bs : Octets) : Except Fault (Option (Octets × Octets)) :=
  if maxLength < length then .error (.oversized length)
  else if bs.length < length then .ok none
  else .ok (some (bs.take length, bs.drop length))

/-- A string of `length` octets, as the item that its body makes. -/
def takeString (make : Octets → Item) (length : Nat) (bs : Octets) :
    Except Fault (Option (Item × Octets)) :=
  match takeBody length bs with
  | .ok (some (body, rest)) => .ok (some (make body, rest))
  | .ok none => .ok none
  | .error e => .error e

/-- The item that begins with a head, and what follows it. -/
def ofHead (head : Head) (bs : Octets) : Except Fault (Option (Item × Octets)) :=
  match head with
  | .array (some n) => .ok (some (.array n, bs))
  | .positive n => .ok (some (.int n, bs))
  | .negative n => .ok (some (.int (.negSucc n), bs))
  | .bytes (some n) => takeString .bytes n bs
  | .text (some n) => takeString .text n bs
  | .simple 20 => .ok (some (.bool false, bs))
  | .simple 21 => .ok (some (.bool true, bs))
  | .simple 22 => .ok (some (.null, bs))
  | .simple 23 => .ok (some (.null, bs))
  | head => .error (.unsupported head)

/-- Removes one complete item from the front; `none` when the buffer does not hold one yet. -/
def take (bs : Octets) : Except Fault (Option (Item × Octets)) :=
  match Head.take bs with
  | .more => .ok none
  | .bad => .error .badHead
  | .found head rest => ofHead head rest

/-- The shortest form of an item. -/
def write : Item → Octets
  | array n => writeHead 4 n
  | int v => writeInt v
  | bytes body => writeHead 2 body.length ++ body
  | text body => writeHead 3 body.length ++ body
  | bool false => [0xf4]
  | bool true => [0xf5]
  | null => [0xf6]

end Item

/-! ## An item has at least one octet -/

/-- A field is taken from the front, and nothing is put back. -/
theorem takeField_length {width : Nat} {bs rest : Octets} {a : Argument}
    (h : takeField width bs = .found a rest) : rest.length ≤ bs.length := by
  unfold takeField at h
  split at h
  · simp at h
  · simp only [Front.found.injEq] at h
    simp [← h.2]

theorem takeArgument_length {low : Nat} {bs rest : Octets} {a : Argument}
    (h : takeArgument low bs = .found a rest) : rest.length ≤ bs.length := by
  unfold takeArgument at h
  split at h
  · simp only [Front.found.injEq] at h
    simp [← h.2]
  · repeat' split at h
    all_goals first
      | exact takeField_length h
      | (simp only [Front.found.injEq] at h; simp [← h.2])
      | simp at h

/-- A head has an octet of its own. -/
theorem Head.take_length {bs rest : Octets} {head : Head}
    (h : Head.take bs = .found head rest) : rest.length < bs.length := by
  cases bs with
  | nil => simp [Head.take] at h
  | cons b bs =>
    simp only [Head.take] at h
    split at h <;> try simp at h
    rename_i a rest' ha
    split at h <;> simp at h
    have := takeArgument_length ha
    simp [← h.2]
    omega

theorem Item.takeBody_length {length : Nat} {bs body rest : Octets}
    (h : takeBody length bs = .ok (some (body, rest))) : rest.length ≤ bs.length := by
  unfold takeBody at h
  split at h
  · simp at h
  · split at h
    · simp at h
    · simp only [Except.ok.injEq, Option.some.injEq, Prod.mk.injEq] at h
      simp [← h.2]

theorem Item.takeString_length {make : Octets → Item} {length : Nat} {bs rest : Octets}
    {item : Item} (h : takeString make length bs = .ok (some (item, rest))) :
    rest.length ≤ bs.length := by
  unfold takeString at h
  split at h
  · rename_i hbody
    cases h
    exact takeBody_length hbody
  · cases h
  · cases h

theorem Item.ofHead_length {head : Head} {bs rest : Octets} {item : Item}
    (h : ofHead head bs = .ok (some (item, rest))) : rest.length ≤ bs.length := by
  unfold ofHead at h
  split at h
  case h_4 | h_5 => exact takeString_length h
  all_goals cases h
  all_goals exact Nat.le_refl _

/-- Taking an item shortens the buffer. -/
theorem Item.take_length {bs rest : Octets} {item : Item}
    (h : Item.take bs = .ok (some (item, rest))) : rest.length < bs.length := by
  unfold Item.take at h
  split at h
  · cases h
  · cases h
  · rename_i hhead
    exact Nat.lt_of_le_of_lt (ofHead_length h) (Head.take_length hhead)

end GameHall.Cbor
