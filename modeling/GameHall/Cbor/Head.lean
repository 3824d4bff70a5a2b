import GameHall.Octets
import GameHall.Number.Shortest

/-!
# Heads of data items

Every CBOR data item begins with a head: one octet whose high three bits say what kind of item
follows and whose low five bits are its argument, or say how many of the next octets hold it, or
that the item is of indefinite length. `Head.take` reads a head off the front of an octet string;
`Head.write` writes the shortest one.
-/

namespace GameHall.Cbor

/-- The head of a data item. A length of `none` is indefinite. -/
inductive Head where
  | positive (n : Nat)
  /-- The number `-1 - n`. -/
  | negative (n : Nat)
  | bytes (length : Option Nat)
  | text (length : Option Nat)
  | array (length : Option Nat)
  | map (length : Option Nat)
  | tag (n : Nat)
  | simple (n : Nat)
  | float (x : Double)
  /-- Ends an item of indefinite length. -/
  | stop
  deriving DecidableEq

namespace Head

/-- The text of a length. -/
def lengthText : Option Nat → String
  | none => "None"
  | some n => s!"Some({n})"

/-- The text of a head, as it is quoted when an item is refused. -/
def describe : Head → String
  | positive n => s!"Positive({n})"
  | negative n => s!"Negative({n})"
  | bytes length => s!"Bytes({lengthText length})"
  | text length => s!"Text({lengthText length})"
  | array length => s!"Array({lengthText length})"
  | map length => s!"Map({lengthText length})"
  | tag n => s!"Tag({n})"
  | simple n => s!"Simple({n})"
  | float x => s!"Float({x.text})"
  | stop => "Break"

end Head

/-- The argument of a head. -/
inductive Argument where
  /-- The low five bits themselves. -/
  | inline (n : Nat)
  /-- The next `width` octets. -/
  | field (width : Nat) (n : Nat)
  | indefinite
  deriving DecidableEq

/-- What the front of an octet string holds. -/
inductive Front (α : Type) where
  /-- Too little to tell. -/
  | more
  /-- Nothing that can be. -/
  | bad
  | found (a : α) (rest : Octets)

/-- The octets of a field of `width` and what follows them. -/
def takeField (width : Nat) (bs : Octets) : Front Argument :=
  if bs.length < width then .more
  else .found (.field width (Octets.toNat (bs.take width))) (bs.drop width)

/-- The argument that the low five bits of the first octet announce. -/
def takeArgument (low : Nat) (bs : Octets) : Front Argument :=
  if low < 24 then .found (.inline low) bs
  else if low = 24 then takeField 1 bs
  else if low = 25 then takeField 2 bs
  else if low = 26 then takeField 4 bs
  else if low = 27 then takeField 8 bs
  else if low = 31 then .found .indefinite bs
  else .bad

/-- The length an argument gives. -/
def Argument.length : Argument → Option Nat
  | inline n => some n
  | field _ n => some n
  | indefinite => none

/-- The head that a kind (the high three bits of the first octet) and an argument make. Numbers
and tags have no indefinite form. -/
def Head.of (kind : Nat) (a : Argument) : Option Head :=
  match kind, a with
  | 0, a => a.length.map .positive
  | 1, a => a.length.map .negative
  | 2, a => some (.bytes a.length)
  | 3, a => some (.text a.length)
  | 4, a => some (.array a.length)
  | 5, a => some (.map a.length)
  | 6, a => a.length.map .tag
  | _, .inline n => some (.simple n)
  | _, .field 1 n => some (.simple n)
  | _, .field 2 n => some (.float (Double.ofBits Double.half n))
  | _, .field 4 n => some (.float (Double.ofBits Double.single n))
  | _, .field _ n => some (.float (Double.ofBits Double.double n))
  | _, .indefinite => some .stop

/-- Reads a head off the front. -/
def Head.take : Octets → Front Head
  | [] => .more
  | b :: bs =>
    match takeArgument (b.toNat % 32) bs with
    | .more => .more
    | .bad => .bad
    | .found a rest =>
      match Head.of (b.toNat / 32) a with
      | none => .bad
      | some h => .found h rest

/-- The shortest head of a kind with a number for its argument. -/
def writeHead (kind n : Nat) : Octets :=
  if n < 24 then [UInt8.ofNat (kind * 32 + n)]
  else if n < 256 then UInt8.ofNat (kind * 32 + 24) :: Octets.ofNat 1 n
  else if n < 65536 then UInt8.ofNat (kind * 32 + 25) :: Octets.ofNat 2 n
  else if n < 4294967296 then UInt8.ofNat (kind * 32 + 26) :: Octets.ofNat 4 n
  else UInt8.ofNat (kind * 32 + 27) :: Octets.ofNat 8 n

/-- The head of an integer. -/
def writeInt : Int → Octets
  | .ofNat n => writeHead 0 n
  | .negSucc n => writeHead 1 n

end GameHall.Cbor
