import GameHall.Octets

/-!
# Text as octets

Text travels as UTF-8. `Utf8.decode` reads it one octet at a time and says of an octet string that
is not text where the text ends and how many octets the offending sequence has; `Utf8.encode`
writes it.

The reader is a machine with two states: between two characters, or inside a sequence
(`Pending`) whose next octet must lie in a known range. The ranges exclude overlong forms,
surrogates and everything above `U+10FFFF`, so every sequence that completes is a character.

`Utf8.legible` goes on where `Utf8.decode` stops: a sequence that is no character, as far as it may be the
beginning of one, is read as `U+FFFD`, and the octet that broke it off is looked at anew.
-/

namespace GameHall.Utf8

/-- Where and how an octet string stops being text. -/
structure Fault where
  /-- How many octets before the fault are text. -/
  index : Nat
  /-- The octets of the offending sequence; `none` when the input ends inside a sequence. -/
  length : Option Nat
  deriving DecidableEq

/-- The words for a fault. -/
def Fault.message : Fault → String
  | ⟨index, some length⟩ => s!"invalid utf-8 sequence of {length} bytes from index {index}"
  | ⟨index, none⟩ => s!"incomplete utf-8 byte sequence from index {index}"

/-- A sequence that has begun and is not complete. -/
structure Pending where
  /-- Octets read so far. -/
  taken : Nat
  /-- Octets due after the next one. -/
  due : Nat
  /-- Bounds of the next octet. -/
  low : UInt8
  high : UInt8
  /-- The bits read so far. -/
  bits : Nat
  deriving DecidableEq

/-- The sequence that a lead octet begins, if it begins one of two octets or more. -/
def lead (b : UInt8) : Option Pending :=
  if b < 0xC2 then none
  else if b < 0xE0 then some ⟨1, 0, 0x80, 0xBF, b.toNat % 32⟩
  else if b = 0xE0 then some ⟨1, 1, 0xA0, 0xBF, 0⟩
  else if b = 0xED then some ⟨1, 1, 0x80, 0x9F, 13⟩
  else if b < 0xF0 then some ⟨1, 1, 0x80, 0xBF, b.toNat % 16⟩
  else if b = 0xF0 then some ⟨1, 2, 0x90, 0xBF, 0⟩
  else if b < 0xF4 then some ⟨1, 2, 0x80, 0xBF, b.toNat % 8⟩
  else if b = 0xF4 then some ⟨1, 2, 0x80, 0x8F, 4⟩
  else none

/-- Reads the characters from `index` on. The fault's index is that of the sequence's first
octet. -/
def decodeFrom : (index : Nat) → Option Pending → Octets → Except Fault (List Char)
  | _, none, [] => .ok []
  | index, some _, [] => .error ⟨index, none⟩
  | index, none, b :: rest =>
    if b < 0x80 then
      match decodeFrom (index + 1) none rest with
      | .ok cs => .ok (Char.ofNat b.toNat :: cs)
      | .error e => .error e
    else
      match lead b with
      | none => .error ⟨index, some 1⟩
      | some p => decodeFrom index (some p) rest
  | index, some p, b :: rest =>
    if p.low ≤ b ∧ b ≤ p.high then
      let bits := p.bits * 64 + b.toNat % 64
      match p.due with
      | 0 =>
        match decodeFrom (index + p.taken + 1) none rest with
        | .ok cs => .ok (Char.ofNat bits :: cs)
        | .error e => .error e
      | due + 1 => decodeFrom index (some ⟨p.taken + 1, due, 0x80, 0xBF, bits⟩) rest
    else .error ⟨index, some p.taken⟩

/-- The text an octet string spells. -/
def decode (bs : Octets) : Except Fault String :=
  match decodeFrom 0 none bs with
  | .ok cs => .ok (String.ofList cs)
  | .error e => .error e

/-- The text an octet string spells, if it is text. -/
def decode? (bs : Octets) : Option String :=
  match decode bs with
  | .ok s => some s
  | .error _ => none

/-- What stands in the place of a sequence that is no character. -/
def replacement : Char := Char.ofNat 0xFFFD

/-- What the first octet of a sequence gives: a character, or a sequence that goes on. -/
def begin (b : UInt8) : List Char × Option Pending :=
  if b < 0x80 then ([Char.ofNat b.toNat], none)
  else
    match lead b with
    | none => ([replacement], none)
    | some p => ([], some p)

/-- What an octet gives, and the sequence that goes on behind it. One that breaks a sequence off begins
the next. -/
def proceed : Option Pending → UInt8 → List Char × Option Pending
  | none, b => begin b
  | some p, b =>
    if p.low ≤ b ∧ b ≤ p.high then
      let bits := p.bits * 64 + b.toNat % 64
      match p.due with
      | 0 => ([Char.ofNat bits], none)
      | due + 1 => ([], some ⟨p.taken + 1, due, 0x80, 0xBF, bits⟩)
    else
      match begin b with
      | (cs, next) => (replacement :: cs, next)

/-- Reads the characters of octets that need not be text. -/
def legibleFrom : Option Pending → Octets → List Char
  | none, [] => []
  | some _, [] => [replacement]
  | p, b :: rest =>
    match proceed p b with
    | (cs, next) => cs ++ legibleFrom next rest

/-- The characters that can be read of octets. -/
def legible (bs : Octets) : List Char := legibleFrom none bs

/-- The one to four octets of a character. -/
def encodeChar (c : Char) : Octets :=
  let n := c.toNat
  if n < 0x80 then [UInt8.ofNat n]
  else if n < 0x800 then [UInt8.ofNat (0xC0 + n / 64), UInt8.ofNat (0x80 + n % 64)]
  else if n < 0x10000 then
    [UInt8.ofNat (0xE0 + n / 4096), UInt8.ofNat (0x80 + n / 64 % 64), UInt8.ofNat (0x80 + n % 64)]
  else
    [UInt8.ofNat (0xF0 + n / 262144), UInt8.ofNat (0x80 + n / 4096 % 64),
      UInt8.ofNat (0x80 + n / 64 % 64), UInt8.ofNat (0x80 + n % 64)]

/-- The octets of a text. -/
def encode (s : String) : Octets := s.toList.flatMap encodeChar

end GameHall.Utf8
