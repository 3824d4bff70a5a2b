import GameHall.Wire.Packet
import GameHall.Wire.Record

/-!
# Frames put together in place

A `Codec` makes a new draft for every frame and drops it with the frame. A `Bench` reads the same
streams with one set of registers for all the frames: the head of an array sets how many elements there
will be and that none is there yet, an element overwrites a register, and only a reset clears them all.
No type keeps out of a frame what an earlier one has left in the registers. What the registers of one
kind of frame are, and what each element does to them, is the business of an `Assembler`.
-/

namespace GameHall

/-- The registers of the frame under construction. -/
structure Assembly (ρ : Type) where
  /-- How many elements the head has declared. While no frame has begun it is zero. -/
  arity : Nat
  /-- How many elements have been accepted. -/
  filled : Nat
  parts : ρ
  deriving DecidableEq

namespace Assembly

variable {ρ : Type}

/-- Cleared registers. -/
def initial [Inhabited ρ] : Assembly ρ := ⟨0, 0, default⟩

/-- Whether a frame has begun and is not complete. -/
def inProgress (a : Assembly ρ) : Bool := a.arity != 0

end Assembly

/-- How frames of one kind are put together in registers: `ρ` holds the elements, `φ` is a whole
frame. -/
structure Assembler (ρ φ : Type) where
  /-- Whether a frame may have a number of elements. -/
  admits : Nat → Bool
  /-- Accepts the next element, and gives the frame with the last of them. A fault leaves registers,
  too. -/
  push : Assembly ρ → Cbor.Item → Except CodecFault (Option φ) × Assembly ρ

namespace Assembler

variable {ρ φ : Type} [Inhabited ρ] (asm : Assembler ρ φ)

/-- Begins a frame of `n` elements. The registers of the elements are not cleared. -/
def start (a : Assembly ρ) (n : Nat) : Except CodecFault Unit × Assembly ρ :=
  if asm.admits n then (.ok (), { a with arity := n, filled := 0 })
  else (.error (.invalidArity n), a)

/-- Takes one item of the stream. Between frames only an array head will do. -/
def accept (a : Assembly ρ) (item : Cbor.Item) : Except CodecFault (Option φ) × Assembly ρ :=
  if a.inProgress then asm.push a item
  else
    match item with
    | .array n =>
      match asm.start a n with
      | (.ok (), a) => (.ok none, a)
      | (.error e, a) => (.error e, a)
    | item => (.error (.unexpectedItem 0 (.kind item.kind)), a)

/-- What one call of `decode` leaves behind: the registers and the octets not consumed. -/
structure Decoded (ρ φ : Type) where
  outcome : Shape.Outcome φ
  assembly : Assembly ρ
  rest : Octets

/-- Takes items off the front until a frame is complete. A fault clears the registers. -/
def decode (a : Assembly ρ) (src : Octets) : Decoded ρ φ :=
  match h : Cbor.Item.take src with
  | .error e => ⟨.fault (.malformed (.item e)), .initial, src⟩
  | .ok none => ⟨.more, a, src⟩
  | .ok (some (item, rest)) =>
    match asm.accept a item with
    | (.error e, _) => ⟨.fault e, .initial, rest⟩
    | (.ok (some f), a) => ⟨.frame f, a, rest⟩
    | (.ok none, a) =>
      have := Cbor.Item.take_length h
      decode a rest
  termination_by src.length

/-- A frame has at least one octet. -/
theorem decode_frame_length (a : Assembly ρ) (src : Octets) {f : φ}
    (h : (asm.decode a src).outcome = .frame f) : (asm.decode a src).rest.length < src.length := by
  fun_induction decode asm a src with
  | case1 => simp at h
  | case2 => simp at h
  | case3 => simp at h
  | case4 a src item rest hi => exact Cbor.Item.take_length hi
  | case5 a src item rest hi a' _ hlt ih => exact Nat.lt_trans (ih h) hlt

/-- Everything a buffer yields: the frames before the end or the first fault. -/
structure Drained (ρ φ : Type) where
  frames : List φ
  fault : Option CodecFault
  assembly : Assembly ρ
  rest : Octets

/-- Decodes until the input ends or a fault is met. -/
def drain (a : Assembly ρ) (src : Octets) : Drained ρ φ :=
  match h : asm.decode a src with
  | ⟨.more, a, rest⟩ => ⟨[], none, a, rest⟩
  | ⟨.fault e, a, rest⟩ => ⟨[], some e, a, rest⟩
  | ⟨.frame f, a', rest⟩ =>
    have : rest.length < src.length := by
      simpa [h] using asm.decode_frame_length a src (by rw [h])
    let later := drain a' rest
    { later with frames := f :: later.frames }
  termination_by src.length

end Assembler

/-- The reading end of a stream of frames that are put together in place. -/
structure Bench (ρ : Type) where
  assembly : Assembly ρ
  /-- Octets that have arrived and are not consumed. -/
  buffer : Octets
  /-- A fault met after frames that have been delivered. -/
  deferred : Option CodecFault

namespace Bench

variable {ρ φ : Type} [Inhabited ρ] (asm : Assembler ρ φ)

/-- A stream of which nothing has arrived. -/
def new : Bench ρ := ⟨.initial, [], none⟩

/-- Takes a chunk and gives the frames that are now complete, or the fault that stands before the next
frame. While a fault is deferred, the next chunk is dropped and the fault given instead. -/
def feed (b : Bench ρ) (chunk : Octets) : Except CodecFault (List φ) × Bench ρ :=
  match b.deferred with
  | some e => (.error e, { b with deferred := none })
  | none =>
    let d := asm.drain b.assembly (b.buffer ++ chunk)
    match d.fault, d.frames with
    | none, frames => (.ok frames, ⟨d.assembly, d.rest, none⟩)
    | some e, [] => (.error e, ⟨d.assembly, d.rest, none⟩)
    | some e, frames => (.ok frames, ⟨d.assembly, d.rest, some e⟩)

omit [Inhabited ρ] in
/-- Takes the fault the last `feed` deferred. -/
def takeFault (b : Bench ρ) : Option CodecFault × Bench ρ :=
  (b.deferred, { b with deferred := none })

omit [Inhabited ρ] in
/-- Whether a frame has begun and waits for more. -/
def inProgress (b : Bench ρ) : Bool := b.assembly.inProgress || !b.buffer.isEmpty

end Bench

/-! ## Records -/

/-- The registers of a record. The last element of the long form goes straight into the record. -/
structure RecordParts where
  id : Int32
  mask : Int32
  command : Octets
  payload : Octets
  timeout : Int32
  deriving DecidableEq

instance : Inhabited RecordParts := ⟨⟨0, 0, [], [], 0⟩⟩

namespace RecordParts

/-- Puts an element other than the last of the long form into its register. -/
def put (p : RecordParts) (position : Nat) (item : Cbor.Item) : Except CodecFault RecordParts :=
  match position with
  | 0 => do return { p with id := ← expectInt32 0 item }
  | 1 => do return { p with mask := ← expectInt32 1 item }
  | 2 => do return { p with command := ← expectString 2 item }
  | 3 => do return { p with payload := ← expectString 3 item }
  | _ => do return { p with timeout := ← expectInt32 4 item }

/-- The record of what is in the registers. -/
def record (p : RecordParts) (timing : Option Timing) : Record :=
  ⟨p.id, p.mask, p.command, p.payload, timing⟩

end RecordParts

namespace Record

/-- More elements than a record has. -/
def overran : CodecFault := .malformed (.other "record overran its arity")

/-- Accepts the next element of a record. -/
def push (a : Assembly RecordParts) (item : Cbor.Item) :
    Except CodecFault (Option Record) × Assembly RecordParts :=
  match a.filled with
  | 5 =>
    match expectInt64 5 item with
    | .error e => (.error e, a)
    | .ok timestamp => (.ok (some (a.parts.record (some ⟨a.parts.timeout, timestamp⟩))), .initial)
  | _ + 6 => (.error overran, .initial)
  | position =>
    match a.parts.put position item with
    | .error e => (.error e, a)
    | .ok parts =>
      let a : Assembly RecordParts := { a with parts, filled := position + 1 }
      if a.filled = a.arity ∧ a.arity = 4 then (.ok (some (a.parts.record none)), .initial)
      else (.ok none, a)

/-- The assembler of records. -/
def assembler : Assembler RecordParts Record where
  admits n := n == 4 || n == 6
  push := push

end Record

/-! ## Packets -/

/-- The registers of a packet. The kind is a number, which is none of a kind until it is there. -/
structure PacketParts where
  kind : Int64
  id : Int32
  method : String
  params : List Packet.Value
  deriving DecidableEq

instance : Inhabited PacketParts := ⟨⟨0, 0, "", []⟩⟩

namespace PacketParts

/-- Puts an element into its register, or behind the parameters. -/
def put (p : PacketParts) (position : Nat) (item : Cbor.Item) : Except CodecFault PacketParts :=
  match position with
  | 0 => do
    let kind ← expectInt64 0 item
    if 1 ≤ kind ∧ kind ≤ 3 then return { p with kind }
    else .error (.unexpectedItem 0 (.packetKind kind.toInt))
  | 1 => do return { p with id := ← expectInt32 1 item }
  | 2 => do
    match Utf8.decode (← expectString 2 item) with
    | .ok method => return { p with method }
    | .error e => .error (.malformed (.methodName e))
  | position => do return { p with params := p.params ++ [← Packet.Value.ofItem position item] }

/-- The packet of what is in the registers. -/
def packet (p : PacketParts) : Packet :=
  if p.kind = 1 then .call ⟨p.id, p.method, p.params⟩
  else if p.kind = 2 then .reply p.id (p.params.headD .null)
  else .refusal p.id ((p.params.head?.bind Packet.Value.asText?).getD "")

end PacketParts

namespace Packet

/-- Accepts the next element of a packet. -/
def push (a : Assembly PacketParts) (item : Cbor.Item) :
    Except CodecFault (Option Packet) × Assembly PacketParts :=
  match a.parts.put a.filled item with
  | .error e => (.error e, a)
  | .ok parts =>
    let a : Assembly PacketParts := { a with parts, filled := a.filled + 1 }
    if a.filled = a.arity then (.ok (some a.parts.packet), .initial) else (.ok none, a)

/-- The assembler of packets. -/
def assembler : Assembler PacketParts Packet where
  admits n := decide (3 ≤ n ∧ n ≤ 3 + maxParams)
  push := push

end Packet

end GameHall
