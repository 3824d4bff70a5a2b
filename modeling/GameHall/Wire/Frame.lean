import GameHall.Wire.Fault

/-!
# Streams of frames

A frame is an array of items, and a stream is frames one after the other with nothing between.
What the items of a frame must be is the business of a `Shape`: it starts a draft when the array
head arrives and takes the elements one by one, so a bad frame is refused at its first bad element.

A `Codec` reads a stream that arrives in chunks. `Codec.feed` appends a chunk to what is left of
the earlier ones and takes every frame that is complete. When frames stand before a fault they are
delivered and the fault is kept for the next call.
-/

namespace GameHall

/-- How one kind of frame is put together: `δ` is a frame under construction, `φ` a whole one. -/
structure Shape (δ φ : Type) where
  /-- Starts a frame whose head declares a number of elements. -/
  start : Nat → Except CodecFault δ
  /-- Takes the next element: the frame goes on, or it is complete. -/
  push : δ → Cbor.Item → Except CodecFault (δ ⊕ φ)

namespace Shape

variable {δ φ : Type}

/-- Takes one item of the stream. Between frames only an array head will do. -/
def advance (shape : Shape δ φ) (draft : Option δ) (item : Cbor.Item) :
    Except CodecFault (δ ⊕ φ) :=
  match draft, item with
  | some d, item => shape.push d item
  | none, .array n =>
    match shape.start n with
    | .ok d => .ok (.inl d)
    | .error e => .error e
  | none, item => .error (.unexpectedItem 0 (.kind item.kind))

/-- How far one call of `decode` came. -/
inductive Outcome (φ : Type) where
  /-- The input ended before the frame did. -/
  | more
  | frame (f : φ)
  | fault (e : CodecFault)

/-- What `decode` leaves behind: the frame under construction and the octets not consumed. -/
structure Decoded (δ φ : Type) where
  outcome : Outcome φ
  draft : Option δ
  rest : Octets

/-- Takes items off the front until a frame is complete. A fault drops the frame under
construction; the item that does not fit its place has been consumed, one that cannot be read has
not. -/
def decode (shape : Shape δ φ) (draft : Option δ) (src : Octets) : Decoded δ φ :=
  match h : Cbor.Item.take src with
  | .error e => ⟨.fault (.malformed (.item e)), none, src⟩
  | .ok none => ⟨.more, draft, src⟩
  | .ok (some (item, rest)) =>
    match shape.advance draft item with
    | .error e => ⟨.fault e, none, rest⟩
    | .ok (.inr f) => ⟨.frame f, none, rest⟩
    | .ok (.inl d) =>
      have := Cbor.Item.take_length h
      decode shape (some d) rest
  termination_by src.length

/-- A frame has at least one octet. -/
theorem decode_frame_length (shape : Shape δ φ) (draft : Option δ) (src : Octets) {f : φ}
    (h : (shape.decode draft src).outcome = .frame f) :
    (shape.decode draft src).rest.length < src.length := by
  fun_induction decode shape draft src with
  | case1 => simp at h
  | case2 => simp at h
  | case3 => simp at h
  | case4 draft src item rest hi => exact Cbor.Item.take_length hi
  | case5 draft src item rest hi d _ hlt ih =>
    have := Cbor.Item.take_length hi
    have := ih h
    omega

/-- Everything a buffer yields: the frames before the end or the first fault. -/
structure Drained (δ φ : Type) where
  frames : List φ
  fault : Option CodecFault
  draft : Option δ
  rest : Octets

/-- Decodes until the input ends or a fault is met. -/
def drain (shape : Shape δ φ) (draft : Option δ) (src : Octets) : Drained δ φ :=
  match h : shape.decode draft src with
  | ⟨.more, draft, rest⟩ => ⟨[], none, draft, rest⟩
  | ⟨.fault e, draft, rest⟩ => ⟨[], some e, draft, rest⟩
  | ⟨.frame f, draft', rest⟩ =>
    have : rest.length < src.length := by
      simpa [h] using decode_frame_length shape draft src (by rw [h])
    let later := drain shape draft' rest
    { later with frames := f :: later.frames }
  termination_by src.length

end Shape

/-- The reading end of a stream of frames. -/
structure Codec (δ : Type) where
  /-- The frame under construction. -/
  draft : Option δ
  /-- Octets that have arrived and are not consumed. -/
  buffer : Octets
  /-- A fault met after frames that have been delivered. -/
  deferred : Option CodecFault

namespace Codec

variable {δ φ : Type}

/-- A stream of which nothing has arrived. -/
def new : Codec δ := ⟨none, [], none⟩

/-- Takes a chunk and gives the frames that are now complete, or the fault that stands before the
next frame. While a fault is deferred, the next chunk is dropped and the fault given instead. -/
def feed (shape : Shape δ φ) (c : Codec δ) (chunk : Octets) :
    Except CodecFault (List φ) × Codec δ :=
  match c.deferred with
  | some e => (.error e, { c with deferred := none })
  | none =>
    let d := shape.drain c.draft (c.buffer ++ chunk)
    match d.fault, d.frames with
    | none, frames => (.ok frames, ⟨d.draft, d.rest, none⟩)
    | some e, [] => (.error e, ⟨d.draft, d.rest, none⟩)
    | some e, frames => (.ok frames, ⟨d.draft, d.rest, some e⟩)

/-- Takes the fault the last `feed` deferred. -/
def takeFault (c : Codec δ) : Option CodecFault × Codec δ :=
  (c.deferred, { c with deferred := none })

/-- Takes a chunk the way a reading loop does: the frames to deliver, and the fault that ends the
stream, if one does. -/
def absorb (shape : Shape δ φ) (c : Codec δ) (chunk : Octets) :
    List φ × Option CodecFault × Codec δ :=
  match c.feed shape chunk with
  | (.error e, c) => ([], some e, c)
  | (.ok frames, c) =>
    match c.takeFault with
    | (fault, c) => (frames, fault, c)

/-- Takes chunks one after the other the way a reading loop does, up to the first fault. -/
def absorbAll (shape : Shape δ φ) (c : Codec δ) :
    List Octets → List φ × Option CodecFault × Codec δ
  | [] => ([], none, c)
  | chunk :: chunks =>
    match c.absorb shape chunk with
    | (frames, some e, c) => (frames, some e, c)
    | (frames, none, c) =>
      match absorbAll shape c chunks with
      | (later, fault, c) => (frames ++ later, fault, c)

/-- Decodes what a caller has in a buffer of its own, until the input ends or a fault is met. The
buffer of the codec has no part in it. -/
def decodeAll (shape : Shape δ φ) (c : Codec δ) (src : Octets) :
    List φ × Option CodecFault × Codec δ × Octets :=
  let d := shape.drain c.draft src
  (d.frames, d.fault, { c with draft := d.draft }, d.rest)

/-- Decodes each time a caller has appended a chunk to a buffer of its own, up to the first fault. -/
def decodeChunks (shape : Shape δ φ) (c : Codec δ) (src : Octets) :
    List Octets → List φ × Option CodecFault × Codec δ × Octets
  | [] => ([], none, c, src)
  | chunk :: chunks =>
    match c.decodeAll shape (src ++ chunk) with
    | (frames, some e, c, src) => (frames, some e, c, src)
    | (frames, none, c, src) =>
      match decodeChunks shape c src chunks with
      | (later, fault, c, src) => (frames ++ later, fault, c, src)

/-- Whether a frame has begun and waits for more. -/
def inProgress (c : Codec δ) : Bool := c.draft.isSome || !c.buffer.isEmpty

end Codec

/-! ## Elements at a position -/

/-- The integer at a position, if it lies between two bounds. -/
def expectInt (low high : Int) (position : Nat) : Cbor.Item → Except CodecFault Int
  | .int v =>
    if low ≤ v ∧ v ≤ high then .ok v else .error (.unexpectedItem position (.outOfRange v))
  | item => .error (.unexpectedItem position (.kind item.kind))

/-- The 32-bit integer at a position. -/
def expectInt32 (position : Nat) (item : Cbor.Item) : Except CodecFault Int32 :=
  match expectInt (-2147483648) 2147483647 position item with
  | .ok v => .ok (Int32.ofInt v)
  | .error e => .error e

/-- The 64-bit integer at a position. -/
def expectInt64 (position : Nat) (item : Cbor.Item) : Except CodecFault Int64 :=
  match expectInt (-9223372036854775808) 9223372036854775807 position item with
  | .ok v => .ok (Int64.ofInt v)
  | .error e => .error e

/-- The string at a position; octet and text strings will both do. -/
def expectString (position : Nat) : Cbor.Item → Except CodecFault Octets
  | .bytes body => .ok body
  | .text body => .ok body
  | item => .error (.unexpectedItem position (.kind item.kind))

end GameHall
