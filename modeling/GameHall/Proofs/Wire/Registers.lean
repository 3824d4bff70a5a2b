import GameHall.Proofs.Wire.Grammar
import GameHall.Wire.Assembler

/-!
# What the registers hold

A bench does with its registers what a codec does with its drafts. The registers always hold some
draft (`Assembly.holding`): they are cleared while there is none, and while there is one they have its
elements and nothing else. So to put frames together in place is to put them together in drafts, call
by call (`Bench.feed_held`, `Assembler.Mirrors.decode_held`), although only the drafts are made anew for
every frame.

That each element does the same to the registers as to the draft is all that has to be known of an
assembler (`Assembler.Mirrors`). Records and packets have it (`Record.mirrors`, `Packet.mirrors`).
-/

namespace GameHall

variable {δ ρ φ : Type} [Inhabited ρ]

/-! ## Registers that hold a draft -/

/-- The registers that hold the frame under construction. -/
def Assembly.holding (registers : δ → Assembly ρ) : Option δ → Assembly ρ
  | none => .initial
  | some d => registers d

/-- The same, with what one call of `decode` leaves. -/
def Shape.Decoded.held (registers : δ → Assembly ρ) (d : Shape.Decoded δ φ) :
    Assembler.Decoded ρ φ :=
  ⟨d.outcome, .holding registers d.draft, d.rest⟩

/-- The same, with what draining a buffer leaves. -/
def Shape.Drained.held (registers : δ → Assembly ρ) (d : Shape.Drained δ φ) :
    Assembler.Drained ρ φ :=
  ⟨d.frames, d.fault, .holding registers d.draft, d.rest⟩

/-- The same, with a whole codec. -/
def Codec.held (registers : δ → Assembly ρ) (c : Codec δ) : Bench ρ :=
  ⟨.holding registers c.draft, c.buffer, c.deferred⟩

namespace Assembler

/-- What an assembler answers, and leaves, where a shape comes to a result. -/
def answer (registers : δ → Assembly ρ) (a : Assembly ρ) :
    Except CodecFault (δ ⊕ φ) → Except CodecFault (Option φ) × Assembly ρ
  | .ok (.inl d) => (.ok none, registers d)
  | .ok (.inr f) => (.ok (some f), .initial)
  | .error e => (.error e, a)

/-- An assembler does with the registers what a shape does with drafts, as long as these are `Open`:
some element is still to come. -/
structure Mirrors (asm : Assembler ρ φ) (shape : Shape δ φ) (registers : δ → Assembly ρ)
    (Open : δ → Prop) : Prop where
  start_eq : ∀ n, asm.accept .initial (.array n)
    = answer registers .initial ((shape.start n).map .inl)
  push_eq : ∀ d, Open d → ∀ item, asm.push (registers d) item
    = answer registers (registers d) (shape.push d item)
  open_start : ∀ n d, shape.start n = .ok d → Open d
  open_push : ∀ d, Open d → ∀ item d', shape.push d item = .ok (.inl d') → Open d'
  filled_lt : ∀ d, Open d → (registers d).filled < (registers d).arity

/-! ## Decoding -/

section decode

variable (asm : Assembler ρ φ)

theorem accept_array {n : Nat} (h : asm.admits n = true) :
    asm.accept .initial (.array n) = (.ok none, ⟨n, 0, default⟩) := by
  simp only [accept, start, h]
  rfl

theorem accept_array_of_not_admits {n : Nat} (h : asm.admits n = false) :
    asm.accept .initial (.array n) = (.error (.invalidArity n), .initial) := by
  simp only [accept, start, h]
  rfl

theorem decode_of_error {a : Assembly ρ} {src : Octets} {e : Cbor.Item.Fault}
    (h : Cbor.Item.take src = .error e) :
    asm.decode a src = ⟨.fault (.malformed (.item e)), .initial, src⟩ := by
  rw [decode]
  split <;> simp_all

theorem decode_of_none {a : Assembly ρ} {src : Octets} (h : Cbor.Item.take src = .ok none) :
    asm.decode a src = ⟨.more, a, src⟩ := by
  rw [decode]
  split <;> simp_all

theorem decode_of_item {a : Assembly ρ} {src rest : Octets} {item : Cbor.Item}
    (h : Cbor.Item.take src = .ok (some (item, rest))) :
    asm.decode a src =
      match asm.accept a item with
      | (.error e, _) => ⟨.fault e, .initial, rest⟩
      | (.ok (some f), a) => ⟨.frame f, a, rest⟩
      | (.ok none, a) => asm.decode a rest := by
  rw [decode]
  split
  · rename_i hitem
    rw [h] at hitem
    cases hitem
  · rename_i hitem
    rw [h] at hitem
    cases hitem
  · rename_i hitem
    rw [h] at hitem
    cases hitem
    rfl

theorem drain_of_decode {a : Assembly ρ} {src : Octets} {d : Decoded ρ φ}
    (h : asm.decode a src = d) :
    asm.drain a src =
      match d with
      | ⟨.more, a, rest⟩ => ⟨[], none, a, rest⟩
      | ⟨.fault e, a, rest⟩ => ⟨[], some e, a, rest⟩
      | ⟨.frame f, a, rest⟩ =>
        { asm.drain a rest with frames := f :: (asm.drain a rest).frames } := by
  rw [drain]
  split <;> rename_i hd <;> rw [h] at hd <;> cases hd <;> rfl

end decode

namespace Mirrors

variable {asm : Assembler ρ φ} {shape : Shape δ φ} {registers : δ → Assembly ρ} {Open : δ → Prop}
  (m : asm.Mirrors shape registers Open)

include m

theorem inProgress_registers {d : δ} (hd : Open d) : (registers d).inProgress = true := by
  have hlt := m.filled_lt d hd
  simp only [Assembly.inProgress, bne_iff_ne]
  omega

theorem inProgress_holding {draft : Option δ} (hdraft : ∀ d ∈ draft, Open d) :
    (Assembly.holding registers draft).inProgress = draft.isSome := by
  cases draft with
  | none => rfl
  | some d => exact m.inProgress_registers (hdraft d rfl)

/-- Registers in which no frame is in progress are cleared. -/
theorem holding_of_idle {draft : Option δ} (hdraft : ∀ d ∈ draft, Open d)
    (h : (Assembly.holding registers draft).inProgress = false) :
    Assembly.holding registers draft = .initial := by
  cases draft with
  | none => rfl
  | some d =>
      rw [m.inProgress_holding hdraft] at h
      cases h

/-- A frame that is in progress is not complete. -/
theorem filled_lt_of_inProgress {draft : Option δ} (hdraft : ∀ d ∈ draft, Open d)
    (h : (Assembly.holding registers draft).inProgress = true) :
    (Assembly.holding registers draft).filled < (Assembly.holding registers draft).arity := by
  cases draft with
  | none => cases h
  | some d => exact m.filled_lt d (hdraft d rfl)

/-- An item does to the registers what it does to the draft they hold. -/
theorem accept_holding {draft : Option δ} (hdraft : ∀ d ∈ draft, Open d) (item : Cbor.Item) :
    asm.accept (.holding registers draft) item
      = answer registers (.holding registers draft) (shape.advance draft item) := by
  cases draft with
  | some d =>
      have hd := hdraft d rfl
      unfold accept
      exact (if_pos (m.inProgress_registers hd)).trans (m.push_eq d hd item)
  | none =>
      cases item with
      | array n =>
          rw [Shape.advance]
          refine (m.start_eq n).trans ?_
          cases shape.start n <;> rfl
      | _ => rfl

theorem open_advance {draft : Option δ} (hdraft : ∀ d ∈ draft, Open d) {item : Cbor.Item} {d : δ}
    (h : shape.advance draft item = .ok (.inl d)) : Open d := by
  unfold Shape.advance at h
  split at h
  · rename_i d₀
    exact m.open_push d₀ (hdraft d₀ rfl) item d h
  · rename_i n
    split at h
    · rename_i d₀ hstart
      cases h
      exact m.open_start n d hstart
    · cases h
  · cases h

/-- A call of `decode` leaves a draft with something to come, if it leaves one. -/
theorem open_decode {draft : Option δ} (hdraft : ∀ d ∈ draft, Open d) (src : Octets) :
    ∀ d ∈ (shape.decode draft src).draft, Open d := by
  fun_induction Shape.decode shape draft src with
  | case1 => intro d hd; cases hd
  | case2 => exact hdraft
  | case3 => intro d hd; cases hd
  | case4 => intro d hd; cases hd
  | case5 draft src item rest h d hadv _ ih =>
      refine ih fun d' hd' => ?_
      cases hd'
      exact m.open_advance hdraft hadv

/-- **To decode in place is to decode with drafts.** -/
theorem decode_held {draft : Option δ} (hdraft : ∀ d ∈ draft, Open d) (src : Octets) :
    asm.decode (.holding registers draft) src = (shape.decode draft src).held registers := by
  fun_induction Shape.decode shape draft src with
  | case1 draft src e h => exact asm.decode_of_error h
  | case2 draft src h => exact asm.decode_of_none h
  | case3 draft src item rest h e hadv =>
      rw [asm.decode_of_item h, m.accept_holding hdraft, hadv]
      rfl
  | case4 draft src item rest h f hadv =>
      rw [asm.decode_of_item h, m.accept_holding hdraft, hadv]
      rfl
  | case5 draft src item rest h d hadv _ ih =>
      rw [asm.decode_of_item h, m.accept_holding hdraft, hadv]
      refine ih fun d' hd' => ?_
      cases hd'
      exact m.open_advance hdraft hadv

theorem open_drain {draft : Option δ} (hdraft : ∀ d ∈ draft, Open d) (src : Octets) :
    ∀ d ∈ (shape.drain draft src).draft, Open d := by
  fun_induction Shape.drain shape draft src with
  | case1 draft src draft' rest h =>
      have hopen := m.open_decode hdraft src
      rw [h] at hopen
      exact hopen
  | case2 draft src e draft' rest h =>
      have hopen := m.open_decode hdraft src
      rw [h] at hopen
      exact hopen
  | case3 draft src f draft' rest h _ later ih =>
      have hopen := m.open_decode hdraft src
      rw [h] at hopen
      exact ih hopen

/-- **To drain a buffer in place is to drain it with drafts.** -/
theorem drain_held {draft : Option δ} (hdraft : ∀ d ∈ draft, Open d) (src : Octets) :
    asm.drain (.holding registers draft) src = (shape.drain draft src).held registers := by
  fun_induction Shape.drain shape draft src with
  | case1 draft src draft' rest h =>
      have hdecode := m.decode_held hdraft src
      rw [h] at hdecode
      exact asm.drain_of_decode hdecode
  | case2 draft src e draft' rest h =>
      have hdecode := m.decode_held hdraft src
      rw [h] at hdecode
      exact asm.drain_of_decode hdecode
  | case3 draft src f draft' rest h _ later ih =>
      have hdecode := m.decode_held hdraft src
      have hopen := m.open_decode hdraft src
      rw [h] at hdecode hopen
      rw [asm.drain_of_decode hdecode]
      simp only [Shape.Decoded.held]
      rw [ih hopen]
      rfl

end Mirrors

end Assembler

/-! ## The calls -/

namespace Bench

variable {asm : Assembler ρ φ} {shape : Shape δ φ} {registers : δ → Assembly ρ} {Open : δ → Prop}
  (m : asm.Mirrors shape registers Open)

theorem new_eq_held : (new : Bench ρ) = (Codec.new : Codec δ).held registers := rfl

theorem takeFault_held (c : Codec δ) :
    (c.held registers).takeFault = (c.takeFault.1, c.takeFault.2.held registers) := rfl

include m

/-- **A bench is fed as a codec is**: it gives the same, and holds what the codec has. -/
theorem feed_held {c : Codec δ} (hc : ∀ d ∈ c.draft, Open d) (chunk : Octets) :
    (c.held registers).feed asm chunk
      = ((c.feed shape chunk).1, (c.feed shape chunk).2.held registers) := by
  obtain ⟨draft, buffer, deferred⟩ := c
  cases deferred with
  | some e => rfl
  | none =>
      unfold feed Codec.feed
      simp only [Codec.held, m.drain_held hc]
      cases shape.drain draft (buffer ++ chunk) with
      | mk frames fault draft' rest =>
          cases fault with
          | none => rfl
          | some e => cases frames <;> rfl

theorem inProgress_held {c : Codec δ} (hc : ∀ d ∈ c.draft, Open d) :
    (c.held registers).inProgress = c.inProgress := by
  simp only [inProgress, Codec.inProgress, Codec.held, m.inProgress_holding hc]

end Bench

/-! ## Records -/

namespace RecordDraft

/-- The registers of the elements that are there. -/
def parts : RecordDraft → RecordParts
  | empty _ => default
  | withId _ id => { (default : RecordParts) with id }
  | withMask _ id mask => { (default : RecordParts) with id, mask }
  | withCommand _ id mask command => { (default : RecordParts) with id, mask, command }
  | withPayload id mask command payload =>
    { (default : RecordParts) with id, mask, command, payload }
  | withTimeout id mask command payload timeout => ⟨id, mask, command, payload, timeout⟩

/-- The registers that hold a draft. -/
def registers (d : RecordDraft) : Assembly RecordParts := ⟨d.arity, d.elements.length, d.parts⟩

end RecordDraft

namespace Record

/-- An element does to the registers what it does to the draft they hold. -/
theorem push_registers (d : RecordDraft) (item : Cbor.Item) :
    push d.registers item = Assembler.answer RecordDraft.registers d.registers (d.push item) := by
  -- the payload is the last element of the short form only
  rcases d with timed | ⟨timed, id⟩ | ⟨timed, id, mask⟩ | ⟨_ | _, id, mask, command⟩ |
    ⟨id, mask, command, payload⟩ | ⟨id, mask, command, payload, timeout⟩ <;>
    simp only [push, RecordDraft.registers, RecordDraft.elements, List.length_cons, List.length_nil,
      RecordParts.put, RecordDraft.push]
  case empty => cases expectInt32 0 item <;> cases timed <;> rfl
  case withId => cases expectInt32 1 item <;> cases timed <;> rfl
  case withMask => cases expectString 2 item <;> cases timed <;> rfl
  case withCommand.false => cases expectString 3 item <;> rfl
  case withCommand.true => cases expectString 3 item <;> rfl
  case withPayload => cases expectInt32 4 item <;> rfl
  case withTimeout => cases expectInt64 5 item <;> rfl

theorem start_registers (n : Nat) : assembler.accept .initial (.array n)
    = Assembler.answer RecordDraft.registers .initial ((shape.start n).map .inl) := by
  by_cases h4 : n = 4
  · subst h4
    rfl
  by_cases h6 : n = 6
  · subst h6
    rfl
  have hshape : shape.start n = .error (.invalidArity n) :=
    (if_neg h4).trans (if_neg h6)
  have hadmits : assembler.admits n = false := by
    simp [assembler, h4, h6]
  rw [hshape, assembler.accept_array_of_not_admits hadmits]
  rfl

/-- Records are put together in place as they are with drafts. -/
theorem mirrors : assembler.Mirrors shape RecordDraft.registers fun _ => True where
  start_eq := start_registers
  push_eq := fun d _ => push_registers d
  open_start := fun _ _ _ => trivial
  open_push := fun _ _ _ _ _ => trivial
  filled_lt := fun d _ => d.elements_lt

end Record

/-! ## Packets -/

namespace PacketDraft

open Packet

/-- How many elements there will be. -/
def arity : PacketDraft → Nat
  | empty arity => arity
  | withKind arity _ => arity
  | withId arity _ _ => arity
  | withMethod arity .. => arity

/-- How many elements are there. -/
def filled : PacketDraft → Nat
  | empty _ => 0
  | withKind .. => 1
  | withId .. => 2
  | withMethod _ _ _ _ params => 3 + params.length

/-- The registers of the elements that are there. -/
def parts : PacketDraft → PacketParts
  | empty _ => default
  | withKind _ kind => { (default : PacketParts) with kind := Int64.ofNat kind.code }
  | withId _ kind id => { (default : PacketParts) with kind := Int64.ofNat kind.code, id }
  | withMethod _ kind id method params => ⟨Int64.ofNat kind.code, id, method, params.reverse⟩

/-- The registers that hold a draft. -/
def registers (d : PacketDraft) : Assembly PacketParts := ⟨d.arity, d.filled, d.parts⟩

/-- Whether elements are still to come, the method being the third at the earliest. -/
def Open (d : PacketDraft) : Prop := 3 ≤ d.arity ∧ d.filled < d.arity

end PacketDraft

namespace Packet

/-- The packet of the registers is the one that the list of elements makes. -/
theorem packet_parts (kind : Kind) (id : Int32) (method : String) (params : List Value) :
    (PacketParts.mk (Int64.ofNat kind.code) id method params).packet = ofParts kind id method params := by
  cases kind <;> rfl

/-- The kind is a number from one to three. -/
theorem put_kind (p : PacketParts) (item : Cbor.Item) :
    p.put 0 item = (Kind.ofItem item).map fun kind => { p with kind := Int64.ofNat kind.code } := by
  simp only [PacketParts.put, Kind.ofItem, expectInt64]
  cases hread : expectInt (-9223372036854775808) 9223372036854775807 0 item with
  | error e => rfl
  | ok v =>
      obtain ⟨-, hlow, hhigh⟩ := expectInt_ok hread
      have hv : (Int64.ofInt v).toInt = v := Int64.toInt_ofInt_of_le hlow (by omega)
      simp only [bind, Except.bind]
      by_cases hone : v = 1
      · subst hone
        rfl
      by_cases htwo : v = 2
      · subst htwo
        rfl
      by_cases hthree : v = 3
      · subst hthree
        rfl
      have hrange : ¬(1 ≤ Int64.ofInt v ∧ Int64.ofInt v ≤ 3) := by
        rw [Int64.le_iff_toInt_le, Int64.le_iff_toInt_le, hv]
        have h1 : (1 : Int64).toInt = 1 := rfl
        have h3 : (3 : Int64).toInt = 3 := rfl
        omega
      rw [if_neg hrange, if_neg hone, if_neg htwo, if_neg hthree, hv]
      rfl

theorem put_id (p : PacketParts) (item : Cbor.Item) :
    p.put 1 item = (expectInt32 1 item).map fun id => { p with id } := by
  rw [PacketParts.put]
  cases expectInt32 1 item <;> rfl

/-- The method of a packet, which is the third element. -/
def methodOf (item : Cbor.Item) : Except CodecFault String := do
  match Utf8.decode (← expectString 2 item) with
  | .ok method => return method
  | .error e => .error (.malformed (.methodName e))

theorem put_method (p : PacketParts) (item : Cbor.Item) :
    p.put 2 item = (methodOf item).map fun method => { p with method } := by
  rw [PacketParts.put, methodOf]
  cases expectString 2 item with
  | error e => rfl
  | ok body =>
      simp only [bind, Except.bind]
      cases Utf8.decode body <;> rfl

/-- Behind the method there are parameters. -/
theorem put_param (p : PacketParts) (n : Nat) (item : Cbor.Item) :
    p.put (3 + n) item
      = (Value.ofItem (3 + n) item).map fun v => { p with params := p.params ++ [v] } := by
  rw [Nat.add_comm]
  change (Value.ofItem (n + 3) item >>= _) = _
  cases Value.ofItem (n + 3) item <;> rfl

/-- What becomes of the registers when an element has been read, and there is a register to set. -/
def settle {α : Type} (a : Assembly PacketParts) (set : α → PacketParts) :
    Except CodecFault α → Except CodecFault (Option Packet) × Assembly PacketParts
  | .error e => (.error e, a)
  | .ok x =>
    if a.filled + 1 = a.arity then (.ok (some (set x).packet), .initial)
    else (.ok none, ⟨a.arity, a.filled + 1, set x⟩)

theorem push_of_put {a : Assembly PacketParts} {item : Cbor.Item} {α : Type}
    {element : Except CodecFault α} {set : α → PacketParts}
    (h : a.parts.put a.filled item = element.map set) : push a item = settle a set element := by
  rw [push, h]
  cases element <;> rfl

/-- A draft with a method is complete or goes on. -/
theorem answer_close (a : Assembly PacketParts) (arity : Nat) (kind : Kind) (id : Int32)
    (method : String) (params : List Value) :
    Assembler.answer PacketDraft.registers a (.ok (PacketDraft.close arity kind id method params))
      = if 3 + params.length = arity
        then (.ok (some (ofParts kind id method params.reverse)), .initial)
        else (.ok none, (PacketDraft.withMethod arity kind id method params).registers) := by
  unfold PacketDraft.close
  split <;> rfl

/-- An element does to the registers what it does to the draft they hold. -/
theorem push_registers {d : PacketDraft} (hd : d.Open) (item : Cbor.Item) :
    push d.registers item = Assembler.answer PacketDraft.registers d.registers (d.push item) := by
  have harity : 3 ≤ d.arity := hd.1
  cases d with
  | empty arity =>
      have hmore : 0 + 1 ≠ arity := by rw [PacketDraft.arity] at harity; omega
      refine (push_of_put (put_kind _ item)).trans ?_
      rw [PacketDraft.push]
      cases Kind.ofItem item with
      | error e => rfl
      | ok kind => exact if_neg hmore
  | withKind arity kind =>
      have hmore : 1 + 1 ≠ arity := by rw [PacketDraft.arity] at harity; omega
      refine (push_of_put (put_id _ item)).trans ?_
      rw [PacketDraft.push]
      cases expectInt32 1 item with
      | error e => rfl
      | ok id => exact if_neg hmore
  | withId arity kind id =>
      refine (push_of_put (put_method _ item)).trans ?_
      rw [PacketDraft.push, methodOf]
      cases expectString 2 item with
      | error e => rfl
      | ok body =>
          simp only [bind, Except.bind]
          cases Utf8.decode body with
          | error e => rfl
          | ok method =>
              refine Eq.trans ?_ (answer_close _ arity kind id method []).symm
              rw [← packet_parts]
              rfl
  | withMethod arity kind id method params =>
      refine (push_of_put (put_param _ params.length item)).trans ?_
      rw [PacketDraft.push]
      cases Value.ofItem (3 + params.length) item with
      | error e => rfl
      | ok v =>
          refine Eq.trans ?_ (answer_close _ arity kind id method (v :: params)).symm
          simp only [← packet_parts, PacketDraft.registers, PacketDraft.parts, List.reverse_cons]
          rfl

theorem start_registers (n : Nat) : assembler.accept .initial (.array n)
    = Assembler.answer PacketDraft.registers .initial ((shape.start n).map .inl) := by
  by_cases hn : 3 ≤ n ∧ n ≤ 3 + maxParams
  · have hshape : shape.start n = .ok (.empty n) := if_pos hn
    rw [hshape, assembler.accept_array (decide_eq_true hn)]
    rfl
  · have hshape : shape.start n = .error (.invalidArity n) := if_neg hn
    rw [hshape, assembler.accept_array_of_not_admits (decide_eq_false hn)]
    rfl

theorem open_start {n : Nat} {d : PacketDraft} (h : shape.start n = .ok d) : d.Open := by
  by_cases hn : 3 ≤ n ∧ n ≤ 3 + maxParams
  · cases (if_pos hn).symm.trans h
    exact ⟨hn.1, Nat.lt_of_lt_of_le (show 0 < 3 by decide) hn.1⟩
  · cases (if_neg hn).symm.trans h

theorem open_close {arity : Nat} (harity : 3 ≤ arity) {kind : Kind} {id : Int32} {method : String}
    (params : List Value) (hroom : 3 + params.length ≤ arity) {d : PacketDraft}
    (h : PacketDraft.close arity kind id method params = .inl d) : d.Open := by
  unfold PacketDraft.close at h
  split at h
  · cases h
  · rename_i hmore
    cases h
    exact ⟨harity, Nat.lt_of_le_of_ne hroom hmore⟩

/-- A packet that goes on with an element has some to come. -/
theorem open_push {d d' : PacketDraft} (hd : d.Open) {item : Cbor.Item}
    (h : d.push item = .ok (.inl d')) : d'.Open := by
  obtain ⟨harity, hfilled⟩ := hd
  cases d with
  | empty arity =>
      obtain ⟨kind, _, heq⟩ := bind_eq_ok h
      cases heq
      exact ⟨harity, Nat.lt_of_lt_of_le (show 1 < 3 by decide) harity⟩
  | withKind arity kind =>
      obtain ⟨id, _, heq⟩ := bind_eq_ok h
      cases heq
      exact ⟨harity, Nat.lt_of_lt_of_le (show 2 < 3 by decide) harity⟩
  | withId arity kind id =>
      obtain ⟨body, _, heq⟩ := bind_eq_ok h
      split at heq
      · rename_i method _
        exact open_close harity [] harity (Except.ok.inj heq)
      · cases heq
  | withMethod arity kind id method params =>
      obtain ⟨v, _, heq⟩ := bind_eq_ok h
      exact open_close harity (v :: params) hfilled (Except.ok.inj heq)

/-- Packets are put together in place as they are with drafts, while elements are to come. -/
theorem mirrors : assembler.Mirrors shape PacketDraft.registers PacketDraft.Open where
  start_eq := start_registers
  push_eq := fun _ hd => push_registers hd
  open_start := fun _ _ => open_start
  open_push := fun _ hd _ _ => open_push hd
  filled_lt := fun _ hd => hd.2

end Packet

end GameHall
