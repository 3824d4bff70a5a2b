import GameHall.Proofs.Wire.Packets
import GameHall.Proofs.Wire.Registers

/-!
# Every frame is made of its own octets

A bench may be fed, asked for the fault it has deferred, and used to decode what is in another buffer, in
any order and after any number of faults. The octets that it consumes meanwhile, one call after the
other, are made up of the frames it gives, each from its own array head to its last element, of what has
been refused between them, and of the front of the frame under construction (`Bench.untainted_run`).
Each frame has the elements that are written in its own octets, and the registers at any time are those
that would be left if nothing had come before the frame under construction.

The trail of a reader is followed for drafts, where it is plain that nothing is kept from frame to frame
(`Shape.Trail`); the registers hold the same drafts.
-/

namespace GameHall

/-! ## Frames in the octets they come out of -/

/-- Frames one after the other in a string of octets, each in octets of its own. Before, between and
behind them there may be octets that have been refused. -/
inductive Strewn {φ : Type} (Own : φ → Octets → Prop) : List φ → Octets → Prop where
  | nil : Strewn Own [] []
  | refused {fs : List φ} {bs : Octets} (gap : Octets) (h : Strewn Own fs bs) :
      Strewn Own fs (bs ++ gap)
  | frame {fs : List φ} {bs own : Octets} {f : φ} (h : Strewn Own fs bs) (hown : Own f own) :
      Strewn Own (fs ++ [f]) (bs ++ own)

namespace Shape

variable {δ φ : Type} (shape : Shape δ φ)

/-- The frame that a call of `decode` gives, if it gives one. -/
def Outcome.frames : Outcome φ → List φ
  | .more => []
  | .frame f => [f]
  | .fault _ => []

/-- The fault that a call of `decode` ends with. -/
def Outcome.fault? : Outcome φ → Option CodecFault
  | .fault e => some e
  | _ => none

/-! ## What is consumed -/

theorem decode_fault_draft {draft draft' : Option δ} {src rest : Octets} {e : CodecFault}
    (h : shape.decode draft src = ⟨.fault e, draft', rest⟩) : draft' = none := by
  fun_induction decode shape draft src with
  | case1 =>
      simp only [Decoded.mk.injEq] at h
      exact h.2.1.symm
  | case2 => simp at h
  | case3 =>
      simp only [Decoded.mk.injEq] at h
      exact h.2.1.symm
  | case4 => simp at h
  | case5 draft src item rest' _ d _ _ ih => exact ih h

/-- A call consumes the front of what it is given, and without a fault it comes to the same when the
rest is not there. -/
theorem decode_used (draft : Option δ) (src : Octets) :
    ∃ used, src = used ++ (shape.decode draft src).rest
      ∧ ((shape.decode draft src).outcome.fault? = none →
        shape.decode draft used = { shape.decode draft src with rest := [] }) := by
  -- along the items: each of them reads the same from its own octets alone
  fun_induction decode shape draft src with
  | case1 draft src e h => exact ⟨[], rfl, fun hnone => by cases hnone⟩
  | case2 draft src h => exact ⟨[], rfl, fun _ => shape.decode_of_none rfl⟩
  | case3 draft src item rest h e hadv =>
      obtain ⟨front, _, rfl⟩ := Cbor.Item.take_eq_some_iff.mp h
      exact ⟨front, rfl, fun hnone => by cases hnone⟩
  | case4 draft src item rest h f hadv =>
      obtain ⟨front, hform, rfl⟩ := Cbor.Item.take_eq_some_iff.mp h
      have htake := Cbor.Item.take_of_form hform []
      rw [List.append_nil] at htake
      exact ⟨front, rfl, fun _ => shape.decode_end htake hadv⟩
  | case5 draft src item rest h d hadv _ ih =>
      obtain ⟨front, hform, rfl⟩ := Cbor.Item.take_eq_some_iff.mp h
      obtain ⟨used, hrest, hused⟩ := ih
      refine ⟨front ++ used, ?_, fun hnone => ?_⟩
      · rw [List.append_assoc, ← hrest]
      · rw [shape.decode_go (Cbor.Item.take_of_form hform used) hadv]
        exact hused hnone

/-! ## The trail of a reader -/

/-- What a reader has consumed, when it has given frames and has come to a draft: the frames lie in
their own octets, and behind them is what the draft has been made of. -/
structure Trail (Own : φ → Octets → Prop) (frames : List φ) (consumed : Octets)
    (draft : Option δ) : Prop where
  split : ∃ before part, consumed = before ++ part ∧ Strewn Own frames before
    ∧ shape.decode none part = ⟨.more, draft, []⟩

theorem decode_nil (draft : Option δ) : shape.decode draft [] = ⟨.more, draft, []⟩ :=
  shape.decode_of_none rfl

namespace Trail

variable {shape} {Own : φ → Octets → Prop} {frames : List φ} {consumed : Octets} {draft : Option δ}

/-- Between frames there is no draft. -/
theorem of_strewn (h : Strewn Own frames consumed) : shape.Trail Own frames consumed none where
  split := ⟨consumed, [], (List.append_nil _).symm, h, shape.decode_nil none⟩

/-- **A call of `decode` goes on with the trail.** -/
theorem decode (howns : ∀ f own, shape.decode none own = ⟨.frame f, none, []⟩ → Own f own)
    (h : shape.Trail Own frames consumed draft) (src : Octets) :
    ∃ used, src = used ++ (shape.decode draft src).rest
      ∧ shape.Trail Own (frames ++ (shape.decode draft src).outcome.frames) (consumed ++ used)
        (shape.decode draft src).draft := by
  obtain ⟨before, part, rfl, hstrewn, hpart⟩ := h.split
  obtain ⟨used, hsrc, hused⟩ := shape.decode_used draft src
  refine ⟨used, hsrc, ?_⟩
  -- what this call consumes is read as if it stood behind the part that is there
  have hwhole : shape.decode none (part ++ used) = shape.decode draft used := by
    have happ := shape.decode_append none part used
    rw [hpart] at happ
    exact happ
  rw [List.append_assoc]
  cases hd : shape.decode draft src with
  | mk outcome draft' rest =>
      rw [hd] at hused
      cases outcome with
      | more =>
          rw [Outcome.frames, List.append_nil]
          exact ⟨⟨before, part ++ used, rfl, hstrewn, hwhole.trans (hused rfl)⟩⟩
      | frame f =>
          have hnone := shape.decode_frame_draft hd
          subst hnone
          exact of_strewn (hstrewn.frame (howns f _ (hwhole.trans (hused rfl))))
      | fault e =>
          have hnone := shape.decode_fault_draft hd
          subst hnone
          refine of_strewn ?_
          rw [Outcome.frames, List.append_nil]
          exact hstrewn.refused (part ++ used)

/-- **So does draining a buffer.** -/
theorem drain (howns : ∀ f own, shape.decode none own = ⟨.frame f, none, []⟩ → Own f own)
    (draft : Option δ) (src : Octets) : ∀ (frames : List φ) (consumed : Octets),
    shape.Trail Own frames consumed draft → ∃ used, src = used ++ (shape.drain draft src).rest
      ∧ shape.Trail Own (frames ++ (shape.drain draft src).frames) (consumed ++ used)
        (shape.drain draft src).draft := by
  fun_induction Shape.drain shape draft src with
  | case1 draft src draft' rest hd =>
      intro frames consumed h
      have hdecode := h.decode howns src
      rw [hd] at hdecode
      exact hdecode
  | case2 draft src e draft' rest hd =>
      intro frames consumed h
      have hdecode := h.decode howns src
      rw [hd] at hdecode
      exact hdecode
  | case3 draft src f draft' rest hd _ later ih =>
      intro frames consumed h
      have hdecode := h.decode howns src
      rw [hd] at hdecode
      obtain ⟨used, hsrc, htrail⟩ := hdecode
      obtain ⟨used', hrest, htrail'⟩ := ih _ _ htrail
      refine ⟨used ++ used', ?_, ?_⟩
      · rw [hsrc, List.append_assoc]
        exact congrArg _ hrest
      · rw [List.append_assoc, List.append_assoc] at htrail'
        exact htrail'

end Trail

/-! ## No frame overruns -/

/-- A shape none of whose faults is that of a record with more elements than it may have. -/
structure NeverOverruns : Prop where
  start : ∀ n, shape.start n ≠ .error Record.overran
  push : ∀ d item, shape.push d item ≠ .error Record.overran

namespace NeverOverruns

variable {shape} (never : shape.NeverOverruns)

include never

theorem advance (draft : Option δ) (item : Cbor.Item) :
    shape.advance draft item ≠ .error Record.overran := by
  intro h
  unfold Shape.advance at h
  split at h
  · exact never.push _ _ h
  · split at h
    · cases h
    · rename_i hstart
      cases h
      exact never.start _ hstart
  · cases h

theorem decode (draft : Option δ) (src : Octets) :
    (shape.decode draft src).outcome.fault? ≠ some Record.overran := by
  fun_induction Shape.decode shape draft src with
  | case1 => intro h; cases h
  | case2 => intro h; cases h
  | case3 draft src item rest h e hadv =>
      intro hfault
      cases hfault
      exact never.advance draft item hadv
  | case4 => intro h; cases h
  | case5 draft src item rest h d hadv _ ih => exact ih

theorem drain (draft : Option δ) (src : Octets) :
    (shape.drain draft src).fault ≠ some Record.overran := by
  fun_induction Shape.drain shape draft src with
  | case1 => intro h; cases h
  | case2 draft src e draft' rest h =>
      have hdecode := never.decode draft src
      rw [h] at hdecode
      exact hdecode
  | case3 draft src f draft' rest h _ later ih => exact ih

end NeverOverruns

end Shape

/-! ## Elements out of place are not malformed -/

theorem expectInt_ne_malformed (low high : Int) (position : Nat) (item : Cbor.Item)
    (why : Malformation) : expectInt low high position item ≠ .error (.malformed why) := by
  intro h
  cases item with
  | int v =>
      rw [expectInt] at h
      split at h <;> cases h
  | _ => cases h

theorem expectInt32_ne_malformed (position : Nat) (item : Cbor.Item) (why : Malformation) :
    expectInt32 position item ≠ .error (.malformed why) := by
  intro h
  unfold expectInt32 at h
  split at h
  · cases h
  · rename_i hread
    cases h
    exact expectInt_ne_malformed _ _ _ _ _ hread

theorem expectInt64_ne_malformed (position : Nat) (item : Cbor.Item) (why : Malformation) :
    expectInt64 position item ≠ .error (.malformed why) := by
  intro h
  unfold expectInt64 at h
  split at h
  · cases h
  · rename_i hread
    cases h
    exact expectInt_ne_malformed _ _ _ _ _ hread

theorem expectString_ne_malformed (position : Nat) (item : Cbor.Item) (why : Malformation) :
    expectString position item ≠ .error (.malformed why) := by
  intro h
  cases item <;> cases h

theorem bind_eq_error {ε α β : Type} {x : Except ε α} {f : α → Except ε β} {e : ε}
    (h : x >>= f = .error e) : x = .error e ∨ ∃ a, x = .ok a ∧ f a = .error e := by
  cases x with
  | error e' => cases h; exact Or.inl rfl
  | ok a => exact Or.inr ⟨a, rfl, h⟩

theorem Record.neverOverruns : shape.NeverOverruns where
  start := by
    intro n h
    simp only [shape, RecordDraft.start] at h
    split at h
    · cases h
    · split at h <;> cases h
  push := by
    intro d item h
    rcases d with timed | ⟨timed, id⟩ | ⟨timed, id, mask⟩ | ⟨_ | _, id, mask, command⟩ |
      ⟨id, mask, command, payload⟩ | ⟨id, mask, command, payload, timeout⟩ <;>
      rcases bind_eq_error h with hread | ⟨_, _, hnext⟩
    case empty.inl | withId.inl | withPayload.inl => exact expectInt32_ne_malformed _ _ _ hread
    case withMask.inl | withCommand.false.inl | withCommand.true.inl =>
      exact expectString_ne_malformed _ _ _ hread
    case withTimeout.inl => exact expectInt64_ne_malformed _ _ _ hread
    all_goals cases hnext

theorem Packet.neverOverruns : shape.NeverOverruns where
  start := by
    intro n h
    simp only [shape, PacketDraft.start] at h
    split at h <;> cases h
  push := by
    intro d item h
    -- no element of a draft is refused as malformed, at any position
    cases d with
    | empty arity =>
        rcases bind_eq_error h with hkind | ⟨_, _, hnext⟩
        · rcases bind_eq_error hkind with hread | ⟨v, _, hcode⟩
          · exact expectInt_ne_malformed _ _ _ _ _ hread
          · repeat' split at hcode
            all_goals cases hcode
        · cases hnext
    | withKind arity kind =>
        rcases bind_eq_error h with hread | ⟨_, _, hnext⟩
        · exact expectInt32_ne_malformed _ _ _ hread
        · cases hnext
    | withId arity kind id =>
        rcases bind_eq_error h with hread | ⟨_, _, hmethod⟩
        · exact expectString_ne_malformed _ _ _ hread
        · split at hmethod <;> cases hmethod
    | withMethod arity kind id method params =>
        rcases bind_eq_error h with hvalue | ⟨_, _, hnext⟩
        · cases item with
          | int v =>
              rcases bind_eq_error hvalue with hread | ⟨_, _, hnext⟩
              · exact expectInt64_ne_malformed _ _ _ hread
              · cases hnext
          | text body =>
              rw [Value.ofItem] at hvalue
              split at hvalue <;> cases hvalue
          | _ => cases hvalue
        · cases hnext

/-- Octets that spell a packet. -/
def Packet.SpelledBy (p : Packet) (bs : Octets) : Prop :=
  ∃ spelling, p.Spelled spelling ∧ Cbor.Item.Forms spelling bs

/-! ## Calls -/

namespace Bench

variable {ρ φ : Type} [Inhabited ρ]

/-- What may be asked of a bench. -/
inductive Call where
  | feed (chunk : Octets)
  | takeFault
  /-- Decodes from a buffer that is not the bench's own. -/
  | decode (src : Octets)

/-- Whether a call reads from another buffer. -/
def Call.isDecode : Call → Bool
  | decode _ => true
  | _ => false

/-- What a call gives and leaves. -/
structure Turn (ρ φ : Type) where
  frames : List φ
  fault : Option CodecFault
  /-- What is left of the octets that there were to read. -/
  left : Octets
  bench : Bench ρ

/-- What a call adds to the buffer: nothing, while a fault is deferred. -/
def heard (b : Bench ρ) : Call → Octets
  | .feed chunk => if b.deferred.isSome then [] else chunk
  | _ => []

/-- The octets that there are to read. -/
def given (b : Bench ρ) : Call → Octets
  | .decode src => src
  | call => b.buffer ++ b.heard call

variable (asm : Assembler ρ φ)

/-- One call. -/
def turn (b : Bench ρ) : Call → Turn ρ φ
  | .feed chunk =>
    match b.feed asm chunk with
    | (.ok frames, b) => ⟨frames, none, b.buffer, b⟩
    | (.error e, b) => ⟨[], some e, b.buffer, b⟩
  | .takeFault => ⟨[], b.takeFault.1, b.takeFault.2.buffer, b.takeFault.2⟩
  | .decode src =>
    let d := asm.decode b.assembly src
    ⟨d.outcome.frames, d.outcome.fault?, d.rest, { b with assembly := d.assembly }⟩

/-- The octets that a call consumes: so many of those at the front as are not left. -/
def used (b : Bench ρ) (call : Call) : Octets :=
  (b.given call).take ((b.given call).length - (b.turn asm call).left.length)

/-- What is not left has been consumed. -/
theorem used_eq {asm : Assembler ρ φ} {b : Bench ρ} {call : Call} {front : Octets}
    (h : b.given call = front ++ (b.turn asm call).left) : b.used asm call = front := by
  rw [used, h, List.length_append, Nat.add_sub_cancel, List.take_left' rfl]

/-- A bench, and what has come of the calls so far. -/
structure History (ρ φ : Type) where
  bench : Bench ρ
  /-- The frames given, in order. -/
  frames : List φ
  faults : List CodecFault
  /-- What has been added to the buffer. -/
  heard : Octets
  /-- What has been consumed. -/
  used : Octets

namespace History

/-- Nothing has been asked. -/
def new : History ρ φ := ⟨Bench.new, [], [], [], []⟩

def on (h : History ρ φ) (call : Call) : History ρ φ where
  bench := (h.bench.turn asm call).bench
  frames := h.frames ++ (h.bench.turn asm call).frames
  faults := h.faults ++ (h.bench.turn asm call).fault.toList
  heard := h.heard ++ h.bench.heard call
  used := h.used ++ h.bench.used asm call

/-- Calls are made one after the other. -/
def run (h : History ρ φ) (calls : List Call) : History ρ φ := calls.foldl (on asm) h

end History

/-- A frame and the octets that it comes out of: it has the elements that are written in them, and
cleared registers give it for them. -/
structure Owns (Spells : φ → Octets → Prop) (f : φ) (own : Octets) : Prop where
  spells : Spells f own
  alone : asm.decode .initial own = ⟨.frame f, .initial, []⟩

/-- What holds of a bench, whatever has been asked of it: nothing of one frame is found in another. -/
structure Untainted (Spells : φ → Octets → Prop) (calls : List Call) (h : History ρ φ) :
    Prop where
  /-- Between frames the registers are as they were at first. -/
  idle : h.bench.assembly.inProgress = false → h.bench.assembly = .initial
  /-- Some element of the frame under construction is still to come. -/
  room : h.bench.assembly.inProgress = true → h.bench.assembly.filled < h.bench.assembly.arity
  /-- No record is found to overrun its arity. -/
  overran : Record.overran ∉ h.faults ∧ h.bench.deferred ≠ some Record.overran
  /-- The frames lie in their own octets, in order, in what has been consumed. Behind them are the
  octets of the frame under construction, and the registers hold these alone. -/
  own : ∃ before part, h.used = before ++ part ∧ Strewn (Owns asm Spells) h.frames before
    ∧ asm.decode .initial part = ⟨.more, h.bench.assembly, []⟩
  /-- What the next call consumes is the front of what there is to read. -/
  front : ∀ call, h.bench.given call = h.bench.used asm call ++ (h.bench.turn asm call).left
  /-- As long as only chunks are fed, what has been consumed is the front of what they are together. -/
  stream : (∀ call ∈ calls, call.isDecode = false) → h.used ++ h.bench.buffer = h.heard

/-! ## One call -/

section call

variable {δ : Type} {asm} {shape : Shape δ φ} {registers : δ → Assembly ρ} {Open : δ → Prop}
  {Own : φ → Octets → Prop}

variable (shape registers Open Own) in
/-- What calls keep: the bench holds what some codec has, and the trail of what has been consumed leads up
to the draft of the codec. -/
structure Keeps (frames : List φ) (consumed : Octets) (b : Bench ρ) (c : Codec δ) : Prop where
  held : b = c.held registers
  opened : ∀ d ∈ c.draft, Open d
  trail : shape.Trail Own frames consumed c.draft
  quiet : c.deferred ≠ some Record.overran

variable (shape registers Open Own) in
/-- A call that keeps this, when there were octets to read: the trail goes on with those that are not
left. -/
structure GoesOn (frames : List φ) (consumed given : Octets) (t : Turn ρ φ) : Prop where
  quiet : t.fault ≠ some Record.overran
  keeps : ∃ c used, given = used ++ t.left
    ∧ Keeps shape registers Open Own (frames ++ t.frames) (consumed ++ used) t.bench c

variable {b : Bench ρ} {c : Codec δ} {frames : List φ} {consumed : Octets}

/-- A call that only takes the deferred fault keeps all else as it is. -/
theorem Keeps.goesOn_of_deferred (hk : Keeps shape registers Open Own frames consumed b c) :
    GoesOn shape registers Open Own frames consumed b.buffer
      ⟨[], b.deferred, b.buffer, { b with deferred := none }⟩ where
  quiet := by
    rw [hk.held]
    exact hk.quiet
  keeps := by
    have htrail : shape.Trail Own (frames ++ []) (consumed ++ []) c.draft := by
      rw [List.append_nil, List.append_nil]
      exact hk.trail
    refine ⟨{ c with deferred := none }, [], rfl, ?_, hk.opened, htrail, nofun⟩
    rw [hk.held]
    rfl

variable (m : asm.Mirrors shape registers Open) (never : shape.NeverOverruns)
  (howns : ∀ f own, shape.decode none own = ⟨.frame f, none, []⟩ → Own f own)

include m never howns

theorem Keeps.goesOn_decode (hk : Keeps shape registers Open Own frames consumed b c) (src : Octets) :
    GoesOn shape registers Open Own frames consumed (b.given (.decode src))
      (b.turn asm (.decode src)) := by
  have hturn : b.turn asm (.decode src)
      = ⟨(shape.decode c.draft src).outcome.frames, (shape.decode c.draft src).outcome.fault?,
        (shape.decode c.draft src).rest,
        Codec.held registers { c with draft := (shape.decode c.draft src).draft }⟩ := by
    simp only [hk.held, turn, Codec.held, m.decode_held hk.opened, Shape.Decoded.held]
  obtain ⟨used, hsrc, htrail⟩ := hk.trail.decode howns src
  rw [hturn]
  exact {
    quiet := never.decode c.draft src
    keeps := ⟨_, used, hsrc, rfl, m.open_decode hk.opened src, htrail, hk.quiet⟩ }

omit never howns in
/-- While no fault is deferred, feeding drains the buffer with the chunk. A fault that is met is given or
deferred. -/
theorem turn_feed {draft : Option δ} (hopen : ∀ d ∈ draft, Open d) (buffer chunk : Octets) :
    ∃ now later, (now = none ∨ now = (shape.drain draft (buffer ++ chunk)).fault)
      ∧ (later = none ∨ later = (shape.drain draft (buffer ++ chunk)).fault)
      ∧ (Codec.held registers ⟨draft, buffer, none⟩).turn asm (.feed chunk)
        = ⟨(shape.drain draft (buffer ++ chunk)).frames, now,
          (shape.drain draft (buffer ++ chunk)).rest,
          Codec.held registers ⟨(shape.drain draft (buffer ++ chunk)).draft,
            (shape.drain draft (buffer ++ chunk)).rest, later⟩⟩ := by
  simp only [turn, feed_held m (c := ⟨draft, buffer, none⟩) hopen, Codec.feed]
  cases shape.drain draft (buffer ++ chunk) with
  | mk fs fault draft' rest =>
      cases fault with
      | none => exact ⟨none, none, Or.inl rfl, Or.inl rfl, rfl⟩
      | some e =>
          cases fs with
          | nil => exact ⟨some e, none, Or.inr rfl, Or.inl rfl, rfl⟩
          | cons f fs => exact ⟨none, some e, Or.inl rfl, Or.inr rfl, rfl⟩

theorem Keeps.goesOn_feed (hk : Keeps shape registers Open Own frames consumed b c) (chunk : Octets) :
    GoesOn shape registers Open Own frames consumed (b.given (.feed chunk))
      (b.turn asm (.feed chunk)) := by
  obtain ⟨draft, buffer, deferred⟩ := c
  cases deferred with
  -- the chunk is dropped
  | some e =>
      have hgoes := hk.goesOn_of_deferred
      obtain rfl := hk.held
      have hgiven : (Codec.held registers ⟨draft, buffer, some e⟩).given (.feed chunk) = buffer :=
        List.append_nil buffer
      rw [hgiven]
      exact hgoes
  | none =>
      have hnever : ∀ {fault : Option CodecFault},
          (fault = none ∨ fault = (shape.drain draft (buffer ++ chunk)).fault) →
            fault ≠ some Record.overran := by
        rintro fault (rfl | rfl)
        · exact nofun
        · exact never.drain draft (buffer ++ chunk)
      obtain ⟨now, later, hnow, hlater, hturn⟩ := turn_feed m hk.opened buffer chunk
      obtain ⟨used, hgiven, htrail⟩ :=
        hk.trail.drain howns draft (buffer ++ chunk) frames consumed
      obtain rfl := hk.held
      rw [hturn]
      exact {
        quiet := hnever hnow
        keeps := ⟨⟨(shape.drain draft (buffer ++ chunk)).draft, _, later⟩, used, hgiven, rfl,
          m.open_drain hk.opened (buffer ++ chunk), htrail, hnever hlater⟩ }

/-- **Every call goes on with the trail**, whatever it is. -/
theorem Keeps.goesOn (hk : Keeps shape registers Open Own frames consumed b c) (call : Call) :
    GoesOn shape registers Open Own frames consumed (b.given call) (b.turn asm call) := by
  cases call with
  | feed chunk => exact hk.goesOn_feed m never howns chunk
  | decode src => exact hk.goesOn_decode m never howns src
  | takeFault =>
      have hgiven : b.given .takeFault = b.buffer := List.append_nil b.buffer
      rw [hgiven]
      exact hk.goesOn_of_deferred

end call

/-! ## All calls -/

namespace History

variable {δ : Type} {asm} {shape : Shape δ φ} {registers : δ → Assembly ρ} {Open : δ → Prop}
  {Own : φ → Octets → Prop}

variable (shape registers Open Own) in
/-- The calls so far have kept the trail, and none has found a record that overruns. -/
structure Kept (h : History ρ φ) : Prop where
  keeps : ∃ c, Keeps shape registers Open Own h.frames h.used h.bench c
  quiet : Record.overran ∉ h.faults

theorem kept_new : (new : History ρ φ).Kept shape registers Open Own where
  keeps := ⟨Codec.new, rfl, nofun, .of_strewn .nil, nofun⟩
  quiet := List.not_mem_nil

variable (m : asm.Mirrors shape registers Open) (never : shape.NeverOverruns)
  (howns : ∀ f own, shape.decode none own = ⟨.frame f, none, []⟩ → Own f own)
  {h : History ρ φ}

include m never howns

/-- What a call consumes is the front of what there is to read. -/
theorem Kept.front (hk : h.Kept shape registers Open Own) (call : Call) :
    h.bench.given call = h.bench.used asm call ++ (h.bench.turn asm call).left := by
  obtain ⟨c, hc⟩ := hk.keeps
  obtain ⟨c', used, hgiven, -⟩ := (hc.goesOn m never howns call).keeps
  rw [used_eq hgiven]
  exact hgiven

theorem Kept.on (hk : h.Kept shape registers Open Own) (call : Call) :
    (h.on asm call).Kept shape registers Open Own := by
  obtain ⟨c, hc⟩ := hk.keeps
  have hgoes := hc.goesOn m never howns call
  obtain ⟨c', used, hgiven, hc'⟩ := hgoes.keeps
  rw [← used_eq hgiven] at hc'
  refine ⟨⟨c', hc'⟩, fun hmem => ?_⟩
  rcases List.mem_append.mp hmem with hbefore | hnow
  · exact hk.quiet hbefore
  · exact hgoes.quiet (Option.mem_toList.mp hnow)

theorem Kept.run (hk : h.Kept shape registers Open Own) (calls : List Call) :
    (h.run asm calls).Kept shape registers Open Own := by
  induction calls generalizing h with
  | nil => exact hk
  | cons call calls ih => exact ih (hk.on m never howns call)

/-- A call that reads from no other buffer leaves in the buffer what it does not consume. -/
theorem Kept.stream_on (hk : h.Kept shape registers Open Own) {call : Call}
    (hcall : call.isDecode = false) (hstream : h.used ++ h.bench.buffer = h.heard) :
    (h.on asm call).used ++ (h.on asm call).bench.buffer = (h.on asm call).heard := by
  have hfront := hk.front m never howns call
  have hgiven : h.bench.given call = h.bench.buffer ++ h.bench.heard call := by
    cases call with
    | decode => cases hcall
    | _ => rfl
  have hleft : (h.bench.turn asm call).left = (h.bench.turn asm call).bench.buffer := by
    cases call with
    | decode => cases hcall
    | takeFault => rfl
    | feed chunk =>
        rw [turn]
        split <;> rfl
  calc (h.on asm call).used ++ (h.on asm call).bench.buffer
      = h.used ++ (h.bench.used asm call ++ (h.bench.turn asm call).left) := by
        rw [hleft, ← List.append_assoc]
        rfl
    _ = h.used ++ (h.bench.buffer ++ h.bench.heard call) := by rw [← hfront, hgiven]
    _ = (h.on asm call).heard := by
        rw [← List.append_assoc, hstream]
        rfl

theorem Kept.stream_run (hk : h.Kept shape registers Open Own) {calls : List Call}
    (hcalls : ∀ call ∈ calls, call.isDecode = false) (hstream : h.used ++ h.bench.buffer = h.heard) :
    (h.run asm calls).used ++ (h.run asm calls).bench.buffer = (h.run asm calls).heard := by
  induction calls generalizing h with
  | nil => exact hstream
  | cons call calls ih =>
      obtain ⟨hcall, hrest⟩ := List.forall_mem_cons.mp hcalls
      exact ih (hk.on m never howns call) hrest (hk.stream_on m never howns hcall hstream)

end History

/-! ## Nothing of one frame in another -/

section untainted

variable {δ : Type} {asm} {shape : Shape δ φ} {registers : δ → Assembly ρ} {Open : δ → Prop}

/-- **An assembler that mirrors a shape keeps nothing from frame to frame**, if the frames of the shape
have the elements that are written in their octets. -/
theorem untainted_of_mirrors (m : asm.Mirrors shape registers Open) (never : shape.NeverOverruns)
    {Spells : φ → Octets → Prop}
    (hspells : ∀ f own, shape.decode none own = ⟨.frame f, none, []⟩ → Spells f own)
    (calls : List Call) : Untainted asm Spells calls (History.new.run asm calls) := by
  have hnone : ∀ d ∈ (none : Option δ), Open d := fun d hd => by cases hd
  -- a frame of the shape is read alone from its octets, and so by the assembler
  have howns : ∀ f own, shape.decode none own = ⟨.frame f, none, []⟩ → Owns asm Spells f own := by
    intro f own hdecode
    refine ⟨hspells f own hdecode, ?_⟩
    have halone := m.decode_held hnone own
    rw [hdecode] at halone
    exact halone
  have hnew : (History.new : History ρ φ).Kept shape registers Open (Owns asm Spells) :=
    History.kept_new
  have hkept := hnew.run m never howns calls
  -- whatever the calls were, the assembly is that of some codec of the shape
  obtain ⟨c, hk⟩ := hkept.keeps
  have hassembly : (History.new.run asm calls).bench.assembly = .holding registers c.draft :=
    congrArg Bench.assembly hk.held
  exact {
    idle := by
      rw [hassembly]
      exact m.holding_of_idle hk.opened
    room := by
      rw [hassembly]
      exact m.filled_lt_of_inProgress hk.opened
    overran := by
      refine ⟨hkept.quiet, ?_⟩
      rw [hk.held]
      exact hk.quiet
    own := by
      obtain ⟨before, part, hused, hstrewn, hpart⟩ := hk.trail.split
      refine ⟨before, part, hused, hstrewn, ?_⟩
      have halone := m.decode_held hnone part
      rw [hpart] at halone
      rw [hassembly]
      exact halone
    front := hkept.front m never howns
    stream := fun hcalls => hnew.stream_run m never howns hcalls rfl }

end untainted

/-- **Nothing of one frame is found in another**, neither of records nor of packets, whatever has been
fed, decoded and refused before. -/
theorem untainted_run :
    (∀ calls, Untainted Record.assembler Record.Sentence calls
        (History.new.run Record.assembler calls))
      ∧ ∀ calls, Untainted Packet.assembler Packet.SpelledBy calls
        (History.new.run Packet.assembler calls) := by
  -- both assemblers mirror their shapes; what is read from octets is what they spell
  constructor
  · refine untainted_of_mirrors Record.mirrors Record.neverOverruns fun r own h => ?_
    obtain ⟨bs, hsentence, rfl⟩ := Record.sentence_of_decode h
    rw [List.append_nil]
    exact hsentence
  · refine untainted_of_mirrors Packet.mirrors Packet.neverOverruns fun p own h => ?_
    obtain ⟨spelling, bs, hspelled, hforms, rfl⟩ := Packet.decode_eq_frame_iff_spelled.mp h
    rw [List.append_nil]
    exact ⟨spelling, hspelled, hforms⟩

end Bench

end GameHall
