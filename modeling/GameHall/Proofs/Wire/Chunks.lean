import GameHall.Proofs.Wire.Prefix
import GameHall.Wire.Record

/-!
# A stream in chunks

Whatever the chunks in which a stream arrives, the same frames come out of it in the same order, and
then the same fault or none. This holds of the reading loop of a socket, which feeds a codec, and of a
decoder that is called on a buffer as it grows.

To drain a stream is to drain its front and then the rest (`drain_append`). Either loop drains a front
with every chunk, and when there was no fault what it leaves behind has nothing more to give
(`drain_settled`).
-/

namespace GameHall

namespace Shape

variable {δ φ : Type}

/-! ## Draining -/

/-- The same with frames that came before. -/
def Drained.after (d : Drained δ φ) (frames : List φ) : Drained δ φ :=
  { d with frames := frames ++ d.frames }

theorem Drained.after_after (d : Drained δ φ) (frames earlier : List φ) :
    (d.after frames).after earlier = d.after (earlier ++ frames) := by
  simp [after]

variable (shape : Shape δ φ)

theorem drain_of_more {draft draft' : Option δ} {src rest : Octets}
    (h : shape.decode draft src = ⟨.more, draft', rest⟩) :
    shape.drain draft src = ⟨[], none, draft', rest⟩ := by
  rw [drain]
  split <;> rename_i hd <;> rw [h] at hd <;> cases hd
  rfl

theorem drain_of_fault {draft draft' : Option δ} {src rest : Octets} {e : CodecFault}
    (h : shape.decode draft src = ⟨.fault e, draft', rest⟩) :
    shape.drain draft src = ⟨[], some e, draft', rest⟩ := by
  rw [drain]
  split <;> rename_i hd <;> rw [h] at hd <;> cases hd
  rfl

theorem drain_of_frame {draft draft' : Option δ} {src rest : Octets} {f : φ}
    (h : shape.decode draft src = ⟨.frame f, draft', rest⟩) :
    shape.drain draft src = (shape.drain draft' rest).after [f] := by
  rw [drain]
  split <;> rename_i hd <;> rw [h] at hd <;> cases hd
  rfl

/-- What drains is plain from the first thing that is decoded. -/
theorem drain_congr {draft draft' : Option δ} {src src' : Octets}
    (h : shape.decode draft src = shape.decode draft' src') :
    shape.drain draft src = shape.drain draft' src' := by
  cases hd : shape.decode draft' src' with
  | mk outcome d rest =>
      rw [hd] at h
      cases outcome with
      | more => rw [drain_of_more shape h, drain_of_more shape hd]
      | frame f => rw [drain_of_frame shape h, drain_of_frame shape hd]
      | fault e => rw [drain_of_fault shape h, drain_of_fault shape hd]

/-- **To drain a stream is to drain its front**, and then the rest unless the front has a fault. -/
theorem drain_append (draft : Option δ) (src more : Octets) :
    shape.drain draft (src ++ more) =
      match shape.drain draft src with
      | ⟨frames, some e, draft, rest⟩ => ⟨frames, some e, draft, rest ++ more⟩
      | ⟨frames, none, draft, rest⟩ => (shape.drain draft (rest ++ more)).after frames := by
  -- along the frames of the front; its last part may go on in what follows
  fun_induction drain shape draft src with
  | case1 draft src draft' rest h =>
      have happ := decode_append shape draft src more
      rw [h] at happ
      exact drain_congr shape happ
  | case2 draft src e draft' rest h =>
      have happ := decode_append shape draft src more
      rw [h] at happ
      exact drain_of_fault shape happ
  | case3 draft src f draft' rest h _ later ih =>
      have happ := decode_append shape draft src more
      rw [h] at happ
      rw [drain_of_frame shape happ, ih]
      simp only [later]
      cases shape.drain draft' rest with
      | mk frames fault d rest' =>
          cases fault with
          | some e => rfl
          | none => exact Drained.after_after _ frames [f]

/-- More of a stream is drained behind what has been drained without a fault. -/
theorem drain_more {input : Octets}
    (h : (shape.drain none input).fault = none) (chunk : Octets) :
    shape.drain none (input ++ chunk) = (shape.drain (shape.drain none input).draft
      ((shape.drain none input).rest ++ chunk)).after (shape.drain none input).frames := by
  rw [shape.drain_append]
  cases hd : shape.drain none input with
  | mk frames fault draft rest =>
      rw [hd] at h
      rw [show fault = none from h]

/-- What is left without a fault has nothing more to give. -/
theorem drain_settled {draft draft' : Option δ} {src rest : Octets} {frames : List φ}
    (h : shape.drain draft src = ⟨frames, none, draft', rest⟩) :
    shape.drain draft' rest = ⟨[], none, draft', rest⟩ := by
  -- a stream is itself with nothing behind it
  have happ := drain_append shape draft src []
  rw [List.append_nil, h] at happ
  simp only [List.append_nil] at happ
  cases hd : shape.drain draft' rest with
  | mk frames' fault d rest' =>
      rw [hd] at happ
      simp only [Drained.after, Drained.mk.injEq] at happ
      obtain ⟨hframes, hfault, hdraft, hrest⟩ := happ
      have hnil : frames' = [] := List.append_right_eq_self.mp hframes.symm
      rw [hnil, ← hfault, ← hdraft, ← hrest]

theorem drain_nil : shape.drain none [] = ⟨[], none, none, []⟩ :=
  drain_of_more shape (decode_of_none shape rfl)

end Shape

namespace Codec

variable {δ φ : Type} (shape : Shape δ φ)

/-! ## The loops -/

/-- One chunk drains what is left with the chunk behind it. -/
theorem absorb_eq {c : Codec δ} (hc : c.deferred = none) (chunk : Octets) :
    c.absorb shape chunk = ((shape.drain c.draft (c.buffer ++ chunk)).frames,
      (shape.drain c.draft (c.buffer ++ chunk)).fault,
      ⟨(shape.drain c.draft (c.buffer ++ chunk)).draft,
        (shape.drain c.draft (c.buffer ++ chunk)).rest, none⟩) := by
  unfold absorb feed
  rw [hc]
  dsimp only
  cases shape.drain c.draft (c.buffer ++ chunk) with
  | mk frames fault draft rest =>
      cases fault with
      | none => rfl
      | some e => cases frames <;> rfl

/-- A codec that has taken all that what it has gives. -/
def Settled (c : Codec δ) : Prop := shape.drain c.draft c.buffer = ⟨[], none, c.draft, c.buffer⟩

/-- **A reading loop drains the whole stream.** Only what is left behind a fault depends on the chunk
that the fault was in. -/
theorem absorbAll_eq {c : Codec δ} (hc : c.deferred = none) (hset : c.Settled shape)
    (chunks : List Octets) :
    ∃ left : Codec δ,
      c.absorbAll shape chunks = ((shape.drain c.draft (c.buffer ++ chunks.flatten)).frames,
        (shape.drain c.draft (c.buffer ++ chunks.flatten)).fault, left)
      ∧ ((shape.drain c.draft (c.buffer ++ chunks.flatten)).fault = none →
        left = ⟨(shape.drain c.draft (c.buffer ++ chunks.flatten)).draft,
          (shape.drain c.draft (c.buffer ++ chunks.flatten)).rest, none⟩) := by
  induction chunks generalizing c with
  | nil =>
      rw [List.flatten_nil, List.append_nil, hset]
      exact ⟨c, rfl, fun _ => by rw [← hc]⟩
  | cons chunk chunks ih =>
      rw [List.flatten_cons, ← List.append_assoc, Shape.drain_append, absorbAll,
        absorb_eq shape hc chunk]
      cases hd : shape.drain c.draft (c.buffer ++ chunk) with
      | mk frames fault draft rest =>
          cases fault with
          | some e => exact ⟨⟨draft, rest, none⟩, rfl, fun h => by cases h⟩
          -- the loop goes on with what this chunk has left
          | none =>
              obtain ⟨left, heq, hleft⟩ := ih (c := ⟨draft, rest, none⟩) rfl
                (shape.drain_settled hd)
              refine ⟨left, ?_, hleft⟩
              dsimp only
              rw [heq]
              rfl

/-- **A decoder that is called on a growing buffer drains the whole stream** as well. -/
theorem decodeChunks_eq {c : Codec δ} {src : Octets}
    (hset : shape.drain c.draft src = ⟨[], none, c.draft, src⟩) (chunks : List Octets) :
    ∃ (left : Codec δ) (rest : Octets),
      c.decodeChunks shape src chunks = ((shape.drain c.draft (src ++ chunks.flatten)).frames,
        (shape.drain c.draft (src ++ chunks.flatten)).fault, left, rest)
      ∧ ((shape.drain c.draft (src ++ chunks.flatten)).fault = none →
        left = { c with draft := (shape.drain c.draft (src ++ chunks.flatten)).draft }
          ∧ rest = (shape.drain c.draft (src ++ chunks.flatten)).rest) := by
  induction chunks generalizing c src with
  | nil =>
      rw [List.flatten_nil, List.append_nil, hset]
      exact ⟨c, src, rfl, fun _ => ⟨rfl, rfl⟩⟩
  | cons chunk chunks ih =>
      rw [List.flatten_cons, ← List.append_assoc, Shape.drain_append, decodeChunks, decodeAll]
      cases hd : shape.drain c.draft (src ++ chunk) with
      | mk frames fault draft rest =>
          cases fault with
          | some e =>
              exact ⟨{ c with draft := draft }, rest, rfl, fun h => by cases h⟩
          | none =>
              obtain ⟨left, rest', heq, hleft⟩ := ih (c := { c with draft := draft })
                (shape.drain_settled hd)
              refine ⟨left, rest', ?_, hleft⟩
              dsimp only at heq ⊢
              rw [heq]
              rfl

/-- What is known of a stream that has been read up to a fault or to its end so far. -/
structure Agree (whole fed : List φ × Option CodecFault × Codec δ)
    (decoded : List φ × Option CodecFault × Codec δ × Octets) : Prop where
  fedFrames : fed.1 = whole.1
  fedFault : fed.2.1 = whole.2.1
  decodedFrames : decoded.1 = whole.1
  decodedFault : decoded.2.1 = whole.2.1
  /-- Without a fault the codecs are in one state. -/
  fedCodec : whole.2.1 = none → fed.2.2 = whole.2.2
  /-- What a codec would have in its buffer the caller of a decoder has in its own. -/
  decodedRest : whole.2.1 = none → decoded.2.2.2 = whole.2.2.buffer
  decodedDraft : whole.2.1 = none → decoded.2.2.1.draft = whole.2.2.draft
  /-- A decoder does not see the buffer of its caller. -/
  decodedProgress : whole.2.1 = none →
    whole.2.2.inProgress = (decoded.2.2.1.inProgress || !decoded.2.2.2.isEmpty)

/-- **Chunks make no difference.** A stream that is fed in chunks, one that is fed at once and one that
is decoded from a growing buffer give the same frames and the same fault, and without a fault they
leave the same behind. -/
theorem agree_chunks (chunks : List Octets) :
    Agree ((new : Codec δ).absorb shape chunks.flatten) ((new : Codec δ).absorbAll shape chunks)
      ((new : Codec δ).decodeChunks shape [] chunks) := by
  have hnew : (new : Codec δ).Settled shape := shape.drain_nil
  obtain ⟨left, hfed, hleft⟩ := absorbAll_eq shape (c := new) rfl hnew chunks
  obtain ⟨codec, rest, hdec, hrest⟩ := decodeChunks_eq shape (c := (new : Codec δ))
    (show shape.drain none [] = _ from shape.drain_nil) chunks
  -- all three have drained the whole stream, up to the same frame or fault
  rw [absorb_eq shape (c := new) rfl, hfed, hdec]
  exact {
    fedFrames := rfl
    fedFault := rfl
    decodedFrames := rfl
    decodedFault := rfl
    fedCodec := hleft
    decodedRest := fun hnone => (hrest hnone).2
    decodedDraft := by
      intro hnone
      rw [(hrest hnone).1]
      rfl
    decodedProgress := by
      intro hnone
      dsimp only
      rw [(hrest hnone).1, (hrest hnone).2]
      simp [inProgress, new]
  }

/-- With one octet of a head in the buffer, a codec waits for more and a decoder has seen nothing. -/
theorem inProgress_head_only :
    ((new : RecordCodec).absorb Record.shape [0x98]).2.1 = none
      ∧ ((new : RecordCodec).absorb Record.shape [0x98]).2.2.inProgress = true
      ∧ ((new : RecordCodec).decodeChunks Record.shape [] [[0x98]]).2.2.1.inProgress = false := by
  have hdrain : Record.shape.drain none [0x98] = ⟨[], none, none, [0x98]⟩ :=
    Shape.drain_of_more _ (Shape.decode_of_none _ rfl)
  rw [absorb_eq Record.shape (c := new) rfl, decodeChunks, decodeAll]
  simp only [new, List.nil_append, hdrain]
  exact ⟨trivial, rfl, rfl⟩

end Codec

end GameHall
