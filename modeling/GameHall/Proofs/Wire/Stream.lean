import GameHall.Proofs.Wire.Chunks
import GameHall.Proofs.Wire.Grammar

/-!
# The records at the front of a stream

A stream is drained of the records at its front (`Record.exists_spelled`), which are told by the language
of records and not by the reader, and of no others (`Record.frames_of_spelled`).
-/

namespace GameHall

namespace Record

/-- The sentences of some records, one after the other. -/
inductive Sentences : List Record → Octets → Prop where
  | nil : Sentences [] []
  | cons {r : Record} {rs : List Record} {bs bs' : Octets} (h : r.Sentence bs)
      (hs : Sentences rs bs') : Sentences (r :: rs) (bs ++ bs')

/-- The records at the front of a stream, and what is left behind the last of them. -/
structure Spelled (input : Octets) (records : List Record) (left : Octets) : Prop where
  front : ∃ front, Sentences records front ∧ input = front ++ left
  /-- No record stands at the front of what is left. -/
  last : ∀ n ≤ left.length, ¬ IsSentence (left.take n)

/-- Behind a record of a stream there are the others. -/
theorem Spelled.cons {r : Record} {rs : List Record} {bs input left : Octets} (hr : r.Sentence bs)
    (h : Spelled input rs left) : Spelled (bs ++ input) (r :: rs) left := by
  obtain ⟨front, hfront, rfl⟩ := h.front
  exact ⟨⟨bs ++ front, .cons hr hfront, (List.append_assoc ..).symm⟩, h.last⟩

/-- What does not begin with a record begins with none of them. -/
theorem spelled_nil {input : Octets} (h : ∀ r, (shape.decode none input).outcome ≠ .frame r) :
    Spelled input [] input where
  front := ⟨[], .nil, rfl⟩
  last := by
    intro n hn hsentence
    obtain ⟨r, hr⟩ := ((reads input).accepts n hn).mpr hsentence
    exact h r (congrArg Shape.Decoded.outcome hr)

/-- **A stream is drained of the records at its front**, and without a fault just if what is left may
yet become a record. -/
theorem exists_spelled {draft : Option RecordDraft} (hdraft : draft = none) (input : Octets) :
    ∃ left, Spelled input (shape.drain draft input).frames left
      ∧ ((shape.drain draft input).fault = none ↔ IsUnfinished left) := by
  -- along the records; after each of them the reader begins anew
  fun_induction Shape.drain shape draft input with
  | case1 draft input draft' rest h =>
      subst hdraft
      refine ⟨input, spelled_nil fun r hr => ?_, iff_of_true rfl ?_⟩
      · rw [h] at hr
        cases hr
      · exact decode_eq_more_iff_unfinished.mp (congrArg Shape.Decoded.outcome h)
  | case2 draft input e draft' rest h =>
      subst hdraft
      refine ⟨input, spelled_nil fun r hr => ?_, iff_of_false (Option.some_ne_none e) fun hleft => ?_⟩
      · rw [h] at hr
        cases hr
      · have hmore := decode_eq_more_iff_unfinished.mpr hleft
        rw [h] at hmore
        cases hmore
  | case3 draft input r draft' rest h _ later ih =>
      have hnone := shape.decode_frame_draft h
      subst hdraft hnone
      obtain ⟨left, hleft, hfault⟩ := ih rfl
      obtain ⟨bs, hr, rfl⟩ := sentence_of_decode h
      exact ⟨left, hleft.cons hr, hfault⟩

/-- A record is read from its sentence, whatever follows. -/
theorem Sentence.decode {r : Record} {bs : Octets} (h : r.Sentence bs) (rest : Octets) :
    shape.decode none (bs ++ rest) = ⟨.frame r, none, rest⟩ := by
  have hlen : bs.length ≤ (bs ++ rest).length := by
    rw [List.length_append]
    exact Nat.le_add_right ..
  have hdecode := decode_eq_frame_iff_sentence hlen r
  rw [List.take_left' rfl, List.drop_left' rfl] at hdecode
  exact hdecode.mpr h

/-- No other records are at the front of a stream. -/
theorem frames_of_spelled {input left : Octets} {records : List Record}
    (h : Spelled input records left) : (shape.drain none input).frames = records := by
  obtain ⟨⟨front, hfront, rfl⟩, hlast⟩ := h
  induction hfront with
  | nil =>
      rw [List.nil_append]
      cases hd : shape.decode none left with
      | mk outcome draft rest =>
          cases outcome with
          | more => rw [shape.drain_of_more hd]
          | fault e => rw [shape.drain_of_fault hd]
          | frame r =>
              obtain ⟨n, hn, hr⟩ := shape.exists_drop_of_frame (congrArg Shape.Decoded.outcome hd)
              exact absurd (((reads left).accepts n hn).mp ⟨r, hr⟩) (hlast n hn)
  | @cons r rs bs bs' hr hrs ih =>
      rw [List.append_assoc, shape.drain_of_frame (hr.decode (bs' ++ left)), Shape.Drained.after, ih]
      rfl

end Record

end GameHall
