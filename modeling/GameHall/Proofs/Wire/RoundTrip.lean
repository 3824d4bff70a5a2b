import GameHall.Proofs.Cbor.Forms
import GameHall.Proofs.Wire.Chunks

/-!
# Records there and back

The writer of records has no limits, and the reader takes no string of more than sixteen mebibytes. So
a record comes back from its octets just if its strings keep to the limit, and a stream of such records
comes back record by record, however far it has arrived.

What is written of an item is read back (`Cbor.Item.take_write`). Records and streams follow. That
nothing comes out of a part of a record needs no look at the parts: if something came out of it, it
would have come out of the whole record (`decode_append`).
-/

namespace GameHall

/-! ## Elements -/

theorem expectInt_ok {low high : Int} {position : Nat} {item : Cbor.Item} {v : Int}
    (h : expectInt low high position item = .ok v) : item = .int v ∧ low ≤ v ∧ v ≤ high := by
  cases item with
  | int w =>
      unfold expectInt at h
      dsimp only at h
      split at h
      · rename_i hrange
        cases h
        exact ⟨rfl, hrange⟩
      · cases h
  | _ => cases h

theorem expectInt32_of_int (position : Nat) {v : Int} (hlow : -2147483648 ≤ v)
    (hhigh : v ≤ 2147483647) : expectInt32 position (.int v) = .ok (Int32.ofInt v)
      ∧ (Int32.ofInt v).toInt = v := by
  refine ⟨?_, Int32.toInt_ofInt_of_le (by omega) (by omega)⟩
  rw [expectInt32, expectInt, if_pos ⟨hlow, hhigh⟩]

theorem expectInt64_of_int (position : Nat) {v : Int} (hlow : -9223372036854775808 ≤ v)
    (hhigh : v ≤ 9223372036854775807) : expectInt64 position (.int v) = .ok (Int64.ofInt v)
      ∧ (Int64.ofInt v).toInt = v := by
  refine ⟨?_, Int64.toInt_ofInt_of_le (by omega) (by omega)⟩
  rw [expectInt64, expectInt, if_pos ⟨hlow, hhigh⟩]

theorem expectInt32_toInt (position : Nat) (v : Int32) :
    expectInt32 position (.int v.toInt) = .ok v := by
  have hlow := v.le_toInt
  have hhigh := v.toInt_lt
  rw [(expectInt32_of_int position (by omega) (by omega)).1, Int32.ofInt_toInt]

theorem expectInt64_toInt (position : Nat) (v : Int64) :
    expectInt64 position (.int v.toInt) = .ok v := by
  have hlow := v.le_toInt
  have hhigh := v.toInt_lt
  rw [(expectInt64_of_int position (by omega) (by omega)).1, Int64.ofInt_toInt]

theorem expectInt32_ok {position : Nat} {item : Cbor.Item} {v : Int32}
    (h : expectInt32 position item = .ok v) : item = .int v.toInt := by
  unfold expectInt32 at h
  split at h
  · rename_i w hw
    obtain ⟨rfl, hlow, hhigh⟩ := expectInt_ok hw
    cases h
    rw [(expectInt32_of_int position hlow hhigh).2]
  · cases h

theorem expectInt64_ok {position : Nat} {item : Cbor.Item} {v : Int64}
    (h : expectInt64 position item = .ok v) : item = .int v.toInt := by
  unfold expectInt64 at h
  split at h
  · rename_i w hw
    obtain ⟨rfl, hlow, hhigh⟩ := expectInt_ok hw
    cases h
    rw [(expectInt64_of_int position hlow hhigh).2]
  · cases h

theorem take_arrayHead {n : Nat} (hn : n < 18446744073709551616) (rest : Octets) :
    Cbor.Item.take (Cbor.writeHead 4 n ++ rest) = .ok (some (.array n, rest)) :=
  Cbor.Item.take_write (.array n) hn rest

theorem take_int32 (v : Int32) (rest : Octets) :
    Cbor.Item.take (Cbor.writeInt v.toInt ++ rest) = .ok (some (.int v.toInt, rest)) := by
  have hlow := v.le_toInt
  have hhigh := v.toInt_lt
  exact Cbor.Item.take_write (.int v.toInt) ⟨by omega, by omega⟩ rest

theorem take_int64 (v : Int64) (rest : Octets) :
    Cbor.Item.take (Cbor.writeInt v.toInt ++ rest) = .ok (some (.int v.toInt, rest)) := by
  have hlow := v.le_toInt
  have hhigh := v.toInt_lt
  exact Cbor.Item.take_write (.int v.toInt) ⟨by omega, by omega⟩ rest

/-- An element that a draft takes takes the frame one element further. -/
theorem Shape.decode_go {δ φ : Type} (shape : Shape δ φ) {draft : Option δ} {d : δ}
    {item : Cbor.Item} {src rest : Octets} (hitem : Cbor.Item.take src = .ok (some (item, rest)))
    (hadv : shape.advance draft item = .ok (.inl d)) :
    shape.decode draft src = shape.decode (some d) rest := by
  rw [decode_of_item shape hitem, hadv]

theorem Shape.decode_end {δ φ : Type} (shape : Shape δ φ) {draft : Option δ} {f : φ}
    {item : Cbor.Item} {src rest : Octets} (hitem : Cbor.Item.take src = .ok (some (item, rest)))
    (hadv : shape.advance draft item = .ok (.inr f)) :
    shape.decode draft src = ⟨.frame f, none, rest⟩ := by
  rw [decode_of_item shape hitem, hadv]

/-! ## Records -/

namespace Record

/-- Whether the strings of a record keep to the limit of the reader. -/
def Fits (r : Record) : Prop :=
  r.command.length ≤ Cbor.Item.maxLength ∧ r.payload.length ≤ Cbor.Item.maxLength

/-- Both forms of a record begin alike. -/
theorem decode_front {arity : Nat} {timed : Bool} (harity : arity < 18446744073709551616)
    (hstart : RecordDraft.start arity = .ok (.empty timed)) (id mask : Int32) {command : Octets}
    (hcommand : command.length ≤ Cbor.Item.maxLength) (rest : Octets) :
    shape.decode none (Cbor.writeHead 4 arity ++ (Cbor.writeInt id.toInt ++ (Cbor.writeInt mask.toInt
      ++ (Cbor.Item.write (.bytes command) ++ rest))))
      = shape.decode (some (.withCommand timed id mask command)) rest := by
  have h0 : shape.advance none (.array arity) = .ok (.inl (.empty timed)) := by
    simp only [Shape.advance, shape, hstart]
  have h1 : shape.advance (some (.empty timed)) (.int id.toInt) = .ok (.inl (.withId timed id)) := by
    simp only [Shape.advance, shape, RecordDraft.push, expectInt32_toInt]
    rfl
  have h2 : shape.advance (some (.withId timed id)) (.int mask.toInt)
      = .ok (.inl (.withMask timed id mask)) := by
    simp only [Shape.advance, shape, RecordDraft.push, expectInt32_toInt]
    rfl
  rw [shape.decode_go (take_arrayHead harity _) h0, shape.decode_go (take_int32 id _) h1,
    shape.decode_go (take_int32 mask _) h2,
    shape.decode_go (Cbor.Item.take_write (.bytes command) hcommand _) rfl]

/-- **A record that fits is read back**, whatever follows it. -/
theorem decode_write {r : Record} (hr : r.Fits) (rest : Octets) :
    shape.decode none (r.write ++ rest) = ⟨.frame r, none, rest⟩ := by
  obtain ⟨id, mask, command, payload, timing⟩ := r
  obtain ⟨hcommand, hpayload⟩ := hr
  cases timing with
  | none =>
      simp only [write, List.append_assoc]
      rw [decode_front (by decide) rfl id mask hcommand]
      exact shape.decode_end (Cbor.Item.take_write (.bytes payload) hpayload rest) rfl
  | some t =>
      obtain ⟨timeout, timestamp⟩ := t
      have h4 : shape.advance (some (.withPayload id mask command payload)) (.int timeout.toInt)
          = .ok (.inl (.withTimeout id mask command payload timeout)) := by
        simp only [Shape.advance, shape, RecordDraft.push, expectInt32_toInt]
        rfl
      have h5 : shape.advance (some (.withTimeout id mask command payload timeout))
          (.int timestamp.toInt)
            = .ok (.inr ⟨id, mask, command, payload, some ⟨timeout, timestamp⟩⟩) := by
        simp only [Shape.advance, shape, RecordDraft.push, expectInt64_toInt]
        rfl
      simp only [write, List.append_assoc]
      rw [decode_front (by decide) rfl id mask hcommand,
        shape.decode_go (Cbor.Item.take_write (.bytes payload) hpayload _) rfl,
        shape.decode_go (take_int32 timeout _) h4]
      exact shape.decode_end (take_int64 timestamp rest) h5

/-! ## Streams -/

end Record

/-- Frames that are read back each are read back one after the other. -/
theorem Shape.drain_flatMap {δ φ : Type} (shape : Shape δ φ) {write : φ → Octets} {fs : List φ}
    (h : ∀ f ∈ fs, ∀ rest, shape.decode none (write f ++ rest) = ⟨.frame f, none, rest⟩)
    (rest : Octets) :
    shape.drain none (fs.flatMap write ++ rest) = (shape.drain none rest).after fs := by
  induction fs with
  | nil => rfl
  | cons f fs ih =>
      have hf := h f List.mem_cons_self (fs.flatMap write ++ rest)
      have hfs := ih fun f hf => h f (List.mem_cons_of_mem _ hf)
      rw [List.flatMap_cons, List.append_assoc, shape.drain_of_frame hf, hfs, Drained.after_after]
      rfl

namespace Record

theorem write_length_pos {r : Record} (hr : r.Fits) : 0 < r.write.length := by
  have hframe := decode_write hr []
  have hlt := shape.decode_frame_length none (r.write ++ []) (by rw [hframe])
  rw [List.append_nil] at hlt
  omega

/-- Nothing comes out of a part of a record. -/
theorem decode_part {r : Record} (hr : r.Fits) {part tail : Octets} (heq : part ++ tail = r.write)
    (htail : tail ≠ []) : ∃ draft rest, shape.decode none part = ⟨.more, draft, rest⟩ := by
  -- whatever came out of the part would come out of the record, with the tail left over
  have hwhole := decode_write hr []
  rw [List.append_nil, ← heq, Shape.decode_append] at hwhole
  cases hd : shape.decode none part with
  | mk outcome draft rest =>
      rw [hd] at hwhole
      cases outcome with
      | more => exact ⟨draft, rest, rfl⟩
      | frame f =>
          simp only [Shape.Decoded.mk.injEq] at hwhole
          exact absurd (List.append_eq_nil_iff.mp hwhole.2.2).2 htail
      | fault e =>
          simp only [Shape.Decoded.mk.injEq] at hwhole
          exact absurd hwhole.1 (by simp)

end Record

/-- A decoder that has not begun a frame has consumed nothing. -/
theorem Shape.decode_more_none {δ φ : Type} (shape : Shape δ φ) {draft : Option δ}
    {src rest : Octets} (h : shape.decode draft src = ⟨.more, none, rest⟩) :
    draft = none ∧ rest = src := by
  fun_induction decode shape draft src with
  | case1 => simp at h
  | case2 draft src _ =>
      simp only [Decoded.mk.injEq] at h
      exact ⟨h.2.1, h.2.2.symm⟩
  | case3 => simp at h
  | case4 => simp at h
  | case5 draft src item rest' _ d _ _ ih => exact absurd (ih h).1 (by simp)

namespace Record

/-- The first `m` of some records are those that lie wholly in the first `k` octets. -/
structure Within (rs : List Record) (k m : Nat) : Prop where
  le : m ≤ rs.length
  inside : (writeAll (rs.take m)).length ≤ k
  most : ∀ j ≤ rs.length, (writeAll (rs.take j)).length ≤ k → j ≤ m

/-- Whether a record begins or the stream ends after `k` octets. -/
def Boundary (rs : List Record) (k : Nat) : Prop :=
  ∃ j ≤ rs.length, (writeAll (rs.take j)).length = k

theorem length_writeAll_cons (r : Record) (rs : List Record) (j : Nat) :
    (writeAll ((r :: rs).take (j + 1))).length
      = r.write.length + (writeAll (rs.take j)).length := by
  rw [List.take_succ_cons, writeAll, List.flatMap_cons, List.length_append]
  rfl

section cons

variable {r : Record} {rs : List Record} {k m : Nat}

theorem within_cons_of_lt (h : k < r.write.length) : Within (r :: rs) k 0 where
  le := Nat.zero_le _
  inside := Nat.zero_le _
  most := by
    intro j _ hj
    cases j with
    | zero => exact Nat.le_refl 0
    | succ j =>
        rw [length_writeAll_cons] at hj
        omega

theorem within_cons_of_le (h : r.write.length ≤ k) (hm : Within rs (k - r.write.length) m) :
    Within (r :: rs) k (m + 1) where
  le := Nat.succ_le_succ hm.le
  inside := by
    have := hm.inside
    rw [length_writeAll_cons]
    omega
  most := by
    intro j hlen hj
    cases j with
    | zero => exact Nat.zero_le _
    | succ j =>
        rw [length_writeAll_cons] at hj
        exact Nat.succ_le_succ (hm.most j (Nat.le_of_succ_le_succ hlen) (by omega))

theorem boundary_cons_of_lt (h : k < r.write.length) : Boundary (r :: rs) k ↔ k = 0 := by
  constructor
  · intro ⟨j, _, hj⟩
    cases j with
    | zero => exact hj.symm
    | succ j =>
        rw [length_writeAll_cons] at hj
        omega
  · intro hk
    exact ⟨0, Nat.zero_le _, hk.symm⟩

theorem boundary_cons_of_le (hpos : 0 < r.write.length) (h : r.write.length ≤ k) :
    Boundary (r :: rs) k ↔ Boundary rs (k - r.write.length) := by
  constructor
  · intro ⟨j, hlen, hj⟩
    cases j with
    | zero =>
        have : k = 0 := hj.symm
        omega
    | succ j =>
        rw [length_writeAll_cons] at hj
        exact ⟨j, Nat.le_of_succ_le_succ hlen, by omega⟩
  · intro ⟨j, hlen, hj⟩
    refine ⟨j + 1, Nat.succ_le_succ hlen, ?_⟩
    rw [length_writeAll_cons]
    omega

end cons

/-- **From the first octets of a stream come the records that lie wholly in them**, and something is
left unless they end with a record. -/
theorem drain_part {rs : List Record} (hrs : ∀ r ∈ rs, r.Fits) {k : Nat}
    (hk : k ≤ (writeAll rs).length) :
    ∃ m draft rest, Within rs k m
      ∧ shape.drain none ((writeAll rs).take k) = ⟨rs.take m, none, draft, rest⟩
      ∧ (draft = none ∧ rest = [] ↔ Boundary rs k) := by
  induction rs generalizing k with
  | nil =>
      have hzero : k = 0 := Nat.le_zero.mp hk
      subst hzero
      refine ⟨0, none, [], ⟨Nat.le_refl 0, Nat.le_refl 0, fun j hj _ => hj⟩, shape.drain_nil, ?_⟩
      exact ⟨fun _ => ⟨0, Nat.le_refl 0, rfl⟩, fun _ => ⟨rfl, rfl⟩⟩
  | cons r rs ih =>
      have hr : r.Fits := hrs r List.mem_cons_self
      have hrs' : ∀ r ∈ rs, r.Fits := fun r hr => hrs r (List.mem_cons_of_mem _ hr)
      have hcons : writeAll (r :: rs) = r.write ++ writeAll rs := List.flatMap_cons
      rw [hcons, List.length_append] at hk
      rw [hcons, List.take_append]
      by_cases hlt : k < r.write.length
      -- the record has not arrived as a whole, and nothing behind it has
      · have hzero : k - r.write.length = 0 := by omega
        rw [hzero, List.take_zero, List.append_nil]
        have htail : r.write.drop k ≠ [] := by
          intro hnil
          have := List.drop_eq_nil_iff.mp hnil
          omega
        obtain ⟨draft, rest, hd⟩ := decode_part hr (List.take_append_drop k r.write) htail
        refine ⟨0, draft, rest, within_cons_of_lt hlt, shape.drain_of_more hd, ?_⟩
        rw [boundary_cons_of_lt hlt]
        constructor
        · intro ⟨hdraft, hrest⟩
          rw [hdraft, hrest] at hd
          have hempty := congrArg List.length (shape.decode_more_none hd).2
          rw [List.length_take, List.length_nil] at hempty
          omega
        · intro hk0
          rw [hk0, List.take_zero, shape.decode_of_none rfl] at hd
          simp only [Shape.Decoded.mk.injEq] at hd
          exact ⟨hd.2.1.symm, hd.2.2.symm⟩
      -- the record comes out, and the rest of the stream is as far along
      · have hle : r.write.length ≤ k := Nat.le_of_not_lt hlt
        obtain ⟨m, draft, rest, hm, hdrain, hleft⟩ := ih hrs' (k := k - r.write.length) (by omega)
        refine ⟨m + 1, draft, rest, within_cons_of_le hle hm, ?_, ?_⟩
        · rw [List.take_of_length_le hle, shape.drain_of_frame (decode_write hr _), hdrain]
          rfl
        · rw [boundary_cons_of_le (write_length_pos hr) hle]
          exact hleft

end Record

/-! ## What comes out fits -/

/-- Whether an item is no string beyond the limit. -/
def Cbor.Item.Fits : Cbor.Item → Prop
  | .bytes body => body.length ≤ maxLength
  | .text body => body.length ≤ maxLength
  | _ => True

theorem Cbor.Item.Form.fits {item : Item} {bs : Octets} (h : item.Form bs) : item.Fits := by
  cases h with
  | bytes _ hbody => exact hbody
  | text _ hbody => exact hbody
  | _ => trivial

/-- The reader lets no string through that is beyond the limit. -/
theorem Cbor.Item.take_fits {bs rest : Octets} {item : Item}
    (h : take bs = .ok (some (item, rest))) : item.Fits := by
  obtain ⟨_, hform, _⟩ := take_eq_some_iff.mp h
  exact hform.fits

theorem expectString_fits {position : Nat} {item : Cbor.Item} (hitem : item.Fits) {body : Octets}
    (h : expectString position item = .ok body) : body.length ≤ Cbor.Item.maxLength := by
  cases item with
  | bytes b => cases h; exact hitem
  | text b => cases h; exact hitem
  | _ => cases h

/-- Whether the strings of a draft keep to the limit. -/
def RecordDraft.Fits : RecordDraft → Prop
  | withCommand _ _ _ command => command.length ≤ Cbor.Item.maxLength
  | withPayload _ _ command payload =>
    command.length ≤ Cbor.Item.maxLength ∧ payload.length ≤ Cbor.Item.maxLength
  | withTimeout _ _ command payload _ =>
    command.length ≤ Cbor.Item.maxLength ∧ payload.length ≤ Cbor.Item.maxLength
  | _ => True

theorem bind_eq_ok {ε α β : Type} {x : Except ε α} {f : α → Except ε β} {b : β}
    (h : x >>= f = .ok b) : ∃ a, x = .ok a ∧ f a = .ok b := by
  cases x with
  | error e => cases h
  | ok a => exact ⟨a, rfl, h⟩

/-- What a draft becomes keeps to the limit, as long as what it takes does. -/
theorem RecordDraft.push_fits {d : RecordDraft} (hd : d.Fits) {item : Cbor.Item}
    (hitem : item.Fits) {result : RecordDraft ⊕ Record} (h : d.push item = .ok result) :
    result.elim RecordDraft.Fits Record.Fits := by
  -- only command and payload have a length to keep to
  cases d with
  | empty timed =>
      obtain ⟨v, _, heq⟩ := bind_eq_ok h
      cases heq
      trivial
  | withId timed id =>
      obtain ⟨v, _, heq⟩ := bind_eq_ok h
      cases heq
      trivial
  | withMask timed id mask =>
      obtain ⟨command, hcommand, heq⟩ := bind_eq_ok h
      cases heq
      exact expectString_fits hitem hcommand
  | withCommand timed id mask command =>
      cases timed with
      | false =>
          obtain ⟨payload, hpayload, heq⟩ := bind_eq_ok h
          cases heq
          exact ⟨hd, expectString_fits hitem hpayload⟩
      | true =>
          obtain ⟨payload, hpayload, heq⟩ := bind_eq_ok h
          cases heq
          exact ⟨hd, expectString_fits hitem hpayload⟩
  | withPayload id mask command payload =>
      obtain ⟨v, _, heq⟩ := bind_eq_ok h
      cases heq
      exact hd
  | withTimeout id mask command payload timeout =>
      obtain ⟨v, _, heq⟩ := bind_eq_ok h
      cases heq
      exact hd

theorem RecordDraft.start_fits {arity : Nat} {d : RecordDraft} (h : start arity = .ok d) :
    d.Fits := by
  unfold start at h
  split at h
  · cases h; trivial
  · split at h
    · cases h; trivial
    · cases h

/-- A whole frame leaves no draft behind. -/
theorem Shape.decode_frame_draft {δ φ : Type} (shape : Shape δ φ) {draft draft' : Option δ}
    {src rest : Octets} {f : φ} (h : shape.decode draft src = ⟨.frame f, draft', rest⟩) :
    draft' = none := by
  fun_induction decode shape draft src with
  | case1 => simp at h
  | case2 => simp at h
  | case3 => simp at h
  | case4 =>
      simp only [Decoded.mk.injEq] at h
      exact h.2.1.symm
  | case5 draft src item rest' _ d _ _ ih => exact ih h

/-- Every frame of a stream has come out of octets that began with it. -/
theorem Shape.exists_decode_of_mem_drain {δ φ : Type} (shape : Shape δ φ) {draft : Option δ}
    {src : Octets} {f : φ} (hdraft : draft = none) (hf : f ∈ (shape.drain draft src).frames) :
    ∃ src' rest, shape.decode none src' = ⟨.frame f, none, rest⟩ := by
  fun_induction drain shape draft src with
  | case1 => cases hf
  | case2 => cases hf
  | case3 draft src f' draft' rest h _ later ih =>
      have hnone := shape.decode_frame_draft h
      rcases List.mem_cons.mp hf with rfl | hf
      · rw [hdraft, hnone] at h
        exact ⟨src, rest, h⟩
      · exact ih hnone hf

namespace Record

theorem advance_fits {draft : Option RecordDraft} (hdraft : ∀ d ∈ draft, d.Fits)
    {item : Cbor.Item} (hitem : item.Fits) {result : RecordDraft ⊕ Record}
    (h : shape.advance draft item = .ok result) : result.elim RecordDraft.Fits Record.Fits := by
  unfold Shape.advance at h
  split at h
  · exact RecordDraft.push_fits (hdraft _ rfl) hitem h
  · split at h
    · rename_i hstart
      cases h
      exact RecordDraft.start_fits hstart
    · cases h
  · cases h

/-- **A record that comes out fits.** -/
theorem decode_fits {draft : Option RecordDraft} (hdraft : ∀ d ∈ draft, d.Fits) {src : Octets}
    {r : Record} (h : (shape.decode draft src).outcome = .frame r) : r.Fits := by
  fun_induction Shape.decode shape draft src with
  | case1 => cases h
  | case2 => cases h
  | case3 => cases h
  | case4 draft src item rest htake r' hadv =>
      cases h
      exact advance_fits hdraft (Cbor.Item.take_fits htake) hadv
  | case5 draft src item rest htake d hadv _ ih =>
      refine ih ?_ h
      intro d' hd'
      cases hd'
      exact advance_fits hdraft (Cbor.Item.take_fits htake) hadv

theorem drain_fits (src : Octets) : ∀ r ∈ (shape.drain none src).frames, r.Fits := by
  intro r hr
  obtain ⟨src', rest, hdecode⟩ := shape.exists_decode_of_mem_drain rfl hr
  refine decode_fits (fun d hd => ?_) (congrArg Shape.Decoded.outcome hdecode)
  cases hd

end Record

/-! ## Feeding a fresh codec -/

theorem Codec.feed_of_drain {δ φ : Type} {shape : Shape δ φ} {src rest : Octets} {frames : List φ}
    {draft : Option δ} (h : shape.drain none src = ⟨frames, none, draft, rest⟩) :
    (new : Codec δ).feed shape src = (.ok frames, ⟨draft, rest, none⟩) := by
  unfold feed
  simp only [new, List.nil_append, h]

/-- A fresh codec gives back the frames that are read back each, and is fresh again. -/
theorem Codec.feed_flatMap {δ φ : Type} {shape : Shape δ φ} {write : φ → Octets} {fs : List φ}
    (h : ∀ f ∈ fs, ∀ rest, shape.decode none (write f ++ rest) = ⟨.frame f, none, rest⟩) :
    (new : Codec δ).feed shape (fs.flatMap write) = (.ok fs, new) := by
  have hdrain := shape.drain_flatMap h []
  rw [List.append_nil, shape.drain_nil] at hdrain
  rw [feed_of_drain hdrain, List.append_nil]
  rfl

theorem Codec.frames_of_feed {δ φ : Type} {shape : Shape δ φ} {src : Octets} {frames : List φ}
    (h : ((new : Codec δ).feed shape src).1 = .ok frames) :
    frames = (shape.drain none src).frames := by
  unfold feed at h
  simp only [new, List.nil_append] at h
  cases hd : shape.drain none src with
  | mk frames' fault draft rest =>
      rw [hd] at h
      cases fault with
      | none => cases h; rfl
      | some e =>
          cases frames' with
          | nil => cases h
          | cons f fs => cases h; rfl

namespace Record

open Codec in
/-- **A stream of records comes back just if every record fits**, and then whatever part of it has
arrived gives the records that lie in that part. -/
theorem feed_writeAll (rs : List Record) :
    (((new : RecordCodec).feed shape (writeAll rs)).1 = .ok rs
          ∧ ((new : RecordCodec).feed shape (writeAll rs)).2.buffer = []
          ∧ ((new : RecordCodec).feed shape (writeAll rs)).2.inProgress = false
        ↔ ∀ r ∈ rs, r.Fits)
      ∧ ((∀ r ∈ rs, r.Fits) → ∀ k ≤ (writeAll rs).length, ∃ m, Within rs k m
        ∧ ((new : RecordCodec).feed shape ((writeAll rs).take k)).1 = .ok (rs.take m)
        ∧ (((new : RecordCodec).feed shape ((writeAll rs).take k)).2.inProgress = true
          ↔ ¬ Boundary rs k)) := by
  refine ⟨⟨?_, ?_⟩, ?_⟩
  · intro ⟨hrs, _, _⟩
    rw [frames_of_feed hrs]
    exact drain_fits (writeAll rs)
  · intro hrs
    have hfeed : (new : RecordCodec).feed shape (writeAll rs) = (.ok rs, new) :=
      feed_flatMap fun r hr => decode_write (hrs r hr)
    rw [hfeed]
    exact ⟨rfl, rfl, rfl⟩
  · intro hrs k hk
    obtain ⟨m, draft, rest, hm, hdrain, hleft⟩ := drain_part hrs hk
    refine ⟨m, hm, ?_⟩
    rw [feed_of_drain hdrain]
    refine ⟨rfl, ?_⟩
    -- in progress are a draft and octets that wait
    rw [← hleft, inProgress]
    cases draft <;> cases rest <;> simp

end Record

end GameHall
