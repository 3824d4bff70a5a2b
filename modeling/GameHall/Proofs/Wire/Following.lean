import GameHall.Proofs.Wire.RoundTrip

/-!
# What a reader of frames goes through

A reader goes through items as long as they lead on (`Shape.Follows`), and halts at the first one that
completes a frame, is cut off, cannot be read or is out of place (`Shape.Halts`). Whatever the shape of
a frame, a buffer comes apart in this way (`exists_follows`), and so the items alone say which frame
comes out of it (`decode_eq_frame_iff`) and when the reader asks for more (`decode_eq_more_iff`).
-/

namespace GameHall

/-- The octets of items, one after the other. -/
inductive Cbor.Item.Forms : List Cbor.Item → Octets → Prop where
  | nil : Forms [] []
  | cons {item : Cbor.Item} {items : List Cbor.Item} {bs rest : Octets} (h : item.Form bs)
      (hrest : Forms items rest) : Forms (item :: items) (bs ++ rest)

theorem Cbor.Item.forms_append_iff {items items' : List Cbor.Item} {bs : Octets} :
    Forms (items ++ items') bs ↔ ∃ front rest, Forms items front ∧ Forms items' rest
      ∧ bs = front ++ rest := by
  constructor
  · intro h
    induction items generalizing bs with
    | nil => exact ⟨[], bs, .nil, h, rfl⟩
    | cons item items ih =>
        cases h with
        | @cons _ _ first _ hfirst hrest =>
            obtain ⟨front, rest, hfront, hitems', rfl⟩ := ih hrest
            exact ⟨first ++ front, rest, .cons hfirst hfront, hitems', (List.append_assoc _ _ _).symm⟩
  · rintro ⟨front, rest, hfront, hrest, rfl⟩
    induction hfront with
    | nil => exact hrest
    | cons hfirst _ ih =>
        rw [List.cons_append, List.append_assoc]
        exact .cons hfirst ih

theorem Cbor.Item.forms_singleton {item : Cbor.Item} {bs : Octets} (h : item.Form bs) :
    Forms [item] bs := by
  have hforms := Forms.cons h .nil
  rw [List.append_nil] at hforms
  exact hforms

theorem Cbor.Item.Forms.fits {items : List Cbor.Item} {bs : Octets} (h : Forms items bs) :
    ∀ item ∈ items, item.Fits := by
  induction h with
  | nil => exact List.forall_mem_nil _
  | cons hitem _ ih => exact List.forall_mem_cons.mpr ⟨hitem.fits, ih⟩

/-- What is written of items is a form of them. -/
theorem Cbor.Item.forms_write {items : List Cbor.Item} (h : ∀ item ∈ items, item.Writable) :
    Forms items (items.flatMap write) := by
  induction items with
  | nil => exact .nil
  | cons item items ih =>
      obtain ⟨hitem, hitems⟩ := List.forall_mem_cons.mp h
      rw [List.flatMap_cons]
      exact .cons (write_form hitem) (ih hitems)

namespace Shape

variable {δ φ : Type} (shape : Shape δ φ)

/-- Items that lead from one frame under construction to another and complete none. -/
inductive Follows : Option δ → List Cbor.Item → Option δ → Prop where
  | nil (draft : Option δ) : Follows draft [] draft
  | cons {draft draft' : Option δ} {item : Cbor.Item} {items : List Cbor.Item} {d : δ}
      (hadv : shape.advance draft item = .ok (.inl d)) (hrest : Follows (some d) items draft') :
      Follows draft (item :: items) draft'

/-- Where the reader halts, and what it leaves. -/
inductive Halts (draft : Option δ) (src : Octets) : Decoded δ φ → Prop where
  | unreadable {e : Cbor.Item.Fault} (h : Cbor.Item.take src = .error e) :
      Halts draft src ⟨.fault (.malformed (.item e)), none, src⟩
  | cut (h : Cbor.Item.take src = .ok none) : Halts draft src ⟨.more, draft, src⟩
  | misplaced {item : Cbor.Item} {rest : Octets} {e : CodecFault}
      (h : Cbor.Item.take src = .ok (some (item, rest)))
      (hadv : shape.advance draft item = .error e) : Halts draft src ⟨.fault e, none, rest⟩
  | complete {item : Cbor.Item} {rest : Octets} {f : φ}
      (h : Cbor.Item.take src = .ok (some (item, rest)))
      (hadv : shape.advance draft item = .ok (.inr f)) : Halts draft src ⟨.frame f, none, rest⟩

/-- **What can be followed is gone through.** -/
theorem decode_of_follows {draft draft' : Option δ} {items : List Cbor.Item}
    (h : shape.Follows draft items draft') {bs : Octets} (hforms : Cbor.Item.Forms items bs)
    (rest : Octets) : shape.decode draft (bs ++ rest) = shape.decode draft' rest := by
  induction h generalizing bs with
  | nil => cases hforms; rfl
  | cons hadv _ ih =>
      cases hforms with
      | cons hform hforms' =>
          rw [List.append_assoc, shape.decode_go (Cbor.Item.take_of_form hform _) hadv]
          exact ih hforms'

/-- **The reader goes through items, and halts.** -/
theorem exists_follows (draft : Option δ) (src : Octets) :
    ∃ items bs draft' rest, shape.Follows draft items draft' ∧ Cbor.Item.Forms items bs
      ∧ src = bs ++ rest ∧ shape.Halts draft' rest (shape.decode draft src) := by
  fun_induction decode shape draft src with
  | case1 draft src e h => exact ⟨[], [], draft, src, .nil draft, .nil, rfl, .unreadable h⟩
  | case2 draft src h => exact ⟨[], [], draft, src, .nil draft, .nil, rfl, .cut h⟩
  | case3 draft src item rest h e hadv =>
      exact ⟨[], [], draft, src, .nil draft, .nil, rfl, .misplaced h hadv⟩
  | case4 draft src item rest h f hadv =>
      exact ⟨[], [], draft, src, .nil draft, .nil, rfl, .complete h hadv⟩
  | case5 draft src item rest h d hadv _ ih =>
      obtain ⟨items, bs, draft', rest', hfollows, hforms, rfl, hhalts⟩ := ih
      obtain ⟨front, hform, rfl⟩ := Cbor.Item.take_eq_some_iff.mp h
      exact ⟨item :: items, front ++ bs, draft', rest', .cons hadv hfollows, .cons hform hforms,
        (List.append_assoc _ _ _).symm, hhalts⟩

/-- A frame comes out of items that lead up to it, and of one that completes it. -/
theorem decode_eq_frame_iff {draft : Option δ} {src rest : Octets} {f : φ} :
    shape.decode draft src = ⟨.frame f, none, rest⟩ ↔ ∃ items last draft' bs,
      shape.Follows draft items draft' ∧ shape.advance draft' last = .ok (.inr f)
        ∧ Cbor.Item.Forms (items ++ [last]) bs ∧ src = bs ++ rest := by
  constructor
  · intro h
    obtain ⟨items, bs, draft', left, hfollows, hforms, rfl, hhalts⟩ := shape.exists_follows draft src
    rw [h] at hhalts
    cases hhalts with
    | @complete last _ _ htake hadv =>
        obtain ⟨front, hform, rfl⟩ := Cbor.Item.take_eq_some_iff.mp htake
        refine ⟨items, last, draft', bs ++ front, hfollows, hadv, ?_, (List.append_assoc _ _ _).symm⟩
        exact Cbor.Item.forms_append_iff.mpr ⟨bs, front, hforms, Cbor.Item.forms_singleton hform, rfl⟩
  · rintro ⟨items, last, draft', bs, hfollows, hadv, hforms, rfl⟩
    obtain ⟨front, tail, hfront, htail, rfl⟩ := Cbor.Item.forms_append_iff.mp hforms
    cases htail with
    | cons hform hnil =>
        cases hnil
        rw [List.append_assoc, List.append_assoc, shape.decode_of_follows hfollows hfront]
        exact shape.decode_end (Cbor.Item.take_of_form hform _) hadv

/-- The reader asks for more when it has followed what is there, and the rest is cut off. -/
theorem decode_eq_more_iff {draft : Option δ} {src : Octets} :
    (shape.decode draft src).outcome = .more ↔ ∃ items draft' bs rest,
      shape.Follows draft items draft' ∧ Cbor.Item.Forms items bs ∧ src = bs ++ rest
        ∧ Cbor.Cut rest := by
  constructor
  · intro h
    obtain ⟨items, bs, draft', rest, hfollows, hforms, heq, hhalts⟩ := shape.exists_follows draft src
    refine ⟨items, draft', bs, rest, hfollows, hforms, heq, ?_⟩
    cases hd : shape.decode draft src with
    | mk outcome draft'' left =>
        rw [hd] at hhalts h
        cases hhalts with
        | cut htake => exact Cbor.Item.take_eq_none_iff.mp htake
        | unreadable => cases h
        | misplaced => cases h
        | complete => cases h
  · rintro ⟨items, draft', bs, rest, hfollows, hforms, rfl, hcut⟩
    rw [shape.decode_of_follows hfollows hforms, shape.decode_of_none (Cbor.Item.take_of_cut hcut)]

/-- A frame leaves the end of what there was. -/
theorem exists_drop_of_frame {draft : Option δ} {src : Octets} {f : φ}
    (h : (shape.decode draft src).outcome = .frame f) :
    ∃ n ≤ src.length, shape.decode draft src = ⟨.frame f, none, src.drop n⟩ := by
  cases hd : shape.decode draft src with
  | mk outcome draft' rest =>
      rw [hd] at h
      cases h
      have hnone := shape.decode_frame_draft hd
      subst hnone
      obtain ⟨_, _, _, bs, _, _, _, rfl⟩ := shape.decode_eq_frame_iff.mp hd
      refine ⟨bs.length, ?_, ?_⟩
      · rw [List.length_append]
        exact Nat.le_add_right _ _
      · rw [List.drop_left' rfl]

end Shape

end GameHall
