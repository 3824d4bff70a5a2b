import GameHall.Wire.Frame

/-!
# Reading from a part of a stream

A reader that has come to a result on the front of a stream comes to the same result when more of the
stream is there: it looks at nothing behind what it takes. Heads, items and frames have this in turn,
and the last of them gives `drain_append`: to drain a stream is to drain its front, and then what is
left of the front with the rest of the stream.

Only a reader that asks for more may come to something else, and it has consumed nothing.
-/

namespace GameHall

namespace Cbor

/-! ## Heads -/

/-- A field of a head has its width in its own octets. -/
theorem takeField_append {width : Nat} {bs rest : Octets} {a : Argument}
    (h : takeField width bs = .found a rest) (more : Octets) :
    takeField width (bs ++ more) = .found a (rest ++ more) := by
  unfold takeField at h ⊢
  split at h
  · cases h
  · rename_i hlen
    cases h
    have hle : width ≤ bs.length := Nat.le_of_not_lt hlen
    rw [if_neg (by rw [List.length_append]; omega), List.take_append_of_le_length hle,
      List.drop_append_of_le_length hle]

/-- The low bits alone tell where an argument is. -/
theorem takeArgument_cases (low : Nat) :
    (∃ a, ∀ bs, takeArgument low bs = .found a bs)
      ∨ (∃ width, ∀ bs, takeArgument low bs = takeField width bs)
      ∨ ∀ bs, takeArgument low bs = .bad := by
  unfold takeArgument
  by_cases h23 : low < 24
  · exact Or.inl ⟨.inline low, fun bs => if_pos h23⟩
  by_cases h24 : low = 24
  · exact Or.inr (Or.inl ⟨1, fun bs => by rw [if_neg h23, if_pos h24]⟩)
  by_cases h25 : low = 25
  · exact Or.inr (Or.inl ⟨2, fun bs => by rw [if_neg h23, if_neg h24, if_pos h25]⟩)
  by_cases h26 : low = 26
  · exact Or.inr (Or.inl ⟨4, fun bs => by rw [if_neg h23, if_neg h24, if_neg h25, if_pos h26]⟩)
  by_cases h27 : low = 27
  · refine Or.inr (Or.inl ⟨8, fun bs => ?_⟩)
    rw [if_neg h23, if_neg h24, if_neg h25, if_neg h26, if_pos h27]
  by_cases h31 : low = 31
  · refine Or.inl ⟨.indefinite, fun bs => ?_⟩
    rw [if_neg h23, if_neg h24, if_neg h25, if_neg h26, if_neg h27, if_pos h31]
  · refine Or.inr (Or.inr fun bs => ?_)
    rw [if_neg h23, if_neg h24, if_neg h25, if_neg h26, if_neg h27, if_neg h31]

theorem takeArgument_append {low : Nat} {bs rest : Octets} {a : Argument}
    (h : takeArgument low bs = .found a rest) (more : Octets) :
    takeArgument low (bs ++ more) = .found a (rest ++ more) := by
  rcases takeArgument_cases low with ⟨a', hfound⟩ | ⟨width, hfield⟩ | hbad
  · rw [hfound] at h ⊢
    cases h
    rfl
  · rw [hfield] at h ⊢
    exact takeField_append h more
  · rw [hbad] at h
    cases h

theorem takeArgument_append_bad {low : Nat} {bs : Octets} (h : takeArgument low bs = .bad)
    (more : Octets) : takeArgument low (bs ++ more) = .bad := by
  rcases takeArgument_cases low with ⟨a, hfound⟩ | ⟨width, hfield⟩ | hbad
  · rw [hfound] at h
    cases h
  -- a field is read or is not there yet
  · rw [hfield, takeField] at h
    split at h <;> cases h
  · exact hbad _

/-- So a head that is there is the same head when more is there. -/
theorem Head.take_append {bs rest : Octets} {head : Head} (h : Head.take bs = .found head rest)
    (more : Octets) : Head.take (bs ++ more) = .found head (rest ++ more) := by
  cases bs with
  | nil => cases h
  | cons b bs =>
      rw [List.cons_append]
      simp only [Head.take] at h ⊢
      cases ha : takeArgument (b.toNat % 32) bs with
      | more => rw [ha] at h; cases h
      | bad => rw [ha] at h; cases h
      | found a rest' =>
          rw [ha] at h
          rw [takeArgument_append ha more]
          cases ho : Head.of (b.toNat / 32) a with
          | none => simp only [ho] at h; cases h
          | some head' => simp only [ho] at h ⊢; cases h; rfl

theorem Head.take_append_bad {bs : Octets} (h : Head.take bs = .bad) (more : Octets) :
    Head.take (bs ++ more) = .bad := by
  cases bs with
  | nil => cases h
  | cons b bs =>
      rw [List.cons_append]
      simp only [Head.take] at h ⊢
      cases ha : takeArgument (b.toNat % 32) bs with
      | more => rw [ha] at h; cases h
      | bad => rw [takeArgument_append_bad ha more]
      | found a rest' =>
          rw [ha] at h
          rw [takeArgument_append ha more]
          cases ho : Head.of (b.toNat / 32) a with
          | none => simp only [ho]
          | some head' => simp only [ho] at h; cases h

/-! ## Items -/

namespace Item

/-- A string that is there is the same string when more is there. -/
theorem takeBody_append {length : Nat} {bs body rest : Octets}
    (h : takeBody length bs = .ok (some (body, rest))) (more : Octets) :
    takeBody length (bs ++ more) = .ok (some (body, rest ++ more)) := by
  unfold takeBody at h ⊢
  split at h
  · cases h
  · rename_i hmax
    split at h
    · cases h
    · rename_i hlen
      have hle : length ≤ bs.length := Nat.le_of_not_lt hlen
      cases h
      rw [if_neg hmax, if_neg (by rw [List.length_append]; omega),
        List.take_append_of_le_length hle, List.drop_append_of_le_length hle]

/-- A string is refused by its length alone. -/
theorem takeBody_append_error {length : Nat} {bs : Octets} {e : Fault}
    (h : takeBody length bs = .error e) (more : Octets) :
    takeBody length (bs ++ more) = .error e := by
  unfold takeBody at h ⊢
  split at h
  · rename_i hmax
    rw [if_pos hmax]
    exact h
  · split at h <;> cases h

theorem takeString_append {make : Octets → Item} {length : Nat} {bs rest : Octets} {item : Item}
    (h : takeString make length bs = .ok (some (item, rest))) (more : Octets) :
    takeString make length (bs ++ more) = .ok (some (item, rest ++ more)) := by
  unfold takeString at h ⊢
  split at h
  · rename_i body rest' hbody
    cases h
    rw [takeBody_append hbody more]
  · cases h
  · cases h

theorem takeString_append_error {make : Octets → Item} {length : Nat} {bs : Octets} {e : Fault}
    (h : takeString make length bs = .error e) (more : Octets) :
    takeString make length (bs ++ more) = .error e := by
  unfold takeString at h ⊢
  split at h
  · cases h
  · cases h
  · rename_i hbody
    cases h
    rw [takeBody_append_error hbody more]

theorem ofHead_append {head : Head} {bs rest : Octets} {item : Item}
    (h : ofHead head bs = .ok (some (item, rest))) (more : Octets) :
    ofHead head (bs ++ more) = .ok (some (item, rest ++ more)) := by
  unfold ofHead at h
  split at h
  case h_4 | h_5 => exact takeString_append h more
  all_goals cases h
  all_goals rfl

theorem ofHead_append_error {head : Head} {bs : Octets} {e : Fault}
    (h : ofHead head bs = .error e) (more : Octets) : ofHead head (bs ++ more) = .error e := by
  unfold ofHead at h ⊢
  split at h
  case h_4 | h_5 => exact takeString_append_error h more
  case h_10 => exact h
  all_goals cases h

/-- An item that is there is the same item when more is there. -/
theorem take_append {bs rest : Octets} {item : Item} (h : take bs = .ok (some (item, rest)))
    (more : Octets) : take (bs ++ more) = .ok (some (item, rest ++ more)) := by
  unfold take at h ⊢
  split at h
  · cases h
  · cases h
  · rename_i head rest' hhead
    rw [Head.take_append hhead more]
    exact ofHead_append h more

/-- So is a fault. -/
theorem take_append_error {bs : Octets} {e : Fault} (h : take bs = .error e) (more : Octets) :
    take (bs ++ more) = .error e := by
  unfold take at h ⊢
  split at h
  · cases h
  · rename_i hhead
    rw [Head.take_append_bad hhead more]
    exact h
  · rename_i head rest' hhead
    rw [Head.take_append hhead more]
    exact ofHead_append_error h more

end Item

end Cbor

/-! ## Frames -/

namespace Shape

variable {δ φ : Type} (shape : Shape δ φ)

theorem decode_of_error {draft : Option δ} {src : Octets} {e : Cbor.Item.Fault}
    (h : Cbor.Item.take src = .error e) :
    shape.decode draft src = ⟨.fault (.malformed (.item e)), none, src⟩ := by
  rw [decode]
  split <;> simp_all

theorem decode_of_none {draft : Option δ} {src : Octets} (h : Cbor.Item.take src = .ok none) :
    shape.decode draft src = ⟨.more, draft, src⟩ := by
  rw [decode]
  split <;> simp_all

/-- An item that is there is taken into the draft, which may be a frame then. -/
theorem decode_of_item {draft : Option δ} {src rest : Octets} {item : Cbor.Item}
    (h : Cbor.Item.take src = .ok (some (item, rest))) :
    shape.decode draft src =
      match shape.advance draft item with
      | .error e => ⟨.fault e, none, rest⟩
      | .ok (.inr f) => ⟨.frame f, none, rest⟩
      | .ok (.inl d) => shape.decode (some d) rest := by
  rw [decode]
  split
  · rename_i hitem
    rw [h] at hitem
    cases hitem
  · rename_i hitem
    rw [h] at hitem
    cases hitem
  · rename_i hitem
    rw [h] at hitem
    cases hitem
    cases shape.advance draft item with
    | error e => rfl
    | ok result => cases result <;> rfl

/-- **To decode a front with more behind it** is to decode the front, and to go on if that asked for
more. -/
theorem decode_append (draft : Option δ) (src more : Octets) :
    shape.decode draft (src ++ more) =
      match shape.decode draft src with
      | ⟨.more, draft, rest⟩ => shape.decode draft (rest ++ more)
      | ⟨outcome, draft, rest⟩ => ⟨outcome, draft, rest ++ more⟩ := by
  fun_induction decode shape draft src with
  | case1 draft src e h => rw [decode_of_error shape (Cbor.Item.take_append_error h more)]
  | case2 draft src h => rfl
  | case3 draft src item rest h e hadv =>
      rw [decode_of_item shape (Cbor.Item.take_append h more), hadv]
  | case4 draft src item rest h f hadv =>
      rw [decode_of_item shape (Cbor.Item.take_append h more), hadv]
  -- the frame goes on after this item, and what follows is shorter
  | case5 draft src item rest h d hadv _ ih =>
      rw [decode_of_item shape (Cbor.Item.take_append h more), hadv]
      exact ih

end Shape

end GameHall
