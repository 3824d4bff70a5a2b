import Mathlib.Data.List.Induction

/-!
# Lists that are put together

A history grows at its end, and what is said of it is said of an element with what comes before it and
after it. So it is asked over and over where an element of a list stands that is put together in
another way.
-/

namespace GameHall

variable {α : Type} {before before' later later' : List α} {x y : α}

/-- An element of a list with one more element is that one, or stands before it. -/
theorem eq_or_of_snoc {l : List α} {d : α} (h : l ++ [d] = before ++ x :: later) :
    l = before ∧ d = x ∧ later = [] ∨ ∃ later', later = later' ++ [d] ∧ l = before ++ x :: later' := by
  rcases List.eq_nil_or_concat later with rfl | ⟨later', d', rfl⟩
  · obtain ⟨hl, hd⟩ := List.append_inj' h rfl
    exact Or.inl ⟨hl, List.singleton_inj.mp hd, rfl⟩
  · rw [List.concat_eq_append] at h ⊢
    rw [← List.cons_append, ← List.append_assoc] at h
    obtain ⟨hl, hd⟩ := List.append_inj' h rfl
    exact Or.inr ⟨later', by rw [List.singleton_inj.mp hd], hl⟩

/-- An element of two lists, one behind the other, stands in one of them. -/
theorem cut_append {l new : List α} (h : l ++ new = before ++ x :: later) :
    (∃ mid, l = before ++ x :: mid) ∨ ∃ mid, before = l ++ mid ∧ new = mid ++ x :: later := by
  rcases List.append_eq_append_iff.mp h with ⟨mid, hbefore, hnew⟩ | ⟨mid, hl, hlater⟩
  · exact Or.inr ⟨mid, hbefore, hnew⟩
  · cases mid with
    | nil => exact Or.inr ⟨[], by simpa using hl.symm, hlater.symm⟩
    | cons y mid =>
        cases hlater
        exact Or.inl ⟨mid, hl⟩

/-- Of two elements of a list one stands behind the other, if they are not the same. -/
theorem cut_cut (h : before ++ x :: later = before' ++ y :: later') :
    before = before' ∧ x = y ∧ later = later'
    ∨ (∃ mid, before' = before ++ x :: mid ∧ later = mid ++ y :: later')
    ∨ ∃ mid, before = before' ++ y :: mid ∧ later' = mid ++ x :: later := by
  rcases List.append_eq_append_iff.mp h with ⟨mid, hbefore, hlater⟩ | ⟨mid, hbefore, hlater⟩
  · cases mid with
    | nil =>
        obtain ⟨rfl, rfl⟩ := List.cons.inj hlater
        exact Or.inl ⟨by simpa using hbefore.symm, rfl, rfl⟩
    | cons z mid =>
        obtain ⟨rfl, rfl⟩ := List.cons.inj hlater
        exact Or.inr (Or.inl ⟨mid, hbefore, rfl⟩)
  · cases mid with
    | nil =>
        obtain ⟨rfl, rfl⟩ := List.cons.inj hlater
        exact Or.inl ⟨by simpa using hbefore, rfl, rfl⟩
    | cons z mid =>
        obtain ⟨rfl, rfl⟩ := List.cons.inj hlater
        exact Or.inr (Or.inr ⟨mid, hbefore, rfl⟩)

end GameHall
