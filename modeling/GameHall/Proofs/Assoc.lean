import GameHall.Assoc
import Mathlib.Data.List.Nodup
import Mathlib.Logic.Function.Basic

/-!
# Association lists

What a map says of one key after another, which the proofs about the hall read off it, and what its
entries are as a list, which they count. Entries and keys tell the same where the keys are distinct,
and every operation on maps keeps them so.
-/

namespace GameHall

namespace Assoc

variable {κ α β : Type} [DecidableEq κ]

/-! ## Maps as functions -/

theorem get?_set_eq (m : Assoc κ α) (key : κ) (b : α) :
    get? (set m key b) = Function.update (get? m) key (some b) := by
  funext other
  rw [get?_set, Function.update_apply]
  simp only [eq_comm]

theorem get?_erase_eq (m : Assoc κ α) (key : κ) :
    get? (erase m key) = Function.update (get? m) key none := by
  funext other
  rw [get?_erase, Function.update_apply]
  simp only [eq_comm]

theorem get?_update_eq (m : Assoc κ α) (key : κ) (f : α → α) :
    get? (update m key f) = Function.update (get? m) key ((get? m key).map f) := by
  unfold update
  cases h : get? m key with
  | none =>
      dsimp only
      rw [Option.map_none, ← h, Function.update_eq_self]
  | some a => exact get?_set_eq m key (f a)

/-! ## Maps as lists -/

theorem mem_of_get? {m : Assoc κ α} {key : κ} {a : α} (h : get? m key = some a) : (key, a) ∈ m := by
  induction m with
  | nil => cases h
  | cons e m ih =>
      obtain ⟨k, b⟩ := e
      by_cases hk : k = key
      · simp only [get?, if_pos hk, Option.some.injEq] at h
        rw [hk, h]
        exact List.mem_cons_self
      · simp only [get?, if_neg hk] at h
        exact List.mem_cons_of_mem _ (ih h)

theorem get?_eq_some_iff {m : Assoc κ α} (hm : (keys m).Nodup) {key : κ} {a : α} :
    get? m key = some a ↔ (key, a) ∈ m := by
  refine ⟨mem_of_get?, fun h => ?_⟩
  induction m with
  | nil => cases h
  | cons e m ih =>
      obtain ⟨k, b⟩ := e
      obtain ⟨hk, hm'⟩ := List.nodup_cons.mp hm
      rcases List.mem_cons.mp h with heq | hmem
      · cases heq
        exact if_pos rfl
      · have hne : k ≠ key := by
          intro he
          rw [he] at hk
          exact hk (List.mem_map.mpr ⟨(key, a), hmem, rfl⟩)
        simp only [get?, if_neg hne]
        exact ih hm' hmem

/-- Who is left of some entries has the value that was there before. -/
theorem get?_filter {m : Assoc κ α} (hm : (keys m).Nodup) (p : α → Bool) (key : κ) :
    get? (m.filter fun e => p e.2) key = (get? m key).filter p := by
  refine Option.ext fun a => ?_
  rw [Option.filter_eq_some_iff, get?_eq_some_iff (nodup_filter hm _), get?_eq_some_iff hm,
    List.mem_filter]

theorem get?_of_sublist {m m' : Assoc κ α} (hm : (keys m).Nodup) (hsub : m'.Sublist m) {key : κ}
    {a : α} (h : get? m' key = some a) : get? m key = some a :=
  (get?_eq_some_iff hm).mpr (hsub.mem (mem_of_get? h))

theorem get?_append (m m' : Assoc κ α) (key : κ) :
    get? (m ++ m') key = (get? m key).or (get? m' key) := by
  induction m with
  | nil => rfl
  | cons e m ih =>
      obtain ⟨k, b⟩ := e
      by_cases hk : k = key
      · simp [get?, hk]
      · simpa [get?, hk] using ih

omit [DecidableEq κ] in
theorem keys_append (m m' : Assoc κ α) : keys (m ++ m') = keys m ++ keys m' := List.map_append

/-- A new key goes to the end. -/
theorem set_of_not_mem {m : Assoc κ α} {key : κ} (h : key ∉ keys m) (b : α) :
    set m key b = m ++ [(key, b)] := by
  induction m with
  | nil => rfl
  | cons e m ih =>
      obtain ⟨k, a⟩ := e
      obtain ⟨hne, hm⟩ := List.ne_and_not_mem_of_not_mem_cons h
      rw [set, if_neg (Ne.symm hne), ih hm]
      rfl

theorem keys_set_of_mem {m : Assoc κ α} {key : κ} {a : α} (h : get? m key = some a) (b : α) :
    keys (set m key b) = keys m := by
  induction m with
  | nil => cases h
  | cons e m ih =>
      obtain ⟨k, c⟩ := e
      by_cases hk : k = key
      · simp [set, hk, keys]
      · simp only [get?, if_neg hk] at h
        have := ih h
        simp only [set, if_neg hk, keys, List.map_cons] at this ⊢
        rw [this]

@[simp] theorem keys_update (m : Assoc κ α) (key : κ) (f : α → α) :
    keys (update m key f) = keys m := by
  unfold update
  split
  · rename_i a h
    exact keys_set_of_mem h (f a)
  · rfl

theorem get?_update (m : Assoc κ α) (key other : κ) (f : α → α) :
    get? (update m key f) other = if other = key then (get? m other).map f else get? m other := by
  rw [get?_update_eq, Function.update_apply]
  split
  · rename_i h
    rw [h]
  · rfl

theorem set_self {m : Assoc κ α} {key : κ} {a : α} (h : get? m key = some a) : set m key a = m := by
  induction m with
  | nil => cases h
  | cons e m ih =>
      obtain ⟨k, b⟩ := e
      by_cases hk : k = key
      · simp only [get?, if_pos hk, Option.some.injEq] at h
        rw [set, if_pos hk, h, hk]
      · simp only [get?, if_neg hk] at h
        rw [set, if_neg hk, ih h]

theorem mapValues_set (g : α → β) (m : Assoc κ α) (key : κ) (b : α) :
    mapValues g (set m key b) = set (mapValues g m) key (g b) := by
  induction m with
  | nil => rfl
  | cons e m ih =>
      obtain ⟨k, a⟩ := e
      by_cases hk : k = key
      · simp [set, mapValues, hk]
      · simpa [set, mapValues, hk] using ih

/-- What is read off the values changes as they do. -/
theorem mapValues_update {g : α → β} {f : α → α} {f' : β → β} (hf : ∀ a, g (f a) = f' (g a))
    (m : Assoc κ α) (key : κ) :
    mapValues g (update m key f) = update (mapValues g m) key f' := by
  unfold update
  rw [get?_mapValues]
  cases get? m key with
  | none => rfl
  | some a =>
      dsimp only [Option.map_some]
      rw [mapValues_set, hf]

/-- What a change leaves alone may be read off before it. -/
theorem mapValues_update_of_eq {g : α → β} {f : α → α} (hf : ∀ a, g (f a) = g a) (m : Assoc κ α)
    (key : κ) : mapValues g (update m key f) = mapValues g m := by
  have hid : mapValues g (update m key f) = update (mapValues g m) key id := mapValues_update hf m key
  rw [hid]
  unfold update
  split
  · rename_i b h
    exact set_self h
  · rfl

theorem mapValues_erase (g : α → β) (m : Assoc κ α) (key : κ) :
    mapValues g (erase m key) = erase (mapValues g m) key := by
  rw [mapValues, erase, erase, mapValues, List.filter_map]
  rfl

theorem erase_of_not_mem {m : Assoc κ α} {key : κ} (h : key ∉ keys m) : erase m key = m := by
  refine List.filter_eq_self.mpr ?_
  intro e he
  have hne : e.1 ≠ key := by
    intro hk
    rw [← hk] at h
    exact h (List.mem_map.mpr ⟨e, he, rfl⟩)
  exact decide_eq_true hne

/-- An entry that is taken out was there once. -/
theorem perm_erase {m : Assoc κ α} (hm : (keys m).Nodup) {key : κ} {a : α}
    (h : get? m key = some a) : m.Perm ((key, a) :: erase m key) := by
  induction m with
  | nil => cases h
  | cons e m ih =>
      obtain ⟨k, b⟩ := e
      obtain ⟨hk, hm'⟩ := List.nodup_cons.mp hm
      by_cases he : k = key
      · simp only [get?, if_pos he, Option.some.injEq] at h
        subst he
        subst h
        have herase : erase ((k, b) :: m) k = m := by
          rw [erase, List.filter_cons_of_neg (by simp)]
          exact erase_of_not_mem hk
        rw [herase]
      · simp only [get?, if_neg he] at h
        have herase : erase ((k, b) :: m) key = (k, b) :: erase m key :=
          List.filter_cons_of_pos (by simp [he])
        rw [herase]
        exact ((ih hm' h).cons (k, b)).trans (List.Perm.swap _ _ _)

/-- A key that is set stands among entries that were there before. -/
theorem perm_set (m : Assoc κ α) (key : κ) (b : α) :
    ∃ rest : Assoc κ α, rest.Sublist m ∧ (set m key b).Perm ((key, b) :: rest) := by
  induction m with
  | nil => exact ⟨[], List.Sublist.refl _, List.Perm.refl _⟩
  | cons e m ih =>
      obtain ⟨k, a⟩ := e
      by_cases hk : k = key
      · refine ⟨m, List.sublist_cons_self _ m, ?_⟩
        rw [set, if_pos hk]
      · obtain ⟨rest, hsub, hperm⟩ := ih
        refine ⟨(k, a) :: rest, hsub.cons_cons (k, a), ?_⟩
        rw [set, if_neg hk]
        exact (hperm.cons (k, a)).trans (List.Perm.swap _ _ _)

/-- An entry that is set counts at most once more. -/
theorem countP_set_le (m : Assoc κ α) (key : κ) (b : α) (p : κ × α → Bool) :
    (set m key b).countP p ≤ m.countP p + if p (key, b) then 1 else 0 := by
  obtain ⟨rest, hsub, hperm⟩ := perm_set m key b
  rw [hperm.countP_eq, List.countP_cons]
  exact Nat.add_le_add_right hsub.countP_le _

theorem length_set_le (m : Assoc κ α) (key : κ) (b : α) : (set m key b).length ≤ m.length + 1 := by
  have hcount := countP_set_le m key b fun _ => true
  rwa [List.countP_true, if_pos rfl] at hcount

/-- What no two entries share they do not share after an entry has been set that shares it with none. -/
theorem nodup_map_set {g : κ × α → β} {m : Assoc κ α} (hm : (m.map g).Nodup) {key : κ} {b : α}
    (hnew : g (key, b) ∉ m.map g) : ((set m key b).map g).Nodup := by
  obtain ⟨rest, hsub, hperm⟩ := perm_set m key b
  have hrest := hsub.map g
  refine (hperm.map g).nodup_iff.mpr (List.nodup_cons.mpr ⟨?_, hm.sublist hrest⟩)
  exact fun hmem => hnew (hrest.subset hmem)

/-- An entry that is taken out counts once. -/
theorem countP_erase {m : Assoc κ α} (hm : (keys m).Nodup) {key : κ} {a : α}
    (h : get? m key = some a) (p : κ × α → Bool) :
    m.countP p = (erase m key).countP p + if p (key, a) then 1 else 0 := by
  rw [(perm_erase hm h).countP_eq, List.countP_cons]

end Assoc

end GameHall
