/-!
# Association lists

A finite map as a list of keys with their values. A key that is set again keeps its place, and a new
one goes to the end, so the order is that in which the keys first came.

Setting, taking out and filtering keep the keys distinct (`nodup_set`, `nodup_filter`), and changing values
leaves them alone (`keys_mapValues`), so a map that starts empty has each key at most once.
-/

namespace GameHall

/-- Keys with their values. -/
abbrev Assoc (κ α : Type) := List (κ × α)

namespace Assoc

variable {κ α β : Type} [DecidableEq κ]

/-- The keys in order. -/
def keys (m : Assoc κ α) : List κ := m.map Prod.fst

/-- The value of a key. -/
def get? : Assoc κ α → κ → Option α
  | [], _ => none
  | (k, a) :: rest, key => if k = key then some a else get? rest key

/-- Whether a key is there. -/
def has (m : Assoc κ α) (key : κ) : Bool := (get? m key).isSome

/-- Gives a key a value. -/
def set : Assoc κ α → κ → α → Assoc κ α
  | [], key, b => [(key, b)]
  | (k, a) :: rest, key, b => if k = key then (key, b) :: rest else (k, a) :: set rest key b

/-- Changes the value of a key, if it is there. -/
def update (m : Assoc κ α) (key : κ) (f : α → α) : Assoc κ α :=
  match get? m key with
  | some a => set m key (f a)
  | none => m

/-- Takes a key out. -/
def erase (m : Assoc κ α) (key : κ) : Assoc κ α := m.filter fun e => decide (e.1 ≠ key)

/-- Changes every value. -/
def mapValues (f : α → β) (m : Assoc κ α) : Assoc κ β := m.map fun e => (e.1, f e.2)

@[simp] theorem get?_nil (key : κ) : get? ([] : Assoc κ α) key = none := rfl

theorem get?_set (m : Assoc κ α) (key other : κ) (b : α) :
    get? (set m key b) other = if key = other then some b else get? m other := by
  induction m with
  | nil => simp [set, get?]
  | cons e m ih => grind [set, get?]

/-- A key that has been set has its new value. -/
@[simp] theorem get?_set_self (m : Assoc κ α) (key : κ) (b : α) :
    get? (set m key b) key = some b := by
  simp [get?_set]

/-- Setting a key leaves the others alone. -/
theorem get?_set_of_ne {m : Assoc κ α} {key other : κ} {b : α} (h : key ≠ other) :
    get? (set m key b) other = get? m other := by
  simp [get?_set, h]

theorem get?_erase (m : Assoc κ α) (key other : κ) :
    get? (erase m key) other = if key = other then none else get? m other := by
  unfold erase
  induction m with
  | nil => simp [get?]
  | cons e m ih => grind [get?]

/-- A key that has been taken out is not there. -/
@[simp] theorem get?_erase_self (m : Assoc κ α) (key : κ) : get? (erase m key) key = none := by
  simp [get?_erase]

theorem mem_keys_iff {m : Assoc κ α} {key : κ} : key ∈ keys m ↔ (get? m key).isSome := by
  induction m with
  | nil => simp [keys, get?]
  | cons e m ih =>
    obtain ⟨k, a⟩ := e
    by_cases hk : k = key
    · simp [keys, get?, hk]
    · have hk' : key ≠ k := fun h => hk h.symm
      simp [keys, get?, hk, hk'] at ih ⊢
      exact ih

/-- Setting a key keeps the keys distinct. -/
theorem nodup_set {m : Assoc κ α} (h : (keys m).Nodup) (key : κ) (b : α) :
    (keys (set m key b)).Nodup := by
  induction m with
  | nil => simp [set, keys]
  | cons e m ih =>
    obtain ⟨k, a⟩ := e
    have hm : (keys m).Nodup := (List.nodup_cons.1 h).2
    have hk : k ∉ keys m := (List.nodup_cons.1 h).1
    by_cases he : k = key
    · subst he
      simpa [set, keys] using h
    · simp only [set, he, if_false]
      refine List.nodup_cons.2 ⟨?_, ih hm⟩
      intro hmem
      have := mem_keys_iff.1 hmem
      rw [get?_set_of_ne (fun h => he h.symm)] at this
      exact hk (mem_keys_iff.2 this)

omit [DecidableEq κ] in
/-- Dropping entries keeps the keys distinct. -/
theorem nodup_filter {m : Assoc κ α} (h : (keys m).Nodup) (p : κ × α → Bool) :
    (keys (m.filter p)).Nodup :=
  h.sublist (List.Sublist.map _ List.filter_sublist)

/-- Taking out a key keeps the keys distinct. -/
theorem nodup_erase {m : Assoc κ α} (h : (keys m).Nodup) (key : κ) :
    (keys (erase m key)).Nodup :=
  nodup_filter h _

omit [DecidableEq κ] in
/-- Changing values leaves the keys alone. -/
@[simp] theorem keys_mapValues (f : α → β) (m : Assoc κ α) : keys (mapValues f m) = keys m := by
  simp [keys, mapValues]

theorem get?_mapValues (f : α → β) (m : Assoc κ α) (key : κ) :
    get? (mapValues f m) key = (get? m key).map f := by
  unfold mapValues
  induction m with
  | nil => simp [get?]
  | cons e m ih => grind [get?]

end Assoc

end GameHall
