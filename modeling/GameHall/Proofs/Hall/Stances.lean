import GameHall.Proofs.Lists

/-!
# What a room hears of one connection

A room is told that a player has joined, what the player says and that the player is gone; or that
someone watches, what that one says and that there is no more watching. `Stance.next?` says which of
these may come next, and `Stance.after?` what becomes of a whole list. Lists for which there is an
answer are in good order (`orderly_of_after?`).
-/

namespace GameHall

/-- What a call to a room says of one connection. -/
inductive Deal where
  | join
  | message
  | offline
  | watch
  | unwatch
  deriving DecidableEq

/-- How a connection stands to a room. -/
inductive Stance where
  | away
  | seated
  /-- A player is gone whose seat is kept. -/
  | gone
  | watching
  deriving DecidableEq

namespace Stance

/-- What becomes of a stance, if the deal is in order. -/
def next? : Stance → Deal → Option Stance
  | away, .join => some seated
  | away, .watch => some watching
  | seated, .message => some seated
  | seated, .offline => some gone
  | watching, .message => some watching
  | watching, .unwatch => some away
  | _, _ => none

/-- What becomes of a stance with or without a deal. -/
def go? (st : Stance) : Option Deal → Option Stance
  | none => some st
  | some d => st.next? d

/-- What has become of a connection that was away, if all deals were in order. -/
def after? (l : List Deal) : Option Stance := l.foldlM next? away

theorem after?_snoc (l : List Deal) (d : Deal) : after? (l ++ [d]) = (after? l).bind (next? · d) := by
  simp [after?, List.foldlM_append]

theorem after?_append (l : List Deal) (o : Option Deal) :
    after? (l ++ o.toList) = (after? l).bind (go? · o) := by
  cases o with
  | none => rw [Option.toList_none, List.append_nil]; exact (Option.bind_fun_some _).symm
  | some d => exact after?_snoc l d

end Stance

/-! ## Good order -/

/-- The deals by which someone begins and stops to watch. -/
def Deal.isView : Deal → Bool
  | watch => true
  | unwatch => true
  | _ => false

/-- The latest of the deals by which someone begins and stops to watch is that someone begins. -/
def Watching (l : List Deal) : Prop := ∃ before later, l = before ++ .watch :: later ∧ .unwatch ∉ later

/-- What a room hears of one connection is in good order. -/
structure Orderly (l : List Deal) : Prop where
  joinsOnce : l.count .join ≤ 1
  /-- A message comes from a player who has joined and is not gone, or between the beginning and the end
  of watching. -/
  messages : ∀ before later, l = before ++ .message :: later →
    (.join ∈ before ∧ .offline ∉ before) ∨ Watching before
  offlineOnce : l.count .offline ≤ 1
  offlineJoined : ∀ before later, l = before ++ .offline :: later → .join ∈ before
  /-- To watch and to stop come in turn, to watch first. -/
  views : ∀ i d, (l.filter Deal.isView)[i]? = some d → (d = .watch ↔ i % 2 = 0)

/-- What a stance says of the deals that have led to it. -/
structure Stance.Fits (st : Stance) (l : List Deal) : Prop where
  joined : .join ∈ l ↔ st = seated ∨ st = gone
  offline : .offline ∈ l ↔ st = gone
  views : l.countP Deal.isView % 2 = if st = watching then 1 else 0
  watching : st = watching → Watching l

theorem count_snoc_le_one {α : Type} [BEq α] [LawfulBEq α] {l : List α} {d x : α}
    (honce : l.count x ≤ 1) (hfirst : d = x → x ∉ l) : (l ++ [d]).count x ≤ 1 := by
  rw [List.count_append, List.count_singleton]
  by_cases hd : d = x
  · have hnone : l.count x = 0 := List.count_eq_zero.mpr (hfirst hd)
    simp [hnone, hd]
  · simp [hd, honce]

/-- What a filter lets through of a longer list was let through before or is the last one. -/
theorem getElem?_filter_snoc {α : Type} {p : α → Bool} {l : List α} {d x : α} {i : Nat}
    (h : ((l ++ [d]).filter p)[i]? = some x) :
    (l.filter p)[i]? = some x ∨ i = l.countP p ∧ d = x ∧ p d = true := by
  rw [List.filter_append] at h
  rw [List.countP_eq_length_filter]
  rcases Nat.lt_or_ge i (l.filter p).length with hlt | hge
  · rw [List.getElem?_append_left hlt] at h
    exact Or.inl h
  · rw [List.getElem?_append_right hge] at h
    cases hd : p d with
    | false =>
        rw [List.filter_cons, hd] at h
        cases h
    | true =>
        rw [List.filter_cons, if_pos hd, List.filter_nil, List.getElem?_singleton] at h
        split at h
        · exact Or.inr ⟨by omega, Option.some.inj h, rfl⟩
        · cases h

theorem watching_snoc {l : List Deal} {d : Deal} (hd : d ≠ .unwatch) (h : Watching l) :
    Watching (l ++ [d]) := by
  obtain ⟨before, later, rfl, hnone⟩ := h
  refine ⟨before, later ++ [d], by simp, fun hmem => ?_⟩
  rcases List.mem_append.mp hmem with hmem | hmem
  · exact hnone hmem
  · exact hd (List.mem_singleton.mp hmem).symm

namespace Stance

variable {st st' : Stance} {l : List Deal} {d : Deal}

theorem fits_nil : away.Fits [] := ⟨by simp, by simp, by simp, fun h => nomatch h⟩

/-- A deal that is in order leads to the stance that it should. -/
theorem fits_snoc (hnext : st.next? d = some st') (h : st.Fits l) : st'.Fits (l ++ [d]) := by
  have hviews := h.views
  -- only six pairs of a stance and a deal are in order
  cases st <;> cases d <;> cases hnext
  case away.join => exact {
    joined := by simp
    offline := by simp [h.offline]
    views := by simpa [Deal.isView] using hviews
    watching := fun hw => nomatch hw }
  case away.watch => exact {
    joined := by simp [h.joined]
    offline := by simp [h.offline]
    views := by
      rw [List.countP_append]
      simp [Deal.isView] at hviews ⊢
      omega
    watching := fun _ => ⟨l, [], rfl, List.not_mem_nil⟩ }
  case seated.message => exact {
    joined := by simp [h.joined]
    offline := by simp [h.offline]
    views := by simpa [Deal.isView] using hviews
    watching := fun hw => nomatch hw }
  case seated.offline => exact {
    joined := by simp [h.joined]
    offline := by simp
    views := by simpa [Deal.isView] using hviews
    watching := fun hw => nomatch hw }
  case watching.message => exact {
    joined := by simp [h.joined]
    offline := by simp [h.offline]
    views := by simpa [Deal.isView] using hviews
    watching := fun _ => watching_snoc (by decide) (h.watching rfl) }
  case watching.unwatch => exact {
    joined := by simp [h.joined]
    offline := by simp [h.offline]
    views := by
      rw [List.countP_append]
      simp [Deal.isView] at hviews ⊢
      omega
    watching := fun hw => nomatch hw }

/-- A deal that is in order keeps the order. -/
theorem orderly_snoc (hnext : st.next? d = some st') (hfits : st.Fits l) (h : Orderly l) :
    Orderly (l ++ [d]) where
  joinsOnce := by
    refine count_snoc_le_one h.joinsOnce fun hd => ?_
    -- who joins now was away and has not joined before
    subst hd
    cases st <;> cases hnext
    simp [hfits.joined]
  messages := by
    intro before later heq
    rcases eq_or_of_snoc heq with ⟨rfl, rfl, rfl⟩ | ⟨later', rfl, heq'⟩
    · cases st <;> cases hnext
      · exact Or.inl ⟨by simp [hfits.joined], by simp [hfits.offline]⟩
      · exact Or.inr (hfits.watching rfl)
    · exact h.messages before later' heq'
  offlineOnce := by
    refine count_snoc_le_one h.offlineOnce fun hd => ?_
    subst hd
    cases st <;> cases hnext
    simp [hfits.offline]
  offlineJoined := by
    intro before later heq
    rcases eq_or_of_snoc heq with ⟨rfl, rfl, rfl⟩ | ⟨later', rfl, heq'⟩
    · cases st <;> cases hnext
      simp [hfits.joined]
    · exact h.offlineJoined before later' heq'
  views := by
    intro i x hx
    rcases getElem?_filter_snoc hx with hx | ⟨rfl, rfl, hview⟩
    · exact h.views i x hx
    -- who begins to watch was away, and who stops was watching
    · rw [hfits.views]
      cases st <;> cases d <;> cases hnext <;> simp [Deal.isView] at hview ⊢

theorem orderly_of_after? (h : after? l = some st) : Orderly l ∧ st.Fits l := by
  induction l using List.reverseRecOn generalizing st with
  | nil =>
      cases h
      refine ⟨⟨by simp, ?_, by simp, ?_, by simp⟩, fits_nil⟩
      · intro before later heq
        simp at heq
      · intro before later heq
        simp at heq
  | append_singleton l d ih =>
      rw [after?_snoc] at h
      obtain ⟨st', hst', hnext⟩ := Option.bind_eq_some_iff.mp h
      obtain ⟨horderly, hfits⟩ := ih hst'
      exact ⟨orderly_snoc hnext hfits horderly, fits_snoc hnext hfits⟩

end Stance

end GameHall
