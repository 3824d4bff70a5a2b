import GameHall.Proofs.Hall.Draining

/-!
# Sweeping the pool

What the main loop asks of the world goes to the end of a list, so an operation that only asks is told by
what it adds (`actAll`). A sweep of the pool is one: what it leaves of the pool and whom it stops can be
read off the pool before.
-/

namespace GameHall

/-- What is left of a scheduler that has been given a signal. -/
def Scheduler.signalled (s : Scheduler) : Scheduler := if s.isAlive then s else s.markOutdated

namespace Hall

open Scheduler

variable {h : Hall} {id : Int} {s : Scheduler} {rules : String}

/-! ## Acts in a row -/

/-- Asks several things of the world, one after the other. -/
def actAll (h : Hall) (new : List Act) : Hall := { h with acts := h.acts ++ new }

theorem actAll_nil (h : Hall) : h.actAll [] = h := by
  rw [actAll, List.append_nil]

theorem actAll_append (h : Hall) (first second : List Act) :
    h.actAll (first ++ second) = (h.actAll first).actAll second := by
  rw [actAll, actAll, ← List.append_assoc]
  rfl

/-- Steps that only ask things of the world, which do not depend on what has been asked. -/
theorem foldl_actAll {α : Type} {f : Hall → α → Hall} {new : α → List Act} {l : List α}
    (hf : ∀ acts, ∀ a ∈ l, f (h.actAll acts) a = (h.actAll acts).actAll (new a)) :
    l.foldl f h = h.actAll (l.flatMap new) := by
  have hfold : ∀ (acts : List Act) (rest : List α), (∀ a ∈ rest, a ∈ l) →
      rest.foldl f (h.actAll acts) = h.actAll (acts ++ rest.flatMap new) := by
    intro acts rest
    induction rest generalizing acts with
    | nil => intro _; rw [List.foldl_nil, List.flatMap_nil, List.append_nil]
    | cons a rest ih =>
        intro hrest
        rw [List.foldl_cons, hf acts a (hrest a List.mem_cons_self), ← actAll_append,
          ih (acts ++ new a) fun b hb => hrest b (List.mem_cons_of_mem a hb), List.flatMap_cons,
          List.append_assoc]
  have hall := hfold [] l fun _ ha => ha
  rwa [actAll_nil, List.nil_append] at hall

theorem sweep_eq (h : Hall) : h.sweep = ({ h with pool := h.pool.sweep h.fingerprint } : Hall).actAll
    ((h.pool.idle h.fingerprint).map Act.quit) := by
  rw [← List.flatMap_pure_eq_map]
  exact foldl_actAll fun _ _ _ => rfl

/-! ## Signals -/

/-- A change of a scheduler depends on that scheduler alone. -/
theorem update_congr {p : Pool} {f f' : Scheduler → Scheduler}
    (hf : ∀ s, p.get? id = some s → f s = f' s) : p.update id f = p.update id f' := by
  rw [Pool.update, Pool.update, Assoc.update, Assoc.update]
  split
  · rename_i s hs
    rw [hf s hs]
  · rfl

theorem update_of_fixed {p : Pool} {f : Scheduler → Scheduler}
    (hf : ∀ s, p.get? id = some s → f s = s) : p.update id f = p := by
  rw [Pool.update, Assoc.update]
  split
  · rename_i s hs
    rw [hf s hs, Assoc.set_self hs]
  · rfl

/-- **A signal goes to a scheduler that hears**, and marks one that does not. -/
theorem signal_frame (h : Hall) (id : Int) (sg : Signal) :
    h.signal id sg = ({ h with pool := h.pool.update id signalled } : Hall).actAll
      (if h.hears id then [.signal id sg] else []) := by
  unfold signal hears
  cases hsch : h.pool.get? id with
  | none =>
      rw [update_of_fixed (f := signalled) fun s hs => nomatch hsch.symm.trans hs]
      exact (actAll_nil h).symm
  | some sch =>
      dsimp only [Option.map_some, Option.getD_some]
      have honly : ∀ s, h.pool.get? id = some s → s = sch := fun s hs =>
        Option.some.inj (hs.symm.trans hsch)
      split
      · rename_i halive
        rw [update_of_fixed (f := signalled) fun s hs => by rw [honly s hs, signalled, if_pos halive]]
        rfl
      · rename_i hdead
        rw [actAll_nil, update_congr (f := signalled) fun s hs => by
          rw [honly s hs, signalled, if_neg hdead]]

/-- A scheduler whose engine is down has forgotten its rules. -/
def Resigned (h : Hall) (id : Int) : Prop :=
  ∀ s, h.pool.get? id = some s → s.isAlive = false → s.fingerprint = ""

/-- There is nothing left to mark of a scheduler that has forgotten its rules. -/
theorem signal_eq (hres : h.Resigned id) (sg : Signal) :
    h.signal id sg = h.actAll (if h.hears id then [.signal id sg] else []) := by
  have hpool : h.pool.update id signalled = h.pool := by
    refine update_of_fixed fun s hs => ?_
    unfold signalled
    split
    · rfl
    · rename_i hdead
      rw [markOutdated, ← hres s hs (Bool.eq_false_iff.mpr hdead)]
  rw [signal_frame, hpool]

/-- A scheduler whose engine is not down takes the signal. -/
theorem signal_of_alive (hs : h.pool.get? id = some s) (halive : s.isAlive = true) (sg : Signal) :
    h.signal id sg = h.act (.signal id sg) := by
  rw [signal, hs]
  exact if_pos halive

/-! ## Who is outdated -/

/-- The schedulers with a property are found by their numbers. -/
theorem mem_schedulers_iff (hb : h.ledger.Balanced) {p : Scheduler → Bool} :
    id ∈ (h.pool.schedulers.filter fun e => p e.2).map Prod.fst
      ↔ ∃ s, h.pool.get? id = some s ∧ p s = true := by
  rw [List.mem_map]
  constructor
  · rintro ⟨⟨_, s⟩, hmem, rfl⟩
    obtain ⟨hs, hp⟩ := List.mem_filter.mp hmem
    exact ⟨s, (Assoc.get?_eq_some_iff (nodup_schedulers hb)).mpr hs, hp⟩
  · rintro ⟨s, hs, hp⟩
    exact ⟨(id, s), List.mem_filter.mpr ⟨Assoc.mem_of_get? hs, hp⟩, rfl⟩

theorem mem_busy_iff (hb : h.ledger.Balanced) : id ∈ h.pool.busy rules
    ↔ ∃ s, h.pool.get? id = some s ∧ s.isOutdated rules = true ∧ s.rooms ≠ 0 := by
  rw [Pool.busy, mem_schedulers_iff hb (p := fun s => s.isOutdated rules && s.rooms != 0)]
  simp only [Bool.and_eq_true, bne_iff_ne]

theorem mem_idle_iff (hb : h.ledger.Balanced) : id ∈ h.pool.idle rules
    ↔ ∃ s, h.pool.get? id = some s ∧ s.isOutdated rules = true ∧ s.rooms = 0 := by
  rw [Pool.idle, mem_schedulers_iff hb (p := fun s => s.isOutdated rules && s.rooms == 0)]
  simp only [Bool.and_eq_true, beq_iff_eq]

theorem nodup_busy (hb : h.ledger.Balanced) (rules : String) : (h.pool.busy rules).Nodup :=
  (nodup_schedulers hb).sublist (List.filter_sublist.map Prod.fst)

theorem nodup_idle (hb : h.ledger.Balanced) (rules : String) : (h.pool.idle rules).Nodup :=
  (nodup_schedulers hb).sublist (List.filter_sublist.map Prod.fst)

/-- A scheduler that hosts a room has counted it. -/
theorem rooms_ne_zero (hb : h.ledger.Balanced) {r : Int} {x : Room} {s : Scheduler}
    (hx : h.room? r = some x) (hs : h.pool.get? x.scheduler = some s) : s.rooms ≠ 0 := by
  have hmem : r ∈ h.roomsOf x.scheduler := (mem_roomsOf_iff hb).mpr ⟨x, hx, rfl⟩
  rw [(accounted_of_balanced hb).counted _ s hs]
  exact Nat.pos_iff_ne_zero.mp (List.length_pos_of_mem hmem)

/-- A scheduler that has left the pool does not come back, and no other gets its number. -/
theorem absent_run (hb : h.ledger.Balanced) (hid : id < h.pool.nextId) (hnone : h.pool.get? id = none)
    (later : List Event) : (h.run later).pool.get? id = none := by
  by_contra hsome
  obtain ⟨s, hs⟩ := Option.ne_none_iff_exists'.mp hsome
  rcases (tends_run hb later).wanes id s hs with ⟨s₀, hs₀, _⟩ | hnew
  · cases hnone.symm.trans hs₀
  · omega

end Hall

end GameHall
