import GameHall.Proofs.Hall.Fewer

/-!
# Schedulers go one way

A scheduler forgets its fingerprint when it is found to be outdated. From then on it goes one way
(`Scheduler.Wanes`): a fingerprint that is forgotten does not come back, and neither does an engine that is
down. A scheduler without rooms is retired by whatever makes it idle or outdated last (`Scheduler.Kept`).

Every operation goes that way (`Hall.Tends`), and most of them without a new scheduler (`Hall.Stays`).
-/

namespace GameHall

namespace Scheduler

/-- Rules are only ever forgotten, and an engine that is down stays down. -/
structure Wanes (s s' : Scheduler) : Prop where
  fingerprint : s'.fingerprint = s.fingerprint ∨ s'.fingerprint = ""
  health : s.health = .down → s'.health = .down

/-- The rules are the current ones or forgotten, and in the latter case there are rooms, unless the
engine is down. -/
structure Kept (current : String) (s : Scheduler) : Prop where
  fingerprint : s.fingerprint = "" ∨ s.fingerprint = current
  busy : s.isAlive = true → s.isOutdated current = true → s.rooms ≠ 0

/-- What may become of a scheduler while the rules do not change. -/
structure Passes (current : String) (s s' : Scheduler) : Prop extends Wanes s s' where
  kept : s.Kept current → s'.Kept current
  fresh : s'.isAlive = true → s'.isOutdated current = true → s.isOutdated current = true

variable {current : String} {s s' s'' : Scheduler}

/-- A scheduler is outdated if it has forgotten its rules, or if they are not the current ones. -/
theorem isOutdated_iff : s.isOutdated current = true ↔ s.fingerprint = "" ∨ s.fingerprint ≠ current := by
  simp [isOutdated]

theorem isAlive_iff : s.isAlive = true ↔ s.health ≠ .down := by simp [isAlive]

/-- An engine that is up was up before. -/
theorem alive_of_wanes (h : s.Wanes s') (halive : s'.isAlive = true) : s.isAlive = true :=
  isAlive_iff.mpr fun hdown => isAlive_iff.mp halive (h.health hdown)

theorem wanes_refl (s : Scheduler) : s.Wanes s := ⟨Or.inl rfl, fun h => h⟩

theorem wanes_trans (h : s.Wanes s') (h' : s'.Wanes s'') : s.Wanes s'' where
  fingerprint := by
    rcases h'.fingerprint with heq | hnone
    · rw [heq]; exact h.fingerprint
    · exact Or.inr hnone
  health := fun hdown => h'.health (h.health hdown)

theorem passes_refl (current : String) (s : Scheduler) : s.Passes current s :=
  ⟨wanes_refl s, fun h => h, fun _ h => h⟩

theorem passes_trans (h : s.Passes current s') (h' : s'.Passes current s'') : s.Passes current s'' :=
  ⟨wanes_trans h.toWanes h'.toWanes, fun hk => h'.kept (h.kept hk),
    fun halive hout => h.fresh (alive_of_wanes h'.toWanes halive) (h'.fresh halive hout)⟩

/-- A scheduler that is asked whether it is outdated is as outdated as before. -/
theorem isOutdated_check : (s.check current).isOutdated current = s.isOutdated current := by
  unfold check
  split
  · rename_i hout
    rw [hout]
    rfl
  · rfl

theorem rooms_check (s : Scheduler) (current : String) : (s.check current).rooms = s.rooms := by
  unfold check
  split <;> rfl

/-- To be asked makes a scheduler forget, and never remember. -/
theorem wanes_check (s : Scheduler) (current : String) : s.Wanes (s.check current) := by
  unfold check
  split
  · exact ⟨Or.inr rfl, fun h => h⟩
  · exact wanes_refl s

/-- A scheduler that has been asked has the current rules or none. -/
theorem fingerprint_check (s : Scheduler) (current : String) :
    (s.check current).fingerprint = "" ∨ (s.check current).fingerprint = current := by
  unfold check
  split
  · exact Or.inl rfl
  · rename_i hout
    right
    by_contra hne
    exact hout (isOutdated_iff.mpr (Or.inr hne))

/-- A scheduler that is asked is as outdated as it was, so that only rules go that are not the current
ones. -/
theorem passes_check (s : Scheduler) (current : String) : s.Passes current (s.check current) where
  toWanes := wanes_check s current
  kept := fun h => {
    fingerprint := fingerprint_check s current
    busy := by
      rw [Hall.isAlive_check, isOutdated_check, rooms_check]
      exact h.busy }
  fresh := fun _ hout => isOutdated_check ▸ hout

/-- The question of the pool is the same question. -/
theorem passes_ask (s : Scheduler) (current : String) : s.Passes current (s.ask current) := by
  unfold ask
  split
  · exact passes_check s current
  · exact passes_refl current s

/-- Whatever is noted of a scheduler whose engine is down, it need not host rooms. -/
theorem passes_down (h : s.Wanes s') (hdown : s'.health = .down) : s.Passes current s' where
  toWanes := h
  kept := fun hk => {
    fingerprint := by
      rcases h.fingerprint with heq | hnone
      · rw [heq]; exact hk.fingerprint
      · exact Or.inl hnone
    busy := fun halive => absurd hdown (isAlive_iff.mp halive) }
  fresh := fun halive => absurd hdown (isAlive_iff.mp halive)

theorem passes_addRoom (s : Scheduler) (current : String) : s.Passes current s.addRoom where
  toWanes := ⟨Or.inl rfl, fun h => h⟩
  kept := fun h => ⟨h.fingerprint, fun _ _ => Nat.succ_ne_zero _⟩
  fresh := fun _ h => h

/-- A scheduler that does not accept rooms will not. -/
theorem not_accepts_of_wanes (h : s.Wanes s') {new : String}
    (hstale : s.fingerprint = "" ∨ s.health = .down) : s'.accepts new = false := by
  rcases hstale with hnone | hdown
  · have hnone' : s'.fingerprint = "" := h.fingerprint.elim (fun heq => heq.trans hnone) id
    simp [accepts, isOutdated_iff.mpr (Or.inl hnone')]
  · simp [accepts, isAlive, h.health hdown]

end Scheduler

namespace Hall

open Scheduler

/-- What is after every event: no scheduler is outdated and idle. -/
def Drained (h : Hall) : Prop := ∀ id s, h.pool.get? id = some s → s.Kept h.fingerprint

/-- Schedulers go one way, and those that should go have gone. -/
structure Tends (h g : Hall) : Prop where
  nextId : h.pool.nextId ≤ g.pool.nextId
  wanes : ∀ id s', g.pool.get? id = some s' →
    (∃ s, h.pool.get? id = some s ∧ s.Wanes s') ∨ h.pool.nextId ≤ id
  kept : h.Drained → g.Drained

/-- The same while the rules do not change: no scheduler whose engine is up becomes outdated. -/
structure Stays (h g : Hall) : Prop extends Tends h g where
  rules : g.fingerprint = h.fingerprint
  fresh : ∀ id s', g.pool.get? id = some s' → s'.isAlive = true →
    s'.isOutdated h.fingerprint = true →
    (∃ s, h.pool.get? id = some s ∧ s.isOutdated h.fingerprint = true) ∨ h.pool.nextId ≤ id

/-- The pool, and the rules by which it is judged. -/
def engines (h : Hall) : Pool × String := (h.pool, h.fingerprint)

theorem tends_trans {h g k : Hall} (hg : h.Tends g) (hk : g.Tends k) : h.Tends k where
  nextId := Int.le_trans hg.nextId hk.nextId
  wanes := by
    intro id s'' hs''
    rcases hk.wanes id s'' hs'' with ⟨s', hs', hwanes'⟩ | hnew
    · refine (hg.wanes id s' hs').imp_left fun ⟨s, hs, hwanes⟩ => ?_
      exact ⟨s, hs, wanes_trans hwanes hwanes'⟩
    · exact Or.inr (Int.le_trans hg.nextId hnew)
  kept := fun h => hk.kept (hg.kept h)

/-- Staying goes on from one operation to the next. -/
theorem stays_trans {h g k : Hall} (hg : h.Stays g) (hk : g.Stays k) : h.Stays k where
  toTends := tends_trans hg.toTends hk.toTends
  rules := hk.rules.trans hg.rules
  fresh := by
    intro id s'' hs'' halive hout
    rw [← hg.rules] at hout
    rcases hk.fresh id s'' hs'' halive hout with ⟨s', hs', hout'⟩ | hnew
    · rcases hk.wanes id s'' hs'' with ⟨s₁, hs₁, hwanes⟩ | hnew
      · cases hs'.symm.trans hs₁
        rw [hg.rules] at hout'
        exact hg.fresh id s' hs' (alive_of_wanes hwanes halive) hout'
      · exact Or.inr (Int.le_trans hg.nextId hnew)
    · exact Or.inr (Int.le_trans hg.nextId hnew)

/-- Each scheduler that is left has changed as it may. -/
theorem stays_of_passes {h g : Hall} (hrules : g.fingerprint = h.fingerprint)
    (hnext : h.pool.nextId ≤ g.pool.nextId)
    (hpool : ∀ id s', g.pool.get? id = some s' →
      ∃ s, h.pool.get? id = some s ∧ s.Passes h.fingerprint s') : h.Stays g where
  nextId := hnext
  wanes := by
    intro id s' hs'
    obtain ⟨s, hs, hpasses⟩ := hpool id s' hs'
    exact Or.inl ⟨s, hs, hpasses.toWanes⟩
  kept := by
    intro hd id s' hs'
    obtain ⟨s, hs, hpasses⟩ := hpool id s' hs'
    rw [hrules]
    exact hpasses.kept (hd id s hs)
  rules := hrules
  fresh := by
    intro id s' hs' halive hout
    obtain ⟨s, hs, hpasses⟩ := hpool id s' hs'
    exact Or.inl ⟨s, hs, hpasses.fresh halive hout⟩

/-- What leaves the engines alone stays. -/
theorem stays_of_engines {h g : Hall} (heq : g.engines = h.engines) : h.Stays g := by
  have hpool : g.pool = h.pool := congrArg Prod.fst heq
  refine stays_of_passes (congrArg Prod.snd heq) (Int.le_of_eq (congrArg Pool.nextId hpool.symm))
    fun id s' hs' => ?_
  exact ⟨s', hpool ▸ hs', passes_refl _ s'⟩

theorem stays_refl (h : Hall) : h.Stays h := stays_of_engines rfl

theorem stays_foldl {α : Type} {f : Hall → α → Hall} (hf : ∀ (h : Hall) (a : α), h.Stays (f h a))
    (l : List α) (h : Hall) : h.Stays (l.foldl f h) := by
  induction l generalizing h with
  | nil => exact stays_refl h
  | cons a l ih => exact stays_trans (hf h a) (ih _)

/-! ## What leaves the pool alone -/

/-- The people, and what is sent to them, are nothing to the pool. -/
theorem unpeopled_engines : Unpeopled engines where
  frame _ _ _ := rfl
  close _ _ := rfl
  sessions _ _ := rfl
  pending _ _ := rfl
  lastConnection _ _ := rfl
  asked _ _ := rfl
  bans _ _ := rfl
  crashed _ _ := rfl

/-! ## One scheduler at a time -/

section schedulers

variable (h : Hall)

/-- All that counts is what becomes of the one scheduler that an operation is about. -/
theorem stays_of_at {h g : Hall} (id : Int) (hrules : g.fingerprint = h.fingerprint)
    (hnext : g.pool.nextId = h.pool.nextId)
    (hothers : ∀ other, other ≠ id → g.pool.get? other = h.pool.get? other)
    (hid : ∀ s', g.pool.get? id = some s' →
      ∃ s, h.pool.get? id = some s ∧ s.Passes h.fingerprint s') : h.Stays g := by
  refine stays_of_passes hrules (Int.le_of_eq hnext.symm) fun other s' hs' => ?_
  by_cases heq : other = id
  · subst heq
    exact hid s' hs'
  · exact ⟨s', hothers other heq ▸ hs', passes_refl _ s'⟩

/-- A change of a scheduler is a change of its entry. -/
theorem get?_update (p : Pool) (id other : Int) (f : Scheduler → Scheduler) :
    (p.update id f).get? other = if other = id then (p.get? other).map f else p.get? other :=
  Assoc.get?_update p.schedulers id other f

theorem get?_update_ne {p : Pool} {id other : Int} {f : Scheduler → Scheduler} (hne : other ≠ id) :
    (p.update id f).get? other = p.get? other := by
  rw [get?_update, if_neg hne]

theorem get?_update_self {p : Pool} {id : Int} {f : Scheduler → Scheduler} {s' : Scheduler}
    (hs' : (p.update id f).get? id = some s') : ∃ s, p.get? id = some s ∧ f s = s' := by
  rw [get?_update, if_pos rfl] at hs'
  exact Option.map_eq_some_iff.mp hs'

theorem stays_update (id : Int) {f : Scheduler → Scheduler}
    (hf : ∀ s, h.pool.get? id = some s → s.Passes h.fingerprint (f s)) :
    h.Stays { h with pool := h.pool.update id f } := by
  refine stays_of_at id rfl rfl (fun other hne => get?_update_ne hne) fun s' hs' => ?_
  obtain ⟨s, hs, rfl⟩ := get?_update_self hs'
  exact ⟨s, hs, hf s hs⟩

/-- A scheduler that is retired has no entry, and the others keep theirs. -/
theorem get?_retire (id other : Int) : (h.retire id).pool.get? other
    = if other = id then none else h.pool.get? other := by
  unfold retire
  split
  · show Assoc.get? (Assoc.erase h.pool.schedulers id) other = _
    rw [Assoc.get?_erase]
    by_cases heq : other = id
    · rw [if_pos heq, if_pos heq.symm]
    · rw [if_neg heq, if_neg (Ne.symm heq)]
      rfl
  · rename_i hhas
    split
    · rename_i heq
      rw [heq]
      have hnone : Assoc.get? h.pool.schedulers id = none := by simpa [Assoc.has] using hhas
      exact hnone
    · rfl

theorem rules_retire (id : Int) : (h.retire id).fingerprint = h.fingerprint
    ∧ (h.retire id).pool.nextId = h.pool.nextId := by
  unfold retire
  split <;> exact ⟨rfl, rfl⟩

theorem stays_retire (id : Int) : h.Stays (h.retire id) := by
  refine stays_of_at id (rules_retire h id).1 (rules_retire h id).2 (fun other hne => ?_)
    fun s' hs' => ?_
  · rw [get?_retire, if_neg hne]
  · rw [get?_retire, if_pos rfl] at hs'
    cases hs'

/-- A signal marks a scheduler only if its engine is down. -/
theorem stays_signal (id : Int) (signal : Signal) : h.Stays (h.signal id signal) := by
  unfold Hall.signal
  split
  · exact stays_refl h
  · rename_i sch hsch
    split
    · exact stays_of_engines rfl
    · rename_i hdead
      refine stays_update h id fun s hs => ?_
      cases hsch.symm.trans hs
      have hdown : sch.health = .down := by
        by_contra hup
        exact hdead (isAlive_iff.mpr hup)
      exact passes_down ⟨Or.inr rfl, fun h => h⟩ hdown

theorem stays_signal_of {h g : Hall} (hg : h.Stays g) (id : Int) (signal : Signal) :
    h.Stays (g.signal id signal) := stays_trans hg (stays_signal g id signal)

/-- A scheduler is asked only while its engine is up. -/
theorem stays_askCurrent (id : Int) : h.Stays (h.askCurrent id) := by
  refine stays_update h id fun s _ => ?_
  split
  · exact passes_check s _
  · exact passes_refl _ s

theorem stays_setHealth (id : Int) (health : Health) : h.Stays (h.setHealth id health) := by
  refine stays_update h id fun s _ => ?_
  split
  · exact passes_refl _ s
  · rename_i hup
    exact {
      fingerprint := Or.inl rfl
      health := fun hdown => absurd hdown hup
      kept := fun hk => ⟨hk.fingerprint, fun _ => hk.busy (isAlive_iff.mpr hup)⟩
      fresh := fun _ h => h }

theorem stays_startupOver (id : Int) : h.Stays (h.startupOver id) :=
  stays_update h id fun _ _ => passes_down ⟨Or.inr rfl, fun _ => rfl⟩ rfl

theorem stays_forward (c r : Int) (command payload : Octets) :
    h.Stays (h.forward c r command payload) := by
  unfold forward
  split
  · exact stays_signal h _ _
  · exact stays_refl h

theorem stays_stopObserving (c : Int) : h.Stays (h.stopObserving c) := by
  unfold stopObserving
  split
  · exact stays_refl h
  · split
    · exact stays_refl h
    · dsimp only
      have hnotify : h.Stays ((h.updateSession c fun s => { s with observing := none }).notify c
          "EnterLobby" []) := stays_of_engines (unpeopled_engines.notify _ _ _ _)
      split
      · exact hnotify
      · refine stays_signal_of ?_ _ _
        exact stays_trans hnotify (stays_of_engines rfl)

theorem stays_route (c : Int) (record : Record) : h.Stays (h.route c record) := by
  rcases route_cases h c record with heq | ⟨s, router, _, heq | heq⟩
  · rw [heq]; exact stays_refl h
  · rw [heq]; exact stays_of_engines rfl
  · rw [heq]
    refine stays_trans (g := h.setRouter c router) (stays_of_engines rfl) ?_
    unfold pass
    split
    · exact stays_of_engines rfl
    · exact stays_forward _ c _ _ _
    · split
      · exact stays_stopObserving _ c
      · exact stays_forward _ c _ _ _

theorem stays_hear (c : Int) (record : Record) : h.Stays (h.hear c record) := by
  unfold hear
  split
  · exact stays_of_engines (unpeopled_engines.judge _ c _ record)
  · exact stays_route h c record

theorem stays_seat (c r : Int) (s : Session) (x : Room) : h.Stays (h.seat c r s x) := by
  unfold seat
  dsimp only
  refine stays_trans ?_ (stays_of_engines (unpeopled_engines.notify _ _ _ _))
  refine stays_signal_of ?_ _ _
  exact stays_of_engines rfl

theorem stays_watch (c r : Int) (s : Session) (x : Room) : h.Stays (h.watch c r s x) := by
  unfold watch
  dsimp only
  refine stays_trans ?_ (stays_of_engines (unpeopled_engines.notify _ _ _ _))
  refine stays_signal_of ?_ _ _
  exact stays_of_engines rfl

theorem stays_seatPlayer (c r : Int) : h.Stays (h.seatPlayer c r).2 := by
  unfold seatPlayer
  split
  · exact stays_refl h
  · exact stays_refl h
  · exact stays_seat h c r _ _

theorem stays_observeRoom (c r : Int) : h.Stays (h.observeRoom c r).2 := by
  unfold observeRoom
  split
  · exact stays_refl h
  · exact stays_refl h
  · exact stays_watch h c r _ _

end schedulers

end Hall

end GameHall
