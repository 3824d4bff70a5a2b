import GameHall.Proofs.Hall.Waning
import Mathlib.Data.List.Induction

/-!
# Schedulers drain

A scheduler is found to be outdated at the latest when the rules change. So after every event it has the
current fingerprint or none, and if it has none it hosts rooms or its engine is down (`Hall.Drained`). What
ends rooms or makes them, and what brings new rules, keeps this and goes one way (`drains_run`).
-/

namespace GameHall

namespace Hall

open Scheduler

section endings

variable (h : Hall)

/-! ## The end of rooms -/

/-- A scheduler that is no better than it was, with the rules it had, may be looked after. -/
theorem stays_retireIdle {k : Hall} {id : Int} (hrules : k.fingerprint = h.fingerprint)
    (hnext : k.pool.nextId = h.pool.nextId)
    (hothers : ∀ other, other ≠ id → k.pool.get? other = h.pool.get? other)
    (hless : ∀ s', k.pool.get? id = some s' →
      ∃ s, h.pool.get? id = some s ∧ s.Wanes s' ∧ s'.fingerprint = s.fingerprint) :
    h.Stays (k.retireIdle id) := by
  unfold retireIdle
  split
  · rename_i hnone
    refine stays_of_at id hrules hnext hothers fun s' hs' => ?_
    cases hs'.symm.trans hnone
  · rename_i s₁ hs₁
    obtain ⟨s, hs, hwanes, hsame⟩ := hless s₁ hs₁
    split
    · dsimp only
      split
      -- idle and outdated: it goes
      · refine stays_of_at id ((rules_retire _ id).1.trans hrules) ((rules_retire _ id).2.trans hnext)
          (fun other hne => ?_) fun s' hs' => ?_
        · rw [get?_retire, if_neg hne, get?_update_ne hne, hothers other hne]
        · rw [get?_retire, if_pos rfl] at hs'
          cases hs'
      -- idle, with the current rules
      · rename_i hcurrent
        refine stays_of_at id hrules hnext (fun other hne => ?_) fun s' hs' => ?_
        · rw [get?_update_ne hne, hothers other hne]
        · obtain ⟨s₂, hs₂, rfl⟩ := get?_update_self hs'
          cases hs₁.symm.trans hs₂
          rw [hrules] at hcurrent ⊢
          have hfresh : (s₁.check h.fingerprint).isOutdated h.fingerprint = false := by
            rw [isOutdated_check]
            simpa using hcurrent
          refine ⟨s, hs, wanes_trans hwanes (wanes_check s₁ _),
            fun hk => ⟨fingerprint_check s₁ h.fingerprint, fun _ hout => ?_⟩, fun _ hout => ?_⟩
          · rw [hfresh] at hout; cases hout
          · rw [hfresh] at hout; cases hout
    -- it still hosts rooms
    · rename_i hbusy
      refine stays_of_at id hrules hnext hothers fun s' hs' => ?_
      cases hs₁.symm.trans hs'
      refine ⟨s, hs, hwanes, fun hk => ⟨hsame ▸ hk.fingerprint, fun _ _ => hbusy⟩, fun _ hout => ?_⟩
      rw [Scheduler.isOutdated, hsame] at hout
      exact hout

/-- A scheduler that has lost a room goes if it is idle and outdated. -/
theorem stays_removeRoom (id : Int) :
    h.Stays (({ h with pool := h.pool.update id removeRoom } : Hall).retireIdle id) := by
  refine stays_retireIdle h rfl rfl (fun other hne => get?_update_ne hne) fun s' hs' => ?_
  obtain ⟨s, hs, rfl⟩ := get?_update_self hs'
  exact ⟨s, hs, ⟨Or.inl rfl, fun h => h⟩, rfl⟩

theorem stays_releaseScheduler (r id : Int) : h.Stays (h.releaseScheduler r id) := by
  unfold releaseScheduler
  dsimp only
  refine stays_trans ?_ (stays_removeRoom _ id)
  exact stays_signal_of (stays_signal h _ _) _ _

theorem stays_finish (r : Int) (x : Room) : h.Stays (h.finish r x) := by
  unfold finish
  dsimp only
  refine stays_trans ?_ (stays_releaseScheduler _ r x.scheduler)
  refine stays_trans ?_ (stays_of_engines (view_foldl (fun h c => unpeopled_engines.releasePlayer h _ c) _ _))
  refine stays_trans ?_ (stays_askCurrent _ _)
  exact stays_of_engines (view_foldl unpeopled_engines.releaseObserver _ _)

theorem stays_finishRoom (r : Int) : h.Stays (h.finishRoom r).2 := by
  unfold finishRoom
  split
  · exact stays_refl h
  · exact stays_finish h r _

theorem stays_checkAbandoned (r : Int) : h.Stays (h.checkAbandoned r) := by
  unfold checkAbandoned
  split
  · exact stays_refl h
  · rename_i x _
    split
    · exact stays_refl h
    · dsimp only
      split
      · exact stays_signal_of (stays_askCurrent h x.scheduler) _ _
      · exact stays_trans (stays_askCurrent h x.scheduler) (stays_finishRoom _ r)

theorem stays_leaveSeat (c r : Int) : h.Stays (h.leaveSeat c r) := by
  unfold leaveSeat
  dsimp only
  refine stays_trans ?_ (stays_checkAbandoned _ r)
  split
  · exact stays_of_engines rfl
  · refine stays_signal_of (stays_signal_of ?_ _ _) _ _
    exact stays_of_engines rfl

theorem stays_closed (c : Int) : h.Stays (h.closed c) := by
  unfold closed
  split
  · exact stays_of_engines rfl
  · refine stays_trans (stays_stopObserving h c) ?_
    unfold leave
    split
    · exact stays_refl _
    · dsimp only
      split
      · exact stays_of_engines rfl
      · refine stays_trans ?_ (stays_leaveSeat _ c _)
        exact stays_of_engines rfl

theorem stays_loseRoom (r : Int) : h.Stays (h.loseRoom r) := by
  unfold loseRoom
  split
  · exact stays_refl h
  · dsimp only
    refine stays_trans ?_ (stays_finish _ r _)
    exact stays_of_engines (view_foldl (fun h c => unpeopled_engines.showError h c engineGone) h _)

theorem stays_schedulerFailed (id : Int) : h.Stays (h.schedulerFailed id) :=
  stays_trans (stays_foldl stays_loseRoom _ h) (stays_retire _ id)

end endings

/-! ## New rooms and new rules -/

/-- Whatever the rules were, after a sweep no scheduler is outdated and idle. -/
theorem drained_sweep {h : Hall} (hb : h.ledger.Balanced) : h.sweep.Drained := by
  intro id s' hs'
  rw [(pool_sweep h).1] at hs'
  rw [(pool_sweep h).2]
  obtain ⟨s, hs, rfl, hbusy⟩ := get?_sweep (nodup_schedulers hb) hs'
  refine ⟨fingerprint_check s h.fingerprint, fun _ hout => ?_⟩
  rw [isOutdated_check] at hout
  rw [rooms_check]
  exact hbusy hout

/-- The rules may have changed just before a sweep. -/
theorem tends_sweep {h : Hall} (hb : h.ledger.Balanced) (rules : String) :
    h.Tends ({ h with fingerprint := rules } : Hall).sweep where
  nextId := by
    rw [(pool_sweep { h with fingerprint := rules }).1]
    exact Int.le_refl _
  wanes := by
    intro id s' hs'
    rw [(pool_sweep { h with fingerprint := rules }).1] at hs'
    obtain ⟨s, hs, rfl, _⟩ := get?_sweep (nodup_schedulers hb) hs'
    exact Or.inl ⟨s, hs, wanes_check s rules⟩
  kept := fun _ => drained_sweep (h := { h with fingerprint := rules }) hb

theorem stays_sweep {h : Hall} (hb : h.ledger.Balanced) : h.Stays h.sweep where
  toTends := tends_sweep hb h.fingerprint
  rules := (pool_sweep h).2
  fresh := by
    intro id s' hs' _ hout
    rw [(pool_sweep h).1] at hs'
    obtain ⟨s, hs, rfl, _⟩ := get?_sweep (nodup_schedulers hb) hs'
    rw [isOutdated_check] at hout
    exact Or.inl ⟨s, hs, hout⟩

theorem passes_of_askedAt {h : Hall} {id : Int} {s' : Scheduler} (ha : h.AskedAt id s') :
    ∃ s, h.pool.get? id = some s ∧ s.Passes h.fingerprint s' := by
  obtain ⟨s, hs, rfl | rfl⟩ := ha
  · exact ⟨s', hs, passes_refl _ s'⟩
  · exact ⟨s, hs, passes_ask s _⟩

/-- A scheduler that has been found gets a room, and one that has been spawned is not idle then. -/
theorem stays_place {h g : Hall} {id : Int} (hf : Finds h g id) (name : String) :
    h.Stays (g.place id name).2 := by
  -- the schedulers that were there, and perhaps one that has been spawned for the room
  have hpool : ∀ other s'', (g.pool.update id addRoom).get? other = some s'' →
      (∃ s, h.pool.get? other = some s ∧ s.Passes h.fingerprint s'')
        ∨ other = h.pool.nextId ∧ s''.Kept h.fingerprint := by
    intro other s'' hs''
    by_cases heq : other = id
    · subst heq
      obtain ⟨s', hs', rfl⟩ := get?_update_self hs''
      rcases hf.pool other s' hs' with hasked | ⟨_, hnew, hrules⟩
      · obtain ⟨s, hs, hpasses⟩ := passes_of_askedAt hasked
        exact Or.inl ⟨s, hs, passes_trans hpasses (passes_addRoom s' _)⟩
      · exact Or.inr ⟨hnew, Or.inr hrules, fun _ _ => Nat.succ_ne_zero _⟩
    · rw [get?_update_ne heq] at hs''
      rcases hf.pool other s'' hs'' with hasked | ⟨hid, _⟩
      · exact Or.inl (passes_of_askedAt hasked)
      · exact absurd hid heq
  have hmore : h.Stays { g with nextRoom := g.nextRoom + 1, pool := g.pool.update id addRoom } := {
    nextId := hf.nextId
    wanes := by
      intro other s'' hs''
      rcases hpool other s'' hs'' with ⟨s, hs, hpasses⟩ | ⟨hnew, _⟩
      · exact Or.inl ⟨s, hs, hpasses.toWanes⟩
      · exact Or.inr (Int.le_of_eq hnew.symm)
    kept := by
      intro hd other s'' hs''
      show s''.Kept g.fingerprint
      rw [hf.fingerprint]
      rcases hpool other s'' hs'' with ⟨s, hs, hpasses⟩ | ⟨_, hkept⟩
      · exact hpasses.kept (hd other s hs)
      · exact hkept
    rules := hf.fingerprint
    fresh := by
      intro other s'' hs'' halive hout
      rcases hpool other s'' hs'' with ⟨s, hs, hpasses⟩ | ⟨hnew, _⟩
      · exact Or.inl ⟨s, hs, hpasses.fresh halive hout⟩
      · exact Or.inr (Int.le_of_eq hnew.symm) }
  refine stays_trans (stays_signal_of hmore id (newRoomSignal g.nextRoom name)) ?_
  exact stays_of_engines rfl

theorem stays_createRoom {h : Hall} (hb : h.ledger.Balanced) (owner : Int) (name : String)
    (canSpawn : Bool) : h.Stays (h.createRoom owner name canSpawn).2 := by
  unfold createRoom
  split
  · exact stays_refl h
  · rename_i s _
    have hb' := Ledger.balanced_moves hb (moves_sweep (k := 0) h)
    refine stays_trans (stays_sweep hb) ?_
    rcases makeRoom_cases hb' owner s name canSpawn with ⟨hasks, hpool⟩ | ⟨g, id, hfinds, heq⟩
    · exact stays_of_passes hasks.fingerprint hasks.nextId fun id s' hs' =>
        passes_of_askedAt (hpool id s' hs')
    · rw [heq]
      exact stays_trans (stays_place hfinds name) (stays_seat _ _ _ _ _)

/-- New rules may leave any scheduler outdated. -/
theorem tends_refreshFingerprint {h : Hall} (hb : h.ledger.Balanced)
    (reading : Except Fault String) : h.Tends (h.refreshFingerprint reading).2 := by
  unfold refreshFingerprint
  split
  · exact (stays_refl h).toTends
  · rename_i rules
    split
    · exact (stays_refl h).toTends
    · exact tends_trans (tends_sweep hb rules) (stays_foldl
        (fun h id => stays_foldl (fun h r => stays_signal h id (.wake r "outdated")) _ h) _ _).toTends

/-! ## Steps and runs -/

/-- **No event but new rules makes a scheduler outdated** whose engine is up. -/
theorem stays_take {h : Hall} (hb : h.ledger.Balanced) {e : Event}
    (hrules : ∀ reading, e ≠ .refreshFingerprint reading) : h.Stays (h.take e) := by
  -- `refreshFingerprint` alone sets new rules, and is left out here
  cases e with
  | pass span => exact stays_of_engines rfl
  | accept host => exact stays_of_engines (unpeopled_engines.accept h host)
  | expireSignUp c => exact stays_of_engines (unpeopled_engines.expireSignUp h c)
  | record c record => exact stays_hear h c record
  | closed c => exact stays_closed h c
  | shut c => exact stays_of_engines rfl
  | shutSoon c => exact stays_of_engines rfl
  | lobby c request canSpawn =>
      show h.Stays (request.put h c canSpawn).2
      cases request with
      | createRoom name =>
          rw [Lobby.Request.put_createRoom]
          exact stays_createRoom hb c name canSpawn
      | enterRoom r => exact stays_seatPlayer h c r
      | observeRoom r => exact stays_observeRoom h c r
      | malformed words => exact stays_refl h
  | showError c words => exact stays_of_engines (unpeopled_engines.showError h c words)
  | createRoom owner name canSpawn => exact stays_createRoom hb owner name canSpawn
  | seatPlayer c r => exact stays_seatPlayer h c r
  | observeRoom c r => exact stays_observeRoom h c r
  | finishRoom r => exact stays_finishRoom h r
  | engineUp id => exact stays_setHealth h id .up
  | engineDown id => exact stays_setHealth h id .down
  | startupOver id => exact stays_startupOver h id
  | schedulerFailed id => exact stays_schedulerFailed h id
  | refreshFingerprint reading => exact absurd rfl (hrules reading)
  | reloadSettings reading => exact stays_of_engines (by cases reading <;> rfl)
  | effect call => exact stays_of_engines (unpeopled_engines.effect h call)
  | kick c => exact stays_of_engines (unpeopled_engines.kick h c)
  | temporarilyBan c => exact stays_of_engines (unpeopled_engines.temporarilyBan h c)

/-- **Every event goes one way.** -/
theorem tends_take {h : Hall} (hb : h.ledger.Balanced) (e : Event) : h.Tends (h.take e) := by
  by_cases hrules : ∃ reading, e = .refreshFingerprint reading
  · obtain ⟨reading, rfl⟩ := hrules
    exact tends_refreshFingerprint hb reading
  · exact (stays_take hb fun reading heq => hrules ⟨reading, heq⟩).toTends

theorem tends_step {h : Hall} (hb : h.ledger.Balanced) (e : Event) : h.Tends (h.step e) := by
  unfold step
  split
  · exact (stays_refl h).toTends
  · exact tends_take hb e

theorem tends_run {h : Hall} (hb : h.ledger.Balanced) (events : List Event) :
    h.Tends (h.run events) := by
  induction events generalizing h with
  | nil => exact (stays_refl h).toTends
  | cons e events ih => exact tends_trans (tends_step hb e) (ih (balanced_step hb e))

/-! ## What a run does to a scheduler -/

/-- Why a scheduler gets no rooms any more. -/
def Stale (s : Scheduler) : Prop := s.fingerprint = "" ∨ s.health = .down

/-- A scheduler that was there, or its number, which no other scheduler gets. -/
theorem wanes_run {h : Hall} (hb : h.ledger.Balanced) {id : Int} {s s' : Scheduler}
    (hs : h.pool.get? id = some s) {events : List Event}
    (hs' : (h.run events).pool.get? id = some s') : s.Wanes s' := by
  rcases (tends_run hb events).wanes id s' hs' with ⟨s₁, hs₁, hwanes⟩ | hnew
  · cases hs.symm.trans hs₁
    exact hwanes
  · have hlt := hb.accountsBelow id (Assoc.mem_keys_iff.mpr (by rw [account_of_get? hs]; rfl))
    exact absurd hnew (Int.not_le.mpr hlt)

/-- **A stale scheduler gets no room.** -/
theorem room_of_stale {h : Hall} (hb : h.ledger.Balanced) {id : Int} {s : Scheduler}
    (hs : h.pool.get? id = some s) (hstale : Stale s) (events : List Event) {r : Int} {x : Room}
    (hx : (h.run events).room? r = some x) (hid : x.scheduler = id) :
    ∃ y, h.room? r = some y ∧ y.scheduler = id := by
  induction events using List.reverseRecOn generalizing x with
  | nil => exact ⟨x, hx, hid⟩
  | append_singleton events e ih =>
      have hb' := balanced_run hb events
      rw [run_append] at hx
      rcases room_step hb' hx with ⟨y, hy, hscheduler⟩ | ⟨_, hplace⟩
      · exact ih hy (hscheduler.trans hid)
      -- the room would be new, but its scheduler has a number that was given before, and is stale
      · rw [hid] at hplace
        rcases hplace with hnew | ⟨s', hs', haccepts⟩
        · have hlt := hb.accountsBelow id (Assoc.mem_keys_iff.mpr (by rw [account_of_get? hs]; rfl))
          have hnext := (tends_run hb events).nextId
          have hlt' : id < h.pool.nextId := hlt
          omega
        · rw [not_accepts_of_wanes (wanes_run hb hs hs') hstale] at haccepts
          cases haccepts

theorem mem_roomsOf_iff {h : Hall} (hb : h.ledger.Balanced) {r id : Int} :
    r ∈ h.roomsOf id ↔ ∃ x, h.room? r = some x ∧ x.scheduler = id := by
  refine ⟨scheduler_of_mem_roomsOf hb, fun ⟨x, hx, hid⟩ => mem_roomsOf ?_⟩
  rw [host_of_room? hx, hid]

/-- What holds of the schedulers of a run: one that was outdated or down at any moment stays so and gets
no rooms after that, and none that is outdated is idle. -/
structure Drains (h : Hall) (events : List Event) : Prop where
  outdated : ∀ past future id s s', events = past ++ future →
    (h.run past).pool.get? id = some s → s.isOutdated (h.run past).fingerprint = true →
    (h.run events).pool.get? id = some s' → s'.isOutdated (h.run events).fingerprint = true
  down : ∀ past future id s s', events = past ++ future →
    (h.run past).pool.get? id = some s → s.isAlive = false →
    (h.run events).pool.get? id = some s' → s'.isAlive = false
  closed : ∀ past future id s, events = past ++ future →
    (h.run past).pool.get? id = some s →
    s.isOutdated (h.run past).fingerprint = true ∨ s.isAlive = false →
    ∀ r, r ∈ (h.run events).roomsOf id → r ∈ (h.run past).roomsOf id
  busy : ∀ id s, (h.run events).pool.get? id = some s → s.isAlive = true →
    s.isOutdated (h.run events).fingerprint = true → (h.run events).roomsOf id ≠ []

/-- After every event, to be outdated is to have forgotten the rules. -/
theorem forgotten_of_drained {h : Hall} (hd : h.Drained) {id : Int} {s : Scheduler}
    (hs : h.pool.get? id = some s) (hout : s.isOutdated h.fingerprint = true) :
    s.fingerprint = "" := by
  rcases (hd id s hs).fingerprint with hnone | hcurrent
  · exact hnone
  · exact (isOutdated_iff.mp hout).elim (fun h => h) fun hne => absurd hcurrent hne

theorem drains_of_drained {h : Hall} (hb : h.ledger.Balanced) (hd : h.Drained)
    (events : List Event) : h.Drains events := by
  have hdrained : ∀ past, (h.run past).Drained := fun past => (tends_run hb past).kept hd
  exact {
    -- an outdated scheduler has forgotten its rules, and is told no new ones
    outdated := by
      intro past future id s s' heq hs hout hs'
      rw [heq, run_append] at hs' ⊢
      have hnone := forgotten_of_drained (hdrained past) hs hout
      have hwanes := wanes_run (balanced_run hb past) hs hs'
      exact isOutdated_iff.mpr (Or.inl (hwanes.fingerprint.elim (fun h => h.trans hnone) fun h => h))
    down := by
      intro past future id s s' heq hs hdead hs'
      rw [heq, run_append] at hs'
      have hdown : s.health = .down := by simpa [isAlive] using hdead
      simp [isAlive, (wanes_run (balanced_run hb past) hs hs').health hdown]
    closed := by
      intro past future id s heq hs hstale r hr
      have hb' := balanced_run hb past
      rw [heq, run_append] at hr
      obtain ⟨x, hx, hid⟩ := (mem_roomsOf_iff (balanced_run hb' future)).mp hr
      refine (mem_roomsOf_iff hb').mpr (room_of_stale hb' hs ?_ future hx hid)
      refine hstale.imp (forgotten_of_drained (hdrained past) hs) fun hdead => ?_
      simpa [isAlive] using hdead
    busy := by
      intro id s hs halive hout hnil
      have hrooms := (accounted_of_balanced (balanced_run hb events)).counted id s hs
      rw [hnil] at hrooms
      exact (hdrained events id s hs).busy halive hout hrooms }

/-- **Schedulers drain in every run**, whatever rules, engines and rooms do. -/
theorem drains_run (authenticator : Authenticator) (settings : Settings) (fingerprint : String)
    (epoch : Int) (events : List Event) :
    (new authenticator settings fingerprint epoch).Drains events :=
  drains_of_drained (balanced_new authenticator settings fingerprint epoch)
    (fun _ _ hs => nomatch hs) events

end Hall

end GameHall
