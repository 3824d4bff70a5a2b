import GameHall.Proofs.Hall.Draining

/-!
# Abandoned rooms

A room none of whose players is connected waits for them, and its engine is told so. If the engine has
old rules, nobody would answer: `checkAbandoned` ends such a room when its last player goes
(`not_stranded_checkAbandoned`).

The rules may as well become old while the room waits. New rules wake the rooms of outdated engines,
and that is all. So a room is stranded in a run just if new rules came while it waited
(`stranded_run`), and no other event strands one (`stranded_step`).
-/

namespace GameHall

namespace Hall

open Scheduler

variable {n m : Nat}

/-- None of the players of a room is connected. -/
def Abandoned (h : Hall) (x : Room) : Prop := ∀ c ∈ x.players, h.isOnline c = false

instance (h : Hall) (x : Room) : Decidable (h.Abandoned x) :=
  inferInstanceAs (Decidable (∀ c ∈ x.players, h.isOnline c = false))

/-- A room is abandoned, and its engine is up or may come up. -/
def Waits (h : Hall) (r : Int) : Prop :=
  ∃ x s, h.room? r = some x ∧ h.Abandoned x ∧ h.pool.get? x.scheduler = some s ∧ s.isAlive = true

/-- A room waits, and its engine does not have the current rules. -/
def Stranded (h : Hall) (r : Int) : Prop :=
  ∃ x s, h.room? r = some x ∧ h.Abandoned x ∧ h.pool.get? x.scheduler = some s ∧ s.isAlive = true
    ∧ s.isOutdated h.fingerprint = true

/-! ## Who is gone -/

/-- In tables that are in order, the players of an abandoned room are gone and keep their seats. -/
theorem abandoned_iff {h : Hall} (hs : h.registry.Sound n) {r : Int} {x : Room}
    (hx : h.room? r = some x) : h.Abandoned x ↔ ∀ c ∈ x.players, h.registry.Gone c := by
  constructor
  · intro habandoned c hc
    have hseat := (hs.agrees.seated c r).mp (mem_players_iff.mpr ⟨x, hx, hc⟩)
    obtain ⟨s, hsess, _⟩ := Option.bind_eq_some_iff.mp hseat
    have hsess' : h.session? c = some s := hsess
    have hoff := habandoned c hc
    rw [isOnline, hsess'] at hoff
    exact ⟨s, hsess, hoff⟩
  · intro hgone c hc
    obtain ⟨s, hsess, hoff⟩ := hgone c hc
    have hsess' : h.session? c = some s := hsess
    rw [isOnline, hsess']
    exact hoff

/-- **An abandoned room has been abandoned before**, or one of its players goes with this event. -/
theorem abandoned_turn {h : Hall} (hs : h.registry.Sound n) {e : Event} {q : Scene}
    (hturn : Turn h e q) {r : Int} {x' : Room} (hx' : q.tables.room r = some x')
    (hgone : ∀ c ∈ x'.players, q.tables.Gone c) :
    ∃ x, h.room? r = some x ∧ x.scheduler = x'.scheduler
      ∧ ∀ c ∈ x.players, h.registry.Gone c ∨ e = .closed c := by
  have hbefore : ∀ c ∈ x'.players, h.registry.Gone c ∨ e = .closed c := fun c hc =>
    gone_turn hturn (hgone c hc)
  have hfewer : h.registry.Fewer q.tables → ∃ x, h.room? r = some x ∧ x.scheduler = x'.scheduler
      ∧ ∀ c ∈ x.players, h.registry.Gone c ∨ e = .closed c := by
    intro hf
    obtain ⟨x, hx, hscheduler⟩ := hf.room r x' hx'
    exact ⟨x, hx, hscheduler, fun c hc => hbefore c (hf.players r x x' hx hx' hc)⟩
  cases hturn with
  | deeds hdeeds => exact hfewer (fewer_deeds hdeeds)
  | come => exact ⟨x', hx', rfl, hbefore⟩
  | signUp => exact ⟨x', hx', rfl, hbefore⟩
  | sit => exact hfewer (Registry.fewer_seat _ _ _)
  | watch => exact hfewer (Registry.fewer_watch _ _ _)
  | message _ _ _ halike => exact hfewer (Registry.fewer_alike halike)
  | @found owner id name s _ he hsess hlobby =>
      have hf := Registry.fewer_seat (h.registry.openRoom ⟨name, id, [], []⟩) owner h.nextRoom
      obtain ⟨x, hx, hscheduler⟩ := hf.room r x' hx'
      by_cases hr : r = h.nextRoom
      -- the owner of a new room was in the lobby, where nobody is gone
      · subst hr
        have hopened : (h.registry.openRoom ⟨name, id, [], []⟩).room h.nextRoom
            = some ⟨name, id, [], []⟩ := Function.update_self _ _ _
        have howner : owner ∈ x'.players := by
          have hset : some (⟨name, id, [owner], []⟩ : Room) = some x' := by
            rw [← hx']
            simp [Registry.seat, Registry.updateRoom, Registry.updateSession, Registry.setSession,
              Registry.setRoom, hopened]
          rw [← Option.some.inj hset]
          exact List.mem_singleton_self owner
        rcases hbefore owner howner with ⟨s', hsess', hoff⟩ | hclosed
        · cases hsess.symm.trans hsess'
          exact absurd (Registry.inLobby_iff.mp hlobby).1 (hs.agrees.kept owner s hsess hoff)
        · rw [hclosed] at he
          cases he
      · have hx₀ : h.room? r = some x := (Function.update_of_ne hr _ _).symm.trans hx
        exact ⟨x, hx₀, hscheduler, fun c hc => hbefore c (hf.players r x x' hx hx' hc)⟩

/-! ## The last player goes -/

/-- The engine of a room stays what it was while the rules do not change. -/
theorem engine_of_stays {h g : Hall} (hb : h.ledger.Balanced) (hstays : h.Stays g) {r : Int} {x : Room}
    (hx : h.room? r = some x) {s' : Scheduler} (hs' : g.pool.get? x.scheduler = some s')
    (halive : s'.isAlive = true) (hout : s'.isOutdated h.fingerprint = true) :
    ∃ s, h.pool.get? x.scheduler = some s ∧ s.isAlive = true
      ∧ s.isOutdated h.fingerprint = true := by
  have hlt : ¬ h.pool.nextId ≤ x.scheduler := Int.not_le.mpr
    (hb.accountsBelow x.scheduler (hb.hosted r x.scheduler (host_of_room? hx)))
  obtain ⟨s, hs, hwanes⟩ := (hstays.wanes x.scheduler s' hs').resolve_right hlt
  obtain ⟨s₁, hs₁, hout₁⟩ := (hstays.fresh x.scheduler s' hs' halive hout).resolve_right hlt
  cases hs.symm.trans hs₁
  exact ⟨s, hs, alive_of_wanes hwanes halive, hout₁⟩

theorem isOnline_of_registry {h g : Hall} (heq : g.registry = h.registry) (c : Int) :
    g.isOnline c = h.isOnline c := by
  have hsess : g.session? c = h.session? c := congrArg (fun t => t.session c) heq
  rw [isOnline, isOnline, hsess]

/-- **No room is stranded once it has been looked after**: an abandoned room is left only if its engine
is current. -/
theorem not_stranded_checkAbandoned {h : Hall} (hb : h.ledger.Balanced) (r : Int) :
    ¬ (h.checkAbandoned r).Stranded r := by
  rintro ⟨x', s', hx', habandoned, hs', halive, hout⟩
  have hstays := stays_checkAbandoned h r
  rw [hstays.rules] at hout
  unfold checkAbandoned at hx' habandoned hs'
  cases hx : h.room? r with
  | none =>
      rw [hx] at hx'
      cases hx.symm.trans hx'
  | some x =>
      simp only [hx] at hx' habandoned hs'
      split at hx'
      -- someone is there
      · rename_i hany
        rw [if_pos hany] at habandoned
        cases hx.symm.trans hx'
        obtain ⟨c, hc, honline⟩ := List.any_eq_true.mp hany
        rw [habandoned c hc] at honline
        cases honline
      · rename_i hany
        rw [if_neg hany] at hs'
        split at hx'
        -- the engine was current
        · rename_i hcurrent
          rw [if_pos hcurrent] at hs'
          have hasked := stays_signal_of (stays_askCurrent h x.scheduler) x.scheduler
            (.wake r "abandon")
          have hsame : x' = x := by
            have hroom := congrArg (fun t => t.room r)
              (detached_registry.signal (h.askCurrent x.scheduler) x.scheduler (.wake r "abandon"))
            exact Option.some.inj (hx'.symm.trans (hroom.trans hx))
          rw [hsame] at hs'
          obtain ⟨s, hs, _, houtdated⟩ := engine_of_stays hb hasked hx hs' halive hout
          rw [isCurrent, hs] at hcurrent
          simp [houtdated] at hcurrent
        -- the room has ended
        · have hroom : ((h.askCurrent x.scheduler).finishRoom r).2.room? r = none := by
            have hx₁ : (h.askCurrent x.scheduler).room? r = some x := hx
            rw [finishRoom, existingRoom, hx₁]
            exact (congrArg (fun t => t.room r) (registry_finish _ r x)).trans
              (Function.update_self _ _ _)
          rw [hroom] at hx'
          cases hx'

/-- A player who goes has the room looked after, when the tables are in order. -/
theorem closed_of_player {h : Hall} (hs : h.registry.Sound n) {c r : Int} {x : Room}
    (hx : h.room? r = some x) (hc : c ∈ x.players) :
    ∃ g : Hall, g.ledger = h.ledger ∧ h.closed c = g.checkAbandoned r := by
  have hseat := (hs.agrees.seated c r).mp (mem_players_iff.mpr ⟨x, hx, hc⟩)
  obtain ⟨s, hsess, hroom⟩ := Option.bind_eq_some_iff.mp hseat
  obtain ⟨hroom, hne⟩ := seat?_eq_some_iff.mp hroom
  have hsess' : h.session? c = some s := hsess
  -- who sits in a room has signed up, and watches no other room
  have hpending : Assoc.has h.pending c = false := by
    cases hp : Assoc.get? h.pending c with
    | none => rw [Assoc.has, hp]; rfl
    | some l =>
        have hnone := hs.numbers.apart c (Option.isSome_iff_exists.mpr ⟨l, hp⟩)
        cases hnone.symm.trans hsess
  have hview : ∀ s', h.session? c = some s' → s'.observing = none := by
    intro s' hs'
    cases hsess'.symm.trans hs'
    cases hview : s.observing with
    | none => rfl
    | some q =>
        have hsome : (h.registry.viewOf c).isSome := by
          rw [Registry.viewOf_eq hsess, hview]
          rfl
        cases (hs.agrees.exclusive c hsome).symm.trans hseat
  unfold closed
  rw [hpending, stopObserving_of_none h hview, leave, hsess']
  dsimp only
  rw [if_neg Bool.false_ne_true, if_neg (hroom ▸ hne), hroom, leaveSeat]
  refine ⟨_, ?_, rfl⟩
  split
  · rfl
  · rw [ledger_signal, ledger_signal]
    rfl

/-- **The end of a connection strands no room.** -/
theorem stranded_closed {h : Hall} (hb : h.ledger.Balanced) (hs : h.registry.Sound n) {c r : Int}
    (hs' : (h.closed c).registry.Sound m) (hr : (h.closed c).Stranded r) : h.Stranded r := by
  obtain ⟨x', s', hx', habandoned, hs₁, halive, hout⟩ := hr
  obtain ⟨x, hx, hscheduler, hgone⟩ := abandoned_turn hs (.deeds (deeds_closed h c)) hx'
    ((abandoned_iff hs' hx').mp habandoned)
  by_cases hc : c ∈ x.players
  · obtain ⟨g, hledger, heq⟩ := closed_of_player hs hx hc
    rw [heq] at hx' habandoned hs₁ hout
    rw [← hledger] at hb
    exact absurd ⟨x', s', hx', habandoned, hs₁, halive, hout⟩ (not_stranded_checkAbandoned hb r)
  -- the room is another one, or was abandoned before
  · have habandoned₀ : h.Abandoned x := by
      refine (abandoned_iff hs hx).mpr fun d hd => (hgone d hd).resolve_right fun heq => ?_
      cases heq
      exact hc hd
    have hstays := stays_closed h c
    rw [hstays.rules] at hout
    rw [← hscheduler] at hs₁
    obtain ⟨s, hs₀, halive₀, hout₀⟩ := engine_of_stays hb hstays hx hs₁ halive hout
    exact ⟨x, s, hx, habandoned₀, hs₀, halive₀, hout₀⟩

/-! ## New rules -/

/-- To give signals to engines that are up changes nothing about them. -/
theorem alive_signal {h : Hall} {id : Int} {s : Scheduler} (hs : h.pool.get? id = some s)
    (halive : s.isAlive = true) (other : Int) (signal : Signal) :
    (h.signal other signal).pool.get? id = some s := by
  unfold Hall.signal
  split
  · exact hs
  · rename_i s₁ hs₁
    split
    · exact hs
    · rename_i hdead
      have hne : id ≠ other := by
        intro heq
        subst heq
        cases hs.symm.trans hs₁
        exact hdead halive
      exact (get?_update_ne hne).trans hs

theorem alive_wakeOutdated {h : Hall} {id : Int} {s : Scheduler} (hs : h.pool.get? id = some s)
    (halive : s.isAlive = true) (other : Int) : (h.wakeOutdated other).pool.get? id = some s := by
  unfold wakeOutdated
  induction h.roomsOf other generalizing h with
  | nil => exact hs
  | cons r rooms ih => exact ih (alive_signal hs halive other _)

theorem alive_wakeAll {h : Hall} {id : Int} {s : Scheduler} (hs : h.pool.get? id = some s)
    (halive : s.isAlive = true) (ids : List Int) :
    (ids.foldl wakeOutdated h).pool.get? id = some s := by
  induction ids generalizing h with
  | nil => exact hs
  | cons other ids ih => exact ih (alive_wakeOutdated hs halive other)

theorem fingerprint_refreshFingerprint {h : Hall} {rules : String} :
    (h.refreshFingerprint (.ok rules)).2.fingerprint = rules := by
  unfold refreshFingerprint
  dsimp only
  split
  · rename_i heq
    exact heq.symm
  · refine (stays_foldl (f := wakeOutdated) (fun h id => ?_) _ _).rules.trans (pool_sweep _).2
    exact stays_foldl (fun h r => stays_signal h id (.wake r "outdated")) _ h

/-- The rules that count are those that were read last, unless they are the ones there were. -/
theorem refreshFingerprint_cases (h : Hall) (reading : Except Fault String) :
    (h.refreshFingerprint reading).2 = h ∨ ∃ rules, reading = .ok rules ∧ rules ≠ h.fingerprint := by
  cases reading with
  | error fault => exact Or.inl rfl
  | ok rules =>
      by_cases heq : rules = h.fingerprint
      · refine Or.inl ?_
        rw [refreshFingerprint, if_pos heq]
      · exact Or.inr ⟨rules, rfl, heq⟩

/-- **New rules strand every room that waits**: its engine is told of them, but keeps the room. -/
theorem stranded_of_waits {h : Hall} (hb : h.ledger.Balanced) (hd : h.Drained) {r : Int}
    (hr : h.Waits r) {rules : String} (hnew : rules ≠ h.fingerprint) :
    (h.refreshFingerprint (.ok rules)).2.Stranded r := by
  obtain ⟨x, s, hx, habandoned, hs, halive⟩ := hr
  have hregistry := registry_refreshFingerprint h (.ok rules)
  have hx' : (h.refreshFingerprint (.ok rules)).2.room? r = some x :=
    (congrArg (fun t => t.room r) hregistry).trans hx
  have habandoned' : (h.refreshFingerprint (.ok rules)).2.Abandoned x := fun c hc =>
    (isOnline_of_registry hregistry c).trans (habandoned c hc)
  -- the engine hosts the room, so the sweep leaves it
  have hbusy : s.rooms ≠ 0 := by
    have hmem := (mem_roomsOf_iff hb).mpr ⟨x, hx, rfl⟩
    rw [(accounted_of_balanced hb).counted x.scheduler s hs]
    exact Nat.ne_of_gt (List.length_pos_of_mem hmem)
  have hswept : ({ h with fingerprint := rules } : Hall).sweep.pool.get? x.scheduler
      = some (s.check rules) := by
    rw [(pool_sweep { h with fingerprint := rules }).1]
    exact get?_sweep_of_busy (nodup_schedulers hb) hs hbusy
  have halive' : (s.check rules).isAlive = true := (isAlive_check s rules).trans halive
  have hs' : (h.refreshFingerprint (.ok rules)).2.pool.get? x.scheduler = some (s.check rules) := by
    rw [refreshFingerprint, if_neg hnew]
    exact alive_wakeAll hswept halive' _
  refine ⟨x, s.check rules, hx', habandoned', hs', halive', ?_⟩
  rw [fingerprint_refreshFingerprint, isOutdated_check, isOutdated_iff]
  rcases (hd x.scheduler s hs).fingerprint with hnone | hold
  · exact Or.inl hnone
  · exact Or.inr (hold ▸ hnew.symm)

/-- A room that new rules have stranded has waited for its players before. -/
theorem waits_of_refreshFingerprint {h : Hall} (hb : h.ledger.Balanced) {r : Int}
    {reading : Except Fault String} (hr : (h.refreshFingerprint reading).2.Stranded r) :
    h.Waits r := by
  obtain ⟨x, s', hx', habandoned', hs', halive', _⟩ := hr
  have hregistry := registry_refreshFingerprint h reading
  have hx : h.room? r = some x := (congrArg (fun t => t.room r) hregistry).symm.trans hx'
  have hlt : ¬ h.pool.nextId ≤ x.scheduler := Int.not_le.mpr
    (hb.accountsBelow x.scheduler (hb.hosted r x.scheduler (host_of_room? hx)))
  obtain ⟨s, hs, hwanes⟩ :=
    ((tends_refreshFingerprint hb reading).wanes x.scheduler s' hs').resolve_right hlt
  refine ⟨x, s, hx, fun c hc => ?_, hs, alive_of_wanes hwanes halive'⟩
  rw [← isOnline_of_registry hregistry c]
  exact habandoned' c hc

/-! ## Steps and runs -/

/-- New rules come to a hall that takes note of them. -/
def RulesChange (h : Hall) (e : Event) : Prop :=
  h.crashed = false ∧ ∃ rules, e = .refreshFingerprint (.ok rules) ∧ rules ≠ h.fingerprint

/-- **Only new rules strand a room**, and only one that waits. -/
theorem stranded_step {h : Hall} (hb : h.ledger.Balanced) (hs : h.registry.Sound n) {e : Event}
    (hs' : (h.step e).registry.Sound m) {r : Int} (hr : (h.step e).Stranded r) :
    h.Stranded r ∨ h.RulesChange e ∧ h.Waits r := by
  cases hcrashed : h.crashed with
  | true =>
      rw [step, if_pos hcrashed] at hr
      exact Or.inl hr
  | false =>
      have hstep : h.step e = h.take e := by rw [step, hcrashed]; rfl
      rw [hstep] at hr hs'
      by_cases hrules : ∃ reading, e = .refreshFingerprint reading
      · obtain ⟨reading, rfl⟩ := hrules
        rcases refreshFingerprint_cases h reading with heq | ⟨rules, rfl, hnew⟩
        · refine Or.inl ?_
          rw [take, heq] at hr
          exact hr
        · exact Or.inr ⟨⟨hcrashed, rules, rfl, hnew⟩, waits_of_refreshFingerprint hb hr⟩
      · refine Or.inl ?_
        by_cases hclosed : ∃ c, e = .closed c
        · obtain ⟨c, rfl⟩ := hclosed
          exact stranded_closed hb hs hs' hr
        -- nobody goes, and no engine becomes outdated
        · obtain ⟨x', s', hx', habandoned, hs₁, halive, hout⟩ := hr
          obtain ⟨x, hx, hscheduler, hgone⟩ := abandoned_turn hs (turn_take hb e) hx'
            ((abandoned_iff hs' hx').mp habandoned)
          have hstays := stays_take hb fun reading heq => hrules ⟨reading, heq⟩
          rw [hstays.rules] at hout
          rw [← hscheduler] at hs₁
          obtain ⟨s, hs₀, halive₀, hout₀⟩ := engine_of_stays hb hstays hx hs₁ halive hout
          refine ⟨x, s, hx, (abandoned_iff hs hx).mpr fun c hc => ?_, hs₀, halive₀, hout₀⟩
          exact (hgone c hc).resolve_right fun heq => hclosed ⟨c, heq⟩

/-- A room that is stranded after some events was stranded by new rules that came while it waited. -/
theorem waits_of_stranded_run {h : Hall} (hb : h.ledger.Balanced) (hs : h.registry.Sound n)
    (hempty : ∀ r, ¬ h.Stranded r) (events : List Event)
    (hfew : n + accepted events < maxConnection) {r : Int} (hr : (h.run events).Stranded r) :
    ∃ past e future, events = past ++ e :: future ∧ (h.run past).RulesChange e
      ∧ (h.run past).Waits r := by
  induction events using List.reverseRecOn with
  | nil => exact absurd hr (hempty r)
  | append_singleton events e ih =>
      have hcount : accepted (events ++ [e]) = accepted events + accepted [e] := List.countP_append
      rw [hcount] at hfew
      obtain ⟨k, _, hsound⟩ := sound_run events hs (by omega)
      obtain ⟨k', _, hsound'⟩ := sound_run (events ++ [e]) hs (by rw [hcount]; omega)
      rw [run_append] at hr hsound'
      rcases stranded_step (balanced_run hb events) hsound hsound' hr with hold | ⟨hchange, hwaits⟩
      · obtain ⟨past, e', future, heq, hfound⟩ := ih (by omega) hold
        exact ⟨past, e', future ++ [e], by rw [heq, List.append_assoc, List.cons_append], hfound⟩
      · exact ⟨events, e, [], rfl, hchange, hwaits⟩

/-- **A room is stranded at some moment of a run just if new rules come while it waits.** -/
theorem stranded_run (authenticator : Authenticator) (settings : Settings) (fingerprint : String)
    (epoch : Int) (events : List Event) (hfew : accepted events < maxConnection) (r : Int) :
    (∃ past future, events = past ++ future
        ∧ ((new authenticator settings fingerprint epoch).run past).Stranded r)
      ↔ ∃ past e future, events = past ++ e :: future
        ∧ ((new authenticator settings fingerprint epoch).run past).RulesChange e
        ∧ ((new authenticator settings fingerprint epoch).run past).Waits r := by
  have hb := balanced_new authenticator settings fingerprint epoch
  constructor
  · rintro ⟨past, future, rfl, hr⟩
    have hcount : accepted (past ++ future) = accepted past + accepted future := List.countP_append
    -- a room is stranded at an event of its own: a change of rules while it waits
    obtain ⟨past', e, future', rfl, hfound⟩ := waits_of_stranded_run hb
      (sound_new authenticator settings fingerprint epoch)
      (fun q ⟨_, _, hx, _⟩ => nomatch hx) past (by omega) hr
    exact ⟨past', e, future' ++ future, by rw [List.append_assoc, List.cons_append], hfound⟩
  · rintro ⟨past, e, future, rfl, ⟨hcrashed, rules, rfl, hnew⟩, hwaits⟩
    refine ⟨past ++ [.refreshFingerprint (.ok rules)], future, by simp, ?_⟩
    -- before the change every scheduler has the current rules or none
    have hdrained := (tends_run hb past).kept fun _ _ hs => nomatch hs
    rw [run_append]
    show (((new authenticator settings fingerprint epoch).run past).step _).Stranded r
    rw [step, hcrashed]
    exact stranded_of_waits (balanced_run hb past) hdrained hwaits hnew

/-- A player has a room, goes, and then the rules change. -/
def lateRules : List Event :=
  [.accept (.v4 10 0 0 1), .record 1 (helloRecord "amy"), .createRoom 1 "den" true, .closed 1,
    .refreshFingerprint (.ok "newer rules")]

/-- Nobody is left in the room, and its engine is coming up with rules that are not the current ones. -/
theorem stranded_lateRules :
    ((new (.openToAll []) .initial "rules" 0).run lateRules).Stranded 1 :=
  ⟨⟨"den", 1000, [1], []⟩, ⟨2000, "", 1, .starting⟩, by decide +kernel, by decide +kernel,
    by decide +kernel, by decide, by decide +kernel⟩

theorem stranded_run_lateRules : accepted lateRules < maxConnection
    ∧ ∃ past e future, lateRules = past ++ e :: future
      ∧ ((new (.openToAll []) .initial "rules" 0).run past).RulesChange e
      ∧ ((new (.openToAll []) .initial "rules" 0).run past).Waits 1 :=
  ⟨by decide, (stranded_run (.openToAll []) .initial "rules" 0 lateRules (by decide) 1).mp
    ⟨lateRules, [], (List.append_nil _).symm, stranded_lateRules⟩⟩

/-- So it is not so that no room is ever stranded. -/
theorem not_never_stranded : ¬ ∀ (events : List Event) (r : Int), accepted events < maxConnection →
    ¬ ((new (.openToAll []) .initial "rules" 0).run events).Stranded r :=
  fun h => h lateRules 1 (by decide) stranded_lateRules

end Hall

end GameHall
