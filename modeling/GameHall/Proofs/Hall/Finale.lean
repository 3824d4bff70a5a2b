import GameHall.Proofs.Hall.Breakdown
import GameHall.Proofs.Hall.Placement

/-!
# The end of a room

A room ends as a whole. Those of its players and observers who are connected go home to the lobby and are
told so once, the seats kept for others are given up, and the scheduler hosts one room less. It leaves the
pool if that was its last room and it would get no other. Whoever has run away from a game that could have
gone on is banned, and there is nothing else that happens (`finales_run`).

A ban that would end beyond the last moment of the clock is not made: the main loop dies in the
attempt, with the room half ended (`not_always_over`). There is no other way for the end of a room to
fail (`crashed_finish`).
-/

namespace GameHall

/-- What someone is told who comes home. -/
def Mail.home : List Mail := [.note "EnterLobby" []]

/-- What is left of a scheduler when one of its rooms has ended. One that is not current has forgotten its
rules. -/
def Scheduler.vacated (s : Scheduler) (rules : String) : Scheduler :=
  { s with
    rooms := s.rooms - 1
    fingerprint := if s.isAlive && !s.isOutdated rules then s.fingerprint else "" }

namespace Hall

open Scheduler

variable {h g : Hall} {c r id : Int} {x : Room} {s : Session} {sch : Scheduler}

/-! ## Bans that end too late -/

/-- A ban made now would end beyond the last moment. -/
def Endless (h : Hall) : Prop :=
  0 < h.settings.tempBanTime ∧ Moment.limit ≤ h.now + minutes h.settings.tempBanTime

theorem endless_congr (hnow : g.now = h.now) (hsettings : g.settings = h.settings) :
    g.Endless ↔ h.Endless := by
  rw [Endless, Endless, hnow, hsettings]

/-- The end of a ban made now, if the clock has it. -/
def banEnd? (h : Hall) : Option Moment :=
  Moment.after? h.now (Duration.ofSeconds (min (h.settings.tempBanTime * 60) (UInt64.size - 1)))

theorem banEnd?_eq_none_iff :
    h.banEnd? = none ↔ Moment.limit ≤ h.now + minutes h.settings.tempBanTime := by
  unfold banEnd?
  cases hend : Moment.after? h.now _ with
  | some t =>
      have ht := end_of_after? hend
      refine iff_of_false (fun heq => nomatch heq) (Nat.not_le.mpr ?_)
      unfold Moment.after? at hend
      split at hend
      · rename_i hlt
        cases hend
        rwa [ht] at hlt
      · cases hend
  | none =>
      refine iff_of_true rfl ?_
      unfold Moment.after? at hend
      split at hend
      · cases hend
      · rename_i hge
        -- a span that is cut short is shorter than the ban
        refine Nat.le_trans (Nat.le_of_not_lt hge) (Nat.add_le_add_left ?_ h.now)
        exact Nat.mul_le_mul_right _ (Nat.min_le_left _ _)

/-- A ban is not made, or is noted under the address, or ends the main loop because the clock cannot tell
its end. -/
theorem ban_cases (h : Hall) (host : Host) : h.settings.tempBanTime = 0 ∧ h.ban host = h
    ∨ 0 < h.settings.tempBanTime ∧
      ((∃ t, h.banEnd? = some t ∧ h.ban host = { h with bans := Assoc.set h.bans host t })
        ∨ h.banEnd? = none ∧ h.ban host = { h with crashed := true }) := by
  unfold ban banEnd?
  split
  · rename_i hzero
    exact Or.inl ⟨hzero, rfl⟩
  · rename_i htime
    refine Or.inr ⟨Nat.pos_of_ne_zero htime, ?_⟩
    dsimp only
    generalize Moment.after? h.now _ = o
    cases o with
    | some t => exact Or.inl ⟨t, rfl, rfl⟩
    | none => exact Or.inr ⟨rfl, rfl⟩

theorem crashed_ban (h : Hall) (host : Host) :
    (h.ban host).crashed = true ↔ h.crashed = true ∨ h.Endless := by
  rcases ban_cases h host with ⟨hzero, heq⟩ | ⟨hpos, ⟨t, hend, heq⟩ | ⟨hend, heq⟩⟩
  · rw [heq]
    exact (or_iff_left fun hlate => Nat.ne_of_gt hlate.1 hzero).symm
  · rw [heq]
    refine (or_iff_left fun hlate => ?_).symm
    cases hend.symm.trans (banEnd?_eq_none_iff.mpr hlate.2)
  · rw [heq]
    exact iff_of_true rfl (Or.inr ⟨hpos, banEnd?_eq_none_iff.mp hend⟩)

/-- **To release a player is the end of the main loop** just if the player has run away and bans are
endless. -/
theorem crashed_releasePlayer (h : Hall) (runaway : Bool) (c : Int) :
    (h.releasePlayer runaway c).crashed = true
      ↔ h.crashed = true ∨ runaway = true ∧ (∃ a, h.GoneFrom c a) ∧ h.Endless := by
  unfold releasePlayer
  cases hs : h.session? c with
  | none =>
      refine (or_iff_left ?_).symm
      rintro ⟨_, ⟨_, s, hs', _⟩, _⟩
      exact nomatch hs.symm.trans hs'
  | some s =>
      dsimp only
      -- who is online goes back to the lobby, which bans nobody
      split
      · rename_i honline
        have hdocket : ((h.updateSession c fun s =>
            { s with room := lobbyRoom, thinking := false, died := false }).notify c
              "EnterLobby" []).docket = h.docket :=
          (blind_docket.notify _ c _ _).trans (blind_docket.session h c _ (fun _ => rfl) fun _ => rfl)
        rw [show ∀ g : Hall, g.docket = h.docket → g.crashed = h.crashed from
          fun _ heq => congrArg Docket.crashed heq]
        · refine (or_iff_left ?_).symm
          rintro ⟨_, ⟨_, s', hs', hoff, _⟩, _⟩
          cases hs.symm.trans hs'
          exact absurd honline (Bool.eq_false_iff.mp hoff)
        · exact hdocket
      · rename_i hoff
        have hgone : ∃ a, h.GoneFrom c a := ⟨_, s, hs, Bool.eq_false_iff.mpr hoff, rfl⟩
        cases runaway with
        | false => simp
        | true => simpa [hgone] using crashed_ban h s.link.host

/-- To release the players of a room is the end of the main loop just if one of them has run away and
a ban would end too late. -/
theorem crashed_releasePlayers (runaway : Bool) (l : List Int) (h : Hall) :
    (l.foldl (releasePlayer runaway) h).crashed = true
      ↔ h.crashed = true ∨ runaway = true ∧ (∃ c ∈ l, ∃ a, h.GoneFrom c a) ∧ h.Endless := by
  induction l generalizing h with
  | nil => simp
  | cons d l ih =>
      have hbars := bars_releasePlayer h runaway d
      rw [List.foldl_cons, ih, crashed_releasePlayer, endless_congr hbars.now hbars.settings, or_assoc,
        ← and_or_left, ← or_and_right]
      refine or_congr_right (and_congr_right fun _ => and_congr_left fun _ => ?_)
      constructor
      · rintro (hgone | ⟨c, hc, a, hgone⟩)
        · exact ⟨d, List.mem_cons_self, hgone⟩
        · exact ⟨c, List.mem_cons_of_mem d hc, a, ((goneFrom_releasePlayer h runaway d c a).mp hgone).2⟩
      · rintro ⟨c, hc, a, hgone⟩
        by_cases heq : c = d
        · exact Or.inl ⟨a, heq ▸ hgone⟩
        · exact Or.inr ⟨c, (List.mem_cons.mp hc).resolve_left heq, a,
            (goneFrom_releasePlayer h runaway d c a).mpr ⟨heq, hgone⟩⟩

/-- **The end of a room is the end of the main loop** just if someone has run away from it and bans are
endless. -/
theorem crashed_finish (hx : h.room? r = some x) : (h.finish r x).crashed = true
    ↔ h.crashed = true ∨ (∃ a, h.RanFrom r a) ∧ h.Endless := by
  -- the observers go first, which makes no difference to who has gone or to the scheduler
  let k := x.observers.foldl releaseObserver { h with rooms := Assoc.erase h.rooms r }
  have hdocket : k.docket = h.docket := view_foldl blind_docket.releaseObserver _ _
  have hcurrent : k.isCurrent x.scheduler = h.isCurrent x.scheduler :=
    (isCurrent_of_engines (view_foldl unpeopled_engines.releaseObserver _ x.observers) _).trans
      (isCurrent_of_engines rfl _)
  have hgone : ∀ c a, (k.askCurrent x.scheduler).GoneFrom c a ↔ h.GoneFrom c a := fun c a =>
    goneFrom_releaseObservers x.observers { h with rooms := Assoc.erase h.rooms r } c a
  have hfinish : (h.finish r x).crashed = (x.players.foldl (releasePlayer (k.isCurrent x.scheduler))
      (k.askCurrent x.scheduler)).crashed :=
    congrArg Docket.crashed (blind_docket.releaseScheduler _ r x.scheduler)
  rw [hfinish, crashed_releasePlayers, hcurrent,
    show (k.askCurrent x.scheduler).crashed = h.crashed from congrArg Docket.crashed hdocket,
    endless_congr (h := h) (g := k.askCurrent x.scheduler) (congrArg Docket.now hdocket)
      (congrArg Docket.settings hdocket)]
  simp only [hgone, ranFrom_iff hx, exists_and_left, and_assoc]
  refine or_congr_right (and_congr_right fun _ => and_congr_left fun _ => ?_)
  exact ⟨fun ⟨c, hc, a, ha⟩ => ⟨a, c, hc, ha⟩, fun ⟨a, c, hc, ha⟩ => ⟨c, hc, a, ha⟩⟩

/-! ## The scheduler of the room -/

theorem isOutdated_vacated (s : Scheduler) (rules : String) : (s.vacated rules).isOutdated rules
    = !(s.isAlive && !s.isOutdated rules) := by
  unfold vacated
  cases hcurrent : s.isAlive && !s.isOutdated rules with
  | true =>
      simp only [Bool.and_eq_true, Bool.not_eq_true'] at hcurrent
      exact hcurrent.2
  | false => rfl

/-- A scheduler that is not current forgets its rules when it is looked at, or when it is signalled to. -/
theorem signalled_check (s : Scheduler) (rules : String) :
    (if s.isAlive then s.check rules else s).signalled.signalled.removeRoom = s.vacated rules := by
  cases halive : s.isAlive <;> cases hout : s.isOutdated rules <;>
    simp [signalled, check, vacated, removeRoom, halive, hout, markOutdated]

theorem get?_signal (h : Hall) (id : Int) (sg : Signal) :
    (h.signal id sg).pool.get? id = (h.pool.get? id).map signalled := by
  rw [signal_frame]
  exact (get?_update h.pool id id signalled).trans (if_pos rfl)

/-- A scheduler leaves the pool just if it hosts no room and is outdated. -/
theorem get?_retireIdle (hsch : h.pool.get? id = some sch) : (h.retireIdle id).pool.get? id
    = if sch.rooms = 0 ∧ sch.isOutdated h.fingerprint = true then none else some sch := by
  unfold retireIdle
  rw [hsch]
  dsimp only
  by_cases hrooms : sch.rooms = 0
  · rw [if_pos hrooms]
    split
    · rename_i hout
      rw [get?_retire, if_pos rfl, if_pos ⟨hrooms, hout⟩]
    · rename_i hcurrent
      rw [if_neg fun hidle => hcurrent hidle.2]
      refine (get?_update h.pool id id _).trans ?_
      rw [if_pos rfl, hsch, Option.map_some, check, if_neg hcurrent]
  · rw [if_neg hrooms, if_neg fun hidle => hrooms hidle.1]
    exact hsch

theorem get?_releaseScheduler (hsch : h.pool.get? id = some sch) (r : Int) :
    (h.releaseScheduler r id).pool.get? id
      = if sch.signalled.signalled.removeRoom.rooms = 0
          ∧ sch.signalled.signalled.removeRoom.isOutdated h.fingerprint = true then none
        else some sch.signalled.signalled.removeRoom := by
  have hrules : ((h.signal id (.disarm .delay r)).signal id (.disarm .request r)).fingerprint
      = h.fingerprint := by
    rw [signal_frame, signal_frame]
    rfl
  rw [← hrules]
  refine get?_retireIdle ((get?_update _ id id removeRoom).trans ?_)
  rw [if_pos rfl, get?_signal, get?_signal, hsch]
  rfl

/-- **The scheduler of a room that has ended** hosts one room less. It is gone if that was the last and it
is not current. -/
theorem get?_finish (hsch : h.pool.get? x.scheduler = some sch) (r : Int) :
    (h.finish r x).pool.get? x.scheduler
      = if sch.rooms - 1 = 0 ∧ (sch.isAlive && !sch.isOutdated h.fingerprint) = false then none
        else some (sch.vacated h.fingerprint) := by
  let k := x.observers.foldl releaseObserver { h with rooms := Assoc.erase h.rooms r }
  let k' := x.players.foldl (releasePlayer (k.isCurrent x.scheduler)) (k.askCurrent x.scheduler)
  have hengines : k.engines = h.engines := view_foldl unpeopled_engines.releaseObserver _ x.observers
  have hengines' : k'.engines = (k.askCurrent x.scheduler).engines :=
    view_foldl (fun h c => unpeopled_engines.releasePlayer h _ c) _ x.players
  have hrules : k.fingerprint = h.fingerprint := congrArg Prod.snd hengines
  have hrules' : k'.fingerprint = h.fingerprint := (congrArg Prod.snd hengines').trans hrules
  have hpool : k.pool = h.pool := congrArg Prod.fst hengines
  have hasked : k'.pool.get? x.scheduler
      = some (if sch.isAlive then sch.check h.fingerprint else sch) := by
    refine (congrArg (fun e => e.1.get? x.scheduler) hengines').trans ?_
    refine (get?_update k.pool x.scheduler x.scheduler _).trans ?_
    rw [if_pos rfl, hpool, hsch, hrules]
    rfl
  have hleft := get?_releaseScheduler hasked r
  rw [signalled_check, hrules', isOutdated_vacated] at hleft
  simp only [Bool.not_eq_true'] at hleft
  exact hleft

/-! ## What the end of a room leaves alone -/

/-- What the end of a room does not touch. -/
def aside (h : Hall) : Hall :=
  { h with sessions := [], rooms := [], pool := Pool.empty, bans := [], acts := [], crashed := false }

/-- A hall that is the same aside from people, rooms and schedulers differs in these tables only. -/
theorem frame_of_aside (heq : g.aside = h.aside) : g = { h with
    sessions := g.sessions, rooms := g.rooms, pool := g.pool, bans := g.bans, acts := g.acts
    crashed := g.crashed } := by
  cases g
  cases h
  simp only [aside, Hall.mk.injEq, true_and, and_true] at heq ⊢
  exact heq

theorem detached_aside : Detached aside where
  acts _ _ := rfl
  pool _ _ := rfl

theorem aside_releasePlayer (h : Hall) (runaway : Bool) (c : Int) :
    (h.releasePlayer runaway c).aside = h.aside := by
  unfold releasePlayer
  split
  · rfl
  · rename_i s _
    split
    · exact detached_aside.notify _ c _ _
    · dsimp only
      split
      · rcases ban_cases h s.link.host with ⟨_, heq⟩ | ⟨_, ⟨_, _, heq⟩ | ⟨_, heq⟩⟩ <;> rw [heq] <;> rfl
      · rfl

theorem aside_finish (h : Hall) (r : Int) (x : Room) : (h.finish r x).aside = h.aside := by
  have hobserver : ∀ (g : Hall) (c : Int), (g.releaseObserver c).aside = g.aside := fun g c =>
    detached_aside.notify _ c _ _
  unfold finish
  dsimp only
  rw [detached_aside.releaseScheduler, view_foldl fun g c => aside_releasePlayer g _ c]
  exact view_foldl hobserver _ _

/-- A room has ended. -/
structure Ended (h g : Hall) (r : Int) (x : Room) : Prop where
  frame : g = { h with
    sessions := g.sessions, rooms := g.rooms, pool := g.pool, bans := g.bans, acts := g.acts
    crashed := g.crashed }
  room : g.room? r = none
  rooms : ∀ q, q ≠ r → g.room? q = h.room? q
  /-- Whoever has run away is banned, if there are bans. -/
  banned : ∀ a, h.RanFrom r a → 0 < h.settings.tempBanTime →
    Assoc.get? g.bans a = some (h.now + minutes h.settings.tempBanTime)
  /-- Nobody else is. -/
  spared : ∀ a, ¬ (h.RanFrom r a ∧ 0 < h.settings.tempBanTime) →
    Assoc.get? g.bans a = Assoc.get? h.bans a
  /-- The scheduler hosts one room less, or has left the pool: it has if the room was its last and its
  engine is down or has old rules. -/
  host : ∃ s, h.pool.get? x.scheduler = some s ∧ s.rooms ≠ 0
    ∧ (g.pool.get? x.scheduler = none
      ↔ s.rooms - 1 = 0 ∧ (s.isOutdated h.fingerprint = true ∨ s.isAlive = false))
    ∧ ∀ s', g.pool.get? x.scheduler = some s' → s' = s.vacated h.fingerprint
  schedulers : ∀ other, other ≠ x.scheduler → g.pool.get? other = h.pool.get? other
  /-- Whom the room does not list keeps the session and is sent nothing. -/
  others : ∀ c, c ∉ x.players → c ∉ x.observers → g.dossier c = h.dossier c

/-- Someone is free to have a room or to come into one. -/
structure Free (h : Hall) (c : Int) : Prop where
  create : ∀ name, ((Lobby.Request.createRoom name).put h c true).1 = .ok ()
  enter : ∀ (w : Way) (q : Int), (h.room? q).isSome → ((w.request q).put h c true).1 = .ok ()

/-- What the end of a room is to someone whom the room lists. What is put into the link goes out if the
link takes it. -/
structure ComesHome (h g : Hall) (r : Int) (x : Room) (c : Int) : Prop where
  /-- A player who is connected is in the lobby and is told so. Another loses the session. -/
  players : c ∈ x.players → ∃ s, h.session? c = some s ∧ s.room = r ∧ s.observing = none
    ∧ (s.isOnline = true → g.dossier c = ⟨h.registry.pending c,
      some { s with room := lobbyRoom, thinking := false, died := false },
      h.mail c ++ s.link.posts Mail.home⟩ ∧ g.Free c)
    ∧ (s.isOnline = false → g.dossier c = ⟨h.registry.pending c, none, h.mail c⟩)
  /-- So is an observer, who is connected. -/
  observers : c ∈ x.observers → ∃ s, h.session? c = some s ∧ s.room = lobbyRoom
    ∧ s.observing = some r ∧ s.isOnline = true ∧ g.dossier c = ⟨h.registry.pending c,
      some { s with observing := none }, h.mail c ++ s.link.posts Mail.home⟩ ∧ g.Free c

theorem free_of_lobby (hw : h.Staffed) (hs : h.session? c = some s) (hlobby : s.inLobby = true) :
    h.Free c where
  create := fun name => (granted_iff (outcome_put hw c true (.createRoom name))).mpr ⟨s, hs, hlobby⟩
  enter := by
    intro w q hq
    obtain ⟨y, hy⟩ := Option.isSome_iff_exists.mp hq
    exact (granted_iff (outcome_put hw c true (w.request q))).mpr (admissible_way w hs hlobby hy)

theorem finishRoom_eq (hx : h.room? r = some x) : h.finishRoom r = (.ok (), h.finish r x) := by
  rw [finishRoom, existingRoom, hx]

theorem staffed_finish (hw : h.Staffed) (hx : h.room? r = some x) : (h.finish r x).Staffed := by
  have hfinish : (h.finishRoom r).2 = h.finish r x := congrArg Prod.snd (finishRoom_eq hx)
  have hmoves : Ledger.Moves 0 h.ledger (h.finish r x).ledger := hfinish ▸ moves_finishRoom hw.balanced r
  exact {
    balanced := Ledger.balanced_moves hw.balanced hmoves
    ordered := Ledger.ordered_moves hw.balanced hw.ordered hmoves
    drained := hfinish ▸ (tends_take hw.balanced (.finishRoom r)).kept hw.drained }

theorem room?_finish (h : Hall) (r : Int) (x : Room) (q : Int) :
    (h.finish r x).room? q = if q = r then none else h.room? q :=
  (congrFun (congrArg Registry.room (registry_finish h r x)) q).trans
    (Function.update_apply h.room? r none q)

/-- **A room ends as a whole**, unless the main loop does. -/
theorem ended_finish (hb : h.ledger.Balanced) (hx : h.room? r = some x)
    (hup : (h.finish r x).crashed = false) : h.Ended (h.finish r x) r x where
  frame := frame_of_aside (aside_finish h r x)
  room := (room?_finish h r x r).trans (if_pos rfl)
  rooms := fun q hq => (room?_finish h r x q).trans (if_neg hq)
  banned := fun a hran htime => (bars_finish h r x).banned a ((ranFrom_iff hx a).mp hran) htime hup
  spared := fun a hnot => (bars_finish h r x).spared a fun ⟨hran, htime⟩ =>
    hnot ⟨(ranFrom_iff hx a).mpr hran, htime⟩
  host := by
    obtain ⟨s, hs⟩ := Option.isSome_iff_exists.mp ((accounted_of_balanced hb).hosted r x hx)
    have hget := get?_finish hs r
    refine ⟨s, hs, rooms_ne_zero hb hx hs, ?_, fun s' hs' => ?_⟩
    · have hstale : (s.isAlive && !s.isOutdated h.fingerprint) = false
          ↔ s.isOutdated h.fingerprint = true ∨ s.isAlive = false := by
        cases s.isAlive <;> cases s.isOutdated h.fingerprint <;> simp
      rw [hget, ← hstale]
      simp only [ite_eq_left_iff, reduceCtorEq, imp_false, not_not]
    · rw [hget] at hs'
      split at hs'
      · cases hs'
      · exact (Option.some.inj hs').symm
  schedulers := fun other hne => get?_finish_ne h hne r
  others := by
    intro c hplayer hobserver
    rw [dossier_finish, List.count_eq_zero.mpr hplayer, List.count_eq_zero.mpr hobserver]
    rfl

/-- **Whoever is in a room that ends comes home**, and hears of it once. -/
theorem comesHome_finish (hw : h.Staffed) (ht : h.registry.Tracked c)
    (hunrepeated : h.registry.Unrepeated c) (hx : h.room? r = some x) :
    ComesHome h (h.finish r x) r x c := by
  have hdossier := dossier_finish h c r x
  have hfree : ∀ s', (h.finish r x).session? c = some s' → s'.inLobby = true → (h.finish r x).Free c :=
    fun s' hs' => free_of_lobby (staffed_finish hw hx) hs'
  -- whoever is listed is listed once, as a player or as an observer
  rcases Registry.listed_cases ht hunrepeated hx with ⟨s, hs, hroom, hview, honce, hobserver⟩ |
    ⟨s, hs, hroom, hview, hplayer, honce⟩ | ⟨hplayer, hobserver⟩
  · rw [honce, List.count_eq_zero.mpr hobserver] at hdossier
    refine ⟨fun _ => ⟨s, hs, hroom, hview, fun honline => ?_, fun hoff => ?_⟩,
      fun hc => absurd hc hobserver⟩
    · have hhome := hdossier.trans (Dossier.release_of_online (D := h.dossier c) hs honline)
      exact ⟨hhome, hfree _ (congrArg Dossier.session hhome) (Registry.inLobby_iff.mpr ⟨rfl, hview⟩)⟩
    · exact hdossier.trans (Dossier.release_of_offline (D := h.dossier c) hs hoff)
  · refine ⟨fun hc => absurd hc hplayer, fun _ => ?_⟩
    rw [honce, List.count_eq_zero.mpr hplayer] at hdossier
    have hhome := hdossier.trans (Dossier.unwatch_of_some (D := h.dossier c) hs)
    exact ⟨s, hs, hroom, hview, Registry.online_of_room ht hs hroom, hhome,
      hfree _ (congrArg Dossier.session hhome) (Registry.inLobby_iff.mpr ⟨hroom, rfl⟩)⟩
  · exact ⟨fun hc => absurd hc hplayer, fun hc => absurd hc hobserver⟩

/-! ## Runs -/

/-- What holds of the end of a room at the end of a run. -/
structure Finales (h : Hall) (events : List Event) : Prop where
  /-- Without the room there is nothing to end. -/
  refused : ∀ r, (h.run events).room? r = none → (h.run events).finishRoom r
    = (.error (.refused s!"room {r} does not exist"), h.run events)
  /-- The main loop dies just if someone has run away and bans are endless. -/
  dies : ∀ r, ((h.run events).finishRoom r).2.crashed = true
    ↔ (h.run events).crashed = true ∨ (∃ a, (h.run events).RanFrom r a) ∧ (h.run events).Endless
  /-- Otherwise the room ends, -/
  ended : ∀ r x, (h.run events).room? r = some x → ∃ g, (h.run events).finishRoom r = (.ok (), g)
    ∧ (g.crashed = false → (h.run events).Ended g r x)
  /-- and whoever is there comes home, as long as numbers are not shared. -/
  home : ∀ r x c, (h.run events).room? r = some x → h.Unshared c events →
    ((h.run events).finishRoom r).2.crashed = false →
    (h.run events).ComesHome ((h.run events).finishRoom r).2 r x c
  /-- No number is shared before the greatest one has been given. -/
  unshared : h.lastConnection + accepted events ≤ maxConnection → ∀ c, h.Unshared c events

/-- **Rooms end as a whole**, at the end of any run, unless a ban has no end. -/
theorem finales_run (authenticator : Authenticator) (settings : Settings) (fingerprint : String)
    (epoch : Int) (events : List Event) :
    (new authenticator settings fingerprint epoch).Finales events := by
  have hb := balanced_new authenticator settings fingerprint epoch
  have hw := staffed_run authenticator settings fingerprint epoch events
  exact {
    refused := by
      intro r hnone
      rw [finishRoom, existingRoom, hnone]
    dies := by
      intro r
      cases hx : ((new authenticator settings fingerprint epoch).run events).room? r with
      | none =>
          rw [finishRoom, existingRoom, hx]
          refine (or_iff_left ?_).symm
          rintro ⟨⟨_, x, hx', _⟩, _⟩
          cases hx.symm.trans hx'
      | some x =>
          rw [finishRoom_eq hx]
          exact crashed_finish hx
    ended := fun r x hx => ⟨_, finishRoom_eq hx, ended_finish hw.balanced hx⟩
    -- whoever has a number alone is tracked, and comes home from the room
    home := by
      intro r x c hx hunshared _
      have ht := tracked_new authenticator settings fingerprint epoch c
      have hunrepeated := unrepeated_new authenticator settings fingerprint epoch c
      rw [finishRoom_eq hx]
      exact comesHome_finish hw (tracked_run hb ht hunshared)
        (unrepeated_run hb ht hunrepeated hunshared) hx
    unshared := unshared_of_few hb (unknown_new authenticator settings fingerprint epoch) }

/-- Two players are in a room, where bans are for the longest time that settings can tell. The second runs
away. -/
def flight : List Event :=
  [.reloadSettings (.ok { Settings.initial with tempBanTime := UInt64.size - 1 }),
    .accept (.v4 10 0 0 1), .accept (.v4 10 0 0 2), .record 1 (helloRecord "amy"),
    .record 2 (helloRecord "bob"), .createRoom 1 "den" true, .seatPlayer 2 1, .closed 2]

/-- So it is not so that whoever has run away is banned: the end of the room is the end of the main loop. -/
theorem not_always_over :
    ¬ ∀ (events : List Event) (r : Int) (a : Host),
      let h := (new (.openToAll []) .initial "rules" 0).run events
      h.crashed = false → h.RanFrom r a → 0 < h.settings.tempBanTime →
        (h.finishRoom r).2.crashed = false ∧ (Assoc.get? (h.finishRoom r).2.bans a).isSome := by
  intro hover
  -- the second player has run away, and a ban would end after the last moment
  have hgone : ((((new (.openToAll []) .initial "rules" 0).run flight).session? 2).any fun s =>
      !s.isOnline && decide (s.link.host = .v4 10 0 0 2)) = true := by decide +kernel
  obtain ⟨s, hs, hoff⟩ := (Option.any_eq_true _ _).mp hgone
  rw [Bool.and_eq_true, Bool.not_eq_true', decide_eq_true_iff] at hoff
  have hran : ((new (.openToAll []) .initial "rules" 0).run flight).RanFrom 1 (.v4 10 0 0 2) :=
    ⟨⟨"den", 1000, [1, 2], []⟩, by decide +kernel, by decide +kernel, 2, by decide, s, hs, hoff⟩
  have hdead : (((new (.openToAll []) .initial "rules" 0).run flight).finishRoom 1).2.crashed = true := by
    decide +kernel
  have hup := (hover flight 1 (.v4 10 0 0 2) (by decide +kernel) hran (by decide +kernel)).1
  rw [hdead] at hup
  cases hup

end Hall

end GameHall
