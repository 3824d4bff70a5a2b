import GameHall.Proofs.Hall.Bystanders
import GameHall.Proofs.Hall.Conversation

/-!
# When an engine is gone

The rooms of a scheduler whose engine is gone end one after the other, and then the scheduler is
retired, which may have happened in between. Whoever one of these rooms lists is shown an error and goes
back to the lobby, or loses a seat that was kept. As a connection stands in one list at most, this
happens once (`dossier_loseRooms`), and to no one else (`dossier_loseRooms_of_unlisted`).

A scheduler whose engine is down is not current, so nobody has run away and nobody is banned
(`docket_loseRooms`).
-/

namespace GameHall

/-! ## What it means for one connection -/

theorem Link.posts_append (l : Link) (first second : List Mail) :
    l.posts (first ++ second) = l.posts first ++ l.posts second := by
  unfold Link.posts
  split <;> rfl

/-- What someone is told whose engine is gone. -/
def Mail.engineGone : List Mail :=
  [.note "ErrorDlg" (Datum.text Hall.engineGone).write, .note "EnterLobby" []]

namespace Dossier

/-- The engine of a room is gone. -/
def lose (D : Dossier) (x : Room) (c : Int) : Dossier :=
  release^[x.players.count c] (unwatch^[x.observers.count c]
    ((fun D => D.showError Hall.engineGone)^[(x.players ++ x.observers).count c] D))

variable {D : Dossier} {x : Room} {c : Int} {s : Session}

theorem lose_of_unlisted (hplayer : c ∉ x.players) (hobserver : c ∉ x.observers) : D.lose x c = D := by
  rw [lose, List.count_append, List.count_eq_zero.mpr hplayer, List.count_eq_zero.mpr hobserver]
  rfl

theorem lose_of_player (hplayer : x.players.count c = 1) (hobserver : c ∉ x.observers) :
    D.lose x c = (D.showError Hall.engineGone).release := by
  rw [lose, List.count_append, hplayer, List.count_eq_zero.mpr hobserver]
  rfl

theorem lose_of_observer (hplayer : c ∉ x.players) (hobserver : x.observers.count c = 1) :
    D.lose x c = (D.showError Hall.engineGone).unwatch := by
  rw [lose, List.count_append, List.count_eq_zero.mpr hplayer, hobserver]
  rfl

theorem release_showError (hs : D.session = some s) (honline : s.isOnline = true) :
    (D.showError Hall.engineGone).release = ⟨D.pending,
      some { s with room := lobbyRoom, thinking := false, died := false },
      D.mail ++ s.link.posts Mail.engineGone⟩ := by
  have hs' : (D.showError Hall.engineGone).session = some s := by
    rw [showError_of_some hs]
    exact hs
  rw [release_of_online hs' honline, showError_of_some hs, post, List.append_assoc,
    ← Link.posts_append]
  rfl

theorem unwatch_showError (hs : D.session = some s) :
    (D.showError Hall.engineGone).unwatch = ⟨D.pending, some (Registry.unwatched s),
      D.mail ++ s.link.posts Mail.engineGone⟩ := by
  have hs' : (D.showError Hall.engineGone).session = some s := by
    rw [showError_of_some hs]
    exact hs
  rw [unwatch_of_some hs', showError_of_some hs, post, List.append_assoc, ← Link.posts_append]
  rfl

end Dossier

namespace Hall

/-- The engine of a scheduler is down, as far as the scheduler is there. -/
def Failed (h : Hall) (id : Int) : Prop := ∀ s, h.pool.get? id = some s → s.isAlive = false

/-- No room of a scheduler lists a connection. -/
def Apart (h : Hall) (id c : Int) : Prop :=
  ∀ r x, h.room? r = some x → x.scheduler = id → c ∉ x.players ∧ c ∉ x.observers

/-! ## One room -/

section rooms

variable {h : Hall} {c r id : Int} {x : Room} {l : List Int}

theorem loseRoom_of_none (hnone : h.room? r = none) : h.loseRoom r = h := by
  rw [loseRoom, hnone]

theorem room?_loseRoom (h : Hall) (r q : Int) :
    (h.loseRoom r).room? q = if q = r then none else h.room? q := by
  cases hx : h.room? r with
  | none =>
      rw [loseRoom_of_none hx]
      split
      · rename_i hq
        rw [hq, hx]
      · rfl
  | some x =>
      exact (congrFun (congrArg Registry.room (left_loseRoom hx).2) q).trans
        (Function.update_apply h.room? r none q)

/-- **What the end of an engine means for the connections of a room**, and for all others. -/
theorem dossier_loseRoom (hx : h.room? r = some x) (c : Int) :
    (h.loseRoom r).dossier c = (h.dossier c).lose x c := by
  unfold loseRoom
  rw [hx]
  dsimp only
  rw [dossier_finish, dossier_foldl (F := fun D => D.showError engineGone) h c
    (dossier_showError · c · engineGone)]
  rfl

theorem get?_signal_ne (h : Hall) {id other : Int} (hne : other ≠ id) (s : Signal) :
    (h.signal id s).pool.get? other = h.pool.get? other := by
  unfold signal
  split
  · rfl
  · split
    · rfl
    · exact get?_update_ne hne

theorem get?_releaseScheduler_ne (h : Hall) {id other : Int} (hne : other ≠ id) (r : Int) :
    (h.releaseScheduler r id).pool.get? other = h.pool.get? other := by
  have hidle : ∀ g : Hall, (g.retireIdle id).pool.get? other = g.pool.get? other := by
    intro g
    unfold retireIdle
    split
    · rfl
    · split
      · dsimp only
        split
        · rw [get?_retire, if_neg hne]
          exact get?_update_ne hne
        · exact get?_update_ne hne
      · rfl
  unfold releaseScheduler
  dsimp only
  rw [hidle, get?_update_ne hne, get?_signal_ne _ hne, get?_signal_ne _ hne]

/-- The end of a room is nothing to the schedulers of other rooms. -/
theorem get?_finish_ne (h : Hall) {other : Int} (hne : other ≠ x.scheduler) (r : Int) :
    (h.finish r x).pool.get? other = h.pool.get? other := by
  have hengines : ∀ {g k : Hall}, k.engines = g.engines → k.pool.get? other = g.pool.get? other :=
    fun heq => congrArg (fun e => e.1.get? other) heq
  unfold finish
  dsimp only
  rw [get?_releaseScheduler_ne _ hne,
    hengines (view_foldl (fun h c => unpeopled_engines.releasePlayer h _ c) _ x.players)]
  refine (get?_update_ne hne).trans ?_
  rw [hengines (view_foldl unpeopled_engines.releaseObserver _ x.observers)]

/-- Nobody has run away from a room whose scheduler is not current. -/
theorem docket_finish (hstale : h.isCurrent x.scheduler = false) (r : Int) :
    (h.finish r x).docket = h.docket := by
  have hrelease : ∀ (g : Hall) (c : Int), (g.releasePlayer false c).docket = g.docket := by
    intro g c
    unfold releasePlayer
    split
    · rfl
    · split
      · exact (blind_docket.notify _ c _ _).trans
          (blind_docket.session _ c _ (fun _ => rfl) fun _ => rfl)
      · rfl
  have hobservers : ((x.observers.foldl releaseObserver
      { h with rooms := Assoc.erase h.rooms r }).isCurrent x.scheduler) = false := by
    rw [isCurrent_of_engines (view_foldl unpeopled_engines.releaseObserver _ _)]
    exact hstale
  unfold finish
  dsimp only
  rw [blind_docket.releaseScheduler, hobservers, view_foldl hrelease]
  exact view_foldl blind_docket.releaseObserver _ _

/-! ## One room after the other -/

/-- What the end of one room of a scheduler keeps, the end of several keeps. -/
theorem loseRooms_induction {P : Hall → Prop}
    (hlose : ∀ g r x, P g → g.room? r = some x → x.scheduler = id → P (g.loseRoom r))
    (hl : ∀ q ∈ l, ∀ y, h.room? q = some y → y.scheduler = id) (hP : P h) :
    P (l.foldl loseRoom h) := by
  induction l generalizing h with
  | nil => exact hP
  | cons r l ih =>
      refine ih (fun q hq y hy => ?_) ?_
      · rw [room?_loseRoom] at hy
        split at hy
        · cases hy
        · exact hl q (List.mem_cons_of_mem r hq) y hy
      · cases hx : h.room? r with
        | none => rwa [loseRoom_of_none hx]
        | some x => exact hlose h r x hP hx (hl r List.mem_cons_self x hx)

theorem room?_loseRooms (l : List Int) (h : Hall) (q : Int) :
    (l.foldl loseRoom h).room? q = if q ∈ l then none else h.room? q := by
  induction l generalizing h with
  | nil => rfl
  | cons r l ih =>
      rw [List.foldl_cons, ih, room?_loseRoom]
      by_cases hq : q ∈ l
      · rw [if_pos hq, if_pos (List.mem_cons_of_mem r hq)]
      · rw [if_neg hq]
        by_cases hr : q = r
        · rw [if_pos hr, if_pos (hr ▸ List.mem_cons_self)]
        · rw [if_neg hr, if_neg fun hmem => (List.mem_cons.mp hmem).elim hr hq]

/-- **Whom none of the rooms lists has nothing happen.** -/
theorem dossier_loseRooms_of_unlisted
    (hl : ∀ r ∈ l, ∀ x, h.room? r = some x → c ∉ x.players ∧ c ∉ x.observers) :
    (l.foldl loseRoom h).dossier c = h.dossier c := by
  induction l generalizing h with
  | nil => rfl
  | cons r l ih =>
      have hone : (h.loseRoom r).dossier c = h.dossier c := by
        cases hx : h.room? r with
        | none => rw [loseRoom_of_none hx]
        | some x =>
            obtain ⟨hplayer, hobserver⟩ := hl r List.mem_cons_self x hx
            rw [dossier_loseRoom hx, Dossier.lose_of_unlisted hplayer hobserver]
      rw [List.foldl_cons, ← hone]
      refine ih fun q hq x hx => ?_
      rw [room?_loseRoom] at hx
      split at hx
      · cases hx
      · exact hl q (List.mem_cons_of_mem r hq) x hx

/-- **Whom one of the rooms lists loses that room**, and nothing else happens. -/
theorem dossier_loseRooms (hnodup : l.Nodup) (hr : r ∈ l) (hx : h.room? r = some x)
    (hothers : ∀ q ∈ l, q ≠ r → ∀ y, h.room? q = some y → c ∉ y.players ∧ c ∉ y.observers) :
    (l.foldl loseRoom h).dossier c = (h.dossier c).lose x c := by
  obtain ⟨before, after, rfl⟩ := List.append_of_mem hr
  have hbefore : r ∉ before := fun hmem =>
    (List.nodup_append.mp hnodup).2.2 r hmem r List.mem_cons_self rfl
  have hafter : r ∉ after := (List.nodup_cons.mp (List.nodup_append.mp hnodup).2.1).1
  rw [List.foldl_append, List.foldl_cons]
  -- the rooms before leave the connection and the room alone, and so do the rooms after
  have hx' : (before.foldl loseRoom h).room? r = some x := by
    rw [room?_loseRooms, if_neg hbefore, hx]
  rw [dossier_loseRooms_of_unlisted, dossier_loseRoom hx', dossier_loseRooms_of_unlisted]
  · exact fun q hq y hy => hothers q (List.mem_append_left _ hq)
      (fun heq => hbefore (heq ▸ hq)) y hy
  · intro q hq y hy
    rw [room?_loseRoom, room?_loseRooms] at hy
    split at hy
    · cases hy
    · rename_i hne
      split at hy
      · cases hy
      · exact hothers q (List.mem_append_right _ (List.mem_cons_of_mem r hq)) hne y hy

theorem get?_loseRooms_ne {other : Int} (hne : other ≠ id)
    (hl : ∀ q ∈ l, ∀ y, h.room? q = some y → y.scheduler = id) :
    (l.foldl loseRoom h).pool.get? other = h.pool.get? other := by
  refine loseRooms_induction (P := fun g => g.pool.get? other = h.pool.get? other) ?_ hl rfl
  rintro g r x hg hx rfl
  unfold loseRoom
  rw [hx]
  dsimp only
  rw [get?_finish_ne _ hne, ← hg]
  exact congrArg (fun e => e.1.get? other) (frame_loseRoom g x).2.2

/-- **Nobody is banned when an engine is gone.** -/
theorem docket_loseRooms (hstale : h.isCurrent id = false)
    (hl : ∀ q ∈ l, ∀ y, h.room? q = some y → y.scheduler = id) :
    (l.foldl loseRoom h).docket = h.docket := by
  refine (loseRooms_induction (P := fun g => g.docket = h.docket ∧ g.isCurrent id = false)
    ?_ hl ⟨rfl, hstale⟩).1
  rintro g r x ⟨hg, hstale⟩ hx rfl
  refine ⟨?_, ((left_loseRoom hx).1 _).trans hstale⟩
  obtain ⟨hdocket, _, hengines⟩ := frame_loseRoom g x
  unfold loseRoom
  rw [hx]
  dsimp only
  rw [docket_finish ((isCurrent_of_engines hengines _).trans hstale), hdocket, hg]

theorem registry_loseRooms (hl : ∀ q ∈ l, ∀ y, h.room? q = some y → y.scheduler = id) :
    (l.foldl loseRoom h).registry.pending = h.registry.pending
      ∧ (l.foldl loseRoom h).lastConnection = h.lastConnection
      ∧ (l.foldl loseRoom h).nextRoom = h.nextRoom := by
  refine loseRooms_induction (P := fun g => g.registry.pending = h.registry.pending
    ∧ g.lastConnection = h.lastConnection ∧ g.nextRoom = h.nextRoom) ?_ hl ⟨rfl, rfl, rfl⟩
  rintro g r x ⟨hpending, hlast, hnext⟩ hx _
  have hregistry := (left_loseRoom hx).2
  exact ⟨(congrArg Registry.pending hregistry).trans hpending,
    (congrArg Registry.lastConnection hregistry).trans hlast,
    (congrArg Registry.nextRoom hregistry).trans hnext⟩

end rooms

/-! ## All rooms of a scheduler -/

/-- The end of an engine concerns its rooms, its scheduler and those whom its rooms list. -/
structure Confined (h g : Hall) (id : Int) : Prop where
  rooms : ∀ r, g.room? r = (h.room? r).filter fun x => decide (x.scheduler ≠ id)
  /-- The other schedulers are as they were, with the rooms they have counted. -/
  schedulers : ∀ other, g.pool.get? other = if other = id then none else h.pool.get? other
  /-- Nobody is banned. -/
  bans : g.docket = h.docket
  /-- Whom no room of the scheduler lists keeps the session and is sent nothing. -/
  others : ∀ c, h.Apart id c → g.dossier c = h.dossier c
  pending : g.registry.pending = h.registry.pending
  numbers : g.lastConnection = h.lastConnection ∧ g.nextRoom = h.nextRoom
  rules : g.fingerprint = h.fingerprint

/-- What the end of an engine is to one connection that its rooms list. What is put into the link goes
out if the link takes it. -/
structure SentHome (h g : Hall) (id c : Int) : Prop where
  /-- A player who is connected is shown the error, is in the lobby and is told so. Another loses the
  session. -/
  players : ∀ r x, h.room? r = some x → x.scheduler = id → c ∈ x.players →
    ∃ s, h.session? c = some s ∧ s.room = r ∧ s.observing = none
      ∧ (s.isOnline = true → g.dossier c = ⟨h.registry.pending c,
        some { s with room := lobbyRoom, thinking := false, died := false },
        h.mail c ++ s.link.posts Mail.engineGone⟩)
      ∧ (s.isOnline = false → g.session? c = none)
  /-- So is an observer, who is connected. -/
  observers : ∀ r x, h.room? r = some x → x.scheduler = id → c ∈ x.observers →
    ∃ s, h.session? c = some s ∧ s.room = lobbyRoom ∧ s.observing = some r ∧ s.isOnline = true
      ∧ g.dossier c = ⟨h.registry.pending c, some { s with observing := none },
        h.mail c ++ s.link.posts Mail.engineGone⟩

section schedulers

variable {h : Hall} {c id : Int}

theorem isCurrent_of_failed (hfailed : h.Failed id) : h.isCurrent id = false := by
  unfold isCurrent
  cases hs : h.pool.get? id with
  | none => rfl
  | some s =>
      dsimp only
      rw [hfailed s hs, Bool.false_and]

theorem scheduler_of_roomsOf (hb : h.ledger.Balanced) :
    ∀ q ∈ h.roomsOf id, ∀ y, h.room? q = some y → y.scheduler = id := by
  intro q hq y hy
  obtain ⟨y', hy', hid⟩ := scheduler_of_mem_roomsOf hb hq
  cases hy.symm.trans hy'
  exact hid

theorem nodup_roomsOf (hb : h.ledger.Balanced) (id : Int) : (h.roomsOf id).Nodup := by
  have hkeys := (accounted_of_balanced hb).roomsOnce
  exact (List.filter_sublist.map Prod.fst).nodup hkeys

/-- A scheduler that is not there has no rooms, and to give it up changes nothing. -/
theorem schedulerFailed_of_none (hb : h.ledger.Balanced) (hnone : h.pool.get? id = none) :
    h.schedulerFailed id = h := by
  have hrooms : h.roomsOf id = [] := by
    refine List.eq_nil_iff_forall_not_mem.mpr fun r hr => ?_
    obtain ⟨x, hx, rfl⟩ := scheduler_of_mem_roomsOf hb hr
    have hhosted := (accounted_of_balanced hb).hosted r x hx
    rw [hnone] at hhosted
    cases hhosted
  have hretire : h.retire id = h := by
    unfold retire
    rw [if_neg (by rw [Assoc.has, show Assoc.get? h.pool.schedulers id = none from hnone]; decide)]
  rw [schedulerFailed, hrooms]
  exact hretire

theorem get?_schedulerFailed (hb : h.ledger.Balanced) (id other : Int) :
    (h.schedulerFailed id).pool.get? other = if other = id then none else h.pool.get? other := by
  rw [schedulerFailed, get?_retire]
  split
  · rfl
  · rename_i hne
    exact get?_loseRooms_ne hne (scheduler_of_roomsOf hb)

/-- **The end of an engine is confined to its scheduler.** -/
theorem confined_schedulerFailed (hb : h.ledger.Balanced) (hfailed : h.Failed id) :
    h.Confined (h.schedulerFailed id) id := by
  -- the rooms that go are those of the scheduler, as the ledger counts them
  have hhost : ∀ r ∈ h.roomsOf id, ∀ x, h.room? r = some x → x.scheduler = id :=
    scheduler_of_roomsOf hb
  have hregistry : (h.schedulerFailed id).registry = ((h.roomsOf id).foldl loseRoom h).registry :=
    detached_registry.retire _ id
  exact {
    rooms := by
      intro r
      refine (congrFun (congrArg Registry.room hregistry) r).trans ?_
      refine (room?_loseRooms (h.roomsOf id) h r).trans ?_
      cases hx : h.room? r with
      | none => exact ite_self _
      | some x =>
          by_cases hid : x.scheduler = id
          · rw [if_pos ((mem_roomsOf_iff hb).mpr ⟨x, hx, hid⟩), Option.filter_some,
              if_neg (by simp [hid])]
          · rw [if_neg fun hmem => hid (hhost r hmem x hx), Option.filter_some,
              if_pos (by simp [hid])]
    schedulers := get?_schedulerFailed hb id
    bans := (blind_docket.retire _ id).trans
      (docket_loseRooms (isCurrent_of_failed hfailed) hhost)
    others := by
      intro c hapart
      rw [schedulerFailed, (remote_dossier c).retire]
      exact dossier_loseRooms_of_unlisted fun r hr x hx => hapart r x hx (hhost r hr x hx)
    pending := (congrArg Registry.pending hregistry).trans (registry_loseRooms hhost).1
    numbers := ⟨(congrArg Registry.lastConnection hregistry).trans (registry_loseRooms hhost).2.1,
      (congrArg Registry.nextRoom hregistry).trans (registry_loseRooms hhost).2.2⟩
    rules := (stays_schedulerFailed h id).rules }

/-- A room that lists a connection is where its session says. -/
theorem listed_where (ht : h.registry.Tracked c) {r q : Int} {x y : Room} (hx : h.room? r = some x)
    (hy : h.room? q = some y) (hlisted : c ∈ x.players ∨ c ∈ x.observers) (hne : q ≠ r) :
    c ∉ y.players ∧ c ∉ y.observers := by
  have hqy : h.registry.room q = some y := hy
  rcases Registry.endRoom_cases ht hx with ⟨s, hs, hroom, hview, _⟩ | ⟨s, hs, hroom, hview, _⟩ |
    ⟨hplayer, hobserver, _⟩
  · refine ⟨fun hc => ?_, fun hc => ?_⟩
    · obtain ⟨s', hs', hq⟩ := ht.seated q (Registry.players_eq hqy ▸ hc)
      cases hs.symm.trans hs'
      exact hne (hq.symm.trans hroom)
    · exact Registry.not_mem_observers ht hs hview q (Registry.observers_eq hqy ▸ hc)
  · refine ⟨fun hc => ?_, fun hc => ?_⟩
    · exact Registry.not_mem_players ht hs hroom q (Registry.players_eq hqy ▸ hc)
    · obtain ⟨s', hs', hq⟩ := ht.watching q (Registry.observers_eq hqy ▸ hc)
      cases hs.symm.trans hs'
      exact hne (Option.some.inj (hq.symm.trans hview))
  · exact absurd hlisted fun hor => hor.elim hplayer hobserver

theorem dossier_schedulerFailed (hb : h.ledger.Balanced) (ht : h.registry.Tracked c) {r : Int}
    {x : Room} (hx : h.room? r = some x) (hlisted : c ∈ x.players ∨ c ∈ x.observers) :
    (h.schedulerFailed x.scheduler).dossier c = (h.dossier c).lose x c := by
  rw [schedulerFailed, (remote_dossier c).retire]
  exact dossier_loseRooms (nodup_roomsOf hb _) ((mem_roomsOf_iff hb).mpr ⟨x, hx, rfl⟩) hx
    fun q _ hne y hy => listed_where ht hx hy hlisted hne

/-- **Whoever is in a room whose engine is gone goes home**, and hears of it once. -/
theorem sentHome_schedulerFailed (hb : h.ledger.Balanced) (ht : h.registry.Tracked c)
    (hunrepeated : h.registry.Unrepeated c) (id : Int) : h.SentHome (h.schedulerFailed id) id c where
  players := by
    rintro r x hx rfl hc
    -- the rooms go one by one, and only this one lists the connection
    have hdossier := dossier_schedulerFailed hb ht hx (Or.inl hc)
    rcases Registry.listed_cases ht hunrepeated hx with ⟨s, hs, hroom, hview, honce, hobserver⟩ |
      ⟨_, _, _, _, hplayer, _⟩ | ⟨hplayer, _⟩
    · rw [Dossier.lose_of_player honce hobserver] at hdossier
      refine ⟨s, hs, hroom, hview, fun honline => ?_, fun hoff => ?_⟩
      · exact hdossier.trans (Dossier.release_showError hs honline)
      · refine (congrArg Dossier.session hdossier).trans ?_
        rw [Dossier.showError_of_some (s := s) hs, Dossier.release_of_offline (s := s) hs hoff]
    · exact absurd hc hplayer
    · exact absurd hc hplayer
  observers := by
    rintro r x hx rfl hc
    have hdossier := dossier_schedulerFailed hb ht hx (Or.inr hc)
    rcases Registry.listed_cases ht hunrepeated hx with ⟨_, _, _, _, _, hobserver⟩ |
      ⟨s, hs, hroom, hview, hplayer, honce⟩ | ⟨_, hobserver⟩
    · exact absurd hc hobserver
    · rw [Dossier.lose_of_observer hplayer honce] at hdossier
      exact ⟨s, hs, hroom, hview, Registry.online_of_room ht hs hroom,
        hdossier.trans (Dossier.unwatch_showError hs)⟩
    · exact absurd hc hobserver

end schedulers

/-! ## Runs -/

/-- The scheduler whose engine does not come up, or is gone. -/
def Event.fails? : Event → Option Int
  | engineDown id => some id
  | startupOver id => some id
  | _ => none

/-- What holds of the end of an engine at the end of a run. -/
structure Breakdowns (h : Hall) (events : List Event) : Prop where
  /-- An engine that has not come up in time, or is gone, is down for good. -/
  lasting : ∀ past e future id, events = past ++ e :: future → e.fails? = some id →
    (h.run past).crashed = false → ((h.run past).pool.get? id).isSome → (h.run events).Failed id
  confined : ∀ id, (h.run events).Failed id →
    (h.run events).Confined ((h.run events).schedulerFailed id) id
  home : ∀ id c, (h.run events).Failed id → h.Unshared c events →
    (h.run events).SentHome ((h.run events).schedulerFailed id) id c
  /-- To give up a scheduler again is nothing. -/
  again : ∀ id, ((h.run events).schedulerFailed id).schedulerFailed id
    = (h.run events).schedulerFailed id
  /-- So it is if the scheduler is not there any more. -/
  gone : ∀ id, (h.run events).pool.get? id = none →
    (h.run events).schedulerFailed id = h.run events
  /-- No number is shared before the greatest one has been given. -/
  unshared : h.lastConnection + accepted events ≤ maxConnection → ∀ c, h.Unshared c events

/-- **An engine that is down stays down.** -/
theorem failed_run {h : Hall} (hb : h.ledger.Balanced) {e : Event} {id : Int} (he : e.fails? = some id)
    (hup : h.crashed = false) (hthere : (h.pool.get? id).isSome) (future : List Event) :
    (h.run (e :: future)).Failed id := by
  obtain ⟨s, hs⟩ := Option.isSome_iff_exists.mp hthere
  have hstep : h.step e = h.take e := step_of_up hup e
  have hdown : ∃ s', (h.step e).pool.get? id = some s' ∧ s'.health = .down := by
    rw [hstep]
    cases e with
    | engineDown other =>
        cases he
        refine ⟨_, (get?_update h.pool id id _).trans ((if_pos rfl).trans
          (congrArg (Option.map _) hs)), ?_⟩
        dsimp only
        split
        · assumption
        · rfl
    | startupOver other =>
        cases he
        exact ⟨_, (get?_update h.pool id id _).trans ((if_pos rfl).trans
          (congrArg (Option.map _) hs)), rfl⟩
    | _ => cases he
  obtain ⟨s', hs', hdown⟩ := hdown
  intro s'' hs''
  have hwanes : Scheduler.Wanes s' s'' := wanes_run (balanced_step hb e) hs' hs''
  exact Bool.eq_false_iff.mpr fun halive =>
    Scheduler.isAlive_iff.mp halive (hwanes.health hdown)

/-- **An engine that is gone takes its rooms with it and nothing else**, at the end of any run. -/
theorem breakdowns_run (authenticator : Authenticator) (settings : Settings) (fingerprint : String)
    (epoch : Int) (events : List Event) :
    (new authenticator settings fingerprint epoch).Breakdowns events := by
  have hb := balanced_new authenticator settings fingerprint epoch
  have hb' := balanced_run hb events
  exact {
    lasting := by
      intro past e future id heq he hup hthere
      rw [heq, run_append]
      exact failed_run (balanced_run hb past) he hup hthere future
    confined := fun id hfailed => confined_schedulerFailed hb' hfailed
    home := by
      intro id c _ hunshared
      have ht := tracked_new authenticator settings fingerprint epoch c
      have hunrepeated := unrepeated_new authenticator settings fingerprint epoch c
      exact sentHome_schedulerFailed hb' (tracked_run hb ht hunshared)
        (unrepeated_run hb ht hunrepeated hunshared) id
    -- the scheduler is not in the pool any more
    again := by
      intro id
      refine schedulerFailed_of_none
        (Ledger.balanced_moves hb' (moves_schedulerFailed (k := 0) hb' id)) ?_
      rw [get?_schedulerFailed hb', if_pos rfl]
    gone := fun _ hnone => schedulerFailed_of_none hb' hnone
    unshared := unshared_of_few hb (unknown_new authenticator settings fingerprint epoch) }

/-- The engine of the room that the first player has and the second watches is gone. -/
theorem breakdowns_run_watched :
    let h := (new (.openToAll []) .initial "rules" 0).run (watched ++ [.engineDown 1000])
    (h.pool.get? 1000).isSome = true ∧ h.Failed 1000
      ∧ ([1, 2].map (h.schedulerFailed 1000).mail) = [1, 2].map fun c => h.mail c ++ Mail.engineGone :=
  ⟨by decide +kernel, (breakdowns_run (.openToAll []) .initial "rules" 0 _).lasting watched
    (.engineDown 1000) [] 1000 rfl rfl (by decide +kernel) (by decide +kernel), by decide +kernel⟩

end Hall

end GameHall
