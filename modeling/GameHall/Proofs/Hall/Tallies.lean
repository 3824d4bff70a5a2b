import GameHall.Proofs.Hall.Docket

/-!
# Whom an event bans

An address is banned on command, or because a player there has gone from a game that its engine would
have gone on with. What follows an event through to its bans is the same whatever is asked of them, the
bans that are noted or whether one has an end: any relation that is made up of bans (`Tallies`) holds of
every event and the addresses that it bans (`Tallies.take`).
-/

namespace GameHall

namespace Hall

open Scheduler

/-! ## Players who have run away -/

/-- The player of a connection is gone, and was at an address. -/
def GoneFrom (h : Hall) (c : Int) (a : Host) : Prop :=
  ∃ s, h.session? c = some s ∧ s.isOnline = false ∧ s.link.host = a

/-- A player of a room at an address is gone from a game that its engine would have gone on with. -/
def RanFrom (h : Hall) (r : Int) (a : Host) : Prop :=
  ∃ x, h.room? r = some x ∧ h.isCurrent x.scheduler = true ∧ ∃ c ∈ x.players, h.GoneFrom c a

theorem goneFrom_of_session {h g : Hall} {c : Int} (heq : g.session? c = h.session? c) (a : Host) :
    g.GoneFrom c a ↔ h.GoneFrom c a := by
  rw [GoneFrom, GoneFrom, heq]

/-- To send an observer back to the lobby makes nobody gone. -/
theorem goneFrom_releaseObserver (h : Hall) (d c : Int) (a : Host) :
    (h.releaseObserver d).GoneFrom c a ↔ h.GoneFrom c a := by
  have hsession : (h.releaseObserver d).session? c
      = if c = d then (h.session? d).map Registry.unwatched else h.session? c := by
    have heq := congrFun (congrArg Registry.session (registry_releaseObserver h d)) c
    refine heq.trans ((Function.update_apply h.session? d _ c).trans ?_)
    rw [Option.map_eq_bind]
    rfl
  by_cases heq : c = d
  · subst heq
    rw [if_pos rfl] at hsession
    rw [GoneFrom, GoneFrom, hsession]
    cases h.session? c with
    | none => simp
    | some s => simp [Registry.unwatched, Session.isOnline]
  · rw [if_neg heq] at hsession
    exact goneFrom_of_session hsession a

theorem goneFrom_releaseObservers (l : List Int) (h : Hall) (c : Int) (a : Host) :
    (l.foldl releaseObserver h).GoneFrom c a ↔ h.GoneFrom c a := by
  induction l generalizing h with
  | nil => exact Iff.rfl
  | cons d l ih => exact (ih _).trans (goneFrom_releaseObserver h d c a)

/-- Only the session of the player who is released may go. -/
theorem session_releasePlayer (h : Hall) (runaway : Bool) (d c : Int) :
    (h.releasePlayer runaway d).session? c
      = if c = d then (h.session? d).bind Registry.released else h.session? c :=
  (congrFun (congrArg Registry.session (registry_releasePlayer h runaway d)) c).trans
    (Function.update_apply h.session? d _ c)

/-- Whoever is gone when a player has been released is another, who was gone before. -/
theorem goneFrom_releasePlayer (h : Hall) (runaway : Bool) (d c : Int) (a : Host) :
    (h.releasePlayer runaway d).GoneFrom c a ↔ c ≠ d ∧ h.GoneFrom c a := by
  by_cases heq : c = d
  · refine iff_of_false (fun hgone => ?_) fun h => h.1 heq
    obtain ⟨s', hs', hoff, _⟩ := hgone
    rw [session_releasePlayer, if_pos heq] at hs'
    obtain ⟨s, _, hreleased⟩ := Option.bind_eq_some_iff.mp hs'
    unfold Registry.released at hreleased
    split at hreleased
    · rename_i honline
      cases hreleased
      exact absurd honline (Bool.eq_false_iff.mp hoff)
    · cases hreleased
  · rw [goneFrom_of_session ((session_releasePlayer h runaway d c).trans (if_neg heq))]
    exact (and_iff_right heq).symm

theorem bars_releasePlayer (h : Hall) (runaway : Bool) (c : Int) :
    Bars (fun a => runaway = true ∧ h.GoneFrom c a) h (h.releasePlayer runaway c) := by
  unfold releasePlayer
  split
  · rename_i hnone
    refine bars_none rfl fun a hgone => ?_
    obtain ⟨_, s, hs, _⟩ := hgone
    rw [hnone] at hs
    cases hs
  · rename_i s hs
    split
    · rename_i honline
      dsimp only
      refine bars_none ?_ fun a hgone => ?_
      · exact blind_docket.notify _ c _ _
      obtain ⟨_, s', hs', hoff, _⟩ := hgone
      cases hs.symm.trans hs'
      exact absurd honline (Bool.eq_false_iff.mp hoff)
    · rename_i hoff
      dsimp only
      have hwhere : ∀ a, (runaway = true ∧ h.GoneFrom c a) ↔ runaway = true ∧ a = s.link.host := by
        refine fun a => and_congr_right fun _ => ⟨?_, ?_⟩
        · rintro ⟨s', hs', _, rfl⟩
          cases hs.symm.trans hs'
          rfl
        · rintro rfl
          exact ⟨s, hs, Bool.eq_false_iff.mpr hoff, rfl⟩
      have hbars : Bars (fun a => runaway = true ∧ a = s.link.host) h
          (if runaway then h.ban s.link.host else h) := by
        split
        · rename_i hrun
          exact bars_congr (bars_ban h s.link.host) fun a => and_iff_right hrun
        · rename_i hrun
          exact bars_none rfl fun a h => hrun h.1
      exact bars_congr (bars_of_docket hbars rfl) hwhere

/-- The players of a room are released one after the other. One who stands in the list twice is gone
once. -/
theorem bars_releasePlayers (runaway : Bool) (l : List Int) (h : Hall) :
    Bars (fun a => runaway = true ∧ ∃ c ∈ l, h.GoneFrom c a) h
      (l.foldl (releasePlayer runaway) h) := by
  induction l generalizing h with
  | nil => exact bars_none rfl fun a ⟨_, c, hc, _⟩ => absurd hc List.not_mem_nil
  | cons d l ih =>
      refine bars_trans (bars_releasePlayer h runaway d) (ih _) fun a => ?_
      rw [← and_or_left]
      refine and_congr_right fun _ => ⟨?_, ?_⟩
      · rintro ⟨c, hc, hgone⟩
        by_cases heq : c = d
        · exact Or.inl (heq ▸ hgone)
        · exact Or.inr ⟨c, (List.mem_cons.mp hc).resolve_left heq,
            (goneFrom_releasePlayer h runaway d c a).mpr ⟨heq, hgone⟩⟩
      · rintro (hgone | ⟨c, hc, hgone⟩)
        · exact ⟨d, List.mem_cons_self, hgone⟩
        · exact ⟨c, List.mem_cons_of_mem _ hc, ((goneFrom_releasePlayer h runaway d c a).mp hgone).2⟩

/-- **The end of a room** bans the addresses of those who have run away from it. -/
theorem bars_finish (h : Hall) (r : Int) (x : Room) :
    Bars (fun a => h.isCurrent x.scheduler = true ∧ ∃ c ∈ x.players, h.GoneFrom c a) h
      (h.finish r x) := by
  have hobservers : (x.observers.foldl releaseObserver
      { h with rooms := Assoc.erase h.rooms r }).docket = h.docket := view_foldl blind_docket.releaseObserver _ _
  have hcurrent : (x.observers.foldl releaseObserver
      { h with rooms := Assoc.erase h.rooms r }).isCurrent x.scheduler = h.isCurrent x.scheduler :=
    (isCurrent_of_engines (view_foldl unpeopled_engines.releaseObserver _ x.observers) _).trans
      (isCurrent_of_engines rfl _)
  unfold finish
  dsimp only
  rw [hcurrent]
  refine bars_of_docket ?_ (blind_docket.releaseScheduler _ r x.scheduler)
  refine bars_after ((blind_docket.pool _ _).trans hobservers)
    (bars_congr (bars_releasePlayers _ x.players _) fun a => ?_)
  refine and_congr_right fun _ => exists_congr fun c => and_congr_right fun _ => ?_
  exact (goneFrom_releaseObservers x.observers { h with rooms := Assoc.erase h.rooms r } c a).symm

/-- Whoever has run away from a room was in it, and gone, while its scheduler was current. -/
theorem ranFrom_iff {h : Hall} {r : Int} {x : Room} (hx : h.room? r = some x) (a : Host) :
    h.RanFrom r a ↔ h.isCurrent x.scheduler = true ∧ ∃ c ∈ x.players, h.GoneFrom c a := by
  refine ⟨?_, fun hran => ⟨x, hx, hran⟩⟩
  rintro ⟨x', hx', hran⟩
  cases hx.symm.trans hx'
  exact hran

/-! ## What is made up of bans -/

/-- A relation between a hall, the addresses that are banned and the hall after it, that is made up of
bans. Of two things done in turn each bans whom it bans, and what leaves the docket alone bans nobody. -/
structure Tallies (R : (Host → Prop) → Hall → Hall → Prop) : Prop where
  still : ∀ {h g}, g.docket = h.docket → R (fun _ => False) h g
  trans : ∀ {P Q S h g k}, R P h g → R Q g k → (∀ a, S a ↔ P a ∨ Q a) → R S h k
  ban : ∀ h host, R (fun a => a = host) h (h.ban host)
  /-- The end of a room bans those who have run away from it. -/
  finish : ∀ {h r x}, h.room? r = some x → R (h.RanFrom r) h (h.finish r x)

theorem tallies_bars : Tallies Bars where
  still := bars_still
  trans := bars_trans
  ban := bars_ban
  finish := fun hx => bars_congr (bars_finish _ _ _) (ranFrom_iff hx)

theorem not_ranFrom {h : Hall} {r : Int} (hx : h.room? r = none) (a : Host) : ¬ h.RanFrom r a := by
  intro hran
  obtain ⟨x, hx', _⟩ := hran
  cases hx.symm.trans hx'

namespace Tallies

variable {R : (Host → Prop) → Hall → Hall → Prop} {P Q : Host → Prop} {h g k : Hall} (hR : Tallies R)
include hR

theorem congr (hP : R P h g) (hPQ : ∀ a, Q a ↔ P a) : R Q h g :=
  hR.trans hP (hR.still rfl) fun a => (hPQ a).trans (or_iff_left id).symm

theorem nobody (heq : g.docket = h.docket) (hP : ∀ a, ¬ P a) : R P h g :=
  hR.congr (hR.still heq) fun a => iff_false_intro (hP a)

/-- What leaves the docket alone may come before, -/
theorem after (heq : g.docket = h.docket) (hP : R P g k) : R P h k :=
  hR.trans (hR.still heq) hP fun _ => (or_iff_right id).symm

/-- or after. -/
theorem before (hP : R P h g) (heq : k.docket = g.docket) : R P h k :=
  hR.trans hP (hR.still heq) fun _ => (or_iff_left id).symm

theorem finishRoom (h : Hall) (r : Int) : R (h.RanFrom r) h (h.finishRoom r).2 := by
  unfold Hall.finishRoom existingRoom
  cases hx : h.room? r with
  | none => exact hR.nobody rfl (not_ranFrom hx)
  | some x => exact hR.finish hx

end Tallies

/-! ## The end of an engine -/

/-- What the players of a lost room are told is all that is done before the room ends. -/
theorem frame_loseRoom (h : Hall) (x : Room) :
    ((x.players ++ x.observers).foldl (fun h c => h.showError c engineGone) h).docket = h.docket
      ∧ ((x.players ++ x.observers).foldl (fun h c => h.showError c engineGone) h).registry
        = h.registry
      ∧ ((x.players ++ x.observers).foldl (fun h c => h.showError c engineGone) h).engines
        = h.engines :=
  ⟨view_foldl (fun h c => blind_docket.showError h c _) h _,
    view_foldl (fun h c => wireless_registry.showError h c _) h _,
    view_foldl (fun h c => unpeopled_engines.showError h c _) h _⟩

theorem ranFrom_of_frame {h g : Hall} (hregistry : g.registry = h.registry)
    (hengines : g.engines = h.engines) (r : Int) (a : Host) : g.RanFrom r a ↔ h.RanFrom r a := by
  have hroom : g.room? r = h.room? r := congrFun (congrArg Registry.room hregistry) r
  have hgone : ∀ c, g.GoneFrom c a ↔ h.GoneFrom c a := fun c =>
    goneFrom_of_session (congrFun (congrArg Registry.session hregistry) c) a
  unfold RanFrom
  rw [hroom]
  simp only [isCurrent_of_engines hengines, hgone]

theorem Tallies.loseRoom {R : (Host → Prop) → Hall → Hall → Prop} (hR : Tallies R) (h : Hall) (r : Int) :
    R (h.RanFrom r) h (h.loseRoom r) := by
  cases hx : h.room? r with
  | none =>
      rw [Hall.loseRoom, hx]
      exact hR.nobody rfl (not_ranFrom hx)
  | some x =>
      obtain ⟨hdocket, hregistry, hengines⟩ := frame_loseRoom h x
      have hx' := (congrFun (congrArg Registry.room hregistry) r).trans hx
      rw [Hall.loseRoom, hx]
      exact hR.after hdocket (hR.congr (hR.finish hx') fun a =>
        (ranFrom_of_frame hregistry hengines r a).symm)

/-- What is left when a room has ended: the other rooms, and those who were not players of it. -/
theorem left_loseRoom {h : Hall} {r : Int} {x : Room} (hx : h.room? r = some x) :
    (∀ other, (h.loseRoom r).isCurrent other = h.isCurrent other)
      ∧ (h.loseRoom r).registry = h.registry.endRoom r x := by
  obtain ⟨_, hregistry, hengines⟩ := frame_loseRoom h x
  unfold loseRoom
  rw [hx]
  refine ⟨fun other => (isCurrent_finish _ other r x).trans (isCurrent_of_engines hengines other), ?_⟩
  exact (registry_finish _ r x).trans (by rw [hregistry])

/-- Of the rooms of one scheduler, those whose players have run away are the first and those of the
rest whose players have run away when the first has ended. -/
theorem ranFrom_loseRoom {h : Hall} {id : Int} {l : List Int} {r : Int} {x : Room}
    (hx : h.room? r = some x) (hid : x.scheduler = id)
    (hl : ∀ q ∈ l, ∀ y, h.room? q = some y → y.scheduler = id) (a : Host) :
    (∃ q ∈ r :: l, h.RanFrom q a) ↔ h.RanFrom r a ∨ ∃ q ∈ l, (h.loseRoom r).RanFrom q a := by
  obtain ⟨hcurrent, hregistry⟩ := left_loseRoom hx
  have hroom : ∀ q, (h.loseRoom r).room? q = if q = r then none else h.room? q := fun q =>
    (congrFun (congrArg Registry.room hregistry) q).trans (Function.update_apply h.room? r none q)
  have hsession : ∀ c, (h.loseRoom r).session? c = (h.registry.endRoom r x).session c := fun c =>
    congrFun (congrArg Registry.session hregistry) c
  constructor
  · rintro ⟨q, hq, hran⟩
    by_cases heq : q = r
    · exact Or.inl (heq ▸ hran)
    have hmem := (List.mem_cons.mp hq).resolve_left heq
    obtain ⟨y, hy, hup, c, hc, hgone⟩ := hran
    -- one who is a player of the first room as well is banned with the first room
    by_cases hboth : c ∈ x.players
    · refine Or.inl ⟨x, hx, ?_, c, hboth, hgone⟩
      rw [hid, ← hl q hmem y hy]
      exact hup
    · refine Or.inr ⟨q, hmem, y, by rw [hroom, if_neg heq, hy], by rw [hcurrent, hup], c, hc, ?_⟩
      obtain ⟨s, hs, hoff, ha⟩ := hgone
      have hs' : h.registry.session c = some s := hs
      have hleft := hsession c
      rw [Registry.session_endRoom, if_neg hboth, hs'] at hleft
      split at hleft
      · exact ⟨Registry.unwatched s, hleft, hoff, ha⟩
      · exact ⟨s, hleft, hoff, ha⟩
  · rintro (hran | ⟨q, hq, y, hy, hup, c, hc, s', hs', hoff, ha⟩)
    · exact ⟨r, List.mem_cons_self, hran⟩
    · rw [hroom] at hy
      split at hy
      · cases hy
      rw [hcurrent] at hup
      refine ⟨q, List.mem_cons_of_mem _ hq, y, hy, hup, c, hc, ?_⟩
      rw [hsession, Registry.session_endRoom] at hs'
      cases hs : h.registry.session c with
      | none => simp [hs] at hs'
      | some s =>
          refine ⟨s, hs, ?_⟩
          rw [hs] at hs'
          split at hs'
          · -- who is released is connected
            obtain ⟨s₁, _, hreleased⟩ := Option.bind_eq_some_iff.mp hs'
            rw [Registry.online_released hreleased] at hoff
            cases hoff
          · split at hs'
            · cases hs'
              exact ⟨hoff, ha⟩
            · cases hs'
              exact ⟨hoff, ha⟩

namespace Tallies

variable {R : (Host → Prop) → Hall → Hall → Prop} (hR : Tallies R)
include hR

theorem loseRooms (id : Int) (l : List Int) {h : Hall}
    (hl : ∀ q ∈ l, ∀ y, h.room? q = some y → y.scheduler = id) :
    R (fun a => ∃ r ∈ l, h.RanFrom r a) h (l.foldl Hall.loseRoom h) := by
  induction l generalizing h with
  | nil =>
      refine hR.nobody rfl fun a hran => ?_
      obtain ⟨r, hr, _⟩ := hran
      cases hr
  | cons r l ih =>
      have hrest : ∀ q ∈ l, ∀ y, h.room? q = some y → y.scheduler = id := fun q hq =>
        hl q (List.mem_cons_of_mem _ hq)
      cases hx : h.room? r with
      | none =>
          have hstill : h.loseRoom r = h := by rw [Hall.loseRoom, hx]
          rw [List.foldl_cons, hstill]
          refine hR.congr (ih hrest) fun a => ?_
          rw [List.exists_mem_cons_iff]
          exact or_iff_right (not_ranFrom hx a)
      | some x =>
          refine hR.trans (hR.loseRoom h r) (ih fun q hq y hy => ?_) fun a =>
            ranFrom_loseRoom hx (hl r List.mem_cons_self x hx) hrest a
          -- a room that is left was there before, and under the same scheduler
          have hroom := congrFun (congrArg Registry.room (left_loseRoom hx).2) q
          have hy' : Function.update h.room? r none q = some y := hroom.symm.trans hy
          rw [Function.update_apply] at hy'
          split at hy'
          · cases hy'
          · exact hrest q hq y hy'

theorem schedulerFailed {h : Hall} (hb : h.ledger.Balanced) (id : Int) :
    R (fun a => ∃ r ∈ h.roomsOf id, h.RanFrom r a) h (h.schedulerFailed id) := by
  refine hR.before (hR.loseRooms id _ fun q hq y hy => ?_) (blind_docket.retire _ id)
  obtain ⟨y', hy', hid⟩ := scheduler_of_mem_roomsOf hb hq
  cases hy.symm.trans hy'
  exact hid

/-! ## The end of a connection -/

/-- A room that ends because it is abandoned has no current scheduler, so nobody has run away. -/
theorem checkAbandoned (h : Hall) (r : Int) : R (fun _ => False) h (h.checkAbandoned r) := by
  unfold Hall.checkAbandoned
  split
  · exact hR.still rfl
  · rename_i x hx
    split
    · exact hR.still rfl
    · dsimp only
      split
      · exact hR.still (blind_docket.signal (h.askCurrent _) _ _)
      · rename_i hstale
        refine hR.after (g := h.askCurrent x.scheduler) rfl
          (hR.congr (hR.finishRoom _ r) fun a => iff_of_false id fun hran => hstale ?_)
        have hx' : (h.askCurrent x.scheduler).room? r = some x := hx
        rw [← isCurrent_askCurrent h x.scheduler x.scheduler]
        exact ((ranFrom_iff hx' a).mp hran).1

/-- Nobody is banned for leaving a seat, not even when the room ends. -/
theorem leaveSeat (h : Hall) (c r : Int) : R (fun _ => False) h (h.leaveSeat c r) := by
  unfold Hall.leaveSeat
  dsimp only
  refine hR.after ?_ (hR.checkAbandoned _ r)
  split
  · rfl
  · rw [blind_docket.signal, blind_docket.signal]
    rfl

theorem leave (h : Hall) (c : Int) : R (fun _ => False) h (h.leave c) := by
  unfold Hall.leave
  split
  · exact hR.still rfl
  · dsimp only
    split
    · exact hR.still rfl
    · refine hR.after ?_ (hR.leaveSeat _ c _)
      exact blind_docket.session h c _ (fun _ => rfl) fun _ => rfl

theorem closed (h : Hall) (c : Int) : R (fun _ => False) h (h.closed c) := by
  unfold Hall.closed
  split
  · exact hR.still rfl
  · exact hR.after (blind_docket.stopObserving h c) (hR.leave _ c)

theorem temporarilyBan (h : Hall) (c : Int) :
    R (fun a => ∃ l, h.link? c = some l ∧ l.host = a) h (h.temporarilyBan c) := by
  unfold Hall.temporarilyBan
  dsimp only
  refine hR.before ?_ (blind_docket.kick _ c)
  cases hl : h.link? c with
  | none =>
      refine hR.nobody rfl fun a hlinked => ?_
      obtain ⟨l, hl', _⟩ := hlinked
      cases hl'
  | some l =>
      refine hR.congr (hR.ban h l.host) fun a => ?_
      simp [eq_comm]

end Tallies

/-! ## What an event does to the bans -/

/-- An event bans an address: on command, or because a player there has run away from a room that it
ends. -/
def Bans (h : Hall) (e : Event) (a : Host) : Prop :=
  match e with
  | .temporarilyBan c => ∃ l, h.link? c = some l ∧ l.host = a
  | .effect (.ban c) => ∃ l, h.link? c = some l ∧ l.host = a
  | .finishRoom r => h.RanFrom r a
  | .schedulerFailed id => ∃ r ∈ h.roomsOf id, h.RanFrom r a
  | _ => False

/-- Whether an event does more to the docket than to ban: the clock goes on, settings are reloaded, or the
bans that are over are forgotten. -/
def Event.isUpkeep : Event → Bool
  | pass _ | reloadSettings _ | record _ _ => true
  | _ => false

namespace Tallies

variable {R : (Host → Prop) → Hall → Hall → Prop} (hR : Tallies R)
include hR

theorem effect (h : Hall) (call : HostCall) : R (h.Bans (.effect call)) h (h.effect call) := by
  cases call with
  | notify c command payload =>
      refine hR.still ?_
      simp only [Hall.effect]
      split
      · exact blind_docket.deliver h c _ _
      · rfl
  | request c command payload timeout timestamp =>
      exact hR.still (blind_docket.ask h c command payload timeout timestamp)
  | kick c => exact hR.still (blind_docket.kick h c)
  | ban c => exact hR.temporarilyBan h c
  | _ => exact hR.still rfl

/-- **An event is made up of its bans**, unless it is one of upkeep. -/
theorem take {h : Hall} (hb : h.ledger.Balanced) {e : Event} (he : e.isUpkeep = false) :
    R (h.Bans e) h (h.take e) := by
  cases e with
  | pass span => cases he
  | reloadSettings reading => cases he
  | record c record => cases he
  | closed c => exact hR.closed h c
  | finishRoom r => exact hR.finishRoom h r
  | schedulerFailed id => exact hR.schedulerFailed hb id
  | effect call => exact hR.effect h call
  | temporarilyBan c => exact hR.temporarilyBan h c
  | accept host => exact hR.still (blind_docket.accept h host)
  | expireSignUp c => exact hR.still (blind_docket.expireSignUp h c)
  | shut c => exact hR.still rfl
  | shutSoon c => exact hR.still rfl
  | lobby c request canSpawn => exact hR.still (blind_docket.put h c canSpawn request)
  | showError c words => exact hR.still (blind_docket.showError h c words)
  | createRoom owner name canSpawn => exact hR.still (blind_docket.createRoom h owner name canSpawn)
  | seatPlayer c r => exact hR.still (blind_docket.seatPlayer h c r)
  | observeRoom c r => exact hR.still (blind_docket.observeRoom h c r)
  | engineUp scheduler => exact hR.still rfl
  | engineDown scheduler => exact hR.still rfl
  | startupOver scheduler => exact hR.still rfl
  | refreshFingerprint reading => exact hR.still (blind_docket.refreshFingerprint h reading)
  | kick c => exact hR.still (blind_docket.kick h c)

end Tallies

/-- An event bans an address at a moment, for some minutes. -/
structure BansAt (h : Hall) (e : Event) (a : Host) (t : Moment) (m : Nat) : Prop where
  up : h.crashed = false
  bans : h.Bans e a
  moment : h.now = t
  time : h.settings.tempBanTime = m
  pos : 0 < m

/-- What is noted of an address is replaced by a new ban, or forgotten when it is over. -/
structure Heeds (h : Hall) (e : Event) (g : Hall) : Prop where
  now : h.now ≤ g.now
  once : (Assoc.keys h.bans).Nodup → (Assoc.keys g.bans).Nodup
  banned : ∀ a, h.Bans e a → 0 < h.settings.tempBanTime → g.crashed = false →
    Assoc.get? g.bans a = some (h.now + minutes h.settings.tempBanTime)
  kept : (Assoc.keys h.bans).Nodup → ∀ a, ¬ (h.Bans e a ∧ 0 < h.settings.tempBanTime) → ∀ t,
    Assoc.get? h.bans a = some t → Assoc.get? g.bans a = some t ∨ t ≤ g.now
  fresh : (Assoc.keys h.bans).Nodup → ∀ a, ¬ (h.Bans e a ∧ 0 < h.settings.tempBanTime) → ∀ t,
    Assoc.get? g.bans a = some t → Assoc.get? h.bans a = some t

theorem heeds_of_bars {h g : Hall} {e : Event} (hbars : Bars (h.Bans e) h g) : Heeds h e g where
  now := Nat.le_of_eq hbars.now.symm
  once := hbars.once
  banned := hbars.banned
  kept := fun _ a ha _ ht => Or.inl ((hbars.spared a ha).trans ht)
  fresh := fun _ a ha _ ht => (hbars.spared a ha).symm.trans ht

/-- An event that bans nobody, and leaves the bans. -/
theorem heeds_quiet {h g : Hall} {e : Event} (hnone : ∀ a, ¬ h.Bans e a) (hnow : h.now ≤ g.now)
    (hbans : g.bans = h.bans) : Heeds h e g where
  now := hnow
  once := by
    rw [hbans]
    exact id
  banned := fun a ha => absurd ha (hnone a)
  kept := fun _ a _ t ht => Or.inl (hbans ▸ ht)
  fresh := fun _ a _ t ht => hbans ▸ ht

/-- An event that bans nobody and leaves the docket alone is heeded. -/
theorem heeds_still {h g : Hall} {e : Event} (hnone : ∀ a, ¬ h.Bans e a)
    (heq : g.docket = h.docket) : Heeds h e g :=
  heeds_quiet hnone (Nat.le_of_eq (congrArg Docket.now heq).symm) (congrArg Docket.bans heq)

/-- A sign-up that is looked at lets the bans that are over be forgotten. -/
theorem heeds_hear (h : Hall) (c : Int) (record : Record) :
    Heeds h (.record c record) (h.hear c record) := by
  rcases docket_hear h c record with heq | heq
  · exact heeds_still (fun _ => id) heq
  · have hnow : (h.hear c record).now = h.now := congrArg Docket.now heq
    have hbans : (h.hear c record).bans = h.currentBans := congrArg Docket.bans heq
    refine ⟨Nat.le_of_eq hnow.symm, ?_, fun a ha => ha.elim, ?_, ?_⟩
    · rw [hbans]
      exact fun honce => Assoc.nodup_filter honce _
    · intro honce a _ t ht
      rw [hnow, hbans]
      rcases Nat.lt_or_ge h.now t with hlt | hle
      · refine Or.inl ((Assoc.get?_eq_some_iff (Assoc.nodup_filter honce _)).mpr ?_)
        exact List.mem_filter.mpr ⟨(Assoc.get?_eq_some_iff honce).mp ht, decide_eq_true hlt⟩
      · exact Or.inr hle
    · intro honce a _ t ht
      rw [hbans] at ht
      exact (Assoc.get?_eq_some_iff honce).mpr (List.mem_of_mem_filter (Assoc.mem_of_get? ht))

theorem heeds_take {h : Hall} (hb : h.ledger.Balanced) (e : Event) : Heeds h e (h.take e) := by
  cases e with
  | pass span => exact heeds_quiet (fun _ => id) (Nat.le_add_right _ _) rfl
  | reloadSettings reading =>
      refine heeds_quiet (fun _ => id) ?_ ?_ <;> cases reading
      · exact Nat.le_refl _
      · exact Nat.le_refl _
      · rfl
      · rfl
  | record c record => exact heeds_hear h c record
  | _ => exact heeds_of_bars (tallies_bars.take hb rfl)

end Hall

end GameHall
