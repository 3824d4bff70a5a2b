import GameHall.Proofs.Hall.Ledger
import GameHall.Proofs.Hall.Views

/-!
# Rooms on schedulers

The ledger of a hall (`Hall.ledger`) says which scheduler hosts a room and how many rooms it counts. Most
operations leave it alone. The end of a room changes it, and may retire the scheduler, and so does upkeep,
which retires schedulers that host none: always in the ways of `Ledger.Move`.
-/

namespace GameHall

/-- What is counted with a scheduler. -/
def Scheduler.account (s : Scheduler) : Account := ⟨s.rooms, s.capacity⟩

namespace Scheduler

/-- Whether a scheduler is current is not counted. -/
theorem account_check (s : Scheduler) (current : String) : (s.check current).account = s.account := by
  unfold check
  split <;> rfl

theorem account_ask (s : Scheduler) (current : String) : (s.ask current).account = s.account := by
  unfold ask
  split
  · exact account_check s current
  · rfl

end Scheduler

namespace Hall

/-- The ledger of a hall. -/
def ledger (h : Hall) : Ledger where
  hosts := Assoc.mapValues Room.scheduler h.rooms
  nextRoom := h.nextRoom
  accounts := Assoc.mapValues Scheduler.account h.pool.schedulers
  nextId := h.pool.nextId

variable {k : Nat}

/-! ## What leaves the ledger alone -/

section frame

variable (h : Hall)

/-- The ledger sees nothing of the people. -/
theorem unpeopled_ledger : Unpeopled ledger where
  frame := fun _ _ _ => rfl
  close := fun _ _ => rfl
  sessions := fun _ _ => rfl
  pending := fun _ _ => rfl
  lastConnection := fun _ _ => rfl
  asked := fun _ _ => rfl
  bans := fun _ _ => rfl
  crashed := fun _ _ => rfl

/-- A change of a room that leaves it where it is. -/
theorem ledger_updateRoom (r : Int) {f : Room → Room} (hf : ∀ x, (f x).scheduler = x.scheduler) :
    (h.updateRoom r f).ledger = h.ledger := by
  have hm := Assoc.mapValues_update_of_eq hf h.rooms r
  exact congrArg (fun m => { h.ledger with hosts := m }) hm

/-- A change of a scheduler that leaves its count alone. -/
theorem ledger_updateScheduler (id : Int) {f : Scheduler → Scheduler}
    (hf : ∀ s, (f s).account = s.account) :
    ({ h with pool := h.pool.update id f } : Hall).ledger = h.ledger := by
  have hm := Assoc.mapValues_update_of_eq hf h.pool.schedulers id
  exact congrArg (fun m => { h.ledger with accounts := m }) hm

@[simp] theorem ledger_act (a : Act) : (h.act a).ledger = h.ledger := rfl

/-- A signal may mark a scheduler, which is not counted either. -/
@[simp] theorem ledger_signal (id : Int) (s : Signal) : (h.signal id s).ledger = h.ledger := by
  unfold signal
  split
  · rfl
  · split
    · rfl
    · exact ledger_updateScheduler h id fun _ => rfl

@[simp] theorem ledger_askCurrent (id : Int) : (h.askCurrent id).ledger = h.ledger := by
  refine ledger_updateScheduler h id fun s => ?_
  split
  · exact Scheduler.account_check s _
  · rfl

/-- A room counts the same, whoever sits in it. -/
theorem ledger_seat (c r : Int) (s : Session) (x : Room) :
    (h.seat c r s x).ledger = h.ledger := by
  unfold seat
  dsimp only
  rw [unpeopled_ledger.notify, ledger_signal, ledger_updateRoom, unpeopled_ledger.updateSession]
  exact fun _ => rfl

theorem ledger_watch (c r : Int) (s : Session) (x : Room) :
    (h.watch c r s x).ledger = h.ledger := by
  unfold watch
  dsimp only
  rw [unpeopled_ledger.notify, ledger_signal, ledger_updateRoom, unpeopled_ledger.updateSession]
  exact fun _ => rfl

theorem ledger_seatPlayer (c r : Int) : (h.seatPlayer c r).2.ledger = h.ledger := by
  unfold seatPlayer
  split
  · rfl
  · rfl
  · exact ledger_seat h c r _ _

theorem ledger_observeRoom (c r : Int) : (h.observeRoom c r).2.ledger = h.ledger := by
  unfold observeRoom
  split
  · rfl
  · rfl
  · exact ledger_watch h c r _ _

/-- What is reported of an engine changes no count. -/
theorem ledger_setHealth (id : Int) (health : Health) :
    (h.setHealth id health).ledger = h.ledger := by
  refine ledger_updateScheduler h id fun s => ?_
  split <;> rfl

theorem ledger_stopObserving (c : Int) : (h.stopObserving c).ledger = h.ledger := by
  unfold stopObserving
  split
  · rfl
  · split
    · rfl
    · dsimp only
      split
      · rw [unpeopled_ledger.notify, unpeopled_ledger.updateSession]
      · rw [ledger_signal, ledger_updateRoom, unpeopled_ledger.notify, unpeopled_ledger.updateSession]
        exact fun _ => rfl

theorem ledger_pass (c : Int) (place : Place) (command payload : Octets) :
    (h.pass c place command payload).ledger = h.ledger := by
  have hforward : ∀ r, (h.forward c r command payload).ledger = h.ledger := by
    intro r
    unfold forward
    split
    · exact ledger_signal h _ _
    · rfl
  cases place with
  | lobby => rfl
  | seated r => exact hforward r
  | watching r =>
      simp only [pass]
      split
      · exact ledger_stopObserving h c
      · exact hforward r

theorem ledger_hear (c : Int) (record : Record) : (h.hear c record).ledger = h.ledger := by
  unfold hear
  split
  · exact unpeopled_ledger.judge _ c _ record
  · unfold route
    split
    · rfl
    · dsimp only
      split
      · rfl
      · exact ledger_pass _ c _ _ _
      · exact ledger_pass _ c _ _ _

end frame

/-! ## The end of a room -/

open Ledger in
/-- A scheduler that hosts no room may go. -/
theorem moves_remove {h : Hall} (hb : h.ledger.Balanced) {id : Int}
    (hidle : ∀ a, Assoc.get? h.ledger.accounts id = some a → a.rooms = 0) :
    Moves k h.ledger ({ h with pool := h.pool.remove id } : Hall).ledger := by
  have herase : ({ h with pool := h.pool.remove id } : Hall).ledger
      = { h.ledger with accounts := Assoc.erase h.ledger.accounts id } := by
    have hm := Assoc.mapValues_erase Scheduler.account h.pool.schedulers id
    exact congrArg (fun m => { h.ledger with accounts := m }) hm
  rw [herase]
  refine Relation.ReflTransGen.single (Move.retire List.filter_sublist ?_)
  intro e he hgone
  have heq : e.1 = id := by
    by_contra hne
    exact hgone (List.mem_filter.mpr ⟨he, decide_eq_true hne⟩)
  exact hidle e.2 (heq ▸ (Assoc.get?_eq_some_iff hb.accountsOnce).mpr he)

open Ledger in
theorem moves_retire {h : Hall} (hb : h.ledger.Balanced) {id : Int}
    (hidle : ∀ a, Assoc.get? h.ledger.accounts id = some a → a.rooms = 0) :
    Moves k h.ledger (h.retire id).ledger := by
  unfold retire
  split
  · exact moves_remove hb hidle
  · exact Relation.ReflTransGen.refl

theorem account_of_get? {h : Hall} {id : Int} {s : Scheduler} (hs : h.pool.get? id = some s) :
    Assoc.get? h.ledger.accounts id = some s.account := by
  have hget := Assoc.get?_mapValues Scheduler.account h.pool.schedulers id
  rw [show Assoc.get? h.pool.schedulers id = some s from hs] at hget
  exact hget

open Ledger in
/-- A scheduler is retired only if it hosts no room. -/
theorem moves_retireIdle {h : Hall} (hb : h.ledger.Balanced) (id : Int) :
    Moves k h.ledger (h.retireIdle id).ledger := by
  unfold retireIdle
  split
  · exact Relation.ReflTransGen.refl
  · rename_i s hs
    split
    · rename_i hzero
      -- the scheduler is asked whether it is outdated before it goes
      have hcheck := ledger_updateScheduler h id fun s => Scheduler.account_check s h.fingerprint
      dsimp only
      split
      · rw [← hcheck] at hb ⊢
        refine moves_retire hb ?_
        intro a ha
        rw [hcheck, account_of_get? hs] at ha
        cases ha
        exact hzero
      · rw [hcheck]
    · exact Relation.ReflTransGen.refl

theorem ledger_addRoom (h : Hall) (id : Int) :
    ({ h with pool := h.pool.update id Scheduler.addRoom } : Hall).ledger
      = { h.ledger with accounts := Assoc.update h.ledger.accounts id Account.more } := by
  have hf : ∀ s, Scheduler.account (Scheduler.addRoom s) = Account.more s.account := fun _ => rfl
  have hm := Assoc.mapValues_update hf h.pool.schedulers id
  exact congrArg (fun m => { h.ledger with accounts := m }) hm

theorem ledger_removeRoom (h : Hall) (id : Int) :
    ({ h with pool := h.pool.update id Scheduler.removeRoom } : Hall).ledger
      = { h.ledger with accounts := Assoc.update h.ledger.accounts id Account.less } := by
  have hf : ∀ s, Scheduler.account (Scheduler.removeRoom s) = Account.less s.account := fun _ => rfl
  have hm := Assoc.mapValues_update hf h.pool.schedulers id
  exact congrArg (fun m => { h.ledger with accounts := m }) hm

theorem ledger_eraseRoom (h : Hall) (r : Int) :
    ({ h with rooms := Assoc.erase h.rooms r } : Hall).ledger
      = { h.ledger with hosts := Assoc.erase h.ledger.hosts r } := by
  have hm := Assoc.mapValues_erase Room.scheduler h.rooms r
  exact congrArg (fun m => { h.ledger with hosts := m }) hm

theorem host_of_room? {h : Hall} {r : Int} {x : Room} (hx : h.room? r = some x) :
    Assoc.get? h.ledger.hosts r = some x.scheduler := by
  have hget := Assoc.get?_mapValues Room.scheduler h.rooms r
  rw [show Assoc.get? h.rooms r = some x from hx] at hget
  exact hget

/-- Everyone leaves a room that ends before its scheduler is looked at. -/
theorem finish_eq (h : Hall) (r : Int) (x : Room) :
    ∃ g : Hall, h.finish r x = g.retireIdle x.scheduler ∧ g.ledger = { h.ledger with
      hosts := Assoc.erase h.ledger.hosts r
      accounts := Assoc.update h.ledger.accounts x.scheduler Account.less } := by
  unfold finish releaseScheduler
  dsimp only
  refine ⟨_, rfl, ?_⟩
  rw [ledger_removeRoom, ledger_signal, ledger_signal,
    view_foldl fun h c => unpeopled_ledger.releasePlayer h _ c, ledger_askCurrent,
    view_foldl unpeopled_ledger.releaseObserver, ledger_eraseRoom]

theorem hosts_retireIdle (h : Hall) (id : Int) :
    (h.retireIdle id).ledger.hosts = h.ledger.hosts := by
  unfold retireIdle
  split
  · rfl
  · split
    · dsimp only
      split
      · unfold retire
        split <;> rfl
      · rfl
    · rfl

/-- A room that ends is hosted no more, and the others are where they were. -/
theorem hosts_finish (h : Hall) (r : Int) (x : Room) :
    (h.finish r x).ledger.hosts = Assoc.erase h.ledger.hosts r := by
  obtain ⟨g, heq, hg⟩ := finish_eq h r x
  rw [heq, hosts_retireIdle, hg]

open Ledger in
/-- **A room ends** and is counted no more. -/
theorem moves_finish {h : Hall} (hb : h.ledger.Balanced) {r : Int} {x : Room}
    (hx : Assoc.get? h.ledger.hosts r = some x.scheduler) :
    Moves k h.ledger (h.finish r x).ledger := by
  obtain ⟨g, heq, hg⟩ := finish_eq h r x
  have hmove : Move k h.ledger g.ledger := by
    rw [hg]
    exact Move.finish hx
  rw [heq]
  exact Relation.ReflTransGen.head hmove (moves_retireIdle (balanced_move hb hmove) _)

open Ledger in
theorem moves_finishRoom {h : Hall} (hb : h.ledger.Balanced) (r : Int) :
    Moves k h.ledger (h.finishRoom r).2.ledger := by
  unfold finishRoom existingRoom
  cases hx : h.room? r with
  | none => exact Relation.ReflTransGen.refl
  | some x => exact moves_finish hb (host_of_room? hx)

open Ledger in
theorem moves_checkAbandoned {h : Hall} (hb : h.ledger.Balanced) (r : Int) :
    Moves k h.ledger (h.checkAbandoned r).ledger := by
  unfold checkAbandoned
  split
  · exact Relation.ReflTransGen.refl
  · rename_i x _
    split
    · exact Relation.ReflTransGen.refl
    · dsimp only
      split
      · rw [ledger_signal, ledger_askCurrent]
      · have hask := ledger_askCurrent h x.scheduler
        have hfinish := moves_finishRoom (k := k) (hask.symm ▸ hb) r
        rwa [hask] at hfinish

open Ledger in
theorem moves_leaveSeat {h : Hall} (hb : h.ledger.Balanced) (c r : Int) :
    Moves k h.ledger (h.leaveSeat c r).ledger := by
  have hcheck : ∀ g : Hall, g.ledger = h.ledger →
      Moves k h.ledger (g.checkAbandoned r).ledger := by
    intro g hg
    rw [← hg] at hb ⊢
    exact moves_checkAbandoned hb r
  unfold leaveSeat
  dsimp only
  refine hcheck _ ?_
  split
  · rfl
  · rw [ledger_signal, ledger_signal, unpeopled_ledger.updateSession]

open Ledger in
/-- The end of a connection may be the end of a room. -/
theorem moves_closed {h : Hall} (hb : h.ledger.Balanced) (c : Int) :
    Moves k h.ledger (h.closed c).ledger := by
  unfold closed
  split
  · exact Relation.ReflTransGen.refl
  · have hstop := ledger_stopObserving h c
    rw [← hstop] at hb ⊢
    unfold leave
    split
    · exact Relation.ReflTransGen.refl
    · dsimp only
      split
      · exact Relation.ReflTransGen.refl
      · exact moves_leaveSeat (h := (h.stopObserving c).updateSession c _) hb c _

/-! ## Sweeping -/

open Ledger in
/-- Sweeping the pool retires schedulers that host no room. -/
theorem moves_sweep (h : Hall) : Moves k h.ledger h.sweep.ledger := by
  have hcheck : ∀ (m : Assoc Int Scheduler), Assoc.mapValues Scheduler.account
      (Assoc.mapValues (fun s => s.check h.fingerprint) m) = Assoc.mapValues Scheduler.account m := by
    intro m
    rw [Assoc.mapValues, Assoc.mapValues, List.map_map]
    exact List.map_congr_left fun e _ => by simp [Scheduler.account_check]
  have hledger : h.sweep.ledger = { h.ledger with
      accounts := Assoc.mapValues Scheduler.account (h.pool.schedulers.filter fun e =>
        !(e.2.isOutdated h.fingerprint && e.2.rooms == 0)) } := by
    unfold sweep
    rw [view_foldl fun h id => ledger_act h (.quit id), ← hcheck]
    rfl
  rw [hledger]
  refine Relation.ReflTransGen.single (Move.retire (List.filter_sublist.map _) ?_)
  -- only a scheduler without rooms fails the test
  intro e he hgone
  obtain ⟨⟨id, s⟩, hs, rfl⟩ := List.mem_map.mp he
  by_contra hrooms
  refine hgone (List.mem_map.mpr ⟨(id, s), List.mem_filter.mpr ⟨hs, ?_⟩, rfl⟩)
  have : (s.rooms == 0) = false := beq_eq_false_iff_ne.mpr hrooms
  simp [this]

/-! ## Upkeep -/

theorem mem_roomsOf {h : Hall} {r id : Int} (hr : Assoc.get? h.ledger.hosts r = some id) :
    r ∈ h.roomsOf id := by
  have hget := Assoc.get?_mapValues Room.scheduler h.rooms r
  obtain ⟨x, hx, hid⟩ := Option.map_eq_some_iff.mp (hget.symm.trans hr)
  refine List.mem_map.mpr ⟨(r, x), List.mem_filter.mpr ⟨Assoc.mem_of_get? hx, ?_⟩, rfl⟩
  exact decide_eq_true hid

/-- The ledger counts the rooms of a scheduler. -/
theorem hostedBy_ledger (h : Hall) (id : Int) : h.ledger.hostedBy id = (h.roomsOf id).length := by
  rw [roomsOf, List.length_map, ← List.countP_eq_length_filter]
  exact List.countP_map

theorem hosts_loseRoom (h : Hall) (r : Int) :
    (h.loseRoom r).ledger.hosts = Assoc.erase h.ledger.hosts r := by
  unfold loseRoom
  split
  · rename_i hx
    refine (Assoc.erase_of_not_mem ?_).symm
    have hget := Assoc.get?_mapValues Room.scheduler h.rooms r
    rw [show Assoc.get? h.rooms r = none from hx] at hget
    rw [Assoc.mem_keys_iff]
    show ¬ (Assoc.get? (Assoc.mapValues Room.scheduler h.rooms) r).isSome
    rw [hget]
    simp
  · dsimp only
    rw [hosts_finish, view_foldl fun h c => unpeopled_ledger.showError h c engineGone]

open Ledger in
theorem moves_loseRoom {h : Hall} (hb : h.ledger.Balanced) (r : Int) :
    Moves k h.ledger (h.loseRoom r).ledger := by
  unfold loseRoom
  split
  · exact Relation.ReflTransGen.refl
  · rename_i x hx
    dsimp only
    have hshow : ((x.players ++ x.observers).foldl (fun h c => h.showError c engineGone) h).ledger
        = h.ledger := view_foldl (fun h c => unpeopled_ledger.showError h c engineGone) h _
    have hhost := host_of_room? hx
    rw [← hshow] at hb hhost ⊢
    exact moves_finish hb hhost

open Ledger in
theorem moves_foldl_loseRoom {h : Hall} (hb : h.ledger.Balanced) (l : List Int) :
    Moves k h.ledger (l.foldl loseRoom h).ledger := by
  induction l generalizing h with
  | nil => exact Relation.ReflTransGen.refl
  | cons r l ih =>
      have hr := moves_loseRoom (k := k) hb r
      exact hr.trans (ih (balanced_moves hb hr))

/-- The rooms that are left when some are lost are the others. -/
theorem hosts_foldl_loseRoom {h : Hall} {l : List Int} {r id : Int}
    (hr : Assoc.get? (l.foldl loseRoom h).ledger.hosts r = some id) :
    Assoc.get? h.ledger.hosts r = some id ∧ r ∉ l := by
  induction l generalizing h with
  | nil => exact ⟨hr, List.not_mem_nil⟩
  | cons q l ih =>
      obtain ⟨hget, hl⟩ := ih hr
      rw [hosts_loseRoom, Assoc.get?_erase] at hget
      split at hget
      · cases hget
      · rename_i hne
        refine ⟨hget, fun hmem => ?_⟩
        rcases List.mem_cons.mp hmem with heq | hmem
        · exact hne heq.symm
        · exact hl hmem

open Ledger in
/-- **A scheduler that has failed is retired when its last room has ended.** -/
theorem moves_schedulerFailed {h : Hall} (hb : h.ledger.Balanced) (id : Int) :
    Moves k h.ledger (h.schedulerFailed id).ledger := by
  have hmoves := moves_foldl_loseRoom (k := k) hb (h.roomsOf id)
  have hb' := balanced_moves hb hmoves
  -- what it has counted is what the rooms say, and none of them is left
  refine hmoves.trans (moves_retire hb' ?_)
  intro a ha
  rw [hb'.counted id a ha]
  refine List.countP_eq_zero.mpr ?_
  intro ⟨r, other⟩ he hid
  have hget := (Assoc.get?_eq_some_iff hb'.roomsOnce).mpr he
  obtain ⟨hget', hgone⟩ := hosts_foldl_loseRoom hget
  have hid' : other = id := of_decide_eq_true hid
  rw [hid'] at hget'
  exact hgone (mem_roomsOf hget')

theorem ledger_wakeOutdated (h : Hall) (id : Int) : (h.wakeOutdated id).ledger = h.ledger :=
  view_foldl (fun h r => ledger_signal h id (.wake r "outdated")) h _

open Ledger in
theorem moves_refreshFingerprint (h : Hall) (reading : Except Fault String) :
    Moves k h.ledger (h.refreshFingerprint reading).2.ledger := by
  unfold refreshFingerprint
  split
  · exact Relation.ReflTransGen.refl
  · rename_i fingerprint
    split
    · exact Relation.ReflTransGen.refl
    · dsimp only
      rw [view_foldl ledger_wakeOutdated]
      exact moves_sweep { h with fingerprint := fingerprint }

end Hall

end GameHall
