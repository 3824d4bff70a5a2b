import GameHall.Proofs.Hall.NewRooms

/-!
# The accounts of schedulers

Every event changes the ledger of a hall in the ways of `Ledger.Move` or not at all (`moves_take`). What a
ledger keeps therefore holds of every hall that can be reached (`accounts_run`): schedulers count their
rooms right, none is retired while it hosts one, and no number is given twice.
-/

namespace GameHall

namespace Hall

variable {k : Nat}

/-! ## Steps and runs -/

open Ledger in
/-- **Every event changes the ledger in the ways of a ledger**, and spawns schedulers for as many rooms
as the settings say. -/
theorem moves_take {h : Hall} (hb : h.ledger.Balanced) (e : Event) :
    Moves h.settings.roomsPerScheduler h.ledger (h.take e).ledger := by
  have hrefl : ∀ g : Hall, g.ledger = h.ledger →
      Moves h.settings.roomsPerScheduler h.ledger g.ledger := by
    intro g hg
    rw [hg]
  cases e with
  | pass span => exact hrefl _ rfl
  | accept host => exact hrefl _ (unpeopled_ledger.accept h host)
  | expireSignUp c => exact hrefl _ (unpeopled_ledger.expireSignUp h c)
  | record c record => exact hrefl _ (ledger_hear h c record)
  | closed c => exact moves_closed hb c
  | shut c => exact hrefl _ rfl
  | shutSoon c => exact hrefl _ rfl
  | lobby c request canSpawn =>
      show Moves _ h.ledger (request.put h c canSpawn).2.ledger
      cases request with
      | createRoom name =>
          rw [Lobby.Request.put_createRoom]
          exact moves_createRoom hb c name canSpawn
      | enterRoom r => exact hrefl _ (ledger_seatPlayer h c r)
      | observeRoom r => exact hrefl _ (ledger_observeRoom h c r)
      | malformed words => exact hrefl _ rfl
  | showError c words => exact hrefl _ (unpeopled_ledger.showError h c words)
  | createRoom owner name canSpawn => exact moves_createRoom hb owner name canSpawn
  | seatPlayer c r => exact hrefl _ (ledger_seatPlayer h c r)
  | observeRoom c r => exact hrefl _ (ledger_observeRoom h c r)
  | finishRoom r => exact moves_finishRoom hb r
  | engineUp id => exact hrefl _ (ledger_setHealth h id .up)
  | engineDown id => exact hrefl _ (ledger_setHealth h id .down)
  | startupOver id => exact hrefl _ (ledger_updateScheduler h id fun _ => rfl)
  | schedulerFailed id => exact moves_schedulerFailed hb id
  | refreshFingerprint reading => exact moves_refreshFingerprint h reading
  | reloadSettings reading => exact hrefl _ (by cases reading <;> rfl)
  | effect call => exact hrefl _ (unpeopled_ledger.effect h call)
  | kick c => exact hrefl _ (unpeopled_ledger.kick h c)
  | temporarilyBan c => exact hrefl _ (unpeopled_ledger.temporarilyBan h c)

open Ledger in
theorem moves_step {h : Hall} (hb : h.ledger.Balanced) (e : Event) :
    Moves h.settings.roomsPerScheduler h.ledger (h.step e).ledger := by
  unfold step
  split
  · exact Relation.ReflTransGen.refl
  · exact moves_take hb e

theorem balanced_step {h : Hall} (hb : h.ledger.Balanced) (e : Event) :
    (h.step e).ledger.Balanced := Ledger.balanced_moves hb (moves_step hb e)

theorem follows_step {h : Hall} (hb : h.ledger.Balanced) (e : Event) :
    Ledger.Follows (fun k => k = h.settings.roomsPerScheduler) h.ledger (h.step e).ledger :=
  Ledger.follows_moves hb (moves_step hb e)

/-- An empty hall hosts nothing. -/
theorem balanced_new (authenticator : Authenticator) (settings : Settings) (fingerprint : String)
    (epoch : Int) : (new authenticator settings fingerprint epoch).ledger.Balanced where
  roomsOnce := List.nodup_nil
  roomsBelow := fun _ hr => absurd hr List.not_mem_nil
  accountsOnce := List.nodup_nil
  accountsBelow := fun _ hid => absurd hid List.not_mem_nil
  counted := by intro id a ha; cases ha
  bounded := by intro id a ha; cases ha
  hosted := by intro r id hr; cases hr

/-- **A run keeps the count right.** -/
theorem balanced_run {h : Hall} (hb : h.ledger.Balanced) (events : List Event) :
    (h.run events).ledger.Balanced := by
  induction events generalizing h with
  | nil => exact hb
  | cons e events ih => exact ih (balanced_step hb e)

/-- **A run moves no room and gives no number again.** -/
theorem follows_run {h : Hall} (hb : h.ledger.Balanced) (events : List Event) :
    Ledger.Follows (fun _ => True) h.ledger (h.run events).ledger := by
  induction events generalizing h with
  | nil => exact Ledger.follows_refl _
  | cons e events ih =>
      have hstep := Ledger.follows_mono (fun _ _ => True.intro) (follows_step hb e)
      exact Ledger.follows_trans hstep (ih (balanced_step hb e))

/-! ## What the ledger says of the hall -/

/-- Schedulers and rooms of a hall say the same of who hosts what. -/
structure Accounted (h : Hall) : Prop where
  /-- No two rooms have one number. -/
  roomsOnce : (Assoc.keys h.rooms).Nodup
  /-- A scheduler has counted the rooms it hosts. -/
  counted : ∀ id s, h.pool.get? id = some s → s.rooms = (h.roomsOf id).length
  /-- It hosts no more than it may. -/
  bounded : ∀ id s, h.pool.get? id = some s → s.rooms ≤ s.capacity
  /-- The scheduler of a room has not been retired. -/
  hosted : ∀ r x, h.room? r = some x → (h.pool.get? x.scheduler).isSome

/-- Rooms and schedulers that are there at both moments are as they were. -/
structure Keeps (h h' : Hall) : Prop where
  scheduler : ∀ r x x', h.room? r = some x → h'.room? r = some x' → x'.scheduler = x.scheduler
  capacity : ∀ id s s', h.pool.get? id = some s → h'.pool.get? id = some s' →
    s'.capacity = s.capacity

/-- The numbers that are there after an event and were not before it, event by event. -/
def newcomers (numbers : Hall → List Int) (h : Hall) : List Event → List Int
  | [] => []
  | e :: events =>
    ((numbers (h.step e)).filter fun i => decide (i ∉ numbers h))
      ++ newcomers numbers (h.step e) events

/-- What holds of a run: rooms are counted at its end, none has moved, schedulers have the capacity
they were spawned with, and no number has come up twice. -/
structure Accounts (h : Hall) (events : List Event) : Prop where
  accounted : (h.run events).Accounted
  kept : ∀ past future, events = past ++ future → (h.run past).Keeps (h.run events)
  /-- A scheduler that an event has spawned may host as many rooms as the settings said then. -/
  spawned : ∀ past e future id s, events = past ++ e :: future →
    (h.run past).pool.get? id = none → (((h.run past).step e).pool.get? id).isSome →
    (h.run events).pool.get? id = some s → s.capacity = (h.run past).settings.roomsPerScheduler
  roomsOnce : (newcomers (fun h => Assoc.keys h.rooms) h events).Nodup
  schedulersOnce : (newcomers (fun h => Assoc.keys h.pool.schedulers) h events).Nodup

theorem get?_of_account {h : Hall} {id : Int} :
    Assoc.get? h.ledger.accounts id = (h.pool.get? id).map Scheduler.account :=
  Assoc.get?_mapValues Scheduler.account h.pool.schedulers id

theorem accounted_of_balanced {h : Hall} (hb : h.ledger.Balanced) : h.Accounted where
  roomsOnce := by
    rw [← Assoc.keys_mapValues Room.scheduler]
    exact hb.roomsOnce
  counted := by
    intro id s hs
    rw [← hostedBy_ledger]
    exact hb.counted id s.account (account_of_get? hs)
  bounded := fun id s hs => hb.bounded id s.account (account_of_get? hs)
  hosted := by
    intro r x hx
    have hmem := hb.hosted r x.scheduler (host_of_room? hx)
    rw [Assoc.mem_keys_iff, get?_of_account, Option.isSome_map] at hmem
    exact hmem

/-- What is there has a number that has been given. -/
theorem keeps_of_follows {fresh : Nat → Prop} {h h' : Hall} (hb : h.ledger.Balanced)
    (hf : Ledger.Follows fresh h.ledger h'.ledger) : h.Keeps h' where
  scheduler := by
    intro r x x' hx hx'
    rcases hf.hosts r x'.scheduler (host_of_room? hx') with hr | hr
    · rw [host_of_room? hx] at hr
      exact (Option.some.inj hr).symm
    · have := hb.roomsBelow r (Assoc.mem_keys_iff.mpr (by rw [host_of_room? hx]; rfl))
      omega
  capacity := by
    intro id s s' hs hs'
    rcases hf.accounts id s'.account (account_of_get? hs') with ⟨a, ha, heq⟩ | ⟨hid, _⟩
    · rw [account_of_get? hs] at ha
      cases ha
      exact heq
    · have := hb.accountsBelow id (Assoc.mem_keys_iff.mpr (by rw [account_of_get? hs]; rfl))
      omega

/-- Numbers that are given in order come up once. -/
theorem newcomers_nodup {numbers : Hall → List Int} (next : Hall → Int)
    (honce : ∀ h : Hall, h.ledger.Balanced → (numbers h).Nodup)
    (hbelow : ∀ h : Hall, h.ledger.Balanced → ∀ i ∈ numbers h, i < next h)
    (hnext : ∀ (h : Hall) (e : Event), h.ledger.Balanced → next h ≤ next (h.step e))
    (hnew : ∀ (h : Hall) (e : Event), h.ledger.Balanced → ∀ i ∈ numbers (h.step e),
      i ∈ numbers h ∨ next h ≤ i)
    {h : Hall} (hb : h.ledger.Balanced) (events : List Event) :
    (newcomers numbers h events).Nodup ∧ ∀ i ∈ newcomers numbers h events, next h ≤ i := by
  induction events generalizing h with
  | nil => exact ⟨List.nodup_nil, fun _ hi => absurd hi List.not_mem_nil⟩
  | cons e events ih =>
      have hb' := balanced_step hb e
      obtain ⟨hnodup, hlater⟩ := ih hb'
      constructor
      -- what is new after this event is below the next number, and what comes later is not
      · refine List.nodup_append.mpr ⟨(honce _ hb').filter _, hnodup, ?_⟩
        intro i hi j hj hij
        have hlt := hbelow _ hb' i (List.mem_filter.mp hi).1
        have hge := hlater j hj
        omega
      · intro i hi
        rcases List.mem_append.mp hi with hi | hi
        · obtain ⟨hi, hold⟩ := List.mem_filter.mp hi
          rcases hnew h e hb i hi with hi | hi
          · exact absurd hi (of_decide_eq_true hold)
          · exact hi
        · exact Int.le_trans (hnext h e hb) (hlater i hi)

theorem newcomers_rooms {h : Hall} (hb : h.ledger.Balanced) (events : List Event) :
    (newcomers (fun h => Assoc.keys h.rooms) h events).Nodup := by
  have hkeys : ∀ h : Hall, Assoc.keys h.rooms = Assoc.keys h.ledger.hosts := fun h =>
    (Assoc.keys_mapValues Room.scheduler h.rooms).symm
  simp only [hkeys]
  refine (newcomers_nodup nextRoom ?_ ?_ ?_ ?_ hb events).1
  · exact fun h hb => hb.roomsOnce
  · exact fun h hb => hb.roomsBelow
  · exact fun h e hb => (follows_step hb e).nextRoom
  · intro h e hb r hr
    obtain ⟨id, hid⟩ := Option.isSome_iff_exists.mp (Assoc.mem_keys_iff.mp hr)
    refine ((follows_step hb e).hosts r id hid).imp_left fun hr' => ?_
    exact Assoc.mem_keys_iff.mpr (by rw [hr']; rfl)

theorem newcomers_schedulers {h : Hall} (hb : h.ledger.Balanced) (events : List Event) :
    (newcomers (fun h => Assoc.keys h.pool.schedulers) h events).Nodup := by
  have hkeys : ∀ h : Hall, Assoc.keys h.pool.schedulers = Assoc.keys h.ledger.accounts := fun h =>
    (Assoc.keys_mapValues Scheduler.account h.pool.schedulers).symm
  simp only [hkeys]
  refine (newcomers_nodup (fun h => h.pool.nextId) ?_ ?_ ?_ ?_ hb events).1
  · exact fun h hb => hb.accountsOnce
  · exact fun h hb => hb.accountsBelow
  · exact fun h e hb => (follows_step hb e).nextId
  · intro h e hb id hid
    obtain ⟨a, ha⟩ := Option.isSome_iff_exists.mp (Assoc.mem_keys_iff.mp hid)
    refine ((follows_step hb e).accounts id a ha).imp (fun ⟨b, hb, _⟩ => ?_) fun hid => hid.1
    exact Assoc.mem_keys_iff.mpr (by rw [hb]; rfl)

theorem run_append (h : Hall) (past future : List Event) :
    h.run (past ++ future) = (h.run past).run future := List.foldl_append

/-- **A run from a hall whose count is right accounts for every room and every scheduler.** -/
theorem accounts_of_balanced {h : Hall} (hb : h.ledger.Balanced) (events : List Event) :
    h.Accounts events where
  accounted := accounted_of_balanced (balanced_run hb events)
  kept := by
    intro past future heq
    rw [heq, run_append]
    have hb' := balanced_run hb past
    exact keeps_of_follows hb' (follows_run hb' future)
  -- the capacity was fixed when the scheduler was spawned, and has not changed since
  spawned := by
    intro past e future id s heq hnone hsome hs
    have hb' := balanced_run hb past
    obtain ⟨s', hs'⟩ := Option.isSome_iff_exists.mp hsome
    have hkeeps := keeps_of_follows (balanced_step hb' e) (follows_run (balanced_step hb' e) future)
    have hrun : h.run events = ((h.run past).step e).run future := by rw [heq, run_append]; rfl
    rw [hkeeps.capacity id s' s hs' (hrun ▸ hs)]
    rcases (follows_step hb' e).accounts id s'.account (account_of_get? hs') with
      ⟨a, ha, _⟩ | ⟨_, hfresh⟩
    · rw [get?_of_account, hnone] at ha
      cases ha
    · exact hfresh
  roomsOnce := newcomers_rooms hb events
  schedulersOnce := newcomers_schedulers hb events

/-- **Every run accounts for every room and every scheduler**, whatever engines and settings do. -/
theorem accounts_run (authenticator : Authenticator) (settings : Settings) (fingerprint : String)
    (epoch : Int) (events : List Event) :
    (new authenticator settings fingerprint epoch).Accounts events :=
  accounts_of_balanced (balanced_new authenticator settings fingerprint epoch) events

end Hall

end GameHall
