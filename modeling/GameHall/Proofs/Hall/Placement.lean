import GameHall.Proofs.Hall.Requests
import GameHall.Proofs.Hall.Sweeping

/-!
# Requests for a room

A player asks to sit down in a room, to watch one, or for a new one, by a request of the lobby or because
another part of the server asks for it. The request is granted as a whole or refused as a whole
(`grants_run`). A refusal leaves the hall as it was. What is granted concerns the session of the player
and the room, and nothing else but the scheduler of a new room.

A new room gets the least scheduler that accepts it. The pool is searched from the front, so this needs
the pool to be in the order of the numbers (`Ledger.Ordered`), which it is because numbers only go up. That
the search leaves the schedulers it passes as they are is due to the pool being drained: whoever is
outdated has forgotten its rules already.
-/

namespace GameHall

/-- Whether a scheduler is still there when the pool has been swept. -/
def Scheduler.remains (current : String) (s : Scheduler) : Bool := !(s.isOutdated current && s.rooms == 0)

/-- A scheduler that accepts rooms is not outdated. -/
theorem Scheduler.remains_of_accepts {current : String} {s : Scheduler}
    (haccepts : s.accepts current = true) : remains current s = true := by
  simp only [accepts, Bool.and_eq_true, Bool.not_eq_true'] at haccepts
  simp [remains, haccepts.2]

namespace Ledger

/-- Schedulers stand in the order of their numbers. -/
def Ordered (l : Ledger) : Prop := (Assoc.keys l.accounts).Pairwise (· < ·)

variable {capacity : Nat} {l l' : Ledger}

theorem ordered_move (hb : l.Balanced) (ho : l.Ordered) (hm : Move capacity l l') : l'.Ordered := by
  cases hm with
  | spawn =>
      -- a new number is above all that are in use
      unfold Ordered
      rw [Assoc.keys_append]
      refine List.pairwise_append.mpr ⟨ho, List.pairwise_singleton _ _, fun id hid id' hid' => ?_⟩
      rw [List.mem_singleton.mp hid']
      exact hb.accountsBelow id hid
  | retire hsub _ => exact ho.sublist (hsub.map Prod.fst)
  | place _ _ =>
      unfold Ordered
      rw [Assoc.keys_update]
      exact ho
  | finish _ =>
      unfold Ordered
      rw [Assoc.keys_update]
      exact ho

theorem ordered_moves (hb : l.Balanced) (ho : l.Ordered) (hm : Moves capacity l l') : l'.Ordered := by
  induction hm with
  | refl => exact ho
  | tail hms hm ih => exact ordered_move (balanced_moves hb hms) ih hm

end Ledger

namespace Lobby

/-- The commands that ask for a room. -/
def commands : List Octets := ["CreateRoom", "EnterRoom", "ObserveRoom"].map Utf8.encode

end Lobby

namespace Hall

open Scheduler

variable {h g : Hall} {c r id : Int} {s : Session} {x : Room} {name : String}

theorem ordered_run (hb : h.ledger.Balanced) (ho : h.ledger.Ordered) (events : List Event) :
    (h.run events).ledger.Ordered := by
  induction events generalizing h with
  | nil => exact ho
  | cons e events ih => exact ih (balanced_step hb e) (Ledger.ordered_moves hb ho (moves_step hb e))

/-! ## Coming into a room -/

/-- The ways into a room. -/
inductive Way where
  | sit
  | watch

namespace Way

/-- The request of the lobby. -/
def request (r : Int) : Way → Lobby.Request
  | sit => .enterRoom r
  | watch => .observeRoom r

/-- What becomes of the session. -/
def session (r : Int) : Way → Session → Session
  | sit, s => { s with room := r }
  | watch, s => { s with observing := some r }

/-- What becomes of the room. -/
def room (c : Int) : Way → Room → Room
  | sit, x => { x with players := x.players ++ [c] }
  | watch, x => { x with observers := x.observers ++ [c] }

/-- What the engine is told. -/
def signal (r c : Int) (s : Session) : Way → Signal
  | sit => joinSignal r c s
  | watch => .addObserver r (s.describe c)

/-- The hall after a player has come into a room. -/
def enter (h : Hall) (c r : Int) (s : Session) (x : Room) : Way → Hall
  | sit => h.seat c r s x
  | watch => h.watch c r s x

end Way

/-- The frame that tells a player of a room. -/
def entryFrame (c r : Int) (name : String) : Act :=
  .frame c (Router.clientNotification "EnterRoom" (entryPayload r name))

/-- A player has come into a room, and nothing else has happened. -/
structure Entered (h g : Hall) (w : Way) (c r : Int) (s : Session) (x : Room) : Prop where
  frame : g = { h with sessions := g.sessions, rooms := g.rooms, pool := g.pool, acts := g.acts }
  session : g.session? c = some (w.session r s)
  sessions : ∀ d, d ≠ c → g.session? d = h.session? d
  room : g.room? r = some (w.room c x)
  rooms : ∀ q, q ≠ r → g.room? q = h.room? q
  /-- The scheduler of the room forgets its rules if the engine is down, and there is no other change. -/
  pool : g.pool = h.pool.update x.scheduler signalled
  counts : ∀ id, (g.pool.get? id).map (·.rooms) = (h.pool.get? id).map (·.rooms)
  /-- The engine is told if it is not down, and so is the player if the link takes it. -/
  acts : g.acts = h.acts ++ ((if h.hears x.scheduler then [.signal x.scheduler (w.signal r c s)] else [])
    ++ if s.link.sends then [entryFrame c r x.name] else [])

theorem notify_eq (hs : h.session? c = some s) (command : String) (payload : Octets) :
    h.notify c command payload = h.actAll
      (if s.link.sends then [.frame c (Router.clientNotification command payload)] else []) := by
  rw [notify, hs]
  dsimp only
  unfold deliver
  split
  · rfl
  · exact (actAll_nil h).symm

theorem enter_eq (w : Way) (hs : h.session? c = some s) (r : Int) (x : Room) :
    w.enter h c r s x = ({ h with
      sessions := Assoc.update h.sessions c (w.session r)
      rooms := Assoc.update h.rooms r (w.room c)
      pool := h.pool.update x.scheduler signalled } : Hall).actAll
        ((if h.hears x.scheduler then [.signal x.scheduler (w.signal r c s)] else [])
          ++ if s.link.sends then [entryFrame c r x.name] else []) := by
  have hsession : Assoc.get? (Assoc.update h.sessions c (w.session r)) c = some (w.session r s) := by
    rw [Assoc.get?_update, if_pos rfl, show Assoc.get? h.sessions c = some s from hs]
    rfl
  rw [actAll_append]
  cases w with
  | sit =>
      unfold Way.enter seat
      dsimp only
      rw [signal_frame]
      refine notify_eq (s := { s with room := r }) ?_ _ _
      exact hsession
  | watch =>
      unfold Way.enter watch
      dsimp only
      rw [signal_frame]
      refine notify_eq (s := { s with observing := some r }) ?_ _ _
      exact hsession

/-- A scheduler that forgets its rules hosts the rooms that it hosted. -/
theorem rooms_update_signalled (p : Pool) (key id : Int) :
    ((p.update key signalled).get? id).map (·.rooms) = (p.get? id).map (·.rooms) := by
  rw [get?_update]
  split
  · rw [Option.map_map]
    refine congrArg (Option.map · _) (funext fun s => ?_)
    show s.signalled.rooms = s.rooms
    unfold signalled
    split <;> rfl
  · rfl

theorem entered_enter (w : Way) (hs : h.session? c = some s) (hx : h.room? r = some x) :
    h.Entered (w.enter h c r s x) w c r s x := by
  rw [enter_eq w hs]
  exact {
    frame := rfl
    session := by
      refine (Assoc.get?_update h.sessions c c _).trans ?_
      rw [if_pos rfl, show Assoc.get? h.sessions c = some s from hs]
      rfl
    sessions := fun d hd => (Assoc.get?_update h.sessions c d _).trans (if_neg hd)
    room := by
      refine (Assoc.get?_update h.rooms r r _).trans ?_
      rw [if_pos rfl, show Assoc.get? h.rooms r = some x from hx]
      rfl
    rooms := fun q hq => (Assoc.get?_update h.rooms r q _).trans (if_neg hq)
    pool := rfl
    counts := rooms_update_signalled h.pool x.scheduler
    acts := rfl }

/-! ## Looking for a scheduler -/

/-- The scheduler of the next room: the least that accepts it, or a new one if there is none. -/
def Hosts (h : Hall) (id : Int) : Prop :=
  (∃ sch, h.pool.get? id = some sch ∧ sch.accepts h.fingerprint = true
      ∧ ∀ other sch', h.pool.get? other = some sch' → sch'.accepts h.fingerprint = true → id ≤ other)
    ∨ id = h.pool.nextId ∧ ∀ other sch', h.pool.get? other = some sch' →
      sch'.accepts h.fingerprint = false

/-- Schedulers that have nothing left to forget are searched without a change. -/
theorem askAll_eq {current : String} {m : Assoc Int Scheduler}
    (hm : ∀ e ∈ m, e.2.ask current = e.2) : Pool.askAll current m
      = ((m.find? fun e => e.2.accepts current).map Prod.fst, m) := by
  induction m with
  | nil => rfl
  | cons e m ih =>
      obtain ⟨id, sch⟩ := e
      rw [Pool.askAll, List.find?_cons]
      cases sch.accepts current with
      | true => rfl
      | false =>
          rw [ih fun e he => hm e (List.mem_cons_of_mem _ he)]
          have hsch : sch.ask current = sch := hm (id, sch) List.mem_cons_self
          simp [hsch]

theorem check_eq_of_drained (hd : h.Drained) {sch : Scheduler} (hsch : h.pool.get? id = some sch) :
    sch.check h.fingerprint = sch := by
  unfold check
  split
  · rename_i hout
    rw [markOutdated, ← forgotten_of_drained hd hsch hout]
  · rfl

theorem entry_of_mem (hb : h.ledger.Balanced) {e : Int × Scheduler} (he : e ∈ h.pool.schedulers) :
    h.pool.get? e.1 = some e.2 := (Assoc.get?_eq_some_iff (nodup_schedulers hb)).mpr he

/-- The schedulers that are left when the pool has been swept. -/
def left (h : Hall) : Assoc Int Scheduler :=
  h.pool.schedulers.filter fun e => remains h.fingerprint e.2

/-- The pool with a new scheduler. -/
def manned (h : Hall) : Pool :=
  ⟨h.left ++ [(h.pool.nextId, Scheduler.new h.settings.roomsPerScheduler h.fingerprint)],
    h.pool.nextId + 1⟩

/-- A sweep of a drained pool takes the idle schedulers out, and that is all. -/
theorem sweep_of_drained (hb : h.ledger.Balanced) (hd : h.Drained) :
    h.pool.sweep h.fingerprint = { h.pool with schedulers := h.left } := by
  have hsame : Assoc.mapValues (fun sch => sch.check h.fingerprint) h.left = h.left := by
    refine (List.map_congr_left fun e he => ?_).trans (List.map_id _)
    have hget := entry_of_mem hb (List.mem_of_mem_filter he)
    exact Prod.ext rfl (check_eq_of_drained hd hget)
  exact congrArg (Pool.mk · h.pool.nextId) hsame

/-- **Where a new room goes**, once a drained pool has been swept. -/
theorem acquire_of_drained (hb : h.ledger.Balanced) (hd : h.Drained) :
    (h.pool.sweep h.fingerprint).acquire h.fingerprint h.settings.roomsPerScheduler
      = match h.pool.schedulers.find? fun e => e.2.accepts h.fingerprint with
        | some e => ((e.1, false), { h.pool with schedulers := h.left })
        | none => ((h.pool.nextId, true), h.manned) := by
  have hask : ∀ e ∈ h.left, e.2.ask h.fingerprint = e.2 := by
    intro e he
    unfold Scheduler.ask
    split
    · exact check_eq_of_drained hd (entry_of_mem hb (List.mem_of_mem_filter he))
    · rfl
  have hfind : (h.left.find? fun e => e.2.accepts h.fingerprint)
      = h.pool.schedulers.find? fun e => e.2.accepts h.fingerprint := by
    rw [left, List.find?_filter]
    refine congrArg (h.pool.schedulers.find? ·) (funext fun e => ?_)
    cases haccepts : e.2.accepts h.fingerprint with
    | true => simp [remains_of_accepts haccepts]
    | false => simp
  unfold Pool.acquire
  rw [sweep_of_drained hb hd, askAll_eq hask, hfind]
  cases h.pool.schedulers.find? fun e => e.2.accepts h.fingerprint <;> rfl

/-- The first scheduler that accepts is the least, for the pool is in order. -/
theorem hosts_of_find? (hb : h.ledger.Balanced) (ho : h.ledger.Ordered) {e : Int × Scheduler}
    (hfound : (h.pool.schedulers.find? fun e => e.2.accepts h.fingerprint) = some e) :
    h.pool.get? e.1 = some e.2 ∧ e.2.accepts h.fingerprint = true ∧ h.Hosts e.1 := by
  obtain ⟨haccepts, before, later, heq, hbefore⟩ := List.find?_eq_some_iff_append.mp hfound
  have hget := entry_of_mem hb (List.mem_of_find?_eq_some hfound)
  refine ⟨hget, haccepts, Or.inl ⟨e.2, hget, haccepts, fun other sch hsch hother => ?_⟩⟩
  have hkeys : (Assoc.keys h.pool.schedulers).Pairwise (· < ·) := keys_schedulers h ▸ ho
  have hmem := Assoc.mem_of_get? hsch
  rw [heq] at hmem hkeys
  rw [Assoc.keys_append] at hkeys
  -- another one that accepts stands behind the one that was found
  rcases List.mem_append.mp hmem with hmem | hmem
  · have hnot := hbefore _ hmem
    rw [hother] at hnot
    cases hnot
  · rcases List.mem_cons.mp hmem with rfl | hmem
    · exact Int.le_refl _
    · have hrest := (List.pairwise_append.mp hkeys).2.1
      exact Int.le_of_lt ((List.pairwise_cons.mp hrest).1 other (List.mem_map.mpr ⟨_, hmem, rfl⟩))

theorem hosts_of_not_found
    (hnone : (h.pool.schedulers.find? fun e => e.2.accepts h.fingerprint) = none) :
    h.Hosts h.pool.nextId := by
  refine Or.inr ⟨rfl, fun other sch hsch => ?_⟩
  exact Bool.eq_false_iff.mpr (List.find?_eq_none.mp hnone _ (Assoc.mem_of_get? hsch))

/-! ## Making a room -/

/-- A room has been made for a player of the lobby, who sits there, and nothing else has happened but that
idle schedulers have left. -/
structure Founded (h g : Hall) (c id : Int) (name : String) (s : Session) : Prop where
  frame : g = { h with
    sessions := g.sessions, rooms := g.rooms, nextRoom := h.nextRoom + 1, pool := g.pool, acts := g.acts }
  session : g.session? c = some { s with room := h.nextRoom }
  sessions : ∀ d, d ≠ c → g.session? d = h.session? d
  /-- The room has a number of its own. -/
  fresh : h.room? h.nextRoom = none
  room : g.room? h.nextRoom = some ⟨name, id, [c], []⟩
  rooms : ∀ q, q ≠ h.nextRoom → g.room? q = h.room? q
  /-- The scheduler counts a room more. If it is new, it counts one. -/
  host : g.pool.get? id = some ((h.pool.get? id).getD
    (Scheduler.new h.settings.roomsPerScheduler h.fingerprint)).addRoom
  schedulers : ∀ other, other ≠ id →
    g.pool.get? other = (h.pool.get? other).filter (remains h.fingerprint)
  acts : g.acts = h.acts ++ ((h.pool.idle h.fingerprint).map Act.quit
    ++ (if id = h.pool.nextId then [.spawn id] else [])
    ++ [.signal id (newRoomSignal h.nextRoom name), .signal id (joinSignal h.nextRoom c s)]
    ++ if s.link.sends then [entryFrame c h.nextRoom name] else [])

/-- No scheduler accepts a room and none can be started, and nothing has happened but that idle schedulers
have left. -/
structure Unhosted (h g : Hall) : Prop where
  frame : g = { h with pool := g.pool, acts := g.acts }
  schedulers : ∀ id, g.pool.get? id = (h.pool.get? id).filter (remains h.fingerprint)
  acts : g.acts = h.acts ++ (h.pool.idle h.fingerprint).map Act.quit

/-- A new room has been counted and announced, and nobody is in it. -/
def announced (h : Hall) (id : Int) (name : String) : Hall :=
  ({ h with
    nextRoom := h.nextRoom + 1
    pool := h.pool.update id addRoom
    rooms := Assoc.set h.rooms h.nextRoom ⟨name, id, [], []⟩ } : Hall).act
      (.signal id (newRoomSignal h.nextRoom name))

theorem get?_addRoom {sch : Scheduler} (hsch : h.pool.get? id = some sch) :
    (h.pool.update id addRoom).get? id = some sch.addRoom := by
  rw [get?_update, if_pos rfl, hsch]
  rfl

theorem place_eq {sch : Scheduler} (hsch : h.pool.get? id = some sch) (halive : sch.isAlive = true)
    (name : String) : h.place id name = (h.nextRoom, h.announced id name) := by
  unfold place
  dsimp only
  rw [signal_of_alive (s := sch.addRoom) (get?_addRoom hsch) halive]
  rfl

/-- The owner of a new room sits down there. -/
theorem entered_announced (id : Int) (hs : h.session? c = some s) (name : String) :
    (h.announced id name).Entered ((h.announced id name).seat c h.nextRoom s ⟨name, id, [], []⟩) .sit c
      h.nextRoom s ⟨name, id, [], []⟩ :=
  entered_enter .sit hs (Assoc.get?_set_self _ _ _)

/-- The pool has been swept, and a scheduler found or spawned for a room. -/
structure Acquired (h : Hall) (id : Int) (p : Pool) : Prop where
  host : p.get? id = some ((h.pool.get? id).getD
    (Scheduler.new h.settings.roomsPerScheduler h.fingerprint))
  alive : ((h.pool.get? id).getD
    (Scheduler.new h.settings.roomsPerScheduler h.fingerprint)).isAlive = true
  others : ∀ other, other ≠ id → p.get? other = (h.pool.get? other).filter (remains h.fingerprint)

/-- **What it takes to make a room** when a scheduler has been found. -/
theorem founded_of_acquired (hb : h.ledger.Balanced) {k : Hall} {p : Pool} {first : List Act}
    (hk : k = ({ h with pool := p } : Hall).actAll first) (hp : h.Acquired id p)
    (hs : h.session? c = some s)
    (hfirst : first = (h.pool.idle h.fingerprint).map Act.quit
      ++ if id = h.pool.nextId then [.spawn id] else []) (name : String) :
    h.Founded ((k.place id name).2.seat c (k.place id name).1 s ⟨name, id, [], []⟩) c id name s := by
  have hhost := (congrArg (·.pool.get? id) hk).trans hp.host
  have hmore : (k.announced id name).pool.get? id = _ := get?_addRoom hhost
  have hentered := entered_announced id ((congrArg (·.session? c) hk).trans hs) name
  rw [place_eq hhost hp.alive]
  -- all that follows is known of the hall by what `Entered` says of it
  generalize hg : seat _ c _ s _ = g at hentered ⊢
  clear hg
  subst hk
  exact {
    frame := hentered.frame
    session := hentered.session
    sessions := hentered.sessions
    fresh := room?_of_nextRoom_le hb (Int.le_refl _)
    room := hentered.room
    rooms := fun q hq => (hentered.rooms q hq).trans (Assoc.get?_set_of_ne (Ne.symm hq))
    host := by
      rw [hentered.pool, get?_update, if_pos rfl, hmore]
      exact congrArg some (if_pos hp.alive)
    schedulers := by
      intro other hne
      rw [hentered.pool, get?_update_ne hne]
      exact (get?_update_ne hne).trans (hp.others other hne)
    acts := by
      refine hentered.acts.trans ?_
      rw [if_pos (hears_eq_true_iff.mpr ⟨_, hmore, hp.alive⟩)]
      show h.acts ++ first ++ [_] ++ ([_] ++ _) = _
      rw [hfirst]
      simp only [List.append_assoc, List.cons_append, List.nil_append]
      rfl }

theorem get?_left (hb : h.ledger.Balanced) (id : Int) :
    Assoc.get? h.left id = (h.pool.get? id).filter (remains h.fingerprint) :=
  Assoc.get?_filter (nodup_schedulers hb) (remains h.fingerprint) id

theorem acquired_of_found (hb : h.ledger.Balanced) {sch : Scheduler}
    (hsch : h.pool.get? id = some sch) (haccepts : sch.accepts h.fingerprint = true) :
    h.Acquired id { h.pool with schedulers := h.left } where
  host := by
    refine (get?_left hb id).trans ?_
    rw [hsch, Option.filter_some, if_pos (remains_of_accepts haccepts)]
    rfl
  alive := by
    rw [hsch]
    simp only [accepts, Bool.and_eq_true] at haccepts
    exact haccepts.1.1
  others := fun other _ => get?_left hb other

theorem acquired_of_spawned (hb : h.ledger.Balanced) : h.Acquired h.pool.nextId h.manned where
  host := by
    refine (Assoc.get?_append _ _ _).trans ?_
    rw [get?_left hb, get?_nextId hb]
    simp [Assoc.get?]
  alive := by
    rw [get?_nextId hb]
    rfl
  others := by
    intro other hne
    refine (Assoc.get?_append _ _ _).trans ?_
    rw [get?_left hb]
    simp [Assoc.get?, Ne.symm hne]

theorem unhosted_of_none (hb : h.ledger.Balanced) :
    h.Unhosted (({ h with pool := h.manned.remove h.pool.nextId } : Hall).actAll
      ((h.pool.idle h.fingerprint).map Act.quit)) where
  frame := rfl
  schedulers := by
    intro id
    refine (Assoc.get?_erase _ _ _).trans ?_
    split
    · rename_i hid
      rw [← hid, get?_nextId hb]
      rfl
    · rename_i hne
      refine (Assoc.get?_append _ _ _).trans ?_
      rw [get?_left hb]
      simp [Assoc.get?, hne]
  acts := rfl

/-- The pool is as it should be after every event. -/
structure Staffed (h : Hall) : Prop where
  balanced : h.ledger.Balanced
  ordered : h.ledger.Ordered
  drained : h.Drained

/-- A room is made once there is a scheduler for it. -/
theorem makeRoom_of_acquire {k : Hall} {p : Pool} {fresh : Bool} (c : Int) (s : Session)
    (name : String) (canSpawn : Bool)
    (hacquire : k.pool.acquire k.fingerprint k.settings.roomsPerScheduler = ((id, fresh), p)) :
    (fresh && !canSpawn) = true ∧ k.makeRoom c s name canSpawn
        = (.error (.scheduler (.thread "no thread")), { k with pool := p.remove id })
      ∨ (fresh && !canSpawn) = false ∧ ∃ g,
        g = ({ k with pool := p } : Hall).actAll (if fresh then [.spawn id] else [])
          ∧ k.makeRoom c s name canSpawn = (.ok (g.place id name).1,
            (g.place id name).2.seat c (g.place id name).1 s ⟨name, id, [], []⟩) := by
  unfold makeRoom
  rw [hacquire]
  dsimp only
  split
  · rename_i hrefused
    exact Or.inl ⟨hrefused, rfl⟩
  · rename_i hmade
    refine Or.inr ⟨Bool.eq_false_iff.mpr hmade, _, ?_, rfl⟩
    cases fresh
    · exact (actAll_nil _).symm
    · rfl

/-- A player of the lobby gets a room on the scheduler that has been found, unless it is a new one that
cannot be started. -/
theorem createRoom_of_acquire (hb : h.ledger.Balanced) {p : Pool} {fresh : Bool} (name : String)
    (canSpawn : Bool)
    (hs : h.session? c = some s) (hlobby : s.inLobby = true)
    (hacquire : (h.pool.sweep h.fingerprint).acquire h.fingerprint h.settings.roomsPerScheduler
      = ((id, fresh), p)) (hp : h.Acquired id p) (hfresh : fresh = decide (id = h.pool.nextId)) :
    (fresh && !canSpawn) = true ∧ h.createRoom c name canSpawn
        = (.error (.scheduler (.thread "no thread")),
          ({ h with pool := p.remove id } : Hall).actAll ((h.pool.idle h.fingerprint).map Act.quit))
      ∨ (fresh && !canSpawn) = false ∧ ∃ g, h.createRoom c name canSpawn = (.ok h.nextRoom, g)
        ∧ h.Founded g c id name s := by
  have hmake : h.createRoom c name canSpawn = h.sweep.makeRoom c s name canSpawn := by
    unfold createRoom
    rw [lobbySession, hs]
    dsimp only
    rw [if_pos hlobby]
  rw [hmake, sweep_eq]
  -- a thread is asked for only when the scheduler is new
  rcases makeRoom_of_acquire c s name canSpawn
    (k := ({ h with pool := h.pool.sweep h.fingerprint } : Hall).actAll
      ((h.pool.idle h.fingerprint).map Act.quit)) hacquire with ⟨hno, heq⟩ | ⟨hyes, g, hg, heq⟩
  · exact Or.inl ⟨hno, heq⟩
  · have hacts : g = ({ h with pool := p } : Hall).actAll ((h.pool.idle h.fingerprint).map Act.quit
        ++ if id = h.pool.nextId then [.spawn id] else []) := by
      rw [hg, actAll_append, hfresh]
      simp only [decide_eq_true_eq]
      rfl
    have hroom : (g.place id name).1 = h.nextRoom := hacts ▸ rfl
    have hfounded := founded_of_acquired hb hacts hp hs rfl name
    rw [heq, hroom] at *
    exact Or.inr ⟨hyes, _, rfl, hfounded⟩

/-- **A player of the lobby gets a room**, unless a scheduler is needed and cannot be started. -/
theorem createRoom_cases (hw : h.Staffed) (hs : h.session? c = some s) (hlobby : s.inLobby = true)
    (name : String) (canSpawn : Bool) :
    (∃ g id, h.createRoom c name canSpawn = (.ok h.nextRoom, g) ∧ h.Hosts id
        ∧ (canSpawn = true ∨ id ≠ h.pool.nextId) ∧ h.Founded g c id name s)
      ∨ ∃ g, h.createRoom c name canSpawn = (.error (.scheduler (.thread "no thread")), g)
        ∧ canSpawn = false ∧ h.Hosts h.pool.nextId ∧ h.Unhosted g := by
  obtain ⟨hb, ho, hd⟩ := hw
  have hacquire := acquire_of_drained hb hd
  -- the first scheduler that takes rooms, or a new one if there is none
  cases hfind : h.pool.schedulers.find? fun e => e.2.accepts h.fingerprint with
  | some e =>
      obtain ⟨id, sch⟩ := e
      rw [hfind] at hacquire
      obtain ⟨hget, haccepts, hhosts⟩ := hosts_of_find? hb ho hfind
      have hne : id ≠ h.pool.nextId := by
        rintro rfl
        cases (get?_nextId hb).symm.trans hget
      rcases createRoom_of_acquire hb name canSpawn hs hlobby hacquire
        (acquired_of_found hb hget haccepts) (decide_eq_false hne).symm with
        ⟨hrefused, _⟩ | ⟨_, g, hmade, hfounded⟩
      · cases hrefused
      · exact Or.inl ⟨g, id, hmade, hhosts, Or.inr hne, hfounded⟩
  | none =>
      rw [hfind] at hacquire
      have hhosts := hosts_of_not_found hfind
      rcases createRoom_of_acquire hb name canSpawn hs hlobby hacquire
        (acquired_of_spawned hb) (decide_eq_true rfl).symm with
        ⟨hrefused, heq⟩ | ⟨hspawned, g, hmade, hfounded⟩
      · exact Or.inr ⟨_, heq, by simpa using hrefused, hhosts, unhosted_of_none hb⟩
      · exact Or.inl ⟨g, _, hmade, hhosts, Or.inl (by simpa using hspawned), hfounded⟩

/-! ## What becomes of a request -/

/-- The player asks from the lobby, and for a room that is there. -/
def Admissible (h : Hall) (c : Int) : Lobby.Request → Prop
  | .createRoom _ => ∃ s, h.session? c = some s ∧ s.inLobby = true
  | .enterRoom r | .observeRoom r => (∃ s, h.session? c = some s ∧ s.inLobby = true) ∧ (h.room? r).isSome
  | .malformed _ => False

/-- What becomes of a request; `canSpawn` tells whether a scheduler could be started. -/
inductive Outcome (h : Hall) (c : Int) (canSpawn : Bool) :
    Lobby.Request → Except Fault Unit × Hall → Prop where
  | entered {g : Hall} {r : Int} {s : Session} {x : Room} (w : Way) (hs : h.session? c = some s)
      (hlobby : s.inLobby = true) (hx : h.room? r = some x) (hentered : h.Entered g w c r s x) :
      Outcome h c canSpawn (w.request r) (.ok (), g)
  | founded {g : Hall} {id : Int} {s : Session} (name : String) (hs : h.session? c = some s)
      (hlobby : s.inLobby = true) (hhosts : h.Hosts id) (hspawn : canSpawn = true ∨ id ≠ h.pool.nextId)
      (hfounded : h.Founded g c id name s) : Outcome h c canSpawn (.createRoom name) (.ok (), g)
  | unhosted {g : Hall} {s : Session} (name : String) (hs : h.session? c = some s)
      (hlobby : s.inLobby = true) (hhosts : h.Hosts h.pool.nextId) (hspawn : canSpawn = false)
      (hunhosted : h.Unhosted g) :
      Outcome h c canSpawn (.createRoom name) (.error (.scheduler (.thread "no thread")), g)
  | refused {q : Lobby.Request} {words : String} (hnot : ¬ h.Admissible c q) :
      Outcome h c canSpawn q (.error (.refused words), h)

/-- Either there is a player in the lobby or there is a refusal. -/
theorem lobbySession_cases (h : Hall) (c : Int) :
    (∃ s, h.lobbySession c = .ok s ∧ h.session? c = some s ∧ s.inLobby = true)
      ∨ (∃ words, h.lobbySession c = .error (.refused words))
        ∧ ¬ ∃ s, h.session? c = some s ∧ s.inLobby = true := by
  unfold lobbySession
  cases hs : h.session? c with
  | none => exact Or.inr ⟨⟨_, rfl⟩, fun ⟨_, hs', _⟩ => nomatch hs'⟩
  | some s =>
      by_cases hlobby : s.inLobby = true
      · exact Or.inl ⟨s, if_pos hlobby, rfl, hlobby⟩
      · refine Or.inr ⟨⟨_, if_neg hlobby⟩, fun ⟨s', hs', hlobby'⟩ => hlobby ?_⟩
        rw [Option.some.inj hs']
        exact hlobby'

theorem existingRoom_cases (h : Hall) (r : Int) :
    (∃ x, h.existingRoom r = .ok x ∧ h.room? r = some x)
      ∨ (∃ words, h.existingRoom r = .error (.refused words)) ∧ h.room? r = none := by
  unfold existingRoom
  cases hx : h.room? r with
  | none => exact Or.inr ⟨⟨_, rfl⟩, rfl⟩
  | some x => exact Or.inl ⟨x, rfl, rfl⟩

/-- Both ways into a room begin with the same checks. -/
theorem put_way (h : Hall) (w : Way) (c r : Int) (canSpawn : Bool) : (w.request r).put h c canSpawn
    = match h.lobbySession c, h.existingRoom r with
      | .error fault, _ => (.error fault, h)
      | .ok _, .error fault => (.error fault, h)
      | .ok s, .ok x => (.ok (), w.enter h c r s x) := by
  cases w <;> rfl

theorem outcome_way (h : Hall) (w : Way) (c r : Int) (canSpawn : Bool) :
    Outcome h c canSpawn (w.request r) ((w.request r).put h c canSpawn) := by
  have hadmissible : h.Admissible c (w.request r) →
      (∃ s, h.session? c = some s ∧ s.inLobby = true) ∧ (h.room? r).isSome := by
    cases w <;> exact id
  rw [put_way]
  rcases lobbySession_cases h c with ⟨s, hok, hs, hlobby⟩ | ⟨⟨_, hno⟩, hout⟩
  · rcases existingRoom_cases h r with ⟨x, hroom, hx⟩ | ⟨⟨_, hno⟩, hnone⟩
    · rw [hok, hroom]
      exact .entered w hs hlobby hx (entered_enter w hs hx)
    · rw [hok, hno]
      refine .refused fun hadm => ?_
      have hsome := (hadmissible hadm).2
      rw [hnone] at hsome
      cases hsome
  · rw [hno]
    exact .refused fun hadm => hout (hadmissible hadm).1

/-- The lobby is not told the number of the room. -/
theorem put_createRoom_eq (h : Hall) (c : Int) (name : String) (canSpawn : Bool) :
    (Lobby.Request.createRoom name).put h c canSpawn = ((h.createRoom c name canSpawn).1.map fun _ => (),
      (h.createRoom c name canSpawn).2) := by
  simp only [Lobby.Request.put]
  rcases h.createRoom c name canSpawn with ⟨_ | _, g⟩ <;> rfl

theorem outcome_createRoom (hw : h.Staffed) (c : Int) (name : String) (canSpawn : Bool) :
    Outcome h c canSpawn (.createRoom name) ((Lobby.Request.createRoom name).put h c canSpawn) := by
  rw [put_createRoom_eq]
  rcases lobbySession_cases h c with ⟨s, _, hs, hlobby⟩ | ⟨⟨_, hno⟩, hout⟩
  · rcases createRoom_cases hw hs hlobby name canSpawn with
      ⟨g, id, heq, hhosts, hspawn, hfounded⟩ | ⟨g, heq, hspawn, hhosts, hunhosted⟩
    · rw [heq]
      exact .founded name hs hlobby hhosts hspawn hfounded
    · rw [heq]
      exact .unhosted name hs hlobby hhosts hspawn hunhosted
  · unfold createRoom
    rw [hno]
    exact .refused hout

/-- **A request is granted as a whole or refused as a whole.** -/
theorem outcome_put (hw : h.Staffed) (c : Int) (canSpawn : Bool) (q : Lobby.Request) :
    Outcome h c canSpawn q (q.put h c canSpawn) := by
  cases q with
  | createRoom name => exact outcome_createRoom hw c name canSpawn
  | enterRoom r => exact outcome_way h .sit c r canSpawn
  | observeRoom r => exact outcome_way h .watch c r canSpawn
  | malformed words => exact .refused fun hadm => hadm

theorem admissible_way (w : Way) (hs : h.session? c = some s) (hlobby : s.inLobby = true)
    (hx : h.room? r = some x) : h.Admissible c (w.request r) := by
  have hsome : (h.room? r).isSome := Option.isSome_iff_exists.mpr ⟨x, hx⟩
  cases w <;> exact ⟨⟨s, hs, hlobby⟩, hsome⟩

/-- If schedulers can be started, it depends on the player and on the room alone. -/
theorem granted_iff {q : Lobby.Request} {p : Except Fault Unit × Hall} (hp : Outcome h c true q p) :
    p.1 = .ok () ↔ h.Admissible c q := by
  cases hp with
  | entered w hs hlobby hx _ => exact iff_of_true rfl (admissible_way w hs hlobby hx)
  | founded _ hs hlobby _ _ _ => exact iff_of_true rfl ⟨_, hs, hlobby⟩
  | unhosted _ _ _ _ hspawn _ => cases hspawn
  | refused hnot => exact iff_of_false (fun heq => nomatch heq) hnot

theorem staffed_run (authenticator : Authenticator) (settings : Settings) (fingerprint : String)
    (epoch : Int) (events : List Event) :
    ((new authenticator settings fingerprint epoch).run events).Staffed := by
  have hb := balanced_new authenticator settings fingerprint epoch
  exact {
    balanced := balanced_run hb events
    ordered := ordered_run hb List.Pairwise.nil events
    drained := (tends_run hb events).kept fun _ _ hs => nomatch hs }

end Hall

end GameHall
