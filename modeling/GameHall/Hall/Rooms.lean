import GameHall.Hall.Basic

/-!
# Rooms

A room is made for a player in the lobby, who is seated at once. Other players in the lobby may be
seated or watch. A room ends as a whole: everyone who is connected goes back to the lobby, a seat kept
for a player who is gone is given up, and the scheduler hosts one room less.

A request that is refused leaves the hall as it was. Only where a scheduler cannot be started has the
pool already been swept.
-/

namespace GameHall

namespace Hall

/-! ## Requests of players -/

/-- The session of a player in the lobby. -/
def lobbySession (h : Hall) (connection : Int) : Except Fault Session :=
  match h.session? connection with
  | none => .error (.refused s!"{connectionText connection} has not signed up")
  | some s =>
    if s.inLobby then .ok s
    else .error (.refused s!"{connectionText connection} is already in a room")

/-- A room that has to be there. -/
def existingRoom (h : Hall) (room : Int) : Except Fault Room :=
  match h.room? room with
  | some r => .ok r
  | none => .error (.refused s!"room {room} does not exist")

/-- What a player is told who enters a room. -/
def entryPayload (room : Int) (name : String) : Octets :=
  (Datum.array [.int room, .text name]).write

/-- The message to a room that a player has been seated. -/
def joinSignal (room connection : Int) (s : Session) : Signal :=
  .request room connection (Utf8.encode "join") (Utf8.encode (s.describe connection))

/-- The message to the engine that there is a new room. -/
def newRoomSignal (room : Int) (name : String) : Signal :=
  .request room (-1) (Utf8.encode "newroom") (Datum.text name).write

/-- Seats a player. -/
def seat (h : Hall) (connection room : Int) (s : Session) (r : Room) : Hall :=
  let h := h.updateSession connection fun s => { s with room := room }
  let h := h.updateRoom room fun r => { r with players := r.players ++ [connection] }
  let h := h.signal r.scheduler (joinSignal room connection s)
  h.notify connection "EnterRoom" (entryPayload room r.name)

/-- Seats a player of the lobby in a room. -/
def seatPlayer (h : Hall) (connection room : Int) : Except Fault Unit × Hall :=
  match h.lobbySession connection, h.existingRoom room with
  | .error fault, _ => (.error fault, h)
  | .ok _, .error fault => (.error fault, h)
  | .ok s, .ok r => (.ok (), h.seat connection room s r)

/-- Lets a player watch. -/
def watch (h : Hall) (connection room : Int) (s : Session) (r : Room) : Hall :=
  let h := h.updateSession connection fun s => { s with observing := some room }
  let h := h.updateRoom room fun r => { r with observers := r.observers ++ [connection] }
  let h := h.signal r.scheduler (.addObserver room (s.describe connection))
  h.notify connection "EnterRoom" (entryPayload room r.name)

/-- Lets a player of the lobby watch a room. -/
def observeRoom (h : Hall) (connection room : Int) : Except Fault Unit × Hall :=
  match h.lobbySession connection, h.existingRoom room with
  | .error fault, _ => (.error fault, h)
  | .ok _, .error fault => (.error fault, h)
  | .ok s, .ok r => (.ok (), h.watch connection room s r)

/-- Stops the schedulers that are outdated and host no room. -/
def sweep (h : Hall) : Hall :=
  let idle := h.pool.idle h.fingerprint
  idle.foldl (fun h scheduler => h.act (.quit scheduler))
    { h with pool := h.pool.sweep h.fingerprint }

/-- Makes a room on a scheduler with a place for it. -/
def place (h : Hall) (scheduler : Int) (name : String) : Int × Hall :=
  let room := h.nextRoom
  let h := { h with nextRoom := room + 1, pool := h.pool.update scheduler Scheduler.addRoom }
  let h := h.signal scheduler (newRoomSignal room name)
  (room, { h with rooms := Assoc.set h.rooms room ⟨name, scheduler, [], []⟩ })

/-- Makes a room on a scheduler with a place for it, which may have to be spawned, and seats a player
in it; `canSpawn` tells whether a new scheduler could be started now. -/
def makeRoom (h : Hall) (owner : Int) (s : Session) (name : String) (canSpawn : Bool) :
    Except Fault Int × Hall :=
  match h.pool.acquire h.fingerprint h.settings.roomsPerScheduler with
  | ((scheduler, fresh), pool) =>
    if fresh && !canSpawn then
      (.error (.scheduler (.thread "no thread")), { h with pool := pool.remove scheduler })
    else
      let h := { h with pool := pool }
      let h := if fresh then h.act (.spawn scheduler) else h
      match h.place scheduler name with
      | (room, h) =>
        (.ok room, h.seat owner room s ⟨name, scheduler, [], []⟩)

/-- Makes a room for a player of the lobby, once the pool has been swept. -/
def createRoom (h : Hall) (owner : Int) (name : String) (canSpawn : Bool) :
    Except Fault Int × Hall :=
  match h.lobbySession owner with
  | .error fault => (.error fault, h)
  | .ok s => h.sweep.makeRoom owner s name canSpawn

/-! ## The end of a room -/

/-- Ends the watching of a player. -/
def stopObserving (h : Hall) (connection : Int) : Hall :=
  match h.session? connection with
  | none => h
  | some s =>
    match s.observing with
    | none => h
    | some room =>
      let h := h.updateSession connection fun s => { s with observing := none }
      let h := h.notify connection "EnterLobby" []
      match h.room? room with
      | none => h
      | some r =>
        let h := h.updateRoom room fun r =>
          { r with observers := r.observers.filter fun c => decide (c ≠ connection) }
        h.signal r.scheduler (.removeObserver room connection)

/-- Bans an address, if the settings have bans. A ban to beyond the last moment is the end of the main
loop. -/
def ban (h : Hall) (host : Host) : Hall :=
  if h.settings.tempBanTime = 0 then h
  else
    let seconds := min (h.settings.tempBanTime * 60) (UInt64.size - 1)
    match Moment.after? h.now (Duration.ofSeconds seconds) with
    | some until_ => { h with bans := Assoc.set h.bans host until_ }
    | none => { h with crashed := true }

/-- An observer of a room that has ended goes back to the lobby. -/
def releaseObserver (h : Hall) (connection : Int) : Hall :=
  (h.updateSession connection fun s => { s with observing := none }).notify connection
    "EnterLobby" []

/-- A player of a room that has ended goes back to the lobby. One who is gone loses the session, and
is banned if that was running away. -/
def releasePlayer (runaway : Bool) (h : Hall) (connection : Int) : Hall :=
  match h.session? connection with
  | none => h
  | some s =>
    if s.isOnline then
      let h := h.updateSession connection fun s =>
        { s with room := lobbyRoom, thinking := false, died := false }
      h.notify connection "EnterLobby" []
    else
      let h := if runaway then h.ban s.link.host else h
      { h with sessions := Assoc.erase h.sessions connection }

/-- Retires a scheduler if it hosts no room and is outdated. -/
def retireIdle (h : Hall) (scheduler : Int) : Hall :=
  match h.pool.get? scheduler with
  | none => h
  | some s =>
    if s.rooms = 0 then
      let h := { h with pool := h.pool.update scheduler fun s => s.check h.fingerprint }
      if s.isOutdated h.fingerprint then h.retire scheduler else h
    else h

/-- The scheduler of a room that has ended hosts one room less. One that has become idle and is
outdated is retired. -/
def releaseScheduler (h : Hall) (room scheduler : Int) : Hall :=
  let h := h.signal scheduler (.disarm .delay room)
  let h := h.signal scheduler (.disarm .request room)
  { h with pool := h.pool.update scheduler Scheduler.removeRoom }.retireIdle scheduler

/-- Ends a room. To leave a game whose scheduler is current is running away. -/
def finish (h : Hall) (room : Int) (r : Room) : Hall :=
  let h := { h with rooms := Assoc.erase h.rooms room }
  let h := r.observers.foldl releaseObserver h
  let runaway := h.isCurrent r.scheduler
  let h := h.askCurrent r.scheduler
  let h := r.players.foldl (releasePlayer runaway) h
  h.releaseScheduler room r.scheduler

/-- Ends a room that has to be there. -/
def finishRoom (h : Hall) (room : Int) : Except Fault Unit × Hall :=
  match h.existingRoom room with
  | .error fault => (.error fault, h)
  | .ok r => (.ok (), h.finish room r)

end Hall

end GameHall
