import GameHall.Hall.Admission
import GameHall.Hall.Rooms

/-!
# Traffic

What becomes of the records of a connection and of its end. A player in the lobby talks to the lobby,
one in a room to the engine that runs the room. A player who is seated keeps the seat when the
connection ends; when no player of a room is connected any more the room is told, or it ends at once
if its scheduler is not current and nobody would answer.
-/

namespace GameHall

namespace Hall

/-- The command by which an observer leaves a room. -/
def quitCommand : Octets := Utf8.encode "QuitRoom"

/-- Passes on to the engine of a room what a player there says. -/
def forward (h : Hall) (connection room : Int) (command payload : Octets) : Hall :=
  match h.room? room with
  | some r => h.signal r.scheduler (.request room connection command payload)
  | none => h

/-- Passes on what a player says. -/
def pass (h : Hall) (connection : Int) (place : Place) (command payload : Octets) : Hall :=
  match place with
  | .lobby => h.act (.lobby connection command payload)
  | .seated room => h.forward connection room command payload
  | .watching room =>
    if command = quitCommand then h.stopObserving connection
    else h.forward connection room command payload

/-- Takes a record of a player. -/
def route (h : Hall) (connection : Int) (record : Record) : Hall :=
  match h.session? connection with
  | none => h
  | some s =>
    match s.link.router.hear h.now record with
    | (heard, router) =>
      let h := h.updateSession connection fun s => { s with link := { s.link with router := router } }
      match heard with
      | none => h
      | some (.notification command payload) => h.pass connection s.place command payload
      | some (.request _ command payload) => h.pass connection s.place command payload

/-- Takes a record of a connection. -/
def hear (h : Hall) (connection : Int) (record : Record) : Hall :=
  match Assoc.get? h.pending connection with
  | some link =>
    { h with pending := Assoc.erase h.pending connection }.judge connection link record
  | none => h.route connection record

/-! ## The end of a connection -/

/-- Tells a room that none of its players is connected, or ends it. -/
def checkAbandoned (h : Hall) (room : Int) : Hall :=
  match h.room? room with
  | none => h
  | some r =>
    if r.players.any h.isOnline then h
    else
      let current := h.isCurrent r.scheduler
      let h := h.askCurrent r.scheduler
      if current then h.signal r.scheduler (.wake room "abandon")
      else (h.finishRoom room).2

/-- A player in a room has gone. -/
def leaveSeat (h : Hall) (connection room : Int) : Hall :=
  let h := h.updateSession connection fun s => { s with state := .offline }
  let h := match h.room? room with
    | none => h
    | some r =>
      (h.signal r.scheduler (.playerState room connection .offline)).signal r.scheduler
        (.wake room "player_disconnect")
  h.checkAbandoned room

/-- A player has gone, who does not watch. One who is seated keeps the seat. -/
def leave (h : Hall) (connection : Int) : Hall :=
  match h.session? connection with
  | none => h
  | some s =>
    let h := h.updateSession connection fun s =>
      { s with link := { s.link with router := s.link.router.setAccepting false } }
    if s.room = lobbyRoom then { h with sessions := Assoc.erase h.sessions connection }
    else h.leaveSeat connection s.room

/-- A connection has ended. -/
def closed (h : Hall) (connection : Int) : Hall :=
  if Assoc.has h.pending connection then
    { h with pending := Assoc.erase h.pending connection }
  else (h.stopObserving connection).leave connection

/-- The queue of a connection takes no more frames. -/
def shut (h : Hall) (connection : Int) : Hall :=
  { h with
    pending := Assoc.update h.pending connection fun l => { l with isOpen := false }
    sessions := Assoc.update h.sessions connection fun s =>
      { s with link := { s.link with isOpen := false } } }

/-- The queue of a connection that has not signed up takes one more frame, and is then shut. -/
def shutSoon (h : Hall) (connection : Int) : Hall :=
  { h with pending := Assoc.update h.pending connection fun l => { l with isBrief := true } }

/-- Closes a connection. What follows from its end comes later. -/
def kick (h : Hall) (connection : Int) : Hall :=
  match h.session? connection with
  | some s =>
    (h.hangUp connection s.link).updateSession connection fun s =>
      { s with link := { s.link with closing := true } }
  | none =>
    match Assoc.get? h.pending connection with
    | some link =>
      let h := h.hangUp connection link
      { h with pending := Assoc.set h.pending connection { link with closing := true } }
    | none => h

/-- Bans the address of a connection and closes it. -/
def temporarilyBan (h : Hall) (connection : Int) : Hall :=
  let h := match h.link? connection with
    | some link => h.ban link.host
    | none => h
  h.kick connection

end Hall

end GameHall
