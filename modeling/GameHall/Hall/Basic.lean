import GameHall.Address
import GameHall.Assoc
import GameHall.Bundle.Fingerprint
import GameHall.Discovery
import GameHall.Messaging.Router
import GameHall.Scheduler.Pool
import GameHall.Scheduler.Signal
import GameHall.Settings
import GameHall.SignUp

/-!
# The hall

The hall is what the main loop keeps: connections that have not signed up, the sessions of those that
have, the rooms, the schedulers that host them, and the bans. Everything that happens to the server is
one change of the hall, and what the change asks of the world around it is a list of acts, in order.

Connections, rooms and schedulers are known by their numbers alone, which is why the same fact often
stands in two places: a session says where its player is, and a room lists its players and observers.
-/

namespace GameHall

/-! ## What the hall knows of a connection -/

/-- A connection as the main loop sees it. -/
structure Link where
  router : Router
  /-- Where the client is. -/
  host : Host
  /-- Whether the queue of the connection takes frames. -/
  isOpen : Bool
  /-- Whether the connection has been told to close. What is queued after that is not sent. -/
  closing : Bool
  /-- Whether the queue, which still takes frames, takes one more and is then shut. This is known of no
  connection before it happens; it stands here so that it may happen while a player is greeted. -/
  isBrief : Bool
  deriving DecidableEq

/-- Whether a frame that is sent now will go out. -/
def Link.sends (l : Link) : Bool := l.isOpen && !l.closing

/-- The number that stands for the lobby in the place of a room. No room has it. -/
def lobbyRoom : Int := 0

/-- Where what a player says goes. -/
inductive Place where
  | lobby
  | seated (room : Int)
  | watching (room : Int)
  deriving DecidableEq

/-- A player who has signed up. -/
structure Session where
  link : Link
  playerId : Int32
  name : String
  avatar : String
  device : String
  state : PlayerState
  /-- The room the player is seated in, or `lobbyRoom`. -/
  room : Int
  /-- The room the player watches. -/
  observing : Option Int
  /-- The rules wait for the player. -/
  thinking : Bool
  /-- The player is out of the game. -/
  died : Bool
  deriving DecidableEq

namespace Session

/-- Whether the player's connection is there. -/
def isOnline (s : Session) : Bool := s.state ≠ .offline

/-- Whether the player is neither seated nor watching. -/
def inLobby (s : Session) : Bool := s.room = lobbyRoom && s.observing.isNone

/-- Where what the player says goes. One who watches is not asked for a seat. -/
def place (s : Session) : Place :=
  if s.inLobby then .lobby
  else
    match s.observing with
    | some room => .watching room
    | none => .seated s.room

/-- What the rules are told of a player. -/
def describe (connection : Int) (s : Session) : String :=
  Json.render (.object [
    (some "avatar", .ofText s.avatar),
    (some "connId", .ofInt connection),
    (some "id", .ofInt s.playerId.toInt),
    (some "name", .ofText s.name),
    (some "state", .ofText s.state.text)])

end Session

/-- A room. -/
structure Room where
  name : String
  /-- The scheduler that hosts the room for all its life. -/
  scheduler : Int
  /-- The connections of the players, the first to sit down first. -/
  players : List Int
  observers : List Int
  deriving DecidableEq

/-! ## The hall -/

/-- What the hall asks of the world. -/
inductive Act where
  /-- Sends a frame. -/
  | frame (connection : Int) (record : Record)
  /-- Closes a connection once its frames are out. -/
  | close (connection : Int)
  /-- Starts a scheduler with its engine. -/
  | spawn (scheduler : Int)
  | signal (scheduler : Int) (signal : Signal)
  /-- Stops a scheduler after the signals it has. -/
  | quit (scheduler : Int)
  /-- Gives the lobby a message. -/
  | lobby (connection : Int) (command payload : Octets)

/-- The state of the main loop. -/
structure Hall where
  authenticator : Authenticator
  /-- The sign-ups the authenticator has been asked about, latest first. -/
  asked : List SignUp
  settings : Settings
  /-- The fingerprint of the rules. -/
  fingerprint : String
  now : Moment
  /-- The milliseconds since the beginning of 1970 at the moment zero. -/
  epoch : Int
  /-- The number of the latest connection. -/
  lastConnection : Int
  /-- Connections that have not signed up. -/
  pending : Assoc Int Link
  sessions : Assoc Int Session
  /-- By number, least first. -/
  rooms : Assoc Int Room
  nextRoom : Int
  pool : Pool
  /-- Until when an address is banned. -/
  bans : Assoc Host Moment
  /-- All acts so far, in order. -/
  acts : List Act
  /-- Whether the main loop has died of a moment beyond the end of its clock. The change it died of
  stands here as if it had been completed. -/
  crashed : Bool

namespace Hall

/-- An empty hall. -/
def new (authenticator : Authenticator) (settings : Settings) (fingerprint : String)
    (epoch : Int) : Hall where
  authenticator := authenticator
  asked := []
  settings := settings
  fingerprint := fingerprint
  now := 0
  epoch := epoch
  lastConnection := 0
  pending := []
  sessions := []
  rooms := []
  nextRoom := 1
  pool := Pool.empty
  bans := []
  acts := []
  crashed := false

/-- An empty hall with the settings in a file and the fingerprint of a bundle. The settings are read
before the bundle is looked at. -/
def start (authenticator : Authenticator) (settings : Option Octets) (bundle : Option Tree)
    (epoch : Int) : Except Fault Hall := do
  let settings ← Settings.load settings
  let fingerprint ← Bundle.fingerprint bundle
  return new authenticator settings fingerprint epoch

/-- The milliseconds since the beginning of 1970. -/
def wall (h : Hall) : Int := h.epoch + h.now / 1000000

/-- How a connection is called. -/
def connectionText (connection : Int) : String := s!"conn-{connection}"

/-! ## Looking -/

/-- A session by the number of its connection. -/
def session? (h : Hall) (connection : Int) : Option Session := Assoc.get? h.sessions connection

/-- A room by number. -/
def room? (h : Hall) (room : Int) : Option Room := Assoc.get? h.rooms room

/-- What is known of a connection, signed up or not. -/
def link? (h : Hall) (connection : Int) : Option Link :=
  match h.session? connection with
  | some s => some s.link
  | none => Assoc.get? h.pending connection

/-- How many players are signed up and connected. -/
def online (h : Hall) : Nat := (h.sessions.filter fun e => e.2.isOnline).length

/-- The hall as a client sees it that looks for servers. -/
def summary (h : Hall) : Summary :=
  ⟨h.settings.iconUrl, h.settings.description, h.settings.capacity, h.online⟩

/-- Whether a connection belongs to a player who is connected. -/
def isOnline (h : Hall) (connection : Int) : Bool :=
  match h.session? connection with
  | some s => s.isOnline
  | none => false

/-! ## Changing one thing -/

/-- Asks something of the world. -/
def act (h : Hall) (a : Act) : Hall := { h with acts := h.acts ++ [a] }

/-- Changes a session, if it is there. -/
def updateSession (h : Hall) (connection : Int) (f : Session → Session) : Hall :=
  { h with sessions := Assoc.update h.sessions connection f }

/-- Changes a room, if it is there. -/
def updateRoom (h : Hall) (room : Int) (f : Room → Room) : Hall :=
  { h with rooms := Assoc.update h.rooms room f }

/-- Sends a frame over a link. -/
def deliver (h : Hall) (connection : Int) (link : Link) (record : Record) : Hall :=
  if link.sends then h.act (.frame connection record) else h

/-- Closes a link that is not closed yet. -/
def hangUp (h : Hall) (connection : Int) (link : Link) : Hall :=
  if link.sends then h.act (.close connection) else h

/-- Sends a player a notification. -/
def notify (h : Hall) (connection : Int) (command : String) (payload : Octets) : Hall :=
  match h.session? connection with
  | some s => h.deliver connection s.link (Router.clientNotification command payload)
  | none => h

/-- Shows a player an error. -/
def showError (h : Hall) (connection : Int) (words : String) : Hall :=
  h.notify connection "ErrorDlg" (Datum.text words).write

/-- Gives a scheduler a signal. One whose engine is down is marked outdated instead. -/
def signal (h : Hall) (scheduler : Int) (s : Signal) : Hall :=
  match h.pool.get? scheduler with
  | none => h
  | some sch =>
    if sch.isAlive then h.act (.signal scheduler s)
    else { h with pool := h.pool.update scheduler Scheduler.markOutdated }

/-- Takes a scheduler out of the pool and stops it. -/
def retire (h : Hall) (scheduler : Int) : Hall :=
  if Assoc.has h.pool.schedulers scheduler then
    { h with pool := h.pool.remove scheduler }.act (.quit scheduler)
  else h

/-- Whether a scheduler has the current rules and an engine that is up or may come up. -/
def isCurrent (h : Hall) (scheduler : Int) : Bool :=
  match h.pool.get? scheduler with
  | some s => s.isAlive && !s.isOutdated h.fingerprint
  | none => false

/-- The hall after someone has asked whether a scheduler is current: if its engine is not down and its
rules are not the current ones, it has forgotten its fingerprint. -/
def askCurrent (h : Hall) (scheduler : Int) : Hall :=
  { h with pool := h.pool.update scheduler fun s =>
      if s.isAlive then s.check h.fingerprint else s }

end Hall

end GameHall
