import GameHall.Hall.Rooms

/-!
# The lobby

A player in the lobby asks for a room by one of three commands, with a payload that is an array. The
lobby works beside the main loop: it reads the message, puts a request to the main loop, and when that
is refused shows the player why.
-/

namespace GameHall

namespace Lobby

/-- What a player in the lobby asks. -/
inductive Request where
  | createRoom (name : String)
  | enterRoom (room : Int)
  | observeRoom (room : Int)
  /-- A command that lacks its argument. -/
  | malformed (words : String)
  deriving DecidableEq

/-- A request for a room, whose number is the first argument. -/
def roomRequest (command : String) (args : List Cbor.Value) (request : Int → Request) : Request :=
  match args.head?.bind Cbor.Value.asInt32? with
  | some room => request room
  | none => .malformed s!"{command} needs a room id"

/-- The name of a room whose owner gives none. -/
def defaultName (connection : Int) : String := s!"{Hall.connectionText connection}'s room"

/-- What a message asks. A payload that is no array has no arguments, and the lobby ignores commands
that it does not know. -/
def Request.ofMessage? (connection : Int) (command payload : Octets) : Option Request :=
  let args := (Payload.elements? payload).getD []
  if command = Utf8.encode "CreateRoom" then
    some (.createRoom ((args.head?.bind Cbor.Value.asText?).getD (defaultName connection)))
  else if command = Utf8.encode "EnterRoom" then
    some (roomRequest "EnterRoom" args .enterRoom)
  else if command = Utf8.encode "ObserveRoom" then
    some (roomRequest "ObserveRoom" args .observeRoom)
  else none

/-- Puts a request to the main loop; `canSpawn` tells whether a new scheduler could be started. -/
def Request.put (h : Hall) (connection : Int) (canSpawn : Bool) :
    Request → Except Fault Unit × Hall
  | .createRoom name =>
    match h.createRoom connection name canSpawn with
    | (.ok _, h) => (.ok (), h)
    | (.error fault, h) => (.error fault, h)
  | .enterRoom room => h.seatPlayer connection room
  | .observeRoom room => h.observeRoom connection room
  | .malformed words => (.error (.refused words), h)

/-- A request for a room leaves the hall that `createRoom` makes, whether or not it is granted. -/
theorem Request.put_createRoom (h : Hall) (connection : Int) (canSpawn : Bool) (name : String) :
    ((Request.createRoom name).put h connection canSpawn).2
      = (h.createRoom connection name canSpawn).2 := by
  simp only [put]
  split <;> rename_i heq <;> rw [heq]

end Lobby

end GameHall
