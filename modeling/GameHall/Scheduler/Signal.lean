import GameHall.Player
import GameHall.Scheduler.Timers
import GameHall.Wire.Packet

/-!
# Signals

What the main loop asks of a scheduler. A signal is either a call to the engine or something to be done
to the timers of a room.
-/

namespace GameHall

/-- Something a scheduler is to do. -/
inductive Signal where
  /-- Gives a message to a room; the connection `-1` stands for the server. -/
  | request (room connection : Int) (command payload : Octets)
  | wake (room : Int) (reason : String)
  | playerState (room connection : Int) (state : PlayerState)
  /-- An observer comes, of whom there is a description. -/
  | addObserver (room : Int) (description : String)
  | removeObserver (room connection : Int)
  | arm (kind : TimerKind) (room : Int) (wait : Nat)
  | disarm (kind : TimerKind) (room : Int)
  deriving DecidableEq

/-- A call to an engine. -/
structure EngineCall where
  method : String
  params : List Packet.Value
  deriving DecidableEq

/-- A number of 32 bits as a parameter. -/
def idValue (id : Int) : Packet.Value := .int (Int64.ofInt id)

namespace EngineCall

/-- The last call an engine gets: it is to exit. -/
def bye : EngineCall := ⟨"bye", []⟩

/-- Wakes a room for a reason. -/
def wake (room : Int) (reason : String) : EngineCall :=
  ⟨"ResumeRoom", [idValue room, .text reason]⟩

end EngineCall

/-- The call that a signal is, if it is one. -/
def Signal.call? : Signal → Option EngineCall
  | request room connection command payload =>
    some ⟨"HandleRequest", [idValue room, idValue connection, .bytes command, .bytes payload]⟩
  | wake room reason => some (EngineCall.wake room reason)
  | playerState room connection state =>
    some ⟨"SetPlayerState", [idValue room, idValue connection, .text state.text]⟩
  | addObserver room description => some ⟨"AddObserver", [idValue room, .text description]⟩
  | removeObserver room connection => some ⟨"RemoveObserver", [idValue room, idValue connection]⟩
  | arm _ _ _ => none
  | disarm _ _ => none

end GameHall
