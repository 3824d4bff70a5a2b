import GameHall.Number.Duration
import GameHall.Wire.Fault

/-!
# Faults of the server

Each layer has its own faults: the pipe to an engine, the scheduler that owns the engine, and the
server as a whole. A fault of a lower layer is carried along by the layer above, and its words
appear in the words of the one above.
-/

namespace GameHall

/-- What goes wrong with the engine of a scheduler. -/
inductive EngineFault where
  | spawn (words : String)
  | handshake (words : String)
  | closed
  | io (words : String)
  deriving DecidableEq

/-- The words for a fault. -/
def EngineFault.message : EngineFault → String
  | spawn words => s!"failed to spawn engine: {words}"
  | handshake words => s!"engine handshake failed: {words}"
  | closed => "engine channel closed"
  | io words => s!"engine I/O error: {words}"

/-- What goes wrong with a scheduler. -/
inductive SchedulerFault where
  | engine (fault : EngineFault)
  | startupTimeout (id : Int)
  | thread (words : String)
  | loopGone (id : Int)
  deriving DecidableEq

/-- The words for a fault. -/
def SchedulerFault.message : SchedulerFault → String
  | engine fault => s!"engine bridge failed: {fault.message}"
  | startupTimeout id => s!"scheduler {id} did not start in time"
  | thread words => s!"failed to spawn scheduler thread: {words}"
  | loopGone id => s!"scheduler {id} loop is gone"

/-- What goes wrong with the server. -/
inductive Fault where
  | network (words : String)
  | internal (words : String)
  /-- A player asked for what the state of the server does not allow. -/
  | refused (words : String)
  | config (words : String)
  | bundle (words : String)
  /-- The main loop did not answer in time. -/
  | timeout (limit : Duration)
  | codec (fault : CodecFault)
  | scheduler (fault : SchedulerFault)
  deriving DecidableEq

/-- The words for a fault. -/
def Fault.message : Fault → String
  | network words => s!"Network error: {words}"
  | internal words => s!"Internal error: {words}"
  | refused words => words
  | config words => s!"Configuration error: {words}"
  | bundle words => s!"Bundle error: {words}"
  | timeout limit => s!"Main loop did not answer within {limit.text}"
  | codec fault => s!"Codec error: {fault.message}"
  | scheduler fault => s!"Scheduler error: {fault.message}"

end GameHall
