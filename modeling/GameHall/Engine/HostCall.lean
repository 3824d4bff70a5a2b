import GameHall.Wire.Packet

/-!
# Host calls

The calls a rule engine may make. Each has a method and parameters of fixed types; surplus parameters
are ignored. `HostCall.ofCall` checks all parameters of a call before anything else is done with it,
so that a call that is refused for them has no effect.
-/

namespace GameHall

/-- How serious a line of an engine's log is. -/
inductive LogLevel where
  | debug | info | warn | error
  deriving DecidableEq

/-- The word for a level. -/
def LogLevel.text : LogLevel → String
  | debug => "DEBUG"
  | info => "INFO"
  | warn => "WARN"
  | error => "ERROR"

/-- A call of an engine with its parameters checked. -/
inductive HostCall where
  | log (level : LogLevel) (text : String)
  /-- Sends the player a notification. -/
  | notify (connection : Int) (command payload : Octets)
  /-- Asks the player a question. -/
  | request (connection : Int) (command payload : Octets) (timeout : Int32)
      (timestamp : Option Int64)
  /-- Waits so many milliseconds for the answer to the latest question. -/
  | waitForReply (connection : Int) (wait : Nat)
  | isThinking (connection : Int)
  | setThinking (connection : Int) (value : Bool)
  | setDied (connection : Int) (value : Bool)
  | kick (connection : Int)
  | ban (connection : Int)
  /-- Wakes the room in so many milliseconds. -/
  | delay (room : Int) (wait : Nat)
  | setRequestTimer (room : Int) (wait : Nat)
  | destroyRequestTimer (room : Int)
  | gameOver (room : Int)
  deriving DecidableEq

namespace HostCall

/-- The methods an engine may call. -/
inductive Method where
  | qDebug | qInfo | qWarning | qCritical | print
  | doNotify | doRequest | waitForReply | thinking | setThinking | setDied | emitKick
  | delay | setRequestTimer | destroyRequestTimer | temporarilyBan | gameOver
  deriving DecidableEq

/-- The methods in order. -/
def Method.all : List Method := [.qDebug, .qInfo, .qWarning, .qCritical, .print,
  .doNotify, .doRequest, .waitForReply, .thinking, .setThinking, .setDied, .emitKick,
  .delay, .setRequestTimer, .destroyRequestTimer, .temporarilyBan, .gameOver]

/-- The name of a method. -/
def Method.name : Method → String
  | qDebug => "qDebug"
  | qInfo => "qInfo"
  | qWarning => "qWarning"
  | qCritical => "qCritical"
  | print => "print"
  | doNotify => "Player_doNotify"
  | doRequest => "Player_doRequest"
  | waitForReply => "Player_waitForReply"
  | thinking => "Player_thinking"
  | setThinking => "Player_setThinking"
  | setDied => "Player_setDied"
  | emitKick => "Player_emitKick"
  | delay => "Room_delay"
  | setRequestTimer => "Room_setRequestTimer"
  | destroyRequestTimer => "Room_destroyRequestTimer"
  | temporarilyBan => "Server_temporarilyBan"
  | gameOver => "Room_gameOver"

/-- The method with a name. -/
def Method.ofName? (name : String) : Option Method := Method.all.find? fun m => m.name == name

/-- Whether a name is that of a method. -/
def known (name : String) : Bool := (Method.ofName? name).isSome

/-! ## Parameters -/

/-- The parameter at a place, counted from zero. -/
def param (c : Packet.Call) (place : Nat) : Except String Packet.Value :=
  match c.params[place]? with
  | some v => .ok v
  | none => .error s!"{c.method}: missing parameter {place + 1}"

/-- An integer parameter. -/
def intParam (c : Packet.Call) (place : Nat) : Except String Int := do
  match (← param c place).asInt? with
  | some v => return v.toInt
  | none => .error s!"{c.method}: parameter {place + 1} must be an integer"

/-- An integer parameter of 32 bits. -/
def int32Param (c : Packet.Call) (place : Nat) : Except String Int := do
  let v ← intParam c place
  if -2147483648 ≤ v ∧ v ≤ 2147483647 then return v
  else .error s!"{c.method}: parameter {place + 1} is out of range"

/-- A string parameter. -/
def bytesParam (c : Packet.Call) (place : Nat) : Except String Octets := do
  match (← param c place).asBytes? with
  | some v => return v
  | none => .error s!"{c.method}: parameter {place + 1} must be a string"

/-- A truth value. -/
def boolParam (c : Packet.Call) (place : Nat) : Except String Bool := do
  match (← param c place).asBool? with
  | some v => return v
  | none => .error s!"{c.method}: parameter {place + 1} must be a boolean"

/-- The timestamp of a request, which may be missing or null. -/
def timestampParam (c : Packet.Call) (place : Nat) : Except String (Option Int64) :=
  match c.params[place]? with
  | none => .ok none
  | some .null => .ok none
  | some _ => do return some (Int64.ofInt (← intParam c place))

/-- A room and a positive number of milliseconds. -/
def timerParams (c : Packet.Call) : Except String (Int × Nat) := do
  let room ← int32Param c 0
  let wait ← intParam c 1
  if wait ≤ 0 then .error s!"{c.method}: delay must be positive, got {wait}"
  else return (room, wait.toNat)

/-- The text parameters of a line of the log, with spaces between. -/
def logText (c : Packet.Call) : String := " ".intercalate (c.params.filterMap Packet.Value.asText?)

/-- Checks the parameters of a call of a method. The first parameter that is wrong is told. -/
def ofMethod (c : Packet.Call) : Method → Except String HostCall
  | .qDebug => .ok (log .debug (logText c))
  | .qInfo => .ok (log .info (logText c))
  | .print => .ok (log .info (logText c))
  | .qWarning => .ok (log .warn (logText c))
  | .qCritical => .ok (log .error (logText c))
  | .doNotify => do
    return notify (← int32Param c 0) (← bytesParam c 1) (← bytesParam c 2)
  | .doRequest => do
    let connection ← int32Param c 0
    let command ← bytesParam c 1
    let payload ← bytesParam c 2
    let timeout ← int32Param c 3
    return request connection command payload (Int32.ofInt timeout) (← timestampParam c 4)
  | .waitForReply => do
    let connection ← int32Param c 0
    let wait ← intParam c 1
    if wait < 0 then .error s!"{c.method}: timeout must not be negative"
    else return waitForReply connection wait.toNat
  | .thinking => do return isThinking (← int32Param c 0)
  | .setThinking => do return setThinking (← int32Param c 0) (← boolParam c 1)
  | .setDied => do return setDied (← int32Param c 0) (← boolParam c 1)
  | .emitKick => do return kick (← int32Param c 0)
  | .temporarilyBan => do return ban (← int32Param c 0)
  | .delay => do
    let (room, wait) ← timerParams c
    return delay room wait
  | .setRequestTimer => do
    let (room, wait) ← timerParams c
    return setRequestTimer room wait
  | .destroyRequestTimer => do return destroyRequestTimer (← int32Param c 0)
  | .gameOver => do return gameOver (← int32Param c 0)

/-- What a call asks; `none` for a method nobody knows. -/
def ofCall? (c : Packet.Call) : Option (Except String HostCall) :=
  (Method.ofName? c.method).map (ofMethod c)

end HostCall

end GameHall
