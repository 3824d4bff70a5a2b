import GameHall.Engine.Endpoint
import GameHall.Engine.HostCall
import GameHall.Scheduler.Signal

/-!
# Workers

A worker is the thread of a scheduler. Once its engine has greeted it takes signals from a queue, one
after the other, fires the timers of the rooms, and serves the engine's calls: those about timers and
the log by itself, the others by posts to the main loop.

A call is served in two parts. What needs no answer of the main loop is done as soon as the call is
read; the answer to the engine, or the question to the main loop, is an errand that the worker gets
round to later.

A worker that is asked to quit runs the signals it has, drops its timers, says goodbye to the engine
and closes the pipes. Before its engine has greeted it only queues.
-/

namespace GameHall

/-- What a worker asks of the main loop. -/
inductive Post where
  /-- Something to be done, of which the engine learns nothing more. -/
  | effect (call : HostCall)
  /-- A call that is answered when the main loop has answered. -/
  | question (ticket : Nat) (call : HostCall)
  deriving DecidableEq

/-- How far a worker is. -/
inductive WorkerPhase where
  | starting
  | running
  /-- It has been asked to quit, and runs the signals that are left. -/
  | draining
  /-- It has said goodbye. -/
  | closing
  | stopped
  deriving DecidableEq

/-- Where a call to the engine comes from. -/
inductive Cause where
  | signal
  | timer (key : TimerKey)
  | farewell
  deriving DecidableEq

/-- What a worker does. -/
inductive Deed where
  | read (chunk : Octets)
  | log (level : LogLevel) (text : String)
  | post (p : Post)
  /-- Takes a signal from the queue. -/
  | run (s : Signal)
  | arm (key : TimerKey) (wait : Nat)
  /-- Cancels a timer; the flag tells whether one was armed. -/
  | disarm (key : TimerKey) (armed : Bool)
  /-- A timer has fired. -/
  | ring (key : TimerKey)
  /-- Drops all timers. -/
  | clear
  /-- Calls the engine; the flag tells whether the call will go out. -/
  | call (cause : Cause) (c : EngineCall) (taken : Bool)
  deriving DecidableEq

/-- The post that is made. -/
def Deed.post? : Deed → Option Post
  | post p => some p
  | _ => none

/-- The line of the log that is written. -/
def Deed.log? : Deed → Option (LogLevel × String)
  | log level text => some (level, text)
  | _ => none

/-- What is left to do of a call that has been served. -/
inductive Errand where
  /-- To answer the engine. -/
  | tell (result : Except String Packet.Value)
  /-- To ask the main loop. -/
  | ask (call : HostCall)

/-- The thread of a scheduler. -/
structure Worker where
  phase : WorkerPhase
  /-- Signals that have not been taken. -/
  signals : List Signal
  quitting : Bool
  /-- Whether the engine is known to have failed. -/
  failed : Bool
  /-- Whether the main loop has been told that the engine is lost. -/
  reported : Bool
  timers : Timers
  endpoint : Endpoint
  /-- By ticket, the first to come first. -/
  errands : Assoc Nat Errand
  /-- All that has been done so far, in order. -/
  deeds : List (Moment × Deed)

namespace Worker

/-- A worker whose engine has not greeted. -/
def new : Worker := ⟨.starting, [], false, false, false, Timers.empty, Endpoint.new, [], []⟩

/-- Whether the engine is up or may come up. -/
def isAlive (w : Worker) : Bool := !w.failed && (w.phase = .starting || w.endpoint.alive)

/-- Whether the engine can be called: it has greeted, and has not been told goodbye. -/
def reaches (w : Worker) : Bool := w.phase = .running || w.phase = .draining

/-- Notes what has been done. -/
def note (now : Moment) (d : Deed) (w : Worker) : Worker := { w with deeds := w.deeds ++ [(now, d)] }

/-- What has been done since the worker was `before`. -/
def since (before w : Worker) : List Deed :=
  (w.deeds.drop before.deeds.length).map Prod.snd

/-- Calls the engine. A call to an engine that is gone is dropped. -/
def call (now : Moment) (cause : Cause) (c : EngineCall) (w : Worker) : Worker :=
  if w.reaches then
    match w.endpoint.send c.method c.params with
    | .ok endpoint => { w with endpoint := endpoint }.note now (.call cause c true)
    | .error _ => w.note now (.call cause c false)
  else w

/-! ## Timers -/

/-- Arms a timer. -/
def arm (now : Moment) (key : TimerKey) (wait : Nat) (w : Worker) : Worker :=
  { w with
    timers := w.timers.arm key (now + (Duration.ofMillis wait).nanoseconds) }.note now (.arm key wait)

/-- Cancels a timer, and tells whether one was armed. -/
def disarm (now : Moment) (key : TimerKey) (w : Worker) : Bool × Worker :=
  match w.timers.disarm key with
  | (armed, timers) => (armed, { w with timers := timers }.note now (.disarm key armed))

/-- A task of a timer that is due wakes its room. -/
def ring (now : Moment) (w : Worker) (task : Nat) : Worker :=
  match Assoc.get? w.timers.tasks task with
  | some t =>
    if t.deadline ≤ now then
      ({ w with timers := w.timers.wake task t.key }.note now (.ring t.key)).call now (.timer t.key)
        (EngineCall.wake t.key.2 t.key.1.reason)
    else w
  | none => w

/-- Fires the timers that are due. -/
def fire (now : Moment) (w : Worker) : Worker := (w.timers.due now).foldl (ring now) w

/-! ## The queue -/

/-- Queues a signal. -/
def signal (w : Worker) (s : Signal) : Worker :=
  if w.phase = .stopped then w else { w with signals := w.signals ++ [s] }

/-- Asks the worker to quit. -/
def quit (w : Worker) : Worker := { w with quitting := true }

/-- Does what a signal asks. -/
def runSignal (now : Moment) (w : Worker) : Signal → Worker
  | .arm kind room wait => w.arm now (kind, room) wait
  | .disarm kind room => (w.disarm now (kind, room)).2
  | s =>
    match s.call? with
    | some c => w.call now .signal c
    | none => w

/-- Takes the first signal of the queue. -/
def takeSignal (now : Moment) (w : Worker) (s : Signal) (rest : List Signal) : Worker :=
  runSignal now ({ w with signals := rest }.note now (.run s)) s

/-- Drops all timers and says goodbye. -/
def leave (now : Moment) (w : Worker) : Worker :=
  let w := { w with timers := w.timers.clear }.note now .clear
  { w.call now .farewell EngineCall.bye with phase := .closing }

/-- One turn of the loop. Quitting comes first, then the loss of the engine, then the queue. -/
def turn (now : Moment) (w : Worker) : Worker :=
  match w.phase with
  | .running =>
    if w.quitting then { w with phase := .draining }
    else if w.endpoint.lost && !w.reported then { w with reported := true, failed := true }
    else
      match w.signals with
      | [] => w
      | s :: rest => w.takeSignal now s rest
  | .draining =>
    match w.signals with
    | [] => w.leave now
    | s :: rest => w.takeSignal now s rest
  | .closing => { w with phase := .stopped, signals := [], endpoint := w.endpoint.close }
  | .starting | .stopped => w

/-- So many turns of the loop. -/
def turns (now : Moment) : Nat → Worker → Worker
  | 0, w => w
  | n + 1, w => turns now n (w.turn now)

/-- As many turns as there can be something to do: one for each signal, one for the loss of the engine
and three to quit. -/
def work (now : Moment) (w : Worker) : Worker := turns now (w.signals.length + 4) w

/-! ## The engine -/

/-- Puts off what is left to do of a call. -/
def owe (ticket : Nat) (errand : Errand) (w : Worker) : Worker :=
  { w with errands := w.errands ++ [(ticket, errand)] }

/-- Does what a call of the engine asks, as far as it can be done here and now. -/
def obey (now : Moment) (w : Worker) (ticket : Nat) : HostCall → Worker
  | .log level text => (w.note now (.log level text)).owe ticket (.tell (.ok .null))
  | .delay room wait => (w.arm now (.delay, room) wait).owe ticket (.tell (.ok .null))
  | .setRequestTimer room wait => (w.arm now (.request, room) wait).owe ticket (.tell (.ok .null))
  | .destroyRequestTimer room =>
    match w.disarm now (.request, room) with
    | (armed, w) => w.owe ticket (.tell (.ok (.bool armed)))
  | .waitForReply connection wait => w.owe ticket (.ask (.waitForReply connection wait))
  | .isThinking connection => w.owe ticket (.ask (.isThinking connection))
  | .gameOver room => w.owe ticket (.ask (.gameOver room))
  | c => (w.note now (.post (.effect c))).owe ticket (.tell (.ok .null))

/-- Serves a call of the engine. -/
def serve (now : Moment) (w : Worker) (entry : Nat × Packet.Call) : Worker :=
  match HostCall.ofCall? entry.2 with
  | none => w
  | some (.error words) => w.owe entry.1 (.tell (.error words))
  | some (.ok c) => w.obey now entry.1 c

/-- Some octets of the engine have arrived. The calls in them are served in order. -/
def receive (now : Moment) (w : Worker) (chunk : Octets) : Worker :=
  let endpoint := w.endpoint.receive HostCall.known chunk
  (w.endpoint.arrivedSince endpoint).foldl (serve now)
    ({ w with endpoint := endpoint }.note now (.read chunk))

/-- The engine's output has ended. -/
def endOfOutput (w : Worker) : Worker := { w with endpoint := w.endpoint.endOfInput }

/-- Answers a call of the engine. -/
def answer (w : Worker) (ticket : Nat) (result : Except String Packet.Value) : Worker :=
  { w with endpoint := w.endpoint.finish ticket result }

/-- Runs the errand of a call. -/
def runErrand (now : Moment) (w : Worker) (ticket : Nat) : Worker :=
  let settled := { w with errands := Assoc.erase w.errands ticket }
  match Assoc.get? w.errands ticket with
  | some (.tell result) => settled.answer ticket result
  | some (.ask c) => settled.note now (.post (.question ticket c))
  | none => w

/-- Runs all errands in order. -/
def runErrands (now : Moment) (w : Worker) : Worker :=
  (Assoc.keys w.errands).foldl (runErrand now) w

/-! ## The start -/

/-- The engine has greeted, and `rest` has followed the greeting. -/
def start (now : Moment) (w : Worker) (rest : Octets) : Worker :=
  if w.phase = .starting then { w with phase := .running }.receive now rest else w

/-- The engine has not come up. The signals that were queued are dropped. -/
def failStart (w : Worker) : Worker :=
  if w.phase = .starting then { w with phase := .stopped, failed := true, signals := [] } else w

/-- The engine has not come up in time. -/
def giveUp (w : Worker) : Worker := { w with failed := true }

end Worker

end GameHall
