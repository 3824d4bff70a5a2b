import GameHall.Engine.Greeting
import GameHall.Scheduler.Basic
import GameHall.Scheduler.Worker

/-!
# Crews

A rehearsal plays the server through without processes and without waiting: engines behave in one of a
few set manners, and time is a number. A crew is one worker with its engine.

An engine that is obliging says nothing of its own accord; what it says is given to it.
-/

namespace GameHall.Rehearsal

/-- How an engine behaves. -/
inductive Manner where
  /-- It greets, and exits when it is told to. -/
  | obliging
  /-- It greets, and does not exit when it is told to. -/
  | stubborn
  /-- It greets and exits. -/
  | leaving
  /-- It never greets. -/
  | mute
  /-- It exits before it has greeted. -/
  | vanishing
  /-- It cannot be started. -/
  | missing
  deriving DecidableEq

/-- How the greeting of an engine stands at the beginning; `limit` is the time an engine has. -/
def Manner.opening (limit : Duration) : Manner → Greeting
  | obliging => Greeting.run limit [.output (Utf8.encode "ready\n")]
  | stubborn => Greeting.run limit [.output (Utf8.encode "ready\n")]
  | leaving => Greeting.run limit [.output (Utf8.encode "ready\n"), .ended]
  | mute => Greeting.initial
  | vanishing => Greeting.run limit [.ended]
  | missing => .failed (.spawn "there is no such program")

/-- A worker with its engine. -/
structure Crew where
  manner : Manner
  /-- The time the engine has to greet. -/
  limit : Duration
  /-- When that time is over. -/
  greetBy : Moment
  greeting : Greeting
  worker : Worker
  /-- Whether the engine is there. -/
  running : Bool

namespace Crew

/-- Acts on what has become of the greeting. -/
def meet (now : Moment) (c : Crew) : Crew :=
  match c.greeting with
  | .waiting _ => c
  | .failed _ => { c with worker := c.worker.failStart, running := false }
  | .greeted rest =>
    let worker := (c.worker.start now rest).runErrands now
    if c.manner = .leaving then { c with worker := worker.endOfOutput, running := false }
    else { c with worker := worker }

/-- Starts an engine. -/
def start (manner : Manner) (limit : Duration) (now : Moment) : Crew :=
  meet now ⟨manner, limit, now + limit.nanoseconds, manner.opening limit, Worker.new, true⟩

/-- How the engine is. -/
def health (c : Crew) : Health :=
  match c.greeting with
  | .waiting _ => .starting
  | .failed _ => .down
  | .greeted _ => if c.worker.endpoint.alive then .up else .down

/-- How the start of the engine has ended, if it has. -/
def started? (c : Crew) : Option (Except EngineFault Unit) :=
  match c.greeting with
  | .waiting _ => none
  | .failed fault => some (.error fault)
  | .greeted _ => some (.ok ())

/-- The moment at which it is clear whether the engine greets, while it is not. -/
def decision? (c : Crew) : Option Moment :=
  match c.greeting with
  | .waiting _ => some c.greetBy
  | _ => none

/-- Whether the engine says what it is given to say. -/
def listens (c : Crew) : Bool :=
  c.running && c.manner = .obliging && c.worker.phase = .running

/-- Lets the worker do what there is to do. The flag tells that the engine is found to be lost. -/
def settle (now : Moment) (c : Crew) : Bool × Crew :=
  let worker := c.worker.work now
  let endpoint := if c.running then worker.endpoint.flush else worker.endpoint.failWriting
  (worker.reported && !c.worker.reported, { c with
    worker := { worker with endpoint := endpoint }
    running := c.running && worker.phase ≠ .stopped })

/-- The engine says something. -/
def say (now : Moment) (c : Crew) (octets : Octets) :
    List (LogLevel × String) × List Post × Crew :=
  let worker := (c.worker.receive now octets).runErrands now
  let deeds := c.worker.since worker
  (deeds.filterMap Deed.log?, deeds.filterMap Deed.post?, { c with worker := worker })

/-- The engine exits. -/
def exit (c : Crew) : Crew := { c with worker := c.worker.endOfOutput, running := false }

/-- The next moment at which something happens by itself. -/
def next? (c : Crew) : Option Moment :=
  match c.greeting with
  | .waiting _ => some c.greetBy
  | .failed _ => none
  | .greeted _ => c.worker.timers.next?

/-- What happens by itself at a moment. -/
def advance (now : Moment) (c : Crew) : Crew :=
  match c.greeting with
  | .waiting _ =>
    if c.greetBy ≤ now then meet now { c with greeting := c.greeting.step c.limit .late } else c
  | .failed _ => c
  | .greeted _ => { c with worker := c.worker.fire now }

/-- Whether timers or the time for the greeting are running. -/
def pending (c : Crew) : Nat :=
  match c.greeting with
  | .waiting _ => 1
  | .failed _ => 0
  | .greeted _ => c.worker.timers.tasks.length

end Crew

end GameHall.Rehearsal
