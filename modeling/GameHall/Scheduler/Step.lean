import GameHall.Scheduler.Worker

/-!
# Steps of a worker

Whatever happens to a worker is an event with its moment, and the worker after it is a function of the
worker before it and the event. The order of events is up to the world: the main loop gives signals from
its own thread, the tasks of the worker's thread take their turns in any order, and the engine talks,
reads and dies as it likes.

The tasks take turns only while the loop waits, so while it drains its queue nothing but signals comes
in.
-/

namespace GameHall

namespace Worker

/-- What happens to a worker. -/
inductive Event where
  /-- The engine has greeted, and `rest` has followed the greeting. -/
  | start (rest : Octets)
  | failStart
  /-- The main loop gives a signal. -/
  | emit (s : Signal)
  | quit
  /-- The main loop gives the engine up, which has not come up in time. -/
  | giveUp
  | turn
  | receive (chunk : Octets)
  | endOfOutput
  /-- The errand of a call is run. -/
  | errand (ticket : Nat)
  /-- The answer to a question has come. -/
  | answer (ticket : Nat) (result : Except String Packet.Value)
  /-- The task of a timer wakes. -/
  | ring (task : Nat)
  /-- The next packet is written. -/
  | write
  /-- The engine does not read any more. -/
  | failWriting

/-- Whether the tasks of the thread take turns. -/
def yields (w : Worker) : Bool := w.phase = .running || w.phase = .closing

/-- The main loop gives a signal. One for an engine that is down is dropped. -/
def emit (w : Worker) (s : Signal) : Worker := if w.isAlive then w.signal s else w

/-- The worker after an event at a moment. -/
def step (w : Worker) : Moment × Event → Worker
  | (now, .start rest) => w.start now rest
  | (_, .failStart) => w.failStart
  | (_, .emit s) => w.emit s
  | (_, .quit) => w.quit
  | (_, .giveUp) => w.giveUp
  | (now, .turn) => w.turn now
  | (now, .receive chunk) => if w.yields then w.receive now chunk else w
  | (_, .endOfOutput) => if w.yields then w.endOfOutput else w
  | (now, .errand ticket) => if w.yields then w.runErrand now ticket else w
  | (_, .answer ticket result) => if w.yields then w.answer ticket result else w
  | (now, .ring task) => if w.yields then w.ring now task else w
  | (_, .write) => { w with endpoint := w.endpoint.writeNext }
  | (_, .failWriting) => { w with endpoint := w.endpoint.failWriting }

/-- What happens to a worker, in order, each with its moment. -/
abbrev History := List (Moment × Event)

/-- The worker after all that has happened. -/
def play (w : Worker) (events : History) : Worker := events.foldl step w

end Worker

end GameHall
