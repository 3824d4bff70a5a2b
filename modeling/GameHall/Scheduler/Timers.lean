import GameHall.Assoc
import GameHall.Clock

/-!
# Room timers

A room may have two timers at a time, one of each kind. A timer is a task that sleeps until its
deadline, and a register tells for each kind and room which task that is.

Whoever arms a timer starts a task, puts it into the register and ends the task that was there before.
Whoever cancels one takes it out of the register and ends its task. A task that wakes takes whatever
stands in the register for its kind and room out of it. Tasks that are due wake in the order of their
deadlines, and of equal deadlines the one that was started first comes first.
-/

namespace GameHall

/-- The kinds of timer. -/
inductive TimerKind where
  /-- Wakes the room after a pause. -/
  | delay
  /-- Wakes the room when the time for an answer is over. -/
  | request
  deriving DecidableEq

/-- Why a room is woken when a timer of a kind fires. -/
def TimerKind.reason : TimerKind → String
  | delay => "delay_done"
  | request => "request_timer"

/-- The timer of a kind of a room. -/
abbrev TimerKey := TimerKind × Int

/-- A task that sleeps. -/
structure TimerTask where
  key : TimerKey
  deadline : Moment
  deriving DecidableEq

/-- The timers of the rooms of a scheduler. -/
structure Timers where
  /-- Which task is the timer of a kind of a room. -/
  register : Assoc TimerKey Nat
  /-- The tasks that sleep, in the order in which they were started. -/
  tasks : Assoc Nat TimerTask
  /-- The number of the next task. A number is given once. -/
  nextTask : Nat
  deriving DecidableEq

namespace Timers

/-- No timers. -/
def empty : Timers := ⟨[], [], 0⟩

/-- Arms a timer. -/
def arm (ts : Timers) (key : TimerKey) (deadline : Moment) : Timers where
  register := Assoc.set ts.register key ts.nextTask
  tasks :=
    (match Assoc.get? ts.register key with
      | some previous => Assoc.erase ts.tasks previous
      | none => ts.tasks) ++ [(ts.nextTask, ⟨key, deadline⟩)]
  nextTask := ts.nextTask + 1

/-- Cancels a timer, and tells whether one was armed. -/
def disarm (ts : Timers) (key : TimerKey) : Bool × Timers :=
  match Assoc.get? ts.register key with
  | some task =>
    (true, { ts with
      register := Assoc.erase ts.register key, tasks := Assoc.erase ts.tasks task })
  | none => (false, ts)

/-- A task wakes. -/
def wake (ts : Timers) (task : Nat) (key : TimerKey) : Timers :=
  { ts with register := Assoc.erase ts.register key, tasks := Assoc.erase ts.tasks task }

/-- Cancels the timers in the register. -/
def clear (ts : Timers) : Timers :=
  { ts with
    register := []
    tasks := ts.tasks.filter fun e => decide (e.1 ∉ ts.register.map Prod.snd) }

/-- How many timers of a kind are pending. -/
def count (ts : Timers) (kind : TimerKind) : Nat :=
  (ts.register.filter fun e => decide (e.1.1 = kind)).length

/-- The tasks that are due, in the order in which they wake. -/
def due (ts : Timers) (now : Moment) : List Nat :=
  ((ts.tasks.filter fun e => decide (e.2.deadline ≤ now)).mergeSort fun a b =>
    decide (a.2.deadline ≤ b.2.deadline)).map Prod.fst

/-- The first deadline of all. -/
def next? (ts : Timers) : Option Moment := (ts.tasks.map fun e => e.2.deadline).min?

end Timers

end GameHall
