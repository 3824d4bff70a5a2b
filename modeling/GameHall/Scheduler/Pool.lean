import GameHall.Assoc
import GameHall.Scheduler.Basic

/-!
# The pool of schedulers

The schedulers that are not retired, by number. Numbers go up and are never used again. A new room goes
to the scheduler with the least number that has a place for it, and if there is none, a new scheduler
is spawned.
-/

namespace GameHall

/-- The schedulers. -/
structure Pool where
  /-- By number, least first. -/
  schedulers : Assoc Int Scheduler
  nextId : Int

namespace Pool

/-- The number of the first scheduler. -/
def firstId : Int := 1000

/-- No schedulers. -/
def empty : Pool := ⟨[], firstId⟩

/-- A scheduler by number. -/
def get? (p : Pool) (id : Int) : Option Scheduler := Assoc.get? p.schedulers id

/-- Changes a scheduler, if it is there. -/
def update (p : Pool) (id : Int) (f : Scheduler → Scheduler) : Pool :=
  { p with schedulers := Assoc.update p.schedulers id f }

/-- Takes a scheduler out. -/
def remove (p : Pool) (id : Int) : Pool := { p with schedulers := Assoc.erase p.schedulers id }

/-- Asks schedulers for a place, one after the other, until one has it. Those that are found to be
outdated on the way forget their fingerprints. -/
def askAll (current : String) : Assoc Int Scheduler → Option Int × Assoc Int Scheduler
  | [] => (none, [])
  | (id, s) :: rest =>
    if s.accepts current then (some id, (id, s) :: rest)
    else
      match askAll current rest with
      | (found, rest) => (found, (id, s.ask current) :: rest)

/-- A scheduler with a place for a room, by number; the flag tells whether it was spawned. -/
def acquire (p : Pool) (current : String) (capacity : Nat) : (Int × Bool) × Pool :=
  match askAll current p.schedulers with
  | (some id, schedulers) => ((id, false), { p with schedulers := schedulers })
  | (none, schedulers) =>
    ((p.nextId, true),
      ⟨schedulers ++ [(p.nextId, Scheduler.new capacity current)], p.nextId + 1⟩)

/-- The schedulers that are outdated and host no room. -/
def idle (p : Pool) (current : String) : List Int :=
  (p.schedulers.filter fun e => e.2.isOutdated current && e.2.rooms == 0).map Prod.fst

/-- The schedulers that are outdated and host rooms. -/
def busy (p : Pool) (current : String) : List Int :=
  (p.schedulers.filter fun e => e.2.isOutdated current && e.2.rooms != 0).map Prod.fst

/-- The pool after all schedulers have been asked whether they are outdated. -/
def checkAll (p : Pool) (current : String) : Pool :=
  { p with schedulers := Assoc.mapValues (fun s => s.check current) p.schedulers }

/-- The pool without its idle schedulers, after all have been asked whether they are outdated. -/
def sweep (p : Pool) (current : String) : Pool :=
  { p with schedulers := p.schedulers.filter fun e =>
      !(e.2.isOutdated current && e.2.rooms == 0) }.checkAll current

end Pool

end GameHall
