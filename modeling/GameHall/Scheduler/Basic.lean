import GameHall.Fault

/-!
# Schedulers

A scheduler hosts rooms on one rule engine. The main loop sees of it how many rooms it hosts, the
fingerprint of the rules its engine has loaded, and whether the engine is up.

A scheduler whose fingerprint is not the current one is outdated. It forgets its fingerprint when that
is noticed, so that it stays outdated even if the rules change back.
-/

namespace GameHall

/-- How an engine is. -/
inductive Health where
  | starting
  | up
  | down
  deriving DecidableEq

/-- A scheduler as the main loop sees it. -/
structure Scheduler where
  /-- How many rooms it may host. -/
  capacity : Nat
  /-- The fingerprint of the engine's rules; empty once the scheduler is outdated. -/
  fingerprint : String
  /-- How many rooms it hosts. -/
  rooms : Nat
  health : Health
  deriving DecidableEq

namespace Scheduler

/-- A scheduler that has just been spawned. -/
def new (capacity : Nat) (fingerprint : String) : Scheduler := ⟨capacity, fingerprint, 0, .starting⟩

/-- Whether the engine is up or may come up. -/
def isAlive (s : Scheduler) : Bool := s.health ≠ .down

/-- Whether no more rooms fit. -/
def isFull (s : Scheduler) : Bool := s.capacity ≤ s.rooms

/-- Forgets the fingerprint. -/
def markOutdated (s : Scheduler) : Scheduler := { s with fingerprint := "" }

/-- Whether the rules are not those of the fingerprint `current`. -/
def isOutdated (s : Scheduler) (current : String) : Bool :=
  s.fingerprint.isEmpty || s.fingerprint ≠ current

/-- What is left of a scheduler that has been asked whether it is outdated. -/
def check (s : Scheduler) (current : String) : Scheduler :=
  if s.isOutdated current then s.markOutdated else s

/-- Whether new rooms may be placed here. -/
def accepts (s : Scheduler) (current : String) : Bool :=
  s.isAlive && !s.isFull && !s.isOutdated current

/-- What is left of a scheduler that has been asked for a place: its fingerprint is looked at only if
nothing else stands in the way. -/
def ask (s : Scheduler) (current : String) : Scheduler :=
  if s.isAlive && !s.isFull then s.check current else s

/-- Counts a room more. -/
def addRoom (s : Scheduler) : Scheduler := { s with rooms := s.rooms + 1 }

/-- Counts a room less, but never less than none. -/
def removeRoom (s : Scheduler) : Scheduler := { s with rooms := s.rooms - 1 }

/-- The engine is down for good. -/
def fail (s : Scheduler) : Scheduler := { s with health := .down }

end Scheduler

end GameHall
