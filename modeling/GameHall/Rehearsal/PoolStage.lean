import GameHall.Rehearsal.Crew
import GameHall.Scheduler.Pool

/-!
# A pool on stage

A pool of schedulers with their crews and without a main loop: what engines ask of the main loop is
never answered, so a question ends when its time is over. Retired schedulers can still be looked at.
-/

namespace GameHall.Rehearsal

/-- How the engines of a rehearsal behave, and how long one waits for them. -/
structure Casting where
  manner : Manner
  /-- The time an engine has to greet. -/
  greeting : Duration
  /-- The time a scheduler has to come up. -/
  startup : Duration
  /-- The time an engine has to exit. -/
  shutdown : Duration

/-- A question of an engine to the main loop. -/
structure Question where
  scheduler : Int
  ticket : Nat
  /-- When its time is over. -/
  deadline : Moment

/-- A pool with its crews. -/
structure PoolStage where
  casting : Casting
  /-- How long a question to the main loop is waited for. -/
  patience : Duration
  now : Moment
  pool : Pool
  retired : Assoc Int Scheduler
  crews : Assoc Int Crew
  questions : List Question
  /-- Schedulers of which someone has been told how their start ended. -/
  told : List Int
  /-- What the engines have logged. -/
  log : List (LogLevel × String)
  /-- The engines that have been reported lost. -/
  lost : List Int

namespace PoolStage

/-- A pool that has just been made. -/
def new (casting : Casting) (patience : Duration) : PoolStage :=
  ⟨casting, patience, 0, Pool.empty, [], [], [], [], [], []⟩

/-- A scheduler by number, retired or not. -/
def scheduler? (s : PoolStage) (id : Int) : Option Scheduler :=
  match s.pool.get? id with
  | some scheduler => some scheduler
  | none => Assoc.get? s.retired id

/-- Changes a scheduler, retired or not. -/
def update (s : PoolStage) (id : Int) (f : Scheduler → Scheduler) : PoolStage :=
  { s with pool := s.pool.update id f, retired := Assoc.update s.retired id f }

/-- Changes a crew. -/
def updateCrew (s : PoolStage) (id : Int) (f : Crew → Crew) : PoolStage :=
  { s with crews := Assoc.update s.crews id f }

/-! ## The course of time -/

/-- Looks how the engine of a scheduler is. -/
def observe (s : PoolStage) (id : Int) (c : Crew) : PoolStage :=
  s.update id fun scheduler =>
    if scheduler.health = .down then scheduler else { scheduler with health := c.health }

/-- Lets one crew do what there is to do. -/
def settleCrew (s : PoolStage) (id : Int) (c : Crew) : PoolStage :=
  match c.settle s.now with
  | (lost, c) =>
    let s := { s with crews := Assoc.set s.crews id c, lost := s.lost ++ if lost then [id] else [] }
    s.observe id c

/-- Lets all crews do what there is to do. -/
def settle (s : PoolStage) : PoolStage :=
  s.crews.foldl (fun s (id, c) => s.settleCrew id c) s

/-- What a question is told whose time is over. -/
def silence (s : PoolStage) : String := (Fault.timeout s.patience).message

/-- The next moment at which something happens by itself. -/
def next? (s : PoolStage) : Option Moment :=
  (s.crews.filterMap (fun e => e.2.next?) ++ s.questions.map Question.deadline).min?

/-- What happens by itself at a moment. -/
def advance (s : PoolStage) (now : Moment) : PoolStage :=
  let due := s.questions.filter fun q => decide (q.deadline ≤ now)
  let s := { s with
    now := now
    questions := s.questions.filter fun q => decide (now < q.deadline)
    crews := Assoc.mapValues (Crew.advance now) s.crews }
  let s := due.foldl (fun s q => s.updateCrew q.scheduler fun c =>
    { c with worker := c.worker.answer q.ticket (.error s.silence) }) s
  s.settle

/-- How much can happen by itself. -/
def pending (s : PoolStage) : Nat :=
  s.crews.foldl (fun n e => n + e.2.pending) 0 + s.questions.length

/-- Lets up to so many things happen by themselves, but none after a moment. -/
def passTo (target : Moment) : Nat → PoolStage → PoolStage
  | 0, s => { s with now := max s.now target }
  | n + 1, s =>
    match s.next? with
    | none => { s with now := max s.now target }
    | some moment =>
      if moment ≤ target then passTo target n (s.advance (max s.now moment))
      else { s with now := max s.now target }

/-- Lets a span of time go by. -/
def pass (s : PoolStage) (span : Duration) : PoolStage :=
  let s := s.settle
  passTo (s.now + span.nanoseconds) s.pending s

/-! ## Schedulers -/

/-- Takes a scheduler with a place for a room, and starts it if it is new. -/
def acquire (s : PoolStage) (fingerprint : String) (capacity : Nat) : (Int × Bool) × PoolStage :=
  match s.pool.acquire fingerprint capacity with
  | ((id, fresh), pool) =>
    let s := { s with pool := pool }
    if fresh then
      let crew := Crew.start s.casting.manner s.casting.greeting s.now
      let s := { s with crews := Assoc.set s.crews id crew }
      ((id, fresh), s.settle)
    else ((id, fresh), s)

/-- How the start of a scheduler has ended, if it has. -/
def started? (s : PoolStage) (id : Int) : Option (Except EngineFault Unit) := do
  (← Assoc.get? s.crews id).started?

/-- Waits until it is clear how the start of a scheduler has ended, but no longer than a span. -/
def awaitStart (s : PoolStage) (id : Int) (span : Duration) : PoolStage :=
  match (Assoc.get? s.crews id).bind Crew.decision? with
  | none => s
  | some moment => passTo (min (s.now + span.nanoseconds) moment) s.pending s

/-- Whether a scheduler is known to have failed. -/
def hasFailed (s : PoolStage) (id : Int) : Bool :=
  (Assoc.get? s.crews id).any fun c => c.worker.failed

/-- Waits for the start of a scheduler. Only the first who asks is told how it ended. -/
def waitStarted (s : PoolStage) (id : Int) (span : Duration) :
    Except SchedulerFault Unit × PoolStage :=
  if s.told.contains id then
    (if s.hasFailed id then .error (.loopGone id) else .ok (), s)
  else
    let s := { s.awaitStart id span with told := id :: s.told }
    match s.started? id with
    | some (.ok ()) => (.ok (), s)
    | some (.error fault) => (.error (.engine fault), s)
    | none =>
      (.error (.startupTimeout id),
        (s.update id fun scheduler => scheduler.fail.markOutdated).updateCrew id fun c =>
          { c with worker := c.worker.giveUp })

/-- Whether a signal to a scheduler reaches it now. -/
def reaches (s : PoolStage) (id : Int) : Bool :=
  (s.scheduler? id).any Scheduler.isAlive &&
    (Assoc.get? s.crews id).any fun c => c.worker.phase = .running

/-- Tries to reach a scheduler. One whose engine is down is marked outdated. -/
def reach (s : PoolStage) (id : Int) : PoolStage :=
  if (s.scheduler? id).any Scheduler.isAlive then s else s.update id Scheduler.markOutdated

/-- Gives a scheduler a signal. -/
def signal (s : PoolStage) (id : Int) (signal : Signal) : PoolStage :=
  if (s.scheduler? id).any Scheduler.isAlive then
    (s.updateCrew id fun c => { c with worker := c.worker.signal signal }).settle
  else s.reach id

/-- Stops a scheduler of the pool. -/
def retire (s : PoolStage) (id : Int) : PoolStage :=
  match s.pool.get? id with
  | none => s
  | some scheduler =>
    let s := { s with pool := s.pool.remove id, retired := Assoc.set s.retired id scheduler }
    (s.updateCrew id fun c => { c with worker := c.worker.quit }).settle

/-- Stops the schedulers that are outdated and host no room; the others that are outdated are told. -/
def sweep (s : PoolStage) (fingerprint : String) : List Int × PoolStage :=
  let idle := s.pool.idle fingerprint
  let busy := s.pool.busy fingerprint
  (busy, idle.foldl retire { s with pool := s.pool.checkAll fingerprint })

/-- Stops all schedulers. -/
def shutdown (s : PoolStage) : PoolStage := (Assoc.keys s.pool.schedulers).foldl retire s

/-! ## Engines -/

/-- Gives an engine something to say. The flag tells whether it was there to say it. -/
def say (s : PoolStage) (id : Int) (octets : Octets) : Bool × PoolStage :=
  match Assoc.get? s.crews id with
  | none => (false, s)
  | some c =>
    if c.listens then
      match c.say s.now octets with
      | (log, posts, c) =>
        let asked := posts.filterMap fun
          | .question ticket _ => some ⟨id, ticket, s.now + s.patience.nanoseconds⟩
          | .effect _ => none
        let s := { s with
          crews := Assoc.set s.crews id c
          log := s.log ++ log
          questions := s.questions ++ asked }
        (true, s.settle)
    else (false, s)

/-- Lets an engine exit. The flag tells whether it was there. -/
def exit (s : PoolStage) (id : Int) : Bool × PoolStage :=
  match Assoc.get? s.crews id with
  | none => (false, s)
  | some c => if c.listens then (true, (s.updateCrew id Crew.exit).settle) else (false, s)

end PoolStage

end GameHall.Rehearsal
