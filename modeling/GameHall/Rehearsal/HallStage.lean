import GameHall.Connection
import GameHall.Hall.Service
import GameHall.Rehearsal.PoolStage

/-!
# A hall on stage

The whole server: a hall with its connections and the crews of its schedulers. Clients and engines say
what they are given to say; everything else follows from the acts of the hall, which are carried out
in order.
-/

namespace GameHall.Rehearsal

/-- An engine that waits for the reply of a player. -/
structure Expectation where
  scheduler : Int
  ticket : Nat
  connection : Int
  /-- When the engine stops waiting. -/
  deadline : Moment

/-- A hall with everything around it. -/
structure HallStage where
  casting : Casting
  /-- The time a client has to sign up. -/
  signUp : Duration
  hall : Hall
  /-- How many acts of the hall have been carried out. -/
  carried : Nat
  connections : Assoc Int Connection
  crews : Assoc Int Crew
  /-- When the time of a connection to sign up is over. -/
  signUps : List (Int × Moment)
  /-- When the time of a scheduler to come up is over. -/
  startups : List (Int × Moment)
  expectations : List Expectation
  /-- What the engines have logged. -/
  log : List (LogLevel × String)
  stopped : Bool

namespace HallStage

/-- A hall that has just opened. -/
def new (casting : Casting) (signUp : Duration) (hall : Hall) : HallStage :=
  ⟨casting, signUp, hall, 0, [], [], [], [], [], [], false⟩

/-- The moment on stage. -/
def now (s : HallStage) : Moment := s.hall.now

/-- Lets something happen to the hall. -/
def happen (s : HallStage) (e : Hall.Event) : HallStage := { s with hall := s.hall.step e }

def updateConnection (s : HallStage) (id : Int) (f : Connection → Connection) : HallStage :=
  { s with connections := Assoc.update s.connections id f }

def updateCrew (s : HallStage) (id : Int) (f : Crew → Crew) : HallStage :=
  { s with crews := Assoc.update s.crews id f }

/-- Answers a call of an engine. -/
def answer (s : HallStage) (scheduler : Int) (ticket : Nat)
    (result : Except String Packet.Value) : HallStage :=
  s.updateCrew scheduler fun c => { c with worker := c.worker.answer ticket result }

/-! ## What follows from an act -/

/-- The lobby works on a message, and a player whose request is refused is shown why. -/
def serveLobby (s : HallStage) (connection : Int) (command payload : Octets) : HallStage :=
  match Lobby.Request.ofMessage? connection command payload with
  | none => s
  | some request =>
    match request.put s.hall connection true with
    | (.ok (), hall) => { s with hall := hall }
    | (.error fault, hall) => { s with hall := hall.showError connection fault.message }

/-- Carries out an act. -/
def carry (s : HallStage) : Act → HallStage
  | .frame connection record => s.updateConnection connection fun c => c.push (.frame record.write)
  | .close connection => s.updateConnection connection fun c => c.push .close
  | .spawn scheduler =>
    let crew := Crew.start s.casting.manner s.casting.greeting s.now
    { s with
      crews := Assoc.set s.crews scheduler crew
      startups := s.startups ++ [(scheduler, s.now + s.casting.startup.nanoseconds)] }
  | .signal scheduler signal =>
    s.updateCrew scheduler fun c => { c with worker := c.worker.signal signal }
  | .quit scheduler => s.updateCrew scheduler fun c => { c with worker := c.worker.quit }
  | .lobby connection command payload => s.serveLobby connection command payload

/-- Carries out the acts that have not been carried out. -/
def carryAll (s : HallStage) : HallStage :=
  (s.hall.acts.drop s.carried).foldl carry { s with carried := s.hall.acts.length }

/-! ## What follows from the state of the crews and the connections -/

/-- The hall learns that the engine of a scheduler is gone. -/
def loseEngine (s : HallStage) (scheduler : Int) : HallStage :=
  (s.happen (.engineDown scheduler)).happen (.schedulerFailed scheduler)

/-- Lets a crew do what there is to do. -/
def settleCrew (s : HallStage) (id : Int) (c : Crew) : HallStage :=
  match c.settle s.now with
  | (lost, c) =>
    let s := { s with crews := Assoc.set s.crews id c }
    let s := match c.health with
      | .starting => s
      | .up => s.happen (.engineUp id)
      | .down => s.happen (.engineDown id)
    if lost then s.loseEngine id else s

/-- Looks whether a scheduler has come up. -/
def settleStartup (s : HallStage) (scheduler : Int) : HallStage :=
  let settled := { s with startups := s.startups.filter fun e => decide (e.1 ≠ scheduler) }
  match (Assoc.get? s.crews scheduler).bind Crew.started? with
  | none => s
  | some (.ok ()) => settled
  | some (.error _) => settled.loseEngine scheduler

/-- Gives the hall what a connection reports. -/
def report (connection : Int) (s : HallStage) : Connection.Report → HallStage
  | .record r => s.happen (.record connection r)
  | .closed => s.happen (.closed connection)

/-- Lets a connection do what there is to do. -/
def settleConnection (s : HallStage) (id : Int) (c : Connection) : HallStage :=
  match c.settle with
  | (reports, c) =>
    let s := { s with connections := Assoc.set s.connections id c }
    let s := if c.isOpen then s else s.happen (.shut id)
    reports.foldl (report id) s

/-- Looks whether a reply has come that an engine waits for. -/
def settleExpectation (s : HallStage) (e : Expectation) : HallStage :=
  match s.hall.reply? e.connection with
  | some outcome => s.answer e.scheduler e.ticket (.ok (.bytes outcome.octets))
  | none => { s with expectations := s.expectations ++ [e] }

/-- One round of everything that can happen at once. -/
def round (s : HallStage) : HallStage :=
  let s := s.carryAll
  let s := s.crews.foldl (fun s (id, c) => s.settleCrew id c) s
  let s := (s.startups.map Prod.fst).foldl settleStartup s
  let s := s.connections.foldl (fun s (id, c) => s.settleConnection id c) s
  s.expectations.foldl settleExpectation { s with expectations := [] }

/-- Rounds enough for everything that one cause can lead to: a message makes a room, a room signals, a
signal finds an engine lost, its loss ends rooms, and so on, each in a round of its own. -/
def rounds : Nat := 16

/-- Lets everything happen that follows from what has happened. -/
def settle (s : HallStage) : HallStage := (List.range rounds).foldl (fun s _ => s.round) s

/-! ## The course of time -/

/-- The next moment at which something happens by itself. -/
def next? (s : HallStage) : Option Moment :=
  (s.crews.filterMap (fun e => e.2.next?) ++ s.signUps.map Prod.snd ++ s.startups.map Prod.snd ++
    s.expectations.map Expectation.deadline).min?

/-- A scheduler has not come up in time. -/
def startupOver (s : HallStage) (scheduler : Int) : HallStage :=
  let s := s.updateCrew scheduler fun c => { c with worker := c.worker.giveUp }
  (s.happen (.startupOver scheduler)).happen (.schedulerFailed scheduler)

/-- What happens by itself at a moment. -/
def advance (s : HallStage) (now : Moment) : HallStage :=
  let signUps := s.signUps.filter fun e => decide (e.2 ≤ now)
  let startups := s.startups.filter fun e => decide (e.2 ≤ now)
  let due := s.expectations.filter fun e => decide (e.deadline ≤ now)
  let s := { s with
    hall := { s.hall with now := now }
    crews := Assoc.mapValues (Crew.advance now) s.crews
    signUps := s.signUps.filter fun e => decide (now < e.2)
    startups := s.startups.filter fun e => decide (now < e.2)
    expectations := s.expectations.filter fun e => decide (now < e.deadline) }
  let s := signUps.foldl (fun s e => s.happen (.expireSignUp e.1)) s
  let s := startups.foldl (fun s e => s.startupOver e.1) s
  let s := due.foldl (fun s e =>
    s.answer e.scheduler e.ticket (.ok (.bytes Router.Outcome.notReady.octets))) s
  s.settle

/-- How much can happen by itself. -/
def pending (s : HallStage) : Nat :=
  s.crews.foldl (fun n e => n + e.2.pending) 0 + s.signUps.length + s.startups.length +
    s.expectations.length

/-- The hall at a later moment. -/
def skipTo (target : Moment) (s : HallStage) : HallStage :=
  { s with hall := { s.hall with now := max s.hall.now target } }

/-- Lets up to so many things happen by themselves, but none after a moment. -/
def passTo (target : Moment) : Nat → HallStage → HallStage
  | 0, s => s.skipTo target
  | n + 1, s =>
    match s.next? with
    | none => s.skipTo target
    | some moment =>
      if moment ≤ target then passTo target n (s.advance (max s.now moment)) else s.skipTo target

/-- Lets a span of time go by. -/
def pass (s : HallStage) (span : Duration) : HallStage :=
  let s := s.settle
  passTo (s.now + span.nanoseconds) s.pending s

/-- Waits for the engines that will have greeted or failed before the time of their schedulers to come
up is over. -/
def awaitStarts (s : HallStage) : HallStage :=
  let moments := s.startups.filterMap fun (id, deadline) =>
    ((Assoc.get? s.crews id).bind Crew.decision?).filter fun moment => decide (moment ≤ deadline)
  match moments.max? with
  | none => s
  | some moment => passTo moment s.pending s

/-! ## Clients -/

/-- A client connects. -/
def connect (s : HallStage) (host : Host) : Int × HallStage :=
  let id := s.hall.nextConnection
  let s := { s with
    connections := Assoc.set s.connections id Connection.new
    signUps := s.signUps ++ [(id, s.now + s.signUp.nanoseconds)] }
  (id, s.happen (.accept host))

/-- A client says something. The flag tells whether its connection was there to say it. -/
def send (s : HallStage) (id : Int) (octets : Octets) : Bool × HallStage :=
  match Assoc.get? s.connections id with
  | none => (false, s)
  | some c =>
    match c.receive octets with
    | (reports, c') =>
      let s := { s with connections := Assoc.set s.connections id c' }
      (c.writer ≠ .ended, reports.foldl (report id) s)

/-- A client ends its side of the connection. -/
def endSending (s : HallStage) (id : Int) : HallStage :=
  match Assoc.get? s.connections id with
  | none => s
  | some c =>
    match c.stopReading with
    | (reports, c) =>
      let s := { s with connections := Assoc.set s.connections id c }
      reports.foldl (report id) s

/-- A client goes away. Nobody looks at its connection any more. -/
def vanish (s : HallStage) (id : Int) : HallStage :=
  let s := (s.endSending id).happen (.shut id)
  { s with connections := Assoc.erase s.connections id }

/-! ## Engines -/

/-- Does what a worker asks of the main loop. -/
def post (scheduler : Int) (s : HallStage) (p : Post) : HallStage :=
  match s.hall.serve p with
  | (none, hall) => { s with hall := hall }
  | (some (ticket, .result result), hall) => { s with hall := hall }.answer scheduler ticket result
  | (some (ticket, .router connection wait), hall) =>
    let deadline := s.now + (Duration.ofMillis wait).nanoseconds
    { s with
      hall := hall
      expectations := s.expectations ++ [⟨scheduler, ticket, connection, deadline⟩] }

/-- Gives an engine something to say. The flag tells whether it was there to say it. -/
def say (s : HallStage) (scheduler : Int) (octets : Octets) : Bool × HallStage :=
  match Assoc.get? s.crews scheduler with
  | none => (false, s)
  | some c =>
    if c.listens then
      match c.say s.now octets with
      | (log, posts, c) =>
        let s := { s with crews := Assoc.set s.crews scheduler c, log := s.log ++ log }
        (true, posts.foldl (post scheduler) s)
    else (false, s)

/-- Lets an engine exit. The flag tells whether it was there. -/
def exit (s : HallStage) (scheduler : Int) : Bool × HallStage :=
  match Assoc.get? s.crews scheduler with
  | none => (false, s)
  | some c => if c.listens then (true, s.updateCrew scheduler Crew.exit) else (false, s)

/-! ## The end -/

/-- What is answered to whoever asks something of a hall that has closed. -/
def gone : Fault := .internal "main loop has stopped"

/-- What is answered to whoever opens a hall again. -/
def opened : Fault := .internal "server was already started"

/-- Closes the hall. -/
def stop (s : HallStage) : HallStage :=
  if s.stopped then s else { s with hall := s.hall.shutdown, stopped := true }.settle

end HallStage

end GameHall.Rehearsal
