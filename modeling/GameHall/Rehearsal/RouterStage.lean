import GameHall.Connection
import GameHall.Hall.Basic
import GameHall.Messaging.Waiting

/-!
# A router on stage

One router on one connection. The client says what it is given to say, and the connection reports what
it has heard; a record reaches the router when it is given to it. Whoever uses the router may wait for
a reply on the spot, and one more wait may go on in the background.

Nothing here happens between two of the operations, so every party does all that it has to do at once,
and a wait ends as soon as the router has an outcome for it, and otherwise at its deadline.
-/

namespace GameHall.Rehearsal

/-- A router with its connection. -/
structure RouterStage where
  /-- The number of the connection. -/
  id : Int
  now : Moment
  /-- The milliseconds since the beginning of 1970 at the moment zero. -/
  epoch : Int
  /-- The router and the waits at it. -/
  waiting : Waiting
  connection : Connection
  /-- What the connection has reported. -/
  reports : List Connection.Report
  /-- The wait in the background, until someone asks how it has ended. -/
  background : Option Nat

namespace RouterStage

/-- A router that has just been made. -/
def new (id epoch : Int) : RouterStage :=
  ⟨id, 0, epoch, Waiting.new 0, Connection.new, [], none⟩

def router (s : RouterStage) : Router := s.waiting.router

/-- The time of day in milliseconds. -/
def wall (s : RouterStage) : Int := s.epoch + s.now / 1000000

/-! ## The course of time -/

/-- Takes what the connection reports. -/
def hearAll (s : RouterStage) : List Connection.Report × Connection → RouterStage
  | (reports, c) => { s with connection := c, reports := s.reports ++ reports }

/-- Lets every party and every wait at the router go on. -/
def settleWaits (s : RouterStage) : RouterStage := { s with waiting := s.waiting.settle s.now }

/-- Lets everything happen that follows from what has happened. -/
def settle (s : RouterStage) : RouterStage := (s.hearAll s.connection.settle).settleWaits

/-- Lets a span of time go by. -/
def pass (s : RouterStage) (span : Duration) : RouterStage :=
  { s with now := s.now + span.nanoseconds }.settle

/-- Something happens at the router, with all that follows from it there. -/
def happen (s : RouterStage) (a : Waiting.Action) : RouterStage :=
  { s with waiting := s.waiting.act (s.now, a) }.settleWaits

/-! ## Sending -/

/-- What is answered to whoever sends on a connection that is gone. -/
def gone (s : RouterStage) : Fault := .network s!"{Hall.connectionText s.id} is closed"

/-- Sends a record. -/
def send (s : RouterStage) (r : Record) : Except Fault Unit × RouterStage :=
  if s.connection.isOpen then
    (.ok (), { s with connection := s.connection.push (.frame r.write) })
  else (.error s.gone, s)

/-- Makes a request. Its reply is awaited even if the connection is gone. -/
def request (s : RouterStage) (mask : Int32) (command payload : Octets) (timeout : Int32)
    (timestamp : Option Int64) : Except Fault Int32 × RouterStage :=
  let id := s.router.draw.1
  let record :=
    Router.requestRecord id mask command payload timeout timestamp (Int64.ofInt s.wall)
  match (s.happen (.request timeout)).send record with
  | (.ok (), s) => (.ok id, s)
  | (.error fault, s) => (.error fault, s)

/-! ## Hearing and waiting -/

/-- Gives the router a record. -/
def hear (s : RouterStage) (r : Record) : Option Router.Heard × RouterStage :=
  ((s.router.hear s.now r).1, s.happen (.hear r))

/-- Gives up the awaited request. -/
def abort (s : RouterStage) : RouterStage := s.happen .abort

/-- Begins or ends taking replies. -/
def setAccepting (s : RouterStage) (accepting : Bool) : RouterStage :=
  s.happen (.setAccepting accepting)

/-- Begins a wait, and tells which it is. -/
def enter (s : RouterStage) (span : Duration) : Nat × RouterStage :=
  (s.waiting.waits.length, s.happen (.enter span))

/-- How a wait has ended, if it has. -/
def outcome? (s : RouterStage) (i : Nat) : Option Router.Outcome :=
  s.waiting.waits[i]?.bind Wait.outcome?

/-- Waits for a reply on the spot, but no longer than a span. -/
def wait (s : RouterStage) (span : Duration) : Router.Outcome × RouterStage :=
  match s.enter span with
  | (i, s) =>
    match s.outcome? i with
    | some outcome => (outcome, s)
    | none =>
      let s := s.pass span
      ((s.outcome? i).getD .notReady, s)

/-- Begins a wait in the background. -/
def beginWait (s : RouterStage) (span : Duration) : RouterStage :=
  match s.enter span with
  | (i, s) => { s with background := some i }

/-- Waits for the end of the wait in the background, and tells how it has ended. -/
def endWait (s : RouterStage) : Option Router.Outcome × RouterStage :=
  match s.background with
  | none => (none, s)
  | some i =>
    let s := match s.outcome? i, s.waiting.waits[i]? with
      | none, some w => { s with now := max s.now w.deadline }.settle
      | _, _ => s
    (s.outcome? i, { s with background := none })

/-! ## The client -/

/-- The client says something. -/
def peerSend (s : RouterStage) (octets : Octets) : RouterStage :=
  s.hearAll (s.connection.receive octets)

/-- The client ends its side of the connection. -/
def peerClose (s : RouterStage) : RouterStage := s.hearAll s.connection.stopReading

/-- The connection is told to close. -/
def close (s : RouterStage) : RouterStage :=
  { s with connection := s.connection.push .close }

end RouterStage

end GameHall.Rehearsal
