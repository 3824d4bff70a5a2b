import GameHall.Clock
import GameHall.Wire.Record

/-!
# Routers

A router stands between a connection and the rest of the server. It gives requests their numbers,
knows the one request whose reply is awaited, and tells the records that are for others from the
replies it keeps.

A new request takes the place of the one before. A reply is kept if it answers the awaited request
in time while the router accepts replies; any reply to the awaited request, kept or not, ends the wait
for it.
-/

namespace GameHall

/-- The state of a router. -/
structure Router where
  lastId : Int32
  /-- The request whose reply is awaited. -/
  expected : Option Int32
  /-- When the latest request was made. -/
  issuedAt : Moment
  /-- Milliseconds the latest request waits for its reply; a negative number is for ever. -/
  timeout : Int32
  reply : Option Octets
  /-- Whether replies are taken at all. -/
  accepting : Bool
  /-- Whether the latest request was given up. -/
  aborted : Bool
  deriving DecidableEq

namespace Router

/-- A router of which nothing has been asked. -/
def new (now : Moment) : Router where
  lastId := 0
  expected := none
  issuedAt := now
  timeout := -1
  reply := none
  accepting := true
  aborted := false

/-- The greatest number of a request. -/
def maxRequestId : Int32 := 10000000

/-- The number of the next request. After the greatest comes 1. -/
def nextId (r : Router) : Int32 := if maxRequestId ≤ r.lastId then 1 else r.lastId + 1

/-- Makes a request: its reply is awaited from now on, and everything about the one before is
forgotten. -/
def request (r : Router) (now : Moment) (timeout : Int32) : Int32 × Router :=
  (r.nextId, { r with
    lastId := r.nextId
    expected := some r.nextId
    issuedAt := now
    timeout := timeout
    reply := none
    aborted := false })

/-- Whether a reply that comes now is in time. -/
def inTime (r : Router) (now : Moment) : Bool :=
  r.timeout < 0 || now - r.issuedAt ≤ (Duration.ofMillis r.timeout.toNatClampNeg).nanoseconds

/-- What a record says to the rest of the server. -/
inductive Heard where
  | notification (command payload : Octets)
  | request (id : Int32) (command payload : Octets)
  deriving DecidableEq

/-- Takes a record from the client. A record that is several things is a notification before it is a
reply, and a reply before it is a request. -/
def hear (r : Router) (now : Moment) (record : Record) : Option Heard × Router :=
  if record.has Mask.notification then (some (.notification record.command record.payload), r)
  else if record.has Mask.reply then
    if r.accepting && r.expected == some record.id then
      if r.inTime now then (none, { r with expected := none, reply := some record.payload })
      else (none, { r with expected := none })
    else (none, r)
  else if record.has Mask.request then
    (some (.request record.id record.command record.payload), r)
  else (none, r)

/-- Gives up the awaited request, if there is one. -/
def abort (r : Router) : Router :=
  if r.expected.isSome then { r with expected := none, aborted := true } else r

/-- Begins or ends taking replies. Ending it gives up the awaited request. -/
def setAccepting (r : Router) (accepting : Bool) : Router :=
  if accepting then { r with accepting := true } else { r with accepting := false }.abort

/-! ## Waiting -/

/-- How a wait for a reply ends. -/
inductive Outcome where
  | ready (payload : Octets)
  /-- No reply came while the wait lasted. -/
  | notReady
  | cancelled
  deriving DecidableEq

/-- The octets that stand for an outcome. -/
def Outcome.octets : Outcome → Octets
  | ready payload => payload
  | notReady => Utf8.encode "__notready"
  | cancelled => Utf8.encode "__cancel"

/-- How a wait ends if it looks at the router now; `none` if it goes on. -/
def outcome? (r : Router) : Option Outcome :=
  if !r.accepting || r.aborted then some .cancelled
  else r.reply.map .ready

/-! ## What a router sends -/

/-- A notification of the server. -/
def notification (mask : Int32) (command payload : Octets) : Record :=
  ⟨Record.notificationId, mask, command, payload, none⟩

/-- The mask of a notification to a client. -/
def toClientMask : Int32 := Mask.notification ||| Mask.fromServer ||| Mask.toClient

/-- A notification to a client. -/
def clientNotification (command : String) (payload : Octets) : Record :=
  notification toClientMask (Utf8.encode command) payload

/-- A request of the server. A timestamp that is not positive stands for the time `wall`. -/
def requestRecord (id mask : Int32) (command payload : Octets) (timeout : Int32)
    (timestamp : Option Int64) (wall : Int64) : Record :=
  let stamp := match timestamp with
    | some t => if 0 < t then t else wall
    | none => wall
  ⟨id, mask, command, payload, some ⟨timeout, stamp⟩⟩

end Router

end GameHall
