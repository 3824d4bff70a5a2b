import GameHall.Messaging.Router

/-!
# Waiting for a reply

Several waits may be going on at one router while other parties make requests, deliver replies and
give requests up. A wait goes round a loop: it registers for the next notification, looks at the
router, and if there is nothing to end it, sleeps until it is notified or its own deadline comes.

A router is changed by one party at a time, but a party may change it several times, and it notifies
the waits when it has let the router go. What a party has still to do is a duty, and between two of its
changes anything may happen. A party that ends waits changes the router first and notifies afterwards.
Because a wait registers before it looks, a change that it does not see is followed by a notification
that it gets.
-/

namespace GameHall

/-! ## Changes of a router -/

namespace Router

/-- Gives out the number of a request, whose reply is not awaited yet. -/
def draw (r : Router) : Int32 × Router := (r.nextId, { r with lastId := r.nextId })

/-- Awaits the reply to a request from now on, and forgets everything about the one before. -/
def expect (r : Router) (now : Moment) (id timeout : Int32) : Router :=
  { r with expected := some id, issuedAt := now, timeout := timeout, reply := none, aborted := false }

/-- Ends taking replies. -/
def refuse (r : Router) : Router := { r with accepting := false }

/-- Whether the router keeps a reply that it hears. -/
def keeps (r : Router) (now : Moment) (record : Record) : Bool :=
  !record.has Mask.notification && record.has Mask.reply && r.accepting &&
    r.expected == some record.id && r.inTime now

end Router

/-! ## One wait -/

/-- Where a wait is in its loop. A flag says that it has been notified since it registered. -/
inductive WaitPhase where
  /-- It is about to register. -/
  | entering
  /-- It has registered, and is about to look at the router. -/
  | registered (notified : Bool)
  /-- It has found nothing that ends it. -/
  | sleeping (notified : Bool)
  /-- It had not been notified, and is about to look at the clock. -/
  | timing (notified : Bool)
  | done (outcome : Router.Outcome)
  deriving DecidableEq

/-- One wait. -/
structure Wait where
  deadline : Moment
  phase : WaitPhase
  deriving DecidableEq

namespace Wait

/-- A wait that has been notified, if it has registered. -/
def notify (w : Wait) : Wait :=
  match w.phase with
  | .registered _ => { w with phase := .registered true }
  | .sleeping _ => { w with phase := .sleeping true }
  | .timing _ => { w with phase := .timing true }
  | _ => w

/-- A wait goes on. One that has been notified wakes even if its deadline has come. -/
def next (r : Router) (now : Moment) (w : Wait) : Wait :=
  match w.phase with
  | .entering => { w with phase := .registered false }
  | .registered notified =>
    match r.outcome? with
    | some outcome => { w with phase := .done outcome }
    | none => { w with phase := .sleeping notified }
  | .sleeping true => { w with phase := .entering }
  | .sleeping false => { w with phase := .timing false }
  | .timing notified =>
    if w.deadline ≤ now then { w with phase := .done .notReady }
    else { w with phase := .sleeping notified }
  | .done _ => w

/-- How a wait has ended, if it has. -/
def outcome? (w : Wait) : Option Router.Outcome :=
  match w.phase with
  | .done outcome => some outcome
  | _ => none

/-- Whether nothing but a notification or its deadline will wake a wait. -/
def isBlocked (w : Wait) : Bool := w.phase = .sleeping false ∨ w.phase = .timing false

/-- A wait goes on until it ends or is blocked. It need not go round its loop more than once. -/
def settle (r : Router) (now : Moment) (w : Wait) : Wait :=
  (List.range 6).foldl (fun w _ => w.next r now) w

end Wait

/-! ## All waits -/

/-- What a party at a router has still to do. -/
inductive Duty where
  /-- To await the reply to a request. -/
  | expect (id timeout : Int32)
  /-- To give up the awaited request. -/
  | abort
  | notify
  deriving DecidableEq

/-- A router with the waits at it. -/
structure Waiting where
  router : Router
  /-- The waits, in the order in which they have begun. -/
  waits : List Wait
  /-- What the parties that have let the router go have still to do. -/
  duties : List Duty
  deriving DecidableEq

namespace Waiting

/-- What may happen at a router with waits. -/
inductive Action where
  | request (timeout : Int32)
  | hear (record : Record)
  | abort
  | setAccepting (accepting : Bool)
  /-- A party does what it has still to do. -/
  | perform (i : Nat)
  /-- A wait begins. -/
  | enter (span : Duration)
  /-- A wait goes on. -/
  | goOn (i : Nat)
  deriving DecidableEq

/-- A router that has just been made. -/
def new (now : Moment) : Waiting := ⟨Router.new now, [], []⟩

/-- A party does its duty. -/
def discharge (s : Waiting) (now : Moment) : Duty → Waiting
  | .expect id timeout => { s with router := s.router.expect now id timeout }
  | .abort => { s with router := s.router.abort, duties := s.duties ++ [.notify] }
  | .notify => { s with waits := s.waits.map Wait.notify }

/-- What becomes of a router with waits. -/
def act (s : Waiting) : Moment × Action → Waiting
  | (_, .request timeout) => { s with
      router := s.router.draw.2
      duties := s.duties ++ [.expect s.router.draw.1 timeout] }
  | (now, .hear record) => { s with
      router := (s.router.hear now record).2
      duties := if s.router.keeps now record then s.duties ++ [.notify] else s.duties }
  | (now, .abort) => s.discharge now .abort
  | (_, .setAccepting true) => { s with router := s.router.setAccepting true }
  | (_, .setAccepting false) => { s with
      router := s.router.refuse
      duties := s.duties ++ [.abort] }
  | (now, .perform i) =>
    match s.duties[i]? with
    | some duty => { s with duties := s.duties.eraseIdx i }.discharge now duty
    | none => s
  | (now, .enter span) => { s with waits := s.waits ++ [⟨now + span.nanoseconds, .entering⟩] }
  | (now, .goOn i) => { s with waits := s.waits.modify i (Wait.next s.router now) }

/-- What happens at a router, in order, each with its moment. -/
abbrev History := List (Moment × Action)

/-- The router after all that has happened. -/
def play (s : Waiting) (events : History) : Waiting := events.foldl act s

/-- Every party does what it has still to do, and then every wait goes on until it ends or is
blocked. -/
def settle (s : Waiting) (now : Moment) : Waiting :=
  -- a duty leaves one duty at most
  let s := s.play (List.replicate (2 * s.duties.length) (now, .perform 0))
  { s with waits := s.waits.map (Wait.settle s.router now) }

end Waiting

end GameHall
