import GameHall.Hall.Step
import GameHall.Scheduler.Worker

/-!
# Service

What the main loop does with the posts of workers. It takes them from a queue, one after the other. An
effect is an event like any other. A question is answered, and the asker of a question for a reply gets
the router at which to wait for it.
-/

namespace GameHall

/-- What the asker of a question gets. -/
inductive Response where
  | result (result : Except String Packet.Value)
  /-- The router of a connection, to wait there for so many milliseconds. -/
  | router (connection : Int) (wait : Nat)

namespace Hall

/-- What becomes of a question; `none` if the call is none. -/
def respond (h : Hall) : HostCall → Option Response × Hall
  | .isThinking connection => (some (.result ((h.thinking connection).map .bool)), h)
  | .gameOver room =>
    let finished : Except String Packet.Value := match (h.finishRoom room).1 with
      | .ok () => .ok .null
      | .error fault => .error fault.message
    (some (.result finished), h.step (.finishRoom room))
  | .waitForReply connection wait =>
    match h.session? connection with
    | some _ => (some (.router connection wait), h)
    | none => (some (.result (.ok (.bytes Router.Outcome.cancelled.octets))), h)
  | _ => (none, h)

/-- Takes a post from the queue. A question has a response, with the ticket of its call. -/
def serve (h : Hall) : Post → Option (Nat × Response) × Hall
  | .effect call => (none, h.step (.effect call))
  | .question ticket call =>
    match h.respond call with
    | (response, h) => (response.map fun r => (ticket, r), h)

end Hall

end GameHall
