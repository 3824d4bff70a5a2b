import GameHall.Assoc
import GameHall.Fault
import GameHall.Wire.Packet

/-!
# Endpoints

An endpoint is the server's side of the pipes of an engine. Calls that arrive are given to their
handlers in the order of the stream; a handler may answer at once or later, and the answers go out in
the order in which they come. Calls of the server go out in the order in which they are sent and
expect no answer.

The endpoint is alive until its stream ends, is found to be corrupt or cannot be written to, in which
case it is also lost, or until it is closed.
-/

namespace GameHall

/-- The server's side of the pipes of an engine. -/
structure Endpoint where
  codec : PacketCodec
  /-- Whether the engine's packets are read. -/
  reading : Bool
  /-- Calls whose handlers have not answered, by ticket, the first to arrive first. -/
  pending : Assoc Nat Packet.Call
  /-- The ticket of the next call. A ticket is given once. -/
  nextTicket : Nat
  /-- Packets that have not been written. -/
  outgoing : List Packet
  /-- Whether packets are written. -/
  writing : Bool
  alive : Bool
  lost : Bool
  /-- What has been written to the engine. -/
  written : Octets

namespace Endpoint

/-- An endpoint whose pipes are both up. -/
def new : Endpoint := ⟨Codec.new, true, [], 0, [], true, true, false, []⟩

/-- The engine has gone away by itself. -/
def lose (e : Endpoint) : Endpoint := { e with alive := false, lost := true }

/-- Queues a packet while packets are written. -/
def queue (e : Endpoint) (p : Packet) : Endpoint :=
  if e.writing then { e with outgoing := e.outgoing ++ [p] } else e

/-! ## Reading -/

/-- Gives a call to its handler; `known` tells the methods that have one. A call that expects an
answer and has no handler is refused. -/
def dispatch (known : String → Bool) (e : Endpoint) (c : Packet.Call) : Endpoint :=
  if known c.method then
    { e with pending := e.pending ++ [(e.nextTicket, c)], nextTicket := e.nextTicket + 1 }
  else if 0 ≤ c.id then e.queue (.refusal c.id s!"unknown method {c.method}")
  else e

/-- Takes a packet of the engine. The server makes no calls that are answered, so answers are
ignored. -/
def accept (known : String → Bool) (e : Endpoint) : Packet → Endpoint
  | .call c => e.dispatch known c
  | .reply _ _ => e
  | .refusal _ _ => e

/-- Some octets of the engine have arrived. The packets before a fault are taken, and a fault ends
the reading. -/
def receive (known : String → Bool) (e : Endpoint) (chunk : Octets) : Endpoint :=
  if e.reading then
    match e.codec.absorb Packet.shape chunk with
    | (packets, fault, codec) =>
      let e := packets.foldl (accept known) { e with codec := codec }
      match fault with
      | none => e
      | some _ => { e.lose with reading := false }
  else e

/-- The engine's output has ended. -/
def endOfInput (e : Endpoint) : Endpoint :=
  if e.reading then { e.lose with reading := false } else e

/-- The answer to a call with an id that expects one. -/
def answer (id : Int32) : Except String Packet.Value → Packet
  | .ok v => .reply id v
  | .error words => .refusal id words

/-- The handler of the pending call with a ticket answers. -/
def finish (e : Endpoint) (ticket : Nat) (result : Except String Packet.Value) : Endpoint :=
  match Assoc.get? e.pending ticket with
  | none => e
  | some c =>
    let e := { e with pending := Assoc.erase e.pending ticket }
    if 0 ≤ c.id then e.queue (answer c.id result) else e

/-- The pending calls that have arrived since the endpoint was `before`. -/
def arrivedSince (before e : Endpoint) : Assoc Nat Packet.Call :=
  e.pending.filter fun entry => decide (before.nextTicket ≤ entry.1)

/-! ## Writing -/

/-- Makes a call that expects no answer. -/
def send (e : Endpoint) (method : String) (params : List Packet.Value) :
    Except EngineFault Endpoint :=
  if e.alive && e.writing then .ok (e.queue (.call ⟨Packet.oneWay, method, params⟩))
  else .error .closed

/-- Writes the first packet of the queue. One that has no octets ends the writing. -/
def writeNext (e : Endpoint) : Endpoint :=
  match e.outgoing with
  | [] => e
  | p :: rest =>
    match p.write with
    | .ok octets => { e with outgoing := rest, written := e.written ++ octets }
    | .error _ => { e.lose with outgoing := [], writing := false }

/-- Writes the whole queue. -/
def flush (e : Endpoint) : Endpoint := e.outgoing.foldl (fun e _ => e.writeNext) e

/-- Writing has failed because the engine does not read any more. -/
def failWriting (e : Endpoint) : Endpoint :=
  if e.outgoing.isEmpty then e else { e.lose with outgoing := [], writing := false }

/-- Writes the queue and closes both pipes. -/
def close (e : Endpoint) : Endpoint :=
  { e.flush with outgoing := [], writing := false, reading := false, alive := false }

/-- Whether the engine finds its input ended: both directions are given up. -/
def ended (e : Endpoint) : Bool := !e.reading && !e.writing

end Endpoint

end GameHall
