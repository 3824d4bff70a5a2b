import GameHall.Wire.Record

/-!
# Connections

Two loops serve a connection. The reading loop takes what the client sends and reports the records in
it, and then once that it has ended. The writing loop takes frames from a queue and sends them to the
client until it finds the mark that closes the connection.

Either loop that ends cancels the other. A reading loop that is cancelled ends at once; a writing loop
that is cancelled accepts no more frames and still sends those that it has accepted.
-/

namespace GameHall

/-- What the queue of a connection holds. -/
inductive Outgoing where
  | frame (octets : Octets)
  | close
  deriving DecidableEq

/-- How far a writing loop is. -/
inductive Writer where
  | running
  /-- It accepts no more frames and sends those it has. -/
  | draining
  | ended
  deriving DecidableEq

/-- Both loops of a connection. -/
structure Connection where
  codec : RecordCodec
  /-- Whether the reading loop runs. -/
  reading : Bool
  writer : Writer
  cancelled : Bool
  queue : List Outgoing
  /-- What the client has been sent. -/
  sent : Octets

namespace Connection

/-- What a connection reports. -/
inductive Report where
  | record (r : Record)
  | closed
  deriving DecidableEq

/-- A connection that has just been accepted. -/
def new : Connection := ⟨Codec.new, true, .running, false, [], []⟩

/-- Whether a frame that is sent now is accepted. -/
def isOpen (c : Connection) : Bool := c.writer = .running

/-! ## The reading loop -/

/-- The end of the reading loop. -/
def endReading (c : Connection) : List Report × Connection :=
  ([.closed], { c with reading := false, cancelled := true })

/-- Some octets have arrived. The records before a fault are reported, and a fault ends the loop. -/
def receive (c : Connection) (chunk : Octets) : List Report × Connection :=
  if c.reading then
    match c.codec.absorb Record.shape chunk with
    | (records, none, codec) => (records.map .record, { c with codec := codec })
    | (records, some _, codec) =>
      (records.map .record ++ [.closed],
        { c with codec := codec, reading := false, cancelled := true })
  else ([], c)

/-- The client has closed its side, reading has failed, or the loop has been cancelled. -/
def stopReading (c : Connection) : List Report × Connection :=
  if c.reading then c.endReading else ([], c)

/-! ## The writing loop -/

/-- Puts something into the queue, if it is accepted. -/
def push (c : Connection) (o : Outgoing) : Connection :=
  if c.isOpen then { c with queue := c.queue ++ [o] } else c

/-- The end of the writing loop. -/
def endWriting (c : Connection) : Connection :=
  { c with writer := .ended, queue := [], cancelled := true }

/-- The loop takes what stands first in the queue. -/
def writeNext (c : Connection) : Connection :=
  match c.writer, c.queue with
  | .ended, _ => c
  | _, .frame octets :: queue => { c with queue := queue, sent := c.sent ++ octets }
  | _, .close :: _ => c.endWriting
  | .draining, [] => c.endWriting
  | .running, [] => c

/-- The loop notices that it has been cancelled. -/
def drain (c : Connection) : Connection :=
  if c.cancelled && c.writer = .running then { c with writer := .draining } else c

/-- What may happen at a connection, with what it reports. -/
inductive Step : Connection → List Report → Connection → Prop where
  | receive (c : Connection) (chunk : Octets) (h : chunk ≠ []) :
      Step c (c.receive chunk).1 (c.receive chunk).2
  /-- The client has closed its side, or reading has failed. -/
  | lose (c : Connection) : Step c c.stopReading.1 c.stopReading.2
  | cancel (c : Connection) (h : c.cancelled = true) : Step c c.stopReading.1 c.stopReading.2
  | push (c : Connection) (o : Outgoing) : Step c [] (c.push o)
  | write (c : Connection) : Step c [] c.writeNext
  /-- Writing has failed. -/
  | fail (c : Connection) : Step c [] c.endWriting
  | drain (c : Connection) : Step c [] c.drain

/-- Lets both loops do what they can without the client: the queue is sent, and a cancelled loop
ends. -/
def settle (c : Connection) : List Report × Connection :=
  let c := c.drain
  let c := (c.queue.foldl (fun c _ => c.writeNext) c).writeNext
  if c.cancelled then
    match c.stopReading with
    | (reports, c) =>
      let c := c.drain
      (reports, (c.queue.foldl (fun c _ => c.writeNext) c).writeNext)
  else ([], c)

end Connection

end GameHall
