import GameHall.Wire.Frame

/-!
# Records

Every message on a client connection is one record: an array of four elements

    id, mask, command, payload

or of six, when the sender waits for an answer only so long:

    id, mask, command, payload, timeout, timestamp

Command and payload are octet strings that this layer does not look into. The mask is a union of
bits that say what the record is (a request, a reply or a notification), who sent it and whom it is
for.

A record under construction holds exactly the elements accepted so far (`RecordDraft`), so there is
no state in which a record could overrun its arity or keep an element of an earlier one.
-/

namespace GameHall

/-! ## The bits of a mask -/

namespace Mask

def request : Int32 := 0x100

def reply : Int32 := 0x200

def notification : Int32 := 0x400

def fromClient : Int32 := 0x010

def fromServer : Int32 := 0x020

def fromLobby : Int32 := 0x040

def toClient : Int32 := 0x001

def toServer : Int32 := 0x002

def toLobby : Int32 := 0x004

end Mask

/-- How long the sender of a request waits for the answer, and since when. -/
structure Timing where
  /-- Milliseconds; a negative number is for ever. -/
  timeout : Int32
  /-- Milliseconds since the beginning of 1970. -/
  timestamp : Int64
  deriving DecidableEq

/-- One message. -/
structure Record where
  id : Int32
  mask : Int32
  command : Octets
  payload : Octets
  timing : Option Timing
  deriving DecidableEq

namespace Record

/-- The id of a notification, to which nobody replies. -/
def notificationId : Int32 := -2

/-- Whether the mask has one of the given bits. -/
def has (r : Record) (bits : Int32) : Bool := r.mask &&& bits != 0

/-- The octets of a record. -/
def write (r : Record) : Octets :=
  let body := Cbor.writeInt r.id.toInt ++ Cbor.writeInt r.mask.toInt ++
    Cbor.Item.write (.bytes r.command) ++ Cbor.Item.write (.bytes r.payload)
  match r.timing with
  | none => Cbor.writeHead 4 4 ++ body
  | some t =>
    Cbor.writeHead 4 6 ++ body ++ Cbor.writeInt t.timeout.toInt ++ Cbor.writeInt t.timestamp.toInt

/-- The octets of several records, one after the other. -/
def writeAll (records : List Record) : Octets := records.flatMap write

end Record

/-- A record of which some elements are there. `timed` tells the six-element form. -/
inductive RecordDraft where
  | empty (timed : Bool)
  | withId (timed : Bool) (id : Int32)
  | withMask (timed : Bool) (id mask : Int32)
  | withCommand (timed : Bool) (id mask : Int32) (command : Octets)
  | withPayload (id mask : Int32) (command payload : Octets)
  | withTimeout (id mask : Int32) (command payload : Octets) (timeout : Int32)
  deriving DecidableEq

namespace RecordDraft

/-- A record has four elements or six. -/
def start (arity : Nat) : Except CodecFault RecordDraft :=
  if arity = 4 then .ok (.empty false)
  else if arity = 6 then .ok (.empty true)
  else .error (.invalidArity arity)

/-- Takes the next element. -/
def push : RecordDraft → Cbor.Item → Except CodecFault (RecordDraft ⊕ Record)
  | empty timed, item => do return .inl (.withId timed (← expectInt32 0 item))
  | withId timed id, item => do return .inl (.withMask timed id (← expectInt32 1 item))
  | withMask timed id mask, item => do
    return .inl (.withCommand timed id mask (← expectString 2 item))
  | withCommand true id mask command, item => do
    return .inl (.withPayload id mask command (← expectString 3 item))
  | withCommand false id mask command, item => do
    return .inr ⟨id, mask, command, ← expectString 3 item, none⟩
  | withPayload id mask command payload, item => do
    return .inl (.withTimeout id mask command payload (← expectInt32 4 item))
  | withTimeout id mask command payload timeout, item => do
    return .inr ⟨id, mask, command, payload, some ⟨timeout, ← expectInt64 5 item⟩⟩

end RecordDraft

/-- The shape of a record. -/
def Record.shape : Shape RecordDraft Record := ⟨RecordDraft.start, RecordDraft.push⟩

/-- The reading end of a client connection. -/
abbrev RecordCodec := Codec RecordDraft

end GameHall
