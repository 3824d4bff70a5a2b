import GameHall.Wire.Frame

/-!
# Packets

Server and rule engine talk in packets over a pair of pipes. A packet is an array of three to eight
elements

    kind, id, method, up to five parameters

where the kind is 1 for a call, 2 for a reply and 3 for a refusal. A call whose id is negative
expects no answer. A reply carries its result, and a refusal its words, where a call has its first
parameter; both leave the method empty.
-/

namespace GameHall

namespace Packet

/-- A parameter or a result. -/
inductive Value where
  | null
  | bool (b : Bool)
  | int (v : Int64)
  | text (s : String)
  | bytes (body : Octets)
  deriving DecidableEq

namespace Value

def asInt? : Value → Option Int64
  | int v => some v
  | _ => none

def asBool? : Value → Option Bool
  | bool b => some b
  | _ => none

/-- The octets of a string of either kind. -/
def asBytes? : Value → Option Octets
  | text s => some (Utf8.encode s)
  | bytes body => some body
  | _ => none

/-- The text of a text string, or of an octet string that is text. -/
def asText? : Value → Option String
  | text s => some s
  | bytes body => Utf8.decode? body
  | _ => none

/-- The value of the item at a position. -/
def ofItem (position : Nat) : Cbor.Item → Except CodecFault Value
  | .null => .ok null
  | .bool b => .ok (bool b)
  | .int v => do return int (← expectInt64 position (.int v))
  | .text body =>
    match Utf8.decode body with
    | .ok s => .ok (text s)
    | .error e => .error (.malformed (.text e))
  | .bytes body => .ok (bytes body)
  | .array _ => .error (.unexpectedItem position (.kind .array))

/-- The item a value is written as. -/
def toItem : Value → Cbor.Item
  | null => .null
  | bool b => .bool b
  | int v => .int v.toInt
  | text s => .text (Utf8.encode s)
  | bytes body => .bytes body

end Value

/-- A call of a method by name. -/
structure Call where
  id : Int32
  method : String
  params : List Value
  deriving DecidableEq

/-- The id of a call that expects no answer. -/
def oneWay : Int32 := -2

/-- The most parameters a call may have. -/
def maxParams : Nat := 5

end Packet

open Packet in
/-- What travels over the pipes of an engine. -/
inductive Packet where
  | call (c : Call)
  | reply (id : Int32) (result : Packet.Value)
  | refusal (id : Int32) (message : String)
  deriving DecidableEq

namespace Packet

/-- What a packet is. -/
inductive Kind where
  | call | reply | refusal
  deriving DecidableEq

/-- The number of a kind. -/
def Kind.code : Kind → Nat
  | call => 1
  | reply => 2
  | refusal => 3

/-- The kind at the front of a packet. -/
def Kind.ofItem (item : Cbor.Item) : Except CodecFault Kind := do
  let v ← expectInt (-9223372036854775808) 9223372036854775807 0 item
  if v = 1 then return .call
  else if v = 2 then return .reply
  else if v = 3 then return .refusal
  else .error (.unexpectedItem 0 (.packetKind v))

/-- The packet that a complete list of elements makes. A reply without a result has none to give:
its result is null. A refusal that carries no text has no words. -/
def ofParts (kind : Kind) (id : Int32) (method : String) (params : List Value) : Packet :=
  match kind with
  | .call => .call ⟨id, method, params⟩
  | .reply => .reply id (params.headD .null)
  | .refusal => .refusal id ((params.head?.bind Value.asText?).getD "")

/-- The octets of the items of a packet. -/
def writeParts (kind : Kind) (id : Int32) (method : String) (params : List Value) : Octets :=
  Cbor.writeHead 4 (3 + params.length) ++ Cbor.writeHead 0 kind.code ++
    Cbor.writeInt id.toInt ++ Cbor.Item.write (.text (Utf8.encode method)) ++
    params.flatMap fun v => v.toItem.write

/-- The octets of a packet. A call with too many parameters has none. -/
def write : Packet → Except CodecFault Octets
  | .call c =>
    if maxParams < c.params.length then .error (.invalidArity (3 + c.params.length))
    else .ok (writeParts .call c.id c.method c.params)
  | .reply id result => .ok (writeParts .reply id "" [result])
  | .refusal id message => .ok (writeParts .refusal id "" [.text message])

/-- The octets of several packets, one after the other, or the fault of the first that has none. -/
def writeAll : List Packet → Except CodecFault Octets
  | [] => .ok []
  | p :: ps => do return (← p.write) ++ (← writeAll ps)

/-- The items of a packet, in order. -/
def items (kind : Kind) (id : Int32) (method : String) (params : List Value) : List Cbor.Item :=
  .array (3 + params.length) :: .int kind.code :: .int id.toInt :: .text (Utf8.encode method) ::
    params.map Value.toItem

/-- Writes items one after the other behind what a buffer holds. -/
def appendItems (dst : Octets) (items : List Cbor.Item) : Octets :=
  items.foldl (fun dst item => dst ++ item.write) dst

/-- Writes a packet behind what a buffer holds. The parameters of a call are counted before its first
item is written. -/
def writeTo (p : Packet) (dst : Octets) : Except CodecFault Unit × Octets :=
  match p with
  | .call c =>
    if maxParams < c.params.length then (.error (.invalidArity (3 + c.params.length)), dst)
    else (.ok (), appendItems dst (items .call c.id c.method c.params))
  | .reply id result => (.ok (), appendItems dst (items .reply id "" [result]))
  | .refusal id message => (.ok (), appendItems dst (items .refusal id "" [.text message]))

/-- Writes packets one after the other behind what a buffer holds, up to the first that cannot be
written. -/
def writeAllTo : List Packet → Octets → Except CodecFault Unit × Octets
  | [], dst => (.ok (), dst)
  | p :: ps, dst =>
    match p.writeTo dst with
    | (.ok (), dst) => writeAllTo ps dst
    | (.error e, dst) => (.error e, dst)

/-- The id of the call that a packet makes or answers. -/
def callId : Packet → Int32
  | .call c => c.id
  | .reply id _ => id
  | .refusal id _ => id

/-- Whether a packet is a call. -/
def isCall : Packet → Bool
  | .call _ => true
  | _ => false

end Packet

open Packet in
/-- A packet of which some elements are there. Parameters are held latest first. -/
inductive PacketDraft where
  | empty (arity : Nat)
  | withKind (arity : Nat) (kind : Kind)
  | withId (arity : Nat) (kind : Kind) (id : Int32)
  | withMethod (arity : Nat) (kind : Kind) (id : Int32) (method : String) (params : List Value)
  deriving DecidableEq

namespace PacketDraft

open Packet

/-- A packet has three to eight elements. -/
def start (arity : Nat) : Except CodecFault PacketDraft :=
  if 3 ≤ arity ∧ arity ≤ 3 + maxParams then .ok (.empty arity) else .error (.invalidArity arity)

/-- The packet is complete once as many elements are there as were declared. -/
def close (arity : Nat) (kind : Kind) (id : Int32) (method : String) (params : List Value) :
    PacketDraft ⊕ Packet :=
  if 3 + params.length = arity then .inr (ofParts kind id method params.reverse)
  else .inl (.withMethod arity kind id method params)

/-- Takes the next element. -/
def push : PacketDraft → Cbor.Item → Except CodecFault (PacketDraft ⊕ Packet)
  | empty arity, item => do return .inl (.withKind arity (← Kind.ofItem item))
  | withKind arity kind, item => do return .inl (.withId arity kind (← expectInt32 1 item))
  | withId arity kind id, item => do
    match Utf8.decode (← expectString 2 item) with
    | .ok method => return close arity kind id method []
    | .error e => .error (.malformed (.methodName e))
  | withMethod arity kind id method params, item => do
    let v ← Value.ofItem (3 + params.length) item
    return close arity kind id method (v :: params)

end PacketDraft

/-- The shape of a packet. -/
def Packet.shape : Shape PacketDraft Packet := ⟨PacketDraft.start, PacketDraft.push⟩

/-- The reading end of an engine's pipe. -/
abbrev PacketCodec := Codec PacketDraft

end GameHall
