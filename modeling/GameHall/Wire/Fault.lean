import GameHall.Text.Utf8
import GameHall.Cbor.Item

/-!
# Faults of a stream of frames

A stream of frames goes wrong in one of a few ways, and any of them is the end of the stream. A
fault says what was wrong; `CodecFault.message` says it in words.
-/

namespace GameHall

/-- What stood in a place where something else was due. -/
inductive Finding where
  | kind (k : Cbor.Item.Kind)
  | outOfRange (v : Int)
  | packetKind (v : Int)
  /-- Anything else, in words. -/
  | other (words : String)
  deriving DecidableEq

/-- The words for a finding. -/
def Finding.message : Finding → String
  | kind k => k.name
  | outOfRange v => s!"integer {v} out of range"
  | packetKind v => s!"packet kind {v}"
  | other words => words

/-- Why input is malformed. -/
inductive Malformation where
  | item (fault : Cbor.Item.Fault)
  | methodName (fault : Utf8.Fault)
  | text (fault : Utf8.Fault)
  /-- Anything else, in words. -/
  | other (words : String)
  deriving DecidableEq

/-- The words for a malformation. -/
def Malformation.message : Malformation → String
  | item fault => fault.message
  | methodName fault => s!"invalid method name: {fault.message}"
  | text fault => s!"invalid utf-8 text: {fault.message}"
  | other words => words

/-- Why a stream of frames cannot be read on, or a frame cannot be written. -/
inductive CodecFault where
  | invalidArity (n : Nat)
  | unexpectedItem (position : Nat) (found : Finding)
  | malformed (why : Malformation)
  | io (words : String)
  deriving DecidableEq

/-- The words for a fault. -/
def CodecFault.message : CodecFault → String
  | invalidArity n => s!"invalid frame arity {n}"
  | unexpectedItem position found =>
    s!"unexpected item at position {position}: {found.message}"
  | malformed why => s!"malformed input: {why.message}"
  | io words => s!"I/O error: {words}"

end GameHall
