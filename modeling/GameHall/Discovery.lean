import GameHall.Json.Writer
import GameHall.Text.Utf8

/-!
# Discovery

A client that looks for servers sends a probe to everyone, and then asks each server that has
answered for its details. The details are a JSON array that ends with the token of the question, so
the client can tell the answers apart.
-/

namespace GameHall

/-- What the details of a server say of it. -/
structure Summary where
  iconUrl : String
  description : String
  capacity : Nat
  online : Nat
  deriving DecidableEq

namespace Discovery

/-- What a datagram asks. -/
inductive Probe where
  /-- Is there a server? -/
  | detect
  /-- What are its details? -/
  | detail (token : String)
  deriving DecidableEq

/-- The datagram that looks for servers. -/
def detectText : Octets := Utf8.encode "fkDetectServer"

/-- How a question for details begins; the token follows. -/
def detailText : Octets := Utf8.encode "fkGetDetail,"

/-- The answer of a server that was looked for. -/
def presence : Octets := Utf8.encode "me"

/-- The version a server gives. -/
def versionTag : String := "0.1.0-tokio"

/-- As many octets of a datagram as are looked at. -/
def maxDatagram : Nat := 1024

/-- What follows `front`, if `bs` begins with it. -/
def after? (front bs : Octets) : Option Octets :=
  if front.isPrefixOf bs then some (bs.drop front.length) else none

/-- What a datagram asks, if anything. -/
def Probe.ofOctets? (datagram : Octets) : Option Probe :=
  if datagram = detectText then some .detect
  else do return .detail (← Utf8.decode? (← after? detailText datagram))

/-- The details of a server. -/
def detail (s : Summary) (token : String) : Json :=
  .array [.ofText versionTag, .ofText s.iconUrl, .ofText s.description, .ofNat s.capacity,
    .ofNat s.online, .ofText token]

/-- The text of the details. -/
def detailReply (s : Summary) (token : String) : String := (detail s token).render

/-- The answer to a datagram, cut to the size that is looked at. -/
def reply? (s : Summary) (datagram : Octets) : Option Octets :=
  match Probe.ofOctets? (datagram.take maxDatagram) with
  | none => none
  | some .detect => some presence
  | some (.detail token) => some (Utf8.encode (detailReply s token))

end Discovery

end GameHall
