import GameHall.Text.Blank
import GameHall.Wire.Payload
import GameHall.Wire.Record

/-!
# Signing up

A new connection is told the public key of the authenticator and must answer with a `Setup`
notification: an array of name, password, fingerprint of the rules, version and device, to which a
later client may add further elements. The form is checked here; whether the credentials are good is
for the `Authenticator` to say.
-/

namespace GameHall

/-- What a client says of itself. -/
structure SignUp where
  name : String
  password : String
  /-- The fingerprint of the client's rules. -/
  md5 : String
  version : String
  uuid : String
  deriving DecidableEq

namespace SignUp

/-- The command of a sign-up. -/
def command : Octets := Utf8.encode "Setup"

/-- The words for a sign-up that is none. -/
def invalid : String := "INVALID SETUP STRING"

/-- The mask of a sign-up: a notification from a client to the server. -/
def mask : Int32 := Mask.notification ||| Mask.fromClient ||| Mask.toServer

/-- Whether a record has the form of a sign-up, its payload apart. -/
def hasForm (r : Record) : Bool :=
  r.timing.isNone && r.id == Record.notificationId && r.mask == mask && r.command == command

/-- The sign-up that the elements of a payload make. Elements after the fifth are ignored. -/
def ofElements : List Cbor.Value → Option SignUp
  | name :: password :: md5 :: version :: uuid :: _ => do
    return ⟨← name.asText?, ← password.asText?, ← md5.asText?, ← version.asText?, ← uuid.asText?⟩
  | _ => none

/-- The sign-up a record carries. -/
def ofRecord? (r : Record) : Option SignUp :=
  if hasForm r then do ofElements (← Payload.elements? r.payload) else none

end SignUp

/-- What an authenticator says of a good sign-up. -/
structure Credentials where
  playerId : Int32
  avatar : String
  deriving DecidableEq

/-- Who decides about sign-ups. An authenticator may answer by what it has been asked before. -/
structure Authenticator where
  /-- What a new connection is told. -/
  publicKey : Octets
  /-- The verdict on a sign-up after the sign-ups `earlier`, latest first; a refusal has the words
  the player is shown. -/
  verdict : (earlier : List SignUp) → SignUp → Except String Credentials

namespace Authenticator

/-- How many of the sign-ups had a name that is not blank. -/
def named (earlier : List SignUp) : Nat :=
  (earlier.filter fun s => !isBlankText s.name).length

/-- Lets in whoever has a name, and numbers the players from 1 on. -/
def openToAll (publicKey : Octets) : Authenticator where
  publicKey := publicKey
  verdict earlier s :=
    if isBlankText s.name then .error "invalid user name"
    else .ok ⟨Int32.ofInt (named earlier + 1), "liubei"⟩

/-- Lets in the players of a list; the avatar is the version the client tells. -/
def ofTable (players : List (String × Int32)) : Authenticator where
  publicKey := Utf8.encode "table"
  verdict _ s :=
    match players.lookup s.name with
    | some id => .ok ⟨id, s.version⟩
    | none => .error s!"unknown user {s.name}"

end Authenticator

end GameHall
