import GameHall.Fault
import GameHall.Json.Reader
import GameHall.Text.LowerCase

/-!
# Server settings

What the operator may change while the server runs. The settings are a JSON document: an object in
which unknown keys are ignored and missing ones keep their defaults, so that an older or a partial
document still loads, or an array of the values in the order of the fields below.
-/

namespace GameHall

/-- The settings of a server. -/
structure Settings where
  /-- Words that a player's name may not contain, whatever their case. -/
  banWords : List String
  description : String
  iconUrl : String
  /-- The most players that may be signed up. -/
  capacity : Nat
  /-- Minutes that an address stays banned; zero for no bans. -/
  tempBanTime : Nat
  motd : String
  hiddenPacks : List String
  enableBots : Bool
  /-- Rooms that one scheduler may host. -/
  roomCountPerThread : Nat
  maxPlayersPerDevice : Nat
  deriving DecidableEq

namespace Settings

/-- What holds where a document is silent. -/
def initial : Settings where
  banWords := []
  description := "Tabletop Server"
  iconUrl := "default"
  capacity := 100
  tempBanTime := 0
  motd := "Welcome!"
  hiddenPacks := []
  enableBots := true
  roomCountPerThread := 2000
  maxPlayersPerDevice := 1000

/-- The fields of a document. -/
inductive Field where
  | banWords | description | iconUrl | capacity | tempBanTime | motd | hiddenPacks | enableBots
  | roomCountPerThread | maxPlayersPerDevice
  deriving DecidableEq

/-- The fields in their order. -/
def Field.all : List Field :=
  [.banWords, .description, .iconUrl, .capacity, .tempBanTime, .motd, .hiddenPacks, .enableBots,
    .roomCountPerThread, .maxPlayersPerDevice]

/-- The key of a field. -/
def Field.key : Field → String
  | banWords => "banWords"
  | description => "description"
  | iconUrl => "iconUrl"
  | capacity => "capacity"
  | tempBanTime => "tempBanTime"
  | motd => "motd"
  | hiddenPacks => "hiddenPacks"
  | enableBots => "enableBots"
  | roomCountPerThread => "roomCountPerThread"
  | maxPlayersPerDevice => "maxPlayersPerDevice"

/-- The settings with one field taken from a document. -/
def put (s : Settings) (v : Json) : Field → Option Settings
  | .banWords => v.asTexts?.map fun x => { s with banWords := x }
  | .description => v.asText?.map fun x => { s with description := x }
  | .iconUrl => v.asText?.map fun x => { s with iconUrl := x }
  | .capacity => v.asWord?.map fun x => { s with capacity := x }
  | .tempBanTime => v.asWord?.map fun x => { s with tempBanTime := x }
  | .motd => v.asText?.map fun x => { s with motd := x }
  | .hiddenPacks => v.asTexts?.map fun x => { s with hiddenPacks := x }
  | .enableBots => v.asBool?.map fun x => { s with enableBots := x }
  | .roomCountPerThread => v.asWord?.map fun x => { s with roomCountPerThread := x }
  | .maxPlayersPerDevice => v.asWord?.map fun x => { s with maxPlayersPerDevice := x }

/-- Takes the members of an object. A key must be text, and a known key may come only once;
`left` are the fields that have not come yet. -/
def ofMembers (s : Settings) (left : List Field) : List (Option String × Json) → Option Settings
  | [] => some s
  | (none, _) :: _ => none
  | (some key, v) :: rest =>
    match Field.all.find? (·.key == key) with
    | none => ofMembers s left rest
    | some field =>
      if field ∈ left then do ofMembers (← s.put v field) (left.erase field) rest else none

/-- Takes the elements of an array in the order of the fields; there may be fewer but not more. -/
def ofElements (s : Settings) : List Field → List Json → Option Settings
  | _, [] => some s
  | [], _ :: _ => none
  | field :: fields, v :: vs => do ofElements (← s.put v field) fields vs

/-- The settings a document describes. -/
def ofJson : Json → Option Settings
  | .object members => ofMembers initial Field.all members
  | .array elements => ofElements initial Field.all elements
  | _ => none

/-- Reads a settings document. -/
def read (text : String) : Option Settings := do ofJson (← Json.read text)

/-- The settings in a file; without a file the defaults hold. -/
def load : Option Octets → Except Fault Settings
  | none => .ok initial
  | some contents =>
    match Utf8.decode? contents with
    | none => .error (.config "the settings are not text")
    | some text =>
      match read text with
      | none => .error (.config "the settings are not valid")
      | some s => .ok s

/-- Whether a list of characters occurs in another. -/
def occursIn (word : List Char) : List Char → Bool
  | [] => word.isEmpty
  | c :: cs => word.isPrefixOf (c :: cs) || occursIn word cs

/-- Whether a name contains a banned word, both in lower case. The empty word bans nothing. -/
def bansName (s : Settings) (name : String) : Bool :=
  (s.banWords.filter fun word => !word.isEmpty).any fun word =>
    occursIn (lowerCase word).toList (lowerCase name).toList

/-- Rooms that one scheduler may host, never none. -/
def roomsPerScheduler (s : Settings) : Nat := max s.roomCountPerThread 1

end Settings

end GameHall
