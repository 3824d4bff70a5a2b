import GameHall.Hall.Basic

/-!
# Admission

A new connection is pending until its first record comes or its time is over. The record is judged
once: it makes a session or it is refused, and in either case the connection is not pending any more.
The checks come in a fixed order, those that cost nothing before the authenticator is asked.
-/

namespace GameHall

/-- Why a sign-up is refused. -/
inductive Refusal where
  /-- The record is no sign-up. -/
  | malformed
  | banned
  | bannedName
  | full
  | deviceFull
  /-- The client has other rules. -/
  | fingerprint
  /-- The authenticator says no. -/
  | credentials (words : String)
  /-- The player is signed up already. -/
  | duplicate
  deriving DecidableEq

/-- What the player is shown. -/
def Refusal.message : Refusal → String
  | malformed => SignUp.invalid
  | banned => "you have been temporarily banned!"
  | bannedName => "invalid user name"
  | full => "server is full!"
  | deviceFull => "cannot register more new users on this device"
  | fingerprint => "MD5 check failed!"
  | credentials words => words
  | duplicate => "others logged in with this name"

namespace Hall

/-- The greatest number of a connection. -/
def maxConnection : Int := 2147483647

/-- The number of the next connection. After the greatest comes 1. -/
def nextConnection (h : Hall) : Int :=
  if h.lastConnection = maxConnection then 1 else h.lastConnection + 1

/-- A client has connected: it is told the public key, and its sign-up is awaited. -/
def accept (h : Hall) (host : Host) : Hall :=
  let connection := h.nextConnection
  let link : Link := ⟨Router.new h.now, host, true, false, false⟩
  let test := Router.clientNotification "NetworkDelayTest" h.authenticator.publicKey
  let h := { h with lastConnection := connection }.deliver connection link test
  { h with pending := Assoc.set h.pending connection link }

/-- The time to sign up is over. -/
def expireSignUp (h : Hall) (connection : Int) : Hall :=
  match Assoc.get? h.pending connection with
  | none => h
  | some link => { h with pending := Assoc.erase h.pending connection }.hangUp connection link

/-- Shows a client why it is refused and closes the connection. -/
def reject (h : Hall) (connection : Int) (link : Link) (why : Refusal) : Hall :=
  let dialog := Router.clientNotification "ErrorDlg" (Datum.text why.message).write
  (h.deliver connection link dialog).hangUp connection link

/-! ## The checks -/

/-- How many sessions there are on a device. -/
def onDevice (h : Hall) (device : String) : Nat :=
  (h.sessions.filter fun e => e.2.device == device).length

/-- Whether an address is banned now. -/
def isBanned (h : Hall) (host : Host) : Bool :=
  match Assoc.get? h.bans host with
  | some until_ => h.now < until_
  | none => false

/-- The bans that are not over. -/
def currentBans (h : Hall) : Assoc Host Moment := h.bans.filter fun e => decide (h.now < e.2)

/-- The first of the checks before the authenticator that a sign-up fails. -/
def refusal? (h : Hall) (s : SignUp) (host : Host) : Option Refusal :=
  if h.isBanned host then some .banned
  else if h.settings.bansName s.name then some .bannedName
  else if h.settings.capacity ≤ h.sessions.length then some .full
  else if h.settings.maxPlayersPerDevice ≤ h.onDevice s.uuid then some .deviceFull
  else if s.md5 ≠ h.fingerprint then some .fingerprint
  else none

/-- Whether a player is signed up. -/
def hasPlayer (h : Hall) (playerId : Int32) : Bool :=
  h.sessions.any fun e => e.2.playerId == playerId

/-! ## The greeting -/

/-- What a player is told about itself. -/
def setupPayload (h : Hall) (s : SignUp) (c : Credentials) : Octets :=
  (Datum.array [.int c.playerId.toInt, .text s.name, .text c.avatar, .int h.wall]).write

/-- What a player is told about the server. -/
def settingsPayload (h : Hall) : Octets :=
  (Datum.array [.text h.settings.motd, .array (h.settings.hiddenPacks.map .text),
    .bool h.settings.enableBots]).write

/-- A session that has just begun. -/
def newSession (link : Link) (s : SignUp) (c : Credentials) : Session where
  link := link
  playerId := c.playerId
  name := s.name
  avatar := c.avatar
  device := s.uuid
  state := .online
  room := lobbyRoom
  observing := none
  thinking := false
  died := false

/-- Signs a player up whom the authenticator knows. The greeting has two frames, and only a player whose
queue takes both of them gets a session: if the connection is gone nothing comes of it, and if the queue
shuts between the two the connection is closed. -/
def signUp (h : Hall) (connection : Int) (link : Link) (s : SignUp) (c : Credentials) : Hall :=
  if h.hasPlayer c.playerId then h.reject connection link .duplicate
  else if link.isOpen then
    let setup := Router.clientNotification "Setup" (h.setupPayload s c)
    let settings := Router.clientNotification "SetServerSettings" h.settingsPayload
    let told := h.deliver connection link setup
    if link.isBrief then told.hangUp connection link
    else
      let told := told.deliver connection link settings
      { told with sessions := Assoc.set told.sessions connection (newSession link s c) }
  else h

/-- Judges the first record of a connection, which is no longer pending. -/
def judge (h : Hall) (connection : Int) (link : Link) (record : Record) : Hall :=
  match SignUp.ofRecord? record with
  | none => h.reject connection link .malformed
  | some s =>
    let refused := h.refusal? s link.host
    let h := { h with bans := h.currentBans }
    match refused with
    | some why => h.reject connection link why
    | none =>
      let verdict := h.authenticator.verdict h.asked s
      let h := { h with asked := s :: h.asked }
      match verdict with
      | .error words => h.reject connection link (.credentials words)
      | .ok c => h.signUp connection link s c

end Hall

end GameHall
