import GameHall.Engine.HostCall
import GameHall.Hall.Traffic

/-!
# Upkeep

What the main loop does for no player in particular: it gives up schedulers whose engines are gone,
takes note of new rules and settings, does what engines ask, and ends.
-/

namespace GameHall

namespace Hall

/-! ## Schedulers -/

/-- Changes what is known of the engine of a scheduler. -/
def setHealth (h : Hall) (scheduler : Int) (health : Health) : Hall :=
  { h with pool := h.pool.update scheduler fun s =>
      if s.health = .down then s else { s with health := health } }

/-- The engine of a scheduler has not come up in time. -/
def startupOver (h : Hall) (scheduler : Int) : Hall :=
  { h with pool := h.pool.update scheduler fun s => s.fail.markOutdated }

/-- The words for players whose engine is gone. -/
def engineGone : String := "the game engine is unavailable"

/-- The rooms a scheduler hosts. -/
def roomsOf (h : Hall) (scheduler : Int) : List Int :=
  (h.rooms.filter fun e => decide (e.2.scheduler = scheduler)).map Prod.fst

/-- Ends a room whose engine is gone. -/
def loseRoom (h : Hall) (room : Int) : Hall :=
  match h.room? room with
  | none => h
  | some r =>
    let h := (r.players ++ r.observers).foldl (fun h c => h.showError c engineGone) h
    h.finish room r

/-- The engine of a scheduler is gone: its rooms end and it is retired. -/
def schedulerFailed (h : Hall) (scheduler : Int) : Hall :=
  ((h.roomsOf scheduler).foldl loseRoom h).retire scheduler

/-! ## Rules and settings -/

/-- Tells the rooms of a scheduler that their rules are outdated. -/
def wakeOutdated (h : Hall) (scheduler : Int) : Hall :=
  (h.roomsOf scheduler).foldl (fun h room => h.signal scheduler (.wake room "outdated")) h

/-- Takes note of the fingerprint of the rules, if it could be taken. -/
def refreshFingerprint (h : Hall) (reading : Except Fault String) : Except Fault Unit × Hall :=
  match reading with
  | .error fault => (.error fault, h)
  | .ok fingerprint =>
    if fingerprint = h.fingerprint then (.ok (), h)
    else
      let h := { h with fingerprint := fingerprint }
      let busy := h.pool.busy fingerprint
      (.ok (), busy.foldl wakeOutdated h.sweep)

/-- Takes the settings, if they could be read. -/
def reloadSettings (h : Hall) (reading : Except Fault Settings) : Except Fault Unit × Hall :=
  match reading with
  | .error fault => (.error fault, h)
  | .ok settings => (.ok (), { h with settings := settings })

/-! ## Engines -/

/-- The mask of a request to a client. -/
def requestMask : Int32 := Mask.request ||| Mask.fromServer ||| Mask.toClient

/-- Asks a player a question of the rules. -/
def ask (h : Hall) (connection : Int) (command payload : Octets) (timeout : Int32)
    (timestamp : Option Int64) : Hall :=
  match h.session? connection with
  | none => h
  | some s =>
    match s.link.router.request h.now timeout with
    | (id, router) =>
      let record := Router.requestRecord id requestMask command payload timeout timestamp
        (Int64.ofInt h.wall)
      let h := h.updateSession connection fun s => { s with link := { s.link with router := router } }
      h.deliver connection s.link record

/-- Does what an engine has asked for without waiting for an answer. -/
def effect (h : Hall) : HostCall → Hall
  | .notify connection command payload =>
    match h.session? connection with
    | some s => h.deliver connection s.link (Router.notification Router.toClientMask command payload)
    | none => h
  | .request connection command payload timeout timestamp =>
    h.ask connection command payload timeout timestamp
  | .setThinking connection value =>
    h.updateSession connection fun s => { s with thinking := value }
  | .setDied connection value => h.updateSession connection fun s => { s with died := value }
  | .kick connection => h.kick connection
  | .ban connection => h.temporarilyBan connection
  | _ => h

/-- How a question of an engine stands that waits for the reply of a player; `none` if the reply has
not come. -/
def reply? (h : Hall) (connection : Int) : Option Router.Outcome :=
  match h.session? connection with
  | some s => s.link.router.outcome?
  | none => some .cancelled

/-- Answers the question whether the rules wait for a player. -/
def thinking (h : Hall) (connection : Int) : Except String Bool :=
  match h.session? connection with
  | some s => .ok s.thinking
  | none => .error s!"{connectionText connection} is not signed in"

/-! ## The end -/

/-- Closes all connections and stops all schedulers. -/
def shutdown (h : Hall) : Hall :=
  let h := h.pending.foldl (fun h (connection, link) => h.hangUp connection link) h
  let h := h.sessions.foldl (fun h (connection, s) => h.hangUp connection s.link) h
  let h := { h with pending := [], sessions := [], rooms := [] }
  let h := (Assoc.keys h.pool.schedulers).foldl (fun h scheduler => h.act (.quit scheduler)) h
  { h with pool := { h.pool with schedulers := [] } }

end Hall

end GameHall
