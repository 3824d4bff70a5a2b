import GameHall.Hall.Lobby
import GameHall.Hall.Upkeep

/-!
# Steps of the main loop

Whatever happens to the hall is an event, and the hall after it is a function of the hall before it
and the event. The order of events is up to the world, except that a connection has none after its
end.

A main loop that has died takes no more events.
-/

namespace GameHall

namespace Hall

/-- What happens to the hall. -/
inductive Event where
  /-- Time goes by. -/
  | pass (span : Duration)
  | accept (host : Host)
  | expireSignUp (connection : Int)
  | record (connection : Int) (record : Record)
  | closed (connection : Int)
  /-- The queue of a connection takes no more frames. -/
  | shut (connection : Int)
  /-- The queue of a connection that has not signed up takes one more frame. -/
  | shutSoon (connection : Int)
  /-- The lobby puts a request; the flag tells whether a scheduler could be started. -/
  | lobby (connection : Int) (request : Lobby.Request) (canSpawn : Bool)
  | showError (connection : Int) (words : String)
  | createRoom (owner : Int) (name : String) (canSpawn : Bool)
  | seatPlayer (connection room : Int)
  | observeRoom (connection room : Int)
  | finishRoom (room : Int)
  | engineUp (scheduler : Int)
  /-- The engine of a scheduler has gone, of which the main loop has not been told. -/
  | engineDown (scheduler : Int)
  | startupOver (scheduler : Int)
  | schedulerFailed (scheduler : Int)
  | refreshFingerprint (reading : Except Fault String)
  | reloadSettings (reading : Except Fault Settings)
  | effect (call : HostCall)
  | kick (connection : Int)
  | temporarilyBan (connection : Int)

/-- The hall after an event that it takes. -/
def take (h : Hall) : Event → Hall
  | .pass span => { h with now := h.now + span.nanoseconds }
  | .accept host => h.accept host
  | .expireSignUp connection => h.expireSignUp connection
  | .record connection record => h.hear connection record
  | .closed connection => h.closed connection
  | .shut connection => h.shut connection
  | .shutSoon connection => h.shutSoon connection
  | .lobby connection request canSpawn => (request.put h connection canSpawn).2
  | .showError connection words => h.showError connection words
  | .createRoom owner name canSpawn => (h.createRoom owner name canSpawn).2
  | .seatPlayer connection room => (h.seatPlayer connection room).2
  | .observeRoom connection room => (h.observeRoom connection room).2
  | .finishRoom room => (h.finishRoom room).2
  | .engineUp scheduler => h.setHealth scheduler .up
  | .engineDown scheduler => h.setHealth scheduler .down
  | .startupOver scheduler => h.startupOver scheduler
  | .schedulerFailed scheduler => h.schedulerFailed scheduler
  | .refreshFingerprint reading => (h.refreshFingerprint reading).2
  | .reloadSettings reading => (h.reloadSettings reading).2
  | .effect call => h.effect call
  | .kick connection => h.kick connection
  | .temporarilyBan connection => h.temporarilyBan connection

/-- The hall after an event. -/
def step (h : Hall) (e : Event) : Hall := if h.crashed then h else h.take e

/-- The hall after events in turn. -/
def run (h : Hall) (events : List Event) : Hall := events.foldl step h

end Hall

end GameHall
