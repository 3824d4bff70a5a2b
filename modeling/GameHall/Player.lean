/-!
# Players

The state of a player as the rules of the games see it.
-/

namespace GameHall

/-- The state of a player. -/
inductive PlayerState where
  | online
  /-- The engine plays for the player, who watches. -/
  | trust
  /-- The player has run away. -/
  | run
  | leave
  | robot
  /-- The connection is gone, and the seat is kept. -/
  | offline
  deriving DecidableEq

namespace PlayerState

/-- The states in order. -/
def all : List PlayerState := [online, trust, run, leave, robot, offline]

/-- The word for a state. -/
def text : PlayerState → String
  | online => "online"
  | trust => "trust"
  | run => "run"
  | leave => "leave"
  | robot => "robot"
  | offline => "offline"

end PlayerState

end GameHall
