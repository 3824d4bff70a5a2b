import GameHall.Fault

/-!
# Greetings

An engine that has come up says so with one line on its output; what follows the newline are packets.
Line and packets share a pipe, so the newline may stand anywhere in what is read.

An output that ends inside the line counts as a greeting with nothing after it.
-/

namespace GameHall

/-- How far the greeting of an engine is. -/
inductive Greeting where
  /-- The line so far, which has no newline. -/
  | waiting (line : Octets)
  /-- The engine has greeted; `rest` follows the newline. -/
  | greeted (rest : Octets)
  | failed (fault : EngineFault)
  deriving DecidableEq

namespace Greeting

/-- What can happen while a greeting is awaited. -/
inductive Event where
  | output (chunk : Octets)
  /-- The output has ended. -/
  | ended
  /-- The engine's time is over. -/
  | late
  deriving DecidableEq

/-- Before anything has been read. -/
def initial : Greeting := .waiting []

/-- The newline. -/
def newline : UInt8 := 0x0A

/-- Takes an event; `limit` is the time an engine has. What comes after a greeting adds to the rest. -/
def step (limit : Duration) : Greeting → Event → Greeting
  | waiting line, .output chunk =>
    match chunk.span (· ≠ newline) with
    | (_, []) => waiting (line ++ chunk)
    | (_, _ :: rest) => greeted rest
  | waiting [], .ended => failed (.handshake "engine exited before greeting")
  | waiting (_ :: _), .ended => greeted []
  | waiting _, .late => failed (.handshake s!"no greeting within {limit.text}")
  | greeted rest, .output chunk => greeted (rest ++ chunk)
  | greeted rest, _ => greeted rest
  | failed fault, _ => failed fault

/-- Takes events in turn. -/
def run (limit : Duration) (events : List Event) : Greeting := events.foldl (step limit) initial

end Greeting

end GameHall
