import GameHall.Number.Duration

/-!
# Moments

A moment is the number of nanoseconds since the server's clock began. The clock counts whole seconds
in a signed word of 64 bits, so there is a last moment, and a deadline beyond it does not exist.
-/

namespace GameHall

/-- A moment on the server's clock. -/
abbrev Moment := Nat

namespace Moment

/-- The first number that is no moment: `2 ^ 63` seconds. -/
def limit : Nat := (1 <<< 63) * 1000000000

/-- The moment a span after another, if the clock has it. -/
def after? (now : Moment) (span : Duration) : Option Moment :=
  if now + span.nanoseconds < limit then some (now + span.nanoseconds) else none

end Moment

end GameHall
