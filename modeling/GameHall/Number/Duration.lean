/-!
# Spans of time

A span is a whole number of nanoseconds. Its text uses the largest unit that makes it at least
one, with a decimal point and no trailing zeros.
-/

namespace GameHall

/-- A span of time. -/
structure Duration where
  nanoseconds : Nat
  deriving DecidableEq

namespace Duration

def ofSeconds (n : Nat) : Duration := ⟨n * 1000000000⟩

def ofMillis (n : Nat) : Duration := ⟨n * 1000000⟩

def ofMicros (n : Nat) : Duration := ⟨n * 1000⟩

/-- Drops trailing zeros from a list of digits. -/
def dropTrailingZeros (ds : List Char) : List Char :=
  (ds.reverse.dropWhile (· == '0')).reverse

/-- `whole` and the `places`-digit decimal fraction `part`, followed by a unit. -/
def decimal (whole part places : Nat) (unit : String) : String :=
  let ds := Nat.toDigits 10 part
  let fraction := dropTrailingZeros (List.replicate (places - ds.length) '0' ++ ds)
  if part = 0 then toString whole ++ unit
  else toString whole ++ "." ++ String.ofList fraction ++ unit

/-- The text of a span: seconds, milliseconds, microseconds or nanoseconds. -/
def text (d : Duration) : String :=
  let n := d.nanoseconds
  if 1000000000 ≤ n then decimal (n / 1000000000) (n % 1000000000) 9 "s"
  else if 1000000 ≤ n then decimal (n / 1000000) (n % 1000000) 6 "ms"
  else if 1000 ≤ n then decimal (n / 1000) (n % 1000) 3 "µs"
  else toString n ++ "ns"

end Duration

end GameHall
