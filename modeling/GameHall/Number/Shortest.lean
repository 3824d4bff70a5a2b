import GameHall.Number.Double

/-!
# The fewest digits that read back

A decimal text for a double should be short and should read back as the same double. Every real
in an interval around the double rounds to it; of the decimal grids with one digit, two digits and
so on, the first that meets the interval gives the digits, and the point of it nearest to the
double is taken, the greater of two that are equally near. If a grid meets the interval at all,
one of the two grid points next to the double does, so only these two are tested. Seventeen digits
always suffice.

How the digits are laid out is a decision of the text that shows them (`Double.text`): a point is
always written, and an exponent only for very large and very small numbers.
-/

namespace GameHall

/-- `digits * 10 ^ exponent`. -/
structure Decimal where
  digits : Nat
  exponent : Int
  deriving DecidableEq

namespace Decimal

/-- How many decimal digits a number has; zero has one. -/
def digitCount (n : Nat) : Nat := (Nat.toDigits 10 n).length

/-- Drops trailing zeros, at most `fuel` of them. -/
def trim : (fuel : Nat) → Decimal → Decimal
  | 0, d => d
  | fuel + 1, d =>
    if d.digits ≠ 0 ∧ d.digits % 10 = 0 then trim fuel ⟨d.digits / 10, d.exponent + 1⟩ else d

end Decimal

namespace Double

/-- `⌊log₁₀ (m * 2 ^ q)⌋` for a positive `m`. -/
def magnitude (m : Nat) (q : Int) : Int :=
  let whole := (m <<< q.toNat) >>> (-q).toNat
  if whole ≠ 0 then Decimal.digitCount whole - 1
  else - (Decimal.digitCount (1 <<< (-q).toNat / m) : Int)

/-- The interval of reals that round to `m * 2 ^ q`, in units of `2 ^ (q - 2)`: half a place to
either side, but only a quarter down from a power of two, below which the places are finer. The
ends belong to it when `m` is even. -/
structure Interval where
  low : Nat
  value : Nat
  high : Nat
  closed : Bool

/-- The interval around a positive double. -/
def interval (m : Nat) (q : Int) : Interval where
  low := if m = 1 <<< (precision - 1) ∧ leastExponent < q then 4 * m - 1 else 4 * m - 2
  value := 4 * m
  high := 4 * m + 2
  closed := m % 2 == 0

/-- The point of the grid of multiples of `10 ^ k` that lies in the interval around `m * 2 ^ q`
and is nearest to it; of two equally near ones the greater. -/
def gridPoint (m : Nat) (q k : Int) : Option Nat :=
  let i := interval m q
  let unit := Nat.pow 10 k.toNat <<< (2 - q).toNat
  let scale := Nat.pow 10 (-k).toNat <<< (q - 2).toNat
  let inside (c : Nat) : Bool :=
    if i.closed then decide (i.low * scale ≤ c * unit ∧ c * unit ≤ i.high * scale)
    else decide (i.low * scale < c * unit ∧ c * unit < i.high * scale)
  let below := i.value * scale / unit
  let above := below + 1
  match inside below, inside above with
  | false, false => none
  | true, false => some below
  | false, true => some above
  | true, true =>
    if i.value * scale - below * unit < above * unit - i.value * scale then some below
    else some above

/-- Tries grids of `count` digits and more, at most `fuel` of them. -/
def search (m : Nat) (q : Int) : (fuel count : Nat) → Decimal
  | 0, _ => ⟨m, q⟩
  | fuel + 1, count =>
    let k := magnitude m q - (count - 1)
    match gridPoint m q k with
    | some c => Decimal.trim 17 ⟨c, k⟩
    | none => search m q fuel (count + 1)

/-- The shortest decimal that reads back as the positive double `m * 2 ^ q`. -/
def shortest (m : Nat) (q : Int) : Decimal := search m q 17 1

/-- Digits with a point after the first `whole` of them, and at least one digit on either
side. -/
def positional (d : Decimal) : String :=
  let ds := Nat.toDigits 10 d.digits
  if 0 ≤ d.exponent then String.ofList (ds ++ List.replicate d.exponent.toNat '0') ++ ".0"
  else
    let places := (-d.exponent).toNat
    let padded := List.replicate (places + 1 - ds.length) '0' ++ ds
    let whole := padded.length - places
    String.ofList (padded.take whole) ++ "." ++ String.ofList (padded.drop whole)

/-- One digit, a point if more follow, and the power of ten. -/
def scientific (d : Decimal) : String :=
  let ds := Nat.toDigits 10 d.digits
  let power := d.exponent + (ds.length - 1 : Nat)
  let fraction := if ds.length ≤ 1 then "" else "." ++ String.ofList (ds.drop 1)
  String.ofList (ds.take 1) ++ fraction ++ "e" ++ toString power

/-- The text of a double: positional from one ten-thousandth up to below ten to the sixteenth,
scientific otherwise. -/
def text : Double → String
  | .nan => "NaN"
  | .infinity negative => if negative then "-inf" else "inf"
  | .finite negative m q =>
    let sign := if negative then "-" else ""
    if m = 0 then sign ++ "0.0"
    else
      let d := shortest m q
      let power := d.exponent + (Decimal.digitCount d.digits - 1 : Nat)
      sign ++ if -4 ≤ power ∧ power < 16 then positional d else scientific d

end Double

end GameHall
