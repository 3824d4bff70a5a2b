/-!
# Double precision numbers

A floating-point datum in one of the three binary interchange formats, widened to the value of a
double. A finite double is `significand * 2 ^ exponent`, in the one form a double has for it: the
significand is below `2 ^ 53`, the exponent is at least `-1074`, and one of the two is as large,
or as small, as it can be.
-/

namespace GameHall

/-- A double precision number. -/
inductive Double where
  | nan
  | infinity (negative : Bool)
  | finite (negative : Bool) (significand : Nat) (exponent : Int)
  deriving DecidableEq

namespace Double

/-- Bits of a double's significand. -/
def precision : Nat := 53

/-- The exponent of the last place of the smallest doubles. -/
def leastExponent : Int := -1074

/-- `significand * 2 ^ exponent` in the form a double has for it: shifted up as far as both
bounds allow. -/
def normal (negative : Bool) (significand : Nat) (exponent : Int) : Double :=
  if significand = 0 then .finite negative 0 leastExponent
  else
    let shift := min (precision - 1 - significand.log2) (exponent - leastExponent).toNat
    .finite negative (significand <<< shift) (exponent - shift)

/-- How a binary interchange format divides its bits, the sign apart. -/
structure Format where
  fractionBits : Nat
  exponentBits : Nat

/-- Two octets: ten bits of fraction, five of exponent. -/
def half : Format := ⟨10, 5⟩

/-- Four octets: 23 bits of fraction, eight of exponent. -/
def single : Format := ⟨23, 8⟩

/-- Eight octets: 52 bits of fraction, eleven of exponent. -/
def double : Format := ⟨52, 11⟩

/-- The number that a bit pattern of a format stands for. -/
def ofBits (f : Format) (bits : Nat) : Double :=
  let fraction := bits % 1 <<< f.fractionBits
  let biased := (bits >>> f.fractionBits) % 1 <<< f.exponentBits
  let negative := bits.testBit (f.fractionBits + f.exponentBits)
  let bias : Int := (1 <<< (f.exponentBits - 1) : Nat) - 1
  if biased + 1 = 1 <<< f.exponentBits then
    if fraction = 0 then .infinity negative else .nan
  else if biased = 0 then normal negative fraction (1 - bias - f.fractionBits)
  else normal negative (1 <<< f.fractionBits + fraction) (biased - bias - f.fractionBits)

end Double

end GameHall
