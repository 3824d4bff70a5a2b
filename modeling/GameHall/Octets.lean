/-!
# Octet strings

Everything that crosses a connection or an engine pipe is a string of octets. This module holds
the type and the few operations on it that are not about any one format: whole numbers in a field
of fixed width, in both byte orders, and the hexadecimal text of a digest.

`Octets.toNat` undoes `Octets.ofNat` on every number that fits the field (`toNat_ofNat`).
-/

namespace GameHall

/-- A string of octets, first octet first. -/
abbrev Octets := List UInt8

namespace Octets

/-- The octet string read as one big-endian number. -/
def toNat : Octets → Nat
  | [] => 0
  | b :: bs => b.toNat <<< (8 * bs.length) + toNat bs

/-- The low `8 * width` bits of `n` as a big-endian field of `width` octets. -/
def ofNat : (width : Nat) → (n : Nat) → Octets
  | 0, _ => []
  | width + 1, n => UInt8.ofNat (n >>> (8 * width)) :: ofNat width n

/-- The low `8 * width` bits of `n` as a little-endian field of `width` octets. -/
def ofNatLittle : (width : Nat) → (n : Nat) → Octets
  | 0, _ => []
  | width + 1, n => UInt8.ofNat n :: ofNatLittle width (n / 256)

@[simp] theorem length_ofNat (width n : Nat) : (ofNat width n).length = width := by
  induction width with
  | zero => rfl
  | succ width ih => simp [ofNat, ih]

@[simp] theorem length_ofNatLittle (width n : Nat) : (ofNatLittle width n).length = width := by
  induction width generalizing n with
  | zero => rfl
  | succ width ih => simp [ofNatLittle, ih]

/-- A field holds its number modulo the size of the field. -/
theorem toNat_ofNat_mod (width n : Nat) : toNat (ofNat width n) = n % 1 <<< (8 * width) := by
  induction width with
  | zero => simp [ofNat, toNat, Nat.mod_one]
  | succ width ih =>
    have hb : (UInt8.ofNat (n >>> (8 * width))).toNat = n >>> (8 * width) % 256 := by simp
    rw [ofNat, toNat, length_ofNat, ih, hb, Nat.mul_succ, Nat.shiftLeft_add, Nat.shiftLeft_eq,
      Nat.shiftLeft_eq _ 8, Nat.shiftRight_eq_div_pow, Nat.one_shiftLeft, Nat.mod_mul,
      Nat.mul_comm, Nat.add_comm]

/-- A number that fits the field is read back from it. -/
theorem toNat_ofNat {width n : Nat} (h : n < 1 <<< (8 * width)) :
    toNat (ofNat width n) = n := by
  rw [toNat_ofNat_mod, Nat.mod_eq_of_lt h]

/-- The lower-case hexadecimal digit of a number below sixteen. -/
def hexDigit (n : Nat) : Char :=
  if n < 10 then Char.ofNat ('0'.toNat + n) else Char.ofNat ('a'.toNat + (n - 10))

/-- Two lower-case hexadecimal digits for every octet. -/
def toHex (bs : Octets) : String :=
  String.ofList (bs.flatMap fun b => [hexDigit (b.toNat / 16), hexDigit (b.toNat % 16)])

end Octets

end GameHall
