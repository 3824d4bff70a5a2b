import GameHall.Cbor.Value

/-!
# Payloads of the commands the server understands

A payload the server reads is an array of data items, with anything after it ignored. The payloads
it writes are made of text, whole numbers, truth values, nulls and arrays of these: a `Datum`. A number
that no head can hold is written as a bignum: a tag and the octets of the number.
-/

namespace GameHall

namespace Cbor

/-- The octets of a number of at most sixteen octets, without leading zeros. -/
def bignumOctets (n : Nat) : Octets := (Octets.ofNat 16 n).dropWhile (· == 0)

/-- A number that counts up from zero by tag 2 or down from `-1` by tag 3. -/
def writeBignum (tag n : Nat) : Octets :=
  writeHead 6 tag ++ (writeHead 2 (bignumOctets n).length ++ bignumOctets n)

/-- A whole number of any size. -/
def writeNumber : Int → Octets
  | .ofNat n => if n < 18446744073709551616 then writeHead 0 n else writeBignum 2 n
  | .negSucc n => if n < 18446744073709551616 then writeHead 1 n else writeBignum 3 n

end Cbor

/-- What the server puts into a payload. -/
inductive Datum where
  | int (v : Int)
  | text (s : String)
  | bool (b : Bool)
  | null
  | array (elements : List Datum)
  deriving Inhabited

namespace Datum

mutual

/-- The shortest form of a datum. -/
def write : Datum → Octets
  | int v => Cbor.writeNumber v
  | text s => Cbor.writeHead 3 (Utf8.encode s).length ++ Utf8.encode s
  | bool false => [0xf4]
  | bool true => [0xf5]
  | null => [0xf6]
  | array elements => Cbor.writeHead 4 elements.length ++ writeAll elements

/-- The forms of several data, one after the other. -/
def writeAll : List Datum → Octets
  | [] => []
  | d :: ds => write d ++ writeAll ds

end

end Datum

namespace Payload

/-- The elements of a payload that begins with an array. -/
def elements? (payload : Octets) : Option (List Cbor.Value) :=
  match Cbor.Value.take payload with
  | some (.array elements, _) => some elements
  | _ => none

end Payload

end GameHall
