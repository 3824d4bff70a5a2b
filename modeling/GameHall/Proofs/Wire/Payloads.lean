import GameHall.Proofs.Text.Utf8
import GameHall.Proofs.Wire.RoundTrip
import GameHall.SignUp

/-!
# Payloads there and back

What is written of data is read back, however deep they nest up to the limit of the reader and whatever
stands behind them. One lemma says so of a datum and of several (`Datum.takeWithin_write`,
`Datum.takeMany_writeAll`), by induction over the datum. The reader has an allowance of steps, and it
cannot run out: a step down and a step along are paid for by the octet that every datum has at least.

A sign-up travels in such a payload, and the payload in a record.
-/

namespace GameHall

/-! ## Numbers of any size -/

theorem Octets.toNat_dropWhile_zero (bs : Octets) : toNat (bs.dropWhile (· == 0)) = toNat bs := by
  induction bs with
  | nil => rfl
  | cons b bs ih =>
      rw [List.dropWhile_cons]
      split
      · rename_i hb
        have hzero : b = 0 := eq_of_beq hb
        rw [ih, hzero, toNat]
        simp
      · rfl

namespace Cbor

theorem toNat_bignumOctets {n : Nat} (hn : n < 1 <<< 128) : Octets.toNat (bignumOctets n) = n := by
  rw [bignumOctets, Octets.toNat_dropWhile_zero]
  exact Octets.toNat_ofNat hn

theorem length_bignumOctets_le (n : Nat) : (bignumOctets n).length ≤ Value.maxBignum := by
  have hle := (List.dropWhile_sublist (l := Octets.ofNat 16 n) (p := (· == 0))).length_le
  rw [Octets.length_ofNat] at hle
  exact hle

/-- The head of a kind that tells a number, or how much of something follows. -/
def Head.ofNumber? (kind n : Nat) : Option Head :=
  match kind with
  | 0 => some (.positive n)
  | 1 => some (.negative n)
  | 2 => some (.bytes (some n))
  | 3 => some (.text (some n))
  | 4 => some (.array (some n))
  | 5 => some (.map (some n))
  | 6 => some (.tag n)
  | _ => none

/-- The width of the field in which the number stands makes no difference to it. -/
theorem Head.of_ofWidth {kind n : Nat} {head : Head} (h : ofNumber? kind n = some head) (width : Nat) :
    Head.of kind (.ofWidth width n) = some head := by
  unfold ofNumber? at h
  split at h
  case h_8 => cases h
  all_goals
    rw [Head.of, Argument.length_ofWidth]
    exact h

theorem Head.kind_lt {kind n : Nat} {head : Head} (h : ofNumber? kind n = some head) : kind < 8 := by
  unfold ofNumber? at h
  split at h
  case h_8 => cases h
  all_goals omega

/-- Such a head is read as it was written. -/
theorem Head.take_writeHead {kind n : Nat} {head : Head} (h : ofNumber? kind n = some head)
    (hn : n < 18446744073709551616) (rest : Octets) :
    Head.take (writeHead kind n ++ rest) = .found head rest := by
  obtain ⟨width, hform⟩ := writeHead_form kind hn
  rw [Head.take_of_form (Head.kind_lt h) hform, Head.of_ofWidth h]

theorem writeHead_length_pos (kind n : Nat) : 1 ≤ (writeHead kind n).length := by
  rw [writeHead_length]
  split_ifs <;> omega

namespace Value

theorem takeOctets_append (bs rest : Octets) :
    takeOctets bs.length (bs ++ rest) = some (bs, rest) := by
  rw [takeOctets, if_neg (by rw [List.length_append]; omega), List.take_left' rfl, List.drop_left' rfl]

theorem takeWithin_writeBignum {tag n : Nat} (htag : tag = 2 ∨ tag = 3) {v : Value}
    (hv : bignum tag (bignumOctets n) = some v) (allowance depth : Nat) (rest : Octets) :
    takeWithin (allowance + 1) depth (writeBignum tag n ++ rest) = some (v, rest) := by
  have hlen := length_bignumOctets_le n
  have hsize : (bignumOctets n).length < 18446744073709551616 := Nat.lt_of_le_of_lt hlen (by decide)
  have htagHead : ∀ rest, Head.take (writeHead 6 tag ++ rest) = .found (.tag tag) rest :=
    Head.take_writeHead rfl (by omega)
  have hbytesHead : ∀ rest, Head.take (writeHead 2 (bignumOctets n).length ++ rest)
      = .found (.bytes (some (bignumOctets n).length)) rest := Head.take_writeHead rfl hsize
  have hlength : bignumLength tag (.bytes (some (bignumOctets n).length))
      = some (bignumOctets n).length := if_pos ⟨htag, hlen⟩
  simp only [writeBignum, List.append_assoc, takeWithin, htagHead, hbytesHead, hlength]
  simp [takeOctets_append, hv]

end Value

end Cbor

namespace Datum

open Cbor

/-! ## Data and what is read of them -/

mutual

/-- The item that a datum is read as. -/
def value : Datum → Value
  | int v => .int v
  | text s => .text s
  | bool b => .bool b
  | null => .null
  | array elements => .array (values elements)

def values : List Datum → List Value
  | [] => []
  | d :: ds => value d :: values ds

end

mutual

/-- How deep arrays nest in a datum. -/
def depth : Datum → Nat
  | array elements => depthAll elements + 1
  | _ => 0

def depthAll : List Datum → Nat
  | [] => 0
  | d :: ds => max (depth d) (depthAll ds)

end

mutual

/-- What a program of 64 bits can have to write: numbers of 128 bits, the negative ones with a sign among
these, and texts and lists whose lengths are numbers of 64 bits. -/
def Fits : Datum → Prop
  | int v => -170141183460469231731687303715884105728 ≤ v ∧ v < 340282366920938463463374607431768211456
  | text s => (Utf8.encode s).length < 18446744073709551616
  | array elements => elements.length < 18446744073709551616 ∧ AllFit elements
  | _ => True

def AllFit : List Datum → Prop
  | [] => True
  | d :: ds => Fits d ∧ AllFit ds

end

theorem values_eq_map (ds : List Datum) : values ds = ds.map value := by
  induction ds with
  | nil => rfl
  | cons d ds ih => rw [values, ih, List.map_cons]

/-- A number, whether a head can hold it or not. -/
theorem takeWithin_writeNumber {v : Int} (h : (int v).Fits) (allowance depth : Nat) (rest : Octets) :
    Value.takeWithin (allowance + 1) depth (writeNumber v ++ rest) = some (.int v, rest) := by
  obtain ⟨hlow, hhigh⟩ := h
  cases v with
  | ofNat n =>
      rw [writeNumber]
      split
      · rename_i hn
        have hhead : ∀ rest, Head.take (writeHead 0 n ++ rest) = .found (.positive n) rest :=
          Head.take_writeHead rfl hn
        simp only [Value.takeWithin, hhead]
        rfl
      · have hn : n < 1 <<< 128 := by
          simp only [Int.ofNat_eq_natCast] at hhigh
          rw [Nat.one_shiftLeft]
          omega
        refine Value.takeWithin_writeBignum (Or.inl rfl) ?_ allowance depth rest
        rw [Value.bignum, toNat_bignumOctets hn]
        rfl
  | negSucc n =>
      -- a negative number stands as its distance from minus one
      rw [writeNumber]
      split
      · rename_i hn
        have hhead : ∀ rest, Head.take (writeHead 1 n ++ rest) = .found (.negative n) rest :=
          Head.take_writeHead rfl hn
        simp only [Value.takeWithin, hhead]
      · have hn : n < 1 <<< 127 := by
          rw [Nat.one_shiftLeft]
          omega
        have hn' : n < 1 <<< 128 := Nat.lt_trans hn (by decide)
        refine Value.takeWithin_writeBignum (Or.inr rfl) ?_ allowance depth rest
        rw [Value.bignum, toNat_bignumOctets hn', if_neg (by decide), if_pos hn]

theorem takeWithin_writeText {s : String} (h : (text s).Fits) (allowance depth : Nat) (rest : Octets) :
    Value.takeWithin (allowance + 1) depth ((text s).write ++ rest) = some (.text s, rest) := by
  have hhead : ∀ rest, Head.take (writeHead 3 (Utf8.encode s).length ++ rest)
      = .found (.text (some (Utf8.encode s).length)) rest := Head.take_writeHead rfl h
  have hdecode : Utf8.decode? (Utf8.encode s) = some s := Utf8.decode?_eq_some_iff.mpr rfl
  simp only [write, List.append_assoc, Value.takeWithin, hhead]
  simp [Value.takeText, Value.takeOctets_append, hdecode]

/-- Every datum pays for a step. -/
theorem write_length_pos (d : Datum) : 1 ≤ d.write.length := by
  have hfront : ∀ (kind n : Nat) (rest : Octets), 1 ≤ (writeHead kind n ++ rest).length := by
    intro kind n rest
    have hhead := writeHead_length_pos kind n
    rw [List.length_append]
    omega
  cases d with
  | int v =>
      cases v with
      | ofNat n =>
          rw [write, writeNumber]
          split
          · exact writeHead_length_pos 0 n
          · exact hfront 6 2 _
      | negSucc n =>
          rw [write, writeNumber]
          split
          · exact writeHead_length_pos 1 n
          · exact hfront 6 3 _
  | text s =>
      rw [write]
      exact hfront 3 _ _
  | bool b => cases b <;> exact Nat.le_refl 1
  | null => exact Nat.le_refl 1
  | array ds =>
      rw [write]
      exact hfront 4 _ _

mutual

/-- **A datum is read back just if it nests no deeper than the reader goes.** -/
theorem takeWithin_write (d : Datum) (allowance depth : Nat) (rest : Octets) (hfits : d.Fits)
    (h : 2 * d.write.length ≤ allowance + 1) :
    Value.takeWithin allowance depth (d.write ++ rest)
      = if d.depth ≤ depth then some (d.value, rest) else none := by
  have hpos := write_length_pos d
  obtain ⟨left, rfl⟩ : ∃ left, allowance = left + 1 := ⟨allowance - 1, by omega⟩
  cases d with
  | int v => simp [write, takeWithin_writeNumber hfits, Datum.depth, value]
  | text s => simp [takeWithin_writeText hfits, Datum.depth, value]
  | bool b =>
      have hflat : (bool b).depth ≤ depth := Nat.zero_le depth
      have hfalse : Head.take (0xf4 :: rest) = .found (.simple 20) rest := rfl
      have htrue : Head.take (0xf5 :: rest) = .found (.simple 21) rest := rfl
      rw [if_pos hflat]
      cases b with
      | false => simp [write, Value.takeWithin, hfalse, value]
      | true => simp [write, Value.takeWithin, htrue, value]
  | null =>
      have hflat : null.depth ≤ depth := Nat.zero_le depth
      have hnull : Head.take (0xf6 :: rest) = .found (.simple 22) rest := rfl
      rw [if_pos hflat]
      simp [write, Value.takeWithin, hnull, value]
  | array ds =>
      obtain ⟨hlen, hall⟩ := hfits
      have hhead : ∀ rest, Head.take (writeHead 4 ds.length ++ rest)
          = .found (.array (some ds.length)) rest := Head.take_writeHead rfl hlen
      -- the octet of the head pays for the step down
      have hone := writeHead_length_pos 4 ds.length
      rw [write, List.length_append] at h
      simp only [write, List.append_assoc, Value.takeWithin, hhead]
      cases depth with
      | zero => rw [Datum.depth, if_neg (by omega)]
      | succ depth =>
          have hds := takeMany_writeAll ds left depth rest hall (by omega)
          simp only [hds, Datum.depth, Nat.add_le_add_iff_right]
          split <;> rfl

/-- So are several data, one after the other. -/
theorem takeMany_writeAll (ds : List Datum) (allowance depth : Nat) (rest : Octets) (hfits : AllFit ds)
    (h : 2 * (writeAll ds).length ≤ allowance) :
    Value.takeMany allowance depth ds.length (writeAll ds ++ rest)
      = if depthAll ds ≤ depth then some (values ds, rest) else none := by
  cases ds with
  | nil =>
      have hflat : depthAll [] ≤ depth := Nat.zero_le depth
      simp [writeAll, Value.takeMany, hflat, values]
  | cons d ds =>
      obtain ⟨hd, hds⟩ := hfits
      -- the first datum pays for the step along
      have hpos := write_length_pos d
      rw [writeAll, List.length_append] at h
      obtain ⟨left, rfl⟩ : ∃ left, allowance = left + 1 := ⟨allowance - 1, by omega⟩
      have hfirst := takeWithin_write d left depth (writeAll ds ++ rest) hd (by omega)
      have hothers := takeMany_writeAll ds left depth rest hds (by omega)
      rw [writeAll, List.append_assoc, List.length_cons, Value.takeMany, hfirst]
      have hdepth : depthAll (d :: ds) ≤ depth ↔ d.depth ≤ depth ∧ depthAll ds ≤ depth := by
        rw [depthAll]
        exact Nat.max_le
      by_cases hdeep : d.depth ≤ depth
      · by_cases hdeeps : depthAll ds ≤ depth
        · simp [hdeep, hdeeps, hothers, hdepth, values]
        · simp [hdeep, hdeeps, hothers, hdepth]
      · simp [hdeep, hdepth]

end

/-! ## What the getters say of them -/

theorem asText?_value_eq_some_iff {d : Datum} {s : String} :
    d.value.asText? = some s ↔ d = text s := by
  cases d with
  | text s' => simp [value, Value.asText?]
  | int v => simp [value, Value.asText?]
  | bool b => simp [value, Value.asText?]
  | null => simp [value, Value.asText?]
  | array ds => simp [value, Value.asText?]

theorem asInt32?_value_eq_some_iff {d : Datum} {v : Int} :
    d.value.asInt32? = some v ↔ d = int v ∧ -2147483648 ≤ v ∧ v ≤ 2147483647 := by
  cases d with
  | int v' =>
      simp only [value, Value.asInt32?, Option.ite_none_right_eq_some, Option.some.injEq, int.injEq]
      constructor
      · rintro ⟨hrange, rfl⟩
        exact ⟨rfl, hrange⟩
      · rintro ⟨rfl, hrange⟩
        exact ⟨hrange, rfl⟩
  | text s => simp [value, Value.asInt32?]
  | bool b => simp [value, Value.asInt32?]
  | null => simp [value, Value.asInt32?]
  | array ds => simp [value, Value.asInt32?]

/-- An element of what is read is the value of the element that was written in its place. -/
theorem getElem?_values_bind {α : Type} (get : Value → Option α) (ds : List Datum) (i : Nat) :
    (values ds)[i]?.bind get = ds[i]?.bind fun d => get d.value := by
  rw [values_eq_map, List.getElem?_map]
  cases ds[i]? <;> rfl

end Datum

/-! ## Payloads -/

/-- **An array is read back as a payload** just if it nests no deeper than the reader goes, whatever
stands behind it. -/
theorem Payload.elements?_write {ds : List Datum} (h : (Datum.array ds).Fits) (rest : Octets) :
    elements? ((Datum.array ds).write ++ rest)
      = if (Datum.array ds).depth ≤ Cbor.Value.maxDepth then some (Datum.values ds) else none := by
  have htake := Datum.takeWithin_write (.array ds) (2 * ((Datum.array ds).write ++ rest).length + 2)
    Cbor.Value.maxDepth rest h (by rw [List.length_append]; omega)
  rw [elements?, Cbor.Value.take, htake]
  split_ifs <;> rfl

/-- What is read of a list of data that has been written, with anything behind it. -/
structure Datum.ComesBack (ds : List Datum) (rest : Octets) (elements : List Cbor.Value) : Prop where
  read : Payload.elements? ((array ds).write ++ rest) = some elements
  length : elements.length = ds.length
  /-- The texts are where the texts were, and there are no others. -/
  texts : ∀ (i : Nat) (s : String),
    elements[i]?.bind Cbor.Value.asText? = some s ↔ ds[i]? = some (.text s)
  /-- So are the numbers of 32 bits. -/
  numbers : ∀ (i : Nat) (v : Int), elements[i]?.bind Cbor.Value.asInt32? = some v
    ↔ ds[i]? = some (.int v) ∧ -2147483648 ≤ v ∧ v ≤ 2147483647

theorem Datum.comesBack {ds : List Datum} (hfits : (array ds).Fits)
    (hdepth : (array ds).depth ≤ Cbor.Value.maxDepth) (rest : Octets) :
    ComesBack ds rest (values ds) where
  read := by
    rw [Payload.elements?_write hfits, if_pos hdepth]
  length := by
    rw [values_eq_map, List.length_map]
  texts := by
    intro i s
    rw [getElem?_values_bind, Option.bind_eq_some_iff]
    simp only [asText?_value_eq_some_iff]
    exact exists_eq_right
  numbers := by
    intro i v
    rw [getElem?_values_bind, Option.bind_eq_some_iff]
    simp only [asInt32?_value_eq_some_iff]
    constructor
    · rintro ⟨d, hd, rfl, hrange⟩
      exact ⟨hd, hrange⟩
    · rintro ⟨hd, hrange⟩
      exact ⟨.int v, hd, rfl, hrange⟩

/-! ## Sign-ups -/

namespace SignUp

/-- The payload of a sign-up, with what a later client may add. -/
def payload (s : SignUp) (more : List Datum) : Datum :=
  .array (.text s.name :: .text s.password :: .text s.md5 :: .text s.version :: .text s.uuid :: more)

/-- The record that carries it, with any octets behind the payload. -/
def record (s : SignUp) (more : List Datum) (rest : Octets) : Record where
  id := Record.notificationId
  mask := mask
  command := command
  payload := (s.payload more).write ++ rest
  timing := none

theorem ofRecord?_record (s : SignUp) {more : List Datum} (hfits : (s.payload more).Fits)
    (hdepth : (s.payload more).depth ≤ Cbor.Value.maxDepth) (rest : Octets) :
    ofRecord? (s.record more rest) = some s := by
  have hform : hasForm (s.record more rest) = true := by
    simp [hasForm, record]
  have helements := (Datum.comesBack hfits hdepth rest).read
  rw [ofRecord?, if_pos hform, record]
  dsimp only
  rw [payload, helements]
  rfl

/-- A record from which a sign-up is read, also at the other end of a connection. -/
structure Arrives (s : SignUp) (r : Record) : Prop where
  read : ofRecord? r = some s
  /-- A fresh reader of the octets of the record has the record, and nothing is left. -/
  sent : r.payload.length ≤ Cbor.Item.maxLength → ∃ received,
    (Codec.new : RecordCodec).feed Record.shape r.write = (.ok [received], Codec.new)
      ∧ ofRecord? received = some s

theorem arrives_record (s : SignUp) {more : List Datum} (hfits : (s.payload more).Fits)
    (hdepth : (s.payload more).depth ≤ Cbor.Value.maxDepth) (rest : Octets) :
    s.Arrives (s.record more rest) where
  read := ofRecord?_record s hfits hdepth rest
  sent := by
    intro hpayload
    have hcommand : command.length ≤ Cbor.Item.maxLength := by decide
    have hrecord : (s.record more rest).Fits := ⟨hcommand, hpayload⟩
    have hfeed : (Codec.new : RecordCodec).feed Record.shape ([s.record more rest].flatMap Record.write)
        = (.ok [s.record more rest], Codec.new) := by
      refine Codec.feed_flatMap ?_
      intro r hr
      rw [List.mem_singleton.mp hr]
      exact Record.decode_write hrecord
    rw [List.flatMap_singleton] at hfeed
    exact ⟨s.record more rest, hfeed, ofRecord?_record s hfits hdepth rest⟩

end SignUp

/-- **What is written into a payload is read from it**, and so a sign-up arrives as it was sent. The data
are texts, numbers, truth values, nulls and lists of these that nest no deeper than the reader goes. -/
theorem payloads_come_back :
    (∀ (ds : List Datum) (rest : Octets), (Datum.array ds).Fits →
        (Datum.array ds).depth ≤ Cbor.Value.maxDepth →
        ∃ elements, Datum.ComesBack ds rest elements)
      ∧ ∀ (s : SignUp) (more : List Datum) (rest : Octets), (s.payload more).Fits →
        (s.payload more).depth ≤ Cbor.Value.maxDepth → s.Arrives (s.record more rest) :=
  ⟨fun _ rest hfits hdepth => ⟨_, Datum.comesBack hfits hdepth rest⟩,
    fun s _ rest hfits hdepth => s.arrives_record hfits hdepth rest⟩

/-- A sign-up with a number beyond 64 bits and a list in a list behind the five texts. -/
theorem payloads_come_back_amy :
    ((⟨"amy", "secret", "rules", "1", "device"⟩ : SignUp).payload
        [.int 18446744073709551616, .array [.array [], .null]]).Fits
      ∧ (⟨"amy", "secret", "rules", "1", "device"⟩ : SignUp).Arrives
        (SignUp.record ⟨"amy", "secret", "rules", "1", "device"⟩
          [.int 18446744073709551616, .array [.array [], .null]] [0xff]) := by
  have hfits : ((⟨"amy", "secret", "rules", "1", "device"⟩ : SignUp).payload
      [.int 18446744073709551616, .array [.array [], .null]]).Fits := by
    simp only [SignUp.payload, Datum.Fits, Datum.AllFit]
    decide
  exact ⟨hfits, payloads_come_back.2 _ _ [0xff] hfits (by decide)⟩

end GameHall
