import GameHall.Cbor.Item
import Mathlib.Tactic.IntervalCases

/-!
# The octets of an item

The reader takes a head in any of five widths, be it the shortest or not. `Head.Form` says which octets
are a head, `Item.Form` which are an item, and `Cut` which may yet become one. The three say nothing of
how anything is read. That the reader takes exactly the items, waits exactly for what is cut off and
refuses the rest is `take_eq_some_iff`, `take_eq_none_iff` and `take_cases`.

The writer makes forms too (`writeHead_form`), and none is shorter (`write_length_le`).
-/

namespace GameHall

/-! ## Fields -/

namespace Octets

theorem toNat_lt (bs : Octets) : toNat bs < 1 <<< (8 * bs.length) := by
  induction bs with
  | nil => decide
  | cons b bs ih =>
      have hb : b.toNat < 256 := b.toNat_lt
      have hle : b.toNat * 2 ^ (8 * bs.length) + 2 ^ (8 * bs.length) ≤ 256 * 2 ^ (8 * bs.length) := by
        rw [← Nat.succ_mul]
        exact Nat.mul_le_mul_right _ hb
      rw [Nat.one_shiftLeft] at ih
      rw [toNat, List.length_cons, Nat.one_shiftLeft, Nat.shiftLeft_eq, Nat.mul_succ, Nat.pow_add,
        Nat.mul_comm (2 ^ (8 * bs.length))]
      omega

/-- Fields of the same width that hold the same number are the same. -/
theorem toNat_injective {bs cs : Octets} (hlen : bs.length = cs.length) (h : toNat bs = toNat cs) :
    bs = cs := by
  induction bs generalizing cs with
  | nil => exact (List.length_eq_zero_iff.mp hlen.symm).symm
  | cons b bs ih =>
      cases cs with
      | nil => cases hlen
      | cons c cs =>
          have hlen' : bs.length = cs.length := Nat.succ.inj hlen
          have hb := toNat_lt bs
          have hc := toNat_lt cs
          rw [hlen', Nat.one_shiftLeft] at hb
          rw [Nat.one_shiftLeft] at hc
          rw [toNat, toNat, hlen', Nat.shiftLeft_eq, Nat.shiftLeft_eq] at h
          -- the first octet is the quotient, and the others are the remainder
          have hdiv := congrArg (· / 2 ^ (8 * cs.length)) h
          have hmod := congrArg (· % 2 ^ (8 * cs.length)) h
          simp only [Nat.mul_comm _ (2 ^ (8 * cs.length)), Nat.mul_add_div (Nat.two_pow_pos _),
            Nat.mul_add_mod, Nat.div_eq_of_lt hb, Nat.div_eq_of_lt hc, Nat.mod_eq_of_lt hb,
            Nat.mod_eq_of_lt hc, Nat.add_zero] at hdiv hmod
          rw [UInt8.toNat_inj.mp hdiv, ih hlen' hmod]

theorem ofNat_toNat (bs : Octets) : ofNat bs.length (toNat bs) = bs :=
  toNat_injective (length_ofNat _ _) (toNat_ofNat (toNat_lt bs))

end Octets

namespace Cbor

/-! ## Heads -/

/-- The octets of a head of a kind with the number `n`. It stands in the first octet, or in a field of
`width` octets behind it. -/
inductive Head.Form (kind : Nat) : (width n : Nat) → Octets → Prop where
  | inline {n : Nat} (hn : n < 24) : Form kind 0 n [UInt8.ofNat (kind * 32 + n)]
  | field {k n : Nat} (hk : k < 4) (hn : n < 1 <<< (8 * 2 ^ k)) :
      Form kind (2 ^ k) n (UInt8.ofNat (kind * 32 + (24 + k)) :: Octets.ofNat (2 ^ k) n)

/-- A head of which a part of the field has not arrived. -/
def Head.Partial (src : Octets) : Prop :=
  ∃ (k : Nat) (b : UInt8) (bs : Octets),
    k < 4 ∧ b.toNat % 32 = 24 + k ∧ bs.length < 2 ^ k ∧ src = b :: bs

/-- The argument that a head of a form has. -/
def Argument.ofWidth (width n : Nat) : Argument := if width = 0 then .inline n else .field width n

theorem Argument.length_ofWidth (width n : Nat) : (ofWidth width n).length = some n := by
  unfold ofWidth
  split <;> rfl

theorem takeField_write (width : Nat) {n : Nat} (h : n < 1 <<< (8 * width)) (rest : Octets) :
    takeField width (Octets.ofNat width n ++ rest) = .found (.field width n) rest := by
  have hlen : (Octets.ofNat width n).length = width := Octets.length_ofNat width n
  unfold takeField
  rw [if_neg (by rw [List.length_append, hlen]; omega), List.take_left' hlen,
    List.drop_left' hlen, Octets.toNat_ofNat h]

theorem takeArgument_field {k : Nat} (hk : k < 4) (bs : Octets) :
    takeArgument (24 + k) bs = takeField (2 ^ k) bs := by
  interval_cases k <;> rfl

theorem toNat_firstOctet {kind low : Nat} (hkind : kind < 8) (hlow : low < 32) :
    (UInt8.ofNat (kind * 32 + low)).toNat = kind * 32 + low := by
  have hsize : (UInt8.ofNat (kind * 32 + low)).toNat = (kind * 32 + low) % 256 := by simp
  omega

theorem Head.take_firstOctet {kind low : Nat} (hkind : kind < 8) (hlow : low < 32) {bs rest : Octets}
    {a : Argument} (ha : takeArgument low bs = .found a rest) :
    Head.take (UInt8.ofNat (kind * 32 + low) :: bs) =
      match Head.of kind a with
      | none => .bad
      | some head => .found head rest := by
  have hmod : (kind * 32 + low) % 32 = low := by omega
  have hdiv : (kind * 32 + low) / 32 = kind := by omega
  cases hhead : Head.of kind a with
  | none => simp only [Head.take, toNat_firstOctet hkind hlow, hmod, hdiv, ha, hhead]
  | some head => simp only [Head.take, toNat_firstOctet hkind hlow, hmod, hdiv, ha, hhead]

/-- **A head of a form is read**, whatever follows it. -/
theorem Head.take_of_form {kind width n : Nat} (hkind : kind < 8) {bs : Octets}
    (h : Form kind width n bs) (rest : Octets) :
    Head.take (bs ++ rest) =
      match Head.of kind (.ofWidth width n) with
      | none => .bad
      | some head => .found head rest := by
  cases h with
  | inline hn => exact take_firstOctet hkind (by omega) (if_pos hn)
  | @field k n hk hn =>
      have ha : takeArgument (24 + k) (Octets.ofNat (2 ^ k) n ++ rest)
          = .found (.field (2 ^ k) n) rest := by
        rw [takeArgument_field hk]
        exact takeField_write _ hn rest
      have hwidth : Argument.ofWidth (2 ^ k) n = .field (2 ^ k) n :=
        if_neg (Nat.ne_of_gt (Nat.two_pow_pos k))
      rw [List.cons_append, take_firstOctet hkind (by omega) ha, hwidth]

theorem Head.take_of_partial {src : Octets} (h : Partial src) : Head.take src = .more := by
  obtain ⟨k, b, bs, hk, hlow, hlen, rfl⟩ := h
  rw [Head.take, hlow, takeArgument_field hk, takeField, if_pos hlen]

/-- What a buffer may begin with: the last case is a head of no definite number. -/
theorem Head.form_cases (src : Octets) : src = [] ∨ Partial src
    ∨ (∃ kind width n bs rest, kind < 8 ∧ Form kind width n bs ∧ src = bs ++ rest)
    ∨ ∃ b bs, 28 ≤ b.toNat % 32 ∧ src = b :: bs := by
  cases src with
  | nil => exact Or.inl rfl
  | cons b bs =>
      have hb : b.toNat < 256 := b.toNat_lt
      have hoctet : UInt8.ofNat (b.toNat / 32 * 32 + b.toNat % 32) = b := by
        rw [Nat.div_add_mod']
        exact UInt8.ofNat_toNat
      by_cases hinline : b.toNat % 32 < 24
      · have hform : Form (b.toNat / 32) 0 _ _ := .inline hinline
        rw [hoctet] at hform
        exact Or.inr (Or.inr (Or.inl ⟨_, _, _, [b], bs, by omega, hform, rfl⟩))
      by_cases hhigh : 28 ≤ b.toNat % 32
      · exact Or.inr (Or.inr (Or.inr ⟨b, bs, hhigh, rfl⟩))
      -- the low bits say how many octets the field has
      obtain ⟨k, hlow⟩ : ∃ k, b.toNat % 32 = 24 + k := ⟨b.toNat % 32 - 24, by omega⟩
      have hk : k < 4 := by omega
      by_cases hlen : bs.length < 2 ^ k
      · exact Or.inr (Or.inl ⟨k, b, bs, hk, hlow, hlen, rfl⟩)
      · have htake : (bs.take (2 ^ k)).length = 2 ^ k := by
          rw [List.length_take]
          omega
        have hn := Octets.toNat_lt (bs.take (2 ^ k))
        have hfield := Octets.ofNat_toNat (bs.take (2 ^ k))
        rw [htake] at hn hfield
        have hform : Form (b.toNat / 32) _ _ _ := .field hk hn
        rw [hfield, ← hlow, hoctet] at hform
        refine Or.inr (Or.inr (Or.inl ⟨_, _, _, _, bs.drop (2 ^ k), by omega, hform, ?_⟩))
        rw [List.cons_append, List.take_append_drop]

/-! ## Items -/

/-- The octets of an item. A string keeps to the limit of the reader, and a simple value stands in the
first octet or in the one behind it. -/
inductive Item.Form : Item → Octets → Prop where
  | array {width n : Nat} {bs : Octets} (h : Head.Form 4 width n bs) : Form (.array n) bs
  | positive {width n : Nat} {bs : Octets} (h : Head.Form 0 width n bs) : Form (.int (.ofNat n)) bs
  | negative {width n : Nat} {bs : Octets} (h : Head.Form 1 width n bs) : Form (.int (.negSucc n)) bs
  | bytes {width : Nat} {bs body : Octets} (h : Head.Form 2 width body.length bs)
      (hbody : body.length ≤ maxLength) : Form (.bytes body) (bs ++ body)
  | text {width : Nat} {bs body : Octets} (h : Head.Form 3 width body.length bs)
      (hbody : body.length ≤ maxLength) : Form (.text body) (bs ++ body)
  | bool {width : Nat} {bs : Octets} (b : Bool) (h : Head.Form 7 width (if b then 21 else 20) bs)
      (hwidth : width ≤ 1) : Form (.bool b) bs
  | null {width n : Nat} {bs : Octets} (h : Head.Form 7 width n bs) (hwidth : width ≤ 1)
      (hn : n = 22 ∨ n = 23) : Form .null bs

/-- What may yet become an item: nothing, a part of a head, or the head of a string within the limit
with a part of its body. -/
inductive Cut : Octets → Prop where
  | nothing : Cut []
  | head {src : Octets} (h : Head.Partial src) : Cut src
  | body {kind width n : Nat} {bs part : Octets} (hkind : kind = 2 ∨ kind = 3)
      (h : Head.Form kind width n bs) (hmax : n ≤ Item.maxLength) (hpart : part.length < n) :
      Cut (bs ++ part)

namespace Item

/-- The head of a simple value. -/
theorem of_simple {width n : Nat} (hwidth : width ≤ 1) :
    Head.of 7 (.ofWidth width n) = some (.simple n) := by
  interval_cases width <;> rfl

theorem take_of_head {kind width n : Nat} (hkind : kind < 8) {bs : Octets}
    (h : Head.Form kind width n bs) (head : Head)
    (hhead : Head.of kind (.ofWidth width n) = some head) (rest : Octets) :
    take (bs ++ rest) = ofHead head rest := by
  rw [take, Head.take_of_form hkind h, hhead]

theorem take_array_form {width n : Nat} {bs : Octets} (h : Head.Form 4 width n bs) (rest : Octets) :
    take (bs ++ rest) = .ok (some (.array n, rest)) := by
  rw [take_of_head (by omega) h (.array (some n)), ofHead]
  rw [Head.of, Argument.length_ofWidth]

theorem take_bytes_form {width n : Nat} {bs : Octets} (h : Head.Form 2 width n bs) (rest : Octets) :
    take (bs ++ rest) = takeString .bytes n rest := by
  rw [take_of_head (by omega) h (.bytes (some n)), ofHead]
  rw [Head.of, Argument.length_ofWidth]

theorem take_text_form {width n : Nat} {bs : Octets} (h : Head.Form 3 width n bs) (rest : Octets) :
    take (bs ++ rest) = takeString .text n rest := by
  rw [take_of_head (by omega) h (.text (some n)), ofHead]
  rw [Head.of, Argument.length_ofWidth]

theorem take_simple_form {width n : Nat} {bs : Octets} (h : Head.Form 7 width n bs)
    (hwidth : width ≤ 1) (rest : Octets) : take (bs ++ rest) = ofHead (.simple n) rest :=
  take_of_head (by omega) h (.simple n) (of_simple hwidth) rest

theorem takeString_whole {make : Octets → Item} {body : Octets} (hbody : body.length ≤ maxLength)
    (rest : Octets) : takeString make body.length (body ++ rest) = .ok (some (make body, rest)) := by
  rw [takeString, takeBody, if_neg (by omega), if_neg (by rw [List.length_append]; omega),
    List.take_left' rfl, List.drop_left' rfl]

theorem takeString_part {make : Octets → Item} {n : Nat} (hn : n ≤ maxLength) {part : Octets}
    (hpart : part.length < n) : takeString make n part = .ok none := by
  rw [takeString, takeBody, if_neg (by omega), if_pos hpart]

theorem takeString_oversized {make : Octets → Item} {n : Nat} (hn : maxLength < n) (rest : Octets) :
    takeString make n rest = .error (.oversized n) := by
  rw [takeString, takeBody, if_pos hn]

/-- **An item of a form is read**, whatever follows it. -/
theorem take_of_form {item : Item} {bs : Octets} (h : item.Form bs) (rest : Octets) :
    take (bs ++ rest) = .ok (some (item, rest)) := by
  cases h with
  | array h => exact take_array_form h rest
  | @positive width n _ h =>
      rw [take_of_head (by omega) h (.positive n), ofHead]
      · rfl
      · rw [Head.of, Argument.length_ofWidth]
        rfl
  | @negative width n _ h =>
      rw [take_of_head (by omega) h (.negative n), ofHead]
      rw [Head.of, Argument.length_ofWidth]
      rfl
  | bytes h hbody =>
      rw [List.append_assoc, take_bytes_form h, takeString_whole hbody]
  | text h hbody =>
      rw [List.append_assoc, take_text_form h, takeString_whole hbody]
  | bool b h hwidth =>
      rw [take_simple_form h hwidth]
      cases b <;> rfl
  | null h hwidth hn =>
      rw [take_simple_form h hwidth]
      rcases hn with rfl | rfl <;> rfl

/-- **What is cut off is not read**, and not refused either. -/
theorem take_of_cut {src : Octets} (h : Cut src) : take src = .ok none := by
  cases h with
  | nothing => rfl
  | head h => rw [take, Head.take_of_partial h]
  | body hkind h hmax hpart =>
      rcases hkind with rfl | rfl
      · rw [take_bytes_form h, takeString_part hmax hpart]
      · rw [take_text_form h, takeString_part hmax hpart]

/-- A string that has been announced is there, is cut off, or is refused. -/
theorem string_cases {make : Octets → Item} {kind width n : Nat} (hkind : kind = 2 ∨ kind = 3)
    {bs : Octets} (h : Head.Form kind width n bs)
    (htake : ∀ rest, take (bs ++ rest) = takeString make n rest)
    (hmake : ∀ body : Octets, body.length = n → n ≤ maxLength → (make body).Form (bs ++ body))
    (rest : Octets) : (∃ item front left, Form item front ∧ bs ++ rest = front ++ left)
      ∨ Cut (bs ++ rest) ∨ ∃ e, take (bs ++ rest) = .error e := by
  by_cases hmax : maxLength < n
  · refine Or.inr (Or.inr ⟨.oversized n, ?_⟩)
    rw [htake, takeString_oversized hmax]
  have hmax' : n ≤ maxLength := Nat.le_of_not_lt hmax
  by_cases hpart : rest.length < n
  · exact Or.inr (Or.inl (.body hkind h hmax' hpart))
  · have hlen : (rest.take n).length = n := by
      rw [List.length_take]
      omega
    refine Or.inl ⟨_, _, rest.drop n, hmake (rest.take n) hlen hmax', ?_⟩
    rw [List.append_assoc, List.take_append_drop]

/-- Among the simple values and floats there are four that frames have. -/
theorem simple_cases {width n : Nat} {bs : Octets} (h : Head.Form 7 width n bs) (rest : Octets) :
    (∃ item, Form item bs) ∨ ∃ e, take (bs ++ rest) = .error e := by
  by_cases hwidth : width ≤ 1
  · by_cases hfalse : n = 20
    · exact Or.inl ⟨_, .bool false (by rw [hfalse] at h; exact h) hwidth⟩
    by_cases htrue : n = 21
    · exact Or.inl ⟨_, .bool true (by rw [htrue] at h; exact h) hwidth⟩
    by_cases hnull : n = 22 ∨ n = 23
    · exact Or.inl ⟨_, .null h hwidth hnull⟩
    · obtain ⟨h22, h23⟩ := not_or.mp hnull
      refine Or.inr ⟨.unsupported (.simple n), ?_⟩
      rw [take_simple_form h hwidth]
      unfold ofHead
      split <;> simp_all
  · have hfloat : ∃ x, Head.of 7 (.ofWidth width n) = some (.float x) := by
      cases h with
      | inline => exact absurd (Nat.zero_le 1) hwidth
      | @field k _ hk _ =>
          interval_cases k
          · exact absurd (Nat.le_refl 1) hwidth
          · exact ⟨_, rfl⟩
          · exact ⟨_, rfl⟩
          · exact ⟨_, rfl⟩
    obtain ⟨x, hx⟩ := hfloat
    exact Or.inr ⟨_, take_of_head (by omega) h (.float x) hx rest⟩

/-- A head of no definite number is refused. -/
theorem take_of_high {b : UInt8} (hb : 28 ≤ b.toNat % 32) (bs : Octets) :
    ∃ e, take (b :: bs) = .error e := by
  have hlow : b.toNat % 32 < 32 := Nat.mod_lt _ (by omega)
  have hargument : takeArgument (b.toNat % 32) bs = .bad
      ∨ takeArgument (b.toNat % 32) bs = .found .indefinite bs := by
    interval_cases hlow : b.toNat % 32
    · exact Or.inl rfl
    · exact Or.inl rfl
    · exact Or.inl rfl
    · exact Or.inr rfl
  rcases hargument with hbad | hindefinite
  · exact ⟨.badHead, by rw [take, Head.take, hbad]⟩
  · have hkind : b.toNat / 32 < 8 := by
      have := b.toNat_lt
      omega
    rw [take, Head.take, hindefinite]
    interval_cases b.toNat / 32 <;> exact ⟨_, rfl⟩

/-- **A buffer begins with an item, is cut off, or is refused.** -/
theorem take_cases (src : Octets) :
    (∃ item bs rest, Form item bs ∧ src = bs ++ rest) ∨ Cut src ∨ ∃ e, take src = .error e := by
  rcases Head.form_cases src with rfl | hpart | ⟨kind, width, n, bs, rest, hkind, h, rfl⟩ |
    ⟨b, bs, hb, rfl⟩
  · exact Or.inr (Or.inl .nothing)
  · exact Or.inr (Or.inl (.head hpart))
  · -- the eight kinds of heads
    interval_cases kind
    · exact Or.inl ⟨_, bs, rest, .positive h, rfl⟩
    · exact Or.inl ⟨_, bs, rest, .negative h, rfl⟩
    · refine string_cases (Or.inl rfl) h (take_bytes_form h) (fun body hlen hmax => ?_) rest
      subst hlen
      exact .bytes h hmax
    · refine string_cases (Or.inr rfl) h (take_text_form h) (fun body hlen hmax => ?_) rest
      subst hlen
      exact .text h hmax
    · exact Or.inl ⟨_, bs, rest, .array h, rfl⟩
    · exact Or.inr (Or.inr ⟨_, take_of_head (by omega) h (.map _) rfl rest⟩)
    · refine Or.inr (Or.inr ⟨_, take_of_head (by omega) h (.tag n) ?_ rest⟩)
      rw [Head.of, Argument.length_ofWidth]
      rfl
    · rcases simple_cases h rest with ⟨item, hitem⟩ | herror
      · exact Or.inl ⟨item, bs, rest, hitem, rfl⟩
      · exact Or.inr (Or.inr herror)
  · exact Or.inr (Or.inr (take_of_high hb bs))

/-- **The reader takes exactly the items.** -/
theorem take_eq_some_iff {src rest : Octets} {item : Item} :
    take src = .ok (some (item, rest)) ↔ ∃ bs, item.Form bs ∧ src = bs ++ rest := by
  constructor
  · intro h
    rcases take_cases src with ⟨item', bs, rest', hform, rfl⟩ | hcut | ⟨e, he⟩
    · rw [take_of_form hform] at h
      cases h
      exact ⟨bs, hform, rfl⟩
    · rw [take_of_cut hcut] at h
      cases h
    · rw [he] at h
      cases h
  · rintro ⟨bs, hform, rfl⟩
    exact take_of_form hform rest

/-- **It waits exactly for what is cut off.** -/
theorem take_eq_none_iff {src : Octets} : take src = .ok none ↔ Cut src := by
  constructor
  · intro h
    rcases take_cases src with ⟨item, bs, rest, hform, rfl⟩ | hcut | ⟨e, he⟩
    · rw [take_of_form hform] at h
      cases h
    · exact hcut
    · rw [he] at h
      cases h
  · exact take_of_cut

end Item

/-! ## The shortest form -/

/-- The writer makes heads of a form. -/
theorem writeHead_form (kind : Nat) {n : Nat} (hn : n < 18446744073709551616) :
    ∃ width, Head.Form kind width n (writeHead kind n) := by
  unfold writeHead
  split
  · rename_i h
    exact ⟨0, .inline h⟩
  split
  · rename_i h
    exact ⟨2 ^ 0, .field (by omega) h⟩
  split
  · rename_i h
    exact ⟨2 ^ 1, .field (by omega) h⟩
  split
  · rename_i h
    exact ⟨2 ^ 2, .field (by omega) h⟩
  · exact ⟨2 ^ 3, .field (by omega) hn⟩

/-- What can be written so that it is read back: numbers of 64 bits, negative ones as far again, and
strings within the limit of the reader. -/
def Item.Writable : Item → Prop
  | array n => n < 18446744073709551616
  | int v => -18446744073709551616 ≤ v ∧ v < 18446744073709551616
  | bytes body => body.length ≤ maxLength
  | text body => body.length ≤ maxLength
  | _ => True

theorem Item.write_form {item : Item} (h : item.Writable) : item.Form item.write := by
  -- the shortest head of each kind is one of the forms
  cases item with
  | array n =>
      obtain ⟨width, hform⟩ := writeHead_form 4 h
      exact .array hform
  | int v =>
      obtain ⟨hlow, hhigh⟩ := h
      cases v with
      | ofNat n =>
          have hn : ((n : Nat) : Int) < 18446744073709551616 := hhigh
          obtain ⟨width, hform⟩ := writeHead_form 0 (n := n) (by omega)
          exact .positive hform
      | negSucc n =>
          obtain ⟨width, hform⟩ := writeHead_form 1 (n := n) (by omega)
          exact .negative hform
  | bytes body =>
      have hlen : body.length < 18446744073709551616 := Nat.lt_of_le_of_lt h (by decide)
      obtain ⟨width, hform⟩ := writeHead_form 2 hlen
      exact .bytes hform h
  | text body =>
      have hlen : body.length < 18446744073709551616 := Nat.lt_of_le_of_lt h (by decide)
      obtain ⟨width, hform⟩ := writeHead_form 3 hlen
      exact .text hform h
  | bool b =>
      cases b with
      | false => exact .bool false (.inline (by decide)) (Nat.zero_le 1)
      | true => exact .bool true (.inline (by decide)) (Nat.zero_le 1)
  | null => exact .null (n := 22) (.inline (by omega)) (Nat.zero_le 1) (Or.inl rfl)

/-- **What is written is read back**, whatever follows it. -/
theorem Item.take_write (item : Item) (h : item.Writable) (rest : Octets) :
    take (item.write ++ rest) = .ok (some (item, rest)) := take_of_form (write_form h) rest

theorem writeHead_length (kind n : Nat) : (writeHead kind n).length =
    if n < 24 then 1 else if n < 256 then 2 else if n < 65536 then 3
    else if n < 4294967296 then 5 else 9 := by
  unfold writeHead
  split_ifs <;> simp

/-- No form of a head is shorter than the one that is written. -/
theorem writeHead_length_le {kind width n : Nat} {bs : Octets} (h : Head.Form kind width n bs)
    (kind' : Nat) : (writeHead kind' n).length ≤ bs.length := by
  rw [writeHead_length]
  cases h with
  | inline hn => rw [if_pos hn]; exact Nat.le_refl 1
  | @field k n hk hn =>
      rw [List.length_cons, Octets.length_ofNat]
      interval_cases k
      · have hn' : n < 256 := hn
        split_ifs <;> omega
      · have hn' : n < 65536 := hn
        split_ifs <;> omega
      · have hn' : n < 4294967296 := hn
        split_ifs <;> omega
      · split_ifs <;> omega

/-- No form of an item is shorter than the one that is written. -/
theorem Item.write_length_le {item : Item} {bs : Octets} (h : item.Form bs) :
    item.write.length ≤ bs.length := by
  have hpos : ∀ {width n : Nat} {bs : Octets}, Head.Form 7 width n bs → 1 ≤ bs.length := by
    intro width n bs h
    cases h <;> exact Nat.succ_le_succ (Nat.zero_le _)
  cases h with
  | array h => exact writeHead_length_le h 4
  | positive h => exact writeHead_length_le h 0
  | negative h => exact writeHead_length_le h 1
  | bytes h _ =>
      rw [write, List.length_append, List.length_append]
      exact Nat.add_le_add_right (writeHead_length_le h 2) _
  | text h _ =>
      rw [write, List.length_append, List.length_append]
      exact Nat.add_le_add_right (writeHead_length_le h 3) _
  | bool b h _ => cases b <;> exact hpos h
  | null h _ _ => exact hpos h

end Cbor

end GameHall
