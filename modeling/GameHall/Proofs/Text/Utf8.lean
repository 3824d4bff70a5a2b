import Mathlib.Tactic.SplitIfs
import GameHall.Text.Utf8

/-!
# Text there and back

The reader of UTF-8 and its writer undo each other. From a text come octets that spell it
(`decode_encode`), and octets that spell a text are the ones that come from it (`encode_of_decode`), so
no text has two spellings.

`Spells` says which octets a character has: a lead, which bounds the octet behind it, and tails of six
bits each. The writer makes the spelling of each character (`spells_encodeChar`), there is no other
(`encodeChar_of_spells`), and the reader goes from spelling to spelling (`decodeFrom_of_spells`,
`exists_spells`).
-/

namespace GameHall.Utf8

/-- The bounds of the octet after the lead of a character of three: overlong forms and surrogates are
excluded. -/
def second3 (q : Nat) : Nat × Nat :=
  if q = 0 then (0xA0, 0xBF) else if q = 13 then (0x80, 0x9F) else (0x80, 0xBF)

/-- The same for a character of four: what is beyond the last character is excluded as well. -/
def second4 (q : Nat) : Nat × Nat :=
  if q = 0 then (0x90, 0xBF) else if q = 4 then (0x80, 0x8F) else (0x80, 0xBF)

/-- The octets of a character. -/
inductive Spells : Char → Octets → Prop where
  | one {n : Nat} (hn : n < 0x80) : Spells (Char.ofNat n) [UInt8.ofNat n]
  | two {q t : Nat} (hlow : 2 ≤ q) (hq : q < 32) (ht : t < 64) :
      Spells (Char.ofNat (q * 64 + t)) [UInt8.ofNat (0xC0 + q), UInt8.ofNat (0x80 + t)]
  | three {q s t : Nat} (hq : q < 16) (hlow : (second3 q).1 ≤ 0x80 + s)
      (hhigh : 0x80 + s ≤ (second3 q).2) (ht : t < 64) :
      Spells (Char.ofNat ((q * 64 + s) * 64 + t))
        [UInt8.ofNat (0xE0 + q), UInt8.ofNat (0x80 + s), UInt8.ofNat (0x80 + t)]
  | four {q s t u : Nat} (hq : q < 5) (hlow : (second4 q).1 ≤ 0x80 + s)
      (hhigh : 0x80 + s ≤ (second4 q).2) (ht : t < 64) (hu : u < 64) :
      Spells (Char.ofNat (((q * 64 + s) * 64 + t) * 64 + u))
        [UInt8.ofNat (0xF0 + q), UInt8.ofNat (0x80 + s), UInt8.ofNat (0x80 + t),
          UInt8.ofNat (0x80 + u)]

/-! ## Characters and their spellings -/

theorem toNat_ofNat_char {n : Nat} (h : n.isValidChar) : (Char.ofNat n).toNat = n := by
  rw [Char.ofNat, dif_pos h]
  rfl

/-- What the bounds of a second octet are for. -/
theorem bounds_three {q s : Nat} (hlow : (second3 q).1 ≤ 0x80 + s) (hhigh : 0x80 + s ≤ (second3 q).2) :
    s < 64 ∧ (q = 0 → 32 ≤ s) ∧ (q = 13 → s < 32) := by
  unfold second3 at hlow hhigh
  by_cases hzero : q = 0
  · simp only [hzero, if_true] at hlow hhigh
    omega
  by_cases hthirteen : q = 13
  · simp only [hthirteen, if_true] at hlow hhigh
    dsimp at hlow hhigh
    omega
  · simp only [hzero, hthirteen, if_false] at hlow hhigh
    omega

theorem bounds_four {q s : Nat} (hlow : (second4 q).1 ≤ 0x80 + s) (hhigh : 0x80 + s ≤ (second4 q).2) :
    s < 64 ∧ (q = 0 → 16 ≤ s) ∧ (q = 4 → s < 16) := by
  unfold second4 at hlow hhigh
  by_cases hzero : q = 0
  · simp only [hzero, if_true] at hlow hhigh
    omega
  by_cases hfour : q = 4
  · simp only [hfour, if_true] at hlow hhigh
    dsimp at hlow hhigh
    omega
  · simp only [hzero, hfour, if_false] at hlow hhigh
    omega

theorem Spells.length_pos {c : Char} {bs : Octets} (h : Spells c bs) : 0 < bs.length := by
  cases h <;> exact Nat.succ_pos _

/-- **A spelling is what is written.** -/
theorem encodeChar_of_spells {c : Char} {bs : Octets} (h : Spells c bs) : encodeChar c = bs := by
  unfold encodeChar
  -- by the number of octets; the digits to the base 64 come back by division
  cases h with
  | @one n hn =>
      rw [toNat_ofNat_char (Or.inl (by omega)), if_pos hn]
  | @two q t hlow hq ht =>
      have hdiv : (q * 64 + t) / 64 = q := by omega
      have hmod : (q * 64 + t) % 64 = t := by omega
      rw [toNat_ofNat_char (Or.inl (by omega)), if_neg (by omega), if_pos (by omega), hdiv, hmod]
  | @three q s t hq hlow hhigh ht =>
      obtain ⟨hs, hzero, hthirteen⟩ := bounds_three hlow hhigh
      have hvalid : Nat.isValidChar ((q * 64 + s) * 64 + t) := by
        unfold Nat.isValidChar
        omega
      have hfirst : ((q * 64 + s) * 64 + t) / 4096 = q := by omega
      have hsecond : ((q * 64 + s) * 64 + t) / 64 % 64 = s := by omega
      have hthird : ((q * 64 + s) * 64 + t) % 64 = t := by omega
      rw [toNat_ofNat_char hvalid, if_neg (by omega), if_neg (by omega), if_pos (by omega), hfirst,
        hsecond, hthird]
  | @four q s t u hq hlow hhigh ht hu =>
      obtain ⟨hs, hzero, hfour⟩ := bounds_four hlow hhigh
      have hvalid : Nat.isValidChar (((q * 64 + s) * 64 + t) * 64 + u) := by
        unfold Nat.isValidChar
        omega
      have hfirst : (((q * 64 + s) * 64 + t) * 64 + u) / 262144 = q := by omega
      have hsecond : (((q * 64 + s) * 64 + t) * 64 + u) / 4096 % 64 = s := by omega
      have hthird : (((q * 64 + s) * 64 + t) * 64 + u) / 64 % 64 = t := by omega
      have hfourth : (((q * 64 + s) * 64 + t) * 64 + u) % 64 = u := by omega
      rw [toNat_ofNat_char hvalid, if_neg (by omega), if_neg (by omega), if_neg (by omega), hfirst,
        hsecond, hthird, hfourth]

/-- **Every character has a spelling.** -/
theorem exists_spells_char (c : Char) : ∃ bs, Spells c bs := by
  have hvalid : c.toNat < 0xD800 ∨ 0xDFFF < c.toNat ∧ c.toNat < 0x110000 := c.valid
  have hc := Char.ofNat_toNat c
  by_cases hone : c.toNat < 0x80
  · exact ⟨_, hc ▸ Spells.one hone⟩
  by_cases htwo : c.toNat < 0x800
  · have hn : c.toNat / 64 * 64 + c.toNat % 64 = c.toNat := by omega
    have hspells := Spells.two (q := c.toNat / 64) (t := c.toNat % 64) (by omega) (by omega) (by omega)
    rw [hn, hc] at hspells
    exact ⟨_, hspells⟩
  by_cases hthree : c.toNat < 0x10000
  · have hn : (c.toNat / 4096 * 64 + c.toNat / 64 % 64) * 64 + c.toNat % 64 = c.toNat := by omega
    have hspells := Spells.three (q := c.toNat / 4096) (s := c.toNat / 64 % 64) (t := c.toNat % 64)
      (by omega) (by unfold second3; split_ifs <;> dsimp <;> omega)
      (by unfold second3; split_ifs <;> dsimp <;> omega) (by omega)
    rw [hn, hc] at hspells
    exact ⟨_, hspells⟩
  · have hn : ((c.toNat / 262144 * 64 + c.toNat / 4096 % 64) * 64 + c.toNat / 64 % 64) * 64
        + c.toNat % 64 = c.toNat := by omega
    have hspells := Spells.four (q := c.toNat / 262144) (s := c.toNat / 4096 % 64)
      (t := c.toNat / 64 % 64) (u := c.toNat % 64)
      (by omega) (by unfold second4; split_ifs <;> dsimp <;> omega)
      (by unfold second4; split_ifs <;> dsimp <;> omega) (by omega) (by omega)
    rw [hn, hc] at hspells
    exact ⟨_, hspells⟩

theorem spells_encodeChar (c : Char) : Spells c (encodeChar c) := by
  obtain ⟨bs, hspells⟩ := exists_spells_char c
  rw [encodeChar_of_spells hspells]
  exact hspells

/-! ## Leads -/

theorem lead_two : ∀ q < 32, 2 ≤ q → lead (UInt8.ofNat (0xC0 + q)) = some ⟨1, 0, 0x80, 0xBF, q⟩ := by
  decide

theorem lead_three : ∀ q < 16, lead (UInt8.ofNat (0xE0 + q))
    = some ⟨1, 1, UInt8.ofNat (second3 q).1, UInt8.ofNat (second3 q).2, q⟩ := by
  decide

theorem lead_four : ∀ q < 5, lead (UInt8.ofNat (0xF0 + q))
    = some ⟨1, 2, UInt8.ofNat (second4 q).1, UInt8.ofNat (second4 q).2, q⟩ := by
  decide

theorem lead_beyond : ∀ q < 11, lead (UInt8.ofNat (0xF5 + q)) = none := by
  decide

theorem lead_of_lt {b : UInt8} (hb : b.toNat < 0xC2) : lead b = none :=
  if_pos (UInt8.lt_iff_toNat_lt.mpr hb)

/-- A lead begins a character of two octets, of three or of four. -/
theorem lead_cases {b : UInt8} {p : Pending} (h : lead b = some p) :
    (∃ q, 2 ≤ q ∧ q < 32 ∧ b = UInt8.ofNat (0xC0 + q) ∧ p = ⟨1, 0, 0x80, 0xBF, q⟩)
      ∨ (∃ q, q < 16 ∧ b = UInt8.ofNat (0xE0 + q)
        ∧ p = ⟨1, 1, UInt8.ofNat (second3 q).1, UInt8.ofNat (second3 q).2, q⟩)
      ∨ ∃ q, q < 5 ∧ b = UInt8.ofNat (0xF0 + q)
        ∧ p = ⟨1, 2, UInt8.ofNat (second4 q).1, UInt8.ofNat (second4 q).2, q⟩ := by
  have hb : b.toNat < 256 := b.toNat_lt
  have hoctet : UInt8.ofNat b.toNat = b := UInt8.ofNat_toNat
  -- the ranges of the first octet, from below
  by_cases hlow : b.toNat < 0xC2
  · rw [lead_of_lt hlow] at h
    cases h
  by_cases htwo : b.toNat < 0xE0
  · obtain ⟨q, hq⟩ : ∃ q, b.toNat = 0xC0 + q := ⟨b.toNat - 0xC0, by omega⟩
    rw [hq] at hoctet
    rw [← hoctet, lead_two q (by omega) (by omega)] at h
    exact Or.inl ⟨q, by omega, by omega, hoctet.symm, (Option.some.inj h).symm⟩
  by_cases hthree : b.toNat < 0xF0
  · obtain ⟨q, hq⟩ : ∃ q, b.toNat = 0xE0 + q := ⟨b.toNat - 0xE0, by omega⟩
    rw [hq] at hoctet
    rw [← hoctet, lead_three q (by omega)] at h
    exact Or.inr (Or.inl ⟨q, by omega, hoctet.symm, (Option.some.inj h).symm⟩)
  by_cases hfour : b.toNat < 0xF5
  · obtain ⟨q, hq⟩ : ∃ q, b.toNat = 0xF0 + q := ⟨b.toNat - 0xF0, by omega⟩
    rw [hq] at hoctet
    rw [← hoctet, lead_four q (by omega)] at h
    exact Or.inr (Or.inr ⟨q, by omega, hoctet.symm, (Option.some.inj h).symm⟩)
  · obtain ⟨q, hq⟩ : ∃ q, b.toNat = 0xF5 + q := ⟨b.toNat - 0xF5, by omega⟩
    rw [hq] at hoctet
    rw [← hoctet, lead_beyond q (by omega)] at h
    cases h

/-! ## One octet at a time -/

section steps

variable {index : Nat} {p : Pending} {b : UInt8}

theorem decodeFrom_one {n : Nat} (hn : n < 0x80) (rest : Octets) :
    decodeFrom index none (UInt8.ofNat n :: rest)
      = (decodeFrom (index + 1) none rest).map (List.cons (Char.ofNat n)) := by
  have hb : (UInt8.ofNat n).toNat = n := by
    rw [UInt8.toNat_ofNat']
    omega
  rw [decodeFrom, if_pos (UInt8.lt_iff_toNat_lt.mpr (by rw [hb]; exact hn)), hb]
  cases decodeFrom (index + 1) none rest <;> rfl

theorem decodeFrom_lead (hb : lead b = some p) (rest : Octets) :
    decodeFrom index none (b :: rest) = decodeFrom index (some p) rest := by
  have hhigh : ¬ b < 0x80 := by
    intro hlt
    have hlt' := UInt8.lt_iff_toNat_lt.mp hlt
    have hnone := lead_of_lt (b := b) (Nat.lt_trans hlt' (by decide))
    rw [hnone] at hb
    cases hb
  rw [decodeFrom, if_neg hhigh, hb]

/-- The last octet of a character. -/
theorem decodeFrom_last (hdue : p.due = 0) (hb : p.low ≤ b ∧ b ≤ p.high) (rest : Octets) :
    decodeFrom index (some p) (b :: rest)
      = (decodeFrom (index + p.taken + 1) none rest).map
        (List.cons (Char.ofNat (p.bits * 64 + b.toNat % 64))) := by
  rw [decodeFrom, if_pos hb, hdue]
  dsimp only
  cases decodeFrom (index + p.taken + 1) none rest <;> rfl

/-- An octet after which more are due. -/
theorem decodeFrom_tail {due : Nat} (hdue : p.due = due + 1) (hb : p.low ≤ b ∧ b ≤ p.high)
    (rest : Octets) : decodeFrom index (some p) (b :: rest)
      = decodeFrom index (some ⟨p.taken + 1, due, 0x80, 0xBF, p.bits * 64 + b.toNat % 64⟩) rest := by
  rw [decodeFrom, if_pos hb, hdue]

/-- A character that is read on has a next octet, and it is within its bounds. -/
theorem exists_next {bs : Octets} {cs : List Char} (h : decodeFrom index (some p) bs = .ok cs) :
    ∃ b rest, bs = b :: rest ∧ p.low ≤ b ∧ b ≤ p.high := by
  cases bs with
  | nil => cases h
  | cons b rest =>
      by_cases hb : p.low ≤ b ∧ b ≤ p.high
      · exact ⟨b, rest, rfl, hb⟩
      · rw [decodeFrom, if_neg hb] at h
        cases h

theorem toNat_octet {n : Nat} (hn : n < 256) : (UInt8.ofNat n).toNat = n := by
  rw [UInt8.toNat_ofNat']
  omega

theorem ofNat_le_iff {m n : Nat} (hm : m < 256) (hn : n < 256) :
    UInt8.ofNat m ≤ UInt8.ofNat n ↔ m ≤ n := by
  rw [UInt8.le_iff_toNat_le, toNat_octet hm, toNat_octet hn]

theorem bits_tail {t : Nat} (ht : t < 64) : (UInt8.ofNat (0x80 + t)).toNat % 64 = t := by
  rw [toNat_octet (by omega)]
  omega

theorem tail_within {t : Nat} (ht : t < 64) :
    UInt8.ofNat 0x80 ≤ UInt8.ofNat (0x80 + t) ∧ UInt8.ofNat (0x80 + t) ≤ UInt8.ofNat 0xBF :=
  ⟨(ofNat_le_iff (by omega) (by omega)).mpr (by omega),
    (ofNat_le_iff (by omega) (by omega)).mpr (by omega)⟩

/-- An octet between bounds that are a tail's is one. -/
theorem exists_tail {low high : Nat} (hlow : 0x80 ≤ low ∧ low ≤ 0xBF) (hhigh : high ≤ 0xBF)
    (hb : UInt8.ofNat low ≤ b ∧ b ≤ UInt8.ofNat high) :
    ∃ t, b = UInt8.ofNat (0x80 + t) ∧ t < 64 ∧ low ≤ 0x80 + t ∧ 0x80 + t ≤ high := by
  obtain ⟨hb₁, hb₂⟩ := hb
  rw [UInt8.le_iff_toNat_le, toNat_octet (by omega)] at hb₁ hb₂
  have hn : 0x80 + (b.toNat - 0x80) = b.toNat := by omega
  refine ⟨b.toNat - 0x80, ?_, by omega, by omega, by omega⟩
  rw [hn]
  exact UInt8.ofNat_toNat.symm

theorem tail_of_within (hb : UInt8.ofNat 0x80 ≤ b ∧ b ≤ UInt8.ofNat 0xBF) :
    ∃ t, b = UInt8.ofNat (0x80 + t) ∧ t < 64 := by
  obtain ⟨t, ht, hlt, -, -⟩ := exists_tail (by decide) (by decide) hb
  exact ⟨t, ht, hlt⟩

end steps

/-! ## From spelling to spelling -/

theorem second3_bounds (q : Nat) :
    (0x80 ≤ (second3 q).1 ∧ (second3 q).1 ≤ 0xBF) ∧ (second3 q).2 ≤ 0xBF := by
  unfold second3
  split_ifs <;> decide

theorem second4_bounds (q : Nat) :
    (0x80 ≤ (second4 q).1 ∧ (second4 q).1 ≤ 0xBF) ∧ (second4 q).2 ≤ 0xBF := by
  unfold second4
  split_ifs <;> decide

/-- **A spelling reads as its character,** whatever follows. -/
theorem decodeFrom_of_spells {c : Char} {bs : Octets} (h : Spells c bs) (index : Nat) (rest : Octets) :
    decodeFrom index none (bs ++ rest)
      = (decodeFrom (index + bs.length) none rest).map (List.cons c) := by
  -- by the number of octets, one lemma of the reader for each of them
  cases h with
  | one hn => exact decodeFrom_one hn rest
  | two hlow hq ht =>
      rw [List.cons_append, decodeFrom_lead (lead_two _ hq hlow),
        List.cons_append, decodeFrom_last rfl (tail_within ht), bits_tail ht]
      rfl
  | @three q s t hq hlow hhigh ht =>
      have hs : s < 64 := (bounds_three hlow hhigh).1
      obtain ⟨hfirst, hlast⟩ := second3_bounds q
      have hwithin := And.intro ((ofNat_le_iff (by omega) (by omega)).mpr hlow)
        ((ofNat_le_iff (by omega) (by omega)).mpr hhigh)
      rw [List.cons_append, decodeFrom_lead (lead_three q hq),
        List.cons_append, decodeFrom_tail rfl hwithin, bits_tail hs,
        List.cons_append, decodeFrom_last rfl (tail_within ht), bits_tail ht]
      rfl
  | @four q s t u hq hlow hhigh ht hu =>
      have hs : s < 64 := (bounds_four hlow hhigh).1
      obtain ⟨hfirst, hlast⟩ := second4_bounds q
      have hwithin := And.intro ((ofNat_le_iff (by omega) (by omega)).mpr hlow)
        ((ofNat_le_iff (by omega) (by omega)).mpr hhigh)
      rw [List.cons_append, decodeFrom_lead (lead_four q hq),
        List.cons_append, decodeFrom_tail rfl hwithin, bits_tail hs,
        List.cons_append, decodeFrom_tail rfl (tail_within ht), bits_tail ht,
        List.cons_append, decodeFrom_last rfl (tail_within hu), bits_tail hu]
      rfl

theorem map_cons_eq_ok {ε α : Type} {x : Except ε (List α)} {a : α} {ys : List α}
    (h : x.map (List.cons a) = .ok ys) : ∃ tail, ys = a :: tail ∧ x = .ok tail := by
  cases x with
  | error e => cases h
  | ok tail => exact ⟨tail, (Except.ok.inj h).symm, rfl⟩

/-- **What reads begins with a spelling.** -/
theorem exists_spells {index : Nat} {b : UInt8} {tail : Octets} {cs : List Char}
    (h : decodeFrom index none (b :: tail) = .ok cs) :
    ∃ c bs rest, Spells c bs ∧ b :: tail = bs ++ rest := by
  by_cases hone : b < 0x80
  · have hn : b.toNat < 0x80 := UInt8.lt_iff_toNat_lt.mp hone
    exact ⟨_, [UInt8.ofNat b.toNat], tail, .one hn, by rw [UInt8.ofNat_toNat]; rfl⟩
  rw [decodeFrom, if_neg hone] at h
  cases hlead : lead b with
  | none =>
      rw [hlead] at h
      cases h
  | some p =>
      rw [hlead] at h
      dsimp only at h
      obtain ⟨second, rest, rfl, hsecond⟩ := exists_next h
      -- two, three or four octets; the leading one bounds the second
      rcases lead_cases hlead with ⟨q, hlow, hq, rfl, rfl⟩ | ⟨q, hq, rfl, rfl⟩ | ⟨q, hq, rfl, rfl⟩
      · obtain ⟨t, rfl, ht⟩ := tail_of_within hsecond
        exact ⟨_, _, rest, .two hlow hq ht, rfl⟩
      · obtain ⟨hfirst, hlast⟩ := second3_bounds q
        obtain ⟨s, rfl, hs, hlow, hhigh⟩ := exists_tail hfirst hlast hsecond
        rw [decodeFrom_tail rfl hsecond] at h
        obtain ⟨third, rest, rfl, hthird⟩ := exists_next h
        obtain ⟨t, rfl, ht⟩ := tail_of_within hthird
        exact ⟨_, _, rest, .three hq hlow hhigh ht, rfl⟩
      · obtain ⟨hfirst, hlast⟩ := second4_bounds q
        obtain ⟨s, rfl, hs, hlow, hhigh⟩ := exists_tail hfirst hlast hsecond
        rw [decodeFrom_tail rfl hsecond] at h
        obtain ⟨third, rest, rfl, hthird⟩ := exists_next h
        obtain ⟨t, rfl, ht⟩ := tail_of_within hthird
        rw [decodeFrom_tail rfl hthird] at h
        obtain ⟨fourth, rest, rfl, hfourth⟩ := exists_next h
        obtain ⟨u, rfl, hu⟩ := tail_of_within hfourth
        exact ⟨_, _, rest, .four hq hlow hhigh ht hu, rfl⟩

/-! ## Texts -/

theorem decodeFrom_flatMap (cs : List Char) (index : Nat) :
    decodeFrom index none (cs.flatMap encodeChar) = .ok cs := by
  induction cs generalizing index with
  | nil => simp only [List.flatMap_nil, decodeFrom]
  | cons c cs ih =>
      rw [List.flatMap_cons, decodeFrom_of_spells (spells_encodeChar c), ih]
      rfl

/-- **A written text reads back.** -/
theorem decode_encode (s : String) : decode (encode s) = .ok s := by
  unfold decode encode
  rw [decodeFrom_flatMap]
  exact congrArg Except.ok String.ofList_toList

/-- What reads is what its characters write: by induction on its length, a character at a time. -/
theorem flatMap_of_decodeFrom (n : Nat) : ∀ (bs : Octets) (index : Nat) (cs : List Char),
    bs.length = n → decodeFrom index none bs = .ok cs → cs.flatMap encodeChar = bs := by
  induction n using Nat.strongRecOn with
  | ind n ih =>
      intro bs index cs hn h
      cases bs with
      | nil =>
          rw [decodeFrom] at h
          cases h
          rfl
      | cons b tail =>
          obtain ⟨c, spelling, rest, hspells, hbs⟩ := exists_spells h
          rw [hbs, decodeFrom_of_spells hspells] at h
          obtain ⟨cs, rfl, hrest⟩ := map_cons_eq_ok h
          have hsize : rest.length < n := by
            have hlength := congrArg List.length hbs
            have hspelling := hspells.length_pos
            rw [List.length_append] at hlength
            omega
          rw [List.flatMap_cons, encodeChar_of_spells hspells, ih _ hsize rest _ cs rfl hrest, hbs]

/-- **What reads as a text is that text written.** -/
theorem encode_of_decode {bs : Octets} {s : String} (h : decode bs = .ok s) : encode s = bs := by
  unfold decode at h
  cases hcs : decodeFrom 0 none bs with
  | error e =>
      rw [hcs] at h
      cases h
  | ok cs =>
      rw [hcs] at h
      cases h
      unfold encode
      rw [String.toList_ofList]
      exact flatMap_of_decodeFrom _ bs 0 cs rfl hcs

/-- The octets that are read as a text are those that are written of it, and no others. -/
theorem decode?_eq_some_iff {bs : Octets} {s : String} : decode? bs = some s ↔ bs = encode s := by
  constructor
  · intro h
    unfold decode? at h
    split at h
    · rename_i hdecode
      cases h
      exact (encode_of_decode hdecode).symm
    · cases h
  · rintro rfl
    rw [decode?, decode_encode]

theorem encode_injective {s t : String} (h : encode s = encode t) : s = t := by
  have hs := decode_encode s
  rw [h, decode_encode] at hs
  cases hs
  rfl

/-! ## Octets that need not be text -/

/-- An octet of a character that is below `0x80` is the character. -/
theorem octet_of_char {c : Char} {b : UInt8} (hb : b ∈ encodeChar c) :
    c.toNat < 0x80 ∧ b = UInt8.ofNat c.toNat ∨ 0x80 ≤ b.toNat := by
  have hhigh : ∀ {n : Nat}, 0x80 ≤ n → n < 256 → b = UInt8.ofNat n → 0x80 ≤ b.toNat := by
    intro n hlow hn hbn
    rw [hbn, toNat_octet hn]
    exact hlow
  have hc : c.toNat < 0x110000 := c.valid.elim (fun h => Nat.lt_trans h (by decide)) And.right
  unfold encodeChar at hb
  dsimp only at hb
  split_ifs at hb with hone htwo hthree
  · exact Or.inl ⟨hone, List.mem_singleton.mp hb⟩
  all_goals
    simp only [List.mem_cons, List.not_mem_nil, or_false] at hb
  · rcases hb with hb | hb
    all_goals exact Or.inr (hhigh (by omega) (by omega) hb)
  · rcases hb with hb | hb | hb
    all_goals exact Or.inr (hhigh (by omega) (by omega) hb)
  · rcases hb with hb | hb | hb | hb
    all_goals exact Or.inr (hhigh (by omega) (by omega) hb)

/-- Where the strict reader reads all, the other reads the same. -/
theorem legibleFrom_of_decodeFrom {index : Nat} {p : Option Pending} {bs : Octets} {cs : List Char}
    (h : decodeFrom index p bs = .ok cs) : legibleFrom p bs = cs := by
  -- by the recursion of the strict reader; where it ends in a fault there is nothing to show
  fun_induction decodeFrom index p bs generalizing cs with
  | case1 index =>
      cases h
      rfl
  | case3 index b rest hone cs' hrest ih =>
      cases h
      rw [legibleFrom, proceed, begin, if_pos hone]
      exact congrArg (List.cons _) (ih hrest)
  | case6 index b rest hone p hlead ih =>
      rw [legibleFrom, proceed, begin, if_neg hone, hlead]
      exact ih h
  | case7 index p b rest hwithin bits hdue cs' hrest =>
      rename_i ih
      cases h
      rw [legibleFrom, proceed, if_pos hwithin, hdue]
      exact congrArg (List.cons _) (ih hrest)
  | case9 index p b rest hwithin bits due hdue =>
      rename_i ih
      rw [legibleFrom, proceed, if_pos hwithin, hdue]
      exact ih h
  | case2 | case4 | case5 | case8 | case10 => cases h

/-- A text can be read. -/
theorem legible_flatMap (cs : List Char) : legible (cs.flatMap encodeChar) = cs :=
  legibleFrom_of_decodeFrom (decodeFrom_flatMap cs 0)

end GameHall.Utf8
