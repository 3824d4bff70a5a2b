import GameHall.Text.LowerCase
import Mathlib.Data.List.Basic

/-!
# Lower case in context

All characters but one have one lower case wherever they stand. A capital sigma is written as a final
one if it ends a word, and whether it does is seen only from its neighbours. So the lower case of a
part of a text (`lowerWithin`) may differ from the lower case of the part alone, and it does so just if
a sigma in it has another form there (`lowerWithin_eq_iff`).

Of a capital sigma with enough of the word around it the form is settled. A text is `Steady` if that is
so of all its capital sigmas: then it has the same lower case wherever it stands (`keeps_of_steady`),
and a text that is not can be placed so that its lower case is not found there at all
(`exists_hidden`).

What is said here of the neighbours does not hang on the case of letters of the ASCII range
(`lowerFrom_recased`).
-/

namespace GameHall.LowerCase

/-! ## Neighbours -/

/-- Whether a capital sigma ends a word; of the characters before it the latest comes first. -/
def isFinal (before after : List Char) : Bool := meetsCased before && !meetsCased after

theorem meetsCased_cons (c : Char) (cs : List Char) :
    meetsCased (c :: cs) = if isIgnorable c then meetsCased cs else isCased c := by
  by_cases hc : isIgnorable c = true
  · rw [if_pos hc, meetsCased, List.dropWhile_cons_of_pos hc, meetsCased]
  · rw [if_neg hc, meetsCased, List.dropWhile_cons_of_neg hc]

/-- Only what is passed over lets the neighbours behind it be seen. -/
theorem meetsCased_append (cs ds : List Char) :
    meetsCased (cs ++ ds) = if cs.all isIgnorable then meetsCased ds else meetsCased cs := by
  induction cs with
  | nil => rfl
  | cons c cs ih =>
      rw [List.cons_append, meetsCased_cons, meetsCased_cons, ih, List.all_cons]
      cases isIgnorable c <;> simp

theorem meetsCased_of_all {cs : List Char} (h : cs.all isIgnorable = true) : meetsCased cs = false := by
  have hsplit := meetsCased_append cs []
  rw [List.append_nil, if_pos h] at hsplit
  exact hsplit

theorem all_reverse (cs : List Char) : cs.reverse.all isIgnorable = cs.all isIgnorable := by
  rw [List.all_reverse]

/-! ## The lower case of a part -/

/-- The lower case of the characters `cs` between those before, latest first, and those after. -/
def lowerWithin (before after : List Char) : List Char → List Char
  | [] => []
  | c :: cs =>
    (if c = 'Σ' then [if isFinal before (cs ++ after) then 'ς' else 'σ'] else lowerChar c)
      ++ lowerWithin (c :: before) after cs

theorem lowerFrom_append (before cs ds : List Char) :
    lowerFrom before (cs ++ ds) = lowerWithin before ds cs ++ lowerFrom (cs.reverse ++ before) ds := by
  induction cs generalizing before with
  | nil => rfl
  | cons c cs ih =>
      rw [List.cons_append, lowerFrom, ih, lowerWithin, List.append_assoc, List.reverse_cons,
        List.append_assoc]
      rfl

/-- A text that stands alone has nothing before it and nothing after it. -/
theorem lowerFrom_eq (before cs : List Char) : lowerFrom before cs = lowerWithin before [] cs := by
  have happend := lowerFrom_append before cs []
  rw [List.append_nil] at happend
  exact happend.trans (List.append_nil _)

/-- **The lower case of a part differs just if a sigma in it has another form.** -/
theorem lowerWithin_eq_iff {before after before' after' : List Char} {w : List Char} :
    lowerWithin before after w = lowerWithin before' after' w ↔ ∀ l r, w = l ++ 'Σ' :: r →
      isFinal (l.reverse ++ before) (r ++ after) = isFinal (l.reverse ++ before') (r ++ after') := by
  -- on the part; the letters passed stand before what is left of it
  induction w generalizing before before' with
  | nil => simp [lowerWithin]
  | cons c cs ih =>
      have htail : (∀ l r, cs = l ++ 'Σ' :: r → isFinal (l.reverse ++ c :: before) (r ++ after)
            = isFinal (l.reverse ++ c :: before') (r ++ after'))
          ↔ ∀ l r, c :: cs = (c :: l) ++ 'Σ' :: r → isFinal ((c :: l).reverse ++ before) (r ++ after)
            = isFinal ((c :: l).reverse ++ before') (r ++ after') := by
        simp
      rw [lowerWithin, lowerWithin]
      constructor
      · intro h l r hw
        cases l with
        | nil =>
            obtain ⟨rfl, rfl⟩ := List.cons.inj hw
            simp only [↓reduceIte, List.singleton_append, List.cons.injEq] at h
            rw [List.reverse_nil, List.nil_append, List.nil_append]
            revert h
            cases isFinal before (cs ++ after) <;> cases isFinal before' (cs ++ after') <;> simp
        | cons d l =>
            obtain ⟨rfl, rfl⟩ := List.cons.inj hw
            refine htail.mp (ih.mp ?_) l r rfl
            by_cases hc : c = 'Σ'
            · rw [if_pos hc, if_pos hc] at h
              exact (List.cons.inj h).2
            · rw [if_neg hc, if_neg hc] at h
              exact List.append_cancel_left h
      · intro h
        have hrest := ih.mpr (htail.mpr fun l r => h (c :: l) r)
        by_cases hc : c = 'Σ'
        · subst hc
          have hhere := h [] cs rfl
          simp only [List.reverse_nil, List.nil_append] at hhere
          rw [hhere, hrest]
        · rw [if_neg hc, if_neg hc, hrest]

/-! ## Steady texts -/

/-- Whether the form of a capital sigma between `l` and `r` hangs on what stands around them. Either
it is final as long as no word goes on behind `r`, or it would be final if a word began before `l`. -/
def Sways (l r : List Char) : Prop :=
  (meetsCased l.reverse = true ∧ r.all isIgnorable = true)
    ∨ (l.all isIgnorable = true ∧ meetsCased r = false)

/-- A text all of whose capital sigmas have their form wherever it stands. -/
def Steady (w : List Char) : Prop := ∀ l r, w = l ++ 'Σ' :: r → ¬ Sways l r

/-- The capital sigmas of a text have the form between `p` and `s` that they have in the text alone. -/
def Keeps (p w s : List Char) : Prop := ∀ l r, w = l ++ 'Σ' :: r →
  isFinal (l.reverse ++ p.reverse) (r ++ s) = isFinal l.reverse r

/-- The lower case of a part is what it is alone just if its capital sigmas keep their form. -/
theorem keeps_iff {p w s : List Char} :
    Keeps p w s ↔ lowerWithin p.reverse s w = lowerFrom [] w := by
  rw [lowerFrom_eq, lowerWithin_eq_iff]
  simp only [Keeps, List.append_nil]

theorem isFinal_of_not_sways {l r : List Char} (h : ¬ Sways l r) (before after : List Char) :
    isFinal (l.reverse ++ before) (r ++ after) = isFinal l.reverse r := by
  rw [Sways, not_or, not_and_or, not_and_or] at h
  obtain ⟨hleft, hright⟩ := h
  rw [isFinal, isFinal, meetsCased_append, meetsCased_append, all_reverse]
  by_cases hl : l.all isIgnorable = true
  · -- nothing of `l` is seen, but a word goes on in `r`
    have hr : meetsCased r = true := by simpa [hl] using hright
    have hopen : ¬ r.all isIgnorable = true := fun hall => by
      rw [meetsCased_of_all hall] at hr
      cases hr
    rw [if_neg hopen, hr]
    simp
  · rw [if_neg hl]
    by_cases hr : r.all isIgnorable = true
    · have hcased : meetsCased l.reverse = false := by simpa [hr] using hleft
      rw [hcased]
      rfl
    · rw [if_neg hr]

theorem keeps_of_steady {w : List Char} (h : Steady w) (p s : List Char) : Keeps p w s :=
  fun l r hw => isFinal_of_not_sways (h l r hw) p.reverse s

/-! ## Texts that can be hidden -/

/-- How many capital sigmas of a text are written as final ones. -/
def finals (before after : List Char) : List Char → Nat
  | [] => 0
  | c :: cs =>
    (if c = 'Σ' ∧ isFinal before (cs ++ after) = true then 1 else 0) + finals (c :: before) after cs

/-- How often the characters other than capital sigmas bring in a character. -/
def brought (x : Char) (w : List Char) : Nat :=
  ((w.filter fun c => decide (c ≠ 'Σ')).flatMap lowerChar).count x

theorem brought_sigma (x : Char) (w : List Char) : brought x ('Σ' :: w) = brought x w := by
  simp [brought]

theorem brought_cons {c : Char} (hc : c ≠ 'Σ') (x : Char) (w : List Char) :
    brought x (c :: w) = (lowerChar c).count x + brought x w := by
  simp [brought, hc]

theorem count_final (before after w : List Char) :
    (lowerWithin before after w).count 'ς' = finals before after w + brought 'ς' w := by
  induction w generalizing before with
  | nil => rfl
  | cons c cs ih =>
      rw [lowerWithin, List.count_append, ih, finals]
      by_cases hc : c = 'Σ'
      · subst hc
        rw [brought_sigma]
        cases isFinal before (cs ++ after) <;> simp [Nat.add_assoc]
      · rw [brought_cons hc, if_neg hc, if_neg (fun h => hc h.1)]
        omega

theorem count_medial (before after w : List Char) :
    (lowerWithin before after w).count 'σ' + finals before after w = w.count 'Σ' + brought 'σ' w := by
  induction w generalizing before with
  | nil => rfl
  | cons c cs ih =>
      have hrest := ih (c :: before)
      rw [lowerWithin, List.count_append, finals]
      by_cases hc : c = 'Σ'
      · subst hc
        rw [brought_sigma, List.count_cons_self]
        cases isFinal before (cs ++ after) <;> simp <;> omega
      · rw [brought_cons hc, List.count_cons_of_ne hc, if_neg hc, if_neg (fun h => hc h.1)]
        omega

/-- Every sigma of a text that is final between the first two texts is also final between the others. -/
def Spreads (before after before' after' w : List Char) : Prop := ∀ l r, w = l ++ 'Σ' :: r →
  isFinal (l.reverse ++ before) (r ++ after) = true → isFinal (l.reverse ++ before') (r ++ after') = true

theorem spreads_of_cons {before after before' after' : List Char} {c : Char} {w : List Char}
    (h : Spreads before after before' after' (c :: w)) :
    Spreads (c :: before) after (c :: before') after' w := by
  intro l r hw
  have hcons := h (c :: l) r (by rw [hw, List.cons_append])
  rwa [List.reverse_cons, List.append_assoc, List.append_assoc] at hcons

theorem final_le_of_spreads {before after before' after' : List Char} {c : Char} {cs : List Char}
    (h : Spreads before after before' after' (c :: cs)) :
    (if c = 'Σ' ∧ isFinal before (cs ++ after) = true then 1 else 0)
      ≤ if c = 'Σ' ∧ isFinal before' (cs ++ after') = true then 1 else 0 := by
  by_cases hc : c = 'Σ' ∧ isFinal before (cs ++ after) = true
  · obtain ⟨rfl, hfinal⟩ := hc
    have hfinal' : isFinal before' (cs ++ after') = true := h [] cs rfl hfinal
    simp [hfinal, hfinal']
  · rw [if_neg hc]
    exact Nat.zero_le _

/-- A text has no fewer final sigmas where each that was final still is. -/
theorem finals_le {before after before' after' : List Char} {w : List Char}
    (h : Spreads before after before' after' w) : finals before after w ≤ finals before' after' w := by
  induction w generalizing before before' with
  | nil => exact Nat.le_refl 0
  | cons c cs ih =>
      rw [finals, finals]
      exact Nat.add_le_add (final_le_of_spreads h) (ih (spreads_of_cons h))

theorem finals_lt {before after before' after' l r : List Char}
    (h : Spreads before after before' after' (l ++ 'Σ' :: r))
    (hnot : isFinal (l.reverse ++ before) (r ++ after) = false)
    (hfinal : isFinal (l.reverse ++ before') (r ++ after') = true) :
    finals before after (l ++ 'Σ' :: r) < finals before' after' (l ++ 'Σ' :: r) := by
  induction l generalizing before before' with
  | nil =>
      have hrest := finals_le (spreads_of_cons h)
      have hnot' : ¬ isFinal before (r ++ after) = true := Bool.eq_false_iff.mp hnot
      rw [List.nil_append, finals, finals, if_neg (fun hc => hnot' hc.2), if_pos ⟨rfl, hfinal⟩]
      omega
  | cons c l ih =>
      have hrest := ih (spreads_of_cons h) (by simpa using hnot) (by simpa using hfinal)
      rw [List.cons_append, finals, finals]
      exact Nat.add_lt_add_of_le_of_lt (final_le_of_spreads h) hrest

theorem meetsCased_a (cs : List Char) : meetsCased ('a' :: cs) = true := by
  have hseen : isIgnorable 'a' = false := by decide +kernel
  have hcased : isCased 'a' = true := by decide +kernel
  rw [meetsCased_cons, hseen, hcased]
  rfl

theorem lowerFrom_a (before : List Char) : lowerFrom before ['a'] = ['a'] := by
  have ha : ¬ 'a' = 'Σ' := by decide
  rw [lowerFrom, if_neg ha]
  rfl

/-- A sigma is final before one more letter if it was before, unless the letter is the first to be
seen. -/
theorem isFinal_more_after (before r : List Char) :
    isFinal before (r ++ ['a']) = (isFinal before r && !r.all isIgnorable) := by
  rw [isFinal, isFinal, meetsCased_append, meetsCased_a]
  cases r.all isIgnorable <;> simp

/-- A sigma is final behind one more letter if it was before, or if the letter is the first to be seen
and no word goes on behind it. -/
theorem isFinal_more_before (l r : List Char) :
    isFinal (l.reverse ++ ['a']) r = if l.all isIgnorable then !meetsCased r else isFinal l.reverse r := by
  rw [isFinal, isFinal, meetsCased_append, meetsCased_a, all_reverse]
  cases l.all isIgnorable <;> simp

/-- **A text that is not steady can be hidden**: with one more letter around it, its lower case does not
occur. -/
theorem exists_hidden {w : List Char} (h : ¬ Steady w) : ∃ p s,
    ¬ lowerFrom [] w <:+: lowerFrom [] (p ++ (w ++ s)) := by
  simp only [Steady, not_forall, Classical.not_not] at h
  obtain ⟨l, r, rfl, hsways⟩ := h
  rcases hsways with ⟨hcased, hall⟩ | ⟨hall, hcased⟩
  · -- a word goes on behind the text, which has fewer final sigmas then
    refine ⟨[], ['a'], fun hinfix => ?_⟩
    have hfewer : finals [] ['a'] (l ++ 'Σ' :: r) < finals [] [] (l ++ 'Σ' :: r) := by
      refine finals_lt (fun l r _ hfinal => ?_) ?_ ?_
      · rw [isFinal_more_after, Bool.and_eq_true] at hfinal
        rw [List.append_nil r]
        exact hfinal.1
      · rw [isFinal_more_after, hall, Bool.not_true, Bool.and_false]
      · rw [List.append_nil, List.append_nil, isFinal, hcased, meetsCased_of_all hall]
        rfl
    have hname : lowerFrom [] ([] ++ (l ++ 'Σ' :: r ++ ['a']))
        = lowerWithin [] ['a'] (l ++ 'Σ' :: r) ++ ['a'] := by
      rw [List.nil_append, lowerFrom_append, lowerFrom_a]
    have hcount := hinfix.sublist.count_le 'ς'
    have hnone : List.count 'ς' ['a'] = 0 := by decide
    rw [hname, lowerFrom_eq, List.count_append, count_final, count_final, hnone] at hcount
    omega
  · -- a word begins before the text, which has more final sigmas and fewer others then
    refine ⟨['a'], [], fun hinfix => ?_⟩
    have hmore : finals [] [] (l ++ 'Σ' :: r) < finals ['a'] [] (l ++ 'Σ' :: r) := by
      refine finals_lt (fun l r _ hfinal => ?_) ?_ ?_
      · rw [List.append_nil] at hfinal
        rw [isFinal_more_before]
        split
        · exact (Bool.and_eq_true_iff.mp hfinal).2
        · exact hfinal
      · rw [List.append_nil, isFinal, meetsCased_of_all ((all_reverse l).trans hall)]
        rfl
      · rw [isFinal_more_before, if_pos hall, List.append_nil, hcased]
        rfl
    have hcount := hinfix.sublist.count_le 'σ'
    have hname : lowerFrom [] (['a'] ++ ((l ++ 'Σ' :: r) ++ []))
        = ['a'] ++ lowerFrom ['a'] (l ++ 'Σ' :: r) := by
      rw [List.append_nil, lowerFrom_append]
      rfl
    have hnone : List.count 'σ' ['a'] = 0 := by decide
    rw [hname, lowerFrom_eq, lowerFrom_eq, List.count_append, hnone] at hcount
    have hwithout := count_medial [] [] (l ++ 'Σ' :: r)
    have hwith := count_medial ['a'] [] (l ++ 'Σ' :: r)
    omega

/-! ## Letters of the ASCII range -/

/-- Two texts that differ at most in the case of letters of the ASCII range. -/
def Recased (cs ds : List Char) : Prop := cs.map Char.toLower = ds.map Char.toLower

/-- What is true of the capital letters of the ASCII range is true of all characters that have another
case in it. -/
theorem toLower_cases (c : Char) : c.toLower = c ∨ c ∈ (List.range' 65 26).map Char.ofNat := by
  by_cases hc : c.val ≥ 'A'.val ∧ c.val ≤ 'Z'.val
  · refine Or.inr (List.mem_map.mpr ⟨c.toNat, List.mem_range'_1.mpr ?_, Char.ofNat_toNat c⟩)
    obtain ⟨hlow, hhigh⟩ := hc
    rw [ge_iff_le, UInt32.le_iff_toNat_le] at hlow
    rw [UInt32.le_iff_toNat_le] at hhigh
    exact ⟨hlow, Nat.lt_succ_of_le hhigh⟩
  · exact Or.inl (dif_neg hc)

theorem isIgnorable_toLower (c : Char) : isIgnorable c.toLower = isIgnorable c := by
  rcases toLower_cases c with h | h
  · rw [h]
  · have hall : ((List.range' 65 26).map Char.ofNat).all
        (fun c => isIgnorable c.toLower == isIgnorable c) = true := by decide +kernel
    exact beq_iff_eq.mp (List.all_eq_true.mp hall c h)

theorem isCased_toLower (c : Char) : isCased c.toLower = isCased c := by
  rcases toLower_cases c with h | h
  · rw [h]
  · have hall : ((List.range' 65 26).map Char.ofNat).all
        (fun c => isCased c.toLower == isCased c) = true := by decide +kernel
    exact beq_iff_eq.mp (List.all_eq_true.mp hall c h)

/-- The characters that are no capital sigma have one lower case in either case. -/
theorem lowerChar_toLower (c : Char) :
    (c.toLower = 'Σ' ↔ c = 'Σ') ∧ lowerChar c.toLower = lowerChar c := by
  rcases toLower_cases c with h | h
  · rw [h]
    exact ⟨Iff.rfl, rfl⟩
  · have hall : ((List.range' 65 26).map Char.ofNat).all (fun c => decide
        ((c.toLower = 'Σ' ↔ c = 'Σ') ∧ lowerChar c.toLower = lowerChar c)) = true := by decide +kernel
    exact of_decide_eq_true (List.all_eq_true.mp hall c h)

theorem meetsCased_toLower (cs : List Char) : meetsCased (cs.map Char.toLower) = meetsCased cs := by
  induction cs with
  | nil => rfl
  | cons c cs ih =>
      rw [List.map_cons, meetsCased_cons, meetsCased_cons, isIgnorable_toLower, isCased_toLower, ih]

theorem lowerFrom_toLower (before cs : List Char) :
    lowerFrom (before.map Char.toLower) (cs.map Char.toLower) = lowerFrom before cs := by
  induction cs generalizing before with
  | nil => rfl
  | cons c cs ih =>
      obtain ⟨hsigma, hlower⟩ := lowerChar_toLower c
      have hrest := ih (c :: before)
      rw [List.map_cons] at hrest
      rw [List.map_cons, lowerFrom, lowerFrom, hrest, hlower, meetsCased_toLower, meetsCased_toLower]
      simp only [hsigma]

/-- Texts that differ in the case of letters of the ASCII range have one lower case. -/
theorem lowerFrom_recased {cs ds : List Char} (h : Recased cs ds) : lowerFrom [] cs = lowerFrom [] ds := by
  rw [← lowerFrom_toLower [] cs, ← lowerFrom_toLower [] ds, h]

end GameHall.LowerCase
