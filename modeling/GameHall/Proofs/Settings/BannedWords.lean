import GameHall.Proofs.Text.LowerCase
import GameHall.Settings

/-!
# Banned words

A name is banned if it has a banned word in it, whatever the case of either. Name and word are put into
lower case apart, and a capital sigma in the word may then have another form than in the name: a word
with such a sigma at its edge can be hidden by writing on (`not_always_banned`).

That is the only way. A name is banned if it contains a banned word whose sigmas have the form in the
name that they have in the word, also if the case of letters of the ASCII range is changed
(`keepsOut`). A word that is `Steady` has nothing to fear, and every other can be hidden.
-/

namespace GameHall.Settings

open LowerCase

theorem occursIn_iff (word : List Char) (l : List Char) : occursIn word l = true ↔ word <:+: l := by
  induction l with
  | nil => rw [occursIn, List.isEmpty_iff, List.infix_nil]
  | cons c cs ih => rw [occursIn, Bool.or_eq_true, List.isPrefixOf_iff_prefix, ih, List.infix_cons_iff]

/-- A name is banned if a banned word is a part of it, both in lower case. -/
theorem bansName_iff {s : Settings} {name : String} : s.bansName name = true
    ↔ ∃ word ∈ s.banWords, word ≠ "" ∧ (lowerCase word).toList <:+: (lowerCase name).toList := by
  simp only [bansName, List.any_eq_true, List.mem_filter, Bool.not_eq_true', occursIn_iff,
    String.isEmpty_eq_false_iff, and_assoc]

theorem toList_lowerCase (s : String) : (lowerCase s).toList = lowerFrom [] s.toList := by
  rw [lowerCase, String.toList_ofList]

theorem toList_around (p word s : String) :
    (p ++ word ++ s).toList = p.toList ++ (word.toList ++ s.toList) := by
  rw [String.toList_append, String.toList_append, List.append_assoc]

/-- Where its sigmas keep their form, the lower case of a word is found in that of the text. -/
theorem infix_of_keeps {p word s : String} (h : Keeps p.toList word.toList s.toList) :
    (lowerCase word).toList <:+: (lowerCase (p ++ word ++ s)).toList := by
  rw [toList_lowerCase, toList_lowerCase, toList_around, lowerFrom_append, List.append_nil,
    lowerFrom_append, keeps_iff.mp h]
  exact ⟨_, _, List.append_assoc _ _ _⟩

/-- What the banned words of some settings keep out. -/
structure KeepsOut (st : Settings) : Prop where
  /-- A name that contains a banned word is banned if the sigmas of the word keep their form, whatever
  the case of letters of the ASCII range. -/
  caught : ∀ word ∈ st.banWords, word ≠ "" → ∀ p s : String, Keeps p.toList word.toList s.toList →
    ∀ name : String, Recased name.toList (p ++ word ++ s).toList → st.bansName name = true
  /-- So is every name that contains a steady word. -/
  steady : ∀ word ∈ st.banWords, word ≠ "" → Steady word.toList → ∀ p s name : String,
    Recased name.toList (p ++ word ++ s).toList → st.bansName name = true
  /-- A word that is not steady can be hidden, if there is no other. -/
  hidden : ∀ word, ¬ Steady word.toList → (∀ other ∈ st.banWords, other ≠ "" → other = word) →
    ∃ p s : String, st.bansName (p ++ word ++ s) = false
  /-- Nothing is banned but for a banned word. -/
  only : ∀ name, st.bansName name = true ↔ ∃ word ∈ st.banWords, word ≠ ""
    ∧ (lowerCase word).toList <:+: (lowerCase name).toList
  /-- The empty word bans nothing. -/
  empty : { st with banWords := st.banWords.filter fun word => decide (word ≠ "") }.bansName
    = st.bansName

/-- **A banned word cannot be smuggled into a name**, unless a sigma in it changes its form. -/
theorem keepsOut (st : Settings) : KeepsOut st := by
  have hcaught : ∀ word ∈ st.banWords, word ≠ "" → ∀ p s : String,
      Keeps p.toList word.toList s.toList → ∀ name : String,
      Recased name.toList (p ++ word ++ s).toList → st.bansName name = true := by
    intro word hword hne p s hkeeps name hname
    refine bansName_iff.mpr ⟨word, hword, hne, ?_⟩
    have hlower : (lowerCase name).toList = (lowerCase (p ++ word ++ s)).toList := by
      rw [toList_lowerCase, toList_lowerCase, lowerFrom_recased hname]
    rw [hlower]
    exact infix_of_keeps hkeeps
  exact {
    caught := hcaught
    steady := fun word hword hne hsteady p s name hname =>
      hcaught word hword hne p s (keeps_of_steady hsteady p.toList s.toList) name hname
    hidden := by
      intro word hsways halone
      -- one letter before or behind the word changes the form of a sigma in it
      obtain ⟨p, s, hhidden⟩ := exists_hidden hsways
      refine ⟨String.ofList p, String.ofList s, Bool.eq_false_iff.mpr fun hbanned => ?_⟩
      obtain ⟨other, hother, hne, hinfix⟩ := bansName_iff.mp hbanned
      rw [halone other hother hne, toList_lowerCase, toList_lowerCase, toList_around,
        String.toList_ofList, String.toList_ofList] at hinfix
      exact hhidden hinfix
    only := fun name => bansName_iff
    empty := by
      funext name
      rw [Bool.eq_iff_iff, bansName_iff, bansName_iff]
      constructor
      · rintro ⟨word, hword, hfound⟩
        exact ⟨word, (List.mem_filter.mp hword).1, hfound⟩
      · rintro ⟨word, hword, hne, hfound⟩
        exact ⟨word, List.mem_filter.mpr ⟨hword, decide_eq_true hne⟩, hne, hfound⟩ }

/-- A word that ends in a capital sigma is hidden by one more letter. -/
theorem not_always_banned : ¬ ∀ (text : String) (st : Settings), read text = some st →
    ∀ word ∈ st.banWords, word ≠ "" → ∀ p s : String, st.bansName (p ++ word ++ s) = true := by
  intro h
  have hread : read "[[\"ΑΣ\"]]" = some { initial with banWords := ["ΑΣ"] } := by decide +kernel
  have hbanned := h _ _ hread "ΑΣ" (List.mem_singleton.mpr rfl) (by decide) "" "Α"
  exact absurd hbanned (by decide +kernel)

example : Steady "Admin".toList := by
  intro l r h
  have hmem : 'Σ' ∈ "Admin".toList := by
    rw [h]
    simp
  exact absurd hmem (by decide)

end GameHall.Settings
