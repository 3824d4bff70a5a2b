import Mathlib.Data.List.TakeDrop
import Mathlib.Tactic.SplitIfs
import GameHall.Json.Reader
import GameHall.Json.Writer

/-!
# JSON there and back

What the writer makes of a value the reader reads as that value (`read_render`), so the text of a value
determines the value (`render_injective`). A string ends at the first quote without a backslash before
it, and what is written of a character is read as that character (`takePieces_escape`), so nothing in a
string can end it. A number ends where its digits end, and behind every value of a document there is
nothing, a comma or a closing bracket (`Ends`).
-/

namespace GameHall.Json

/-! ## Strings -/

theorem hexValue?_hexDigit : ∀ n < 16, hexValue? (hexDigit n) = some n := by
  decide

/-- What a character below space is written as is read as its number. -/
theorem hexUnit?_control {n : Nat} (hn : n < 32) :
    hexUnit? '0' '0' (hexDigit (n / 16)) (hexDigit (n % 16)) = some n := by
  have hzero : hexValue? '0' = some 0 := by decide
  have hhigh := hexValue?_hexDigit (n / 16) (by omega)
  have hlow := hexValue?_hexDigit (n % 16) (by omega)
  simp only [hexUnit?, hzero, hhigh, hlow, Option.bind_eq_bind, Option.bind_some, Option.pure_def]
  exact congrArg some (by omega)

/-- The string goes on behind a piece. -/
def continue? (p : Piece) (rest : List Char) : Option (List Piece × List Char) :=
  (takePieces rest).map fun taken => (p :: taken.1, taken.2)

theorem takePieces_letter {e c : Char} (he : e ≠ 'u') (hc : escaped? e = some c) (rest : List Char) :
    takePieces ('\\' :: e :: rest) = continue? (.char c) rest := by
  rw [takePieces]
  · rw [hc, continue?]
    cases takePieces rest <;> rfl
  · exact fun _ _ _ _ _ h => absurd h he

theorem takePieces_control {n : Nat} (hn : n < 32) (rest : List Char) :
    takePieces ('\\' :: 'u' :: '0' :: '0' :: hexDigit (n / 16) :: hexDigit (n % 16) :: rest)
      = continue? (.char (Char.ofNat n)) rest := by
  have hpiece : pieceOfUnit n = .char (Char.ofNat n) := if_neg (by omega)
  rw [takePieces, hexUnit?_control hn, continue?]
  simp only [Option.bind_eq_bind, Option.bind_some, Option.pure_def, hpiece]
  cases takePieces rest <;> rfl

theorem takePieces_plain {c : Char} (hquote : c ≠ '"') (hbackslash : c ≠ '\\') (hspace : 0x20 ≤ c.toNat)
    (rest : List Char) : takePieces (c :: rest) = continue? (.char c) rest := by
  rw [takePieces, if_neg (by simp [hbackslash]; omega), continue?]
  · cases takePieces rest <;> rfl
  · exact hquote
  · exact fun _ _ _ _ _ h _ => hbackslash h
  · exact fun _ _ h _ => hbackslash h

/-- **A character that has been written is read**, and the string goes on. -/
theorem takePieces_escape (c : Char) (rest : List Char) :
    takePieces (escape c ++ rest) = continue? (.char c) rest := by
  have hchar : Char.ofNat c.toNat = c := Char.ofNat_toNat c
  -- seven characters have a letter of their own; other control characters are spelled by number
  by_cases hquote : c = '"'
  · subst hquote
    exact takePieces_letter (by decide) rfl rest
  by_cases hbackslash : c = '\\'
  · subst hbackslash
    exact takePieces_letter (by decide) rfl rest
  by_cases hline : c = '\n'
  · subst hline
    exact takePieces_letter (by decide) rfl rest
  by_cases hreturn : c = '\r'
  · subst hreturn
    exact takePieces_letter (by decide) rfl rest
  by_cases htab : c = '\t'
  · subst htab
    exact takePieces_letter (by decide) rfl rest
  by_cases hback : c.toNat = 8
  · rw [hback] at hchar
    subst hchar
    exact takePieces_letter (by decide) rfl rest
  by_cases hfeed : c.toNat = 12
  · rw [hfeed] at hchar
    subst hchar
    exact takePieces_letter (by decide) rfl rest
  rw [escape, if_neg hquote, if_neg hbackslash, if_neg hline, if_neg hreturn, if_neg htab,
    if_neg hback, if_neg hfeed]
  by_cases hspace : c.toNat < 0x20
  · have hcontrol := takePieces_control hspace rest
    rw [hchar] at hcontrol
    rw [if_pos hspace]
    exact hcontrol
  · rw [if_neg hspace]
    exact takePieces_plain hquote hbackslash (Nat.le_of_not_lt hspace) rest

theorem takePieces_flatMap_escape (s rest : List Char) :
    takePieces (s.flatMap escape ++ '"' :: rest) = some (s.map .char, rest) := by
  induction s with
  | nil => rfl
  | cons c s ih =>
      rw [List.flatMap_cons, List.append_assoc, takePieces_escape, continue?, ih]
      rfl

theorem joinPieces_map_char (s : List Char) : joinPieces (s.map .char) = some s := by
  induction s with
  | nil => rfl
  | cons c s ih => simp [joinPieces, ih]

theorem takeString_quoted (s : String) (rest : List Char) :
    takeString (s.toList.flatMap escape ++ '"' :: rest) = some (some s, rest) := by
  rw [takeString, takePieces_flatMap_escape]
  simp [joinPieces_map_char]

/-! ## Numbers -/

/-- What may stand behind a value. -/
def Ends (rest : List Char) : Prop := ∀ c ∈ rest.head?, c = ',' ∨ c = ']' ∨ c = '}'

theorem takeDigits_append {ds rest : List Char} (hds : ∀ d ∈ ds, d.isDigit = true) (hrest : Ends rest) :
    takeDigits (ds ++ rest) = (ds, rest) := by
  have htake : rest.takeWhile Char.isDigit = [] ∧ rest.dropWhile Char.isDigit = rest := by
    cases rest with
    | nil => exact ⟨rfl, rfl⟩
    | cons c rest =>
        have hc : c.isDigit = false := by
          rcases hrest c rfl with rfl | rfl | rfl <;> rfl
        simp [hc]
  rw [takeDigits, List.span_eq_takeWhile_dropWhile, List.takeWhile_append_of_pos hds,
    List.dropWhile_append_of_pos hds, htake.1, htake.2, List.append_nil]

theorem digitsValue_toDigits (n : Nat) : digitsValue (Nat.toDigits 10 n) = n := by
  have hvalue : ∀ ds, digitsValue ds = Nat.ofDigitChars 10 ds 0 := by
    intro ds
    simp [digitsValue, Nat.ofDigitChars, Nat.mul_comm]
  rw [hvalue, Nat.ofDigitChars_toDigits (by omega) (by omega)]

/-- Only zero begins with a zero. -/
theorem eq_zero_of_head {n : Nat} (h : (Nat.toDigits 10 n).head? = some '0') : n = 0 := by
  induction n using Nat.strongRecOn with
  | ind n ih =>
      rw [Nat.toDigits_eq_if (by omega)] at h
      split at h
      · exact Nat.digitChar_eq_zero.mp (Option.some.inj h)
      · rename_i hten
        -- the first digit is that of a tenth of the number, which is not zero
        obtain ⟨first, others, hfront⟩ := List.exists_cons_of_ne_nil (Nat.toDigits_ne_nil (n := n / 10))
        rw [hfront] at h
        have hzero : n / 10 = 0 := ih (n / 10) (by omega) (by rw [hfront]; exact h)
        omega

theorem takeNumber_write {n : JsonNumber} (hn : n.integral = true) {rest : List Char} (hrest : Ends rest) :
    takeNumber n.negative (Nat.toDigits 10 n.whole ++ rest) = some (.number n, rest) := by
  have hdigits : ∀ d ∈ Nat.toDigits 10 n.whole, d.isDigit = true :=
    fun _ hd => Nat.isDigit_of_mem_toDigits (by omega) (by omega) hd
  have hfraction : takeFraction rest = some (false, rest) := by
    unfold takeFraction
    split
    · rcases hrest _ rfl with h | h | h <;> cases h
    · rfl
  have hexponent : takeExponent rest = some (false, rest) := by
    cases rest with
    | nil => rfl
    | cons c rest =>
        have hc : ¬(c = 'e' ∨ c = 'E') := by
          rcases hrest c rfl with rfl | rfl | rfl <;> decide
        unfold takeExponent
        exact if_neg hc
  have hnumber : JsonNumber.mk n.negative n.whole true = n := by
    rw [← hn]
  rw [takeNumber, takeDigits_append hdigits hrest]
  split
  · rename_i hnil
    exact absurd (Prod.mk.inj hnil).1 Nat.toDigits_ne_nil
  -- a zero with digits behind it would be read as no number
  · rename_i hlong
    have hzero : n.whole = 0 := eq_zero_of_head (by rw [(Prod.mk.inj hlong).1]; rfl)
    rw [hzero] at hlong
    cases (Prod.mk.inj hlong).1
  · rename_i hsplit
    obtain ⟨rfl, rfl⟩ := Prod.mk.inj hsplit
    simp [hfraction, hexponent, digitsValue_toDigits, hnumber]

/-! ## Values -/

mutual

/-- A value of which the writer loses nothing: its numbers are whole, and its strings are text. -/
def Plain : Json → Prop
  | number n => n.integral = true
  | string s => s.isSome = true
  | array elements => AllPlain elements
  | object members => MembersPlain members
  | _ => True

def AllPlain : List Json → Prop
  | [] => True
  | v :: vs => Plain v ∧ AllPlain vs

def MembersPlain : List (Option String × Json) → Prop
  | [] => True
  | (k, v) :: ms => k.isSome = true ∧ Plain v ∧ MembersPlain ms

end

mutual

/-- How deep arrays and objects nest in a value. -/
def depth : Json → Nat
  | array elements => depthAll elements + 1
  | object members => depthMembers members + 1
  | _ => 0

def depthAll : List Json → Nat
  | [] => 0
  | v :: vs => max (depth v) (depthAll vs)

def depthMembers : List (Option String × Json) → Nat
  | [] => 0
  | (_, v) :: ms => max (depth v) (depthMembers ms)

end

/-- A character that the reader passes over nowhere, and that does not close an array. -/
def Opens (c : Char) : Prop := c ≠ ' ' ∧ c ≠ '\n' ∧ c ≠ '\t' ∧ c ≠ '\r' ∧ c ≠ ']'

instance (c : Char) : Decidable (Opens c) :=
  inferInstanceAs (Decidable (c ≠ ' ' ∧ c ≠ '\n' ∧ c ≠ '\t' ∧ c ≠ '\r' ∧ c ≠ ']'))

theorem skipBlanks_cons {c : Char} (hc : Opens c) (cs : List Char) : skipBlanks (c :: cs) = c :: cs := by
  obtain ⟨hspace, hline, htab, hreturn, -⟩ := hc
  simp [skipBlanks, hspace, hline, htab, hreturn]

theorem opens_of_isDigit {c : Char} (hc : c.isDigit = true) : Opens c := by
  refine ⟨?_, ?_, ?_, ?_, ?_⟩
  all_goals
    rintro rfl
    cases hc

theorem toDigits_eq_cons (n : Nat) : ∃ d ds, Nat.toDigits 10 n = d :: ds ∧ d.isDigit = true := by
  obtain ⟨d, ds, hsplit⟩ := List.exists_cons_of_ne_nil (Nat.toDigits_ne_nil (n := n))
  refine ⟨d, ds, hsplit, ?_⟩
  refine Nat.isDigit_of_mem_toDigits (b := 10) (n := n) (by omega) (by omega) ?_
  rw [hsplit]
  exact List.mem_cons_self

/-- No value is written with a blank or a closing bracket at its front. -/
theorem write_eq_cons (v : Json) : ∃ c cs, v.write = c :: cs ∧ Opens c := by
  cases v with
  | null => exact ⟨_, _, rfl, by decide⟩
  | bool b => cases b <;> exact ⟨_, _, rfl, by decide⟩
  | number n =>
      rw [write, writeNumber]
      split
      · exact ⟨'-', _, rfl, by decide⟩
      · obtain ⟨d, ds, hsplit, hd⟩ := toDigits_eq_cons n.whole
        exact ⟨d, ds, hsplit, opens_of_isDigit hd⟩
  | string s => exact ⟨'"', _, rfl, by decide⟩
  | array elements => exact ⟨'[', _, rfl, by decide⟩
  | object members => exact ⟨'{', _, rfl, by decide⟩

/-- A value that begins with a digit is a number. -/
theorem takeValue_digit {d : Char} (hd : d.isDigit = true) (allowance depth : Nat) (ds : List Char) :
    takeValue (allowance + 1) depth (d :: ds) = takeNumber false (d :: ds) := by
  rw [takeValue, skipBlanks_cons (opens_of_isDigit hd)]
  split
  case h_8 => rfl
  all_goals
    rename_i heq
    rw [(List.cons.inj heq).1] at hd
    cases hd

theorem ends_cons {c : Char} (hc : c = ',' ∨ c = ']' ∨ c = '}') (rest : List Char) : Ends (c :: rest) := by
  intro c' hc'
  cases hc'
  exact hc

theorem writeElements_eq_cons (v : Json) (vs : List Json) :
    ∃ c cs, writeElements (v :: vs) = c :: cs ∧ Opens c := by
  obtain ⟨c, cs, hfront, hc⟩ := write_eq_cons v
  cases vs with
  | nil => exact ⟨c, cs, hfront, hc⟩
  | cons v' vs =>
      refine ⟨c, cs ++ ',' :: writeElements (v' :: vs), ?_, hc⟩
      rw [writeElements, hfront]
      · rfl
      · exact fun h => by cases h

theorem writeMembers_eq_cons (k : Option String) (v : Json) (ms : List (Option String × Json)) :
    ∃ cs, writeMembers ((k, v) :: ms) = '"' :: cs := by
  cases ms with
  | nil => exact ⟨_, rfl⟩
  | cons member ms => exact ⟨_, rfl⟩

mutual

/-- **A value that has been written is read**, and the reader stops behind it. -/
theorem takeValue_write (v : Json) (allowance limit : Nat) (rest : List Char) (hplain : v.Plain)
    (hdepth : v.depth ≤ limit) (hrest : Ends rest) (h : 2 * v.write.length ≤ allowance + 1) :
    takeValue allowance limit (v.write ++ rest) = some (v, rest) := by
  -- every value has a character at least, which pays for a step of the reader
  obtain ⟨c, cs, hfront, hopens⟩ := write_eq_cons v
  have hpos : 1 ≤ v.write.length := by
    rw [hfront]
    exact Nat.succ_pos _
  obtain ⟨left, rfl⟩ : ∃ left, allowance = left + 1 := ⟨allowance - 1, by omega⟩
  cases v with
  | null =>
      have hskip := skipBlanks_cons (c := 'n') (by decide) ('u' :: 'l' :: 'l' :: rest)
      simp [write, takeValue, hskip, after?]
  | bool b =>
      have hfalse := skipBlanks_cons (c := 'f') (by decide) ('a' :: 'l' :: 's' :: 'e' :: rest)
      have htrue := skipBlanks_cons (c := 't') (by decide) ('r' :: 'u' :: 'e' :: rest)
      cases b with
      | false => simp [write, takeValue, hfalse, after?]
      | true => simp [write, takeValue, htrue, after?]
  | number n =>
      have hnumber := takeNumber_write hplain hrest
      obtain ⟨negative, whole, integral⟩ := n
      cases negative with
      | false =>
          obtain ⟨d, ds, hdigits, hd⟩ := toDigits_eq_cons whole
          rw [hdigits] at hnumber
          simp only [write, writeNumber, hdigits]
          exact (takeValue_digit hd left limit (ds ++ rest)).trans hnumber
      | true =>
          have hskip := skipBlanks_cons (c := '-') (by decide) (Nat.toDigits 10 whole ++ rest)
          simp [write, writeNumber, takeValue, hskip, hnumber]
  | string s =>
      obtain ⟨text, rfl⟩ := Option.isSome_iff_exists.mp hplain
      have hskip := skipBlanks_cons (c := '"') (by decide) (text.toList.flatMap escape ++ '"' :: rest)
      simp [write, quote, takeValue, hskip, takeString_quoted]
  | array elements =>
      have hskip := fun cs => skipBlanks_cons (c := '[') (by decide) cs
      obtain ⟨limit, rfl⟩ : ∃ below, limit = below + 1 := ⟨limit - 1, by rw [depth] at hdepth; omega⟩
      cases elements with
      | nil =>
          have hclose : skipBlanks (']' :: rest) = ']' :: rest := rfl
          simp [write, writeElements, takeValue, hskip, hclose]
      | cons v vs =>
          -- the reader looks whether the array ends here, and no element begins with a bracket
          obtain ⟨c, cs, hfirst, hc⟩ := writeElements_eq_cons v vs
          have hskip' := skipBlanks_cons hc (cs ++ ']' :: rest)
          rw [write, List.length_cons, List.length_append] at h
          have helements := takeElements_write v vs left limit rest hplain
            (Nat.le_of_succ_le_succ hdepth) (by omega)
          rw [hfirst] at helements
          simp only [List.cons_append] at helements
          simp [write, hfirst, takeValue, hskip, hskip', hc.2.2.2.2, helements]
  | object members =>
      have hskip := fun cs => skipBlanks_cons (c := '{') (by decide) cs
      obtain ⟨limit, rfl⟩ : ∃ below, limit = below + 1 := ⟨limit - 1, by rw [depth] at hdepth; omega⟩
      cases members with
      | nil =>
          have hclose : skipBlanks ('}' :: rest) = '}' :: rest := rfl
          simp [write, writeMembers, takeValue, hskip, hclose]
      | cons member ms =>
          cases member with
          | mk k v =>
              rw [write, List.length_cons, List.length_append] at h
              have hmembers := takeMembers_write k v ms left limit rest hplain
                (Nat.le_of_succ_le_succ hdepth) (by omega)
              obtain ⟨cs, hfirst⟩ := writeMembers_eq_cons k v ms
              have hskip' := skipBlanks_cons (c := '"') (by decide) (cs ++ '}' :: rest)
              rw [hfirst] at hmembers
              simp only [List.cons_append] at hmembers
              simp [write, hfirst, takeValue, hskip, hskip', hmembers]
termination_by sizeOf v

/-- So are the elements of an array, up to its closing bracket. -/
theorem takeElements_write (v : Json) (vs : List Json) (allowance limit : Nat) (rest : List Char)
    (hplain : AllPlain (v :: vs)) (hdepth : depthAll (v :: vs) ≤ limit)
    (h : 2 * (writeElements (v :: vs)).length ≤ allowance) :
    takeElements allowance limit (writeElements (v :: vs) ++ ']' :: rest) = some (v :: vs, rest) := by
  obtain ⟨c, cs, hfirst, -⟩ := writeElements_eq_cons v vs
  have hpos : 1 ≤ (writeElements (v :: vs)).length := by
    rw [hfirst]
    exact Nat.succ_pos _
  obtain ⟨left, rfl⟩ : ∃ left, allowance = left + 1 := ⟨allowance - 1, by omega⟩
  obtain ⟨hv, hvs⟩ := hplain
  obtain ⟨hdepthFirst, hdepthOthers⟩ := Nat.max_le.mp hdepth
  cases vs with
  -- a value ends at the bracket behind the last element, and at the comma behind another
  | nil =>
      have hvalue := takeValue_write v left limit (']' :: rest) hv hdepthFirst
        (ends_cons (by decide) rest) h
      have hskip : skipBlanks (']' :: rest) = ']' :: rest := rfl
      simp [writeElements, takeElements, hvalue, hskip]
  | cons v' vs =>
      simp only [writeElements, List.length_append, List.length_cons] at h
      have hvalue := takeValue_write v left limit (',' :: (writeElements (v' :: vs) ++ ']' :: rest)) hv
        hdepthFirst (ends_cons (by decide) _) (by omega)
      have hothers := takeElements_write v' vs left limit rest hvs hdepthOthers (by omega)
      have hskip : ∀ cs, skipBlanks (',' :: cs) = ',' :: cs := fun _ => rfl
      simp [writeElements, takeElements, hvalue, hskip, hothers]
termination_by sizeOf v + sizeOf vs

/-- And the members of an object, up to its closing brace. -/
theorem takeMembers_write (k : Option String) (v : Json) (ms : List (Option String × Json))
    (allowance limit : Nat) (rest : List Char) (hplain : MembersPlain ((k, v) :: ms))
    (hdepth : depthMembers ((k, v) :: ms) ≤ limit)
    (h : 2 * (writeMembers ((k, v) :: ms)).length ≤ allowance) :
    takeMembers allowance limit (writeMembers ((k, v) :: ms) ++ '}' :: rest)
      = some ((k, v) :: ms, rest) := by
  obtain ⟨cs, hfirst⟩ := writeMembers_eq_cons k v ms
  have hpos : 1 ≤ (writeMembers ((k, v) :: ms)).length := by
    rw [hfirst]
    exact Nat.succ_pos _
  obtain ⟨left, rfl⟩ : ∃ left, allowance = left + 1 := ⟨allowance - 1, by omega⟩
  obtain ⟨hk, hv, hms⟩ := hplain
  obtain ⟨key, rfl⟩ := Option.isSome_iff_exists.mp hk
  obtain ⟨hdepthFirst, hdepthOthers⟩ := Nat.max_le.mp hdepth
  have hquote : ∀ cs, skipBlanks ('"' :: cs) = '"' :: cs := fun _ => rfl
  have hcolon : ∀ cs, skipBlanks (':' :: cs) = ':' :: cs := fun _ => rfl
  cases ms with
  | nil =>
      simp only [writeMembers, List.length_append, List.length_cons] at h
      have hvalue := takeValue_write v left limit ('}' :: rest) hv hdepthFirst
        (ends_cons (by decide) rest) (by omega)
      have hskip : skipBlanks ('}' :: rest) = '}' :: rest := rfl
      simp [writeMembers, quote, takeMembers, hquote, takeString_quoted, hcolon, hvalue, hskip]
  | cons member ms =>
      cases member with
      | mk k' v' =>
          simp only [writeMembers, List.length_append, List.length_cons] at h
          have hvalue := takeValue_write v left limit (',' :: (writeMembers ((k', v') :: ms) ++ '}' :: rest)) hv
            hdepthFirst (ends_cons (by decide) _) (by omega)
          have hothers := takeMembers_write k' v' ms left limit rest hms hdepthOthers (by omega)
          have hskip : ∀ cs, skipBlanks (',' :: cs) = ',' :: cs := fun _ => rfl
          simp [writeMembers, quote, takeMembers, hquote, takeString_quoted, hcolon, hvalue, hskip, hothers]
termination_by sizeOf v + sizeOf ms

end

/-- **What is written of a value is read as that value**, however deep it is as long as the reader goes
that deep. -/
theorem read_render {v : Json} (hplain : v.Plain) (hdepth : v.depth ≤ maxDepth) :
    read v.render = some v := by
  have hvalue := takeValue_write v (2 * v.write.length + 2) maxDepth [] hplain hdepth
    (fun _ h => by cases h) (by omega)
  rw [List.append_nil] at hvalue
  have hskip : skipBlanks [] = [] := rfl
  simp [read, render, String.toList_ofList, hvalue, hskip]

/-- No two values are written alike. -/
theorem render_injective {v w : Json} (hv : v.Plain) (hvdepth : v.depth ≤ maxDepth) (hw : w.Plain)
    (hwdepth : w.depth ≤ maxDepth) (h : v.render = w.render) : v = w := by
  have hread := read_render hv hvdepth
  rw [h, read_render hw hwdepth] at hread
  exact (Option.some.inj hread).symm

end GameHall.Json
