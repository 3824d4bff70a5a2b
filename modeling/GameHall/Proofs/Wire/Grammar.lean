import GameHall.Proofs.Wire.Following
import Mathlib.Data.List.Basic

/-!
# The language of records

A buffer holds a record just if it is a sentence of a small language: the head of an array of four or
six elements, and so many items, each of a sort that may stand at its position (`Record.Front`). The
language is stated without the reader.

What the reader has followed is the front of a sentence (`Record.front_of_follows`), and what may stand
there is followed (`Record.follows_of_placed`). So the ways in which the reader may halt are told apart
by the language alone (`Record.reads`).
-/

namespace GameHall

/-! ## The language -/

/-- What an element of a record holds. -/
inductive Element where
  | int (v : Int)
  | string (body : Octets)

namespace Element

/-- The element that an item makes. Octet and text strings are alike. -/
def ofItem? : Cbor.Item → Option Element
  | .int v => some (.int v)
  | .bytes body => some (.string body)
  | .text body => some (.string body)
  | _ => none

/-- Whether an element may stand at a position of a record. -/
def At (position : Nat) : Element → Prop
  | int v =>
    (position = 0 ∨ position = 1 ∨ position = 4) ∧ -2147483648 ≤ v ∧ v ≤ 2147483647
      ∨ position = 5 ∧ -9223372036854775808 ≤ v ∧ v ≤ 9223372036854775807
  | string _ => position = 2 ∨ position = 3

end Element

/-- Whether items may stand one after the other from a position on. -/
def Placed (position : Nat) (items : List Cbor.Item) : Prop :=
  ∀ i item, items[i]? = some item → ∃ e, Element.ofItem? item = some e ∧ e.At (position + i)

namespace Record

/-- What a record holds, in order. -/
def elements (r : Record) : List Element :=
  [.int r.id.toInt, .int r.mask.toInt, .string r.command, .string r.payload] ++
    match r.timing with
    | none => []
    | some t => [.int t.timeout.toInt, .int t.timestamp.toInt]

/-- The head of an array of four or six elements, and items that may be the first of them. -/
structure Front (arity : Nat) (items : List Cbor.Item) (bs : Octets) : Prop where
  count : arity = 4 ∨ arity = 6
  placed : Placed 0 items
  octets : ∃ width head body, Cbor.Head.Form 4 width arity head ∧ Cbor.Item.Forms items body
    ∧ bs = head ++ body

/-- All the elements are there. -/
def IsSentence (bs : Octets) : Prop := ∃ items, Front items.length items bs

/-- All the elements are there, and they are those of a record. -/
def Sentence (r : Record) (bs : Octets) : Prop :=
  ∃ items, Front items.length items bs ∧ items.map Element.ofItem? = r.elements.map some

/-- Not all the elements are there. -/
def IsBegun (bs : Octets) : Prop := ∃ arity items, items.length < arity ∧ Front arity items bs

/-- What may yet become a sentence: the head or an element is cut off. -/
def IsUnfinished (b : Octets) : Prop :=
  Cbor.Cut b ∨ ∃ front rest, b = front ++ rest ∧ IsBegun front ∧ Cbor.Cut rest

end Record

/-! ## Elements in place -/

theorem expectString_ok {position : Nat} {item : Cbor.Item} {body : Octets}
    (h : expectString position item = .ok body) : Element.ofItem? item = some (.string body) := by
  cases item with
  | bytes b => cases h; rfl
  | text b => cases h; rfl
  | _ => cases h

theorem expectString_of_string (position : Nat) {item : Cbor.Item} {body : Octets}
    (h : Element.ofItem? item = some (.string body)) : expectString position item = .ok body := by
  cases item with
  | bytes b => cases h; rfl
  | text b => cases h; rfl
  | _ => cases h

theorem Element.eq_int {item : Cbor.Item} {v : Int} (h : ofItem? item = some (.int v)) :
    item = .int v := by
  cases item <;> cases h
  rfl

/-- The octets of an element, as they are written. -/
def Element.write : Element → Octets
  | int v => Cbor.writeInt v
  | string body => Cbor.Item.write (.bytes body)

theorem Element.write_length_le {item : Cbor.Item} {e : Element} (he : ofItem? item = some e)
    {bs : Octets} (h : item.Form bs) : e.write.length ≤ bs.length := by
  cases item with
  | int v => cases he; exact Cbor.Item.write_length_le h
  | bytes body => cases he; exact Cbor.Item.write_length_le h
  | text body =>
      -- an octet string has the head of a text string of the same length, but for the kind
      cases he
      cases h with
      | text h _ =>
          rw [write, Cbor.Item.write, List.length_append, List.length_append]
          exact Nat.add_le_add_right (Cbor.writeHead_length_le h 2) _
  | _ => cases he

theorem Element.length_writeAll_le {items : List Cbor.Item} {body : Octets}
    (h : Cbor.Item.Forms items body) {es : List Element}
    (hmap : items.map ofItem? = es.map some) : (es.flatMap write).length ≤ body.length := by
  induction h generalizing es with
  | nil =>
      rw [List.map_nil] at hmap
      rw [List.map_eq_nil_iff.mp hmap.symm]
      exact Nat.le_refl 0
  | cons hform _ ih =>
      cases es with
      | nil => cases hmap
      | cons e es =>
          rw [List.map_cons, List.map_cons] at hmap
          obtain ⟨he, hmap'⟩ := List.cons_eq_cons.mp hmap
          rw [List.flatMap_cons, List.length_append, List.length_append]
          exact Nat.add_le_add (write_length_le he hform) (ih hmap')

theorem placed_nil (position : Nat) : Placed position [] := by
  intro i item hitem
  cases hitem

theorem placed_cons {position : Nat} {item : Cbor.Item} {items : List Cbor.Item} {e : Element}
    (he : Element.ofItem? item = some e) (hat : e.At position) (hrest : Placed (position + 1) items) :
    Placed position (item :: items) := by
  intro i item' hitem'
  cases i with
  | zero => cases hitem'; exact ⟨e, he, hat⟩
  | succ i =>
      have hi : position + (i + 1) = position + 1 + i := by omega
      rw [hi]
      exact hrest i item' hitem'

theorem placed_of_cons {position : Nat} {item : Cbor.Item} {items : List Cbor.Item}
    (h : Placed position (item :: items)) :
    ∃ e, Element.ofItem? item = some e ∧ e.At position ∧ Placed (position + 1) items := by
  obtain ⟨e, he, hat⟩ := h 0 item rfl
  refine ⟨e, he, hat, fun i item' hitem' => ?_⟩
  rw [Nat.add_right_comm]
  exact h (i + 1) item' hitem'

theorem placed_snoc {position : Nat} {items : List Cbor.Item} {item : Cbor.Item} {e : Element}
    (h : Placed position items) (he : Element.ofItem? item = some e)
    (hat : e.At (position + items.length)) : Placed position (items ++ [item]) := by
  intro i item' hitem'
  rcases Nat.lt_or_ge i items.length with hlt | hge
  · rw [List.getElem?_append_left hlt] at hitem'
    exact h i item' hitem'
  · rw [List.getElem?_append_right hge] at hitem'
    obtain ⟨hlt, heq⟩ := List.getElem?_eq_some_iff.mp hitem'
    rw [List.length_singleton] at hlt
    have hi : i = items.length := by omega
    subst hi
    simp only [Nat.sub_self, List.getElem_cons_zero] at heq
    rw [← heq]
    exact ⟨e, he, hat⟩

namespace RecordDraft

/-- The elements that are there, in order. -/
def elements : RecordDraft → List Element
  | empty _ => []
  | withId _ id => [.int id.toInt]
  | withMask _ id mask => [.int id.toInt, .int mask.toInt]
  | withCommand _ id mask command => [.int id.toInt, .int mask.toInt, .string command]
  | withPayload id mask command payload =>
    [.int id.toInt, .int mask.toInt, .string command, .string payload]
  | withTimeout id mask command payload timeout =>
    [.int id.toInt, .int mask.toInt, .string command, .string payload, .int timeout.toInt]

/-- How many elements there will be. -/
def arity : RecordDraft → Nat
  | empty timed => if timed then 6 else 4
  | withId timed _ => if timed then 6 else 4
  | withMask timed _ _ => if timed then 6 else 4
  | withCommand timed _ _ _ => if timed then 6 else 4
  | withPayload .. => 6
  | withTimeout .. => 6

theorem elements_lt (d : RecordDraft) : d.elements.length < d.arity := by
  cases d with
  | withPayload => simp [elements, arity]
  | withTimeout => simp [elements, arity]
  | empty timed => cases timed <;> simp [elements, arity]
  | withId timed _ => cases timed <;> simp [elements, arity]
  | withMask timed _ _ => cases timed <;> simp [elements, arity]
  | withCommand timed _ _ _ => cases timed <;> simp [elements, arity]

theorem arity_cases (d : RecordDraft) : d.arity = 4 ∨ d.arity = 6 := by
  cases d with
  | withPayload => exact Or.inr rfl
  | withTimeout => exact Or.inr rfl
  | empty timed => cases timed <;> simp [arity]
  | withId timed _ => cases timed <;> simp [arity]
  | withMask timed _ _ => cases timed <;> simp [arity]
  | withCommand timed _ _ _ => cases timed <;> simp [arity]

theorem start_of_arity {n : Nat} (hn : n = 4 ∨ n = 6) :
    ∃ d, start n = .ok d ∧ d.elements = [] ∧ d.arity = n := by
  rcases hn with rfl | rfl
  · exact ⟨.empty false, rfl, rfl, rfl⟩
  · exact ⟨.empty true, rfl, rfl, rfl⟩

theorem start_ok {n : Nat} {d : RecordDraft} (h : start n = .ok d) : d.elements = [] ∧ d.arity = n := by
  unfold start at h
  split at h
  · rename_i hn
    cases h
    exact ⟨rfl, hn.symm⟩
  · split at h
    · rename_i hn
      cases h
      exact ⟨rfl, hn.symm⟩
    · cases h

/-- What becomes of a draft that takes an element: it has one more, of as many as before. -/
structure Takes (d : RecordDraft) (e : Element) (result : RecordDraft ⊕ Record) : Prop where
  elements : result.elim elements Record.elements = d.elements ++ [e]
  arity : result.elim arity (fun r => r.elements.length) = d.arity

/-- An element that is taken was in place. -/
theorem push_ok {d : RecordDraft} {item : Cbor.Item} {result : RecordDraft ⊕ Record}
    (h : d.push item = .ok result) :
    ∃ e, Element.ofItem? item = some e ∧ e.At d.elements.length ∧ d.Takes e result := by
  -- identifier, mask and timeout are numbers of 32 bits
  have hint32 : ∀ {position : Nat} {v : Int32}, expectInt32 position item = .ok v →
      position = 0 ∨ position = 1 ∨ position = 4 → Element.ofItem? item = some (.int v.toInt)
        ∧ (Element.int v.toInt).At position := by
    intro position v hv hposition
    have hlow := v.le_toInt
    have hhigh := v.toInt_lt
    rw [expectInt32_ok hv]
    exact ⟨rfl, Or.inl ⟨hposition, by omega, by omega⟩⟩
  -- one case for each position, as the draft counts them
  cases d with
  | empty timed =>
      obtain ⟨v, hv, heq⟩ := bind_eq_ok h
      cases heq
      obtain ⟨he, hat⟩ := hint32 hv (Or.inl rfl)
      exact ⟨_, he, hat, rfl, rfl⟩
  | withId timed id =>
      obtain ⟨v, hv, heq⟩ := bind_eq_ok h
      cases heq
      obtain ⟨he, hat⟩ := hint32 hv (Or.inr (Or.inl rfl))
      exact ⟨_, he, hat, rfl, rfl⟩
  | withMask timed id mask =>
      obtain ⟨command, hcommand, heq⟩ := bind_eq_ok h
      cases heq
      exact ⟨_, expectString_ok hcommand, Or.inl rfl, rfl, rfl⟩
  | withCommand timed id mask command =>
      cases timed with
      | false =>
          obtain ⟨payload, hpayload, heq⟩ := bind_eq_ok h
          cases heq
          exact ⟨_, expectString_ok hpayload, Or.inr rfl, rfl, rfl⟩
      | true =>
          obtain ⟨payload, hpayload, heq⟩ := bind_eq_ok h
          cases heq
          exact ⟨_, expectString_ok hpayload, Or.inr rfl, rfl, rfl⟩
  | withPayload id mask command payload =>
      obtain ⟨v, hv, heq⟩ := bind_eq_ok h
      cases heq
      obtain ⟨he, hat⟩ := hint32 hv (Or.inr (Or.inr rfl))
      exact ⟨_, he, hat, rfl, rfl⟩
  | withTimeout id mask command payload timeout =>
      obtain ⟨v, hv, heq⟩ := bind_eq_ok h
      cases heq
      have hlow := v.le_toInt
      have hhigh := v.toInt_lt
      refine ⟨.int v.toInt, ?_, Or.inr ⟨rfl, by omega, by omega⟩, rfl, rfl⟩
      rw [expectInt64_ok hv]
      rfl

/-- An element in place is taken. -/
theorem push_of_at {d : RecordDraft} {item : Cbor.Item} {e : Element}
    (he : Element.ofItem? item = some e) (hat : e.At d.elements.length) :
    ∃ result, d.push item = .ok result := by
  -- what stands in place has the type and the range that the draft expects there
  have hint32 : ∀ {position : Nat}, position = 0 ∨ position = 1 ∨ position = 4 → e.At position →
      ∃ v, expectInt32 position item = .ok v := by
    intro position hposition hat
    rcases e with v | body
    · rcases hat with ⟨_, hlow, hhigh⟩ | ⟨hfive, _, _⟩
      · rw [Element.eq_int he]
        exact ⟨_, (expectInt32_of_int position hlow hhigh).1⟩
      · omega
    · rcases hat with htwo | hthree <;> omega
  have hstring : ∀ {position : Nat}, position = 2 ∨ position = 3 → e.At position →
      ∃ body, expectString position item = .ok body := by
    intro position hposition hat
    rcases e with v | body
    · rcases hat with ⟨hother, _⟩ | ⟨hfive, _⟩ <;> omega
    · exact ⟨body, expectString_of_string position he⟩
  cases d with
  | empty timed =>
      obtain ⟨v, hv⟩ := hint32 (Or.inl rfl) hat
      exact ⟨_, by rw [push, hv]; rfl⟩
  | withId timed id =>
      obtain ⟨v, hv⟩ := hint32 (Or.inr (Or.inl rfl)) hat
      exact ⟨_, by rw [push, hv]; rfl⟩
  | withMask timed id mask =>
      obtain ⟨body, hbody⟩ := hstring (Or.inl rfl) hat
      exact ⟨_, by rw [push, hbody]; rfl⟩
  | withCommand timed id mask command =>
      obtain ⟨body, hbody⟩ := hstring (Or.inr rfl) hat
      cases timed with
      | false => exact ⟨_, by rw [push, hbody]; rfl⟩
      | true => exact ⟨_, by rw [push, hbody]; rfl⟩
  | withPayload id mask command payload =>
      obtain ⟨v, hv⟩ := hint32 (Or.inr (Or.inr rfl)) hat
      exact ⟨_, by rw [push, hv]; rfl⟩
  | withTimeout id mask command payload timeout =>
      rcases e with v | body
      · rcases hat with ⟨hother, _⟩ | ⟨_, hlow, hhigh⟩
        · rcases hother with h | h | h <;> cases h
        · rw [Element.eq_int he]
          exact ⟨_, by rw [push, (expectInt64_of_int 5 hlow hhigh).1]; rfl⟩
      · rcases hat with h | h <;> cases h

/-! ## Drafts and fronts -/

/-- What has been followed was in place, and is what the draft holds. -/
theorem follows_ok {d : RecordDraft} {items : List Cbor.Item} {draft : Option RecordDraft}
    (h : Record.shape.Follows (some d) items draft) :
    ∃ d', draft = some d' ∧ d'.arity = d.arity ∧ Placed d.elements.length items
      ∧ d'.elements.map some = d.elements.map some ++ items.map Element.ofItem? := by
  generalize hd : some d = draft₀ at h
  induction h generalizing d with
  | nil => exact ⟨d, hd.symm, rfl, placed_nil _, (List.append_nil _).symm⟩
  | @cons _ _ item items d₁ hadv _ ih =>
      subst hd
      obtain ⟨e, he, hat, htakes⟩ := push_ok hadv
      have helements : d₁.elements = d.elements ++ [e] := htakes.elements
      obtain ⟨d', rfl, harity, hplaced, hmap⟩ := ih rfl
      rw [helements] at hplaced hmap
      refine ⟨d', rfl, harity.trans htakes.arity, placed_cons he hat ?_, ?_⟩
      · rw [List.length_append] at hplaced
        exact hplaced
      · rw [hmap, List.map_append, List.append_assoc, List.map_cons, List.map_nil, ← he]
        rfl

/-- What is in place and leaves something out can be followed. -/
theorem exists_follows {d : RecordDraft} {items : List Cbor.Item}
    (hplaced : Placed d.elements.length items)
    (hlen : d.elements.length + items.length < d.arity) :
    ∃ d', Record.shape.Follows (some d) items (some d') := by
  -- on the items; a draft that has all of its elements would be too long
  induction items generalizing d with
  | nil => exact ⟨d, .nil _⟩
  | cons item items ih =>
      obtain ⟨e, he, hat, hrest⟩ := placed_of_cons hplaced
      obtain ⟨result, hpush⟩ := push_of_at he hat
      obtain ⟨e', he', _, htakes⟩ := push_ok hpush
      cases he.symm.trans he'
      have hcount := congrArg List.length htakes.elements
      have harity := htakes.arity
      rw [List.length_append] at hcount
      rw [List.length_cons] at hlen
      cases result with
      | inl d₁ =>
          have hcount' : d₁.elements.length = d.elements.length + 1 := hcount
          have harity' : d₁.arity = d.arity := harity
          obtain ⟨d', hd'⟩ := ih (d := d₁) (by rw [hcount']; exact hrest) (by omega)
          exact ⟨d', .cons hpush hd'⟩
      | inr r =>
          have hcount' : r.elements.length = d.elements.length + 1 := hcount
          have harity' : r.elements.length = d.arity := harity
          omega

end RecordDraft

namespace Record

/-- What can be followed from the beginning is nothing or the front of a sentence. -/
theorem front_of_follows {items : List Cbor.Item} {draft : Option RecordDraft}
    (h : shape.Follows none items draft) : items = [] ∧ draft = none
      ∨ ∃ d rest, draft = some d ∧ items = .array d.arity :: rest ∧ Placed 0 rest
        ∧ d.elements.map some = rest.map Element.ofItem? := by
  cases h with
  | nil => exact Or.inl ⟨rfl, rfl⟩
  | @cons _ _ item rest d₀ hadv hrest =>
      refine Or.inr ?_
      unfold Shape.advance at hadv
      split at hadv
      · rename_i hnone
        cases hnone
      · rename_i n
        split at hadv
        · rename_i d₁ hstart
          cases hadv
          obtain ⟨hempty, harity⟩ := RecordDraft.start_ok hstart
          obtain ⟨d, rfl, harity', hplaced, hmap⟩ := RecordDraft.follows_ok hrest
          rw [hempty] at hplaced hmap
          refine ⟨d, rest, rfl, ?_, hplaced, hmap⟩
          rw [harity', harity]
        · cases hadv
      · cases hadv

/-- The front of a sentence can be followed from the beginning. -/
theorem follows_of_placed {arity : Nat} (harity : arity = 4 ∨ arity = 6) {items : List Cbor.Item}
    (hplaced : Placed 0 items) (hlen : items.length < arity) :
    ∃ d, shape.Follows none (.array arity :: items) (some d) ∧ d.arity = arity
      ∧ d.elements.map some = items.map Element.ofItem? := by
  obtain ⟨d₀, hstart, hempty, harity₀⟩ := RecordDraft.start_of_arity harity
  have hadv : shape.advance none (.array arity) = .ok (.inl d₀) := by
    simp only [Shape.advance, shape, hstart]
  have hplaced₀ : Placed d₀.elements.length items := by rw [hempty]; exact hplaced
  have hlen₀ : d₀.elements.length + items.length < d₀.arity := by
    rw [hempty, harity₀, List.length_nil, Nat.zero_add]
    exact hlen
  obtain ⟨d, hd⟩ := RecordDraft.exists_follows hplaced₀ hlen₀
  obtain ⟨d', heq, harity', _, hmap⟩ := RecordDraft.follows_ok hd
  cases heq
  rw [hempty] at hmap
  exact ⟨d, .cons hadv hd, harity'.trans harity₀, hmap⟩

/-- The elements say which record it is. -/
theorem elements_injective {r r' : Record} (h : r.elements = r'.elements) : r = r' := by
  obtain ⟨id, mask, command, payload, timing⟩ := r
  obtain ⟨id', mask', command', payload', timing'⟩ := r'
  cases timing with
  | none =>
      cases timing' with
      | none => simpa [elements, Int32.toInt_inj] using h
      | some t' => simp [elements] at h
  | some t =>
      cases timing' with
      | none => simp [elements] at h
      | some t' =>
          obtain ⟨timeout, timestamp⟩ := t
          obtain ⟨timeout', timestamp'⟩ := t'
          simpa [elements, Int32.toInt_inj, Int64.toInt_inj, and_assoc] using h

/-! ## Sentences -/

/-- **A sentence is read** as the record whose elements it has, whatever follows it. -/
theorem decode_of_sentence {items : List Cbor.Item} {bs : Octets} (h : Front items.length items bs)
    (rest : Octets) : ∃ r, items.map Element.ofItem? = r.elements.map some
      ∧ shape.decode none (bs ++ rest) = ⟨.frame r, none, rest⟩ := by
  obtain ⟨width, head, body, hhead, hbody, rfl⟩ := h.octets
  rcases List.eq_nil_or_concat items with rfl | ⟨front, last, rfl⟩
  · rcases h.count with hzero | hzero <;> cases hzero
  rw [List.concat_eq_append] at h hhead hbody ⊢
  have hfront : Placed 0 front := fun i item hitem =>
    h.placed i item (List.getElem?_append_left (List.getElem?_eq_some_iff.mp hitem).1 ▸ hitem)
  obtain ⟨e, he, hat⟩ := h.placed front.length last (by simp)
  rw [Nat.zero_add] at hat
  have hlength : (front ++ [last]).length = front.length + 1 := List.length_append
  obtain ⟨d, hfollows, harity, hmap⟩ := follows_of_placed h.count hfront (by omega)
  have hcount : d.elements.length = front.length := by
    have hlen := congrArg List.length hmap
    rw [List.length_map, List.length_map] at hlen
    exact hlen
  obtain ⟨result, hpush⟩ := RecordDraft.push_of_at he (hcount ▸ hat)
  obtain ⟨e', he', _, htakes⟩ := RecordDraft.push_ok hpush
  cases he.symm.trans he'
  cases result with
  -- the draft has no room for one element more
  | inl d' =>
      have helements : d'.elements = d.elements ++ [e] := htakes.elements
      have hroom := d'.elements_lt
      have harity' : d'.arity = d.arity := htakes.arity
      rw [helements, List.length_append, List.length_singleton, harity', harity, hcount] at hroom
      omega
  | inr r =>
      have helements : r.elements = d.elements ++ [e] := htakes.elements
      refine ⟨r, ?_, ?_⟩
      · rw [helements, List.map_append, List.map_append, hmap, List.map_singleton, he]
        rfl
      · refine shape.decode_eq_frame_iff.mpr ⟨_, last, some d, head ++ body, hfollows, hpush, ?_, rfl⟩
        exact .cons (.array hhead) hbody

/-- **Only a sentence is read.** -/
theorem sentence_of_decode {src rest : Octets} {r : Record}
    (h : shape.decode none src = ⟨.frame r, none, rest⟩) : ∃ bs, r.Sentence bs ∧ src = bs ++ rest := by
  obtain ⟨items, last, draft, bs, hfollows, hadv, hforms, rfl⟩ := shape.decode_eq_frame_iff.mp h
  refine ⟨bs, ?_, rfl⟩
  rcases front_of_follows hfollows with ⟨_, rfl⟩ | ⟨d, front, rfl, rfl, hplaced, hmap⟩
  · -- an array head completes nothing
    unfold Shape.advance at hadv
    split at hadv
    · rename_i hnone
      cases hnone
    · split at hadv <;> cases hadv
    · cases hadv
  · obtain ⟨e, he, hat, htakes⟩ := RecordDraft.push_ok hadv
    have helements : r.elements = d.elements ++ [e] := htakes.elements
    have harity : r.elements.length = d.arity := htakes.arity
    have hcount : d.elements.length = front.length := by
      have hlen := congrArg List.length hmap
      rw [List.length_map, List.length_map] at hlen
      exact hlen
    have hlength : (front ++ [last]).length = d.arity := by
      rw [← harity, helements, List.length_append, List.length_append, hcount]
      rfl
    rw [List.cons_append] at hforms
    cases hforms with
    | @cons _ _ head body harray hbody =>
        cases harray with
        | array hhead =>
            refine ⟨front ++ [last], ⟨?_, ?_, ?_⟩, ?_⟩
            · rw [hlength]
              exact d.arity_cases
            · exact placed_snoc hplaced he (by rw [Nat.zero_add, ← hcount]; exact hat)
            · rw [hlength]
              exact ⟨_, head, body, hhead, hbody, rfl⟩
            · rw [helements, List.map_append, List.map_append, hmap, List.map_singleton, he]
              rfl

/-- A record is read from the octets of its sentences and from no others. -/
theorem decode_eq_frame_iff_sentence {b : Octets} {n : Nat} (hn : n ≤ b.length) (r : Record) :
    shape.decode none b = ⟨.frame r, none, b.drop n⟩ ↔ r.Sentence (b.take n) := by
  constructor
  · intro h
    obtain ⟨bs, hsentence, heq⟩ := sentence_of_decode h
    have hlen := congrArg List.length heq
    rw [List.length_append, List.length_drop] at hlen
    have hbs : b.take n = bs := by
      rw [heq, List.take_left' (by omega)]
    rw [hbs]
    exact hsentence
  · rintro ⟨items, hfront, hmap⟩
    obtain ⟨r', hmap', hdecode⟩ := decode_of_sentence hfront (b.drop n)
    rw [List.take_append_drop] at hdecode
    have hsome := hmap.symm.trans hmap'
    have hsame := elements_injective (List.map_injective_iff.mpr (Option.some_injective _) hsome)
    rw [hdecode, hsame]

/-! ## The shortest sentence -/

theorem write_eq (r : Record) :
    r.write = Cbor.writeHead 4 r.elements.length ++ r.elements.flatMap Element.write := by
  obtain ⟨id, mask, command, payload, timing⟩ := r
  cases timing <;> simp [write, elements, Element.write]

/-- No sentence is shorter than what is written of its record. -/
theorem write_length_le {r : Record} {bs : Octets} (h : r.Sentence bs) :
    r.write.length ≤ bs.length := by
  obtain ⟨items, hfront, hmap⟩ := h
  obtain ⟨width, head, body, hhead, hbody, rfl⟩ := hfront.octets
  have hcount := congrArg List.length hmap
  rw [List.length_map, List.length_map] at hcount
  rw [hcount] at hhead
  rw [write_eq, List.length_append, List.length_append]
  exact Nat.add_le_add (Cbor.writeHead_length_le hhead 4) (Element.length_writeAll_le hbody hmap)

/-! ## Unfinished sentences -/

/-- **The reader asks for more just after what may yet become a sentence.** -/
theorem decode_eq_more_iff_unfinished {b : Octets} :
    (shape.decode none b).outcome = .more ↔ IsUnfinished b := by
  rw [shape.decode_eq_more_iff]
  constructor
  · rintro ⟨items, draft, bs, rest, hfollows, hforms, rfl, hcut⟩
    -- cut off in the head of the array, or in an element behind it
    rcases front_of_follows hfollows with ⟨rfl, rfl⟩ | ⟨d, front, rfl, rfl, hplaced, hmap⟩
    · cases hforms
      exact Or.inl hcut
    · refine Or.inr ⟨bs, rest, rfl, ⟨d.arity, front, ?_, d.arity_cases, hplaced, ?_⟩, hcut⟩
      · have hlen := congrArg List.length hmap
        rw [List.length_map, List.length_map] at hlen
        rw [← hlen]
        exact d.elements_lt
      · cases hforms with
        | @cons _ _ head body harray hbody =>
            cases harray with
            | array hhead => exact ⟨_, head, body, hhead, hbody, rfl⟩
  · rintro (hcut | ⟨front, rest, rfl, ⟨arity, items, hlen, hfront⟩, hcut⟩)
    · exact ⟨[], none, [], b, .nil none, .nil, rfl, hcut⟩
    · obtain ⟨width, head, body, hhead, hbody, rfl⟩ := hfront.octets
      obtain ⟨d, hfollows, _, _⟩ := follows_of_placed hfront.count hfront.placed hlen
      exact ⟨_, some d, head ++ body, rest, hfollows, .cons (.array hhead) hbody, rfl, hcut⟩

/-! ## What the reader accepts -/

/-- What the reader makes of a buffer: it takes a record off the front just if a sentence is there, it
asks for more just if what is there may yet become one, and it refuses everything else. -/
structure Reads (b : Octets) : Prop where
  accepts : ∀ n ≤ b.length,
    (∃ r, shape.decode none b = ⟨.frame r, none, b.drop n⟩) ↔ IsSentence (b.take n)
  /-- The record has exactly the elements of the sentence. -/
  carries : ∀ n ≤ b.length, ∀ r,
    shape.decode none b = ⟨.frame r, none, b.drop n⟩ ↔ r.Sentence (b.take n)
  /-- It is written in no more octets, and read again from these. -/
  again : ∀ n ≤ b.length, ∀ r, shape.decode none b = ⟨.frame r, none, b.drop n⟩ →
    r.write.length ≤ n ∧ shape.decode none r.write = ⟨.frame r, none, []⟩
  waits : (shape.decode none b).outcome = .more ↔ IsUnfinished b
  refuses : (∃ e, (shape.decode none b).outcome = .fault e) ↔
    (∀ n ≤ b.length, ¬ IsSentence (b.take n)) ∧ ¬ IsUnfinished b

/-- **The reader accepts the language of records**, and nothing else. -/
theorem reads (b : Octets) : Reads b := by
  -- which prefix is a sentence decides all three outcomes
  have haccepts : ∀ n ≤ b.length,
      (∃ r, shape.decode none b = ⟨.frame r, none, b.drop n⟩) ↔ IsSentence (b.take n) := by
    intro n hn
    constructor
    · rintro ⟨r, hr⟩
      obtain ⟨items, hfront, _⟩ := (decode_eq_frame_iff_sentence hn r).mp hr
      exact ⟨items, hfront⟩
    · rintro ⟨items, hfront⟩
      obtain ⟨r, _, hdecode⟩ := decode_of_sentence hfront (b.drop n)
      rw [List.take_append_drop] at hdecode
      exact ⟨r, hdecode⟩
  exact {
    accepts := haccepts
    carries := fun n hn r => decode_eq_frame_iff_sentence hn r
    again := by
      intro n hn r hr
      have hsentence := (decode_eq_frame_iff_sentence hn r).mp hr
      have hfits : r.Fits := by
        refine decode_fits (fun d hd => ?_) (congrArg Shape.Decoded.outcome hr)
        cases hd
      constructor
      · have hle := write_length_le hsentence
        rw [List.length_take] at hle
        omega
      · have hwrite := decode_write hfits []
        rw [List.append_nil] at hwrite
        exact hwrite
    waits := decode_eq_more_iff_unfinished
    refuses := by
      cases houtcome : (shape.decode none b).outcome with
      | more =>
          have hunfinished := decode_eq_more_iff_unfinished.mp houtcome
          refine ⟨fun ⟨e, he⟩ => ?_, fun h => absurd hunfinished h.2⟩
          cases he
      | frame r =>
          obtain ⟨n, hn, hr⟩ := shape.exists_drop_of_frame houtcome
          refine ⟨fun ⟨e, he⟩ => ?_, fun h => absurd ((haccepts n hn).mp ⟨r, hr⟩) (h.1 n hn)⟩
          cases he
      | fault e =>
          refine ⟨fun _ => ⟨fun n hn hsentence => ?_, fun hunfinished => ?_⟩, fun _ => ⟨e, rfl⟩⟩
          · obtain ⟨r, hr⟩ := (haccepts n hn).mpr hsentence
            rw [hr] at houtcome
            cases houtcome
          · rw [decode_eq_more_iff_unfinished.mpr hunfinished] at houtcome
            cases houtcome }

end Record

end GameHall
