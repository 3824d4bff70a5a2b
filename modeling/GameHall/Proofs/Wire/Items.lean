import GameHall.Proofs.Cbor.Forms
import GameHall.Proofs.Wire.Prefix

/-!
# All of an item or nothing

`Item.take` is called again whenever a part of a stream has arrived. It decides by the front of the
buffer and by nothing else: once it has taken an item or refused one, it does the same however much has
arrived meanwhile (`Settled`). So a part of a written item can neither be taken, for then something else
than the item would be taken off the whole, nor be refused (`take_of_part`).
-/

namespace GameHall.Cbor.Item

/-- What is read off a buffer does not depend on what has yet to arrive, and what is not read stays. -/
structure Settled (src : Octets) : Prop where
  /-- An item that is taken is the front of the buffer, of one octet at least. With more behind it the
  same item is taken, and the same front. -/
  taken : ∀ item rest, take src = .ok (some (item, rest)) →
    ∃ front, src = front ++ rest ∧ 1 ≤ front.length ∧ front.length ≤ src.length
      ∧ ∀ more, take (front ++ (rest ++ more)) = .ok (some (item, rest ++ more))
  /-- A fault stays the same fault. -/
  refused : ∀ e, take src = .error e → ∀ more, take (src ++ more) = .error e
  /-- A fault leaves the whole buffer, whichever frame is being read. -/
  refused_left : ∀ e, take src = .error e → ∀ {δ φ : Type} (shape : Shape δ φ) (draft : Option δ),
    shape.decode draft src = ⟨.fault (.malformed (.item e)), none, src⟩
  /-- So does an item that is not all there. -/
  awaited_left : take src = .ok none → ∀ {δ φ : Type} (shape : Shape δ φ) (draft : Option δ),
    shape.decode draft src = ⟨.more, draft, src⟩

/-- The written form of an item is the shortest one that is read as the item, and no less will do. -/
structure Shortest (item : Item) : Prop where
  /-- The item is read back, and what follows it is left. -/
  back : ∀ rest, take (item.write ++ rest) = .ok (some (item, rest))
  /-- Whatever octets the item is taken off, they are as many at least. -/
  least : ∀ front rest, take (front ++ rest) = .ok (some (item, rest)) →
    item.write.length ≤ front.length
  /-- Of a part of it the reader awaits the rest. -/
  part : ∀ front tail, item.write = front ++ tail → tail ≠ [] → take front = .ok none

theorem settled (src : Octets) : Settled src where
  taken := by
    intro item rest h
    obtain ⟨front, hform, hsrc⟩ := take_eq_some_iff.mp h
    have hlen : src.length = front.length + rest.length := by
      rw [hsrc, List.length_append]
    have hless : rest.length < src.length := take_length h
    refine ⟨front, hsrc, by omega, by omega, ?_⟩
    intro more
    exact take_of_form hform (rest ++ more)
  refused := fun _ h more => take_append_error h more
  refused_left := fun _ h _ _ shape _ => shape.decode_of_error h
  awaited_left := fun h _ _ shape _ => shape.decode_of_none h

/-- **A part of a written item is neither taken nor refused**: the whole would be, too. -/
theorem take_of_part {item : Item} (h : item.Writable) {front tail : Octets}
    (hwrite : item.write = front ++ tail) (htail : tail ≠ []) : take front = .ok none := by
  have hwhole : take (front ++ tail) = .ok (some (item, [])) := by
    rw [← hwrite]
    simpa using take_write item h []
  cases htake : take front with
  | error e =>
      rw [take_append_error htake tail] at hwhole
      cases hwhole
  | ok result =>
      cases result with
      | none => rfl
      | some taken =>
          obtain ⟨item', rest⟩ := taken
          rw [take_append htake tail] at hwhole
          -- the tail would be left over, and nothing is
          have hrest : rest ++ tail = [] := by
            simp only [Except.ok.injEq, Option.some.injEq, Prod.mk.injEq] at hwhole
            exact hwhole.2
          exact absurd (List.append_eq_nil_iff.mp hrest).2 htail

theorem shortest_of_writable {item : Item} (h : item.Writable) : Shortest item where
  back := take_write item h
  least := by
    intro front rest htake
    obtain ⟨bs, hform, hsplit⟩ := take_eq_some_iff.mp htake
    have hfront : front = bs := List.append_cancel_right hsplit
    rw [hfront]
    exact write_length_le hform
  part := fun _ _ hwrite htail => take_of_part h hwrite htail

/-- **Of every buffer all of an item is taken or nothing, and a written item is the least that is taken.**
The items written are those with lengths and numbers of 64 bits and strings within the limit. -/
theorem all_or_nothing :
    (∀ src : Octets, Settled src) ∧ ∀ item : Item, item.Writable → Shortest item :=
  ⟨settled, fun _ h => shortest_of_writable h⟩

/-- Of a string of two octets, the head with one of them is not enough. -/
theorem part_of_hi : (bytes [0x68, 0x69]).Writable ∧ take [0x42, 0x68] = .ok none :=
  have hwritable : (bytes [0x68, 0x69]).Writable := by
    unfold Writable
    decide
  ⟨hwritable, (all_or_nothing.2 _ hwritable).part [0x42, 0x68] [0x69] rfl (by decide)⟩

end GameHall.Cbor.Item
