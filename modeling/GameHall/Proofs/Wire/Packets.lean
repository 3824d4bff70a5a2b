import GameHall.Proofs.Text.Utf8
import GameHall.Proofs.Wire.Following
import GameHall.Wire.Packet

/-!
# Packets there and back

Packets that fit come back from what is written of them, one after the other, and nothing is left. A
packet has many spellings: heads may be longer than they need be, a null is one of two values, a method
is a string of either kind, and the elements of an answer may be too few or too many. All of them are
read (`Packet.decode_eq_frame_iff_spelled`), and what comes out of any of them fits (`fits_of_spelled`),
so that it can be written, in one of its spellings (`written_spelled`).
-/

namespace GameHall

namespace Packet

/-! ## What can be sent -/

/-- Whether a value is no string beyond the limit of the reader. -/
def Value.Fits : Value → Prop
  | text s => (Utf8.encode s).length ≤ Cbor.Item.maxLength
  | bytes body => body.length ≤ Cbor.Item.maxLength
  | _ => True

/-- Whether a packet has no more parameters than a call may have, and no string beyond the limit. -/
def Fits : Packet → Prop
  | .call c => c.params.length ≤ maxParams ∧ (Utf8.encode c.method).length ≤ Cbor.Item.maxLength
    ∧ ∀ v ∈ c.params, v.Fits
  | .reply _ result => result.Fits
  | .refusal _ message => (Utf8.encode message).length ≤ Cbor.Item.maxLength

/-! ## Spellings -/

/-- The items of the elements of a packet, which has `arity` of them. -/
def parts (arity : Nat) (kind : Kind) (id : Int32) (name : Cbor.Item) (params : List Value) :
    List Cbor.Item :=
  .array arity :: .int kind.code :: .int id.toInt :: name :: params.map Value.toItem

/-- Whether a string of either kind spells a method. -/
def Names (name : Cbor.Item) (method : String) : Prop :=
  name = .text (Utf8.encode method) ∨ name = .bytes (Utf8.encode method)

/-- Items that make a packet. -/
def Spelled (p : Packet) (spelling : List Cbor.Item) : Prop :=
  ∃ kind id method name params, params.length ≤ maxParams ∧ Names name method
    ∧ spelling = parts (3 + params.length) kind id name params ∧ p = ofParts kind id method params

/-- The items that a draft has been made of. -/
def Drafted : PacketDraft → List Cbor.Item → Prop
  | .empty arity, seen => arity ≤ 3 + maxParams ∧ seen = [.array arity]
  | .withKind arity kind, seen => arity ≤ 3 + maxParams ∧ seen = [.array arity, .int kind.code]
  | .withId arity kind id, seen =>
    arity ≤ 3 + maxParams ∧ seen = [.array arity, .int kind.code, .int id.toInt]
  | .withMethod arity kind id method params, seen => arity ≤ 3 + maxParams
    ∧ ∃ name, Names name method ∧ seen = parts arity kind id name params.reverse

/-! ## Elements -/

theorem Value.ofItem_eq_ok_iff {position : Nat} {item : Cbor.Item} {v : Value} :
    ofItem position item = .ok v ↔ item = v.toItem := by
  constructor
  · intro h
    cases item with
    | null => cases h; rfl
    | bool b => cases h; rfl
    | bytes body => cases h; rfl
    | array n => cases h
    | int w =>
        obtain ⟨x, hx, heq⟩ := bind_eq_ok h
        cases heq
        rw [expectInt64_ok hx]
        rfl
    | text body =>
        rw [ofItem] at h
        cases hs : Utf8.decode body with
        | error e => rw [hs] at h; cases h
        | ok s =>
            rw [hs] at h
            cases h
            rw [toItem, Utf8.encode_of_decode hs]
  · rintro rfl
    cases v with
    | int w => rw [toItem, ofItem, expectInt64_toInt]; rfl
    | text s => rw [toItem, ofItem, Utf8.decode_encode]
    | _ => rfl

theorem Kind.ofItem_eq_ok_iff {item : Cbor.Item} {kind : Kind} :
    ofItem item = .ok kind ↔ item = .int kind.code := by
  constructor
  · intro h
    obtain ⟨v, hv, heq⟩ := bind_eq_ok h
    rw [(expectInt_ok hv).1]
    split at heq
    · rename_i h1
      cases heq
      rw [h1]; rfl
    split at heq
    · rename_i h2
      cases heq
      rw [h2]; rfl
    split at heq
    · rename_i h3
      cases heq
      rw [h3]; rfl
    · cases heq
  · rintro rfl
    cases kind <;> rfl

theorem names_of_expectString {position : Nat} {name : Cbor.Item} {body : Octets} {method : String}
    (hbody : expectString position name = .ok body) (hmethod : Utf8.decode body = .ok method) :
    Names name method := by
  have hencode := Utf8.encode_of_decode hmethod
  cases name with
  | bytes b => cases hbody; exact Or.inr (by rw [hencode])
  | text b => cases hbody; exact Or.inl (by rw [hencode])
  | _ => cases hbody

theorem Names.push {name : Cbor.Item} {method : String} (h : Names name method) (arity : Nat)
    (kind : Kind) (id : Int32) : PacketDraft.push (.withId arity kind id) name
      = .ok (PacketDraft.close arity kind id method []) := by
  have hname : expectString 2 name = .ok (Utf8.encode method) := by
    rcases h with rfl | rfl <;> rfl
  simp only [PacketDraft.push, hname, bind, Except.bind, Utf8.decode_encode]
  rfl

/-! ## What comes out is spelled -/

/-- A draft is complete with the last of its elements. -/
theorem close_drafted {arity : Nat} (harity : arity ≤ 3 + maxParams) (kind : Kind) (id : Int32)
    {name : Cbor.Item} {method : String} (hname : Names name method) (params : List Value) :
    (PacketDraft.close arity kind id method params).elim
      (Drafted · (parts arity kind id name params.reverse))
      (Spelled · (parts arity kind id name params.reverse)) := by
  unfold PacketDraft.close
  split
  · rename_i hcount
    refine ⟨kind, id, method, name, params.reverse, ?_, hname, ?_, rfl⟩
    · rw [List.length_reverse]
      omega
    · rw [List.length_reverse, hcount]
  · exact ⟨harity, name, hname, rfl⟩

/-- An element goes behind those that a draft has been made of. -/
theorem push_drafted {d : PacketDraft} {seen : List Cbor.Item} (hd : Drafted d seen)
    {item : Cbor.Item} {result : PacketDraft ⊕ Packet} (h : d.push item = .ok result) :
    result.elim (Drafted · (seen ++ [item])) (Spelled · (seen ++ [item])) := by
  -- each position by what the reader has checked there
  cases d with
  | empty arity =>
      obtain ⟨harity, rfl⟩ := hd
      obtain ⟨kind, hkind, heq⟩ := bind_eq_ok h
      cases heq
      rw [Kind.ofItem_eq_ok_iff.mp hkind]
      exact ⟨harity, rfl⟩
  | withKind arity kind =>
      obtain ⟨harity, rfl⟩ := hd
      obtain ⟨id, hid, heq⟩ := bind_eq_ok h
      cases heq
      rw [expectInt32_ok hid]
      exact ⟨harity, rfl⟩
  | withId arity kind id =>
      obtain ⟨harity, rfl⟩ := hd
      obtain ⟨body, hbody, heq⟩ := bind_eq_ok h
      cases hmethod : Utf8.decode body with
      | error e =>
          rw [hmethod] at heq
          cases heq
      | ok method =>
          rw [hmethod] at heq
          cases heq
          exact close_drafted harity kind id (names_of_expectString hbody hmethod) []
  | withMethod arity kind id method params =>
      obtain ⟨harity, name, hname, rfl⟩ := hd
      obtain ⟨v, hv, heq⟩ := bind_eq_ok h
      cases heq
      have hclose := close_drafted harity kind id hname (v :: params)
      rw [List.reverse_cons] at hclose
      rw [Value.ofItem_eq_ok_iff.mp hv]
      unfold parts at hclose ⊢
      rw [List.map_append] at hclose
      exact hclose

theorem advance_drafted {draft : Option PacketDraft} {seen : List Cbor.Item}
    (hdraft : draft.elim (seen = []) (Drafted · seen)) {item : Cbor.Item}
    {result : PacketDraft ⊕ Packet} (h : shape.advance draft item = .ok result) :
    result.elim (Drafted · (seen ++ [item])) (Spelled · (seen ++ [item])) := by
  unfold Shape.advance at h
  split at h
  · exact push_drafted hdraft h
  · split at h
    · rename_i hstart
      cases h
      rw [show seen = [] from hdraft]
      unfold shape PacketDraft.start at hstart
      dsimp only at hstart
      split at hstart
      · rename_i harity
        cases hstart
        exact ⟨harity.2, rfl⟩
      · cases hstart
    · cases h
  · cases h

/-- Items that lead from a draft to another make it longer by themselves. -/
theorem follows_drafted {draft draft' : Option PacketDraft} {items : List Cbor.Item}
    (h : shape.Follows draft items draft') {seen : List Cbor.Item}
    (hdraft : draft.elim (seen = []) (Drafted · seen)) :
    draft'.elim (seen ++ items = []) (Drafted · (seen ++ items)) := by
  induction h generalizing seen with
  | nil draft =>
      rw [List.append_nil]
      exact hdraft
  | cons hadv _ ih =>
      have hnext := ih (advance_drafted hdraft hadv)
      rw [List.append_assoc] at hnext
      exact hnext

/-! ## What is spelled comes out -/

/-- With an element that leaves parameters due, a draft takes those. -/
theorem decode_of_close {kind : Kind} {id : Int32} {method : String} {params : List Value} :
    ∀ {arity : Nat} {seen : List Value} {draft : Option PacketDraft} {item : Cbor.Item}
      {front body : Octets}, 3 + seen.length + params.length = arity → item.Form front →
      shape.advance draft item = .ok (PacketDraft.close arity kind id method seen) →
      Cbor.Item.Forms (params.map Value.toItem) body → ∀ rest,
      shape.decode draft (front ++ (body ++ rest))
        = ⟨.frame (ofParts kind id method (seen.reverse ++ params)), none, rest⟩ := by
  -- on the parameters that are due, for any that the draft has already
  induction params with
  | nil =>
      intro arity seen draft item front body hcount hfront hadv hbody rest
      cases hbody
      rw [List.length_nil, Nat.add_zero] at hcount
      rw [PacketDraft.close, if_pos hcount] at hadv
      rw [List.append_nil]
      exact shape.decode_end (Cbor.Item.take_of_form hfront _) hadv
  | cons v params ih =>
      intro arity seen draft item front body hcount hfront hadv hbody rest
      rw [List.length_cons] at hcount
      rw [PacketDraft.close, if_neg (by omega)] at hadv
      cases hbody with
      | cons hv hbody' =>
          have hpush : shape.advance (some (.withMethod arity kind id method seen)) v.toItem
              = .ok (PacketDraft.close arity kind id method (v :: seen)) := by
            simp only [Shape.advance, shape, PacketDraft.push, Value.ofItem_eq_ok_iff.mpr rfl]
            rfl
          have hcount' : 3 + (v :: seen).length + params.length = arity := by
            rw [List.length_cons]
            omega
          rw [shape.decode_go (Cbor.Item.take_of_form hfront _) hadv, List.append_assoc,
            ih hcount' hv hpush hbody' rest, List.reverse_cons, List.append_assoc]
          rfl

theorem decode_of_spelled {p : Packet} {spelling : List Cbor.Item} (h : p.Spelled spelling)
    {bs : Octets} (hforms : Cbor.Item.Forms spelling bs) (rest : Octets) :
    shape.decode none (bs ++ rest) = ⟨.frame p, none, rest⟩ := by
  obtain ⟨kind, id, method, name, params, hcount, hname, rfl, rfl⟩ := h
  -- the drafts that the reader goes through, element by element
  have harity : shape.advance none (.array (3 + params.length))
      = .ok (.inl (.empty (3 + params.length))) := by
    simp only [Shape.advance, shape, PacketDraft.start]
    rw [if_pos ⟨by omega, by omega⟩]
  have hkind : shape.advance (some (.empty (3 + params.length))) (.int kind.code)
      = .ok (.inl (.withKind (3 + params.length) kind)) := by
    simp only [Shape.advance, shape, PacketDraft.push, Kind.ofItem_eq_ok_iff.mpr rfl]
    rfl
  have hid : shape.advance (some (.withKind (3 + params.length) kind)) (.int id.toInt)
      = .ok (.inl (.withId (3 + params.length) kind id)) := by
    simp only [Shape.advance, shape, PacketDraft.push, expectInt32_toInt]
    rfl
  have hmethod : shape.advance (some (.withId (3 + params.length) kind id)) name
      = .ok (PacketDraft.close (3 + params.length) kind id method []) := hname.push _ kind id
  have hnone : 3 + ([] : List Value).length + params.length = 3 + params.length := by
    rw [List.length_nil, Nat.add_zero]
  cases hforms with
  | cons h0 hforms =>
    cases hforms with
    | cons h1 hforms =>
      cases hforms with
      | cons h2 hforms =>
        cases hforms with
        | cons h3 hforms =>
          simp only [List.append_assoc]
          rw [shape.decode_go (Cbor.Item.take_of_form h0 _) harity,
            shape.decode_go (Cbor.Item.take_of_form h1 _) hkind,
            shape.decode_go (Cbor.Item.take_of_form h2 _) hid]
          exact decode_of_close hnone h3 hmethod hforms rest

/-- **A packet comes out of its spellings alone.** -/
theorem decode_eq_frame_iff_spelled {src rest : Octets} {p : Packet} :
    shape.decode none src = ⟨.frame p, none, rest⟩ ↔ ∃ spelling bs, p.Spelled spelling
      ∧ Cbor.Item.Forms spelling bs ∧ src = bs ++ rest := by
  constructor
  · intro h
    obtain ⟨items, last, draft', bs, hfollows, hadv, hforms, rfl⟩ := shape.decode_eq_frame_iff.mp h
    have hnone : (none : Option PacketDraft).elim (([] : List Cbor.Item) = []) (Drafted · []) := rfl
    have hdrafted := follows_drafted hfollows hnone
    exact ⟨items ++ [last], bs, advance_drafted hdrafted hadv, hforms, rfl⟩
  · rintro ⟨spelling, bs, hp, hforms, rfl⟩
    exact decode_of_spelled hp hforms rest

/-! ## What comes out fits -/

theorem Value.fits_of_toItem {v : Value} (h : v.toItem.Fits) : v.Fits := by
  cases v with
  | text s => exact h
  | bytes body => exact h
  | _ => trivial

theorem Value.asText?_fits {v : Value} (hv : v.Fits) {s : String} (h : v.asText? = some s) :
    (Utf8.encode s).length ≤ Cbor.Item.maxLength := by
  cases v with
  | text s' => cases h; exact hv
  | bytes body =>
      rw [asText?, Utf8.decode?] at h
      cases hs : Utf8.decode body with
      | error e => rw [hs] at h; cases h
      | ok s' =>
          rw [hs] at h
          cases h
          rw [Utf8.encode_of_decode hs]
          exact hv
  | _ => cases h

theorem ofParts_fits {method : String} {params : List Value} (hcount : params.length ≤ maxParams)
    (hmethod : (Utf8.encode method).length ≤ Cbor.Item.maxLength) (hparams : ∀ v ∈ params, v.Fits)
    (kind : Kind) (id : Int32) : (ofParts kind id method params).Fits := by
  cases kind with
  | call => exact ⟨hcount, hmethod, hparams⟩
  | reply =>
      cases params with
      | nil => trivial
      | cons v params => exact hparams v List.mem_cons_self
  | refusal =>
      show (Utf8.encode ((params.head?.bind Value.asText?).getD "")).length ≤ Cbor.Item.maxLength
      cases hwords : params.head?.bind Value.asText? with
      | none => exact Nat.zero_le _
      | some s =>
          obtain ⟨v, hv, hs⟩ := Option.bind_eq_some_iff.mp hwords
          exact Value.asText?_fits (hparams v (List.mem_of_head? hv)) hs

/-- **What is spelled fits.** -/
theorem fits_of_spelled {p : Packet} {spelling : List Cbor.Item} (h : p.Spelled spelling)
    {bs : Octets} (hforms : Cbor.Item.Forms spelling bs) : p.Fits := by
  obtain ⟨kind, id, method, name, params, hcount, hname, rfl, rfl⟩ := h
  have hfits := hforms.fits
  have hmethod : name.Fits := hfits name (by simp [parts])
  refine ofParts_fits hcount ?_ (fun v hv => ?_) kind id
  · rcases hname with rfl | rfl
    · exact hmethod
    · exact hmethod
  · exact Value.fits_of_toItem (hfits v.toItem (by simp [parts, List.mem_map_of_mem hv]))

/-! ## What is written -/

/-- The items that a packet is written as. -/
def written : Packet → List Cbor.Item
  | .call c => items .call c.id c.method c.params
  | .reply id result => items .reply id "" [result]
  | .refusal id message => items .refusal id "" [.text message]

/-- The octets that a packet is written as. -/
def octets (p : Packet) : Octets := p.written.flatMap Cbor.Item.write

theorem one_param (v : Value) : [v].length ≤ maxParams := by
  rw [List.length_singleton]
  decide

/-- What is written is a spelling. -/
theorem written_spelled {p : Packet} (h : p.Fits) : p.Spelled p.written := by
  cases p with
  | call c => exact ⟨.call, c.id, c.method, _, c.params, h.1, Or.inl rfl, rfl, rfl⟩
  | reply id result => exact ⟨.reply, id, "", _, [result], one_param result, Or.inl rfl, rfl, rfl⟩
  | refusal id message =>
      exact ⟨.refusal, id, "", _, [.text message], one_param _, Or.inl rfl, rfl, rfl⟩

theorem Value.writable {v : Value} (h : v.Fits) : v.toItem.Writable := by
  cases v with
  | int w =>
      have hlow := w.le_toInt
      have hhigh := w.toInt_lt
      exact ⟨by omega, by omega⟩
  | text s => exact h
  | bytes body => exact h
  | _ => trivial

theorem items_writable {method : String} {params : List Value} (hcount : params.length ≤ maxParams)
    (hmethod : (Utf8.encode method).length ≤ Cbor.Item.maxLength) (hparams : ∀ v ∈ params, v.Fits)
    (kind : Kind) (id : Int32) : ∀ item ∈ items kind id method params, item.Writable := by
  have hmax : maxParams = 5 := rfl
  have hlow := id.le_toInt
  have hhigh := id.toInt_lt
  rw [items]
  refine List.forall_mem_cons.mpr ⟨?_, List.forall_mem_cons.mpr ⟨?_, List.forall_mem_cons.mpr
    ⟨⟨by omega, by omega⟩, List.forall_mem_cons.mpr ⟨hmethod, fun item hitem => ?_⟩⟩⟩⟩
  · show 3 + params.length < 18446744073709551616
    omega
  · cases kind <;> exact ⟨by decide, by decide⟩
  · obtain ⟨v, hv, rfl⟩ := List.mem_map.mp hitem
    exact Value.writable (hparams v hv)

theorem written_writable {p : Packet} (h : p.Fits) : ∀ item ∈ p.written, item.Writable := by
  have hempty : (Utf8.encode "").length ≤ Cbor.Item.maxLength := Nat.zero_le _
  cases p with
  | call c => exact items_writable h.1 h.2.1 h.2.2 .call c.id
  | reply id result =>
      have hresult : ∀ v ∈ [result], v.Fits := List.forall_mem_singleton.mpr h
      exact items_writable (one_param result) hempty hresult .reply id
  | refusal id message =>
      have hwords : ∀ v ∈ [Value.text message], v.Fits := List.forall_mem_singleton.mpr h
      exact items_writable (one_param _) hempty hwords .refusal id

/-- **A packet that fits is read back**, whatever follows it. -/
theorem decode_octets {p : Packet} (h : p.Fits) (rest : Octets) :
    shape.decode none (p.octets ++ rest) = ⟨.frame p, none, rest⟩ :=
  decode_of_spelled (written_spelled h) (Cbor.Item.forms_write (written_writable h)) rest

theorem appendItems_eq (dst : Octets) (items : List Cbor.Item) :
    appendItems dst items = dst ++ items.flatMap Cbor.Item.write := by
  unfold appendItems
  induction items generalizing dst with
  | nil => exact (List.append_nil dst).symm
  | cons item items ih => rw [List.foldl_cons, ih, List.flatMap_cons, List.append_assoc]

theorem writeParts_eq (kind : Kind) (id : Int32) (method : String) (params : List Value) :
    writeParts kind id method params = (items kind id method params).flatMap Cbor.Item.write := by
  rw [writeParts, items]
  simp only [List.flatMap_cons, List.flatMap_map, List.append_assoc]
  rfl

/-- A packet is written or refused by the number of its parameters alone. -/
theorem writeTo_of_fits {p : Packet} (h : p.Fits) (dst : Octets) :
    p.writeTo dst = (.ok (), dst ++ p.octets) := by
  cases p with
  | call c =>
      have hcount : ¬ maxParams < c.params.length := Nat.not_lt.mpr h.1
      rw [writeTo, if_neg hcount, appendItems_eq]
      rfl
  | reply id result => rw [writeTo, appendItems_eq]; rfl
  | refusal id message => rw [writeTo, appendItems_eq]; rfl

theorem writeAllTo_of_fits {ps : List Packet} (h : ∀ p ∈ ps, p.Fits) (dst : Octets) :
    writeAllTo ps dst = (.ok (), dst ++ ps.flatMap octets) := by
  induction ps generalizing dst with
  | nil => rw [writeAllTo, List.flatMap_nil, List.append_nil]
  | cons p ps ih =>
      obtain ⟨hp, hps⟩ := List.forall_mem_cons.mp h
      rw [writeAllTo, writeTo_of_fits hp]
      dsimp only
      rw [ih hps, List.flatMap_cons, List.append_assoc]

/-- What is written behind a buffer is what is written by itself. -/
theorem writeTo_eq (p : Packet) (dst : Octets) : p.writeTo dst =
    match p.write with
    | .ok bs => (.ok (), dst ++ bs)
    | .error e => (.error e, dst) := by
  cases p with
  | call c =>
      rw [writeTo, write]
      by_cases hcount : maxParams < c.params.length
      · rw [if_pos hcount, if_pos hcount]
      · rw [if_neg hcount, if_neg hcount, appendItems_eq, writeParts_eq]
  | reply id result => rw [writeTo, write, appendItems_eq, writeParts_eq]
  | refusal id message => rw [writeTo, write, appendItems_eq, writeParts_eq]

open Codec in
/-- What holds of packets that are written one after the other behind a buffer and read by a fresh
codec, of a call that is written by itself, and of whatever is read in chunks. -/
structure ThereAndBack (ps : List Packet) (c : Call) (dst : Octets) (chunks : List Octets) : Prop where
  /-- The packets come back, and nothing is left, just if all of them fit. -/
  returns : (∃ bs, writeAllTo ps dst = (.ok (), dst ++ bs)
    ∧ (new : PacketCodec).feed shape bs = (.ok ps, new)) ↔ ∀ p ∈ ps, p.Fits
  /-- A call with too many parameters is refused, and the buffer is as it was. -/
  refuses : (Packet.call c).writeTo dst = (.error (.invalidArity (3 + c.params.length)), dst)
    ↔ maxParams < c.params.length
  /-- What has been read can be written, and is read again from what is written. -/
  again : ∀ p ∈ ((new : PacketCodec).absorbAll shape chunks).1, ∃ bs,
    p.writeTo dst = (.ok (), dst ++ bs) ∧ (new : PacketCodec).feed shape bs = (.ok [p], new)
  /-- What has been read was one of the spellings of a packet, and each of them is read. -/
  spelled : ∀ p src rest, shape.decode none src = ⟨.frame p, none, rest⟩ ↔ ∃ spelling bs,
    p.Spelled spelling ∧ Cbor.Item.Forms spelling bs ∧ src = bs ++ rest

theorem feed_octets {ps : List Packet} (h : ∀ p ∈ ps, p.Fits) :
    (Codec.new : PacketCodec).feed shape (ps.flatMap octets) = (.ok ps, Codec.new) :=
  Codec.feed_flatMap fun p hp => decode_octets (h p hp)

theorem fits_of_mem_drain {src : Octets} {p : Packet} (h : p ∈ (shape.drain none src).frames) :
    p.Fits := by
  obtain ⟨src', rest, hdecode⟩ := shape.exists_decode_of_mem_drain rfl h
  obtain ⟨spelling, bs, hp, hforms, _⟩ := decode_eq_frame_iff_spelled.mp hdecode
  exact fits_of_spelled hp hforms

/-- **Packets that fit come back, and packets that are read fit.** -/
theorem there_and_back (ps : List Packet) (c : Call) (dst : Octets) (chunks : List Octets) :
    ThereAndBack ps c dst chunks where
  returns := by
    constructor
    · rintro ⟨bs, _, hfeed⟩ p hp
      rw [Codec.frames_of_feed (congrArg Prod.fst hfeed)] at hp
      exact fits_of_mem_drain hp
    · intro h
      exact ⟨ps.flatMap octets, writeAllTo_of_fits h dst, feed_octets h⟩
  refuses := by
    rw [writeTo]
    constructor
    · intro h
      by_contra hcount
      rw [if_neg hcount] at h
      cases congrArg Prod.fst h
    · intro hcount
      rw [if_pos hcount]
  again := by
    intro p hp
    -- whatever the chunks were, the packets are those of the whole stream
    have hset : (Codec.new : PacketCodec).Settled shape := shape.drain_nil
    obtain ⟨_, habsorb, _⟩ := Codec.absorbAll_eq shape rfl hset chunks
    rw [habsorb] at hp
    have hfits : p.Fits := fits_of_mem_drain hp
    have hfeed := feed_octets (List.forall_mem_singleton.mpr hfits)
    rw [List.flatMap_singleton] at hfeed
    exact ⟨p.octets, writeTo_of_fits hfits dst, hfeed⟩
  spelled := fun _ _ _ => decode_eq_frame_iff_spelled

end Packet

end GameHall
