import GameHall.Proofs.Hall.Turns

/-!
# What is there before and after a turn

Turns take away more than they bring. What is done in a row brings nothing (`Registry.Fewer`,
`fewer_deeds`), so whoever is known after an event was known before or has come with it (`known_turn`), and
a room is hosted where it was (`room_step`).
-/

namespace GameHall

/-! ## What is there before and after -/

namespace Registry

/-- Nothing is there that was not there before, and no room has moved or lost a player. -/
structure Fewer (t t' : Registry) : Prop where
  last : t'.lastConnection = t.lastConnection
  nextRoom : t'.nextRoom = t.nextRoom
  pending : ∀ c, (t'.pending c).isSome → (t.pending c).isSome
  session : ∀ c, (t'.session c).isSome → (t.session c).isSome
  room : ∀ r x', t'.room r = some x' → ∃ x, t.room r = some x ∧ x.scheduler = x'.scheduler
  players : ∀ r x x', t.room r = some x → t'.room r = some x' → x.players ⊆ x'.players

/-- The same rooms have the same players. -/
theorem players_of_room {t t' : Registry} (h : t'.room = t.room) (r : Int) (x x' : Room)
    (hx : t.room r = some x) (hx' : t'.room r = some x') : x.players ⊆ x'.players := by
  rw [h, hx] at hx'
  cases hx'
  exact List.Subset.refl _

theorem fewer_refl (t : Registry) : t.Fewer t where
  last := rfl
  nextRoom := rfl
  pending := fun _ h => h
  session := fun _ h => h
  room := fun _ x hx => ⟨x, hx, rfl⟩
  players := players_of_room rfl

theorem fewer_trans {t t' t'' : Registry} (h : t.Fewer t') (h' : t'.Fewer t'') : t.Fewer t'' where
  last := h'.last.trans h.last
  nextRoom := h'.nextRoom.trans h.nextRoom
  pending := fun c hc => h.pending c (h'.pending c hc)
  session := fun c hc => h.session c (h'.session c hc)
  room := by
    intro r x'' hx''
    obtain ⟨x', hx', heq'⟩ := h'.room r x'' hx''
    obtain ⟨x, hx, heq⟩ := h.room r x' hx'
    exact ⟨x, hx, heq.trans heq'⟩
  players := by
    intro r x x'' hx hx''
    obtain ⟨x', hx', _⟩ := h'.room r x'' hx''
    exact List.Subset.trans (h.players r x x' hx hx') (h'.players r x' x'' hx' hx'')

theorem fewer_alike {t t' : Registry} (h : t.Alike t') : t.Fewer t' where
  last := h.lastConnection
  nextRoom := h.nextRoom
  pending := fun c hc => by rwa [← h.pending c]
  session := by
    intro c hc
    have hsome := congrArg Option.isSome (h.session c)
    rw [Option.isSome_map, Option.isSome_map] at hsome
    rwa [← hsome]
  room := fun r x' hx' => ⟨x', h.room ▸ hx', rfl⟩
  players := players_of_room h.room

theorem fewer_setPending (t : Registry) (c : Int) : t.Fewer (t.setPending c none) where
  last := rfl
  nextRoom := rfl
  pending := by
    intro d hd
    by_cases he : d = c
    · simp [setPending, he] at hd
    · simpa [setPending, he] using hd
  session := fun _ h => h
  room := fun _ x hx => ⟨x, hx, rfl⟩
  players := players_of_room rfl

/-- A session may change or go, and none is added. -/
theorem fewer_setSession (t : Registry) {c : Int} {o : Option Session}
    (ho : o.isSome → (t.session c).isSome) : t.Fewer (t.setSession c o) where
  last := rfl
  nextRoom := rfl
  pending := fun _ h => h
  session := by
    intro d hd
    by_cases he : d = c
    · rw [he]
      exact ho (by simpa [setSession, he] using hd)
    · simpa [setSession, he] using hd
  room := fun _ x hx => ⟨x, hx, rfl⟩
  players := players_of_room rfl

theorem fewer_updateSession (t : Registry) (c : Int) (f : Session → Session) :
    t.Fewer (t.updateSession c f) :=
  fewer_setSession t fun ho => by rwa [Option.isSome_map] at ho

/-- A room may change if it stays where it is and loses no player. -/
theorem fewer_updateRoom (t : Registry) (r : Int) {f : Room → Room}
    (hf : ∀ x, (f x).scheduler = x.scheduler) (hplayers : ∀ x, x.players ⊆ (f x).players) :
    t.Fewer (t.updateRoom r f) where
  last := rfl
  nextRoom := rfl
  pending := fun _ h => h
  session := fun _ h => h
  room := by
    intro q x' hx'
    by_cases hq : q = r
    · subst hq
      have hmap : (t.room q).map f = some x' := by simpa [updateRoom, setRoom] using hx'
      obtain ⟨x, hx, rfl⟩ := Option.map_eq_some_iff.mp hmap
      exact ⟨x, hx, (hf x).symm⟩
    · exact ⟨x', by simpa [updateRoom, setRoom, hq] using hx', rfl⟩
  players := by
    intro q x x' hx hx'
    by_cases hq : q = r
    · subst hq
      have hsome : some (f x) = some x' := by simpa [updateRoom, setRoom, hx] using hx'
      cases hsome
      exact hplayers x
    · have hsame : t.room q = some x' := by simpa [updateRoom, setRoom, hq] using hx'
      cases hx.symm.trans hsame
      exact List.Subset.refl _

theorem fewer_seat (t : Registry) (c r : Int) : t.Fewer (t.seat c r) :=
  fewer_trans (fewer_updateSession t c _)
    (fewer_updateRoom _ r (fun _ => rfl) fun _ => List.subset_append_left _ _)

theorem fewer_watch (t : Registry) (c r : Int) : t.Fewer (t.watch c r) :=
  fewer_trans (fewer_updateSession t c _)
    (fewer_updateRoom _ r (fun _ => rfl) fun _ => List.Subset.refl _)

theorem fewer_unwatch (t : Registry) (c r : Int) : t.Fewer (t.unwatch c r) :=
  fewer_trans (fewer_updateSession t c _)
    (fewer_updateRoom _ r (fun _ => rfl) fun _ => List.Subset.refl _)

theorem fewer_endRoom (t : Registry) (r : Int) (x : Room) : t.Fewer (t.endRoom r x) where
  last := rfl
  nextRoom := rfl
  pending := fun _ h => h
  session := by
    intro c hc
    rw [session_endRoom] at hc
    cases hs : t.session c with
    | some s => rfl
    | none => simp [hs] at hc
  room := by
    intro q y hy
    have hy' : Function.update t.room r none q = some y := hy
    rw [Function.update_apply] at hy'
    split at hy'
    · cases hy'
    · exact ⟨y, hy', rfl⟩
  players := by
    intro q y y' hy hy'
    have hy₁ : Function.update t.room r none q = some y' := hy'
    rw [Function.update_apply] at hy₁
    split at hy₁
    · cases hy₁
    · cases hy.symm.trans hy₁
      exact List.Subset.refl _

/-- A connection that is pending or has a session. -/
def Known (t : Registry) (c : Int) : Prop := (t.pending c).isSome ∨ (t.session c).isSome

/-- Nobody becomes known where nothing is added. -/
theorem known_of_fewer {t t' : Registry} {c : Int} (h : t.Fewer t') (hc : t'.Known c) : t.Known c :=
  hc.imp (h.pending c) (h.session c)

/-- Nobody goes by a change that leaves the state of the player alone. -/
theorem gone_of_updateSession {t : Registry} {c d : Int} {f : Session → Session}
    (hf : ∀ s, (f s).state = s.state) (h : (t.updateSession d f).Gone c) : t.Gone c := by
  obtain ⟨s', hs', hoff⟩ := h
  by_cases hc : c = d
  · subst hc
    have hmap : (t.session c).map f = some s' := by simpa [updateSession, setSession] using hs'
    obtain ⟨s, hs, rfl⟩ := Option.map_eq_some_iff.mp hmap
    exact ⟨s, hs, by rwa [Session.isOnline, hf] at hoff⟩
  · exact ⟨s', by simpa [updateSession, setSession, hc] using hs', hoff⟩

theorem gone_of_seat {t : Registry} {c d r : Int} (h : (t.seat d r).Gone c) : t.Gone c :=
  gone_of_updateSession (f := fun s => { s with room := r }) (fun _ => rfl) h

theorem gone_of_watch {t : Registry} {c d r : Int} (h : (t.watch d r).Gone c) : t.Gone c :=
  gone_of_updateSession (f := fun s => { s with observing := some r }) (fun _ => rfl) h

theorem gone_of_unwatch {t : Registry} {c d r : Int} (h : (t.unwatch d r).Gone c) : t.Gone c :=
  gone_of_updateSession (f := unwatched) (fun _ => rfl) h

/-- A session that stands as it did before is in the same room and as much connected. -/
theorem session_of_same {t t' : Registry} {c : Int} {s : Session}
    (hsame : (t'.session c).map standing = (t.session c).map standing) (hs : t.session c = some s) :
    ∃ s', t'.session c = some s' ∧ s'.room = s.room ∧ s'.observing = s.observing
      ∧ s'.isOnline = s.isOnline := by
  rw [hs, Option.map_some] at hsame
  obtain ⟨s', hs', heq⟩ := Option.map_eq_some_iff.mp hsame
  simp only [standing, Prod.mk.injEq] at heq
  exact ⟨s', hs', heq.1, heq.2.1, by rw [Session.isOnline, Session.isOnline, heq.2.2]⟩

theorem gone_of_alike {t t' : Registry} {c : Int} (h : t.Alike t') (hgone : t'.Gone c) : t.Gone c := by
  obtain ⟨s', hs', hoff⟩ := hgone
  obtain ⟨s, hs, _, _, honline⟩ := session_of_same (h.session c).symm hs'
  exact ⟨s, hs, honline.trans hoff⟩

/-- The end of a room leaves no session of a player who is gone but those it does not concern. -/
theorem gone_of_endRoom {t : Registry} {c r : Int} {x : Room} (h : (t.endRoom r x).Gone c) :
    t.Gone c := by
  obtain ⟨s', hs', hoff⟩ := h
  have hunwatched : ∀ {o : Option Session}, o.map unwatched = some s' →
      ∃ s, o = some s ∧ s.isOnline = false := by
    intro o ho
    obtain ⟨s, hs, rfl⟩ := Option.map_eq_some_iff.mp ho
    exact ⟨s, hs, hoff⟩
  rw [session_endRoom] at hs'
  split at hs'
  · obtain ⟨s, _, hreleased⟩ := Option.bind_eq_some_iff.mp hs'
    rw [online_released hreleased] at hoff
    cases hoff
  · split at hs'
    · exact hunwatched hs'
    · exact ⟨s', hs', hoff⟩

end Registry

namespace Hall

open Registry in
theorem fewer_deeds {t : Registry} {e : Event} {p q : Scene} (h : Deeds t e p q) :
    p.tables.Fewer q.tables := by
  induction h with
  | refl => exact fewer_refl _
  | tail _ hdeed ih =>
      refine fewer_trans ih ?_
      cases hdeed with
      | still halike => exact fewer_alike halike
      | unpend c => exact fewer_setPending _ c
      | unwatch => exact fewer_unwatch _ _ _
      | offline => exact fewer_updateSession _ _ _
      | drop => exact fewer_setSession _ fun hnone => nomatch hnone
      | wake => exact fewer_refl _
      | finish => exact fewer_endRoom _ _ _

/-- Who is there was there before, or is the new connection. -/
theorem known_turn {h : Hall} {e : Event} {q : Scene} (hturn : Turn h e q) {c : Int}
    (hc : q.tables.Known c) :
    h.registry.Known c ∨ e.isAccept = true ∧ c = h.nextConnection := by
  cases hturn with
  | deeds hdeeds => exact Or.inl (Registry.known_of_fewer (fewer_deeds hdeeds) hc)
  | come he =>
      by_cases hne : c = h.nextConnection
      · exact Or.inr ⟨by rw [he]; rfl, hne⟩
      · exact Or.inl (hc.imp_left fun hp => by simpa [Registry.setPending, hne] using hp)
  | @signUp d l _ _ _ hl =>
      refine Or.inl ?_
      by_cases hne : c = d
      · exact Or.inl (by rw [hne, hl]; rfl)
      · exact hc.imp (fun hp => by simpa [Registry.setPending, Registry.setSession, hne] using hp)
          fun hs => by simpa [Registry.setPending, Registry.setSession, hne] using hs
  | sit => exact Or.inl (Registry.known_of_fewer (Registry.fewer_seat _ _ _) hc)
  | watch => exact Or.inl (Registry.known_of_fewer (Registry.fewer_watch _ _ _) hc)
  | found => exact Or.inl (Registry.known_of_fewer (Registry.fewer_seat _ _ _) hc)
  | message _ _ _ halike => exact Or.inl (Registry.known_of_fewer (Registry.fewer_alike halike) hc)

/-- Only a new connection takes a number. -/
theorem last_turn {h : Hall} {e : Event} {q : Scene} (hturn : Turn h e q) :
    q.tables.lastConnection = h.lastConnection
      ∨ e.isAccept = true ∧ q.tables.lastConnection = h.nextConnection := by
  cases hturn with
  | deeds hdeeds => exact Or.inl (fewer_deeds hdeeds).last
  | come he => exact Or.inr ⟨by rw [he]; rfl, rfl⟩
  | signUp => exact Or.inl rfl
  | sit => exact Or.inl rfl
  | watch => exact Or.inl rfl
  | found => exact Or.inl rfl
  | message _ _ _ halike => exact Or.inl halike.lastConnection

/-- **A player goes only when the connection ends.** -/
theorem gone_deeds {t : Registry} {e : Event} {p q : Scene} (h : Deeds t e p q) {c : Int}
    (hgone : q.tables.Gone c) : p.tables.Gone c ∨ e = .closed c := by
  -- on the deeds; only one of them takes a player offline
  induction h with
  | refl => exact Or.inl hgone
  | tail _ hdeed ih =>
      cases hdeed with
      | still halike => exact ih (Registry.gone_of_alike halike hgone)
      | unpend => exact ih hgone
      | unwatch => exact ih (Registry.gone_of_unwatch hgone)
      | @offline d s he hs =>
          by_cases hc : d = c
          · exact Or.inr (hc ▸ he)
          · obtain ⟨s', hs', hoff⟩ := hgone
            refine ih ⟨s', ?_, hoff⟩
            simpa [Registry.updateSession, Registry.setSession, Ne.symm hc] using hs'
      | @drop d =>
          obtain ⟨s', hs', hoff⟩ := hgone
          by_cases hc : c = d
          · simp [Registry.setSession, hc] at hs'
          · exact ih ⟨s', by simpa [Registry.setSession, hc] using hs', hoff⟩
      | wake => exact ih hgone
      | finish => exact ih (Registry.gone_of_endRoom hgone)

theorem gone_turn {h : Hall} {e : Event} {q : Scene} (hturn : Turn h e q) {c : Int}
    (hgone : q.tables.Gone c) : h.registry.Gone c ∨ e = .closed c := by
  cases hturn with
  | deeds hdeeds => exact gone_deeds (p := h.scene) hdeeds hgone
  | come => exact Or.inl hgone
  | @signUp d _ s _ _ _ _ _ honline =>
      obtain ⟨s', hs', hoff⟩ := hgone
      by_cases hc : c = d
      · have heq : s = s' := by simpa [Registry.setSession, hc] using hs'
        rw [← heq, honline] at hoff
        cases hoff
      · exact Or.inl ⟨s', by simpa [Registry.setSession, Registry.setPending, hc] using hs', hoff⟩
  | sit => exact Or.inl (Registry.gone_of_seat hgone)
  | watch => exact Or.inl (Registry.gone_of_watch hgone)
  | found => exact Or.inl (Registry.gone_of_seat hgone)
  | message _ _ _ halike => exact Or.inl (Registry.gone_of_alike halike hgone)

/-- What a room is told of by no request. -/
inductive Notice (r : Int) : Signal → Prop where
  | unwatch (c : Int) : Notice r (.removeObserver r c)
  | offline (c : Int) : Notice r (.playerState r c .offline)
  | wake (reason : String) : Notice r (.wake r reason)

/-- Several small things in a row make only notices, which go to rooms that were there before. -/
theorem tells_deeds {t : Registry} {e : Event} {P : Int → Signal → Prop}
    (hP : ∀ r x s, t.room r = some x → Notice r s → P x.scheduler s) {p q : Scene}
    (hp : t.Fewer p.tables) (h : Deeds t e p q) : p.voice.Tells P q.voice := by
  have htell : ∀ {p : Scene} {r : Int} {s : Signal}, t.Fewer p.tables → Notice r s →
      p.voice.Tells P (p.tell r s) := by
    intro p r s hp hs
    unfold Scene.tell
    split
    · exact Voice.tells_of_calls rfl
    · rename_i x hx
      obtain ⟨y, hy, hscheduler⟩ := hp.room r x hx
      rw [← hscheduler]
      exact Voice.tells_say (hP r y s hy hs)
  induction h with
  | refl => exact Voice.tells_of_calls rfl
  | tail hdeeds hdeed ih =>
      have hmid := Registry.fewer_trans hp (fewer_deeds hdeeds)
      refine Voice.tells_trans ih ?_
      cases hdeed with
      | still _ hfades => exact Voice.tells_of_calls hfades.calls
      | unpend => exact Voice.tells_of_calls rfl
      | unwatch => exact htell hmid (.unwatch _)
      | offline => exact htell hmid (.offline _)
      | drop => exact Voice.tells_of_calls rfl
      | wake => exact htell hmid (.wake _)
      | finish _ hfades => exact Voice.tells_of_calls hfades.calls

/-- **A room that is there was there before**, on the same scheduler, or it has the next number and its
scheduler accepts it or is new. -/
theorem room_step {h : Hall} (hb : h.ledger.Balanced) {e : Event} {r : Int} {x : Room}
    (hx : (h.step e).room? r = some x) :
    (∃ y, h.room? r = some y ∧ y.scheduler = x.scheduler)
      ∨ r = h.nextRoom ∧ (x.scheduler = h.pool.nextId
        ∨ ∃ s, h.pool.get? x.scheduler = some s ∧ s.accepts h.fingerprint = true) := by
  obtain ⟨q, hq, hturn⟩ := exists_turn hb e
  have hx' : q.tables.room r = some x := by
    rw [← hq]
    exact hx
  -- only a turn that makes a room adds one
  cases hturn with
  | deeds hdeeds => exact Or.inl ((fewer_deeds hdeeds).room r x hx')
  | come => exact Or.inl ⟨x, hx', rfl⟩
  | signUp => exact Or.inl ⟨x, hx', rfl⟩
  | sit => exact Or.inl ((Registry.fewer_seat _ _ _).room r x hx')
  | watch => exact Or.inl ((Registry.fewer_watch _ _ _).room r x hx')
  | message _ _ _ halike => exact Or.inl ((Registry.fewer_alike halike).room r x hx')
  | found _ _ _ hplace =>
      obtain ⟨y, hy, hscheduler⟩ := (Registry.fewer_seat _ _ _).room r x hx'
      by_cases hr : r = h.nextRoom
      · subst hr
        cases (Function.update_self (f := h.registry.room) h.nextRoom _).symm.trans hy
        exact Or.inr ⟨rfl, hscheduler ▸ hplace⟩
      · have hy' : h.room? r = some y := (Function.update_of_ne hr _ _).symm.trans hy
        exact Or.inl ⟨y, hy', hscheduler⟩

theorem lt_nextRoom {h : Hall} (hb : h.ledger.Balanced) {r : Int} {x : Room} (hx : h.room? r = some x) :
    r < h.nextRoom :=
  hb.roomsBelow r (Assoc.mem_keys_iff.mpr (by rw [host_of_room? hx]; rfl))

theorem room?_of_nextRoom_le {h : Hall} (hb : h.ledger.Balanced) {r : Int} (hr : h.nextRoom ≤ r) :
    h.room? r = none := by
  by_contra hsome
  obtain ⟨x, hx⟩ := Option.ne_none_iff_exists'.mp hsome
  have := lt_nextRoom hb hx
  omega

end Hall

end GameHall
