import GameHall.Proofs.Hall.Agreement

/-!
# Sessions, rooms and connections begin and end

The tables agree after a session or a room has begun or ended, a room as a whole (`sound_endRoom`), and
when a connection has come or gone. What leaves everyone in their place (`Registry.Alike`) is nothing to
them.
-/

namespace GameHall

namespace Registry

variable {n : Nat}

/-! ## The beginning and the end of a session -/

/-- **A player who signs up comes to the lobby.** -/
theorem sound_signUp {t : Registry} (h : t.Sound n) {c : Int} {l : Link} {s : Session}
    (hp : t.pending c = some l) (hroom : s.room = lobbyRoom) (hview : s.observing = none)
    (hon : s.isOnline = true) : ((t.setPending c none).setSession c (some s)).Sound n := by
  -- who signs up has had no session, and so neither seat nor view
  have hnone : t.session c = none := h.numbers.apart c (by rw [hp]; rfl)
  constructor
  · exact {
      counted := h.numbers.counted
      numbered := by
        intro d hd
        by_cases he : d = c
        · exact he ▸ h.numbers.numbered c (Or.inl (by rw [hp]; rfl))
        · exact h.numbers.numbered d (by simpa [setPending, setSession, he] using hd)
      apart := by
        intro d hd
        by_cases he : d = c
        · subst he
          simp [setPending, setSession] at hd
        · have := h.numbers.apart d (by simpa [setPending, setSession, he] using hd)
          simpa [setPending, setSession, he] using this
      opened := h.numbers.opened
      rooms := h.numbers.rooms }
  · have ha : (t.setPending c none).Agrees := { h.agrees with }
    refine agrees_setSession ha ?_ ?_ ?_
    · show s.seat? = (t.session c).bind Session.seat?
      rw [hnone, seat?_of_lobby hroom]
      rfl
    · show s.observing = (t.session c).bind Session.observing
      rw [hnone, hview]
      rfl
    · intro s' hs' hoff
      cases hs'
      rw [hon] at hoff
      exact absurd hoff (by simp)

/-- A player of the lobby may go. -/
theorem sound_drop {t : Registry} (h : t.Sound n) {c : Int} {s : Session}
    (hs : t.session c = some s) (hlobby : s.inLobby = true) : (t.setSession c none).Sound n := by
  obtain ⟨hroom, hview⟩ := inLobby_iff.mp hlobby
  refine ⟨numbered_of_fewer h.numbers rfl rfl (fun _ hp => hp) (fun d hd => ?_) (fun _ hr => hr), ?_⟩
  · by_cases he : d = c
    · subst he
      simp [setSession] at hd
    · simpa [setSession, he] using hd
  · refine agrees_setSession h.agrees ?_ ?_ ?_
    · rw [seatOf_eq hs, seat?_of_lobby hroom]
      rfl
    · rw [viewOf_eq hs, hview]
      rfl
    · intro s' hs'
      cases hs'

/-- **A player who goes may keep a seat.** -/
theorem sound_offline {t : Registry} (h : t.Sound n) {c : Int} {s : Session}
    (hs : t.session c = some s) (hroom : s.room ≠ lobbyRoom) :
    (t.updateSession c fun s => { s with state := .offline }).Sound n := by
  have heq : t.updateSession c (fun s => { s with state := .offline })
      = t.setSession c (some { s with state := .offline }) := by
    rw [updateSession, hs]; rfl
  rw [heq]
  refine ⟨numbered_of_fewer h.numbers rfl rfl (fun _ hp => hp) (fun d hd => ?_) (fun _ hr => hr), ?_⟩
  · by_cases he : d = c
    · rw [he, hs]; rfl
    · simpa [setSession, he] using hd
  · refine agrees_setSession h.agrees (seatOf_eq hs).symm (viewOf_eq hs).symm ?_
    intro s' hs' _
    cases hs'
    exact hroom

/-! ## The beginning and the end of a room -/

/-- **A room is made with a player in it.** -/
theorem sound_openRoom {t : Registry} (h : t.Sound n) {c : Int} {s : Session} {x : Room}
    (hs : t.session c = some s) (hlobby : s.inLobby = true)
    (hp : x.players = []) (ho : x.observers = []) :
    ((t.openRoom x).seat c t.nextRoom).Sound n := by
  -- no room has the next number yet
  have hnone : t.room t.nextRoom = none := by
    cases hx : t.room t.nextRoom with
    | none => rfl
    | some y =>
        have := h.numbers.rooms t.nextRoom (by rw [hx]; rfl)
        omega
  have hr : t.nextRoom ≠ lobbyRoom := by
    have := h.numbers.opened
    unfold lobbyRoom
    omega
  have hplayers : t.players t.nextRoom = [] := by rw [players, hnone]; rfl
  have hobservers : t.observers t.nextRoom = [] := by rw [observers, hnone]; rfl
  have heq : (t.openRoom x).seat c t.nextRoom =
      { (t.setSession c (some { s with room := t.nextRoom })).setRoom t.nextRoom
        (some { x with players := [c] }) with nextRoom := t.nextRoom + 1 } := by
    simp [seat, openRoom, updateSession, updateRoom, setSession, setRoom, hs, hp]
  have ha : ((t.setSession c (some { s with room := t.nextRoom })).setRoom t.nextRoom
      (some { x with players := [c] })).Agrees := by
    refine agrees_sit h.agrees hs hlobby hr ?_ ?_
    · rw [hplayers]; rfl
    · rw [hobservers]; exact ho
  rw [heq]
  refine ⟨?_, { ha with }⟩
  exact {
    counted := h.numbers.counted
    numbered := by
      intro d hd
      by_cases he : d = c
      · exact he ▸ h.numbers.numbered c (Or.inr (by rw [hs]; rfl))
      · exact h.numbers.numbered d (by simpa [setRoom, setSession, he] using hd)
    apart := by
      intro d hd
      have hno := h.numbers.apart d hd
      have hne : d ≠ c := by
        intro he
        rw [he, hs] at hno
        cases hno
      simpa [setRoom, setSession, hne] using hno
    opened := by
      have := h.numbers.opened
      show 1 ≤ t.nextRoom + 1
      omega
    rooms := by
      intro q hq
      show 1 ≤ q ∧ q < t.nextRoom + 1
      by_cases he : q = t.nextRoom
      · have := h.numbers.opened
        omega
      · have := h.numbers.rooms q (by simpa [setRoom, setSession, he] using hq)
        omega }

theorem session_endRoom (t : Registry) (r : Int) (x : Room) (c : Int) :
    (t.endRoom r x).session c =
      (if c ∈ x.players then
        (if c ∈ x.observers then (t.session c).map unwatched else t.session c).bind released
      else if c ∈ x.observers then (t.session c).map unwatched else t.session c) := by
  have hmap : (t.session c).map unwatched = (t.session c).bind fun s => some (unwatched s) := by
    cases t.session c <;> rfl
  rw [hmap]
  rfl

theorem seat?_released {s s' : Session} (h : released s = some s') : s'.seat? = none := by
  unfold released at h
  split at h
  · cases h; rfl
  · cases h

theorem online_released {s s' : Session} (h : released s = some s') : s'.isOnline = true := by
  unfold released at h
  split at h
  · rename_i hon
    cases h; exact hon
  · cases h

/-- After the end of a room its players have no seats, and no other player has lost one. -/
theorem seatOf_endRoom (t : Registry) (r : Int) (x : Room) (c : Int) :
    (t.endRoom r x).seatOf c = if c ∈ x.players then none else t.seatOf c := by
  rw [seatOf, session_endRoom]
  by_cases hc : c ∈ x.players
  · rw [if_pos hc, if_pos hc]
    cases hb : (if c ∈ x.observers then (t.session c).map unwatched else t.session c).bind
        released with
    | none => rfl
    | some s' =>
        obtain ⟨s, _, hs⟩ := Option.bind_eq_some_iff.mp hb
        exact seat?_released hs
  · rw [if_neg hc, if_neg hc, seatOf]
    by_cases ho : c ∈ x.observers
    · rw [if_pos ho]
      cases t.session c <;> rfl
    · rw [if_neg ho]

/-- After the end of a room nobody watches it, and whoever watched another room still does. -/
theorem viewOf_endRoom {t : Registry} (h : t.Agrees) {r : Int} {x : Room} (hx : t.room r = some x)
    (c : Int) : (t.endRoom r x).viewOf c = if c ∈ x.observers then none else t.viewOf c := by
  rw [viewOf, session_endRoom]
  by_cases ho : c ∈ x.observers
  · rw [if_pos ho, if_pos ho]
    cases hs : t.session c with
    | none => simp
    | some s =>
        by_cases hc : c ∈ x.players
        · rw [if_pos hc, Option.map_some, Option.bind_some]
          by_cases hon : (unwatched s).isOnline = true
          · rw [released, if_pos hon]; rfl
          · rw [released, if_neg hon]; rfl
        · rw [if_neg hc]; rfl
  · rw [if_neg ho, if_neg ho]
    by_cases hc : c ∈ x.players
    -- whoever sits in the room does not watch another one
    · have hseat : t.seatOf c = some r := by rwa [← h.seated c r, players_eq hx]
      have hview : t.viewOf c = none := by
        cases hv : t.viewOf c with
        | none => rfl
        | some q =>
            have := h.exclusive c (by rw [hv]; rfl)
            rw [hseat] at this
            cases this
      rw [if_pos hc, hview]
      cases hs : t.session c with
      | none => rfl
      | some s =>
          rw [viewOf_eq hs] at hview
          rw [Option.bind_some]
          by_cases hon : s.isOnline = true
          · rw [released, if_pos hon]; exact hview
          · rw [released, if_neg hon]; rfl
    · rw [if_neg hc]; rfl

/-- **A room ends as a whole.** -/
theorem sound_endRoom {t : Registry} (h : t.Sound n) {r : Int} {x : Room} (hx : t.room r = some x) :
    (t.endRoom r x).Sound n := by
  have hplayers : (t.endRoom r x).players = Function.update t.players r [] := players_setRoom t r none
  have hobservers : (t.endRoom r x).observers = Function.update t.observers r [] :=
    observers_setRoom t r none
  have hroom : (t.endRoom r x).room = Function.update t.room r none := rfl
  -- no number is given, and the room and those who are offline in it go
  refine ⟨numbered_of_fewer h.numbers rfl rfl (fun _ hp => hp) (fun c hc => ?_) (fun q hq => ?_), ?_⟩
  · cases hs : t.session c with
    | some s => rfl
    | none => simp [session_endRoom, hs] at hc
  · rw [hroom, Function.update_apply] at hq
    by_cases he : q = r
    · simp [he] at hq
    · rwa [if_neg he] at hq
  · exact {
      seated := by
        rw [hplayers]
        refine sides_end h.agrees.seated fun d => ?_
        rw [players_eq hx]
        exact seatOf_endRoom t r x d
      watching := by
        rw [hobservers]
        refine sides_end h.agrees.watching fun d => ?_
        rw [observers_eq hx]
        exact viewOf_endRoom h.agrees hx d
      playersOnce := by
        intro q
        rw [hplayers, Function.update_apply]
        split
        · exact List.nodup_nil
        · exact h.agrees.playersOnce q
      observersOnce := by
        intro q
        rw [hobservers, Function.update_apply]
        split
        · exact List.nodup_nil
        · exact h.agrees.observersOnce q
      -- whoever watched another room has no seat still
      exclusive := by
        intro c hv
        rw [viewOf_endRoom h.agrees hx] at hv
        rw [seatOf_endRoom]
        split
        · rfl
        · refine h.agrees.exclusive c ?_
          split at hv
          · cases hv
          · exact hv
      manned := by
        intro q hq
        rw [hroom, Function.update_apply] at hq
        rw [hplayers, Function.update_apply]
        by_cases he : q = r
        · simp [he] at hq
        · rw [if_neg he] at hq ⊢
          exact h.agrees.manned q hq
      -- the players who are released and stay are online; the others are as they were
      kept := by
        intro c s hs hoff
        rw [session_endRoom] at hs
        split at hs
        · obtain ⟨s₁, _, hrel⟩ := Option.bind_eq_some_iff.mp hs
          rw [online_released hrel] at hoff
          cases hoff
        · split at hs
          · obtain ⟨s₁, hs₁, rfl⟩ := Option.map_eq_some_iff.mp hs
            exact h.agrees.kept c s₁ hs₁ hoff
          · exact h.agrees.kept c s hs hoff }

/-! ## Connections -/

/-- A new connection is pending under the next number. -/
theorem sound_accept {t : Registry} (h : t.Sound n) (l : Link) :
    ({ t with lastConnection := t.lastConnection + 1 }.setPending (t.lastConnection + 1)
      (some l)).Sound (n + 1) := by
  have hcount := h.numbers.counted
  -- the next number is beyond all that have been given
  have hnone : t.session (t.lastConnection + 1) = none := by
    cases hs : t.session (t.lastConnection + 1) with
    | none => rfl
    | some s =>
        have := h.numbers.numbered (t.lastConnection + 1) (Or.inr (by rw [hs]; rfl))
        omega
  refine ⟨?_, { h.agrees with }⟩
  exact {
    counted := by
      show t.lastConnection + 1 = ((n + 1 : Nat) : Int)
      omega
    numbered := by
      intro c hc
      show 1 ≤ c ∧ c ≤ t.lastConnection + 1
      by_cases he : c = t.lastConnection + 1
      · omega
      · have := h.numbers.numbered c (by simpa [setPending, he] using hc)
        omega
    apart := by
      intro c hc
      by_cases he : c = t.lastConnection + 1
      · rw [he]; exact hnone
      · exact h.numbers.apart c (by simpa [setPending, he] using hc)
    opened := h.numbers.opened
    rooms := h.numbers.rooms }

/-- A connection that is pending no more need not be anything else. -/
theorem sound_setPending_none {t : Registry} (h : t.Sound n) (c : Int) :
    (t.setPending c none).Sound n := by
  refine ⟨numbered_of_fewer h.numbers rfl rfl (fun d hd => ?_) (fun _ hs => hs) (fun _ hr => hr),
    { h.agrees with }⟩
  by_cases he : d = c
  · simp [setPending, he] at hd
  · simpa [setPending, he] using hd

/-! ## What leaves everyone in their place -/

/-- What a session says of where its player is and whether the player is there. -/
def standing (s : Session) : Int × Option Int × PlayerState := (s.room, s.observing, s.state)

/-- The tables differ at most in what is known of links and in what the rules have noted of players. -/
structure Alike (t t' : Registry) : Prop where
  lastConnection : t'.lastConnection = t.lastConnection
  nextRoom : t'.nextRoom = t.nextRoom
  room : t'.room = t.room
  pending : ∀ c, (t'.pending c).isSome = (t.pending c).isSome
  session : ∀ c, (t'.session c).map standing = (t.session c).map standing

theorem alike_refl (t : Registry) : t.Alike t := ⟨rfl, rfl, rfl, fun _ => rfl, fun _ => rfl⟩

theorem alike_trans {t t' t'' : Registry} (h : t.Alike t') (h' : t'.Alike t'') : t.Alike t'' where
  lastConnection := h'.lastConnection.trans h.lastConnection
  nextRoom := h'.nextRoom.trans h.nextRoom
  room := h'.room.trans h.room
  pending c := (h'.pending c).trans (h.pending c)
  session c := (h'.session c).trans (h.session c)

theorem alike_updateSession (t : Registry) (c : Int) {f : Session → Session}
    (hf : ∀ s, standing (f s) = standing s) : t.Alike (t.updateSession c f) where
  lastConnection := rfl
  nextRoom := rfl
  room := rfl
  pending := fun _ => rfl
  session := by
    intro d
    by_cases hd : d = c
    · subst hd
      cases hs : t.session d <;> simp [updateSession, setSession, hs, hf]
    · simp [updateSession, setSession, hd]

theorem alike_setPending {t : Registry} {c : Int} {l : Link} (h : t.pending c = some l) (l' : Link) :
    t.Alike (t.setPending c (some l')) where
  lastConnection := rfl
  nextRoom := rfl
  room := rfl
  pending := by
    intro d
    by_cases hd : d = c
    · simp [setPending, hd, h]
    · simp [setPending, hd]
  session := fun _ => rfl

theorem sound_alike {t t' : Registry} (h : t.Sound n) (ha : t.Alike t') : t'.Sound n := by
  have hsome : ∀ c, (t'.session c).isSome = (t.session c).isSome := by
    intro c
    have := congrArg Option.isSome (ha.session c)
    simpa using this
  have hseat : t'.seatOf = t.seatOf := by
    -- a seat is read off from what a session tells of where it stands
    have hmap : ∀ o : Option Session, o.bind Session.seat?
        = (o.map standing).bind fun p => if p.1 = lobbyRoom then none else some p.1 := by
      intro o; cases o <;> rfl
    funext c
    rw [seatOf, seatOf, hmap, hmap, ha.session c]
  have hview : t'.viewOf = t.viewOf := by
    have hmap : ∀ o : Option Session, o.bind Session.observing
        = (o.map standing).bind fun p => p.2.1 := by
      intro o; cases o <;> rfl
    funext c
    rw [viewOf, viewOf, hmap, hmap, ha.session c]
  have hplayers : t'.players = t.players := by
    funext r; rw [players, players, ha.room]
  have hobservers : t'.observers = t.observers := by
    funext r; rw [observers, observers, ha.room]
  refine ⟨numbered_of_fewer h.numbers ha.lastConnection ha.nextRoom (fun c hc => ?_)
    (fun c hc => ?_) (fun r hr => ?_), ?_⟩
  · rwa [← ha.pending c]
  · rwa [← hsome c]
  · rwa [← ha.room]
  · exact {
      seated := by rw [hplayers, hseat]; exact h.agrees.seated
      watching := by rw [hobservers, hview]; exact h.agrees.watching
      playersOnce := by rw [hplayers]; exact h.agrees.playersOnce
      observersOnce := by rw [hobservers]; exact h.agrees.observersOnce
      exclusive := by rw [hseat, hview]; exact h.agrees.exclusive
      manned := by rw [hplayers, ha.room]; exact h.agrees.manned
      kept := by
        intro c s' hs' hoff
        have hc := ha.session c
        rw [hs', Option.map_some] at hc
        obtain ⟨s, hs, heq⟩ := Option.map_eq_some_iff.mp hc.symm
        simp only [standing, Prod.mk.injEq] at heq
        rw [← heq.1]
        refine h.agrees.kept c s hs ?_
        rw [Session.isOnline, heq.2.2]
        exact hoff }

end Registry

end GameHall
