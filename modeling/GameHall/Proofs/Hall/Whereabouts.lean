import GameHall.Proofs.Hall.Tracked

/-!
# How one connection moves

A connection that is tracked changes its stance to a room in few ways, and stands in the lists of a room
once (`Registry.Unrepeated`).
-/

namespace GameHall

/-! ## How stances change -/

namespace Registry

variable {t t' : Registry} {c d r q : Int} {s : Session} {x : Room}

theorem stance_of_session (heq : t'.session c = t.session c) (r : Int) :
    t'.stance c r = t.stance c r := by
  rw [stance, stance, heq]

theorem online_of_room (h : t.Tracked c) (hs : t.session c = some s) (hroom : s.room = lobbyRoom) :
    s.isOnline = true := by
  by_contra hoff
  exact h.kept s hs (by simpa using hoff) hroom

/-- What is dealt with another connection leaves the stance of this one as it is. -/
theorem go_of_ne (hne : d ≠ c) (heq : t'.session c = t.session c) (deal : Deal) :
    (t.stance c r).go? (if d = c ∧ q = r then some deal else none) = some (t'.stance c r) := by
  rw [if_neg fun he => hne he.1, stance_of_session heq]
  rfl

/-- Who sits down has been away, and is seated in that room only. -/
theorem go_seat (h : t.Tracked c) (hs : t.session d = some s) (hlobby : s.inLobby = true)
    (hr : lobbyRoom < r) (q : Int) :
    (t.stance c r).go? (if d = c ∧ q = r then some .join else none)
      = some ((t.seat d q).stance c r) := by
  by_cases hd : d = c
  · subst hd
    have hs' : (t.seat d q).session d = some { s with room := q } := session_updateSession_self hs _
    have honline := online_of_room h hs (inLobby_iff.mp hlobby).1
    rw [stance_of_lobby hs hlobby hr]
    by_cases hq : q = r
    · rw [if_pos ⟨rfl, hq⟩, stance_of_seated hs' hq honline]
      rfl
    · have hview : s.observing = none := (inLobby_iff.mp hlobby).2
      rw [if_neg fun he => hq he.2, stance_of_elsewhere hs' hq (by simp [hview])]
      rfl
  · exact go_of_ne hd (session_updateSession_ne (Ne.symm hd) _) _

theorem go_watch (hs : t.session d = some s) (hlobby : s.inLobby = true) (hr : lobbyRoom < r)
    (q : Int) :
    (t.stance c r).go? (if d = c ∧ q = r then some .watch else none)
      = some ((t.watch d q).stance c r) := by
  by_cases hd : d = c
  · subst hd
    have hs' : (t.watch d q).session d = some { s with observing := some q } :=
      session_updateSession_self hs _
    have hroom : s.room ≠ r := by
      have := (inLobby_iff.mp hlobby).1
      omega
    rw [stance_of_lobby hs hlobby hr]
    by_cases hq : q = r
    · rw [if_pos ⟨rfl, hq⟩, stance_of_watching hs' hroom (by rw [hq])]
      rfl
    · rw [if_neg fun he => hq he.2, stance_of_elsewhere hs' hroom (by simp [hq])]
      rfl
  · exact go_of_ne hd (session_updateSession_ne (Ne.symm hd) _) _

theorem go_unwatch (h : t.Tracked c) (hs : t.session d = some s) (hview : s.observing = some q)
    (hr : lobbyRoom < r) :
    (t.stance c r).go? (if d = c ∧ q = r then some .unwatch else none)
      = some ((t.unwatch d q).stance c r) := by
  by_cases hd : d = c
  · subst hd
    have hs' : (t.unwatch d q).session d = some (unwatched s) := session_updateSession_self hs _
    have hroom : s.room ≠ r := by
      have := h.exclusive s hs (by rw [hview]; rfl)
      omega
    rw [stance_of_elsewhere hs' hroom fun hnone => nomatch hnone]
    by_cases hq : q = r
    · rw [if_pos ⟨rfl, hq⟩, stance_of_watching hs hroom (hq ▸ hview)]
      rfl
    · rw [if_neg fun he => hq he.2, stance_of_elsewhere hs hroom (by simp [hview, hq])]
      rfl
  · exact go_of_ne hd (session_updateSession_ne (Ne.symm hd) _) _

/-- A player who goes is gone from the seat, and from no other room. -/
theorem go_departed (h : t.Tracked c) (hs : t.session d = some s) (hroom : s.room ≠ lobbyRoom)
    (honline : d = c → s.isOnline = true) {f : Session → Session}
    (hf : ∀ s, (f s).room = s.room ∧ (f s).observing = s.observing ∧ (f s).isOnline = false)
    (r : Int) :
    (t.stance c r).go? (if d = c ∧ s.room = r then some .offline else none)
      = some ((t.updateSession d f).stance c r) := by
  by_cases hd : d = c
  · subst hd
    have hs' : (t.updateSession d f).session d = some (f s) := session_updateSession_self hs _
    obtain ⟨hroom', hview', hoff⟩ := hf s
    by_cases hr : s.room = r
    · rw [if_pos ⟨rfl, hr⟩, stance_of_seated hs hr (honline rfl), stance_of_some hs',
        if_pos (hroom'.trans hr), hoff]
      rfl
    -- one who has a seat watches no other room
    · have hview : s.observing ≠ some r := by
        intro hsome
        exact hroom (h.exclusive s hs (by rw [hsome]; rfl))
      rw [if_neg fun he => hr he.2, stance_of_elsewhere hs hr hview,
        stance_of_elsewhere hs' (hroom' ▸ hr) (hview' ▸ hview)]
      rfl
  · exact go_of_ne hd (session_updateSession_ne (Ne.symm hd) _) _

/-- A session of the lobby stands to no room. -/
theorem stance_drop (hs : t.session d = some s) (hlobby : s.inLobby = true) (hr : lobbyRoom < r) :
    (t.setSession d none).stance c r = t.stance c r := by
  by_cases hd : c = d
  · subst hd
    rw [stance_of_lobby hs hlobby hr, stance_of_none (by simp [setSession])]
  · exact stance_of_session (by simp [setSession, hd]) r

/-- A new session is in the lobby. -/
theorem stance_signUp (h : t.Tracked c) {l : Link} (hl : t.pending d = some l)
    (hlobby : s.inLobby = true) (hr : lobbyRoom < r) :
    ((t.setPending d none).setSession d (some s)).stance c r = t.stance c r := by
  by_cases hd : c = d
  · subst hd
    rw [stance_of_lobby (s := s) (by simp [setSession]) hlobby hr,
      stance_of_none (h.apart (by rw [hl]; rfl))]
  · exact stance_of_session (by simp [setSession, setPending, hd]) r

/-- The end of a room changes nobody's stance to another room. -/
theorem stance_endRoom (h : t.Tracked c) (hx : t.room q = some x) (hr : lobbyRoom < r)
    (hne : r ≠ q) : (t.endRoom q x).stance c r = t.stance c r := by
  rcases endRoom_cases h hx with ⟨s, hs, hroom, hview, heq⟩ | ⟨s, hs, hroom, hview, heq⟩ |
    ⟨_, _, heq⟩
  · rw [stance_of_elsewhere hs (by omega) (by simp [hview])]
    rcases released_cases s with ⟨_, hnone⟩ | ⟨s', hs', hroom', hview', _⟩
    · rw [stance_of_none (heq.trans hnone)]
    · rw [stance_of_elsewhere (heq.trans hs') (by omega) (by simp [hview', hview])]
  · rw [stance_of_elsewhere hs (by omega) (by simp [hview, Ne.symm hne]),
      stance_of_elsewhere heq (show s.room ≠ r by omega) fun hnone => nomatch hnone]
  · exact stance_of_session heq r

/-! ## Once in a list -/

/-- No list of a room has a connection twice. -/
structure Unrepeated (t : Registry) (c : Int) : Prop where
  players : ∀ r, (t.players r).count c ≤ 1
  observers : ∀ r, (t.observers r).count c ≤ 1

theorem unrepeated_of_room (h : t.Unrepeated c) (hroom : t'.room = t.room) : t'.Unrepeated c := by
  have hplayers : t'.players = t.players := by funext r; rw [players, players, hroom]
  have hobservers : t'.observers = t.observers := by funext r; rw [observers, observers, hroom]
  exact ⟨hplayers ▸ h.players, hobservers ▸ h.observers⟩

theorem unrepeated_setRoom (h : t.Unrepeated c) (r : Int) {o : Option Room}
    (ho : ∀ x, o = some x → x.players.count c ≤ 1 ∧ x.observers.count c ≤ 1) :
    (t.setRoom r o).Unrepeated c := by
  have hempty : ∀ side : Room → List Int, (∀ x, o = some x → (side x).count c ≤ 1) →
      ((o.map side).getD []).count c ≤ 1 := by
    intro side hside
    cases o with
    | none => exact Nat.zero_le 1
    | some x => exact hside x rfl
  constructor
  · intro q
    rw [players_setRoom, Function.update_apply]
    split
    · exact hempty Room.players fun x hx => (ho x hx).1
    · exact h.players q
  · intro q
    rw [observers_setRoom, Function.update_apply]
    split
    · exact hempty Room.observers fun x hx => (ho x hx).2
    · exact h.observers q

/-- A room may change if its lists still have the connection once at most. -/
theorem unrepeated_updateRoom (h : t.Unrepeated c) (r : Int) {f : Room → Room}
    (hplayers : ∀ x, t.room r = some x → (f x).players.count c ≤ 1)
    (hobservers : ∀ x, t.room r = some x → (f x).observers.count c ≤ 1) :
    (t.updateRoom r f).Unrepeated c := by
  refine unrepeated_setRoom h r fun x' hx' => ?_
  obtain ⟨x, hx, rfl⟩ := Option.map_eq_some_iff.mp hx'
  exact ⟨hplayers x hx, hobservers x hx⟩

theorem count_players_le (h : t.Unrepeated c) (hx : t.room r = some x) : x.players.count c ≤ 1 :=
  players_eq hx ▸ h.players r

theorem count_observers_le (h : t.Unrepeated c) (hx : t.room r = some x) : x.observers.count c ≤ 1 :=
  observers_eq hx ▸ h.observers r

/-- **A room lists a connection once**, as a player or as an observer, where the session says; or it does
not list the connection. -/
theorem listed_cases (h : t.Tracked c) (hs : t.Unrepeated c) (hx : t.room r = some x) :
    (∃ s, t.session c = some s ∧ s.room = r ∧ s.observing = none
        ∧ x.players.count c = 1 ∧ c ∉ x.observers)
      ∨ (∃ s, t.session c = some s ∧ s.room = lobbyRoom ∧ s.observing = some r
        ∧ c ∉ x.players ∧ x.observers.count c = 1)
      ∨ c ∉ x.players ∧ c ∉ x.observers := by
  have honce : ∀ {l : List Int}, l.count c ≤ 1 → c ∈ l → l.count c = 1 := fun hle hc =>
    Nat.le_antisymm hle (List.count_pos_iff.mpr hc)
  have hseated : ∀ s, t.session c = some s → s.room = lobbyRoom → c ∉ x.players := fun s hsess hroom =>
    players_eq hx ▸ not_mem_players h hsess hroom r
  have hwatched : ∀ s, t.session c = some s → s.observing = none → c ∉ x.observers :=
    fun s hsess hview => observers_eq hx ▸ not_mem_observers h hsess hview r
  rcases endRoom_cases h hx with ⟨s, hsess, hroom, hview, _⟩ | ⟨s, hsess, hroom, hview, _⟩ |
    ⟨hplayer, hobserver, _⟩
  · by_cases hc : c ∈ x.players
    · exact Or.inl ⟨s, hsess, hroom, hview, honce (count_players_le hs hx) hc, hwatched s hsess hview⟩
    · exact Or.inr (Or.inr ⟨hc, hwatched s hsess hview⟩)
  · by_cases hc : c ∈ x.observers
    · exact Or.inr (Or.inl ⟨s, hsess, hroom, hview, hseated s hsess hroom,
        honce (count_observers_le hs hx) hc⟩)
    · exact Or.inr (Or.inr ⟨hseated s hsess hroom, hc⟩)
  · exact Or.inr (Or.inr ⟨hplayer, hobserver⟩)

/-- A seat adds a connection to one list, which does not have it yet. -/
theorem unrepeated_seat (h : t.Unrepeated c) (hnew : d = c → c ∉ t.players r) : (t.seat d r).Unrepeated c := by
  have hsame : (t.updateSession d fun s => { s with room := r }).Unrepeated c := unrepeated_of_room h rfl
  refine unrepeated_updateRoom hsame r (fun x hx => ?_) fun x hx => count_observers_le (x := x) h hx
  exact count_snoc_le_one (count_players_le h hx) fun hd => players_eq hx ▸ hnew hd

theorem unrepeated_watch (h : t.Unrepeated c) (hnew : d = c → c ∉ t.observers r) :
    (t.watch d r).Unrepeated c := by
  have hsame : (t.updateSession d fun s => { s with observing := some r }).Unrepeated c :=
    unrepeated_of_room h rfl
  refine unrepeated_updateRoom hsame r (fun x hx => count_players_le (x := x) h hx) fun x hx => ?_
  exact count_snoc_le_one (count_observers_le h hx) fun hd => observers_eq hx ▸ hnew hd

theorem unrepeated_unwatch (h : t.Unrepeated c) (d r : Int) : (t.unwatch d r).Unrepeated c := by
  have hsame : (t.updateSession d unwatched).Unrepeated c := unrepeated_of_room h rfl
  refine unrepeated_updateRoom hsame r (fun x hx => count_players_le (x := x) h hx) fun x hx => ?_
  exact Nat.le_trans (List.filter_sublist.count_le c) (count_observers_le h hx)

end Registry

namespace Hall

open Registry

variable {c : Int}

/-- Every small thing adds to a list what is not on it, or takes away. -/
theorem unrepeated_deed {t : Registry} {e : Event} {p q : Scene} (hdeed : Deed t e p q)
    (h : p.tables.Unrepeated c) : q.tables.Unrepeated c := by
  cases hdeed with
  | still halike => exact unrepeated_of_room h halike.room
  | unpend => exact unrepeated_of_room h rfl
  | unwatch => exact unrepeated_unwatch h _ _
  | offline => exact unrepeated_of_room h rfl
  | drop => exact unrepeated_of_room h rfl
  | wake => exact h
  | @finish r x => exact unrepeated_of_room (unrepeated_setRoom h r (o := none) fun _ hnone => nomatch hnone) rfl

theorem unrepeated_deeds {t : Registry} {e : Event} {p q : Scene} (hdeeds : Deeds t e p q)
    (h : p.tables.Unrepeated c) : q.tables.Unrepeated c := by
  induction hdeeds with
  | refl => exact h
  | tail _ hdeed ih => exact unrepeated_deed hdeed ih

/-- **No turn puts a connection on a list twice.** Whoever sits down or begins to watch was in the
lobby, where no list has it. -/
theorem unrepeated_turn {h : Hall} {e : Event} {q : Scene} (hturn : Turn h e q)
    (ht : h.registry.Tracked c) (hs : h.registry.Unrepeated c) : q.tables.Unrepeated c := by
  cases hturn with
  | deeds hdeeds => exact unrepeated_deeds hdeeds hs
  | come => exact unrepeated_of_room hs rfl
  | signUp => exact unrepeated_of_room hs rfl
  | @sit d r s x _ hsess hlobby =>
      exact unrepeated_seat hs fun hd =>
        not_mem_players ht (hd ▸ hsess) (inLobby_iff.mp hlobby).1 r
  | @watch d r s x _ hsess hlobby =>
      exact unrepeated_watch hs fun hd =>
        not_mem_observers ht (hd ▸ hsess) (inLobby_iff.mp hlobby).2 r
  | @found owner id name =>
      have hopened : (h.registry.openRoom ⟨name, id, [], []⟩).Unrepeated c :=
        unrepeated_of_room (unrepeated_setRoom hs h.nextRoom fun x hx => by cases hx; simp) rfl
      refine unrepeated_seat hopened fun _ => ?_
      rw [players_eq (x := ⟨name, id, [], []⟩) (Function.update_self _ _ _)]
      exact List.not_mem_nil
  | message _ _ _ halike => exact unrepeated_of_room hs halike.room

end Hall

end GameHall
