import GameHall.Proofs.Hall.Stances
import GameHall.Proofs.Hall.Fewer

/-!
# Where one connection is

`Registry.Sound` speaks of all connections and needs numbers that do not run out. What a room hears of
one connection depends on that connection alone: its session says where it is, and no other room lists
it (`Registry.Tracked`). This holds after every operation as long as the number is not given to another
connection while the session is there (`Hall.tracked_turn`).

`Registry.stance` is how the connection stands to a room, as the tables say.
-/

namespace GameHall

namespace Registry

/-- How a connection stands to a room. -/
def stance (t : Registry) (c r : Int) : Stance :=
  match t.session c with
  | none => .away
  | some s =>
    if s.room = r then if s.isOnline then .seated else .gone
    else if s.observing = some r then .watching
    else .away

/-- The tables are in order as far as one connection is concerned. -/
structure Tracked (t : Registry) (c : Int) : Prop where
  apart : (t.pending c).isSome → t.session c = none
  /-- The session knows of the room that lists the connection. -/
  seated : ∀ r, c ∈ t.players r → ∃ s, t.session c = some s ∧ s.room = r
  watching : ∀ r, c ∈ t.observers r → ∃ s, t.session c = some s ∧ s.observing = some r
  exclusive : ∀ s, t.session c = some s → s.observing.isSome → s.room = lobbyRoom
  kept : ∀ s, t.session c = some s → s.isOnline = false → s.room ≠ lobbyRoom
  /-- It knows of no room that has not been made yet. -/
  below : ∀ s, t.session c = some s →
    s.room < t.nextRoom ∧ ∀ r, s.observing = some r → r < t.nextRoom
  opened : lobbyRoom < t.nextRoom
  rooms : ∀ r x, t.room r = some x → lobbyRoom < r ∧ r < t.nextRoom

variable {t t' : Registry} {c d r q : Int} {s : Session} {x : Room}

/-! ## Stances -/

theorem stance_of_none (hs : t.session c = none) (r : Int) : t.stance c r = .away := by
  rw [stance, hs]

/-- A seat goes before watching, and whoever has neither is away. -/
theorem stance_of_some (hs : t.session c = some s) (r : Int) :
    t.stance c r = if s.room = r then if s.isOnline then .seated else .gone
      else if s.observing = some r then .watching else .away := by
  rw [stance, hs]

theorem stance_of_elsewhere (hs : t.session c = some s) (hroom : s.room ≠ r)
    (hview : s.observing ≠ some r) : t.stance c r = .away := by
  rw [stance_of_some hs, if_neg hroom, if_neg hview]

theorem stance_of_seated (hs : t.session c = some s) (hroom : s.room = r)
    (honline : s.isOnline = true) : t.stance c r = .seated := by
  rw [stance_of_some hs, if_pos hroom, if_pos honline]

theorem stance_of_watching (hs : t.session c = some s) (hroom : s.room ≠ r)
    (hview : s.observing = some r) : t.stance c r = .watching := by
  rw [stance_of_some hs, if_neg hroom, if_pos hview]

/-- Whoever is in the lobby is away from every room. -/
theorem stance_of_lobby (hs : t.session c = some s) (hlobby : s.inLobby = true)
    (hr : lobbyRoom < r) : t.stance c r = .away := by
  obtain ⟨hroom, hview⟩ := inLobby_iff.mp hlobby
  refine stance_of_elsewhere hs (by omega) ?_
  rw [hview]
  exact fun hnone => nomatch hnone

/-- A stance is about no more of a session than where it stands. -/
theorem stance_of_same (hsame : (t'.session c).map standing = (t.session c).map standing) (r : Int) :
    t'.stance c r = t.stance c r := by
  cases hs : t.session c with
  | none =>
      rw [hs, Option.map_none, Option.map_eq_none_iff] at hsame
      rw [stance_of_none hs, stance_of_none hsame]
  | some s =>
      obtain ⟨s', hs', hroom, hview, honline⟩ := session_of_same hsame hs
      rw [stance_of_some hs, stance_of_some hs', hroom, hview, honline]

/-! ## Keeping track -/

/-- Nothing has changed for the connection but that rooms may list it no more. -/
theorem tracked_of_same (h : t.Tracked c)
    (hsame : (t'.session c).map standing = (t.session c).map standing)
    (hpending : (t'.pending c).isSome → (t.pending c).isSome)
    (hplayers : ∀ r, c ∈ t'.players r → c ∈ t.players r)
    (hobservers : ∀ r, c ∈ t'.observers r → c ∈ t.observers r)
    (hnext : t'.nextRoom = t.nextRoom)
    (hrooms : ∀ r x', t'.room r = some x' → ∃ x, t.room r = some x) : t'.Tracked c where
  apart := by
    intro hp
    have hnone := h.apart (hpending hp)
    rw [hnone, Option.map_none, Option.map_eq_none_iff] at hsame
    exact hsame
  seated := by
    intro r hc
    obtain ⟨s, hs, hroom⟩ := h.seated r (hplayers r hc)
    obtain ⟨s', hs', hroom', _⟩ := session_of_same hsame hs
    exact ⟨s', hs', hroom'.trans hroom⟩
  watching := by
    intro r hc
    obtain ⟨s, hs, hview⟩ := h.watching r (hobservers r hc)
    obtain ⟨s', hs', _, hview', _⟩ := session_of_same hsame hs
    exact ⟨s', hs', hview'.trans hview⟩
  -- what a session says now, a session has said before
  exclusive := by
    intro s' hs' hview
    obtain ⟨s, hs, hroom, hview', _⟩ := session_of_same hsame.symm hs'
    exact hroom ▸ h.exclusive s hs (hview' ▸ hview)
  kept := by
    intro s' hs' hoff
    obtain ⟨s, hs, hroom, _, honline⟩ := session_of_same hsame.symm hs'
    exact hroom ▸ h.kept s hs (honline.trans hoff)
  below := by
    intro s' hs'
    obtain ⟨s, hs, hroom, hview, _⟩ := session_of_same hsame.symm hs'
    rw [hnext, ← hroom, ← hview]
    exact h.below s hs
  opened := hnext ▸ h.opened
  rooms := by
    intro r x' hx'
    obtain ⟨x, hx⟩ := hrooms r x' hx'
    exact hnext ▸ h.rooms r x hx

theorem tracked_alike (h : t.Tracked c) (ha : t.Alike t') : t'.Tracked c := by
  refine tracked_of_same h (ha.session c) (fun hp => ?_) (fun r hc => ?_) (fun r hc => ?_) ha.nextRoom
    fun r x' hx' => ⟨x', ha.room ▸ hx'⟩
  · rwa [← ha.pending c]
  · rwa [players, ← ha.room]
  · rwa [observers, ← ha.room]

theorem tracked_unpend (h : t.Tracked c) (d : Int) : (t.setPending d none).Tracked c := by
  refine tracked_of_same h rfl (fun hp => ?_) (fun _ hc => hc) (fun _ hc => hc) rfl
    fun _ x hx => ⟨x, hx⟩
  by_cases he : c = d
  · simp [setPending, he] at hp
  · simpa [setPending, he] using hp

/-- A new connection may have the number, if no session has it. -/
theorem tracked_come (h : t.Tracked c) (l : Link) (hfree : d = c → t.session c = none) :
    ({ t with lastConnection := d }.setPending d (some l)).Tracked c :=
  { h with
    apart := by
      intro hp
      by_cases he : d = c
      · exact hfree he
      · exact h.apart (by simpa [setPending, Ne.symm he] using hp) }

theorem tracked_setSession_ne (h : t.Tracked c) (hne : c ≠ d) (o : Option Session) :
    (t.setSession d o).Tracked c :=
  tracked_of_same h (by simp [setSession, hne]) (fun hp => hp) (fun _ hc => hc) (fun _ hc => hc) rfl
    fun _ x hx => ⟨x, hx⟩

/-- A room that is set has the players that it is set with, and the others have theirs. -/
theorem mem_players_setRoom {o : Option Room} (hc : c ∈ (t.setRoom r o).players q) :
    c ∈ t.players q ∧ q ≠ r ∨ q = r ∧ ∃ x, o = some x ∧ c ∈ x.players := by
  rw [players_setRoom, Function.update_apply] at hc
  split at hc
  · cases o with
    | none => exact absurd hc List.not_mem_nil
    | some x => exact Or.inr ⟨by assumption, x, rfl, hc⟩
  · exact Or.inl ⟨hc, by assumption⟩

theorem mem_observers_setRoom {o : Option Room} (hc : c ∈ (t.setRoom r o).observers q) :
    c ∈ t.observers q ∧ q ≠ r ∨ q = r ∧ ∃ x, o = some x ∧ c ∈ x.observers := by
  rw [observers_setRoom, Function.update_apply] at hc
  split at hc
  · cases o with
    | none => exact absurd hc List.not_mem_nil
    | some x => exact Or.inr ⟨by assumption, x, rfl, hc⟩
  · exact Or.inl ⟨hc, by assumption⟩

theorem mem_players_updateRoom {f : Room → Room} (hc : c ∈ (t.updateRoom r f).players q) :
    c ∈ t.players q ∧ q ≠ r ∨ q = r ∧ ∃ x, t.room r = some x ∧ c ∈ (f x).players := by
  refine (mem_players_setRoom hc).imp_right fun ⟨hq, x', hx', hc⟩ => ⟨hq, ?_⟩
  obtain ⟨x, hx, rfl⟩ := Option.map_eq_some_iff.mp hx'
  exact ⟨x, hx, hc⟩

theorem mem_observers_updateRoom {f : Room → Room} (hc : c ∈ (t.updateRoom r f).observers q) :
    c ∈ t.observers q ∧ q ≠ r ∨ q = r ∧ ∃ x, t.room r = some x ∧ c ∈ (f x).observers := by
  refine (mem_observers_setRoom hc).imp_right fun ⟨hq, x', hx', hc⟩ => ⟨hq, ?_⟩
  obtain ⟨x, hx, rfl⟩ := Option.map_eq_some_iff.mp hx'
  exact ⟨x, hx, hc⟩

theorem room_of_updateRoom {f : Room → Room} {x' : Room} (hx' : (t.updateRoom r f).room q = some x') :
    ∃ x, t.room q = some x := by
  have hx'' : Function.update t.room r ((t.room r).map f) q = some x' := hx'
  rw [Function.update_apply] at hx''
  split at hx''
  · rename_i heq
    obtain ⟨x, hx, _⟩ := Option.map_eq_some_iff.mp hx''
    exact ⟨x, heq ▸ hx⟩
  · exact ⟨x', hx''⟩

/-- A room may change that does not list the connection anew. -/
theorem tracked_updateRoom (h : t.Tracked c) (r : Int) {f : Room → Room}
    (hplayers : ∀ x, c ∈ (f x).players → c ∈ x.players)
    (hobservers : ∀ x, c ∈ (f x).observers → c ∈ x.observers) : (t.updateRoom r f).Tracked c := by
  refine tracked_of_same h rfl (fun hp => hp) (fun q hc => ?_) (fun q hc => ?_) rfl
    fun _ _ hx' => room_of_updateRoom hx'
  · rcases mem_players_updateRoom hc with ⟨hc, _⟩ | ⟨rfl, x, hx, hc⟩
    · exact hc
    · rw [players_eq hx]; exact hplayers x hc
  · rcases mem_observers_updateRoom hc with ⟨hc, _⟩ | ⟨rfl, x, hx, hc⟩
    · exact hc
    · rw [observers_eq hx]; exact hobservers x hc

theorem room_of_mem_players (hc : c ∈ t.players r) : ∃ x, t.room r = some x := by
  cases hx : t.room r with
  | some x => exact ⟨x, rfl⟩
  | none => rw [players, hx] at hc; exact absurd hc (by simp)

/-- Who is in the lobby is on no list of players, -/
theorem not_mem_players (h : t.Tracked c) (hs : t.session c = some s) (hroom : s.room = lobbyRoom)
    (r : Int) : c ∉ t.players r := by
  intro hc
  obtain ⟨s', hs', hr⟩ := h.seated r hc
  obtain ⟨x, hx⟩ := room_of_mem_players hc
  cases hs.symm.trans hs'
  have := (h.rooms r x hx).1
  omega

/-- and who does not watch is on no list of observers. -/
theorem not_mem_observers (h : t.Tracked c) (hs : t.session c = some s) (hview : s.observing = none)
    (r : Int) : c ∉ t.observers r := by
  intro hc
  obtain ⟨s', hs', hr⟩ := h.watching r hc
  cases hs.symm.trans hs'
  rw [hview] at hr
  cases hr

theorem not_pending (h : t.Tracked c) (hs : t.session c = some s) : ¬ (t.pending c).isSome := by
  intro hp
  rw [h.apart hp] at hs
  cases hs

/-- The session of the connection is another one, and rooms list it where the session says. -/
theorem tracked_of_session (h : t.Tracked c) (hs : t'.session c = some s)
    (hpending : ¬ (t'.pending c).isSome)
    (hplayers : ∀ r, c ∈ t'.players r → s.room = r)
    (hobservers : ∀ r, c ∈ t'.observers r → s.observing = some r)
    (hexclusive : s.observing.isSome → s.room = lobbyRoom)
    (hkept : s.isOnline = false → s.room ≠ lobbyRoom)
    (hbelow : s.room < t.nextRoom ∧ ∀ r, s.observing = some r → r < t.nextRoom)
    (hnext : t'.nextRoom = t.nextRoom)
    (hrooms : ∀ r x', t'.room r = some x' → ∃ x, t.room r = some x) : t'.Tracked c where
  apart := fun hp => absurd hp hpending
  seated := fun r hc => ⟨s, hs, hplayers r hc⟩
  watching := fun r hc => ⟨s, hs, hobservers r hc⟩
  exclusive := fun s' hs' => by cases hs.symm.trans hs'; exact hexclusive
  kept := fun s' hs' => by cases hs.symm.trans hs'; exact hkept
  below := fun s' hs' => by cases hs.symm.trans hs'; rw [hnext]; exact hbelow
  opened := hnext ▸ h.opened
  rooms := by
    intro r x' hx'
    obtain ⟨x, hx⟩ := hrooms r x' hx'
    exact hnext ▸ h.rooms r x hx

/-- The connection has no session any more, and no room lists it. -/
theorem tracked_of_none (h : t.Tracked c) (hs : t'.session c = none)
    (hplayers : ∀ r, c ∉ t'.players r) (hobservers : ∀ r, c ∉ t'.observers r)
    (hnext : t'.nextRoom = t.nextRoom)
    (hrooms : ∀ r x', t'.room r = some x' → ∃ x, t.room r = some x) : t'.Tracked c where
  apart := fun _ => hs
  seated := fun r hc => absurd hc (hplayers r)
  watching := fun r hc => absurd hc (hobservers r)
  exclusive := fun s' hs' => by cases hs.symm.trans hs'
  kept := fun s' hs' => by cases hs.symm.trans hs'
  below := fun s' hs' => by cases hs.symm.trans hs'
  opened := hnext ▸ h.opened
  rooms := by
    intro r x' hx'
    obtain ⟨x, hx⟩ := hrooms r x' hx'
    exact hnext ▸ h.rooms r x hx

/-! ## Every operation -/

theorem session_updateSession_self (hs : t.session c = some s) (f : Session → Session) :
    (t.updateSession c f).session c = some (f s) := by
  simp [updateSession, setSession, hs]

theorem session_updateSession_ne (hne : c ≠ d) (f : Session → Session) :
    (t.updateSession d f).session c = t.session c := by
  simp [updateSession, setSession, hne]

/-- Whoever signs up is on no list yet, and pending no more. -/
theorem tracked_signUp (h : t.Tracked c) {l : Link} (hl : t.pending d = some l)
    (hroom : s.room = lobbyRoom) (hview : s.observing = none) (honline : s.isOnline = true) :
    ((t.setPending d none).setSession d (some s)).Tracked c := by
  have hunpend := tracked_unpend h d
  by_cases he : c = d
  · subst he
    have hnone := h.apart (by rw [hl]; rfl)
    refine tracked_of_session hunpend (s := s) (by simp [setSession]) (by simp [setSession, setPending])
      (fun r hc => ?_) (fun r hc => ?_) (by simp [hview]) (by simp [honline]) ⟨?_, by simp [hview]⟩ rfl
      fun _ x hx => ⟨x, hx⟩
    · obtain ⟨s', hs', _⟩ := h.seated r hc
      cases hnone.symm.trans hs'
    · obtain ⟨s', hs', _⟩ := h.watching r hc
      cases hnone.symm.trans hs'
    · rw [hroom]; exact h.opened
  · exact tracked_setSession_ne hunpend he _

/-- A seat is for one who is in the lobby, and so on no list. -/
theorem tracked_seat (h : t.Tracked c) (hs : t.session d = some s) (hlobby : s.inLobby = true)
    (hx : t.room r = some x) : (t.seat d r).Tracked c := by
  obtain ⟨hroom, hview⟩ := inLobby_iff.mp hlobby
  by_cases he : c = d
  · subst he
    have hpending : ¬ (t.pending c).isSome := not_pending h hs
    refine tracked_of_session h (s := { s with room := r }) (session_updateSession_self hs _)
      hpending (fun q hc => ?_) (fun q hc => ?_) (by simp [hview])
      (fun _ => Int.ne_of_gt (h.rooms r x hx).1) ⟨(h.rooms r x hx).2, by simp [hview]⟩ rfl
      fun _ _ hx' => room_of_updateRoom hx'
    · rcases mem_players_updateRoom hc with ⟨hc, _⟩ | ⟨rfl, _⟩
      · exact absurd hc (not_mem_players h hs hroom q)
      · rfl
    · rcases mem_observers_updateRoom hc with ⟨hc, _⟩ | ⟨rfl, y, hy, hc⟩
      · exact absurd hc (not_mem_observers h hs hview q)
      · exact absurd (observers_eq hy ▸ hc) (not_mem_observers h hs hview q)
  · refine tracked_updateRoom (tracked_setSession_ne h he _) r (fun x hc => ?_) fun _ hc => hc
    exact (List.mem_append.mp hc).resolve_right fun hc => he (List.mem_singleton.mp hc)

theorem tracked_watch (h : t.Tracked c) (hs : t.session d = some s) (hlobby : s.inLobby = true)
    (hx : t.room r = some x) : (t.watch d r).Tracked c := by
  obtain ⟨hroom, hview⟩ := inLobby_iff.mp hlobby
  by_cases he : c = d
  · subst he
    have hpending : ¬ (t.pending c).isSome := not_pending h hs
    refine tracked_of_session h (s := { s with observing := some r }) (session_updateSession_self hs _)
      hpending (fun q hc => ?_) (fun q hc => ?_) (fun _ => hroom) (h.kept s hs)
      ⟨(h.below s hs).1, fun q hq => ?_⟩ rfl fun _ _ hx' => room_of_updateRoom hx'
    · rcases mem_players_updateRoom hc with ⟨hc, _⟩ | ⟨rfl, y, hy, hc⟩
      · exact absurd hc (not_mem_players h hs hroom q)
      · exact absurd (players_eq hy ▸ hc) (not_mem_players h hs hroom q)
    · rcases mem_observers_updateRoom hc with ⟨hc, _⟩ | ⟨rfl, _⟩
      · exact absurd hc (not_mem_observers h hs hview q)
      · rfl
    · cases hq
      exact (h.rooms r x hx).2
  · refine tracked_updateRoom (tracked_setSession_ne h he _) r (fun _ hc => hc) fun x hc => ?_
    exact (List.mem_append.mp hc).resolve_right fun hc => he (List.mem_singleton.mp hc)

theorem tracked_unwatch (h : t.Tracked c) (hs : t.session d = some s) (hview : s.observing = some r) :
    (t.unwatch d r).Tracked c := by
  by_cases he : c = d
  · subst he
    have hpending : ¬ (t.pending c).isSome := not_pending h hs
    have hroom : s.room = lobbyRoom := h.exclusive s hs (by rw [hview]; rfl)
    refine tracked_of_session h (s := unwatched s) (session_updateSession_self hs _)
      hpending (fun q hc => ?_) (fun q hc => ?_) (fun hsome => nomatch hsome)
      (h.kept s hs) ⟨(h.below s hs).1, fun _ hq => nomatch hq⟩ rfl
      fun _ _ hx' => room_of_updateRoom hx'
    · rcases mem_players_updateRoom hc with ⟨hc, _⟩ | ⟨rfl, y, hy, hc⟩
      · exact absurd hc (not_mem_players h hs hroom q)
      · exact absurd (players_eq hy ▸ hc) (not_mem_players h hs hroom q)
    · rcases mem_observers_updateRoom hc with ⟨hc, hne⟩ | ⟨_, _, _, hc⟩
      · obtain ⟨s', hs', hq⟩ := h.watching q hc
        cases hs.symm.trans hs'
        exact absurd (Option.some.inj (hq.symm.trans hview)) hne
      · simp at hc
  · exact tracked_updateRoom (tracked_setSession_ne h he _) r (fun _ hc => hc)
      fun _ hc => (List.mem_filter.mp hc).1

/-- A player who is gone keeps the seat, and only a seat is kept. -/
theorem tracked_departed (h : t.Tracked c) (hs : t.session d = some s) (hroom : s.room ≠ lobbyRoom)
    (f : Session → Session) (hf : ∀ s, (f s).room = s.room ∧ (f s).observing = s.observing) :
    (t.updateSession d f).Tracked c := by
  by_cases he : c = d
  · subst he
    have hpending : ¬ (t.pending c).isSome := not_pending h hs
    refine tracked_of_session h (s := f s) (session_updateSession_self hs _)
      hpending (fun q hc => ?_) (fun q hc => ?_) ?_ ?_ ?_ rfl fun _ x hx => ⟨x, hx⟩
    · obtain ⟨s', hs', hq⟩ := h.seated q hc
      cases hs.symm.trans hs'
      rw [(hf s).1, hq]
    · obtain ⟨s', hs', hq⟩ := h.watching q hc
      cases hs.symm.trans hs'
      rw [(hf s).2, hq]
    · rw [(hf s).1, (hf s).2]; exact h.exclusive s hs
    · rw [(hf s).1]; exact fun _ => hroom
    · rw [(hf s).1, (hf s).2]; exact h.below s hs
  · exact tracked_setSession_ne h he _

/-- A session of the lobby is on no list, and may go. -/
theorem tracked_drop (h : t.Tracked c) (hs : t.session d = some s) (hlobby : s.inLobby = true) :
    (t.setSession d none).Tracked c := by
  obtain ⟨hroom, hview⟩ := inLobby_iff.mp hlobby
  by_cases he : c = d
  · subst he
    have hplayers : ∀ r, c ∉ t.players r := not_mem_players h hs hroom
    have hobservers : ∀ r, c ∉ t.observers r := not_mem_observers h hs hview
    exact tracked_of_none h (by simp [setSession]) hplayers hobservers rfl fun _ x hx => ⟨x, hx⟩
  · exact tracked_setSession_ne h he _

theorem tracked_openRoom (h : t.Tracked c) (hplayers : x.players = []) (hobservers : x.observers = []) :
    (t.openRoom x).Tracked c := by
  have hlist : ∀ q, c ∈ (t.openRoom x).players q → c ∈ t.players q := by
    intro q hc
    have hc' : c ∈ (t.setRoom t.nextRoom (some x)).players q := hc
    rcases mem_players_setRoom hc' with ⟨hc, _⟩ | ⟨_, y, heq, hc⟩
    · exact hc
    · cases heq
      exact absurd (hplayers ▸ hc) List.not_mem_nil
  have hview : ∀ q, c ∈ (t.openRoom x).observers q → c ∈ t.observers q := by
    intro q hc
    have hc' : c ∈ (t.setRoom t.nextRoom (some x)).observers q := hc
    rcases mem_observers_setRoom hc' with ⟨hc, _⟩ | ⟨_, y, heq, hc⟩
    · exact hc
    · cases heq
      exact absurd (hobservers ▸ hc) List.not_mem_nil
  exact {
    apart := h.apart
    seated := fun q hc => h.seated q (hlist q hc)
    watching := fun q hc => h.watching q (hview q hc)
    exclusive := h.exclusive
    kept := h.kept
    below := fun s hs => ⟨Int.lt_trans (h.below s hs).1 (Int.lt_succ _),
      fun q hq => Int.lt_trans ((h.below s hs).2 q hq) (Int.lt_succ _)⟩
    opened := Int.lt_trans h.opened (Int.lt_succ _)
    rooms := by
      intro q y hy
      have hy' : Function.update t.room t.nextRoom (some x) q = some y := hy
      rw [Function.update_apply] at hy'
      split at hy'
      · rename_i heq
        exact heq ▸ ⟨h.opened, Int.lt_succ _⟩
      · exact ⟨(h.rooms q y hy').1, Int.lt_trans (h.rooms q y hy').2 (Int.lt_succ _)⟩ }

/-- **The end of a room** releases the connection from a seat there or from watching it, or the room does
not list the connection. -/
theorem endRoom_cases (h : t.Tracked c) (hx : t.room r = some x) :
    (∃ s, t.session c = some s ∧ s.room = r ∧ s.observing = none
        ∧ (t.endRoom r x).session c = released s)
      ∨ (∃ s, t.session c = some s ∧ s.room = lobbyRoom ∧ s.observing = some r
        ∧ (t.endRoom r x).session c = some (unwatched s))
      ∨ c ∉ x.players ∧ c ∉ x.observers ∧ (t.endRoom r x).session c = t.session c := by
  have hseat := h.seated r
  have hwatch := h.watching r
  rw [players_eq hx] at hseat
  rw [observers_eq hx] at hwatch
  by_cases hc : c ∈ x.players
  -- whoever sits in the room does not watch
  · obtain ⟨s, hs, hroom⟩ := hseat hc
    have hview : s.observing = none := by
      by_contra hsome
      have hlobby := h.exclusive s hs (Option.isSome_iff_ne_none.mpr hsome)
      have := (h.rooms r x hx).1
      omega
    have ho : c ∉ x.observers := by
      intro ho
      obtain ⟨s', hs', hq⟩ := hwatch ho
      cases hs.symm.trans hs'
      rw [hview] at hq
      cases hq
    refine Or.inl ⟨s, hs, hroom, hview, ?_⟩
    rw [session_endRoom, if_pos hc, if_neg ho, hs]
    rfl
  · by_cases ho : c ∈ x.observers
    · obtain ⟨s, hs, hview⟩ := hwatch ho
      refine Or.inr (Or.inl ⟨s, hs, h.exclusive s hs (by rw [hview]; rfl), hview, ?_⟩)
      rw [session_endRoom, if_neg hc, if_pos ho, hs]
      rfl
    · refine Or.inr (Or.inr ⟨hc, ho, ?_⟩)
      rw [session_endRoom, if_neg hc, if_neg ho]

theorem released_cases (s : Session) : (s.isOnline = false ∧ released s = none)
    ∨ ∃ s', released s = some s' ∧ s'.room = lobbyRoom ∧ s'.observing = s.observing
      ∧ s'.isOnline = true := by
  unfold released
  split
  · rename_i honline
    exact Or.inr ⟨_, rfl, rfl, rfl, honline⟩
  · rename_i hoff
    exact Or.inl ⟨by simpa using hoff, rfl⟩

/-- A room that has ended lists nobody. -/
theorem mem_players_endRoom (hc : c ∈ (t.endRoom r x).players q) : c ∈ t.players q ∧ q ≠ r := by
  have hc' : c ∈ (t.setRoom r none).players q := hc
  exact (mem_players_setRoom hc').resolve_right fun ⟨_, _, hnone, _⟩ => nomatch hnone

theorem mem_observers_endRoom (hc : c ∈ (t.endRoom r x).observers q) : c ∈ t.observers q ∧ q ≠ r := by
  have hc' : c ∈ (t.setRoom r none).observers q := hc
  exact (mem_observers_setRoom hc').resolve_right fun ⟨_, _, hnone, _⟩ => nomatch hnone

theorem room_of_endRoom {y : Room} (hy : (t.endRoom r x).room q = some y) :
    q ≠ r ∧ t.room q = some y := by
  have hy' : Function.update t.room r none q = some y := hy
  rw [Function.update_apply] at hy'
  split at hy'
  · cases hy'
  · rename_i hne
    exact ⟨hne, hy'⟩

theorem tracked_endRoom (h : t.Tracked c) (hx : t.room r = some x) : (t.endRoom r x).Tracked c := by
  have hrooms : ∀ q y, (t.endRoom r x).room q = some y → ∃ x, t.room q = some x :=
    fun q y hy => ⟨y, (room_of_endRoom hy).2⟩
  rcases endRoom_cases h hx with ⟨s, hs, hroom, hview, heq⟩ | ⟨s, hs, hroom, hview, heq⟩ |
    ⟨_, _, heq⟩
  -- no other room lists whoever sits in this one
  · have hpending : ¬ (t.pending c).isSome := not_pending h hs
    have hplayers : ∀ q, c ∉ (t.endRoom r x).players q := by
      intro q hc
      obtain ⟨hc, hne⟩ := mem_players_endRoom hc
      obtain ⟨s', hs', hq⟩ := h.seated q hc
      cases hs.symm.trans hs'
      exact hne (hq.symm.trans hroom)
    have hobservers : ∀ q, c ∉ (t.endRoom r x).observers q :=
      fun q hc => not_mem_observers h hs hview q (mem_observers_endRoom hc).1
    rcases released_cases s with ⟨_, hnone⟩ | ⟨s', hs', hroom', hview', honline⟩
    · exact tracked_of_none h (heq.trans hnone) hplayers hobservers rfl hrooms
    · rw [hview] at hview'
      refine tracked_of_session h (heq.trans hs') hpending (fun q hc => absurd hc (hplayers q))
        (fun q hc => absurd hc (hobservers q)) (fun _ => hroom') (by simp [honline])
        ⟨hroom' ▸ h.opened, by simp [hview']⟩ rfl hrooms
  -- nor does another room list whoever watches this one
  · have hpending : ¬ (t.pending c).isSome := not_pending h hs
    refine tracked_of_session h heq hpending (fun q hc => ?_) (fun q hc => ?_)
      (fun hsome => nomatch hsome) (h.kept s hs) ⟨(h.below s hs).1, fun _ hq => nomatch hq⟩ rfl hrooms
    · exact absurd (mem_players_endRoom hc).1 (not_mem_players h hs hroom q)
    · obtain ⟨hc, hne⟩ := mem_observers_endRoom hc
      obtain ⟨s', hs', hq⟩ := h.watching q hc
      cases hs.symm.trans hs'
      exact absurd (Option.some.inj (hq.symm.trans hview)) hne
  · exact tracked_of_same h (congrArg (Option.map standing) heq) (fun hp => hp)
      (fun q hc => (mem_players_endRoom hc).1) (fun q hc => (mem_observers_endRoom hc).1) rfl hrooms

end Registry

namespace Hall

open Registry

variable {c : Int}

/-- **One small thing keeps track of a connection.** There is one case for each thing that an event may
do. -/
theorem tracked_deed {t : Registry} {e : Event} {p q : Scene} (hdeed : Deed t e p q)
    (h : p.tables.Tracked c) : q.tables.Tracked c := by
  cases hdeed with
  | still halike => exact tracked_alike h halike
  | unpend d => exact tracked_unpend h d
  | unwatch _ hs hview => exact tracked_unwatch h hs hview
  | offline _ hs hroom => exact tracked_departed h hs hroom departed fun _ => ⟨rfl, rfl⟩
  | drop _ hs hlobby => exact tracked_drop h hs hlobby
  | wake => exact h
  | finish hx => exact tracked_endRoom h hx

theorem tracked_deeds {t : Registry} {e : Event} {p q : Scene} (hdeeds : Deeds t e p q)
    (h : p.tables.Tracked c) : q.tables.Tracked c := by
  induction hdeeds with
  | refl => exact h
  | tail _ hdeed ih => exact tracked_deed hdeed ih

/-- **One turn keeps track of a connection**, if a new connection does not have the number of an old
one. -/
theorem tracked_turn {h : Hall} {e : Event} {q : Scene} (hturn : Turn h e q)
    (hfree : e.isAccept = true → h.nextConnection = c → ¬ h.registry.Known c)
    (ht : h.registry.Tracked c) : q.tables.Tracked c := by
  cases hturn with
  | deeds hdeeds => exact tracked_deeds hdeeds ht
  | come he link =>
      refine tracked_come ht link fun hc => ?_
      have hunknown := hfree (by rw [he]; rfl) hc
      exact Option.not_isSome_iff_eq_none.mp fun hsome => hunknown (Or.inr hsome)
  | signUp _ hl hroom hview honline => exact tracked_signUp ht hl hroom hview honline
  | sit _ hs hlobby hx => exact tracked_seat ht hs hlobby hx
  | watch _ hs hlobby hx => exact tracked_watch ht hs hlobby hx
  | @found owner id name s v _ hs hlobby =>
      have hopened := tracked_openRoom (x := ⟨name, id, [], []⟩) ht rfl rfl
      exact tracked_seat hopened (r := h.nextRoom) hs hlobby (Function.update_self _ _ _)
  | message _ _ _ halike => exact tracked_alike ht halike

end Hall

end GameHall
