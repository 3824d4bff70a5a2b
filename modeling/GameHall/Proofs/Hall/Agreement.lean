import GameHall.Proofs.Hall.Registry

/-!
# The tables agree

The same fact stands in two places: a session says where its player is, and a room lists who is in
it. `Registry.Sound` says that the two agree, with what an induction needs besides: connections and
rooms are numbered below the next number to be given, and whoever is gone has a seat.

A change of one entry on either side keeps `Sound` if the other side is changed with it, as it is when a
player enters or leaves a room (`sound_seat`, `sound_watch`, `sound_unwatch`).
-/

namespace GameHall

/-- The room in which a player has a seat. -/
def Session.seat? (s : Session) : Option Int :=
  if s.room = lobbyRoom then none else some s.room

namespace Registry

/-! ## Both sides of the same fact -/

/-- The players a room lists. -/
def players (t : Registry) (r : Int) : List Int := ((t.room r).map Room.players).getD []

/-- The observers a room lists. -/
def observers (t : Registry) (r : Int) : List Int := ((t.room r).map Room.observers).getD []

/-- Where a connection has a seat, as its session says. -/
def seatOf (t : Registry) (c : Int) : Option Int := (t.session c).bind Session.seat?

/-- Which room a connection watches, as its session says. -/
def viewOf (t : Registry) (c : Int) : Option Int := (t.session c).bind Session.observing

/-- Numbers are given in order, `n` of them to connections, and no connection is pending once it has
signed up. -/
structure Numbered (t : Registry) (n : Nat) : Prop where
  counted : t.lastConnection = n
  numbered : ∀ c, (t.pending c).isSome ∨ (t.session c).isSome → 1 ≤ c ∧ c ≤ t.lastConnection
  apart : ∀ c, (t.pending c).isSome → t.session c = none
  opened : 1 ≤ t.nextRoom
  rooms : ∀ r, (t.room r).isSome → 1 ≤ r ∧ r < t.nextRoom

/-- Sessions and rooms say the same of who is where. -/
structure Agrees (t : Registry) : Prop where
  seated : ∀ c r, c ∈ t.players r ↔ t.seatOf c = some r
  watching : ∀ c r, c ∈ t.observers r ↔ t.viewOf c = some r
  playersOnce : ∀ r, (t.players r).Nodup
  observersOnce : ∀ r, (t.observers r).Nodup
  /-- Nobody watches from a seat. -/
  exclusive : ∀ c, (t.viewOf c).isSome → t.seatOf c = none
  /-- A room has a player. -/
  manned : ∀ r, (t.room r).isSome → t.players r ≠ []
  /-- Whoever is gone has a seat. -/
  kept : ∀ c s, t.session c = some s → s.isOnline = false → s.room ≠ lobbyRoom

/-- The tables of a hall are in order, to which `n` connections have come. -/
structure Sound (t : Registry) (n : Nat) : Prop where
  numbers : t.Numbered n
  agrees : t.Agrees

variable {n : Nat}

/-! ## How the two sides change -/

section sides

variable (t : Registry)

theorem players_eq {t : Registry} {r : Int} {x : Room} (h : t.room r = some x) :
    t.players r = x.players := by
  rw [players, h]; rfl

theorem observers_eq {t : Registry} {r : Int} {x : Room} (h : t.room r = some x) :
    t.observers r = x.observers := by
  rw [observers, h]; rfl

theorem seatOf_eq {t : Registry} {c : Int} {s : Session} (h : t.session c = some s) :
    t.seatOf c = s.seat? := by
  rw [seatOf, h]; rfl

theorem viewOf_eq {t : Registry} {c : Int} {s : Session} (h : t.session c = some s) :
    t.viewOf c = s.observing := by
  rw [viewOf, h]; rfl

theorem seatOf_setSession (c : Int) (s : Option Session) :
    (t.setSession c s).seatOf = Function.update t.seatOf c (s.bind Session.seat?) := by
  funext d
  by_cases hd : d = c
  · subst hd; simp [seatOf, setSession]
  · simp [seatOf, setSession, hd]

theorem viewOf_setSession (c : Int) (s : Option Session) :
    (t.setSession c s).viewOf = Function.update t.viewOf c (s.bind Session.observing) := by
  funext d
  by_cases hd : d = c
  · subst hd; simp [viewOf, setSession]
  · simp [viewOf, setSession, hd]

theorem players_setRoom (r : Int) (x : Option Room) :
    (t.setRoom r x).players = Function.update t.players r ((x.map Room.players).getD []) := by
  funext q
  by_cases hq : q = r
  · subst hq; simp [players, setRoom]
  · simp [players, setRoom, hq]

theorem observers_setRoom (r : Int) (x : Option Room) :
    (t.setRoom r x).observers = Function.update t.observers r ((x.map Room.observers).getD []) := by
  funext q
  by_cases hq : q = r
  · subst hq; simp [observers, setRoom]
  · simp [observers, setRoom, hq]

end sides

/-- Lists and places still agree after one list has gained or lost just the one whose place says so. -/
theorem sides_change {lists : Int → List Int} {place : Int → Option Int}
    (h : ∀ d q, d ∈ lists q ↔ place d = some q) {c r : Int} {l : List Int} {o : Option Int}
    (hother : ∀ q, q ≠ r → (o = some q ↔ place c = some q))
    (hl : ∀ d, d ∈ l ↔ if d = c then o = some r else d ∈ lists r) (d q : Int) :
    d ∈ Function.update lists r l q ↔ Function.update place c o d = some q := by
  rw [Function.update_apply, Function.update_apply]
  have hdq := h d q
  by_cases hq : q = r
  · rw [if_pos hq, hl d]
    by_cases hd : d = c
    · rw [if_pos hd, if_pos hd, hq]
    · rw [if_neg hd, if_neg hd, ← hq]; exact hdq
  · rw [if_neg hq]
    by_cases hd : d = c
    · rw [if_pos hd, hother q hq, ← hd]; exact hdq
    · rw [if_neg hd]; exact hdq

/-- Lists and places still agree after one list is gone and its members have no place any more. -/
theorem sides_end {lists : Int → List Int} {place place' : Int → Option Int}
    (h : ∀ d q, d ∈ lists q ↔ place d = some q) {r : Int}
    (hplace : ∀ d, place' d = if d ∈ lists r then none else place d) (d q : Int) :
    d ∈ Function.update lists r [] q ↔ place' d = some q := by
  rw [Function.update_apply, hplace]
  have hq' := h d q
  have hr' := h d r
  by_cases hd : d ∈ lists r
  · rw [if_pos hd]
    by_cases hq : q = r
    · simp [hq]
    · rw [if_neg hq, hq', hr'.mp hd]
      simp [Ne.symm hq]
  · rw [if_neg hd]
    by_cases hq : q = r
    · rw [if_pos hq, hq, ← hr']
      simp [hd]
    · rw [if_neg hq]
      exact hq'

/-! ## Numbers -/

/-- Numbers stay in order when entries are changed or taken out. -/
theorem numbered_of_fewer {t t' : Registry} (h : t.Numbered n)
    (hlast : t'.lastConnection = t.lastConnection) (hnext : t'.nextRoom = t.nextRoom)
    (hp : ∀ c, (t'.pending c).isSome → (t.pending c).isSome)
    (hs : ∀ c, (t'.session c).isSome → (t.session c).isSome)
    (hr : ∀ r, (t'.room r).isSome → (t.room r).isSome) : t'.Numbered n where
  counted := by rw [hlast]; exact h.counted
  numbered := by
    intro c hc
    rw [hlast]
    exact h.numbered c (hc.imp (hp c) (hs c))
  apart := by
    intro c hc
    have hnone := h.apart c (hp c hc)
    cases hs' : t'.session c with
    | none => rfl
    | some s =>
        have := hs c (by rw [hs']; rfl)
        rw [hnone] at this
        exact absurd this (by simp)
  opened := by rw [hnext]; exact h.opened
  rooms := by
    intro r hr'
    rw [hnext]
    exact h.rooms r (hr r hr')

/-- A session that is changed was there, and so was a room. -/
theorem numbered_change {t : Registry} (h : t.Numbered n) {c r : Int} {s s' : Session} {x x' : Room}
    (hs : t.session c = some s) (hx : t.room r = some x) :
    ((t.setSession c (some s')).setRoom r (some x')).Numbered n := by
  refine numbered_of_fewer h rfl rfl (fun _ hp => hp) (fun d hd => ?_) (fun q hq => ?_)
  · by_cases he : d = c
    · rw [he, hs]; rfl
    · simpa [setRoom, setSession, he] using hd
  · by_cases he : q = r
    · rw [he, hx]; rfl
    · simpa [setRoom, setSession, he] using hq

/-! ## Sessions and rooms that change -/

/-- Both sides still agree after one session has changed that says the same as before of where its
player is. -/
theorem agrees_setSession {t : Registry} (h : t.Agrees) {c : Int} {o : Option Session}
    (hseat : o.bind Session.seat? = t.seatOf c) (hview : o.bind Session.observing = t.viewOf c)
    (hkept : ∀ s, o = some s → s.isOnline = false → s.room ≠ lobbyRoom) :
    (t.setSession c o).Agrees := by
  have hseatOf : (t.setSession c o).seatOf = t.seatOf := by
    rw [seatOf_setSession, hseat, Function.update_eq_self]
  have hviewOf : (t.setSession c o).viewOf = t.viewOf := by
    rw [viewOf_setSession, hview, Function.update_eq_self]
  exact {
    seated := by rw [hseatOf]; exact h.seated
    watching := by rw [hviewOf]; exact h.watching
    playersOnce := h.playersOnce
    observersOnce := h.observersOnce
    exclusive := by rw [hseatOf, hviewOf]; exact h.exclusive
    manned := h.manned
    kept := by
      intro d s hd
      by_cases he : d = c
      · subst he
        exact hkept s (by simpa [setSession] using hd)
      · exact h.kept d s (by simpa [setSession, he] using hd) }

/-- **Both sides still agree after one session and one room have changed**, if the room gains or loses
just the player whose session says so. -/
theorem agrees_change {t : Registry} (h : t.Agrees) {c r : Int} {s s' : Session} {x' : Room}
    (hs : t.session c = some s)
    (hseat : ∀ q, q ≠ r → (s'.seat? = some q ↔ s.seat? = some q))
    (hview : ∀ q, q ≠ r → (s'.observing = some q ↔ s.observing = some q))
    (hplayers : ∀ d, d ∈ x'.players ↔ if d = c then s'.seat? = some r else d ∈ t.players r)
    (hobservers : ∀ d, d ∈ x'.observers ↔ if d = c then s'.observing = some r else d ∈ t.observers r)
    (honce : x'.players.Nodup ∧ x'.observers.Nodup) (hmanned : x'.players ≠ [])
    (hexclusive : s'.observing.isSome → s'.seat? = none)
    (hkept : s'.isOnline = false → s'.room ≠ lobbyRoom) :
    ((t.setSession c (some s')).setRoom r (some x')).Agrees := by
  -- the tables have changed at `r`, and the sessions at `c`
  have hp : ((t.setSession c (some s')).setRoom r (some x')).players
      = Function.update t.players r x'.players := players_setRoom _ r _
  have ho : ((t.setSession c (some s')).setRoom r (some x')).observers
      = Function.update t.observers r x'.observers := observers_setRoom _ r _
  have hso : ((t.setSession c (some s')).setRoom r (some x')).seatOf
      = Function.update t.seatOf c s'.seat? := seatOf_setSession t c (some s')
  have hvo : ((t.setSession c (some s')).setRoom r (some x')).viewOf
      = Function.update t.viewOf c s'.observing := viewOf_setSession t c (some s')
  exact {
    seated := by
      rw [hp, hso]
      refine sides_change h.seated ?_ hplayers
      intro q hq
      rw [seatOf_eq hs]
      exact hseat q hq
    watching := by
      rw [ho, hvo]
      refine sides_change h.watching ?_ hobservers
      intro q hq
      rw [viewOf_eq hs]
      exact hview q hq
    playersOnce := by
      intro q
      rw [hp, Function.update_apply]
      split
      · exact honce.1
      · exact h.playersOnce q
    observersOnce := by
      intro q
      rw [ho, Function.update_apply]
      split
      · exact honce.2
      · exact h.observersOnce q
    exclusive := by
      intro d
      rw [hso, hvo, Function.update_apply, Function.update_apply]
      split
      · exact hexclusive
      · exact h.exclusive d
    manned := by
      intro q hq
      rw [hp, Function.update_apply]
      by_cases he : q = r
      · rw [if_pos he]; exact hmanned
      · rw [if_neg he]
        exact h.manned q (by simpa [setRoom, setSession, he] using hq)
    kept := by
      intro d s₁ hd
      by_cases he : d = c
      · subst he
        have : s' = s₁ := by simpa [setRoom, setSession] using hd
        subst this
        exact hkept
      · exact h.kept d s₁ (by simpa [setRoom, setSession, he] using hd) }

/-! ## Entering and leaving a room -/

theorem inLobby_iff {s : Session} :
    s.inLobby = true ↔ s.room = lobbyRoom ∧ s.observing = none := by
  simp [Session.inLobby]

theorem seat?_of_lobby {s : Session} (h : s.room = lobbyRoom) : s.seat? = none := if_pos h

/-- A player of the lobby is connected. -/
theorem online_of_lobby {t : Registry} (h : t.Agrees) {c : Int} {s : Session}
    (hs : t.session c = some s) (hroom : s.room = lobbyRoom) : s.isOnline = true := by
  cases ho : s.isOnline with
  | true => rfl
  | false => exact absurd hroom (h.kept c s hs ho)

/-- No room has the number of the lobby. -/
theorem ne_lobbyRoom {t : Registry} (h : t.Numbered n) {r : Int} {x : Room} (hx : t.room r = some x) :
    r ≠ lobbyRoom := by
  have := h.rooms r (by rw [hx]; rfl)
  unfold lobbyRoom
  omega

theorem nodup_snoc {l : List Int} {c : Int} (h : l.Nodup) (hc : c ∉ l) : (l ++ [c]).Nodup := by
  refine List.nodup_append.mpr ⟨h, by simp, ?_⟩
  intro a ha b hb hab
  rw [hab, List.mem_singleton.mp hb] at ha
  exact hc ha

/-- No room lists a player of the lobby. -/
theorem unlisted_of_lobby {t : Registry} (h : t.Agrees) {c : Int} {s : Session}
    (hs : t.session c = some s) (hlobby : s.inLobby = true) (r : Int) :
    c ∉ t.players r ∧ c ∉ t.observers r := by
  obtain ⟨hroom, hview⟩ := inLobby_iff.mp hlobby
  constructor
  · rw [h.seated c r, seatOf_eq hs, seat?_of_lobby hroom]
    simp
  · rw [h.watching c r, viewOf_eq hs, hview]
    simp

/-- Both sides still agree after a player of the lobby has sat down, be the room an old one or a new
one. -/
theorem agrees_sit {t : Registry} (h : t.Agrees) {c r : Int} {s : Session} {x : Room}
    (hs : t.session c = some s) (hlobby : s.inLobby = true) (hr : r ≠ lobbyRoom)
    (hp : x.players = t.players r ++ [c]) (ho : x.observers = t.observers r) :
    ((t.setSession c (some { s with room := r })).setRoom r (some x)).Agrees := by
  obtain ⟨hroom, hview⟩ := inLobby_iff.mp hlobby
  obtain ⟨hplayer, hobserver⟩ := unlisted_of_lobby h hs hlobby r
  have hseat : ({ s with room := r } : Session).seat? = some r := if_neg hr
  refine agrees_change h hs ?seat ?view ?players ?observers ?once ?manned ?exclusive ?kept
  case seat =>
    intro q hq
    rw [hseat, seat?_of_lobby hroom]
    simp [Ne.symm hq]
  case view =>
    intro q _
    exact Iff.rfl
  case players =>
    intro d
    rw [hseat, hp]
    by_cases hd : d = c <;> simp [hd]
  case observers =>
    intro d
    rw [ho]
    by_cases hd : d = c <;> simp [hd, hview, hobserver]
  case once =>
    rw [hp, ho]
    exact ⟨nodup_snoc (h.playersOnce r) hplayer, h.observersOnce r⟩
  case manned =>
    simp [hp]
  case exclusive =>
    intro hsome
    simp [hview] at hsome
  case kept =>
    intro hoff
    exact absurd (online_of_lobby h hs hroom) (by simpa [Session.isOnline] using hoff)

/-- **A player of the lobby may be seated.** -/
theorem sound_seat {t : Registry} (h : t.Sound n) {c r : Int} {s : Session} {x : Room}
    (hs : t.session c = some s) (hlobby : s.inLobby = true) (hx : t.room r = some x) :
    (t.seat c r).Sound n := by
  have heq : t.seat c r = (t.setSession c (some { s with room := r })).setRoom r
      (some { x with players := x.players ++ [c] }) := by
    simp [seat, updateSession, updateRoom, setSession, hs, hx]
  rw [heq]
  refine ⟨numbered_change h.numbers hs hx, ?_⟩
  refine agrees_sit h.agrees hs hlobby (ne_lobbyRoom h.numbers hx) ?_ ?_
  · rw [players_eq hx]
  · rw [observers_eq hx]

/-- **A player of the lobby may watch.** -/
theorem sound_watch {t : Registry} (h : t.Sound n) {c r : Int} {s : Session} {x : Room}
    (hs : t.session c = some s) (hlobby : s.inLobby = true) (hx : t.room r = some x) :
    (t.watch c r).Sound n := by
  obtain ⟨hroom, hview⟩ := inLobby_iff.mp hlobby
  obtain ⟨hplayer, hobserver⟩ := unlisted_of_lobby h.agrees hs hlobby r
  have hseat : ({ s with observing := some r } : Session).seat? = none := if_pos hroom
  have heq : t.watch c r = (t.setSession c (some { s with observing := some r })).setRoom r
      (some { x with observers := x.observers ++ [c] }) := by
    simp [watch, updateSession, updateRoom, setSession, hs, hx]
  rw [heq]
  refine ⟨numbered_change h.numbers hs hx,
    agrees_change h.agrees hs ?seat ?view ?players ?observers ?once ?manned ?exclusive ?kept⟩
  case seat =>
    intro q _
    exact Iff.rfl
  case view =>
    intro q hq
    simp [hview, Ne.symm hq]
  case players =>
    intro d
    rw [hseat, ← players_eq hx]
    by_cases hd : d = c <;> simp [hd, hplayer]
  case observers =>
    intro d
    rw [← observers_eq hx]
    by_cases hd : d = c <;> simp [hd]
  case once =>
    rw [← players_eq hx, ← observers_eq hx]
    exact ⟨h.agrees.playersOnce r, nodup_snoc (h.agrees.observersOnce r) hobserver⟩
  case manned =>
    rw [← players_eq hx]
    exact h.agrees.manned r (by rw [hx]; rfl)
  case exclusive =>
    intro _
    exact hseat
  case kept =>
    intro hoff
    exact absurd (online_of_lobby h.agrees hs hroom) (by simpa [Session.isOnline] using hoff)

/-- **A player who watches may stop.** -/
theorem sound_unwatch {t : Registry} (h : t.Sound n) {c r : Int} {s : Session}
    (hs : t.session c = some s) (hview : s.observing = some r) : (t.unwatch c r).Sound n := by
  have hmem : c ∈ t.observers r := by
    rw [h.agrees.watching c r, viewOf_eq hs, hview]
  obtain ⟨x, hx⟩ : ∃ x, t.room r = some x := by
    cases hx : t.room r with
    | some x => exact ⟨x, rfl⟩
    | none => rw [observers, hx] at hmem; exact absurd hmem (by simp)
  -- whoever watches has no seat, so the list of players does not change
  have hseat : s.seat? = none := by
    rw [← seatOf_eq hs]
    exact h.agrees.exclusive c (by rw [viewOf_eq hs, hview]; rfl)
  have hplayer : c ∉ t.players r := by
    rw [h.agrees.seated c r, seatOf_eq hs, hseat]
    simp
  have heq : t.unwatch c r = (t.setSession c (some (unwatched s))).setRoom r
      (some { x with observers := x.observers.filter fun d => decide (d ≠ c) }) := by
    simp [unwatch, updateSession, updateRoom, setSession, hs, hx]
  rw [heq]
  refine ⟨numbered_change h.numbers hs hx,
    agrees_change h.agrees hs ?seat ?view ?players ?observers ?once ?manned ?exclusive ?kept⟩
  case seat =>
    intro q _
    exact Iff.rfl
  case view =>
    intro q hq
    simp [unwatched, hview, Ne.symm hq]
  case players =>
    intro d
    have hseat' : (unwatched s).seat? = none := hseat
    rw [hseat', ← players_eq hx]
    by_cases hd : d = c <;> simp [hd, hplayer]
  case observers =>
    intro d
    rw [← observers_eq hx]
    by_cases hd : d = c <;> simp [hd, unwatched]
  case once =>
    rw [← players_eq hx, ← observers_eq hx]
    exact ⟨h.agrees.playersOnce r, (h.agrees.observersOnce r).filter _⟩
  case manned =>
    rw [← players_eq hx]
    exact h.agrees.manned r (by rw [hx]; rfl)
  case exclusive =>
    intro hsome
    simp [unwatched] at hsome
  case kept =>
    exact h.agrees.kept c s hs

end Registry

end GameHall
