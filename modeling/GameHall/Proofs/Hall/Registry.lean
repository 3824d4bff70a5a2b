import GameHall.Proofs.Assoc
import GameHall.Proofs.Hall.Views

/-!
# The registry of a hall

Who is pending, who has signed up and which rooms there are stands in three tables, and a handful of
operations change them. `Hall.registry` reads the tables entry by entry. Most of what the hall does
leaves it alone (frames, signals, bans, the pool), and what is left changes one entry at a time, so
that every operation is an equation between registries.

The equations say nothing about whether the tables agree. That is the business of the modules that
use them.
-/

namespace GameHall

/-- What the tables of a hall say, entry by entry. -/
@[ext]
structure Registry where
  lastConnection : Int
  pending : Int → Option Link
  session : Int → Option Session
  room : Int → Option Room
  nextRoom : Int

namespace Registry

/-- Sets or takes out a session. -/
def setSession (t : Registry) (c : Int) (s : Option Session) : Registry :=
  { t with session := Function.update t.session c s }

/-- Changes a session, if it is there. -/
def updateSession (t : Registry) (c : Int) (f : Session → Session) : Registry :=
  t.setSession c ((t.session c).map f)

/-- Changes the sessions of some connections or takes them out. -/
def amend (t : Registry) (l : List Int) (g : Session → Option Session) : Registry :=
  { t with session := fun c => if c ∈ l then (t.session c).bind g else t.session c }

/-- Sets or takes out a room. -/
def setRoom (t : Registry) (r : Int) (x : Option Room) : Registry :=
  { t with room := Function.update t.room r x }

/-- Changes a room, if it is there. -/
def updateRoom (t : Registry) (r : Int) (f : Room → Room) : Registry :=
  t.setRoom r ((t.room r).map f)

/-- Sets or takes out a pending connection. -/
def setPending (t : Registry) (c : Int) (l : Option Link) : Registry :=
  { t with pending := Function.update t.pending c l }

/-! ## What becomes of a session -/

/-- A player who watches no more. -/
def unwatched (s : Session) : Session := { s with observing := none }

/-- A player whose game has ended. One who is gone loses the session. -/
def released (s : Session) : Option Session :=
  if s.isOnline then some { s with room := lobbyRoom, thinking := false, died := false } else none

/-- Who has come home from a room is home, so that a player whom a list has twice is released once. -/
theorem released_released (s s' : Session) (h : released s = some s') : released s' = some s' := by
  unfold released at h
  split at h
  · rename_i hon
    cases h
    exact if_pos hon
  · cases h

/-- Lets a player sit down. -/
def seat (t : Registry) (c r : Int) : Registry :=
  (t.updateSession c fun s => { s with room := r }).updateRoom r fun x =>
    { x with players := x.players ++ [c] }

/-- Lets a player watch. -/
def watch (t : Registry) (c r : Int) : Registry :=
  (t.updateSession c fun s => { s with observing := some r }).updateRoom r fun x =>
    { x with observers := x.observers ++ [c] }

/-- Ends the watching of a player. -/
def unwatch (t : Registry) (c r : Int) : Registry :=
  (t.updateSession c unwatched).updateRoom r fun x =>
    { x with observers := x.observers.filter fun d => decide (d ≠ c) }

/-- Makes a room of the next number. -/
def openRoom (t : Registry) (x : Room) : Registry :=
  { t.setRoom t.nextRoom (some x) with nextRoom := t.nextRoom + 1 }

/-- Ends a room. -/
def endRoom (t : Registry) (r : Int) (x : Room) : Registry :=
  ((t.setRoom r none).amend x.observers fun s => some (unwatched s)).amend x.players released

/-- To amend the sessions of a list one by one is to amend them at once, if amending a session twice
is no more than amending it once. -/
theorem foldl_setSession {g : Session → Option Session}
    (hg : ∀ s s', g s = some s' → g s' = some s') (l : List Int) (t : Registry) :
    l.foldl (fun t c => t.setSession c ((t.session c).bind g)) t = t.amend l g := by
  induction l generalizing t with
  | nil => simp [amend]
  | cons c l ih =>
      rw [List.foldl_cons, ih]
      -- a connection may stand in the list again
      have htwice : ((t.session c).bind g).bind g = (t.session c).bind g := by
        cases h : (t.session c).bind g with
        | none => rfl
        | some s' =>
            obtain ⟨s, _, hs⟩ := Option.bind_eq_some_iff.mp h
            exact hg s s' hs
      ext d
      all_goals simp only [amend, setSession]
      by_cases hd : d = c
      · subst hd
        simp [htwice]
      · simp [hd]

end Registry

namespace Hall

/-- The tables of a hall, entry by entry. -/
def registry (h : Hall) : Registry where
  lastConnection := h.lastConnection
  pending := Assoc.get? h.pending
  session := h.session?
  room := h.room?
  nextRoom := h.nextRoom

/-! ## What leaves the registry alone -/

/-- The registry sees neither acts nor schedulers. -/
theorem detached_registry : Detached registry where
  acts _ _ := rfl
  pool _ _ := rfl

/-- In particular it does not see what is sent. -/
theorem wireless_registry : Wireless registry := detached_registry.toWireless

/-- Nor does it see bans. -/
theorem registry_ban (h : Hall) (host : Host) : (h.ban host).registry = h.registry := by
  unfold ban
  split
  · rfl
  · dsimp only; split <;> rfl

/-! ## One entry at a time -/

section entries

variable (h : Hall)

@[simp] theorem registry_updateSession (c : Int) (f : Session → Session) :
    (h.updateSession c f).registry = h.registry.updateSession c f := by
  have hm := Assoc.get?_update_eq h.sessions c f
  exact congrArg (fun m => { h.registry with session := m }) hm

@[simp] theorem registry_updateRoom (r : Int) (f : Room → Room) :
    (h.updateRoom r f).registry = h.registry.updateRoom r f := by
  have hm := Assoc.get?_update_eq h.rooms r f
  exact congrArg (fun m => { h.registry with room := m }) hm

/-- A session that is written into the table is the one entry that changes. -/
theorem registry_setSession (c : Int) (s : Session) :
    ({ h with sessions := Assoc.set h.sessions c s } : Hall).registry
      = h.registry.setSession c (some s) := by
  have hm := Assoc.get?_set_eq h.sessions c s
  exact congrArg (fun m => { h.registry with session := m }) hm

theorem registry_eraseSession (c : Int) :
    ({ h with sessions := Assoc.erase h.sessions c } : Hall).registry
      = h.registry.setSession c none := by
  have hm := Assoc.get?_erase_eq h.sessions c
  exact congrArg (fun m => { h.registry with session := m }) hm

theorem registry_setPending (c : Int) (l : Link) :
    ({ h with pending := Assoc.set h.pending c l } : Hall).registry
      = h.registry.setPending c (some l) := by
  have hm := Assoc.get?_set_eq h.pending c l
  exact congrArg (fun m => { h.registry with pending := m }) hm

theorem registry_erasePending (c : Int) :
    ({ h with pending := Assoc.erase h.pending c } : Hall).registry
      = h.registry.setPending c none := by
  have hm := Assoc.get?_erase_eq h.pending c
  exact congrArg (fun m => { h.registry with pending := m }) hm

/-- So is a room. -/
theorem registry_setRoom (r : Int) (x : Room) :
    ({ h with rooms := Assoc.set h.rooms r x } : Hall).registry
      = h.registry.setRoom r (some x) := by
  have hm := Assoc.get?_set_eq h.rooms r x
  exact congrArg (fun m => { h.registry with room := m }) hm

theorem registry_eraseRoom (r : Int) :
    ({ h with rooms := Assoc.erase h.rooms r } : Hall).registry = h.registry.setRoom r none := by
  have hm := Assoc.get?_erase_eq h.rooms r
  exact congrArg (fun m => { h.registry with room := m }) hm

end entries

/-! ## The operations -/

section operations

variable (h : Hall)

/-- A new connection takes the next number and is pending under it. -/
theorem registry_accept (host : Host) :
    (h.accept host).registry =
      { h.registry with lastConnection := h.nextConnection }.setPending h.nextConnection
        (some ⟨Router.new h.now, host, true, false, false⟩) := by
  unfold accept
  dsimp only
  rw [registry_setPending, wireless_registry.deliver]
  rfl

/-- A connection that has not signed up in time is pending no more. -/
theorem registry_expireSignUp (c : Int) :
    (h.expireSignUp c).registry = h.registry.setPending c none := by
  unfold expireSignUp
  cases hl : Assoc.get? h.pending c with
  | none =>
      dsimp only
      rw [← registry_erasePending]
      have hm : Assoc.get? (Assoc.erase h.pending c) = Assoc.get? h.pending := by
        rw [Assoc.get?_erase_eq, ← hl, Function.update_eq_self]
      exact (congrArg (fun m => { h.registry with pending := m }) hm).symm
  | some l =>
      dsimp only
      rw [wireless_registry.hangUp, registry_erasePending]

/-- The queue of a connection is shut whether it has signed up or not. -/
theorem registry_shut (c : Int) : (h.shut c).registry
    = ({ h with pending := Assoc.update h.pending c fun l => { l with isOpen := false } } :
        Hall).registry.updateSession c fun s => { s with link := { s.link with isOpen := false } } := by
  rw [← registry_updateSession]
  rfl

/-- A seat is noted in the session of the player and in the list of the room. -/
theorem registry_seat (c r : Int) (s : Session) (x : Room) :
    (h.seat c r s x).registry = h.registry.seat c r := by
  simp [seat, Registry.seat, wireless_registry.notify, detached_registry.signal]

theorem registry_watch (c r : Int) (s : Session) (x : Room) :
    (h.watch c r s x).registry = h.registry.watch c r := by
  simp [watch, Registry.watch, wireless_registry.notify, detached_registry.signal]

/-- A new room is empty, and stands under the number that was the next. -/
theorem registry_place (id : Int) (name : String) :
    (h.place id name).2.registry = h.registry.openRoom ⟨name, id, [], []⟩ := by
  unfold place
  dsimp only
  rw [registry_setRoom, detached_registry.signal]
  rfl

/-- Whoever watched a room that ends watches no more. -/
theorem registry_releaseObserver (c : Int) :
    (h.releaseObserver c).registry
      = h.registry.setSession c ((h.registry.session c).bind fun s => some (Registry.unwatched s)) := by
  simp only [releaseObserver, wireless_registry.notify, registry_updateSession, Registry.updateSession,
    Option.map_eq_bind]
  rfl

/-- A player whose room ends is back in the lobby, or is gone with the session. A ban makes no difference. -/
theorem registry_releasePlayer (runaway : Bool) (c : Int) :
    (h.releasePlayer runaway c).registry
      = h.registry.setSession c ((h.registry.session c).bind Registry.released) := by
  unfold releasePlayer
  change _ = h.registry.setSession c ((h.session? c).bind Registry.released)
  cases hs : h.session? c with
  | none =>
      have hself : Function.update h.registry.session c none = h.registry.session := by
        rw [← hs]
        exact Function.update_eq_self c h.session?
      exact (congrArg (fun m => { h.registry with session := m }) hself).symm
  | some s =>
      dsimp only
      by_cases hon : s.isOnline = true
      · have hsome : h.registry.session c = some s := hs
        rw [if_pos hon, wireless_registry.notify, registry_updateSession, Registry.updateSession, hsome]
        simp [Registry.released, hon]
      · rw [if_neg hon, registry_eraseSession]
        have hban : (if runaway = true then h.ban s.link.host else h).registry = h.registry := by
          split
          · exact registry_ban h _
          · rfl
        rw [hban]
        simp [Registry.released, hon]

/-- **The end of a room.** Observers go first, then players, and the scheduler does not matter. -/
theorem registry_finish (r : Int) (x : Room) :
    (h.finish r x).registry = h.registry.endRoom r x := by
  -- each list is released one by one, which amends all its sessions at once
  have hobservers : ∀ (l : List Int) (h : Hall), (l.foldl releaseObserver h).registry
      = h.registry.amend l fun s => some (Registry.unwatched s) := by
    intro l h
    rw [← Registry.foldl_setSession (by intro s s' hs; cases hs; rfl) l h.registry]
    exact (List.foldl_hom registry fun h c => (registry_releaseObserver h c).symm).symm
  have hplayers : ∀ (runaway : Bool) (l : List Int) (h : Hall),
      (l.foldl (releasePlayer runaway) h).registry = h.registry.amend l Registry.released := by
    intro runaway l h
    rw [← Registry.foldl_setSession Registry.released_released l h.registry]
    exact (List.foldl_hom registry fun h c => (registry_releasePlayer h runaway c).symm).symm
  unfold finish
  dsimp only
  rw [detached_registry.releaseScheduler, hplayers, detached_registry.askCurrent, hobservers, registry_eraseRoom]
  rfl

end operations

end Hall

end GameHall
