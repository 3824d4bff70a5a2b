import GameHall.Proofs.Hall.Registry
import Mathlib.Logic.Function.Iterate

/-!
# What the hall holds of one connection

A connection is pending or has a session, and it has been sent frames and perhaps been closed. The
dossier of a connection is all of that (`Hall.dossier`). Most operations are about one connection and
leave the dossiers of the others alone; those that go through the players of a room do the same small
thing to each of them (`dossier_foldl`).
-/

namespace GameHall

/-- What a connection is sent: frames, and that it is closed. -/
inductive Mail where
  | frame (record : Record)
  | close
  deriving DecidableEq

/-- A notification. -/
def Mail.note (command : String) (payload : Octets) : Mail :=
  .frame (Router.clientNotification command payload)

/-- What an act is to a connection. -/
def Act.mail? (c : Int) : Act → Option Mail
  | frame d record => if d = c then some (.frame record) else none
  | close d => if d = c then some .close else none
  | _ => none

/-- What goes out of what is put into a link. -/
def Link.posts (l : Link) (mail : List Mail) : List Mail := if l.sends then mail else []

/-- What the hall knows of one connection, and what it has sent it. -/
@[ext]
structure Dossier where
  pending : Option Link
  session : Option Session
  mail : List Mail

namespace Dossier

/-- Sends something over a link. -/
def post (D : Dossier) (l : Link) (mail : List Mail) : Dossier :=
  { D with mail := D.mail ++ l.posts mail }

/-- Notifies the player, if there is a session. -/
def tell (D : Dossier) (command : String) (payload : Octets) : Dossier :=
  match D.session with
  | none => D
  | some s => D.post s.link [.note command payload]

/-- Changes the session, if there is one. -/
def update (D : Dossier) (f : Session → Session) : Dossier :=
  { D with session := D.session.map f }

/-- The player enters a room. -/
def enter (D : Dossier) (f : Session → Session) (room : Int) (name : String) : Dossier :=
  (D.update f).tell "EnterRoom" (Hall.entryPayload room name)

/-- The player watches no more. -/
def unwatch (D : Dossier) : Dossier := (D.update Registry.unwatched).tell "EnterLobby" []

/-- The game of the player has ended. -/
def release (D : Dossier) : Dossier :=
  match D.session with
  | none => D
  | some s =>
    if s.isOnline then
      (D.update fun s => { s with room := lobbyRoom, thinking := false, died := false }).tell
        "EnterLobby" []
    else { D with session := none }

/-- The player is shown an error. -/
def showError (D : Dossier) (words : String) : Dossier := D.tell "ErrorDlg" (Datum.text words).write

section sessions

variable {D : Dossier} {s : Session}

/-- Who has no session is not told. -/
theorem tell_of_none (hs : D.session = none) (command : String) (payload : Octets) :
    D.tell command payload = D := by
  rw [tell, hs]

/-- Who has one is told over its link. -/
theorem tell_of_some (hs : D.session = some s) (command : String) (payload : Octets) :
    D.tell command payload = D.post s.link [.note command payload] := by
  rw [tell, hs]

theorem unwatch_of_some (hs : D.session = some s) :
    D.unwatch = ⟨D.pending, some (Registry.unwatched s),
      D.mail ++ s.link.posts [.note "EnterLobby" []]⟩ := by
  rw [unwatch, tell_of_some (s := Registry.unwatched s) (by rw [update, hs]; rfl), update, hs]
  rfl

/-- A player who is connected is back in the lobby, and is told so once. -/
theorem release_of_online (hs : D.session = some s) (honline : s.isOnline = true) :
    D.release = ⟨D.pending, some { s with room := lobbyRoom, thinking := false, died := false },
      D.mail ++ s.link.posts [.note "EnterLobby" []]⟩ := by
  rw [release, hs]
  dsimp only
  rw [if_pos honline, tell_of_some (s := { s with room := lobbyRoom, thinking := false, died := false })
    (by rw [update, hs]; rfl), update, hs]
  rfl

/-- One who is not loses the session, and there is nobody to tell. -/
theorem release_of_offline (hs : D.session = some s) (hoff : s.isOnline = false) :
    D.release = { D with session := none } := by
  rw [release, hs]
  dsimp only
  rw [if_neg (by simp [hoff])]

theorem showError_of_some (hs : D.session = some s) (words : String) :
    D.showError words = D.post s.link [.note "ErrorDlg" (Datum.text words).write] := tell_of_some hs _ _

end sessions

end Dossier

namespace Hall

/-- What a connection has been sent so far. -/
def mail (h : Hall) (c : Int) : List Mail := h.acts.filterMap (Act.mail? c)

/-- What the hall holds of a connection. -/
def dossier (h : Hall) (c : Int) : Dossier := ⟨h.registry.pending c, h.registry.session c, h.mail c⟩

variable (h : Hall) (c : Int)

/-! ## What no connection notices -/

section frame

/-- An act is mail to the connection that it is sent to. -/
theorem mail_act (a : Act) : (h.act a).mail c = h.mail c ++ (a.mail? c).toList := by
  rw [mail, act, List.filterMap_append, List.filterMap_cons, List.filterMap_nil]
  cases a.mail? c <;> rfl

theorem mail_act_of_none {a : Act} (ha : a.mail? c = none) : (h.act a).mail c = h.mail c := by
  rw [mail_act, ha]
  exact List.append_nil _

/-- What leaves the registry and the mail alone leaves the dossier alone. -/
theorem dossier_of_frame {g : Hall} (hregistry : g.registry = h.registry)
    (hmail : g.mail c = h.mail c) : g.dossier c = h.dossier c := by
  rw [dossier, dossier, hregistry, hmail]

theorem dossier_act {a : Act} (ha : a.mail? c = none) : (h.act a).dossier c = h.dossier c :=
  dossier_of_frame h c (detached_registry.act h a) (mail_act_of_none h c ha)

/-- A connection sees nothing of schedulers. -/
theorem remote_dossier : Remote (dossier · c) where
  unsent h a ha := dossier_act h c (by cases a <;> first | rfl | cases ha)
  pool _ _ := rfl

@[simp] theorem dossier_ban (host : Host) : (h.ban host).dossier c = h.dossier c := by
  unfold ban
  split
  · rfl
  · dsimp only; split <;> rfl

@[simp] theorem dossier_updateRoom (r : Int) (f : Room → Room) :
    (h.updateRoom r f).dossier c = h.dossier c := rfl

/-- Nor of the rules: rooms are woken by signals, and schedulers are told to quit. -/
theorem dossier_refreshFingerprint (reading : Except Fault String) :
    (h.refreshFingerprint reading).2.dossier c = h.dossier c := by
  unfold refreshFingerprint
  split
  · rfl
  · split
    · rfl
    · exact (@view_foldl _ (dossier · c) _ _ (remote_dossier c).wakeOutdated _ _).trans
        ((remote_dossier c).sweep { h with fingerprint := _ })

end frame

/-! ## One connection at a time -/

section single

variable (d : Int)

/-- What is sent to a connection goes into its mail if the link takes it, and nobody else gets it. -/
theorem mail_deliver (l : Link) (record : Record) :
    (h.deliver d l record).mail c = h.mail c ++ if d = c then l.posts [.frame record] else [] := by
  unfold deliver Link.posts
  by_cases hd : d = c
  · split <;> simp [mail_act, Act.mail?, hd]
  · split <;> simp [mail_act, Act.mail?, hd]

theorem mail_hangUp (l : Link) :
    (h.hangUp d l).mail c = h.mail c ++ if d = c then l.posts [.close] else [] := by
  unfold hangUp Link.posts
  by_cases hd : d = c
  · split <;> simp [mail_act, Act.mail?, hd]
  · split <;> simp [mail_act, Act.mail?, hd]

theorem dossier_deliver (l : Link) (record : Record) : (h.deliver d l record).dossier c
    = if d = c then (h.dossier c).post l [.frame record] else h.dossier c := by
  rw [dossier, wireless_registry.deliver, mail_deliver]
  split
  · rfl
  · rw [List.append_nil]; rfl

theorem dossier_hangUp (l : Link) : (h.hangUp d l).dossier c
    = if d = c then (h.dossier c).post l [.close] else h.dossier c := by
  rw [dossier, wireless_registry.hangUp, mail_hangUp]
  split
  · rfl
  · rw [List.append_nil]; rfl

/-- A notification looks for the session itself, so it needs no link. -/
theorem dossier_notify (command : String) (payload : Octets) : (h.notify d command payload).dossier c
    = if d = c then (h.dossier c).tell command payload else h.dossier c := by
  unfold notify
  split
  · rename_i s hs
    rw [dossier_deliver]
    split
    · rename_i hd
      rw [Dossier.tell_of_some (hd ▸ hs)]
      rfl
    · rfl
  · rename_i hs
    split
    · rename_i hd
      rw [Dossier.tell_of_none (hd ▸ hs)]
    · rfl

theorem dossier_showError (words : String) : (h.showError d words).dossier c
    = if d = c then (h.dossier c).showError words else h.dossier c := dossier_notify h c d _ _

/-- A session is changed where it is. -/
theorem dossier_updateSession (f : Session → Session) : (h.updateSession d f).dossier c
    = if d = c then (h.dossier c).update f else h.dossier c := by
  rw [dossier, registry_updateSession]
  split
  · rename_i hd
    subst hd
    simp [Registry.updateSession, Registry.setSession, Dossier.update, dossier]
    rfl
  · rename_i hd
    simp [Registry.updateSession, Registry.setSession, Ne.symm hd]
    rfl

/-- What is done to a player and then told. -/
theorem dossier_updateSession_notify (f : Session → Session) (command : String) (payload : Octets) :
    ((h.updateSession d f).notify d command payload).dossier c
      = if d = c then ((h.dossier c).update f).tell command payload else h.dossier c := by
  rw [dossier_notify, dossier_updateSession]
  split <;> rfl

theorem dossier_setSession (s : Session) : ({ h with sessions := Assoc.set h.sessions d s } : Hall).dossier c
    = if d = c then { h.dossier c with session := some s } else h.dossier c := by
  rw [dossier, registry_setSession]
  split
  · rename_i hd
    subst hd
    simp [Registry.setSession, dossier]
    rfl
  · rename_i hd
    simp [Registry.setSession, Ne.symm hd]
    rfl

theorem dossier_setPending (l : Link) : ({ h with pending := Assoc.set h.pending d l } : Hall).dossier c
    = if d = c then { h.dossier c with pending := some l } else h.dossier c := by
  rw [dossier, registry_setPending]
  split
  · rename_i hd
    subst hd
    simp [Registry.setPending, dossier]
    rfl
  · rename_i hd
    simp [Registry.setPending, Ne.symm hd]
    rfl

theorem dossier_eraseSession : ({ h with sessions := Assoc.erase h.sessions d } : Hall).dossier c
    = if d = c then { h.dossier c with session := none } else h.dossier c := by
  rw [dossier, registry_eraseSession]
  split
  · rename_i hd
    subst hd
    simp [Registry.setSession, dossier]
    rfl
  · rename_i hd
    simp [Registry.setSession, Ne.symm hd]
    rfl

theorem dossier_erasePending : ({ h with pending := Assoc.erase h.pending d } : Hall).dossier c
    = if d = c then { h.dossier c with pending := none } else h.dossier c := by
  rw [dossier, registry_erasePending]
  split
  · rename_i hd
    subst hd
    simp [Registry.setPending, dossier]
    rfl
  · rename_i hd
    simp [Registry.setPending, Ne.symm hd]
    rfl

/-- The link of a new connection. -/
def newLink (host : Host) : Link := ⟨Router.new h.now, host, true, false, false⟩

/-- A new connection is added to what is there under its number. -/
theorem dossier_accept (host : Host) : (h.accept host).dossier c
    = if h.nextConnection = c then
        { (h.dossier c).post (h.newLink host) [.note "NetworkDelayTest" h.authenticator.publicKey] with
          pending := some (h.newLink host) }
      else h.dossier c := by
  unfold accept
  dsimp only
  rw [dossier_setPending, dossier_deliver]
  split <;> rfl

/-- A seat is noted in the session before the player is told of it. -/
theorem dossier_seat (r : Int) (s : Session) (x : Room) : (h.seat d r s x).dossier c
    = if d = c then (h.dossier c).enter (fun s => { s with room := r }) r x.name else h.dossier c := by
  unfold seat
  dsimp only
  rw [dossier_notify, (remote_dossier c).signal, dossier_updateRoom, dossier_updateSession]
  split <;> rfl

theorem dossier_watch (r : Int) (s : Session) (x : Room) : (h.watch d r s x).dossier c
    = if d = c then (h.dossier c).enter (fun s => { s with observing := some r }) r x.name
      else h.dossier c := by
  unfold watch
  dsimp only
  rw [dossier_notify, (remote_dossier c).signal, dossier_updateRoom, dossier_updateSession]
  split <;> rfl

/-- When someone else stops watching, the room and the engine hear of it, and no bystander. -/
theorem dossier_stopObserving_of_ne (hne : d ≠ c) : (h.stopObserving d).dossier c = h.dossier c := by
  unfold stopObserving
  split
  · rfl
  · split
    · rfl
    · dsimp only
      split
      · rw [dossier_updateSession_notify, if_neg hne]
      · rw [(remote_dossier c).signal, dossier_updateRoom, dossier_updateSession_notify, if_neg hne]

/-- A player who watches watches no more. -/
theorem dossier_stopObserving {s : Session} {r : Int} (hs : h.session? c = some s)
    (hview : s.observing = some r) : (h.stopObserving c).dossier c = (h.dossier c).unwatch := by
  unfold stopObserving
  rw [hs]
  dsimp only
  rw [hview]
  dsimp only
  split
  · rw [dossier_updateSession_notify, if_pos rfl]
    rfl
  · rw [(remote_dossier c).signal, dossier_updateRoom, dossier_updateSession_notify, if_pos rfl]
    rfl

theorem dossier_releaseObserver : (h.releaseObserver d).dossier c
    = if d = c then (h.dossier c).unwatch else h.dossier c :=
  dossier_updateSession_notify h c d _ _ _

/-- A player of a room that ends comes home, whether or not it was running away. -/
theorem dossier_releasePlayer (runaway : Bool) : (h.releasePlayer runaway d).dossier c
    = if d = c then (h.dossier c).release else h.dossier c := by
  unfold releasePlayer
  split
  · rename_i hs
    split
    · rename_i hd
      rw [Dossier.release, show (h.dossier c).session = none from hd ▸ hs]
    · rfl
  · rename_i s hs
    split
    · rename_i honline
      dsimp only
      rw [dossier_updateSession_notify]
      split
      · rename_i hd
        rw [Dossier.release, show (h.dossier c).session = some s from hd ▸ hs]
        exact (if_pos honline).symm
      · rfl
    · rename_i honline
      dsimp only
      have hban : (if runaway = true then h.ban s.link.host else h).dossier c = h.dossier c := by
        split
        · exact dossier_ban h c _
        · rfl
      rw [dossier_eraseSession, hban]
      split
      · rename_i hd
        rw [Dossier.release, show (h.dossier c).session = some s from hd ▸ hs]
        exact (if_neg honline).symm
      · rfl

/-- A kick is for one connection only. -/
theorem dossier_kick_of_ne (hne : d ≠ c) : (h.kick d).dossier c = h.dossier c := by
  unfold kick
  split
  · rw [dossier_updateSession, if_neg hne, dossier_hangUp, if_neg hne]
  · split
    · rename_i l _
      dsimp only
      rw [dossier_setPending, if_neg hne, dossier_hangUp, if_neg hne]
    · rfl

end single

/-! ## Everyone in a room -/

/-- What is done to each connection of a list is done to one of them as often as the list has it. -/
theorem dossier_foldl {f : Hall → Int → Hall} {F : Dossier → Dossier}
    (hf : ∀ h d, (f h d).dossier c = if d = c then F (h.dossier c) else h.dossier c) (l : List Int) :
    (l.foldl f h).dossier c = F^[l.count c] (h.dossier c) := by
  induction l generalizing h with
  | nil => rfl
  | cons d l ih =>
      rw [List.foldl_cons, ih, hf, List.count_cons]
      by_cases hd : d = c
      · rw [if_pos hd, if_pos (by simp [hd]), Function.iterate_succ_apply]
      · rw [if_neg hd, if_neg (by simp [hd]), Nat.add_zero]

/-- **The end of a room** is the end of watching for its observers and of the game for its players. -/
theorem dossier_finish (r : Int) (x : Room) : (h.finish r x).dossier c
    = Dossier.release^[x.players.count c] (Dossier.unwatch^[x.observers.count c] (h.dossier c)) := by
  unfold finish
  dsimp only
  rw [(remote_dossier c).releaseScheduler, dossier_foldl _ c (dossier_releasePlayer · c · _)]
  refine congrArg _ ?_
  show ((x.observers.foldl releaseObserver _).askCurrent x.scheduler).dossier c = _
  rw [show ∀ g : Hall, (g.askCurrent x.scheduler).dossier c = g.dossier c from fun _ => rfl,
    dossier_foldl _ c (dossier_releaseObserver · c ·)]
  rfl

end Hall

end GameHall
