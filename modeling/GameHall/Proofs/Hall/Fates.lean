import GameHall.Proofs.Hall.Breakdown

/-!
# What one event does to one connection

`Fate` lists what may become of a connection in an event: how it is known afterwards, and what it is sent.
Every event is one of these for every connection (`fate_step`), but those by which an engine has a player
notified or asked. A connection whose number is not shared stands in one list at most, so nothing
happens to it twice.

What a player is told goes with where the player is: to enter a room is to be told so, and so is to be
in the lobby again.
-/

namespace GameHall

namespace Session

/-- Where the player is, and whether frames still go out. -/
def footing (s : Session) : Bool × Int × Option Int := (s.link.sends, s.room, s.observing)

/-- The player leaves the lobby for a room, to sit there or to watch. -/
structure Enters (s s' : Session) : Prop where
  sends : s'.link.sends = s.link.sends
  before : s.inLobby = true
  after : s'.inLobby = false

/-- The player watches no more, or is back from a game that has ended. -/
structure Returns (s s' : Session) : Prop where
  sends : s'.link.sends = s.link.sends
  before : s.room = lobbyRoom ∧ s.observing.isSome = true
    ∨ s.room ≠ lobbyRoom ∧ s.observing = none ∧ s.isOnline = true
  after : s'.inLobby = true

end Session

/-- What may precede the end of a room. -/
inductive Apology : List Mail → Prop where
  | none : Apology []
  | dialog (payload : Octets) : Apology [.note "ErrorDlg" payload]

namespace Hall

/-- What an engine asks to be sent to a player. -/
def Event.isAsked : Event → Bool
  | effect (.notify ..) => true
  | effect (.request ..) => true
  | _ => false

/-- What may become of a connection in an event. -/
inductive Fate (c : Int) (e : Event) (D : Dossier) : Dossier → Prop where
  /-- Nothing is sent, and the player stays where it was. -/
  | still {D' : Dossier} (hmail : D'.mail = D.mail)
      (hpending : D'.pending.map Link.sends = D.pending.map Link.sends)
      (hbrief : e = .shutSoon c ∨ D'.pending.map Link.isBrief = D.pending.map Link.isBrief)
      (hsession : D'.session.map Session.footing = D.session.map Session.footing) : Fate c e D D'
  | come {l : Link} {payload : Octets} (he : e.isAccept = true) (hl : l.sends = true)
      (hbrief : l.isBrief = false) (hpending : D.pending = none) (hsession : D.session = none) :
      Fate c e D ⟨some l, none, D.mail ++ [.note "NetworkDelayTest" payload]⟩
  /-- The time to sign up is over. -/
  | expire {l : Link} (hl : D.pending = some l) :
      Fate c e D ⟨none, D.session, D.mail ++ l.posts [.close]⟩
  | refuse {l : Link} {payload : Octets} (hl : D.pending = some l) :
      Fate c e D ⟨none, D.session, D.mail ++ l.posts [.note "ErrorDlg" payload, .close]⟩
  /-- The connection is not pending any more, but it was not there any more either. -/
  | lapse {l : Link} (hl : D.pending = some l) (hgone : e = .closed c ∨ l.sends = false) :
      Fate c e D ⟨none, D.session, D.mail⟩
  | greet {l : Link} {s : Session} {setup settings : Octets} (hl : D.pending = some l)
      (hbrief : l.isBrief = false) (hs : s.link = l) (hlobby : s.inLobby = true) :
      Fate c e D ⟨none, some s, D.mail ++ l.posts [.note "Setup" setup,
        .note "SetServerSettings" settings]⟩
  /-- The queue shuts in the middle of the greeting. -/
  | cut {l : Link} {setup : Octets} (hl : D.pending = some l) (hbrief : l.isBrief = true) :
      Fate c e D ⟨none, D.session, D.mail ++ l.posts [.note "Setup" setup, .close]⟩
  /-- Frames go out no more. -/
  | shut {D' : Dossier} (he : e = .shut c) (hmail : D'.mail = D.mail)
      (hpending : D'.pending.map Link.sends = D.pending.map fun _ => false)
      (hbrief : D'.pending.map Link.isBrief = D.pending.map Link.isBrief)
      (hsession : D'.session.map Session.footing
        = D.session.map fun s => (false, s.room, s.observing)) : Fate c e D D'
  | kick {s s' : Session} (hs : D.session = some s)
      (hsame : s'.footing = (false, s.room, s.observing)) :
      Fate c e D ⟨D.pending, some s', D.mail ++ s.link.posts [.close]⟩
  | kickPending {l l' : Link} (hl : D.pending = some l) (hs : D.session = none)
      (hclosed : l'.sends = false) (hbrief : l'.isBrief = l.isBrief) : Fate c e D ⟨some l', none, D.mail ++ l.posts [.close]⟩
  | warn {s : Session} {payload : Octets} (hs : D.session = some s) :
      Fate c e D (D.post s.link [.note "ErrorDlg" payload])
  | enter {s s' : Session} {payload : Octets} (hs : D.session = some s) (henters : s.Enters s') :
      Fate c e D ⟨D.pending, some s', D.mail ++ s.link.posts [.note "EnterRoom" payload]⟩
  | back {s s' : Session} {first : List Mail} (hs : D.session = some s) (hreturns : s.Returns s')
      (hfirst : Apology first) :
      Fate c e D ⟨D.pending, some s', D.mail ++ s.link.posts (first ++ [.note "EnterLobby" []])⟩
  /-- One who watches is gone. -/
  | quit {s : Session} (hs : D.session = some s) (hview : s.observing.isSome = true) :
      Fate c e D ⟨D.pending, none, D.mail ++ s.link.posts [.note "EnterLobby" []]⟩
  /-- One who is gone loses the session. -/
  | drop {s : Session} {first : List Mail} (hs : D.session = some s) (hview : s.observing = none)
      (hfirst : Apology first) : Fate c e D ⟨D.pending, none, D.mail ++ s.link.posts first⟩

section fates

variable {h : Hall} {c d r : Int} {e : Event} {D D' : Dossier} {s : Session} {x : Room}

theorem fate_of_eq (heq : D' = D) : Fate c e D D' := by
  subst heq
  exact .still rfl rfl (Or.inr rfl) rfl

theorem posts_nil (l : Link) : l.posts [] = [] := ite_self _

/-- A session may change in anything but its footing. -/
theorem fate_of_update {f : Session → Session} (hf : ∀ s, (f s).footing = s.footing) :
    Fate c e D (D.update f) := by
  refine .still rfl rfl (Or.inr rfl) ?_
  rw [Dossier.update, Option.map_map]
  exact congrArg (Option.map · D.session) (funext hf)

/-! ## The end of a room -/

/-- A player is back from a game that has ended, or is gone. -/
theorem fate_of_release (hs : D.session = some s) (hroom : s.room ≠ lobbyRoom)
    (hview : s.observing = none) {first : List Mail} (hfirst : Apology first) :
    Fate c e D (D.post s.link first).release := by
  have hs' : (D.post s.link first).session = some s := hs
  cases honline : s.isOnline with
  | true =>
      rw [Dossier.release_of_online hs' honline, Dossier.post, List.append_assoc, ← Link.posts_append]
      refine .back hs ⟨rfl, Or.inr ⟨hroom, hview, honline⟩, ?_⟩ hfirst
      exact Registry.inLobby_iff.mpr ⟨rfl, hview⟩
  | false =>
      rw [Dossier.release_of_offline hs' honline]
      exact .drop hs hview hfirst

/-- Someone watches no more. -/
theorem fate_of_unwatch (hs : D.session = some s) (hroom : s.room = lobbyRoom)
    (hview : s.observing.isSome = true) {first : List Mail} (hfirst : Apology first) :
    Fate c e D (D.post s.link first).unwatch := by
  have hs' : (D.post s.link first).session = some s := hs
  rw [Dossier.unwatch_of_some hs', Dossier.post, List.append_assoc, ← Link.posts_append]
  refine .back hs ⟨rfl, Or.inl ⟨hroom, hview⟩, ?_⟩ hfirst
  exact Registry.inLobby_iff.mpr ⟨hroom, rfl⟩

theorem post_nil (D : Dossier) (l : Link) : D.post l [] = D := by
  rw [Dossier.post, posts_nil, List.append_nil]

theorem seat_ne_lobby (ht : h.registry.Tracked c) (hx : h.room? r = some x) : r ≠ lobbyRoom :=
  Int.ne_of_gt (ht.rooms r x hx).1

/-- **A connection is released from a room that ends**, if the room lists it. -/
theorem fate_of_ended (ht : h.registry.Tracked c) (hunrepeated : h.registry.Unrepeated c)
    (hx : h.room? r = some x) : Fate c e (h.dossier c)
      (Dossier.release^[x.players.count c] (Dossier.unwatch^[x.observers.count c] (h.dossier c))) := by
  rcases Registry.listed_cases ht hunrepeated hx with ⟨s, hs, hroom, hview, honce, hobserver⟩ |
    ⟨s, hs, hroom, hview, hplayer, honce⟩ | ⟨hplayer, hobserver⟩
  · rw [honce, List.count_eq_zero.mpr hobserver]
    have hne : s.room ≠ lobbyRoom := hroom ▸ seat_ne_lobby ht hx
    have hfate := fate_of_release (c := c) (e := e) (D := h.dossier c) hs hne hview .none
    rwa [post_nil] at hfate
  · rw [honce, List.count_eq_zero.mpr hplayer]
    have hfate := fate_of_unwatch (c := c) (e := e) (D := h.dossier c) hs hroom
      (by rw [hview]; rfl) .none
    rwa [post_nil] at hfate
  · rw [List.count_eq_zero.mpr hplayer, List.count_eq_zero.mpr hobserver]
    exact fate_of_eq rfl

/-- A room that is to end lists the connection or does not, or is not there. -/
theorem fate_finishRoom (ht : h.registry.Tracked c) (hunrepeated : h.registry.Unrepeated c) (r : Int) :
    Fate c e (h.dossier c) ((h.finishRoom r).2.dossier c) := by
  unfold finishRoom
  split
  · exact fate_of_eq rfl
  · rename_i x hx
    rw [dossier_finish]
    exact fate_of_ended ht hunrepeated (existingRoom_ok hx)

/-- An engine that is gone concerns the connection in one room at most. -/
theorem fate_schedulerFailed (hb : h.ledger.Balanced) (ht : h.registry.Tracked c)
    (hunrepeated : h.registry.Unrepeated c) (id : Int) :
    Fate c e (h.dossier c) ((h.schedulerFailed id).dossier c) := by
  by_cases hapart : h.Apart id c
  · refine fate_of_eq ?_
    rw [schedulerFailed, (remote_dossier c).retire]
    exact dossier_loseRooms_of_unlisted fun r hr x hx =>
      hapart r x hx (scheduler_of_roomsOf hb r hr x hx)
  · obtain ⟨r, x, hx, rfl, hlisted⟩ : ∃ r x, h.room? r = some x ∧ x.scheduler = id
        ∧ (c ∈ x.players ∨ c ∈ x.observers) := by
      unfold Apart at hapart
      simp only [not_forall] at hapart
      obtain ⟨r, x, hx, hid, hnot⟩ := hapart
      exact ⟨r, x, hx, hid, by by_contra hnone; exact hnot (not_or.mp hnone)⟩
    rw [dossier_schedulerFailed hb ht hx hlisted]
    rcases Registry.listed_cases ht hunrepeated hx with ⟨s, hs, hroom, hview, honce, hobserver⟩ |
      ⟨s, hs, hroom, hview, hplayer, honce⟩ | ⟨hplayer, hobserver⟩
    · rw [Dossier.lose_of_player honce hobserver, Dossier.showError_of_some (s := s) hs]
      exact fate_of_release hs (hroom ▸ seat_ne_lobby ht hx) hview (.dialog _)
    · rw [Dossier.lose_of_observer hplayer honce, Dossier.showError_of_some (s := s) hs]
      exact fate_of_unwatch hs hroom (by rw [hview]; rfl) (.dialog _)
    · exact absurd hlisted (not_or.mpr ⟨hplayer, hobserver⟩)

/-! ## Admission -/

theorem fate_accept (hfree : h.nextConnection = c → ¬ h.registry.Known c) (host : Host) :
    Fate c (.accept host) (h.dossier c) ((h.accept host).dossier c) := by
  rw [dossier_accept]
  split
  · rename_i hc
    have hunknown := hfree hc
    have hpending : h.registry.pending c = none :=
      Option.not_isSome_iff_eq_none.mp fun hp => hunknown (Or.inl hp)
    have hsession : h.registry.session c = none :=
      Option.not_isSome_iff_eq_none.mp fun hs => hunknown (Or.inr hs)
    rw [show (h.dossier c).post _ _ = (⟨(h.dossier c).pending, none, _⟩ : Dossier) from
      congrArg (Dossier.mk _ · _) hsession]
    exact .come (D := h.dossier c) rfl rfl rfl hpending hsession
  · exact fate_of_eq rfl

theorem fate_expireSignUp (d : Int) :
    Fate c e (h.dossier c) ((h.expireSignUp d).dossier c) := by
  unfold expireSignUp
  split
  · exact fate_of_eq rfl
  · rename_i l hl
    rw [dossier_hangUp, dossier_erasePending]
    split
    · rename_i hd
      exact .expire (D := h.dossier c) (hd ▸ hl)
    · exact fate_of_eq rfl

theorem post_post (D : Dossier) (l : Link) (first second : List Mail) :
    (D.post l first).post l second = D.post l (first ++ second) := by
  rw [Dossier.post, Dossier.post, Dossier.post, List.append_assoc, ← Link.posts_append]

/-- A frame goes out and the connection is closed. -/
theorem dossier_deliver_hangUp (l : Link) (record : Record) :
    ((h.deliver c l record).hangUp c l).dossier c = (h.dossier c).post l [.frame record, .close] := by
  rw [dossier_hangUp, if_pos rfl, dossier_deliver, if_pos rfl, post_post]
  rfl

/-- Whoever is refused is told why and closed. -/
theorem dossier_reject (l : Link) (why : Refusal) : (h.reject c l why).dossier c
    = (h.dossier c).post l [.note "ErrorDlg" (Datum.text why.message).write, .close] :=
  dossier_deliver_hangUp l _

/-- What comes of a first record, if its connection is there or was there. -/
def Judged (h g : Hall) (c : Int) (l : Link) : Prop :=
  (∃ payload, g.dossier c = (h.dossier c).post l [.note "ErrorDlg" payload, .close])
    ∨ l.isOpen = false ∧ g.dossier c = h.dossier c
    ∨ (l.isBrief = true ∧ ∃ setup, g.dossier c = (h.dossier c).post l [.note "Setup" setup, .close])
    ∨ l.isBrief = false ∧ ∃ s setup settings, s.link = l ∧ s.inLobby = true ∧ g.dossier c
      = { (h.dossier c).post l [.note "Setup" setup, .note "SetServerSettings" settings] with
          session := some s }

theorem judged_signUp (h : Hall) (c : Int) (l : Link) (s : SignUp) (who : Credentials) :
    Judged h (h.signUp c l s who) c l := by
  unfold signUp
  split
  · exact Or.inl ⟨_, dossier_reject l _⟩
  · split
    · dsimp only
      split
      · rename_i hbrief
        exact Or.inr (Or.inr (Or.inl ⟨hbrief, h.setupPayload s who, dossier_deliver_hangUp l _⟩))
      · rename_i hbrief
        refine Or.inr (Or.inr (Or.inr ⟨Bool.eq_false_iff.mpr hbrief, newSession l s who,
          h.setupPayload s who, h.settingsPayload, rfl, rfl, ?_⟩))
        rw [dossier_setSession, if_pos rfl, dossier_deliver, if_pos rfl, dossier_deliver, if_pos rfl,
          post_post]
        rfl
    · rename_i hopen
      exact Or.inr (Or.inl ⟨by simpa using hopen, rfl⟩)

/-- **Who is judged is greeted or refused.** -/
theorem judged_judge (h : Hall) (c : Int) (l : Link) (record : Record) :
    Judged h (h.judge c l record) c l := by
  unfold judge
  split
  · exact Or.inl ⟨_, dossier_reject l _⟩
  · dsimp only
    split
    · exact Or.inl ⟨_, dossier_reject (h := { h with bans := h.currentBans }) l _⟩
    · split
      · exact Or.inl ⟨_, dossier_reject (h := { h with bans := h.currentBans, asked := _ }) l _⟩
      · exact judged_signUp { h with bans := h.currentBans, asked := _ } c l _ _

/-! ## Traffic -/

theorem fate_setRouter (router : Router) : Fate c e (h.dossier c) ((h.setRouter c router).dossier c) := by
  rw [setRouter, dossier_updateSession, if_pos rfl]
  exact fate_of_update fun _ => rfl

/-- What a player says is passed on, or ends the watching. -/
theorem fate_pass (ht : h.registry.Tracked c) (hs : h.session? c = some s) (router : Router)
    (command payload : Octets) :
    Fate c e (h.dossier c) (((h.setRouter c router).pass c s.place command payload).dossier c) := by
  have hset := fate_setRouter (h := h) (c := c) (e := e) router
  cases hplace : s.place with
  | lobby =>
      rw [pass, dossier_act _ c rfl]
      exact hset
  | seated r =>
      rw [pass, (remote_dossier c).forward]
      exact hset
  | watching r =>
      simp only [pass]
      split
      · have hview := watching_of_place hplace
        have hroom := ht.exclusive s hs (by rw [hview]; rfl)
        have hs' : (h.setRouter c router).session? c
            = some { s with link := { s.link with router := router } } := session?_updateSession hs _
        rw [dossier_stopObserving _ c hs' hview, Dossier.unwatch_of_some hs', setRouter,
          dossier_updateSession, if_pos rfl]
        have hreturns : s.Returns (Registry.unwatched { s with link := { s.link with router := router } }) :=
          ⟨rfl, Or.inl ⟨hroom, by rw [hview]; rfl⟩, Registry.inLobby_iff.mpr ⟨hroom, rfl⟩⟩
        exact .back hs hreturns .none
      · rw [(remote_dossier c).forward]
        exact hset

theorem fate_hear (ht : h.registry.Tracked c) (d : Int) (record : Record) :
    Fate c e (h.dossier c) ((h.hear d record).dossier c) := by
  by_cases hd : d = c
  · subst hd
    unfold hear
    split
    · rename_i l hl
      have herased := dossier_erasePending h d d
      rw [if_pos rfl] at herased
      rcases judged_judge { h with pending := Assoc.erase h.pending d } d l record with
        ⟨payload, heq⟩ | ⟨hopen, heq⟩ | ⟨hbrief, setup, heq⟩ |
        ⟨hwhole, s, setup, settings, hlink, hlobby, heq⟩
      · rw [heq, herased]
        exact .refuse (D := h.dossier d) hl
      · rw [heq, herased]
        refine .lapse (D := h.dossier d) hl (Or.inr ?_)
        rw [Link.sends, hopen, Bool.false_and]
      · rw [heq, herased]
        exact .cut (D := h.dossier d) hl hbrief
      · rw [heq, herased]
        exact .greet (D := h.dossier d) hl hwhole hlink hlobby
    · rcases route_cases h d record with heq | ⟨s, router, hs, heq | heq⟩
      · exact fate_of_eq (by rw [heq])
      · rw [heq]
        exact fate_setRouter router
      · rw [heq]
        exact fate_pass ht hs router _ _
  · exact fate_of_eq (dossier_hear_of_ne h (Ne.symm hd) record)

/-! ## The end of a connection -/

/-- A player who does not watch and is gone loses the session. -/
theorem fate_drop (hs : h.session? c = some s) (hview : s.observing = none) :
    Fate c e (h.dossier c) ⟨(h.dossier c).pending, none, (h.dossier c).mail⟩ := by
  have hfate := Fate.drop (c := c) (e := e) (D := h.dossier c) hs hview .none
  rwa [posts_nil, List.append_nil] at hfate

/-- A player who goes from a seat keeps it, unless the room ends with that. -/
theorem fate_leaveSeat (ht : h.registry.Tracked c) (hunrepeated : h.registry.Unrepeated c)
    (hs : h.session? c = some s) (hroom : s.room ≠ lobbyRoom) (hview : s.observing = none) :
    Fate c e (h.dossier c) (((h.updateSession c fun s =>
      { s with link := { s.link with router := s.link.router.setAccepting false } }).leaveSeat c
        s.room).dossier c) := by
  obtain ⟨g, heq, hregistry, hmail, _⟩ := leaveSeat_eq (h.updateSession c fun s =>
    { s with link := { s.link with router := s.link.router.setAccepting false } }) c s.room
  -- until the room is looked at, the player has the seat
  have hg : g.dossier c = (h.dossier c).update fun s => Registry.departed
      { s with link := { s.link with router := s.link.router.setAccepting false } } := by
    rw [dossier, hmail, hregistry, registry_updateSession]
    refine Dossier.ext rfl ?_ rfl
    simp [Registry.updateSession, Registry.setSession, Dossier.update, dossier]
    rfl
  have hstays : Fate c e (h.dossier c) (g.dossier c) := by
    rw [hg]
    exact fate_of_update fun _ => rfl
  rw [heq]
  rcases dossier_checkAbandoned g (d := c) s.room with hsame | ⟨x, hx, _, _, hends⟩
  · rwa [hsame]
  · have hx' : h.registry.room s.room = some x := by
      have hrooms := congrFun (congrArg Registry.room hregistry) s.room
      rw [registry_updateSession] at hrooms
      exact hrooms.symm.trans hx
    rw [hends]
    rcases Registry.listed_cases ht hunrepeated hx' with ⟨_, _, _, _, honce, hobserver⟩ |
      ⟨s', hs', hlobby, _⟩ | ⟨hplayer, hobserver⟩
    · rw [honce, List.count_eq_zero.mpr hobserver]
      have hs' : (g.dossier c).session = some (Registry.departed
          { s with link := { s.link with router := s.link.router.setAccepting false } }) := by
        rw [hg, Dossier.update, show (h.dossier c).session = some s from hs]
        rfl
      show Fate c e _ (g.dossier c).release
      rw [Dossier.release_of_offline hs' rfl, hg]
      exact fate_drop hs hview
    · cases hs.symm.trans hs'
      exact absurd hlobby hroom
    · rw [List.count_eq_zero.mpr hplayer, List.count_eq_zero.mpr hobserver]
      exact hstays

/-- A player who goes keeps a seat, or loses the session. -/
theorem fate_leave (ht : h.registry.Tracked c) (hunrepeated : h.registry.Unrepeated c)
    (hview : ∀ s, h.session? c = some s → s.observing = none) :
    Fate c e (h.dossier c) ((h.leave c).dossier c) := by
  unfold leave
  cases hs : h.session? c with
  | none => exact fate_of_eq rfl
  | some s =>
      dsimp only
      split
      · rw [dossier_eraseSession, if_pos rfl, dossier_updateSession, if_pos rfl]
        exact fate_drop hs (hview s hs)
      · rename_i hroom
        exact fate_leaveSeat ht hunrepeated hs hroom (hview s hs)

theorem fate_closed (ht : h.registry.Tracked c) (hunrepeated : h.registry.Unrepeated c) (d : Int) :
    Fate c (.closed d) (h.dossier c) ((h.closed d).dossier c) := by
  by_cases hd : d = c
  · subst hd
    unfold closed
    split
    · rename_i hpending
      obtain ⟨l, hl⟩ := Option.isSome_iff_exists.mp hpending
      rw [dossier_erasePending, if_pos rfl]
      exact .lapse (D := h.dossier d) hl (Or.inl rfl)
    · by_cases hview : ∀ s, h.session? d = some s → s.observing = none
      · rw [stopObserving_of_none h hview]
        exact fate_leave ht hunrepeated hview
      -- one who watches has no seat, and nothing is left
      · simp only [not_forall] at hview
        obtain ⟨s, hs, hsome⟩ := hview
        obtain ⟨r, hr⟩ := Option.ne_none_iff_exists'.mp hsome
        have hroom := ht.exclusive s hs (by rw [hr]; rfl)
        have hstopped := (dossier_stopObserving h d hs hr).trans (Dossier.unwatch_of_some hs)
        have hs' : (h.stopObserving d).session? d = some (Registry.unwatched s) :=
          congrArg Dossier.session hstopped
        unfold leave
        rw [hs']
        dsimp only
        rw [if_pos (show (Registry.unwatched s).room = lobbyRoom from hroom), dossier_eraseSession,
          if_pos rfl, dossier_updateSession, if_pos rfl, hstopped]
        exact .quit (D := h.dossier d) hs (by rw [hr]; rfl)
  · rcases dossier_closed_of_ne h (Ne.symm hd) with hsame | ⟨x, hforsakes, hends⟩
    · exact fate_of_eq hsame
    · obtain ⟨s, _, _, hx⟩ := hforsakes.seat
      rw [hends]
      exact fate_of_ended ht hunrepeated hx

theorem fate_shut (d : Int) : Fate c (.shut d) (h.dossier c) ((h.shut d).dossier c) := by
  have hpending : ((h.shut d).dossier c).pending = if c = d then
      (h.dossier c).pending.map fun l => { l with isOpen := false } else (h.dossier c).pending :=
    Assoc.get?_update h.pending d c _
  have hsession : ((h.shut d).dossier c).session = if c = d then
      (h.dossier c).session.map fun s => { s with link := { s.link with isOpen := false } }
      else (h.dossier c).session :=
    Assoc.get?_update h.sessions d c _
  by_cases hd : c = d
  · rw [if_pos hd] at hpending hsession
    refine .shut (by rw [hd]) rfl ?_ ?_ ?_
    · rw [hpending, Option.map_map]
      rfl
    · rw [hpending, Option.map_map]
      rfl
    · rw [hsession, Option.map_map]
      rfl
  · rw [if_neg hd] at hpending hsession
    exact fate_of_eq (Dossier.ext hpending hsession rfl)

/-- A queue that will shut behind the next frame has shut behind none yet. -/
theorem fate_shutSoon (d : Int) : Fate c (.shutSoon d) (h.dossier c) ((h.shutSoon d).dossier c) := by
  have hpending : ((h.shutSoon d).dossier c).pending = if c = d then
      (h.dossier c).pending.map fun l => { l with isBrief := true } else (h.dossier c).pending :=
    Assoc.get?_update h.pending d c _
  by_cases hd : c = d
  · rw [if_pos hd] at hpending
    refine .still rfl ?_ (Or.inl (by rw [hd])) rfl
    rw [hpending, Option.map_map]
    rfl
  · rw [if_neg hd] at hpending
    exact fate_of_eq (Dossier.ext hpending rfl rfl)

theorem fate_kick (h : Hall) (c d : Int) :
    Fate c e (h.dossier c) ((h.kick d).dossier c) := by
  by_cases hd : d = c
  · subst hd
    unfold kick
    split
    · rename_i s hs
      rw [dossier_updateSession, if_pos rfl, dossier_hangUp, if_pos rfl, Dossier.update,
        show ((h.dossier d).post s.link [.close]).session = some s from hs]
      refine .kick (D := h.dossier d) hs ?_
      rw [Session.footing, Link.sends, Bool.not_true, Bool.and_false]
    · rename_i hs
      split
      · rename_i l hl
        dsimp only
        rw [dossier_setPending, if_pos rfl, dossier_hangUp, if_pos rfl,
          show (h.dossier d).post l [.close] = (⟨(h.dossier d).pending, none, _⟩ : Dossier) from
            congrArg (Dossier.mk _ · _) hs]
        refine .kickPending (D := h.dossier d) hl hs ?_ rfl
        rw [Link.sends, Bool.not_true, Bool.and_false]
      · exact fate_of_eq rfl
  · exact fate_of_eq (dossier_kick_of_ne h c d hd)

theorem fate_temporarilyBan (h : Hall) (c d : Int) :
    Fate c e (h.dossier c) ((h.temporarilyBan d).dossier c) := by
  unfold temporarilyBan
  dsimp only
  split
  · rename_i l _
    have hkick := fate_kick (e := e) (h.ban l.host) c d
    rwa [dossier_ban] at hkick
  · exact fate_kick h c d

/-! ## Rooms -/

/-- Who enters a room was in the lobby, and is told. -/
theorem fate_of_enter (hs : D.session = some s) (hlobby : s.inLobby = true) {f : Session → Session}
    (hlink : (f s).link = s.link) (hafter : (f s).inLobby = false) (r : Int) (name : String) :
    Fate c e D (D.enter f r name) := by
  have hs' : (D.update f).session = some (f s) := by
    rw [Dossier.update, hs]
    rfl
  rw [Dossier.enter, Dossier.tell_of_some hs', hlink, show (D.update f).post s.link _
    = (⟨D.pending, some (f s), _⟩ : Dossier) from congrArg (Dossier.mk _ · _) hs']
  exact .enter hs ⟨by rw [hlink], hlobby, hafter⟩

theorem fate_seat {g : Hall} (hg : g.dossier c = h.dossier c) (hs : h.session? d = some s)
    (hlobby : s.inLobby = true) (hr : r ≠ lobbyRoom) (s' : Session) (x : Room) :
    Fate c e (h.dossier c) ((g.seat d r s' x).dossier c) := by
  rw [dossier_seat, hg]
  split
  · rename_i hd
    subst hd
    refine fate_of_enter hs hlobby rfl ?_ r x.name
    exact Bool.eq_false_iff.mpr fun hin => hr (Registry.inLobby_iff.mp hin).1
  · exact fate_of_eq rfl

/-- A seat is given to one who is in the lobby, if the room is there. -/
theorem fate_seatPlayer (ht : h.registry.Tracked c) (d r : Int) :
    Fate c e (h.dossier c) ((h.seatPlayer d r).2.dossier c) := by
  unfold seatPlayer
  split
  · exact fate_of_eq rfl
  · exact fate_of_eq rfl
  · rename_i s x hsess hroom
    obtain ⟨hs, hlobby⟩ := lobbySession_ok hsess
    exact fate_seat rfl hs hlobby (seat_ne_lobby ht (existingRoom_ok hroom)) s x

theorem fate_observeRoom (h : Hall) (c d r : Int) :
    Fate c e (h.dossier c) ((h.observeRoom d r).2.dossier c) := by
  unfold observeRoom
  split
  · exact fate_of_eq rfl
  · exact fate_of_eq rfl
  · rename_i s x hsess hroom
    obtain ⟨hs, hlobby⟩ := lobbySession_ok hsess
    rw [dossier_watch]
    split
    · rename_i hd
      subst hd
      refine fate_of_enter (D := h.dossier d) hs hlobby rfl ?_ r x.name
      exact Bool.eq_false_iff.mpr fun hin => nomatch (Registry.inLobby_iff.mp hin).2
    · exact fate_of_eq rfl

/-- A room is made, which nobody notices, and its owner takes a seat. -/
theorem fate_createRoom (ht : h.registry.Tracked c) (owner : Int) (name : String) (canSpawn : Bool) :
    Fate c e (h.dossier c) ((h.createRoom owner name canSpawn).2.dossier c) := by
  unfold createRoom
  split
  · exact fate_of_eq rfl
  · rename_i s hsess
    obtain ⟨hs, hlobby⟩ := lobbySession_ok hsess
    -- sweeping and spawning send nothing to connections, so it is the seat that counts
    have hnext : h.sweep.nextRoom = h.nextRoom := congrArg Registry.nextRoom (detached_registry.sweep h)
    unfold makeRoom
    split
    rename_i id fresh pool _
    split
    · exact fate_of_eq ((remote_dossier c).sweep h)
    · dsimp only
      refine fate_seat ?_ hs hlobby ?_ _ _
      · refine ((remote_dossier c).signal _ id _).trans ?_
        refine Eq.trans ?_ ((remote_dossier c).sweep h)
        split
        · exact dossier_act { h.sweep with pool := pool } c (a := .spawn id) rfl
        · rfl
      · have hopened := ht.opened
        show (if _ then _ else _ : Hall).nextRoom ≠ lobbyRoom
        split <;> exact Int.ne_of_gt (hnext ▸ hopened)

theorem fate_put (ht : h.registry.Tracked c) (d : Int) (canSpawn : Bool) (request : Lobby.Request) :
    Fate c e (h.dossier c) ((request.put h d canSpawn).2.dossier c) := by
  cases request with
  | createRoom name =>
      rw [Lobby.Request.put_createRoom]
      exact fate_createRoom ht d name canSpawn
  | enterRoom r => exact fate_seatPlayer ht d r
  | observeRoom r => exact fate_observeRoom h c d r
  | malformed words => exact fate_of_eq rfl

/-! ## Every event -/

theorem fate_showError (h : Hall) (c d : Int) (words : String) :
    Fate c e (h.dossier c) ((h.showError d words).dossier c) := by
  rw [dossier_showError]
  split
  · cases hs : (h.dossier c).session with
    | none => exact fate_of_eq (Dossier.tell_of_none hs _ _)
    | some s =>
        rw [Dossier.showError_of_some hs]
        exact .warn hs
  · exact fate_of_eq rfl

theorem fate_updateSession (d : Int) {f : Session → Session} (hf : ∀ s, (f s).footing = s.footing) :
    Fate c e (h.dossier c) ((h.updateSession d f).dossier c) := by
  rw [dossier_updateSession]
  split
  · exact fate_of_update hf
  · exact fate_of_eq rfl

theorem fate_effect (call : HostCall) (hasked : (Event.effect call).isAsked = false) :
    Fate c (.effect call) (h.dossier c) ((h.effect call).dossier c) := by
  cases call with
  | notify => cases hasked
  | request => cases hasked
  | setThinking d value => exact fate_updateSession d fun _ => rfl
  | setDied d value => exact fate_updateSession d fun _ => rfl
  | kick d => exact fate_kick h c d
  | ban d => exact fate_temporarilyBan h c d
  | _ => exact fate_of_eq rfl

/-- **Every event is a fate for every connection**, if no new connection gets its number. -/
theorem fate_take (hb : h.ledger.Balanced) (ht : h.registry.Tracked c) (hunrepeated : h.registry.Unrepeated c)
    (hfree : e.isAccept = true → h.nextConnection = c → ¬ h.registry.Known c)
    (hasked : e.isAsked = false) : Fate c e (h.dossier c) ((h.take e).dossier c) := by
  cases e with
  | pass span => exact fate_of_eq rfl
  | accept host => exact fate_accept (hfree rfl) host
  | expireSignUp d => exact fate_expireSignUp d
  | record d record => exact fate_hear ht d record
  | closed d => exact fate_closed ht hunrepeated d
  | shut d => exact fate_shut d
  | shutSoon d => exact fate_shutSoon d
  | lobby d request canSpawn => exact fate_put ht d canSpawn request
  | showError d words => exact fate_showError h c d words
  | createRoom owner name canSpawn => exact fate_createRoom ht owner name canSpawn
  | seatPlayer d r => exact fate_seatPlayer ht d r
  | observeRoom d r => exact fate_observeRoom h c d r
  | finishRoom r => exact fate_finishRoom ht hunrepeated r
  | engineUp id => exact fate_of_eq rfl
  | engineDown id => exact fate_of_eq rfl
  | startupOver id => exact fate_of_eq rfl
  | schedulerFailed id => exact fate_schedulerFailed hb ht hunrepeated id
  | refreshFingerprint reading => exact fate_of_eq (dossier_refreshFingerprint h c reading)
  | reloadSettings reading => exact fate_of_eq (by cases reading <;> rfl)
  | effect call => exact fate_effect call hasked
  | kick d => exact fate_kick h c d
  | temporarilyBan d => exact fate_temporarilyBan h c d

/-- **Every event is a fate** for every connection, if a new one takes a number that nobody has. -/
theorem fate_step (hb : h.ledger.Balanced) (ht : h.registry.Tracked c) (hunrepeated : h.registry.Unrepeated c)
    (hfree : e.isAccept = true → h.crashed = false → h.nextConnection = c → ¬ h.registry.Known c)
    (hasked : e.isAsked = false) : Fate c e (h.dossier c) ((h.step e).dossier c) := by
  cases hcrashed : h.crashed with
  | true => exact fate_of_eq (by rw [step_of_crashed hcrashed])
  | false =>
      rw [step, hcrashed]
      exact fate_take hb ht hunrepeated (fun he => hfree he hcrashed) hasked

/-- What an engine asks to be sent to a player: it moves nobody, and goes to none but players. -/
structure Aside (D D' : Dossier) : Prop where
  pending : D'.pending = D.pending
  session : D'.session.map Session.footing = D.session.map Session.footing
  mail : ∃ new, D'.mail = D.mail ++ new ∧ (D.session = none → new = [])

theorem aside_of_eq (heq : D' = D) : Aside D D' := by
  subst heq
  exact ⟨rfl, rfl, [], (List.append_nil _).symm, fun _ => rfl⟩

/-- **An engine moves nobody by what it has sent to a player.** -/
theorem aside_take (h : Hall) (c : Int) (hasked : e.isAsked = true) :
    Aside (h.dossier c) ((h.take e).dossier c) := by
  -- only notices and requests are asked of the hall by rooms
  cases e with
  | effect call =>
      cases call with
      | notify d command payload =>
          show Aside _ ((h.effect (.notify d command payload)).dossier c)
          unfold effect
          dsimp only
          split
          · rename_i s hs
            rw [dossier_deliver]
            split
            · rename_i hd
              have hs' : (h.dossier c).session = some s := hd ▸ hs
              exact ⟨rfl, rfl, _, rfl, fun hnone => nomatch hnone.symm.trans hs'⟩
            · exact aside_of_eq rfl
          · exact aside_of_eq rfl
      | request d command payload timeout timestamp =>
          show Aside _ ((h.ask d command payload timeout timestamp).dossier c)
          unfold ask
          split
          · exact aside_of_eq rfl
          · rename_i s hs
            dsimp only
            rw [dossier_deliver, dossier_updateSession]
            split
            · rename_i hd
              have hs' : (h.dossier c).session = some s := hd ▸ hs
              refine ⟨rfl, ?_, _, rfl, fun hnone => nomatch hnone.symm.trans hs'⟩
              refine (Option.map_map ..).trans ?_
              rfl
            · exact aside_of_eq rfl
      | _ => cases hasked
  | _ => cases hasked

theorem aside_step (h : Hall) (c : Int) (hasked : e.isAsked = true) :
    Aside (h.dossier c) ((h.step e).dossier c) := by
  rcases step_cases h e with heq | heq
  · exact aside_of_eq (by rw [heq])
  · rw [heq]
    exact aside_take h c hasked

end fates

end Hall

end GameHall
