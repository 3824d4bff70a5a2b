import GameHall.Proofs.Hall.Consistency
import GameHall.Proofs.Messaging.Replies

/-!
# The routers of a hall

A connection comes with a router of its own, takes it along into the session, and keeps it until the
session goes. In between the router is used for the requests of engines and for the records of the
player, and it stops taking replies when the player goes. Whatever else happens leaves the routers
alone (`Registry.Steady`), so an event tells what it does with the routers of all players (`uses`,
`reroutes_take`).
-/

namespace GameHall

namespace Registry

/-- The router of a player who has signed up. -/
def router? (t : Registry) (c : Int) : Option Router := (t.session c).map fun s => s.link.router

/-- The router of a connection that has not signed up. -/
def pendingRouter? (t : Registry) (c : Int) : Option Router := (t.pending c).map Link.router

/-- The routers are what they were, as far as they are still there. -/
structure Steady (t t' : Registry) : Prop where
  signed : ∀ c r, t'.router? c = some r → t.router? c = some r
  pending : ∀ c r, t'.pendingRouter? c = some r → t.pendingRouter? c = some r

variable {t t' t'' : Registry}

theorem steady_refl (t : Registry) : t.Steady t := ⟨fun _ _ => id, fun _ _ => id⟩

/-- Steadiness is about what is left, so it goes on over any number of steps. -/
theorem steady_trans (h : t.Steady t') (h' : t'.Steady t'') : t.Steady t'' :=
  ⟨fun c r hr => h.signed c r (h'.signed c r hr), fun c r hr => h.pending c r (h'.pending c r hr)⟩

/-- A session that is set has the router that it had. -/
theorem steady_setSession {c : Int} {o : Option Session}
    (ho : ∀ s, o = some s → t.router? c = some s.link.router) : t.Steady (t.setSession c o) where
  signed d r hr := by
    simp only [router?, setSession, Function.update_apply] at hr
    split at hr
    · rename_i hd
      obtain ⟨s, hs, rfl⟩ := Option.map_eq_some_iff.mp hr
      rw [hd]
      exact ho s hs
    · exact hr
  pending _ _ := id

/-- A session may change in anything but its router. -/
theorem steady_updateSession (t : Registry) (c : Int) {f : Session → Session}
    (hf : ∀ s, (f s).link.router = s.link.router) : t.Steady (t.updateSession c f) := by
  refine steady_setSession fun s' hs' => ?_
  obtain ⟨s, hs, rfl⟩ := Option.map_eq_some_iff.mp hs'
  rw [router?, hs, Option.map_some, hf]

/-- A pending connection that is set has the router that it had. -/
theorem steady_setPending {c : Int} {o : Option Link}
    (ho : ∀ l, o = some l → t.pendingRouter? c = some l.router) : t.Steady (t.setPending c o) where
  signed _ _ := id
  pending d r hr := by
    simp only [pendingRouter?, setPending, Function.update_apply] at hr
    split at hr
    · rename_i hd
      obtain ⟨l, hl, rfl⟩ := Option.map_eq_some_iff.mp hr
      rw [hd]
      exact ho l hl
    · exact hr

theorem steady_unpend (t : Registry) (c : Int) : t.Steady (t.setPending c none) :=
  steady_setPending fun _ hl => nomatch hl

/-- Rooms have no routers. -/
theorem steady_setRoom (t : Registry) (r : Int) (x : Option Room) : t.Steady (t.setRoom r x) :=
  ⟨fun _ _ => id, fun _ _ => id⟩

/-- Many sessions may change at once, each in anything but its router. -/
theorem steady_amend (t : Registry) (l : List Int) {g : Session → Option Session}
    (hg : ∀ s s', g s = some s' → s'.link.router = s.link.router) : t.Steady (t.amend l g) where
  signed c r hr := by
    simp only [router?, amend] at hr
    split at hr
    · obtain ⟨s', hs', rfl⟩ := Option.map_eq_some_iff.mp hr
      obtain ⟨s, hs, hgs⟩ := Option.bind_eq_some_iff.mp hs'
      rw [router?, hs, Option.map_some, hg s s' hgs]
    · exact hr
  pending _ _ := id

theorem steady_seat (t : Registry) (c r : Int) : t.Steady (t.seat c r) :=
  have hsit := steady_updateSession t c (f := fun s => { s with room := r }) fun _ => rfl
  steady_trans hsit (steady_setRoom _ r _)

theorem steady_watch (t : Registry) (c r : Int) : t.Steady (t.watch c r) :=
  have hlook := steady_updateSession t c (f := fun s => { s with observing := some r }) fun _ => rfl
  steady_trans hlook (steady_setRoom _ r _)

theorem steady_unwatch (t : Registry) (c r : Int) : t.Steady (t.unwatch c r) :=
  have hleave := steady_updateSession t c (f := unwatched) fun _ => rfl
  steady_trans hleave (steady_setRoom _ r _)

theorem steady_openRoom (t : Registry) (x : Room) : t.Steady (t.openRoom x) :=
  ⟨fun _ _ => id, fun _ _ => id⟩

/-- The end of a room changes where its players are, and their routers stay as they were. -/
theorem steady_endRoom (t : Registry) (r : Int) (x : Room) : t.Steady (t.endRoom r x) := by
  refine steady_trans (steady_trans (steady_setRoom t r none) (steady_amend _ x.observers ?_))
    (steady_amend _ x.players ?_)
  · intro s s' hs
    cases hs
    rfl
  · intro s s' hs
    unfold released at hs
    split at hs
    · cases hs
      rfl
    · cases hs

/-- The router of a player has been used, if it is still there, and the others are what they were. -/
structure Used (c : Int) (uses : Router.History) (t t' : Registry) : Prop where
  signed : ∀ d r', t'.router? d = some r' →
    ∃ r, t.router? d = some r ∧ r' = r.play (if d = c then uses else [])
  pending : ∀ d r, t'.pendingRouter? d = some r → t.pendingRouter? d = some r

variable {c : Int} {uses : Router.History}

/-- A session whose router has been played on is the router of one player used. -/
theorem used_updateSession (t : Registry) {f : Session → Session}
    (hf : ∀ s, t.session c = some s → (f s).link.router = s.link.router.play uses) :
    Used c uses t (t.updateSession c f) where
  signed d r' hr := by
    simp only [router?, updateSession, setSession, Function.update_apply] at hr
    by_cases hd : d = c
    · subst hd
      rw [if_pos rfl, Option.map_map] at hr
      obtain ⟨s, hs, rfl⟩ := Option.map_eq_some_iff.mp hr
      exact ⟨s.link.router, congrArg _ hs, by rw [if_pos rfl]; exact hf s hs⟩
    · rw [if_neg hd] at hr
      exact ⟨r', hr, by rw [if_neg hd]; rfl⟩
  pending _ _ := id

/-- A router may be used after other things have been done, -/
theorem used_after (h : t.Steady t') (h' : Used c uses t' t'') : Used c uses t t'' where
  signed d r' hr := by
    obtain ⟨r, hr, heq⟩ := h'.signed d r' hr
    exact ⟨r, h.signed d r hr, heq⟩
  pending d r hr := h.pending d r (h'.pending d r hr)

/-- or before. -/
theorem used_before (h : Used c uses t t') (h' : t'.Steady t'') : Used c uses t t'' where
  signed d r' hr := h.signed d r' (h'.signed d r' hr)
  pending d r hr := h.pending d r (h'.pending d r hr)

/-- A player who is not there has no router to use. -/
theorem used_absent (hnone : t.session c = none) (h : t.Steady t') : Used c uses t t' where
  signed d r' hr := by
    have hold := h.signed d r' hr
    refine ⟨r', hold, ?_⟩
    rw [if_neg]
    · rfl
    · rintro rfl
      rw [router?, hnone] at hold
      cases hold
  pending := h.pending

end Registry

namespace Hall

open Registry

variable {h g : Hall}

/-! ## What leaves the routers alone -/

/-- What leaves the registry alone leaves the routers alone. -/
theorem steady_of_eq (heq : g.registry = h.registry) : h.registry.Steady g.registry := by
  rw [heq]
  exact steady_refl _

/-- A kick marks a link as closing and keeps its router. -/
theorem steady_kick (h : Hall) (c : Int) : h.registry.Steady (h.kick c).registry := by
  unfold kick
  split
  · rw [registry_updateSession, wireless_registry.hangUp]
    exact steady_updateSession _ c fun _ => rfl
  · split
    · rename_i l hl
      dsimp only
      rw [registry_setPending, wireless_registry.hangUp]
      refine steady_setPending fun l' hl' => ?_
      cases hl'
      exact congrArg (Option.map Link.router) hl
    · exact steady_refl _

theorem steady_temporarilyBan (h : Hall) (c : Int) :
    h.registry.Steady (h.temporarilyBan c).registry := by
  unfold temporarilyBan
  dsimp only
  split
  · rename_i l _
    rw [← registry_ban h l.host]
    exact steady_kick _ c
  · exact steady_kick h c

/-- A pending connection may change in anything but its router. -/
theorem steady_updatePending (h : Hall) (c : Int) {f : Link → Link}
    (hf : ∀ l, (f l).router = l.router) :
    h.registry.Steady ({ h with pending := Assoc.update h.pending c f } : Hall).registry where
  __ := steady_refl h.registry
  pending := by
    intro d r hr
    obtain ⟨l', hl', rfl⟩ := Option.map_eq_some_iff.mp hr
    have hupdate : Assoc.get? (Assoc.update h.pending c f) d = some l' := hl'
    rw [Assoc.get?_update] at hupdate
    split at hupdate
    · obtain ⟨l, hl, rfl⟩ := Option.map_eq_some_iff.mp hupdate
      exact (congrArg (Option.map Link.router) hl).trans (congrArg some (hf l).symm)
    · exact congrArg (Option.map Link.router) hupdate

theorem steady_shut (h : Hall) (c : Int) : h.registry.Steady (h.shut c).registry := by
  rw [registry_shut]
  refine steady_trans (steady_updatePending h c ?_) (steady_updateSession _ c ?_) <;> exact fun _ => rfl

theorem steady_shutSoon (h : Hall) (c : Int) : h.registry.Steady (h.shutSoon c).registry :=
  steady_updatePending h c fun _ => rfl

theorem steady_stopObserving (h : Hall) (c : Int) :
    h.registry.Steady (h.stopObserving c).registry := by
  rcases registry_stopObserving h c with ⟨heq, _⟩ | ⟨_, r, _, _, heq⟩
  · exact steady_of_eq heq
  · rw [heq]
    exact steady_unwatch _ c r

theorem steady_pass (h : Hall) (c : Int) (place : Place) (command payload : Octets) :
    h.registry.Steady (h.pass c place command payload).registry := by
  have hforward : ∀ r, h.registry.Steady (h.forward c r command payload).registry := by
    intro r
    unfold forward
    split
    · exact steady_of_eq (detached_registry.signal h _ _)
    · exact steady_refl _
  cases place with
  | lobby => exact steady_refl _
  | seated r => exact hforward r
  | watching r =>
      simp only [pass]
      split
      · exact steady_stopObserving h c
      · exact hforward r

theorem steady_finish (h : Hall) (r : Int) (x : Room) : h.registry.Steady (h.finish r x).registry := by
  rw [registry_finish]
  exact steady_endRoom _ r x

/-- A room that is to end may not be there, and then nothing changes. -/
theorem steady_finishRoom (h : Hall) (r : Int) : h.registry.Steady (h.finishRoom r).2.registry := by
  unfold finishRoom
  split
  · exact steady_refl _
  · exact steady_finish h r _

theorem steady_checkAbandoned (h : Hall) (r : Int) :
    h.registry.Steady (h.checkAbandoned r).registry := by
  unfold checkAbandoned
  split
  · exact steady_refl _
  · split
    · exact steady_refl _
    · dsimp only
      split
      · exact steady_of_eq ((detached_registry.signal _ _ _).trans (detached_registry.askCurrent h _))
      · exact steady_trans (steady_of_eq (detached_registry.askCurrent h _)) (steady_finishRoom _ r)

/-- A player who leaves a seat is gone, which is not about the router. -/
theorem steady_leaveSeat (h : Hall) (c r : Int) : h.registry.Steady (h.leaveSeat c r).registry := by
  have hgone : h.registry.Steady (h.updateSession c fun s => { s with state := .offline }).registry := by
    rw [registry_updateSession]
    exact steady_updateSession _ c fun _ => rfl
  unfold leaveSeat
  dsimp only
  refine steady_trans hgone (steady_trans ?_ (steady_checkAbandoned _ r))
  split
  · exact steady_refl _
  · exact steady_of_eq ((detached_registry.signal _ _ _).trans (detached_registry.signal _ _ _))

theorem steady_seatPlayer (h : Hall) (c r : Int) :
    h.registry.Steady (h.seatPlayer c r).2.registry := by
  unfold seatPlayer
  split
  · exact steady_refl _
  · exact steady_refl _
  · dsimp only
    rw [registry_seat]
    exact steady_seat _ c r

theorem steady_observeRoom (h : Hall) (c r : Int) :
    h.registry.Steady (h.observeRoom c r).2.registry := by
  unfold observeRoom
  split
  · exact steady_refl _
  · exact steady_refl _
  · dsimp only
    rw [registry_watch]
    exact steady_watch _ c r

/-- A new room is made and its owner is seated. -/
theorem steady_makeRoom (h : Hall) (owner : Int) (s : Session) (name : String) (canSpawn : Bool) :
    h.registry.Steady (h.makeRoom owner s name canSpawn).2.registry := by
  unfold makeRoom
  split
  split
  · exact steady_refl _
  · dsimp only
    rw [registry_seat, registry_place]
    refine steady_trans ?_ (steady_seat _ owner _)
    split
    · exact steady_openRoom h.registry _
    · exact steady_openRoom h.registry _

theorem steady_createRoom (h : Hall) (owner : Int) (name : String) (canSpawn : Bool) :
    h.registry.Steady (h.createRoom owner name canSpawn).2.registry := by
  unfold createRoom
  split
  · exact steady_refl _
  · rw [← detached_registry.sweep h]
    exact steady_makeRoom _ owner _ name canSpawn

theorem steady_put (h : Hall) (c : Int) (canSpawn : Bool) (request : Lobby.Request) :
    h.registry.Steady (request.put h c canSpawn).2.registry := by
  cases request with
  | createRoom name =>
      rw [Lobby.Request.put_createRoom]
      exact steady_createRoom h c name canSpawn
  | enterRoom r => exact steady_seatPlayer h c r
  | observeRoom r => exact steady_observeRoom h c r
  | malformed words => exact steady_refl _

theorem steady_loseRoom (h : Hall) (r : Int) : h.registry.Steady (h.loseRoom r).registry := by
  unfold loseRoom
  split
  · exact steady_refl _
  · rename_i x _
    have hshow : ((x.players ++ x.observers).foldl (fun h c => h.showError c engineGone) h).registry
        = h.registry := view_foldl (fun h c => wireless_registry.showError h c engineGone) h _
    exact steady_trans (steady_of_eq hshow) (steady_finish _ r x)

/-- An engine that has failed costs its players their rooms, and no requests. -/
theorem steady_schedulerFailed (h : Hall) (id : Int) :
    h.registry.Steady (h.schedulerFailed id).registry := by
  have hrooms : ∀ (l : List Int) (h : Hall), h.registry.Steady (l.foldl loseRoom h).registry := by
    intro l
    induction l with
    | nil => exact fun h => steady_refl _
    | cons r l ih => exact fun h => steady_trans (steady_loseRoom h r) (ih _)
  unfold schedulerFailed
  rw [detached_registry.retire]
  exact hrooms _ h

/-! ## What events do with the routers -/

/-- The router of a player who has signed up. -/
def router? (h : Hall) (c : Int) : Option Router := h.registry.router? c

/-- What an event does with the router of a player. The first record of a connection is not for a
router. -/
def uses (h : Hall) (c : Int) : Event → Router.History
  | .effect (.request d _ _ timeout _) => if d = c then [(h.now, .request timeout)] else []
  | .record d record =>
    if d = c ∧ Assoc.has h.pending c = false then [(h.now, .hear record)] else []
  | .closed d => if d = c ∧ Assoc.has h.pending c = false then [(h.now, .setAccepting false)] else []
  | _ => []

/-- What becomes of the routers with an event. -/
structure Reroutes (h : Hall) (e : Event) (g : Hall) : Prop where
  /-- A player has used the router, or has just signed up with the one of the connection. -/
  signed : ∀ c r', g.router? c = some r' → (∃ r, h.router? c = some r ∧ r' = r.play (h.uses c e))
    ∨ h.registry.pendingRouter? c = some r'
  /-- A connection waits with a new router. -/
  pending : ∀ c r', g.registry.pendingRouter? c = some r' →
    h.registry.pendingRouter? c = some r' ∨ ∃ t, r' = Router.new t

/-- An event that uses no router leaves them alone. -/
theorem reroutes_steady {e : Event} (hs : h.registry.Steady g.registry) (he : ∀ c, h.uses c e = []) :
    Reroutes h e g where
  signed c r' hr := Or.inl ⟨r', hs.signed c r' hr, by rw [he]; rfl⟩
  pending c r' hr := Or.inl (hs.pending c r' hr)

/-- An event that uses one router leaves the others alone. -/
theorem reroutes_used {e : Event} {c : Int} (hused : Used c (h.uses c e) h.registry g.registry)
    (hne : ∀ d, d ≠ c → h.uses d e = []) : Reroutes h e g where
  signed d r' hr := by
    obtain ⟨r, hr, heq⟩ := hused.signed d r' hr
    refine Or.inl ⟨r, hr, ?_⟩
    rw [heq]
    by_cases hd : d = c
    · rw [if_pos hd, hd]
    · rw [if_neg hd, hne d hd]
  pending d r' hr := Or.inl (hused.pending d r' hr)

theorem reroutes_ask (h : Hall) (c : Int) (command payload : Octets) (timeout : Int32)
    (timestamp : Option Int64) :
    Reroutes h (.effect (.request c command payload timeout timestamp))
      (h.ask c command payload timeout timestamp) := by
  refine reroutes_used (c := c) ?_ fun d hd => if_neg (Ne.symm hd)
  rw [uses, if_pos rfl]
  unfold ask
  cases hs : h.session? c with
  | none => exact used_absent hs (steady_refl _)
  | some s =>
      dsimp only
      rw [wireless_registry.deliver, registry_updateSession]
      refine used_updateSession _ fun s' hs' => ?_
      cases hs.symm.trans hs'
      rfl

theorem reroutes_route (h : Hall) {c : Int} (hsigned : Assoc.has h.pending c = false)
    (record : Record) : Reroutes h (.record c record) (h.route c record) := by
  refine reroutes_used (c := c) ?_ fun d hd => if_neg fun hc => hd hc.1.symm
  rw [uses, if_pos ⟨rfl, hsigned⟩]
  unfold route
  cases hs : h.session? c with
  | none => exact used_absent hs (steady_refl _)
  | some s =>
      have hupdate : Used c [(h.now, .hear record)] h.registry (h.updateSession c fun s' =>
          { s' with link := { s'.link with router := (s.link.router.hear h.now record).2 } }).registry := by
        rw [registry_updateSession]
        refine used_updateSession _ fun s' hs' => ?_
        cases hs.symm.trans hs'
        rfl
      dsimp only
      split
      · exact hupdate
      · exact used_before hupdate (steady_pass _ c _ _ _)
      · exact used_before hupdate (steady_pass _ c _ _ _)

/-- A connection that signs up takes its router along. -/
theorem reroutes_judge (h : Hall) {c : Int} {l : Link} (hl : Assoc.get? h.pending c = some l)
    (record : Record) : Reroutes h (.record c record)
      ({ h with pending := Assoc.erase h.pending c }.judge c l record) := by
  -- the record is the first one: it is judged, and no router hears it
  have hnone : ∀ d, h.uses d (.record c record) = [] := by
    intro d
    refine if_neg fun hc => ?_
    have hthere := hc.2
    rw [Assoc.has, ← hc.1, hl] at hthere
    cases hthere
  have hunpend := steady_unpend h.registry c
  rcases registry_judge_eq { h with pending := Assoc.erase h.pending c } c l record with
    heq | ⟨s, creds, heq⟩
  · refine reroutes_steady ?_ hnone
    rw [heq, registry_erasePending]
    exact hunpend
  · rw [registry_erasePending] at heq
    exact {
      signed := fun d r' hr => by
        rw [router?, heq] at hr
        simp only [Registry.router?, Registry.setSession, Function.update_apply] at hr
        split at hr
        · rename_i hd
          cases hr
          right
          rw [hd]
          exact congrArg (Option.map Link.router) hl
        · exact Or.inl ⟨r', hr, by rw [hnone]; rfl⟩
      pending := fun d r' hr => by
        rw [heq] at hr
        exact Or.inl (hunpend.pending d r' hr) }

theorem reroutes_hear (h : Hall) (c : Int) (record : Record) :
    Reroutes h (.record c record) (h.hear c record) := by
  unfold hear
  split
  · rename_i l hl
    exact reroutes_judge h hl record
  · rename_i hnone
    exact reroutes_route h (by rw [Assoc.has, hnone]; rfl) record

theorem used_leave (h : Hall) (c : Int) (now : Moment) :
    Used c [(now, .setAccepting false)] h.registry (h.leave c).registry := by
  unfold leave
  cases hs : h.session? c with
  | none => exact used_absent hs (steady_refl _)
  | some s =>
      have hupdate : Used c [(now, .setAccepting false)] h.registry (h.updateSession c fun s =>
          { s with link := { s.link with router := s.link.router.setAccepting false } }).registry := by
        rw [registry_updateSession]
        exact used_updateSession _ fun _ _ => rfl
      dsimp only
      split
      · refine used_before hupdate ?_
        rw [registry_eraseSession]
        exact steady_setSession fun _ hs => nomatch hs
      · exact used_before hupdate (steady_leaveSeat _ c _)

theorem reroutes_closed (h : Hall) (c : Int) : Reroutes h (.closed c) (h.closed c) := by
  unfold closed
  split
  · rename_i hpending
    refine reroutes_steady ?_ fun d => if_neg fun hc => ?_
    · rw [registry_erasePending]
      exact steady_unpend _ c
    · rw [← hc.1, hpending] at hc
      cases hc.2
  · rename_i hsigned
    rw [Bool.not_eq_true] at hsigned
    refine reroutes_used (c := c) ?_ fun d hd => if_neg fun hc => hd hc.1.symm
    rw [uses, if_pos ⟨rfl, hsigned⟩]
    exact used_after (steady_stopObserving h c) (used_leave _ c _)

theorem reroutes_effect (h : Hall) (call : HostCall) : Reroutes h (.effect call) (h.effect call) := by
  cases call with
  | notify c command payload =>
      refine reroutes_steady ?_ fun _ => rfl
      simp only [effect]
      split
      · exact steady_of_eq (wireless_registry.deliver h c _ _)
      · exact steady_refl _
  | request c command payload timeout timestamp => exact reroutes_ask h c _ _ _ _
  | setThinking c value =>
      refine reroutes_steady ?_ fun _ => rfl
      simp only [effect, registry_updateSession]
      exact steady_updateSession _ c fun _ => rfl
  | setDied c value =>
      refine reroutes_steady ?_ fun _ => rfl
      simp only [effect, registry_updateSession]
      exact steady_updateSession _ c fun _ => rfl
  | kick c => exact reroutes_steady (steady_kick h c) fun _ => rfl
  | ban c => exact reroutes_steady (steady_temporarilyBan h c) fun _ => rfl
  | _ => exact reroutes_steady (steady_refl _) fun _ => rfl

theorem reroutes_accept (h : Hall) (host : Host) : Reroutes h (.accept host) (h.accept host) where
  signed c r' hr := by
    rw [router?, registry_accept] at hr
    exact Or.inl ⟨r', hr, rfl⟩
  pending c r' hr := by
    rw [registry_accept] at hr
    simp only [Registry.pendingRouter?, Registry.setPending, Function.update_apply] at hr
    split at hr
    · cases hr
      exact Or.inr ⟨h.now, rfl⟩
    · exact Or.inl hr

/-- **An event does with the routers what it tells.** -/
theorem reroutes_take (h : Hall) (e : Event) : Reroutes h e (h.take e) := by
  cases e with
  | pass span => exact reroutes_steady (steady_refl _) fun _ => rfl
  | accept host => exact reroutes_accept h host
  | expireSignUp c =>
      refine reroutes_steady ?_ fun _ => rfl
      rw [take, registry_expireSignUp]
      exact steady_unpend _ c
  | record c record => exact reroutes_hear h c record
  | closed c => exact reroutes_closed h c
  | shut c => exact reroutes_steady (steady_shut h c) fun _ => rfl
  | shutSoon c => exact reroutes_steady (steady_shutSoon h c) fun _ => rfl
  | lobby c request canSpawn => exact reroutes_steady (steady_put h c canSpawn request) fun _ => rfl
  | showError c words => exact reroutes_steady (steady_of_eq (wireless_registry.showError h c words)) fun _ => rfl
  | createRoom owner name canSpawn =>
      exact reroutes_steady (steady_createRoom h owner name canSpawn) fun _ => rfl
  | seatPlayer c r => exact reroutes_steady (steady_seatPlayer h c r) fun _ => rfl
  | observeRoom c r => exact reroutes_steady (steady_observeRoom h c r) fun _ => rfl
  | finishRoom r => exact reroutes_steady (steady_finishRoom h r) fun _ => rfl
  | engineUp id => exact reroutes_steady (steady_refl _) fun _ => rfl
  | engineDown id => exact reroutes_steady (steady_refl _) fun _ => rfl
  | startupOver id => exact reroutes_steady (steady_refl _) fun _ => rfl
  | schedulerFailed id => exact reroutes_steady (steady_schedulerFailed h id) fun _ => rfl
  | refreshFingerprint reading =>
      exact reroutes_steady (steady_of_eq (registry_refreshFingerprint h reading)) fun _ => rfl
  | reloadSettings reading =>
      exact reroutes_steady (steady_of_eq (registry_reloadSettings h reading)) fun _ => rfl
  | effect call => exact reroutes_effect h call
  | kick c => exact reroutes_steady (steady_kick h c) fun _ => rfl
  | temporarilyBan c => exact reroutes_steady (steady_temporarilyBan h c) fun _ => rfl

end Hall

end GameHall
