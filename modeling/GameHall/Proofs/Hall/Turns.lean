import GameHall.Proofs.Hall.Deeds

/-!
# What one event does

Every event is one turn (`turn_step`). What holds of the tables and the calls of a run follows from turns
alone.
-/

namespace GameHall

namespace Hall

/-! ## One thing -/

section turns

variable {e : Event} (h : Hall)

theorem turn_of_frame {g : Hall} (ht : g.registry = h.registry) (hv : g.voice = h.voice) :
    Turn h e g.scene := .deeds (deeds_of_eq h (scene_of_frame h ht hv))

theorem turn_still {g : Hall} (halike : h.registry.Alike g.registry)
    (hfades : h.voice.Fades g.voice) : Turn h e g.scene := .deeds (deeds_still h halike hfades)

theorem turn_seatPlayer {c r : Int} (he : e.sits? = some (c, r)) :
    Turn h e (h.seatPlayer c r).2.scene := by
  unfold seatPlayer
  split
  · exact turn_of_frame h rfl rfl
  · exact turn_of_frame h rfl rfl
  · rename_i s x hsess hroom
    obtain ⟨hs, hlobby⟩ := lobbySession_ok hsess
    rw [scene_eq _ (registry_seat h c r s x) (voice_seat h c r s x)]
    exact .sit he hs hlobby (existingRoom_ok hroom)

theorem turn_observeRoom {c r : Int} (he : e.watches? = some (c, r)) :
    Turn h e (h.observeRoom c r).2.scene := by
  unfold observeRoom
  split
  · exact turn_of_frame h rfl rfl
  · exact turn_of_frame h rfl rfl
  · rename_i s x hsess hroom
    obtain ⟨hs, hlobby⟩ := lobbySession_ok hsess
    rw [scene_eq _ (registry_watch h c r s x) (voice_watch h c r s x)]
    exact .watch he hs hlobby (existingRoom_ok hroom)

/-- No room is hosted by a scheduler that has not been spawned. -/
theorem ne_nextId {h : Hall} (hb : h.ledger.Balanced) {r : Int} {x : Room} (hx : h.room? r = some x) :
    x.scheduler ≠ h.pool.nextId := by
  have hlt : x.scheduler < h.pool.nextId :=
    hb.accountsBelow x.scheduler (hb.hosted r x.scheduler (host_of_room? hx))
  omega

/-- A room that is made is announced, and then its owner. -/
theorem scene_makeRoom {h g : Hall} {id : Int} (hfinds : Finds h g id) (owner : Int) (s : Session)
    (name : String) : ((g.place id name).2.seat owner (g.place id name).1 s ⟨name, id, [], []⟩).scene
      = ⟨(h.registry.openRoom ⟨name, id, [], []⟩).seat owner h.nextRoom,
        (g.voice.say id (newRoomSignal h.nextRoom name)).say id (joinSignal h.nextRoom owner s)⟩ := by
  have hnext : g.nextRoom = h.nextRoom := congrArg Registry.nextRoom hfinds.registry
  have hroom : (g.place id name).1 = h.nextRoom := hnext
  refine scene_eq _ ?_ ?_
  · rw [registry_seat, registry_place, hfinds.registry, hroom]
  · rw [voice_seat, voice_place, hroom, hnext]

/-- A sweep makes no scheduler accept rooms. -/
theorem accepts_of_sweep {h : Hall} (hb : h.ledger.Balanced) {id : Int} {s' : Scheduler}
    (hs' : h.sweep.pool.get? id = some s') (haccepts : s'.accepts h.sweep.fingerprint = true) :
    ∃ s, h.pool.get? id = some s ∧ s.accepts h.fingerprint = true := by
  rw [(pool_sweep h).1] at hs'
  rw [(pool_sweep h).2] at haccepts
  obtain ⟨s, hs, rfl, _⟩ := get?_sweep (nodup_schedulers hb) hs'
  refine ⟨s, hs, ?_⟩
  -- one that is outdated has no fingerprint any more
  unfold Scheduler.check at haccepts
  split at haccepts
  · simp [Scheduler.accepts, Scheduler.isOutdated, Scheduler.markOutdated] at haccepts
  · exact haccepts

theorem turn_createRoom {h : Hall} (hb : h.ledger.Balanced) {owner : Int} {name : String}
    (he : e.makes? = some (owner, name)) (canSpawn : Bool) :
    Turn h e (h.createRoom owner name canSpawn).2.scene := by
  unfold createRoom
  split
  · exact turn_of_frame h rfl rfl
  · rename_i s hsess
    obtain ⟨hs, hlobby⟩ := lobbySession_ok hsess
    -- idle schedulers of old rules are swept away before one is looked for
    have hswept := fades_sweep hb
    have hb' := Ledger.balanced_moves hb (moves_sweep (k := 0) h)
    have hregistry := detached_registry.sweep h
    rcases makeRoom_cases hb' owner s name canSpawn with ⟨hasks, hpool⟩ | ⟨g, id, hfinds, heq⟩
    · refine turn_still h ?_ (Voice.fades_trans hswept ⟨hasks.calls, fun id hid => ?_⟩)
      · rw [hasks.registry, hregistry]
        exact Registry.alike_refl _
      · obtain ⟨s', hs', halive⟩ := hears_eq_true_iff.mp hid
        exact alive_of_askedAt (hpool id s' hs') halive
    · have hnext : h.sweep.nextRoom = h.nextRoom := congrArg Registry.nextRoom hregistry
      have hnextId : h.sweep.pool.nextId = h.pool.nextId := by rw [(pool_sweep h).1]; rfl
      rw [heq, scene_makeRoom hfinds, hregistry, hnext]
      refine .found he hs hlobby ?_ (hfinds.calls.trans hswept.calls) hfinds.hears ?_
      · rcases hfinds.accepts with hnew | ⟨s', hs', haccepts⟩
        · exact Or.inl (hnew.trans hnextId)
        · exact Or.inr (accepts_of_sweep hb hs' haccepts)
      · intro other hother
        rcases others_of_finds hfinds hother with hhears | rfl
        · exact Or.inl (hswept.hears other hhears)
        · refine Or.inr fun r x hx => ne_nextId hb' (r := r) ?_
          exact (congrFun (congrArg Registry.room hregistry) r).trans hx

/-! ## Records -/

theorem seated_of_place {s : Session} {r : Int} (h : s.place = .seated r) :
    s.room = r ∧ s.observing = none ∧ r ≠ lobbyRoom := by
  unfold Session.place at h
  split at h
  · cases h
  · rename_i hlobby
    split at h
    · cases h
    · rename_i hview
      cases h
      exact ⟨rfl, hview, fun hroom => hlobby (Registry.inLobby_iff.mpr ⟨hroom, hview⟩)⟩

theorem watching_of_place {s : Session} {r : Int} (h : s.place = .watching r) :
    s.observing = some r := by
  unfold Session.place at h
  split at h
  · cases h
  · split at h
    · rename_i r' hview
      cases h
      exact hview
    · cases h

theorem heard_eq {router router' : Router} {now : Moment} {record : Record} {heard : Router.Heard}
    (h : router.hear now record = (some heard, router')) :
    heard = .notification record.command record.payload
      ∨ heard = .request record.id record.command record.payload := by
  unfold Router.hear at h
  split at h
  · cases h
    exact Or.inl rfl
  · split at h
    · split at h
      · split at h <;> cases h
      · cases h
    · split at h
      · cases h
        exact Or.inr rfl
      · cases h

/-- The hall with another router for a session. -/
def setRouter (h : Hall) (c : Int) (router : Router) : Hall :=
  h.updateSession c fun s => { s with link := { s.link with router := router } }

theorem alike_setRouter (c : Int) (router : Router) :
    h.registry.Alike (h.setRouter c router).registry := by
  rw [setRouter, registry_updateSession]
  exact Registry.alike_updateSession _ c fun _ => rfl

/-- **A record changes the router of its sender and is passed on, or not.** -/
theorem route_cases (c : Int) (record : Record) :
    h.route c record = h ∨ ∃ s router, h.session? c = some s
      ∧ (h.route c record = h.setRouter c router
        ∨ h.route c record = (h.setRouter c router).pass c s.place record.command record.payload) := by
  unfold route
  cases hs : h.session? c with
  | none => exact Or.inl rfl
  | some s =>
      refine Or.inr ⟨s, (s.link.router.hear h.now record).2, rfl, ?_⟩
      dsimp only
      cases hheard : s.link.router.hear h.now record with
      | mk heard router =>
          cases heard with
          | none => exact Or.inl rfl
          | some heard =>
              rcases heard_eq hheard with rfl | rfl
              · exact Or.inr rfl
              · exact Or.inr rfl

theorem turn_forward {c r : Int} {record : Record} {s : Session} (hs : h.session? c = some s)
    (hplace : s.place = .seated r ∨ s.place = .watching r) (router : Router) :
    Turn h (.record c record)
      ((h.setRouter c router).forward c r record.command record.payload).scene := by
  have halike := alike_setRouter h c router
  have hscene : ((h.setRouter c router).forward c r record.command record.payload).scene
      = ⟨(h.setRouter c router).registry,
        h.scene.tell r (.request r c record.command record.payload)⟩ := by
    refine scene_eq _ ?_ (voice_forward _ c r _ _)
    unfold forward
    split
    · rw [detached_registry.signal]
    · rfl
  rw [hscene]
  exact .message rfl hs hplace halike

/-- A record is passed on to where its sender is, or ends the sender's watching. -/
theorem turn_pass {c : Int} {record : Record} {s : Session} (hs : h.session? c = some s)
    (router : Router) : Turn h (.record c record)
      ((h.setRouter c router).pass c s.place record.command record.payload).scene := by
  have hstill : Deeds h.registry (.record c record) h.scene (h.setRouter c router).scene :=
    deeds_still h (alike_setRouter h c router) (Voice.fades_refl _)
  cases hplace : s.place with
  | lobby =>
      have hframe : ((h.setRouter c router).pass c .lobby record.command record.payload).scene
          = (h.setRouter c router).scene :=
        scene_of_frame (h.setRouter c router) rfl (voice_act _ rfl)
      rw [hframe]
      exact .deeds hstill
  | seated r => exact turn_forward h hs (Or.inl hplace) router
  | watching r =>
      simp only [pass]
      split
      · exact .deeds (hstill.trans (deeds_stopObserving _ rfl))
      · exact turn_forward h hs (Or.inr hplace) router

theorem turn_route (c : Int) (record : Record) :
    Turn h (.record c record) (h.route c record).scene := by
  rcases route_cases h c record with heq | ⟨s, router, hs, heq | heq⟩
  · rw [heq]
    exact turn_of_frame h rfl rfl
  · rw [heq]
    exact turn_still h (alike_setRouter h c router) (Voice.fades_refl _)
  · rw [heq]
    exact turn_pass h hs router

/-- A first record makes a session in the lobby or nothing. -/
theorem turn_hear (c : Int) (record : Record) : Turn h (.record c record) (h.hear c record).scene := by
  unfold hear
  split
  · rename_i l hl
    have herase := registry_erasePending h c
    have hvoice := unpeopled_voice.judge { h with pending := Assoc.erase h.pending c } c l record
    rcases registry_judge { h with pending := Assoc.erase h.pending c } c l record with
      heq | ⟨s, hroom, hview, honline, heq⟩
    · refine .deeds ?_
      rw [scene_of_frame { h with pending := Assoc.erase h.pending c } heq hvoice]
      exact deeds_unpend h c
    · rw [scene_eq _ (heq.trans (congrArg (Registry.setSession · c (some s)) herase)) hvoice]
      exact .signUp rfl hl hroom hview honline
  · exact turn_route h c record

/-! ## Every event -/

theorem turn_put {h : Hall} (hb : h.ledger.Balanced) (c : Int) (request : Lobby.Request)
    (canSpawn : Bool) : Turn h (.lobby c request canSpawn) (request.put h c canSpawn).2.scene := by
  cases request with
  | createRoom name =>
      rw [Lobby.Request.put_createRoom]
      exact turn_createRoom hb rfl canSpawn
  | enterRoom r => exact turn_seatPlayer h rfl
  | observeRoom r => exact turn_observeRoom h rfl
  | malformed words => exact turn_of_frame h rfl rfl

/-- **Every event is a turn.** -/
theorem turn_take {h : Hall} (hb : h.ledger.Balanced) (e : Event) : Turn h e (h.take e).scene := by
  cases e with
  | pass span => exact turn_of_frame h rfl rfl
  | accept host =>
      show Turn h (.accept host) (h.accept host).scene
      rw [scene_eq _ (registry_accept h host) (unpeopled_voice.accept h host)]
      exact .come rfl _
  | expireSignUp c =>
      show Turn h (.expireSignUp c) (h.expireSignUp c).scene
      rw [scene_eq _ (registry_expireSignUp h c) (unpeopled_voice.expireSignUp h c)]
      exact .deeds (Relation.ReflTransGen.single (.unpend c))
  | record c record => exact turn_hear h c record
  | closed c => exact .deeds (deeds_closed h c)
  | shut c => exact turn_still h (alike_shut h c) (Voice.fades_refl _)
  | shutSoon c => exact turn_still h (alike_shutSoon h c) (Voice.fades_refl _)
  | lobby c request canSpawn => exact turn_put hb c request canSpawn
  | showError c words =>
      exact turn_of_frame h (wireless_registry.showError h c words) (unpeopled_voice.showError h c words)
  | createRoom owner name canSpawn => exact turn_createRoom hb rfl canSpawn
  | seatPlayer c r => exact turn_seatPlayer h rfl
  | observeRoom c r => exact turn_observeRoom h rfl
  | finishRoom r => exact .deeds (deeds_finishRoom h r)
  | engineUp id => exact turn_still h (Registry.alike_refl _) (fades_setHealth h id .up)
  | engineDown id => exact turn_still h (Registry.alike_refl _) (fades_setHealth h id .down)
  | startupOver id => exact turn_still h (Registry.alike_refl _) (fades_startupOver h id)
  | schedulerFailed id => exact .deeds (deeds_schedulerFailed h id)
  | refreshFingerprint reading => exact .deeds (deeds_refreshFingerprint hb reading)
  | reloadSettings reading =>
      exact turn_of_frame h (registry_reloadSettings h reading) (by cases reading <;> rfl)
  | effect call => exact turn_still h (alike_effect h call) (Voice.fades_of_eq (unpeopled_voice.effect h call))
  | kick c => exact turn_still h (alike_kick h c) (Voice.fades_of_eq (unpeopled_voice.kick h c))
  | temporarilyBan c =>
      exact turn_still h (alike_temporarilyBan h c) (Voice.fades_of_eq (unpeopled_voice.temporarilyBan h c))

theorem turn_step {h : Hall} (hb : h.ledger.Balanced) (e : Event) : Turn h e (h.step e).scene := by
  unfold step
  split
  · exact turn_of_frame h rfl rfl
  · exact turn_take hb e

/-- The scene after an event by itself, for case analysis. -/
theorem exists_turn {h : Hall} (hb : h.ledger.Balanced) (e : Event) :
    ∃ q, (h.step e).scene = q ∧ Turn h e q := ⟨_, rfl, turn_step hb e⟩

end turns

end Hall

end GameHall
