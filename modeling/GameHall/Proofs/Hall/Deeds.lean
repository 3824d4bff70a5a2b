import GameHall.Proofs.Hall.Calls
import GameHall.Proofs.Hall.Consistency

/-!
# What one event is made of

What happens to the tables and what engines are told of it go together. A `Scene` has both, and a
`Turn` is what one event makes of it: most events do one thing, and those that end rooms, connections
or schedulers do several small ones in a row (`Deed`). Here are these and the events that are made of them.
-/

namespace GameHall

/-- What the tables of a hall say, and what engines have been told. -/
structure Scene where
  tables : Registry
  voice : Voice

/-- What has been said after something has been said to the scheduler of a room, if the room is
there. -/
def Scene.tell (p : Scene) (r : Int) (s : Signal) : Voice :=
  match p.tables.room r with
  | none => p.voice
  | some x => p.voice.say x.scheduler s

/-- A player who is gone. -/
def Registry.departed (s : Session) : Session := { s with state := .offline }

/-- Whether a connection is gone and its player keeps a seat. -/
def Registry.Gone (t : Registry) (c : Int) : Prop :=
  ∃ s, t.session c = some s ∧ s.isOnline = false

namespace Hall

/-! ## What an event is about -/

/-- Who asks for a room, and its name. -/
def Event.makes? : Event → Option (Int × String)
  | createRoom owner name _ => some (owner, name)
  | lobby c (.createRoom name) _ => some (c, name)
  | _ => none

/-- Who asks for a seat, and in which room. -/
def Event.sits? : Event → Option (Int × Int)
  | seatPlayer c r => some (c, r)
  | lobby c (.enterRoom r) _ => some (c, r)
  | _ => none

/-- Who asks to watch, and which room. -/
def Event.watches? : Event → Option (Int × Int)
  | observeRoom c r => some (c, r)
  | lobby c (.observeRoom r) _ => some (c, r)
  | _ => none

/-- The connection that reports something: a record, or its end. -/
def Event.reporter? : Event → Option Int
  | record c _ => some c
  | closed c => some c
  | _ => none

/-- What the tables of a hall say, and what engines have been told. -/
def scene (h : Hall) : Scene := ⟨h.registry, h.voice⟩

/-- One of the small things that an event may do in a row. The tables `t` are those before the
event. -/
inductive Deed (t : Registry) (e : Event) (p : Scene) : Scene → Prop where
  /-- Nobody moves, and nothing is said. -/
  | still {q : Scene} (halike : p.tables.Alike q.tables) (hfades : p.voice.Fades q.voice) :
      Deed t e p q
  /-- A connection is pending no more. -/
  | unpend (c : Int) : Deed t e p ⟨p.tables.setPending c none, p.voice⟩
  /-- Someone watches no more. -/
  | unwatch {c r : Int} {s : Session} (he : e.reporter? = some c) (hs : p.tables.session c = some s)
      (hview : s.observing = some r) :
      Deed t e p ⟨p.tables.unwatch c r, p.tell r (.removeObserver r c)⟩
  /-- A player in a room is gone. -/
  | offline {c : Int} {s : Session} (he : e = .closed c) (hs : p.tables.session c = some s)
      (hroom : s.room ≠ lobbyRoom) (honline : s.isOnline = true ∨ t.Gone c) :
      Deed t e p ⟨p.tables.updateSession c Registry.departed,
        p.tell s.room (.playerState s.room c .offline)⟩
  /-- A player of the lobby is gone. -/
  | drop {c : Int} {s : Session} (he : e = .closed c) (hs : p.tables.session c = some s)
      (hlobby : s.inLobby = true) : Deed t e p ⟨p.tables.setSession c none, p.voice⟩
  /-- Something has happened that concerns a room as a whole. -/
  | wake (r : Int) (reason : String) : Deed t e p ⟨p.tables, p.tell r (.wake r reason)⟩
  /-- A room ends. -/
  | finish {r : Int} {x : Room} {v : Voice} (hx : p.tables.room r = some x)
      (hfades : p.voice.Fades v) : Deed t e p ⟨p.tables.endRoom r x, v⟩

/-- Small things in a row. -/
abbrev Deeds (t : Registry) (e : Event) : Scene → Scene → Prop := Relation.ReflTransGen (Deed t e)

/-- What an event may make of a hall. -/
inductive Turn (h : Hall) (e : Event) : Scene → Prop where
  | deeds {q : Scene} (hdeeds : Deeds h.registry e h.scene q) : Turn h e q
  /-- There is a new connection. -/
  | come {host : Host} (he : e = .accept host) (l : Link) :
      Turn h e ⟨{ h.registry with lastConnection := h.nextConnection }.setPending h.nextConnection
        (some l), h.voice⟩
  /-- A player has signed up. -/
  | signUp {c : Int} {l : Link} {s : Session} {record : Record} (he : e = .record c record)
      (hl : h.registry.pending c = some l) (hroom : s.room = lobbyRoom) (hview : s.observing = none)
      (honline : s.isOnline = true) :
      Turn h e ⟨(h.registry.setPending c none).setSession c (some s), h.voice⟩
  /-- A player of the lobby has sat down. -/
  | sit {c r : Int} {s : Session} {x : Room} (he : e.sits? = some (c, r))
      (hs : h.session? c = some s) (hlobby : s.inLobby = true) (hx : h.room? r = some x) :
      Turn h e ⟨h.registry.seat c r, h.voice.say x.scheduler (joinSignal r c s)⟩
  /-- A player of the lobby watches. -/
  | watch {c r : Int} {s : Session} {x : Room} (he : e.watches? = some (c, r))
      (hs : h.session? c = some s) (hlobby : s.inLobby = true) (hx : h.room? r = some x) :
      Turn h e ⟨h.registry.watch c r, h.voice.say x.scheduler (.addObserver r (s.describe c))⟩
  /-- A player of the lobby has a new room. Its scheduler accepts it or is new, and hears what is said;
  whoever else hears now has heard before or hosts no room. -/
  | found {owner id : Int} {name : String} {s : Session} {v : Voice}
      (he : e.makes? = some (owner, name)) (hs : h.session? owner = some s)
      (hlobby : s.inLobby = true)
      (hplace : id = h.pool.nextId ∨ ∃ s, h.pool.get? id = some s ∧ s.accepts h.fingerprint = true)
      (hcalls : v.calls = h.calls) (hhears : v.hears id = true)
      (hothers : ∀ other, v.hears other = true →
        h.hears other = true ∨ ∀ r x, h.room? r = some x → x.scheduler ≠ other) :
      Turn h e ⟨(h.registry.openRoom ⟨name, id, [], []⟩).seat owner h.nextRoom,
        (v.say id (newRoomSignal h.nextRoom name)).say id (joinSignal h.nextRoom owner s)⟩
  /-- A player in a room has said something, or someone who watches it. -/
  | message {c r : Int} {record : Record} {s : Session} {t : Registry} (he : e = .record c record)
      (hs : h.session? c = some s) (hplace : s.place = .seated r ∨ s.place = .watching r)
      (halike : h.registry.Alike t) :
      Turn h e ⟨t, h.scene.tell r (.request r c record.command record.payload)⟩

/-! ## Scenes -/

section scenes

variable (h : Hall)

theorem scene_eq {t : Registry} {v : Voice} (ht : h.registry = t) (hv : h.voice = v) :
    h.scene = ⟨t, v⟩ := by
  rw [scene, ht, hv]

/-- A scene is seen in the registry and in what engines have been told, and in nothing else. -/
theorem scene_of_frame {g : Hall} (ht : g.registry = h.registry) (hv : g.voice = h.voice) :
    g.scene = h.scene := scene_eq g ht hv

theorem scene_askCurrent (id : Int) : (h.askCurrent id).scene = h.scene :=
  scene_of_frame h (detached_registry.askCurrent h id) (voice_askCurrent h id)

/-- To signal to the scheduler of a room is to tell the room. -/
theorem scene_signal {r : Int} {x : Room} (hx : h.room? r = some x) (s : Signal) :
    (h.signal x.scheduler s).scene = ⟨h.registry, h.scene.tell r s⟩ := by
  refine scene_eq _ (detached_registry.signal h _ s) ((voice_signal h _ s).trans ?_)
  have hx' : h.scene.tables.room r = some x := hx
  rw [Scene.tell, hx']
  rfl

end scenes

/-! ## Several things in a row -/

section deeds

variable {t : Registry} {e : Event} (h : Hall)

theorem deeds_of_eq {g : Hall} (heq : g.scene = h.scene) : Deeds t e h.scene g.scene := by
  rw [heq]

/-- One of the small things is that nothing happens but that engines go down and that sessions change
without moving. -/
theorem deeds_still {g : Hall} (halike : h.registry.Alike g.registry)
    (hfades : h.voice.Fades g.voice) : Deeds t e h.scene g.scene :=
  Relation.ReflTransGen.single (.still halike hfades)

theorem deeds_unpend (c : Int) :
    Deeds t e h.scene ({ h with pending := Assoc.erase h.pending c } : Hall).scene := by
  have heq : ({ h with pending := Assoc.erase h.pending c } : Hall).scene
      = ⟨h.registry.setPending c none, h.voice⟩ := scene_eq _ (registry_erasePending h c) rfl
  rw [heq]
  exact Relation.ReflTransGen.single (.unpend c)

theorem deeds_stopObserving {c : Int} (he : e.reporter? = some c) :
    Deeds t e h.scene (h.stopObserving c).scene := by
  rcases registry_stopObserving h c with ⟨_, hnone⟩ | ⟨s, r, hs, hview, heq⟩
  · rw [stopObserving_of_none h hnone]
  · have hscene : (h.stopObserving c).scene
        = ⟨h.registry.unwatch c r, h.scene.tell r (.removeObserver r c)⟩ := by
      refine scene_eq _ heq ((voice_stopObserving h hs hview).trans ?_)
      show _ = match h.room? r with | none => _ | some x => _
      rfl
    rw [hscene]
    exact Relation.ReflTransGen.single (.unwatch he hs hview)

/-- A room ends in one thing, whatever its players and observers are told. -/
theorem deeds_finish {r : Int} {x : Room} (hx : h.room? r = some x) :
    Deeds t e h.scene (h.finish r x).scene := by
  have hscene : (h.finish r x).scene = ⟨h.registry.endRoom r x, (h.finish r x).voice⟩ :=
    scene_eq _ (registry_finish h r x) rfl
  rw [hscene]
  exact Relation.ReflTransGen.single (.finish hx (fades_finish h r x))

theorem deeds_finishRoom (r : Int) : Deeds t e h.scene (h.finishRoom r).2.scene := by
  unfold finishRoom
  split
  · exact Relation.ReflTransGen.refl
  · rename_i x hx
    exact deeds_finish h (existingRoom_ok hx)

theorem deeds_signalWake {r : Int} {x : Room} (hx : h.room? r = some x) (reason : String) :
    Deeds t e h.scene (h.signal x.scheduler (.wake r reason)).scene := by
  rw [scene_signal h hx]
  exact Relation.ReflTransGen.single (.wake r reason)

/-- A room that has been abandoned is woken or ends. -/
theorem deeds_checkAbandoned (r : Int) : Deeds t e h.scene (h.checkAbandoned r).scene := by
  unfold checkAbandoned
  split
  · exact Relation.ReflTransGen.refl
  · rename_i x hx
    split
    · exact Relation.ReflTransGen.refl
    · dsimp only
      rw [← scene_askCurrent h x.scheduler]
      split
      · exact deeds_signalWake (h.askCurrent x.scheduler) hx "abandon"
      · exact deeds_finishRoom _ r

/-- The room of a player is told that the player is gone. -/
theorem scene_departed {c : Int} {s : Session} {x : Room} (hx : h.room? s.room = some x) :
    ((h.updateSession c Registry.departed).signal x.scheduler
        (.playerState s.room c .offline)).scene
      = ⟨h.registry.updateSession c Registry.departed,
        h.scene.tell s.room (.playerState s.room c .offline)⟩ := by
  have hx' : (h.updateSession c Registry.departed).room? s.room = some x := hx
  have hbefore : h.scene.tables.room s.room = some x := hx
  have hafter : (h.updateSession c Registry.departed).scene.tables.room s.room = some x := hx
  rw [scene_signal _ hx', registry_updateSession, Scene.tell, Scene.tell, hbefore, hafter]
  rfl

/-- A player who goes is announced to the room. -/
theorem deeds_leaveSeat {c : Int} {s : Session} (he : e = .closed c) (hs : h.session? c = some s)
    (hroom : s.room ≠ lobbyRoom) (honline : s.isOnline = true ∨ t.Gone c) :
    Deeds t e h.scene (h.leaveSeat c s.room).scene := by
  have hoffline := Deed.offline (p := h.scene) he hs hroom honline
  have hrooms : (h.updateSession c Registry.departed).room? s.room = h.room? s.room := rfl
  show Deeds t e h.scene (((match (h.updateSession c Registry.departed).room? s.room with
    | none => h.updateSession c Registry.departed
    | some r => ((h.updateSession c Registry.departed).signal r.scheduler
        (.playerState s.room c .offline)).signal r.scheduler (.wake s.room "player_disconnect")
    )).checkAbandoned s.room).scene
  -- the room is looked after last, whether anybody is left in it or not
  refine Relation.ReflTransGen.trans ?_ (deeds_checkAbandoned _ s.room)
  cases hx : h.room? s.room with
  | none =>
      rw [hrooms, hx]
      dsimp only
      have hx' : h.scene.tables.room s.room = none := hx
      have htell : h.scene.tell s.room (.playerState s.room c .offline) = h.voice := by
        rw [Scene.tell, hx']
        rfl
      rw [htell] at hoffline
      rw [scene_eq (h.updateSession c Registry.departed) (registry_updateSession h c _) rfl]
      exact Relation.ReflTransGen.single hoffline
  | some x =>
      rw [hrooms, hx]
      dsimp only
      refine Relation.ReflTransGen.head hoffline ?_
      have hscene := scene_departed h (c := c) hx
      have hthere : ((h.updateSession c Registry.departed).signal x.scheduler
          (.playerState s.room c .offline)).room? s.room = some x :=
        (congrArg (·.tables.room s.room) hscene).trans hx
      refine Eq.subst (motive := fun p => Deeds t e p _) hscene ?_
      exact deeds_signalWake _ hthere "player_disconnect"

/-- Who stops watching keeps the rest of the session. -/
theorem session?_stopObserving {h : Hall} {c : Int} {s : Session}
    (hs : (h.stopObserving c).session? c = some s) :
    ∃ s', h.session? c = some s' ∧ s = { s' with observing := none } := by
  rcases registry_stopObserving h c with ⟨heq, hnone⟩ | ⟨s', r, hs', _, heq⟩
  · have hold : h.session? c = some s := (congrFun (congrArg Registry.session heq) c).symm.trans hs
    refine ⟨s, hold, ?_⟩
    rw [← hnone s hold]
  · have hnew := (congrFun (congrArg Registry.session heq) c).symm.trans hs
    have hunwatched : some (Registry.unwatched s') = some s := by
      simpa [Registry.unwatch, Registry.updateSession, Registry.updateRoom, Registry.setSession,
        Registry.setRoom, hs'] using hnew
    exact ⟨s', hs', (Option.some.inj hunwatched).symm⟩

theorem session?_updateSession {h : Hall} {c : Int} {s : Session} (hs : h.session? c = some s)
    (f : Session → Session) : (h.updateSession c f).session? c = some (f s) := by
  show Assoc.get? (Assoc.update h.sessions c f) c = _
  rw [Assoc.get?_update, if_pos rfl, show Assoc.get? h.sessions c = some s from hs]
  rfl

/-- A player who goes loses the session in the lobby, and keeps it in a seat. -/
theorem deeds_leave {c : Int} (he : e = .closed c)
    (hsess : ∀ s, h.session? c = some s → s.observing = none ∧ (s.isOnline = true ∨ t.Gone c)) :
    Deeds t e h.scene (h.leave c).scene := by
  unfold leave
  cases hs : h.session? c with
  | none => exact Relation.ReflTransGen.refl
  | some s =>
      obtain ⟨hview, honline⟩ := hsess s hs
      dsimp only
      -- the router is changed first, which moves nobody
      have halike : h.registry.Alike (h.updateSession c fun s =>
          { s with link := { s.link with router := s.link.router.setAccepting false } }).registry := by
        rw [registry_updateSession]
        exact Registry.alike_updateSession _ c fun _ => rfl
      refine Relation.ReflTransGen.trans (deeds_still h halike (Voice.fades_refl _)) ?_
      have hs' := session?_updateSession hs fun s =>
        { s with link := { s.link with router := s.link.router.setAccepting false } }
      split
      · rename_i hlobby
        have hscene := scene_eq _ (registry_eraseSession (h.updateSession c fun s =>
          { s with link := { s.link with router := s.link.router.setAccepting false } }) c)
          (v := h.voice) rfl
        rw [hscene]
        exact Relation.ReflTransGen.single
          (.drop he hs' (Registry.inLobby_iff.mpr ⟨hlobby, hview⟩))
      · rename_i hlobby
        exact deeds_leaveSeat _ (s := { s with link :=
          { s.link with router := s.link.router.setAccepting false } }) he hs' hlobby honline

theorem deeds_closed (c : Int) : Deeds h.registry (.closed c) h.scene (h.closed c).scene := by
  unfold closed
  split
  · exact deeds_unpend h c
  · refine Relation.ReflTransGen.trans (deeds_stopObserving h rfl) (deeds_leave _ rfl ?_)
    intro s hs
    obtain ⟨s', hs', rfl⟩ := session?_stopObserving hs
    refine ⟨rfl, ?_⟩
    cases honline : s'.isOnline with
    | true => exact Or.inl honline
    | false => exact Or.inr ⟨s', hs', honline⟩

/-! ## Upkeep -/

/-- A fold of small things is small things in a row, if every one keeps what the next one needs. -/
theorem deeds_foldl {α : Type} {f : Hall → α → Hall} {I : Hall → Prop} {l : List α}
    (hf : ∀ g a, a ∈ l → I g → I (f g a) ∧ Deeds t e g.scene (f g a).scene) {g : Hall} (hg : I g) :
    Deeds t e g.scene (l.foldl f g).scene := by
  induction l generalizing g with
  | nil => exact Relation.ReflTransGen.refl
  | cons a l ih =>
      obtain ⟨hnext, hdeeds⟩ := hf g a List.mem_cons_self hg
      exact hdeeds.trans (ih (fun g b hb => hf g b (List.mem_cons_of_mem a hb)) hnext)

/-- A room is lost by ending, and its people hear of it before. -/
theorem deeds_loseRoom (r : Int) : Deeds t e h.scene (h.loseRoom r).scene := by
  unfold loseRoom
  split
  · exact Relation.ReflTransGen.refl
  · rename_i x hx
    dsimp only
    -- the players are told first, which nobody else hears of
    have hregistry : ((x.players ++ x.observers).foldl (fun h c => h.showError c engineGone)
        h).registry = h.registry := view_foldl (fun h c => wireless_registry.showError h c engineGone) h _
    have hscene := scene_of_frame h hregistry
      (view_foldl (fun h c => unpeopled_voice.showError h c engineGone) h _)
    rw [← hscene]
    exact deeds_finish _ ((congrFun (congrArg Registry.room hregistry) r).trans hx)

theorem deeds_schedulerFailed (id : Int) : Deeds t e h.scene (h.schedulerFailed id).scene := by
  unfold schedulerFailed
  refine Relation.ReflTransGen.trans (deeds_foldl (I := fun _ => True)
    (fun g r _ _ => ⟨trivial, deeds_loseRoom g r⟩) trivial) (deeds_still _ ?_ (fades_retire _ id))
  rw [detached_registry.retire]
  exact Registry.alike_refl _

/-- The rooms of a scheduler are those that it hosts. -/
theorem scheduler_of_mem_roomsOf {h : Hall} (hb : h.ledger.Balanced) {r id : Int}
    (hr : r ∈ h.roomsOf id) : ∃ x, h.room? r = some x ∧ x.scheduler = id := by
  have honce : (Assoc.keys h.rooms).Nodup := by
    rw [← Assoc.keys_mapValues Room.scheduler]
    exact hb.roomsOnce
  obtain ⟨⟨q, x⟩, hmem, rfl⟩ := List.mem_map.mp hr
  obtain ⟨hx, hid⟩ := List.mem_filter.mp hmem
  exact ⟨x, (Assoc.get?_eq_some_iff honce).mpr hx, of_decide_eq_true hid⟩

theorem deeds_wakeOutdated {h : Hall} (hb : h.ledger.Balanced) (id : Int) :
    Deeds t e h.scene (h.wakeOutdated id).scene := by
  refine deeds_foldl (I := fun g => g.registry = h.registry) (fun g r hr hg => ⟨?_, ?_⟩) rfl
  · rw [detached_registry.signal, hg]
  · obtain ⟨x, hx, rfl⟩ := scheduler_of_mem_roomsOf hb hr
    exact deeds_signalWake g ((congrFun (congrArg Registry.room hg) r).trans hx) "outdated"

theorem deeds_sweep {h : Hall} (hb : h.ledger.Balanced) : Deeds t e h.scene h.sweep.scene := by
  refine deeds_still h ?_ (fades_sweep hb)
  rw [detached_registry.sweep]
  exact Registry.alike_refl _

theorem deeds_refreshFingerprint {h : Hall} (hb : h.ledger.Balanced)
    (reading : Except Fault String) :
    Deeds t e h.scene (h.refreshFingerprint reading).2.scene := by
  unfold refreshFingerprint
  split
  · exact Relation.ReflTransGen.refl
  · rename_i fingerprint
    split
    · exact Relation.ReflTransGen.refl
    · dsimp only
      have hswept : Deeds t e h.scene ({ h with fingerprint := fingerprint } : Hall).sweep.scene :=
        deeds_sweep (h := { h with fingerprint := fingerprint }) hb
      have hb' := Ledger.balanced_moves hb (moves_sweep (k := 0) { h with fingerprint := fingerprint })
      -- waking one scheduler after the other leaves the ledger alone
      refine hswept.trans (deeds_foldl (I := fun g => g.ledger.Balanced) (fun g id _ hg => ⟨?_, ?_⟩)
        hb')
      · rw [ledger_wakeOutdated]
        exact hg
      · exact deeds_wakeOutdated hg id

end deeds

end Hall

end GameHall
