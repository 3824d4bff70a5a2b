import GameHall.Proofs.Hall.Endings
import Mathlib.Data.List.Nodup

/-!
# Every reachable hall is consistent

`Registry.Sound` holds of the empty hall and after every event, as long as connection numbers have
not run out. The steps are those of `GameHall.Proofs.Hall.Agreement` and `GameHall.Proofs.Hall.Endings`;
what is shown here is that each event is made of them, whatever it is given.

What a reader wants to know of a hall follows at the end (`consistent_run`).
-/

namespace GameHall

namespace Hall

variable {n : Nat}

/-! ## Operations that leave everyone in their place -/

open Registry in
theorem alike_ask (h : Hall) (c : Int) (command payload : Octets) (timeout : Int32)
    (timestamp : Option Int64) :
    h.registry.Alike (h.ask c command payload timeout timestamp).registry := by
  unfold ask
  split
  · exact alike_refl _
  · dsimp only
    rw [wireless_registry.deliver, registry_updateSession]
    exact alike_updateSession _ c fun _ => rfl

open Registry in
theorem alike_kick (h : Hall) (c : Int) : h.registry.Alike (h.kick c).registry := by
  unfold kick
  split
  · rw [registry_updateSession, wireless_registry.hangUp]
    exact alike_updateSession _ c fun _ => rfl
  · split
    · rename_i l hl
      dsimp only
      rw [registry_setPending, wireless_registry.hangUp]
      exact alike_setPending hl _
    · exact alike_refl _

open Registry in
theorem alike_temporarilyBan (h : Hall) (c : Int) :
    h.registry.Alike (h.temporarilyBan c).registry := by
  unfold temporarilyBan
  dsimp only
  split
  · rename_i l _
    rw [← registry_ban h l.host]
    exact alike_kick _ c
  · exact alike_kick h c

theorem alike_updatePending (h : Hall) (c : Int) (f : Link → Link) :
    h.registry.Alike ({ h with pending := Assoc.update h.pending c f } : Hall).registry where
  __ := Registry.alike_refl h.registry
  pending := by
    intro d
    show (Assoc.get? (Assoc.update h.pending c _) d).isSome = (Assoc.get? h.pending d).isSome
    rw [Assoc.get?_update_eq, Function.update_apply]
    split
    · rename_i hd
      rw [hd, Option.isSome_map]
    · rfl

open Registry in
theorem alike_shut (h : Hall) (c : Int) : h.registry.Alike (h.shut c).registry := by
  rw [registry_shut]
  exact alike_trans (alike_updatePending h c _) (alike_updateSession _ c fun _ => rfl)

theorem alike_shutSoon (h : Hall) (c : Int) : h.registry.Alike (h.shutSoon c).registry :=
  alike_updatePending h c _

open Registry in
theorem alike_effect (h : Hall) (call : HostCall) : h.registry.Alike (h.effect call).registry := by
  cases call with
  | notify c command payload =>
      simp only [effect]
      split
      · rw [wireless_registry.deliver]; exact alike_refl _
      · exact alike_refl _
  | request c command payload timeout timestamp => exact alike_ask h c _ _ _ _
  | setThinking c value =>
      simp only [effect, registry_updateSession]
      exact alike_updateSession _ c fun _ => rfl
  | setDied c value =>
      simp only [effect, registry_updateSession]
      exact alike_updateSession _ c fun _ => rfl
  | kick c => exact alike_kick h c
  | ban c => exact alike_temporarilyBan h c
  | _ => exact alike_refl _

/-! ## What the other operations are made of -/

/-- A first record makes a session with the link of the connection, or nothing. -/
theorem registry_judge_eq (h : Hall) (c : Int) (l : Link) (record : Record) :
    (h.judge c l record).registry = h.registry
      ∨ ∃ s creds, (h.judge c l record).registry
        = h.registry.setSession c (some (newSession l s creds)) := by
  rcases wireless_registry.judge_cases h (fun _ _ _ => rfl) c l record with
    heq | ⟨_, _, s, creds, g, heq, hg⟩
  · exact Or.inl heq
  · refine Or.inr ⟨s, creds, ?_⟩
    rw [heq, registry_setSession, hg]

/-- The session is in the lobby. -/
theorem registry_judge (h : Hall) (c : Int) (l : Link) (record : Record) :
    (h.judge c l record).registry = h.registry
      ∨ ∃ s : Session, s.room = lobbyRoom ∧ s.observing = none ∧ s.isOnline = true
        ∧ (h.judge c l record).registry = h.registry.setSession c (some s) := by
  rcases registry_judge_eq h c l record with heq | ⟨s, creds, heq⟩
  · exact Or.inl heq
  · exact Or.inr ⟨newSession l s creds, rfl, rfl, rfl, heq⟩

theorem registry_stopObserving (h : Hall) (c : Int) :
    (h.stopObserving c).registry = h.registry
        ∧ (∀ s, h.registry.session c = some s → s.observing = none)
      ∨ ∃ s r, h.registry.session c = some s ∧ s.observing = some r
        ∧ (h.stopObserving c).registry = h.registry.unwatch c r := by
  unfold stopObserving
  cases hs : h.session? c with
  | none =>
      refine Or.inl ⟨rfl, ?_⟩
      intro s hs'
      cases hs.symm.trans hs'
  | some s =>
      dsimp only
      cases ho : s.observing with
      | none =>
          refine Or.inl ⟨rfl, ?_⟩
          intro s' hs'
          cases hs.symm.trans hs'
          exact ho
      | some r =>
          refine Or.inr ⟨s, r, hs, ho, ?_⟩
          dsimp only
          have hupd : ((h.updateSession c fun s => { s with observing := none }).notify c
              "EnterLobby" []).registry = h.registry.updateSession c Registry.unwatched := by
            rw [wireless_registry.notify, registry_updateSession]
            rfl
          split
          -- the room is not there, and changing it changes nothing
          · rename_i hr
            rw [hupd]
            have hnone : (h.registry.updateSession c Registry.unwatched).room r = none := by
              rw [← hupd]; exact hr
            rw [Registry.unwatch, Registry.updateRoom, hnone, Option.map_none, Registry.setRoom,
              ← hnone, Function.update_eq_self]
          · rw [detached_registry.signal, registry_updateRoom, hupd]
            rfl

/-! ## Records -/

theorem sound_stopObserving {h : Hall} (hs : h.registry.Sound n) (c : Int) :
    (h.stopObserving c).registry.Sound n := by
  rcases registry_stopObserving h c with ⟨heq, _⟩ | ⟨s, r, hsess, hview, heq⟩
  · rw [heq]; exact hs
  · rw [heq]; exact Registry.sound_unwatch hs hsess hview

theorem sound_pass {h : Hall} (hs : h.registry.Sound n) (c : Int) (place : Place)
    (command payload : Octets) : (h.pass c place command payload).registry.Sound n := by
  have hforward : ∀ r, (h.forward c r command payload).registry.Sound n := by
    intro r
    unfold forward
    split
    · rw [detached_registry.signal]; exact hs
    · exact hs
  cases place with
  | lobby => exact hs
  | seated r => exact hforward r
  | watching r =>
      simp only [pass]
      split
      · exact sound_stopObserving hs c
      · exact hforward r

theorem sound_route {h : Hall} (hs : h.registry.Sound n) (c : Int) (record : Record) :
    (h.route c record).registry.Sound n := by
  unfold route
  split
  · exact hs
  · dsimp only
    have hupd : ∀ router : Router, (h.updateSession c fun s =>
        { s with link := { s.link with router := router } }).registry.Sound n := by
      intro router
      rw [registry_updateSession]
      exact Registry.sound_alike hs (Registry.alike_updateSession _ c fun _ => rfl)
    split
    · exact hupd _
    · exact sound_pass (hupd _) c _ _ _
    · exact sound_pass (hupd _) c _ _ _

/-- **A record keeps the tables in order**, be it a first record or a later one. -/
theorem sound_hear {h : Hall} (hs : h.registry.Sound n) (c : Int) (record : Record) :
    (h.hear c record).registry.Sound n := by
  unfold hear
  split
  · rename_i l hl
    have herase := registry_erasePending h c
    rcases registry_judge { h with pending := Assoc.erase h.pending c } c l record with
      heq | ⟨s, hroom, hview, hon, heq⟩
    · rw [heq, herase]
      exact Registry.sound_setPending_none hs c
    · rw [heq, herase]
      exact Registry.sound_signUp hs hl hroom hview hon
  · exact sound_route hs c record

/-! ## The end of a room and of a connection -/

theorem sound_finish {h : Hall} (hs : h.registry.Sound n) {r : Int} {x : Room}
    (hx : h.registry.room r = some x) : (h.finish r x).registry.Sound n := by
  rw [registry_finish]
  exact Registry.sound_endRoom hs hx

theorem sound_finishRoom {h : Hall} (hs : h.registry.Sound n) (r : Int) :
    (h.finishRoom r).2.registry.Sound n := by
  unfold finishRoom existingRoom
  cases hx : h.room? r with
  | none => exact hs
  | some x => exact sound_finish hs hx

theorem sound_checkAbandoned {h : Hall} (hs : h.registry.Sound n) (r : Int) :
    (h.checkAbandoned r).registry.Sound n := by
  unfold checkAbandoned
  split
  · exact hs
  · rename_i x _
    split
    · exact hs
    · dsimp only
      split
      · rw [detached_registry.signal, detached_registry.askCurrent]; exact hs
      · exact sound_finishRoom (by rw [detached_registry.askCurrent]; exact hs) r

theorem sound_leaveSeat {h : Hall} (hs : h.registry.Sound n) {c r : Int} {s : Session}
    (hsess : h.registry.session c = some s) (hroom : s.room ≠ lobbyRoom) :
    (h.leaveSeat c r).registry.Sound n := by
  have hupd : (h.updateSession c fun s => { s with state := .offline }).registry.Sound n := by
    rw [registry_updateSession]
    exact Registry.sound_offline hs hsess hroom
  unfold leaveSeat
  dsimp only
  refine sound_checkAbandoned ?_ r
  split
  · exact hupd
  · rw [detached_registry.signal, detached_registry.signal]; exact hupd

theorem sound_leave {h : Hall} (hs : h.registry.Sound n) {c : Int}
    (hview : ∀ s, h.registry.session c = some s → s.observing = none) :
    (h.leave c).registry.Sound n := by
  unfold leave
  split
  · exact hs
  · rename_i s hsess
    dsimp only
    -- the router is changed first, which moves nobody
    have halike : h.registry.Alike (h.updateSession c fun s =>
        { s with link := { s.link with router := s.link.router.setAccepting false } }).registry := by
      rw [registry_updateSession]
      exact Registry.alike_updateSession _ c fun _ => rfl
    have hsound := Registry.sound_alike hs halike
    obtain ⟨s', hs', hstanding⟩ : ∃ s', (h.updateSession c fun s =>
        { s with link := { s.link with router := s.link.router.setAccepting false } }).registry.session
          c = some s' ∧ Registry.standing s' = Registry.standing s := by
      have hc := halike.session c
      rw [show h.registry.session c = some s from hsess, Option.map_some] at hc
      exact Option.map_eq_some_iff.mp hc
    simp only [Registry.standing, Prod.mk.injEq] at hstanding
    obtain ⟨hroom, hobs, _⟩ := hstanding
    split
    · rename_i hlobby
      rw [registry_eraseSession]
      refine Registry.sound_drop hsound hs' (Registry.inLobby_iff.mpr ⟨?_, ?_⟩)
      · rw [hroom]; exact hlobby
      · rw [hobs]; exact hview s hsess
    · rename_i hlobby
      exact sound_leaveSeat hsound hs' (by rw [hroom]; exact hlobby)

/-- **The end of a connection keeps the tables in order**, whatever the connection was. -/
theorem sound_closed {h : Hall} (hs : h.registry.Sound n) (c : Int) : (h.closed c).registry.Sound n := by
  unfold closed
  split
  · rw [registry_erasePending]
    exact Registry.sound_setPending_none hs c
  -- whoever leaves has stopped watching, and so is in the lobby or in a seat
  · refine sound_leave (sound_stopObserving hs c) ?_
    rcases registry_stopObserving h c with ⟨heq, hnone⟩ | ⟨s, r, hsess, _, heq⟩
    · rw [heq]; exact hnone
    · rw [heq]
      intro s' hs'
      have : some (Registry.unwatched s) = some s' := by
        simpa [Registry.unwatch, Registry.updateSession, Registry.updateRoom, Registry.setSession,
          Registry.setRoom, hsess] using hs'
      cases this
      rfl

/-! ## Requests -/

/-- A request of a player is refused unless the player is in the lobby. -/
theorem lobbySession_ok {h : Hall} {c : Int} {s : Session} (hok : h.lobbySession c = .ok s) :
    h.registry.session c = some s ∧ s.inLobby = true := by
  unfold lobbySession at hok
  split at hok
  · cases hok
  · rename_i s' hs'
    split at hok
    · rename_i hlobby
      cases hok
      exact ⟨hs', hlobby⟩
    · cases hok

theorem existingRoom_ok {h : Hall} {r : Int} {x : Room} (hok : h.existingRoom r = .ok x) :
    h.registry.room r = some x := by
  unfold existingRoom at hok
  split at hok
  · rename_i hx
    cases hok
    exact hx
  · cases hok

theorem sound_seatPlayer {h : Hall} (hs : h.registry.Sound n) (c r : Int) :
    (h.seatPlayer c r).2.registry.Sound n := by
  unfold seatPlayer
  split
  · exact hs
  · exact hs
  · rename_i s x hsess hx
    obtain ⟨hsess', hlobby⟩ := lobbySession_ok hsess
    dsimp only
    rw [registry_seat]
    exact Registry.sound_seat hs hsess' hlobby (existingRoom_ok hx)

theorem sound_observeRoom {h : Hall} (hs : h.registry.Sound n) (c r : Int) :
    (h.observeRoom c r).2.registry.Sound n := by
  unfold observeRoom
  split
  · exact hs
  · exact hs
  · rename_i s x hsess hx
    obtain ⟨hsess', hlobby⟩ := lobbySession_ok hsess
    dsimp only
    rw [registry_watch]
    exact Registry.sound_watch hs hsess' hlobby (existingRoom_ok hx)

/-- A room that is made is made with its owner in it. -/
theorem sound_place {h : Hall} (hs : h.registry.Sound n) {owner : Int} {s : Session}
    (hsess : h.registry.session owner = some s) (hlobby : s.inLobby = true) (id : Int)
    (name : String) (x : Room) :
    ((h.place id name).2.seat owner (h.place id name).1 s x).registry.Sound n := by
  rw [registry_seat, registry_place]
  exact Registry.sound_openRoom hs hsess hlobby rfl rfl

theorem sound_makeRoom {h : Hall} (hs : h.registry.Sound n) {owner : Int} {s : Session}
    (hsess : h.registry.session owner = some s) (hlobby : s.inLobby = true) (name : String)
    (canSpawn : Bool) : (h.makeRoom owner s name canSpawn).2.registry.Sound n := by
  unfold makeRoom
  split
  split
  · rw [detached_registry.pool]; exact hs
  -- the pool has changed, but nobody has moved
  · dsimp only
    refine sound_place ?_ ?_ hlobby _ name _
    · split <;> exact hs
    · split <;> exact hsess

/-- **A new room keeps the tables in order**, and so does a request for one that comes to nothing. -/
theorem sound_createRoom {h : Hall} (hs : h.registry.Sound n) (owner : Int) (name : String)
    (canSpawn : Bool) : (h.createRoom owner name canSpawn).2.registry.Sound n := by
  unfold createRoom
  split
  · exact hs
  · rename_i s hsess
    obtain ⟨hsess', hlobby⟩ := lobbySession_ok hsess
    rw [← detached_registry.sweep] at hs hsess'
    exact sound_makeRoom hs hsess' hlobby name canSpawn

theorem sound_put {h : Hall} (hs : h.registry.Sound n) (c : Int) (canSpawn : Bool)
    (request : Lobby.Request) : (request.put h c canSpawn).2.registry.Sound n := by
  cases request with
  | createRoom name =>
      rw [Lobby.Request.put_createRoom]
      exact sound_createRoom hs c name canSpawn
  | enterRoom r => exact sound_seatPlayer hs c r
  | observeRoom r => exact sound_observeRoom hs c r
  | malformed words => exact hs

/-! ## Upkeep -/

theorem sound_loseRoom {h : Hall} (hs : h.registry.Sound n) (r : Int) :
    (h.loseRoom r).registry.Sound n := by
  unfold loseRoom
  split
  · exact hs
  · rename_i x hx
    dsimp only
    have hshow : ((x.players ++ x.observers).foldl (fun h c => h.showError c engineGone) h).registry
        = h.registry := view_foldl (fun h c => wireless_registry.showError h c engineGone) h _
    exact sound_finish (by rw [hshow]; exact hs) (by rw [hshow]; exact hx)

theorem sound_schedulerFailed {h : Hall} (hs : h.registry.Sound n) (id : Int) :
    (h.schedulerFailed id).registry.Sound n := by
  have hfold : ∀ (l : List Int) (h : Hall), h.registry.Sound n →
      (l.foldl loseRoom h).registry.Sound n := by
    intro l
    induction l with
    | nil => intro h hs; exact hs
    | cons r l ih => intro h hs; exact ih _ (sound_loseRoom hs r)
  unfold schedulerFailed
  rw [detached_registry.retire]
  exact hfold _ h hs

theorem registry_refreshFingerprint (h : Hall) (reading : Except Fault String) :
    (h.refreshFingerprint reading).2.registry = h.registry := by
  unfold refreshFingerprint
  split
  · rfl
  · split
    · rfl
    · dsimp only
      rw [view_foldl detached_registry.wakeOutdated, detached_registry.sweep]
      rfl

theorem registry_reloadSettings (h : Hall) (reading : Except Fault Settings) :
    (h.reloadSettings reading).2.registry = h.registry := by
  cases reading <;> rfl

/-! ## Steps and runs -/

/-- While numbers are left, the next connection has the number after the latest. -/
theorem nextConnection_eq {h : Hall} (hlt : h.lastConnection < maxConnection) :
    h.nextConnection = h.lastConnection + 1 := by
  unfold nextConnection
  rw [if_neg (by omega)]

/-- Whether an event is a new connection. -/
def Event.isAccept : Event → Bool
  | accept _ => true
  | _ => false

/-- How many connections come in a list of events. -/
def accepted (events : List Event) : Nat := events.countP Event.isAccept

/-- **Every event keeps the tables in order.** -/
theorem sound_take {h : Hall} (hs : h.registry.Sound n) (hlt : h.lastConnection < maxConnection)
    (e : Event) : (h.take e).registry.Sound (n + accepted [e]) := by
  -- only a connection that is accepted uses up a number
  cases e with
  | pass span => exact hs
  | accept host =>
      show (h.accept host).registry.Sound (n + 1)
      rw [registry_accept, nextConnection_eq hlt]
      exact Registry.sound_accept hs _
  | expireSignUp c =>
      show (h.expireSignUp c).registry.Sound n
      rw [registry_expireSignUp]
      exact Registry.sound_setPending_none hs c
  | record c record => exact sound_hear hs c record
  | closed c => exact sound_closed hs c
  | shut c => exact Registry.sound_alike hs (alike_shut h c)
  | shutSoon c => exact Registry.sound_alike hs (alike_shutSoon h c)
  | lobby c request canSpawn => exact sound_put hs c canSpawn request
  | showError c words =>
      show (h.showError c words).registry.Sound n
      rw [wireless_registry.showError]; exact hs
  | createRoom owner name canSpawn => exact sound_createRoom hs owner name canSpawn
  | seatPlayer c r => exact sound_seatPlayer hs c r
  | observeRoom c r => exact sound_observeRoom hs c r
  | finishRoom r => exact sound_finishRoom hs r
  | engineUp id => exact hs
  | engineDown id => exact hs
  | startupOver id => exact hs
  | schedulerFailed id => exact sound_schedulerFailed hs id
  | refreshFingerprint reading =>
      show (h.refreshFingerprint reading).2.registry.Sound n
      rw [registry_refreshFingerprint]; exact hs
  | reloadSettings reading =>
      show (h.reloadSettings reading).2.registry.Sound n
      rw [registry_reloadSettings]; exact hs
  | effect call => exact Registry.sound_alike hs (alike_effect h call)
  | kick c => exact Registry.sound_alike hs (alike_kick h c)
  | temporarilyBan c => exact Registry.sound_alike hs (alike_temporarilyBan h c)

/-- An empty hall is in order. -/
theorem sound_new (authenticator : Authenticator) (settings : Settings) (fingerprint : String)
    (epoch : Int) : (new authenticator settings fingerprint epoch).registry.Sound 0 where
  numbers := {
    counted := rfl
    numbered := by intro c hc; rcases hc with hc | hc <;> cases hc
    apart := by intro c hc; cases hc
    opened := Int.le_refl 1
    rooms := by intro r hr; cases hr }
  agrees := {
    seated := by intro c r; exact ⟨fun hc => absurd hc List.not_mem_nil, fun hc => by cases hc⟩
    watching := by intro c r; exact ⟨fun hc => absurd hc List.not_mem_nil, fun hc => by cases hc⟩
    playersOnce := fun _ => List.nodup_nil
    observersOnce := fun _ => List.nodup_nil
    exclusive := by intro c hc; cases hc
    manned := by intro r hr; cases hr
    kept := by intro c s hs; cases hs }

/-- **A run keeps the tables in order** while connection numbers are left. A hall whose main loop has
died counts no more connections, so there may be fewer than have come. -/
theorem sound_run (events : List Event) {h : Hall} (hs : h.registry.Sound n)
    (hfew : n + accepted events < maxConnection) :
    ∃ m ≤ n + accepted events, (h.run events).registry.Sound m := by
  induction events generalizing h n with
  | nil => exact ⟨n, Nat.le_refl n, hs⟩
  | cons e events ih =>
      have hcount : accepted (e :: events) = accepted [e] + accepted events := by
        rw [accepted, accepted, accepted, ← List.countP_append]
        rfl
      rw [hcount] at hfew ⊢
      -- the number of connections so far is exact, so it is below the greatest number
      have hlt : h.lastConnection < maxConnection := by
        have hlast : h.lastConnection = n := hs.numbers.counted
        omega
      show ∃ m ≤ _, ((h.step e).run events).registry.Sound m
      unfold step
      split
      -- a hall whose main loop has died ignores the event
      · obtain ⟨m, hm, hsound⟩ := ih hs (by omega)
        exact ⟨m, by omega, hsound⟩
      · obtain ⟨m, hm, hsound⟩ := ih (sound_take hs hlt e) (by omega)
        exact ⟨m, by omega, hsound⟩

/-! ## What a sound registry says of the hall -/

/-- One room has a connection on its list of players or of observers, once, and no other room has it
on either list. -/
def OnlyIn (h : Hall) (side : Room → List Int) (c r : Int) : Prop :=
  (∃ x, h.room? r = some x ∧ (side x).count c = 1)
    ∧ ∀ q y, h.room? q = some y → q ≠ r → c ∉ y.players ∧ c ∉ y.observers

/-- The three tables of a hall say the same of every connection. -/
structure Consistent (h : Hall) : Prop where
  /-- No connection is pending and signed up. -/
  apart : ∀ c, ¬ ((Assoc.get? h.pending c).isSome ∧ (h.session? c).isSome)
  /-- A session has a seat in a room just if the room lists its player. -/
  seated : ∀ c s r, h.session? c = some s →
    (s.room = r ∧ r ≠ lobbyRoom ↔ ∃ x, h.room? r = some x ∧ c ∈ x.players)
  seatedOnce : ∀ c s, h.session? c = some s → s.room ≠ lobbyRoom → h.OnlyIn Room.players c s.room
  /-- A session watches a room just if the room lists it as an observer. -/
  watching : ∀ c s r, h.session? c = some s →
    (s.observing = some r ↔ ∃ x, h.room? r = some x ∧ c ∈ x.observers)
  watchingOnce : ∀ c s r, h.session? c = some s → s.observing = some r →
    h.OnlyIn Room.observers c r
  /-- Nobody watches from a seat. -/
  exclusive : ∀ c s, h.session? c = some s → s.observing.isSome → s.room = lobbyRoom
  /-- Whoever a room lists has a session. -/
  listed : ∀ r x c, h.room? r = some x → c ∈ x.players ∨ c ∈ x.observers → (h.session? c).isSome
  /-- A room has a player. -/
  manned : ∀ r x, h.room? r = some x → x.players ≠ []
  /-- Whoever is gone has a seat in a room that is there. -/
  kept : ∀ c s, h.session? c = some s → s.state = .offline →
    s.room ≠ lobbyRoom ∧ ∃ x, h.room? s.room = some x ∧ c ∈ x.players

theorem mem_players_iff {h : Hall} {r c : Int} :
    c ∈ h.registry.players r ↔ ∃ x, h.room? r = some x ∧ c ∈ x.players := by
  unfold Registry.players
  change c ∈ ((h.room? r).map Room.players).getD [] ↔ _
  cases h.room? r <;> simp

theorem mem_observers_iff {h : Hall} {r c : Int} :
    c ∈ h.registry.observers r ↔ ∃ x, h.room? r = some x ∧ c ∈ x.observers := by
  unfold Registry.observers
  change c ∈ ((h.room? r).map Room.observers).getD [] ↔ _
  cases h.room? r <;> simp

theorem seat?_eq_some_iff {s : Session} {r : Int} :
    s.seat? = some r ↔ s.room = r ∧ r ≠ lobbyRoom := by
  unfold Session.seat?
  split
  · rename_i hroom
    constructor
    · intro h; cases h
    · intro ⟨hr, hne⟩; exact absurd (hr.symm.trans hroom) hne
  · rename_i hroom
    rw [Option.some.injEq]
    constructor
    · intro h; exact ⟨h, h ▸ hroom⟩
    · intro h; exact h.1

/-- A room lists a player just if the session says so, -/
theorem exists_players_iff {h : Hall} (hs : h.registry.Sound n) {c : Int} {s : Session}
    (hsess : h.session? c = some s) (r : Int) :
    (∃ x, h.room? r = some x ∧ c ∈ x.players) ↔ s.room = r ∧ r ≠ lobbyRoom := by
  rw [← mem_players_iff, hs.agrees.seated c r, Registry.seatOf_eq hsess, seat?_eq_some_iff]

/-- and an observer likewise. -/
theorem exists_observers_iff {h : Hall} (hs : h.registry.Sound n) {c : Int} {s : Session}
    (hsess : h.session? c = some s) (r : Int) :
    (∃ x, h.room? r = some x ∧ c ∈ x.observers) ↔ s.observing = some r := by
  rw [← mem_observers_iff, hs.agrees.watching c r, Registry.viewOf_eq hsess]

/-- Whoever watches a room has no seat. -/
theorem room_of_observing {h : Hall} (hs : h.registry.Sound n) {c : Int} {s : Session}
    (hsess : h.session? c = some s) (hsome : s.observing.isSome) : s.room = lobbyRoom := by
  have hnone := hs.agrees.exclusive c (by rw [Registry.viewOf_eq hsess]; exact hsome)
  rw [Registry.seatOf_eq hsess] at hnone
  by_contra hne
  rw [seat?_eq_some_iff.mpr ⟨rfl, hne⟩] at hnone
  cases hnone

/-- **Tables in order are consistent.** -/
theorem consistent_of_sound {h : Hall} (hs : h.registry.Sound n) : h.Consistent where
  apart := by
    intro c ⟨hp, hc⟩
    have hnone : h.session? c = none := hs.numbers.apart c hp
    rw [hnone] at hc
    cases hc
  seated := fun c s r hsess => (exists_players_iff hs hsess r).symm
  seatedOnce := by
    intro c s hsess hne
    obtain ⟨x, hx, hc⟩ := (exists_players_iff hs hsess s.room).mpr ⟨rfl, hne⟩
    have honce := hs.agrees.playersOnce s.room
    rw [Registry.players_eq hx] at honce
    refine ⟨⟨x, hx, List.nodup_iff_count_eq_one.mp honce c hc⟩, ?_⟩
    intro q y hy hq
    constructor
    · intro hmem
      exact hq ((exists_players_iff hs hsess q).mp ⟨y, hy, hmem⟩).1.symm
    · intro hmem
      have hsome := (exists_observers_iff hs hsess q).mp ⟨y, hy, hmem⟩
      exact hne (room_of_observing hs hsess (by rw [hsome]; rfl))
  watching := fun c s r hsess => (exists_observers_iff hs hsess r).symm
  watchingOnce := by
    intro c s r hsess hobs
    obtain ⟨x, hx, hc⟩ := (exists_observers_iff hs hsess r).mpr hobs
    have honce := hs.agrees.observersOnce r
    rw [Registry.observers_eq hx] at honce
    refine ⟨⟨x, hx, List.nodup_iff_count_eq_one.mp honce c hc⟩, ?_⟩
    intro q y hy hq
    constructor
    · intro hmem
      obtain ⟨hroom, hne⟩ := (exists_players_iff hs hsess q).mp ⟨y, hy, hmem⟩
      exact hne (hroom.symm.trans (room_of_observing hs hsess (by rw [hobs]; rfl)))
    · intro hmem
      have hsome := (exists_observers_iff hs hsess q).mp ⟨y, hy, hmem⟩
      rw [hobs] at hsome
      exact hq (Option.some.inj hsome).symm
  exclusive := fun c s hsess => room_of_observing hs hsess
  listed := by
    intro r x c hx hc
    rcases hc with hc | hc
    · have hsome := (hs.agrees.seated c r).mp (mem_players_iff.mpr ⟨x, hx, hc⟩)
      obtain ⟨s, hsess, _⟩ := Option.bind_eq_some_iff.mp hsome
      exact Option.isSome_iff_exists.mpr ⟨s, hsess⟩
    · have hsome := (hs.agrees.watching c r).mp (mem_observers_iff.mpr ⟨x, hx, hc⟩)
      obtain ⟨s, hsess, _⟩ := Option.bind_eq_some_iff.mp hsome
      exact Option.isSome_iff_exists.mpr ⟨s, hsess⟩
  manned := by
    intro r x hx
    have hne := hs.agrees.manned r (Option.isSome_iff_exists.mpr ⟨x, hx⟩)
    rwa [Registry.players_eq hx] at hne
  kept := by
    intro c s hsess hoff
    have hne := hs.agrees.kept c s hsess (by simp [Session.isOnline, hoff])
    exact ⟨hne, (exists_players_iff hs hsess s.room).mpr ⟨rfl, hne⟩⟩

/-- **Every reachable hall is consistent**, in whatever order its events come. -/
theorem consistent_run (authenticator : Authenticator) (settings : Settings) (fingerprint : String)
    (epoch : Int) (events : List Event) (hfew : accepted events < maxConnection) :
    ((new authenticator settings fingerprint epoch).run events).Consistent := by
  obtain ⟨m, _, hsound⟩ := sound_run events (sound_new authenticator settings fingerprint epoch)
    (by omega)
  exact consistent_of_sound hsound

/-- The sign-up of a player with the rules `rules`. -/
def helloRecord (name : String) : Record :=
  ⟨Record.notificationId, SignUp.mask, SignUp.command,
    (Datum.array [.text name, .text "", .text "rules", .text "1", .text "device"]).write, none⟩

/-- Two players sit down in one room and a third watches, and then the second player is gone. -/
def evening : List Event :=
  [.accept (.v4 10 0 0 1), .accept (.v4 10 0 0 2), .accept (.v4 10 0 0 3),
    .record 1 (helloRecord "amy"), .record 2 (helloRecord "bob"), .record 3 (helloRecord "cas"),
    .createRoom 1 "den" true, .seatPlayer 2 1, .observeRoom 3 1, .closed 2]

theorem consistent_run_evening :
    ((new (.openToAll []) .initial "rules" 0).run evening).room? 1
        = some ⟨"den", 1000, [1, 2], [3]⟩
      ∧ ((new (.openToAll []) .initial "rules" 0).run evening).Consistent :=
  ⟨by decide +kernel, consistent_run (.openToAll []) .initial "rules" 0 evening (by decide)⟩

end Hall

end GameHall
