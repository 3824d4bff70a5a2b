import GameHall.Proofs.Hall.Fewer

/-!
# Who speaks to an engine

A request tells an engine a room, a connection, a command and a payload. The hall makes requests of its
own when there is a new room and when a player sits down, and it passes on the records of players and
observers with the command and the payload they have. Nothing but the connection tells them apart.

So what the server says in its own name cannot be forged, and nobody speaks for another connection or
to another room (`requests_run`). That a player has sat down is said under the player's number, and
whoever is in the room may say the same (`observer_says_join`).
-/

namespace GameHall

/-- A signal that is a request only if something holds of it. -/
def Signal.RequestOnly (P : Int → Int → Octets → Octets → Prop) (s : Signal) : Prop :=
  ∀ r c command payload, s = .request r c command payload → P r c command payload

namespace Hall

/-! ## Where requests come from -/

/-- A player has a seat in a room, and the room lists the player. -/
def Seated (h : Hall) (c r : Int) : Prop :=
  ∃ s x, h.session? c = some s ∧ s.room = r ∧ h.room? r = some x ∧ c ∈ x.players

/-- A request that announces a room which an event makes. -/
structure AnnouncesRoom (h : Hall) (e : Event) (r : Int) (command payload : Octets) : Prop where
  asked : ∃ owner name, e.makes? = some (owner, name) ∧ payload = (Datum.text name).write
  command : command = Utf8.encode "newroom"
  number : r = h.nextRoom
  unused : h.room? r = none
  made : ((h.step e).room? r).isSome

/-- A request that announces a player of the lobby to whom an event gives a seat. -/
structure AnnouncesPlayer (h : Hall) (e : Event) (r c : Int) (payload : Octets) : Prop where
  asked : (∃ name, e.makes? = some (c, name)) ∨ e.sits? = some (c, r)
  described : ∃ s, h.session? c = some s ∧ s.inLobby = true ∧ payload = Utf8.encode (s.describe c)
  seated : (h.step e).Seated c r

/-- A request that is a record of someone who is in a room or watches it. -/
structure Spoken (h : Hall) (e : Event) (r c : Int) (command payload : Octets) : Prop where
  said : ∃ record, e = .record c record ∧ record.command = command ∧ record.payload = payload
  present : ∃ s, h.session? c = some s ∧ (s.place = .seated r ∨ s.place = .watching r)

/-- Where a request comes from that an event makes. -/
inductive Origin (h : Hall) (e : Event) (r c : Int) (command payload : Octets) : Prop where
  | room (hc : c = -1) (hroom : h.AnnouncesRoom e r command payload)
  | player (hcommand : command = Utf8.encode "join") (hplayer : h.AnnouncesPlayer e r c payload)
  | client (hspoken : h.Spoken e r c command payload)

/-- Whoever has been given a seat in a room has it. -/
theorem seated_of_seat {g : Hall} {t : Registry} {c r : Int} {s : Session} {x : Room}
    (heq : g.registry = t.seat c r) (hs : t.session c = some s) (hx : t.room r = some x) :
    g.Seated c r := by
  refine ⟨{ s with room := r }, { x with players := x.players ++ [c] }, ?_, rfl, ?_, by simp⟩
  · refine (congrFun (congrArg Registry.session heq) c).trans ?_
    simp [Registry.seat, Registry.updateRoom, Registry.updateSession, Registry.setRoom,
      Registry.setSession, hs]
  · refine (congrFun (congrArg Registry.room heq) r).trans ?_
    simp [Registry.seat, Registry.updateRoom, Registry.updateSession, Registry.setRoom,
      Registry.setSession, hx]

/-- **Every request of an event has one of the three origins.** -/
theorem tells_step {h : Hall} (hb : h.ledger.Balanced) (e : Event) :
    h.voice.Tells (fun _ => Signal.RequestOnly (h.Origin e)) (h.step e).voice := by
  obtain ⟨q, hq, hturn⟩ := exists_turn hb e
  have hvoice : (h.step e).voice = q.voice := congrArg Scene.voice hq
  have htables : (h.step e).registry = q.tables := congrArg Scene.tables hq
  rw [hvoice]
  -- a room hears a signal of a request just in the turns in which somebody sits down or speaks
  cases hturn with
  | deeds hdeeds =>
      refine tells_deeds (p := h.scene) (fun _ _ _ _ hnotice => ?_) (Registry.fewer_refl _) hdeeds
      cases hnotice <;> exact fun _ _ _ _ heq => nomatch heq
  | come => exact Voice.tells_of_calls rfl
  | signUp => exact Voice.tells_of_calls rfl
  | watch => exact Voice.tells_say fun _ _ _ _ heq => nomatch heq
  | sit he hs hlobby hx =>
      refine Voice.tells_say fun _ _ _ _ heq => ?_
      cases heq
      exact .player rfl ⟨Or.inr he, ⟨_, hs, hlobby, rfl⟩, seated_of_seat htables hs hx⟩
  | @found owner id name s v he hs hlobby _ hcalls =>
      have hopened : (h.registry.openRoom ⟨name, id, [], []⟩).room h.nextRoom
          = some ⟨name, id, [], []⟩ := Function.update_self _ _ _
      have hseated := seated_of_seat (t := h.registry.openRoom ⟨name, id, [], []⟩) htables hs hopened
      refine Voice.tells_trans (Voice.tells_of_calls hcalls) (Voice.tells_trans
        (Voice.tells_say fun _ _ _ _ heq => ?_) (Voice.tells_say fun _ _ _ _ heq => ?_))
      · cases heq
        obtain ⟨_, x, _, _, hx, _⟩ := hseated
        exact .room rfl ⟨⟨owner, name, he, rfl⟩, rfl, rfl, room?_of_nextRoom_le hb (Int.le_refl _), hx ▸ rfl⟩
      · cases heq
        exact .player rfl ⟨Or.inl ⟨name, he⟩, ⟨s, hs, hlobby, rfl⟩, hseated⟩
  | message he hs hplace =>
      unfold Scene.tell
      split
      · exact Voice.tells_of_calls rfl
      · refine Voice.tells_say fun _ _ _ _ heq => ?_
        cases heq
        exact .client ⟨⟨_, he, rfl, rfl⟩, _, hs, hplace⟩

theorem origin_of_mem {h : Hall} (hb : h.ledger.Balanced) {e : Event} {id r c : Int}
    {command payload : Octets} (hmem : (id, .request r c command payload) ∈ h.callsOf e) :
    h.Origin e r c command payload := by
  obtain ⟨new, hcalls, hnew⟩ := tells_step hb e
  rw [callsOf_eq hcalls] at hmem
  exact hnew id _ hmem r c command payload rfl

/-! ## Numbers of connections -/

end Hall

namespace Registry

/-- Connections have numbers from 1. -/
structure Positive (t : Registry) : Prop where
  last : 0 ≤ t.lastConnection ∧ t.lastConnection ≤ Hall.maxConnection
  pending : ∀ c, (t.pending c).isSome → 1 ≤ c
  session : ∀ c, (t.session c).isSome → 1 ≤ c

end Registry

namespace Hall

/-- **No connection gets a number below 1**, not even after the greatest has been given. -/
theorem positive_step {h : Hall} (hb : h.ledger.Balanced) (hp : h.registry.Positive) (e : Event) :
    (h.step e).registry.Positive := by
  have hturn := turn_step hb e
  -- after the greatest number comes 1
  have hlast : 0 ≤ h.lastConnection ∧ h.lastConnection ≤ maxConnection := hp.last
  have hnext : 1 ≤ h.nextConnection ∧ h.nextConnection ≤ maxConnection := by
    unfold nextConnection
    split
    · exact ⟨Int.le_refl 1, by decide⟩
    · omega
  have hknown : ∀ c, (h.step e).registry.Known c → 1 ≤ c := by
    intro c hc
    rcases known_turn hturn hc with hc | ⟨_, rfl⟩
    · exact hc.elim (hp.pending c) (hp.session c)
    · exact hnext.1
  exact {
    last := by
      rcases last_turn hturn with heq | ⟨_, heq⟩
      · exact heq ▸ hp.last
      · exact heq ▸ ⟨Int.le_trans (by decide) hnext.1, hnext.2⟩
    pending := fun c hc => hknown c (Or.inl hc)
    session := fun c hc => hknown c (Or.inr hc) }

theorem positive_new (authenticator : Authenticator) (settings : Settings) (fingerprint : String)
    (epoch : Int) : (new authenticator settings fingerprint epoch).registry.Positive where
  last := ⟨Int.le_refl 0, show 0 ≤ maxConnection by decide⟩
  pending := fun _ hc => nomatch hc
  session := fun _ hc => nomatch hc

theorem positive_run {h : Hall} (hb : h.ledger.Balanced) (hp : h.registry.Positive)
    (events : List Event) : (h.run events).registry.Positive := by
  induction events generalizing h with
  | nil => exact hp
  | cons e events ih => exact ih (balanced_step hb e) (positive_step hb hp e)

/-! ## What can be said in whose name -/

/-- What the requests of an event may say. -/
structure Requests (h : Hall) (e : Event) : Prop where
  /-- In its own name the server says that there is a new room, and nobody else says anything. -/
  server : ∀ id r command payload, (id, .request r (-1) command payload) ∈ h.callsOf e →
    h.AnnouncesRoom e r command payload
  /-- That a player has joined is said when the player is given a seat, or by the player. -/
  joins : ∀ id r c payload, (id, .request r c (Utf8.encode "join") payload) ∈ h.callsOf e →
    h.AnnouncesPlayer e r c payload ∨ h.Spoken e r c (Utf8.encode "join") payload
  /-- A record speaks for no one but its sender, and to no room but the one where the sender is. -/
  spoken : ∀ c record id r d command payload, e = .record c record →
    (id, .request r d command payload) ∈ h.callsOf e →
    d = c ∧ d ≠ -1 ∧ h.Spoken e r d command payload

/-- Whoever has a session has a number from 1, and the server does not. -/
theorem ne_server {h : Hall} (hp : h.registry.Positive) {c : Int} {s : Session}
    (hs : h.session? c = some s) : c ≠ -1 := by
  have := hp.session c (Option.isSome_iff_exists.mpr ⟨s, hs⟩)
  omega

/-- A record asks for no room and no seat, so the request it makes is the record itself. -/
theorem spoken_of_record {h : Hall} {c r d : Int} {record : Record} {command payload : Octets}
    (horigin : h.Origin (.record c record) r d command payload) :
    h.Spoken (.record c record) r d command payload := by
  cases horigin with
  | room _ hroom =>
      obtain ⟨_, _, hasked, _⟩ := hroom.asked
      cases hasked
  | player _ hplayer =>
      rcases hplayer.asked with ⟨_, hasked⟩ | hasked
      · cases hasked
      · cases hasked
  | client hspoken => exact hspoken

theorem requests_step {h : Hall} (hb : h.ledger.Balanced) (hp : h.registry.Positive) (e : Event) :
    h.Requests e where
  server := by
    intro id r command payload hmem
    cases origin_of_mem hb hmem with
    | room _ hroom => exact hroom
    | player _ hplayer =>
        obtain ⟨s, hs, _⟩ := hplayer.described
        exact absurd rfl (ne_server hp hs)
    | client hspoken =>
        obtain ⟨s, hs, _⟩ := hspoken.present
        exact absurd rfl (ne_server hp hs)
  joins := by
    intro id r c payload hmem
    cases origin_of_mem hb hmem with
    | room _ hroom => exact absurd hroom.command (by decide)
    | player _ hplayer => exact Or.inl hplayer
    | client hspoken => exact Or.inr hspoken
  spoken := by
    intro c record id r d command payload he hmem
    subst he
    have hspoken := spoken_of_record (origin_of_mem hb hmem)
    obtain ⟨s, hs, _⟩ := hspoken.present
    obtain ⟨_, he, _⟩ := hspoken.said
    cases he
    exact ⟨rfl, ne_server hp hs, hspoken⟩

/-- **Clients do not speak in the name of the server**, for one another or to other rooms, whatever they
send and in whatever order things happen. -/
theorem requests_run (authenticator : Authenticator) (settings : Settings) (fingerprint : String)
    (epoch : Int) (past : List Event) (e : Event) :
    ((new authenticator settings fingerprint epoch).run past).Requests e := by
  have hb := balanced_new authenticator settings fingerprint epoch
  have hp := positive_new authenticator settings fingerprint epoch
  exact requests_step (balanced_run hb past) (positive_run hb hp past) e

/-- Two players have signed up. The first has a room, and the second watches it. -/
def watched : List Event :=
  [.accept (.v4 10 0 0 1), .accept (.v4 10 0 0 2), .record 1 (helloRecord "amy"),
    .record 2 (helloRecord "bob"), .createRoom 1 "den" true, .observeRoom 2 1]

/-- What the server would say of the second player who sat down. -/
def bobAtDen : Octets :=
  Utf8.encode (Json.render (.object [(some "avatar", .ofText "liubei"), (some "connId", .ofInt 2),
    (some "id", .ofInt 2), (some "name", .ofText "bob"), (some "state", .ofText "online")]))

/-- **Whoever watches a room can say to its engine what the server says of a player who sits down.** -/
theorem observer_says_join :
    let h := (new (.openToAll []) .initial "rules" 0).run watched
    let e := Event.record 2 ⟨Record.notificationId, SignUp.mask, Utf8.encode "join", bobAtDen, none⟩
    h.callsOf e = [(1000, .request 1 2 (Utf8.encode "join") bobAtDen)]
      ∧ (h.session? 2).map (fun s => (s.observing, Utf8.encode (s.describe 2)))
        = some (some 1, bobAtDen)
      ∧ ¬ h.AnnouncesPlayer e 1 2 bobAtDen := by
  refine ⟨by decide +kernel, by decide +kernel, fun hplayer => ?_⟩
  rcases hplayer.asked with ⟨name, hasked⟩ | hasked <;> cases hasked

end Hall

end GameHall
