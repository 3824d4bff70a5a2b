import GameHall.Hall.Step

/-!
# Views of a hall

Most of what is proved of a hall is about a part of it: who has signed up, how many rooms a scheduler
hosts, what engines have been told. Such a part is a view, a function of the hall, and most operations
leave it alone. Which ones do follows from what the view does not see, and is proved here once for all
views:

* a `Wireless` view sees no frames;
* an `Unpeopled` one sees neither frames nor those who send and get them: rooms and schedulers are left,
  and what schedulers are told;
* a `Remote` one sees no schedulers, and of the acts only those that are sent to connections;
* a `Detached` one sees neither acts nor schedulers;
* a `Blind` one sees neither acts nor rooms nor schedulers nor pending connections, and of a session only
  whose it is.

A module that has a view says of which kind it is, and reads the equations off.
-/

namespace GameHall

/-- Whether an act is sent to a connection. The others are for engines and for the lobby. -/
def Act.isSent : Act → Bool
  | .frame _ _ | .close _ => true
  | _ => false

namespace Hall

variable {β : Type} {view : Hall → β}

/-- What every step of a fold leaves alone, the fold leaves alone. -/
theorem view_foldl {α : Type} {f : Hall → α → Hall}
    (hf : ∀ (h : Hall) (a : α), view (f h a) = view h) (h : Hall) (l : List α) :
    view (l.foldl f h) = view h := by
  induction l generalizing h with
  | nil => rfl
  | cons a l ih => exact (ih (f h a)).trans (hf h a)

/-! ## Views without frames -/

/-- A view that sees nothing of what is sent to connections. -/
structure Wireless (view : Hall → β) : Prop where
  frame : ∀ (h : Hall) (c : Int) (record : Record), view (h.act (.frame c record)) = view h
  close : ∀ (h : Hall) (c : Int), view (h.act (.close c)) = view h

namespace Wireless

variable (hv : Wireless view) (h : Hall)

include hv

/-- A frame goes out, or is dropped by a queue that is shut. -/
theorem deliver (c : Int) (l : Link) (record : Record) : view (h.deliver c l record) = view h := by
  unfold Hall.deliver
  split
  · exact hv.frame h c record
  · rfl

theorem hangUp (c : Int) (l : Link) : view (h.hangUp c l) = view h := by
  unfold Hall.hangUp
  split
  · exact hv.close h c
  · rfl

theorem notify (c : Int) (command : String) (payload : Octets) :
    view (h.notify c command payload) = view h := by
  unfold Hall.notify
  split
  · exact hv.deliver h c _ _
  · rfl

theorem showError (c : Int) (words : String) : view (h.showError c words) = view h :=
  hv.notify h c _ _

/-- A refusal is a frame and a close. -/
theorem reject (c : Int) (l : Link) (why : Refusal) : view (h.reject c l why) = view h :=
  (hv.hangUp _ c l).trans (hv.deliver h c l _)

/-- A sign-up that is refused, or whose greeting is cut short, changes no more than is sent. One that
succeeds adds a session to that. -/
theorem signUp_cases (c : Int) (l : Link) (s : SignUp) (who : Credentials) :
    view (h.signUp c l s who) = view h
      ∨ h.hasPlayer who.playerId = false ∧ l.isOpen = true ∧ l.isBrief = false ∧ ∃ g : Hall,
        h.signUp c l s who = { g with sessions := Assoc.set g.sessions c (newSession l s who) }
        ∧ view g = view h := by
  unfold Hall.signUp
  split
  · exact Or.inl (hv.reject h c l _)
  · rename_i hnew
    split
    · rename_i hopen
      dsimp only
      split
      · exact Or.inl ((hv.hangUp _ c l).trans (hv.deliver h c l _))
      · rename_i hbrief
        refine Or.inr ⟨Bool.eq_false_iff.mpr hnew, hopen, Bool.eq_false_iff.mpr hbrief, _, rfl, ?_⟩
        exact (hv.deliver _ c l _).trans (hv.deliver h c l _)
    · exact Or.inl rfl

/-- A first record makes a session if the queue takes the whole greeting, and changes no more than is sent
otherwise. The bans that are over and the question to the authenticator are for a view not to see. -/
theorem judge_cases (hchecks : ∀ (h : Hall) (bans : Assoc Host Moment) (asked : List SignUp),
      view { h with bans := bans, asked := asked } = view h) (c : Int) (l : Link) (record : Record) :
    view (h.judge c l record) = view h
      ∨ l.isOpen = true ∧ l.isBrief = false ∧ ∃ (s : SignUp) (who : Credentials) (g : Hall),
        h.judge c l record = { g with sessions := Assoc.set g.sessions c (newSession l s who) }
        ∧ view g = view h := by
  unfold Hall.judge
  split
  · exact Or.inl (hv.reject h c l _)
  · rename_i s _
    dsimp only
    split
    · exact Or.inl ((hv.reject _ c l _).trans (hchecks h _ h.asked))
    · split
      · exact Or.inl ((hv.reject _ c l _).trans (hchecks h _ _))
      · rename_i who _
        rcases hv.signUp_cases { h with bans := h.currentBans, asked := _ } c l s who with
          heq | ⟨_, hopen, hbrief, g, heq, hg⟩
        · exact Or.inl (heq.trans (hchecks h _ _))
        · exact Or.inr ⟨hopen, hbrief, s, who, g, heq, hg.trans (hchecks h _ _)⟩

end Wireless

/-! ## Views without people -/

/-- A view that sees rooms, schedulers and what these are told, and nothing of the people. -/
structure Unpeopled (view : Hall → β) : Prop extends Wireless view where
  sessions : ∀ (h : Hall) (l : Assoc Int Session), view { h with sessions := l } = view h
  pending : ∀ (h : Hall) (l : Assoc Int Link), view { h with pending := l } = view h
  lastConnection : ∀ (h : Hall) (c : Int), view { h with lastConnection := c } = view h
  asked : ∀ (h : Hall) (l : List SignUp), view { h with asked := l } = view h
  bans : ∀ (h : Hall) (l : Assoc Host Moment), view { h with bans := l } = view h
  crashed : ∀ (h : Hall) (b : Bool), view { h with crashed := b } = view h

namespace Unpeopled

variable (hv : Unpeopled view) (h : Hall)

include hv

theorem updateSession (c : Int) (f : Session → Session) : view (h.updateSession c f) = view h :=
  hv.sessions h _

/-- A ban is about an address. If its end cannot be told, the hall crashes. -/
theorem ban (host : Host) : view (h.ban host) = view h := by
  unfold Hall.ban
  split
  · rfl
  · dsimp only
    split
    · exact hv.bans h _
    · exact hv.crashed h _

theorem releaseObserver (c : Int) : view (h.releaseObserver c) = view h :=
  (hv.notify _ c _ _).trans (hv.updateSession h c _)

/-- A player comes home from a room, or loses the session and may be banned. -/
theorem releasePlayer (runaway : Bool) (c : Int) : view (h.releasePlayer runaway c) = view h := by
  unfold Hall.releasePlayer
  split
  · rfl
  · split
    · exact (hv.notify _ c _ _).trans (hv.updateSession h c _)
    · refine (hv.sessions _ _).trans ?_
      split
      · exact hv.ban h _
      · rfl

theorem accept (host : Host) : view (h.accept host) = view h := by
  unfold Hall.accept
  dsimp only
  rw [hv.pending, hv.deliver, hv.lastConnection]

theorem expireSignUp (c : Int) : view (h.expireSignUp c) = view h := by
  unfold Hall.expireSignUp
  split
  · rfl
  · exact (hv.hangUp _ c _).trans (hv.pending h _)

/-- A first record is checked against bans and the authenticator, and makes a session at most. -/
theorem judge (c : Int) (l : Link) (record : Record) : view (h.judge c l record) = view h := by
  have hchecks : ∀ (h : Hall) (bans : Assoc Host Moment) (asked : List SignUp),
      view { h with bans := bans, asked := asked } = view h :=
    fun h bans asked => (hv.asked { h with bans := bans } asked).trans (hv.bans h bans)
  rcases hv.judge_cases h hchecks c l record with heq | ⟨_, _, s, who, g, heq, hg⟩
  · exact heq
  · rw [heq, hv.sessions, hg]

/-- A kick is the close of a connection, before or after the sign-up. -/
theorem kick (c : Int) : view (h.kick c) = view h := by
  unfold Hall.kick
  split
  · rw [hv.updateSession, hv.hangUp]
  · split
    · exact (hv.pending _ _).trans (hv.hangUp h c _)
    · rfl

theorem temporarilyBan (c : Int) : view (h.temporarilyBan c) = view h := by
  unfold Hall.temporarilyBan
  dsimp only
  rw [hv.kick]
  split
  · exact hv.ban h _
  · rfl

theorem ask (c : Int) (command payload : Octets) (timeout : Int32) (timestamp : Option Int64) :
    view (h.ask c command payload timeout timestamp) = view h := by
  unfold Hall.ask
  split
  · rfl
  · exact (hv.deliver _ c _ _).trans (hv.updateSession h c _)

/-- What an engine asks without waiting for an answer is about people. -/
theorem effect (call : HostCall) : view (h.effect call) = view h := by
  cases call with
  | notify c command payload =>
      simp only [Hall.effect]
      split
      · exact hv.deliver h c _ _
      · rfl
  | request c command payload timeout timestamp => exact hv.ask h c _ _ _ _
  | setThinking c value => exact hv.updateSession h c _
  | setDied c value => exact hv.updateSession h c _
  | kick c => exact hv.kick h c
  | ban c => exact hv.temporarilyBan h c
  | _ => rfl

end Unpeopled

/-! ## Views without schedulers -/

/-- A view that sees no schedulers, and of the acts only those that are sent to connections. -/
structure Remote (view : Hall → β) : Prop where
  unsent : ∀ (h : Hall) (a : Act), a.isSent = false → view (h.act a) = view h
  pool : ∀ (h : Hall) (pool : Pool), view { h with pool := pool } = view h

namespace Remote

variable (hv : Remote view) (h : Hall)

include hv

/-- A signal is an act. If the engine is down it is lost, and the scheduler forgets its rules. -/
theorem signal (id : Int) (s : Signal) : view (h.signal id s) = view h := by
  unfold Hall.signal
  split
  · rfl
  · split
    · exact hv.unsent h _ rfl
    · exact hv.pool h _

/-- Whoever asks whether a scheduler is current makes it forget rules that are not. -/
theorem askCurrent (id : Int) : view (h.askCurrent id) = view h := hv.pool h _

/-- A scheduler that is retired leaves the pool and is told to quit. -/
theorem retire (id : Int) : view (h.retire id) = view h := by
  unfold Hall.retire
  split
  · exact (hv.unsent _ _ rfl).trans (hv.pool h _)
  · rfl

theorem sweep : view h.sweep = view h :=
  (view_foldl (fun h id => hv.unsent h (.quit id) rfl) _ _).trans (hv.pool h _)

/-- A scheduler without rooms is retired only if it is outdated. -/
theorem retireIdle (id : Int) : view (h.retireIdle id) = view h := by
  unfold Hall.retireIdle
  split
  · rfl
  · split
    · dsimp only
      split
      · exact (hv.retire _ id).trans (hv.pool h _)
      · exact hv.pool h _
    · rfl

/-- A scheduler is released from a room. -/
theorem releaseScheduler (r id : Int) : view (h.releaseScheduler r id) = view h := by
  unfold Hall.releaseScheduler
  dsimp only
  rw [hv.retireIdle, hv.pool, hv.signal, hv.signal]

theorem forward (c r : Int) (command payload : Octets) :
    view (h.forward c r command payload) = view h := by
  unfold Hall.forward
  split
  · exact hv.signal h _ _
  · rfl

/-- The rooms of an outdated scheduler are woken by signals. -/
theorem wakeOutdated (id : Int) : view (h.wakeOutdated id) = view h :=
  view_foldl (fun h r => hv.signal h id (.wake r "outdated")) h _

end Remote

/-- A view that sees neither acts nor schedulers. -/
structure Detached (view : Hall → β) : Prop extends Remote view, Wireless view where
  acts : ∀ (h : Hall) (acts : List Act), view { h with acts := acts } = view h
  unsent := fun h _ _ => acts h _
  frame := fun h _ _ => acts h _
  close := fun h _ => acts h _

theorem Detached.act (hv : Detached view) (h : Hall) (a : Act) : view (h.act a) = view h := hv.acts h _

/-! ## Views of the players -/

/-- A view that sees nothing of what goes on in rooms and on the wire, and of a session only whose it
is. -/
structure Blind (view : Hall → β) : Prop extends Detached view where
  rooms : ∀ (h : Hall) (rooms : Assoc Int Room), view { h with rooms := rooms } = view h
  nextRoom : ∀ (h : Hall) (n : Int), view { h with nextRoom := n } = view h
  fingerprint : ∀ (h : Hall) (rules : String), view { h with fingerprint := rules } = view h
  pending : ∀ (h : Hall) (pending : Assoc Int Link), view { h with pending := pending } = view h
  lastConnection : ∀ (h : Hall) (c : Int), view { h with lastConnection := c } = view h
  session : ∀ (h : Hall) (c : Int) (f : Session → Session), (∀ s, (f s).playerId = s.playerId) →
    (∀ s, (f s).device = s.device) → view (h.updateSession c f) = view h

namespace Blind

variable (hv : Blind view) (h : Hall)

include hv

/-! ## Rooms -/

/-- A seat is noted with the player and with the room, and both the engine and the player hear of it. -/
theorem seat (c r : Int) (s : Session) (x : Room) : view (h.seat c r s x) = view h := by
  unfold Hall.seat
  dsimp only
  rw [hv.notify, hv.signal, updateRoom, hv.rooms]
  exact hv.session h c _ (fun _ => rfl) fun _ => rfl

theorem watch (c r : Int) (s : Session) (x : Room) : view (h.watch c r s x) = view h := by
  unfold Hall.watch
  dsimp only
  rw [hv.notify, hv.signal, updateRoom, hv.rooms]
  exact hv.session h c _ (fun _ => rfl) fun _ => rfl

theorem seatPlayer (c r : Int) : view (h.seatPlayer c r).2 = view h := by
  unfold Hall.seatPlayer
  split
  · rfl
  · rfl
  · exact hv.seat h c r _ _

theorem observeRoom (c r : Int) : view (h.observeRoom c r).2 = view h := by
  unfold Hall.observeRoom
  split
  · rfl
  · rfl
  · exact hv.watch h c r _ _

/-- A room gets the next number, and its scheduler counts one more. -/
theorem place (id : Int) (name : String) : view (h.place id name).2 = view h := by
  unfold Hall.place
  dsimp only
  rw [hv.rooms, hv.signal]
  exact (hv.pool { h with nextRoom := h.nextRoom + 1 } _).trans (hv.nextRoom h _)

/-- A room may need a new scheduler, and its owner is seated in it. -/
theorem makeRoom (owner : Int) (s : Session) (name : String) (canSpawn : Bool) :
    view (h.makeRoom owner s name canSpawn).2 = view h := by
  unfold Hall.makeRoom
  split
  split
  · exact hv.pool h _
  · dsimp only
    rw [hv.seat, hv.place]
    split
    · exact (hv.act _ _).trans (hv.pool h _)
    · exact hv.pool h _

theorem createRoom (owner : Int) (name : String) (canSpawn : Bool) :
    view (h.createRoom owner name canSpawn).2 = view h := by
  unfold Hall.createRoom
  split
  · rfl
  · exact (hv.makeRoom _ owner _ name canSpawn).trans (hv.sweep h)

theorem put (c : Int) (canSpawn : Bool) (request : Lobby.Request) :
    view (request.put h c canSpawn).2 = view h := by
  cases request with
  | createRoom name =>
      rw [Lobby.Request.put_createRoom]
      exact hv.createRoom h c name canSpawn
  | enterRoom r => exact hv.seatPlayer h c r
  | observeRoom r => exact hv.observeRoom h c r
  | malformed words => rfl

/-- Watching ends for the player and for the room. The engine hears of it if the room is still there. -/
theorem stopObserving (c : Int) : view (h.stopObserving c) = view h := by
  unfold Hall.stopObserving
  split
  · rfl
  · split
    · rfl
    · dsimp only
      split
      · rw [hv.notify]
        exact hv.session h c _ (fun _ => rfl) fun _ => rfl
      · rw [hv.signal, updateRoom, hv.rooms, hv.notify]
        exact hv.session h c _ (fun _ => rfl) fun _ => rfl

theorem releaseObserver (c : Int) : view (h.releaseObserver c) = view h :=
  (hv.notify _ c _ _).trans (hv.session h c _ (fun _ => rfl) fun _ => rfl)

/-! ## Traffic -/

/-- What a router lets through is for the lobby or for an engine, or ends the watching. -/
theorem pass (c : Int) (place : Place) (command payload : Octets) :
    view (h.pass c place command payload) = view h := by
  cases place with
  | lobby => exact hv.act h _
  | seated r => exact hv.forward h c r command payload
  | watching r =>
      simp only [Hall.pass]
      split
      · exact hv.stopObserving h c
      · exact hv.forward h c r command payload

/-- A record changes the router of the player before anything is done about it. -/
theorem route (c : Int) (record : Record) : view (h.route c record) = view h := by
  have hrouter : ∀ router : Router, view (h.updateSession c fun s =>
      { s with link := { s.link with router := router } }) = view h :=
    fun _ => hv.session h c _ (fun _ => rfl) fun _ => rfl
  unfold Hall.route
  split
  · rfl
  · dsimp only
    split
    · exact hrouter _
    · rw [hv.pass, hrouter]
    · rw [hv.pass, hrouter]

theorem accept (host : Host) : view (h.accept host) = view h := by
  unfold Hall.accept
  dsimp only
  rw [hv.pending, hv.deliver]
  exact hv.lastConnection h _

theorem expireSignUp (c : Int) : view (h.expireSignUp c) = view h := by
  unfold Hall.expireSignUp
  split
  · rfl
  · exact (hv.hangUp _ c _).trans (hv.pending h _)

theorem shut (c : Int) : view (h.shut c) = view h :=
  (hv.session { h with pending := Assoc.update h.pending c fun l => { l with isOpen := false } } c
    (fun s => { s with link := { s.link with isOpen := false } }) (fun _ => rfl) fun _ => rfl).trans
    (hv.pending h _)

theorem shutSoon (c : Int) : view (h.shutSoon c) = view h := hv.pending h _

theorem kick (c : Int) : view (h.kick c) = view h := by
  unfold Hall.kick
  split
  · rename_i s _
    rw [← hv.hangUp h c s.link]
    exact hv.session _ c _ (fun _ => rfl) fun _ => rfl
  · split
    · exact (hv.pending _ _).trans (hv.hangUp h c _)
    · rfl

theorem ask (c : Int) (command payload : Octets) (timeout : Int32) (timestamp : Option Int64) :
    view (h.ask c command payload timeout timestamp) = view h := by
  unfold Hall.ask
  split
  · rfl
  · dsimp only
    rw [hv.deliver]
    exact hv.session h c _ (fun _ => rfl) fun _ => rfl

/-! ## Rules -/

/-- New rules sweep the pool and wake the rooms of schedulers that are outdated. -/
theorem refreshFingerprint (reading : Except Fault String) :
    view (h.refreshFingerprint reading).2 = view h := by
  unfold Hall.refreshFingerprint
  split
  · rfl
  · split
    · rfl
    · dsimp only
      rw [view_foldl hv.wakeOutdated, hv.sweep]
      exact hv.fingerprint h _

end Blind

end Hall

end GameHall
