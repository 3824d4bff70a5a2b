import GameHall.Proofs.Hall.Consistency
import GameHall.Proofs.Hall.Views

/-!
# The limits of admission

Whoever signs up is let in only below the limits of the settings and under a player's number that
nobody has. Sessions of players who are gone count like the others.

The gate of a hall is what its limits are about: the settings, and the roll of those who have signed
up. Most operations leave the gate alone, some strike a player off the roll, and one puts a player on
it, after the checks (`entry_take`). The limits hold over a run by induction, whatever the
authenticator says (`limits_run`).
-/

namespace GameHall

/-- Whom a session is of. -/
structure Member where
  playerId : Int32
  device : String
  deriving DecidableEq

/-- The player of a session. -/
def Session.member (s : Session) : Member := ⟨s.playerId, s.device⟩

/-- The settings, and those who have signed up, by connection. -/
structure Gate where
  settings : Settings
  roll : Assoc Int Member

namespace Gate

/-- How many players there are on a device. -/
def onDevice (g : Gate) (device : String) : Nat := g.roll.countP fun e => e.2.device == device

/-- Nobody is new: the settings are the same, and on the roll is whoever has not been struck off. -/
structure Keeps (g g' : Gate) : Prop where
  settings : g'.settings = g.settings
  roll : g'.roll.Sublist g.roll

/-- No connection and no player is on the roll twice. -/
structure Single (g : Gate) : Prop where
  connections : (Assoc.keys g.roll).Nodup
  players : (g.roll.map fun e => e.2.playerId).Nodup

/-- The roll is within the limits. -/
structure Within (g : Gate) : Prop where
  capacity : g.roll.length ≤ g.settings.capacity
  device : ∀ device, g.onDevice device ≤ g.settings.maxPlayersPerDevice

variable {g g' g'' : Gate}

theorem keeps_refl (g : Gate) : g.Keeps g := ⟨rfl, List.Sublist.refl _⟩

theorem keeps_of_eq (h : g' = g) : g.Keeps g' := h ▸ keeps_refl g

theorem keeps_trans (h : g.Keeps g') (h' : g'.Keeps g'') : g.Keeps g'' :=
  ⟨h'.settings.trans h.settings, h'.roll.trans h.roll⟩

/-- Where nobody is new, no device has more players. -/
theorem onDevice_le_of_keeps (h : g.Keeps g') (device : String) :
    g'.onDevice device ≤ g.onDevice device := h.roll.countP_le

theorem single_of_keeps (h : g.Keeps g') (hg : g.Single) : g'.Single where
  connections := hg.connections.sublist (h.roll.map Prod.fst)
  players := hg.players.sublist (h.roll.map fun e => e.2.playerId)

theorem within_of_keeps (h : g.Keeps g') (hg : g.Within) : g'.Within where
  capacity := by
    rw [h.settings]
    exact Nat.le_trans h.roll.length_le hg.capacity
  device := by
    intro device
    rw [h.settings]
    exact Nat.le_trans (onDevice_le_of_keeps h device) (hg.device device)

/-! ## One player more -/

/-- Puts a player on the roll. -/
def enroll (g : Gate) (c : Int) (m : Member) : Gate := { g with roll := Assoc.set g.roll c m }

/-- A player more is a player more on one device. -/
theorem onDevice_enroll_le (g : Gate) (c : Int) (m : Member) (device : String) :
    (g.enroll c m).onDevice device ≤ g.onDevice device + if m.device == device then 1 else 0 :=
  Assoc.countP_set_le g.roll c m _

/-- A player who is not on the roll may be put on it, in the place of whatever the connection has there. -/
theorem single_enroll (hg : g.Single) {c : Int} {m : Member}
    (hnew : m.playerId ∉ g.roll.map fun e => e.2.playerId) : (g.enroll c m).Single where
  connections := Assoc.nodup_set hg.connections c m
  players := Assoc.nodup_map_set hg.players hnew

/-- **The limits are kept** when a player is put on the roll below them. -/
theorem within_enroll (hg : g.Within) {c : Int} {m : Member}
    (hcapacity : g.roll.length < g.settings.capacity)
    (hdevice : g.onDevice m.device < g.settings.maxPlayersPerDevice) : (g.enroll c m).Within where
  capacity := Nat.le_trans (Assoc.length_set_le g.roll c m) hcapacity
  device := by
    intro device
    have hle := onDevice_enroll_le g c m device
    by_cases hd : m.device = device
    · subst hd
      rw [if_pos (beq_self_eq_true _)] at hle
      exact Nat.le_trans hle hdevice
    · rw [if_neg (mt eq_of_beq hd)] at hle
      exact Nat.le_trans hle (hg.device device)

end Gate

/-- What is asked of the world is to send something to a connection or to close it. -/
def Act.IsTo (c : Int) (a : Act) : Prop := (∃ record, a = .frame c record) ∨ a = .close c

namespace Hall

open Gate

/-- What the limits of a hall are about. -/
def gate (h : Hall) : Gate := ⟨h.settings, Assoc.mapValues Session.member h.sessions⟩

theorem length_roll (h : Hall) : h.gate.roll.length = h.sessions.length := List.length_map _

theorem onDevice_eq (h : Hall) (device : String) : h.onDevice device = h.gate.onDevice device := by
  rw [onDevice, ← List.countP_eq_length_filter, Gate.onDevice, gate, Assoc.mapValues, List.countP_map]
  rfl

/-- Whether a player has signed up is on the roll. -/
theorem hasPlayer_iff (h : Hall) (playerId : Int32) :
    h.hasPlayer playerId = true ↔ playerId ∈ h.gate.roll.map fun e => e.2.playerId := by
  simp [hasPlayer, gate, Assoc.mapValues, Session.member]

theorem get?_roll (h : Hall) (c : Int) :
    Assoc.get? h.gate.roll c = (h.session? c).map Session.member :=
  Assoc.get?_mapValues Session.member h.sessions c

/-! ## What leaves the gate alone -/

section frame

variable (h : Hall)

/-- The gate sees nothing of what goes on in rooms and on the wire. -/
theorem blind_gate : Blind gate where
  acts _ _ := rfl
  rooms _ _ := rfl
  nextRoom _ _ := rfl
  pool _ _ := rfl
  fingerprint _ _ := rfl
  pending _ _ := rfl
  lastConnection _ _ := rfl
  session h c f hplayer hdevice := by
    have hmember : ∀ s, (f s).member = s.member := fun s => by
      rw [Session.member, Session.member, hplayer, hdevice]
    exact congrArg (Gate.mk h.settings) (Assoc.mapValues_update_of_eq hmember h.sessions c)

theorem gate_ban (host : Host) : (h.ban host).gate = h.gate := by
  unfold ban
  split
  · rfl
  · dsimp only; split <;> rfl

theorem gate_temporarilyBan (c : Int) : (h.temporarilyBan c).gate = h.gate := by
  unfold temporarilyBan
  dsimp only
  rw [blind_gate.kick]
  split
  · exact gate_ban h _
  · rfl

theorem gate_effect (call : HostCall) : (h.effect call).gate = h.gate := by
  cases call with
  | notify c command payload =>
      simp only [effect]
      split
      · exact blind_gate.deliver h c _ _
      · rfl
  | request c command payload timeout timestamp => exact blind_gate.ask h c command payload timeout timestamp
  | setThinking c value => exact blind_gate.session h c _ (fun _ => rfl) fun _ => rfl
  | setDied c value => exact blind_gate.session h c _ (fun _ => rfl) fun _ => rfl
  | kick c => exact blind_gate.kick h c
  | ban c => exact gate_temporarilyBan h c
  | _ => rfl

end frame

/-! ## Who is struck off the roll -/

section leaving

variable (h : Hall)

theorem keeps_eraseSession (c : Int) :
    h.gate.Keeps ({ h with sessions := Assoc.erase h.sessions c } : Hall).gate := by
  refine ⟨rfl, ?_⟩
  show (Assoc.mapValues Session.member (Assoc.erase h.sessions c)).Sublist h.gate.roll
  rw [Assoc.mapValues_erase]
  exact List.filter_sublist

theorem keeps_foldl {α : Type} {f : Hall → α → Hall}
    (hf : ∀ (h : Hall) (a : α), h.gate.Keeps (f h a).gate) (l : List α) :
    h.gate.Keeps (l.foldl f h).gate := by
  induction l generalizing h with
  | nil => exact keeps_refl _
  | cons a l ih => exact keeps_trans (hf h a) (ih (f h a))

/-- A player of a room that has ended stays on the roll if connected. -/
theorem keeps_releasePlayer (runaway : Bool) (c : Int) :
    h.gate.Keeps (h.releasePlayer runaway c).gate := by
  unfold releasePlayer
  split
  · exact keeps_refl _
  · split
    · refine keeps_of_eq ?_
      rw [blind_gate.notify]
      exact blind_gate.session h c _ (fun _ => rfl) fun _ => rfl
    · dsimp only
      refine keeps_trans (keeps_of_eq ?_) (keeps_eraseSession _ c)
      split
      · exact gate_ban h _
      · rfl

theorem keeps_finish (r : Int) (x : Room) : h.gate.Keeps (h.finish r x).gate := by
  unfold finish
  dsimp only
  rw [blind_gate.releaseScheduler]
  refine keeps_trans (keeps_of_eq ?_) (keeps_foldl _ (fun h c => keeps_releasePlayer h _ c) x.players)
  rw [askCurrent, blind_gate.pool, view_foldl blind_gate.releaseObserver]
  rfl

theorem keeps_finishRoom (r : Int) : h.gate.Keeps (h.finishRoom r).2.gate := by
  unfold finishRoom
  split
  · exact keeps_refl _
  · exact keeps_finish h r _

theorem keeps_checkAbandoned (r : Int) : h.gate.Keeps (h.checkAbandoned r).gate := by
  unfold checkAbandoned
  split
  · exact keeps_refl _
  · split
    · exact keeps_refl _
    · dsimp only
      split
      · exact keeps_of_eq (by rw [blind_gate.signal, askCurrent, blind_gate.pool])
      · exact keeps_finishRoom (h.askCurrent _) r

theorem keeps_leaveSeat (c r : Int) : h.gate.Keeps (h.leaveSeat c r).gate := by
  unfold leaveSeat
  dsimp only
  refine keeps_trans (keeps_of_eq ?_) (keeps_checkAbandoned _ r)
  have hupd : (h.updateSession c fun s => { s with state := .offline }).gate = h.gate :=
    blind_gate.session h c _ (fun _ => rfl) fun _ => rfl
  split
  · exact hupd
  · rw [blind_gate.signal, blind_gate.signal, hupd]

theorem keeps_leave (c : Int) : h.gate.Keeps (h.leave c).gate := by
  unfold leave
  split
  · exact keeps_refl _
  · dsimp only
    have hrouter : (h.updateSession c fun s =>
        { s with link := { s.link with router := s.link.router.setAccepting false } }).gate = h.gate :=
      blind_gate.session h c _ (fun _ => rfl) fun _ => rfl
    refine keeps_trans (keeps_of_eq hrouter) ?_
    split
    · exact keeps_eraseSession _ c
    · exact keeps_leaveSeat _ c _

theorem keeps_closed (c : Int) : h.gate.Keeps (h.closed c).gate := by
  unfold closed
  split
  · exact keeps_refl _
  · refine keeps_trans (keeps_of_eq ?_) (keeps_leave _ c)
    exact blind_gate.stopObserving h c

/-- An engine that has failed may cost its players their sessions, and brings nobody in. -/
theorem keeps_schedulerFailed (id : Int) : h.gate.Keeps (h.schedulerFailed id).gate := by
  have hlose : ∀ (h : Hall) (r : Int), h.gate.Keeps (h.loseRoom r).gate := by
    intro h r
    unfold loseRoom
    split
    · exact keeps_refl _
    · refine keeps_trans (keeps_of_eq ?_) (keeps_finish _ r _)
      exact view_foldl (fun h c => blind_gate.showError h c engineGone) h _
  unfold schedulerFailed
  rw [blind_gate.retire]
  exact keeps_foldl h hlose _

end leaving

/-! ## Signing up -/

/-- The first record of a connection is a sign-up that passes the checks, of a player whom the
authenticator knows. What is left to see is whether the player has signed up already. -/
structure Applies (h : Hall) (c : Int) (record : Record) (link : Link) (s : SignUp)
    (who : Credentials) : Prop where
  pending : Assoc.get? h.pending c = some link
  form : SignUp.ofRecord? record = some s
  passes : h.refusal? s link.host = none
  known : h.authenticator.verdict h.asked s = .ok who

/-- The player of a sign-up. -/
def member (s : SignUp) (who : Credentials) : Member := ⟨who.playerId, s.uuid⟩

/-- A sign-up that passes the checks is below the limits. -/
theorem limits_of_passes {h : Hall} {s : SignUp} {host : Host} (hpasses : h.refusal? s host = none) :
    h.sessions.length < h.settings.capacity
      ∧ h.onDevice s.uuid < h.settings.maxPlayersPerDevice := by
  unfold refusal? at hpasses
  split at hpasses
  · cases hpasses
  split at hpasses
  · cases hpasses
  split at hpasses
  · cases hpasses
  split at hpasses
  · cases hpasses
  rename_i hcapacity hdevice
  exact ⟨Nat.lt_of_not_le hcapacity, Nat.lt_of_not_le hdevice⟩

/-- A first record that does not apply, and one of a player who has signed up already, are refused. -/
theorem gate_judge (h : Hall) (c : Int) (link : Link) (record : Record) :
    (h.judge c link record).gate = h.gate
      ∨ ∃ s who, SignUp.ofRecord? record = some s ∧ h.refusal? s link.host = none
        ∧ h.authenticator.verdict h.asked s = .ok who ∧ h.hasPlayer who.playerId = false
        ∧ (h.judge c link record).gate = h.gate.enroll c (member s who) := by
  have hreject : ∀ (bans : Assoc Host Moment) (asked : List SignUp) (why : Refusal),
      (({ h with bans := bans, asked := asked } : Hall).reject c link why).gate = h.gate :=
    fun bans asked why => blind_gate.reject { h with bans := bans, asked := asked } c link why
  -- check by check: every refusal leaves the gate as it is
  unfold judge
  split
  · exact Or.inl (hreject h.bans h.asked _)
  rename_i s hform
  dsimp only
  split
  · exact Or.inl (hreject _ h.asked _)
  rename_i hpasses
  split
  · exact Or.inl (hreject _ _ _)
  rename_i who hknown
  rcases blind_gate.signUp_cases { h with bans := h.currentBans, asked := s :: h.asked } c link s who with
    heq | ⟨hnew, _, _, g, heq, hg⟩
  · exact Or.inl heq
  · refine Or.inr ⟨s, who, hform, hpasses, hknown, hnew, ?_⟩
    have hroll : Assoc.mapValues Session.member (Assoc.set g.sessions c (newSession link s who))
        = Assoc.set g.gate.roll c (member s who) := Assoc.mapValues_set _ _ _ _
    rw [heq]
    exact (congrArg (Gate.mk g.settings) hroll).trans (congrArg (Gate.enroll · c (member s who)) hg)

/-- What the gate of a hall may become with an event. -/
inductive Entry (h : Hall) (e : Event) : Gate → Prop where
  | keeps {g : Gate} (hkeeps : h.gate.Keeps g) : Entry h e g
  /-- There are other settings. -/
  | reload {settings : Settings} (he : e = .reloadSettings (.ok settings)) :
      Entry h e { h.gate with settings := settings }
  /-- A player has signed up. -/
  | enroll {c : Int} {record : Record} {link : Link} {s : SignUp} {who : Credentials}
      (he : e = .record c record) (happlies : h.Applies c record link s who)
      (hnew : h.hasPlayer who.playerId = false) : Entry h e (h.gate.enroll c (member s who))

theorem entry_hear (h : Hall) (c : Int) (record : Record) :
    Entry h (.record c record) (h.hear c record).gate := by
  unfold hear
  split
  · rename_i link hlink
    rcases gate_judge { h with pending := Assoc.erase h.pending c } c link record with
      heq | ⟨s, who, hform, hpasses, hknown, hnew, heq⟩
    · exact .keeps (keeps_of_eq heq)
    · rw [heq]
      exact .enroll rfl ⟨hlink, hform, hpasses, hknown⟩ hnew
  · exact .keeps (keeps_of_eq (blind_gate.route h c record))

/-- **An event puts at most one player on the roll**, and not without the checks. -/
theorem entry_take (h : Hall) (e : Event) : Entry h e (h.take e).gate := by
  cases e with
  | pass span => exact .keeps (keeps_refl _)
  | accept host => exact .keeps (keeps_of_eq (blind_gate.accept h host))
  | expireSignUp c => exact .keeps (keeps_of_eq (blind_gate.expireSignUp h c))
  | record c record => exact entry_hear h c record
  | closed c => exact .keeps (keeps_closed h c)
  | shut c => exact .keeps (keeps_of_eq (blind_gate.shut h c))
  | shutSoon c => exact .keeps (keeps_of_eq (blind_gate.shutSoon h c))
  | lobby c request canSpawn => exact .keeps (keeps_of_eq (blind_gate.put h c canSpawn request))
  | showError c words => exact .keeps (keeps_of_eq (blind_gate.showError h c words))
  | createRoom owner name canSpawn => exact .keeps (keeps_of_eq (blind_gate.createRoom h owner name canSpawn))
  | seatPlayer c r => exact .keeps (keeps_of_eq (blind_gate.seatPlayer h c r))
  | observeRoom c r => exact .keeps (keeps_of_eq (blind_gate.observeRoom h c r))
  | finishRoom r => exact .keeps (keeps_finishRoom h r)
  | engineUp id => exact .keeps (keeps_refl _)
  | engineDown id => exact .keeps (keeps_refl _)
  | startupOver id => exact .keeps (keeps_refl _)
  | schedulerFailed id => exact .keeps (keeps_schedulerFailed h id)
  | refreshFingerprint reading => exact .keeps (keeps_of_eq (blind_gate.refreshFingerprint h reading))
  | reloadSettings reading =>
      cases reading with
      | error fault => exact .keeps (keeps_refl _)
      | ok settings => exact .reload rfl
  | effect call => exact .keeps (keeps_of_eq (gate_effect h call))
  | kick c => exact .keeps (keeps_of_eq (blind_gate.kick h c))
  | temporarilyBan c => exact .keeps (keeps_of_eq (gate_temporarilyBan h c))

theorem entry_step (h : Hall) (e : Event) : Entry h e (h.step e).gate := by
  unfold step
  split
  · exact .keeps (keeps_refl _)
  · exact entry_take h e

/-! ## Steps and runs -/

/-- Whether an event brings other settings. -/
def Event.reloads : Event → Bool
  | reloadSettings (.ok _) => true
  | _ => false

theorem single_step {h : Hall} (hs : h.gate.Single) (e : Event) : (h.step e).gate.Single := by
  have hentry := entry_step h e
  generalize (h.step e).gate = g at hentry ⊢
  cases hentry with
  | keeps hkeeps => exact single_of_keeps hkeeps hs
  | reload => exact ⟨hs.connections, hs.players⟩
  | enroll _ _ hnew =>
      refine single_enroll hs fun hmem => ?_
      cases hnew.symm.trans ((hasPlayer_iff h _).mpr hmem)

theorem within_step {h : Hall} (hw : h.gate.Within) {e : Event} (he : e.reloads = false) :
    (h.step e).gate.Within ∧ (h.step e).gate.settings = h.gate.settings := by
  have hentry := entry_step h e
  generalize (h.step e).gate = g at hentry ⊢
  cases hentry with
  | keeps hkeeps => exact ⟨within_of_keeps hkeeps hw, hkeeps.settings⟩
  | reload hreload =>
      rw [hreload] at he
      cases he
  | enroll _ happlies =>
      obtain ⟨hcapacity, hdevice⟩ := limits_of_passes happlies.passes
      rw [← length_roll] at hcapacity
      rw [onDevice_eq] at hdevice
      exact ⟨within_enroll hw hcapacity hdevice, rfl⟩

/-- No player is there twice, at the end of any run. -/
theorem single_run (events : List Event) {h : Hall} (hs : h.gate.Single) :
    (h.run events).gate.Single := by
  induction events generalizing h with
  | nil => exact hs
  | cons e events ih => exact ih (single_step hs e)

/-- **The limits are kept** as long as they are the same. -/
theorem within_run (events : List Event) {h : Hall} (hw : h.gate.Within)
    (hsame : ∀ e ∈ events, e.reloads = false) :
    (h.run events).gate.Within ∧ (h.run events).gate.settings = h.gate.settings := by
  induction events generalizing h with
  | nil => exact ⟨hw, rfl⟩
  | cons e events ih =>
      obtain ⟨hw', hsettings⟩ := within_step hw (hsame e List.mem_cons_self)
      rw [← hsettings]
      exact ih hw' fun e' he' => hsame e' (List.mem_cons_of_mem e he')

/-- Whoever has signed up after an event had signed up before it, or signs up with it below the
limits. -/
theorem session_step {h : Hall} (hs : h.gate.Single) {e : Event} {c : Int} {s : Session}
    (hsess : (h.step e).session? c = some s) :
    (∃ s', h.session? c = some s' ∧ s'.member = s.member)
      ∨ h.sessions.length < h.settings.capacity
        ∧ h.onDevice s.device < h.settings.maxPlayersPerDevice
        ∧ h.hasPlayer s.playerId = false := by
  have hold : Assoc.get? h.gate.roll c = some s.member →
      ∃ s', h.session? c = some s' ∧ s'.member = s.member := by
    intro hget
    rw [get?_roll] at hget
    exact Option.map_eq_some_iff.mp hget
  have hget : Assoc.get? (h.step e).gate.roll c = some s.member := by
    rw [get?_roll, hsess]
    rfl
  have hentry := entry_step h e
  generalize (h.step e).gate = g at hentry hget
  -- the roll grows only by somebody who has passed the checks
  cases hentry with
  | keeps hkeeps => exact Or.inl (hold (Assoc.get?_of_sublist hs.connections hkeeps.roll hget))
  | reload => exact Or.inl (hold hget)
  | @enroll d _ _ sign who _ happlies hnew =>
      by_cases hd : d = c
      · subst hd
        have hmember : member sign who = s.member :=
          Option.some.inj ((Assoc.get?_set_self h.gate.roll d _).symm.trans hget)
        rw [show s.device = sign.uuid from (congrArg Member.device hmember).symm,
          show s.playerId = who.playerId from (congrArg Member.playerId hmember).symm]
        obtain ⟨hcapacity, hdevice⟩ := limits_of_passes happlies.passes
        exact Or.inr ⟨hcapacity, hdevice, hnew⟩
      · exact Or.inl (hold ((Assoc.get?_set_of_ne hd).symm.trans hget))

/-- Nobody is let in at the limits in force, whatever they are. -/
theorem length_step_le {h : Hall} (hfull : h.settings.capacity ≤ h.sessions.length) (e : Event) :
    (h.step e).sessions.length ≤ h.sessions.length := by
  rw [← length_roll, ← length_roll]
  have hentry := entry_step h e
  generalize (h.step e).gate = g at hentry ⊢
  cases hentry with
  | keeps hkeeps => exact hkeeps.roll.length_le
  | reload => exact Nat.le_refl _
  | enroll _ happlies => exact absurd (limits_of_passes happlies.passes).1 (Nat.not_lt.mpr hfull)

theorem onDevice_step_le {h : Hall} {device : String}
    (hfull : h.settings.maxPlayersPerDevice ≤ h.onDevice device) (e : Event) :
    (h.step e).onDevice device ≤ h.onDevice device := by
  rw [onDevice_eq, onDevice_eq]
  have hentry := entry_step h e
  generalize (h.step e).gate = g at hentry ⊢
  cases hentry with
  | keeps hkeeps => exact onDevice_le_of_keeps hkeeps device
  | reload => exact Nat.le_refl _
  | @enroll c _ _ s who _ happlies =>
      have hle := onDevice_enroll_le h.gate c (member s who) device
      -- the player who signs up is on another device
      have hne : s.uuid ≠ device := by
        intro heq
        have hbelow := (limits_of_passes happlies.passes).2
        rw [heq] at hbelow
        omega
      have hother : ¬ ((member s who).device == device) = true := mt eq_of_beq hne
      rwa [if_neg hother] at hle

/-! ## A second login -/

theorem acts_reject (h : Hall) (c : Int) (link : Link) (why : Refusal) :
    ∃ new, (h.reject c link why).acts = h.acts ++ new ∧ ∀ a ∈ new, a.IsTo c := by
  unfold reject hangUp deliver
  split
  · refine ⟨[.frame c _, .close c], List.append_assoc _ [_] [_], fun a ha => ?_⟩
    rcases List.mem_cons.mp ha with rfl | ha
    · exact Or.inl ⟨_, rfl⟩
    · exact Or.inr (List.mem_singleton.mp ha)
  · exact ⟨[], (List.append_nil _).symm, fun a ha => absurd ha List.not_mem_nil⟩

theorem sessions_reject (h : Hall) (c : Int) (link : Link) (why : Refusal) :
    (h.reject c link why).sessions = h.sessions := by
  unfold reject hangUp deliver
  split <;> rfl

/-- **A second login concerns nobody else.** The sessions stay as they are, links and all, and all that
is sent goes to the connection that is refused. -/
theorem hear_of_duplicate {h : Hall} {c : Int} {record : Record} {link : Link} {s : SignUp}
    {who : Credentials} (happlies : h.Applies c record link s who)
    (htwice : h.hasPlayer who.playerId = true) :
    (h.hear c record).sessions = h.sessions
      ∧ ∃ new, (h.hear c record).acts = h.acts ++ new ∧ ∀ a ∈ new, a.IsTo c := by
  have heq : h.hear c record = ({ h with
      pending := Assoc.erase h.pending c
      bans := h.currentBans
      asked := s :: h.asked } : Hall).reject c link .duplicate := by
    have hpasses : ({ h with pending := Assoc.erase h.pending c } : Hall).refusal? s link.host = none :=
      happlies.passes
    rw [hear, happlies.pending]
    dsimp only
    rw [judge, happlies.form]
    dsimp only
    rw [hpasses, happlies.known]
    exact if_pos htwice
  rw [heq]
  exact ⟨sessions_reject _ c link .duplicate, acts_reject _ c link .duplicate⟩

/-! ## Runs -/

/-- What the limits come to after the events of a run that has begun with the settings `start`. -/
structure Limited (start : Settings) (events : List Event) (h : Hall) : Prop where
  /-- Unless the settings are reloaded, they are those of the beginning, and nobody is let in beyond
  them. -/
  settings : (∀ e ∈ events, e.reloads = false) → h.settings = start
  capacity : (∀ e ∈ events, e.reloads = false) → h.sessions.length ≤ start.capacity
  device : (∀ e ∈ events, e.reloads = false) →
    ∀ device, h.onDevice device ≤ start.maxPlayersPerDevice
  /-- No player has two sessions, whatever the settings. -/
  players : ∀ c d s s', h.session? c = some s → h.session? d = some s' →
    s.playerId = s'.playerId → c = d
  /-- Whoever has signed up after one event more has signed up before it, or signs up below the limits
  in force. -/
  newcomer : ∀ e c s, (h.step e).session? c = some s →
    (∃ s', h.session? c = some s' ∧ s'.playerId = s.playerId ∧ s'.device = s.device)
      ∨ h.sessions.length < h.settings.capacity
        ∧ h.onDevice s.device < h.settings.maxPlayersPerDevice
        ∧ h.hasPlayer s.playerId = false
  full : h.settings.capacity ≤ h.sessions.length →
    ∀ e, (h.step e).sessions.length ≤ h.sessions.length
  deviceFull : ∀ device, h.settings.maxPlayersPerDevice ≤ h.onDevice device →
    ∀ e, (h.step e).onDevice device ≤ h.onDevice device
  /-- A second login of a player changes no session, and asks nothing of the world but what goes to
  the connection that is refused. -/
  duplicate : ∀ c record link s who, h.Applies c record link s who →
    h.hasPlayer who.playerId = true →
      (h.step (.record c record)).sessions = h.sessions
        ∧ ∃ new, (h.step (.record c record)).acts = h.acts ++ new ∧ ∀ a ∈ new, a.IsTo c
  /-- That connection is no one's who has signed up, while connection numbers are left. -/
  stranger : accepted events < maxConnection → ∀ c, (Assoc.get? h.pending c).isSome →
    h.session? c = none

/-- **The limits of admission hold**, whatever happens, in whatever order, and whatever the
authenticator says. -/
theorem limits_run (authenticator : Authenticator) (start : Settings) (fingerprint : String)
    (epoch : Int) (events : List Event) :
    Limited start events ((new authenticator start fingerprint epoch).run events) := by
  have hsingle : ((new authenticator start fingerprint epoch).run events).gate.Single :=
    single_run events ⟨List.nodup_nil, List.nodup_nil⟩
  have hwithin : (∀ e ∈ events, e.reloads = false) →
      ((new authenticator start fingerprint epoch).run events).gate.Within
        ∧ ((new authenticator start fingerprint epoch).run events).settings = start :=
    within_run events ⟨Nat.zero_le _, fun _ => Nat.zero_le _⟩
  have hstranger : accepted events < maxConnection → ∀ c,
      (Assoc.get? ((new authenticator start fingerprint epoch).run events).pending c).isSome →
      ((new authenticator start fingerprint epoch).run events).session? c = none := by
    intro hfew c hpending
    obtain ⟨n, _, hsound⟩ := sound_run events (sound_new authenticator start fingerprint epoch)
      (by omega)
    exact hsound.numbers.apart c hpending
  -- the rest is about any hall whose gate is as it should be
  generalize (new authenticator start fingerprint epoch).run events = h
    at hsingle hwithin hstranger ⊢
  exact {
    settings := fun hsame => (hwithin hsame).2
    capacity := by
      intro hsame
      obtain ⟨hw, hsettings⟩ := hwithin hsame
      rw [← length_roll, ← hsettings]
      exact hw.capacity
    device := by
      intro hsame device
      obtain ⟨hw, hsettings⟩ := hwithin hsame
      rw [onDevice_eq, ← hsettings]
      exact hw.device device
    players := by
      intro c d s s' hs hs' heq
      have hmem : ∀ {c : Int} {s : Session}, h.session? c = some s →
          (c, s.member) ∈ h.gate.roll := by
        intro c s hs
        exact Assoc.mem_of_get? (by rw [get?_roll, hs]; rfl)
      have hentry := List.inj_on_of_nodup_map hsingle.players (hmem hs) (hmem hs') heq
      exact congrArg Prod.fst hentry
    newcomer := by
      intro e c s hsess
      rcases session_step hsingle hsess with ⟨s', hs', hmember⟩ | hnew
      · exact Or.inl ⟨s', hs', congrArg Member.playerId hmember, congrArg Member.device hmember⟩
      · exact Or.inr hnew
    full := length_step_le
    deviceFull := fun _ => onDevice_step_le
    duplicate := by
      intro c record link s who happlies htwice
      unfold step
      split
      · exact ⟨rfl, [], (List.append_nil _).symm, fun a ha => absurd ha List.not_mem_nil⟩
      · exact hear_of_duplicate happlies htwice
    stranger := hstranger }

/-- A player of a table signs up twice, and the second time is refused. -/
example : ((new (.ofTable [("amy", 7)]) .initial "rules" 0).run
    [.accept (.v4 10 0 0 1), .accept (.v4 10 0 0 2), .record 1 (helloRecord "amy"),
      .record 2 (helloRecord "amy")]).sessions.map Prod.fst = [1] := by
  decide +kernel

end Hall

end GameHall
