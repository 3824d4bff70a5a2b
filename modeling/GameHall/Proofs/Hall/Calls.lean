import GameHall.Proofs.Hall.Registry
import GameHall.Proofs.Hall.Accounts

/-!
# What engines are told

The calls of a hall are those of its acts that an engine gets to hear: signals that are calls, given to
a scheduler whose engine is not down. A `Voice` has the calls so far and who hears them. Most of what
the hall does leaves the voice alone or makes fewer schedulers hear it (`Voice.Fades`), and the rest
says one thing after another (`Voice.say`), so that what an operation says is an equation between
voices.
-/

namespace GameHall

/-- A call with its scheduler, if the act is one. -/
def Act.call? : Act → Option (Int × Signal)
  | .signal id s => if s.call?.isSome then some (id, s) else none
  | _ => none

/-- What engines have been told, and which schedulers would hear more. -/
structure Voice where
  hears : Int → Bool
  calls : List (Int × Signal)

namespace Voice

/-- Says something to a scheduler. -/
def say (v : Voice) (id : Int) (s : Signal) : Voice :=
  { v with calls := v.calls ++ if v.hears id && s.call?.isSome then [(id, s)] else [] }

/-- Nothing is said, and nobody hears who has not heard before. -/
structure Fades (v v' : Voice) : Prop where
  calls : v'.calls = v.calls
  hears : ∀ id, v'.hears id = true → v.hears id = true

theorem fades_refl (v : Voice) : v.Fades v := ⟨rfl, fun _ h => h⟩

theorem fades_of_eq {v v' : Voice} (h : v' = v) : v.Fades v' := h ▸ fades_refl v

theorem fades_trans {v v' v'' : Voice} (h : v.Fades v') (h' : v'.Fades v'') : v.Fades v'' :=
  ⟨h'.calls.trans h.calls, fun id hid => h.hears id (h'.hears id hid)⟩

theorem hears_say (v : Voice) (id : Int) (s : Signal) : (v.say id s).hears = v.hears := rfl

/-- Timers are no business of the engine. -/
theorem say_disarm (v : Voice) (id : Int) (kind : TimerKind) (r : Int) :
    v.say id (.disarm kind r) = v := by
  simp [say, Signal.call?]

theorem calls_say {s : Signal} (hs : s.call?.isSome = true) (v : Voice) (id : Int) :
    (v.say id s).calls = v.calls ++ if v.hears id = true then [(id, s)] else [] := by
  simp [say, hs]

/-- What is said, and to whom, is of a certain kind. -/
def Tells (P : Int → Signal → Prop) (v v' : Voice) : Prop :=
  ∃ new, v'.calls = v.calls ++ new ∧ ∀ id s, (id, s) ∈ new → P id s

section tells

variable {P : Int → Signal → Prop} {v v' v'' : Voice}

theorem tells_of_calls (h : v'.calls = v.calls) : v.Tells P v' :=
  ⟨[], by rw [h, List.append_nil], fun _ _ hmem => absurd hmem List.not_mem_nil⟩

theorem tells_say {id : Int} {s : Signal} (h : P id s) : v.Tells P (v.say id s) := by
  refine ⟨_, rfl, fun other s' hmem => ?_⟩
  split at hmem
  · cases List.mem_singleton.mp hmem
    exact h
  · exact absurd hmem List.not_mem_nil

theorem tells_trans (h : v.Tells P v') (h' : v'.Tells P v'') : v.Tells P v'' := by
  obtain ⟨new, hcalls, hnew⟩ := h
  obtain ⟨new', hcalls', hnew'⟩ := h'
  refine ⟨new ++ new', by rw [hcalls', hcalls, List.append_assoc], fun id s hmem => ?_⟩
  rcases List.mem_append.mp hmem with hmem | hmem
  · exact hnew id s hmem
  · exact hnew' id s hmem

end tells

end Voice

namespace Hall

/-- Whether a scheduler is there whose engine is not down. -/
def hears (h : Hall) (id : Int) : Bool := ((h.pool.get? id).map Scheduler.isAlive).getD false

/-- The calls so far with their schedulers, in order. -/
def calls (h : Hall) : List (Int × Signal) := h.acts.filterMap Act.call?

/-- What has been said, and who hears. -/
def voice (h : Hall) : Voice := ⟨h.hears, h.calls⟩

/-- The calls of one event. -/
def callsOf (h : Hall) (e : Event) : List (Int × Signal) :=
  (h.step e).calls.drop h.calls.length

theorem callsOf_eq {h : Hall} {e : Event} {new : List (Int × Signal)}
    (hcalls : (h.step e).calls = h.calls ++ new) : h.callsOf e = new := by
  rw [callsOf, hcalls, List.drop_left]

/-! ## What says nothing -/

section frame

variable (h : Hall)

theorem voice_updateScheduler (id : Int) {f : Scheduler → Scheduler}
    (hf : ∀ s, (f s).isAlive = s.isAlive) :
    ({ h with pool := h.pool.update id f } : Hall).voice = h.voice := by
  have hget : ∀ other, ({ h with pool := h.pool.update id f } : Hall).hears other = h.hears other := by
    intro other
    show ((Assoc.get? (Assoc.update h.pool.schedulers id f) other).map Scheduler.isAlive).getD false = _
    rw [Assoc.get?_update]
    split
    · rw [Option.map_map]
      exact congrArg (fun g => ((h.pool.get? other).map g).getD false) (funext hf)
    · rfl
  exact congrArg (fun hears => (⟨hears, h.calls⟩ : Voice)) (funext hget)

theorem voice_act {a : Act} (ha : a.call? = none) : (h.act a).voice = h.voice := by
  have hcalls : (h.acts ++ [a]).filterMap Act.call? = h.acts.filterMap Act.call? := by
    simp [ha]
  exact congrArg (Voice.mk h.hears) hcalls

/-- Frames are no calls, and who hears does not depend on people. -/
theorem unpeopled_voice : Unpeopled voice where
  frame := fun h _ _ => voice_act h rfl
  close := fun h _ => voice_act h rfl
  sessions := fun _ _ => rfl
  pending := fun _ _ => rfl
  lastConnection := fun _ _ => rfl
  asked := fun _ _ => rfl
  bans := fun _ _ => rfl
  crashed := fun _ _ => rfl

@[simp] theorem voice_askCurrent (id : Int) : (h.askCurrent id).voice = h.voice := by
  refine voice_updateScheduler h id fun s => ?_
  split
  · unfold Scheduler.check; split <;> rfl
  · rfl

end frame

/-! ## What says one thing -/

section saying

variable (h : Hall)

/-- **A signal reaches a scheduler whose engine is not down.** -/
@[simp] theorem voice_signal (id : Int) (s : Signal) : (h.signal id s).voice = h.voice.say id s := by
  unfold signal
  split
  · rename_i hnone
    have hdeaf : h.hears id = false := by simp [hears, hnone]
    simp [Voice.say, voice, hdeaf]
  · rename_i sch hsch
    have hhears : h.hears id = sch.isAlive := by simp [hears, hsch]
    split
    · rename_i halive
      have hcalls : (h.acts ++ [Act.signal id s]).filterMap Act.call?
          = h.calls ++ if h.hears id && s.call?.isSome then [(id, s)] else [] := by
        rw [hhears, halive, List.filterMap_append]
        by_cases hs : s.call?.isSome = true <;> simp [Act.call?, hs, calls]
      exact congrArg (Voice.mk h.hears) hcalls
    · rename_i hdead
      rw [voice_updateScheduler h id (f := Scheduler.markOutdated) fun _ => rfl]
      have hdeaf : h.hears id = false := by rw [hhears]; simpa using hdead
      simp [Voice.say, voice, hdeaf]

theorem voice_seat (c r : Int) (s : Session) (x : Room) :
    (h.seat c r s x).voice = h.voice.say x.scheduler (joinSignal r c s) := by
  unfold seat
  dsimp only
  rw [unpeopled_voice.notify, voice_signal]
  rfl

theorem voice_watch (c r : Int) (s : Session) (x : Room) :
    (h.watch c r s x).voice = h.voice.say x.scheduler (.addObserver r (s.describe c)) := by
  unfold watch
  dsimp only
  rw [unpeopled_voice.notify, voice_signal]
  rfl

theorem voice_place (id : Int) (name : String) :
    (h.place id name).2.voice = h.voice.say id (newRoomSignal h.nextRoom name) := by
  have hmore := voice_updateScheduler { h with nextRoom := h.nextRoom + 1 } id
    (f := Scheduler.addRoom) fun _ => rfl
  show (signal _ id _).voice = _
  rw [voice_signal, hmore]
  rfl

/-- Who watches no more is taken off the list of the room. -/
theorem voice_stopObserving {c r : Int} {s : Session} (hs : h.session? c = some s)
    (ho : s.observing = some r) :
    (h.stopObserving c).voice = match h.room? r with
      | none => h.voice
      | some x => h.voice.say x.scheduler (.removeObserver r c) := by
  unfold stopObserving
  rw [hs]
  dsimp only
  rw [ho]
  dsimp only
  -- what is done to the session first does not touch the rooms
  have hrooms : ((h.updateSession c fun s => { s with observing := none }).notify c "EnterLobby"
      []).room? r = h.room? r := by
    have hregistry := congrArg Registry.room (wireless_registry.notify
      (h.updateSession c fun s => { s with observing := none }) c "EnterLobby" [])
    exact congrFun hregistry r
  have hvoice : ((h.updateSession c fun s => { s with observing := none }).notify c "EnterLobby"
      []).voice = h.voice := unpeopled_voice.notify _ c _ _
  rw [hrooms]
  cases hr : h.room? r with
  | none => exact hvoice
  | some x =>
      rw [voice_signal, ← hvoice]
      rfl

theorem stopObserving_of_none {c : Int} (hs : ∀ s, h.session? c = some s → s.observing = none) :
    h.stopObserving c = h := by
  unfold stopObserving
  split
  · rfl
  · rename_i s hsess
    rw [hs s hsess]

theorem voice_forward (c r : Int) (command payload : Octets) :
    (h.forward c r command payload).voice = match h.room? r with
      | none => h.voice
      | some x => h.voice.say x.scheduler (.request r c command payload) := by
  unfold forward
  cases h.room? r <;> simp

end saying

/-! ## The end of rooms and schedulers -/

section fading

variable (h : Hall)

theorem fades_updateScheduler (id : Int) {f : Scheduler → Scheduler}
    (hf : ∀ s, (f s).isAlive = true → s.isAlive = true) :
    h.voice.Fades ({ h with pool := h.pool.update id f } : Hall).voice where
  calls := rfl
  hears := by
    intro other
    show ((Assoc.get? (Assoc.update h.pool.schedulers id f) other).map Scheduler.isAlive).getD false
      = true → ((Assoc.get? h.pool.schedulers other).map Scheduler.isAlive).getD false = true
    rw [Assoc.get?_update]
    split
    · cases Assoc.get? h.pool.schedulers other with
      | none => exact fun hs => hs
      | some s => exact hf s
    · exact fun hs => hs

theorem fades_setHealth (id : Int) (health : Health) :
    h.voice.Fades (h.setHealth id health).voice := by
  refine fades_updateScheduler h id fun s => ?_
  split
  · exact fun hs => hs
  · rename_i hup
    intro _
    simp [Scheduler.isAlive, hup]

theorem fades_startupOver (id : Int) : h.voice.Fades (h.startupOver id).voice :=
  fades_updateScheduler h id fun s hs => by cases hs

theorem fades_remove (id : Int) :
    h.voice.Fades ({ h with pool := h.pool.remove id } : Hall).voice where
  calls := rfl
  hears := by
    intro other
    show ((Assoc.get? (Assoc.erase h.pool.schedulers id) other).map Scheduler.isAlive).getD false
      = true → ((Assoc.get? h.pool.schedulers other).map Scheduler.isAlive).getD false = true
    rw [Assoc.get?_erase]
    split
    · intro hnone
      cases hnone
    · exact fun hs => hs

theorem fades_retire (id : Int) : h.voice.Fades (h.retire id).voice := by
  unfold retire
  split
  · rw [voice_act _ rfl]
    exact fades_remove h id
  · exact Voice.fades_refl _

theorem fades_retireIdle (id : Int) : h.voice.Fades (h.retireIdle id).voice := by
  unfold retireIdle
  split
  · exact Voice.fades_refl _
  · split
    · have hcheck := voice_updateScheduler h id (f := fun s => s.check h.fingerprint) fun s => by
        unfold Scheduler.check; split <;> rfl
      dsimp only
      split
      · rw [← hcheck]
        exact fades_retire _ id
      · rw [hcheck]
        exact Voice.fades_refl _
    · exact Voice.fades_refl _

/-- **The end of a room is not announced**: its engine hears nothing of it. -/
theorem fades_finish (r : Int) (x : Room) : h.voice.Fades (h.finish r x).voice := by
  unfold finish releaseScheduler
  dsimp only
  refine Voice.fades_trans (Voice.fades_of_eq ?_) (fades_retireIdle _ _)
  rw [voice_updateScheduler _ x.scheduler (f := Scheduler.removeRoom) fun _ => rfl, voice_signal,
    voice_signal, Voice.say_disarm, Voice.say_disarm, view_foldl (fun h c => unpeopled_voice.releasePlayer h _ c),
    voice_askCurrent, view_foldl unpeopled_voice.releaseObserver]
  rfl

theorem fades_finishRoom (r : Int) : h.voice.Fades (h.finishRoom r).2.voice := by
  unfold finishRoom
  split
  · exact Voice.fades_refl _
  · exact fades_finish h r _

/-- What is left of the pool after a sweep: whoever is outdated and idle has gone, and all others have been
asked whether they are outdated. -/
theorem get?_sweep_eq {p : Pool} (hkeys : (Assoc.keys p.schedulers).Nodup) (current : String) (id : Int) :
    (p.sweep current).get? id
      = ((p.get? id).filter fun s => !(s.isOutdated current && s.rooms == 0)).map
          fun s => s.check current := by
  have hleft := Assoc.get?_filter hkeys (fun s => !(s.isOutdated current && s.rooms == 0)) id
  exact (Assoc.get?_mapValues (fun s => s.check current) _ id).trans (congrArg _ hleft)

/-- What is left of the pool after a sweep has been asked whether it is outdated, and hosts rooms if it
is. -/
theorem get?_sweep {p : Pool} (hkeys : (Assoc.keys p.schedulers).Nodup) {current : String} {id : Int}
    {s' : Scheduler} (hs' : (p.sweep current).get? id = some s') :
    ∃ s, p.get? id = some s ∧ s' = s.check current
      ∧ (s.isOutdated current = true → s.rooms ≠ 0) := by
  rw [get?_sweep_eq hkeys] at hs'
  obtain ⟨s, hfilter, rfl⟩ := Option.map_eq_some_iff.mp hs'
  obtain ⟨hs, hkept⟩ := Option.filter_eq_some_iff.mp hfilter
  refine ⟨s, hs, rfl, fun hout hzero => ?_⟩
  simp [hout, hzero] at hkept

/-- A scheduler that hosts rooms is left by a sweep. -/
theorem get?_sweep_of_busy {p : Pool} (hkeys : (Assoc.keys p.schedulers).Nodup) {current : String}
    {id : Int} {s : Scheduler} (hs : p.get? id = some s) (hbusy : s.rooms ≠ 0) :
    (p.sweep current).get? id = some (s.check current) := by
  rw [get?_sweep_eq hkeys, hs, Option.filter_some, if_pos (by simp [hbusy])]
  rfl

theorem pool_sweep : h.sweep.pool = h.pool.sweep h.fingerprint ∧ h.sweep.fingerprint = h.fingerprint := by
  have hfold : ∀ (l : List Int) (g : Hall),
      (l.foldl (fun g id => g.act (.quit id)) g).pool = g.pool
        ∧ (l.foldl (fun g id => g.act (.quit id)) g).fingerprint = g.fingerprint := by
    intro l
    induction l with
    | nil => intro g; exact ⟨rfl, rfl⟩
    | cons id l ih => intro g; exact ih _
  exact hfold _ { h with pool := h.pool.sweep h.fingerprint }

theorem keys_schedulers (h : Hall) : Assoc.keys h.ledger.accounts = Assoc.keys h.pool.schedulers :=
  Assoc.keys_mapValues Scheduler.account h.pool.schedulers

theorem nodup_schedulers {h : Hall} (hb : h.ledger.Balanced) :
    (Assoc.keys h.pool.schedulers).Nodup := keys_schedulers h ▸ hb.accountsOnce

theorem hears_eq_true_iff {h : Hall} {id : Int} :
    h.hears id = true ↔ ∃ s, h.pool.get? id = some s ∧ s.isAlive = true := by
  unfold hears
  cases h.pool.get? id <;> simp

theorem isAlive_check (s : Scheduler) (current : String) :
    (s.check current).isAlive = s.isAlive := by
  unfold Scheduler.check
  split <;> rfl

/-- A sweep says nothing, and asks nobody whether the engine is down. -/
theorem fades_sweep {h : Hall} (hb : h.ledger.Balanced) : h.voice.Fades h.sweep.voice where
  calls := by
    have hvoice : h.sweep.voice = ({ h with pool := h.pool.sweep h.fingerprint } : Hall).voice :=
      view_foldl (fun h id => voice_act h (a := .quit id) rfl) _ _
    exact (congrArg Voice.calls hvoice).trans rfl
  hears := by
    intro id hid
    obtain ⟨s', hs', halive⟩ := hears_eq_true_iff.mp hid
    rw [(pool_sweep h).1] at hs'
    obtain ⟨s, hs, rfl, _⟩ := get?_sweep (nodup_schedulers hb) hs'
    exact hears_eq_true_iff.mpr ⟨s, hs, isAlive_check s _ ▸ halive⟩

end fading

/-! ## The making of a room -/

theorem isAlive_ask (s : Scheduler) (current : String) : (s.ask current).isAlive = s.isAlive := by
  unfold Scheduler.ask
  split
  · exact isAlive_check s current
  · rfl

/-- Each scheduler is asked for a place, or it is not. -/
theorem get?_askAll (current : String) (m : Assoc Int Scheduler) (id : Int) :
    Assoc.get? (Pool.askAll current m).2 id = Assoc.get? m id
      ∨ Assoc.get? (Pool.askAll current m).2 id
        = (Assoc.get? m id).map fun s => s.ask current := by
  induction m with
  | nil => exact Or.inl rfl
  | cons e m ih =>
      obtain ⟨other, s⟩ := e
      rw [Pool.askAll]
      split
      · exact Or.inl rfl
      · show Assoc.get? ((other, s.ask current) :: (Pool.askAll current m).2) id = _
          ∨ Assoc.get? ((other, s.ask current) :: (Pool.askAll current m).2) id = _
        simp only [Assoc.get?]
        split
        · exact Or.inr rfl
        · exact ih

/-- The scheduler that is found accepts the room. -/
theorem accepts_askAll {current : String} {m : Assoc Int Scheduler} {id : Int}
    (h : (Pool.askAll current m).1 = some id) : ∃ s, (id, s) ∈ m ∧ s.accepts current = true := by
  induction m with
  | nil => cases h
  | cons e m ih =>
      obtain ⟨other, s⟩ := e
      rw [Pool.askAll] at h
      split at h
      · rename_i haccepts
        cases h
        exact ⟨s, List.mem_cons_self, haccepts⟩
      · obtain ⟨s', hs', haccepts⟩ := ih h
        exact ⟨s', List.mem_cons_of_mem _ hs', haccepts⟩

/-- Nothing is said while schedulers are asked for a place. -/
structure Asks (h g : Hall) : Prop where
  registry : g.registry = h.registry
  calls : g.calls = h.calls
  fingerprint : g.fingerprint = h.fingerprint
  nextId : h.pool.nextId ≤ g.pool.nextId

/-- A scheduler that was there and may have been asked for a place. -/
def AskedAt (h : Hall) (id : Int) (s' : Scheduler) : Prop :=
  ∃ s, h.pool.get? id = some s ∧ (s' = s ∨ s' = s.ask h.fingerprint)

/-- A scheduler for a new room: one that accepts it, or the next one. -/
structure Finds (h g : Hall) (id : Int) : Prop extends Asks h g where
  hears : g.hears id = true
  pool : ∀ other s', g.pool.get? other = some s' → h.AskedAt other s'
    ∨ other = id ∧ other = h.pool.nextId ∧ s'.fingerprint = h.fingerprint
  accepts : id = h.pool.nextId ∨ ∃ s, h.pool.get? id = some s ∧ s.accepts h.fingerprint = true

theorem alive_of_askedAt {h : Hall} {id : Int} {s' : Scheduler} (ha : h.AskedAt id s')
    (halive : s'.isAlive = true) : h.hears id = true := by
  obtain ⟨s, hs, rfl | rfl⟩ := ha
  · exact hears_eq_true_iff.mpr ⟨s', hs, halive⟩
  · exact hears_eq_true_iff.mpr ⟨s, hs, isAlive_ask s _ ▸ halive⟩

/-- Whoever hears once a scheduler has been found has heard before, or has been spawned. -/
theorem others_of_finds {h g : Hall} {id other : Int} (hf : Finds h g id)
    (hother : g.hears other = true) : h.hears other = true ∨ other = h.pool.nextId := by
  obtain ⟨s', hs', halive⟩ := hears_eq_true_iff.mp hother
  rcases hf.pool other s' hs' with hasked | ⟨_, hnext, _⟩
  · exact Or.inl (alive_of_askedAt hasked halive)
  · exact Or.inr hnext

/-- The scheduler with the next number is not there yet. -/
theorem get?_nextId {h : Hall} (hb : h.ledger.Balanced) : h.pool.get? h.pool.nextId = none := by
  by_contra hsome
  have hmem := Assoc.mem_keys_iff.mpr (Option.isSome_iff_ne_none.mpr hsome)
  have hlt : h.pool.nextId < h.pool.nextId :=
    hb.accountsBelow _ ((keys_schedulers h).symm ▸ hmem)
  omega

theorem askedAt_of_askAll {h : Hall} {id : Int} {s' : Scheduler}
    (hs' : Assoc.get? (Pool.askAll h.fingerprint h.pool.schedulers).2 id = some s') :
    h.AskedAt id s' := by
  rcases get?_askAll h.fingerprint h.pool.schedulers id with heq | heq
  · exact ⟨s', heq.symm.trans hs', Or.inl rfl⟩
  · obtain ⟨s, hs, rfl⟩ := Option.map_eq_some_iff.mp (heq.symm.trans hs')
    exact ⟨s, hs, Or.inr rfl⟩

theorem get?_spawned {m : Assoc Int Scheduler} {id other : Int} {s s' : Scheduler}
    (hs' : Assoc.get? (m ++ [(id, s)]) other = some s') :
    Assoc.get? m other = some s' ∨ other = id ∧ s' = s := by
  rw [Assoc.get?_append, Option.or_eq_some_iff] at hs'
  rcases hs' with hs' | ⟨_, hs'⟩
  · exact Or.inl hs'
  · cases List.mem_singleton.mp (Assoc.mem_of_get? hs')
    exact Or.inr ⟨rfl, rfl⟩

/-- A scheduler that accepts a room is as alive after it has been asked. -/
theorem finds_old {h : Hall} (hb : h.ledger.Balanced) {id : Int}
    (hfound : (Pool.askAll h.fingerprint h.pool.schedulers).1 = some id) :
    Finds h { h with pool :=
      { h.pool with schedulers := (Pool.askAll h.fingerprint h.pool.schedulers).2 } } id := by
  obtain ⟨s, hmem, haccepts⟩ := accepts_askAll hfound
  have hs : h.pool.get? id = some s := (Assoc.get?_eq_some_iff (nodup_schedulers hb)).mpr hmem
  have halive : s.isAlive = true := by
    simp only [Scheduler.accepts, Bool.and_eq_true] at haccepts
    exact haccepts.1.1
  have hs' : Assoc.get? h.pool.schedulers id = some s := hs
  exact {
    registry := rfl
    calls := rfl
    fingerprint := rfl
    nextId := Int.le_refl _
    hears := by
      refine hears_eq_true_iff.mpr ?_
      rcases get?_askAll h.fingerprint h.pool.schedulers id with heq | heq
      · exact ⟨s, heq.trans hs', halive⟩
      · refine ⟨s.ask h.fingerprint, ?_, (isAlive_ask s _).trans halive⟩
        rw [hs'] at heq
        exact heq
    pool := fun _ _ hother => Or.inl (askedAt_of_askAll hother)
    accepts := Or.inr ⟨s, hs, haccepts⟩ }

/-- A scheduler that has been spawned hears. -/
theorem finds_new {h : Hall} (hb : h.ledger.Balanced) :
    Finds h (({ h with pool := ⟨(Pool.askAll h.fingerprint h.pool.schedulers).2 ++ [(h.pool.nextId,
      Scheduler.new h.settings.roomsPerScheduler h.fingerprint)], h.pool.nextId + 1⟩ } : Hall).act
        (.spawn h.pool.nextId)) h.pool.nextId := by
  have hnone : Assoc.get? h.pool.schedulers h.pool.nextId = none := get?_nextId hb
  exact {
    registry := rfl
    calls := congrArg Voice.calls (voice_act ({ h with pool := ⟨_ ++ _, h.pool.nextId + 1⟩ } : Hall)
      (a := .spawn h.pool.nextId) rfl)
    fingerprint := rfl
    nextId := Int.le_add_one (Int.le_refl _)
    hears := by
      refine hears_eq_true_iff.mpr ⟨Scheduler.new h.settings.roomsPerScheduler h.fingerprint, ?_, rfl⟩
      show Assoc.get? (_ ++ _) h.pool.nextId = _
      rw [Assoc.get?_append]
      rcases get?_askAll h.fingerprint h.pool.schedulers h.pool.nextId with heq | heq
      · rw [heq, hnone]; simp [Assoc.get?]
      · rw [heq, hnone]; simp [Assoc.get?]
    pool := by
      intro other s' hs'
      rcases get?_spawned hs' with hs' | ⟨rfl, rfl⟩
      · exact Or.inl (askedAt_of_askAll hs')
      · exact Or.inr ⟨rfl, rfl, rfl⟩
    accepts := Or.inl rfl }

/-- **A room is made on a scheduler that was found or spawned**, or nothing comes of it. -/
theorem makeRoom_cases {h : Hall} (hb : h.ledger.Balanced) (owner : Int) (s : Session)
    (name : String) (canSpawn : Bool) :
    (Asks h (h.makeRoom owner s name canSpawn).2
        ∧ ∀ id s', (h.makeRoom owner s name canSpawn).2.pool.get? id = some s' → h.AskedAt id s')
      ∨ ∃ g id, Finds h g id ∧ (h.makeRoom owner s name canSpawn).2
          = (g.place id name).2.seat owner (g.place id name).1 s ⟨name, id, [], []⟩ := by
  have hold := @finds_old h hb
  have hnew := finds_new hb
  have hasked := @askedAt_of_askAll h
  unfold makeRoom Pool.acquire
  cases hfound : Pool.askAll h.fingerprint h.pool.schedulers with
  | mk found schedulers =>
      rw [hfound] at hold hnew hasked
      cases found with
      | some id => exact Or.inr ⟨_, id, @hold id rfl, rfl⟩
      | none =>
          dsimp only
          cases canSpawn with
          | true => exact Or.inr ⟨_, h.pool.nextId, hnew, rfl⟩
          | false =>
              -- the scheduler that could not be started is taken out again
              refine Or.inl ⟨⟨rfl, rfl, rfl, Int.le_add_one (Int.le_refl _)⟩, fun id s' hs' => ?_⟩
              have hs'' : Assoc.get? (Assoc.erase (schedulers ++ [(h.pool.nextId, Scheduler.new
                  h.settings.roomsPerScheduler h.fingerprint)]) h.pool.nextId) id = some s' := hs'
              rw [Assoc.get?_erase] at hs''
              split at hs''
              · cases hs''
              · rename_i hne
                rcases get?_spawned hs'' with hs'' | ⟨heq, _⟩
                · exact @hasked id s' hs''
                · exact absurd heq.symm hne

end Hall

end GameHall
