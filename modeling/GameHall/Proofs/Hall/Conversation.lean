import GameHall.Proofs.Connection.Reports
import GameHall.Proofs.Hall.Deals
import GameHall.Proofs.Hall.Requests

/-!
# The conversation about a room

`GameHall.Proofs.Hall.Deals` follows one connection through one event. Here is what comes of it in a run,
for a number that one connection has and whose events are what that connection reports
(`OneConnection`), and what the calls about a room say besides: they begin with the room and its owner,
go to one scheduler and end with the room (`conversations_run`).
-/

namespace GameHall

namespace Hall

/-! ## One connection -/

/-- The numbers that new connections get in a run. -/
def comers (h : Hall) : List Event → List Int
  | [] => []
  | e :: events =>
    (if e.isAccept && !h.crashed then [h.nextConnection] else []) ++ (h.step e).comers events

/-- What an event is of the reports of a connection. -/
def Event.report? (c : Int) : Event → Option Connection.Report
  | record d r => if d = c then some (.record r) else none
  | closed d => if d = c then some .closed else none
  | _ => none

/-- What a connection reports in a run. -/
def reportsOf (c : Int) (events : List Event) : List Connection.Report :=
  events.filterMap (Event.report? c)

/-- Whenever a new connection gets the number, nobody has it. -/
def Unshared (h : Hall) (c : Int) (events : List Event) : Prop :=
  ∀ past e future, events = past ++ e :: future → e.isAccept = true → (h.run past).crashed = false →
    (h.run past).nextConnection = c → ¬ (h.run past).registry.Known c

/-- A number stands for one connection in a part of a run: nobody has it at the beginning, no two
connections get it, and the hall gets what the connection reports, as far as it has come. -/
structure OneConnection (h : Hall) (c : Int) (events : List Event) : Prop where
  unknown : ¬ h.registry.Known c
  once : (h.comers events).count c ≤ 1
  reports : ∃ later k, Connection.Reports .new (reportsOf c events ++ later) k

section connections

variable {h : Hall} {c : Int} {e : Event} {past future : List Event}

theorem comers_append (h : Hall) (past future : List Event) :
    h.comers (past ++ future) = h.comers past ++ (h.run past).comers future := by
  induction past generalizing h with
  | nil => rfl
  | cons e past ih =>
      rw [List.cons_append, comers, comers, ih, List.append_assoc]
      rfl

theorem lastConnection_step (hb : h.ledger.Balanced) (e : Event) : (h.step e).lastConnection
    = if e.isAccept && !h.crashed then h.nextConnection else h.lastConnection := by
  cases hcrashed : h.crashed with
  | true => simp [step_of_crashed hcrashed]
  | false =>
      have hstep : h.step e = h.take e := step_of_up hcrashed e
      cases haccept : e.isAccept with
      | true =>
          cases e with
          | accept host =>
              rw [hstep]
              exact congrArg Registry.lastConnection (registry_accept h host)
          | _ => cases haccept
      | false =>
          rcases last_turn (turn_step hb e) with heq | ⟨haccept', _⟩
          · exact heq
          · rw [haccept] at haccept'
            cases haccept'

/-- Numbers are given in order, and to no two connections before they run out. -/
theorem nodup_comers (hb : h.ledger.Balanced) (events : List Event)
    (hfew : h.lastConnection + accepted events ≤ maxConnection) :
    (h.comers events).Nodup ∧ ∀ c ∈ h.comers events, h.lastConnection < c := by
  induction events generalizing h with
  | nil => exact ⟨List.nodup_nil, fun _ hc => absurd hc List.not_mem_nil⟩
  | cons e events ih =>
      have hcount : accepted (e :: events) = accepted events + if e.isAccept then 1 else 0 :=
        List.countP_cons ..
      have hlast := lastConnection_step hb e
      rw [comers]
      by_cases he : (e.isAccept && !h.crashed) = true
      · rw [if_pos he] at hlast ⊢
        simp only [Bool.and_eq_true] at he
        rw [hcount, he.1, if_pos rfl] at hfew
        rw [nextConnection_eq (by omega)] at hlast ⊢
        obtain ⟨hnodup, hlater⟩ := ih (balanced_step hb e) (by omega)
        rw [hlast] at hlater
        refine ⟨List.nodup_cons.mpr ⟨fun hmem => ?_, hnodup⟩, fun c hc => ?_⟩
        · exact absurd (hlater _ hmem) (Int.lt_irrefl _)
        · rcases List.mem_cons.mp hc with rfl | hc
          · exact Int.lt_succ _
          · exact Int.lt_trans (Int.lt_succ _) (hlater c hc)
      · rw [if_neg he] at hlast ⊢
        rw [List.nil_append, ← hlast]
        exact ih (balanced_step hb e) (by rw [hcount] at hfew; split at hfew <;> omega)

/-- What is true of a connection only since the event with which it has come, is true since the beginning
or the connection has come in the run. -/
theorem comes_run {P : Registry → Prop} (hb : h.ledger.Balanced)
    (hturn : ∀ {g : Hall} {e : Event} {q : Scene}, Turn g e q → P q.tables →
      P g.registry ∨ e.isAccept = true ∧ c = g.nextConnection)
    (hc : P (h.run past).registry) : P h.registry ∨ c ∈ h.comers past := by
  -- from the last event backwards, for the number that an event gives depends on all before it
  induction past using List.reverseRecOn with
  | nil => exact Or.inl hc
  | append_singleton past e ih =>
      rw [run_append] at hc
      rw [comers_append, comers, comers, List.append_nil]
      cases hcrashed : (h.run past).crashed with
      | true =>
          have hstep : (h.run past).run [e] = h.run past := step_of_crashed hcrashed e
          rw [hstep] at hc
          exact (ih hc).imp_right (List.mem_append_left _)
      | false =>
          rcases hturn (turn_step (balanced_run hb past) e) hc with hc | ⟨haccept, hc⟩
          · exact (ih hc).imp_right (List.mem_append_left _)
          · exact Or.inr (List.mem_append_right _ (by simp [haccept, hc]))

/-- Whoever is there was there at the beginning or has come. -/
theorem known_run (hb : h.ledger.Balanced) (hc : (h.run past).registry.Known c) :
    h.registry.Known c ∨ c ∈ h.comers past :=
  comes_run (P := fun t => t.Known c) hb (fun hturn => known_turn hturn) hc

/-- Whoever is gone was gone at the beginning, or the connection has ended. -/
theorem gone_run (hb : h.ledger.Balanced) (hgone : (h.run past).registry.Gone c) :
    h.registry.Gone c ∨ .closed c ∈ past := by
  induction past using List.reverseRecOn with
  | nil => exact Or.inl hgone
  | append_singleton past e ih =>
      rw [run_append] at hgone
      rcases gone_turn (turn_step (balanced_run hb past) e) hgone with hgone | rfl
      · exact (ih hgone).imp_right (List.mem_append_left _)
      · exact Or.inr (by simp)

theorem report?_of_reporter? (he : e.reporter? = some c) : ∃ report, e.report? c = some report := by
  cases e with
  | record d r => cases he; exact ⟨.record r, if_pos rfl⟩
  | closed d => cases he; exact ⟨.closed, if_pos rfl⟩
  | _ => cases he

/-- **No event follows the end of a connection.** -/
theorem not_closed_of_reports {k : Connection} {later : List Connection.Report}
    (hreports : Connection.Reports .new (reportsOf c (past ++ e :: future) ++ later) k)
    (he : e.reporter? = some c) : .closed c ∉ past := by
  intro hmem
  obtain ⟨report, hreport⟩ := report?_of_reporter? he
  rw [reportsOf, List.filterMap_append, List.filterMap_cons_some hreport, List.append_assoc,
    List.cons_append] at hreports
  exact Connection.closed_last hreports (List.mem_filterMap.mpr ⟨_, hmem, if_pos rfl⟩)

/-- A number that is given once, and that nobody had before, is not shared. -/
theorem unshared_of_once (hb : h.ledger.Balanced) {events : List Event}
    (hunknown : ¬ h.registry.Known c) (honce : (h.comers events).count c ≤ 1) :
    h.Unshared c events := by
  intro past e future heq haccept hup hnext hknown
  have hcome := (known_run hb hknown).resolve_left hunknown
  rw [heq, comers_append, comers, haccept, hup, hnext, List.count_append] at honce
  have := List.count_pos_iff.mpr hcome
  simp at honce
  omega

theorem unshared_of_one (hb : h.ledger.Balanced) {events : List Event}
    (hone : h.OneConnection c events) : h.Unshared c events :=
  unshared_of_once hb hone.unknown hone.once

theorem unshared_of_append (h' : h.Unshared c (past ++ future)) : h.Unshared c past := by
  intro before e after heq
  exact h' before e (after ++ future) (by rw [heq, List.append_assoc, List.cons_append])

/-- **A run keeps track of a connection.** -/
theorem tracked_run (hb : h.ledger.Balanced) (ht : h.registry.Tracked c)
    (hunshared : h.Unshared c past) : (h.run past).registry.Tracked c := by
  induction past using List.reverseRecOn with
  | nil => exact ht
  | append_singleton past e ih =>
      rw [run_append]
      exact tracked_step (balanced_run hb past) (hunshared past e [] rfl)
        (ih (unshared_of_append hunshared))

/-- **A run puts a connection on no list twice.** -/
theorem unrepeated_run (hb : h.ledger.Balanced) (ht : h.registry.Tracked c) (hs : h.registry.Unrepeated c)
    (hunshared : h.Unshared c past) : (h.run past).registry.Unrepeated c := by
  induction past using List.reverseRecOn with
  | nil => exact hs
  | append_singleton past e ih =>
      have hearlier := unshared_of_append hunshared
      rw [run_append]
      obtain ⟨q, hq, hturn⟩ := exists_turn (balanced_run hb past) e
      have hunrepeated := unrepeated_turn hturn (tracked_run hb ht hearlier) (ih hearlier)
      rwa [← hq] at hunrepeated

/-- **What a room hears of a connection goes with how the connection stands to it**, at any time. -/
theorem abreast_run (hb : h.ledger.Balanced) (ht : h.registry.Tracked c) (r : Int)
    (hone : h.OneConnection c (past ++ future)) :
    Abreast (h.run past).scene c r (h.deals c r past) := by
  induction past using List.reverseRecOn generalizing future with
  | nil =>
      have hnone : h.registry.session c = none :=
        Option.not_isSome_iff_eq_none.mp fun hsome => hone.unknown (Or.inr hsome)
      exact ⟨fun _ => rfl, .away, rfl, fun _ _ _ => Registry.stance_of_none hnone r⟩
  | append_singleton past e ih =>
      rw [List.append_assoc, List.singleton_append] at hone
      obtain ⟨later, k, hreports⟩ := hone.reports
      have hunshared := unshared_of_append (unshared_of_one hb hone)
      rw [deals_snoc, run_append]
      refine abreast_step (balanced_run hb past) (tracked_run hb ht hunshared)
        (fun he hgone => ?_) (ih hone)
      -- a player who is gone has an end behind
      refine not_closed_of_reports hreports he ((gone_run hb hgone).resolve_left fun hgone => ?_)
      obtain ⟨s, hs, _⟩ := hgone
      exact hone.unknown (Or.inr (by rw [hs]; rfl))

end connections

/-! ## What one event says to rooms -/

/-- What an event may say to a room that is there. -/
inductive Said (h : Hall) (e : Event) (r : Int) : Signal → Prop where
  | notice {s : Signal} (hs : Notice r s) : Said h e r s
  | join {c : Int} {s : Session} (he : e.sits? = some (c, r)) : Said h e r (joinSignal r c s)
  | watch {c : Int} {s : Session} (he : e.watches? = some (c, r)) (hs : h.session? c = some s)
      (hlobby : s.inLobby = true) : Said h e r (.addObserver r (s.describe c))
  | message {c : Int} {record : Record} (he : e = .record c record) :
      Said h e r (.request r c record.command record.payload)

/-- A signal goes to the scheduler of a room that is there. -/
def Addressed (h : Hall) (e : Event) (id : Int) (s : Signal) : Prop :=
  ∃ r x, h.room? r = some x ∧ x.scheduler = id ∧ h.Said e r s

/-- An event makes no room. -/
structure Ordinary (h : Hall) (e : Event) : Prop where
  calls : ∀ id s, (id, s) ∈ h.callsOf e → h.Addressed e id s
  rooms : ∀ r x', (h.step e).room? r = some x' → ∃ x, h.room? r = some x ∧ x.scheduler = x'.scheduler

/-- An event makes a room, and says so. -/
structure Founding (h : Hall) (e : Event) (id owner : Int) (name : String) (s : Session) : Prop where
  asked : e.makes? = some (owner, name)
  calls : h.callsOf e = [(id, newRoomSignal h.nextRoom name), (id, joinSignal h.nextRoom owner s)]
  host : ∀ x, (h.step e).room? h.nextRoom = some x → x.scheduler = id
  number : (h.step e).nextRoom = h.nextRoom + 1

section said

variable {h : Hall} {e : Event} {r : Int} {s : Signal}

theorem room_of_said (hs : h.Said e r s) : s.room = r := by
  cases hs with
  | notice hs => cases hs <;> rfl
  | join | watch | message => rfl

/-- Signals are of a connection, or wake a room. -/
def Call.GoesOn (call : Call) : Prop :=
  (call.event.deal? call.signal).isSome ∨ ∃ r reason, call.signal = .wake r reason

theorem goesOn_of_said {id : Int} (hs : h.Said e r s) : (⟨e, id, s⟩ : Call).GoesOn := by
  cases hs with
  | notice hs =>
      cases hs with
      | unwatch | offline => exact Or.inl rfl
      | wake reason => exact Or.inr ⟨r, reason, rfl⟩
  | join he =>
      refine Or.inl ?_
      rw [deal?_joinSignal (isRecord_of_sits? he)]
      rfl
  | watch he =>
      refine Or.inl ?_
      rw [Event.deal?, he]
      rfl
  | message he =>
      refine Or.inl ?_
      rw [Event.deal?, he]
      rfl

/-- **An event makes a room and says so, or speaks to rooms that are there.** -/
theorem ordinary_or_founding (hb : h.ledger.Balanced) (e : Event) :
    h.Ordinary e ∨ ∃ id owner name s, h.Founding e id owner name s := by
  obtain ⟨q, hq, hturn⟩ := exists_turn hb e
  have hcalls : (h.step e).calls = q.voice.calls := congrArg (fun q => q.voice.calls) hq
  have hrooms : (h.step e).room? = q.tables.room := congrArg (fun q => q.tables.room) hq
  have hordinary : h.voice.Tells (h.Addressed e) q.voice → (∀ r x', q.tables.room r = some x' →
      ∃ x, h.room? r = some x ∧ x.scheduler = x'.scheduler) → h.Ordinary e := by
    intro ⟨new, hnew, hsaid⟩ hfewer
    rw [← hcalls] at hnew
    exact ⟨fun id s hmem => hsaid id s (callsOf_eq hnew ▸ hmem), by rwa [hrooms]⟩
  -- only a turn that makes a room is not ordinary
  cases hturn with
  | deeds hdeeds =>
      refine Or.inl (hordinary (tells_deeds (p := h.scene) (fun r x s hx hs => ?_)
        (Registry.fewer_refl _) hdeeds) (fewer_deeds hdeeds).room)
      exact ⟨r, x, hx, rfl, .notice hs⟩
  | come => exact Or.inl (hordinary (Voice.tells_of_calls rfl) fun r x hx => ⟨x, hx, rfl⟩)
  | signUp => exact Or.inl (hordinary (Voice.tells_of_calls rfl) fun r x hx => ⟨x, hx, rfl⟩)
  | sit he _ _ hx =>
      exact Or.inl (hordinary (Voice.tells_say ⟨_, _, hx, rfl, .join he⟩)
        (Registry.fewer_seat _ _ _).room)
  | watch he hs hlobby hx =>
      exact Or.inl (hordinary (Voice.tells_say ⟨_, _, hx, rfl, .watch he hs hlobby⟩)
        (Registry.fewer_watch _ _ _).room)
  | @found owner id name s v he _ _ _ hv hhears =>
      refine Or.inr ⟨id, owner, name, s, he, callsOf_eq ?_, fun x hx => ?_,
        congrArg (fun q => q.tables.nextRoom) hq⟩
      · rw [hcalls, Voice.calls_say rfl, Voice.hears_say, Voice.calls_say rfl, hv, if_pos hhears,
          if_pos hhears, List.append_assoc]
        rfl
      · rw [hrooms] at hx
        obtain ⟨y, hy, heq⟩ := (Registry.fewer_seat _ _ _).room _ x hx
        cases (Function.update_self (f := h.registry.room) h.nextRoom _).symm.trans hy
        exact heq.symm
  | @message c r record s t he hs hplace halike =>
      refine Or.inl (hordinary ?_ (Registry.fewer_alike halike).room)
      unfold Scene.tell
      split
      · exact Voice.tells_of_calls rfl
      · rename_i x hx
        exact Voice.tells_say ⟨r, x, hx, rfl, .message he⟩

theorem mem_told_singleton {call : Call} : call ∈ h.told r [e] ↔
    call.event = e ∧ (call.scheduler, call.signal) ∈ h.callsOf e ∧ call.signal.room = r := by
  rw [told, trace, trace, List.append_nil, List.mem_filter, decide_eq_true_iff, List.mem_map]
  constructor
  · rintro ⟨⟨⟨id, s⟩, hmem, rfl⟩, hr⟩
    exact ⟨rfl, hmem, hr⟩
  · rintro ⟨rfl, hmem, hr⟩
    exact ⟨⟨_, hmem, rfl⟩, hr⟩

/-- A room that is told something is there, and its scheduler hears it. -/
theorem host_of_told (ho : h.Ordinary e) {call : Call} (hcall : call ∈ h.told r [e]) :
    ∃ x, h.room? r = some x ∧ call.scheduler = x.scheduler ∧ call.GoesOn := by
  obtain ⟨event, id, s⟩ := call
  obtain ⟨rfl, hmem, rfl⟩ := mem_told_singleton.mp hcall
  obtain ⟨q, x, hx, hid, hs⟩ := ho.calls _ _ hmem
  rw [room_of_said hs]
  exact ⟨x, hx, hid.symm, goesOn_of_said hs⟩

/-- A new room is told of itself and of its owner, and no other room is told anything. -/
theorem told_of_founding {id owner : Int} {name : String} {s : Session}
    (hf : h.Founding e id owner name s) (r : Int) : h.told r [e] = if h.nextRoom = r then
      [⟨e, id, newRoomSignal r name⟩, ⟨e, id, joinSignal r owner s⟩] else [] := by
  rw [told, trace, trace, List.append_nil, hf.calls]
  by_cases hr : h.nextRoom = r
  · subst hr
    simp [newRoomSignal, joinSignal, Signal.room]
  · simp [newRoomSignal, joinSignal, Signal.room, hr]

end said

/-! ## The beginning and the end -/

/-- Calls begin with a new room and its owner, who has asked for it, go to one scheduler and go on with
what is said of connections. -/
def OpensWith (r id : Int) (calls : List Call) : Prop :=
  ∃ e owner name s later, e.makes? = some (owner, name)
    ∧ calls = ⟨e, id, newRoomSignal r name⟩ :: ⟨e, id, joinSignal r owner s⟩ :: later
    ∧ ∀ call ∈ later, call.scheduler = id ∧ call.GoesOn

/-- What has been said to a room so far. -/
structure Opened (h : Hall) (r : Int) (calls : List Call) : Prop where
  unmade : h.nextRoom ≤ r → calls = []
  there : ∀ x, h.room? r = some x → OpensWith r x.scheduler calls
  shape : calls = [] ∨ ∃ id, OpensWith r id calls

section rooms

variable {h : Hall} {e : Event} {r : Int} {calls : List Call}

theorem opensWith_append {id : Int} {new : List Call} (h : OpensWith r id calls)
    (hnew : ∀ call ∈ new, call.scheduler = id ∧ call.GoesOn) : OpensWith r id (calls ++ new) := by
  obtain ⟨e, owner, name, s, later, he, rfl, hlater⟩ := h
  refine ⟨e, owner, name, s, later ++ new, he, rfl, fun call hcall => ?_⟩
  exact (List.mem_append.mp hcall).elim (hlater call) (hnew call)

theorem nextRoom_step (hb : h.ledger.Balanced) (e : Event) : h.nextRoom ≤ (h.step e).nextRoom :=
  (follows_step hb e).nextRoom

/-- A room that is not there is told nothing. -/
theorem told_of_ordinary (ho : h.Ordinary e) (hnone : h.room? r = none) : h.told r [e] = [] := by
  refine List.eq_nil_iff_forall_not_mem.mpr fun call hcall => ?_
  obtain ⟨x, hx, _⟩ := host_of_told ho hcall
  rw [hnone] at hx
  cases hx

theorem opened_of_ordinary (hb : h.ledger.Balanced) (ho : h.Opened r calls) (hord : h.Ordinary e) :
    (h.step e).Opened r (calls ++ h.told r [e]) := by
  have hthere : ∀ x, h.room? r = some x → OpensWith r x.scheduler (calls ++ h.told r [e]) := by
    intro x hx
    refine opensWith_append (ho.there x hx) fun call hcall => ?_
    obtain ⟨y, hy, hid, hgoes⟩ := host_of_told hord hcall
    cases hx.symm.trans hy
    exact ⟨hid, hgoes⟩
  exact {
    unmade := by
      intro hr
      have hr' := Int.le_trans (nextRoom_step hb e) hr
      rw [ho.unmade hr', told_of_ordinary hord (room?_of_nextRoom_le hb hr'), List.append_nil]
    there := by
      intro x' hx'
      obtain ⟨x, hx, heq⟩ := hord.rooms r x' hx'
      rw [← heq]
      exact hthere x hx
    -- a room that is not there is told nothing, and keeps what it was told
    shape := by
      cases hx : h.room? r with
      | none => rw [told_of_ordinary hord hx, List.append_nil]; exact ho.shape
      | some x => exact Or.inr ⟨x.scheduler, hthere x hx⟩ }

theorem opened_of_founding (hb : h.ledger.Balanced) (ho : h.Opened r calls) {id owner : Int}
    {name : String} {s : Session} (hf : h.Founding e id owner name s) :
    (h.step e).Opened r (calls ++ h.told r [e]) := by
  rw [told_of_founding hf]
  by_cases hr : h.nextRoom = r
  -- nothing has been said to the room before
  · subst hr
    rw [if_pos rfl, ho.unmade (Int.le_refl _), List.nil_append]
    have hopens : OpensWith h.nextRoom id [⟨e, id, newRoomSignal h.nextRoom name⟩,
        ⟨e, id, joinSignal h.nextRoom owner s⟩] :=
      ⟨e, owner, name, s, [], hf.asked, rfl, fun _ hcall => absurd hcall List.not_mem_nil⟩
    refine ⟨fun hr => ?_, fun x hx => ?_, Or.inr ⟨id, hopens⟩⟩
    · rw [hf.number] at hr
      omega
    · rw [hf.host x hx]
      exact hopens
  · rw [if_neg hr, List.append_nil]
    refine ⟨fun hr' => ho.unmade (Int.le_trans (nextRoom_step hb e) hr'), fun x' hx' => ?_, ho.shape⟩
    rcases room_step hb hx' with ⟨x, hx, heq⟩ | ⟨hnew, _⟩
    · rw [← heq]
      exact ho.there x hx
    · exact absurd hnew.symm hr

theorem opened_run (hb : h.ledger.Balanced) (ho : h.Opened r []) (events : List Event) :
    (h.run events).Opened r (h.told r events) := by
  induction events using List.reverseRecOn with
  | nil => exact ho
  | append_singleton past e ih =>
      have hb' := balanced_run hb past
      rw [run_append, told_append]
      rcases ordinary_or_founding hb' e with hord | ⟨id, owner, name, s, hf⟩
      · exact opened_of_ordinary hb' ih hord
      · exact opened_of_founding hb' ih hf

/-- **A room that has ended is told nothing any more.** -/
theorem told_of_ended (hb : h.ledger.Balanced) (hmade : r < h.nextRoom) (hnone : h.room? r = none)
    (future : List Event) : h.told r future = [] := by
  induction future generalizing h with
  | nil => rfl
  | cons e future ih =>
      have hnow : h.told r [e] = [] := by
        rcases ordinary_or_founding hb e with hord | ⟨id, owner, name, s, hf⟩
        · exact told_of_ordinary hord hnone
        · rw [told_of_founding hf, if_neg (by omega)]
      have hlater : (h.step e).room? r = none := by
        by_contra hsome
        obtain ⟨x', hx'⟩ := Option.ne_none_iff_exists'.mp hsome
        rcases room_step hb hx' with ⟨x, hx, _⟩ | ⟨hnew, _⟩
        · rw [hnone] at hx
          cases hx
        · omega
      have happend := told_append h r [e] future
      rw [List.singleton_append, hnow, List.nil_append] at happend
      rw [happend]
      exact ih (balanced_step hb e) (Int.lt_of_lt_of_le hmade (nextRoom_step hb e)) hlater

theorem trace_of_crashed (hcrashed : h.crashed = true) (events : List Event) : h.trace events = [] := by
  induction events with
  | nil => rfl
  | cons e events ih =>
      have hstep := step_of_crashed hcrashed e
      have hnone : h.callsOf e = [] := callsOf_eq (by rw [hstep, List.append_nil])
      rw [trace, hnone, hstep, ih]
      rfl

theorem room?_finishRoom (h : Hall) (r : Int) : (h.finishRoom r).2.room? r = none := by
  unfold finishRoom
  cases hroom : h.existingRoom r with
  | error fault =>
      unfold existingRoom at hroom
      split at hroom
      · cases hroom
      · assumption
  | ok x =>
      have hended : (h.finish r x).room? r = (h.registry.endRoom r x).room r :=
        congrFun (congrArg Registry.room (registry_finish h r x)) r
      exact hended.trans (Function.update_self ..)

/-- To end a room is to tell it nothing any more. -/
theorem told_of_finishRoom (hb : h.ledger.Balanced) (hmade : r < h.nextRoom) (future : List Event) :
    h.told r (.finishRoom r :: future) = [] := by
  cases hcrashed : h.crashed with
  | true => rw [told, trace_of_crashed hcrashed]; rfl
  | false =>
      have hstep : h.step (.finishRoom r) = (h.finishRoom r).2 := step_of_up hcrashed _
      have hsilent : h.callsOf (.finishRoom r) = [] := by
        refine callsOf_eq ?_
        rw [hstep, List.append_nil]
        exact (fades_finishRoom h r).calls
      have hended := told_of_ended (balanced_step hb (.finishRoom r))
        (Int.lt_of_lt_of_le hmade (nextRoom_step hb _)) (by rw [hstep]; exact room?_finishRoom h r) future
      rw [told, trace, hsilent]
      exact hended

end rooms

/-! ## Runs -/

section runs

variable {h : Hall} {c r : Int} {e : Event} {past future : List Event}

theorem calls_step (hb : h.ledger.Balanced) (e : Event) :
    (h.step e).calls = h.calls ++ h.callsOf e := by
  obtain ⟨new, hcalls, _⟩ := tells_step hb e
  rw [callsOf_eq hcalls]
  exact hcalls

/-- **The calls of a run are its trace.** -/
theorem calls_run (hb : h.ledger.Balanced) (events : List Event) : (h.run events).calls
    = h.calls ++ (h.trace events).map fun call => (call.scheduler, call.signal) := by
  induction events generalizing h with
  | nil => exact (List.append_nil _).symm
  | cons e events ih =>
      have hrun : (h.run (e :: events)).calls = ((h.step e).run events).calls := rfl
      rw [hrun, ih (balanced_step hb e), calls_step hb, trace, List.map_append, List.map_map,
        List.append_assoc]
      refine congrArg (h.calls ++ ·) (congrArg (· ++ _) ?_)
      exact (List.map_id _).symm

/-- Who is announced as a player comes from the lobby and has a seat. -/
theorem announces_of_join (hb : h.ledger.Balanced) {id : Int} {s : Signal}
    (hmem : (id, s) ∈ h.callsOf e) (hdeal : e.deal? s = some (c, .join)) :
    ∃ payload, s = .request s.room c (Utf8.encode "join") payload
      ∧ h.AnnouncesPlayer e s.room c payload := by
  cases s with
  | request q d command payload =>
      rw [Event.deal?] at hdeal
      split at hdeal
      · cases hdeal
      · rename_i hrecord
        split at hdeal
        · rename_i hcommand
          cases hdeal
          cases origin_of_mem hb hmem with
          | room _ hroom => exact absurd (hcommand.symm.trans hroom.command) (by decide)
          | player _ hplayer => exact ⟨payload, by rw [hcommand]; rfl, hplayer⟩
          | client hspoken =>
              obtain ⟨record, rfl, _⟩ := hspoken.said
              exact absurd rfl hrecord
        · cases hdeal
  | playerState q d state => cases state <;> cases hdeal
  | addObserver q description =>
      obtain ⟨p, _, heq⟩ := Option.map_eq_some_iff.mp hdeal
      cases heq
  | wake | removeObserver | arm | disarm => cases hdeal

/-- Who is announced as an observer comes from the lobby. -/
theorem watches_of_watch (hb : h.ledger.Balanced) {id : Int} {s : Signal}
    (hmem : (id, s) ∈ h.callsOf e) (hdeal : e.deal? s = some (c, .watch)) :
    ∃ player, h.session? c = some player ∧ player.inLobby = true
      ∧ s = .addObserver s.room (player.describe c) := by
  -- only the announcement of an observer counts as watching
  have hobserver : ∃ q description, s = .addObserver q description ∧ ∃ q', e.watches? = some (c, q') := by
    cases s with
    | request q d command payload =>
        rw [Event.deal?] at hdeal
        split at hdeal
        · cases hdeal
        · split at hdeal <;> cases hdeal
    | playerState q d state => cases state <;> cases hdeal
    | addObserver q description =>
        obtain ⟨p, hp, heq⟩ := Option.map_eq_some_iff.mp hdeal
        cases heq
        exact ⟨q, description, rfl, p.2, hp⟩
    | wake | removeObserver | arm | disarm => cases hdeal
  obtain ⟨q, description, rfl, q', hwatches⟩ := hobserver
  rcases ordinary_or_founding hb e with hord | ⟨_, _, _, _, hf⟩
  · obtain ⟨p, _, _, _, hsaid⟩ := hord.calls _ _ hmem
    cases hsaid with
    | notice hs => cases hs
    | watch he hs hlobby =>
        cases he.symm.trans hwatches
        exact ⟨_, hs, hlobby, rfl⟩
  · rw [hf.calls] at hmem
    simp [newRoomSignal, joinSignal] at hmem

/-- What holds of the calls about a room in a run. -/
structure Conversation (h : Hall) (events : List Event) (r : Int) : Prop where
  /-- They begin with the room and its owner and go to one scheduler. What follows is said of connections
  or wakes the room. -/
  opening : h.told r events = [] ∨ ∃ id, OpensWith r id (h.told r events)
  /-- The scheduler is that of the room. -/
  hosted : ∀ x, (h.run events).room? r = some x → OpensWith r x.scheduler (h.told r events)
  /-- Whoever joins was in the lobby and gets a seat just then. -/
  joined : ∀ past e future id s c, events = past ++ e :: future →
    (id, s) ∈ (h.run past).callsOf e → s.room = r → e.deal? s = some (c, .join) →
    ∃ payload, s = .request r c (Utf8.encode "join") payload
      ∧ (h.run past).AnnouncesPlayer e r c payload
  /-- Whoever watches was in the lobby. -/
  watched : ∀ past e future id s c, events = past ++ e :: future →
    (id, s) ∈ (h.run past).callsOf e → s.room = r → e.deal? s = some (c, .watch) →
    ∃ player, (h.run past).session? c = some player ∧ player.inLobby = true
      ∧ s = .addObserver r (player.describe c)
  /-- What is said of one connection is in good order, in any part of the run in which its number stands
  for it. -/
  orderly : ∀ c past part future, events = past ++ part ++ future → h.Unshared c past →
    (h.run past).OneConnection c part → Orderly ((h.run past).deals c r part)
  /-- Nothing is said of a room that has been there and is not there any more. -/
  ended : ∀ past future, events = past ++ future → r < (h.run past).nextRoom →
    (h.run past).room? r = none → h.told r events = h.told r past
  finished : ∀ past future, events = past ++ .finishRoom r :: future → r < (h.run past).nextRoom →
    h.told r events = h.told r past

/-- What holds of the calls of a run. -/
structure Conversations (h : Hall) (events : List Event) : Prop where
  /-- The trace has all of them. -/
  complete : (h.run events).calls
    = h.calls ++ (h.trace events).map fun call => (call.scheduler, call.signal)
  rooms : ∀ r, h.Conversation events r
  /-- No two connections have the same number before the greatest one has been given. -/
  once : h.lastConnection + accepted events ≤ maxConnection → ∀ c, (h.comers events).count c ≤ 1
  /-- No event follows the end of a connection. -/
  last : ∀ c past before after future e, events = past ++ (before ++ .closed c :: after) ++ future →
    (h.run past).OneConnection c (before ++ .closed c :: after) → e ∈ after → e.reporter? ≠ some c

theorem conversation_of_opened (hb : h.ledger.Balanced) {events : List Event}
    (hopened : h.Opened r []) (ht : ∀ c, h.registry.Tracked c) : h.Conversation events r where
  opening := (opened_run hb hopened events).shape
  hosted := (opened_run hb hopened events).there
  joined := by
    intro past e future id s c _ hmem hr hdeal
    rw [← hr]
    exact announces_of_join (balanced_run hb past) hmem hdeal
  watched := by
    intro past e future id s c _ hmem hr hdeal
    rw [← hr]
    exact watches_of_watch (balanced_run hb past) hmem hdeal
  -- while the number is not shared, the room hears of one connection in order
  orderly := by
    intro c past part future _ hunshared hone
    rw [← List.append_nil part] at hone
    have htracked := tracked_run hb (ht c) hunshared
    obtain ⟨st, hst, _⟩ := (abreast_run (balanced_run hb past) htracked r hone).stance
    exact (Stance.orderly_of_after? hst).1
  ended := by
    intro past future heq hmade hnone
    rw [heq, told_append, told_of_ended (balanced_run hb past) hmade hnone, List.append_nil]
  finished := by
    intro past future heq hmade
    rw [heq, told_append, told_of_finishRoom (balanced_run hb past) hmade, List.append_nil]

/-- Nobody is there yet, and no room. -/
theorem tracked_new (authenticator : Authenticator) (settings : Settings) (fingerprint : String)
    (epoch c : Int) : (new authenticator settings fingerprint epoch).registry.Tracked c where
  apart := fun _ => rfl
  seated := fun _ hc => absurd hc List.not_mem_nil
  watching := fun _ hc => absurd hc List.not_mem_nil
  exclusive := fun _ hs => nomatch hs
  kept := fun _ hs => nomatch hs
  below := fun _ hs => nomatch hs
  opened := show (0 : Int) < 1 by decide
  rooms := fun _ _ hx => nomatch hx

theorem unrepeated_new (authenticator : Authenticator) (settings : Settings) (fingerprint : String)
    (epoch c : Int) : (new authenticator settings fingerprint epoch).registry.Unrepeated c :=
  ⟨fun _ => Nat.zero_le 1, fun _ => Nat.zero_le 1⟩

theorem unknown_new (authenticator : Authenticator) (settings : Settings) (fingerprint : String)
    (epoch c : Int) : ¬ (new authenticator settings fingerprint epoch).registry.Known c :=
  fun hc => hc.elim (fun hp => nomatch hp) fun hs => nomatch hs

/-- Before the greatest number has been given, every number stands for one connection. -/
theorem unshared_of_few (hb : h.ledger.Balanced) {events : List Event}
    (hunknown : ∀ c, ¬ h.registry.Known c)
    (hfew : h.lastConnection + accepted events ≤ maxConnection) (c : Int) : h.Unshared c events :=
  unshared_of_once hb (hunknown c)
    (List.nodup_iff_count_le_one.mp (nodup_comers hb events hfew).1 c)

/-- **Whatever happens, rooms are told of it in good order.** -/
theorem conversations_run (authenticator : Authenticator) (settings : Settings) (fingerprint : String)
    (epoch : Int) (events : List Event) :
    (new authenticator settings fingerprint epoch).Conversations events := by
  have hb := balanced_new authenticator settings fingerprint epoch
  exact {
    complete := calls_run hb events
    rooms := fun r => conversation_of_opened hb
      ⟨fun _ => rfl, fun _ hx => (nomatch hx), Or.inl rfl⟩
      (tracked_new authenticator settings fingerprint epoch)
    once := fun hfew c => List.nodup_iff_count_le_one.mp (nodup_comers hb events hfew).1 c
    -- the reports of one connection end with its closing, so none comes behind
    last := by
      intro c past before after future e _ hone he hreporter
      obtain ⟨first, rest, rfl⟩ := List.append_of_mem he
      obtain ⟨later, k, hreports⟩ := hone.reports
      rw [← List.cons_append, ← List.append_assoc] at hreports
      exact not_closed_of_reports hreports hreporter (by simp) }

/-- A record by which a player says something. -/
def wordRecord (command : Octets) : Record :=
  ⟨Record.notificationId, SignUp.mask, command, [], none⟩

/-- The second player watches the room of the first, leaves it, sits down there and is gone. -/
def visit : List Event :=
  watched ++ [.record 2 (wordRecord (Utf8.encode "hi")), .record 2 (wordRecord quitCommand),
    .seatPlayer 2 1, .record 2 (wordRecord (Utf8.encode "hi")), .closed 2, .finishRoom 1]

/-- What the second player sends. -/
def visitOctets : Octets :=
  (helloRecord "bob").write ++ (wordRecord (Utf8.encode "hi")).write ++ (wordRecord quitCommand).write
    ++ (wordRecord (Utf8.encode "hi")).write

theorem oneConnection_visit :
    (new (.openToAll []) .initial "rules" 0).OneConnection 2 visit where
  unknown := unknown_new _ _ _ _ 2
  once := by decide +kernel
  reports := by
    refine ⟨[], (Connection.new.receive visitOctets).2.stopReading.2, ?_⟩
    have hreports : reportsOf 2 visit ++ []
        = (Connection.new.receive visitOctets).1
          ++ ((Connection.new.receive visitOctets).2.stopReading.1 ++ []) := by
      decide +kernel
    rw [hreports]
    exact .cons (.receive _ _ (by decide +kernel)) (.cons (.lose _) (.nil _))

theorem conversations_run_visit :
    (new (.openToAll []) .initial "rules" 0).deals 2 1 visit
        = [.watch, .message, .unwatch, .join, .message, .offline]
      ∧ Orderly ((new (.openToAll []) .initial "rules" 0).deals 2 1 visit) :=
  ⟨by decide +kernel, ((conversations_run (.openToAll []) .initial "rules" 0 visit).rooms 1).orderly 2
    [] visit [] (List.append_nil _).symm (fun past _ _ hnil => absurd hnil.symm (by simp))
    oneConnection_visit⟩

end runs

end Hall

end GameHall
