import GameHall.Proofs.Scheduler.Order

/-!
# An engine hears every signal, and goodbye at last

The main loop gives a worker signals and at some time asks it to quit. What its engine gets to hear,
besides the timers that fire, are the calls of the signals that were given before that, in order, those
of the first signals that were given after it, and goodbye, behind which there is nothing. An engine that
is lost has heard the beginning of that, and one that does not come up nothing
(`Farewell`, `farewell_play`).
-/

namespace GameHall

/-- How a worker goes on from phase to phase. -/
inductive WorkerPhase.Next : WorkerPhase → WorkerPhase → Prop
  | stay (p : WorkerPhase) : Next p p
  | up : Next .starting .running
  | fail : Next .starting .stopped
  | drain : Next .running .draining
  | leave : Next .draining .closing
  | stop : Next .closing .stopped

/-- How far a phase is. -/
def WorkerPhase.rank : WorkerPhase → Nat
  | starting => 0
  | running => 1
  | draining => 2
  | closing => 3
  | stopped => 4

theorem WorkerPhase.Next.rank_le {p q : WorkerPhase} (h : p.Next q) : p.rank ≤ q.rank := by
  cases h with
  | stay => exact Nat.le_refl _
  | _ => decide

namespace Worker

variable {w : Worker} {now : Moment} {events : History} {R : Moment → Moment → Prop}

/-! ## What the engine hears -/

/-- The calls among the packets that have been written, each with where it comes from. -/
def Hears (w : Worker) (heard : List (Cause × EngineCall)) : Prop :=
  ∃ gone, Packet.writeAll gone = .ok w.endpoint.written
    ∧ Endpoint.calls gone = heard.map fun m => m.2.toCall

/-- What the main loop lets an engine hear that hears it out: the calls of the signals that were given
before it was done with the engine, those of so many that were given after, and goodbye. -/
def script (events : History) (more : Nat) : List (Cause × EngineCall) :=
  callsOf (firm events ++ (loose events).take more) ++ [(.farewell, EngineCall.bye)]

/-- The calls that have been written are the first ones that were made. -/
theorem exists_hears (hp : Piped (¬ ReadsOn events) w) : ∃ heard, w.Hears heard
    ∧ heard <+: made w.deeds
    ∧ (ReadsOn events → w.endpoint.outgoing = [] → heard = made w.deeds) := by
  obtain ⟨gone, hgone, hfront, hall⟩ := hp.out
  rw [Endpoint.calls_append] at hfront hall
  have hshort := (List.prefix_append _ _).trans hfront
  refine ⟨(made w.deeds).take (Endpoint.calls gone).length, ⟨gone, hgone, ?_⟩, List.take_prefix _ _,
    fun hreads hout => ?_⟩
  · rw [List.map_take]
    exact List.prefix_iff_eq_take.mp hshort
  · obtain hall | ⟨_, htorn⟩ := hall
    case inr => exact absurd hreads htorn
    rw [hout] at hall
    have hlength := congrArg List.length hall
    rw [List.length_append, List.length_map] at hlength
    exact List.take_of_length_le (Nat.le_of_eq hlength.symm)

/-- Signals that contain the firm ones and are the first that were given. -/
theorem exists_loose {signals : List Signal} (hfirm : firm events <+: signals)
    (hfront : signals <+: emitted events) :
    ∃ more, signals = firm events ++ (loose events).take more := by
  obtain ⟨tail, rfl⟩ := hfirm
  rw [← firm_append_loose, List.prefix_append_right_inj] at hfront
  exact ⟨tail.length, by rw [← List.prefix_iff_eq_take.mp hfront]⟩

theorem prefix_callsOf {signals signals' : List Signal} (h : signals <+: signals') :
    callsOf signals <+: callsOf signals' := by
  obtain ⟨tail, rfl⟩ := h
  rw [callsOf_append]
  exact List.prefix_append _ _

theorem prefix_ran (h : Ordered events w) : ran w.deeds <+: emitted events :=
  (List.prefix_append _ _).trans h.queue

/-- A worker that has left has taken the firm signals, and no others than were given. -/
theorem ran_of_left (h : Ordered events w) (ht : Timely R w) (hsound : Sound events)
    (hleft : ∃ d ∈ w.deeds, d.2 = .clear) :
    ∃ more, callsOf (ran w.deeds) ++ goodbye w.deeds = script events more := by
  have hdown : w.isUp = false := Bool.eq_false_iff.mpr fun hup => not_left_of_up ht hup hleft
  have hfirm := h.firm hsound fun _ => hleft
  rw [waiting, hdown, if_neg Bool.false_ne_true, List.append_nil] at hfirm
  obtain ⟨more, hmore⟩ := exists_loose hfirm (prefix_ran h)
  exact ⟨more, by rw [hmore, goodbye_of_mem hleft]; rfl⟩

/-- What has been called is the beginning of what the main loop lets an engine hear. -/
theorem called_prefix (h : Ordered events w) (ht : Timely R w) :
    ∃ more, called w.deeds <+: script events more := by
  by_cases hbye : ∃ m ∈ made w.deeds, m.1 = .farewell
  · -- goodbye was said, so the worker left with all firm signals run
    obtain ⟨m, hm, hfarewell⟩ := hbye
    obtain ⟨before, after, heq⟩ := List.append_of_mem hm
    obtain ⟨_, hleft, hsound⟩ := h.last before m after heq hfarewell
    obtain ⟨more, hmore⟩ := ran_of_left h ht hsound hleft
    exact ⟨more, hmore ▸ h.front⟩
  · -- without goodbye these are calls of signals
    have hshort : called w.deeds <+: callsOf (ran w.deeds) := by
      have hfront := h.front
      rw [goodbye] at hfront
      split at hfront
      · refine (List.prefix_concat_iff.mp hfront).resolve_left fun hall => hbye ?_
        have hmem : (Cause.farewell, EngineCall.bye) ∈ called w.deeds := by
          rw [hall]
          exact List.mem_append_right _ List.mem_cons_self
        exact ⟨_, (List.mem_filter.mp hmem).1, rfl⟩
      · rwa [List.append_nil] at hfront
    refine ⟨(loose events).length, hshort.trans ((prefix_callsOf (prefix_ran h)).trans ?_)⟩
    rw [script, List.take_length, firm_append_loose]
    exact List.prefix_append _ _

/-! ## Phases -/

theorem next_turn (w : Worker) (now : Moment) : w.phase.Next (w.turn now).phase := by
  cases turn_cases w now with
  | nothing heq =>
      rw [heq]
      exact .stay _
  | drain hphase _ heq =>
      rw [heq, hphase]
      exact .drain
  | report _ _ heq =>
      rw [heq]
      exact .stay _
  | take s rest _ _ heq =>
      rw [heq, (takeSignal_same w now s rest).1]
      exact .stay _
  | leave hphase _ heq =>
      rw [heq, hphase]
      exact .leave
  | stop hphase heq =>
      rw [heq, hphase]
      exact .stop

theorem next_step (w : Worker) (e : Moment × Event) : w.phase.Next (w.step e).phase := by
  obtain ⟨now, event⟩ := e
  by_cases htask : event.isTask = true
  · rw [(aside_step htask).phase]
    exact .stay _
  cases step_cases w now event with
  | nothing heq | emit _ _ _ heq | quit heq | giveUp heq =>
      rw [heq]
      exact .stay _
  | start rest hphase _ =>
      rw [(calm_start hphase now rest).2.1, hphase]
      exact .up
  | failStart hphase heq =>
      rw [heq, hphase]
      exact .fail
  | turn heq =>
      rw [heq]
      exact next_turn w now
  | _ => exact absurd rfl htask

/-- No event takes a worker back to an earlier phase. -/
theorem rank_play (w : Worker) (events : History) : w.phase.rank ≤ (w.play events).phase.rank := by
  induction events generalizing w with
  | nil => exact Nat.le_refl _
  | cons e events ih => exact Nat.le_trans (next_step w e).rank_le (ih _)

/-- The engine has come up. -/
def CameUp (events : History) : Prop :=
  ∃ past later, events = past ++ later ∧ (new.play past).phase = .running

/-- An engine whose start has failed does not come up. -/
theorem not_cameUp_of_failStart {past later : History} (hphase : (new.play past).phase = .starting) :
    ¬ CameUp (past ++ (now, .failStart) :: later) := by
  rintro ⟨first, second, heq, hrunning⟩
  rcases cut_append heq.symm with ⟨as, rfl⟩ | ⟨bs, rfl, _⟩
  · have hstopped : ((new.play past).step (now, .failStart)).phase = .stopped := by
      have heq : (new.play past).step (now, .failStart) = _ := if_pos hphase
      rw [heq]
    have hrank := rank_play ((new.play past).step (now, .failStart)) as
    rw [play_append] at hrunning
    have hrunning : (((new.play past).step (now, .failStart)).play as).phase = .running := hrunning
    rw [hstopped, hrunning] at hrank
    exact absurd hrank (by decide)
  · have hrank := rank_play (new.play first) bs
    rw [← play_append, hphase, hrunning] at hrank
    exact absurd hrank (by decide)

/-- Nothing has been written to an engine that has not come up. -/
structure Dormant (w : Worker) : Prop where
  phase : w.phase = .starting ∨ w.phase = .stopped
  endpoint : w.endpoint = Endpoint.new

/-- A worker that is not up takes no turns. -/
theorem turn_of_down (h : w.phase = .starting ∨ w.phase = .stopped) : w.turn now = w := by
  rcases h with hphase | hphase
  · rw [turn, hphase]
  · rw [turn, hphase]

theorem not_yields_of_down (h : w.phase = .starting ∨ w.phase = .stopped) : w.yields ≠ true := by
  rcases h with hphase | hphase
  · simp [yields, hphase]
  · simp [yields, hphase]

theorem dormant_step (h : Dormant w) {e : Moment × Event} (hdown : (w.step e).phase ≠ .running) :
    Dormant (w.step e) := by
  obtain ⟨now, event⟩ := e
  -- a worker that is not up yields to no task, and only `start` would bring it up
  cases step_cases w now event with
  | nothing heq => rwa [heq]
  | start rest hphase _ => exact absurd (calm_start hphase now rest).2.1 hdown
  | failStart _ heq =>
      rw [heq]
      exact ⟨Or.inr rfl, h.endpoint⟩
  | emit _ _ _ heq | quit heq | giveUp heq =>
      rw [heq]
      exact ⟨h.phase, h.endpoint⟩
  | turn heq =>
      rw [heq, turn_of_down h.phase]
      exact h
  | write heq | failWriting heq =>
      rw [heq]
      refine ⟨h.phase, ?_⟩
      dsimp only
      rw [h.endpoint]
      rfl
  | receive _ hyields _ | endOfOutput hyields _ | errand _ hyields _ | answer _ _ hyields _
  | ring _ hyields _ => exact absurd hyields (not_yields_of_down h.phase)

theorem dormant_play (h : ¬ CameUp events) : Dormant (new.play events) := by
  induction events using List.reverseRecOn with
  | nil => exact ⟨Or.inl rfl, rfl⟩
  | append_singleton events e ih =>
      have hbefore : ¬ CameUp events := by
        rintro ⟨past, later, rfl, hrunning⟩
        exact h ⟨past, later ++ [e], List.append_assoc _ _ _, hrunning⟩
      have hplay : new.play (events ++ [e]) = (new.play events).step e := by
        rw [play_append]
        rfl
      rw [hplay]
      refine dormant_step (ih hbefore) fun hrunning => h ⟨events ++ [e], [], ?_, ?_⟩
      · rw [List.append_nil]
      · rw [hplay, hrunning]

/-- A worker whose engine had come up has left before it stops. -/
theorem left_of_stopped (hup : CameUp events) (hstopped : (new.play events).phase = .stopped) :
    ∃ d ∈ (new.play events).deeds, d.2 = .clear := by
  obtain ⟨past, later, rfl, hrunning⟩ := hup
  -- on the events since it ran: a phase is entered only from the one before
  induction later using List.reverseRecOn with
  | nil =>
      rw [List.append_nil] at hstopped
      cases hrunning.symm.trans hstopped
  | append_singleton later e ih =>
      rw [← List.append_assoc] at hstopped ⊢
      have hplay : new.play (past ++ later ++ [e]) = (new.play (past ++ later)).step e := by
        rw [play_append]
        rfl
      have hrank := rank_play (new.play past) later
      rw [← play_append, hrunning] at hrank
      rw [hplay] at hstopped ⊢
      have hkept : (∃ d ∈ (new.play (past ++ later)).deeds, d.2 = .clear) →
          ∃ d ∈ ((new.play (past ++ later)).step e).deeds, d.2 = .clear := by
        rintro ⟨d, hd, hclear⟩
        exact ⟨d, (prefix_step _ e.1 e.2).subset hd, hclear⟩
      refine hkept ?_
      have hnext := next_step (new.play (past ++ later)) e
      rw [hstopped] at hnext
      generalize hphase : (new.play (past ++ later)).phase = phase at hrank hnext
      cases hnext with
      | stay => exact ih hphase
      | fail => exact absurd hrank (by decide)
      | stop => exact (timely_play (past ++ later)).left hphase

/-- A worker that stops after goodbye closes its pipes. -/
theorem endpoint_of_stop {e : Moment × Event} (hphase : w.phase = .closing)
    (hstopped : (w.step e).phase = .stopped) : (w.step e).endpoint = w.endpoint.close := by
  obtain ⟨now, event⟩ := e
  have hstays : (w.step (now, event)).phase ≠ w.phase := by
    rw [hphase, hstopped]
    decide
  by_cases htask : event.isTask = true
  · exact absurd (aside_step htask).phase hstays
  cases step_cases w now event with
  | start _ hstarting _ | failStart hstarting _ => cases hphase.symm.trans hstarting
  | nothing heq | emit _ _ _ heq | quit heq | giveUp heq =>
      rw [heq] at hstays
      exact absurd rfl hstays
  | turn heq =>
      rw [heq, turn, hphase]
  | _ => exact absurd rfl htask

/-- Nothing more happens to the pipes of a worker that has stopped. -/
theorem endpoint_of_stopped (hphase : w.phase = .stopped) (hout : w.endpoint.outgoing = [])
    (e : Moment × Event) : (w.step e).endpoint = w.endpoint := by
  obtain ⟨now, event⟩ := e
  cases step_cases w now event with
  | start _ hstarting _ | failStart hstarting _ => cases hphase.symm.trans hstarting
  | nothing heq | emit _ _ _ heq | quit heq | giveUp heq => rw [heq]
  | turn heq => rw [heq, turn_of_down (Or.inr hphase)]
  | write heq =>
      rw [heq]
      dsimp only
      rw [Endpoint.writeNext, hout]
  | failWriting heq =>
      rw [heq]
      dsimp only
      rw [Endpoint.failWriting, hout]
      rfl
  | receive _ hyields _ | endOfOutput hyields _ | errand _ hyields _ | answer _ _ hyields _
  | ring _ hyields _ => exact absurd hyields (not_yields_of_down (Or.inr hphase))

/-- A worker that has stopped has nothing left to write. -/
theorem outgoing_of_stopped (hstopped : (new.play events).phase = .stopped) :
    (new.play events).endpoint.outgoing = [] := by
  induction events using List.reverseRecOn with
  | nil => rfl
  | append_singleton events e ih =>
      have hplay : new.play (events ++ [e]) = (new.play events).step e := by
        rw [play_append]
        rfl
      have hfresh := (ordered_play events).fresh
      rw [hplay] at hstopped ⊢
      generalize new.play events = w at hfresh ih hstopped
      have hnext := next_step w e
      rw [hstopped] at hnext
      generalize hphase : w.phase = phase at hnext
      cases hnext with
      | stay => rw [endpoint_of_stopped hphase (ih hphase) e, ih hphase]
      | stop =>
          rw [endpoint_of_stop hphase hstopped]
          rfl
      | fail =>
          have hdormant : Dormant (w.step e) := by
            refine dormant_step ⟨Or.inl hphase, (hfresh hphase).2⟩ fun hrunning => ?_
            cases hstopped.symm.trans hrunning
          rw [hdormant.endpoint]
          rfl

/-! ## A worker that is asked to quit stops -/

/-- How many turns a worker that is asked to quit has to take yet, at most. -/
def turnsLeft (w : Worker) : Nat :=
  match w.phase with
  | .running => w.signals.length + 3
  | .draining => w.signals.length + 2
  | .closing => 1
  | .starting | .stopped => 0

/-- A turn of such a worker brings it nearer to its stop. -/
theorem turnsLeft_turn (hquitting : w.quitting = true) (hphase : w.phase ≠ .starting) (now : Moment) :
    (w.turn now).quitting = true ∧ (w.turn now).phase ≠ .starting
      ∧ (w.turn now).turnsLeft ≤ w.turnsLeft - 1 := by
  -- each phase has its own move, and the signals that wait are run one at a turn
  cases hw : w.phase with
  | starting => exact absurd hw hphase
  | stopped =>
      have heq : w.turn now = w := by rw [turn, hw]
      rw [heq]
      refine ⟨hquitting, hphase, ?_⟩
      rw [turnsLeft, hw]
      exact Nat.zero_le _
  | running =>
      have heq : w.turn now = { w with phase := .draining } := by
        rw [turn, hw]
        exact if_pos hquitting
      rw [heq]
      refine ⟨hquitting, (fun hstarting => by cases hstarting), ?_⟩
      rw [turnsLeft, turnsLeft, hw]
      exact Nat.le_refl _
  | draining =>
      cases hsignals : w.signals with
      | nil =>
          have heq : w.turn now = w.leave now := by
            rw [turn, hw]
            dsimp only
            rw [hsignals]
          have hsame := call_same ({ w with timers := w.timers.clear }.note now .clear) now .farewell
            EngineCall.bye
          rw [heq]
          refine ⟨hsame.2.2.1.trans hquitting, (fun hstarting => by cases hstarting), ?_⟩
          rw [turnsLeft, turnsLeft, hw, hsignals]
          exact Nat.le_refl _
      | cons s rest =>
          have heq : w.turn now = w.takeSignal now s rest := by
            rw [turn, hw]
            dsimp only
            rw [hsignals]
          obtain ⟨hphase', hsignals', hquitting', _⟩ := takeSignal_same w now s rest
          rw [heq]
          refine ⟨hquitting'.trans hquitting, hphase' ▸ hphase, ?_⟩
          rw [turnsLeft, turnsLeft, hphase', hw, hsignals', hsignals]
          exact Nat.le_refl _
  | closing =>
      have heq : w.turn now
          = { w with phase := .stopped, signals := [], endpoint := w.endpoint.close } := by
        rw [turn, hw]
      rw [heq]
      refine ⟨hquitting, (fun hstarting => by cases hstarting), ?_⟩
      rw [turnsLeft]
      exact Nat.zero_le _

theorem stopped_of_turnsLeft (hphase : w.phase ≠ .starting) (h : w.turnsLeft = 0) :
    w.phase = .stopped := by
  rw [turnsLeft] at h
  cases hw : w.phase with
  | starting => exact absurd hw hphase
  | stopped => rfl
  | running =>
      rw [hw] at h
      cases h
  | draining =>
      rw [hw] at h
      cases h
  | closing =>
      rw [hw] at h
      cases h

theorem stopped_of_turns (hquitting : w.quitting = true) (hphase : w.phase ≠ .starting) {turns : Nat}
    (h : w.turnsLeft ≤ turns) (now : Moment) :
    (w.play (List.replicate turns (now, .turn))).phase = .stopped := by
  induction turns generalizing w with
  | zero => exact stopped_of_turnsLeft hphase (Nat.le_zero.mp h)
  | succ turns ih =>
      obtain ⟨hquitting', hphase', hleft⟩ := turnsLeft_turn hquitting hphase now
      exact ih hquitting' hphase' (Nat.le_trans hleft (Nat.sub_le_of_le_add h))

theorem turnsLeft_le (w : Worker) : w.turnsLeft ≤ w.signals.length + 4 := by
  unfold turnsLeft
  split <;> omega

/-! ## What an engine gets to hear -/

/-- What an engine gets to hear from its worker. -/
structure Farewell (events : History) : Prop where
  /-- An engine has heard the beginning of what the main loop lets it hear, besides timers that fire. No
  call is made up, and goodbye is the last. -/
  heard : ∃ heard, (new.play events).Hears heard
    ∧ (∃ more, heard.filter (fun m => !m.1.isAlarm) <+: script events more)
    ∧ (∀ before m after, heard = before ++ m :: after → m.1 = .farewell → after = [])
    ∧ ∀ key c, (.timer key, c) ∈ heard → c = wakeUp key
  /-- An engine that has come up, is not lost before goodbye and reads on has heard it all when the worker
  stops, and goodbye as the last call. -/
  whole : CameUp events → Sound events → ReadsOn events → (new.play events).phase = .stopped →
    ∃ heard more, (new.play events).Hears (heard ++ [(.farewell, EngineCall.bye)])
      ∧ (heard ++ [(.farewell, EngineCall.bye)]).filter (fun m => !m.1.isAlarm) = script events more
      ∧ ∀ m ∈ heard, m.1 ≠ .farewell
  /-- Until then what it has heard, what waits to be written and what waits to be taken are the calls of
  all signals that were given. -/
  kept : ReadsOn events → (new.play events).isUp = true → (new.play events).isAlive = true →
    ∃ (gone : List Packet) (all : List (Cause × EngineCall)),
      Packet.writeAll gone = .ok (new.play events).endpoint.written
      ∧ Endpoint.calls (gone ++ (new.play events).endpoint.outgoing) = all.map (fun m => m.2.toCall)
      ∧ all.filter (fun m => !m.1.isAlarm) ++ callsOf (new.play events).signals
        = callsOf (emitted events)
  /-- A worker that is asked to quit stops, if its engine comes up. -/
  stops : CameUp events → (new.play events).quitting = true → ∀ now,
    (new.play (events ++ List.replicate ((new.play events).signals.length + 4) (now, .turn))).phase
      = .stopped
  /-- An engine that does not come up hears nothing. -/
  silent : ¬ CameUp events → (new.play events).endpoint.written = []
  /-- It does not when its start fails. -/
  fails : ∀ past now later, events = past ++ (now, .failStart) :: later →
    (new.play past).phase = .starting → ¬ CameUp events

theorem mem_made {deeds : Deeds} {m : Cause × EngineCall} (h : m ∈ made deeds) :
    ∃ now, (now, Deed.call m.1 m.2 true) ∈ deeds := by
  obtain ⟨⟨now, d⟩, hd, hm⟩ := List.mem_filterMap.mp h
  cases d with
  | call cause c taken =>
      cases taken with
      | true =>
          cases hm
          exact ⟨now, hd⟩
      | false => cases hm
  | _ => cases hm

/-- The calls of timers are those that wake rooms. -/
theorem wakeUp_of_made (ht : Timely R w) {key : TimerKey} {c : EngineCall}
    (h : (.timer key, c) ∈ made w.deeds) : c = wakeUp key := by
  obtain ⟨now, hmem⟩ := mem_made h
  obtain ⟨before, after, heq⟩ := List.append_of_mem hmem
  exact (ht.orderly before (now, .call (.timer key) c true) after heq).1

/-- What has been heard is the beginning of what the main loop lets an engine hear. -/
theorem heard_play (events : History) : ∃ heard, (new.play events).Hears heard
    ∧ (∃ more, heard.filter (fun m => !m.1.isAlarm) <+: script events more)
    ∧ (∀ before m after, heard = before ++ m :: after → m.1 = .farewell → after = [])
    ∧ ∀ key c, (.timer key, c) ∈ heard → c = wakeUp key := by
  have ho := ordered_play events
  obtain ⟨heard, hhears, hfront, _⟩ := exists_hears (piped_play events)
  obtain ⟨more, hmore⟩ := called_prefix ho (timely_play events)
  refine ⟨heard, hhears, ⟨more, (hfront.filter _).trans hmore⟩, ?_, fun key c hmem => ?_⟩
  · intro before m after heq hm
    obtain ⟨tail, htail⟩ := hfront
    have hlast := ho.last before m (after ++ tail) (by rw [← htail, heq]; simp) hm
    exact (List.append_eq_nil_iff.mp hlast.1).1
  · exact wakeUp_of_made (timely_play events) (hfront.subset hmem)

/-- When the worker has stopped all of it has been heard, if the engine was up, is not lost and reads
on. -/
theorem heard_of_stopped (hup : CameUp events) (hsound : Sound events) (hreads : ReadsOn events)
    (hstopped : (new.play events).phase = .stopped) :
    ∃ heard more, (new.play events).Hears (heard ++ [(.farewell, EngineCall.bye)])
      ∧ (heard ++ [(.farewell, EngineCall.bye)]).filter (fun m => !m.1.isAlarm) = script events more
      ∧ ∀ m ∈ heard, m.1 ≠ .farewell := by
  have ho := ordered_play events
  have hleft := left_of_stopped hup hstopped
  obtain ⟨more, hmore⟩ := ran_of_left ho (timely_play events) hsound hleft
  have hcalled := (ho.said hsound).trans hmore
  obtain ⟨heard, hhears, _, hall⟩ := exists_hears (piped_play events)
  obtain rfl := hall hreads (outgoing_of_stopped hstopped)
  -- goodbye is among the calls, and nothing behind it
  have hmem : (Cause.farewell, EngineCall.bye) ∈ called (new.play events).deeds := by
    rw [hcalled]
    exact List.mem_append_right _ List.mem_cons_self
  obtain ⟨before, after, heq⟩ := List.append_of_mem (List.mem_filter.mp hmem).1
  obtain ⟨rfl, _⟩ := ho.last before _ after heq rfl
  rw [called, heq] at hcalled
  rw [heq] at hhears
  refine ⟨before, more, hhears, hcalled, fun m hm hfarewell => ?_⟩
  obtain ⟨first, second, rfl⟩ := List.append_of_mem hm
  have hlast := ho.last first m (second ++ [(.farewell, EngineCall.bye)]) (by rw [heq]; simp) hfarewell
  exact absurd (List.append_eq_nil_iff.mp hlast.1).2 (List.cons_ne_nil _ _)

/-- While the engine is up and reads on, nothing of it is gone. -/
theorem kept_play (hreads : ReadsOn events) (hup : (new.play events).isUp = true)
    (halive : (new.play events).isAlive = true) :
    ∃ (gone : List Packet) (all : List (Cause × EngineCall)),
      Packet.writeAll gone = .ok (new.play events).endpoint.written
      ∧ Endpoint.calls (gone ++ (new.play events).endpoint.outgoing) = all.map (fun m => m.2.toCall)
      ∧ all.filter (fun m => !m.1.isAlarm) ++ callsOf (new.play events).signals
        = callsOf (emitted events) := by
  have ho := ordered_play events
  obtain ⟨gone, hgone, _, hall⟩ := (piped_play events).out
  -- the engine reads on, so no write has been torn off
  obtain hall | ⟨_, htorn⟩ := hall
  case inr => exact absurd hreads htorn
  refine ⟨gone, made (new.play events).deeds, hgone, hall, ?_⟩
  have hwhole := ho.whole hup halive
  -- an engine that is alive has not been lost, so every call of a signal went out
  have hlost : (new.play events).endpoint.lost = false := by
    rcases ((isAlive_of_up (piped_any events) hup).mp halive).2 with hphase | hlost
    · rw [(ho.fresh hphase).2]
      rfl
    · exact hlost
  have hsaid := ho.said (ho.sound hup hlost)
  have hnot := not_left_of_up (timely_play events) hup
  rw [goodbye_eq_nil fun d hd hclear => hnot ⟨d, hd, hclear⟩, List.append_nil] at hsaid
  rw [waiting, if_pos hup] at hwhole
  rw [← hwhole, callsOf_append, ← hsaid]
  rfl

/-- A worker that is asked to quit stops when it has taken its turns. -/
theorem stops_play (hup : CameUp events) (hquitting : (new.play events).quitting = true)
    (now : Moment) :
    (new.play (events ++ List.replicate ((new.play events).signals.length + 4) (now, .turn))).phase
      = .stopped := by
  rw [play_append]
  refine stopped_of_turns hquitting ?_ (turnsLeft_le _) now
  obtain ⟨past, later, rfl, hrunning⟩ := hup
  intro hstarting
  have hrank := rank_play (new.play past) later
  rw [← play_append, hrunning, hstarting] at hrank
  exact absurd hrank (by decide)

/-- **An engine hears every signal, and goodbye at last.** -/
theorem farewell_play (events : History) : Farewell events where
  heard := heard_play events
  whole := heard_of_stopped
  kept := kept_play
  stops := stops_play
  silent := by
    intro hdown
    rw [(dormant_play hdown).endpoint]
    rfl
  fails := by
    rintro past now later rfl hphase
    exact not_cameUp_of_failStart hphase

/-! ## Signals that no engine hears -/

/-- Whether the worker is asked to quit. -/
def Event.isQuit : Event → Bool
  | quit => true
  | _ => false

/-- The signals that were given before the worker was asked to quit. -/
def beforeQuit (events : History) : List Signal :=
  emitted (events.takeWhile fun e => !e.2.isQuit)

/-- The engine has heard the calls of all signals that were given before the worker was asked to quit,
those of some that were given later, and goodbye. -/
def HearsOut (events : History) : Prop :=
  ∃ heard later, (new.play events).Hears (heard ++ [(.farewell, EngineCall.bye)])
    ∧ heard.filter (fun m => !m.1.isAlarm) = callsOf (beforeQuit events) ++ callsOf later

/-- An engine to which less has been written than a call takes has not heard that call. -/
theorem not_hearsOut {c : EngineCall} (hgiven : (.signal, c) ∈ callsOf (beforeQuit events))
    {octets : Octets} (hc : (Packet.call c.toCall).write = .ok octets)
    (hshort : (new.play events).endpoint.written.length < octets.length) : ¬ HearsOut events := by
  rintro ⟨heard, later, ⟨gone, hgone, hcalls⟩, hheard⟩
  have hmem : (.signal, c) ∈ heard :=
    (List.mem_filter.mp (hheard ▸ List.mem_append_left (callsOf later) hgiven)).1
  have hcall : c.toCall ∈ Endpoint.calls gone := by
    rw [hcalls]
    exact List.mem_map_of_mem (List.mem_append_left _ hmem)
  obtain ⟨p, hp, hcall⟩ := List.mem_filterMap.mp hcall
  cases p with
  | call c' =>
      cases hcall
      exact Nat.not_lt.mpr (Endpoint.length_le_of_mem hc hp hgone) hshort
  | reply => cases hcall
  | refusal => cases hcall

/-- An engine takes longer to come up than the main loop waits. What it is given meanwhile is dropped. -/
def tardy : History :=
  [(1, .giveUp), (1, .emit (.wake 1 "a")), (2, .start []), (3, .quit)] ++ List.replicate 4 (3, .turn)

/-- An engine writes what is no packet. It is held to be lost, though it reads on. -/
def garbled : History :=
  [(0, .start []), (1, .receive [0xFF]), (2, .emit (.wake 1 "a")), (3, .quit)]
    ++ List.replicate 4 (3, .turn)

/-- **Not every signal before the quit is heard**: an engine that comes up and reads on does not hear what
it is given after it was given up, or after it was held to be lost. -/
theorem unheard_tardy_garbled :
    (CameUp tardy ∧ ReadsOn tardy ∧ (new.play tardy).phase = .stopped ∧ ¬ HearsOut tardy)
    ∧ (CameUp garbled ∧ ReadsOn garbled ∧ (new.play garbled).phase = .stopped ∧ ¬ HearsOut garbled) := by
  have hgiven : (Cause.signal, EngineCall.wake 1 "a") ∈ callsOf [.wake 1 "a"] := List.mem_cons_self
  refine ⟨⟨⟨tardy.take 3, tardy.drop 3, rfl, by decide +kernel⟩, ?_, by decide +kernel, ?_⟩,
    ⟨garbled.take 1, garbled.drop 1, rfl, by decide +kernel⟩, ?_, by decide +kernel, ?_⟩
  case refine_1 | refine_3 => intro now hmem; simp [tardy, garbled] at hmem
  case refine_2 | refine_4 => exact not_hearsOut hgiven rfl (by decide +kernel)

/-- A signal before the engine has come up, one after that, and one more after the worker has been asked
to quit. -/
example : (new.play ([(0, .emit (.wake 1 "a")), (0, .start []), (0, .emit (.wake 2 "b")), (0, .quit),
      (0, .turn), (0, .emit (.wake 3 "c"))] ++ List.replicate 6 (0, .turn))).endpoint.written
    = [EngineCall.wake 1 "a", EngineCall.wake 2 "b", EngineCall.wake 3 "c", EngineCall.bye].flatMap
      fun c => Packet.writeParts .call Packet.oneWay c.method c.params := by
  decide +kernel

end Worker

end GameHall
