import GameHall.Proofs.Lists
import GameHall.Scheduler.Step
import Mathlib.Data.List.Infix

/-!
# What a worker does

A worker takes its turns, and its tasks do things beside them: they serve the calls of the engine, run
errands, fire timers and write. Whatever a task does it leaves the queue and the phase of the worker
alone (`Aside`, `aside_step`). A turn takes a signal, leaves, or goes on to the next phase
(`turn_cases`). An event that comes at the wrong time does nothing (`step_cases`).

Whatever happens, what has been done before stays noted, and what is done now is noted behind it
(`prefix_step`).
-/

namespace GameHall

/-- Whether a deed is done beside the turns of a worker. -/
def Deed.isAside : Deed → Bool
  | .run _ | .clear | .call .signal _ _ | .call .farewell _ _ => false
  | _ => true

/-- Whether a deed is done when calls of the engine are served. -/
def Deed.isService : Deed → Bool
  | .log _ _ | .post _ | .arm _ _ | .disarm _ _ => true
  | _ => false

theorem isAside_of_isService {d : Deed} (h : d.isService = true) : d.isAside = true := by
  cases d with
  | run s => cases h
  | call cause c taken => cases h
  | clear => cases h
  | _ => rfl

namespace Worker

/-- What has been done, in order. -/
abbrev Deeds := List (Moment × Deed)

variable {w w' w'' : Worker} {now : Moment}

/-! ## Beside the turns -/

/-- What a task of a worker leaves as it is. -/
structure Aside (w w' : Worker) : Prop where
  phase : w'.phase = w.phase
  signals : w'.signals = w.signals
  quitting : w'.quitting = w.quitting
  failed : w'.failed = w.failed
  /-- What is done is noted behind all that was done before. -/
  deeds : ∃ added, w'.deeds = w.deeds ++ added ∧ ∀ d ∈ added, d.2.isAside = true

theorem aside_refl (w : Worker) : Aside w w :=
  ⟨rfl, rfl, rfl, rfl, [], (List.append_nil _).symm, fun _ hd => absurd hd List.not_mem_nil⟩

theorem aside_trans (h : Aside w w') (h' : Aside w' w'') : Aside w w'' where
  phase := h'.phase.trans h.phase
  signals := h'.signals.trans h.signals
  quitting := h'.quitting.trans h.quitting
  failed := h'.failed.trans h.failed
  deeds := by
    obtain ⟨first, hfirst, hfirstAside⟩ := h.deeds
    obtain ⟨second, hsecond, hsecondAside⟩ := h'.deeds
    refine ⟨first ++ second, by rw [hsecond, hfirst, List.append_assoc], fun d hd => ?_⟩
    exact (List.mem_append.mp hd).elim (hfirstAside d) (hsecondAside d)

/-- A deed is noted that is done beside the turns, and neither queue nor phase are changed. -/
theorem aside_noted {d : Deed} (hd : d.isAside = true) (hdeeds : w'.deeds = w.deeds ++ [(now, d)])
    (hphase : w'.phase = w.phase) (hsignals : w'.signals = w.signals)
    (hquitting : w'.quitting = w.quitting) (hfailed : w'.failed = w.failed) : Aside w w' := by
  refine ⟨hphase, hsignals, hquitting, hfailed, [(now, d)], hdeeds, fun e he => ?_⟩
  rw [List.mem_singleton.mp he]
  exact hd

theorem aside_endpoint (endpoint : Endpoint) : Aside w { w with endpoint := endpoint } :=
  { aside_refl w with }

theorem aside_wakeUp (now : Moment) (key : TimerKey) (c : EngineCall) :
    Aside w (w.call now (.timer key) c) := by
  unfold call
  split
  · split
    · exact aside_noted (d := .call (.timer key) c true) rfl rfl rfl rfl rfl rfl
    · exact aside_noted (d := .call (.timer key) c false) rfl rfl rfl rfl rfl rfl
  · exact aside_refl w

/-- A timer that fires makes its call beside the turns. -/
theorem aside_ring (now : Moment) (task : Nat) : Aside w (w.ring now task) := by
  unfold ring
  split
  · rename_i t _
    split
    · have hring : Aside w ({ w with timers := w.timers.wake task t.key }.note now (.ring t.key)) :=
        aside_noted (d := .ring t.key) rfl rfl rfl rfl rfl rfl
      exact aside_trans hring (aside_wakeUp now t.key _)
    · exact aside_refl w
  · exact aside_refl w

/-- To serve calls changes timers and errands, and deeds are noted of the service. -/
theorem obey_eq (w : Worker) (now : Moment) (ticket : Nat) (c : HostCall) :
    ∃ timers errands added, w.obey now ticket c
        = { w with timers := timers, errands := errands, deeds := w.deeds ++ added }
      ∧ ∀ d ∈ added, d.2.isService = true := by
  have hnone : ∀ d ∈ ([] : Deeds), d.2.isService = true := fun _ hd => absurd hd List.not_mem_nil
  have hone : ∀ {d : Deed}, d.isService = true → ∀ e ∈ [(now, d)], e.2.isService = true := by
    intro d hd e he
    rw [List.mem_singleton.mp he]
    exact hd
  cases c with
  | log level text => exact ⟨_, _, _, rfl, hone rfl⟩
  | delay room wait => exact ⟨_, _, _, rfl, hone (d := .arm (.delay, room) wait) rfl⟩
  | setRequestTimer room wait => exact ⟨_, _, _, rfl, hone (d := .arm (.request, room) wait) rfl⟩
  | destroyRequestTimer room =>
      exact ⟨_, _, _, rfl, hone (d := .disarm (.request, room) (w.timers.disarm _).1) rfl⟩
  | waitForReply connection wait => exact ⟨_, _, [], by rw [List.append_nil]; rfl, hnone⟩
  | isThinking connection => exact ⟨_, _, [], by rw [List.append_nil]; rfl, hnone⟩
  | gameOver room => exact ⟨_, _, [], by rw [List.append_nil]; rfl, hnone⟩
  | notify connection command payload => exact ⟨_, _, _, rfl, hone rfl⟩
  | request connection command payload timeout timestamp => exact ⟨_, _, _, rfl, hone rfl⟩
  | setThinking connection value => exact ⟨_, _, _, rfl, hone rfl⟩
  | setDied connection value => exact ⟨_, _, _, rfl, hone rfl⟩
  | kick connection => exact ⟨_, _, _, rfl, hone rfl⟩
  | ban connection => exact ⟨_, _, _, rfl, hone rfl⟩

theorem serve_eq (w : Worker) (now : Moment) (entry : Nat × Packet.Call) :
    ∃ timers errands added, w.serve now entry
        = { w with timers := timers, errands := errands, deeds := w.deeds ++ added }
      ∧ ∀ d ∈ added, d.2.isService = true := by
  unfold serve
  split
  · exact ⟨_, _, [], by rw [List.append_nil], fun _ hd => absurd hd List.not_mem_nil⟩
  · exact ⟨_, _, [], by rw [List.append_nil]; rfl, fun _ hd => absurd hd List.not_mem_nil⟩
  · exact obey_eq w now _ _

theorem serveAll_eq (w : Worker) (now : Moment) (entries : Assoc Nat Packet.Call) :
    ∃ timers errands added, entries.foldl (serve now) w
        = { w with timers := timers, errands := errands, deeds := w.deeds ++ added }
      ∧ ∀ d ∈ added, d.2.isService = true := by
  induction entries generalizing w with
  | nil => exact ⟨_, _, [], by rw [List.append_nil]; rfl, fun _ hd => absurd hd List.not_mem_nil⟩
  | cons entry entries ih =>
      obtain ⟨timers, errands, first, hfirst, hservice⟩ := serve_eq w now entry
      obtain ⟨timers', errands', second, hsecond, hservice'⟩ := ih (w.serve now entry)
      refine ⟨timers', errands', first ++ second, ?_, fun d hd => ?_⟩
      · rw [List.foldl_cons, hsecond, hfirst, List.append_assoc]
      · exact (List.mem_append.mp hd).elim (hservice d) (hservice' d)

/-- Octets that arrive change the endpoint, and calls in them are served. -/
theorem receive_eq (w : Worker) (now : Moment) (chunk : Octets) :
    ∃ timers errands added, w.receive now chunk = { w with
        endpoint := w.endpoint.receive HostCall.known chunk
        timers := timers
        errands := errands
        deeds := w.deeds ++ (now, .read chunk) :: added }
      ∧ ∀ d ∈ added, d.2.isService = true := by
  obtain ⟨timers, errands, added, heq, hadded⟩ := serveAll_eq
    ({ w with endpoint := w.endpoint.receive HostCall.known chunk }.note now (.read chunk)) now
    (w.endpoint.arrivedSince (w.endpoint.receive HostCall.known chunk))
  refine ⟨timers, errands, added, heq.trans ?_, hadded⟩
  simp [note]

/-- Octets that arrive are read by a task of its own. -/
theorem aside_receive (now : Moment) (chunk : Octets) : Aside w (w.receive now chunk) := by
  obtain ⟨timers, errands, added, heq, hadded⟩ := receive_eq w now chunk
  rw [heq]
  refine ⟨rfl, rfl, rfl, rfl, (now, .read chunk) :: added, rfl, fun d hd => ?_⟩
  rcases List.mem_cons.mp hd with rfl | hservice
  · rfl
  · exact isAside_of_isService (hadded d hservice)

theorem aside_runErrand (now : Moment) (ticket : Nat) : Aside w (w.runErrand now ticket) := by
  unfold runErrand
  dsimp only
  split
  · exact { aside_refl w with }
  · rename_i c _
    exact aside_noted (d := .post (.question ticket c)) rfl rfl rfl rfl rfl rfl
  · exact aside_refl w

/-! ## Events -/

/-- What an event does to a worker. -/
inductive Stepped (w : Worker) (now : Moment) : Event → Prop where
  /-- It has come at a time when it does nothing. -/
  | nothing {e : Event} (h : w.step (now, e) = w) : Stepped w now e
  | start (rest : Octets) (hphase : w.phase = .starting)
      (h : w.step (now, .start rest) = { w with phase := .running }.receive now rest) :
      Stepped w now (.start rest)
  | failStart (hphase : w.phase = .starting)
      (h : w.step (now, .failStart) = { w with phase := .stopped, failed := true, signals := [] }) :
      Stepped w now .failStart
  | emit (s : Signal) (halive : w.isAlive = true) (hup : w.phase ≠ .stopped)
      (h : w.step (now, .emit s) = { w with signals := w.signals ++ [s] }) : Stepped w now (.emit s)
  | quit (h : w.step (now, .quit) = { w with quitting := true }) : Stepped w now .quit
  | giveUp (h : w.step (now, .giveUp) = { w with failed := true }) : Stepped w now .giveUp
  | turn (h : w.step (now, .turn) = w.turn now) : Stepped w now .turn
  | receive (chunk : Octets) (hyields : w.yields = true)
      (h : w.step (now, .receive chunk) = w.receive now chunk) : Stepped w now (.receive chunk)
  | endOfOutput (hyields : w.yields = true)
      (h : w.step (now, .endOfOutput) = { w with endpoint := w.endpoint.endOfInput }) :
      Stepped w now .endOfOutput
  | errand (ticket : Nat) (hyields : w.yields = true)
      (h : w.step (now, .errand ticket) = w.runErrand now ticket) : Stepped w now (.errand ticket)
  | answer (ticket : Nat) (result : Except String Packet.Value) (hyields : w.yields = true)
      (h : w.step (now, .answer ticket result)
        = { w with endpoint := w.endpoint.finish ticket result }) :
      Stepped w now (.answer ticket result)
  | ring (task : Nat) (hyields : w.yields = true) (h : w.step (now, .ring task) = w.ring now task) :
      Stepped w now (.ring task)
  | write (h : w.step (now, .write) = { w with endpoint := w.endpoint.writeNext }) :
      Stepped w now .write
  | failWriting (h : w.step (now, .failWriting) = { w with endpoint := w.endpoint.failWriting }) :
      Stepped w now .failWriting

/-- A signal is queued unless the engine is down. -/
theorem emit_cases (w : Worker) (s : Signal) :
    w.isAlive = true ∧ w.phase ≠ .stopped ∧ w.emit s = { w with signals := w.signals ++ [s] }
    ∨ (w.isAlive = true → w.phase = .stopped) ∧ w.emit s = w := by
  by_cases halive : w.isAlive = true
  · have hsignal : w.emit s = w.signal s := if_pos halive
    by_cases hstopped : w.phase = .stopped
    · exact Or.inr ⟨fun _ => hstopped, hsignal.trans (if_pos hstopped)⟩
    · exact Or.inl ⟨halive, hstopped, hsignal.trans (if_neg hstopped)⟩
  · exact Or.inr ⟨fun h => absurd h halive, if_neg halive⟩

/-- **What an event does.** One that comes at the wrong time does nothing, and this is one case for all. -/
theorem step_cases (w : Worker) (now : Moment) (e : Event) : Stepped w now e := by
  cases e with
  | start rest =>
      by_cases hphase : w.phase = .starting
      · exact .start rest hphase (if_pos hphase)
      · exact .nothing (if_neg hphase)
  | failStart =>
      by_cases hphase : w.phase = .starting
      · exact .failStart hphase (if_pos hphase)
      · exact .nothing (if_neg hphase)
  | emit s =>
      rcases emit_cases w s with ⟨halive, hup, h⟩ | ⟨_, h⟩
      · exact .emit s halive hup h
      · exact .nothing h
  | quit => exact .quit rfl
  | giveUp => exact .giveUp rfl
  | turn => exact .turn rfl
  | write => exact .write rfl
  | failWriting => exact .failWriting rfl
  | receive chunk =>
      by_cases hyields : w.yields = true
      · exact .receive chunk hyields (if_pos hyields)
      · exact .nothing (if_neg hyields)
  | endOfOutput =>
      by_cases hyields : w.yields = true
      · exact .endOfOutput hyields (if_pos hyields)
      · exact .nothing (if_neg hyields)
  | errand ticket =>
      by_cases hyields : w.yields = true
      · exact .errand ticket hyields (if_pos hyields)
      · exact .nothing (if_neg hyields)
  | answer ticket result =>
      by_cases hyields : w.yields = true
      · exact .answer ticket result hyields (if_pos hyields)
      · exact .nothing (if_neg hyields)
  | ring task =>
      by_cases hyields : w.yields = true
      · exact .ring task hyields (if_pos hyields)
      · exact .nothing (if_neg hyields)

/-- Whether an event is something that a task of the worker does. -/
def Event.isTask : Event → Bool
  | receive _ | endOfOutput | errand _ | answer _ _ | ring _ | write | failWriting => true
  | _ => false

/-- **A task leaves the queue and the phase alone.** -/
theorem aside_step {e : Event} (he : e.isTask = true) : Aside w (w.step (now, e)) := by
  cases step_cases w now e with
  | nothing h =>
      rw [h]
      exact aside_refl w
  | receive chunk _ h =>
      rw [h]
      exact aside_receive now chunk
  | errand ticket _ h =>
      rw [h]
      exact aside_runErrand now ticket
  | ring task _ h =>
      rw [h]
      exact aside_ring now task
  | endOfOutput _ h | answer _ _ _ h | write h | failWriting h =>
      rw [h]
      exact aside_endpoint _
  | _ => cases he

/-! ## Signals -/

theorem runSignal_of_call {s : Signal} {c : EngineCall} (h : s.call? = some c) :
    w.runSignal now s = w.call now .signal c := by
  cases s with
  | arm kind room wait => cases h
  | disarm kind room => cases h
  | _ =>
      cases h
      rfl

/-- A signal that is no call does something to a timer. -/
theorem runSignal_of_none (w : Worker) (now : Moment) {s : Signal} (h : s.call? = none) : ∃ timers d,
    w.runSignal now s = { w with timers := timers, deeds := w.deeds ++ [(now, d)] }
      ∧ d.isService = true := by
  cases s with
  | arm kind room wait => exact ⟨_, .arm (kind, room) wait, rfl, rfl⟩
  | disarm kind room => exact ⟨_, .disarm (kind, room) (w.timers.disarm _).1, rfl, rfl⟩
  | _ => cases h

/-! ## Turns -/

/-- What a worker does in a turn. -/
inductive Turned (w : Worker) (now : Moment) : Prop where
  | nothing (h : w.turn now = w)
  | drain (hphase : w.phase = .running) (hquitting : w.quitting = true)
      (h : w.turn now = { w with phase := .draining })
  /-- It finds that it has lost its engine. -/
  | report (hphase : w.phase = .running) (hlost : w.endpoint.lost = true)
      (h : w.turn now = { w with reported := true, failed := true })
  | take (s : Signal) (rest : List Signal) (hphase : w.phase = .running ∨ w.phase = .draining)
      (hsignals : w.signals = s :: rest) (h : w.turn now = w.takeSignal now s rest)
  | leave (hphase : w.phase = .draining) (hsignals : w.signals = []) (h : w.turn now = w.leave now)
  | stop (hphase : w.phase = .closing)
      (h : w.turn now = { w with phase := .stopped, signals := [], endpoint := w.endpoint.close })

/-- **What a turn does.** It depends on the phase, on the queue and on whether the engine has been lost. -/
theorem turn_cases (w : Worker) (now : Moment) : Turned w now := by
  cases hphase : w.phase with
  | starting => exact .nothing (by rw [turn, hphase])
  | stopped => exact .nothing (by rw [turn, hphase])
  | closing => exact .stop hphase (by rw [turn, hphase])
  | draining =>
      cases hsignals : w.signals with
      | nil => exact .leave hphase hsignals (by rw [turn, hphase]; dsimp only; rw [hsignals])
      | cons s rest =>
          exact .take s rest (Or.inr hphase) hsignals
            (by rw [turn, hphase]; dsimp only; rw [hsignals])
  | running =>
      by_cases hquitting : w.quitting = true
      · exact .drain hphase hquitting (by rw [turn, hphase]; dsimp only; rw [if_pos hquitting])
      by_cases hlost : (w.endpoint.lost && !w.reported) = true
      · refine .report hphase (Bool.and_eq_true_iff.mp hlost).1 ?_
        rw [turn, hphase]
        dsimp only
        rw [if_neg hquitting, if_pos hlost]
      cases hsignals : w.signals with
      | nil =>
          refine .nothing ?_
          rw [turn, hphase]
          dsimp only
          rw [if_neg hquitting, if_neg hlost, hsignals]
      | cons s rest =>
          refine .take s rest (Or.inl hphase) hsignals ?_
          rw [turn, hphase]
          dsimp only
          rw [if_neg hquitting, if_neg hlost, hsignals]

/-! ## What has been done stays noted -/

theorem prefix_of_aside (h : Aside w w') : w.deeds <+: w'.deeds := by
  obtain ⟨added, hadded, _⟩ := h.deeds
  exact ⟨added, hadded.symm⟩

theorem prefix_call (w : Worker) (now : Moment) (cause : Cause) (c : EngineCall) :
    w.deeds <+: (w.call now cause c).deeds := by
  unfold call
  split
  · split <;> exact List.prefix_append _ _
  · exact List.prefix_rfl

theorem prefix_runSignal (w : Worker) (now : Moment) (s : Signal) :
    w.deeds <+: (w.runSignal now s).deeds := by
  cases s with
  | arm kind room wait => exact List.prefix_append _ _
  | disarm kind room => exact List.prefix_append _ _
  | _ => exact prefix_call w now .signal _

theorem prefix_turn (w : Worker) (now : Moment) : w.deeds <+: (w.turn now).deeds := by
  cases turn_cases w now with
  | nothing h => rw [h]
  | drain _ _ h => rw [h]
  | report _ _ h => rw [h]
  | take s rest _ _ h =>
      rw [h]
      exact (List.prefix_append _ _).trans
        (prefix_runSignal ({ w with signals := rest }.note now (.run s)) now s)
  | leave _ _ h =>
      rw [h]
      exact (List.prefix_append _ _).trans
        (prefix_call ({ w with timers := w.timers.clear }.note now .clear) now .farewell _)
  | stop _ h => rw [h]

/-- No event takes back what has been done. -/
theorem prefix_step (w : Worker) (now : Moment) (e : Event) :
    w.deeds <+: (w.step (now, e)).deeds := by
  by_cases he : e.isTask = true
  · exact prefix_of_aside (aside_step he)
  cases step_cases w now e with
  | nothing h | failStart _ h | emit _ _ _ h | quit h | giveUp h => rw [h]
  | start rest _ h =>
      rw [h]
      exact prefix_of_aside (w := { w with phase := .running }) (aside_receive now rest)
  | turn h =>
      rw [h]
      exact prefix_turn w now
  | _ => exact absurd rfl he

theorem play_append (w : Worker) (past later : History) :
    w.play (past ++ later) = (w.play past).play later := List.foldl_append

end Worker

end GameHall
