import GameHall.Proofs.Scheduler.Alarms
import GameHall.Proofs.Scheduler.Outgoing

/-!
# Signals that are given, and what is said for them

A history has the signals that the main loop has given, those it gave while it was not done with the engine
(`firm`) and those it gave later (`loose`). The deeds of a worker have the signals that were taken (`ran`)
and the calls that were made, those of timers apart (`called`).

The tasks of a worker take no signals and make no calls but those of timers (`made_task`), and none of them
brings back an engine that is lost (`lost_task`).
-/

namespace GameHall

/-- Whether a call is made because a timer has fired. -/
def Cause.isAlarm : Cause → Bool
  | .timer _ => true
  | _ => false

/-- The signal that is taken. -/
def Deed.ran? : Deed → Option Signal
  | .run s => some s
  | _ => none

namespace Worker

/-- The signal that is given. -/
def Event.signal? : Event → Option Signal
  | emit s => some s
  | _ => none

/-- Whether the main loop is done with the engine: it asks the worker to quit, or has waited for the
engine long enough. -/
def Event.isStop : Event → Bool
  | quit | giveUp => true
  | _ => false

/-! ## Signals that are given -/

section histories

variable {events past later : History} {e : Moment × Event}

/-- The signals that the main loop has given, in order. -/
def emitted (events : History) : List Signal := events.filterMap fun e => e.2.signal?

/-- Those that were given while it was not done with the engine. -/
def firm (events : History) : List Signal := emitted (events.takeWhile fun e => !e.2.isStop)

/-- Those that were given later. -/
def loose (events : History) : List Signal := emitted (events.dropWhile fun e => !e.2.isStop)

/-- The main loop is done with the engine. -/
def Halted (events : History) : Prop := ∃ e ∈ events, e.2.isStop = true

theorem emitted_append (past later : History) :
    emitted (past ++ later) = emitted past ++ emitted later := List.filterMap_append

/-- Every signal is given before the main loop is done with the engine, or later. -/
theorem firm_append_loose (events : History) : firm events ++ loose events = emitted events := by
  rw [firm, loose, ← emitted_append, List.takeWhile_append_dropWhile]

theorem emitted_concat_of_none (he : e.2.signal? = none) :
    emitted (events ++ [e]) = emitted events := by
  have hnone : emitted [e] = [] :=
    List.filterMap_cons_none (f := fun e : Moment × Event => e.2.signal?) he
  rw [emitted_append, hnone, List.append_nil]

/-- What is given when the main loop is done with the engine is not firm. -/
theorem firm_append_of_halted (h : Halted past) (later : History) :
    firm (past ++ later) = firm past := by
  obtain ⟨e, he, hstop⟩ := h
  have hshort : ¬ (past.takeWhile fun e => !e.2.isStop).length = past.length := by
    intro hall
    have hself := (List.takeWhile_prefix fun e : Moment × Event => !e.2.isStop).eq_of_length hall
    have hgoing := List.all_eq_true.mp (List.all_takeWhile (p := fun e : Moment × Event => !e.2.isStop)
      (l := past)) e (hself.symm ▸ he)
    rw [hstop] at hgoing
    cases hgoing
  rw [firm, List.takeWhile_append, if_neg hshort]
  rfl

/-- As long as it is not done, all that is given is firm. -/
theorem firm_append_of_not_halted (h : ¬ Halted past) (later : History) :
    firm (past ++ later) = emitted past ++ firm later := by
  have hgoing : ∀ e ∈ past, (!e.2.isStop) = true := by
    intro e he
    rw [Bool.not_eq_true']
    exact Bool.eq_false_iff.mpr fun hstop => h ⟨e, he, hstop⟩
  rw [firm, List.takeWhile_append_of_pos hgoing, emitted_append]
  rfl

theorem firm_of_not_halted (h : ¬ Halted events) : firm events = emitted events := by
  have hfirm := firm_append_of_not_halted h []
  rw [List.append_nil] at hfirm
  rw [hfirm]
  exact List.append_nil _

theorem firm_concat_of_none (he : e.2.signal? = none) : firm (events ++ [e]) = firm events := by
  by_cases h : Halted events
  · exact firm_append_of_halted h [e]
  · have hnone : firm [e] = [] := by
      rw [firm, List.takeWhile_cons]
      split
      · exact List.filterMap_cons_none (f := fun e : Moment × Event => e.2.signal?) he
      · rfl
    rw [firm_append_of_not_halted h, hnone, List.append_nil, firm_of_not_halted h]

theorem halted_append (h : Halted past) (later : History) : Halted (past ++ later) := by
  obtain ⟨e, he, hstop⟩ := h
  exact ⟨e, List.mem_append_left _ he, hstop⟩

/-- The engine was not lost before it was told goodbye. -/
def Sound (events : History) : Prop :=
  ∀ past later, events = past ++ later → (new.play past).reaches = true →
    (new.play past).endpoint.lost = false

/-- An engine that is sound in the end has been so before. -/
theorem sound_of_append (h : Sound (past ++ later)) : Sound past :=
  fun first second heq => h first (second ++ later) (by rw [heq, List.append_assoc])

theorem sound_concat (h : Sound events) (he : (new.play (events ++ [e])).reaches = true →
    (new.play (events ++ [e])).endpoint.lost = false) : Sound (events ++ [e]) := by
  intro past later heq hreaches
  rcases List.eq_nil_or_concat later with rfl | ⟨later', d, rfl⟩
  · rw [List.append_nil] at heq
    rw [← heq] at hreaches ⊢
    exact he hreaches
  · rw [List.concat_eq_append, ← List.append_assoc] at heq
    exact h past later' (List.append_inj' heq rfl).1 hreaches

end histories

/-! ## What is taken and what is said -/

variable {w : Worker} {now : Moment} {torn : Prop}

/-- The signals that were taken, in order. -/
def ran (deeds : Deeds) : List Signal := deeds.filterMap fun d => d.2.ran?

/-- The calls that went out, in order, but for those of timers. -/
def called (deeds : Deeds) : List (Cause × EngineCall) := (made deeds).filter fun m => !m.1.isAlarm

/-- The calls of signals. -/
def callsOf (signals : List Signal) : List (Cause × EngineCall) :=
  (signals.filterMap Signal.call?).map fun c => (.signal, c)

/-- The goodbye of a worker that has left. -/
def goodbye (deeds : Deeds) : List (Cause × EngineCall) :=
  if deeds.any fun d => decide (d.2 = .clear) then [(.farewell, EngineCall.bye)] else []

theorem ran_append (deeds deeds' : Deeds) : ran (deeds ++ deeds') = ran deeds ++ ran deeds' :=
  List.filterMap_append

theorem callsOf_append (signals signals' : List Signal) :
    callsOf (signals ++ signals') = callsOf signals ++ callsOf signals' := by
  rw [callsOf, List.filterMap_append, List.map_append]
  rfl

theorem callsOf_of_some {s : Signal} {c : EngineCall} (h : s.call? = some c) :
    callsOf [s] = [(.signal, c)] := by
  rw [callsOf, List.filterMap_cons_some h]
  rfl

/-- A signal about a timer is no call. -/
theorem callsOf_of_none {s : Signal} (h : s.call? = none) : callsOf [s] = [] := by
  rw [callsOf, List.filterMap_cons_none h]
  rfl

theorem goodbye_eq_nil {deeds : Deeds} (h : ∀ d ∈ deeds, d.2 ≠ .clear) : goodbye deeds = [] := by
  rw [goodbye, if_neg]
  rw [List.any_eq_true]
  rintro ⟨d, hd, hclear⟩
  exact h d hd (of_decide_eq_true hclear)

theorem goodbye_of_mem {deeds : Deeds} (h : ∃ d ∈ deeds, d.2 = .clear) :
    goodbye deeds = [(.farewell, EngineCall.bye)] := by
  obtain ⟨d, hd, hclear⟩ := h
  rw [goodbye, if_pos]
  exact List.any_eq_true.mpr ⟨d, hd, decide_eq_true hclear⟩

/-- The goodbye comes with the dropping of the timers, and from nothing else. -/
theorem goodbye_append (deeds : Deeds) {added : Deeds} (h : ∀ d ∈ added, d.2 ≠ .clear) :
    goodbye (deeds ++ added) = goodbye deeds := by
  have hnone : (added.any fun d => decide (d.2 = .clear)) = false := by
    rw [List.any_eq_false]
    exact fun d hd hclear => h d hd (of_decide_eq_true hclear)
  rw [goodbye, goodbye, List.any_append, hnone, Bool.or_false]

/-- What tasks do takes no signal. -/
theorem ran_of_aside {added : Deeds} (h : ∀ d ∈ added, d.2.isAside = true) : ran added = [] := by
  refine List.filterMap_eq_nil_iff.mpr fun d hd => ?_
  have haside := h d hd
  cases hdeed : d.2 with
  | run s =>
      rw [hdeed] at haside
      cases haside
  | _ => rfl

theorem ne_clear_of_aside {added : Deeds} (h : ∀ d ∈ added, d.2.isAside = true) :
    ∀ d ∈ added, d.2 ≠ .clear := by
  intro d hd hclear
  have haside := h d hd
  rw [hclear] at haside
  cases haside

/-- A task that reads serves calls, and makes none. -/
theorem made_receive (w : Worker) (now : Moment) (chunk : Octets) :
    made (w.receive now chunk).deeds = made w.deeds := by
  obtain ⟨timers, errands, added, heq, hservice⟩ := receive_eq w now chunk
  have hnone : made ((now, .read chunk) :: added) = made added := List.filterMap_cons_none rfl
  rw [heq, made_append, hnone, made_of_service hservice, List.append_nil]

/-- A timer that fires makes a call if the engine can be called. -/
theorem made_ring (w : Worker) (now : Moment) (task : Nat) :
    made (w.ring now task).deeds = made w.deeds ∨ w.reaches = true ∧ ∃ key c,
      made (w.ring now task).deeds = made w.deeds ++ [(.timer key, c)] := by
  unfold ring
  split
  case h_2 => exact Or.inl rfl
  rename_i t _
  split
  case isFalse => exact Or.inl rfl
  have hring : made (w.deeds ++ [(now, .ring t.key)]) = made w.deeds := made_concat_of_none _ rfl
  rcases call_cases ({ w with timers := w.timers.wake task t.key }.note now (.ring t.key)) now
    (.timer t.key) (EngineCall.wake t.key.2 t.key.1.reason) with
    ⟨_, heq⟩ | ⟨hreaches, _, _, heq⟩ | ⟨_, _, heq⟩
  · rw [heq]
    exact Or.inl hring
  · rw [heq]
    refine Or.inr ⟨hreaches, t.key, EngineCall.wake t.key.2 t.key.1.reason,
      (made_append _ _).trans ?_⟩
    rw [← hring]
    rfl
  · rw [heq]
    exact Or.inl ((made_concat_of_none _ rfl).trans hring)

theorem made_runErrand (w : Worker) (now : Moment) (ticket : Nat) :
    made (w.runErrand now ticket).deeds = made w.deeds := by
  unfold runErrand
  dsimp only
  split
  · rfl
  · exact made_concat_of_none _ rfl
  · rfl

/-- A task makes a call only if its timer fires while the engine can be called. -/
theorem made_task {e : Event} (he : e.isTask = true) :
    made (w.step (now, e)).deeds = made w.deeds ∨ w.reaches = true ∧ ∃ key c,
      made (w.step (now, e)).deeds = made w.deeds ++ [(.timer key, c)] := by
  cases step_cases w now e with
  | nothing heq | endOfOutput _ heq | answer _ _ _ heq | write heq | failWriting heq =>
      rw [heq]
      exact Or.inl rfl
  | receive chunk _ heq =>
      rw [heq]
      exact Or.inl (made_receive w now chunk)
  | errand ticket _ heq =>
      rw [heq]
      exact Or.inl (made_runErrand w now ticket)
  | ring task _ heq =>
      rw [heq]
      exact made_ring w now task
  | _ => cases he

theorem lost_call (cause : Cause) (c : EngineCall) :
    (w.call now cause c).endpoint.lost = w.endpoint.lost := by
  rcases call_cases w now cause c with ⟨_, heq⟩ | ⟨_, _, _, heq⟩ | ⟨_, _, heq⟩
  all_goals rw [heq]
  all_goals rfl

theorem lost_receive (now : Moment) (chunk : Octets) (h : w.endpoint.lost = true) :
    (w.receive now chunk).endpoint.lost = true := by
  obtain ⟨timers, errands, added, heq, _⟩ := receive_eq w now chunk
  rw [heq]
  exact (Endpoint.replies_receive _ w.endpoint chunk).lost h

theorem lost_runErrand (now : Moment) (ticket : Nat) (h : w.endpoint.lost = true) :
    (w.runErrand now ticket).endpoint.lost = true := by
  unfold runErrand
  dsimp only
  split
  · exact (Endpoint.replies_finish w.endpoint ticket _).lost h
  · exact h
  · exact h

theorem lost_ring (now : Moment) (task : Nat) :
    (w.ring now task).endpoint.lost = w.endpoint.lost := by
  unfold ring
  split
  · split
    · exact lost_call _ _
    · rfl
  · rfl

/-- An engine that is lost stays lost. -/
theorem lost_task {e : Event} (he : e.isTask = true) (h : w.endpoint.lost = true) :
    (w.step (now, e)).endpoint.lost = true := by
  -- once lost, an engine is not found again: no task sets the mark back
  cases step_cases w now e with
  | nothing heq => rwa [heq]
  | receive chunk _ heq =>
      rw [heq]
      exact lost_receive now chunk h
  | endOfOutput _ heq =>
      rw [heq]
      exact (Endpoint.replies_endOfInput w.endpoint).lost h
  | errand ticket _ heq =>
      rw [heq]
      exact lost_runErrand now ticket h
  | answer ticket result _ heq =>
      rw [heq]
      exact (Endpoint.replies_finish w.endpoint ticket result).lost h
  | ring task _ heq =>
      rw [heq, lost_ring]
      exact h
  | write heq =>
      rw [heq]
      unfold Endpoint.writeNext
      split
      · exact h
      · split
        · exact h
        · rfl
  | failWriting heq =>
      rw [heq]
      unfold Endpoint.failWriting
      split
      · exact h
      · rfl
  | _ => cases he

end Worker

end GameHall
