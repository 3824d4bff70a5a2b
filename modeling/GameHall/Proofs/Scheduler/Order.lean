import GameHall.Proofs.Scheduler.Turning

/-!
# Signals are taken in the order in which they are given

The signals that a worker has taken and those that wait are the first ones that it was given, and all of
them while its engine is up. The calls that it makes, besides those of timers that fire, are the calls of
the signals it has taken, and goodbye when it leaves. No event changes that (`Ordered.step`,
`ordered_play`).
-/

namespace GameHall

namespace Worker

variable {w : Worker} {now : Moment} {torn : Prop} {events : History} {e : Moment × Event}
  {R : Moment → Moment → Prop}

/-! ## What is not a turn -/

/-- An engine that greets when the worker waits for it. -/
theorem calm_start (hphase : w.phase = .starting) (now : Moment) (rest : Octets) :
    Calm w (w.step (now, .start rest)) ∧ (w.step (now, .start rest)).phase = .running
      ∧ (w.step (now, .start rest)).quitting = w.quitting
      ∧ (w.step (now, .start rest)).failed = w.failed := by
  obtain ⟨timers, errands, added, hreceive, hservice⟩ :=
    receive_eq { w with phase := .running } now rest
  have heq : w.step (now, .start rest) = _ := (if_pos hphase).trans hreceive
  rw [heq]
  refine ⟨?_, rfl, rfl, rfl⟩
  exact {
    up := by simp [isUp, hphase]
    stopped := fun hstopped => nomatch hphase.symm.trans hstopped
    waiting := by simp [waiting, isUp, hphase]
    deeds := by
      refine ⟨(now, .read rest) :: added, rfl, fun d hd => ?_⟩
      rcases List.mem_cons.mp hd with rfl | hd
      · rfl
      · exact isAside_of_isService (hservice d hd)
    made := by
      have hnone : made ((now, .read rest) :: added) = made added := List.filterMap_cons_none rfl
      left
      rw [made_append, hnone, made_of_service hservice, List.append_nil]
    lost := (Endpoint.replies_receive _ w.endpoint rest).lost
    fresh := fun hstarting => nomatch hstarting }

/-- What changes no more than what the main loop thinks of the engine. -/
theorem Ordered.think (h : Ordered events w) (ht : Timely R w) (hp : Piped torn w)
    (hp' : Piped torn (w.step e)) (hw : new.play events = w) (hsignal : e.2.signal? = none)
    (quitting failed : Bool) (heq : w.step e = { w with quitting := quitting, failed := failed })
    (hquitting : quitting = true → w.quitting = true ∨ e.2.isStop = true)
    (hfailed : failed = true → w.failed = true ∨ e.2.isStop = true)
    (hfails : w.failed = true → failed = true) : Ordered (events ++ [e]) (w.step e) := by
  have hcalm : Calm w (w.step e) := by
    rw [heq]
    exact calm_same rfl id rfl rfl rfl fun hstarting => ⟨hstarting, rfl⟩
  refine h.calm ht hp hp' hw hsignal hcalm ?_ ?_ ?_
  · rw [heq]
    rintro (hquit | hdraining)
    · exact (hquitting hquit).imp_right Or.inr
    · exact Or.inr (Or.inl hdraining)
  · rw [heq]
    exact fun hfail => (hfailed hfail).imp_right Or.inl
  · rw [heq]
    exact hfails

theorem Ordered.failStart (h : Ordered events w) (hphase : w.phase = .starting) :
    Ordered (events ++ [(now, .failStart)]) (w.step (now, .failStart)) := by
  have heq : w.step (now, .failStart) = { w with phase := .stopped, failed := true, signals := [] } :=
    if_pos hphase
  have hdeeds := (h.fresh hphase).1
  rw [heq]
  exact {
    fresh := fun hstarting => nomatch hstarting
    queue := by
      show ran w.deeds ++ [] <+: _
      rw [hdeeds]
      exact List.nil_prefix
    whole := fun hup => nomatch hup
    firm := by
      intro _ hleft
      obtain ⟨d, hd, _⟩ := hleft rfl
      have hd : d ∈ w.deeds := hd
      rw [hdeeds] at hd
      cases hd
    halted := by
      rintro (hquit | hdraining | hleft)
      · exact halted_append (h.halted (Or.inl hquit)) _
      · cases hdraining
      · exact halted_append (h.halted (Or.inr (Or.inr hleft))) _
    failed := fun hup => nomatch hup
    sound := fun hup => nomatch hup
    front := h.front
    said := fun hsound => h.said (sound_of_append hsound)
    last := by
      intro before m after hmade
      have hmade : made w.deeds = before ++ m :: after := hmade
      rw [hdeeds] at hmade
      exact absurd hmade (by simp [made]) }

/-- Until the main loop is done with the engine the worker is up, and so is its engine if it is not
lost. -/
theorem up_of_not_halted (h : Ordered events w) (ht : Timely R w) (hp : Piped torn w)
    (hw : new.play events = w) (hhalt : ¬ Halted events) (hsound : Sound events)
    (hleft : w.phase = .stopped → ∃ d ∈ w.deeds, d.2 = .clear) :
    w.isUp = true ∧ w.isAlive = true := by
  have hup : w.phase = .starting ∨ w.phase = .running := by
    cases hphase : w.phase with
    | starting => exact Or.inl rfl
    | running => exact Or.inr rfl
    | draining => exact absurd (h.halted (Or.inr (Or.inl hphase))) hhalt
    | closing => exact absurd (h.halted (Or.inr (Or.inr (ht.left hphase)))) hhalt
    | stopped => exact absurd (h.halted (Or.inr (Or.inr (hleft hphase)))) hhalt
  have hisUp : w.isUp = true := by
    rcases hup with hphase | hphase
    · simp [isUp, hphase]
    · simp [isUp, hphase]
  have hlost : w.endpoint.lost = false := by
    rcases hup with hphase | hphase
    · rw [(h.fresh hphase).2]
      rfl
    · have hsame := hsound events [] (List.append_nil _).symm (by rw [hw]; simp [reaches, hphase])
      rwa [hw] at hsame
  have hworks : w.failed = false := by
    rw [← Bool.not_eq_true]
    intro hfailed
    rcases h.failed hisUp hfailed with hhalt' | hlost'
    · exact hhalt hhalt'
    · cases hlost.symm.trans hlost'
  exact ⟨hisUp, (isAlive_of_up hp hisUp).mpr ⟨hworks, Or.inr hlost⟩⟩

/-- A signal is given, and waits behind the others if the engine is up. -/
theorem emit_eq (w : Worker) (s : Signal) :
    ∃ signals, w.emit s = { w with signals := signals }
      ∧ ({ w with signals := signals } : Worker).waiting
        = w.waiting ++ if w.isUp = true ∧ w.isAlive = true then [s] else [] := by
  rcases emit_cases w s with ⟨halive, hup, heq⟩ | ⟨hdown, heq⟩
  · refine ⟨w.signals ++ [s], heq, ?_⟩
    have hisUp : ({ w with signals := w.signals ++ [s] } : Worker).isUp = w.isUp := rfl
    rw [waiting, waiting, hisUp]
    cases w.isUp with
    | true => simp [halive]
    | false => simp
  · refine ⟨w.signals, heq, ?_⟩
    have hnone : ¬ (w.isUp = true ∧ w.isAlive = true) := by
      rintro ⟨hisUp, halive⟩
      rw [isUp, hdown halive] at hisUp
      cases hisUp
    rw [if_neg hnone, List.append_nil]

/-- A signal is given. One that is taken up waits behind the others, and none is refused while the
engine is up. -/
theorem Ordered.emit (h : Ordered events w) (ht : Timely R w) (hp : Piped torn w)
    (hw : new.play events = w) (s : Signal) :
    Ordered (events ++ [(now, .emit s)]) (w.step (now, .emit s)) := by
  have hemitted : emitted (events ++ [(now, .emit s)]) = emitted events ++ [s] :=
    emitted_append events [(now, .emit s)]
  obtain ⟨signals, hemit, hwaiting⟩ := emit_eq w s
  have heq : w.step (now, .emit s) = { w with signals := signals } := hemit
  have hqueue : ran w.deeds ++ ({ w with signals := signals } : Worker).waiting
      = ran w.deeds ++ w.waiting ++ if w.isUp = true ∧ w.isAlive = true then [s] else [] := by
    rw [hwaiting, List.append_assoc]
  rw [heq]
  exact {
    fresh := h.fresh
    queue := by
      show ran w.deeds ++ _ <+: _
      rw [hqueue, hemitted]
      split
      · rename_i hyes
        rw [h.whole hyes.1 hyes.2]
      · rw [List.append_nil]
        exact h.queue.trans (List.prefix_append _ _)
    whole := by
      intro hup halive
      have hup : w.isUp = true := hup
      have halive : w.isAlive = true := halive
      show ran w.deeds ++ _ = _
      rw [hqueue, hemitted, if_pos ⟨hup, halive⟩, h.whole hup halive]
    firm := by
      intro hsound hleft
      show Worker.firm _ <+: ran w.deeds ++ _
      rw [hqueue]
      -- after the main loop is done with the engine no signal is firm; before, none is refused
      by_cases hhalt : Halted events
      · rw [firm_append_of_halted hhalt]
        exact (h.firm (sound_of_append hsound) hleft).trans (List.prefix_append _ _)
      · have hup := up_of_not_halted h ht hp hw hhalt (sound_of_append hsound) hleft
        rw [if_pos hup, h.whole hup.1 hup.2, ← hemitted]
        exact List.takeWhile_prefix _ |>.filterMap _
    halted := fun hstop => halted_append (h.halted hstop) _
    failed := fun hup hfailed => (h.failed hup hfailed).imp_left fun hhalt => halted_append hhalt _
    sound := by
      intro hup hlost
      refine sound_step hw (h.sound hup hlost) fun _ => ?_
      rw [heq]
      exact hlost
    front := h.front
    said := fun hsound => h.said (sound_of_append hsound)
    last := by
      intro before m after hmade hm
      obtain ⟨hafter, hleft, hsound⟩ := h.last before m after hmade hm
      refine ⟨hafter, hleft, sound_step hw hsound fun hreaches => ?_⟩
      rw [heq] at hreaches
      exact absurd hleft (not_left_of_up ht (isUp_of_reaches hreaches)) }

/-- What a task does keeps the order. -/
theorem Ordered.task (h : Ordered events w) (ht : Timely R w) (hp : Piped torn w) {event : Event}
    (hp' : Piped torn (w.step (now, event))) (hw : new.play events = w) (htask : event.isTask = true) :
    Ordered (events ++ [(now, event)]) (w.step (now, event)) := by
  have haside : Aside w (w.step (now, event)) := aside_step htask
  refine h.calm ht hp hp' hw ?_ (calm_task htask) ?_ ?_ ?_
  · cases event with
    | emit s => cases htask
    | _ => rfl
  · rw [haside.quitting, haside.phase]
    exact fun hhalt => hhalt.imp_right Or.inl
  · rw [haside.failed]
    exact Or.inl
  · rw [haside.failed]
    exact id

/-- So does an engine that comes up. -/
theorem Ordered.start (h : Ordered events w) (ht : Timely R w) (hp : Piped torn w) {rest : Octets}
    (hp' : Piped torn (w.step (now, .start rest))) (hw : new.play events = w)
    (hphase : w.phase = .starting) :
    Ordered (events ++ [(now, .start rest)]) (w.step (now, .start rest)) := by
  obtain ⟨hcalm, hphase', hquitting, hfailed⟩ := calm_start hphase now rest
  refine h.calm ht hp hp' hw rfl hcalm ?_ ?_ ?_
  · rw [hphase', hquitting]
    rintro (hquit | hdraining)
    · exact Or.inl hquit
    · cases hdraining
  · rw [hfailed]
    exact Or.inl
  · rw [hfailed]
    exact id

/-- **Every event keeps the order.** -/
theorem Ordered.step (h : Ordered events w) (ht : Timely R w) (hp : Piped torn w)
    (hp' : Piped torn (w.step e)) (hw : new.play events = w) : Ordered (events ++ [e]) (w.step e) := by
  obtain ⟨now, event⟩ := e
  by_cases htask : event.isTask = true
  · exact h.task ht hp hp' hw htask
  cases event with
  | start rest =>
      by_cases hphase : w.phase = .starting
      · exact h.start ht hp hp' hw hphase
      · exact h.think ht hp hp' hw rfl w.quitting w.failed (if_neg hphase) Or.inl Or.inl id
  | failStart =>
      by_cases hphase : w.phase = .starting
      · exact h.failStart hphase
      · exact h.think ht hp hp' hw rfl w.quitting w.failed (if_neg hphase) Or.inl Or.inl id
  | emit s => exact h.emit ht hp hw s
  | turn => exact h.turn ht hp hp' hw
  | quit => exact h.think ht hp hp' hw rfl true w.failed rfl (fun _ => Or.inr rfl) Or.inl id
  | giveUp =>
      exact h.think ht hp hp' hw rfl w.quitting true rfl Or.inl (fun _ => Or.inr rfl) fun _ => rfl
  | _ => exact absurd rfl htask

theorem piped_any (events : History) : Piped True (new.play events) :=
  (piped_play events).mono fun _ => trivial

theorem ordered_play (events : History) : Ordered events (new.play events) := by
  induction events using List.reverseRecOn with
  | nil => exact ordered_new
  | append_singleton events e ih =>
      have hplay : new.play (events ++ [e]) = (new.play events).step e := by
        rw [play_append]
        rfl
      have hp' := piped_any (events ++ [e])
      rw [hplay] at hp' ⊢
      exact ih.step (timely_play events) (piped_any events) hp' rfl

end Worker

end GameHall
