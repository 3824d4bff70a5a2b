import GameHall.Proofs.Scheduler.Given

/-!
# What is kept of the order of signals

`Ordered` is what a worker keeps of the signals that it is given: those that were taken and those that wait
are the first ones, and the calls that went out are theirs. What a worker does without taking a signal
changes nothing about that (`Calm`, `Ordered.calm`).
-/

namespace GameHall

namespace Worker

variable {w : Worker} {now : Moment} {torn : Prop}

/-! ## What is kept -/

/-- Whether a worker has signals to take, now or when its engine has come up. -/
def isUp (w : Worker) : Bool := w.phase = .starting || w.phase = .running || w.phase = .draining

/-- The signals that may still be taken. -/
def waiting (w : Worker) : List Signal := if w.isUp then w.signals else []

/-- The signals that were taken and those that wait are the first that were given, and all of them while
the engine is up; the calls that went out are theirs, and goodbye. -/
structure Ordered (events : History) (w : Worker) : Prop where
  fresh : w.phase = .starting → w.deeds = [] ∧ w.endpoint = Endpoint.new
  queue : ran w.deeds ++ w.waiting <+: emitted events
  whole : w.isUp = true → w.isAlive = true → ran w.deeds ++ w.waiting = emitted events
  /-- A worker that is asked to quit takes what was given before. -/
  firm : Sound events → (w.phase = .stopped → ∃ d ∈ w.deeds, d.2 = .clear) →
    firm events <+: ran w.deeds ++ w.waiting
  halted : w.quitting = true ∨ w.phase = .draining ∨ (∃ d ∈ w.deeds, d.2 = .clear) → Halted events
  failed : w.isUp = true → w.failed = true → Halted events ∨ w.endpoint.lost = true
  sound : w.isUp = true → w.endpoint.lost = false → Sound events
  front : called w.deeds <+: callsOf (ran w.deeds) ++ goodbye w.deeds
  /-- No call is left out while the engine is not lost. -/
  said : Sound events → called w.deeds = callsOf (ran w.deeds) ++ goodbye w.deeds
  /-- Goodbye is the last call, to an engine that is not lost. -/
  last : ∀ before m after, made w.deeds = before ++ m :: after → m.1 = .farewell →
    after = [] ∧ (∃ d ∈ w.deeds, d.2 = .clear) ∧ Sound events

variable {events : History} {e : Moment × Event} {R : Moment → Moment → Prop}

theorem ordered_new : Ordered [] new where
  fresh := fun _ => ⟨rfl, rfl⟩
  queue := List.prefix_rfl
  whole := fun _ _ => rfl
  firm := fun _ _ => List.prefix_rfl
  halted := by
    rintro (h | h | ⟨_, hd, _⟩)
    · cases h
    · cases h
    · cases hd
  failed := fun _ h => nomatch h
  sound := by
    intro _ _ past later heq hreaches
    obtain ⟨rfl, _⟩ := List.append_eq_nil_iff.mp heq.symm
    cases hreaches
  front := List.prefix_rfl
  said := fun _ => rfl
  last := fun _ _ _ heq => absurd heq (by simp [made, new])

theorem waiting_of_eq {w w' : Worker} (hphase : w'.phase = w.phase) (hsignals : w'.signals = w.signals) :
    w'.waiting = w.waiting := by
  rw [waiting, waiting, isUp, isUp, hphase, hsignals]

/-- The events so far are sound if they were so before and nothing is lost now. -/
theorem sound_step (hw : new.play events = w) (h : Sound events)
    (hlost : (w.step e).reaches = true → (w.step e).endpoint.lost = false) :
    Sound (events ++ [e]) := by
  refine sound_concat h fun hreaches => ?_
  have hplay : new.play (events ++ [e]) = w.step e := by
    rw [play_append, hw]
    rfl
  rw [hplay] at hreaches ⊢
  exact hlost hreaches

/-- Nothing has been taken or given, and no call was made but by a timer. -/
structure Calm (w w' : Worker) : Prop where
  up : w'.isUp = w.isUp
  stopped : w.phase = .stopped → w'.phase = .stopped
  waiting : w'.waiting = w.waiting
  deeds : ∃ added, w'.deeds = w.deeds ++ added ∧ ∀ d ∈ added, d.2.isAside = true
  made : made w'.deeds = made w.deeds ∨ w.reaches = true ∧ ∃ key c,
    made w'.deeds = made w.deeds ++ [(.timer key, c)]
  lost : w.endpoint.lost = true → w'.endpoint.lost = true
  fresh : w'.phase = .starting → w.phase = .starting ∧ w'.deeds = w.deeds
    ∧ (w.endpoint = Endpoint.new → w'.endpoint = Endpoint.new)

/-- So it is if no deed is noted, and the worker is up if it was. -/
theorem calm_same {w' : Worker} (hup : w'.isUp = w.isUp) (hstopped : w.phase = .stopped → w'.phase = .stopped)
    (hwaiting : w'.waiting = w.waiting) (hdeeds : w'.deeds = w.deeds)
    (hlost : w'.endpoint.lost = w.endpoint.lost)
    (hfresh : w'.phase = .starting → w.phase = .starting ∧ w'.endpoint = w.endpoint) : Calm w w' where
  up := hup
  stopped := hstopped
  waiting := hwaiting
  deeds := ⟨[], by rw [hdeeds, List.append_nil], fun _ hd => absurd hd List.not_mem_nil⟩
  made := Or.inl (by rw [hdeeds])
  lost := fun h => hlost.trans h
  fresh := fun h => ⟨(hfresh h).1, hdeeds, fun hnew => (hfresh h).2.trans hnew⟩

/-- A worker whose engine has not greeted has no task that does anything. -/
theorem calm_task {e : Event} (he : e.isTask = true) : Calm w (w.step (now, e)) where
  up := by rw [isUp, isUp, (aside_step he).phase]
  stopped := (aside_step he).phase.trans
  waiting := waiting_of_eq (aside_step he).phase (aside_step he).signals
  deeds := (aside_step he).deeds
  made := made_task he
  lost := lost_task he
  fresh := by
    intro hphase
    have hstarting : w.phase = .starting := (aside_step he).phase.symm.trans hphase
    have hidle : w.yields ≠ true := by simp [yields, hstarting]
    refine ⟨hstarting, ?_⟩
    cases step_cases w now e with
    | nothing heq =>
        rw [heq]
        exact ⟨rfl, id⟩
    | write heq | failWriting heq =>
        rw [heq]
        refine ⟨rfl, fun hnew => ?_⟩
        dsimp only
        rw [hnew]
        rfl
    | receive _ hyields _ | endOfOutput hyields _ | errand _ hyields _ | answer _ _ hyields _
    | ring _ hyields _ => exact absurd hyields hidle
    | _ => cases he

/-- A worker that can call its engine has not said goodbye. -/
theorem not_farewell (h : Ordered events w) (ht : Timely R w) (hreaches : w.reaches = true) :
    ∀ m ∈ made w.deeds, m.1 ≠ .farewell := by
  intro m hm hfarewell
  obtain ⟨before, after, heq⟩ := List.append_of_mem hm
  obtain ⟨_, ⟨d, hd, hclear⟩, _⟩ := h.last before m after heq hfarewell
  have hup : w.phase = .running ∨ w.phase = .draining := by simpa [reaches] using hreaches
  exact ht.stayed (Or.inr hup) d hd hclear

theorem isUp_of_reaches (h : w.reaches = true) : w.isUp = true := by
  have hup : w.phase = .running ∨ w.phase = .draining := by simpa [reaches] using h
  rcases hup with hphase | hphase
  · simp [isUp, hphase]
  · simp [isUp, hphase]

/-- A worker that has signals to take has not left. -/
theorem not_left_of_up (ht : Timely R w) (h : w.isUp = true) : ¬ ∃ d ∈ w.deeds, d.2 = .clear := by
  rintro ⟨d, hd, hclear⟩
  have hup : w.phase = .starting ∨ w.phase = .running ∨ w.phase = .draining := by
    simpa [isUp, or_assoc] using h
  exact ht.stayed hup d hd hclear

theorem isAlive_of_up (hp : Piped torn w) (hup : w.isUp = true) :
    w.isAlive = true ↔ w.failed = false ∧ (w.phase = .starting ∨ w.endpoint.lost = false) := by
  have hrunning : w.phase ≠ .stopped := by
    intro hstopped
    rw [isUp, hstopped] at hup
    cases hup
  simp [isAlive, hp.alive hrunning]

theorem halted_of_isStop (h : e.2.isStop = true) : Halted (events ++ [e]) :=
  ⟨e, List.mem_append_right _ List.mem_cons_self, h⟩

theorem Calm.ran {w' : Worker} (h : Calm w w') : ran w'.deeds = Worker.ran w.deeds := by
  obtain ⟨added, hadded, haside⟩ := h.deeds
  rw [hadded, ran_append, ran_of_aside haside, List.append_nil]

theorem Calm.goodbye {w' : Worker} (h : Calm w w') :
    goodbye w'.deeds = Worker.goodbye w.deeds := by
  obtain ⟨added, hadded, haside⟩ := h.deeds
  rw [hadded, goodbye_append _ (ne_clear_of_aside haside)]

theorem Calm.left {w' : Worker} (h : Calm w w') :
    (∃ d ∈ w'.deeds, d.2 = .clear) ↔ ∃ d ∈ w.deeds, d.2 = .clear := by
  obtain ⟨added, hadded, haside⟩ := h.deeds
  rw [hadded]
  constructor
  · rintro ⟨d, hd, hclear⟩
    rcases List.mem_append.mp hd with hold | hnew
    · exact ⟨d, hold, hclear⟩
    · exact absurd hclear (ne_clear_of_aside haside d hnew)
  · rintro ⟨d, hd, hclear⟩
    exact ⟨d, List.mem_append_left _ hd, hclear⟩

theorem Calm.called {w' : Worker} (h : Calm w w') : called w'.deeds = Worker.called w.deeds := by
  rcases h.made with heq | ⟨_, key, c, heq⟩
  · rw [Worker.called, heq]
    rfl
  · rw [Worker.called, heq, List.filter_append]
    exact List.append_nil _

theorem Calm.kept {w' : Worker} (h : Calm w w') (hlost : w'.endpoint.lost = false) :
    w.endpoint.lost = false := by
  rw [← Bool.not_eq_true] at hlost ⊢
  exact fun hold => hlost (h.lost hold)

/-- **What is calm keeps it.** -/
theorem Ordered.calm (h : Ordered events w) (ht : Timely R w) (hp : Piped torn w)
    (hp' : Piped torn (w.step e)) (hw : new.play events = w) (hsignal : e.2.signal? = none)
    (hcalm : Calm w (w.step e))
    (hhalted : (w.step e).quitting = true ∨ (w.step e).phase = .draining →
      w.quitting = true ∨ w.phase = .draining ∨ e.2.isStop = true)
    (hfailed : (w.step e).failed = true →
      w.failed = true ∨ e.2.isStop = true ∨ (w.step e).endpoint.lost = true)
    (hfails : w.failed = true → (w.step e).failed = true) :
    Ordered (events ++ [e]) (w.step e) where
  fresh := by
    intro hstarting
    obtain ⟨hstarting', hdeeds', hendpoint'⟩ := hcalm.fresh hstarting
    obtain ⟨hdeeds, hendpoint⟩ := h.fresh hstarting'
    exact ⟨hdeeds'.trans hdeeds, hendpoint' hendpoint⟩
  queue := by
    rw [hcalm.ran, hcalm.waiting, emitted_concat_of_none hsignal]
    exact h.queue
  whole := by
    intro hup halive
    rw [isAlive_of_up hp' hup] at halive
    rw [hcalm.up] at hup
    rw [hcalm.ran, hcalm.waiting, emitted_concat_of_none hsignal]
    -- the engine was alive before: what is lost stays lost, and what failed stays so
    refine h.whole hup ((isAlive_of_up hp hup).mpr
      ⟨?_, halive.2.imp (fun hphase => (hcalm.fresh hphase).1) hcalm.kept⟩)
    rw [← Bool.not_eq_true]
    exact fun hold => Bool.false_ne_true (halive.1.symm.trans (hfails hold))
  firm := by
    intro hsound hleft
    rw [hcalm.ran, hcalm.waiting, firm_concat_of_none hsignal]
    exact h.firm (sound_of_append hsound) fun hstopped => hcalm.left.mp (hleft (hcalm.stopped hstopped))
  halted := by
    intro hstop
    rw [← or_assoc] at hstop
    rcases hstop with hstop | hleft
    · rcases hhalted hstop with hquit | hdraining | hstop
      · exact halted_append (h.halted (Or.inl hquit)) [e]
      · exact halted_append (h.halted (Or.inr (Or.inl hdraining))) [e]
      · exact halted_of_isStop hstop
    · exact halted_append (h.halted (Or.inr (Or.inr (hcalm.left.mp hleft)))) [e]
  failed := by
    intro hup hfailed'
    rw [hcalm.up] at hup
    rcases hfailed hfailed' with hold | hstop | hlost
    · exact (h.failed hup hold).imp (fun hhalt => halted_append hhalt [e]) hcalm.lost
    · exact Or.inl (halted_of_isStop hstop)
    · exact Or.inr hlost
  sound := by
    intro hup hlost
    rw [hcalm.up] at hup
    exact sound_step hw (h.sound hup (hcalm.kept hlost)) fun _ => hlost
  front := by
    rw [hcalm.called, hcalm.ran, hcalm.goodbye]
    exact h.front
  said := by
    intro hsound
    rw [hcalm.called, hcalm.ran, hcalm.goodbye]
    exact h.said (sound_of_append hsound)
  last := by
    intro before m after heq hm
    rcases hcalm.made with hsame | ⟨hreaches, key, c, hmore⟩
    · rw [hsame] at heq
      obtain ⟨hafter, hleft, hsound⟩ := h.last before m after heq hm
      refine ⟨hafter, hcalm.left.mpr hleft, sound_step hw hsound fun hreaches => ?_⟩
      have hup : (w.step e).isUp = true := isUp_of_reaches hreaches
      exact absurd hleft (not_left_of_up ht (hcalm.up ▸ hup))
    · -- only the call of a timer is new, and the others are no goodbye
      rw [hmore] at heq
      have hmem : m ∈ made w.deeds ++ [(Cause.timer key, c)] := by
        rw [heq]
        exact List.mem_append_right _ List.mem_cons_self
      rcases List.mem_append.mp hmem with hold | hnew
      · exact absurd hm (not_farewell h ht hreaches m hold)
      · rw [List.mem_singleton.mp hnew] at hm
        cases hm

end Worker

end GameHall
