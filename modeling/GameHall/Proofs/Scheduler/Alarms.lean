import GameHall.Proofs.Scheduler.Deeds
import GameHall.Proofs.Scheduler.Timers

/-!
# Room timers fire when they should

A timer is armed if the latest thing that a worker has done to it is to arm it (`Armed`): it has not been
cancelled since, has not fired and has not been dropped. After every event the timers of a worker are
those that its deeds tell to be armed (`Timely`, `timely_step`), so a timer fires only if it is armed
and due, once for each time it is armed, and to cancel it tells whether it was armed.

When nothing is late (`Punctual`), it fires at its deadline and not after it (`timely_play_punctual`,
`wakes_onTime`).
-/

namespace GameHall

/-- Whether a deed is something done to the timer of a kind of a room. -/
def Deed.touches (key : TimerKey) : Deed → Bool
  | .arm key' _ => decide (key' = key)
  | .disarm key' _ => decide (key' = key)
  | .ring key' => decide (key' = key)
  | .clear => true
  | _ => false

/-- Whether a deed has nothing to do with timers. -/
def Deed.isPlain : Deed → Bool
  | .arm _ _ | .disarm _ _ | .ring _ | .clear => false
  | .call (.timer _) _ _ => false
  | _ => true

namespace Worker

/-! ## What the deeds say of timers -/

variable {deeds : Deeds} {key : TimerKey} {since now : Moment} {wait : Nat} {d : Deed}

/-- When a timer is due. -/
def dueAt (since : Moment) (wait : Nat) : Moment := since + (Duration.ofMillis wait).nanoseconds

/-- The latest thing done to a timer was to arm it, at a moment and for some milliseconds. -/
def Armed (deeds : Deeds) (key : TimerKey) (since : Moment) (wait : Nat) : Prop :=
  ∃ before after, deeds = before ++ (since, .arm key wait) :: after
    ∧ ∀ d ∈ after, d.2.touches key = false

theorem not_armed_nil : ¬ Armed [] key since wait := by
  rintro ⟨before, after, heq, _⟩
  exact absurd heq (by simp)

theorem armed_concat : Armed (deeds ++ [(now, d)]) key since wait
    ↔ d = .arm key wait ∧ since = now ∨ d.touches key = false ∧ Armed deeds key since wait := by
  constructor
  · rintro ⟨before, after, heq, hafter⟩
    rcases eq_or_of_snoc heq with ⟨_, hlast, _⟩ | ⟨after', rfl, hinit⟩
    · cases hlast
      exact Or.inl ⟨rfl, rfl⟩
    · refine Or.inr ⟨hafter (now, d) (by simp), before, after', hinit, fun e he => ?_⟩
      exact hafter e (List.mem_append_left _ he)
  · rintro (⟨rfl, rfl⟩ | ⟨hd, before, after, rfl, hafter⟩)
    · exact ⟨deeds, [], rfl, fun e he => absurd he List.not_mem_nil⟩
    · refine ⟨before, after ++ [(now, d)], by rw [List.append_assoc, List.cons_append], ?_⟩
      intro e he
      rcases List.mem_append.mp he with hold | hnew
      · exact hafter e hold
      · rw [List.mem_singleton.mp hnew]
        exact hd

/-- A timer is armed in one way. -/
theorem armed_unique {since' : Moment} {wait' : Nat} (h : Armed deeds key since wait)
    (h' : Armed deeds key since' wait') : since = since' ∧ wait = wait' := by
  induction deeds using List.reverseRecOn with
  | nil => exact absurd h not_armed_nil
  | append_singleton deeds e ih =>
      obtain ⟨now, d⟩ := e
      rcases armed_concat.mp h with ⟨rfl, rfl⟩ | ⟨hd, hold⟩
      · rcases armed_concat.mp h' with ⟨heq, rfl⟩ | ⟨htouch, _⟩
        · cases heq
          exact ⟨rfl, rfl⟩
        · simp [Deed.touches] at htouch
      · rcases armed_concat.mp h' with ⟨rfl, rfl⟩ | ⟨_, hold'⟩
        · simp [Deed.touches] at hd
        · exact ih hold hold'

/-- The call that a timer makes. -/
def wakeUp (key : TimerKey) : EngineCall := EngineCall.wake key.2 key.1.reason

/-- A deed is in order after the deeds before it. A timer fires if it is armed and due; it is due at a
moment as `R` tells, if it wakes its room. Cancelling tells whether the timer is armed. -/
def Fits (R : Moment → Moment → Prop) (before : Deeds) : Moment × Deed → Prop
  | (now, .ring key) => ∃ since wait, Armed before key since wait ∧ dueAt since wait ≤ now
  | (_, .disarm key armed) => armed = true ↔ ∃ since wait, Armed before key since wait
  | (now, .call (.timer key) c _) => c = wakeUp key ∧ (∀ d ∈ before, d.2 ≠ .clear) ∧
    ∃ past since wait, before = past ++ [(now, .ring key)] ∧ Armed past key since wait
      ∧ R (dueAt since wait) now
  | _ => True

/-- Every deed is in order. -/
def Orderly (R : Moment → Moment → Prop) (deeds : Deeds) : Prop :=
  ∀ before d after, deeds = before ++ d :: after → Fits R before d

variable {R : Moment → Moment → Prop}

theorem orderly_nil : Orderly R [] := fun _ _ _ heq => absurd heq (by simp)

theorem orderly_concat (h : Orderly R deeds) {e : Moment × Deed} (he : Fits R deeds e) :
    Orderly R (deeds ++ [e]) := by
  intro before d after heq
  rcases eq_or_of_snoc heq with ⟨rfl, rfl, _⟩ | ⟨after', _, hinit⟩
  · exact he
  · exact h before d after' hinit

theorem fits_of_isPlain (h : d.isPlain = true) : Fits R deeds (now, d) := by
  cases d with
  | call cause c taken =>
      cases cause with
      | timer key => cases h
      | _ => trivial
  | arm key wait => trivial
  | disarm key armed => cases h
  | ring key => cases h
  | _ => trivial

theorem touches_of_isPlain (h : d.isPlain = true) (key : TimerKey) : d.touches key = false := by
  cases d with
  | arm key wait => cases h
  | disarm key armed => cases h
  | ring key => cases h
  | clear => cases h
  | _ => rfl

/-- A timer that fires before the timers have been dropped wakes its room. -/
def Answered (deeds : Deeds) : Prop :=
  ∀ before now key after, deeds = before ++ (now, .ring key) :: after →
    (∃ d ∈ before, d.2 = .clear)
      ∨ ∃ taken after', after = (now, .call (.timer key) (wakeUp key) taken) :: after'

theorem answered_concat (h : Answered deeds) {e : Moment × Deed} (he : ∀ key, e.2 ≠ .ring key) :
    Answered (deeds ++ [e]) := by
  intro before now key after heq
  rcases eq_or_of_snoc heq with ⟨_, rfl, _⟩ | ⟨after', rfl, hinit⟩
  · exact absurd rfl (he key)
  · refine (h before now key after' hinit).imp_right ?_
    rintro ⟨taken, rest, rfl⟩
    exact ⟨taken, rest ++ [e], by rw [List.cons_append]⟩

/-- A timer that fires after that wakes nobody. -/
theorem answered_late (h : Answered deeds) (hclear : ∃ d ∈ deeds, d.2 = .clear)
    (e : Moment × Deed) : Answered (deeds ++ [e]) := by
  intro before now key after heq
  rcases eq_or_of_snoc heq with ⟨rfl, _, _⟩ | ⟨after', rfl, hinit⟩
  · exact Or.inl hclear
  · refine (h before now key after' hinit).imp_right ?_
    rintro ⟨taken, rest, rfl⟩
    exact ⟨taken, rest ++ [e], by rw [List.cons_append]⟩

theorem answered_ring (h : Answered deeds) (now : Moment) (key : TimerKey) (taken : Bool) :
    Answered ((deeds ++ [(now, .ring key)]) ++ [(now, .call (.timer key) (wakeUp key) taken)]) := by
  intro before now' key' after heq
  rcases eq_or_of_snoc heq with ⟨_, hlast, _⟩ | ⟨after', rfl, hinit⟩
  · cases hlast
  rcases eq_or_of_snoc hinit with ⟨_, hring, rfl⟩ | ⟨after'', rfl, hold⟩
  · cases hring
    exact Or.inr ⟨taken, [], rfl⟩
  · refine (h before now' key' after'' hold).imp_right ?_
    rintro ⟨taken', rest, rfl⟩
    exact ⟨taken', rest ++ [(now, .ring key)] ++ [(now, .call (.timer key) (wakeUp key) taken)],
      by simp⟩

/-! ## What is kept -/

/-- The timers are what the deeds say, and the deeds are in order. -/
structure Timely (R : Moment → Moment → Prop) (w : Worker) : Prop where
  matched : w.timers.Matched
  armed : ∀ key deadline, w.timers.deadline? key = some deadline
    ↔ ∃ since wait, Armed w.deeds key since wait ∧ deadline = dueAt since wait
  orderly : Orderly R w.deeds
  answered : Answered w.deeds
  /-- The timers are dropped when the worker leaves. -/
  left : w.phase = .closing → ∃ d ∈ w.deeds, d.2 = .clear
  stayed : w.phase = .starting ∨ w.phase = .running ∨ w.phase = .draining →
    ∀ d ∈ w.deeds, d.2 ≠ .clear

variable {w w' : Worker}

theorem timely_new : Timely R new where
  matched := Timers.matched_empty
  armed := by
    intro key deadline
    refine iff_of_false (fun h => nomatch h) ?_
    rintro ⟨since, wait, harmed, _⟩
    exact not_armed_nil harmed
  orderly := orderly_nil
  answered := fun _ _ _ _ heq => absurd heq (by simp [new])
  left := fun h => nomatch h
  stayed := fun _ d hd => absurd hd List.not_mem_nil

/-- What neither timers nor deeds are changed by. -/
theorem timely_of_eq (h : Timely R w) (htimers : w'.timers = w.timers) (hdeeds : w'.deeds = w.deeds)
    (hphase : w'.phase = w.phase ∨ w'.phase = .stopped
      ∨ (w.phase = .starting ∨ w.phase = .running) ∧ (w'.phase = .running ∨ w'.phase = .draining)) :
    Timely R w' := by
  have hleft : w'.phase = .closing → ∃ d ∈ w'.deeds, d.2 = .clear := by
    intro hclosing
    rw [hdeeds]
    rcases hphase with heq | heq | ⟨_, heq | heq⟩
    · exact h.left (heq ▸ hclosing)
    all_goals rw [heq] at hclosing; cases hclosing
  have hstayed : w'.phase = .starting ∨ w'.phase = .running ∨ w'.phase = .draining →
      ∀ d ∈ w'.deeds, d.2 ≠ .clear := by
    intro hup
    rw [hdeeds]
    rcases hphase with heq | heq | ⟨hbefore, _⟩
    · exact h.stayed (heq ▸ hup)
    · rw [heq] at hup
      rcases hup with hup | hup | hup <;> cases hup
    · exact h.stayed (hbefore.imp_right Or.inl)
  obtain ⟨hmatched, harmed, horderly, hanswered, _, _⟩ := h
  rw [← htimers] at hmatched harmed
  rw [← hdeeds] at harmed horderly hanswered
  exact ⟨hmatched, harmed, horderly, hanswered, hleft, hstayed⟩

/-- A deed is noted that is in order, and the timers are what it says. -/
theorem timely_note (h : Timely R w) {ts : Timers} (hmatched : ts.Matched) (hd : Fits R w.deeds (now, d))
    (hring : ∀ key, d ≠ .ring key) (hclear : d ≠ .clear)
    (harmed : ∀ key deadline, ts.deadline? key = some deadline
      ↔ ∃ since wait, Armed (w.deeds ++ [(now, d)]) key since wait ∧ deadline = dueAt since wait) :
    Timely R ({ w with timers := ts }.note now d) where
  matched := hmatched
  armed := harmed
  orderly := orderly_concat h.orderly hd
  answered := answered_concat h.answered hring
  left := by
    intro hphase
    obtain ⟨e, he, heq⟩ := h.left hphase
    exact ⟨e, List.mem_append_left _ he, heq⟩
  stayed := by
    intro hphase e he
    rcases List.mem_append.mp he with hold | hnew
    · exact h.stayed hphase e hold
    · rw [List.mem_singleton.mp hnew]
      exact hclear

/-- What is noted that has nothing to do with a timer leaves it armed as it was. -/
theorem armed_note_iff (hd : ∀ key, d.touches key = false) {key : TimerKey} {deadline : Moment} :
    (∃ since wait, Armed (deeds ++ [(now, d)]) key since wait ∧ deadline = dueAt since wait)
      ↔ ∃ since wait, Armed deeds key since wait ∧ deadline = dueAt since wait := by
  refine exists_congr fun since => exists_congr fun wait => and_congr_left fun _ => ?_
  rw [armed_concat]
  constructor
  · rintro (⟨rfl, _⟩ | ⟨_, hold⟩)
    · have := hd key
      simp [Deed.touches] at this
    · exact hold
  · exact fun hold => Or.inr ⟨hd key, hold⟩

theorem timely_plain (h : Timely R w) (hd : d.isPlain = true) : Timely R (w.note now d) := by
  have hring : ∀ key, d ≠ .ring key := by
    rintro key rfl
    cases hd
  have hclear : d ≠ .clear := by
    rintro rfl
    cases hd
  have hnoted : Timely R ({ w with timers := w.timers }.note now d) := by
    refine timely_note h h.matched (fits_of_isPlain hd) hring hclear ?_
    intro key deadline
    rw [armed_note_iff (touches_of_isPlain hd)]
    exact h.armed key deadline
  exact hnoted

/-- A call that is not made by a timer. -/
theorem timely_call (h : Timely R w) {cause : Cause} (hcause : ∀ key, cause ≠ .timer key)
    (c : EngineCall) : Timely R (w.call now cause c) := by
  have hplain : ∀ taken, (Deed.call cause c taken).isPlain = true := by
    intro taken
    cases cause with
    | timer key => exact absurd rfl (hcause key)
    | _ => rfl
  unfold call
  split
  · split
    · exact timely_plain (timely_of_eq h rfl rfl (Or.inl rfl)) (hplain true)
    · exact timely_plain h (hplain false)
  · exact h

theorem timely_arm (h : Timely R w) (key : TimerKey) (wait : Nat) : Timely R (w.arm now key wait) := by
  refine timely_note h (Timers.matched_arm h.matched key _) trivial (fun _ => nofun) nofun ?_
  intro key' deadline
  rw [Timers.deadline?_arm h.matched]
  split
  · rename_i heq
    subst heq
    rw [Option.some.injEq]
    constructor
    · rintro rfl
      exact ⟨now, wait, armed_concat.mpr (Or.inl ⟨rfl, rfl⟩), rfl⟩
    · rintro ⟨since, wait', harmed, rfl⟩
      rcases armed_concat.mp harmed with ⟨heq, rfl⟩ | ⟨htouch, _⟩
      · cases heq
        rfl
      · simp [Deed.touches] at htouch
  · rename_i hne
    rw [h.armed]
    refine exists_congr fun since => exists_congr fun wait' => and_congr_left fun _ => ?_
    rw [armed_concat]
    constructor
    · exact fun hold => Or.inr ⟨decide_eq_false hne, hold⟩
    · rintro (⟨heq, _⟩ | ⟨_, hold⟩)
      · cases heq
        exact absurd rfl hne
      · exact hold

/-- After something that ends a timer the others are armed as they were. -/
theorem armed_ended_iff (hd : ∀ key', d.touches key' = decide (key = key'))
    (harm : ∀ key' wait, d ≠ .arm key' wait) {key' : TimerKey} :
    Armed (deeds ++ [(now, d)]) key' since wait ↔ key ≠ key' ∧ Armed deeds key' since wait := by
  rw [armed_concat]
  constructor
  · rintro (⟨rfl, _⟩ | ⟨htouch, hold⟩)
    · exact absurd rfl (harm key' wait)
    · rw [hd] at htouch
      exact ⟨of_decide_eq_false htouch, hold⟩
  · rintro ⟨hne, hold⟩
    exact Or.inr ⟨by rw [hd]; exact decide_eq_false hne, hold⟩

/-- So the timers are what the deeds say when it has been taken out. -/
theorem deadline?_ended_iff (h : Timely R w) (hd : ∀ key', d.touches key' = decide (key = key'))
    (harm : ∀ key' wait, d ≠ .arm key' wait) (key' : TimerKey) (deadline : Moment) :
    (w.timers.disarm key).2.deadline? key' = some deadline
      ↔ ∃ since wait, Armed (w.deeds ++ [(now, d)]) key' since wait ∧ deadline = dueAt since wait := by
  rw [Timers.deadline?_disarm h.matched]
  simp only [armed_ended_iff hd harm, and_assoc]
  split
  · rename_i heq
    exact iff_of_false (fun h => nomatch h) fun ⟨_, _, hne, _⟩ => hne heq
  · rename_i hne
    rw [h.armed]
    exact exists_congr fun since => exists_congr fun wait => (and_iff_right hne).symm

/-- Whether a timer can be cancelled is whether it is armed. -/
theorem disarm_fst_iff (h : Timely R w) (now : Moment) (key : TimerKey) :
    (w.disarm now key).1 = true ↔ ∃ since wait, Armed w.deeds key since wait := by
  show (w.timers.disarm key).1 = true ↔ _
  rw [Timers.disarm_fst h.matched, Option.isSome_iff_exists]
  simp only [h.armed]
  constructor
  · rintro ⟨_, since, wait, harmed, _⟩
    exact ⟨since, wait, harmed⟩
  · rintro ⟨since, wait, harmed⟩
    exact ⟨_, since, wait, harmed, rfl⟩

theorem timely_disarm (h : Timely R w) (key : TimerKey) : Timely R (w.disarm now key).2 :=
  timely_note h (Timers.matched_disarm h.matched key) (disarm_fst_iff h now key) (fun _ => nofun) nofun
    (deadline?_ended_iff h (fun _ => rfl) fun _ _ => nofun)

/-- A timer fires while the worker runs. -/
theorem timely_wake (h : Timely R w) (hrunning : w.phase = .running) {key : TimerKey}
    (harmed : Armed w.deeds key since wait) (hdue : dueAt since wait ≤ now)
    (hR : R (dueAt since wait) now) {taken : Bool} {g : Worker}
    (htimers : g.timers = (w.timers.disarm key).2) (hphase : g.phase = .running)
    (hdeeds : g.deeds
      = (w.deeds ++ [(now, .ring key)]) ++ [(now, .call (.timer key) (wakeUp key) taken)]) :
    Timely R g := by
  have hup : ∀ e ∈ w.deeds ++ [(now, Deed.ring key)], e.2 ≠ .clear := by
    intro e he
    rcases List.mem_append.mp he with hold | hnew
    · exact h.stayed (Or.inr (Or.inl hrunning)) e hold
    · rw [List.mem_singleton.mp hnew]
      nofun
  have horderly : Orderly R (w.deeds ++ [(now, .ring key)]) :=
    orderly_concat h.orderly ⟨since, wait, harmed, hdue⟩
  exact {
    matched := htimers ▸ Timers.matched_disarm h.matched key
    armed := by
      intro key' deadline
      rw [hdeeds, armed_note_iff fun _ => rfl, htimers]
      exact deadline?_ended_iff (d := .ring key) h (fun _ => rfl) (fun _ _ => nofun) key' deadline
    orderly := by
      -- the room is woken right after the ring, and both are no earlier than the deadline
      rw [hdeeds]
      exact orderly_concat horderly ⟨rfl, hup, w.deeds, since, wait, rfl, harmed, hR⟩
    answered := by
      rw [hdeeds]
      exact answered_ring h.answered now key taken
    left := fun hclosing => nomatch hphase.symm.trans hclosing
    stayed := by
      rw [hdeeds]
      intro _ e he
      rcases List.mem_append.mp he with hold | hnew
      · exact hup e hold
      · rw [List.mem_singleton.mp hnew]
        nofun }

/-- A timer fires when the worker has left. -/
theorem timely_ringLate (h : Timely R w) (hclosing : w.phase = .closing) {key : TimerKey}
    (harmed : Armed w.deeds key since wait) (hdue : dueAt since wait ≤ now) :
    Timely R ({ w with timers := (w.timers.disarm key).2 }.note now (.ring key)) where
  matched := Timers.matched_disarm h.matched key
  armed := deadline?_ended_iff h (fun _ => rfl) fun _ _ => nofun
  orderly := orderly_concat h.orderly ⟨since, wait, harmed, hdue⟩
  answered := answered_late h.answered (h.left hclosing) _
  left := by
    intro _
    obtain ⟨e, he, hclear⟩ := h.left hclosing
    exact ⟨e, List.mem_append_left _ he, hclear⟩
  stayed := by
    intro hup
    have hup' : w.phase = .starting ∨ w.phase = .running ∨ w.phase = .draining := hup
    rw [hclosing] at hup'
    rcases hup' with hup' | hup' | hup' <;> cases hup'

/-- What a task does that wakes: nothing if its timer is not due, and else its timer fires, and wakes
its room unless the worker has left. -/
theorem ring_cases (h : Timely R w) (hyields : w.yields = true) (now : Moment) (task : Nat) :
    w.ring now task = w ∨ ∃ t since wait, Assoc.get? w.timers.tasks task = some t
      ∧ t.deadline = dueAt since wait ∧ Armed w.deeds t.key since wait ∧ t.deadline ≤ now
      ∧ (w.phase = .closing ∧ w.ring now task
          = { w with timers := (w.timers.disarm t.key).2 }.note now (.ring t.key)
        ∨ w.phase = .running ∧ ∃ taken endpoint, w.ring now task
          = ({ w with timers := (w.timers.disarm t.key).2, endpoint := endpoint }.note now
              (.ring t.key)).note now (.call (.timer t.key) (wakeUp t.key) taken)) := by
  unfold ring
  split
  case h_2 => exact Or.inl rfl
  rename_i t ht
  split
  case isFalse => exact Or.inl rfl
  rename_i hdue
  obtain ⟨since, wait, harmed, hdeadline⟩ := (h.armed t.key t.deadline).mp
    (Timers.deadline?_of_task h.matched ht)
  refine Or.inr ⟨t, since, wait, ht, hdeadline, harmed, hdue, ?_⟩
  rw [Timers.wake_eq_disarm h.matched ht]
  unfold call
  obtain hrunning | hclosing : w.phase = .running ∨ w.phase = .closing := by
    simpa [yields] using hyields
  · have hreaches : ({ w with timers := (w.timers.disarm t.key).2 }.note now (.ring t.key)).reaches
        = true := by simp [reaches, note, hrunning]
    refine Or.inr ⟨hrunning, ?_⟩
    rw [if_pos hreaches]
    split
    · rename_i endpoint _
      exact ⟨true, endpoint, rfl⟩
    · exact ⟨false, w.endpoint, rfl⟩
  · have hreaches : ¬ ({ w with timers := (w.timers.disarm t.key).2 }.note now (.ring t.key)).reaches
        = true := by simp [reaches, note, hclosing]
    exact Or.inl ⟨hclosing, if_neg hreaches⟩

theorem timely_ring (h : Timely R w) (hyields : w.yields = true) (task : Nat)
    (hR : ∀ key deadline, w.phase = .running → w.timers.deadline? key = some deadline →
      deadline ≤ now → R deadline now) : Timely R (w.ring now task) := by
  rcases ring_cases h hyields now task with heq | ⟨t, since, wait, ht, hdeadline, harmed, hdue, hrung⟩
  · rw [heq]
    exact h
  · rw [hdeadline] at hdue
    rcases hrung with ⟨hclosing, heq⟩ | ⟨hrunning, taken, endpoint, heq⟩
    · rw [heq]
      exact timely_ringLate h hclosing harmed hdue
    · rw [heq]
      refine timely_wake h hrunning harmed hdue ?_ rfl hrunning rfl
      exact hR t.key _ hrunning ((h.armed _ _).mpr ⟨since, wait, harmed, rfl⟩) hdue

/-- A worker that leaves drops all timers, and they are not armed any more. -/
theorem timely_leave (h : Timely R w) : Timely R (w.leave now) := by
  have hnone : ∀ key since wait, ¬ Armed (w.deeds ++ [(now, .clear)]) key since wait := by
    intro key since wait harmed
    rcases armed_concat.mp harmed with ⟨heq, _⟩ | ⟨htouch, _⟩
    · cases heq
    · cases htouch
  have hmatched := Timers.matched_clear h.matched
  have harmed : ∀ key deadline, w.timers.clear.deadline? key = some deadline
      ↔ ∃ since wait, Armed (w.deeds ++ [(now, .clear)]) key since wait
        ∧ deadline = dueAt since wait := by
    intro key deadline
    rw [Timers.deadline?_clear h.matched]
    refine iff_of_false (fun hdeadline => by cases hdeadline) ?_
    rintro ⟨since, wait, harmed, _⟩
    exact hnone key since wait harmed
  have horderly : Orderly R (w.deeds ++ [(now, .clear)]) := orderly_concat h.orderly trivial
  have hanswered : Answered (w.deeds ++ [(now, .clear)]) :=
    answered_concat h.answered (e := (now, .clear)) fun _ hring => by cases hring
  -- the goodbye has nothing to do with timers
  have hbye : ∀ (g : Worker) taken, g.timers = w.timers.clear →
      g.deeds = w.deeds ++ [(now, .clear)] → Timely R
        { g.note now (.call .farewell EngineCall.bye taken) with phase := .closing } := by
    intro g taken htimers hdeeds
    exact {
      matched := htimers ▸ hmatched
      armed := by
        intro key deadline
        simp only [note, hdeeds, htimers]
        rw [armed_note_iff fun _ => rfl]
        exact harmed key deadline
      orderly := by
        simp only [note, hdeeds]
        exact orderly_concat horderly trivial
      answered := by
        simp only [note, hdeeds]
        exact answered_concat hanswered fun _ hring => by cases hring
      left := fun _ => ⟨(now, .clear), by simp [note, hdeeds], rfl⟩
      stayed := by rintro (hup | hup | hup) <;> cases hup }
  unfold leave
  dsimp only
  unfold call
  split
  · split
    · exact hbye _ true rfl rfl
    · exact hbye _ false rfl rfl
  · exact {
      matched := hmatched
      armed := harmed
      orderly := horderly
      answered := hanswered
      left := fun _ => ⟨(now, .clear), by simp [note], rfl⟩
      stayed := by rintro (hup | hup | hup) <;> cases hup }

/-! ## What a worker does -/

theorem timely_runSignal (h : Timely R w) (s : Signal) : Timely R (w.runSignal now s) := by
  have hcause : ∀ key, Cause.signal ≠ .timer key := fun _ => nofun
  cases s with
  | arm kind room wait => exact timely_arm h (kind, room) wait
  | disarm kind room => exact timely_disarm h (kind, room)
  | _ => exact timely_call h hcause _

theorem timely_takeSignal (h : Timely R w) (s : Signal) (rest : List Signal) :
    Timely R (w.takeSignal now s rest) := by
  refine timely_runSignal (timely_plain (d := .run s) ?_ rfl) s
  exact timely_of_eq h rfl rfl (Or.inl rfl)

theorem timely_turn (h : Timely R w) : Timely R (w.turn now) := by
  unfold turn
  cases hphase : w.phase with
  | starting => exact h
  | stopped => exact h
  | closing => exact timely_of_eq h rfl rfl (Or.inr (Or.inl rfl))
  | draining =>
      dsimp only
      split
      · exact timely_leave h
      · exact timely_takeSignal h _ _
  | running =>
      dsimp only
      split
      · exact timely_of_eq h rfl rfl (Or.inr (Or.inr ⟨Or.inr hphase, Or.inr rfl⟩))
      · split
        · exact timely_of_eq h rfl rfl (Or.inl hphase.symm)
        · split
          · exact h
          · exact timely_takeSignal h _ _

theorem timely_owe (h : Timely R w) (ticket : Nat) (errand : Errand) :
    Timely R (w.owe ticket errand) := timely_of_eq h rfl rfl (Or.inl rfl)

theorem timely_obey (h : Timely R w) (ticket : Nat) (c : HostCall) :
    Timely R (w.obey now ticket c) := by
  cases c with
  | delay room wait => exact timely_owe (timely_arm h (.delay, room) wait) ticket _
  | setRequestTimer room wait => exact timely_owe (timely_arm h (.request, room) wait) ticket _
  | destroyRequestTimer room => exact timely_owe (timely_disarm h (.request, room)) ticket _
  | waitForReply connection wait => exact timely_owe h ticket _
  | isThinking connection => exact timely_owe h ticket _
  | gameOver room => exact timely_owe h ticket _
  | _ => exact timely_owe (timely_plain h rfl) ticket _

theorem timely_serve (h : Timely R w) (entry : Nat × Packet.Call) :
    Timely R (w.serve now entry) := by
  unfold serve
  split
  · exact h
  · exact timely_owe h _ _
  · exact timely_obey h _ _

theorem timely_receive (h : Timely R w) (chunk : Octets) : Timely R (w.receive now chunk) := by
  have hserve : ∀ (entries : Assoc Nat Packet.Call) {g : Worker}, Timely R g →
      Timely R (entries.foldl (serve now) g) := by
    intro entries
    induction entries with
    | nil => exact id
    | cons entry entries ih => exact fun hg => ih (timely_serve hg entry)
  refine hserve _ (timely_plain (d := .read chunk) ?_ rfl)
  exact timely_of_eq h rfl rfl (Or.inl rfl)

theorem timely_runErrand (h : Timely R w) (ticket : Nat) : Timely R (w.runErrand now ticket) := by
  unfold runErrand
  dsimp only
  split
  · exact timely_of_eq h rfl rfl (Or.inl rfl)
  · exact timely_plain (timely_of_eq h rfl rfl (Or.inl rfl)) rfl
  · exact h

/-- **Every event keeps the timers and the deeds in order.** -/
theorem timely_step (h : Timely R w) (e : Event)
    (hR : ∀ key deadline, w.phase = .running → w.timers.deadline? key = some deadline →
      deadline ≤ now → R deadline now) : Timely R (w.step (now, e)) := by
  -- only four events touch timers or deeds
  cases step_cases w now e with
  | nothing heq => rwa [heq]
  | start rest hphase heq =>
      rw [heq]
      have hrunning : Timely R { w with phase := .running } :=
        timely_of_eq h rfl rfl (Or.inr (Or.inr ⟨Or.inl hphase, Or.inl rfl⟩))
      exact timely_receive hrunning rest
  | failStart _ heq =>
      rw [heq]
      exact timely_of_eq h rfl rfl (Or.inr (Or.inl rfl))
  | turn heq =>
      rw [heq]
      exact timely_turn h
  | receive chunk _ heq =>
      rw [heq]
      exact timely_receive h chunk
  | errand ticket _ heq =>
      rw [heq]
      exact timely_runErrand h ticket
  | ring task hyields heq =>
      rw [heq]
      exact timely_ring h hyields task hR
  | emit _ _ _ heq | quit heq | giveUp heq | endOfOutput _ heq | answer _ _ _ heq | write heq
  | failWriting heq =>
      rw [heq]
      exact timely_of_eq h rfl rfl (Or.inl rfl)

/-! ## Runs -/

/-- While the worker runs nothing happens after the deadline of a timer that is armed. -/
def Punctual (events : History) : Prop :=
  ∀ past now e later, events = past ++ (now, e) :: later → (new.play past).phase = .running →
    ∀ key since wait, Armed (new.play past).deeds key since wait → now ≤ dueAt since wait

theorem timely_play (events : History) : Timely (· ≤ ·) (new.play events) := by
  induction events using List.reverseRecOn with
  | nil => exact timely_new
  | append_singleton events e ih =>
      rw [play_append]
      exact timely_step ih e.2 fun _ _ _ _ hle => hle

theorem punctual_of_append {past later : History} (h : Punctual (past ++ later)) : Punctual past :=
  fun before now e after heq => h before now e (after ++ later) (by rw [heq]; simp)

/-- When nothing is late, a timer that wakes its room does so at its deadline. -/
theorem timely_play_punctual {events : History} (h : Punctual events) :
    Timely (· = ·) (new.play events) := by
  induction events using List.reverseRecOn with
  | nil => exact timely_new
  | append_singleton events e ih =>
      rw [play_append]
      have htimely := ih (punctual_of_append h)
      refine timely_step htimely e.2 fun key deadline hrunning hdeadline hle => ?_
      obtain ⟨since, wait, harmed, rfl⟩ := (htimely.armed key deadline).mp hdeadline
      exact Nat.le_antisymm hle (h events e.1 e.2 [] rfl hrunning key since wait harmed)

/-- **A timer that is armed and due can fire**, and wakes its room. -/
theorem exists_ring (h : Timely R w) (hrunning : w.phase = .running)
    (harmed : Armed w.deeds key since wait) (hdue : dueAt since wait ≤ now) :
    ∃ task taken, (w.step (now, .ring task)).deeds
      = w.deeds ++ [(now, .ring key), (now, .call (.timer key) (wakeUp key) taken)] := by
  have hyields : w.yields = true := by simp [yields, hrunning]
  obtain ⟨task, ht⟩ := Timers.task_of_deadline? h.matched
    ((h.armed key _).mpr ⟨since, wait, harmed, rfl⟩)
  have hring : w.step (now, .ring task) = w.ring now task := by
    simp only [step]
    rw [if_pos hyields]
  refine ⟨task, ?_⟩
  rw [hring]
  unfold ring
  rw [ht]
  dsimp only
  rw [if_pos hdue]
  have hreaches : ({ w with timers := w.timers.wake task key }.note now (.ring key)).reaches = true := by
    simp [reaches, note, hrunning]
  unfold call
  rw [if_pos hreaches]
  split
  · exact ⟨true, by simp [note, wakeUp]⟩
  · exact ⟨false, by simp [note, wakeUp]⟩

/-- **A timer that nothing else is done to wakes its room at its deadline**, when nothing is late and
the worker runs on past the deadline. -/
theorem wakes_onTime {past middle rest : History} {e : Event}
    (h : Punctual (past ++ middle ++ (now, e) :: rest))
    (harmed : Armed (new.play past).deeds key since wait)
    (hrunning : (new.play (past ++ middle)).phase = .running) (hpast : dueAt since wait < now)
    {added : Deeds} (hadded : (new.play (past ++ middle)).deeds = (new.play past).deeds ++ added)
    (hleft : ∀ d ∈ added, d.2.touches key = true → d.2 = .ring key) :
    ∃ taken, (dueAt since wait, .call (.timer key) (wakeUp key) taken) ∈ added := by
  have htimely := timely_play_punctual (punctual_of_append h)
  have hover : ¬ Armed (new.play (past ++ middle)).deeds key since wait := fun hlate =>
    Nat.not_lt.mpr (h (past ++ middle) now e rest rfl hrunning key since wait hlate) hpast
  obtain ⟨before, after, hdeeds, hafter⟩ := harmed
  -- something has been done to the timer, and the first of that is that it has fired
  obtain ⟨d, hfirst⟩ : ∃ d, added.find? (fun d => d.2.touches key) = some d := by
    rw [← Option.isSome_iff_exists, List.find?_isSome]
    by_contra hnone
    refine hover ⟨before, after ++ added, by rw [hadded, hdeeds]; simp, fun d hd => ?_⟩
    rcases List.mem_append.mp hd with hold | hnew
    · exact hafter d hold
    · exact Bool.eq_false_iff.mpr fun htouch => hnone ⟨d, hnew, htouch⟩
  obtain ⟨htouch, mid, more, rfl, hmid⟩ := List.find?_eq_some_iff_append.mp hfirst
  obtain ⟨moment, deed⟩ := d
  obtain rfl : deed = .ring key := hleft (moment, deed) (by simp) htouch
  rw [hdeeds] at hadded
  have hsplit : (new.play (past ++ middle)).deeds
      = (before ++ (since, .arm key wait) :: (after ++ mid)) ++ (moment, .ring key) :: more := by
    rw [hadded]
    simp
  have harmed : Armed (before ++ (since, .arm key wait) :: (after ++ mid)) key since wait := by
    refine ⟨before, after ++ mid, rfl, fun d hd => ?_⟩
    rcases List.mem_append.mp hd with hold | hnew
    · exact hafter d hold
    · simpa using hmid d hnew
  rcases htimely.answered _ _ _ _ hsplit with ⟨d, hd, hclear⟩ | ⟨taken, more', rfl⟩
  · have hmem : d ∈ (new.play (past ++ middle)).deeds := by
      rw [hsplit]
      exact List.mem_append_left _ hd
    exact absurd hclear (htimely.stayed (Or.inr (Or.inl hrunning)) d hmem)
  · obtain ⟨_, _, past', since', wait', heq, harmed', hdue⟩ := htimely.orderly
      ((before ++ (since, .arm key wait) :: (after ++ mid)) ++ [(moment, .ring key)])
      (moment, .call (.timer key) (wakeUp key) taken) more' (by rw [hsplit]; simp)
    obtain ⟨rfl, _⟩ := List.append_inj' heq rfl
    obtain ⟨rfl, rfl⟩ := armed_unique harmed harmed'
    exact ⟨taken, by rw [hdue]; simp⟩

/-- Between two firings of a timer it is armed. -/
theorem armed_between (h : Orderly R deeds) {before mid after : Deeds} {now' : Moment}
    (heq : deeds = before ++ (now, .ring key) :: mid ++ (now', .ring key) :: after) :
    ∃ since wait, (since, .arm key wait) ∈ mid := by
  obtain ⟨since, wait, ⟨before', after', hsplit, hafter⟩, _⟩ := h _ _ _ heq
  refine ⟨since, wait, ?_⟩
  rcases cut_cut hsplit with ⟨_, hsame, _⟩ | ⟨as, rfl, hmid⟩ | ⟨bs, rfl, rfl⟩
  · cases hsame
  · simp [hmid]
  · have hring := hafter (now, .ring key) (by simp)
    simp [Deed.touches] at hring

/-- A timer that has been cancelled and is armed again has been armed since. -/
theorem armed_since {before after : Deeds} {armed : Bool}
    (heq : deeds = before ++ (now, .disarm key armed) :: after) (h : Armed deeds key since wait) :
    (since, .arm key wait) ∈ after := by
  obtain ⟨before', after', hsplit, hafter⟩ := h
  rw [heq] at hsplit
  rcases cut_cut hsplit with ⟨_, hsame, _⟩ | ⟨as, rfl, rfl⟩ | ⟨bs, rfl, rfl⟩
  · cases hsame
  · simp
  · have hdisarm := hafter (now, .disarm key armed) (by simp)
    simp [Deed.touches] at hdisarm

end Worker

end GameHall
