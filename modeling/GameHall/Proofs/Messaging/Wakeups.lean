import GameHall.Messaging.Waiting
import Mathlib.Data.List.Induction

/-!
# No wake-up is lost

However the steps of waits and of other parties at a router are mixed, a wait that is blocked while no
notification is due has nothing to see: replies are taken, the request has not been given up, and no
reply is there. And what ends a wait is what the router held when the wait looked at it for the last
time, or the deadline of the wait itself (`Waiting.heeded_run`).

The invariant is that a notification is due whenever a blocked wait would see something (`Watched`). A
party that changes the router so that there is something to see has taken on a duty, and a wait that
becomes blocked has just looked.
-/

namespace GameHall

/-! ## What a wait sees -/

namespace Router

variable (r : Router)

theorem outcome?_eq_none_iff :
    r.outcome? = none ↔ r.accepting = true ∧ r.aborted = false ∧ r.reply = none := by
  unfold outcome?
  cases r.accepting <;> cases r.aborted <;> simp

theorem outcome?_eq_ready_iff (p : Octets) :
    r.outcome? = some (.ready p) ↔ r.accepting = true ∧ r.aborted = false ∧ r.reply = some p := by
  unfold outcome?
  cases r.accepting <;> cases r.aborted <;> simp

theorem outcome?_eq_cancelled_iff :
    r.outcome? = some .cancelled ↔ r.accepting = false ∨ r.aborted = true := by
  unfold outcome?
  cases r.accepting <;> cases r.aborted <;> simp

theorem outcome?_ne_notReady : r.outcome? ≠ some .notReady := by
  unfold outcome?
  cases r.accepting <;> cases r.aborted <;> simp

/-- A new request leaves nothing to see but that replies are not taken. -/
theorem outcome?_expect (now : Moment) (id timeout : Int32) :
    (r.expect now id timeout).outcome? = if r.accepting then none else some .cancelled := by
  unfold outcome? expect
  cases r.accepting <;> rfl

/-- A record that is not kept leaves what there is to see. -/
theorem outcome?_hear {now : Moment} {record : Record} (h : r.keeps now record = false) :
    (r.hear now record).2.outcome? = r.outcome? := by
  unfold hear
  split
  · rfl
  rename_i hnotification
  split
  · rename_i hreply
    split
    · rename_i hawaited
      split
      · rename_i htime
        -- this is the reply that would be kept
        rw [Bool.and_eq_true_iff] at hawaited
        simp [keeps, hnotification, hreply, hawaited.1, hawaited.2, htime] at h
      · rfl
    · rfl
  · split <;> rfl

theorem outcome?_accept (h : r.outcome? = none) : (r.setAccepting true).outcome? = none := by
  obtain ⟨_, haborted, hreply⟩ := r.outcome?_eq_none_iff.mp h
  exact (outcome?_eq_none_iff _).mpr ⟨rfl, haborted, hreply⟩

end Router

/-! ## One wait -/

namespace Wait

variable {r : Router} {now : Moment} {w : Wait}

theorem next_registered (r : Router) (now deadline : Moment) (notified : Bool) :
    (⟨deadline, .registered notified⟩ : Wait).next r now = match r.outcome? with
      | some outcome => ⟨deadline, .done outcome⟩
      | none => ⟨deadline, .sleeping notified⟩ := rfl

theorem next_timing (r : Router) (now deadline : Moment) (notified : Bool) :
    (⟨deadline, .timing notified⟩ : Wait).next r now =
      if deadline ≤ now then ⟨deadline, .done .notReady⟩ else ⟨deadline, .sleeping notified⟩ := rfl

/-- A wait that has been notified is not blocked. -/
theorem isBlocked_notify (w : Wait) : w.notify.isBlocked = false := by
  obtain ⟨deadline, phase⟩ := w
  cases phase <;> rfl

theorem deadline_notify (w : Wait) : w.notify.deadline = w.deadline := by
  obtain ⟨deadline, phase⟩ := w
  cases phase <;> rfl

theorem outcome?_notify (w : Wait) : w.notify.outcome? = w.outcome? := by
  obtain ⟨deadline, phase⟩ := w
  cases phase <;> rfl

/-- A wait that has ended stays as it is. -/
theorem notify_of_outcome? {outcome : Router.Outcome} (h : w.outcome? = some outcome) :
    w.notify = w := by
  obtain ⟨deadline, phase⟩ := w
  cases phase with
  | done => rfl
  | entering | registered | sleeping | timing => cases h

theorem deadline_next (r : Router) (now : Moment) (w : Wait) : (w.next r now).deadline = w.deadline := by
  obtain ⟨deadline, phase⟩ := w
  cases phase with
  | entering => rfl
  | done => rfl
  | sleeping notified => cases notified <;> rfl
  | registered notified =>
      rw [next_registered]
      split <;> rfl
  | timing notified =>
      rw [next_timing]
      split <;> rfl

theorem next_of_outcome? {outcome : Router.Outcome} (h : w.outcome? = some outcome) (r : Router)
    (now : Moment) : w.next r now = w := by
  obtain ⟨deadline, phase⟩ := w
  cases phase with
  | done => rfl
  | entering | registered | sleeping | timing => cases h

/-- A wait that is blocked was so, or has looked and seen nothing. -/
theorem blocked_of_next (h : (w.next r now).isBlocked = true) :
    w.isBlocked = true ∨ r.outcome? = none := by
  obtain ⟨deadline, phase⟩ := w
  cases phase with
  | entering => cases h
  | done => cases h
  | registered notified =>
      cases hlook : r.outcome? with
      | none => exact Or.inr rfl
      | some outcome =>
          rw [next_registered, hlook] at h
          cases h
  | sleeping notified =>
      cases notified with
      | true => cases h
      | false => exact Or.inl rfl
  | timing notified =>
      cases notified with
      | false => exact Or.inl rfl
      | true =>
          rw [next_timing] at h
          split at h <;> cases h

/-- Why a wait may end with an outcome: it is about to look at the router and sees it there, or it is
about to look at the clock and its deadline has come. -/
def Cause (r : Router) (now : Moment) (w : Wait) : Router.Outcome → Prop
  | .ready p => (∃ notified, w.phase = .registered notified)
    ∧ r.accepting = true ∧ r.aborted = false ∧ r.reply = some p
  | .cancelled => (∃ notified, w.phase = .registered notified)
    ∧ (r.accepting = false ∨ r.aborted = true)
  | .notReady => (∃ notified, w.phase = .timing notified) ∧ w.deadline ≤ now

theorem cause_of_look {outcome : Router.Outcome} {notified : Bool}
    (hphase : w.phase = .registered notified) (h : r.outcome? = some outcome) :
    Cause r now w outcome := by
  cases outcome with
  | ready p => exact ⟨⟨notified, hphase⟩, (r.outcome?_eq_ready_iff p).mp h⟩
  | cancelled => exact ⟨⟨notified, hphase⟩, r.outcome?_eq_cancelled_iff.mp h⟩
  | notReady => exact absurd h r.outcome?_ne_notReady

/-- A wait that ends has its cause. -/
theorem cause_of_next {outcome : Router.Outcome} (hbefore : w.outcome? = none)
    (h : (w.next r now).outcome? = some outcome) : Cause r now w outcome := by
  obtain ⟨deadline, phase⟩ := w
  cases phase with
  | entering => cases h
  | done => cases hbefore
  | registered notified =>
      cases hlook : r.outcome? with
      | none =>
          rw [next_registered, hlook] at h
          cases h
      | some outcome' =>
          rw [next_registered, hlook] at h
          cases h
          exact cause_of_look rfl hlook
  | sleeping notified => cases notified <;> cases h
  | timing notified =>
      rw [next_timing] at h
      split at h
      · rename_i hdeadline
        cases h
        exact ⟨⟨notified, rfl⟩, hdeadline⟩
      · cases h

end Wait

namespace Waiting

/-! ## Runs -/

/-- A router that has just been made, and all that happens at it. -/
def run (start : Moment) (events : History) : Waiting := (new start).play events

theorem play_append (s : Waiting) (events later : History) :
    s.play (events ++ later) = (s.play events).play later := List.foldl_append

theorem run_snoc (start : Moment) (events : History) (e : Moment × Action) :
    run start (events ++ [e]) = (run start events).act e := play_append _ _ _

/-- Some party has still to notify the waits. -/
def IsDue (s : Waiting) : Prop := .abort ∈ s.duties ∨ .notify ∈ s.duties

/-- Whether something that happens notifies the waits. -/
def notifies (s : Waiting) : Action → Bool
  | .perform i => s.duties[i]? = some .notify
  | _ => false

/-! ## One step -/

variable {s : Waiting} {now : Moment}

theorem waits_discharge (s : Waiting) (now : Moment) (duty : Duty) :
    (s.discharge now duty).waits = if duty = .notify then s.waits.map Wait.notify else s.waits := by
  cases duty <;> rfl

theorem act_perform {i : Nat} {duty : Duty} (h : s.duties[i]? = some duty) :
    s.act (now, .perform i) = { s with duties := s.duties.eraseIdx i }.discharge now duty := by
  rw [act, h]

theorem act_perform_none {i : Nat} (h : s.duties[i]? = none) : s.act (now, .perform i) = s := by
  rw [act, h]

theorem waits_perform (s : Waiting) (now : Moment) (i : Nat) :
    (s.act (now, .perform i)).waits
      = if s.notifies (.perform i) then s.waits.map Wait.notify else s.waits := by
  cases hduty : s.duties[i]? with
  | none => simp [act, notifies, hduty]
  | some duty => simp [act, notifies, hduty, waits_discharge]

/-- **What a step makes of a wait**: it goes on, is notified, or stays as it is. -/
theorem wait_act {i : Nat} {w : Wait} (hw : s.waits[i]? = some w) (now : Moment) (a : Action) :
    (s.act (now, a)).waits[i]? = some (if a = .goOn i then w.next s.router now
      else if s.notifies a then w.notify else w) := by
  cases a with
  | request | hear | abort => exact hw
  | setAccepting accepting => cases accepting <;> exact hw
  | perform j =>
      rw [waits_perform, if_neg (show ¬ Action.perform j = .goOn i from nofun)]
      split
      · rw [List.getElem?_map, hw]
        rfl
      · exact hw
  | enter span =>
      have hlt : i < s.waits.length := (List.getElem?_eq_some_iff.mp hw).1
      exact (List.getElem?_append_left hlt).trans hw
  | goOn j =>
      by_cases hij : j = i
      · subst hij
        rw [if_pos rfl]
        simp [act, hw]
      · rw [if_neg fun h => hij (Action.goOn.inj h)]
        simp [act, hw, hij, notifies]

/-- No wait is ever forgotten, and one that is new begins. -/
theorem wait_of_act {i : Nat} {w' : Wait} {e : Moment × Action} (hw' : (s.act e).waits[i]? = some w') :
    (∃ w, s.waits[i]? = some w) ∨ ∃ span, e.2 = .enter span ∧ i = s.waits.length
      ∧ w' = ⟨e.1 + span.nanoseconds, .entering⟩ := by
  obtain ⟨now, a⟩ := e
  have hlt : i < (s.act (now, a)).waits.length := (List.getElem?_eq_some_iff.mp hw').1
  have hold (h : i < s.waits.length) : ∃ w, s.waits[i]? = some w :=
    ⟨s.waits[i], List.getElem?_eq_getElem h⟩
  -- only `enter` makes a wait, behind all others
  cases a with
  | request | hear | abort => exact Or.inl (hold hlt)
  | setAccepting accepting => cases accepting <;> exact Or.inl (hold hlt)
  | perform j =>
      rw [waits_perform] at hlt
      refine Or.inl (hold ?_)
      split at hlt
      · rwa [List.length_map] at hlt
      · exact hlt
  | goOn j => exact Or.inl (hold (by rwa [act, List.length_modify] at hlt))
  | enter span =>
      by_cases h : i < s.waits.length
      · exact Or.inl (hold h)
      · refine Or.inr ⟨span, rfl, ?_⟩
        have heq : i = s.waits.length := by
          rw [act, List.length_append, List.length_singleton] at hlt
          omega
        subst heq
        simp [act] at hw'
        exact ⟨rfl, hw'.symm⟩

/-! ## No wake-up is lost -/

/-- A notification is due if a wait that is blocked has something to see. -/
def Watched (s : Waiting) : Prop :=
  ∀ w ∈ s.waits, w.isBlocked = true → s.router.outcome? = none ∨ s.IsDue

theorem watched_new (start : Moment) : Watched (new start) := by
  intro w hw
  cases hw

/-- A duty that is not done stays. -/
theorem mem_eraseIdx_of_ne {duties : List Duty} {i : Nat} {duty duty' : Duty}
    (hi : duties[i]? = some duty) (hmem : duty' ∈ duties) (hne : duty' ≠ duty) :
    duty' ∈ duties.eraseIdx i := by
  obtain ⟨j, hj⟩ := List.mem_iff_getElem?.mp hmem
  refine List.mem_eraseIdx_iff_getElem?.mpr ⟨j, fun heq => hne ?_, hj⟩
  subst heq
  exact Option.some.inj (hj.symm.trans hi)

/-- A duty that is done keeps the waits watched, since one that ends waits leaves another. -/
theorem watched_discharge (h : Watched s) (now : Moment) {i : Nat} {duty : Duty}
    (hduty : s.duties[i]? = some duty) :
    Watched ({ s with duties := s.duties.eraseIdx i }.discharge now duty) := by
  cases duty with
  | expect id timeout =>
      intro w hw hblocked
      rcases h w hw hblocked with hnone | hdue | hdue
      · have haccepting := (s.router.outcome?_eq_none_iff.mp hnone).1
        refine Or.inl ((s.router.outcome?_expect now id timeout).trans ?_)
        rw [haccepting]
        rfl
      · exact Or.inr (Or.inl (mem_eraseIdx_of_ne hduty hdue nofun))
      · exact Or.inr (Or.inr (mem_eraseIdx_of_ne hduty hdue nofun))
  | abort => exact fun _ _ _ => Or.inr (Or.inr List.mem_concat_self)
  | notify =>
      intro w hw hblocked
      obtain ⟨v, _, rfl⟩ := List.mem_map.mp hw
      rw [v.isBlocked_notify] at hblocked
      cases hblocked

/-- **Every step keeps the waits watched.** -/
theorem watched_act (h : Watched s) (e : Moment × Action) : Watched (s.act e) := by
  obtain ⟨now, a⟩ := e
  cases a with
  | request timeout =>
      intro w hw hblocked
      -- a duty that was pending still is, at the front of the list
      rcases h w hw hblocked with hnone | hdue | hdue
      · exact Or.inl hnone
      · exact Or.inr (Or.inl (List.mem_append_left _ hdue))
      · exact Or.inr (Or.inr (List.mem_append_left _ hdue))
  | hear record =>
      intro w hw hblocked
      cases hkeeps : s.router.keeps now record with
      | true =>
          refine Or.inr (Or.inr ?_)
          -- a record that is kept leaves a duty to notify all
          rw [act, if_pos hkeeps]
          exact List.mem_concat_self
      | false =>
          rw [act, hkeeps]
          rcases h w hw hblocked with hnone | hdue
          · exact Or.inl ((s.router.outcome?_hear hkeeps).trans hnone)
          · exact Or.inr hdue
  | abort => exact fun _ _ _ => Or.inr (Or.inr List.mem_concat_self)
  | setAccepting accepting =>
      cases accepting with
      | false => exact fun _ _ _ => Or.inr (Or.inl List.mem_concat_self)
      | true =>
          intro w hw hblocked
          rcases h w hw hblocked with hnone | hdue
          · exact Or.inl (s.router.outcome?_accept hnone)
          · exact Or.inr hdue
  | perform i =>
      cases hduty : s.duties[i]? with
      | none =>
          rw [act_perform_none hduty]
          exact h
      | some duty =>
          rw [act_perform hduty]
          exact watched_discharge h now hduty
  | enter span =>
      intro w hw hblocked
      rcases List.mem_append.mp hw with hw | hw
      · exact h w hw hblocked
      · rw [List.mem_singleton.mp hw] at hblocked
        cases hblocked
  | goOn i =>
      intro w hw hblocked
      obtain ⟨j, hj⟩ := List.mem_iff_getElem?.mp hw
      rcases wait_of_act hj with ⟨v, hv⟩ | ⟨span, hspan, _⟩
      · have hvw := (wait_act hv now (.goOn i)).symm.trans hj
        have hmem : v ∈ s.waits := List.mem_of_getElem? hv
        split at hvw
        · obtain rfl := Option.some.inj hvw
          -- the wait was blocked before, or has just looked and found no outcome
          rcases Wait.blocked_of_next hblocked with hbefore | hnone
          · exact h v hmem hbefore
          · exact Or.inl hnone
        · obtain rfl := Option.some.inj hvw
          exact h v hmem hblocked
      · cases hspan

theorem watched_play (h : Watched s) (events : History) : Watched (s.play events) := by
  induction events generalizing s with
  | nil => exact h
  | cons e events ih => exact ih (watched_act h e)

/-! ## Settling is a run -/

theorem play_goOn (s : Waiting) (now : Moment) (i n : Nat) :
    s.play (List.replicate n (now, .goOn i)) = { s with
      waits := s.waits.modify i fun w => (List.range n).foldl (fun w _ => w.next s.router now) w } := by
  induction n with
  | zero =>
      have hid : s.waits.modify i (fun w => w) = s.waits := List.modify_id i s.waits
      exact congrArg (fun waits => { s with waits := waits }) hid.symm
  | succ n ih =>
      rw [List.replicate_succ', play_append, ih, List.range_succ]
      simp only [play, act, List.foldl_cons, List.foldl_nil, List.modify_modify_eq, List.foldl_append]
      rfl

theorem play_settle (s : Waiting) (now : Moment) (n : Nat) :
    s.play ((List.range n).flatMap fun i => List.replicate 6 (now, .goOn i)) = { s with
      waits := (List.range n).foldl (fun waits i => waits.modify i (Wait.settle s.router now)) s.waits } := by
  induction n with
  | zero => rfl
  | succ n ih =>
      rw [List.range_succ, List.flatMap_append, play_append, ih, List.flatMap_singleton, play_goOn,
        List.foldl_append]
      rfl

/-- To change every element of a list in its place is to change them all. -/
theorem foldl_modify {α : Type} (f : α → α) (l : List α) :
    (List.range l.length).foldl (fun l i => l.modify i f) l = l.map f := by
  have hget (n j : Nat) : ((List.range n).foldl (fun l i => l.modify i f) l)[j]?
      = if j < n then l[j]?.map f else l[j]? := by
    induction n with
    | zero => rfl
    | succ n ih =>
        rw [List.range_succ, List.foldl_append, List.foldl_cons, List.foldl_nil, List.getElem?_modify, ih]
        by_cases hn : n = j
        · subst hn
          simp
        · have hlt : j < n + 1 ↔ j < n := by omega
          simp [hn, hlt]
  refine List.ext_getElem? fun j => ?_
  rw [hget, List.getElem?_map]
  split
  · rfl
  · rename_i hj
    rw [List.getElem?_eq_none (Nat.le_of_not_lt hj)]
    rfl

/-- **To settle is a run** of its own, at one moment. -/
theorem exists_play_settle (s : Waiting) (now : Moment) :
    ∃ events : History, (∀ e ∈ events, e.1 = now) ∧ s.play events = s.settle now := by
  obtain ⟨duties, hduties⟩ :
      ∃ duties : History, duties = List.replicate (2 * s.duties.length) (now, .perform 0) := ⟨_, rfl⟩
  refine ⟨duties ++ (List.range (s.play duties).waits.length).flatMap fun i =>
    List.replicate 6 (now, .goOn i), ?_, ?_⟩
  · intro e he
    rcases List.mem_append.mp he with he | he
    · rw [hduties] at he
      rw [List.eq_of_mem_replicate he]
    · obtain ⟨i, _, hi⟩ := List.mem_flatMap.mp he
      rw [List.eq_of_mem_replicate hi]
  · rw [play_append, play_settle, foldl_modify, hduties]
    rfl

/-! ## How waits end -/

/-- A wait that has ended has ended with a step of its own. -/
theorem exists_end {start : Moment} {events : History} {i : Nat} {w : Wait}
    {outcome : Router.Outcome} (hw : (run start events).waits[i]? = some w)
    (hend : w.outcome? = some outcome) :
    ∃ past now later v, events = past ++ (now, .goOn i) :: later
      ∧ (run start past).waits[i]? = some v ∧ v.outcome? = none
      ∧ v.next (run start past).router now = w := by
  induction events using List.reverseRecOn generalizing w with
  | nil => cases hw
  | append_singleton events e ih =>
      have hearlier (h : (run start events).waits[i]? = some w) :
          ∃ past now later v, events ++ [e] = past ++ (now, .goOn i) :: later
            ∧ (run start past).waits[i]? = some v ∧ v.outcome? = none
            ∧ v.next (run start past).router now = w := by
        obtain ⟨past, now, later, v, rfl, hv⟩ := ih h hend
        exact ⟨past, now, later ++ [e], v, List.append_assoc .., hv⟩
      rw [run_snoc] at hw
      rcases wait_of_act hw with ⟨v, hv⟩ | ⟨span, _, _, rfl⟩
      · obtain ⟨now, a⟩ := e
        have hvw := Option.some.inj ((wait_act hv now a).symm.trans hw)
        cases hbefore : v.outcome? with
        | some earlier =>
            -- it had ended before
            rw [Wait.next_of_outcome? hbefore, Wait.notify_of_outcome? hbefore, ite_self, ite_self] at hvw
            exact hearlier (hvw ▸ hv)
        | none =>
            split at hvw
            · rename_i ha
              subst ha
              exact ⟨events, now, [], v, rfl, hv, hbefore, hvw⟩
            · split at hvw
              · rw [← hvw, v.outcome?_notify, hbefore] at hend
                cases hend
              · exact hearlier (hvw ▸ hv)
      · cases hend

/-- A wait has the deadline that it began with. -/
theorem exists_enter {start : Moment} {events : History} {i : Nat} {w : Wait}
    (hw : (run start events).waits[i]? = some w) :
    ∃ past now span later, events = past ++ (now, .enter span) :: later
      ∧ (run start past).waits.length = i ∧ w.deadline = now + span.nanoseconds := by
  -- from the last step backwards, for a step may let the wait go on
  induction events using List.reverseRecOn generalizing w with
  | nil => cases hw
  | append_singleton events e ih =>
      rw [run_snoc] at hw
      obtain ⟨now, a⟩ := e
      rcases wait_of_act hw with ⟨v, hv⟩ | ⟨span, rfl, hi, rfl⟩
      · have hvw := Option.some.inj ((wait_act hv now a).symm.trans hw)
        have hdeadline : w.deadline = v.deadline := by
          rw [← hvw]
          split
          · exact v.deadline_next ..
          · split
            · exact v.deadline_notify
            · rfl
        obtain ⟨past, moment, span, later, rfl, hlength, hv'⟩ := ih hv
        exact ⟨past, moment, span, later ++ [(now, a)], List.append_assoc .., hlength,
          hdeadline.trans hv'⟩
      · exact ⟨events, now, span, [], rfl, hi.symm, rfl⟩

/-- What waits may rely on. -/
structure Heeded (start : Moment) (events : History) : Prop where
  /-- A wait that is blocked while no notification is due has nothing to see. -/
  blocked : ¬ (run start events).IsDue → ∀ w ∈ (run start events).waits, w.isBlocked = true →
    (run start events).router.accepting = true ∧ (run start events).router.aborted = false
      ∧ (run start events).router.reply = none
  /-- A wait that has ended has ended with a step of its own, for which there was cause when it took
  it. -/
  ended : ∀ i w outcome, (run start events).waits[i]? = some w → w.outcome? = some outcome →
    ∃ past now later v, events = past ++ (now, .goOn i) :: later
      ∧ (run start past).waits[i]? = some v ∧ v.deadline = w.deadline
      ∧ Wait.Cause (run start past).router now v outcome
  /-- The deadline of a wait is as long after its beginning as it is willing to wait. -/
  deadline : ∀ i w, (run start events).waits[i]? = some w →
    ∃ past now span later, events = past ++ (now, .enter span) :: later
      ∧ (run start past).waits.length = i ∧ w.deadline = now + span.nanoseconds

/-- **No wake-up is lost**, and every wait ends with what it saw when it looked for the last time, or at
its own deadline. -/
theorem heeded_run (start : Moment) (events : History) : Heeded start events where
  blocked := by
    intro hdue w hw hblocked
    rcases watched_play (watched_new start) events w hw hblocked with hnone | h
    · exact (Router.outcome?_eq_none_iff _).mp hnone
    · exact absurd h hdue
  ended := by
    intro i w outcome hw hend
    obtain ⟨past, now, later, v, rfl, hv, hbefore, rfl⟩ := exists_end hw hend
    exact ⟨past, now, later, v, rfl, hv, (v.deadline_next ..).symm, Wait.cause_of_next hbefore hend⟩
  deadline := fun _ _ hw => exists_enter hw

/-- A reply comes after a wait has looked, and is notified while the wait looks at the clock. -/
example : ((run 0 [(0, .request (-1)), (0, .perform 0), (1, .enter ⟨5⟩), (1, .goOn 0), (1, .goOn 0),
    (2, .hear ⟨1, Mask.reply, [], [7], none⟩), (3, .goOn 0), (3, .perform 0), (4, .goOn 0),
    (4, .goOn 0), (4, .goOn 0), (4, .goOn 0)]).waits.map Wait.outcome?) = [some (.ready [7])] := by
  decide +kernel

end Waiting

end GameHall
