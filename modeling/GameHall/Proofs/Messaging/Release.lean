import GameHall.Proofs.Messaging.Wakeups

/-!
# Which waits a given-up request releases

To give up the awaited request notifies all waits, and what they see then is up to the router. They end
if the latest request has been answered or given up, or while replies are not taken. But if no request
is awaited there is nothing to be given up, and a new request makes the router forget that the one
before was. A wait that looks then goes back to sleep until its own deadline.

`Waiting.abort_releases` tells the two cases apart, and `Waiting.not_always_released` has a wait of each
kind that sleeps on.

A wait that has been notified is at most four steps from its end while there is something to see
(`Wait.left_next`); a history is followed for one wait, by induction on it (`awake_play`).
-/

namespace GameHall

namespace Router

variable (r : Router)

/-- Whether the latest request has been answered or given up. -/
def isOver (r : Router) : Bool := r.aborted || r.reply.isSome

theorem isSome_outcome?_iff : r.outcome?.isSome = true ↔ r.accepting = false ∨ r.isOver = true := by
  unfold outcome? isOver
  cases r.accepting <;> cases r.aborted <;> simp

theorem isOver_abort : r.abort.isOver = true ↔ r.expected.isSome = true ∨ r.isOver = true := by
  unfold abort
  split
  · rename_i hexpected
    exact iff_of_true rfl (Or.inl hexpected)
  · rename_i hexpected
    simp [hexpected]

theorem accepting_abort : r.abort.accepting = r.accepting := by
  unfold abort
  split <;> rfl

theorem accepting_hear (now : Moment) (record : Record) :
    (r.hear now record).2.accepting = r.accepting := by
  unfold hear
  repeat' split
  all_goals rfl

/-- No record brings back a request that is over. -/
theorem isOver_hear (h : r.isOver = true) (now : Moment) (record : Record) :
    (r.hear now record).2.isOver = true := by
  unfold hear
  split
  · exact h
  split
  · split
    · split
      · exact Bool.or_true _
      · exact h
    · exact h
  · split <;> exact h

end Router

namespace Wait

variable {r : Router} {now : Moment} {w : Wait}

/-- How many steps a wait is from its end at most, when there is something to see. -/
def left (w : Wait) : Nat :=
  match w.phase with
  | .done _ => 0
  | .registered _ => 1
  | .entering => 2
  | .sleeping _ => 3
  | .timing _ => 4

theorem left_le (w : Wait) : w.left ≤ 4 := by
  unfold left
  split <;> decide

theorem left_notify (w : Wait) : w.notify.left = w.left := by
  obtain ⟨deadline, phase⟩ := w
  cases phase <;> rfl

theorem exists_outcome_of_left (h : w.left = 0) : ∃ outcome, w.outcome? = some outcome := by
  obtain ⟨deadline, phase⟩ := w
  cases phase with
  | done outcome => exact ⟨outcome, rfl⟩
  | entering | registered | sleeping | timing => cases h

/-- **A wait that is not blocked comes nearer to its end** with every step, while there is something to
see and its deadline has not come. -/
theorem left_next (hsee : r.outcome?.isSome = true) (hblocked : w.isBlocked = false)
    (hearly : now < w.deadline) :
    (w.next r now).isBlocked = false ∧ (w.next r now).left = w.left - 1 := by
  obtain ⟨deadline, phase⟩ := w
  cases phase with
  | entering => exact ⟨rfl, rfl⟩
  | done => exact ⟨rfl, rfl⟩
  | registered notified =>
      obtain ⟨outcome, hlook⟩ := Option.isSome_iff_exists.mp hsee
      rw [next_registered, hlook]
      exact ⟨rfl, rfl⟩
  | sleeping notified =>
      cases notified with
      | true => exact ⟨rfl, rfl⟩
      | false => cases hblocked
  | timing notified =>
      cases notified with
      | true =>
          rw [next_timing, if_neg (Nat.not_le.mpr hearly)]
          exact ⟨rfl, rfl⟩
      | false => cases hblocked

/-- A wait does not give up before its deadline. -/
theorem patient_next (h : w.outcome? ≠ some .notReady) (hearly : now < w.deadline) :
    (w.next r now).outcome? ≠ some .notReady := by
  intro hend
  cases hbefore : w.outcome? with
  | none => exact absurd (cause_of_next hbefore hend).2 (Nat.not_le.mpr hearly)
  | some outcome =>
      rw [next_of_outcome? hbefore] at hend
      exact h hend

/-- A wait that sees nothing ends at its deadline only. -/
theorem expires_of_next (hsee : r.outcome? = none) (hbefore : w.outcome? = none)
    {outcome : Router.Outcome} (hend : (w.next r now).outcome? = some outcome) :
    outcome = .notReady ∧ w.deadline ≤ now := by
  have hcause := cause_of_next hbefore hend
  obtain ⟨haccepting, haborted, hreply⟩ := r.outcome?_eq_none_iff.mp hsee
  cases outcome with
  | ready p =>
      obtain ⟨_, _, _, hready⟩ := hcause
      rw [hreply] at hready
      cases hready
  | cancelled =>
      obtain ⟨_, hcancelled⟩ := hcause
      rw [haccepting, haborted] at hcancelled
      rcases hcancelled with h | h <;> cases h
  | notReady => exact ⟨rfl, hcause.2⟩

end Wait

namespace Waiting

variable {s : Waiting} {i : Nat} {w : Wait} {later : History}

/-! ## One wait in a history -/

/-- Something holds of every step, with the state that it is taken in. -/
def Always (P : Waiting → Moment × Action → Prop) : Waiting → History → Prop
  | _, [] => True
  | s, e :: later => P s e ∧ Always P (s.act e) later

/-- All this happens before a moment. -/
def Before (deadline : Moment) (later : History) : Prop := ∀ e ∈ later, e.1 < deadline

instance (deadline : Moment) (later : History) : Decidable (Before deadline later) :=
  inferInstanceAs (Decidable (∀ e ∈ later, e.1 < deadline))

/-- What no step of a wait changes, and no notification, lasts. -/
theorem lasts_play {P : Wait → Prop} (hw : s.waits[i]? = some w) (h : P w)
    (hnext : ∀ v, P v → ∀ e ∈ later, ∀ r, P (v.next r e.1)) (hnotify : ∀ v, P v → P v.notify) :
    ∃ w', (s.play later).waits[i]? = some w' ∧ P w' := by
  induction later generalizing s w with
  | nil => exact ⟨w, hw, h⟩
  | cons e later ih =>
      have hlater : ∀ v, P v → ∀ e ∈ later, ∀ r, P (v.next r e.1) :=
        fun v hv e he => hnext v hv e (List.mem_cons_of_mem _ he)
      have hact := wait_act hw e.1 e.2
      split at hact
      · exact ih hact (hnext w h e List.mem_cons_self _) hlater
      · split at hact
        · exact ih hact (hnotify w h) hlater
        · exact ih hact h hlater

/-- A wait does not give up while its deadline has not come. -/
theorem patient_play (hw : s.waits[i]? = some w) (hpatient : w.outcome? ≠ some .notReady)
    (hbefore : Before w.deadline later) :
    ∃ w', (s.play later).waits[i]? = some w' ∧ w'.deadline = w.deadline
      ∧ w'.outcome? ≠ some .notReady := by
  refine lasts_play (P := fun v => v.deadline = w.deadline ∧ v.outcome? ≠ some .notReady) hw
    ⟨rfl, hpatient⟩ ?_ ?_
  · rintro v ⟨hdeadline, hv⟩ e he r
    have hearly : e.1 < v.deadline := hdeadline ▸ hbefore e he
    exact ⟨(v.deadline_next ..).trans hdeadline, Wait.patient_next hv hearly⟩
  · rintro v ⟨hdeadline, hv⟩
    exact ⟨v.deadline_notify.trans hdeadline, v.outcome?_notify ▸ hv⟩

/-- A wait that is not blocked comes nearer to its end by as many steps as it takes. -/
theorem awake_play (hw : s.waits[i]? = some w) (hblocked : w.isBlocked = false)
    (hbefore : Before w.deadline later)
    (hsee : Always (fun s _ => s.router.outcome?.isSome = true) s later) :
    ∃ w', (s.play later).waits[i]? = some w'
      ∧ w'.left ≤ w.left - later.countP fun e => e.2 = .goOn i := by
  -- on the steps that follow; each `goOn` of the wait takes it one step nearer
  induction later generalizing s w with
  | nil => exact ⟨w, hw, Nat.le_refl _⟩
  | cons e later ih =>
      obtain ⟨now, a⟩ := e
      have hnow : now < w.deadline := hbefore _ List.mem_cons_self
      have hlater : Before w.deadline later := fun e he => hbefore e (List.mem_cons_of_mem _ he)
      obtain ⟨hsee, hsees⟩ := hsee
      have hact := wait_act hw now a
      rw [List.countP_cons]
      split at hact
      · rename_i ha
        obtain ⟨hawake, hleft⟩ := Wait.left_next hsee hblocked hnow
        obtain ⟨w', hw', hle⟩ := ih hact hawake (w.deadline_next .. ▸ hlater) hsees
        refine ⟨w', hw', ?_⟩
        simp only [ha, decide_true, if_true]
        omega
      · rename_i ha
        simp only [ha, decide_false, Bool.false_eq_true, if_false, Nat.add_zero]
        split at hact
        · obtain ⟨w', hw', hle⟩ :=
            ih hact w.isBlocked_notify (w.deadline_notify ▸ hlater) hsees
          exact ⟨w', hw', w.left_notify ▸ hle⟩
        · exact ih hact hblocked hlater hsees

/-- A wait that has ended stays as it is, whatever happens. -/
theorem ended_play (hw : s.waits[i]? = some w) {outcome : Router.Outcome}
    (hend : w.outcome? = some outcome) (later : History) : (s.play later).waits[i]? = some w := by
  have hlast : ∃ w', (s.play later).waits[i]? = some w' ∧ w' = w := by
    refine lasts_play (P := fun v => v = w) hw rfl ?_ ?_
    · rintro v rfl e _ r
      exact Wait.next_of_outcome? hend r e.1
    · rintro v rfl
      exact Wait.notify_of_outcome? hend
  obtain ⟨w', hw', rfl⟩ := hlast
  exact hw'

/-- After all this a wait goes on, or it has ended at its deadline. -/
def SleepsOn (deadline : Moment) (later : History) (w : Wait) : Prop :=
  w.outcome? = none ∨ w.outcome? = some .notReady ∧ ∃ e ∈ later, deadline ≤ e.1

theorem sleepsOn_cons {deadline : Moment} (h : SleepsOn deadline later w) (e : Moment × Action) :
    SleepsOn deadline (e :: later) w :=
  h.imp_right fun ⟨hend, e', he', hle⟩ => ⟨hend, e', List.mem_cons_of_mem _ he', hle⟩

/-- A wait ends at its deadline only, while there is nothing to see and nobody changes the router. -/
theorem sleeps_play (hnothing : s.router.outcome? = none)
    (hstill : Always (fun s e => (s.act e).router = s.router) s later)
    (hw : s.waits[i]? = some w) (hbefore : w.outcome? = none) :
    ∃ w', (s.play later).waits[i]? = some w' ∧ SleepsOn w.deadline later w' := by
  induction later generalizing s w with
  | nil => exact ⟨w, hw, Or.inl hbefore⟩
  | cons e later ih =>
      obtain ⟨hrouter, hstill⟩ := hstill
      have hlater : (s.act e).router.outcome? = none := by rw [hrouter, hnothing]
      -- a wait that this step does not end sleeps on
      have hsleeps {v : Wait} (hv : (s.act e).waits[i]? = some v) (hnone : v.outcome? = none)
          (hdeadline : v.deadline = w.deadline) :
          ∃ w', (s.play (e :: later)).waits[i]? = some w' ∧ SleepsOn w.deadline (e :: later) w' := by
        obtain ⟨w', hw', hend⟩ := ih hlater hstill hv hnone
        exact ⟨w', hw', sleepsOn_cons (hdeadline ▸ hend) e⟩
      have hact := wait_act hw e.1 e.2
      split at hact
      · cases hnext : (w.next s.router e.1).outcome? with
        | none => exact hsleeps hact hnext (w.deadline_next ..)
        | some outcome =>
            obtain ⟨rfl, hle⟩ := Wait.expires_of_next hnothing hbefore hnext
            exact ⟨_, ended_play hact hnext later, Or.inr ⟨hnext, e, List.mem_cons_self, hle⟩⟩
      · split at hact
        · exact hsleeps hact (w.outcome?_notify.trans hbefore) w.deadline_notify
        · exact hsleeps hact hbefore rfl

/-! ## What there is to see -/

/-- Whether a request comes to be awaited with something that happens. -/
def expects (s : Waiting) : Action → Bool
  | .perform i =>
    match s.duties[i]? with
    | some (.expect _ _) => true
    | _ => false
  | _ => false

/-- A request that is over stays so until the next one is awaited. -/
theorem isOver_act (h : s.router.isOver = true) {e : Moment × Action}
    (hexpects : s.expects e.2 = false) : (s.act e).router.isOver = true := by
  obtain ⟨now, a⟩ := e
  cases a with
  | request | enter | goOn => exact h
  | hear record => exact s.router.isOver_hear h now record
  | abort => exact s.router.isOver_abort.mpr (Or.inr h)
  | setAccepting accepting => cases accepting <;> exact h
  | perform i =>
      cases hduty : s.duties[i]? with
      | none =>
          rw [act_perform_none hduty]
          exact h
      | some duty =>
          rw [act_perform hduty]
          cases duty with
          | abort => exact s.router.isOver_abort.mpr (Or.inr h)
          | notify => exact h
          | expect id timeout =>
              rw [expects, hduty] at hexpects
              cases hexpects

/-- A router that takes no replies takes none until it is told to. -/
theorem refusing_act (h : s.router.accepting = false) {e : Moment × Action}
    (haccept : e.2 ≠ .setAccepting true) : (s.act e).router.accepting = false := by
  obtain ⟨now, a⟩ := e
  cases a with
  | request | enter | goOn => exact h
  | hear record => exact (s.router.accepting_hear now record).trans h
  | abort => exact s.router.accepting_abort.trans h
  | setAccepting accepting =>
      cases accepting with
      | false => rfl
      | true => exact absurd rfl haccept
  | perform i =>
      cases hduty : s.duties[i]? with
      | none =>
          rw [act_perform_none hduty]
          exact h
      | some duty =>
          rw [act_perform hduty]
          cases duty with
          | abort => exact s.router.accepting_abort.trans h
          | notify | expect => exact h

theorem sees_of_isOver (h : s.router.isOver = true)
    (hlater : Always (fun s e => s.expects e.2 = false) s later) :
    Always (fun s _ => s.router.outcome?.isSome = true) s later := by
  induction later generalizing s with
  | nil => exact trivial
  | cons e later ih =>
      exact ⟨s.router.isSome_outcome?_iff.mpr (Or.inr h), ih (isOver_act h hlater.1) hlater.2⟩

theorem sees_of_refusing (h : s.router.accepting = false)
    (hlater : ∀ e ∈ later, e.2 ≠ .setAccepting true) :
    Always (fun s _ => s.router.outcome?.isSome = true) s later := by
  induction later generalizing s with
  | nil => exact trivial
  | cons e later ih =>
      refine ⟨s.router.isSome_outcome?_iff.mpr (Or.inl h), ?_⟩
      exact ih (refusing_act h (hlater e List.mem_cons_self))
        fun e' he' => hlater e' (List.mem_cons_of_mem _ he')

/-! ## Release -/

/-- A notification is given, and then a wait takes four steps at least. -/
def Runs (s : Waiting) (i : Nat) (later : History) : Prop :=
  ∃ first now j rest, later = first ++ (now, .perform j) :: rest
    ∧ (s.play first).duties[j]? = some .notify ∧ 4 ≤ rest.countP fun e => e.2 = .goOn i

/-- What happens lets every wait end, with the reply or cancelled, that runs before its deadline. -/
def Releases (s : Waiting) (later : History) : Prop :=
  ∀ i w, s.waits[i]? = some w → w.outcome? = none → Runs s i later → Before w.deadline later →
    ∃ w' outcome, (s.play later).waits[i]? = some w' ∧ w'.outcome? = some outcome
      ∧ outcome ≠ .notReady

/-- What happens lets no wait end before its deadline. -/
def Withholds (s : Waiting) (later : History) : Prop :=
  ∀ (i : Nat) (w : Wait), s.waits[i]? = some w → w.outcome? = none →
    ∃ w', (s.play later).waits[i]? = some w' ∧ SleepsOn w.deadline later w'

theorem always_append {P : Waiting → Moment × Action → Prop} {first rest : History}
    (h : Always P s (first ++ rest)) : Always P (s.play first) rest := by
  induction first generalizing s with
  | nil => exact h
  | cons e first ih => exact ih h.2

/-- **While there is something to see, every wait is released.** -/
theorem releases_of_sees (hsee : Always (fun s _ => s.router.outcome?.isSome = true) s later) :
    Releases s later := by
  rintro i w hw hopen ⟨first, now, j, rest, rfl, hduty, hcount⟩ hbefore
  have hpatient : w.outcome? ≠ some .notReady := by
    rw [hopen]
    nofun
  obtain ⟨v, hv, hdeadline, hend⟩ :=
    patient_play hw hpatient fun e he => hbefore e (List.mem_append_left _ he)
  have hrest : Before v.notify.deadline rest := by
    rw [v.deadline_notify, hdeadline]
    exact fun e he => hbefore e (List.mem_append_right _ (List.mem_cons_of_mem _ he))
  -- the notification leaves the wait four steps from its end at most
  have hnotify := wait_act hv now (.perform j)
  rw [if_neg nofun, if_pos (show (s.play first).notifies (.perform j) = true from decide_eq_true hduty)]
    at hnotify
  obtain ⟨w', hw', hleft⟩ :=
    awake_play hnotify v.isBlocked_notify hrest (always_append hsee).2
  obtain ⟨w'', hw'', _, hend'⟩ := patient_play hnotify (v.outcome?_notify ▸ hend) hrest
  obtain rfl := Option.some.inj (hw'.symm.trans hw'')
  have hzero : w'.left = 0 := by
    have hle := v.notify.left_le
    omega
  obtain ⟨outcome, hw'end⟩ := Wait.exists_outcome_of_left hzero
  refine ⟨w', outcome, ?_, hw'end, fun heq => hend' (heq ▸ hw'end)⟩
  rw [play_append]
  exact hw'

/-- What it does to the waits at a router to give up the awaited request at a moment. -/
structure Release (s : Waiting) (t : Moment) : Prop where
  /-- The waits are notified. -/
  due : .notify ∈ (s.act (t, .abort)).duties
  /-- There is something to see then just if a request was awaited, or there was something before. -/
  sees : (s.act (t, .abort)).router.outcome?.isSome = true ↔
    s.router.expected.isSome = true ∨ s.router.isOver = true ∨ s.router.accepting = false
  /-- If a request was awaited, or had been answered or given up, every wait is released unless another
  request is awaited before the wait runs. -/
  answered : s.router.expected.isSome = true ∨ s.router.isOver = true → ∀ later,
    Always (fun s e => s.expects e.2 = false) (s.act (t, .abort)) later →
      Releases (s.act (t, .abort)) later
  /-- While no replies are taken, every wait is released. -/
  refused : s.router.accepting = false → ∀ later, (∀ e ∈ later, e.2 ≠ .setAccepting true) →
    Releases (s.act (t, .abort)) later
  /-- But a wait that finds nothing to see, at once or after a new request, waits for its own deadline as
  long as nobody changes the router. -/
  withheld : ∀ between, ((s.act (t, .abort)).play between).router.outcome? = none → ∀ later,
    Always (fun s e => (s.act e).router = s.router) ((s.act (t, .abort)).play between) later →
      Withholds ((s.act (t, .abort)).play between) later

/-- **To give up the awaited request releases every wait** just if there is something to see when the
wait looks. -/
theorem abort_releases (s : Waiting) (t : Moment) : Release s t where
  due := List.mem_concat_self
  sees := by
    have haccepting : (s.act (t, .abort)).router.accepting = s.router.accepting :=
      s.router.accepting_abort
    have hover : (s.act (t, .abort)).router.isOver = true ↔ _ := s.router.isOver_abort
    rw [Router.isSome_outcome?_iff, haccepting, hover, or_comm, or_assoc]
  answered := fun hover _ hlater =>
    releases_of_sees (sees_of_isOver (s.router.isOver_abort.mpr hover) hlater)
  refused := fun haccepting _ hlater =>
    releases_of_sees (sees_of_refusing (s.router.accepting_abort.trans haccepting) hlater)
  withheld := fun _ hnothing _ hstill _ _ hw hopen => sleeps_play hnothing hstill hw hopen

/-- A wait that runs and has not ended before its deadline is not released. -/
theorem not_releases {s : Waiting} {later : History} (w w' : Wait) (hw : s.waits[0]? = some w)
    (hopen : w.outcome? = none) (hruns : Runs s 0 later) (hbefore : Before w.deadline later)
    (hw' : (s.play later).waits[0]? = some w') (hopen' : w'.outcome? = none) : ¬ Releases s later := by
  intro h
  obtain ⟨v, outcome, hv, hend, _⟩ := h 0 w hw hopen hruns hbefore
  obtain rfl := Option.some.inj (hv.symm.trans hw')
  rw [hopen'] at hend
  cases hend

/-- A wait sleeps at a router whose only request has had a late reply. -/
def lateReply : History :=
  [(0, .request 0), (0, .perform 0), (1, .hear ⟨1, Mask.reply, [], [], none⟩), (2, .enter ⟨100⟩),
    (2, .goOn 0), (2, .goOn 0)]

/-- A wait sleeps at a router of which nothing has been asked. -/
def neverAsked : History := [(0, .enter ⟨100⟩), (1, .goOn 0), (1, .goOn 0)]

/-- A wait sleeps at a router that awaits a reply. -/
def asked : History :=
  [(0, .request (-1)), (0, .perform 0), (0, .enter ⟨100⟩), (1, .goOn 0), (1, .goOn 0)]

/-- The wait is notified, looks again and sleeps again. -/
def looksAgain : History :=
  [(3, .perform 0), (4, .goOn 0), (4, .goOn 0), (4, .goOn 0), (4, .goOn 0), (4, .goOn 0)]

/-- A new request is made before the wait is notified. -/
def askedAgain : History := [(3, .request (-1)), (3, .perform 1)]

/-- Waits that are not released when nothing is awaited, be it that the reply was late or that nothing
was asked, and when a new request comes in between. -/
theorem not_always_released : ¬ Releases ((run 0 lateReply).act (3, .abort)) looksAgain
    ∧ ¬ Releases ((run 0 neverAsked).act (3, .abort)) looksAgain
    ∧ ¬ Releases ((run 0 asked).act (3, .abort)) (askedAgain ++ looksAgain) := by
  -- each time the wait runs, looks after the notification, and sleeps on until its deadline
  have hlate : ¬ Releases ((run 0 lateReply).act (3, .abort)) looksAgain := by
    have hruns : Runs ((run 0 lateReply).act (3, .abort)) 0 looksAgain :=
      ⟨[], 3, 0, _, rfl, by decide +kernel, by decide +kernel⟩
    refine not_releases ⟨102, .sleeping false⟩ ⟨102, .sleeping false⟩ ?_ rfl hruns ?_ ?_ rfl
    all_goals decide +kernel
  have hnever : ¬ Releases ((run 0 neverAsked).act (3, .abort)) looksAgain := by
    have hruns : Runs ((run 0 neverAsked).act (3, .abort)) 0 looksAgain :=
      ⟨[], 3, 0, _, rfl, by decide +kernel, by decide +kernel⟩
    refine not_releases ⟨100, .sleeping false⟩ ⟨100, .sleeping false⟩ ?_ rfl hruns ?_ ?_ rfl
    all_goals decide +kernel
  have hagain : ¬ Releases ((run 0 asked).act (3, .abort)) (askedAgain ++ looksAgain) := by
    have hruns : Runs ((run 0 asked).act (3, .abort)) 0 (askedAgain ++ looksAgain) :=
      ⟨askedAgain, 3, 0, _, rfl, by decide +kernel, by decide +kernel⟩
    refine not_releases ⟨100, .sleeping false⟩ ⟨100, .sleeping false⟩ ?_ rfl hruns ?_ ?_ rfl
    all_goals decide +kernel
  exact ⟨hlate, hnever, hagain⟩

end Waiting

end GameHall
