import GameHall.Proofs.Hall.Finale

/-!
# The end of the main loop

The main loop dies of one thing only: an address is to be banned and the ban would end beyond the last
moment of the clock. Each event is followed through to where it bans (`crashed_take`), and so a run has
come to its end just if one of its events dooms it (`crashed_run`). The bans that are made all end within
the clock (`ends_of_bans`).
-/

namespace GameHall

namespace Hall

open Scheduler

variable {P Q R : Host → Prop} {h g k : Hall} {r : Int} {x : Room}

/-! ## To risk a ban -/

/-- The addresses that `P` tells are banned at one moment. The main loop dies just if there are such and
bans are endless. -/
structure Risks (P : Host → Prop) (h g : Hall) : Prop where
  now : g.now = h.now
  settings : g.settings = h.settings
  crashed : g.crashed = true ↔ h.crashed = true ∨ (∃ a, P a) ∧ h.Endless

theorem risks_still (heq : g.docket = h.docket) : Risks (fun _ => False) h g where
  now := congrArg Docket.now heq
  settings := congrArg Docket.settings heq
  crashed := by
    have hcrashed : g.crashed = h.crashed := congrArg Docket.crashed heq
    rw [hcrashed]
    simp

theorem risks_trans (hP : Risks P h g) (hQ : Risks Q g k) (hR : ∀ a, R a ↔ P a ∨ Q a) :
    Risks R h k where
  now := hQ.now.trans hP.now
  settings := hQ.settings.trans hP.settings
  crashed := by
    have hsome : (∃ a, R a) ↔ (∃ a, P a) ∨ ∃ a, Q a := by simp only [hR, exists_or]
    -- bans are as endless after the first part as they were before it
    rw [hQ.crashed, hP.crashed, endless_congr hP.now hP.settings, hsome, or_and_right, or_assoc]

theorem risks_ban (h : Hall) (host : Host) : Risks (fun a => a = host) h (h.ban host) where
  now := (bars_ban h host).now
  settings := (bars_ban h host).settings
  crashed := by
    rw [crashed_ban]
    exact or_congr_right (and_iff_right ⟨host, rfl⟩).symm

theorem risks_finish (hx : h.room? r = some x) : Risks (h.RanFrom r) h (h.finish r x) where
  now := (bars_finish h r x).now
  settings := (bars_finish h r x).settings
  crashed := crashed_finish hx

theorem tallies_risks : Tallies Risks where
  still := risks_still
  trans := risks_trans
  ban := risks_ban
  finish := risks_finish

/-! ## What an event does to the main loop -/

/-- An event that bans nobody. -/
theorem crashed_quiet {e : Event} (hnone : ∀ a, ¬ h.Bans e a) (hcrashed : g.crashed = h.crashed) :
    g.crashed = true ↔ h.crashed = true ∨ (∃ a, h.Bans e a) ∧ h.Endless := by
  have hnobody : ¬ ∃ a, h.Bans e a := not_exists.mpr hnone
  rw [hcrashed]
  exact (or_iff_left fun hdoom => hnobody hdoom.1).symm

/-- **An event is the end of the main loop** just if it bans someone and bans are endless. -/
theorem crashed_take (hb : h.ledger.Balanced) (e : Event) :
    (h.take e).crashed = true ↔ h.crashed = true ∨ (∃ a, h.Bans e a) ∧ h.Endless := by
  cases e with
  | pass span => exact crashed_quiet (fun _ => id) rfl
  | reloadSettings reading =>
      refine crashed_quiet (fun _ => id) ?_
      cases reading with
      | error _ => rfl
      | ok _ => rfl
  | record c record =>
      refine crashed_quiet (fun _ => id) ?_
      rcases docket_hear h c record with heq | heq
      · exact congrArg Docket.crashed heq
      · exact congrArg Docket.crashed heq
  | _ => exact (tallies_risks.take hb rfl).crashed

/-! ## Runs -/

/-- An event is the end of the main loop. -/
structure Dooms (h : Hall) (e : Event) : Prop where
  up : h.crashed = false
  bans : ∃ a, h.Bans e a
  endless : h.Endless

theorem crashed_step (hb : h.ledger.Balanced) (e : Event) :
    (h.step e).crashed = true ↔ h.crashed = true ∨ h.Dooms e := by
  cases hcrashed : h.crashed with
  | true => exact iff_of_true (by rw [step_of_crashed hcrashed, hcrashed]) (Or.inl rfl)
  | false =>
      rw [step_of_up hcrashed, crashed_take hb, hcrashed]
      exact or_congr_right ⟨fun ⟨hbans, hend⟩ => ⟨hcrashed, hbans, hend⟩,
        fun hdoom => ⟨hdoom.bans, hdoom.endless⟩⟩

theorem run_of_crashed (hcrashed : h.crashed = true) (events : List Event) : h.run events = h := by
  induction events with
  | nil => rfl
  | cons e events ih =>
      have hstep : h.run (e :: events) = (h.step e).run events := rfl
      rw [hstep, step_of_crashed hcrashed, ih]

/-- A run in which the main loop dies has one event that is its end. -/
theorem crashed_run (hb : h.ledger.Balanced) (hup : h.crashed = false) (events : List Event) :
    (h.run events).crashed = true
      ↔ ∃ past e later, events = past ++ e :: later ∧ (h.run past).Dooms e := by
  induction events using List.reverseRecOn with
  | nil =>
      refine iff_of_false (fun hdead => ?_) ?_
      · cases hup.symm.trans hdead
      · rintro ⟨past, e, later, heq, _⟩
        simp at heq
  | append_singleton events e ih =>
      rw [show h.run (events ++ [e]) = (h.run events).step e from run_append _ _ _,
        crashed_step (balanced_run hb events), ih]
      constructor
      · rintro (⟨past, e', later, rfl, hdoom⟩ | hdoom)
        · exact ⟨past, e', later ++ [e], by rw [List.append_assoc, List.cons_append], hdoom⟩
        · exact ⟨events, e, [], rfl, hdoom⟩
      · rintro ⟨past, e', later, heq, hdoom⟩
        rcases eq_or_of_snoc heq with ⟨rfl, rfl, _⟩ | ⟨later', _, rfl⟩
        · exact Or.inr hdoom
        · exact Or.inl ⟨past, e', later', rfl, hdoom⟩

/-- **A ban that is made ends within the clock**, as long after it has been made as the settings say. -/
theorem ends_of_bans (hb : h.ledger.Balanced) {e : Event} {a : Host} {t : Moment} {m : Nat}
    (hban : h.BansAt e a t m) (hup : (h.step e).crashed = false) :
    Assoc.get? (h.step e).bans a = some (t + minutes m) ∧ t + minutes m < Moment.limit := by
  obtain ⟨_, hstep⟩ := up_of_step hup
  have hpos : 0 < h.settings.tempBanTime := by
    have hm := hban.pos
    rwa [← hban.time] at hm
  -- otherwise this event would have been the end of the main loop
  have hfinite : ¬ h.Endless := by
    intro hend
    have hdead := (crashed_step hb e).mpr (Or.inr ⟨hban.up, ⟨a, hban.bans⟩, hend⟩)
    cases hup.symm.trans hdead
  rw [hstep] at hup ⊢
  rw [(heeds_take hb e).banned a hban.bans hpos hup, hban.moment, hban.time]
  refine ⟨rfl, ?_⟩
  rw [← hban.moment, ← hban.time]
  exact Nat.lt_of_not_le fun hle => hfinite ⟨hpos, hle⟩

end Hall

end GameHall
