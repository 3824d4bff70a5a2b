import GameHall.Proofs.Scheduler.Ordered

/-!
# Turns keep the order of signals

In a turn a worker takes a signal from its queue and makes its call, or it leaves and says goodbye. Either
way a call is said for what has been taken (`Ordered.says`) or the last one (`Ordered.ends`), and the order
of signals is kept (`Ordered.turn`).
-/

namespace GameHall

namespace Worker

variable {w : Worker} {now : Moment} {torn : Prop} {events : History} {R : Moment → Moment → Prop}

/-! ## Turns -/

/-- A call to an engine that is not lost goes out. -/
theorem made_call (hp : Piped torn w) (hreaches : w.reaches = true) (now : Moment) (cause : Cause)
    (c : EngineCall) :
    ∃ taken, (w.call now cause c).deeds = w.deeds ++ [(now, .call cause c taken)]
      ∧ made [(now, .call cause c taken)] = if w.endpoint.lost then [] else [(cause, c)] := by
  have hrunning : w.phase ≠ .stopped := by
    intro hstopped
    rw [reaches, hstopped] at hreaches
    cases hreaches
  rcases call_cases w now cause c with ⟨hdeaf, _⟩ | ⟨_, halive, _, heq⟩ | ⟨_, hdown, heq⟩
  · cases hreaches.symm.trans hdeaf
  · refine ⟨true, by rw [heq], ?_⟩
    have hlost : w.endpoint.lost = false := by simpa [halive] using hp.alive hrunning
    rw [hlost]
    rfl
  · refine ⟨false, by rw [heq]; rfl, ?_⟩
    have hlost : w.endpoint.lost = true := by
      rcases Bool.and_eq_false_iff.mp hdown with hdead | hmute
      · simpa [hdead] using hp.alive hrunning
      · exact hp.writing hrunning hmute
    rw [hlost]
    rfl

/-- What a worker says now is behind what it has said before. -/
theorem Ordered.says (h : Ordered events w) (ht : Timely R w) (hreaches : w.reaches = true)
    (hw : new.play events = w) {w' : Worker} {more : List (Cause × EngineCall)}
    (hmade : made w'.deeds = made w.deeds ++ if w.endpoint.lost then [] else more)
    (hmore : ∀ m ∈ more, m.1.isAlarm = false)
    (hdue : callsOf (ran w'.deeds) ++ goodbye w'.deeds = callsOf (ran w.deeds) ++ more) :
    called w'.deeds <+: callsOf (ran w'.deeds) ++ goodbye w'.deeds
      ∧ (Sound events → called w'.deeds = callsOf (ran w'.deeds) ++ goodbye w'.deeds) := by
  have hup : w.phase = .running ∨ w.phase = .draining := by simpa [reaches] using hreaches
  have hnone := goodbye_eq_nil (ht.stayed (Or.inr hup))
  have hfront := h.front
  have hsaid := h.said
  rw [hnone, List.append_nil] at hfront hsaid
  have hmoreCalled : more.filter (fun m => !m.1.isAlarm) = more :=
    List.filter_eq_self.mpr fun m hm => by rw [hmore m hm]; rfl
  rw [hdue]
  cases hlost : w.endpoint.lost with
  | true =>
      rw [hlost, if_pos rfl, List.append_nil] at hmade
      have hcalled : called w'.deeds = called w.deeds := by rw [called, hmade]; rfl
      rw [hcalled]
      refine ⟨hfront.trans (List.prefix_append _ _), fun hsound => ?_⟩
      have hsame := hsound events [] (List.append_nil _).symm (hw.symm ▸ hreaches)
      rw [hw] at hsame
      cases hlost.symm.trans hsame
  | false =>
      rw [hlost, if_neg Bool.false_ne_true] at hmade
      have hcalled : called w'.deeds = called w.deeds ++ more := by
        rw [called, hmade, List.filter_append, hmoreCalled]
        rfl
      have hisUp := isUp_of_reaches hreaches
      have heq : called w'.deeds = callsOf (ran w.deeds) ++ more := by
        rw [hcalled, hsaid (h.sound hisUp hlost)]
      exact ⟨heq ▸ List.prefix_rfl, fun _ => heq⟩

/-- What is said last is the goodbye, if there was none before. -/
theorem Ordered.ends (h : Ordered events w) (ht : Timely R w) (hreaches : w.reaches = true)
    {w' : Worker} {more : List (Cause × EngineCall)} (hmade : made w'.deeds = made w.deeds ++ more)
    (hmore : more.length ≤ 1) (left : Prop) (hleft : (∃ m ∈ more, m.1 = .farewell) → left) :
    ∀ before m after, made w'.deeds = before ++ m :: after → m.1 = .farewell →
      after = [] ∧ left := by
  intro before m after heq hm
  have hnot : m ∉ made w.deeds := fun hmem => not_farewell h ht hreaches m hmem hm
  rw [hmade] at heq
  rcases cut_append heq with ⟨mid, hwhole⟩ | ⟨mid, _, rfl⟩
  · refine absurd ?_ hnot
    rw [hwhole]
    exact List.mem_append_right _ List.mem_cons_self
  · refine ⟨?_, hleft ⟨m, List.mem_append_right _ List.mem_cons_self, hm⟩⟩
    rw [List.length_append, List.length_cons] at hmore
    exact List.eq_nil_of_length_eq_zero (by omega)

/-- What is the same after a call. -/
theorem call_same (w : Worker) (now : Moment) (cause : Cause) (c : EngineCall) :
    (w.call now cause c).phase = w.phase ∧ (w.call now cause c).signals = w.signals
      ∧ (w.call now cause c).quitting = w.quitting ∧ (w.call now cause c).failed = w.failed := by
  rcases call_cases w now cause c with ⟨_, heq⟩ | ⟨_, _, _, heq⟩ | ⟨_, _, heq⟩
  all_goals rw [heq]
  all_goals exact ⟨rfl, rfl, rfl, rfl⟩

/-- What is the same when a signal is taken. -/
theorem takeSignal_same (w : Worker) (now : Moment) (s : Signal) (rest : List Signal) :
    (w.takeSignal now s rest).phase = w.phase ∧ (w.takeSignal now s rest).signals = rest
      ∧ (w.takeSignal now s rest).quitting = w.quitting ∧ (w.takeSignal now s rest).failed = w.failed
      ∧ (w.takeSignal now s rest).endpoint.lost = w.endpoint.lost := by
  cases hcall : s.call? with
  | some c =>
      have heq : w.takeSignal now s rest
          = ({ w with signals := rest }.note now (.run s)).call now .signal c :=
        runSignal_of_call hcall
      obtain ⟨hphase, hsignals, hquitting, hfailed⟩ :=
        call_same ({ w with signals := rest }.note now (.run s)) now .signal c
      rw [heq]
      exact ⟨hphase, hsignals, hquitting, hfailed, lost_call .signal c⟩
  | none =>
      obtain ⟨timers, d, hrun, _⟩ := runSignal_of_none
        ({ w with signals := rest }.note now (.run s)) now hcall
      have heq : w.takeSignal now s rest = _ := hrun
      rw [heq]
      exact ⟨rfl, rfl, rfl, rfl, rfl⟩

/-- A signal that is taken is obeyed, and a call of it goes out if the engine is not lost. -/
theorem deeds_takeSignal (hp : Piped torn w) (hreaches : w.reaches = true) (now : Moment)
    (s : Signal) (rest : List Signal) :
    ∃ d, (w.takeSignal now s rest).deeds = w.deeds ++ [(now, .run s), (now, d)]
      ∧ d.ran? = none ∧ d ≠ .clear ∧ made [(now, d)] = if w.endpoint.lost then [] else callsOf [s] := by
  -- a signal that is a call, and one that is about a timer
  cases hcall : s.call? with
  | some c =>
      have heq : w.takeSignal now s rest
          = ({ w with signals := rest }.note now (.run s)).call now .signal c :=
        runSignal_of_call hcall
      have hrun : Piped torn ({ w with signals := rest }.note now (.run s)) :=
        hp.same rfl id (made_concat_of_none _ rfl)
      obtain ⟨taken, hdeeds, hmade⟩ := made_call hrun hreaches now .signal c
      refine ⟨.call .signal c taken, ?_, rfl, nofun, ?_⟩
      · rw [heq, hdeeds]
        exact List.append_assoc _ _ _
      · rw [hmade, callsOf_of_some hcall]
        rfl
  | none =>
      obtain ⟨timers, d, heq, hservice⟩ := runSignal_of_none
        ({ w with signals := rest }.note now (.run s)) now hcall
      have htake : w.takeSignal now s rest = _ := heq
      rw [htake]
      refine ⟨d, List.append_assoc _ _ _, ?_, ?_, ?_⟩
      · cases d with
        | run s => cases hservice
        | _ => rfl
      · rintro rfl
        cases hservice
      · rw [callsOf_of_none hcall, ite_self]
        refine made_of_service fun e he => ?_
        rw [List.mem_singleton.mp he]
        exact hservice

/-- What the deeds tell after a signal has been taken. -/
theorem told_takeSignal (hp : Piped torn w) (hreaches : w.reaches = true) (now : Moment)
    (s : Signal) (rest : List Signal) :
    ran (w.takeSignal now s rest).deeds = ran w.deeds ++ [s]
      ∧ (∀ d ∈ (w.takeSignal now s rest).deeds, d.2 = .clear → d ∈ w.deeds)
      ∧ made (w.takeSignal now s rest).deeds
        = made w.deeds ++ if w.endpoint.lost then [] else callsOf [s] := by
  obtain ⟨d, hdeeds, hran, hclear, hmade⟩ := deeds_takeSignal hp hreaches now s rest
  rw [hdeeds]
  refine ⟨?_, fun a ha hleft => ?_, ?_⟩
  · have hnone : ran [(now, d)] = [] :=
      List.filterMap_cons_none (f := fun d : Moment × Deed => d.2.ran?) hran
    rw [ran_append, List.append_cancel_left_eq]
    exact congrArg (s :: ·) hnone
  · rcases List.mem_append.mp ha with hold | hnew
    · exact hold
    · rcases List.mem_cons.mp hnew with rfl | hnew
      · cases hleft
      · rw [List.mem_singleton.mp hnew] at hleft
        exact absurd hleft hclear
  · rw [← hmade, made_append]
    rfl

/-- A worker that takes a signal keeps the order. -/
theorem Ordered.take (h : Ordered events w) (ht : Timely R w) (hp : Piped torn w)
    (hp' : Piped torn (w.step e)) (hw : new.play events = w) (hsignal : e.2.signal? = none)
    (hreaches : w.reaches = true) {s : Signal} {rest : List Signal} (hsignals : w.signals = s :: rest)
    (hstep : w.step e = w.takeSignal now s rest) : Ordered (events ++ [e]) (w.step e) := by
  obtain ⟨hran, hold, hmade⟩ := told_takeSignal hp hreaches now s rest
  obtain ⟨hphase', hsignals', hquitting', hfailed', hlost'⟩ := takeSignal_same w now s rest
  rw [← hstep] at hran hold hmade hphase' hsignals' hquitting' hfailed' hlost'
  have hup : w.phase = .running ∨ w.phase = .draining := by simpa [reaches] using hreaches
  have hisUp : w.isUp = true := isUp_of_reaches hreaches
  have hisUp' : (w.step e).isUp = true := by rw [isUp, hphase']; exact hisUp
  have hgoodbye : goodbye (w.step e).deeds = [] :=
    goodbye_eq_nil fun d hd hclear => ht.stayed (Or.inr hup) d (hold d hd hclear) hclear
  -- the signal goes from the head of the queue to the end of what has been run
  have hqueue : ran (w.step e).deeds ++ (w.step e).waiting = ran w.deeds ++ w.waiting := by
    rw [hran, waiting, waiting, if_pos hisUp, if_pos hisUp', hsignals', hsignals, List.append_assoc]
    rfl
  obtain ⟨hfront, hsaid⟩ := h.says ht hreaches hw hmade
    (fun m hm => by obtain ⟨c, _, rfl⟩ := List.mem_map.mp hm; rfl)
    (by rw [hran, callsOf_append, hgoodbye, List.append_nil])
  have hlast := h.ends ht hreaches hmade
    (by
      split
      · exact Nat.zero_le _
      · rw [callsOf, List.length_map]
        exact List.length_filterMap_le _ _)
    ((∃ d ∈ (w.step e).deeds, d.2 = .clear) ∧ Sound (events ++ [e]))
    (by
      rintro ⟨m, hm, hfarewell⟩
      split at hm
      · cases hm
      · obtain ⟨c, _, rfl⟩ := List.mem_map.mp hm
        cases hfarewell)
  exact {
    fresh := by
      intro hstarting
      rw [hphase'] at hstarting
      rcases hup with hphase | hphase <;> cases hphase.symm.trans hstarting
    queue := by
      rw [hqueue, emitted_concat_of_none hsignal]
      exact h.queue
    whole := by
      intro _ halive
      rw [hqueue, emitted_concat_of_none hsignal]
      rw [isAlive_of_up hp' hisUp', hphase', hfailed', hlost'] at halive
      exact h.whole hisUp ((isAlive_of_up hp hisUp).mpr halive)
    firm := by
      intro hsound _
      rw [hqueue, firm_concat_of_none hsignal]
      refine h.firm (sound_of_append hsound) fun hstopped => ?_
      rcases hup with hphase | hphase <;> cases hphase.symm.trans hstopped
    halted := by
      intro hstop
      refine halted_append (h.halted ?_) [e]
      rw [hquitting', hphase'] at hstop
      rcases hstop with hquit | hdraining | ⟨a, ha, hclear⟩
      · exact Or.inl hquit
      · exact Or.inr (Or.inl hdraining)
      · exact Or.inr (Or.inr ⟨a, hold a ha hclear, hclear⟩)
    failed := by
      intro _ hfailed
      rw [hfailed'] at hfailed
      rw [hlost']
      exact (h.failed hisUp hfailed).imp_left fun hhalt => halted_append hhalt [e]
    sound := by
      intro _ hlost
      rw [hlost'] at hlost
      refine sound_step hw (h.sound hisUp hlost) fun _ => ?_
      rw [hlost', hlost]
    front := hfront
    said := fun hsound => hsaid (sound_of_append hsound)
    last := hlast }

/-- So does one that leaves. -/
theorem Ordered.leave (h : Ordered events w) (ht : Timely R w) (hp : Piped torn w)
    (hw : new.play events = w) (hsignal : e.2.signal? = none) (hphase : w.phase = .draining)
    (hsignals : w.signals = []) (hstep : w.step e = w.leave now) :
    Ordered (events ++ [e]) (w.step e) := by
  have hreaches : w.reaches = true := by simp [reaches, hphase]
  have hclearPiped : Piped torn ({ w with timers := w.timers.clear }.note now .clear) :=
    hp.same rfl id (made_concat_of_none _ rfl)
  obtain ⟨taken, hcall, hmade⟩ := made_call hclearPiped hreaches now .farewell EngineCall.bye
  have hdeeds : (w.step e).deeds
      = w.deeds ++ [(now, .clear), (now, .call .farewell EngineCall.bye taken)] := by
    rw [hstep]
    exact hcall.trans (List.append_assoc _ _ _)
  have hphase' : (w.step e).phase = .closing := by rw [hstep]; rfl
  have hdown : (w.step e).isUp = false := by simp [isUp, hphase']
  have hran : ran (w.step e).deeds = ran w.deeds := by
    rw [hdeeds, ran_append]
    exact List.append_nil _
  have hleft : ∃ d ∈ (w.step e).deeds, d.2 = .clear := by
    refine ⟨(now, .clear), ?_, rfl⟩
    rw [hdeeds]
    exact List.mem_append_right _ List.mem_cons_self
  have hempty : w.waiting = [] := by rw [waiting, hsignals, ite_self]
  have hqueue : ran (w.step e).deeds ++ (w.step e).waiting = ran w.deeds ++ w.waiting := by
    rw [hran, hempty, waiting, hdown]
    rfl
  have hmade' : made (w.step e).deeds
      = made w.deeds ++ if w.endpoint.lost then [] else [(.farewell, EngineCall.bye)] := by
    rw [hdeeds, made_append]
    exact congrArg (made w.deeds ++ ·) hmade
  obtain ⟨hfront, hsaid⟩ := h.says ht hreaches hw hmade'
    (fun m hm => by rw [List.mem_singleton.mp hm]; rfl) (by rw [hran, goodbye_of_mem hleft])
  have hlast := h.ends ht hreaches hmade'
    (by
      split
      · exact Nat.zero_le _
      · exact Nat.le_refl _)
    ((∃ d ∈ (w.step e).deeds, d.2 = .clear) ∧ Sound (events ++ [e]))
    (by
      rintro ⟨m, hm, _⟩
      refine ⟨hleft, ?_⟩
      cases hlost : w.endpoint.lost with
      | true =>
          rw [hlost] at hm
          cases hm
      | false =>
          refine sound_step hw (h.sound (isUp_of_reaches hreaches) hlost) fun hreaches' => ?_
          cases hdown.symm.trans (isUp_of_reaches hreaches'))
  exact {
    fresh := fun hstarting => by cases hphase'.symm.trans hstarting
    queue := by
      rw [hqueue, emitted_concat_of_none hsignal]
      exact h.queue
    whole := fun hup => by cases hdown.symm.trans hup
    firm := by
      intro hsound _
      rw [hqueue, firm_concat_of_none hsignal]
      exact h.firm (sound_of_append hsound) fun hstopped => by cases hphase.symm.trans hstopped
    halted := fun _ => halted_append (h.halted (Or.inr (Or.inl hphase))) [e]
    failed := fun hup => by cases hdown.symm.trans hup
    sound := fun hup => by cases hdown.symm.trans hup
    front := hfront
    said := fun hsound => hsaid (sound_of_append hsound)
    last := hlast }

/-- A turn of the worker keeps it: all but the taking of a signal and the leaving is calm. -/
theorem Ordered.turn (h : Ordered events w) (ht : Timely R w) (hp : Piped torn w)
    (hp' : Piped torn (w.turn now)) (hw : new.play events = w) :
    Ordered (events ++ [(now, .turn)]) (w.step (now, .turn)) := by
  have hstep : w.step (now, .turn) = w.turn now := rfl
  rw [← hstep] at hp'
  cases turn_cases w now with
  | nothing heq =>
      rw [← hstep] at heq
      have hcalm : Calm w (w.step (now, .turn)) :=
        calm_same (by rw [heq]) (by rw [heq]; exact id) (by rw [heq]) (by rw [heq]) (by rw [heq])
          (by rw [heq]; exact fun hphase => ⟨hphase, rfl⟩)
      refine h.calm ht hp hp' hw rfl hcalm ?_ ?_ ?_
      · rw [heq]
        exact fun hhalt => hhalt.imp_right Or.inl
      · rw [heq]
        exact Or.inl
      · rw [heq]
        exact id
  | drain hphase hquitting heq =>
      rw [← hstep] at heq
      have hcalm : Calm w (w.step (now, .turn)) := by
        rw [heq]
        refine calm_same ?_ (fun hstopped => by cases hphase.symm.trans hstopped) ?_ rfl rfl
          (fun hstarting => by cases hstarting)
        · simp [isUp, hphase]
        · simp [waiting, isUp, hphase]
      refine h.calm ht hp hp' hw rfl hcalm (fun _ => Or.inl hquitting) ?_ ?_
      · rw [heq]
        exact Or.inl
      · rw [heq]
        exact id
  | report hphase hlost heq =>
      rw [← hstep] at heq
      have hcalm : Calm w (w.step (now, .turn)) := by
        rw [heq]
        exact calm_same rfl id rfl rfl rfl fun hstarting => ⟨hstarting, rfl⟩
      refine h.calm ht hp hp' hw rfl hcalm ?_ ?_ ?_
      · rw [heq]
        exact fun hhalt => hhalt.imp_right Or.inl
      · rw [heq]
        exact fun _ => Or.inr (Or.inr hlost)
      · rw [heq]
        exact fun _ => rfl
  | take s rest hphase hsignals heq =>
      have hreaches : w.reaches = true := by
        rcases hphase with hphase | hphase
        · simp [reaches, hphase]
        · simp [reaches, hphase]
      exact h.take ht hp hp' hw rfl hreaches hsignals heq
  | leave hphase hsignals heq => exact h.leave ht hp hw rfl hphase hsignals heq
  | stop hphase heq =>
      rw [← hstep] at heq
      have hcalm : Calm w (w.step (now, .turn)) := by
        rw [heq]
        refine calm_same ?_ (fun _ => rfl) ?_ rfl ?_ (fun hstarting => by cases hstarting)
        · simp [isUp, hphase]
        · simp [waiting, isUp, hphase]
        · obtain ⟨octets, _, hflush⟩ := Endpoint.flush_of_writable hp.writable (e := w.endpoint) rfl
          rw [Endpoint.close, hflush]
      refine h.calm ht hp hp' hw rfl hcalm ?_ ?_ ?_
      · rw [heq]
        rintro (hquit | hdraining)
        · exact Or.inl hquit
        · cases hdraining
      · rw [heq]
        exact Or.inl
      · rw [heq]
        exact id

end Worker

end GameHall
