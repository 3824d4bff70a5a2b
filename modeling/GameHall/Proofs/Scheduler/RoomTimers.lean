import GameHall.Proofs.Hall.Sweeping
import GameHall.Proofs.Scheduler.Alarms

/-!
# The laws of room timers

What holds of the timers of a worker after whatever has happened to it (`RoomTimers`, `roomTimers_play`).
Two things are added here to what is known of timers that fire: a signal to cancel a timer is obeyed at
once (`Obeyed`), and a room that ends has both of its timers cancelled by such signals (`acts_finish`).
-/

namespace GameHall

namespace Hall

/-! ## Signals for a room that has ended -/

/-- The hall says more to connections, and nothing else. -/
def Tells (h g : Hall) : Prop :=
  g.engines = h.engines ∧ ∃ told, g.acts = h.acts ++ told ∧ ∀ a ∈ told, ∃ c record, a = .frame c record

theorem tells_refl (h : Hall) : h.Tells h :=
  ⟨rfl, [], (List.append_nil _).symm, fun _ ha => absurd ha List.not_mem_nil⟩

theorem tells_trans {h g k : Hall} (hg : h.Tells g) (hk : g.Tells k) : h.Tells k := by
  obtain ⟨hgEngines, first, hfirst, hfirstTold⟩ := hg
  obtain ⟨hkEngines, second, hsecond, hsecondTold⟩ := hk
  refine ⟨hkEngines.trans hgEngines, first ++ second, ?_, fun a ha => ?_⟩
  · rw [hsecond, hfirst, List.append_assoc]
  · exact (List.mem_append.mp ha).elim (hfirstTold a) (hsecondTold a)

theorem tells_of_acts {h g : Hall} (hengines : g.engines = h.engines) (hacts : g.acts = h.acts) :
    h.Tells g :=
  ⟨hengines, [], by rw [hacts, List.append_nil], fun _ ha => absurd ha List.not_mem_nil⟩

theorem tells_notify (h : Hall) (c : Int) (command : String) (payload : Octets) :
    h.Tells (h.notify c command payload) := by
  refine ⟨unpeopled_engines.notify h c command payload, ?_⟩
  unfold notify
  split
  · unfold deliver
    split
    · refine ⟨_, rfl, fun a ha => ?_⟩
      rw [List.mem_singleton.mp ha]
      exact ⟨_, _, rfl⟩
    · exact ⟨[], (List.append_nil _).symm, fun _ ha => absurd ha List.not_mem_nil⟩
  · exact ⟨[], (List.append_nil _).symm, fun _ ha => absurd ha List.not_mem_nil⟩

theorem tells_updateSession (h : Hall) (c : Int) (f : Session → Session) :
    h.Tells (h.updateSession c f) := tells_of_acts rfl rfl

theorem tells_releaseObserver (h : Hall) (c : Int) : h.Tells (h.releaseObserver c) :=
  tells_trans (tells_updateSession h c _) (tells_notify _ c _ _)

theorem tells_ban (h : Hall) (host : Host) : h.Tells (h.ban host) := by
  unfold ban
  split
  · exact tells_refl h
  · dsimp only
    split
    · exact tells_of_acts rfl rfl
    · exact tells_of_acts rfl rfl

/-- A player who is released is told, or loses the session and may be banned. -/
theorem tells_releasePlayer (runaway : Bool) (h : Hall) (c : Int) :
    h.Tells (h.releasePlayer runaway c) := by
  unfold releasePlayer
  split
  · exact tells_refl h
  · rename_i s _
    split
    · exact tells_trans (tells_updateSession h c _) (tells_notify _ c _ _)
    · dsimp only
      split
      · exact tells_trans (tells_ban h s.link.host) (tells_of_acts rfl rfl)
      · exact tells_of_acts rfl rfl

theorem tells_foldl {α : Type} {f : Hall → α → Hall} (hf : ∀ (h : Hall) (a : α), h.Tells (f h a))
    (l : List α) (h : Hall) : h.Tells (l.foldl f h) := by
  induction l generalizing h with
  | nil => exact tells_refl h
  | cons a l ih => exact tells_trans (hf h a) (ih _)

/-- A scheduler that has become idle may be retired, and gets no more signals for it. -/
theorem acts_retireIdle (h : Hall) (id : Int) :
    ∃ rest, (h.retireIdle id).acts = h.acts ++ rest ∧ ∀ a ∈ rest, a = .quit id := by
  have hnone : ∃ rest, h.acts = h.acts ++ rest ∧ ∀ a ∈ rest, a = Act.quit id :=
    ⟨[], (List.append_nil _).symm, fun _ ha => absurd ha List.not_mem_nil⟩
  unfold retireIdle
  split
  · exact hnone
  · split
    · dsimp only
      split
      · unfold retire
        split
        · exact ⟨[.quit id], rfl, fun a ha => List.mem_singleton.mp ha⟩
        · exact hnone
      · exact hnone
    · exact hnone

/-- **A room that ends has both of its timers cancelled**, by signals to its scheduler, if the engine is
up. Before that its players and observers are told, and after that the scheduler may be retired. -/
theorem acts_finish {h : Hall} {room : Int} {r : Room} {s : Scheduler}
    (hs : h.pool.get? r.scheduler = some s) (halive : s.isAlive = true) :
    ∃ told rest, (h.finish room r).acts = h.acts ++ told
        ++ [.signal r.scheduler (.disarm .delay room), .signal r.scheduler (.disarm .request room)]
        ++ rest
      ∧ (∀ a ∈ told, ∃ c record, a = .frame c record) ∧ ∀ a ∈ rest, a = .quit r.scheduler := by
  obtain ⟨hobservers, first, hfirst, hfirstTold⟩ :=
    tells_foldl (fun k c => tells_releaseObserver k c) r.observers
      { h with rooms := Assoc.erase h.rooms room }
  generalize hg : r.observers.foldl releaseObserver { h with rooms := Assoc.erase h.rooms room } = g
    at hobservers hfirst
  obtain ⟨hplayers, second, hsecond, hsecondTold⟩ :=
    tells_foldl (tells_releasePlayer (g.isCurrent r.scheduler)) r.players (g.askCurrent r.scheduler)
  generalize hk : r.players.foldl (releasePlayer (g.isCurrent r.scheduler))
    (g.askCurrent r.scheduler) = k at hplayers hsecond
  -- the scheduler is still there, with its engine up
  have hgs : g.pool.get? r.scheduler = some s := by
    have hpool : g.pool = h.pool := congrArg Prod.fst hobservers
    rw [hpool, hs]
  have hks : k.pool.get? r.scheduler = some (s.check g.fingerprint) := by
    have hupdate : k.pool = g.pool.update r.scheduler fun s =>
        if s.isAlive then s.check g.fingerprint else s := congrArg Prod.fst hplayers
    rw [hupdate, get?_update, if_pos rfl, hgs, Option.map_some, if_pos halive]
  have hkalive : (s.check g.fingerprint).isAlive = true := by
    rw [Scheduler.isAlive_iff] at halive ⊢
    rw [Scheduler.check]
    split
    · exact halive
    · exact halive
  have hfinish : h.finish room r = k.releaseScheduler room r.scheduler := by
    rw [Hall.finish, hg, hk]
  obtain ⟨rest, hrest, hquit⟩ := acts_retireIdle { (k.act (.signal r.scheduler
    (.disarm .delay room))).act (.signal r.scheduler (.disarm .request room)) with
      pool := k.pool.update r.scheduler Scheduler.removeRoom } r.scheduler
  refine ⟨first ++ second, rest, ?_, fun a ha => ?_, hquit⟩
  · have hfirstSignal := signal_of_alive hks hkalive (.disarm .delay room)
    have hsecondSignal := signal_of_alive (h := k.act (.signal r.scheduler (.disarm .delay room))) hks
      hkalive (.disarm .request room)
    have hacts : k.acts = h.acts ++ (first ++ second) := by
      rw [hsecond, ← List.append_assoc, ← hfirst]
      rfl
    rw [hfinish, Hall.releaseScheduler, hfirstSignal, hsecondSignal]
    refine hrest.trans ?_
    rw [← hacts]
    simp [act]
  · exact (List.mem_append.mp ha).elim (hfirstTold a) (hsecondTold a)

end Hall

namespace Worker

variable {deeds : Deeds} {w : Worker} {now : Moment}

/-! ## Signals that cancel timers -/

/-- A signal to cancel a timer is obeyed as soon as it is taken. -/
def Obeyed (deeds : Deeds) : Prop :=
  ∀ before now kind room after, deeds = before ++ (now, .run (.disarm kind room)) :: after →
    ∃ armed after', after = (now, .disarm (kind, room) armed) :: after'

theorem obeyed_nil : Obeyed [] := fun _ _ _ _ _ heq => absurd heq (by simp)

theorem obeyed_concat (h : Obeyed deeds) {d : Moment × Deed}
    (hd : ∀ kind room, d.2 ≠ .run (.disarm kind room)) : Obeyed (deeds ++ [d]) := by
  intro before now kind room after heq
  rcases eq_or_of_snoc heq with ⟨_, rfl, _⟩ | ⟨after', rfl, hinit⟩
  · exact absurd rfl (hd kind room)
  · obtain ⟨armed, rest, rfl⟩ := h before now kind room after' hinit
    exact ⟨armed, rest ++ [d], by rw [List.cons_append]⟩

/-- Deeds that take no signal to cancel a timer may be added. -/
theorem obeyed_append (h : Obeyed deeds) {added : Deeds}
    (hadded : ∀ d ∈ added, ∀ kind room, d.2 ≠ .run (.disarm kind room)) :
    Obeyed (deeds ++ added) := by
  induction added using List.reverseRecOn with
  | nil => rwa [List.append_nil]
  | append_singleton added d ih =>
      rw [← List.append_assoc]
      refine obeyed_concat (ih fun e he => hadded e ?_) (hadded d ?_)
      · exact List.mem_append_left _ he
      · exact List.mem_append_right _ List.mem_cons_self

/-- Such a signal is followed by its deed. -/
theorem obeyed_disarm (h : Obeyed deeds) (now : Moment) (kind : TimerKind) (room : Int) (armed : Bool) :
    Obeyed (deeds ++ [(now, .run (.disarm kind room)), (now, .disarm (kind, room) armed)]) := by
  intro before now' kind' room' after heq
  rw [List.append_cons] at heq
  rcases eq_or_of_snoc heq with ⟨_, hlast, _⟩ | ⟨after', rfl, hinit⟩
  · cases hlast
  rcases eq_or_of_snoc hinit with ⟨_, hrun, rfl⟩ | ⟨after'', rfl, hold⟩
  · cases hrun
    exact ⟨armed, [], rfl⟩
  · obtain ⟨armed', rest, rfl⟩ := h before now' kind' room' after'' hold
    exact ⟨armed', rest ++ [(now, .run (.disarm kind room))] ++ [(now, .disarm (kind, room) armed)],
      by simp⟩

/-- A call is no signal to cancel a timer. -/
theorem obeyed_call (h : Obeyed w.deeds) (cause : Cause) (c : EngineCall) :
    Obeyed (w.call now cause c).deeds := by
  unfold call
  split
  · split
    · exact obeyed_concat h fun _ _ => nofun
    · exact obeyed_concat h fun _ _ => nofun
  · exact h

theorem obeyed_takeSignal (h : Obeyed w.deeds) (s : Signal) (rest : List Signal) :
    Obeyed (w.takeSignal now s rest).deeds := by
  have hrun : (∀ kind room, s ≠ .disarm kind room) → Obeyed (w.deeds ++ [(now, .run s)]) := by
    intro hs
    refine obeyed_concat h fun kind room heq => ?_
    cases heq
    exact hs kind room rfl
  cases s with
  | disarm kind room =>
      have hdeeds : (w.takeSignal now (.disarm kind room) rest).deeds = w.deeds
          ++ [(now, .run (.disarm kind room)), (now, .disarm (kind, room) (w.timers.disarm _).1)] :=
        List.append_assoc _ _ _
      rw [hdeeds]
      exact obeyed_disarm h now kind room _
  | arm kind room wait => exact obeyed_concat (hrun fun _ _ => nofun) fun _ _ => nofun
  | _ =>
      refine obeyed_call ?_ .signal _
      exact hrun fun _ _ => nofun

theorem obeyed_turn (h : Obeyed w.deeds) : Obeyed (w.turn now).deeds := by
  cases turn_cases w now with
  | nothing heq => rwa [heq]
  | drain _ _ heq => rwa [heq]
  | report _ _ heq => rwa [heq]
  | take s rest _ _ heq =>
      rw [heq]
      exact obeyed_takeSignal h s rest
  | leave _ _ heq =>
      rw [heq]
      refine obeyed_call (w := { w with timers := w.timers.clear }.note now .clear) ?_ .farewell _
      exact obeyed_concat h fun _ _ => nofun
  | stop _ heq => rwa [heq]

theorem obeyed_of_aside {w' : Worker} (h : Obeyed w.deeds) (haside : Aside w w') : Obeyed w'.deeds := by
  obtain ⟨added, hdeeds, hadded⟩ := haside.deeds
  rw [hdeeds]
  refine obeyed_append h fun d hd kind room heq => ?_
  have := hadded d hd
  rw [heq] at this
  cases this

/-- Every event keeps it. -/
theorem obeyed_step (h : Obeyed w.deeds) (e : Event) : Obeyed (w.step (now, e)).deeds := by
  by_cases he : e.isTask = true
  · exact obeyed_of_aside h (aside_step he)
  cases step_cases w now e with
  | nothing heq | failStart _ heq | emit _ _ _ heq | quit heq | giveUp heq => rwa [heq]
  | start rest _ heq =>
      rw [heq]
      exact obeyed_of_aside (w := { w with phase := .running }) h (aside_receive now rest)
  | turn heq =>
      rw [heq]
      exact obeyed_turn h
  | _ => exact absurd rfl he

theorem obeyed_play (events : History) : Obeyed (new.play events).deeds := by
  induction events using List.reverseRecOn with
  | nil => exact obeyed_nil
  | append_singleton events e ih =>
      rw [play_append]
      exact obeyed_step ih e.2

/-! ## The laws -/

/-- What holds of the timers of a worker after whatever has happened to it. -/
structure RoomTimers (events : History) : Prop where
  /-- The register and the tasks that sleep belong together. -/
  matched : (new.play events).timers.Matched
  /-- A timer is pending if it is armed, and has the deadline it was armed for. -/
  pending : ∀ key deadline, (new.play events).timers.deadline? key = some deadline
    ↔ ∃ since wait, Armed (new.play events).deeds key since wait ∧ deadline = dueAt since wait
  /-- A timer wakes its room only if it has just fired, was armed and due until then, and the timers
  have not been dropped. -/
  issued : ∀ before now key c taken after,
    (new.play events).deeds = before ++ (now, .call (.timer key) c taken) :: after →
    c = wakeUp key ∧ (∀ d ∈ before, d.2 ≠ .clear) ∧ ∃ past since wait,
      before = past ++ [(now, .ring key)] ∧ Armed past key since wait ∧ dueAt since wait ≤ now
        ∧ (Punctual events → dueAt since wait = now)
  /-- A timer that is armed and due can fire. -/
  fires : ∀ key since wait now, (new.play events).phase = .running →
    Armed (new.play events).deeds key since wait → dueAt since wait ≤ now →
    ∃ task taken, ((new.play events).step (now, .ring task)).deeds = (new.play events).deeds
      ++ [(now, .ring key), (now, .call (.timer key) (wakeUp key) taken)]
  /-- When nothing is late, an armed timer to which nothing else is done wakes its room at its
  deadline, if the worker runs on past it. -/
  onTime : Punctual events → ∀ past middle now e rest key since wait added,
    events = past ++ middle ++ (now, e) :: rest → Armed (new.play past).deeds key since wait →
    (new.play (past ++ middle)).phase = .running → dueAt since wait < now →
    (new.play (past ++ middle)).deeds = (new.play past).deeds ++ added →
    (∀ d ∈ added, d.2.touches key = true → d.2 = .ring key) →
    ∃ taken, (dueAt since wait, .call (.timer key) (wakeUp key) taken) ∈ added
  /-- Between two firings of a timer it is armed. -/
  once : ∀ before now key mid now' after, (new.play events).deeds
      = before ++ (now, .ring key) :: mid ++ (now', .ring key) :: after →
    ∃ since wait, (since, .arm key wait) ∈ mid
  /-- To cancel a timer tells whether it was pending. -/
  cancels : ∀ before now key armed after,
    (new.play events).deeds = before ++ (now, .disarm key armed) :: after →
    (armed = true ↔ ∃ since wait, Armed before key since wait)
  /-- So it does to an engine that cancels one. -/
  answers : ∀ now ticket room, (new.play events).obey now ticket (.destroyRequestTimer room)
    = ((new.play events).disarm now (.request, room)).2.owe ticket
      (.tell (.ok (.bool ((new.play events).disarm now (.request, room)).1)))
  /-- To arm or to cancel a timer leaves every other one as it was. -/
  apart : ∀ now key key' wait, key ≠ key' →
    ((new.play events).arm now key wait).timers.deadline? key'
        = (new.play events).timers.deadline? key'
      ∧ ((new.play events).disarm now key).2.timers.deadline? key'
        = (new.play events).timers.deadline? key'
  /-- After a signal to cancel a timer has been taken it is armed only if it has been armed since. -/
  ended : ∀ before now kind room after since wait,
    (new.play events).deeds = before ++ (now, .run (.disarm kind room)) :: after →
    Armed (new.play events).deeds (kind, room) since wait → (since, .arm (kind, room) wait) ∈ after
  /-- And a room that ends has both of its timers cancelled by signals. -/
  finished : ∀ (h : Hall) room r s, h.pool.get? r.scheduler = some s → s.isAlive = true →
    ∃ told rest, (h.finish room r).acts = h.acts ++ told
        ++ [.signal r.scheduler (.disarm .delay room), .signal r.scheduler (.disarm .request room)]
        ++ rest
      ∧ (∀ a ∈ told, ∃ c record, a = .frame c record) ∧ ∀ a ∈ rest, a = .quit r.scheduler

/-- **Room timers fire when they should**, whatever happens to a worker. -/
theorem roomTimers_play (events : History) : RoomTimers events where
  matched := (timely_play events).matched
  pending := (timely_play events).armed
  issued := by
    intro before now key c taken after heq
    obtain ⟨hc, hclear, past, since, wait, hbefore, harmed, hdue⟩ :=
      (timely_play events).orderly before (now, .call (.timer key) c taken) after heq
    refine ⟨hc, hclear, past, since, wait, hbefore, harmed, hdue, fun hpunctual => ?_⟩
    obtain ⟨_, _, past', since', wait', hbefore', harmed', hexact⟩ :=
      (timely_play_punctual hpunctual).orderly before (now, .call (.timer key) c taken) after heq
    -- both say when the timer was armed, and it is the same arming
    obtain ⟨rfl, _⟩ := List.append_inj' (hbefore.symm.trans hbefore') rfl
    obtain ⟨rfl, rfl⟩ := armed_unique harmed harmed'
    exact hexact
  fires := fun _ _ _ _ hrunning => exists_ring (timely_play events) hrunning
  onTime := by
    intro hpunctual past middle now e rest key since wait added heq harmed hrunning hpast hadded hleft
    subst heq
    exact wakes_onTime hpunctual harmed hrunning hpast hadded hleft
  once := fun _ _ _ _ _ _ heq => armed_between (timely_play events).orderly heq
  cancels := fun before now key armed after heq =>
    (timely_play events).orderly before (now, .disarm key armed) after heq
  answers := fun _ _ _ => rfl
  apart := by
    intro now key key' wait hne
    have hmatched := (timely_play events).matched
    constructor
    · exact (Timers.deadline?_arm hmatched _ key').trans (if_neg hne)
    · exact (Timers.deadline?_disarm hmatched _ key').trans (if_neg hne)
  ended := by
    intro before now kind room after since wait heq harmed
    obtain ⟨armed, after', rfl⟩ := obeyed_play events before now kind room after heq
    have hdisarm : (new.play events).deeds = (before ++ [(now, .run (.disarm kind room))])
        ++ (now, .disarm (kind, room) armed) :: after' := by
      rw [heq, List.append_assoc, List.singleton_append]
    exact List.mem_cons_of_mem _ (armed_since hdisarm harmed)
  finished := fun _ _ _ _ hs halive => Hall.acts_finish hs halive

/-- A timer of 5 milliseconds is armed again after 2, and then one that has been armed for another room
is cancelled. -/
example : (new.play [(0, .start []), (0, .emit (.arm .delay 7 5)), (0, .turn),
      (2000000, .emit (.arm .delay 7 5)), (2000000, .turn), (2000000, .emit (.arm .delay 8 1)),
      (2000000, .turn), (2000000, .emit (.disarm .delay 8)), (2000000, .turn), (7000000, .ring 0),
      (7000000, .ring 1), (7000000, .ring 2)]).deeds.filter (fun d => d.2.touches (.delay, 7))
    = [(0, .arm (.delay, 7) 5), (2000000, .arm (.delay, 7) 5), (7000000, .ring (.delay, 7))] := by
  decide +kernel

end Worker

end GameHall
