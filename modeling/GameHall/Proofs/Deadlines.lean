import GameHall.Proofs.Hall.Doom
import GameHall.Proofs.Json.RoundTrip
import GameHall.Proofs.Messaging.Wakeups
import GameHall.Proofs.Scheduler.Outgoing
import GameHall.Proofs.Scheduler.Timers

/-!
# Deadlines and the end of the clock

A deadline is a moment and a span, and the clock has a last moment. Spans come from three sides. Engines
name milliseconds in words of 64 bits, for waits and for timers, and in words of 32 bits for requests: as
long as the clock is in its first half these deadlines are moments (`Waiting.limited_play`,
`Worker.limited_play`, `Router.exists_deadline`). The settings name minutes in a word of 64 bits, and
these may go beyond the last moment, where a ban is the end of the main loop (`deadlines_run`,
`not_always_within`).
-/

namespace GameHall

/-! ## Early moments -/

namespace Moment

/-- The first half of the clock. -/
def IsEarly (now : Moment) : Prop := now < (1 <<< 62) * 1000000000

variable {now : Moment} {span : Duration}

theorem lt_limit_of_isEarly (hnow : now.IsEarly) (hspan : span.nanoseconds ≤ (1 <<< 62) * 1000000000) :
    now + span.nanoseconds < limit := by
  have hhalf : limit = (1 <<< 62) * 1000000000 + (1 <<< 62) * 1000000000 := by decide
  rw [hhalf]
  exact Nat.add_lt_add_of_lt_of_le hnow hspan

/-- A word of milliseconds is less than half of the clock. -/
theorem lt_limit_of_millis {wait : Nat} (hnow : now.IsEarly) (hwait : wait < UInt64.size) :
    now + (Duration.ofMillis wait).nanoseconds < limit := by
  refine lt_limit_of_isEarly hnow ?_
  have hword : UInt64.size * 1000000 ≤ (1 <<< 62) * 1000000000 := by decide
  exact Nat.le_trans (Nat.mul_le_mul_right 1000000 (Nat.le_of_lt hwait)) hword

end Moment

/-! ## How long calls wait -/

namespace HostCall

/-- For how many milliseconds a call waits, or makes a room wait. -/
def wait? : HostCall → Option Nat
  | waitForReply _ wait | delay _ wait | setRequestTimer _ wait => some wait
  | _ => none

/-- A call that is accepted does not wait longer than a signed word can tell. -/
def Limited (x : Except String HostCall) : Prop :=
  ∀ call wait, x = .ok call → call.wait? = some wait → wait < 1 <<< 63

theorem ok_of_bind {α β : Type} {x : Except String α} {f : α → Except String β} {b : β}
    (h : x >>= f = .ok b) : ∃ a, x = .ok a ∧ f a = .ok b := by
  cases x with
  | error words => cases h
  | ok a => exact ⟨a, rfl, h⟩

theorem limited_bind {α : Type} {x : Except String α} {f : α → Except String HostCall}
    (h : ∀ a, x = .ok a → Limited (f a)) : Limited (x >>= f) := by
  intro call wait hcall hwait
  obtain ⟨a, ha, hfa⟩ := ok_of_bind hcall
  exact h a ha call wait hfa hwait

theorem limited_of_none {call : HostCall} (h : call.wait? = none) : Limited (.ok call) := by
  intro call' wait hcall hwait
  cases hcall
  cases h.symm.trans hwait

theorem limited_of_lt {call : HostCall} {v : Int} (h : call.wait? = some v.toNat) (hv : v < 1 <<< 63) :
    Limited (.ok call) := by
  intro call' wait hcall hwait
  cases hcall
  cases h.symm.trans hwait
  omega

theorem limited_error (words : String) : Limited (.error words) := fun _ _ h => nomatch h

/-- An integer is a signed word. -/
theorem intParam_lt {c : Packet.Call} {place : Nat} {v : Int} (h : intParam c place = .ok v) :
    v < 1 <<< 63 := by
  obtain ⟨value, _, hvalue⟩ := ok_of_bind h
  split at hvalue
  · rename_i word _
    cases hvalue
    exact word.toInt_lt
  · cases hvalue

theorem timerParams_lt {c : Packet.Call} {room : Int} {wait : Nat}
    (h : timerParams c = .ok (room, wait)) : ∃ v : Int, wait = v.toNat ∧ v < 1 <<< 63 := by
  obtain ⟨_, _, h⟩ := ok_of_bind h
  obtain ⟨v, hv, h⟩ := ok_of_bind h
  split at h
  · cases h
  · cases h
    exact ⟨v, rfl, intParam_lt hv⟩

theorem limited_ofMethod (c : Packet.Call) (m : Method) : Limited (ofMethod c m) := by
  cases m with
  | qDebug | qInfo | qWarning | qCritical | print => exact limited_of_none rfl
  | doNotify =>
      exact limited_bind fun _ _ => limited_bind fun _ _ => limited_bind fun _ _ => limited_of_none rfl
  | doRequest =>
      exact limited_bind fun _ _ => limited_bind fun _ _ => limited_bind fun _ _ =>
        limited_bind fun _ _ => limited_bind fun _ _ => limited_of_none rfl
  | waitForReply =>
      refine limited_bind fun connection _ => limited_bind fun v hv => ?_
      split
      · exact limited_error _
      · exact limited_of_lt rfl (intParam_lt hv)
  | setThinking | setDied => exact limited_bind fun _ _ => limited_bind fun _ _ => limited_of_none rfl
  | delay | setRequestTimer =>
      refine limited_bind fun (room, wait) hparams => ?_
      obtain ⟨v, rfl, hv⟩ := timerParams_lt hparams
      exact limited_of_lt rfl hv
  | thinking | emitKick | destroyRequestTimer | temporarilyBan | gameOver =>
      exact limited_bind fun _ _ => limited_of_none rfl

/-- **A call that is accepted waits for a word of milliseconds**, even a signed one. -/
theorem wait_lt {c : Packet.Call} {call : HostCall} {wait : Nat} (h : ofCall? c = some (.ok call))
    (hwait : call.wait? = some wait) : wait < UInt64.size := by
  obtain ⟨m, _, hm⟩ := Option.map_eq_some_iff.mp h
  have hlt := limited_ofMethod c m call wait hm hwait
  exact Nat.lt_trans hlt (by decide)

end HostCall

/-! ## What settings can tell -/

namespace Settings

theorem tempBanTime_put {s s' : Settings} {v : Json} {field : Field} (h : s.put v field = some s')
    (hs : s.tempBanTime < UInt64.size) : s'.tempBanTime < UInt64.size := by
  cases field with
  | tempBanTime =>
      obtain ⟨n, hn, rfl⟩ := Option.map_eq_some_iff.mp h
      unfold Json.asWord? at hn
      split at hn
      · split at hn
        · rename_i hword
          cases hn
          exact of_decide_eq_true (Bool.and_eq_true_iff.mp hword).2
        · cases hn
      · cases hn
  | _ =>
      obtain ⟨x, _, rfl⟩ := Option.map_eq_some_iff.mp h
      exact hs

theorem tempBanTime_ofMembers {s s' : Settings} {left : List Field}
    {members : List (Option String × Json)} (h : ofMembers s left members = some s')
    (hs : s.tempBanTime < UInt64.size) : s'.tempBanTime < UInt64.size := by
  induction members generalizing s left with
  | nil =>
      cases h
      exact hs
  | cons member members ih =>
      obtain ⟨key, v⟩ := member
      cases key with
      | none => cases h
      | some key =>
          rw [ofMembers] at h
          split at h
          · exact ih h hs
          · split at h
            · obtain ⟨next, hput, hrest⟩ := Option.bind_eq_some_iff.mp h
              exact ih hrest (tempBanTime_put hput hs)
            · cases h

theorem tempBanTime_ofElements {s s' : Settings} {fields : List Field} {elements : List Json}
    (h : ofElements s fields elements = some s') (hs : s.tempBanTime < UInt64.size) :
    s'.tempBanTime < UInt64.size := by
  induction elements generalizing s fields with
  | nil =>
      rw [ofElements] at h
      cases h
      exact hs
  | cons v elements ih =>
      cases fields with
      | nil => cases h
      | cons field fields =>
          obtain ⟨next, hput, hrest⟩ := Option.bind_eq_some_iff.mp h
          exact ih hrest (tempBanTime_put hput hs)

theorem tempBanTime_lt {text : String} {s : Settings} (h : read text = some s) :
    s.tempBanTime < UInt64.size := by
  have hinitial : initial.tempBanTime < UInt64.size := by decide
  obtain ⟨v, _, hv⟩ := Option.bind_eq_some_iff.mp h
  unfold ofJson at hv
  split at hv
  · exact tempBanTime_ofMembers hv hinitial
  · exact tempBanTime_ofElements hv hinitial
  · cases hv

/-- A document that tells nothing but how long bans are. -/
def banDocument (n : Nat) : Json := .object [(some "tempBanTime", .ofNat n)]

theorem read_banDocument {n : Nat} (hn : n < UInt64.size) :
    read (banDocument n).render = some { initial with tempBanTime := n } := by
  have hdepth : (banDocument n).depth ≤ Json.maxDepth := by
    have hone : (banDocument n).depth = 1 := rfl
    rw [hone]
    decide
  have hword : (Json.ofNat n).asWord? = some n := by simp [Json.ofNat, Json.asWord?, hn]
  have hput : initial.put (.ofNat n) .tempBanTime = some { initial with tempBanTime := n } := by
    rw [put, hword, Option.map_some]
  have hread := Json.read_render (v := banDocument n) ⟨rfl, rfl, trivial⟩ hdepth
  rw [read, hread]
  show (initial.put (.ofNat n) .tempBanTime).bind (fun s => ofMembers s _ []) = _
  rw [hput]
  rfl

/-- **A document can tell any word of minutes**, and no more. -/
theorem exists_read_iff (n : Nat) :
    (∃ text s, read text = some s ∧ s.tempBanTime = n) ↔ n < UInt64.size := by
  constructor
  · rintro ⟨text, s, hread, rfl⟩
    exact tempBanTime_lt hread
  · exact fun hn => ⟨_, _, read_banDocument hn, rfl⟩

end Settings

/-! ## Bans -/

namespace Hall

variable {h : Hall}

/-- Bans for half the seconds of the clock, in its first half, end within it. -/
theorem not_endless (hnow : Moment.IsEarly h.now) (hshort : h.settings.tempBanTime * 60 ≤ 1 <<< 62) :
    ¬ h.Endless := fun hend =>
  Nat.not_lt.mpr hend.2 (Moment.lt_limit_of_isEarly hnow (Nat.mul_le_mul_right 1000000000 hshort))

/-- Bans for all the seconds of the clock do not, whatever the time is. -/
theorem endless_of_le (hlong : 1 <<< 63 ≤ h.settings.tempBanTime * 60) : h.Endless := by
  refine ⟨by omega, Nat.le_trans ?_ (Nat.le_add_left _ h.now)⟩
  exact Nat.mul_le_mul_right 1000000000 hlong

end Hall

/-! ## Waits -/

namespace Waiting

/-- Each wait is what a call asks for, at an early moment. -/
def Asked (events : History) : Prop :=
  ∀ now span, (now, .enter span) ∈ events → now.IsEarly ∧ ∃ c call wait,
    HostCall.ofCall? c = some (.ok call) ∧ call.wait? = some wait ∧ span = .ofMillis wait

/-- **The deadline of every wait is a moment.** -/
theorem limited_play {start : Moment} {events : History} (hasked : Asked events) :
    ∀ w ∈ (run start events).waits, w.deadline < Moment.limit := by
  intro w hw
  obtain ⟨i, hi⟩ := List.mem_iff_getElem?.mp hw
  obtain ⟨past, now, span, later, rfl, _, hdeadline⟩ := exists_enter hi
  obtain ⟨hnow, c, call, wait, hcall, hwait, rfl⟩ := hasked now span (by simp)
  rw [hdeadline]
  exact Moment.lt_limit_of_millis hnow (HostCall.wait_lt hcall hwait)

end Waiting

/-! ## Timers -/

/-- A signal names a word of milliseconds, if any. -/
def Signal.IsShort : Signal → Prop
  | arm _ _ wait => wait < UInt64.size
  | _ => True

namespace Worker

/-- What happens early, and with a short signal if with one. -/
def IsShort (e : Moment × Event) : Prop :=
  e.1.IsEarly ∧ match e.2 with
    | .emit s => s.IsShort
    | _ => True

/-- The tasks that sleep wake at some moment, and so do those that the signals of the queue ask for. -/
structure Limited (w : Worker) : Prop where
  tasks : ∀ task ∈ w.timers.tasks, task.2.deadline < Moment.limit
  queued : ∀ s ∈ w.signals, s.IsShort

variable {w w' : Worker} {now : Moment}

theorem limited_of_subset (h : Limited w) (htasks : w'.timers.tasks ⊆ w.timers.tasks)
    (hsignals : w'.signals ⊆ w.signals) : Limited w' :=
  ⟨fun task htask => h.tasks task (htasks htask), fun s hs => h.queued s (hsignals hs)⟩

theorem limited_of_eq (h : Limited w) (htimers : w'.timers = w.timers)
    (hsignals : w'.signals = w.signals) : Limited w' := by
  obtain ⟨htasks, hqueued⟩ := h
  rw [← htimers] at htasks
  rw [← hsignals] at hqueued
  exact ⟨htasks, hqueued⟩

theorem limited_call (h : Limited w) (cause : Cause) (c : EngineCall) :
    Limited (w.call now cause c) := by
  rcases call_cases w now cause c with ⟨_, heq⟩ | ⟨_, _, _, heq⟩ | ⟨_, _, heq⟩
  · rwa [heq]
  · rw [heq]
    exact limited_of_eq h rfl rfl
  · rw [heq]
    exact limited_of_eq h rfl rfl

/-- To arm a timer early and for a word of milliseconds starts a task that wakes at some moment. -/
theorem limited_arm (h : Limited w) (hnow : now.IsEarly) (key : TimerKey) {wait : Nat}
    (hwait : wait < UInt64.size) : Limited (w.arm now key wait) where
  tasks := by
    intro task htask
    have hmem : task ∈ (w.timers.arm key (now + (Duration.ofMillis wait).nanoseconds)).tasks := htask
    -- the task that was there before ends, the others stay, and one is new
    rw [Timers.arm_eq] at hmem
    rcases List.mem_append.mp hmem with hold | hnew
    · exact h.tasks task (Timers.sublist_tasks_disarm.subset hold)
    · rw [List.mem_singleton.mp hnew]
      exact Moment.lt_limit_of_millis hnow hwait
  queued := h.queued

theorem limited_disarm (h : Limited w) (key : TimerKey) : Limited (w.disarm now key).2 :=
  limited_of_subset h Timers.sublist_tasks_disarm.subset (List.Subset.refl _)

theorem limited_ring (h : Limited w) (task : Nat) : Limited (w.ring now task) := by
  unfold ring
  split
  · rename_i t _
    split
    · have hwake : Limited ({ w with timers := w.timers.wake task t.key }.note now (.ring t.key)) :=
        limited_of_subset h List.filter_sublist.subset (List.Subset.refl _)
      exact limited_call hwake _ _
    · exact h
  · exact h

/-- What a signal of the queue asks for is short. -/
theorem limited_takeSignal (h : Limited w) (hnow : now.IsEarly) {s : Signal} {rest : List Signal}
    (hsignals : w.signals = s :: rest) : Limited (w.takeSignal now s rest) := by
  have hrest : Limited ({ w with signals := rest }.note now (.run s)) :=
    limited_of_subset h (List.Subset.refl _) (hsignals ▸ List.subset_cons_self s rest)
  have hs : s.IsShort := h.queued s (hsignals ▸ List.mem_cons_self)
  cases s with
  | arm kind room wait => exact limited_arm hrest hnow (kind, room) hs
  | disarm kind room => exact limited_disarm hrest (kind, room)
  | _ => exact limited_call hrest .signal _

theorem limited_turn (h : Limited w) (hnow : now.IsEarly) : Limited (w.turn now) := by
  cases turn_cases w now with
  | nothing heq => rwa [heq]
  | drain _ _ heq | report _ _ heq =>
      rw [heq]
      exact limited_of_eq h rfl rfl
  | take s rest _ hsignals heq =>
      rw [heq]
      exact limited_takeSignal h hnow hsignals
  | leave _ _ heq =>
      rw [heq]
      have hclear : Limited ({ w with timers := w.timers.clear }.note now .clear) :=
        limited_of_subset h List.filter_sublist.subset (List.Subset.refl _)
      exact limited_of_eq (limited_call hclear .farewell EngineCall.bye) rfl rfl
  | stop _ heq =>
      rw [heq]
      exact limited_of_subset h (List.Subset.refl _) (List.nil_subset _)

theorem limited_obey (h : Limited w) (hnow : now.IsEarly) (ticket : Nat) {call : HostCall}
    (hcall : ∀ wait, call.wait? = some wait → wait < UInt64.size) :
    Limited (w.obey now ticket call) := by
  cases call with
  | delay room wait => exact limited_of_eq (limited_arm h hnow (.delay, room) (hcall wait rfl)) rfl rfl
  | setRequestTimer room wait =>
      exact limited_of_eq (limited_arm h hnow (.request, room) (hcall wait rfl)) rfl rfl
  | destroyRequestTimer room =>
      have hdisarm : Limited (w.disarm now (.request, room)).2 := limited_disarm h (.request, room)
      exact limited_of_eq hdisarm rfl rfl
  | _ => exact limited_of_eq h rfl rfl

theorem limited_serve (h : Limited w) (hnow : now.IsEarly) (entry : Nat × Packet.Call) :
    Limited (w.serve now entry) := by
  unfold serve
  split
  · exact h
  · exact limited_of_eq h rfl rfl
  · rename_i call hcall
    exact limited_obey h hnow entry.1 fun _ hwait => HostCall.wait_lt hcall hwait

theorem limited_receive (h : Limited w) (hnow : now.IsEarly) (chunk : Octets) :
    Limited (w.receive now chunk) := by
  have hserve : ∀ (entries : Assoc Nat Packet.Call) {w : Worker}, Limited w →
      Limited (entries.foldl (serve now) w) := by
    intro entries
    induction entries with
    | nil => exact id
    | cons entry entries ih => exact fun h => ih (limited_serve h hnow entry)
  exact hserve _ (limited_of_eq h rfl rfl)

theorem limited_runErrand (h : Limited w) (ticket : Nat) : Limited (w.runErrand now ticket) := by
  unfold runErrand
  dsimp only
  split
  · exact limited_of_eq h rfl rfl
  · exact limited_of_eq h rfl rfl
  · exact h

/-- **What happens early leaves every task with a deadline on the clock.** -/
theorem limited_step (h : Limited w) {e : Event} (he : IsShort (now, e)) :
    Limited (w.step (now, e)) := by
  obtain ⟨hnow, hshort⟩ := he
  cases step_cases w now e with
  | nothing heq => rwa [heq]
  | start rest _ heq =>
      rw [heq]
      have hrunning : Limited { w with phase := .running } := limited_of_eq h rfl rfl
      exact limited_receive hrunning hnow rest
  | failStart _ heq =>
      rw [heq]
      exact limited_of_subset h (List.Subset.refl _) (List.nil_subset _)
  | emit s _ _ heq =>
      rw [heq]
      -- the signal waits in the queue until it is taken, and is as short then
      refine ⟨h.tasks, fun s' hs' => ?_⟩
      rcases List.mem_append.mp hs' with hold | hnew
      · exact h.queued s' hold
      · rw [List.mem_singleton.mp hnew]
        exact hshort
  | turn heq =>
      rw [heq]
      exact limited_turn h hnow
  | receive chunk _ heq =>
      rw [heq]
      exact limited_receive h hnow chunk
  | errand ticket _ heq =>
      rw [heq]
      exact limited_runErrand h ticket
  | ring task _ heq =>
      rw [heq]
      exact limited_ring h task
  | quit heq | giveUp heq | endOfOutput _ heq | answer _ _ _ heq | write heq | failWriting heq =>
      rw [heq]
      exact limited_of_eq h rfl rfl

theorem limited_new : Limited new :=
  ⟨fun _ h => absurd h List.not_mem_nil, fun _ h => absurd h List.not_mem_nil⟩

/-- **The deadline of every timer is a moment.** -/
theorem limited_play {events : History} (hevents : ∀ e ∈ events, IsShort e) :
    Limited (new.play events) := by
  induction events using List.reverseRecOn with
  | nil => exact limited_new
  | append_singleton events e ih =>
      rw [play_append]
      exact limited_step (ih fun e' he' => hevents e' (List.mem_append_left _ he'))
        (hevents e (by simp))

end Worker

/-! ## Requests -/

/-- **Replies to an early request are in time until a moment**, if there is a time for them. -/
theorem Router.exists_deadline {r : Router} (hissued : r.issuedAt.IsEarly) (htime : 0 ≤ r.timeout) :
    ∃ deadline < Moment.limit, ∀ now, r.inTime now = true ↔ now ≤ deadline := by
  refine ⟨r.issuedAt + (Duration.ofMillis r.timeout.toNatClampNeg).nanoseconds, ?_, fun now => ?_⟩
  · exact Moment.lt_limit_of_millis hissued (Nat.lt_trans r.timeout.toNatClampNeg_lt (by decide))
  · have hneg : ¬ r.timeout < 0 := Int32.not_lt.mpr htime
    unfold Router.inTime
    rw [Bool.or_eq_true, decide_eq_true_iff, decide_eq_true_iff, or_iff_right hneg,
      Nat.sub_le_iff_le_add, Nat.add_comm]

/-! ## All deadlines -/

open Hall in
/-- What deadlines come to, those of a run and those of waits, timers and requests. -/
structure DeadlineLaws (start : Hall) (events : List Event) : Prop where
  /-- A settings document tells the minutes of a ban in a word of 64 bits, which may be any. -/
  settings : ∀ n, (∃ text s, Settings.read text = some s ∧ s.tempBanTime = n) ↔ n < UInt64.size
  /-- The main loop dies just of an event that bans someone while bans would end beyond the clock. -/
  dies : (start.run events).crashed = true
    ↔ ∃ past e later, events = past ++ e :: later ∧ (start.run past).Dooms e
  /-- It does not if bans are made in the first half of the clock, for no more than half of its seconds. -/
  spared : (∀ past e later, events = past ++ e :: later → (∃ a, (start.run past).Bans e a) →
      Moment.IsEarly (start.run past).now ∧ (start.run past).settings.tempBanTime * 60 ≤ 1 <<< 62) →
    (start.run events).crashed = false
  /-- It does, whatever the time is, if one is made for all its seconds. -/
  doomed : ∀ past e later, events = past ++ e :: later → (∃ a, (start.run past).Bans e a) →
    1 <<< 63 ≤ (start.run past).settings.tempBanTime * 60 → (start.run events).crashed = true
  /-- A ban that is made ends at a moment, in its time. -/
  bans : ∀ past e later a t m, events = past ++ e :: later → (start.run past).BansAt e a t m →
    (start.run (past ++ [e])).crashed = false →
    Assoc.get? (start.run (past ++ [e])).bans a = some (t + minutes m) ∧ t + minutes m < Moment.limit
  /-- Waits that engines ask for end at a moment, -/
  waits : ∀ since history, Waiting.Asked history →
    ∀ w ∈ (Waiting.run since history).waits, w.deadline < Moment.limit
  /-- and so do the pauses that their timers are for. -/
  timers : ∀ history, (∀ e ∈ history, Worker.IsShort e) →
    ∀ task ∈ (Worker.new.play history).timers.tasks, task.2.deadline < Moment.limit
  /-- The time for the reply to a request is over at a moment, unless it has none. -/
  requests : ∀ r : Router, r.issuedAt.IsEarly → 0 ≤ r.timeout →
    ∃ deadline < Moment.limit, ∀ now, r.inTime now = true ↔ now ≤ deadline

open Hall in
/-- **All deadlines are on the clock but those of bans**, which are the end of the main loop if they are
not. -/
theorem deadlines_run (authenticator : Authenticator) (settings : Settings) (fingerprint : String)
    (epoch : Int) (events : List Event) :
    DeadlineLaws (new authenticator settings fingerprint epoch) events := by
  have hb := balanced_new authenticator settings fingerprint epoch
  have hdies := crashed_run hb rfl events
  exact {
    settings := Settings.exists_read_iff
    dies := hdies
    spared := by
      intro hearly
      -- the main loop dies only at a ban, and early moments have room for a short one
      refine Bool.eq_false_iff.mpr fun hdead => ?_
      obtain ⟨past, e, later, heq, hdoom⟩ := hdies.mp hdead
      obtain ⟨hnow, hshort⟩ := hearly past e later heq hdoom.bans
      exact not_endless hnow hshort hdoom.endless
    doomed := by
      intro past e later heq hbans hlong
      cases hpast : ((new authenticator settings fingerprint epoch).run past).crashed with
      | true => rw [heq, run_append, run_of_crashed hpast, hpast]
      | false => exact hdies.mpr ⟨past, e, later, heq, hpast, hbans, endless_of_le hlong⟩
    bans := by
      intro past e later a t m _ hban hup
      rw [run_append] at hup ⊢
      exact ends_of_bans (balanced_run hb past) hban hup
    waits := fun _ _ => Waiting.limited_play
    timers := fun _ hhistory => (Worker.limited_play hhistory).tasks
    requests := fun _ => Router.exists_deadline }

/-- Someone comes, and is banned. -/
def firstBan : List Hall.Event := [.accept (.v4 10 0 0 1), .temporarilyBan 1]

open Hall in
/-- So it is not so that the main loop is up in the first half of the clock: a document may tell more
minutes than there are, and the first ban is its end. -/
theorem not_always_within :
    ¬ ∀ (text : String) (settings : Settings), Settings.read text = some settings →
      ∀ events : List Event, let h := (new (.openToAll []) settings "rules" 0).run events
        Moment.IsEarly h.now → h.crashed = false := by
  intro hup
  have hread := Settings.read_banDocument (n := UInt64.size - 1) (by decide)
  have hdead : ((new (.openToAll []) { Settings.initial with tempBanTime := UInt64.size - 1 } "rules"
      0).run firstBan).crashed = true := by decide +kernel
  have hearly : Moment.IsEarly ((new (.openToAll []) { Settings.initial with
      tempBanTime := UInt64.size - 1 } "rules" 0).run firstBan).now := by
    unfold Moment.IsEarly
    decide +kernel
  cases hdead.symm.trans (hup _ _ hread firstBan hearly)

end GameHall
