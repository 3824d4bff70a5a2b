import GameHall.Proofs.Assoc
import GameHall.Scheduler.Timers

/-!
# The register of timers and the tasks that sleep

A timer is in two places: in the register, by its kind and room, and as a task that sleeps. Every
operation changes both, and keeps them in step (`Matched`): what the register has for a kind and room
is a task that sleeps for them, and every task that sleeps is in the register. So a task that wakes
takes its own entry out (`wake_eq_disarm`), whatever has been armed and cancelled since it was started,
and dropping all timers in the register ends all tasks (`clear_eq`).

All that is left to say of timers is when the timer of a kind of a room is due (`deadline?`), and each
operation says it for one kind and room and leaves the others as they were.
-/

namespace GameHall

namespace Timers

/-! ## The register and the tasks -/

/-- The register and the tasks that sleep tell the same. -/
structure Matched (ts : Timers) : Prop where
  once : (Assoc.keys ts.tasks).Nodup
  below : ∀ task ∈ Assoc.keys ts.tasks, task < ts.nextTask
  registered : ∀ key task, Assoc.get? ts.register key = some task →
    ∃ deadline, Assoc.get? ts.tasks task = some ⟨key, deadline⟩
  sleeping : ∀ task t, Assoc.get? ts.tasks task = some t → Assoc.get? ts.register t.key = some task

/-- When the timer of a kind of a room is due, if it is armed. -/
def deadline? (ts : Timers) (key : TimerKey) : Option Moment :=
  (Assoc.get? ts.register key).bind fun task => (Assoc.get? ts.tasks task).map TimerTask.deadline

variable {ts : Timers} {key : TimerKey}

theorem matched_empty : empty.Matched where
  once := List.nodup_nil
  below := fun _ h => absurd h List.not_mem_nil
  registered := fun _ _ h => nomatch h
  sleeping := fun _ _ h => nomatch h

theorem deadline?_of_task (h : ts.Matched) {task : Nat} {t : TimerTask}
    (ht : Assoc.get? ts.tasks task = some t) : ts.deadline? t.key = some t.deadline := by
  rw [deadline?, h.sleeping task t ht, Option.bind_some, ht, Option.map_some]

/-- A timer that is due some time has a task that sleeps until then. -/
theorem task_of_deadline? (h : ts.Matched) {deadline : Moment}
    (hd : ts.deadline? key = some deadline) :
    ∃ task, Assoc.get? ts.tasks task = some ⟨key, deadline⟩ := by
  obtain ⟨task, htask, hmap⟩ := Option.bind_eq_some_iff.mp hd
  obtain ⟨deadline', ht⟩ := h.registered key task htask
  rw [ht] at hmap
  cases hmap
  exact ⟨task, ht⟩

/-- A timer is armed just if it is in the register. -/
theorem deadline?_eq_none_iff (h : ts.Matched) :
    ts.deadline? key = none ↔ Assoc.get? ts.register key = none := by
  unfold deadline?
  cases hreg : Assoc.get? ts.register key with
  | none => simp
  | some task =>
      obtain ⟨deadline, ht⟩ := h.registered key task hreg
      simp [ht]

/-! ### Cancelling -/

theorem disarm_of_none (hnone : Assoc.get? ts.register key = none) :
    ts.disarm key = (false, ts) := by
  rw [disarm, hnone]

theorem disarm_of_some {task : Nat} (hsome : Assoc.get? ts.register key = some task) :
    ts.disarm key = (true, { ts with
      register := Assoc.erase ts.register key, tasks := Assoc.erase ts.tasks task }) := by
  rw [disarm, hsome]

/-- Cancelling tells whether the timer was armed. -/
theorem disarm_fst (h : ts.Matched) : (ts.disarm key).1 = (ts.deadline? key).isSome := by
  cases hreg : Assoc.get? ts.register key with
  | none => rw [disarm_of_none hreg, (deadline?_eq_none_iff h).mpr hreg]; rfl
  | some task =>
      obtain ⟨deadline, ht⟩ := h.registered key task hreg
      rw [disarm_of_some hreg, deadline?_of_task h ht]
      rfl

theorem get?_register_disarm (key' : TimerKey) : Assoc.get? (ts.disarm key).2.register key'
    = if key = key' then none else Assoc.get? ts.register key' := by
  cases hreg : Assoc.get? ts.register key with
  | none =>
      rw [disarm_of_none hreg]
      split
      · rename_i heq
        rw [← heq, hreg]
      · rfl
  | some task =>
      rw [disarm_of_some hreg]
      exact Assoc.get?_erase _ _ _

/-- The task that is ended is that of the timer. -/
theorem get?_tasks_disarm (task : Nat) : Assoc.get? (ts.disarm key).2.tasks task
    = if Assoc.get? ts.register key = some task then none else Assoc.get? ts.tasks task := by
  cases hreg : Assoc.get? ts.register key with
  | none => rw [disarm_of_none hreg, if_neg (by simp)]
  | some task' =>
      rw [disarm_of_some hreg]
      simp only [Assoc.get?_erase, Option.some.injEq]

theorem sublist_tasks_disarm : (ts.disarm key).2.tasks.Sublist ts.tasks := by
  unfold disarm
  split
  · exact List.filter_sublist
  · exact List.Sublist.refl _

theorem nextTask_disarm (ts : Timers) (key : TimerKey) :
    (ts.disarm key).2.nextTask = ts.nextTask := by
  unfold disarm
  split <;> rfl

theorem matched_disarm (h : ts.Matched) (key : TimerKey) : (ts.disarm key).2.Matched where
  once := h.once.sublist (sublist_tasks_disarm.map _)
  below := by
    intro task htask
    rw [nextTask_disarm]
    exact h.below task ((sublist_tasks_disarm.map _).subset htask)
  registered := by
    intro key' task hreg
    rw [get?_register_disarm] at hreg
    split at hreg
    · cases hreg
    rename_i hne
    obtain ⟨deadline, ht⟩ := h.registered key' task hreg
    refine ⟨deadline, ?_⟩
    rw [get?_tasks_disarm, if_neg, ht]
    -- a task is that of one timer only
    intro hsame
    obtain ⟨deadline', ht'⟩ := h.registered key task hsame
    cases ht.symm.trans ht'
    exact hne rfl
  sleeping := by
    intro task t ht
    rw [get?_tasks_disarm] at ht
    split at ht
    · cases ht
    rename_i hne
    have hreg := h.sleeping task t ht
    rw [get?_register_disarm, if_neg, hreg]
    intro heq
    rw [heq] at hne
    exact hne hreg

/-- A timer that is cancelled is not due any more, and the others are due when they were. -/
theorem deadline?_disarm (h : ts.Matched) (key key' : TimerKey) :
    (ts.disarm key).2.deadline? key' = if key = key' then none else ts.deadline? key' := by
  split
  · rename_i heq
    rw [deadline?_eq_none_iff (matched_disarm h key), get?_register_disarm, if_pos heq]
  · rename_i hne
    cases hd : ts.deadline? key' with
    | none =>
        rw [deadline?_eq_none_iff (matched_disarm h key), get?_register_disarm, if_neg hne]
        exact (deadline?_eq_none_iff h).mp hd
    | some deadline =>
        obtain ⟨task, ht⟩ := task_of_deadline? h hd
        have hkept : Assoc.get? (ts.disarm key).2.tasks task = some ⟨key', deadline⟩ := by
          rw [get?_tasks_disarm, if_neg, ht]
          intro hsame
          obtain ⟨deadline', ht'⟩ := h.registered key task hsame
          cases ht.symm.trans ht'
          exact hne rfl
        exact deadline?_of_task (matched_disarm h key) hkept

/-! ### Arming -/

/-- To arm a timer is to cancel it and to start a task. -/
theorem arm_eq (ts : Timers) (key : TimerKey) (deadline : Moment) :
    (ts.arm key deadline).tasks = (ts.disarm key).2.tasks ++ [(ts.nextTask, ⟨key, deadline⟩)] := by
  unfold arm disarm
  cases Assoc.get? ts.register key <;> rfl

/-- A task number that has not been given has no task. -/
theorem get?_tasks_of_fresh (h : ts.Matched) : Assoc.get? ts.tasks ts.nextTask = none := by
  cases hget : Assoc.get? ts.tasks ts.nextTask with
  | none => rfl
  | some t =>
      have hmem : ts.nextTask ∈ Assoc.keys ts.tasks := by
        rw [Assoc.mem_keys_iff, hget]
        rfl
      exact absurd (h.below _ hmem) (Nat.lt_irrefl _)

theorem get?_tasks_arm (h : ts.Matched) (deadline : Moment) (task : Nat) :
    Assoc.get? (ts.arm key deadline).tasks task
      = if task = ts.nextTask then some ⟨key, deadline⟩ else Assoc.get? (ts.disarm key).2.tasks task := by
  rw [arm_eq, Assoc.get?_append]
  have hfresh := get?_tasks_of_fresh (matched_disarm h key)
  rw [nextTask_disarm] at hfresh
  by_cases heq : task = ts.nextTask
  · subst heq
    rw [hfresh, if_pos rfl]
    simp [Assoc.get?]
  · rw [if_neg heq]
    have hne : ¬ ts.nextTask = task := fun h => heq h.symm
    simp [Assoc.get?, hne]

theorem matched_arm (h : ts.Matched) (key : TimerKey) (deadline : Moment) :
    (ts.arm key deadline).Matched := by
  have hd := matched_disarm h key
  have hbelow : ∀ task ∈ Assoc.keys (ts.disarm key).2.tasks, task < ts.nextTask := fun task htask =>
    nextTask_disarm ts key ▸ hd.below task htask
  exact {
    once := by
      rw [arm_eq, Assoc.keys_append]
      refine List.nodup_append.mpr ⟨hd.once, List.nodup_singleton _, ?_⟩
      intro task htask task' htask' heq
      rw [List.mem_singleton.mp htask'] at heq
      exact absurd (hbelow task htask) (heq ▸ Nat.lt_irrefl _)
    below := by
      intro task htask
      rw [arm_eq, Assoc.keys_append, List.mem_append] at htask
      rcases htask with hold | hnew
      · exact Nat.lt_succ_of_lt (hbelow task hold)
      · rw [List.mem_singleton.mp hnew]
        exact Nat.lt_succ_self _
    registered := by
      intro key' task hreg
      have hreg' : Assoc.get? (Assoc.set ts.register key ts.nextTask) key' = some task := hreg
      rw [Assoc.get?_set] at hreg'
      split at hreg'
      · rename_i heq
        cases hreg'
        subst heq
        exact ⟨deadline, by rw [get?_tasks_arm h, if_pos rfl]⟩
      · -- the tasks of other keys are left asleep, and their numbers are below the new one
        rename_i hne
        have hkept : Assoc.get? (ts.disarm key).2.register key' = some task := by
          rw [get?_register_disarm, if_neg hne, hreg']
        obtain ⟨deadline', ht⟩ := hd.registered key' task hkept
        refine ⟨deadline', ?_⟩
        have hmem : task ∈ Assoc.keys (ts.disarm key).2.tasks := by
          rw [Assoc.mem_keys_iff, ht]
          rfl
        rw [get?_tasks_arm h, if_neg (Nat.ne_of_lt (hbelow task hmem)), ht]
    sleeping := by
      intro task t ht
      show Assoc.get? (Assoc.set ts.register key ts.nextTask) t.key = some task
      rw [get?_tasks_arm h] at ht
      split at ht
      · rename_i heq
        cases ht
        rw [Assoc.get?_set_self, heq]
      · have hreg := hd.sleeping task t ht
        rw [get?_register_disarm] at hreg
        split at hreg
        · cases hreg
        · rename_i hne
          rw [Assoc.get?_set_of_ne hne, hreg] }

/-- A timer that is armed is due anew, and the others are due when they were. -/
theorem deadline?_arm (h : ts.Matched) (deadline : Moment) (key' : TimerKey) :
    (ts.arm key deadline).deadline? key' = if key = key' then some deadline else ts.deadline? key' := by
  have ha := matched_arm h key deadline
  split
  · rename_i heq
    have ht : Assoc.get? (ts.arm key deadline).tasks ts.nextTask = some ⟨key, deadline⟩ := by
      rw [get?_tasks_arm h, if_pos rfl]
    exact heq ▸ deadline?_of_task ha ht
  · rename_i hne
    have hold := deadline?_disarm h key key'
    rw [if_neg hne] at hold
    rw [← hold]
    have hreg : Assoc.get? (ts.arm key deadline).register key'
        = Assoc.get? (ts.disarm key).2.register key' := by
      rw [get?_register_disarm, if_neg hne]
      exact Assoc.get?_set_of_ne hne
    unfold deadline?
    rw [hreg]
    cases htask : Assoc.get? (ts.disarm key).2.register key' with
    | none => rfl
    | some task =>
        obtain ⟨deadline', ht⟩ := (matched_disarm h key).registered key' task htask
        have hmem : task ∈ Assoc.keys (ts.disarm key).2.tasks := by
          rw [Assoc.mem_keys_iff, ht]
          rfl
        have hlt := (matched_disarm h key).below task hmem
        rw [nextTask_disarm] at hlt
        rw [Option.bind_some, Option.bind_some, get?_tasks_arm h, if_neg (Nat.ne_of_lt hlt)]

/-! ### Firing and dropping -/

/-- **A task that wakes takes its own entry out**, and no other: what the register has for its kind and
room is this task. -/
theorem wake_eq_disarm (h : ts.Matched) {task : Nat} {t : TimerTask}
    (ht : Assoc.get? ts.tasks task = some t) : ts.wake task t.key = (ts.disarm t.key).2 := by
  rw [disarm_of_some (h.sleeping task t ht)]
  rfl

/-- **To drop the timers ends every task.** -/
theorem clear_eq (h : ts.Matched) : ts.clear = ⟨[], [], ts.nextTask⟩ := by
  have hnone : ts.tasks.filter (fun e => decide (e.1 ∉ ts.register.map Prod.snd)) = [] := by
    refine List.filter_eq_nil_iff.mpr fun e he => ?_
    have hget := (Assoc.get?_eq_some_iff h.once).mpr he
    have hmem := List.mem_map_of_mem (f := Prod.snd) (Assoc.mem_of_get? (h.sleeping e.1 e.2 hget))
    simpa using hmem
  rw [clear, hnone]

theorem matched_clear (h : ts.Matched) : ts.clear.Matched := by
  rw [clear_eq h]
  exact ⟨List.nodup_nil, fun _ h => absurd h List.not_mem_nil, fun _ _ h => (nomatch h),
    fun _ _ h => (nomatch h)⟩

theorem deadline?_clear (h : ts.Matched) (key : TimerKey) : ts.clear.deadline? key = none := by
  rw [clear_eq h]
  rfl

end Timers

end GameHall
