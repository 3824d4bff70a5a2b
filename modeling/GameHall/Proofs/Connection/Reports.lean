import GameHall.Connection

/-!
# What a connection reports

A connection reports records while its reading loop runs, and its end when the loop ends. Whatever the
client and both loops do, nothing comes after the end (`closed_last`).
-/

namespace GameHall

namespace Connection

/-- What a connection may report in several steps. -/
inductive Reports : Connection → List Report → Connection → Prop where
  | nil (k : Connection) : Reports k [] k
  | cons {k k' k'' : Connection} {l l' : List Report} (hstep : Step k l k')
      (hreports : Reports k' l' k'') : Reports k (l ++ l') k''

variable {k k' : Connection} {l : List Report}

/-- A reading loop that has ended does not run again, and reports nothing. -/
theorem step_of_ended (h : Step k l k') (hended : k.reading = false) :
    l = [] ∧ k'.reading = false := by
  cases h with
  | receive chunk => simp [receive, hended]
  | lose => simp [stopReading, hended]
  | cancel => simp [stopReading, hended]
  | push o =>
      unfold push
      split
      · exact ⟨rfl, hended⟩
      · exact ⟨rfl, hended⟩
  | write =>
      unfold writeNext
      split <;> exact ⟨rfl, hended⟩
  | fail => exact ⟨rfl, hended⟩
  | drain =>
      unfold drain
      split
      · exact ⟨rfl, hended⟩
      · exact ⟨rfl, hended⟩

theorem reports_of_ended (h : Reports k l k') (hended : k.reading = false) : l = [] := by
  induction h with
  | nil => rfl
  | cons hstep _ ih =>
      obtain ⟨rfl, hended'⟩ := step_of_ended hstep hended
      exact ih hended'

/-- Records, and perhaps the end after them. -/
def Ended (l : List Report) : Prop := ∃ before, l = before ++ [.closed] ∧ .closed ∉ before

theorem closed_not_mem_map (records : List Record) : Report.closed ∉ records.map Report.record := by
  intro hmem
  obtain ⟨_, _, heq⟩ := List.mem_map.mp hmem
  cases heq

theorem ended_of_stopReading (k : Connection) :
    .closed ∉ k.stopReading.1 ∨ Ended k.stopReading.1 ∧ k.stopReading.2.reading = false := by
  unfold stopReading
  split
  · exact Or.inr ⟨⟨[], rfl, List.not_mem_nil⟩, rfl⟩
  · exact Or.inl List.not_mem_nil

/-- The end is the last thing that a step reports, and then the reading loop has ended. -/
theorem ended_of_step (h : Step k l k') : .closed ∉ l ∨ Ended l ∧ k'.reading = false := by
  cases h with
  | receive chunk =>
      unfold receive
      split
      · split
        · exact Or.inl (closed_not_mem_map _)
        · exact Or.inr ⟨⟨_, rfl, closed_not_mem_map _⟩, rfl⟩
      · exact Or.inl List.not_mem_nil
  | lose => exact ended_of_stopReading k
  | cancel => exact ended_of_stopReading k
  | push | write | fail | drain => exact Or.inl List.not_mem_nil

theorem ended_of_reports (h : Reports k l k') : .closed ∉ l ∨ Ended l := by
  induction h with
  | nil => exact Or.inl List.not_mem_nil
  | cons hstep hreports ih =>
      rcases ended_of_step hstep with hnone | ⟨hlast, hended⟩
      · rcases ih with hnone' | ⟨before, rfl, hnone'⟩
        · exact Or.inl (by simp [hnone, hnone'])
        · exact Or.inr ⟨_ ++ before, (List.append_assoc ..).symm, by simp [hnone, hnone']⟩
      -- nothing comes after a step that reports the end
      · rw [reports_of_ended hreports hended, List.append_nil]
        exact Or.inr hlast

/-- **Nothing follows the end of a connection.** -/
theorem closed_last {before later : List Report} {report : Report}
    (h : Reports k (before ++ report :: later) k') : .closed ∉ before := by
  intro hmem
  rcases ended_of_reports h with hnone | ⟨records, heq, hnone⟩
  · exact hnone (List.mem_append_left _ hmem)
  · refine hnone ?_
    have hrecords : records = before ++ (report :: later).dropLast := by
      rw [← List.dropLast_append_of_ne_nil (List.cons_ne_nil report later), heq, List.dropLast_concat]
    rw [hrecords]
    exact List.mem_append_left _ hmem

end Connection

end GameHall
