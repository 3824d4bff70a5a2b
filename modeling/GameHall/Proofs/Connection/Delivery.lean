import GameHall.Proofs.Connection.Loops

/-!
# What a connection delivers

Both loops of a connection stop each other, and neither loses anything by it. Whatever happens, in
whatever order (`Connection.delivers_run`):

* what has been reported are the records at the front of what has been read, and the end once, behind
  them, when the reading loop has ended;
* what the client has been sent is the front of the frames that were put into the queue before a mark
  that closes the connection, and all of them when the writing loop has ended without a failure.

The records at the front of a stream are told by the language of records, not by the reader
(`Record.Spelled`).
-/

namespace GameHall

namespace Connection

/-! ## Later -/

namespace History

variable (h : History)

theorem run_append (events later : List Event) : h.run (events ++ later) = (h.run events).run later :=
  List.foldl_append

/-- A reading loop that has ended has nothing more to report. -/
theorem deaf_step {h : History} (hreading : h.connection.reading = false) (event : Event) :
    (h.step event).connection.reading = false ∧ (h.step event).reports = h.reports := by
  cases hside : event.isReading with
  | false =>
      rw [h.step_writing hside]
      exact ⟨(sameReader_on h.connection hside).reading.trans hreading, rfl⟩
  | true =>
      have hon : h.connection.on event = ([], h.connection) := by
        cases event with
        | push | write | fail | drain | abandon => cases hside
        | receive chunk => rw [on, receive, hreading]; rfl
        | lose => rw [on, stopReading, hreading]; rfl
        | cancel => rw [on, stopReading, hreading]; simp
      rw [h.step_reading hside, hon]
      exact ⟨hreading, List.append_nil _⟩

theorem deaf_run {h : History} (hreading : h.connection.reading = false) (events : List Event) :
    (h.run events).connection.reading = false ∧ (h.run events).reports = h.reports := by
  induction events generalizing h with
  | nil => exact ⟨hreading, rfl⟩
  | cons event events ih =>
      obtain ⟨hreading', hreports⟩ := deaf_step hreading event
      obtain ⟨hend, hlater⟩ := ih hreading'
      exact ⟨hend, hlater.trans hreports⟩

/-- What has been queued stays in front. -/
theorem queued_run (events : List Event) : ∃ later, (h.run events).queued = h.queued ++ later := by
  induction events generalizing h with
  | nil => exact ⟨[], (List.append_nil _).symm⟩
  | cons event events ih =>
      obtain ⟨later, hlater⟩ := ih (h.step event)
      rw [run, List.foldl_cons]
      rw [run] at hlater
      rw [hlater, step]
      dsimp only
      split
      · exact ⟨event.queued ++ later, List.append_assoc ..⟩
      · exact ⟨later, rfl⟩

end History

/-! ## Both loops come to rest -/

/-- The writing loop does what it can. -/
def flush (c : Connection) : Connection :=
  (c.drain.queue.foldl (fun c _ => c.writeNext) c.drain).writeNext

theorem writeNext_of_ended {c : Connection} (h : c.writer = .ended) : c.writeNext = c := by
  rcases c.writeNext_cases with ⟨hsame, _⟩ | ⟨hgoing, _⟩
  · exact hsame
  · exact absurd h hgoing

theorem foldl_of_ended (queue : List Outgoing) {c : Connection} (h : c.writer = .ended) :
    queue.foldl (fun c _ => c.writeNext) c = c := by
  induction queue with
  | nil => rfl
  | cons o queue ih => rw [List.foldl_cons, writeNext_of_ended h, ih]

/-- A loop that has taken as much as there was in the queue has ended or left nothing. -/
theorem rest_of_foldl (queue : List Outgoing) {c c' : Connection} (hqueue : c.queue = queue)
    (h : queue.foldl (fun c _ => c.writeNext) c = c') :
    c'.writer = .ended ∨ c'.queue = [] ∧ c'.writer = c.writer := by
  induction queue generalizing c with
  | nil =>
      subst h
      exact Or.inr ⟨hqueue, rfl⟩
  | cons o queue ih =>
      rw [List.foldl_cons] at h
      -- one piece fewer in the queue at each step, unless the writing has ended
      rcases c.writeNext_cases with
        ⟨hsame, hended | ⟨_, hnil⟩⟩ | ⟨_, ⟨octets, rest, hrest, hnext⟩ | ⟨_, hnext⟩⟩
      · rw [hsame, foldl_of_ended queue hended] at h
        subst h
        exact Or.inl hended
      · rw [hqueue] at hnil
        cases hnil
      · rw [hqueue] at hrest
        cases hrest
        rw [hnext] at h
        have hlater := ih rfl h
        exact hlater
      · rw [hnext, foldl_of_ended queue rfl] at h
        subst h
        exact Or.inl rfl

/-- Flushed, the loop has ended, or it waits and nobody has cancelled it. -/
theorem rest_of_flush (c : Connection) : c.flush.writer = .ended
    ∨ c.flush.queue = [] ∧ c.flush.writer = .running ∧ c.cancelled = false := by
  obtain ⟨c', hfold⟩ : ∃ c', c.drain.queue.foldl (fun c _ => c.writeNext) c.drain = c' := ⟨_, rfl⟩
  rw [flush, hfold]
  rcases rest_of_foldl c.drain.queue rfl hfold with hended | ⟨hqueue, hwriter⟩
  · rw [writeNext_of_ended hended]
    exact Or.inl hended
  cases hdrain : c.drain.writer with
  | ended =>
      rw [writeNext_of_ended (hwriter.trans hdrain)]
      exact Or.inl (hwriter.trans hdrain)
  | draining =>
      rw [writeNext, hwriter, hdrain, hqueue]
      exact Or.inl rfl
  | running =>
      rw [writeNext, hwriter, hdrain, hqueue]
      refine Or.inr ⟨hqueue, hwriter.trans hdrain, ?_⟩
      unfold drain at hdrain
      split at hdrain
      · cases hdrain
      · rename_i hrunning
        rw [hdrain] at hrunning
        simpa using hrunning

namespace History

variable (h : History)

def flush (h : History) : History := { h with connection := h.connection.flush }

theorem exists_run_write (queue : List Outgoing) : ∃ events, h.run events
    = { h with connection := queue.foldl (fun c _ => c.writeNext) h.connection } := by
  induction queue generalizing h with
  | nil => exact ⟨[], rfl⟩
  | cons o queue ih =>
      obtain ⟨events, hevents⟩ := ih (h.step .write)
      refine ⟨.write :: events, ?_⟩
      rw [run, List.foldl_cons, ← run, hevents, h.step_quiet rfl rfl]
      rfl

theorem exists_run_flush : ∃ events, h.run events = h.flush := by
  obtain ⟨events, hevents⟩ := (h.step .drain).exists_run_write h.connection.drain.queue
  refine ⟨.drain :: (events ++ [.write]), ?_⟩
  rw [run, List.foldl_cons, ← run, run_append, hevents, run, List.foldl_cons, List.foldl_nil,
    step_quiet _ rfl rfl, step_quiet _ rfl rfl]
  rfl

theorem settle_eq : h.settle =
    if h.flush.connection.cancelled then (h.flush.step .cancel).flush else h.flush := by
  have hsettle : h.connection.settle = if h.connection.flush.cancelled
      then (h.connection.flush.stopReading.1, h.connection.flush.stopReading.2.flush)
      else ([], h.connection.flush) := rfl
  rw [settle, hsettle]
  by_cases hcancelled : h.connection.flush.cancelled = true
  · have hon : h.flush.connection.on .cancel = h.connection.flush.stopReading := if_pos hcancelled
    rw [if_pos hcancelled, if_pos (show h.flush.connection.cancelled = true from hcancelled),
      step_reading _ rfl, hon, show Event.cancel.octets = [] from rfl, List.append_nil, ite_self]
    rfl
  · rw [if_neg hcancelled, if_neg (show ¬ h.flush.connection.cancelled = true from hcancelled),
      List.append_nil]
    rfl

theorem exists_run_settle : ∃ events, h.run events = h.settle := by
  obtain ⟨events, hevents⟩ := h.exists_run_flush
  rw [h.settle_eq]
  split
  · obtain ⟨later, hlater⟩ := (h.flush.step .cancel).exists_run_flush
    refine ⟨events ++ .cancel :: later, ?_⟩
    rw [run_append, hevents]
    exact hlater
  · exact ⟨events, hevents⟩

end History

/-! ## What is delivered -/

section

variable {h : History}

theorem Reads.flush (hr : Reads h) : Reads h.flush := by
  obtain ⟨events, hevents⟩ := h.exists_run_flush
  exact hevents ▸ hr.run events

theorem Writes.flush (hw : Writes h) : Writes h.flush := by
  obtain ⟨events, hevents⟩ := h.exists_run_flush
  exact hevents ▸ hw.run events

/-- Flushed, the writing loop has sent all that there was to send. -/
theorem Writes.sent_of_flush (hw : Writes h) (hfailed : h.failed = false) :
    h.flush.connection.sent = toSend h.queued := by
  rcases h.connection.rest_of_flush with hended | ⟨hqueue, hwriter, _⟩
  · exact hw.flush.whole hended hfailed
  · have hgoing : h.flush.connection.writer ≠ .ended := fun hended => by
      rw [show h.flush.connection.writer = .running from hwriter] at hended
      cases hended
    obtain ⟨gone, _, hqueued, hsent⟩ := hw.flush.going hgoing
    rw [show h.flush.connection.queue = [] from hqueue, List.append_nil] at hqueued
    rw [hsent, ← hqueued]
    rfl

/-- It has ended if it found a mark, or had been cancelled. -/
theorem Writes.ended_of_flush (hw : Writes h)
    (hstop : .close ∈ h.queued ∨ h.connection.cancelled = true) :
    h.flush.connection.writer = .ended := by
  rcases h.connection.rest_of_flush with hended | ⟨hqueue, hwriter, hcancelled⟩
  · exact hended
  rcases hstop with hclose | hstop
  · have hgoing : h.flush.connection.writer ≠ .ended := fun hended => by
      rw [show h.flush.connection.writer = .running from hwriter] at hended
      cases hended
    -- a loop that still runs has taken the whole queue, and the mark with it
    obtain ⟨gone, hnone, hqueued, _⟩ := hw.flush.going hgoing
    rw [show h.flush.connection.queue = [] from hqueue, List.append_nil] at hqueued
    exact absurd (hqueued ▸ hclose) hnone
  · rw [hcancelled] at hstop
    cases hstop

/-- A loop that has been cancelled ends when it notices. -/
theorem History.reading_cancel (hcancelled : h.connection.cancelled = true) :
    (h.step .cancel).connection.reading = false := by
  have hon : h.connection.on .cancel = h.connection.stopReading := if_pos hcancelled
  rw [step, hon, stopReading_eq]

theorem History.reading_lose (h : History) : (h.step .lose).connection.reading = false := by
  rw [step, on, stopReading_eq]

theorem History.queued_cancel (h : History) : (h.step .cancel).queued = h.queued ∧
    (h.step .cancel).failed = h.failed := by
  rw [h.step_reading rfl]
  exact ⟨rfl, rfl⟩

/-- At rest, all that there was to send has been sent. -/
theorem Writes.sent_of_settle (hw : Writes h) (hfailed : h.failed = false) :
    h.settle.connection.sent = toSend h.queued := by
  rw [h.settle_eq]
  split
  · obtain ⟨hqueued, hsame⟩ := h.flush.queued_cancel
    have hsent := (hw.flush.step .cancel).sent_of_flush (hsame.trans hfailed)
    rw [hsent, hqueued]
    rfl
  · exact hw.sent_of_flush hfailed

/-- At rest, both loops have ended if one of them has or a mark has been queued. -/
theorem Writes.ended_of_settle (hw : Writes h)
    (hstop : .close ∈ h.queued ∨ h.connection.cancelled = true) :
    h.settle.connection.writer = .ended ∧ h.settle.connection.reading = false := by
  have hcancelled := (hw.flush.ended (hw.ended_of_flush hstop)).2
  rw [h.settle_eq, if_pos hcancelled]
  obtain ⟨events, hevents⟩ := (h.flush.step .cancel).exists_run_flush
  constructor
  · have hsame : SameWriter h.flush.connection (h.flush.step .cancel).connection :=
      sameWriter_on h.flush.connection rfl
    exact (hw.flush.step .cancel).ended_of_flush (Or.inr (hsame.cancelled hcancelled))
  · exact hevents ▸ (History.deaf_run (History.reading_cancel hcancelled) events).1

end

/-- The records at the front of what has been read have been reported, these and no others, and behind
them the end if the reading loop has ended. It has unless what is left may yet become a record. -/
structure Reported (h : History) (records : List Record) (left : Octets) : Prop where
  spelled : Record.Spelled h.input records left
  only : ∀ records' left', Record.Spelled h.input records' left' → records' = records
  reports : h.reports = records.map .record ++ ending h.connection.reading
  unfinished : h.connection.reading = true → Record.IsUnfinished left

theorem Reads.reported {h : History} (hr : Reads h) : ∃ records left, Reported h records left := by
  obtain ⟨left, hleft, hfault⟩ := Record.exists_spelled rfl h.input
  exact ⟨_, left, {
    spelled := hleft
    only := fun _ _ hother => (Record.frames_of_spelled hother).symm
    reports := hr.reports
    unfinished := fun hreading => hfault.mp (hr.codec hreading).1 }⟩

/-- What a connection owes to the server and to the client. -/
structure Delivers (h : History) : Prop where
  reported : ∃ records left, Reported h records left
  /-- Nothing follows the end. -/
  silent : h.connection.reading = false → ∀ events, (h.run events).reports = h.reports
  /-- The reading loop ends when the client has closed its side or reading has failed. -/
  loses : (h.step .lose).connection.reading = false
  /-- A loop that has ended has cancelled the other, which ends when it notices. -/
  cancelled : h.connection.reading = false ∨ h.connection.writer = .ended → h.connection.cancelled = true
  cancels : h.connection.cancelled = true → (h.step .cancel).connection.reading = false
  /-- The client is sent the frames in front of the first mark, in the order of the queue. -/
  sent : h.connection.sent <+: toSend h.queued
  /-- A writing loop that has ended without a failure has sent all of them. -/
  whole : h.connection.writer = .ended → h.failed = false → h.connection.sent = toSend h.queued
  /-- Nothing that is queued behind a mark is ever sent. -/
  behind : .close ∈ h.queued → ∀ events, (h.run events).connection.sent <+: toSend h.queued
  /-- Nothing that has been queued is lost, whichever loop ends first. -/
  flushed : h.failed = false → h.settle.connection.sent = toSend h.queued
  /-- At rest, both loops have ended if one of them has or a mark has been queued, and the end has been
  reported. -/
  rests : .close ∈ h.queued ∨ h.connection.cancelled = true →
    h.settle.connection.writer = .ended ∧ h.settle.connection.reading = false
      ∧ ∃ records left, Reported h.settle records left

/-- **A connection delivers.** Whatever happens to it, in whatever order. -/
theorem delivers_run (events : List Event) : Delivers (History.new.run events) := by
  have hr := reads_new.run events
  have hw := writes_new.run events
  -- reader and writer are apart: what each of them keeps is all that is needed of the run
  generalize History.new.run events = h at hr hw
  exact {
    reported := hr.reported
    silent := fun hreading events => (History.deaf_run hreading events).2
    loses := h.reading_lose
    cancelled := fun hended => hended.elim hr.cancelled fun hended => (hw.ended hended).2
    cancels := History.reading_cancel
    sent := hw.front
    whole := hw.whole
    behind := by
      intro hclose events
      obtain ⟨later, hlater⟩ := h.queued_run events
      have hfront := (hw.run events).front
      rw [hlater, toSend_of_close hclose] at hfront
      exact hfront
    flushed := hw.sent_of_settle
    rests := by
      intro hstop
      obtain ⟨hwriter, hreading⟩ := hw.ended_of_settle hstop
      obtain ⟨events, hevents⟩ := h.exists_run_settle
      exact ⟨hwriter, hreading, (hevents ▸ hr.run events).reported⟩ }

/-- Two frames, a mark and a frame too late, for a client that has closed its side. -/
example : ((History.new.run [.push (.frame [1, 2]), .push (.frame [3]), .lose, .push .close,
    .push (.frame [4])]).settle.connection.sent) = [1, 2, 3] := by decide +kernel

end Connection

end GameHall
