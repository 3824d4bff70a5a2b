import GameHall.Proofs.Connection.Histories

/-!
# The loops of a connection

Each loop has an invariant of its own. What the reading loop has reported are the records at the front of
what it has read, and the end behind them when it has ended (`Reads`). What the writing loop has sent is the
front of what was put into the queue before a mark that closes the connection, and all of it when it has
ended without a failure (`Writes`).
-/

namespace GameHall

namespace Connection

/-! ## Reading -/

/-- The end is reported when the reading loop has ended. -/
def ending (reading : Bool) : List Report := if reading then [] else [.closed]

/-- A loop that reads reports what there is to read up to a fault, which ends it. -/
theorem receive_eq {c : Connection} (hreading : c.reading = true) {draft : Option RecordDraft} {rest : Octets}
    (hcodec : c.codec = ⟨draft, rest, none⟩) {chunk : Octets} {d : Shape.Drained RecordDraft Record}
    (hd : Record.shape.drain draft (rest ++ chunk) = d) :
    c.receive chunk = (d.frames.map .record ++ ending d.fault.isNone, { c with
      codec := ⟨d.draft, d.rest, none⟩
      reading := d.fault.isNone
      cancelled := c.cancelled || d.fault.isSome }) := by
  rw [receive, if_pos hreading, hcodec, Codec.absorb_eq _ rfl, hd]
  cases d.fault with
  | none => simp [ending, hreading]
  | some fault => simp [ending]

theorem stopReading_eq (c : Connection) : c.stopReading = (if c.reading then [.closed] else [],
    { c with reading := false, cancelled := c.cancelled || c.reading }) := by
  unfold stopReading
  split
  · rename_i hreading
    simp [endReading, hreading]
  · rename_i hreading
    rw [Bool.not_eq_true] at hreading
    cases c
    cases hreading
    simp

/-- What is said of a history about the reading loop. -/
structure Reads (h : History) : Prop where
  reports : h.reports = h.read.frames.map .record ++ ending h.connection.reading
  /-- A loop that reads has not come to a fault, and has in its codec what the input has left. -/
  codec : h.connection.reading = true →
    h.read.fault = none ∧ h.connection.codec = ⟨h.read.draft, h.read.rest, none⟩
  /-- One that has ended has cancelled the other. -/
  cancelled : h.connection.reading = false → h.connection.cancelled = true

theorem reads_new : Reads History.new := by
  have hread : History.new.read = ⟨[], none, none, []⟩ := Record.shape.drain_nil
  exact {
    reports := by rw [hread]; rfl
    codec := fun _ => by rw [hread]; exact ⟨rfl, rfl⟩
    cancelled := fun h => by cases h }

namespace Reads

variable {h : History}

theorem of_same (hk : Reads h) {c' : Connection} (hsame : SameReader h.connection c')
    (queued : List Outgoing) (failed : Bool) :
    Reads { h with connection := c', queued := queued, failed := failed } where
  reports := by
    dsimp only
    rw [hsame.reading]
    exact hk.reports
  codec := by
    dsimp only
    rw [hsame.reading, hsame.codec]
    exact hk.codec
  cancelled := by
    dsimp only
    rw [hsame.reading]
    exact fun hreading => hsame.cancelled (hk.cancelled hreading)

/-- The end is reported once. -/
theorem stop (hk : Reads h) (queued : List Outgoing) (failed : Bool) : Reads { h with
    connection := h.connection.stopReading.2
    reports := h.reports ++ h.connection.stopReading.1
    queued := queued
    failed := failed } := by
  rw [stopReading_eq]
  exact {
    reports := by
      dsimp only
      rw [hk.reports, List.append_assoc]
      cases h.connection.reading <;> rfl
    codec := fun h => by cases h
    cancelled := fun _ => by
      cases hreading : h.connection.reading with
      | true => exact Bool.or_true _
      | false => rw [hk.cancelled hreading]; rfl }

theorem receive (hk : Reads h) (chunk : Octets) : Reads (h.step (.receive chunk)) := by
  cases hreading : h.connection.reading with
  | false =>
      have hdeaf : h.connection.on (.receive chunk) = ([], h.connection) := by
        rw [on, Connection.receive, hreading]
        rfl
      rw [History.step, hdeaf, hreading]
      dsimp only
      rw [List.append_nil]
      exact hk.of_same (SameReader.refl _) _ _
  | true =>
      obtain ⟨hfault, hcodec⟩ := hk.codec hreading
      obtain ⟨d, hd⟩ : ∃ d, Record.shape.drain h.read.draft (h.read.rest ++ chunk) = d := ⟨_, rfl⟩
      have hreceive := receive_eq hreading hcodec hd
      have hread : (h.step (.receive chunk)).read = d.after h.read.frames := by
        rw [History.read, History.step, hreading, ← hd]
        exact Record.shape.drain_more hfault chunk
      exact {
        reports := by
          rw [hread, History.step, on, hreceive]
          dsimp only
          rw [hk.reports, hreading, Shape.Drained.after, List.map_append]
          simp [ending]
        codec := by
          intro hnone
          rw [History.step, on, hreceive] at hnone
          rw [hread, History.step, on, hreceive]
          exact ⟨Option.isNone_iff_eq_none.mp hnone, rfl⟩
        cancelled := by
          intro hsome
          rw [History.step, on, hreceive] at hsome ⊢
          dsimp only at hsome ⊢
          rw [Bool.or_eq_true_iff]
          right
          cases hd : d.fault with
          | none => rw [hd] at hsome; cases hsome
          | some fault => rfl }

/-- **Whatever happens**, what has been read has been reported. -/
theorem step (hk : Reads h) (event : Event) : Reads (h.step event) := by
  cases hside : event.isReading with
  | false =>
      rw [h.step_writing hside]
      exact hk.of_same (sameReader_on h.connection hside) _ _
  | true =>
      cases event with
      | push | write | fail | drain | abandon => cases hside
      | receive chunk => exact hk.receive chunk
      | lose =>
          rw [History.step, show Event.lose.octets = [] from rfl, List.append_nil, ite_self]
          exact hk.stop _ _
      | cancel =>
          rw [History.step, show Event.cancel.octets = [] from rfl, List.append_nil, ite_self, on]
          split
          · exact hk.stop _ _
          · rw [List.append_nil]
            exact hk.of_same (SameReader.refl _) _ _

theorem run (hk : Reads h) (events : List Event) : Reads (h.run events) := by
  induction events generalizing h with
  | nil => exact hk
  | cons event events ih => exact ih (hk.step event)

end Reads

/-! ## Writing -/

/-- The frames in front of the first mark that closes the connection. -/
def toSend : List Outgoing → Octets
  | .frame octets :: queue => octets ++ toSend queue
  | _ => []

theorem toSend_append {queue : List Outgoing} (h : .close ∉ queue) (later : List Outgoing) :
    toSend (queue ++ later) = toSend queue ++ toSend later := by
  induction queue with
  | nil => rfl
  | cons o queue ih =>
      rw [List.mem_cons, not_or] at h
      cases o with
      | close => exact absurd rfl h.1
      | frame octets => rw [List.cons_append, toSend, toSend, ih h.2, List.append_assoc]

/-- Nothing that stands behind a mark is sent. -/
theorem toSend_of_close {queue : List Outgoing} (h : .close ∈ queue) (later : List Outgoing) :
    toSend (queue ++ later) = toSend queue := by
  induction queue with
  | nil => cases h
  | cons o queue ih =>
      cases o with
      | close => rfl
      | frame octets =>
          rcases List.mem_cons.mp h with heq | h
          · cases heq
          · rw [List.cons_append, toSend, toSend, ih h]

theorem prefix_toSend (queue later : List Outgoing) : toSend queue <+: toSend (queue ++ later) := by
  by_cases h : .close ∈ queue
  · exact ⟨[], (List.append_nil _).trans (toSend_of_close h later).symm⟩
  · rw [toSend_append h]
    exact List.prefix_append _ _

theorem prefix_begun (c : Connection) (part : Nat) : c.begun part <+: toSend c.queue := by
  unfold begun
  split
  · rename_i octets queue hqueue
    rw [hqueue, toSend]
    exact (List.take_prefix part octets).trans (List.prefix_append octets _)
  · exact List.nil_prefix

/-- The writing loop has ended, waits, sends the frame that stands first, or ends where none does. -/
theorem writeNext_cases (c : Connection) :
    (c.writeNext = c ∧ (c.writer = .ended ∨ c.writer = .running ∧ c.queue = []))
      ∨ c.writer ≠ .ended ∧ ((∃ octets queue, c.queue = .frame octets :: queue
          ∧ c.writeNext = { c with queue := queue, sent := c.sent ++ octets })
        ∨ toSend c.queue = [] ∧ c.writeNext = c.endWriting) := by
  unfold writeNext
  split
  · rename_i hended
    exact Or.inl ⟨rfl, Or.inl hended⟩
  · rename_i octets queue hqueue hgoing
    exact Or.inr ⟨hgoing, Or.inl ⟨octets, queue, hqueue, rfl⟩⟩
  · rename_i queue hqueue hgoing
    exact Or.inr ⟨hgoing, Or.inr ⟨by rw [hqueue]; rfl, rfl⟩⟩
  · rename_i hwriter hqueue
    exact Or.inr ⟨by rw [hwriter]; decide, Or.inr ⟨by rw [hqueue]; rfl, rfl⟩⟩
  · rename_i hwriter hqueue
    exact Or.inl ⟨rfl, Or.inr ⟨hwriter, hqueue⟩⟩

/-- What is said of a history about the writing loop. -/
structure Writes (h : History) : Prop where
  /-- A loop that has not ended has sent what stood in front of the queue, and found no mark there. -/
  going : h.connection.writer ≠ .ended → ∃ gone, .close ∉ gone
    ∧ h.queued = gone ++ h.connection.queue ∧ h.connection.sent = toSend gone
  /-- One that has ended has cancelled the other. -/
  ended : h.connection.writer = .ended → h.connection.queue = [] ∧ h.connection.cancelled = true
  front : h.connection.sent <+: toSend h.queued
  whole : h.connection.writer = .ended → h.failed = false → h.connection.sent = toSend h.queued

theorem writes_new : Writes History.new where
  going := fun _ => ⟨[], List.not_mem_nil, rfl, rfl⟩
  ended := fun h => by cases h
  front := List.prefix_refl _
  whole := fun h => by cases h

namespace Writes

variable {h : History}

theorem of_same (hk : Writes h) {c' : Connection} (hsame : SameWriter h.connection c')
    (input : Octets) (reports : List Report) :
    Writes { h with connection := c', input := input, reports := reports } where
  going := by
    dsimp only
    rw [hsame.writer, hsame.queue, hsame.sent]
    exact hk.going
  ended := by
    dsimp only
    rw [hsame.writer, hsame.queue]
    exact fun hended => ⟨(hk.ended hended).1, hsame.cancelled (hk.ended hended).2⟩
  front := by
    dsimp only
    rw [hsame.sent]
    exact hk.front
  whole := by
    dsimp only
    rw [hsame.writer, hsame.sent]
    exact hk.whole

theorem push (hk : Writes h) (o : Outgoing) : Writes { h with
    connection := h.connection.push o
    queued := if h.connection.isOpen then h.queued ++ [o] else h.queued } := by
  rw [Connection.push]
  split
  · rename_i hopen
    have hgoing : h.connection.writer ≠ .ended := by
      rw [isOpen, decide_eq_true_eq] at hopen
      rw [hopen]
      decide
    exact {
      going := by
        intro _
        obtain ⟨gone, hclose, hqueued, hsent⟩ := hk.going hgoing
        exact ⟨gone, hclose, by rw [hqueued, List.append_assoc], hsent⟩
      ended := fun hended => absurd hended hgoing
      front := hk.front.trans (prefix_toSend _ _)
      whole := fun hended => absurd hended hgoing }
  · exact hk

/-- A loop that finds no frame in the queue has sent all that there was to send. -/
theorem finish (hk : Writes h) (hgoing : h.connection.writer ≠ .ended)
    (hnone : toSend h.connection.queue = []) :
    Writes { h with connection := h.connection.endWriting } := by
  obtain ⟨gone, hclose, hqueued, hsent⟩ := hk.going hgoing
  have hwhole : h.connection.sent = toSend h.queued := by
    rw [hqueued, toSend_append hclose, hnone, List.append_nil, hsent]
  exact {
    going := fun h => absurd rfl h
    ended := fun _ => ⟨rfl, rfl⟩
    front := hk.front
    whole := fun _ _ => hwhole }

theorem writeNext (hk : Writes h) : Writes { h with connection := h.connection.writeNext } := by
  rcases h.connection.writeNext_cases with
    ⟨hsame, _⟩ | ⟨hgoing, ⟨octets, queue, hqueue, hnext⟩ | ⟨hnone, hnext⟩⟩
  · rw [hsame]
    exact hk
  · obtain ⟨gone, hclose, hqueued, hsent⟩ := hk.going hgoing
    rw [hqueue] at hqueued
    have hclose' : .close ∉ gone ++ [.frame octets] := by simp [hclose]
    have hsent' : h.connection.sent ++ octets = toSend (gone ++ [.frame octets]) := by
      rw [toSend_append hclose, hsent]
      simp [toSend]
    have hqueued' : h.queued = (gone ++ [.frame octets]) ++ queue := by
      rw [hqueued, List.append_assoc]
      rfl
    rw [hnext]
    exact {
      going := fun _ => ⟨gone ++ [.frame octets], hclose', hqueued', hsent'⟩
      ended := fun hended => absurd hended hgoing
      front := by
        dsimp only
        rw [hsent', hqueued']
        exact prefix_toSend _ _
      whole := fun hended => absurd hended hgoing }
  · rw [hnext]
    exact hk.finish hgoing hnone

/-- A writing that fails has sent the beginning of what there was to send. -/
theorem fail (hk : Writes h) (part : Nat) : Writes { h with
    connection := { h.connection.endWriting with sent := h.connection.sent ++ h.connection.begun part }
    failed := true } where
  going := fun h => absurd rfl h
  ended := fun _ => ⟨rfl, rfl⟩
  front := by
    dsimp only
    by_cases hended : h.connection.writer = .ended
    · have hbegun := h.connection.prefix_begun part
      rw [(hk.ended hended).1] at hbegun
      rw [List.prefix_nil.mp hbegun, List.append_nil]
      exact hk.front
    · obtain ⟨gone, hclose, hqueued, hsent⟩ := hk.going hended
      rw [hqueued, toSend_append hclose, hsent]
      exact (List.prefix_append_right_inj _).mpr (h.connection.prefix_begun part)
  whole := fun _ h => by cases h

/-- A loop that runs may come to accept nothing more. -/
theorem shut (hk : Writes h) (hopen : h.connection.writer = .running) :
    Writes { h with connection := { h.connection with writer := .draining } } := by
  have hgoing : h.connection.writer ≠ .ended := by
    rw [hopen]
    decide
  exact {
    going := fun _ => hk.going hgoing
    ended := fun h => by cases h
    front := hk.front
    whole := fun h => by cases h }

/-- **Whatever happens**, what has been sent is what there was to send. -/
theorem step (hk : Writes h) (event : Event) : Writes (h.step event) := by
  cases hside : event.isReading with
  | true =>
      rw [h.step_reading hside]
      exact hk.of_same (sameWriter_on h.connection hside) _ _
  | false =>
      cases event with
      | receive | lose | cancel => cases hside
      | push o =>
          rw [h.step_writing hside]
          exact hk.push o
      | write =>
          rw [h.step_quiet hside rfl]
          exact hk.writeNext
      | fail part =>
          rw [h.step_quiet hside rfl]
          exact hk.fail part
      | drain =>
          rw [h.step_quiet hside rfl]
          simp only [on, Connection.drain]
          split
          · rename_i hrunning
            exact hk.shut (decide_eq_true_eq.mp (Bool.and_eq_true_iff.mp hrunning).2)
          · exact hk
      | abandon =>
          rw [h.step_quiet hside rfl]
          simp only [on]
          split
          · rename_i hopen
            exact hk.shut (decide_eq_true_eq.mp hopen)
          · exact hk

theorem run (hk : Writes h) (events : List Event) : Writes (h.run events) := by
  induction events generalizing h with
  | nil => exact hk
  | cons event events ih => exact ih (hk.step event)

end Writes

end Connection

end GameHall
