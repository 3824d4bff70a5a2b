import GameHall.Proofs.Connection.Reports
import GameHall.Proofs.Wire.Stream

/-!
# Histories of a connection

A `History` is a connection with what has happened to it: what has been read and reported, and what has
been put into its queue. The two loops share the mark that cancels them and nothing else, so an event of one
leaves the other alone (`SameReader`, `SameWriter`).
-/

namespace GameHall

namespace Connection

/-! ## Histories -/

/-- What may happen to a connection. -/
inductive Event where
  /-- Octets of the client arrive. -/
  | receive (chunk : Octets)
  /-- The client has closed its side, or reading has failed. -/
  | lose
  /-- The reading loop may notice that it has been cancelled. -/
  | cancel
  /-- A frame, or the mark that closes the connection, is put into the queue. -/
  | push (o : Outgoing)
  /-- The writing loop takes what stands first in the queue. -/
  | write
  /-- Writing fails, after so many octets of the frame that stands first. -/
  | fail (part : Nat)
  /-- The writing loop may notice that it has been cancelled. -/
  | drain
  /-- Nobody is left who could put anything into the queue. -/
  | abandon

/-- The beginning of the frame that stands first. -/
def begun (c : Connection) (part : Nat) : Octets :=
  match c.queue with
  | .frame octets :: _ => octets.take part
  | _ => []

/-- What an event makes of a connection, with what is reported. -/
def on (c : Connection) : Event → List Report × Connection
  | .receive chunk => c.receive chunk
  | .lose => c.stopReading
  | .cancel => if c.cancelled then c.stopReading else ([], c)
  | .push o => ([], c.push o)
  | .write => ([], c.writeNext)
  | .fail part => ([], { c.endWriting with sent := c.sent ++ c.begun part })
  | .drain => ([], c.drain)
  | .abandon => ([], if c.isOpen then { c with writer := .draining } else c)

/-- Every step is an event. -/
theorem exists_event_of_step {c c' : Connection} {l : List Report} (h : Step c l c') :
    ∃ event, c.on event = (l, c') := by
  cases h with
  | receive chunk => exact ⟨.receive chunk, rfl⟩
  | lose => exact ⟨.lose, rfl⟩
  | cancel hcancelled => exact ⟨.cancel, if_pos hcancelled⟩
  | push o => exact ⟨.push o, rfl⟩
  | write => exact ⟨.write, rfl⟩
  | drain => exact ⟨.drain, rfl⟩
  | fail =>
      have hbegun : c.begun 0 = [] := by
        unfold begun
        split <;> rfl
      refine ⟨.fail 0, ?_⟩
      rw [on, hbegun, List.append_nil]
      rfl

/-- The octets that arrive with an event. -/
def Event.octets : Event → Octets
  | receive chunk => chunk
  | _ => []

/-- What is put into the queue with an event. -/
def Event.queued : Event → List Outgoing
  | push o => [o]
  | _ => []

def Event.isFailure : Event → Bool
  | fail _ => true
  | _ => false

/-- Whether an event is one of the reading loop. -/
def Event.isReading : Event → Bool
  | receive _ | lose | cancel => true
  | _ => false

/-- A connection, and what has happened to it. -/
structure History where
  connection : Connection
  /-- What the reading loop has read. -/
  input : Octets
  /-- What has been reported. -/
  reports : List Report
  /-- What the queue has accepted, in order. -/
  queued : List Outgoing
  /-- Whether writing has failed. -/
  failed : Bool

namespace History

/-- Nothing has happened. -/
def new : History := ⟨Connection.new, [], [], [], false⟩

def step (h : History) (event : Event) : History where
  connection := (h.connection.on event).2
  input := if h.connection.reading then h.input ++ event.octets else h.input
  reports := h.reports ++ (h.connection.on event).1
  queued := if h.connection.isOpen then h.queued ++ event.queued else h.queued
  failed := event.isFailure || h.failed

/-- Events take place one after the other. -/
def run (h : History) (events : List Event) : History := events.foldl step h

/-- Both loops do what they can without the client. -/
def settle (h : History) : History :=
  { h with connection := h.connection.settle.2, reports := h.reports ++ h.connection.settle.1 }

/-- What there is to read in the input. -/
def read (h : History) : Shape.Drained RecordDraft Record := Record.shape.drain none h.input

end History

/-- What a connection may report in several steps is reported in a run. -/
theorem exists_run_of_reports {c c' : Connection} {l : List Report} (hreports : Reports c l c')
    (h : History) (hc : h.connection = c) :
    ∃ events, (h.run events).connection = c' ∧ (h.run events).reports = h.reports ++ l := by
  induction hreports generalizing h with
  | nil c => exact ⟨[], hc, (List.append_nil _).symm⟩
  | cons hstep _ ih =>
      obtain ⟨event, hon⟩ := exists_event_of_step hstep
      subst hc
      obtain ⟨events, hend, hlater⟩ := ih (h.step event) (congrArg Prod.snd hon)
      refine ⟨event :: events, hend, hlater.trans ?_⟩
      rw [History.step, hon, List.append_assoc]

/-! ## One loop leaves the other alone -/

/-- Nothing has happened to the reading loop, except that it may have been cancelled. -/
structure SameReader (c c' : Connection) : Prop where
  codec : c'.codec = c.codec
  reading : c'.reading = c.reading
  cancelled : c.cancelled = true → c'.cancelled = true

/-- Nothing has happened to the writing loop, except that it may have been cancelled. -/
structure SameWriter (c c' : Connection) : Prop where
  writer : c'.writer = c.writer
  queue : c'.queue = c.queue
  sent : c'.sent = c.sent
  cancelled : c.cancelled = true → c'.cancelled = true

theorem SameReader.refl (c : Connection) : SameReader c c := ⟨rfl, rfl, id⟩

theorem SameWriter.refl (c : Connection) : SameWriter c c := ⟨rfl, rfl, rfl, id⟩

theorem sameReader_endWriting (c : Connection) : SameReader c c.endWriting := ⟨rfl, rfl, fun _ => rfl⟩

theorem sameReader_writeNext (c : Connection) : SameReader c c.writeNext := by
  unfold writeNext
  split
  · exact SameReader.refl c
  · exact ⟨rfl, rfl, id⟩
  · exact sameReader_endWriting c
  · exact sameReader_endWriting c
  · exact SameReader.refl c

/-- An event of the writing loop, or of its queue, leaves the reading loop alone. -/
theorem sameReader_on (c : Connection) {event : Event} (hside : event.isReading = false) :
    SameReader c (c.on event).2 := by
  cases event with
  | receive | lose | cancel => cases hside
  | write => exact sameReader_writeNext c
  | fail part => exact ⟨rfl, rfl, fun _ => rfl⟩
  | push o =>
      simp only [on, push]
      split
      · exact ⟨rfl, rfl, id⟩
      · exact SameReader.refl c
  | drain =>
      simp only [on, drain]
      split
      · exact ⟨rfl, rfl, id⟩
      · exact SameReader.refl c
  | abandon =>
      simp only [on]
      split
      · exact ⟨rfl, rfl, id⟩
      · exact SameReader.refl c

/-- It reads nothing and reports nothing. -/
theorem on_quiet (c : Connection) {event : Event} (hside : event.isReading = false) :
    (c.on event).1 = [] ∧ event.octets = [] := by
  cases event with
  | receive | lose | cancel => cases hside
  | push | write | fail | drain | abandon => exact ⟨rfl, rfl⟩

theorem sameWriter_stopReading (c : Connection) : SameWriter c c.stopReading.2 := by
  unfold stopReading
  split
  · exact ⟨rfl, rfl, rfl, fun _ => rfl⟩
  · exact SameWriter.refl c

/-- An event of the reading loop leaves the writing loop alone. -/
theorem sameWriter_on (c : Connection) {event : Event} (hside : event.isReading = true) :
    SameWriter c (c.on event).2 := by
  cases event with
  | push | write | fail | drain | abandon => cases hside
  | lose => exact sameWriter_stopReading c
  | cancel =>
      simp only [on]
      split
      · exact sameWriter_stopReading c
      · exact SameWriter.refl c
  | receive chunk =>
      simp only [on, receive]
      split
      · split
        · exact ⟨rfl, rfl, rfl, id⟩
        · exact ⟨rfl, rfl, rfl, fun _ => rfl⟩
      · exact SameWriter.refl c

/-- It puts nothing into the queue, and writing does not fail with it. -/
theorem queued_of_isReading {event : Event} (hside : event.isReading = true) :
    event.queued = [] ∧ event.isFailure = false := by
  cases event with
  | push | write | fail | drain | abandon => cases hside
  | receive | lose | cancel => exact ⟨rfl, rfl⟩

theorem History.step_reading (h : History) {event : Event} (hside : event.isReading = true) :
    h.step event = { h with
      connection := (h.connection.on event).2
      input := if h.connection.reading then h.input ++ event.octets else h.input
      reports := h.reports ++ (h.connection.on event).1 } := by
  obtain ⟨hqueued, hfailure⟩ := queued_of_isReading hside
  rw [step, hqueued, hfailure, List.append_nil, ite_self]
  rfl

theorem History.step_writing (h : History) {event : Event} (hside : event.isReading = false) :
    h.step event = { h with
      connection := (h.connection.on event).2
      queued := if h.connection.isOpen then h.queued ++ event.queued else h.queued
      failed := event.isFailure || h.failed } := by
  obtain ⟨hquiet, hoctets⟩ := on_quiet h.connection hside
  rw [step, hquiet, hoctets, List.append_nil, List.append_nil, ite_self]

/-- Nothing is read and nothing queued. -/
theorem History.step_quiet (h : History) {event : Event} (hside : event.isReading = false)
    (hqueued : event.queued = []) : h.step event = { h with
      connection := (h.connection.on event).2
      failed := event.isFailure || h.failed } := by
  rw [h.step_writing hside, hqueued, List.append_nil, ite_self]

end Connection

end GameHall
