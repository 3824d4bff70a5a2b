import Mathlib.Data.List.TakeDrop
import Mathlib.Data.List.TakeWhile
import GameHall.Engine.Greeting
import GameHall.Proofs.Engine.Answers

/-!
# Handshakes

An engine is waited for until it has written a line, its output ends or its time is over. What follows
the newline is for the endpoint, in whatever pieces line and packets have come (`Launch.handshake_run`):
the endpoint is given what was read with the line, and then whatever is read next.

An engine that goes away without a word has not greeted. One that goes away within the line counts as
one that has (`not_only_by_line`), and is lost at once.
-/

namespace GameHall

namespace Greeting

/-! ## What an engine writes -/

/-- The octets that are read with an event. -/
def Event.octets : Event → Octets
  | output chunk => chunk
  | _ => []

def Event.isOutput : Event → Bool
  | output _ => true
  | _ => false

/-- What an engine writes before anything else happens. -/
def opening (events : List Event) : Octets :=
  (events.takeWhile Event.isOutput).flatMap Event.octets

/-- What happens first that is no output. -/
def interruption? (events : List Event) : Option Event := events.find? fun e => !e.isOutput

/-- What an engine writes before its output ends. -/
def written (events : List Event) : Octets :=
  (events.takeWhile fun e => decide (e ≠ .ended)).flatMap Event.octets

/-- What follows the first newline. -/
def afterLine (bs : Octets) : Octets := (bs.dropWhile fun b => decide (b ≠ newline)).drop 1

theorem dropWhile_eq_nil_iff {bs : Octets} :
    bs.dropWhile (fun b => decide (b ≠ newline)) = [] ↔ newline ∉ bs := by
  rw [List.dropWhile_eq_nil_iff]
  constructor
  · intro hall hmem
    exact of_decide_eq_true (hall newline hmem) rfl
  · intro hnot b hb
    exact decide_eq_true fun heq => hnot (heq ▸ hb)

theorem afterLine_append_of_mem {bs : Octets} (h : newline ∈ bs) (more : Octets) :
    afterLine (bs ++ more) = afterLine bs ++ more := by
  obtain ⟨b, rest, hdrop⟩ := List.exists_cons_of_ne_nil fun hnil => dropWhile_eq_nil_iff.mp hnil h
  rw [afterLine, afterLine, List.dropWhile_append, hdrop]
  rfl

theorem afterLine_append_of_not_mem {bs : Octets} (h : newline ∉ bs) (more : Octets) :
    afterLine (bs ++ more) = afterLine more := by
  rw [afterLine, afterLine, List.dropWhile_append, dropWhile_eq_nil_iff.mpr h]
  rfl

theorem step_output (limit : Duration) (line chunk : Octets) :
    (waiting line).step limit (.output chunk)
      = if newline ∈ chunk then greeted (afterLine chunk) else waiting (line ++ chunk) := by
  simp only [step, List.span_eq_takeWhile_dropWhile, afterLine]
  by_cases hmem : newline ∈ chunk
  · obtain ⟨b, rest, hdrop⟩ := List.exists_cons_of_ne_nil fun hnil =>
      dropWhile_eq_nil_iff.mp hnil hmem
    rw [if_pos hmem, hdrop]
    rfl
  · rw [if_neg hmem, dropWhile_eq_nil_iff.mpr hmem]

/-- An engine that has greeted is not waited for again, and what it writes is kept. -/
theorem foldl_greeted (limit : Duration) (events : List Event) (rest : Octets) :
    events.foldl (Greeting.step limit) (.greeted rest)
      = .greeted (rest ++ events.flatMap Event.octets) := by
  induction events generalizing rest with
  | nil => rw [List.foldl_nil, List.flatMap_nil, List.append_nil]
  | cons e events ih =>
      rw [List.foldl_cons, List.flatMap_cons]
      cases e with
      | output chunk =>
          rw [← List.append_assoc]
          exact ih (rest ++ chunk)
      | ended => exact ih rest
      | late => exact ih rest

/-- A line is a greeting, and what follows it is kept. -/
theorem foldl_of_line (limit : Duration) {events : List Event} (h : newline ∈ opening events)
    (line : Octets) : events.foldl (Greeting.step limit) (.waiting line)
      = .greeted (afterLine (events.flatMap Event.octets)) := by
  induction events generalizing line with
  | nil => exact absurd h List.not_mem_nil
  | cons e events ih =>
      cases e with
      | output chunk =>
          have hopening : opening (.output chunk :: events) = chunk ++ opening events := rfl
          have hoctets : (Event.output chunk :: events).flatMap Event.octets
              = chunk ++ events.flatMap Event.octets := rfl
          rw [hopening, List.mem_append] at h
          rw [List.foldl_cons, step_output, hoctets]
          by_cases hmem : newline ∈ chunk
          · rw [if_pos hmem, foldl_greeted, afterLine_append_of_mem hmem]
          · rw [if_neg hmem, ih (h.resolve_left hmem), afterLine_append_of_not_mem hmem]
      | ended => exact absurd h List.not_mem_nil
      | late => exact absurd h List.not_mem_nil

/-- Nor is one that has failed. -/
theorem foldl_failed (limit : Duration) (events : List Event) (fault : EngineFault) :
    events.foldl (Greeting.step limit) (.failed fault) = .failed fault := by
  induction events with
  | nil => rfl
  | cons e events ih => exact ih

end Greeting

/-! ## The start of an engine -/

/-- An engine that is being started: its greeting, and the endpoint with what it has been given. -/
structure Launch where
  greeting : Greeting
  history : Endpoint.History

namespace Launch

open Greeting

/-- Nothing has happened. -/
def new : Launch := ⟨Greeting.initial, .new⟩

/-- What the endpoint is given with an event. After the end of the output there is nothing to read. -/
def passed (limit : Duration) (g : Greeting) (e : Greeting.Event) : List Endpoint.Event :=
  match g, g.step limit e with
  | .waiting _, .greeted rest => .receive rest :: (if e = .ended then [.endOfInput] else [])
  | .greeted _, _ =>
    match e with
    | .output chunk => [.receive chunk]
    | .ended => [.endOfInput]
    | .late => []
  | _, _ => []

def step (known : String → Bool) (limit : Duration) (s : Launch) (e : Greeting.Event) : Launch where
  greeting := s.greeting.step limit e
  history := (passed limit s.greeting e).foldl (Endpoint.History.step known) s.history

/-- Events take place one after the other. -/
def run (known : String → Bool) (limit : Duration) (events : List Greeting.Event) : Launch :=
  events.foldl (step known limit) new

variable {known : String → Bool} {limit : Duration} {s : Launch}

theorem greeting_foldl (events : List Greeting.Event) (s : Launch) :
    (events.foldl (step known limit) s).greeting = events.foldl (Greeting.step limit) s.greeting := by
  induction events generalizing s with
  | nil => rfl
  | cons e events ih => exact ih (s.step known limit e)

theorem greeting_run (events : List Greeting.Event) :
    (run known limit events).greeting = Greeting.run limit events := greeting_foldl events new

/-! ### Greetings -/

/-- Whether an engine greets, and what becomes of it if it does not, when it has written a part of a line
already. -/
theorem greets_foldl (limit : Duration) (line : Octets) (events : List Greeting.Event) :
    ((∃ rest, events.foldl (Greeting.step limit) (.waiting line) = .greeted rest)
        ↔ newline ∈ opening events
          ∨ line ++ opening events ≠ [] ∧ interruption? events = some .ended)
      ∧ (∀ fault, events.foldl (Greeting.step limit) (.waiting line) = .failed fault
        ↔ newline ∉ opening events
          ∧ (line ++ opening events = [] ∧ interruption? events = some .ended
              ∧ fault = .handshake "engine exited before greeting"
            ∨ interruption? events = some .late
              ∧ fault = .handshake s!"no greeting within {limit.text}"))
      ∧ ∀ part, events.foldl (Greeting.step limit) (.waiting line) = .waiting part
        ↔ newline ∉ opening events ∧ interruption? events = none ∧ part = line ++ opening events := by
  -- on the events, for any part of a line that has come before them
  induction events generalizing line with
  | nil => simp [opening, interruption?, eq_comm]
  | cons e events ih =>
      rw [List.foldl_cons]
      cases e with
      | output chunk =>
          have hopening : opening (.output chunk :: events) = chunk ++ opening events := rfl
          have hnext : interruption? (.output chunk :: events) = interruption? events := rfl
          rw [step_output, hopening, hnext, ← List.append_assoc]
          by_cases hmem : newline ∈ chunk
          · rw [if_pos hmem]
            rw [foldl_greeted]
            simp [hmem]
          · rw [if_neg hmem]
            simpa only [List.mem_append, hmem, false_or] using ih (line ++ chunk)
      | ended =>
          have hopening : opening (.ended :: events) = [] := rfl
          have hnext : interruption? (.ended :: events) = some .ended := rfl
          rw [hopening, hnext, List.append_nil]
          cases line with
          | nil =>
              -- the engine has gone without a word
              rw [Greeting.step, foldl_failed]
              simp [eq_comm]
          | cons b line =>
              -- what it has said without a newline is taken for a greeting
              rw [Greeting.step, foldl_greeted]
              simp
      | late =>
          have hopening : opening (.late :: events) = [] := rfl
          have hnext : interruption? (.late :: events) = some .late := rfl
          rw [hopening, hnext, List.append_nil]
          cases line <;> rw [Greeting.step, foldl_failed] <;> simp [eq_comm]

/-! ### What the endpoint is given -/

theorem writing_step (h : s.history.endpoint.writing = true) (e : Greeting.Event) :
    (s.step known limit e).history.endpoint.writing = true := by
  have hreceive : ∀ {h : Endpoint.History} (chunk : Octets), h.endpoint.writing = true →
      (h.step known (.receive chunk)).endpoint.writing = true := fun {h} chunk hw =>
    (Endpoint.receive_writing known h.endpoint chunk).trans hw
  have hend : ∀ {h : Endpoint.History}, h.endpoint.writing = true →
      (h.step known .endOfInput).endpoint.writing = true := fun {h} hw =>
    (Endpoint.endOfInput_writing h.endpoint).trans hw
  rw [step]
  dsimp only
  unfold passed
  split
  · split
    · exact hend (hreceive _ h)
    · exact hreceive _ h
  · split
    · exact hreceive _ h
    · exact hend h
    · exact h
  · exact h

theorem kept_step (hk : Endpoint.Kept known s.history) (hw : s.history.endpoint.writing = true)
    (e : Greeting.Event) : Endpoint.Kept known (s.step known limit e).history :=
  Endpoint.kept_foldl hk (writing_step hw e)

theorem kept_run (known : String → Bool) (limit : Duration) (events : List Greeting.Event) :
    Endpoint.Kept known (run known limit events).history := by
  have hall : ∀ (events : List Greeting.Event) (s : Launch), Endpoint.Kept known s.history →
      s.history.endpoint.writing = true →
      Endpoint.Kept known (events.foldl (step known limit) s).history := by
    intro events
    induction events with
    | nil => exact fun _ hk _ => hk
    | cons e events ih => exact fun s hk hw => ih _ (kept_step hk hw e) (writing_step hw e)
  exact hall events new (Endpoint.kept_new known) rfl

/-- What has been given stays so when the output has ended. -/
theorem input_of_ended (events : List Greeting.Event) (rest : Octets) {h : Endpoint.History}
    (hended : h.ended = true) :
    (events.foldl (step known limit) ⟨.greeted rest, h⟩).history.input = h.input
      ∧ (events.foldl (step known limit) ⟨.greeted rest, h⟩).history.ended = true := by
  induction events generalizing rest h with
  | nil => exact ⟨rfl, hended⟩
  | cons e events ih =>
      have hinput : ∀ event, (h.step known event).input = h.input
          ∧ (h.step known event).ended = true := fun event =>
        ⟨if_pos hended, by rw [Endpoint.History.step, hended]; rfl⟩
      cases e with
      | output chunk =>
          obtain ⟨hsame, hstill⟩ := hinput (.receive chunk)
          exact hsame ▸ ih (rest ++ chunk) hstill
      | ended =>
          obtain ⟨hsame, hstill⟩ := hinput .endOfInput
          exact hsame ▸ ih rest hstill
      | late => exact ih rest hended

/-- An engine that has greeted is heard until its output ends. -/
theorem input_of_greeted (events : List Greeting.Event) (rest : Octets) {h : Endpoint.History}
    (hopen : h.ended = false) :
    (events.foldl (step known limit) ⟨.greeted rest, h⟩).history.input = h.input ++ written events := by
  -- on the events, for any history that has not ended
  induction events generalizing rest h with
  | nil => exact (List.append_nil _).symm
  | cons e events ih =>
      cases e with
      | output chunk =>
          have hinput : (h.step known (.receive chunk)).input = h.input ++ chunk := by
            rw [Endpoint.History.step, hopen]
            rfl
          have hstill : (h.step known (.receive chunk)).ended = false := by
            rw [Endpoint.History.step, hopen]
            rfl
          have hwritten : written (.output chunk :: events) = chunk ++ written events := rfl
          rw [hwritten, ← List.append_assoc, ← hinput]
          exact ih (rest ++ chunk) hstill
      | ended =>
          have hinput : (h.step known .endOfInput).input = h.input := by
            rw [Endpoint.History.step, hopen]
            exact List.append_nil _
          have hended : (h.step known .endOfInput).ended = true := by
            rw [Endpoint.History.step]
            exact Bool.or_true _
          have hwritten : written (.ended :: events) = [] := rfl
          rw [hwritten, List.append_nil, ← hinput]
          exact (input_of_ended events rest hended).1
      | late => exact ih rest hopen

/-- An engine that has failed is not heard. -/
theorem history_of_failed (events : List Greeting.Event) (fault : EngineFault)
    (h : Endpoint.History) :
    (events.foldl (step known limit) ⟨.failed fault, h⟩).history = h := by
  induction events with
  | nil => rfl
  | cons e events ih => exact ih

/-- **The endpoint is given what follows the newline**, and nothing while there is none. -/
theorem input_foldl (known : String → Bool) (limit : Duration) (events : List Greeting.Event)
    (line : Octets) :
    (newline ∈ opening events →
      (events.foldl (step known limit) ⟨.waiting line, .new⟩).history.input
        = afterLine (written events))
      ∧ (newline ∉ opening events →
        (events.foldl (step known limit) ⟨.waiting line, .new⟩).history.input = []) := by
  -- on the events, for any part of a line that has come; the line ends, is cut off or goes on
  induction events generalizing line with
  | nil => simp [opening, Endpoint.History.new]
  | cons e events ih =>
      rw [List.foldl_cons]
      cases e with
      | output chunk =>
          have hopening : opening (.output chunk :: events) = chunk ++ opening events := rfl
          have hwritten : written (.output chunk :: events) = chunk ++ written events := rfl
          rw [hopening, hwritten, step]
          by_cases hmem : newline ∈ chunk
          · have hgreets : (Greeting.waiting line).step limit (.output chunk)
                = .greeted (afterLine chunk) := by
              rw [step_output, if_pos hmem]
            have hpassed : passed limit (.waiting line) (.output chunk)
                = [.receive (afterLine chunk)] := by
              unfold passed
              rw [hgreets]
              rfl
            have hopen : (Endpoint.History.new.step known (.receive (afterLine chunk))).ended = false := rfl
            rw [hpassed, hgreets, afterLine_append_of_mem hmem]
            exact ⟨fun _ => input_of_greeted events _ hopen, fun hnot => absurd (List.mem_append_left _ hmem) hnot⟩
          · have hwaits : (Greeting.waiting line).step limit (.output chunk)
                = .waiting (line ++ chunk) := by
              rw [step_output, if_neg hmem]
            have hpassed : passed limit (.waiting line) (.output chunk) = [] := by
              unfold passed
              rw [hwaits]
            rw [hpassed, hwaits, afterLine_append_of_not_mem hmem, List.foldl_nil]
            simpa only [List.mem_append, hmem, false_or] using ih (line ++ chunk)
      | ended =>
          have hopening : opening (.ended :: events) = [] := rfl
          rw [hopening]
          refine ⟨fun h => absurd h List.not_mem_nil, fun _ => ?_⟩
          cases line with
          | nil => exact congrArg Endpoint.History.input (history_of_failed events _ _)
          | cons b line =>
              have hended : ((Endpoint.History.new.step known (.receive [])).step known
                .endOfInput).ended = true := rfl
              exact (input_of_ended events [] hended).1
      | late =>
          have hopening : opening (.late :: events) = [] := rfl
          rw [hopening]
          refine ⟨fun h => absurd h List.not_mem_nil, fun _ => ?_⟩
          cases line <;> exact congrArg Endpoint.History.input (history_of_failed events _ _)

/-! ### The laws -/

/-- What holds of the start of an engine after whatever has happened. -/
structure Handshake (known : String → Bool) (limit : Duration) (events : List Greeting.Event) :
    Prop where
  /-- An engine has greeted just if a whole line has come while it was waited for, or its output has
  ended within the line. -/
  greets : (∃ rest, (run known limit events).greeting = .greeted rest) ↔ newline ∈ opening events
    ∨ opening events ≠ [] ∧ interruption? events = some .ended
  /-- It has failed just if its output has ended without a word, or its time was over before the line
  was. -/
  fails : ∀ fault, (run known limit events).greeting = .failed fault ↔ newline ∉ opening events
    ∧ (opening events = [] ∧ interruption? events = some .ended
        ∧ fault = .handshake "engine exited before greeting"
      ∨ interruption? events = some .late
        ∧ fault = .handshake s!"no greeting within {limit.text}")
  /-- Until then it is waited for. -/
  waits : ∀ line, (run known limit events).greeting = .waiting line
    ↔ newline ∉ opening events ∧ interruption? events = none ∧ line = opening events
  /-- What an engine that has written a line writes behind it is kept. -/
  keeps : newline ∈ opening events →
    (run known limit events).greeting = .greeted (afterLine (events.flatMap Event.octets))
  /-- The endpoint of an engine that has written a line is given just what follows the line, up to the
  end of the output. -/
  receives : newline ∈ opening events →
    (run known limit events).history.input = afterLine (written events)
  /-- No other endpoint is given anything. -/
  nothing : newline ∉ opening events → (run known limit events).history.input = []
  /-- The calls that go to handlers are those in what the endpoint is given, as if it had come in one
  piece. -/
  decodes : (run known limit events).history.given = Endpoint.ticketed 0 (Endpoint.heard known
    (Packet.shape.drain none (run known limit events).history.input).frames)

/-- **Handshakes**, for everything an engine may write and every way to read it. -/
theorem handshake_run (known : String → Bool) (limit : Duration) (events : List Greeting.Event) :
    Handshake known limit events := by
  obtain ⟨hgreets, hfails, hwaits⟩ := greets_foldl limit [] events
  obtain ⟨hreceives, hnothing⟩ := input_foldl known limit events []
  exact {
    greets := by
      rw [greeting_run]
      exact hgreets
    fails := by
      rw [greeting_run]
      exact hfails
    waits := by
      rw [greeting_run]
      exact hwaits
    keeps := fun hline => (greeting_run events).trans (foldl_of_line limit hline [])
    receives := hreceives
    nothing := hnothing
    decodes := (kept_run known limit events).given }

example : (run (fun _ => false) ⟨0⟩ [.output (Utf8.encode "rea"), .output (Utf8.encode "dy\nfirst, "),
    .output (Utf8.encode "second"), .ended]).history.input = Utf8.encode "first, second" := by decide

/-- An engine that exits within the line has greeted. -/
theorem not_only_by_line : ¬ ∀ (known : String → Bool) (limit : Duration)
    (events : List Greeting.Event),
    (∃ rest, (run known limit events).greeting = .greeted rest) ↔ newline ∈ opening events := by
  intro h
  have hgreeted := (h (fun _ => false) ⟨0⟩ [.output (Utf8.encode "read"), .ended]).mp ⟨[], rfl⟩
  exact absurd hgreeted (by decide)

end Launch

end GameHall
