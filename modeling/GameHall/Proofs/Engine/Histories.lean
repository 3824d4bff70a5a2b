import GameHall.Proofs.Assoc
import GameHall.Proofs.Wire.RoundTrip
import GameHall.Engine.Endpoint

/-!
# Histories of an endpoint

A `History` is an endpoint with what has happened to it: what the engine has written, which calls went
to handlers, which of these were answered, and which calls the server made. Here is what one event does to
an endpoint: which calls it gives to handlers and which it refuses (`calls`, `heard`, `refusals`), what it
writes, and that a pipe that is down stays down.
-/

namespace GameHall

namespace Endpoint

/-! ## Histories -/

/-- What may happen to an endpoint. -/
inductive Event where
  /-- Octets of the engine arrive. -/
  | receive (chunk : Octets)
  /-- The engine's output ends. -/
  | endOfInput
  /-- The handler of the call with a ticket answers. -/
  | finish (ticket : Nat) (result : Except String Packet.Value)
  /-- The server makes a call. -/
  | send (method : String) (params : List Packet.Value)
  /-- The next packet is written. -/
  | writeNext
  | failWriting
  | close

/-- What an endpoint becomes. A call of the server that is refused leaves it as it is. -/
def step (known : String → Bool) (e : Endpoint) : Event → Endpoint
  | .receive chunk => e.receive known chunk
  | .endOfInput => e.endOfInput
  | .finish ticket result => e.finish ticket result
  | .send method params =>
    match e.send method params with
    | .ok e' => e'
    | .error _ => e
  | .writeNext => e.writeNext
  | .failWriting => e.failWriting
  | .close => e.close

/-- A call whose handler has answered. -/
structure Answered where
  ticket : Nat
  call : Packet.Call
  result : Except String Packet.Value

/-- An endpoint, and what has happened to it. -/
structure History where
  endpoint : Endpoint
  /-- What the engine wrote before its output ended. -/
  input : Octets
  /-- Whether the engine's output has ended. -/
  ended : Bool
  /-- The calls that were given to handlers, by ticket, in order. -/
  given : Assoc Nat Packet.Call
  /-- The calls whose handlers have answered, in order. -/
  answered : List Answered
  /-- The calls that the server has made, in order. -/
  sent : List Packet

/-- The octets that arrive with an event. -/
def Event.octets : Event → Octets
  | receive chunk => chunk
  | _ => []

def Event.isEnd : Event → Bool
  | endOfInput => true
  | _ => false

/-- The call that is answered with an event. -/
def Event.answered (e : Endpoint) : Event → List Answered
  | finish ticket result => ((Assoc.get? e.pending ticket).map fun c => ⟨ticket, c, result⟩).toList
  | _ => []

/-- The call that the server makes with an event. -/
def Event.sent (e : Endpoint) : Event → List Packet
  | send method params =>
    match e.send method params with
    | .ok _ => [.call ⟨Packet.oneWay, method, params⟩]
    | .error _ => []
  | _ => []

namespace History

/-- Nothing has happened. -/
def new : History := ⟨Endpoint.new, [], false, [], [], []⟩

def step (known : String → Bool) (h : History) (event : Event) : History where
  endpoint := h.endpoint.step known event
  input := if h.ended then h.input else h.input ++ event.octets
  ended := h.ended || event.isEnd
  given := h.given ++ arrivedSince h.endpoint (h.endpoint.step known event)
  answered := h.answered ++ event.answered h.endpoint
  sent := h.sent ++ event.sent h.endpoint

/-- Events take place one after the other. -/
def run (known : String → Bool) (events : List Event) : History := events.foldl (step known) new

/-- What there is to read in the input. -/
def read (h : History) : Shape.Drained PacketDraft Packet := Packet.shape.drain none h.input

end History

/-! ## Calls, refusals and answers -/

/-- The calls among packets. -/
def calls (ps : List Packet) : List Packet.Call :=
  ps.filterMap fun
    | .call c => some c
    | _ => none

/-- The calls that have a handler. -/
def heard (known : String → Bool) (ps : List Packet) : List Packet.Call :=
  (calls ps).filter fun c => known c.method

/-- One refusal for every call that has no handler and expects an answer. -/
def refusals (known : String → Bool) (ps : List Packet) : List Packet :=
  ((calls ps).filter fun c => !known c.method && decide (0 ≤ c.id)).map fun c =>
    .refusal c.id s!"unknown method {c.method}"

/-- One answer for every call that has been answered and expects it. -/
def answers (done : List Answered) : List Packet :=
  (done.filter fun d => decide (0 ≤ d.call.id)).map fun d => answer d.call.id d.result

/-- Calls with tickets from `n` on. -/
def ticketed : Nat → List Packet.Call → Assoc Nat Packet.Call
  | _, [] => []
  | n, c :: cs => (n, c) :: ticketed (n + 1) cs

theorem heard_append (known : String → Bool) (ps ps' : List Packet) :
    heard known (ps ++ ps') = heard known ps ++ heard known ps' := by
  rw [heard, calls, List.filterMap_append, List.filter_append]
  rfl

theorem refusals_append (known : String → Bool) (ps ps' : List Packet) :
    refusals known (ps ++ ps') = refusals known ps ++ refusals known ps' := by
  rw [refusals, calls, List.filterMap_append, List.filter_append, List.map_append]
  rfl

theorem answers_append (done done' : List Answered) :
    answers (done ++ done') = answers done ++ answers done' := by
  rw [answers, List.filter_append, List.map_append]
  rfl

/-- Calls that come later take later tickets. -/
theorem ticketed_append (n : Nat) (cs cs' : List Packet.Call) :
    ticketed n (cs ++ cs') = ticketed n cs ++ ticketed (n + cs.length) cs' := by
  induction cs generalizing n with
  | nil => rfl
  | cons c cs ih =>
      have hn : n + 1 + cs.length = n + (c :: cs).length := by
        rw [List.length_cons]
        omega
      rw [List.cons_append, ticketed, ticketed, ih, hn]
      rfl

/-- Tickets are given one after the other. -/
theorem keys_ticketed (n : Nat) (cs : List Packet.Call) :
    Assoc.keys (ticketed n cs) = List.range' n cs.length := by
  induction cs generalizing n with
  | nil => rfl
  | cons c cs ih =>
      have hcons : Assoc.keys (ticketed n (c :: cs)) = n :: Assoc.keys (ticketed (n + 1) cs) := rfl
      rw [hcons, ih, List.length_cons, List.range'_succ]

theorem ticketed_filter (n : Nat) (cs : List Packet.Call) :
    (ticketed n cs).filter (fun entry => decide (n ≤ entry.1)) = ticketed n cs := by
  refine List.filter_eq_self.mpr fun entry hentry => ?_
  have hkey : entry.1 ∈ Assoc.keys (ticketed n cs) := List.mem_map_of_mem hentry
  rw [keys_ticketed, List.mem_range'_1] at hkey
  exact decide_eq_true hkey.1

/-- Nothing has arrived if nothing is pending that was not before. -/
theorem arrivedSince_of_sublist {e e' : Endpoint}
    (hpending : ∀ entry ∈ e.pending, entry.1 < e.nextTicket) (h : e'.pending.Sublist e.pending) :
    e.arrivedSince e' = [] := by
  refine List.filter_eq_nil_iff.mpr fun entry hentry => ?_
  have hlt := hpending entry (h.subset hentry)
  rw [decide_eq_true_iff]
  omega

/-- The calls that have arrived are those behind what was pending. -/
theorem arrivedSince_ticketed {e e' : Endpoint}
    (hpending : ∀ entry ∈ e.pending, entry.1 < e.nextTicket) {cs : List Packet.Call}
    (h : e'.pending = e.pending ++ ticketed e.nextTicket cs) :
    e.arrivedSince e' = ticketed e.nextTicket cs := by
  have hold : e.pending.filter (fun entry => decide (e.nextTicket ≤ entry.1)) = [] :=
    arrivedSince_of_sublist hpending (List.Sublist.refl _)
  rw [arrivedSince, h, List.filter_append, ticketed_filter, hold, List.nil_append]

/-! ## Packets that arrive -/

theorem queue_eq (e : Endpoint) (p : Packet) :
    e.queue p = { e with outgoing := if e.writing then e.outgoing ++ [p] else e.outgoing } := by
  unfold queue
  split <;> rfl

/-- A packet brings one call to a handler, one refusal, or nothing. -/
theorem accept_eq (known : String → Bool) (e : Endpoint) (p : Packet) :
    e.accept known p = { e with
      pending := e.pending ++ ticketed e.nextTicket (heard known [p])
      nextTicket := e.nextTicket + (heard known [p]).length
      outgoing := if e.writing then e.outgoing ++ refusals known [p] else e.outgoing } := by
  cases p with
  | reply id result => simp [accept, heard, refusals, calls, ticketed]
  | refusal id message => simp [accept, heard, refusals, calls, ticketed]
  | call c =>
      by_cases hknown : known c.method = true
      · simp [accept, dispatch, heard, refusals, calls, ticketed, hknown]
      by_cases hid : 0 ≤ c.id
      · simp [accept, dispatch, heard, refusals, calls, ticketed, queue_eq, hknown, hid]
      · simp [accept, dispatch, heard, refusals, calls, ticketed, hknown, hid]

/-- Packets that arrive together bring their calls and refusals in their order. -/
theorem foldl_accept (known : String → Bool) (ps : List Packet) (e : Endpoint) :
    ps.foldl (accept known) e = { e with
      pending := e.pending ++ ticketed e.nextTicket (heard known ps)
      nextTicket := e.nextTicket + (heard known ps).length
      outgoing := if e.writing then e.outgoing ++ refusals known ps else e.outgoing } := by
  induction ps generalizing e with
  | nil => simp [heard, refusals, calls, ticketed]
  | cons p ps ih =>
      have hheard : heard known (p :: ps) = heard known [p] ++ heard known ps :=
        heard_append known [p] ps
      have hrefusals : refusals known (p :: ps) = refusals known [p] ++ refusals known ps :=
        refusals_append known [p] ps
      rw [List.foldl_cons, ih, accept_eq, hheard, hrefusals, ticketed_append, List.length_append]
      cases e.writing <;> simp [Nat.add_assoc]

/-- An endpoint that reads takes what there is to read up to a fault, which ends the reading. -/
theorem receive_eq (known : String → Bool) {e : Endpoint} (hreading : e.reading = true)
    {draft : Option PacketDraft} {rest : Octets} (hcodec : e.codec = ⟨draft, rest, none⟩)
    {chunk : Octets} {d : Shape.Drained PacketDraft Packet}
    (hd : Packet.shape.drain draft (rest ++ chunk) = d) :
    e.receive known chunk = { e with
      codec := ⟨d.draft, d.rest, none⟩
      pending := e.pending ++ ticketed e.nextTicket (heard known d.frames)
      nextTicket := e.nextTicket + (heard known d.frames).length
      outgoing := if e.writing then e.outgoing ++ refusals known d.frames else e.outgoing
      alive := e.alive && d.fault.isNone
      lost := e.lost || d.fault.isSome
      reading := d.fault.isNone } := by
  rw [receive, if_pos hreading, hcodec, Codec.absorb_eq _ rfl, hd]
  dsimp only
  rw [foldl_accept]
  cases d.fault with
  | none => simp [hreading]
  | some fault => simp [lose]

/-! ## Writing stays down -/

theorem receive_writing (known : String → Bool) (e : Endpoint) (chunk : Octets) :
    (e.receive known chunk).writing = e.writing := by
  unfold receive
  split
  · rcases e.codec.absorb Packet.shape chunk with ⟨packets, fault, codec⟩
    dsimp only
    rw [foldl_accept]
    cases fault <;> rfl
  · rfl

theorem endOfInput_writing (e : Endpoint) : e.endOfInput.writing = e.writing := by
  unfold endOfInput
  split <;> rfl

theorem finish_writing (e : Endpoint) (ticket : Nat) (result : Except String Packet.Value) :
    (e.finish ticket result).writing = e.writing := by
  unfold finish
  split
  · rfl
  · dsimp only
    split
    · rw [queue_eq]
    · rfl

theorem send_writing {e e' : Endpoint} {method : String} {params : List Packet.Value}
    (h : e.send method params = .ok e') : e'.writing = e.writing := by
  unfold send at h
  split at h
  · cases h
    rw [queue_eq]
  · cases h

theorem writing_of_writeNext {e : Endpoint} (h : e.writeNext.writing = true) : e.writing = true := by
  unfold writeNext at h
  split at h
  · exact h
  · split at h
    · exact h
    · cases h

theorem writing_of_failWriting {e : Endpoint} (h : e.failWriting.writing = true) :
    e.writing = true := by
  unfold failWriting at h
  split at h
  · exact h
  · cases h

/-- Writing that has failed does not come back. -/
theorem writing_of_step {known : String → Bool} {e : Endpoint} {event : Event}
    (h : (e.step known event).writing = true) : e.writing = true := by
  cases event with
  | receive chunk => exact (receive_writing known e chunk).symm.trans h
  | endOfInput => exact e.endOfInput_writing.symm.trans h
  | finish ticket result => exact (e.finish_writing ticket result).symm.trans h
  | send method params =>
      simp only [step] at h
      split at h
      · rename_i hsend
        exact (send_writing hsend).symm.trans h
      · exact h
  | writeNext => exact writing_of_writeNext h
  | failWriting => exact writing_of_failWriting h
  | close => cases h

/-! ## The other events -/

theorem endOfInput_eq (e : Endpoint) (hlost : e.lost = !e.reading) (halive : e.alive = e.reading) :
    e.endOfInput = { e with reading := false, alive := false, lost := true } := by
  unfold endOfInput
  split
  · rfl
  · rename_i hreading
    rw [Bool.not_eq_true] at hreading
    rw [hreading] at hlost halive
    cases e
    cases hreading
    cases halive
    cases hlost
    rfl

theorem finish_of_none {e : Endpoint} {ticket : Nat} (h : Assoc.get? e.pending ticket = none)
    (result : Except String Packet.Value) : e.finish ticket result = e := by
  rw [finish, h]

/-- An answer to a call that waits is queued, and the call waits no more. -/
theorem finish_of_some {e : Endpoint} (hwriting : e.writing = true) {ticket : Nat} {c : Packet.Call}
    (h : Assoc.get? e.pending ticket = some c) (result : Except String Packet.Value) :
    e.finish ticket result = { e with
      pending := Assoc.erase e.pending ticket
      outgoing := e.outgoing ++ answers [⟨ticket, c, result⟩] } := by
  rw [finish, h]
  dsimp only
  by_cases hid : 0 ≤ c.id
  · simp [queue_eq, answers, hid, hwriting]
  · simp [answers, hid]

theorem send_eq_ok {e e' : Endpoint} {method : String} {params : List Packet.Value}
    (h : e.send method params = .ok e') :
    e' = { e with outgoing := e.outgoing ++ [.call ⟨Packet.oneWay, method, params⟩] } := by
  unfold send at h
  split at h
  · rename_i hup
    cases h
    rw [queue_eq, if_pos (Bool.and_eq_true_iff.mp hup).2]
  · cases h

/-- As long as the writing goes on, the next packet is written or the queue is empty. -/
theorem writeNext_cases {e : Endpoint} (h : e.writeNext.writing = true) :
    (e.outgoing = [] ∧ e.writeNext = e) ∨ ∃ p rest octets, e.outgoing = p :: rest
      ∧ p.write = .ok octets
      ∧ e.writeNext = { e with outgoing := rest, written := e.written ++ octets } := by
  unfold writeNext at h ⊢
  cases hout : e.outgoing with
  | nil => exact Or.inl ⟨rfl, rfl⟩
  | cons p rest =>
      rw [hout] at h
      cases hwrite : p.write with
      | ok octets => exact Or.inr ⟨p, rest, octets, rfl, hwrite, by simp only [hwrite]⟩
      | error fault =>
          simp only [hwrite] at h
          cases h

theorem writeAll_append {ps ps' : List Packet} {bs bs' : Octets} (h : Packet.writeAll ps = .ok bs)
    (h' : Packet.writeAll ps' = .ok bs') : Packet.writeAll (ps ++ ps') = .ok (bs ++ bs') := by
  induction ps generalizing bs with
  | nil =>
      cases h
      exact h'
  | cons p ps ih =>
      rw [Packet.writeAll] at h
      obtain ⟨first, hfirst, h⟩ := bind_eq_ok h
      obtain ⟨later, hlater, h⟩ := bind_eq_ok h
      cases h
      rw [List.cons_append, Packet.writeAll, hfirst, ih hlater, List.append_assoc]
      rfl

theorem writeAll_cons {p : Packet} {ps : List Packet} {octets bs : Octets} (hp : p.write = .ok octets)
    (h : Packet.writeAll ps = .ok bs) : Packet.writeAll (p :: ps) = .ok (octets ++ bs) := by
  rw [Packet.writeAll, hp, h]
  rfl

/-- Packets take no less room than any one of them. -/
theorem length_le_of_mem {p : Packet} {ps : List Packet} {octets bs : Octets} (hp : p.write = .ok octets)
    (hmem : p ∈ ps) (h : Packet.writeAll ps = .ok bs) : octets.length ≤ bs.length := by
  induction ps generalizing bs with
  | nil => cases hmem
  | cons q ps ih =>
      rw [Packet.writeAll] at h
      obtain ⟨first, hfirst, h⟩ := bind_eq_ok h
      obtain ⟨later, hlater, h⟩ := bind_eq_ok h
      cases h
      rw [List.length_append]
      rcases List.mem_cons.mp hmem with rfl | hmem
      · cases hp.symm.trans hfirst
        exact Nat.le_add_right _ _
      · exact Nat.le_add_left_of_le (ih hmem hlater)

theorem writeAll_singleton {p : Packet} {octets : Octets} (hp : p.write = .ok octets) :
    Packet.writeAll [p] = .ok octets := by
  rw [Packet.writeAll, hp]
  exact congrArg Except.ok (List.append_nil octets)

end Endpoint

end GameHall
