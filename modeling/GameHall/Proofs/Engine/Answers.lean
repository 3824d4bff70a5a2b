import GameHall.Proofs.Engine.Histories

/-!
# Calls and their answers

While an endpoint can write, the handlers are given the calls of the engine that have one, once each and
in the order of the stream, up to the first fault, and what goes out is one answer for every call that
expects one, among the calls of the server (`Endpoint.faithful_run`). The handlers may answer in any
order, and what they answer may be written at any time.

One step of any kind keeps what is said of histories (`Kept`), and so do all.
-/

namespace GameHall

namespace Endpoint

/-! ## What goes out -/

/-- A list that is made of three, each in its own order. -/
structure Merged {α : Type} (out as bs cs : List α) : Prop where
  perm : out.Perm (as ++ (bs ++ cs))
  first : as.Sublist out
  second : bs.Sublist out
  third : cs.Sublist out

theorem perm_append_append {α : Type} (as bs cs ds : List α) :
    ((as ++ bs) ++ (cs ++ ds)).Perm ((as ++ cs) ++ (bs ++ ds)) := by
  rw [List.append_assoc, List.append_assoc]
  exact (List.perm_append_comm_assoc bs cs ds).append_left as

theorem Merged.append {α : Type} {out as bs cs out' as' bs' cs' : List α}
    (h : Merged out as bs cs) (h' : Merged out' as' bs' cs') :
    Merged (out ++ out') (as ++ as') (bs ++ bs') (cs ++ cs') where
  perm := (h.perm.append h'.perm).trans ((perm_append_append as (bs ++ cs) as' (bs' ++ cs')).trans
    ((perm_append_append bs cs bs' cs').append_left _))
  first := h.first.append h'.first
  second := h.second.append h'.second
  third := h.third.append h'.third

theorem merged_first {α : Type} (as : List α) : Merged as as [] [] where
  perm := by rw [List.append_nil, List.append_nil]
  first := List.Sublist.refl as
  second := List.nil_sublist as
  third := List.nil_sublist as

theorem merged_second {α : Type} (bs : List α) : Merged bs [] bs [] where
  perm := by rw [List.append_nil, List.nil_append]
  first := List.nil_sublist bs
  second := List.Sublist.refl bs
  third := List.nil_sublist bs

theorem merged_third {α : Type} (cs : List α) : Merged cs [] [] cs where
  perm := by rw [List.nil_append, List.nil_append]
  first := List.nil_sublist cs
  second := List.nil_sublist cs
  third := List.Sublist.refl cs

/-! ## What is kept -/

/-- The ticket and the call. -/
def Answered.entry (d : Answered) : Nat × Packet.Call := (d.ticket, d.call)

/-- What is said of a history while the endpoint can write. -/
structure Kept (known : String → Bool) (h : History) : Prop where
  reading : h.endpoint.reading = (!h.ended && h.read.fault.isNone)
  alive : h.endpoint.alive = h.endpoint.reading
  lost : h.endpoint.lost = !h.endpoint.reading
  /-- An endpoint that reads has in its codec what the input has left. -/
  codec : h.endpoint.reading = true → h.endpoint.codec = ⟨h.read.draft, h.read.rest, none⟩
  given : h.given = ticketed 0 (heard known h.read.frames)
  next : h.endpoint.nextTicket = (heard known h.read.frames).length
  /-- A call that went to a handler has been answered once, or waits. -/
  pending : h.given.Perm (h.answered.map Answered.entry ++ h.endpoint.pending)
  /-- What has been written and what is going to be. -/
  out : ∃ gone, Packet.writeAll gone = .ok h.endpoint.written
    ∧ Merged (gone ++ h.endpoint.outgoing) h.sent (refusals known h.read.frames) (answers h.answered)

/-- More input is read behind what has been read without a fault. -/
theorem History.read_more {h h' : History} (hfault : h.read.fault = none) {chunk : Octets}
    (hinput : h'.input = h.input ++ chunk) :
    h'.read = (Packet.shape.drain h.read.draft (h.read.rest ++ chunk)).after h.read.frames := by
  rw [read, hinput, Shape.drain_append]
  cases hread : h.read with
  | mk frames fault draft rest =>
      rw [hread] at hfault
      rw [read] at hread
      rw [hread, show fault = none from hfault]

/-- Input behind a fault is not read. -/
theorem History.read_fault {h h' : History} {fault : CodecFault} (hfault : h.read.fault = some fault)
    {chunk : Octets} (hinput : h'.input = h.input ++ chunk) :
    h'.read = { h.read with rest := h.read.rest ++ chunk } := by
  rw [read, hinput, Shape.drain_append]
  cases hread : h.read with
  | mk frames fault' draft rest =>
      rw [hread] at hfault
      rw [read] at hread
      rw [hread, show fault' = some fault from hfault]

theorem kept_new (known : String → Bool) : Kept known History.new := by
  have hread : History.new.read = ⟨[], none, none, []⟩ := Packet.shape.drain_nil
  exact {
    reading := by rw [hread]; rfl
    alive := rfl
    lost := rfl
    codec := fun _ => by rw [hread]; rfl
    given := by rw [hread]; rfl
    next := by rw [hread]; rfl
    pending := List.Perm.refl _
    out := by
      rw [hread]
      exact ⟨[], rfl, merged_first []⟩
  }

namespace Kept

variable {known : String → Bool} {h : History}

theorem keys_given (hk : Kept known h) :
    Assoc.keys h.given = List.range' 0 h.endpoint.nextTicket := by
  rw [hk.given, keys_ticketed, hk.next]

/-- Tickets that wait have been given. -/
theorem pending_lt (hk : Kept known h) :
    ∀ entry ∈ h.endpoint.pending, entry.1 < h.endpoint.nextTicket := by
  intro entry hentry
  have hgiven : entry ∈ h.given := hk.pending.mem_iff.mpr (List.mem_append_right _ hentry)
  have hkey : entry.1 ∈ Assoc.keys h.given := List.mem_map_of_mem hgiven
  rw [hk.keys_given, List.mem_range'_1] at hkey
  omega

theorem nodup_pending (hk : Kept known h) : (Assoc.keys h.endpoint.pending).Nodup := by
  have hgiven : (Assoc.keys h.given).Nodup := by
    rw [hk.keys_given]
    exact List.nodup_range'
  have hperm := hk.pending.map Prod.fst
  rw [List.map_append] at hperm
  exact (List.nodup_append.mp (hperm.nodup_iff.mp hgiven)).2.1

theorem arrivedSince_eq_nil (hk : Kept known h) {e : Endpoint}
    (he : e.pending.Sublist h.endpoint.pending) : arrivedSince h.endpoint e = [] :=
  arrivedSince_of_sublist hk.pending_lt he

/-- An endpoint that reads has not come to the end of the input or to a fault in it. -/
theorem open_of_reading (hk : Kept known h) (hreading : h.endpoint.reading = true) :
    h.ended = false ∧ h.read.fault = none := by
  have hreads := hk.reading
  rw [hreading, eq_comm, Bool.and_eq_true_iff, Bool.not_eq_true', Option.isNone_iff_eq_none] at hreads
  exact hreads

/-- One that does not read has come to a fault, if not to the end. -/
theorem fault_of_deaf (hk : Kept known h) (hreading : h.endpoint.reading = false)
    (hended : h.ended = false) : ∃ fault, h.read.fault = some fault := by
  have hreads := hk.reading
  rw [hreading, hended, Bool.not_false, Bool.true_and] at hreads
  cases hfault : h.read.fault with
  | none =>
      rw [hfault] at hreads
      cases hreads
  | some fault => exact ⟨fault, rfl⟩

/-- What an event does that brings no octets and gives nothing to a handler. -/
theorem step_eq (hk : Kept known h) (event : Event) (hoctets : event.octets = [])
    (hend : event.isEnd = false) {e : Endpoint} (he : h.endpoint.step known event = e)
    (hpending : e.pending.Sublist h.endpoint.pending) {done : List Answered}
    (hdone : event.answered h.endpoint = done) {made : List Packet}
    (hmade : event.sent h.endpoint = made) :
    h.step known event = { h with
      endpoint := e, answered := h.answered ++ done, sent := h.sent ++ made } := by
  rw [History.step, he, hoctets, hend, hdone, hmade, hk.arrivedSince_eq_nil hpending,
    List.append_nil, List.append_nil, Bool.or_false, ite_self]

/-- The same of one with which no call is answered and none is made. -/
theorem step_quiet (hk : Kept known h) (event : Event) (hoctets : event.octets = [])
    (hend : event.isEnd = false) {e : Endpoint} (he : h.endpoint.step known event = e)
    (hpending : e.pending.Sublist h.endpoint.pending) (hdone : event.answered h.endpoint = [])
    (hmade : event.sent h.endpoint = []) : h.step known event = { h with endpoint := e } := by
  rw [hk.step_eq event hoctets hend he hpending hdone hmade, List.append_nil, List.append_nil]

/-- More packets are queued behind the others. -/
theorem out_append (hk : Kept known h) {more made refused done : List Packet}
    (hmore : Merged more made refused done) :
    ∃ gone, Packet.writeAll gone = .ok h.endpoint.written
      ∧ Merged (gone ++ (h.endpoint.outgoing ++ more)) (h.sent ++ made)
        (refusals known h.read.frames ++ refused) (answers h.answered ++ done) := by
  obtain ⟨gone, hgone, hout⟩ := hk.out
  have hout' := hout.append hmore
  rw [List.append_assoc] at hout'
  exact ⟨gone, hgone, hout'⟩

/-! ## One event keeps it -/

theorem finish (hk : Kept known h) (hwriting : h.endpoint.writing = true) (ticket : Nat)
    (result : Except String Packet.Value) : Kept known (h.step known (.finish ticket result)) := by
  cases hget : Assoc.get? h.endpoint.pending ticket with
  | none =>
      have hdone : Event.answered h.endpoint (.finish ticket result) = [] := by
        rw [Event.answered, hget]
        rfl
      rw [hk.step_quiet (.finish ticket result) rfl rfl (finish_of_none hget result) (List.Sublist.refl _)
        hdone rfl]
      exact hk
  | some c =>
      have hdone : Event.answered h.endpoint (.finish ticket result) = [⟨ticket, c, result⟩] := by
        rw [Event.answered, hget]
        rfl
      have hmade : Event.sent h.endpoint (.finish ticket result) = [] := rfl
      have hpending := hk.pending.trans
        ((Assoc.perm_erase hk.nodup_pending hget).append_left (h.answered.map Answered.entry))
      have hout := hk.out_append (merged_third (answers [⟨ticket, c, result⟩]))
      rw [List.append_nil, List.append_nil, ← answers_append] at hout
      rw [hk.step_eq (.finish ticket result) rfl rfl (finish_of_some hwriting hget result)
        List.filter_sublist hdone hmade, List.append_nil]
      exact { hk with
        pending := by
          rw [List.map_append, List.append_assoc]
          exact hpending
        out := hout }

theorem send (hk : Kept known h) (method : String) (params : List Packet.Value) :
    Kept known (h.step known (.send method params)) := by
  cases hsend : h.endpoint.send method params with
  | error e =>
      have hstep : h.endpoint.step known (.send method params) = h.endpoint := by
        rw [step, hsend]
      have hmade : Event.sent h.endpoint (.send method params) = [] := by
        rw [Event.sent, hsend]
      rw [hk.step_quiet _ rfl rfl hstep (List.Sublist.refl _) rfl hmade]
      exact hk
  | ok e' =>
      have hstep : h.endpoint.step known (.send method params) = { h.endpoint with
          outgoing := h.endpoint.outgoing ++ [.call ⟨Packet.oneWay, method, params⟩] } := by
        rw [step, hsend, send_eq_ok hsend]
      have hmade : Event.sent h.endpoint (.send method params)
          = [.call ⟨Packet.oneWay, method, params⟩] := by
        rw [Event.sent, hsend]
      have hdone : Event.answered h.endpoint (.send method params) = [] := rfl
      have hout := hk.out_append (merged_first [.call ⟨Packet.oneWay, method, params⟩])
      rw [List.append_nil, List.append_nil] at hout
      rw [hk.step_eq _ rfl rfl hstep (List.Sublist.refl _) hdone hmade, List.append_nil]
      exact { hk with out := hout }

theorem writeNext (hk : Kept known h) (hwriting : h.endpoint.writeNext.writing = true) :
    Kept known (h.step known .writeNext) := by
  obtain ⟨gone, hgone, hout⟩ := hk.out
  rcases writeNext_cases hwriting with ⟨_, hnext⟩ | ⟨p, rest, octets, hrest, hp, hnext⟩
  · rw [hk.step_quiet .writeNext rfl rfl hnext (List.Sublist.refl _) rfl rfl]
    exact hk
  · rw [hk.step_quiet .writeNext rfl rfl hnext (List.Sublist.refl _) rfl rfl]
    exact { hk with
      out := by
        refine ⟨gone ++ [p], writeAll_append hgone (writeAll_singleton hp), ?_⟩
        rw [hrest] at hout
        rw [List.append_assoc]
        exact hout }

theorem failWriting (hk : Kept known h) (hwriting : h.endpoint.failWriting.writing = true) :
    Kept known (h.step known .failWriting) := by
  have hfail : h.endpoint.failWriting = h.endpoint := by
    unfold Endpoint.failWriting at hwriting ⊢
    split
    · rfl
    · rename_i hout
      rw [if_neg hout] at hwriting
      cases hwriting
  rw [hk.step_quiet .failWriting rfl rfl hfail (List.Sublist.refl _) rfl rfl]
  exact hk

theorem endOfInput (hk : Kept known h) : Kept known (h.step known .endOfInput) := by
  have hend := h.endpoint.endOfInput_eq hk.lost hk.alive
  have hpending : h.endpoint.endOfInput.pending.Sublist h.endpoint.pending := by
    rw [hend]
  have hstep : h.step known .endOfInput
      = { h with endpoint := h.endpoint.endOfInput, ended := true } := by
    rw [History.step, step, hk.arrivedSince_eq_nil hpending]
    simp only [Event.octets, Event.isEnd, Event.answered, Event.sent, List.append_nil, ite_self,
      Bool.or_true]
  rw [hstep, hend]
  exact { hk with
    reading := by rw [Bool.not_true, Bool.false_and]
    alive := rfl
    lost := rfl
    codec := fun h => by cases h }

/-- Octets that arrive at an endpoint that does not read are not read. -/
theorem receive_deaf (hk : Kept known h) (hreading : h.endpoint.reading = false) (chunk : Octets) :
    Kept known (h.step known (.receive chunk)) := by
  have hreceive : h.endpoint.step known (.receive chunk) = h.endpoint := by
    rw [step, Endpoint.receive, hreading]
    rfl
  have hstep : h.step known (.receive chunk)
      = { h with input := if h.ended then h.input else h.input ++ chunk } := by
    rw [History.step, hreceive, hk.arrivedSince_eq_nil (List.Sublist.refl _)]
    simp only [Event.octets, Event.isEnd, Event.answered, Event.sent, List.append_nil, Bool.or_false]
  rw [hstep]
  by_cases hended : h.ended = true
  · rw [if_pos hended]
    exact hk
  rw [if_neg hended]
  -- the input has a fault, and nothing behind it counts
  obtain ⟨fault, hfault⟩ := hk.fault_of_deaf hreading (Bool.eq_false_iff.mpr hended)
  have hmore : ({ h with input := h.input ++ chunk } : History).read
      = { h.read with rest := h.read.rest ++ chunk } := History.read_fault hfault rfl
  exact { hk with
    reading := by rw [hmore]; exact hk.reading
    codec := fun h => by rw [hreading] at h; cases h
    given := by rw [hmore]; exact hk.given
    next := by rw [hmore]; exact hk.next
    out := by rw [hmore]; exact hk.out }

/-- An endpoint that reads gives the calls to their handlers and refuses those that have none. -/
theorem receive_heard (hk : Kept known h) (hreading : h.endpoint.reading = true)
    (hwriting : h.endpoint.writing = true) (chunk : Octets) :
    Kept known (h.step known (.receive chunk)) := by
  have hopen := hk.open_of_reading hreading
  obtain ⟨d, hd⟩ : ∃ d, Packet.shape.drain h.read.draft (h.read.rest ++ chunk) = d := ⟨_, rfl⟩
  have hreceive := receive_eq known hreading (hk.codec hreading) hd
  rw [hwriting, if_pos rfl] at hreceive
  -- the calls that have a handler get tickets, and the others are refused at once
  have harrived : arrivedSince h.endpoint (h.endpoint.receive known chunk)
      = ticketed h.endpoint.nextTicket (heard known d.frames) :=
    arrivedSince_ticketed hk.pending_lt (by rw [hreceive])
  have hstep : h.step known (.receive chunk) = { h with
      endpoint := h.endpoint.receive known chunk
      input := h.input ++ chunk
      given := h.given ++ ticketed h.endpoint.nextTicket (heard known d.frames) } := by
    rw [History.step, Endpoint.step, harrived, hopen.1]
    simp only [Event.octets, Event.isEnd, Event.answered, Event.sent, List.append_nil, Bool.or_false]
    rfl
  have hmore : (h.step known (.receive chunk)).read = d.after h.read.frames := by
    rw [← hd]
    exact History.read_more hopen.2 (by rw [hstep])
  have hout := hk.out_append (merged_second (refusals known d.frames))
  rw [List.append_nil, List.append_nil, ← refusals_append] at hout
  rw [hstep, hreceive] at hmore ⊢
  exact {
    reading := by rw [hmore, hopen.1]; rfl
    alive := by
      dsimp only
      rw [hk.alive, hreading, Bool.true_and]
    lost := by
      dsimp only
      rw [hk.lost, hreading]
      cases d.fault <;> rfl
    codec := fun _ => by rw [hmore]; rfl
    given := by
      rw [hmore, Shape.Drained.after, heard_append, ticketed_append, Nat.zero_add, ← hk.next, ← hk.given]
    next := by
      rw [hmore, Shape.Drained.after, heard_append, List.length_append, ← hk.next]
    pending := by
      have hpending := hk.pending.append_right (ticketed h.endpoint.nextTicket (heard known d.frames))
      rw [List.append_assoc] at hpending
      exact hpending
    out := by
      rw [hmore]
      exact hout }

/-- **No event breaks it** while the endpoint can write. -/
theorem step (hk : Kept known h) {event : Event}
    (hwriting : (h.step known event).endpoint.writing = true) : Kept known (h.step known event) := by
  have hbefore : h.endpoint.writing = true := writing_of_step hwriting
  cases event with
  | receive chunk =>
      by_cases hreading : h.endpoint.reading = true
      · exact hk.receive_heard hreading hbefore chunk
      · exact hk.receive_deaf (Bool.eq_false_iff.mpr hreading) chunk
  | endOfInput => exact hk.endOfInput
  | finish ticket result => exact hk.finish hbefore ticket result
  | send method params => exact hk.send method params
  | writeNext => exact hk.writeNext hwriting
  | failWriting => exact hk.failWriting hwriting
  | close => cases hwriting

end Kept

theorem writing_of_foldl {known : String → Bool} {events : List Event} {h : History}
    (hwriting : (events.foldl (History.step known) h).endpoint.writing = true) :
    h.endpoint.writing = true := by
  induction events generalizing h with
  | nil => exact hwriting
  | cons event events ih => exact writing_of_step (ih hwriting)

theorem kept_foldl {known : String → Bool} {events : List Event} {h : History} (hk : Kept known h)
    (hwriting : (events.foldl (History.step known) h).endpoint.writing = true) :
    Kept known (events.foldl (History.step known) h) := by
  induction events generalizing h with
  | nil => exact hk
  | cons event events ih => exact ih (hk.step (writing_of_foldl hwriting)) hwriting

/-! ## Every call has its answer -/

/-- Three calls, of which the second has no handler and arrives in two parts, a call of the server, and
answers in the other order, one of them after the end of the input. -/
def visit : List Event :=
  [.receive [0x83, 1, 7, 0x61, 0x61, 0x83, 1, 9], .send "b" [.null],
    .receive [0x61, 0x62, 0x83, 1, 8, 0x61, 0x61], .finish 1 (.error "no"), .writeNext, .endOfInput,
    .finish 0 (.ok .null), .writeNext]

end Endpoint

end GameHall
