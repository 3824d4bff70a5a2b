import GameHall.Proofs.Engine.Answers
import GameHall.Proofs.Scheduler.Deeds

/-!
# What a worker writes to its engine

The calls that a worker makes go out in the order in which they are made, among the answers to the calls
of the engine. What has been written and what waits to be are all of them, unless the writing has failed
because the engine does not read any more; then what has been written is the beginning of them
(`Piped`, `piped_play`).
-/

namespace GameHall

/-- A call to the engine as it is written; it expects no answer. -/
def EngineCall.toCall (c : EngineCall) : Packet.Call := ⟨Packet.oneWay, c.method, c.params⟩

/-- A call to the engine that goes out, and where it comes from. -/
def Deed.made? : Deed → Option (Cause × EngineCall)
  | .call cause c true => some (cause, c)
  | _ => none

/-- The parameters of a call are never too many for a packet. -/
def EngineCall.IsShort (c : EngineCall) : Prop := c.params.length ≤ Packet.maxParams

theorem EngineCall.isShort_bye : bye.IsShort := Nat.zero_le _

theorem EngineCall.isShort_wake (room : Int) (reason : String) : (wake room reason).IsShort :=
  (by decide : 2 ≤ Packet.maxParams)

theorem Signal.isShort {s : Signal} {c : EngineCall} (h : s.call? = some c) : c.IsShort := by
  cases s with
  | request room connection command payload =>
      cases h
      exact (by decide : 4 ≤ Packet.maxParams)
  | wake room reason =>
      cases h
      exact EngineCall.isShort_wake room reason
  | playerState room connection state =>
      cases h
      exact (by decide : 3 ≤ Packet.maxParams)
  | addObserver room description =>
      cases h
      exact (by decide : 2 ≤ Packet.maxParams)
  | removeObserver room connection =>
      cases h
      exact (by decide : 2 ≤ Packet.maxParams)
  | arm kind room wait => cases h
  | disarm kind room => cases h

/-- A packet that can be written. -/
def Packet.IsWritable (p : Packet) : Prop := ∃ octets, p.write = .ok octets

/-- A call of the server can be written, since its parameters are few. -/
theorem EngineCall.isWritable {c : EngineCall} (h : c.IsShort) : (Packet.call c.toCall).IsWritable :=
  ⟨_, if_neg (Nat.not_lt.mpr h)⟩

namespace Endpoint

theorem calls_append (ps ps' : List Packet) : calls (ps ++ ps') = calls ps ++ calls ps' :=
  List.filterMap_append

/-! ## What goes out besides calls -/

/-- An endpoint has more to write that is no call of the server, or has lost its engine. -/
structure Replies (e e' : Endpoint) : Prop where
  written : e'.written = e.written
  writing : e'.writing = e.writing
  outgoing : ∃ more, e'.outgoing = e.outgoing ++ more ∧ calls more = []
    ∧ ∀ p ∈ more, p.IsWritable
  alive : e.alive = !e.lost → e'.alive = !e'.lost
  lost : e.lost = true → e'.lost = true

theorem replies_refl (e : Endpoint) : e.Replies e :=
  ⟨rfl, rfl, ⟨[], (List.append_nil _).symm, rfl, fun _ hp => absurd hp List.not_mem_nil⟩, id, id⟩

theorem calls_refusals (known : String → Bool) (ps : List Packet) : calls (refusals known ps) = [] := by
  rw [calls, refusals, List.filterMap_map]
  exact List.filterMap_eq_nil_iff.mpr fun _ _ => rfl

theorem isWritable_of_mem_refusals {known : String → Bool} {ps : List Packet} {p : Packet}
    (h : p ∈ refusals known ps) : p.IsWritable := by
  obtain ⟨c, _, rfl⟩ := List.mem_map.mp h
  exact ⟨_, rfl⟩

/-- What arrives may be refused, and a refusal is no call. -/
theorem replies_receive (known : String → Bool) (e : Endpoint) (chunk : Octets) :
    e.Replies (e.receive known chunk) := by
  unfold receive
  split
  · rcases e.codec.absorb Packet.shape chunk with ⟨packets, fault, codec⟩
    dsimp only
    rw [foldl_accept]
    have hmore : ∃ more, (if e.writing then e.outgoing ++ refusals known packets else e.outgoing)
        = e.outgoing ++ more ∧ calls more = [] ∧ ∀ p ∈ more, p.IsWritable := by
      split
      · exact ⟨_, rfl, calls_refusals known packets, fun _ => isWritable_of_mem_refusals⟩
      · exact (replies_refl e).outgoing
    cases fault with
    | none => exact ⟨rfl, rfl, hmore, id, id⟩
    | some fault => exact ⟨rfl, rfl, hmore, fun _ => rfl, fun _ => rfl⟩
  · exact replies_refl e

theorem replies_endOfInput (e : Endpoint) : e.Replies e.endOfInput := by
  unfold endOfInput
  split
  · exact { replies_refl e with alive := fun _ => rfl, lost := fun _ => rfl }
  · exact replies_refl e

theorem isWritable_answer (id : Int32) (result : Except String Packet.Value) :
    (answer id result).IsWritable ∧ calls [answer id result] = [] := by
  cases result with
  | ok v => exact ⟨⟨_, rfl⟩, rfl⟩
  | error words => exact ⟨⟨_, rfl⟩, rfl⟩

/-- An answer is none either. -/
theorem replies_finish (e : Endpoint) (ticket : Nat) (result : Except String Packet.Value) :
    e.Replies (e.finish ticket result) := by
  unfold finish
  split
  · exact replies_refl e
  · rename_i c _
    dsimp only
    split
    · rw [queue_eq]
      refine ⟨rfl, rfl, ?_, id, id⟩
      dsimp only
      split
      · obtain ⟨hwritable, hcalls⟩ := isWritable_answer c.id result
        refine ⟨_, rfl, hcalls, fun p hp => ?_⟩
        rw [List.mem_singleton.mp hp]
        exact hwritable
      · exact (replies_refl e).outgoing
    · exact { replies_refl e with }

theorem send_eq_error {e : Endpoint} {method : String} {params : List Packet.Value}
    {fault : EngineFault} (h : e.send method params = .error fault) :
    (e.alive && e.writing) = false := by
  unfold send at h
  split at h
  · cases h
  · rename_i hdown
    exact Bool.eq_false_iff.mpr hdown

/-- A call is queued only for an engine that is there and can be written to. -/
theorem alive_of_send {e e' : Endpoint} {method : String} {params : List Packet.Value}
    (h : e.send method params = .ok e') : e.alive = true ∧ e.writing = true := by
  unfold send at h
  split at h
  · rename_i hup
    exact Bool.and_eq_true_iff.mp hup
  · cases h

/-- A queue of packets that can be written is written as a whole. -/
theorem flush_of_writable {queue : List Packet} (hqueue : ∀ p ∈ queue, p.IsWritable) :
    ∀ {e : Endpoint}, e.outgoing = queue → ∃ octets, Packet.writeAll queue = .ok octets
      ∧ e.flush = { e with outgoing := [], written := e.written ++ octets } := by
  have hfold : ∀ {e : Endpoint}, e.outgoing = queue → ∃ octets, Packet.writeAll queue = .ok octets
      ∧ queue.foldl (fun e _ => e.writeNext) e
        = { e with outgoing := [], written := e.written ++ octets } := by
    induction queue with
    | nil =>
        intro e hout
        refine ⟨[], rfl, ?_⟩
        rw [List.append_nil, List.foldl_nil, ← hout]
    | cons p queue ih =>
        intro e hout
        obtain ⟨octets, hp⟩ := hqueue p List.mem_cons_self
        have hnext : e.writeNext = { e with outgoing := queue, written := e.written ++ octets } := by
          simp only [writeNext, hout, hp]
        obtain ⟨later, hlater, heq⟩ := ih (fun p hp => hqueue p (List.mem_cons_of_mem _ hp))
          (e := { e with outgoing := queue, written := e.written ++ octets }) rfl
        refine ⟨octets ++ later, writeAll_cons hp hlater, ?_⟩
        rw [List.foldl_cons, hnext, heq, List.append_assoc]
  intro e hout
  obtain ⟨octets, hoctets, heq⟩ := hfold hout
  refine ⟨octets, hoctets, ?_⟩
  rw [flush, hout]
  exact heq

end Endpoint

namespace Worker

open Endpoint

variable {w w' : Worker} {now : Moment} {torn : Prop}

/-! ## Calls that are made -/

/-- The calls that go out, in order, each with where it comes from. -/
def made (deeds : Deeds) : List (Cause × EngineCall) := deeds.filterMap fun d => d.2.made?

theorem made_append (deeds deeds' : Deeds) : made (deeds ++ deeds') = made deeds ++ made deeds' :=
  List.filterMap_append

theorem made_concat_of_none (deeds : Deeds) {d : Moment × Deed} (hd : d.2.made? = none) :
    made (deeds ++ [d]) = made deeds := by
  have hnone : made [d] = [] := List.filterMap_cons_none (f := fun d : Moment × Deed => d.2.made?) hd
  rw [made_append, hnone, List.append_nil]

theorem made_of_service {added : Deeds} (h : ∀ d ∈ added, d.2.isService = true) : made added = [] := by
  refine List.filterMap_eq_nil_iff.mpr fun d hd => ?_
  have hservice := h d hd
  cases hdeed : d.2 with
  | call cause c taken =>
      rw [hdeed] at hservice
      cases hservice
  | _ => rfl

/-- What a call to the engine does. -/
theorem call_cases (w : Worker) (now : Moment) (cause : Cause) (c : EngineCall) :
    w.reaches = false ∧ w.call now cause c = w
    ∨ w.reaches = true ∧ w.endpoint.alive = true ∧ w.endpoint.writing = true
      ∧ w.call now cause c = { w with
          endpoint := { w.endpoint with outgoing := w.endpoint.outgoing ++ [.call c.toCall] }
          deeds := w.deeds ++ [(now, .call cause c true)] }
    ∨ w.reaches = true ∧ (w.endpoint.alive && w.endpoint.writing) = false
      ∧ w.call now cause c = w.note now (.call cause c false) := by
  cases hreaches : w.reaches with
  | false =>
      refine Or.inl ⟨rfl, ?_⟩
      rw [call, hreaches]
      rfl
  | true =>
      cases hsend : w.endpoint.send c.method c.params with
      | error fault =>
          refine Or.inr (Or.inr ⟨rfl, send_eq_error hsend, ?_⟩)
          rw [call, if_pos hreaches, hsend]
      | ok e =>
          obtain ⟨halive, hwriting⟩ := alive_of_send hsend
          refine Or.inr (Or.inl ⟨rfl, halive, hwriting, ?_⟩)
          rw [call, if_pos hreaches, hsend, send_eq_ok hsend]
          rfl

/-! ## The pipe -/

/-- The calls that a worker has made have been written or wait to be. If the writing has failed, as
`torn` tells, they have been written up to some call. -/
structure Piped (torn : Prop) (w : Worker) : Prop where
  writable : ∀ p ∈ w.endpoint.outgoing, p.IsWritable
  alive : w.phase ≠ .stopped → w.endpoint.alive = !w.endpoint.lost
  writing : w.phase ≠ .stopped → w.endpoint.writing = false → w.endpoint.lost = true
  out : ∃ gone, Packet.writeAll gone = .ok w.endpoint.written
    ∧ calls (gone ++ w.endpoint.outgoing) <+: (made w.deeds).map (fun m => m.2.toCall)
    ∧ (calls (gone ++ w.endpoint.outgoing) = (made w.deeds).map (fun m => m.2.toCall)
      ∨ w.endpoint.writing = false ∧ torn)

theorem piped_new : Piped torn new where
  writable := fun _ hp => absurd hp List.not_mem_nil
  alive := fun _ => rfl
  writing := fun _ h => nomatch h
  out := ⟨[], rfl, List.prefix_rfl, Or.inl rfl⟩

theorem Piped.mono {torn' : Prop} (h : Piped torn w) (htorn : torn → torn') : Piped torn' w where
  writable := h.writable
  alive := h.alive
  writing := h.writing
  out := by
    obtain ⟨gone, hgone, hfront, hall⟩ := h.out
    exact ⟨gone, hgone, hfront, hall.imp_right fun hall => ⟨hall.1, htorn hall.2⟩⟩

/-- What makes no call keeps it, if it adds nothing to the queue but answers. -/
theorem Piped.replies (h : Piped torn w) (hendpoint : w.endpoint.Replies w'.endpoint)
    (hphase : w.phase = .stopped → w'.phase = .stopped) (hmade : made w'.deeds = made w.deeds) :
    Piped torn w' where
  writable := by
    obtain ⟨more, hmore, _, hwritable⟩ := hendpoint.outgoing
    intro p hp
    rw [hmore] at hp
    exact (List.mem_append.mp hp).elim (h.writable p) (hwritable p)
  alive := fun hup => hendpoint.alive (h.alive fun hstopped => hup (hphase hstopped))
  writing := by
    intro hup hwriting
    rw [hendpoint.writing] at hwriting
    exact hendpoint.lost (h.writing (fun hstopped => hup (hphase hstopped)) hwriting)
  out := by
    obtain ⟨gone, hgone, hfront, hall⟩ := h.out
    obtain ⟨more, hmore, hcalls, _⟩ := hendpoint.outgoing
    -- answers stand in the queue, but are no calls
    have hqueue : calls (gone ++ w'.endpoint.outgoing) = calls (gone ++ w.endpoint.outgoing) := by
      rw [hmore, ← List.append_assoc, calls_append, hcalls, List.append_nil]
    refine ⟨gone, ?_, ?_, ?_⟩
    · rw [hendpoint.written, hgone]
    · rwa [hqueue, hmade]
    · rwa [hqueue, hmade, hendpoint.writing]

/-- What leaves the endpoint alone and makes no call keeps it. -/
theorem Piped.same (h : Piped torn w) (hendpoint : w'.endpoint = w.endpoint)
    (hphase : w.phase = .stopped → w'.phase = .stopped) (hmade : made w'.deeds = made w.deeds) :
    Piped torn w' :=
  h.replies (hendpoint ▸ replies_refl w.endpoint) hphase hmade

/-- A call that is made waits behind those that were made before. -/
theorem Piped.call (h : Piped torn w) (cause : Cause) {c : EngineCall} (hc : c.IsShort) :
    Piped torn (w.call now cause c) := by
  rcases call_cases w now cause c with ⟨_, heq⟩ | ⟨_, halive, hwriting, heq⟩ | ⟨_, _, heq⟩
  · rwa [heq]
  · obtain ⟨gone, hgone, _, hall⟩ := h.out
    -- the pipe is open, so every call so far is written or waits
    obtain hall | ⟨hdown, _⟩ := hall
    case inr => cases hwriting.symm.trans hdown
    have hqueue : calls (gone ++ (w.endpoint.outgoing ++ [.call c.toCall]))
        = (made (w.deeds ++ [(now, .call cause c true)])).map (fun m => m.2.toCall) := by
      rw [← List.append_assoc, calls_append, hall, made_append, List.map_append]
      rfl
    rw [heq]
    exact {
      writable := by
        intro p hp
        rcases List.mem_append.mp hp with hold | hnew
        · exact h.writable p hold
        · rw [List.mem_singleton.mp hnew]
          exact EngineCall.isWritable hc
      alive := h.alive
      writing := h.writing
      out := ⟨gone, hgone, hqueue ▸ List.prefix_rfl, Or.inl hqueue⟩ }
  · rw [heq]
    exact h.same rfl id (made_concat_of_none _ rfl)

theorem Piped.note (h : Piped torn w) {d : Deed} (hd : d.made? = none) : Piped torn (w.note now d) :=
  h.same rfl id (made_concat_of_none _ hd)

/-! ## What a worker does -/

theorem Piped.receive (h : Piped torn w) (chunk : Octets) : Piped torn (w.receive now chunk) := by
  obtain ⟨timers, errands, added, heq, hservice⟩ := receive_eq w now chunk
  rw [heq]
  refine h.replies (replies_receive _ _ chunk) id ?_
  have hnone : made ((now, .read chunk) :: added) = made added := List.filterMap_cons_none rfl
  rw [made_append, hnone, made_of_service hservice, List.append_nil]

theorem Piped.ring (h : Piped torn w) (task : Nat) : Piped torn (w.ring now task) := by
  unfold Worker.ring
  split
  · rename_i t _
    split
    · have hring : Piped torn ({ w with timers := w.timers.wake task t.key }.note now (.ring t.key)) :=
        h.same rfl id (made_concat_of_none _ rfl)
      exact hring.call (.timer t.key) (EngineCall.isShort_wake _ _)
    · exact h
  · exact h

theorem Piped.runErrand (h : Piped torn w) (ticket : Nat) : Piped torn (w.runErrand now ticket) := by
  unfold Worker.runErrand
  dsimp only
  split
  · exact h.replies (replies_finish w.endpoint ticket _) id rfl
  · exact h.same rfl id (made_concat_of_none _ rfl)
  · exact h

theorem Piped.runSignal (h : Piped torn w) (s : Signal) : Piped torn (w.runSignal now s) := by
  cases hcall : s.call? with
  | some c =>
      rw [runSignal_of_call hcall]
      exact h.call .signal (Signal.isShort hcall)
  | none =>
      obtain ⟨timers, d, heq, hservice⟩ := runSignal_of_none w now hcall
      rw [heq]
      refine h.same rfl id (made_concat_of_none _ ?_)
      cases d with
      | call cause c taken => cases hservice
      | _ => rfl

/-- The queue is written before the pipes are closed. -/
theorem Piped.close (h : Piped torn w) :
    Piped torn { w with phase := .stopped, signals := [], endpoint := w.endpoint.close } := by
  obtain ⟨gone, hgone, hfront, hall⟩ := h.out
  obtain ⟨octets, hoctets, hflush⟩ := flush_of_writable h.writable (e := w.endpoint) rfl
  have hclose : w.endpoint.close = { w.endpoint with
      outgoing := [], written := w.endpoint.written ++ octets, writing := false, reading := false,
      alive := false } := by
    rw [Endpoint.close, hflush]
  exact {
    writable := by
      intro p hp
      rw [hclose] at hp
      exact absurd hp List.not_mem_nil
    alive := fun hup => absurd rfl hup
    writing := fun hup => absurd rfl hup
    out := by
      -- all that has waited is gone now
      refine ⟨gone ++ w.endpoint.outgoing, ?_, ?_, ?_⟩
      · rw [hclose]
        exact writeAll_append hgone hoctets
      · rw [hclose, List.append_nil]
        exact hfront
      · rw [hclose, List.append_nil]
        exact hall.imp_right fun hall => ⟨rfl, hall.2⟩ }

theorem Piped.turn (h : Piped torn w) : Piped torn (w.turn now) := by
  have hrun : ∀ s rest, Piped torn ({ w with signals := rest }.note now (.run s)) :=
    fun _ _ => h.same rfl id (made_concat_of_none _ rfl)
  cases turn_cases w now with
  | nothing heq => rwa [heq]
  | drain hphase _ heq =>
      rw [heq]
      exact h.same rfl (fun hstopped => by cases hphase.symm.trans hstopped) rfl
  | report _ _ heq =>
      rw [heq]
      exact h.same rfl id rfl
  | take s rest _ _ heq =>
      rw [heq]
      exact (hrun s rest).runSignal s
  | leave hphase _ heq =>
      rw [heq]
      have hclear : Piped torn ({ w with timers := w.timers.clear }.note now .clear) :=
        h.same rfl id (made_concat_of_none _ rfl)
      have hbye : Piped torn (({ w with timers := w.timers.clear }.note now .clear).call now .farewell
          EngineCall.bye) := hclear.call .farewell EngineCall.isShort_bye
      refine hbye.same rfl (fun hstopped => ?_) rfl
      have hcall := call_cases ({ w with timers := w.timers.clear }.note now .clear) now .farewell
        EngineCall.bye
      rcases hcall with ⟨_, hc⟩ | ⟨_, _, _, hc⟩ | ⟨_, _, hc⟩
      all_goals
        rw [hc] at hstopped
        cases hphase.symm.trans hstopped
  | stop _ heq =>
      rw [heq]
      exact h.close

theorem Piped.write (h : Piped torn w) :
    Piped torn { w with endpoint := w.endpoint.writeNext } := by
  cases hout : w.endpoint.outgoing with
  | nil =>
      have hnext : w.endpoint.writeNext = w.endpoint := by
        rw [writeNext, hout]
      exact h.same hnext id rfl
  | cons p rest =>
      obtain ⟨gone, hgone, hfront, hall⟩ := h.out
      have hwritable := h.writable
      rw [hout] at hfront hall hwritable
      obtain ⟨octets, hp⟩ := hwritable p List.mem_cons_self
      have hnext : w.endpoint.writeNext
          = { w.endpoint with outgoing := rest, written := w.endpoint.written ++ octets } := by
        simp only [writeNext, hout, hp]
      rw [hnext]
      exact {
        writable := fun q hq => hwritable q (List.mem_cons_of_mem _ hq)
        alive := h.alive
        writing := h.writing
        out := by
          refine ⟨gone ++ [p], writeAll_append hgone (writeAll_singleton hp), ?_, ?_⟩
          · rw [List.append_assoc]
            exact hfront
          · rw [List.append_assoc]
            exact hall }

/-- When the writing fails, what was written stays, and what waits is lost. -/
theorem Piped.failWriting (h : Piped torn w) (htorn : torn) :
    Piped torn { w with endpoint := w.endpoint.failWriting } := by
  unfold Endpoint.failWriting
  split
  · exact h
  · obtain ⟨gone, hgone, hfront, _⟩ := h.out
    exact {
      writable := fun p hp => absurd hp List.not_mem_nil
      alive := fun _ => rfl
      writing := fun _ _ => rfl
      out := by
        refine ⟨gone, hgone, ?_, Or.inr ⟨rfl, htorn⟩⟩
        rw [calls_append] at hfront
        rw [List.append_nil]
        exact (List.prefix_append _ _).trans hfront }

/-- **Every event keeps it.** -/
theorem Piped.step (h : Piped torn w) {e : Event} (he : e = .failWriting → torn) :
    Piped torn (w.step (now, e)) := by
  cases step_cases w now e with
  | nothing heq => rwa [heq]
  | start rest hphase heq =>
      rw [heq]
      have hrunning : Piped torn { w with phase := .running } :=
        h.same rfl (fun hstopped => by cases hphase.symm.trans hstopped) rfl
      exact hrunning.receive rest
  | failStart _ heq =>
      rw [heq]
      exact h.same rfl (fun _ => rfl) rfl
  | emit _ _ _ heq | quit heq | giveUp heq =>
      rw [heq]
      exact h.same rfl id rfl
  | turn heq =>
      rw [heq]
      exact h.turn
  | receive chunk _ heq =>
      rw [heq]
      exact h.receive chunk
  | endOfOutput _ heq =>
      rw [heq]
      exact h.replies (replies_endOfInput w.endpoint) id rfl
  | errand ticket _ heq =>
      rw [heq]
      exact h.runErrand ticket
  | answer ticket result _ heq =>
      rw [heq]
      exact h.replies (replies_finish w.endpoint ticket result) id rfl
  | ring task _ heq =>
      rw [heq]
      exact h.ring task
  | write heq =>
      rw [heq]
      exact h.write
  | failWriting heq =>
      rw [heq]
      exact h.failWriting (he rfl)

/-- The engine reads on: nothing that is written to it fails. -/
def ReadsOn (events : History) : Prop := ∀ now, (now, Event.failWriting) ∉ events

theorem readsOn_of_append {past later : History} (h : ReadsOn (past ++ later)) : ReadsOn past :=
  fun now hmem => h now (List.mem_append_left _ hmem)

/-- **The calls that a worker makes go out in order**, whatever happens to it. -/
theorem piped_play (events : History) : Piped (¬ ReadsOn events) (new.play events) := by
  induction events using List.reverseRecOn with
  | nil => exact piped_new
  | append_singleton events e ih =>
      rw [play_append]
      have hmono : Piped (¬ ReadsOn (events ++ [e])) (new.play events) :=
        ih.mono fun hnot hreads => hnot (readsOn_of_append hreads)
      refine hmono.step fun hfail hreads => hreads e.1 ?_
      rw [← hfail]
      exact List.mem_append_right _ List.mem_cons_self

end Worker

end GameHall
