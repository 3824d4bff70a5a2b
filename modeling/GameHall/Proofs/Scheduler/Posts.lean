import GameHall.Proofs.Engine.Answers
import GameHall.Proofs.Scheduler.Deeds

/-!
# What a worker posts

An engine calls for effects on the main loop and asks it questions. A worker posts an effect when it
serves the call, but a question only when it gets round to the errand of the call. Calls are served in
the order of the stream, so the effects are posted in that order, and when a question is posted the
effects of all calls before it have been.

What the worker keeps in mind of the stream is what it still has of it in the codec and in its errands
(`Heeds`). Whatever happens to the worker keeps it so (`heeds_step`).
-/

namespace GameHall

/-! ## Effects and questions -/

namespace HostCall

/-- Whether a call has an effect on the main loop of which the engine learns nothing more. -/
def isEffect : HostCall → Bool
  | notify _ _ _ | request _ _ _ _ _ | setThinking _ _ | setDied _ _ | kick _ | ban _ => true
  | _ => false

/-- Whether a call is one that the main loop answers. -/
def isQuestion : HostCall → Bool
  | waitForReply _ _ | isThinking _ | gameOver _ => true
  | _ => false

end HostCall

namespace Packet.Call

/-- What a call asks if its parameters are right. -/
def asked? (c : Packet.Call) : Option HostCall := (HostCall.ofCall? c).bind Except.toOption

/-- The effect that a call has on the main loop. -/
def effect? (c : Packet.Call) : Option HostCall := c.asked?.filter HostCall.isEffect

/-- The question that a call puts to the main loop. -/
def question? (c : Packet.Call) : Option HostCall := c.asked?.filter HostCall.isQuestion

end Packet.Call

/-- The effect that is posted. -/
def Post.effect? : Post → Option HostCall
  | effect call => some call
  | question _ _ => none

/-- The question that is posted, with the ticket of its call. -/
def Post.question? : Post → Option (Nat × HostCall)
  | effect _ => none
  | question ticket call => some (ticket, call)

/-- The question that is put with an errand. -/
def Errand.question? : Errand → Option HostCall
  | tell _ => none
  | ask call => some call

/-- The effects of calls, in order. -/
def effects (calls : List Packet.Call) : List HostCall := calls.filterMap Packet.Call.effect?

/-- The questions of calls, with their tickets. -/
def questions (entries : Assoc Nat Packet.Call) : Assoc Nat HostCall :=
  entries.filterMap fun entry => entry.2.question?.map fun q => (entry.1, q)

theorem effects_append (cs cs' : List Packet.Call) : effects (cs ++ cs') = effects cs ++ effects cs' :=
  List.filterMap_append

theorem questions_append (m m' : Assoc Nat Packet.Call) :
    questions (m ++ m') = questions m ++ questions m' := List.filterMap_append

/-- A question is that of the call with its ticket. -/
theorem mem_questions_ticketed {n ticket : Nat} {cs : List Packet.Call} {q : HostCall} :
    (ticket, q) ∈ questions (Endpoint.ticketed n cs) ↔
      n ≤ ticket ∧ (cs[ticket - n]?).bind Packet.Call.question? = some q := by
  induction cs generalizing n with
  | nil => simp [questions, Endpoint.ticketed]
  | cons c cs ih =>
      have hcons : questions (Endpoint.ticketed n (c :: cs))
          = questions [(n, c)] ++ questions (Endpoint.ticketed (n + 1) cs) := questions_append [(n, c)] _
      have hone : (ticket, q) ∈ questions [(n, c)] ↔ ticket = n ∧ c.question? = some q := by
        simp [questions, eq_comm, and_comm]
      rw [hcons, List.mem_append, ih, hone]
      constructor
      · rintro (⟨rfl, hq⟩ | ⟨hle, hq⟩)
        · exact ⟨le_rfl, by simpa using hq⟩
        · refine ⟨by omega, ?_⟩
          rw [show ticket - n = (ticket - (n + 1)) + 1 by omega]
          exact hq
      · rintro ⟨hle, hq⟩
        rcases Nat.eq_or_lt_of_le hle with rfl | hlt
        · exact Or.inl ⟨rfl, by simpa using hq⟩
        · refine Or.inr ⟨hlt, ?_⟩
          rw [show ticket - n = (ticket - (n + 1)) + 1 by omega] at hq
          exact hq

/-! ## Endpoints that hear nothing -/

namespace Endpoint

/-- Nothing of the engine has been heard between two endpoints, though calls may have been answered and
the reading may have ended. -/
structure Unheard (e e' : Endpoint) : Prop where
  codec : e'.reading = true → e.reading = true ∧ e'.codec = e.codec
  next : e'.nextTicket = e.nextTicket
  pending : e'.pending.Sublist e.pending

variable {e e' e'' : Endpoint}

theorem unheard_refl (e : Endpoint) : e.Unheard e := ⟨fun h => ⟨h, rfl⟩, rfl, List.Sublist.refl _⟩

/-- Steps in which nothing is heard may follow one another. -/
theorem unheard_trans (h : e.Unheard e') (h' : e'.Unheard e'') : e.Unheard e'' where
  codec hreading :=
    have hlater := h'.codec hreading
    have hearlier := h.codec hlater.1
    ⟨hearlier.1, hlater.2.trans hearlier.2⟩
  next := h'.next.trans h.next
  pending := h'.pending.trans h.pending

theorem unheard_queue (e : Endpoint) (p : Packet) : e.Unheard (e.queue p) := by
  rw [queue_eq]
  exact { unheard_refl e with }

theorem unheard_endOfInput (e : Endpoint) : e.Unheard e.endOfInput := by
  unfold endOfInput
  split
  · exact { unheard_refl e with codec := fun h => absurd h Bool.false_ne_true }
  · exact unheard_refl e

theorem unheard_finish (e : Endpoint) (ticket : Nat) (result : Except String Packet.Value) :
    e.Unheard (e.finish ticket result) := by
  unfold finish
  split
  · exact unheard_refl e
  · have herase : e.Unheard { e with pending := Assoc.erase e.pending ticket } :=
      { unheard_refl e with pending := List.filter_sublist }
    dsimp only
    split
    · exact unheard_trans herase (unheard_queue _ _)
    · exact herase

theorem unheard_send {method : String} {params : List Packet.Value}
    (h : e.send method params = .ok e') : e.Unheard e' := by
  rw [send_eq_ok h]
  exact { unheard_refl e with }

theorem unheard_writeNext (e : Endpoint) : e.Unheard e.writeNext := by
  unfold writeNext
  split
  · exact unheard_refl e
  · split
    · exact { unheard_refl e with }
    · exact { unheard_refl e with }

theorem unheard_failWriting (e : Endpoint) : e.Unheard e.failWriting := by
  unfold failWriting
  split
  · exact unheard_refl e
  · exact { unheard_refl e with }

theorem unheard_writes (l : List Packet) (e : Endpoint) :
    e.Unheard (l.foldl (fun e _ => e.writeNext) e) := by
  induction l generalizing e with
  | nil => exact unheard_refl e
  | cons _ l ih => exact unheard_trans (unheard_writeNext e) (ih _)

theorem unheard_close (e : Endpoint) : e.Unheard e.close :=
  have hflush := unheard_writes e.outgoing e
  ⟨fun h => absurd h Bool.false_ne_true, hflush.next, hflush.pending⟩

theorem values_ticketed (n : Nat) (cs : List Packet.Call) : (ticketed n cs).map Prod.snd = cs := by
  induction cs generalizing n with
  | nil => rfl
  | cons c cs ih => rw [ticketed, List.map_cons, ih]

end Endpoint

namespace Worker

variable {w w' w'' : Worker} {now : Moment}

/-- What has been posted, in order. -/
def posts (w : Worker) : List Post := w.deeds.filterMap fun d => d.2.post?

/-- The questions that are still to be put. -/
def owed (errands : Assoc Nat Errand) : Assoc Nat HostCall :=
  errands.filterMap fun entry => entry.2.question?.map fun q => (entry.1, q)

/-- What is new to the deeds has been done since. -/
theorem posts_since (h : w.deeds <+: w'.deeds) :
    w'.posts = w.posts ++ (w.since w').filterMap Deed.post? := by
  obtain ⟨added, hadded⟩ := h
  rw [posts, ← hadded, since, ← hadded, List.drop_left, List.filterMap_map, List.filterMap_append]
  rfl

theorem posts_append {added : Deeds} (h : w'.deeds = w.deeds ++ added) :
    w'.posts = w.posts ++ added.filterMap fun d => d.2.post? := by
  rw [posts, h, List.filterMap_append]
  rfl

theorem owed_append (m m' : Assoc Nat Errand) : owed (m ++ m') = owed m ++ owed m' :=
  List.filterMap_append

/-! ## Calls that are served -/

/-- What comes of serving calls: their effects are posted, and their questions are errands. -/
structure Serves (w w' : Worker) (entries : Assoc Nat Packet.Call) : Prop where
  posts : w'.posts = w.posts ++ (effects (entries.map Prod.snd)).map .effect
  errands : ∃ added, w'.errands = w.errands ++ added
    ∧ (Assoc.keys added).Sublist (Assoc.keys entries) ∧ owed added = questions entries

theorem serves_nil (w : Worker) : Serves w w [] :=
  ⟨(List.append_nil _).symm, [], (List.append_nil _).symm, List.Sublist.refl _, rfl⟩

/-- Calls are served one after the other. -/
theorem serves_append {entries entries' : Assoc Nat Packet.Call} (h : Serves w w' entries)
    (h' : Serves w' w'' entries') : Serves w w'' (entries ++ entries') where
  posts := by
    rw [h'.posts, h.posts, List.map_append, effects_append, List.map_append, List.append_assoc]
  errands := by
    obtain ⟨first, hfirst, hkeys, howed⟩ := h.errands
    obtain ⟨second, hsecond, hkeys', howed'⟩ := h'.errands
    refine ⟨first ++ second, by rw [hsecond, hfirst, List.append_assoc], ?_, ?_⟩
    · rw [Assoc.keys_append, Assoc.keys_append]
      exact hkeys.append hkeys'
    · rw [owed_append, questions_append, howed, howed']

/-- A call that has an effect posts it at once, and a question waits for its errand. -/
theorem posts_obey (w : Worker) (now : Moment) (ticket : Nat) (call : HostCall) :
    (w.obey now ticket call).posts
      = w.posts ++ ((some call).filter HostCall.isEffect).toList.map .effect := by
  cases call <;>
    simp [posts, obey, owe, note, arm, disarm, Deed.post?, Option.filter, HostCall.isEffect]

/-- A call that is obeyed leaves one errand, and a question is put with it. -/
theorem errands_obey (w : Worker) (now : Moment) (ticket : Nat) (call : HostCall) : ∃ errand,
    (w.obey now ticket call).errands = w.errands ++ [(ticket, errand)]
      ∧ errand.question? = (some call).filter HostCall.isQuestion := by
  cases call <;> exact ⟨_, rfl, rfl⟩

/-- A call that leaves an errand, and has posted its effect if it has one. -/
theorem serves_errand {ticket : Nat} {c : Packet.Call} {errand : Errand}
    (hposts : w'.posts = w.posts ++ c.effect?.toList.map .effect)
    (herrands : w'.errands = w.errands ++ [(ticket, errand)])
    (hquestion : errand.question? = c.question?) : Serves w w' [(ticket, c)] where
  posts := by
    rw [hposts]
    cases he : c.effect? <;> simp [effects, he]
  errands := by
    refine ⟨[(ticket, errand)], herrands, List.Sublist.refl _, ?_⟩
    cases hq : c.question? <;> simp [owed, questions, hquestion, hq]

theorem serves_serve (w : Worker) (now : Moment) (ticket : Nat) (c : Packet.Call) :
    Serves w (w.serve now (ticket, c)) [(ticket, c)] := by
  -- a call of no known method, one with bad parameters, and one that is obeyed
  cases hcall : HostCall.ofCall? c with
  | none =>
      have hasked : c.asked? = none := by rw [Packet.Call.asked?, hcall, Option.bind_none]
      have hserve : w.serve now (ticket, c) = w := by rw [serve, hcall]
      rw [hserve]
      refine ⟨?_, [], (List.append_nil _).symm, List.nil_sublist _, ?_⟩
      · simp [effects, Packet.Call.effect?, hasked]
      · simp [owed, questions, Packet.Call.question?, hasked]
  | some result =>
      cases result with
      | error words =>
          have hasked : c.asked? = none := by
            rw [Packet.Call.asked?, hcall]
            rfl
          have hserve : w.serve now (ticket, c) = w.owe ticket (.tell (.error words)) := by
            rw [serve, hcall]
          have herrands : (w.serve now (ticket, c)).errands
              = w.errands ++ [(ticket, .tell (.error words))] := by
            rw [hserve]
            rfl
          refine serves_errand ?_ herrands ?_
          · rw [hserve, Packet.Call.effect?, hasked]
            exact (List.append_nil _).symm
          · rw [Packet.Call.question?, hasked]
            rfl
      | ok call =>
          have hasked : c.asked? = some call := by
            rw [Packet.Call.asked?, hcall]
            rfl
          have hserve : w.serve now (ticket, c) = w.obey now ticket call := by
            rw [serve, hcall]
          obtain ⟨errand, herrands, hquestion⟩ := errands_obey w now ticket call
          rw [hserve]
          refine serves_errand ?_ herrands ?_
          · rw [Packet.Call.effect?, hasked]
            exact posts_obey w now ticket call
          · rw [Packet.Call.question?, hasked]
            exact hquestion

/-- To note what has been read serves nothing yet. -/
theorem serves_read (w : Worker) (now : Moment) (endpoint : Endpoint) (chunk : Octets) :
    Serves w ({ w with endpoint := endpoint }.note now (.read chunk)) [] where
  posts := by
    have hdeeds : ({ w with endpoint := endpoint }.note now (.read chunk)).deeds
        = w.deeds ++ [(now, .read chunk)] := rfl
    exact posts_append hdeeds
  errands := (serves_nil w).errands

theorem serves_all (w : Worker) (now : Moment) (entries : Assoc Nat Packet.Call) :
    Serves w (entries.foldl (serve now) w) entries := by
  induction entries generalizing w with
  | nil => exact serves_nil w
  | cons entry entries ih =>
      exact serves_append (serves_serve w now entry.1 entry.2) (ih (w.serve now entry))

/-! ## What a worker has in mind -/

/-- The calls in what an engine says that have a handler, up to the first fault. -/
def callsIn (input : Octets) : List Packet.Call :=
  Endpoint.heard HostCall.known (Packet.shape.drain none input).frames

/-- A worker that has read `input`. -/
structure Heeds (w : Worker) (input : Octets) : Prop where
  /-- While it reads, it has in its codec what the input has left. -/
  listening : w.endpoint.reading = true → (Packet.shape.drain none input).fault = none
    ∧ w.endpoint.codec
      = ⟨(Packet.shape.drain none input).draft, (Packet.shape.drain none input).rest, none⟩
  next : w.endpoint.nextTicket = (callsIn input).length
  pending : ∀ entry ∈ w.endpoint.pending, entry.1 < w.endpoint.nextTicket
  /-- A call has one errand at most. -/
  nodup : (Assoc.keys w.errands).Nodup
  given : ∀ ticket ∈ Assoc.keys w.errands, ticket < w.endpoint.nextTicket
  /-- The effects of all calls have been posted, in order. -/
  effects : w.posts.filterMap Post.effect? = effects (callsIn input)
  /-- Every question has been posted once, or is still to be. -/
  questions : (w.posts.filterMap Post.question? ++ owed w.errands).Perm
    (questions (Endpoint.ticketed 0 (callsIn input)))
  /-- A question has been posted after the effects of all calls before it. -/
  order : ∀ past ticket call later, w.posts = past ++ .question ticket call :: later →
    GameHall.effects ((callsIn input).take ticket) <+: past.filterMap Post.effect?

theorem heeds_new : Heeds new [] := by
  have hread : Packet.shape.drain none [] = ⟨[], none, none, []⟩ := Packet.shape.drain_nil
  have hcalls : callsIn [] = [] := by
    rw [callsIn, hread]
    rfl
  exact {
    listening := fun _ => by rw [hread]; exact ⟨rfl, rfl⟩
    next := by rw [hcalls]; rfl
    pending := fun _ h => absurd h List.not_mem_nil
    nodup := List.nodup_nil
    given := fun _ h => absurd h List.not_mem_nil
    effects := by rw [hcalls]; rfl
    questions := by rw [hcalls]; exact List.Perm.refl _
    order := fun past ticket call later h => absurd h (by simp [posts, new]) }

variable {input : Octets}

/-! ## What happens to a worker -/

/-- What leaves the posts and the errands of a worker alone, and brings nothing of the engine. -/
structure Quiet (w w' : Worker) : Prop where
  endpoint : w.endpoint.Unheard w'.endpoint
  posts : w'.posts = w.posts
  errands : w'.errands = w.errands

theorem quiet_refl (w : Worker) : Quiet w w := ⟨Endpoint.unheard_refl _, rfl, rfl⟩

theorem quiet_trans (h : Quiet w w') (h' : Quiet w' w'') : Quiet w w'' :=
  ⟨Endpoint.unheard_trans h.endpoint h'.endpoint, h'.posts.trans h.posts, h'.errands.trans h.errands⟩

theorem quiet_endpoint {endpoint : Endpoint} (h : w.endpoint.Unheard endpoint) :
    Quiet w { w with endpoint := endpoint } := ⟨h, rfl, rfl⟩

/-- A deed is noted that is no post. -/
theorem quiet_noted {d : Deed} (hd : d.post? = none) (hdeeds : w'.deeds = w.deeds ++ [(now, d)])
    (hendpoint : w.endpoint.Unheard w'.endpoint) (herrands : w'.errands = w.errands) : Quiet w w' := by
  refine ⟨hendpoint, ?_, herrands⟩
  rw [posts_append hdeeds]
  simp [hd]

theorem quiet_call (w : Worker) (now : Moment) (cause : Cause) (c : EngineCall) :
    Quiet w (w.call now cause c) := by
  unfold call
  split
  · split
    · rename_i hsend
      exact quiet_noted (d := .call cause c true) rfl rfl (Endpoint.unheard_send hsend) rfl
    · exact quiet_noted (d := .call cause c false) rfl rfl (Endpoint.unheard_refl _) rfl
  · exact quiet_refl w

theorem quiet_ring (w : Worker) (now : Moment) (task : Nat) : Quiet w (w.ring now task) := by
  unfold ring
  split
  · rename_i t _
    split
    · have hring : Quiet w ({ w with timers := w.timers.wake task t.key }.note now (.ring t.key)) :=
        quiet_noted (d := .ring t.key) rfl rfl (Endpoint.unheard_refl _) rfl
      exact quiet_trans hring (quiet_call _ now _ _)
    · exact quiet_refl w
  · exact quiet_refl w

theorem quiet_runSignal (w : Worker) (now : Moment) (s : Signal) : Quiet w (w.runSignal now s) := by
  cases s with
  | arm kind room wait =>
      exact quiet_noted (d := .arm (kind, room) wait) rfl rfl (Endpoint.unheard_refl _) rfl
  | disarm kind room =>
      exact quiet_noted (d := .disarm (kind, room) (w.timers.disarm _).1) rfl rfl
        (Endpoint.unheard_refl _) rfl
  | _ => exact quiet_call w now .signal _

/-- A turn takes signals and no calls of the engine. -/
theorem quiet_turn (w : Worker) (now : Moment) : Quiet w (w.turn now) := by
  cases turn_cases w now with
  | nothing h =>
      rw [h]
      exact quiet_refl w
  | drain _ _ h =>
      rw [h]
      exact { quiet_refl w with }
  | report _ _ h =>
      rw [h]
      exact { quiet_refl w with }
  | take s rest _ _ h =>
      rw [h]
      have htake : Quiet w ({ w with signals := rest }.note now (.run s)) :=
        quiet_noted (d := .run s) rfl rfl (Endpoint.unheard_refl _) rfl
      exact quiet_trans htake (quiet_runSignal _ now s)
  | leave _ _ h =>
      rw [h]
      have hclear : Quiet w ({ w with timers := w.timers.clear }.note now .clear) :=
        quiet_noted (d := .clear) rfl rfl (Endpoint.unheard_refl _) rfl
      exact { quiet_trans hclear (quiet_call _ now .farewell EngineCall.bye) with }
  | stop _ h =>
      rw [h]
      exact ⟨Endpoint.unheard_close _, rfl, rfl⟩

theorem quiet_answer (w : Worker) (now : Moment) (ticket : Nat)
    (result : Except String Packet.Value) : Quiet w (w.step (now, .answer ticket result)) := by
  simp only [step]
  split
  · exact quiet_endpoint (Endpoint.unheard_finish _ ticket result)
  · exact quiet_refl w

/-- What is quiet leaves it alone. -/
theorem heeds_quiet (hw : Heeds w input) (h : Quiet w w') : Heeds w' input where
  listening hreading := by
    obtain ⟨hreading, hcodec⟩ := h.endpoint.codec hreading
    rw [hcodec]
    exact hw.listening hreading
  next := h.endpoint.next.trans hw.next
  pending entry hentry := by
    rw [h.endpoint.next]
    exact hw.pending entry (h.endpoint.pending.subset hentry)
  nodup := by
    rw [h.errands]
    exact hw.nodup
  given := by
    rw [h.errands, h.endpoint.next]
    exact hw.given
  effects := by
    rw [h.posts]
    exact hw.effects
  questions := by
    rw [h.posts, h.errands]
    exact hw.questions
  order := by
    rw [h.posts]
    exact hw.order

/-- The ticket of a question that has been posted is that of a call. -/
theorem question_of_posted (hw : Heeds w input) {ticket : Nat} {call : HostCall}
    (h : .question ticket call ∈ w.posts) :
    ((callsIn input)[ticket]?).bind Packet.Call.question? = some call := by
  have hmem : (ticket, call) ∈ w.posts.filterMap Post.question? :=
    List.mem_filterMap.mpr ⟨_, h, rfl⟩
  have hcalls := hw.questions.mem_iff.mp (List.mem_append_left _ hmem)
  simpa using (mem_questions_ticketed.mp hcalls).2

/-- **The errand of a call is done.** If it is a question, that is posted. -/
theorem heeds_done (hw : Heeds w input) {ticket : Nat} {errand : Errand}
    (hget : Assoc.get? w.errands ticket = some errand) (hendpoint : w.endpoint.Unheard w'.endpoint)
    (herrands : w'.errands = Assoc.erase w.errands ticket)
    (hposts : w'.posts = w.posts ++ errand.question?.toList.map (.question ticket)) :
    Heeds w' input where
  listening := (heeds_quiet hw (quiet_endpoint hendpoint)).listening
  next := (heeds_quiet hw (quiet_endpoint hendpoint)).next
  pending := (heeds_quiet hw (quiet_endpoint hendpoint)).pending
  nodup := by
    rw [herrands]
    exact Assoc.nodup_erase hw.nodup ticket
  given key hkey := by
    rw [herrands] at hkey
    rw [hendpoint.next]
    exact hw.given key ((List.filter_sublist.map Prod.fst).subset hkey)
  effects := by
    rw [hposts, List.filterMap_append, hw.effects]
    cases errand.question? <;> simp [Post.effect?]
  questions := by
    -- what was owed for the errand is posted now: it goes from one list to the other
    have howed : (owed w.errands).Perm (errand.question?.toList.map (fun q => (ticket, q))
        ++ owed (Assoc.erase w.errands ticket)) := by
      refine ((Assoc.perm_erase hw.nodup hget).filterMap _).trans ?_
      cases hq : errand.question? <;> simp [owed, hq]
    have hnew : (errand.question?.toList.map (Post.question ticket)).filterMap Post.question?
        = errand.question?.toList.map fun q => (ticket, q) := by
      cases errand.question? <;> rfl
    rw [herrands, hposts, List.filterMap_append, hnew, List.append_assoc]
    exact (howed.symm.append_left _).trans hw.questions
  order past t call later h := by
    rw [hposts] at h
    rcases cut_append h with ⟨mid, hmid⟩ | ⟨mid, rfl, _⟩
    · exact hw.order past t call mid hmid
    · -- the question is the one that has just been posted, and all effects have been
      rw [List.filterMap_append, hw.effects]
      exact ((List.take_prefix t (callsIn input)).filterMap _).trans (List.prefix_append _ _)

/-- An errand posts the question that was owed, with its ticket. -/
theorem heeds_runErrand (hw : Heeds w input) (now : Moment) (ticket : Nat) :
    Heeds (w.runErrand now ticket) input := by
  unfold runErrand
  dsimp only
  split
  · rename_i result hget
    refine heeds_done hw hget (Endpoint.unheard_finish _ ticket result) rfl ?_
    exact (List.append_nil _).symm
  · rename_i c hget
    refine heeds_done hw hget (Endpoint.unheard_refl _) rfl ?_
    exact List.filterMap_append
  · exact hw

/-- The calls in what has arrived are those that were there and those that have come with the chunk. -/
theorem callsIn_append {chunk : Octets} {d : Shape.Drained PacketDraft Packet}
    (hfault : (Packet.shape.drain none input).fault = none)
    (hd : Packet.shape.drain (Packet.shape.drain none input).draft
      ((Packet.shape.drain none input).rest ++ chunk) = d) :
    callsIn (input ++ chunk) = callsIn input ++ Endpoint.heard HostCall.known d.frames := by
  rw [callsIn, Packet.shape.drain_more hfault, hd]
  exact Endpoint.heard_append _ _ _

/-- Octets that arrive at a worker that reads are heard, and the calls in them served. -/
theorem heeds_heard (hw : Heeds w input) {chunk : Octets} {d : Shape.Drained PacketDraft Packet}
    {cs : List Packet.Call} (hd : Packet.shape.drain none (input ++ chunk) = d)
    (hcalls : callsIn (input ++ chunk) = callsIn input ++ cs)
    (hcodec : w'.endpoint.codec = ⟨d.draft, d.rest, none⟩)
    (hreads : w'.endpoint.reading = d.fault.isNone)
    (hpending : w'.endpoint.pending
      = w.endpoint.pending ++ Endpoint.ticketed w.endpoint.nextTicket cs)
    (hnext : w'.endpoint.nextTicket = w.endpoint.nextTicket + cs.length)
    (hserves : Serves w w' (Endpoint.ticketed w.endpoint.nextTicket cs)) :
    Heeds w' (input ++ chunk) := by
  obtain ⟨added, herrands, hkeys, howed⟩ := hserves.errands
  rw [Endpoint.keys_ticketed] at hkeys
  have hposts := hserves.posts
  rw [Endpoint.values_ticketed] at hposts
  have hnone : ((effects cs).map Post.effect).filterMap Post.question? = [] :=
    List.filterMap_eq_nil_iff.mpr fun p hp => by
      obtain ⟨call, _, rfl⟩ := List.mem_map.mp hp
      rfl
  exact {
    listening := fun h => by
      rw [hreads, Option.isNone_iff_eq_none] at h
      rw [hd]
      exact ⟨h, hcodec⟩
    next := by rw [hnext, hcalls, List.length_append, hw.next]
    pending := fun entry hentry => by
      rw [hpending] at hentry
      rw [hnext]
      rcases List.mem_append.mp hentry with hold | hnew
      · exact Nat.lt_add_right _ (hw.pending entry hold)
      · have hkey : entry.1 ∈ Assoc.keys _ := List.mem_map_of_mem hnew
        rw [Endpoint.keys_ticketed, List.mem_range'_1] at hkey
        exact hkey.2
    -- tickets are counted up, so those of new calls are given to nobody yet
    nodup := by
      rw [herrands, Assoc.keys_append]
      refine List.nodup_append.mpr ⟨hw.nodup, hkeys.nodup List.nodup_range', fun a ha b hb hab => ?_⟩
      have hold := hw.given a ha
      have hnew := List.mem_range'_1.mp (hkeys.subset hb)
      omega
    given := fun key hkey => by
      rw [herrands, Assoc.keys_append] at hkey
      rw [hnext]
      rcases List.mem_append.mp hkey with hold | hnew
      · exact Nat.lt_add_right _ (hw.given key hold)
      · exact (List.mem_range'_1.mp (hkeys.subset hnew)).2
    effects := by
      rw [hposts, List.filterMap_append, hw.effects, hcalls, effects_append, List.filterMap_map]
      exact congrArg _ (List.filterMap_some)
    -- the questions that are new are owed; none has been posted yet
    questions := by
      rw [hposts, List.filterMap_append, hnone, List.append_nil, herrands, owed_append, howed, hcalls,
        Endpoint.ticketed_append, questions_append, Nat.zero_add, ← hw.next, ← List.append_assoc]
      exact hw.questions.append_right _
    -- only effects are posted here, so a question in front of which they stand was posted before
    order := fun past t call later h => by
      rw [hposts] at h
      rcases cut_append h with ⟨mid, hmid⟩ | ⟨mid, _, hnew⟩
      · -- the call of an old question is an old one
        have hmem : .question t call ∈ w.posts := by
          rw [hmid]
          simp
        have hcall := question_of_posted hw hmem
        have hlt : t < (callsIn input).length := by
          by_contra hge
          rw [List.getElem?_eq_none (Nat.not_lt.mp hge)] at hcall
          cases hcall
        rw [hcalls, List.take_append_of_le_length hlt.le]
        exact hw.order past t call mid hmid
      · have hmem : Post.question t call ∈ (effects cs).map Post.effect := by
          rw [hnew]
          simp
        obtain ⟨_, _, hq⟩ := List.mem_map.mp hmem
        cases hq }

/-- The calls that arrive are those in what is heard, each with its ticket. -/
theorem arrived_of_reading (hw : Heeds w input) (hreading : w.endpoint.reading = true) {chunk : Octets}
    {d : Shape.Drained PacketDraft Packet} (hd : Packet.shape.drain (Packet.shape.drain none input).draft
      ((Packet.shape.drain none input).rest ++ chunk) = d) :
    w.endpoint.arrivedSince (w.endpoint.receive HostCall.known chunk)
      = Endpoint.ticketed w.endpoint.nextTicket (Endpoint.heard HostCall.known d.frames) := by
  have hheard := Endpoint.receive_eq HostCall.known hreading (hw.listening hreading).2 hd
  exact Endpoint.arrivedSince_ticketed hw.pending (by rw [hheard])

/-- **Calls that are heard are served.** -/
theorem heeds_receive (hw : Heeds w input) (hreading : w.endpoint.reading = true) (now : Moment)
    (chunk : Octets) : Heeds (w.receive now chunk) (input ++ chunk) := by
  obtain ⟨hfault, hcodec⟩ := hw.listening hreading
  obtain ⟨d, hd⟩ : ∃ d, Packet.shape.drain (Packet.shape.drain none input).draft
    ((Packet.shape.drain none input).rest ++ chunk) = d := ⟨_, rfl⟩
  have hmore := Packet.shape.drain_more hfault chunk
  rw [hd] at hmore
  have hheard := Endpoint.receive_eq HostCall.known hreading hcodec hd
  obtain ⟨_, _, _, hreceive, _⟩ := receive_eq w now chunk
  have hendpoint : (w.receive now chunk).endpoint = w.endpoint.receive HostCall.known chunk := by
    rw [hreceive]
  have hserves : Serves w (w.receive now chunk)
      (w.endpoint.arrivedSince (w.endpoint.receive HostCall.known chunk)) :=
    serves_append (serves_read w now _ chunk) (serves_all _ now _)
  -- the calls that arrive are those in the new octets, with the next tickets
  rw [arrived_of_reading hw hreading hd] at hserves
  refine heeds_heard hw hmore (callsIn_append hfault hd) ?_ ?_ ?_ ?_ hserves
  · rw [hendpoint, hheard]
    rfl
  · rw [hendpoint, hheard]
    rfl
  · rw [hendpoint, hheard]
  · rw [hendpoint, hheard]

/-- Nothing arrives when the endpoint does not read. -/
theorem receive_of_deaf (hreading : w.endpoint.reading = false) (chunk : Octets) :
    w.endpoint.receive HostCall.known chunk = w.endpoint := by
  rw [Endpoint.receive, hreading]
  rfl

theorem arrived_of_deaf (hw : Heeds w input) : w.endpoint.arrivedSince w.endpoint = [] :=
  Endpoint.arrivedSince_of_sublist hw.pending (List.Sublist.refl _)

/-- Octets that arrive at a worker that does not read any more are not heard. -/
theorem heeds_deaf (hw : Heeds w input) (hreading : w.endpoint.reading = false) (now : Moment)
    (chunk : Octets) : Heeds (w.receive now chunk) input := by
  have hreceive : w.receive now chunk = w.note now (.read chunk) := by
    unfold receive
    dsimp only
    rw [receive_of_deaf hreading, arrived_of_deaf hw]
    rfl
  rw [hreceive]
  exact heeds_quiet hw (quiet_noted (d := .read chunk) rfl rfl (Endpoint.unheard_refl _) rfl)

/-- The octets of the engine that are read with an event. -/
def hears (w : Worker) : Event → Octets
  | .start rest => if w.phase = .starting && w.endpoint.reading then rest else []
  | .receive chunk => if w.yields && w.endpoint.reading then chunk else []
  | _ => []

theorem heeds_arrived (hw : Heeds w input) (now : Moment) (chunk : Octets) :
    Heeds (w.receive now chunk) (input ++ if w.endpoint.reading then chunk else []) := by
  cases hreading : w.endpoint.reading with
  | true => exact heeds_receive hw hreading now chunk
  | false => simpa using heeds_deaf hw hreading now chunk

/-- **Whatever happens to a worker**, it keeps in mind what it has read. -/
theorem heeds_step (hw : Heeds w input) (now : Moment) (e : Event) :
    Heeds (w.step (now, e)) (input ++ w.hears e) := by
  have hquiet : ∀ {w'}, Quiet w w' → Heeds w' (input ++ []) := by
    intro w' h
    rw [List.append_nil]
    exact heeds_quiet hw h
  -- octets are heard at the start and when they arrive; an errand may post; all else is quiet
  cases e with
  | start rest =>
      simp only [step, start, hears]
      by_cases hphase : w.phase = .starting
      · have hrunning : Heeds { w with phase := .running } input := heeds_quiet hw { quiet_refl w with }
        simpa [hphase] using heeds_arrived hrunning now rest
      · simpa [hphase] using hw
  | receive chunk =>
      simp only [step, hears]
      by_cases hyields : w.yields = true
      · simpa [hyields] using heeds_arrived hw now chunk
      · simpa [hyields] using hw
  | failStart =>
      refine hquiet ?_
      simp only [step, failStart]
      split
      · exact { quiet_refl w with }
      · exact quiet_refl w
  | emit s =>
      refine hquiet ?_
      simp only [step, emit, signal]
      split
      · split
        · exact quiet_refl w
        · exact { quiet_refl w with }
      · exact quiet_refl w
  | quit => exact hquiet { quiet_refl w with }
  | giveUp => exact hquiet { quiet_refl w with }
  | turn => exact hquiet (quiet_turn w now)
  | endOfOutput =>
      refine hquiet ?_
      simp only [step]
      split
      · exact quiet_endpoint (Endpoint.unheard_endOfInput _)
      · exact quiet_refl w
  | errand ticket =>
      simp only [step, hears, List.append_nil]
      split
      · exact heeds_runErrand hw now ticket
      · exact hw
  | answer ticket result => exact hquiet (quiet_answer w now ticket result)
  | ring task =>
      refine hquiet ?_
      simp only [step]
      split
      · exact quiet_ring w now task
      · exact quiet_refl w
  | write => exact hquiet (quiet_endpoint (Endpoint.unheard_writeNext _))
  | failWriting => exact hquiet (quiet_endpoint (Endpoint.unheard_failWriting _))

end Worker

end GameHall
