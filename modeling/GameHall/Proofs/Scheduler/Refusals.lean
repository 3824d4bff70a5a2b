import GameHall.Proofs.Engine.Signatures
import GameHall.Proofs.Scheduler.Liaison

/-!
# Calls that are refused

A call that is refused for its parameters does nothing but to be answered: to serve calls is the same,
but for the errands, as to serve only those that are accepted (`serveAll_spared`). So over a whole run
what is posted, and what is done to timers, is what accepted calls have asked for, and for timers what
signals have (`Worker.Minds`). A question about a session or a room that is not there leaves the hall as
it is (`Hall.respond_of_lacks`).
-/

namespace GameHall

/-! ## What calls ask of the timers -/

/-- Something that is done to a timer. -/
inductive TimerChange where
  | arm (key : TimerKey) (wait : Nat)
  | disarm (key : TimerKey)
  deriving DecidableEq

/-- What a call does to a timer. -/
def HostCall.change? : HostCall → Option TimerChange
  | delay room wait => some (.arm (.delay, room) wait)
  | setRequestTimer room wait => some (.arm (.request, room) wait)
  | destroyRequestTimer room => some (.disarm (.request, room))
  | _ => none

/-- What a signal does to a timer. -/
def Signal.change? : Signal → Option TimerChange
  | arm kind room wait => some (.arm (kind, room) wait)
  | disarm kind room => some (.disarm (kind, room))
  | _ => none

namespace Deed

/-- What is done to a timer. -/
def change? : Deed → Option TimerChange
  | arm key wait => some (.arm key wait)
  | disarm key _ => some (.disarm key)
  | _ => none

/-- What the signal that is taken does to a timer. -/
def ordered? : Deed → Option TimerChange
  | run s => s.change?
  | _ => none

end Deed

namespace Packet.Call

/-- Whether a call is accepted. -/
def isAccepted (c : Packet.Call) : Bool := c.asked?.isSome

/-- What a call does to a timer if it is accepted. -/
def change? (c : Packet.Call) : Option TimerChange := c.asked?.bind HostCall.change?

/-- A call that is refused asks nothing. -/
theorem asked?_of_refused {c : Packet.Call} {words : String}
    (h : HostCall.ofCall? c = some (.error words)) : c.asked? = none := by
  rw [asked?, h]
  rfl

/-- Whether an errand tells the engine what it has to be told of a call that is refused. -/
def Owes (c : Packet.Call) (errand : Errand) : Prop :=
  ∀ words, HostCall.ofCall? c = some (.error words) ↔ errand = .tell (.error words)

end Packet.Call

/-- Those of the calls that are accepted. -/
def accepted (calls : List Packet.Call) : List Packet.Call := calls.filter Packet.Call.isAccepted

/-- What calls do to timers, in order. -/
def changes (calls : List Packet.Call) : List TimerChange := calls.filterMap Packet.Call.change?

theorem changes_append (cs cs' : List Packet.Call) : changes (cs ++ cs') = changes cs ++ changes cs' :=
  List.filterMap_append

theorem changes_singleton (c : Packet.Call) : changes [c] = c.change?.toList := by
  cases h : c.change? <;> simp [changes, h]

/-- What comes of calls comes of those that are accepted. -/
theorem filterMap_accepted {α : Type} {f : Packet.Call → Option α}
    (hf : ∀ c, c.asked? = none → f c = none) (calls : List Packet.Call) :
    (accepted calls).filterMap f = calls.filterMap f := by
  rw [accepted, List.filterMap_filter]
  refine List.filterMap_congr fun c _ => ?_
  cases hasked : c.asked? with
  | none => simp [Packet.Call.isAccepted, hasked, hf c hasked]
  | some call => simp [Packet.Call.isAccepted, hasked]

theorem effects_accepted (calls : List Packet.Call) : effects (accepted calls) = effects calls :=
  filterMap_accepted (fun c hc => by rw [Packet.Call.effect?, hc]; rfl) calls

theorem changes_accepted (calls : List Packet.Call) : changes (accepted calls) = changes calls :=
  filterMap_accepted (fun c hc => by rw [Packet.Call.change?, hc]; rfl) calls

/-- A call that has been given a ticket stands at its place. -/
theorem Endpoint.getElem?_of_mem_ticketed {n ticket : Nat} {cs : List Packet.Call} {c : Packet.Call}
    (h : (ticket, c) ∈ ticketed n cs) : n ≤ ticket ∧ cs[ticket - n]? = some c := by
  induction cs generalizing n with
  | nil => exact absurd h List.not_mem_nil
  | cons first cs ih =>
      rcases List.mem_cons.mp h with heq | hlater
      · obtain ⟨rfl, rfl⟩ := Prod.mk.inj heq
        simp
      · obtain ⟨hle, hget⟩ := ih hlater
        refine ⟨Nat.le_of_succ_le hle, ?_⟩
        rw [show ticket - n = (ticket - (n + 1)) + 1 by omega]
        exact hget

namespace Worker

variable {w w' w'' : Worker} {now : Moment} {input : Octets}

/-! ## Calls that are served -/

/-- A worker without its errands. -/
def forget (w : Worker) : Worker := { w with errands := [] }

/-- How a worker serves a call does not hang on the errands that it has. -/
theorem forget_serve (w : Worker) (now : Moment) (entry : Nat × Packet.Call) :
    (w.serve now entry).forget = (w.forget.serve now entry).forget := by
  unfold serve
  cases HostCall.ofCall? entry.2 with
  | none => rfl
  | some result =>
      cases result with
      | error words => rfl
      | ok call => cases call <;> rfl

theorem forget_serve_of_not_accepted {entry : Nat × Packet.Call} (h : entry.2.isAccepted = false) :
    (w.serve now entry).forget = w.forget := by
  unfold serve
  cases hcall : HostCall.ofCall? entry.2 with
  | none => rfl
  | some result =>
      cases result with
      | error words => rfl
      | ok call =>
          rw [Packet.Call.isAccepted, Packet.Call.asked?, hcall] at h
          cases h

/-- **To serve calls is to serve those that are accepted**, but for what the engine is told. -/
theorem serveAll_spared (now : Moment) (entries : Assoc Nat Packet.Call) (w : Worker) :
    (entries.foldl (serve now) w).forget
      = ((entries.filter fun entry => entry.2.isAccepted).foldl (serve now) w).forget := by
  -- serving does not read what is forgotten
  have hcongr : ∀ (entries : Assoc Nat Packet.Call) {w w' : Worker}, w.forget = w'.forget →
      (entries.foldl (serve now) w).forget = (entries.foldl (serve now) w').forget := by
    intro entries
    induction entries with
    | nil => exact fun h => h
    | cons entry entries ih =>
        intro w w' h
        refine ih ?_
        rw [forget_serve, h, ← forget_serve]
  induction entries generalizing w with
  | nil => rfl
  | cons entry entries ih =>
      cases haccepted : entry.2.isAccepted with
      | true =>
          rw [List.filter_cons, if_pos haccepted]
          exact ih (w.serve now entry)
      | false =>
          rw [List.filter_cons, if_neg (by simp [haccepted]), ← ih w]
          exact hcongr entries (forget_serve_of_not_accepted haccepted)

/-! ## What a worker does to timers -/

/-- What has been done to timers, in order. -/
def changed (w : Worker) : List TimerChange := w.deeds.filterMap fun d => d.2.change?

/-- What the signals do to timers that have been taken. -/
def ordered (w : Worker) : List TimerChange := w.deeds.filterMap fun d => d.2.ordered?

/-- What a worker does when it serves calls and takes signals: it does to timers what these ask for, in
their order, and it has an errand for a call. -/
structure Does (w w' : Worker) (entries : Assoc Nat Packet.Call) (orders : List TimerChange) :
    Prop where
  changed : ∃ more, w'.changed = w.changed ++ more
    ∧ Endpoint.Merged more (changes (entries.map Prod.snd)) orders []
  ordered : w'.ordered = w.ordered ++ orders
  errands : ∀ errand ∈ w'.errands, errand ∈ w.errands ∨ ∃ c, (errand.1, c) ∈ entries ∧ c.Owes errand.2

variable {entries entries' : Assoc Nat Packet.Call} {orders orders' : List TimerChange}

theorem does_of_deeds (entries : Assoc Nat Packet.Call) (added : Deeds)
    (hdeeds : w'.deeds = w.deeds ++ added)
    (hchanged : Endpoint.Merged (added.filterMap fun d => d.2.change?)
      (changes (entries.map Prod.snd)) (added.filterMap fun d => d.2.ordered?) [])
    (herrands : ∀ errand ∈ w'.errands, errand ∈ w.errands
      ∨ ∃ c, (errand.1, c) ∈ entries ∧ c.Owes errand.2) :
    Does w w' entries (added.filterMap fun d => d.2.ordered?) where
  changed := ⟨_, by rw [Worker.changed, Worker.changed, hdeeds, List.filterMap_append], hchanged⟩
  ordered := by rw [Worker.ordered, Worker.ordered, hdeeds, List.filterMap_append]
  errands := herrands

/-- What is done in two steps is done to timers in their order. -/
theorem does_trans (h : Does w w' entries orders) (h' : Does w' w'' entries' orders') :
    Does w w'' (entries ++ entries') (orders ++ orders') where
  changed := by
    obtain ⟨first, hfirst, hmerged⟩ := h.changed
    obtain ⟨second, hsecond, hmerged'⟩ := h'.changed
    refine ⟨first ++ second, by rw [hsecond, hfirst, List.append_assoc], ?_⟩
    rw [List.map_append, changes_append]
    exact hmerged.append hmerged'
  ordered := by rw [h'.ordered, h.ordered, List.append_assoc]
  errands errand hmem := by
    rcases h'.errands errand hmem with hold | ⟨c, hc, howes⟩
    · rcases h.errands errand hold with holder | ⟨c, hc, howes⟩
      · exact Or.inl holder
      · exact Or.inr ⟨c, List.mem_append_left _ hc, howes⟩
    · exact Or.inr ⟨c, List.mem_append_right _ hc, howes⟩

/-- Deeds are noted that have nothing to do with timers. -/
theorem does_noted (added : Deeds) (hdeeds : w'.deeds = w.deeds ++ added)
    (hplain : ∀ d ∈ added, d.2.change? = none ∧ d.2.ordered? = none)
    (herrands : ∀ errand ∈ w'.errands, errand ∈ w.errands) : Does w w' [] [] := by
  have hchange : added.filterMap (fun d => d.2.change?) = [] :=
    List.filterMap_eq_nil_iff.mpr fun d hd => (hplain d hd).1
  have horder : added.filterMap (fun d => d.2.ordered?) = [] :=
    List.filterMap_eq_nil_iff.mpr fun d hd => (hplain d hd).2
  have hdoes := does_of_deeds [] added hdeeds
    (by rw [hchange, horder]; exact Endpoint.merged_first []) fun errand h => Or.inl (herrands errand h)
  rw [horder] at hdoes
  exact hdoes

theorem does_nothing (hdeeds : w'.deeds = w.deeds)
    (herrands : ∀ errand ∈ w'.errands, errand ∈ w.errands) : Does w w' [] [] :=
  does_noted [] (by rw [hdeeds, List.append_nil]) (fun _ h => absurd h List.not_mem_nil) herrands

theorem does_note {d : Deed} (hdeeds : w'.deeds = w.deeds ++ [(now, d)]) (hchange : d.change? = none)
    (horder : d.ordered? = none) (herrands : w'.errands = w.errands) : Does w w' [] [] := by
  refine does_noted _ hdeeds (fun e he => ?_) fun errand h => by rwa [herrands] at h
  rw [List.mem_singleton.mp he]
  exact ⟨hchange, horder⟩

theorem does_call (w : Worker) (now : Moment) (cause : Cause) (c : EngineCall) :
    Does w (w.call now cause c) [] [] := by
  unfold call
  split
  · split
    · exact does_note (d := .call cause c true) rfl rfl rfl rfl
    · exact does_note (d := .call cause c false) rfl rfl rfl rfl
  · exact does_nothing rfl fun _ h => h

theorem does_ring (w : Worker) (now : Moment) (task : Nat) : Does w (w.ring now task) [] [] := by
  unfold ring
  split
  · rename_i t _
    split
    · have hring : Does w ({ w with timers := w.timers.wake task t.key }.note now (.ring t.key)) [] [] :=
        does_note (d := .ring t.key) rfl rfl rfl rfl
      exact does_trans hring (does_call _ now _ _)
    · exact does_nothing rfl fun _ h => h
  · exact does_nothing rfl fun _ h => h

theorem does_runErrand (w : Worker) (now : Moment) (ticket : Nat) :
    Does w (w.runErrand now ticket) [] [] := by
  have herased : ∀ errand ∈ Assoc.erase w.errands ticket, errand ∈ w.errands :=
    fun errand h => List.filter_sublist.subset h
  unfold runErrand
  dsimp only
  split
  · exact does_nothing rfl herased
  · rename_i c _
    exact does_noted [(now, .post (.question ticket c))] rfl
      (fun d hd => by rw [List.mem_singleton.mp hd]; exact ⟨rfl, rfl⟩) herased
  · exact does_nothing rfl fun _ h => h

/-- A signal does to a timer what it asks for. -/
theorem does_takeSignal (w : Worker) (now : Moment) (s : Signal) (rest : List Signal) :
    Does w (w.takeSignal now s rest) [] s.change?.toList := by
  have hcall : s.change? = none → ∀ c, Does w
      (({ w with signals := rest }.note now (.run s)).call now .signal c) [] [] := by
    intro hnone c
    have hrun : Does w ({ w with signals := rest }.note now (.run s)) [] [] :=
      does_note (d := .run s) rfl rfl hnone rfl
    exact does_trans hrun (does_call _ now _ c)
  cases s with
  | arm kind room wait =>
      exact does_of_deeds [] [(now, .run (.arm kind room wait)), (now, .arm (kind, room) wait)]
        (List.append_assoc ..) (Endpoint.merged_second _) fun _ h => Or.inl h
  | disarm kind room =>
      exact does_of_deeds [] [(now, .run (.disarm kind room)),
        (now, .disarm (kind, room) (w.timers.disarm (kind, room)).1)]
        (List.append_assoc ..) (Endpoint.merged_second _) fun _ h => Or.inl h
  | _ => exact hcall rfl _

theorem does_turn (w : Worker) (now : Moment) : ∃ orders, Does w (w.turn now) [] orders := by
  cases turn_cases w now with
  | nothing h | drain _ _ h | report _ _ h | stop _ h =>
      rw [h]
      exact ⟨[], does_nothing rfl fun _ h => h⟩
  | take s rest _ _ h =>
      rw [h]
      exact ⟨_, does_takeSignal w now s rest⟩
  | leave _ _ h =>
      rw [h]
      have hclear : Does w ({ w with timers := w.timers.clear }.note now .clear) [] [] :=
        does_note (d := .clear) rfl rfl rfl rfl
      exact ⟨[], { does_trans hclear (does_call _ now .farewell EngineCall.bye) with }⟩

/-- A call that is obeyed does to a timer what it asks for, and is not refused. -/
theorem obey_deeds (w : Worker) (now : Moment) (ticket : Nat) (call : HostCall) :
    ∃ (added : Deeds) (errand : Errand), (w.obey now ticket call).deeds = w.deeds ++ added
      ∧ added.filterMap (fun d => d.2.change?) = call.change?.toList
      ∧ added.filterMap (fun d => d.2.ordered?) = []
      ∧ (w.obey now ticket call).errands = w.errands ++ [(ticket, errand)]
      ∧ ∀ words, errand ≠ .tell (.error words) := by
  cases call with
  | waitForReply _ _ | isThinking _ | gameOver _ =>
      exact ⟨[], _, (List.append_nil _).symm, rfl, rfl, rfl, nofun⟩
  | log level text => exact ⟨[(now, .log level text)], _, rfl, rfl, rfl, rfl, nofun⟩
  | delay room wait => exact ⟨[(now, .arm (.delay, room) wait)], _, rfl, rfl, rfl, rfl, nofun⟩
  | setRequestTimer room wait =>
      exact ⟨[(now, .arm (.request, room) wait)], _, rfl, rfl, rfl, rfl, nofun⟩
  | destroyRequestTimer room =>
      exact ⟨[(now, .disarm (.request, room) (w.timers.disarm (.request, room)).1)], _, rfl, rfl, rfl,
        rfl, nofun⟩
  | _ => exact ⟨[(now, .post (.effect _))], _, rfl, rfl, rfl, rfl, nofun⟩

theorem does_serve (w : Worker) (now : Moment) (ticket : Nat) (c : Packet.Call) :
    Does w (w.serve now (ticket, c)) [(ticket, c)] [] := by
  -- in each case at most one errand is left, and it is what the call is owed
  have herrands : ∀ {w' : Worker} {errand : Errand}, w'.errands = w.errands ++ [(ticket, errand)] →
      c.Owes errand → ∀ entry ∈ w'.errands, entry ∈ w.errands
        ∨ ∃ c', (entry.1, c') ∈ [(ticket, c)] ∧ c'.Owes entry.2 := by
    intro w' errand heq howes entry hentry
    rw [heq] at hentry
    rcases List.mem_append.mp hentry with hold | hnew
    · exact Or.inl hold
    · rw [List.mem_singleton.mp hnew]
      exact Or.inr ⟨c, List.mem_singleton_self _, howes⟩
  have hchanges : changes ([(ticket, c)].map Prod.snd) = c.change?.toList := changes_singleton c
  cases hcall : HostCall.ofCall? c with
  | none =>
      have hserve : w.serve now (ticket, c) = w := by rw [serve, hcall]
      have hnone : c.change? = none := by
        rw [Packet.Call.change?, Packet.Call.asked?, hcall]
        rfl
      rw [hserve]
      refine does_of_deeds _ [] (List.append_nil _).symm ?_ fun _ h => Or.inl h
      rw [hchanges, hnone]
      exact Endpoint.merged_first []
  | some result =>
      cases result with
      | error words =>
          have hserve : w.serve now (ticket, c) = w.owe ticket (.tell (.error words)) := by
            rw [serve, hcall]
          have hnone : c.change? = none := by
            rw [Packet.Call.change?, Packet.Call.asked?_of_refused hcall]
            rfl
          rw [hserve]
          refine does_of_deeds _ [] (List.append_nil _).symm ?_ (herrands rfl fun words' => ?_)
          · rw [hchanges, hnone]
            exact Endpoint.merged_first []
          · rw [hcall]
            simp
      | ok call =>
          have hserve : w.serve now (ticket, c) = w.obey now ticket call := by rw [serve, hcall]
          have hchange : c.change? = call.change? := by
            rw [Packet.Call.change?, Packet.Call.asked?, hcall]
            rfl
          obtain ⟨added, errand, hdeeds, hadded, hordered, herrand, hno⟩ := obey_deeds w now ticket call
          have hdoes := does_of_deeds [(ticket, c)] added hdeeds
            (by rw [hadded, hordered, hchanges, hchange]; exact Endpoint.merged_first _)
            (herrands herrand fun words => by
              rw [hcall]
              exact iff_of_false (fun h => by cases h) (hno words))
          rw [hserve]
          rw [hordered] at hdoes
          exact hdoes

theorem does_serveAll (now : Moment) (entries : Assoc Nat Packet.Call) (w : Worker) :
    Does w (entries.foldl (serve now) w) entries [] := by
  induction entries generalizing w with
  | nil => exact does_nothing rfl fun _ h => h
  | cons entry entries ih => exact does_trans (does_serve w now entry.1 entry.2) (ih (w.serve now entry))

/-- **Octets that arrive are served**: the calls in them that the worker has not had. -/
theorem does_receive (hw : Heeds w input) (now : Moment) (chunk : Octets) : ∃ cs,
    callsIn (input ++ if w.endpoint.reading then chunk else []) = callsIn input ++ cs
      ∧ Does w (w.receive now chunk) (Endpoint.ticketed (callsIn input).length cs) [] := by
  have hdoes : Does w (w.receive now chunk)
      (w.endpoint.arrivedSince (w.endpoint.receive HostCall.known chunk)) [] := by
    have hread : Does w ({ w with endpoint := w.endpoint.receive HostCall.known chunk }.note now
        (.read chunk)) [] [] := does_note (d := .read chunk) rfl rfl rfl rfl
    exact does_trans hread (does_serveAll now _ _)
  cases hreading : w.endpoint.reading with
  | true =>
      obtain ⟨d, hd⟩ : ∃ d, Packet.shape.drain (Packet.shape.drain none input).draft
        ((Packet.shape.drain none input).rest ++ chunk) = d := ⟨_, rfl⟩
      rw [arrived_of_reading hw hreading hd, hw.next] at hdoes
      exact ⟨_, callsIn_append (hw.listening hreading).1 hd, hdoes⟩
  | false =>
      rw [receive_of_deaf hreading, arrived_of_deaf hw] at hdoes
      exact ⟨[], by simp, hdoes⟩

/-! ## What a worker has done -/

/-- What a worker that has read `input` has done to timers, and what it owes the engine. -/
structure Minds (w : Worker) (input : Octets) : Prop where
  /-- Timers are armed and cancelled just as calls have asked, and signals. -/
  changed : Endpoint.Merged w.changed (changes (callsIn input)) w.ordered []
  /-- An errand is that of a call, which is refused just as the errand says. -/
  errands : ∀ errand ∈ w.errands, ∃ c, (callsIn input)[errand.1]? = some c ∧ c.Owes errand.2

theorem minds_does {input' : Octets} (cs : List Packet.Call) (h : Minds w input)
    (hcalls : callsIn input' = callsIn input ++ cs)
    (hdoes : Does w w' (Endpoint.ticketed (callsIn input).length cs) orders) : Minds w' input' where
  changed := by
    obtain ⟨more, hmore, hmerged⟩ := hdoes.changed
    rw [Endpoint.values_ticketed] at hmerged
    rw [hmore, hdoes.ordered, hcalls, changes_append]
    exact h.changed.append hmerged
  errands errand hmem := by
    rw [hcalls]
    rcases hdoes.errands errand hmem with hold | ⟨c, hc, howes⟩
    · obtain ⟨c, hget, howes⟩ := h.errands errand hold
      refine ⟨c, ?_, howes⟩
      rw [List.getElem?_append_left (List.getElem?_eq_some_iff.mp hget).1]
      exact hget
    · obtain ⟨hle, hget⟩ := Endpoint.getElem?_of_mem_ticketed hc
      exact ⟨c, by rw [List.getElem?_append_right hle, hget], howes⟩

/-- **Whatever happens to a worker**, it does to timers what it has been asked for. -/
theorem minds_step (hw : Heeds w input) (h : Minds w input) (now : Moment) (e : Event) :
    Minds (w.step (now, e)) (input ++ w.hears e) := by
  have hcalm : ∀ {w'} {orders : List TimerChange}, Does w w' [] orders → Minds w' (input ++ []) :=
    fun hdoes => minds_does [] h (by rw [List.append_nil, List.append_nil]) hdoes
  have hstill : Minds w (input ++ []) := hcalm (does_nothing rfl fun _ h => h)
  -- calls are served when octets are heard; every other event serves none
  cases e with
  | start rest =>
      simp only [step, start, hears]
      by_cases hphase : w.phase = .starting
      · have hrunning : Heeds { w with phase := .running } input := heeds_quiet hw { quiet_refl w with }
        have hminds : Minds { w with phase := .running } input := { h with }
        obtain ⟨cs, hcalls, hdoes⟩ := does_receive hrunning now rest
        simpa [hphase] using minds_does cs hminds hcalls hdoes
      · simpa [hphase] using h
  | receive chunk =>
      simp only [step, hears]
      by_cases hyields : w.yields = true
      · obtain ⟨cs, hcalls, hdoes⟩ := does_receive hw now chunk
        simpa [hyields] using minds_does cs h hcalls hdoes
      · simpa [hyields] using h
  | turn =>
      obtain ⟨orders, hdoes⟩ := does_turn w now
      exact hcalm hdoes
  | errand ticket =>
      simp only [step]
      split
      · exact hcalm (does_runErrand w now ticket)
      · exact hstill
  | ring task =>
      simp only [step]
      split
      · exact hcalm (does_ring w now task)
      · exact hstill
  | failStart =>
      simp only [step, failStart]
      split
      · exact hcalm (does_nothing rfl fun _ h => h)
      · exact hstill
  | emit s =>
      simp only [step, emit, signal]
      split
      · split
        · exact hstill
        · exact hcalm (does_nothing rfl fun _ h => h)
      · exact hstill
  | endOfOutput =>
      simp only [step]
      split
      · exact hcalm (does_nothing rfl fun _ h => h)
      · exact hstill
  | answer ticket result =>
      simp only [step]
      split
      · exact hcalm (does_nothing rfl fun _ h => h)
      · exact hstill
  | quit | giveUp | write | failWriting => exact hcalm (does_nothing rfl fun _ h => h)

theorem minds_new : Minds new [] where
  changed := by
    have hcalls : callsIn [] = [] := List.length_eq_zero_iff.mp heeds_new.next.symm
    rw [hcalls]
    exact Endpoint.merged_first []
  errands _ h := absurd h List.not_mem_nil

end Worker

/-! ## What is not there -/

namespace Hall

variable {h : Hall}

/-- What a question is about is not there, which the answer says in words. -/
inductive Lacks (h : Hall) : HostCall → String → Prop where
  | session (connection : Int) (hnone : h.session? connection = none) :
      Lacks h (.isThinking connection) s!"{connectionText connection} is not signed in"
  | room (room : Int) (hnone : h.room? room = none) :
      Lacks h (.gameOver room) (Fault.refused s!"room {room} does not exist").message

/-- **A question about something that is not there changes nothing.** -/
theorem respond_of_lacks {call : HostCall} {words : String} (hlacks : h.Lacks call words) :
    h.respond call = (some (.result (.error words)), h) := by
  cases hlacks with
  | session connection hnone =>
      rw [respond, thinking, hnone]
      rfl
  | room room hnone =>
      have hfinish : h.finishRoom room = (.error (.refused s!"room {room} does not exist"), h) := by
        rw [finishRoom, existingRoom, hnone]
      have hstep : h.step (.finishRoom room) = h := by
        show (if h.crashed then h else (h.finishRoom room).2) = h
        rw [hfinish, ite_self]
      simp only [respond, hfinish, hstep]

/-- A question is refused just if what it is about is not there. -/
theorem respond_error_iff {call : HostCall} {words : String} :
    (h.respond call).1 = some (.result (.error words)) ↔ h.Lacks call words := by
  refine ⟨fun herror => ?_, fun hlacks => congrArg Prod.fst (respond_of_lacks hlacks)⟩
  cases call with
  | isThinking connection =>
      cases hs : h.session? connection with
      | some s =>
          rw [respond, thinking, hs] at herror
          cases herror
      | none =>
          rw [respond, thinking, hs] at herror
          cases herror
          exact .session connection hs
  | gameOver room =>
      cases hr : h.room? room with
      | some r =>
          simp only [respond, finishRoom, existingRoom, hr] at herror
          cases herror
      | none =>
          simp only [respond, finishRoom, existingRoom, hr] at herror
          cases herror
          exact .room room hr
  | waitForReply connection wait =>
      unfold respond at herror
      dsimp only at herror
      split at herror <;> cases herror
  | _ => cases herror

/-- The main loop answers a question with its ticket. -/
theorem serve_question (h : Hall) (ticket : Nat) (call : HostCall) : h.serve (.question ticket call)
    = ((h.respond call).1.map fun r => (ticket, r), (h.respond call).2) := rfl

theorem serve_question_error_iff {ticket : Nat} {call : HostCall} {words : String} :
    (h.serve (.question ticket call)).1 = some (ticket, .result (.error words))
      ↔ h.Lacks call words := by
  rw [serve_question, ← respond_error_iff, Option.map_eq_some_iff]
  simp

theorem serve_of_lacks {ticket : Nat} {call : HostCall} {words : String} (hlacks : h.Lacks call words) :
    (h.serve (.question ticket call)).2 = h := by
  rw [serve_question, respond_of_lacks hlacks]

end Hall

namespace Liaison

variable {start : Hall} {s : Liaison}

theorem minds_answer (hs : Keeps start s) (h : s.worker.Minds s.input) (ticket : Nat) (a : Answer) :
    (s.answer ticket a).worker.Minds (s.answer ticket a).input := by
  unfold answer
  split
  · have hminds := Worker.minds_step hs.heeds h s.hall.now (.answer ticket a.value)
    have hhears : s.worker.hears (.answer ticket a.value) = [] := rfl
    rwa [hhears, List.append_nil] at hminds
  · exact h

theorem minds_step (hs : Keeps start s) (h : s.worker.Minds s.input) (e : Event) :
    (s.step e).worker.Minds (s.step e).input := by
  -- the main loop gives no octets; it only answers, and an answer asks for no timer
  cases e with
  | worker e =>
      simp only [step]
      split
      · exact h
      · exact Worker.minds_step hs.heeds h e.1 e.2
  | take =>
      simp only [step]
      split
      · exact h
      · split <;> exact h
  | other e =>
      simp only [step]
      split <;> exact h
  | look ticket =>
      simp only [step, look]
      split
      · exact h
      · exact minds_answer hs h ticket _
      · split
        · exact h
        · exact minds_answer hs h ticket _
  | expire ticket limit =>
      simp only [step, expire]
      split
      · split
        · exact minds_answer hs h ticket _
        · exact h
      · exact h
      · exact minds_answer hs h ticket _

theorem minds_play (hs : Keeps start s) (h : s.worker.Minds s.input) (events : List Event) :
    (s.play events).worker.Minds (s.play events).input := by
  induction events generalizing s with
  | nil => exact h
  | cons e events ih => exact ih (keeps_step hs e) (minds_step hs h e)

/-- What becomes of calls that are refused when a worker and the main loop, that was `start`, have come
to `s`. -/
structure Refuses (start : Hall) (s : Liaison) : Prop where
  /-- Every method judges its parameters before anything is done. -/
  judged : ∀ m : HostCall.Method, m.Judges
  /-- To serve calls is the same, but for what the engine is told, as to serve those of them that are
  accepted. -/
  served : ∀ (now : Moment) (entries : Assoc Nat Packet.Call),
    (entries.foldl (Worker.serve now) s.worker).forget
      = ((entries.filter fun entry => entry.2.isAccepted).foldl (Worker.serve now) s.worker).forget
  /-- The worker owes an answer for a call, which is a refusal just if the call is refused. -/
  owed : ∀ errand ∈ s.worker.errands, ∃ c, s.calls[errand.1]? = some c ∧ c.Owes errand.2
  /-- When it is given, nothing else is done. -/
  answered : ∀ (now : Moment) (ticket : Nat) (words : String),
    Assoc.get? s.worker.errands ticket = some (.tell (.error words)) →
    s.worker.runErrand now ticket = { s.worker with
      errands := Assoc.erase s.worker.errands ticket
      endpoint := s.worker.endpoint.finish ticket (.error words) }
  /-- Nothing happens to the hall but jobs, and no frame is sent but with them. -/
  hall : s.hall = start.workAll s.jobs
  /-- The effects that have taken place, and then those on their way, are those of the calls that have
  been accepted. -/
  effects : s.jobs.filterMap Job.effect? ++ s.queue.filterMap Post.effect?
    = GameHall.effects (accepted s.calls)
  /-- A question that has been put or is on its way is that of a call that has been accepted. -/
  questions : ∀ ticket call, .post (.question ticket call) ∈ s.jobs ∨ .question ticket call ∈ s.queue →
    ∃ c, s.calls[ticket]? = some c ∧ HostCall.ofCall? c = some (.ok call)
  /-- Timers have been armed and cancelled just as calls that have been accepted and signals have
  asked. -/
  timers : Endpoint.Merged s.worker.changed (changes (accepted s.calls)) s.worker.ordered []
  /-- A question is refused by the main loop just if it is about a session or a room that is not there,
  and then the hall stays as it is. -/
  lacking : ∀ (h : Hall) (ticket : Nat) (call : HostCall) (words : String),
    ((h.serve (.question ticket call)).1 = some (ticket, .result (.error words)) ↔ h.Lacks call words)
      ∧ (h.Lacks call words → h.work (.post (.question ticket call)) = h)

/-- The call of a question has been accepted. -/
theorem accepted_of_question? {c : Packet.Call} {call : HostCall} (h : c.question? = some call) :
    HostCall.ofCall? c = some (.ok call) := by
  obtain ⟨hasked, _⟩ := Option.filter_eq_some_iff.mp h
  unfold Packet.Call.asked? at hasked
  obtain ⟨result, hcall, hok⟩ := Option.bind_eq_some_iff.mp hasked
  cases result with
  | error words => cases hok
  | ok call' =>
      cases hok
      exact hcall

/-- **A call that is refused has no effect**, whatever has happened to a worker and the main loop and
whatever the engine has said. -/
theorem refuses_play (start : Hall) (events : List Event) :
    Refuses start ((new start).play events) := by
  have hs := keeps_play (keeps_new start) events
  have hminds := minds_play (keeps_new start) Worker.minds_new events
  exact {
    judged := HostCall.judges
    served := fun now entries => Worker.serveAll_spared now entries _
    owed := hminds.errands
    answered := fun now ticket words hget => by
      unfold Worker.runErrand
      rw [hget]
      rfl
    hall := hs.hall
    -- what has been worked off and what waits is what the worker has posted
    effects := by
      rw [effects_accepted, ← effects_of_jobs, ← List.filterMap_append, hs.queue]
      exact hs.heeds.effects
    questions := fun ticket call hquestion => by
      have hposted : .question ticket call ∈ ((new start).play events).worker.posts := by
        rw [← hs.queue]
        rcases hquestion with hdone | hqueued
        · exact List.mem_append_left _ (List.mem_filterMap.mpr ⟨_, hdone, rfl⟩)
        · exact List.mem_append_right _ hqueued
      obtain ⟨c, hc, hcall⟩ := Option.bind_eq_some_iff.mp
        (Worker.question_of_posted hs.heeds hposted)
      exact ⟨c, hc, accepted_of_question? hcall⟩
    timers := by
      rw [changes_accepted]
      exact hminds.changed
    lacking := fun h ticket call words =>
      ⟨Hall.serve_question_error_iff, Hall.serve_of_lacks⟩ }

end Liaison

end GameHall
