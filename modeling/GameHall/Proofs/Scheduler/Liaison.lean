import GameHall.Proofs.Hall.Jobs
import GameHall.Proofs.Scheduler.Posts

/-!
# A worker and the main loop

A worker and the main loop run on threads of their own. What the worker posts goes through a queue, and
the main loop takes the posts one by one, with other things that it does in between. The task of a
question waits for the response. If that is a router, the task looks at it now and then until a reply
has come or its time is over.

However the threads take turns, the effects that an engine calls for take place once each and in the
order of the calls, and a question is put after the effects of all calls before it
(`Liaison.orderly_play`). So an engine that waits for a reply right after it has asked for it never gets
a reply to an earlier request.
-/

namespace GameHall

namespace Job

/-- The effect that takes place with a job. -/
def effect? (j : Job) : Option HostCall := j.post?.bind Post.effect?

/-- The question that is put with a job, with the ticket of its call. -/
def question? (j : Job) : Option (Nat × HostCall) := j.post?.bind Post.question?

end Job

/-- What the task of a question answers. -/
inductive Answer where
  | result (result : Except String Packet.Value)
  /-- The end of a wait for the reply of a player. -/
  | outcome (outcome : Router.Outcome)
  deriving DecidableEq

/-- An answer as the engine gets it. -/
def Answer.value : Answer → Except String Packet.Value
  | result r => r
  | outcome o => .ok (.bytes o.octets)

/-- Whether an event is the answer to a question. -/
def Worker.Event.isAnswer : Worker.Event → Bool
  | answer _ _ => true
  | _ => false

/-- A worker and the main loop, and what has passed between them. -/
structure Liaison where
  worker : Worker
  hall : Hall
  /-- What the worker has read of its engine. -/
  input : Octets
  /-- The posts on their way to the main loop, the first to come first. -/
  queue : List Post
  /-- What the main loop has done, in order. -/
  jobs : List Job
  /-- The responses of the main loop, by ticket. -/
  responses : Assoc Nat Response
  /-- What the tasks of questions have answered, by ticket. -/
  answers : Assoc Nat Answer

namespace Liaison

/-- A worker whose engine has not greeted. -/
def new (hall : Hall) : Liaison := ⟨Worker.new, hall, [], [], [], [], []⟩

inductive Event where
  /-- Something happens to the worker. Answers to questions are given by their tasks. -/
  | worker (e : Moment × Worker.Event)
  /-- The main loop takes the next post. -/
  | take
  /-- The main loop does something else. -/
  | other (e : Hall.Event)
  /-- The task of a question looks for the response, and at the router if it waits for a reply. -/
  | look (ticket : Nat)
  /-- The time of the task of a question is over. -/
  | expire (ticket : Nat) (limit : Duration)

/-- The task of a question answers, unless it has before. -/
def answer (s : Liaison) (ticket : Nat) (a : Answer) : Liaison :=
  if s.worker.yields && !Assoc.has s.answers ticket then
    { s with
      worker := s.worker.step (s.hall.now, .answer ticket a.value)
      answers := s.answers ++ [(ticket, a)] }
  else s

/-- The task of a question looks for the response. -/
def look (s : Liaison) (ticket : Nat) : Liaison :=
  match Assoc.get? s.responses ticket with
  | none => s
  | some (.result result) => s.answer ticket (.result result)
  | some (.router connection _) =>
    match s.hall.reply? connection with
    | none => s
    | some outcome => s.answer ticket (.outcome outcome)

/-- The time of the task of a question is over: no reply has come, or not even a response. -/
def expire (s : Liaison) (ticket : Nat) (limit : Duration) : Liaison :=
  match Assoc.get? s.responses ticket with
  | none =>
    if Assoc.has (s.worker.posts.filterMap Post.question?) ticket then
      s.answer ticket (.result (.error (Fault.timeout limit).message))
    else s
  | some (.result _) => s
  | some (.router _ _) => s.answer ticket (.outcome .notReady)

/-- The main loop takes a post. -/
def serve (s : Liaison) (p : Post) (rest : List Post) : Liaison :=
  match s.hall.serve p with
  | (response, hall) =>
    { s with
      hall := hall
      queue := rest
      jobs := s.jobs ++ [.post p]
      responses := s.responses ++ response.toList }

/-- What becomes of a worker and the main loop with an event. A main loop that has died does nothing. -/
def step (s : Liaison) : Event → Liaison
  | .worker e =>
    if e.2.isAnswer then s
    else
      { s with
        worker := s.worker.step e
        input := s.input ++ s.worker.hears e.2
        queue := s.queue ++ (s.worker.since (s.worker.step e)).filterMap Deed.post? }
  | .take =>
    match s.queue with
    | [] => s
    | p :: rest => if s.hall.crashed then s else s.serve p rest
  | .other e =>
    if s.hall.crashed then s else { s with hall := s.hall.step e, jobs := s.jobs ++ [.other e] }
  | .look ticket => s.look ticket
  | .expire ticket limit => s.expire ticket limit

/-- What becomes of them with events in turn. -/
def play (s : Liaison) (events : List Event) : Liaison := events.foldl step s

variable {start : Hall} {s : Liaison}

/-! ## What passes between them -/

/-- What a worker and the main loop are after whatever has happened since the hall was `start`. -/
structure Keeps (start : Hall) (s : Liaison) : Prop where
  hall : s.hall = start.workAll s.jobs
  alive : ∀ past j later, s.jobs = past ++ j :: later → (start.workAll past).crashed = false
  heeds : s.worker.Heeds s.input
  /-- What has been posted has been taken or is on its way. -/
  queue : s.jobs.filterMap Job.post? ++ s.queue = s.worker.posts
  /-- A task waits for a reply because it has put the question. -/
  responses : ∀ ticket c wait, (ticket, .router c wait) ∈ s.responses →
    .post (.question ticket (.waitForReply c wait)) ∈ s.jobs
  /-- A task has answered with what it has seen of the router since. -/
  answers : ∀ ticket p, (ticket, .outcome (.ready p)) ∈ s.answers → ∃ seen later c wait,
    s.jobs = seen ++ later ∧ .post (.question ticket (.waitForReply c wait)) ∈ seen
      ∧ (start.workAll seen).reply? c = some (.ready p)

theorem keeps_new (start : Hall) : Keeps start (new start) where
  hall := rfl
  alive past j later h := absurd h.symm (by simp [new])
  heeds := Worker.heeds_new
  queue := rfl
  responses _ _ _ h := absurd h List.not_mem_nil
  answers _ _ h := absurd h List.not_mem_nil

/-- The task of a question answers nothing but what it has seen. -/
theorem keeps_answer (hs : Keeps start s) (ticket : Nat) {a : Answer}
    (ha : ∀ p, a = .outcome (.ready p) → ∃ c wait,
      .post (.question ticket (.waitForReply c wait)) ∈ s.jobs ∧ s.hall.reply? c = some (.ready p)) :
    Keeps start (s.answer ticket a) := by
  unfold answer
  split
  · have hquiet := Worker.quiet_answer s.worker s.hall.now ticket a.value
    exact {
      hall := hs.hall
      alive := hs.alive
      heeds := Worker.heeds_quiet hs.heeds hquiet
      queue := hs.queue.trans hquiet.posts.symm
      responses := hs.responses
      answers := fun t p hp => by
        rcases List.mem_append.mp hp with hold | hnew
        · exact hs.answers t p hold
        · obtain ⟨rfl, rfl⟩ := Prod.mk.inj (List.mem_singleton.mp hnew)
          obtain ⟨c, wait, hquestion, hreply⟩ := ha p rfl
          refine ⟨s.jobs, [], c, wait, (List.append_nil _).symm, hquestion, ?_⟩
          rw [← hs.hall]
          exact hreply }
  · exact hs

theorem keeps_look (hs : Keeps start s) (ticket : Nat) : Keeps start (s.look ticket) := by
  unfold look
  split
  · exact hs
  · exact keeps_answer hs ticket fun _ h => by cases h
  · rename_i c wait hresponse
    split
    · exact hs
    · rename_i outcome hreply
      refine keeps_answer hs ticket fun p hp => ?_
      cases hp
      exact ⟨c, wait, hs.responses ticket c wait (Assoc.mem_of_get? hresponse), hreply⟩

theorem keeps_expire (hs : Keeps start s) (ticket : Nat) (limit : Duration) :
    Keeps start (s.expire ticket limit) := by
  unfold expire
  split
  · split
    · exact keeps_answer hs ticket fun _ h => by cases h
    · exact hs
  · exact hs
  · exact keeps_answer hs ticket fun _ h => by cases h

/-- One job more. -/
theorem alive_concat {jobs : List Job} {j : Job}
    (halive : ∀ past j later, jobs = past ++ j :: later → (start.workAll past).crashed = false)
    (hup : (start.workAll jobs).crashed = false) (past : List Job) (j' : Job) (later : List Job)
    (h : jobs ++ [j] = past ++ j' :: later) : (start.workAll past).crashed = false := by
  rcases eq_or_of_snoc h with ⟨rfl, _, _⟩ | ⟨later', _, hold⟩
  · exact hup
  · exact halive past j' later' hold

/-- A task gets a router only in response to a question for a reply. -/
theorem question_of_router {h : Hall} {p : Post} {ticket : Nat} {c : Int} {wait : Nat}
    (hp : (h.serve p).1 = some (ticket, .router c wait)) :
    p = .question ticket (.waitForReply c wait) := by
  cases p with
  | effect call => cases hp
  | question t call =>
      cases call with
      | waitForReply d w =>
          simp only [Hall.serve, Hall.respond] at hp
          split at hp
          · cases hp
            rfl
          · cases hp
      | _ => cases hp

theorem keeps_serve (hs : Keeps start s) {p : Post} {rest : List Post} (hqueue : s.queue = p :: rest)
    (hup : s.hall.crashed = false) : Keeps start (s.serve p rest) where
  hall := by
    show (s.hall.serve p).2 = start.workAll (s.jobs ++ [.post p])
    rw [Hall.workAll_concat, ← hs.hall]
    rfl
  alive := alive_concat hs.alive (by rw [← hs.hall]; exact hup)
  heeds := hs.heeds
  queue := by
    have hposts := hs.queue
    rw [hqueue] at hposts
    show (s.jobs ++ [Job.post p]).filterMap Job.post? ++ rest = s.worker.posts
    rw [List.filterMap_append, List.append_assoc]
    exact hposts
  responses ticket c wait h := by
    have hmem : (ticket, Response.router c wait) ∈ s.responses ++ (s.hall.serve p).1.toList := h
    show _ ∈ s.jobs ++ [Job.post p]
    rcases List.mem_append.mp hmem with hold | hnew
    · exact List.mem_append_left _ (hs.responses ticket c wait hold)
    · rw [question_of_router (Option.mem_toList.mp hnew)]
      simp
  answers ticket p' h := by
    obtain ⟨seen, later, c, wait, hjobs, hseen⟩ := hs.answers ticket p' h
    refine ⟨seen, later ++ [.post p], c, wait, ?_, hseen⟩
    show s.jobs ++ [Job.post p] = _
    rw [hjobs, List.append_assoc]

theorem keeps_other (hs : Keeps start s) (hup : s.hall.crashed = false) (e : Hall.Event) :
    Keeps start { s with hall := s.hall.step e, jobs := s.jobs ++ [.other e] } where
  hall := by
    rw [Hall.workAll_concat, ← hs.hall]
    rfl
  alive := alive_concat hs.alive (by rw [← hs.hall]; exact hup)
  heeds := hs.heeds
  queue := by
    rw [List.filterMap_append]
    exact (congrArg (· ++ s.queue) (List.append_nil _)).trans hs.queue
  responses ticket c wait h := List.mem_append_left _ (hs.responses ticket c wait h)
  answers ticket p h := by
    obtain ⟨seen, later, c, wait, hjobs, hseen⟩ := hs.answers ticket p h
    exact ⟨seen, later ++ [.other e], c, wait, by rw [hjobs, List.append_assoc], hseen⟩

/-- **Whatever happens**, what passes between them is kept. -/
theorem keeps_step (hs : Keeps start s) (e : Event) : Keeps start (s.step e) := by
  -- the worker posts, and the main loop works off what is posted
  cases e with
  | worker e =>
      simp only [step]
      split
      · exact hs
      · exact { hs with
          heeds := Worker.heeds_step hs.heeds e.1 e.2
          queue := by
            rw [Worker.posts_since (Worker.prefix_step s.worker e.1 e.2), ← hs.queue, List.append_assoc] }
  | take =>
      simp only [step]
      split
      · exact hs
      · rename_i p rest hqueue
        split
        · exact hs
        · rename_i hup
          exact keeps_serve hs hqueue (Bool.eq_false_iff.mpr hup)
  | other e =>
      simp only [step]
      split
      · exact hs
      · rename_i hup
        exact keeps_other hs (Bool.eq_false_iff.mpr hup) e
  | look ticket => exact keeps_look hs ticket
  | expire ticket limit => exact keeps_expire hs ticket limit

theorem keeps_play (hs : Keeps start s) (events : List Event) : Keeps start (s.play events) := by
  induction events generalizing s with
  | nil => exact hs
  | cons e events ih => exact ih (keeps_step hs e)

/-! ## The order of effects -/

/-- The calls of the engine that the worker has read. -/
def calls (s : Liaison) : List Packet.Call := Worker.callsIn s.input

/-- What an engine can rely on, once the main loop has done the jobs of `s` since it was `start`. -/
structure Orderly (start : Hall) (s : Liaison) : Prop where
  /-- The hall is what the jobs have made of it. -/
  hall : s.hall = start.workAll s.jobs
  /-- The effects that have taken place, and then those on their way, are those of the calls, in
  order. -/
  effects : s.jobs.filterMap Job.effect? ++ s.queue.filterMap Post.effect? = effects s.calls
  /-- None of them is left when the main loop has taken what is on its way, unless it dies. -/
  drained : (s.play (List.replicate s.queue.length .take)).hall.crashed = false →
    (s.play (List.replicate s.queue.length .take)).jobs.filterMap Job.effect? = GameHall.effects s.calls
  /-- A question has been put for the call with its ticket, after the effects of all calls before. -/
  questions : ∀ past ticket call later, s.jobs = past ++ .post (.question ticket call) :: later →
    (s.calls[ticket]?).bind Packet.Call.question? = some call
      ∧ GameHall.effects (s.calls.take ticket) <+: past.filterMap Job.effect?
  /-- Every question has been put once, is on its way or is still to be posted. -/
  once : (s.jobs.filterMap Job.question? ++ s.queue.filterMap Post.question?
    ++ Worker.owed s.worker.errands).Perm (GameHall.questions (Endpoint.ticketed 0 s.calls))
  /-- A call that waits for a reply, and comes after a call that makes a request of the same player,
  is answered with a reply to this request or to a later one. -/
  replies : ∀ i ticket c command payload timeout timestamp wait p, i < ticket →
    (s.calls[i]?).bind Packet.Call.effect? = some (.request c command payload timeout timestamp) →
    (s.calls[ticket]?).bind Packet.Call.question? = some (.waitForReply c wait) →
    (ticket, .outcome (.ready p)) ∈ s.answers → ∃ past later,
      s.jobs = past ++ .post (.effect (.request c command payload timeout timestamp)) :: later
        ∧ past.filterMap Job.effect? = GameHall.effects (s.calls.take i)
        ∧ (start.workAll past).Replied c
          (.post (.effect (.request c command payload timeout timestamp)) :: later) p
  /-- A reply to a request is none to an earlier one: their numbers differ, unless ten million requests
  lie between them or another player comes by the same number. -/
  numbers : ∀ past request between later c r r',
    s.jobs = past ++ request :: (between ++ later) → request.asks c = true →
    (∀ front j rest, request :: between = front ++ j :: rest →
      (start.workAll (past ++ front)).registry.pendingRouter? c = none) →
    between.countP (Job.asks c) < 9999999 → (start.workAll past).router? c = some r →
    (start.workAll (past ++ request :: between)).router? c = some r' → r'.nextId ≠ r.nextId

theorem traced_of_alive (hstart : start.Traced []) {jobs : List Job}
    (halive : ∀ past j later, jobs = past ++ j :: later → (start.workAll past).crashed = false) :
    start.Traced jobs := by
  induction jobs using List.reverseRecOn with
  | nil => exact hstart
  | append_singleton jobs j ih =>
      have hjobs := ih fun past j' later h => halive past j' (later ++ [j]) (by rw [h]; simp)
      exact Hall.traced_step hjobs (halive jobs j [] rfl) j

theorem effects_of_jobs (jobs : List Job) :
    (jobs.filterMap Job.post?).filterMap Post.effect? = jobs.filterMap Job.effect? :=
  List.filterMap_filterMap

theorem questions_of_jobs (jobs : List Job) :
    (jobs.filterMap Job.post?).filterMap Post.question? = jobs.filterMap Job.question? :=
  List.filterMap_filterMap

/-- What is seen of a router that ends a wait with a reply. -/
theorem reply_of_ready {h : Hall} {c : Int} {p : Octets} (hp : h.reply? c = some (.ready p)) :
    ∃ r, h.router? c = some r ∧ r.reply = some p := by
  unfold Hall.reply? at hp
  split at hp
  · rename_i s hs
    refine ⟨s.link.router, congrArg (Option.map fun s : Session => s.link.router) hs, ?_⟩
    unfold Router.outcome? at hp
    split at hp
    · cases hp
    · obtain ⟨p', hp', heq⟩ := Option.map_eq_some_iff.mp hp
      cases heq
      exact hp'
  · cases hp

/-- The effect of a call among others has taken place with some job. -/
theorem exists_job_of_effect {jobs : List Job} {front later : List HostCall} {call : HostCall}
    (h : jobs.filterMap Job.effect? = front ++ call :: later) : ∃ past rest,
    jobs = past ++ .post (.effect call) :: rest ∧ past.filterMap Job.effect? = front := by
  obtain ⟨past, jobs', rfl, hpast, hjobs'⟩ := List.filterMap_eq_append_iff.mp h
  obtain ⟨skipped, j, rest, rfl, hskipped, hj, _⟩ := List.filterMap_eq_cons_iff.mp hjobs'
  have hpost : j = .post (.effect call) := by
    cases j with
    | other e => cases hj
    | post p =>
        cases p with
        | question ticket call => cases hj
        | effect call' =>
            cases hj
            rfl
  refine ⟨past ++ skipped, rest, by rw [hpost, List.append_assoc], ?_⟩
  rw [List.filterMap_append, hpast, List.filterMap_eq_nil_iff.mpr hskipped, List.append_nil]

/-- The effects of the calls before a later call begin with those before an earlier one, and the effect
of the earlier one. -/
theorem effects_take {cs : List Packet.Call} {i n : Nat} (hlt : i < n) {call : HostCall}
    (hcall : (cs[i]?).bind Packet.Call.effect? = some call) :
    ∃ later, effects (cs.take n) = effects (cs.take i) ++ call :: later := by
  obtain ⟨c, hc, hcall⟩ := Option.bind_eq_some_iff.mp hcall
  obtain ⟨hi, rfl⟩ := List.getElem?_eq_some_iff.mp hc
  have htake : cs.take n = cs.take i ++ cs[i] :: (cs.drop (i + 1)).take (n - (i + 1)) := by
    conv_lhs => rw [show n = (i + 1) + (n - (i + 1)) by omega]
    rw [List.take_add, List.take_succ_eq_append_getElem hi, List.append_assoc]
    rfl
  refine ⟨effects ((cs.drop (i + 1)).take (n - (i + 1))), ?_⟩
  rw [htake, effects_append]
  exact congrArg _ (List.filterMap_cons_some hcall)

theorem question_of_job (hs : Keeps start s) {past later : List Job} {ticket : Nat} {call : HostCall}
    (hjobs : s.jobs = past ++ .post (.question ticket call) :: later) :
    (s.calls[ticket]?).bind Packet.Call.question? = some call
      ∧ effects (s.calls.take ticket) <+: past.filterMap Job.effect? := by
  have hposts : s.worker.posts = past.filterMap Job.post?
      ++ .question ticket call :: (later.filterMap Job.post? ++ s.queue) := by
    rw [← hs.queue, hjobs, List.filterMap_append, List.append_assoc]
    rfl
  refine ⟨Worker.question_of_posted hs.heeds (by rw [hposts]; simp), ?_⟩
  rw [← effects_of_jobs]
  exact hs.heeds.order _ ticket call _ hposts

/-- A reply that ends a wait has come after the request before the wait. -/
theorem replied_of_ready (hstart : start.Traced []) (hs : Keeps start s) {i ticket : Nat} {c : Int}
    {command payload : Octets} {timeout : Int32} {timestamp : Option Int64} {wait : Nat} {p : Octets}
    (hlt : i < ticket) (hrequest : (s.calls[i]?).bind Packet.Call.effect?
      = some (.request c command payload timeout timestamp))
    (hwait : (s.calls[ticket]?).bind Packet.Call.question? = some (.waitForReply c wait))
    (hp : (ticket, .outcome (.ready p)) ∈ s.answers) : ∃ past later,
      s.jobs = past ++ .post (.effect (.request c command payload timeout timestamp)) :: later
        ∧ past.filterMap Job.effect? = effects (s.calls.take i)
        ∧ (start.workAll past).Replied c
          (.post (.effect (.request c command payload timeout timestamp)) :: later) p := by
  obtain ⟨seen, unseen, c', wait', hjobs, hquestion, hready⟩ := hs.answers ticket p hp
  obtain ⟨asked, since, rfl⟩ := List.append_of_mem hquestion
  -- the question of the task is that of the call, and the request has taken place before it
  obtain ⟨hcall, heffects⟩ := question_of_job hs (by rw [hjobs, List.append_assoc, List.cons_append])
  cases hwait.symm.trans hcall
  obtain ⟨more, hmore⟩ := heffects
  obtain ⟨others, hothers⟩ := effects_take hlt hrequest
  rw [hothers, List.append_assoc, List.cons_append] at hmore
  obtain ⟨past, rest, rfl, hpast⟩ := exists_job_of_effect hmore.symm
  -- what the router keeps when the task looks at it is a reply to the latest request
  obtain ⟨r, hr, hreply⟩ := reply_of_ready hready
  have halive : ∀ front j later, past ++ .post (.effect (.request c command payload timeout timestamp))
      :: rest ++ .post (.question ticket (.waitForReply c wait)) :: since = front ++ j :: later →
      (start.workAll front).crashed = false := fun front j later h =>
    hs.alive front j (later ++ unseen) (by rw [hjobs, h]; simp)
  have hholds := (traced_of_alive hstart halive).reply c r p hr hreply
  rw [List.append_assoc, List.cons_append] at hholds
  have hreplied := Hall.replied_append (Hall.replied_since (by simp [Job.asks, Job.event?]) hholds) unseen
  refine ⟨past, _, ?_, hpast, hreplied⟩
  rw [hjobs]
  simp

theorem play_of_crashed (hcrashed : s.hall.crashed = true) (n : Nat) :
    s.play (List.replicate n .take) = s := by
  induction n with
  | zero => rfl
  | succ n ih =>
      have hstep : s.step .take = s := by
        simp only [step]
        split
        · rfl
        · exact if_pos hcrashed
      show (s.step .take).play (List.replicate n .take) = s
      rw [hstep, ih]

/-- The main loop takes what is on its way. -/
theorem drained_play (hup : (s.play (List.replicate s.queue.length .take)).hall.crashed = false) :
    (s.play (List.replicate s.queue.length .take)).queue = []
      ∧ (s.play (List.replicate s.queue.length .take)).input = s.input := by
  obtain ⟨queue, hqueue⟩ : ∃ queue, s.queue = queue := ⟨_, rfl⟩
  rw [hqueue] at hup ⊢
  -- on the queue; a main loop that is down at the start would be down at the end
  induction queue generalizing s with
  | nil => exact ⟨hqueue, rfl⟩
  | cons p rest ih =>
      have halive : s.hall.crashed = false := by
        by_contra hcrashed
        rw [Bool.not_eq_false] at hcrashed
        rw [play_of_crashed hcrashed, hcrashed] at hup
        cases hup
      have hstep : s.step .take = s.serve p rest := by
        simp only [step, hqueue]
        exact if_neg (by simp [halive])
      have hplay : s.play (List.replicate (p :: rest).length .take)
          = (s.serve p rest).play (List.replicate rest.length .take) := by
        rw [← hstep]
        rfl
      rw [hplay] at hup ⊢
      exact ih hup rfl

theorem orderly_of_keeps (hstart : start.Traced []) (hs : Keeps start s) : Orderly start s where
  hall := hs.hall
  effects := by
    rw [← effects_of_jobs, ← List.filterMap_append, hs.queue]
    exact hs.heeds.effects
  -- when all that waits has been taken, what is posted is what has been worked off
  drained hup := by
    obtain ⟨hqueue, hinput⟩ := drained_play hup
    have hlater := keeps_play hs (List.replicate s.queue.length .take)
    have hposts := hlater.queue
    rw [hqueue, List.append_nil] at hposts
    rw [← effects_of_jobs, hposts, hlater.heeds.effects, hinput]
    rfl
  questions _ _ _ _ hjobs := question_of_job hs hjobs
  once := by
    rw [← questions_of_jobs, ← List.filterMap_append, hs.queue]
    exact hs.heeds.questions
  replies _ _ _ _ _ _ _ _ _ hlt hrequest hwait hp := replied_of_ready hstart hs hlt hrequest hwait hp
  numbers past request between later c r r' hjobs hrequest halone hfew hr hr' := by
    have htraced : start.Traced past := traced_of_alive hstart fun front j rest h =>
      hs.alive front j (rest ++ request :: (between ++ later)) (by rw [hjobs, h]; simp)
    have hundisturbed : (start.workAll past).Undisturbed c (request :: between) := {
      alive := fun front j rest h => by
        rw [← Hall.workAll_append]
        exact hs.alive (past ++ front) j (rest ++ later) (by rw [hjobs, ← List.cons_append, h]; simp)
      alone := fun front j rest h => by
        rw [← Hall.workAll_append]
        exact halone front j rest h }
    rw [Hall.workAll_append] at hr'
    exact Hall.number_ne htraced hrequest hundisturbed hfew hr hr'

/-- **Effects reach the main loop in the order of the calls**, and questions after the effects before
them, whatever happens to a hall and to a worker and however they take turns. -/
theorem orderly_play (authenticator : Authenticator) (settings : Settings) (fingerprint : String)
    (epoch : Int) (events : List Event) :
    Orderly (Hall.new authenticator settings fingerprint epoch)
      ((new (Hall.new authenticator settings fingerprint epoch)).play events) :=
  orderly_of_keeps (Hall.traced_start authenticator settings fingerprint epoch)
    (keeps_play (keeps_new _) events)

/-- A player is asked twice, and the engine waits for the second reply before the main loop knows of
the second question. -/
def askedTwice : List Event :=
  [.other (.accept (.v4 10 0 0 1)), .other (.record 1 (Hall.helloRecord "amy")),
    .other (.effect (.request 1 [] [] 1000 none)), .other (.record 1 ⟨1, Mask.reply, [], [7], none⟩),
    .worker (0, .start (((Packet.writeAll [
      .call ⟨0, "Player_doRequest", [.int 1, .bytes [], .bytes [], .int 1000]⟩,
      .call ⟨1, "Player_waitForReply", [.int 1, .int 1000]⟩]).toOption).getD [])),
    .worker (0, .errand 1), .take, .take, .look 1,
    .other (.record 1 ⟨2, Mask.reply, [], [8], none⟩), .look 1]

example : ((new (Hall.new (.openToAll []) .initial "rules" 0)).play askedTwice).answers
    = [(1, .outcome (.ready [8]))] := by decide +kernel

end Liaison

end GameHall
