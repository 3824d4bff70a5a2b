import GameHall.Hall.Service
import GameHall.Proofs.Hall.Routers
import GameHall.Proofs.Lists

/-!
# Jobs of the main loop

The main loop takes the posts of a worker and does other things in between, one job after the other. So
a router is used by jobs, and what it has kept can be told from the jobs: the payload of a reply to the
latest request of the player, that came after the request and has its number (`Traced`, `traced_step`).
-/

namespace GameHall

/-- Something that the main loop does. -/
inductive Job where
  /-- Takes a post of the worker. -/
  | post (p : Post)
  | other (e : Hall.Event)

namespace Job

/-- The post that is taken. -/
def post? : Job → Option Post
  | post p => some p
  | other _ => none

/-- What happens to the hall with a job. Of the questions of an engine only the end of a game is
something that happens. -/
def event? : Job → Option Hall.Event
  | post (.effect call) => some (.effect call)
  | post (.question _ (.gameOver room)) => some (.finishRoom room)
  | post (.question _ _) => none
  | other e => some e

/-- Whether a job makes a request of a player. -/
def asks (c : Int) (j : Job) : Bool :=
  match j.event? with
  | some (.effect (.request d _ _ _ _)) => d = c
  | _ => false

end Job

namespace Hall

variable {h start : Hall} {c : Int} {jobs past later : List Job} {j : Job}

/-- The hall after a job. -/
def work (h : Hall) : Job → Hall
  | .post p => (h.serve p).2
  | .other e => h.step e

/-- The hall after jobs in turn. -/
def workAll (h : Hall) (jobs : List Job) : Hall := jobs.foldl work h

theorem workAll_append (h : Hall) (past later : List Job) :
    h.workAll (past ++ later) = (h.workAll past).workAll later := List.foldl_append

theorem workAll_concat (h : Hall) (past : List Job) (j : Job) :
    h.workAll (past ++ [j]) = (h.workAll past).work j := workAll_append h past [j]

theorem work_of_event {e : Event} (he : j.event? = some e) : h.work j = h.step e := by
  cases j with
  | other e' =>
      cases he
      rfl
  | post p =>
      cases p with
      | effect call =>
          cases he
          rfl
      | question ticket call =>
          cases call with
          | gameOver room =>
              cases he
              rfl
          | _ => cases he

theorem work_of_none (he : j.event? = none) : h.work j = h := by
  cases j with
  | other e => cases he
  | post p =>
      cases p with
      | effect call => cases he
      | question ticket call =>
          cases call with
          | gameOver room => cases he
          | waitForReply connection wait =>
              simp only [work, serve, respond]
              split <;> rfl
          | _ => rfl

/-! ## What jobs do with a router -/

/-- What a job does with the router of a player. -/
def usesOf (h : Hall) (c : Int) (j : Job) : Router.History :=
  match j.event? with
  | some e => h.uses c e
  | none => []

/-- A use of a router, and the job that it comes from. -/
inductive UsedBy (h : Hall) (c : Int) (j : Job) : Prop where
  | unused (hasks : j.asks c = false) (huses : h.usesOf c j = [])
  | request (timeout : Int32) (hasks : j.asks c = true)
      (huses : h.usesOf c j = [(h.now, .request timeout)])
  | hear (record : Record) (hj : j = .other (.record c record))
      (huses : h.usesOf c j = [(h.now, .hear record)])
  | refuse (hasks : j.asks c = false) (huses : h.usesOf c j = [(h.now, .setAccepting false)])

theorem usedBy (h : Hall) (c : Int) (j : Job) : h.UsedBy c j := by
  cases he : j.event? with
  | none => exact .unused (by rw [Job.asks, he]) (by rw [usesOf, he])
  | some e =>
      have huses : h.usesOf c j = h.uses c e := by rw [usesOf, he]
      -- three events use a router: a request, a record of a player and the end of a connection
      cases e with
      | effect call =>
          cases call with
          | request d command payload timeout timestamp =>
              by_cases hd : d = c
              · exact .request timeout (by simp [Job.asks, he, hd]) (by simp [huses, uses, hd])
              · exact .unused (by simp [Job.asks, he, hd]) (by simp [huses, uses, hd])
          | _ => exact .unused (by rw [Job.asks, he]) huses
      | record d record =>
          have hj : j = .other (.record d record) := by
            cases j with
            | other e =>
                cases he
                rfl
            | post p =>
                cases p with
                | effect call => cases he
                | question ticket call => cases call <;> cases he
          by_cases hd : d = c ∧ Assoc.has h.pending c = false
          · exact .hear record (by rw [hj, hd.1]) (by rw [huses, uses, if_pos hd])
          · exact .unused (by rw [Job.asks, he]) (by rw [huses, uses, if_neg hd])
      | closed d =>
          by_cases hd : d = c ∧ Assoc.has h.pending c = false
          · exact .refuse (by rw [Job.asks, he]) (by rw [huses, uses, if_pos hd])
          · exact .unused (by rw [Job.asks, he]) (by rw [huses, uses, if_neg hd])
      | _ => exact .unused (by rw [Job.asks, he]) huses

/-- A job uses the router of a player, or the player has just signed up. -/
theorem router_of_work (hup : h.crashed = false) (j : Job) {r' : Router}
    (hr : (h.work j).router? c = some r') :
    (∃ r, h.router? c = some r ∧ r' = r.play (h.usesOf c j))
      ∨ h.registry.pendingRouter? c = some r' := by
  cases he : j.event? with
  | none =>
      rw [work_of_none he] at hr
      exact Or.inl ⟨r', hr, by rw [usesOf, he]; rfl⟩
  | some e =>
      rw [work_of_event he, step, if_neg (by simp [hup])] at hr
      rw [usesOf, he]
      exact (reroutes_take h e).signed c r' hr

theorem pendingRouter_of_work (hup : h.crashed = false) (j : Job) {r' : Router}
    (hr : (h.work j).registry.pendingRouter? c = some r') :
    h.registry.pendingRouter? c = some r' ∨ ∃ t, r' = Router.new t := by
  cases he : j.event? with
  | none =>
      rw [work_of_none he] at hr
      exact Or.inl hr
  | some e =>
      rw [work_of_event he, step, if_neg (by simp [hup])] at hr
      exact (reroutes_take h e).pending c r' hr

/-! ## Where a reply comes from -/

/-- No request is made of a player. -/
def Unasked (c : Int) (jobs : List Job) : Prop := ∀ j ∈ jobs, j.asks c = false

/-- The latest request of a player among `jobs`, which follow `start`, has the number `n`. -/
def Asked (start : Hall) (c : Int) (jobs : List Job) (n : Int32) : Prop :=
  ∃ before ask between r, jobs = before ++ ask :: between ∧ ask.asks c = true
    ∧ (start.workAll before).router? c = some r ∧ r.nextId = n ∧ Unasked c between

/-- Among `jobs` a record of the player comes that is a reply to the latest request before it and has
the payload `p`. -/
def Replied (start : Hall) (c : Int) (jobs : List Job) (p : Octets) : Prop :=
  ∃ front record after n, jobs = front ++ .other (.record c record) :: after
    ∧ Asked start c front n ∧ Router.IsReply n record ∧ record.payload = p

/-- The same, and no request is made after the reply. -/
def Holds (start : Hall) (c : Int) (jobs : List Job) (p : Octets) : Prop :=
  ∃ front record after n, jobs = front ++ .other (.record c record) :: after
    ∧ Asked start c front n ∧ Router.IsReply n record ∧ record.payload = p ∧ Unasked c after

/-- What the routers of a hall tell of the jobs that it has done. -/
structure Traced (start : Hall) (jobs : List Job) : Prop where
  pending : ∀ c r, (start.workAll jobs).registry.pendingRouter? c = some r → ∃ t, r = Router.new t
  /-- A router has been used since it was made, and nothing else has become of it. -/
  history : ∀ c r, (start.workAll jobs).router? c = some r → ∃ t uses, r = (Router.new t).play uses
  expected : ∀ c r n, (start.workAll jobs).router? c = some r → r.expected = some n →
    Asked start c jobs n
  reply : ∀ c r p, (start.workAll jobs).router? c = some r → r.reply = some p → Holds start c jobs p

theorem unasked_concat (h : Unasked c jobs) (hj : j.asks c = false) : Unasked c (jobs ++ [j]) := by
  intro j' hj'
  rcases List.mem_append.mp hj' with hold | hnew
  · exact h j' hold
  · rw [List.mem_singleton.mp hnew]
    exact hj

theorem asked_concat {n : Int32} (h : Asked start c jobs n) (hj : j.asks c = false) :
    Asked start c (jobs ++ [j]) n := by
  obtain ⟨before, ask, between, r, rfl, hask, hr, hn, hnone⟩ := h
  exact ⟨before, ask, between ++ [j], r, by simp, hask, hr, hn, unasked_concat hnone hj⟩

theorem holds_concat {p : Octets} (h : Holds start c jobs p) (hj : j.asks c = false) :
    Holds start c (jobs ++ [j]) p := by
  obtain ⟨front, record, after, n, rfl, hasked, hreply, hp, hnone⟩ := h
  exact ⟨front, record, after ++ [j], n, by simp, hasked, hreply, hp, unasked_concat hnone hj⟩

theorem traced_start (authenticator : Authenticator) (settings : Settings) (fingerprint : String)
    (epoch : Int) : Traced (new authenticator settings fingerprint epoch) [] where
  pending _ _ hr := nomatch hr
  history _ _ hr := nomatch hr
  expected _ _ _ hr := nomatch hr
  reply _ _ _ hr := nomatch hr

/-- What a router shows of the jobs that have used it. -/
structure Shows (start : Hall) (c : Int) (jobs : List Job) (r : Router) : Prop where
  expected : ∀ n, r.expected = some n → Asked start c jobs n
  reply : ∀ p, r.reply = some p → Holds start c jobs p

/-- A new router shows nothing. -/
theorem shows_new (start : Hall) (c : Int) (jobs : List Job) (t : Moment) :
    Shows start c jobs (Router.new t) := ⟨fun _ h => (nomatch h), fun _ h => (nomatch h)⟩

theorem shows_concat {r : Router} (ht : Shows start c jobs r) (hj : j.asks c = false) :
    Shows start c (jobs ++ [j]) r :=
  ⟨fun n hn => asked_concat (ht.expected n hn) hj, fun p hp => holds_concat (ht.reply p hp) hj⟩

/-- A record that the router keeps is a reply to the latest request. -/
theorem shows_hear {r : Router} (ht : Shows start c jobs r) (now : Moment) (record : Record) :
    Shows start c (jobs ++ [.other (.record c record)]) (r.hear now record).2 := by
  have hj : (Job.other (.record c record)).asks c = false := rfl
  by_cases htaken : ∃ n, r.expected = some n ∧ r.accepting = true ∧ Router.IsReply n record
  · obtain ⟨n, hexpected, haccepting, hreply⟩ := htaken
    rw [Router.hear_of_taken now hexpected haccepting hreply]
    refine ⟨fun _ hn => (nomatch hn), fun p hp => ?_⟩
    dsimp only at hp
    split at hp
    · cases hp
      exact ⟨jobs, record, [], n, rfl, ht.expected n hexpected, hreply, rfl,
        fun _ hj' => absurd hj' List.not_mem_nil⟩
    · exact holds_concat (ht.reply p hp) hj
  · rw [Router.hear_of_not_taken now fun n hn haccepting hreply => htaken ⟨n, hn, haccepting, hreply⟩]
    exact shows_concat ht hj

/-- A job that uses a router changes what it shows accordingly. -/
theorem shows_work {r : Router} (hr : (start.workAll jobs).router? c = some r)
    (ht : Shows start c jobs r) (j : Job) :
    Shows start c (jobs ++ [j]) (r.play ((start.workAll jobs).usesOf c j)) := by
  -- a router forgets at a request, hears a record, or refuses all that comes
  cases usedBy (start.workAll jobs) c j with
  | unused hasks huses =>
      rw [huses]
      exact shows_concat ht hasks
  | request timeout hasks huses =>
      rw [huses]
      refine ⟨fun n hn => ?_, fun _ hp => (nomatch hp)⟩
      cases hn
      exact ⟨jobs, j, [], r, rfl, hasks, hr, rfl, fun _ hj => absurd hj List.not_mem_nil⟩
  | hear record hj huses =>
      rw [huses, hj]
      exact shows_hear ht _ record
  | refuse hasks huses =>
      rw [huses]
      have hexpected : (r.use ((start.workAll jobs).now, .setAccepting false)).expected = none :=
        Router.abort_expected _
      have hreply : (r.use ((start.workAll jobs).now, .setAccepting false)).reply = r.reply :=
        Router.abort_reply _
      refine ⟨fun n hn => ?_, fun p hp => ?_⟩
      · cases hexpected.symm.trans hn
      · exact holds_concat (ht.reply p (hreply.symm.trans hp)) hasks

/-- **One job more.** -/
theorem traced_step (ht : Traced start jobs) (hup : (start.workAll jobs).crashed = false) (j : Job) :
    Traced start (jobs ++ [j]) := by
  have hnext : ∀ c r', (start.workAll (jobs ++ [j])).router? c = some r' →
      (∃ t uses, r' = (Router.new t).play uses) ∧ Shows start c (jobs ++ [j]) r' := by
    intro c r' hr'
    rw [workAll_concat] at hr'
    rcases router_of_work hup j hr' with ⟨r, hr, rfl⟩ | hpending
    · obtain ⟨t, uses, hplayed⟩ := ht.history c r hr
      refine ⟨⟨t, uses ++ (start.workAll jobs).usesOf c j, ?_⟩, ?_⟩
      · rw [Router.play_append, ← hplayed]
      · exact shows_work hr ⟨fun n => ht.expected c r n hr, fun p => ht.reply c r p hr⟩ j
    · obtain ⟨t, rfl⟩ := ht.pending c r' hpending
      exact ⟨⟨t, [], rfl⟩, shows_new start c _ t⟩
  exact {
    pending := fun c r' hr' => by
      rw [workAll_concat] at hr'
      exact (pendingRouter_of_work hup j hr').elim (ht.pending c r') id
    history := fun c r' hr' => (hnext c r' hr').1
    expected := fun c r' n hr' => (hnext c r' hr').2.expected n
    reply := fun c r' p hr' => (hnext c r' hr').2.reply p }

/-! ## The same request or a later one -/

/-- The latest request is the one at the beginning of the jobs since, or a later one. -/
theorem asked_since {request : Job} {n : Int32} (hrequest : request.asks c = true)
    (h : Asked start c (past ++ request :: later) n) :
    Asked (start.workAll past) c (request :: later) n := by
  obtain ⟨before, ask, between, r, heq, hask, hr, hn, hnone⟩ := h
  rcases cut_cut heq with ⟨rfl, rfl, rfl⟩ | ⟨mid, rfl, rfl⟩ | ⟨mid, _, rfl⟩
  · exact ⟨[], request, later, r, rfl, hask, hr, hn, hnone⟩
  · exact ⟨request :: mid, ask, between, r, rfl, hask, by rw [← workAll_append]; exact hr, hn, hnone⟩
  · -- the request at the beginning would come after the latest
    have hquiet := hnone request (by simp)
    rw [hrequest] at hquiet
    cases hquiet

/-- A reply that is kept after a request is one to this request or to a later one. -/
theorem replied_since {request : Job} {p : Octets} (hrequest : request.asks c = true)
    (h : Holds start c (past ++ request :: later) p) :
    Replied (start.workAll past) c (request :: later) p := by
  obtain ⟨front, record, after, n, heq, hasked, hreply, hp, hnone⟩ := h
  rcases cut_cut heq with ⟨_, rfl, _⟩ | ⟨mid, rfl, rfl⟩ | ⟨mid, _, rfl⟩
  · cases hrequest
  · exact ⟨request :: mid, record, after, n, rfl, asked_since hrequest hasked, hreply, hp⟩
  · -- the request would come after the reply
    have hquiet := hnone request (by simp)
    rw [hrequest] at hquiet
    cases hquiet

theorem replied_append {p : Octets} (h : Replied start c jobs p) (later : List Job) :
    Replied start c (jobs ++ later) p := by
  obtain ⟨front, record, after, n, rfl, hasked, hreply, hp⟩ := h
  exact ⟨front, record, after ++ later, n, by simp, hasked, hreply, hp⟩

/-! ## Numbers -/

/-- While `jobs` are done the main loop is alive, and nobody takes the place of a player by signing up
with the player's number. -/
structure Undisturbed (h : Hall) (c : Int) (jobs : List Job) : Prop where
  alive : ∀ past j later, jobs = past ++ j :: later → (h.workAll past).crashed = false
  alone : ∀ past j later, jobs = past ++ j :: later →
    (h.workAll past).registry.pendingRouter? c = none

theorem undisturbed_of_append (h' : Undisturbed h c (past ++ later)) :
    Undisturbed h c past ∧ Undisturbed (h.workAll past) c later := by
  refine ⟨⟨fun front j rest heq => ?_, fun front j rest heq => ?_⟩,
    ⟨fun front j rest heq => ?_, fun front j rest heq => ?_⟩⟩
  · exact h'.alive front j (rest ++ later) (by rw [heq]; simp)
  · exact h'.alone front j (rest ++ later) (by rw [heq]; simp)
  · rw [← workAll_append]
    exact h'.alive (past ++ front) j rest (by rw [heq]; simp)
  · rw [← workAll_append]
    exact h'.alone (past ++ front) j rest (by rw [heq]; simp)

theorem requests_usesOf (h : Hall) (c : Int) (j : Job) :
    Router.requests (h.usesOf c j) = [j].countP (Job.asks c) := by
  cases usedBy h c j with
  | unused hasks huses => simp [huses, hasks, Router.requests]
  | request timeout hasks huses => simp [huses, hasks, Router.requests, Router.Use.isRequest]
  | hear record hj huses =>
      have hasks : j.asks c = false := by
        rw [hj]
        rfl
      simp [huses, hasks, Router.requests, Router.Use.isRequest]
  | refuse hasks huses => simp [huses, hasks, Router.requests, Router.Use.isRequest]

/-- A router is used for one request with every job that makes one. -/
theorem played_since (hd : Undisturbed h c jobs) {r' : Router}
    (hr' : (h.workAll jobs).router? c = some r') : ∃ r uses, h.router? c = some r
      ∧ r' = r.play uses ∧ Router.requests uses = jobs.countP (Job.asks c) := by
  induction jobs using List.reverseRecOn generalizing r' with
  | nil => exact ⟨r', [], hr', rfl, rfl⟩
  | append_singleton jobs j ih =>
      have hup := hd.alive jobs j [] rfl
      have halone := hd.alone jobs j [] rfl
      rw [workAll_concat] at hr'
      rcases router_of_work hup j hr' with ⟨r, hr, rfl⟩ | hpending
      · obtain ⟨r₀, uses, hr₀, rfl, hcount⟩ := ih (undisturbed_of_append hd).1 hr
        refine ⟨r₀, uses ++ (h.workAll jobs).usesOf c j, hr₀, (Router.play_append _ _ _).symm, ?_⟩
        rw [List.countP_append, ← hcount, ← requests_usesOf]
        exact List.countP_append
      · rw [halone] at hpending
        cases hpending

/-- **Requests have different numbers**, unless ten million lie between them. -/
theorem number_ne (ht : Traced start past) {request : Job} (hrequest : request.asks c = true)
    {between : List Job} (hd : Undisturbed (start.workAll past) c (request :: between))
    (hfew : between.countP (Job.asks c) < 9999999) {r r' : Router}
    (hr : (start.workAll past).router? c = some r)
    (hr' : ((start.workAll past).workAll (request :: between)).router? c = some r') :
    r'.nextId ≠ r.nextId := by
  have hsplit : Undisturbed (start.workAll past) c ([request] ++ between) := hd
  obtain ⟨hfirst, hlater⟩ := undisturbed_of_append hsplit
  obtain ⟨r₁, rest, hr₁, rfl, hcount⟩ := played_since hlater hr'
  -- the router has been used for the first of the two requests
  obtain ⟨timeout, hr₁⟩ : ∃ timeout,
      r₁ = r.play [((start.workAll past).now, .request timeout)] := by
    rcases router_of_work (hfirst.alive [] request [] rfl) request hr₁ with ⟨r₀, hr₀, rfl⟩ | hpending
    · cases hr.symm.trans hr₀
      cases usedBy (start.workAll past) c request with
      | unused hasks _ => exact absurd (hrequest.symm.trans hasks) (by decide)
      | request timeout _ huses => exact ⟨timeout, congrArg r.play huses⟩
      | hear record hj _ =>
          rw [hj] at hrequest
          cases hrequest
      | refuse hasks _ => exact absurd (hrequest.symm.trans hasks) (by decide)
    · cases (hfirst.alone [] request [] rfl).symm.trans hpending
  obtain ⟨t, uses, rfl⟩ := ht.history c r hr
  have hplayed : (r₁.play rest) = (Router.new t).play
      (uses ++ ((start.workAll past).now, .request timeout) :: rest) := by
    rw [hr₁, ← Router.play_append, ← Router.play_append]
    rfl
  rw [hplayed]
  exact Router.numberAfter_ne t uses rest _ timeout (by rw [hcount]; exact hfew)

end Hall

end GameHall
