import GameHall.Messaging.Router
import Mathlib.Data.List.Infix

/-!
# Which reply is kept

What a router has kept can be told from what was done with it and when, without looking at the router:
the reply to the latest request that came in time, while replies were taken, and before the wait for it
was over (`Answered`). The wait for a request is over when the request is given up, when the router
stops taking replies, or when a reply to it is taken, be it late or not (`Ends`).

The fields of a router are read off the uses since the latest request one after the other
(`follows_play`), by induction on the uses from the last one backwards.
-/

namespace GameHall

namespace Router

/-- What is done with a router. -/
inductive Use where
  | request (timeout : Int32)
  | hear (record : Record)
  | abort
  | setAccepting (accepting : Bool)

/-- What is done with a router, in order, each with its moment. -/
abbrev History := List (Moment × Use)

/-- The router after something has been done with it. -/
def use (r : Router) : Moment × Use → Router
  | (now, .request timeout) => (r.request now timeout).2
  | (now, .hear record) => (r.hear now record).2
  | (_, .abort) => r.abort
  | (_, .setAccepting accepting) => r.setAccepting accepting

/-- The router after all that has been done with it. -/
def play (r : Router) (uses : History) : Router := uses.foldl use r

/-! ## What a history says -/

/-- Whether something is a request. -/
def Use.isRequest : Use → Bool
  | request _ => true
  | _ => false

/-- No new request is made. -/
def NoRequest (uses : History) : Prop := ∀ u ∈ uses, u.2.isRequest = false

/-- Whether replies are taken after something has been done, if `before` tells whether they were
before. -/
def acceptingAfter (before : Bool) (uses : History) : Bool :=
  uses.foldl (fun accepting u => match u.2 with
    | .setAccepting value => value
    | _ => accepting) before

/-- A record is a reply to the request with the number `n`. -/
def IsReply (n : Int32) (record : Record) : Prop :=
  record.has Mask.reply = true ∧ record.has Mask.notification = false ∧ record.id = n

/-- Something ends the wait for the reply to request `n`; `accepting` tells whether replies are
taken. -/
def Ends (n : Int32) (accepting : Bool) : Use → Prop
  | .request _ => False
  | .hear record => accepting = true ∧ IsReply n record
  | .abort => True
  | .setAccepting value => value = false

/-- The reply to request `n` is still awaited after `uses`, which follow the request. -/
def Awaited (n : Int32) (accepting : Bool) (uses : History) : Prop :=
  ∀ past u, past ++ [u] <+: uses → ¬ Ends n (acceptingAfter accepting past) u.2

/-- A reply at the moment `now` to a request of the moment `issued` is in time. -/
def InTime (issued : Moment) (timeout : Int32) (now : Moment) : Prop :=
  timeout < 0 ∨ (now : Int) - issued ≤ timeout.toInt * 1000000

/-- Among `uses`, which follow request `n` of the moment `issued`, is a reply to it with the payload
`p` that is taken, is awaited and is in time. -/
def Answers (n : Int32) (accepting : Bool) (issued : Moment) (timeout : Int32) (uses : History)
    (p : Octets) : Prop :=
  ∃ past now record, past ++ [(now, .hear record)] <+: uses ∧ IsReply n record
    ∧ acceptingAfter accepting past = true ∧ Awaited n accepting past
    ∧ InTime issued timeout now ∧ record.payload = p

/-- The number that the next request gets. -/
def numberAfter (start : Moment) (uses : History) : Int32 := ((new start).play uses).nextId

/-- The latest request of all has been answered with the payload `p`. -/
def Answered (start : Moment) (uses : History) (p : Octets) : Prop :=
  ∃ before issued timeout rest, uses = before ++ (issued, .request timeout) :: rest
    ∧ NoRequest rest
    ∧ Answers (numberAfter start before) (acceptingAfter true before) issued timeout rest p

/-! ## One use more -/

variable {n : Int32} {accepting : Bool} {uses : History} {u : Moment × Use}

theorem play_append (r : Router) (uses uses' : History) :
    r.play (uses ++ uses') = (r.play uses).play uses' := List.foldl_append

theorem play_snoc (r : Router) (uses : History) (u : Moment × Use) :
    r.play (uses ++ [u]) = (r.play uses).use u := play_append r uses [u]

theorem acceptingAfter_append (before : Bool) (uses uses' : History) :
    acceptingAfter before (uses ++ uses') = acceptingAfter (acceptingAfter before uses) uses' :=
  List.foldl_append

theorem noRequest_snoc : NoRequest (uses ++ [u]) ↔ NoRequest uses ∧ u.2.isRequest = false := by
  simp [NoRequest, or_imp, forall_and]

theorem awaited_nil : Awaited n accepting [] := by
  intro past u h
  have := List.prefix_nil.mp h
  simp at this

theorem awaited_snoc : Awaited n accepting (uses ++ [u]) ↔
    Awaited n accepting uses ∧ ¬ Ends n (acceptingAfter accepting uses) u.2 := by
  constructor
  · intro h
    refine ⟨fun past v hv => h past v (hv.trans (List.prefix_append _ _)), h uses u ?_⟩
    exact List.prefix_refl _
  · intro ⟨h, hu⟩ past v hv
    rcases List.prefix_concat_iff.mp hv with heq | hpre
    · obtain ⟨rfl, rfl⟩ := List.append_singleton_inj.mp heq
      exact hu
    · exact h past v hpre

theorem answers_nil {issued : Moment} {timeout : Int32} {p : Octets} :
    ¬ Answers n accepting issued timeout [] p := by
  intro ⟨past, now, record, h, _⟩
  have := List.prefix_nil.mp h
  simp at this

/-- An answer has come before the last use or is the last use. -/
theorem answers_snoc {issued : Moment} {timeout : Int32} {p : Octets} :
    Answers n accepting issued timeout (uses ++ [u]) p ↔
      Answers n accepting issued timeout uses p ∨ ∃ now record, u = (now, .hear record)
        ∧ IsReply n record ∧ acceptingAfter accepting uses = true ∧ Awaited n accepting uses
        ∧ InTime issued timeout now ∧ record.payload = p := by
  constructor
  · intro ⟨past, now, record, h, hrest⟩
    rcases List.prefix_concat_iff.mp h with heq | hpre
    · obtain ⟨rfl, rfl⟩ := List.append_singleton_inj.mp heq
      exact Or.inr ⟨now, record, rfl, hrest⟩
    · exact Or.inl ⟨past, now, record, hpre, hrest⟩
  · rintro (⟨past, now, record, h, hrest⟩ | ⟨now, record, rfl, hrest⟩)
    · exact ⟨past, now, record, h.trans (List.prefix_append _ _), hrest⟩
    · exact ⟨uses, now, record, List.prefix_refl _, hrest⟩

/-- Whoever awaits the reply has not got one. -/
theorem not_awaited_of_answers {issued : Moment} {timeout : Int32} {p : Octets}
    (h : Answers n accepting issued timeout uses p) : ¬ Awaited n accepting uses := by
  obtain ⟨past, now, record, hpre, hreply, hacc, _⟩ := h
  intro hawaited
  exact hawaited past _ hpre ⟨hacc, hreply⟩

/-! ## What a record does -/

theorem inTime_iff (r : Router) (now : Moment) :
    r.inTime now = true ↔ InTime r.issuedAt r.timeout now := by
  unfold inTime InTime Duration.ofMillis
  rw [Bool.or_eq_true, decide_eq_true_iff, decide_eq_true_iff]
  by_cases hneg : r.timeout < 0
  · simp [hneg]
  · have hpos : 0 ≤ r.timeout.toInt := by
      have := mt Int32.lt_iff_toInt_lt.mpr hneg
      simpa using this
    have hclamp : ((r.timeout.toNatClampNeg : Nat) : Int) = r.timeout.toInt :=
      Int.toNat_of_nonneg hpos
    simp only [hneg, false_or]
    rw [← hclamp]
    show now - r.issuedAt ≤ r.timeout.toNatClampNeg * 1000000 ↔ _
    rw [Nat.sub_le_iff_le_add, ← Int.ofNat_le, Int.natCast_add, Int.natCast_mul]
    exact Int.sub_right_le_iff_le_add.symm

/-- A record that is no reply to the awaited request, or that comes while no reply is taken, changes
nothing. -/
theorem hear_of_not_taken {r : Router} (now : Moment) {record : Record}
    (h : ∀ n, r.expected = some n → r.accepting = true → ¬ IsReply n record) :
    (r.hear now record).2 = r := by
  unfold hear
  split
  · rfl
  · rename_i hnote
    split
    · rename_i hreply
      split
      · rename_i htaken
        rw [Bool.and_eq_true, beq_iff_eq] at htaken
        exact absurd ⟨hreply, by simpa using hnote, rfl⟩ (h record.id htaken.2 htaken.1)
      · rfl
    · split <;> rfl

/-- A reply to the awaited request ends the wait, and is kept if it is in time. -/
theorem hear_of_taken {r : Router} (now : Moment) {record : Record} (hexp : r.expected = some n)
    (hacc : r.accepting = true) (h : IsReply n record) :
    (r.hear now record).2 = { r with
      expected := none
      reply := if r.inTime now then some record.payload else r.reply } := by
  obtain ⟨hreply, hnote, rfl⟩ := h
  unfold hear
  simp only [hnote, hreply, hacc, hexp, Bool.false_eq_true, if_false, if_true, beq_self_eq_true,
    Bool.and_self]
  split <;> rfl

theorem abort_accepting (r : Router) : r.abort.accepting = r.accepting := by
  unfold abort; split <;> rfl

theorem abort_reply (r : Router) : r.abort.reply = r.reply := by
  unfold abort; split <;> rfl

theorem abort_expected (r : Router) : r.abort.expected = none := by
  unfold abort
  split
  · rfl
  · rename_i h
    simpa using h

/-! ## The fields of a router -/

/-- The router after `uses`, which follow request `n` of the moment `issued`. -/
structure Follows (n : Int32) (accepting : Bool) (issued : Moment) (timeout : Int32)
    (uses : History) (r : Router) : Prop where
  since : r.issuedAt = issued
  limit : r.timeout = timeout
  expected : ∀ m, r.expected = some m ↔ m = n ∧ Awaited n accepting uses
  reply : ∀ p, r.reply = some p ↔ Answers n accepting issued timeout uses p
  accepts : r.accepting = acceptingAfter accepting uses

variable {issued : Moment} {timeout : Int32} {r : Router}

theorem follows_request (r : Router) (issued : Moment) (timeout : Int32) :
    Follows r.nextId r.accepting issued timeout [] (r.use (issued, .request timeout)) where
  since := rfl
  limit := rfl
  expected := by
    intro m
    show some r.nextId = some m ↔ _
    simp [awaited_nil, eq_comm]
  reply := by
    intro p
    show none = some p ↔ _
    simp [answers_nil]
  accepts := rfl

/-- The reply that is awaited has come, in time or not. -/
theorem follows_taken (h : Follows n accepting issued timeout uses r) (now : Moment) {record : Record}
    (hacc : acceptingAfter accepting uses = true) (hreply : IsReply n record)
    (hawaited : Awaited n accepting uses) :
    Follows n accepting issued timeout (uses ++ [(now, .hear record)]) (r.hear now record).2 := by
  have hexp : r.expected = some n := (h.expected n).mpr ⟨rfl, hawaited⟩
  -- no reply is kept while one is awaited
  have hnone : ∀ p, ¬ Answers n accepting issued timeout uses p := fun p hp =>
    not_awaited_of_answers hp hawaited
  have hold : r.reply = none := by
    cases hr : r.reply with
    | none => rfl
    | some p => exact absurd ((h.reply p).mp hr) (hnone p)
  have htime := inTime_iff r now
  rw [h.since, h.limit] at htime
  rw [hear_of_taken now hexp (h.accepts.trans hacc) hreply]
  exact {
    since := h.since
    limit := h.limit
    expected := by
      intro m
      rw [awaited_snoc]
      simp [Ends, hacc, hreply]
    reply := by
      intro p
      rw [answers_snoc]
      show (if r.inTime now = true then some record.payload else r.reply) = some p ↔ _
      by_cases hin : r.inTime now = true
      · rw [if_pos hin, Option.some.injEq]
        constructor
        · intro hp
          exact Or.inr ⟨now, record, rfl, hreply, hacc, hawaited, htime.mp hin, hp⟩
        · rintro (hp | ⟨_, _, heq, _, _, _, _, hp⟩)
          · exact absurd hp (hnone p)
          · cases heq
            exact hp
      · rw [if_neg hin, hold]
        constructor
        · intro hp
          cases hp
        · rintro (hp | ⟨_, _, heq, _, _, _, hp, _⟩)
          · exact absurd hp (hnone p)
          · cases heq
            exact absurd (htime.mpr hp) hin
    accepts := by rw [acceptingAfter_append]; exact h.accepts }

/-- Any other record changes nothing. -/
theorem follows_missed (h : Follows n accepting issued timeout uses r) (now : Moment) {record : Record}
    (hmissed : acceptingAfter accepting uses = true → IsReply n record →
      ¬ Awaited n accepting uses) :
    Follows n accepting issued timeout (uses ++ [(now, .hear record)]) (r.hear now record).2 := by
  have hsame : (r.hear now record).2 = r := by
    refine hear_of_not_taken now fun m hm hacc hreply => ?_
    obtain ⟨rfl, hawaited⟩ := (h.expected m).mp hm
    exact hmissed (h.accepts ▸ hacc) hreply hawaited
  rw [hsame]
  exact {
    since := h.since
    limit := h.limit
    expected := by
      intro m
      rw [h.expected m, awaited_snoc]
      refine and_congr_right fun _ => ⟨fun hawaited => ⟨hawaited, fun hends => ?_⟩, And.left⟩
      exact hmissed hends.1 hends.2 hawaited
    reply := by
      intro p
      rw [h.reply p, answers_snoc]
      refine ⟨Or.inl, fun hp => hp.resolve_right ?_⟩
      rintro ⟨_, _, heq, hreply, hacc, hawaited, _⟩
      cases heq
      exact hmissed hacc hreply hawaited
    accepts := by rw [acceptingAfter_append]; exact h.accepts }

/-- What is no record keeps no reply. -/
theorem answers_snoc_of_not_hear (hu : ∀ record, u.2 ≠ .hear record) {p : Octets} :
    Answers n accepting issued timeout (uses ++ [u]) p ↔
      Answers n accepting issued timeout uses p := by
  rw [answers_snoc]
  refine ⟨fun hp => hp.resolve_right ?_, Or.inl⟩
  rintro ⟨now, record, rfl, _⟩
  exact hu record rfl

/-- The request has been given up, in either way. -/
theorem follows_abort (h : Follows n accepting issued timeout uses r)
    (hends : ∀ value, Ends n value u.2) (hu : ∀ record, u.2 ≠ .hear record) (value : Bool)
    (haccepts : acceptingAfter accepting (uses ++ [u]) = value) :
    Follows n accepting issued timeout (uses ++ [u]) ({ r with accepting := value } : Router).abort where
  since := by rw [← h.since]; unfold abort; split <;> rfl
  limit := by rw [← h.limit]; unfold abort; split <;> rfl
  expected := by
    intro m
    rw [abort_expected, awaited_snoc]
    simp [hends]
  reply := by
    intro p
    rw [abort_reply, answers_snoc_of_not_hear hu]
    exact h.reply p
  accepts := by rw [abort_accepting, haccepts]

/-- **One use more.** -/
theorem follows_use (h : Follows n accepting issued timeout uses r)
    (hu : u.2.isRequest = false) :
    Follows n accepting issued timeout (uses ++ [u]) (r.use u) := by
  obtain ⟨now, v⟩ := u
  -- a request is not among the uses: it begins a count of its own
  cases v with
  | request _ => cases hu
  | hear record =>
      by_cases htaken : (acceptingAfter accepting uses = true ∧ IsReply n record)
          ∧ Awaited n accepting uses
      · exact follows_taken h now htaken.1.1 htaken.1.2 htaken.2
      · exact follows_missed h now fun hacc hreply hawaited => htaken ⟨⟨hacc, hreply⟩, hawaited⟩
  | abort =>
      refine follows_abort (u := (now, .abort)) h (fun _ => trivial) (by simp) r.accepting ?_
      rw [acceptingAfter_append, h.accepts]
      rfl
  | setAccepting value =>
      cases value with
      | true =>
          exact {
            since := h.since
            limit := h.limit
            expected := by
              intro m
              show r.expected = some m ↔ _
              rw [awaited_snoc]
              simpa [Ends] using h.expected m
            reply := by
              intro p
              rw [answers_snoc_of_not_hear (by simp)]
              exact h.reply p
            accepts := by rw [acceptingAfter_append]; rfl }
      | false =>
          refine follows_abort (u := (now, .setAccepting false)) h (fun _ => rfl) (by simp) false ?_
          rw [acceptingAfter_append]
          rfl

/-- **The router after a request and whatever follows it.** -/
theorem follows_play (r : Router) (issued : Moment) (timeout : Int32) {rest : History}
    (hrest : NoRequest rest) :
    Follows r.nextId r.accepting issued timeout rest
      (r.play ((issued, .request timeout) :: rest)) := by
  induction rest using List.reverseRecOn with
  | nil => exact follows_request r issued timeout
  | append_singleton rest u ih =>
      obtain ⟨hrest, hu⟩ := noRequest_snoc.mp hrest
      have hsnoc := play_snoc r ((issued, .request timeout) :: rest) u
      rw [List.cons_append] at hsnoc
      rw [hsnoc]
      exact follows_use (ih hrest) hu

/-! ## While nothing is awaited -/

/-- As long as nothing is awaited, a use that is no request keeps nothing. -/
theorem use_of_unexpecting {r : Router} (h : r.expected = none) (hu : u.2.isRequest = false) :
    (r.use u).expected = none ∧ (r.use u).reply = r.reply := by
  obtain ⟨now, v⟩ := u
  cases v with
  | request _ => cases hu
  | hear record =>
      have hsame : (r.hear now record).2 = r := hear_of_not_taken now fun n hn => by
        rw [h] at hn
        cases hn
      show (r.hear now record).2.expected = none ∧ (r.hear now record).2.reply = r.reply
      rw [hsame]
      exact ⟨h, rfl⟩
  | abort => exact ⟨abort_expected r, abort_reply r⟩
  | setAccepting value =>
      cases value with
      | true => exact ⟨h, rfl⟩
      | false => exact ⟨abort_expected _, abort_reply _⟩

theorem play_of_unexpecting {r : Router} (h : r.expected = none) (huses : NoRequest uses) :
    (r.play uses).expected = none ∧ (r.play uses).reply = r.reply := by
  induction uses using List.reverseRecOn with
  | nil => exact ⟨h, rfl⟩
  | append_singleton uses u ih =>
      obtain ⟨huses, hu⟩ := noRequest_snoc.mp huses
      obtain ⟨hexp, hreply⟩ := ih huses
      rw [play_snoc, ← hreply]
      exact use_of_unexpecting hexp hu

theorem hear_of_unexpecting {r : Router} (h : r.expected = none) (now : Moment) (record : Record) :
    (r.hear now record).2 = r :=
  hear_of_not_taken now fun n hn => by rw [h] at hn; cases hn

/-! ## Numbers -/

/-- How many requests are made. -/
def requests (uses : History) : Nat := uses.countP fun u => u.2.isRequest

theorem accepting_use (r : Router) (u : Moment × Use) :
    (r.use u).accepting = acceptingAfter r.accepting [u] := by
  obtain ⟨now, v⟩ := u
  cases v with
  | request _ => rfl
  | hear record =>
      show (r.hear now record).2.accepting = r.accepting
      unfold hear
      repeat' split
      all_goals rfl
  | abort => exact abort_accepting r
  | setAccepting value =>
      cases value with
      | true => rfl
      | false => exact abort_accepting _

theorem accepting_play (r : Router) (uses : History) :
    (r.play uses).accepting = acceptingAfter r.accepting uses := by
  induction uses using List.reverseRecOn with
  | nil => rfl
  | append_singleton uses u ih =>
      rw [play_snoc, accepting_use, ih, ← acceptingAfter_append]

/-- Only a request moves on the count of numbers. -/
theorem lastId_use (r : Router) (u : Moment × Use) :
    (r.use u).lastId = if u.2.isRequest then r.nextId else r.lastId := by
  obtain ⟨now, v⟩ := u
  cases v with
  | request _ => rfl
  | hear record =>
      show (r.hear now record).2.lastId = r.lastId
      unfold hear
      repeat' split
      all_goals rfl
  | abort =>
      show r.abort.lastId = r.lastId
      unfold abort
      split <;> rfl
  | setAccepting value =>
      cases value with
      | true => rfl
      | false =>
          show ({ r with accepting := false } : Router).abort.lastId = r.lastId
          unfold abort
          split <;> rfl

/-- **Requests are numbered in turn**, and after ten million from the beginning. -/
theorem numberAfter_eq (start : Moment) (uses : History) :
    (numberAfter start uses).toInt = (requests uses % 10000000 : Nat) + 1 := by
  unfold numberAfter
  -- on the uses; the number after the greatest one is 1 again
  induction uses using List.reverseRecOn with
  | nil => rfl
  | append_singleton uses u ih =>
      rw [play_snoc, nextId, lastId_use]
      by_cases hu : u.2.isRequest = true
      · have hcount : requests (uses ++ [u]) = requests uses + 1 := by
          simp [requests, hu]
        rw [if_pos hu, hcount]
        generalize ((new start).play uses).nextId = n at ih ⊢
        have hmax : (maxRequestId ≤ n) ↔ 10000000 ≤ n.toInt := Int32.le_iff_toInt_le
        by_cases hlast : maxRequestId ≤ n
        · rw [if_pos hlast]
          have := hmax.mp hlast
          show (1 : Int) = _
          omega
        · rw [if_neg hlast, Int32.toInt_add]
          have := mt hmax.mpr hlast
          show (n.toInt + 1).bmod (2 ^ 32) = _
          rw [Int.bmod_eq_of_le (by omega) (by omega)]
          omega
      · have hcount : requests (uses ++ [u]) = requests uses := by
          simp [requests, hu]
        rw [if_neg hu, hcount]
        exact ih

/-- Fewer than ten million requests later a number has not come back. -/
theorem numberAfter_ne (start : Moment) (before rest : History) (issued : Moment) (timeout : Int32)
    (hfew : requests rest < 9999999) :
    numberAfter start (before ++ (issued, .request timeout) :: rest) ≠ numberAfter start before := by
  intro heq
  have hcount : requests (before ++ (issued, .request timeout) :: rest)
      = requests before + requests rest + 1 := by
    simp [requests, Use.isRequest]
    omega
  have hnumbers := congrArg Int32.toInt heq
  rw [numberAfter_eq, numberAfter_eq, hcount] at hnumbers
  omega

/-! ## The law of the kept reply -/

/-- There is a latest request, or there is none at all. -/
theorem latest_request (uses : History) :
    NoRequest uses ∨ ∃ before issued timeout rest,
      uses = before ++ (issued, .request timeout) :: rest ∧ NoRequest rest := by
  induction uses using List.reverseRecOn with
  | nil => exact Or.inl (by simp [NoRequest])
  | append_singleton uses u ih =>
      cases hu : u.2.isRequest with
      | true =>
          obtain ⟨now, v⟩ := u
          cases v with
          | request timeout => exact Or.inr ⟨uses, now, timeout, [], rfl, by simp [NoRequest]⟩
          | hear _ => cases hu
          | abort => cases hu
          | setAccepting _ => cases hu
      | false =>
          rcases ih with hnone | ⟨before, issued, timeout, rest, rfl, hrest⟩
          · exact Or.inl (noRequest_snoc.mpr ⟨hnone, hu⟩)
          · refine Or.inr ⟨before, issued, timeout, rest ++ [u], ?_, noRequest_snoc.mpr ⟨hrest, hu⟩⟩
            rw [List.append_assoc, List.cons_append]

/-- The latest request has the number and the willingness that the history before it tells. -/
theorem follows_latest {start : Moment} {before rest : History}
    (heq : uses = before ++ (issued, .request timeout) :: rest) (hrest : NoRequest rest) :
    Follows (numberAfter start before) (acceptingAfter true before) issued timeout rest
      ((new start).play uses) := by
  have hfollows := follows_play ((new start).play before) issued timeout hrest
  rw [accepting_play, ← play_append, ← heq] at hfollows
  exact hfollows

theorem hear_of_other (h : Follows n accepting issued timeout uses r) (now : Moment) {record : Record}
    (hid : record.id ≠ n) : (r.hear now record).2 = r := by
  refine hear_of_not_taken now fun m hm _ hreply => hid ?_
  rw [← ((h.expected m).mp hm).1]
  exact hreply.2.2

theorem reply_of_late (h : Follows n accepting issued timeout uses r) {now : Moment}
    (hlate : ¬ InTime issued timeout now) (record : Record) :
    (r.hear now record).2.reply = r.reply := by
  by_cases htaken : ∃ m, r.expected = some m ∧ r.accepting = true ∧ IsReply m record
  · obtain ⟨m, hexp, hacc, hreply⟩ := htaken
    have htime := inTime_iff r now
    rw [h.since, h.limit] at htime
    rw [hear_of_taken now hexp hacc hreply]
    exact if_neg (mt htime.mp hlate)
  · rw [hear_of_not_taken now fun m hexp hacc hreply => htaken ⟨m, hexp, hacc, hreply⟩]

/-- A request whose place another one has taken has another number than the latest. -/
theorem hear_of_superseded {start : Moment} {before rest : History}
    (heq : uses = before ++ (issued, .request timeout) :: rest) (hpos : 0 < requests rest)
    (hfew : requests rest < 10000000) (now : Moment) {record : Record}
    (hid : record.id = numberAfter start before) :
    (((new start).play uses).hear now record).2 = (new start).play uses := by
  rcases latest_request rest with hnone | ⟨between, issued', timeout', rest', hrest, hnone⟩
  · have hzero : requests rest = 0 := List.countP_eq_zero.mpr fun u hu => by simp [hnone u hu]
    omega
  · have heq' : uses = (before ++ (issued, .request timeout) :: between)
        ++ (issued', .request timeout') :: rest' := by
      rw [heq, hrest, List.append_assoc, List.cons_append]
    have hcount : requests rest = requests between + 1 + requests rest' := by
      rw [hrest]
      simp [requests, Use.isRequest]
      omega
    refine hear_of_other (follows_latest heq' hnone) now ?_
    rw [hid]
    exact (numberAfter_ne start before between issued timeout (by omega)).symm

/-- What a router has kept after a history, and what no record changes any more. -/
structure KeepsRightReply (start : Moment) (uses : History) : Prop where
  /-- What is kept is the reply to the latest request. -/
  kept : ∀ p, ((new start).play uses).reply = some p ↔ Answered start uses p
  /-- A record with another number than the latest request changes nothing. -/
  unmatched : ∀ before issued timeout rest, uses = before ++ (issued, .request timeout) :: rest →
    NoRequest rest → ∀ now record, record.id ≠ numberAfter start before →
      (((new start).play uses).hear now record).2 = (new start).play uses
  /-- Nor does a reply to a request whose place another one has taken, as long as the number has not
  been given again. -/
  superseded : ∀ before issued timeout rest, uses = before ++ (issued, .request timeout) :: rest →
    0 < requests rest → requests rest < 10000000 → ∀ now record,
      record.id = numberAfter start before →
      (((new start).play uses).hear now record).2 = (new start).play uses
  /-- Nor does any record after a first reply to the latest request. -/
  second : ∀ before issued timeout rest past now record,
    uses = before ++ (issued, .request timeout) :: rest → NoRequest rest →
    past ++ [(now, .hear record)] <+: rest → IsReply (numberAfter start before) record →
    acceptingAfter true (before ++ (issued, .request timeout) :: past) = true →
      ∀ later other, (((new start).play uses).hear later other).2 = (new start).play uses
  /-- A record that comes too late keeps nothing. -/
  late : ∀ before issued timeout rest, uses = before ++ (issued, .request timeout) :: rest →
    NoRequest rest → ∀ now record, ¬ InTime issued timeout now →
      (((new start).play uses).hear now record).2.reply = ((new start).play uses).reply
  /-- No record changes anything once the request has been given up, in either way. -/
  aborted : ∀ before now rest, uses = before ++ (now, .abort) :: rest
      ∨ uses = before ++ (now, .setAccepting false) :: rest → NoRequest rest →
    ∀ later record, (((new start).play uses).hear later record).2 = (new start).play uses
  /-- A record that is no reply changes nothing. -/
  silent : ∀ now record, record.has Mask.reply = false →
    (((new start).play uses).hear now record).2 = (new start).play uses

/-- **A router keeps exactly the right reply**, whatever is done with it and whenever. -/
theorem keepsRightReply (start : Moment) (uses : History) : KeepsRightReply start uses where
  kept := by
    intro p
    constructor
    · intro hp
      -- whatever is kept is kept for the latest request
      rcases latest_request uses with hnone | ⟨before, issued, timeout, rest, heq, hrest⟩
      · have hidle := play_of_unexpecting (r := new start) rfl hnone
        rw [hidle.2] at hp
        cases hp
      · exact ⟨before, issued, timeout, rest, heq, hrest, ((follows_latest heq hrest).reply p).mp hp⟩
    · rintro ⟨before, issued, timeout, rest, heq, hrest, hanswers⟩
      exact ((follows_latest heq hrest).reply p).mpr hanswers
  unmatched := by
    intro before issued timeout rest heq hrest now record hid
    exact hear_of_other (follows_latest heq hrest) now hid
  superseded := by
    intro before issued timeout rest heq hpos hfew now record hid
    exact hear_of_superseded heq hpos hfew now hid
  second := by
    intro before issued timeout rest past now record heq hrest hpre hreply hacc
    refine hear_of_unexpecting ?_
    -- what has been kept is no less an answer when the router accepts none any more
    have hover : ¬ Awaited (numberAfter start before) (acceptingAfter true before) rest := by
      intro hawaited
      refine hawaited past _ hpre ⟨?_, hreply⟩
      rw [acceptingAfter_append] at hacc
      exact hacc
    cases hexp : ((new start).play uses).expected with
    | none => rfl
    | some n => exact absurd (((follows_latest heq hrest).expected n).mp hexp).2 hover
  late := by
    intro before issued timeout rest heq hrest now record hlate
    exact reply_of_late (follows_latest heq hrest) hlate record
  aborted := by
    intro before now rest heq hrest
    refine hear_of_unexpecting ?_
    rcases heq with heq | heq
    · rw [heq, play_append]
      exact (play_of_unexpecting (abort_expected _) hrest).1
    · rw [heq, play_append]
      exact (play_of_unexpecting (abort_expected _) hrest).1
  silent := by
    intro now record hsilent
    refine hear_of_not_taken now fun n _ _ hreply => ?_
    rw [hreply.1] at hsilent
    cases hsilent

end Router

end GameHall
