import GameHall.Proofs.Hall.Conversation
import GameHall.Proofs.Hall.Fates

/-!
# The numbers of connections

Connections get their numbers in turn, and after the greatest the turn begins again: nobody looks
whether a number is in use. So a new connection has its number for itself in the first round, and later
just if the connection that got the number a round ago is gone by then (`numbers_run`). A player who
outstays a round shares the number with a stranger (`not_always_free`).
-/

namespace GameHall

namespace Hall

/-! ## Rounds -/

/-- The number of a connection that comes after so many others. -/
def turnNumber (n : Nat) : Int := n % maxConnection + 1

theorem turnNumber_succ (n : Nat) :
    turnNumber (n + 1) = if turnNumber n = maxConnection then 1 else turnNumber n + 1 := by
  simp only [turnNumber, maxConnection]
  omega

/-- Two connections have the same number just if there are whole rounds between them. -/
theorem turnNumber_eq_iff {m n : Nat} :
    turnNumber m = turnNumber n ↔ (m : Int) % maxConnection = n % maxConnection :=
  Int.add_left_inj 1

/-- A number is known the whole time. -/
def Abides (h : Hall) (c : Int) (events : List Event) : Prop :=
  ∀ past future, events = past ++ future → (h.run past).registry.Known c

/-- The connection that comes with the event `e` gets the number that the next one will get, a round
before it, and is there ever after. -/
structure Held (h : Hall) (events before : List Event) (e : Event) (between : List Event) : Prop where
  split : events = before ++ e :: between
  came : e.isAccept = true
  up : (h.run before).crashed = false
  number : (h.run before).nextConnection = (h.run events).nextConnection
  round : ((h.comers before).length : Int) + maxConnection = (h.comers events).length
  stays : ((h.run before).step e).Abides (h.run events).nextConnection between

/-- What holds of the numbers that connections have got, and of the one that the next will get. -/
structure Numbers (h : Hall) (events : List Event) : Prop where
  /-- Numbers are given in turn, round after round. -/
  given : h.comers events = (List.range (h.comers events).length).map turnNumber
  next : (h.run events).nextConnection = turnNumber (h.comers events).length
  /-- In the first round nobody has the next number. -/
  fresh : ((h.comers events).length : Int) < maxConnection →
    ¬ (h.run events).registry.Known (h.run events).nextConnection
  /-- Somebody has it just if the connection that got it a round ago is there still. -/
  taken : (h.run events).registry.Known (h.run events).nextConnection
    ↔ ∃ before e between, h.Held events before e between
  /-- A new connection is pending under its number and is sent its test, and nothing changes under any
  other number. A session that is there under the number stays, and a connection that is pending there
  is forgotten. -/
  comes : ∀ host c, (h.run events).crashed = false →
    ((h.run events).step (.accept host)).dossier c
      = if (h.run events).nextConnection = c then
          { ((h.run events).dossier c).post ((h.run events).newLink host)
              [.note "NetworkDelayTest" (h.run events).authenticator.publicKey] with
            pending := some ((h.run events).newLink host) }
        else (h.run events).dossier c
  /-- The next record under the number is judged as the sign-up of the new connection, even if a session
  is there and its player has sent it. The sign-up is refused, or takes the place of the session. -/
  captured : ∀ host record, (h.run events).crashed = false →
    Judged
      { (h.run events).step (.accept host) with
        pending := Assoc.erase ((h.run events).step (.accept host)).pending
          (h.run events).nextConnection }
      (((h.run events).step (.accept host)).step (.record (h.run events).nextConnection record))
      (h.run events).nextConnection ((h.run events).newLink host)

section rounds

variable {h : Hall} {c : Int} {n : Nat}

/-- The numbers of a run go on from the next one. -/
theorem comers_eq_turns (hb : h.ledger.Balanced) (hnext : h.nextConnection = turnNumber n)
    (events : List Event) :
    h.comers events = (List.range' n (h.comers events).length).map turnNumber
      ∧ (h.run events).nextConnection = turnNumber (n + (h.comers events).length) := by
  induction events generalizing h n with
  | nil => exact ⟨rfl, hnext⟩
  | cons e events ih =>
      have hlast := lastConnection_step hb e
      have hrun : h.run (e :: events) = (h.step e).run events := rfl
      rw [hrun, comers]
      by_cases he : (e.isAccept && !h.crashed) = true
      · rw [if_pos he, hnext] at hlast
        obtain ⟨hcomers, hlater⟩ := ih (n := n + 1) (balanced_step hb e) (by
          rw [nextConnection, hlast, turnNumber_succ])
        rw [if_pos he, List.singleton_append, List.length_cons, List.range'_succ, List.map_cons, hnext]
        exact ⟨congrArg _ hcomers, by rw [hlater]; congr 1; omega⟩
      · rw [if_neg he] at hlast ⊢
        rw [List.nil_append]
        exact ih (balanced_step hb e) (by rw [← hnext, nextConnection, hlast, nextConnection])

/-- Each number of a run is given at some moment of it. -/
theorem exists_arrival {events : List Event} {i : Nat} (hi : i < (h.comers events).length) :
    ∃ before e between, events = before ++ e :: between ∧ e.isAccept = true
      ∧ (h.run before).crashed = false ∧ (h.comers before).length = i := by
  induction events using List.reverseRecOn with
  | nil => exact absurd hi (Nat.not_lt_zero i)
  | append_singleton events e ih =>
      by_cases hearlier : i < (h.comers events).length
      · obtain ⟨before, e', between, rfl, hcame⟩ := ih hearlier
        exact ⟨before, e', between ++ [e], by simp, hcame⟩
      · -- the last event of the run gives it
        rw [comers_append, comers, comers, List.append_nil, List.length_append] at hi
        by_cases he : (e.isAccept && !(h.run events).crashed) = true
        · rw [if_pos he, List.length_singleton] at hi
          simp only [Bool.and_eq_true, Bool.not_eq_true'] at he
          exact ⟨events, e, [], rfl, he.1, he.2, by omega⟩
        · rw [if_neg he, List.length_nil] at hi
          exact absurd hi hearlier

/-- Who is there at the end and has not come in a run has been there the whole time. -/
theorem abides_of_known (hb : h.ledger.Balanced) {events : List Event} (hold : c ∉ h.comers events)
    (hknown : (h.run events).registry.Known c) : h.Abides c events := by
  rintro past future rfl
  have hrun : h.run (past ++ future) = (h.run past).run future := List.foldl_append
  rw [hrun] at hknown
  refine (known_run (balanced_run hb past) hknown).resolve_right fun hcame => hold ?_
  rw [comers_append]
  exact List.mem_append_right _ hcame

/-- A number that is known has been given a round before it is due again. -/
theorem exists_round (hb : h.ledger.Balanced) (hnext : h.nextConnection = turnNumber 0)
    (hunknown : ∀ c, ¬ h.registry.Known c) {events : List Event}
    (hknown : (h.run events).registry.Known (h.run events).nextConnection) :
    ∃ i : Nat, (i : Int) + maxConnection = (h.comers events).length := by
  obtain ⟨hgiven, hdue⟩ := comers_eq_turns hb hnext events
  have hmem := (known_run hb hknown).resolve_left (hunknown _)
  rw [hgiven, hdue, Nat.zero_add] at hmem
  obtain ⟨j, hj, hsame⟩ := List.mem_map.mp hmem
  have hlt := (List.mem_range'_1.mp hj).2
  have hmod := turnNumber_eq_iff.mp hsame
  refine ⟨(h.comers events).length - maxConnection.toNat, ?_⟩
  simp only [maxConnection, Int.reduceToNat] at hmod ⊢
  omega

/-- Within a round no number is given twice. -/
theorem not_given_since (hb : h.ledger.Balanced) (hnext : h.nextConnection = turnNumber 0)
    {before between : List Event} {e : Event} (hcame : e.isAccept = true)
    (hup : (h.run before).crashed = false)
    (hround : ((h.comers before).length : Int) + maxConnection
      = (h.comers (before ++ e :: between)).length) :
    (h.run (before ++ e :: between)).nextConnection ∉ ((h.run before).step e).comers between := by
  have hstep : (h.run before).step e = h.run (before ++ [e]) := (run_append h before [e]).symm
  -- one number for the event itself, and the others of the round for those behind it
  have hfirst : (h.comers (before ++ [e])).length = (h.comers before).length + 1 := by
    rw [comers_append, comers, comers, hcame, hup]
    simp
  have hrest : (h.comers (before ++ e :: between)).length
      = (h.comers before).length + 1 + (((h.run before).step e).comers between).length := by
    rw [List.append_cons, comers_append, List.length_append, hfirst, hstep]
  have hgiven := (comers_eq_turns (balanced_step (balanced_run hb before) e) (by
    rw [hstep, (comers_eq_turns hb hnext (before ++ [e])).2, hfirst]) between).1
  rw [hgiven, (comers_eq_turns hb hnext (before ++ e :: between)).2]
  intro hagain
  obtain ⟨j, hj, hsame⟩ := List.mem_map.mp hagain
  rw [List.mem_range'_1] at hj
  have hmod := turnNumber_eq_iff.mp hsame
  simp only [maxConnection] at hmod hround
  omega

/-- **Only the holder of the last round can have the next number.** -/
theorem held_of_known (hb : h.ledger.Balanced) (hnext : h.nextConnection = turnNumber 0)
    (hunknown : ∀ c, ¬ h.registry.Known c) {events : List Event}
    (hknown : (h.run events).registry.Known (h.run events).nextConnection) :
    ∃ before e between, h.Held events before e between := by
  obtain ⟨i, hround⟩ := exists_round hb hnext hunknown hknown
  have hi : i < (h.comers events).length := by
    simp only [maxConnection] at hround
    omega
  obtain ⟨before, e, between, rfl, hcame, hup, rfl⟩ := exists_arrival hi
  refine ⟨before, e, between, rfl, hcame, hup, ?_, hround, ?_⟩
  · rw [(comers_eq_turns hb hnext before).2, (comers_eq_turns hb hnext (before ++ e :: between)).2,
      turnNumber_eq_iff, Nat.zero_add, Nat.zero_add, ← hround, Int.add_emod_right]
  · -- nobody has got it since then, so who has it now has had it ever since
    refine abides_of_known (balanced_step (balanced_run hb before) e)
      (not_given_since hb hnext hcame hup hround) ?_
    rw [run_append] at hknown ⊢
    exact hknown

theorem known_of_held {events before between : List Event} {e : Event}
    (hheld : h.Held events before e between) :
    (h.run events).registry.Known (h.run events).nextConnection := by
  have hrun : ((h.run before).step e).run between = h.run events := by
    rw [hheld.split]
    exact (run_append h before (e :: between)).symm
  have hknown := hheld.stays between [] (List.append_nil _).symm
  rwa [hrun] at hknown

/-- What comes of the first record under the number of a new connection. -/
theorem judged_after_accept (hup : h.crashed = false) (host : Host) (record : Record) :
    Judged
      { h.step (.accept host) with
        pending := Assoc.erase (h.step (.accept host)).pending h.nextConnection }
      ((h.step (.accept host)).step (.record h.nextConnection record)) h.nextConnection
      (h.newLink host) := by
  have hcome : h.step (.accept host) = h.accept host := step_of_up hup _
  have hup' : (h.accept host).crashed = false := hup
  have hpending : Assoc.get? (h.accept host).pending h.nextConnection
      = some (h.newLink host) := Assoc.get?_set_self ..
  have hheard : (h.accept host).step (.record h.nextConnection record)
      = { h.accept host with
          pending := Assoc.erase (h.accept host).pending h.nextConnection }.judge h.nextConnection
            (h.newLink host) record := by
    rw [step_of_up hup', take, hear, hpending]
  rw [hcome, hheard]
  exact judged_judge _ _ _ record

end rounds

/-- **A number is given again after a round, whoever has it.** -/
theorem numbers_run (authenticator : Authenticator) (settings : Settings) (fingerprint : String)
    (epoch : Int) (events : List Event) :
    (new authenticator settings fingerprint epoch).Numbers events := by
  have hb := balanced_new authenticator settings fingerprint epoch
  have hnext : (new authenticator settings fingerprint epoch).nextConnection = turnNumber 0 := rfl
  have hunknown := unknown_new authenticator settings fingerprint epoch
  obtain ⟨hgiven, hlast⟩ := comers_eq_turns hb hnext events
  exact {
    given := by rw [List.range_eq_range']; exact hgiven
    next := by rw [hlast, Nat.zero_add]
    -- a number is held only if a whole round of numbers has been given since
    fresh := by
      intro hfew hknown
      obtain ⟨before, e, between, hheld⟩ := held_of_known hb hnext hunknown hknown
      have hround := hheld.round
      omega
    taken := ⟨held_of_known hb hnext hunknown, fun ⟨_, _, _, hheld⟩ => known_of_held hheld⟩
    comes := by
      intro host c hup
      rw [step_of_up hup]
      exact dossier_accept _ c host
    captured := fun host record hup => judged_after_accept hup host record }

/-! ## A player who outstays a round -/

/-- Connections that come one after another, each gone before the next one comes. The number is that
of the connection before the first of them. -/
def passing (last : Int) : Nat → List Event
  | 0 => []
  | n + 1 => .accept (.v4 10 0 0 2) :: .closed (last + 1) :: passing (last + 1) n

/-- What is left when so many connections have come and gone. -/
structure Passed (h g : Hall) (n : Nat) : Prop where
  sessions : g.sessions = h.sessions
  up : g.crashed = false
  last : g.lastConnection = h.lastConnection + n

theorem passed_pass {h : Hall} (hup : h.crashed = false) (hlt : h.lastConnection < maxConnection)
    (host : Host) : h.Passed (h.run [.accept host, .closed (h.lastConnection + 1)]) 1 := by
  have hcome : h.step (.accept host) = h.accept host := step_of_up hup _
  have hpending : Assoc.has (h.accept host).pending (h.lastConnection + 1) = true := by
    rw [← nextConnection_eq hlt]
    simp [accept, Assoc.has]
  have hgo : (h.accept host).step (.closed (h.lastConnection + 1))
      = { h.accept host with
          pending := Assoc.erase (h.accept host).pending (h.lastConnection + 1) } := by
    have hup' : (h.accept host).crashed = false := hup
    rw [step_of_up hup']
    exact if_pos hpending
  have hrun : h.run [.accept host, .closed (h.lastConnection + 1)]
      = (h.step (.accept host)).step (.closed (h.lastConnection + 1)) := rfl
  rw [hrun, hcome, hgo]
  exact ⟨rfl, hup, nextConnection_eq hlt⟩

theorem passed_passing {h : Hall} (hup : h.crashed = false) {n : Nat}
    (hfew : h.lastConnection + n ≤ maxConnection) :
    h.Passed (h.run (passing h.lastConnection n)) n := by
  induction n generalizing h with
  | zero => exact ⟨rfl, hup, (Int.add_zero _).symm⟩
  | succ n ih =>
      obtain ⟨hsessions, hup', hlast⟩ := passed_pass hup (by omega) (.v4 10 0 0 2)
      have hrest := ih hup' (by rw [hlast]; omega)
      have hlater := hrest.last
      rw [hlast] at hrest hlater
      exact ⟨hrest.sessions.trans hsessions, hrest.up, hlater.trans (by omega)⟩

/-- A player signs up and stays, and meanwhile the rest of a round of connections come and go. -/
def outstayed : List Event :=
  [.accept (.v4 10 0 0 1), .record 1 (helloRecord "amy")] ++ passing 1 2147483646

theorem known_of_passed {h g : Hall} {n : Nat} (hpassed : h.Passed g n)
    (hround : h.lastConnection + n = maxConnection) (hfirst : (h.session? 1).isSome = true) :
    g.crashed = false ∧ g.registry.Known g.nextConnection := by
  have hnext : g.nextConnection = 1 := if_pos (hpassed.last.trans hround)
  rw [hnext]
  refine ⟨hpassed.up, Or.inr ?_⟩
  show (Assoc.get? g.sessions 1).isSome = true
  rw [hpassed.sessions]
  exact hfirst

/-- The player is there, under the number of the next connection. -/
theorem known_outstayed : ((new (.openToAll []) .initial "rules" 0).run outstayed).crashed = false
    ∧ ((new (.openToAll []) .initial "rules" 0).run outstayed).registry.Known
      ((new (.openToAll []) .initial "rules" 0).run outstayed).nextConnection := by
  have hup : ((new (.openToAll []) .initial "rules" 0).run
      [.accept (.v4 10 0 0 1), .record 1 (helloRecord "amy")]).crashed = false := by decide +kernel
  have hlast : ((new (.openToAll []) .initial "rules" 0).run
      [.accept (.v4 10 0 0 1), .record 1 (helloRecord "amy")]).lastConnection = 1 := by decide +kernel
  have hpassed := passed_passing hup (n := 2147483646) (by rw [hlast]; decide)
  rw [hlast] at hpassed
  rw [outstayed, run_append]
  exact known_of_passed hpassed (by rw [hlast]; decide) (by decide +kernel)

/-- So it is not so that a new connection always has its number for itself. -/
theorem not_always_free : ¬ ∀ events : List Event,
    ((new (.openToAll []) .initial "rules" 0).run events).crashed = false →
      ¬ ((new (.openToAll []) .initial "rules" 0).run events).registry.Known
        ((new (.openToAll []) .initial "rules" 0).run events).nextConnection :=
  fun h => h outstayed known_outstayed.1 known_outstayed.2

end Hall

end GameHall
