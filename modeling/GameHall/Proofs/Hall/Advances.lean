import GameHall.Proofs.Hall.Cues
import GameHall.Proofs.Hall.Fates

/-!
# What a connection is sent in an event

`GameHall.Proofs.Hall.Fates` says what one event does to one connection, and `GameHall.Proofs.Hall.Cues`
which lists of cues are in order. Here the two meet: how far the cues of a connection have come goes
with how the hall knows it (`Stage.Of`), as long as its link takes frames, and every fate takes it from one
stage to another (`advances_of_fate`).
-/

namespace GameHall

/-- A stage goes with how a connection is known. One whose link takes no frames may be at any stage, as
nothing more comes of it. -/
structure Stage.Of (st : Stage) (D : Dossier) : Prop where
  pending : ∀ l, D.pending = some l → l.sends = true → st = .waiting
  session : ∀ s, D.session = some s → s.link.sends = true →
    st = if s.inLobby then .lobby else .inside

/-- A connection is pending, and its link takes frames. -/
def Dossier.Waits (D : Dossier) : Prop := ∃ l, D.pending = some l ∧ l.sends = true

/-- Nobody has the number. -/
def Dossier.Unknown (D : Dossier) : Prop := D.pending = none ∧ D.session = none

/-- The player sits down, or begins to watch. -/
def Dossier.GoesIn (D E : Dossier) : Prop :=
  ∃ s s', D.session = some s ∧ s.link.sends = true ∧ E.session = some s'
    ∧ (s.room = lobbyRoom ∧ s'.room ≠ lobbyRoom ∨ s.observing = none ∧ s'.observing.isSome = true)

/-- The player watches no more, or is back, connected, from a game that has ended. -/
def Dossier.GoesOut (D E : Dossier) : Prop :=
  ∃ s, D.session = some s ∧ s.link.sends = true
    ∧ (s.observing.isSome = true ∧ (∀ s', E.session = some s' → s'.observing = none)
      ∨ s.room ≠ lobbyRoom ∧ s.isOnline = true ∧ ∃ s', E.session = some s' ∧ s'.room = lobbyRoom)

/-- The player is told of itself and the server and has signed up, or the queue shuts in between and the
connection is closed. -/
def Dossier.Greeted (D E : Dossier) (cues : List Cue) : Prop :=
  ∃ l, D.pending = some l
    ∧ (l.isBrief = false ∧ cues = [.setup, .settings] ∧ E.session.isSome = true
      ∨ l.isBrief = true ∧ cues = [.setup, .close] ∧ E.Unknown)

namespace Hall

/-! ## One event -/

/-- An event takes a connection from one stage to another. -/
structure Advances (c : Int) (e : Event) (st st' : Stage) (D E : Dossier) (new : List Mail) : Prop where
  mail : E.mail = D.mail ++ new
  run : st.run? (new.map Mail.cue) = some st'
  of : st'.Of E
  settled : st.Settled → st'.Settled
  /-- Nothing comes to a number that nobody has. -/
  idle : D.Unknown → E.Unknown → st' = st
  /-- One that is waiting still waits, if it is still there. -/
  waits : st' = .waiting → E.Waits ∨ st = .waiting ∧ (D.Waits → e = .closed c ∨ e = .shut c)
  greets : .setup ∈ new.map Mail.cue → D.Greeted E (new.map Mail.cue)
  goesIn : .enterRoom ∈ new.map Mail.cue ↔ D.GoesIn E
  goesOut : .enterLobby ∈ new.map Mail.cue ↔ D.GoesOut E

section advances

variable {c : Int} {e : Event} {st st' : Stage} {D E : Dossier} {s s' : Session} {l : Link}

theorem posts_of_sends (hsends : l.sends = true) (mail : List Mail) : l.posts mail = mail := if_pos hsends

theorem posts_of_closed (hclosed : l.sends = false) (mail : List Mail) : l.posts mail = [] :=
  if_neg (by simp [hclosed])

theorem of_unknown (st : Stage) (hD : D.Unknown) : st.Of D where
  pending := fun _ hl => nomatch hD.1.symm.trans hl
  session := fun _ hs => nomatch hD.2.symm.trans hs

theorem not_unknown_of_pending (hl : D.pending = some l) : ¬ D.Unknown :=
  fun hD => nomatch hD.1.symm.trans hl

theorem not_unknown_of_session (hs : D.session = some s) : ¬ D.Unknown :=
  fun hD => nomatch hD.2.symm.trans hs

/-! ### Who moves -/

theorem stays_of_none (hs : D.session = none) : ¬ D.GoesIn E ∧ ¬ D.GoesOut E :=
  ⟨fun ⟨_, _, hsome, _⟩ => (nomatch hs.symm.trans hsome),
    fun ⟨_, hsome, _⟩ => (nomatch hs.symm.trans hsome)⟩

/-- A player who is where the player was has not moved. -/
theorem stays_of_same (hs : D.session = some s) (hs' : E.session = some s')
    (hroom : s'.room = s.room) (hview : s'.observing = s.observing) :
    ¬ D.GoesIn E ∧ ¬ D.GoesOut E := by
  constructor
  · rintro ⟨t, t', ht, _, ht', hin⟩
    cases hs.symm.trans ht
    cases hs'.symm.trans ht'
    rw [hroom, hview] at hin
    rcases hin with ⟨hlobby, hne⟩ | ⟨hnone, hsome⟩
    · exact hne hlobby
    · rw [hnone] at hsome
      cases hsome
  · rintro ⟨t, ht, _, hout⟩
    cases hs.symm.trans ht
    rcases hout with ⟨hsome, hnone⟩ | ⟨hne, _, t', ht', hlobby⟩
    · rw [← hview, hnone s' hs'] at hsome
      cases hsome
    · cases hs'.symm.trans ht'
      exact hne (hroom ▸ hlobby)

theorem stays_of_footing (hsession : E.session.map Session.footing = D.session.map Session.footing) :
    ¬ D.GoesIn E ∧ ¬ D.GoesOut E := by
  cases hs : D.session with
  | none => exact stays_of_none hs
  | some s =>
      rw [hs] at hsession
      obtain ⟨s', hs', heq⟩ := Option.map_eq_some_iff.mp hsession
      simp only [Session.footing, Prod.mk.injEq] at heq
      exact stays_of_same hs hs' heq.2.1 heq.2.2

theorem goes_of_enters (hs : D.session = some s) (hs' : E.session = some s') (henters : s.Enters s') :
    (D.GoesIn E ↔ s.link.sends = true) ∧ ¬ D.GoesOut E := by
  obtain ⟨hroom, hview⟩ := Registry.inLobby_iff.mp henters.before
  refine ⟨⟨fun ⟨t, _, ht, hsends, _⟩ => ?_, fun hsends => ⟨s, s', hs, hsends, hs', ?_⟩⟩, ?_⟩
  · cases hs.symm.trans ht
    exact hsends
  · by_cases hroom' : s'.room = lobbyRoom
    · refine Or.inr ⟨hview, Option.isSome_iff_ne_none.mpr fun hview' => ?_⟩
      have hin := Registry.inLobby_iff.mpr ⟨hroom', hview'⟩
      rw [henters.after] at hin
      cases hin
    · exact Or.inl ⟨hroom, hroom'⟩
  · rintro ⟨t, ht, _, hout⟩
    cases hs.symm.trans ht
    rcases hout with ⟨hsome, _⟩ | ⟨hne, _⟩
    · rw [hview] at hsome
      cases hsome
    · exact hne hroom

theorem goes_of_returns (hs : D.session = some s) (hs' : E.session = some s')
    (hreturns : s.Returns s') : ¬ D.GoesIn E ∧ (D.GoesOut E ↔ s.link.sends = true) := by
  obtain ⟨hroom', hview'⟩ := Registry.inLobby_iff.mp hreturns.after
  refine ⟨?_, fun ⟨t, ht, hsends, _⟩ => ?_, fun hsends => ⟨s, hs, hsends, ?_⟩⟩
  · rintro ⟨t, t', ht, _, ht', hin⟩
    cases hs'.symm.trans ht'
    rcases hin with ⟨_, hne⟩ | ⟨_, hsome⟩
    · exact hne hroom'
    · rw [hview'] at hsome
      cases hsome
  · cases hs.symm.trans ht
    exact hsends
  · refine hreturns.before.imp (fun ⟨_, hsome⟩ => ⟨hsome, fun t' ht' => ?_⟩)
      fun ⟨hne, _, honline⟩ => ⟨hne, honline, s', hs', hroom'⟩
    cases hs'.symm.trans ht'
    exact hview'

/-- One who loses the session has gone out just if that one watched. -/
theorem goes_of_loses (hs : D.session = some s) (hs' : E.session = none) :
    ¬ D.GoesIn E ∧ (D.GoesOut E ↔ s.link.sends = true ∧ s.observing.isSome = true) := by
  refine ⟨fun ⟨_, _, _, _, hsome, _⟩ => (nomatch hs'.symm.trans hsome),
    fun ⟨t, ht, hsends, hout⟩ => ?_, fun ⟨hsends, hview⟩ => ⟨s, hs, hsends, Or.inl ⟨hview, ?_⟩⟩⟩
  case refine_2 => exact fun _ hsome => nomatch hs'.symm.trans hsome
  cases hs.symm.trans ht
  rcases hout with ⟨hview, _⟩ | ⟨_, _, _, hsome, _⟩
  · exact ⟨hsends, hview⟩
  · exact nomatch hs'.symm.trans hsome

/-! ### What is sent -/

/-- Nothing is sent, and nobody moves. -/
theorem advances_silent (hmail : E.mail = D.mail) (hof : st.Of E)
    (hwaits : D.Waits → E.Waits ∨ e = .closed c ∨ e = .shut c)
    (hstays : ¬ D.GoesIn E ∧ ¬ D.GoesOut E) : Advances c e st st D E [] where
  mail := hmail.trans (List.append_nil _).symm
  run := rfl
  of := hof
  settled := id
  idle := fun _ _ => rfl
  waits := by
    intro hst
    by_cases hstill : E.Waits
    · exact Or.inl hstill
    · exact Or.inr ⟨hst, fun hbefore => (hwaits hbefore).resolve_left hstill⟩
  greets := fun hsetup => absurd hsetup List.not_mem_nil
  goesIn := iff_of_false List.not_mem_nil hstays.1
  goesOut := iff_of_false List.not_mem_nil hstays.2

theorem not_waits_of_session (hapart : D.pending.isSome → D.session = none) (hs : D.session = some s) :
    ¬ D.Waits := by
  rintro ⟨l, hl, _⟩
  exact nomatch (hapart (by rw [hl]; rfl)).symm.trans hs

theorem pending_of_session (hapart : D.pending.isSome → D.session = none) (hs : D.session = some s) :
    D.pending = none :=
  Option.not_isSome_iff_eq_none.mp fun hp => nomatch (hapart hp).symm.trans hs

theorem cues_apology {first : List Mail} (hfirst : Apology first) :
    first.map Mail.cue = [] ∨ first.map Mail.cue = [.error] := by
  cases hfirst with
  | none => exact Or.inl rfl
  | dialog payload => exact Or.inr (congrArg (· :: []) (Mail.cue_note (by decide) payload))

/-- A pending connection is told something, as long as the link takes it, and is closed. -/
theorem advances_pending (hapart : D.pending.isSome → D.session = none) (hof : st.Of D)
    (hl : D.pending = some l) {o : Option Link} (ho : ∀ l', o = some l' → l'.sends = false)
    {mail : List Mail} (hrun : Stage.waiting.run? (mail.map Mail.cue) = some .closed)
    (hin : .enterRoom ∉ mail.map Mail.cue) (hout : .enterLobby ∉ mail.map Mail.cue)
    (hgreets : .setup ∈ mail.map Mail.cue →
      D.Greeted ⟨o, D.session, D.mail ++ l.posts mail⟩ (mail.map Mail.cue)) :
    Advances c e st (if l.sends then .closed else st) D
      ⟨o, D.session, D.mail ++ l.posts mail⟩ (l.posts mail) := by
  have hsession := hapart (by rw [hl]; rfl)
  -- neither what is left of the link nor a session asks for a stage
  have hof' : ∀ st : Stage, st.Of ⟨o, D.session, D.mail ++ l.posts mail⟩ := fun st =>
    ⟨fun l' hl' hsends => absurd hsends (by rw [ho l' hl']; decide),
      fun _ hs => nomatch hsession.symm.trans hs⟩
  cases hsends : l.sends with
  | false =>
      rw [posts_of_closed hsends, List.append_nil] at hof' ⊢
      refine advances_silent rfl (hof' st) (fun ⟨l', hl', hopen⟩ => ?_) (stays_of_none hsession)
      cases hl.symm.trans hl'
      rw [hsends] at hopen
      cases hopen
  | true =>
      rw [posts_of_sends hsends] at hof' hgreets ⊢
      have hstays := stays_of_none (E := ⟨o, D.session, D.mail ++ mail⟩) hsession
      exact {
        mail := rfl
        run := by rwa [hof.pending l hl hsends]
        of := hof' _
        settled := fun _ => show Stage.closed.Settled by decide
        idle := fun hunknown => absurd hunknown (not_unknown_of_pending hl)
        waits := fun hst => nomatch hst
        greets := hgreets
        goesIn := iff_of_false hin hstays.1
        goesOut := iff_of_false hout hstays.2 }

/-- A pending connection is told that it is over. -/
theorem advances_over (hapart : D.pending.isSome → D.session = none) (hof : st.Of D)
    (hl : D.pending = some l) {o : Option Link} (ho : ∀ l', o = some l' → l'.sends = false)
    {first : List Mail} (hfirst : Apology first) : Advances c e st
      (if l.sends then .closed else st) D ⟨o, D.session, D.mail ++ l.posts (first ++ [.close])⟩
      (l.posts (first ++ [.close])) := by
  have hcues : (first ++ [Mail.close]).map Mail.cue = [.close]
      ∨ (first ++ [Mail.close]).map Mail.cue = [.error, .close] := by
    rw [List.map_append]
    exact (cues_apology hfirst).imp (fun heq => by rw [heq]; rfl) fun heq => by rw [heq]; rfl
  refine advances_pending hapart hof hl ho ?_ ?_ ?_ (fun hsetup => absurd hsetup ?_)
  all_goals rcases hcues with hcues | hcues <;> rw [hcues] <;> decide

/-- The queue of a pending connection shuts after the first frame of the greeting. -/
theorem advances_cut (hapart : D.pending.isSome → D.session = none) (hof : st.Of D)
    (hl : D.pending = some l) (hbrief : l.isBrief = true) (setup : Octets) : Advances c e st
      (if l.sends then .closed else st) D
      ⟨none, D.session, D.mail ++ l.posts [.note "Setup" setup, .close]⟩
      (l.posts [.note "Setup" setup, .close]) := by
  have hfirst : (Mail.note "Setup" setup).cue = .setup := Mail.cue_note (by decide) setup
  have hcues : [Mail.note "Setup" setup, .close].map Mail.cue = [.setup, .close] := by
    rw [List.map_cons, hfirst]
    rfl
  refine advances_pending hapart hof hl (o := none) (fun _ hnone => nomatch hnone) ?_ ?_ ?_
    (fun _ => ⟨l, hl, Or.inr ⟨hbrief, hcues, rfl, hapart (by rw [hl]; rfl)⟩⟩)
  all_goals rw [hcues]; decide

/-- A player is told something, as long as the link takes it. -/
theorem advances_player (hapart : D.pending.isSome → D.session = none) (hof : st.Of D)
    (hs : D.session = some s) {o : Option Session} {mail : List Mail}
    (hrun : (if s.inLobby then .lobby else .inside : Stage).run? (mail.map Mail.cue) = some st')
    (hlate : st' = .lobby ∨ st' = .inside ∨ st' = .closed) (hsetup : .setup ∉ mail.map Mail.cue)
    (hof' : ∀ s', o = some s' → s'.link.sends = true →
      s.link.sends = true ∧ st' = if s'.inLobby then .lobby else .inside)
    (hin : D.GoesIn ⟨D.pending, o, D.mail ++ s.link.posts mail⟩
      ↔ s.link.sends = true ∧ .enterRoom ∈ mail.map Mail.cue)
    (hout : D.GoesOut ⟨D.pending, o, D.mail ++ s.link.posts mail⟩
      ↔ s.link.sends = true ∧ .enterLobby ∈ mail.map Mail.cue) :
    Advances c e st (if s.link.sends then st' else st) D
      ⟨D.pending, o, D.mail ++ s.link.posts mail⟩ (s.link.posts mail) := by
  have hpending := pending_of_session hapart hs
  cases hsends : s.link.sends with
  | false =>
      -- the link takes nothing more: no letter, and no change of stage
      rw [posts_of_closed hsends, List.append_nil, hsends] at hin hout
      rw [posts_of_closed hsends, List.append_nil]
      refine advances_silent rfl ⟨fun l hl => (nomatch hpending.symm.trans hl), fun s' hs' hopen' => ?_⟩
        (fun hwaits => absurd hwaits (not_waits_of_session hapart hs))
        ⟨fun h => (nomatch (hin.mp h).1), fun h => (nomatch (hout.mp h).1)⟩
      rw [(hof' s' hs' hopen').1] at hsends
      cases hsends
  | true =>
      rw [posts_of_sends hsends] at hin hout ⊢
      rw [hsends] at hin hout
      exact {
        mail := rfl
        run := by rwa [hof.session s hs hsends]
        of := ⟨fun l hl => (nomatch hpending.symm.trans hl), fun s' hs' hopen' => (hof' s' hs' hopen').2⟩
        settled := fun _ => show st'.Settled by rcases hlate with rfl | rfl | rfl <;> decide
        idle := fun hunknown => absurd hunknown (not_unknown_of_session hs)
        waits := fun hst => by rcases hlate with rfl | rfl | rfl <;> cases hst
        greets := fun hmem => absurd hmem hsetup
        goesIn := (hin.trans (and_iff_right rfl)).symm
        goesOut := (hout.trans (and_iff_right rfl)).symm }

theorem inLobby_of_returns (hreturns : s.Returns s') : s.inLobby = false := by
  refine Bool.eq_false_iff.mpr fun hin => ?_
  obtain ⟨hroom, hview⟩ := Registry.inLobby_iff.mp hin
  rcases hreturns.before with ⟨_, hsome⟩ | ⟨hne, _⟩
  · rw [hview] at hsome
    cases hsome
  · exact hne hroom

/-! ### Each fate -/

theorem of_still (hof : st.Of D) (hpending : E.pending.map Link.sends = D.pending.map Link.sends)
    (hsession : E.session.map Session.footing = D.session.map Session.footing) : st.Of E where
  pending := by
    intro l' hl' hsends
    rw [hl'] at hpending
    obtain ⟨l, hl, heq⟩ := Option.map_eq_some_iff.mp hpending.symm
    exact hof.pending l hl (heq.trans hsends)
  session := by
    intro s' hs' hsends
    rw [hs'] at hsession
    obtain ⟨s, hs, heq⟩ := Option.map_eq_some_iff.mp hsession.symm
    simp only [Session.footing, Prod.mk.injEq] at heq
    rw [hof.session s hs (heq.1.trans hsends), Session.inLobby, Session.inLobby, heq.2.1, heq.2.2]

theorem waits_still (hpending : E.pending.map Link.sends = D.pending.map Link.sends)
    (hwaits : D.Waits) : E.Waits := by
  obtain ⟨l, hl, hsends⟩ := hwaits
  rw [hl] at hpending
  obtain ⟨l', hl', heq⟩ := Option.map_eq_some_iff.mp hpending
  exact ⟨l', hl', heq.trans hsends⟩

theorem advances_shut (he : e = .shut c) (hmail : E.mail = D.mail)
    (hpending : E.pending.map Link.sends = D.pending.map fun _ => false)
    (hsession : E.session.map Session.footing
      = D.session.map fun s => (false, s.room, s.observing)) : Advances c e st st D E [] := by
  refine advances_silent hmail ⟨fun l' hl' hsends => ?_, fun s' hs' hsends => ?_⟩
    (fun _ => Or.inr (Or.inr he)) ?_
  · rw [hl'] at hpending
    obtain ⟨l, _, heq⟩ := Option.map_eq_some_iff.mp hpending.symm
    exact absurd hsends (by rw [← heq]; decide)
  · rw [hs'] at hsession
    obtain ⟨s, _, heq⟩ := Option.map_eq_some_iff.mp hsession.symm
    simp only [Session.footing, Prod.mk.injEq] at heq
    exact absurd hsends (by rw [← heq.1]; decide)
  · cases hs : D.session with
    | none => exact stays_of_none hs
    | some s =>
        rw [hs] at hsession
        obtain ⟨s', hs', heq⟩ := Option.map_eq_some_iff.mp hsession
        simp only [Session.footing, Prod.mk.injEq] at heq
        exact stays_of_same hs hs' heq.2.1 heq.2.2

/-- A new connection is sent the test. -/
theorem advances_come {payload : Octets} (hl : l.sends = true) (hunknown : D.Unknown) :
    Advances c e .new .waiting D ⟨some l, none, D.mail ++ [.note "NetworkDelayTest" payload]⟩
      [.note "NetworkDelayTest" payload] := by
  have hcues : [Mail.note "NetworkDelayTest" payload].map Mail.cue = [.test] :=
    congrArg (· :: []) (Mail.cue_note (by decide) payload)
  obtain ⟨hin, hout⟩ := stays_of_none
    (E := ⟨some l, none, D.mail ++ [.note "NetworkDelayTest" payload]⟩) hunknown.2
  exact {
    mail := rfl
    run := by rw [hcues]; rfl
    of := ⟨fun _ _ _ => rfl, fun _ hs => (nomatch hs)⟩
    settled := fun _ => by decide
    idle := fun _ hunknown' => nomatch hunknown'.1
    waits := fun _ => Or.inl ⟨l, rfl, hl⟩
    greets := fun hsetup => absurd hsetup (by rw [hcues]; decide)
    goesIn := iff_of_false (by rw [hcues]; decide) hin
    goesOut := iff_of_false (by rw [hcues]; decide) hout }

/-- Who has signed up is greeted, if the link takes frames. -/
theorem advances_greet (hapart : D.pending.isSome → D.session = none) (hof : st.Of D)
    (hl : D.pending = some l) (hwhole : l.isBrief = false) (hs : s.link = l) (hlobby : s.inLobby = true)
    (setup settings : Octets) :
    Advances c e st (if l.sends then .lobby else st) D
      ⟨none, some s, D.mail ++ l.posts [.note "Setup" setup, .note "SetServerSettings" settings]⟩
      (l.posts [.note "Setup" setup, .note "SetServerSettings" settings]) := by
  have hstays := stays_of_none (E := ⟨none, some s, D.mail
    ++ l.posts [.note "Setup" setup, .note "SetServerSettings" settings]⟩) (hapart (by rw [hl]; rfl))
  have hcues : [Mail.note "Setup" setup, .note "SetServerSettings" settings].map Mail.cue
      = [.setup, .settings] :=
    congrArg₂ (fun x y => [x, y]) (Mail.cue_note (by decide) setup) (Mail.cue_note (by decide) settings)
  cases hsends : l.sends with
  | false =>
      -- a link that takes nothing more has not been greeted, and its stage stays
      rw [posts_of_closed hsends, List.append_nil] at hstays ⊢
      refine advances_silent rfl ⟨fun _ hl => (nomatch hl), fun s' hs' hopen => ?_⟩
        (fun ⟨l', hl', hopen⟩ => ?_) hstays
      · cases hs'
        rw [hs, hsends] at hopen
        cases hopen
      · cases hl.symm.trans hl'
        rw [hsends] at hopen
        cases hopen
  | true =>
      rw [posts_of_sends hsends] at hstays ⊢
      exact {
        mail := rfl
        run := by rw [hof.pending l hl hsends, hcues]; rfl
        of := by
          refine ⟨fun _ hl => (nomatch hl), fun s' hs' _ => ?_⟩
          cases hs'
          rw [hlobby]
          rfl
        settled := fun _ => show Stage.lobby.Settled by decide
        idle := fun hunknown => absurd hunknown (not_unknown_of_pending hl)
        waits := fun hst => nomatch hst
        greets := fun _ => ⟨l, hl, Or.inl ⟨hwhole, hcues, rfl⟩⟩
        goesIn := iff_of_false (by rw [hcues]; decide) hstays.1
        goesOut := iff_of_false (by rw [hcues]; decide) hstays.2 }

/-- A player is told that it enters a room. -/
theorem advances_enter (hapart : D.pending.isSome → D.session = none) (hof : st.Of D)
    (hs : D.session = some s) (henters : s.Enters s') (payload : Octets) :
    Advances c e st (if s.link.sends then .inside else st) D
      ⟨D.pending, some s', D.mail ++ s.link.posts [.note "EnterRoom" payload]⟩
      (s.link.posts [.note "EnterRoom" payload]) := by
  have hcues : [Mail.note "EnterRoom" payload].map Mail.cue = [.enterRoom] :=
    congrArg (· :: []) (Mail.cue_note (by decide) payload)
  obtain ⟨hin, hout⟩ := goes_of_enters
    (E := ⟨D.pending, some s', D.mail ++ s.link.posts [.note "EnterRoom" payload]⟩) hs rfl henters
  refine advances_player hapart hof hs ?_ (Or.inr (Or.inl rfl)) (by rw [hcues]; decide)
    (fun t ht hsends => ?_) (hin.trans (and_iff_left (by rw [hcues]; decide)).symm)
    (iff_of_false hout fun h => absurd h.2 (by rw [hcues]; decide))
  · rw [henters.before, hcues]
    rfl
  · cases ht
    rw [henters.after]
    exact ⟨henters.sends ▸ hsends, rfl⟩

/-- A player is told that it is in the lobby again, perhaps after an error. -/
theorem advances_back (hapart : D.pending.isSome → D.session = none) (hof : st.Of D)
    (hs : D.session = some s) (hreturns : s.Returns s') {first : List Mail} (hfirst : Apology first) :
    Advances c e st (if s.link.sends then .lobby else st) D
      ⟨D.pending, some s', D.mail ++ s.link.posts (first ++ [.note "EnterLobby" []])⟩
      (s.link.posts (first ++ [.note "EnterLobby" []])) := by
  have hcues : (first ++ [Mail.note "EnterLobby" []]).map Mail.cue = [.enterLobby]
      ∨ (first ++ [Mail.note "EnterLobby" []]).map Mail.cue = [.error, .enterLobby] := by
    have hlast : [Mail.note "EnterLobby" []].map Mail.cue = [.enterLobby] :=
      congrArg (· :: []) (Mail.cue_note (by decide) [])
    rw [List.map_append, hlast]
    exact (cues_apology hfirst).imp (fun heq => by rw [heq]; rfl) fun heq => by rw [heq]; rfl
  obtain ⟨hin, hout⟩ := goes_of_returns (E := ⟨D.pending, some s',
    D.mail ++ s.link.posts (first ++ [.note "EnterLobby" []])⟩) hs rfl hreturns
  refine advances_player hapart hof hs ?_ (Or.inl rfl) ?_ (fun t ht hsends => ?_)
    (iff_of_false hin fun h => absurd h.2 ?_) (hout.trans (and_iff_left ?_).symm)
  · rw [inLobby_of_returns hreturns]
    rcases hcues with hcues | hcues <;> rw [hcues] <;> rfl
  · rcases hcues with hcues | hcues <;> rw [hcues] <;> decide
  · cases ht
    rw [hreturns.after]
    exact ⟨hreturns.sends ▸ hsends, rfl⟩
  · rcases hcues with hcues | hcues <;> rw [hcues] <;> decide
  · rcases hcues with hcues | hcues <;> rw [hcues] <;> decide

/-- One who watches is told to be in the lobby, and is gone. -/
theorem advances_quit (hapart : D.pending.isSome → D.session = none) (hof : st.Of D)
    (hs : D.session = some s) (hview : s.observing.isSome = true) :
    Advances c e st (if s.link.sends then .lobby else st) D
      ⟨D.pending, none, D.mail ++ s.link.posts [.note "EnterLobby" []]⟩
      (s.link.posts [.note "EnterLobby" []]) := by
  have hcues : [Mail.note "EnterLobby" []].map Mail.cue = [.enterLobby] :=
    congrArg (· :: []) (Mail.cue_note (by decide) [])
  have hinside : s.inLobby = false := Bool.eq_false_iff.mpr fun hin => by
    rw [(Registry.inLobby_iff.mp hin).2] at hview
    cases hview
  obtain ⟨hin, hout⟩ := goes_of_loses
    (E := ⟨D.pending, none, D.mail ++ s.link.posts [.note "EnterLobby" []]⟩) hs rfl
  refine advances_player hapart hof hs ?_ (Or.inl rfl) (by rw [hcues]; decide) (fun t ht => nomatch ht)
    (iff_of_false hin fun h => absurd h.2 (by rw [hcues]; decide))
    (hout.trans (and_congr_right fun _ => iff_of_true hview (by rw [hcues]; decide)))
  rw [hinside, hcues]
  rfl

/-- A player is told of an error at most, and does not move but that the session may be lost. -/
theorem advances_apology (hapart : D.pending.isSome → D.session = none) (hof : st.Of D)
    (hs : D.session = some s) {o : Option Session} (ho : o = some s ∨ o = none ∧ s.observing = none)
    {first : List Mail} (hfirst : Apology first) :
    Advances c e st (if s.link.sends then if s.inLobby then .lobby else .inside else st) D
      ⟨D.pending, o, D.mail ++ s.link.posts first⟩ (s.link.posts first) := by
  have hcues := cues_apology hfirst
  have hstays : ¬ D.GoesIn ⟨D.pending, o, D.mail ++ s.link.posts first⟩
      ∧ ¬ D.GoesOut ⟨D.pending, o, D.mail ++ s.link.posts first⟩ := by
    rcases ho with rfl | ⟨rfl, hview⟩
    · exact stays_of_same hs rfl rfl rfl
    · refine (goes_of_loses hs rfl).imp id fun hout hgoes => ?_
      have hsome := (hout.mp hgoes).2
      rw [hview] at hsome
      cases hsome
  refine advances_player hapart hof hs ?_ ?_ ?_ (fun t ht hsends => ?_)
    (iff_of_false hstays.1 fun h => absurd h.2 ?_) (iff_of_false hstays.2 fun h => absurd h.2 ?_)
  · rcases hcues with hcues | hcues <;> rw [hcues] <;> split <;> rfl
  · split
    · exact Or.inl rfl
    · exact Or.inr (Or.inl rfl)
  · rcases hcues with hcues | hcues <;> rw [hcues] <;> decide
  · rcases ho with rfl | ⟨rfl, _⟩
    · cases ht
      exact ⟨hsends, rfl⟩
    · cases ht
  · rcases hcues with hcues | hcues <;> rw [hcues] <;> decide
  · rcases hcues with hcues | hcues <;> rw [hcues] <;> decide

/-- A player is told that the connection is closed. -/
theorem advances_kick (hapart : D.pending.isSome → D.session = none) (hof : st.Of D)
    (hs : D.session = some s) (hsame : s'.footing = (false, s.room, s.observing)) :
    Advances c e st (if s.link.sends then .closed else st) D
      ⟨D.pending, some s', D.mail ++ s.link.posts [.close]⟩ (s.link.posts [.close]) := by
  simp only [Session.footing, Prod.mk.injEq] at hsame
  obtain ⟨hin, hout⟩ := stays_of_same (E := ⟨D.pending, some s', D.mail ++ s.link.posts [.close]⟩)
    hs rfl hsame.2.1 hsame.2.2
  refine advances_player hapart hof hs ?_ (Or.inr (Or.inr rfl)) (by decide) (fun t ht hsends => ?_)
    (iff_of_false hin fun h => absurd h.2 (by decide))
    (iff_of_false hout fun h => absurd h.2 (by decide))
  · split <;> rfl
  · cases ht
    rw [hsame.1] at hsends
    cases hsends

/-- **Whatever becomes of a connection, what it is sent goes with it.** -/
theorem advances_of_fate (hfate : Fate c e D E) (hapart : D.pending.isSome → D.session = none)
    (hof : st.Of D) (hnew : D.Unknown → E.pending.isSome → st = .new) :
    ∃ st' new, Advances c e st st' D E new := by
  -- each fate with its own letters, and the stage they lead to if the link takes them
  cases hfate with
  | still hmail hpending _ hsession =>
      exact ⟨st, [], advances_silent hmail (of_still hof hpending hsession)
        (fun hwaits => Or.inl (waits_still hpending hwaits)) (stays_of_footing hsession)⟩
  | come _ hl _ hpending hsession =>
      rw [hnew ⟨hpending, hsession⟩ rfl]
      exact ⟨_, _, advances_come hl ⟨hpending, hsession⟩⟩
  | expire hl =>
      exact ⟨_, _, advances_over hapart hof hl (o := none) (fun _ hnone => nomatch hnone) .none⟩
  | refuse hl =>
      exact ⟨_, _, advances_over hapart hof hl (o := none) (fun _ hnone => nomatch hnone) (.dialog _)⟩
  | @lapse l hl hgone =>
      have hsession := hapart (by rw [hl]; rfl)
      refine ⟨st, [], advances_silent rfl (of_unknown st ⟨rfl, hsession⟩) (fun ⟨l', hl', hsends⟩ => ?_)
        (stays_of_none hsession)⟩
      cases hl.symm.trans hl'
      refine Or.inr (Or.inl (hgone.resolve_right fun hclosed => ?_))
      rw [hsends] at hclosed
      cases hclosed
  | greet hl hwhole hs hlobby => exact ⟨_, _, advances_greet hapart hof hl hwhole hs hlobby _ _⟩
  | cut hl hbrief => exact ⟨_, _, advances_cut hapart hof hl hbrief _⟩
  | shut he hmail hpending _ hsession => exact ⟨_, _, advances_shut he hmail hpending hsession⟩
  | kick hs hsame => exact ⟨_, _, advances_kick hapart hof hs hsame⟩
  | @kickPending l l' hl hs hclosed _ =>
      have hover := advances_over (c := c) (e := e) hapart hof hl (o := some l')
        (fun _ hl' => by cases hl'; exact hclosed) .none
      rw [hs] at hover
      exact ⟨_, _, hover⟩
  | @warn s payload hs =>
      have hwarn := advances_apology (c := c) (e := e) hapart hof hs (Or.inl rfl) (.dialog payload)
      rw [← hs] at hwarn
      exact ⟨_, _, hwarn⟩
  | enter hs henters => exact ⟨_, _, advances_enter hapart hof hs henters _⟩
  | back hs hreturns hfirst => exact ⟨_, _, advances_back hapart hof hs hreturns hfirst⟩
  | quit hs hview => exact ⟨_, _, advances_quit hapart hof hs hview⟩
  | drop hs hview hfirst =>
      exact ⟨_, _, advances_apology hapart hof hs (Or.inr ⟨rfl, hview⟩) hfirst⟩

/-- The queue of a connection is not shut soon by itself. -/
theorem brief_of_fate (hfate : Fate c e D E) {l' : Link} (hl' : E.pending = some l')
    (hbrief : l'.isBrief = true) : e = .shutSoon c ∨ ∃ l, D.pending = some l ∧ l.isBrief = true := by
  have hkept : ∀ {o : Option Link}, E.pending.map Link.isBrief = o.map Link.isBrief →
      ∃ l, o = some l ∧ l.isBrief = true := by
    intro o hmap
    rw [hl'] at hmap
    obtain ⟨l, hl, heq⟩ := Option.map_eq_some_iff.mp hmap.symm
    exact ⟨l, hl, heq.trans hbrief⟩
  cases hfate with
  | still _ _ hkeeps => exact hkeeps.imp id hkept
  | shut _ _ _ hkeeps => exact Or.inr (hkept hkeeps)
  | come _ _ hwhole =>
      cases hl'
      cases hwhole.symm.trans hbrief
  | kickPending hl _ _ hsame =>
      cases hl'
      exact Or.inr ⟨_, hl, hsame ▸ hbrief⟩
  | expire | refuse | lapse | greet | cut => cases hl'
  | kick | warn | enter | back | quit | drop => exact Or.inr ⟨l', hl', hbrief⟩

end advances

end Hall

end GameHall
