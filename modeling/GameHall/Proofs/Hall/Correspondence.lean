import GameHall.Proofs.Hall.Advances

/-!
# What a connection is sent in a run

Every event takes a connection further in good order (`arrived_snoc`). So a player's client can tell from
the latest of its moves whether the player is in the lobby (`correspondences_run`). A greeting is whole
unless the queue shuts in the middle of it (`brokenOff_shutSoon`).

What an engine has sent to a player is left out, as it may look like anything.
-/

namespace GameHall

namespace Hall

/-! ## Runs -/

/-- What an event sends to a connection. -/
def mailOf (h : Hall) (e : Event) (c : Int) : List Mail := ((h.step e).mail c).drop (h.mail c).length

/-- What the events of a run that `p` tells send to a connection. -/
def mailing (h : Hall) (p : Event → Bool) (c : Int) : List Event → List Mail
  | [] => []
  | e :: events => (if p e then h.mailOf e c else []) ++ (h.step e).mailing p c events

/-- What a connection is sent in a run, but at the wish of an engine. -/
def cues (h : Hall) (c : Int) (events : List Event) : List Cue :=
  (h.mailing (fun e => !e.isAsked) c events).map Mail.cue

section runs

variable {h g : Hall} {c : Int} {e : Event} {past part : List Event} {st : Stage}

theorem mailOf_eq {new : List Mail} (hmail : (h.step e).mail c = h.mail c ++ new) :
    h.mailOf e c = new := by
  rw [mailOf, hmail, List.drop_left]

theorem mailing_snoc (h : Hall) (p : Event → Bool) (c : Int) (past : List Event) (e : Event) :
    h.mailing p c (past ++ [e]) = h.mailing p c past ++ if p e then (h.run past).mailOf e c else [] := by
  induction past generalizing h with
  | nil => exact List.append_nil _
  | cons e' past ih =>
      rw [List.cons_append, mailing, mailing, ih, List.append_assoc]
      rfl

theorem cues_snoc (h : Hall) (c : Int) (past : List Event) (e : Event) : h.cues c (past ++ [e])
    = h.cues c past ++ if e.isAsked then [] else ((h.run past).mailOf e c).map Mail.cue := by
  rw [cues, mailing_snoc, List.map_append]
  refine congrArg (h.cues c past ++ ·) ?_
  cases e.isAsked <;> rfl

/-- How far a connection has come in a part of a run. -/
structure Arrived (g : Hall) (c : Int) (part : List Event) (st : Stage) : Prop where
  after : Stage.after? (g.cues c part) = some st
  of : st.Of ((g.run part).dossier c)
  settled : st.Settled
  new : c ∉ g.comers part → st = .new
  waits : st = .waiting →
    ((g.run part).dossier c).Waits ∨ .closed c ∈ part ∨ .shut c ∈ part
  brief : ∀ l, ((g.run part).dossier c).pending = some l → l.isBrief = true → .shutSoon c ∈ part

theorem unknown_dossier (hc : ¬ h.registry.Known c) : (h.dossier c).Unknown :=
  ⟨Option.not_isSome_iff_eq_none.mp fun hp => hc (Or.inl hp),
    Option.not_isSome_iff_eq_none.mp fun hs => hc (Or.inr hs)⟩

/-- Whoever is known after an event and was not before has come with it. -/
theorem comes_of_known (hb : h.ledger.Balanced) (hbefore : (h.dossier c).Unknown)
    (hafter : (h.step e).registry.Known c) : c ∈ h.comers [e] := by
  have hunknown : ¬ h.registry.Known c := fun hc => hc.elim
    (fun hp => by rw [show h.registry.pending c = none from hbefore.1] at hp; cases hp)
    fun hs => by rw [show h.registry.session c = none from hbefore.2] at hs; cases hs
  have hrun : (h.run [e]).registry.Known c := hafter
  exact (known_run hb hrun).resolve_left hunknown

/-- An engine's wish brings nobody further. -/
theorem arrived_asked (hasked : e.isAsked = true) (h : g.Arrived c part st) :
    g.Arrived c (part ++ [e]) st := by
  have haside := aside_step (g.run part) c hasked
  have hpending : ((g.run (part ++ [e])).dossier c).pending.map Link.sends
      = ((g.run part).dossier c).pending.map Link.sends := by
    rw [run_append]
    exact congrArg (Option.map Link.sends) haside.pending
  refine ⟨?_, ?_, h.settled, fun hnew => h.new fun hmem => hnew ?_, fun hst => ?_, fun l hl hbrief => ?_⟩
  · rw [cues_snoc, hasked, if_pos rfl, List.append_nil]
    exact h.after
  · refine of_still h.of hpending ?_
    rw [run_append]
    exact haside.session
  · rw [comers_append]
    exact List.mem_append_left _ hmem
  · exact (h.waits hst).imp (waits_still hpending) fun hgone =>
      hgone.imp (List.mem_append_left _) (List.mem_append_left _)
  · rw [run_append] at hl
    exact List.mem_append_left _ (h.brief l (haside.pending ▸ hl) hbrief)

/-- **Every event takes a connection further in good order.** -/
theorem arrived_snoc (hb : g.ledger.Balanced) (hunknown : ¬ g.registry.Known c)
    (ht : (g.run part).registry.Tracked c) (hunrepeated : (g.run part).registry.Unrepeated c)
    (honce : (g.comers (part ++ [e])).count c ≤ 1) (hasked : e.isAsked = false)
    (h : g.Arrived c part st) :
    ∃ st' new, g.Arrived c (part ++ [e]) st'
      ∧ Advances c e st st' ((g.run part).dossier c) (((g.run part).step e).dossier c) new := by
  have hb' := balanced_run hb part
  have hunshared := unshared_of_once hb hunknown honce
  have hfate := fate_step hb' ht hunrepeated (hunshared part e [] rfl) hasked
  obtain ⟨st', new, hadvances⟩ := advances_of_fate hfate ht.apart h.of fun hbefore hafter => by
    -- the number has not been given in this part before
    have hcomes := comes_of_known hb' hbefore (Or.inl hafter)
    rw [comers_append, List.count_append] at honce
    have hpos := List.count_pos_iff.mpr hcomes
    exact h.new (List.count_eq_zero.mp (by omega))
  have hmail : (g.run part).mailOf e c = new := mailOf_eq hadvances.mail
  refine ⟨st', new, ⟨?_, ?_, hadvances.settled h.settled, fun hnew => ?_, fun hst => ?_,
    fun l hl hbrief => ?_⟩, hadvances⟩
  · rw [cues_snoc, hasked, if_neg Bool.false_ne_true, Stage.after?_append, h.after, hmail]
    exact hadvances.run
  · rw [run_append]
    exact hadvances.of
  · have hbefore : c ∉ g.comers part := fun hmem => hnew (by
      rw [comers_append]
      exact List.mem_append_left _ hmem)
    have hnever : ∀ events, c ∉ g.comers events → ((g.run events).dossier c).Unknown := fun events hnone =>
      unknown_dossier fun hc => (known_run hb hc).elim hunknown hnone
    have hlater := hnever (part ++ [e]) hnew
    rw [run_append] at hlater
    exact (hadvances.idle (hnever part hbefore) hlater).trans (h.new hbefore)
  · rw [run_append]
    rcases hadvances.waits hst with hwaits | ⟨hst, hgone⟩
    · exact Or.inl hwaits
    · refine Or.inr ((h.waits hst).elim (fun hwaits => ?_) fun hbefore => ?_)
      · exact (hgone hwaits).imp (fun he => by simp [he]) fun he => by simp [he]
      · exact hbefore.imp (List.mem_append_left _) (List.mem_append_left _)
  · rw [run_append] at hl
    rcases brief_of_fate hfate hl hbrief with he | ⟨l', hl', hbrief'⟩
    · simp [he]
    · exact List.mem_append_left _ (h.brief l' hl' hbrief')

theorem once_of_append {before after : List Event} (honce : (g.comers (before ++ after)).count c ≤ 1) :
    (g.comers before).count c ≤ 1 := by
  rw [comers_append, List.count_append] at honce
  omega

/-- **A run takes a connection from one stage to the next**, for a number that nobody had before. -/
theorem arrived_run (hb : g.ledger.Balanced) (hunknown : ¬ g.registry.Known c)
    (ht : g.registry.Tracked c) (hunrepeated : g.registry.Unrepeated c)
    (honce : (g.comers part).count c ≤ 1) : ∃ st, g.Arrived c part st := by
  induction part using List.reverseRecOn with
  | nil =>
      exact ⟨.new, rfl, of_unknown _ (unknown_dossier hunknown), by decide, fun _ => rfl,
        fun hst => (nomatch hst), fun _ hl => nomatch (unknown_dossier hunknown).1.symm.trans hl⟩
  | append_singleton part e ih =>
      have honce' := once_of_append honce
      obtain ⟨st, harrived⟩ := ih honce'
      have hunshared := unshared_of_once hb hunknown honce'
      cases hasked : e.isAsked with
      | true => exact ⟨st, arrived_asked hasked harrived⟩
      | false =>
          obtain ⟨st', _, harrived', _⟩ := arrived_snoc hb hunknown (tracked_run hb ht hunshared)
            (unrepeated_run hb ht hunrepeated hunshared) honce hasked harrived
          exact ⟨st', harrived'⟩

/-- What holds of the mail of a connection in a part of a run. -/
structure Correspondence (g : Hall) (c : Int) (part : List Event) : Prop where
  /-- But for what engines want, it is in good order. -/
  order : InOrder (g.cues c part)
  /-- If all is the test, the connection is pending, or the client has gone. -/
  waits : g.cues c part = [.test] →
    ((g.run part).registry.pending c).isSome ∨ .closed c ∈ part ∨ .shut c ∈ part
  /-- Who is told of itself is told of the server and has signed up, unless the queue of the connection
  shuts in between. -/
  greets : ∀ before e after, part = before ++ e :: after → e.isAsked = false →
    .setup ∈ ((g.run before).mailOf e c).map Mail.cue →
    ((g.run before).dossier c).Greeted (((g.run before).step e).dossier c)
      (((g.run before).mailOf e c).map Mail.cue)
  /-- No queue is about to shut, but where that has happened. -/
  brief : ∀ before after l, part = before ++ after → (g.run before).registry.pending c = some l →
    l.isBrief = true → .shutSoon c ∈ before
  /-- A player is told to enter a room just when that happens. -/
  goesIn : ∀ before e after, part = before ++ e :: after → e.isAsked = false →
    (.enterRoom ∈ ((g.run before).mailOf e c).map Mail.cue
      ↔ ((g.run before).dossier c).GoesIn (((g.run before).step e).dossier c))
  goesOut : ∀ before e after, part = before ++ e :: after → e.isAsked = false →
    (.enterLobby ∈ ((g.run before).mailOf e c).map Mail.cue
      ↔ ((g.run before).dossier c).GoesOut (((g.run before).step e).dossier c))
  /-- As long as the link takes frames, the latest of the moves tells where the player is. -/
  place : ∀ before after s, part = before ++ after → (g.run before).session? c = some s →
    s.link.sends = true →
    (((g.cues c before).filter Cue.isMove).getLast? = some .enterRoom ↔ s.inLobby = false)
  /-- Engines reach none but players. -/
  strangers : ∀ before e after, part = before ++ e :: after → e.isAsked = true →
    (g.run before).session? c = none → (g.run before).mailOf e c = []
  /-- There is no other mail. -/
  complete : (g.run part).mail c = g.mail c ++ g.mailing (fun _ => true) c part

/-- Any event of a run takes a connection further, with the mail of that event. -/
theorem advances_run (hb : g.ledger.Balanced) (hunknown : ¬ g.registry.Known c)
    (ht : g.registry.Tracked c) (hunrepeated : g.registry.Unrepeated c) {before after : List Event}
    (honce : (g.comers (before ++ e :: after)).count c ≤ 1) (hasked : e.isAsked = false) :
    ∃ st st', Advances c e st st' ((g.run before).dossier c) (((g.run before).step e).dossier c)
      ((g.run before).mailOf e c) := by
  rw [List.append_cons before e after] at honce
  have honce' := once_of_append honce
  have hunshared := unshared_of_once hb hunknown (once_of_append honce')
  obtain ⟨st, harrived⟩ := arrived_run hb hunknown ht hunrepeated (once_of_append honce')
  obtain ⟨st', new, _, hadvances⟩ := arrived_snoc hb hunknown (tracked_run hb ht hunshared)
    (unrepeated_run hb ht hunrepeated hunshared) honce' hasked harrived
  exact ⟨st, st', mailOf_eq hadvances.mail ▸ hadvances⟩

/-- What a connection has been sent is what events have sent it. -/
theorem mail_run (hb : g.ledger.Balanced) (hunknown : ¬ g.registry.Known c)
    (ht : g.registry.Tracked c) (hunrepeated : g.registry.Unrepeated c)
    (honce : (g.comers part).count c ≤ 1) :
    (g.run part).mail c = g.mail c ++ g.mailing (fun _ => true) c part := by
  induction part using List.reverseRecOn with
  | nil => exact (List.append_nil _).symm
  | append_singleton part e ih =>
      have hmail : ∃ new, ((g.run part).step e).mail c = (g.run part).mail c ++ new := by
        cases hasked : e.isAsked with
        | true =>
            obtain ⟨new, hmail, _⟩ := (aside_step (g.run part) c hasked).mail
            exact ⟨new, hmail⟩
        | false =>
            obtain ⟨_, _, hadvances⟩ := advances_run hb hunknown ht hunrepeated honce hasked
            exact ⟨_, hadvances.mail⟩
      obtain ⟨new, hmail⟩ := hmail
      rw [run_append, mailing_snoc, if_pos rfl, mailOf_eq hmail, ← List.append_assoc,
        ← ih (once_of_append honce)]
      exact hmail

theorem correspondence_of_unknown (hb : g.ledger.Balanced) (hunknown : ¬ g.registry.Known c)
    (ht : g.registry.Tracked c) (hunrepeated : g.registry.Unrepeated c)
    (honce : (g.comers part).count c ≤ 1) : g.Correspondence c part := by
  obtain ⟨st, harrived⟩ := arrived_run hb hunknown ht hunrepeated honce
  -- the stage at each event is one the connection had reached before it
  have hadvances : ∀ before e after, part = before ++ e :: after → e.isAsked = false →
      ∃ st st', Advances c e st st' ((g.run before).dossier c) (((g.run before).step e).dossier c)
        ((g.run before).mailOf e c) := by
    rintro before e after rfl hasked
    exact advances_run hb hunknown ht hunrepeated honce hasked
  exact {
    order := Stage.inOrder_of_fits (Stage.fits_of_after? harrived.after) harrived.settled
    waits := by
      intro hcues
      have hafter := harrived.after
      rw [hcues] at hafter
      refine (harrived.waits (Option.some.inj hafter).symm).imp_left fun ⟨l, hl, _⟩ => ?_
      exact Option.isSome_iff_exists.mpr ⟨l, hl⟩
    greets := by
      intro before e after heq hasked
      obtain ⟨_, _, hadvances⟩ := hadvances before e after heq hasked
      exact hadvances.greets
    brief := by
      rintro before after l rfl hl hbrief
      obtain ⟨_, harrived⟩ := arrived_run hb hunknown ht hunrepeated (once_of_append honce)
      exact harrived.brief l hl hbrief
    goesIn := by
      intro before e after heq hasked
      obtain ⟨_, _, hadvances⟩ := hadvances before e after heq hasked
      exact hadvances.goesIn
    goesOut := by
      intro before e after heq hasked
      obtain ⟨_, _, hadvances⟩ := hadvances before e after heq hasked
      exact hadvances.goesOut
    place := by
      rintro before after s rfl hs hsends
      obtain ⟨st, harrived⟩ := arrived_run hb hunknown ht hunrepeated (once_of_append honce)
      have hlatest := (Stage.fits_of_after? harrived.after).latest
      rw [harrived.of.session s hs hsends] at hlatest
      cases hlobby : s.inLobby with
      | true =>
          rw [hlobby] at hlatest
          exact (hlatest (by decide)).trans (iff_of_false (by decide) (by decide))
      | false =>
          rw [hlobby] at hlatest
          exact (hlatest (by decide)).trans (iff_of_true rfl rfl)
    strangers := by
      intro before e after _ hasked hs
      obtain ⟨new, hmail, hnone⟩ := (aside_step (g.run before) c hasked).mail
      rw [mailOf_eq hmail]
      exact hnone hs
    complete := mail_run hb hunknown ht hunrepeated honce }

/-- What holds of the mail of a run. -/
structure Correspondences (h : Hall) (events : List Event) : Prop where
  /-- It is in good order in any part of the run in which a number stands for one connection. -/
  part : ∀ c past part future, events = past ++ part ++ future → h.Unshared c past →
    ¬ (h.run past).registry.Known c → ((h.run past).comers part).count c ≤ 1 →
    (h.run past).Correspondence c part
  /-- That is the whole of a run before the greatest number has been given. -/
  whole : h.lastConnection + accepted events ≤ maxConnection → ∀ c, h.Correspondence c events

/-- **What a connection is sent is in good order and tells where its player is**, whatever happens. -/
theorem correspondences_run (authenticator : Authenticator) (settings : Settings) (fingerprint : String)
    (epoch : Int) (events : List Event) :
    (new authenticator settings fingerprint epoch).Correspondences events := by
  have hb := balanced_new authenticator settings fingerprint epoch
  exact {
    part := by
      intro c past part future _ hunshared hunknown honce
      have ht := tracked_new authenticator settings fingerprint epoch c
      have hunrepeated := unrepeated_new authenticator settings fingerprint epoch c
      exact correspondence_of_unknown (balanced_run hb past) hunknown (tracked_run hb ht hunshared)
        (unrepeated_run hb ht hunrepeated hunshared) honce
    whole := by
      intro hfew c
      exact correspondence_of_unknown hb (unknown_new authenticator settings fingerprint epoch c)
        (tracked_new authenticator settings fingerprint epoch c)
        (unrepeated_new authenticator settings fingerprint epoch c)
        (List.nodup_iff_count_le_one.mp (nodup_comers hb events hfew).1 c) }

/-- A client asks to be let in, and its queue shuts behind the first frame of the greeting. -/
def brokenOff : List Event := [.accept (.v4 10 0 0 1), .shutSoon 1, .record 1 (helloRecord "amy")]

/-- **A greeting may be broken off**: a queue that takes its first frame may be shut before its second. -/
theorem brokenOff_shutSoon :
    (new (.openToAll []) .initial "rules" 0).cues 1 brokenOff = [.test, .setup, .close]
    ∧ ¬ Unbroken ((new (.openToAll []) .initial "rules" 0).cues 1 brokenOff) := by
  have hcues : (new (.openToAll []) .initial "rules" 0).cues 1 brokenOff = [.test, .setup, .close] := by
    decide +kernel
  refine ⟨hcues, fun hwhole => ?_⟩
  rw [hcues] at hwhole
  rcases hwhole with h | h | h | h | ⟨talk, ending, h, _⟩ <;> cases h

/-- The second player watches, is back in the lobby and sits down, until the room ends. -/
example : (new (.openToAll []) .initial "rules" 0).cues 2
      (watched ++ [.record 2 (wordRecord quitCommand), .seatPlayer 2 1, .finishRoom 1])
    = [.test, .setup, .settings, .enterRoom, .enterLobby, .enterRoom, .enterLobby] := by
  decide +kernel

end runs

end Hall

end GameHall
