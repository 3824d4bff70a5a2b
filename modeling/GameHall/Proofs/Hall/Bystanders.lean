import GameHall.Proofs.Hall.Abandonment
import GameHall.Proofs.Hall.Bans
import GameHall.Proofs.Hall.Dossiers
import GameHall.Proofs.Hall.Whereabouts

/-!
# Bystanders

A connection reports records and its end, and what the hall does then is about that connection. The
others are bystanders: their sessions, their routers and what is pending of them stay as they are, and
nothing is sent to them (`dossier_hear_of_ne`).

There is one way in which the end of a connection reaches others. If it was the last player of its room
who was connected, and nobody would answer because the engine is gone or has old rules, the room ends
(`Forsakes`). That concerns those who watched it and those who kept a seat there, and nobody else
(`dossier_closed_of_ne`).
-/

namespace GameHall

namespace Dossier

/-- The player has been sent back to the lobby, perhaps more than once, or has lost the session. -/
structure SentBack (D D' : Dossier) : Prop where
  pending : D'.pending = D.pending
  mail : ∃ new, D'.mail = D.mail ++ new ∧ ∀ m ∈ new, m = .note "EnterLobby" []

variable {D D' D'' : Dossier}

theorem sentBack_refl (D : Dossier) : D.SentBack D :=
  ⟨rfl, [], (List.append_nil _).symm, fun _ hm => absurd hm List.not_mem_nil⟩

theorem sentBack_trans (h : D.SentBack D') (h' : D'.SentBack D'') : D.SentBack D'' := by
  obtain ⟨hpending, new, hmail, hnew⟩ := h
  obtain ⟨hpending', new', hmail', hnew'⟩ := h'
  refine ⟨hpending'.trans hpending, new ++ new', by rw [hmail', hmail, List.append_assoc], ?_⟩
  intro m hm
  exact (List.mem_append.mp hm).elim (hnew m) (hnew' m)

theorem sentBack_post {l : Link} {o : Option Session} :
    D.SentBack ⟨D.pending, o, D.mail ++ l.posts [.note "EnterLobby" []]⟩ := by
  refine ⟨rfl, _, rfl, fun m hm => ?_⟩
  unfold Link.posts at hm
  split at hm
  · exact List.mem_singleton.mp hm
  · exact absurd hm List.not_mem_nil

theorem sentBack_unwatch (D : Dossier) : D.SentBack D.unwatch := by
  cases hs : D.session with
  | none =>
      have hsame : D.update Registry.unwatched = D := by rw [update, hs, Option.map_none, ← hs]
      rw [unwatch, hsame, tell_of_none hs]
      exact sentBack_refl D
  | some s =>
      rw [unwatch_of_some hs]
      exact sentBack_post

theorem sentBack_release (D : Dossier) : D.SentBack D.release := by
  cases hs : D.session with
  | none =>
      rw [release, hs]
      exact sentBack_refl D
  | some s =>
      cases honline : s.isOnline with
      | true =>
          rw [release_of_online hs honline]
          exact sentBack_post
      | false =>
          rw [release_of_offline hs honline]
          exact ⟨rfl, [], (List.append_nil _).symm, fun _ hm => absurd hm List.not_mem_nil⟩

theorem sentBack_iterate {F : Dossier → Dossier} (hF : ∀ D : Dossier, D.SentBack (F D)) (n : Nat) (D : Dossier) :
    D.SentBack (F^[n] D) := by
  induction n generalizing D with
  | zero => exact sentBack_refl D
  | succ n ih =>
      rw [Function.iterate_succ_apply]
      exact sentBack_trans (hF D) (ih (F D))

end Dossier

namespace Hall

variable (h : Hall) {c d : Int}

/-! ## Records -/

theorem dossier_reject_of_ne (hne : d ≠ c) (l : Link) (why : Refusal) :
    (h.reject c l why).dossier d = h.dossier d := by
  unfold reject
  dsimp only
  rw [dossier_hangUp, if_neg hne.symm, dossier_deliver, if_neg hne.symm]

theorem dossier_signUp_of_ne (hne : d ≠ c) (l : Link) (s : SignUp) (who : Credentials) :
    (h.signUp c l s who).dossier d = h.dossier d := by
  unfold signUp
  split
  · exact dossier_reject_of_ne h hne l _
  · split
    · dsimp only
      split
      · rw [dossier_hangUp, if_neg hne.symm, dossier_deliver, if_neg hne.symm]
      · rw [dossier_setSession, if_neg hne.symm, dossier_deliver, if_neg hne.symm, dossier_deliver,
          if_neg hne.symm]
    · rfl

theorem dossier_judge_of_ne (hne : d ≠ c) (l : Link) (record : Record) :
    (h.judge c l record).dossier d = h.dossier d := by
  unfold judge
  split
  · exact dossier_reject_of_ne h hne l _
  · dsimp only
    split
    · exact dossier_reject_of_ne { h with bans := h.currentBans } hne l _
    · split
      · exact dossier_reject_of_ne { h with bans := h.currentBans, asked := _ } hne l _
      · exact dossier_signUp_of_ne { h with bans := h.currentBans, asked := _ } hne l _ _

theorem dossier_setRouter_of_ne (hne : d ≠ c) (router : Router) :
    (h.setRouter c router).dossier d = h.dossier d := by
  rw [setRouter, dossier_updateSession, if_neg hne.symm]

theorem dossier_pass_of_ne (hne : d ≠ c) (place : Place) (command payload : Octets) :
    (h.pass c place command payload).dossier d = h.dossier d := by
  cases place with
  | lobby => exact dossier_act h d rfl
  | seated r => exact (remote_dossier d).forward h c r command payload
  | watching r =>
      simp only [pass]
      split
      · exact dossier_stopObserving_of_ne h d c hne.symm
      · exact (remote_dossier d).forward h c r command payload

/-- **A record is nothing to a bystander**, be it a first record, a reply or anything else. -/
theorem dossier_hear_of_ne (hne : d ≠ c) (record : Record) :
    (h.hear c record).dossier d = h.dossier d := by
  unfold hear
  split
  · rw [dossier_judge_of_ne _ hne, dossier_erasePending, if_neg hne.symm]
  · rcases route_cases h c record with heq | ⟨s, router, _, heq | heq⟩
    · rw [heq]
    · rw [heq, dossier_setRouter_of_ne h hne]
    · rw [heq, dossier_pass_of_ne _ hne, dossier_setRouter_of_ne h hne]

/-! ## The end of a connection -/

section closing

theorem isOnline_of_dossier {g : Hall} {p : Int} (heq : g.dossier p = h.dossier p) :
    g.isOnline p = h.isOnline p := by
  have hsession : g.session? p = h.session? p := congrArg Dossier.session heq
  rw [isOnline, isOnline, hsession]

theorem isCurrent_stopObserving (c id : Int) : (h.stopObserving c).isCurrent id = h.isCurrent id := by
  have htold : ∀ f : Session → Session, ((h.updateSession c f).notify c "EnterLobby" []).isCurrent id
      = h.isCurrent id :=
    fun _ => isCurrent_of_engines (unpeopled_engines.notify _ c _ _) id
  unfold stopObserving
  split
  · rfl
  · split
    · rfl
    · dsimp only
      split
      · exact htold _
      · rw [isCurrent_signal]
        exact htold _

/-- When someone stops to watch, a room loses at most that observer. -/
theorem room?_stopObserving {r : Int} {x' : Room} (hx' : (h.stopObserving c).room? r = some x') :
    ∃ x, h.room? r = some x ∧ x'.players = x.players ∧ x'.scheduler = x.scheduler
      ∧ ∀ d, d ≠ c → x'.observers.count d = x.observers.count d := by
  rcases registry_stopObserving h c with ⟨heq, _⟩ | ⟨s, q, _, _, heq⟩
  · exact ⟨x', (congrFun (congrArg Registry.room heq) r).symm.trans hx', rfl, rfl, fun _ _ => rfl⟩
  · have hx : Function.update h.registry.room q ((h.registry.room q).map fun x =>
        { x with observers := x.observers.filter fun d => decide (d ≠ c) }) r = some x' :=
      (congrFun (congrArg Registry.room heq) r).symm.trans hx'
    rw [Function.update_apply] at hx
    split at hx
    · rename_i hr
      obtain ⟨x, hsome, rfl⟩ := Option.map_eq_some_iff.mp hx
      exact ⟨x, hr ▸ hsome, rfl, rfl, fun d hd => List.count_filter (by simp [hd])⟩
    · exact ⟨x', hx, rfl, rfl, fun _ _ => rfl⟩

/-- A room that is looked at stays, and nobody notices, or it ends because none of its players is
connected and its scheduler is not current. -/
theorem dossier_checkAbandoned (r : Int) : (h.checkAbandoned r).dossier d = h.dossier d
    ∨ ∃ x, h.room? r = some x ∧ h.Abandoned x ∧ h.isCurrent x.scheduler = false
      ∧ (h.checkAbandoned r).dossier d
        = Dossier.release^[x.players.count d] (Dossier.unwatch^[x.observers.count d] (h.dossier d)) := by
  unfold checkAbandoned
  cases hx : h.room? r with
  | none => exact Or.inl rfl
  | some x =>
      dsimp only
      split
      · exact Or.inl rfl
      · rename_i hany
        -- the engine of a current scheduler is told, and decides; without one the room ends
        cases hcurrent : h.isCurrent x.scheduler with
        | true =>
            rw [if_pos rfl]
            exact Or.inl ((remote_dossier d).signal _ _ _)
        | false =>
            rw [if_neg Bool.false_ne_true]
            refine Or.inr ⟨x, rfl, fun p hp => ?_, hcurrent, ?_⟩
            · exact Bool.eq_false_iff.mpr fun honline => hany (List.any_eq_true.mpr ⟨p, hp, honline⟩)
            · have hroom : (h.askCurrent x.scheduler).existingRoom r = .ok x := by
                rw [existingRoom, show (h.askCurrent x.scheduler).room? r = some x from hx]
              rw [finishRoom, hroom]
              exact dossier_finish _ d r x

/-- The end of a connection is the end of its room: the player has a seat there, none of the others is
connected, and the scheduler of the room is not current. -/
structure Forsakes (h : Hall) (c : Int) (x : Room) : Prop where
  seat : ∃ s, h.session? c = some s ∧ s.room ≠ lobbyRoom ∧ h.room? s.room = some x
  alone : ∀ p ∈ x.players, p ≠ c → h.isOnline p = false
  stale : h.isCurrent x.scheduler = false

/-- A room is told of a player who goes, which changes no session but that of the player, and then looked
at. -/
theorem leaveSeat_eq (c r : Int) : ∃ g : Hall, h.leaveSeat c r = g.checkAbandoned r
    ∧ g.registry = h.registry.updateSession c Registry.departed ∧ (∀ d, g.mail d = h.mail d)
    ∧ ∀ id, g.isCurrent id = h.isCurrent id := by
  refine ⟨_, rfl, ?_, fun d => ?_, fun id => ?_⟩
  · split
    · exact registry_updateSession h c _
    · rw [detached_registry.signal, detached_registry.signal]
      exact registry_updateSession h c _
  · split
    · rfl
    · exact congrArg Dossier.mail (((remote_dossier d).signal _ _ _).trans ((remote_dossier d).signal _ _ _))
  · split
    · exact isCurrent_of_engines rfl id
    · rw [isCurrent_signal, isCurrent_signal]
      exact isCurrent_of_engines rfl id

theorem dossier_leaveSeat_of_ne (hne : d ≠ c) (r : Int) : (h.leaveSeat c r).dossier d = h.dossier d
    ∨ ∃ x, h.room? r = some x ∧ (∀ p ∈ x.players, p ≠ c → h.isOnline p = false)
      ∧ h.isCurrent x.scheduler = false ∧ (h.leaveSeat c r).dossier d
        = Dossier.release^[x.players.count d] (Dossier.unwatch^[x.observers.count d] (h.dossier d)) := by
  obtain ⟨g, heq, hregistry, hmail, hcurrent⟩ := leaveSeat_eq h c r
  have hother : ∀ p, p ≠ c → g.session? p = h.session? p := fun p hp =>
    (congrFun (congrArg Registry.session hregistry) p).trans
      (Registry.session_updateSession_ne hp Registry.departed)
  have hdossier : g.dossier d = h.dossier d := by
    rw [dossier, dossier, hmail d, hregistry]
    exact congrArg (Dossier.mk _ · _) (Registry.session_updateSession_ne hne Registry.departed)
  rw [heq, ← hdossier]
  refine (dossier_checkAbandoned g r).imp_right fun hended => ?_
  obtain ⟨x, hx, habandoned, hstale, hends⟩ := hended
  refine ⟨x, (congrFun (congrArg Registry.room hregistry) r).symm.trans hx, fun p hp hpc => ?_,
    (hcurrent _).symm.trans hstale, hends⟩
  have hoff := habandoned p hp
  rwa [isOnline, hother p hpc] at hoff

theorem dossier_leave_of_ne (hne : d ≠ c) : (h.leave c).dossier d = h.dossier d
    ∨ ∃ x, h.Forsakes c x ∧ (h.leave c).dossier d
        = Dossier.release^[x.players.count d] (Dossier.unwatch^[x.observers.count d] (h.dossier d)) := by
  unfold leave
  cases hs : h.session? c with
  | none => exact Or.inl rfl
  | some s =>
      dsimp only
      have hother : ∀ (f : Session → Session) (p : Int), p ≠ c →
          (h.updateSession c f).dossier p = h.dossier p := fun f p hp => by
        rw [dossier_updateSession, if_neg hp.symm]
      split
      · refine Or.inl ?_
        rw [dossier_eraseSession, if_neg hne.symm]
        exact hother _ d hne
      · rename_i hroom
        have hleft := dossier_leaveSeat_of_ne (h.updateSession c fun s =>
          { s with link := { s.link with router := s.link.router.setAccepting false } }) hne s.room
        rw [hother _ d hne] at hleft
        refine hleft.imp_right fun hended => ?_
        obtain ⟨x, hx, halone, hstale, hends⟩ := hended
        refine ⟨x, ⟨⟨s, hs, hroom, hx⟩, fun p hp hpc => ?_, hstale⟩, hends⟩
        rw [← isOnline_of_dossier h (hother _ p hpc)]
        exact halone p hp hpc

/-- **The end of a connection is nothing to a bystander**, but if a room ends with it that lists the
bystander. -/
theorem dossier_closed_of_ne (hne : d ≠ c) : (h.closed c).dossier d = h.dossier d
    ∨ ∃ x, h.Forsakes c x ∧ (h.closed c).dossier d
        = Dossier.release^[x.players.count d] (Dossier.unwatch^[x.observers.count d] (h.dossier d)) := by
  unfold closed
  split
  · refine Or.inl ?_
    rw [dossier_erasePending, if_neg hne.symm]
  · have hstopped := dossier_stopObserving_of_ne h d c hne.symm
    have hleft := dossier_leave_of_ne (h.stopObserving c) hne
    rw [hstopped] at hleft
    refine hleft.imp_right fun hended => ?_
    obtain ⟨x', ⟨⟨s', hs', hroom, hx'⟩, halone, hstale⟩, hends⟩ := hended
    obtain ⟨s, hs, rfl⟩ := session?_stopObserving hs'
    -- the room may have lost the one who is gone as an observer, and nobody else
    obtain ⟨x, hx, hplayers, hscheduler, hobservers⟩ := room?_stopObserving h hx'
    rw [isCurrent_stopObserving, hscheduler] at hstale
    rw [hplayers, hobservers d hne] at hends
    refine ⟨x, ⟨⟨s, hs, hroom, hx⟩, fun p hp hpc => ?_, hstale⟩, hends⟩
    rw [← isOnline_of_dossier h (dossier_stopObserving_of_ne h p c hpc.symm)]
    exact halone p (hplayers ▸ hp) hpc

/-- The end of a connection that nobody knows is nothing. -/
theorem closed_of_unknown (hc : ¬ h.registry.Known c) : h.closed c = h := by
  have hpending : Assoc.has h.pending c = false := Bool.eq_false_iff.mpr fun hp => hc (Or.inl hp)
  have hsession : h.session? c = none :=
    Option.not_isSome_iff_eq_none.mp fun hs => hc (Or.inr hs)
  rw [closed, hpending, if_neg Bool.false_ne_true,
    stopObserving_of_none h fun s hs => nomatch hsession.symm.trans hs]
  unfold leave
  rw [hsession]

/-- And so is a record of it. -/
theorem hear_of_unknown (hc : ¬ h.registry.Known c) (record : Record) : h.hear c record = h := by
  have hpending : Assoc.get? h.pending c = none :=
    Option.not_isSome_iff_eq_none.mp fun hp => hc (Or.inl hp)
  have hsession : h.session? c = none :=
    Option.not_isSome_iff_eq_none.mp fun hs => hc (Or.inr hs)
  rw [hear, hpending]
  dsimp only
  rw [route, hsession]

end closing

/-! ## What a report leaves alone -/

/-- What the others notice of the reports of one connection, at a moment of a run. -/
structure Spares (h : Hall) : Prop where
  /-- A bystander keeps its session, its router and what is pending of it, and is sent nothing. Else the
  connection has ended, its room has ended with it, and the bystander watched the room or is a player
  of it who is not connected. Such a one is sent back to the lobby, if at all, and not closed. -/
  others : ∀ e c d, e.reporter? = some c → d ≠ c → (h.step e).dossier d = h.dossier d
    ∨ e = .closed c ∧ ∃ x, h.Forsakes c x
      ∧ (d ∈ x.observers ∨ d ∈ x.players ∧ h.isOnline d = false)
      ∧ (h.dossier d).SentBack ((h.step e).dossier d)
  /-- A room that ends so has a scheduler whose engine is gone or has old rules. -/
  stale : ∀ c x, h.Forsakes c x → ∃ s, h.pool.get? x.scheduler = some s
    ∧ (s.health = .down ∨ s.isOutdated h.fingerprint = true)
  /-- A record, such as a reply, concerns its sender only. -/
  records : ∀ c d record, d ≠ c → (h.step (.record c record)).dossier d = h.dossier d
  /-- What nobody knows reports nothing. -/
  strangers : ∀ e c, e.reporter? = some c → ¬ h.registry.Known c → h.step e = h

theorem step_cases (h : Hall) (e : Event) : h.step e = h ∨ h.step e = h.take e := by
  unfold step
  split
  · exact Or.inl rfl
  · exact Or.inr rfl

/-- A bystander that the end of a connection is something to is listed by the room that ends with it, and
is sent back. -/
theorem sentBack_closed {h : Hall} {c d : Int} (hne : d ≠ c) :
    (h.closed c).dossier d = h.dossier d
      ∨ ∃ x, h.Forsakes c x ∧ (d ∈ x.observers ∨ d ∈ x.players ∧ h.isOnline d = false)
        ∧ (h.dossier d).SentBack ((h.closed c).dossier d) := by
  by_cases hsame : (h.closed c).dossier d = h.dossier d
  · exact Or.inl hsame
  · obtain ⟨x, hforsakes, hends⟩ := (dossier_closed_of_ne h hne).resolve_left hsame
    refine Or.inr ⟨x, hforsakes, ?_, ?_⟩
    -- whom the room does not list has nothing happen to
    · by_cases hobserver : d ∈ x.observers
      · exact Or.inl hobserver
      · refine Or.inr ?_
        by_cases hplayer : d ∈ x.players
        · exact ⟨hplayer, hforsakes.alone d hplayer hne⟩
        · rw [List.count_eq_zero.mpr hplayer, List.count_eq_zero.mpr hobserver] at hends
          exact absurd hends hsame
    · rw [hends]
      exact Dossier.sentBack_trans (Dossier.sentBack_iterate Dossier.sentBack_unwatch _ _)
        (Dossier.sentBack_iterate Dossier.sentBack_release _ _)

/-- A scheduler that is not current has no engine, or old rules. -/
theorem stale_of_forsakes {h : Hall} (hb : h.ledger.Balanced) {c : Int} {x : Room}
    (hforsakes : h.Forsakes c x) : ∃ s, h.pool.get? x.scheduler = some s
      ∧ (s.health = .down ∨ s.isOutdated h.fingerprint = true) := by
  obtain ⟨⟨s, _, _, hx⟩, _, hstale⟩ := hforsakes
  obtain ⟨sch, hsch⟩ := Option.isSome_iff_exists.mp ((accounted_of_balanced hb).hosted _ x hx)
  refine ⟨sch, hsch, ?_⟩
  rw [isCurrent, hsch] at hstale
  rcases Bool.and_eq_false_iff.mp hstale with hdead | hout
  · exact Or.inl (by simpa [Scheduler.isAlive] using hdead)
  · exact Or.inr (by simpa using hout)

theorem dossier_record_of_ne {h : Hall} {c d : Int} (hne : d ≠ c) (record : Record) :
    (h.step (.record c record)).dossier d = h.dossier d := by
  rcases step_cases h (.record c record) with heq | heq
  · rw [heq]
  · rw [heq]
    exact dossier_hear_of_ne h hne record

theorem spares_of_balanced {h : Hall} (hb : h.ledger.Balanced) : h.Spares where
  others := by
    intro e c d he hne
    cases e with
    | record c' record =>
        cases he
        exact Or.inl (dossier_record_of_ne hne record)
    | closed c' =>
        cases he
        rcases step_cases h (.closed c) with heq | heq
        · exact Or.inl (by rw [heq])
        · rw [heq]
          exact (sentBack_closed hne).imp_right fun hsent => ⟨rfl, hsent⟩
    | _ => cases he
  stale := fun _ _ hforsakes => stale_of_forsakes hb hforsakes
  records := fun _ _ record hne => dossier_record_of_ne hne record
  strangers := by
    intro e c he hc
    cases e with
    | record c' record =>
        cases he
        exact (step_cases h _).elim id fun heq => heq.trans (hear_of_unknown h hc record)
    | closed c' =>
        cases he
        exact (step_cases h _).elim id fun heq => heq.trans (closed_of_unknown h hc)
    | _ => cases he

/-- **Events of one connection leave the others alone**, at any moment of any run. -/
theorem spares_run (authenticator : Authenticator) (settings : Settings) (fingerprint : String)
    (epoch : Int) (events : List Event) :
    ((new authenticator settings fingerprint epoch).run events).Spares :=
  spares_of_balanced (balanced_run (balanced_new authenticator settings fingerprint epoch) events)

end Hall

end GameHall
