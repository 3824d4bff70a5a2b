import GameHall.Proofs.Hall.Tallies

/-!
# Bans

A ban notes until when sign-ups from an address are refused, in the place of what was noted of the address
before. So the latest ban counts: a sign-up is refused as banned just if the latest ban of its address is
not over (`bans_run`). A ban is kept for its full time unless a later one takes its place that ends sooner,
which needs settings with shorter bans (`not_always_kept`), and no address is refused beyond the end of
all its bans.
-/

namespace GameHall

namespace Hall

/-! ## The bans of a run -/

variable {start : Hall} {a : Host} {t : Moment} {m : Nat}

/-- An address is banned in a run, at a moment and for some minutes. -/
def Banned (start : Hall) (events : List Event) (a : Host) (t : Moment) (m : Nat) : Prop :=
  ∃ past e later, events = past ++ e :: later ∧ (start.run past).BansAt e a t m

/-- No event of `later` bans an address, after those of `past`. -/
def Unbanned (start : Hall) (past later : List Event) (a : Host) : Prop :=
  ∀ middle e rest, later = middle ++ e :: rest → ∀ t m, ¬ (start.run (past ++ middle)).BansAt e a t m

/-- The latest ban of an address in a run. -/
def LatestBan (start : Hall) (events : List Event) (a : Host) (t : Moment) (m : Nat) : Prop :=
  ∃ past e later, events = past ++ e :: later ∧ (start.run past).BansAt e a t m
    ∧ Unbanned start (past ++ [e]) later a

theorem unbanned_nil (past : List Event) : Unbanned start past [] a :=
  fun _ _ _ heq => absurd heq (by simp)

theorem unbanned_concat {past later : List Event} {e : Event} :
    Unbanned start past (later ++ [e]) a
      ↔ Unbanned start past later a ∧ ∀ t m, ¬ (start.run (past ++ later)).BansAt e a t m := by
  constructor
  · refine fun h => ⟨fun middle e' rest heq => h middle e' (rest ++ [e]) ?_, h later e [] rfl⟩
    rw [heq, List.append_assoc, List.cons_append]
  · rintro ⟨hbefore, hlast⟩ middle e' rest heq
    rcases eq_or_of_snoc heq with ⟨rfl, rfl, _⟩ | ⟨rest', _, hinit⟩
    · exact hlast
    · exact hbefore middle e' rest' hinit

/-- A ban is the latest when it has just been made. -/
theorem latestBan_now {events : List Event} {e : Event}
    (hban : (start.run events).BansAt e a t m) : LatestBan start (events ++ [e]) a t m :=
  ⟨events, e, [], rfl, hban, unbanned_nil _⟩

theorem latestBan_concat {events : List Event} {e : Event} :
    LatestBan start (events ++ [e]) a t m ↔ (start.run events).BansAt e a t m
      ∨ LatestBan start events a t m ∧ ∀ t m, ¬ (start.run events).BansAt e a t m := by
  constructor
  · rintro ⟨past, e', later, heq, hban, hnone⟩
    rcases eq_or_of_snoc heq with ⟨rfl, rfl, _⟩ | ⟨later', rfl, rfl⟩
    · exact Or.inl hban
    · obtain ⟨hbefore, hlast⟩ := unbanned_concat.mp hnone
      refine Or.inr ⟨⟨past, e', later', rfl, hban, hbefore⟩, ?_⟩
      rw [List.append_assoc, List.singleton_append] at hlast
      exact hlast
  · rintro (hban | ⟨⟨past, e', later, rfl, hban, hnone⟩, hlast⟩)
    · exact latestBan_now hban
    · refine ⟨past, e', later ++ [e], by rw [List.append_assoc, List.cons_append], hban,
        unbanned_concat.mpr ⟨hnone, ?_⟩⟩
      rw [List.append_assoc, List.singleton_append]
      exact hlast

theorem banned_of_latestBan {events : List Event} (h : LatestBan start events a t m) :
    Banned start events a t m := by
  obtain ⟨past, e, later, heq, hban, _⟩ := h
  exact ⟨past, e, later, heq, hban⟩

/-- After a ban, it is the latest, or there is a later one that is the latest. -/
theorem exists_latestBan {past : List Event} {e : Event} (hban : (start.run past).BansAt e a t m)
    (later : List Event) :
    LatestBan start (past ++ e :: later) a t m
      ∨ ∃ t' m', LatestBan start (past ++ e :: later) a t' m'
        ∧ ∃ middle e' rest, later = middle ++ e' :: rest
          ∧ (start.run (past ++ e :: middle)).BansAt e' a t' m' := by
  induction later using List.reverseRecOn with
  | nil => exact Or.inl (latestBan_now hban)
  | append_singleton later e' ih =>
      have hsplit : past ++ e :: (later ++ [e']) = (past ++ e :: later) ++ [e'] := by simp
      rw [hsplit]
      by_cases hlast : ∃ t' m', (start.run (past ++ e :: later)).BansAt e' a t' m'
      · obtain ⟨t', m', hban'⟩ := hlast
        exact Or.inr ⟨t', m', latestBan_now hban', later, e', [], rfl, hban'⟩
      · have hnone : ∀ t' m', ¬ (start.run (past ++ e :: later)).BansAt e' a t' m' :=
          fun t' m' h => hlast ⟨t', m', h⟩
        rcases ih with hold | ⟨t', m', hold, middle, e'', rest, rfl, hban'⟩
        · exact Or.inl (latestBan_concat.mpr (Or.inr ⟨hold, hnone⟩))
        · refine Or.inr ⟨t', m', latestBan_concat.mpr (Or.inr ⟨hold, hnone⟩), middle, e'',
            rest ++ [e'], ?_, hban'⟩
          rw [List.append_assoc, List.cons_append]

/-- A main loop that is up after an event was up before. -/
theorem up_of_step {h : Hall} {e : Event} (hup : (h.step e).crashed = false) :
    h.crashed = false ∧ h.step e = h.take e := by
  cases hcrashed : h.crashed with
  | true =>
      rw [step, if_pos hcrashed, hcrashed] at hup
      cases hup
  | false => exact ⟨rfl, by rw [step, hcrashed]; rfl⟩

/-- What is noted of the bans after a run. -/
structure Noted (start : Hall) (events : List Event) : Prop where
  once : (Assoc.keys (start.run events).bans).Nodup
  latest : ∀ a t m, LatestBan start events a t m →
    Assoc.get? (start.run events).bans a = some (t + minutes m)
      ∨ t + minutes m ≤ (start.run events).now
  noted : ∀ a u, Assoc.get? (start.run events).bans a = some u →
    ∃ t m, LatestBan start events a t m ∧ u = t + minutes m

/-- **The latest ban is noted**: each event that bans an address replaces what was noted, and all
others keep it until it is over. -/
theorem noted_concat {events : List Event} {e : Event}
    (hb : (start.run events).ledger.Balanced) (hnoted : Noted start events)
    (hup : (start.run (events ++ [e])).crashed = false) : Noted start (events ++ [e]) := by
  have hrun : start.run (events ++ [e]) = (start.run events).step e := run_append _ _ _
  rw [hrun] at hup
  obtain ⟨hup', hstep⟩ := up_of_step hup
  rw [hstep] at hrun hup
  have hheeds := heeds_take hb e
  have hat : ∀ a, ((start.run events).Bans e a ∧ 0 < (start.run events).settings.tempBanTime)
      ↔ ∃ t m, (start.run events).BansAt e a t m := fun _ =>
    ⟨fun ⟨hbans, hpos⟩ => ⟨_, _, hup', hbans, rfl, rfl, hpos⟩,
      fun ⟨_, _, hban⟩ => ⟨hban.bans, hban.time ▸ hban.pos⟩⟩
  exact {
    once := by
      rw [hrun]
      exact hheeds.once hnoted.once
    latest := by
      intro a t m hlatest
      rw [hrun]
      rcases latestBan_concat.mp hlatest with hban | ⟨hold, hnone⟩
      · refine Or.inl ?_
        rw [hheeds.banned a hban.bans (hban.time ▸ hban.pos) hup, hban.moment, hban.time]
      · -- a ban that is not the newest is still noted, or was over before
        rcases hnoted.latest a t m hold with hget | hover
        · exact hheeds.kept hnoted.once a (fun h => (hat a).mp h |>.elim fun t h => h.elim (hnone t)) _ hget
        · exact Or.inr (Nat.le_trans hover hheeds.now)
    noted := by
      intro a u hu
      rw [hrun] at hu
      by_cases hban : ∃ t m, (start.run events).BansAt e a t m
      · obtain ⟨t, m, hban⟩ := hban
        refine ⟨t, m, latestBan_now hban, ?_⟩
        rw [hheeds.banned a hban.bans (hban.time ▸ hban.pos) hup, hban.moment, hban.time] at hu
        exact (Option.some.inj hu).symm
      · obtain ⟨t, m, hold, hend⟩ := hnoted.noted a u
          (hheeds.fresh hnoted.once a (fun h => hban ((hat a).mp h)) u hu)
        exact ⟨t, m, latestBan_concat.mpr (Or.inr ⟨hold, fun t m h => hban ⟨t, m, h⟩⟩), hend⟩ }

theorem noted_run (hb : start.ledger.Balanced) (hempty : start.bans = []) (events : List Event)
    (hup : (start.run events).crashed = false) : Noted start events := by
  induction events using List.reverseRecOn with
  | nil =>
      refine ⟨?_, ?_, ?_⟩
      · show (Assoc.keys start.bans).Nodup
        rw [hempty]
        exact List.nodup_nil
      · rintro a t m ⟨past, e, later, heq, _⟩
        exact absurd heq (by simp)
      · intro a u hu
        have hnone : Assoc.get? start.bans a = some u := hu
        rw [hempty] at hnone
        cases hnone
  | append_singleton events e ih =>
      have hup' : (start.run events).crashed = false := by
        rw [run_append] at hup
        exact (up_of_step hup).1
      exact noted_concat (balanced_run hb events) (ih hup') hup

theorem isBanned_iff {h : Hall} {a : Host} :
    h.isBanned a = true ↔ ∃ u, Assoc.get? h.bans a = some u ∧ h.now < u := by
  unfold isBanned
  cases Assoc.get? h.bans a with
  | none => simp
  | some u => simp

/-- **Just the latest ban counts.** -/
theorem isBanned_iff_of_noted {events : List Event} (hnoted : Noted start events) (a : Host) :
    (start.run events).isBanned a = true
      ↔ ∃ t m, LatestBan start events a t m ∧ (start.run events).now < t + minutes m := by
  rw [isBanned_iff]
  constructor
  · rintro ⟨u, hu, hlt⟩
    obtain ⟨t, m, hlatest, rfl⟩ := hnoted.noted a u hu
    exact ⟨t, m, hlatest, hlt⟩
  · rintro ⟨t, m, hlatest, hlt⟩
    refine ⟨_, (hnoted.latest a t m hlatest).resolve_right ?_, hlt⟩
    exact Nat.not_le.mpr hlt

/-- The first check of a sign-up is whether its address is banned. -/
theorem refusal?_banned_iff (h : Hall) (s : SignUp) (host : Host) :
    h.refusal? s host = some .banned ↔ h.isBanned host = true := by
  unfold refusal?
  split
  · rename_i hban
    exact iff_of_true rfl hban
  · rename_i hban
    refine iff_of_false (fun h => ?_) hban
    split at h
    · cases h
    · split at h
      · cases h
      · split at h
        · cases h
        · split at h <;> cases h

/-- **A sign-up from a banned address is refused**, and shown why. -/
theorem hear_of_isBanned {h : Hall} {c : Int} {link : Link} {record : Record} {s : SignUp}
    (hpending : Assoc.get? h.pending c = some link) (hs : SignUp.ofRecord? record = some s)
    (hbanned : h.isBanned link.host = true) :
    h.hear c record = ({ h with
      pending := Assoc.erase h.pending c, bans := h.currentBans } : Hall).reject c link .banned := by
  have hrefused : ({ h with pending := Assoc.erase h.pending c } : Hall).refusal? s link.host
      = some .banned := (refusal?_banned_iff _ s link.host).mpr hbanned
  unfold hear
  rw [hpending]
  dsimp only
  unfold judge
  rw [hs]
  dsimp only
  rw [hrefused]
  rfl

/-- What bans come to in a run. -/
structure BanLaws (start : Hall) (events : List Event) : Prop where
  /-- A sign-up from a banned address is shown why it is refused, and nothing else happens but that
  the bans that are over are forgotten. -/
  refused : ∀ c link record s, Assoc.get? (start.run events).pending c = some link →
    SignUp.ofRecord? record = some s → (start.run events).isBanned link.host = true →
    start.run (events ++ [.record c record])
      = ({ start.run events with
            pending := Assoc.erase (start.run events).pending c
            bans := (start.run events).currentBans } : Hall).reject c link .banned
  /-- Nobody else is refused as banned. -/
  only : ∀ s host, (start.run events).refusal? s host = some .banned
    ↔ (start.run events).isBanned host = true
  /-- An address is banned just if its latest ban is not over. -/
  latest : ∀ a, (start.run events).isBanned a = true
    ↔ ∃ t m, LatestBan start events a t m ∧ (start.run events).now < t + minutes m
  /-- A ban is kept for its full time, unless a later ban of the address ends sooner. -/
  kept : ∀ past e later a t m, events = past ++ e :: later → (start.run past).BansAt e a t m →
    (∀ middle e' rest t' m', later = middle ++ e' :: rest →
      (start.run (past ++ e :: middle)).BansAt e' a t' m' → t + minutes m ≤ t' + minutes m') →
    (start.run events).now < t + minutes m → (start.run events).isBanned a = true
  /-- No address is banned when all its bans are over. -/
  ended : ∀ a, (start.run events).isBanned a = true →
    ∃ t m, Banned start events a t m ∧ (start.run events).now < t + minutes m

/-- **Bans in every run**, as long as the main loop is up. -/
theorem bans_run (authenticator : Authenticator) (settings : Settings) (fingerprint : String)
    (epoch : Int) (events : List Event)
    (hup : ((new authenticator settings fingerprint epoch).run events).crashed = false) :
    BanLaws (new authenticator settings fingerprint epoch) events := by
  have hnoted := noted_run (balanced_new authenticator settings fingerprint epoch) rfl events hup
  have hlatest := isBanned_iff_of_noted hnoted
  exact {
    refused := by
      intro c link record s hpending hs hbanned
      have hstep : ((new authenticator settings fingerprint epoch).run events).step (.record c record)
          = ((new authenticator settings fingerprint epoch).run events).hear c record := by
        rw [step, hup]
        rfl
      rw [run_append]
      exact hstep.trans (hear_of_isBanned hpending hs hbanned)
    only := refusal?_banned_iff _
    latest := hlatest
    kept := by
      -- the ban is the latest one of the address, or was replaced by one that ends no sooner
      rintro past e later a t m rfl hban hlonger hlt
      rcases exists_latestBan hban later with hlast | ⟨t', m', hlast, middle, e', rest, heq, hban'⟩
      · exact (hlatest a).mpr ⟨t, m, hlast, hlt⟩
      · exact (hlatest a).mpr
          ⟨t', m', hlast, Nat.lt_of_lt_of_le hlt (hlonger middle e' rest t' m' heq hban')⟩
    ended := by
      intro a hbanned
      obtain ⟨t, m, hlast, hlt⟩ := (hlatest a).mp hbanned
      exact ⟨t, m, banned_of_latestBan hlast, hlt⟩ }

/-! ## A ban that is cut short -/

/-- Three clients are at one address. The first is banned for an hour, and a moment later the second
for a minute, with settings that have shorter bans. -/
def shorterBans : List Event :=
  [.reloadSettings (.ok { Settings.initial with tempBanTime := 60 }),
    .accept (.v4 10 0 0 1), .accept (.v4 10 0 0 1), .accept (.v4 10 0 0 1), .temporarilyBan 1,
    .reloadSettings (.ok { Settings.initial with tempBanTime := 1 }), .temporarilyBan 2,
    .pass (Duration.ofSeconds 61)]

theorem bans_run_shorterBans :
    ((new (.openToAll []) .initial "rules" 0).run shorterBans).crashed = false
      ∧ BanLaws (new (.openToAll []) .initial "rules" 0) shorterBans :=
  ⟨by decide +kernel, bans_run (.openToAll []) .initial "rules" 0 shorterBans (by decide +kernel)⟩

/-- So it is not so that every ban is kept for its full time: after the minute of the second the third
is let in. -/
theorem not_always_kept :
    ¬ ∀ (events : List Event) (a : Host) (t : Moment) (m : Nat),
      Banned (new (.openToAll []) .initial "rules" 0) events a t m →
      ((new (.openToAll []) .initial "rules" 0).run events).now < t + minutes m →
      ((new (.openToAll []) .initial "rules" 0).run events).isBanned a = true := by
  intro hkept
  have hban : Banned (new (.openToAll []) .initial "rules" 0) shorterBans (.v4 10 0 0 1) 0 60 :=
    ⟨shorterBans.take 4, .temporarilyBan 1, shorterBans.drop 5, rfl, by decide +kernel,
      ⟨⟨Router.new 0, .v4 10 0 0 1, true, false, false⟩, by decide +kernel, rfl⟩, by decide +kernel,
      by decide +kernel, by decide⟩
  have hfree : ((new (.openToAll []) .initial "rules" 0).run shorterBans).isBanned (.v4 10 0 0 1)
      = false := by decide +kernel
  have hbanned := hkept shorterBans (.v4 10 0 0 1) 0 60 hban (by decide +kernel)
  rw [hfree] at hbanned
  cases hbanned

end Hall

end GameHall
