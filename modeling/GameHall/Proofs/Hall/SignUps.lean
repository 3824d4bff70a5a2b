import GameHall.Proofs.Hall.Bans
import GameHall.Proofs.Hall.Conversation
import GameHall.Proofs.Hall.Sweeping
import GameHall.Proofs.Settings.BannedWords

/-!
# Signing up

The first record of a connection makes a session, or it is refused and the connection is closed. It is
refused if it fails any check, and the client is shown the first that it fails. The checks are told here
one by one (`Hall.Flaw`), their order apart (`Refusal.rank`), and a sign-up is all or nothing with regard to
them (`signsUp_run`): whatever is refused leaves no trace but in the bans that are over and, from the sixth
check on, with the authenticator.

A connection is judged once. What it sends afterwards is traffic, until another connection gets its number.
-/

namespace GameHall

/-! ## What the checks say -/

namespace SignUp

/-- A notification from a client to the server has the command of a sign-up, and its payload is an array
that begins with five texts. -/
structure Carries (record : Record) (s : SignUp) : Prop where
  timing : record.timing = none
  id : record.id = Record.notificationId
  mask : record.mask = Mask.notification ||| Mask.fromClient ||| Mask.toServer
  command : record.command = Utf8.encode "Setup"
  elements : ∃ name password md5 version uuid rest,
    Payload.elements? record.payload = some (name :: password :: md5 :: version :: uuid :: rest)
      ∧ name.asText? = some s.name ∧ password.asText? = some s.password ∧ md5.asText? = some s.md5
      ∧ version.asText? = some s.version ∧ uuid.asText? = some s.uuid

theorem ofElements_eq_some_iff {elements : List Cbor.Value} {s : SignUp} : ofElements elements = some s
    ↔ ∃ name password md5 version uuid rest, elements = name :: password :: md5 :: version :: uuid :: rest
      ∧ name.asText? = some s.name ∧ password.asText? = some s.password ∧ md5.asText? = some s.md5
      ∧ version.asText? = some s.version ∧ uuid.asText? = some s.uuid := by
  constructor
  · intro h
    unfold ofElements at h
    split at h
    · rename_i name password md5 version uuid rest
      simp only [Option.bind_eq_bind, Option.bind_eq_some_iff, Option.pure_def, Option.some.injEq] at h
      obtain ⟨_, hname, _, hpassword, _, hmd5, _, hversion, _, huuid, rfl⟩ := h
      exact ⟨name, password, md5, version, uuid, rest, rfl, hname, hpassword, hmd5, hversion, huuid⟩
    · cases h
  · rintro ⟨name, password, md5, version, uuid, rest, rfl, hname, hpassword, hmd5, hversion, huuid⟩
    simp [ofElements, hname, hpassword, hmd5, hversion, huuid]

/-- **A sign-up is read from the records that carry one**, and from no others. -/
theorem ofRecord?_eq_some_iff {record : Record} {s : SignUp} :
    ofRecord? record = some s ↔ Carries record s := by
  have hform : hasForm record = true ↔ ((record.timing = none ∧ record.id = Record.notificationId)
      ∧ record.mask = mask) ∧ record.command = command := by
    simp [hasForm]
  constructor
  · intro h
    unfold ofRecord? at h
    split at h
    · rename_i hf
      obtain ⟨⟨⟨htiming, hid⟩, hmask⟩, hcommand⟩ := hform.mp hf
      obtain ⟨elements, helements, hs⟩ := Option.bind_eq_some_iff.mp h
      obtain ⟨name, password, md5, version, uuid, rest, rfl, htexts⟩ := ofElements_eq_some_iff.mp hs
      exact ⟨htiming, hid, hmask, hcommand, name, password, md5, version, uuid, rest, helements, htexts⟩
    · cases h
  · rintro ⟨htiming, hid, hmask, hcommand, name, password, md5, version, uuid, rest, helements, htexts⟩
    rw [ofRecord?, if_pos (hform.mpr ⟨⟨⟨htiming, hid⟩, hmask⟩, hcommand⟩)]
    refine Option.bind_eq_some_iff.mpr ⟨_, helements, ?_⟩
    exact ofElements_eq_some_iff.mpr ⟨name, password, md5, version, uuid, rest, rfl, htexts⟩

end SignUp

/-- The place of a check among all the checks. -/
def Refusal.rank : Refusal → Nat
  | malformed => 0
  | banned => 1
  | bannedName => 2
  | full => 3
  | deviceFull => 4
  | fingerprint => 5
  | credentials _ => 6
  | duplicate => 7

/-- Before the authenticator is asked, no two checks have the same place. -/
theorem Refusal.eq_of_rank {why other : Refusal} (hlt : why.rank < 6) (heq : other.rank = why.rank) :
    other = why := by
  cases why with
  | credentials _ => exact absurd hlt (Nat.lt_irrefl 6)
  | duplicate => exact absurd hlt (Nat.not_lt.mpr (Nat.le_succ 6))
  | _ => cases other <;> first | rfl | cases heq

namespace Hall

variable {h g : Hall} {c : Int} {link : Link} {record : Record} {host : Host} {s : SignUp}
  {who : Credentials} {why : Refusal}

/-- A sign-up fails a check. -/
def Flaw (h : Hall) (host : Host) (s : SignUp) : Refusal → Prop
  | .malformed => False
  | .banned => ∃ t, Assoc.get? h.bans host = some t ∧ h.now < t
  | .bannedName => ∃ word ∈ h.settings.banWords,
      word ≠ "" ∧ (lowerCase word).toList <:+: (lowerCase s.name).toList
  | .full => h.settings.capacity ≤ h.sessions.length
  | .deviceFull => h.settings.maxPlayersPerDevice ≤ h.sessions.countP fun e => e.2.device == s.uuid
  | .fingerprint => s.md5 ≠ h.fingerprint
  | .credentials words => h.authenticator.verdict h.asked s = .error words
  | .duplicate => ∃ who, h.authenticator.verdict h.asked s = .ok who
      ∧ ∃ e ∈ h.sessions, e.2.playerId = who.playerId

/-- A record fails a check: it carries no sign-up, or one with a flaw. -/
def Fails (h : Hall) (host : Host) (record : Record) (why : Refusal) : Prop :=
  why = .malformed ∧ (∀ s, ¬ SignUp.Carries record s) ∨ ∃ s, SignUp.Carries record s ∧ h.Flaw host s why

/-- The first check that a record fails. -/
structure First (h : Hall) (host : Host) (record : Record) (why : Refusal) : Prop where
  fails : h.Fails host record why
  least : ∀ other, h.Fails host record other → why.rank ≤ other.rank

theorem carries_unique {s s' : SignUp} (hs : SignUp.Carries record s) (hs' : SignUp.Carries record s') :
    s' = s :=
  Option.some.inj ((SignUp.ofRecord?_eq_some_iff.mpr hs').symm.trans (SignUp.ofRecord?_eq_some_iff.mpr hs))

/-- A record carries a sign-up that is without fault, of a player whom the authenticator knows. -/
structure Acceptable (h : Hall) (host : Host) (record : Record) (s : SignUp) (who : Credentials) :
    Prop where
  form : SignUp.Carries record s
  unbanned : ∀ t, Assoc.get? h.bans host = some t → t ≤ h.now
  name : ∀ word ∈ h.settings.banWords,
    word ≠ "" → ¬ (lowerCase word).toList <:+: (lowerCase s.name).toList
  capacity : h.sessions.length < h.settings.capacity
  device : (h.sessions.countP fun e => e.2.device == s.uuid) < h.settings.maxPlayersPerDevice
  rules : s.md5 = h.fingerprint
  known : h.authenticator.verdict h.asked s = .ok who
  free : ∀ e ∈ h.sessions, e.2.playerId ≠ who.playerId

theorem flaw_of_fails (hs : SignUp.Carries record s) (hfails : h.Fails host record why) :
    h.Flaw host s why := by
  rcases hfails with ⟨_, hnone⟩ | ⟨s', hs', hflaw⟩
  · exact absurd hs (hnone s)
  · exact carries_unique hs hs' ▸ hflaw

theorem acceptable_of_clean (hform : SignUp.Carries record s)
    (hknown : h.authenticator.verdict h.asked s = .ok who)
    (hclean : ∀ why, ¬ h.Fails host record why) : h.Acceptable host record s who := by
  have hflaw : ∀ why, ¬ h.Flaw host s why := fun why hflaw => hclean why (Or.inr ⟨s, hform, hflaw⟩)
  exact {
    form := hform
    unbanned := fun t ht => Nat.le_of_not_lt fun hlt => hflaw .banned ⟨t, ht, hlt⟩
    name := fun word hword hne hpart => hflaw .bannedName ⟨word, hword, hne, hpart⟩
    capacity := Nat.lt_of_not_le (hflaw .full)
    device := Nat.lt_of_not_le (hflaw .deviceFull)
    rules := Decidable.not_not.mp (hflaw .fingerprint)
    known := hknown
    free := fun e he hsame => hflaw .duplicate ⟨who, hknown, e, he, hsame⟩ }

/-- **A record that fails no check is an acceptable one**, and the other way round. -/
theorem clean_iff : (∀ why, ¬ h.Fails host record why) ↔ ∃ s who, h.Acceptable host record s who := by
  constructor
  · intro hclean
    obtain ⟨s, hform⟩ : ∃ s, SignUp.Carries record s := by
      by_contra hnone
      exact hclean .malformed (Or.inl ⟨rfl, fun s hs => hnone ⟨s, hs⟩⟩)
    cases hverdict : h.authenticator.verdict h.asked s with
    | error words => exact absurd (Or.inr ⟨s, hform, hverdict⟩) (hclean (.credentials words))
    | ok who => exact ⟨s, who, acceptable_of_clean hform hverdict hclean⟩
  · rintro ⟨s, who, hgood⟩ why hfails
    have hflaw := flaw_of_fails hgood.form hfails
    -- each check, with the field that says it has been passed
    cases why with
    | malformed => exact hflaw
    | banned =>
        obtain ⟨t, ht, hlt⟩ := hflaw
        exact Nat.not_lt.mpr (hgood.unbanned t ht) hlt
    | bannedName =>
        obtain ⟨word, hword, hne, hpart⟩ := hflaw
        exact hgood.name word hword hne hpart
    | full => exact Nat.not_le.mpr hgood.capacity hflaw
    | deviceFull => exact Nat.not_le.mpr hgood.device hflaw
    | fingerprint => exact hflaw hgood.rules
    | credentials words => cases hgood.known.symm.trans hflaw
    | duplicate =>
        obtain ⟨who', hknown, e, he, hsame⟩ := hflaw
        cases hgood.known.symm.trans hknown
        exact hgood.free e he hsame

/-- A sign-up passes the checks before one place in their order. -/
def Passes (h : Hall) (host : Host) (s : SignUp) (n : Nat) : Prop :=
  ∀ why : Refusal, why.rank < n → ¬ h.Flaw host s why

theorem passes_one (h : Hall) (host : Host) (s : SignUp) : h.Passes host s 1 := by
  intro why hrank hflaw
  cases why <;> first | exact hflaw | cases Nat.lt_one_iff.mp hrank

/-- What the checks before the authenticator find: the first flaw, or that there is none until then. -/
def Detects (h : Hall) (host : Host) (s : SignUp) : Option Refusal → Prop
  | some why => h.Flaw host s why ∧ why.rank < 6 ∧ h.Passes host s why.rank
  | none => h.Passes host s 6

/-- One check more: it is failed, or it is passed and the next comes. -/
theorem detects_check (why : Refusal) {P : Prop} [Decidable P] {rest : Option Refusal}
    (hrank : why.rank < 6) (hbefore : h.Passes host s why.rank) (hP : h.Flaw host s why ↔ P)
    (hrest : h.Passes host s (why.rank + 1) → h.Detects host s rest) :
    h.Detects host s (if P then some why else rest) := by
  split
  · rename_i hflaw
    exact ⟨hP.mpr hflaw, hrank, hbefore⟩
  · rename_i hclear
    refine hrest fun other hother => ?_
    rcases Nat.lt_succ_iff_lt_or_eq.mp hother with hlt | heq
    · exact hbefore other hlt
    · rw [Refusal.eq_of_rank hrank heq, hP]
      exact hclear

theorem flaw_banned_iff : h.Flaw host s .banned ↔ h.isBanned host = true := isBanned_iff.symm

theorem flaw_bannedName_iff : h.Flaw host s .bannedName ↔ h.settings.bansName s.name = true :=
  Settings.bansName_iff.symm

theorem flaw_deviceFull_iff :
    h.Flaw host s .deviceFull ↔ h.settings.maxPlayersPerDevice ≤ h.onDevice s.uuid := by
  rw [onDevice, ← List.countP_eq_length_filter]
  rfl

/-- **The first flaw of a sign-up is found**, if it has one before the authenticator is asked. -/
theorem detects_refusal? (h : Hall) (s : SignUp) (host : Host) :
    h.Detects host s (h.refusal? s host) :=
  detects_check .banned (by decide) (passes_one h host s) flaw_banned_iff fun h2 =>
    detects_check .bannedName (by decide) h2 flaw_bannedName_iff fun h3 =>
      detects_check .full (by decide) h3 Iff.rfl fun h4 =>
        detects_check .deviceFull (by decide) h4 flaw_deviceFull_iff fun h5 =>
          detects_check .fingerprint (by decide) h5 Iff.rfl id

/-! ## What becomes of a first record -/

/-- The frame that shows a client why it is refused. -/
def dialog (why : Refusal) : Record := Router.clientNotification "ErrorDlg" (Datum.text why.message).write

/-- The frames that tell a player about itself and the server. -/
def greeting (h : Hall) (s : SignUp) (who : Credentials) : List Record :=
  [Router.clientNotification "Setup" (h.setupPayload s who),
    Router.clientNotification "SetServerSettings" h.settingsPayload]

/-- What becomes of the first record of a connection. -/
inductive Judgement (h g : Hall) (c : Int) (link : Link) (record : Record) : Prop where
  /-- The sign-up is without fault, and if the connection is not gone there is a session. -/
  | admitted {s : SignUp} {who : Credentials} (hgood : h.Acceptable link.host record s who)
      (hwhole : link.isOpen = true → link.isBrief = false)
      (hsessions : g.sessions
        = if link.isOpen then Assoc.set h.sessions c (newSession link s who) else h.sessions)
      (hacts : g.acts = h.acts ++ if link.sends then (h.greeting s who).map (Act.frame c) else [])
      (hasked : g.asked = s :: h.asked)
  /-- The sign-up is without fault, but the queue shuts after the first frame of the greeting. -/
  | cutShort {s : SignUp} {who : Credentials} (hgood : h.Acceptable link.host record s who)
      (hopen : link.isOpen = true) (hbrief : link.isBrief = true) (hsessions : g.sessions = h.sessions)
      (hacts : g.acts = h.acts
        ++ if link.sends then ((h.greeting s who).take 1).map (Act.frame c) ++ [.close c] else [])
      (hasked : g.asked = s :: h.asked)
  /-- A check is failed, and the client is shown the first. -/
  | refused {why : Refusal} (hfirst : h.First link.host record why) (hsessions : g.sessions = h.sessions)
      (hacts : g.acts = h.acts ++ if link.sends then [.frame c (dialog why), .close c] else [])
      (hasked : why.rank < 6 ∧ g.asked = h.asked
        ∨ 6 ≤ why.rank ∧ ∃ s, SignUp.Carries record s ∧ g.asked = s :: h.asked)

theorem deliver_hangUp (h : Hall) (c : Int) (link : Link) (record : Record) :
    (h.deliver c link record).hangUp c link
      = h.actAll (if link.sends then [.frame c record, .close c] else []) := by
  unfold deliver hangUp
  split
  · rw [show [Act.frame c record, .close c] = [.frame c record] ++ [.close c] from rfl, actAll_append]
    rfl
  · exact (actAll_nil h).symm

theorem reject_eq (h : Hall) (c : Int) (link : Link) (why : Refusal) : h.reject c link why
    = h.actAll (if link.sends then [.frame c (dialog why), .close c] else []) :=
  deliver_hangUp h c link (dialog why)

theorem deliver_both (h : Hall) (c : Int) (link : Link) (first second : Record) :
    (h.deliver c link first).deliver c link second
      = h.actAll (if link.sends then [.frame c first, .frame c second] else []) := by
  unfold deliver
  split
  · rw [show [Act.frame c first, .frame c second] = [.frame c first] ++ [.frame c second] from rfl,
      actAll_append]
    rfl
  · exact (actAll_nil h).symm

/-- The first flaw of a sign-up is the first check that its record fails. -/
theorem first_of_flaw (hform : SignUp.Carries record s) (hflaw : h.Flaw host s why)
    (hpasses : h.Passes host s why.rank) : h.First host record why where
  fails := Or.inr ⟨s, hform, hflaw⟩
  least := fun other hfails => Nat.le_of_not_lt fun hlt =>
    hpasses other hlt (flaw_of_fails hform hfails)

/-- Whoever is turned away is shown the first check that is failed. -/
theorem judgement_reject (p : Assoc Int Link) (bans : Assoc Host Moment) {asked : List SignUp}
    (hfirst : h.First link.host record why) (hasked : why.rank < 6 ∧ asked = h.asked
      ∨ 6 ≤ why.rank ∧ ∃ s, SignUp.Carries record s ∧ asked = s :: h.asked) :
    Judgement h (({ h with pending := p, bans := bans, asked := asked } : Hall).reject c link why) c link
      record := by
  rw [reject_eq]
  exact .refused hfirst rfl rfl hasked

/-- The sign-up of a player whom the authenticator knows fails no check but the last. -/
theorem eq_duplicate_of_flaw (hpasses : h.Passes host s 6)
    (hknown : h.authenticator.verdict h.asked s = .ok who) (hflaw : h.Flaw host s why) :
    why = .duplicate ∧ h.hasPlayer who.playerId = true := by
  cases why with
  | credentials words => cases hknown.symm.trans hflaw
  | duplicate =>
      obtain ⟨who', hknown', e, he, hsame⟩ := hflaw
      cases hknown.symm.trans hknown'
      exact ⟨rfl, List.any_eq_true.mpr ⟨e, he, beq_iff_eq.mpr hsame⟩⟩
  | _ => exact absurd hflaw (hpasses _ (by decide))

theorem judgement_signUp (p : Assoc Int Link) (bans : Assoc Host Moment)
    (hform : SignUp.Carries record s) (hpasses : h.Passes link.host s 6)
    (hknown : h.authenticator.verdict h.asked s = .ok who) : Judgement h (({ h with
      pending := p, bans := bans, asked := s :: h.asked } : Hall).signUp c link s who) c link record := by
  -- all checks but the last have passed, so only a double sign-up is left
  have honly : ∀ why, h.Flaw link.host s why → why = .duplicate ∧ h.hasPlayer who.playerId = true :=
    fun _ => eq_duplicate_of_flaw hpasses hknown
  unfold signUp
  split
  · rename_i htaken
    obtain ⟨e, he, hsame⟩ := List.any_eq_true.mp htaken
    have hflaw : h.Flaw link.host s .duplicate := ⟨who, hknown, e, he, beq_iff_eq.mp hsame⟩
    refine judgement_reject p bans (first_of_flaw hform hflaw fun other hother hflaw' => ?_)
      (Or.inr ⟨Nat.le_succ 6, s, hform, rfl⟩)
    rw [(honly other hflaw').1] at hother
    exact Nat.lt_irrefl _ hother
  · rename_i hfree
    have hgood : h.Acceptable link.host record s who := acceptable_of_clean hform hknown
      fun why hfails => hfree (honly why (flaw_of_fails hform hfails)).2
    split
    · rename_i hopen
      dsimp only
      split
      · rename_i hbrief
        rw [deliver_hangUp]
        exact .cutShort hgood hopen hbrief rfl rfl rfl
      · rename_i hbrief
        rw [deliver_both]
        exact .admitted hgood (fun _ => Bool.eq_false_iff.mpr hbrief) (if_pos hopen).symm rfl rfl
    · rename_i hgone
      have hsilent : link.sends = false := by
        rw [Link.sends, Bool.eq_false_iff.mpr hgone, Bool.false_and]
      refine .admitted hgood (fun hopen => absurd hopen hgone) (if_neg hgone).symm ?_ rfl
      rw [hsilent]
      exact (List.append_nil _).symm

/-- **Whoever is judged is admitted or refused**, by the first check that is failed. -/
theorem judgement_judge (h : Hall) (p : Assoc Int Link) (c : Int) (link : Link) (record : Record) :
    Judgement h (({ h with pending := p } : Hall).judge c link record) c link record := by
  unfold judge
  cases hform : SignUp.ofRecord? record with
  | none =>
      have hnone : ∀ s, ¬ SignUp.Carries record s := fun s hs =>
        nomatch hform.symm.trans (SignUp.ofRecord?_eq_some_iff.mpr hs)
      exact judgement_reject p h.bans ⟨Or.inl ⟨rfl, hnone⟩, fun _ _ => Nat.zero_le _⟩
        (Or.inl ⟨by decide, rfl⟩)
  | some s =>
      have hcarries := SignUp.ofRecord?_eq_some_iff.mp hform
      have hdetects := detects_refusal? h s link.host
      have hsame : ({ h with pending := p } : Hall).refusal? s link.host = h.refusal? s link.host := rfl
      dsimp only
      rw [hsame]
      cases hrefusal : h.refusal? s link.host with
      | some why =>
          rw [hrefusal] at hdetects
          obtain ⟨hflaw, hrank, hpasses⟩ := hdetects
          exact judgement_reject p _ (first_of_flaw hcarries hflaw hpasses) (Or.inl ⟨hrank, rfl⟩)
      | none =>
          rw [hrefusal] at hdetects
          cases hverdict : h.authenticator.verdict h.asked s with
          | error words =>
              have hflaw : h.Flaw link.host s (.credentials words) := hverdict
              exact judgement_reject p _ (first_of_flaw hcarries hflaw hdetects)
                (Or.inr ⟨Nat.le_refl 6, s, hcarries, rfl⟩)
          | ok who => exact judgement_signUp p _ hcarries hdetects hverdict

/-- To judge a connection is to touch the sessions, the bans that are over and the authenticator. -/
theorem frame_judge (h : Hall) (c : Int) (link : Link) (record : Record) : h.judge c link record
    = { h with
        bans := (h.judge c link record).bans, asked := (h.judge c link record).asked
        sessions := (h.judge c link record).sessions, acts := (h.judge c link record).acts } := by
  unfold judge
  split
  · rw [reject_eq]
    rfl
  · dsimp only
    split
    · rw [reject_eq]
      rfl
    · split
      · rw [reject_eq]
        rfl
      · unfold signUp
        split
        · rw [reject_eq]
          rfl
        · split
          · dsimp only
            split
            · rw [deliver_hangUp]
              rfl
            · rw [deliver_both]
              rfl
          · rfl

/-! ## Bans that are not over -/

theorem once_step (hb : h.ledger.Balanced) (honce : (Assoc.keys h.bans).Nodup) (e : Event) :
    (Assoc.keys (h.step e).bans).Nodup := by
  cases hcrashed : h.crashed with
  | true => exact (step_of_crashed hcrashed e).symm ▸ honce
  | false =>
      rw [step_of_up hcrashed]
      exact (heeds_take hb e).once honce

/-- No address has two bans. -/
theorem once_run (hb : h.ledger.Balanced) (honce : (Assoc.keys h.bans).Nodup) (events : List Event) :
    (Assoc.keys (h.run events).bans).Nodup := by
  induction events generalizing h with
  | nil => exact honce
  | cons e events ih => exact ih (balanced_step hb e) (once_step hb honce e)

/-- A record lets no ban be forgotten that is not over. -/
theorem unexpired_hear (honce : (Assoc.keys h.bans).Nodup) (c : Int) (record : Record) (a : Host) :
    (Assoc.get? (h.hear c record).bans a).filter (fun t => decide (h.now < t))
      = (Assoc.get? h.bans a).filter fun t => decide (h.now < t) := by
  rcases docket_hear h c record with heq | heq
  · rw [show (h.hear c record).bans = h.bans from congrArg Docket.bans heq]
  · have hcurrent : Assoc.get? h.currentBans a
        = (Assoc.get? h.bans a).filter fun t => decide (h.now < t) :=
      Assoc.get?_filter honce (fun t => decide (h.now < t)) a
    rw [show (h.hear c record).bans = h.currentBans from congrArg Docket.bans heq, hcurrent,
      Option.filter_filter]
    simp only [Bool.and_self]

/-! ## Afterwards -/

/-- A connection is pending since before, or it is new. -/
theorem pending_turn {e : Event} {q : Scene} (hturn : Turn h e q) (hc : (q.tables.pending c).isSome) :
    (h.registry.pending c).isSome ∨ e.isAccept = true ∧ c = h.nextConnection := by
  cases hturn with
  | deeds hdeeds => exact Or.inl ((fewer_deeds hdeeds).pending c hc)
  | come he =>
      by_cases hne : c = h.nextConnection
      · exact Or.inr ⟨by rw [he]; rfl, hne⟩
      · exact Or.inl (by simpa [Registry.setPending, hne] using hc)
  | signUp => exact Or.inl ((Registry.fewer_setPending _ _).pending c hc)
  | sit => exact Or.inl hc
  | watch => exact Or.inl hc
  | found => exact Or.inl hc
  | message _ _ _ halike => exact Or.inl ((Registry.fewer_alike halike).pending c hc)

theorem pending_run (hb : h.ledger.Balanced) {later : List Event}
    (hc : (Assoc.get? (h.run later).pending c).isSome) :
    (Assoc.get? h.pending c).isSome ∨ c ∈ h.comers later :=
  comes_run (P := fun t => (t.pending c).isSome) hb (fun hturn => pending_turn hturn) hc

/-- What comes of the first record of a connection. -/
structure SignsUp (h g : Hall) (c : Int) (link : Link) (record : Record) : Prop where
  /-- The rooms and the pool stay as they are, and the connection is not pending any more. -/
  frame : g = { h with
    pending := Assoc.erase h.pending c, bans := g.bans, asked := g.asked, sessions := g.sessions
    acts := g.acts }
  judgement : Judgement h g c link record
  /-- If the queue takes the greeting, there is a session just if the sign-up is without fault. -/
  created : link.isOpen = true → link.isBrief = false →
    (g.sessions ≠ h.sessions ↔ ∃ s who, h.Acceptable link.host record s who)
  /-- The authenticator is asked just if no check before is failed. -/
  consulted : g.asked ≠ h.asked ↔ ∀ why, h.Fails link.host record why → 6 ≤ why.rank
  unexpired : ∀ a, (Assoc.get? g.bans a).filter (fun t => decide (h.now < t))
    = (Assoc.get? h.bans a).filter fun t => decide (h.now < t)
  /-- From now on the records of the connection are traffic and its time to sign up does not end, until
  another connection has its number. -/
  judgedOnce : ∀ later, c ∉ g.comers later → Assoc.get? (g.run later).pending c = none
    ∧ (∀ next, (g.run later).hear c next = (g.run later).route c next)
    ∧ (g.run later).expireSignUp c = g.run later

/-- A player who is admitted was not there before. -/
theorem created_of_judgement (hjudgement : Judgement h g c link record) (hopen : link.isOpen = true)
    (hwhole : link.isBrief = false) :
    g.sessions ≠ h.sessions ↔ ∃ s who, h.Acceptable link.host record s who := by
  cases hjudgement with
  | @admitted s who hgood _ hsessions =>
      refine iff_of_true (fun heq => ?_) ⟨s, who, hgood⟩
      rw [if_pos hopen] at hsessions
      have hmem : (c, newSession link s who) ∈ h.sessions := by
        rw [← heq, hsessions]
        exact Assoc.mem_of_get? (Assoc.get?_set_self _ _ _)
      exact hgood.free _ hmem rfl
  | cutShort _ _ hbrief => cases hwhole.symm.trans hbrief
  | refused hfirst hsessions =>
      exact iff_of_false (fun hne => hne hsessions) fun hgood => clean_iff.mpr hgood _ hfirst.fails

theorem consulted_of_judgement (hjudgement : Judgement h g c link record) :
    g.asked ≠ h.asked ↔ ∀ why, h.Fails link.host record why → 6 ≤ why.rank := by
  have hmore : ∀ s, g.asked = s :: h.asked → g.asked ≠ h.asked := fun s heq hsame =>
    List.cons_ne_self s h.asked (heq.symm.trans hsame)
  cases hjudgement with
  | admitted hgood _ _ _ hasked | cutShort hgood _ _ _ _ hasked =>
      exact iff_of_true (hmore _ hasked) fun why hfails => absurd hfails (clean_iff.mpr ⟨_, _, hgood⟩ why)
  | refused hfirst _ _ hasked =>
      rcases hasked with ⟨hrank, hasked⟩ | ⟨hrank, s, _, hasked⟩
      · exact iff_of_false (fun hne => hne hasked) fun hlate =>
          absurd (hlate _ hfirst.fails) (Nat.not_le.mpr hrank)
      · exact iff_of_true (hmore s hasked) fun other hfails =>
          Nat.le_trans hrank (hfirst.least other hfails)

theorem signsUp_hear (hb : h.ledger.Balanced) (honce : (Assoc.keys h.bans).Nodup)
    (hpending : Assoc.get? h.pending c = some link) (record : Record) :
    SignsUp h (h.hear c record) c link record := by
  have hhear : h.hear c record
      = ({ h with pending := Assoc.erase h.pending c } : Hall).judge c link record := by
    rw [hear, hpending]
  have hjudgement := judgement_judge h (Assoc.erase h.pending c) c link record
  have hframe := frame_judge { h with pending := Assoc.erase h.pending c } c link record
  rw [← hhear] at hjudgement hframe
  have hbalanced : (h.hear c record).ledger.Balanced :=
    (ledger_hear h c record).symm ▸ hb
  have hgone : Assoc.get? (h.hear c record).pending c = none := by
    rw [hframe]
    exact Assoc.get?_erase_self _ _
  refine ⟨hframe, hjudgement, created_of_judgement hjudgement, consulted_of_judgement hjudgement,
    unexpired_hear honce c record, fun later hlater => ?_⟩
  have hnone : Assoc.get? ((h.hear c record).run later).pending c = none := by
    rw [← Option.not_isSome_iff_eq_none]
    intro hsome
    rcases pending_run hbalanced hsome with hold | hnew
    · rw [hgone] at hold
      cases hold
    · exact hlater hnew
  refine ⟨hnone, fun next => ?_, ?_⟩
  · rw [hear, hnone]
  · rw [expireSignUp, hnone]

/-- **Sign-up is all or nothing**, for every first record of a connection, whatever has happened
before. -/
theorem signsUp_run (authenticator : Authenticator) (settings : Settings) (fingerprint : String)
    (epoch : Int) (events : List Event)
    (hpending : Assoc.get? ((new authenticator settings fingerprint epoch).run events).pending c
      = some link) (record : Record) :
    SignsUp ((new authenticator settings fingerprint epoch).run events)
      (((new authenticator settings fingerprint epoch).run events).hear c record) c link record := by
  have hb := balanced_new authenticator settings fingerprint epoch
  exact signsUp_hear (balanced_run hb events) (once_run hb List.nodup_nil events) hpending record

theorem signsUp_run_amy : SignsUp ((new (.openToAll []) .initial "rules" 0).run [.accept (.v4 10 0 0 1)])
    (((new (.openToAll []) .initial "rules" 0).run [.accept (.v4 10 0 0 1)]).hear 1 (helloRecord "amy")) 1
    ⟨Router.new 0, .v4 10 0 0 1, true, false, false⟩ (helloRecord "amy") :=
  signsUp_run (.openToAll []) .initial "rules" 0 [.accept (.v4 10 0 0 1)] (by decide +kernel)
    (helloRecord "amy")

end Hall

end GameHall
