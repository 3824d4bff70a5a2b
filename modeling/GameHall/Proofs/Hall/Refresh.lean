import GameHall.Proofs.Hall.Dossiers
import GameHall.Proofs.Hall.Sweeping

/-!
# When the rules change

The main loop looks at the bundle now and then. If the fingerprint cannot be taken, or is the one that is
known, nothing happens. Otherwise the pool is swept: a scheduler whose rules are others forgets them, and
leaves if it hosts no room. The rooms of those that stay are woken, unless the engine is down.

All that this asks of the world can be told from the hall before (`Reform`), and each of it is asked once.
The wakings are read off the schedulers in the pool and the rooms in the table; that no room is woken twice
or forgotten is due to the count of rooms being right, for an outdated scheduler stays just if it has
counted one.
-/

namespace GameHall

namespace Hall

open Scheduler

variable {h : Hall} {id : Int} {rules : String}

/-! ## Waking the rooms of a scheduler -/

/-- The wakings of the rooms of a scheduler. -/
def wakings (h : Hall) (id : Int) : List Act :=
  (h.roomsOf id).flatMap fun r => if h.hears id then [.signal id (.wake r "outdated")] else []

theorem wakeOutdated_eq (hres : h.Resigned id) : h.wakeOutdated id = h.actAll (h.wakings id) :=
  foldl_actAll fun acts r _ => signal_eq (h := h.actAll acts) hres (.wake r "outdated")

theorem foldl_wakeOutdated {l : List Int} (hres : ∀ id ∈ l, h.Resigned id) :
    l.foldl wakeOutdated h = h.actAll (l.flatMap h.wakings) :=
  foldl_actAll fun acts id hid => wakeOutdated_eq (h := h.actAll acts) (hres id hid)

/-! ## What is asked of the world -/

/-- **New rules, told at once**: the pool is swept, and the rooms of those who stay outdated are woken. -/
theorem refreshFingerprint_eq (hb : h.ledger.Balanced) (hne : rules ≠ h.fingerprint) :
    h.refreshFingerprint (.ok rules) = (.ok (),
      ({ h with fingerprint := rules, pool := h.pool.sweep rules } : Hall).actAll
        ((h.pool.idle rules).map Act.quit ++ (h.pool.busy rules).flatMap h.wakings)) := by
  have hkept : ∀ id ∈ h.pool.busy rules, ∃ s, h.pool.get? id = some s ∧ s.isOutdated rules = true
      ∧ (h.pool.sweep rules).get? id = some (s.check rules) := by
    intro id hid
    obtain ⟨s, hs, hout, hbusy⟩ := (mem_busy_iff hb).mp hid
    exact ⟨s, hs, hout, get?_sweep_of_busy (nodup_schedulers hb) hs hbusy⟩
  have hres : ∀ id ∈ h.pool.busy rules, ({ h with fingerprint := rules } : Hall).sweep.Resigned id := by
    intro id hid s' hs' _
    obtain ⟨s, _, hout, hleft⟩ := hkept id hid
    rw [(pool_sweep _).1] at hs'
    cases hleft.symm.trans hs'
    rw [check, if_pos hout]
    rfl
  -- the sweep makes no engine deaf that is told something
  have hsame : (h.pool.busy rules).flatMap ({ h with fingerprint := rules } : Hall).sweep.wakings
      = (h.pool.busy rules).flatMap h.wakings := by
    refine List.flatMap_congr fun id hid => ?_
    obtain ⟨s, hs, _, hleft⟩ := hkept id hid
    have hears' : ({ h with fingerprint := rules } : Hall).sweep.hears id = h.hears id := by
      rw [hears, hears, (pool_sweep _).1, hs]
      exact (congrArg (fun o => (Option.map isAlive o).getD false) hleft).trans (isAlive_check s rules)
    have hrooms : ({ h with fingerprint := rules } : Hall).sweep.rooms = h.rooms := by
      rw [sweep_eq]
      rfl
    rw [wakings, wakings, hears', roomsOf, roomsOf, hrooms]
  unfold refreshFingerprint
  dsimp only
  rw [if_neg hne, foldl_wakeOutdated hres, hsame, sweep_eq, ← actAll_append]

/-- What is asked of the world when the rules change. -/
inductive Reform (h : Hall) (rules : String) : Act → Prop where
  /-- An outdated scheduler that hosts no room is stopped. -/
  | quit {id : Int} {s : Scheduler} (hs : h.pool.get? id = some s) (hout : s.isOutdated rules = true)
      (hidle : s.rooms = 0) : Reform h rules (.quit id)
  /-- A room on an outdated scheduler is woken, if the engine is not down. The engine hears
  `ResumeRoom` with the room and the reason. -/
  | wake {r : Int} {x : Room} {s : Scheduler} (hx : h.room? r = some x)
      (hs : h.pool.get? x.scheduler = some s) (hout : s.isOutdated rules = true)
      (halive : s.isAlive = true) : Reform h rules (.signal x.scheduler (.wake r "outdated"))

theorem mem_wakings_iff {a : Act} : a ∈ h.wakings id
    ↔ h.hears id = true ∧ ∃ r ∈ h.roomsOf id, a = .signal id (.wake r "outdated") := by
  rw [wakings, List.mem_flatMap]
  by_cases hears : h.hears id = true
  · simp [hears]
  · simp [hears]

/-- **Each room of an outdated scheduler is woken, and none besides.** -/
theorem mem_reform_iff (hb : h.ledger.Balanced) (a : Act) :
    a ∈ (h.pool.idle rules).map Act.quit ++ (h.pool.busy rules).flatMap h.wakings
      ↔ h.Reform rules a := by
  rw [List.mem_append, List.mem_map, List.mem_flatMap]
  constructor
  · rintro (⟨id, hid, rfl⟩ | ⟨id, hid, ha⟩)
    · obtain ⟨s, hs, hout, hidle⟩ := (mem_idle_iff hb).mp hid
      exact .quit hs hout hidle
    · obtain ⟨s, hs, hout, _⟩ := (mem_busy_iff hb).mp hid
      obtain ⟨hears, r, hr, rfl⟩ := mem_wakings_iff.mp ha
      obtain ⟨x, hx, rfl⟩ := (mem_roomsOf_iff hb).mp hr
      obtain ⟨s', hs', halive⟩ := hears_eq_true_iff.mp hears
      cases hs.symm.trans hs'
      exact .wake hx hs hout halive
  · rintro (⟨hs, hout, hidle⟩ | ⟨hx, hs, hout, halive⟩)
    · exact Or.inl ⟨_, (mem_idle_iff hb).mpr ⟨_, hs, hout, hidle⟩, rfl⟩
    · refine Or.inr ⟨_, (mem_busy_iff hb).mpr ⟨_, hs, hout, rooms_ne_zero hb hx hs⟩, ?_⟩
      exact mem_wakings_iff.mpr ⟨hears_eq_true_iff.mpr ⟨_, hs, halive⟩, _,
        (mem_roomsOf_iff hb).mpr ⟨_, hx, rfl⟩, rfl⟩

theorem nodup_wakings (hrooms : (h.roomsOf id).Nodup) : (h.wakings id).Nodup := by
  refine List.nodup_flatMap.mpr ⟨fun r _ => ?_, hrooms.imp fun {r r'} hne => ?_⟩
  · split
    · exact List.nodup_singleton _
    · exact List.nodup_nil
  · intro a ha ha'
    dsimp only at ha ha'
    split at ha
    · rename_i hears
      rw [if_pos hears] at ha'
      cases (List.mem_singleton.mp ha).symm.trans (List.mem_singleton.mp ha')
      exact hne rfl
    · exact absurd ha List.not_mem_nil

/-- **No room is woken twice.** -/
theorem nodup_reform (hb : h.ledger.Balanced) (rules : String) :
    ((h.pool.idle rules).map Act.quit ++ (h.pool.busy rules).flatMap h.wakings).Nodup := by
  have hrooms : ∀ id, (h.roomsOf id).Nodup := fun id =>
    (accounted_of_balanced hb).roomsOnce.sublist (List.filter_sublist.map Prod.fst)
  refine List.nodup_append.mpr ⟨?_, ?_, ?_⟩
  · exact (nodup_idle hb rules).map fun id id' heq => by cases heq; rfl
  · refine List.nodup_flatMap.mpr ⟨fun id _ => nodup_wakings (hrooms id), ?_⟩
    refine (nodup_busy hb rules).imp fun {id id'} hne => ?_
    intro a ha ha'
    obtain ⟨_, r, _, rfl⟩ := mem_wakings_iff.mp ha
    obtain ⟨_, r', _, heq⟩ := mem_wakings_iff.mp ha'
    cases heq
    exact hne rfl
  · rintro a ha b hb' rfl
    obtain ⟨id, _, rfl⟩ := List.mem_map.mp ha
    obtain ⟨id', _, hmem⟩ := List.mem_flatMap.mp hb'
    obtain ⟨_, r, _, heq⟩ := mem_wakings_iff.mp hmem
    cases heq

/-! ## What it means for schedulers -/

/-- The rules of a hall have changed. -/
structure Refreshed (h g : Hall) (rules : String) : Prop where
  /-- Rooms, sessions, bans and all else are as they were. -/
  frame : g = { h with fingerprint := rules, pool := g.pool, acts := g.acts }
  /-- A scheduler with the new rules is as it was. -/
  current : ∀ id s, h.pool.get? id = some s → s.isOutdated rules = false → g.pool.get? id = some s
  /-- An outdated one that hosts rooms has forgotten its rules, and hosts them still. -/
  busy : ∀ id s, h.pool.get? id = some s → s.isOutdated rules = true → s.rooms ≠ 0 →
    g.pool.get? id = some { s with fingerprint := "" }
  /-- One that hosts none has left for good. -/
  idle : ∀ id s, h.pool.get? id = some s → s.isOutdated rules = true → s.rooms = 0 →
    ∀ later, (g.run later).pool.get? id = none
  absent : ∀ id, h.pool.get? id = none → g.pool.get? id = none
  /-- Whatever rules come later, one that was outdated stays so. -/
  lasting : ∀ id s, h.pool.get? id = some s → s.isOutdated rules = true →
    ∀ later s', (g.run later).pool.get? id = some s' → ∀ current, s'.isOutdated current = true
  /-- The idle schedulers are stopped, the rooms of the others woken, each once. -/
  acts : ∃ new, g.acts = h.acts ++ new ∧ new.Nodup ∧ ∀ a, a ∈ new ↔ h.Reform rules a
  /-- No connection is sent anything. -/
  mail : ∀ c, g.mail c = h.mail c

theorem refreshed_refreshFingerprint (hb : h.ledger.Balanced) (hne : rules ≠ h.fingerprint) :
    h.Refreshed (h.refreshFingerprint (.ok rules)).2 rules := by
  have hmail := fun c => congrArg Dossier.mail (dossier_refreshFingerprint h c (.ok rules))
  have hb' := Ledger.balanced_moves hb (moves_refreshFingerprint (k := 0) h (.ok rules))
  rw [refreshFingerprint_eq hb hne] at hmail hb' ⊢
  have hpool := get?_sweep_eq (nodup_schedulers hb) rules
  -- an outdated scheduler loses its fingerprint while it has rooms, and else is retired
  have hbusy : ∀ id s, h.pool.get? id = some s → s.isOutdated rules = true → s.rooms ≠ 0 →
      (h.pool.sweep rules).get? id = some { s with fingerprint := "" } := by
    intro id s hs hout hrooms
    rw [get?_sweep_of_busy (nodup_schedulers hb) hs hrooms, check, if_pos hout]
    rfl
  have hidle : ∀ id s, h.pool.get? id = some s → s.isOutdated rules = true → s.rooms = 0 →
      (h.pool.sweep rules).get? id = none := by
    intro id s hs hout hrooms
    rw [hpool, hs, Option.filter_some, if_neg (by simp [hout, hrooms])]
    rfl
  -- numbers are not given again, so one who is retired does not come back
  have hgiven : ∀ id s, h.pool.get? id = some s → id < h.pool.nextId := fun id s hs =>
    hb.accountsBelow id (Assoc.mem_keys_iff.mpr (by rw [account_of_get? hs]; rfl))
  exact {
    frame := rfl
    current := by
      intro id s hs hcurrent
      refine (hpool id).trans ?_
      rw [hs, Option.filter_some, if_pos (by simp [hcurrent]), Option.map_some, check, hcurrent]
      rfl
    busy := hbusy
    idle := fun id s hs hout hrooms => absent_run hb' (hgiven id s hs) (hidle id s hs hout hrooms)
    absent := by
      intro id hnone
      refine (hpool id).trans ?_
      rw [hnone]
      rfl
    -- a scheduler without a fingerprint does not get one again
    lasting := by
      intro id s hs hout later s' hs' current
      by_cases hrooms : s.rooms = 0
      · cases (absent_run hb' (hgiven id s hs) (hidle id s hs hout hrooms) later).symm.trans hs'
      · have hwanes := wanes_run hb' (hbusy id s hs hout hrooms) hs'
        exact isOutdated_iff.mpr (Or.inl (hwanes.fingerprint.elim (fun h => h) fun h => h))
    acts := ⟨_, rfl, nodup_reform hb rules, mem_reform_iff hb⟩
    mail := hmail }

/-- What comes of a look at the bundle. -/
structure Refreshes (h : Hall) : Prop where
  failed : ∀ fault, h.refreshFingerprint (.error fault) = (.error fault, h)
  same : h.refreshFingerprint (.ok h.fingerprint) = (.ok (), h)
  changed : ∀ rules, rules ≠ h.fingerprint → (h.refreshFingerprint (.ok rules)).1 = .ok ()
    ∧ h.Refreshed (h.refreshFingerprint (.ok rules)).2 rules

/-- **New rules make schedulers outdated, retire the idle ones and wake the rooms of the others once**, at
the end of any run. -/
theorem refreshes_run (authenticator : Authenticator) (settings : Settings) (fingerprint : String)
    (epoch : Int) (events : List Event) :
    ((new authenticator settings fingerprint epoch).run events).Refreshes := by
  have hb := balanced_run (balanced_new authenticator settings fingerprint epoch) events
  exact {
    failed := fun _ => rfl
    same := if_pos rfl
    changed := fun rules hne => ⟨congrArg Prod.fst (refreshFingerprint_eq hb hne),
      refreshed_refreshFingerprint hb hne⟩ }

end Hall

end GameHall
