import GameHall.Proofs.Hall.Draining
import GameHall.Proofs.Hall.Views
import GameHall.Proofs.Lists

/-!
# The docket

What bans are made of is a small part of the hall, its docket, and most operations leave it alone. Some
addresses are banned in a change of the hall (`Bars`) if the docket has their bans afterwards and those of
all others as they were. Changes that bar some addresses can be put together (`bars_trans`).

Who is banned when a room ends depends on whether its scheduler is current, so what leaves that alone is
told here as well.
-/

namespace GameHall

/-- The nanoseconds of so many minutes. -/
def minutes (n : Nat) : Nat := (Duration.ofSeconds (n * 60)).nanoseconds

namespace Hall

open Scheduler

/-! ## What leaves the bans alone -/

/-- What bans are made of, and whether the main loop has died of one. -/
structure Docket where
  now : Moment
  settings : Settings
  bans : Assoc Host Moment
  crashed : Bool

/-- The bans of a hall. -/
def docket (h : Hall) : Docket := ⟨h.now, h.settings, h.bans, h.crashed⟩

/-- The docket sees nothing of what goes on in rooms and on the wire, nor of sessions. -/
theorem blind_docket : Blind docket where
  acts _ _ := rfl
  rooms _ _ := rfl
  nextRoom _ _ := rfl
  pool _ _ := rfl
  fingerprint _ _ := rfl
  pending _ _ := rfl
  lastConnection _ _ := rfl
  session _ _ _ _ _ := rfl

/-- The bans that are over are forgotten when a sign-up is looked at. -/
theorem docket_hear (h : Hall) (c : Int) (record : Record) :
    (h.hear c record).docket = h.docket
      ∨ (h.hear c record).docket = { h.docket with bans := h.currentBans } := by
  unfold hear
  split
  · rename_i link _
    unfold judge
    split
    · exact Or.inl (blind_docket.reject _ c link _)
    · refine Or.inr ?_
      dsimp only
      split
      · exact blind_docket.reject _ c link _
      · split
        · exact blind_docket.reject _ c link _
        · rcases blind_docket.signUp_cases _ c link _ _ with heq | ⟨_, _, _, g, heq, hg⟩
          · exact heq
          · rw [heq]
            exact hg
  · exact Or.inl (blind_docket.route h c record)

/-! ## Which schedulers are current -/

section current

theorem isCurrent_of_engines {h g : Hall} (heq : g.engines = h.engines) (id : Int) :
    g.isCurrent id = h.isCurrent id := by
  have hpool : g.pool = h.pool := congrArg Prod.fst heq
  have hrules : g.fingerprint = h.fingerprint := congrArg Prod.snd heq
  rw [isCurrent, isCurrent, hpool, hrules]

theorem isCurrent_update (h : Hall) (id other : Int) {f : Scheduler → Scheduler}
    (hf : ∀ s, h.pool.get? id = some s → ((f s).isAlive && !(f s).isOutdated h.fingerprint)
      = (s.isAlive && !s.isOutdated h.fingerprint)) :
    ({ h with pool := h.pool.update id f } : Hall).isCurrent other = h.isCurrent other := by
  unfold isCurrent
  rw [get?_update]
  by_cases heq : other = id
  · subst heq
    rw [if_pos rfl]
    cases hs : h.pool.get? other with
    | none => rfl
    | some s => exact hf s hs
  · rw [if_neg heq]

/-- A scheduler that is looked at stays current, or not. -/
theorem current_check (s : Scheduler) (rules : String) :
    ((s.check rules).isAlive && !(s.check rules).isOutdated rules)
      = (s.isAlive && !s.isOutdated rules) := by
  rw [isAlive_check, isOutdated_check]

variable (h : Hall) (other : Int)

@[simp] theorem isCurrent_signal (id : Int) (signal : Signal) :
    (h.signal id signal).isCurrent other = h.isCurrent other := by
  unfold Hall.signal
  split
  · rfl
  · rename_i sch hsch
    split
    · exact isCurrent_of_engines rfl other
    · rename_i hdead
      refine isCurrent_update h id other fun s hs => ?_
      cases hsch.symm.trans hs
      have hdown : sch.isAlive = false := Bool.eq_false_iff.mpr hdead
      have hdown' : sch.markOutdated.isAlive = false := hdown
      rw [hdown, hdown', Bool.false_and, Bool.false_and]

@[simp] theorem isCurrent_askCurrent (id : Int) :
    (h.askCurrent id).isCurrent other = h.isCurrent other := by
  refine isCurrent_update h id other fun s _ => ?_
  split
  · exact current_check s h.fingerprint
  · rfl

/-- A scheduler that is retired because it is idle and outdated was not current. -/
@[simp] theorem isCurrent_retireIdle (id : Int) :
    (h.retireIdle id).isCurrent other = h.isCurrent other := by
  unfold retireIdle
  split
  · rfl
  · rename_i s hs
    split
    · have hchecked : ({ h with pool := h.pool.update id fun s => s.check h.fingerprint } : Hall).isCurrent
          other = h.isCurrent other := isCurrent_update h id other fun s _ => current_check s _
      dsimp only
      split
      · rename_i hout
        unfold isCurrent at hchecked ⊢
        rw [get?_retire, (rules_retire _ id).1]
        by_cases heq : other = id
        · subst heq
          rw [if_pos rfl, hs]
          simp [hout]
        · rw [if_neg heq]
          exact hchecked
      · exact hchecked
    · rfl

@[simp] theorem isCurrent_releaseScheduler (r id : Int) :
    (h.releaseScheduler r id).isCurrent other = h.isCurrent other := by
  unfold releaseScheduler
  rw [isCurrent_retireIdle]
  refine (isCurrent_update _ id other (f := Scheduler.removeRoom) fun _ _ => rfl).trans ?_
  rw [isCurrent_signal, isCurrent_signal]

/-- To end a room leaves current schedulers current. -/
theorem isCurrent_finish (r : Int) (x : Room) :
    (h.finish r x).isCurrent other = h.isCurrent other := by
  unfold finish
  dsimp only
  rw [isCurrent_releaseScheduler,
    isCurrent_of_engines (view_foldl (fun h c => unpeopled_engines.releasePlayer h _ c) _ x.players),
    isCurrent_askCurrent, isCurrent_of_engines (view_foldl unpeopled_engines.releaseObserver _ x.observers)]
  exact isCurrent_of_engines rfl other

end current

/-! ## To ban some addresses -/

/-- The addresses that `P` tells are banned at one moment, and the bans of others stay. Where a ban
cannot be noted because it would end beyond the last moment, the main loop dies. -/
structure Bars (P : Host → Prop) (h g : Hall) : Prop where
  now : g.now = h.now
  settings : g.settings = h.settings
  once : (Assoc.keys h.bans).Nodup → (Assoc.keys g.bans).Nodup
  crashed : h.crashed = true → g.crashed = true
  banned : ∀ a, P a → 0 < h.settings.tempBanTime → g.crashed = false →
    Assoc.get? g.bans a = some (h.now + minutes h.settings.tempBanTime)
  spared : ∀ a, ¬ (P a ∧ 0 < h.settings.tempBanTime) →
    Assoc.get? g.bans a = Assoc.get? h.bans a

theorem bars_none {h g : Hall} (heq : g.docket = h.docket) {P : Host → Prop} (hP : ∀ a, ¬ P a) :
    Bars P h g where
  now := congrArg Docket.now heq
  settings := congrArg Docket.settings heq
  once := by
    rw [show g.bans = h.bans from congrArg Docket.bans heq]
    exact id
  crashed := by
    rw [show g.crashed = h.crashed from congrArg Docket.crashed heq]
    exact id
  banned := fun a ha => absurd ha (hP a)
  spared := fun _ _ => by rw [show g.bans = h.bans from congrArg Docket.bans heq]

theorem bars_still {h g : Hall} (heq : g.docket = h.docket) : Bars (fun _ => False) h g :=
  bars_none heq fun _ => id

theorem bars_after {P : Host → Prop} {h g k : Hall} (heq : g.docket = h.docket) (hP : Bars P g k) :
    Bars P h k where
  now := hP.now.trans (congrArg Docket.now heq)
  settings := hP.settings.trans (congrArg Docket.settings heq)
  once := by
    rw [← show g.bans = h.bans from congrArg Docket.bans heq]
    exact hP.once
  crashed := by
    rw [← show g.crashed = h.crashed from congrArg Docket.crashed heq]
    exact hP.crashed
  banned := by
    rw [← show g.now = h.now from congrArg Docket.now heq,
      ← show g.settings = h.settings from congrArg Docket.settings heq]
    exact hP.banned
  spared := by
    rw [← show g.bans = h.bans from congrArg Docket.bans heq,
      ← show g.settings = h.settings from congrArg Docket.settings heq]
    exact hP.spared

theorem bars_of_docket {P : Host → Prop} {h g k : Hall} (hbars : Bars P h g)
    (heq : k.docket = g.docket) : Bars P h k where
  now := (congrArg Docket.now heq).trans hbars.now
  settings := (congrArg Docket.settings heq).trans hbars.settings
  once := by
    rw [show k.bans = g.bans from congrArg Docket.bans heq]
    exact hbars.once
  crashed := by
    rw [show k.crashed = g.crashed from congrArg Docket.crashed heq]
    exact hbars.crashed
  banned := by
    rw [show k.crashed = g.crashed from congrArg Docket.crashed heq,
      show k.bans = g.bans from congrArg Docket.bans heq]
    exact hbars.banned
  spared := by
    rw [show k.bans = g.bans from congrArg Docket.bans heq]
    exact hbars.spared

theorem bars_trans {P Q R : Host → Prop} {h g k : Hall} (hP : Bars P h g) (hQ : Bars Q g k)
    (hR : ∀ a, R a ↔ P a ∨ Q a) : Bars R h k where
  now := hQ.now.trans hP.now
  settings := hQ.settings.trans hP.settings
  once := fun h => hQ.once (hP.once h)
  crashed := fun h => hQ.crashed (hP.crashed h)
  banned := by
    intro a ha htime hup
    by_cases hq : Q a
    · rw [hQ.banned a hq (hP.settings.symm ▸ htime) hup, hP.now, hP.settings]
    · rw [hQ.spared a fun h => hq h.1]
      refine hP.banned a (((hR a).mp ha).resolve_right hq) htime (Bool.eq_false_iff.mpr fun hdown => ?_)
      rw [hQ.crashed hdown] at hup
      cases hup
  spared := by
    intro a ha
    rw [hQ.spared a fun hq => ha ⟨(hR a).mpr (Or.inr hq.1), hP.settings ▸ hq.2⟩]
    exact hP.spared a fun hp => ha ⟨(hR a).mpr (Or.inl hp.1), hp.2⟩

theorem bars_congr {P Q : Host → Prop} {h g : Hall} (hP : Bars P h g) (hPQ : ∀ a, Q a ↔ P a) :
    Bars Q h g :=
  bars_trans hP (bars_none rfl fun _ => id) fun a => (hPQ a).trans (or_iff_left id).symm

/-- A ban that the clock has room for is as long as the settings say. -/
theorem end_of_after? {now t : Moment} {n : Nat}
    (h : Moment.after? now (Duration.ofSeconds (min (n * 60) (UInt64.size - 1))) = some t) :
    t = now + minutes n := by
  unfold Moment.after? at h
  split at h
  · rename_i hlt
    cases h
    -- a span of more seconds than the word has goes beyond the last moment
    have hle : n * 60 ≤ UInt64.size - 1 := by
      by_contra hgt
      rw [Nat.min_eq_right (Nat.le_of_not_le hgt)] at hlt
      have hword : Moment.limit ≤ (Duration.ofSeconds (UInt64.size - 1)).nanoseconds := by decide
      exact absurd (Nat.lt_of_le_of_lt (Nat.le_add_left _ now) hlt) (Nat.not_lt.mpr hword)
    rw [Nat.min_eq_left hle]
    rfl
  · cases h

theorem bars_ban (h : Hall) (host : Host) : Bars (fun a => a = host) h (h.ban host) := by
  unfold ban
  split
  · rename_i hzero
    exact {
      now := rfl
      settings := rfl
      once := id
      crashed := id
      banned := fun a _ htime => absurd htime (by omega)
      spared := fun _ _ => rfl }
  · rename_i htime
    dsimp only
    split
    · rename_i t ht
      exact {
        now := rfl
        settings := rfl
        once := fun hn => Assoc.nodup_set hn _ _
        crashed := id
        banned := by
          rintro a rfl _ _
          rw [end_of_after? ht]
          exact Assoc.get?_set_self _ _ _
        spared := by
          intro a ha
          exact Assoc.get?_set_of_ne fun heq => ha ⟨heq.symm, Nat.pos_of_ne_zero htime⟩ }
    · -- the clock has no room for the end of the ban, and the server is down
      exact {
        now := rfl
        settings := rfl
        once := id
        crashed := fun _ => rfl
        banned := fun _ _ _ hup => nomatch hup
        spared := fun _ _ => rfl }

end Hall

end GameHall
