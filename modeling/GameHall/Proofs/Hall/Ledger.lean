import GameHall.Proofs.Assoc
import Mathlib.Logic.Relation

/-!
# The ledger of rooms and schedulers

Which scheduler hosts a room stands with the room, and how many rooms a scheduler hosts is counted
with the scheduler. A `Ledger` has both sides and the numbers to be given next, and nothing else of a
hall. There are four ways in which it changes (`Ledger.Move`). Each keeps the count right
(`balanced_move`), and none gives a number a second time (`follows_move`).
-/

namespace GameHall

/-- What is counted with a scheduler. -/
structure Account where
  /-- How many rooms the scheduler hosts. -/
  rooms : Nat
  /-- How many it may host. -/
  capacity : Nat

namespace Account

/-- Counts a room more. -/
def more (a : Account) : Account := { a with rooms := a.rooms + 1 }

/-- Counts a room less. -/
def less (a : Account) : Account := { a with rooms := a.rooms - 1 }

end Account

/-- Who hosts what. -/
structure Ledger where
  /-- The scheduler of each room. -/
  hosts : Assoc Int Int
  nextRoom : Int
  accounts : Assoc Int Account
  nextId : Int

namespace Ledger

/-! ## How it changes -/

/-- How many rooms a scheduler hosts, as the rooms say. -/
def hostedBy (l : Ledger) (id : Int) : Nat := l.hosts.countP fun e => decide (e.2 = id)

/-- One change, when schedulers are spawned for `capacity` rooms. -/
inductive Move (capacity : Nat) : Ledger → Ledger → Prop where
  /-- A scheduler is spawned. -/
  | spawn (l : Ledger) :
      Move capacity l { l with
        accounts := l.accounts ++ [(l.nextId, ⟨0, capacity⟩)], nextId := l.nextId + 1 }
  /-- Schedulers are retired that host no room. -/
  | retire {l : Ledger} {accounts : Assoc Int Account} (hsub : accounts.Sublist l.accounts)
      (hidle : ∀ e ∈ l.accounts, e ∉ accounts → e.2.rooms = 0) :
      Move capacity l { l with accounts := accounts }
  /-- A room is made on a scheduler with a place for it. -/
  | place {l : Ledger} {id : Int} {a : Account} (ha : Assoc.get? l.accounts id = some a)
      (hplace : a.rooms < a.capacity) :
      Move capacity l { l with
        hosts := Assoc.set l.hosts l.nextRoom id, nextRoom := l.nextRoom + 1
        accounts := Assoc.update l.accounts id Account.more }
  /-- A room ends. -/
  | finish {l : Ledger} {r id : Int} (hr : Assoc.get? l.hosts r = some id) :
      Move capacity l { l with
        hosts := Assoc.erase l.hosts r
        accounts := Assoc.update l.accounts id Account.less }

/-- Several changes, one after the other. -/
abbrev Moves (capacity : Nat) : Ledger → Ledger → Prop := Relation.ReflTransGen (Move capacity)

/-! ## The count -/

/-- What a scheduler has counted is what the rooms say, and not more than it may host. -/
structure Balanced (l : Ledger) : Prop where
  roomsOnce : (Assoc.keys l.hosts).Nodup
  roomsBelow : ∀ r ∈ Assoc.keys l.hosts, r < l.nextRoom
  accountsOnce : (Assoc.keys l.accounts).Nodup
  accountsBelow : ∀ id ∈ Assoc.keys l.accounts, id < l.nextId
  counted : ∀ id a, Assoc.get? l.accounts id = some a → a.rooms = l.hostedBy id
  bounded : ∀ id a, Assoc.get? l.accounts id = some a → a.rooms ≤ a.capacity
  hosted : ∀ r id, Assoc.get? l.hosts r = some id → id ∈ Assoc.keys l.accounts

variable {capacity : Nat} {l l' : Ledger}

/-- A scheduler that hosts a room has counted it. -/
theorem hostedBy_pos {r id : Int} (hr : Assoc.get? l.hosts r = some id) : 0 < l.hostedBy id :=
  List.countP_pos_iff.mpr ⟨(r, id), Assoc.mem_of_get? hr, decide_eq_true rfl⟩

theorem balanced_spawn (h : l.Balanced) :
    Balanced { l with
      accounts := l.accounts ++ [(l.nextId, ⟨0, capacity⟩)], nextId := l.nextId + 1 } := by
  have hnew : l.nextId ∉ Assoc.keys l.accounts := fun hmem => by
    have := h.accountsBelow _ hmem
    omega
  have hget : ∀ id a, Assoc.get? (l.accounts ++ [(l.nextId, ⟨0, capacity⟩)]) id = some a →
      Assoc.get? l.accounts id = some a ∨ id = l.nextId ∧ a = ⟨0, capacity⟩ := by
    intro id a ha
    rw [Assoc.get?_append, Option.or_eq_some_iff] at ha
    rcases ha with ha | ⟨_, ha⟩
    · exact Or.inl ha
    · obtain ⟨heq⟩ := List.mem_singleton.mp (Assoc.mem_of_get? ha)
      exact Or.inr ⟨rfl, rfl⟩
  -- nobody hosts a room for a scheduler that was not there
  have hnone : l.hostedBy l.nextId = 0 := by
    refine List.countP_eq_zero.mpr ?_
    intro ⟨r, id⟩ he hid
    have hid' : id = l.nextId := of_decide_eq_true hid
    refine hnew (hid' ▸ h.hosted r id ?_)
    exact (Assoc.get?_eq_some_iff h.roomsOnce).mpr he
  exact {
    roomsOnce := h.roomsOnce
    roomsBelow := h.roomsBelow
    accountsOnce := by
      rw [Assoc.keys_append]
      refine List.nodup_append.mpr ⟨h.accountsOnce, List.nodup_singleton _, ?_⟩
      intro a ha b hb hab
      rw [hab, List.mem_singleton.mp hb] at ha
      exact hnew ha
    accountsBelow := by
      intro id hid
      show id < l.nextId + 1
      rw [Assoc.keys_append] at hid
      rcases List.mem_append.mp hid with hid | hid
      · have := h.accountsBelow id hid
        omega
      · have : id = l.nextId := List.mem_singleton.mp hid
        omega
    counted := by
      intro id a ha
      rcases hget id a ha with ha | ⟨rfl, rfl⟩
      · exact h.counted id a ha
      · exact hnone.symm
    bounded := by
      intro id a ha
      rcases hget id a ha with ha | ⟨rfl, rfl⟩
      · exact h.bounded id a ha
      · exact Nat.zero_le _
    hosted := by
      intro r id hr
      rw [Assoc.keys_append]
      exact List.mem_append_left _ (h.hosted r id hr) }

/-- Schedulers that host no room may be struck off. -/
theorem balanced_retire (h : l.Balanced) {accounts : Assoc Int Account}
    (hsub : accounts.Sublist l.accounts) (hidle : ∀ e ∈ l.accounts, e ∉ accounts → e.2.rooms = 0) :
    Balanced { l with accounts := accounts } where
  roomsOnce := h.roomsOnce
  roomsBelow := h.roomsBelow
  accountsOnce := h.accountsOnce.sublist (hsub.map _)
  accountsBelow := fun id hid => h.accountsBelow id ((hsub.map _).mem hid)
  counted := fun id a ha => h.counted id a (Assoc.get?_of_sublist h.accountsOnce hsub ha)
  bounded := fun id a ha => h.bounded id a (Assoc.get?_of_sublist h.accountsOnce hsub ha)
  hosted := by
    intro r id hr
    obtain ⟨a, ha⟩ := Option.isSome_iff_exists.mp (Assoc.mem_keys_iff.mp (h.hosted r id hr))
    -- a scheduler that is gone had counted no room, but it hosts this one
    by_contra hgone
    have hzero : a.rooms = 0 := by
      refine hidle _ (Assoc.mem_of_get? ha) fun hmem => ?_
      exact hgone (List.mem_map.mpr ⟨_, hmem, rfl⟩)
    have hcount := h.counted id a ha
    have hpos : 0 < l.hostedBy id := hostedBy_pos hr
    omega

/-- A room is placed on a scheduler below its capacity, and both sides count one more. -/
theorem balanced_place (h : l.Balanced) {id : Int} {a : Account}
    (ha : Assoc.get? l.accounts id = some a) (hplace : a.rooms < a.capacity) :
    Balanced { l with
      hosts := Assoc.set l.hosts l.nextRoom id, nextRoom := l.nextRoom + 1
      accounts := Assoc.update l.accounts id Account.more } := by
  have hnew : l.nextRoom ∉ Assoc.keys l.hosts := fun hmem => by
    have := h.roomsBelow _ hmem
    omega
  have hset := Assoc.set_of_not_mem hnew id
  -- the new room counts for its scheduler alone
  have hhosted : ∀ other, (Assoc.set l.hosts l.nextRoom id).countP (fun e => decide (e.2 = other))
      = l.hostedBy other + if id = other then 1 else 0 := by
    intro other
    rw [hset, List.countP_append, List.countP_singleton, hostedBy]
    simp only [decide_eq_true_eq]
  exact {
    roomsOnce := Assoc.nodup_set h.roomsOnce _ _
    roomsBelow := by
      intro r hr
      show r < l.nextRoom + 1
      rw [hset, Assoc.keys_append] at hr
      rcases List.mem_append.mp hr with hr | hr
      · have := h.roomsBelow r hr
        omega
      · have : r = l.nextRoom := List.mem_singleton.mp hr
        omega
    accountsOnce := by rw [Assoc.keys_update]; exact h.accountsOnce
    accountsBelow := by rw [Assoc.keys_update]; exact h.accountsBelow
    counted := by
      intro other b hb
      rw [Assoc.get?_update] at hb
      show b.rooms = _
      rw [hostedBy, hhosted]
      split at hb
      · rename_i he
        obtain ⟨c, hc, rfl⟩ := Option.map_eq_some_iff.mp hb
        rw [if_pos he.symm, ← h.counted other c hc]
        rfl
      · rename_i he
        rw [if_neg (Ne.symm he)]
        exact h.counted other b hb
    bounded := by
      intro other b hb
      rw [Assoc.get?_update] at hb
      split at hb
      · rename_i he
        rw [he, ha] at hb
        cases hb
        exact hplace
      · exact h.bounded other b hb
    hosted := by
      intro r other hr
      rw [Assoc.keys_update]
      rw [Assoc.get?_set] at hr
      split at hr
      · cases hr
        exact List.mem_map.mpr ⟨_, Assoc.mem_of_get? ha, rfl⟩
      · exact h.hosted r other hr }

theorem balanced_finish (h : l.Balanced) {r id : Int} (hr : Assoc.get? l.hosts r = some id) :
    Balanced { l with
      hosts := Assoc.erase l.hosts r
      accounts := Assoc.update l.accounts id Account.less } := by
  -- the room has counted for its scheduler, so the count does not stop short at none
  have hhosted : ∀ other, l.hostedBy other
      = (Assoc.erase l.hosts r).countP (fun e => decide (e.2 = other))
        + if id = other then 1 else 0 := by
    intro other
    rw [hostedBy, Assoc.countP_erase h.roomsOnce hr]
    simp only [decide_eq_true_eq]
  exact {
    roomsOnce := Assoc.nodup_erase h.roomsOnce r
    roomsBelow := fun q hq => h.roomsBelow q ((List.filter_sublist.map _).mem hq)
    accountsOnce := by rw [Assoc.keys_update]; exact h.accountsOnce
    accountsBelow := by rw [Assoc.keys_update]; exact h.accountsBelow
    counted := by
      intro other b hb
      have hother := hhosted other
      rw [Assoc.get?_update] at hb
      show b.rooms = List.countP _ (Assoc.erase l.hosts r)
      split at hb
      · rename_i he
        obtain ⟨c, hc, rfl⟩ := Option.map_eq_some_iff.mp hb
        have hcount := h.counted other c hc
        rw [if_pos he.symm] at hother
        show c.rooms - 1 = _
        omega
      · rename_i he
        have hcount := h.counted other b hb
        rw [if_neg (Ne.symm he)] at hother
        omega
    bounded := by
      intro other b hb
      rw [Assoc.get?_update] at hb
      split at hb
      · obtain ⟨c, hc, rfl⟩ := Option.map_eq_some_iff.mp hb
        have := h.bounded other c hc
        show c.rooms - 1 ≤ c.capacity
        omega
      · exact h.bounded other b hb
    hosted := by
      intro q other hq
      rw [Assoc.keys_update]
      rw [Assoc.get?_erase] at hq
      split at hq
      · cases hq
      · exact h.hosted q other hq }

/-- **Every change keeps the count right.** -/
theorem balanced_move (h : l.Balanced) (hm : Move capacity l l') : l'.Balanced := by
  cases hm with
  | spawn => exact balanced_spawn h
  | retire hsub hidle => exact balanced_retire h hsub hidle
  | place ha hplace => exact balanced_place h ha hplace
  | finish hr => exact balanced_finish h hr

theorem balanced_moves (h : l.Balanced) (hm : Moves capacity l l') : l'.Balanced := by
  induction hm with
  | refl => exact h
  | tail _ hm ih => exact balanced_move ih hm

/-! ## What stays the same -/

/-- Rooms stay where they are, schedulers keep the capacity they were spawned with, and whatever was
not there before has a number that had not been given. -/
structure Follows (fresh : Nat → Prop) (l l' : Ledger) : Prop where
  nextRoom : l.nextRoom ≤ l'.nextRoom
  nextId : l.nextId ≤ l'.nextId
  hosts : ∀ r id, Assoc.get? l'.hosts r = some id →
    Assoc.get? l.hosts r = some id ∨ l.nextRoom ≤ r
  accounts : ∀ id a', Assoc.get? l'.accounts id = some a' →
    (∃ a, Assoc.get? l.accounts id = some a ∧ a'.capacity = a.capacity)
      ∨ l.nextId ≤ id ∧ fresh a'.capacity

theorem follows_refl {fresh : Nat → Prop} (l : Ledger) : Follows fresh l l where
  nextRoom := Int.le_refl _
  nextId := Int.le_refl _
  hosts := fun _ _ hr => Or.inl hr
  accounts := fun _ a ha => Or.inl ⟨a, ha, rfl⟩

theorem follows_trans {fresh : Nat → Prop} {l'' : Ledger} (h : Follows fresh l l')
    (h' : Follows fresh l' l'') : Follows fresh l l'' where
  nextRoom := Int.le_trans h.nextRoom h'.nextRoom
  nextId := Int.le_trans h.nextId h'.nextId
  hosts := by
    intro r id hr
    rcases h'.hosts r id hr with hr' | hr'
    · exact h.hosts r id hr'
    · exact Or.inr (Int.le_trans h.nextRoom hr')
  accounts := by
    intro id a'' ha''
    rcases h'.accounts id a'' ha'' with ⟨a', ha', heq⟩ | ⟨hid, hfresh⟩
    · rw [heq]
      exact h.accounts id a' ha'
    · exact Or.inr ⟨Int.le_trans h.nextId hid, hfresh⟩

/-- How the capacities of new schedulers are restricted may be loosened. -/
theorem follows_mono {fresh fresh' : Nat → Prop} (hmono : ∀ k, fresh k → fresh' k)
    (h : Follows fresh l l') : Follows fresh' l l' :=
  { h with
    accounts := by
      intro id a' ha'
      exact (h.accounts id a' ha').imp_right fun hid => ⟨hid.1, hmono _ hid.2⟩ }

/-- **No change moves a room or gives a number again.** -/
theorem follows_move (h : l.Balanced) (hm : Move capacity l l') :
    Follows (fun k => k = capacity) l l' := by
  have hrefl : Follows (fun k => k = capacity) l l := follows_refl l
  -- an account that is updated has been there, and its capacity is not touched
  have hcapacity : ∀ (other : Int) (f : Account → Account), (∀ a, (f a).capacity = a.capacity) →
      ∀ id a', Assoc.get? (Assoc.update l.accounts other f) id = some a' →
        (∃ a, Assoc.get? l.accounts id = some a ∧ a'.capacity = a.capacity)
          ∨ l.nextId ≤ id ∧ a'.capacity = capacity := by
    intro other f hf id a' ha'
    rw [Assoc.get?_update] at ha'
    split at ha'
    · obtain ⟨a, ha, rfl⟩ := Option.map_eq_some_iff.mp ha'
      exact Or.inl ⟨a, ha, hf a⟩
    · exact Or.inl ⟨a', ha', rfl⟩
  cases hm with
  | spawn =>
      refine { hrefl with nextId := Int.le_add_one (Int.le_refl _), accounts := ?_ }
      intro id a' ha'
      rw [Assoc.get?_append, Option.or_eq_some_iff] at ha'
      rcases ha' with ha' | ⟨_, ha'⟩
      · exact Or.inl ⟨a', ha', rfl⟩
      · obtain ⟨heq⟩ := List.mem_singleton.mp (Assoc.mem_of_get? ha')
        exact Or.inr ⟨Int.le_refl _, rfl⟩
  | retire hsub hidle =>
      refine { hrefl with accounts := ?_ }
      intro id a' ha'
      exact Or.inl ⟨a', Assoc.get?_of_sublist h.accountsOnce hsub ha', rfl⟩
  | place ha hplace =>
      exact {
        nextRoom := Int.le_add_one (Int.le_refl _)
        nextId := Int.le_refl _
        hosts := by
          intro r id hr
          rw [Assoc.get?_set] at hr
          split at hr
          · rename_i he
            exact Or.inr (Int.le_of_eq he)
          · exact Or.inl hr
        accounts := hcapacity _ _ fun _ => rfl }
  | finish hr =>
      refine { hrefl with hosts := ?_, accounts := hcapacity _ _ fun _ => rfl }
      intro r id hr'
      rw [Assoc.get?_erase] at hr'
      split at hr'
      · cases hr'
      · exact Or.inl hr'

theorem follows_moves (h : l.Balanced) (hm : Moves capacity l l') :
    Follows (fun k => k = capacity) l l' := by
  induction hm with
  | refl => exact follows_refl l
  | tail hms hm ih => exact follows_trans ih (follows_move (balanced_moves h hms) hm)

end Ledger

end GameHall
