import GameHall.Proofs.Hall.Hosting

/-!
# The making of a room

A room is made on a scheduler that accepts it, or on a new one. The pool is asked for it after it has been
swept, and the room is counted at once with the scheduler that was found (`moves_createRoom`).
-/

namespace GameHall

namespace Hall

variable {k : Nat}

theorem accounts_askAll (current : String) (m : Assoc Int Scheduler) :
    Assoc.mapValues Scheduler.account (Pool.askAll current m).2
      = Assoc.mapValues Scheduler.account m := by
  induction m with
  | nil => rfl
  | cons e m ih =>
      obtain ⟨id, s⟩ := e
      rw [Pool.askAll]
      split
      · rfl
      · show (id, (s.ask current).account) :: Assoc.mapValues _ (Pool.askAll current m).2 = _
        rw [ih, Scheduler.account_ask]
        rfl

/-- The scheduler that is found has a place. -/
theorem askAll_found {current : String} {m : Assoc Int Scheduler} {id : Int}
    (h : (Pool.askAll current m).1 = some id) :
    ∃ s, (id, s) ∈ m ∧ s.rooms < s.capacity := by
  induction m with
  | nil => cases h
  | cons e m ih =>
      obtain ⟨other, s⟩ := e
      rw [Pool.askAll] at h
      split at h
      · rename_i haccepts
        cases h
        refine ⟨s, List.mem_cons_self, ?_⟩
        have hfull : s.isFull = false := by
          simp only [Scheduler.accepts, Bool.and_eq_true, Bool.not_eq_true'] at haccepts
          exact haccepts.1.2
        simpa [Scheduler.isFull] using hfull
      · obtain ⟨s', hs', hplace⟩ := ih h
        exact ⟨s', List.mem_cons_of_mem _ hs', hplace⟩

/-- A scheduler is found that has a place, or one is spawned. -/
theorem acquire_eq {p q : Pool} {current : String} {capacity : Nat} {id : Int} {fresh : Bool}
    (h : p.acquire current capacity = ((id, fresh), q)) :
    (fresh = false ∧ q.nextId = p.nextId
        ∧ Assoc.mapValues Scheduler.account q.schedulers
          = Assoc.mapValues Scheduler.account p.schedulers
        ∧ ∃ s, (id, s) ∈ p.schedulers ∧ s.rooms < s.capacity)
      ∨ (fresh = true ∧ id = p.nextId ∧ q.nextId = p.nextId + 1
        ∧ Assoc.mapValues Scheduler.account q.schedulers
          = Assoc.mapValues Scheduler.account p.schedulers ++ [(p.nextId, ⟨0, capacity⟩)]) := by
  have haccounts := accounts_askAll current p.schedulers
  unfold Pool.acquire at h
  cases hfound : Pool.askAll current p.schedulers with
  | mk found schedulers =>
      rw [hfound] at h haccounts
      cases found with
      | some other =>
          cases h
          exact Or.inl ⟨rfl, rfl, haccounts, askAll_found (by rw [hfound])⟩
      | none =>
          cases h
          refine Or.inr ⟨rfl, rfl, rfl, ?_⟩
          rw [← haccounts]
          exact List.map_append

theorem ledger_place (h : Hall) (id : Int) (name : String) :
    (h.place id name).2.ledger = { h.ledger with
      hosts := Assoc.set h.ledger.hosts h.ledger.nextRoom id
      nextRoom := h.ledger.nextRoom + 1
      accounts := Assoc.update h.ledger.accounts id Account.more } := by
  have hset : ∀ (g : Hall) (r : Int) (x : Room), ({ g with rooms := Assoc.set g.rooms r x } : Hall).ledger
      = { g.ledger with hosts := Assoc.set g.ledger.hosts r x.scheduler } := by
    intro g r x
    have hm := Assoc.mapValues_set Room.scheduler g.rooms r x
    exact congrArg (fun m => { g.ledger with hosts := m }) hm
  have hmore := ledger_addRoom { h with nextRoom := h.nextRoom + 1 } id
  unfold place
  dsimp only
  rw [hset, ledger_signal, hmore]
  rfl

open Ledger in
/-- A room is made on a scheduler that has a place, and its owner is seated. -/
theorem moves_place {h : Hall} {id : Int} {a : Account}
    (ha : Assoc.get? h.ledger.accounts id = some a) (hplace : a.rooms < a.capacity) (owner : Int)
    (name : String) (s : Session) (x : Room) :
    Moves k h.ledger ((h.place id name).2.seat owner (h.place id name).1 s x).ledger := by
  rw [ledger_seat, ledger_place]
  exact Relation.ReflTransGen.single (Move.place ha hplace)

theorem roomsPerScheduler_pos (s : Settings) : 0 < s.roomsPerScheduler := Nat.le_max_right _ _

/-- The settings are for the administrator to change. -/
theorem detached_settings : Detached Hall.settings where
  acts _ _ := rfl
  pool _ _ := rfl

theorem ledger_setPool (h : Hall) (q : Pool) :
    ({ h with pool := q } : Hall).ledger = { h.ledger with
      accounts := Assoc.mapValues Scheduler.account q.schedulers, nextId := q.nextId } := rfl

open Ledger in
/-- **A new room is made where there is a place for it.** If a scheduler was to be spawned in vain,
there is none. -/
theorem moves_makeRoom {h : Hall} (hb : h.ledger.Balanced) (owner : Int) (s : Session)
    (name : String) (canSpawn : Bool) :
    Moves h.settings.roomsPerScheduler h.ledger (h.makeRoom owner s name canSpawn).2.ledger := by
  unfold makeRoom
  obtain ⟨⟨⟨id, fresh⟩, q⟩, hacq⟩ : ∃ found,
      h.pool.acquire h.fingerprint h.settings.roomsPerScheduler = found := ⟨_, rfl⟩
  have hpool := ledger_setPool h q
  rw [hacq]
  dsimp only
  rcases acquire_eq hacq with ⟨rfl, hnext, haccounts, s', hs', hplace⟩ |
    ⟨rfl, rfl, hnext, haccounts⟩
  · have hsame : ({ h with pool := q } : Hall).ledger = h.ledger := by
      rw [hpool, haccounts, hnext]
      rfl
    have hget : Assoc.get? h.ledger.accounts id = some s'.account :=
      (Assoc.get?_eq_some_iff hb.accountsOnce).mpr (List.mem_map.mpr ⟨(id, s'), hs', rfl⟩)
    rw [← hsame] at hget ⊢
    exact moves_place hget hplace owner name s _
  · have hspawn : Move h.settings.roomsPerScheduler h.ledger ({ h with pool := q } : Hall).ledger := by
      rw [hpool, haccounts, hnext]
      exact Move.spawn h.ledger
    have hb' := balanced_move hb hspawn
    have hget : Assoc.get? ({ h with pool := q } : Hall).ledger.accounts h.pool.nextId
        = some ⟨0, h.settings.roomsPerScheduler⟩ := by
      refine (Assoc.get?_eq_some_iff hb'.accountsOnce).mpr ?_
      rw [hpool, haccounts]
      exact List.mem_append_right _ List.mem_cons_self
    refine Relation.ReflTransGen.head hspawn ?_
    -- the scheduler that could not be started is taken out again
    cases canSpawn with
    | false =>
        refine moves_remove (h := { h with pool := q }) hb' ?_
        intro a ha
        rw [hget] at ha
        cases ha
        rfl
    | true =>
        exact moves_place (h := ({ h with pool := q } : Hall).act (.spawn h.pool.nextId)) hget
          (roomsPerScheduler_pos h.settings) owner name s _

open Ledger in
theorem moves_createRoom {h : Hall} (hb : h.ledger.Balanced) (owner : Int) (name : String)
    (canSpawn : Bool) :
    Moves h.settings.roomsPerScheduler h.ledger (h.createRoom owner name canSpawn).2.ledger := by
  unfold createRoom
  split
  · exact Relation.ReflTransGen.refl
  · rename_i s _
    have hswept := moves_sweep (k := h.settings.roomsPerScheduler) h
    have hmade := moves_makeRoom (balanced_moves hb hswept) owner s name canSpawn
    rw [detached_settings.sweep] at hmade
    exact hswept.trans hmade

end Hall

end GameHall
