import GameHall.Proofs.Hall.Whereabouts

/-!
# What a room hears of one connection

The calls about a room that a run makes, in order and each with its event (`told`), say something of
connections: that one has a seat, says something, is gone, watches or stops to watch (`Event.deal?`).

What they say of one connection goes with how it stands to the room (`Abreast`), as long as the
scheduler of the room hears. Every event keeps this, if the connection does nothing after its end
(`abreast_step`).
-/

namespace GameHall

/-- The room a signal is about. -/
def Signal.room : Signal → Int
  | request r _ _ _ => r
  | wake r _ => r
  | playerState r _ _ => r
  | addObserver r _ => r
  | removeObserver r _ => r
  | arm _ r _ => r
  | disarm _ r => r

namespace Hall

/-- Whether an event is a record. -/
def Event.isRecord : Event → Bool
  | record _ _ => true
  | _ => false

/-- What a signal says of which connection, if an event has made it. A player who joins may be announced
by a record as well, but that is a message like any other. Who begins to watch is not told by number, and
is the one who has asked. -/
def Event.deal? (e : Event) : Signal → Option (Int × Deal)
  | .request _ c command _ =>
    if e.isRecord then some (c, .message)
    else if command = Utf8.encode "join" then some (c, .join)
    else none
  | .playerState _ c .offline => some (c, .offline)
  | .addObserver _ _ => e.watches?.map fun p => (p.1, .watch)
  | .removeObserver _ c => some (c, .unwatch)
  | _ => none

/-- What a signal says to a room of a connection. -/
def Event.dealWith? (e : Event) (c r : Int) (s : Signal) : Option Deal :=
  if s.room = r then (e.deal? s).bind fun p => if p.1 = c then some p.2 else none else none

/-- What calls say to a room of a connection. -/
def Event.deals (e : Event) (c r : Int) (calls : List (Int × Signal)) : List Deal :=
  calls.filterMap fun call => e.dealWith? c r call.2

/-- A call with its scheduler and the event that has made it. -/
structure Call where
  event : Event
  scheduler : Int
  signal : Signal

/-- The calls of a run. -/
def trace (h : Hall) : List Event → List Call
  | [] => []
  | e :: events => (h.callsOf e).map (fun call => ⟨e, call.1, call.2⟩) ++ (h.step e).trace events

/-- The calls of a run that are about a room. -/
def told (h : Hall) (r : Int) (events : List Event) : List Call :=
  (h.trace events).filter fun call => call.signal.room = r

/-- What a room hears of a connection in a run. -/
def deals (h : Hall) (c r : Int) (events : List Event) : List Deal :=
  (h.told r events).filterMap fun call => call.event.dealWith? c r call.signal

section lists

variable {e : Event} {c d r : Int} {s : Signal}

theorem isRecord_of_makes? {asked : Int × String} (he : e.makes? = some asked) : e.isRecord = false := by
  cases e <;> first | rfl | cases he

theorem isRecord_of_sits? {asked : Int × Int} (he : e.sits? = some asked) : e.isRecord = false := by
  cases e <;> first | rfl | cases he

theorem deal?_newRoomSignal (he : e.isRecord = false) (r : Int) (name : String) :
    e.deal? (newRoomSignal r name) = none := by
  rw [newRoomSignal, Event.deal?, he, if_neg (by decide), if_neg (by decide)]

theorem deal?_joinSignal (he : e.isRecord = false) (r c : Int) (s : Session) :
    e.deal? (joinSignal r c s) = some (c, .join) := by
  rw [joinSignal, Event.deal?, he, if_neg (by decide), if_pos rfl]

theorem dealWith?_of {deal : Deal} (h : e.deal? s = some (d, deal)) :
    e.dealWith? c r s = if d = c ∧ s.room = r then some deal else none := by
  rw [Event.dealWith?, h]
  by_cases hr : s.room = r
  · simp [hr]
  · simp [hr]

theorem dealWith?_of_none (h : e.deal? s = none) : e.dealWith? c r s = none := by
  rw [Event.dealWith?, h]
  simp

theorem dealWith?_of_ne (h : s.room ≠ r) : e.dealWith? c r s = none := if_neg h

theorem deals_singleton (id : Int) : e.deals c r [(id, s)] = (e.dealWith? c r s).toList := by
  rw [Event.deals, List.filterMap_cons, List.filterMap_nil]
  cases e.dealWith? c r s <;> rfl

theorem deals_append_calls (calls calls' : List (Int × Signal)) :
    e.deals c r (calls ++ calls') = e.deals c r calls ++ e.deals c r calls' := List.filterMap_append

theorem trace_append (h : Hall) (past future : List Event) :
    h.trace (past ++ future) = h.trace past ++ (h.run past).trace future := by
  induction past generalizing h with
  | nil => rfl
  | cons e past ih =>
      rw [List.cons_append, trace, trace, ih, List.append_assoc]
      rfl

theorem told_append (h : Hall) (r : Int) (past future : List Event) :
    h.told r (past ++ future) = h.told r past ++ (h.run past).told r future := by
  rw [told, trace_append, List.filter_append]
  rfl

theorem deals_snoc (h : Hall) (c r : Int) (past : List Event) (e : Event) :
    h.deals c r (past ++ [e]) = h.deals c r past ++ e.deals c r ((h.run past).callsOf e) := by
  rw [deals, told_append, List.filterMap_append]
  refine congrArg (h.deals c r past ++ ·) ?_
  rw [told, trace, trace, List.append_nil, Event.deals]
  -- a call about another room says nothing to this one
  induction (h.run past).callsOf e with
  | nil => rfl
  | cons call calls ih =>
      rw [List.map_cons, List.filter_cons, List.filterMap_cons]
      by_cases hr : call.2.room = r
      · simp only [hr, decide_true, if_true, List.filterMap_cons, ih]
      · simp only [hr, decide_false, Bool.false_eq_true, if_false, dealWith?_of_ne hr, ih]

end lists

/-! ## What is told of a connection -/

/-- What a room has heard of a connection goes with how the connection stands to it. -/
structure Abreast (p : Scene) (c r : Int) (l : List Deal) : Prop where
  unborn : p.tables.nextRoom ≤ r → l = []
  /-- All is in order, and the latest stance is the present one if the room would hear of a change. -/
  stance : ∃ st, Stance.after? l = some st ∧ ∀ x, p.tables.room r = some x →
    p.voice.hears x.scheduler = true → p.tables.stance c r = st

section abreast

variable {c r : Int} {l : List Deal} {p : Scene}

theorem hears_tell (p : Scene) (q : Int) (s : Signal) : (p.tell q s).hears = p.voice.hears := by
  unfold Scene.tell
  split <;> rfl

theorem tell_of_room {q : Int} {x : Room} (hx : p.tables.room q = some x) (s : Signal) :
    p.tell q s = p.voice.say x.scheduler s := by
  rw [Scene.tell, hx]

/-- Nothing is said, and the stance is the same. -/
theorem abreast_silent (h : Abreast p c r l) {q : Scene}
    (hnext : p.tables.nextRoom ≤ q.tables.nextRoom)
    (hback : ∀ x', q.tables.room r = some x' → q.voice.hears x'.scheduler = true →
      ∃ x, p.tables.room r = some x ∧ p.voice.hears x.scheduler = true
        ∧ q.tables.stance c r = p.tables.stance c r) : Abreast q c r l where
  unborn := fun hr => h.unborn (Int.le_trans hnext hr)
  stance := by
    obtain ⟨st, hst, hnow⟩ := h.stance
    refine ⟨st, hst, fun x' hx' hhears => ?_⟩
    obtain ⟨x, hx, hhears', heq⟩ := hback x' hx' hhears
    exact heq.trans (hnow x hx hhears')

/-- Nothing is said of it to the room, and no room moves. -/
theorem abreast_fewer (h : Abreast p c r l) {q : Scene} (hfewer : p.tables.Fewer q.tables)
    (hhears : ∀ id, q.voice.hears id = true → p.voice.hears id = true)
    (hstance : ∀ x x', p.tables.room r = some x → q.tables.room r = some x' →
      p.voice.hears x.scheduler = true → q.tables.stance c r = p.tables.stance c r) :
    Abreast q c r l := by
  refine abreast_silent h (Int.le_of_eq hfewer.nextRoom.symm) fun x' hx' hheard => ?_
  obtain ⟨x, hx, heq⟩ := hfewer.room r x' hx'
  have hheard' := hhears x.scheduler (heq ▸ hheard)
  exact ⟨x, hx, hheard', hstance x x' hx hx' hheard'⟩

/-- Nothing is said at all. -/
theorem abreast_nothing {e : Event} {q : Scene} (hcalls : q.voice.calls = p.voice.calls)
    (h : Abreast q c r l) :
    ∃ new, q.voice.calls = p.voice.calls ++ new ∧ Abreast q c r (l ++ e.deals c r new) :=
  ⟨[], by rw [hcalls, List.append_nil], by rwa [Event.deals, List.filterMap_nil, List.append_nil]⟩

/-- What nobody hears is not said. -/
theorem calls_tell_of_unheard {s : Signal} {q : Int} (hcall : s.call?.isSome = true)
    (hnone : ¬ ∃ x, p.tables.room q = some x ∧ p.voice.hears x.scheduler = true) :
    (p.tell q s).calls = p.voice.calls := by
  unfold Scene.tell
  split
  · rfl
  · rename_i x hx
    rw [Voice.calls_say hcall, if_neg fun hx' => hnone ⟨x, hx, hx'⟩, List.append_nil]

/-- The room itself has been told, so the stance so far is the present one. -/
theorem abreast_told (ht : p.tables.Tracked c) (h : Abreast p c r l) {t : Registry} {x : Room}
    (hx : p.tables.room r = some x) (hhears : p.voice.hears x.scheduler = true)
    (hnext : t.nextRoom = p.tables.nextRoom) (v : Voice) {o : Option Deal}
    (hgo : (p.tables.stance c r).go? o = some (t.stance c r)) :
    Abreast ⟨t, v⟩ c r (l ++ o.toList) where
  unborn := by
    intro hr
    have hlt : r < p.tables.nextRoom := (ht.rooms r x hx).2
    rw [← hnext] at hlt
    exact absurd hr (Int.not_le.mpr hlt)
  stance := by
    obtain ⟨st, hst, hnow⟩ := h.stance
    refine ⟨t.stance c r, ?_, fun _ _ _ => rfl⟩
    rw [Stance.after?_append, hst, ← hnow x hx hhears]
    exact hgo

/-- **Something is said to a room**, and the stance changes as it should. -/
theorem abreast_tell (ht : p.tables.Tracked c) (h : Abreast p c r l) {e : Event} {t : Registry}
    {s : Signal} {q : Int} (hroom : s.room = q) (hcall : s.call?.isSome = true)
    (hfewer : p.tables.Fewer t)
    (hgo : lobbyRoom < r →
      (p.tables.stance c r).go? (e.dealWith? c r s) = some (t.stance c r)) :
    ∃ new, (p.tell q s).calls = p.voice.calls ++ new
      ∧ Abreast ⟨t, p.tell q s⟩ c r (l ++ e.deals c r new) := by
  subst hroom
  have hhears : ∀ id, (p.tell s.room s).hears id = true → p.voice.hears id = true :=
    fun id hid => congrFun (hears_tell p s.room s) id ▸ hid
  have helsewhere : s.room ≠ r → ∀ x, p.tables.room r = some x →
      t.stance c r = p.tables.stance c r := by
    intro hne x hx
    have hgo' := hgo (ht.rooms r x hx).1
    rw [dealWith?_of_ne hne] at hgo'
    exact (Option.some.inj hgo').symm
  -- the room has a scheduler that hears, or nobody is told
  by_cases hheard : ∃ x, p.tables.room s.room = some x ∧ p.voice.hears x.scheduler = true
  · obtain ⟨x, hx, hx'⟩ := hheard
    refine ⟨[(x.scheduler, s)], ?_, ?_⟩
    · rw [tell_of_room hx, Voice.calls_say hcall, if_pos hx']
    rw [deals_singleton]
    by_cases hne : s.room = r
    · rw [hne] at hx
      exact abreast_told ht h hx hx' hfewer.nextRoom _ (hgo (ht.rooms r x hx).1)
    · rw [dealWith?_of_ne hne, Option.toList_none, List.append_nil]
      exact abreast_fewer h hfewer hhears fun y _ hy _ _ => helsewhere hne y hy
  · have hcalls := calls_tell_of_unheard hcall hheard
    have habreast : Abreast ⟨t, p.tell s.room s⟩ c r l := by
      refine abreast_fewer h hfewer hhears fun y _ hy _ hy' => ?_
      exact helsewhere (fun hr => hheard ⟨y, hr ▸ hy, hy'⟩) y hy
    exact abreast_nothing hcalls habreast

/-! ## Small things in a row -/

open Registry in
/-- A player who has a seat and is there may say something, and so may someone who watches. -/
theorem go_message {t : Registry} {d q : Int} {s : Session} (h : t.Tracked c)
    (hs : t.session d = some s) (hplace : s.place = .seated q ∨ s.place = .watching q)
    (honline : d = c → s.isOnline = true) (hr : lobbyRoom < r) :
    (t.stance c r).go? (if d = c ∧ q = r then some .message else none)
      = some (t.stance c r) := by
  by_cases hd : d = c ∧ q = r
  · obtain ⟨rfl, rfl⟩ := hd
    rw [if_pos ⟨rfl, rfl⟩]
    rcases hplace with hplace | hplace
    · rw [stance_of_seated hs (seated_of_place hplace).1 (honline rfl)]
      rfl
    · have hview := watching_of_place hplace
      have hroom : s.room ≠ q := by
        have := h.exclusive s hs (by rw [hview]; rfl)
        omega
      rw [stance_of_watching hs hroom hview]
      rfl
  · rw [if_neg hd]
    rfl

open Registry in
theorem abreast_deed {t : Registry} {e : Event} {q : Scene} (hdeed : Deed t e p q)
    (ht : p.tables.Tracked c) (hquiet : e.reporter? = some c → ¬ t.Gone c) (h : Abreast p c r l) :
    ∃ new, q.voice.calls = p.voice.calls ++ new ∧ Abreast q c r (l ++ e.deals c r new) := by
  -- three deeds are told to a room; the others leave the stance as it is
  cases hdeed with
  | still halike hfades =>
      refine abreast_nothing hfades.calls
        (abreast_fewer h (fewer_alike halike) hfades.hears fun _ _ _ _ _ => ?_)
      exact stance_of_same (halike.session c) r
  | unpend d =>
      exact abreast_nothing rfl
        (abreast_fewer h (fewer_setPending _ d) (fun _ hid => hid) fun _ _ _ _ _ => rfl)
  | unwatch he hs hview =>
      refine abreast_tell ht h rfl rfl (fewer_unwatch _ _ _) fun hr => ?_
      rw [dealWith?_of rfl]
      exact go_unwatch ht hs hview hr
  | @offline d s he hs hroom honline =>
      refine abreast_tell ht h rfl rfl (fewer_updateSession _ _ _) fun hr => ?_
      rw [dealWith?_of rfl]
      refine go_departed (f := departed) ht hs hroom (fun hd => ?_) (fun _ => ⟨rfl, rfl, rfl⟩) r
      exact honline.resolve_right (hd ▸ hquiet (by rw [he, hd]; rfl))
  | drop he hs hlobby =>
      refine abreast_nothing rfl (abreast_fewer h (fewer_setSession _ fun hnone => nomatch hnone)
        (fun _ hid => hid) fun x _ hx _ _ => ?_)
      exact stance_drop hs hlobby (ht.rooms r x hx).1
  | wake =>
      refine abreast_tell ht h rfl rfl (fewer_refl _) fun _ => ?_
      rw [dealWith?_of_none rfl]
      rfl
  | finish hx hfades =>
      refine abreast_nothing hfades.calls
        (abreast_fewer h (fewer_endRoom _ _ _) hfades.hears fun y y' hy hy' _ => ?_)
      exact stance_endRoom ht hx (ht.rooms r y hy).1 (room_of_endRoom hy').1

theorem abreast_deeds {t : Registry} {e : Event} {q : Scene} (hdeeds : Deeds t e p q)
    (ht : p.tables.Tracked c) (hquiet : e.reporter? = some c → ¬ t.Gone c) (h : Abreast p c r l) :
    ∃ new, q.voice.calls = p.voice.calls ++ new ∧ Abreast q c r (l ++ e.deals c r new) := by
  induction hdeeds with
  | refl => exact abreast_nothing rfl h
  | tail hdeeds hdeed ih =>
      obtain ⟨new, hcalls, habreast⟩ := ih
      obtain ⟨new', hcalls', habreast'⟩ :=
        abreast_deed hdeed (tracked_deeds hdeeds ht) hquiet habreast
      refine ⟨new ++ new', by rw [hcalls', hcalls, List.append_assoc], ?_⟩
      rwa [deals_append_calls, ← List.append_assoc]

/-! ## One event -/

theorem stance_unborn {t : Registry} (h : t.Tracked c) (hr : t.nextRoom ≤ r) :
    t.stance c r = .away := by
  cases hs : t.session c with
  | none => exact Registry.stance_of_none hs r
  | some s =>
      obtain ⟨hroom, hview⟩ := h.below s hs
      refine Registry.stance_of_elsewhere hs (by omega) fun hsome => ?_
      have := hview r hsome
      omega

/-- The announcement of a new room says nothing of any connection. -/
theorem deals_found {e : Event} {owner id q : Int} {name : String} (he : e.makes? = some (owner, name))
    (s : Session) : e.deals c r [(id, newRoomSignal q name), (id, joinSignal q owner s)]
      = (if owner = c ∧ q = r then some .join else none : Option Deal).toList := by
  rw [← List.singleton_append, deals_append_calls, deals_singleton, deals_singleton,
    dealWith?_of_none (deal?_newRoomSignal (isRecord_of_makes? he) q name),
    dealWith?_of (deal?_joinSignal (isRecord_of_makes? he) q owner s)]
  rfl

open Registry in
/-- A room is made, and hears of its owner first. -/
theorem abreast_found {h : Hall} {e : Event} {owner id : Int} {name : String} {s : Session} {v : Voice}
    (ht : h.registry.Tracked c) (hf : Abreast h.scene c r l) (he : e.makes? = some (owner, name))
    (hs : h.session? owner = some s) (hlobby : s.inLobby = true)
    (hothers : ∀ other, v.hears other = true →
      h.hears other = true ∨ ∀ q x, h.room? q = some x → x.scheduler ≠ other) :
    Abreast ⟨(h.registry.openRoom ⟨name, id, [], []⟩).seat owner h.nextRoom,
        (v.say id (newRoomSignal h.nextRoom name)).say id (joinSignal h.nextRoom owner s)⟩ c r
      (l ++ e.deals c r
        [(id, newRoomSignal h.nextRoom name), (id, joinSignal h.nextRoom owner s)]) := by
  have htracked := tracked_openRoom (x := ⟨name, id, [], []⟩) ht rfl rfl
  have hs' : (h.registry.openRoom ⟨name, id, [], []⟩).session owner = some s := hs
  have hgo := fun hr => go_seat htracked hs' hlobby (r := r) hr h.nextRoom
  have hlt : lobbyRoom < h.nextRoom := ht.opened
  rw [deals_found he]
  by_cases hr : h.nextRoom = r
  · subst hr
    rw [hf.unborn (Int.le_refl _), List.nil_append]
    have haway : h.registry.stance c h.nextRoom = .away :=
      stance_unborn ht (Int.le_refl _)
    have hsame : (h.registry.openRoom ⟨name, id, [], []⟩).stance c h.nextRoom
        = h.registry.stance c h.nextRoom := stance_of_session rfl _
    refine ⟨fun hr => ?_, _, ?_, fun _ _ _ => rfl⟩
    · have hr' : h.nextRoom + 1 ≤ h.nextRoom := hr
      omega
    · rw [← List.nil_append (Option.toList _), Stance.after?_append]
      exact (congrArg (Stance.go? · _) (hsame.trans haway)).symm.trans (hgo hlt)
  -- another room hears nothing of it
  · rw [if_neg fun hc => hr hc.2, Option.toList_none, List.append_nil]
    refine abreast_silent hf (Int.le_of_lt (Int.lt_succ h.nextRoom)) fun x' hx' hhears => ?_
    obtain ⟨y, hy, heq⟩ := (fewer_seat _ _ _).room r x' hx'
    have hy' : h.room? r = some y := (Function.update_of_ne (Ne.symm hr) _ _).symm.trans hy
    have hgo' := hgo (ht.rooms r y hy').1
    rw [if_neg fun hc => hr hc.2] at hgo'
    rw [← heq] at hhears
    refine ⟨y, hy', ?_, (Option.some.inj hgo').symm⟩
    exact (hothers y.scheduler hhears).resolve_right fun hnone => hnone r y hy' rfl

open Registry in
/-- **One turn keeps the order.** -/
theorem abreast_turn {h : Hall} {e : Event} {q : Scene} (hturn : Turn h e q)
    (ht : h.registry.Tracked c) (hquiet : e.reporter? = some c → ¬ h.registry.Gone c)
    (hf : Abreast h.scene c r l) :
    ∃ new, q.voice.calls = h.voice.calls ++ new ∧ Abreast q c r (l ++ e.deals c r new) := by
  -- the room hears of the connection by what its stance changes, and of nothing else
  cases hturn with
  | deeds hdeeds => exact abreast_deeds hdeeds ht hquiet hf
  | come he link =>
      exact abreast_nothing rfl
        (abreast_silent hf (Int.le_refl _) fun x hx hhears => ⟨x, hx, hhears, rfl⟩)
  | signUp he hl hroom hview honline =>
      have hlobby := inLobby_iff.mpr ⟨hroom, hview⟩
      refine abreast_nothing rfl
        (abreast_silent hf (Int.le_refl _) fun x hx hhears => ⟨x, hx, hhears, ?_⟩)
      exact stance_signUp ht hl hlobby (ht.rooms r x hx).1
  | @sit d q s x he hs hlobby hx =>
      have htell : h.scene.tell q (joinSignal q d s) = h.voice.say x.scheduler (joinSignal q d s) :=
        tell_of_room hx _
      rw [← htell]
      refine abreast_tell ht hf rfl rfl (fewer_seat _ _ _) fun hr => ?_
      rw [dealWith?_of (deal?_joinSignal (isRecord_of_sits? he) q d s)]
      exact go_seat ht hs hlobby hr q
  | @watch d q s x he hs hlobby hx =>
      have htell : h.scene.tell q (.addObserver q (s.describe d))
          = h.voice.say x.scheduler (.addObserver q (s.describe d)) := tell_of_room hx _
      rw [← htell]
      refine abreast_tell ht hf rfl rfl (fewer_watch _ _ _) fun hr => ?_
      rw [dealWith?_of (d := d) (by rw [Event.deal?, he]; rfl)]
      exact go_watch hs hlobby hr q
  | @found owner id name s v he hs hlobby hplace hcalls hhears hothers =>
      refine ⟨[(id, newRoomSignal h.nextRoom name), (id, joinSignal h.nextRoom owner s)], ?_,
        abreast_found ht hf he hs hlobby hothers⟩
      rw [Voice.calls_say rfl, Voice.hears_say, Voice.calls_say rfl, hcalls, if_pos hhears,
        if_pos hhears, List.append_assoc]
      rfl
  | @message d q record s t he hs hplace halike =>
      refine abreast_tell ht hf rfl rfl (fewer_alike halike) fun hr => ?_
      rw [dealWith?_of (d := d) (by rw [Event.deal?, he]; rfl), stance_of_same (halike.session c) r]
      -- a message comes from a player who is there: whoever is gone reports nothing
      refine go_message ht hs hplace (fun hd => ?_) hr
      by_contra hoff
      exact hquiet (by rw [he, hd]; rfl) ⟨s, hd ▸ hs, by simpa using hoff⟩

theorem step_of_crashed {h : Hall} (hcrashed : h.crashed = true) (e : Event) : h.step e = h :=
  if_pos hcrashed

theorem step_of_up {h : Hall} (hup : h.crashed = false) (e : Event) : h.step e = h.take e :=
  if_neg (by simp [hup])

theorem tracked_step {h : Hall} (hb : h.ledger.Balanced) {e : Event}
    (hfree : e.isAccept = true → h.crashed = false → h.nextConnection = c → ¬ h.registry.Known c)
    (ht : h.registry.Tracked c) : (h.step e).registry.Tracked c := by
  cases hcrashed : h.crashed with
  | true => rwa [step_of_crashed hcrashed]
  | false => exact tracked_turn (turn_step hb e) (fun he => hfree he hcrashed) ht

/-- **One event keeps the order**, if its connection is not at its end. -/
theorem abreast_step {h : Hall} (hb : h.ledger.Balanced) {e : Event} (ht : h.registry.Tracked c)
    (hquiet : e.reporter? = some c → ¬ h.registry.Gone c) (hf : Abreast h.scene c r l) :
    Abreast (h.step e).scene c r (l ++ e.deals c r (h.callsOf e)) := by
  obtain ⟨q, hq, hturn⟩ := exists_turn hb e
  obtain ⟨new, hcalls, habreast⟩ := abreast_turn hturn ht hquiet hf
  have hnew : h.callsOf e = new := callsOf_eq ((congrArg (fun q => q.voice.calls) hq).trans hcalls)
  rwa [hnew, hq]

end abreast

end Hall

end GameHall
