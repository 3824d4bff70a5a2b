import GameHall.Proofs.Hall.Dossiers
import GameHall.Proofs.Hall.Stances

/-!
# The order of what a connection is sent

What a connection is sent is told apart by the command (`Mail.cue`). `Stage.next?` says which cue may
come next, and `Stage.after?` what becomes of a whole list. Lists for which there is an answer have the
shape that a client relies on (`fits_of_after?`): first comes a test, then the greeting or the end, and
after the greeting a player enters a room and the lobby in turn. A greeting has two frames, and a queue that
shuts between them leaves the first of them and the end.
-/

namespace GameHall

/-- What a frame is about, or that the connection is closed. -/
inductive Cue where
  | test
  | setup
  | settings
  | error
  | enterRoom
  | enterLobby
  | close
  | other
  deriving DecidableEq

namespace Cue

/-- The commands of the server itself. -/
def commands : List (String × Cue) :=
  [("NetworkDelayTest", test), ("Setup", setup), ("SetServerSettings", settings), ("ErrorDlg", error),
    ("EnterRoom", enterRoom), ("EnterLobby", enterLobby)]

/-- What a player is told once greeted. -/
def isTalk : Cue → Bool
  | error => true
  | enterRoom => true
  | enterLobby => true
  | _ => false

/-- The cues by which a player enters a room and the lobby. -/
def isMove : Cue → Bool
  | enterRoom => true
  | enterLobby => true
  | _ => false

end Cue

/-- What is sent, by its command. -/
def Mail.cue : Mail → Cue
  | close => .close
  | frame record =>
    ((Cue.commands.find? fun e => Utf8.encode e.1 = record.command).map Prod.snd).getD .other

/-- The commands of the server are different ones. -/
theorem Mail.cue_note {command : String} {cue : Cue} (h : (command, cue) ∈ Cue.commands)
    (payload : Octets) : (Mail.note command payload).cue = cue := by
  have hall : ∀ e ∈ Cue.commands, ((Cue.commands.find? fun e' =>
      Utf8.encode e'.1 = Utf8.encode e.1).map Prod.snd).getD .other = e.2 := by decide +kernel
  exact hall (command, cue) h

/-- How far a connection has come. -/
inductive Stage where
  | new
  /-- The sign-up is awaited. -/
  | waiting
  | refused
  /-- The player knows about itself, but not about the server. -/
  | greeted
  | lobby
  | inside
  | closed
  deriving DecidableEq

namespace Stage

/-- What becomes of a connection, if the cue is in order. -/
def next? : Stage → Cue → Option Stage
  | new, .test => some waiting
  | waiting, .setup => some greeted
  | waiting, .error => some refused
  | waiting, .close => some closed
  | refused, .close => some closed
  | greeted, .settings => some lobby
  | greeted, .close => some closed
  | lobby, .error => some lobby
  | lobby, .enterRoom => some inside
  | lobby, .close => some closed
  | inside, .error => some inside
  | inside, .enterLobby => some lobby
  | inside, .close => some closed
  | _, _ => none

/-- What becomes of a connection, if all cues are in order. -/
def run? (st : Stage) (l : List Cue) : Option Stage := l.foldlM next? st

/-- What has become of a new connection. -/
def after? (l : List Cue) : Option Stage := new.run? l

theorem after?_append (l l' : List Cue) : after? (l ++ l') = (after? l).bind (run? · l') := by
  rw [after?, run?, List.foldlM_append]
  rfl

theorem after?_snoc (l : List Cue) (x : Cue) : after? (l ++ [x]) = (after? l).bind (next? · x) := by
  rw [after?_append]
  refine congrArg (Option.bind (after? l)) (funext fun st => ?_)
  exact Option.bind_fun_some (st.next? x)

end Stage

/-! ## Good order -/

/-- The cues of a player who is greeted, and what follows. -/
def welcomed (talk : List Cue) : List Cue := .test :: .setup :: .settings :: talk

/-- The test comes first. After that the connection is closed, with an error at most, or greeted. Once
greeted, it is told of errors, rooms and the lobby until it is closed. -/
def Unbroken (l : List Cue) : Prop :=
  l = [] ∨ l = [.test] ∨ l = [.test, .close] ∨ l = [.test, .error, .close]
    ∨ ∃ talk ending, l = welcomed (talk ++ ending) ∧ (∀ x ∈ talk, x.isTalk = true)
      ∧ (ending = [] ∨ ending = [.close])

/-- What a connection is sent, in good order. -/
structure InOrder (l : List Cue) : Prop where
  /-- Nothing is missing, unless the connection is closed in the middle of the greeting. -/
  shape : Unbroken l ∨ l = [.test, .setup, .close]
  /-- A room and the lobby come in turn, a room first. -/
  turns : ∀ i x, (l.filter Cue.isMove)[i]? = some x → (x = .enterRoom ↔ i % 2 = 0)

namespace Stage

/-- What leads to a stage. -/
def Shape (l : List Cue) : Stage → Prop
  | new => l = []
  | waiting => l = [.test]
  | refused => l = [.test, .error]
  | greeted => l = [.test, .setup]
  | lobby => ∃ talk, l = welcomed talk ∧ ∀ x ∈ talk, x.isTalk = true
  | inside => ∃ talk, l = welcomed talk ∧ ∀ x ∈ talk, x.isTalk = true
  | closed => l = [.test, .close] ∨ l = [.test, .error, .close] ∨ l = [.test, .setup, .close]
    ∨ ∃ talk, l = welcomed (talk ++ [.close]) ∧ ∀ x ∈ talk, x.isTalk = true

/-- What a stage says of the cues that have led to it. -/
structure Fits (st : Stage) (l : List Cue) : Prop where
  shape : st.Shape l
  turns : ∀ i x, (l.filter Cue.isMove)[i]? = some x → (x = .enterRoom ↔ i % 2 = 0)
  /-- An odd number of moves is behind one who is in a room. -/
  parity : st ≠ closed → l.countP Cue.isMove % 2 = if st = inside then 1 else 0
  latest : st ≠ closed → ((l.filter Cue.isMove).getLast? = some .enterRoom ↔ st = inside)

variable {st st' : Stage} {l : List Cue} {x : Cue}

theorem fits_nil : new.Fits [] := ⟨rfl, by simp, fun _ => rfl, fun _ => by simp⟩

theorem talk_snoc {talk : List Cue} (htalk : ∀ y ∈ talk, y.isTalk = true) (hx : x.isTalk = true) :
    ∀ y ∈ talk ++ [x], y.isTalk = true := by
  intro y hy
  rcases List.mem_append.mp hy with hy | hy
  · exact htalk y hy
  · exact List.mem_singleton.mp hy ▸ hx

/-- A cue in order leads to the shape of the next stage. -/
theorem shape_snoc (hnext : st.next? x = some st') (h : st.Shape l) : st'.Shape (l ++ [x]) := by
  cases st <;> cases x <;> cases hnext
  case new.test => rw [show l = [] from h]; rfl
  case waiting.setup => rw [show l = [.test] from h]; rfl
  case waiting.error => rw [show l = [.test] from h]; rfl
  case waiting.close => rw [show l = [.test] from h]; exact Or.inl rfl
  case refused.close => rw [show l = [.test, .error] from h]; exact Or.inr (Or.inl rfl)
  case greeted.close => rw [show l = [.test, .setup] from h]; exact Or.inr (Or.inr (Or.inl rfl))
  case greeted.settings =>
    rw [show l = [.test, .setup] from h]
    exact ⟨[], rfl, fun _ hy => absurd hy List.not_mem_nil⟩
  -- what is said to a player who has been greeted
  case lobby.error | lobby.enterRoom | inside.error | inside.enterLobby =>
    obtain ⟨talk, rfl, htalk⟩ := h
    exact ⟨talk ++ [_], rfl, talk_snoc htalk rfl⟩
  case lobby.close | inside.close =>
    obtain ⟨talk, rfl, htalk⟩ := h
    exact Or.inr (Or.inr (Or.inr ⟨talk, rfl, htalk⟩))

/-- A cue in order keeps the order. -/
theorem fits_snoc (hnext : st.next? x = some st') (h : st.Fits l) : st'.Fits (l ++ [x]) where
  shape := shape_snoc hnext h.shape
  turns := by
    intro i y hy
    rcases getElem?_filter_snoc hy with hy | ⟨rfl, rfl, hmove⟩
    · exact h.turns i y hy
    -- who enters a room was in the lobby, and who enters the lobby was in a room
    · have hparity := h.parity
      cases st <;> cases x <;> cases hnext <;> simp [Cue.isMove] at hmove hparity ⊢ <;> omega
  parity := by
    intro hopen
    have hparity := h.parity
    rw [List.countP_append]
    cases st <;> cases x <;> cases hnext <;> simp [Cue.isMove] at hopen hparity ⊢ <;> omega
  latest := by
    intro hopen
    have hlatest := h.latest
    rw [List.filter_append]
    cases st <;> cases x <;> cases hnext <;> simp [Cue.isMove] at hopen hlatest ⊢ <;> exact hlatest

theorem fits_of_after? (h : after? l = some st) : st.Fits l := by
  induction l using List.reverseRecOn generalizing st with
  | nil =>
      cases h
      exact fits_nil
  | append_singleton l x ih =>
      rw [after?_snoc] at h
      obtain ⟨st', hst', hnext⟩ := Option.bind_eq_some_iff.mp h
      exact fits_snoc hnext (ih hst')

/-- A connection is not in the middle of being refused or greeted. -/
def Settled (st : Stage) : Prop := st ≠ refused ∧ st ≠ greeted

instance (st : Stage) : Decidable st.Settled := inferInstanceAs (Decidable (_ ∧ _))

theorem inOrder_of_fits (h : st.Fits l) (hsettled : st.Settled) : InOrder l where
  shape := by
    have hshape := h.shape
    cases st with
    | new => exact Or.inl (Or.inl hshape)
    | waiting => exact Or.inl (Or.inr (Or.inl hshape))
    | refused => exact absurd rfl hsettled.1
    | greeted => exact absurd rfl hsettled.2
    | lobby | inside =>
        obtain ⟨talk, rfl, htalk⟩ := hshape
        exact Or.inl (Or.inr (Or.inr (Or.inr (Or.inr
          ⟨talk, [], by rw [List.append_nil], htalk, Or.inl rfl⟩))))
    | closed =>
        rcases hshape with hclosed | hrefused | hcut | ⟨talk, rfl, htalk⟩
        · exact Or.inl (Or.inr (Or.inr (Or.inl hclosed)))
        · exact Or.inl (Or.inr (Or.inr (Or.inr (Or.inl hrefused))))
        · exact Or.inr hcut
        · exact Or.inl (Or.inr (Or.inr (Or.inr (Or.inr ⟨talk, [.close], rfl, htalk, Or.inr rfl⟩))))
  turns := h.turns

end Stage

end GameHall
