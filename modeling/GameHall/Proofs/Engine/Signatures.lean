import GameHall.Engine.HostCall

/-!
# The parameters of host calls

A method takes parameters of fixed kinds, one after the other. A call is refused for its parameters just
if one of those that its method takes does not fit, and it is told what is wrong with the first of them
(`ofCall?_error_iff`). What comes after them is not looked at (`ofMethod_of_agree`).

All that a method takes has to be there, except for the time of a request, which may be missing or null
but nothing else (`begins_kinds_iff`, `not_only_required`).
-/

namespace GameHall

namespace HostCall

/-- The words of a refusal. -/
def words? {α : Type} : Except String α → Option String
  | .ok _ => none
  | .error words => some words

/-- A step is taken only if the one before it has not been refused. -/
theorem words?_bind {α β : Type} {x : Except String α} {f : α → Except String β} {r : Option String}
    (h : ∀ a, x = .ok a → words? (f a) = r) : words? (x >>= f) = (words? x).or r := by
  cases x with
  | error words => rfl
  | ok a => exact h a rfl

/-! ## Kinds of parameters -/

/-- What a parameter has to be. -/
inductive Kind where
  /-- An integer of 32 bits. -/
  | int32
  /-- A string, of octets or of text. -/
  | string
  | flag
  /-- A positive integer. -/
  | positive
  /-- An integer that is not negative. -/
  | natural
  /-- An integer, which may be missing or null. -/
  | moment
  deriving DecidableEq

/-- Whether what stands at the place of a parameter is of the kind. -/
def Kind.fits : Kind → Option Packet.Value → Bool
  | int32, some (.int v) => -2147483648 ≤ v.toInt ∧ v.toInt ≤ 2147483647
  | string, some (.text _) => true
  | string, some (.bytes _) => true
  | flag, some (.bool _) => true
  | positive, some (.int v) => 0 < v.toInt
  | natural, some (.int v) => 0 ≤ v.toInt
  | moment, some (.int _) => true
  | moment, some .null => true
  | moment, none => true
  | _, _ => false

theorem Kind.fits_int32 (v : Int64) : Kind.int32.fits (some (.int v))
    = decide (-2147483648 ≤ v.toInt ∧ v.toInt ≤ 2147483647) := rfl

theorem Kind.fits_positive (v : Int64) : Kind.positive.fits (some (.int v)) = decide (0 < v.toInt) := rfl

theorem Kind.fits_natural (v : Int64) : Kind.natural.fits (some (.int v)) = decide (0 ≤ v.toInt) := rfl

/-- A moment may be missing or null, and otherwise is a number. -/
theorem Kind.fits_moment_eq_false_iff {value? : Option Packet.Value} : Kind.moment.fits value? = false
    ↔ ∃ v, value? = some v ∧ v ≠ .null ∧ v.asInt? = none := by
  cases value? with
  | none => exact ⟨nofun, nofun⟩
  | some v =>
      have hfits : Kind.moment.fits (some v) = (decide (v = .null) || v.asInt?.isSome) := by
        cases v <;> rfl
      simp [hfits]

/-- What a method says of a parameter that does not fit. -/
def Kind.complaint (method : String) (place : Nat) : Kind → Option Packet.Value → String
  | _, none => s!"{method}: missing parameter {place + 1}"
  | int32, some (.int _) => s!"{method}: parameter {place + 1} is out of range"
  | positive, some (.int v) => s!"{method}: delay must be positive, got {v.toInt}"
  | natural, some (.int _) => s!"{method}: timeout must not be negative"
  | string, some _ => s!"{method}: parameter {place + 1} must be a string"
  | flag, some _ => s!"{method}: parameter {place + 1} must be a boolean"
  | _, some _ => s!"{method}: parameter {place + 1} must be an integer"

/-- What is wrong with the parameter at a place. -/
def Kind.wrong? (c : Packet.Call) (place : Nat) (k : Kind) : Option String :=
  if k.fits c.params[place]? then none else some (k.complaint c.method place c.params[place]?)

/-- The parameters that a method takes. -/
def Method.kinds : Method → List Kind
  | qDebug | qInfo | qWarning | qCritical | print => []
  | doNotify => [.int32, .string, .string]
  | doRequest => [.int32, .string, .string, .int32, .moment]
  | waitForReply => [.int32, .natural]
  | setThinking | setDied => [.int32, .flag]
  | delay | setRequestTimer => [.int32, .positive]
  | thinking | emitKick | destroyRequestTimer | temporarilyBan | gameOver => [.int32]

/-- Those of them that have to be there. -/
def Method.required (m : Method) : List Kind := m.kinds.filter fun k => !k.fits none

/-- Whether parameters are of kinds in turn, as far as the kinds go. -/
def Begins (kinds : List Kind) (params : List Packet.Value) : Prop :=
  ∀ (place : Nat) (k : Kind), kinds[place]? = some k → k.fits params[place]? = true

theorem begins_concat {kinds : List Kind} {k : Kind} {params : List Packet.Value} :
    Begins (kinds ++ [k]) params ↔ Begins kinds params ∧ k.fits params[kinds.length]? = true := by
  constructor
  · intro h
    refine ⟨fun place k' hget => h place k' ?_, h kinds.length k (by simp)⟩
    rw [List.getElem?_append_left (List.getElem?_eq_some_iff.mp hget).1]
    exact hget
  · rintro ⟨hfits, hlast⟩ place k' hget
    rcases Nat.lt_trichotomy place kinds.length with hlt | rfl | hgt
    · rw [List.getElem?_append_left hlt] at hget
      exact hfits place k' hget
    · have hsame : k = k' := by simpa using hget
      exact hsame ▸ hlast
    · rw [List.getElem?_eq_none (by rw [List.length_append]; exact hgt)] at hget
      cases hget

/-- Only a request for a reply takes a parameter that may be missing. -/
theorem begins_kinds_iff {m : Method} {params : List Packet.Value} : Begins m.kinds params
    ↔ Begins m.required params ∧ (m = .doRequest → Kind.moment.fits params[4]? = true) := by
  cases m with
  | doRequest =>
      have hkinds : Method.doRequest.kinds = Method.doRequest.required ++ [.moment] := rfl
      rw [hkinds, begins_concat]
      exact and_congr_right fun _ => ⟨fun hfits _ => hfits, fun hfits => hfits rfl⟩
  | _ => exact ⟨fun h => ⟨h, nofun⟩, fun h => h.1⟩

/-! ## Parameters one by one -/

section Parameters

variable (c : Packet.Call) (place : Nat)

theorem words?_int32Param : words? (int32Param c place) = Kind.int32.wrong? c place := by
  unfold int32Param intParam param Kind.wrong?
  cases c.params[place]? with
  | none => rfl
  | some value =>
      cases value with
      | int v =>
          show words? (if -2147483648 ≤ v.toInt ∧ v.toInt ≤ 2147483647 then pure v.toInt
            else .error s!"{c.method}: parameter {place + 1} is out of range") = _
          by_cases hrange : -2147483648 ≤ v.toInt ∧ v.toInt ≤ 2147483647
          · rw [if_pos hrange, Kind.fits_int32, if_pos (decide_eq_true hrange)]
            rfl
          · rw [if_neg hrange, Kind.fits_int32, if_neg (by rwa [decide_eq_true_iff])]
            rfl
      | _ => rfl

theorem words?_bytesParam : words? (bytesParam c place) = Kind.string.wrong? c place := by
  unfold bytesParam param Kind.wrong?
  cases c.params[place]? with
  | none => rfl
  | some value => cases value <;> rfl

theorem words?_boolParam : words? (boolParam c place) = Kind.flag.wrong? c place := by
  unfold boolParam param Kind.wrong?
  cases c.params[place]? with
  | none => rfl
  | some value => cases value <;> rfl

theorem words?_timestampParam : words? (timestampParam c place) = Kind.moment.wrong? c place := by
  unfold timestampParam intParam param Kind.wrong?
  cases c.params[place]? with
  | none => rfl
  | some value => cases value <;> rfl

/-- An integer that is refused if it is too small. -/
theorem words?_intParam {α : Type} (k : Kind) (hk : k = .positive ∨ k = .natural)
    (f : Int → Except String α) (hf : ∀ v : Int64, words? (f v.toInt) = if k.fits (some (.int v)) then none
      else some (k.complaint c.method place (some (.int v)))) :
    words? (intParam c place >>= f) = k.wrong? c place := by
  unfold intParam param Kind.wrong?
  cases c.params[place]? with
  | none => rcases hk with rfl | rfl <;> rfl
  | some value =>
      cases value with
      | int v => exact hf v
      | _ => rcases hk with rfl | rfl <;> rfl

end Parameters

/-! ## Parameters one after the other -/

/-- What is wrong with the first parameter that does not fit, from a place on. -/
def firstWrong? (c : Packet.Call) : Nat → List Kind → Option String
  | _, [] => none
  | place, k :: kinds => (k.wrong? c place).or (firstWrong? c (place + 1) kinds)

section

variable {c : Packet.Call}

/-- A parameter that fits leaves it to the later ones. -/
theorem words?_step {α β : Type} {place : Nat} {k : Kind} {kinds : List Kind} {x : Except String α}
    {f : α → Except String β} (hx : words? x = k.wrong? c place)
    (hf : ∀ a, words? (f a) = firstWrong? c (place + 1) kinds) :
    words? (x >>= f) = firstWrong? c place (k :: kinds) := by
  rw [words?_bind fun a _ => hf a, hx, firstWrong?]

theorem words?_return {α β : Type} {x : Except String α} (f : α → β) :
    words? (x >>= fun a => pure (f a)) = words? x := by
  cases x <;> rfl

theorem words?_wait (connection : Int) : words? (do
    let wait ← intParam c 1
    if wait < 0 then Except.error s!"{c.method}: timeout must not be negative"
    else return waitForReply connection wait.toNat) = firstWrong? c 1 [.natural] := by
  refine (words?_intParam c 1 .natural (Or.inr rfl) _ fun v => ?_).trans (Option.or_none ..).symm
  rw [Kind.fits_natural]
  by_cases hneg : v.toInt < 0
  · rw [if_pos hneg, if_neg (by rwa [decide_eq_true_iff, Int.not_le])]
    rfl
  · rw [if_neg hneg, if_pos (decide_eq_true (Int.not_lt.mp hneg))]
    rfl

/-- A timer takes a room and a delay. -/
theorem words?_timerParams : words? (timerParams c) = firstWrong? c 0 [.int32, .positive] := by
  refine words?_step (words?_int32Param c 0) fun room => ?_
  refine (words?_intParam c 1 .positive (Or.inl rfl) _ fun v => ?_).trans (Option.or_none ..).symm
  rw [Kind.fits_positive]
  by_cases hsmall : v.toInt ≤ 0
  · rw [if_pos hsmall, if_neg (by rwa [decide_eq_true_iff, Int.not_lt])]
    rfl
  · rw [if_neg hsmall, if_pos (decide_eq_true (Int.not_le.mp hsmall))]
    rfl

end

/-- **A call is told what is wrong with its first parameter that does not fit.** -/
theorem words?_ofMethod (c : Packet.Call) (m : Method) :
    words? (ofMethod c m) = firstWrong? c 0 m.kinds := by
  cases m with
  | qDebug | qInfo | qWarning | qCritical | print => rfl
  | doNotify =>
      exact words?_step (words?_int32Param c 0) fun _ => words?_step (words?_bytesParam c 1) fun _ =>
        words?_step (words?_bytesParam c 2) fun _ => rfl
  | doRequest =>
      exact words?_step (words?_int32Param c 0) fun _ => words?_step (words?_bytesParam c 1) fun _ =>
        words?_step (words?_bytesParam c 2) fun _ => words?_step (words?_int32Param c 3) fun _ =>
        words?_step (words?_timestampParam c 4) fun _ => rfl
  | waitForReply => exact words?_step (words?_int32Param c 0) words?_wait
  | setThinking | setDied =>
      exact words?_step (words?_int32Param c 0) fun _ => words?_step (words?_boolParam c 1) fun _ => rfl
  | delay | setRequestTimer => exact (words?_return _).trans words?_timerParams
  | thinking | emitKick | destroyRequestTimer | temporarilyBan | gameOver =>
      exact words?_step (words?_int32Param c 0) fun _ => rfl

/-- The first complaint is about a parameter all of whose predecessors fit. -/
theorem firstWrong?_eq_some_iff {c : Packet.Call} {place : Nat} {kinds : List Kind} {words : String} :
    firstWrong? c place kinds = some words ↔ ∃ (i : Nat) (k : Kind), kinds[i]? = some k
      ∧ k.wrong? c (place + i) = some words
      ∧ ∀ (j : Nat) (k' : Kind), j < i → kinds[j]? = some k' → k'.wrong? c (place + j) = none := by
  -- on the kinds of the parameters, for any place of the first of them
  induction kinds generalizing place with
  | nil => simp [firstWrong?]
  | cons k kinds ih =>
      rw [firstWrong?]
      cases hk : k.wrong? c place with
      | some first =>
          rw [Option.some_or]
          constructor
          · intro heq
            exact ⟨0, k, rfl, hk.trans heq, fun j k' hj _ => absurd hj (Nat.not_lt_zero j)⟩
          · rintro ⟨i, k', hi, hwrong, hbefore⟩
            cases i with
            | zero =>
                cases hi
                exact hk.symm.trans hwrong
            | succ i =>
                have hfits := hbefore 0 k (Nat.succ_pos i) rfl
                rw [Nat.add_zero, hk] at hfits
                cases hfits
      | none =>
          rw [Option.none_or, ih]
          constructor
          · rintro ⟨i, k', hi, hwrong, hbefore⟩
            refine ⟨i + 1, k', hi, by rwa [Nat.add_right_comm] at hwrong, fun j k'' hj hget => ?_⟩
            cases j with
            | zero =>
                cases hget
                exact hk
            | succ j =>
                have hfits := hbefore j k'' (Nat.lt_of_succ_lt_succ hj) hget
                rwa [Nat.add_right_comm] at hfits
          · rintro ⟨i, k', hi, hwrong, hbefore⟩
            cases i with
            | zero =>
                cases hi
                rw [Nat.add_zero, hk] at hwrong
                cases hwrong
            | succ i =>
                refine ⟨i, k', hi, by rwa [Nat.add_right_comm], fun j k'' hj hget => ?_⟩
                rw [Nat.add_right_comm]
                exact hbefore (j + 1) k'' (Nat.succ_lt_succ hj) hget

/-! ## Calls -/

/-- A method has its name to itself. -/
theorem ofName?_name (m : Method) : Method.ofName? m.name = some m := by
  cases m <;> rfl

theorem ofCall?_name (m : Method) (id : Int32) (params : List Packet.Value) :
    ofCall? ⟨id, m.name, params⟩ = some (ofMethod ⟨id, m.name, params⟩ m) := by
  rw [ofCall?, ofName?_name, Option.map_some]

/-- The first parameter that does not fit. -/
structure Method.Misfit (m : Method) (params : List Packet.Value) (place : Nat) (k : Kind) : Prop where
  taken : m.kinds[place]? = some k
  wrong : k.fits params[place]? = false
  first : ∀ (i : Nat) (k' : Kind), i < place → m.kinds[i]? = some k' → k'.fits params[i]? = true

theorem wrong?_eq_none_iff {c : Packet.Call} {place : Nat} {k : Kind} :
    k.wrong? c place = none ↔ k.fits c.params[place]? = true := by
  unfold Kind.wrong?
  cases k.fits c.params[place]? <;> simp

theorem wrong?_eq_some_iff {c : Packet.Call} {place : Nat} {k : Kind} {words : String} :
    k.wrong? c place = some words ↔ k.fits c.params[place]? = false
      ∧ words = k.complaint c.method place c.params[place]? := by
  unfold Kind.wrong?
  cases k.fits c.params[place]? <;> simp [eq_comm]

/-- **A call is refused just if a parameter does not fit**, with words about the first. -/
theorem ofCall?_error_iff (m : Method) (id : Int32) (params : List Packet.Value) (words : String) :
    ofCall? ⟨id, m.name, params⟩ = some (.error words) ↔ ∃ place k, m.Misfit params place k
      ∧ words = k.complaint m.name place params[place]? := by
  have hwords : ofCall? ⟨id, m.name, params⟩ = some (.error words)
      ↔ words? (ofMethod ⟨id, m.name, params⟩ m) = some words := by
    rw [ofCall?_name, Option.some_inj]
    cases ofMethod ⟨id, m.name, params⟩ m <;> simp [words?]
  rw [hwords, words?_ofMethod, firstWrong?_eq_some_iff]
  simp only [Nat.zero_add, wrong?_eq_none_iff, wrong?_eq_some_iff]
  constructor
  · rintro ⟨place, k, hget, ⟨hwrong, hsays⟩, hfirst⟩
    exact ⟨place, k, ⟨hget, hwrong, hfirst⟩, hsays⟩
  · rintro ⟨place, k, ⟨hget, hwrong, hfirst⟩, hsays⟩
    exact ⟨place, k, hget, ⟨hwrong, hsays⟩, hfirst⟩

example : ofCall? ⟨1, "Room_delay", [.int 1, .int 0, .null]⟩
    = some (.error "Room_delay: delay must be positive, got 0") := rfl

theorem firstWrong?_eq_none_iff {c : Packet.Call} {place : Nat} {kinds : List Kind} :
    firstWrong? c place kinds = none ↔ Begins kinds (c.params.drop place) := by
  induction kinds generalizing place with
  | nil => simp [firstWrong?, Begins]
  | cons k kinds ih =>
      rw [firstWrong?, Option.or_eq_none_iff, wrong?_eq_none_iff, ih]
      constructor
      · rintro ⟨hk, hkinds⟩ i k' hget
        cases i with
        | zero =>
            cases hget
            simpa using hk
        | succ i =>
            have hfits := hkinds i k' hget
            simpa [Nat.add_assoc, Nat.add_comm 1 i] using hfits
      · intro h
        refine ⟨by simpa using h 0 k rfl, fun i k' hget => ?_⟩
        have hfits := h (i + 1) k' hget
        simpa [Nat.add_assoc, Nat.add_comm 1 i] using hfits

/-- A call is taken just if its parameters are of the kinds that its method takes. -/
theorem ofCall?_ok_iff (m : Method) (id : Int32) (params : List Packet.Value) :
    (∃ call, ofCall? ⟨id, m.name, params⟩ = some (.ok call)) ↔ Begins m.kinds params := by
  have hnone : (∃ call, ofCall? ⟨id, m.name, params⟩ = some (.ok call))
      ↔ words? (ofMethod ⟨id, m.name, params⟩ m) = none := by
    rw [ofCall?_name]
    cases ofMethod ⟨id, m.name, params⟩ m <;> simp [words?]
  rw [hnone, words?_ofMethod, firstWrong?_eq_none_iff]
  rfl

/-! ## Surplus parameters -/

section Surplus

variable {c c' : Packet.Call} (hmethod : c'.method = c.method)
include hmethod

theorem param_congr {place : Nat} (h : c'.params[place]? = c.params[place]?) :
    param c' place = param c place := by
  rw [param, param, h, hmethod]

theorem intParam_congr {place : Nat} (h : c'.params[place]? = c.params[place]?) :
    intParam c' place = intParam c place := by
  rw [intParam, intParam, param_congr hmethod h, hmethod]

theorem int32Param_congr {place : Nat} (h : c'.params[place]? = c.params[place]?) :
    int32Param c' place = int32Param c place := by
  rw [int32Param, int32Param, intParam_congr hmethod h, hmethod]

theorem bytesParam_congr {place : Nat} (h : c'.params[place]? = c.params[place]?) :
    bytesParam c' place = bytesParam c place := by
  rw [bytesParam, bytesParam, param_congr hmethod h, hmethod]

theorem boolParam_congr {place : Nat} (h : c'.params[place]? = c.params[place]?) :
    boolParam c' place = boolParam c place := by
  rw [boolParam, boolParam, param_congr hmethod h, hmethod]

theorem timestampParam_congr {place : Nat} (h : c'.params[place]? = c.params[place]?) :
    timestampParam c' place = timestampParam c place := by
  rw [timestampParam, timestampParam, intParam_congr hmethod h, h]

theorem timerParams_congr (h : ∀ place < 2, c'.params[place]? = c.params[place]?) :
    timerParams c' = timerParams c := by
  rw [timerParams, timerParams, int32Param_congr hmethod (h 0 (by decide)),
    intParam_congr hmethod (h 1 (by decide)), hmethod]

/-- **What comes after the parameters that a method takes is not looked at**, except that a line of the
log has all that there are. -/
theorem ofMethod_of_agree {m : Method} (hkinds : m.kinds ≠ [])
    (h : ∀ place < m.kinds.length, c'.params[place]? = c.params[place]?) :
    ofMethod c' m = ofMethod c m := by
  have hfirst : 0 < m.kinds.length := List.length_pos_iff.mpr hkinds
  have hconnection := int32Param_congr hmethod (h 0 hfirst)
  cases m with
  | qDebug | qInfo | qWarning | qCritical | print => exact absurd rfl hkinds
  | doNotify =>
      rw [ofMethod, ofMethod, hconnection, bytesParam_congr hmethod (h 1 (by decide)),
        bytesParam_congr hmethod (h 2 (by decide))]
  | doRequest =>
      rw [ofMethod, ofMethod, hconnection, bytesParam_congr hmethod (h 1 (by decide)),
        bytesParam_congr hmethod (h 2 (by decide)), int32Param_congr hmethod (h 3 (by decide)),
        timestampParam_congr hmethod (h 4 (by decide))]
  | waitForReply =>
      rw [ofMethod, ofMethod, hconnection, intParam_congr hmethod (h 1 (by decide)), hmethod]
  | setThinking | setDied =>
      rw [ofMethod, ofMethod, hconnection, boolParam_congr hmethod (h 1 (by decide))]
  | delay | setRequestTimer => rw [ofMethod, ofMethod, timerParams_congr hmethod h]
  | thinking | emitKick | destroyRequestTimer | temporarilyBan | gameOver =>
      rw [ofMethod, ofMethod, hconnection]

end Surplus

/-- Parameters that are added to those that a method takes are ignored. -/
theorem ofCall?_surplus {m : Method} (hkinds : m.kinds ≠ []) (id : Int32) {params : List Packet.Value}
    (hlength : m.kinds.length ≤ params.length) (more : List Packet.Value) :
    ofCall? ⟨id, m.name, params ++ more⟩ = ofCall? ⟨id, m.name, params⟩ := by
  rw [ofCall?_name, ofCall?_name]
  refine congrArg some (ofMethod_of_agree (by rfl) hkinds fun place hplace => ?_)
  exact List.getElem?_append_left (Nat.lt_of_lt_of_le hplace hlength)

/-! ## What a method does with its parameters -/

/-- How a method takes or refuses its parameters. -/
structure Method.Judges (m : Method) : Prop where
  /-- A call is refused just if a parameter that has to be there does not fit, or a request for a reply
  has a fifth parameter that is neither null nor an integer. -/
  refused : ∀ (id : Int32) (params : List Packet.Value),
    (∃ words, ofCall? ⟨id, m.name, params⟩ = some (.error words)) ↔ ¬ Begins m.required params
      ∨ m = .doRequest ∧ ∃ v, params[4]? = some v ∧ v ≠ .null ∧ v.asInt? = none
  /-- It is told what is wrong with the first parameter that does not fit. -/
  told : ∀ (id : Int32) (params : List Packet.Value) (words : String),
    ofCall? ⟨id, m.name, params⟩ = some (.error words) ↔ ∃ place k, m.Misfit params place k
      ∧ words = k.complaint m.name place params[place]?
  /-- Parameters beyond those that a method takes are ignored; a line of the log takes all. -/
  surplus : m.kinds ≠ [] → ∀ (id : Int32) (params more : List Packet.Value),
    m.kinds.length ≤ params.length →
    ofCall? ⟨id, m.name, params ++ more⟩ = ofCall? ⟨id, m.name, params⟩

theorem judges (m : Method) : m.Judges where
  refused id params := by
    have hdecided : (∃ words, ofCall? ⟨id, m.name, params⟩ = some (.error words))
        ↔ ¬ ∃ call, ofCall? ⟨id, m.name, params⟩ = some (.ok call) := by
      rw [ofCall?_name]
      cases ofMethod ⟨id, m.name, params⟩ m <;> simp
    rw [hdecided, ofCall?_ok_iff, begins_kinds_iff, Classical.not_and_iff_not_or_not,
      Classical.not_imp, Bool.not_eq_true, Kind.fits_moment_eq_false_iff]
  told id params words := ofCall?_error_iff m id params words
  surplus hkinds id _ more hlength := ofCall?_surplus hkinds id hlength more

/-- A fifth parameter of a request is more than has to be there, but it is not ignored. -/
theorem not_only_required : ¬ ∀ (m : Method) (id : Int32) (params : List Packet.Value),
    (∃ words, ofCall? ⟨id, m.name, params⟩ = some (.error words)) ↔ ¬ Begins m.required params := by
  intro h
  have hrefused := (h .doRequest 1 [.int 1, .text "cmd", .text "data", .int 100, .text "soon"]).mp
    ⟨_, rfl⟩
  refine hrefused fun place k hget => ?_
  match place, hget with
  | 0, rfl | 1, rfl | 2, rfl | 3, rfl => decide

end HostCall

end GameHall
