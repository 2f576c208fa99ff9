import Preseed.Zram.ConfigValues
import Preseed.Zram.Controller

/-!
# Memory pressure

`evaluate` of `Zram::Pressure::Evaluator` compares a sample of the memory with the
thresholds of the configuration. What the kernel did not say is 0 in a sample.
-/

namespace Preseed.Zram

/-! ## Thresholds -/

/-- The texts of the policy section from which the thresholds are made. -/
structure PressurePolicy where
  pressureMemAvailablePercent : List Char
  emergencyMemAvailablePercent : List Char
  memorySomeAvg10Min : List Char
  memoryFullAvg10Min : List Char
  emergencySomeAvg10Min : List Char
  emergencyFullAvg10Min : List Char
  minFreeMemory : List Char

/-- `_thresholds`. -/
structure Thresholds where
  pressureMemAvailablePct : ℕ
  emergencyMemAvailablePct : ℕ
  pressureSome : ℕ
  pressureFull : ℕ
  emergencySome : ℕ
  emergencyFull : ℕ
  minimumFree : ℕ
  deriving DecidableEq

/-- What `normalize_config` makes of the thresholds, and what it requires of them. -/
def normalizeThresholds (policy : PressurePolicy) : Option Thresholds := do
  let pressureMemAvailablePct ← ensurePercent policy.pressureMemAvailablePercent
  let emergencyMemAvailablePct ← ensurePercent policy.emergencyMemAvailablePercent
  let minimumFree ← sizeToBytes policy.minFreeMemory
  let pressureSome ← ensurePsiMillionths policy.memorySomeAvg10Min
  let pressureFull ← ensurePsiMillionths policy.memoryFullAvg10Min
  let emergencySome ← ensurePsiMillionths policy.emergencySomeAvg10Min
  let emergencyFull ← ensurePsiMillionths policy.emergencyFullAvg10Min
  guard (emergencyMemAvailablePct ≤ pressureMemAvailablePct)
  guard (pressureSome ≤ emergencySome)
  guard (pressureFull ≤ emergencyFull)
  return ⟨pressureMemAvailablePct, emergencyMemAvailablePct, pressureSome, pressureFull,
    emergencySome, emergencyFull, minimumFree⟩

/-- What the validator guarantees of the thresholds. -/
structure Thresholds.Valid (thresholds : Thresholds) : Prop where
  pressurePercent : thresholds.pressureMemAvailablePct ≤ 100
  emergencyPercent : thresholds.emergencyMemAvailablePct ≤ 100
  percents : thresholds.emergencyMemAvailablePct ≤ thresholds.pressureMemAvailablePct
  some_le : thresholds.pressureSome ≤ thresholds.emergencySome
  full_le : thresholds.pressureFull ≤ thresholds.emergencyFull

theorem normalizeThresholds_valid {policy : PressurePolicy} {thresholds : Thresholds}
    (h : normalizeThresholds policy = some thresholds) : thresholds.Valid := by
  simp only [normalizeThresholds, Option.bind_eq_bind, Option.bind_eq_some_iff,
    Option.guard_eq_some', Option.pure_def, Option.some.injEq, exists_const] at h
  obtain ⟨pressure, hpressure, emergency, hemergency, _, -, _, -, _, -, _, -, _, -, hpercents,
    hsome, hfull, rfl⟩ := h
  exact ⟨of_ensurePercent hpressure, of_ensurePercent hemergency, hpercents, hsome, hfull⟩

/-! ## The evaluation -/

/-- A sample of the memory; what could not be read is undefined. -/
structure Snapshot where
  memAvailableBytes : Option ℕ
  memTotalBytes : Option ℕ
  psiSomeAvg10Millionths : Option ℕ
  psiFullAvg10Millionths : Option ℕ

namespace Snapshot

variable (snapshot : Snapshot)

/-- `_snapshot_uint_or_zero` of each value. -/
def available : ℕ := snapshot.memAvailableBytes.getD 0

def total : ℕ := snapshot.memTotalBytes.getD 0

def someAvg10 : ℕ := snapshot.psiSomeAvg10Millionths.getD 0

def fullAvg10 : ℕ := snapshot.psiFullAvg10Millionths.getD 0

/-- `$available_pct`, rounded up. -/
def availablePct : ℕ :=
  if 0 < snapshot.total then (snapshot.available * 100 + snapshot.total - 1) / snapshot.total
  else 0

end Snapshot

/-- `$facts`. -/
structure Facts where
  memAvailableBytes : ℕ
  memTotalBytes : ℕ
  memAvailablePercent : ℕ
  psiSomeAvg10Millionths : ℕ
  psiFullAvg10Millionths : ℕ
  deriving DecidableEq

/-- What an evaluation returns. -/
structure Evaluation where
  state : PressureState
  reasons : List String
  facts : Facts
  deriving DecidableEq

/-- `_reason`. -/
def reason (maxReasonBytes : ℕ) (value : String) : String :=
  String.ofList (value.toList.take maxReasonBytes)

/-- `push @reasons, ... if ...`. -/
def pushIf (condition : Prop) [Decidable condition] (text : String) : List String :=
  if condition then [text] else []

/-- `@emergency`. -/
def emergencyReasons (maxReasonBytes : ℕ) (snapshot : Snapshot) (thresholds : Thresholds) :
    List String :=
  pushIf (0 < snapshot.total ∧ snapshot.availablePct ≤ thresholds.emergencyMemAvailablePct)
      (reason maxReasonBytes ("MemAvailablePct=" ++ Nat.repr snapshot.availablePct ++ "<=" ++
        Nat.repr thresholds.emergencyMemAvailablePct)) ++
    pushIf (thresholds.emergencySome ≤ snapshot.someAvg10)
      (reason maxReasonBytes "PSI some avg10 reached emergency threshold") ++
    pushIf (thresholds.emergencyFull ≤ snapshot.fullAvg10)
      (reason maxReasonBytes "PSI full avg10 reached emergency threshold")

/-- `@pressure`. -/
def pressureReasons (maxReasonBytes : ℕ) (snapshot : Snapshot) (thresholds : Thresholds) :
    List String :=
  pushIf (0 < snapshot.total ∧ snapshot.availablePct ≤ thresholds.pressureMemAvailablePct)
      (reason maxReasonBytes ("MemAvailablePct=" ++ Nat.repr snapshot.availablePct ++ "<=" ++
        Nat.repr thresholds.pressureMemAvailablePct)) ++
    pushIf (thresholds.pressureSome ≤ snapshot.someAvg10)
      (reason maxReasonBytes "PSI some avg10 reached pressure threshold") ++
    pushIf (thresholds.pressureFull ≤ snapshot.fullAvg10)
      (reason maxReasonBytes "PSI full avg10 reached pressure threshold") ++
    pushIf (0 < thresholds.minimumFree ∧ 0 < snapshot.available ∧
        snapshot.available ≤ thresholds.minimumFree)
      (reason maxReasonBytes "MemAvailable bytes below configured floor")

/-- `evaluate`. -/
def evaluate (maxReasonBytes : ℕ) (snapshot : Snapshot) (thresholds : Thresholds) :
    Option Evaluation := do
  guard (thresholds.emergencyMemAvailablePct ≤ 100)
  guard (thresholds.pressureMemAvailablePct ≤ 100)
  let emergency := emergencyReasons maxReasonBytes snapshot thresholds
  let pressure := pressureReasons maxReasonBytes snapshot thresholds
  let facts : Facts := ⟨snapshot.available, snapshot.total, snapshot.availablePct,
    snapshot.someAvg10, snapshot.fullAvg10⟩
  if emergency ≠ [] then return ⟨.emergency, emergency, facts⟩
  if pressure ≠ [] then return ⟨.pressure, pressure, facts⟩
  return ⟨.normal, [reason maxReasonBytes "below pressure thresholds"], facts⟩

/-! ## Monotonicity -/

/-- The second sample is under no less pressure than the first. -/
structure NoLessPressure (first second : Snapshot) : Prop where
  total : second.total = first.total
  available : second.available ≤ first.available
  some_le : first.someAvg10 ≤ second.someAvg10
  full_le : first.fullAvg10 ≤ second.fullAvg10

variable {first second : Snapshot} {thresholds : Thresholds} {maxReasonBytes : ℕ}

theorem pushIf_ne_nil {condition : Prop} [Decidable condition] {text : String} :
    pushIf condition text ≠ [] ↔ condition := by
  unfold pushIf
  split <;> simp_all

/-- When there is a reason for an emergency. -/
theorem emergencyReasons_ne_nil :
    emergencyReasons maxReasonBytes first thresholds ≠ [] ↔
      (0 < first.total ∧ first.availablePct ≤ thresholds.emergencyMemAvailablePct) ∨
        thresholds.emergencySome ≤ first.someAvg10 ∨
          thresholds.emergencyFull ≤ first.fullAvg10 := by
  simp only [emergencyReasons, ne_eq, List.append_eq_nil_iff, not_and_or]
  simp only [← ne_eq, pushIf_ne_nil, or_assoc]

/-- When there is a reason for the pressure state. -/
theorem pressureReasons_ne_nil :
    pressureReasons maxReasonBytes first thresholds ≠ [] ↔
      (0 < first.total ∧ first.availablePct ≤ thresholds.pressureMemAvailablePct) ∨
        thresholds.pressureSome ≤ first.someAvg10 ∨
          thresholds.pressureFull ≤ first.fullAvg10 ∨
            0 < thresholds.minimumFree ∧ 0 < first.available ∧
              first.available ≤ thresholds.minimumFree := by
  simp only [pressureReasons, ne_eq, List.append_eq_nil_iff, not_and_or]
  simp only [← ne_eq, pushIf_ne_nil, or_assoc]

theorem NoLessPressure.availablePct (h : NoLessPressure first second) :
    second.availablePct ≤ first.availablePct := by
  unfold Snapshot.availablePct
  rw [h.total]
  split
  · have := h.available
    exact Nat.div_le_div_right (by omega)
  · exact le_refl _

theorem NoLessPressure.emergency (h : NoLessPressure first second)
    (hfirst : emergencyReasons maxReasonBytes first thresholds ≠ []) :
    emergencyReasons maxReasonBytes second thresholds ≠ [] := by
  rw [emergencyReasons_ne_nil] at hfirst ⊢
  have hpct := h.availablePct
  have htotal := h.total
  have hsome := h.some_le
  have hfull := h.full_le
  rcases hfirst with hmem | hpsi | hpsi
  · left
    omega
  · right; left
    omega
  · right; right
    omega

/-- A second sample without available memory is an emergency when the total is known. -/
theorem emergencyReasons_of_exhausted (htotal : 0 < first.total) (h : first.available = 0) :
    emergencyReasons maxReasonBytes first thresholds ≠ [] := by
  rw [emergencyReasons_ne_nil]
  left
  have hpct : first.availablePct = 0 := by
    rw [Snapshot.availablePct, if_pos htotal, h]
    exact Nat.div_eq_of_lt (by omega)
  omega

theorem NoLessPressure.pressure (h : NoLessPressure first second)
    (hknown : 0 < first.total ∨ 0 < second.available ∨ first.available = 0)
    (hfirst : pressureReasons maxReasonBytes first thresholds ≠ []) :
    emergencyReasons maxReasonBytes second thresholds ≠ [] ∨
      pressureReasons maxReasonBytes second thresholds ≠ [] := by
  have hpct := h.availablePct
  have htotal := h.total
  have havailable := h.available
  have hsome := h.some_le
  have hfull := h.full_le
  rw [pressureReasons_ne_nil] at hfirst
  -- Only the floor of the free memory does not count for a sample without available memory.
  by_cases hzero : second.available = 0 ∧ 0 < first.total
  · left
    exact emergencyReasons_of_exhausted (by omega) hzero.1
  · right
    rw [pressureReasons_ne_nil]
    rcases hfirst with hmem | hpsi | hpsi | hfloor
    · left
      omega
    · right; left
      omega
    · right; right; left
      omega
    · right; right; right
      omega

/-- The state of an evaluation is given by the reasons. -/
theorem evaluate_state (maxReasonBytes : ℕ) (snapshot : Snapshot) (hvalid : thresholds.Valid) :
    ∃ evaluation, evaluate maxReasonBytes snapshot thresholds = some evaluation ∧
      evaluation.state =
        if emergencyReasons maxReasonBytes snapshot thresholds ≠ [] then .emergency
        else if pressureReasons maxReasonBytes snapshot thresholds ≠ [] then .pressure
        else .normal := by
  have hemergency := hvalid.emergencyPercent
  have hpressure := hvalid.pressurePercent
  unfold evaluate
  simp only [guard, if_pos hemergency, if_pos hpressure, pure_bind]
  by_cases he : emergencyReasons maxReasonBytes snapshot thresholds = []
  · by_cases hp : pressureReasons maxReasonBytes snapshot thresholds = []
    · simp only [he, hp, ne_eq, not_true, if_false]
      exact ⟨_, rfl, rfl⟩
    · simp only [he, hp, ne_eq, not_true, not_false_eq_true, if_true, if_false]
      exact ⟨_, rfl, rfl⟩
  · simp only [he, ne_eq, not_false_eq_true, if_true]
    exact ⟨_, rfl, rfl⟩

/-- A sample under no less pressure is evaluated as at least as severe, unless only the
first one says how much memory is available and the total is unknown. -/
theorem evaluate_monotone (maxReasonBytes : ℕ) {policy : PressurePolicy} {thresholds : Thresholds}
    (haccepted : normalizeThresholds policy = some thresholds) {first second : Snapshot}
    (h : NoLessPressure first second)
    (hknown : 0 < first.total ∨ 0 < second.available ∨ first.available = 0) :
    ∃ before after, evaluate maxReasonBytes first thresholds = some before ∧
      evaluate maxReasonBytes second thresholds = some after ∧
      before.state.rank ≤ after.state.rank := by
  have hvalid := normalizeThresholds_valid haccepted
  obtain ⟨before, hbefore, hfirst⟩ := evaluate_state maxReasonBytes first hvalid
  obtain ⟨after, hafter, hsecond⟩ := evaluate_state maxReasonBytes second hvalid
  refine ⟨before, after, hbefore, hafter, ?_⟩
  rw [hfirst, hsecond]
  by_cases he : emergencyReasons maxReasonBytes second thresholds ≠ []
  · rw [if_pos he]
    split
    · exact le_refl _
    · split <;> decide
  · have hfirstEmergency := mt h.emergency he
    rw [if_neg he, if_neg hfirstEmergency]
    by_cases hp : pressureReasons maxReasonBytes second thresholds ≠ []
    · rw [if_pos hp]
      split <;> decide
    · have hfirstPressure : ¬pressureReasons maxReasonBytes first thresholds ≠ [] := fun hne =>
        (h.pressure hknown hne).elim he hp
      rw [if_neg hp, if_neg hfirstPressure]

/-- The default policy with a floor of the free memory. -/
def floorPolicy : PressurePolicy where
  pressureMemAvailablePercent := "12".toList
  emergencyMemAvailablePercent := "6".toList
  memorySomeAvg10Min := "0.50".toList
  memoryFullAvg10Min := "0.30".toList
  emergencySomeAvg10Min := "8.00".toList
  emergencyFullAvg10Min := "1.50".toList
  minFreeMemory := "64M".toList

def floorThresholds : Thresholds := ⟨12, 6, 500000, 300000, 8000000, 1500000, 67108864⟩

theorem evaluate_monotone_exhausted :
    ∃ before after, evaluate 512 ⟨some 67108864, some 8589934592, some 0, none⟩ floorThresholds =
        some before ∧
      evaluate 512 ⟨none, some 8589934592, some 600000, none⟩ floorThresholds = some after ∧
      before.state.rank ≤ after.state.rank :=
  evaluate_monotone 512 (show normalizeThresholds floorPolicy = some floorThresholds by decide)
    ⟨rfl, by decide, by decide, by decide⟩ (Or.inl (by decide))

/-- Without a total, memory that is known to be below the floor is pressure, and memory that
is not known is none. -/
theorem unknown_memory_relaxes :
    ∃ (policy : PressurePolicy) (thresholds : Thresholds) (first second : Snapshot),
      normalizeThresholds policy = some thresholds ∧ NoLessPressure first second ∧
        (evaluate 512 first thresholds).map Evaluation.state = some .pressure ∧
        (evaluate 512 second thresholds).map Evaluation.state = some .normal :=
  ⟨floorPolicy, floorThresholds, ⟨some 67108864, none, some 0, none⟩, ⟨none, none, some 0, none⟩,
    by decide, ⟨rfl, by decide, by decide, by decide⟩, by decide, by decide⟩

end Preseed.Zram
