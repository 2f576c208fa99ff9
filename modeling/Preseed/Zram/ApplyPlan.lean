import Preseed.Zram.Policy

/-!
# Applying a plan

`_apply_plan` of `Zram::Policy` samples the I/O pressure and the budget again after
recompression, bounds the planned writes by the limits of that time and gives them to the
kernel one after another. A write that fails does not stop the ones after it.
-/

namespace Preseed.Zram

/-- The configuration of the batch knob and of the budget. -/
structure TuningConfig where
  batchSize : ℕ
  batchSizeAdaptive : Bool
  /-- `ZRAM_WRITEBACK_BATCH_SIZE_*`. -/
  stateBatchSize : PressureState → ℕ
  batchSizeRotationalMax : ℕ
  /-- `ZRAM_IO_PSI_BATCH_SIZE_*`. -/
  ioPsiBatchSize : PressureState → ℕ
  limitEnable : Bool
  minRemainingPages : ℕ

/-- What the system says while a plan is applied. -/
structure Readings where
  sample : Option (ℕ × ℕ)
  queueDepth : Option ℕ
  rotational : Option Bool
  /-- `writeback_limit`. -/
  remaining : Option ℕ
  /-- The batch knob was written. -/
  batchWritten : Bool

/-- `_writeback_batch_size_for_state`. -/
def writebackBatchSizeForState (tuning : TuningConfig) (state : PressureState)
    (queueDepth : Option ℕ) (rotational : Option Bool) (throttle : Bool) : ℕ :=
  let target :=
    if tuning.batchSizeAdaptive then tuning.stateBatchSize state else tuning.batchSize
  let target := positiveMin [some target, some tuning.batchSize]
  let target :=
    if rotational = some true then positiveMin [target, some tuning.batchSizeRotationalMax]
    else target
  let target := positiveMin [target, queueDepth]
  let target :=
    if state ≠ .normal ∧ throttle then positiveMin [target, some (tuning.ioPsiBatchSize state)]
    else target
  match target with
  | some target => if 0 < target then target else 1
  | none => 1

/-- `writeback_budget_pages_available`; without a limit it is `none`. -/
def writebackBudgetPagesAvailable (config : PolicyConfig) (tuning : TuningConfig)
    (remaining : Option ℕ) : Option ℕ :=
  if !config.writebackEnabled then some 0
  else if !tuning.limitEnable then none
  else
    match remaining with
    | none => some 0
    | some remaining =>
        if remaining ≤ tuning.minRemainingPages then some 0
        else some (remaining - tuning.minRemainingPages)

/-- The limit of a pass when its plan is applied. -/
def applyLimit (config : PolicyConfig) (tuning : TuningConfig) (state : PressureState)
    (plan : Plan) (readings : Readings) : ℕ :=
  let throttle := ioThrottle config readings.sample
  let budget := writebackBudgetPagesAvailable config tuning readings.remaining
  let limit := writebackPassPagesForState config state budget throttle
  let limit := if plan.writebackPassPages < limit then plan.writebackPassPages else limit
  let batchSize :=
    writebackBatchSizeForState tuning state readings.queueDepth readings.rotational throttle
  let applied := config.writebackEnabled && readings.batchWritten
  -- Without the knob the whole pass is one batch.
  if !applied && throttle then if batchSize < limit then batchSize else limit
  else limit

/-- The loop that bounds the writes of a plan. -/
def boundSpecs (maxBytes : ℕ) : ℕ → List Spec → Option (List Spec)
  | _, [] => some []
  | remaining, spec :: specs =>
      if remaining = 0 then some []
      else do
        let bounded ← truncatePageIndexSpec maxBytes spec remaining
        let pages ← pageIndexSpecPages maxBytes bounded
        let rest ← boundSpecs maxBytes (remaining - pages) specs
        return bounded :: rest

/-! ## Writes -/

/-- `MAX_ATTR_BYTES`. -/
def maxAttrBytes : ℕ := 65536

/-- What becomes of a value for a trigger. -/
inductive Trigger
  /-- The file is not there, not writable or not opened. -/
  | unopened
  /-- A dry run logs the value. -/
  | logged
  /-- The kernel refuses the value. -/
  | rejected
  | accepted
  deriving DecidableEq

/-- The value reaches the kernel. -/
def Trigger.submits (trigger : Trigger) : Bool := trigger == .rejected || trigger == .accepted

/-- The result of `try_values`. -/
def Trigger.result (trigger : Trigger) : ℕ :=
  if trigger = .logged ∨ trigger = .accepted then 1 else 0

/-- What the writes of a pass have done; a value that is too long is fatal. -/
structure Submission where
  submitted : List Spec
  operations : ℕ
  fatal : Bool
  deriving DecidableEq

/-- `writeback_spec` for each specification; the trigger's answers are `outcome`. -/
def submitSpecs (outcome : ℕ → Trigger) : ℕ → List Spec → Submission
  | _, [] => ⟨[], 0, false⟩
  | index, spec :: specs =>
      if maxAttrBytes < spec.bytes then ⟨[], 0, true⟩
      else
        let rest := submitSpecs outcome (index + 1) specs
        if spec = [] then rest
        else
          { submitted := if (outcome index).submits then spec :: rest.submitted else rest.submitted
            operations := (outcome index).result + rest.operations
            fatal := rest.fatal }

/-- What applying a plan has done. -/
structure AppliedPlan where
  limit : ℕ
  /-- The bounded writes. -/
  writeback : List Spec
  submission : Submission
  operations : ℕ
  compacted : Bool
  deriving DecidableEq

/-- `_apply_plan`; a fatal error before the writes is `none`. -/
def applyPlan (config : PolicyConfig) (tuning : TuningConfig) (state : PressureState)
    (plan : Plan) (readings : Readings) (recompressed outcome : ℕ → Trigger) :
    Option AppliedPlan := do
  let recompressions :=
    ((List.range plan.recompress.length).map fun index => (recompressed index).result).sum
  let limit := if plan.writeback = [] then 0 else applyLimit config tuning state plan readings
  let bounded ← boundSpecs config.specMaxBytes limit plan.writeback
  let submission := submitSpecs outcome 0 bounded
  let operations := recompressions + submission.operations
  return { limit := limit
           writeback := bounded
           submission := submission
           operations := operations
           compacted := !submission.fatal && decide (0 < operations) && plan.compact }

/-! ## The limits -/

theorem applyLimit_le_plan (config : PolicyConfig) (tuning : TuningConfig) (state : PressureState)
    (plan : Plan) (readings : Readings) :
    applyLimit config tuning state plan readings ≤ plan.writebackPassPages := by
  unfold applyLimit
  simp only
  split
  · split
    · split at * <;> omega
    · split <;> omega
  · split <;> omega

theorem applyLimit_le_pass (config : PolicyConfig) (tuning : TuningConfig) (state : PressureState)
    (plan : Plan) (readings : Readings) :
    applyLimit config tuning state plan readings ≤
      writebackPassPagesForState config state
        (writebackBudgetPagesAvailable config tuning readings.remaining)
        (ioThrottle config readings.sample) := by
  unfold applyLimit
  simp only
  split
  · split
    · split at * <;> omega
    · split <;> omega
  · split <;> omega

theorem applyLimit_le_batch {config : PolicyConfig} {tuning : TuningConfig} (state : PressureState)
    (plan : Plan) {readings : Readings} (hthrottle : ioThrottle config readings.sample = true)
    (hknob : config.writebackEnabled = false ∨ readings.batchWritten = false) :
    applyLimit config tuning state plan readings ≤
      writebackBatchSizeForState tuning state readings.queueDepth readings.rotational true := by
  have hunapplied : (config.writebackEnabled && readings.batchWritten) = false := by
    rcases hknob with h | h <;> simp [h]
  unfold applyLimit
  simp only [hthrottle, hunapplied, Bool.not_false, Bool.and_self, if_true]
  split
  · split <;> omega
  · split <;> omega

/-! ## The pages of a pass -/

/-- The bounded writes have the first pages of the plan. -/
theorem boundSpecs_indexes {maxBytes remaining : ℕ} {specs bounded : List Spec}
    (h : boundSpecs maxBytes remaining specs = some bounded) :
    specIndexes bounded = (specIndexes specs).take remaining := by
  induction specs generalizing remaining bounded with
  | nil =>
    cases h
    simp [specIndexes]
  | cons spec specs ih =>
    unfold boundSpecs at h
    split at h
    · rename_i hzero
      cases h
      simp [specIndexes, hzero]
    · simp only [Option.bind_eq_bind, Option.bind_eq_some_iff] at h
      obtain ⟨truncated, htruncated, pages, hpages, rest, hrest, h⟩ := h
      cases h
      have hfirst := truncatePageIndexSpec_indexes htruncated
      obtain ⟨hcount, -⟩ := pageIndexSpecPages_eq hpages
      have hleft : remaining - pages = remaining - spec.indexes.length := by
        rw [← hcount, hfirst, List.length_take]
        omega
      have hcons (spec : Spec) (specs : List Spec) :
          specIndexes (spec :: specs) = spec.indexes ++ specIndexes specs := rfl
      rw [hcons, hcons, hfirst, ih hrest, hleft, List.take_append]

theorem submitSpecs_sublist (outcome : ℕ → Trigger) (index : ℕ) (specs : List Spec) :
    (submitSpecs outcome index specs).submitted.Sublist specs := by
  induction specs generalizing index with
  | nil => exact List.Sublist.refl _
  | cons spec specs ih =>
    unfold submitSpecs
    split
    · exact List.nil_sublist _
    · simp only
      split
      · exact (ih _).trans (List.sublist_cons_self _ _)
      · split
        · exact List.Sublist.cons_cons _ (ih _)
        · exact (ih _).trans (List.sublist_cons_self _ _)

/-- If every value reaches the kernel, it gets the first pages; a fatal value ends them. -/
theorem submitSpecs_first {outcome : ℕ → Trigger} (houtcome : ∀ index, (outcome index).submits)
    (index : ℕ) (specs : List Spec) :
    specIndexes (submitSpecs outcome index specs).submitted <+: specIndexes specs ∧
      ((submitSpecs outcome index specs).fatal = false →
        specIndexes (submitSpecs outcome index specs).submitted = specIndexes specs) := by
  induction specs generalizing index with
  | nil => exact ⟨List.prefix_refl _, fun _ => rfl⟩
  | cons spec specs ih =>
    obtain ⟨hstart, hwhole⟩ := ih (index + 1)
    have hcons (spec : Spec) (specs : List Spec) :
        specIndexes (spec :: specs) = spec.indexes ++ specIndexes specs := rfl
    unfold submitSpecs
    split
    · exact ⟨List.nil_prefix, fun h => by cases h⟩
    · simp only
      split
      · rename_i hempty
        rw [hempty]
        exact ⟨hstart, hwhole⟩
      · rw [if_pos (houtcome index), hcons, hcons]
        constructor
        · exact (List.prefix_append_right_inj _).mpr hstart
        · intro hfatal
          rw [hwhole hfatal]

theorem specIndexes_sublist {some all : List Spec} (h : some.Sublist all) :
    (specIndexes some).Sublist (specIndexes all) := by
  exact h.flatMap _

/-- What the pages of an applied plan are. -/
structure SubmitsPrefix (config : PolicyConfig) (tuning : TuningConfig) (state : PressureState)
    (plan : Plan) (readings : Readings) (outcome : ℕ → Trigger) (applied : AppliedPlan) : Prop where
  /-- The pages that are given to the writes, in order. -/
  handed : specIndexes applied.writeback <+: specIndexes plan.writeback
  /-- A write that fails leaves its own pages out. -/
  submitted : (specIndexes applied.submission.submitted).Sublist (specIndexes applied.writeback)
  reached : (∀ index, (outcome index).submits) →
    specIndexes applied.submission.submitted <+: specIndexes plan.writeback
  cap : (specIndexes applied.writeback).length ≤ plan.writebackPassPages
  pass : (specIndexes applied.writeback).length ≤
    writebackPassPagesForState config state
      (writebackBudgetPagesAvailable config tuning readings.remaining)
      (ioThrottle config readings.sample)
  budget : ∀ pages, writebackBudgetPagesAvailable config tuning readings.remaining = some pages →
    (specIndexes applied.writeback).length ≤ pages
  batch : ioThrottle config readings.sample = true →
    config.writebackEnabled = false ∨ readings.batchWritten = false →
    (specIndexes applied.writeback).length ≤
      writebackBatchSizeForState tuning state readings.queueDepth readings.rotational true

/-- A plan that is applied gives a prefix of its pages to the writes, within every limit of
that time, and those that are submitted are among them in order. -/
theorem apply_plan_submits_prefix (config : PolicyConfig) (tuning : TuningConfig)
    (state : PressureState) (plan : Plan) (readings : Readings)
    (recompressed outcome : ℕ → Trigger) (applied : AppliedPlan)
    (h : applyPlan config tuning state plan readings recompressed outcome = some applied) :
    SubmitsPrefix config tuning state plan readings outcome applied := by
  simp only [applyPlan, Option.bind_eq_bind, Option.bind_eq_some_iff] at h
  obtain ⟨bounded, hbounded, h⟩ := h
  cases h
  have hpages : specIndexes bounded =
      (specIndexes plan.writeback).take (applyLimit config tuning state plan readings) := by
    have hbounded := boundSpecs_indexes hbounded
    split at hbounded
    · rename_i hempty
      rw [hbounded, hempty]
      simp [specIndexes]
    · exact hbounded
  have hstart : specIndexes bounded <+: specIndexes plan.writeback := by
    rw [hpages]
    exact List.take_prefix _ _
  have hlength : (specIndexes bounded).length ≤ applyLimit config tuning state plan readings := by
    rw [hpages]
    exact List.length_take_le _ _
  have hpass := applyLimit_le_pass config tuning state plan readings
  constructor
  · exact hstart
  · exact specIndexes_sublist (submitSpecs_sublist outcome 0 bounded)
  · intro houtcome
    exact (submitSpecs_first houtcome 0 bounded).1.trans hstart
  · exact hlength.trans (applyLimit_le_plan config tuning state plan readings)
  · exact hlength.trans hpass
  · intro pages hbudget
    rw [hbudget] at hpass
    exact hlength.trans (hpass.trans writebackPassPages_le)
  · intro hthrottle hknob
    exact hlength.trans (applyLimit_le_batch state plan hthrottle hknob)

/-! ## Concrete passes -/

/-- Batches of at most eight pages, of two pages under I/O pressure. -/
def smallTuning : TuningConfig where
  batchSize := 8
  batchSizeAdaptive := false
  stateBatchSize _ := 8
  batchSizeRotationalMax := 4
  ioPsiBatchSize _ := 2
  limitEnable := true
  minRemainingPages := 1

/-- No I/O pressure, and a budget of four pages over the reserve. -/
def calmReadings : Readings where
  sample := some (0, 0)
  queueDepth := some 64
  rotational := some false
  remaining := some 5
  batchWritten := true

/-- Two explicit writes. -/
def twoWrites : Plan where
  recompress := []
  manual := [[.pages 1 2], [.page 7, .page 9]]
  incompressible := []
  hugeIdle := []
  compact := true
  budgetAllows := true
  writebackPassPages := 4

/-- Three pages are within the limit of the pass. -/
theorem apply_plan_submits_prefix_two :
    ∃ applied, applyPlan smallConfig smallTuning .emergency twoWrites calmReadings
        (fun _ => .accepted) (fun _ => .accepted) = some applied ∧
      specIndexes applied.submission.submitted = [1, 2, 7] ∧
      SubmitsPrefix smallConfig smallTuning .emergency twoWrites calmReadings
        (fun _ => .accepted) applied := by
  have hpages : (applyPlan smallConfig smallTuning .emergency twoWrites calmReadings
      (fun _ => .accepted) (fun _ => .accepted)).map
        (fun applied => specIndexes applied.submission.submitted) = some [1, 2, 7] := by
    decide
  obtain ⟨applied, happlied, hsubmitted⟩ := Option.map_eq_some_iff.mp hpages
  exact ⟨applied, happlied, hsubmitted,
    apply_plan_submits_prefix _ _ _ _ _ _ _ _ happlied⟩

/-- The first trigger is not opened and the second one is. -/
def firstUnopened : ℕ → Trigger
  | 0 => .unopened
  | _ + 1 => .accepted

/-- The kernel gets the pages of the second write without those of the first. -/
theorem failed_write_passed_over :
    ∃ applied, applyPlan smallConfig smallTuning .emergency twoWrites calmReadings
        (fun _ => .accepted) firstUnopened = some applied ∧
      ¬specIndexes applied.submission.submitted <+: specIndexes twoWrites.writeback := by
  have hpages : (applyPlan smallConfig smallTuning .emergency twoWrites calmReadings
      (fun _ => .accepted) firstUnopened).map
        (fun applied => specIndexes applied.submission.submitted) = some [7] := by
    decide
  obtain ⟨applied, happlied, hsubmitted⟩ := Option.map_eq_some_iff.mp hpages
  refine ⟨applied, happlied, ?_⟩
  rw [hsubmitted]
  decide

end Preseed.Zram
