import Preseed.Zram.BlockState
import Preseed.Zram.Controller

/-!
# The writeback plan

`policy_plan` of `Zram::Policy` plans a maintenance pass from the candidates of a
scan: recompression for each tier, then writeback of the explicit page indexes, of
incompressible pages and of huge idle pages, within the page limit of the pass.
-/

namespace Preseed.Zram

open List Option

/-- `recompression_tier*.type`. -/
inductive TierType
  | idle | hugeIdle | huge
  deriving DecidableEq

/-- A recompression tier. -/
structure Tier where
  enabled : Bool
  type : TierType
  priority : ℕ
  thresholdBytes : ℕ
  maxPages : PressureState → ℕ

/-- The configuration which the plan reads. -/
structure PolicyConfig where
  coldTierEnable : Bool
  recompressEnable : Bool
  writebackEnabled : Bool
  coldTierWritebackEnable : Bool
  compactEnable : Bool
  tiers : List Tier
  /-- `ZRAM_COLD_TIER_RECOMPRESS_*_MAX_PAGES`. -/
  recompressMaxPages : TierType → ℕ
  minColdPages : ℕ
  minIdlePages : ℕ
  minHugeIdlePages : ℕ
  minHugePages : ℕ
  minIncompressiblePages : ℕ
  incompressibleMaxPages : ℕ
  /-- `ZRAM_WRITEBACK_MAX_PAGES_*`. -/
  writebackMaxPages : PressureState → ℕ
  ioPsiEnable : Bool
  ioPsiSomeThreshold : ℕ
  ioPsiFullThreshold : ℕ
  /-- `ZRAM_IO_PSI_MAX_PAGES_*`. -/
  ioPsiMaxPages : PressureState → ℕ
  /-- `ZRAM_IDLE_AGE_SEC` and the ages of the other states. -/
  idleAgeSec : PressureState → ℕ
  hotAgeSec : ℕ
  chunkPageLimit : ℕ
  specMaxBytes : ℕ
  chunksPerClassMax : ℕ
  /-- `ZRAM_MAINTENANCE_PAGE_INDEXES`. -/
  maintenancePageIndexes : Spec

/-- A recompression request. -/
structure RecompressSpec where
  type : TierType
  priority : ℕ
  thresholdBytes : ℕ
  maxPages : ℕ

/-- A plan, with the writes in the order in which they are made. -/
structure Plan where
  recompress : List RecompressSpec
  /-- The explicit page indexes. -/
  manual : List Spec
  incompressible : List Spec
  hugeIdle : List Spec
  compact : Bool
  budgetAllows : Bool
  writebackPassPages : ℕ

namespace Plan

/-- The computed part of the writes. -/
def automatic (plan : Plan) : List Spec := plan.incompressible ++ plan.hugeIdle

def writeback (plan : Plan) : List Spec := plan.manual ++ plan.automatic

end Plan

/-! ## The limit of a pass -/

/-- `throttle` of `io_pressure_snapshot`, of a sample's averages if it can be read. -/
def ioThrottle (config : PolicyConfig) (sample : Option (ℕ × ℕ)) : Bool :=
  if config.ioPsiEnable then
    match sample with
    | none => true
    | some (someAvg10, fullAvg10) =>
        decide (config.ioPsiSomeThreshold ≤ someAvg10) ||
          decide (config.ioPsiFullThreshold ≤ fullAvg10)
  else false

/-- The smallest positive value. -/
def positiveMin (values : List (Option ℕ)) : Option ℕ :=
  values.foldl (fun minimum value =>
    match value with
    | none => minimum
    | some value =>
        if value = 0 then minimum
        else
          match minimum with
          | none => some value
          | some least => if value < least then some value else some least) none

/-- `writeback_pass_pages_for_state`; without a limit the budget is `none`. -/
def writebackPassPagesForState (config : PolicyConfig) (state : PressureState)
    (budget : Option ℕ) (throttle : Bool) : ℕ :=
  if state = .normal ∨ budget = some 0 then 0
  else
    let passLimit :=
      if throttle then
        positiveMin [some (config.writebackMaxPages state), some (config.ioPsiMaxPages state)]
      else some (config.writebackMaxPages state)
    (positiveMin [passLimit, budget]).getD 0

/-- `_writeback_class_caps`; a class without a cap has 0. -/
def writebackClassCaps (config : PolicyConfig) (state : PressureState) (budget : Option ℕ)
    (throttle : Bool) : PageClass → ℕ :=
  if state = .normal ∨ !config.writebackEnabled ∨ !config.coldTierWritebackEnable then fun _ => 0
  else
    let passCap := writebackPassPagesForState config state budget throttle
    fun
      | .idle => 0
      | .incompressible => min config.incompressibleMaxPages passCap
      | .hugeIdle => if state = .emergency then passCap else 0

/-! ## Candidates -/

/-- `has_candidate_at_least`; without a complete scan there may be one. -/
def hasCandidateAtLeast (stats : Stats) (minimum : ℕ) (counts : List ℕ) : Bool :=
  !stats.blockStateAuthoritative || decide (minimum ≤ counts.foldl max 0)

def coldMinimumMet (config : PolicyConfig) (stats : Stats) : Bool :=
  hasCandidateAtLeast stats config.minColdPages
    [stats.counts.coldPages, stats.counts.idleColdPages, stats.counts.hugeIdleColdPages,
      stats.counts.incompressibleColdPages]

def idleCandidate (config : PolicyConfig) (stats : Stats) : Bool :=
  hasCandidateAtLeast stats config.minIdlePages
    [stats.counts.idlePages, stats.counts.coldPages, stats.targetedPages .idle]

def hugeIdleCandidate (config : PolicyConfig) (stats : Stats) : Bool :=
  hasCandidateAtLeast stats config.minHugeIdlePages
    [stats.counts.hugeIdlePages, stats.counts.hugeIdleColdPages, stats.targetedPages .hugeIdle]

def incompressibleCandidate (config : PolicyConfig) (stats : Stats) : Bool :=
  hasCandidateAtLeast stats config.minIncompressiblePages
    [stats.counts.incompressiblePages, stats.counts.incompressibleColdPages,
      stats.targetedPages .incompressible]

/-! ## Recompression -/

/-- `_tier_has_candidate`. -/
def tierHasCandidate (config : PolicyConfig) (stats : Stats) (tier : Tier) : Bool :=
  tier.enabled && coldMinimumMet config stats &&
    match tier.type with
    | .idle => idleCandidate config stats
    | .hugeIdle => hugeIdleCandidate config stats
    | .huge =>
        !stats.blockStateAuthoritative ||
          decide ((config.minHugePages : ℤ) ≤ stats.counts.hugePages - stats.counts.hugeIdlePages)

/-- `_tier_max_pages`. -/
def tierMaxPages (config : PolicyConfig) (state : PressureState) (tier : Tier) : ℕ :=
  min (config.recompressMaxPages tier.type) (tier.maxPages state)

/-- `_recompress_spec`. -/
def recompressSpec (config : PolicyConfig) (state : PressureState) (tier : Tier) :
    Option RecompressSpec :=
  if tierMaxPages config state tier = 0 then none
  else
    some { type := tier.type
           priority := tier.priority
           thresholdBytes := tier.thresholdBytes
           maxPages := tierMaxPages config state tier }

/-! ## Writeback -/

/-- One specification of `_add_writeback`: the planned ones and the pages that remain. -/
def addSpec (maxBytes : ℕ) (planned : List Spec × ℕ) (spec : Spec) : Option (List Spec × ℕ) := do
  if spec = [] then return planned
  let pages ← pageIndexSpecPages maxBytes spec
  if planned.2 < pages then
    if planned.2 = 0 then return planned
    let truncated ← truncatePageIndexSpec maxBytes spec planned.2
    let truncatedPages ← pageIndexSpecPages maxBytes truncated
    return (planned.1 ++ [truncated], planned.2 - truncatedPages)
  return (planned.1 ++ [spec], planned.2 - pages)

/-- `_add_writeback`; the indexes of an incomplete scan are not authoritative. -/
def addWriteback (config : PolicyConfig) (stats : Stats) (kind : PageClass) (remaining : ℕ) :
    Option (List Spec × ℕ) :=
  if stats.blockStateAuthoritative then
    (stats.writebackSpecs kind).foldlM (addSpec config.specMaxBytes) ([], remaining)
  else some ([], remaining)

/-- The explicit page indexes, as far as the pass admits them. -/
def manualWriteback (config : PolicyConfig) (remaining : ℕ) : Option (List Spec × ℕ) := do
  let spec := config.maintenancePageIndexes
  if spec = [] then return ([], remaining)
  let pages ← pageIndexSpecPages config.specMaxBytes spec
  if pages ≤ remaining then return ([spec], remaining - pages)
  if remaining = 0 then return ([], remaining)
  let truncated ← truncatePageIndexSpec config.specMaxBytes spec remaining
  let truncatedPages ← pageIndexSpecPages config.specMaxBytes truncated
  return ([truncated], remaining - truncatedPages)

/-- `_writeback_possible`. -/
def writebackPossible (config : PolicyConfig) (state : PressureState) (budgetAllows : Bool) :
    Bool :=
  state != .normal && budgetAllows && config.writebackEnabled && config.coldTierWritebackEnable

/-- A class's writes if the class has candidates. -/
def classWriteback (config : PolicyConfig) (stats : Stats) (kind : PageClass) (candidate : Bool)
    (remaining : ℕ) : Option (List Spec × ℕ) :=
  if candidate then addWriteback config stats kind remaining else some ([], remaining)

/-- The writes of a plan: explicit, incompressible and huge idle ones. -/
def planWriteback (config : PolicyConfig) (state : PressureState) (stats : Stats)
    (budgetAllows : Bool) (remaining : ℕ) : Option (List Spec × List Spec × List Spec) :=
  if config.coldTierEnable && writebackPossible config state budgetAllows then do
    let cold := coldMinimumMet config stats
    let (manual, remaining) ← manualWriteback config remaining
    let (incompressible, remaining) ← classWriteback config stats .incompressible
      (cold && incompressibleCandidate config stats) remaining
    let (hugeIdle, _) ← classWriteback config stats .hugeIdle
      (state == .emergency && cold && hugeIdleCandidate config stats) remaining
    return (manual, incompressible, hugeIdle)
  else some ([], [], [])

/-- `policy_plan`. -/
def policyPlan (config : PolicyConfig) (state : PressureState) (stats : Stats)
    (budgetAllows : Bool) (budget : Option ℕ) (throttle : Bool) : Option Plan := do
  let passPages := writebackPassPagesForState config state budget throttle
  let recompress :=
    if config.coldTierEnable && config.recompressEnable then
      (config.tiers.filter (tierHasCandidate config stats)).filterMap (recompressSpec config state)
    else []
  let (manual, incompressible, hugeIdle) ← planWriteback config state stats budgetAllows passPages
  return { recompress := recompress
           manual := manual
           incompressible := incompressible
           hugeIdle := hugeIdle
           compact :=
             (!recompress.isEmpty || !(manual ++ incompressible ++ hugeIdle).isEmpty) &&
               config.compactEnable
           budgetAllows := budgetAllows
           writebackPassPages := passPages }

/-- The settings of the scan in `run_maintenance`. -/
def scanSettings (config : PolicyConfig) (state : PressureState) (uptimeSec lineLimit : ℕ) :
    ScanSettings where
  uptimeSec := uptimeSec
  hotAgeSec := config.hotAgeSec
  idleAgeSec := config.idleAgeSec state
  chunkPageLimit := config.chunkPageLimit
  maxSpecBytes := config.specMaxBytes
  maxChunks := config.chunksPerClassMax
  blockStateLineLimit := lineLimit

/-- The scan of `run_maintenance`, and the plan that it makes of it. -/
def maintenancePlan (config : PolicyConfig) (state : PressureState) (uptimeSec lineLimit : ℕ)
    (blockState : Option String) (budget : Option ℕ) (sample : Option (ℕ × ℕ)) :
    Option (Stats × Plan) := do
  let throttle := ioThrottle config sample
  let stats ← captureZramState (scanSettings config state uptimeSec lineLimit)
    (writebackClassCaps config state budget throttle) blockState
  let plan ← policyPlan config state stats (budget.all (0 < ·)) budget throttle
  return (stats, plan)

/-! ## The limits of a plan -/

theorem positiveMin_le {limit : Option ℕ} {budget : ℕ} (h : 0 < budget) :
    (positiveMin [limit, some budget]).getD 0 ≤ budget := by
  have hbudget : budget ≠ 0 := by omega
  cases limit with
  | none => simp [positiveMin, hbudget]
  | some limit =>
    by_cases hlimit : limit = 0
    · simp [positiveMin, hbudget, hlimit]
    · by_cases hlt : budget < limit
      · simp [positiveMin, hbudget, hlimit, hlt]
      · simp only [positiveMin, foldl_cons, foldl_nil, hlimit, hbudget, hlt, if_false,
          getD_some]
        omega

variable {config : PolicyConfig}

variable {state : PressureState}

/-- The limit of a pass is within its budget. -/
theorem writebackPassPages_le {budget : ℕ} {throttle : Bool} :
    writebackPassPagesForState config state (some budget) throttle ≤ budget := by
  unfold writebackPassPagesForState
  split
  · exact Nat.zero_le _
  · rename_i h
    simp only [Option.some.injEq, not_or] at h
    exact positiveMin_le (by omega)

/-- Planned writes are pages of the given ones, and they use up what is no longer left. -/
structure Takes (specs planned : List Spec) (before left : ℕ) : Prop where
  sublist : (specIndexes planned).Sublist (specIndexes specs)
  pages : (specIndexes planned).length + left = before

theorem Takes.none (specs : List Spec) (before : ℕ) : Takes specs [] before before where
  sublist := nil_sublist _
  pages := by simp [specIndexes]

theorem addSpec_takes {maxBytes before : ℕ} {specs : List Spec} {spec : Spec}
    {planned after : List Spec × ℕ} (hplanned : Takes specs planned.1 before planned.2)
    (h : addSpec maxBytes planned spec = some after) :
    Takes (specs ++ [spec]) after.1 before after.2 := by
  have hkept : Takes (specs ++ [spec]) planned.1 before planned.2 := by
    refine ⟨?_, hplanned.pages⟩
    rw [specIndexes_append]
    exact hplanned.sublist.trans (sublist_append_left _ _)
  have hone : ∀ pushed : Spec, pushed.indexes.Sublist spec.indexes →
      pushed.indexes.length ≤ planned.2 →
      Takes (specs ++ [spec]) (planned.1 ++ [pushed]) before (planned.2 - pushed.indexes.length) := by
    intro pushed hsub hlength
    constructor
    · rw [specIndexes_append, specIndexes_append]
      simpa [specIndexes] using List.Sublist.append hplanned.sublist hsub
    · have hpages := hplanned.pages
      rw [specIndexes_append, length_append]
      simp only [specIndexes, flatMap_cons, flatMap_nil, append_nil] at hpages ⊢
      omega
  unfold addSpec at h
  split at h
  · cases h
    exact hkept
  · simp only [bind_eq_bind, bind_eq_some_iff] at h
    obtain ⟨pages, hpages, h⟩ := h
    obtain ⟨hlength, -⟩ := pageIndexSpecPages_eq hpages
    split at h
    · split at h
      · cases h
        exact hkept
      · simp only [bind_eq_some_iff] at h
        obtain ⟨truncated, htruncated, truncatedPages, htruncatedPages, h⟩ := h
        cases h
        obtain ⟨hsub, hle⟩ := truncatePageIndexSpec_spec htruncated
        obtain ⟨hcount, -⟩ := pageIndexSpecPages_eq htruncatedPages
        rw [← hcount]
        exact hone truncated hsub hle
    · cases h
      rw [← hlength]
      exact hone spec (List.Sublist.refl _) (by omega)

theorem addSpecs_takes {maxBytes before : ℕ} {done specs : List Spec}
    {planned after : List Spec × ℕ} (hplanned : Takes done planned.1 before planned.2)
    (h : specs.foldlM (addSpec maxBytes) planned = some after) :
    Takes (done ++ specs) after.1 before after.2 := by
  induction specs generalizing done planned with
  | nil =>
    cases h
    simpa using hplanned
  | cons spec specs ih =>
    rw [foldlM_cons, bind_eq_bind, bind_eq_some_iff] at h
    obtain ⟨between, hstep, hrest⟩ := h
    have hrest := ih (addSpec_takes hplanned hstep) hrest
    simpa using hrest

variable {kind : PageClass}

variable {remaining : ℕ}

/-- A class's writes are pages of its specifications, and there are none without a
complete scan. -/
theorem classWriteback_takes {stats : Stats} {candidate : Bool} {left : ℕ} {planned : List Spec}
    (h : classWriteback config stats kind candidate remaining = some (planned, left)) :
    Takes (stats.writebackSpecs kind) planned remaining left ∧
      (stats.blockStateAuthoritative = false → planned = []) := by
  unfold classWriteback addWriteback at h
  split at h
  · split at h
    · rename_i hauthoritative
      have htakes := addSpecs_takes (Takes.none [] remaining) h
      exact ⟨by simpa using htakes, fun hnot => by simp [hauthoritative] at hnot⟩
    · cases h
      exact ⟨Takes.none _ _, fun _ => rfl⟩
  · cases h
    exact ⟨Takes.none _ _, fun _ => rfl⟩

theorem manualWriteback_pages {left : ℕ} {planned : List Spec}
    (h : manualWriteback config remaining = some (planned, left)) :
    (specIndexes planned).length + left = remaining := by
  unfold manualWriteback at h
  simp only at h
  split at h
  · cases h
    simp [specIndexes]
  · simp only [bind_eq_bind, bind_eq_some_iff] at h
    obtain ⟨pages, hpages, h⟩ := h
    obtain ⟨hlength, -⟩ := pageIndexSpecPages_eq hpages
    split at h
    · cases h
      simp only [specIndexes, flatMap_cons, flatMap_nil, append_nil]
      omega
    · split at h
      · cases h
        simp [specIndexes]
      · simp only [bind_eq_some_iff] at h
        obtain ⟨truncated, htruncated, truncatedPages, htruncatedPages, h⟩ := h
        cases h
        obtain ⟨-, hle⟩ := truncatePageIndexSpec_spec htruncated
        obtain ⟨hcount, -⟩ := pageIndexSpecPages_eq htruncatedPages
        simp only [specIndexes, flatMap_cons, flatMap_nil, append_nil]
        omega

/-- The writes of a plan, by their parts. -/
theorem planWriteback_spec {stats : Stats} {budgetAllows : Bool}
    {manual incompressible hugeIdle : List Spec}
    (h : planWriteback config state stats budgetAllows remaining =
      some (manual, incompressible, hugeIdle)) :
    (specIndexes incompressible).Sublist (specIndexes (stats.writebackSpecs .incompressible)) ∧
      (specIndexes hugeIdle).Sublist (specIndexes (stats.writebackSpecs .hugeIdle)) ∧
      (specIndexes (manual ++ (incompressible ++ hugeIdle))).length ≤ remaining ∧
      ((stats.blockStateAuthoritative = false ∨ state = .normal ∨ budgetAllows = false) →
        incompressible = [] ∧ hugeIdle = []) := by
  unfold planWriteback at h
  split at h
  · rename_i hpossible
    simp only [bind_eq_bind, bind_eq_some_iff] at h
    obtain ⟨⟨first, afterManual⟩, hmanual, ⟨second, afterSecond⟩, hsecond, ⟨third, left⟩, hthird,
      h⟩ := h
    obtain ⟨rfl, hrest⟩ := Prod.mk.inj (Option.some.inj h)
    obtain ⟨rfl, rfl⟩ := Prod.mk.inj hrest
    have hpages := manualWriteback_pages hmanual
    obtain ⟨hincompressible, hincompressibleEmpty⟩ := classWriteback_takes hsecond
    obtain ⟨hhugeIdle, hhugeIdleEmpty⟩ := classWriteback_takes hthird
    refine ⟨hincompressible.sublist, hhugeIdle.sublist, ?_, ?_⟩
    · have hincompressible := hincompressible.pages
      have hhugeIdle := hhugeIdle.pages
      rw [specIndexes_append, specIndexes_append, length_append, length_append]
      simp only at hincompressible hhugeIdle ⊢
      omega
    · rintro (hincomplete | hnormal | hbudget)
      · exact ⟨hincompressibleEmpty hincomplete, hhugeIdleEmpty hincomplete⟩
      · simp [hnormal, writebackPossible] at hpossible
      · simp [hbudget, writebackPossible] at hpossible
  · obtain ⟨rfl, hrest⟩ := Prod.mk.inj (Option.some.inj h)
    obtain ⟨rfl, rfl⟩ := Prod.mk.inj hrest
    exact ⟨nil_sublist _, nil_sublist _, Nat.zero_le _, fun _ => ⟨rfl, rfl⟩⟩

/-! ## Safety of the computed writes -/

/-- A page that may be written back for its class. -/
structure Writable (settings : ScanSettings) (kind : PageClass) (page : PageState) : Prop where
  notSame : page.isSame = false
  notWritten : page.isWritten = false
  /-- Not hot, unless the idle age is 0. -/
  notHot : settings.idleAgeSec = 0 ∨ page.isHot settings = false
  /-- Cold or idle enough. -/
  aged :
    match kind with
    | .incompressible =>
        page.isIncompressible = true ∧ (page.isCold settings = true ∨ page.isIdle = true)
    | .hugeIdle =>
        page.isIncompressible = false ∧ page.isHuge = true ∧ page.isIdle = true ∧
          (settings.idleAgeSec = 0 ∨ page.isCold settings = true)
    | .idle =>
        page.isIdle = true ∧ (settings.idleAgeSec = 0 ∨ page.isCold settings = true)

variable {settings : ScanSettings}

theorem writable_of_selects {page : PageState}
    (h : page.selects settings kind = true) : Writable settings kind page := by
  cases kind with
  | idle | hugeIdle | incompressible =>
    simp only [PageState.selects, PageState.writebackWorthy, PageState.ageSafe, PageState.notHot,
      Bool.and_eq_true, Bool.or_eq_true, Bool.not_eq_true', beq_iff_eq] at h
    constructor <;> grind

/-- What is promised about a plan's computed writes. -/
structure PlanSafe (config : PolicyConfig) (state : PressureState) (settings : ScanSettings)
    (blockState : Option String) (budget : Option ℕ) (stats : Stats) (plan : Plan) : Prop where
  incompressible : ∀ index ∈ specIndexes plan.incompressible, ∃ content page,
    blockState = some content ∧ page ∈ blockPages content ∧ page.index = index ∧
      Writable settings .incompressible page
  hugeIdle : ∀ index ∈ specIndexes plan.hugeIdle, ∃ content page,
    blockState = some content ∧ page ∈ blockPages content ∧ page.index = index ∧
      Writable settings .hugeIdle page
  /-- No page is written twice. -/
  once : (specIndexes plan.automatic).Nodup
  cap : (specIndexes plan.incompressible).length ≤ config.incompressibleMaxPages
  limit : (specIndexes plan.writeback).length ≤ plan.writebackPassPages
  withinBudget : ∀ pages, budget = some pages → (specIndexes plan.writeback).length ≤ pages
  /-- Without pressure, budget or a complete scan nothing is computed. -/
  empty : state = .normal ∨ budget = some 0 ∨ stats.blockStateAuthoritative = false →
    plan.automatic = []

variable {pages : List PageState}

theorem mem_classIndexes {index : ℕ} (h : index ∈ classIndexes settings kind pages) :
    ∃ page ∈ pages, page.index = index ∧ Writable settings kind page := by
  obtain ⟨page, hpage, rfl⟩ := mem_map.mp h
  obtain ⟨hmem, hselects⟩ := mem_filter.mp hpage
  exact ⟨page, hmem, rfl, writable_of_selects hselects⟩

theorem nodup_classIndexes
    (h : (pages.map PageState.index).Nodup) : (classIndexes settings kind pages).Nodup :=
  h.sublist (filter_sublist.map _)

/-- Pages of the two classes differ, since only one has incompressible pages. -/
theorem disjoint_classIndexes (h : (pages.map PageState.index).Nodup) :
    (classIndexes settings .incompressible pages).Disjoint (classIndexes settings .hugeIdle pages) := by
  intro index hleft hright
  obtain ⟨left, hleftMem, hleftIndex, hleftWritable⟩ := mem_classIndexes hleft
  obtain ⟨right, hrightMem, hrightIndex, hrightWritable⟩ := mem_classIndexes hright
  have hsame : left = right :=
    inj_on_of_nodup_map h hleftMem hrightMem (hleftIndex.trans hrightIndex.symm)
  subst hsame
  have hincompressible := hleftWritable.aged.1
  rw [hrightWritable.aged.1] at hincompressible
  cases hincompressible

theorem classCaps_incompressible_le {budget : Option ℕ} {throttle : Bool} :
    writebackClassCaps config state budget throttle .incompressible ≤
      config.incompressibleMaxPages := by
  unfold writebackClassCaps
  split
  · exact Nat.zero_le _
  · exact Nat.min_le_left _ _

/-- Every plan of a pass is safe, for every content of the block state that describes
each page once. -/
theorem automatic_plan_safe (config : PolicyConfig) (state : PressureState)
    (uptimeSec lineLimit : ℕ) (blockState : Option String) (budget : Option ℕ)
    (sample : Option (ℕ × ℕ)) (stats : Stats) (plan : Plan)
    (hdistinct : ∀ content, blockState = some content →
      ((blockPages content).map PageState.index).Nodup)
    (hplan : maintenancePlan config state uptimeSec lineLimit blockState budget sample =
      some (stats, plan)) :
    PlanSafe config state (scanSettings config state uptimeSec lineLimit) blockState budget stats
      plan := by
  simp only [maintenancePlan, policyPlan, Option.bind_eq_bind, Option.bind_eq_some_iff] at hplan
  obtain ⟨captured, hcapture, made, ⟨⟨manual, incompressible, hugeIdle⟩, hwriteback, hmade⟩, hplan⟩ :=
    hplan
  obtain ⟨rfl, rfl⟩ := Prod.mk.inj (Option.some.inj hplan)
  obtain rfl := Option.some.inj hmade
  obtain ⟨hincompressible, hhugeIdle, hlimit, hempty⟩ := planWriteback_spec hwriteback
  have hcomputed : captured.blockStateAuthoritative = true → ∃ content,
      blockState = some content ∧
      (specIndexes incompressible).Sublist (classIndexes
        (scanSettings config state uptimeSec lineLimit) .incompressible (blockPages content)) ∧
      (specIndexes hugeIdle).Sublist (classIndexes
        (scanSettings config state uptimeSec lineLimit) .hugeIdle (blockPages content)) ∧
      (specIndexes incompressible).length ≤ config.incompressibleMaxPages := by
    intro hauthoritative
    obtain ⟨content, hcontent, hclasses⟩ := captureZramState_spec hcapture hauthoritative
    obtain ⟨hfirst, hcap⟩ := hclasses .incompressible
    obtain ⟨hsecond, -⟩ := hclasses .hugeIdle
    refine ⟨content, hcontent, hincompressible.trans hfirst, hhugeIdle.trans hsecond, ?_⟩
    exact (hincompressible.length_le.trans hcap).trans classCaps_incompressible_le
  have hnone : captured.blockStateAuthoritative = false → incompressible = [] ∧ hugeIdle = [] :=
    fun hincomplete => hempty (Or.inl hincomplete)
  have hallows : budget = some 0 → Option.all (fun pages => decide (0 < pages)) budget = false := by
    rintro rfl
    rfl
  constructor
  · intro index hindex
    cases hauthoritative : captured.blockStateAuthoritative with
    | false =>
      rw [(hnone hauthoritative).1] at hindex
      cases hindex
    | true =>
      obtain ⟨content, hcontent, hfirst, -, -⟩ := hcomputed hauthoritative
      obtain ⟨page, hmem, hpage⟩ := mem_classIndexes (hfirst.subset hindex)
      exact ⟨content, page, hcontent, hmem, hpage⟩
  · intro index hindex
    cases hauthoritative : captured.blockStateAuthoritative with
    | false =>
      rw [(hnone hauthoritative).2] at hindex
      cases hindex
    | true =>
      obtain ⟨content, hcontent, -, hsecond, -⟩ := hcomputed hauthoritative
      obtain ⟨page, hmem, hpage⟩ := mem_classIndexes (hsecond.subset hindex)
      exact ⟨content, page, hcontent, hmem, hpage⟩
  · show (specIndexes (incompressible ++ hugeIdle)).Nodup
    rw [specIndexes_append]
    cases hauthoritative : captured.blockStateAuthoritative with
    | false =>
      obtain ⟨rfl, rfl⟩ := hnone hauthoritative
      exact List.nodup_nil
    | true =>
      obtain ⟨content, hcontent, hfirst, hsecond, -⟩ := hcomputed hauthoritative
      have hpages := hdistinct content hcontent
      refine List.Nodup.append ((nodup_classIndexes hpages).sublist hfirst)
        ((nodup_classIndexes hpages).sublist hsecond) ?_
      intro index hleft hright
      exact disjoint_classIndexes hpages (hfirst.subset hleft) (hsecond.subset hright)
  · cases hauthoritative : captured.blockStateAuthoritative with
    | false =>
      show (specIndexes incompressible).length ≤ _
      rw [(hnone hauthoritative).1]
      exact Nat.zero_le _
    | true =>
      obtain ⟨_, _, _, _, hcap⟩ := hcomputed hauthoritative
      exact hcap
  · exact hlimit
  · rintro pages rfl
    exact hlimit.trans writebackPassPages_le
  · intro hreason
    have hparts : incompressible = [] ∧ hugeIdle = [] := by
      rcases hreason with hnormal | hbudget | hincomplete
      · exact hempty (Or.inr (Or.inl hnormal))
      · exact hempty (Or.inr (Or.inr (hallows hbudget)))
      · exact hnone hincomplete
    show incompressible ++ hugeIdle = []
    rw [hparts.1, hparts.2]
    rfl

/-! ## Concrete passes -/

/-- A configuration with small limits. -/
def smallConfig : PolicyConfig where
  coldTierEnable := true
  recompressEnable := false
  writebackEnabled := true
  coldTierWritebackEnable := true
  compactEnable := true
  tiers := []
  recompressMaxPages _ := 0
  minColdPages := 1
  minIdlePages := 1
  minHugeIdlePages := 1
  minHugePages := 1
  minIncompressiblePages := 1
  incompressibleMaxPages := 8
  writebackMaxPages _ := 3
  ioPsiEnable := false
  ioPsiSomeThreshold := 0
  ioPsiFullThreshold := 0
  ioPsiMaxPages _ := 1
  idleAgeSec _ := 60
  hotAgeSec := 30
  chunkPageLimit := 4
  specMaxBytes := 100
  chunksPerClassMax := 2
  maintenancePageIndexes := []

/-- Two incompressible pages, a hot one and two huge idle ones. -/
def distinctPages : String := "1 10.5 n\n2 10.5 n\n3 190.0 n\n4 10.0 hi\n5 10.0 hi\n"

/-- A file which describes one page twice. -/
def repeatedPage : String := "7 10.0 n\n7 10.0 n\n"

/-- A page that the file describes twice is planned twice. -/
theorem repeated_page_written_twice :
    ∃ stats plan,
      maintenancePlan smallConfig .emergency 200 100 (some repeatedPage) (some 3) none =
        some (stats, plan) ∧
      ¬(specIndexes plan.automatic).Nodup := by
  have hpages : (maintenancePlan smallConfig .emergency 200 100 (some repeatedPage) (some 3)
      none).map (fun result => specIndexes result.2.automatic) = some [7, 7] := by
    decide
  obtain ⟨⟨stats, plan⟩, hplan, hindexes⟩ := Option.map_eq_some_iff.mp hpages
  refine ⟨stats, plan, hplan, ?_⟩
  rw [hindexes]
  decide

/-- The pages of a complete scan, cut at the limit of the pass. -/
theorem distinct_pages_safe :
    ∃ stats plan,
      maintenancePlan smallConfig .emergency 200 100 (some distinctPages) (some 3) none =
        some (stats, plan) ∧
      specIndexes plan.automatic = [1, 2, 4] ∧
      PlanSafe smallConfig .emergency (scanSettings smallConfig .emergency 200 100)
        (some distinctPages) (some 3) stats plan := by
  have hpages : (maintenancePlan smallConfig .emergency 200 100 (some distinctPages) (some 3)
      none).map (fun result => specIndexes result.2.automatic) = some [1, 2, 4] := by
    decide
  obtain ⟨⟨stats, plan⟩, hplan, hindexes⟩ := Option.map_eq_some_iff.mp hpages
  refine ⟨stats, plan, hplan, hindexes, automatic_plan_safe _ _ _ _ _ _ _ _ _ ?_ hplan⟩
  intro content hcontent
  cases hcontent
  decide

end Preseed.Zram
