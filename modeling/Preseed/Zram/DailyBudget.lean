import Preseed.Effects.Safety
import Preseed.Zram.ConfigValues

/-!
# The daily writeback budget

`refresh_daily_writeback_budget` of `Zram::Budget` raises the kernel's writeback limit to the
daily budget and then records the date of the day. The process may die at any operation, and
later processes refresh again on the same day.
-/

namespace Preseed.Zram

open Effects

/-! ## The refresh -/

/-- The values of the state file: the keys that a refresh sets, and the other ones. -/
structure BudgetState where
  dailyBudgetDate : Option String
  dailyBudgetPages : Option ℕ
  others : List (String × String)
  deriving DecidableEq

/-- The configuration which a refresh reads. -/
structure BudgetConfig where
  writebackEnabled : Bool
  writebackLimitEnable : Bool
  dailyWritebackLimitBytes : ℕ
  dryRun : Bool

/-- The operations of a refresh. -/
inductive BudgetOp
  /-- `_read_state` -/
  | readState
  /-- `write_attr_optional` of `writeback_limit` -/
  | writeLimit (pages : ℕ)
  /-- `write_attr_optional` of `writeback_limit_enable` -/
  | writeEnable
  /-- `_write_state`; it returns or is fatal. -/
  | writeState (state : BudgetState)

/-- The answers: what was read, or whether a write succeeded. -/
@[reducible] def BudgetOp.Res : BudgetOp → Type
  | .readState => BudgetState
  | .writeLimit _ | .writeEnable | .writeState _ => Bool

@[reducible] def budgetInterface : Interface := ⟨BudgetOp, BudgetOp.Res⟩

/-- `fatal` ends the process. -/
structure Fatal where

/-- Issue an operation of a refresh. -/
def performBudget (op : BudgetOp) : Act budgetInterface Unit Fatal op.Res :=
  Act.perform (ι := budgetInterface) op

/-- `refresh_daily_writeback_budget`, on the date of `_today_utc`. -/
def refreshDailyWritebackBudget (config : BudgetConfig) (today : String) :
    Act budgetInterface Unit Fatal Bool :=
  if !config.writebackEnabled then pure false
  else if !config.writebackLimitEnable then pure false
  else if config.dailyWritebackLimitBytes = 0 then pure false
  else do
    let state ← performBudget .readState
    if state.dailyBudgetDate = some today then return false
    let pages := bytesToWritebackPages config.dailyWritebackLimitBytes
    if pages = 0 then return false
    -- A dry run does not publish a date that would suppress the real reset.
    if config.dryRun then return false
    let limitWritten ← performBudget (.writeLimit pages)
    let enableWritten ← performBudget .writeEnable
    if !limitWritten || !enableWritten then return false
    let saved ← performBudget (.writeState
      { state with dailyBudgetDate := some today, dailyBudgetPages := some pages })
    if saved then return true else Act.raise ⟨⟩

/-! ## The days -/

/-- The kernel's attributes and the state file, with the number of times that the limit was
raised to the daily budget. -/
structure BudgetWorld where
  limit : ℕ
  limitEnabled : Bool
  file : BudgetState
  grants : ℕ

/-- The date is recorded. -/
def BudgetWorld.recorded (world : BudgetWorld) (today : String) : Bool :=
  world.file.dailyBudgetDate = some today

/-- How the operations are answered. A write of an attribute may fail, and a fatal write of
the state file has replaced it or not. -/
def budgetEnvironment : Environment budgetInterface Unit BudgetWorld :=
  fun world _ op =>
    match op with
    | .readState => fun state world' => state = world.file ∧ world' = world
    | .writeLimit pages => fun written world' =>
      world' = if written then { world with limit := pages, grants := world.grants + 1 } else world
    | .writeEnable => fun written world' =>
      world' = if written then { world with limitEnabled := true } else world
    | .writeState state => fun saved world' =>
      world' = { world with file := state } ∨ saved = false ∧ world' = world

/-- A day from a first state on: refreshes of any processes, each run for as long as its
process lives, and pages that the kernel writes back. The number counts the refreshes which
raised the limit and did not record the date. -/
inductive Day (today : String) (first : BudgetWorld) : BudgetWorld → ℕ → Prop
  | start : Day today first first 0
  | writeback {world : BudgetWorld} {unrecorded : ℕ} (pages : ℕ)
      (before : Day today first world unrecorded) :
      Day today first { world with limit := world.limit - pages } unrecorded
  | refresh {world world' : BudgetWorld} {unrecorded : ℕ} (config : BudgetConfig)
      {rest : Program budgetInterface Unit (Except Fatal Bool × Unit)}
      (before : Day today first world unrecorded)
      (run : Program.Steps budgetEnvironment world
        (refreshDailyWritebackBudget config today ()) world' rest) :
      Day today first world'
        (if world.grants < world'.grants ∧ world'.recorded today = false then unrecorded + 1
        else unrecorded)

/-! ## One refresh -/

/-- What a refresh has done, wherever it stops: nothing, or it has raised the limit once on a
day that was not recorded. -/
structure Refreshed (today : String) (world world' : BudgetWorld) : Prop where
  once : world'.grants ≤ world.grants + 1
  still : world.recorded today = true → world'.recorded today = true ∧
    world'.grants = world.grants
  recorded : world.recorded today = false → world'.recorded today = true →
    world'.grants = world.grants + 1
  grants_le : world.grants ≤ world'.grants

theorem Refreshed.refl (today : String) (world : BudgetWorld) : Refreshed today world world where
  once := Nat.le_succ _
  still h := ⟨h, rfl⟩
  recorded h h' := absurd h' (by simp [h])
  grants_le := Nat.le_refl _

variable {world world' : BudgetWorld} {today : String}

theorem Refreshed.of_eq {world'' : BudgetWorld} (h : Refreshed today world world')
    (hfile : world''.file = world'.file)
    (hgrants : world''.grants = world'.grants) : Refreshed today world world'' := by
  have hrecorded : world''.recorded today = world'.recorded today := by
    rw [BudgetWorld.recorded, BudgetWorld.recorded, hfile]
  constructor
  · rw [hgrants]
    exact h.once
  · rw [hgrants, hrecorded]
    exact h.still
  · rw [hgrants, hrecorded]
    exact h.recorded
  · rw [hgrants]
    exact h.grants_le

/-- The limit was raised or its write has failed. -/
theorem Refreshed.limit {pages : ℕ} {written : Bool} (hnot : world.recorded today = false)
    (h : world' = if written then { world with limit := pages, grants := world.grants + 1 }
      else world) : Refreshed today world world' := by
  subst h
  cases written
  · exact Refreshed.refl today world
  · have hsame : BudgetWorld.recorded
        { world with limit := pages, grants := world.grants + 1 } today = false := hnot
    constructor
    · exact Nat.le_refl _
    · intro h
      rw [hnot] at h
      cases h
    · intro _ h
      exact absurd h (by simp [hsame])
    · exact Nat.le_succ _

/-- The date is recorded after the limit was raised. -/
theorem Refreshed.record (hnot : world.recorded today = false)
    (hgrants : world'.grants = world.grants + 1) :
    Refreshed today world world' := by
  constructor
  · exact Nat.le_of_eq hgrants
  · intro h
    rw [hnot] at h
    cases h
  · intro _ _
    exact hgrants
  · rw [hgrants]
    exact Nat.le_succ _

/-- A refresh may be stopped at any operation. -/
theorem refresh_refreshed (config : BudgetConfig) (today : String) (world : BudgetWorld) :
    wp budgetEnvironment (fun world' _ _ => Refreshed today world world')
      (refreshDailyWritebackBudget config today) (fun _ _ world' => Refreshed today world world')
      () world := by
  have hrefl := Refreshed.refl today world
  unfold refreshDailyWritebackBudget
  split
  · exact hrefl
  split
  · exact hrefl
  split
  · exact hrefl
  rw [wp_bind, performBudget, wp_perform]
  refine ⟨hrefl, ?_⟩
  rintro state read ⟨hstate, hread⟩
  rw [hstate, hread, outcome_ok]
  split
  · exact hrefl
  rename_i hdate
  have hnot : world.recorded today = false := by simpa [BudgetWorld.recorded] using hdate
  dsimp only
  split
  · exact hrefl
  split
  · exact hrefl
  rw [wp_bind, performBudget, wp_perform]
  refine ⟨hrefl, ?_⟩
  intro limitWritten limited hlimited
  have hgranted := Refreshed.limit hnot hlimited
  rw [outcome_ok, wp_bind, performBudget, wp_perform]
  refine ⟨hgranted, ?_⟩
  intro enableWritten enabled henabled
  have hsame : enabled.file = limited.file ∧ enabled.grants = limited.grants := by
    rw [henabled]
    cases enableWritten <;> exact ⟨rfl, rfl⟩
  have henable := hgranted.of_eq hsame.1 hsame.2
  rw [outcome_ok]
  split
  · exact henable
  rename_i hwritten
  obtain rfl : limitWritten = true := by simp_all
  rw [wp_bind, performBudget, wp_perform]
  refine ⟨henable, ?_⟩
  intro saved last hlast
  rw [outcome_ok]
  have hdone : Refreshed today world last := by
    rcases hlast with rfl | ⟨-, rfl⟩
    · have hgrants : enabled.grants = world.grants + 1 := by
        rw [hsame.2, hlimited]
        rfl
      exact Refreshed.record hnot hgrants
    · exact henable
  cases saved <;> exact hdone

theorem Refreshed.of_steps {config : BudgetConfig}
    {rest : Program budgetInterface Unit (Except Fatal Bool × Unit)}
    (run : Program.Steps budgetEnvironment world (refreshDailyWritebackBudget config today ())
      world' rest) : Refreshed today world world' := by
  have hsafe := Program.Safe.steps (refresh_refreshed config today world) run
  cases rest with
  | done result => exact hsafe
  | call mem op next => exact hsafe.1

/-! ## A day -/

/-- On a day that is recorded nothing is granted any more. -/
theorem Day.still {first : BudgetWorld} {unrecorded : ℕ} (h : Day today first world unrecorded)
    (hfirst : first.recorded today = true) :
    world.recorded today = true ∧ world.grants = first.grants := by
  induction h with
  | start => exact ⟨hfirst, rfl⟩
  | writeback pages _ ih => exact ih
  | refresh config _ run ih =>
    obtain ⟨hrecorded, hgrants⟩ := ih
    obtain ⟨hstays, hsame⟩ := (Refreshed.of_steps run).still hrecorded
    exact ⟨hstays, hsame.trans hgrants⟩

/-- Every refresh that raised the limit is counted, or it is the one that recorded the date. -/
theorem Day.grants {first : BudgetWorld} {unrecorded : ℕ} (h : Day today first world unrecorded)
    (hfirst : first.recorded today = false) :
    world.grants = first.grants + unrecorded + (if world.recorded today then 1 else 0) := by
  induction h with
  | start => simp [hfirst]
  | writeback pages _ ih => exact ih
  | @refresh world world' unrecorded config rest _ run ih =>
    have hone := Refreshed.of_steps run
    have honce := hone.once
    have hle := hone.grants_le
    cases hbefore : world.recorded today with
    | true =>
      obtain ⟨hstays, hsame⟩ := hone.still hbefore
      rw [hbefore] at ih
      rw [hstays, if_neg (by simp)]
      omega
    | false =>
      rw [hbefore] at ih
      cases hafter : world'.recorded today with
      | true =>
        have hgranted := hone.recorded hbefore hafter
        rw [if_neg (by simp)]
        simp at ih ⊢
        omega
      | false =>
        simp only [Bool.false_eq_true, if_false, and_true] at ih ⊢
        split <;> omega

/-- Answers of a kernel that takes every write but that of `writeback_limit_enable`, or all. -/
def answerBudget (enable : Bool) (world : BudgetWorld) (_ : Unit) :
    (op : BudgetOp) → op.Res × BudgetWorld
  | .readState => (world.file, world)
  | .writeLimit pages => (true, { world with limit := pages, grants := world.grants + 1 })
  | .writeEnable => (enable, if enable then { world with limitEnabled := true } else world)
  | .writeState state => (true, { world with file := state })

theorem answerBudget_environment (enable : Bool) (world : BudgetWorld) (mem : Unit)
    (op : BudgetOp) : budgetEnvironment world mem op (answerBudget enable world mem op).1
      (answerBudget enable world mem op).2 := by
  cases op with
  | readState => exact ⟨rfl, rfl⟩
  | writeLimit pages => exact rfl
  | writeEnable => exact rfl
  | writeState state => exact Or.inl rfl

/-- A budget of 1 GiB. -/
def gibibyteBudget : BudgetConfig := ⟨true, true, 1073741824, false⟩

def freshWorld : BudgetWorld := ⟨0, false, ⟨none, none, []⟩, 0⟩

/-- A refresh whose enabling write fails, and then one that succeeds. -/
theorem retriedDay : Day "2026-11-19" freshWorld
    ⟨262144, true, ⟨some "2026-11-19", some 262144, []⟩, 2⟩ 1 :=
  .refresh gibibyteBudget
    (.refresh gibibyteBudget .start
      (Program.Steps.of_runFor (answerBudget_environment false) 4 freshWorld _))
    (Program.Steps.of_runFor (answerBudget_environment true) 4 _ _)

end Preseed.Zram
