import Mathlib.Data.List.Pairwise
import Mathlib.Tactic.Linarith

/-!
# The maintenance controller of the zram daemon

`Zram::Daemon::Controller` decides, from the pressure that the daemon observes and
from the clock, when a writeback pass is due and which tuning is in force. The loop
of `run_daemon` asks it once for each observation and tells it what has been done.
A history of the loop is a list of rounds, the latest first, and the results are
about every point and every pair of points of a history.
-/

namespace Preseed.Zram

/-- The pressure states. -/
inductive PressureState
  | normal | pressure | emergency
  deriving DecidableEq

/-- `_rank`. -/
def PressureState.rank : PressureState → ℕ
  | .emergency => 2
  | .pressure => 1
  | .normal => 0

theorem PressureState.rank_pos {state : PressureState} (h : state ≠ .normal) : 0 < state.rank := by
  cases state with
  | normal => exact absurd rfl h
  | pressure | emergency => decide

/-- The daemon's periods in seconds, as the validator admits them. -/
structure Periods where
  /-- `pressure_cooldown_seconds`. -/
  pressureCooldown : ℕ
  /-- `emergency_cooldown_seconds`. -/
  emergencyCooldown : ℕ
  /-- `recovery_hysteresis_seconds`. -/
  recoveryHysteresis : ℕ
  /-- The emergency cooldown must not exceed the pressure cooldown. -/
  ordered : emergencyCooldown ≤ pressureCooldown

/-- `_cooldown`. -/
def Periods.cooldown (periods : Periods) : PressureState → ℕ
  | .emergency => periods.emergencyCooldown
  | .pressure | .normal => periods.pressureCooldown

/-- The state of the controller. -/
structure Controller where
  /-- The state of the last pass, or normal after a recovery. -/
  lastState : PressureState
  /-- The state whose tuning is in force. -/
  lastTuningState : PressureState
  /-- When the last pass completed. -/
  lastPassAt : Option ℚ
  /-- Since when every observation has been normal. -/
  normalSince : Option ℚ

/-- A new controller. -/
def Controller.initial : Controller := ⟨.normal, .normal, none, none⟩

/-- The answer to an observation. -/
structure Decision where
  /-- The tuning to apply. -/
  tune : Option PressureState
  /-- A pass is due. -/
  run : Bool
  /-- The pressure has gone. -/
  recovered : Bool

/-- `_elapsed`. -/
def elapsed (now since : ℚ) : ℚ := if now - since > 0 then now - since else 0

namespace Controller

/-- `observe`. -/
def observe (periods : Periods) (c : Controller) (now : ℚ) (observed : PressureState) :
    Decision × Controller :=
  if observed = .normal then
    let since := c.normalSince.getD now
    let recovered := c.lastState ≠ .normal ∧ elapsed now since ≥ periods.recoveryHysteresis
    let lastState := if recovered then .normal else c.lastState
    let tune := if lastState = .normal ∧ c.lastTuningState ≠ .normal then some .normal else none
    (⟨tune, false, recovered⟩, { c with normalSince := some since, lastState := lastState })
  else
    let tune := if c.lastTuningState ≠ observed then some observed else none
    let run := match c.lastPassAt with
      | none => true
      | some last => observed.rank > c.lastState.rank || elapsed now last ≥ periods.cooldown observed
    (⟨tune, run, false⟩, { c with normalSince := none })

/-- `tuning_applied`. -/
def tuningApplied (c : Controller) (state : PressureState) : Controller :=
  { c with lastTuningState := state }

/-- `pass_completed`. -/
def passCompleted (c : Controller) (state : PressureState) (now : ℚ) : Controller :=
  { c with lastState := state, lastPassAt := some now }

end Controller

/-- A round of the loop of `run_daemon`: what is observed, and what becomes of the decision. Another
pass may hold the lock, and then nothing is tuned or run. -/
structure Round where
  /-- The clock at the observation. -/
  now : ℚ
  /-- The pressure. -/
  state : PressureState
  /-- A tuning that is asked for is applied. -/
  tuned : Bool
  /-- When a pass that is asked for completes. -/
  completed : Option ℚ

/-- The clock at the end of a round. -/
def Round.ended (r : Round) : ℚ := r.completed.getD r.now

namespace Controller

/-- The loop tells the controller of the tuning. -/
def tune (c : Controller) (decision : Decision) (r : Round) : Controller :=
  match decision.tune with
  | some state => if r.tuned then c.tuningApplied state else c
  | none => c

/-- The loop runs a pass, and tells the controller of it. -/
def pass (c : Controller) (decision : Decision) (r : Round) : Controller :=
  match r.completed with
  | some now => if decision.run then c.passCompleted r.state now else c
  | none => c

/-- A round of `run_daemon`. -/
def round (periods : Periods) (c : Controller) (r : Round) : Controller :=
  let (decision, c) := c.observe periods r.now r.state
  (c.tune decision r).pass decision r

/-- The controller after a history. -/
def after (periods : Periods) : List Round → Controller
  | [] => initial
  | r :: past => (after periods past).round periods r

end Controller

/-- When the pass of a round completes, if it has one. -/
def Controller.passes (periods : Periods) (c : Controller) (r : Round) : Option ℚ :=
  if (c.observe periods r.now r.state).1.run then r.completed else none

/-- When the pass of a round after a history completes, if it has one. -/
def passed (periods : Periods) (past : List Round) (r : Round) : Option ℚ :=
  (Controller.after periods past).passes periods r

/-- A pass is due in a round after a history. -/
def due (periods : Periods) (past : List Round) (r : Round) : Bool :=
  ((Controller.after periods past).observe periods r.now r.state).1.run

/-- The clock never goes back. -/
def Clocked (history : List Round) : Prop :=
  history.Pairwise (fun later earlier => earlier.ended ≤ later.now) ∧
    ∀ r ∈ history, r.now ≤ r.ended

/-- Since when every observation has been normal, up to the end of a history. -/
def quietSince : List Round → Option ℚ
  | [] => none
  | r :: past => if r.state = .normal then some ((quietSince past).getD r.now) else none

/-- Some uninterrupted period of normal observations has lasted for the hysteresis. -/
def Recovers (periods : Periods) : List Round → Prop
  | [] => False
  | r :: past => Recovers periods past ∨
      ∃ since, quietSince (r :: past) = some since ∧ periods.recoveryHysteresis ≤ r.now - since

/-! ### What a round does -/

namespace Controller

variable {periods : Periods} {c : Controller} {r : Round}

theorem observe_run (now : ℚ) (state : PressureState) : (c.observe periods now state).1.run = true ↔
    state ≠ .normal ∧ ∀ last, c.lastPassAt = some last →
      c.lastState.rank < state.rank ∨ periods.cooldown state ≤ elapsed now last := by
  unfold observe
  by_cases hnormal : state = .normal
  · simp [hnormal]
  · cases hlast : c.lastPassAt <;> simp [hnormal]

theorem passes_eq_some {t : ℚ} : c.passes periods r = some t ↔
    (c.observe periods r.now r.state).1.run = true ∧ r.completed = some t := by
  simp [passes]

/-- Passes are for a pressure only. -/
theorem not_normal_of_passes {t : ℚ} (h : c.passes periods r = some t) : r.state ≠ .normal :=
  ((observe_run r.now r.state).mp (passes_eq_some.mp h).1).1

theorem tune_lastPassAt (decision : Decision) : (c.tune decision r).lastPassAt = c.lastPassAt := by
  unfold tune
  split
  · split <;> rfl
  · rfl

theorem tune_lastState (decision : Decision) : (c.tune decision r).lastState = c.lastState := by
  unfold tune
  split
  · split <;> rfl
  · rfl

theorem tune_normalSince (decision : Decision) :
    (c.tune decision r).normalSince = c.normalSince := by
  unfold tune
  split
  · split <;> rfl
  · rfl

theorem round_normalSince : (c.round periods r).normalSince =
    if r.state = .normal then some (c.normalSince.getD r.now) else none := by
  have hobserved : (c.observe periods r.now r.state).2.normalSince =
      if r.state = .normal then some (c.normalSince.getD r.now) else none := by
    unfold observe
    split <;> rfl
  rw [← hobserved]
  unfold round pass
  cases r.completed with
  | none => simp [tune_normalSince]
  | some t =>
    cases hrun : (c.observe periods r.now r.state).1.run <;>
      simp [hrun, tune_normalSince, passCompleted]

theorem round_lastPassAt : (c.round periods r).lastPassAt =
    (c.passes periods r).or c.lastPassAt := by
  have hobserved : (c.observe periods r.now r.state).2.lastPassAt = c.lastPassAt := by
    unfold observe
    split <;> rfl
  unfold round pass passes
  cases r.completed with
  | none => simp [tune_lastPassAt, hobserved]
  | some t =>
    cases hrun : (c.observe periods r.now r.state).1.run <;>
      simp [hrun, tune_lastPassAt, hobserved, passCompleted]

/-- The tuning in force is the one that was asked for, if it has been applied. -/
theorem round_lastTuningState : (c.round periods r).lastTuningState =
    if r.tuned then ((c.observe periods r.now r.state).1.tune).getD c.lastTuningState
    else c.lastTuningState := by
  have hobserved : (c.observe periods r.now r.state).2.lastTuningState = c.lastTuningState := by
    unfold observe
    split <;> rfl
  have hpass : ∀ decision (c : Controller), (c.pass decision r).lastTuningState =
      c.lastTuningState := by
    intro decision c
    unfold pass
    split
    · split <;> rfl
    · rfl
  unfold round
  rw [hpass]
  unfold tune
  cases (c.observe periods r.now r.state).1.tune with
  | none => simp [hobserved]
  | some state => cases r.tuned <;> simp [hobserved, tuningApplied]

/-- The last state is that of a pass of this round, or normal after a recovery. -/
theorem round_lastState : (c.round periods r).lastState =
    if (c.passes periods r).isSome then r.state
    else if r.state = .normal ∧
        periods.recoveryHysteresis ≤ elapsed r.now (c.normalSince.getD r.now) then .normal
    else c.lastState := by
  have hobserved : (c.observe periods r.now r.state).2.lastState =
      if r.state = .normal ∧
        periods.recoveryHysteresis ≤ elapsed r.now (c.normalSince.getD r.now) then .normal
      else c.lastState := by
    unfold observe
    by_cases hnormal : r.state = .normal
    · by_cases hlast : c.lastState = .normal <;> simp [hnormal, hlast]
    · simp [hnormal]
  rw [← hobserved]
  unfold round pass passes
  cases r.completed with
  | none => simp [tune_lastState]
  | some t =>
    cases hrun : (c.observe periods r.now r.state).1.run <;>
      simp [hrun, tune_lastState, passCompleted]

/-- The tuning returns to normal on a normal observation, and only when the last state is normal. -/
theorem round_tunes_normal (htuned : c.lastTuningState ≠ .normal)
    (hreturns : (c.round periods r).lastTuningState = .normal) :
    r.state = .normal ∧ (c.round periods r).lastState = .normal := by
  rw [round_lastTuningState] at hreturns
  by_cases htuning : r.tuned = true
  · rw [if_pos htuning] at hreturns
    by_cases hnormal : r.state = .normal
    · refine ⟨hnormal, ?_⟩
      have hpasses : c.passes periods r = none :=
        Option.eq_none_iff_forall_ne_some.mpr fun t ht => not_normal_of_passes ht hnormal
      rw [round_lastState, hpasses]
      by_contra hlast
      have htune : (c.observe periods r.now r.state).1.tune = none := by
        unfold observe
        by_cases hbefore : c.lastState = .normal <;> simp_all
      rw [htune] at hreturns
      exact htuned hreturns
    · -- A pressure is only ever tuned for.
      unfold observe at hreturns
      by_cases hsame : c.lastTuningState = r.state <;> simp_all
  · rw [if_neg htuning] at hreturns
    exact absurd hreturns htuned

end Controller

/-! ### What the controller knows of a history -/

section History

variable {periods : Periods} {past later before : List Round} {r pass : Round}

/-- The last pass of a history, and what comes after it. -/
def lastPass (periods : Periods) : List Round → Option (PressureState × ℚ) × List Round
  | [] => (none, [])
  | r :: past =>
    match passed periods past r with
    | some t => (some (r.state, t), [])
    | none => ((lastPass periods past).1, r :: (lastPass periods past).2)

theorem Clocked.tail (h : Clocked (r :: past)) : Clocked past :=
  ⟨h.1.of_cons, fun other hin => h.2 other (List.mem_cons_of_mem _ hin)⟩

/-- Every round of a history has ended before the next one. -/
theorem Clocked.ended_le (h : Clocked (r :: past)) {earlier : Round} (hin : earlier ∈ past) :
    earlier.ended ≤ r.now :=
  (List.pairwise_cons.mp h.1).1 earlier hin

/-- A quiet period has begun in the history. -/
theorem quietSince_le (h : Clocked (r :: past)) {since : ℚ}
    (hquiet : quietSince past = some since) : since ≤ r.now := by
  induction past generalizing r since with
  | nil => cases hquiet
  | cons earlier past ih =>
    have hended : earlier.ended ≤ r.now := h.ended_le (by simp)
    have hbegun : earlier.now ≤ earlier.ended := h.tail.2 earlier (by simp)
    simp only [quietSince, Option.ite_none_right_eq_some, Option.some.injEq] at hquiet
    obtain ⟨-, rfl⟩ := hquiet
    cases hbefore : quietSince past with
    | none => exact hbegun.trans hended
    | some since => exact ((ih h.tail hbefore).trans hbegun).trans hended

theorem elapsed_eq {now since : ℚ} (h : since ≤ now) : elapsed now since = now - since := by
  unfold elapsed
  split
  · rfl
  · linarith

/-- What the controller knows of a history. -/
structure Known (periods : Periods) (c : Controller) (history : List Round) : Prop where
  /-- The beginning of the quiet period. -/
  normalSince : c.normalSince = quietSince history
  /-- The quiet period is after the last pass. -/
  quiet : quietSince (lastPass periods history).2 = quietSince history
  /-- The time of the last pass. -/
  lastPassAt : c.lastPassAt = (lastPass periods history).1.map Prod.snd
  /-- Before the first pass the last state is normal. -/
  unpassed : (lastPass periods history).1 = none → c.lastState = .normal
  /-- After a pass the last state is its state, until there is a recovery. -/
  passed : ∀ state t, (lastPass periods history).1 = some (state, t) → state ≠ .normal ∧
    (Recovers periods (lastPass periods history).2 → c.lastState = .normal) ∧
    (¬Recovers periods (lastPass periods history).2 → c.lastState = state)

/-- The controller knows its history. -/
theorem known_after (periods : Periods) (h : Clocked past) : Known periods (Controller.after periods past) past := by
  induction past with
  | nil => exact ⟨rfl, rfl, rfl, fun _ => rfl, fun _ _ hlast => by cases hlast⟩
  | cons r past ih =>
    have hknown := ih h.tail
    have hround : Controller.after periods (r :: past) =
      (Controller.after periods past).round periods r := rfl
    cases hpassed : passed periods past r with
    | some t =>
      have hpasses : (Controller.after periods past).passes periods r = some t := hpassed
      have hpressure := Controller.not_normal_of_passes hpasses
      have hlast : lastPass periods (r :: past) = (some (r.state, t), []) := by
        simp [lastPass, hpassed]
      refine ⟨?_, ?_, ?_, ?_, ?_⟩
      · rw [hround, Controller.round_normalSince]
        simp [quietSince, hpressure]
      · simp [hlast, quietSince, hpressure]
      · rw [hround, Controller.round_lastPassAt, hpasses, hlast]
        rfl
      · rw [hlast]
        nofun
      · rw [hlast, hround, Controller.round_lastState, hpasses]
        rintro state t' heq
        cases heq
        exact ⟨hpressure, nofun, fun _ => rfl⟩
    | none =>
      have hpasses : (Controller.after periods past).passes periods r = none := hpassed
      have hlast : lastPass periods (r :: past) =
          ((lastPass periods past).1, r :: (lastPass periods past).2) := by
        simp [lastPass, hpassed]
      have hsince : quietSince (r :: (lastPass periods past).2) = quietSince (r :: past) := by
        simp [quietSince, hknown.quiet]
      -- The hysteresis that the controller measures is that of the quiet period.
      have hrecovers : r.state = .normal ∧ periods.recoveryHysteresis ≤
            elapsed r.now ((Controller.after periods past).normalSince.getD r.now) ↔
          ∃ since, quietSince (r :: (lastPass periods past).2) = some since ∧
            (periods.recoveryHysteresis : ℚ) ≤ r.now - since := by
        rw [hsince, hknown.normalSince]
        by_cases hnormal : r.state = .normal
        · have hle : (quietSince past).getD r.now ≤ r.now := by
            cases hquiet : quietSince past with
            | none => exact le_rfl
            | some since => exact quietSince_le h hquiet
          simp [quietSince, hnormal, elapsed_eq hle]
        · simp [quietSince, hnormal]
      refine ⟨?_, ?_, ?_, fun hnone => ?_, fun state t hsome => ?_⟩
      · rw [hround, Controller.round_normalSince, hknown.normalSince]
        rfl
      · rw [hlast]
        exact hsince
      · rw [hround, Controller.round_lastPassAt, hpasses, hlast]
        exact hknown.lastPassAt
      · rw [hlast] at hnone
        rw [hround, Controller.round_lastState, hpasses, hknown.unpassed hnone]
        simp
      · rw [hlast] at hsome ⊢
        obtain ⟨hpressure, hnormal, hstate⟩ := hknown.passed state t hsome
        rw [hround, Controller.round_lastState, hpasses]
        refine ⟨hpressure, fun hrec => ?_, fun hnot => ?_⟩
        · rcases hrec with hrec | hrec
          · simp [hnormal hrec]
          · simp [hrecovers.mpr hrec]
        · have hbefore : ¬Recovers periods (lastPass periods past).2 := fun hrec => hnot (.inl hrec)
          rw [if_neg (by simp), if_neg fun hrec => hnot (.inr (hrecovers.mp hrec))]
          exact hstate hbefore

/-! ### Passes and recoveries -/

variable {state : PressureState} {t : ℚ}

/-- The last pass is a round of the history. -/
theorem lastPass_split (h : (lastPass periods past).1 = some (state, t)) : ∃ r before,
      past = (lastPass periods past).2 ++ r :: before ∧ r.state = state ∧
        passed periods before r = some t := by
  induction past with
  | nil => cases h
  | cons r past ih =>
    cases hpassed : passed periods past r with
    | some t' =>
      simp only [lastPass, hpassed, Option.some.injEq, Prod.mk.injEq] at h ⊢
      exact ⟨r, past, rfl, h.1, h.2 ▸ hpassed⟩
    | none =>
      simp only [lastPass, hpassed] at h ⊢
      obtain ⟨r', before, hsplit, hstate, hpassed'⟩ := ih h
      exact ⟨r', before, congrArg (r :: ·) hsplit, hstate, hpassed'⟩

/-- The last pass has completed before the next round. -/
theorem lastPass_le (h : Clocked (r :: past))
    (hlast : (lastPass periods past).1 = some (state, t)) : t ≤ r.now := by
  obtain ⟨pass, before, hsplit, -, hpassed⟩ := lastPass_split hlast
  have hin : pass ∈ past := by
    rw [hsplit]
    simp
  have hended : pass.ended = t := by
    simp [Round.ended, (Controller.passes_eq_some.mp hpassed).2]
  exact hended ▸ h.ended_le hin

/-- A pass interrupts the quiet. -/
theorem quietSince_append (hpressure : r.state ≠ .normal) :
    quietSince (later ++ r :: before) = quietSince later := by
  induction later with
  | nil => simp [quietSince, hpressure]
  | cons other later ih => simp only [List.cons_append, quietSince, ih]

/-- After a pass there is a last pass, and a recovery since the last pass is one since the first
pass too. -/
theorem lastPass_of_passed (h : Clocked (later ++ r :: before))
    (hpassed : passed periods before r = some t) :
    (lastPass periods (later ++ r :: before)).1.isSome ∧
      (Recovers periods (lastPass periods (later ++ r :: before)).2 → Recovers periods later) := by
  have hpressure := Controller.not_normal_of_passes hpassed
  induction later with
  | nil => simp [lastPass, hpassed, Recovers]
  | cons other later ih =>
    obtain ⟨hsome, hrecovers⟩ := ih h.tail
    simp only [List.cons_append]
    cases hother : passed periods (later ++ r :: before) other with
    | some t' => simp [lastPass, hother, Recovers]
    | none =>
      simp only [lastPass, hother]
      refine ⟨hsome, fun hrec => hrec.imp hrecovers fun ⟨since, hsince, hlong⟩ => ⟨since, ?_, hlong⟩⟩
      have htail : Clocked (later ++ r :: before) := h.tail
      have hquiet := (known_after periods htail).quiet
      rw [quietSince_append hpressure] at hquiet
      simpa only [quietSince, hquiet] using hsince

/-- The controller's last state after a pass without a recovery. -/
theorem lastState_of_lastPass (h : Clocked past)
    (hlast : (lastPass periods past).1 = some (state, t))
    (hnot : ¬Recovers periods (lastPass periods past).2) :
    (Controller.after periods past).lastState = state :=
  ((known_after periods h).passed state t hlast).2.2 hnot

/-- A pass is an escalation over the last pass, or it comes after the cooldown. -/
theorem passed_after (h : Clocked (r :: past)) {t' : ℚ} (hpassed : passed periods past r = some t)
    (hlast : (lastPass periods past).1 = some (state, t'))
    (hnot : ¬Recovers periods (lastPass periods past).2) :
    r.now ≤ t ∧ (state.rank < r.state.rank ∨ periods.cooldown r.state ≤ r.now - t') := by
  have hknown := known_after periods h.tail
  obtain ⟨hrun, hcompleted⟩ := Controller.passes_eq_some.mp hpassed
  have hended : r.now ≤ t := by
    have hle := h.2 r (by simp)
    simpa [Round.ended, hcompleted] using hle
  have hlastAt : (Controller.after periods past).lastPassAt = some t' := by
    rw [hknown.lastPassAt, hlast]
    rfl
  have hdue := ((Controller.observe_run r.now r.state).mp hrun).2 t' hlastAt
  rw [lastState_of_lastPass h.tail hlast hnot, elapsed_eq (lastPass_le h hlast)] at hdue
  exact ⟨hended, hdue⟩

/-- Ranks fall between passes only after the pressure cooldown or a recovery. -/
theorem rank_lastPass (h : Clocked (later ++ r :: before))
    (hpassed : passed periods before r = some t) (hnot : ¬Recovers periods later) :
    ∃ state t', (lastPass periods (later ++ r :: before)).1 = some (state, t') ∧ t ≤ t' ∧
      (r.state.rank ≤ state.rank ∨ t + periods.pressureCooldown ≤ t') := by
  induction later with
  | nil =>
    refine ⟨r.state, t, by simp [lastPass, hpassed], le_rfl, .inl le_rfl⟩
  | cons other later ih =>
    obtain ⟨state, t', hlast, hle, hrank⟩ := ih h.tail fun hrec => hnot (.inl hrec)
    have hrecent : ¬Recovers periods (lastPass periods (later ++ r :: before)).2 := fun hrec =>
      hnot (.inl ((lastPass_of_passed h.tail hpassed).2 hrec))
    cases hother : passed periods (later ++ r :: before) other with
    | none => exact ⟨state, t', by simpa [lastPass, hother] using hlast, hle, hrank⟩
    | some t'' =>
      refine ⟨other.state, t'', by simp [lastPass, hother], ?_, ?_⟩
      all_goals
        obtain ⟨hbegun, hdue⟩ := passed_after h hother hlast hrecent
        have hbefore : t' ≤ other.now := lastPass_le h hlast
      · linarith
      · -- Only a pass for a mere pressure after one for an emergency has a lower rank.
        have hpressure := Controller.not_normal_of_passes hother
        by_cases hfall : r.state.rank ≤ other.state.rank
        · exact .inl hfall
        · refine .inr ?_
          have hlow : other.state = .pressure := by
            cases hcase : other.state <;> cases hcase' : r.state <;>
              simp_all [PressureState.rank]
          rcases hrank with hrank | hrank
          · rcases hdue with hdue | hdue
            · omega
            · rw [hlow] at hdue
              simp only [Periods.cooldown] at hdue
              linarith
          · linarith

/-- A pass that is suppressed follows one of the same rank at least. -/
theorem suppressed_within_cooldown (h : Clocked (r :: past)) (hpressure : r.state ≠ .normal)
    (hsuppressed : due periods past r = false) : ∃ later pass before t,
      past = later ++ pass :: before ∧ passed periods before pass = some t ∧
        r.state.rank ≤ pass.state.rank ∧ r.now - t < periods.cooldown r.state ∧
          ¬Recovers periods later := by
  have hknown := known_after periods h.tail
  have hrun : ¬((Controller.after periods past).observe periods r.now r.state).1.run = true := by
    rw [show ((Controller.after periods past).observe periods r.now r.state).1.run = false
      from hsuppressed]
    nofun
  rw [Controller.observe_run] at hrun
  push Not at hrun
  obtain ⟨t, hlastAt, hrank, hsoon⟩ := hrun hpressure
  rw [hknown.lastPassAt] at hlastAt
  obtain ⟨⟨state, t'⟩, hlast, rfl⟩ := Option.map_eq_some_iff.mp hlastAt
  obtain ⟨pass, before, hsplit, rfl, hpassed⟩ := lastPass_split hlast
  obtain ⟨-, hnormal, hstate⟩ := hknown.passed _ _ hlast
  have hnot : ¬Recovers periods (lastPass periods past).2 := by
    intro hrec
    rw [hnormal hrec] at hrank
    exact absurd (PressureState.rank_pos hpressure) (not_lt.mpr hrank)
  rw [hstate hnot] at hrank
  rw [elapsed_eq (lastPass_le h hlast)] at hsoon
  exact ⟨_, pass, before, t', hsplit, hpassed, hrank, hsoon, hnot⟩

/-- Two passes within the cooldown of the later one: it is an escalation, or there has been a
recovery. -/
theorem passes_apart (h : Clocked (r :: (later ++ pass :: before))) {t' : ℚ}
    (hpassed : passed periods (later ++ pass :: before) r = some t)
    (hearlier : passed periods before pass = some t') (hsoon : t - t' < periods.cooldown r.state) :
    pass.state.rank < r.state.rank ∨ Recovers periods later := by
  by_contra hneither
  obtain ⟨hrank, hnot⟩ := not_or.mp hneither
  obtain ⟨state, last, hlast, hle, hfall⟩ := rank_lastPass h.tail hearlier hnot
  have hrecent : ¬Recovers periods (lastPass periods (later ++ pass :: before)).2 := fun hrec =>
    hnot ((lastPass_of_passed h.tail hearlier).2 hrec)
  obtain ⟨hbegun, hdue⟩ := passed_after h hpassed hlast hrecent
  have hordered : (periods.cooldown r.state : ℚ) ≤ periods.pressureCooldown := by
    cases r.state with
    | emergency => exact_mod_cast periods.ordered
    | pressure | normal => exact le_rfl
  have hbefore : last ≤ r.now := lastPass_le h hlast
  rcases hdue with hdue | hdue
  · rcases hfall with hfall | hfall
    · omega
    · linarith
  · linarith

/-- The tuning returns to normal on a normal observation only, and never before there has been a
recovery from every pass. -/
theorem tuning_returns (h : Clocked (r :: past))
    (htuned : (Controller.after periods past).lastTuningState ≠ .normal)
    (hreturns : (Controller.after periods (r :: past)).lastTuningState = .normal) :
    r.state = .normal ∧ ∀ later pass before t, past = later ++ pass :: before →
      passed periods before pass = some t → Recovers periods (r :: later) := by
  have hnormal := Controller.round_tunes_normal htuned hreturns
  refine ⟨hnormal.1, ?_⟩
  rintro later pass before t rfl hpassed
  have hsplit : Clocked ((r :: later) ++ pass :: before) := h
  obtain ⟨hsome, hrecovers⟩ := lastPass_of_passed hsplit hpassed
  obtain ⟨⟨state, t'⟩, hlast⟩ := Option.isSome_iff_exists.mp hsome
  refine hrecovers ?_
  by_contra hnot
  obtain ⟨hpressure, -, hstate⟩ := (known_after periods hsplit).passed state t' hlast
  exact hpressure ((hstate hnot).symm.trans hnormal.2)

end History

end Preseed.Zram
