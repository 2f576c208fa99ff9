import Mathlib
import Preseed.Reminders.NextDueRules

/-!
# What the next due time is

The due time that the loop finds is the earliest occurrence of the series, and where it
finds none, either there is none or the zone has passed over every step of its window.
-/

namespace Preseed.Reminders

open Gregorian

variable {zone : Zone} {recurrence : Recurrence} {current : ℤ} {after : Option ℤ} {step : Step}
  {k : ℕ} {time : Civil} {instant : ℤ}

theorem lt_of_thresholdOf (h : thresholdOf current after < instant) :
    current < instant ∧ ∀ horizon, after = some horizon → horizon < instant := by
  cases after with
  | none => exact ⟨h, nofun⟩
  | some after =>
    rw [thresholdOf] at h
    exact ⟨by omega, fun horizon hhorizon => by cases hhorizon; omega⟩

theorem Occurs.after_threshold (h : Occurs zone recurrence current after step k time instant) :
    thresholdOf current after < instant := by
  have hcurrent := h.after_current
  cases after with
  | none => exact hcurrent
  | some after =>
    have hhorizon := h.after_horizon after rfl
    rw [thresholdOf]
    omega

/-- A step that the loop passes over is no occurrence. -/
theorem PassedOver.not_occurs (hstep : recurrence.step = some step)
    (h : PassedOver zone (candidate (zone.civil current) recurrence step)
      (thresholdOf current after) k) :
    ¬Occurs zone recurrence current after step k time instant := by
  intro hoccurs
  obtain ⟨instant', hinstant, hbad⟩ := h.2 time ((candidate_civil hstep).mpr hoccurs.series)
  obtain rfl : instant = instant' :=
    Option.some.inj (hoccurs.instant_eq.symm.trans hinstant)
  exact hbad ⟨hoccurs.exists_eq, hoccurs.after_threshold⟩

/-- A step before the start index is no occurrence. -/
theorem Occurs.first_le (hzone : zone.Ordered) (hstep : recurrence.step = some step)
    (h : Occurs zone recurrence current after step k time instant) :
    firstOccurrence (zone.civil current).date (zone.civil (thresholdOf current after)).date step ≤
      k := by
  by_contra hlt
  have hdate := h.series.before_first hstep h.positive (Nat.lt_of_not_le hlt)
  have hpassed := hzone time instant _ h.instant_eq h.exists_eq hdate
  have hafter := h.after_threshold
  omega

theorem one_le_firstOccurrence (current horizon : Date) (step : Step) :
    1 ≤ firstOccurrence current horizon step := by
  cases step <;> rw [firstOccurrence] <;> omega

/-- Of two occurrences, the one with the smaller index is the earlier one. -/
theorem Occurs.instant_le {k' : ℕ} {time' : Civil} {instant' : ℤ} (hzone : zone.Ordered)
    (hstep : recurrence.step = some step)
    (h : Occurs zone recurrence current after step k time instant)
    (h' : Occurs zone recurrence current after step k' time' instant') (hle : k ≤ k') :
    instant ≤ instant' := by
  rcases Nat.eq_or_lt_of_le hle with rfl | hlt
  · have htime : time = time' := Candidate.civil.inj
      (((candidate_civil hstep).mpr h.series).symm.trans ((candidate_civil hstep).mpr h'.series))
    have hinstant := h.instant_eq
    rw [htime, h'.instant_eq] at hinstant
    exact (Option.some.inj hinstant).ge
  · have hdate := h.series.ordinal_lt hstep h'.series hlt
    rw [← h'.exists_eq] at hdate
    exact hzone time instant instant' h.instant_eq h.exists_eq hdate

/-- The occurrence is the first one of the series. -/
structure Earliest (zone : Zone) (recurrence : Recurrence) (current : ℤ) (after : Option ℤ)
    (time : Civil) : Prop where
  repeats : recurrence ≠ .none
  least : ∀ step, recurrence.step = some step → ∃ k instant,
    Occurs zone recurrence current after step k time instant ∧
    ∀ k' time' instant', Occurs zone recurrence current after step k' time' instant' →
      k ≤ k' ∧ instant ≤ instant'

/-- Why the loop finds no occurrence with this step. -/
inductive Missing (zone : Zone) (recurrence : Recurrence) (current : ℤ) (after : Option ℤ)
    (step : Step) : DateFailure → Prop
  /-- There is none. -/
  | none (text : String)
      (hnone : ∀ k time instant, ¬Occurs zone recurrence current after step k time instant) :
      Missing zone recurrence current after step (.reminder text)
  /-- The conversion of a member of the series overflows, and there is none before it. -/
  | overflow (k : ℕ) (time : Civil) (hpositive : 1 ≤ k)
      (hmember : InSeries (zone.civil current) recurrence step k time)
      (hinstant : zone.instant time = .none)
      (hnone : ∀ k' time' instant', k' < k →
        ¬Occurs zone recurrence current after step k' time' instant') :
      Missing zone recurrence current after step .overflow
  /-- There is none among 366 steps, although every dozen has a member of the series with a
  date after that of the horizon. -/
  | window (text : String) (first : ℕ)
      (hnone : ∀ k time instant, k < first + 366 →
        ¬Occurs zone recurrence current after step k time instant)
      (hmembers : ∀ j < 30, ∃ k time, first + 12 * j < k ∧ k ≤ first + 12 * j + 12 ∧
        InSeries (zone.civil current) recurrence step k time ∧
        (zone.civil (thresholdOf current after)).date.ordinal < time.date.ordinal) :
      Missing zone recurrence current after step (.reminder text)

/-- What the loop finds. -/
theorem search_earliest (hzone : zone.Ordered) (hstep : recurrence.step = some step)
    {result : Except DateFailure Civil}
    (h : SearchEnds zone (candidate (zone.civil current) recurrence step)
      (thresholdOf current after)
      (firstOccurrence (zone.civil current).date (zone.civil (thresholdOf current after)).date step)
      (firstOccurrence (zone.civil current).date (zone.civil (thresholdOf current after)).date step
        + 366) result) :
    (∀ time, result = .ok time → Earliest zone recurrence current after time) ∧
    ∀ e, result = .error e → Missing zone recurrence current after step e := by
  set first := firstOccurrence (zone.civil current).date
    (zone.civil (thresholdOf current after)).date step with hfirstEq
  have hone : 1 ≤ first := one_le_firstOccurrence _ _ _
  -- Before a step that is reached there is no occurrence.
  have hnone : ∀ k, (∀ i, first ≤ i → i < k → PassedOver zone
      (candidate (zone.civil current) recurrence step) (thresholdOf current after) i) →
      ∀ k' time' instant', k' < k →
        ¬Occurs zone recurrence current after step k' time' instant' := by
    intro k hpassed k' time' instant' hlt hoccurs
    exact (hpassed k' (hoccurs.first_le hzone hstep) hlt).not_occurs hstep hoccurs
  cases h with
  | found k time instant hfirst _ hpassed hcandidate hinstant hexists hafter =>
    refine ⟨fun time' htime => ?_, nofun⟩
    cases htime
    refine ⟨?_, fun step' hstep' => ?_⟩
    · rintro rfl
      cases hstep
    obtain rfl : step = step' := Option.some.inj (hstep.symm.trans hstep')
    have hoccurs : Occurs zone recurrence current after step k time instant :=
      ⟨by omega, (candidate_civil hstep).mp hcandidate, hinstant, hexists,
        (lt_of_thresholdOf hafter).1, (lt_of_thresholdOf hafter).2⟩
    refine ⟨k, instant, hoccurs, fun k' time' instant' hoccurs' => ?_⟩
    have hle : k ≤ k' := by
      by_contra hlt
      exact hnone k hpassed k' time' instant' (Nat.lt_of_not_le hlt) hoccurs'
    exact ⟨hle, hoccurs.instant_le hzone hstep hoccurs' hle⟩
  | overflow k time hfirst hpassed hcandidate hinstant =>
    refine ⟨nofun, fun e he => ?_⟩
    cases he
    exact .overflow k time (by omega) ((candidate_civil hstep).mp hcandidate) hinstant
      (hnone k hpassed)
  | stop k _ _ hpassed hstop text =>
    refine ⟨nofun, fun e he => ?_⟩
    cases he
    refine .none text fun k' time' instant' hoccurs => ?_
    rcases Nat.lt_or_ge k' k with hlt | hge
    · exact hnone k hpassed k' time' instant' hlt hoccurs
    · have hcandidate := (candidate_civil hstep).mpr hoccurs.series
      rw [candidate_stop hstop hge] at hcandidate
      cases hcandidate
  | exhausted hpassed text =>
    refine ⟨nofun, fun e he => ?_⟩
    cases he
    refine .window text first (fun k time instant hlt => hnone _ hpassed k time instant hlt) ?_
    intro j hj
    obtain ⟨k, time, hlt, hle, hmember⟩ := exists_member hstep (first + 12 * j)
      fun i hi hle => (hpassed i (by omega) (by omega)).1
    exact ⟨k, time, hlt, hle, hmember, hmember.after_first hstep (by omega)⟩

/-- What the next due time is: the earliest occurrence after the current due time and the horizon,
if the civil times of earlier dates pass before those of later ones. Without a recurrence there is
none, and where none is found, there is none or the window of the loop has none. -/
theorem nextDue_earliest (zone : Zone) (hzone : zone.Ordered) (recurrence : Recurrence)
    (current : ℤ) (after : Option ℤ) :
    (∀ time, nextDue (some zone) recurrence current after = .ok (some time) →
      Earliest zone recurrence current after time) ∧
    (nextDue (some zone) recurrence current after = .ok none ↔ recurrence = .none) ∧
    ∀ e, nextDue (some zone) recurrence current after = .error e →
      ∃ step, recurrence.step = some step ∧ Missing zone recurrence current after step e := by
  unfold nextDue
  cases hstep : recurrence.step with
  | none =>
    refine ⟨nofun, iff_of_true rfl ?_, nofun⟩
    cases recurrence <;> first | rfl | cases hstep
  | some step =>
    have hrepeats : recurrence ≠ .none := by
      rintro rfl
      cases hstep
    have hends : SearchEnds zone (candidate (zone.civil current) recurrence step)
        (thresholdOf current after) _ _ _ := search_ends 366 (firstOccurrence
          (zone.civil current).date (zone.civil (thresholdOf current after)).date step)
    obtain ⟨hfound, hmissing⟩ := search_earliest hzone hstep hends
    dsimp only
    cases hresult : search zone (candidate (zone.civil current) recurrence step)
        (thresholdOf current after) 366 (firstOccurrence (zone.civil current).date
          (zone.civil (thresholdOf current after)).date step) with
    | ok time =>
      refine ⟨fun time' h => ?_, iff_of_false (by simp [Except.map]) hrepeats, nofun⟩
      cases h
      exact hfound time hresult
    | error e =>
      refine ⟨nofun, iff_of_false (by simp [Except.map]) hrepeats, fun e' h => ?_⟩
      cases h
      exact ⟨step, rfl, hmissing e hresult⟩

/-! ### A zone that skips a time of the day -/

/-- New Year of 2026. -/
def newYear : Date := ⟨12 * 2026, 1, by decide⟩

/-- The microseconds of a day. -/
def dayLength : ℕ := 86400000000

/-- A zone whose clocks go forward at midnight for some days in a row, from the second day on. -/
def skippingZone (days : ℕ) : Zone where
  civil instant :=
    let day := (instant / dayLength).toNat
    let time := (instant % dayLength).toNat
    ⟨newYear.addDays day, if time = 0 ∧ 1 ≤ day ∧ day ≤ days then 1 else time⟩
  instant time :=
    some (((time.date.ordinal : ℤ) - newYear.ordinal) * dayLength + time.time)

theorem skippingZone_ordered (days : ℕ) : (skippingZone days).Ordered := by
  intro time instant now hinstant hexists hdate
  have hvalue : ((time.date.ordinal : ℤ) - newYear.ordinal) * dayLength + time.time = instant :=
    Option.some.inj hinstant
  have hday : time.date.ordinal = newYear.ordinal + (instant / dayLength).toNat := by
    rw [← hexists, skippingZone, Date.ordinal_addDays]
  have hnow : ((skippingZone days).civil now).date.ordinal =
      newYear.ordinal + (now / dayLength).toNat := by
    rw [skippingZone, Date.ordinal_addDays]
  have htime : time.time < dayLength := by
    rw [← hexists, skippingZone]
    dsimp only [dayLength]
    split <;> omega
  rw [hnow, hday] at hdate
  rw [hday] at hvalue
  unfold dayLength at *
  omega

/-- The midnight of a day. -/
def midnight (day : ℕ) : Civil := ⟨newYear.addDays day, 0⟩

theorem skippingZone_instant (days day : ℕ) :
    (skippingZone days).instant (midnight day) = some ((day : ℤ) * dayLength) := by
  have hdate : ((midnight day).date.ordinal : ℤ) - newYear.ordinal = day := by
    rw [midnight, Date.ordinal_addDays]
    omega
  simp only [skippingZone, hdate]
  exact congrArg some (Int.add_zero _)

/-- The midnights of the skipped days do not exist. -/
theorem skippingZone_civil (days day : ℕ) :
    (skippingZone days).civil (day * dayLength) =
      ⟨newYear.addDays day, if 1 ≤ day ∧ day ≤ days then 1 else 0⟩ := by
  have hday : ((day * dayLength : ℤ) / dayLength).toNat = day := by
    unfold dayLength
    omega
  have htime : ((day * dayLength : ℤ) % dayLength).toNat = 0 := by
    unfold dayLength
    omega
  simp only [skippingZone, hday, htime, true_and]

/-- The rule in a zone that skips nothing. -/
theorem nextDue_earliest_daily :
    Earliest (skippingZone 0) .daily 0 none (midnight 1) :=
  (nextDue_earliest (skippingZone 0) (skippingZone_ordered 0) .daily 0 none).1 _ (by decide +kernel)

/-- The loop may give up although there is a next occurrence, where the zone skips the time of the
day on 366 days in a row. -/
theorem skipped_midnights_exhaust_search :
    ¬∀ (zone : Zone) (recurrence : Recurrence) (current : ℤ) (after : Option ℤ) step text,
      zone.Ordered → recurrence.step = some step →
      nextDue (some zone) recurrence current after = .error (.reminder text) →
      ∀ k time instant, ¬Occurs zone recurrence current after step k time instant := by
  intro h
  set zone := skippingZone 399 with hzone
  have hcurrent : zone.civil 0 = ⟨newYear, 0⟩ := rfl
  have hdates : ∀ day, (midnight day).date.ordinal = newYear.ordinal + 1 * day := by
    intro day
    rw [midnight, Date.ordinal_addDays, Nat.one_mul]
  -- The candidates are the midnights.
  have hmidnight : ∀ k time, InSeries (zone.civil 0) .daily (.days 1) k time →
      time = midnight k := by
    intro k time hmember
    obtain ⟨date, seconds⟩ := time
    obtain rfl : seconds = 0 := hmember.time_eq
    have hdate : date.ordinal = newYear.ordinal + 1 * k := hmember.date_eq
    rw [← hdates] at hdate
    exact congrArg (Civil.mk · 0) (Date.ext_ordinal hdate)
  have hskips : ∀ k < 367, 1 ≤ k → ∀ time instant,
      candidate (zone.civil 0) .daily (.days 1) k = .civil time →
      zone.instant time = some instant → zone.civil instant ≠ time := by
    intro k hlt hpos time instant hcandidate hinstant hexists
    have htime := hmidnight k time ((candidate_civil rfl).mp hcandidate)
    rw [htime, hzone, skippingZone_instant, Option.some.injEq] at hinstant
    rw [htime, hzone, ← hinstant, skippingZone_civil, if_pos ⟨hpos, by omega⟩] at hexists
    cases congrArg Civil.time hexists
  have hfails : ∃ text, nextDue (some zone) .daily 0 none = .error (.reminder text) := by
    have hends : SearchEnds zone (candidate (zone.civil 0) .daily (.days 1)) 0 1 367
        (search zone (candidate (zone.civil 0) .daily (.days 1)) 0 366 1) := search_ends 366 1
    have hsearch : nextDue (some zone) .daily 0 none =
        (search zone (candidate (zone.civil 0) .daily (.days 1)) 0 366
          (firstOccurrence newYear newYear (.days 1))).map some := rfl
    have hfirst : firstOccurrence newYear newYear (.days 1) = 1 := by
      simp [firstOccurrence]
    rw [hsearch, hfirst]
    cases hresult : search zone (candidate (zone.civil 0) .daily (.days 1)) 0 366 1 with
    | ok time =>
      rw [hresult] at hends
      cases hends with
      | found k _ instant hfirst hlimit _ hcandidate hinstant hexists _ =>
        exact absurd hexists (hskips k hlimit hfirst time instant hcandidate hinstant)
    | error e =>
      rw [hresult] at hends
      cases hends with
      | overflow _ _ _ _ _ hinstant => cases hinstant
      | stop _ _ _ _ _ text | exhausted _ text => exact ⟨text, rfl⟩
  obtain ⟨text, hfails⟩ := hfails
  -- The first midnight that exists again.
  have hyear : (midnight 400).date.year ≤ 9999 := by decide +kernel
  obtain ⟨k, hk⟩ : ∃ k, k = 400 := ⟨_, rfl⟩
  rw [← hk] at hyear
  refine h zone .daily 0 none (.days 1) text (skippingZone_ordered 399) rfl hfails k
    (midnight k) (k * dayLength) ⟨by omega, ⟨rfl, hyear, hdates k, by simp, by simp⟩,
      skippingZone_instant 399 k, ?_, ?_, by simp⟩
  · rw [hzone, skippingZone_civil, if_neg (by omega)]
    rfl
  · unfold dayLength
    omega

end Preseed.Reminders
