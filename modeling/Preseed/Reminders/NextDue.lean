import Preseed.Gregorian.Dates
import Preseed.Reminders.LocalReminders

/-!
# The next due time

`_next_due` of `labwc_local_reminders`: from a start index on, steps of the recurrence are
tried until one is a civil time that exists in the zone and is after the horizon.
-/

namespace Preseed.Reminders

open Gregorian

/-- A time zone, by the conversions of `datetime`. Instants are microseconds. -/
structure Zone where
  /-- `astimezone(zone)` of an instant -/
  civil : ℤ → Civil
  /-- `astimezone(timezone.utc)` of a civil time with `fold=0`, unless it overflows -/
  instant : Civil → Option ℤ

/-- What is raised. -/
inductive DateFailure
  /-- `ReminderError` -/
  | reminder (text : String)
  /-- `OverflowError` -/
  | overflow
  deriving DecidableEq

/-- The step of a recurrence. -/
inductive Step
  | days (count : ℕ)
  | months (count : ℕ)
  deriving DecidableEq

/-- `days` and `months`. -/
def Recurrence.step : Recurrence → Option Step
  | .none => Option.none
  | .daily | .weekdays | .weekends => some (.days 1)
  | .everyTwoDays => some (.days 2)
  | .everyThreeDays => some (.days 3)
  | .everyFourDays => some (.days 4)
  | .everyFiveDays => some (.days 5)
  | .weekly => some (.days 7)
  | .everyTwoWeeks => some (.days 14)
  | .monthly => some (.months 1)
  | .everyTwoMonths => some (.months 2)
  | .quarterly => some (.months 3)
  | .yearly => some (.months 12)

/-- What an occurrence of the loop does before it looks at the zone. -/
inductive Candidate
  /-- `break` -/
  | stop
  /-- `continue` -/
  | skip
  | civil (time : Civil)

/-- The candidate of an occurrence. -/
def candidate (current : Civil) (recurrence : Recurrence) : Step → ℕ → Candidate
  | .days days, occurrence =>
    let date := current.date.addDays (days * occurrence)
    if 9999 < date.year then .stop
    else if recurrence = .weekdays ∧ 5 ≤ date.weekday then .skip
    else if recurrence = .weekends ∧ date.weekday < 5 then .skip
    else .civil ⟨date, current.time⟩
  | .months months, occurrence =>
    let index := current.date.index + months * occurrence
    if 9999 < index / 12 then .stop
    else if h : current.date.day ≤ monthLength index then
      .civil ⟨⟨index, current.date.day, Nat.le_add_right_of_le current.date.valid.1,
        current.date.valid.2.1, h⟩, current.time⟩
    -- A monthly 31st or yearly leap day omits invalid dates.
    else .skip

/-- `first`; the months between two dates are those between their indices. -/
def firstOccurrence (current horizon : Date) : Step → ℕ
  | .days days => (max 1 (((horizon.ordinal : ℤ) - current.ordinal) / days)).toNat
  | .months months => (max 1 (((horizon.index : ℤ) - current.index) / months)).toNat

/-- The loop over the occurrences, with the number of those that are left. -/
def search (zone : Zone) (candidates : ℕ → Candidate) (threshold : ℤ) :
    ℕ → ℕ → Except DateFailure Civil
  | 0, _ => .error (.reminder "next reminder date is outside the supported range")
  | left + 1, occurrence =>
    match candidates occurrence with
    | .stop => .error (.reminder "next reminder date is outside the supported range")
    | .skip => search zone candidates threshold left (occurrence + 1)
    | .civil time =>
      match zone.instant time with
      | none => .error .overflow
      | some instant =>
        if zone.civil instant = time ∧ threshold < instant then .ok time
        else search zone candidates threshold left (occurrence + 1)

/-- The later one of the current due time and the horizon. -/
def thresholdOf (current : ℤ) (after : Option ℤ) : ℤ :=
  match after with
  | none => current
  | some after => max current after

/-- `_next_due`, where `zone` is what `ZoneInfo` makes of the name. -/
def nextDue (zone : Option Zone) (recurrence : Recurrence) (current : ℤ) (after : Option ℤ) :
    Except DateFailure (Option Civil) :=
  match recurrence.step with
  | none => .ok none
  | some step =>
    match zone with
    | none => .error (.reminder "invalid reminder timezone")
    | some zone =>
      let threshold := thresholdOf current after
      let first := firstOccurrence (zone.civil current).date (zone.civil threshold).date step
      (search zone (candidate (zone.civil current) recurrence step) threshold 366 first).map some

/-! ## The series -/

/-- The civil time is the member `k` of the series: `k` steps after the current time, on a
weekday that the recurrence has, and within the supported years. -/
structure InSeries (current : Civil) (recurrence : Recurrence) (step : Step) (k : ℕ)
    (time : Civil) : Prop where
  time_eq : time.time = current.time
  supported : time.date.year ≤ 9999
  date_eq : match step with
    | .days days => time.date.ordinal = current.date.ordinal + days * k
    | .months months =>
      time.date.index = current.date.index + months * k ∧ time.date.day = current.date.day
  weekdays : recurrence = .weekdays → time.date.weekday < 5
  weekends : recurrence = .weekends → 5 ≤ time.date.weekday

/-- The instant is that of a member of the series which exists in the zone, after the current
due time and the horizon. -/
structure Occurs (zone : Zone) (recurrence : Recurrence) (current : ℤ) (after : Option ℤ)
    (step : Step) (k : ℕ) (time : Civil) (instant : ℤ) : Prop where
  positive : 1 ≤ k
  series : InSeries (zone.civil current) recurrence step k time
  instant_eq : zone.instant time = some instant
  exists_eq : zone.civil instant = time
  after_current : current < instant
  after_horizon : ∀ horizon, after = some horizon → horizon < instant

/-- When the zone shows a date, the civil times of earlier dates that exist have passed. -/
def Zone.Ordered (zone : Zone) : Prop :=
  ∀ time instant now, zone.instant time = some instant → zone.civil instant = time →
    time.date.ordinal < (zone.civil now).date.ordinal → instant ≤ now

end Preseed.Reminders
