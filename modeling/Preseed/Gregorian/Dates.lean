import Mathlib.Algebra.Order.Group.Nat

/-!
# Dates

Dates of the proleptic Gregorian calendar with their ordinals. A month is counted from the
beginning of year 0, so that the months of a year follow those of the year before.
-/

namespace Preseed.Gregorian

/-! ## Months -/

/-- `calendar.isleap`. -/
def isLeap (year : ℕ) : Bool := year % 4 = 0 && (year % 100 ≠ 0 || year % 400 = 0)

/-- The number of days of a month, counted from 0. -/
def monthDays (leap : Bool) : ℕ → ℕ
  | 1 => if leap then 29 else 28
  | 3 | 5 | 8 | 10 => 30
  | _ => 31

/-- `_days_in_month`. -/
def monthLength (index : ℕ) : ℕ := monthDays (isLeap (index / 12)) (index % 12)

/-- `_days_before_year`. -/
def daysBeforeYear (year : ℕ) : ℕ :=
  (year - 1) * 365 + (year - 1) / 4 - (year - 1) / 100 + (year - 1) / 400

/-- The days of a year before a month, in a year that is not a leap year. -/
def daysBeforeMonth (month : ℕ) : ℕ :=
  [0, 31, 59, 90, 120, 151, 181, 212, 243, 273, 304, 334].getD month 0

/-- The days before a month, from the year 1 on. -/
def monthStart (index : ℕ) : ℕ :=
  daysBeforeYear (index / 12) + daysBeforeMonth (index % 12) +
    (if 2 ≤ index % 12 ∧ isLeap (index / 12) then 1 else 0)

theorem isLeap_iff (year : ℕ) :
    isLeap year = true ↔ year % 4 = 0 ∧ (year % 100 ≠ 0 ∨ year % 400 = 0) := by
  simp [isLeap]

theorem daysBeforeYear_succ {year : ℕ} (h : 1 ≤ year) :
    daysBeforeYear (year + 1) = daysBeforeYear year + 365 + (if isLeap year then 1 else 0) := by
  obtain ⟨y, rfl⟩ : ∃ y, year = y + 1 := ⟨year - 1, by omega⟩
  rw [daysBeforeYear, daysBeforeYear, Nat.add_sub_cancel, Nat.add_sub_cancel]
  have hfour : (y + 1) / 4 = y / 4 + (if (y + 1) % 4 = 0 then 1 else 0) := by split <;> omega
  have hcentury : (y + 1) / 100 = y / 100 + (if (y + 1) % 100 = 0 then 1 else 0) := by
    split <;> omega
  have hcycle : (y + 1) / 400 = y / 400 + (if (y + 1) % 400 = 0 then 1 else 0) := by
    split <;> omega
  have hle : y / 100 ≤ y / 4 := Nat.div_le_div_left (by decide) (by decide)
  have hcenturyFour : (y + 1) % 100 = 0 → (y + 1) % 4 = 0 := by omega
  have hcycleCentury : (y + 1) % 400 = 0 → (y + 1) % 100 = 0 := by omega
  have hleap := isLeap_iff (y + 1)
  rw [hfour, hcentury, hcycle]
  generalize y / 4 = fours, y / 100 = centuries, y / 400 = cycles at hle ⊢
  by_cases h₁ : (y + 1) % 4 = 0 <;> by_cases h₂ : (y + 1) % 100 = 0 <;>
    by_cases h₃ : (y + 1) % 400 = 0 <;>
    simp only [h₁, h₂, h₃, true_and, false_and, ne_eq, not_true, not_false_eq_true, or_true,
      or_false, if_true, if_false, true_implies, hleap] at * <;> omega

/-- The length of the month that begins the day `before` of a common year and ends before
the day `after`. -/
theorem monthStart_within (leap : Bool) {month : ℕ} (h : month < 11) :
    daysBeforeMonth (month + 1) + (if 2 ≤ month + 1 ∧ leap = true then 1 else 0) =
      daysBeforeMonth month + (if 2 ≤ month ∧ leap = true then 1 else 0) +
        monthDays leap month := by
  match month, h with
  | 0, _ | 1, _ | 2, _ | 3, _ | 4, _ | 5, _ | 6, _ | 7, _ | 8, _ | 9, _ | 10, _ =>
    cases leap <;> rfl

/-- The months follow each other. -/
theorem monthStart_succ {index : ℕ} (h : 12 ≤ index) :
    monthStart (index + 1) = monthStart index + monthLength index := by
  obtain ⟨year, month, hmonth, rfl⟩ : ∃ year month, month < 12 ∧ index = 12 * year + month :=
    ⟨index / 12, index % 12, Nat.mod_lt _ (by decide), by omega⟩
  have hyear : 1 ≤ year := by omega
  have hdiv : (12 * year + month) / 12 = year := by omega
  have hmod : (12 * year + month) % 12 = month := by omega
  rcases Nat.lt_or_ge month 11 with hlast | hlast
  · have hdiv' : (12 * year + month + 1) / 12 = year := by omega
    have hmod' : (12 * year + month + 1) % 12 = month + 1 := by omega
    rw [monthStart, monthStart, monthLength, hdiv, hmod, hdiv', hmod', Nat.add_assoc,
      monthStart_within (isLeap year) hlast]
    omega
  · obtain rfl : month = 11 := by omega
    have hdiv' : (12 * year + 11 + 1) / 12 = year + 1 := by omega
    have hmod' : (12 * year + 11 + 1) % 12 = 0 := by omega
    have hnext := daysBeforeYear_succ hyear
    rw [monthStart, monthStart, monthLength, hdiv, hmod, hdiv', hmod', hnext]
    have hdecember : daysBeforeMonth 11 = 334 := rfl
    have hjanuary : daysBeforeMonth 0 = 0 := rfl
    have hlength : ∀ leap, monthDays leap 11 = 31 := fun _ => rfl
    rw [hdecember, hjanuary, hlength]
    split <;> simp_all

theorem monthStart_mono {i j : ℕ} (hi : 12 ≤ i) (h : i ≤ j) : monthStart i ≤ monthStart j := by
  induction j, h using Nat.le_induction with
  | base => exact le_refl _
  | succ j hj ih =>
    rw [monthStart_succ (hi.trans hj)]
    omega

theorem monthLength_pos (index : ℕ) : 28 ≤ monthLength index ∧ monthLength index ≤ 31 := by
  rw [monthLength, monthDays.eq_def]
  split
  · split <;> decide
  all_goals decide

/-! ## Dates -/

/-- A date from the year 1 on. -/
structure Date where
  /-- `12 * year + month - 1` -/
  index : ℕ
  day : ℕ
  valid : 12 ≤ index ∧ 1 ≤ day ∧ day ≤ monthLength index
  deriving DecidableEq

namespace Date

def year (d : Date) : ℕ := d.index / 12

def month (d : Date) : ℕ := d.index % 12 + 1

/-- `date.toordinal`. -/
def ordinal (d : Date) : ℕ := monthStart d.index + d.day

/-- `date.weekday`, 0 is Monday. -/
def weekday (d : Date) : ℕ := (d.ordinal + 6) % 7

/-- A date of an earlier month has a smaller ordinal. -/
theorem ordinal_lt_of_index {d e : Date} (h : d.index < e.index) : d.ordinal < e.ordinal := by
  have hstart := monthStart_mono (Nat.le_succ_of_le d.valid.1) (Nat.succ_le_of_lt h)
  rw [Nat.succ_eq_add_one, monthStart_succ d.valid.1] at hstart
  have := d.valid.2.2
  have := e.valid.2.1
  rw [ordinal, ordinal]
  omega

theorem index_le_of_ordinal {d e : Date} (h : d.ordinal ≤ e.ordinal) : d.index ≤ e.index := by
  by_contra hlt
  have := ordinal_lt_of_index (Nat.lt_of_not_le hlt)
  omega

/-- A date is determined by its ordinal. -/
theorem ext_ordinal {d e : Date} (h : d.ordinal = e.ordinal) : d = e := by
  have hindex : d.index = e.index :=
    Nat.le_antisymm (index_le_of_ordinal h.le) (index_le_of_ordinal h.ge)
  rw [ordinal, ordinal, hindex] at h
  obtain ⟨index, day, hd⟩ := d
  obtain ⟨index', day', he⟩ := e
  obtain rfl : index = index' := hindex
  obtain rfl : day = day' := by simpa using h
  rfl

/-- The next day. -/
def next (d : Date) : Date :=
  if h : d.day < monthLength d.index then
    ⟨d.index, d.day + 1, d.valid.1, Nat.succ_pos _, h⟩
  else ⟨d.index + 1, 1, Nat.le_succ_of_le d.valid.1, le_refl _,
    le_trans (by decide) (monthLength_pos _).1⟩

theorem ordinal_next (d : Date) : d.next.ordinal = d.ordinal + 1 := by
  rw [next]
  split
  · rfl
  · have hday := d.valid.2.2
    simp only [ordinal]
    rw [monthStart_succ d.valid.1]
    omega

/-- `date + timedelta(days)`. -/
def addDays (d : Date) (days : ℕ) : Date := next^[days] d

@[simp]
theorem ordinal_addDays (d : Date) (days : ℕ) : (d.addDays days).ordinal = d.ordinal + days := by
  induction days with
  | zero => rfl
  | succ days ih =>
    rw [addDays, Function.iterate_succ_apply', ordinal_next, ← addDays, ih, Nat.add_assoc]

end Date

/-- A date and a time of the day. -/
structure Civil where
  date : Date
  /-- microseconds since midnight -/
  time : ℕ
  deriving DecidableEq

end Preseed.Gregorian
