import Preseed.Reminders.NextDue

/-!
# The next due time is the earliest

The candidates of the loop are the members of the series, the steps before the start index
have passed, and the window of the loop has dates after the horizon.
-/

namespace Preseed.Reminders

open Gregorian Nat

/-! ## Candidates -/

section Candidates

variable {current time : Civil} {recurrence : Recurrence} {step : Step} {k : ℕ}

theorem candidate_civil (hstep : recurrence.step = some step) :
    candidate current recurrence step k = .civil time ↔
      InSeries current recurrence step k time := by
  cases step with
  | days days =>
    rw [candidate]
    constructor
    · intro h
      split at h
      · cases h
      rename_i hyear
      split at h
      · cases h
      rename_i hweekday
      split at h
      · cases h
      rename_i hweekend
      obtain rfl := Candidate.civil.inj h
      exact ⟨rfl, Nat.le_of_not_lt hyear, Date.ordinal_addDays _ _,
        fun heq => Nat.lt_of_not_le fun hle => hweekday ⟨heq, hle⟩,
        fun heq => Nat.le_of_not_lt fun hlt => hweekend ⟨heq, hlt⟩⟩
    · rintro ⟨htime, hyear, hdate, hweekday, hweekend⟩
      obtain ⟨date, seconds⟩ := time
      obtain rfl : date = current.date.addDays (days * k) :=
        Date.ext_ordinal (hdate.trans (Date.ordinal_addDays _ _).symm)
      obtain rfl : seconds = current.time := htime
      rw [if_neg (Nat.not_lt_of_le hyear),
        if_neg fun h => Nat.not_lt_of_le h.2 (hweekday h.1),
        if_neg fun h => Nat.not_lt_of_le (hweekend h.1) h.2]
  | months months =>
    have hkind : recurrence ≠ .weekdays ∧ recurrence ≠ .weekends := by
      constructor <;> rintro rfl <;> cases hstep
    rw [candidate]
    constructor
    · intro h
      split at h
      · cases h
      rename_i hyear
      split at h
      · obtain rfl := Candidate.civil.inj h
        exact ⟨rfl, Nat.le_of_not_lt hyear, ⟨rfl, rfl⟩, fun h => absurd h hkind.1,
          fun h => absurd h hkind.2⟩
      · cases h
    · rintro ⟨htime, hyear, ⟨hindex, hday⟩, -, -⟩
      obtain ⟨⟨index, day, hvalid⟩, seconds⟩ := time
      obtain rfl : seconds = current.time := htime
      obtain rfl : index = current.date.index + months * k := hindex
      obtain rfl : day = current.date.day := hday
      have hyear : ¬ 9999 < (current.date.index + months * k) / 12 := Nat.not_lt_of_le hyear
      rw [if_neg hyear, dif_pos hvalid.2.2]

/-- Once the supported years are left, they stay left. -/
theorem candidate_stop {k' : ℕ} (h : candidate current recurrence step k = .stop) (hle : k ≤ k') :
    candidate current recurrence step k' = .stop := by
  cases step with
  | days days =>
    have hyear : 9999 < (current.date.addDays (days * k)).year := by
      rw [candidate] at h
      by_contra hyear
      rw [if_neg hyear] at h
      split at h
      · cases h
      · split at h <;> cases h
    have hindex : (current.date.addDays (days * k)).index ≤
        (current.date.addDays (days * k')).index := by
      refine Date.index_le_of_ordinal ?_
      rw [Date.ordinal_addDays, Date.ordinal_addDays]
      exact Nat.add_le_add_left (Nat.mul_le_mul_left _ hle) _
    have hyear' : 9999 < (current.date.addDays (days * k')).year :=
      lt_of_lt_of_le hyear (Nat.div_le_div_right hindex)
    rw [candidate, if_pos hyear']
  | months months =>
    have hyear : 9999 < (current.date.index + months * k) / 12 := by
      rw [candidate] at h
      by_contra hyear
      rw [if_neg hyear] at h
      split at h <;> cases h
    have hindex : current.date.index + months * k ≤ current.date.index + months * k' :=
      Nat.add_le_add_left (Nat.mul_le_mul_left _ hle) _
    rw [candidate, if_pos (lt_of_lt_of_le hyear (Nat.div_le_div_right hindex))]

theorem step_pos (hstep : recurrence.step = some step) :
    match step with
    | .days days => 1 ≤ days
    | .months months => months = 1 ∨ months = 2 ∨ months = 3 ∨ months = 12 := by
  cases recurrence <;> simp only [Recurrence.step, reduceCtorEq, Option.some.injEq] at hstep <;>
    subst hstep <;> simp

/-- A later member of the series has a later date. -/
theorem InSeries.ordinal_lt {time' : Civil} {k' : ℕ} (hstep : recurrence.step = some step)
    (h : InSeries current recurrence step k time)
    (h' : InSeries current recurrence step k' time') (hlt : k < k') :
    time.date.ordinal < time'.date.ordinal := by
  have hpos := step_pos hstep
  have hdate := h.date_eq
  have hdate' := h'.date_eq
  cases step with
  | days days =>
    simp only at hpos hdate hdate'
    have := Nat.mul_lt_mul_of_pos_left hlt hpos
    omega
  | months months =>
    simp only at hpos hdate hdate'
    have := Nat.mul_lt_mul_of_pos_left hlt (show 0 < months by omega)
    exact Date.ordinal_lt_of_index (by omega)

/-- A member of the series before the start index has a date before the horizon. -/
theorem InSeries.before_first {horizon : Date} (hstep : recurrence.step = some step)
    (h : InSeries current recurrence step k time) (hk : 1 ≤ k)
    (hlt : k < firstOccurrence current.date horizon step) :
    time.date.ordinal < horizon.ordinal := by
  have hpos := step_pos hstep
  have hdate := h.date_eq
  cases step with
  | days days =>
    simp only at hpos hdate
    rw [firstOccurrence] at hlt
    have hquotient : (k : ℤ) + 1 ≤ ((horizon.ordinal : ℤ) - current.date.ordinal) / days := by
      omega
    rw [Int.le_ediv_iff_mul_le (by omega)] at hquotient
    rw [Int.add_mul, Int.one_mul, Int.mul_comm] at hquotient
    have hcast : ((days * k : ℕ) : ℤ) = days * k := Int.natCast_mul days k
    omega
  | months months =>
    simp only at hpos hdate
    rw [firstOccurrence] at hlt
    have hquotient : (k : ℤ) + 1 ≤ ((horizon.index : ℤ) - current.date.index) / months := by
      omega
    rw [Int.le_ediv_iff_mul_le (by omega)] at hquotient
    rw [Int.add_mul, Int.one_mul, Int.mul_comm] at hquotient
    have hcast : ((months * k : ℕ) : ℤ) = months * k := Int.natCast_mul months k
    exact Date.ordinal_lt_of_index (by omega)

end Candidates

/-! ## The loop -/

section Loop

variable {zone : Zone} {candidates : ℕ → Candidate} {threshold : ℤ}

/-- An occurrence that the loop passes over: it has no candidate, or the candidate is skipped
by the zone or has passed. -/
def PassedOver (zone : Zone) (candidates : ℕ → Candidate) (threshold : ℤ) (k : ℕ) : Prop :=
  candidates k ≠ .stop ∧ ∀ time, candidates k = .civil time →
    ∃ instant, zone.instant time = some instant ∧
      ¬(zone.civil instant = time ∧ threshold < instant)

/-- How the loop ends. -/
inductive SearchEnds (zone : Zone) (candidates : ℕ → Candidate) (threshold : ℤ) (first limit : ℕ) :
    Except DateFailure Civil → Prop
  | found (k : ℕ) (time : Civil) (instant : ℤ) (hfirst : first ≤ k) (hlimit : k < limit)
      (hpassed : ∀ i, first ≤ i → i < k → PassedOver zone candidates threshold i)
      (hcandidate : candidates k = .civil time) (hinstant : zone.instant time = some instant)
      (hexists : zone.civil instant = time) (hafter : threshold < instant) :
      SearchEnds zone candidates threshold first limit (.ok time)
  | overflow (k : ℕ) (time : Civil) (hfirst : first ≤ k)
      (hpassed : ∀ i, first ≤ i → i < k → PassedOver zone candidates threshold i)
      (hcandidate : candidates k = .civil time) (hinstant : zone.instant time = none) :
      SearchEnds zone candidates threshold first limit (.error .overflow)
  | stop (k : ℕ) (hfirst : first ≤ k) (hlimit : k < limit)
      (hpassed : ∀ i, first ≤ i → i < k → PassedOver zone candidates threshold i)
      (hstop : candidates k = .stop) (text : String) :
      SearchEnds zone candidates threshold first limit (.error (.reminder text))
  | exhausted (hpassed : ∀ i, first ≤ i → i < limit → PassedOver zone candidates threshold i)
      (text : String) : SearchEnds zone candidates threshold first limit (.error (.reminder text))

theorem SearchEnds.cons {first limit : ℕ} {result : Except DateFailure Civil}
    (hfirst : PassedOver zone candidates threshold first)
    (h : SearchEnds zone candidates threshold (first + 1) limit result) :
    SearchEnds zone candidates threshold first limit result := by
  have hcons : ∀ {k : ℕ}, (∀ i, first + 1 ≤ i → i < k → PassedOver zone candidates threshold i) →
      ∀ i, first ≤ i → i < k → PassedOver zone candidates threshold i := by
    intro k hpassed i hle hlt
    rcases eq_or_lt_of_le hle with rfl | hle
    · exact hfirst
    · exact hpassed i hle hlt
  cases h with
  | found k time instant hle hlimit hpassed hcandidate hinstant hexists hafter =>
    exact .found k time instant (by omega) hlimit (hcons hpassed) hcandidate hinstant hexists hafter
  | overflow k time hle hpassed hcandidate hinstant =>
    exact .overflow k time (by omega) (hcons hpassed) hcandidate hinstant
  | stop k hle hlimit hpassed hstop text =>
    exact .stop k (by omega) hlimit (hcons hpassed) hstop text
  | exhausted hpassed text => exact .exhausted (hcons hpassed) text

theorem search_ends (left occurrence : ℕ) :
    SearchEnds zone candidates threshold occurrence (occurrence + left)
      (search zone candidates threshold left occurrence) := by
  have hnone : ∀ first i : ℕ, first ≤ i → i < first → PassedOver zone candidates threshold i :=
    fun first i hle hlt => absurd hle (Nat.not_le_of_lt hlt)
  induction left generalizing occurrence with
  | zero => exact .exhausted (hnone occurrence) _
  | succ left ih =>
    have ih := ih (occurrence + 1)
    rw [add_right_comm, add_assoc] at ih
    rw [search]
    rcases hcandidate : candidates occurrence with - | - | time
    · exact .stop occurrence (le_refl _) (by omega) (hnone occurrence) hcandidate _
    · exact .cons ⟨by simp [hcandidate], fun time h => by simp [hcandidate] at h⟩ ih
    · rcases hinstant : zone.instant time with - | instant
      · simp only [hinstant]
        exact .overflow occurrence time (le_refl _) (hnone occurrence) hcandidate hinstant
      · simp only [hinstant]
        split
        · rename_i hgood
          exact .found occurrence time instant (le_refl _) (by omega) (hnone occurrence) hcandidate
            hinstant hgood.1 hgood.2
        · rename_i hbad
          refine .cons ⟨by simp [hcandidate], fun time' h => ?_⟩ ih
          obtain rfl : time = time' := Candidate.civil.inj (hcandidate.symm.trans h)
          exact ⟨instant, hinstant, hbad⟩

end Loop

/-! ## The dates of the window -/

/-- Among eight years in a row there is a leap year. -/
theorem exists_leap (year : ℕ) : ∃ i, 1 ≤ i ∧ i ≤ 8 ∧ isLeap (year + i) = true := by
  by_cases hcentury : (year + (4 - year % 4)) % 100 = 0 ∧ (year + (4 - year % 4)) % 400 ≠ 0
  · exact ⟨8 - year % 4, by omega, by omega, (isLeap_iff _).2 (by omega)⟩
  · exact ⟨4 - year % 4, by omega, by omega, (isLeap_iff _).2 (by omega)⟩

theorem monthLength_eq (year month : ℕ) (h : month < 12) :
    monthLength (12 * year + month) = monthDays (isLeap year) month := by
  have hdiv : (12 * year + month) / 12 = year := by omega
  have hmod : (12 * year + month) % 12 = month := by omega
  rw [monthLength, hdiv, hmod]

theorem monthDays_of_ne {month : ℕ} (h : month ≠ 1) (leap leap' : Bool) :
    monthDays leap month = monthDays leap' month := by
  rw [monthDays.eq_def, monthDays.eq_def]
  split <;> simp_all

/-- A step of some months reaches a month that has the day, within a dozen steps. -/
theorem exists_monthLength {months : ℕ}
    (hmonths : months = 1 ∨ months = 2 ∨ months = 3 ∨ months = 12) (d : Date) (first : ℕ) :
    ∃ i, 1 ≤ i ∧ i ≤ 12 ∧ d.day ≤ monthLength (d.index + months * (first + i)) := by
  obtain ⟨index, day, -, -, hday⟩ := d
  obtain ⟨year, month, hmonth, rfl⟩ : ∃ year month, month < 12 ∧ index = 12 * year + month :=
    ⟨index / 12, index % 12, mod_lt _ (by decide), by omega⟩
  simp only at hday ⊢
  rw [monthLength_eq _ _ hmonth] at hday
  -- The same month of a later year.
  have hsame : ∀ i later, months * (first + i) = 12 * later → month ≠ 1 →
      day ≤ monthLength (12 * year + month + months * (first + i)) := by
    intro i later hlater hne
    have hindex : 12 * year + month + months * (first + i) = 12 * (year + later) + month := by
      omega
    rw [hindex, monthLength_eq _ _ hmonth, monthDays_of_ne hne _ (isLeap year)]
    exact hday
  by_cases hfebruary : month = 1
  · subst hfebruary
    have hbound : day ≤ 29 := by
      rw [monthDays] at hday
      split at hday <;> omega
    -- March, April or May.
    have hother : ∀ i later, months * (first + i) = 12 * later + months → 1 ≤ months →
        months ≤ 3 → day ≤ monthLength (12 * year + 1 + months * (first + i)) := by
      intro i later hlater hpos hle
      have hindex : 12 * year + 1 + months * (first + i) = 12 * (year + later) + (1 + months) := by
        omega
      have hthirty : ∀ leap, 29 ≤ monthDays leap (1 + months) := by
        intro leap
        obtain rfl | rfl | rfl : months = 1 ∨ months = 2 ∨ months = 3 := by omega
        all_goals exact le_of_ble_eq_true rfl
      rw [hindex, monthLength_eq _ _ (by omega)]
      exact hbound.trans (hthirty _)
    rcases hmonths with rfl | rfl | rfl | rfl
    · exact ⟨12 - (first + 11) % 12, by omega, by omega,
        hother _ ((first + (12 - (first + 11) % 12)) / 12) (by omega) (by omega) (by omega)⟩
    · exact ⟨6 - (first + 5) % 6, by omega, by omega,
        hother _ ((first + (6 - (first + 5) % 6)) / 6) (by omega) (by omega) (by omega)⟩
    · exact ⟨4 - (first + 3) % 4, by omega, by omega,
        hother _ ((first + (4 - (first + 3) % 4)) / 4) (by omega) (by omega) (by omega)⟩
    · obtain ⟨i, hi, hle, hleap⟩ := exists_leap (year + first)
      refine ⟨i, hi, by omega, ?_⟩
      have hindex : 12 * year + 1 + 12 * (first + i) = 12 * (year + first + i) + 1 := by omega
      rw [hindex, monthLength_eq _ _ (by decide), hleap]
      exact hbound
  · rcases hmonths with rfl | rfl | rfl | rfl
    · exact ⟨12 - first % 12, by omega, by omega,
        hsame _ ((first + (12 - first % 12)) / 12) (by omega) hfebruary⟩
    · exact ⟨6 - first % 6, by omega, by omega,
        hsame _ ((first + (6 - first % 6)) / 6) (by omega) hfebruary⟩
    · exact ⟨4 - first % 4, by omega, by omega,
        hsame _ ((first + (4 - first % 4)) / 4) (by omega) hfebruary⟩
    · exact ⟨1, by omega, by omega, hsame _ (first + 1) rfl hfebruary⟩

section Window

variable {current : Civil} {recurrence : Recurrence} {step : Step}

/-- Behind the start index the dates are after that of the horizon. -/
theorem InSeries.after_first {horizon : Date} {k : ℕ} {time : Civil}
    (hstep : recurrence.step = some step) (h : InSeries current recurrence step k time)
    (hlt : firstOccurrence current.date horizon step < k) :
    horizon.ordinal < time.date.ordinal := by
  have hpos := step_pos hstep
  have hdate := h.date_eq
  cases step with
  | days days =>
    simp only at hpos hdate
    rw [firstOccurrence] at hlt
    have hquotient : ((horizon.ordinal : ℤ) - current.date.ordinal) / days < k := by omega
    rw [Int.ediv_lt_iff_lt_mul (by omega), Int.mul_comm] at hquotient
    have hcast : ((days * k : ℕ) : ℤ) = days * k := Int.natCast_mul days k
    omega
  | months months =>
    simp only at hpos hdate
    rw [firstOccurrence] at hlt
    have hquotient : ((horizon.index : ℤ) - current.date.index) / months < k := by omega
    rw [Int.ediv_lt_iff_lt_mul (by omega), Int.mul_comm] at hquotient
    have hcast : ((months * k : ℕ) : ℤ) = months * k := Int.natCast_mul months k
    exact Date.ordinal_lt_of_index (by omega)

/-- Among a dozen steps there is one with a member of the series, within the supported years. -/
theorem exists_member (hstep : recurrence.step = some step) (first : ℕ)
    (hstop : ∀ i, first ≤ i → i ≤ first + 12 → candidate current recurrence step i ≠ .stop) :
    ∃ k time, first < k ∧ k ≤ first + 12 ∧ InSeries current recurrence step k time := by
  have hpos := step_pos hstep
  cases step with
  | days days =>
    simp only at hpos
    -- One of seven days in a row has the weekday.
    have hweek : ∀ weekday < 7, days = 1 → ∃ i, 1 ≤ i ∧ i ≤ 7 ∧
        (current.date.addDays (days * (first + i))).weekday = weekday := by
      intro weekday hweekday hdays
      subst hdays
      refine ⟨7 - (current.date.ordinal + first + 13 - weekday) % 7, by omega, by omega, ?_⟩
      rw [Date.weekday, Date.ordinal_addDays]
      omega
    obtain ⟨i, hi, hle, hgood⟩ : ∃ i, 1 ≤ i ∧ i ≤ 7 ∧
        (recurrence = .weekdays → (current.date.addDays (days * (first + i))).weekday < 5) ∧
        (recurrence = .weekends → 5 ≤ (current.date.addDays (days * (first + i))).weekday) := by
      by_cases hweekdays : recurrence = .weekdays
      · subst hweekdays
        obtain rfl : 1 = days := by simpa [Recurrence.step] using hstep
        obtain ⟨i, hi, hle, hday⟩ := hweek 0 (by decide) rfl
        refine ⟨i, hi, hle, fun _ => ?_, nofun⟩
        rw [hday]
        decide
      by_cases hweekends : recurrence = .weekends
      · subst hweekends
        obtain rfl : 1 = days := by simpa [Recurrence.step] using hstep
        obtain ⟨i, hi, hle, hday⟩ := hweek 5 (by decide) rfl
        refine ⟨i, hi, hle, nofun, fun _ => ?_⟩
        rw [hday]
      · exact ⟨1, le_refl _, by decide, fun h => absurd h hweekdays, fun h => absurd h hweekends⟩
    have hyear : (current.date.addDays (days * (first + i))).year ≤ 9999 := by
      by_contra hyear
      exact hstop (first + i) (by omega) (by omega)
        (by rw [candidate, if_pos (Nat.lt_of_not_le hyear)])
    exact ⟨first + i, ⟨current.date.addDays (days * (first + i)), current.time⟩, by omega,
      by omega, rfl, hyear, Date.ordinal_addDays _ _, hgood.1, hgood.2⟩
  | months months =>
    simp only at hpos
    obtain ⟨i, hi, hle, hday⟩ := exists_monthLength hpos current.date first
    have hkind : recurrence ≠ .weekdays ∧ recurrence ≠ .weekends := by
      constructor <;> rintro rfl <;> cases hstep
    have hyear : (current.date.index + months * (first + i)) / 12 ≤ 9999 := by
      by_contra hyear
      exact hstop (first + i) (by omega) (by omega)
        (by rw [candidate, if_pos (Nat.lt_of_not_le hyear)])
    exact ⟨first + i, ⟨⟨current.date.index + months * (first + i), current.date.day,
      le_add_right_of_le current.date.valid.1, current.date.valid.2.1, hday⟩, current.time⟩,
      by omega, by omega, rfl, hyear, ⟨rfl, rfl⟩, fun h => absurd h hkind.1,
      fun h => absurd h hkind.2⟩

end Window

end Preseed.Reminders
