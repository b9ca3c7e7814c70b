import OpenWhistle.Foundation.Calendar
import Mathlib.Data.Nat.Basic

/-!
# Dates in order

A month is counted from the start of the calendar, and a date is a month with a day in it. Its day
is the first day of the month and the days before it, so that dates are ordered like their days,
first by the month and then by the day, and a day has one date. Months later, the month is that many
later, and the day is cut off at the end of the month; so the order is kept, and from a month to the
same month of the next year there are at least 365 days.
-/

set_option autoImplicit false
set_option relaxedAutoImplicit false

namespace Calendar

/-! ### Months -/

/-- The length of a month, counted from the start of the calendar. -/
def lengthOf (index : ℕ) : ℕ := daysInMonth (index / 12) (index % 12 + 1)

/-- The first day of a month. -/
def firstDay (index : ℕ) : ℕ := daysBeforeYear (index / 12) + daysOfMonths (index / 12) (index % 12)

/-- The month of a date. -/
def Date.index (date : Date) : ℕ := 12 * date.year + (date.month - 1)

theorem div_succ (n k : ℕ) : (n + 1) / k = n / k + if (n + 1) % k = 0 then 1 else 0 := by
  rw [Nat.succ_div]
  simp only [Nat.dvd_iff_mod_eq_zero]

theorem daysBeforeYear_succ {year : ℕ} (hpos : 1 ≤ year) :
    daysBeforeYear (year + 1) = daysBeforeYear year + (365 + if isLeap year then 1 else 0) := by
  obtain ⟨before, rfl⟩ : ∃ before, year = before + 1 := ⟨year - 1, by omega⟩
  have hcenturies : before / 100 ≤ before / 4 := Nat.div_le_div_left (by decide) (by decide)
  have h100 : (before + 1) % 100 = 0 → (before + 1) % 4 = 0 := by omega
  have h400 : (before + 1) % 400 = 0 → (before + 1) % 100 = 0 := by omega
  unfold daysBeforeYear isLeap
  simp only [Nat.add_sub_cancel, decide_eq_true_eq]
  rw [div_succ before 4, div_succ before 100, div_succ before 400]
  generalize before / 4 = fours, before / 100 = hundreds, before / 400 = cycles at *
  by_cases h4 : (before + 1) % 4 = 0
  · by_cases hcentury : (before + 1) % 100 = 0
    · by_cases hcycle : (before + 1) % 400 = 0
      · simp [h4, hcentury, hcycle]
        omega
      · simp [h4, hcentury, hcycle]
        omega
    · have hcycle : (before + 1) % 400 ≠ 0 := fun h ↦ hcentury (h400 h)
      simp [h4, hcentury, hcycle]
      omega
  · have hcentury : (before + 1) % 100 ≠ 0 := fun h ↦ h4 (h100 h)
    have hcycle : (before + 1) % 400 ≠ 0 := fun h ↦ hcentury (h400 h)
    simp [h4, hcentury, hcycle]
    omega

/-- The months follow each other. -/
theorem firstDay_succ {index : ℕ} (hpos : 12 ≤ index) :
    firstDay (index + 1) = firstDay index + lengthOf index := by
  unfold firstDay lengthOf
  by_cases hlast : index % 12 = 11
  · have hyear : (index + 1) / 12 = index / 12 + 1 := by omega
    have hmonth : (index + 1) % 12 = 0 := by omega
    rw [hyear, hmonth, hlast, daysBeforeYear_succ (by omega), ← daysOfMonths_year]
    rw [daysOfMonths, daysOfMonths]
    omega
  · have hyear : (index + 1) / 12 = index / 12 := by omega
    have hmonth : (index + 1) % 12 = index % 12 + 1 := by omega
    rw [hyear, hmonth, daysOfMonths]
    omega

theorem lengthOf_pos (index : ℕ) : 1 ≤ lengthOf index := daysInMonth_pos _ _

theorem firstDay_add_length_le {index later : ℕ} (hpos : 12 ≤ index) (h : index < later) :
    firstDay index + lengthOf index ≤ firstDay later := by
  induction later, h using Nat.le_induction with
  | base => exact (firstDay_succ hpos).ge
  | succ later hle ih =>
    rw [firstDay_succ (by omega)]
    omega

/-- In another year, a month is as long, but for February. -/
theorem lengthOf_le_succ (index years : ℕ) : lengthOf (index + 12 * years) ≤ lengthOf index + 1 := by
  have hmonth : (index + 12 * years) % 12 = index % 12 := by omega
  unfold lengthOf
  rw [hmonth]
  unfold daysInMonth
  split_ifs <;> omega

/-- Where it is longer, it is a February with a leap day. -/
theorem february_of_lt {index years : ℕ} (h : lengthOf index < lengthOf (index + 12 * years)) :
    index % 12 = 1 ∧ lengthOf index = 28 := by
  have hmonth : (index + 12 * years) % 12 = index % 12 := by omega
  unfold lengthOf at *
  rw [hmonth] at h
  unfold daysInMonth at *
  split_ifs at * <;> omega

/-- The first months of two years are equally long, but for the leap day. -/
theorem daysOfMonths_le (year other months : ℕ) : daysOfMonths year months ≤
    daysOfMonths other months + if isLeap year ∧ 2 ≤ months then 1 else 0 := by
  induction months with
  | zero => exact Nat.zero_le _
  | succ months ih =>
    have hmonth : daysInMonth year (months + 1) ≤ daysInMonth other (months + 1) +
        if isLeap year ∧ months + 1 = 2 then 1 else 0 := by
      unfold daysInMonth
      split_ifs <;> simp_all
    rw [daysOfMonths, daysOfMonths]
    by_cases hleap : isLeap year = true
    · simp only [hleap, true_and] at ih hmonth ⊢
      split_ifs at ih hmonth ⊢ <;> omega
    · simp only [hleap, false_and, if_false, Bool.false_eq_true] at ih hmonth ⊢
      omega

/-- From a month to the same month of the next year there are at least 365 days. -/
theorem firstDay_year {index : ℕ} (hpos : 12 ≤ index) :
    firstDay index + 365 ≤ firstDay (index + 12) := by
  have hyear : (index + 12) / 12 = index / 12 + 1 := by omega
  have hmonth : (index + 12) % 12 = index % 12 := by omega
  have hmonths := daysOfMonths_le (index / 12) (index / 12 + 1) (index % 12)
  unfold firstDay
  rw [hyear, hmonth, daysBeforeYear_succ (by omega)]
  split_ifs at hmonths ⊢ <;> simp_all <;> omega

/-! ### Dates -/

theorem Date.index_pos (date : Date) : 12 ≤ date.index := by
  have hpos := date.year_pos
  unfold Date.index
  omega

theorem Date.index_div (date : Date) : date.index / 12 = date.year := by
  have hmonth := date.month_valid
  unfold Date.index
  omega

theorem Date.index_mod (date : Date) : date.index % 12 + 1 = date.month := by
  have hmonth := date.month_valid
  unfold Date.index
  omega

theorem Date.day_le (date : Date) : date.day ≤ lengthOf date.index := by
  rw [lengthOf, date.index_div, date.index_mod]
  exact date.day_valid.2

theorem Date.toDay_eq (date : Date) : date.toDay = firstDay date.index + (date.day - 1) := by
  have hmonth : date.index % 12 = date.month - 1 := by
    rw [← date.index_mod, Nat.add_sub_cancel]
  rw [Date.toDay, firstDay, date.index_div, hmonth]

/-- A day lies in one month. -/
theorem Date.ext_of_index {date other : Date} (hindex : date.index = other.index)
    (hday : date.day = other.day) : date = other := by
  have hyear : date.year = other.year := by rw [← date.index_div, hindex, other.index_div]
  have hmonth : date.month = other.month := by rw [← date.index_mod, hindex, other.index_mod]
  cases date
  cases other
  cases hyear
  cases hmonth
  cases hday
  rfl

/-- A date of an earlier month is earlier. -/
theorem Date.toDay_lt_of_index_lt {date other : Date} (h : date.index < other.index) :
    date.toDay < other.toDay := by
  have hnext := firstDay_add_length_le date.index_pos h
  have hday := date.day_le
  have hpos := date.day_valid.1
  rw [date.toDay_eq, other.toDay_eq]
  omega

/-- Dates are ordered like their days. -/
theorem Date.toDay_le_iff {date other : Date} : date.toDay ≤ other.toDay ↔
    date.index < other.index ∨ date.index = other.index ∧ date.day ≤ other.day := by
  have hpos := date.day_valid.1
  have hother := other.day_valid.1
  rcases lt_trichotomy date.index other.index with h | h | h
  · exact iff_of_true (toDay_lt_of_index_lt h).le (Or.inl h)
  · rw [date.toDay_eq, other.toDay_eq, h]
    omega
  · refine iff_of_false (not_le.mpr (toDay_lt_of_index_lt h)) ?_
    omega

theorem Date.toDay_inj {date other : Date} (h : date.toDay = other.toDay) : date = other := by
  have hle := toDay_le_iff.mp h.le
  have hge := toDay_le_iff.mp h.ge
  exact ext_of_index (by omega) (by omega)

/-- The days over in a year are those of the months before and those over in the month. -/
theorem monthFrom_days (year : ℕ) : ∀ left month rest, 1 ≤ month →
    daysOfMonths year ((monthFrom year left month rest).1 - 1) + (monthFrom year left month rest).2 =
      daysOfMonths year (month - 1) + rest := by
  intro left
  induction left with
  | zero => exact fun month rest _ ↦ rfl
  | succ left ih =>
    intro month rest hpos
    rw [monthFrom]
    split_ifs with hlt
    · rfl
    · obtain ⟨before, rfl⟩ : ∃ before, month = before + 1 := ⟨month - 1, by omega⟩
      rw [ih (before + 1 + 1) _ (by omega), Nat.add_sub_cancel, Nat.add_sub_cancel, daysOfMonths]
      omega

theorem yearOfDay_days (day : ℕ) :
    daysBeforeYear (yearOfDay day).1 + (yearOfDay day).2 = day := by
  have hcenturies : min 3 (day % 146097 / 36524) ≤ 3 := min_le_left _ _
  have hin100 : day % 146097 - 36524 * min 3 (day % 146097 / 36524) ≤ 36524 := by omega
  have hrest : day % 146097 = 36524 * min 3 (day % 146097 / 36524) +
    (day % 146097 - 36524 * min 3 (day % 146097 / 36524)) := by omega
  simp only [yearOfDay, daysBeforeYear, Nat.add_sub_cancel]
  generalize min 3 (day % 146097 / 36524) = centuries at *
  generalize day % 146097 - 36524 * centuries = in100 at *
  have hyears : min 3 (in100 % 1461 / 365) ≤ 3 := min_le_left _ _
  have hin4 : in100 % 1461 = 365 * min 3 (in100 % 1461 / 365) +
    (in100 % 1461 - 365 * min 3 (in100 % 1461 / 365)) := by omega
  generalize min 3 (in100 % 1461 / 365) = years at *
  have hfours : in100 / 1461 ≤ 24 := by omega
  have h4 : (400 * (day / 146097) + 100 * centuries + 4 * (in100 / 1461) + years) / 4 =
    100 * (day / 146097) + 25 * centuries + in100 / 1461 := by omega
  have h100 : (400 * (day / 146097) + 100 * centuries + 4 * (in100 / 1461) + years) / 100 =
    4 * (day / 146097) + centuries := by omega
  have h400 : (400 * (day / 146097) + 100 * centuries + 4 * (in100 / 1461) + years) / 400 =
    day / 146097 := by omega
  rw [h4, h100, h400]
  omega

theorem toDay_ofDay (day : ℕ) : (ofDay day).toDay = day := by
  have hmonth := monthFrom_days (yearOfDay day).1 11 1 (yearOfDay day).2 (le_refl 1)
  rw [Nat.sub_self, daysOfMonths, Nat.zero_add] at hmonth
  have hyear := yearOfDay_days day
  change daysBeforeYear (yearOfDay day).1 +
    daysOfMonths (yearOfDay day).1 ((monthFrom (yearOfDay day).1 11 1 (yearOfDay day).2).1 - 1) +
      ((monthFrom (yearOfDay day).1 11 1 (yearOfDay day).2).2 + 1 - 1) = day
  rw [Nat.add_sub_cancel, Nat.add_assoc, hmonth, hyear]

theorem ofDay_toDay (date : Date) : ofDay date.toDay = date := Date.toDay_inj (toDay_ofDay _)

/-! ### Months later -/

theorem Date.index_addMonths (date : Date) (months : ℕ) :
    (date.addMonths months).index = date.index + months := by
  change 12 * (date.year + (date.month - 1 + months) / 12) +
    ((date.month - 1 + months) % 12 + 1 - 1) = 12 * date.year + (date.month - 1) + months
  omega

theorem Date.day_addMonths (date : Date) (months : ℕ) :
    (date.addMonths months).day = min date.day (lengthOf (date.index + months)) := by
  rw [lengthOf, ← index_addMonths, index_div, index_mod]
  rfl

/-- Months later, the order is the same. -/
theorem Date.addMonths_mono {date other : Date} (h : date.toDay ≤ other.toDay) (months : ℕ) :
    (date.addMonths months).toDay ≤ (other.addMonths months).toDay := by
  have hle := toDay_le_iff.mp h
  rw [toDay_le_iff, index_addMonths, index_addMonths, day_addMonths, day_addMonths]
  rcases hle with hlt | ⟨heq, hday⟩
  · exact Or.inl (Nat.add_lt_add_right hlt months)
  · rw [heq]
    exact Or.inr ⟨rfl, le_min ((min_le_left _ _).trans hday) (min_le_right _ _)⟩

/-! ### Years -/

/-- The day of a month, cut off at its end. -/
def clampedDay (index day : ℕ) : ℕ := firstDay index + (min day (lengthOf index) - 1)

theorem clampedDay_lt {index later : ℕ} (day other : ℕ) (hpos : 12 ≤ index) (h : index < later) :
    clampedDay index day < clampedDay later other := by
  have hnext := firstDay_add_length_le hpos h
  have hlength := lengthOf_pos index
  unfold clampedDay
  omega

theorem clampedDay_mono (index : ℕ) {day other : ℕ} (h : day ≤ other) :
    clampedDay index day ≤ clampedDay index other := by
  unfold clampedDay
  omega

/-- From a day to the same day of the next year there are at least 365 days, also where one of the
two is cut off. -/
theorem clampedDay_year {index : ℕ} (day : ℕ) (hpos : 12 ≤ index) :
    clampedDay index day + 365 ≤ clampedDay (index + 12) day := by
  have hfirst := firstDay_year hpos
  have hnext := firstDay_year (hpos.trans (Nat.le_succ index))
  rw [firstDay_succ hpos, Nat.succ_add, firstDay_succ (by omega)] at hnext
  unfold clampedDay
  omega

theorem clampedDay_years {index : ℕ} (day years : ℕ) (hpos : 12 ≤ index) :
    clampedDay index day + 365 * years ≤ clampedDay (index + 12 * years) day := by
  induction years with
  | zero => exact le_rfl
  | succ years ih =>
    have hyear := clampedDay_year day (hpos.trans (Nat.le_add_right index (12 * years)))
    rw [Nat.mul_succ, Nat.mul_succ, ← Nat.add_assoc, ← Nat.add_assoc]
    omega

theorem Date.toDay_eq_clampedDay (date : Date) : date.toDay = clampedDay date.index date.day := by
  rw [date.toDay_eq, clampedDay, min_eq_left date.day_le]

end Calendar
