import Mathlib.Data.Nat.Notation
import Mathlib.Order.Defs.LinearOrder
import Mathlib.Order.Lattice
import Mathlib.Tactic.SplitIfs

/-!
# The calendar

Days are counted from 1 January of the year 1. A date is a year with a month and a day that the year
has, so that a date that does not exist cannot be written down. The date of a day is found from the
cycles of the calendar, 400, 100, 4 and 1 years long, and from the lengths of the months. Adding
months goes to the same day of the later month, or to its last.
-/

set_option autoImplicit false
set_option relaxedAutoImplicit false

namespace Calendar

def isLeap (year : ℕ) : Bool := decide (year % 4 = 0 ∧ (year % 100 ≠ 0 ∨ year % 400 = 0))

def daysInMonth (year month : ℕ) : ℕ :=
  if month = 2 then if isLeap year then 29 else 28
  else if month = 4 ∨ month = 6 ∨ month = 9 ∨ month = 11 then 30
  else 31

structure Date where
  year : ℕ
  month : ℕ
  day : ℕ
  year_pos : 1 ≤ year
  month_valid : 1 ≤ month ∧ month ≤ 12
  day_valid : 1 ≤ day ∧ day ≤ daysInMonth year month

/-! ### Days and dates -/

/-- The days of all years before this one. -/
def daysBeforeYear (year : ℕ) : ℕ :=
  365 * (year - 1) + (year - 1) / 4 - (year - 1) / 100 + (year - 1) / 400

/-- The days of the first months of a year. -/
def daysOfMonths (year : ℕ) : (months : ℕ) → ℕ
  | 0 => 0
  | months + 1 => daysOfMonths year months + daysInMonth year (months + 1)

/-- The number of a date's day. -/
def Date.toDay (date : Date) : ℕ :=
  daysBeforeYear date.year + daysOfMonths date.year (date.month - 1) + (date.day - 1)

/-- The year of a day, and how many of its days are over. -/
def yearOfDay (day : ℕ) : ℕ × ℕ :=
  let in400 := day % 146097
  let centuries := min 3 (in400 / 36524)
  let in100 := in400 - 36524 * centuries
  let in4 := in100 % 1461
  let years := min 3 (in4 / 365)
  (400 * (day / 146097) + 100 * centuries + 4 * (in100 / 1461) + years + 1, in4 - 365 * years)

/-- The month of a day of a year, and how many of its days are over, counted from the month that is
given, with that many months to follow. -/
def monthFrom (year : ℕ) : (left month rest : ℕ) → ℕ × ℕ
  | 0, month, rest => (month, rest)
  | left + 1, month, rest =>
    if rest < daysInMonth year month then (month, rest)
    else monthFrom year left (month + 1) (rest - daysInMonth year month)

theorem yearOfDay_lt (day : ℕ) :
    (yearOfDay day).2 < 365 + if isLeap (yearOfDay day).1 then 1 else 0 := by
  by_cases hrest : (yearOfDay day).2 < 365
  · exact lt_of_lt_of_le hrest (Nat.le_add_right 365 _)
  · -- the last day of four years, and of a century only in the fourth one
    have hlast : (yearOfDay day).2 = 365 ∧ isLeap (yearOfDay day).1 = true := by
      rw [isLeap, decide_eq_true_eq]
      simp only [yearOfDay] at hrest ⊢
      omega
    rw [hlast.1, hlast.2]
    decide

/-- The lengths of the months add up to that of the year. -/
theorem daysOfMonths_year (year : ℕ) :
    daysOfMonths year 12 = 365 + if isLeap year then 1 else 0 := by
  simp only [daysOfMonths, daysInMonth]
  cases isLeap year <;> rfl

theorem daysInMonth_pos (year month : ℕ) : 1 ≤ daysInMonth year month := by
  unfold daysInMonth
  split_ifs <;> omega

/-- The month that is found has the day. -/
theorem monthFrom_valid (year : ℕ) : ∀ left month rest,
    daysOfMonths year (month - 1) + rest < daysOfMonths year (month + left) → 1 ≤ month →
      month ≤ (monthFrom year left month rest).1 ∧
        (monthFrom year left month rest).1 ≤ month + left ∧
        (monthFrom year left month rest).2 <
          daysInMonth year (monthFrom year left month rest).1 := by
  intro left
  induction left with
  | zero =>
    intro month rest hrest hpos
    obtain ⟨before, rfl⟩ : ∃ before, month = before + 1 := ⟨month - 1, by omega⟩
    simp only [Nat.add_sub_cancel, daysOfMonths] at hrest
    refine ⟨le_refl _, le_refl _, ?_⟩
    simp only [monthFrom]
    omega
  | succ left ih =>
    intro month rest hrest hpos
    obtain ⟨before, rfl⟩ : ∃ before, month = before + 1 := ⟨month - 1, by omega⟩
    simp only [Nat.add_sub_cancel] at hrest
    rw [monthFrom]
    split_ifs with hlt
    · exact ⟨le_refl _, by omega, hlt⟩
    · have hnext := ih (before + 1 + 1) (rest - daysInMonth year (before + 1))
      simp only [Nat.add_sub_cancel, daysOfMonths] at hnext
      have hlength : before + 1 + 1 + left = before + 1 + (left + 1) := by omega
      rw [hlength] at hnext
      obtain ⟨hlow, hhigh, hday⟩ := hnext (by omega) (by omega)
      exact ⟨by omega, hhigh, hday⟩

/-- The date of a day. -/
def ofDay (day : ℕ) : Date :=
  have hmonth := monthFrom_valid (yearOfDay day).1 11 1 (yearOfDay day).2
    (by
      have hlt := yearOfDay_lt day
      rw [← daysOfMonths_year] at hlt
      simpa [daysOfMonths] using hlt)
    (le_refl 1)
  { year := (yearOfDay day).1
    month := (monthFrom (yearOfDay day).1 11 1 (yearOfDay day).2).1
    day := (monthFrom (yearOfDay day).1 11 1 (yearOfDay day).2).2 + 1
    year_pos := by simp [yearOfDay]
    month_valid := ⟨hmonth.1, hmonth.2.1⟩
    day_valid := ⟨Nat.le_add_left 1 _, hmonth.2.2⟩ }

/-! ### Months later -/

/-- The date some calendar months later; a day the month lacks becomes its last. -/
def Date.addMonths (date : Date) (months : ℕ) : Date where
  year := date.year + (date.month - 1 + months) / 12
  month := (date.month - 1 + months) % 12 + 1
  day := min date.day (daysInMonth (date.year + (date.month - 1 + months) / 12)
    ((date.month - 1 + months) % 12 + 1))
  year_pos := le_trans date.year_pos (Nat.le_add_right _ _)
  month_valid := ⟨Nat.le_add_left 1 _, Nat.mod_lt _ (by decide)⟩
  day_valid := ⟨le_min date.day_valid.1 (daysInMonth_pos _ _), min_le_right _ _⟩

end Calendar
