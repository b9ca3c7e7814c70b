import OpenWhistle.Records.Statute
import Mathlib.Data.Int.Notation

/-!
# The end of retention

A closed report is deleted once it was closed before the cutoff. Of the days it is kept, whole years
of 365 count as calendar years, taken off the present time; the rest are days.

Taking years off and adding them are not inverse to each other: from 29 February both go to the
28th. The cutoff is right all the same, late by a day at most. It moves back only from a time on 28
February to an earlier time of the day on the 29th, where both days are cut off to one.
-/

set_option autoImplicit false
set_option relaxedAutoImplicit false

namespace OpenWhistle.Cases

open Calendar
open Records (dateOf toDay_dateOf)
open Threads (microsecondsPerDay)

/-! ### The code -/

/-- The last year of a date. -/
def maxYear : ℕ := 9999

/-- The date some months later, or earlier; a day the month lacks becomes its last. There is none
where the year is out of range. -/
def plusMonths (date : Date) (months : ℤ) : Option Date :=
  let monthIndex : ℤ := date.month - 1 + months
  let year : ℤ := date.year + monthIndex / 12
  let month : ℕ := (monthIndex % 12).toNat + 1
  if h : 1 ≤ year ∧ year ≤ maxYear then some
    { year := year.toNat
      month := month
      day := min date.day (daysInMonth year.toNat month)
      year_pos := by omega
      month_valid := by omega
      day_valid := ⟨le_min date.day_valid.1 (daysInMonth_pos _ _), min_le_right _ _⟩ }
  else none

/-- `add_months`. -/
def addMonths (moment : ℕ) (months : ℤ) : Option ℕ :=
  (plusMonths (dateOf moment) months).map fun date ↦
    date.toDay * microsecondsPerDay + moment % microsecondsPerDay

/-- A time some days earlier, if the calendar goes that far. -/
def minusDays (moment days : ℕ) : Option ℕ :=
  if days * microsecondsPerDay ≤ moment then some (moment - days * microsecondsPerDay) else none

/-- `cutoff`. -/
def cutoff (now days : ℕ) : Option ℕ :=
  (addMonths now (-12 * (days / 365 : ℕ))).bind fun moment ↦ minusDays moment (days % 365)

/-! ### Months earlier and later -/

theorem plusMonths_eq_some {date later : Date} {months : ℤ} (h : plusMonths date months = some later) :
    (later.index : ℤ) = date.index + months ∧ later.day = min date.day (lengthOf later.index) := by
  unfold plusMonths at h
  dsimp only at h
  split_ifs at h with hyear
  obtain rfl := Option.some.inj h
  have hvalid := date.month_valid
  refine ⟨?_, ?_⟩
  · unfold Date.index
    dsimp only
    omega
  · rw [lengthOf, Date.index_div, Date.index_mod]

theorem exists_plusMonths (date : Date) (months : ℤ) (hlow : 12 ≤ date.index + months)
    (hhigh : date.index + months < 12 * (maxYear + 1)) :
    ∃ later, plusMonths date months = some later := by
  have hvalid := date.month_valid
  have hyear : 1 ≤ (date.year : ℤ) + (date.month - 1 + months) / 12 ∧
      (date.year : ℤ) + (date.month - 1 + months) / 12 ≤ maxYear := by
    unfold Date.index at hlow hhigh
    omega
  unfold plusMonths
  dsimp only
  rw [dif_pos hyear]
  exact ⟨_, rfl⟩

/-- A time is a month, a day in it, and a time of the day. -/
theorem eq_clampedDay (moment : ℕ) :
    moment = clampedDay (dateOf moment).index (dateOf moment).day * microsecondsPerDay +
      moment % microsecondsPerDay := by
  have hday := Nat.div_add_mod moment microsecondsPerDay
  rw [← Date.toDay_eq_clampedDay, toDay_dateOf, Nat.mul_comm]
  exact hday.symm

theorem addMonths_eq_some {moment result : ℕ} {months : ℤ} (h : addMonths moment months = some result) :
    ∃ index : ℕ, (index : ℤ) = (dateOf moment).index + months ∧ 12 ≤ index ∧
      result = clampedDay index (dateOf moment).day * microsecondsPerDay +
        moment % microsecondsPerDay := by
  obtain ⟨later, hlater, rfl⟩ := Option.map_eq_some_iff.mp h
  obtain ⟨hindex, hday⟩ := plusMonths_eq_some hlater
  refine ⟨later.index, hindex, later.index_pos, ?_⟩
  have hlength := later.day_le
  rw [later.toDay_eq, clampedDay, hday]

theorem addMonths_of_lt {moment months : ℕ}
    (hrange : (dateOf moment).index + months < 12 * (maxYear + 1)) : addMonths moment months =
      some (clampedDay ((dateOf moment).index + months) (dateOf moment).day * microsecondsPerDay +
        moment % microsecondsPerDay) := by
  have hpos := (dateOf moment).index_pos
  obtain ⟨later, hlater⟩ := exists_plusMonths (dateOf moment) months (by omega) (by omega)
  have hsome : addMonths moment months =
      some (later.toDay * microsecondsPerDay + moment % microsecondsPerDay) :=
    congrArg (Option.map _) hlater
  obtain ⟨index, hindex, -, hresult⟩ := addMonths_eq_some hsome
  obtain rfl : index = (dateOf moment).index + months := by omega
  rw [hsome, hresult]

/-- The cutoff and the days that are no whole years: the time years ago. -/
theorem cutoff_eq_some {now days cut : ℕ} (h : cutoff now days = some cut) :
    ∃ index : ℕ, (dateOf now).index = index + 12 * (days / 365) ∧ 12 ≤ index ∧
      cut + days % 365 * microsecondsPerDay =
        clampedDay index (dateOf now).day * microsecondsPerDay + now % microsecondsPerDay := by
  obtain ⟨moment, hmoment, hdays⟩ := Option.bind_eq_some_iff.mp h
  obtain ⟨index, hindex, hpos, rfl⟩ := addMonths_eq_some hmoment
  unfold minusDays at hdays
  split_ifs at hdays with hle
  obtain rfl := Option.some.inj hdays
  exact ⟨index, by omega, hpos, Nat.sub_add_cancel hle⟩

/-! ### The law -/

section Law

variable {closed now days cut : ℕ}

/-- What was closed before the cutoff has been kept for the days, and for the years and days. -/
theorem kept_of_lt_cutoff (hcut : cutoff now days = some cut) (hnow : (dateOf now).year ≤ maxYear)
    (hclosed : closed < cut) :
    closed + days * microsecondsPerDay ≤ now ∧
      ∃ anniversary, addMonths (closed + days % 365 * microsecondsPerDay) (12 * (days / 365 : ℕ)) =
        some anniversary ∧ anniversary ≤ now := by
  obtain ⟨index, hindex, hpos, hsum⟩ := cutoff_eq_some hcut
  have hdays := Nat.div_add_mod days 365
  have hdayLe := (dateOf now).day_le
  have hyears := clampedDay_years (dateOf now).day (days / 365) hpos
  have hnowEq := eq_clampedDay now
  rw [hindex] at hnowEq hdayLe
  refine ⟨?_, ?_⟩
  · unfold microsecondsPerDay at *
    omega
  · generalize hstart : closed + days % 365 * microsecondsPerDay = start
    have hlt : start < cut + days % 365 * microsecondsPerDay := by omega
    have hstartEq := eq_clampedDay start
    have hstartDay := (dateOf start).day_le
    have htime : start % microsecondsPerDay < microsecondsPerDay := Nat.mod_lt _ (by decide)
    have hnowTime : now % microsecondsPerDay < microsecondsPerDay := Nat.mod_lt _ (by decide)
    -- the month of the start is not behind that of the cutoff
    have hmonth : (dateOf start).index ≤ index := by
      by_contra hbehind
      have hbefore := clampedDay_lt (dateOf now).day (dateOf start).day hpos (not_le.mp hbehind)
      unfold microsecondsPerDay at *
      omega
    have hrange : (dateOf now).index < 12 * (maxYear + 1) := by
      have hvalid := (dateOf now).month_valid
      unfold Date.index
      omega
    have hmonths : (12 * (days / 365 : ℕ) : ℤ) = (12 * (days / 365) : ℕ) := by omega
    rw [hmonths, addMonths_of_lt (by omega)]
    refine ⟨_, rfl, ?_⟩
    rcases hmonth.lt_or_eq with hearlier | hsame
    · have hstartPos := (dateOf start).index_pos
      have hbefore := clampedDay_lt (dateOf start).day (dateOf now).day (by omega)
        (show (dateOf start).index + 12 * (days / 365) < index + 12 * (days / 365) by omega)
      unfold microsecondsPerDay at *
      omega
    · rw [hsame] at hstartEq hstartDay ⊢
      unfold clampedDay microsecondsPerDay at *
      omega

/-- More than a day after the years and days, what was closed is before the cutoff. -/
theorem lt_cutoff_of_late (hcut : cutoff now days = some cut) {anniversary : ℕ}
    (hanniversary : addMonths (closed + days % 365 * microsecondsPerDay) (12 * (days / 365 : ℕ)) =
      some anniversary) (hlate : anniversary + microsecondsPerDay < now) : closed < cut := by
  obtain ⟨index, hindex, hpos, hsum⟩ := cutoff_eq_some hcut
  generalize hstart : closed + days % 365 * microsecondsPerDay = start at hanniversary
  obtain ⟨later, hlater, hlaterPos, rfl⟩ := addMonths_eq_some hanniversary
  have hlaterEq : later = (dateOf start).index + 12 * (days / 365) := by omega
  have hnowEq := eq_clampedDay now
  have hnowDay := (dateOf now).day_le
  have hstartEq := eq_clampedDay start
  have hstartDay := (dateOf start).day_le
  have htime : start % microsecondsPerDay < microsecondsPerDay := Nat.mod_lt _ (by decide)
  have hnowTime : now % microsecondsPerDay < microsecondsPerDay := Nat.mod_lt _ (by decide)
  rw [hindex] at hnowEq hnowDay
  by_contra hnot
  have hle : cut + days % 365 * microsecondsPerDay ≤ start := by omega
  rcases lt_trichotomy index (dateOf start).index with hbefore | hsame | hafter
  · have hday := clampedDay_lt (dateOf now).day (dateOf start).day (by omega)
      (show index + 12 * (days / 365) < later by omega)
    unfold microsecondsPerDay at *
    omega
  · -- one of the two months may be a February that is a day longer
    have hlength := lengthOf_le_succ index (days / 365)
    rw [← hsame] at hlaterEq hstartEq hstartDay
    rw [hlaterEq] at hlate
    unfold clampedDay microsecondsPerDay at *
    omega
  · have hday := clampedDay_lt (dateOf start).day (dateOf now).day (dateOf start).index_pos hafter
    unfold microsecondsPerDay at *
    omega

/-- More days, and the cutoff is not later. -/
theorem cutoff_antitone (hcut : cutoff now days = some cut) {more earlier : ℕ} (hmore : days ≤ more)
    (hearlier : cutoff now more = some earlier) : earlier ≤ cut := by
  obtain ⟨index, hindex, hpos, hsum⟩ := cutoff_eq_some hcut
  obtain ⟨other, hother, hotherPos, hotherSum⟩ := cutoff_eq_some hearlier
  have hquotient : days / 365 ≤ more / 365 := Nat.div_le_div_right hmore
  obtain ⟨years, hyears⟩ := Nat.exists_eq_add_of_le hquotient
  have hindexEq : index = other + 12 * years := by omega
  have hday := clampedDay_years (dateOf now).day years hotherPos
  have hdays := Nat.div_add_mod days 365
  have hmoreDays := Nat.div_add_mod more 365
  rw [hindexEq] at hsum
  unfold microsecondsPerDay at *
  omega

/-- From a time on 28 February to an earlier time of the day on the 29th. -/
def IntoLeapDay (now later : ℕ) : Prop :=
  (dateOf now).year = (dateOf later).year ∧ (dateOf now).month = 2 ∧ (dateOf now).day = 28 ∧
    (dateOf later).month = 2 ∧ (dateOf later).day = 29 ∧
    later % microsecondsPerDay < now % microsecondsPerDay

/-- Later, and the cutoff is not earlier, but on a leap day by less than a day. -/
theorem cutoff_mono (hcut : cutoff now days = some cut) {later laterCut : ℕ} (hlater : now ≤ later)
    (hlaterCut : cutoff later days = some laterCut) :
    cut ≤ laterCut ∨ IntoLeapDay now later ∧ cut < laterCut + microsecondsPerDay := by
  obtain ⟨index, hindex, hpos, hsum⟩ := cutoff_eq_some hcut
  obtain ⟨other, hother, hotherPos, hotherSum⟩ := cutoff_eq_some hlaterCut
  have hdays : (dateOf now).toDay ≤ (dateOf later).toDay := by
    rw [toDay_dateOf, toDay_dateOf]
    exact Nat.div_le_div_right hlater
  have htime : later % microsecondsPerDay < microsecondsPerDay := Nat.mod_lt _ (by decide)
  have hnowTime : now % microsecondsPerDay < microsecondsPerDay := Nat.mod_lt _ (by decide)
  rcases Date.toDay_le_iff.mp hdays with hmonth | ⟨hmonth, hday⟩
  · have hbefore := clampedDay_lt (dateOf now).day (dateOf later).day hpos
      (show index < other by omega)
    unfold microsecondsPerDay at *
    omega
  · obtain rfl : index = other := by omega
    rcases (clampedDay_mono index hday).lt_or_eq with hlt | hsame
    · unfold microsecondsPerDay at *
      omega
    · by_cases hclock : now % microsecondsPerDay ≤ later % microsecondsPerDay
      · unfold microsecondsPerDay at *
        omega
      · -- two days are cut off to one, so the later of them is a leap day
        have hnowDay := (dateOf now).day_le
        have hlaterDay := (dateOf later).day_le
        have hlength := lengthOf_le_succ index (days / 365)
        have hne : (dateOf now).day ≠ (dateOf later).day := by
          intro hday
          have hnowEq := eq_clampedDay now
          have hlaterEq := eq_clampedDay later
          rw [← hmonth, ← hday] at hlaterEq
          omega
        rw [← hmonth, hindex] at hlaterDay
        have hcut : lengthOf index < lengthOf (index + 12 * (days / 365)) ∧
            (dateOf now).day = lengthOf index ∧ (dateOf later).day = lengthOf index + 1 := by
          have hfirst := (dateOf now).day_valid.1
          have hnonempty := lengthOf_pos index
          unfold clampedDay at hsame
          omega
        obtain ⟨hlonger, hnowLast, hlaterLast⟩ := hcut
        obtain ⟨hfebruary, hshort⟩ := february_of_lt hlonger
        have hnowMonth := (dateOf now).index_mod
        have hlaterMonth := (dateOf later).index_mod
        have hyear : (dateOf now).year = (dateOf later).year := by
          rw [← Date.index_div, ← Date.index_div, hmonth]
        refine Or.inr ⟨⟨hyear, ?_, ?_, ?_, ?_, not_le.mp hclock⟩, ?_⟩
        · omega
        · omega
        · omega
        · omega
        · unfold microsecondsPerDay at *
          omega

/-- The cutoff is never early and at most a day late; more days never make it later, and a later
time makes it earlier only into a leap day, by less than a day. -/
theorem cutoff_is_never_early (hcut : cutoff now days = some cut)
    (hnow : (dateOf now).year ≤ maxYear) :
    (∀ closed, closed < cut → closed + days * microsecondsPerDay ≤ now ∧
      ∃ anniversary, addMonths (closed + days % 365 * microsecondsPerDay) (12 * (days / 365 : ℕ)) =
        some anniversary ∧ anniversary ≤ now) ∧
    (∀ closed anniversary,
      addMonths (closed + days % 365 * microsecondsPerDay) (12 * (days / 365 : ℕ)) =
        some anniversary → anniversary + microsecondsPerDay < now → closed < cut) ∧
    (∀ more earlier, days ≤ more → cutoff now more = some earlier → earlier ≤ cut) ∧
    ∀ later laterCut, now ≤ later → cutoff later days = some laterCut →
      cut ≤ laterCut ∨ IntoLeapDay now later ∧ cut < laterCut + microsecondsPerDay :=
  ⟨fun _ hclosed ↦ kept_of_lt_cutoff hcut hnow hclosed,
    fun _ _ hanniversary hlate ↦ lt_cutoff_of_late hcut hanniversary hlate,
    fun _ _ hmore hearlier ↦ cutoff_antitone hcut hmore hearlier,
    fun _ _ hlater hlaterCut ↦ cutoff_mono hcut hlater hlaterCut⟩

end Law

/-- Noon of 28 February 2028, and the cutoff a year and a day earlier. -/
def noonBeforeLeapDay : ℕ := 740404 * microsecondsPerDay + 43200000000

theorem cutoff_at_noon_is_never_early :
    (∀ closed, closed < 740038 * microsecondsPerDay + 43200000000 →
      closed + 366 * microsecondsPerDay ≤ noonBeforeLeapDay ∧
      ∃ anniversary, addMonths (closed + 366 % 365 * microsecondsPerDay) (12 * (366 / 365 : ℕ)) =
        some anniversary ∧ anniversary ≤ noonBeforeLeapDay) ∧
    (∀ closed anniversary,
      addMonths (closed + 366 % 365 * microsecondsPerDay) (12 * (366 / 365 : ℕ)) =
        some anniversary → anniversary + microsecondsPerDay < noonBeforeLeapDay →
          closed < 740038 * microsecondsPerDay + 43200000000) ∧
    (∀ more earlier, 366 ≤ more → cutoff noonBeforeLeapDay more = some earlier →
      earlier ≤ 740038 * microsecondsPerDay + 43200000000) ∧
    ∀ later laterCut, noonBeforeLeapDay ≤ later → cutoff later 366 = some laterCut →
      740038 * microsecondsPerDay + 43200000000 ≤ laterCut ∨ IntoLeapDay noonBeforeLeapDay later ∧
        740038 * microsecondsPerDay + 43200000000 < laterCut + microsecondsPerDay :=
  cutoff_is_never_early (by decide +kernel) (by decide +kernel)

/-- Thirteen hours later, on 29 February, the cutoff of a year is eleven hours earlier. -/
theorem cutoff_moves_back_on_a_leap_day :
    ¬∀ now later days cut laterCut, now ≤ later → cutoff now days = some cut →
      cutoff later days = some laterCut → cut ≤ laterCut := by
  intro h
  have hmoves := h noonBeforeLeapDay (740405 * microsecondsPerDay + 3600000000) 365
    (740039 * microsecondsPerDay + 43200000000) (740039 * microsecondsPerDay + 3600000000)
    (by decide +kernel) (by decide +kernel) (by decide +kernel)
  exact absurd hmoves (by decide +kernel)

end OpenWhistle.Cases
