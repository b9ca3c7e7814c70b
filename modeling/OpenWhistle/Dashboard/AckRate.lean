import OpenWhistle.Records.Statute
import Mathlib.Algebra.Order.Floor.Ring
import Mathlib.Data.Rat.Floor

/-!
# The rate of timely acknowledgements

The statistic counts the reports that were acknowledged in time among those whose seven days are
decided. It compares times with the half-open interval of eight days from receipt; the case page
compares them with the last microsecond of the seventh day. Receipt is stored as the day, and there
the two are the same rule.

The rate is a quotient of floating point numbers, of which no more is needed than that rounding
keeps the order and that whole numbers up to a hundred are exact.
-/

set_option autoImplicit false
set_option relaxedAutoImplicit false

namespace OpenWhistle.Dashboard

open Threads (microsecondsPerDay dayFloor lastOfDay)
open Records (ackDays)

/-! ### The case page -/

def ackDue (submittedAt : ℕ) : ℕ := lastOfDay (submittedAt + ackDays * microsecondsPerDay)

def ackOnTime (submittedAt : ℕ) : Option ℕ → Bool
  | none => false
  | some acknowledgedAt => decide (acknowledgedAt ≤ ackDue submittedAt)

inductive State
  | done
  | ok
  | warning
  | overdue
  deriving DecidableEq

structure Deadline where
  state : State
  due : ℕ
  days : ℤ

def ackWarnFromDay : ℤ := 5

def ackStatus (submittedAt : ℕ) (acknowledgedAt : Option ℕ) (now : ℕ) : Deadline :=
  let due := ackDue submittedAt
  let day : ℤ := ((now : ℤ) - submittedAt) / microsecondsPerDay
  if acknowledgedAt.isSome then ⟨.done, due, day⟩
  else if due < now then ⟨.overdue, due, day⟩
  else ⟨if ackWarnFromDay ≤ day then .warning else .ok, due, day⟩

/-! ### The statistic -/

/-- The times of a report. -/
structure Times where
  submittedAt : ℕ
  acknowledgedAt : Option ℕ

/-- `ack_window`. The database adds the days in the time zone of its session, which is UTC: there each
has 24 hours. -/
def ackWindow : ℕ := (ackDays + 1) * microsecondsPerDay

def isDecided (now : ℕ) (times : Times) : Bool :=
  times.acknowledgedAt.isSome || decide (times.submittedAt + ackWindow ≤ now)

/-- A comparison with NULL does not hold. -/
def isOnTime (times : Times) : Bool :=
  times.acknowledgedAt.any fun acknowledgedAt ↦ decide (acknowledgedAt < times.submittedAt + ackWindow)

/-- Rounding to a floating point number. -/
structure Rounding where
  float : ℚ → ℚ
  mono : Monotone float
  zero : float 0 = 0
  one : float 1 = 1
  hundred : float 100 = 100

/-- `round`: to the nearest whole number, and to the even one of two. -/
def roundHalfEven (q : ℚ) : ℤ :=
  if q - ⌊q⌋ < 1 / 2 then ⌊q⌋
  else if 1 / 2 < q - ⌊q⌋ then ⌊q⌋ + 1
  else if ⌊q⌋ % 2 = 0 then ⌊q⌋ else ⌊q⌋ + 1

structure AckStats where
  total : ℕ
  decided : ℕ
  onTime : ℕ
  /-- `sla_7day_rate`. -/
  rate : Option ℤ

/-- `get_dashboard_stats`, of the acknowledgements. -/
def getDashboardStats (rounding : Rounding) (reports : List Times) (now : ℕ) : AckStats :=
  let decided := reports.countP (isDecided now)
  let onTime := reports.countP isOnTime
  { total := reports.length
    decided := decided
    onTime := onTime
    rate :=
      if decided ≠ 0 then
        some (roundHalfEven (rounding.float (rounding.float ((onTime : ℚ) / decided) * 100)))
      else none }

/-! ### One rule -/

/-- Received at the start of a day, the seven days end with the eighth. -/
theorem lt_window_iff {submittedAt : ℕ} (hmidnight : submittedAt % microsecondsPerDay = 0)
    (moment : ℕ) :
    moment < submittedAt + ackWindow ↔ moment ≤ ackDue submittedAt := by
  have hday : 0 < microsecondsPerDay := by decide
  unfold ackWindow ackDue lastOfDay dayFloor ackDays
  -- nothing depends on how long a day is
  generalize microsecondsPerDay = day at hmidnight hday ⊢
  have hwhole : (submittedAt + 7 * day) % day = 0 := by
    rw [Nat.add_mul_mod_self_right, hmidnight]
  rw [hwhole]
  omega

theorem ackStatus_none_state (submittedAt now : ℕ) :
    (ackStatus submittedAt none now).state =
      if ackDue submittedAt < now then .overdue
      else if ackWarnFromDay ≤ ((now : ℤ) - submittedAt) / microsecondsPerDay then .warning
      else .ok := by
  unfold ackStatus
  simp only [Option.isSome_none, Bool.false_eq_true, if_false]
  by_cases hoverdue : ackDue submittedAt < now
  · rw [if_pos hoverdue, if_pos hoverdue]
  · rw [if_neg hoverdue, if_neg hoverdue]

theorem isOnTime_iff {times : Times} (hmidnight : times.submittedAt % microsecondsPerDay = 0) :
    isOnTime times = ackOnTime times.submittedAt times.acknowledgedAt := by
  unfold isOnTime
  cases times.acknowledgedAt with
  | none => rw [Option.any_none, ackOnTime]
  | some acknowledgedAt =>
    rw [Option.any_some, ackOnTime, decide_eq_decide]
    exact lt_window_iff hmidnight acknowledgedAt

theorem isDecided_iff {times : Times} (hmidnight : times.submittedAt % microsecondsPerDay = 0)
    (now : ℕ) : isDecided now times = true ↔ times.acknowledgedAt.isSome = true ∨
      (ackStatus times.submittedAt times.acknowledgedAt now).state = .overdue := by
  have hpast : times.submittedAt + ackWindow ≤ now ↔ ackDue times.submittedAt < now := by
    rw [← not_lt, lt_window_iff hmidnight, not_le]
  unfold isDecided
  rw [Bool.or_eq_true, decide_eq_true_eq, hpast]
  cases hacknowledged : times.acknowledgedAt with
  | some acknowledgedAt => exact iff_of_true (Or.inl Option.isSome_some) (Or.inl Option.isSome_some)
  | none =>
    refine or_congr_right ?_
    rw [ackStatus_none_state]
    by_cases hoverdue : ackDue times.submittedAt < now
    · exact iff_of_true hoverdue (if_pos hoverdue)
    · rw [if_neg hoverdue]
      refine iff_of_false hoverdue ?_
      split_ifs
      · exact nofun
      · exact nofun

theorem isDecided_of_isOnTime {times : Times} (now : ℕ) (h : isOnTime times = true) :
    isDecided now times = true := by
  unfold isOnTime at h
  unfold isDecided
  cases hacknowledged : times.acknowledgedAt with
  | none =>
    rw [hacknowledged] at h
    cases h
  | some acknowledgedAt => rfl

/-! ### The rate -/

theorem roundHalfEven_mem {q : ℚ} (hlow : 0 ≤ q) (hhigh : q ≤ 100) :
    0 ≤ roundHalfEven q ∧ roundHalfEven q ≤ 100 := by
  have hfloor : 0 ≤ ⌊q⌋ := Int.floor_nonneg.mpr hlow
  have htop : ⌊q⌋ ≤ 100 := by
    have h := Int.floor_le q
    exact_mod_cast h.trans hhigh
  by_cases hfull : ⌊q⌋ = 100
  · -- above a hundred there is nothing to round up
    have hexact : q = 100 := le_antisymm hhigh (by
      have h := Int.floor_le q
      rw [hfull] at h
      exact_mod_cast h)
    have hround : roundHalfEven q = 100 := by
      rw [hexact]
      norm_num [roundHalfEven]
    rw [hround]
    exact ⟨by decide, le_rfl⟩
  · unfold roundHalfEven
    split_ifs <;> omega

theorem rate_mem (rounding : Rounding) {onTime decided : ℕ} (hle : onTime ≤ decided)
    (hpos : decided ≠ 0) :
    0 ≤ roundHalfEven (rounding.float (rounding.float ((onTime : ℚ) / decided) * 100)) ∧
      roundHalfEven (rounding.float (rounding.float ((onTime : ℚ) / decided) * 100)) ≤ 100 := by
  have hdecided : (0 : ℚ) < decided := by exact_mod_cast Nat.pos_of_ne_zero hpos
  have hquotient : 0 ≤ (onTime : ℚ) / decided := by positivity
  have hone : (onTime : ℚ) / decided ≤ 1 := by
    rw [div_le_one hdecided]
    exact_mod_cast hle
  have hlow : 0 ≤ rounding.float ((onTime : ℚ) / decided) := rounding.zero ▸ rounding.mono hquotient
  have hhigh : rounding.float ((onTime : ℚ) / decided) ≤ 1 := rounding.one ▸ rounding.mono hone
  refine roundHalfEven_mem ?_ ?_
  · have h := rounding.mono (show 0 ≤ rounding.float ((onTime : ℚ) / decided) * 100 by positivity)
    rwa [rounding.zero] at h
  · have h := rounding.mono
      (show rounding.float ((onTime : ℚ) / decided) * 100 ≤ 100 by linarith)
    rwa [rounding.hundred] at h

theorem rate_eq_none_iff (rounding : Rounding) (reports : List Times) (now : ℕ) :
    (getDashboardStats rounding reports now).rate = none ↔
      ∀ times ∈ reports, ¬isDecided now times = true := by
  unfold getDashboardStats
  dsimp only
  rw [← List.countP_eq_zero]
  by_cases hnone : reports.countP (isDecided now) = 0
  · rw [if_neg (not_not_intro hnone)]
    exact iff_of_true rfl hnone
  · rw [if_pos hnone]
    exact iff_of_false nofun hnone

theorem rate_le_hundred (rounding : Rounding) (reports : List Times) (now : ℕ) :
    ∀ rate ∈ (getDashboardStats rounding reports now).rate, 0 ≤ rate ∧ rate ≤ 100 := by
  intro rate hrate
  unfold getDashboardStats at hrate
  dsimp only at hrate
  by_cases hnone : reports.countP (isDecided now) = 0
  · rw [if_neg (not_not_intro hnone)] at hrate
    cases hrate
  · rw [if_pos hnone, Option.mem_some_iff] at hrate
    rw [← hrate]
    refine rate_mem rounding ?_ hnone
    exact List.countP_mono_left fun times _ hontime ↦ isDecided_of_isOnTime now hontime

/-- Of reports received at the start of a day, those are counted on time and decided that the case
page shows so; there is no rate when none is decided, and else it lies between 0 and 100. -/
theorem statistic_is_the_case_page (rounding : Rounding) (reports : List Times) (now : ℕ)
    (hmidnight : ∀ times ∈ reports, times.submittedAt % microsecondsPerDay = 0) :
    (∀ times ∈ reports,
      (isOnTime times = true ↔ ackOnTime times.submittedAt times.acknowledgedAt = true) ∧
      (isDecided now times = true ↔ times.acknowledgedAt.isSome = true ∨
        (ackStatus times.submittedAt times.acknowledgedAt now).state = .overdue) ∧
      (isOnTime times = true → isDecided now times = true)) ∧
    (getDashboardStats rounding reports now).onTime =
      reports.countP (fun times ↦ ackOnTime times.submittedAt times.acknowledgedAt) ∧
    (getDashboardStats rounding reports now).decided =
      reports.countP (fun times ↦ decide (times.acknowledgedAt.isSome = true ∨
        (ackStatus times.submittedAt times.acknowledgedAt now).state = .overdue)) ∧
    ((getDashboardStats rounding reports now).rate = none ↔
      ∀ times ∈ reports, times.acknowledgedAt = none ∧
        (ackStatus times.submittedAt times.acknowledgedAt now).state ≠ .overdue) ∧
    ∀ rate ∈ (getDashboardStats rounding reports now).rate, 0 ≤ rate ∧ rate ≤ 100 := by
  have hontime : ∀ times ∈ reports,
      (isOnTime times = true ↔ ackOnTime times.submittedAt times.acknowledgedAt = true) :=
    fun times hmem ↦ by rw [isOnTime_iff (hmidnight times hmem)]
  have hdecided := fun times hmem ↦ isDecided_iff (hmidnight times hmem) now
  refine ⟨fun times hmem ↦ ⟨hontime times hmem, hdecided times hmem, isDecided_of_isOnTime now⟩,
    List.countP_congr hontime, List.countP_congr fun times hmem ↦ ?_, ?_, rate_le_hundred _ _ _⟩
  · rw [hdecided times hmem, decide_eq_true_eq]
  · rw [rate_eq_none_iff]
    refine forall₂_congr fun times hmem ↦ ?_
    rw [hdecided times hmem, not_or, Option.not_isSome_iff_eq_none]

/-- Numbers that need no rounding. -/
def exact : Rounding where
  float := id
  mono := monotone_id
  zero := id_eq 0
  one := id_eq 1
  hundred := id_eq 100

/-- A report acknowledged in the last microsecond of its seventh day, and one that is overdue. -/
def ninthDay : List Times := [⟨0, some 691199999999⟩, ⟨0, none⟩]

theorem statistic_on_the_ninth_day :
    (getDashboardStats exact ninthDay 691200000000).onTime =
      ninthDay.countP (fun times ↦ ackOnTime times.submittedAt times.acknowledgedAt) :=
  (statistic_is_the_case_page exact ninthDay 691200000000 (by simp [ninthDay])).2.1

end OpenWhistle.Dashboard
