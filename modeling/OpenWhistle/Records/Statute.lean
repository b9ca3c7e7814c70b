import OpenWhistle.Foundation.CalendarOrder
import OpenWhistle.Records.Deadlines
import Mathlib.Order.MinMax

/-!
# The deadline of the statute

The statute counts in days. Three months after a day is the day of the same number in the third
month, or the last day of that month if it has no such day; the deadline is the end of that day, or,
without an acknowledgement, of the seventh day after it, and the earlier of the two holds.

The code works with times, and its deadline is that of the statute. The time of the day has no part
in it: adding months to a later time may give an earlier one, since two days are cut off to one, but
never one of an earlier day.
-/

set_option autoImplicit false
set_option relaxedAutoImplicit false

namespace OpenWhistle.Records

open Calendar
open Threads (microsecondsPerDay dayFloor lastOfDay)

/-! ### The statute -/

/-- The day of the same number so many months later, or the last one of that month. -/
def MonthsAfter (months : ℕ) (date later : Date) : Prop :=
  later.index = date.index + months ∧
    (later.day = date.day ∨ later.day < date.day ∧ later.day = lengthOf later.index)

/-- The feedback is due on the seventh day after three months from receipt, or three months after
the acknowledgement, whichever is the earlier. -/
def DueOn (receipt : Date) (acknowledgement : Option Date) (due : Date) : Prop :=
  ∃ without : Date, MonthsAfter 3 receipt without ∧
    match acknowledgement with
    | none => due.toDay = without.toDay + 7
    | some acknowledged => ∃ later : Date, MonthsAfter 3 acknowledged later ∧
      due.toDay = min later.toDay (without.toDay + 7)

theorem monthsAfter_addMonths (date : Date) (months : ℕ) :
    MonthsAfter months date (date.addMonths months) := by
  refine ⟨date.index_addMonths months, ?_⟩
  rw [date.index_addMonths, date.day_addMonths]
  omega

/-! ### Times -/

/-- The last microsecond of a day. -/
def endOf (day : ℕ) : ℕ := day * microsecondsPerDay + (microsecondsPerDay - 1)

theorem lastOfDay_eq (moment : ℕ) : lastOfDay moment = endOf (moment / microsecondsPerDay) := by
  have hday := Nat.div_add_mod moment microsecondsPerDay
  unfold lastOfDay dayFloor endOf
  rw [Nat.mul_comm]
  omega

theorem endOf_mono {day later : ℕ} (h : day ≤ later) : endOf day ≤ endOf later :=
  Nat.add_le_add_right (Nat.mul_le_mul_right _ h) _

theorem endOf_min (day other : ℕ) : endOf (min day other) = min (endOf day) (endOf other) := by
  rcases Nat.le_total day other with h | h
  · rw [min_eq_left h, min_eq_left (endOf_mono h)]
  · rw [min_eq_right h, min_eq_right (endOf_mono h)]

theorem div_addMonths (moment months : ℕ) :
    addMonths moment months / microsecondsPerDay = ((dateOf moment).addMonths months).toDay := by
  have hpos : 0 < microsecondsPerDay := by decide
  rw [addMonths, Nat.mul_comm, Nat.mul_add_div hpos, Nat.div_eq_of_lt (Nat.mod_lt _ hpos),
    Nat.add_zero]

/-- The day on which the feedback is due without an acknowledgement. -/
def dayWithoutAck (submittedAt : ℕ) : ℕ := ((dateOf submittedAt).addMonths 3).toDay + 7

theorem feedbackDue_none (submittedAt : ℕ) :
    feedbackDue submittedAt none = endOf (dayWithoutAck submittedAt) := by
  have hpos : 0 < microsecondsPerDay := by decide
  change lastOfDay (addMonths submittedAt 3 + 7 * microsecondsPerDay) = _
  rw [lastOfDay_eq, Nat.add_mul_div_right _ _ hpos, div_addMonths]
  rfl

theorem feedbackDue_some (submittedAt acknowledged : ℕ) :
    feedbackDue submittedAt (some acknowledged) =
      endOf (min ((dateOf acknowledged).addMonths 3).toDay (dayWithoutAck submittedAt)) := by
  have hnone := feedbackDue_none submittedAt
  change min (lastOfDay (addMonths acknowledged 3)) (feedbackDue submittedAt none) = _
  rw [hnone, lastOfDay_eq, div_addMonths, endOf_min]

theorem toDay_dateOf (moment : ℕ) : (dateOf moment).toDay = moment / microsecondsPerDay :=
  toDay_ofDay _

/-- A later time is not of an earlier day, months later. -/
theorem addMonths_toDay_mono {moment later : ℕ} (h : moment ≤ later) (months : ℕ) :
    ((dateOf moment).addMonths months).toDay ≤ ((dateOf later).addMonths months).toDay := by
  refine Date.addMonths_mono ?_ months
  rw [toDay_dateOf, toDay_dateOf]
  exact Nat.div_le_div_right h

theorem feedbackDue_mono_receipt {submittedAt later : ℕ} (h : submittedAt ≤ later)
    (acknowledgedAt : Option ℕ) :
    feedbackDue submittedAt acknowledgedAt ≤ feedbackDue later acknowledgedAt := by
  have hday : dayWithoutAck submittedAt ≤ dayWithoutAck later :=
    Nat.add_le_add_right (addMonths_toDay_mono h 3) 7
  cases acknowledgedAt with
  | none =>
    rw [feedbackDue_none, feedbackDue_none]
    exact endOf_mono hday
  | some acknowledged =>
    rw [feedbackDue_some, feedbackDue_some]
    exact endOf_mono (min_le_min le_rfl hday)

theorem feedbackDue_mono_acknowledgement (submittedAt : ℕ) {acknowledged later : ℕ}
    (h : acknowledged ≤ later) :
    feedbackDue submittedAt (some acknowledged) ≤ feedbackDue submittedAt (some later) := by
  rw [feedbackDue_some, feedbackDue_some]
  exact endOf_mono (min_le_min (addMonths_toDay_mono h 3) le_rfl)

/-- An acknowledgement never makes the deadline later. -/
theorem feedbackDue_le_none (submittedAt : ℕ) (acknowledgedAt : Option ℕ) :
    feedbackDue submittedAt acknowledgedAt ≤ feedbackDue submittedAt none := by
  cases acknowledgedAt with
  | none => exact le_rfl
  | some acknowledged =>
    rw [feedbackDue_some, feedbackDue_none]
    exact endOf_mono (min_le_right _ _)

/-- The day the code counts to is that of the statute. -/
theorem exists_due (submittedAt : ℕ) (acknowledgedAt : Option ℕ) : ∃ due : Date,
    feedbackDue submittedAt acknowledgedAt = endOf due.toDay ∧
      DueOn (dateOf submittedAt) (acknowledgedAt.map dateOf) due := by
  have hreceipt := monthsAfter_addMonths (dateOf submittedAt) 3
  cases acknowledgedAt with
  | none =>
    refine ⟨ofDay (dayWithoutAck submittedAt), ?_, _, hreceipt, toDay_ofDay _⟩
    rw [toDay_ofDay, feedbackDue_none]
  | some acknowledged =>
    refine ⟨ofDay (min ((dateOf acknowledged).addMonths 3).toDay (dayWithoutAck submittedAt)), ?_, _,
      hreceipt, _, monthsAfter_addMonths (dateOf acknowledged) 3, toDay_ofDay _⟩
    rw [toDay_ofDay, feedbackDue_some]

/-- The feedback deadline is the end of the day the statute says. An acknowledgement never makes it
later, and a later receipt or acknowledgement never makes it earlier. -/
theorem feedback_due_is_the_statutes (submittedAt : ℕ) (acknowledgedAt : Option ℕ) :
    (∃ due : Date, feedbackDue submittedAt acknowledgedAt = endOf due.toDay ∧
      DueOn (dateOf submittedAt) (acknowledgedAt.map dateOf) due) ∧
    feedbackDue submittedAt acknowledgedAt ≤ feedbackDue submittedAt none ∧
    (∀ later, submittedAt ≤ later →
      feedbackDue submittedAt acknowledgedAt ≤ feedbackDue later acknowledgedAt) ∧
    ∀ acknowledged later, acknowledged ≤ later →
      feedbackDue submittedAt (some acknowledged) ≤ feedbackDue submittedAt (some later) :=
  ⟨exists_due submittedAt acknowledgedAt, feedbackDue_le_none submittedAt acknowledgedAt,
    fun _ h ↦ feedbackDue_mono_receipt h acknowledgedAt,
    fun _ _ h ↦ feedbackDue_mono_acknowledgement submittedAt h⟩

/-- Received on 30 November 2025, the feedback is due on 7 March, as if received on 28 November. -/
example : feedbackDue (739584 * microsecondsPerDay) none =
    feedbackDue (739582 * microsecondsPerDay) none := by
  decide +kernel

end OpenWhistle.Records
