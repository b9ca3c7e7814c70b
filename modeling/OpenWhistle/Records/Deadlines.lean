import OpenWhistle.Foundation.Calendar
import OpenWhistle.Threads.Desk

/-!
# The statutory deadlines

The feedback is due three calendar months after the acknowledgement, and at the latest three months
and seven days after receipt. A deadline is the last microsecond of its day. Times are microseconds
from the start of the calendar.
-/

set_option autoImplicit false
set_option relaxedAutoImplicit false

namespace OpenWhistle.Records

open Threads (microsecondsPerDay lastOfDay)

/-- The date of a time. -/
def dateOf (moment : ℕ) : Calendar.Date := Calendar.ofDay (moment / microsecondsPerDay)

/-- `add_months`. The time of the day stays. -/
def addMonths (moment months : ℕ) : ℕ :=
  ((dateOf moment).addMonths months).toDay * microsecondsPerDay + moment % microsecondsPerDay

def ackDays : ℕ := 7

def feedbackMonths : ℕ := 3

/-- `feedback_due`. -/
def feedbackDue (submittedAt : ℕ) (acknowledgedAt : Option ℕ) : ℕ :=
  let withoutAck := lastOfDay (addMonths submittedAt feedbackMonths + ackDays * microsecondsPerDay)
  match acknowledgedAt with
  | none => withoutAck
  | some acknowledged => min (lastOfDay (addMonths acknowledged feedbackMonths)) withoutAck

/-- Received on 24 November 2026, the feedback is due at the end of 3 March. -/
example : (dateOf (feedbackDue (739943 * microsecondsPerDay) none)).month = 3 ∧
    (dateOf (feedbackDue (739943 * microsecondsPerDay) none)).day = 3 ∧
    feedbackDue (739943 * microsecondsPerDay) none % microsecondsPerDay =
      microsecondsPerDay - 1 := by
  decide +kernel

end OpenWhistle.Records
