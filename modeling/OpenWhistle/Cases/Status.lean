import Mathlib.Order.Lattice
import Mathlib.Tactic.SplitIfs

/-!
# The status of a case and what the office makes of a row

A report's status, the transitions the office may ask for, and the two functions that change a row
an office user has read: the acknowledgement and the status change. Both work on the attributes of
the object that was loaded. What they leave in the database is an UPDATE of the columns whose value
they changed, on whatever row is committed by then; `Row.updated` is that UPDATE. Reading and writing
the same row is thus harmless, and mixing the decisions of two requests is possible.

`Agrees` is what `closed_at` is for: it is set exactly while the case is closed, and then it is the
time of the last transition that closed it. `agrees_updated` says when an UPDATE keeps that: a status
decided on a case that was read as not closed must not meet a closed one.
-/

set_option autoImplicit false
set_option relaxedAutoImplicit false

namespace OpenWhistle.Cases

inductive Status
  | received
  | inReview
  | pendingFeedback
  | closed
  deriving DecidableEq

/-- `STATUS_TRANSITIONS`. -/
def statusTransitions : Status → List Status
  | .received => [.inReview, .closed]
  | .inReview => [.pendingFeedback, .closed, .received]
  | .pendingFeedback => [.closed, .inReview]
  | .closed => [.inReview]

def isValidTransition (current new : Status) : Bool := decide (new ∈ statusTransitions current)

theorem ne_of_isValidTransition {current new : Status} (h : isValidTransition current new = true) :
    new ≠ current := by
  revert h
  cases current <;> cases new <;> decide

/-- The columns of a report that the functions here read or write. -/
structure Row (τ : Type) where
  status : Status
  submittedAt : τ
  acknowledgedAt : Option τ
  feedbackDueAt : Option τ
  closedAt : Option τ
  deriving DecidableEq

/-- A committed change of a report's status, with the time of the request that decided it. -/
structure Transition (τ : Type) where
  old : Status
  new : Status
  time : τ
  deriving DecidableEq

/-- The time of the latest transition into closed; the latest transition comes first. -/
def lastClosed {τ : Type} (transitions : List (Transition τ)) : Option τ :=
  (transitions.find? fun transition ↦ transition.new = .closed).map Transition.time

/-- The status a list of transitions has led to. -/
def lastStatus {τ : Type} : List (Transition τ) → Status
  | [] => .received
  | transition :: _ => transition.new

namespace Row

variable {τ : Type}

/-- The row `create_report` inserts. -/
def submitted (feedbackDue : τ → Option τ → τ) (today : τ) : Row τ where
  status := .received
  submittedAt := today
  acknowledgedAt := none
  feedbackDueAt := some (feedbackDue today none)
  closedAt := none

/-- `acknowledge_report`. -/
def acknowledgeReport (feedbackDue : τ → Option τ → τ) (now : τ) (report : Row τ) : Row τ where
  status := if report.status = .received then .inReview else report.status
  submittedAt := report.submittedAt
  acknowledgedAt := if report.acknowledgedAt.isNone then some now else report.acknowledgedAt
  feedbackDueAt :=
    if report.acknowledgedAt.isNone then some (feedbackDue report.submittedAt (some now))
    else report.feedbackDueAt
  closedAt := report.closedAt

/-- `update_report_status`. -/
def updateReportStatus (now : τ) (newStatus : Status) (report : Row τ) : Row τ :=
  { report with
    status := newStatus
    closedAt :=
      if newStatus = .closed then
        if report.closedAt.isNone then some now else report.closedAt
      else none }

/-- The UPDATE of the columns whose value was changed, on the current row. -/
def updated [DecidableEq τ] (read new current : Row τ) : Row τ where
  status := if new.status = read.status then current.status else new.status
  submittedAt := if new.submittedAt = read.submittedAt then current.submittedAt else new.submittedAt
  acknowledgedAt :=
    if new.acknowledgedAt = read.acknowledgedAt then current.acknowledgedAt else new.acknowledgedAt
  feedbackDueAt :=
    if new.feedbackDueAt = read.feedbackDueAt then current.feedbackDueAt else new.feedbackDueAt
  closedAt := if new.closedAt = read.closedAt then current.closedAt else new.closedAt

/-- `closed_at` is set exactly while the status is closed. -/
def Consistent (row : Row τ) : Prop := row.closedAt.isSome = true ↔ row.status = .closed

/-- A row agrees with the transitions that were committed on it. -/
structure Agrees (row : Row τ) (transitions : List (Transition τ)) : Prop where
  consistent : row.Consistent
  closedAt : row.status = .closed → row.closedAt = lastClosed transitions
  status : row.status = lastStatus transitions

/-- What the office asks for: an acknowledgement, or a status it may be given. -/
def Decided (feedbackDue : τ → Option τ → τ) (now : τ) (read new : Row τ) : Prop :=
  new = read.acknowledgeReport feedbackDue now ∨
    ∃ newStatus, isValidTransition read.status newStatus = true ∧
      new = read.updateReportStatus now newStatus

/-- A status that was decided on a case read as not closed does not meet a closed one. -/
def Compatible (read new current : Row τ) : Prop :=
  new.status ≠ read.status → read.status ≠ .closed → current.status ≠ .closed

/-- The transitions after a row has been replaced by another. -/
def withTransition (old new : Row τ) (now : τ) (transitions : List (Transition τ)) :
    List (Transition τ) :=
  if old.status = new.status then transitions else ⟨old.status, new.status, now⟩ :: transitions

variable {feedbackDue : τ → Option τ → τ} {now : τ} {read new old current row : Row τ}
  {transitions : List (Transition τ)}

theorem closedAt_eq_none (h : row.Consistent) (hstatus : row.status ≠ .closed) :
    row.closedAt = none := by
  have hnot : ¬row.closedAt.isSome = true := fun hsome ↦ hstatus (h.mp hsome)
  simpa using hnot

theorem agrees_submitted (today : τ) : (submitted feedbackDue today).Agrees [] where
  consistent := by simp [Consistent, submitted]
  closedAt := fun h ↦ nomatch h
  status := rfl

/-- A row that keeps status and closure time. -/
theorem agrees_of_eq (h : old.Agrees transitions) (hstatus : new.status = old.status)
    (hclosed : new.closedAt = old.closedAt) :
    new.Agrees (withTransition old new now transitions) := by
  rw [withTransition, if_pos hstatus.symm]
  refine ⟨?_, fun hnew ↦ ?_, ?_⟩
  · rw [Consistent, hstatus, hclosed]
    exact h.consistent
  · rw [hclosed]
    exact h.closedAt (hstatus.symm.trans hnew)
  · rw [hstatus]
    exact h.status

theorem lastStatus_withTransition (h : old.status = lastStatus transitions) :
    lastStatus (withTransition old new now transitions) = new.status := by
  unfold withTransition
  split_ifs with hsame
  · rw [← hsame, h]
  · rfl

/-- A row that is open and has no closure time. -/
theorem agrees_of_open (h : old.Agrees transitions) (hstatus : new.status ≠ .closed)
    (hclosed : new.closedAt = none) : new.Agrees (withTransition old new now transitions) where
  consistent := by simp [Consistent, hclosed, hstatus]
  closedAt := fun hnew ↦ absurd hnew hstatus
  status := (lastStatus_withTransition h.status).symm

/-- A row that was open and is closed now. -/
theorem agrees_of_closing (h : old.Agrees transitions) (hold : old.status ≠ .closed)
    (hstatus : new.status = .closed) (hclosed : new.closedAt = some now) :
    new.Agrees (withTransition old new now transitions) where
  consistent := by simp [Consistent, hclosed, hstatus]
  closedAt := by
    intro _
    have hne : old.status ≠ new.status := fun heq ↦ hold (heq.trans hstatus)
    rw [withTransition, if_neg hne, hclosed]
    simp [lastClosed, hstatus]
  status := (lastStatus_withTransition h.status).symm

variable [DecidableEq τ]

/-- The UPDATE of an acknowledgement. It changes the status of a case that was read as received. -/
theorem agrees_acknowledged (hcurrent : current.Agrees transitions)
    (hcompatible : Compatible read (read.acknowledgeReport feedbackDue now) current) :
    (updated read (read.acknowledgeReport feedbackDue now) current).Agrees
      (withTransition current (updated read (read.acknowledgeReport feedbackDue now) current) now
        transitions) := by
  have hclosed : (updated read (read.acknowledgeReport feedbackDue now) current).closedAt =
      current.closedAt := by simp [updated, acknowledgeReport]
  by_cases hreceived : read.status = .received
  · have hopen : current.status ≠ .closed := by
      apply hcompatible
      · simp [acknowledgeReport, hreceived]
      · simp [hreceived]
    apply agrees_of_open hcurrent
    · simp [updated, acknowledgeReport, hreceived]
    · rw [hclosed]
      exact closedAt_eq_none hcurrent.consistent hopen
  · apply agrees_of_eq hcurrent _ hclosed
    simp [updated, acknowledgeReport, hreceived]

/-- The UPDATE of a status change. A closing stamps the time, a reopening clears it, any other
change relies on there being none. -/
theorem agrees_statusChanged (hread : read.Consistent) {newStatus : Status}
    (hvalid : isValidTransition read.status newStatus = true) (hcurrent : current.Agrees transitions)
    (hcompatible : Compatible read (read.updateReportStatus now newStatus) current) :
    (updated read (read.updateReportStatus now newStatus) current).Agrees
      (withTransition current (updated read (read.updateReportStatus now newStatus) current) now
        transitions) := by
  have hne := ne_of_isValidTransition hvalid
  have hstatus : (updated read (read.updateReportStatus now newStatus) current).status =
      newStatus := by simp [updated, updateReportStatus, hne]
  have hopen : read.status ≠ .closed → current.status ≠ .closed := hcompatible hne
  by_cases hclosing : newStatus = .closed
  · have hreadOpen : read.status ≠ .closed := fun heq ↦ hne (hclosing.trans heq.symm)
    have hnone := closedAt_eq_none hread hreadOpen
    apply agrees_of_closing hcurrent (hopen hreadOpen)
    · rw [hstatus, hclosing]
    · simp [updated, updateReportStatus, hclosing, hnone]
  · apply agrees_of_open hcurrent
    · rw [hstatus]
      exact hclosing
    · by_cases hreadClosed : read.status = .closed
      · have hsome := hread.mpr hreadClosed
        have hchanged : none ≠ read.closedAt := by
          intro heq
          rw [← heq] at hsome
          cases hsome
        simp [updated, updateReportStatus, hclosing, hchanged]
      · have hnone := closedAt_eq_none hread hreadClosed
        have hnow := closedAt_eq_none hcurrent.consistent (hopen hreadClosed)
        simp [updated, updateReportStatus, hclosing, hnone, hnow]

/-- An UPDATE that was decided on a consistent row keeps the agreement, unless a status decided on
an open case meets a closed one. -/
theorem agrees_updated (hread : read.Consistent) (hdecided : Decided feedbackDue now read new)
    (hcurrent : current.Agrees transitions) (hcompatible : Compatible read new current) :
    (updated read new current).Agrees
      (withTransition current (updated read new current) now transitions) := by
  rcases hdecided with rfl | ⟨newStatus, hvalid, rfl⟩
  · exact agrees_acknowledged hcurrent hcompatible
  · exact agrees_statusChanged hread hvalid hcurrent hcompatible

end Row

end OpenWhistle.Cases
