import OpenWhistle.Threads.Contract

/-!
# The order of a thread

Whatever the clocks of the requests say and however they overlap, the times of a thread increase
strictly in the order its messages were committed, from the receipt on. A reporter's message gets the
start of its day or the first free microsecond after the thread's latest message, and so leaves its
day only behind a message that has taken the day's last microsecond, or a later time.
-/

set_option autoImplicit false
set_option relaxedAutoImplicit false

namespace OpenWhistle.Threads

open Interleaving

variable {ι : Type} [DecidableEq ι] {feedbackDue : ℕ → Option ℕ → ℕ}

/-- The invariant of the desk holds after every run. -/
theorem deskSound_run {events : List (Step ι)} {last : Work ι}
    (hrun : run (semantics feedbackDue) (handler feedbackDue) start events = some last) :
    DeskSound feedbackDue last.shared := by
  have hpermits : Meets (semantics feedbackDue) (handler feedbackDue)
      (desk (Extension.plain ι feedbackDue)).Permits start events := by
    refine meets_of_forall (fun event _ s ↦ ?_) start
    exact Contract.permits_of_acting (fun _ ↦ trivial) (fun _ _ _ ↦ trivial) (fun _ _ ↦ trivial)
      fun _ _ _ ↦ trivial
  exact (Contract.run_safe desk_handles (desk_start trivial) hpermits hrun).invariant.1

theorem OnTheirDays.of_append {newer : List Message} {message : Message} {earlier : List Message}
    (h : OnTheirDays (newer ++ message :: earlier)) (hsender : message.sender = .whistleblower) :
    dayFloor message.sentAt = dayFloor message.clock ∨
      ∃ other ∈ earlier, lastOfDay message.clock ≤ other.sentAt := by
  induction newer with
  | nil => exact h.1 hsender
  | cons first newer ih => exact ih h.2

/-- In every run, the messages of a report increase strictly in time in the order of their commits,
the receipt comes first, and every reporter's message lies on the day of its clock unless an earlier
message lies in the last microsecond of that day or later. -/
theorem thread_times_increase {events : List (Step ι)} {last : Work ι}
    (hrun : run (semantics feedbackDue) (handler feedbackDue) start events = some last) {report : ι}
    {row : Cases.Row ℕ} (hrow : last.shared.office.table.row report = some row) :
    (last.shared.messages report).Pairwise (fun later earlier ↦ earlier.sentAt < later.sentAt) ∧
    (∃ newer today, last.shared.messages report = newer ++ [receipt today]) ∧
    ∀ newer message earlier, last.shared.messages report = newer ++ message :: earlier →
      message.sender = .whistleblower →
        dayFloor message.sentAt = dayFloor message.clock ∨
          ∃ other ∈ earlier, lastOfDay message.clock ≤ other.sentAt := by
  have hsound := deskSound_run hrun
  refine ⟨hsound.ordered report, hsound.receipt report row hrow,
    fun newer message earlier hsplit hsender ↦ ?_⟩
  have hdays := hsound.days report
  rw [hsplit] at hdays
  exact hdays.of_append hsender

/-- Report 0 is submitted on the second day of the calendar. The admin's reply is stamped in the
last microsecond of that day, two replies of the reporter on the day overlap, and the clock of the
last one runs backwards. -/
def twoRepliesAtMidnight : List (Step ℕ) :=
  [.environment (.submit 0 86400000005),
    .start 1 (.adminReply 0 "We have read it." true), .start 2 (.reply (some 0) "More to come."),
    .start 3 (.reply (some 0) "A photo."),
    .run 1 0, .run 2 0, .run 3 0, .run 1 172799999999, .run 1 0, .run 1 0, .run 1 0,
    .run 2 86400000700, .run 3 86400000300, .run 2 0, .run 2 0, .run 2 0,
    .run 3 0, .run 3 0, .run 3 0]

theorem thread_times_increase_at_midnight : ∃ last,
    run (semantics Cases.ninetyDays) (handler Cases.ninetyDays) start twoRepliesAtMidnight =
      some last ∧
    (last.shared.messages 0).map (fun message ↦ (message.sender, message.sentAt)) =
      [(.whistleblower, 172800000001), (.whistleblower, 172800000000), (.admin, 172799999999),
        (.admin, 86400000000)] ∧
    (last.shared.messages 0).Pairwise (fun later earlier ↦ earlier.sentAt < later.sentAt) ∧
    (∃ newer today, last.shared.messages 0 = newer ++ [receipt today]) ∧
    ∀ newer message earlier, last.shared.messages 0 = newer ++ message :: earlier →
      message.sender = .whistleblower →
        dayFloor message.sentAt = dayFloor message.clock ∨
          ∃ other ∈ earlier, lastOfDay message.clock ≤ other.sentAt := by
  have hrun := run_eq_get (show (run (semantics Cases.ninetyDays) (handler Cases.ninetyDays) start
    twoRepliesAtMidnight).isSome = true by decide +kernel)
  have hrow : ((run (semantics Cases.ninetyDays) (handler Cases.ninetyDays) start
      twoRepliesAtMidnight).get (by decide +kernel)).shared.office.table.row 0 =
      some ⟨.received, 86400000000, none, some 86400000090, none⟩ := by decide +kernel
  exact ⟨_, hrun, by decide +kernel, thread_times_increase hrun hrow⟩

end OpenWhistle.Threads
