import OpenWhistle.Threads.Contract

/-!
# Replies and closings

`reply_post` refuses a reply to a case it has read as closed, and locks the row only later, for the
time of the message. A closing that is committed in between is not noticed. Without one, the status
the reply has seen is the status its message is committed on; the sample run at the end shows a
message on a closed case.
-/

set_option autoImplicit false
set_option relaxedAutoImplicit false

namespace OpenWhistle.Threads

open Interleaving
open Cases (Status lastStatus)

variable {ι : Type} [DecidableEq ι] {feedbackDue : ℕ → Option ℕ → ℕ}

/-- A reporter's message is committed while no closing is in force that was committed since its reply
has read the report. -/
def NotOvertaken (w : ℕ) : Op ι → Desk ι → Prop
  | .commitMessage posting, s => s.office.ended w = false → posting.sender = .whistleblower →
    s.office.transitions posting.report = s.loaded w ∨
      ∀ transition ∈ (s.office.transitions posting.report).head?, transition.new ≠ .closed
  | _, _ => True

/-- No reporter's message was committed on a closed case. -/
def NoneOnClosed (s : Desk ι) : Prop :=
  ∀ report, ∀ message ∈ s.messages report, message.sender = .whistleblower →
    message.status ≠ .closed

theorem lastStatus_ne_closed {transitions : List (Cases.Transition ℕ)}
    (h : ∀ transition ∈ transitions.head?, transition.new ≠ .closed) :
    lastStatus transitions ≠ .closed := by
  cases transitions with
  | nil => nofun
  | cons transition rest => exact h transition rfl

theorem noneOnClosed_posted {s : Desk ι} (h : NoneOnClosed s) {w : ℕ} {posting : Posting ι}
    {row : Cases.Row ℕ}
    (hopen : posting.sender = .whistleblower → row.status ≠ .closed) :
    NoneOnClosed (s.posted w posting row) := by
  intro report message hmem hsender
  change message ∈ Function.update s.messages posting.report _ report at hmem
  by_cases heq : report = posting.report
  · subst heq
    rw [Function.update_self] at hmem
    rcases List.mem_cons.mp hmem with rfl | hold
    · exact hopen hsender
    · exact h posting.report message hold hsender
  · rw [Function.update_of_ne heq] at hmem
    exact h report message hmem hsender

def closedCase (ι : Type) [DecidableEq ι] (feedbackDue : ℕ → Option ℕ → ℕ) :
    Extension ι feedbackDue where
  holds := NoneOnClosed
  allows := NotOvertaken
  congr s t _ hmessages _ h := by
    intro report
    rw [hmessages]
    exact h report
  withOffice s office _ h := by
    intro report message hmem
    change message ∈ (if _ then _ else _) at hmem
    split_ifs at hmem
    · cases hmem
    · exact h report message hmem
  submit s t report time _ hsubmit h := by
    obtain ⟨-, rfl⟩ := submit_cases feedbackDue hsubmit
    intro other message hmem hsender
    change message ∈ Function.update s.messages report _ other at hmem
    by_cases heq : other = report
    · subst heq
      rw [Function.update_self, List.mem_singleton] at hmem
      subst hmem
      cases hsender
    · rw [Function.update_of_ne heq] at hmem
      exact h other message hmem hsender
  posted s w posting row hsound h hallows hended _ _ hconsidered hrow := by
    refine noneOnClosed_posted h fun hsender ↦ ?_
    rw [hsound.status posting.report row hrow]
    rcases hallows hended hsender with hsame | hopen
    · rw [hsame]
      exact hconsidered.notClosed hsender
    · exact lastStatus_ne_closed hopen

/-- No step of the run commits a reporter's message behind a closing. -/
def RepliesNotOvertaken (s : Work ι) (event : Step ι) : Prop := s.Acts NotOvertaken event

/-- In every run in which no closing overtakes a reply between its read and its commit, every
reporter's message was committed while the status of its case was not closed. -/
theorem closed_case_takes_no_reply {events : List (Step ι)} {last : Work ι}
    (hovertaken : Meets (semantics feedbackDue) (handler feedbackDue) RepliesNotOvertaken start events)
    (hrun : run (semantics feedbackDue) (handler feedbackDue) start events = some last) (report : ι) :
    ∀ message ∈ last.shared.messages report, message.sender = .whistleblower →
      message.status ≠ .closed := by
  have hpermits : Meets (semantics feedbackDue) (handler feedbackDue)
      (desk (closedCase ι feedbackDue)).Permits start events :=
    meets_imp (fun _ _ h ↦ Contract.permits_of_acting (fun _ ↦ trivial) (fun _ _ _ ↦ trivial)
      (fun _ _ ↦ trivial) h) hovertaken
  exact (Contract.run_safe desk_handles (desk_start fun _ _ h ↦ nomatch h) hpermits
    hrun).invariant.2 report

instance (w : ℕ) (operation : Op ι) (s : Desk ι) : Decidable (NotOvertaken w operation s) :=
  match operation with
  | .commitMessage posting => inferInstanceAs (Decidable (s.office.ended w = false →
      posting.sender = .whistleblower → s.office.transitions posting.report = s.loaded w ∨
        ∀ transition ∈ (s.office.transitions posting.report).head?, transition.new ≠ .closed))
  | .office _ | .getReport _ | .lockReport _ | .latestSentAt _ => isTrue trivial

instance (s : Work ι) (event : Step ι) : Decidable (RepliesNotOvertaken s event) :=
  inferInstanceAs (Decidable (s.Acts NotOvertaken event))

/-- A reply is posted, the case is closed, and a second reply is refused. -/
def repliesAroundClosing : List (Step ℕ) :=
  [.environment (.submit 0 5),
    .start 1 (.reply (some 0) "More to come."), .run 1 0, .run 1 7, .run 1 0, .run 1 0, .run 1 0,
    .start 2 (.office (.updateStatus 0 .closed true)), .run 2 0, .run 2 9, .run 2 0, .run 2 0,
    .start 3 (.reply (some 0) "A photo."), .run 3 0]

/-- A reply reads the report, the case is closed, and then the reply goes on. -/
def closedUnderTheReply : List (Step ℕ) :=
  [.environment (.submit 0 5),
    .start 1 (.reply (some 0) "More to come."), .run 1 0,
    .start 2 (.office (.updateStatus 0 .closed true)), .run 2 0, .run 2 9, .run 2 0, .run 2 0,
    .run 1 11, .run 1 0, .run 1 0, .run 1 0]

theorem closed_case_takes_no_reply_once_closed : ∃ last,
    run (semantics Cases.ninetyDays) (handler Cases.ninetyDays) start repliesAroundClosing =
      some last ∧
    last.answer 3 = some (.redirect "/status?replied=closed" 303) ∧
    (last.shared.messages 0).length = 2 ∧
    ∀ message ∈ last.shared.messages 0, message.sender = .whistleblower →
      message.status ≠ .closed := by
  have hrun := run_eq_get (show (run (semantics Cases.ninetyDays) (handler Cases.ninetyDays) start
    repliesAroundClosing).isSome = true by decide +kernel)
  exact ⟨_, hrun, by decide +kernel, by decide +kernel,
    closed_case_takes_no_reply (by decide +kernel) hrun 0⟩

/-- The case is closed, and the latest message of its thread is a reporter's that was committed on
it. -/
theorem reply_lands_on_a_closed_case : ∃ last message earlier,
    run (semantics Cases.ninetyDays) (handler Cases.ninetyDays) start closedUnderTheReply =
      some last ∧
    (last.shared.office.table.row 0).map Cases.Row.status = some .closed ∧
    last.shared.messages 0 = message :: earlier ∧ message.sender = .whistleblower ∧
    message.status = .closed ∧ last.answer 1 = some (.redirect "/status?replied=1" 303) := by
  have hrun := run_eq_get (show (run (semantics Cases.ninetyDays) (handler Cases.ninetyDays) start
    closedUnderTheReply).isSome = true by decide +kernel)
  exact ⟨_, ⟨.whistleblower, "More to come.", 1, 11, false, .closed⟩, [receipt 0], hrun,
    by decide +kernel, by decide +kernel, rfl, rfl, by decide +kernel⟩

end OpenWhistle.Threads
