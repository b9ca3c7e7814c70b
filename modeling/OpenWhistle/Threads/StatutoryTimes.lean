import OpenWhistle.Threads.Contract

/-!
# The statutory times

`acknowledged_at` and `feedback_sent_at` prove that a legal deadline was met. Both are written under
a test that the column is still empty, on an object that was read before any lock was taken. As long
as every commit that sets one of them meets it as its request has read it, neither changes once it
is committed, and `feedback_sent_at` is the time of the earliest reply of an admin that has read the
report as acknowledged. Two requests that read the empty column both write it; the sample run at the
end shows both.
-/

set_option autoImplicit false
set_option relaxedAutoImplicit false
set_option linter.unusedSectionVars false

namespace OpenWhistle.Threads

open Interleaving ReadCommitted
open Cases (Row Status Office Change)

variable {ι : Type} [DecidableEq ι] {feedbackDue : ℕ → Option ℕ → ℕ}

/-- A message of an admin whose transaction has read the report as acknowledged. -/
def Message.Answers (message : Message) : Prop :=
  message.sender = .admin ∧ message.acknowledged = true

instance (message : Message) : Decidable message.Answers :=
  inferInstanceAs (Decidable (_ ∧ _))

def Desk.answers (s : Desk ι) (report : ι) : List Message :=
  (s.messages report).filter fun message ↦ message.Answers

/-- The time of the earliest of them. -/
def Desk.firstAnswer (s : Desk ι) (report : ι) : Option ℕ :=
  ((s.answers report).map Message.sentAt).min?

/-- An UPDATE that sets `acknowledged_at` meets it as its request has read it. -/
def AcknowledgesAsRead (w : ℕ) (s : Office ι ℕ) : Prop :=
  s.ended w = false → ∀ change ∈ s.flushed w,
    change.new.acknowledgedAt ≠ change.read.acknowledgedAt →
      ∀ row ∈ s.table.row change.report, row.acknowledgedAt = change.read.acknowledgedAt

/-- A commit meets the statutory times it sets as its request has read them. -/
def CommitsTimesAsRead (w : ℕ) : Op ι → Desk ι → Prop
  | .office (.commit _), s => AcknowledgesAsRead w s.office
  | .commitMessage posting, s => AcknowledgesAsRead w s.office ∧
    (s.office.ended w = false → posting.feedbackSentAt.isSome = true →
      s.feedbackSentAt posting.report = none)
  | _, _ => True

/-! ### The feedback -/

/-- `feedback_sent_at` is the time of the first answer. -/
def FeedbackSound (s : Desk ι) : Prop :=
  ∀ report row, s.office.table.row report = some row →
    s.feedbackSentAt report = s.firstAnswer report

/-- A later time does not change the earliest one. -/
theorem min?_cons_of_lt {times : List ℕ} {time first : ℕ} (h : times.min? = some first)
    (hlt : ∀ other ∈ times, other < time) : (time :: times).min? = some first := by
  obtain ⟨hmem, hle⟩ := List.min?_eq_some_iff.mp h
  refine List.min?_eq_some_iff.mpr ⟨List.mem_cons_of_mem _ hmem, fun other hother ↦ ?_⟩
  rcases List.mem_cons.mp hother with rfl | hold
  · exact Nat.le_of_lt (hlt first hmem)
  · exact hle other hold

theorem firstAnswer_posted_of_ne {s : Desk ι} {w : ℕ} {posting : Posting ι} {row : Row ℕ}
    {report : ι} (hne : report ≠ posting.report) :
    (s.posted w posting row).firstAnswer report = s.firstAnswer report := by
  simp [Desk.firstAnswer, Desk.answers, Desk.posted, Function.update_of_ne hne]

/-- A message that is no answer leaves the first one. -/
theorem firstAnswer_posted_of_not {s : Desk ι} {w : ℕ} {posting : Posting ι} {row : Row ℕ}
    (h : ¬(posting.sender = .admin ∧ posting.acknowledged = true)) :
    (s.posted w posting row).firstAnswer posting.report = s.firstAnswer posting.report := by
  have hnot : ¬(Desk.messageOf posting row.status).Answers := h
  simp [Desk.firstAnswer, Desk.answers, Desk.posted, hnot]

/-- An answer comes after those before it. -/
theorem firstAnswer_posted {s : Desk ι} {w : ℕ} {posting : Posting ι} {row : Row ℕ}
    (h : posting.sender = .admin ∧ posting.acknowledged = true) :
    (s.posted w posting row).firstAnswer posting.report =
      (posting.sentAt :: (s.answers posting.report).map Message.sentAt).min? := by
  have hanswer : (Desk.messageOf posting row.status).Answers := h
  simp only [Desk.firstAnswer, Desk.answers, Desk.posted, Function.update_self, List.filter_cons,
    hanswer, decide_true, if_true, List.map_cons]
  rfl

theorem feedbackSound_posted {s : Desk ι} (h : FeedbackSound s) {w : ℕ} {posting : Posting ι}
    {row : Row ℕ}
    (hread : posting.feedbackSentAt.isSome = true → s.feedbackSentAt posting.report = none)
    (hholding : Holding w posting.report s) (hstamped : Stamped w posting s)
    (hconsidered : Considered w posting s) : FeedbackSound (s.posted w posting row) := by
  intro report stored hstored
  change (s.office.table.commit w).row report = some stored at hstored
  rw [hholding.rows] at hstored
  show Function.update s.feedbackSentAt posting.report _ report = _
  by_cases heq : report = posting.report
  · subst heq
    have hfirst := h posting.report stored hstored
    rw [Function.update_self]
    by_cases hanswer : posting.sender = .admin ∧ posting.acknowledged = true
    · rw [firstAnswer_posted hanswer]
      cases hset : posting.feedbackSentAt with
      | none =>
        have hkept := hconsidered.keeps hanswer.1 hanswer.2 hset
        obtain ⟨first, hfeedback⟩ := Option.isSome_iff_exists.mp hkept
        rw [hfeedback] at hfirst ⊢
        obtain ⟨old, -, hwritten⟩ := hholding.row
        have hsent := hstamped (by rw [hwritten]; rfl)
        refine (min?_cons_of_lt hfirst.symm fun time htime ↦ ?_).symm
        obtain ⟨message, hmessage, rfl⟩ := List.mem_map.mp htime
        obtain ⟨latest, hlatest, hle⟩ := mem_times (List.mem_of_mem_filter hmessage)
        rw [hsent]
        exact lt_of_le_of_lt hle (lt_nextAfter hlatest _)
      | some time =>
        have hnone := hread (by rw [hset]; rfl)
        rw [hnone] at hfirst
        rw [List.min?_eq_none_iff.mp hfirst.symm, (hconsidered.sets time hset).1]
        rfl
    · rw [firstAnswer_posted_of_not hanswer]
      cases hset : posting.feedbackSentAt with
      | none => exact hfirst
      | some time => exact absurd (hconsidered.sets time hset).2 hanswer
  · rw [Function.update_of_ne heq, firstAnswer_posted_of_ne heq]
    exact h report stored hstored

def statutoryTimes (ι : Type) [DecidableEq ι] (feedbackDue : ℕ → Option ℕ → ℕ) :
    Extension ι feedbackDue where
  holds := FeedbackSound
  allows := CommitsTimesAsRead
  congr s t hrows hmessages hfeedback h := by
    intro report row hrow
    rw [hrows] at hrow
    rw [hfeedback, Desk.firstAnswer, Desk.answers, hmessages]
    exact h report row hrow
  withOffice s office hrows h := by
    intro report row hrow
    obtain ⟨old, hold⟩ := hrows report row hrow
    change office.table.row report = some row at hrow
    have hthread : (s.withOffice office).messages report = s.messages report := by
      simp [Desk.withOffice, Desk.threadsWith, hrow]
    rw [Desk.firstAnswer, Desk.answers, hthread]
    exact h report old hold
  submit s t report time _ hsubmit h := by
    obtain ⟨-, rfl⟩ := submit_cases feedbackDue hsubmit
    intro other row hrow
    change Function.update s.office.table.row report _ other = some row at hrow
    show Function.update s.feedbackSentAt report none other =
      (((Function.update s.messages report [receipt (dayFloor time)] other).filter _).map _).min?
    by_cases heq : other = report
    · subst heq
      rw [Function.update_self, Function.update_self]
      rfl
    · rw [Function.update_of_ne heq] at hrow
      rw [Function.update_of_ne heq, Function.update_of_ne heq]
      exact h other row hrow
  posted _ _ _ _ _ h hallows hended hholding hstamped hconsidered _ :=
    feedbackSound_posted h (hallows.2 hended) hholding hstamped hconsidered

/-! ### What stays once it is committed -/

/-- A time that is committed for a report. -/
structure Settled (report : ι) (acknowledgedAt feedbackSentAt : Option ℕ) (s : Desk ι) : Prop where
  known : report ∈ s.office.reports
  acknowledged : ∀ row, s.office.table.row report = some row → ∀ time, acknowledgedAt = some time →
    row.acknowledgedAt = some time
  feedback : ∀ time, feedbackSentAt = some time → s.feedbackSentAt report = some time

/-- An acknowledgement sets `acknowledged_at` only where it has read it empty. -/
theorem read_eq_none_of_ne {now : ℕ} {read new : Row ℕ}
    (hdecided : Row.Decided feedbackDue now read new)
    (hne : new.acknowledgedAt ≠ read.acknowledgedAt) : read.acknowledgedAt = none := by
  rcases hdecided with rfl | ⟨newStatus, -, rfl⟩
  · by_contra hsome
    apply hne
    simp [Row.acknowledgeReport, hsome]
  · exact absurd rfl hne

/-- A commit that meets `acknowledged_at` as read keeps the one that is committed. -/
theorem acknowledgedAt_of_seenBy {s : Desk ι} (hsound : DeskSound feedbackDue s) {w : ℕ}
    (hended : s.office.ended w = false) (hread : AcknowledgesAsRead w s.office) {report : ι}
    {new : Row ℕ} (hseen : s.office.table.seenBy w report = some new) :
    ∃ old, s.office.table.row report = some old ∧
      ∀ time, old.acknowledgedAt = some time → new.acknowledgedAt = some time := by
  obtain ⟨old, hold, rfl | ⟨-, change, hflushed, rfl, hdecided, rfl⟩⟩ := hsound.seenBy_cases hseen
  · exact ⟨new, hold, fun _ htime ↦ htime⟩
  refine ⟨old, hold, fun time htime ↦ ?_⟩
  by_cases hsame : change.new.acknowledgedAt = change.read.acknowledgedAt
  · simp [Row.updated, hsame, htime]
  · have hmeets := hread hended change hflushed hsame old hold
    rw [read_eq_none_of_ne hdecided hsame, htime] at hmeets
    cases hmeets

section Settled

variable {s : Desk ι} {report : ι} {acknowledgedAt feedbackSentAt : Option ℕ}

theorem Settled.of_seenBy (h : Settled report acknowledgedAt feedbackSentAt s)
    (hsound : DeskSound feedbackDue s) {w : ℕ} (hended : s.office.ended w = false)
    (hread : AcknowledgesAsRead w s.office) {t : Desk ι}
    (hreports : t.office.reports = s.office.reports)
    (hrows : t.office.table.row = s.office.table.seenBy w)
    (hfeedback : ∀ time, s.feedbackSentAt report = some time → t.feedbackSentAt report = some time) :
    Settled report acknowledgedAt feedbackSentAt t where
  known := by
    rw [hreports]
    exact h.known
  acknowledged row hrow time htime := by
    rw [hrows] at hrow
    obtain ⟨old, hold, hkept⟩ := acknowledgedAt_of_seenBy hsound hended hread hrow
    exact hkept time (h.acknowledged old hold time htime)
  feedback time htime := hfeedback time (h.feedback time htime)

theorem Settled.of_rows (h : Settled report acknowledgedAt feedbackSentAt s) {t : Desk ι}
    (hreports : t.office.reports = s.office.reports)
    (hrows : t.office.table.row = s.office.table.row)
    (hfeedback : t.feedbackSentAt = s.feedbackSentAt) :
    Settled report acknowledgedAt feedbackSentAt t where
  known := by
    rw [hreports]
    exact h.known
  acknowledged row hrow := by
    rw [hrows] at hrow
    exact h.acknowledged row hrow
  feedback time htime := by
    rw [hfeedback]
    exact h.feedback time htime

theorem settled_office (h : Settled report acknowledgedAt feedbackSentAt s)
    (hsound : DeskSound feedbackDue s) {w : ℕ} {operation : Cases.Op ι ℕ}
    (hallows : CommitsTimesAsRead w (.office operation) s) {time : ℕ} {office : Office ι ℕ}
    {reply : Except Cases.Fault (Cases.Reply operation)}
    (hperform : Cases.perform w operation time s.office = some (reply, office)) :
    Settled report acknowledgedAt feedbackSentAt (s.withOffice office) := by
  cases operation with
  | getReport other =>
    cases hperform
    exact h.of_rows rfl rfl rfl
  | now =>
    cases hperform
    exact h.of_rows rfl rfl rfl
  | selectExpired closedBefore =>
    cases hperform
    exact h.of_rows rfl rfl rfl
  | flush change =>
    rcases Cases.flush_cases hperform with rfl | ⟨row, -, -, rfl⟩
    · exact h.of_rows rfl rfl rfl
    · exact h.of_rows rfl rfl rfl
  | deleteReport other selected closedBefore =>
    rcases Cases.deleteReport_cases hperform with rfl | ⟨row, -, -, rfl⟩
    · exact h.of_rows rfl rfl rfl
    · exact h.of_rows rfl rfl rfl
  | commit entries =>
    by_cases hended : s.office.ended w = true
    · have hsame : s.office.commit w entries = some (.error .raised, s.office) := by
        simp [Office.commit, hended]
      cases hsame.symm.trans hperform
      exact h.of_rows rfl rfl rfl
    · have hopen : s.office.ended w = false := (Bool.not_eq_true _).mp hended
      rcases Cases.commit_cases hperform with rfl | rfl
      · exact h.of_rows rfl rfl rfl
      · exact h.of_seenBy hsound hopen hallows rfl rfl fun _ htime ↦ htime

theorem settled_perform (h : Settled report acknowledgedAt feedbackSentAt s)
    (hsound : DeskSound feedbackDue s) {w : ℕ} {operation : Op ι}
    (hallows : CommitsTimesAsRead w operation s) {time : ℕ} {t : Desk ι}
    {reply : Except Cases.Fault (Reply operation)}
    (hperform : perform w operation time s = some (reply, t)) :
    Settled report acknowledgedAt feedbackSentAt t := by
  cases operation with
  | office operation =>
    obtain ⟨office, hoffice, rfl⟩ := office_cases hperform
    exact settled_office h hsound hallows hoffice
  | getReport other =>
    cases hperform
    exact h.of_rows rfl rfl rfl
  | lockReport other =>
    rcases lockReport_cases hperform with ⟨rfl, -⟩ | ⟨row, -, -, rfl⟩
    · exact h
    · exact h.of_rows rfl rfl rfl
  | latestSentAt other =>
    cases hperform
    exact h
  | commitMessage posting =>
    rcases commitMessage_cases hperform with rfl | ⟨row, hended, -, rfl⟩
    · exact h
    refine h.of_seenBy hsound hended hallows.1 rfl rfl fun time htime ↦ ?_
    show Function.update s.feedbackSentAt posting.report _ report = some time
    by_cases heq : report = posting.report
    · subst heq
      rw [Function.update_self]
      cases hset : posting.feedbackSentAt with
      | none => exact htime
      | some other =>
        rw [hallows.2 hended (by rw [hset]; rfl)] at htime
        cases htime
    · rw [Function.update_of_ne heq]
      exact htime

theorem settled_environment (h : Settled report acknowledgedAt feedbackSentAt s)
    {happening : Happening ι} {t : Desk ι}
    (hchange : environment feedbackDue happening s = some t) :
    Settled report acknowledgedAt feedbackSentAt t := by
  cases happening with
  | abort w =>
    rw [abort_eq feedbackDue hchange]
    exact h.of_rows rfl rfl rfl
  | submit other time =>
    obtain ⟨hnot, rfl⟩ := submit_cases feedbackDue hchange
    have hne : report ≠ other := by
      rintro rfl
      exact hnot h.known
    refine ⟨List.mem_cons_of_mem _ h.known, fun row hrow ↦ h.acknowledged row ?_,
      fun time htime ↦ (Function.update_of_ne hne ..).trans (h.feedback time htime)⟩
    change Function.update s.office.table.row other _ report = some row at hrow
    rwa [Function.update_of_ne hne] at hrow

end Settled

/-! ### Every run -/

/-- Every commit meets the statutory times it sets as its request has read them. -/
def TimesAsRead (s : Work ι) (event : Step ι) : Prop := s.Acts CommitsTimesAsRead event

theorem permits_of_timesAsRead {s : Work ι} {event : Step ι} (h : TimesAsRead s event) :
    (desk (statutoryTimes ι feedbackDue)).Permits s event :=
  Contract.permits_of_acting (fun _ ↦ trivial) (fun _ _ _ ↦ trivial) (fun _ _ ↦ trivial) h

/-- What is settled stays settled. -/
theorem settled_step {s t : Work ι} {event : Step ι}
    (hholds : (desk (statutoryTimes ι feedbackDue)).Holds s) {report : ι}
    {acknowledgedAt feedbackSentAt : Option ℕ}
    (h : Settled report acknowledgedAt feedbackSentAt s.shared) (hread : TimesAsRead s event)
    (hstep : step (semantics feedbackDue) (handler feedbackDue) s event = some t) :
    Settled report acknowledgedAt feedbackSentAt t.shared := by
  rcases acting_cases hstep with ⟨w, operation, draw, reply, hacting, hperform⟩ |
    ⟨change, hchange⟩ | hsame
  · exact settled_perform h hholds.invariant.1 (hread w operation hacting) hperform
  · exact settled_environment h hchange
  · rw [hsame]
    exact h

/-- In every run whose commits meet the statutory times they set as their requests have read them,
`acknowledged_at` and `feedback_sent_at` never change once they are committed, and
`feedback_sent_at` is the time of the earliest message of an admin whose transaction has read the
report as acknowledged. -/
theorem statutory_times_are_written_once {first second : List (Step ι)} {middle last : Work ι}
    (hread : Meets (semantics feedbackDue) (handler feedbackDue) TimesAsRead start (first ++ second))
    (hfirst : run (semantics feedbackDue) (handler feedbackDue) start first = some middle)
    (hsecond : run (semantics feedbackDue) (handler feedbackDue) middle second = some last)
    {report : ι} {before after : Row ℕ}
    (hbefore : middle.shared.office.table.row report = some before)
    (hafter : last.shared.office.table.row report = some after) :
    (∀ time, before.acknowledgedAt = some time → after.acknowledgedAt = some time) ∧
    (∀ time, middle.shared.feedbackSentAt report = some time →
      last.shared.feedbackSentAt report = some time) ∧
    last.shared.feedbackSentAt report = last.shared.firstAnswer report := by
  obtain ⟨hreadFirst, hreadSecond⟩ := meets_append.mp hread
  have hstart : (desk (statutoryTimes ι feedbackDue)).Holds start :=
    desk_start fun _ _ hrow ↦ nomatch hrow
  have hmiddle := Contract.run_safe desk_handles hstart
    (meets_imp (fun _ _ h ↦ permits_of_timesAsRead h) hreadFirst) hfirst
  have hsettled : Settled report before.acknowledgedAt (middle.shared.feedbackSentAt report)
      middle.shared := by
    refine ⟨hmiddle.invariant.1.mem_reports hbefore, fun row hrow time htime ↦ ?_, fun _ ↦ id⟩
    cases hbefore.symm.trans hrow
    exact htime
  have hkeeps : ∀ (s : Work ι) event (t : Work ι),
      (desk (statutoryTimes ι feedbackDue)).Holds s ∧
        Settled report before.acknowledgedAt (middle.shared.feedbackSentAt report) s.shared →
      TimesAsRead s event → step (semantics feedbackDue) (handler feedbackDue) s event = some t →
      (desk (statutoryTimes ι feedbackDue)).Holds t ∧
        Settled report before.acknowledgedAt (middle.shared.feedbackSentAt report) t.shared :=
    fun s event t hs hcondition hstep ↦ ⟨Contract.holds_step desk_handles hs.1
      (permits_of_timesAsRead hcondition) hstep, settled_step hs.1 hs.2 hcondition hstep⟩
  have hboth := run_invariant hkeeps ⟨hmiddle, hsettled⟩ (hreadSecond middle hfirst) hsecond
  exact ⟨hboth.2.acknowledged after hafter, hboth.2.feedback,
    hboth.1.invariant.2 report after hafter⟩

instance (w : ℕ) (s : Office ι ℕ) : Decidable (AcknowledgesAsRead w s) :=
  inferInstanceAs (Decidable (s.ended w = false → ∀ change ∈ s.flushed w, _ → _))

instance (w : ℕ) (operation : Op ι) (s : Desk ι) : Decidable (CommitsTimesAsRead w operation s) :=
  match operation with
  | .office (.commit _) => inferInstanceAs (Decidable (AcknowledgesAsRead w s.office))
  | .commitMessage posting => inferInstanceAs (Decidable (AcknowledgesAsRead w s.office ∧
      (s.office.ended w = false → posting.feedbackSentAt.isSome = true →
        s.feedbackSentAt posting.report = none)))
  | .office (.getReport _) | .office .now | .office (.flush _) | .office (.selectExpired _)
  | .office (.deleteReport _ _ _) | .getReport _ | .lockReport _ | .latestSentAt _ => isTrue trivial

instance (s : Work ι) (event : Step ι) : Decidable (TimesAsRead s event) :=
  inferInstanceAs (Decidable (s.Acts CommitsTimesAsRead event))

/-- Report 0 is acknowledged at 5 and answered at 10. -/
def answeredOnce : List (Step ℕ) :=
  [.environment (.submit 0 1),
    .start 1 (.office (.acknowledge 0 true)), .run 1 0, .run 1 5, .run 1 0, .run 1 0,
    .start 2 (.adminReply 0 "We look into it." true), .run 2 0, .run 2 10, .run 2 0, .run 2 0,
    .run 2 0]

/-- Then it is acknowledged again at 7 and answered again at 20. -/
def answeredAgain : List (Step ℕ) :=
  [.start 3 (.office (.acknowledge 0 true)), .run 3 0, .run 3 7, .run 3 0, .run 3 0,
    .start 4 (.adminReply 0 "It is settled." true), .run 4 0, .run 4 20, .run 4 0, .run 4 0,
    .run 4 0]

/-- Two users acknowledge and two answer, each pair on what they have both read; the first of each
pair commits. -/
def firstOfEachPair : List (Step ℕ) :=
  [.environment (.submit 0 1),
    .start 1 (.office (.acknowledge 0 true)), .start 2 (.office (.acknowledge 0 true)),
    .run 1 0, .run 2 0, .run 1 5, .run 1 0, .run 1 0,
    .start 3 (.adminReply 0 "We look into it." true), .start 4 (.adminReply 0 "It is settled." true),
    .run 3 0, .run 4 0, .run 3 10, .run 3 0, .run 3 0, .run 3 0]

/-- The second of each pair commits. -/
def secondOfEachPair : List (Step ℕ) :=
  [.run 2 7, .run 2 0, .run 2 0, .run 4 20, .run 4 0, .run 4 0, .run 4 0]

theorem statutory_times_of_one_after_the_other : ∃ middle last before after,
    run (semantics Cases.ninetyDays) (handler Cases.ninetyDays) start answeredOnce = some middle ∧
    run (semantics Cases.ninetyDays) (handler Cases.ninetyDays) middle answeredAgain = some last ∧
    middle.shared.office.table.row 0 = some before ∧ last.shared.office.table.row 0 = some after ∧
    before.acknowledgedAt = some 5 ∧ middle.shared.feedbackSentAt 0 = some 10 ∧
    (∀ time, before.acknowledgedAt = some time → after.acknowledgedAt = some time) ∧
    (∀ time, middle.shared.feedbackSentAt 0 = some time →
      last.shared.feedbackSentAt 0 = some time) ∧
    last.shared.feedbackSentAt 0 = last.shared.firstAnswer 0 := by
  have hfirst := run_eq_get (show (run (semantics Cases.ninetyDays) (handler Cases.ninetyDays) start
    answeredOnce).isSome = true by decide +kernel)
  have hsecond := run_eq_get (show (run (semantics Cases.ninetyDays) (handler Cases.ninetyDays)
    ((run (semantics Cases.ninetyDays) (handler Cases.ninetyDays) start answeredOnce).get
      (by decide +kernel)) answeredAgain).isSome = true by decide +kernel)
  have hbefore : ((run (semantics Cases.ninetyDays) (handler Cases.ninetyDays) start
      answeredOnce).get (by decide +kernel)).shared.office.table.row 0 =
      some ⟨.inReview, 0, some 5, some 90, none⟩ := by decide +kernel
  refine ⟨_, _, _, ⟨.inReview, 0, some 5, some 90, none⟩, hfirst, hsecond, hbefore,
    by decide +kernel, rfl, by decide +kernel, ?_⟩
  exact statutory_times_are_written_once (by decide +kernel) hfirst hsecond hbefore
    (by decide +kernel)

/-- Both times are committed and then overwritten, and the feedback is not the first answer's. -/
theorem overlap_moves_the_statutory_times : ∃ middle last,
    run (semantics Cases.ninetyDays) (handler Cases.ninetyDays) start firstOfEachPair = some middle ∧
    run (semantics Cases.ninetyDays) (handler Cases.ninetyDays) middle secondOfEachPair = some last ∧
    (middle.shared.office.table.row 0).map Row.acknowledgedAt = some (some 5) ∧
    (last.shared.office.table.row 0).map Row.acknowledgedAt = some (some 7) ∧
    middle.shared.feedbackSentAt 0 = some 10 ∧ last.shared.feedbackSentAt 0 = some 20 ∧
    last.shared.firstAnswer 0 = some 10 := by
  have hfirst := run_eq_get (show (run (semantics Cases.ninetyDays) (handler Cases.ninetyDays) start
    firstOfEachPair).isSome = true by decide +kernel)
  have hsecond := run_eq_get (show (run (semantics Cases.ninetyDays) (handler Cases.ninetyDays)
    ((run (semantics Cases.ninetyDays) (handler Cases.ninetyDays) start firstOfEachPair).get
      (by decide +kernel)) secondOfEachPair).isSome = true by decide +kernel)
  exact ⟨_, _, hfirst, hsecond, by decide +kernel, by decide +kernel, by decide +kernel,
    by decide +kernel, by decide +kernel⟩

end OpenWhistle.Threads
