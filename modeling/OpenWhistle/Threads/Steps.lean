import OpenWhistle.Threads.Invariant

/-!
# The steps of the desk

Every operation keeps the invariant of the desk and what the others rely on: the operations of the
office, the lock of a reply, the commit of its message, and what the environment does.
-/

set_option autoImplicit false
set_option relaxedAutoImplicit false
set_option linter.unusedSectionVars false

namespace OpenWhistle.Threads

open Interleaving ReadCommitted
open Cases (Row Status Transition Office Fault Page Change TransactionKept Unwritten lastStatus)

variable {ι : Type} [DecidableEq ι] {feedbackDue : ℕ → Option ℕ → ℕ}

/-! ### The invariant -/

/-- A move of the office under which no report appears. -/
theorem DeskSound.withOffice {s : Desk ι} (h : DeskSound feedbackDue s) {office : Office ι ℕ}
    (hlocks : ∀ report w written, office.table.lock report = some ⟨w, written⟩ →
      LockSound feedbackDue office w report written)
    (hstatus : ∀ report row, office.table.row report = some row →
      row.status = lastStatus (office.transitions report))
    (hunknown : ∀ report, report ∉ office.reports → Cases.Unknown office report)
    (hrows : ∀ report row, office.table.row report = some row →
      ∃ old, s.office.table.row report = some old) : DeskSound feedbackDue (s.withOffice office) where
  locks := hlocks
  status := hstatus
  unknown := hunknown
  ordered report := by
    show Ordered (if _ then _ else _)
    split_ifs
    · exact List.Pairwise.nil
    · exact h.ordered report
  days report := by
    show OnTheirDays (if _ then _ else _)
    split_ifs
    · trivial
    · exact h.days report
  receipt report row hrow := by
    obtain ⟨old, hold⟩ := hrows report row hrow
    obtain ⟨newer, today, hmessages⟩ := h.receipt report old hold
    refine ⟨newer, today, ?_⟩
    change office.table.row report = some row at hrow
    rw [← hmessages]
    simp [Desk.withOffice, Desk.threadsWith, hrow]

/-- The lock of a report is replaced, by a transaction that was not blocked. -/
theorem lockSound_lockRow {s t : Office ι ℕ}
    (h : ∀ report w written, s.table.lock report = some ⟨w, written⟩ →
      LockSound feedbackDue s w report written)
    {w : ℕ} {report : ι} {written : Option (Row ℕ)}
    (htable : t.table = s.table.lockRow w report written)
    (hflushed : ∀ other v old, s.table.lock other = some ⟨v, old⟩ → t.flushed v = s.flushed v)
    (hnew : LockSound feedbackDue t w report written) :
    ∀ other v old, t.table.lock other = some ⟨v, old⟩ → LockSound feedbackDue t v other old := by
  intro other v old hlock
  by_cases heq : other = report
  · subst heq
    rw [htable, Table.lock_lockRow_self] at hlock
    cases hlock
    exact hnew
  · rw [htable, Table.lock_lockRow_of_ne heq] at hlock
    obtain ⟨row, hrow, hwritten⟩ := h other v old hlock
    refine ⟨row, by rw [htable]; exact hrow, fun new hnew ↦ ?_⟩
    rcases hwritten new hnew with hsame | ⟨change, hchange, hrest⟩
    · exact .inl hsame
    · exact .inr ⟨change, (hflushed other v old hlock).trans hchange, hrest⟩

/-- A flush by a transaction that holds no lock. -/
theorem deskSound_flush {s : Desk ι} (h : DeskSound feedbackDue s) {w : ℕ}
    (hfree : Unwritten w s.office) {change : Change ι ℕ}
    (hdecided : Row.Decided feedbackDue change.time change.read change.new) {office : Office ι ℕ}
    {reply : Except Fault (Row ℕ)} (hflush : s.office.flush w change = some (reply, office)) :
    DeskSound feedbackDue (s.withOffice office) := by
  rcases Cases.flush_cases hflush with rfl | ⟨row, -, hseen, rfl⟩
  · exact h.withOffice h.locks h.status h.unknown fun _ row hrow ↦ ⟨row, hrow⟩
  have hrow : s.office.table.row change.report = some row := by
    rw [← hseen, Table.seenBy_of_not_writtenBy (hfree change.report)]
  refine h.withOffice (lockSound_lockRow h.locks rfl (fun other v old hlock ↦ ?_) ?_) h.status
    (fun other hnot ↦ (h.unknown other hnot).lockRow hseen rfl rfl) fun _ row hrow ↦ ⟨row, hrow⟩
  · have hne : v ≠ w := by
      rintro rfl
      cases (hfree other).symm.trans (Table.writtenBy_eq_some.mpr hlock)
    exact Function.update_of_ne hne ..
  · refine ⟨row, hrow, fun new hnew ↦ .inr ⟨change, Function.update_self .., rfl, hdecided, ?_⟩⟩
    cases hnew
    rfl

theorem deskSound_deleteReport {s : Desk ι} (h : DeskSound feedbackDue s) {w : ℕ} {report : ι}
    {closedBefore : ℕ} {office : Office ι ℕ} {reply : Except Fault Unit}
    (hdelete : s.office.deleteReport w report closedBefore = some (reply, office)) :
    DeskSound feedbackDue (s.withOffice office) := by
  rcases Cases.deleteReport_cases hdelete with rfl | ⟨row, -, hseen, rfl⟩
  · exact h.withOffice h.locks h.status h.unknown fun _ row hrow ↦ ⟨row, hrow⟩
  obtain ⟨old, hold, -⟩ := h.seenBy_cases hseen
  exact h.withOffice
    (lockSound_lockRow h.locks rfl (fun _ _ _ _ ↦ rfl) ⟨old, hold, fun _ hnew ↦ nomatch hnew⟩)
    h.status (fun other hnot ↦ (h.unknown other hnot).lockRow hseen rfl rfl)
    fun _ row hrow ↦ ⟨row, hrow⟩

/-- The locks that are left when a transaction ends are those of the others, on the same rows. -/
theorem locks_of_release {s t : Office ι ℕ}
    (h : ∀ report w written, s.table.lock report = some ⟨w, written⟩ →
      LockSound feedbackDue s w report written)
    {w : ℕ} (hlock : t.table.lock = (s.table.release w).lock)
    (hrow : ∀ report lock, s.table.lock report = some lock → lock.holder ≠ w →
      t.table.row report = s.table.row report)
    (hflushed : t.flushed = s.flushed) :
    ∀ report v written, t.table.lock report = some ⟨v, written⟩ →
      LockSound feedbackDue t v report written := by
  intro report v written hheld
  rw [hlock] at hheld
  obtain ⟨hbefore, hne⟩ := Table.lock_release hheld
  obtain ⟨old, hold, hwritten⟩ := h report v written hbefore
  refine ⟨old, (hrow report _ hbefore hne).trans hold, fun new hnew ↦ ?_⟩
  rcases hwritten new hnew with hsame | ⟨change, hchange, hrest⟩
  · exact .inl hsame
  · exact .inr ⟨change, by rw [hflushed]; exact hchange, hrest⟩

/-- A commit of the office publishes UPDATEs and deletions. -/
theorem deskSound_commit {s : Desk ι} (h : DeskSound feedbackDue s) {w : ℕ}
    {entries : List (Cases.AuditEntry ι ℕ)} {office : Office ι ℕ} {reply : Except Fault Unit}
    (hcommit : s.office.commit w entries = some (reply, office)) :
    DeskSound feedbackDue (s.withOffice office) := by
  rcases Cases.commit_cases hcommit with rfl | rfl
  · exact h.withOffice h.locks h.status h.unknown fun _ row hrow ↦ ⟨row, hrow⟩
  refine h.withOffice (locks_of_release h.locks rfl (fun _ _ hlock hne ↦
      Table.row_commit_of_lock hlock hne) rfl) (fun report row hrow ↦ ?_)
    (fun other hnot ↦ (h.unknown other hnot).commit w entries) fun report row hrow ↦ ?_
  · change s.office.table.seenBy w report = some row at hrow
    show row.status = lastStatus (s.office.transitionsAfter w report)
    cases hwritten : s.office.table.writtenBy w report with
    | none =>
      rw [Table.seenBy_of_not_writtenBy hwritten] at hrow
      rw [h.status report row hrow]
      simp [Office.transitionsAfter, hwritten]
    | some written =>
      obtain ⟨old, hold, hnew⟩ := h.seenBy_cases hrow
      rw [Table.seenBy_of_writtenBy hwritten] at hrow
      subst hrow
      cases hflushed : s.office.flushed w with
      | none =>
        rcases hnew with rfl | ⟨-, change, hchange, -⟩
        · rw [h.status report row hold]
          simp [Office.transitionsAfter, hflushed]
        · rw [hflushed] at hchange
          cases hchange
      | some change =>
        have hafter : s.office.transitionsAfter w report =
            Row.withTransition old row change.time (s.office.transitions report) := by
          simp [Office.transitionsAfter, hflushed, hold, hwritten]
        rw [hafter, Row.lastStatus_withTransition (h.status report old hold)]
  · obtain ⟨old, hold, -⟩ := h.seenBy_cases hrow
    exact ⟨old, hold⟩

theorem deskSound_lockReport {s t : Desk ι} (h : DeskSound feedbackDue s) {w : ℕ}
    (hfree : Unwritten w s.office) {report : ι} {reply : Except Fault Unit}
    (hlock : s.lockReport w report = some (reply, t)) : DeskSound feedbackDue t := by
  rcases lockReport_cases hlock with ⟨rfl, -⟩ | ⟨row, -, hseen, rfl⟩
  · exact h
  have hrow : s.office.table.row report = some row := by
    rw [← hseen, Table.seenBy_of_not_writtenBy (hfree report)]
  refine ⟨lockSound_lockRow h.locks rfl (fun _ _ _ _ ↦ rfl) ⟨row, hrow, fun new hnew ↦ ?_⟩,
    h.status, fun other hnot ↦ (h.unknown other hnot).lockRow hseen rfl rfl, h.ordered, h.days,
    h.receipt⟩
  cases hnew
  exact .inl rfl

/-- A message is posted by the transaction that holds the lock. -/
theorem deskSound_posted {s : Desk ι} (h : DeskSound feedbackDue s) {w : ℕ} {posting : Posting ι}
    (hholding : Holding w posting.report s) (hstamped : Stamped w posting s) (row : Row ℕ) :
    DeskSound feedbackDue (s.posted w posting row) := by
  have hrows := hholding.rows
  obtain ⟨stored, -, hwritten⟩ := hholding.row
  have hsent := hstamped (by rw [hwritten]; rfl)
  refine ⟨locks_of_release h.locks rfl (fun report _ _ _ ↦ congrFun hrows report) rfl,
    fun report stored hstored ↦ ?_, fun report hnot ↦ ?_, fun report ↦ ?_, fun report ↦ ?_,
    fun report stored hstored ↦ ?_⟩
  · change (s.office.table.commit w).row report = some stored at hstored
    rw [hrows] at hstored
    exact h.status report stored hstored
  · have hunknown := h.unknown report hnot
    refine ⟨?_, ?_, hunknown.transitions⟩
    · show (s.office.table.commit w).row report = none
      rw [hrows]
      exact hunknown.row
    · show (s.office.table.release w).lock report = none
      simp [Table.release, hunknown.writtenBy w, hunknown.lock]
  · show Ordered (Function.update s.messages posting.report _ report)
    by_cases heq : report = posting.report
    · subst heq
      rw [Function.update_self]
      exact (h.ordered posting.report).post hsent
    · rw [Function.update_of_ne heq]
      exact h.ordered report
  · show OnTheirDays (Function.update s.messages posting.report _ report)
    by_cases heq : report = posting.report
    · subst heq
      rw [Function.update_self]
      exact (h.days posting.report).post hsent fun hsender ↦ if_pos hsender
    · rw [Function.update_of_ne heq]
      exact h.days report
  · change (s.office.table.commit w).row report = some stored at hstored
    rw [hrows] at hstored
    obtain ⟨newer, today, hmessages⟩ := h.receipt report stored hstored
    by_cases heq : report = posting.report
    · subst heq
      refine ⟨Desk.messageOf posting row.status :: newer, today, ?_⟩
      show Function.update s.messages posting.report _ posting.report = _
      rw [Function.update_self, hmessages]
      rfl
    · refine ⟨newer, today, ?_⟩
      show Function.update s.messages posting.report _ report = _
      rw [Function.update_of_ne heq, hmessages]

/-- A new report opens its thread with the receipt. -/
theorem deskSound_submit {s t : Desk ι} (h : DeskSound feedbackDue s) {report : ι} {time : ℕ}
    (hsubmit : environment feedbackDue (.submit report time) s = some t) :
    DeskSound feedbackDue t := by
  obtain ⟨hnot, rfl⟩ := submit_cases feedbackDue hsubmit
  have hunknown := h.unknown report hnot
  refine ⟨fun other w written hlock ↦ ?_, fun other row hrow ↦ ?_, fun other hother ↦ ?_,
    fun other ↦ ?_, fun other ↦ ?_, fun other row hrow ↦ ?_⟩
  · change s.office.table.lock other = some ⟨w, written⟩ at hlock
    have hne : other ≠ report := by
      rintro rfl
      rw [hunknown.lock] at hlock
      cases hlock
    obtain ⟨old, hold, hwritten⟩ := h.locks other w written hlock
    exact ⟨old, (Function.update_of_ne hne ..).trans hold, hwritten⟩
  · change Function.update s.office.table.row report _ other = some row at hrow
    show row.status = lastStatus (s.office.transitions other)
    by_cases heq : other = report
    · subst heq
      rw [Function.update_self] at hrow
      cases hrow
      rw [hunknown.transitions]
      rfl
    · rw [Function.update_of_ne heq] at hrow
      exact h.status other row hrow
  · have hne : other ≠ report := fun heq ↦ hother (heq ▸ List.mem_cons_self)
    exact (h.unknown other fun hmem ↦ hother (List.mem_cons_of_mem _ hmem)).submit hne _
  · show Ordered (Function.update s.messages report _ other)
    by_cases heq : other = report
    · subst heq
      rw [Function.update_self]
      exact List.pairwise_singleton _ _
    · rw [Function.update_of_ne heq]
      exact h.ordered other
  · show OnTheirDays (Function.update s.messages report _ other)
    by_cases heq : other = report
    · subst heq
      rw [Function.update_self]
      exact ⟨(fun hsender ↦ nomatch hsender), trivial⟩
    · rw [Function.update_of_ne heq]
      exact h.days other
  · change Function.update s.office.table.row report _ other = some row at hrow
    by_cases heq : other = report
    · subst heq
      exact ⟨[], dayFloor time, Function.update_self ..⟩
    · rw [Function.update_of_ne heq] at hrow
      obtain ⟨newer, today, hmessages⟩ := h.receipt other row hrow
      exact ⟨newer, today, (Function.update_of_ne heq ..).trans hmessages⟩

theorem deskSound_abort {s t : Desk ι} (h : DeskSound feedbackDue s) {w : ℕ}
    (habort : environment feedbackDue (.abort w) s = some t) : DeskSound feedbackDue t := by
  rw [abort_eq feedbackDue habort]
  exact ⟨locks_of_release h.locks rfl (fun _ _ _ _ ↦ rfl) rfl, h.status,
    fun other hnot ↦ (h.unknown other hnot).abort w, h.ordered, h.days, h.receipt⟩

/-! ### What the others rely on -/

/-- The rows after an operation of the office are those before it, or what its transaction has
written. -/
theorem row_perform {w : ℕ} {operation : Cases.Op ι ℕ} {time : ℕ} {s t : Office ι ℕ}
    {reply : Except Fault (Cases.Reply operation)}
    (h : Cases.perform w operation time s = some (reply, t)) :
    t.table.row = s.table.row ∨ t.table.row = s.table.seenBy w := by
  cases operation with
  | getReport report =>
    cases h
    exact .inl rfl
  | now =>
    cases h
    exact .inl rfl
  | selectExpired closedBefore =>
    cases h
    exact .inl rfl
  | flush change => rcases Cases.flush_cases h with rfl | ⟨row, -, -, rfl⟩ <;> exact .inl rfl
  | deleteReport report selected closedBefore =>
    rcases Cases.deleteReport_cases h with rfl | ⟨row, -, -, rfl⟩ <;> exact .inl rfl
  | commit entries =>
    rcases Cases.commit_cases h with rfl | rfl
    · exact .inl rfl
    · exact .inr rfl

/-- A report that is gone does not come back by an operation of the office. -/
theorem gone_perform {s : Desk ι} (h : DeskSound feedbackDue s) {w : ℕ}
    {operation : Cases.Op ι ℕ} {time : ℕ} {office : Office ι ℕ}
    {reply : Except Fault (Cases.Reply operation)}
    (hperform : Cases.perform w operation time s.office = some (reply, office)) {report : ι}
    (hrow : s.office.table.row report = none) : office.table.row report = none := by
  rcases row_perform hperform with heq | heq
  · rw [heq, hrow]
  · rw [heq, h.seenBy_eq_none w hrow]

theorem deskKept_office {s : Desk ι} (h : DeskSound feedbackDue s) {v w : ℕ} (hne : v ≠ w)
    {operation : Cases.Op ι ℕ} {time : ℕ} {office : Office ι ℕ}
    {reply : Except Fault (Cases.Reply operation)}
    (hperform : Cases.perform w operation time s.office = some (reply, office)) :
    DeskKept v s (s.withOffice office) := by
  have hkept := Cases.transactionKept_perform hne hperform
  refine ⟨hkept, fun report hwritten ↦ ?_, fun report _ hrow ↦ gone_perform h hperform hrow,
    fun _ _ hset ↦ hset, rfl⟩
  obtain ⟨htable, hbefore⟩ := writtenBy_of_kept hkept hwritten
  have hrow := htable.row report hbefore
  show (if (s.office.table.row report).isSome && (office.table.row report).isNone then _ else _) = _
  rw [hrow]
  cases s.office.table.row report <;> rfl

theorem deskKept_lockReport {s t : Desk ι} {v w : ℕ} (hne : v ≠ w) {report : ι}
    {reply : Except Fault Unit} (hlock : s.lockReport w report = some (reply, t)) :
    DeskKept v s t := by
  rcases lockReport_cases hlock with ⟨rfl, -⟩ | ⟨row, hblocked, -, rfl⟩
  · exact DeskKept.refl v t
  · exact ⟨⟨id, rfl, .inl (Table.kept_lockRow hne hblocked _), fun _ ↦ id⟩, fun _ _ ↦ rfl,
      fun _ _ hrow ↦ hrow, fun _ _ hset ↦ hset, rfl⟩

theorem deskKept_getReport (s : Desk ι) {v w : ℕ} (hne : v ≠ w) (report : ι) :
    DeskKept v s
      { s with loaded := Function.update s.loaded w (s.office.transitions report) } :=
  ⟨TransactionKept.refl v s.office, fun _ _ ↦ rfl, fun _ _ h ↦ h, fun _ _ h ↦ h,
    Function.update_of_ne hne ..⟩

theorem deskKept_posted {s : Desk ι} {v w : ℕ} (hne : v ≠ w) {posting : Posting ι}
    (hholding : Holding w posting.report s) (row : Row ℕ) :
    DeskKept v s (s.posted w posting row) := by
  refine ⟨⟨fun hended ↦ (Function.update_of_ne hne ..).trans hended, rfl,
      .inl (Table.kept_commit hne), fun _ ↦ id⟩, fun report hwritten ↦ ?_, fun report _ hrow ↦ ?_,
    fun report _ hset ↦ ?_, rfl⟩
  · obtain ⟨written, hwritten⟩ := Option.isSome_iff_exists.mp hwritten
    have hlock := Table.writtenBy_eq_some.mp (((Table.kept_commit hne).written report).symm.trans hwritten)
    have hother : report ≠ posting.report := by
      rintro rfl
      obtain ⟨stored, -, hmine⟩ := hholding.row
      cases (Table.writtenBy_eq_some.mp hmine).symm.trans hlock
      exact hne rfl
    exact Function.update_of_ne hother ..
  · show (s.office.table.commit w).row report = none
    rw [hholding.rows, hrow]
  · show (Function.update s.feedbackSentAt posting.report _ report).isSome = true
    by_cases heq : report = posting.report
    · subst heq
      rw [Function.update_self]
      cases posting.feedbackSentAt with
      | none => exact hset
      | some time => rfl
    · rw [Function.update_of_ne heq]
      exact hset

theorem deskKept_environment {s t : Desk ι} (h : DeskSound feedbackDue s) {w : ℕ}
    {happening : Happening ι} (hchange : environment feedbackDue happening s = some t) :
    DeskKept w s t := by
  cases happening with
  | abort v =>
    have hoffice : Cases.environment feedbackDue (.abort v) s.office = some t.office := by
      rw [abort_eq feedbackDue hchange]
      rfl
    have hkept : TransactionKept w s.office t.office :=
      Cases.transactionKept_environment feedbackDue h.unknown hoffice
    rw [abort_eq feedbackDue hchange] at hkept ⊢
    exact ⟨hkept, fun _ _ ↦ rfl, fun _ _ hrow ↦ hrow, fun _ _ hset ↦ hset, rfl⟩
  | submit report time =>
    obtain ⟨hnot, rfl⟩ := submit_cases feedbackDue hchange
    have hunknown := h.unknown report hnot
    have hne : ∀ other ∈ s.office.reports, other ≠ report := by
      rintro other hmem rfl
      exact hnot hmem
    refine ⟨⟨id, rfl, .inl (Table.kept_insert hunknown.lock _), fun _ ↦ List.mem_cons_of_mem _⟩,
      fun other hwritten ↦ ?_, fun other hmem hrow ↦ ?_, fun other hmem hset ↦ ?_, rfl⟩
    · have hother : other ≠ report := by
        rintro rfl
        cases hwritten.symm.trans (congrArg Option.isSome (hunknown.writtenBy w))
      exact Function.update_of_ne hother ..
    · exact (Function.update_of_ne (hne other hmem) ..).trans hrow
    · show (Function.update s.feedbackSentAt report none other).isSome = true
      rw [Function.update_of_ne (hne other hmem)]
      exact hset

end OpenWhistle.Threads
