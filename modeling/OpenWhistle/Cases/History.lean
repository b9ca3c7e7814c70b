import OpenWhistle.Cases.ClosedAt

/-!
# The status history and what the audit log says of it

Every acknowledgement and every status change enters the status its request has read and the status
it leaves into the audit log, and commits the entry with its UPDATE. Newest first, the pairs of a
report should form a walk from received to the status it has now, and every committed change of the
status an edge of `statusTransitions`.

The request has validated its edge against the status it read. The invariant is the walk; a commit
extends it as long as the case still has that status, because the lock of the flush keeps the row
until the commit. An acknowledgement that finds nothing to write takes no lock and enters what its
refresh has seen. The sample run at the end shows a commit that meets another status.
-/

set_option autoImplicit false
set_option relaxedAutoImplicit false
set_option linter.unusedSectionVars false

namespace OpenWhistle.Cases

open Interleaving ReadCommitted

/-! ### Walks -/

/-- Pairs of an old and a new status, newest first, that lead from received to a status. -/
def Walk : List (Status × Status) → Status → Prop
  | [], current => current = .received
  | (old, new) :: earlier, current => current = new ∧ Walk earlier old

instance decidableWalk : ∀ pairs current, Decidable (Walk pairs current)
  | [], current => inferInstanceAs (Decidable (current = .received))
  | (old, new) :: earlier, current =>
    have := decidableWalk earlier old
    inferInstanceAs (Decidable (current = new ∧ Walk earlier old))

/-- The pair an audit entry has about a report. -/
def AuditEntry.statusPair {ι τ : Type} [DecidableEq ι] (report : ι) :
    AuditEntry ι τ → Option (Status × Status)
  | .acknowledged other old new => if other = report then some (old, new) else none
  | .statusChanged other old new => if other = report then some (old, new) else none
  | .autoDeleted _ _ => none

variable {ι τ : Type} [DecidableEq ι] [LinearOrder τ] {feedbackDue : τ → Option τ → τ}

/-- The audited pairs of a report, newest first. -/
def Office.audited (s : Office ι τ) (report : ι) : List (Status × Status) :=
  s.audit.filterMap (AuditEntry.statusPair report)

/-- The committed changes of a report's status, newest first. -/
def Office.changes (s : Office ι τ) (report : ι) : List (Status × Status) :=
  (s.transitions report).map fun transition ↦ (transition.old, transition.new)

/-- An entry is committed while its report still has the status its request has read; where the
request had nothing to write, its refresh has seen that status as well. -/
def MeetsItsRead (w : ℕ) (s : Office ι τ) : AuditEntry ι τ → Prop
  | .acknowledged report old refreshed => ∀ row ∈ s.table.row report, row.status = old ∧
    (s.table.writtenBy w report = none → refreshed = old)
  | .statusChanged report old _ => ∀ row ∈ s.table.row report, row.status = old
  | .autoDeleted _ _ => True

/-- What a commit of the office may meet. -/
def CommitsAsRead (w : ℕ) : Op ι τ → Office ι τ → Prop
  | .commit entries, s => s.ended w = false → ∀ entry ∈ entries, MeetsItsRead w s entry
  | _, _ => True

structure HistorySound (s : Office ι τ) : Prop where
  audited : ∀ report row, s.table.row report = some row → Walk (s.audited report) row.status
  changes : ∀ report row, s.table.row report = some row → Walk (s.changes report) row.status
  edges : ∀ report, ∀ transition ∈ s.transitions report,
    isValidTransition transition.old transition.new = true
  unknown : ∀ report, report ∉ s.reports → Unknown s report
  unaudited : ∀ report, report ∉ s.reports → s.audited report = []

theorem HistorySound.mem_reports {s : Office ι τ} (h : HistorySound s) {report : ι} {row : Row τ}
    (hrow : s.table.row report = some row) : report ∈ s.reports := by
  by_contra hnot
  rw [(h.unknown report hnot).row] at hrow
  cases hrow

/-- Nothing the history speaks of has changed. -/
theorem HistorySound.of_eq {s t : Office ι τ} (h : HistorySound s)
    (hrow : t.table.row = s.table.row)
    (hunknown : ∀ report, report ∉ t.reports → Unknown t report)
    (haudit : t.audit = s.audit) (htransitions : t.transitions = s.transitions)
    (hreports : t.reports = s.reports) : HistorySound t where
  audited report row hnow := by
    rw [hrow] at hnow
    rw [Office.audited, haudit]
    exact h.audited report row hnow
  changes report row hnow := by
    rw [hrow] at hnow
    rw [Office.changes, htransitions]
    exact h.changes report row hnow
  edges report := by
    rw [htransitions]
    exact h.edges report
  unknown := hunknown
  unaudited report hnot := by
    rw [hreports] at hnot
    rw [Office.audited, haudit]
    exact h.unaudited report hnot

/-! ### The commit -/

/-- The transaction's own UPDATE of a report: its change over the committed row, and no other. -/
structure Wrote (w : ℕ) (change : Change ι τ) (s : Office ι τ) (current : Row τ) : Prop where
  flushed : s.flushed w = some change
  row : s.table.row change.report = some current
  written : s.table.writtenBy w change.report =
    some (some (Row.updated change.read change.new current))
  alone : ∀ other, other ≠ change.report → s.table.writtenBy w other = none

/-- What a request knows after its flush: it has been aborted, or it holds the lock of the row it
has written and refreshed, or there was nothing to write. -/
def Flushed (w : ℕ) (change : Change ι τ) (refreshed : Row τ) (s : Office ι τ) : Prop :=
  s.ended w = true ∨
  (∃ current, Wrote w change s current ∧ refreshed = Row.updated change.read change.new current) ∨
  (change.new = change.read ∧ Unwritten w s)

theorem Wrote.kept {w : ℕ} {change : Change ι τ} {s t : Office ι τ} {current : Row τ}
    (h : Wrote w change s current) (hkept : TransactionKept w s t)
    (htable : Table.Kept w s.table t.table) : Wrote w change t current where
  flushed := hkept.flushed.trans h.flushed
  row := by
    rw [htable.row change.report (by rw [h.written]; rfl)]
    exact h.row
  written := (htable.written change.report).trans h.written
  alone other hne := (htable.written other).trans (h.alone other hne)

theorem Flushed.kept {w : ℕ} {change : Change ι τ} {refreshed : Row τ} {s t : Office ι τ}
    (h : Flushed w change refreshed s) (hkept : TransactionKept w s t) :
    Flushed w change refreshed t := by
  rcases hkept.table with htable | ⟨hended, -⟩
  · rcases h with hended | ⟨current, hwrote, heq⟩ | ⟨hsame, hfree⟩
    · exact .inl (hkept.ended hended)
    · exact .inr (.inl ⟨current, hwrote.kept hkept htable, heq⟩)
    · exact .inr (.inr ⟨hsame, hfree.kept hkept⟩)
  · exact .inl hended

/-- A commit extends the history when its entries extend the walk of every report it leaves. -/
theorem historySound_commit {s : Office ι τ} (h : HistorySound s) (w : ℕ)
    (entries : List (AuditEntry ι τ))
    (hwalk : ∀ report row, s.table.seenBy w report = some row →
      Walk (entries.filterMap (AuditEntry.statusPair report) ++ s.audited report) row.status)
    (hchanges : ∀ report row, s.table.seenBy w report = some row →
      Walk ((s.transitionsAfter w report).map fun transition ↦ (transition.old, transition.new))
        row.status)
    (hedges : ∀ report, ∀ transition ∈ s.transitionsAfter w report,
      isValidTransition transition.old transition.new = true)
    (hunaudited : ∀ report, report ∉ s.reports →
      entries.filterMap (AuditEntry.statusPair report) = []) :
    HistorySound { s with
      table := s.table.commit w
      audit := entries ++ s.audit
      ended := Function.update s.ended w true
      transitions := s.transitionsAfter w } where
  audited report row hrow := by
    change Walk ((entries ++ s.audit).filterMap _) row.status
    rw [List.filterMap_append]
    exact hwalk report row hrow
  changes := hchanges
  edges := hedges
  unknown report hnot := (h.unknown report hnot).commit w entries
  unaudited report hnot := by
    change (entries ++ s.audit).filterMap _ = []
    rw [List.filterMap_append, hunaudited report hnot]
    exact h.unaudited report hnot

/-- The transitions of a report whose lock the transaction does not hold stay as they are. -/
theorem transitionsAfter_of_unwritten {s : Office ι τ} {w : ℕ} {report : ι}
    (h : s.table.writtenBy w report = none) : s.transitionsAfter w report = s.transitions report := by
  simp [Office.transitionsAfter, h]

/-- A report the transaction has deleted gets no transition. -/
theorem transitionsAfter_of_deleted {s : Office ι τ} {w : ℕ} {report : ι}
    (h : s.table.writtenBy w report = some none) :
    s.transitionsAfter w report = s.transitions report := by
  simp [Office.transitionsAfter, h]

theorem Wrote.transitionsAfter {w : ℕ} {change : Change ι τ} {s : Office ι τ} {current : Row τ}
    (h : Wrote w change s current) : s.transitionsAfter w change.report =
      Row.withTransition current (Row.updated change.read change.new current) change.time
        (s.transitions change.report) := by
  simp [Office.transitionsAfter, h.flushed, h.row, h.written]

/-- The edge of an UPDATE that meets the status it was decided on. -/
theorem isValidTransition_updated {now : τ} {read new current : Row τ}
    (hdecided : Row.Decided feedbackDue now read new) (hread : current.status = read.status)
    (hne : (Row.updated read new current).status ≠ current.status) :
    isValidTransition current.status (Row.updated read new current).status = true := by
  have hstatus : (Row.updated read new current).status = new.status := by
    by_cases hsame : new.status = read.status
    · simp [Row.updated, hsame, hread]
    · simp [Row.updated, hsame]
  rw [hstatus, hread] at hne ⊢
  rcases hdecided with rfl | ⟨newStatus, hvalid, rfl⟩
  · by_cases hreceived : read.status = .received
    · simp [Row.acknowledgeReport, hreceived, isValidTransition, statusTransitions]
    · simp [Row.acknowledgeReport, hreceived] at hne
  · exact hvalid

theorem walk_withTransition {old new : Row τ} {now : τ} {transitions : List (Transition τ)}
    (h : Walk (transitions.map fun transition ↦ (transition.old, transition.new)) old.status) :
    Walk ((Row.withTransition old new now transitions).map fun transition ↦
      (transition.old, transition.new)) new.status := by
  unfold Row.withTransition
  split_ifs with hsame
  · rw [← hsame]
    exact h
  · exact ⟨rfl, h⟩

/-- A commit that meets what its request has read: its one entry says the status it found and the
status it leaves. -/
theorem historySound_commit_entry {s : Office ι τ} (h : HistorySound s) {w : ℕ}
    {change : Change ι τ} {refreshed : Row τ} {new : Status} {entry : AuditEntry ι τ}
    (hdecided : Row.Decided feedbackDue change.time change.read change.new)
    (hknown : change.report ∈ s.reports) (hflushed : Flushed w change refreshed s)
    (hended : s.ended w = false)
    (hpair : ∀ other, entry.statusPair other =
      if change.report = other then some (change.read.status, new) else none)
    (hmeets : ∀ row ∈ s.table.row change.report, row.status = change.read.status)
    (hleaves : ∀ current, s.table.row change.report = some current →
      Wrote w change s current → (Row.updated change.read change.new current).status = new)
    (hstays : change.new = change.read → Unwritten w s →
      ∀ row ∈ s.table.row change.report, new = change.read.status) :
    HistorySound { s with
      table := s.table.commit w
      audit := [entry] ++ s.audit
      ended := Function.update s.ended w true
      transitions := s.transitionsAfter w } := by
  have hpairs : ∀ other, [entry].filterMap (AuditEntry.statusPair other) =
      if change.report = other then [(change.read.status, new)] else [] := by
    intro other
    rw [List.filterMap_cons, hpair other]
    split_ifs <;> rfl
  have hunaudited : ∀ other, other ∉ s.reports →
      [entry].filterMap (AuditEntry.statusPair other) = [] := by
    intro other hnot
    have hne : change.report ≠ other := by
      rintro rfl
      exact hnot hknown
    rw [hpairs other, if_neg hne]
  rcases hflushed with hgone | ⟨current, hwrote, -⟩ | ⟨hsame, hfree⟩
  · rw [hended] at hgone
    cases hgone
  · have hread := hmeets current hwrote.row
    refine historySound_commit h w [entry] (fun other row hrow ↦ ?_) (fun other row hrow ↦ ?_)
      (fun other transition hmem ↦ ?_) hunaudited
    · rw [hpairs other]
      by_cases heq : change.report = other
      · subst heq
        rw [Table.seenBy_of_writtenBy hwrote.written] at hrow
        cases hrow
        rw [if_pos rfl]
        refine ⟨hleaves current hwrote.row hwrote, ?_⟩
        rw [← hread]
        exact h.audited change.report current hwrote.row
      · rw [Table.seenBy_of_not_writtenBy (hwrote.alone other (Ne.symm heq))] at hrow
        rw [if_neg heq]
        exact h.audited other row hrow
    · by_cases heq : change.report = other
      · subst heq
        rw [Table.seenBy_of_writtenBy hwrote.written] at hrow
        cases hrow
        rw [hwrote.transitionsAfter]
        exact walk_withTransition (h.changes change.report current hwrote.row)
      · have hother := hwrote.alone other (Ne.symm heq)
        rw [Table.seenBy_of_not_writtenBy hother] at hrow
        rw [transitionsAfter_of_unwritten hother]
        exact h.changes other row hrow
    · by_cases heq : change.report = other
      · subst heq
        rw [hwrote.transitionsAfter, Row.withTransition] at hmem
        split_ifs at hmem with hunchanged
        · exact h.edges change.report transition hmem
        · rcases List.mem_cons.mp hmem with rfl | hold
          · exact isValidTransition_updated hdecided hread (Ne.symm hunchanged)
          · exact h.edges change.report transition hold
      · rw [transitionsAfter_of_unwritten (hwrote.alone other (Ne.symm heq))] at hmem
        exact h.edges other transition hmem
  · refine historySound_commit h w [entry] (fun other row hrow ↦ ?_) (fun other row hrow ↦ ?_)
      (fun other transition hmem ↦ ?_) hunaudited
    · rw [Table.seenBy_of_not_writtenBy (hfree other)] at hrow
      rw [hpairs other]
      by_cases heq : change.report = other
      · subst heq
        rw [if_pos rfl]
        refine ⟨?_, ?_⟩
        · rw [hmeets row hrow, hstays hsame hfree row hrow]
        · rw [← hmeets row hrow]
          exact h.audited change.report row hrow
      · rw [if_neg heq]
        exact h.audited other row hrow
    · rw [Table.seenBy_of_not_writtenBy (hfree other)] at hrow
      rw [transitionsAfter_of_unwritten (hfree other)]
      exact h.changes other row hrow
    · rw [transitionsAfter_of_unwritten (hfree other)] at hmem
      exact h.edges other transition hmem

/-- Whatever the transaction has written, it has deleted. -/
def OnlyDeletes (w : ℕ) (s : Office ι τ) : Prop :=
  ∀ report, s.table.writtenBy w report = none ∨ s.table.writtenBy w report = some none

theorem OnlyDeletes.kept {w : ℕ} {s t : Office ι τ} (h : OnlyDeletes w s)
    (hkept : TransactionKept w s t) : OnlyDeletes w t := by
  intro report
  rcases hkept.table with htable | ⟨-, hfree⟩
  · rw [htable.written report]
    exact h report
  · exact .inl (hfree report)

theorem OnlyDeletes.deleteReport {w : ℕ} {s t : Office ι τ} (h : OnlyDeletes w s) {report : ι}
    {closedBefore : τ} {reply : Except Fault Unit}
    (hdelete : s.deleteReport w report closedBefore = some (reply, t)) : OnlyDeletes w t := by
  rcases deleteReport_cases hdelete with rfl | ⟨row, -, -, rfl⟩
  · exact h
  · intro other
    by_cases heq : other = report
    · subst heq
      exact .inr (Table.writtenBy_lockRow_self none)
    · rcases h other with hnone | hdeleted
      · left
        rw [← hnone]
        simp [Table.writtenBy, Table.lock_lockRow_of_ne heq]
      · right
        rw [← hdeleted]
        simp [Table.writtenBy, Table.lock_lockRow_of_ne heq]

theorem historySound_commit_deletions {s : Office ι τ} (h : HistorySound s) {w : ℕ}
    (hdeletes : OnlyDeletes w s) (reports : List (ι × Row τ)) :
    HistorySound { s with
      table := s.table.commit w
      audit := reports.map (fun report ↦ .autoDeleted report.1 report.2.closedAt) ++ s.audit
      ended := Function.update s.ended w true
      transitions := s.transitionsAfter w } := by
  have hpairs : ∀ other, (reports.map fun report ↦
      (.autoDeleted report.1 report.2.closedAt : AuditEntry ι τ)).filterMap
        (AuditEntry.statusPair other) = [] := by
    intro other
    simp [AuditEntry.statusPair]
  have htransitions : ∀ other, s.transitionsAfter w other = s.transitions other := by
    intro other
    rcases hdeletes other with hnone | hdeleted
    · exact transitionsAfter_of_unwritten hnone
    · exact transitionsAfter_of_deleted hdeleted
  have hrow : ∀ other row, s.table.seenBy w other = some row → s.table.row other = some row := by
    intro other row hseen
    rcases hdeletes other with hnone | hdeleted
    · rw [← hseen, Table.seenBy_of_not_writtenBy hnone]
    · rw [Table.seenBy_of_writtenBy hdeleted] at hseen
      cases hseen
  refine historySound_commit h w _ (fun other row hseen ↦ ?_) (fun other row hseen ↦ ?_)
    (fun other ↦ ?_) fun other _ ↦ hpairs other
  · rw [hpairs other]
    exact h.audited other row (hrow other row hseen)
  · rw [htransitions other]
    exact h.changes other row (hrow other row hseen)
  · rw [htransitions other]
    exact h.edges other

/-! ### The other steps -/

theorem historySound_flush {s t : Office ι τ} (h : HistorySound s) {w : ℕ} {change : Change ι τ}
    {reply : Except Fault (Row τ)} (hflush : s.flush w change = some (reply, t)) :
    HistorySound t := by
  rcases flush_cases hflush with rfl | ⟨row, -, hseen, rfl⟩
  · exact h
  · exact h.of_eq rfl (fun other hnot ↦ (h.unknown other hnot).lockRow hseen rfl rfl) rfl rfl rfl

theorem historySound_deleteReport {s t : Office ι τ} (h : HistorySound s) {w : ℕ} {report : ι}
    {closedBefore : τ} {reply : Except Fault Unit}
    (hdelete : s.deleteReport w report closedBefore = some (reply, t)) : HistorySound t := by
  rcases deleteReport_cases hdelete with rfl | ⟨row, -, hseen, rfl⟩
  · exact h
  · exact h.of_eq rfl (fun other hnot ↦ (h.unknown other hnot).lockRow hseen rfl rfl) rfl rfl rfl

theorem historySound_environment {s t : Office ι τ} (h : HistorySound s)
    {happening : Happening ι τ} (hchange : environment feedbackDue happening s = some t) :
    HistorySound t := by
  cases happening with
  | abort w =>
    cases hchange
    exact h.of_eq rfl (fun other hnot ↦ (h.unknown other hnot).abort w) rfl rfl rfl
  | submit report today =>
    obtain ⟨hnot, rfl⟩ := submit_cases feedbackDue hchange
    have hold : ∀ other row, other ≠ report →
        Function.update s.table.row report (some (Row.submitted feedbackDue today)) other =
          some row → s.table.row other = some row := by
      intro other row hne hrow
      rwa [Function.update_of_ne hne] at hrow
    refine ⟨fun other row hrow ↦ ?_, fun other row hrow ↦ ?_, h.edges, fun other hother ↦ ?_,
      fun other hother ↦ h.unaudited other fun hmem ↦ hother (List.mem_cons_of_mem _ hmem)⟩
    · change Walk (s.audited other) row.status
      by_cases heq : other = report
      · subst heq
        change Function.update s.table.row other _ other = some row at hrow
        rw [Function.update_self] at hrow
        cases hrow
        rw [h.unaudited other hnot]
        rfl
      · exact h.audited other row (hold other row heq hrow)
    · change Walk (s.changes other) row.status
      by_cases heq : other = report
      · subst heq
        change Function.update s.table.row other _ other = some row at hrow
        rw [Function.update_self] at hrow
        cases hrow
        rw [Office.changes, (h.unknown other hnot).transitions]
        rfl
      · exact h.changes other row (hold other row heq hrow)
    · have hne : other ≠ report := fun heq ↦ hother (heq ▸ List.mem_cons_self)
      exact (h.unknown other fun hmem ↦ hother (List.mem_cons_of_mem _ hmem)).submit hne _

/-! ### The contract -/

def history (feedbackDue : τ → Option τ → τ) :
    Contract (semantics (ι := ι) feedbackDue) (Request ι τ) Page where
  invariant := HistorySound
  rely := TransactionKept
  rely_refl := TransactionKept.refl
  rely_trans _ _ _ _ := TransactionKept.trans
  idle := Unwritten
  idle_stable _ _ _ h hkept _ := h.kept hkept
  ends _ _ _ := True
  ends_stable _ _ _ _ _ _ _ := trivial
  admits _ := True
  allows := CommitsAsRead
  trusts _ _ _ := True
  tolerates _ _ := True
  environment_safe := fun _ _ _ h _ hchange ↦
    ⟨historySound_environment h hchange, fun _ ↦ transactionKept_environment feedbackDue h.unknown hchange⟩

variable {w : ℕ} {s : Office ι τ}

theorem history_call {operation : Op ι τ} {promise : Reply operation → Office ι τ → Prop}
    (h : ∀ t, TransactionKept w s t → HistorySound t → CommitsAsRead w operation t →
      ∀ time reply u, perform w operation time t = some (reply, u) →
        HistorySound u ∧ ∀ value, reply = .ok value → promise value u) :
    Safe (history feedbackDue) w (Returns promise) (call operation) s := by
  refine Safe.call fun t hkept hinv ↦ ⟨fun _ ↦ trivial, fun hallows time reply u hperform ↦ ?_⟩
  obtain ⟨hinv', hpromise⟩ := h t hkept hinv hallows time reply u hperform
  refine ⟨hinv', fun v hv ↦ transactionKept_perform hv hperform, fun _ ↦ ?_, fun _ ↦ trivial⟩
  cases reply with
  | ok value => exact hpromise value rfl
  | error exception => trivial

/-- What a request knows between its read and its flush. -/
def Loaded (w : ℕ) (report : ι) (s : Office ι τ) : Prop := Unwritten w s ∧ report ∈ s.reports

theorem Loaded.kept {report : ι} {t : Office ι τ} (h : Loaded w report s)
    (hkept : TransactionKept w s t) : Loaded w report t :=
  ⟨h.1.kept hkept, hkept.reports report h.2⟩

theorem history_getAuthorizedReport (report : ι) (mayAccess : Bool) (h : Unwritten w s) :
    Safe (history feedbackDue) w
      (Returns fun read t ↦ ∀ row, read = some row → Loaded w report t)
      (getAuthorizedReport report mayAccess) s := by
  have hget : Safe (history feedbackDue) w
      (Returns fun read t ↦ ∀ row, read = some row → Loaded w report t)
      (call (.getReport report)) s := by
    refine history_call fun t hkept hinv _ time reply u hperform ↦ ?_
    cases hperform
    refine ⟨hinv, fun read hread row hrow ↦ ⟨h.kept hkept, ?_⟩⟩
    cases hread
    exact hinv.mem_reports hrow
  refine Safe.andThen hget fun read t hread ↦ ?_
  split
  · exact Safe.ret nofun
  · rename_i row hfound
    exact Safe.ret fun _ _ ↦ hread row (Option.filter_eq_some_iff.mp hfound).1

theorem history_now {report : ι} (h : Loaded w report s) :
    Safe (history feedbackDue) w (Returns fun _ t ↦ Loaded w report t) (call .now) s := by
  refine history_call fun t hkept hinv _ time reply u hperform ↦ ?_
  cases hperform
  exact ⟨hinv, fun _ _ ↦ h.kept hkept⟩

/-- What the flush of a change answers. -/
theorem flushed_of_flush {t : Office ι τ} (hfree : Unwritten w s) {change : Change ι τ}
    {refreshed : Row τ} (hflush : s.flush w change = some (.ok refreshed, t)) :
    Flushed w change refreshed t := by
  unfold Office.flush at hflush
  split_ifs at hflush with hended hsame
  · cases hflush
  · split at hflush
    · cases hflush
    · cases hflush
      exact .inr (.inr ⟨hsame, hfree⟩)
  · split at hflush
    · cases hflush
    · cases hflush
    · rename_i row table hwrite
      rcases Table.write_cases hwrite with ⟨hnone, -⟩ | ⟨found, -, hseen, hfound, rfl⟩
      · cases hnone
      · cases hfound
        cases hflush
        rw [Table.seenBy_of_not_writtenBy (hfree change.report)] at hseen
        refine .inr (.inl ⟨row, ⟨Function.update_self .., hseen, ?_, fun other hne ↦ ?_⟩, rfl⟩)
        · exact Table.writtenBy_lockRow_self _
        · rw [← hfree other]
          simp [Table.writtenBy, Table.lock_lockRow_of_ne hne]

theorem history_flush {change : Change ι τ} (h : Loaded w change.report s) :
    Safe (history feedbackDue) w
      (Returns fun refreshed t ↦ Flushed w change refreshed t ∧ change.report ∈ t.reports)
      (call (.flush change)) s := by
  refine history_call fun t hkept hinv _ time reply u hperform ↦ ?_
  refine ⟨historySound_flush hinv hperform, fun refreshed hrefreshed ↦ ⟨?_, ?_⟩⟩
  · subst hrefreshed
    exact flushed_of_flush (h.kept hkept).1 hperform
  · rcases flush_cases hperform with rfl | ⟨row, -, -, rfl⟩
    · exact (h.kept hkept).2
    · exact (h.kept hkept).2

/-- The commit of a request that decided on what it read. -/
theorem history_commit {change : Change ι τ} {refreshed : Row τ} {new : Status}
    {entry : AuditEntry ι τ}
    (hdecided : Row.Decided feedbackDue change.time change.read change.new)
    (hflushed : Flushed w change refreshed s) (hknown : change.report ∈ s.reports)
    (hpair : ∀ other, entry.statusPair other =
      if change.report = other then some (change.read.status, new) else none)
    (hmeets : ∀ t, MeetsItsRead w t entry →
      ∀ row ∈ t.table.row change.report, row.status = change.read.status)
    (hleaves : ∀ current, current.status = change.read.status →
      refreshed = Row.updated change.read change.new current →
      (Row.updated change.read change.new current).status = new)
    (hstays : ∀ t, MeetsItsRead w t entry → change.new = change.read → Unwritten w t →
      ∀ row ∈ t.table.row change.report, new = change.read.status) :
    Safe (history feedbackDue) w (Returns fun _ _ ↦ True) (call (.commit [entry])) s := by
  refine history_call fun t hkept hinv hallows time reply u hperform ↦ ⟨?_, fun _ _ ↦ trivial⟩
  by_cases hended : t.ended w = true
  · have hsame : (t.commit w [entry]) = some (.error .raised, t) := by simp [Office.commit, hended]
    cases hsame.symm.trans hperform
    exact hinv
  have hopen : t.ended w = false := (Bool.not_eq_true _).mp hended
  have hentry := hallows hopen entry List.mem_cons_self
  rcases commit_cases hperform with rfl | rfl
  · exact hinv
  · refine historySound_commit_entry hinv hdecided (hkept.reports _ hknown) (hflushed.kept hkept)
      hopen hpair (hmeets t hentry) (fun current hcurrent hwrote ↦ ?_) (hstays t hentry)
    rcases hflushed.kept hkept with hgone | ⟨found, hfound, heq⟩ | ⟨-, hfree⟩
    · exact absurd hgone hended
    · cases hfound.row.symm.trans hcurrent
      exact hleaves current (hmeets t hentry current hcurrent) heq
    · cases (hfree change.report).symm.trans hwrote.written

theorem history_deleteReports (closedBefore : τ) (reports : List (ι × Row τ)) :
    ∀ s, OnlyDeletes w s → Safe (history feedbackDue) w (Returns fun _ t ↦ OnlyDeletes w t)
      (deleteReports closedBefore reports) s := by
  induction reports with
  | nil => exact fun s h ↦ Safe.ret h
  | cons report reports ih =>
    intro s h
    have hdelete : Safe (history feedbackDue) w (Returns fun _ t ↦ OnlyDeletes w t)
        (call (.deleteReport report.1 report.2 closedBefore)) s := by
      refine history_call fun t hkept hinv _ time reply u hperform ↦ ?_
      exact ⟨historySound_deleteReport hinv hperform,
        fun _ _ ↦ (h.kept hkept).deleteReport hperform⟩
    exact Safe.andThen hdelete fun _ t ht ↦ ih t ht

theorem history_acknowledge (report : ι) (mayAccess : Bool) (h : Unwritten w s) :
    Safe (history feedbackDue) w (Returns fun _ _ ↦ True)
      (acknowledgeReport feedbackDue report mayAccess) s := by
  refine Safe.andThen (history_getAuthorizedReport report mayAccess h) fun read t hread ↦ ?_
  cases read with
  | none => exact Safe.ret trivial
  | some row =>
    refine Safe.andThen (history_now (hread row rfl)) fun now u hnow ↦ ?_
    refine Safe.andThen (history_flush hnow) fun refreshed v hflushed ↦ ?_
    refine Safe.andThen (history_commit (.inl rfl) hflushed.1 hflushed.2 (fun other ↦ rfl)
      (fun t hentry stored hstored ↦ (hentry stored hstored).1) (fun current hsame heq ↦ ?_)
      (fun t hentry hunchanged hfree stored hstored ↦ ?_)) fun _ _ _ ↦ Safe.ret trivial
    · rw [heq]
    · exact (hentry stored hstored).2 (hfree report)

theorem history_updateStatus (report : ι) (newStatus : Status) (mayAccess : Bool)
    (h : Unwritten w s) : Safe (history feedbackDue) w (Returns fun _ _ ↦ True)
      (updateStatus report newStatus mayAccess) s := by
  refine Safe.andThen (history_getAuthorizedReport report mayAccess h) fun read t hread ↦ ?_
  cases read with
  | none => exact Safe.ret trivial
  | some row =>
    show Safe _ w _ (if isValidTransition row.status newStatus = true then _ else _) t
    split_ifs with hvalid
    · have hne := ne_of_isValidTransition hvalid
      refine Safe.andThen (history_now (hread row rfl)) fun now u hnow ↦ ?_
      refine Safe.andThen (history_flush hnow) fun refreshed v hflushed ↦ ?_
      refine Safe.andThen (history_commit (.inr ⟨newStatus, hvalid, rfl⟩) hflushed.1 hflushed.2
        (fun other ↦ rfl) (fun t hentry stored hstored ↦ hentry stored hstored)
        (fun current _ _ ↦ ?_) (fun t _ hunchanged _ stored _ ↦ ?_)) fun _ _ _ ↦ Safe.ret trivial
      · simp [Row.updated, Row.updateReportStatus, hne]
      · exact absurd (congrArg Row.status hunchanged) hne
    · exact Safe.ret trivial

theorem history_handles : (history (ι := ι) feedbackDue).Handles (handler feedbackDue) := by
  intro w request s _ _ hfree
  refine Safe.imp (fun _ _ _ ↦ trivial) (?_ : Safe _ w (Returns fun _ _ ↦ True) _ s)
  cases request with
  | acknowledge report mayAccess => exact history_acknowledge report mayAccess hfree
  | updateStatus report newStatus mayAccess =>
    exact history_updateStatus report newStatus mayAccess hfree
  | retention closedBefore =>
    have hselect : Safe (history feedbackDue) w (Returns fun _ t ↦ OnlyDeletes w t)
        (call (.selectExpired closedBefore : Op ι τ)) s := by
      refine history_call fun t hkept hinv _ time reply u hperform ↦ ?_
      cases hperform
      refine ⟨hinv.of_eq rfl (fun other hnot ↦ (hinv.unknown other hnot).of_eq rfl rfl) rfl rfl rfl,
        fun _ _ report ↦ .inl (hfree.kept hkept report)⟩
    refine Safe.andThen hselect fun reports t ht ↦ ?_
    refine Safe.andThen (history_deleteReports closedBefore reports t ht) fun _ u hu ↦ ?_
    have hcommit : Safe (history feedbackDue) w (Returns fun _ _ ↦ True)
        (call (.commit (reports.map fun report ↦
          .autoDeleted report.1 report.2.closedAt) : Op ι τ)) u := by
      refine history_call fun v hkept hinv _ time reply x hperform ↦ ⟨?_, fun _ _ ↦ trivial⟩
      rcases commit_cases hperform with rfl | rfl
      · exact hinv
      · exact historySound_commit_deletions hinv (hu.kept hkept) reports
    exact Safe.andThen hcommit fun _ _ _ ↦ Safe.ret trivial

/-! ### Every run -/

/-- Every commit of an acknowledgement or a status change meets the status its request has read. -/
def StatusesAsRead (s : Work ι τ) (event : Step ι τ) : Prop := s.Acts CommitsAsRead event

/-- In every run whose commits meet the status their requests have read, the committed changes of a
report's status are edges and walk from received to its status, and so do the audited pairs. -/
theorem status_history_is_a_walk {events : List (Step ι τ)} {last : Work ι τ}
    (hread : Meets (semantics feedbackDue) (handler feedbackDue) StatusesAsRead start events)
    (hrun : run (semantics feedbackDue) (handler feedbackDue) start events = some last) {report : ι}
    {row : Row τ} (hrow : last.shared.table.row report = some row) :
    (∀ transition ∈ last.shared.transitions report,
      isValidTransition transition.old transition.new = true) ∧
    Walk (last.shared.changes report) row.status ∧ Walk (last.shared.audited report) row.status := by
  have hpermits : Meets (semantics feedbackDue) (handler feedbackDue)
      (history feedbackDue).Permits start events :=
    meets_imp (fun _ _ h ↦ Contract.permits_of_acting (fun _ ↦ trivial) (fun _ _ _ ↦ trivial)
      (fun _ _ ↦ trivial) h) hread
  have hempty : HistorySound (Office.empty : Office ι τ) :=
    ⟨(fun _ _ h ↦ nomatch h), (fun _ _ h ↦ nomatch h), (fun _ _ h ↦ nomatch h),
      (fun _ _ ↦ ⟨rfl, rfl, rfl⟩), fun _ _ ↦ rfl⟩
  have hstart : (history feedbackDue).Holds (start : Work ι τ) :=
    Contract.holds_of_idle hempty (fun _ _ ↦ rfl) fun _ ↦ rfl
  have hsound := (Contract.run_safe history_handles hstart hpermits hrun).invariant
  exact ⟨hsound.edges report, hsound.changes report row hrow, hsound.audited report row hrow⟩

instance (w : ℕ) (s : Office ι τ) (entry : AuditEntry ι τ) : Decidable (MeetsItsRead w s entry) :=
  match entry with
  | .acknowledged report _ _ => inferInstanceAs (Decidable (∀ row ∈ s.table.row report, _))
  | .statusChanged report _ _ => inferInstanceAs (Decidable (∀ row ∈ s.table.row report, _))
  | .autoDeleted _ _ => isTrue trivial

instance (w : ℕ) (operation : Op ι τ) (s : Office ι τ) : Decidable (CommitsAsRead w operation s) :=
  match operation with
  | .commit entries =>
    inferInstanceAs (Decidable (s.ended w = false → ∀ entry ∈ entries, MeetsItsRead w s entry))
  | .getReport _ | .now | .flush _ | .selectExpired _ | .deleteReport _ _ _ => isTrue trivial

instance (s : Work ι τ) (event : Step ι τ) : Decidable (StatusesAsRead s event) :=
  inferInstanceAs (Decidable (s.Acts CommitsAsRead event))

/-- The report 0 is acknowledged on day 2, closed on day 5 and acknowledged again while it is
closed. -/
def oneAfterTheOther : List (Step ℕ ℕ) :=
  [.environment (.submit 0 1),
    .start 1 (.acknowledge 0 true), .run 1 0, .run 1 2, .run 1 0, .run 1 0,
    .start 2 (.updateStatus 0 .closed true), .run 2 0, .run 2 5, .run 2 0, .run 2 0,
    .start 3 (.acknowledge 0 true), .run 3 0, .run 3 7, .run 3 0, .run 3 0]

/-- Two users read the report 0 as in review; the first closes it, the second commits the status
pending_feedback after that. -/
def decidedOnTheSameStatus : List (Step ℕ ℕ) :=
  [.environment (.submit 0 1),
    .start 1 (.acknowledge 0 true), .run 1 0, .run 1 2, .run 1 0, .run 1 0,
    .start 2 (.updateStatus 0 .closed true), .start 3 (.updateStatus 0 .pendingFeedback true),
    .run 2 0, .run 3 0, .run 2 5, .run 2 0, .run 2 0, .run 3 6, .run 3 0, .run 3 0]

theorem status_history_of_one_after_the_other : ∃ last row,
    run (semantics ninetyDays) (handler ninetyDays) start oneAfterTheOther = some last ∧
    last.shared.table.row 0 = some row ∧
    last.shared.audited 0 =
      [(.closed, .closed), (.inReview, .closed), (.received, .inReview)] ∧
    (∀ transition ∈ last.shared.transitions 0,
      isValidTransition transition.old transition.new = true) ∧
    Walk (last.shared.changes 0) row.status ∧ Walk (last.shared.audited 0) row.status := by
  have hrun := sample_run oneAfterTheOther (by decide)
  exact ⟨_, ⟨.closed, 1, some 2, some 91, some 5⟩, hrun, rfl, rfl,
    status_history_is_a_walk (by decide) hrun rfl⟩

/-- A closed report goes to pending_feedback, and the audit log says that it was in review. -/
theorem overlap_takes_an_edge_nobody_validated : ∃ last row,
    run (semantics ninetyDays) (handler ninetyDays) start decidedOnTheSameStatus = some last ∧
    last.shared.table.row 0 = some row ∧
    last.shared.changes 0 =
      [(.closed, .pendingFeedback), (.inReview, .closed), (.received, .inReview)] ∧
    isValidTransition .closed .pendingFeedback = false ∧
    last.shared.audited 0 =
      [(.inReview, .pendingFeedback), (.inReview, .closed), (.received, .inReview)] ∧
    ¬Walk (last.shared.audited 0) row.status := by
  have hrun := sample_run decidedOnTheSameStatus (by decide)
  exact ⟨_, ⟨.pendingFeedback, 1, some 2, some 91, some 5⟩, hrun, rfl, rfl, rfl, rfl, by decide⟩

end OpenWhistle.Cases
