import OpenWhistle.Cases.Status
import OpenWhistle.Foundation.Interleaving
import OpenWhistle.Foundation.ReadCommitted

/-!
# The office at work on cases

The requests that acknowledge a case or change its status, and the retention run, as programs over a
reports table under READ COMMITTED. A request reads the row, decides on what it read, flushes its
UPDATE, which takes the row's lock, and commits together with its audit entry. A retention run
selects the expired reports and deletes them one by one, by id, in one transaction; any number of
runs may overlap, since its lock is a best effort. Whether an account may open a report is an input
of its request, the rule for the feedback deadline a parameter.

The environment submits new reports and aborts transactions. History are the last UPDATE of every
request, the committed transitions of every report, what every run saw of them at its SELECT, and
the reports deleted, as they were at their DELETE.
-/

set_option autoImplicit false
set_option relaxedAutoImplicit false
set_option linter.unusedSectionVars false

namespace OpenWhistle.Cases

open Interleaving ReadCommitted

/-- The exception of a database call. -/
inductive Fault
  | raised
  deriving DecidableEq

/-- An UPDATE of a report: what its request read, what it made of it, and when. -/
structure Change (ι τ : Type) where
  report : ι
  read : Row τ
  new : Row τ
  time : τ

/-- What the audit log says of a case. -/
inductive AuditEntry (ι τ : Type)
  | acknowledged (report : ι) (oldStatus newStatus : Status)
  | statusChanged (report : ι) (oldStatus newStatus : Status)
  | autoDeleted (report : ι) (closedAt : Option τ)
  deriving DecidableEq

/-- A DELETE of a retention run: the row it met, the report's transitions and the run's cutoff. -/
structure Deletion (ι τ : Type) where
  report : ι
  row : Row τ
  transitions : List (Transition τ)
  closedBefore : τ

inductive Op (ι τ : Type)
  | getReport (report : ι)
  | now
  | flush (change : Change ι τ)
  | selectExpired (closedBefore : τ)
  | deleteReport (report : ι) (selected : Row τ) (closedBefore : τ)
  | commit (entries : List (AuditEntry ι τ))

/-- What an operation answers with; a flush is followed by a refresh of the row. -/
@[reducible] def Reply {ι τ : Type} : Op ι τ → Type
  | .getReport _ => Option (Row τ)
  | .now => τ
  | .flush _ => Row τ
  | .selectExpired _ => List (ι × Row τ)
  | .deleteReport _ _ _ => Unit
  | .commit _ => Unit

structure Office (ι τ : Type) where
  table : Table ι (Row τ)
  reports : List ι
  audit : List (AuditEntry ι τ)
  ended : ℕ → Bool
  flushed : ℕ → Option (Change ι τ)
  transitions : ι → List (Transition τ)
  selected : ℕ → ι → List (Transition τ)
  deletions : List (Deletion ι τ)

section Semantics

variable {ι τ : Type} [DecidableEq ι] [LinearOrder τ]

namespace Office

/-- A row that a retention run selects. -/
def Expired (closedBefore : τ) (row : Row τ) : Prop :=
  row.status = .closed ∧ ∃ closed ∈ row.closedAt, closed < closedBefore

instance (closedBefore : τ) (row : Row τ) : Decidable (Expired closedBefore row) :=
  inferInstanceAs (Decidable (_ ∧ _))

/-- The expired reports, as committed. -/
def expired (s : Office ι τ) (closedBefore : τ) : List (ι × Row τ) :=
  s.reports.filterMap fun report ↦
    (s.table.row report).bind fun row ↦
      if Expired closedBefore row then some (report, row) else none

/-- The UPDATE of a change and the refresh after it. Without a changed column there is no UPDATE;
without the row there is nothing to refresh. -/
def flush (s : Office ι τ) (w : ℕ) (change : Change ι τ) :
    Option (Except Fault (Row τ) × Office ι τ) :=
  if s.ended w then some (.error .raised, s)
  else if change.new = change.read then
    match s.table.seenBy w change.report with
    | none => some (.error .raised, s)
    | some row => some (.ok row, s)
  else
    match s.table.write w change.report fun row ↦
        some (Row.updated change.read change.new row) with
    | none => none
    | some (none, _) => some (.error .raised, s)
    | some (some row, table) =>
      some (.ok (Row.updated change.read change.new row),
        { s with table := table, flushed := Function.update s.flushed w (some change) })

/-- The transitions of a report after transaction `w` has committed. -/
def transitionsAfter (s : Office ι τ) (w : ℕ) (report : ι) : List (Transition τ) :=
  match s.flushed w, s.table.row report, s.table.writtenBy w report with
  | some change, some old, some (some new) =>
    Row.withTransition old new change.time (s.transitions report)
  | _, _, _ => s.transitions report

def commit (s : Office ι τ) (w : ℕ) (entries : List (AuditEntry ι τ)) :
    Option (Except Fault Unit × Office ι τ) :=
  if s.ended w then some (.error .raised, s)
  else
    some (.ok (), { s with
      table := s.table.commit w
      audit := entries ++ s.audit
      ended := Function.update s.ended w true
      transitions := s.transitionsAfter w })

/-- The DELETE by id: nothing is asked of the row it meets. -/
def deleteReport (s : Office ι τ) (w : ℕ) (report : ι) (closedBefore : τ) :
    Option (Except Fault Unit × Office ι τ) :=
  if s.ended w then some (.error .raised, s)
  else
    match s.table.write w report fun _ ↦ none with
    | none => none
    | some (none, _) => some (.ok (), s)
    | some (some row, table) =>
      some (.ok (), { s with
        table := table
        deletions := ⟨report, row, s.transitions report, closedBefore⟩ :: s.deletions })

end Office

/-- What the environment does: it submits a report, or aborts a transaction. -/
inductive Happening (ι τ : Type)
  | submit (report : ι) (today : τ)
  | abort (w : ℕ)

variable (feedbackDue : τ → Option τ → τ)

def perform (w : ℕ) : (operation : Op ι τ) → τ → Office ι τ →
    Option (Except Fault (Reply operation) × Office ι τ)
  | .getReport report, _, s => some (.ok (s.table.row report), s)
  | .now, time, s => some (.ok time, s)
  | .flush change, _, s => s.flush w change
  | .selectExpired closedBefore, _, s =>
    some (.ok (s.expired closedBefore),
      { s with selected := Function.update s.selected w s.transitions })
  | .deleteReport report _ closedBefore, _, s => s.deleteReport w report closedBefore
  | .commit entries, _, s => s.commit w entries

def environment : Happening ι τ → Office ι τ → Option (Office ι τ)
  | .submit report today, s =>
    if report ∈ s.reports then none
    else some { s with
      table := s.table.insert report (Row.submitted feedbackDue today)
      reports := report :: s.reports }
  | .abort w, s =>
    some { s with table := s.table.abort w, ended := Function.update s.ended w true }

def semantics : Semantics (Op ι τ) Reply Fault (Office ι τ) τ (Happening ι τ) where
  perform := perform
  environment := environment feedbackDue

/-! ### What an operation can do -/

/-- A flush does nothing, or it locks the row and writes its columns. -/
theorem flush_cases {s t : Office ι τ} {w : ℕ} {change : Change ι τ}
    {reply : Except Fault (Row τ)} (h : s.flush w change = some (reply, t)) :
    t = s ∨ ∃ row, ¬s.table.Blocked w change.report ∧
      s.table.seenBy w change.report = some row ∧
      t = { s with
        table := s.table.lockRow w change.report (some (Row.updated change.read change.new row))
        flushed := Function.update s.flushed w (some change) } := by
  unfold Office.flush at h
  split_ifs at h
  · cases h
    exact .inl rfl
  · split at h
    · cases h
      exact .inl rfl
    · cases h
      exact .inl rfl
  · split at h
    · cases h
    · cases h
      exact .inl rfl
    · rename_i row table hwrite
      rcases Table.write_cases hwrite with ⟨hnone, -⟩ | ⟨found, hblocked, hseen, hfound, rfl⟩
      · cases hnone
      · cases hfound
        cases h
        exact .inr ⟨row, hblocked, hseen, rfl⟩

theorem commit_cases {s t : Office ι τ} {w : ℕ} {entries : List (AuditEntry ι τ)}
    {reply : Except Fault Unit} (h : s.commit w entries = some (reply, t)) :
    t = s ∨ t = { s with
      table := s.table.commit w
      audit := entries ++ s.audit
      ended := Function.update s.ended w true
      transitions := s.transitionsAfter w } := by
  unfold Office.commit at h
  split_ifs at h
  · cases h
    exact .inl rfl
  · cases h
    exact .inr rfl

/-- A DELETE does nothing, or it locks the row it has met and is recorded with it. -/
theorem deleteReport_cases {s t : Office ι τ} {w : ℕ} {report : ι} {closedBefore : τ}
    {reply : Except Fault Unit} (h : s.deleteReport w report closedBefore = some (reply, t)) :
    t = s ∨ ∃ row, ¬s.table.Blocked w report ∧ s.table.seenBy w report = some row ∧
      t = { s with
        table := s.table.lockRow w report none
        deletions := ⟨report, row, s.transitions report, closedBefore⟩ :: s.deletions } := by
  unfold Office.deleteReport at h
  split_ifs at h
  · cases h
    exact .inl rfl
  · split at h
    · cases h
    · cases h
      exact .inl rfl
    · rename_i row table hwrite
      rcases Table.write_cases hwrite with ⟨hnone, -⟩ | ⟨found, hblocked, hseen, hfound, rfl⟩
      · cases hnone
      · cases hfound
        cases h
        exact .inr ⟨row, hblocked, hseen, rfl⟩

theorem submit_cases {s t : Office ι τ} {report : ι} {today : τ}
    (h : environment feedbackDue (.submit report today) s = some t) :
    report ∉ s.reports ∧ t = { s with
      table := s.table.insert report (Row.submitted feedbackDue today)
      reports := report :: s.reports } := by
  simp only [environment] at h
  split_ifs at h with hknown
  cases h
  exact ⟨hknown, rfl⟩

/-! ### Reports that have not been submitted -/

/-- Nothing is known of a report before it is submitted. -/
structure Unknown (s : Office ι τ) (report : ι) : Prop where
  row : s.table.row report = none
  lock : s.table.lock report = none
  transitions : s.transitions report = []

theorem Unknown.writtenBy {s : Office ι τ} {report : ι} (h : Unknown s report) (w : ℕ) :
    s.table.writtenBy w report = none := by
  simp [Table.writtenBy, h.lock]

theorem Unknown.of_eq {s t : Office ι τ} {report : ι} (h : Unknown s report)
    (htable : t.table = s.table) (htransitions : t.transitions = s.transitions) :
    Unknown t report :=
  ⟨htable ▸ h.row, htable ▸ h.lock, htransitions ▸ h.transitions⟩

theorem Unknown.commit {s : Office ι τ} {report : ι} (h : Unknown s report) (w : ℕ)
    (entries : List (AuditEntry ι τ)) :
    Unknown { s with
      table := s.table.commit w
      audit := entries ++ s.audit
      ended := Function.update s.ended w true
      transitions := s.transitionsAfter w } report where
  row := by
    change s.table.seenBy w report = none
    rw [Table.seenBy_of_not_writtenBy (h.writtenBy w), h.row]
  lock := by
    change (s.table.release w).lock report = none
    simp [Table.release, h.writtenBy w, h.lock]
  transitions := by
    change s.transitionsAfter w report = []
    simp [Office.transitionsAfter, h.row, h.transitions]

theorem Unknown.abort {s : Office ι τ} {report : ι} (h : Unknown s report) (w : ℕ) :
    Unknown { s with table := s.table.abort w, ended := Function.update s.ended w true }
      report where
  row := h.row
  lock := by
    change (s.table.release w).lock report = none
    simp [Table.release, h.writtenBy w, h.lock]
  transitions := h.transitions

/-- A row that somebody locks is not one of them. -/
theorem Unknown.lockRow {s t : Office ι τ} {report other : ι} (h : Unknown s other) {w : ℕ}
    {written : Option (Row τ)} {row : Row τ} (hseen : s.table.seenBy w report = some row)
    (htable : t.table = s.table.lockRow w report written)
    (htransitions : t.transitions = s.transitions) : Unknown t other := by
  have hne : other ≠ report := by
    rintro rfl
    rw [Table.seenBy_of_not_writtenBy (h.writtenBy w), h.row] at hseen
    cases hseen
  refine ⟨?_, ?_, ?_⟩
  · rw [htable, Table.lockRow_row, h.row]
  · rw [htable, Table.lock_lockRow_of_ne hne, h.lock]
  · rw [htransitions, h.transitions]

theorem Unknown.submit {s : Office ι τ} {report other : ι} (h : Unknown s other)
    (hne : other ≠ report) (row : Row τ) :
    Unknown { s with table := s.table.insert report row, reports := report :: s.reports }
      other where
  row := by
    change Function.update s.table.row report _ other = none
    rw [Function.update_of_ne hne, h.row]
  lock := h.lock
  transitions := h.transitions

/-! ### What a transaction may rely on -/

/-- Transaction `w` holds no lock. -/
def Unwritten (w : ℕ) (s : Office ι τ) : Prop := ∀ report, s.table.writtenBy w report = none

/-- What the others leave alone of a transaction: unless it is aborted, it keeps its locks, what it
has written, and the rows under its locks. -/
structure TransactionKept (w : ℕ) (s t : Office ι τ) : Prop where
  ended : s.ended w = true → t.ended w = true
  flushed : t.flushed w = s.flushed w
  table : Table.Kept w s.table t.table ∨ t.ended w = true ∧ Unwritten w t
  reports : ∀ report ∈ s.reports, report ∈ t.reports

theorem TransactionKept.refl (w : ℕ) (s : Office ι τ) : TransactionKept w s s :=
  ⟨id, rfl, .inl (Table.Kept.refl w s.table), fun _ ↦ id⟩

theorem TransactionKept.trans {w : ℕ} {s t u : Office ι τ} (hst : TransactionKept w s t)
    (htu : TransactionKept w t u) : TransactionKept w s u where
  ended h := htu.ended (hst.ended h)
  flushed := htu.flushed.trans hst.flushed
  table := by
    rcases htu.table with htable | hgone
    · rcases hst.table with hfirst | ⟨hended, hfree⟩
      · exact .inl (hfirst.trans htable)
      · exact .inr ⟨htu.ended hended, fun report ↦ (htable.written report).trans (hfree report)⟩
    · exact .inr hgone
  reports report h := htu.reports report (hst.reports report h)

theorem Unwritten.kept {w : ℕ} {s t : Office ι τ} (h : Unwritten w s) (hkept : TransactionKept w s t) :
    Unwritten w t := by
  rcases hkept.table with htable | ⟨-, hfree⟩
  · exact fun report ↦ (htable.written report).trans (h report)
  · exact hfree

theorem transactionKept_perform {v w : ℕ} (hne : v ≠ w) {operation : Op ι τ} {time : τ}
    {s t : Office ι τ} {reply : Except Fault (Reply operation)}
    (h : perform w operation time s = some (reply, t)) : TransactionKept v s t := by
  cases operation with
  | getReport report =>
    cases h
    exact TransactionKept.refl v s
  | now =>
    cases h
    exact TransactionKept.refl v s
  | selectExpired closedBefore =>
    cases h
    exact ⟨id, rfl, .inl (Table.Kept.refl v s.table), fun _ ↦ id⟩
  | flush change =>
    rcases flush_cases h with rfl | ⟨row, hblocked, -, rfl⟩
    · exact TransactionKept.refl v t
    · exact ⟨id, Function.update_of_ne hne .., .inl (Table.kept_lockRow hne hblocked _), fun _ ↦ id⟩
  | deleteReport report selected closedBefore =>
    rcases deleteReport_cases h with rfl | ⟨row, hblocked, -, rfl⟩
    · exact TransactionKept.refl v t
    · exact ⟨id, rfl, .inl (Table.kept_lockRow hne hblocked _), fun _ ↦ id⟩
  | commit entries =>
    rcases commit_cases h with rfl | rfl
    · exact TransactionKept.refl v t
    · refine ⟨fun hended ↦ ?_, rfl, .inl (Table.kept_commit hne), fun _ ↦ id⟩
      exact (Function.update_of_ne hne ..).trans hended

theorem transactionKept_environment {w : ℕ} {happening : Happening ι τ} {s t : Office ι τ}
    (hunknown : ∀ report, report ∉ s.reports → Unknown s report)
    (h : environment feedbackDue happening s = some t) : TransactionKept w s t := by
  cases happening with
  | submit report today =>
    obtain ⟨hnot, rfl⟩ := submit_cases feedbackDue h
    exact ⟨id, rfl, .inl (Table.kept_insert (hunknown report hnot).lock _),
      fun other ↦ List.mem_cons_of_mem _⟩
  | abort v =>
    cases h
    by_cases hv : w = v
    · subst hv
      exact ⟨fun _ ↦ Function.update_self .., rfl,
        .inr ⟨Function.update_self .., fun _ ↦ Table.writtenBy_release_self⟩, fun _ ↦ id⟩
    · refine ⟨fun hended ↦ ?_, rfl, .inl (Table.kept_abort hv), fun _ ↦ id⟩
      exact (Function.update_of_ne hv ..).trans hended

/-- No report has been submitted yet. -/
def Office.empty : Office ι τ where
  table := ⟨fun _ ↦ none, fun _ ↦ none⟩
  reports := []
  audit := []
  ended := fun _ ↦ false
  flushed := fun _ ↦ none
  transitions := fun _ ↦ []
  selected := fun _ _ ↦ []
  deletions := []

end Semantics

/-! ### The handlers -/

section Handlers

variable {ι τ : Type} [LinearOrder τ]

abbrev Handler (ι τ α : Type) := Program (Op ι τ) Reply Fault α

/-- One operation of a handler. -/
abbrev call (operation : Op ι τ) : Handler ι τ (Reply operation) := Program.call operation

inductive Page
  | redirect
  | notFound
  | badRequest
  | cleaned
  deriving DecidableEq

inductive Request (ι τ : Type)
  | acknowledge (report : ι) (mayAccess : Bool)
  | updateStatus (report : ι) (newStatus : Status) (mayAccess : Bool)
  | retention (closedBefore : τ)

/-- `_get_authorized_report`. -/
def getAuthorizedReport (report : ι) (mayAccess : Bool) : Handler ι τ (Option (Row τ)) :=
  (call (.getReport report)).withAuthorized (fun _ ↦ mayAccess) (pure none) fun row ↦ pure (some row)

/-- The route `acknowledge_report`. -/
def acknowledgeReport (feedbackDue : τ → Option τ → τ) (report : ι) (mayAccess : Bool) :
    Handler ι τ Page := do
  match ← getAuthorizedReport report mayAccess with
  | none => pure .notFound
  | some read =>
    let now ← call .now
    let refreshed ← call (.flush ⟨report, read, read.acknowledgeReport feedbackDue now, now⟩)
    call (.commit [.acknowledged report read.status refreshed.status])
    pure .redirect

/-- The route `update_status`. -/
def updateStatus (report : ι) (newStatus : Status) (mayAccess : Bool) : Handler ι τ Page := do
  match ← getAuthorizedReport report mayAccess with
  | none => pure .notFound
  | some read =>
    if isValidTransition read.status newStatus then
      let now ← call .now
      let _ ← call (.flush ⟨report, read, read.updateReportStatus now newStatus, now⟩)
      call (.commit [.statusChanged report read.status newStatus])
      pure .redirect
    else pure .badRequest

/-- The loop of `run_retention_cleanup` over the reports it has selected. -/
def deleteReports (closedBefore : τ) : List (ι × Row τ) → Handler ι τ Unit
  | [] => pure ()
  | (report, row) :: reports => do
    call (.deleteReport report row closedBefore)
    deleteReports closedBefore reports

/-- `run_retention_cleanup`, up to its commit. -/
def runRetentionCleanup (closedBefore : τ) : Handler ι τ Page := do
  let reports ← call (.selectExpired closedBefore)
  deleteReports closedBefore reports
  call (.commit (reports.map fun report ↦ .autoDeleted report.1 report.2.closedAt))
  pure .cleaned

def handler (feedbackDue : τ → Option τ → τ) : Request ι τ → Handler ι τ Page
  | .acknowledge report mayAccess => acknowledgeReport feedbackDue report mayAccess
  | .updateStatus report newStatus mayAccess => updateStatus report newStatus mayAccess
  | .retention closedBefore => runRetentionCleanup closedBefore

end Handlers

end OpenWhistle.Cases
