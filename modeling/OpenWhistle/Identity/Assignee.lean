import OpenWhistle.Identity.Invariant

/-!
# The account that has revealed an identity

Where nobody assigns a case by hand, and no reveal commits on a case that is somebody else's by then,
the account that has revealed an identity is the assignee of the report from its commit on, and the
only one that has revealed it. `OneHandler` says so of a state; the commits and the environment keep
it.
-/

set_option autoImplicit false
set_option relaxedAutoImplicit false
set_option linter.unusedSectionVars false

namespace OpenWhistle.Identity

open Interleaving ReadCommitted
open Accounts (AdminUser AdminRole UserId)
open Access (Placement canAccessReport canRevealIdentity)

variable {ι : Type} [DecidableEq ι] {s t u : Vault ι} {w : ℕ}

/-- An audit entry of a reveal. -/
def AuditEntry.Reveals (entry : AuditEntry ι) : Prop :=
  match entry.action with
  | .identityRevealed _ _ => True
  | _ => False

instance (entry : AuditEntry ι) : Decidable entry.Reveals := by
  unfold AuditEntry.Reveals
  split
  · exact isTrue trivial
  · exact isFalse id

/-- A reveal that commits meets a report that is nobody's yet, or its own account's. -/
def UncontestedCommit (w : ℕ) (operation : Op ι) (s : Vault ι) : Prop :=
  match operation with
  | .commit => s.ended w = false → ∀ entry ∈ s.pending w, entry.Reveals →
      ∀ row ∈ s.reports.row entry.report,
        row.assignedToId = none ∨ row.assignedToId = some entry.admin
  | _ => True

instance (w : ℕ) (operation : Op ι) (s : Vault ι) : Decidable (UncontestedCommit w operation s) := by
  cases operation with
  | commit =>
    exact inferInstanceAs (Decidable (s.ended w = false → ∀ entry ∈ s.pending w, entry.Reveals →
      ∀ row ∈ s.reports.row entry.report,
        row.assignedToId = none ∨ row.assignedToId = some entry.admin))
  | getReport report => exact isTrue trivial
  | getUserById account => exact isTrue trivial
  | log entry => exact isTrue trivial
  | assign report read assignee => exact isTrue trivial
  | randomBytes => exact isTrue trivial
  | pageData => exact isTrue trivial

/-- Whoever has revealed an identity is the assignee, and the only one who has. -/
structure OneHandler (s : Vault ι) : Prop where
  locks : ∀ report lock, s.reports.lock report = some lock →
    s.reports.row report ≠ none ∧ ∀ row, lock.written = some row → row.assignedToId ≠ none
  known : ∀ v entry, (v, entry) ∈ s.audit → entry.report ∈ s.known
  assignee : ∀ v entry, (v, entry) ∈ s.audit → entry.Reveals →
    ∀ row, s.reports.row entry.report = some row → row.assignedToId = some entry.admin
  agreed : ∀ v entry, (v, entry) ∈ s.audit → entry.Reveals → ∀ v' other, (v', other) ∈ s.audit →
    other.Reveals → other.report = entry.report → other.admin = entry.admin

/-- A report with an assignee, unless it is gone. -/
def Assigned (report : ι) (s : Vault ι) : Prop :=
  report ∈ s.known ∧ ∀ row, s.reports.row report = some row → row.assignedToId ≠ none

/-- No report loses its assignee. -/
def StaysAssigned (s t : Vault ι) : Prop := ∀ report, Assigned report s → Assigned report t

theorem OneHandler.of_eq (h : OneHandler s) (hreports : t.reports = s.reports)
    (haudit : t.audit = s.audit) (hknown : t.known = s.known) : OneHandler t := by
  refine ⟨?_, ?_, ?_, ?_⟩
  · rw [hreports]
    exact h.locks
  · rw [haudit, hknown]
    exact h.known
  · rw [haudit, hreports]
    exact h.assignee
  · rw [haudit]
    exact h.agreed

theorem StaysAssigned.of_eq (hrow : t.reports.row = s.reports.row) (hknown : t.known = s.known) :
    StaysAssigned s t := by
  intro report hassigned
  rw [Assigned, hrow, hknown]
  exact hassigned

/-- A row that a transaction sees stands under its lock or is committed. -/
theorem OneHandler.row_of_seen (h : OneHandler s) {report : ι} {row : Report}
    (hseen : s.reports.seenBy w report = some row) : s.reports.row report ≠ none := by
  cases hwritten : s.reports.writtenBy w report with
  | none =>
    rw [Table.seenBy_of_not_writtenBy hwritten] at hseen
    rw [hseen]
    exact Option.some_ne_none row
  | some written => exact (h.locks report _ (Table.writtenBy_eq_some.mp hwritten)).1

/-- A report is written with an assignee. -/
theorem oneHandler_lockRow (h : OneHandler s) {report : ι} {row written : Report}
    (hseen : s.reports.seenBy w report = some row) (hwritten : written.assignedToId ≠ none) :
    OneHandler { s with reports := s.reports.lockRow w report (some written) } where
  locks other lock hlock := by
    by_cases hother : other = report
    · subst hother
      change (s.reports.lockRow w other (some written)).lock other = some lock at hlock
      rw [Table.lock_lockRow_self] at hlock
      cases hlock
      refine ⟨h.row_of_seen hseen, fun new hnew ↦ ?_⟩
      cases hnew
      exact hwritten
    · change (s.reports.lockRow w report (some written)).lock other = some lock at hlock
      rw [Table.lock_lockRow_of_ne hother] at hlock
      exact h.locks other lock hlock
  known := h.known
  assignee := h.assignee
  agreed := h.agreed

/-- A commit publishes rows that have an assignee. -/
theorem staysAssigned_committed (h : OneHandler s) (w : ℕ) : StaysAssigned s (s.committed w) := by
  rintro report ⟨hknown, hassigned⟩
  refine ⟨hknown, fun row hrow ↦ ?_⟩
  change s.reports.seenBy w report = some row at hrow
  cases hwritten : s.reports.writtenBy w report with
  | none =>
    rw [Table.seenBy_of_not_writtenBy hwritten] at hrow
    exact hassigned row hrow
  | some written =>
    rw [Table.seenBy_of_writtenBy hwritten] at hrow
    exact (h.locks report _ (Table.writtenBy_eq_some.mp hwritten)).2 row hrow

theorem locks_committed (h : OneHandler s) (w : ℕ) {report : ι} {lock : Lock Report}
    (hlock : (s.committed w).reports.lock report = some lock) :
    (s.committed w).reports.row report ≠ none ∧
      ∀ row, lock.written = some row → row.assignedToId ≠ none := by
  obtain ⟨hheld, hholder⟩ := Table.lock_commit hlock
  obtain ⟨hrow, hwritten⟩ := h.locks report lock hheld
  refine ⟨?_, hwritten⟩
  show (s.reports.commit w).row report ≠ none
  rw [Table.row_commit_of_lock hheld hholder]
  exact hrow

/-- A commit that writes no report and reveals nothing. -/
theorem oneHandler_quiet (h : OneHandler s) (hsound : VaultSound s)
    (hpresent : ∀ entry ∈ s.pending w, s.reports.seenBy w entry.report ≠ none)
    (hquiet : ∀ entry ∈ s.pending w, ¬entry.Reveals)
    (hfree : ∀ report, s.reports.writtenBy w report = none) : OneHandler (s.committed w) := by
  have hold : ∀ v entry, (v, entry) ∈ (s.committed w).audit → entry.Reveals →
      (v, entry) ∈ s.audit := by
    intro v entry hmem hreveals
    rcases mem_audit_committed.mp hmem with ⟨-, hnew⟩ | hold
    · exact absurd hreveals (hquiet entry hnew)
    · exact hold
  refine ⟨fun _ _ ↦ locks_committed h w, fun v entry hmem ↦ ?_, fun v entry hmem hreveals row hrow ↦ ?_,
    fun v entry hmem hreveals v' other hother hreveals' ↦ ?_⟩
  · rcases mem_audit_committed.mp hmem with ⟨-, hnew⟩ | hbefore
    · obtain ⟨row, hrow⟩ := Option.ne_none_iff_exists'.mp (hpresent entry hnew)
      exact hsound.known_of_seen hrow
    · exact h.known v entry hbefore
  · change s.reports.seenBy w entry.report = some row at hrow
    rw [Table.seenBy_of_not_writtenBy (hfree entry.report)] at hrow
    exact h.assignee v entry (hold v entry hmem hreveals) hreveals row hrow
  · exact h.agreed v entry (hold v entry hmem hreveals) hreveals v' other
      (hold v' other hother hreveals') hreveals'

/-- A commit of an account's reveal of one report: it leaves the report with this account, and
nobody else has revealed it before. -/
theorem oneHandler_reveal (h : OneHandler s) (hsound : VaultSound s) {account : UserId} {report : ι}
    (hpresent : ∀ entry ∈ s.pending w, s.reports.seenBy w entry.report ≠ none)
    (hentries : ∀ entry ∈ s.pending w, entry.admin = account ∧ entry.report = report)
    (halone : ∀ other, other ≠ report → s.reports.writtenBy w other = none)
    (hleaves : ∀ row, s.reports.seenBy w report = some row → row.assignedToId = some account)
    (hearlier : ∀ v entry, (v, entry) ∈ s.audit → entry.Reveals → entry.report = report →
      entry.admin = account) : OneHandler (s.committed w) := by
  have hadmin : ∀ v entry, (v, entry) ∈ (s.committed w).audit → entry.Reveals →
      entry.report = report → entry.admin = account := by
    intro v entry hmem hreveals hreport
    rcases mem_audit_committed.mp hmem with ⟨-, hnew⟩ | hold
    · exact (hentries entry hnew).1
    · exact hearlier v entry hold hreveals hreport
  have hold : ∀ v entry, (v, entry) ∈ (s.committed w).audit → entry.report ≠ report →
      (v, entry) ∈ s.audit := by
    intro v entry hmem hne
    rcases mem_audit_committed.mp hmem with ⟨-, hnew⟩ | hold
    · exact absurd (hentries entry hnew).2 hne
    · exact hold
  refine ⟨fun _ _ ↦ locks_committed h w, fun v entry hmem ↦ ?_, fun v entry hmem hreveals row hrow ↦ ?_,
    fun v entry hmem hreveals v' other hother hreveals' hsame ↦ ?_⟩
  · rcases mem_audit_committed.mp hmem with ⟨-, hnew⟩ | hbefore
    · obtain ⟨row, hrow⟩ := Option.ne_none_iff_exists'.mp (hpresent entry hnew)
      exact hsound.known_of_seen hrow
    · exact h.known v entry hbefore
  · change s.reports.seenBy w entry.report = some row at hrow
    by_cases hreport : entry.report = report
    · rw [hadmin v entry hmem hreveals hreport]
      rw [hreport] at hrow
      exact hleaves row hrow
    · rw [Table.seenBy_of_not_writtenBy (halone entry.report hreport)] at hrow
      exact h.assignee v entry (hold v entry hmem hreport) hreveals row hrow
  · by_cases hreport : entry.report = report
    · rw [hadmin v entry hmem hreveals hreport,
        hadmin v' other hother hreveals' (hsame.trans hreport)]
    · have hother' : other.report ≠ report := fun heq ↦ hreport (hsame.symm.trans heq)
      exact h.agreed v entry (hold v entry hmem hreport) hreveals v' other
        (hold v' other hother hother') hreveals' hsame

theorem oneHandler_environment (h : OneHandler s) {happening : Happening ι}
    (hchange : environment happening s = some t) : OneHandler t ∧ StaysAssigned s t := by
  cases happening with
  | submit report caseNumber orgId name contact =>
    obtain ⟨hnew, rfl⟩ := submit_cases hchange
    have hne : ∀ other ∈ s.known, other ≠ report := by
      rintro other hmem rfl
      exact hnew hmem
    have hrow : ∀ other, other ≠ report → Function.update s.reports.row report
        (some ⟨⟨orgId, none⟩, caseNumber, name, contact⟩) other = s.reports.row other :=
      fun other hother ↦ Function.update_of_ne hother ..
    refine ⟨⟨fun other lock hlock ↦ ?_, fun v entry hmem ↦ List.mem_cons_of_mem _ (h.known v entry hmem),
      fun v entry hmem hreveals row hentry ↦ ?_, h.agreed⟩, ?_⟩
    · obtain ⟨hexists, hwritten⟩ := h.locks other lock hlock
      refine ⟨?_, hwritten⟩
      show Function.update s.reports.row report _ other ≠ none
      by_cases hother : other = report
      · subst hother
        rw [Function.update_self]
        exact Option.some_ne_none _
      · rw [hrow other hother]
        exact hexists
    · change Function.update s.reports.row report _ entry.report = some row at hentry
      rw [hrow entry.report (hne _ (h.known v entry hmem))] at hentry
      exact h.assignee v entry hmem hreveals row hentry
    · rintro other ⟨hknown, hassigned⟩
      refine ⟨List.mem_cons_of_mem _ hknown, fun row hother ↦ hassigned row ?_⟩
      change Function.update s.reports.row report _ other = some row at hother
      rwa [hrow other (hne other hknown)] at hother
  | delete report =>
    obtain ⟨hfree, rfl⟩ := delete_cases hchange
    have hrow : ∀ other row, Function.update s.reports.row report none other = some row →
        s.reports.row other = some row := by
      intro other row hother
      by_cases hsame : other = report
      · subst hsame
        rw [Function.update_self] at hother
        cases hother
      · rwa [Function.update_of_ne hsame] at hother
    refine ⟨⟨fun other lock hlock ↦ ?_, h.known, fun v entry hmem hreveals row hentry ↦ ?_, h.agreed⟩,
      ?_⟩
    · have hne : other ≠ report := by
        rintro rfl
        change s.reports.lock other = some lock at hlock
        rw [hfree] at hlock
        cases hlock
      refine ⟨?_, (h.locks other lock hlock).2⟩
      show Function.update s.reports.row report none other ≠ none
      rw [Function.update_of_ne hne]
      exact (h.locks other lock hlock).1
    · exact h.assignee v entry hmem hreveals row (hrow _ row hentry)
    · rintro other ⟨hknown, hassigned⟩
      exact ⟨hknown, fun row hother ↦ hassigned row (hrow other row hother)⟩
  | account id user =>
    cases hchange
    exact ⟨h.of_eq rfl rfl rfl, StaysAssigned.of_eq rfl rfl⟩
  | abort v =>
    cases hchange
    refine ⟨⟨fun report lock hlock ↦ ?_, h.known, h.assignee, h.agreed⟩, StaysAssigned.of_eq rfl rfl⟩
    exact h.locks report lock (Table.lock_release hlock).1

end OpenWhistle.Identity
