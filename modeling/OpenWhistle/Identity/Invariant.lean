import OpenWhistle.Identity.Vault

/-!
# What is known of the vault

A transaction that has not committed has changed nothing: neither an audit entry nor an assignment
is its own. What it is about to commit is known from its own statements, and from the table as long as
it has not been aborted.
-/

set_option autoImplicit false
set_option relaxedAutoImplicit false
set_option linter.unusedSectionVars false

namespace OpenWhistle.Identity

open Interleaving ReadCommitted
open Accounts (AdminUser AdminRole UserId)
open Access (Placement canAccessReport canRevealIdentity)

variable {ι : Type} [DecidableEq ι] {s t u : Vault ι} {w : ℕ}

/-! ### What an operation can do -/

theorem log_cases {entry : AuditEntry ι} {reply : Except Fault Unit}
    (h : s.log w entry = some (reply, t)) :
    (t = s ∧ reply = .error .raised) ∨
      t = { s with pending := Function.update s.pending w (entry :: s.pending w) } := by
  unfold Vault.log at h
  split_ifs at h
  · cases h
    exact .inl ⟨rfl, rfl⟩
  · cases h
    exact .inr rfl

/-- An assignment does nothing and fails, finds the row assigned as it should be, or writes it under
its lock. -/
theorem assign_cases {report : ι} {read assignee : Option UserId} {reply : Except Fault Loaded}
    (h : s.assign w report read assignee = some (reply, t)) :
    (t = s ∧ reply = .error .raised) ∨
    (t = s ∧ read = assignee ∧ ∃ row, s.reports.seenBy w report = some row ∧
      reply = .ok (s.load row)) ∨
    ∃ row, ¬s.reports.Blocked w report ∧ s.reports.seenBy w report = some row ∧
      read ≠ assignee ∧ reply = .ok (s.load { row with assignedToId := assignee }) ∧
      t = { s with
        reports := s.reports.lockRow w report (some { row with assignedToId := assignee }) } := by
  unfold Vault.assign at h
  split_ifs at h with hended hsame
  · cases h
    exact .inl ⟨rfl, rfl⟩
  · split at h
    · cases h
      exact .inl ⟨rfl, rfl⟩
    · rename_i row hseen
      cases h
      exact .inr (.inl ⟨rfl, hsame, row, hseen, rfl⟩)
  · split at h
    · cases h
    · cases h
      exact .inl ⟨rfl, rfl⟩
    · rename_i row table hwrite
      rcases Table.write_cases hwrite with ⟨hnone, -⟩ | ⟨found, hblocked, hseen, hfound, rfl⟩
      · cases hnone
      · cases hfound
        cases h
        exact .inr (.inr ⟨row, hblocked, hseen, hsame, rfl, rfl⟩)

theorem commit_cases {reply : Except Fault Unit} (h : s.commit w = some (reply, t)) :
    (t = s ∧ reply = .error .raised) ∨
    (s.ended w = false ∧ (∀ entry ∈ s.pending w, s.reports.seenBy w entry.report ≠ none) ∧
      t = s.committed w) := by
  unfold Vault.commit at h
  split_ifs at h with hrefused
  · cases h
    exact .inl ⟨rfl, rfl⟩
  · cases h
    obtain ⟨hopen, hpresent⟩ := not_or.mp hrefused
    refine .inr ⟨(Bool.not_eq_true _).mp hopen, fun entry hmem hgone ↦ ?_, rfl⟩
    exact hpresent ⟨entry, hmem, hgone⟩

theorem submit_cases {report : ι} {caseNumber : String} {orgId : Option ℕ}
    {name contact : Option Fernet.Token}
    (h : environment (.submit report caseNumber orgId name contact) s = some t) :
    report ∉ s.known ∧ t = { s with
      reports := s.reports.insert report ⟨⟨orgId, none⟩, caseNumber, name, contact⟩
      known := report :: s.known } := by
  simp only [environment] at h
  split_ifs at h with hknown
  cases h
  exact ⟨hknown, rfl⟩

theorem delete_cases {report : ι} (h : environment (.delete report) s = some t) :
    s.reports.lock report = none ∧ t = { s with
      reports := ⟨Function.update s.reports.row report none, s.reports.lock⟩ } := by
  change s.delete report = some t at h
  unfold Vault.delete at h
  split_ifs at h with hfree
  cases h
  exact ⟨hfree, rfl⟩

theorem mem_audit_committed {v : ℕ} {entry : AuditEntry ι} :
    (v, entry) ∈ (s.committed w).audit ↔
      v = w ∧ entry ∈ s.pending w ∨ (v, entry) ∈ s.audit := by
  simp only [Vault.committed, List.mem_append, List.mem_map, Prod.mk.injEq]
  constructor
  · rintro (⟨other, hmem, rfl, rfl⟩ | hold)
    · exact .inl ⟨rfl, hmem⟩
    · exact .inr hold
  · rintro (⟨rfl, hmem⟩ | hold)
    · exact .inl ⟨entry, hmem, rfl, rfl⟩
    · exact .inr hold

theorem mem_reassigned_committed {v : ℕ} {report : ι} :
    (v, report) ∈ (s.committed w).reassigned ↔
      v = w ∧ report ∈ s.reassigns w ∨ (v, report) ∈ s.reassigned := by
  simp only [Vault.committed, List.mem_append, List.mem_map, Prod.mk.injEq]
  constructor
  · rintro (⟨other, hmem, rfl, rfl⟩ | hold)
    · exact .inl ⟨rfl, hmem⟩
    · exact .inr hold
  · rintro (⟨rfl, hmem⟩ | hold)
    · exact .inl ⟨report, hmem, rfl, rfl⟩
    · exact .inr hold

/-! ### The invariant -/

/-- Transaction `w` has committed no audit entry and changed no assignment. -/
structure Untouched (w : ℕ) (s : Vault ι) : Prop where
  audit : ∀ entry, (w, entry) ∉ s.audit
  reassigned : ∀ report, (w, report) ∉ s.reassigned

structure VaultSound (s : Vault ι) : Prop where
  unknown : ∀ report, report ∉ s.known →
    s.reports.row report = none ∧ s.reports.lock report = none
  untouched : ∀ w, w ∉ s.commits → Untouched w s

/-- What the others leave alone of a transaction. -/
structure VaultKept (w : ℕ) (s t : Vault ι) : Prop where
  ended : s.ended w = true → t.ended w = true
  pending : t.pending w = s.pending w
  read : t.read w = s.read w
  audit : ∀ entry, (w, entry) ∈ t.audit ↔ (w, entry) ∈ s.audit
  reassigned : ∀ report, (w, report) ∈ t.reassigned ↔ (w, report) ∈ s.reassigned
  table : Table.Kept w s.reports t.reports ∨
    t.ended w = true ∧ ∀ report, t.reports.writtenBy w report = none

theorem VaultKept.refl (w : ℕ) (s : Vault ι) : VaultKept w s s :=
  ⟨id, rfl, rfl, fun _ ↦ Iff.rfl, fun _ ↦ Iff.rfl, .inl (Table.Kept.refl w s.reports)⟩

theorem VaultKept.trans (hst : VaultKept w s t) (htu : VaultKept w t u) : VaultKept w s u where
  ended h := htu.ended (hst.ended h)
  pending := htu.pending.trans hst.pending
  read := htu.read.trans hst.read
  audit entry := (htu.audit entry).trans (hst.audit entry)
  reassigned report := (htu.reassigned report).trans (hst.reassigned report)
  table := by
    rcases htu.table with htable | hgone
    · rcases hst.table with hfirst | ⟨hended, hfree⟩
      · exact .inl (hfirst.trans htable)
      · exact .inr ⟨htu.ended hended, fun report ↦ (htable.written report).trans (hfree report)⟩
    · exact .inr hgone

theorem Untouched.kept (h : Untouched w s) (hkept : VaultKept w s t) : Untouched w t where
  audit entry hmem := h.audit entry ((hkept.audit entry).mp hmem)
  reassigned report hmem := h.reassigned report ((hkept.reassigned report).mp hmem)

/-! ### One step -/

theorem VaultSound.of_eq (h : VaultSound s)
    (hunknown : ∀ report, report ∉ t.known →
      t.reports.row report = none ∧ t.reports.lock report = none)
    (hcommits : t.commits = s.commits) (haudit : t.audit = s.audit)
    (hreassigned : t.reassigned = s.reassigned) : VaultSound t where
  unknown := hunknown
  untouched v hnot := by
    rw [hcommits] at hnot
    obtain ⟨hentries, hreports⟩ := h.untouched v hnot
    refine ⟨fun entry ↦ ?_, fun report ↦ ?_⟩
    · rw [haudit]
      exact hentries entry
    · rw [hreassigned]
      exact hreports report

/-- A report that a transaction sees is a known one. -/
theorem VaultSound.known_of_seen (h : VaultSound s) {report : ι} {row : Report}
    (hseen : s.reports.seenBy w report = some row) : report ∈ s.known := by
  by_contra hnot
  obtain ⟨hrow, hlock⟩ := h.unknown report hnot
  have hwritten : s.reports.writtenBy w report = none := by simp [Table.writtenBy, hlock]
  rw [Table.seenBy_of_not_writtenBy hwritten, hrow] at hseen
  cases hseen

theorem vaultSound_lockRow (h : VaultSound s) {report : ι} {row : Report} {written : Option Report}
    (hseen : s.reports.seenBy w report = some row) :
    VaultSound { s with reports := s.reports.lockRow w report written } := by
  refine h.of_eq (fun other hnot ↦ ?_) rfl rfl rfl
  have hne : other ≠ report := by
    rintro rfl
    exact hnot (h.known_of_seen hseen)
  exact ⟨(h.unknown other hnot).1, (Table.lock_lockRow_of_ne hne _).trans (h.unknown other hnot).2⟩

theorem vaultSound_committed (h : VaultSound s) (w : ℕ) : VaultSound (s.committed w) where
  unknown report hnot := by
    obtain ⟨hrow, hlock⟩ := h.unknown report hnot
    have hwritten : s.reports.writtenBy w report = none := by simp [Table.writtenBy, hlock]
    refine ⟨(Table.seenBy_of_not_writtenBy hwritten).trans hrow, ?_⟩
    show (s.reports.release w).lock report = none
    simp [Table.release, hlock]
  untouched v hnot := by
    obtain ⟨hne, hother⟩ := List.ne_and_not_mem_of_not_mem_cons hnot
    obtain ⟨hentries, hreports⟩ := h.untouched v hother
    refine ⟨fun entry hmem ↦ ?_, fun report hmem ↦ ?_⟩
    · rcases mem_audit_committed.mp hmem with ⟨hsame, -⟩ | hold
      · exact hne hsame
      · exact hentries entry hold
    · rcases mem_reassigned_committed.mp hmem with ⟨hsame, -⟩ | hold
      · exact hne hsame
      · exact hreports report hold

theorem vaultSound_perform (h : VaultSound s) {operation : Op ι} {draw : ℕ}
    {reply : Except Fault (Reply operation)}
    (hperform : perform w operation draw s = some (reply, t)) : VaultSound t := by
  cases operation with
  | getReport report =>
    cases hperform
    exact h.of_eq h.unknown rfl rfl rfl
  | getUserById account =>
    cases hperform
    exact h
  | log entry =>
    rcases log_cases hperform with ⟨rfl, -⟩ | rfl
    · exact h
    · exact h.of_eq h.unknown rfl rfl rfl
  | assign report read assignee =>
    rcases assign_cases hperform with ⟨rfl, -⟩ | ⟨rfl, -⟩ | ⟨row, -, hseen, -, -, rfl⟩
    · exact h
    · exact h
    · exact vaultSound_lockRow h hseen
  | randomBytes =>
    cases hperform
    exact h
  | commit =>
    rcases commit_cases hperform with ⟨rfl, -⟩ | ⟨-, -, rfl⟩
    · exact h
    · exact vaultSound_committed h w
  | pageData =>
    cases hperform
    exact h

theorem vaultSound_environment (h : VaultSound s) {happening : Happening ι}
    (hchange : environment happening s = some t) : VaultSound t := by
  cases happening with
  | submit report caseNumber orgId name contact =>
    obtain ⟨hnew, rfl⟩ := submit_cases hchange
    refine h.of_eq (fun other hnot ↦ ?_) rfl rfl rfl
    obtain ⟨hne, hother⟩ := List.ne_and_not_mem_of_not_mem_cons hnot
    exact ⟨(Function.update_of_ne hne ..).trans (h.unknown other hother).1,
      (h.unknown other hother).2⟩
  | delete report =>
    obtain ⟨hfree, rfl⟩ := delete_cases hchange
    refine h.of_eq (fun other hnot ↦ ?_) rfl rfl rfl
    refine ⟨?_, (h.unknown other hnot).2⟩
    by_cases hsame : other = report
    · subst hsame
      exact Function.update_self ..
    · exact (Function.update_of_ne hsame ..).trans (h.unknown other hnot).1
  | account id user =>
    cases hchange
    exact h.of_eq h.unknown rfl rfl rfl
  | abort v =>
    cases hchange
    refine h.of_eq (fun report hnot ↦ ?_) rfl rfl rfl
    obtain ⟨hrow, hlock⟩ := h.unknown report hnot
    refine ⟨hrow, ?_⟩
    show (s.reports.release v).lock report = none
    simp [Table.release, hlock]

/-! ### What the others rely on -/

theorem vaultKept_committed {v : ℕ} (hne : v ≠ w) : VaultKept v s (s.committed w) where
  ended hended := (Function.update_of_ne hne ..).trans hended
  pending := rfl
  read := rfl
  audit entry := by simp [mem_audit_committed, hne]
  reassigned report := by simp [mem_reassigned_committed, hne]
  table := .inl (Table.kept_commit hne)

/-- A statement or a commit of one transaction leaves the others alone. -/
theorem vaultKept_perform {v : ℕ} (hne : v ≠ w) {operation : Op ι} {draw : ℕ}
    {reply : Except Fault (Reply operation)}
    (h : perform w operation draw s = some (reply, t)) : VaultKept v s t := by
  cases operation with
  | getReport report =>
    cases h
    exact ⟨id, rfl, Function.update_of_ne hne .., fun _ ↦ Iff.rfl, fun _ ↦ Iff.rfl,
      .inl (Table.Kept.refl v s.reports)⟩
  | getUserById account =>
    cases h
    exact VaultKept.refl v s
  | log entry =>
    rcases log_cases h with ⟨rfl, -⟩ | rfl
    · exact VaultKept.refl v t
    · exact ⟨id, Function.update_of_ne hne .., rfl, fun _ ↦ Iff.rfl, fun _ ↦ Iff.rfl,
        .inl (Table.Kept.refl v s.reports)⟩
  | assign report read assignee =>
    rcases assign_cases h with ⟨rfl, -⟩ | ⟨rfl, -⟩ | ⟨row, hblocked, -, -, -, rfl⟩
    · exact VaultKept.refl v t
    · exact VaultKept.refl v t
    · exact ⟨id, rfl, rfl, fun _ ↦ Iff.rfl, fun _ ↦ Iff.rfl,
        .inl (Table.kept_lockRow hne hblocked _)⟩
  | randomBytes =>
    cases h
    exact VaultKept.refl v s
  | commit =>
    rcases commit_cases h with ⟨rfl, -⟩ | ⟨-, -, rfl⟩
    · exact VaultKept.refl v t
    · exact vaultKept_committed hne
  | pageData =>
    cases h
    exact VaultKept.refl v s

theorem vaultKept_environment (h : VaultSound s) {v : ℕ} {happening : Happening ι}
    (hchange : environment happening s = some t) : VaultKept v s t := by
  cases happening with
  | submit report caseNumber orgId name contact =>
    obtain ⟨hnew, rfl⟩ := submit_cases hchange
    exact ⟨id, rfl, rfl, fun _ ↦ Iff.rfl, fun _ ↦ Iff.rfl,
      .inl (Table.kept_insert (h.unknown report hnew).2 _)⟩
  | delete report =>
    obtain ⟨hfree, rfl⟩ := delete_cases hchange
    refine ⟨id, rfl, rfl, fun _ ↦ Iff.rfl, fun _ ↦ Iff.rfl, .inl ⟨fun _ ↦ rfl, fun other hlock ↦ ?_⟩⟩
    have hne : other ≠ report := by
      rintro rfl
      simp [Table.writtenBy, hfree] at hlock
    exact Function.update_of_ne hne ..
  | account id user =>
    cases hchange
    exact ⟨fun hended ↦ hended, rfl, rfl, fun _ ↦ Iff.rfl, fun _ ↦ Iff.rfl,
      .inl (Table.Kept.refl v s.reports)⟩
  | abort w =>
    cases hchange
    by_cases hv : v = w
    · subst hv
      exact ⟨fun _ ↦ Function.update_self .., rfl, rfl, fun _ ↦ Iff.rfl, fun _ ↦ Iff.rfl,
        .inr ⟨Function.update_self .., fun _ ↦ Table.writtenBy_release_self⟩⟩
    · exact ⟨fun hended ↦ (Function.update_of_ne hv ..).trans hended, rfl, rfl, fun _ ↦ Iff.rfl,
        fun _ ↦ Iff.rfl, .inl (Table.kept_abort hv)⟩

end OpenWhistle.Identity
