import OpenWhistle.Foundation.Contract
import OpenWhistle.Identity.Assignee

/-!
# What a transaction at the vault promises

The stages of a transaction that reveals an identity: it has read the report and passed both checks,
it may have taken the case, it has inserted its audit entries, its reveal is on record. Each operation
leads from one stage to the next. Under the condition `exclusive` the contract is also about who has
revealed an identity: then no request assigns a case by hand, and no reveal commits on a case that is
somebody else's by then.
-/

set_option autoImplicit false
set_option relaxedAutoImplicit false
set_option linter.unusedSectionVars false

namespace OpenWhistle.Identity

open Interleaving ReadCommitted
open Accounts (AdminUser AdminRole UserId)
open Access (Placement canAccessReport canRevealIdentity)

variable {ι : Type} [DecidableEq ι] {exclusive : Prop} {multiTenancyEnabled : Bool}
  {fernet : Fernet} {s t u : Vault ι} {w : ℕ}

/-- An assignment by hand. -/
def Request.Assigns : Request ι → Prop
  | .assignReport _ _ _ => True
  | _ => False

/-- The account that reveals an identity, and the report. -/
def Request.reveals : Request ι → Option (AdminUser × ι)
  | .revealIdentity user report _ => some (user, report)
  | .exportPdfWithIdentity user report _ => some (user, report)
  | _ => none

/-! ### The stages of a transaction -/

/-- A transaction that has done nothing yet. -/
structure Fresh (w : ℕ) (s : Vault ι) : Prop where
  untouched : Untouched w s
  pending : s.pending w = []
  free : ∀ report, s.reports.writtenBy w report = none

/-- The account passes both checks on the report that its transaction has read. -/
def Entitled (multiTenancyEnabled : Bool) (w : ℕ) (user : AdminUser) (report : ι) (s : Vault ι) :
    Prop :=
  ∃ read, s.read w = some (report, read) ∧
    canAccessReport multiTenancyEnabled user read.toPlacement = true ∧
    canRevealIdentity multiTenancyEnabled user read.toPlacement = true

/-- An audit entry of a reveal with a reason, as the transaction inserts it. -/
def Justified (fernet : Fernet) (user : AdminUser) (report : ι) (entry : AuditEntry ι) : Prop :=
  ∃ token via reason, entry = ⟨user.id, .identityRevealed token via, report⟩ ∧
    fernet.decrypt token = some reason ∧ reasonMin ≤ reason.length ∧ reason.length ≤ reasonMax

/-- The reveal of a transaction is on record. -/
structure Recorded (multiTenancyEnabled : Bool) (fernet : Fernet) (w : ℕ) (user : AdminUser)
    (report : ι) (s : Vault ι) : Prop where
  entry : ∃ entry, (w, entry) ∈ s.audit ∧ Justified fernet user report entry
  entitled : Entitled multiTenancyEnabled w user report s

/-- A transaction has changed no assignment, or its reveal is on record. -/
def Accounted (multiTenancyEnabled : Bool) (fernet : Fernet) (w : ℕ) (user : AdminUser) (report : ι)
    (s : Vault ι) : Prop :=
  (∀ other, (w, other) ∉ s.reassigned) ∨ Recorded multiTenancyEnabled fernet w user report s

/-- What is known of the table by a transaction that reveals: it has written no other report, and
this one, if at all, with its own account as the assignee. -/
def Claims (exclusive : Prop) (w : ℕ) (user : AdminUser) (report : ι) (s : Vault ι) : Prop :=
  (∀ other, other ≠ report → s.reports.writtenBy w other = none) ∧
    (s.reports.writtenBy w report = none ∧ (exclusive → Assigned report s) ∨
      ∃ row, s.reports.writtenBy w report = some (some row) ∧ row.assignedToId = some user.id)

/-- A transaction on its way to the commit of a reveal. -/
structure Revealing (exclusive : Prop) (multiTenancyEnabled : Bool) (w : ℕ) (user : AdminUser)
    (report : ι) (s : Vault ι) : Prop where
  untouched : Untouched w s
  entitled : Entitled multiTenancyEnabled w user report s
  entries : ∀ entry ∈ s.pending w, entry.admin = user.id ∧ entry.report = report
  table : s.ended w = true ∨ Claims exclusive w user report s

section Kept

theorem Fresh.kept (h : Fresh w s) (hkept : VaultKept w s t) : Fresh w t where
  untouched := h.untouched.kept hkept
  pending := hkept.pending.trans h.pending
  free report := by
    rcases hkept.table with htable | ⟨-, hfree⟩
    · exact (htable.written report).trans (h.free report)
    · exact hfree report

theorem Entitled.kept {user : AdminUser} {report : ι}
    (h : Entitled multiTenancyEnabled w user report s) (hkept : VaultKept w s t) :
    Entitled multiTenancyEnabled w user report t := by
  obtain ⟨read, hread, hchecks⟩ := h
  exact ⟨read, hkept.read.trans hread, hchecks⟩

theorem Recorded.kept {user : AdminUser} {report : ι}
    (h : Recorded multiTenancyEnabled fernet w user report s) (hkept : VaultKept w s t) :
    Recorded multiTenancyEnabled fernet w user report t where
  entry := by
    obtain ⟨entry, hmem, hjustified⟩ := h.entry
    exact ⟨entry, (hkept.audit entry).mpr hmem, hjustified⟩
  entitled := h.entitled.kept hkept

theorem Accounted.kept {user : AdminUser} {report : ι}
    (h : Accounted multiTenancyEnabled fernet w user report s) (hkept : VaultKept w s t) :
    Accounted multiTenancyEnabled fernet w user report t := by
  rcases h with hnone | hrecorded
  · exact .inl fun other hmem ↦ hnone other ((hkept.reassigned other).mp hmem)
  · exact .inr (hrecorded.kept hkept)

theorem Revealing.kept {user : AdminUser} {report : ι}
    (h : Revealing exclusive multiTenancyEnabled w user report s) (hkept : VaultKept w s t)
    (hassigned : exclusive → StaysAssigned s t) :
    Revealing exclusive multiTenancyEnabled w user report t where
  untouched := h.untouched.kept hkept
  entitled := h.entitled.kept hkept
  entries := by
    rw [hkept.pending]
    exact h.entries
  table := by
    rcases hkept.table with htable | ⟨hended, -⟩
    · rcases h.table with hended | ⟨halone, hclaim⟩
      · exact .inl (hkept.ended hended)
      · refine .inr ⟨fun other hne ↦ (htable.written other).trans (halone other hne), ?_⟩
        rw [htable.written report]
        rcases hclaim with ⟨hnone, hstays⟩ | hwritten
        · exact .inl ⟨hnone, fun hexclusive ↦ hassigned hexclusive report (hstays hexclusive)⟩
        · exact .inr hwritten
    · exact .inl hended

end Kept

/-! ### The contract -/

def vault (ι : Type) [DecidableEq ι] (exclusive : Prop) :
    Contract (semantics (ι := ι)) (Request ι) Answer where
  invariant s := VaultSound s ∧ (exclusive → OneHandler s)
  rely w s t := VaultKept w s t ∧ (exclusive → StaysAssigned s t)
  rely_refl w s := ⟨VaultKept.refl w s, fun _ ↦ StaysAssigned.of_eq rfl rfl⟩
  rely_trans _ _ _ _ hst htu :=
    ⟨hst.1.trans htu.1, fun hexclusive report h ↦ htu.2 hexclusive report (hst.2 hexclusive report h)⟩
  idle := Fresh
  idle_stable _ _ _ h hkept _ := h.kept hkept.1
  ends _ _ _ := True
  ends_stable _ _ _ _ _ _ _ := trivial
  admits request := exclusive → ¬request.Assigns
  allows w operation s := exclusive → UncontestedCommit w operation s
  trusts _ _ _ := True
  tolerates _ _ := True
  environment_safe := by
    rintro happening s t ⟨hsound, hhandler⟩ - hchange
    refine ⟨⟨vaultSound_environment hsound hchange, fun hexclusive ↦ ?_⟩, fun w ↦
      ⟨vaultKept_environment hsound hchange, fun hexclusive ↦ ?_⟩⟩
    · exact (oneHandler_environment (hhandler hexclusive) hchange).1
    · exact (oneHandler_environment (hhandler hexclusive) hchange).2

/-! ### The operations -/

/-- One operation: what is left to show is what it does to the assignees, and its promise. -/
theorem vault_call {operation : Op ι} {promise : Reply operation → Vault ι → Prop}
    {kept : Vault ι → Prop} (hkept : ∀ t, VaultKept w s t → kept t)
    (h : ∀ t, VaultKept w s t → (exclusive → StaysAssigned s t) → VaultSound t →
      (exclusive → OneHandler t) → (exclusive → UncontestedCommit w operation t) →
      ∀ draw reply u, perform w operation draw t = some (reply, u) →
        (exclusive → OneHandler u ∧ StaysAssigned t u) ∧ kept u ∧
          ∀ value, reply = .ok value → promise value u) :
    Safe (vault ι exclusive) w (Settles promise kept) (call operation) s := by
  refine Safe.call fun t hrely hinv ↦
    ⟨fun _ ↦ hkept t hrely.1, fun hallows draw reply u hperform ↦ ?_⟩
  obtain ⟨hhandler, hkept', hpromise⟩ :=
    h t hrely.1 hrely.2 hinv.1 hinv.2 hallows draw reply u hperform
  refine ⟨⟨vaultSound_perform hinv.1 hperform, fun hexclusive ↦ (hhandler hexclusive).1⟩,
    fun v hv ↦ ⟨vaultKept_perform hv hperform, fun hexclusive ↦ (hhandler hexclusive).2⟩,
    fun _ ↦ ?_, fun _ ↦ hkept'⟩
  cases reply with
  | ok value => exact hpromise value rfl
  | error exception => exact hkept'

/-- An operation that leaves the reports and the audit log alone. -/
theorem oneHandler_same (h : exclusive → OneHandler s) (hreports : t.reports = s.reports)
    (haudit : t.audit = s.audit) (hknown : t.known = s.known) :
    exclusive → OneHandler t ∧ StaysAssigned s t :=
  fun hexclusive ↦ ⟨(h hexclusive).of_eq hreports haudit hknown,
    StaysAssigned.of_eq (by rw [hreports]) hknown⟩

/-- The reads behind a page keep what the others keep. -/
theorem vault_pageData {promise kept : Vault ι → Prop} (hpromise : ∀ t, VaultKept w s t → promise t)
    (hkept : ∀ t, VaultKept w s t → kept t) :
    Safe (vault ι exclusive) w (Settles (fun _ ↦ promise) kept) (call .pageData) s := by
  refine vault_call hkept fun t ht _ _ hhandler _ draw reply u hperform ↦ ?_
  cases hperform
  exact ⟨oneHandler_same hhandler rfl rfl rfl, hkept t ht, fun _ _ ↦ hpromise t ht⟩

/-- The read of a report: what it finds is what the transaction has read. -/
theorem vault_getReport (report : ι) {kept : Vault ι → Prop} (hkept : ∀ t, Fresh w t → kept t)
    (h : Fresh w s) : Safe (vault ι exclusive) w
    (Settles (fun found t ↦ Fresh w t ∧ ∀ read, found = some read →
      t.read w = some (report, read.report) ∧
        (exclusive → read.report.assignedToId ≠ none → Assigned report t)) kept)
    (call (.getReport report)) s := by
  refine vault_call (fun t ht ↦ hkept t (h.kept ht)) fun t ht _ hsound hhandler _ draw reply u
    hperform ↦ ?_
  cases hperform
  have hfresh := h.kept ht
  have hnext : ∀ next, Fresh w { t with read := next } := fun _ ↦
    ⟨⟨hfresh.untouched.audit, hfresh.untouched.reassigned⟩, hfresh.pending, hfresh.free⟩
  refine ⟨oneHandler_same hhandler rfl rfl rfl, hkept _ (hnext _), fun found hfound ↦
    ⟨hnext _, fun read hread ↦ ?_⟩⟩
  cases hfound
  obtain ⟨row, hrow, rfl⟩ := Option.map_eq_some_iff.mp hread
  refine ⟨?_, fun _ hassigned ↦ ⟨?_, fun other hother ↦ ?_⟩⟩
  · show Function.update t.read w _ w = _
    rw [Function.update_self, hrow]
    rfl
  · exact hsound.known_of_seen ((Table.seenBy_of_not_writtenBy (hfresh.free report)).trans hrow)
  · change t.reports.row report = some other at hother
    rw [hrow] at hother
    cases hother
    exact hassigned

/-- An audit entry of a transaction that writes nothing else. -/
structure Viewing (w : ℕ) (s : Vault ι) : Prop where
  untouched : Untouched w s
  quiet : ∀ entry ∈ s.pending w, ¬entry.Reveals
  free : ∀ report, s.reports.writtenBy w report = none

theorem Viewing.kept (h : Viewing w s) (hkept : VaultKept w s t) : Viewing w t where
  untouched := h.untouched.kept hkept
  quiet := by
    rw [hkept.pending]
    exact h.quiet
  free report := by
    rcases hkept.table with htable | ⟨-, hfree⟩
    · exact (htable.written report).trans (h.free report)
    · exact hfree report

theorem vault_logView {entry : AuditEntry ι} (hquiet : ¬entry.Reveals) {kept : Vault ι → Prop}
    (hkept : ∀ t, Untouched w t → kept t) (h : Fresh w s) :
    Safe (vault ι exclusive) w (Settles (fun _ t ↦ Viewing w t) kept) (call (.log entry)) s := by
  refine vault_call (fun t ht ↦ hkept t (h.kept ht).untouched) fun t ht _ _ hhandler _ draw reply u
    hperform ↦ ?_
  have hfresh := h.kept ht
  rcases log_cases hperform with ⟨rfl, rfl⟩ | rfl
  · exact ⟨oneHandler_same hhandler rfl rfl rfl, hkept u hfresh.untouched, nofun⟩
  · refine ⟨oneHandler_same hhandler rfl rfl rfl, hkept _ ⟨hfresh.untouched.audit,
      hfresh.untouched.reassigned⟩, fun _ _ ↦ ⟨⟨hfresh.untouched.audit, hfresh.untouched.reassigned⟩,
      fun other hother ↦ ?_, hfresh.free⟩⟩
    change other ∈ Function.update t.pending w _ w at hother
    rw [Function.update_self, hfresh.pending, List.mem_singleton] at hother
    rw [hother]
    exact hquiet

/-- A transaction that has written no report changes no assignment. -/
theorem reassigns_eq_nil (hfree : ∀ report, s.reports.writtenBy w report = none) :
    s.reassigns w = [] := by
  refine List.filter_eq_nil_iff.mpr fun report _ ↦ ?_
  rw [Table.seenBy_of_not_writtenBy (hfree report)]
  simp

/-- The commit of a view changes no assignment. -/
theorem vault_commitView {kept : Vault ι → Prop}
    (hkept : ∀ t, (∀ report, (w, report) ∉ t.reassigned) → kept t) (h : Viewing w s) :
    Safe (vault ι exclusive) w (Settles (fun _ t ↦ ∀ report, (w, report) ∉ t.reassigned) kept)
      (call .commit) s := by
  refine vault_call (fun t ht ↦ hkept t (h.kept ht).untouched.reassigned) fun t ht _ hsound hhandler _
    draw reply u hperform ↦ ?_
  have hview := h.kept ht
  rcases commit_cases hperform with ⟨rfl, rfl⟩ | ⟨-, hpresent, rfl⟩
  · exact ⟨oneHandler_same hhandler rfl rfl rfl, hkept u hview.untouched.reassigned, nofun⟩
  · have hnone : ∀ report, (w, report) ∉ (t.committed w).reassigned := by
      intro report hmem
      rcases mem_reassigned_committed.mp hmem with ⟨-, hnew⟩ | hold
      · rw [reassigns_eq_nil hview.free] at hnew
        cases hnew
      · exact hview.untouched.reassigned report hold
    exact ⟨fun hexclusive ↦ ⟨oneHandler_quiet (hhandler hexclusive) hsound hpresent hview.quiet
      hview.free, staysAssigned_committed (hhandler hexclusive) w⟩, hkept _ hnone, fun _ _ ↦ hnone⟩

/-! ### The operations of a reveal -/

section Reveal

variable {user : AdminUser} {report : ι}

theorem Revealing.accounted (h : Revealing exclusive multiTenancyEnabled w user report s) :
    Accounted multiTenancyEnabled fernet w user report s :=
  .inl h.untouched.reassigned

/-- The gate takes an unassigned case. -/
theorem vault_assign (hentitled : Entitled multiTenancyEnabled w user report s) (h : Fresh w s) :
    Safe (vault ι exclusive) w
      (Settles (fun _ t ↦ Revealing exclusive multiTenancyEnabled w user report t)
        (Accounted multiTenancyEnabled fernet w user report))
      (call (.assign report none (some user.id))) s := by
  refine vault_call (fun t ht ↦ .inl (h.kept ht).untouched.reassigned) fun t ht _ hsound hhandler _
    draw reply u hperform ↦ ?_
  have hfresh := h.kept ht
  rcases assign_cases hperform with ⟨rfl, rfl⟩ | ⟨-, hsame, -⟩ | ⟨row, -, hseen, -, -, rfl⟩
  · exact ⟨oneHandler_same hhandler rfl rfl rfl, .inl hfresh.untouched.reassigned, nofun⟩
  · cases hsame
  · have hwritten : ({ row with assignedToId := some user.id } : Report).assignedToId ≠ none :=
      Option.some_ne_none _
    refine ⟨fun hexclusive ↦ ⟨oneHandler_lockRow (hhandler hexclusive) hseen hwritten,
      StaysAssigned.of_eq rfl rfl⟩, .inl hfresh.untouched.reassigned, fun _ _ ↦ ⟨?_, ?_, ?_, ?_⟩⟩
    · exact ⟨hfresh.untouched.audit, hfresh.untouched.reassigned⟩
    · have hnext := hentitled.kept ht
      exact hnext
    · intro entry hmem
      change entry ∈ t.pending w at hmem
      rw [hfresh.pending] at hmem
      cases hmem
    · refine .inr ⟨fun other hne ↦ ?_, .inr ⟨_, Table.writtenBy_lockRow_self _, rfl⟩⟩
      rw [← hfresh.free other]
      simp [Table.writtenBy, Table.lock_lockRow_of_ne hne]

/-- An audit entry of the reveal's account about its report. -/
theorem vault_logReveal {action : AuditAction}
    (h : Revealing exclusive multiTenancyEnabled w user report s) :
    Safe (vault ι exclusive) w
      (Settles (fun _ t ↦ Revealing exclusive multiTenancyEnabled w user report t ∧
        ⟨user.id, action, report⟩ ∈ t.pending w) (Accounted multiTenancyEnabled fernet w user report))
      (call (.log ⟨user.id, action, report⟩)) s := by
  refine vault_call (fun t ht ↦ .inl (h.untouched.kept ht).reassigned) fun t ht hassigned _ hhandler _
    draw reply u hperform ↦ ?_
  have hrevealing := h.kept ht hassigned
  rcases log_cases hperform with ⟨rfl, rfl⟩ | rfl
  · exact ⟨oneHandler_same hhandler rfl rfl rfl, hrevealing.accounted, nofun⟩
  · refine ⟨oneHandler_same hhandler rfl rfl rfl, .inl hrevealing.untouched.reassigned,
      fun _ _ ↦ ⟨⟨⟨hrevealing.untouched.audit, hrevealing.untouched.reassigned⟩, hrevealing.entitled,
        fun entry hmem ↦ ?_, hrevealing.table⟩, ?_⟩⟩
    · change entry ∈ Function.update t.pending w _ w at hmem
      rw [Function.update_self, List.mem_cons] at hmem
      rcases hmem with rfl | hold
      · exact ⟨rfl, rfl⟩
      · exact hrevealing.entries entry hold
    · show _ ∈ Function.update t.pending w _ w
      rw [Function.update_self]
      exact List.mem_cons_self

theorem vault_randomBytes (h : Revealing exclusive multiTenancyEnabled w user report s) :
    Safe (vault ι exclusive) w
      (Settles (fun _ t ↦ Revealing exclusive multiTenancyEnabled w user report t)
        (Accounted multiTenancyEnabled fernet w user report)) (call .randomBytes) s := by
  refine vault_call (fun t ht ↦ .inl (h.untouched.kept ht).reassigned) fun t ht hassigned _ hhandler _
    draw reply u hperform ↦ ?_
  cases hperform
  have hrevealing := h.kept ht hassigned
  exact ⟨oneHandler_same hhandler rfl rfl rfl, hrevealing.accounted, fun _ _ ↦ hrevealing⟩

/-- The row that a reveal is about to leave is its account's. -/
theorem Claims.leaves (h : Claims exclusive w user report s) (hexclusive : exclusive)
    (huncontested : ∀ row ∈ s.reports.row report,
      row.assignedToId = none ∨ row.assignedToId = some user.id)
    {row : Report} (hseen : s.reports.seenBy w report = some row) :
    row.assignedToId = some user.id := by
  rcases h.2 with ⟨hnone, hassigned⟩ | ⟨written, hwritten, hassignee⟩
  · rw [Table.seenBy_of_not_writtenBy hnone] at hseen
    rcases huncontested row hseen with hfree | hown
    · exact absurd hfree ((hassigned hexclusive).2 row hseen)
    · exact hown
  · rw [Table.seenBy_of_writtenBy hwritten] at hseen
    cases hseen
    exact hassignee

/-- The commit puts the reveal on record, or it changes nothing. -/
theorem vault_commitReveal {entry : AuditEntry ι} (hjustified : Justified fernet user report entry)
    (h : Revealing exclusive multiTenancyEnabled w user report s) (hmem : entry ∈ s.pending w) :
    Safe (vault ι exclusive) w
      (Settles (fun _ t ↦ Recorded multiTenancyEnabled fernet w user report t)
        (Accounted multiTenancyEnabled fernet w user report)) (call .commit) s := by
  refine vault_call (fun t ht ↦ .inl (h.untouched.kept ht).reassigned) fun t ht hassigned hsound
    hhandler hallows draw reply u hperform ↦ ?_
  have hrevealing := h.kept ht hassigned
  have hentry : entry ∈ t.pending w := by
    rw [ht.pending]
    exact hmem
  rcases commit_cases hperform with ⟨rfl, rfl⟩ | ⟨hopen, hpresent, rfl⟩
  · exact ⟨oneHandler_same hhandler rfl rfl rfl, hrevealing.accounted, nofun⟩
  have hrecorded : Recorded multiTenancyEnabled fernet w user report (t.committed w) :=
    ⟨⟨entry, mem_audit_committed.mpr (.inl ⟨rfl, hentry⟩), hjustified⟩, hrevealing.entitled⟩
  refine ⟨fun hexclusive ↦ ⟨?_, staysAssigned_committed (hhandler hexclusive) w⟩, .inr hrecorded,
    fun _ _ ↦ hrecorded⟩
  have hone := hhandler hexclusive
  have hclaims : Claims exclusive w user report t := by
    rcases hrevealing.table with hended | hclaims
    · rw [hopen] at hended
      cases hended
    · exact hclaims
  have huncontested : ∀ row ∈ t.reports.row report,
      row.assignedToId = none ∨ row.assignedToId = some user.id := by
    obtain ⟨token, via, reason, rfl, -⟩ := hjustified
    exact hallows hexclusive hopen _ hentry trivial
  have hrow : t.reports.row report ≠ none := by
    obtain ⟨row, hseen⟩ := Option.ne_none_iff_exists'.mp (hpresent entry hentry)
    rw [(hrevealing.entries entry hentry).2] at hseen
    exact hone.row_of_seen hseen
  refine oneHandler_reveal hone hsound hpresent hrevealing.entries hclaims.1
    (fun row ↦ hclaims.leaves hexclusive huncontested) fun v earlier hearlier hreveals hsame ↦ ?_
  obtain ⟨row, hstored⟩ := Option.ne_none_iff_exists'.mp hrow
  have hassignee := hone.assignee v earlier hearlier hreveals row (by rw [hsame, hstored])
  rcases huncontested row hstored with hfree | hown
  · rw [hassignee] at hfree
    cases hfree
  · rw [hassignee] at hown
    exact Option.some.inj hown

end Reveal

end OpenWhistle.Identity
