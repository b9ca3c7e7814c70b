import OpenWhistle.Identity.Routes

/-!
# One revealer of an unassigned case

The gate decides on the assignee it has read, and its UPDATE asks nothing of the row it meets: of two
reveals that both read an unassigned case, the later one takes the case from the earlier, and both
accounts have seen the identity. Where every reveal that commits meets a case that is nobody's or its
own account's, one account sees it, and keeps the case.
-/

set_option autoImplicit false
set_option relaxedAutoImplicit false
set_option linter.unusedSectionVars false

namespace OpenWhistle.Identity

open Interleaving ReadCommitted
open Accounts (AdminUser AdminRole UserId)

variable {ι : Type} [DecidableEq ι] {multiTenancyEnabled : Bool} {fernet : Fernet}

theorem Justified.about {user : AdminUser} {report : ι} {entry : AuditEntry ι}
    (h : Justified fernet user report entry) :
    entry.Reveals ∧ entry.admin = user.id ∧ entry.report = report := by
  obtain ⟨token, via, reason, rfl, -⟩ := h
  exact ⟨trivial, rfl, rfl⟩

theorem permits_exclusive {events : List (Step ι)}
    (hassigns : ∀ w request, Event.start w request ∈ events → ¬request.Assigns)
    (hcommits : Meets semantics (handler multiTenancyEnabled fernet)
      (fun s event ↦ s.Acts UncontestedCommit event) start events) :
    Meets semantics (handler multiTenancyEnabled fernet) (vault ι True).Permits start events := by
  have hallows : ∀ (s : Work ι) (event : Step ι), s.Acts UncontestedCommit event →
      s.Acts (vault ι True).allows event :=
    fun s event hacts w operation hacting _ ↦ hacts w operation hacting
  exact Contract.meets_permits (fun _ _ _ ↦ trivial) (fun _ _ ↦ trivial)
    (fun w request hstart _ ↦ hassigns w request hstart) (meets_imp hallows hcommits)

/-- In every run without assignments by hand whose reveals are uncontested when they commit, two
accounts that are shown the identity of one report are the same account, and a report whose identity
was revealed is assigned to the account that revealed it. -/
theorem one_revealer_of_an_unassigned_case {events : List (Step ι)} {last : Work ι}
    (hrun : run semantics (handler multiTenancyEnabled fernet) start events = some last)
    (hassigns : ∀ w request, Event.start w request ∈ events → ¬request.Assigns)
    (hcommits : Meets semantics (handler multiTenancyEnabled fernet)
      (fun s event ↦ s.Acts UncontestedCommit event) start events) :
    (∀ v w first second, Event.start v first ∈ events → Event.start w second ∈ events →
      ∀ user other report, first.reveals = some (user, report) →
        second.reveals = some (other, report) →
        (∃ answer, last.answer v = some answer ∧ answer.Discloses) →
        (∃ answer, last.answer w = some answer ∧ answer.Discloses) → user.id = other.id) ∧
    ∀ v entry, (v, entry) ∈ last.shared.audit → entry.Reveals →
      ∀ row, last.shared.reports.row entry.report = some row →
        row.assignedToId = some entry.admin := by
  have hpermits := permits_exclusive hassigns hcommits
  have hhandler : OneHandler last.shared :=
    (Contract.run_safe vault_handles vault_start hpermits hrun).invariant.2 trivial
  have hrecorded : ∀ w request user report, Event.start w request ∈ events →
      request.reveals = some (user, report) →
      (∃ answer, last.answer w = some answer ∧ answer.Discloses) →
      ∃ entry, (w, entry) ∈ last.shared.audit ∧ entry.Reveals ∧ entry.admin = user.id ∧
        entry.report = report := by
    rintro w request user report hstart hreveals ⟨answer, hanswer, hshown⟩
    obtain ⟨program, hworker, hsafe⟩ :=
      promised_of_run hpermits hrun (fun _ ↦ hassigns w request hstart) hstart
    rw [System.answer_eq_some, hworker, Option.some.injEq] at hanswer
    subst hanswer
    obtain ⟨account, place, hsame, hrecord⟩ := hsafe.1 answer rfl hshown
    rw [hreveals] at hsame
    cases hsame
    obtain ⟨entry, hmem, hjustified⟩ := hrecord.entry
    exact ⟨entry, hmem, hjustified.about⟩
  refine ⟨fun v w first second hfirst hsecond user other report huser hother hshown hshown' ↦ ?_,
    hhandler.assignee⟩
  obtain ⟨entry, hmem, hreveals, hadmin, hreport⟩ :=
    hrecorded v first user report hfirst huser hshown
  obtain ⟨entry', hmem', hreveals', hadmin', hreport'⟩ :=
    hrecorded w second other report hsecond hother hshown'
  rw [← hadmin, ← hadmin']
  exact (hhandler.agreed v entry hmem hreveals w entry' hmem' hreveals'
    (hreport'.trans hreport.symm)).symm

/-! ### Two reveals of one case -/

/-- An admin of organisation 7. -/
def adminOfSeven (id : UserId) (username : String) : AdminUser where
  id := id
  username := username
  totpSecret := ""
  role := .admin
  orgId := some 7

def submitted : Step ℕ :=
  .environment (.submit 0 "OW-2026-00001" (some 7) (some ⟨0, 3, "Clara"⟩) none)

def revealBy (id : UserId) (username : String) : Request ℕ :=
  .revealIdentity (adminOfSeven id username) 0 "the hearing is on Monday"

/-- Account 1 reveals the identity twice, from two windows, and account 2 comes too late. -/
def oneAfterTheOther : List (Step ℕ) :=
  [submitted, .start 1 (revealBy 1 "anna"), .start 2 (revealBy 1 "anna"),
    .run 1 0, .run 2 0, .run 1 0, .run 1 0, .run 1 5, .run 1 0, .run 1 0, .run 1 0,
    .run 2 0, .run 2 0, .run 2 6, .run 2 0, .run 2 0, .run 2 0,
    .start 3 (revealBy 2 "bert"), .run 3 0]

/-- Both read the unassigned case before one of them has committed. -/
def bothReadUnassigned : List (Step ℕ) :=
  [submitted, .start 1 (revealBy 1 "anna"), .start 2 (revealBy 2 "bert"),
    .run 1 0, .run 2 0, .run 1 0, .run 1 0, .run 1 5, .run 1 0, .run 1 0, .run 1 0,
    .run 2 0, .run 2 0, .run 2 6, .run 2 0, .run 2 0, .run 2 0]

theorem one_revealer_of_an_unassigned_case_of_two : ∃ last,
    run semantics (handler true Fernet.clear) start oneAfterTheOther = some last ∧
    last.answer 3 = some (.refused 403 "Forbidden") ∧
    last.shared.audit.map Prod.fst = [2, 2, 1, 1] ∧
    ∀ v entry, (v, entry) ∈ last.shared.audit → entry.Reveals →
      ∀ row, last.shared.reports.row entry.report = some row →
        row.assignedToId = some entry.admin := by
  have hrun := run_eq_get (show (run semantics (handler true Fernet.clear) start
    oneAfterTheOther).isSome = true by decide +kernel)
  refine ⟨_, hrun, by decide +kernel, by decide +kernel,
    (one_revealer_of_an_unassigned_case hrun ?_ (by decide +kernel)).2⟩
  intro w request hmem
  simp [oneAfterTheOther, submitted, revealBy] at hmem
  rcases hmem with ⟨-, rfl⟩ | ⟨-, rfl⟩ | ⟨-, rfl⟩ <;> exact id

/-- Both accounts are shown the identity, and the case is the second one's. -/
theorem two_reveals_of_one_case : ∃ last,
    run semantics (handler true Fernet.clear) start bothReadUnassigned = some last ∧
    (∃ answer, last.answer 1 = some answer ∧ answer.Discloses) ∧
    (∃ answer, last.answer 2 = some answer ∧ answer.Discloses) ∧
    (last.shared.reports.row 0).map (fun row ↦ row.assignedToId) = some (some 2) := by
  have hrun := run_eq_get (show (run semantics (handler true Fernet.clear) start
    bothReadUnassigned).isSome = true by decide +kernel)
  have hcells : ∀ answer : Answer, Cell.decrypted "Clara" ∈ answer.cells → answer.Discloses :=
    fun _ hmem ↦ ⟨"Clara", hmem⟩
  refine ⟨_, hrun, ?_, ?_, by decide +kernel⟩
  · refine ⟨_, (Option.some_get (show _ = true by decide +kernel)).symm, hcells _ ?_⟩
    decide +kernel
  · refine ⟨_, (Option.some_get (show _ = true by decide +kernel)).symm, hcells _ ?_⟩
    decide +kernel

end OpenWhistle.Identity
