import OpenWhistle.Identity.Routes

/-!
# No identity is disclosed without a record

The claim about every run: a response that contains a decrypted name or contact belongs to a reveal
whose audit entry is committed, by an account that passed both checks on the report as it was read.
A reveal that was refused, or has not committed, has shown and assigned nothing.
-/

set_option autoImplicit false
set_option relaxedAutoImplicit false
set_option linter.unusedSectionVars false

namespace OpenWhistle.Identity

open Interleaving ReadCommitted
open Accounts (AdminUser AdminRole UserId)
open Access (Placement canAccessReport canRevealIdentity)

variable {ι : Type} [DecidableEq ι] {multiTenancyEnabled : Bool} {fernet : Fernet}

/-- A reveal that came to nothing: its transaction has not committed, or it has ended and its
transaction has committed no reveal. -/
def Fruitless (w : ℕ) (s : Work ι) : Prop :=
  w ∉ s.shared.commits ∨
    (∃ program, s.worker w = some program ∧ program.Ended) ∧
      ∀ entry, (w, entry) ∈ s.shared.audit → ¬entry.Reveals

theorem Justified.reveals {user : AdminUser} {report : ι} {entry : AuditEntry ι}
    (h : Justified fernet user report entry) : entry.Reveals := by
  obtain ⟨token, via, reason, rfl, -⟩ := h
  trivial

/-- A reveal that came to nothing is not on record. -/
theorem Fruitless.not_recorded {w : ℕ} {s : Work ι} {user : AdminUser} {report : ι}
    (h : Fruitless w s) (hsound : VaultSound s.shared) :
    ¬Recorded multiTenancyEnabled fernet w user report s.shared := by
  intro hrecorded
  obtain ⟨entry, hmem, hjustified⟩ := hrecorded.entry
  rcases h with hopen | ⟨-, hnone⟩
  · exact (hsound.untouched w hopen).audit entry hmem
  · exact hnone entry hmem hjustified.reveals

/-- In every run, a response with a decrypted identity answers a reveal of one of the two routes. By
then the transaction of that request has committed an audit entry of the reveal, of this account, for
this report, with a reason of 10 to 500 characters, and the account passed `_can_access_report` and
`can_reveal_identity` on the report as the request had read it. A reveal that came to nothing has
disclosed nothing and changed no assignment. -/
theorem identities_are_disclosed_on_record {events : List (Step ι)} {last : Work ι}
    (hrun : run semantics (handler multiTenancyEnabled fernet) start events = some last) :
    (∀ w request, Event.start w request ∈ events → ∀ answer, last.answer w = some answer →
      answer.Discloses → ∃ user report, request.reveals = some (user, report) ∧
        (∃ token via reason,
          (w, ⟨user.id, .identityRevealed token via, report⟩) ∈ last.shared.audit ∧
          fernet.decrypt token = some reason ∧ 10 ≤ reason.length ∧ reason.length ≤ 500) ∧
        ∃ read, last.shared.read w = some (report, read) ∧
          canAccessReport multiTenancyEnabled user read.toPlacement = true ∧
          canRevealIdentity multiTenancyEnabled user read.toPlacement = true) ∧
    ∀ w request, Event.start w request ∈ events → request.reveals.isSome = true →
      Fruitless w last → (∀ answer, last.answer w = some answer → ¬answer.Discloses) ∧
        ∀ report, (w, report) ∉ last.shared.reassigned := by
  have hpermits : Meets semantics (handler multiTenancyEnabled fernet) (vault ι False).Permits start
      events := by
    refine meets_of_forall (fun event _ s ↦ ?_) start
    cases event with
    | start w request => exact False.elim
    | run w draw => exact fun _ _ ↦ ⟨False.elim, trivial⟩
    | fail w exception => trivial
    | lose w draw exception => exact fun _ _ ↦ False.elim
    | environment change => trivial
  have hsound := (Contract.run_safe vault_handles vault_start hpermits hrun).invariant.1
  have hdiscloses : ∀ w request, Event.start w request ∈ events → ∀ answer,
      last.answer w = some answer → answer.Discloses → ∃ user report,
        request.reveals = some (user, report) ∧
          Recorded multiTenancyEnabled fernet w user report last.shared := by
    intro w request hstart answer hanswer hshown
    obtain ⟨program, hworker, hsafe⟩ := promised_of_run hpermits hrun False.elim hstart
    rw [System.answer_eq_some, hworker, Option.some.injEq] at hanswer
    subst hanswer
    exact hsafe.1 answer rfl hshown
  refine ⟨fun w request hstart answer hanswer hshown ↦ ?_, fun w request hstart hreveals hfruitless ↦
    ⟨fun answer hanswer hshown ↦ ?_, fun report hmem ↦ ?_⟩⟩
  · obtain ⟨user, report, hreveals, ⟨entry, hmem, token, via, reason, rfl, hreason⟩, hentitled⟩ :=
      hdiscloses w request hstart answer hanswer hshown
    exact ⟨user, report, hreveals, ⟨token, via, reason, hmem, hreason⟩, hentitled⟩
  · obtain ⟨user, report, -, hrecorded⟩ := hdiscloses w request hstart answer hanswer hshown
    exact hfruitless.not_recorded hsound hrecorded
  · obtain ⟨⟨user, place⟩, hsome⟩ := Option.isSome_iff_exists.mp hreveals
    have haccounted : w ∈ last.shared.commits →
        Accounted multiTenancyEnabled fernet w user place last.shared := by
      intro hcommitted
      rcases id hfruitless with hopen | ⟨⟨program, hworker, hended⟩, -⟩
      · exact absurd hcommitted hopen
      obtain ⟨left, hleft, hsafe⟩ := promised_of_run hpermits hrun False.elim hstart
      rw [hworker, Option.some.injEq] at hleft
      subst hleft
      cases program with
      | ret value => exact hsafe.2 user place hsome
      | raise exception => exact hsafe.2 user place hsome
      | perform operation next => cases hended
    by_cases hcommitted : w ∈ last.shared.commits
    · rcases haccounted hcommitted with hnone | hrecorded
      · exact hnone report hmem
      · exact hfruitless.not_recorded hsound hrecorded
    · exact (hsound.untouched w hcommitted).reassigned report hmem

/-! ### A run with reveals that succeed and reveals that do not -/

/-- An account of organisation 7. -/
def colleague (id : UserId) (username : String) (role : AdminRole) : AdminUser where
  id := id
  username := username
  totpSecret := ""
  role := role
  orgId := some 7

def anna : AdminUser := colleague 1 "anna" .admin

def bert : AdminUser := colleague 2 "bert" .admin

/-- Anna's first reason is too short. With the second she takes the case and sees the identity; Bert
may open the case, but no longer reveal it. -/
def revealedOnce : List (Step ℕ) :=
  [.environment (.account 1 anna),
    .environment (.submit 0 "OW-2026-00001" (some 7) (some ⟨0, 3, "Clara"⟩) none),
    .start 1 (.revealIdentity anna 0 "  because  "), .run 1 0, .run 1 0, .run 1 0, .run 1 0,
    .start 2 (.exportPdfWithIdentity anna 0 "  the hearing is on Monday  "), .run 2 0, .run 2 0,
    .run 2 0, .run 2 5, .run 2 0, .run 2 0, .run 2 0,
    .start 3 (.revealIdentity bert 0 "the hearing is on Monday"), .run 3 0]

theorem identities_are_disclosed_on_record_once : ∃ last,
    run semantics (handler true Fernet.clear) start revealedOnce = some last ∧
    last.answer 3 = some (.refused 403 "Forbidden") ∧
    (∀ w request, Event.start w request ∈ revealedOnce → ∀ answer, last.answer w = some answer →
      answer.Discloses → ∃ user report, request.reveals = some (user, report) ∧
        (∃ token via reason,
          (w, ⟨user.id, .identityRevealed token via, report⟩) ∈ last.shared.audit ∧
          Fernet.clear.decrypt token = some reason ∧ 10 ≤ reason.length ∧ reason.length ≤ 500) ∧
        ∃ read, last.shared.read w = some (report, read) ∧
          canAccessReport true user read.toPlacement = true ∧
          canRevealIdentity true user read.toPlacement = true) ∧
    (∃ answer, last.answer 2 = some answer ∧ answer.Discloses) ∧
    ∀ report, (3, report) ∉ last.shared.reassigned := by
  have hrun := run_eq_get
    (show (run semantics (handler true Fernet.clear) start revealedOnce).isSome = true by decide +kernel)
  obtain ⟨hrecord, hfruitless⟩ := identities_are_disclosed_on_record hrun
  refine ⟨_, hrun, by decide +kernel, hrecord, ?_, ?_⟩
  · refine ⟨.pdf "OW-2026-00001_export.pdf" [.plain "pdf.case_number", .plain "OW-2026-00001",
      .plain "pdf.assigned_to", .plain "anna", .plain "pdf.confidential_name", .decrypted "Clara"], by decide +kernel, "Clara", ?_⟩
    decide +kernel
  · refine (hfruitless 3 (.revealIdentity bert 0 "the hearing is on Monday") ?_ rfl ?_).2
    · simp [revealedOnce]
    · exact .inl (by decide +kernel)

end OpenWhistle.Identity
