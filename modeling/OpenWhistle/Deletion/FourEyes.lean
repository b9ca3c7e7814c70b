import OpenWhistle.Deletion.Steps
import OpenWhistle.Foundation.Contract

/-!
# Four eyes

A confirmation checks the request it has locked, and the lock is held until the deletion is
committed. So the request that stands at the commit is the request that was checked, a withdrawal
that comes first is noticed, and one that comes later finds nothing to withdraw. The requester is the
account that the request was inserted for, and the walk along `created_by_id` tells it apart from
the confirmer.
-/

set_option autoImplicit false
set_option relaxedAutoImplicit false
set_option linter.unusedSectionVars false

namespace OpenWhistle.Deletion

open Interleaving ReadCommitted Descent

variable {ι α : Type} [DecidableEq ι] [DecidableEq α]

def fourEyes (ι : Type) [DecidableEq ι] (family : Family α) :
    Contract (semantics (ι := ι) (α := α)) (Request ι α) Answer where
  invariant := RegistrySound family
  rely := RegistryKept
  rely_refl := RegistryKept.refl
  rely_trans _ _ _ _ := RegistryKept.trans
  idle := Fresh
  idle_stable _ _ _ h hkept _ := h.kept hkept
  ends _ _ _ := True
  ends_stable _ _ _ _ _ _ _ := trivial
  admits _ := True
  allows _ _ _ := True
  trusts _ _ _ := True
  tolerates _ _ := True
  environment_safe := fun _ _ _ h _ hchange ↦
    ⟨registrySound_environment h hchange, fun _ ↦ registryKept_environment h hchange⟩

variable {family : Family α} {w : ℕ} {s : Registry ι α}

/-! ### The operations -/

theorem registry_call {operation : Op ι α} {promise : Reply operation → Registry ι α → Prop}
    (h : ∀ t, RegistryKept w s t → RegistrySound family t → ∀ draw reply u,
      perform w operation draw t = some (reply, u) →
        RegistrySound family u ∧ ∀ value, reply = .ok value → promise value u) :
    Safe (fourEyes ι family) w (Returns promise) (call operation) s := by
  refine Safe.call fun t hkept hinv ↦ ⟨fun _ ↦ trivial, fun _ draw reply u hperform ↦ ?_⟩
  obtain ⟨hsound, hpromise⟩ := h t hkept hinv draw reply u hperform
  refine ⟨hsound, fun v hv ↦ registryKept_perform hv hperform, fun _ ↦ ?_, fun _ ↦ trivial⟩
  cases reply with
  | ok value => exact hpromise value rfl
  | error exception => trivial

theorem registry_getReport (report : ι) (h : Fresh w s) : Safe (fourEyes ι family) w
    (Returns fun _ t ↦ Fresh w t) (call (.getReport report)) s := by
  refine registry_call fun t hkept hsound draw reply u hperform ↦ ?_
  cases hperform
  exact ⟨hsound, fun _ _ ↦ h.kept hkept⟩

theorem registry_insertRequest (report : ι) (requester : α) (h : Fresh w s) :
    Safe (fourEyes ι family) w (Returns fun _ t ↦ Unaborted w (Ready family w) t)
      (call (.insertRequest report requester)) s := by
  refine registry_call fun t hkept hsound draw reply u hperform ↦
    ⟨registrySound_insertRequest hsound hperform, fun _ _ ↦ .inr ?_⟩
  have hfresh := h.kept hkept
  rcases insertRequest_cases hperform with rfl | ⟨-, -, -, rfl⟩
  · exact .nothing hfresh.removing hfresh.free.1
  · exact .nothing hfresh.removing hfresh.free.1

/-- A withdrawal deletes the request of that id, or finds it gone. -/
theorem registry_deleteRequest (report : ι) (request : ℕ) (h : Fresh w s) :
    Safe (fourEyes ι family) w (Returns fun _ t ↦ Unaborted w (Ready family w) t)
      (call (.deleteRequest report request)) s := by
  refine registry_call fun t hkept hsound draw reply u hperform ↦ ?_
  have hfresh := h.kept hkept
  rcases deleteRequest_cases hperform with rfl | ⟨found, hrow, rfl, hrest⟩
  · exact ⟨hsound, fun _ _ ↦ .inr (.nothing hfresh.removing hfresh.free.1)⟩
  rcases hrest with ⟨hseen, -⟩ | ⟨hrewrites, rfl⟩
  · rw [Table.seenBy_of_not_writtenBy (hfresh.free.2 report), hrow] at hseen
    cases hseen
  · refine ⟨hsound.lockRow hrewrites rfl rfl rfl rfl rfl rfl, fun _ _ ↦ .inr ?_⟩
    exact .withdrawal report found (Function.update_self ..) hfresh.free.1 hrow
      (Table.writtenBy_lockRow_self none)

/-- The request a confirmation checks is the one it holds. -/
theorem registry_lockRequest (report : ι) (h : Fresh w s) : Safe (fourEyes ι family) w
    (Returns fun locked t ↦ ∀ request, locked = some request →
      Unaborted w (LockedFor w report request) t ∧
        ∃ requester, request.requestedById = some requester)
    (call (.lockRequest report)) s := by
  refine registry_call fun t hkept hsound draw reply u hperform ↦ ?_
  have hfresh := h.kept hkept
  rcases lockRequest_cases hperform with ⟨rfl, hnone⟩ | ⟨found, hrewrites, hseen, hreply, rfl⟩
  · refine ⟨hsound, fun locked hlocked request hrequest ↦ ?_⟩
    rw [hlocked, hrequest] at hnone
    exact absurd rfl (hnone request)
  · refine ⟨hsound.lockRow hrewrites rfl rfl rfl rfl rfl rfl, fun locked hlocked request hrequest ↦ ?_⟩
    rw [hlocked, hrequest] at hreply
    cases hreply
    refine ⟨.inr ⟨?_, ⟨found, Table.writtenBy_lockRow_self _⟩, hfresh.free.1, hfresh.removing⟩,
      (hsound.present report found (present_of_seenBy hseen)).requested⟩
    rw [← hseen, Table.seenBy_of_not_writtenBy (hfresh.free.2 report)]
    rfl

theorem registry_confirmRequest {report : ι} {request : DeletionRequest α} (confirmer : α)
    (h : Unaborted w (LockedFor w report request) s) : Safe (fourEyes ι family) w
    (Returns fun _ t ↦ Unaborted w (LockedFor w report request) t)
    (call (.confirmRequest ⟨report, request, confirmer⟩)) s := by
  refine registry_call fun t hkept hsound draw reply u hperform ↦ ?_
  have hlocked := LockedFor.kept h hkept
  rcases confirmRequest_cases hperform with rfl | ⟨new, hrewrites, rfl⟩
  · exact ⟨hsound, fun _ _ ↦ hlocked⟩
  · refine ⟨hsound.lockRow hrewrites rfl rfl rfl rfl rfl rfl, fun _ _ ↦ ?_⟩
    rcases hlocked with hended | hlocked
    · exact .inl hended
    · exact .inr ⟨hlocked.row, ⟨new, Table.writtenBy_lockRow_self _⟩, hlocked.reports,
        hlocked.removing⟩

/-- The report is deleted by the transaction that holds the request, after the check. -/
theorem registry_deleteReport {confirmation : Confirmation ι α} (heyes : TwoPairs family confirmation)
    (h : Unaborted w (LockedFor w confirmation.report confirmation.request) s) :
    Safe (fourEyes ι family) w (Returns fun _ t ↦ Unaborted w (Ready family w) t)
      (call (.deleteReport confirmation)) s := by
  refine registry_call fun t hkept hsound draw reply u hperform ↦ ?_
  rcases LockedFor.kept h hkept with hended | hlocked
  · have hsame : t.deleteReport w confirmation = some (.error .raised, t) := by
      simp [Registry.deleteReport, hended]
    cases hsame.symm.trans hperform
    exact ⟨hsound, nofun⟩
  refine ⟨registrySound_deleteReport hsound hlocked hperform, fun _ _ ↦ .inr ?_⟩
  rcases deleteReport_cases hperform with rfl | ⟨-, -, ⟨hnone, -⟩ | ⟨hrewrites, rfl⟩⟩
  · exact .nothing hlocked.removing hlocked.reports
  · obtain ⟨new, hnew⟩ := hlocked.written
    rw [Table.seenBy_of_writtenBy hnew] at hnone
    cases hnone
  · refine .deletion confirmation (Function.update_self ..) (Table.writtenBy_lockRow_self none)
      (fun other hne ↦ ?_) hlocked.row (Table.writtenBy_lockRow_self none) heyes
    rw [← hlocked.reports other]
    simp [Table.writtenBy, Table.lock_lockRow_of_ne hne]

theorem registry_commit (entries : List (AuditEntry ι α)) (h : Unaborted w (Ready family w) s) :
    Safe (fourEyes ι family) w (Returns fun _ _ ↦ True) (call (.commit entries)) s := by
  refine registry_call fun t hkept hsound draw reply u hperform ↦ ⟨?_, fun _ _ ↦ trivial⟩
  rcases commit_cases hperform with rfl | ⟨hopen, rfl⟩
  · exact hsound
  · rcases Ready.kept h hkept with hended | hready
    · rw [hopen] at hended
      cases hended
    · exact registrySound_committed hsound hready entries

/-! ### The handlers -/

theorem registry_withAuthorizedReport (report : ι) (mayAccess : Bool) (h : Fresh w s)
    {route : Loaded α → Handler ι α Answer}
    (hroute : ∀ read t, Fresh w t →
      Safe (fourEyes ι family) w (Returns fun _ _ ↦ True) (route read) t) :
    Safe (fourEyes ι family) w (Returns fun _ _ ↦ True)
      (withAuthorizedReport report mayAccess route) s := by
  refine Safe.andThen (registry_getReport report h) fun found t ht ↦ ?_
  cases found.filter fun _ ↦ mayAccess with
  | none => exact Safe.ret trivial
  | some read => exact hroute read t ht

theorem twoPairs_of_check {report : ι} {request : DeletionRequest α} {user : α}
    (hrequested : ∃ requester, request.requestedById = some requester)
    (hcheck : ¬(request.requestedById = some user ∨
      family.oneMadeTheOther request.requestedById user = true)) :
    TwoPairs family ⟨report, request, user⟩ := by
  obtain ⟨requester, hrequester⟩ := hrequested
  obtain ⟨hother, happart⟩ := not_or.mp hcheck
  rw [hrequester] at hother happart
  refine ⟨requester, hrequester, fun heq ↦ hother (congrArg some heq), ?_⟩
  exact Family.apart_of_oneMadeTheOther ((Bool.not_eq_true _).mp happart)

theorem registry_confirmDelete (report : ι) (user : α) (isAdmin mayAccess : Bool) (h : Fresh w s) :
    Safe (fourEyes ι family) w (Returns fun _ _ ↦ True)
      (confirmDelete family report user isAdmin mayAccess) s := by
  unfold confirmDelete
  by_cases hadmin : isAdmin = false
  · rw [if_pos hadmin]
    exact Safe.ret trivial
  rw [if_neg hadmin]
  refine registry_withAuthorizedReport report mayAccess h fun read t ht ↦ ?_
  refine Safe.andThen (registry_lockRequest report ht) fun locked u hlocked ↦ ?_
  cases locked with
  | none => exact Safe.ret trivial
  | some request =>
    obtain ⟨hheld, hrequested⟩ := hlocked request rfl
    show Safe _ w _ (if request.requestedById = some user ∨ _ then _ else _) u
    split_ifs with hcheck
    · exact Safe.ret trivial
    · have heyes : TwoPairs family ⟨report, request, user⟩ := twoPairs_of_check hrequested hcheck
      refine Safe.andThen (registry_confirmRequest user hheld) fun _ v hv ↦ ?_
      refine Safe.andThen (registry_deleteReport heyes hv) fun _ x hx ↦ ?_
      exact Safe.andThen (registry_commit _ hx) fun _ _ _ ↦ Safe.ret trivial

/-- Every handler keeps the contract. -/
theorem registry_handles : (fourEyes ι family).Handles (handler family) := by
  intro w request s _ _ hfresh
  refine Safe.imp (fun _ _ _ ↦ trivial) (?_ : Safe _ w (Returns fun _ _ ↦ True) _ s)
  cases request with
  | requestDelete report user isAdmin mayAccess =>
    show Safe _ w _ (if isAdmin = false then _ else _) s
    split_ifs
    · exact Safe.ret trivial
    · refine registry_withAuthorizedReport report mayAccess hfresh fun read t ht ↦ ?_
      show Safe _ w _ (if read.deletionRequest.isSome = true then _ else _) t
      split_ifs
      · exact Safe.ret trivial
      · refine Safe.andThen (registry_insertRequest report user ht) fun _ u hu ↦ ?_
        exact Safe.andThen (registry_commit _ hu) fun _ _ _ ↦ Safe.ret trivial
  | confirmDelete report user isAdmin mayAccess =>
    exact registry_confirmDelete report user isAdmin mayAccess hfresh
  | cancelDelete report user mayAccess =>
    refine registry_withAuthorizedReport report mayAccess hfresh fun read t ht ↦ ?_
    rcases read with ⟨caseNumber, _ | request⟩
    · exact Safe.ret trivial
    · show Safe _ w _ (if request.requestedById ≠ some user then _ else _) t
      split_ifs
      · exact Safe.ret trivial
      · refine Safe.andThen (registry_deleteRequest report request.id ht) fun _ u hu ↦ ?_
        exact Safe.andThen (registry_commit _ hu) fun _ _ _ ↦ Safe.ret trivial

/-! ### Every run -/

/-- In every run, a deletion that was committed met the request it was checked against, which has
never been withdrawn; its requester is another account than the confirmer, and neither is reachable
from the other along `created_by_id`. And every report that is gone was deleted so. -/
theorem deletions_have_four_eyes {events : List (Step ι α)} {last : Work ι α}
    (hrun : run semantics (handler family) start events = some last) :
    (∀ execution ∈ last.shared.executions,
      execution.standing = some execution.confirmation.request ∧
      execution.confirmation.request.id ∉ last.shared.withdrawn ∧
      ∃ requester, execution.confirmation.request.requestedById = some requester ∧
        requester ≠ execution.confirmation.confirmer ∧
        ¬Descends family.madeBy requester execution.confirmation.confirmer ∧
        ¬Descends family.madeBy execution.confirmation.confirmer requester) ∧
    ∀ report ∈ last.shared.known, last.shared.reports.row report = none →
      ∃ execution ∈ last.shared.executions, execution.confirmation.report = report := by
  have hpermits : Meets semantics (handler family) (fourEyes ι family).Permits start events := by
    refine meets_of_forall (fun event _ s ↦ ?_) start
    exact Contract.permits_of_acting (fun _ ↦ trivial) (fun _ _ _ ↦ trivial) (fun _ _ ↦ trivial)
      fun _ _ _ ↦ trivial
  have hempty : RegistrySound family (Registry.empty : Registry ι α) := by
    refine ⟨(fun _ _ _ h ↦ nomatch h), fun report request hrequest ↦ ?_, (fun _ h ↦ nomatch h),
      (fun _ _ h ↦ nomatch h), (fun _ _ ↦ ⟨rfl, rfl⟩), (fun _ h ↦ nomatch h), fun _ h ↦ nomatch h⟩
    rcases hrequest with hrow | ⟨v, hlock⟩
    · cases hrow
    · cases hlock
  have hstart : (fourEyes ι family).Holds (start : Work ι α) :=
    Contract.holds_of_idle hempty (fun _ ↦ ⟨⟨fun _ ↦ rfl, fun _ ↦ rfl⟩, rfl⟩) fun _ ↦ rfl
  have hsound := (Contract.run_safe registry_handles hstart hpermits hrun).invariant
  refine ⟨fun execution hmem ↦ ?_, hsound.gone⟩
  have hexecuted := hsound.executed execution hmem
  obtain ⟨requester, hrequester, hne, happart⟩ := hexecuted.eyes
  exact ⟨hexecuted.standing, hexecuted.notWithdrawn, requester, hrequester, hne, happart⟩

/-- Anna made Bert; Clara was there from the start. -/
def annaMadeBert : Family String where
  accounts := ["anna", "bert", "clara"]
  createdById := fun account ↦ if account = "bert" then some "anna" else none

/-- Bert requests the deletion of report 0 and withdraws it while Clara waits for the lock, Bert
requests it again, Anna's confirmation is refused, and Clara's deletes the report. -/
def withdrawnAndRequestedAgain : List (Step ℕ String) :=
  [.environment (.submit 0 "OW-2026-00001"),
    .start 1 (.requestDelete 0 "bert" true true), .run 1 0, .run 1 100, .run 1 0,
    .start 2 (.confirmDelete 0 "clara" true true), .run 2 0,
    .start 3 (.cancelDelete 0 "bert" true), .run 3 0, .run 3 0, .run 3 0, .run 2 0,
    .start 4 (.requestDelete 0 "bert" true true), .run 4 0, .run 4 200, .run 4 0,
    .start 5 (.confirmDelete 0 "anna" true true), .run 5 0, .run 5 0, .environment (.abort 5),
    .start 6 (.confirmDelete 0 "clara" true true), .run 6 0, .run 6 0, .run 6 0, .run 6 0,
    .run 6 0]

theorem deletions_have_four_eyes_when_requested_again : ∃ last,
    run semantics (handler annaMadeBert) start withdrawnAndRequestedAgain = some last ∧
    last.answer 2 = some (.refused 400 "No pending deletion request.") ∧
    last.shared.executions.map (fun execution ↦
      (execution.confirmation.request.id, execution.confirmation.confirmer)) = [(200, "clara")] ∧
    last.shared.withdrawn = [100] ∧
    (∀ execution ∈ last.shared.executions,
      execution.standing = some execution.confirmation.request ∧
      execution.confirmation.request.id ∉ last.shared.withdrawn ∧
      ∃ requester, execution.confirmation.request.requestedById = some requester ∧
        requester ≠ execution.confirmation.confirmer ∧
        ¬Descends annaMadeBert.madeBy requester execution.confirmation.confirmer ∧
        ¬Descends annaMadeBert.madeBy execution.confirmation.confirmer requester) ∧
    ∀ report ∈ last.shared.known, last.shared.reports.row report = none →
      ∃ execution ∈ last.shared.executions, execution.confirmation.report = report := by
  have hrun := run_eq_get (show (run semantics (handler annaMadeBert) start
    withdrawnAndRequestedAgain).isSome = true by decide +kernel)
  exact ⟨_, hrun, by decide +kernel, by decide +kernel, by decide +kernel,
    deletions_have_four_eyes hrun⟩

end OpenWhistle.Deletion
