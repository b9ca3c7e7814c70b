import OpenWhistle.Submission.OneDraft
import OpenWhistle.Submission.Walk

/-!
# After a submit has finished its claim

Once a submit has committed its report and run its finishing script, the draft is spent. Which later
scripts can make a draft key again? The claim and the finishing script never do. The give-back and
the recovery do exactly when their guards let them through and there is no draft: a give-back that
finds no other claim's pending marker, and a recovery that found no report while the claimed key
still holds the draft it read. Neither guard knows that the draft was spent meanwhile, and a worker
that was held up between its lookup and its script reaches them. A worker that starts later does not:
it finds no draft to claim, and no claimed one to recover. So the draft is spent for good once nobody
is under way.
-/

set_option autoImplicit false
set_option relaxedAutoImplicit false

namespace OpenWhistle.Submission

open Interleaving

/-- The scripts on the keys of a claim. -/
def Op.isScript : Op → Bool
  | .claimDraft => true
  | .recoverDraft _ _ => true
  | .giveBackDraft _ _ => true
  | .finishClaim _ _ => true
  | _ => false

/-- The guards of the script let it through to write a draft where there is none. -/
def Op.Opens (keys : Keys) : Op → Prop
  | .recoverDraft token result => keys.RecoverOpen token result
  | .giveBackDraft _ nonce => keys.GiveBackOpen nonce
  | _ => False

instance (keys : Keys) (operation : Op) : Decidable (operation.Opens keys) := by
  unfold Op.Opens
  split <;> infer_instance

theorem Op.Opens.isScript {keys : Keys} {operation : Op} (h : operation.Opens keys) :
    operation.isScript = true ∧ keys.draft = none := by
  cases operation with
  | recoverDraft token result => exact ⟨rfl, h.1⟩
  | giveBackDraft token nonce => exact ⟨rfl, h.1⟩
  | _ => exact h.elim

/-- A script writes a draft where there is none exactly when its guards are open. -/
theorem perform_draft_iff {w : ℕ} {operation : Op} {draw : Draw} {s t : Session}
    {reply : Except Exn (Reply operation)} (hscript : operation.isScript = true)
    (hdraft : s.keys.draft = none) (h : perform w operation draw s = some (reply, t)) :
    t.keys.draft ≠ none ↔ operation.Opens s.keys := by
  cases operation with
  | claimDraft =>
    cases h
    exact iff_of_false (fun hne ↦ hne (Keys.claimDraftScript_draft s.keys draw.nonce hdraft)) not_false
  | finishClaim nonce result =>
    cases h
    exact iff_of_false (fun hne ↦ hne (Keys.finishClaimScript_draft s.keys nonce result hdraft))
      not_false
  | recoverDraft token result =>
    cases h
    exact Keys.recoverDraftScript_draft_isSome s.keys token result hdraft
  | giveBackDraft token nonce =>
    cases h
    exact Keys.giveBackDraftScript_draft_isSome s.keys token nonce hdraft
  | _ => cases hscript

/-- Scripts never wait. -/
theorem isSome_perform_of_isScript {w : ℕ} {operation : Op} {draw : Draw} {s : Session}
    (h : operation.isScript = true) : (perform w operation draw s).isSome = true := by
  cases operation with
  | claimDraft => rfl
  | finishClaim nonce result => rfl
  | recoverDraft token result => rfl
  | giveBackDraft token nonce => rfl
  | _ => cases h

/-- A script that runs after the finish does not make the draft key exist again. -/
def StaysSpent (s : Requests) (event : Step) : Prop :=
  ∀ operation ∈ s.effective event, operation.isScript = true → s.shared.finished = true →
    s.shared.keys.draft = none → ∀ t ∈ step semantics handler s event, t.shared.keys.draft = none

/-- After the finish, no script runs whose guards are open. -/
def GuardsClosed (s : Requests) (event : Step) : Prop :=
  ∀ operation ∈ s.effective event, s.shared.finished = true → ¬operation.Opens s.shared.keys

theorem staysSpent_iff_guardsClosed (s : Requests) (event : Step) :
    StaysSpent s event ↔ GuardsClosed s event := by
  constructor
  · intro h operation heffective hfinished hopens
    obtain ⟨hscript, hdraft⟩ := hopens.isScript
    have hsteps : ∃ t, step semantics handler s event = some t :=
      exists_step_of_effective heffective fun w draw ↦ isSome_perform_of_isScript hscript
    obtain ⟨t, hstep⟩ := hsteps
    obtain ⟨w, draw, reply, hperform⟩ := perform_of_effective heffective hstep
    exact (perform_draft_iff hscript hdraft hperform).mpr hopens
      (h operation heffective hscript hfinished hdraft t hstep)
  · intro h operation heffective hscript hfinished hdraft t hstep
    obtain ⟨w, draw, reply, hperform⟩ := perform_of_effective heffective hstep
    by_contra hne
    exact h operation heffective hfinished ((perform_draft_iff hscript hdraft hperform).mp hne)

/-- In every run from a first save, the scripts leave a spent draft spent exactly when none of them
runs with open guards after the finish. -/
theorem spent_draft_stays_spent_iff (first : FirstSave) (events : List Step) :
    Meets semantics handler StaysSpent first.system events ↔
      Meets semantics handler GuardsClosed first.system events :=
  meets_congr staysSpent_iff_guardsClosed

/-- A submit fails before its insert, asks for its report and finds none; before it gives the draft
back, its claim expires and a second submit recovers, commits and finishes the draft. -/
def heldUpGiveBack : List Step :=
  .start 1 (.post finalPost) :: continues 1 5 ++ [.fail 1 .error] ++ continues 1 2 ++
    [.environment (.expire .pending)] ++ recoverUntilCommit 2 ⟨2⟩ ++ landAndFinish 2

/-- The give-back that was held up makes the draft of a committed report exist again. -/
theorem held_up_give_back_revives_the_draft : ∃ spent revived,
    run semantics handler reviewed.system heldUpGiveBack = some spent ∧
    spent.shared.reports.rows.map Report.id = [reviewed.reportId] ∧
    spent.shared.finished = true ∧ spent.shared.keys.draft = none ∧
    spent.next 1 = some (.giveBackDraft ⟨0, { step := some stepReview, reportId := some 7 }⟩ 0) ∧
    step semantics handler spent (.run 1 {}) = some revived ∧
    revived.shared.keys.draft ≠ none := by
  have hrun := reviewed_run heldUpGiveBack (by decide)
  exact ⟨_, _, hrun, by decide, rfl, rfl, rfl, rfl, by decide⟩

/-! ### A whole run without a save -/

/-- No save takes effect. -/
def SavesNothing (s : Requests) (event : Step) : Prop :=
  ∀ operation ∈ s.effective event, ∀ state, operation ≠ .setDraft state

/-- An operation other than a save and than a script with open guards writes no draft. -/
theorem perform_draft_eq_none {w : ℕ} {operation : Op} {draw : Draw} {s t : Session}
    {reply : Except Exn (Reply operation)} (hclosed : ¬operation.Opens s.keys)
    (hsave : ∀ state, operation ≠ .setDraft state) (hdraft : s.keys.draft = none)
    (h : perform w operation draw s = some (reply, t)) : t.keys.draft = none := by
  by_cases hscript : operation.isScript = true
  · by_contra hne
    exact hclosed ((perform_draft_iff hscript hdraft h).mp hne)
  cases operation with
  | claimDraft => exact absurd rfl hscript
  | finishClaim nonce result => exact absurd rfl hscript
  | recoverDraft token result => exact absurd rfl hscript
  | giveBackDraft token nonce => exact absurd rfl hscript
  | setDraft state => exact absurd rfl (hsave state)
  | assignReportId token =>
    cases h
    exact Keys.assignReportIdScript_draft s.keys token draw.uuid hdraft
  | deleteDraft =>
    cases h
    rfl
  | insertReport row =>
    rcases insertReport_cases h with ⟨-, rfl⟩ | ⟨-, -, -, rfl⟩
    · exact hdraft
    · exact hdraft
  | sendCommit =>
    rcases sendCommit_cases h with rfl | ⟨-, rfl⟩
    · exact hdraft
    · exact hdraft
  | awaitCommit =>
    obtain ⟨rfl, -⟩ := awaitCommit_cases h
    exact hdraft
  | _ =>
    cases h
    exact hdraft

theorem perform_finished {w : ℕ} {operation : Op} {draw : Draw} {s t : Session}
    {reply : Except Exn (Reply operation)} (hfinished : s.finished = true)
    (h : perform w operation draw s = some (reply, t)) : t.finished = true := by
  cases operation with
  | finishClaim nonce result =>
    cases h
    simp [hfinished]
  | insertReport row =>
    rcases insertReport_cases h with ⟨-, rfl⟩ | ⟨-, -, -, rfl⟩
    · exact hfinished
    · exact hfinished
  | sendCommit =>
    rcases sendCommit_cases h with rfl | ⟨-, rfl⟩
    · exact hfinished
    · exact hfinished
  | awaitCommit =>
    obtain ⟨rfl, -⟩ := awaitCommit_cases h
    exact hfinished
  | _ =>
    cases h
    exact hfinished

/-- The environment writes no draft, and does not undo the finish. -/
theorem environment_spent {change : Change} {s t : Session} (hfinished : s.finished = true)
    (hdraft : s.keys.draft = none) (h : environment change s = some t) :
    t.finished = true ∧ t.keys.draft = none := by
  cases change with
  | expire key =>
    cases h
    refine ⟨hfinished, ?_⟩
    cases key with
    | draft => rfl
    | _ => exact hdraft
  | land w =>
    obtain ⟨row, hfresh, -, rfl⟩ := land_cases h
    exact ⟨hfinished, hdraft⟩
  | abort w =>
    obtain ⟨-, rfl⟩ := abort_cases h
    exact ⟨hfinished, hdraft⟩
  | otherReport row =>
    obtain ⟨-, hfresh, rfl⟩ := otherReport_cases h
    exact ⟨hfinished, hdraft⟩

/-- A submit that committed has finished its claim, and there is no draft. -/
def Spent (s : Requests) : Prop :=
  s.shared.finished = true ∧ s.shared.keys.draft = none

theorem step_spent {s t : Requests} {event : Step} (h : Spent s)
    (hcondition : GuardsClosed s event ∧ SavesNothing s event)
    (hstep : step semantics handler s event = some t) : Spent t := by
  obtain ⟨hfinished, hdraft⟩ := h
  rcases shared_cases hstep with ⟨operation, w, draw, reply, heffective, hperform⟩ |
    ⟨change, hchange⟩ | hsame
  · have hclosed := hcondition.1 operation heffective hfinished
    exact ⟨perform_finished hfinished hperform,
      perform_draft_eq_none hclosed (hcondition.2 operation heffective) hdraft hperform⟩
  · exact environment_spent hfinished hdraft hchange
  · unfold Spent
    rw [hsame]
    exact ⟨hfinished, hdraft⟩

/-- From a state with a spent draft on, every run without a save and without a script with open
guards ends without a draft. -/
theorem run_spent {events : List Step} {spent last : Requests} (h : Spent spent)
    (hcondition : Meets semantics handler (fun s event ↦ GuardsClosed s event ∧ SavesNothing s event)
      spent events)
    (hrun : run semantics handler spent events = some last) : Spent last :=
  run_invariant (fun _ _ _ hs hmeets hstep ↦ step_spent hs hmeets hstep) h hcondition hrun

/-! ### Once nobody is under way -/

/-- The draft is spent, and no claim is left to be recovered. -/
structure Cleared (s : Session) : Prop where
  finished : s.finished = true
  draft : s.keys.draft = none
  claimed : s.keys.claimed = none

/-- The draft stays spent, whatever else happens. -/
def clearing : Contract semantics Request Page where
  invariant := Cleared
  rely _ _ _ := True
  rely_refl _ _ := trivial
  rely_trans _ _ _ _ _ _ := trivial
  idle _ _ := True
  idle_stable _ _ _ _ _ _ := trivial
  ends _ _ _ := True
  ends_stable _ _ _ _ _ _ _ := trivial
  admits _ := True
  allows _ _ _ := True
  trusts _ _ _ := True
  tolerates _ _ := True
  environment_safe change s t h _ hchange := by
    obtain ⟨hfinished, hdraft⟩ := environment_spent h.finished h.draft hchange
    refine ⟨⟨hfinished, hdraft, ?_⟩, fun _ ↦ trivial⟩
    cases change with
    | expire key =>
      cases hchange
      cases key with
      | claimed => rfl
      | _ => exact h.claimed
    | land w =>
      obtain ⟨row, hfresh, -, rfl⟩ := land_cases hchange
      exact h.claimed
    | abort w =>
      obtain ⟨-, rfl⟩ := abort_cases hchange
      exact h.claimed
    | otherReport row =>
      obtain ⟨-, hfresh, rfl⟩ := otherReport_cases hchange
      exact h.claimed

section Clearing

variable {w : ℕ} {s : Session}

theorem clears {operation : Op} {promise : Reply operation → Session → Prop}
    (h : ∀ t draw reply u, Cleared t → perform w operation draw t = some (reply, u) →
      Cleared u ∧ ∀ value, reply = .ok value → promise value u) :
    Safe clearing w (Returns promise) (call operation) s :=
  Safe.call_returns fun t _ hcleared _ draw reply u hperform ↦
    ⟨(h t draw reply u hcleared hperform).1, fun _ _ ↦ trivial,
      (h t draw reply u hcleared hperform).2⟩

/-- An operation that writes none of the two keys. -/
theorem clears_kept {operation : Op}
    (h : ∀ t draw reply u, perform w operation draw t = some (reply, u) →
      u.finished = t.finished ∧ (u.keys.draft = t.keys.draft ∨ u.keys.draft = none) ∧
        u.keys.claimed = t.keys.claimed) :
    Safe clearing w Done (call operation) s := by
  refine clears fun t draw reply u hcleared hperform ↦ ⟨?_, fun _ _ ↦ trivial⟩
  obtain ⟨hfinished, hdraft, hclaimed⟩ := h t draw reply u hperform
  refine ⟨hfinished.trans hcleared.finished, ?_, hclaimed.trans hcleared.claimed⟩
  exact hdraft.elim (fun heq ↦ heq.trans hcleared.draft) id

theorem clears_getDraft : Safe clearing w (Returns fun found _ ↦ ∀ token, found = some token → False)
    (call .getDraft) s := by
  refine clears fun t draw reply u hcleared hperform ↦ ?_
  cases hperform
  refine ⟨hcleared, fun found hfound token htoken ↦ ?_⟩
  cases hfound
  rw [hcleared.draft] at htoken
  cases htoken

theorem clears_getClaimed :
    Safe clearing w (Returns fun found _ ↦ ∀ token, found = some token → False)
      (call .getClaimed) s := by
  refine clears fun t draw reply u hcleared hperform ↦ ?_
  cases hperform
  refine ⟨hcleared, fun found hfound token htoken ↦ ?_⟩
  cases hfound
  rw [hcleared.claimed] at htoken
  cases htoken

theorem clears_sendCommit : Safe clearing w Done (call .sendCommit) s := by
  refine clears_kept fun t draw reply u hperform ↦ ?_
  rcases sendCommit_cases hperform with rfl | ⟨-, rfl⟩
  · exact ⟨rfl, .inl rfl, rfl⟩
  · exact ⟨rfl, .inl rfl, rfl⟩

theorem clears_awaitCommit : Safe clearing w Done (call .awaitCommit) s := by
  refine clears_kept fun t draw reply u hperform ↦ ?_
  obtain ⟨rfl, -⟩ := awaitCommit_cases hperform
  exact ⟨rfl, .inl rfl, rfl⟩

/-- No request that finds the keys cleared comes by a draft. -/
def clearingWalk (w : ℕ) : Walk clearing w where
  Grows _ _ := True
  refl _ := trivial
  trans _ _ _ _ _ := trivial
  rely _ _ _ := trivial
  own _ _ _ _ _ _ := trivial
  Held _ _ := False
  Found _ _ := False
  Loaded _ _ _ := False
  Savable _ _ := False
  Claimed _ _ _ := False
  held _ _ _ _ h := h
  loadedLater _ _ _ _ _ h := h
  claimedLater _ _ _ _ _ h := h
  found _ _ h _ _ := h
  load _ _ _ h _ := h
  shows _ _ _ _ h := h
  removes _ _ _ _ h _ := h
  savable _ _ _ h := h
  failed _ _ _ h _ := h
  getDraft _ := clears_getDraft
  getClaimed _ := clears_getClaimed
  getResult _ := clears_kept fun _ _ _ _ hperform ↦ by cases hperform; exact ⟨rfl, .inl rfl, rfl⟩
  getdelResult _ := clears_kept fun _ _ _ _ hperform ↦ by cases hperform; exact ⟨rfl, .inl rfl, rfl⟩
  asks _ _ := clears_kept fun _ _ _ _ hperform ↦ by cases hperform; exact ⟨rfl, .inl rfl, rfl⟩
  assign _ _ h _ _ := h.elim
  save _ _ h := h.elim
  deleteDraft _ := clears_kept fun _ _ _ _ hperform ↦ by cases hperform; exact ⟨rfl, .inr rfl, rfl⟩
  claim _ _ _ h := h.elim
  recover _ _ _ h := h.elim
  giveBack _ _ _ _ h := h.elim
  finish _ _ _ _ _ h _ := h.elim
  external _ _ := clears_kept fun _ _ _ _ hperform ↦ by cases hperform; exact ⟨rfl, .inl rfl, rfl⟩
  defaultOrgId _ := clears_kept fun _ _ _ _ hperform ↦ by cases hperform; exact ⟨rfl, .inl rfl, rfl⟩
  generatePin _ := clears_kept fun _ _ _ _ hperform ↦ by cases hperform; exact ⟨rfl, .inl rfl, rfl⟩
  generateCaseNumber _ :=
    clears_kept fun _ _ _ _ hperform ↦ by cases hperform; exact ⟨rfl, .inl rfl, rfl⟩
  sendCommit _ := clears_sendCommit
  awaitCommit _ := clears_awaitCommit
  lookUp _ _ _ := clears_kept fun _ _ _ _ hperform ↦ by cases hperform; exact ⟨rfl, .inl rfl, rfl⟩

theorem clearing_handles : clearing.Handles handler := by
  intro w request s _ _ _
  have hsafe : Safe clearing w Done (handler request) s := by
    refine (clearingWalk w).handler fun post _ ↦ ⟨?_, ?_, ?_⟩
    · exact fun _ _ _ h _ ↦ h
    · exact fun _ _ _ _ h _ _ ↦ h
    · exact fun _ _ _ h _ _ ↦ h.elim
  exact Safe.imp (fun _ _ _ ↦ trivial) hsafe

end Clearing

/-- A draft that is spent while no request is under way and no claim is left stays spent: in every run
from there, whichever requests come and however they interleave or fail, the guards stay closed, and
no draft is there again. -/
theorem spent_for_good {spent last : Requests} {events : List Step} (h : Spent spent)
    (hclaimed : spent.shared.keys.claimed = none)
    (hended : ∀ w program, spent.worker w = some program → program.Ended)
    (hrun : run semantics handler spent events = some last) :
    Meets semantics handler GuardsClosed spent events ∧ Spent last := by
  have hholds : clearing.Holds spent := by
    refine ⟨⟨h.1, h.2, hclaimed⟩, fun _ _ ↦ trivial, fun w program hworker ↦ ?_⟩
    cases program with
    | ret page => exact Safe.ret trivial
    | raise exception => exact Safe.raise trivial
    | perform operation next => cases hended w _ hworker
  have hpermits : Meets semantics handler clearing.Permits spent events :=
    Contract.meets_permits (fun _ _ _ ↦ trivial) (fun _ _ ↦ trivial) (fun _ _ _ ↦ trivial)
      (meets_of_forall (fun _ _ _ _ _ _ ↦ trivial) spent)
  have hcondition : Meets semantics handler
      (fun s event ↦ GuardsClosed s event ∧ SavesNothing s event) spent events := by
    refine Contract.run_meets clearing_handles (fun s event next _ _ hstep hnext _ ↦ ?_)
      hholds hpermits hrun
    refine ⟨(staysSpent_iff_guardsClosed s event).mp fun _ _ _ _ _ t ht ↦ ?_,
      fun operation heffective state hsave ↦ ?_⟩
    · cases hstep.symm.trans ht
      exact hnext.invariant.draft
    · obtain ⟨w, draw, reply, hperform⟩ := perform_of_effective heffective hstep
      subst hsave
      obtain ⟨-, hshared⟩ := Prod.mk.inj (Option.some.inj hperform)
      have hdraft := hnext.invariant.draft
      rw [← hshared] at hdraft
      cases hdraft
  exact ⟨meets_imp (fun _ _ hmeets ↦ hmeets.1) hcondition, run_spent h hcondition hrun⟩

end OpenWhistle.Submission
