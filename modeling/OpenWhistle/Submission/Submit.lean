import OpenWhistle.Submission.Session

/-!
# The handlers of the submission wizard

The routes of the wizard and the functions they share, as programs over the operations of a session.
All requests carry the session's cookie. What the wizard's forms make of a draft, and what
`_draft_error` finds in it, is a parameter of the request: it ranges over every form, every
configuration and every state of the locations and categories. A request that is on another session
from some point on (the cookie's session has no draft) ends there.

A wait of the source is a number of polls, its timeouts are exceptions that any operation may raise.
The final step of `submitPost` is split where `our_case` is set: `beforeCommit` is the body of its
`try` up to there, `submitFailed` its `except` clause.
-/

set_option autoImplicit false
set_option relaxedAutoImplicit false

namespace OpenWhistle.Submission

open Interleaving

abbrev Handler (α : Type) := Program Op Reply Exn α

/-- One operation of a handler. -/
abbrev call (operation : Op) : Handler (Reply operation) := Program.call operation

/-- Whose wizard a request is on. -/
structure Tenant where
  isScoped : Bool
  orgId : Option OrgId

/-- What a step of the wizard other than a final submit saves, or that the step is the final one. -/
inductive Answer
  | save (answers : Draft)
  | review

/-- What every request on the wizard brings. -/
structure Visit where
  tenant : Tenant
  hasLocations : Bool
  polls : ℕ

/-- A POST of the wizard. -/
structure Post extends Visit where
  answer : Draft → Answer
  draftError : Draft → Option (ℕ × ErrorCode)

/-- A request on the session. -/
inductive Request
  | get (visit : Visit)
  | post (post : Post)
  | removeAttachment (tenant : Tenant) (index : Int)
  | restart

/-- What a request is answered with. -/
inductive Page
  | wizard (state : Draft)
  | freshSession
  | redirect
  | success (result : Result)
  | pending (kept : Bool)
  deriving DecidableEq

/-! ### Loading and saving -/

/-- `_load_submission`, with the attempts it has left. -/
def loadSubmissionFor : ℕ → Handler Draft
  | 0 => pure {}
  | attempts + 1 => do
    match ← call .getDraft with
    | none => pure {}
    | some raw =>
      if raw.state.isEmpty ∨ raw.state.reportId.isSome then pure raw.state
      else
        match ← call (.assignReportId raw) with
        | none => loadSubmissionFor attempts
        | some reportId => pure { raw.state with reportId := some reportId }

def loadSubmission : Handler Draft := loadSubmissionFor 3

def saveSubmission (state : Draft) : Handler Unit := call (.setDraft state)

/-- `_load_draft`: another organisation's draft counts as none. -/
def loadDraft (tenant : Tenant) : Handler Draft := do
  let state ← loadSubmission
  if tenant.isScoped ∧ state.orgId.isSome ∧ state.orgId ≠ tenant.orgId then pure {} else pure state

/-! ### Claiming and giving back -/

def submitInFlight : Handler Bool := call (.exists [.pending, .result, .claimed])

def claimDraft : Handler (Option (Token × Nonce)) := call .claimDraft

def giveBackDraft (token : Token) (nonce : Nonce) : Handler Bool :=
  call (.giveBackDraft token nonce)

def finishClaim (nonce : Nonce) (result : Option Result) : Handler Unit :=
  call (.finishClaim nonce result)

def committedCaseNumber (reportId : ReportId) (ours : Option Report) : Handler (Option CaseNumber) :=
  call (.committedCaseNumber reportId ours)

/-- The case number of a draft's report, for a draft that carries an id. -/
def caseNumberOf : Option ReportId → Handler (Option CaseNumber)
  | none => pure none
  | some reportId => committedCaseNumber reportId none

def recoverDraft : Handler Unit := do
  if ← call (.exists [.draft, .pending]) then pure ()
  else
    match ← call .getClaimed with
    | none => pure ()
    | some token =>
      let caseNumber ← caseNumberOf token.state.reportId
      let _ ← call (.recoverDraft token (caseNumber.map received))

/-! ### Waiting for another submit -/

/-- `_stored_result_page`. -/
def storedResultPage (caseNumber : CaseNumber) : Handler Page := do
  match ← call .getResult with
  | some result =>
    if result.caseNumber = caseNumber then pure (.success result)
    else pure (.success (received caseNumber))
  | none => pure (.success (received caseNumber))

/-- The loop of `_submit_outcome`, and the recovery it ends with when no result was found. -/
def awaitResult : ℕ → Handler (Option Result)
  | 0 => do
    let _ ← call (.exists [.pending])
    recoverDraft
    call .getdelResult
  | polls + 1 => do
    if ← call (.exists [.pending]) then
      match ← call .getdelResult with
      | some result => pure (some result)
      | none => awaitResult polls
    else
      recoverDraft
      call .getdelResult

/-- `_submit_outcome`: none once the draft is the reporter's again. -/
def submitOutcome (polls : ℕ) : Handler (Option Page) := do
  match ← awaitResult polls with
  | some result => pure (some (.success result))
  | none =>
    let state ← loadSubmission
    if state.isEmpty then
      let kept ← call (.exists [.claimed])
      pure (some (.pending kept))
    else pure none

def awaitOtherSubmit (polls : ℕ) : Handler Page := do
  return (← submitOutcome polls).getD .redirect

/-! ### The final submit -/

/-- `_fail`. -/
def fail (state : Draft) (stepNo : ℕ) (error : ErrorCode) : Handler Page := do
  saveSubmission (state.flagged stepNo error)
  pure .redirect

/-- The attempts of `create_report` to insert its row under a fresh case number. -/
def insertFor (row : CaseNumber → Report) : ℕ → Handler Report
  | 0 => .raise .error
  | attempts + 1 => do
    let caseNumber ← call .generateCaseNumber
    if ← call (.insertReport (row caseNumber)) then pure (row caseNumber)
    else insertFor row attempts

/-- The organisation a report is filed under. -/
def filedUnder : Option OrgId → Handler (Option OrgId)
  | some orgId => pure (some orgId)
  | none => call .defaultOrgId

/-- `create_report` with the fixed id of the draft, not committed. -/
def createReport (reportId : ReportId) (orgId : Option OrgId) (answers : Draft) :
    Handler (Report × Pin) := do
  let pin ← call .generatePin
  let orgId ← filedUnder orgId
  let row ← insertFor (fun caseNumber ↦ ⟨reportId, caseNumber, hashPin pin, orgId, answers⟩) 5
  pure (row, pin)

/-- The body of the `try` of the final submit until `our_case` is set: the page of a draft that no
longer passes its checks, or the report and its PIN. -/
def beforeCommit (post : Post) (claimed : Token) (nonce : Nonce) (reportId : ReportId) :
    Handler (Page ⊕ Report × Pin) := do
  call (.external .readCatalogue)
  match post.draftError claimed.state with
  | some (stepNo, error) =>
    let _ ← giveBackDraft claimed nonce
    return .inl (← fail claimed.state stepNo error)
  | none =>
    let created ← createReport reportId post.tenant.orgId claimed.state
    call (.external .createAttachments)
    pure (.inr created)

def commit : Handler Unit := do
  call .sendCommit
  call .awaitCommit

/-- The success page of a submit whose report is committed. -/
def submitCommitted (claimed : Token) (nonce : Nonce) (commitError : Option Exn)
    (ours : Report × Pin) : Handler Page := do
  let result : Result := ⟨ours.1.caseNumber, some ours.2,
    (claimed.state.fileData.getD []).map fun file ↦ (file.filename, file.data.length)⟩
  match ← (finishClaim nonce (some result)).attempt with
  | .error .cancelled => .raise .cancelled
  | _ => if commitError = some .cancelled then .raise .cancelled else pure (.success result)

/-- A cancelled request answers nobody. -/
def unlessCancelled (exception : Exn) (page : Handler Page) : Handler Page :=
  if exception = .cancelled then .raise .cancelled else page

/-- The `except` clause of the final submit: the database decides. -/
def submitFailed (post : Post) (claimed : Token) (nonce : Nonce) (reportId : ReportId)
    (ours : Option (Report × Pin)) (exception : Exn) : Handler Page := do
  match ← (committedCaseNumber reportId (ours.map Prod.fst)).attempt with
  | .error .cancelled => .raise .cancelled
  | .error .error => unlessCancelled exception (pure (.pending true))
  | .ok none =>
    match ours with
    | some _ => unlessCancelled exception (pure (.pending true))
    | none =>
      call (.external .deleteStoredObjects)
      let givenBack ← giveBackDraft claimed nonce
      unlessCancelled exception
        (if givenBack then fail claimed.state stepReview .submitFailed
        else awaitOtherSubmit post.polls)
  | .ok (some committed) =>
    match ours with
    | some own =>
      if committed = own.1.caseNumber then submitCommitted claimed nonce (some exception) own
      else submittedElsewhere committed
    | none => submittedElsewhere committed
where
  /-- Another submit of this draft made the report. -/
  submittedElsewhere (committed : CaseNumber) : Handler Page := do
    call (.external .deleteStoredObjects)
    finishClaim nonce none
    unlessCancelled exception (storedResultPage committed)

/-- The final step of `submit_post`. -/
def finalSubmit (post : Post) : Handler Page := do
  match ← claimDraft with
  | none =>
    call (.external .rollback)
    awaitOtherSubmit post.polls
  | some (claimed, nonce) =>
    match claimed.state.reportId with
    | none =>
      let _ ← giveBackDraft claimed nonce
      pure .redirect
    | some reportId =>
      match ← (beforeCommit post claimed nonce reportId).attempt with
      | .ok (.inl page) => pure page
      | .ok (.inr ours) =>
        match ← commit.attempt with
        | .ok () => submitCommitted claimed nonce none ours
        | .error exception => submitFailed post claimed nonce reportId (some ours) exception
      | .error exception => submitFailed post claimed nonce reportId none exception

/-! ### The routes -/

/-- The steps of `submit_post` on a loaded draft. -/
def answerPost (post : Post) (state : Draft) : Handler Page :=
  match post.answer state with
  | .save answers => do
    saveSubmission (state.edited answers)
    pure .redirect
  | .review => finalSubmit post

def submitPost (post : Post) : Handler Page := do
  let state ← loadDraft post.tenant
  if state.isEmpty then
    recoverDraft
    let state ← loadDraft post.tenant
    if state.isEmpty then
      if ← submitInFlight then awaitOtherSubmit post.polls else pure .freshSession
    else answerPost post state
  else answerPost post state

/-- What the wizard shows of a draft: its flash errors once, and no location step without
locations. -/
def shown (state : Draft) (hasLocations : Bool) : Draft :=
  { state with
    step := if !hasLocations ∧ state.step = some stepLocation then some stepCategory else state.step
    flashError := none
    flashFieldErrors := none }

/-- The part of `submit_get` that renders the wizard. -/
def renderWizard (visit : Visit) : Handler Page := do
  let state ← loadDraft visit.tenant
  if state.isEmpty then
    let _ ← loadSubmission
    pure .freshSession
  else
    saveSubmission (shown state visit.hasLocations)
    pure (.wizard (shown state visit.hasLocations))

def submitGet (visit : Visit) : Handler Page := do
  let state ← loadSubmission
  if state.isEmpty then
    if ← submitInFlight then
      match ← submitOutcome 0 with
      | some page => pure page
      | none => renderWizard visit
    else renderWizard visit
  else renderWizard visit

/-- `submit_remove_attachment`. -/
def submitRemoveAttachment (tenant : Tenant) (index : Int) : Handler Page := do
  let state ← loadDraft tenant
  let files := state.fileData.getD []
  if state.step = some stepAttachments ∧ 0 ≤ index ∧ index < files.length then
    saveSubmission { state with
      fileData := some (files.eraseIdx index.toNat)
      fileMeta := state.fileMeta.map fun entries ↦ entries.eraseIdx index.toNat }
    pure .redirect
  else pure .redirect

def submitRestart : Handler Page := do
  call .deleteDraft
  pure .redirect

def handler : Request → Handler Page
  | .get visit => submitGet visit
  | .post post => submitPost post
  | .removeAttachment tenant index => submitRemoveAttachment tenant index
  | .restart => submitRestart

end OpenWhistle.Submission
