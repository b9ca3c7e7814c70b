import OpenWhistle.Access.Authorization
import OpenWhistle.Foundation.Fernet
import OpenWhistle.Foundation.Interleaving
import OpenWhistle.Foundation.ReadCommitted
import OpenWhistle.Foundation.Text

/-!
# The vault: confidential identities and who is shown them

The name and the contact of a confidential report are stored as Fernet tokens. Two routes decrypt
them, the case page and the PDF export, both behind one gate; two others show the same case without
them; a fifth assigns a case. They are programs over a reports table under READ COMMITTED. An audit
entry is inserted into the transaction and committed with it.

What a response shows is a list of cells, and a cell whose text came out of a decryption says so. Of
a page and a PDF only what stands in their identity part is modelled, with the case number. The
environment submits and deletes reports, aborts transactions and changes accounts. History are what
a transaction read, the transactions that have committed, the transaction of an audit entry, and the
assignments every transaction has changed.
-/

set_option autoImplicit false
set_option relaxedAutoImplicit false
set_option linter.unusedSectionVars false

namespace OpenWhistle.Identity

open Interleaving ReadCommitted
open Accounts (AdminUser AdminRole UserId)
open Access (Placement canAccessReport canRevealIdentity)

inductive Fault
  | raised
  deriving DecidableEq

/-- The columns of a report that these routes read. -/
structure Report extends Placement where
  caseNumber : String
  confidentialName : Option Fernet.Token
  confidentialContact : Option Fernet.Token
  deriving DecidableEq

/-- A report with the name of its assignee, as they are loaded together. -/
structure Loaded where
  report : Report
  assignedTo : Option String
  deriving DecidableEq

inductive AuditAction
  | reportViewed
  | reportExported
  | reportAssigned (before after : Option String)
  | reportUnassigned (before after : Option String)
  | identityRevealed (reason : Fernet.Token) (via : Option String)
  deriving DecidableEq

structure AuditEntry (ι : Type) where
  admin : UserId
  action : AuditAction
  report : ι
  deriving DecidableEq

inductive Op (ι : Type)
  | getReport (report : ι)
  | getUserById (account : UserId)
  | log (entry : AuditEntry ι)
  | assign (report : ι) (read : Option UserId) (assignee : Option UserId)
  | randomBytes
  | commit
  | pageData

@[reducible] def Reply {ι : Type} : Op ι → Type
  | .getReport _ => Option Loaded
  | .getUserById _ => Option AdminUser
  | .log _ => Unit
  | .assign _ _ _ => Loaded
  | .randomBytes => ℕ
  | .commit => Unit
  | .pageData => Unit

structure Vault (ι : Type) where
  reports : Table ι Report
  accounts : UserId → Option AdminUser
  known : List ι
  pending : ℕ → List (AuditEntry ι)
  audit : List (ℕ × AuditEntry ι)
  ended : ℕ → Bool
  commits : List ℕ
  read : ℕ → Option (ι × Report)
  reassigned : List (ℕ × ι)

section Semantics

variable {ι : Type} [DecidableEq ι]

namespace Vault

/-- A row with the name of its assignee. -/
def load (s : Vault ι) (report : Report) : Loaded where
  report := report
  assignedTo := (report.assignedToId.bind s.accounts).map AdminUser.username

def getReport (s : Vault ι) (report : ι) : Option Loaded := (s.reports.row report).map s.load

/-- INSERT of an audit entry; its foreign key needs the report. -/
def log (s : Vault ι) (w : ℕ) (entry : AuditEntry ι) : Option (Except Fault Unit × Vault ι) :=
  if s.ended w = true ∨ s.reports.seenBy w entry.report = none then some (.error .raised, s)
  else some (.ok (), { s with
    pending := Function.update s.pending w (entry :: s.pending w) })

/-- The flush of a changed `assigned_to_id` and the refresh of the row. A column that keeps the
value it was read with is not written, and an UPDATE of a report that is gone is an error. -/
def assign (s : Vault ι) (w : ℕ) (report : ι) (read assignee : Option UserId) :
    Option (Except Fault Loaded × Vault ι) :=
  if s.ended w then some (.error .raised, s)
  else if read = assignee then
    match s.reports.seenBy w report with
    | none => some (.error .raised, s)
    | some row => some (.ok (s.load row), s)
  else
    match s.reports.write w report fun row ↦ some { row with assignedToId := assignee } with
    | none => none
    | some (none, _) => some (.error .raised, s)
    | some (some row, table) =>
      some (.ok (s.load { row with assignedToId := assignee }), { s with reports := table })

/-- The reports whose assignment a transaction changes when it commits. -/
def reassigns (s : Vault ι) (w : ℕ) : List ι :=
  s.known.filter fun report ↦
    (s.reports.seenBy w report).map (fun row ↦ row.assignedToId) ≠
      (s.reports.row report).map fun row ↦ row.assignedToId

/-- The vault once a transaction has committed. -/
def committed (s : Vault ι) (w : ℕ) : Vault ι where
  reports := s.reports.commit w
  accounts := s.accounts
  known := s.known
  pending := s.pending
  audit := (s.pending w).map (fun entry ↦ (w, entry)) ++ s.audit
  ended := Function.update s.ended w true
  commits := w :: s.commits
  read := s.read
  reassigned := (s.reassigns w).map (fun report ↦ (w, report)) ++ s.reassigned

/-- COMMIT. An entry about a report that is gone is refused by its foreign key. -/
def commit (s : Vault ι) (w : ℕ) : Option (Except Fault Unit × Vault ι) :=
  if s.ended w = true ∨ ∃ entry ∈ s.pending w, s.reports.seenBy w entry.report = none then
    some (.error .raised, s)
  else some (.ok (), s.committed w)

/-- DELETE of a report that nobody is writing, by a transaction of its own. -/
def delete (s : Vault ι) (report : ι) : Option (Vault ι) :=
  if s.reports.lock report = none then
    some { s with reports := ⟨Function.update s.reports.row report none, s.reports.lock⟩ }
  else none

end Vault

inductive Happening (ι : Type)
  | submit (report : ι) (caseNumber : String) (orgId : Option ℕ)
      (confidentialName confidentialContact : Option Fernet.Token)
  | delete (report : ι)
  | account (id : UserId) (user : AdminUser)
  | abort (w : ℕ)

/-- The draw of an operation is what the random source of the host gives. -/
def perform (w : ℕ) : (operation : Op ι) → ℕ → Vault ι →
    Option (Except Fault (Reply operation) × Vault ι)
  | .getReport report, _, s =>
    some (.ok (s.getReport report),
      { s with read := Function.update s.read w ((s.reports.row report).map fun row ↦ (report, row)) })
  | .getUserById account, _, s => some (.ok (s.accounts account), s)
  | .log entry, _, s => s.log w entry
  | .assign report read assignee, _, s => s.assign w report read assignee
  | .randomBytes, bytes, s => some (.ok bytes, s)
  | .commit, _, s => s.commit w
  | .pageData, _, s => some (.ok (), s)

def environment : Happening ι → Vault ι → Option (Vault ι)
  | .submit report caseNumber orgId confidentialName confidentialContact, s =>
    if report ∈ s.known then none
    else some { s with
      reports := s.reports.insert report
        ⟨⟨orgId, none⟩, caseNumber, confidentialName, confidentialContact⟩
      known := report :: s.known }
  | .delete report, s => s.delete report
  | .account id user, s => some { s with accounts := Function.update s.accounts id (some user) }
  | .abort w, s =>
    some { s with
      reports := s.reports.abort w
      ended := Function.update s.ended w true }

def semantics : Semantics (Op ι) Reply Fault (Vault ι) ℕ (Happening ι) where
  perform := perform
  environment := environment

/-- No report has been submitted yet. -/
def Vault.empty : Vault ι where
  reports := ⟨fun _ ↦ none, fun _ ↦ none⟩
  accounts := fun _ ↦ none
  known := []
  pending := fun _ ↦ []
  audit := []
  ended := fun _ ↦ false
  commits := []
  read := fun _ ↦ none
  reassigned := []

end Semantics

/-! ### Crypto, and what a response shows -/

/-- `seal`: a token whose time is 0. -/
def sealToken (fernet : Fernet) (data : String) (iv : ℕ) : Fernet.Token :=
  fernet.encryptAtTime data 0 iv

/-- `decrypt_or_none`. -/
def decryptOrNone (fernet : Fernet) (token : Option Fernet.Token) : Option String :=
  token.bind fernet.decrypt

/-- A text in a response; `decrypted` is one that was stored as a token of the reporter's
identity. -/
inductive Cell
  | plain (text : String)
  | decrypted (text : String)
  deriving DecidableEq

/-- The identity that `reveal_identity` passes to the page. -/
structure Revealed where
  name : Option String
  contact : Option String
  deriving DecidableEq

/-- The context of `admin/report.html`, as far as its identity part reads it. -/
structure PageContext where
  user : UserId
  report : Report
  hasIdentity : Bool
  canReveal : Bool
  identity : Option Revealed
  fieldErrors : List (String × String)
  reasonDraft : String
  statusCode : ℕ
  deriving DecidableEq

/-- A decrypted text; an empty one is shown as if there were none. -/
def shown (label : String) (text : Option String) : List Cell :=
  match text with
  | some text => if text.isEmpty then [] else [.plain label, .decrypted text]
  | none => []

/-- The identity part of `admin/report.html`; its texts stand under their keys. -/
def PageContext.cells (page : PageContext) : List Cell :=
  if page.hasIdentity then
    match page.identity with
    | some identity =>
      shown "admin.report.confidential.name" identity.name ++
        shown "admin.report.confidential.contact" identity.contact ++
        [.plain "admin.report.identity.shown_once"]
    | none =>
      if page.canReveal then
        [.plain page.reasonDraft] ++ page.fieldErrors.map (fun error ↦ .plain error.2) ++
          (if page.report.assignedToId.isNone then [.plain "admin.report.identity.takes_case"] else [])
      else [.plain "admin.report.identity.handler_only"]
  else []

/-- `_safe`: control characters other than tab, line feed and carriage return are dropped. -/
def safeText (text : String) : String :=
  String.ofList (text.toList.filter fun c ↦
    !(decide (c.toNat < 0x20) && decide (c.toNat ∉ [0x09, 0x0A, 0x0D]) || decide (c.toNat = 0x7F)))

/-- One row of the identity part of a PDF: the decrypted text, or a note that it cannot be. -/
def identityRow (fernet : Fernet) (label : String) (token : Option Fernet.Token) : List Cell :=
  if token.isSome then
    match decryptOrNone fernet token with
    | some text =>
      if text.isEmpty then [.plain label, .plain "pdf.encrypted"]
      else [.plain label, .decrypted (safeText text)]
    | none => [.plain label, .plain "pdf.encrypted"]
  else []

/-- `generate_report_pdf`: the case number, the assignee and the identity part. -/
def generateReportPdf (fernet : Fernet) (read : Loaded) (includeIdentity : Bool) : List Cell :=
  [.plain "pdf.case_number", .plain (safeText read.report.caseNumber)] ++
    (match read.assignedTo with
    | some username => [.plain "pdf.assigned_to", .plain (safeText username)]
    | none => []) ++
    (if read.report.confidentialName.isSome ∨ read.report.confidentialContact.isSome then
      if includeIdentity then
        identityRow fernet "pdf.confidential_name" read.report.confidentialName ++
          identityRow fernet "pdf.confidential_contact" read.report.confidentialContact
      else [.plain "pdf.identity", .plain "pdf.identity_withheld"]
    else [])

inductive Answer
  | page (context : PageContext)
  | pdf (filename : String) (content : List Cell)
  | redirect (status : ℕ)
  | refused (status : ℕ) (detail : String)
  deriving DecidableEq

def Answer.cells : Answer → List Cell
  | .page context => context.cells
  | .pdf _ content => content
  | .redirect _ => []
  | .refused _ detail => [.plain detail]

/-- A response that contains a decrypted name or contact. -/
def Answer.Discloses (answer : Answer) : Prop := ∃ text, Cell.decrypted text ∈ answer.cells

/-! ### The handlers -/

section Handlers

variable {ι : Type}

abbrev Handler (ι α : Type) := Program (Op ι) Reply Fault α

/-- One operation of a handler. -/
abbrev call (operation : Op ι) : Handler ι (Reply operation) := Program.call operation

/-- What the form of the assignment names: nobody, no UUID, or an account. -/
inductive Choice
  | nobody
  | malformed
  | account (id : UserId)

inductive Request (ι : Type)
  | reportDetail (user : AdminUser) (report : ι)
  | exportPdf (user : AdminUser) (report : ι)
  | revealIdentity (user : AdminUser) (report : ι) (reason : String)
  | exportPdfWithIdentity (user : AdminUser) (report : ι) (reason : String)
  | assignReport (user : AdminUser) (report : ι) (choice : Choice)

/-- `encrypt`, with an initialisation vector from the host. -/
def encrypt (fernet : Fernet) (plaintext : String) : Handler ι Fernet.Token := do
  let iv ← call .randomBytes
  return sealToken fernet plaintext iv

/-- `_get_authorized_report`, and what follows for the report it finds. -/
def withAuthorizedReport {α : Type} (multiTenancyEnabled : Bool) (user : AdminUser) (report : ι)
    (refuse : Answer → Handler ι α) (route : Loaded → Handler ι α) : Handler ι α :=
  (call (.getReport report)).withAuthorized
    (fun read ↦ canAccessReport multiTenancyEnabled user read.report.toPlacement)
    (refuse (.refused 404 "Not Found")) route

def reasonMin : ℕ := 10

def reasonMax : ℕ := 500

/-- `_validated_reason`. -/
def validatedReason (raw : String) : Option String :=
  if reasonMin ≤ (Text.strip raw).length ∧ (Text.strip raw).length ≤ reasonMax then
    some (Text.strip raw)
  else none

/-- `_render_report`. -/
def renderReport (multiTenancyEnabled : Bool) (user : AdminUser) (read : Loaded)
    (identity : Option Revealed) (fieldErrors : List (String × String)) (statusCode : ℕ)
    (reasonDraft : String) : Handler ι Answer := do
  call .pageData
  return .page {
    user := user.id
    report := read.report
    hasIdentity := read.report.confidentialName.isSome || read.report.confidentialContact.isSome
    canReveal := canRevealIdentity multiTenancyEnabled user read.report.toPlacement
    identity := identity
    fieldErrors := fieldErrors
    reasonDraft := reasonDraft
    statusCode := statusCode }

/-- `report_detail`. -/
def reportDetail (multiTenancyEnabled : Bool) (user : AdminUser) (report : ι) : Handler ι Answer :=
  withAuthorizedReport multiTenancyEnabled user report pure fun read ↦ do
    call (.log ⟨user.id, .reportViewed, report⟩)
    call .commit
    renderReport multiTenancyEnabled user read none [] 200 ""

/-- `_reveal_gate`: the response that refuses the reveal, or the report and the reason. -/
def revealGate (multiTenancyEnabled : Bool) (user : AdminUser) (report : ι) (reason : String) :
    Handler ι (Except Answer (Loaded × String)) :=
  withAuthorizedReport multiTenancyEnabled user report (fun answer ↦ return .error answer)
    fun read ↦
      if canRevealIdentity multiTenancyEnabled user read.report.toPlacement = false then
        return .error (.refused 403 "Forbidden")
      else
        match validatedReason reason with
        | none => do
          call (.log ⟨user.id, .reportViewed, report⟩)
          call .commit
          let page ← renderReport multiTenancyEnabled user read none
            [("reason", "admin.report.identity.reason_error")] 422 reason
          return .error page
        | some valid =>
          if read.report.assignedToId = none then do
            let refreshed ← call (.assign report read.report.assignedToId (some user.id))
            call (.log ⟨user.id, .reportAssigned none (some user.username), report⟩)
            return .ok (refreshed, valid)
          else return .ok (read, valid)

/-- `reveal_identity`. -/
def revealIdentity (multiTenancyEnabled : Bool) (fernet : Fernet) (user : AdminUser) (report : ι)
    (reason : String) : Handler ι Answer := do
  match ← revealGate multiTenancyEnabled user report (Text.lf reason) with
  | .error answer => return answer
  | .ok (read, valid) =>
    let token ← encrypt fernet valid
    call (.log ⟨user.id, .identityRevealed token none, report⟩)
    call .commit
    renderReport multiTenancyEnabled user read
      (some ⟨decryptOrNone fernet read.report.confidentialName,
        decryptOrNone fernet read.report.confidentialContact⟩) [] 200 ""

/-- `export_pdf`. -/
def exportPdf (multiTenancyEnabled : Bool) (fernet : Fernet) (user : AdminUser) (report : ι) :
    Handler ι Answer :=
  withAuthorizedReport multiTenancyEnabled user report pure fun read ↦ do
    call (.log ⟨user.id, .reportExported, report⟩)
    call .commit
    call .pageData
    return .pdf (read.report.caseNumber ++ "_export.pdf") (generateReportPdf fernet read false)

/-- `export_pdf_with_identity`. -/
def exportPdfWithIdentity (multiTenancyEnabled : Bool) (fernet : Fernet) (user : AdminUser)
    (report : ι) (reason : String) : Handler ι Answer := do
  match ← revealGate multiTenancyEnabled user report (Text.lf reason) with
  | .error answer => return answer
  | .ok (read, valid) =>
    let token ← encrypt fernet valid
    call (.log ⟨user.id, .identityRevealed token (some "pdf"), report⟩)
    call .commit
    call .pageData
    return .pdf (read.report.caseNumber ++ "_export.pdf") (generateReportPdf fernet read true)

/-- The account that `assign_report` looks up, or why there is none. -/
def getAssignee (multiTenancyEnabled : Bool) (read : Loaded) :
    Choice → Handler ι (Except Answer (Option AdminUser))
  | .nobody => return .ok none
  | .malformed => return .error (.refused 400 "Bad Request")
  | .account id => do
    match ← call (.getUserById id) with
    | none => return .error (.refused 404 "Admin user not found")
    | some assignee =>
      if assignee.isActive = false then
        return .error (.refused 400 "Cannot assign a report to a deactivated user.")
      else if multiTenancyEnabled = true ∧ read.report.orgId ≠ none ∧
          assignee.orgId ≠ read.report.orgId then
        return .error (.refused 400 "Cannot assign a report to a user of another organisation.")
      else return .ok (some assignee)

/-- `assign_report`. -/
def assignReport (multiTenancyEnabled : Bool) (user : AdminUser) (report : ι) (choice : Choice) :
    Handler ι Answer :=
  if user.role = .caseManager then return .refused 403 "Insufficient permissions."
  else withAuthorizedReport multiTenancyEnabled user report pure fun read ↦ do
    match ← getAssignee multiTenancyEnabled read choice with
    | .error answer => return answer
    | .ok assignee =>
      let _ ← call (.assign report read.report.assignedToId (assignee.map AdminUser.id))
      let after := assignee.map AdminUser.username
      let action := if assignee.isSome then .reportAssigned read.assignedTo after
        else .reportUnassigned read.assignedTo after
      call (.log ⟨user.id, action, report⟩)
      call .commit
      return .redirect 302

def handler (multiTenancyEnabled : Bool) (fernet : Fernet) : Request ι → Handler ι Answer
  | .reportDetail user report => reportDetail multiTenancyEnabled user report
  | .exportPdf user report => exportPdf multiTenancyEnabled fernet user report
  | .revealIdentity user report reason =>
    revealIdentity multiTenancyEnabled fernet user report reason
  | .exportPdfWithIdentity user report reason =>
    exportPdfWithIdentity multiTenancyEnabled fernet user report reason
  | .assignReport user report choice => assignReport multiTenancyEnabled user report choice

abbrev Work (ι : Type) := System (Vault ι) (Handler ι Answer)

abbrev Step (ι : Type) := Event (Request ι) Fault ℕ (Happening ι)

/-- Nothing has happened yet. -/
def start [DecidableEq ι] : Work ι where
  shared := Vault.empty
  worker := fun _ ↦ none

end Handlers

end OpenWhistle.Identity
