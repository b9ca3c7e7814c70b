import OpenWhistle.Deletion.Makers
import OpenWhistle.Foundation.Interleaving
import OpenWhistle.Foundation.ReadCommitted

/-!
# The registry of deletion requests

A report is deleted by two admins: one requests it, another confirms. The reports and their deletion
requests are two tables under READ COMMITTED; a report has at most one request, which its foreign key
deletes with it. A confirmation reads the report, then its request once more under SELECT FOR UPDATE,
checks the requester against the confirmer, and deletes the report in the transaction that holds the
lock. A withdrawal deletes the request it has read, by its primary key.

Whether an account may open a report is an input of its request. The environment submits reports and
aborts transactions. History are the ids of the withdrawn requests and the executed deletions, each
with the request that was checked and the request that stood at the commit.
-/

set_option autoImplicit false
set_option relaxedAutoImplicit false
set_option linter.unusedSectionVars false

namespace OpenWhistle.Deletion

open Interleaving ReadCommitted

inductive Fault
  | raised
  deriving DecidableEq

/-- A row of `deletion_requests`, without its times and user names. -/
structure DeletionRequest (α : Type) where
  id : ℕ
  requestedById : Option α
  confirmedById : Option α
  deriving DecidableEq

inductive AuditEntry (ι α : Type)
  | deleteRequested (report : ι) (admin : α)
  | deleteCancelled (report : ι) (admin : α)
  | deleteConfirmed (caseNumber : String) (requestedBy : Option α) (confirmedBy : α)
  deriving DecidableEq

/-- A report with its request, as they are loaded together. -/
structure Loaded (α : Type) where
  caseNumber : String
  deletionRequest : Option (DeletionRequest α)

/-- A deletion on its way: the report, the request it was checked against, and the confirmer. -/
structure Confirmation (ι α : Type) where
  report : ι
  request : DeletionRequest α
  confirmer : α
  deriving DecidableEq

/-- What a transaction is about to remove: a request, or a report with its request. -/
inductive Removal (ι α : Type)
  | withdrawal (id : ℕ)
  | deletion (confirmation : Confirmation ι α)
  deriving DecidableEq

/-- A committed deletion, with the request that stood when it was committed. -/
structure Execution (ι α : Type) where
  confirmation : Confirmation ι α
  standing : Option (DeletionRequest α)
  deriving DecidableEq

inductive Op (ι α : Type)
  | getReport (report : ι)
  | insertRequest (report : ι) (requester : α)
  | deleteRequest (report : ι) (id : ℕ)
  | lockRequest (report : ι)
  | confirmRequest (confirmation : Confirmation ι α)
  | deleteReport (confirmation : Confirmation ι α)
  | commit (entries : List (AuditEntry ι α))

@[reducible] def Reply {ι α : Type} : Op ι α → Type
  | .getReport _ => Option (Loaded α)
  | .insertRequest _ _ => Unit
  | .deleteRequest _ _ => Unit
  | .lockRequest _ => Option (DeletionRequest α)
  | .confirmRequest _ => Unit
  | .deleteReport _ => Unit
  | .commit _ => Unit

structure Registry (ι α : Type) where
  reports : Table ι String
  requests : Table ι (DeletionRequest α)
  audit : List (AuditEntry ι α)
  ended : ℕ → Bool
  known : List ι
  issued : List (ℕ × ι)
  removing : ℕ → Option (Removal ι α)
  withdrawn : List ℕ
  executions : List (Execution ι α)

section Semantics

variable {ι α : Type} [DecidableEq ι] [DecidableEq α]

/-- The report an audit entry is about, if it goes with the report. -/
def AuditEntry.report : AuditEntry ι α → Option ι
  | .deleteRequested report _ => some report
  | .deleteCancelled report _ => some report
  | .deleteConfirmed _ _ _ => none

namespace Registry

def getReport (s : Registry ι α) (report : ι) : Option (Loaded α) :=
  (s.reports.row report).map fun caseNumber ↦ ⟨caseNumber, s.requests.row report⟩

/-- Another transaction is about to insert the request of a report, or to delete it. -/
def Unsettled (s : Registry ι α) (w : ℕ) (report : ι) : Prop :=
  ∃ lock ∈ s.requests.lock report, lock.holder ≠ w ∧
    (s.requests.row report = none ∨ lock.written = none)

instance (s : Registry ι α) (w : ℕ) (report : ι) : Decidable (s.Unsettled w report) :=
  inferInstanceAs (Decidable (∃ lock ∈ s.requests.lock report, _ ∧ _))

/-- INSERT of a request under a fresh id. It waits for whoever decides about a request of the same
report; a second request is refused, and so is one for a report that is gone. -/
def insertRequest (s : Registry ι α) (w : ℕ) (report : ι) (requester : α) (id : ℕ) :
    Option (Except Fault Unit × Registry ι α) :=
  if id ∈ s.issued.map Prod.fst ∨ s.Unsettled w report then none
  else if s.ended w = true ∨ (s.requests.seenBy w report).isSome = true ∨
      s.reports.row report = none then some (.error .raised, s)
  else some (.ok (), { s with
    requests := s.requests.lockRow w report (some ⟨id, some requester, none⟩)
    issued := (id, report) :: s.issued })

/-- DELETE of a request by its id. Where it is gone there is nothing to delete. -/
def deleteRequest (s : Registry ι α) (w : ℕ) (report : ι) (id : ℕ) :
    Option (Except Fault Unit × Registry ι α) :=
  if s.ended w then some (.error .raised, s)
  else if (s.requests.row report).map DeletionRequest.id ≠ some id then some (.ok (), s)
  else
    (s.requests.write w report fun _ ↦ none).map fun result ↦
      (.ok (), { s with
        requests := result.2
        removing := Function.update s.removing w (some (.withdrawal id)) })

/-- SELECT FOR UPDATE of a report's request, as it is committed. -/
def lockRequest (s : Registry ι α) (w : ℕ) (report : ι) :
    Option (Except Fault (Option (DeletionRequest α)) × Registry ι α) :=
  if s.ended w then some (.error .raised, s)
  else if s.requests.row report = none then some (.ok none, s)
  else
    (s.requests.write w report some).map fun result ↦
      (.ok result.1, { s with requests := result.2 })

/-- UPDATE of the columns that say who confirmed. -/
def confirmRequest (s : Registry ι α) (w : ℕ) (confirmation : Confirmation ι α) :
    Option (Except Fault Unit × Registry ι α) :=
  if s.ended w then some (.error .raised, s)
  else
    (s.requests.write w confirmation.report fun request ↦
      some { request with confirmedById := some confirmation.confirmer }).map fun result ↦
        (.ok (), { s with requests := result.2 })

/-- DELETE of a report, and of its request by the foreign key. -/
def deleteReport (s : Registry ι α) (w : ℕ) (confirmation : Confirmation ι α) :
    Option (Except Fault Unit × Registry ι α) :=
  if s.ended w then some (.error .raised, s)
  else
    (s.reports.write w confirmation.report fun _ ↦ none).bind fun reports ↦
      if reports.1 = none then some (.ok (), s)
      else (s.requests.write w confirmation.report fun _ ↦ none).map fun requests ↦
        (.ok (), { s with
          reports := reports.2
          requests := requests.2
          removing := Function.update s.removing w (some (.deletion confirmation)) })

/-- The registry once a transaction has committed. The entries about a deleted report go with it. -/
def committed (s : Registry ι α) (w : ℕ) (entries : List (AuditEntry ι α)) : Registry ι α where
  reports := s.reports.commit w
  requests := s.requests.commit w
  audit := entries ++ match s.removing w with
    | some (.deletion confirmation) =>
      s.audit.filter fun entry ↦ entry.report ≠ some confirmation.report
    | _ => s.audit
  ended := Function.update s.ended w true
  known := s.known
  issued := s.issued
  removing := s.removing
  withdrawn := match s.removing w with
    | some (.withdrawal id) => id :: s.withdrawn
    | _ => s.withdrawn
  executions := match s.removing w with
    | some (.deletion confirmation) =>
      ⟨confirmation, s.requests.row confirmation.report⟩ :: s.executions
    | _ => s.executions

/-- COMMIT. An entry about a report that is gone is refused by its foreign key. -/
def commit (s : Registry ι α) (w : ℕ) (entries : List (AuditEntry ι α)) :
    Option (Except Fault Unit × Registry ι α) :=
  if s.ended w = true ∨ ∃ entry ∈ entries, ∃ report ∈ entry.report,
      s.reports.seenBy w report = none then some (.error .raised, s)
  else some (.ok (), s.committed w entries)

end Registry

inductive Happening (ι : Type)
  | submit (report : ι) (caseNumber : String)
  | abort (w : ℕ)

def perform (w : ℕ) : (operation : Op ι α) → ℕ → Registry ι α →
    Option (Except Fault (Reply operation) × Registry ι α)
  | .getReport report, _, s => some (.ok (s.getReport report), s)
  | .insertRequest report requester, id, s => s.insertRequest w report requester id
  | .deleteRequest report id, _, s => s.deleteRequest w report id
  | .lockRequest report, _, s => s.lockRequest w report
  | .confirmRequest confirmation, _, s => s.confirmRequest w confirmation
  | .deleteReport confirmation, _, s => s.deleteReport w confirmation
  | .commit entries, _, s => s.commit w entries

def environment : Happening ι → Registry ι α → Option (Registry ι α)
  | .submit report caseNumber, s =>
    if report ∈ s.known then none
    else some { s with
      reports := s.reports.insert report caseNumber
      known := report :: s.known }
  | .abort w, s =>
    some { s with
      reports := s.reports.abort w
      requests := s.requests.abort w
      ended := Function.update s.ended w true }

def semantics : Semantics (Op ι α) Reply Fault (Registry ι α) ℕ (Happening ι) where
  perform := perform
  environment := environment

/-- No report has been submitted yet. -/
def Registry.empty : Registry ι α where
  reports := ⟨fun _ ↦ none, fun _ ↦ none⟩
  requests := ⟨fun _ ↦ none, fun _ ↦ none⟩
  audit := []
  ended := fun _ ↦ false
  known := []
  issued := []
  removing := fun _ ↦ none
  withdrawn := []
  executions := []

end Semantics

/-! ### The handlers -/

section Handlers

variable {ι α : Type} [DecidableEq α]

abbrev Handler (ι α β : Type) := Program (Op ι α) Reply Fault β

abbrev call (operation : Op ι α) : Handler ι α (Reply operation) := Program.call operation

inductive Answer
  | redirect (address : String) (status : ℕ)
  | refused (status : ℕ) (detail : String)
  deriving DecidableEq

/-- The requests, each by an account of which it is known whether it is an admin and whether it may
open the report. -/
inductive Request (ι α : Type)
  | requestDelete (report : ι) (user : α) (isAdmin mayAccess : Bool)
  | confirmDelete (report : ι) (user : α) (isAdmin mayAccess : Bool)
  | cancelDelete (report : ι) (user : α) (mayAccess : Bool)

/-- `_get_authorized_report`, and what follows for the report it finds. -/
def withAuthorizedReport (report : ι) (mayAccess : Bool) (route : Loaded α → Handler ι α Answer) :
    Handler ι α Answer :=
  (call (.getReport report)).withAuthorized (fun _ ↦ mayAccess) (return .refused 404 "Not Found") route

def requestDelete (report : ι) (user : α) (isAdmin mayAccess : Bool) : Handler ι α Answer :=
  if isAdmin = false then return .refused 403 "Insufficient permissions."
  else withAuthorizedReport report mayAccess fun read ↦
    if read.deletionRequest.isSome then
      return .refused 409 "A deletion request already exists."
    else do
      call (.insertRequest report user)
      call (.commit [.deleteRequested report user])
      return .redirect "/admin/reports/" 302

def confirmDelete (family : Family α) (report : ι) (user : α) (isAdmin mayAccess : Bool) :
    Handler ι α Answer :=
  if isAdmin = false then return .refused 403 "Insufficient permissions."
  else withAuthorizedReport report mayAccess fun read ↦ do
    let locked ← call (.lockRequest report)
    match locked with
    | none => return .refused 400 "No pending deletion request."
    | some request =>
      if request.requestedById = some user ∨
          family.oneMadeTheOther request.requestedById user = true then
        return .refused 409
          "The admin who requested deletion, or an account one of them made, cannot confirm it."
      else do
        call (.confirmRequest ⟨report, request, user⟩)
        call (.deleteReport ⟨report, request, user⟩)
        call (.commit [.deleteConfirmed read.caseNumber request.requestedById user])
        return .redirect "/admin/dashboard?deleted=" 302

def cancelDelete (report : ι) (user : α) (mayAccess : Bool) : Handler ι α Answer :=
  withAuthorizedReport report mayAccess fun read ↦
    match read.deletionRequest with
    | none => return .refused 400 "Bad Request"
    | some request =>
      if request.requestedById ≠ some user then
        return .refused 403 "Only the requesting admin can cancel."
      else do
        call (.deleteRequest report request.id)
        call (.commit [.deleteCancelled report user])
        return .redirect "/admin/reports/" 302

def handler (family : Family α) : Request ι α → Handler ι α Answer
  | .requestDelete report user isAdmin mayAccess => requestDelete report user isAdmin mayAccess
  | .confirmDelete report user isAdmin mayAccess =>
    confirmDelete family report user isAdmin mayAccess
  | .cancelDelete report user mayAccess => cancelDelete report user mayAccess

abbrev Work (ι α : Type) := System (Registry ι α) (Handler ι α Answer)

abbrev Step (ι α : Type) := Event (Request ι α) Fault ℕ (Happening ι)

/-- Nothing has happened yet. -/
def start [DecidableEq ι] : Work ι α where
  shared := Registry.empty
  worker := fun _ ↦ none

end Handlers

end OpenWhistle.Deletion
