import Mathlib.Data.String.Basic
import OpenWhistle.Foundation.CheckedInsert
import OpenWhistle.Foundation.Interleaving
import OpenWhistle.Foundation.Text

/-!
# Links between cases

A link joins two reports, and is stored once, with the smaller id first. No constraint of the
database says so: the route that links two cases looks for their link, and inserts one where it finds
none. Looking, inserting and committing are steps of their own.

Which reports an account may open is an input of its request. The environment submits and deletes
reports; their links go with them.
-/

set_option autoImplicit false
set_option relaxedAutoImplicit false

namespace OpenWhistle.Links

open Interleaving CheckedInsert

/-- The text of an id, by which ids are compared. -/
abbrev Uuid := String

/-- A row of `case_links`, without its time. -/
structure CaseLink where
  id : ℕ
  reportIdA : Uuid
  reportIdB : Uuid
  linkedById : ℕ
  linkedByUsername : String
  deriving DecidableEq

structure Report where
  id : Uuid
  caseNumber : String
  deriving DecidableEq

inductive Fault
  | multipleResultsFound
  | integrityError
  deriving DecidableEq

inductive Op
  | getReport (id : Uuid)
  | getReportByCaseNumber (caseNumber : String)
  | getLink (id : ℕ)
  | getLinkBetween (reportIdA reportIdB : Uuid)
  | insertLink (reportIdA reportIdB : Uuid) (linkedById : ℕ) (linkedByUsername : String)
  | deleteLink (id : ℕ)
  | commit
  | close

@[reducible] def Reply : Op → Type
  | .getReport _ => Option Report
  | .getReportByCaseNumber _ => Option Report
  | .getLink _ => Option CaseLink
  | .getLinkBetween _ _ => Option CaseLink
  | .insertLink _ _ _ _ => Unit
  | .deleteLink _ => Unit
  | .commit => Unit
  | .close => Unit

structure Cases where
  reports : List Report
  links : Table CaseLink
  /-- The links that transactions are about to delete. -/
  deleting : List (ℕ × ℕ)
  /-- The ids that links have had. -/
  issued : List ℕ
  /-- How many commits there were when a transaction looked for a link. -/
  checkedAt : ℕ → ℕ

def normalizeIds (idA idB : Uuid) : Uuid × Uuid := if idA < idB then (idA, idB) else (idB, idA)

def CaseLink.ends (link : CaseLink) : Uuid × Uuid := (link.reportIdA, link.reportIdB)

/-- The link joins the report to another. -/
def CaseLink.Touches (link : CaseLink) (report : Uuid) : Prop :=
  link.reportIdA = report ∨ link.reportIdB = report

instance (link : CaseLink) (report : Uuid) : Decidable (link.Touches report) :=
  inferInstanceAs (Decidable (_ ∨ _))

namespace Cases

def getLinkBetween (s : Cases) (reportIdA reportIdB : Uuid) : Except Fault (Option CaseLink) :=
  scalarOneOrNone .multipleResultsFound
    (s.links.rows.filter fun link ↦ link.ends = normalizeIds reportIdA reportIdB)

/-- The reports linked with a report, each with the id of the link. -/
def getLinkedReports (s : Cases) (report : Uuid) : List (Uuid × ℕ) :=
  (s.links.rows.filter fun link ↦ link.reportIdA = report).map (fun link ↦ (link.reportIdB, link.id)) ++
    (s.links.rows.filter fun link ↦ link.reportIdB = report).map fun link ↦ (link.reportIdA, link.id)

/-- INSERT of a link, which both foreign keys check. -/
def insertLink (s : Cases) (w : ℕ) (link : CaseLink) : Option (Except Fault Unit × Cases) :=
  if link.id ∈ s.issued then none
  else if link.reportIdA ∈ s.reports.map Report.id ∧ link.reportIdB ∈ s.reports.map Report.id then
    some (.ok (), { s with
      links := s.links.insert w link
      issued := link.id :: s.issued })
  else some (.error .integrityError, s)

/-- DELETE of a link by its id. It waits for whoever deletes the link already, and finds nothing
where the link is gone. -/
def deleteLink (s : Cases) (w id : ℕ) : Option (Except Fault Unit × Cases) :=
  if ∃ item ∈ s.deleting, item.2 = id ∧ item.1 ≠ w then none
  else if id ∈ s.links.rows.map CaseLink.id then
    some (.ok (), { s with deleting := (w, id) :: s.deleting })
  else some (.ok (), s)

def commit (s : Cases) (w : ℕ) : Cases :=
  { s with
    links := (s.links.delete fun link ↦ (w, link.id) ∈ s.deleting).commit w
    deleting := s.deleting.filter fun item ↦ item.1 ≠ w }

/-- The session is closed: what its transaction has not committed is rolled back. -/
def close (s : Cases) (w : ℕ) : Cases :=
  { s with
    links := s.links.abort w
    deleting := s.deleting.filter fun item ↦ item.1 ≠ w }

/-- A transaction has a link of the report in hand. -/
def Held (s : Cases) (report : Uuid) : Prop :=
  (∃ item ∈ s.links.pending, item.2.Touches report) ∨
    ∃ link ∈ s.links.rows, link.Touches report ∧ link.id ∈ s.deleting.map Prod.snd

instance (s : Cases) (report : Uuid) : Decidable (s.Held report) :=
  inferInstanceAs (Decidable ((∃ item ∈ s.links.pending, item.2.Touches report) ∨
    ∃ link ∈ s.links.rows, link.Touches report ∧ link.id ∈ s.deleting.map Prod.snd))

end Cases

/-- The effect of a step. The id of a link is drawn. -/
def perform (w : ℕ) : (operation : Op) → ℕ → Cases → Option (Except Fault (Reply operation) × Cases)
  | .getReport id, _, s => some (.ok (s.reports.find? fun report ↦ report.id = id), s)
  | .getReportByCaseNumber caseNumber, _, s =>
    some (.ok (s.reports.find? fun report ↦ report.caseNumber = caseNumber), s)
  | .getLink id, _, s => some (.ok (s.links.rows.find? fun link ↦ link.id = id), s)
  | .getLinkBetween reportIdA reportIdB, _, s =>
    some (s.getLinkBetween reportIdA reportIdB, { s with
      checkedAt := Function.update s.checkedAt w s.links.commits })
  | .insertLink reportIdA reportIdB linkedById linkedByUsername, id, s =>
    s.insertLink w ⟨id, reportIdA, reportIdB, linkedById, linkedByUsername⟩
  | .deleteLink id, _, s => s.deleteLink w id
  | .commit, _, s => some (.ok (), s.commit w)
  | .close, _, s => some (.ok (), s.close w)

inductive Change
  | submit (report : Report)
  | delete (report : Uuid)

def environment : Change → Cases → Option Cases
  | .submit report, s =>
    if report.id ∈ s.reports.map Report.id ∨
        report.caseNumber ∈ s.reports.map Report.caseNumber then none
    else some { s with reports := report :: s.reports }
  | .delete id, s =>
    if s.Held id then none
    else some { s with
      reports := s.reports.filter fun report ↦ report.id ≠ id
      links := s.links.delete fun link ↦ link.Touches id }

def semantics : Semantics Op Reply Fault Cases ℕ Change where
  perform := perform
  environment := environment

/-! ### The routes -/

abbrev Handler (α : Type) := Program Op Reply Fault α

abbrev call (operation : Op) : Handler (Reply operation) := Program.call operation

structure AdminUser where
  id : ℕ
  username : String
  /-- `_can_access_report`. -/
  canAccess : Uuid → Bool

inductive Answer
  | redirect (address : String) (status : ℕ)
  | refused (status : ℕ) (detail : String)
  deriving DecidableEq

inductive Request
  | linkReport (reportId : Uuid) (caseNumber : String) (currentUser : AdminUser)
  | unlinkReport (reportId : Uuid) (linkId : ℕ) (currentUser : AdminUser)

/-- `_get_authorized_report`, and what follows for the report it finds. -/
def withAuthorizedReport (reportId : Uuid) (user : AdminUser) (route : Report → Handler Answer) :
    Handler Answer :=
  (call (.getReport reportId)).withAuthorized (fun report ↦ user.canAccess report.id)
    (return .refused 404 "Not Found") route

/-- `link_cases`, and the commit of the route. -/
def linkCases (reportA reportB : Report) (actor : AdminUser) : Handler Unit := do
  let norm := normalizeIds reportA.id reportB.id
  call (.insertLink norm.1 norm.2 actor.id actor.username)
  call .commit

def linkReport (letters : Text.Letters) (reportId : Uuid) (caseNumber : String)
    (currentUser : AdminUser) : Handler Answer :=
  withAuthorizedReport reportId currentUser fun report ↦ do
    let found ← call (.getReportByCaseNumber (letters.upper (Text.strip caseNumber)))
    match found.filter fun other ↦ currentUser.canAccess other.id with
    | none => return .refused 404 "Case number not found"
    | some other =>
      if other.id = report.id then return .refused 400 "Cannot link a report to itself"
      else do
        let existing ← call (.getLinkBetween report.id other.id)
        if existing.isSome then return .refused 409 "These cases are already linked."
        else do
          linkCases report other currentUser
          return .redirect ("/admin/reports/" ++ report.id ++ "#links") 302

def unlinkReport (reportId : Uuid) (linkId : ℕ) (currentUser : AdminUser) : Handler Answer :=
  withAuthorizedReport reportId currentUser fun report ↦ do
    let found ← call (.getLink linkId)
    match found with
    | none => return .refused 404 "Not Found"
    | some link =>
      if link.reportIdA ≠ report.id ∧ link.reportIdB ≠ report.id then
        return .refused 404 "Not Found"
      else do
        call (.deleteLink link.id)
        call .commit
        return .redirect ("/admin/reports/" ++ report.id ++ "#links") 302

/-- `get_db`: the session of a request is closed, however the request ends. -/
def withSession (route : Handler Answer) : Handler Answer := route.ensuring .close

def handler (letters : Text.Letters) : Request → Handler Answer
  | .linkReport reportId caseNumber currentUser =>
    withSession (linkReport letters reportId caseNumber currentUser)
  | .unlinkReport reportId linkId currentUser => withSession (unlinkReport reportId linkId currentUser)

abbrev Step := Event Request Fault ℕ Change

abbrev Desks := System Cases (Handler Answer)

/-- Nothing is linked yet. -/
def start : Desks where
  shared := ⟨[], ⟨[], [], 0⟩, [], [], fun _ ↦ 0⟩
  worker := fun _ ↦ none

end OpenWhistle.Links
