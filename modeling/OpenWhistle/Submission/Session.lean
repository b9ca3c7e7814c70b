import OpenWhistle.Foundation.Interleaving
import OpenWhistle.Submission.Keys

/-!
# A submission session: its keys, its reports, and what happens to them

The shared state of the requests on one session: the Redis keys, the committed reports table and the
database transactions of the requests. A transaction inserts at most one report. The reports table
refuses a second row with an id or a case number that is committed; where another transaction still
holds one, the insert waits for its end. A commit is two operations, the COMMIT that is sent and the
reply that is awaited: in between it may land late, fail on the server, or lose its reply.

The environment expires keys, lands and aborts transactions, and commits the reports of other
sessions. A key of this session can expire at any moment, whatever its time to live. Fresh report ids
are random UUIDs, so a report of another session never carries one that was drawn here.

Three fields are history: the rows ever inserted here, the ids ever drawn here, and whether a submit
that committed has run its finishing script.
-/

set_option autoImplicit false
set_option relaxedAutoImplicit false

namespace OpenWhistle.Submission

open Interleaving

/-- What a handler can be interrupted by: an `Exception`, or its cancellation. -/
inductive Exn
  | error
  | cancelled
  deriving DecidableEq

/-- Calls that leave the keys and the reports table alone but may raise. -/
inductive External
  | rollback
  | readCatalogue
  | createAttachments
  | deleteStoredObjects
  deriving DecidableEq

/-- The atomic operations of the handlers. `committedCaseNumber` carries the row its caller compares
the answer with, where there is one. -/
inductive Op
  | getDraft
  | getClaimed
  | getResult
  | getdelResult
  | exists (keys : List Key)
  | assignReportId (token : Token)
  | setDraft (state : Draft)
  | deleteDraft
  | claimDraft
  | recoverDraft (token : Token) (result : Option Result)
  | giveBackDraft (token : Token) (nonce : Nonce)
  | finishClaim (nonce : Nonce) (result : Option Result)
  | external (call : External)
  | defaultOrgId
  | generatePin
  | generateCaseNumber
  | insertReport (row : Report)
  | sendCommit
  | awaitCommit
  | committedCaseNumber (reportId : ReportId) (ours : Option Report)

/-- The row that the caller of a lookup compares the answer with. -/
def Op.ours : Op → Option Report
  | .committedCaseNumber _ ours => ours
  | _ => none

/-- What an operation answers with. -/
@[reducible] def Reply : Op → Type
  | .getDraft => Option Token
  | .getClaimed => Option Token
  | .getResult => Option Result
  | .getdelResult => Option Result
  | .exists _ => Bool
  | .assignReportId _ => Option ReportId
  | .setDraft _ => Unit
  | .deleteDraft => Unit
  | .claimDraft => Option (Token × Nonce)
  | .recoverDraft _ _ => Bool
  | .giveBackDraft _ _ => Bool
  | .finishClaim _ _ => Unit
  | .external _ => Unit
  | .defaultOrgId => Option OrgId
  | .generatePin => Pin
  | .generateCaseNumber => CaseNumber
  | .insertReport _ => Bool
  | .sendCommit => Unit
  | .awaitCommit => Unit
  | .committedCaseNumber _ _ => Option CaseNumber

/-- What the environment draws for an operation. -/
structure Draw where
  uuid : ReportId := 0
  iv : ℕ := 0
  nonce : Nonce := 0
  pin : Pin := ⟨0⟩
  caseNumber : CaseNumber := ⟨0, 0⟩
  orgId : Option OrgId := none

/-- Where a request's database transaction stands. -/
inductive Transaction
  | inProgress
  | committing
  | committed
  | aborted
  deriving DecidableEq

/-- Whether a transaction may still commit, and holds the keys of the row it inserted. -/
def Transaction.isActive : Transaction → Bool
  | .inProgress | .committing => true
  | .committed | .aborted => false

structure Session where
  keys : Keys
  reports : Table
  transaction : ℕ → Transaction
  inserted : List (ℕ × Report)
  minted : List ReportId
  finished : Bool

namespace Session

/-- The row a request's transaction has inserted. -/
def rowOf (s : Session) (w : ℕ) : Option Report :=
  (s.inserted.find? fun entry ↦ entry.1 = w).map Prod.snd

/-- A transaction other than `w`'s holds a row with the property. -/
def Held (s : Session) (w : ℕ) (property : Report → Prop) : Prop :=
  ∃ entry ∈ s.inserted, entry.1 ≠ w ∧ (s.transaction entry.1).isActive = true ∧ property entry.2

instance (s : Session) (w : ℕ) (property : Report → Prop) [DecidablePred property] :
    Decidable (s.Held w property) :=
  inferInstanceAs (Decidable (∃ entry ∈ s.inserted, _))

/-- `exists` on several keys counts those that are there. -/
def hasKey (s : Session) : Key → Bool
  | .draft => s.keys.draft.isSome
  | .claimed => s.keys.claimed.isSome
  | .pending => s.keys.pending.isSome
  | .result => s.keys.result.isSome
  | .reportId => s.keys.reportId.isSome

/-- A script answers with a value and leaves new keys. -/
def answer {α : Type} (s : Session) (result : α × Keys) : Option (Except Exn α × Session) :=
  some (.ok result.1, { s with keys := result.2 })

/-- The INSERT of a report in its savepoint. It raises where the transaction is over or already
holds a row, and where the id is taken; it answers whether the case number was free. The unique
indexes are checked in the order of their creation, the primary key first. -/
def insertReport (s : Session) (w : ℕ) (row : Report) : Option (Except Exn Bool × Session) :=
  if s.transaction w ≠ .inProgress ∨ s.rowOf w ≠ none then some (.error .error, s)
  else if row.id ∈ s.reports.rows.map Report.id then some (.error .error, s)
  else if s.Held w fun other ↦ other.id = row.id then none
  else if row.caseNumber ∈ s.reports.rows.map Report.caseNumber then some (.ok false, s)
  else if s.Held w fun other ↦ other.caseNumber = row.caseNumber then none
  else some (.ok true, { s with inserted := (w, row) :: s.inserted })

/-- The COMMIT leaves the client. -/
def sendCommit (s : Session) (w : ℕ) : Option (Except Exn Unit × Session) :=
  match s.transaction w with
  | .inProgress =>
    some (.ok (), { s with transaction := Function.update s.transaction w .committing })
  | _ => some (.error .error, s)

/-- The reply to the COMMIT. -/
def awaitCommit (s : Session) (w : ℕ) : Option (Except Exn Unit × Session) :=
  match s.transaction w with
  | .committed => some (.ok (), s)
  | .committing => none
  | _ => some (.error .error, s)

/-- A COMMIT that was sent takes effect. -/
def land (s : Session) (w : ℕ) : Option Session :=
  match s.transaction w, s.rowOf w with
  | .committing, some row =>
    if h : s.reports.Fresh row then
      some { s with
        reports := s.reports.insert row h
        transaction := Function.update s.transaction w .committed }
    else none
  | _, _ => none

/-- A transaction ends without an effect: at the end of its request, with its connection, or because
the server could not commit it. -/
def abort (s : Session) (w : ℕ) : Option Session :=
  if (s.transaction w).isActive then
    some { s with transaction := Function.update s.transaction w .aborted }
  else none

/-- Another session commits a report. -/
def otherReport (s : Session) (row : Report) : Option Session :=
  if h : s.reports.Fresh row ∧ row.id ∉ s.minted then
    some { s with reports := s.reports.insert row h.1 }
  else none

end Session

/-- What happens without a request. -/
inductive Change
  | expire (key : Key)
  | land (w : ℕ)
  | abort (w : ℕ)
  | otherReport (row : Report)

/-- What the operations of the handlers do to the session. -/
def perform (w : ℕ) : (operation : Op) → Draw → Session →
    Option (Except Exn (Reply operation) × Session)
  | .getDraft, _, s => some (.ok s.keys.draft, s)
  | .getClaimed, _, s => some (.ok s.keys.claimed, s)
  | .getResult, _, s => some (.ok s.keys.result, s)
  | .getdelResult, _, s => s.answer (s.keys.result, { s.keys with result := none })
  | .exists keys, _, s => some (.ok (keys.any s.hasKey), s)
  | .assignReportId token, draw, s =>
    ({ s with minted := draw.uuid :: s.minted }).answer
      (s.keys.assignReportIdScript token draw.uuid)
  | .setDraft state, draw, s =>
    ({ s with minted := draw.uuid :: s.minted }).answer
      ((), s.keys.saveDraft draw.iv state draw.uuid)
  | .deleteDraft, _, s => s.answer ((), s.keys.deleteDraft)
  | .claimDraft, draw, s =>
    s.answer ((s.keys.claimDraftScript draw.nonce).1.map fun token ↦ (token, draw.nonce),
      (s.keys.claimDraftScript draw.nonce).2)
  | .recoverDraft token result, _, s => s.answer (s.keys.recoverDraftScript token result)
  | .giveBackDraft token nonce, _, s => s.answer (s.keys.giveBackDraftScript token nonce)
  | .finishClaim nonce result, _, s =>
    ({ s with finished := s.finished || decide (s.transaction w = Transaction.committed) }).answer
      ((), s.keys.finishClaimScript nonce result)
  | .external _, _, s => some (.ok (), s)
  | .defaultOrgId, draw, s => some (.ok draw.orgId, s)
  | .generatePin, draw, s => some (.ok draw.pin, s)
  | .generateCaseNumber, draw, s => some (.ok draw.caseNumber, s)
  | .insertReport row, _, s => s.insertReport w row
  | .sendCommit, _, s => s.sendCommit w
  | .awaitCommit, _, s => s.awaitCommit w
  | .committedCaseNumber reportId _, _, s =>
    some (.ok ((s.reports.rows.find? fun row ↦ row.id = reportId).map Report.caseNumber), s)

/-- What happens to the session without a request. -/
def environment : Change → Session → Option Session
  | .expire key, s => some { s with keys := s.keys.expire key }
  | .land w, s => s.land w
  | .abort w, s => s.abort w
  | .otherReport row, s => s.otherReport row

def semantics : Semantics Op Reply Exn Session Draw Change where
  perform := perform
  environment := environment

/-! ### What an operation can do -/

theorem rowOf_insert_self (s : Session) (w : ℕ) (row : Report) :
    { s with inserted := (w, row) :: s.inserted }.rowOf w = some row := by
  simp [Session.rowOf]

theorem rowOf_insert_of_ne (s : Session) {v w : ℕ} (h : v ≠ w) (row : Report) :
    { s with inserted := (w, row) :: s.inserted }.rowOf v = s.rowOf v := by
  simp [Session.rowOf, Ne.symm h]

/-- What an INSERT does: nothing, or it adds the row of a transaction that had none. -/
theorem insertReport_cases {s t : Session} {w : ℕ} {row : Report} {reply : Except Exn Bool}
    (h : s.insertReport w row = some (reply, t)) :
    (reply ≠ .ok true ∧ t = s) ∨
    (reply = .ok true ∧ s.transaction w = .inProgress ∧ s.rowOf w = none ∧
      t = { s with inserted := (w, row) :: s.inserted }) := by
  unfold Session.insertReport at h
  split_ifs at h with hover hid hheld hcase hheldCase
  · cases h
    exact .inl ⟨by simp, rfl⟩
  · cases h
    exact .inl ⟨by simp, rfl⟩
  · cases h
    exact .inl ⟨by simp, rfl⟩
  · rw [not_or, not_not, not_not] at hover
    cases h
    exact .inr ⟨rfl, hover.1, hover.2, rfl⟩

theorem sendCommit_cases {s t : Session} {w : ℕ} {reply : Except Exn Unit}
    (h : s.sendCommit w = some (reply, t)) :
    t = s ∨ (s.transaction w = .inProgress ∧
      t = { s with transaction := Function.update s.transaction w .committing }) := by
  unfold Session.sendCommit at h
  split at h
  · rename_i hprogress
    cases h
    exact .inr ⟨hprogress, rfl⟩
  · cases h
    exact .inl rfl

theorem awaitCommit_cases {s t : Session} {w : ℕ} {reply : Except Exn Unit}
    (h : s.awaitCommit w = some (reply, t)) :
    t = s ∧ (reply = .ok () → s.transaction w = .committed) := by
  unfold Session.awaitCommit at h
  split at h
  · rename_i hcommitted
    cases h
    exact ⟨rfl, fun _ ↦ hcommitted⟩
  · cases h
  · cases h
    exact ⟨rfl, by simp⟩

theorem land_cases {s t : Session} {w : ℕ} (h : s.land w = some t) :
    ∃ row, ∃ hfresh : s.reports.Fresh row, s.rowOf w = some row ∧
      t = { s with
        reports := s.reports.insert row hfresh
        transaction := Function.update s.transaction w .committed } := by
  unfold Session.land at h
  split at h
  · rename_i row _ hrow
    split_ifs at h with hfresh
    cases h
    exact ⟨row, hfresh, hrow, rfl⟩
  · cases h

theorem abort_cases {s t : Session} {w : ℕ} (h : s.abort w = some t) :
    (s.transaction w).isActive = true ∧
      t = { s with transaction := Function.update s.transaction w .aborted } := by
  unfold Session.abort at h
  split_ifs at h with hactive
  cases h
  exact ⟨hactive, rfl⟩

theorem otherReport_cases {s t : Session} {row : Report} (h : s.otherReport row = some t) :
    row.id ∉ s.minted ∧ ∃ hfresh : s.reports.Fresh row,
      t = { s with reports := s.reports.insert row hfresh } := by
  unfold Session.otherReport at h
  split_ifs at h with hother
  cases h
  exact ⟨hother.2, hother.1, rfl⟩

/-! ### What only grows -/

/-- The rows of the table, and the row every transaction has inserted, stay. -/
structure Grows (s t : Session) : Prop where
  rows : ∀ row ∈ s.reports.rows, row ∈ t.reports.rows
  rowOf : ∀ w row, s.rowOf w = some row → t.rowOf w = some row

namespace Grows

theorem refl (s : Session) : Grows s s := ⟨fun _ h ↦ h, fun _ _ h ↦ h⟩

theorem trans {s t u : Session} (hst : Grows s t) (htu : Grows t u) : Grows s u :=
  ⟨fun row h ↦ htu.rows row (hst.rows row h), fun w row h ↦ htu.rowOf w row (hst.rowOf w row h)⟩

/-- Whatever leaves the table and the inserted rows alone. -/
theorem of_eq {s t : Session} (hreports : t.reports = s.reports) (hinserted : t.inserted = s.inserted) :
    Grows s t := by
  refine ⟨fun row h ↦ ?_, fun w row h ↦ ?_⟩
  · rw [hreports]
    exact h
  · rw [Session.rowOf, hinserted]
    exact h

end Grows

theorem grows_insert {s : Session} {w : ℕ} (row : Report) (h : s.rowOf w = none) :
    Grows s { s with inserted := (w, row) :: s.inserted } := by
  refine ⟨fun _ hrow ↦ hrow, fun v other hother ↦ ?_⟩
  have hne : v ≠ w := by
    rintro rfl
    rw [h] at hother
    cases hother
  rw [rowOf_insert_of_ne s hne]
  exact hother

theorem grows_perform {w : ℕ} {operation : Op} {draw : Draw} {s t : Session}
    {reply : Except Exn (Reply operation)} (h : perform w operation draw s = some (reply, t)) :
    Grows s t := by
  cases operation with
  | insertReport row =>
    rcases insertReport_cases h with ⟨-, rfl⟩ | ⟨-, -, hnone, rfl⟩
    · exact Grows.refl t
    · exact grows_insert row hnone
  | sendCommit =>
    rcases sendCommit_cases h with rfl | ⟨-, rfl⟩
    · exact Grows.refl t
    · exact Grows.of_eq rfl rfl
  | awaitCommit =>
    obtain ⟨rfl, -⟩ := awaitCommit_cases h
    exact Grows.refl t
  | _ =>
    cases h
    exact Grows.of_eq rfl rfl

theorem grows_environment {change : Change} {s t : Session} (h : environment change s = some t) :
    Grows s t := by
  cases change with
  | expire key =>
    cases h
    exact Grows.of_eq rfl rfl
  | land w =>
    obtain ⟨row, hfresh, -, rfl⟩ := land_cases h
    exact ⟨fun other hother ↦ List.mem_cons_of_mem row hother, fun _ _ hrow ↦ hrow⟩
  | abort w =>
    obtain ⟨-, rfl⟩ := abort_cases h
    exact Grows.of_eq rfl rfl
  | otherReport row =>
    obtain ⟨-, hfresh, rfl⟩ := otherReport_cases h
    exact ⟨fun other hother ↦ List.mem_cons_of_mem row hother, fun _ _ hrow ↦ hrow⟩

end OpenWhistle.Submission
