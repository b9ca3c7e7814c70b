import Mathlib.Algebra.GroupWithZero.Nat
import Mathlib.Data.List.Basic
import Mathlib.Data.Nat.Notation

/-!
# Drafts, results and reports of a submission session

The data the submission handlers read and write. A draft is the JSON object of the wizard: every
entry may be absent, and the object without entries is what a loader gets when there is no draft.
Redis holds it sealed under a key that only the reporter's cookie carries; the ciphertext of the same
draft differs from one save to the next, so a token is its plaintext together with the
initialisation vector it was sealed with. The result of a submit is kept the same way.

PINs are stored under an ideal hash: `PinHash` is the free constructor on PINs, so a PIN hashes to a
stored value only if it is the PIN that value was made from. `Table` is the reports table with its
two unique columns; a table that holds two rows with one id, or with one case number, cannot be
built.
-/

set_option autoImplicit false
set_option relaxedAutoImplicit false

namespace OpenWhistle.Submission

/-- A report's primary key, a random UUID. -/
abbrev ReportId := ℕ

/-- The nonce of one claim. -/
abbrev Nonce := ℕ

/-- An organisation's id. -/
abbrev OrgId := ℕ

inductive SubmissionMode
  | anonymous
  | confidential
  deriving DecidableEq

/-- The codes of the wizard's errors. -/
inductive ErrorCode
  | modeRequired
  | invalidLocation
  | categoryRequired
  | descriptionTooShort
  | descriptionTooLong
  | emailInvalid
  | attachmentsRejected
  | attachmentsNoRoom
  | sessionIncomplete
  | submitFailed
  deriving DecidableEq

/-- The wizard's steps. -/
def stepMode : ℕ := 1
def stepLocation : ℕ := 2
def stepCategory : ℕ := 3
def stepAttachments : ℕ := 5
def stepReview : ℕ := 6

/-- An uploaded file, as the draft carries it. -/
structure DraftFile where
  filename : String
  contentType : String
  data : List UInt8
  deriving DecidableEq

/-- The wizard's state: a JSON object, every entry of which may be absent. -/
structure Draft where
  step : Option ℕ := none
  submissionMode : Option SubmissionMode := none
  confidentialName : Option String := none
  confidentialContact : Option String := none
  secureEmail : Option String := none
  locationId : Option String := none
  category : Option String := none
  description : Option String := none
  fileMeta : Option (List (String × ℕ)) := none
  fileData : Option (List DraftFile) := none
  orgId : Option OrgId := none
  reportId : Option ReportId := none
  flashError : Option ErrorCode := none
  flashFieldErrors : Option (List (String × String)) := none
  deriving DecidableEq

namespace Draft

/-- The object without entries, which counts as no draft. -/
def isEmpty (state : Draft) : Bool := decide (state = {})

/-- What `_save_submission` stores: a draft with entries gets a report id unless it has one. -/
def withReportId (state : Draft) (fresh : ReportId) : Draft :=
  if state.isEmpty then state else { state with reportId := some (state.reportId.getD fresh) }

/-- A step of the wizard changes any entry but the report id. -/
def edited (state answers : Draft) : Draft := { answers with reportId := state.reportId }

/-- `_fail`: the draft marked with an error to show once. -/
def flagged (state : Draft) (stepNo : ℕ) (error : ErrorCode) : Draft :=
  { state with step := some stepNo, flashError := some error }

theorem not_isEmpty_of_reportId {state : Draft} {id : ReportId} (h : state.reportId = some id) :
    state.isEmpty = false := by
  rw [isEmpty, decide_eq_false_iff_not]
  rintro rfl
  cases h

theorem not_isEmpty_of_step {state : Draft} {stepNo : ℕ} (h : state.step = some stepNo) :
    state.isEmpty = false := by
  rw [isEmpty, decide_eq_false_iff_not]
  rintro rfl
  cases h

/-- A draft that carries a report id is saved with that id. -/
theorem withReportId_of_some {state : Draft} {id : ReportId} (h : state.reportId = some id)
    (fresh : ReportId) : (state.withReportId fresh).reportId = some id := by
  simp [withReportId, not_isEmpty_of_reportId h, h]

end Draft

/-- A sealed draft. -/
structure Token where
  iv : ℕ
  state : Draft
  deriving DecidableEq

theorem numbers_ne_zero : 100000 ≠ 0 := by decide

instance neZeroNumbers : NeZero 100000 := ⟨numbers_ne_zero⟩

/-- A case number `OW-<year>-<number>`. -/
structure CaseNumber where
  year : ℕ
  number : Fin 100000
  deriving DecidableEq

/-- A reporter's PIN, a random UUID. -/
structure Pin where
  uuid : ℕ
  deriving DecidableEq

/-- A hashed PIN, under an ideal hash. -/
structure PinHash where
  ofPin : Pin
  deriving DecidableEq

def hashPin (pin : Pin) : PinHash := ⟨pin⟩

/-- What a success page shows, and what the stored result of a submit holds. -/
structure Result where
  caseNumber : CaseNumber
  pin : Option Pin
  attachments : List (String × ℕ)
  deriving DecidableEq

/-- The result of a report whose PIN is no longer known. -/
def received (caseNumber : CaseNumber) : Result := ⟨caseNumber, none, []⟩

/-- A row of the reports table. The columns filled from the reporter's answers are kept as the draft
they are filled from. -/
structure Report where
  id : ReportId
  caseNumber : CaseNumber
  pinHash : PinHash
  orgId : Option OrgId
  answers : Draft
  deriving DecidableEq

/-- The committed rows of the reports table. Its primary key and the unique index on the case number
are part of the structure. -/
structure Table where
  rows : List Report
  primaryKey : (rows.map Report.id).Nodup
  caseNumbers : (rows.map Report.caseNumber).Nodup

namespace Table

/-- A row violates neither unique column. -/
def Fresh (table : Table) (row : Report) : Prop :=
  row.id ∉ table.rows.map Report.id ∧ row.caseNumber ∉ table.rows.map Report.caseNumber

instance (table : Table) (row : Report) : Decidable (table.Fresh row) :=
  inferInstanceAs (Decidable (_ ∧ _))

def insert (table : Table) (row : Report) (h : table.Fresh row) : Table where
  rows := row :: table.rows
  primaryKey := List.nodup_cons.mpr ⟨h.1, table.primaryKey⟩
  caseNumbers := List.nodup_cons.mpr ⟨h.2, table.caseNumbers⟩

/-- At most one row carries a given id. -/
theorem length_filter_id_le_one (table : Table) (id : ReportId) :
    (table.rows.filter fun row ↦ row.id = id).length ≤ 1 := by
  have hnodup : ((table.rows.filter fun row ↦ row.id = id).map Report.id).Nodup :=
    table.primaryKey.sublist (List.filter_sublist.map _)
  have hconst : ∀ a ∈ (table.rows.filter fun row ↦ row.id = id).map Report.id, a = id := by
    intro a ha
    obtain ⟨row, hrow, rfl⟩ := List.mem_map.mp ha
    exact of_decide_eq_true (List.mem_filter.mp hrow).2
  rw [← List.length_map Report.id, List.eq_replicate_of_mem hconst, List.length_replicate]
  rw [List.eq_replicate_of_mem hconst, List.nodup_replicate] at hnodup
  simpa using hnodup

end Table

end OpenWhistle.Submission
