import OpenWhistle.Foundation.Savepoints
import OpenWhistle.Records.Store

/-!
# Creating a report

`create_report` draws a case number at random, which another report may have. It inserts the report
and its receipt in a savepoint inside the transaction of its caller, and when the insert comes to a
unique violation on the case number it tries again with another number, five times in all. Any other
error goes to the caller, and so does the fifth violation.

What the two inserts of an attempt come to is given: nothing is assumed about it. An attempt adds
both rows or leaves the work from before it, so what the caller finds is told by the first attempt
that is not a collision.
-/

set_option autoImplicit false
set_option relaxedAutoImplicit false

namespace OpenWhistle.Records.Creation

open Cases (Row)
open Identity (sealToken)
open Reporter (generateCaseNumber generatePin)
open Savepoints (Session firstError)
open Submission (SubmissionMode)
open Threads (dayFloor)

variable {Hash Rest : Type}

/-! ### The errors of an insert -/

/-- The exception of the driver. It may lack each of the two attributes. -/
structure Cause where
  sqlstate : Option String
  constraintName : Option String
  deriving DecidableEq

/-- An exception that leaves a flush. -/
structure DbError where
  /-- It is an `IntegrityError`. -/
  integrity : Bool
  /-- The cause of the DBAPI error, where there are both. -/
  cause : Option Cause
  deriving DecidableEq

/-- `_is_case_number_collision`. -/
def isCaseNumberCollision (error : DbError) : Bool :=
  decide (error.cause.bind Cause.sqlstate = some "23505") &&
    decide (error.cause.bind Cause.constraintName = some "ix_reports_case_number")

/-- The error of one attempt, if it has one: of the report's insert, or of the message's. -/
def failure (outcomes : ℕ → Option DbError × Option DbError) (attempt : ℕ) : Option DbError :=
  (outcomes attempt).1 <|> (outcomes attempt).2

/-- An attempt ends in a unique violation on the case number. -/
def Collides (outcomes : ℕ → Option DbError × Option DbError) (attempt : ℕ) : Prop :=
  ∃ error, failure outcomes attempt = some error ∧ error.integrity = true ∧
    isCaseNumberCollision error = true

/-! ### The rows -/

/-- The arguments of `create_report`. -/
structure Request where
  category : String
  description : String
  submissionMode : SubmissionMode
  locationId : Option String
  confidentialNameEnc : Option Fernet.Token
  confidentialContactEnc : Option Fernet.Token
  secureEmailEnc : Option Fernet.Token
  commit : Bool
  reportId : Option String
  orgId : Option String

/-- What is drawn at random: beside what a submit draws, an id for a report that is given none, and
one for the message of each attempt. -/
structure Draws where
  chance : Chance
  freshId : String
  messageId : ℕ → String

/-- What is computed before the first attempt. -/
structure Prepared (Hash : Type) where
  pinHash : Hash
  encryptedDek : Fernet.Token
  encDescription : Fernet.Token
  orgId : Option String
  encReceipt : Fernet.Token
  today : ℕ
  fixedId : String

variable (site : Site Hash) (request : Request) (draws : Draws) (clock : Reading → ℕ)

/-- `none` where the fresh data key cannot be unwrapped. -/
def prepare (db : Database Hash Rest) : Option (Prepared Hash) :=
  let encryptedDek := sealToken site.keys.mek draws.chance.dek (draws.chance.iv .dek)
  (makeReportFernet site encryptedDek).map fun reportFernet ↦
    { pinHash := site.pins.hashpw (generatePin draws.chance.pin) draws.chance.salt
      encryptedDek := encryptedDek
      encDescription := sealToken reportFernet request.description (draws.chance.iv .description)
      orgId := request.orgId <|> db.defaultOrgId
      encReceipt := sealToken reportFernet site.receipt (draws.chance.iv .receipt)
      today := dayFloor (clock .received)
      fixedId := request.reportId.getD draws.freshId }

/-- The row of one attempt. -/
def reportOf (prepared : Prepared Hash) (attempt : ℕ) : Report Hash where
  id := prepared.fixedId
  caseNumber :=
    generateCaseNumber (dateOf (clock (.numbered attempt))).year (draws.chance.suffix attempt)
  pinHash := prepared.pinHash
  orgId := prepared.orgId
  category := request.category
  description := .sealed prepared.encDescription
  encryptedDek := some prepared.encryptedDek
  submissionMode := request.submissionMode
  locationId := request.locationId
  confidentialName := request.confidentialNameEnc
  confidentialContact := request.confidentialContactEnc
  secureEmail := request.secureEmailEnc
  row := Row.submitted feedbackDue prepared.today
  feedbackSentAt := none

/-- The receipt of one attempt. -/
def receiptOf (prepared : Prepared Hash) (attempt : ℕ) : Message where
  id := draws.messageId attempt
  report := (reportOf request draws clock prepared attempt).id
  sender := .admin
  content := .sealed prepared.encReceipt
  sentAt := prepared.today

/-! ### The attempts -/

/-- What `create_report` raises. -/
inductive Raised
  | database (error : DbError)
  | invalidToken
  /-- The `assert` after the loop. -/
  | assertion
  deriving DecidableEq

/-- What the flush of one attempt writes, with the errors of its statements: the report goes before
the message that refers to it. -/
def addedIn (outcomes : ℕ → Option DbError × Option DbError) (prepared : Prepared Hash)
    (attempt : ℕ) : List (Savepoints.Added (Database Hash Rest) DbError) :=
  [⟨fun db ↦ db.write (.report (reportOf request draws clock prepared attempt)),
      (outcomes attempt).1⟩,
    ⟨fun db ↦ db.write (.message (receiptOf request draws clock prepared attempt)),
      (outcomes attempt).2⟩]

/-- The loop, with so many attempts left, and what follows it. -/
def attempts (outcomes : ℕ → Option DbError × Option DbError) (prepared : Prepared Hash) :
    (left attempt : ℕ) → (lastExc : Option DbError) → Session (Database Hash Rest) →
    Session (Database Hash Rest) × Except Raised (Report Hash × String)
  | 0, _, none, session => (session, .error .assertion)
  | 0, _, some error, session => (session, .error (.database error))
  | left + 1, attempt, _, session =>
    let tried := session.nested (addedIn request draws clock outcomes prepared attempt)
    match tried.2 with
    | none =>
      (if request.commit then tried.1.commit else tried.1.flush,
        .ok (reportOf request draws clock prepared attempt, generatePin draws.chance.pin))
    | some error =>
      if error.integrity && isCaseNumberCollision error then
        attempts outcomes prepared left (attempt + 1) (some error) tried.1
      else (tried.1, .error (.database error))

/-- `create_report`, in the session of its caller. -/
def createReport (outcomes : ℕ → Option DbError × Option DbError)
    (session : Session (Database Hash Rest)) :
    Session (Database Hash Rest) × Except Raised (Report Hash × String) :=
  match prepare site request draws clock session.work with
  | none => (session, .error .invalidToken)
  | some prepared => attempts request draws clock outcomes prepared 5 0 none session

/-! ### What the caller finds -/

/-- The report and its receipt are there, over the work the session had, and committed if that was
asked for. -/
structure Filed (commit : Bool) (report : Report Hash) (receipt : Message)
    (session after : Session (Database Hash Rest)) : Prop where
  state : after.transaction.state = (session.work.write (.report report)).write (.message receipt)
  sound : after.transaction.failed = false
  pending : after.pending = []
  committed : after.committed =
    if commit then some after.transaction.state else session.committed

/-- The work the session had is there, written, and nothing else: the transaction goes on, and the
savepoints of the caller are where they were. -/
structure AsBefore (session after : Session (Database Hash Rest)) : Prop where
  state : after.transaction.state = session.work
  sound : after.transaction.failed = false
  pending : after.pending = []
  committed : after.committed = session.committed
  saved : session.transaction.saved <:+ after.transaction.saved

/-- A fresh data key can be unwrapped. -/
theorem makeReportFernet_sealToken (site : Site Hash) (dek : String) (iv : ℕ) :
    makeReportFernet site (sealToken site.keys.mek dek iv) = some (site.keys.report dek) := by
  unfold makeReportFernet sealToken
  rw [Fernet.decrypt_encryptAtTime]
  rfl

theorem exists_prepare (db : Database Hash Rest) :
    ∃ prepared, prepare site request draws clock db = some prepared ∧
      prepared.fixedId = request.reportId.getD draws.freshId :=
  ⟨_, congrArg (Option.map _) (makeReportFernet_sealToken site _ _), rfl⟩

variable {site request draws clock}
variable {outcomes : ℕ → Option DbError × Option DbError} {prepared : Prepared Hash}
  {session : Session (Database Hash Rest)}

theorem firstError_addedIn (attempt : ℕ) :
    firstError (addedIn request draws clock outcomes prepared attempt :
      List (Savepoints.Added (Database Hash Rest) DbError)) = failure outcomes attempt := by
  unfold firstError addedIn failure
  rcases outcomes attempt with ⟨_ | error, _ | other⟩ <;> rfl

/-- An attempt without an error files the report. -/
theorem filed_of_no_error (hsound : session.transaction.failed = false) {attempt : ℕ}
    (hnone : failure outcomes attempt = none) :
    ∃ after, session.nested (addedIn request draws clock outcomes prepared attempt) =
        (after, none) ∧
      Filed request.commit (reportOf request draws clock prepared attempt)
        (receiptOf request draws clock prepared attempt) session
        (if request.commit then after.commit else after.flush) := by
  refine ⟨_, Session.nested_of_no_error hsound ((firstError_addedIn attempt).trans hnone), ?_⟩
  cases request.commit with
  | true => exact ⟨rfl, rfl, rfl, rfl⟩
  | false => exact ⟨rfl, hsound, rfl, rfl⟩

/-- One with an error leaves the session as it was. -/
theorem asBefore_of_error (hsound : session.transaction.failed = false) {attempt : ℕ}
    {error : DbError} (herror : failure outcomes attempt = some error) :
    ∃ after, session.nested (addedIn request draws clock outcomes prepared attempt) =
        (after, some error) ∧ AsBefore session after :=
  ⟨_, Session.nested_of_error hsound ((firstError_addedIn attempt).trans herror),
    ⟨rfl, rfl, rfl, rfl, List.suffix_cons _ _⟩⟩

theorem AsBefore.work_eq {after : Session (Database Hash Rest)} (h : AsBefore session after) :
    after.work = session.work := by
  rw [Session.work, h.pending]
  exact h.state

theorem AsBefore.trans {middle after : Session (Database Hash Rest)} (h : AsBefore session middle)
    (h' : AsBefore middle after) : AsBefore session after where
  state := h'.state.trans h.work_eq
  sound := h'.sound
  pending := h'.pending
  committed := h'.committed.trans h.committed
  saved := h.saved.trans h'.saved

theorem Filed.of_asBefore {middle after : Session (Database Hash Rest)} {commit : Bool}
    {report : Report Hash} {receipt : Message} (h : AsBefore session middle)
    (h' : Filed commit report receipt middle after) : Filed commit report receipt session after where
  state := by rw [h'.state, h.work_eq]
  sound := h'.sound
  pending := h'.pending
  committed := by rw [h'.committed, h.committed]

/-! ### The loop -/

/-- The attempt that ends the loop: so many collisions came before it, and it succeeds or fails
with another error. -/
def EndsAt (outcomes : ℕ → Option DbError × Option DbError) (first left k : ℕ) : Prop :=
  first ≤ k ∧ k < first + left ∧ ∀ j, first ≤ j → j < k → Collides outcomes j

/-- What the loop comes to: a report filed in an attempt without error, an error that is not a
collision, or a collision in the last attempt. -/
inductive Outcome (request : Request) (draws : Draws) (clock : Reading → ℕ)
    (outcomes : ℕ → Option DbError × Option DbError) (prepared : Prepared Hash)
    (first left : ℕ) (session : Session (Database Hash Rest)) :
    Session (Database Hash Rest) × Except Raised (Report Hash × String) → Prop
  | filed {k : ℕ} {after : Session (Database Hash Rest)} (hk : EndsAt outcomes first left k)
      (hnone : failure outcomes k = none)
      (hfiled : Filed request.commit (reportOf request draws clock prepared k)
        (receiptOf request draws clock prepared k) session after) :
      Outcome request draws clock outcomes prepared first left session
        (after, .ok (reportOf request draws clock prepared k, generatePin draws.chance.pin))
  | raised {k : ℕ} {error : DbError} {after : Session (Database Hash Rest)}
      (hk : EndsAt outcomes first left k) (herror : failure outcomes k = some error)
      (hlast : Collides outcomes k → k + 1 = first + left) (hafter : AsBefore session after) :
      Outcome request draws clock outcomes prepared first left session
        (after, .error (.database error))

theorem collides_iff {attempt : ℕ} {error : DbError}
    (herror : failure outcomes attempt = some error) :
    Collides outcomes attempt ↔ (error.integrity && isCaseNumberCollision error) = true := by
  rw [Bool.and_eq_true]
  constructor
  · rintro ⟨other, hother, hcollision⟩
    rwa [Option.some.inj (herror.symm.trans hother)]
  · exact fun hcollision ↦ ⟨error, herror, hcollision⟩

theorem endsAt_self {first left : ℕ} : EndsAt outcomes first (left + 1) first :=
  ⟨le_rfl, by omega, fun _ hfirst hless ↦ absurd hless (not_lt.mpr hfirst)⟩

theorem EndsAt.of_collision {first left k : ℕ} (h : EndsAt outcomes (first + 1) left k)
    (hcollision : Collides outcomes first) : EndsAt outcomes first (left + 1) k := by
  obtain ⟨hfirst, hless, hbefore⟩ := h
  refine ⟨by omega, by omega, fun j hj hjk ↦ ?_⟩
  rcases hj.eq_or_lt with rfl | hj
  · exact hcollision
  · exact hbefore j hj hjk

/-- A collision leaves the rest of the loop to the attempts that follow. -/
theorem Outcome.of_collision {first left : ℕ} {middle : Session (Database Hash Rest)}
    {result : Session (Database Hash Rest) × Except Raised (Report Hash × String)}
    (h : Outcome request draws clock outcomes prepared (first + 1) left middle result)
    (hcollision : Collides outcomes first) (hbefore : AsBefore session middle) :
    Outcome request draws clock outcomes prepared first (left + 1) session result := by
  cases h with
  | filed hk hnone hfiled => exact .filed (hk.of_collision hcollision) hnone (hfiled.of_asBefore hbefore)
  | raised hk herror hlast hafter =>
    refine .raised (hk.of_collision hcollision) herror (fun hcollides ↦ ?_) (hbefore.trans hafter)
    have := hlast hcollides
    omega

theorem attempts_outcome (left first : ℕ) (lastExc : Option DbError)
    (hsound : session.transaction.failed = false) :
    Outcome request draws clock outcomes prepared first (left + 1) session
      (attempts request draws clock outcomes prepared (left + 1) first lastExc session) := by
  induction left generalizing first lastExc session with
  | zero =>
    unfold attempts
    cases hfailure : failure outcomes first with
    | none =>
      obtain ⟨after, hnested, hfiled⟩ := filed_of_no_error hsound hfailure
      rw [hnested]
      exact .filed endsAt_self hfailure hfiled
    | some error =>
      obtain ⟨after, hnested, hafter⟩ := asBefore_of_error hsound hfailure
      rw [hnested]
      dsimp only
      split
      · exact .raised endsAt_self hfailure (fun _ ↦ rfl) hafter
      · exact .raised endsAt_self hfailure (fun _ ↦ rfl) hafter
  | succ left ih =>
    unfold attempts
    cases hfailure : failure outcomes first with
    | none =>
      obtain ⟨after, hnested, hfiled⟩ := filed_of_no_error hsound hfailure
      rw [hnested]
      exact .filed endsAt_self hfailure hfiled
    | some error =>
      obtain ⟨after, hnested, hafter⟩ := asBefore_of_error hsound hfailure
      rw [hnested]
      dsimp only
      split
      · rename_i hcollision
        exact (ih (first + 1) (some error) hafter.sound).of_collision
          ((collides_iff hfailure).mpr hcollision) hafter
      · rename_i hother
        exact .raised endsAt_self hfailure
          (fun hcollides ↦ absurd ((collides_iff hfailure).mp hcollides) hother) hafter

/-- Whatever the inserts come to, and whatever the caller has done in its transaction, written or
not: `create_report` returns in the first attempt without an error, with the report of the given id
and one receipt over the caller's work, or it raises and leaves that work alone. Only collisions come
before, and of these there are at most five. -/
theorem one_report_or_none (site : Site Hash) (request : Request) (draws : Draws)
    (clock : Reading → ℕ) (outcomes : ℕ → Option DbError × Option DbError)
    (db : Database Hash Rest) (saved : List (Database Hash Rest))
    (pending : List (Database Hash Rest → Database Hash Rest))
    (committed : Option (Database Hash Rest)) :
    let session : Session (Database Hash Rest) := ⟨⟨db, saved, false⟩, pending, committed⟩
    ∃ after result, createReport site request draws clock outcomes session = (after, result) ∧
      ∃ k < 5, (∀ j < k, Collides outcomes j) ∧
        ((failure outcomes k = none ∧
            ∃ report receipt, result = .ok (report, generatePin draws.chance.pin) ∧
              report.id = request.reportId.getD draws.freshId ∧
              receipt.report = report.id ∧ receipt.sender = .admin ∧
              Filed request.commit report receipt session after) ∨
          ∃ error, failure outcomes k = some error ∧ (Collides outcomes k → k = 4) ∧
            result = .error (.database error) ∧ AsBefore session after) := by
  intro session
  obtain ⟨prepared, hprepare, hid⟩ := exists_prepare site request draws clock session.work
  have houtcome : Outcome request draws clock outcomes prepared 0 5 session
      (createReport site request draws clock outcomes session) := by
    unfold createReport
    rw [hprepare]
    exact attempts_outcome 4 0 none rfl
  generalize createReport site request draws clock outcomes session = ended at houtcome
  cases houtcome with
  | @filed k after hk hnone hfiled =>
    obtain ⟨-, hless, hbefore⟩ := hk
    exact ⟨after, _, rfl, k, by omega, fun j hj ↦ hbefore j (Nat.zero_le j) hj,
      Or.inl ⟨hnone, _, _, rfl, hid, rfl, rfl, hfiled⟩⟩
  | @raised k error after hk herror hlast hafter =>
    obtain ⟨-, hless, hbefore⟩ := hk
    refine ⟨after, _, rfl, k, by omega, fun j hj ↦ hbefore j (Nat.zero_le j) hj,
      Or.inr ⟨error, herror, fun hcollides ↦ ?_, rfl, hafter⟩⟩
    have := hlast hcollides
    omega

end OpenWhistle.Records.Creation
