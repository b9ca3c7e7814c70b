import Mathlib.Data.List.Basic

/-!
# Savepoints

A transaction of a database with what it sees, what there was at each savepoint it has set, and
whether a statement has failed in it: then it runs no other until it goes back to a savepoint. A
session holds objects that are not written yet. A nested transaction writes those the session has
from before, sets a savepoint, and writes what was added in it at its end. It is released when each
of its statements succeeds, and taken back as a whole at the first that does not.
-/

set_option autoImplicit false
set_option relaxedAutoImplicit false

namespace Savepoints

structure Transaction (σ : Type) where
  state : σ
  /-- The innermost savepoint comes first. -/
  saved : List σ
  failed : Bool

namespace Transaction

variable {σ : Type}

/-- `SAVEPOINT`. -/
def savepoint (transaction : Transaction σ) : Transaction σ :=
  { transaction with saved := transaction.state :: transaction.saved }

/-- `RELEASE SAVEPOINT`, of the innermost one. -/
def release (transaction : Transaction σ) : Transaction σ :=
  { transaction with saved := transaction.saved.tail }

/-- `ROLLBACK TO SAVEPOINT`, to the innermost one. It stays set. -/
def rollbackTo (transaction : Transaction σ) : Transaction σ :=
  { state := transaction.saved.headD transaction.state
    saved := transaction.saved
    failed := false }

/-- A statement that makes a change. A transaction that has failed runs none. -/
def change (transaction : Transaction σ) (write : σ → σ) : Transaction σ :=
  if transaction.failed then transaction
  else { transaction with state := write transaction.state }

/-- A statement that fails. -/
def fail (transaction : Transaction σ) : Transaction σ := { transaction with failed := true }

end Transaction

/-- What has been added to a session: what writing it does, and the error of its statement, if it
comes to one. -/
structure Added (σ ε : Type) where
  write : σ → σ
  error : Option ε

variable {σ ε : Type}

/-- The statements of a flush, up to the first that fails. -/
def writeAll : List (Added σ ε) → Transaction σ → Transaction σ × Option ε
  | [], transaction => (transaction, none)
  | added :: rest, transaction =>
    match added.error with
    | none => writeAll rest (transaction.change added.write)
    | some error => (transaction.fail, some error)

structure Session (σ : Type) where
  transaction : Transaction σ
  /-- What the objects that are added and not flushed write. -/
  pending : List (σ → σ)
  /-- What the session has committed, as it was then. -/
  committed : Option σ

namespace Session

variable (session : Session σ)

/-- What the transaction sees once everything the session holds is written. -/
def work : σ := session.pending.foldl (fun state write ↦ write state) session.transaction.state

/-- What is pending, with statements that succeed. -/
def sound : List (Added σ Empty) := session.pending.map fun write ↦ ⟨write, none⟩

/-- A flush in which no statement fails. -/
def flush : Session σ :=
  { session with
    transaction := (writeAll session.sound session.transaction).1
    pending := [] }

/-- The end of the transaction. The session goes on with another one. -/
def commit : Session σ :=
  { transaction := ⟨session.flush.transaction.state, [], false⟩
    pending := []
    committed := some session.flush.transaction.state }

/-- `begin_nested` around what is added, with the error it leaves with. The connection is still there
after an error, so that going back to the savepoint succeeds. -/
def nested (added : List (Added σ ε)) : Session σ × Option ε :=
  let written := writeAll added session.flush.transaction.savepoint
  match written.2 with
  | none => ({ session.flush with transaction := written.1.release }, none)
  | some error => ({ session.flush with transaction := written.1.rollbackTo }, some error)

end Session

/-! ### What a nested transaction comes to -/

/-- The first of several errors. -/
def firstError (added : List (Added σ ε)) : Option ε := added.findSome? Added.error

/-- What is written when every statement succeeds. -/
def applyAll (added : List (Added σ ε)) (state : σ) : σ :=
  added.foldl (fun state added ↦ added.write state) state

theorem snd_writeAll (added : List (Added σ ε)) (transaction : Transaction σ) :
    (writeAll added transaction).2 = firstError added := by
  induction added generalizing transaction with
  | nil => rfl
  | cons one rest ih =>
    rw [firstError, List.findSome?_cons]
    unfold writeAll
    cases one.error with
    | none => exact ih _
    | some error => rfl

/-- No statement touches a savepoint. -/
theorem saved_writeAll (added : List (Added σ ε)) (transaction : Transaction σ) :
    (writeAll added transaction).1.saved = transaction.saved := by
  induction added generalizing transaction with
  | nil => rfl
  | cons one rest ih =>
    unfold writeAll
    cases one.error with
    | none =>
      refine (ih _).trans ?_
      unfold Transaction.change
      split <;> rfl
    | some error => rfl

theorem writeAll_of_no_error (added : List (Added σ ε)) (transaction : Transaction σ)
    (hsound : transaction.failed = false) (hnone : firstError added = none) :
    (writeAll added transaction).1 =
      { transaction with state := applyAll added transaction.state } := by
  induction added generalizing transaction with
  | nil => rfl
  | cons one rest ih =>
    have herror : one.error = none := by
      have := List.findSome?_eq_none_iff.mp hnone one List.mem_cons_self
      simpa using this
    have hrest : firstError rest = none := by
      simpa [firstError, List.findSome?_cons, herror] using hnone
    have hchange : transaction.change one.write =
        { transaction with state := one.write transaction.state } := by
      unfold Transaction.change
      rw [hsound]
      rfl
    unfold writeAll
    rw [herror]
    exact (ih _ (by rw [hchange]; exact hsound) hrest).trans (by rw [hchange]; rfl)

namespace Session

variable {session : Session σ}

theorem flush_eq (hsound : session.transaction.failed = false) :
    session.flush = { session with
      transaction := { session.transaction with state := session.work }
      pending := [] } := by
  have hnone : firstError session.sound = none := by
    simp [firstError, sound, List.findSome?_eq_none_iff]
  have hstate : applyAll session.sound session.transaction.state = session.work := by
    unfold applyAll sound work
    rw [List.foldl_map]
  unfold flush
  rw [writeAll_of_no_error _ _ hsound hnone, hstate]

/-- A nested transaction without an error adds what was added in it. -/
theorem nested_of_no_error (hsound : session.transaction.failed = false)
    {added : List (Added σ ε)} (hnone : firstError added = none) :
    session.nested added = ({ session with
      transaction := { session.transaction with state := applyAll added session.work }
      pending := [] }, none) := by
  unfold nested
  simp only [snd_writeAll, hnone, flush_eq hsound]
  rw [writeAll_of_no_error]
  · rfl
  · exact hsound
  · exact hnone

/-- One with an error leaves the work from before it, and one savepoint more. -/
theorem nested_of_error (hsound : session.transaction.failed = false)
    {added : List (Added σ ε)} {error : ε} (herror : firstError added = some error) :
    session.nested added = ({ session with
      transaction := ⟨session.work, session.work :: session.transaction.saved, false⟩
      pending := [] }, some error) := by
  unfold nested
  simp only [snd_writeAll, herror, flush_eq hsound, Transaction.rollbackTo, saved_writeAll,
    Transaction.savepoint, List.headD_cons]

end Session

end Savepoints
