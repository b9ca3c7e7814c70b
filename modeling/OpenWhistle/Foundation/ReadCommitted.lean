import Mathlib.Logic.Function.Basic
import Mathlib.Data.Nat.Notation
import Mathlib.Tactic.SplitIfs

/-!
# A table under READ COMMITTED

Committed rows, and the locks of the transactions that have written a row and not ended yet. A lock
carries the row as its transaction has written it; `none` stands for a deleted row. Reads see the
committed rows. A write waits while another transaction holds the lock of the row, and then works
on the row that transaction has left; nothing checks it against what the writer read before. Ending a
transaction publishes what it wrote, or drops it.
-/

set_option autoImplicit false
set_option relaxedAutoImplicit false

namespace ReadCommitted

/-- The lock of one row: its transaction, and the row as that transaction has written it. -/
structure Lock (ρ : Type) where
  holder : ℕ
  written : Option ρ

structure Table (ι ρ : Type) where
  row : ι → Option ρ
  lock : ι → Option (Lock ρ)

namespace Table

variable {ι ρ : Type} {table : Table ι ρ} {w : ℕ} {i : ι}

/-- What transaction `w` has written to a row, if it holds the lock. -/
def writtenBy (table : Table ι ρ) (w : ℕ) (i : ι) : Option (Option ρ) :=
  (table.lock i).bind fun lock ↦ if lock.holder = w then some lock.written else none

/-- A row as transaction `w` sees it: with its own writes, else as committed. -/
def seenBy (table : Table ι ρ) (w : ℕ) (i : ι) : Option ρ :=
  (table.writtenBy w i).getD (table.row i)

/-- Another transaction holds the lock of a row. -/
def Blocked (table : Table ι ρ) (w : ℕ) (i : ι) : Prop :=
  ∃ lock ∈ table.lock i, lock.holder ≠ w

instance (table : Table ι ρ) (w : ℕ) (i : ι) : Decidable (table.Blocked w i) :=
  match h : table.lock i with
  | none => isFalse fun ⟨lock, hlock, _⟩ ↦ by rw [h] at hlock; cases hlock
  | some lock =>
    if hholder : lock.holder = w then
      isFalse fun ⟨other, hother, hne⟩ ↦ by
        rw [h] at hother
        cases hother
        exact hne hholder
    else isTrue ⟨lock, h, hholder⟩

/-- Takes the lock of a row and writes it. -/
def lockRow [DecidableEq ι] (table : Table ι ρ) (w : ℕ) (i : ι) (written : Option ρ) : Table ι ρ where
  row := table.row
  lock := Function.update table.lock i (some ⟨w, written⟩)

/-- An UPDATE or a DELETE of one row: it answers with the row it has found, and waits where the
row is locked by another transaction. -/
def write [DecidableEq ι] (table : Table ι ρ) (w : ℕ) (i : ι) (change : ρ → Option ρ) :
    Option (Option ρ × Table ι ρ) :=
  if table.Blocked w i then none
  else
    match table.seenBy w i with
    | none => some (none, table)
    | some row => some (some row, table.lockRow w i (change row))

/-- The transaction ends: its locks are released. -/
def release (table : Table ι ρ) (w : ℕ) : Table ι ρ where
  row := table.row
  lock j := if (table.writtenBy w j).isSome then none else table.lock j

/-- COMMIT: what the transaction has written becomes the committed rows. -/
def commit (table : Table ι ρ) (w : ℕ) : Table ι ρ where
  row := table.seenBy w
  lock := (table.release w).lock

/-- ROLLBACK. -/
def abort (table : Table ι ρ) (w : ℕ) : Table ι ρ := table.release w

/-- A new row, under an identifier nobody has used. -/
def insert [DecidableEq ι] (table : Table ι ρ) (i : ι) (row : ρ) : Table ι ρ where
  row := Function.update table.row i (some row)
  lock := table.lock

/-! ### What a write does -/

theorem writtenBy_eq_some {written : Option ρ} :
    table.writtenBy w i = some written ↔ table.lock i = some ⟨w, written⟩ := by
  unfold writtenBy
  cases hlock : table.lock i with
  | none => simp
  | some lock =>
    obtain ⟨holder, other⟩ := lock
    by_cases hholder : holder = w
    · simp [hholder]
    · simp [hholder]

theorem seenBy_of_writtenBy {written : Option ρ} (h : table.writtenBy w i = some written) :
    table.seenBy w i = written := by
  rw [seenBy, h]
  rfl

theorem seenBy_of_not_writtenBy (h : table.writtenBy w i = none) :
    table.seenBy w i = table.row i := by
  rw [seenBy, h]
  rfl

/-- A write finds no row and does nothing, or it locks the row it has found. -/
theorem write_cases [DecidableEq ι] {change : ρ → Option ρ} {found : Option ρ} {next : Table ι ρ}
    (h : table.write w i change = some (found, next)) :
    (found = none ∧ next = table) ∨
    ∃ row, ¬table.Blocked w i ∧ table.seenBy w i = some row ∧ found = some row ∧
      next = table.lockRow w i (change row) := by
  unfold write at h
  split_ifs at h with hblocked
  split at h
  · cases h
    exact .inl ⟨rfl, rfl⟩
  · rename_i row hseen
    cases h
    exact .inr ⟨row, hblocked, hseen, rfl, rfl⟩

/-- A write that has found nothing saw no row. -/
theorem seenBy_of_write_none [DecidableEq ι] {change : ρ → Option ρ} {next : Table ι ρ}
    (h : table.write w i change = some (none, next)) : table.seenBy w i = none := by
  unfold write at h
  split_ifs at h
  split at h
  · assumption
  · cases h

@[simp] theorem lockRow_row [DecidableEq ι] (written : Option ρ) : (table.lockRow w i written).row = table.row :=
  rfl

theorem writtenBy_lockRow_self [DecidableEq ι] (written : Option ρ) :
    (table.lockRow w i written).writtenBy w i = some written := by
  simp [writtenBy, lockRow]

theorem lock_lockRow_self [DecidableEq ι] (written : Option ρ) :
    (table.lockRow w i written).lock i = some ⟨w, written⟩ :=
  Function.update_self ..

theorem lock_lockRow_of_ne [DecidableEq ι] {j : ι} (h : j ≠ i) (written : Option ρ) :
    (table.lockRow w i written).lock j = table.lock j :=
  Function.update_of_ne h ..

/-- A transaction that is not blocked holds the lock of a row if anybody does. -/
theorem holder_of_not_blocked {lock : Lock ρ} (h : ¬table.Blocked w i)
    (hlock : table.lock i = some lock) : lock.holder = w := by
  by_contra hne
  exact h ⟨lock, hlock, hne⟩

/-! ### What the end of a transaction does -/

theorem lock_release {lock : Lock ρ} {j : ι} (h : (table.release w).lock j = some lock) :
    table.lock j = some lock ∧ lock.holder ≠ w := by
  simp only [release] at h
  split_ifs at h with hheld
  refine ⟨h, fun hholder ↦ hheld ?_⟩
  simp [writtenBy, h, hholder]

theorem lock_commit {lock : Lock ρ} {j : ι} (h : (table.commit w).lock j = some lock) :
    table.lock j = some lock ∧ lock.holder ≠ w :=
  lock_release h

/-- A row whose lock another transaction holds is not changed by a commit. -/
theorem row_commit_of_lock {lock : Lock ρ} (hlock : table.lock i = some lock)
    (hholder : lock.holder ≠ w) : (table.commit w).row i = table.row i := by
  apply seenBy_of_not_writtenBy
  simp [writtenBy, hlock, hholder]

/-! ### What a transaction may rely on -/

/-- What the others leave alone of a table: the locks of transaction `w` with what it has written,
and the committed rows under them. -/
structure Kept (w : ℕ) (table next : Table ι ρ) : Prop where
  written : ∀ i, next.writtenBy w i = table.writtenBy w i
  row : ∀ i, (table.writtenBy w i).isSome = true → next.row i = table.row i

theorem Kept.refl (w : ℕ) (table : Table ι ρ) : Kept w table table :=
  ⟨fun _ ↦ rfl, fun _ _ ↦ rfl⟩

theorem Kept.trans {next last : Table ι ρ} (h : Kept w table next) (hlast : Kept w next last) :
    Kept w table last where
  written i := (hlast.written i).trans (h.written i)
  row i hi := by
    have hnext : (next.writtenBy w i).isSome = true := by
      rw [h.written i]
      exact hi
    exact (hlast.row i hnext).trans (h.row i hi)

theorem writtenBy_of_not_blocked {v : ℕ} (hne : v ≠ w) (h : ¬table.Blocked w i) :
    table.writtenBy v i = none := by
  unfold writtenBy
  cases hlock : table.lock i with
  | none => rfl
  | some lock =>
    have hholder := holder_of_not_blocked h hlock
    simp [hholder, hne.symm]

theorem writtenBy_release_self : (table.release w).writtenBy w i = none := by
  cases hlock : (table.release w).lock i with
  | none => simp [writtenBy, hlock]
  | some lock => simp [writtenBy, hlock, (lock_release hlock).2]

theorem writtenBy_release_of_ne {v : ℕ} (hne : v ≠ w) :
    (table.release w).writtenBy v i = table.writtenBy v i := by
  unfold writtenBy
  cases hlock : table.lock i with
  | none => simp [release, hlock]
  | some lock =>
    by_cases hholder : lock.holder = w
    · simp [release, writtenBy, hlock, hholder, hne.symm]
    · simp [release, writtenBy, hlock, hholder]

/-- Another transaction takes the lock of a row. -/
theorem kept_lockRow [DecidableEq ι] {v : ℕ} (hne : v ≠ w) (h : ¬table.Blocked w i)
    (written : Option ρ) : Kept v table (table.lockRow w i written) where
  written j := by
    by_cases hj : j = i
    · subst hj
      rw [writtenBy_of_not_blocked hne h]
      simp [writtenBy, lock_lockRow_self, hne.symm]
    · simp [writtenBy, lock_lockRow_of_ne hj]
  row _ _ := rfl

/-- Another transaction commits. -/
theorem kept_commit {v : ℕ} (hne : v ≠ w) : Kept v table (table.commit w) where
  written _ := writtenBy_release_of_ne hne
  row j hj := by
    obtain ⟨written, hwritten⟩ := Option.isSome_iff_exists.mp hj
    exact row_commit_of_lock (writtenBy_eq_some.mp hwritten) hne

/-- Another transaction is rolled back. -/
theorem kept_abort {v : ℕ} (hne : v ≠ w) : Kept v table (table.abort w) where
  written _ := writtenBy_release_of_ne hne
  row _ _ := rfl

/-- A new row appears where nobody holds a lock. -/
theorem kept_insert [DecidableEq ι] (h : table.lock i = none) (row : ρ) :
    Kept w table (table.insert i row) where
  written _ := rfl
  row j hj := by
    have hne : j ≠ i := by
      rintro rfl
      simp [writtenBy, h] at hj
    exact Function.update_of_ne hne ..

end Table

end ReadCommitted
