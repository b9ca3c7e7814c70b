import Mathlib.Data.List.Nodup
import Mathlib.Data.Nat.Notation

/-!
# Checking before inserting

A table without a constraint, to which transactions add rows under READ COMMITTED. A row appears with
the commit of its transaction, and remembers how many commits there were before. A transaction that
looks for a key before it inserts a row of that key learns about the rows committed until then, and
about no others: when it finds none, every row of the key that is there later has been committed
since. So the keys stay distinct as long as none has been committed since where one is committed.
-/

set_option autoImplicit false
set_option relaxedAutoImplicit false

namespace CheckedInsert

section Query

variable {ε ρ : Type} {several : ε} {rows : List ρ}

/-- The only row that a query gives, if it gives one. Several are an exception. -/
def scalarOneOrNone (several : ε) : List ρ → Except ε (Option ρ)
  | [] => .ok none
  | [row] => .ok (some row)
  | _ => .error several

theorem eq_nil_of_scalarOneOrNone (h : scalarOneOrNone several rows = .ok none) : rows = [] := by
  unfold scalarOneOrNone at h
  split at h
  · rfl
  · cases h
  · cases h

theorem scalarOneOrNone_of_length (h : rows.length ≤ 1) :
    ∃ found, scalarOneOrNone several rows = .ok found := by
  match rows with
  | [] => exact ⟨_, rfl⟩
  | [row] => exact ⟨_, rfl⟩
  | _ :: _ :: _ => simp at h

end Query

/-- A committed row, and how many commits there were before its own. -/
structure Entry (ρ : Type) where
  row : ρ
  since : ℕ

structure Table (ρ : Type) where
  entries : List (Entry ρ)
  /-- What each transaction has inserted and not committed. -/
  pending : List (ℕ × ρ)
  commits : ℕ

namespace Table

variable {ρ κ : Type} {table : Table ρ} {w v n : ℕ}

/-- The committed rows. -/
def rows (table : Table ρ) : List ρ := table.entries.map Entry.row

def pendingOf (table : Table ρ) (w : ℕ) : List ρ :=
  (table.pending.filter fun item ↦ item.1 = w).map Prod.snd

def insert (table : Table ρ) (w : ℕ) (row : ρ) : Table ρ :=
  { table with pending := (w, row) :: table.pending }

/-- What the transaction has inserted is dropped. -/
def abort (table : Table ρ) (w : ℕ) : Table ρ :=
  { table with pending := table.pending.filter fun item ↦ item.1 ≠ w }

def commit (table : Table ρ) (w : ℕ) : Table ρ where
  entries := (table.pendingOf w).map (fun row ↦ ⟨row, table.commits⟩) ++ table.entries
  pending := (table.abort w).pending
  commits := table.commits + 1

def delete (table : Table ρ) (gone : ρ → Bool) : Table ρ :=
  { table with entries := table.entries.filter fun entry ↦ !gone entry.row }

variable (key : ρ → κ)

/-- No two rows have the same key. -/
def Distinct (table : Table ρ) : Prop := (table.rows.map key).Nodup

/-- Every row of the key was committed when there were so many commits already. -/
def Since (table : Table ρ) (k : κ) (n : ℕ) : Prop :=
  ∀ entry ∈ table.entries, key entry.row = k → n ≤ entry.since

/-- No row of the key was committed when there were so many commits already. -/
def NoneSince [DecidableEq κ] (table : Table ρ) (k : κ) (n : ℕ) : Prop :=
  ∀ entry ∈ table.entries, key entry.row = k → entry.since < n

instance [DecidableEq κ] (k : κ) (n : ℕ) : Decidable (table.NoneSince key k n) :=
  inferInstanceAs (Decidable (∀ entry ∈ table.entries, key entry.row = k → entry.since < n))

variable {key} {k : κ}

/-! ### Steps -/

theorem mem_pendingOf {row : ρ} : row ∈ table.pendingOf w ↔ (w, row) ∈ table.pending := by
  simp only [pendingOf, List.mem_map, List.mem_filter, decide_eq_true_eq]
  constructor
  · rintro ⟨⟨v, row⟩, ⟨hmem, rfl⟩, rfl⟩
    exact hmem
  · intro h
    exact ⟨(w, row), ⟨h, rfl⟩, rfl⟩

theorem mem_pending_abort {row : ρ} :
    (v, row) ∈ (table.abort w).pending ↔ (v, row) ∈ table.pending ∧ v ≠ w := by
  simp [abort]

theorem pendingOf_insert_self (row : ρ) :
    (table.insert w row).pendingOf w = row :: table.pendingOf w := by
  simp [pendingOf, insert]

theorem pendingOf_insert_of_ne (hv : v ≠ w) (row : ρ) :
    (table.insert w row).pendingOf v = table.pendingOf v := by
  simp [pendingOf, insert, hv.symm]

theorem pendingOf_abort_self : (table.abort w).pendingOf w = [] := by
  simp [pendingOf, abort]

theorem pendingOf_abort_of_ne (hv : v ≠ w) : (table.abort w).pendingOf v = table.pendingOf v := by
  unfold pendingOf abort
  rw [List.filter_filter]
  congr 1
  apply List.filter_congr
  intro item _
  by_cases hitem : item.1 = v
  · simp [hitem, hv]
  · simp [hitem]

theorem pendingOf_commit_self : (table.commit w).pendingOf w = [] := pendingOf_abort_self

theorem pendingOf_commit_of_ne (hv : v ≠ w) : (table.commit w).pendingOf v = table.pendingOf v :=
  pendingOf_abort_of_ne hv

theorem rows_commit : (table.commit w).rows = table.pendingOf w ++ table.rows := by
  simp [rows, commit, Function.comp_def]

theorem rows_delete (gone : ρ → Bool) :
    (table.delete gone).rows = table.rows.filter fun row ↦ !gone row := by
  simp [rows, delete, List.filter_map, Function.comp_def]

theorem mem_rows_of_delete {gone : ρ → Bool} {row : ρ} (h : row ∈ (table.delete gone).rows) :
    row ∈ table.rows := by
  rw [rows_delete] at h
  exact List.mem_of_mem_filter h

/-- A committed row was there, or the transaction has inserted it. -/
theorem mem_rows_commit {row : ρ} (h : row ∈ (table.commit w).rows) :
    row ∈ table.rows ∨ (w, row) ∈ table.pending := by
  rw [rows_commit, List.mem_append] at h
  exact h.symm.imp id mem_pendingOf.mp

/-! ### What a transaction has learnt -/

/-- Whoever finds no row of a key knows that later ones are committed later. -/
theorem since_of_none (h : ∀ row ∈ table.rows, key row ≠ k) : table.Since key k table.commits :=
  fun entry hmem hkey ↦ absurd hkey (h entry.row (List.mem_map_of_mem hmem))

theorem Since.commit (h : table.Since key k n) (hn : n ≤ table.commits) :
    (table.commit w).Since key k n := by
  intro entry hmem hkey
  rcases List.mem_append.mp hmem with hnew | hold
  · obtain ⟨row, -, rfl⟩ := List.mem_map.mp hnew
    exact hn
  · exact h entry hold hkey

theorem Since.delete (h : table.Since key k n) (gone : ρ → Bool) :
    (table.delete gone).Since key k n :=
  fun entry hmem hkey ↦ h entry (List.mem_of_mem_filter hmem) hkey

/-- A transaction that has found no row of the key, and after whose search none was committed, meets
none at its commit. -/
theorem Since.not_mem [DecidableEq κ] (h : table.Since key k n) (hnone : table.NoneSince key k n) :
    k ∉ table.rows.map key := by
  intro hmem
  obtain ⟨row, hrow, hkey⟩ := List.mem_map.mp hmem
  obtain ⟨entry, hentry, rfl⟩ := List.mem_map.mp hrow
  exact Nat.lt_irrefl _ (Nat.lt_of_le_of_lt (h entry hentry hkey) (hnone entry hentry hkey))

/-! ### Distinct keys -/

theorem Distinct.delete (h : table.Distinct key) (gone : ρ → Bool) :
    (table.delete gone).Distinct key := by
  rw [Distinct, rows_delete]
  exact h.sublist (List.filter_sublist.map key)

theorem Distinct.commit_nothing (h : table.Distinct key) (hnothing : table.pendingOf w = []) :
    (table.commit w).Distinct key := by
  rw [Distinct, rows_commit, hnothing]
  exact h

theorem Distinct.commit [DecidableEq κ] {row : ρ} (h : table.Distinct key)
    (hrow : table.pendingOf w = [row]) (hsince : table.Since key (key row) n)
    (hnone : table.NoneSince key (key row) n) : (table.commit w).Distinct key := by
  rw [Distinct, rows_commit, hrow]
  exact List.nodup_cons.mpr ⟨hsince.not_mem hnone, h⟩

/-- A search for a key finds at most one row. -/
theorem Distinct.length_filter [DecidableEq κ] (h : table.Distinct key) (k : κ) :
    (table.rows.filter fun row ↦ key row = k).length ≤ 1 := by
  have hsub : ((table.rows.filter fun row ↦ key row = k).map key).Nodup :=
    h.sublist (List.filter_sublist.map key)
  match hfound : table.rows.filter fun row ↦ key row = k with
  | [] => exact Nat.zero_le 1
  | [row] => exact Nat.le_refl 1
  | first :: second :: rest =>
    rw [hfound] at hsub
    have hkeys : ∀ row ∈ first :: second :: rest, key row = k := fun row hmem ↦ by
      rw [← hfound] at hmem
      exact of_decide_eq_true (List.mem_filter.mp hmem).2
    have hne := (List.nodup_cons.mp hsub).1
    rw [hkeys first List.mem_cons_self,
      ← hkeys second (List.mem_cons_of_mem _ List.mem_cons_self)] at hne
    exact absurd List.mem_cons_self hne

end Table

end CheckedInsert
