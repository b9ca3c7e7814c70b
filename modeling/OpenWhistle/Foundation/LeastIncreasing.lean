import Mathlib.Order.Monotone.Basic
import Mathlib.Data.Nat.Notation
import Mathlib.Order.MinMax

/-!
# The least strictly increasing sequence above another

It takes what the other one gives, or one more than its own last value if that is larger. Each value
is that of some place at or before it, and what has been counted since.
-/

set_option autoImplicit false
set_option relaxedAutoImplicit false

namespace LeastIncreasing

variable {floor other s : ℕ → ℕ}

def least (floor : ℕ → ℕ) : ℕ → ℕ
  | 0 => floor 0
  | n + 1 => max (floor (n + 1)) (least floor n + 1)

theorem le_least (floor : ℕ → ℕ) (n : ℕ) : floor n ≤ least floor n := by
  cases n with
  | zero => exact le_rfl
  | succ n => exact le_max_left _ _

theorem least_lt_succ (floor : ℕ → ℕ) (n : ℕ) : least floor n < least floor (n + 1) :=
  Nat.lt_of_succ_le (le_max_right _ _)

theorem strictMono_least (floor : ℕ → ℕ) : StrictMono (least floor) :=
  strictMono_nat_of_lt_succ (least_lt_succ floor)

theorem least_add_le (floor : ℕ → ℕ) (k d : ℕ) : least floor k + d ≤ least floor (k + d) := by
  induction d with
  | zero => exact le_rfl
  | succ d ih => exact (Nat.succ_le_succ ih).trans (least_lt_succ floor (k + d))

/-- No place at or before asks for more. -/
theorem add_le_least (floor : ℕ → ℕ) {k n : ℕ} (hk : k ≤ n) : floor k + n ≤ least floor n + k := by
  obtain ⟨d, rfl⟩ := Nat.exists_eq_add_of_le hk
  have hfloor := le_least floor k
  have hcount := least_add_le floor k d
  omega

/-- Some place at or before asks for as much. -/
theorem exists_least_add (floor : ℕ → ℕ) (n : ℕ) : ∃ k ≤ n, least floor n + k = floor k + n := by
  induction n with
  | zero => exact ⟨0, le_rfl, rfl⟩
  | succ n ih =>
    obtain ⟨k, hk, heq⟩ := ih
    rcases max_choice (floor (n + 1)) (least floor n + 1) with hmax | hmax
    · exact ⟨n + 1, le_rfl, congrArg (· + (n + 1)) hmax⟩
    · refine ⟨k, Nat.le_succ_of_le hk, ?_⟩
      rw [least, hmax]
      omega

theorem least_le {bound : ℕ} (hincreasing : ∀ n, n + 1 < bound → s n < s (n + 1))
    (habove : ∀ n < bound, floor n ≤ s n) : ∀ n < bound, least floor n ≤ s n := by
  intro n hn
  induction n with
  | zero => exact habove 0 hn
  | succ n ih =>
    exact max_le (habove _ hn) ((Nat.succ_le_succ (ih (Nat.lt_of_succ_lt hn))).trans (hincreasing n hn))

theorem least_congr {n : ℕ} (h : ∀ k ≤ n, floor k = other k) : least floor n = least other n := by
  induction n with
  | zero => exact h 0 le_rfl
  | succ n ih => rw [least, least, h _ le_rfl, ih fun k hk ↦ h k (Nat.le_succ_of_le hk)]

/-- A sequence between the other one and the least above it has the same least above it. -/
theorem least_eq_of_le {bound : ℕ} (hlow : ∀ n < bound, floor n ≤ other n)
    (hhigh : ∀ n < bound, other n ≤ least floor n) : ∀ n < bound, least other n = least floor n := by
  intro n hn
  refine le_antisymm (least_le (fun k _ ↦ least_lt_succ floor k) hhigh n hn) ?_
  exact least_le (fun k _ ↦ least_lt_succ other k)
    (fun k hk ↦ (hlow k hk).trans (le_least other k)) n hn

end LeastIncreasing
