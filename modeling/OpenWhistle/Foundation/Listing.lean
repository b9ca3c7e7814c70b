import Mathlib.Data.List.Sort

/-!
# Ordered listings and their pages

A listing is sorted by an order that tells any two of its elements apart. Then the sorted list is one
and the same for every arrangement the elements were found in, its pages put together give the list
back, and an element stands among the first `n` exactly when fewer than `n` come before it.
-/

set_option autoImplicit false
set_option relaxedAutoImplicit false

namespace Listing

variable {α : Type} {le : α → α → Bool} {l : List α}

/-- An order by which a list can be listed: two different elements of the list never tie. -/
structure Orders (le : α → α → Bool) (l : List α) : Prop where
  total : ∀ a b, (le a b || le b a) = true
  trans : ∀ a b c, le a b = true → le b c = true → le a c = true
  antisymm : ∀ a ∈ l, ∀ b ∈ l, le a b = true → le b a = true → a = b

theorem Orders.refl (h : Orders le l) (a : α) : le a a = true := by
  simpa using h.total a a

theorem Orders.subset (h : Orders le l) {l' : List α} (hsubset : ∀ a ∈ l', a ∈ l) :
    Orders le l' where
  total := h.total
  trans := h.trans
  antisymm a ha b hb := h.antisymm a (hsubset a ha) b (hsubset b hb)

/-- The listing does not depend on how the elements were arranged. -/
theorem Orders.mergeSort_eq_of_perm (h : Orders le l) {l' : List α} (hperm : l'.Perm l) :
    l'.mergeSort le = l.mergeSort le := by
  have hsorted := fun list : List α ↦ List.pairwise_mergeSort h.trans h.total list
  refine List.Perm.eq_of_pairwise (fun a b ha hb ↦ ?_) (hsorted l') (hsorted l) ?_
  · rw [List.mem_mergeSort] at ha hb
    exact h.antisymm a (hperm.mem_iff.mp ha) b hb
  · exact (List.mergeSort_perm l' le).trans (hperm.trans (List.mergeSort_perm l le).symm)

/-- The first `k` pages of `n` elements each are the first `k * n` elements. -/
theorem flatMap_pages (l : List α) (n k : ℕ) :
    ((List.range k).flatMap fun i ↦ (l.drop (i * n)).take n) = l.take (k * n) := by
  induction k with
  | zero => simp
  | succ k ih =>
    rw [List.range_succ, List.flatMap_append, ih, Nat.succ_mul, List.take_add]
    simp

/-- One element more than asked for tells whether there are more; the list is cut at the same place
either way. -/
theorem take_of_take_succ (l : List α) (n : ℕ) :
    (if n < (l.take (n + 1)).length then (l.take (n + 1)).take n else l.take (n + 1)) =
      l.take n := by
  split_ifs with hmore
  · rw [List.take_take, Nat.min_eq_left (Nat.le_succ n)]
  · rw [List.length_take] at hmore
    have hlength : l.length ≤ n := by omega
    rw [List.take_of_length_le hlength, List.take_of_length_le (Nat.le_succ_of_le hlength)]

/-- In a sorted list, an element is among the first `n` when fewer than `n` come before it. -/
theorem mem_take_iff_of_pairwise (hrefl : ∀ a, le a a = true) {a : α} {n : ℕ} :
    ∀ {l : List α}, (∀ a ∈ l, ∀ b ∈ l, le a b = true → le b a = true → a = b) →
      l.Pairwise (fun a b ↦ le a b = true) → l.Nodup → a ∈ l →
      (a ∈ l.take n ↔ l.countP (fun b ↦ !le a b) < n) := by
  intro l
  induction l generalizing n with
  | nil => intro _ _ _ hmem; cases hmem
  | cons head rest ih =>
    intro hantisymm hpairwise hnodup hmem
    obtain ⟨hhead, hrest⟩ := List.pairwise_cons.mp hpairwise
    obtain ⟨hnot, hnodup'⟩ := List.nodup_cons.mp hnodup
    cases n with
    | zero => simp
    | succ n =>
      by_cases heq : a = head
      · subst heq
        have hnone : (a :: rest).countP (fun b ↦ !le a b) = 0 := by
          refine List.countP_eq_zero.mpr fun b hb ↦ ?_
          rcases List.mem_cons.mp hb with rfl | hb
          · simp [hrefl]
          · simp [hhead b hb]
        simp [hnone]
      · have hrest' : a ∈ rest := (List.mem_cons.mp hmem).resolve_left heq
        have hbefore : le a head = false := by
          rw [← Bool.not_eq_true]
          intro hle
          exact heq (hantisymm a hmem head List.mem_cons_self hle (hhead a hrest'))
        have htail := ih (n := n)
          (fun x hx y hy ↦ hantisymm x (List.mem_cons_of_mem _ hx) y (List.mem_cons_of_mem _ hy))
          hrest hnodup' hrest'
        rw [List.take_succ_cons, List.mem_cons, List.countP_cons, hbefore]
        simp [heq, htail]

/-- An element of a listing is among the first `n` when fewer than `n` come before it. -/
theorem Orders.mem_take_mergeSort_iff (h : Orders le l) (hnodup : l.Nodup) {a : α} (ha : a ∈ l)
    (n : ℕ) : a ∈ (l.mergeSort le).take n ↔ l.countP (fun b ↦ !le a b) < n := by
  have hperm := List.mergeSort_perm l le
  rw [← hperm.countP_eq]
  refine mem_take_iff_of_pairwise h.refl (fun x hx y hy ↦ ?_)
    (List.pairwise_mergeSort h.trans h.total l) (hperm.nodup_iff.mpr hnodup) (hperm.mem_iff.mpr ha)
  exact h.antisymm x (hperm.mem_iff.mp hx) y (hperm.mem_iff.mp hy)

end Listing
