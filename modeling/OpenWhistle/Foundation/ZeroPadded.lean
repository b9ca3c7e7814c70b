import Mathlib.Data.List.GetD
import Mathlib.Algebra.Order.Ring.Nat
import Mathlib.Tactic.Common

/-!
# Sequences of numbers up to zeros at their end

Two sequences are compared at the first place where they differ, and where one has ended it goes on
with zeros. The order of lists is another one: there the shorter comes first. They differ on
sequences that are the same up to zeros, and on no others.
-/

set_option autoImplicit false
set_option relaxedAutoImplicit false

namespace ZeroPadded

variable {a b : List ℕ}

def Same (a b : List ℕ) : Prop := ∀ i, a.getD i 0 = b.getD i 0

def Below (a b : List ℕ) : Prop :=
  ∃ i, (∀ j < i, a.getD j 0 = b.getD j 0) ∧ a.getD i 0 < b.getD i 0

theorem same_or_below (a b : List ℕ) : Same a b ∨ Below a b ∨ Below b a := by
  by_cases hsame : Same a b
  · exact .inl hsame
  · obtain ⟨i, hdiffer⟩ := not_forall.mp hsame
    -- the first place where they differ decides
    obtain ⟨k, hk, hfirst⟩ : ∃ k, a.getD k 0 ≠ b.getD k 0 ∧ ∀ j < k, a.getD j 0 = b.getD j 0 := by
      induction i using Nat.strongRecOn with
      | ind i ih =>
        by_cases hearlier : ∀ j < i, a.getD j 0 = b.getD j 0
        · exact ⟨i, hdiffer, hearlier⟩
        · obtain ⟨j, hj⟩ := not_forall.mp hearlier
          obtain ⟨hlt, hne⟩ := Classical.not_imp.mp hj
          exact ih j hlt hne
    rcases lt_or_gt_of_ne hk with hlt | hgt
    · exact .inr (.inl ⟨k, hfirst, hlt⟩)
    · exact .inr (.inr ⟨k, fun j hj ↦ (hfirst j hj).symm, hgt⟩)

theorem Same.symm (h : Same a b) : Same b a := fun i ↦ (h i).symm

theorem Below.not_same (h : Below a b) : ¬Same a b := by
  obtain ⟨i, _, hlt⟩ := h
  exact fun hsame ↦ absurd (hsame i) hlt.ne

theorem Below.not_below (h : Below a b) : ¬Below b a := by
  rintro ⟨j, hbefore', hlt'⟩
  obtain ⟨i, hbefore, hlt⟩ := h
  rcases lt_trichotomy i j with hij | hij | hij
  · exact absurd (hbefore' i hij).symm hlt.ne
  · subst hij
    exact absurd hlt (not_lt.mpr hlt'.le)
  · exact absurd (hbefore j hij).symm hlt'.ne

theorem not_below_iff : ¬Below b a ↔ Below a b ∨ Same a b := by
  constructor
  · intro hnot
    rcases same_or_below a b with hsame | hbelow | habove
    · exact .inr hsame
    · exact .inl hbelow
    · exact absurd habove hnot
  · rintro (hbelow | hsame) habove
    · exact hbelow.not_below habove
    · exact habove.not_same hsame.symm

/-! ### The order of lists -/

theorem lt_length_of_pos {i n : ℕ} (h : n < a.getD i 0) : i < a.length := by
  by_contra hge
  rw [List.getD_eq_default _ _ (not_lt.mp hge)] at h
  exact absurd h (Nat.not_lt_zero n)

theorem lt_of_below (h : Below a b) : a < b := by
  obtain ⟨i, hbefore, hlt⟩ := h
  have hb : i < b.length := lt_length_of_pos hlt
  refine List.lt_iff_exists.mpr ?_
  by_cases ha : i < a.length
  · refine .inr ⟨i, ha, hb, fun j hj ↦ ?_, ?_⟩
    · have heq := hbefore j hj
      rwa [List.getD_eq_getElem _ _ (hj.trans ha), List.getD_eq_getElem _ _ (hj.trans hb)] at heq
    · rwa [List.getD_eq_getElem _ _ ha, List.getD_eq_getElem _ _ hb] at hlt
  · have hshort : a.length ≤ i := not_lt.mp ha
    refine .inl ⟨List.ext_getElem ?_ fun j hj _ ↦ ?_, hshort.trans_lt hb⟩
    · rw [List.length_take, min_eq_left (hshort.trans hb.le)]
    · have heq := hbefore j (hj.trans_le hshort)
      rw [List.getD_eq_getElem _ _ hj,
        List.getD_eq_getElem _ _ (hj.trans_le (hshort.trans hb.le))] at heq
      rw [heq, List.getElem_take]

/-- Unless they are the same up to zeros and of different lengths, lists are in this order. -/
theorem lt_iff_below (hlength : Same a b → a.length = b.length) : a < b ↔ Below a b := by
  refine ⟨fun hlt ↦ ?_, lt_of_below⟩
  rcases List.lt_iff_exists.mp hlt with ⟨htake, hshort⟩ | ⟨i, ha, hb, hbefore, hless⟩
  · rcases same_or_below a b with hsame | hbelow | ⟨i, _, habove⟩
    · exact absurd (hlength hsame) hshort.ne
    · exact hbelow
    · have ha : i < a.length := lt_length_of_pos habove
      have heq : a.getD i 0 = b.getD i 0 := by
        rw [List.getD_eq_getElem _ _ ha, List.getD_eq_getElem _ _ (ha.trans hshort)]
        conv_lhs => rw [List.getElem_of_eq htake ha]
        exact List.getElem_take
      exact absurd heq.symm habove.ne
  · refine ⟨i, fun j hj ↦ ?_, ?_⟩
    · rw [List.getD_eq_getElem _ _ (hj.trans ha), List.getD_eq_getElem _ _ (hj.trans hb)]
      exact hbefore j hj
    · rw [List.getD_eq_getElem _ _ ha, List.getD_eq_getElem _ _ hb]
      exact hless

theorem eq_iff_same (hlength : a.length = b.length) : a = b ↔ Same a b := by
  refine ⟨fun heq i ↦ by rw [heq], fun hsame ↦ List.ext_getElem hlength fun i ha hb ↦ ?_⟩
  have heq := hsame i
  rwa [List.getD_eq_getElem _ _ ha, List.getD_eq_getElem _ _ hb] at heq

/-! ### Zeros at the end -/

theorem getD_append_zeros (a : List ℕ) (n i : ℕ) :
    (a ++ List.replicate n 0).getD i 0 = a.getD i 0 := by
  by_cases ha : i < a.length
  · rw [List.getD_append _ _ _ _ ha]
  · rw [List.getD_append_right _ _ _ _ (not_lt.mp ha), List.getD_eq_default a _ (not_lt.mp ha)]
    rw [List.getD_eq_getElem?_getD, List.getElem?_replicate]
    split_ifs <;> rfl

theorem same_append_zeros (a : List ℕ) (n : ℕ) : Same (a ++ List.replicate n 0) a :=
  getD_append_zeros a n

theorem below_append_zeros (n m : ℕ) :
    Below (a ++ List.replicate n 0) (b ++ List.replicate m 0) ↔ Below a b := by
  unfold Below
  simp only [getD_append_zeros]

theorem same_append_zeros_iff (n m : ℕ) :
    Same (a ++ List.replicate n 0) (b ++ List.replicate m 0) ↔ Same a b := by
  unfold Same
  simp only [getD_append_zeros]

end ZeroPadded
