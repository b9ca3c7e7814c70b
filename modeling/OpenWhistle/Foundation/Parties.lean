import Mathlib.Data.List.Basic

/-!
# Several parties, of which one moves

The parties of a system are kept in a list, in the order of their start. Where one of them takes a
step, or one more starts, what holds of each and what holds between any two of them has to be shown
of that one only.
-/

set_option autoImplicit false
set_option relaxedAutoImplicit false

namespace Parties

variable {α : Type*} {property : α → Prop} {related : α → α → Prop} {parties : List α}
  {party other : α} {i j : ℕ}

theorem getElem?_set_cases (h : (parties.set i party)[j]? = some other) :
    j = i ∧ other = party ∨ j ≠ i ∧ parties[j]? = some other := by
  by_cases hij : j = i
  · subst hij
    rw [List.getElem?_set_self'] at h
    obtain ⟨-, -, rfl⟩ := Option.map_eq_some_iff.mp h
    exact .inl ⟨rfl, rfl⟩
  · rw [List.getElem?_set_ne (Ne.symm hij)] at h
    exact .inr ⟨hij, h⟩

theorem getElem?_concat_cases (h : (parties ++ [party])[j]? = some other) :
    parties[j]? = some other ∨ j = parties.length ∧ other = party := by
  rcases Nat.lt_trichotomy j parties.length with hj | rfl | hj
  · rw [List.getElem?_append_left hj] at h
    exact .inl h
  · rw [List.getElem?_concat_length] at h
    exact .inr ⟨rfl, (Option.some.inj h).symm⟩
  · have hlong : (parties ++ [party]).length ≤ j := by
      rw [List.length_append, List.length_singleton]
      exact hj
    rw [List.getElem?_eq_none hlong] at h
    cases h

theorem forall_set (hparty : property party)
    (hothers : ∀ (j : ℕ) other, j ≠ i → parties[j]? = some other → property other) :
    ∀ (j : ℕ) other, (parties.set i party)[j]? = some other → property other := by
  intro j other hother
  rcases getElem?_set_cases hother with ⟨rfl, rfl⟩ | ⟨hj, hother⟩
  · exact hparty
  · exact hothers j other hj hother

theorem forall_concat (hparty : property party)
    (hothers : ∀ (j : ℕ) other, parties[j]? = some other → property other) :
    ∀ (j : ℕ) other, (parties ++ [party])[j]? = some other → property other := by
  intro j other hother
  rcases getElem?_concat_cases hother with hother | ⟨-, rfl⟩
  · exact hothers j other hother
  · exact hparty

/-- The pairs without the one that moves are as before. -/
theorem apart_set
    (h : ∀ (j k : ℕ) first second, j ≠ k → parties[j]? = some first → parties[k]? = some second →
      related first second)
    (hparty : ∀ (j : ℕ) other, j ≠ i → parties[j]? = some other →
      related party other ∧ related other party) :
    ∀ (j k : ℕ) first second, j ≠ k → (parties.set i party)[j]? = some first →
      (parties.set i party)[k]? = some second → related first second := by
  intro j k first second hne hfirst hsecond
  rcases getElem?_set_cases hfirst with ⟨rfl, rfl⟩ | ⟨hj, hfirst'⟩
  · rcases getElem?_set_cases hsecond with ⟨rfl, rfl⟩ | ⟨hk, hsecond'⟩
    · exact absurd rfl hne
    · exact (hparty k second hk hsecond').1
  · rcases getElem?_set_cases hsecond with ⟨rfl, rfl⟩ | ⟨hk, hsecond'⟩
    · exact (hparty j first hj hfirst').2
    · exact h j k first second hne hfirst' hsecond'

theorem apart_concat
    (h : ∀ (j k : ℕ) first second, j ≠ k → parties[j]? = some first → parties[k]? = some second →
      related first second)
    (hparty : ∀ other, related party other ∧ related other party) :
    ∀ (j k : ℕ) first second, j ≠ k → (parties ++ [party])[j]? = some first →
      (parties ++ [party])[k]? = some second → related first second := by
  intro j k first second hne hfirst hsecond
  rcases getElem?_concat_cases hfirst with hfirst' | ⟨-, rfl⟩
  · rcases getElem?_concat_cases hsecond with hsecond' | ⟨-, rfl⟩
    · exact h j k first second hne hfirst' hsecond'
    · exact (hparty first).2
  · exact (hparty second).1

end Parties
