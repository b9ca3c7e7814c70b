import Mathlib.Logic.Function.Basic
import Mathlib.Logic.Relation

/-!
# Descent along parent pointers

Things that are made one from another, each remembering the one it was made from: a new version of a
document, a renewed capability. `Descends parent ancestor thing` says that a chain of parents leads
from the one to the other. A thing that nobody was made from yet can be given a parent without
changing the descent of anything else.
-/

set_option autoImplicit false
set_option relaxedAutoImplicit false

namespace Descent

variable {τ : Type} {parent : τ → Option τ} {ancestor thing : τ}

/-- A chain of parents leads from the thing back to its ancestor. -/
def Descends (parent : τ → Option τ) : τ → τ → Prop :=
  Relation.ReflTransGen fun maker made ↦ parent made = some maker

namespace Descends

theorem refl (thing : τ) : Descends parent thing thing :=
  Relation.ReflTransGen.refl

theorem child (h : parent thing = some ancestor) : Descends parent ancestor thing :=
  Relation.ReflTransGen.single h

/-- Descent goes through the parent. -/
theorem cases_parent (h : Descends parent ancestor thing) :
    thing = ancestor ∨ ∃ maker, parent thing = some maker ∧ Descends parent ancestor maker := by
  rcases Relation.ReflTransGen.cases_tail_iff _ _ _ |>.mp h with heq | ⟨maker, hdescends, hmaker⟩
  · exact .inl heq
  · exact .inr ⟨maker, hmaker, hdescends⟩

/-- Descent goes through a child of the ancestor. -/
theorem cases_child (h : Descends parent ancestor thing) :
    thing = ancestor ∨ ∃ made, parent made = some ancestor ∧ Descends parent made thing := by
  rcases Relation.ReflTransGen.cases_head h with heq | ⟨made, hmade, hdescends⟩
  · exact .inl heq.symm
  · exact .inr ⟨made, hmade, hdescends⟩

theorem of_parent {maker : τ} (h : Descends parent ancestor maker)
    (hmaker : parent thing = some maker) : Descends parent ancestor thing :=
  Relation.ReflTransGen.tail h hmaker

/-- What was made from nothing descends from itself only. -/
theorem eq_of_root (h : Descends parent ancestor thing) (hroot : parent thing = none) :
    ancestor = thing := by
  rcases h.cases_parent with heq | ⟨maker, hmaker, -⟩
  · exact heq.symm
  · rw [hroot] at hmaker
    cases hmaker

/-- What has a parent and is not its own ancestor descends through the parent. -/
theorem of_ne {maker : τ} (h : Descends parent ancestor thing) (hne : thing ≠ ancestor)
    (hmaker : parent thing = some maker) : Descends parent ancestor maker := by
  rcases h.cases_parent with heq | ⟨other, hother, hdescends⟩
  · exact absurd heq hne
  · rw [hmaker, Option.some.injEq] at hother
    rw [hother]
    exact hdescends

/-- A property that passes from things to their parents holds of the ancestors. -/
theorem closed (property : τ → Prop)
    (hclosed : ∀ made maker, property made → parent made = some maker → property maker)
    (h : Descends parent ancestor thing) (hthing : property thing) : property ancestor := by
  induction h with
  | refl => exact hthing
  | tail _ hmaker ih => exact ih (hclosed _ _ hthing hmaker)

end Descends

/-- A parent for a thing nobody was made from yet leaves every other descent as it was. -/
theorem descends_update_iff [DecidableEq τ] {fresh : τ} {maker : Option τ}
    (hchildless : ∀ made, parent made ≠ some fresh) (hne : thing ≠ fresh) :
    Descends (Function.update parent fresh maker) ancestor thing ↔
      Descends parent ancestor thing := by
  constructor
  · intro h
    induction h with
    | refl => exact Descends.refl _
    | @tail middle last _ hlast ih =>
      rw [Function.update_of_ne hne] at hlast
      have hmiddle : middle ≠ fresh := by
        rintro rfl
        exact hchildless last hlast
      exact (ih hmiddle).of_parent hlast
  · intro h
    induction h with
    | refl => exact Descends.refl _
    | @tail middle last _ hlast ih =>
      have hmiddle : middle ≠ fresh := by
        rintro rfl
        exact hchildless last hlast
      refine (ih hmiddle).of_parent ?_
      rw [Function.update_of_ne hne]
      exact hlast

/-- Another parent for a thing keeps every descent, if the parent it had before is an ancestor of the
new one along a chain that does not need the thing itself. -/
theorem Descends.redirect [DecidableEq τ] {changed maker : τ}
    (hkept : ∀ old, parent changed = some old →
      Descends (Function.update parent changed none) old maker)
    (h : Descends parent ancestor thing) :
    Descends (Function.update parent changed (some maker)) ancestor thing := by
  have havoiding : ∀ {first last : τ}, Descends (Function.update parent changed none) first last →
      Descends (Function.update parent changed (some maker)) first last := by
    intro first last hdescends
    induction hdescends with
    | refl => exact Descends.refl _
    | @tail middle last _ hlast ih =>
      have hne : last ≠ changed := by
        rintro rfl
        rw [Function.update_self] at hlast
        cases hlast
      rw [Function.update_of_ne hne] at hlast
      refine ih.of_parent ?_
      rw [Function.update_of_ne hne]
      exact hlast
  induction h with
  | refl => exact Descends.refl _
  | @tail middle last _ hlast ih =>
    by_cases heq : last = changed
    · rw [heq] at hlast ⊢
      have hmaker : Function.update parent changed (some maker) changed = some maker :=
        Function.update_self ..
      exact Descends.of_parent (Relation.ReflTransGen.trans ih (havoiding (hkept middle hlast)))
        hmaker
    · refine ih.of_parent ?_
      rw [Function.update_of_ne heq]
      exact hlast

end Descent
