import OpenWhistle.Foundation.Descent
import Mathlib.Data.List.Basic

/-!
# Who made whom

An account remembers the account that made it. Two accounts one of which made the other, directly or
through others, count as one pair of eyes, because the maker chose the first password. The check
walks from each of the two along `created_by_id`, and stops where it has been before. Every round of
the walk that goes on finds a stored account it has not seen, so as many rounds as there are accounts
and one more are enough, and the walk has seen exactly the accounts its start descends from.
-/

set_option autoImplicit false
set_option relaxedAutoImplicit false

namespace OpenWhistle.Deletion

open Descent

/-- The stored accounts, each with the one that made it. -/
structure Family (α : Type) where
  accounts : List α
  createdById : α → Option α

namespace Family

variable {α : Type} [DecidableEq α] (family : Family α)

/-- SELECT `created_by_id` of an account; nothing where there is no such account. -/
def madeBy (account : α) : Option α :=
  if account ∈ family.accounts then family.createdById account else none

/-- The loop of `makers`. -/
def makersFrom : ℕ → Option α → List α → List α
  | 0, _, seen => seen
  | _ + 1, none, seen => seen
  | rounds + 1, some current, seen =>
    if current ∈ seen then seen else makersFrom rounds (family.madeBy current) (current :: seen)

def makers (start : α) : List α :=
  family.makersFrom (family.accounts.length + 1) (some start) []

/-- `_one_made_the_other`. -/
def oneMadeTheOther (a : Option α) (b : α) : Bool :=
  match a with
  | none => false
  | some a => decide (a ∈ family.makers b) || decide (b ∈ family.makers a)

variable {family}

/-- The accounts the walk has not seen. -/
def unseen (family : Family α) (seen : List α) : List α :=
  family.accounts.filter fun account ↦ account ∉ seen

/-- A stored account that is seen now was unseen before. -/
theorem length_unseen_cons_lt {current : α} {seen : List α} (hknown : current ∈ family.accounts)
    (hnew : current ∉ seen) :
    (family.unseen (current :: seen)).length < (family.unseen seen).length := by
  have hsub : family.unseen (current :: seen) =
      (family.unseen seen).filter fun account ↦ account ≠ current := by
    rw [unseen, unseen, List.filter_filter]
    apply List.filter_congr
    intro account _
    by_cases heq : account = current <;> simp [heq]
  rw [hsub]
  have hmem : current ∈ family.unseen seen := List.mem_filter.mpr ⟨hknown, by simpa using hnew⟩
  exact List.length_filter_lt_length_iff_exists.mpr ⟨current, hmem, by simp⟩

theorem mem_makersFrom_of_mem {rounds : ℕ} {account : α} :
    ∀ {current : Option α} {seen : List α}, account ∈ seen →
      account ∈ family.makersFrom rounds current seen := by
  induction rounds with
  | zero => exact fun h ↦ h
  | succ rounds ih =>
    intro current seen h
    cases current with
    | none => exact h
    | some start =>
      show account ∈ if start ∈ seen then seen else _
      split_ifs
      · exact h
      · exact ih (List.mem_cons_of_mem _ h)

/-- The walk sees makers only. -/
theorem descends_of_mem_makersFrom {rounds : ℕ} {account start : α} :
    ∀ {current : Option α} {seen : List α}, (∀ made ∈ current, Descends family.madeBy made start) →
      (∀ made ∈ seen, Descends family.madeBy made start) →
      account ∈ family.makersFrom rounds current seen → Descends family.madeBy account start := by
  induction rounds with
  | zero => exact fun _ hseen hmem ↦ hseen account hmem
  | succ rounds ih =>
    intro current seen hcurrent hseen hmem
    cases current with
    | none => exact hseen account hmem
    | some made =>
      change account ∈ (if made ∈ seen then seen else _) at hmem
      have hmade := hcurrent made rfl
      split_ifs at hmem
      · exact hseen account hmem
      · refine ih (fun maker hmaker ↦ ?_) (fun other hother ↦ ?_) hmem
        · exact Relation.ReflTransGen.trans (Descends.child hmaker) hmade
        · rcases List.mem_cons.mp hother with rfl | hold
          · exact hmade
          · exact hseen other hold

/-- With enough rounds, the maker of everything the walk has seen is seen as well. -/
theorem makersFrom_closed {rounds : ℕ} {made maker : α} :
    ∀ {current : Option α} {seen : List α},
      (current = none ∨ (family.unseen seen).length < rounds) →
      (∀ other ∈ seen, ∀ next, family.madeBy other = some next → next ∈ seen ∨ current = some next) →
      made ∈ family.makersFrom rounds current seen → family.madeBy made = some maker →
      maker ∈ family.makersFrom rounds current seen := by
  induction rounds with
  | zero =>
    intro current seen henough hseen hmem hmaker
    rcases henough with rfl | hlt
    · rcases hseen made hmem maker hmaker with hold | hnext
      · exact hold
      · cases hnext
    · exact absurd hlt (Nat.not_lt_zero _)
  | succ rounds ih =>
    intro current seen henough hseen hmem hmaker
    cases current with
    | none =>
      rcases hseen made hmem maker hmaker with hold | hnext
      · exact hold
      · cases hnext
    | some start =>
      by_cases hstart : start ∈ seen
      · have hstop : family.makersFrom (rounds + 1) (some start) seen = seen := if_pos hstart
        rw [hstop] at hmem ⊢
        rcases hseen made hmem maker hmaker with hold | hnext
        · exact hold
        · cases hnext
          exact hstart
      · have hgo : family.makersFrom (rounds + 1) (some start) seen =
            family.makersFrom rounds (family.madeBy start) (start :: seen) := if_neg hstart
        rw [hgo] at hmem ⊢
        refine ih ?_ (fun other hother next hnext ↦ ?_) hmem hmaker
        · by_cases hknown : start ∈ family.accounts
          · right
            have hlt := henough.resolve_left nofun
            have hless := length_unseen_cons_lt hknown hstart
            omega
          · left
            exact if_neg hknown
        · rcases List.mem_cons.mp hother with rfl | hold
          · exact .inr hnext
          · rcases hseen other hold next hnext with hin | heq
            · exact .inl (List.mem_cons_of_mem _ hin)
            · cases heq
              exact .inl List.mem_cons_self

/-- The walk from an account sees exactly what the account descends from. -/
theorem mem_makers_iff {account start : α} :
    account ∈ family.makers start ↔ Descends family.madeBy account start := by
  constructor
  · intro hmem
    refine descends_of_mem_makersFrom (fun made hmade ↦ ?_) (fun made hmade ↦ ?_) hmem
    · cases hmade
      exact Descends.refl _
    · cases hmade
  · intro hdescends
    have henough : (family.unseen []).length < family.accounts.length + 1 :=
      Nat.lt_succ_of_le (List.length_filter_le _ _)
    have hfirst : family.makers start =
        family.makersFrom family.accounts.length (family.madeBy start) [start] := by
      rw [makers, makersFrom, if_neg List.not_mem_nil]
    have hstart : start ∈ family.makers start := by
      rw [hfirst]
      exact mem_makersFrom_of_mem List.mem_cons_self
    refine hdescends.closed (fun other ↦ other ∈ family.makers start) (fun made maker hmade hmaker ↦ ?_)
      hstart
    exact makersFrom_closed (.inr henough) (fun _ h ↦ nomatch h) hmade hmaker

/-- Neither of two accounts is reachable from the other along `created_by_id`. -/
def Apart (family : Family α) (a b : α) : Prop :=
  ¬Descends family.madeBy a b ∧ ¬Descends family.madeBy b a

theorem apart_of_oneMadeTheOther {a b : α} (h : family.oneMadeTheOther (some a) b = false) :
    family.Apart a b := by
  simp only [oneMadeTheOther, Bool.or_eq_false_iff, decide_eq_false_iff_not, mem_makers_iff] at h
  exact h

end Family

end OpenWhistle.Deletion
