import OpenWhistle.Deletion.Makers
import OpenWhistle.Foundation.Loop

/-!
# The walk along the makers ends

The two walks of the check stop where they have been before, and at an account that nobody made. So
whatever the table says, circles and accounts that made themselves included, a walk takes one turn an
account at most and one more, and ends with the accounts its start is reached from. The check is
therefore one for reachability in either direction.
-/

set_option autoImplicit false
set_option relaxedAutoImplicit false

namespace OpenWhistle.Deletion

open Descent Loop

namespace Family

variable {α : Type} [DecidableEq α] (family : Family α)

/-- One turn of the loop of `makers`, on `current` and `seen`. -/
def makersTurn : Option α × List α → Turn (Option α × List α) (List α)
  | (none, seen) => .leave seen
  | (some current, seen) =>
    if current ∈ seen then .leave seen else .again (family.madeBy current, current :: seen)

/-- How many turns are left at most: one for each account that was not seen, and one more. -/
def turnsLeft : Option α × List α → ℕ
  | (none, _) => 0
  | (some _, seen) => (family.unseen seen).length + 1

variable {family}

theorem turnsLeft_madeBy_lt (family : Family α) {current : α} {seen : List α}
    (hnew : current ∉ seen) :
    family.turnsLeft (family.madeBy current, current :: seen) <
      family.turnsLeft (some current, seen) := by
  unfold madeBy
  split_ifs with hknown
  · have hless := length_unseen_cons_lt hknown hnew
    cases family.createdById current with
    | none => exact Nat.succ_pos _
    | some maker => exact Nat.succ_lt_succ hless
  · exact Nat.succ_pos _

/-- More rounds than turns are left see nothing more. -/
theorem makersFrom_eq {rounds more : ℕ} : ∀ {current : Option α} {seen : List α},
    family.turnsLeft (current, seen) ≤ rounds → family.turnsLeft (current, seen) ≤ more →
    family.makersFrom rounds current seen = family.makersFrom more current seen := by
  induction rounds generalizing more with
  | zero =>
    intro current seen hrounds _
    cases current with
    | none => cases more <;> rfl
    | some current => exact absurd hrounds (Nat.not_succ_le_zero _)
  | succ rounds ih =>
    intro current seen hrounds hmore
    cases current with
    | none => cases more <;> rfl
    | some current =>
      cases more with
      | zero => exact absurd hmore (Nat.not_succ_le_zero _)
      | succ more =>
        by_cases hseen : current ∈ seen
        · rw [makersFrom, makersFrom, if_pos hseen, if_pos hseen]
        · have hless := turnsLeft_madeBy_lt family hseen
          rw [makersFrom, makersFrom, if_neg hseen, if_neg hseen]
          exact ih (by omega) (by omega)

theorem walk_ends (state : Option α × List α) : ∃ n ≤ family.turnsLeft state,
    Ends family.makersTurn n state
      (family.makersFrom (family.turnsLeft state) state.1 state.2) := by
  refine exists_ends family.makersTurn family.turnsLeft
    (fun state ↦ family.makersFrom (family.turnsLeft state) state.1 state.2)
    (fun ⟨current, seen⟩ result hleave ↦ ?_) (fun ⟨current, seen⟩ result hfinish ↦ ?_)
    (fun ⟨current, seen⟩ next hagain ↦ ?_) state
  · cases current with
    | none => exact Turn.leave.inj hleave
    | some current =>
      unfold makersTurn at hleave
      dsimp only at hleave
      split_ifs at hleave with hseen
      rw [← Turn.leave.inj hleave]
      exact if_pos hseen
  · cases current with
    | none => cases hfinish
    | some current =>
      unfold makersTurn at hfinish
      dsimp only at hfinish
      split_ifs at hfinish
  · cases current with
    | none => cases hagain
    | some current =>
      unfold makersTurn at hagain
      dsimp only at hagain
      split_ifs at hagain with hseen
      rw [← Turn.again.inj hagain]
      have hless := turnsLeft_madeBy_lt family hseen
      refine ⟨hless, ?_⟩
      change family.makersFrom ((family.unseen seen).length + 1) (some current) seen = _
      rw [makersFrom, if_neg hseen]
      exact makersFrom_eq (Nat.le_of_lt_succ hless) (Nat.le_refl _)

/-- The walk from an account ends, with what `makers` returns. -/
theorem makers_ends (start : α) : ∃ n ≤ family.accounts.length + 1,
    Ends family.makersTurn n (some start, []) (family.makers start) := by
  have hbound : family.turnsLeft (some start, []) ≤ family.accounts.length + 1 :=
    Nat.succ_le_succ (List.length_filter_le _ _)
  have hvalue : family.makersFrom (family.turnsLeft (some start, [])) (some start) [] =
      family.makers start :=
    makersFrom_eq (Nat.le_refl _) hbound
  obtain ⟨n, hn, hends⟩ := walk_ends (some start, [])
  rw [hvalue] at hends
  exact ⟨n, Nat.le_trans hn hbound, hends⟩

/-- `_one_made_the_other` ends, and tells whether one of two accounts is reached from the other
along `created_by_id`, in no steps or more. -/
theorem one_made_the_other_iff_reachable (family : Family α) (a b : α) :
    (∀ start, ∃ n ≤ family.accounts.length + 1,
      Ends family.makersTurn n (some start, []) (family.makers start)) ∧
    (family.oneMadeTheOther (some a) b = true ↔
      Descends family.madeBy a b ∨ Descends family.madeBy b a) := by
  refine ⟨makers_ends, ?_⟩
  simp only [oneMadeTheOther, Bool.or_eq_true, decide_eq_true_eq, mem_makers_iff]

/-- Two accounts that made each other, and one that made itself. -/
example : Family.oneMadeTheOther ⟨[1, 2, 3], fun n ↦ if n = 1 then some 2 else if n = 2 then some 1
    else some 3⟩ (some 1) 2 = true := by decide

end Family

end OpenWhistle.Deletion
