import Mathlib.Data.List.Basic

/-!
# Replacing what an expression matches

An expression is given by what it finds at the front of a text: the length of the match, and what the
match becomes. All matches are replaced from left to right, and a match is looked for again only behind
the one before. Where nothing matches, the text stays as it is.
-/

set_option autoImplicit false
set_option relaxedAutoImplicit false

namespace OpenWhistle

variable {α : Type}

/-- What an expression finds at the front of a text: the length of the match, and what it becomes. -/
abbrev Rule (α : Type) := List α → Option (ℕ × List α)

/-- Every match is replaced, from left to right, after a number of letters that are left out. -/
def replace (rule : Rule α) : ℕ → List α → List α
  | _, [] => []
  | skip + 1, _ :: text => replace rule skip text
  | 0, c :: text =>
    match rule (c :: text) with
    | some (length, new) => new ++ replace rule (length - 1) text
    | none => c :: replace rule 0 text

/-- In front of `rest`, a text becomes another. -/
def Becomes (rule : Rule α) (text new rest : List α) : Prop :=
  replace rule 0 (text ++ rest) = new ++ replace rule 0 rest

variable {rule : Rule α} {text new rest : List α}

theorem replace_skip (text rest : List α) :
    replace rule text.length (text ++ rest) = replace rule 0 rest := by
  induction text with
  | nil => rfl
  | cons c text ih => exact ih

theorem Becomes.nil : Becomes rule [] [] rest := rfl

theorem Becomes.append {other otherNew : List α} (hfirst : Becomes rule text new (other ++ rest))
    (hsecond : Becomes rule other otherNew rest) :
    Becomes rule (text ++ other) (new ++ otherNew) rest := by
  unfold Becomes at *
  rw [List.append_assoc, hfirst, hsecond, List.append_assoc]

/-- A match becomes what the expression says. -/
theorem Becomes.of_match (hne : text ≠ []) (hrule : rule (text ++ rest) = some (text.length, new)) :
    Becomes rule text new rest := by
  obtain ⟨c, tail, rfl⟩ := List.exists_cons_of_ne_nil hne
  unfold Becomes
  rw [List.cons_append] at hrule ⊢
  rw [replace, hrule]
  dsimp only
  rw [List.length_cons, Nat.add_sub_cancel, replace_skip]

/-- A text stays as it is, if nothing matches at any place in it. -/
theorem Becomes.of_quiet (hquiet : ∀ i < text.length, rule (text.drop i ++ rest) = none) :
    Becomes rule text text rest := by
  unfold Becomes
  induction text with
  | nil => rfl
  | cons c text ih =>
    have hhead := hquiet 0 (Nat.zero_lt_succ _)
    rw [List.drop_zero, List.cons_append] at hhead
    have htail : ∀ i < text.length, rule (text.drop i ++ rest) = none := fun i hi ↦
      hquiet (i + 1) (Nat.succ_lt_succ hi)
    rw [List.cons_append, replace, hhead]
    dsimp only
    rw [ih htail]
    rfl

end OpenWhistle
