import OpenWhistle.Dashboard.Query

/-!
# The search for a case number

The query becomes a pattern for ILIKE by three replacements, one after the other, and a wildcard on
either side. The backslashes go first: each of the later replacements puts in backslashes that must
stay as they are, and neither finds what an earlier one has put in. So the three together escape
every character once, and the pattern is found in exactly those case numbers that contain the query,
in any letter case.
-/

set_option autoImplicit false
set_option relaxedAutoImplicit false

namespace OpenWhistle.Dashboard

/-- `text.replace(old, new)`, for a text `old` of one character. -/
def replaceChar (old : Char) (new text : List Char) : List Char :=
  text.flatMap fun c ↦ if c = old then new else [c]

/-- `needle`. -/
def caseNeedle (query : List Char) : List Char :=
  let backslashes := replaceChar '\\' ['\\', '\\'] query
  let percents := replaceChar '%' ['\\', '%'] backslashes
  replaceChar '_' ['\\', '_'] percents

/-- The pattern of `get_reports_paginated`. -/
def casePattern (query : List Char) : List Char := '%' :: (caseNeedle query ++ ['%'])

theorem replaceChar_self (old : Char) (new rest : List Char) :
    replaceChar old new (old :: rest) = new ++ replaceChar old new rest := by
  rw [replaceChar, List.flatMap_cons, if_pos rfl]
  rfl

theorem replaceChar_of_ne {c old : Char} (new rest : List Char) (hne : c ≠ old) :
    replaceChar old new (c :: rest) = c :: replaceChar old new rest := by
  rw [replaceChar, List.flatMap_cons, if_neg hne]
  rfl

/-- What the three replacements make of one character. -/
theorem caseNeedle_cons (c : Char) (query : List Char) :
    caseNeedle (c :: query) = (if c ∈ Like.special then ['\\', c] else [c]) ++ caseNeedle query := by
  unfold caseNeedle
  dsimp only
  by_cases hbackslash : c = '\\'
  · subst hbackslash
    rw [replaceChar_self, List.cons_append, List.cons_append, List.nil_append,
      replaceChar_of_ne _ _ (by decide), replaceChar_of_ne _ _ (by decide),
      replaceChar_of_ne _ _ (by decide), replaceChar_of_ne _ _ (by decide)]
    rfl
  rw [replaceChar_of_ne _ _ hbackslash]
  by_cases hpercent : c = '%'
  · subst hpercent
    rw [replaceChar_self, List.cons_append, List.cons_append, List.nil_append,
      replaceChar_of_ne _ _ (by decide), replaceChar_of_ne _ _ (by decide)]
    rfl
  rw [replaceChar_of_ne _ _ hpercent]
  by_cases hunderscore : c = '_'
  · subst hunderscore
    rw [replaceChar_self]
    rfl
  have hplain : c ∉ Like.special := by
    simp only [Like.special, List.mem_cons, List.not_mem_nil, or_false, not_or]
    exact ⟨hbackslash, hpercent, hunderscore⟩
  rw [replaceChar_of_ne _ _ hunderscore, if_neg hplain]
  rfl

/-- The replacements escape the query. -/
theorem caseNeedle_eq_escape (query : List Char) : caseNeedle query = Like.escape query := by
  induction query with
  | nil => rfl
  | cons c query ih =>
    rw [caseNeedle_cons, ih]
    rfl

variable (letters : Like.LowerCase)

/-- A text occurs in another as it is, up to the case of its letters. -/
def OccursIn (query text : List Char) : Prop :=
  ∃ before found after, text = before ++ found ++ after ∧
    found.map letters.lower = query.map letters.lower

theorem occursIn_iff {query text : List Char} :
    OccursIn letters query text ↔ query.map letters.lower <:+: text.map letters.lower := by
  constructor
  · rintro ⟨before, found, after, rfl, hfound⟩
    refine ⟨before.map letters.lower, after.map letters.lower, ?_⟩
    rw [List.map_append, List.map_append, hfound]
  · rintro ⟨before, after, heq⟩
    obtain ⟨front, after', rfl, hfront, -⟩ := List.map_eq_append_iff.mp heq.symm
    obtain ⟨before', found, rfl, -, hfound⟩ := List.map_eq_append_iff.mp hfront
    exact ⟨before', found, after', rfl, hfound⟩

/-- The search for a case number is literal: the pattern matches exactly the case numbers in which
the query occurs, whatever it consists of. The letters of ASCII are one choice of `letters`. -/
theorem case_search_is_literal (query caseNumber : List Char) :
    Like.ilike letters (casePattern query) caseNumber = true ↔
      OccursIn letters query caseNumber := by
  rw [casePattern, caseNeedle_eq_escape, Like.ilike_contains_iff, occursIn_iff]

example : Like.ilike Like.ascii (casePattern ['w', '_', '%']) ['O', 'W', '_', '%', '1'] = true := by
  decide +kernel

end OpenWhistle.Dashboard
