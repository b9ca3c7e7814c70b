import OpenWhistle.Foundation.Text

/-!
# LIKE patterns

The pattern language of SQL's LIKE: `%` stands for any text, `_` for any character, and an escape
character takes the next one literally. A pattern that is a literal text between two `%`, with the
special characters of the text escaped, is found in exactly those texts that contain it. ILIKE maps
the letters of both sides to lower case first.
-/

set_option autoImplicit false
set_option relaxedAutoImplicit false

namespace Like

/-- `text LIKE pattern ESCAPE '\'`. A pattern that ends with the escape character matches nothing. -/
def like : (pattern text : List Char) → Bool
  | [], text => text.isEmpty
  | '%' :: pattern, [] => like pattern []
  | '%' :: pattern, c :: text => like pattern (c :: text) || like ('%' :: pattern) text
  | '_' :: _, [] => false
  | '_' :: pattern, _ :: text => like pattern text
  | ['\\'], _ => false
  | '\\' :: _ :: _, [] => false
  | '\\' :: literal :: pattern, c :: text => decide (c = literal) && like pattern text
  | _ :: _, [] => false
  | literal :: pattern, c :: text => decide (c = literal) && like pattern text
termination_by pattern text => pattern.length + text.length

def special : List Char := ['\\', '%', '_']

/-- A text as a pattern that matches it literally. -/
def escape (text : List Char) : List Char :=
  text.flatMap fun c ↦ if c ∈ special then ['\\', c] else [c]

theorem like_percent_iff {pattern text : List Char} :
    like ('%' :: pattern) text = true ↔ ∃ skipped rest, text = skipped ++ rest ∧
      like pattern rest = true := by
  induction text with
  | nil =>
    rw [like]
    constructor
    · intro h
      exact ⟨[], [], rfl, h⟩
    · rintro ⟨skipped, rest, heq, h⟩
      obtain ⟨-, rfl⟩ := List.append_eq_nil_iff.mp heq.symm
      exact h
  | cons c text ih =>
    rw [like, Bool.or_eq_true, ih]
    constructor
    · rintro (h | ⟨skipped, rest, rfl, h⟩)
      · exact ⟨[], c :: text, rfl, h⟩
      · exact ⟨c :: skipped, rest, rfl, h⟩
    · rintro ⟨skipped, rest, heq, h⟩
      cases skipped with
      | nil =>
        left
        rw [heq]
        exact h
      | cons head skipped =>
        obtain ⟨rfl, rfl⟩ := List.cons.inj heq
        exact .inr ⟨skipped, rest, rfl, h⟩

theorem like_literal_iff {c : Char} {pattern text : List Char} :
    like ((if c ∈ special then ['\\', c] else [c]) ++ pattern) text = true ↔
      ∃ rest, text = c :: rest ∧ like pattern rest = true := by
  by_cases hspecial : c ∈ special
  · rw [if_pos hspecial]
    cases text with
    | nil => simp [like]
    | cons head text =>
      simp only [List.cons_append, List.nil_append, like, Bool.and_eq_true, decide_eq_true_eq,
        List.cons.injEq]
      constructor
      · rintro ⟨rfl, h⟩
        exact ⟨text, ⟨rfl, rfl⟩, h⟩
      · rintro ⟨rest, ⟨rfl, rfl⟩, h⟩
        exact ⟨rfl, h⟩
  · have hne : c ≠ '\\' ∧ c ≠ '%' ∧ c ≠ '_' := by simpa [special] using hspecial
    rw [if_neg hspecial]
    cases text with
    | nil => simp [like, hne]
    | cons head text =>
      rw [List.cons_append, List.nil_append, like]
      · simp only [Bool.and_eq_true, decide_eq_true_eq, List.cons.injEq]
        constructor
        · rintro ⟨rfl, h⟩
          exact ⟨text, ⟨rfl, rfl⟩, h⟩
        · rintro ⟨rest, ⟨rfl, rfl⟩, h⟩
          exact ⟨rfl, h⟩
      all_goals simp [hne]

/-- An escaped text matches itself, whatever it consists of. -/
theorem like_escape_append_iff {literal pattern text : List Char} :
    like (escape literal ++ pattern) text = true ↔
      ∃ rest, text = literal ++ rest ∧ like pattern rest = true := by
  induction literal generalizing text with
  | nil => simp [escape]
  | cons c literal ih =>
    have hcons : escape (c :: literal) ++ pattern =
        (if c ∈ special then ['\\', c] else [c]) ++ (escape literal ++ pattern) := by
      simp [escape, List.flatMap_cons]
    rw [hcons, like_literal_iff]
    constructor
    · rintro ⟨rest, rfl, h⟩
      obtain ⟨rest', rfl, h'⟩ := ih.mp h
      exact ⟨rest', rfl, h'⟩
    · rintro ⟨rest, rfl, h⟩
      exact ⟨literal ++ rest, rfl, ih.mpr ⟨rest, rfl, h⟩⟩

/-- A literal between two wildcards is found where a text contains it. -/
theorem like_contains_iff {literal text : List Char} :
    like ('%' :: (escape literal ++ ['%'])) text = true ↔ literal <:+: text := by
  have hany : ∀ rest, like ['%'] rest = true := fun rest ↦
    like_percent_iff.mpr ⟨rest, [], (List.append_nil rest).symm, by simp [like]⟩
  rw [like_percent_iff]
  constructor
  · rintro ⟨skipped, rest, rfl, h⟩
    obtain ⟨rest', rfl, -⟩ := like_escape_append_iff.mp h
    exact ⟨skipped, rest', List.append_assoc ..⟩
  · rintro ⟨skipped, rest, rfl⟩
    exact ⟨skipped, literal ++ rest, List.append_assoc ..,
      like_escape_append_iff.mpr ⟨rest, rfl, hany rest⟩⟩

theorem mem_special {c : Char} : c ∈ special ↔ c.toNat = 92 ∨ c.toNat = 37 ∨ c.toNat = 95 := by
  have hchar : ∀ d : Char, c = d ↔ c.toNat = d.toNat := fun d ↦
    ⟨congrArg Char.toNat, fun h ↦ Char.ext (UInt32.toNat_inj.mp h)⟩
  simp only [special, List.mem_cons, List.not_mem_nil, or_false, hchar]
  rfl

/-- Lower case as the database has it: letters become letters. -/
structure LowerCase where
  lower : Char → Char
  special_iff : ∀ c, lower c ∈ special ↔ c ∈ special
  lower_special : ∀ c, c ∈ special → lower c = c

/-- The letters of ASCII. -/
def ascii : LowerCase where
  lower := Char.toLower
  special_iff c := by
    rw [mem_special, mem_special, Text.toNat_toLower]
    split_ifs <;> omega
  lower_special c hspecial := by
    simp only [special, List.mem_cons, List.not_mem_nil, or_false] at hspecial
    rcases hspecial with rfl | rfl | rfl <;> rfl

variable (letters : LowerCase)

/-- `text ILIKE pattern ESCAPE '\'`. -/
def ilike (pattern text : List Char) : Bool :=
  like (pattern.map letters.lower) (text.map letters.lower)

theorem map_escape (text : List Char) :
    (escape text).map letters.lower = escape (text.map letters.lower) := by
  induction text with
  | nil => rfl
  | cons c text ih =>
    have hescape : letters.lower '\\' = '\\' := letters.lower_special _ (by simp [special])
    simp only [escape, List.flatMap_cons, List.map_append, List.map_cons] at ih ⊢
    rw [ih]
    by_cases hspecial : c ∈ special
    · rw [if_pos hspecial, if_pos ((letters.special_iff c).mpr hspecial)]
      simp [hescape]
    · rw [if_neg hspecial, if_neg (hspecial ∘ (letters.special_iff c).mp)]
      simp

/-- The search for an escaped text is a search for the text, in any letter case. -/
theorem ilike_contains_iff {literal text : List Char} :
    ilike letters ('%' :: (escape literal ++ ['%'])) text = true ↔
      literal.map letters.lower <:+: text.map letters.lower := by
  have hpercent : letters.lower '%' = '%' := letters.lower_special _ (by simp [special])
  rw [ilike, List.map_cons, List.map_append, map_escape, List.map_cons, hpercent, List.map_nil,
    like_contains_iff]

end Like
