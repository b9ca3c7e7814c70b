import OpenWhistle.Foundation.ZeroPadded
import OpenWhistle.Updates.Feed

/-!
# Versions and ranges

A range of an advisory is read by splitting it at its commas and looking for an operator in front of
each piece; what is left has to be a version of at most four components of at most six digits. This
is the inverse of printing such constraints with any white space, and nothing else is read. The
comparison is that of the components in order, with zeros behind the last.

The notice of an update compares the components as they are, without the zeros: there 2.4 is older
than 2.4.0.
-/

set_option autoImplicit false
set_option relaxedAutoImplicit false

namespace OpenWhistle.Updates

open ZeroPadded (Same Below)

/-- What is known of the decimal digits of Unicode: 0 is one, and what else a range is made of is
none. -/
structure Digits (site : Site) : Prop where
  zero : site.decimal '0' = some 0
  plain : ∀ c, isDecimal site c = true →
    Text.isSpace c = false ∧ c ∉ [',', '.', '-', '+', '<', '>', '=', 'v', 'V']

variable (site : Site)

/-! ### Printing -/

/-- A version of numeric components, with or without a letter in front. -/
structure Version where
  letter : List Char
  parts : List (List Char)
  letter_mem : letter ∈ [[], ['v'], ['V']]
  parts_ne_nil : parts ≠ []
  numeric : ∀ part ∈ parts, part ≠ [] ∧ part.all (isDecimal site) = true

variable {site}

def Version.text (version : Version site) : List Char :=
  version.letter ++ ['.'].intercalate version.parts

def Version.numbers (version : Version site) : List ℕ := version.parts.map (toInt site)

/-- What `_VERSION` allows: four components of six digits. -/
def Version.Short (version : Version site) : Prop :=
  version.parts.length ≤ 4 ∧ ∀ part ∈ version.parts, part.length ≤ 6

/-- What `int` takes: components of at most 4300 digits. -/
def Version.Readable (version : Version site) : Prop :=
  ∀ part ∈ version.parts, part.length ≤ maxDigits

instance Version.decidableReadable (version : Version site) : Decidable version.Readable :=
  inferInstanceAs (Decidable (∀ part ∈ version.parts, part.length ≤ maxDigits))

/-- `operators`, by operator. -/
def Comparison.sign : Comparison → List Char
  | .le => ['<', '=']
  | .ge => ['>', '=']
  | .lt => ['<']
  | .gt => ['>']
  | .eq => ['=']

variable (site) in
/-- A constraint with white space around its operator and its version. -/
structure Constraint where
  before : List Char
  operator : Comparison
  /-- The operator `=` may be left out. -/
  written : Bool
  between : List Char
  version : Version site
  after : List Char
  spaces : ∀ c ∈ before ++ between ++ after, Text.isSpace c = true
  written_or : written = true ∨ operator = .eq
  short : version.Short

def Constraint.sign (piece : Constraint site) : List Char :=
  if piece.written then piece.operator.sign else []

def Constraint.text (piece : Constraint site) : List Char :=
  piece.before ++ piece.sign ++ piece.between ++ piece.version.text ++ piece.after

/-- The constraints, joined by commas. -/
def rangeText (pieces : List (Constraint site)) : String :=
  String.ofList ([','].intercalate (pieces.map Constraint.text))

/-- What an operator says of components. -/
def Comparison.Means : Comparison → List ℕ → List ℕ → Prop
  | .lt, cur, bound => Below cur bound
  | .gt, cur, bound => Below bound cur
  | .eq, cur, bound => Same cur bound
  | .le, cur, bound => Below cur bound ∨ Same cur bound
  | .ge, cur, bound => Below bound cur ∨ Same cur bound

/-! ### The characters of a version -/

section Characters

variable {version : Version site} (hdigits : Digits site)

theorem mem_intercalate {c : Char} {parts : List (List Char)} (h : c ∈ ['.'].intercalate parts) :
    c = '.' ∨ ∃ part ∈ parts, c ∈ part := by
  induction parts with
  | nil => cases h
  | cons part parts ih =>
    by_cases hparts : parts = []
    · subst hparts
      rw [List.intercalate_singleton] at h
      exact .inr ⟨part, List.mem_cons_self, h⟩
    · rw [List.intercalate_cons_of_ne_nil hparts, List.mem_append, List.mem_append] at h
      rcases h with (hpart | hdot) | hrest
      · exact .inr ⟨part, List.mem_cons_self, hpart⟩
      · exact .inl (List.mem_singleton.mp hdot)
      · rcases ih hrest with hdot | ⟨other, hother, hc⟩
        · exact .inl hdot
        · exact .inr ⟨other, List.mem_cons_of_mem _ hother, hc⟩

theorem isDecimal_of_mem {part : List Char} (hpart : part ∈ version.parts) {c : Char} (hc : c ∈ part) :
    isDecimal site c = true :=
  List.all_eq_true.mp (version.numeric part hpart).2 c hc

theorem mem_letter {c : Char} (hc : c ∈ version.letter) : c = 'v' ∨ c = 'V' := by
  have hletter := version.letter_mem
  simp only [List.mem_cons, List.not_mem_nil, or_false] at hletter
  rcases hletter with h | h | h
  · rw [h] at hc
    cases hc
  · rw [h] at hc
    exact .inl (List.mem_singleton.mp hc)
  · rw [h] at hc
    exact .inr (List.mem_singleton.mp hc)

/-- A version is made of a letter, of points and of digits. -/
theorem mem_text {c : Char} (hc : c ∈ version.text) :
    c = 'v' ∨ c = 'V' ∨ c = '.' ∨ isDecimal site c = true := by
  rcases List.mem_append.mp hc with hletter | hrest
  · rcases mem_letter hletter with h | h
    · exact .inl h
    · exact .inr (.inl h)
  · rcases mem_intercalate hrest with hdot | ⟨part, hpart, hmem⟩
    · exact .inr (.inr (.inl hdot))
    · exact .inr (.inr (.inr (isDecimal_of_mem hpart hmem)))

/-- Behind the letter there is a digit. -/
theorem head?_intercalate (version : Version site) :
    ∃ c rest, ['.'].intercalate version.parts = c :: rest ∧ isDecimal site c = true := by
  have hne := version.parts_ne_nil
  have hnumeric := version.numeric
  cases hparts : version.parts with
  | nil => exact absurd hparts hne
  | cons part parts =>
    obtain ⟨hpart, hall⟩ := hnumeric part (hparts ▸ List.mem_cons_self)
    cases part with
    | nil => exact absurd rfl hpart
    | cons c part =>
      have hc : isDecimal site c = true := List.all_eq_true.mp hall c List.mem_cons_self
      by_cases hrest : parts = []
      · subst hrest
        exact ⟨c, part, List.intercalate_singleton, hc⟩
      · refine ⟨c, part ++ ['.'] ++ ['.'].intercalate parts, ?_, hc⟩
        rw [List.intercalate_cons_of_ne_nil hrest]
        rfl

include hdigits

theorem isSpace_of_mem_text {c : Char} (hc : c ∈ version.text) : Text.isSpace c = false := by
  rcases mem_text hc with rfl | rfl | rfl | hdecimal
  · decide
  · decide
  · decide
  · exact (hdigits.plain c hdecimal).1

theorem not_mem_text {c : Char} (hc : c ∈ [',', '-', '+', '<', '>', '=']) : c ∉ version.text := by
  intro hmem
  rcases mem_text hmem with rfl | rfl | rfl | hdecimal
  · revert hc
    decide
  · revert hc
    decide
  · revert hc
    decide
  · have hplain := (hdigits.plain c hdecimal).2
    simp only [List.mem_cons, List.not_mem_nil, or_false] at hc hplain
    tauto

theorem splitOn_parts : (['.'].intercalate version.parts).splitOn '.' = version.parts := by
  refine List.splitOn_intercalate '.' (fun part hpart hdot ↦ ?_) version.parts_ne_nil
  have hplain := (hdigits.plain '.' (isDecimal_of_mem hpart hdot)).2
  revert hplain
  decide

end Characters

/-! ### Reading a version -/

section Reading

theorem parseParts_numeric {parts : List (List Char)}
    (hnumeric : ∀ part ∈ parts, part ≠ [] ∧ part.all (isDecimal site) = true) :
    parseParts site parts = parts.map (toInt site) := by
  induction parts with
  | nil => rfl
  | cons part parts ih =>
    rw [parseParts, if_pos (hnumeric part List.mem_cons_self), List.map_cons,
      ih fun other hother ↦ hnumeric other (List.mem_cons_of_mem _ hother)]

variable {version : Version site} (hdigits : Digits site)

include hdigits

theorem stripChars_text : Text.stripChars version.text = version.text := by
  have h : Text.stripChars ([] ++ version.text ++ []) = version.text :=
    Text.stripChars_pad nofun (fun c hc ↦ isSpace_of_mem_text hdigits hc) nofun
  rwa [List.nil_append, List.append_nil] at h

theorem dropLetter_text : (version.text.dropWhile fun c ↦ c = 'v' || c = 'V') =
    ['.'].intercalate version.parts := by
  obtain ⟨c, rest, hrest, hc⟩ := head?_intercalate version
  have hplain := (hdigits.plain c hc).2
  rw [Version.text, List.dropWhile_append_of_pos, hrest]
  · refine List.dropWhile_cons_of_neg ?_
    simp only [List.mem_cons, List.not_mem_nil, or_false] at hplain
    simp only [Bool.or_eq_true, decide_eq_true_eq]
    tauto
  · intro letter hletter
    simp only [Bool.or_eq_true, decide_eq_true_eq]
    exact mem_letter hletter

/-- A printed version is read as its numbers. -/
theorem parseVersion_text : parseVersion site version.text = version.numbers := by
  have hkept : ∀ c ∈ [',', '-', '+', '<', '>', '='],
      ((['.'].intercalate version.parts).takeWhile fun d ↦ d ≠ c) =
        ['.'].intercalate version.parts := by
    intro c hc
    refine List.takeWhile_eq_self_iff.mpr fun d hd ↦ decide_eq_true fun heq ↦ ?_
    exact not_mem_text hdigits hc (heq ▸ List.mem_append_right version.letter hd)
  unfold parseVersion
  dsimp only
  rw [stripChars_text hdigits, dropLetter_text hdigits, hkept '-' (by decide), hkept '+' (by decide),
    splitOn_parts hdigits, parseParts_numeric version.numeric]
  cases hnumbers : version.parts.map (toInt site) with
  | nil => exact absurd (List.map_eq_nil_iff.mp hnumbers) version.parts_ne_nil
  | cons number numbers => rw [Version.numbers, hnumbers]

end Reading

/-- The rest of a text behind a letter in front. -/
def withoutLetter : List Char → List Char
  | 'v' :: rest => rest
  | 'V' :: rest => rest
  | rest => rest

theorem exists_letter (text : List Char) :
    ∃ letter ∈ [[], ['v'], ['V']], text = letter ++ withoutLetter text := by
  unfold withoutLetter
  split
  · exact ⟨['v'], by decide, rfl⟩
  · exact ⟨['V'], by decide, rfl⟩
  · exact ⟨[], by decide, rfl⟩

theorem withoutLetter_text (hdigits : Digits site) (version : Version site) :
    withoutLetter version.text = ['.'].intercalate version.parts := by
  obtain ⟨c, rest, hrest, hc⟩ := head?_intercalate version
  have hplain := (hdigits.plain c hc).2
  simp only [List.mem_cons, List.not_mem_nil, or_false, not_or] at hplain
  have hletter := version.letter_mem
  simp only [List.mem_cons, List.not_mem_nil, or_false] at hletter
  rw [Version.text]
  rcases hletter with h | h | h
  · rw [h, hrest, List.nil_append]
    unfold withoutLetter
    split
    · next heq => exact absurd (List.cons.inj heq).1 (by tauto)
    · next heq => exact absurd (List.cons.inj heq).1 (by tauto)
    · rfl
  · rw [h]
    rfl
  · rw [h]
    rfl

theorem isVersion_eq (text : List Char) : isVersion site text =
    (decide (((withoutLetter text).splitOn '.').length ≤ 4) &&
      ((withoutLetter text).splitOn '.').all fun part ↦
        decide (1 ≤ part.length ∧ part.length ≤ 6) && part.all (isDecimal site)) := rfl

theorem isVersion_text (hdigits : Digits site) {version : Version site} (hshort : version.Short) :
    isVersion site version.text = true := by
  rw [isVersion_eq, withoutLetter_text hdigits, splitOn_parts hdigits, Bool.and_eq_true,
    decide_eq_true_eq, List.all_eq_true]
  refine ⟨hshort.1, fun part hpart ↦ ?_⟩
  obtain ⟨hne, hall⟩ := version.numeric part hpart
  rw [hall, Bool.and_true, decide_eq_true_eq]
  exact ⟨List.length_pos_iff.mpr hne, hshort.2 part hpart⟩

/-- Nothing but a version is read as one. -/
theorem exists_of_isVersion {text : List Char} (h : isVersion site text = true) :
    ∃ version : Version site, version.Short ∧ version.text = text := by
  obtain ⟨letter, hletter, htext⟩ := exists_letter text
  rw [isVersion_eq, Bool.and_eq_true, decide_eq_true_eq, List.all_eq_true] at h
  obtain ⟨hfour, hparts⟩ := h
  have hpart : ∀ part ∈ (withoutLetter text).splitOn '.',
      (1 ≤ part.length ∧ part.length ≤ 6) ∧ part.all (isDecimal site) = true := by
    intro part hmem
    have hcheck := hparts part hmem
    rw [Bool.and_eq_true, decide_eq_true_eq] at hcheck
    exact hcheck
  refine ⟨⟨letter, (withoutLetter text).splitOn '.', hletter, List.splitOn_ne_nil _ _, ?_⟩,
    ⟨hfour, fun part hmem ↦ (hpart part hmem).1.2⟩, ?_⟩
  · exact fun part hmem ↦ ⟨List.length_pos_iff.mp (hpart part hmem).1.1, (hpart part hmem).2⟩
  · rw [Version.text, List.intercalate_splitOn]
    exact htext.symm

/-! ### Reading a constraint -/

theorem stripChars_front {before front tail after : List Char}
    (hbefore : ∀ c ∈ before, Text.isSpace c = true) (hafter : ∀ c ∈ after, Text.isSpace c = true)
    (hfront : ∀ c ∈ front.head?, Text.isSpace c = false) (htail : ∀ c ∈ tail, Text.isSpace c = false)
    (hne : tail ≠ []) : Text.stripChars (before ++ (front ++ tail) ++ after) = front ++ tail := by
  obtain ⟨first, rest, hcore, hfirst⟩ : ∃ first rest, front ++ tail = first :: rest ∧
      Text.isSpace first = false := by
    cases front with
    | cons c front => exact ⟨c, front ++ tail, rfl, hfront c rfl⟩
    | nil =>
      cases tail with
      | nil => exact absurd rfl hne
      | cons c tail => exact ⟨c, tail, rfl, htail c List.mem_cons_self⟩
  rw [Text.stripChars, List.append_assoc, List.dropWhile_append_of_pos hbefore, hcore, List.cons_append,
    List.dropWhile_cons_of_neg (by rw [hfirst]; exact Bool.false_ne_true), ← List.cons_append, ← hcore,
    List.reverse_append, List.dropWhile_append_of_pos fun c hc ↦ hafter c (List.mem_reverse.mp hc)]
  rcases List.eq_nil_or_concat tail with hnil | ⟨init, last, htailEq⟩
  · exact absurd hnil hne
  · have hlast : Text.isSpace last = false :=
      htail last (by rw [htailEq, List.concat_eq_append]; exact List.mem_append_right _ (.head _))
    rw [htailEq, List.concat_eq_append, ← List.append_assoc, List.reverse_concat,
      List.dropWhile_cons_of_neg (by rw [hlast]; exact Bool.false_ne_true), List.reverse_cons,
      List.reverse_reverse]

theorem sign_of_mem : ∀ found ∈ operators, found.1 = found.2.sign ∧ found.1 ≠ [] := by
  decide

theorem find?_sign (operator : Comparison) {rest : List Char} (hrest : ∀ c ∈ rest.head?, c ≠ '=') :
    (operators.find? fun candidate ↦ candidate.1.isPrefixOf (operator.sign ++ rest)) =
      some (operator.sign, operator) := by
  cases rest with
  | nil => cases operator <;> rfl
  | cons c rest =>
    have hc : ('=' == c) = false := beq_false_of_ne (hrest c rfl).symm
    cases operator <;> simp [operators, Comparison.sign, List.isPrefixOf, hc]

theorem find?_sign_eq_none {rest : List Char} (hrest : ∀ c ∈ rest.head?, c ∉ ['<', '>', '=']) :
    (operators.find? fun candidate ↦ candidate.1.isPrefixOf rest) = none := by
  cases rest with
  | nil => rfl
  | cons c rest =>
    have hc := hrest c rfl
    simp only [List.mem_cons, List.not_mem_nil, or_false, not_or] at hc
    simp [operators, List.isPrefixOf, Ne.symm hc.1, Ne.symm hc.2.1, Ne.symm hc.2.2]

theorem text_ne_nil (version : Version site) : version.text ≠ [] := by
  obtain ⟨c, rest, hrest, _⟩ := head?_intercalate version
  rw [Version.text, hrest]
  exact List.append_ne_nil_of_right_ne_nil _ (List.cons_ne_nil c rest)

theorem constraint_of_sign {raw sign : List Char} {operator : Comparison}
    (hfind : (operators.find? fun candidate ↦ candidate.1.isPrefixOf (Text.stripChars raw)) =
      some (sign, operator)) (hne : sign ≠ []) :
    constraint site raw =
      if isVersion site (((Text.stripChars raw).drop sign.length).dropWhile Text.isSpace) then
        some (operator, ((Text.stripChars raw).drop sign.length).dropWhile Text.isSpace)
      else none := by
  unfold constraint
  simp only [hfind, Option.getD_some, if_neg hne]

theorem constraint_of_no_sign {raw : List Char}
    (hfind : (operators.find? fun candidate ↦ candidate.1.isPrefixOf (Text.stripChars raw)) = none) :
    constraint site raw =
      if isVersion site (Text.stripChars raw) then some (.eq, Text.stripChars raw) else none := by
  unfold constraint
  simp only [hfind, Option.getD_none, if_true]

/-- A printed constraint is read as its operator and its version. -/
theorem constraint_text (hdigits : Digits site) (piece : Constraint site) :
    constraint site piece.text = some (piece.operator, piece.version.text) := by
  have hspaces := piece.spaces
  simp only [List.mem_append] at hspaces
  have hversion : ∀ c ∈ piece.version.text, Text.isSpace c = false :=
    fun c hc ↦ isSpace_of_mem_text hdigits hc
  have hhead : ∀ c ∈ piece.version.text.head?, c ∉ ['<', '>', '='] := by
    intro c hc hsign
    refine not_mem_text hdigits ?_ (List.mem_of_mem_head? hc)
    revert hsign
    simp only [List.mem_cons, List.not_mem_nil, or_false]
    tauto
  cases hwritten : piece.written with
  | false =>
    have hoperator : piece.operator = .eq := by
      rcases piece.written_or with h | h
      · rw [hwritten] at h
        cases h
      · exact h
    have hstrip : Text.stripChars piece.text = piece.version.text := by
      have h : Text.stripChars (piece.before ++ piece.between ++ ([] ++ piece.version.text) ++
          piece.after) = [] ++ piece.version.text :=
        stripChars_front (fun c hc ↦ hspaces c (.inl (List.mem_append.mp hc)))
          (fun c hc ↦ hspaces c (.inr hc)) (fun c hc ↦ by cases hc) hversion
          (text_ne_nil piece.version)
      rw [Constraint.text, Constraint.sign, hwritten, if_neg Bool.false_ne_true, List.append_nil]
      exact h
    have hfind := find?_sign_eq_none hhead
    rw [← hstrip] at hfind
    rw [constraint_of_no_sign hfind, hstrip, if_pos (isVersion_text hdigits piece.short), hoperator]
  | true =>
    have hne : piece.operator.sign ≠ [] := by
      cases piece.operator <;> exact List.cons_ne_nil _ _
    have hstrip : Text.stripChars piece.text =
        piece.operator.sign ++ (piece.between ++ piece.version.text) := by
      have hfirst : ∀ c ∈ (piece.operator.sign ++ piece.between).head?, Text.isSpace c = false := by
        intro c hc
        cases hop : piece.operator <;> rw [hop] at hc <;> cases hc <;> decide
      have h : Text.stripChars (piece.before ++ (piece.operator.sign ++ piece.between ++
          piece.version.text) ++ piece.after) =
            piece.operator.sign ++ piece.between ++ piece.version.text :=
        stripChars_front (fun c hc ↦ hspaces c (.inl (.inl hc))) (fun c hc ↦ hspaces c (.inr hc)) hfirst
          hversion (text_ne_nil piece.version)
      rw [Constraint.text, Constraint.sign, hwritten, if_pos rfl]
      simp only [List.append_assoc] at h ⊢
      exact h
    have hnext : ∀ c ∈ (piece.between ++ piece.version.text).head?, c ≠ '=' := by
      rintro c hc rfl
      rw [List.head?_append] at hc
      cases hbetween : piece.between.head? with
      | none =>
        rw [hbetween] at hc
        exact hhead '=' hc (by decide)
      | some d =>
        rw [hbetween] at hc
        have hspace := hspaces d (.inl (.inr (List.mem_of_mem_head? hbetween)))
        rw [Option.mem_def.mp hc |> Option.some.inj] at hspace
        revert hspace
        decide
    have hfind := find?_sign piece.operator hnext
    rw [← hstrip] at hfind
    have hdrop : piece.version.text.dropWhile Text.isSpace = piece.version.text := by
      cases htext : piece.version.text with
      | nil => rfl
      | cons c rest =>
        refine List.dropWhile_cons_of_neg ?_
        rw [hversion c (by rw [htext]; exact List.mem_cons_self)]
        exact Bool.false_ne_true
    rw [constraint_of_sign hfind hne, hstrip, List.drop_left,
      List.dropWhile_append_of_pos fun c hc ↦ hspaces c (.inl (.inr hc)), hdrop,
      if_pos (isVersion_text hdigits piece.short)]

theorem exists_spaces (raw : List Char) : ∃ before after,
    (∀ c ∈ before ++ after, Text.isSpace c = true) ∧ raw = before ++ Text.stripChars raw ++ after := by
  have hfront := (List.takeWhile_append_dropWhile (p := Text.isSpace) (l := raw)).symm
  have hback := (List.takeWhile_append_dropWhile (p := Text.isSpace)
    (l := (raw.dropWhile Text.isSpace).reverse)).symm
  refine ⟨raw.takeWhile Text.isSpace,
    ((raw.dropWhile Text.isSpace).reverse.takeWhile Text.isSpace).reverse, fun c hc ↦ ?_, ?_⟩
  · rcases List.mem_append.mp hc with h | h
    · exact List.mem_takeWhile_imp h
    · exact List.mem_takeWhile_imp (List.mem_reverse.mp h)
  · rw [Text.stripChars, List.append_assoc, ← List.reverse_append, ← hback, List.reverse_reverse]
    exact hfront

/-- Nothing but a printed constraint is read as one. -/
theorem exists_of_constraint {raw bound : List Char} {operator : Comparison}
    (h : constraint site raw = some (operator, bound)) :
    ∃ piece : Constraint site, piece.text = raw ∧ piece.operator = operator ∧
      piece.version.text = bound := by
  obtain ⟨before, after, hspaces, hraw⟩ := exists_spaces raw
  cases hfind : operators.find? fun candidate ↦ candidate.1.isPrefixOf (Text.stripChars raw) with
  | none =>
    rw [constraint_of_no_sign hfind] at h
    split_ifs at h with hversion
    obtain ⟨version, hshort, htext⟩ := exists_of_isVersion hversion
    cases h
    refine ⟨⟨before, .eq, false, [], version, after, ?_, .inr rfl, hshort⟩, ?_, rfl, htext⟩
    · rw [List.append_nil]
      exact hspaces
    · change before ++ [] ++ [] ++ version.text ++ after = raw
      rw [List.append_nil, List.append_nil, htext]
      exact hraw.symm
  | some found =>
    obtain ⟨sign, op⟩ := found
    have hsign : sign = op.sign ∧ sign ≠ [] :=
      sign_of_mem (sign, op) (List.mem_of_find?_eq_some hfind)
    have hfound := List.find?_some hfind
    obtain ⟨tail, htail⟩ : sign <+: Text.stripChars raw := List.isPrefixOf_iff_prefix.mp hfound
    rw [constraint_of_sign hfind hsign.2] at h
    split_ifs at h with hversion
    obtain ⟨version, hshort, htext⟩ := exists_of_isVersion hversion
    cases h
    rw [← htail, List.drop_left] at htext
    refine ⟨⟨before, operator, true, tail.takeWhile Text.isSpace, version, after, ?_, .inl rfl, hshort⟩,
      ?_, rfl, ?_⟩
    · intro c hc
      simp only [List.mem_append] at hc hspaces
      rcases hc with (h | h) | h
      · exact hspaces c (.inl h)
      · exact List.mem_takeWhile_imp h
      · exact hspaces c (.inr h)
    · change before ++ operator.sign ++ tail.takeWhile Text.isSpace ++ version.text ++ after = raw
      rw [htext, ← hsign.1]
      simp only [List.append_assoc, List.takeWhile_append_dropWhile]
      rw [hraw, ← htail]
      simp only [List.append_assoc]
    · rw [← htail, List.drop_left, htext]

/-! ### Comparing -/

/-- The comparison of padded lists is that of components up to zeros. -/
theorem holds_padded (operator : Comparison) (cur bound : List ℕ) :
    operator.holds (padded cur (max cur.length bound.length))
        (padded bound (max cur.length bound.length)) = true ↔ operator.Means cur bound := by
  have hlength : (padded cur (max cur.length bound.length)).length =
      (padded bound (max cur.length bound.length)).length := by
    unfold padded
    simp only [List.length_append, List.length_replicate]
    omega
  have hlt : padded cur (max cur.length bound.length) < padded bound (max cur.length bound.length) ↔
      Below cur bound :=
    (ZeroPadded.lt_iff_below fun _ ↦ hlength).trans (ZeroPadded.below_append_zeros ..)
  have hgt : padded bound (max cur.length bound.length) < padded cur (max cur.length bound.length) ↔
      Below bound cur :=
    (ZeroPadded.lt_iff_below fun _ ↦ hlength.symm).trans (ZeroPadded.below_append_zeros ..)
  have heq : padded cur (max cur.length bound.length) = padded bound (max cur.length bound.length) ↔
      Same cur bound :=
    (ZeroPadded.eq_iff_same hlength).trans (ZeroPadded.same_append_zeros_iff ..)
  cases operator with
  | lt => exact decide_eq_true_iff.trans hlt
  | gt => exact decide_eq_true_iff.trans hgt
  | eq => exact decide_eq_true_iff.trans heq
  | le =>
    refine decide_eq_true_iff.trans ((not_lt.symm.trans (not_congr hgt)).trans ?_)
    exact ZeroPadded.not_below_iff
  | ge =>
    refine decide_eq_true_iff.trans ((not_lt.symm.trans (not_congr hlt)).trans ?_)
    exact ZeroPadded.not_below_iff.trans (or_congr_right ⟨Same.symm, Same.symm⟩)

theorem meets_text (hdigits : Digits site) (current : List ℕ) (operator : Comparison)
    (version : Version site) :
    meets site current (operator, version.text) = true ↔ operator.Means current version.numbers := by
  unfold meets
  dsimp only
  rw [parseVersion_text hdigits]
  exact holds_padded operator current version.numbers

/-! ### Ranges -/

theorem comma_not_mem_text (hdigits : Digits site) (piece : Constraint site) : ',' ∉ piece.text := by
  have hspaces := piece.spaces
  simp only [List.mem_append] at hspaces
  unfold Constraint.text
  simp only [List.mem_append, not_or]
  refine ⟨⟨⟨⟨fun hmem ↦ ?_, fun hmem ↦ ?_⟩, fun hmem ↦ ?_⟩, not_mem_text hdigits (by decide)⟩,
    fun hmem ↦ ?_⟩
  · exact absurd (hspaces ',' (.inl (.inl hmem))) (by decide)
  · unfold Constraint.sign at hmem
    split_ifs at hmem
    · revert hmem
      cases piece.operator <;> decide
    · cases hmem
  · exact absurd (hspaces ',' (.inl (.inr hmem))) (by decide)
  · exact absurd (hspaces ',' (.inr hmem)) (by decide)

theorem exists_of_mapM {α β : Type} {f : α → Option β} {items : List α} :
    ∀ {values : List β}, items.mapM f = some values → ∀ {item}, item ∈ items →
      ∃ value, f item = some value := by
  induction items with
  | nil => exact fun _ _ hitem ↦ absurd hitem List.not_mem_nil
  | cons first items ih =>
    intro values h item hitem
    rw [List.mapM_cons] at h
    cases hfirst : f first with
    | none =>
      rw [hfirst] at h
      cases h
    | some value =>
      rw [hfirst] at h
      cases hrest : items.mapM f with
      | none =>
        rw [hrest] at h
        cases h
      | some others =>
        rcases List.mem_cons.mp hitem with rfl | hmem
        · exact ⟨value, hfirst⟩
        · exact ih hrest hmem

theorem mapM_constraint (hdigits : Digits site) (pieces : List (Constraint site)) :
    (pieces.map Constraint.text).mapM (constraint site) =
      some (pieces.map fun piece ↦ (piece.operator, piece.version.text)) := by
  induction pieces with
  | nil => rfl
  | cons piece pieces ih =>
    rw [List.map_cons, List.mapM_cons, constraint_text hdigits, ih]
    rfl

theorem constraints_rangeText (hdigits : Digits site) {pieces : List (Constraint site)}
    (hne : pieces ≠ []) (hlength : (rangeText pieces).length ≤ maxRange) :
    constraints site (rangeText pieces) =
      some (pieces.map fun piece ↦ (piece.operator, piece.version.text)) := by
  have hsplit : (rangeText pieces).toList.splitOn ',' = pieces.map Constraint.text := by
    rw [rangeText, String.toList_ofList]
    refine List.splitOn_intercalate ',' (fun text hmem ↦ ?_)
      fun hnil ↦ hne (List.map_eq_nil_iff.mp hnil)
    obtain ⟨piece, _, rfl⟩ := List.mem_map.mp hmem
    exact comma_not_mem_text hdigits piece
  rw [constraints, if_neg (not_lt.mpr hlength), hsplit, mapM_constraint hdigits]

/-- The range of printed constraints holds what meets them. -/
theorem versionInRange_rangeText (hdigits : Digits site) {pieces : List (Constraint site)}
    (hne : pieces ≠ []) (hlength : (rangeText pieces).length ≤ maxRange) (version : Version site) :
    versionInRange site (String.ofList version.text) (rangeText pieces) = true ↔
      ∀ piece ∈ pieces, piece.operator.Means version.numbers piece.version.numbers := by
  rw [versionInRange, constraints_rangeText hdigits hne hlength]
  dsimp only
  rw [List.all_map, List.all_eq_true, String.toList_ofList, parseVersion_text hdigits]
  exact forall₂_congr fun piece _ ↦ meets_text hdigits version.numbers piece.operator piece.version

/-- A range with a piece that is no constraint holds nothing. -/
theorem versionInRange_of_piece {range : String} {raw : List Char}
    (hraw : raw ∈ range.toList.splitOn ',')
    (hpiece : ∀ piece : Constraint site, piece.text ≠ raw) (version : String) :
    versionInRange site version range = false := by
  have hnone : constraint site raw = none := by
    cases h : constraint site raw with
    | none => rfl
    | some found =>
      obtain ⟨piece, htext, _⟩ := exists_of_constraint h
      exact absurd htext (hpiece piece)
  have hconstraints : constraints site range = none := by
    unfold constraints
    split_ifs
    · rfl
    · cases hall : (range.toList.splitOn ',').mapM (constraint site) with
      | none => rfl
      | some parsed =>
        obtain ⟨found, hfound⟩ := exists_of_mapM hall hraw
        rw [hnone] at hfound
        cases hfound
  rw [versionInRange, hconstraints]

theorem isSpace_of_blank : ∀ c ∈ [] ++ [' '] ++ [], Text.isSpace c = true := by
  intro c hc
  rw [List.mem_singleton.mp hc]
  decide

/-- An operator, a blank and a version. -/
def Constraint.ofOperator (operator : Comparison) {version : Version site} (hshort : version.Short) :
    Constraint site where
  before := []
  operator := operator
  written := true
  between := [' ']
  version := version
  after := []
  spaces := isSpace_of_blank
  written_or := .inl rfl
  short := hshort

/-! ### A zero more -/

theorem means_congr {cur cur' bound bound' : List ℕ} (hcur : Same cur cur') (hbound : Same bound bound')
    (operator : Comparison) : operator.Means cur bound ↔ operator.Means cur' bound' := by
  have hcur' : ∀ i, cur.getD i 0 = cur'.getD i 0 := hcur
  have hbound' : ∀ i, bound.getD i 0 = bound'.getD i 0 := hbound
  unfold Comparison.Means Same Below
  cases operator <;> simp only [hcur', hbound']

/-- A version with `.0` behind it. -/
def Version.appendZero (hdigits : Digits site) (version : Version site) : Version site where
  letter := version.letter
  parts := version.parts ++ [['0']]
  letter_mem := version.letter_mem
  parts_ne_nil := List.append_ne_nil_of_left_ne_nil version.parts_ne_nil _
  numeric part hpart := by
    rcases List.mem_append.mp hpart with hmem | hzero
    · exact version.numeric part hmem
    · rw [List.mem_singleton.mp hzero]
      exact ⟨List.cons_ne_nil _ _, by rw [List.all_cons, isDecimal, hdigits.zero]; rfl⟩

theorem intercalate_append {parts : List (List Char)} (hne : parts ≠ []) (part : List Char) :
    ['.'].intercalate (parts ++ [part]) = ['.'].intercalate parts ++ '.' :: part := by
  induction parts with
  | nil => exact absurd rfl hne
  | cons first parts ih =>
    by_cases hparts : parts = []
    · subst hparts
      rw [List.intercalate_singleton, List.cons_append, List.nil_append,
        List.intercalate_cons_of_ne_nil (List.cons_ne_nil part []), List.intercalate_singleton,
        List.append_assoc]
      rfl
    · rw [List.cons_append,
        List.intercalate_cons_of_ne_nil (List.append_ne_nil_of_left_ne_nil hparts _),
        ih hparts, List.intercalate_cons_of_ne_nil hparts]
      simp only [List.append_assoc]

theorem appendZero_text (hdigits : Digits site) (version : Version site) :
    (version.appendZero hdigits).text = version.text ++ ['.', '0'] := by
  rw [Version.text, Version.appendZero, intercalate_append version.parts_ne_nil, Version.text,
    List.append_assoc]

theorem appendZero_numbers (hdigits : Digits site) (version : Version site) :
    Same (version.appendZero hdigits).numbers version.numbers := by
  have hzero : toInt site ['0'] = 0 := by
    rw [toInt, List.foldl_cons, List.foldl_nil, hdigits.zero]
    rfl
  have hnumbers : (version.appendZero hdigits).numbers = version.numbers ++ List.replicate 1 0 := by
    rw [Version.numbers, Version.appendZero, List.map_append, List.map_singleton, hzero]
    rfl
  rw [hnumbers]
  exact ZeroPadded.same_append_zeros version.numbers 1

/-- A constraint whose version has `.0` behind it. -/
def Constraint.appendZero (hdigits : Digits site) (piece : Constraint site)
    (hthree : piece.version.parts.length ≤ 3) : Constraint site where
  before := piece.before
  operator := piece.operator
  written := piece.written
  between := piece.between
  version := piece.version.appendZero hdigits
  after := piece.after
  spaces := piece.spaces
  written_or := piece.written_or
  short := by
    refine ⟨?_, fun part hpart ↦ ?_⟩
    · rw [Version.appendZero, List.length_append, List.length_singleton]
      exact Nat.succ_le_succ hthree
    · rcases List.mem_append.mp hpart with hmem | hzero
      · exact piece.short.2 part hmem
      · rw [List.mem_singleton.mp hzero]
        exact Nat.le_add_left 1 5

/-- A range of printed constraints holds the versions that meet all of them, with zeros behind the
components; a zero more changes nothing where it can be read; and of anything else nothing is in
range. The running versions are those whose components `int` takes. -/
theorem range_means_its_constraints (site : Site) (hdigits : Digits site) :
    (∀ (pieces : List (Constraint site)) (version : Version site), version.Readable →
      pieces ≠ [] → (rangeText pieces).length ≤ maxRange →
        (versionInRange site (String.ofList version.text) (rangeText pieces) = true ↔
          ∀ piece ∈ pieces, piece.operator.Means version.numbers piece.version.numbers) ∧
        versionInRange site (String.ofList (version.text ++ ['.', '0'])) (rangeText pieces) =
          versionInRange site (String.ofList version.text) (rangeText pieces)) ∧
    (∀ (first last : List (Constraint site)) (piece : Constraint site) (version : Version site)
      (hthree : piece.version.parts.length ≤ 3), version.Readable →
      (rangeText (first ++ piece :: last)).length ≤ maxRange →
      (rangeText (first ++ piece.appendZero hdigits hthree :: last)).length ≤ maxRange →
        versionInRange site (String.ofList version.text)
            (rangeText (first ++ piece.appendZero hdigits hthree :: last)) =
          versionInRange site (String.ofList version.text) (rangeText (first ++ piece :: last))) ∧
    ∀ range : String, maxRange < range.length ∨
      (∃ raw ∈ range.toList.splitOn ',', ∀ piece : Constraint site, piece.text ≠ raw) →
        ∀ version, versionInRange site version range = false := by
  refine ⟨fun pieces version _ hne hlength ↦ ⟨?_, ?_⟩, fun first last piece version hthree _ hlength
    hlength' ↦ ?_, fun range hrange version ↦ ?_⟩
  · exact versionInRange_rangeText hdigits hne hlength version
  · rw [← appendZero_text hdigits, Bool.eq_iff_iff, versionInRange_rangeText hdigits hne hlength,
      versionInRange_rangeText hdigits hne hlength]
    exact forall₂_congr fun piece _ ↦
      means_congr (appendZero_numbers hdigits version) (fun _ ↦ rfl) piece.operator
  · have hne : ∀ other : Constraint site, first ++ other :: last ≠ [] :=
      fun other ↦ List.append_ne_nil_of_right_ne_nil _ (List.cons_ne_nil _ _)
    rw [Bool.eq_iff_iff, versionInRange_rangeText hdigits (hne _) hlength',
      versionInRange_rangeText hdigits (hne _) hlength, List.forall_mem_append, List.forall_mem_append,
      List.forall_mem_cons, List.forall_mem_cons]
    refine and_congr_right fun _ ↦ and_congr_left fun _ ↦ ?_
    exact means_congr (fun _ ↦ rfl) (appendZero_numbers hdigits piece.version) piece.operator
  · rcases hrange with hlong | ⟨raw, hraw, hpiece⟩
    · rw [versionInRange, constraints, if_pos hlong]
    · exact versionInRange_of_piece hraw hpiece version

/-- The digits of ASCII, and no others. -/
def asciiSite : Site where
  updateCheckEnabled := true
  decimal c := if c.isDigit then some (c.toNat - 48) else none
  isoformat _ := ""

theorem toNat_of_isDecimal {c : Char} (h : isDecimal asciiSite c = true) :
    48 ≤ c.toNat ∧ c.toNat ≤ 57 := by
  unfold isDecimal asciiSite at h
  dsimp only at h
  split_ifs at h with hdigit
  · rw [Char.isDigit, Bool.and_eq_true, decide_eq_true_eq, decide_eq_true_eq] at hdigit
    exact hdigit
  · cases h

theorem digits_asciiSite : Digits asciiSite where
  zero := by decide
  plain c hc := by
    obtain ⟨hlow, hhigh⟩ := toNat_of_isDecimal hc
    constructor
    · unfold Text.isSpace
      simp only [List.contains_cons, List.contains_nil, Bool.or_false, Bool.or_eq_false_iff,
        beq_eq_false_iff_ne, Bool.and_eq_false_iff, decide_eq_false_iff_not, ne_eq]
      omega
    · intro hmem
      simp only [List.mem_cons, List.not_mem_nil, or_false] at hmem
      rcases hmem with rfl | rfl | rfl | rfl | rfl | rfl | rfl | rfl | rfl <;>
        exact absurd hc (by decide)

theorem numeric_firstParts :
    ∀ part ∈ [['2'], ['4']], part ≠ [] ∧ part.all (isDecimal asciiSite) = true := by
  decide

theorem numeric_secondParts :
    ∀ part ∈ [['2'], ['4'], ['1']], part ≠ [] ∧ part.all (isDecimal asciiSite) = true := by
  decide

def firstVersion : Version asciiSite where
  letter := []
  parts := [['2'], ['4']]
  letter_mem := List.mem_cons_self
  parts_ne_nil := List.cons_ne_nil _ _
  numeric := numeric_firstParts

def secondVersion : Version asciiSite where
  letter := []
  parts := [['2'], ['4'], ['1']]
  letter_mem := List.mem_cons_self
  parts_ne_nil := List.cons_ne_nil _ _
  numeric := numeric_secondParts

theorem short_secondVersion : secondVersion.Short := by
  constructor
  · decide
  · decide

/-- A version of two components, in the range of those up to one of three. -/
theorem range_of_secondVersion :
    versionInRange asciiSite (String.ofList firstVersion.text)
        (rangeText [Constraint.ofOperator .le short_secondVersion]) = true ↔
      ∀ piece ∈ [Constraint.ofOperator .le short_secondVersion],
        piece.operator.Means firstVersion.numbers piece.version.numbers :=
  ((range_means_its_constraints asciiSite digits_asciiSite).1
    [Constraint.ofOperator .le short_secondVersion] firstVersion (by decide) (List.cons_ne_nil _ _)
    (by decide)).1

/-- A bound has no component of seven digits, and no fifth one; and a range is not empty. -/
theorem bounds_are_short :
    (versionInRange asciiSite "1" "< 1000000" = false ∧ Below [1] [1000000]) ∧
      (versionInRange asciiSite "1.2.3.4" "= 1.2.3.4" = true ∧
        versionInRange asciiSite "1.2.3.4" "= 1.2.3.4.0" = false) ∧
      versionInRange asciiSite "1" "" = false :=
  ⟨⟨by decide, 0, fun j hj ↦ absurd hj (Nat.not_lt_zero j), by decide⟩,
    ⟨by decide, by decide⟩, by decide⟩

/-! ### The notice of an update -/

/-- What the notice and the ranges say of two versions. -/
def Agree (site : Site) (a b : List Char) : Prop :=
  (compareVersions site a b = "update_available" ↔
    versionInRange site (String.ofList a) ("< " ++ String.ofList b) = true) ∧
  (compareVersions site a b = "up_to_date" ↔
    versionInRange site (String.ofList a) ("= " ++ String.ofList b) = true) ∧
  (compareVersions site a b = "ahead" ↔
    versionInRange site (String.ofList a) ("> " ++ String.ofList b) = true)

theorem length_intercalate_le {parts : List (List Char)} (hshort : ∀ part ∈ parts, part.length ≤ 6) :
    (['.'].intercalate parts).length ≤ 7 * parts.length := by
  induction parts with
  | nil => exact Nat.zero_le _
  | cons part parts ih =>
    have hpart := hshort part List.mem_cons_self
    have hrest := ih fun other hother ↦ hshort other (List.mem_cons_of_mem _ hother)
    by_cases hparts : parts = []
    · subst hparts
      rw [List.intercalate_singleton, List.length_singleton]
      omega
    · rw [List.intercalate_cons_of_ne_nil hparts, List.length_append, List.length_append,
        List.length_singleton, List.length_cons]
      omega

theorem length_text_le {version : Version site} (hshort : version.Short) :
    version.text.length ≤ 29 := by
  have hparts := length_intercalate_le hshort.2
  have hletter : version.letter.length ≤ 1 := by
    have hmem := version.letter_mem
    simp only [List.mem_cons, List.not_mem_nil, or_false] at hmem
    rcases hmem with h | h | h <;> rw [h] <;> decide
  have hfour := hshort.1
  rw [Version.text, List.length_append]
  omega

theorem versionInRange_operator (hdigits : Digits site) (a : Version site) {b : Version site}
    (hb : b.Short) (operator : Comparison) {sign : String}
    (hsign : sign.toList = operator.sign ++ [' ']) :
    versionInRange site (String.ofList a.text) (sign ++ String.ofList b.text) = true ↔
      operator.Means a.numbers b.numbers := by
  have hrange : sign ++ String.ofList b.text = rangeText [Constraint.ofOperator operator hb] := by
    refine String.toList_injective ?_
    rw [String.toList_append, hsign, String.toList_ofList, rangeText, String.toList_ofList,
      List.map_singleton, List.intercalate_singleton]
    change _ = [] ++ operator.sign ++ [' '] ++ b.text ++ []
    rw [List.nil_append, List.append_nil]
  have hlength : (rangeText [Constraint.ofOperator operator hb]).length ≤ maxRange := by
    have hoperator : operator.sign.length ≤ 2 := by
      cases operator <;> decide
    have htext := length_text_le hb
    rw [← hrange, String.length_append, ← String.length_toList, hsign, String.length_ofList,
      List.length_append, List.length_singleton, maxRange]
    omega
  rw [hrange, versionInRange_rangeText hdigits (List.cons_ne_nil _ _) hlength]
  exact List.forall_mem_singleton

theorem compareVersions_cases (site : Site) (a b : List Char) :
    (compareVersions site a b = "update_available" ↔ parseVersion site a < parseVersion site b) ∧
      (compareVersions site a b = "up_to_date" ↔ parseVersion site a = parseVersion site b) ∧
      (compareVersions site a b = "ahead" ↔ parseVersion site b < parseVersion site a) := by
  unfold compareVersions
  rcases lt_trichotomy (parseVersion site a) (parseVersion site b) with hlt | heq | hgt
  · rw [if_pos hlt]
    exact ⟨iff_of_true rfl hlt, iff_of_false (by decide) hlt.ne, iff_of_false (by decide) hlt.not_gt⟩
  · rw [heq, if_neg (lt_irrefl _), if_neg (lt_irrefl _)]
    exact ⟨iff_of_false (by decide) (lt_irrefl _), iff_of_true rfl rfl,
      iff_of_false (by decide) (lt_irrefl _)⟩
  · rw [if_neg hgt.not_gt, if_pos hgt]
    exact ⟨iff_of_false (by decide) hgt.not_gt, iff_of_false (by decide) hgt.ne', iff_of_true rfl hgt⟩

/-- The notice and the ranges agree on two versions unless these are the same up to zeros at the
end, and have different numbers of components. -/
theorem notice_and_ranges_agree_iff (site : Site) (hdigits : Digits site) (a b : List Char)
    (ha : isVersion site a = true) (hb : isVersion site b = true) :
    Agree site a b ↔ (Same (parseVersion site a) (parseVersion site b) →
      (parseVersion site a).length = (parseVersion site b).length) := by
  obtain ⟨first, _, rfl⟩ := exists_of_isVersion ha
  obtain ⟨second, hshort, rfl⟩ := exists_of_isVersion hb
  obtain ⟨hupdate, hsame, hahead⟩ := compareVersions_cases site first.text second.text
  unfold Agree
  rw [hupdate, hsame, hahead, versionInRange_operator hdigits first hshort .lt rfl,
    versionInRange_operator hdigits first hshort .eq rfl,
    versionInRange_operator hdigits first hshort .gt rfl, parseVersion_text hdigits,
    parseVersion_text hdigits]
  constructor
  · rintro ⟨_, hequal, _⟩ hzeros
    exact congrArg List.length (hequal.mpr hzeros)
  · intro hlength
    refine ⟨ZeroPadded.lt_iff_below hlength, ⟨fun heq _ ↦ by rw [heq], fun hzeros ↦ ?_⟩,
      ZeroPadded.lt_iff_below fun hzeros ↦ (hlength hzeros.symm).symm⟩
    exact (ZeroPadded.eq_iff_same (hlength hzeros)).mpr hzeros

theorem isVersion_two : isVersion asciiSite ['2', '.', '4'] = true := by
  decide

theorem isVersion_three : isVersion asciiSite ['2', '.', '4', '.', '1'] = true := by
  decide

/-- Two versions of different lengths that are not the same. -/
theorem agree_two_three : Agree asciiSite ['2', '.', '4'] ['2', '.', '4', '.', '1'] ↔
    (Same (parseVersion asciiSite ['2', '.', '4']) (parseVersion asciiSite ['2', '.', '4', '.', '1']) →
      (parseVersion asciiSite ['2', '.', '4']).length =
        (parseVersion asciiSite ['2', '.', '4', '.', '1']).length) :=
  notice_and_ranges_agree_iff asciiSite digits_asciiSite _ _ isVersion_two isVersion_three

/-- 2.4 is 2.4.0 to the ranges, and older than it to the notice. -/
theorem notice_differs_on_a_zero :
    isVersion asciiSite ['2', '.', '4'] = true ∧ isVersion asciiSite ['2', '.', '4', '.', '0'] = true ∧
      compareVersions asciiSite ['2', '.', '4'] ['2', '.', '4', '.', '0'] = "update_available" ∧
      versionInRange asciiSite "2.4" "= 2.4.0" = true ∧
      versionInRange asciiSite "2.4" "< 2.4.0" = false := by
  decide

end OpenWhistle.Updates
