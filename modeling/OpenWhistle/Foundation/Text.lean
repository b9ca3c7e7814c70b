import Mathlib.Data.List.DropRight
import Mathlib.Data.Nat.Notation
import Mathlib.Data.String.Basic

/-!
# Strings as a web server treats them

Surrounding whitespace is stripped, and the line breaks of a form become line feeds. Whitespace are
the characters that Unicode calls so, and the four separators from `U+001C` on.

A text in the printable characters of ASCII is typed by hand in any letter case and with whitespace
around it. Stripped and put back into the one letter case it was issued in, what was typed is the
text that was issued.
-/

set_option autoImplicit false
set_option relaxedAutoImplicit false

namespace Text

/-- `str.isspace` of one character. -/
def isSpace (c : Char) : Bool :=
  [0x85, 0xA0, 0x1680, 0x2028, 0x2029, 0x202F, 0x205F, 0x3000].contains c.toNat ||
    (decide (0x09 ≤ c.toNat) && decide (c.toNat ≤ 0x0D)) ||
    (decide (0x1C ≤ c.toNat) && decide (c.toNat ≤ 0x20)) ||
    (decide (0x2000 ≤ c.toNat) && decide (c.toNat ≤ 0x200A))

/-- `str.strip`, on the characters. -/
def stripChars (text : List Char) : List Char :=
  ((text.dropWhile isSpace).reverse.dropWhile isSpace).reverse

/-- `str.strip`. -/
def strip (text : String) : String := String.ofList (stripChars text.toList)

/-- What has been stripped has nothing left to strip. -/
theorem stripChars_stripChars (text : List Char) :
    stripChars (stripChars text) = stripChars text := by
  have hsuffix : (text.dropWhile isSpace).rdropWhile isSpace <+: text.dropWhile isSpace :=
    List.rdropWhile_prefix isSpace _
  have hfront : (stripChars text).dropWhile isSpace = stripChars text := by
    change ((text.dropWhile isSpace).rdropWhile isSpace).dropWhile isSpace =
      (text.dropWhile isSpace).rdropWhile isSpace
    cases hcore : (text.dropWhile isSpace).rdropWhile isSpace with
    | nil => rfl
    | cons c rest =>
      rw [hcore] at hsuffix
      obtain ⟨tail, htail⟩ := hsuffix
      refine List.dropWhile_cons_of_neg ?_
      have hhead := List.head_dropWhile_not isSpace (by rw [← htail]; exact List.cons_ne_nil _ _)
      simp only [← htail, List.cons_append, List.head_cons] at hhead
      rw [hhead]
      decide
  change ((stripChars text).dropWhile isSpace).rdropWhile isSpace = stripChars text
  rw [hfront]
  change ((text.dropWhile isSpace).rdropWhile isSpace).rdropWhile isSpace =
    (text.dropWhile isSpace).rdropWhile isSpace
  exact List.rdropWhile_idempotent isSpace (text.dropWhile isSpace)

theorem strip_strip (text : String) : strip (strip text) = strip text := by
  rw [strip, strip, String.toList_ofList, stripChars_stripChars]

/-- The line breaks of a form field, on the characters. -/
def lfChars : List Char → List Char
  | [] => []
  | '\r' :: '\n' :: rest => '\n' :: lfChars rest
  | '\r' :: rest => '\n' :: lfChars rest
  | c :: rest => c :: lfChars rest

/-- CRLF and CR become LF. -/
def lf (text : String) : String := String.ofList (lfChars text.toList)

/-! ### Letter case -/

/-- `str.upper` and `str.lower`. On ASCII they change the letters of ASCII only; beyond it the tables
of Unicode are a parameter. -/
structure Letters where
  upper : String → String
  lower : String → String
  upper_ascii : ∀ text : String, (∀ c ∈ text.toList, c.toNat < 128) →
    upper text = String.ofList (text.toList.map Char.toUpper)
  lower_ascii : ∀ text : String, (∀ c ∈ text.toList, c.toNat < 128) →
    lower text = String.ofList (text.toList.map Char.toLower)

/-- The letters of ASCII, and no others. -/
def Letters.ascii : Letters where
  upper text := String.ofList (text.toList.map Char.toUpper)
  lower text := String.ofList (text.toList.map Char.toLower)
  upper_ascii _ _ := rfl
  lower_ascii _ _ := rfl

theorem toNat_toLower (c : Char) :
    c.toLower.toNat = if 65 ≤ c.toNat ∧ c.toNat ≤ 90 then c.toNat + 32 else c.toNat := by
  by_cases h : 65 ≤ c.toNat ∧ c.toNat ≤ 90
  · have hval : c.val ≥ 'A'.val ∧ c.val ≤ 'Z'.val := h
    have hlower : c.toLower.toNat = (c.val + ('a'.val - 'A'.val)).toNat :=
      congrArg Char.toNat (dif_pos hval)
    rw [if_pos h, hlower]
    simp only [Char.toNat] at h ⊢
    simp only [UInt32.toNat_add, seval]
    omega
  · have hval : ¬(c.val ≥ 'A'.val ∧ c.val ≤ 'Z'.val) := h
    rw [if_neg h]
    exact congrArg Char.toNat (dif_neg hval)

theorem toNat_toUpper (c : Char) :
    c.toUpper.toNat = if 97 ≤ c.toNat ∧ c.toNat ≤ 122 then c.toNat - 32 else c.toNat := by
  by_cases h : 97 ≤ c.toNat ∧ c.toNat ≤ 122
  · have hval : 'a'.val ≤ c.val ∧ c.val ≤ 'z'.val := h
    delta Char.toUpper
    rw [if_pos h, dif_pos hval]
    simp only [Char.toNat] at h ⊢
    simp only [UInt32.toNat_add, seval]
    omega
  · have hval : ¬('a'.val ≤ c.val ∧ c.val ≤ 'z'.val) := h
    rw [if_neg h]
    exact congrArg Char.toNat (dif_neg hval)

/-! ### Typed by hand -/

/-- A printable character of ASCII other than the blank. -/
def Graphic (c : Char) : Prop := 0x21 ≤ c.toNat ∧ c.toNat ≤ 0x7E

instance (c : Char) : Decidable (Graphic c) := inferInstanceAs (Decidable (_ ∧ _))

/-- A text in any letter case, with any whitespace before and after it. -/
def Typed (issued typed : String) : Prop :=
  ∃ before core after : List Char, typed.toList = before ++ core ++ after ∧
    (∀ c ∈ before, isSpace c = true) ∧ (∀ c ∈ after, isSpace c = true) ∧
    core.map Char.toLower = issued.toList.map Char.toLower

/-- A fact about the characters of a text that is written out. -/
theorem forall_of_all {p : Char → Prop} [DecidablePred p] {text : List Char}
    (h : text.all (fun c ↦ decide (p c)) = true) : ∀ c ∈ text, p c :=
  fun c hc ↦ of_decide_eq_true (List.all_eq_true.mp h c hc)

theorem isSpace_of_graphic {c : Char} (hc : Graphic c) : isSpace c = false := by
  obtain ⟨hlow, hhigh⟩ := hc
  simp only [isSpace, Bool.or_eq_false_iff, Bool.and_eq_false_iff, decide_eq_false_iff_not,
    List.contains_eq_mem, List.mem_cons, List.not_mem_nil, or_false]
  omega

theorem graphic_of_same_letter {c d : Char} (hsame : c.toLower = d.toLower) (hd : Graphic d) :
    Graphic c := by
  have heq : c.toLower.toNat = d.toLower.toNat := congrArg Char.toNat hsame
  rw [toNat_toLower, toNat_toLower] at heq
  unfold Graphic at hd ⊢
  split at heq <;> split at heq <;> omega

theorem toUpper_eq_of_same_letter {c d : Char} (hsame : c.toLower = d.toLower) :
    c.toUpper = d.toUpper := by
  have heq : c.toLower.toNat = d.toLower.toNat := congrArg Char.toNat hsame
  rw [toNat_toLower, toNat_toLower] at heq
  rw [← Char.toNat_inj, toNat_toUpper, toNat_toUpper]
  split at heq <;> split at heq <;> split <;> split <;> omega

/-- What was typed consists of the same kind of characters. -/
theorem graphic_of_same_letters {core issued : List Char}
    (hsame : core.map Char.toLower = issued.map Char.toLower) (hissued : ∀ c ∈ issued, Graphic c) :
    ∀ c ∈ core, Graphic c := by
  induction core generalizing issued with
  | nil => exact fun _ hc ↦ nomatch hc
  | cons c core ih =>
    cases issued with
    | nil => exact nomatch hsame
    | cons d issued =>
      obtain ⟨hhead, htail⟩ := List.cons.inj hsame
      intro x hx
      rcases List.mem_cons.mp hx with rfl | hx
      · exact graphic_of_same_letter hhead (hissued d List.mem_cons_self)
      · exact ih htail (fun y hy ↦ hissued y (List.mem_cons_of_mem d hy)) x hx

theorem map_toUpper_of_same_letters {core issued : List Char}
    (hsame : core.map Char.toLower = issued.map Char.toLower) :
    core.map Char.toUpper = issued.map Char.toUpper := by
  induction core generalizing issued with
  | nil =>
    cases issued with
    | nil => rfl
    | cons d issued => exact nomatch hsame
  | cons c core ih =>
    cases issued with
    | nil => exact nomatch hsame
    | cons d issued =>
      obtain ⟨hhead, htail⟩ := List.cons.inj hsame
      rw [List.map_cons, List.map_cons, toUpper_eq_of_same_letter hhead, ih htail]

theorem dropWhile_isSpace_append {pad core : List Char} (hpad : ∀ c ∈ pad, isSpace c = true)
    (hcore : ∀ c ∈ core, isSpace c = false) : (pad ++ core).dropWhile isSpace = core := by
  rw [List.dropWhile_append_of_pos hpad]
  cases core with
  | nil => rfl
  | cons c core =>
    rw [List.dropWhile_cons_of_neg]
    rw [hcore c List.mem_cons_self]
    exact Bool.false_ne_true

theorem stripChars_pad {before core after : List Char} (hbefore : ∀ c ∈ before, isSpace c = true)
    (hcore : ∀ c ∈ core, isSpace c = false) (hafter : ∀ c ∈ after, isSpace c = true) :
    stripChars (before ++ core ++ after) = core := by
  have hend : (after.reverse ++ core.reverse).dropWhile isSpace = core.reverse :=
    dropWhile_isSpace_append (fun c hc ↦ hafter c (List.mem_reverse.mp hc))
      (fun c hc ↦ hcore c (List.mem_reverse.mp hc))
  rw [stripChars, List.append_assoc, List.dropWhile_append_of_pos hbefore]
  cases core with
  | nil =>
    rw [List.nil_append, List.dropWhile_eq_nil_iff.mpr hafter]
    rfl
  | cons c core =>
    have hhead : ¬isSpace c = true := by
      rw [hcore c List.mem_cons_self]
      exact Bool.false_ne_true
    rw [List.cons_append, List.dropWhile_cons_of_neg hhead, ← List.cons_append,
      List.reverse_append, hend, List.reverse_reverse]

/-- Stripping what was typed leaves the letters, in the case they were typed in. -/
theorem strip_typed {issued typed : String} (htyped : Typed issued typed)
    (hissued : ∀ c ∈ issued.toList, Graphic c) :
    (∀ c ∈ (strip typed).toList, c.toNat < 128) ∧
      (strip typed).toList.map Char.toLower = issued.toList.map Char.toLower := by
  obtain ⟨before, core, after, heq, hbefore, hafter, hsame⟩ := htyped
  have hcore := graphic_of_same_letters hsame hissued
  have hstrip : (strip typed).toList = core := by
    rw [strip, String.toList_ofList, heq,
      stripChars_pad hbefore (fun c hc ↦ isSpace_of_graphic (hcore c hc)) hafter]
  rw [hstrip]
  refine ⟨fun c hc ↦ ?_, hsame⟩
  obtain ⟨-, hhigh⟩ := hcore c hc
  omega

/-- A text issued in capitals is found again. -/
theorem upper_strip_typed (letters : Letters) {issued typed : String} (htyped : Typed issued typed)
    (hgraphic : ∀ c ∈ issued.toList, Graphic c) (hupper : ∀ c ∈ issued.toList, c.toUpper = c) :
    letters.upper (strip typed) = issued := by
  obtain ⟨hascii, hsame⟩ := strip_typed htyped hgraphic
  rw [letters.upper_ascii _ hascii, map_toUpper_of_same_letters hsame, List.map_congr_left hupper,
    List.map_id', String.ofList_toList]

/-- A text issued in small letters is found again. -/
theorem lower_strip_typed (letters : Letters) {issued typed : String} (htyped : Typed issued typed)
    (hgraphic : ∀ c ∈ issued.toList, Graphic c) (hlower : ∀ c ∈ issued.toList, c.toLower = c) :
    letters.lower (strip typed) = issued := by
  obtain ⟨hascii, hsame⟩ := strip_typed htyped hgraphic
  rw [letters.lower_ascii _ hascii, hsame, List.map_congr_left hlower, List.map_id',
    String.ofList_toList]

end Text
