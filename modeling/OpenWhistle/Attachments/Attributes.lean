import Mathlib
import OpenWhistle.Attachments.Ooxml
import OpenWhistle.Foundation.Rewrite

/-!
# Attributes that name somebody

The texts of an Office file are XML, and the attributes that say who wrote a comment, and when, get a
neutral value. An expression finds them: white space, a prefix of word characters, the name, an equals
sign and a quoted value. XML allows more than the expression reads: white space around the equals sign,
and prefixes of other characters. And it does not ask whether the place is in a start tag.

A part is cut into start tags, with their attributes, and what is between them. Where the expression
matches nothing but such attributes, the function neutralises those it can read and nothing else, so the
result is right exactly if it can read them all.
-/

set_option autoImplicit false
set_option relaxedAutoImplicit false

namespace OpenWhistle.Attachments.Xml

open Bytes

/-! ### The expression -/

/-- `\s`. -/
def isSpace (b : UInt8) : Bool := b = 0x20 || (0x09 ≤ b && b ≤ 0x0D)

/-- `\w`. -/
def isWord (b : UInt8) : Bool :=
  (0x30 ≤ b && b ≤ 0x39) || (0x41 ≤ b && b ≤ 0x5A) || b = 0x5F || (0x61 ≤ b && b ≤ 0x7A)

/-- The length of what `(?:\w+:)?` reads. -/
def prefixLength (text : Bytes) : ℕ :=
  let word := text.takeWhile isWord
  if word ≠ [] ∧ (text.drop word.length).head? = some 0x3A then word.length + 1 else 0

/-- The length of `\s(?:\w+:)?` with the name, if `=` follows. A name of word characters that is not
found behind the prefix is not found without it either. -/
def nameLength (name : Bytes) : Bytes → Option ℕ
  | [] => none
  | b :: text =>
    if isSpace b ∧
      (text.drop (prefixLength text)).take (name.length + 1) = name ++ [0x3D] then
      some (prefixLength text + name.length + 1)
    else none

/-- The length of `"[^"]*"` or `'[^']*'`. -/
def quotedLength : Bytes → Option ℕ
  | [] => none
  | q :: text =>
    if (q = 0x22 ∨ q = 0x27) ∧ q ∈ text then some ((text.takeWhile fun b ↦ b ≠ q).length + 2)
    else none

/-- The expression for an attribute, and its neutral value. -/
def attributeRule (name value : Bytes) : Rule UInt8 := fun text ↦
  (nameLength name text).bind fun front ↦
    (quotedLength (text.drop (front + 1))).map fun length ↦
      (front + 1 + length, text.take front ++ [0x3D, 0x22] ++ value ++ [0x22])

/-- `_neutral_attrs`. -/
def neutralAttrs (xml : Bytes) (values : List (Bytes × Bytes)) : Bytes :=
  values.foldl (fun xml value ↦ replace (attributeRule value.1 value.2) 0 xml) xml

/-! ### Parts -/

inductive Quote
  | double
  | single
  deriving DecidableEq

def Quote.byte : Quote → UInt8
  | .double => 0x22
  | .single => 0x27

/-- White space of XML. -/
def isXmlSpace (b : UInt8) : Bool := b = 0x20 || b = 0x09 || b = 0x0A || b = 0x0D

/-- An attribute of a start tag as it is written, from the white space in front of it on. -/
@[ext]
structure Attr where
  space : Bytes
  space_ne : space ≠ []
  space_ok : ∀ b ∈ space, isXmlSpace b
  namespacePrefix : Option Bytes
  localName : Bytes
  /-- The white space in front of the equals sign. -/
  before : Bytes
  before_ok : ∀ b ∈ before, isXmlSpace b
  /-- The white space behind the equals sign. -/
  after : Bytes
  after_ok : ∀ b ∈ after, isXmlSpace b
  quote : Quote
  value : Bytes
  value_ok : quote.byte ∉ value

namespace Attr

def qualifiedName (a : Attr) : Bytes :=
  (a.namespacePrefix.map fun p ↦ p ++ [0x3A]).getD [] ++ a.localName

/-- The value in its quotes. -/
def literal (a : Attr) : Bytes := a.quote.byte :: (a.value ++ [a.quote.byte])

def bytes (a : Attr) : Bytes :=
  a.space ++ a.qualifiedName ++ a.before ++ [0x3D] ++ a.after ++ a.literal

end Attr

/-- A start tag, or anything else: text, end tags, comments, instructions. -/
inductive Piece
  | startTag (name : Bytes) (attrs : List Attr) (tail : Bytes)
  | other (text : Bytes)

/-- A part, cut into pieces. -/
abbrev Part := List Piece

namespace Piece

def bytes : Piece → Bytes
  | startTag name attrs tail => 0x3C :: name ++ attrs.flatMap Attr.bytes ++ tail
  | other text => text

def attrs : Piece → List Attr
  | startTag _ attrs _ => attrs
  | other _ => []

def mapAttrs (f : Attr → Attr) : Piece → Piece
  | startTag name attrs tail => startTag name (attrs.map f) tail
  | other text => other text

end Piece

namespace Part

def bytes (part : Part) : Bytes := part.flatMap Piece.bytes

def attrs (part : Part) : List Attr := part.flatMap Piece.attrs

def mapAttrs (f : Attr → Attr) (part : Part) : Part := part.map (Piece.mapAttrs f)

end Part

/-! ### What is to become of a part -/

/-- The name of an attribute, and its neutral value. -/
structure Neutral where
  name : Bytes
  name_ne : name ≠ []
  name_ok : ∀ b ∈ name, isWord b
  value : Bytes
  value_ok : 0x22 ∉ value

/-- `_WORD_AUTHOR`. -/
def wordAuthor : List Neutral :=
  [⟨ascii "author".toList, by decide +kernel, by decide +kernel, authorName, by decide +kernel⟩,
    ⟨ascii "initials".toList, by decide +kernel, by decide +kernel, ascii "A".toList, by decide +kernel⟩,
    ⟨ascii "userId".toList, by decide +kernel, by decide +kernel, [], by decide +kernel⟩,
    ⟨ascii "providerId".toList, by decide +kernel, by decide +kernel, ascii "None".toList,
      by decide +kernel⟩]

/-- `_WORD_TIMES`. -/
def wordTimes : List Neutral :=
  [⟨ascii "date".toList, by decide +kernel, by decide +kernel, neutralTime, by decide +kernel⟩,
    ⟨ascii "dateUtc".toList, by decide +kernel, by decide +kernel, neutralTime, by decide +kernel⟩]

/-- The table as the function takes it. -/
def table (values : List Neutral) : List (Bytes × Bytes) := values.map fun v ↦ (v.name, v.value)

namespace Attr

/-- An attribute of this name. The declaration of a prefix is none. -/
def IsNamed (name : Bytes) (a : Attr) : Prop :=
  a.localName = name ∧ a.namespacePrefix ≠ some (ascii "xmlns".toList)

instance (name : Bytes) (a : Attr) : Decidable (a.IsNamed name) := by
  unfold IsNamed
  infer_instance

/-- Nothing but the value is another. -/
def withValue (v : Neutral) (a : Attr) : Attr :=
  { a with quote := .double, value := v.value, value_ok := v.value_ok }

def neutralise (v : Neutral) (a : Attr) : Attr := if a.IsNamed v.name then a.withValue v else a

/-- The attribute with its neutral value, if it is to have one. -/
def neutral (values : List Neutral) (a : Attr) : Attr := values.foldl (fun a v ↦ a.neutralise v) a

/-- The expression can read it: no white space around the equals sign, and a prefix of word
characters. -/
def IsRead (a : Attr) : Prop :=
  a.before = [] ∧ a.after = [] ∧ ∀ p ∈ a.namespacePrefix, p ≠ [] ∧ ∀ b ∈ p, isWord b

instance (a : Attr) : Decidable a.IsRead :=
  have : Decidable (∀ p ∈ a.namespacePrefix, p ≠ [] ∧ ∀ b ∈ p, isWord b) :=
    match a.namespacePrefix with
    | none => isTrue fun _ h ↦ nomatch h
    | some p => decidable_of_iff (p ≠ [] ∧ ∀ b ∈ p, isWord b)
      ⟨fun h _ hp ↦ Option.some.inj hp ▸ h, fun h ↦ h p rfl⟩
  inferInstanceAs (Decidable (_ ∧ _ ∧ _))

end Attr

/-! ### Where the expression matches -/

/-- A part is read as attributes and what is between them. -/
inductive Span
  | plain (text : Bytes)
  | attr (a : Attr)

namespace Span

def bytes : Span → Bytes
  | plain text => text
  | attr a => a.bytes

def mapAttr (f : Attr → Attr) : Span → Span
  | plain text => plain text
  | attr a => attr (f a)

/-- An attribute of this name that the expression can read. -/
def IsReadAs (name : Bytes) : Span → Prop
  | plain _ => False
  | attr a => a.IsNamed name ∧ a.IsRead

instance (name : Bytes) : (span : Span) → Decidable (span.IsReadAs name)
  | plain _ => inferInstanceAs (Decidable False)
  | attr a => inferInstanceAs (Decidable (a.IsNamed name ∧ a.IsRead))

end Span

def Piece.spans : Piece → List Span
  | .startTag name attrs tail => .plain (0x3C :: name) :: (attrs.map Span.attr ++ [.plain tail])
  | .other text => [.plain text]

def Part.spans (part : Part) : List Span := part.flatMap Piece.spans

def spanBytes (spans : List Span) : Bytes := spans.flatMap Span.bytes

/-- The expression for an attribute matches at no place of a text. -/
def Quiet (v : Neutral) (text rest : Bytes) : Prop :=
  ∀ i < text.length, attributeRule v.name v.value (text.drop i ++ rest) = none

instance (v : Neutral) (text rest : Bytes) : Decidable (Quiet v text rest) := by
  unfold Quiet
  infer_instance

/-- The expression for an attribute matches nothing but the attributes of this name it can read. -/
def MatchesOnly (v : Neutral) : List Span → Prop
  | [] => True
  | span :: spans =>
    (span.IsReadAs v.name ∨ Quiet v span.bytes (spanBytes spans)) ∧ MatchesOnly v spans

instance decidableMatchesOnly (v : Neutral) : (spans : List Span) → Decidable (MatchesOnly v spans)
  | [] => inferInstanceAs (Decidable True)
  | span :: spans =>
    have := decidableMatchesOnly v spans
    inferInstanceAs (Decidable ((span.IsReadAs v.name ∨ Quiet v span.bytes (spanBytes spans)) ∧
      MatchesOnly v spans))

namespace Attr

/-- What becomes of an attribute that the expression can read. -/
def rewrite (v : Neutral) (a : Attr) : Attr := if a.IsRead then a.neutralise v else a

/-- What the function makes of an attribute, one name after another. -/
def rewritten (values : List Neutral) (a : Attr) : Attr := values.foldl (fun a v ↦ a.rewrite v) a

end Attr

/-- Each of the expressions matches nothing else, where those before it have left the part. -/
def AllMatchOnly : List Neutral → List Span → Prop
  | [], _ => True
  | v :: values, spans =>
    MatchesOnly v spans ∧ AllMatchOnly values (spans.map (Span.mapAttr (Attr.rewrite v)))

instance decidableAllMatchOnly :
    (values : List Neutral) → (spans : List Span) → Decidable (AllMatchOnly values spans)
  | [], _ => inferInstanceAs (Decidable True)
  | v :: values, spans =>
    have := decidableAllMatchOnly values (spans.map (Span.mapAttr (Attr.rewrite v)))
    inferInstanceAs (Decidable (MatchesOnly v spans ∧ _))

/-! ### The expression at an attribute -/

theorem isSpace_of_isXmlSpace {b : UInt8} (h : isXmlSpace b) : isSpace b := by
  simp only [isXmlSpace, Bool.or_eq_true, decide_eq_true_eq] at h
  rcases h with ((rfl | rfl) | rfl) | rfl <;> decide

theorem not_isWord_of_isSpace {b : UInt8} (h : isSpace b) : ¬isWord b := by
  simp only [isSpace, isWord, Bool.or_eq_true, Bool.and_eq_true, decide_eq_true_eq,
    UInt8.le_iff_toNat_le, ← UInt8.toNat_inj] at h ⊢
  simp at h ⊢
  omega

theorem takeWhile_word {word text : Bytes} {c : UInt8} (hword : ∀ b ∈ word, isWord b)
    (hc : ¬isWord c) : (word ++ c :: text).takeWhile isWord = word := by
  rw [List.takeWhile_append_of_pos hword, List.takeWhile_cons_of_neg hc, List.append_nil]

theorem prefixLength_word {word text : Bytes} (hne : word ≠ []) (hword : ∀ b ∈ word, isWord b) :
    prefixLength (word ++ 0x3A :: text) = word.length + 1 := by
  unfold prefixLength
  rw [takeWhile_word hword (by decide)]
  dsimp only
  rw [List.drop_left]
  exact if_pos ⟨hne, rfl⟩

theorem prefixLength_other {word text : Bytes} {c : UInt8} (hword : ∀ b ∈ word, isWord b)
    (hc : ¬isWord c) (hcolon : c ≠ 0x3A) : prefixLength (word ++ c :: text) = 0 := by
  unfold prefixLength
  rw [takeWhile_word hword hc]
  dsimp only
  rw [List.drop_left]
  refine if_neg fun h ↦ hcolon ?_
  exact Option.some.inj h.2

/-- White space in front of white space is not in front of a name. -/
theorem nameLength_space {name text : Bytes} {b c : UInt8} (hname : ∀ b ∈ name, isWord b)
    (hne : name ≠ []) (hc : isSpace c) : nameLength name (b :: c :: text) = none := by
  have hword := not_isWord_of_isSpace hc
  have hfront : prefixLength (c :: text) = 0 := by
    unfold prefixLength
    rw [List.takeWhile_cons_of_neg hword]
    exact if_neg fun h ↦ h.1 rfl
  obtain ⟨d, tail, rfl⟩ := List.exists_cons_of_ne_nil hne
  unfold nameLength
  refine if_neg fun h ↦ hword ?_
  have hhead := h.2
  rw [hfront, List.drop_zero, List.take_succ_cons, List.cons_append] at hhead
  rw [(List.cons.inj hhead).1]
  exact hname d List.mem_cons_self

theorem take_through (front text : Bytes) (b : UInt8) :
    (front ++ b :: text).take (front.length + 1) = front ++ [b] := by
  rw [List.take_append, List.take_of_length_le (Nat.le_succ _), Nat.add_sub_cancel_left]
  rfl

theorem drop_through (front text : Bytes) (b : UInt8) :
    (front ++ b :: text).drop (front.length + 1) = text := by
  rw [List.drop_append, List.drop_of_length_le (Nat.le_succ _), Nat.add_sub_cancel_left]
  rfl

/-- A name behind a prefix that can be read. -/
theorem nameLength_qualifiedName {a : Attr} {b : UInt8} (text : Bytes) (hread : a.IsRead)
    (hword : ∀ b ∈ a.localName, isWord b) (hb : isSpace b) :
    nameLength a.localName (b :: (a.qualifiedName ++ 0x3D :: text)) =
      some (a.qualifiedName.length + 1) := by
  unfold Attr.qualifiedName
  cases hp : a.namespacePrefix with
  | none =>
    have hfront : prefixLength (a.localName ++ 0x3D :: text) = 0 :=
      prefixLength_other hword (by decide) (by decide)
    unfold nameLength
    dsimp only [Option.map_none, Option.getD_none]
    rw [List.nil_append, hfront, List.drop_zero, if_pos ⟨hb, take_through ..⟩, Nat.zero_add]
  | some p =>
    obtain ⟨hne, hp⟩ := hread.2.2 p hp
    have hfront : prefixLength (p ++ 0x3A :: (a.localName ++ 0x3D :: text)) = p.length + 1 :=
      prefixLength_word hne hp
    unfold nameLength
    dsimp only [Option.map_some, Option.getD_some]
    rw [List.append_assoc, List.append_assoc, List.singleton_append, hfront, drop_through,
      if_pos ⟨hb, take_through ..⟩]
    simp only [List.length_append, List.length_singleton]

theorem takeWhile_ne {word text : Bytes} {q : UInt8} (h : q ∉ word) :
    (word ++ q :: text).takeWhile (fun b ↦ b ≠ q) = word := by
  rw [List.takeWhile_append_of_pos, List.takeWhile_cons_of_neg (by simp), List.append_nil]
  exact fun b hb ↦ decide_eq_true (ne_of_mem_of_not_mem hb h)

/-- A value in its quotes. -/
theorem quotedLength_literal (a : Attr) (text : Bytes) :
    quotedLength (a.literal ++ text) = some a.literal.length := by
  have hquote : a.quote.byte = 0x22 ∨ a.quote.byte = 0x27 := by
    cases a.quote with
    | double => exact Or.inl rfl
    | single => exact Or.inr rfl
  unfold Attr.literal quotedLength
  rw [List.cons_append, List.append_assoc, List.singleton_append]
  dsimp only
  rw [takeWhile_ne a.value_ok, if_pos ⟨hquote, List.mem_append_right _ List.mem_cons_self⟩]
  simp

theorem isRead_withValue {v : Neutral} {a : Attr} : (a.withValue v).IsRead ↔ a.IsRead := Iff.rfl

/-- A match begins at the last white space in front of it. -/
theorem becomes_spaces {v : Neutral} {space text new rest : Bytes} (hne : space ≠ [])
    (hspace : ∀ b ∈ space, isSpace b)
    (hlast : ∀ b, isSpace b → Becomes (attributeRule v.name v.value) (b :: text) (b :: new) rest) :
    Becomes (attributeRule v.name v.value) (space ++ text) (space ++ new) rest := by
  induction space with
  | nil => exact absurd rfl hne
  | cons b space ih =>
    cases space with
    | nil => exact hlast b (hspace b List.mem_cons_self)
    | cons c space =>
      have hc : isSpace c := hspace c (List.mem_cons_of_mem _ List.mem_cons_self)
      have hfirst : Becomes (attributeRule v.name v.value) [b] [b] (c :: space ++ text ++ rest) := by
        refine Becomes.of_quiet fun i hi ↦ ?_
        obtain rfl : i = 0 := Nat.lt_one_iff.mp hi
        unfold attributeRule
        rw [List.drop_zero, List.singleton_append, List.cons_append, List.cons_append,
          nameLength_space v.name_ok v.name_ne hc]
        rfl
      exact hfirst.append (ih (List.cons_ne_nil _ _) fun d hd ↦ hspace d (List.mem_cons_of_mem _ hd))

theorem bytes_of_isRead {a : Attr} (h : a.IsRead) :
    a.bytes = a.space ++ (a.qualifiedName ++ 0x3D :: a.literal) := by
  unfold Attr.bytes
  rw [h.1, h.2.1]
  simp

/-- An attribute of its name that it can read gets the neutral value. -/
theorem becomes_attr {v : Neutral} {a : Attr} (hnamed : a.IsNamed v.name) (hread : a.IsRead)
    (rest : Bytes) :
    Becomes (attributeRule v.name v.value) a.bytes (a.withValue v).bytes rest := by
  have hword : ∀ b ∈ a.localName, isWord b := hnamed.1 ▸ v.name_ok
  have hmatch : ∀ b, isSpace b → Becomes (attributeRule v.name v.value)
      (b :: (a.qualifiedName ++ 0x3D :: a.literal))
      (b :: (a.qualifiedName ++ 0x3D :: (a.withValue v).literal)) rest := by
    intro b hb
    refine Becomes.of_match (List.cons_ne_nil _ _) ?_
    have hname := nameLength_qualifiedName (a.literal ++ rest) hread hword hb
    rw [hnamed.1] at hname
    have htake : (b :: (a.qualifiedName ++ 0x3D :: (a.literal ++ rest))).take
        (a.qualifiedName.length + 1) = b :: a.qualifiedName := by
      rw [List.take_succ_cons, List.take_left]
    unfold attributeRule
    rw [List.cons_append, List.append_assoc, List.cons_append, hname]
    dsimp only [Option.bind_some]
    rw [List.drop_succ_cons, drop_through, quotedLength_literal, htake]
    simp [Attr.literal, Attr.withValue, Quote.byte]
    omega
  rw [bytes_of_isRead hread, bytes_of_isRead (isRead_withValue.mpr hread)]
  exact becomes_spaces a.space_ne (fun b hb ↦ isSpace_of_isXmlSpace (a.space_ok b hb)) hmatch

/-! ### One pass, and all of them -/

theorem rewrite_of_not_isRead {v : Neutral} {a : Attr} (h : ¬a.IsRead) : a.rewrite v = a := if_neg h

theorem isRead_rewrite {v : Neutral} {a : Attr} (h : a.IsRead) : (a.rewrite v).IsRead := by
  unfold Attr.rewrite Attr.neutralise
  split_ifs
  · exact h
  · exact h

/-- One pass rewrites the attributes it can read. -/
theorem replace_spans {v : Neutral} {spans : List Span} (honly : MatchesOnly v spans) :
    replace (attributeRule v.name v.value) 0 (spanBytes spans) =
      spanBytes (spans.map (Span.mapAttr (Attr.rewrite v))) := by
  induction spans with
  | nil => rfl
  | cons span spans ih =>
    have hspan : Becomes (attributeRule v.name v.value) span.bytes
        (span.mapAttr (Attr.rewrite v)).bytes (spanBytes spans) := by
      cases span with
      | plain text =>
        rcases honly.1 with hread | hquiet
        · exact hread.elim
        · exact Becomes.of_quiet hquiet
      | attr a =>
        by_cases hread : a.IsNamed v.name ∧ a.IsRead
        · have hvalue : a.rewrite v = a.withValue v := by
            rw [Attr.rewrite, if_pos hread.2, Attr.neutralise, if_pos hread.1]
          rw [Span.mapAttr, hvalue]
          exact becomes_attr hread.1 hread.2 (spanBytes spans)
        · have hsame : a.rewrite v = a := by
            unfold Attr.rewrite Attr.neutralise
            split_ifs with h hnamed
            · exact absurd ⟨hnamed, h⟩ hread
            · rfl
            · rfl
          rw [Span.mapAttr, hsame]
          exact Becomes.of_quiet (honly.1.resolve_left hread)
    change replace _ 0 (span.bytes ++ spanBytes spans) = _ ++ spanBytes _
    rw [hspan, ih honly.2]

/-- All passes rewrite the attributes they can read. -/
theorem neutralAttrs_spans {values : List Neutral} {spans : List Span}
    (honly : AllMatchOnly values spans) : neutralAttrs (spanBytes spans) (table values) =
      spanBytes (spans.map (Span.mapAttr (Attr.rewritten values))) := by
  induction values generalizing spans with
  | nil =>
    have hid : Span.mapAttr (Attr.rewritten []) = id := funext fun span ↦ by
      cases span with
      | plain text => rfl
      | attr a => rfl
    rw [hid, List.map_id]
    rfl
  | cons v values ih =>
    have hcomp : Span.mapAttr (Attr.rewritten values) ∘ Span.mapAttr (Attr.rewrite v) =
        Span.mapAttr (Attr.rewritten (v :: values)) := funext fun span ↦ by
      cases span with
      | plain text => rfl
      | attr a => rfl
    have hpass := ih honly.2
    rw [List.map_map, hcomp] at hpass
    rw [← hpass, ← replace_spans honly.1]
    rfl

/-- What can be read becomes neutral. -/
theorem rewritten_of_isRead {values : List Neutral} {a : Attr} (h : a.IsRead) :
    a.rewritten values = a.neutral values := by
  induction values generalizing a with
  | nil => rfl
  | cons v values ih =>
    have hpass : a.rewrite v = a.neutralise v := if_pos h
    change (a.rewrite v).rewritten values = (a.neutralise v).neutral values
    rw [ih (isRead_rewrite h), hpass]

/-- What cannot stays as it is. -/
theorem rewritten_of_not_isRead {values : List Neutral} {a : Attr} (h : ¬a.IsRead) :
    a.rewritten values = a := by
  induction values with
  | nil => rfl
  | cons v values ih =>
    change (a.rewrite v).rewritten values = a
    rw [rewrite_of_not_isRead h, ih]

/-! ### Two parts of one layout -/

/-- The attribute up to its value. -/
def Attr.front (a : Attr) : Bytes := a.space ++ a.qualifiedName ++ a.before ++ [0x3D] ++ a.after

theorem append_cons_inj {first second rest otherRest : Bytes} {q : UInt8} (hfirst : q ∉ first)
    (hsecond : q ∉ second) (h : first ++ q :: rest = second ++ q :: otherRest) :
    first = second ∧ rest = otherRest := by
  obtain rfl : first = second := by rw [← takeWhile_ne hfirst, h, takeWhile_ne hsecond]
  exact ⟨rfl, (List.cons.inj (List.append_cancel_left h)).2⟩

/-- The two attributes differ in their values alone. -/
structure SameLayout (a b : Attr) : Prop where
  space : a.space = b.space
  namespacePrefix : a.namespacePrefix = b.namespacePrefix
  localName : a.localName = b.localName
  before : a.before = b.before
  after : a.after = b.after

theorem SameLayout.refl (a : Attr) : SameLayout a a := ⟨rfl, rfl, rfl, rfl, rfl⟩

theorem SameLayout.symm {a b : Attr} (h : SameLayout a b) : SameLayout b a :=
  ⟨h.space.symm, h.namespacePrefix.symm, h.localName.symm, h.before.symm, h.after.symm⟩

theorem SameLayout.front {a b : Attr} (h : SameLayout a b) : a.front = b.front := by
  unfold Attr.front Attr.qualifiedName
  rw [h.space, h.namespacePrefix, h.localName, h.before, h.after]

theorem sameLayout_neutralise (v : Neutral) (a : Attr) : SameLayout (a.neutralise v) a := by
  unfold Attr.neutralise
  split_ifs
  · exact ⟨rfl, rfl, rfl, rfl, rfl⟩
  · exact SameLayout.refl a

theorem sameLayout_neutral (values : List Neutral) (a : Attr) : SameLayout (a.neutral values) a := by
  induction values generalizing a with
  | nil => exact SameLayout.refl a
  | cons v values ih =>
    have h := ih (a.neutralise v)
    have hstep := sameLayout_neutralise v a
    exact ⟨h.space.trans hstep.space, h.namespacePrefix.trans hstep.namespacePrefix,
      h.localName.trans hstep.localName, h.before.trans hstep.before, h.after.trans hstep.after⟩

theorem Quote.byte_inj {q r : Quote} (h : q.byte = r.byte) : q = r := by
  cases q <;> cases r <;> first | rfl | exact absurd h (by decide)

/-- Where two attributes of one layout are written, their values and what follows can be told. -/
theorem SameLayout.bytes_inj {a b : Attr} {rest otherRest : Bytes} (h : SameLayout a b)
    (hbytes : a.bytes ++ rest = b.bytes ++ otherRest) : a = b ∧ rest = otherRest := by
  have hliteral : a.literal ++ rest = b.literal ++ otherRest := by
    change a.front ++ a.literal ++ rest = b.front ++ b.literal ++ otherRest at hbytes
    rw [h.front, List.append_assoc, List.append_assoc] at hbytes
    exact List.append_cancel_left hbytes
  unfold Attr.literal at hliteral
  simp only [List.cons_append, List.append_assoc, List.nil_append] at hliteral
  obtain ⟨hquote, htail⟩ := List.cons.inj hliteral
  rw [hquote] at htail
  obtain ⟨hvalue, hrest⟩ := append_cons_inj (hquote ▸ a.value_ok) b.value_ok htail
  exact ⟨Attr.ext h.space h.namespacePrefix h.localName h.before h.after (Quote.byte_inj hquote)
    hvalue, hrest⟩

/-- Two parts of one layout are written alike only if all their attributes are the same. -/
theorem spanBytes_inj {f g : Attr → Attr} (hlayout : ∀ a, SameLayout (f a) (g a)) {spans : List Span}
    (h : spanBytes (spans.map (Span.mapAttr f)) = spanBytes (spans.map (Span.mapAttr g))) :
    ∀ a, Span.attr a ∈ spans → f a = g a := by
  induction spans with
  | nil => exact fun a ha ↦ absurd ha List.not_mem_nil
  | cons span spans ih =>
    change (span.mapAttr f).bytes ++ spanBytes (spans.map (Span.mapAttr f)) =
      (span.mapAttr g).bytes ++ spanBytes (spans.map (Span.mapAttr g)) at h
    intro a ha
    cases span with
    | plain text =>
      rcases List.mem_cons.mp ha with hhead | htail
      · cases hhead
      · exact ih (List.append_cancel_left h) a htail
    | attr b =>
      obtain ⟨hattr, hrest⟩ := (hlayout b).bytes_inj h
      rcases List.mem_cons.mp ha with hhead | htail
      · cases hhead
        exact hattr
      · exact ih hrest a htail

/-! ### Parts -/

theorem spanBytes_append (spans others : List Span) :
    spanBytes (spans ++ others) = spanBytes spans ++ spanBytes others := List.flatMap_append

theorem spanBytes_attrs (attrs : List Attr) :
    spanBytes (attrs.map Span.attr) = attrs.flatMap Attr.bytes := by
  unfold spanBytes
  rw [List.flatMap_map]
  rfl

theorem spanBytes_spans (part : Part) : spanBytes part.spans = part.bytes := by
  induction part with
  | nil => rfl
  | cons piece part ih =>
    change spanBytes (piece.spans ++ Part.spans part) = piece.bytes ++ Part.bytes part
    rw [spanBytes_append, ih]
    cases piece with
    | other text => rw [Piece.spans, spanBytes, List.flatMap_singleton]; rfl
    | startTag name attrs tail =>
      change (0x3C :: name) ++ spanBytes (attrs.map Span.attr ++ [.plain tail]) ++ _ = _
      rw [spanBytes_append, spanBytes_attrs, spanBytes, List.flatMap_singleton]
      simp [Piece.bytes, Span.bytes]

theorem spans_mapAttrs (f : Attr → Attr) (part : Part) :
    (part.mapAttrs f).spans = part.spans.map (Span.mapAttr f) := by
  induction part with
  | nil => rfl
  | cons piece part ih =>
    change (piece.mapAttrs f).spans ++ (Part.mapAttrs f part).spans =
      (piece.spans ++ Part.spans part).map (Span.mapAttr f)
    rw [List.map_append, ih]
    cases piece with
    | other text => rfl
    | startTag name attrs tail => simp [Piece.mapAttrs, Piece.spans, Span.mapAttr]

theorem mem_spans {part : Part} {a : Attr} : Span.attr a ∈ part.spans ↔ a ∈ part.attrs := by
  unfold Part.spans Part.attrs
  rw [List.mem_flatMap, List.mem_flatMap]
  refine exists_congr fun piece ↦ and_congr_right fun _ ↦ ?_
  cases piece with
  | other text => simp [Piece.spans, Piece.attrs]
  | startTag name attrs tail => simp [Piece.spans, Piece.attrs]

/-- Where the expressions match nothing but attributes they are for, every such attribute becomes
neutral and everything else stays as it is, if and only if each of these attributes can be read or is
neutral already. -/
theorem attributes_are_neutral_iff {part : Part}
    (honly : AllMatchOnly (wordAuthor ++ wordTimes) part.spans) :
    neutralAttrs part.bytes (table (wordAuthor ++ wordTimes)) =
        (part.mapAttrs (Attr.neutral (wordAuthor ++ wordTimes))).bytes ↔
      ∀ a ∈ part.attrs, a.IsRead ∨ a.neutral (wordAuthor ++ wordTimes) = a := by
  rw [← spanBytes_spans, ← spanBytes_spans, spans_mapAttrs, neutralAttrs_spans honly]
  constructor
  · intro h a ha
    have hlayout : ∀ a : Attr, SameLayout (a.rewritten (wordAuthor ++ wordTimes))
        (a.neutral (wordAuthor ++ wordTimes)) := by
      intro a
      by_cases hread : a.IsRead
      · rw [rewritten_of_isRead hread]
        exact SameLayout.refl _
      · rw [rewritten_of_not_isRead hread]
        exact (sameLayout_neutral _ a).symm
    by_cases hread : a.IsRead
    · exact Or.inl hread
    · have hsame := spanBytes_inj hlayout h a (mem_spans.mpr ha)
      rw [rewritten_of_not_isRead hread] at hsame
      exact Or.inr hsame.symm
  · intro h
    refine congrArg spanBytes (List.map_congr_left fun span hspan ↦ ?_)
    cases span with
    | plain text => rfl
    | attr a =>
      rcases h a (mem_spans.mp hspan) with hread | hneutral
      · exact congrArg Span.attr (rewritten_of_isRead hread)
      · by_cases hread : a.IsRead
        · exact congrArg Span.attr (rewritten_of_isRead hread)
        · refine congrArg Span.attr ?_
          rw [rewritten_of_not_isRead hread, hneutral]

/-! ### Three comments -/

def wordNamespace : Attr where
  space := ascii " ".toList
  space_ne := by decide +kernel
  space_ok := by decide +kernel
  namespacePrefix := some (ascii "xmlns".toList)
  localName := ascii "w".toList
  before := []
  before_ok := by decide +kernel
  after := []
  after_ok := by decide +kernel
  quote := .double
  value := ascii "http://schemas.openxmlformats.org/wordprocessingml/2006/main".toList
  value_ok := by decide +kernel

def authorAttr (blank : Bytes) (blank_ok : ∀ b ∈ blank, isXmlSpace b) : Attr where
  space := ascii " ".toList
  space_ne := by decide +kernel
  space_ok := by decide +kernel
  namespacePrefix := some (ascii "w".toList)
  localName := ascii "author".toList
  before := blank
  before_ok := blank_ok
  after := blank
  after_ok := blank_ok
  quote := .single
  value := ascii "Jane".toList
  value_ok := by decide +kernel

/-- The comments of a document, with one comment. -/
def comments (author : Attr) (text : String) : Part :=
  [.startTag (ascii "w:comments".toList) [wordNamespace] (ascii ">".toList),
    .startTag (ascii "w:comment".toList) [author] (ascii ">".toList),
    .other (ascii text.toList), .other (ascii "</w:comment></w:comments>".toList)]

def tightAuthor : Attr := authorAttr [] (by decide +kernel)

def spacedAuthor : Attr := authorAttr (ascii " ".toList) (by decide +kernel)

theorem tight_author_is_neutral :
    neutralAttrs (comments tightAuthor "Hello").bytes (table (wordAuthor ++ wordTimes)) =
        ((comments tightAuthor "Hello").mapAttrs (Attr.neutral (wordAuthor ++ wordTimes))).bytes ↔
      ∀ a ∈ (comments tightAuthor "Hello").attrs,
        a.IsRead ∨ a.neutral (wordAuthor ++ wordTimes) = a :=
  attributes_are_neutral_iff (by decide +kernel)

/-- An author behind an equals sign with white space around it is kept. -/
theorem spaced_author_is_kept :
    neutralAttrs (comments spacedAuthor "Hello").bytes (table (wordAuthor ++ wordTimes)) ≠
      ((comments spacedAuthor "Hello").mapAttrs (Attr.neutral (wordAuthor ++ wordTimes))).bytes := by
  decide +kernel

-- what looks like such an attribute in a text is rewritten
example : neutralAttrs (comments tightAuthor "see author=\"Jane\"").bytes
      (table (wordAuthor ++ wordTimes)) =
    ((comments tightAuthor "see author=\"Author\"").mapAttrs
      (Attr.neutral (wordAuthor ++ wordTimes))).bytes := by
  decide +kernel

end OpenWhistle.Attachments.Xml
