import OpenWhistle.Attachments.Uploads
import OpenWhistle.Foundation.Percent

/-!
# The name of a download

An attachment is offered under its name in a header of the response: once in ASCII between quotes,
and once in full, as percent-encoded UTF-8. Whatever name a browser had sent with the upload, the
header is one line of ASCII, and a reader of it finds the two names and nothing else: no part of a
name ends the quotes or the line.
-/

set_option autoImplicit false
set_option relaxedAutoImplicit false

namespace OpenWhistle.Attachments

/-! ### The header -/

def utf8 (name : Name) : Bytes := (String.ofList name).toUTF8.data.toList

/-- What is left of a name in ASCII. -/
def asciiName (filename : Name) : Name :=
  let name := Text.stripChars
    ((filename.filter fun c ↦ decide (c.toNat < 128)).filter fun c ↦ decide (c ≠ '"'))
  if name = [] then "attachment".toList else name

def dispositionStart : List Char := "attachment; filename=\"".toList

def dispositionMiddle : List Char := "; filename*=UTF-8''".toList

/-- `content_disposition_attachment`. -/
def contentDispositionAttachment (filename : Name) : List Char :=
  dispositionStart ++ asciiName filename ++ '"' :: dispositionMiddle ++
    Percent.quote (utf8 filename)

/-! ### A reader of the header -/

/-- What follows a text, if it is in front. -/
def after : List Char → List Char → Option (List Char)
  | [], text => some text
  | c :: wanted, d :: text => if c = d then after wanted text else none
  | _ :: _, [] => none

/-- A quoted string behind its opening quote; a backslash takes the next character as it is. -/
def takeQuoted : List Char → Option (List Char × List Char)
  | [] => none
  | '"' :: text => some ([], text)
  | '\\' :: c :: text => (takeQuoted text).map fun (s, rest) ↦ (c :: s, rest)
  | c :: text => (takeQuoted text).map fun (s, rest) ↦ (c :: s, rest)

/-- The two names of a header. -/
def readDisposition (header : List Char) : Option (Name × Bytes) := do
  let text ← after dispositionStart header
  let (ascii, text) ← takeQuoted text
  let text ← after dispositionMiddle text
  let bytes ← Percent.unquote text
  return (ascii, bytes)

theorem after_append (wanted text : List Char) : after wanted (wanted ++ text) = some text := by
  induction wanted with
  | nil => rfl
  | cons c wanted ih =>
    rw [List.cons_append, after, if_pos rfl]
    exact ih

theorem takeQuoted_append {s : List Char} (hs : ∀ c ∈ s, c ≠ '"' ∧ c ≠ '\\') (text : List Char) :
    takeQuoted (s ++ '"' :: text) = some (s, text) := by
  induction s with
  | nil => rfl
  | cons c s ih =>
    obtain ⟨hquote, hbackslash⟩ := hs c List.mem_cons_self
    have htail := ih fun d hd ↦ hs d (List.mem_cons_of_mem _ hd)
    rw [List.cons_append, takeQuoted, htail]
    · rfl
    · exact hquote
    · intro d rest heq
      exact absurd heq hbackslash

/-! ### Names that are stored -/

/-- A character that a stored name may have. -/
def Tame (c : Char) : Prop := c ∉ "<>:\"/\\|?*".toList ∧ 0x1F < c.toNat

instance decidableTame (c : Char) : Decidable (Tame c) := inferInstanceAs (Decidable (_ ∧ _))

theorem mem_sliceTo {text : Name} {n : ℤ} {c : Char} (hc : c ∈ sliceTo text n) : c ∈ text := by
  unfold sliceTo at hc
  split_ifs at hc
  · exact List.mem_of_mem_take hc
  · exact List.mem_of_mem_take hc

theorem mem_stripDots {text : Name} {c : Char} (hc : c ∈ stripDots text) : c ∈ text := by
  unfold stripDots at hc
  have hfront := (List.dropWhile_sublist _).subset (List.mem_reverse.mp hc)
  exact (List.dropWhile_sublist _).subset (List.mem_reverse.mp hfront)

theorem mem_intercalate {parts : List Name} {part : Name} {c : Char} (hpart : part ∈ parts)
    (hc : c ∈ part) : c ∈ ['/'].intercalate parts := by
  induction parts with
  | nil => cases hpart
  | cons first parts ih =>
    cases parts with
    | nil =>
      rw [List.mem_singleton.mp hpart] at hc
      simpa using hc
    | cons next parts =>
      rw [List.intercalate_cons_cons, List.mem_append, List.mem_append]
      rcases List.mem_cons.mp hpart with rfl | hpart
      · exact .inl (.inl hc)
      · exact .inr (ih hpart)

theorem mem_lastPart {name : Name} {c : Char} (hc : c ∈ lastPart name) : c ∈ name := by
  unfold lastPart at hc
  cases hlast : ((name.splitOn '/').filter fun part ↦
      decide (part ≠ [] ∧ part ≠ ['.'])).getLast? with
  | none =>
    rw [hlast] at hc
    cases hc
  | some part =>
    rw [hlast] at hc
    have hpart := List.mem_of_mem_filter (List.mem_of_getLast? hlast)
    have hname := mem_intercalate hpart hc
    rwa [List.intercalate_splitOn] at hname

theorem mem_pathSuffix {name : Name} {c : Char} (hc : c ∈ pathSuffix name) :
    c ∈ name ∨ c = '.' := by
  unfold pathSuffix at hc
  dsimp only at hc
  split_ifs at hc
  · rcases List.mem_cons.mp hc with rfl | hc
    · exact .inr rfl
    · have hpart := (List.takeWhile_sublist _).subset (List.mem_reverse.mp hc)
      exact .inl (mem_lastPart (List.mem_reverse.mp hpart))
  · cases hc

/-- The lower case of tame characters is tame. -/
def KeepsTame (letters : Text.Letters) : Prop :=
  ∀ text : String, (∀ c ∈ text.toList, Tame c) → ∀ c ∈ (letters.lower text).toList, Tame c

theorem tame_sanitizeFilename {letters : Text.Letters} (hletters : KeepsTame letters)
    (filename : Name) : ∀ c ∈ sanitizeFilename letters filename, Tame c := by
  have hreplaced : ∀ c ∈ stripDots ((lastPart filename).map fun c ↦
      if decide (c ∈ "<>:\"/\\|?*".toList ∨ c.toNat ≤ 0x1F) then '_' else c), Tame c := by
    intro c hc
    obtain ⟨d, -, rfl⟩ := List.mem_map.mp (mem_stripDots hc)
    split_ifs with hforbidden
    · exact ⟨by decide, by decide⟩
    · simp only [decide_eq_true_eq, not_or, Nat.not_le] at hforbidden
      exact hforbidden
  unfold sanitizeFilename
  dsimp only
  generalize stripDots ((lastPart filename).map fun c ↦
    if decide (c ∈ "<>:\"/\\|?*".toList ∨ c.toNat ≤ 0x1F) then '_' else c) = name at hreplaced
  have hsuffix : ∀ c ∈ suffixOf letters name, Tame c := by
    refine hletters _ fun c hc ↦ ?_
    rw [String.toList_ofList] at hc
    rcases mem_pathSuffix hc with hc | rfl
    · exact hreplaced c hc
    · exact ⟨by decide, by decide⟩
  intro c hc
  split_ifs at hc with hempty hlong
  · have hattachment : ∀ c ∈ "attachment".toList, Tame c := Text.forall_of_all rfl
    exact hattachment c hc
  · rcases List.mem_append.mp hc with hc | hc
    · exact hreplaced c (mem_sliceTo (mem_sliceTo hc))
    · exact hsuffix c hc
  · exact hreplaced c hc

/-! ### The header of a stored name -/

theorem mem_stripChars {text : List Char} {c : Char} (hc : c ∈ Text.stripChars text) :
    c ∈ text := by
  unfold Text.stripChars at hc
  have hfront := (List.dropWhile_sublist _).subset (List.mem_reverse.mp hc)
  exact (List.dropWhile_sublist _).subset (List.mem_reverse.mp hfront)

theorem mem_asciiName {filename : Name} (hname : ∀ c ∈ filename, Tame c) :
    ∀ c ∈ asciiName filename, 0x20 ≤ c.toNat ∧ c.toNat < 128 ∧ c ≠ '"' ∧ c ≠ '\\' := by
  intro c hc
  unfold asciiName at hc
  dsimp only at hc
  split_ifs at hc with hempty
  · have hattachment : ∀ c ∈ "attachment".toList,
        0x20 ≤ c.toNat ∧ c.toNat < 128 ∧ c ≠ '"' ∧ c ≠ '\\' := Text.forall_of_all rfl
    exact hattachment c hc
  · obtain ⟨hc, hquote⟩ := List.mem_filter.mp (mem_stripChars hc)
    obtain ⟨hc, hascii⟩ := List.mem_filter.mp hc
    obtain ⟨hallowed, hshown⟩ := hname c hc
    refine ⟨hshown, of_decide_eq_true hascii, of_decide_eq_true hquote, ?_⟩
    rintro rfl
    exact hallowed (by decide)

theorem shown_dispositionStart : ∀ c ∈ dispositionStart, 0x20 ≤ c.toNat ∧ c.toNat < 128 :=
  Text.forall_of_all rfl

theorem shown_dispositionMiddle : ∀ c ∈ dispositionMiddle, 0x20 ≤ c.toNat ∧ c.toNat < 128 :=
  Text.forall_of_all rfl

theorem utf8_injective : Function.Injective utf8 := by
  intro first second h
  have hbytes : (String.ofList first).toUTF8 = (String.ofList second).toUTF8 :=
    ByteArray.ext (Array.toList_inj.mp h)
  exact String.ofList_injective (String.toByteArray_inj.mp hbytes)

theorem read_contentDisposition {filename : Name} (hname : ∀ c ∈ filename, Tame c) :
    readDisposition (contentDispositionAttachment filename) =
      some (asciiName filename, utf8 filename) := by
  have hquoted := takeQuoted_append (s := asciiName filename)
    (fun c hc ↦ (mem_asciiName hname c hc).2.2)
    (dispositionMiddle ++ Percent.quote (utf8 filename))
  rw [readDisposition, contentDispositionAttachment, List.append_assoc, List.append_assoc,
    after_append]
  simp only [Option.bind_eq_bind, Option.bind_some, List.cons_append]
  rw [hquoted]
  simp only [Option.bind_some, after_append, Percent.unquote_quote]
  rfl

/-- Whatever the name of an upload was: the header of its download is one line of ASCII, a reader
finds in it the stored name in full and what is left of it in ASCII, and different names have
different headers. -/
theorem disposition_of_upload {letters : Text.Letters} (hletters : KeepsTame letters)
    (filename : Name) :
    (∀ c ∈ contentDispositionAttachment (sanitizeFilename letters filename),
      0x20 ≤ c.toNat ∧ c.toNat < 128) ∧
    readDisposition (contentDispositionAttachment (sanitizeFilename letters filename)) =
      some (asciiName (sanitizeFilename letters filename),
        utf8 (sanitizeFilename letters filename)) ∧
    ∀ other, contentDispositionAttachment (sanitizeFilename letters filename) =
      contentDispositionAttachment (sanitizeFilename letters other) ↔
        sanitizeFilename letters filename = sanitizeFilename letters other := by
  have hname := tame_sanitizeFilename hletters filename
  have hread := read_contentDisposition hname
  refine ⟨fun c hc ↦ ?_, hread, fun other ↦ ⟨fun heq ↦ ?_, fun heq ↦ by rw [heq]⟩⟩
  · rw [contentDispositionAttachment, List.mem_append, List.mem_append, List.mem_append,
      List.mem_cons] at hc
    rcases hc with (((hc | hc) | rfl | hc)) | hc
    · exact shown_dispositionStart c hc
    · exact ⟨(mem_asciiName hname c hc).1, (mem_asciiName hname c hc).2.1⟩
    · exact ⟨by decide, by decide⟩
    · exact shown_dispositionMiddle c hc
    · have hshown := Percent.shown_quote hc
      omega
  · have hother := read_contentDisposition (tame_sanitizeFilename hletters other)
    rw [← heq, hread] at hother
    exact utf8_injective (Prod.mk.inj (Option.some.inj hother)).2

/-! ### A name with everything in it -/

theorem keepsTame_ascii : KeepsTame Text.Letters.ascii := by
  intro text htext c hc
  have hc' : c ∈ text.toList.map Char.toLower := by
    rw [Text.Letters.ascii, String.toList_ofList] at hc
    exact hc
  obtain ⟨d, hd, rfl⟩ := List.mem_map.mp hc'
  obtain ⟨hallowed, hshown⟩ := htext d hd
  have hsmall : ∀ e ∈ "<>:\"/\\|?*".toList, ¬(97 ≤ e.toNat ∧ e.toNat ≤ 122) :=
    Text.forall_of_all rfl
  have hnat := Text.toNat_toLower d
  split_ifs at hnat with hupper
  · refine ⟨fun hmem ↦ hsmall _ hmem ?_, ?_⟩ <;> omega
  · rw [Char.toNat_inj.mp hnat]
    exact ⟨hallowed, hshown⟩

/-- A path, a line break, quotes and letters beyond ASCII. -/
def wildName : Name := "../b\"\r\nX: 1/größe \"1\"?.PDF".toList

theorem disposition_of_upload_of_wildName :
    (∀ c ∈ contentDispositionAttachment (sanitizeFilename Text.Letters.ascii wildName),
      0x20 ≤ c.toNat ∧ c.toNat < 128) ∧
    readDisposition (contentDispositionAttachment (sanitizeFilename Text.Letters.ascii wildName)) =
      some ("gre _1__.PDF".toList, utf8 "größe _1__.PDF".toList) := by
  have hname : sanitizeFilename Text.Letters.ascii wildName = "größe _1__.PDF".toList := by
    decide +kernel
  have hascii : asciiName "größe _1__.PDF".toList = "gre _1__.PDF".toList := by decide +kernel
  have hupload := disposition_of_upload keepsTame_ascii wildName
  rw [hname, hascii] at hupload
  rw [hname]
  exact ⟨hupload.1, hupload.2.1⟩

end OpenWhistle.Attachments
