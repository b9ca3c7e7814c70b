import OpenWhistle.Attachments.Ooxml
import OpenWhistle.Foundation.Text

/-!
# Uploads are all or nothing

The parts of a request are read one after the other. A part is refused by its name, its size or its
first bytes, by the scanner, by the cleaning or by the size of what is cleaned; the first refusal
ends the reading, and nothing that was read before is kept. The invariant of the loop is that the
files so far are the parts so far, each as it is stored, and that just these have been scanned and
cleaned.

The cleaning of the formats is given, and so is what the scanner would answer to each part.
-/

set_option autoImplicit false
set_option relaxedAutoImplicit false

namespace OpenWhistle.Attachments

open Bytes

/-! ### Errors -/

/-- `UploadError`: the key and what is filled in, and the English text. -/
structure UploadError where
  key : String
  params : List (String × String)
  text : String

def UploadError.tooLarge (name size : String) : UploadError where
  key := "upload.error.too_large"
  params := [("name", name), ("size", size)]
  text := "'" ++ name ++ "' is too large (" ++ size ++ "). Each file may be at most 10 MB."

def UploadError.badExtension (name : String) : UploadError where
  key := "upload.error.bad_extension"
  params := [("name", name)]
  text := "'" ++ name ++
    "' cannot be attached. Allowed: PDF, JPEG, PNG, GIF, WebP, TXT, CSV, DOCX, XLSX."

def UploadError.legacyOffice (name : String) : UploadError where
  key := "upload.error.legacy_office"
  params := [("name", name)]
  text := "'" ++ name ++ "' is an old Word/Excel file (.doc/.xls) whose author cannot be removed. " ++
    "Save it as .docx or .xlsx and attach it again."

def UploadError.contentMismatch (name ext : String) : UploadError where
  key := "upload.error.content_mismatch"
  params := [("name", name), ("ext", ext)]
  text := "'" ++ name ++ "' does not contain what its '" ++ ext ++
    "' ending says (the file may be damaged or disguised). Save it again and retry."

def maxAttachments : ℕ := 5

def UploadError.tooMany : UploadError where
  key := "upload.error.too_many"
  params := [("max", toString maxAttachments)]
  text := "Too many files. You can attach at most " ++ toString maxAttachments ++ " files."

def UploadError.metadata (name : String) : UploadError where
  key := "upload.error.metadata"
  params := [("name", name)]
  text := "'" ++ name ++ "' could not be checked for hidden details (author, location, device) " ++
    "and was not accepted. Save it again or export it as a PDF."

def UploadError.malware (name : String) : UploadError where
  key := "upload.error.malware"
  params := [("name", name)]
  text := "'" ++ name ++ "' was not accepted: the virus scanner flagged it. " ++
    "If you believe the file is safe, export it as PDF and try again."

def UploadError.scanUnavailable (name : String) : UploadError where
  key := "upload.error.scan_unavailable"
  params := [("name", name)]
  text := "'" ++ name ++ "' could not be checked for viruses right now and was not stored. " ++
    "Try again in a few minutes."

/-- The quotient, to the nearest whole number and to the even one of two. -/
def roundedQuotient (n d : ℕ) : ℕ :=
  if 2 * (n % d) < d then n / d
  else if d < 2 * (n % d) then n / d + 1
  else if n / d % 2 = 0 then n / d else n / d + 1

def formatSize (sizeBytes : ℕ) : String :=
  if 1024 * 1024 ≤ sizeBytes then
    let tenths := roundedQuotient (10 * sizeBytes) (1024 * 1024)
    toString (tenths / 10) ++ "." ++ toString (tenths % 10) ++ " MB"
  else if 1024 ≤ sizeBytes then toString (roundedQuotient sizeBytes 1024) ++ " KB"
  else toString sizeBytes ++ " B"

/-! ### Names and types -/

/-- `text[:n]`. -/
def sliceTo (text : Name) (n : ℤ) : Name :=
  if 0 ≤ n then text.take n.toNat else text.take (text.length + n).toNat

/-- `text.strip(". ")`. -/
def stripDots (text : Name) : Name :=
  let isDot := fun c ↦ decide (c = '.' ∨ c = ' ')
  ((text.dropWhile isDot).reverse.dropWhile isDot).reverse

variable (letters : Text.Letters)

/-- `Path(name).suffix.lower()`. -/
def suffixOf (name : Name) : Name := (letters.lower (String.ofList (pathSuffix name))).toList

def sanitizeFilename (filename : Name) : Name :=
  let forbidden := fun c : Char ↦ decide (c ∈ "<>:\"/\\|?*".toList ∨ c.toNat ≤ 0x1F)
  let name := stripDots ((lastPart filename).map fun c ↦ if forbidden c then '_' else c)
  if name = [] then "attachment".toList
  else
    let suffix := suffixOf letters name
    let stem := sliceTo name ((name.length : ℤ) - suffix.length)
    let maxStem : ℤ := 240 - suffix.length
    if maxStem < stem.length then sliceTo stem maxStem ++ suffix else name

def typeByExt : List (Name × String) :=
  [(".pdf".toList, "application/pdf"), (".jpg".toList, "image/jpeg"), (".jpeg".toList, "image/jpeg"),
    (".png".toList, "image/png"), (".gif".toList, "image/gif"), (".webp".toList, "image/webp"),
    (".txt".toList, "text/plain"), (".csv".toList, "text/csv"),
    (".docx".toList, "application/vnd.openxmlformats-officedocument.wordprocessingml.document"),
    (".xlsx".toList, "application/vnd.openxmlformats-officedocument.spreadsheetml.sheet")]

/-- `none` is a `KeyError`. -/
def contentTypeFor (filename : Name) : Option String := typeByExt.lookup (suffixOf letters filename)

def magicByExt : List (Name × List Bytes) :=
  [(".pdf".toList, [ascii "%PDF".toList]), (".jpg".toList, [[0xFF, 0xD8, 0xFF]]),
    (".jpeg".toList, [[0xFF, 0xD8, 0xFF]]),
    (".png".toList, [[0x89, 0x50, 0x4E, 0x47, 0x0D, 0x0A, 0x1A, 0x0A]]),
    (".gif".toList, [ascii "GIF87a".toList, ascii "GIF89a".toList]),
    (".webp".toList, [ascii "RIFF".toList]), (".docx".toList, [[0x50, 0x4B, 0x03, 0x04]]),
    (".xlsx".toList, [[0x50, 0x4B, 0x03, 0x04]])]

def contentMatchesExt (ext : Name) (head : Bytes) : Bool :=
  match magicByExt.lookup ext with
  | none => true
  | some sigs =>
    if ext = ".webp".toList then
      decide (head.take 4 = ascii "RIFF".toList) &&
        decide ((head.take 12).drop 8 = ascii "WEBP".toList)
    else sigs.any fun sig ↦ sig.isPrefixOf head

def validateFile (filename : Name) (size : ℕ) (head : Bytes) : Option UploadError :=
  let ext := suffixOf letters filename
  let name := String.ofList filename
  if ext = ".doc".toList ∨ ext = ".xls".toList then some (.legacyOffice name)
  else if maxSizeBytes < size then some (.tooLarge name (formatSize size))
  else if (typeByExt.lookup ext).isNone then some (.badExtension name)
  else if head ≠ [] ∧ contentMatchesExt ext head = false then
    some (.contentMismatch name (String.ofList ext))
  else none

/-! ### The scanner and the cleaning -/

/-- What becomes of a connection to the scanner: it fails, or there is a reply. -/
inductive Reply
  | failed (reason : String)
  | text (reply : Name)

/-- `scan_bytes`: the error is a `ScanUnavailableError`, and `none` means clean. -/
def scanBytes (clamavHost : Bool) (reply : Reply) : Except String (Option Name) :=
  if clamavHost = false then .ok none
  else
    match reply with
    | .failed reason => .error reason
    | .text reply =>
      let text := if startsWith reply "stream: ".toList then reply.drop 8 else reply
      if text = "OK".toList then .ok none
      else if endsWith text " FOUND".toList then
        let signature := Text.stripChars (removeSuffix text " FOUND".toList)
        .ok (some (if signature = [] then "unknown".toList else signature))
      else .error (String.ofList text)

/-- The cleaning of the formats. Whatever else they raise becomes a `MetadataError` too. -/
structure Strippers where
  stripImage : Bytes → Except String Bytes
  stripPdf : Bytes → Except String Bytes
  stripOoxml : Bytes → Except String Bytes

def Strippers.byExt (strippers : Strippers) : List (Name × (Bytes → Except String Bytes)) :=
  [(".jpg".toList, strippers.stripImage), (".jpeg".toList, strippers.stripImage),
    (".png".toList, strippers.stripImage), (".gif".toList, strippers.stripImage),
    (".webp".toList, strippers.stripImage), (".pdf".toList, strippers.stripPdf),
    (".docx".toList, strippers.stripOoxml), (".xlsx".toList, strippers.stripOoxml)]

def stripMetadata (strippers : Strippers) (filename : Name) (data : Bytes) : Except String Bytes :=
  match strippers.byExt.lookup (suffixOf letters filename) with
  | none => .ok data
  | some stripper => stripper data

/-! ### Reading -/

/-- A file part. -/
structure UploadFile where
  filename : Option Name
  content : Bytes
  /-- What the scanner answers if it is given the part. -/
  reply : Reply

/-- The name of a part that has one. -/
def UploadFile.named (upload : UploadFile) : Option Name :=
  upload.filename.filter fun filename ↦ decide (filename ≠ [] ∧ Text.stripChars filename ≠ [])

structure File where
  name : Name
  contentType : String
  data : Bytes

/-- The calls that a reading makes. -/
inductive Action
  | scan (data : Bytes)
  | clean (name : Name) (data : Bytes)

variable (strippers : Strippers) (clamavHost : Bool)

/-- The body of the loop, for a part with bytes. Outside, `none` is an exception that is not caught.
-/
def readFile (filename : Name) (data : Bytes) (reply : Reply) :
    Option (Except UploadError File × List Action) :=
  let name := sanitizeFilename letters filename
  -- an error is a text, and counts as one if it is not empty
  match (validateFile letters name data.length (data.take 16)).filter
      fun error ↦ decide (error.text ≠ "") with
  | some error => some (.error error, [])
  | none =>
    match scanBytes clamavHost reply with
    | .error _ => some (.error (.scanUnavailable (String.ofList name)), [.scan data])
    | .ok (some _) => some (.error (.malware (String.ofList name)), [.scan data])
    | .ok none =>
      match stripMetadata letters strippers name data with
      | .error _ =>
        some (.error (.metadata (String.ofList name)), [.scan data, .clean name data])
      | .ok cleaned =>
        if maxSizeBytes < cleaned.length then
          some (.error (.tooLarge (String.ofList name) (formatSize cleaned.length)),
            [.scan data, .clean name data])
        else
          (contentTypeFor letters name).map fun contentType ↦
            (.ok ⟨name, contentType, cleaned⟩, [.scan data, .clean name data])

/-- The loop, with the files so far and the calls so far. -/
def readLoop : List UploadFile → List File → List Action →
    Option ((List File × Option UploadError) × List Action)
  | [], result, actions => some ((result, none), actions)
  | upload :: uploads, result, actions =>
    match upload.named with
    | none => readLoop uploads result actions
    | some filename =>
      if maxAttachments ≤ result.length then some (([], some .tooMany), actions)
      else
        let data := upload.content.take (maxSizeBytes + 1)
        if data.length = 0 then readLoop uploads result actions
        else
          match readFile letters strippers clamavHost filename data upload.reply with
          | none => none
          | some (.error error, calls) => some (([], some error), actions ++ calls)
          | some (.ok file, calls) => readLoop uploads (result ++ [file]) (actions ++ calls)

def readUploadFiles (uploads : List UploadFile) :
    Option ((List File × Option UploadError) × List Action) :=
  readLoop letters strippers clamavHost uploads [] []

/-! ### What is stored -/

/-- A part that has a name and bytes. -/
def UploadFile.isPart (upload : UploadFile) : Bool :=
  upload.named.isSome && decide (upload.content ≠ [])

/-- The file that is stored of a part. -/
structure Stored (upload : UploadFile) (file : File) : Prop where
  name : ∃ filename, upload.named = some filename ∧ file.name = sanitizeFilename letters filename
  clean : scanBytes clamavHost upload.reply = .ok none
  allowed : suffixOf letters file.name ∈ typeByExt.map Prod.fst
  signature : contentMatchesExt (suffixOf letters file.name) (upload.content.take 16) = true
  received : upload.content.length ≤ maxSizeBytes
  stored : file.data.length ≤ maxSizeBytes
  cleaned : stripMetadata letters strippers file.name upload.content = .ok file.data
  contentType : contentTypeFor letters file.name = some file.contentType

/-- The calls for a part that is stored: its bytes are scanned as received, and cleaned. -/
def actionsOf (upload : UploadFile) : List Action :=
  match upload.named with
  | none => []
  | some filename =>
    [.scan upload.content, .clean (sanitizeFilename letters filename) upload.content]

/-- What a reading has come to, with the files and the calls that it began with. -/
def Ends (uploads : List UploadFile) (result : List File) (actions : List Action)
    (reading : (List File × Option UploadError) × List Action) : Prop :=
  (∃ files, reading =
      ((result ++ files, none),
        actions ++ (uploads.filter UploadFile.isPart).flatMap (actionsOf letters)) ∧
    (result ++ files).length ≤ maxAttachments ∧
    List.Forall₂ (Stored letters strippers clamavHost) (uploads.filter UploadFile.isPart) files) ∨
  ∃ error before refused after calls, uploads = before ++ refused :: after ∧
    reading = (([], some error), actions ++
      (before.filter UploadFile.isPart).flatMap (actionsOf letters) ++ calls) ∧
    calls <+: actionsOf letters refused ∧
    ∃ files, List.Forall₂ (Stored letters strippers clamavHost)
      (before.filter UploadFile.isPart) files

variable {letters strippers clamavHost}

theorem append_ne_empty {text : String} (h : text ≠ "") (rest : String) : text ++ rest ≠ "" := by
  intro hempty
  exact h (String.append_eq_empty_iff.mp hempty).1

/-- Every error of a check counts as one. -/
theorem text_ne_empty {filename : Name} {size : ℕ} {head : Bytes} {error : UploadError}
    (h : validateFile letters filename size head = some error) : error.text ≠ "" := by
  have hquote : ∀ name : String, "'" ++ name ≠ "" := append_ne_empty (by decide)
  unfold validateFile at h
  dsimp only at h
  split_ifs at h
  · rw [← Option.some.inj h]
    exact append_ne_empty (append_ne_empty (hquote _) _) _
  · rw [← Option.some.inj h]
    exact append_ne_empty (append_ne_empty (append_ne_empty (hquote _) _) _) _
  · rw [← Option.some.inj h]
    exact append_ne_empty (hquote _) _
  · rw [← Option.some.inj h]
    exact append_ne_empty (append_ne_empty (append_ne_empty (hquote _) _) _) _

theorem filter_validateFile (filename : Name) (size : ℕ) (head : Bytes) :
    (validateFile letters filename size head).filter (fun error ↦ decide (error.text ≠ "")) =
      validateFile letters filename size head := by
  cases h : validateFile letters filename size head with
  | none => rfl
  | some error => exact Option.filter_eq_some_iff.mpr ⟨rfl, decide_eq_true (text_ne_empty h)⟩

/-- What passes the checks is of an allowed type, in size and in content. -/
theorem validateFile_eq_none {filename : Name} {size : ℕ} {head : Bytes}
    (h : validateFile letters filename size head = none) (hhead : head ≠ []) :
    size ≤ maxSizeBytes ∧ (∃ contentType, contentTypeFor letters filename = some contentType) ∧
      contentMatchesExt (suffixOf letters filename) head = true := by
  unfold validateFile at h
  dsimp only at h
  split_ifs at h with hlegacy hsize htype hcontent
  refine ⟨not_lt.mp hsize, Option.ne_none_iff_exists'.mp (fun hnone ↦ htype ?_), ?_⟩
  · rw [contentTypeFor] at hnone
    rw [hnone]
    rfl
  · by_contra hmatch
    exact hcontent ⟨hhead, Bool.eq_false_of_not_eq_true hmatch⟩

theorem mem_typeByExt {ext : Name} {contentType : String} {types : List (Name × String)}
    (h : types.lookup ext = some contentType) : ext ∈ types.map Prod.fst := by
  induction types with
  | nil => cases h
  | cons type types ih =>
    obtain ⟨known, value⟩ := type
    rw [List.lookup_cons] at h
    by_cases heq : ext = known
    · exact heq ▸ List.mem_cons_self
    · rw [beq_false_of_ne heq] at h
      exact List.mem_cons_of_mem _ (ih h)

variable (letters strippers clamavHost) in
/-- A part is refused, before or after it is scanned and cleaned, or stored. -/
theorem readFile_cases {upload : UploadFile} {filename : Name} (hnamed : upload.named = some filename)
    (hbytes : upload.content ≠ []) :
    (∃ error calls, readFile letters strippers clamavHost filename
        (upload.content.take (maxSizeBytes + 1)) upload.reply = some (.error error, calls) ∧
        calls <+: actionsOf letters upload) ∨
    ∃ file, readFile letters strippers clamavHost filename
        (upload.content.take (maxSizeBytes + 1)) upload.reply =
          some (.ok file, actionsOf letters upload) ∧
        Stored letters strippers clamavHost upload file := by
  have hactions : actionsOf letters upload =
      [.scan upload.content, .clean (sanitizeFilename letters filename) upload.content] := by
    rw [actionsOf, hnamed]
  rw [hactions]
  unfold readFile
  dsimp only
  rw [filter_validateFile]
  cases hvalid : validateFile letters (sanitizeFilename letters filename)
      (upload.content.take (maxSizeBytes + 1)).length
      ((upload.content.take (maxSizeBytes + 1)).take 16) with
  | some error => exact .inl ⟨error, [], rfl, List.nil_prefix⟩
  | none =>
    have hhead : (upload.content.take (maxSizeBytes + 1)).take 16 ≠ [] := by
      rw [ne_eq, List.take_eq_nil_iff, List.take_eq_nil_iff]
      rintro (hzero | hzero | hnil)
      · cases hzero
      · cases hzero
      · exact hbytes hnil
    obtain ⟨hsize, ⟨contentType, htype⟩, hmatch⟩ := validateFile_eq_none hvalid hhead
    -- within the limit the bounded read is the whole part
    have hwhole : upload.content.take (maxSizeBytes + 1) = upload.content := by
      refine List.take_of_length_le ?_
      rw [List.length_take] at hsize
      omega
    rw [hwhole] at hsize hmatch ⊢
    dsimp only
    cases hscan : scanBytes clamavHost upload.reply with
    | error reason => exact .inl ⟨_, _, rfl, List.prefix_append [_] [_]⟩
    | ok verdict =>
      cases verdict with
      | some signature => exact .inl ⟨_, _, rfl, List.prefix_append [_] [_]⟩
      | none =>
        dsimp only
        cases hclean : stripMetadata letters strippers (sanitizeFilename letters filename)
            upload.content with
        | error reason => exact .inl ⟨_, _, rfl, List.prefix_rfl⟩
        | ok cleaned =>
          dsimp only
          by_cases hlarge : maxSizeBytes < cleaned.length
          · rw [if_pos hlarge]
            exact .inl ⟨_, _, rfl, List.prefix_rfl⟩
          · rw [if_neg hlarge, htype, Option.map_some]
            refine .inr ⟨⟨_, contentType, cleaned⟩, rfl, ?_⟩
            exact ⟨⟨filename, hnamed, rfl⟩, hscan, mem_typeByExt htype, hmatch, hsize,
              not_lt.mp hlarge, hclean, htype⟩

/-! ### The loop -/

theorem isPart_of_named {upload : UploadFile} {filename : Name}
    (hnamed : upload.named = some filename) :
    upload.isPart = true ↔ upload.content ≠ [] := by
  rw [UploadFile.isPart, hnamed, Option.isSome_some, Bool.true_and, decide_eq_true_eq]

/-- A part without a name or without bytes is passed over. -/
theorem Ends.skip {upload : UploadFile} {uploads : List UploadFile} {result : List File}
    {actions : List Action} {reading : (List File × Option UploadError) × List Action}
    (hskip : upload.isPart = false)
    (h : Ends letters strippers clamavHost uploads result actions reading) :
    Ends letters strippers clamavHost (upload :: uploads) result actions reading := by
  rcases h with ⟨files, hreading, hlength, hstored⟩ | ⟨error, before, refused, after, calls, hsplit,
    hreading, hcalls, files, hstored⟩
  · refine .inl ⟨files, ?_, hlength, ?_⟩
    · rw [List.filter_cons_of_neg (by rw [hskip]; exact Bool.false_ne_true)]
      exact hreading
    · rw [List.filter_cons_of_neg (by rw [hskip]; exact Bool.false_ne_true)]
      exact hstored
  · refine .inr ⟨error, upload :: before, refused, after, calls, by rw [hsplit, List.cons_append], ?_,
      hcalls, files, ?_⟩
    · rw [List.filter_cons_of_neg (by rw [hskip]; exact Bool.false_ne_true)]
      exact hreading
    · rw [List.filter_cons_of_neg (by rw [hskip]; exact Bool.false_ne_true)]
      exact hstored

/-- A part that is stored adds its file and its calls. -/
theorem Ends.store {upload : UploadFile} {uploads : List UploadFile} {result : List File}
    {actions : List Action} {file : File} {reading : (List File × Option UploadError) × List Action}
    (hpart : upload.isPart = true) (hfile : Stored letters strippers clamavHost upload file)
    (h : Ends letters strippers clamavHost uploads (result ++ [file])
      (actions ++ actionsOf letters upload) reading) :
    Ends letters strippers clamavHost (upload :: uploads) result actions reading := by
  rcases h with ⟨files, hreading, hlength, hstored⟩ | ⟨error, before, refused, after, calls, hsplit,
    hreading, hcalls, files, hstored⟩
  · refine .inl ⟨file :: files, ?_, ?_, ?_⟩
    · rw [hreading, List.filter_cons_of_pos hpart, List.flatMap_cons, List.append_assoc,
        List.append_assoc, List.singleton_append]
    · rw [List.append_assoc, List.singleton_append] at hlength
      exact hlength
    · rw [List.filter_cons_of_pos hpart]
      exact .cons hfile hstored
  · refine .inr ⟨error, upload :: before, refused, after, calls, by rw [hsplit, List.cons_append], ?_,
      hcalls, file :: files, ?_⟩
    · rw [hreading, List.filter_cons_of_pos hpart, List.flatMap_cons]
      simp only [List.append_assoc]
    · rw [List.filter_cons_of_pos hpart]
      exact .cons hfile hstored

/-- A part that is refused ends the reading. -/
theorem Ends.refuse {upload : UploadFile} {uploads : List UploadFile} {result : List File}
    {actions calls : List Action} (error : UploadError) (hcalls : calls <+: actionsOf letters upload) :
    Ends letters strippers clamavHost (upload :: uploads) result actions
      (([], some error), actions ++ calls) := by
  refine .inr ⟨error, [], upload, uploads, calls, rfl, ?_, hcalls, [], .nil⟩
  rw [List.filter_nil, List.flatMap_nil, List.append_nil]

variable (letters strippers clamavHost) in
theorem readLoop_ends (uploads : List UploadFile) :
    ∀ (result : List File) (actions : List Action), result.length ≤ maxAttachments →
      ∃ reading, readLoop letters strippers clamavHost uploads result actions = some reading ∧
        Ends letters strippers clamavHost uploads result actions reading := by
  induction uploads with
  | nil =>
    intro result actions hlength
    refine ⟨_, rfl, .inl ⟨[], ?_, ?_, .nil⟩⟩
    · rw [List.append_nil, List.filter_nil, List.flatMap_nil, List.append_nil]
    · rw [List.append_nil]
      exact hlength
  | cons upload uploads ih =>
    intro result actions hlength
    unfold readLoop
    cases hnamed : upload.named with
    | none =>
      obtain ⟨reading, hread, hends⟩ := ih result actions hlength
      refine ⟨reading, hread, hends.skip ?_⟩
      rw [UploadFile.isPart, hnamed]
      rfl
    | some filename =>
      dsimp only
      by_cases hfull : maxAttachments ≤ result.length
      · rw [if_pos hfull]
        have hends : Ends letters strippers clamavHost (upload :: uploads) result actions
            (([], some .tooMany), actions ++ []) :=
          .refuse .tooMany List.nil_prefix
        rw [List.append_nil] at hends
        exact ⟨_, rfl, hends⟩
      · rw [if_neg hfull]
        by_cases hempty : upload.content = []
        · obtain ⟨reading, hread, hends⟩ := ih result actions hlength
          rw [if_pos (by rw [hempty, List.take_nil]; rfl)]
          refine ⟨reading, hread, hends.skip ?_⟩
          exact Bool.eq_false_of_not_eq_true fun hpart ↦ (isPart_of_named hnamed).mp hpart hempty
        · rw [if_neg]
          swap
          · rw [List.length_eq_zero_iff, List.take_eq_nil_iff]
            exact not_or.mpr ⟨Nat.succ_ne_zero _, hempty⟩
          rcases readFile_cases letters strippers clamavHost hnamed hempty with
            ⟨error, calls, hread, hcalls⟩ | ⟨file, hread, hstored⟩
          · rw [hread]
            exact ⟨_, rfl, .refuse error hcalls⟩
          · rw [hread]
            dsimp only
            obtain ⟨reading, hrest, hends⟩ := ih (result ++ [file])
              (actions ++ actionsOf letters upload)
              (by rw [List.length_append, List.length_singleton]; exact Nat.lt_of_not_le hfull)
            exact ⟨reading, hrest, hends.store ((isPart_of_named hnamed).mpr hempty) hstored⟩

/-- Either there is an error and no file; the parts before the refused one could be stored, and
nothing after it is scanned or cleaned. Or there is no error, and the files are those of the parts
that have a name and bytes, at most five, each scanned as it was received and stored cleaned. -/
theorem uploads_are_all_or_nothing (letters : Text.Letters) (strippers : Strippers)
    (clamavHost : Bool) (uploads : List UploadFile) :
    ∃ files error actions, readUploadFiles letters strippers clamavHost uploads =
        some ((files, error), actions) ∧
      (error = none ∧ files.length ≤ maxAttachments ∧
          List.Forall₂ (Stored letters strippers clamavHost) (uploads.filter UploadFile.isPart) files ∧
          actions = (uploads.filter UploadFile.isPart).flatMap (actionsOf letters) ∨
        error ≠ none ∧ files = [] ∧
          ∃ before refused after calls, uploads = before ++ refused :: after ∧
            (∃ earlier, List.Forall₂ (Stored letters strippers clamavHost)
              (before.filter UploadFile.isPart) earlier) ∧
            actions = (before.filter UploadFile.isPart).flatMap (actionsOf letters) ++ calls ∧
            calls <+: actionsOf letters refused) := by
  obtain ⟨reading, hread, hends⟩ := readLoop_ends letters strippers clamavHost uploads [] []
    (Nat.zero_le _)
  rcases hends with ⟨files, rfl, hlength, hstored⟩ | ⟨error, before, refused, after, calls, hsplit,
    rfl, hcalls, hearlier⟩
  · exact ⟨_, _, _, hread, .inl ⟨rfl, hlength, hstored, rfl⟩⟩
  · exact ⟨_, _, _, hread, .inr ⟨Option.some_ne_none error, rfl, before, refused, after, calls, hsplit,
      hearlier, rfl, hcalls⟩⟩

end OpenWhistle.Attachments
