import Mathlib.Data.List.Basic
import Mathlib.Data.Nat.Notation
import OpenWhistle.Attachments.Orientation

/-!
# Cleaning a WebP

A WebP is a container with its size, and in it chunks that are filled up to an even length. The first
chunk may hold flags that say which others there are. The chunks of the picture are kept as they are,
the flags are set to what is kept, and the orientation is written anew behind the others.

A file that is well formed is cleaned to one that is, unless an EXIF block is rejected: then the
attachment is refused, as it cannot be cleaned.
-/

set_option autoImplicit false
set_option relaxedAutoImplicit false

namespace OpenWhistle.Attachments

open Bytes

/-! ### The walk -/

def riff : Bytes := ascii ['R', 'I', 'F', 'F']

def webp : Bytes := ascii ['W', 'E', 'B', 'P']

def kindExif : Bytes := ascii ['E', 'X', 'I', 'F']

def kindFlags : Bytes := ascii ['V', 'P', '8', 'X']

/-- `_WEBP_KEEP`. -/
def webpKeep : List Bytes :=
  [ascii ['V', 'P', '8', 'X'], ascii ['V', 'P', '8', ' '], ascii ['V', 'P', '8', 'L'],
    ascii ['A', 'L', 'P', 'H'], ascii ['A', 'N', 'I', 'M'], ascii ['A', 'N', 'M', 'F']]

/-- `int.to_bytes(4, "little")`. -/
def littleWord (n : ℕ) : Except Fault Bytes :=
  if n < 256 ^ 4 then .ok (toLittle 4 n) else .error .overflowError

variable (parse : ExifParser)

/-- What is written, and the orientation. -/
abbrev WebpState := Bytes × ℕ

/-- One turn of the loop of `_strip_webp`, on the bytes from its index on. -/
def stripWebpStep : WebpState → Bytes → Step WebpState (Except Fault WebpState)
  | (out, value), rest =>
    if rest.length = 0 then .done (.ok (out, value))
    else
      let kind := rest.take 4
      let size := ofLittle ((rest.drop 4).take 4)
      let stop := 8 + size + size % 2
      if kind = kindExif then
        match orientation parse ((rest.take (8 + size)).drop 8) with
        | .error fault => .done (.error fault)
        | .ok value => .next (out, value) (rest.drop stop)
      else if kind ∈ webpKeep then .next (out ++ rest.take stop, value) (rest.drop stop)
      else .next (out, value) (rest.drop stop)

variable {parse}

theorem stripWebpStep_shrinks {state later : WebpState} {rest left : Bytes}
    (h : stripWebpStep parse state rest = .next later left) : left.length < rest.length := by
  have hdrop : ∀ stop, 8 ≤ stop → ¬rest.length = 0 → (rest.drop stop).length < rest.length := by
    intro stop height hrest
    rw [List.length_drop]
    omega
  unfold stripWebpStep at h
  dsimp only at h
  split_ifs at h with hrest
  · split at h
    · cases h
    · cases h
      exact hdrop _ (by omega) hrest
  · cases h
    exact hdrop _ (by omega) hrest
  · cases h
    exact hdrop _ (by omega) hrest

variable (parse)

def webpReader : Reader WebpState (Except Fault WebpState) :=
  ⟨stripWebpStep parse, stripWebpStep_shrinks⟩

/-- The flags of the kept chunks, and the chunk of the orientation. -/
def setFlags (out : Bytes) (value : ℕ) : Except Fault Bytes :=
  if out.take 4 = kindFlags then
    match out[8]? with
    | none => .error .indexError
    | some flags =>
      let flags := flags &&& ~~~0x2C
      if value = 1 then .ok (out.set 8 flags)
      else
        let exif := orientationExif value
        .ok ((out ++ (kindExif ++ toLittle 4 exif.length ++ exif)).set 8 (flags ||| 0x08))
  else .ok out

/-- `_strip_webp`. -/
def stripWebp (data : Bytes) : Except Fault Bytes := do
  let body := (data.take (8 + ofLittle ((data.take 8).drop 4))).drop 12
  let (out, value) ← (webpReader parse).run ([], 1) body
  let out ← setFlags out value
  let size ← littleWord (out.length + 4)
  return riff ++ size ++ webp ++ out

/-! ### Chunks and containers -/

/-- A chunk, whose length fits its four bytes, filled up to an even length. -/
structure WebpChunk where
  kind : Bytes
  body : Bytes
  padding : Bytes
  length_kind : kind.length = 4
  length_body : body.length < 256 ^ 4
  length_padding : padding.length = body.length % 2

namespace WebpChunk

def bytes (chunk : WebpChunk) : Bytes :=
  chunk.kind ++ (toLittle 4 chunk.body.length ++ (chunk.body ++ chunk.padding))

def isExif (chunk : WebpChunk) : Bool := decide (chunk.kind = kindExif)

def isKept (chunk : WebpChunk) : Bool := decide (chunk.kind ∈ webpKeep)

/-- The flags of a chunk with other flags. -/
def mapFlags (f : UInt8 → UInt8) (chunk : WebpChunk) : WebpChunk where
  kind := chunk.kind
  body := chunk.body.modify 0 f
  padding := chunk.padding
  length_kind := chunk.length_kind
  length_body := by rw [List.length_modify]; exact chunk.length_body
  length_padding := by rw [List.length_modify]; exact chunk.length_padding

end WebpChunk

/-- The bytes of chunks. -/
def rawChunks (chunks : List WebpChunk) : Bytes := chunks.flatMap WebpChunk.bytes

/-- A container, and what follows it in the file. The chunk of the flags is the first one, if it is
there, and has ten bytes. -/
structure Webp where
  chunks : List WebpChunk
  trailer : Bytes
  size_lt : (rawChunks chunks).length + 4 < 256 ^ 4
  flags_first : ∀ chunk ∈ chunks.tail, chunk.kind ≠ kindFlags
  length_flags : ∀ chunk ∈ chunks, chunk.kind = kindFlags → chunk.body.length = 10

/-- The container, with its size: the length of what follows the size. -/
def Webp.bytes (file : Webp) : Bytes :=
  riff ++ (toLittle 4 ((rawChunks file.chunks).length + 4) ++
    (webp ++ (rawChunks file.chunks ++ file.trailer)))

/-- The EXIF blocks of a container. -/
def exifBlocksOf (chunks : List WebpChunk) : List Bytes :=
  (chunks.filter WebpChunk.isExif).map WebpChunk.body

/-- The file has flags. -/
def startsWithFlags : List WebpChunk → Bool
  | [] => false
  | chunk :: _ => decide (chunk.kind = kindFlags)

/-- Bit 5 is for a colour profile, bit 3 for an EXIF chunk, bit 2 for XMP. -/
def cleanFlags (added : Bool) (flags : UInt8) : UInt8 :=
  (flags &&& ~~~0x2C) ||| (if added then 0x08 else 0)

/-- The chunk of an orientation. -/
def webpOrientation (value : ℕ) : WebpChunk where
  kind := kindExif
  body := orientationExif value
  padding := []
  length_kind := rfl
  length_body := orientationExif_fits value
  length_padding := by rw [length_orientationExif]; rfl

/-- The chunks a container is cleaned to, when its EXIF blocks have these orientations. -/
def cleanedChunks (chunks : List WebpChunk) (found : List ℕ) : List WebpChunk :=
  if startsWithFlags chunks then
    (chunks.filter WebpChunk.isKept).modify 0 (WebpChunk.mapFlags (cleanFlags (turn found).isSome)) ++
      (turn found).toList.map webpOrientation
  else chunks.filter WebpChunk.isKept

/-! ### One chunk -/

namespace WebpChunk

theorem length_bytes (chunk : WebpChunk) :
    chunk.bytes.length = 8 + chunk.body.length + chunk.body.length % 2 := by
  simp [bytes, chunk.length_kind, chunk.length_padding]
  omega

theorem isKept_iff (chunk : WebpChunk) : chunk.isKept = true ↔ chunk.kind ∈ webpKeep := by
  rw [isKept]
  exact decide_eq_true_iff

theorem isExif_iff (chunk : WebpChunk) : chunk.isExif = true ↔ chunk.kind = kindExif := by
  rw [isExif]
  exact decide_eq_true_iff

theorem isExif_of_isKept {chunk : WebpChunk} (h : chunk.isKept = true) : chunk.isExif = false := by
  refine Bool.eq_false_iff.mpr fun hexif ↦ ?_
  have hkept := chunk.isKept_iff.mp h
  rw [chunk.isExif_iff.mp hexif] at hkept
  exact absurd hkept (by decide)

section Fields

variable (chunk : WebpChunk) (rest : Bytes)

theorem take_kind : (chunk.bytes ++ rest).take 4 = chunk.kind := by
  rw [bytes, List.append_assoc]
  exact List.take_left' chunk.length_kind

theorem take_size : ((chunk.bytes ++ rest).drop 4).take 4 = toLittle 4 chunk.body.length := by
  rw [bytes, List.append_assoc, List.drop_left' chunk.length_kind, List.append_assoc]
  exact List.take_left' (length_toLittle ..)

theorem ofLittle_size : ofLittle (((chunk.bytes ++ rest).drop 4).take 4) = chunk.body.length := by
  rw [take_size, ofLittle_toLittle chunk.length_body]

theorem take_body : ((chunk.bytes ++ rest).take (8 + chunk.body.length)).drop 8 = chunk.body := by
  have hbytes : chunk.bytes ++ rest =
      (chunk.kind ++ toLittle 4 chunk.body.length) ++ chunk.body ++ (chunk.padding ++ rest) := by
    simp only [bytes, List.append_assoc]
  have hhead : (chunk.kind ++ toLittle 4 chunk.body.length).length = 8 := by
    simp [chunk.length_kind]
  rw [hbytes, List.take_left' (by rw [List.length_append, hhead]), List.drop_left' hhead]

theorem take_stop : (chunk.bytes ++ rest).take (8 + chunk.body.length + chunk.body.length % 2) =
    chunk.bytes :=
  List.take_left' chunk.length_bytes

theorem drop_stop : (chunk.bytes ++ rest).drop (8 + chunk.body.length + chunk.body.length % 2) =
    rest :=
  List.drop_left' chunk.length_bytes

end Fields

end WebpChunk

/-- One turn of the loop at a chunk. -/
theorem stripWebpStep_chunk (chunk : WebpChunk) (rest out : Bytes) (value : ℕ) :
    (webpReader parse).step (out, value) (chunk.bytes ++ rest) =
      if chunk.kind = kindExif then
        match orientation parse chunk.body with
        | .error fault => .done (.error fault)
        | .ok value => .next (out, value) rest
      else if chunk.kind ∈ webpKeep then .next (out ++ chunk.bytes, value) rest
      else .next (out, value) rest := by
  have hlong : ¬(chunk.bytes ++ rest).length = 0 := by
    rw [List.length_append, chunk.length_bytes]
    omega
  change stripWebpStep parse (out, value) (chunk.bytes ++ rest) = _
  unfold stripWebpStep
  dsimp only
  rw [if_neg hlong, chunk.ofLittle_size, chunk.take_kind, chunk.take_body, chunk.take_stop,
    chunk.drop_stop]

/-! ### All the chunks -/

theorem rawChunks_cons (chunk : WebpChunk) (chunks : List WebpChunk) :
    rawChunks (chunk :: chunks) = chunk.bytes ++ rawChunks chunks := rfl

theorem rawChunks_append (chunks others : List WebpChunk) :
    rawChunks (chunks ++ others) = rawChunks chunks ++ rawChunks others := List.flatMap_append

theorem rawChunks_singleton (chunk : WebpChunk) : rawChunks [chunk] = chunk.bytes :=
  List.append_nil _

theorem exifBlocksOf_of_exif {chunk : WebpChunk} (h : chunk.isExif = true)
    (chunks : List WebpChunk) :
    exifBlocksOf (chunk :: chunks) = chunk.body :: exifBlocksOf chunks := by
  rw [exifBlocksOf, List.filter_cons_of_pos h, List.map_cons]
  rfl

theorem exifBlocksOf_of_ne {chunk : WebpChunk} (h : chunk.isExif = false)
    (chunks : List WebpChunk) : exifBlocksOf (chunk :: chunks) = exifBlocksOf chunks := by
  rw [exifBlocksOf, List.filter_cons_of_neg (by simp [h])]
  rfl

/-- The walk keeps the chunks of the picture, and ends with the last orientation. -/
theorem run_rawChunks (chunks : List WebpChunk) : ∀ (out : Bytes) (value : ℕ),
    (webpReader parse).run (out, value) (rawChunks chunks) =
      match orientations parse (exifBlocksOf chunks) with
      | .error fault => .error fault
      | .ok found => .ok (out ++ rawChunks (chunks.filter WebpChunk.isKept),
          found.getLast?.getD value) := by
  induction chunks with
  | nil =>
    intro out value
    have hdone : (webpReader parse).step (out, value) [] = .done (.ok (out, value)) := rfl
    rw [rawChunks, List.flatMap_nil, Reader.run_of_done hdone]
    change _ = Except.ok (out ++ [], value)
    rw [List.append_nil]
  | cons chunk chunks ih =>
    intro out value
    have hstep := stripWebpStep_chunk parse chunk (rawChunks chunks) out value
    rw [rawChunks_cons]
    cases hexif : chunk.isExif with
    | true =>
      have hfilter : (chunk :: chunks).filter WebpChunk.isKept = chunks.filter WebpChunk.isKept := by
        refine List.filter_cons_of_neg fun hkept ↦ ?_
        rw [WebpChunk.isExif_of_isKept hkept] at hexif
        cases hexif
      rw [if_pos (chunk.isExif_iff.mp hexif)] at hstep
      rw [exifBlocksOf_of_exif hexif, orientations_cons, hfilter]
      cases hvalue : orientation parse chunk.body with
      | error fault =>
        rw [hvalue] at hstep
        rw [Reader.run_of_done hstep]
        rfl
      | ok newer =>
        rw [hvalue] at hstep
        rw [Reader.run_of_next hstep, ih out newer]
        cases orientations parse (exifBlocksOf chunks) with
        | error fault => rfl
        | ok found =>
          change _ = Except.ok (out ++ rawChunks (chunks.filter WebpChunk.isKept),
            (newer :: found).getLast?.getD value)
          rw [List.getLast?_cons]
          rfl
    | false =>
      have hkind : ¬chunk.kind = kindExif := fun h ↦ by
        rw [chunk.isExif_iff.mpr h] at hexif
        cases hexif
      rw [if_neg hkind] at hstep
      rw [exifBlocksOf_of_ne hexif]
      by_cases hkept : chunk.kind ∈ webpKeep
      · have hfilter : (chunk :: chunks).filter WebpChunk.isKept =
            chunk :: chunks.filter WebpChunk.isKept :=
          List.filter_cons_of_pos (chunk.isKept_iff.mpr hkept)
        rw [if_pos hkept] at hstep
        rw [Reader.run_of_next hstep, ih, hfilter]
        rw [rawChunks_cons, List.append_assoc]
      · have hfilter : (chunk :: chunks).filter WebpChunk.isKept = chunks.filter WebpChunk.isKept :=
          List.filter_cons_of_neg fun hkeep ↦ hkept (chunk.isKept_iff.mp hkeep)
        rw [if_neg hkept] at hstep
        rw [Reader.run_of_next hstep, ih, hfilter]

/-! ### The flags -/

variable {parse}

/-- The flags are a chunk of ten bytes in front of the others. -/
theorem exists_flags {file : Webp} (h : startsWithFlags file.chunks = true) :
    ∃ (first : WebpChunk) (others : List WebpChunk) (flags : UInt8) (body : Bytes),
      file.chunks = first :: others ∧ first.kind = kindFlags ∧ first.body = flags :: body ∧
        file.chunks.filter WebpChunk.isKept = first :: others.filter WebpChunk.isKept := by
  cases hchunks : file.chunks with
  | nil =>
    rw [hchunks] at h
    cases h
  | cons first others =>
    rw [hchunks] at h
    have hkind : first.kind = kindFlags := of_decide_eq_true h
    have hten := file.length_flags first (by rw [hchunks]; exact List.mem_cons_self) hkind
    have hkept : first.isKept = true := first.isKept_iff.mpr (by rw [hkind]; decide)
    cases hbody : first.body with
    | nil =>
      rw [hbody] at hten
      cases hten
    | cons flags body =>
      exact ⟨first, others, flags, body, rfl, hkind, hbody, List.filter_cons_of_pos hkept⟩

/-- A container without flags in front has none among its chunks. -/
theorem ne_flags {file : Webp} (h : startsWithFlags file.chunks = false) {chunk : WebpChunk}
    (hchunk : chunk ∈ file.chunks) : chunk.kind ≠ kindFlags := by
  have htail := file.flags_first
  cases hchunks : file.chunks with
  | nil =>
    rw [hchunks] at hchunk
    cases hchunk
  | cons first others =>
    rw [hchunks] at h hchunk htail
    rcases List.mem_cons.mp hchunk with rfl | hother
    · exact of_decide_eq_false h
    · exact htail chunk hother

theorem bytes_mapFlags {chunk : WebpChunk} {flags : UInt8} {body : Bytes} (f : UInt8 → UInt8)
    (h : chunk.body = flags :: body) (rest : Bytes) :
    (chunk.mapFlags f).bytes ++ rest = (chunk.bytes ++ rest).set 8 (f flags) ∧
      (chunk.bytes ++ rest)[8]? = some flags := by
  have hhead : (chunk.kind ++ toLittle 4 (flags :: body).length).length = 8 := by
    simp [chunk.length_kind]
  have hbytes : chunk.bytes ++ rest =
      (chunk.kind ++ toLittle 4 (flags :: body).length) ++ (flags :: (body ++ (chunk.padding ++ rest))) := by
    simp [WebpChunk.bytes, h]
  have hmapped : (chunk.mapFlags f).bytes ++ rest =
      (chunk.kind ++ toLittle 4 (flags :: body).length) ++ (f flags :: (body ++ (chunk.padding ++ rest))) := by
    simp [WebpChunk.bytes, WebpChunk.mapFlags, h]
  rw [hbytes, hmapped]
  constructor
  · rw [List.set_append_right _ _ (by omega), hhead]
    rfl
  · rw [List.getElem?_append_right (by omega), hhead]
    rfl

theorem writeOrientation_webp (value : ℕ) :
    kindExif ++ toLittle 4 (orientationExif value).length ++ orientationExif value =
      (webpOrientation value).bytes := by
  simp [webpOrientation, WebpChunk.bytes]

theorem setFlags_eq (file : Webp) {found : List ℕ}
    (h : ∀ value ∈ found, value = 1 ∨ 2 ≤ value ∧ value ≤ 8) :
    setFlags (rawChunks (file.chunks.filter WebpChunk.isKept)) (found.getLast?.getD 1) =
      .ok (rawChunks (cleanedChunks file.chunks found)) := by
  cases hfirst : startsWithFlags file.chunks with
  | true =>
    obtain ⟨first, others, flags, body, -, hkind, hbody, hkept⟩ := exists_flags hfirst
    have hraw : rawChunks (file.chunks.filter WebpChunk.isKept) =
        first.bytes ++ rawChunks (others.filter WebpChunk.isKept) := by
      rw [hkept]
      rfl
    rw [setFlags, cleanedChunks, hfirst, if_pos rfl, hraw, first.take_kind, if_pos hkind,
      (bytes_mapFlags id hbody _).2, hkept]
    dsimp only
    rcases turn_cases h with ⟨hlast, hturn⟩ | ⟨value, hlast, hne, hturn⟩
    · rw [hlast, hturn, if_pos rfl]
      have hset := (bytes_mapFlags (cleanFlags false) hbody
        (rawChunks (others.filter WebpChunk.isKept))).1
      simp only [List.modify_zero_cons, Option.isSome_none, Option.toList_none, List.map_nil,
        List.append_nil]
      rw [rawChunks_cons, hset, cleanFlags]
      simp
    · rw [hlast, hturn, if_neg hne]
      have hset := (bytes_mapFlags (cleanFlags true) hbody
        (rawChunks (others.filter WebpChunk.isKept) ++ (webpOrientation value).bytes)).1
      simp only [List.modify_zero_cons, Option.isSome_some, Option.toList_some, List.map_cons,
        List.map_nil, List.cons_append]
      rw [writeOrientation_webp, rawChunks_cons, rawChunks_append, rawChunks_singleton, hset,
        cleanFlags, List.append_assoc]
      rfl
  | false =>
    have hne : (rawChunks (file.chunks.filter WebpChunk.isKept)).take 4 ≠ kindFlags := by
      cases hkept : file.chunks.filter WebpChunk.isKept with
      | nil => exact (by decide : (rawChunks []).take 4 ≠ kindFlags)
      | cons first others =>
        have hmem : first ∈ file.chunks.filter WebpChunk.isKept := by
          rw [hkept]
          exact List.mem_cons_self
        rw [rawChunks_cons, first.take_kind]
        exact ne_flags hfirst (List.mem_filter.mp hmem).1
    rw [setFlags, if_neg hne, cleanedChunks, hfirst, if_neg (by decide)]

/-- A container is cleaned to a container of the cleaned chunks, where their size can be written. -/
theorem stripWebp_bytes (parse : ExifParser) (file : Webp) : stripWebp parse file.bytes =
    match orientations parse (exifBlocksOf file.chunks) with
    | .error fault => .error fault
    | .ok found => (littleWord ((rawChunks (cleanedChunks file.chunks found)).length + 4)).map
        fun size ↦ riff ++ size ++ webp ++ rawChunks (cleanedChunks file.chunks found) := by
  have hfield : (file.bytes.take 8).drop 4 = toLittle 4 ((rawChunks file.chunks).length + 4) := by
    have hbytes : file.bytes = (riff ++ toLittle 4 ((rawChunks file.chunks).length + 4)) ++
        (webp ++ (rawChunks file.chunks ++ file.trailer)) := by
      simp only [Webp.bytes, List.append_assoc]
    rw [hbytes, List.take_left' (by simp [riff, ascii]),
      List.drop_left' (by rfl : riff.length = 4)]
  have hbody : (file.bytes.take (8 + ((rawChunks file.chunks).length + 4))).drop 12 =
      rawChunks file.chunks := by
    have hbytes : file.bytes = ((riff ++ toLittle 4 ((rawChunks file.chunks).length + 4) ++ webp) ++
        rawChunks file.chunks) ++ file.trailer := by
      simp only [Webp.bytes, List.append_assoc]
    have htwelve : (riff ++ toLittle 4 ((rawChunks file.chunks).length + 4) ++ webp).length = 12 := by
      simp [riff, webp, ascii]
    rw [hbytes, List.take_left' (by rw [List.length_append, htwelve]; omega),
      List.drop_left' htwelve]
  rw [stripWebp, hfield, ofLittle_toLittle file.size_lt, hbody, run_rawChunks]
  cases horientations : orientations parse (exifBlocksOf file.chunks) with
  | error fault => rfl
  | ok found =>
    have hflags := setFlags_eq file (mem_orientations horientations)
    change (do
      let out ← setFlags (rawChunks (file.chunks.filter WebpChunk.isKept)) (found.getLast?.getD 1)
      let size ← littleWord (out.length + 4)
      return riff ++ size ++ webp ++ out) = _
    rw [hflags]
    change (do
      let size ← littleWord ((rawChunks (cleanedChunks file.chunks found)).length + 4)
      return riff ++ size ++ webp ++ rawChunks (cleanedChunks file.chunks found)) = _
    dsimp only
    cases littleWord ((rawChunks (cleanedChunks file.chunks found)).length + 4) <;> rfl

/-! ### A cleaned container -/

theorem mapFlags_kind (f : UInt8 → UInt8) (chunk : WebpChunk) :
    (chunk.mapFlags f).kind = chunk.kind := rfl

/-- The chunks of a cleaned container, case by case. -/
theorem cleanedChunks_of_flags {file : Webp} {first : WebpChunk} {others : List WebpChunk}
    (hchunks : file.chunks = first :: others) (hkind : first.kind = kindFlags) (found : List ℕ) :
    cleanedChunks file.chunks found = first.mapFlags (cleanFlags (turn found).isSome) ::
      (others.filter WebpChunk.isKept ++ (turn found).toList.map webpOrientation) := by
  have hkept : first.isKept = true := first.isKept_iff.mpr (by rw [hkind]; decide)
  have hstarts : startsWithFlags (first :: others) = true := decide_eq_true hkind
  rw [cleanedChunks, hchunks, if_pos hstarts, List.filter_cons_of_pos hkept, List.modify_zero_cons,
    List.cons_append]

theorem cleanedChunks_of_none {file : Webp} (h : startsWithFlags file.chunks = false)
    (found : List ℕ) : cleanedChunks file.chunks found = file.chunks.filter WebpChunk.isKept := by
  rw [cleanedChunks, h, if_neg (by decide)]

/-- The container of the cleaned chunks, if its size can be written. -/
def Webp.cleaned (file : Webp) (found : List ℕ)
    (hsize : (rawChunks (cleanedChunks file.chunks found)).length + 4 < 256 ^ 4) : Webp where
  chunks := cleanedChunks file.chunks found
  trailer := []
  size_lt := hsize
  flags_first := by
    intro chunk hchunk
    cases hfirst : startsWithFlags file.chunks with
    | true =>
      obtain ⟨first, others, flags, body, hchunks, hkind, -, -⟩ := exists_flags hfirst
      rw [cleanedChunks_of_flags hchunks hkind, List.tail_cons] at hchunk
      rcases List.mem_append.mp hchunk with hkept | hnew
      · refine file.flags_first chunk ?_
        rw [hchunks]
        exact (List.mem_filter.mp hkept).1
      · obtain ⟨value, -, rfl⟩ := List.mem_map.mp hnew
        exact (by decide : kindExif ≠ kindFlags)
    | false =>
      rw [cleanedChunks_of_none hfirst] at hchunk
      exact ne_flags hfirst (List.mem_filter.mp (List.mem_of_mem_tail hchunk)).1
  length_flags := by
    intro chunk hchunk hflags
    cases hfirst : startsWithFlags file.chunks with
    | true =>
      obtain ⟨first, others, flags, body, hchunks, hkind, -, -⟩ := exists_flags hfirst
      rw [cleanedChunks_of_flags hchunks hkind] at hchunk
      rcases List.mem_cons.mp hchunk with rfl | hrest
      · have hten := file.length_flags first (by rw [hchunks]; exact List.mem_cons_self) hkind
        rw [WebpChunk.mapFlags, List.length_modify, hten]
      · rcases List.mem_append.mp hrest with hkept | hnew
        · refine file.length_flags chunk ?_ hflags
          rw [hchunks]
          exact List.mem_cons_of_mem _ (List.mem_filter.mp hkept).1
        · obtain ⟨value, -, rfl⟩ := List.mem_map.mp hnew
          exact absurd hflags (by decide : kindExif ≠ kindFlags)
    | false =>
      rw [cleanedChunks_of_none hfirst] at hchunk
      exact absurd hflags (ne_flags hfirst (List.mem_filter.mp hchunk).1)

theorem filter_isExif_kept (chunks : List WebpChunk) :
    (chunks.filter WebpChunk.isKept).filter WebpChunk.isExif = [] := by
  refine List.filter_eq_nil_iff.mpr fun chunk hchunk hexif ↦ ?_
  rw [WebpChunk.isExif_of_isKept (List.mem_filter.mp hchunk).2] at hexif
  cases hexif

theorem filter_isKept_kept (chunks : List WebpChunk) :
    (chunks.filter WebpChunk.isKept).filter WebpChunk.isKept = chunks.filter WebpChunk.isKept := by
  rw [List.filter_filter]
  simp only [Bool.and_self]

theorem filter_orientation (found : List ℕ) :
    ((turn found).toList.map webpOrientation).filter WebpChunk.isExif =
        (turn found).toList.map webpOrientation ∧
      ((turn found).toList.map webpOrientation).filter WebpChunk.isKept = [] := by
  constructor
  · refine List.filter_eq_self.mpr fun chunk hchunk ↦ ?_
    obtain ⟨value, -, rfl⟩ := List.mem_map.mp hchunk
    rfl
  · refine List.filter_eq_nil_iff.mpr fun chunk hchunk hkept ↦ ?_
    obtain ⟨value, -, rfl⟩ := List.mem_map.mp hchunk
    exact absurd ((WebpChunk.isKept_iff _).mp hkept) (by decide : kindExif ∉ webpKeep)

theorem cleanFlags_cleanFlags (added : Bool) (flags : UInt8) :
    cleanFlags added (cleanFlags added flags) = cleanFlags added flags := by
  have hall : ∀ n < 256, ∀ added, cleanFlags added (cleanFlags added (UInt8.ofNat n)) =
      cleanFlags added (UInt8.ofNat n) := by decide +kernel
  simpa using hall flags.toNat flags.toNat_lt added

theorem mapFlags_mapFlags (added : Bool) (chunk : WebpChunk) :
    (chunk.mapFlags (cleanFlags added)).mapFlags (cleanFlags added) =
      chunk.mapFlags (cleanFlags added) := by
  have hbody : (chunk.body.modify 0 (cleanFlags added)).modify 0 (cleanFlags added) =
      chunk.body.modify 0 (cleanFlags added) := by
    cases chunk.body with
    | nil => rfl
    | cons flags body =>
      rw [List.modify_zero_cons, List.modify_zero_cons, cleanFlags_cleanFlags]
  unfold WebpChunk.mapFlags
  simp only [hbody]

/-- What a cleaned container is cleaned to. -/
theorem cleanedChunks_cleaned (hparse : ReadsBack parse) (file : Webp) (found : List ℕ)
    (hsize : (rawChunks (cleanedChunks file.chunks found)).length + 4 < 256 ^ 4) :
    ∃ left, orientations parse (exifBlocksOf (file.cleaned found hsize).chunks) = .ok left ∧
      cleanedChunks (file.cleaned found hsize).chunks left = (file.cleaned found hsize).chunks := by
  have hchunks : (file.cleaned found hsize).chunks = cleanedChunks file.chunks found := rfl
  cases hfirst : startsWithFlags file.chunks with
  | true =>
    obtain ⟨first, others, flags, body, hfile, hkind, -, -⟩ := exists_flags hfirst
    rw [cleanedChunks_of_flags hfile hkind] at hchunks
    obtain ⟨left, hleft, hsame⟩ := orientations_turn hparse found
    have hexif : (first.mapFlags (cleanFlags (turn found).isSome)).isExif = false := by
      rw [WebpChunk.isExif, mapFlags_kind, hkind]
      decide
    refine ⟨left, ?_, ?_⟩
    · rw [hchunks, exifBlocksOf_of_ne hexif, exifBlocksOf, List.filter_append, filter_isExif_kept,
        (filter_orientation found).1, List.nil_append, List.map_map]
      exact hleft
    · rw [cleanedChunks_of_flags hchunks hkind, hsame, mapFlags_mapFlags, List.filter_append,
        filter_isKept_kept, (filter_orientation found).2, List.append_nil, hchunks]
  | false =>
    rw [cleanedChunks_of_none hfirst] at hchunks
    refine ⟨[], ?_, ?_⟩
    · rw [hchunks, exifBlocksOf, filter_isExif_kept]
      rfl
    · have hnone : startsWithFlags (file.cleaned found hsize).chunks = false := by
        rw [hchunks]
        cases hkept : file.chunks.filter WebpChunk.isKept with
        | nil => rfl
        | cons chunk others =>
          have hmem : chunk ∈ file.chunks.filter WebpChunk.isKept := by
            rw [hkept]
            exact List.mem_cons_self
          exact decide_eq_false (ne_flags hfirst (List.mem_filter.mp hmem).1)
      rw [cleanedChunks_of_none hnone, hchunks, filter_isKept_kept]

/-- The flags of the colour profile and of XMP are cleared, the one of EXIF says whether a chunk was
added, and the others stay. -/
theorem testBit_cleanFlags (added : Bool) (flags : UInt8) (i : ℕ) :
    (cleanFlags added flags).toNat.testBit i =
      if i = 5 ∨ i = 2 then false else if i = 3 then added else flags.toNat.testBit i := by
  have hlow : ∀ n < 256, ∀ added, ∀ i < 8,
      (cleanFlags added (UInt8.ofNat n)).toNat.testBit i =
        if i = 5 ∨ i = 2 then false else if i = 3 then added else n.testBit i := by decide +kernel
  by_cases hi : i < 8
  · have h := hlow flags.toNat flags.toNat_lt added i hi
    rwa [UInt8.ofNat_toNat] at h
  · have hhigh : ∀ b : UInt8, b.toNat.testBit i = false := fun b ↦
      Nat.testBit_lt_two_pow (Nat.lt_of_lt_of_le b.toNat_lt (Nat.pow_le_pow_right (by decide) (by omega)))
    rw [hhigh, hhigh, if_neg (by omega), if_neg (by omega)]

theorem littleWord_of_lt {n : ℕ} (h : n < 256 ^ 4) : littleWord n = .ok (toLittle 4 n) := if_pos h

/-- A well-formed file whose EXIF blocks the parser reads is cleaned to a well-formed one with its size
and nothing behind it, if its size can be written: the chunks of the picture with the flags for what is
left, and the orientation where there are flags and the picture is turned. A cleaned file is left as it
is. A file with a block that is rejected is refused. -/
theorem webp_is_cleaned (hparse : ReadsBack parse) (file : Webp) :
    (∀ added flags, ∀ i, (cleanFlags added flags).toNat.testBit i =
      if i = 5 ∨ i = 2 then false else if i = 3 then added else flags.toNat.testBit i) ∧
    match orientations parse (exifBlocksOf file.chunks) with
    | .error fault => stripWebp parse file.bytes = .error fault
    | .ok found =>
      (256 ^ 4 ≤ (rawChunks (cleanedChunks file.chunks found)).length + 4 →
        stripWebp parse file.bytes = .error .overflowError) ∧
      ∀ hsize : (rawChunks (cleanedChunks file.chunks found)).length + 4 < 256 ^ 4,
        stripWebp parse file.bytes = .ok (file.cleaned found hsize).bytes ∧
        (file.cleaned found hsize).bytes.length =
          (rawChunks (cleanedChunks file.chunks found)).length + 4 + 8 ∧
        stripWebp parse (file.cleaned found hsize).bytes = .ok (file.cleaned found hsize).bytes := by
  refine ⟨testBit_cleanFlags, ?_⟩
  have hclean := stripWebp_bytes parse file
  cases horientations : orientations parse (exifBlocksOf file.chunks) with
  | error fault =>
    rw [horientations] at hclean
    exact hclean
  | ok found =>
    rw [horientations] at hclean
    dsimp only at hclean ⊢
    refine ⟨fun hlarge ↦ ?_, fun hsize ↦ ?_⟩
    · rw [hclean, littleWord, if_neg (by omega)]
      rfl
    · have hbytes : riff ++ toLittle 4 ((rawChunks (cleanedChunks file.chunks found)).length + 4) ++
          webp ++ rawChunks (cleanedChunks file.chunks found) = (file.cleaned found hsize).bytes := by
        simp [Webp.bytes, Webp.cleaned]
      obtain ⟨left, hleft, hsame⟩ := cleanedChunks_cleaned hparse file found hsize
      have hagain := stripWebp_bytes parse (file.cleaned found hsize)
      rw [hleft] at hagain
      dsimp only at hagain
      rw [hsame] at hagain
      rw [littleWord_of_lt hsize] at hclean
      rw [show (file.cleaned found hsize).chunks = cleanedChunks file.chunks found from rfl,
        littleWord_of_lt hsize] at hagain
      refine ⟨hclean.trans (congrArg Except.ok hbytes), ?_,
        hagain.trans (congrArg Except.ok hbytes)⟩
      rw [← hbytes]
      simp [riff, webp, ascii]
      omega

/-- A picture with flags and one chunk of EXIF. -/
def animated (exif : Bytes) (hexif : exif.length = 26) : Webp where
  chunks := [⟨kindFlags, 0x2E :: List.replicate 9 0, [], rfl, by decide, rfl⟩,
    ⟨ascii ['I', 'C', 'C', 'P'], [0x01], [0x00], rfl, by decide, rfl⟩,
    ⟨kindExif, exif, [], rfl, by rw [hexif]; decide, by rw [hexif]; rfl⟩]
  trailer := ascii ['G', 'P', 'S']
  size_lt := by
    simp [rawChunks, WebpChunk.bytes, kindFlags, kindExif, ascii, hexif]
  flags_first := by
    intro chunk hchunk
    rcases List.mem_cons.mp hchunk with rfl | hchunk
    · exact (by decide : ascii ['I', 'C', 'C', 'P'] ≠ kindFlags)
    · rw [List.mem_singleton.mp hchunk]
      exact (by decide : kindExif ≠ kindFlags)
  length_flags := by
    intro chunk hchunk hflags
    rcases List.mem_cons.mp hchunk with rfl | hchunk
    · rfl
    · exfalso
      rcases List.mem_cons.mp hchunk with rfl | hchunk
      · exact (by decide : ascii ['I', 'C', 'C', 'P'] ≠ kindFlags) hflags
      · rw [List.mem_singleton.mp hchunk] at hflags
        exact (by decide : kindExif ≠ kindFlags) hflags

/-- A turned picture is cleaned to its flags, which say that there is EXIF, and its orientation. -/
theorem animated_is_cleaned :
    ∃ out, stripWebp firstEntry (animated (orientationExif 6) rfl).bytes = .ok out ∧
      out = riff ++ (toLittle 4 56 ++ (webp ++ ((kindFlags ++ (toLittle 4 10 ++
        (0x0A :: List.replicate 9 0))) ++ (webpOrientation 6).bytes))) := by
  have hclean := (webp_is_cleaned readsBack_firstEntry (animated (orientationExif 6) rfl)).2
  rw [show orientations firstEntry (exifBlocksOf (animated (orientationExif 6) rfl).chunks) =
    .ok [6] by decide +kernel] at hclean
  exact ⟨_, (hclean.2 (by decide +kernel)).1, by decide +kernel⟩

/-- A well-formed file with an EXIF block that is none is not cleaned. -/
theorem rejected_is_refused :
    ¬∃ out, stripWebp firstEntry (animated (List.replicate 26 0) rfl).bytes = .ok out := by
  rintro ⟨out, hout⟩
  have hfails : stripWebp firstEntry (animated (List.replicate 26 0) rfl).bytes = .error .exif := by
    decide +kernel
  rw [hfails] at hout
  cases hout

end OpenWhistle.Attachments
