import Mathlib.Data.List.Basic
import Mathlib.Data.Nat.Notation
import OpenWhistle.Attachments.Orientation

/-!
# Cleaning a PNG

A PNG is a signature and a row of chunks up to the one that ends the picture. Each chunk has a length,
a type, its data and a check sum. The chunks that describe pixels are kept as they are, the orientation
is written anew, and everything else goes, with what follows the picture.

The walk meets a chunk that is not all there, or it reads the file as a picture; which of the two is
decided by the bytes. Of a picture the cleaner does what is said chunk by chunk, and a cleaned picture
is clean.
-/

set_option autoImplicit false
set_option relaxedAutoImplicit false

namespace OpenWhistle.Attachments

open Bytes

/-! ### The walk -/

def typeExif : Bytes := ascii ['e', 'X', 'I', 'f']

def typeEnd : Bytes := ascii ['I', 'E', 'N', 'D']

/-- `_PNG_KEEP`. -/
def pngKeep : List Bytes :=
  [ascii ['I', 'H', 'D', 'R'], ascii ['P', 'L', 'T', 'E'], ascii ['t', 'R', 'N', 'S'],
    ascii ['I', 'D', 'A', 'T'], ascii ['I', 'E', 'N', 'D'], ascii ['a', 'c', 'T', 'L'],
    ascii ['f', 'c', 'T', 'L'], ascii ['f', 'd', 'A', 'T'], ascii ['g', 'A', 'M', 'A'],
    ascii ['c', 'H', 'R', 'M'], ascii ['s', 'R', 'G', 'B'], ascii ['c', 'I', 'C', 'P'],
    ascii ['s', 'B', 'I', 'T'], ascii ['b', 'K', 'G', 'D'], ascii ['p', 'H', 'Y', 's']]

/-- The chunk that is put in front of the end, of its type and the orientation block. -/
def writeExif (value : ℕ) : Bytes :=
  let exif := typeExif ++ orientationExif value
  toBig 4 (exif.length - 4) ++ exif ++ toBig 4 (crc32 exif)

variable (parse : ExifParser)

/-- What is written, and the orientation. -/
abbrev PngState := Bytes × ℕ

/-- One turn of the loop of `_strip_png`, on the bytes from its index on. -/
def stripPngStep : PngState → Bytes → Step PngState (Except Fault Bytes)
  | (out, value), rest =>
    let length := ofBig (rest.take 4)
    let kind := (rest.drop 4).take 4
    let stop := 12 + length
    if rest.length < stop then .done (.error (.metadata "truncated PNG"))
    else if kind = typeExif then
      match orientation parse ((rest.take (stop - 4)).drop 8) with
      | .error fault => .done (.error fault)
      | .ok value => .next (out, value) (rest.drop stop)
    else if kind = typeEnd then
      .done (.ok ((if value = 1 then out else out ++ writeExif value) ++ rest.take stop))
    else if kind ∈ pngKeep then .next (out ++ rest.take stop, value) (rest.drop stop)
    else .next (out, value) (rest.drop stop)

variable {parse}

theorem stripPngStep_shrinks {state later : PngState} {rest left : Bytes}
    (h : stripPngStep parse state rest = .next later left) : left.length < rest.length := by
  have hdrop : ∀ stop, 12 ≤ stop → ¬rest.length < stop → (rest.drop stop).length < rest.length := by
    intro stop htwelve hstop
    rw [List.length_drop]
    omega
  unfold stripPngStep at h
  dsimp only at h
  split_ifs at h with hshort
  · split at h
    · cases h
    · cases h
      exact hdrop _ (by omega) hshort
  · cases h
    exact hdrop _ (by omega) hshort
  · cases h
    exact hdrop _ (by omega) hshort

variable (parse)

def pngReader : Reader PngState (Except Fault Bytes) := ⟨stripPngStep parse, stripPngStep_shrinks⟩

/-- `_strip_png`. -/
def stripPng (data : Bytes) : Except Fault Bytes :=
  (pngReader parse).run (data.take 8, 1) (data.drop 8)

/-! ### Chunks and pictures -/

/-- A chunk, whose length fits its four bytes. -/
structure Chunk where
  kind : Bytes
  body : Bytes
  crc : Bytes
  length_kind : kind.length = 4
  length_crc : crc.length = 4
  length_body : body.length < 256 ^ 4

def Chunk.bytes (chunk : Chunk) : Bytes :=
  toBig 4 chunk.body.length ++ (chunk.kind ++ (chunk.body ++ chunk.crc))

def Chunk.isExif (chunk : Chunk) : Bool := decide (chunk.kind = typeExif)

def Chunk.isKept (chunk : Chunk) : Bool := decide (chunk.kind ∈ pngKeep)

/-- A picture, and what follows it in the file. -/
structure Png where
  signature : Bytes
  /-- The chunks in front of the first one that ends the picture. -/
  chunks : List Chunk
  last : Chunk
  trailer : Bytes
  length_signature : signature.length = 8
  ne_end : ∀ chunk ∈ chunks, chunk.kind ≠ typeEnd
  eq_end : last.kind = typeEnd

def Png.bytes (png : Png) : Bytes :=
  png.signature ++ (png.chunks.flatMap Chunk.bytes ++ (png.last.bytes ++ png.trailer))

/-- A chunk runs past the end of the data before one that ends the picture is reached. -/
inductive Truncated : Bytes → Prop
  | here {rest : Bytes} (hshort : rest.length < 12 + ofBig (rest.take 4)) : Truncated rest
  | later {rest : Bytes} (chunk : Chunk) (hkind : chunk.kind ≠ typeEnd) (hrest : Truncated rest) :
      Truncated (chunk.bytes ++ rest)

/-- The chunk of an orientation: its length, its type, the block of this orientation, and the check sum
of type and block. -/
def orientationChunk (value : ℕ) : Chunk where
  kind := typeExif
  body := orientationExif value
  crc := toBig 4 (crc32 (typeExif ++ orientationExif value))
  length_kind := rfl
  length_crc := length_toBig ..
  length_body := orientationExif_fits value

/-- The EXIF blocks of a picture. -/
def exifBlocks (chunks : List Chunk) : List Bytes := (chunks.filter Chunk.isExif).map Chunk.body

/-- The orientation chunk: where the last EXIF chunk has an orientation from 2 to 8. -/
def orientationChunks (found : List ℕ) : List Chunk := (turn found).toList.map orientationChunk

/-- A picture with its chunks of pixels, the orientation chunk and its end. -/
def Png.cleaned (png : Png) (found : List ℕ) : Bytes :=
  png.signature ++ ((png.chunks.filter Chunk.isKept).flatMap Chunk.bytes ++
    ((orientationChunks found).flatMap Chunk.bytes ++ png.last.bytes))

/-! ### One chunk -/

variable {parse}

theorem isKept_iff (chunk : Chunk) : chunk.isKept = true ↔ chunk.kind ∈ pngKeep := by
  rw [Chunk.isKept]
  exact decide_eq_true_iff

theorem Chunk.length_bytes (chunk : Chunk) : chunk.bytes.length = 12 + chunk.body.length := by
  simp [Chunk.bytes, chunk.length_kind, chunk.length_crc]
  omega

section Fields

variable (chunk : Chunk) (rest : Bytes)

theorem Chunk.take_length : (chunk.bytes ++ rest).take 4 = toBig 4 chunk.body.length := by
  rw [Chunk.bytes, List.append_assoc]
  exact List.take_left' (length_toBig ..)

theorem Chunk.take_kind : ((chunk.bytes ++ rest).drop 4).take 4 = chunk.kind := by
  have hdrop : (chunk.bytes ++ rest).drop 4 = chunk.kind ++ (chunk.body ++ chunk.crc ++ rest) := by
    rw [Chunk.bytes, List.append_assoc, List.drop_left' (length_toBig ..)]
    simp only [List.append_assoc]
  rw [hdrop]
  exact List.take_left' chunk.length_kind

theorem Chunk.take_stop : (chunk.bytes ++ rest).take (12 + chunk.body.length) = chunk.bytes :=
  List.take_left' chunk.length_bytes

theorem Chunk.drop_stop : (chunk.bytes ++ rest).drop (12 + chunk.body.length) = rest :=
  List.drop_left' chunk.length_bytes

theorem Chunk.take_body :
    ((chunk.bytes ++ rest).take (12 + chunk.body.length - 4)).drop 8 = chunk.body := by
  have hbytes : chunk.bytes ++ rest =
      (toBig 4 chunk.body.length ++ chunk.kind) ++ chunk.body ++ (chunk.crc ++ rest) := by
    simp only [Chunk.bytes, List.append_assoc]
  have hhead : (toBig 4 chunk.body.length ++ chunk.kind).length = 8 := by
    simp [chunk.length_kind]
  rw [hbytes, List.take_left' (by rw [List.length_append, hhead]; omega), List.drop_left' hhead]

theorem Chunk.ofBig_length : ofBig ((chunk.bytes ++ rest).take 4) = chunk.body.length := by
  rw [chunk.take_length, ofBig_toBig chunk.length_body]

end Fields

/-- One turn of the loop at a chunk. -/
theorem stripPngStep_chunk (parse : ExifParser) (chunk : Chunk) (rest out : Bytes) (value : ℕ) :
    (pngReader parse).step (out, value) (chunk.bytes ++ rest) =
      if chunk.kind = typeExif then
        match orientation parse chunk.body with
        | .error fault => .done (.error fault)
        | .ok value => .next (out, value) rest
      else if chunk.kind = typeEnd then
        .done (.ok ((if value = 1 then out else out ++ writeExif value) ++ chunk.bytes))
      else if chunk.kind ∈ pngKeep then .next (out ++ chunk.bytes, value) rest
      else .next (out, value) rest := by
  have hlong : ¬(chunk.bytes ++ rest).length < 12 + chunk.body.length := by
    rw [List.length_append, chunk.length_bytes]
    omega
  change stripPngStep parse (out, value) (chunk.bytes ++ rest) = _
  unfold stripPngStep
  dsimp only
  rw [chunk.ofBig_length, if_neg hlong, chunk.take_kind, chunk.take_body, chunk.take_stop,
    chunk.drop_stop]

/-- What is left begins with a chunk, or its first chunk is not all there. -/
theorem exists_chunk {rest : Bytes} (h : ¬rest.length < 12 + ofBig (rest.take 4)) :
    ∃ chunk : Chunk, ∃ left, rest = chunk.bytes ++ left := by
  have hfour : (rest.take 4).length = 4 := by
    rw [List.length_take]
    omega
  have hlength : toBig 4 (ofBig (rest.take 4)) = rest.take 4 := by
    have hback := toBig_ofBig (rest.take 4)
    rwa [hfour] at hback
  have hlt := ofBig_lt (rest.take 4)
  rw [hfour] at hlt
  have hbody : ((rest.drop 8).take (ofBig (rest.take 4))).length = ofBig (rest.take 4) := by
    rw [List.length_take, List.length_drop]
    omega
  refine ⟨⟨(rest.drop 4).take 4, (rest.drop 8).take (ofBig (rest.take 4)),
    (rest.drop (8 + ofBig (rest.take 4))).take 4, ?_, ?_, ?_⟩,
    rest.drop (12 + ofBig (rest.take 4)), ?_⟩
  · rw [List.length_take, List.length_drop]
    omega
  · rw [List.length_take, List.length_drop]
    omega
  · rw [hbody]
    exact hlt
  · have hcrc : rest.drop (8 + ofBig (rest.take 4)) =
        (rest.drop (8 + ofBig (rest.take 4))).take 4 ++ rest.drop (12 + ofBig (rest.take 4)) := by
      conv_lhs => rw [← List.take_append_drop 4 (rest.drop (8 + ofBig (rest.take 4)))]
      rw [List.drop_drop, show 8 + ofBig (rest.take 4) + 4 = 12 + ofBig (rest.take 4) by omega]
    have hdata : rest.drop 8 = (rest.drop 8).take (ofBig (rest.take 4)) ++
        rest.drop (8 + ofBig (rest.take 4)) := by
      conv_lhs => rw [← List.take_append_drop (ofBig (rest.take 4)) (rest.drop 8)]
      rw [List.drop_drop]
    have hkind : rest.drop 4 = (rest.drop 4).take 4 ++ rest.drop 8 := by
      conv_lhs => rw [← List.take_append_drop 4 (rest.drop 4)]
      rw [List.drop_drop]
    rw [Chunk.bytes]
    dsimp only
    rw [hbody, hlength, List.append_assoc, List.append_assoc, List.append_assoc, ← hcrc, ← hdata,
      ← hkind, List.take_append_drop]

/-! ### The whole file -/

/-- Some bytes are truncated, or hold the chunks of a picture. -/
theorem truncated_or (rest : Bytes) : Truncated rest ∨
    ∃ (chunks : List Chunk) (last : Chunk) (trailer : Bytes),
      rest = chunks.flatMap Chunk.bytes ++ (last.bytes ++ trailer) ∧
        (∀ chunk ∈ chunks, chunk.kind ≠ typeEnd) ∧ last.kind = typeEnd := by
  induction hlength : rest.length using Nat.strongRecOn generalizing rest with
  | ind n ih =>
    by_cases hshort : rest.length < 12 + ofBig (rest.take 4)
    · exact .inl (.here hshort)
    · obtain ⟨chunk, left, rfl⟩ := exists_chunk hshort
      by_cases hkind : chunk.kind = typeEnd
      · exact .inr ⟨[], chunk, left, rfl, nofun, hkind⟩
      · have hless : left.length < n := by
          rw [List.length_append, chunk.length_bytes] at hlength
          omega
        rcases ih left.length hless left rfl with hleft | ⟨chunks, last, trailer, rfl, hchunks, hlast⟩
        · exact .inl (.later chunk hkind hleft)
        · refine .inr ⟨chunk :: chunks, last, trailer, ?_, ?_, hlast⟩
          · rw [List.flatMap_cons, List.append_assoc]
          · exact List.forall_mem_cons.mpr ⟨hkind, hchunks⟩

/-- A truncated file is refused. -/
theorem run_truncated {rest : Bytes} (h : Truncated rest) :
    ∀ state, ∃ fault, (pngReader parse).run state rest = .error fault := by
  induction h with
  | here hshort =>
    rintro ⟨out, value⟩
    exact ⟨_, Reader.run_of_done (if_pos hshort)⟩
  | @later rest chunk hkind hrest ih =>
    rintro ⟨out, value⟩
    have hstep := stripPngStep_chunk parse chunk rest out value
    rw [if_neg hkind] at hstep
    split_ifs at hstep
    · cases hvalue : orientation parse chunk.body with
      | error fault =>
        rw [hvalue] at hstep
        exact ⟨fault, Reader.run_of_done hstep⟩
      | ok found =>
        rw [hvalue] at hstep
        rw [Reader.run_of_next hstep]
        exact ih _
    · rw [Reader.run_of_next hstep]
      exact ih _
    · rw [Reader.run_of_next hstep]
      exact ih _

theorem writeExif_eq (value : ℕ) : writeExif value = (orientationChunk value).bytes := by
  simp [writeExif, orientationChunk, Chunk.bytes, typeExif, ascii]

theorem exifBlocks_of_exif {chunk : Chunk} (h : chunk.kind = typeExif) (chunks : List Chunk) :
    exifBlocks (chunk :: chunks) = chunk.body :: exifBlocks chunks := by
  rw [exifBlocks, List.filter_cons_of_pos (by simpa [Chunk.isExif] using h), List.map_cons]
  rfl

theorem exifBlocks_of_ne {chunk : Chunk} (h : chunk.kind ≠ typeExif) (chunks : List Chunk) :
    exifBlocks (chunk :: chunks) = exifBlocks chunks := by
  rw [exifBlocks, List.filter_cons_of_neg (by simpa [Chunk.isExif] using h)]
  rfl

/-- What the walk makes of the orientation it ends with. -/
def writeOrientation (value : ℕ) : Bytes := if value = 1 then [] else writeExif value

theorem run_chunks {chunks : List Chunk} {last : Chunk} (trailer : Bytes)
    (hlast : last.kind = typeEnd) (hchunks : ∀ chunk ∈ chunks, chunk.kind ≠ typeEnd) :
    ∀ (out : Bytes) (value : ℕ),
      (pngReader parse).run (out, value) (chunks.flatMap Chunk.bytes ++ (last.bytes ++ trailer)) =
        match orientations parse (exifBlocks chunks) with
        | .error fault => .error fault
        | .ok found => .ok (out ++ ((chunks.filter Chunk.isKept).flatMap Chunk.bytes ++
            (writeOrientation (found.getLast?.getD value) ++ last.bytes))) := by
  induction chunks with
  | nil =>
    intro out value
    have hexif : last.kind ≠ typeExif := by
      rw [hlast]
      decide
    have hstep := stripPngStep_chunk parse last trailer out value
    rw [if_neg hexif, if_pos hlast] at hstep
    rw [List.flatMap_nil, List.nil_append, Reader.run_of_done hstep]
    change _ = Except.ok (out ++ ([] ++ (writeOrientation value ++ last.bytes)))
    unfold writeOrientation
    split_ifs <;> simp
  | cons chunk chunks ih =>
    intro out value
    obtain ⟨hend, hrest⟩ := List.forall_mem_cons.mp hchunks
    have hstep := stripPngStep_chunk parse chunk
      (chunks.flatMap Chunk.bytes ++ (last.bytes ++ trailer)) out value
    rw [List.flatMap_cons, List.append_assoc]
    by_cases hexif : chunk.kind = typeExif
    · have hkept : Chunk.isKept chunk = false := by
        rw [Chunk.isKept, hexif]
        decide
      rw [if_pos hexif] at hstep
      rw [exifBlocks_of_exif hexif, orientations_cons, List.filter_cons_of_neg (by simp [hkept])]
      cases hvalue : orientation parse chunk.body with
      | error fault =>
        rw [hvalue] at hstep
        rw [Reader.run_of_done hstep]
        rfl
      | ok newer =>
        rw [hvalue] at hstep
        rw [Reader.run_of_next hstep, ih hrest out newer]
        cases orientations parse (exifBlocks chunks) with
        | error fault => rfl
        | ok found =>
          change _ = Except.ok (out ++ ((chunks.filter Chunk.isKept).flatMap Chunk.bytes ++
            (writeOrientation ((newer :: found).getLast?.getD value) ++ last.bytes)))
          rw [List.getLast?_cons]
          rfl
    · rw [if_neg hexif, if_neg hend] at hstep
      rw [exifBlocks_of_ne hexif]
      by_cases hkept : chunk.kind ∈ pngKeep
      · have hfilter : (chunk :: chunks).filter Chunk.isKept = chunk :: chunks.filter Chunk.isKept :=
          List.filter_cons_of_pos ((isKept_iff chunk).mpr hkept)
        rw [if_pos hkept] at hstep
        rw [Reader.run_of_next hstep, ih hrest, hfilter, List.flatMap_cons]
        simp only [List.append_assoc]
      · have hfilter : (chunk :: chunks).filter Chunk.isKept = chunks.filter Chunk.isKept :=
          List.filter_cons_of_neg fun hkeep ↦ hkept ((isKept_iff chunk).mp hkeep)
        rw [if_neg hkept] at hstep
        rw [Reader.run_of_next hstep, ih hrest, hfilter]

/-- The orientation the walk ends with is written where the picture is turned. -/
theorem writeOrientation_eq {found : List ℕ} (h : ∀ value ∈ found, value = 1 ∨ 2 ≤ value ∧ value ≤ 8) :
    writeOrientation (found.getLast?.getD 1) = (orientationChunks found).flatMap Chunk.bytes := by
  rw [orientationChunks, writeOrientation]
  rcases turn_cases h with ⟨hlast, hturn⟩ | ⟨value, hlast, hne, hturn⟩
  · rw [hlast, hturn]
    rfl
  · rw [hlast, hturn, if_neg hne, writeExif_eq]
    exact (List.append_nil _).symm

/-- A picture is cleaned chunk by chunk, or one of its EXIF chunks is rejected. -/
theorem stripPng_bytes (parse : ExifParser) (png : Png) : stripPng parse png.bytes =
    match orientations parse (exifBlocks png.chunks) with
    | .error fault => .error fault
    | .ok found => .ok (png.cleaned found) := by
  rw [stripPng, Png.bytes, List.take_left' png.length_signature,
    List.drop_left' png.length_signature, run_chunks png.trailer png.eq_end png.ne_end]
  cases horientations : orientations parse (exifBlocks png.chunks) with
  | error fault => rfl
  | ok found =>
    dsimp only
    rw [writeOrientation_eq (mem_orientations horientations), Png.cleaned]

/-! ### A cleaned picture -/

/-- The picture of the chunks that are left. -/
def Png.rest (png : Png) (found : List ℕ) : Png where
  signature := png.signature
  chunks := png.chunks.filter Chunk.isKept ++ orientationChunks found
  last := png.last
  trailer := []
  length_signature := png.length_signature
  ne_end := by
    intro chunk hchunk
    rcases List.mem_append.mp hchunk with hkept | hnew
    · exact png.ne_end chunk ((List.mem_filter.mp hkept).1)
    · obtain ⟨value, -, rfl⟩ := List.mem_map.mp hnew
      exact (by decide : typeExif ≠ typeEnd)
  eq_end := png.eq_end

theorem bytes_rest (png : Png) (found : List ℕ) : (png.rest found).bytes = png.cleaned found := by
  simp [Png.rest, Png.bytes, Png.cleaned]

theorem exifBlocks_rest (png : Png) (found : List ℕ) :
    exifBlocks (png.rest found).chunks = (turn found).toList.map orientationExif := by
  have hnone : (png.chunks.filter Chunk.isKept).filter Chunk.isExif = [] := by
    refine List.filter_eq_nil_iff.mpr fun chunk hchunk hexif ↦ ?_
    have hkept := (isKept_iff chunk).mp (List.mem_filter.mp hchunk).2
    rw [of_decide_eq_true hexif] at hkept
    exact absurd hkept (by decide)
  have hall : (orientationChunks found).filter Chunk.isExif = orientationChunks found := by
    refine List.filter_eq_self.mpr fun chunk hchunk ↦ ?_
    obtain ⟨value, -, rfl⟩ := List.mem_map.mp hchunk
    rfl
  rw [exifBlocks, Png.rest, List.filter_append, hnone, hall, List.nil_append, orientationChunks,
    List.map_map]
  rfl

theorem filter_isKept_rest (png : Png) (found : List ℕ) :
    (png.rest found).chunks.filter Chunk.isKept = png.chunks.filter Chunk.isKept := by
  have hnone : (orientationChunks found).filter Chunk.isKept = [] := by
    refine List.filter_eq_nil_iff.mpr fun chunk hchunk hkept ↦ ?_
    obtain ⟨value, -, rfl⟩ := List.mem_map.mp hchunk
    exact absurd (of_decide_eq_true hkept) (by decide : typeExif ∉ pngKeep)
  rw [Png.rest, List.filter_append, hnone, List.append_nil, List.filter_filter]
  simp only [Bool.and_self]

/-- A cleaned picture is clean. -/
theorem stripPng_cleaned (hparse : ReadsBack parse) (png : Png) (found : List ℕ) :
    stripPng parse (png.cleaned found) = .ok (png.cleaned found) := by
  obtain ⟨left, hleft, hsame⟩ := orientations_turn hparse found
  have hclean := stripPng_bytes parse (png.rest found)
  rw [exifBlocks_rest, hleft, bytes_rest] at hclean
  rw [hclean]
  dsimp only
  rw [Png.cleaned, Png.cleaned, filter_isKept_rest, orientationChunks, hsame]
  rfl

/-- A file of at least eight bytes is refused where a chunk runs past its end. Otherwise it is a
picture, which is refused where one of its EXIF chunks is rejected, and is cleaned exactly where none
is: to a picture that is left as it is. -/
theorem png_is_cleaned_exactly (hparse : ReadsBack parse) {data : Bytes} (hdata : 8 ≤ data.length) :
    (Truncated (data.drop 8) → ∃ fault, stripPng parse data = .error fault) ∧
    (¬Truncated (data.drop 8) → ∃ png : Png, png.bytes = data) ∧
    ∀ png : Png, png.bytes = data → match orientations parse (exifBlocks png.chunks) with
      | .error fault => stripPng parse data = .error fault
      | .ok found => stripPng parse data = .ok (png.cleaned found) ∧
          stripPng parse (png.cleaned found) = .ok (png.cleaned found) := by
  refine ⟨fun h ↦ run_truncated h _, fun h ↦ ?_, ?_⟩
  · obtain ⟨chunks, last, trailer, hrest, hchunks, hlast⟩ := (truncated_or _).resolve_left h
    refine ⟨⟨data.take 8, chunks, last, trailer, ?_, hchunks, hlast⟩, ?_⟩
    · rw [List.length_take]
      omega
    · rw [Png.bytes, ← hrest, List.take_append_drop]
  · rintro png rfl
    have hclean := stripPng_bytes parse png
    cases horientations : orientations parse (exifBlocks png.chunks) with
    | error fault =>
      rw [horientations] at hclean
      exact hclean
    | ok found =>
      rw [horientations] at hclean
      exact ⟨hclean, stripPng_cleaned hparse png found⟩

/-- A picture that is turned and has a comment, and a trailer. -/
def turned : Png where
  signature := [0x89, 0x50, 0x4E, 0x47, 0x0D, 0x0A, 0x1A, 0x0A]
  chunks := [orientationChunk 6,
    ⟨ascii ['t', 'E', 'X', 't'], ascii ['E', 'r', 'i', 'k', 'a'], [0, 0, 0, 0], rfl, rfl, by decide⟩]
  last := ⟨typeEnd, [], [0xAE, 0x42, 0x60, 0x82], rfl, rfl, by decide⟩
  trailer := ascii ['G', 'P', 'S']
  length_signature := rfl
  ne_end := by
    rintro chunk hchunk
    rcases List.mem_cons.mp hchunk with rfl | hchunk
    · exact (by decide : typeExif ≠ typeEnd)
    · rw [List.mem_singleton.mp hchunk]
      decide
  eq_end := rfl

theorem turned_is_cleaned : stripPng firstEntry turned.bytes = .ok (turned.cleaned [6]) := by
  have hclean := (png_is_cleaned_exactly readsBack_firstEntry
    (by decide : 8 ≤ turned.bytes.length)).2.2 turned rfl
  rw [show orientations firstEntry (exifBlocks turned.chunks) = .ok [6] by decide] at hclean
  exact hclean.1

end OpenWhistle.Attachments
