import OpenWhistle.Attachments.Orientation

/-!
# Cleaning a JPEG

A JPEG is a row of segments between its start and its end, each behind a marker and with its length,
and of scans: a segment for the header, and the compressed picture up to the next marker. Bytes of
ones may stand in front of a marker. The segments of applications and the comments go, all but the
colours of APP14, and so does everything behind the end; one segment is added where the picture is
turned.

The compressed data is not looked into: a scan goes to the first marker that is neither a stuffed byte
nor a restart. That is the one thing the walk over the file has to find for itself.
-/

set_option autoImplicit false
set_option relaxedAutoImplicit false

namespace OpenWhistle.Attachments

open Bytes

/-! ### The walk -/

/-- `0xD0 <= marker <= 0xD7`. -/
def isRestart (marker : UInt8) : Bool := decide (0xD0 ≤ marker ∧ marker ≤ 0xD7)

/-- `_scan_end`, as the number of bytes from where it starts. -/
def scanEnd : Bytes → ℕ
  | [] => 0
  | [_] => 1
  | b :: marker :: rest =>
    if b = 0xFF then if marker = 0 ∨ isRestart marker then 2 + scanEnd rest else 0
    else 1 + scanEnd (marker :: rest)

/-- APPn other than `_JPEG_KEEP_APP`, and COM. -/
def isRemovable (marker : UInt8) : Bool :=
  decide (0xE0 ≤ marker ∧ marker ≤ 0xEF ∧ marker ≠ 0xEE ∨ marker = 0xFE)

/-- What belongs to a marker: its length, and the image data of a scan. -/
def segmentEnd (marker : UInt8) (rest : Bytes) : ℕ :=
  let stop := ofBig (rest.take 2)
  if marker = 0xDA then stop + scanEnd (rest.drop stop) else stop

/-- One turn of the loop of `_strip_jpeg_segments`, on the bytes from its index on. -/
def stripSegmentsStep : Bytes → Bytes → Step Bytes Bytes
  | out, b :: marker :: rest =>
    if b ≠ 0xFF then .done out
    else if marker = 0xFF then .next out (marker :: rest)
    else if marker = 0xD9 then .done (out ++ [0xFF, 0xD9])
    else
      let stop := segmentEnd marker rest
      .next (if isRemovable marker then out else out ++ b :: marker :: rest.take stop)
        (rest.drop stop)
  | out, _ => .done out

theorem stripSegmentsStep_shrinks {state later rest left : Bytes}
    (h : stripSegmentsStep state rest = .next later left) : left.length < rest.length := by
  unfold stripSegmentsStep at h
  split at h
  · dsimp only at h
    split_ifs at h <;> cases h <;> simp only [List.length_cons, List.length_drop] <;> omega
  · cases h

def segmentReader : Reader Bytes Bytes := ⟨stripSegmentsStep, stripSegmentsStep_shrinks⟩

/-- `_strip_jpeg_segments`. -/
def stripJpegSegments (data : Bytes) : Bytes :=
  if data.take 2 ≠ [0xFF, 0xD8] then data else segmentReader.run (data.take 2) (data.drop 2)

/-- The mark of an EXIF segment. -/
def exifMark : Bytes := ascii ['E', 'x', 'i', 'f'] ++ [0, 0]

variable (parse : ExifParser)

/-- `_orientation(exif) if exif else 1`. -/
def givenOrientation (exif : Bytes) : Except Fault ℕ :=
  if exif = [] then .ok 1 else orientation parse exif

/-- `_strip_jpeg`. -/
def stripJpeg (data exif : Bytes) : Except Fault Bytes := do
  let body := stripJpegSegments data
  let value ← givenOrientation parse exif
  if value = 1 then return body
  else
    let payload := exifMark ++ orientationExif value
    return body.take 2 ++ [0xFF, 0xE1] ++ toBig 2 (payload.length + 2) ++ payload ++ body.drop 2

/-! ### Well-formed files -/

/-- A marker without a length: a stuffed byte, TEM, a restart, or the start of an image. -/
def isStandalone (marker : UInt8) : Bool :=
  decide (marker = 0 ∨ marker = 1 ∨ 0xD0 ≤ marker ∧ marker ≤ 0xD8)

/-- A marker of a segment with a length, which is no header of a scan. -/
structure IsSegment (marker : UInt8) : Prop where
  length : isStandalone marker = false
  ne_fill : marker ≠ 0xFF
  ne_end : marker ≠ 0xD9
  ne_scan : marker ≠ 0xDA

/-- The marker, the length, and what the segment holds. -/
def segment (marker : UInt8) (payload : Bytes) : Bytes :=
  0xFF :: marker :: (toBig 2 (payload.length + 2) ++ payload)

/-- Compressed data: any byte but one of ones, a stuffed byte of ones, or a restart. -/
inductive Code
  | byte (b : UInt8) (hb : b ≠ 0xFF)
  | stuffed
  | restart (marker : UInt8) (hmarker : isRestart marker = true)

def Code.bytes : Code → Bytes
  | .byte b _ => [b]
  | .stuffed => [0xFF, 0]
  | .restart marker _ => [0xFF, marker]

/-- A segment, or a scan. -/
inductive Piece
  | segment (marker : UInt8) (payload : Bytes) (hmarker : IsSegment marker)
    (hpayload : payload.length + 2 < 256 ^ 2)
  | scan (header : Bytes) (data : List Code) (hheader : header.length + 2 < 256 ^ 2)

def Piece.bytes : Piece → Bytes
  | .segment marker payload _ _ => Attachments.segment marker payload
  | .scan header data _ => Attachments.segment 0xDA header ++ data.flatMap Code.bytes

/-- Not a segment of an application other than APP14, nor a comment. -/
def Piece.isKept : Piece → Bool
  | .segment marker _ _ _ => !isRemovable marker
  | .scan _ _ _ => true

/-- A file: its pieces, each with the number of fill bytes in front of it, those in front of its end,
and what follows. -/
structure Jpeg where
  pieces : List (ℕ × Piece)
  fill : ℕ
  trailer : Bytes

def fillBytes (n : ℕ) : Bytes := List.replicate n 0xFF

def rawPieces (pieces : List (ℕ × Piece)) : Bytes :=
  pieces.flatMap fun piece ↦ fillBytes piece.1 ++ piece.2.bytes

def Jpeg.bytes (file : Jpeg) : Bytes :=
  0xFF :: 0xD8 :: (rawPieces file.pieces ++ (fillBytes file.fill ++ 0xFF :: 0xD9 :: file.trailer))

/-- The pieces that are kept. -/
def Jpeg.kept (file : Jpeg) : List Piece := (file.pieces.map Prod.snd).filter Piece.isKept

/-- The start, the segment of the orientation of a turned picture, some pieces, and the end. -/
def cleanJpeg (value : ℕ) (pieces : List Piece) : Bytes :=
  0xFF :: 0xD8 :: ((if 2 ≤ value ∧ value ≤ 8 then segment 0xE1 (exifMark ++ orientationExif value)
    else []) ++ (pieces.flatMap Piece.bytes ++ [0xFF, 0xD9]))

/-! ### One piece -/

/-- Behind this no image data goes on: nothing, or a marker that ends a scan. -/
def EndsScan : Bytes → Prop
  | [] => True
  | [_] => False
  | b :: marker :: _ => b = 0xFF ∧ marker ≠ 0 ∧ isRestart marker = false

theorem scanEnd_of_endsScan {rest : Bytes} (h : EndsScan rest) : scanEnd rest = 0 := by
  match rest, h with
  | [], _ => rfl
  | b :: marker :: rest, ⟨hb, hzero, hrestart⟩ =>
    have hnot : ¬(marker = 0 ∨ isRestart marker = true) := by
      rintro (h | h)
      · exact hzero h
      · rw [hrestart] at h
        cases h
    rw [scanEnd, if_pos hb, if_neg hnot]

theorem scanEnd_cons_of_ne {b : UInt8} (hb : b ≠ 0xFF) (rest : Bytes) :
    scanEnd (b :: rest) = 1 + scanEnd rest := by
  cases rest with
  | nil => rfl
  | cons marker rest => rw [scanEnd, if_neg hb]

theorem scanEnd_pair {marker : UInt8} (h : marker = 0 ∨ isRestart marker = true) (rest : Bytes) :
    scanEnd (0xFF :: marker :: rest) = 2 + scanEnd rest := by
  rw [scanEnd, if_pos rfl, if_pos h]

/-- A scan goes on over its compressed data, and ends in front of a marker. -/
theorem scanEnd_codes (data : List Code) {rest : Bytes} (h : EndsScan rest) :
    scanEnd (data.flatMap Code.bytes ++ rest) = (data.flatMap Code.bytes).length := by
  induction data with
  | nil => exact scanEnd_of_endsScan h
  | cons code data ih =>
    rw [List.flatMap_cons, List.append_assoc, List.length_append]
    cases code with
    | byte b hb =>
      change scanEnd (b :: (data.flatMap Code.bytes ++ rest)) = _
      rw [scanEnd_cons_of_ne hb, ih]
      rfl
    | stuffed =>
      change scanEnd (0xFF :: 0 :: (data.flatMap Code.bytes ++ rest)) = _
      rw [scanEnd_pair (.inl rfl), ih]
      rfl
    | restart marker hmarker =>
      change scanEnd (0xFF :: marker :: (data.flatMap Code.bytes ++ rest)) = _
      rw [scanEnd_pair (.inr hmarker), ih]
      rfl

theorem step_segment (out : Bytes) {marker : UInt8} (hfill : marker ≠ 0xFF) (hend : marker ≠ 0xD9)
    (rest : Bytes) : segmentReader.step out (0xFF :: marker :: rest) =
      .next (if isRemovable marker then out
        else out ++ 0xFF :: marker :: rest.take (segmentEnd marker rest))
        (rest.drop (segmentEnd marker rest)) := by
  change stripSegmentsStep out (0xFF :: marker :: rest) = _
  rw [stripSegmentsStep, if_neg (by simp), if_neg hfill, if_neg hend]

theorem step_fill (out rest : Bytes) :
    segmentReader.step out (0xFF :: 0xFF :: rest) = .next out (0xFF :: rest) := by
  change stripSegmentsStep out (0xFF :: 0xFF :: rest) = _
  rw [stripSegmentsStep, if_neg (by simp), if_pos rfl]

theorem step_end (out rest : Bytes) :
    segmentReader.step out (0xFF :: 0xD9 :: rest) = .done (out ++ [0xFF, 0xD9]) := by
  change stripSegmentsStep out (0xFF :: 0xD9 :: rest) = _
  rw [stripSegmentsStep, if_neg (by simp), if_neg (by decide), if_pos rfl]

/-- One turn of the loop at a piece. -/
theorem step_piece (piece : Piece) (out : Bytes) {rest : Bytes} (hrest : EndsScan rest) :
    segmentReader.step out (piece.bytes ++ rest) =
      .next (if piece.isKept then out ++ piece.bytes else out) rest := by
  cases piece with
  | segment marker payload hmarker hpayload =>
    have hstop : segmentEnd marker (toBig 2 (payload.length + 2) ++ payload ++ rest) =
        payload.length + 2 := by
      rw [segmentEnd, if_neg hmarker.ne_scan, ofBig_field hpayload]
    change segmentReader.step out (0xFF :: marker :: (toBig 2 (payload.length + 2) ++ payload ++ rest)) = _
    rw [step_segment out hmarker.ne_fill hmarker.ne_end, hstop, List.take_left' (length_field payload),
      List.drop_left' (length_field payload)]
    cases hremovable : isRemovable marker <;> simp [Piece.isKept, hremovable, Piece.bytes, segment]
  | scan header data hheader =>
    have hfield : toBig 2 (header.length + 2) ++ header ++ (data.flatMap Code.bytes ++ rest) =
        toBig 2 (header.length + 2) ++ header ++ data.flatMap Code.bytes ++ rest := by
      simp only [List.append_assoc]
    have hstop : segmentEnd 0xDA (toBig 2 (header.length + 2) ++ header ++
        (data.flatMap Code.bytes ++ rest)) = header.length + 2 + (data.flatMap Code.bytes).length := by
      rw [segmentEnd, if_pos rfl, ofBig_field hheader, List.drop_left' (length_field header),
        scanEnd_codes data hrest]
    have hlength : (toBig 2 (header.length + 2) ++ header ++ data.flatMap Code.bytes).length =
        header.length + 2 + (data.flatMap Code.bytes).length := by
      rw [List.length_append, length_field]
    change segmentReader.step out (0xFF :: 0xDA :: (toBig 2 (header.length + 2) ++ header ++
      data.flatMap Code.bytes ++ rest)) = _
    rw [← hfield, step_segment out (by decide) (by decide), hstop, hfield, List.take_left' hlength,
      List.drop_left' hlength, if_neg (by decide)]
    simp [Piece.isKept, Piece.bytes, segment]

/-! ### The whole file -/

theorem run_fill (n : ℕ) (out rest : Bytes) :
    segmentReader.run out (fillBytes n ++ 0xFF :: rest) = segmentReader.run out (0xFF :: rest) := by
  induction n with
  | zero => rfl
  | succ n ih =>
    have hshift : fillBytes (n + 1) ++ 0xFF :: rest = 0xFF :: (fillBytes n ++ 0xFF :: rest) := rfl
    have hhead : ∃ left, fillBytes n ++ 0xFF :: rest = 0xFF :: left := by
      cases n with
      | zero => exact ⟨rest, rfl⟩
      | succ n => exact ⟨fillBytes n ++ 0xFF :: rest, rfl⟩
    obtain ⟨left, hleft⟩ := hhead
    rw [hshift, hleft, Reader.run_of_next (step_fill out left), ← hleft, ih]

/-- Fill bytes and a marker that is neither stuffed nor a restart end a scan. -/
theorem endsScan_fill (n : ℕ) {marker : UInt8} (hzero : marker ≠ 0) (hrestart : isRestart marker = false)
    (rest : Bytes) : EndsScan (fillBytes n ++ 0xFF :: marker :: rest) := by
  match n with
  | 0 => exact ⟨rfl, hzero, hrestart⟩
  | 1 => exact ⟨rfl, by decide, by decide⟩
  | n + 2 => exact ⟨rfl, by decide, by decide⟩

theorem Piece.exists_marker (piece : Piece) : ∃ marker rest, piece.bytes = 0xFF :: marker :: rest ∧
    marker ≠ 0 ∧ isRestart marker = false := by
  cases piece with
  | segment marker payload hmarker hpayload =>
    have hlength := of_decide_eq_false hmarker.length
    refine ⟨marker, _, rfl, fun hzero ↦ hlength (.inl hzero), decide_eq_false fun hrange ↦ ?_⟩
    exact hlength (.inr (.inr ⟨hrange.1, UInt8.le_trans hrange.2 (by decide)⟩))
  | scan header data hheader => exact ⟨0xDA, _, rfl, by decide, by decide⟩

/-- What follows a piece ends a scan. -/
theorem endsScan_rest (pieces : List (ℕ × Piece)) (n : ℕ) (trailer : Bytes) :
    EndsScan (rawPieces pieces ++ (fillBytes n ++ 0xFF :: 0xD9 :: trailer)) := by
  cases pieces with
  | nil => exact endsScan_fill n (by decide) (by decide) trailer
  | cons piece pieces =>
    obtain ⟨marker, rest, hbytes, hzero, hrestart⟩ := piece.2.exists_marker
    rw [rawPieces, List.flatMap_cons, hbytes, List.append_assoc, List.append_assoc]
    exact endsScan_fill piece.1 hzero hrestart _

/-- The walk over the pieces of a file keeps those that are to be kept, and ends with its end. -/
theorem run_pieces (pieces : List (ℕ × Piece)) (n : ℕ) (trailer : Bytes) : ∀ out : Bytes,
    segmentReader.run out (rawPieces pieces ++ (fillBytes n ++ 0xFF :: 0xD9 :: trailer)) =
      out ++ (((pieces.map Prod.snd).filter Piece.isKept).flatMap Piece.bytes ++ [0xFF, 0xD9]) := by
  induction pieces with
  | nil =>
    intro out
    change segmentReader.run out (fillBytes n ++ 0xFF :: 0xD9 :: trailer) = out ++ [0xFF, 0xD9]
    rw [run_fill, Reader.run_of_done (step_end out trailer)]
  | cons piece pieces ih =>
    intro out
    obtain ⟨marker, rest, hbytes, -, -⟩ := piece.2.exists_marker
    have hfront : rawPieces (piece :: pieces) ++ (fillBytes n ++ 0xFF :: 0xD9 :: trailer) =
        fillBytes piece.1 ++ (piece.2.bytes ++
          (rawPieces pieces ++ (fillBytes n ++ 0xFF :: 0xD9 :: trailer))) := by
      simp only [rawPieces, List.flatMap_cons, List.append_assoc]
    have hskip : segmentReader.run out (fillBytes piece.1 ++ (piece.2.bytes ++
          (rawPieces pieces ++ (fillBytes n ++ 0xFF :: 0xD9 :: trailer)))) =
        segmentReader.run out (piece.2.bytes ++
          (rawPieces pieces ++ (fillBytes n ++ 0xFF :: 0xD9 :: trailer))) := by
      rw [hbytes]
      exact run_fill ..
    rw [hfront, hskip, Reader.run_of_next (step_piece piece.2 out (endsScan_rest pieces n trailer)), ih,
      List.map_cons]
    cases hkept : piece.2.isKept with
    | true => simp [hkept]
    | false => simp [hkept]

/-- A file is cleaned to its start, the pieces that are kept, and its end. -/
theorem stripJpegSegments_bytes (file : Jpeg) : stripJpegSegments file.bytes =
    0xFF :: 0xD8 :: (file.kept.flatMap Piece.bytes ++ [0xFF, 0xD9]) := by
  have hstart : file.bytes.take 2 = [0xFF, 0xD8] := rfl
  have hrest : file.bytes.drop 2 =
      rawPieces file.pieces ++ (fillBytes file.fill ++ 0xFF :: 0xD9 :: file.trailer) := rfl
  rw [stripJpegSegments, if_neg (not_not_intro hstart), hstart, hrest, run_pieces]
  rfl

/-- A well-formed file loses its segments of applications other than APP14, its comments, its fill bytes
and what follows its end, and nothing else; and it gets one segment, right after its start, if and only
if the orientation of the EXIF block that is given is from 2 to 8. -/
theorem jpeg_is_cleaned (file : Jpeg) :
    stripJpegSegments file.bytes =
      0xFF :: 0xD8 :: (file.kept.flatMap Piece.bytes ++ [0xFF, 0xD9]) ∧
    ∀ (parse : ExifParser) (exif : Bytes), stripJpeg parse file.bytes exif =
      (givenOrientation parse exif).map fun value ↦ cleanJpeg value file.kept := by
  refine ⟨stripJpegSegments_bytes file, fun parse exif ↦ ?_⟩
  have hclean := stripJpegSegments_bytes file
  rw [stripJpeg, hclean]
  cases hvalue : givenOrientation parse exif with
  | error fault => rfl
  | ok value =>
    have hcases : value = 1 ∨ 2 ≤ value ∧ value ≤ 8 := by
      unfold givenOrientation at hvalue
      split_ifs at hvalue
      · exact .inl (Except.ok.inj hvalue).symm
      · exact orientation_cases hvalue
    rcases hcases with rfl | hrange
    · rfl
    · have hne : value ≠ 1 := by omega
      change (if value = 1 then _ else _) = Except.ok (cleanJpeg value file.kept)
      rw [if_neg hne, cleanJpeg, if_pos hrange]
      simp [segment]
      rfl

end OpenWhistle.Attachments
