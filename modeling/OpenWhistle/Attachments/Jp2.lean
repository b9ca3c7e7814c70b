import OpenWhistle.Attachments.Orientation
import Mathlib.Data.List.Forall2

/-!
# Cleaning a JPEG 2000

A JPEG 2000 is a row of boxes, one of which holds the codestream, or the codestream alone. A box has a
length of 32 bits, or of 64, or it goes to the end of the file. A codestream has a main header and
tile-parts, and each tile-part has a header of its own in front of its packets.

The boxes of the picture are kept, and the one of the codestream is written anew, without the comments
of its main header. The comments of the tile-parts stay where they are: a file is cleaned as it should
be if and only if it has none of them, which the lengths of what is written tell.
-/

set_option autoImplicit false
set_option relaxedAutoImplicit false

namespace OpenWhistle.Attachments

open Bytes

/-! ### The two walks -/

/-- One turn of the loop over the main header of a codestream, on the bytes from its index on. -/
def stripCodestreamStep : Bytes → Bytes → Step Bytes Bytes
  | out, b :: marker :: rest =>
    if rest.length < 2 ∨ b ≠ 0xFF ∨ marker = 0x90 then .done (out ++ b :: marker :: rest)
    else
      let stop := ofBig (rest.take 2)
      .next (if marker ≠ 0x64 then out ++ b :: marker :: rest.take stop else out) (rest.drop stop)
  | out, rest => .done (out ++ rest)

theorem stripCodestreamStep_shrinks {state later rest left : Bytes}
    (h : stripCodestreamStep state rest = .next later left) : left.length < rest.length := by
  unfold stripCodestreamStep at h
  split at h
  · dsimp only at h
    split_ifs at h <;> cases h <;> simp only [List.length_cons, List.length_drop] <;> omega
  · cases h

def codestreamReader : Reader Bytes Bytes := ⟨stripCodestreamStep, stripCodestreamStep_shrinks⟩

def kindSignature : Bytes := ascii ['j', 'P', ' ', ' ']

def kindCodestream : Bytes := ascii ['j', 'p', '2', 'c']

/-- `_JP2_KEEP`. -/
def jp2Keep : List Bytes :=
  [ascii ['j', 'P', ' ', ' '], ascii ['f', 't', 'y', 'p'], ascii ['r', 'r', 'e', 'q'],
    ascii ['j', 'p', '2', 'h'], ascii ['j', 'p', '2', 'c']]

/-- `int.to_bytes(4, "big")`. -/
def bigWord (n : ℕ) : Except Fault Bytes :=
  if n < 256 ^ 4 then .ok (toBig 4 n) else .error .overflowError

/-- The size of the box in front of some bytes, and that of its header. -/
def boxSize (rest : Bytes) : ℕ × ℕ :=
  let size := ofBig (rest.take 4)
  if size = 1 then (ofBig ((rest.drop 8).take 8), 16) else (size, 8)

/-- One turn of the loop over the boxes, on the bytes from its index on. -/
def stripBoxesStep (strip : Bytes → Except Fault Bytes) :
    Bytes → Bytes → Step Bytes (Except Fault Bytes)
  | out, rest =>
    if rest.length < 8 then .done (.ok out)
    else
      let kind := (rest.drop 4).take 4
      let (size, header) := boxSize rest
      let stop := if size = 0 then rest.length else size
      if rest.length < stop ∨ stop < header then .done (.error (.metadata "truncated JPEG 2000"))
      else if kind = kindCodestream then
        match (do
          let codestream ← strip ((rest.take stop).drop header)
          let word ← bigWord (8 + codestream.length)
          return word ++ kind ++ codestream) with
        | .error fault => .done (.error fault)
        | .ok box => .next (out ++ box) (rest.drop stop)
      else if kind ∈ jp2Keep then .next (out ++ rest.take stop) (rest.drop stop)
      else .next out (rest.drop stop)

theorem stripBoxesStep_shrinks {strip : Bytes → Except Fault Bytes} {state later rest left : Bytes}
    (h : stripBoxesStep strip state rest = .next later left) : left.length < rest.length := by
  unfold stripBoxesStep at h
  have hheader : 8 ≤ (boxSize rest).2 := by
    unfold boxSize
    dsimp only
    split_ifs
    · exact (by decide : 8 ≤ 16)
    · exact Nat.le_refl 8
  have hdrop : ∀ stop, ¬(rest.length < stop ∨ stop < (boxSize rest).2) → ¬rest.length < 8 →
      (rest.drop stop).length < rest.length := by
    intro stop hstop hrest
    rw [List.length_drop]
    omega
  dsimp only at h
  split_ifs at h with hshort hsize hbounds
  all_goals first
    | cases h; exact hdrop _ (by assumption) hshort
    | split at h
      · cases h
      · cases h
        exact hdrop _ (by assumption) hshort

def boxReader (strip : Bytes → Except Fault Bytes) : Reader Bytes (Except Fault Bytes) :=
  ⟨stripBoxesStep strip, stripBoxesStep_shrinks⟩

/-- `_strip_jp2`, which calls itself for the box of a codestream: to some depth. -/
def stripJp2With : ℕ → Bytes → Except Fault Bytes
  | 0, _ => .error .recursionError
  | depth + 1, data =>
    if data.take 2 = [0xFF, 0x4F] then .ok (codestreamReader.run (data.take 2) (data.drop 2))
    else if (data.drop 4).take 4 ≠ kindSignature then .error (.metadata "not a JPEG 2000 file")
    else (boxReader (stripJp2With depth)).run [] data

/-- `_strip_jp2`. Every call is for a shorter part of the file. Python stops at a depth of its own, and
raises at about a thousand boxes of a codestream within each other. -/
def stripJp2 (data : Bytes) : Except Fault Bytes := stripJp2With (data.length + 1) data

/-! ### Codestreams -/

/-- A marker of the headers without a length: reserved ones, SOC, EPH, SOD, EOC. -/
def isDelimiter (marker : UInt8) : Bool :=
  decide (0x30 ≤ marker ∧ marker ≤ 0x3F ∨ marker ∈ [0x4F, 0x92, 0x93, 0xD9])

/-- A marker segment of a header, other than the one a tile-part begins with. -/
structure Parameter where
  marker : UInt8
  payload : Bytes
  length_payload : payload.length + 2 < 256 ^ 2
  ne_tile : marker ≠ 0x90
  not_delimiter : isDelimiter marker = false

def Parameter.bytes (parameter : Parameter) : Bytes :=
  0xFF :: parameter.marker :: (toBig 2 (parameter.payload.length + 2) ++ parameter.payload)

/-- COM. -/
def Parameter.isComment (parameter : Parameter) : Bool := decide (parameter.marker = 0x64)

def rawParameters (parameters : List Parameter) : Bytes := parameters.flatMap Parameter.bytes

/-- A header without its comments. -/
def uncommented (parameters : List Parameter) : List Parameter :=
  parameters.filter fun parameter ↦ !parameter.isComment

/-- A tile-part: the number of its tile, that of the part and how many there are, and its header and
packets. The length of the last one may be left open. -/
structure TilePart where
  tile : Bytes
  index : Bytes
  isOpen : Bool
  header : List Parameter
  packets : Bytes
  length_tile : tile.length = 2
  length_index : index.length = 2
  length_lt : 14 + (rawParameters header).length + packets.length < 256 ^ 4

def TilePart.bytes (part : TilePart) : Bytes :=
  [0xFF, 0x90, 0x00, 0x0A] ++ part.tile ++
    toBig 4 (if part.isOpen then 0 else 14 + (rawParameters part.header).length + part.packets.length) ++
      part.index ++ (rawParameters part.header ++ (0xFF :: 0x93 :: part.packets))

def rawTiles (tiles : List TilePart) : Bytes := tiles.flatMap TilePart.bytes

/-- A codestream: its main header and its tile-parts. -/
structure Codestream where
  main : List Parameter
  tiles : List TilePart

def Codestream.bytes (stream : Codestream) : Bytes :=
  0xFF :: 0x4F :: (rawParameters stream.main ++ (rawTiles stream.tiles ++ [0xFF, 0xD9]))

/-- The same tile-part, without the comments of its header. -/
structure TilePart.Cleaned (part clean : TilePart) : Prop where
  tile : clean.tile = part.tile
  index : clean.index = part.index
  isOpen : clean.isOpen = part.isOpen
  header : clean.header = uncommented part.header
  packets : clean.packets = part.packets

/-- The same codestream, without the comments of any of its headers. -/
structure Codestream.Cleaned (stream clean : Codestream) : Prop where
  main : clean.main = uncommented stream.main
  tiles : List.Forall₂ TilePart.Cleaned stream.tiles clean.tiles

/-- No header of a tile-part holds a comment. -/
def Codestream.Plain (stream : Codestream) : Prop :=
  ∀ part ∈ stream.tiles, ∀ parameter ∈ part.header, parameter.isComment = false

/-- What the code writes: the main header without its comments. -/
def Codestream.written (stream : Codestream) : Codestream := ⟨uncommented stream.main, stream.tiles⟩

/-- One turn of the loop at a marker segment of the main header. -/
theorem step_parameter (parameter : Parameter) (out rest : Bytes) :
    codestreamReader.step out (parameter.bytes ++ rest) =
      .next (if parameter.isComment then out else out ++ parameter.bytes) rest := by
  have hlong : ¬((toBig 2 (parameter.payload.length + 2) ++ parameter.payload ++ rest).length < 2 ∨
      (0xFF : UInt8) ≠ 0xFF ∨ parameter.marker = 0x90) := by
    rw [List.length_append, length_field]
    rintro (h | h | h)
    · omega
    · exact h rfl
    · exact parameter.ne_tile h
  change stripCodestreamStep out (0xFF :: parameter.marker ::
    (toBig 2 (parameter.payload.length + 2) ++ parameter.payload ++ rest)) = _
  rw [stripCodestreamStep, if_neg hlong, ofBig_field parameter.length_payload]
  dsimp only
  rw [List.take_left' (length_field _), List.drop_left' (length_field _)]
  by_cases hcomment : parameter.marker = 0x64
  · simp [Parameter.isComment, hcomment]
  · simp [Parameter.isComment, hcomment, Parameter.bytes]

theorem uncommented_cons (parameter : Parameter) (parameters : List Parameter) :
    uncommented (parameter :: parameters) =
      if parameter.isComment then uncommented parameters else parameter :: uncommented parameters := by
  rw [uncommented, List.filter_cons]
  cases parameter.isComment <;> rfl

theorem rawParameters_cons (parameter : Parameter) (parameters : List Parameter) :
    rawParameters (parameter :: parameters) = parameter.bytes ++ rawParameters parameters := rfl

/-- The main header loses its comments, and what follows it stays. -/
theorem run_main (main : List Parameter) {rest : Bytes}
    (hrest : ∀ out, codestreamReader.step out rest = .done (out ++ rest)) : ∀ out,
      codestreamReader.run out (rawParameters main ++ rest) =
        out ++ (rawParameters (uncommented main) ++ rest) := by
  induction main with
  | nil => exact fun out ↦ Reader.run_of_done (hrest out)
  | cons parameter main ih =>
    intro out
    rw [rawParameters_cons, List.append_assoc, Reader.run_of_next (step_parameter parameter out _), ih,
      uncommented_cons]
    cases parameter.isComment <;> simp [rawParameters_cons]

/-- The walk over the main header ends at the first tile-part, or at the end. -/
theorem step_tiles (tiles : List TilePart) (out : Bytes) :
    codestreamReader.step out (rawTiles tiles ++ [0xFF, 0xD9]) =
      .done (out ++ (rawTiles tiles ++ [0xFF, 0xD9])) := by
  cases tiles with
  | nil => rfl
  | cons part tiles =>
    obtain ⟨left, hleft⟩ : ∃ left, rawTiles (part :: tiles) ++ [0xFF, 0xD9] = 0xFF :: 0x90 :: left :=
      ⟨_, rfl⟩
    rw [hleft]
    exact if_pos (.inr (.inr rfl))

theorem stripJp2With_codestream (depth : ℕ) (stream : Codestream) :
    stripJp2With (depth + 1) stream.bytes = .ok stream.written.bytes := by
  have hstart : stream.bytes.take 2 = [0xFF, 0x4F] := rfl
  have hrest : stream.bytes.drop 2 =
      rawParameters stream.main ++ (rawTiles stream.tiles ++ [0xFF, 0xD9]) := rfl
  rw [stripJp2With, if_pos hstart, hstart, hrest, run_main _ (step_tiles stream.tiles)]
  rfl

/-! ### Lengths of codestreams -/

/-- A header without its comments is shorter, if it has any. -/
theorem length_uncommented (parameters : List Parameter) :
    (rawParameters (uncommented parameters)).length ≤ (rawParameters parameters).length ∧
      ((rawParameters (uncommented parameters)).length = (rawParameters parameters).length →
        ∀ parameter ∈ parameters, parameter.isComment = false) := by
  induction parameters with
  | nil => exact ⟨Nat.le_refl _, fun _ ↦ nofun⟩
  | cons parameter parameters ih =>
    have hpositive : 0 < parameter.bytes.length := Nat.succ_pos _
    rw [rawParameters_cons, uncommented_cons, List.length_append]
    cases hcomment : parameter.isComment with
    | true =>
      rw [if_pos rfl]
      exact ⟨by omega, fun heq ↦ by omega⟩
    | false =>
      rw [if_neg (by decide), rawParameters_cons, List.length_append]
      refine ⟨by omega, fun heq ↦ List.forall_mem_cons.mpr ⟨hcomment, ih.2 (by omega)⟩⟩

theorem length_tilePart (part : TilePart) :
    part.bytes.length = 14 + (rawParameters part.header).length + part.packets.length := by
  simp only [TilePart.bytes, List.length_append, List.length_cons, List.length_nil, part.length_tile,
    part.length_index, length_toBig]
  omega

theorem length_tiles {tiles clean : List TilePart} (h : List.Forall₂ TilePart.Cleaned tiles clean) :
    (rawTiles clean).length ≤ (rawTiles tiles).length ∧
      ((rawTiles clean).length = (rawTiles tiles).length →
        ∀ part ∈ tiles, ∀ parameter ∈ part.header, parameter.isComment = false) := by
  induction h with
  | nil => exact ⟨Nat.le_refl _, fun _ ↦ nofun⟩
  | @cons part cleanPart tiles clean hpart _ ih =>
    have hheader := length_uncommented part.header
    rw [rawTiles, rawTiles, List.flatMap_cons, List.flatMap_cons, List.length_append,
      List.length_append, ← rawTiles, ← rawTiles, length_tilePart, length_tilePart, hpart.header,
      hpart.packets]
    refine ⟨by omega, fun heq ↦ List.forall_mem_cons.mpr ⟨hheader.2 (by omega), ih.2 (by omega)⟩⟩

theorem length_codestream (stream : Codestream) : stream.bytes.length =
    4 + (rawParameters stream.main).length + (rawTiles stream.tiles).length := by
  simp only [Codestream.bytes, List.length_append, List.length_cons, List.length_nil]
  omega

/-- A codestream without any comment is no longer than what is written, and as long only if that has
none either. -/
theorem length_cleaned {stream clean : Codestream} (h : stream.Cleaned clean) :
    clean.bytes.length ≤ stream.written.bytes.length ∧
      (clean.bytes.length = stream.written.bytes.length → stream.Plain) := by
  have htiles := length_tiles h.tiles
  rw [length_codestream, length_codestream, h.main, Codestream.written]
  dsimp only
  exact ⟨by omega, fun heq ↦ htiles.2 (by omega)⟩

theorem uncommented_of_plain {parameters : List Parameter}
    (h : ∀ parameter ∈ parameters, parameter.isComment = false) :
    uncommented parameters = parameters :=
  List.filter_eq_self.mpr fun parameter hparameter ↦ by rw [h parameter hparameter]; rfl

theorem cleaned_written {stream : Codestream} (h : stream.Plain) : stream.Cleaned stream.written := by
  refine ⟨rfl, ?_⟩
  change List.Forall₂ TilePart.Cleaned stream.tiles stream.tiles
  exact List.forall₂_same.mpr fun part hpart ↦
    ⟨rfl, rfl, rfl, (uncommented_of_plain (h part hpart)).symm, rfl⟩

/-! ### Boxes -/

inductive Form
  /-- A length of 32 bits. -/
  | short
  /-- A length of 64 bits. -/
  | long
  /-- To the end of the file. -/
  | toEnd
  deriving DecidableEq

inductive Content
  | raw (body : Bytes)
  | codestream (stream : Codestream)

def Content.bytes : Content → Bytes
  | .raw body => body
  | .codestream stream => stream.bytes

/-- The type of a box goes with what it holds. -/
def Content.Fits (kind : Bytes) : Content → Prop
  | .raw _ => kind ≠ kindCodestream
  | .codestream _ => kind = kindCodestream

def Form.Holds : Form → ℕ → Prop
  | .short, length => 8 + length < 256 ^ 4
  | .long, length => 16 + length < 256 ^ 8
  | .toEnd, _ => True

structure Box where
  kind : Bytes
  form : Form
  content : Content
  length_kind : kind.length = 4
  length_content : form.Holds content.bytes.length
  fits : content.Fits kind

def Box.head (box : Box) : Bytes :=
  match box.form with
  | .short => toBig 4 (8 + box.content.bytes.length) ++ box.kind
  | .long => toBig 4 1 ++ box.kind ++ toBig 8 (16 + box.content.bytes.length)
  | .toEnd => toBig 4 0 ++ box.kind

def Box.bytes (box : Box) : Bytes := box.head ++ box.content.bytes

def Box.isKept (box : Box) : Bool := decide (box.kind ∈ jp2Keep)

def rawBoxes (boxes : List Box) : Bytes := boxes.flatMap Box.bytes

/-- A box that goes to the end of the file is the last one. -/
def EndsWell : List Box → Prop
  | [] => True
  | box :: boxes => (box.form = .toEnd → boxes = []) ∧ EndsWell boxes

/-- The box every file begins with. -/
def signatureBox : Box where
  kind := kindSignature
  form := .short
  content := .raw [0x0D, 0x0A, 0x87, 0x0A]
  length_kind := rfl
  length_content := (by decide : 8 + 4 < 256 ^ 4)
  fits := (by decide : kindSignature ≠ kindCodestream)

/-- A file of boxes, behind its signature. -/
structure Jp2 where
  boxes : List Box
  ends : EndsWell boxes

def Jp2.bytes (file : Jp2) : Bytes := signatureBox.bytes ++ rawBoxes file.boxes

/-- A box that is kept as it is, or a box of 32 bits for the codestream without its comments. -/
inductive Box.Cleaned : Box → Box → Prop
  | raw {box : Box} (body : Bytes) (hcontent : box.content = .raw body) : Cleaned box box
  | codestream {box clean : Box} (stream cleanStream : Codestream)
    (hcontent : box.content = .codestream stream) (hclean : clean.content = .codestream cleanStream)
    (hform : clean.form = .short) (hstream : stream.Cleaned cleanStream) : Cleaned box clean

/-- The boxes that are to be kept. -/
def Jp2.kept (file : Jp2) : List Box := file.boxes.filter Box.isKept

/-- The box of a codestream, with a length of 32 bits. -/
def codestreamBox (stream : Codestream) (h : 8 + stream.bytes.length < 256 ^ 4) : Box where
  kind := kindCodestream
  form := .short
  content := .codestream stream
  length_kind := by rfl
  length_content := h
  fits := rfl

/-- What is written of a box: `none` where the length of a codestream does not fit its 32 bits. -/
def Box.written (box : Box) : Option Box :=
  match box.content with
  | .raw _ => some box
  | .codestream stream =>
    if h : 8 + stream.written.bytes.length < 256 ^ 4 then
      some (codestreamBox stream.written h)
    else none

/-- The box holds no comment in the header of a tile-part. -/
def Box.Plain (box : Box) : Prop := ∀ stream, box.content = .codestream stream → stream.Plain

/-! ### One box -/

theorem head_spec (box : Box) {rest : Bytes} (hend : box.form = .toEnd → rest = []) :
    8 ≤ box.head.length ∧ ((box.bytes ++ rest).drop 4).take 4 = box.kind ∧
      (boxSize (box.bytes ++ rest)).2 = box.head.length ∧
      (if (boxSize (box.bytes ++ rest)).1 = 0 then (box.bytes ++ rest).length
        else (boxSize (box.bytes ++ rest)).1) = box.bytes.length := by
  have hholds := box.length_content
  have hkind := box.length_kind
  unfold Box.bytes Box.head boxSize
  cases hform : box.form with
  | short =>
    rw [hform] at hholds
    have hsize : 8 + box.content.bytes.length < 256 ^ 4 := hholds
    have hfield : ofBig ((toBig 4 (8 + box.content.bytes.length) ++ box.kind ++ box.content.bytes ++
        rest).take 4) = 8 + box.content.bytes.length := by
      rw [List.append_assoc, List.append_assoc, List.take_left' (length_toBig ..), ofBig_toBig hsize]
    dsimp only
    rw [hfield, if_neg (by omega)]
    dsimp only
    rw [if_neg (by omega)]
    refine ⟨?_, ?_, ?_, ?_⟩
    · simp [hkind]
    · rw [List.append_assoc, List.append_assoc, List.drop_left' (length_toBig ..),
        List.take_left' hkind]
    · simp [hkind]
    · simp [hkind]
      omega
  | long =>
    rw [hform] at hholds
    have hsize : 16 + box.content.bytes.length < 256 ^ 8 := hholds
    have hfield : ofBig ((toBig 4 1 ++ box.kind ++ toBig 8 (16 + box.content.bytes.length) ++
        box.content.bytes ++ rest).take 4) = 1 := by
      simp only [List.append_assoc]
      rw [List.take_left' (length_toBig ..), ofBig_toBig (by decide)]
    have hlong : ofBig (((toBig 4 1 ++ box.kind ++ toBig 8 (16 + box.content.bytes.length) ++
        box.content.bytes ++ rest).drop 8).take 8) = 16 + box.content.bytes.length := by
      have height : (toBig 4 1 ++ box.kind).length = 8 := by simp [hkind]
      rw [List.append_assoc, List.append_assoc, List.drop_left' height,
        List.take_left' (length_toBig ..), ofBig_toBig hsize]
    dsimp only
    rw [hfield, if_pos rfl, hlong]
    dsimp only
    rw [if_neg (by omega)]
    refine ⟨?_, ?_, ?_, ?_⟩
    · simp [hkind]
    · simp only [List.append_assoc]
      rw [List.drop_left' (length_toBig ..), List.take_left' hkind]
    · simp [hkind]
    · simp [hkind]
      omega
  | toEnd =>
    have hrest := hend hform
    have hfield : ofBig ((toBig 4 0 ++ box.kind ++ box.content.bytes ++ rest).take 4) = 0 := by
      rw [List.append_assoc, List.append_assoc, List.take_left' (length_toBig ..),
        ofBig_toBig (by decide)]
    dsimp only
    rw [hfield, if_neg (by decide)]
    dsimp only
    rw [if_pos rfl, hrest, List.append_nil]
    refine ⟨?_, ?_, ?_, rfl⟩
    · simp [hkind]
    · rw [List.append_assoc, List.drop_left' (length_toBig ..), List.take_left' hkind]
    · simp [hkind]

/-- What the walk over the boxes writes of a box. -/
def writeBox (strip : Bytes → Except Fault Bytes) (box : Box) : Except Fault Bytes :=
  if box.kind = kindCodestream then do
    let codestream ← strip box.content.bytes
    let word ← bigWord (8 + codestream.length)
    return word ++ box.kind ++ codestream
  else if box.kind ∈ jp2Keep then .ok box.bytes
  else .ok []

/-- One turn of the loop at a box. -/
theorem step_box (strip : Bytes → Except Fault Bytes) (box : Box) (out : Bytes) {rest : Bytes}
    (hend : box.form = .toEnd → rest = []) :
    (boxReader strip).step out (box.bytes ++ rest) =
      match writeBox strip box with
      | .error fault => .done (.error fault)
      | .ok written => .next (out ++ written) rest := by
  obtain ⟨height, hkind, hheader, hstop⟩ := head_spec box hend
  have hlength : box.bytes.length = box.head.length + box.content.bytes.length := by
    rw [Box.bytes, List.length_append]
  have hlong : ¬(box.bytes ++ rest).length < 8 := by
    rw [List.length_append]
    omega
  have hbounds : ¬((box.bytes ++ rest).length < box.bytes.length ∨ box.bytes.length < box.head.length) := by
    rw [List.length_append]
    omega
  have hcontent : ((box.bytes ++ rest).take box.bytes.length).drop box.head.length =
      box.content.bytes := by
    rw [List.take_left' rfl, Box.bytes, List.drop_left' rfl]
  change stripBoxesStep strip out (box.bytes ++ rest) = _
  unfold stripBoxesStep
  dsimp only
  rw [if_neg hlong, hkind, hheader, hstop, if_neg hbounds, hcontent, List.take_left' rfl,
    List.drop_left' rfl, writeBox]
  split_ifs
  · rfl
  · rfl
  · dsimp only
    rw [List.append_nil]

/-! ### The whole file -/

/-- A kept box is written, or the length of its codestream does not fit; the others go. -/
theorem writeBox_eq (depth : ℕ) (box : Box) : writeBox (stripJp2With (depth + 1)) box =
    if box.isKept then
      match box.written with
      | none => .error .overflowError
      | some clean => .ok clean.bytes
    else .ok [] := by
  have hfits := box.fits
  unfold writeBox Box.isKept Box.written
  cases hcontent : box.content with
  | raw body =>
    rw [hcontent] at hfits
    rw [if_neg (hfits : box.kind ≠ kindCodestream)]
    by_cases hkept : box.kind ∈ jp2Keep
    · rw [if_pos hkept, if_pos (decide_eq_true hkept)]
    · rw [if_neg hkept, decide_eq_false hkept, if_neg (by decide)]
  | codestream stream =>
    rw [hcontent] at hfits
    have hkind : box.kind = kindCodestream := hfits
    have hkept : decide (box.kind ∈ jp2Keep) = true := by
      rw [hkind]
      decide
    rw [if_pos hkind, if_pos hkept, Content.bytes, stripJp2With_codestream, hkind]
    change (do
      let word ← bigWord (8 + stream.written.bytes.length)
      return word ++ kindCodestream ++ stream.written.bytes) = _
    unfold bigWord
    dsimp only
    by_cases hsize : 8 + stream.written.bytes.length < 256 ^ 4
    · rw [if_pos hsize, dif_pos hsize]
      rfl
    · rw [if_neg hsize, dif_neg hsize]
      rfl

theorem rawBoxes_cons (box : Box) (boxes : List Box) :
    rawBoxes (box :: boxes) = box.bytes ++ rawBoxes boxes := rfl

/-- The walk over the boxes of a file writes those that are kept. -/
theorem run_boxes (depth : ℕ) {boxes : List Box} (hends : EndsWell boxes) : ∀ out,
    (boxReader (stripJp2With (depth + 1))).run out (rawBoxes boxes) =
      match (boxes.filter Box.isKept).mapM Box.written with
      | none => .error .overflowError
      | some written => .ok (out ++ rawBoxes written) := by
  induction boxes with
  | nil =>
    intro out
    have hdone : (boxReader (stripJp2With (depth + 1))).step out [] = .done (.ok out) := rfl
    change (boxReader (stripJp2With (depth + 1))).run out [] = Except.ok (out ++ [])
    rw [Reader.run_of_done hdone, List.append_nil]
  | cons box boxes ih =>
    intro out
    have hstep := step_box (stripJp2With (depth + 1)) box out
      fun hend ↦ (congrArg rawBoxes (hends.1 hend)).trans rfl
    rw [writeBox_eq] at hstep
    rw [rawBoxes_cons]
    cases hkept : box.isKept with
    | false =>
      rw [hkept, if_neg (by decide)] at hstep
      dsimp only at hstep
      rw [Reader.run_of_next hstep, ih hends.2, List.filter_cons_of_neg (by simp [hkept]),
        List.append_nil]
    | true =>
      rw [hkept, if_pos rfl] at hstep
      rw [List.filter_cons_of_pos hkept, List.mapM_cons]
      cases hwritten : box.written with
      | none =>
        rw [hwritten] at hstep
        rw [Reader.run_of_done hstep]
        rfl
      | some clean =>
        rw [hwritten] at hstep
        rw [Reader.run_of_next hstep, ih hends.2]
        cases (boxes.filter Box.isKept).mapM Box.written with
        | none => rfl
        | some others =>
          change Except.ok (out ++ clean.bytes ++ rawBoxes others) =
            Except.ok (out ++ rawBoxes (clean :: others))
          rw [rawBoxes_cons, List.append_assoc]

/-- A file is cleaned to its signature and what is written of the boxes that are kept. -/
theorem stripJp2_bytes (file : Jp2) : stripJp2 file.bytes =
    match file.kept.mapM Box.written with
    | none => .error .overflowError
    | some written => .ok (signatureBox.bytes ++ rawBoxes written) := by
  have hdepth : file.bytes.length + 1 = file.bytes.length - 1 + 1 + 1 := by
    have hpositive : 0 < file.bytes.length := Nat.succ_pos _
    omega
  have hstart : ¬file.bytes.take 2 = [0xFF, 0x4F] := by
    have hzero : file.bytes.take 2 = [0x00, 0x00] := rfl
    rw [hzero]
    decide
  have hsignature : (file.bytes.drop 4).take 4 = kindSignature := rfl
  have hends : EndsWell (signatureBox :: file.boxes) := ⟨nofun, file.ends⟩
  have hrun := run_boxes (file.bytes.length - 1) hends []
  rw [List.filter_cons_of_pos (by decide), List.mapM_cons] at hrun
  rw [stripJp2, hdepth, stripJp2With, if_neg hstart, if_neg (not_not_intro hsignature)]
  refine hrun.trans ?_
  change (match (do
    let others ← file.kept.mapM Box.written
    return signatureBox :: others) with
    | none => Except.error Fault.overflowError
    | some written => Except.ok ([] ++ rawBoxes written)) = _
  cases file.kept.mapM Box.written with
  | none => rfl
  | some written => rfl

theorem stripJp2_codestream (stream : Codestream) :
    stripJp2 stream.bytes = .ok stream.written.bytes :=
  stripJp2With_codestream ..

/-! ### Comments of tile-parts -/

theorem mapM_eq_none {α β : Type} {f : α → Option β} {items : List α} (h : items.mapM f = none) :
    ∃ item ∈ items, f item = none := by
  induction items with
  | nil => cases h
  | cons item items ih =>
    cases hitem : f item with
    | none => exact ⟨item, List.mem_cons_self, hitem⟩
    | some value =>
      rw [List.mapM_cons, hitem] at h
      cases hrest : items.mapM f with
      | none =>
        obtain ⟨other, hother, hnone⟩ := ih hrest
        exact ⟨other, List.mem_cons_of_mem _ hother, hnone⟩
      | some values =>
        rw [hrest] at h
        cases h

/-- What is mapped, item by item. -/
theorem forall₂_of_mapM {α β : Type} {f : α → Option β} {items : List α} :
    ∀ {values : List β}, items.mapM f = some values →
      List.Forall₂ (fun item value ↦ f item = some value) items values := by
  induction items with
  | nil =>
    intro values h
    cases h
    exact .nil
  | cons item items ih =>
    intro values h
    rw [List.mapM_cons] at h
    cases hitem : f item with
    | none =>
      rw [hitem] at h
      cases h
    | some value =>
      cases hrest : items.mapM f with
      | none =>
        rw [hitem, hrest] at h
        cases h
      | some others =>
        rw [hitem, hrest] at h
        cases h
        exact .cons hitem (ih hrest)

theorem exists_of_forall₂ {α β : Type} {R : α → β → Prop} {items : List α} {values : List β}
    (h : List.Forall₂ R items values) {item : α} (hitem : item ∈ items) :
    ∃ value, value ∈ values ∧ R item value := by
  induction h with
  | nil => cases hitem
  | @cons first value items values hfirst _ ih =>
    rcases List.mem_cons.mp hitem with rfl | hrest
    · exact ⟨value, List.mem_cons_self, hfirst⟩
    · obtain ⟨other, hother, hrelated⟩ := ih hrest
      exact ⟨other, List.mem_cons_of_mem _ hother, hrelated⟩

theorem length_short {box : Box} (h : box.form = .short) :
    box.bytes.length = 8 + box.content.bytes.length := by
  rw [Box.bytes, Box.head, h]
  simp [box.length_kind]
  omega

/-- A box without any comment is no longer than the one that is written, and as long only if that has
none either. -/
theorem length_box {box clean written : Box} (hclean : box.Cleaned clean)
    (hwritten : box.written = some written) : clean.bytes.length ≤ written.bytes.length ∧
      (clean.bytes.length = written.bytes.length → box.Plain) := by
  unfold Box.written at hwritten
  cases hclean with
  | raw body hcontent =>
    rw [hcontent] at hwritten
    cases hwritten
    refine ⟨Nat.le_refl _, fun _ stream hstream ↦ ?_⟩
    rw [hcontent] at hstream
    cases hstream
  | codestream stream cleanStream hcontent hcleanContent hform hstream =>
    rw [hcontent] at hwritten
    dsimp only at hwritten
    split_ifs at hwritten with hsize
    have heq := Option.some.inj hwritten
    have hlength := length_cleaned hstream
    rw [length_short hform, hcleanContent, ← heq, length_short rfl]
    change 8 + cleanStream.bytes.length ≤ 8 + stream.written.bytes.length ∧
      (8 + cleanStream.bytes.length = 8 + stream.written.bytes.length → _)
    refine ⟨by omega, fun hsame other hother ↦ ?_⟩
    rw [hcontent] at hother
    cases hother
    exact hlength.2 (by omega)

theorem length_boxes {boxes clean : List Box} (hclean : List.Forall₂ Box.Cleaned boxes clean) :
    ∀ {written : List Box},
      List.Forall₂ (fun box written ↦ Box.written box = some written) boxes written →
        (rawBoxes clean).length ≤ (rawBoxes written).length ∧
          ((rawBoxes clean).length = (rawBoxes written).length → ∀ box ∈ boxes, box.Plain) := by
  induction hclean with
  | nil =>
    intro written hwritten
    cases hwritten
    exact ⟨Nat.le_refl _, fun _ ↦ nofun⟩
  | @cons box cleanBox boxes clean hbox _ ih =>
    intro written hwritten
    cases hwritten with
    | @cons _ writtenBox _ written hfirst hrest =>
      have hone := length_box hbox hfirst
      have hothers := ih hrest
      rw [rawBoxes_cons, rawBoxes_cons, List.length_append, List.length_append]
      exact ⟨by omega, fun heq ↦ List.forall_mem_cons.mpr ⟨hone.2 (by omega), hothers.2 (by omega)⟩⟩

theorem EndsWell.filter {boxes : List Box} (p : Box → Bool) (h : EndsWell boxes) :
    EndsWell (boxes.filter p) := by
  induction boxes with
  | nil => trivial
  | cons box boxes ih =>
    rw [List.filter_cons]
    split_ifs
    · exact ⟨fun hend ↦ by rw [h.1 hend]; rfl, ih h.2⟩
    · exact ih h.2

theorem form_written {box written : Box} (h : box.written = some written)
    (hend : written.form = .toEnd) : box.form = .toEnd := by
  unfold Box.written at h
  split at h
  · rw [Option.some.inj h]
    exact hend
  · split_ifs at h
    cases h
    cases hend

/-- What is written for plain boxes is a file of the boxes without any comment. -/
theorem exists_clean {boxes written : List Box}
    (h : List.Forall₂ (fun box written ↦ Box.written box = some written) boxes written)
    (hends : EndsWell boxes) (hplain : ∀ box ∈ boxes, box.Plain) :
    EndsWell written ∧ List.Forall₂ Box.Cleaned boxes written := by
  induction h with
  | nil => exact ⟨trivial, .nil⟩
  | @cons box writtenBox boxes written hbox hrest ih =>
    obtain ⟨hfirst, hothers⟩ := List.forall_mem_cons.mp hplain
    obtain ⟨hwell, hclean⟩ := ih hends.2 hothers
    refine ⟨⟨fun hend ↦ ?_, hwell⟩, .cons ?_ hclean⟩
    · have hnone := hends.1 (form_written hbox hend)
      subst hnone
      cases hrest
      rfl
    · have hcase := hbox
      unfold Box.written at hcase
      cases hcontent : box.content with
      | raw body =>
        rw [hcontent] at hcase
        cases hcase
        exact .raw body hcontent
      | codestream stream =>
        rw [hcontent] at hcase
        dsimp only at hcase
        split_ifs at hcase with hsize
        cases hcase
        exact .codestream stream stream.written hcontent rfl rfl
          (cleaned_written (hfirst stream hcontent))

/-- A codestream loses all of its comments if and only if no tile-part has one. -/
theorem codestream_is_cleaned_iff (stream : Codestream) :
    (∃ clean : Codestream, stripJp2 stream.bytes = .ok clean.bytes ∧ stream.Cleaned clean) ↔
      stream.Plain := by
  constructor
  · rintro ⟨clean, hstrip, hclean⟩
    rw [stripJp2_codestream] at hstrip
    exact (length_cleaned hclean).2 (congrArg List.length (Except.ok.inj hstrip).symm)
  · exact fun hplain ↦ ⟨stream.written, stripJp2_codestream stream, cleaned_written hplain⟩

/-- A file of boxes is refused, or cleaned to the boxes that are kept with the codestreams without any
comment, if and only if the length of a codestream does not fit the 32 bits of its box, or no tile-part
has a comment. -/
theorem file_is_cleaned_iff (file : Jp2) :
    (∀ out, stripJp2 file.bytes = .ok out →
      ∃ clean : Jp2, clean.bytes = out ∧ List.Forall₂ Box.Cleaned file.kept clean.boxes) ↔
    (∃ box ∈ file.kept, box.written = none) ∨ ∀ box ∈ file.kept, box.Plain := by
  have hstrip := stripJp2_bytes file
  cases hwritten : file.kept.mapM Box.written with
  | none =>
    rw [hwritten] at hstrip
    refine iff_of_true (fun out hout ↦ ?_) (.inl (mapM_eq_none hwritten))
    rw [hstrip] at hout
    cases hout
  | some written =>
    rw [hwritten] at hstrip
    have hpairs := forall₂_of_mapM hwritten
    constructor
    · intro hclean
      obtain ⟨clean, hbytes, hboxes⟩ := hclean _ hstrip
      have hraw : rawBoxes clean.boxes = rawBoxes written := List.append_cancel_left hbytes
      exact .inr ((length_boxes hboxes hpairs).2 (congrArg List.length hraw))
    · rintro (⟨box, hbox, hnone⟩ | hplain) out hout
      · obtain ⟨clean, -, hsome⟩ := exists_of_forall₂ hpairs hbox
        rw [hnone] at hsome
        cases hsome
      · rw [hstrip] at hout
        obtain ⟨hends, hclean⟩ := exists_clean hpairs (file.ends.filter Box.isKept) hplain
        exact ⟨⟨written, hends⟩, Except.ok.inj hout, hclean⟩

/-- A codestream, and a file of boxes. -/
theorem jpeg2000_is_cleaned_iff (stream : Codestream) (file : Jp2) :
    ((∃ clean : Codestream, stripJp2 stream.bytes = .ok clean.bytes ∧ stream.Cleaned clean) ↔
        stream.Plain) ∧
      ((∀ out, stripJp2 file.bytes = .ok out →
          ∃ clean : Jp2, clean.bytes = out ∧ List.Forall₂ Box.Cleaned file.kept clean.boxes) ↔
        (∃ box ∈ file.kept, box.written = none) ∨ ∀ box ∈ file.kept, box.Plain) :=
  ⟨codestream_is_cleaned_iff stream, file_is_cleaned_iff file⟩

/-- Eight by eight points of one colour. -/
def oneTile : List Parameter :=
  [⟨0x51, [0x00, 0x00, 0x00, 0x00, 0x00, 0x08, 0x00, 0x00, 0x00, 0x08, 0x00, 0x00, 0x00, 0x00, 0x00,
      0x00, 0x00, 0x00, 0x00, 0x00, 0x00, 0x08, 0x00, 0x00, 0x00, 0x08, 0x00, 0x00, 0x00, 0x00, 0x00,
      0x00, 0x00, 0x00, 0x00, 0x01, 0x07, 0x01, 0x01], by decide, by decide, by decide⟩,
    ⟨0x52, [0x00, 0x00, 0x00, 0x01, 0x00, 0x00, 0x04, 0x04, 0x00, 0x01], by decide, by decide,
      by decide⟩,
    ⟨0x5C, [0x40, 0x40], by decide, by decide, by decide⟩]

def authorComment : Parameter :=
  ⟨0x64, [0x00, 0x01] ++ ascii ['E', 'r', 'i', 'k', 'a'], by decide, by decide, by decide⟩

def annotatedPart : TilePart :=
  ⟨[0x00, 0x00], [0x00, 0x01], false, [authorComment], [0x00], rfl, rfl, by decide⟩

def annotated : Codestream := ⟨oneTile, [annotatedPart]⟩

/-- A comment in the header of a tile-part stays. -/
theorem annotated_keeps_its_comment : ¬∃ clean : Codestream,
    stripJp2 annotated.bytes = .ok clean.bytes ∧ annotated.Cleaned clean := by
  rintro ⟨clean, hstrip, hclean⟩
  rw [stripJp2_codestream] at hstrip
  have hplain := (length_cleaned hclean).2 (congrArg List.length (Except.ok.inj hstrip).symm)
  have hnone := hplain annotatedPart List.mem_cons_self authorComment List.mem_cons_self
  exact absurd hnone (by decide)

end OpenWhistle.Attachments
