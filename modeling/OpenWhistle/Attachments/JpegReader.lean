import OpenWhistle.Attachments.Jpeg

/-!
# What a reader finds in a cleaned JPEG

A decoder reads markers: it skips what stands in front of one, knows which markers have no length, and
in a scan goes on over stuffed bytes and restarts, with fill bytes in front of them or without. The
walk of the cleaner differs from it in one place: it takes a length behind every marker, and after fill
bytes also behind a stuffed byte or a restart. What it copies for such a length may hold a segment that
the decoder finds.

Where the walk meets no such marker, the two agree on every piece, also on one that is cut off, and the
walk over what it has written writes it again. There is one more thing that keeps it from doing so: a
length of one, half of which is written.
-/

set_option autoImplicit false
set_option relaxedAutoImplicit false

namespace OpenWhistle.Attachments

open Bytes

/-! ### The reader -/

/-- One turn of a marker reader, in a scan or outside: whether it finds no removable segment and nothing
behind the end of the image. -/
def readMarker : Bool → Bytes → Step Bool Bool
  | inScan, b :: marker :: rest =>
    if b ≠ 0xFF then .next inScan (marker :: rest)
    else if marker = 0xFF then .next inScan (marker :: rest)
    else if inScan = true ∧ (marker = 0 ∨ isRestart marker) then .next true rest
    else if marker = 0xD9 then .done rest.isEmpty
    else if isStandalone marker then .next false rest
    else if isRemovable marker then .done false
    else .next (decide (marker = 0xDA)) (rest.drop (max 2 (ofBig (rest.take 2))))
  | _, _ => .done true

theorem readMarker_shrinks {state later : Bool} {rest left : Bytes}
    (h : readMarker state rest = .next later left) : left.length < rest.length := by
  unfold readMarker at h
  split at h
  · split_ifs at h <;> cases h <;> simp only [List.length_cons, List.length_drop] <;> omega
  · cases h

def markerReader : Reader Bool Bool := ⟨readMarker, readMarker_shrinks⟩

/-- A marker reader finds no removable segment, and nothing behind the end. It takes no bytes in
front of the SOI, so that it finds nothing in what does not begin with one. -/
def isClean (data : Bytes) : Bool :=
  if data.take 2 ≠ [0xFF, 0xD8] then true else markerReader.run false (data.drop 2)

/-- Every marker that is met where a segment begins has a length, and no segment that is kept says that
its length is one. -/
inductive Regular : Bytes → Prop
  | stop {rest : Bytes} (hstop : ∀ marker left, rest ≠ 0xFF :: marker :: left) : Regular rest
  | fill {rest : Bytes} (hrest : Regular (0xFF :: rest)) : Regular (0xFF :: 0xFF :: rest)
  | finish (rest : Bytes) : Regular (0xFF :: 0xD9 :: rest)
  | piece {marker : UInt8} {rest : Bytes} (hfill : marker ≠ 0xFF) (hend : marker ≠ 0xD9)
    (hlength : isStandalone marker = false)
    (hone : isRemovable marker = false → marker ≠ 0xDA → rest.take 2 ≠ [0, 1])
    (hrest : Regular (rest.drop (segmentEnd marker rest))) : Regular (0xFF :: marker :: rest)

/-! ### What is written -/

/-- Nothing, or a marker that is not standalone and no fill byte. -/
def StartsPiece (tail : Bytes) : Prop :=
  tail = [] ∨ ∃ marker left, tail = 0xFF :: marker :: left ∧ marker ≠ 0xFF ∧
    isStandalone marker = false

theorem not_stuffed {marker : UInt8} (h : isStandalone marker = false) :
    ¬(marker = 0 ∨ isRestart marker = true) := by
  have hnot := of_decide_eq_false h
  rintro (hzero | hrestart)
  · exact hnot (.inl hzero)
  · have hrange := of_decide_eq_true hrestart
    exact hnot (.inr (.inr ⟨hrange.1, UInt8.le_trans hrange.2 (by decide)⟩))

theorem StartsPiece.endsScan {tail : Bytes} (h : StartsPiece tail) : EndsScan tail := by
  rcases h with rfl | ⟨marker, left, rfl, -, hlength⟩
  · trivial
  · have hnot := not_or.mp (not_stuffed hlength)
    exact ⟨rfl, hnot.1, Bool.eq_false_iff.mpr hnot.2⟩

/-- What the walk writes of the rest of a file, and what walk and reader make of it. -/
structure Walked (rest tail : Bytes) : Prop where
  run : ∀ out, segmentReader.run out rest = out ++ tail
  again : ∀ out, segmentReader.run out tail = out ++ tail
  starts : StartsPiece tail
  clean : markerReader.run false tail = true

theorem run_stop {rest : Bytes} (h : ∀ marker left, rest ≠ 0xFF :: marker :: left) (out : Bytes) :
    segmentReader.run out rest = out := by
  refine Reader.run_of_done ?_
  change stripSegmentsStep out rest = _
  unfold stripSegmentsStep
  split
  · rename_i b marker left
    rw [if_pos]
    rintro rfl
    exact h marker left rfl
  · rfl

theorem Walked.eq_nil {rest tail : Bytes} (h : Walked rest tail)
    (hstop : ∀ marker left, rest ≠ 0xFF :: marker :: left) : tail = [] := by
  have hrun := h.run []
  rw [run_stop hstop] at hrun
  exact hrun.symm

/-! ### The reader in a scan -/

theorem read_nil (inScan : Bool) : markerReader.run inScan [] = true := Reader.run_of_done rfl

theorem read_singleton (inScan : Bool) (b : UInt8) : markerReader.run inScan [b] = true :=
  Reader.run_of_done rfl

theorem read_cons_of_ne {b : UInt8} (hb : b ≠ 0xFF) (inScan : Bool) (rest : Bytes) :
    markerReader.run inScan (b :: rest) = markerReader.run inScan rest := by
  cases rest with
  | nil => rw [read_singleton, read_nil]
  | cons marker rest => exact Reader.run_of_next (if_pos hb)

theorem read_pair {marker : UInt8} (h : marker = 0 ∨ isRestart marker = true) (rest : Bytes) :
    markerReader.run true (0xFF :: marker :: rest) = markerReader.run true rest := by
  have hfill : marker ≠ 0xFF := by
    rintro rfl
    exact absurd h (by decide)
  refine Reader.run_of_next ?_
  change readMarker true (0xFF :: marker :: rest) = _
  rw [readMarker, if_neg (by simp), if_neg hfill, if_pos ⟨rfl, h⟩]

/-- In front of a piece it does not matter whether a scan has gone before. -/
theorem read_starts {tail : Bytes} (h : StartsPiece tail) :
    markerReader.run true tail = markerReader.run false tail := by
  rcases h with rfl | ⟨marker, left, rfl, hfill, hlength⟩
  · rw [read_nil, read_nil]
  · have hstep : markerReader.step true (0xFF :: marker :: left) =
        markerReader.step false (0xFF :: marker :: left) := by
      change readMarker true (0xFF :: marker :: left) = readMarker false (0xFF :: marker :: left)
      simp only [readMarker, ne_eq, not_true_eq_false, if_false, hfill, not_stuffed hlength, and_false,
        Bool.false_eq_true]
    rw [Reader.run, Reader.run, Reader.runWith, Reader.runWith, hstep]

/-- The image data of a scan in front of a piece ends there, for the walk and for the reader. -/
theorem scan_data (data : Bytes) {tail : Bytes} (htail : StartsPiece tail)
    (hnil : data.drop (scanEnd data) = [] → tail = []) :
    scanEnd data ≤ data.length ∧
      scanEnd (data.take (scanEnd data) ++ tail) = scanEnd data ∧
      markerReader.run true (data.take (scanEnd data) ++ tail) = markerReader.run false tail := by
  induction data using scanEnd.induct with
  | case1 =>
    have htail : tail = [] := hnil rfl
    subst htail
    exact ⟨Nat.zero_le _, rfl, by rw [read_nil]; exact read_nil true⟩
  | case2 b =>
    have htail : tail = [] := hnil rfl
    subst htail
    exact ⟨Nat.le_refl _, rfl, by rw [read_nil]; exact read_singleton true b⟩
  | case3 marker rest hstuffed ih =>
    have hend := scanEnd_pair hstuffed rest
    have htake : (0xFF :: marker :: rest).take (2 + scanEnd rest) =
        0xFF :: marker :: rest.take (scanEnd rest) := by
      rw [Nat.add_comm]
      rfl
    have hdrop : (0xFF :: marker :: rest).drop (2 + scanEnd rest) = rest.drop (scanEnd rest) := by
      rw [Nat.add_comm]
      rfl
    rw [hend, hdrop] at hnil
    obtain ⟨hlength, hscan, hread⟩ := ih hnil
    rw [hend, htake, List.cons_append, List.cons_append, scanEnd_pair hstuffed, hscan,
      read_pair hstuffed, hread]
    refine ⟨?_, rfl, rfl⟩
    simp only [List.length_cons]
    omega
  | case4 marker rest hnot =>
    have hend : scanEnd (0xFF :: marker :: rest) = 0 := by rw [scanEnd, if_pos rfl, if_neg hnot]
    rw [hend, List.take_zero, List.nil_append, scanEnd_of_endsScan htail.endsScan]
    exact ⟨Nat.zero_le _, rfl, read_starts htail⟩
  | case5 b marker rest hb ih =>
    have hend := scanEnd_cons_of_ne hb (marker :: rest)
    have htake : (b :: marker :: rest).take (1 + scanEnd (marker :: rest)) =
        b :: (marker :: rest).take (scanEnd (marker :: rest)) := by
      rw [Nat.add_comm]
      rfl
    have hdrop : (b :: marker :: rest).drop (1 + scanEnd (marker :: rest)) =
        (marker :: rest).drop (scanEnd (marker :: rest)) := by
      rw [Nat.add_comm]
      rfl
    rw [hend, hdrop] at hnil
    obtain ⟨hlength, hscan, hread⟩ := ih hnil
    rw [hend, htake, List.cons_append, scanEnd_cons_of_ne hb, hscan, read_cons_of_ne hb, hread]
    refine ⟨?_, rfl, rfl⟩
    rw [List.length_cons]
    omega

/-! ### A piece that is kept -/

/-- A front of some length, and behind it what is there only if the front is not cut off. -/
theorem take_drop_front (body : Bytes) {n : ℕ} {tail : Bytes} (h : body.length < n → tail = []) :
    (body.take n ++ tail).take n = body.take n ∧ (body.take n ++ tail).drop n = tail := by
  by_cases hn : n ≤ body.length
  · have hlength : (body.take n).length = n := by
      rw [List.length_take]
      omega
    exact ⟨List.take_left' hlength, List.drop_left' hlength⟩
  · have hlength : (body.take n).length ≤ n := List.length_take_le ..
    rw [h (by omega), List.append_nil]
    exact ⟨List.take_of_length_le hlength, List.drop_of_length_le hlength⟩

/-- A piece is read in again, in front of what is written behind it. -/
structure ReadAgain (marker : UInt8) (rest tail : Bytes) : Prop where
  take : (rest.take (segmentEnd marker rest) ++ tail).take
    (segmentEnd marker (rest.take (segmentEnd marker rest) ++ tail)) =
      rest.take (segmentEnd marker rest)
  drop : (rest.take (segmentEnd marker rest) ++ tail).drop
    (segmentEnd marker (rest.take (segmentEnd marker rest) ++ tail)) = tail
  read : markerReader.run (decide (marker = 0xDA)) ((rest.take (segmentEnd marker rest) ++ tail).drop
    (max 2 (ofBig ((rest.take (segmentEnd marker rest) ++ tail).take 2)))) =
      markerReader.run false tail

/-- Where a piece is cut off before its length is there, it ends the file. -/
theorem readAgain_of_nil {marker : UInt8} {rest : Bytes} (h : rest.take (segmentEnd marker rest) = []) :
    ReadAgain marker rest [] := by
  refine ⟨?_, ?_, ?_⟩ <;> rw [h]
  · exact List.take_nil
  · exact List.drop_nil
  · rw [List.append_nil, List.drop_nil, read_nil, read_nil]

theorem readAgain_singleton (marker x : UInt8) : ReadAgain marker [x] [] := by
  by_cases hstop : segmentEnd marker [x] = 0
  · exact readAgain_of_nil (by rw [hstop]; rfl)
  · have htake : [x].take (segmentEnd marker [x]) = [x] :=
      List.take_of_length_le (by rw [List.length_singleton]; omega)
    refine ⟨?_, ?_, ?_⟩ <;> rw [htake, List.append_nil]
    · exact htake
    · exact List.drop_of_length_le (by rw [List.length_singleton]; omega)
    · rw [List.drop_of_length_le (by rw [List.length_singleton]; omega), read_nil, read_nil]

/-- The two bytes of a length. -/
def lengthOf (x y : UInt8) : ℕ := ofBig [x, y]

theorem take_field (x y : UInt8) (body : Bytes) : ofBig ((x :: y :: body).take 2) = lengthOf x y := rfl

theorem take_two_add (x y : UInt8) (body : Bytes) (n : ℕ) :
    (x :: y :: body).take (2 + n) = x :: y :: body.take n := by
  rw [Nat.add_comm]
  rfl

theorem drop_two_add (x y : UInt8) (body : Bytes) (n : ℕ) :
    (x :: y :: body).drop (2 + n) = body.drop n := by
  rw [Nat.add_comm]
  rfl

theorem lengthOf_eq (x y : UInt8) : lengthOf x y = 256 * x.toNat + y.toNat := by
  simp only [lengthOf, ofBig, List.reverse_cons, List.reverse_nil, List.nil_append, List.cons_append,
    ofLittle]
  omega

theorem eq_of_lengthOf {x y : UInt8} {n : ℕ} (hn : n < 256) (h : lengthOf x y = n) :
    x = 0 ∧ y.toNat = n := by
  rw [lengthOf_eq] at h
  have hy := y.toNat_lt
  exact ⟨UInt8.toNat_inj.mp (by change x.toNat = 0; omega), by omega⟩

/-- A scan ends its header's length and its image data behind the marker, also where the length is less
than the two bytes it takes. -/
theorem segmentEnd_scan (x y : UInt8) (body : Bytes) : segmentEnd 0xDA (x :: y :: body) =
    2 + ((lengthOf x y - 2) + scanEnd (body.drop (lengthOf x y - 2))) := by
  rw [segmentEnd, if_pos rfl, take_field]
  rcases hlength : lengthOf x y with - | - | n
  · obtain ⟨rfl, hy⟩ := eq_of_lengthOf (by decide) hlength
    have hyzero : y = 0 := UInt8.toNat_inj.mp hy
    rw [hyzero, List.drop_zero, scanEnd_cons_of_ne (by decide), scanEnd_cons_of_ne (by decide),
      Nat.zero_sub, List.drop_zero]
    omega
  · obtain ⟨rfl, hy⟩ := eq_of_lengthOf (by decide) hlength
    have hne : y ≠ 0xFF := by
      rintro rfl
      cases hy
    change 1 + scanEnd (y :: body) = 2 + (0 + scanEnd body)
    rw [scanEnd_cons_of_ne hne]
    omega
  · change n + 2 + scanEnd (body.drop n) = 2 + (n + scanEnd (body.drop n))
    omega

theorem readAgain_scan (x y : UInt8) (body : Bytes) {tail : Bytes} (htail : StartsPiece tail)
    (hnil : (x :: y :: body).drop (segmentEnd 0xDA (x :: y :: body)) = [] → tail = []) :
    ReadAgain 0xDA (x :: y :: body) tail := by
  have hend := segmentEnd_scan x y body
  rw [hend, drop_two_add, ← List.drop_drop] at hnil
  obtain ⟨hlength, hscan, hread⟩ := scan_data (body.drop (lengthOf x y - 2)) htail hnil
  have hfront : body.length < lengthOf x y - 2 →
      (body.drop (lengthOf x y - 2)).take (scanEnd (body.drop (lengthOf x y - 2))) ++ tail = [] := by
    intro hshort
    have hempty : body.drop (lengthOf x y - 2) = [] := List.drop_of_length_le (by omega)
    rw [hempty] at hnil ⊢
    rw [hnil rfl]
    rfl
  obtain ⟨htake, hdrop⟩ := take_drop_front body hfront
  have hdata : ((body.drop (lengthOf x y - 2)).take
      (scanEnd (body.drop (lengthOf x y - 2)))).length =
        scanEnd (body.drop (lengthOf x y - 2)) := by
    rw [List.length_take]
    omega
  have hpiece : (x :: y :: body).take (segmentEnd 0xDA (x :: y :: body)) ++ tail =
      x :: y :: (body.take (lengthOf x y - 2) ++ ((body.drop (lengthOf x y - 2)).take
        (scanEnd (body.drop (lengthOf x y - 2))) ++ tail)) := by
    rw [hend, take_two_add, List.take_add, List.cons_append, List.cons_append, List.append_assoc]
  have hagain := segmentEnd_scan x y (body.take (lengthOf x y - 2) ++
    ((body.drop (lengthOf x y - 2)).take (scanEnd (body.drop (lengthOf x y - 2))) ++ tail))
  rw [hdrop, hscan] at hagain
  refine ⟨?_, ?_, ?_⟩
  · rw [hpiece, hagain, take_two_add, List.take_add, htake, hdrop, List.take_left' hdata, hend,
      take_two_add, List.take_add]
  · rw [hpiece, hagain, drop_two_add, ← List.drop_drop, hdrop, List.drop_left' hdata]
  · have hmax : max 2 (lengthOf x y) = 2 + (lengthOf x y - 2) := by omega
    rw [hpiece, take_field, hmax, drop_two_add, hdrop]
    exact hread

theorem readAgain_segment {marker : UInt8} (hscan : marker ≠ 0xDA) (x y : UInt8) (body : Bytes)
    {tail : Bytes} (htwo : 2 ≤ lengthOf x y)
    (hnil : (x :: y :: body).drop (segmentEnd marker (x :: y :: body)) = [] → tail = []) :
    ReadAgain marker (x :: y :: body) tail := by
  have hlength : ∀ left : Bytes, segmentEnd marker (x :: y :: left) = 2 + (lengthOf x y - 2) := by
    intro left
    rw [segmentEnd, if_neg hscan, take_field]
    omega
  rw [hlength, drop_two_add] at hnil
  obtain ⟨htake, hdrop⟩ := take_drop_front body
    fun hshort ↦ hnil (List.drop_of_length_le (Nat.le_of_lt hshort))
  have hpiece : (x :: y :: body).take (segmentEnd marker (x :: y :: body)) ++ tail =
      x :: y :: (body.take (lengthOf x y - 2) ++ tail) := by
    rw [hlength, take_two_add, List.cons_append, List.cons_append]
  refine ⟨?_, ?_, ?_⟩
  · rw [hpiece, hlength, hlength, take_two_add, take_two_add, htake]
  · rw [hpiece, hlength, drop_two_add, hdrop]
  · have hmax : max 2 (lengthOf x y) = 2 + (lengthOf x y - 2) := by omega
    rw [hpiece, take_field, hmax, drop_two_add, hdrop, decide_eq_false hscan]

/-- Every kept piece is read in again, unless its length is one. -/
theorem readAgain {marker : UInt8} {rest tail : Bytes} (hone : marker ≠ 0xDA → rest.take 2 ≠ [0, 1])
    (hwalked : Walked (rest.drop (segmentEnd marker rest)) tail) : ReadAgain marker rest tail := by
  have hnil : rest.drop (segmentEnd marker rest) = [] → tail = [] := fun hdrop ↦
    hwalked.eq_nil (by rw [hdrop]; exact nofun)
  match rest with
  | [] =>
    rw [hnil List.drop_nil]
    exact readAgain_of_nil List.take_nil
  | [x] =>
    have htail : tail = [] := by
      refine hwalked.eq_nil fun b left hleft ↦ ?_
      have hshort := congrArg List.length hleft
      simp only [List.length_drop, List.length_cons, List.length_nil] at hshort
      omega
    rw [htail]
    exact readAgain_singleton marker x
  | x :: y :: body =>
    by_cases hscan : marker = 0xDA
    · subst hscan
      exact readAgain_scan x y body hwalked.starts hnil
    · by_cases htwo : 2 ≤ lengthOf x y
      · exact readAgain_segment hscan x y body htwo hnil
      · have hzero : lengthOf x y = 0 := by
          by_contra hne
          obtain ⟨rfl, hy⟩ := eq_of_lengthOf (by decide : 1 < 256) (by omega : lengthOf x y = 1)
          have hyone : y = 1 := UInt8.toNat_inj.mp hy
          exact hone hscan (by rw [hyone]; rfl)
        have hend : segmentEnd marker (x :: y :: body) = 0 := by
          rw [segmentEnd, if_neg hscan, take_field, hzero]
        have htail : tail = [] := by
          rw [hend, List.drop_zero] at hwalked
          refine hwalked.eq_nil fun b left hleft ↦ ?_
          have hx := (eq_of_lengthOf (by decide) hzero).1
          rw [List.cons.injEq, hx] at hleft
          exact absurd hleft.1 (by decide)
        rw [htail]
        exact readAgain_of_nil (by rw [hend]; rfl)

/-! ### Every file -/

theorem read_segment {marker : UInt8} (hfill : marker ≠ 0xFF) (hend : marker ≠ 0xD9)
    (hlength : isStandalone marker = false) (hkept : isRemovable marker = false) (rest : Bytes) :
    markerReader.run false (0xFF :: marker :: rest) =
      markerReader.run (decide (marker = 0xDA)) (rest.drop (max 2 (ofBig (rest.take 2)))) := by
  refine Reader.run_of_next ?_
  change readMarker false (0xFF :: marker :: rest) = _
  simp only [readMarker, ne_eq, not_true_eq_false, if_false, hfill, hend, hlength, hkept,
    Bool.false_eq_true, false_and]

/-- A regular file is walked as a reader reads it. -/
theorem exists_walked {rest : Bytes} (h : Regular rest) : ∃ tail, Walked rest tail := by
  induction h with
  | stop hstop =>
    refine ⟨[], fun out ↦ ?_, fun out ↦ ?_, .inl rfl, read_nil false⟩
    · rw [run_stop hstop, List.append_nil]
    · rw [run_stop (fun _ _ ↦ (List.cons_ne_nil _ _).symm), List.append_nil]
  | @fill rest hrest ih =>
    obtain ⟨tail, hwalked⟩ := ih
    refine ⟨tail, fun out ↦ ?_, hwalked.again, hwalked.starts, hwalked.clean⟩
    rw [Reader.run_of_next (step_fill out rest), hwalked.run]
  | finish rest =>
    refine ⟨[0xFF, 0xD9], fun out ↦ Reader.run_of_done (step_end out rest),
      fun out ↦ Reader.run_of_done (step_end out []), ?_, by decide⟩
    exact .inr ⟨0xD9, [], rfl, by decide, by decide⟩
  | @piece marker rest hfill hend hlength hone hrest ih =>
    obtain ⟨tail, hwalked⟩ := ih
    cases hkept : isRemovable marker with
    | true =>
      refine ⟨tail, fun out ↦ ?_, hwalked.again, hwalked.starts, hwalked.clean⟩
      rw [Reader.run_of_next (step_segment out hfill hend rest), if_pos hkept, hwalked.run]
    | false =>
      have hagain := readAgain (hone hkept) hwalked
      have hnot : ¬isRemovable marker = true := by simp [hkept]
      refine ⟨0xFF :: marker :: (rest.take (segmentEnd marker rest) ++ tail), fun out ↦ ?_,
        fun out ↦ ?_, .inr ⟨marker, _, rfl, hfill, hlength⟩, ?_⟩
      · rw [Reader.run_of_next (step_segment out hfill hend rest), if_neg hnot, hwalked.run,
          List.append_assoc]
        rfl
      · rw [Reader.run_of_next (step_segment out hfill hend _), if_neg hnot, hagain.take, hagain.drop,
          hwalked.again, List.append_assoc]
        rfl
      · rw [read_segment hfill hend hlength hkept, hagain.read, hwalked.clean]

/-- In what is left of a file whose markers are regular a reader finds no removable segment and nothing
behind the end, and cleaning it again changes nothing. -/
theorem jpeg_is_clean_of_regular {data : Bytes}
    (hdata : data.take 2 = [0xFF, 0xD8] → Regular (data.drop 2)) :
    isClean (stripJpegSegments data) = true ∧
      stripJpegSegments (stripJpegSegments data) = stripJpegSegments data := by
  by_cases hstart : data.take 2 = [0xFF, 0xD8]
  · obtain ⟨tail, hwalked⟩ := exists_walked (hdata hstart)
    have hstrip : stripJpegSegments data = 0xFF :: 0xD8 :: tail := by
      rw [stripJpegSegments, if_neg (not_not_intro hstart), hwalked.run, hstart]
      rfl
    have htake : (0xFF :: 0xD8 :: tail).take 2 = [0xFF, 0xD8] := rfl
    have hdrop : (0xFF :: 0xD8 :: tail).drop 2 = tail := rfl
    rw [hstrip]
    constructor
    · rw [isClean, if_neg (not_not_intro htake), hdrop, hwalked.clean]
    · rw [stripJpegSegments, if_neg (not_not_intro htake), htake, hdrop, hwalked.again]
      rfl
  · have hstrip : stripJpegSegments data = data := if_pos hstart
    rw [hstrip]
    exact ⟨if_pos hstart, hstrip⟩

/-- A file with an EXIF segment, a table and a scan that is cut off. -/
def cutOff : Bytes :=
  [0xFF, 0xD8, 0xFF, 0xFF, 0xE1, 0x00, 0x04, 0x41, 0x42, 0xFF, 0xDB, 0x00, 0x03, 0x01, 0xFF, 0xDA,
    0x00, 0x02, 0x10, 0xFF, 0x00, 0xFF]

theorem cutOff_is_clean : isClean (stripJpegSegments cutOff) = true ∧
    stripJpegSegments (stripJpegSegments cutOff) = stripJpegSegments cutOff := by
  refine jpeg_is_clean_of_regular fun _ ↦ .fill (.piece (by decide) (by decide) (by decide) nofun ?_)
  refine .piece (by decide) (by decide) (by decide) (fun _ _ ↦ by decide) ?_
  exact .piece (by decide) (by decide) (by decide) (fun _ hscan ↦ absurd rfl hscan) (.stop nofun)

/-- Behind a second start of the image the walk takes the marker of an EXIF segment for a length, and
copies the segment. -/
theorem second_start_hides_a_segment :
    ¬(isClean (stripJpegSegments [0xFF, 0xD8, 0xFF, 0xD8, 0xFF, 0xE1, 0x00, 0x04, 0x41, 0x42, 0xFF,
      0xD9]) = true ∧
      stripJpegSegments (stripJpegSegments [0xFF, 0xD8, 0xFF, 0xD8, 0xFF, 0xE1, 0x00, 0x04, 0x41, 0x42,
        0xFF, 0xD9]) = stripJpegSegments [0xFF, 0xD8, 0xFF, 0xD8, 0xFF, 0xE1, 0x00, 0x04, 0x41, 0x42,
        0xFF, 0xD9]) := by
  decide

end OpenWhistle.Attachments
