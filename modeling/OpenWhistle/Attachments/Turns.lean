import Mathlib.Data.List.TakeWhile
import Mathlib.Order.Basic
import OpenWhistle.Attachments.Jp2
import OpenWhistle.Attachments.Jpeg
import OpenWhistle.Attachments.Png
import OpenWhistle.Attachments.Webp
import OpenWhistle.Foundation.Loop

/-!
# The cleaners end

The loops of the cleaners go over a file by an index, and the next index comes from lengths that the
file gives itself. Each of them moves the index on, whatever the lengths say: by one for a byte of
ones in front of a marker, by a marker and its length, by the header of a chunk or a box. So what is
left of the file falls from turn to turn, and the body of a loop is entered no more often than the
file has bytes. The one exception is the loop over the chunks of a PNG, which is entered before
anything is looked at: for an empty file once, where it raises.

The readers of the cleaners take the rest of the file where the loops take an index. A loop follows
its reader turn by turn, so it ends with the reader's result. The cleaning of a JPEG 2000 calls
itself for a part of the file behind the header of a box, which is shorter than the file.
-/

set_option autoImplicit false
set_option relaxedAutoImplicit false

namespace Bytes

open Loop

/-- `data[start:stop]`, for indices that are not negative. -/
def slice (data : Bytes) (start stop : ℕ) : Bytes := (data.take stop).drop start

theorem slice_eq (data : Bytes) (start stop : ℕ) :
    data.slice start stop = (data.drop start).take (stop - start) :=
  List.drop_take ..

/-- A part of what is left from an index on. -/
theorem slice_add (data : Bytes) (i start stop : ℕ) :
    data.slice (i + start) (i + stop) = ((data.drop i).take stop).drop start := by
  rw [slice, List.drop_take, List.drop_take, List.drop_drop, Nat.add_sub_add_left]

theorem slice_self_add (data : Bytes) (i stop : ℕ) :
    data.slice i (i + stop) = (data.drop i).take stop := by
  rw [slice_eq, Nat.add_sub_cancel_left]

theorem drop_add (data : Bytes) (i stop : ℕ) : (data.drop i).drop stop = data.drop (i + stop) :=
  List.drop_drop ..

theorem drop_min_length (data : Bytes) (i : ℕ) : data.drop (min i data.length) = data.drop i := by
  rcases Nat.le_total i data.length with hle | hle
  · rw [Nat.min_eq_left hle]
  · rw [Nat.min_eq_right hle, List.drop_length, List.drop_eq_nil_of_le hle]

theorem slice_min_length (data : Bytes) (i stop : ℕ) :
    data.slice i (min stop data.length) = data.slice i stop := by
  rw [slice, slice, ← List.take_eq_take_min]

/-- The two bytes at an index, and what follows. -/
theorem drop_eq_pair {data : Bytes} {i : ℕ} (h : i + 1 < data.length) :
    data.drop i = data[i] :: data[i + 1] :: data.drop (i + 2) := by
  rw [List.drop_eq_getElem_cons (Nat.lt_of_succ_lt h), List.drop_eq_getElem_cons h]

/-- `data.find(b, start)`, for one byte. -/
def find (data : Bytes) (b : UInt8) (start : ℕ) : Option ℕ :=
  let found := start + ((data.drop start).takeWhile fun other ↦ other ≠ b).length
  if found < data.length then some found else none

/-- The search finds the first one, or there is none. -/
theorem find_cases (data : Bytes) (b : UInt8) (start : ℕ) :
    (data.find b start = none ∧ ∀ other ∈ data.drop start, other ≠ b) ∨
    ∃ before rest, data.drop start = before ++ b :: rest ∧ (∀ other ∈ before, other ≠ b) ∧
      data.find b start = some (start + before.length) := by
  have hsplit := (List.takeWhile_append_dropWhile (p := fun other ↦ decide (other ≠ b))
    (l := data.drop start)).symm
  have hbefore : ∀ other ∈ (data.drop start).takeWhile (fun other ↦ other ≠ b), other ≠ b := by
    intro other hother
    have hne := List.mem_takeWhile_imp hother
    exact of_decide_eq_true hne
  unfold find
  dsimp only
  cases hrest : (data.drop start).dropWhile fun other ↦ other ≠ b with
  | nil =>
    rw [hrest, List.append_nil] at hsplit
    have hlength := congrArg List.length hsplit
    rw [List.length_drop] at hlength
    refine .inl ⟨if_neg (by omega), fun other hother ↦ ?_⟩
    rw [hsplit] at hother
    exact hbefore other hother
  | cons c rest =>
    have hc : c = b := by
      have hhead := List.head?_dropWhile_not (fun other ↦ decide (other ≠ b)) (data.drop start)
      rw [hrest] at hhead
      simpa using hhead
    rw [hrest, hc] at hsplit
    have hlength := congrArg List.length hsplit
    rw [List.length_drop, List.length_append, List.length_cons] at hlength
    exact .inr ⟨_, rest, hsplit, hbefore, if_pos (by omega)⟩

/-! ### Loops over a file -/

section Follows

variable {σ ρ : Type}

/-- A turn at an index, as the piece of a reader. -/
def Turn.toStep (data : Bytes) : Turn (ℕ × σ) ρ → Step σ ρ
  | .leave result => .done result
  | .finish result => .done result
  | .again (i, state) => .next state (data.drop i)

/-- A loop over the indices of a file takes the turns of a reader of what is left of it. -/
def Follows (reader : Reader σ ρ) (data : Bytes) (turn : ℕ × σ → Turn (ℕ × σ) ρ) : Prop :=
  ∀ i state, reader.step state (data.drop i) = Turn.toStep data (turn (i, state))

variable [Inhabited ρ] {reader : Reader σ ρ} {data : Bytes} {turn : ℕ × σ → Turn (ℕ × σ) ρ}

/-- The loop ends with the result of its reader. Its body is entered once a byte at most where it is
entered with something left only, and once more otherwise. -/
theorem Follows.exists_ends (h : Follows reader data turn) (more : ℕ)
    (hfinish : ∀ i state result, turn (i, state) = .finish result → 0 < data.length - i + more)
    (i : ℕ) (state : σ) : ∃ n ≤ data.length - i + more,
      Ends turn n (i, state) (reader.run state (data.drop i)) := by
  refine Loop.exists_ends turn (fun current ↦ data.length - current.1 + more)
    (fun current ↦ reader.run current.2 (data.drop current.1)) (fun ⟨i, state⟩ result hleave ↦ ?_)
    (fun ⟨i, state⟩ result hturn ↦ ?_) (fun ⟨i, state⟩ ⟨j, next⟩ hagain ↦ ?_) (i, state)
  · have hstep := h i state
    rw [hleave] at hstep
    exact Reader.run_of_done hstep
  · have hstep := h i state
    rw [hturn] at hstep
    exact ⟨hfinish i state result hturn, Reader.run_of_done hstep⟩
  · have hstep := h i state
    rw [hagain] at hstep
    have hless := reader.shrinks hstep
    rw [List.length_drop, List.length_drop] at hless
    exact ⟨Nat.add_lt_add_right hless more, Reader.run_of_next hstep⟩

end Follows

end Bytes

namespace OpenWhistle.Attachments

open Bytes Loop

variable (parse : ExifParser)

/-! ### PNG -/

/-- One turn of the loop of `_strip_png`. -/
def pngTurn (data : Bytes) : ℕ × PngState → Turn (ℕ × PngState) (Except Fault Bytes)
  | (i, (out, value)) =>
    let length := ofBig (data.slice i (i + 4))
    let kind := data.slice (i + 4) (i + 8)
    let stop := i + 12 + length
    if data.length < stop then .finish (.error (.metadata "truncated PNG"))
    else if kind = typeExif then
      match orientation parse (data.slice (i + 8) (stop - 4)) with
      | .error fault => .finish (.error fault)
      | .ok value => .again (stop, (out, value))
    else if kind = typeEnd then
      .finish (.ok ((if value = 1 then out else out ++ writeExif value) ++ data.slice i stop))
    else if kind ∈ pngKeep then .again (stop, (out ++ data.slice i stop, value))
    else .again (stop, (out, value))

theorem pngTurn_follows (data : Bytes) : Follows (pngReader parse) data (pngTurn parse data) := by
  rintro i ⟨out, value⟩
  change stripPngStep parse (out, value) (data.drop i) = _
  unfold stripPngStep pngTurn
  dsimp only
  have hkind : ((data.drop i).drop 4).take 4 = data.slice (i + 4) (i + 8) := by
    rw [slice_add, List.drop_take]
  rw [← slice_self_add, hkind, List.length_drop]
  generalize ofBig (data.slice i (i + 4)) = length
  generalize data.slice (i + 4) (i + 8) = kind
  have hstop : i + 12 + length = i + (12 + length) := Nat.add_assoc ..
  have hlast : i + (12 + length) - 4 = i + (12 + length - 4) := by omega
  rw [hstop, hlast, slice_add, slice_self_add, drop_add]
  have hshort : data.length < i + (12 + length) ↔ data.length - i < 12 + length := by omega
  simp only [hshort]
  split_ifs
  · rfl
  · cases orientation parse (((data.drop i).take (12 + length - 4)).drop 8) <;> rfl
  all_goals rfl

/-- The loop over the chunks: it is entered for an empty file, and raises. -/
theorem png_ends (data : Bytes) : ∃ n ≤ max 1 data.length,
    Ends (pngTurn parse data) n (8, (data.take 8, 1)) (stripPng parse data) := by
  obtain ⟨n, hn, hends⟩ := (pngTurn_follows parse data).exists_ends 1
    (fun _ _ _ _ ↦ Nat.succ_pos _) 8 (data.take 8, 1)
  exact ⟨n, by omega, hends⟩

/-! ### WebP -/

/-- One turn of the loop of `_strip_webp`, over the body of the container. -/
def webpTurn (body : Bytes) :
    ℕ × WebpState → Turn (ℕ × WebpState) (Except Fault WebpState)
  | (i, (out, value)) =>
    if i < body.length then
      let kind := body.slice i (i + 4)
      let size := ofLittle (body.slice (i + 4) (i + 8))
      let stop := i + 8 + size + size % 2
      if kind = kindExif then
        match orientation parse (body.slice (i + 8) (i + 8 + size)) with
        | .error fault => .finish (.error fault)
        | .ok value => .again (stop, (out, value))
      else if kind ∈ webpKeep then .again (stop, (out ++ body.slice i stop, value))
      else .again (stop, (out, value))
    else .leave (.ok (out, value))

theorem webpTurn_follows (body : Bytes) :
    Follows (webpReader parse) body (webpTurn parse body) := by
  rintro i ⟨out, value⟩
  change stripWebpStep parse (out, value) (body.drop i) = _
  unfold stripWebpStep webpTurn
  dsimp only
  have hsize : ((body.drop i).drop 4).take 4 = body.slice (i + 4) (i + 8) := by
    rw [slice_add, List.drop_take]
  rw [← slice_self_add, hsize, List.length_drop]
  generalize ofLittle (body.slice (i + 4) (i + 8)) = size
  generalize body.slice i (i + 4) = kind
  have hstop : i + 8 + size + size % 2 = i + (8 + size + size % 2) := by omega
  have hlast : i + 8 + size = i + (8 + size) := Nat.add_assoc ..
  rw [hstop, hlast, slice_add, slice_self_add, drop_add]
  by_cases hleft : i < body.length
  · rw [if_neg (Nat.sub_ne_zero_of_lt hleft), if_pos hleft]
    split_ifs
    · cases orientation parse (((body.drop i).take (8 + size)).drop 8) <;> rfl
    all_goals rfl
  · rw [if_pos (Nat.sub_eq_zero_of_le (Nat.le_of_not_lt hleft)), if_neg hleft]
    rfl

/-- The loop over the chunks of a container. -/
theorem webp_ends (body : Bytes) : ∃ n ≤ body.length,
    Ends (webpTurn parse body) n (0, ([], 1)) ((webpReader parse).run ([], 1) body) := by
  refine (webpTurn_follows parse body).exists_ends 0 (fun i state result hfinish ↦ ?_) 0 ([], 1)
  by_contra hnone
  have hleft : ¬i < body.length := by omega
  unfold webpTurn at hfinish
  dsimp only at hfinish
  rw [if_neg hleft] at hfinish
  cases hfinish

/-! ### JPEG -/

/-- One turn of the loop of `_scan_end`. -/
def scanTurn (data : Bytes) (i : ℕ) : Turn ℕ ℕ :=
  match data.find 0xFF i with
  | none => .leave data.length
  | some i =>
    if h : i + 1 < data.length then
      if data[i + 1] ≠ 0 ∧ isRestart data[i + 1] = false then .finish i else .again (i + 2)
    else .leave data.length

/-- `_scan_end(data, i)`: an index in the file, or its end. -/
def scanEndAt (data : Bytes) (i : ℕ) : ℕ := min (i + scanEnd (data.drop i)) data.length

theorem scanEnd_append {before : Bytes} (h : ∀ b ∈ before, b ≠ 0xFF) (rest : Bytes) :
    scanEnd (before ++ rest) = before.length + scanEnd rest := by
  induction before with
  | nil => exact (Nat.zero_add _).symm
  | cons b before ih =>
    rw [List.cons_append, scanEnd_cons_of_ne (h b List.mem_cons_self),
      ih fun other hother ↦ h other (List.mem_cons_of_mem _ hother), List.length_cons]
    omega

/-- Where no byte of ones is left, the scan goes to the end. -/
theorem scanEnd_of_plain {rest : Bytes} (h : ∀ b ∈ rest, b ≠ 0xFF) :
    scanEnd rest = rest.length := by
  have hscan := scanEnd_append h []
  rwa [List.append_nil] at hscan

/-- What one turn of the loop leaves is what the scan is. -/
theorem scanTurn_spec (data : Bytes) (i : ℕ) :
    (scanTurn data i = .leave (scanEndAt data i)) ∨
    (scanTurn data i = .finish (scanEndAt data i) ∧ i < data.length) ∨
    ∃ j, scanTurn data i = .again j ∧ i < j ∧ i < data.length ∧
      scanEndAt data j = scanEndAt data i := by
  unfold scanTurn scanEndAt
  rcases find_cases data 0xFF i with ⟨hfind, hplain⟩ | ⟨before, rest, hdrop, hplain, hfind⟩
  · left
    rw [hfind, scanEnd_of_plain hplain, List.length_drop]
    dsimp only
    congr 1
    omega
  · have hlength := congrArg List.length hdrop
    rw [List.length_drop, List.length_append, List.length_cons] at hlength
    have hscan := scanEnd_append hplain (0xFF :: rest)
    rw [← hdrop] at hscan
    have hfound : data.drop (i + before.length) = 0xFF :: rest := by
      rw [← drop_add, hdrop, List.drop_left]
    rw [hfind]
    dsimp only
    split_ifs with hpair hstop
    · right
      left
      have hrest := drop_eq_pair hpair
      rw [hfound] at hrest
      obtain ⟨-, hrest⟩ := List.cons.inj hrest
      have hmarker : ¬(data[i + before.length + 1] = 0 ∨
          isRestart data[i + before.length + 1] = true) := by
        rintro (hzero | hrestart)
        · exact hstop.1 hzero
        · rw [hstop.2] at hrestart
          cases hrestart
      rw [hrest, scanEnd, if_pos rfl, if_neg hmarker] at hscan
      rw [hscan]
      refine ⟨?_, by omega⟩
      congr 1
      omega
    · right
      right
      have hrest := drop_eq_pair hpair
      rw [hfound] at hrest
      obtain ⟨-, hrest⟩ := List.cons.inj hrest
      have hmarker : data[i + before.length + 1] = 0 ∨
          isRestart data[i + before.length + 1] = true := by
        by_contra hnone
        rw [not_or, Bool.not_eq_true] at hnone
        exact hstop hnone
      rw [hrest, scanEnd, if_pos rfl, if_pos hmarker] at hscan
      refine ⟨i + before.length + 2, rfl, by omega, by omega, ?_⟩
      rw [hscan]
      congr 1
      omega
    · left
      have hrest : rest = [] := List.eq_nil_of_length_eq_zero (by omega)
      rw [hrest, scanEnd] at hscan
      rw [hscan]
      congr 1
      omega

/-- The loop over compressed data, from any index. -/
theorem scan_ends (data : Bytes) (i : ℕ) : ∃ n ≤ data.length - i,
    Ends (scanTurn data) n i (scanEndAt data i) := by
  refine Loop.exists_ends (scanTurn data) (fun i ↦ data.length - i) (scanEndAt data)
    (fun i result hleave ↦ ?_) (fun i result hfinish ↦ ?_) (fun i next hagain ↦ ?_) i
  · rcases scanTurn_spec data i with h | ⟨h, -⟩ | ⟨j, h, -⟩
    · exact Turn.leave.inj (h.symm.trans hleave)
    · exact absurd (h.symm.trans hleave) nofun
    · exact absurd (h.symm.trans hleave) nofun
  · rcases scanTurn_spec data i with h | ⟨h, hleft⟩ | ⟨j, h, -⟩
    · exact absurd (h.symm.trans hfinish) nofun
    · exact ⟨Nat.sub_pos_of_lt hleft, Turn.finish.inj (h.symm.trans hfinish)⟩
    · exact absurd (h.symm.trans hfinish) nofun
  · rcases scanTurn_spec data i with h | ⟨h, -⟩ | ⟨j, h, hless, hleft, hvalue⟩
    · exact absurd (h.symm.trans hagain) nofun
    · exact absurd (h.symm.trans hagain) nofun
    · rw [← Turn.again.inj (h.symm.trans hagain)]
      exact ⟨Nat.sub_lt_sub_left hleft hless, hvalue.symm⟩

/-- `end`: behind the segment of a marker at an index, and behind the data of a scan. -/
def segmentStop (data : Bytes) (i : ℕ) (marker : UInt8) : ℕ :=
  let stop := i + 2 + ofBig (data.slice (i + 2) (i + 4))
  if marker = 0xDA then scanEndAt data stop else stop

/-- One turn of the loop of `_strip_jpeg_segments`. -/
def segmentsTurn (data : Bytes) : ℕ × Bytes → Turn (ℕ × Bytes) Bytes
  | (i, out) =>
    if h : i + 1 < data.length then
      if data[i] = 0xFF then
        let marker := data[i + 1]
        if marker = 0xFF then .again (i + 1, out)
        else if marker = 0xD9 then .finish (out ++ [0xFF, 0xD9])
        else
          let stop := segmentStop data i marker
          .again (stop, if isRemovable marker then out else out ++ data.slice i stop)
      else .leave out
    else .leave out

/-- A segment ends where its reader goes on, or both are past the end of the file. -/
theorem segmentStop_eq (data : Bytes) (i : ℕ) (marker : UInt8) :
    segmentStop data i marker = i + (2 + segmentEnd marker (data.drop (i + 2))) ∨
      segmentStop data i marker =
        min (i + (2 + segmentEnd marker (data.drop (i + 2)))) data.length := by
  have hfield : data.slice (i + 2) (i + 4) = (data.drop (i + 2)).take 2 :=
    slice_self_add data (i + 2) 2
  unfold segmentStop segmentEnd
  dsimp only
  rw [hfield]
  split_ifs
  · right
    rw [scanEndAt, drop_add]
    congr 1
    omega
  · left
    omega

theorem drop_segmentStop (data : Bytes) (i : ℕ) (marker : UInt8) :
    data.drop (segmentStop data i marker) =
      (data.drop (i + 2)).drop (segmentEnd marker (data.drop (i + 2))) := by
  rw [drop_add, Nat.add_assoc]
  rcases segmentStop_eq data i marker with h | h
  · rw [h]
  · rw [h, drop_min_length]

theorem slice_segmentStop (data : Bytes) (i : ℕ) (marker : UInt8) :
    data.slice i (segmentStop data i marker) =
      (data.drop i).take (2 + segmentEnd marker (data.drop (i + 2))) := by
  rw [← slice_self_add]
  rcases segmentStop_eq data i marker with h | h
  · rw [h]
  · rw [h, slice_min_length]

theorem segmentsTurn_follows (data : Bytes) : Follows segmentReader data (segmentsTurn data) := by
  rintro i out
  change stripSegmentsStep out (data.drop i) = _
  unfold segmentsTurn
  dsimp only
  by_cases hpair : i + 1 < data.length
  · rw [dif_pos hpair, slice_segmentStop, drop_eq_pair hpair, stripSegmentsStep]
    by_cases hones : data[i] = 0xFF
    · rw [if_pos hones, if_neg (not_not.mpr hones)]
      split_ifs
      · change Step.next out (data[i + 1] :: data.drop (i + 2)) = Step.next out (data.drop (i + 1))
        rw [List.drop_eq_getElem_cons hpair]
      · rfl
      · change _ = Step.next out (data.drop (segmentStop data i data[i + 1]))
        rw [drop_segmentStop]
      · change _ = Step.next _ (data.drop (segmentStop data i data[i + 1]))
        rw [drop_segmentStop, Nat.add_comm 2]
        rfl
    · rw [if_neg hones, if_pos hones]
      rfl
  · rw [dif_neg hpair]
    cases hdrop : data.drop i with
    | nil => rfl
    | cons b rest =>
      cases rest with
      | nil => rfl
      | cons marker rest =>
        have hlength := congrArg List.length hdrop
        simp only [List.length_drop, List.length_cons] at hlength
        omega

/-- The loop over the segments. -/
theorem segments_ends (data : Bytes) : ∃ n ≤ data.length,
    Ends (segmentsTurn data) n (2, data.take 2) (segmentReader.run (data.take 2) (data.drop 2)) := by
  obtain ⟨n, hn, hends⟩ := (segmentsTurn_follows data).exists_ends 0
    (fun i out result hfinish ↦ Nat.sub_pos_of_lt (by
      by_contra hleft
      unfold segmentsTurn at hfinish
      dsimp only at hfinish
      rw [dif_neg (by omega)] at hfinish
      cases hfinish)) 2 (data.take 2)
  exact ⟨n, by omega, hends⟩

/-! ### JPEG 2000 -/

/-- One turn of the loop over the main header of a codestream. -/
def codestreamTurn (data : Bytes) : ℕ × Bytes → Turn (ℕ × Bytes) Bytes
  | (i, out) =>
    if h : i + 4 ≤ data.length then
      if data[i] = 0xFF ∧ data[i + 1] ≠ 0x90 then
        let stop := i + 2 + ofBig (data.slice (i + 2) (i + 4))
        .again (stop, if data[i + 1] ≠ 0x64 then out ++ data.slice i stop else out)
      else .leave (out ++ data.drop i)
    else .leave (out ++ data.drop i)

theorem codestreamTurn_follows (data : Bytes) :
    Follows codestreamReader data (codestreamTurn data) := by
  rintro i out
  change stripCodestreamStep out (data.drop i) = _
  unfold codestreamTurn
  dsimp only
  by_cases hpair : i + 1 < data.length
  · rw [drop_eq_pair hpair, stripCodestreamStep, List.length_drop]
    have hfield : data.slice (i + 2) (i + 4) = (data.drop (i + 2)).take 2 :=
      slice_self_add data (i + 2) 2
    have hdrop := drop_add data (i + 2) (ofBig (data.slice (i + 2) (i + 4)))
    have hslice : data.slice i (i + 2 + ofBig (data.slice (i + 2) (i + 4))) =
        data[i] :: data[i + 1] ::
          (data.drop (i + 2)).take (ofBig (data.slice (i + 2) (i + 4))) := by
      rw [Nat.add_assoc, slice_self_add, drop_eq_pair hpair, Nat.add_comm 2]
      rfl
    rw [hslice, ← hfield]
    by_cases hleft : i + 4 ≤ data.length
    · have hlong : ¬data.length - (i + 2) < 2 := by omega
      rw [dif_pos hleft]
      by_cases hgoes : data[i] = 0xFF ∧ data[i + 1] ≠ 0x90
      · have hends : ¬(data.length - (i + 2) < 2 ∨ data[i] ≠ 0xFF ∨ data[i + 1] = 0x90) := by
          rintro (hshort | hones | htile)
          · exact hlong hshort
          · exact hones hgoes.1
          · exact hgoes.2 htile
        rw [if_pos hgoes, if_neg hends]
        dsimp only
        rw [hdrop]
        rfl
      · rw [if_neg hgoes, if_pos (by tauto)]
        rfl
    · rw [dif_neg hleft, if_pos (.inl (by omega))]
      rfl
  · rw [dif_neg (by omega)]
    cases hdrop : data.drop i with
    | nil => rfl
    | cons b rest =>
      cases rest with
      | nil => rfl
      | cons marker rest =>
        have hlength := congrArg List.length hdrop
        simp only [List.length_drop, List.length_cons] at hlength
        omega

/-- The loop over the main header. -/
theorem codestream_ends (data : Bytes) : ∃ n ≤ data.length, Ends (codestreamTurn data) n
    (2, data.take 2) (codestreamReader.run (data.take 2) (data.drop 2)) := by
  obtain ⟨n, hn, hends⟩ := (codestreamTurn_follows data).exists_ends 0
    (fun i out result hfinish ↦ (by
      unfold codestreamTurn at hfinish
      dsimp only at hfinish
      split_ifs at hfinish)) 2 (data.take 2)
  exact ⟨n, by omega, hends⟩

/-- The size of the box at an index, and that of its header. -/
def boxSizeAt (data : Bytes) (i : ℕ) : ℕ × ℕ :=
  let size := ofBig (data.slice i (i + 4))
  if size = 1 then (ofBig (data.slice (i + 8) (i + 16)), 16) else (size, 8)

/-- `end`: behind the box at an index. -/
def boxStop (data : Bytes) (i : ℕ) : ℕ :=
  if (boxSizeAt data i).1 = 0 then data.length else i + (boxSizeAt data i).1

/-- One turn of the loop over the boxes. -/
def boxTurn (strip : Bytes → Except Fault Bytes) (data : Bytes) :
    ℕ × Bytes → Turn (ℕ × Bytes) (Except Fault Bytes)
  | (i, out) =>
    if i + 8 ≤ data.length then
      let kind := data.slice (i + 4) (i + 8)
      let header := (boxSizeAt data i).2
      let stop := boxStop data i
      if data.length < stop ∨ stop < i + header then
        .finish (.error (.metadata "truncated JPEG 2000"))
      else if kind = kindCodestream then
        match (do
          let codestream ← strip (data.slice (i + header) stop)
          let word ← bigWord (8 + codestream.length)
          return word ++ kind ++ codestream) with
        | .error fault => .finish (.error fault)
        | .ok box => .again (stop, out ++ box)
      else if kind ∈ jp2Keep then .again (stop, out ++ data.slice i stop)
      else .again (stop, out)
    else .leave (.ok out)

theorem boxSizeAt_eq (data : Bytes) (i : ℕ) : boxSizeAt data i = boxSize (data.drop i) := by
  have hlong : data.slice (i + 8) (i + 16) = ((data.drop i).drop 8).take 8 := by
    rw [slice_add, List.drop_take]
  rw [boxSizeAt, boxSize, hlong, slice_self_add]

theorem boxTurn_follows (strip : Bytes → Except Fault Bytes) (data : Bytes) :
    Follows (boxReader strip) data (boxTurn strip data) := by
  rintro i out
  change stripBoxesStep strip out (data.drop i) = _
  unfold stripBoxesStep boxTurn
  dsimp only
  by_cases hleft : i + 8 ≤ data.length
  · have hshort : ¬(data.drop i).length < 8 := by
      rw [List.length_drop]
      omega
    have hkind : ((data.drop i).drop 4).take 4 = data.slice (i + 4) (i + 8) := by
      rw [slice_add, List.drop_take]
    have hstop : boxStop data i =
        i + if (boxSize (data.drop i)).1 = 0 then (data.drop i).length
          else (boxSize (data.drop i)).1 := by
      rw [boxStop, boxSizeAt_eq, List.length_drop]
      split_ifs
      · omega
      · rfl
    rw [if_neg hshort, if_pos hleft, hkind, hstop, boxSizeAt_eq]
    generalize boxSize (data.drop i) = sizes
    generalize (if sizes.1 = 0 then (data.drop i).length else sizes.1) = stop
    generalize data.slice (i + 4) (i + 8) = kind
    have hbounds : data.length < i + stop ∨ i + stop < i + sizes.2 ↔
        (data.drop i).length < stop ∨ stop < sizes.2 := by
      rw [List.length_drop]
      omega
    simp only [hbounds, slice_add, slice_self_add, drop_add]
    split_ifs
    · rfl
    · cases hbox : (do
          let codestream ← strip (((data.drop i).take stop).drop sizes.2)
          let word ← bigWord (8 + codestream.length)
          return word ++ kind ++ codestream) <;> rfl
    · rfl
    · rfl
  · have hshort : (data.drop i).length < 8 := by
      rw [List.length_drop]
      omega
    rw [if_pos hshort, if_neg hleft]
    rfl

/-- The loop over the boxes, whatever comes of the parts it calls the cleaner for. -/
theorem boxes_end (strip : Bytes → Except Fault Bytes) (data : Bytes) : ∃ n ≤ data.length,
    Ends (boxTurn strip data) n (0, []) ((boxReader strip).run [] data) := by
  refine (boxTurn_follows strip data).exists_ends 0 (fun i out result hfinish ↦ ?_) 0 []
  by_contra hnone
  unfold boxTurn at hfinish
  dsimp only at hfinish
  rw [if_neg (by omega)] at hfinish
  cases hfinish

/-- The part of a file that the cleaner calls itself for, at an index. -/
def calledFor (data : Bytes) (i : ℕ) : Option Bytes :=
  if i + 8 ≤ data.length then
    if data.length < boxStop data i ∨ boxStop data i < i + (boxSizeAt data i).2 then none
    else if data.slice (i + 4) (i + 8) = kindCodestream then
      some (data.slice (i + (boxSizeAt data i).2) (boxStop data i))
    else none
  else none

theorem boxTurn_congr {strip other : Bytes → Except Fault Bytes} {data : Bytes} {i : ℕ}
    (h : ∀ part ∈ calledFor data i, strip part = other part) (out : Bytes) :
    boxTurn strip data (i, out) = boxTurn other data (i, out) := by
  unfold calledFor at h
  unfold boxTurn
  dsimp only
  split_ifs at h ⊢ with hleft hbounds hkind
  · rfl
  · rw [h _ rfl]
  all_goals rfl

theorem eight_le_header (data : Bytes) (i : ℕ) : 8 ≤ (boxSizeAt data i).2 := by
  unfold boxSizeAt
  dsimp only
  split_ifs
  · exact (by decide : 8 ≤ 16)
  · exact le_rfl

/-- A part that the cleaner calls itself for is shorter than the file. -/
theorem length_calledFor {data part : Bytes} {i : ℕ} (h : part ∈ calledFor data i) :
    part.length < data.length := by
  rw [Option.mem_def, calledFor] at h
  split_ifs at h with hleft hbounds
  have hheader := eight_le_header data i
  rw [← Option.some.inj h, slice, List.length_drop, List.length_take]
  omega

/-- A call of `_strip_jp2` ends, and so do those it makes: each of their loops is entered once a byte
of its own input at most. -/
inductive Jp2Ends : Bytes → Except Fault Bytes → Prop
  | codestream {data result : Bytes} {n : ℕ} (hstart : data.take 2 = [0xFF, 0x4F])
    (hn : n ≤ data.length) (hloop : Ends (codestreamTurn data) n (2, data.take 2) result) :
    Jp2Ends data (.ok result)
  | other {data : Bytes} (hstart : data.take 2 ≠ [0xFF, 0x4F])
    (hkind : data.slice 4 8 ≠ kindSignature) :
    Jp2Ends data (.error (.metadata "not a JPEG 2000 file"))
  | boxes {data : Bytes} {strip : Bytes → Except Fault Bytes} {result : Except Fault Bytes} {n : ℕ}
    (hstart : data.take 2 ≠ [0xFF, 0x4F]) (hkind : data.slice 4 8 = kindSignature)
    (hcalls : ∀ i, ∀ part ∈ calledFor data i, Jp2Ends part (strip part)) (hn : n ≤ data.length)
    (hloop : Ends (boxTurn strip data) n (0, []) result) : Jp2Ends data result

/-- Such a call has one result. -/
theorem Jp2Ends.unique {data : Bytes} {result : Except Fault Bytes} (h : Jp2Ends data result) :
    ∀ {found : Except Fault Bytes}, Jp2Ends data found → result = found := by
  induction h with
  | codestream hstart _ hloop =>
    intro found hfound
    cases hfound with
    | codestream _ _ hfound => rw [(hloop.unique hfound).2]
    | other hother _ => exact absurd hstart hother
    | boxes hother _ _ _ _ => exact absurd hstart hother
  | other hstart hkind =>
    intro found hfound
    cases hfound with
    | codestream hother _ _ => exact absurd hother hstart
    | other _ _ => rfl
    | boxes _ hother _ _ _ => exact absurd hother hkind
  | @boxes data strip result n hstart hkind _ _ hloop ih =>
    intro found hfound
    cases hfound with
    | codestream hother _ _ => exact absurd hother hstart
    | other _ hother => exact absurd hkind hother
    | @boxes _ other _ m _ _ hcalls _ hfound =>
      have hturn : boxTurn strip data = boxTurn other data := by
        funext ⟨i, out⟩
        exact boxTurn_congr (fun part hpart ↦ ih i part hpart (hcalls i part hpart)) out
      rw [hturn] at hloop
      exact (hloop.unique hfound).2

theorem jp2With_ends {depth : ℕ} : ∀ {data : Bytes}, data.length < depth →
    Jp2Ends data (stripJp2With depth data) := by
  induction depth with
  | zero => exact fun hlength ↦ absurd hlength (Nat.not_lt_zero _)
  | succ depth ih =>
    intro data hlength
    have hsignature : (data.drop 4).take 4 = data.slice 4 8 := (slice_eq data 4 8).symm
    rw [stripJp2With, hsignature]
    split_ifs with hstart hkind
    · obtain ⟨n, hn, hloop⟩ := codestream_ends data
      exact .codestream hstart hn hloop
    · exact .other hstart hkind
    · obtain ⟨n, hn, hloop⟩ := boxes_end (stripJp2With depth) data
      refine .boxes hstart (not_not.mp hkind) (fun i part hpart ↦ ih ?_) hn hloop
      exact Nat.lt_of_lt_of_le (length_calledFor hpart) (Nat.le_of_lt_succ hlength)

/-- The body of a WebP container. -/
def webpBody (data : Bytes) : Bytes :=
  (data.take (8 + ofLittle ((data.take 8).drop 4))).drop 12

/-- The cleaners end on every input, with what they return: the body of each loop is entered once a
byte at most. That of the loop over the chunks of a PNG is entered once for an empty file. -/
theorem cleaners_end (data : Bytes) :
    (∀ i, ∃ n ≤ data.length, Ends (scanTurn data) n i (scanEndAt data i)) ∧
    ((data.take 2 ≠ [0xFF, 0xD8] ∧ stripJpegSegments data = data) ∨ ∃ n ≤ data.length,
      Ends (segmentsTurn data) n (2, data.take 2) (stripJpegSegments data)) ∧
    (∃ n ≤ max 1 data.length,
      Ends (pngTurn parse data) n (8, (data.take 8, 1)) (stripPng parse data)) ∧
    (∃ n ≤ data.length, Ends (webpTurn parse (webpBody data)) n (0, ([], 1))
      ((webpReader parse).run ([], 1) (webpBody data))) ∧
    Jp2Ends data (stripJp2 data) := by
  refine ⟨fun i ↦ ?_, ?_, png_ends parse data, ?_, jp2With_ends (Nat.lt_succ_self _)⟩
  · obtain ⟨n, hn, hends⟩ := scan_ends data i
    exact ⟨n, hn.trans (Nat.sub_le ..), hends⟩
  · unfold stripJpegSegments
    split_ifs with hstart
    · exact .inl ⟨hstart, rfl⟩
    · exact .inr (segments_ends data)
  · obtain ⟨n, hn, hends⟩ := webp_ends parse (webpBody data)
    refine ⟨n, hn.trans ?_, hends⟩
    rw [webpBody, List.length_drop, List.length_take]
    omega

/-- An empty file has no bytes, and the loop over its chunks is entered all the same. -/
theorem png_loop_is_entered_without_bytes :
    Ends (pngTurn (fun _ ↦ .ok none) []) 1 (8, ([], 1)) (stripPng (fun _ ↦ .ok none) []) ∧
      ¬∃ n ≤ ([] : Bytes).length, ∃ result,
        Ends (pngTurn (fun _ ↦ .ok none) []) n (8, ([], 1)) result := by
  have hends : Ends (pngTurn (fun _ ↦ .ok none) []) 1 (8, ([], 1))
      (stripPng (fun _ ↦ .ok none) []) := .finish rfl
  refine ⟨hends, ?_⟩
  rintro ⟨n, hn, result, hresult⟩
  rw [← (hends.unique hresult).1] at hn
  exact absurd hn (by decide)

end OpenWhistle.Attachments
