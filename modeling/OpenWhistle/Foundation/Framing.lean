import OpenWhistle.Foundation.Bytes

/-!
# Pieces behind their lengths

A content is sent in pieces, each behind its length in a fixed number of bytes; a length of 0 ends
it. The other side reads a byte at a time, so it does not matter in which portions the bytes arrive:
when it sees the end, it has the content, and it sees the end only behind the last byte that belongs
to it.

An answer is read until its mark, and not beyond a limit.
-/

set_option autoImplicit false
set_option relaxedAutoImplicit false

namespace Framing

/-! ### The writer -/

def frame (width : ℕ) (piece : Bytes) : Bytes := Bytes.toBig width piece.length ++ piece

/-- All pieces, and the end. -/
def stream (width : ℕ) (pieces : List Bytes) : Bytes :=
  pieces.flatMap (frame width) ++ Bytes.toBig width 0

/-- Slices of a length, and a last one that may be shorter. -/
def slices (n : ℕ) (content : Bytes) : List Bytes :=
  (List.range ((content.length + (n - 1)) / n)).map fun i ↦ (content.drop (i * n)).take n

theorem flatten_range_slices (n k : ℕ) (content : Bytes) (hlength : content.length ≤ k * n) :
    ((List.range k).map fun i ↦ (content.drop (i * n)).take n).flatten = content := by
  induction k generalizing content with
  | zero =>
    rw [Nat.zero_mul, Nat.le_zero, List.length_eq_zero_iff] at hlength
    rw [hlength]
    rfl
  | succ k ih =>
    have hrest : ((List.range k).map fun i ↦ (content.drop ((i + 1) * n)).take n) =
        (List.range k).map fun i ↦ ((content.drop n).drop (i * n)).take n := by
      refine List.map_congr_left fun i _ ↦ ?_
      rw [List.drop_drop, Nat.succ_mul, Nat.add_comm]
    have hshort : (content.drop n).length ≤ k * n := by
      rw [List.length_drop, Nat.succ_mul] at *
      omega
    rw [List.range_succ_eq_map, List.map_cons, List.map_map, List.flatten_cons, Nat.zero_mul,
      List.drop_zero]
    calc content.take n ++ ((List.range k).map fun i ↦ (content.drop ((i + 1) * n)).take n).flatten
        = content.take n ++ content.drop n := by rw [hrest, ih _ hshort]
      _ = content := List.take_append_drop n content

theorem flatten_slices {n : ℕ} (hn : 0 < n) (content : Bytes) :
    (slices n content).flatten = content := by
  refine flatten_range_slices n _ content ?_
  have hdiv := Nat.div_add_mod (content.length + (n - 1)) n
  have hmod := Nat.mod_lt (content.length + (n - 1)) hn
  rw [Nat.mul_comm] at hdiv
  omega

/-- No slice is empty, and none is longer. -/
theorem length_of_mem_slices {n : ℕ} (hn : 0 < n) {content slice : Bytes}
    (hslice : slice ∈ slices n content) : slice ≠ [] ∧ slice.length ≤ n := by
  obtain ⟨i, hi, rfl⟩ := List.mem_map.mp hslice
  rw [List.mem_range, Nat.lt_div_iff_mul_lt hn] at hi
  have hlength : ((content.drop (i * n)).take n).length = min n (content.length - i * n) := by
    rw [List.length_take, List.length_drop]
  refine ⟨?_, ?_⟩
  · rw [← List.length_pos_iff, hlength]
    omega
  · rw [hlength]
    exact Nat.min_le_left _ _

/-! ### The reader -/

/-- A reader between two bytes, with the content so far. -/
inductive State
  | length (digits content : Bytes)
  | piece (left : ℕ) (content : Bytes)
  | ended (content : Bytes)

def State.start : State := .length [] []

/-- Behind the last byte of a length. -/
def State.ofLength (n : ℕ) (content : Bytes) : State :=
  if n = 0 then .ended content else .piece n content

def State.next (width : ℕ) : State → UInt8 → State
  | .length digits content, b =>
    if digits.length + 1 < width then .length (digits ++ [b]) content
    else .ofLength (Bytes.ofBig (digits ++ [b])) content
  | .piece left content, b =>
    if left = 1 then .length [] (content ++ [b]) else .piece (left - 1) (content ++ [b])
  | .ended content, _ => .ended content

def read (width : ℕ) (s : State) (bytes : Bytes) : State := bytes.foldl (State.next width) s

variable {width : ℕ}

theorem read_append (s : State) (front back : Bytes) :
    read width s (front ++ back) = read width (read width s front) back :=
  List.foldl_append

theorem read_cons (s : State) (b : UInt8) (bytes : Bytes) :
    read width s (b :: bytes) = read width (s.next width b) bytes := rfl

@[simp] theorem read_ended (content bytes : Bytes) :
    read width (.ended content) bytes = .ended content := by
  induction bytes with
  | nil => rfl
  | cons b bytes ih => exact ih

/-- The bytes that a length still lacks. -/
theorem read_digits {digits bytes : Bytes} (content : Bytes) (hbytes : bytes ≠ [])
    (hwidth : digits.length + bytes.length = width) :
    read width (.length digits content) bytes =
      .ofLength (Bytes.ofBig (digits ++ bytes)) content := by
  induction bytes generalizing digits with
  | nil => exact absurd rfl hbytes
  | cons b bytes ih =>
    rw [List.length_cons] at hwidth
    rw [read_cons, State.next]
    cases bytes with
    | nil =>
      rw [if_neg (by rw [← hwidth]; exact Nat.lt_irrefl _)]
      rfl
    | cons c bytes =>
      rw [List.length_cons] at hwidth
      have hnext : (digits ++ [b]).length + (c :: bytes).length = width := by
        rw [List.length_append, List.length_singleton, List.length_cons]
        omega
      rw [if_pos (by omega), ih (List.cons_ne_nil _ _) hnext, List.append_assoc,
        List.singleton_append]

theorem read_length {n : ℕ} (content : Bytes) (hwidth : 0 < width) (hn : n < 256 ^ width) :
    read width (.length [] content) (Bytes.toBig width n) = .ofLength n content := by
  have hbytes : Bytes.toBig width n ≠ [] := by
    rw [← List.length_pos_iff, Bytes.length_toBig]
    exact hwidth
  rw [read_digits content hbytes (by rw [Bytes.length_toBig]; exact Nat.zero_add _),
    List.nil_append, Bytes.ofBig_toBig hn]

/-- The bytes that a piece still lacks. -/
theorem read_piece {bytes : Bytes} (content : Bytes) (hbytes : bytes ≠ []) :
    read width (.piece bytes.length content) bytes = .length [] (content ++ bytes) := by
  induction bytes generalizing content with
  | nil => exact absurd rfl hbytes
  | cons b bytes ih =>
    rw [read_cons, State.next, List.length_cons]
    cases bytes with
    | nil => rfl
    | cons c bytes =>
      rw [if_neg (by rw [List.length_cons]; omega), Nat.add_sub_cancel,
        ih _ (List.cons_ne_nil _ _), List.append_assoc, List.singleton_append]

theorem read_frame {piece : Bytes} (content : Bytes) (hwidth : 0 < width) (hpiece : piece ≠ [])
    (hshort : piece.length < 256 ^ width) :
    read width (.length [] content) (frame width piece) = .length [] (content ++ piece) := by
  rw [frame, read_append, read_length content hwidth hshort, State.ofLength,
    if_neg (mt List.length_eq_zero_iff.mp hpiece), read_piece content hpiece]

/-- At the end the reader has all pieces. -/
theorem read_stream {pieces : List Bytes} (content : Bytes) (hwidth : 0 < width)
    (hpieces : ∀ piece ∈ pieces, piece ≠ [] ∧ piece.length < 256 ^ width) :
    read width (.length [] content) (stream width pieces) = .ended (content ++ pieces.flatten) := by
  induction pieces generalizing content with
  | nil =>
    rw [stream, List.flatMap_nil, List.nil_append, List.flatten_nil, List.append_nil,
      read_length content hwidth (Nat.pow_pos (by decide))]
    rfl
  | cons piece pieces ih =>
    obtain ⟨hpiece, hshort⟩ := hpieces piece List.mem_cons_self
    have hrest := ih (content ++ piece) fun p hp ↦ hpieces p (List.mem_cons_of_mem _ hp)
    rw [stream, List.flatMap_cons, List.append_assoc, read_append,
      read_frame content hwidth hpiece hshort, List.flatten_cons, ← List.append_assoc]
    exact hrest

/-- Whoever has seen the end has seen everything. -/
theorem eq_flatten_of_prefix {pieces : List Bytes} {received content : Bytes} (hwidth : 0 < width)
    (hpieces : ∀ piece ∈ pieces, piece ≠ [] ∧ piece.length < 256 ^ width)
    (hbegins : received <+: stream width pieces)
    (hended : read width .start received = .ended content) : content = pieces.flatten := by
  obtain ⟨rest, hrest⟩ := hbegins
  have hall := read_stream [] hwidth hpieces
  rw [← hrest, read_append] at hall
  rw [State.start] at hended
  rw [hended, read_ended, List.nil_append] at hall
  exact State.ended.inj hall

/-! ### Reading until a mark -/

/-- `readuntil`, on what is in the buffer: `none` where more is needed, and no bytes where the limit
is passed. -/
def readUntil (limit : ℕ) (mark : UInt8) (buffer : Bytes) : Option (Option Bytes) :=
  if mark ∈ buffer then
    let front := buffer.takeWhile fun b ↦ decide (b ≠ mark)
    if limit < front.length then some none else some (some (front ++ [mark]))
  else if limit < buffer.length then some none
  else none

theorem takeWhile_marked {mark : UInt8} {front : Bytes} (hfront : mark ∉ front) (rest : Bytes) :
    (front ++ mark :: rest).takeWhile (fun b ↦ decide (b ≠ mark)) = front := by
  induction front with
  | nil => simp
  | cons b front ih =>
    obtain ⟨hb, hfront⟩ := not_or.mp (mt List.mem_cons.mpr hfront)
    have hkept : decide (b ≠ mark) = true := decide_eq_true (Ne.symm hb)
    rw [List.cons_append, List.takeWhile_cons, if_pos hkept, ih hfront]

/-- A mark behind no more bytes than the limit is found, however the bytes arrive. -/
theorem readUntil_prefix {limit : ℕ} {mark : UInt8} {front buffer : Bytes} (hfront : mark ∉ front)
    (hlimit : front.length ≤ limit) (hbegins : buffer <+: front ++ [mark]) :
    readUntil limit mark buffer =
      if buffer = front ++ [mark] then some (some buffer) else none := by
  unfold readUntil
  rcases List.prefix_concat_iff.mp hbegins with rfl | hbuffer
  · rw [if_pos List.mem_concat_self, takeWhile_marked hfront, if_neg (Nat.not_lt.mpr hlimit),
      if_pos rfl]
  · have hmark : mark ∉ buffer := fun hmem ↦ hfront (hbuffer.subset hmem)
    have hlength := hbuffer.length_le
    rw [if_neg hmark, if_neg (by omega), if_neg]
    rintro rfl
    exact hmark List.mem_concat_self

/-- Whatever is read is what is in front of the first mark. -/
theorem eq_of_readUntil {limit : ℕ} {mark : UInt8} {front buffer answer : Bytes}
    (hfront : mark ∉ front) (hbegins : buffer <+: front ++ [mark])
    (hread : readUntil limit mark buffer = some (some answer)) : answer = front ++ [mark] := by
  unfold readUntil at hread
  rcases List.prefix_concat_iff.mp hbegins with rfl | hbuffer
  · rw [if_pos List.mem_concat_self, takeWhile_marked hfront] at hread
    dsimp only at hread
    split_ifs at hread
    · cases hread
    · exact (Option.some.inj (Option.some.inj hread)).symm
  · have hmark : mark ∉ buffer := fun hmem ↦ hfront (hbuffer.subset hmem)
    rw [if_neg hmark] at hread
    split_ifs at hread
    cases hread

end Framing
