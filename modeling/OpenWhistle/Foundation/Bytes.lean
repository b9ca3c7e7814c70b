import Mathlib.Algebra.Group.Nat.Defs
import Mathlib.Data.List.TakeDrop
import Mathlib.Data.Nat.Notation
import Mathlib.Tactic.SplitIfs

/-!
# Bytes, and readers of bytes

Numbers are written with a fixed width, the low byte first or the high byte first, and read back. The
check sum of an archive or a picture is the remainder of a polynomial, a bit at a time.

A parser of a file goes from one piece to the next: it looks at what is left of the file, and either
ends with a result or goes on behind the piece it has read. What is left gets shorter with every
piece, so the parser ends. A reader is such a parser, and carries the proof that its pieces are not
empty.
-/

set_option autoImplicit false
set_option relaxedAutoImplicit false

abbrev Bytes := List UInt8

namespace Bytes

instance decidableMem (bytes : Bytes) (known : List Bytes) : Decidable (bytes ∈ known) :=
  List.instDecidableMemOfLawfulBEq bytes known

/-! ### Numbers -/

/-- `int.from_bytes` with the low byte first. -/
def ofLittle : Bytes → ℕ
  | [] => 0
  | b :: bytes => b.toNat + 256 * ofLittle bytes

/-- `int.from_bytes` with the high byte first. -/
def ofBig (bytes : Bytes) : ℕ := ofLittle bytes.reverse

/-- The low bytes of a number, the lowest first. -/
def toLittle : ℕ → ℕ → Bytes
  | 0, _ => []
  | width + 1, n => UInt8.ofNat n :: toLittle width (n / 256)

/-- The low bytes of a number, the highest first. -/
def toBig (width n : ℕ) : Bytes := (toLittle width n).reverse

@[simp] theorem length_toLittle (width n : ℕ) : (toLittle width n).length = width := by
  induction width generalizing n with
  | zero => rfl
  | succ width ih => simp [toLittle, ih]

@[simp] theorem length_toBig (width n : ℕ) : (toBig width n).length = width := by
  simp [toBig]

theorem ofLittle_toLittle {width n : ℕ} (hn : n < 256 ^ width) :
    ofLittle (toLittle width n) = n := by
  induction width generalizing n with
  | zero =>
    have hzero : n = 0 := by simpa using hn
    rw [hzero]
    rfl
  | succ width ih =>
    have hrest : n / 256 < 256 ^ width := by
      rw [Nat.pow_succ] at hn
      exact Nat.div_lt_of_lt_mul (by omega)
    rw [toLittle, ofLittle, ih hrest, UInt8.toNat_ofNat']
    omega

theorem ofBig_toBig {width n : ℕ} (hn : n < 256 ^ width) : ofBig (toBig width n) = n := by
  rw [ofBig, toBig, List.reverse_reverse, ofLittle_toLittle hn]

theorem ofLittle_lt (bytes : Bytes) : ofLittle bytes < 256 ^ bytes.length := by
  induction bytes with
  | nil => exact Nat.one_pos
  | cons b bytes ih =>
    have hb := b.toNat_lt
    rw [ofLittle, List.length_cons, Nat.pow_succ]
    omega

theorem ofBig_lt (bytes : Bytes) : ofBig bytes < 256 ^ bytes.length := by
  simpa [ofBig] using ofLittle_lt bytes.reverse

theorem toLittle_ofLittle (bytes : Bytes) : toLittle bytes.length (ofLittle bytes) = bytes := by
  induction bytes with
  | nil => rfl
  | cons b bytes ih =>
    have hb := b.toNat_lt
    have hdiv : (b.toNat + 256 * ofLittle bytes) / 256 = ofLittle bytes := by omega
    have hlow : UInt8.ofNat (b.toNat + 256 * ofLittle bytes) = b := by
      refine UInt8.toNat_inj.mp ?_
      rw [UInt8.toNat_ofNat']
      omega
    rw [ofLittle, List.length_cons, toLittle, hdiv, ih, hlow]

theorem toBig_ofBig (bytes : Bytes) : toBig bytes.length (ofBig bytes) = bytes := by
  have h := toLittle_ofLittle bytes.reverse
  rw [List.length_reverse] at h
  rw [toBig, ofBig, h, List.reverse_reverse]

/-- A field of two bytes counts itself and what is behind it. -/
theorem length_field (payload : Bytes) :
    (toBig 2 (payload.length + 2) ++ payload).length = payload.length + 2 := by
  rw [List.length_append, length_toBig, Nat.add_comm]

theorem ofBig_field {payload : Bytes} (hpayload : payload.length + 2 < 256 ^ 2) (rest : Bytes) :
    ofBig ((toBig 2 (payload.length + 2) ++ payload ++ rest).take 2) = payload.length + 2 := by
  rw [List.append_assoc, List.take_left' (length_toBig ..), ofBig_toBig hpayload]

/-- The bytes of a text in ASCII. -/
def ascii (text : List Char) : Bytes := text.map fun c ↦ UInt8.ofNat c.toNat

/-! ### The check sum -/

/-- One bit of the remainder, the polynomial `0xEDB88320`. -/
def crcBit (n : ℕ) : ℕ := if n % 2 = 1 then (n / 2) ^^^ 0xEDB88320 else n / 2

def crcByte (n : ℕ) (b : UInt8) : ℕ := crcBit^[8] (n ^^^ b.toNat)

/-- `zlib.crc32`. -/
def crc32 (bytes : Bytes) : ℕ := bytes.foldl crcByte 0xFFFFFFFF ^^^ 0xFFFFFFFF

example : crc32 [0x49, 0x45, 0x4E, 0x44] = 0xAE426082 := by decide

/-! ### Readers -/

/-- One piece of a parser: its result, or its state behind the piece and what is left of the file. -/
inductive Step (σ ρ : Type)
  | done (result : ρ)
  | next (state : σ) (rest : Bytes)

/-- A parser whose pieces are not empty. -/
structure Reader (σ ρ : Type) where
  step : σ → Bytes → Step σ ρ
  shrinks : ∀ {state later : σ} {rest left : Bytes}, step state rest = .next later left →
    left.length < rest.length

namespace Reader

variable {σ ρ : Type}

/-- A property of everything that is left holds of the file, where each piece carries it back. -/
theorem induct (reader : Reader σ ρ) {motive : σ → Bytes → Prop}
    (done : ∀ {state rest result}, reader.step state rest = .done result → motive state rest)
    (next : ∀ {state rest later left}, reader.step state rest = .next later left →
      motive later left → motive state rest)
    (state : σ) (rest : Bytes) : motive state rest := by
  induction hlength : rest.length using Nat.strongRecOn generalizing state rest with
  | ind n ih =>
    cases hstep : reader.step state rest with
    | done result => exact done hstep
    | next later left =>
      have hless := reader.shrinks hstep
      exact next hstep (ih left.length (by omega) later left rfl)

variable [Inhabited ρ]

/-- A number of pieces. -/
def runWith (reader : Reader σ ρ) : ℕ → σ → Bytes → ρ
  | 0, _, _ => default
  | fuel + 1, state, rest =>
    match reader.step state rest with
    | .done result => result
    | .next later left => reader.runWith fuel later left

/-- All the pieces: no more than there are bytes, and the end. -/
def run (reader : Reader σ ρ) (state : σ) (rest : Bytes) : ρ :=
  reader.runWith (rest.length + 1) state rest

/-- Any number of pieces above the number of bytes is enough. -/
theorem runWith_eq (reader : Reader σ ρ) {fuel more : ℕ} {state : σ} {rest : Bytes}
    (hfuel : rest.length < fuel) (hmore : rest.length < more) :
    reader.runWith fuel state rest = reader.runWith more state rest := by
  induction fuel generalizing more state rest with
  | zero => omega
  | succ fuel ih =>
    obtain ⟨more, rfl⟩ : ∃ m, more = m + 1 := ⟨more - 1, by omega⟩
    rw [runWith, runWith]
    cases hstep : reader.step state rest with
    | done result => rfl
    | next later left =>
      have hless := reader.shrinks hstep
      exact ih (by omega) (by omega)

theorem run_of_done {reader : Reader σ ρ} {state : σ} {rest : Bytes} {result : ρ}
    (h : reader.step state rest = .done result) : reader.run state rest = result := by
  rw [run, runWith, h]

theorem run_of_next {reader : Reader σ ρ} {state later : σ} {rest left : Bytes}
    (h : reader.step state rest = .next later left) :
    reader.run state rest = reader.run later left := by
  have hless := reader.shrinks h
  rw [run, runWith, h]
  exact reader.runWith_eq hless (Nat.lt_succ_self _)

end Reader

end Bytes
