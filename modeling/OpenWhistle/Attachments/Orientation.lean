import OpenWhistle.Foundation.Bytes
import Mathlib.Data.Int.Notation

/-!
# The orientation of a picture

All that is kept of the EXIF block of a picture is how it is turned, a number from 2 to 8, or 1 where it
is upright. The block is read by a parser of a library, which may reject it; what is written instead is
a block of one entry.

An attachment that cannot be cleaned is refused: every exception of a cleaner says so.
-/

set_option autoImplicit false
set_option relaxedAutoImplicit false

namespace OpenWhistle.Attachments

open Bytes

/-- An exception of a cleaner. -/
inductive Fault
  /-- `MetadataError`. -/
  | metadata (message : String)
  /-- The parser of EXIF blocks rejects one. -/
  | exif
  | overflowError
  | indexError
  | recursionError
  deriving DecidableEq

instance : Inhabited Fault := ⟨.indexError⟩

/-- `Image.Exif`: the whole number under the orientation tag of a block. A block may hold a fraction or
a floating point number there too, which `_orientation` compares in the same way; such blocks are left
out. -/
abbrev ExifParser := Bytes → Except Fault (Option ℤ)

variable (parse : ExifParser)

/-- `_orientation`. -/
def orientation (exif : Bytes) : Except Fault ℕ := do
  let value ← parse exif
  return match value with
    | some value => if 2 ≤ value ∧ value < 9 then value.toNat else 1
    | none => 1

/-- `_ORIENTATION`. -/
def orientationTag : ℕ := 0x0112

/-- `_orientation_exif`. -/
def orientationExif (value : ℕ) : Bytes :=
  [0x4D, 0x4D, 0x00, 0x2A, 0x00, 0x00, 0x00, 0x08, 0x00, 0x01] ++
    (toBig 2 orientationTag ++ toBig 2 3 ++ toBig 4 1 ++ toBig 2 value ++ toBig 2 0 ++ toBig 4 0)

/-- The orientations of the EXIF blocks of a file, if the parser rejects none of them. -/
def orientations (blocks : List Bytes) : Except Fault (List ℕ) := blocks.mapM (orientation parse)

/-- How the picture is turned: the last orientation, from 2 to 8. -/
def turn (found : List ℕ) : Option ℕ :=
  found.getLast?.filter fun value ↦ decide (2 ≤ value ∧ value ≤ 8)

/-- The parser reads the orientation back from the block that is written. -/
def ReadsBack : Prop :=
  ∀ value, 2 ≤ value → value ≤ 8 → parse (orientationExif value) = .ok (some (value : ℤ))

@[simp] theorem length_orientationExif (value : ℕ) : (orientationExif value).length = 26 := by
  simp [orientationExif]

theorem orientationExif_fits (value : ℕ) : (orientationExif value).length < 256 ^ 4 := by
  rw [length_orientationExif]
  decide

variable {parse}

theorem orientation_cases {exif : Bytes} {value : ℕ} (h : orientation parse exif = .ok value) :
    value = 1 ∨ 2 ≤ value ∧ value ≤ 8 := by
  unfold orientation at h
  cases hparse : parse exif with
  | error fault =>
    rw [hparse] at h
    cases h
  | ok found =>
    rw [hparse] at h
    have hvalue := Except.ok.inj h
    cases found with
    | none => exact .inl hvalue.symm
    | some n =>
      dsimp only at hvalue
      split_ifs at hvalue <;> omega

theorem orientation_orientationExif (hparse : ReadsBack parse) {value : ℕ} (htwo : 2 ≤ value)
    (height : value ≤ 8) : orientation parse (orientationExif value) = .ok value := by
  rw [orientation, hparse value htwo height]
  have hrange : (2 : ℤ) ≤ value ∧ (value : ℤ) < 9 := by omega
  change Except.ok (if (2 : ℤ) ≤ value ∧ (value : ℤ) < 9 then (value : ℤ).toNat else 1) = _
  rw [if_pos hrange, Int.toNat_natCast]

theorem orientations_cons (block : Bytes) (blocks : List Bytes) :
    orientations parse (block :: blocks) = (do
      let value ← orientation parse block
      let found ← orientations parse blocks
      return value :: found) :=
  List.mapM_cons ..

/-- Every orientation is 1, or from 2 to 8. -/
theorem mem_orientations {blocks : List Bytes} : ∀ {found : List ℕ},
    orientations parse blocks = .ok found → ∀ value ∈ found, value = 1 ∨ 2 ≤ value ∧ value ≤ 8 := by
  induction blocks with
  | nil =>
    intro found h
    cases h
    exact nofun
  | cons block blocks ih =>
    intro found h
    rw [orientations_cons] at h
    cases hvalue : orientation parse block with
    | error fault =>
      rw [hvalue] at h
      cases h
    | ok value =>
      cases hrest : orientations parse blocks with
      | error fault =>
        rw [hvalue, hrest] at h
        cases h
      | ok others =>
        rw [hvalue, hrest] at h
        cases h
        exact List.forall_mem_cons.mpr ⟨orientation_cases hvalue, ih hrest⟩

/-- The last orientation is 1, or it turns the picture. -/
theorem turn_cases {found : List ℕ} (h : ∀ value ∈ found, value = 1 ∨ 2 ≤ value ∧ value ≤ 8) :
    found.getLast?.getD 1 = 1 ∧ turn found = none ∨
      ∃ value, found.getLast?.getD 1 = value ∧ value ≠ 1 ∧ turn found = some value := by
  unfold turn
  cases hlast : found.getLast? with
  | none => exact .inl ⟨rfl, rfl⟩
  | some value =>
    rcases h value (List.mem_of_getLast? hlast) with rfl | hrange
    · exact .inl ⟨rfl, rfl⟩
    · exact .inr ⟨value, rfl, by omega, Option.filter_eq_some_iff.mpr ⟨rfl, decide_eq_true hrange⟩⟩

theorem turn_range {found : List ℕ} {value : ℕ} (h : turn found = some value) :
    2 ≤ value ∧ value ≤ 8 :=
  of_decide_eq_true (Option.filter_eq_some_iff.mp h).2

/-- The block that is written for a turn has it for its orientation. -/
theorem orientations_turn (hparse : ReadsBack parse) (found : List ℕ) :
    ∃ left, orientations parse ((turn found).toList.map orientationExif) = .ok left ∧
      turn left = turn found := by
  cases hturn : turn found with
  | none => exact ⟨[], rfl, rfl⟩
  | some value =>
    have hrange := turn_range hturn
    refine ⟨[value], ?_, Option.filter_eq_some_iff.mpr ⟨rfl, decide_eq_true hrange⟩⟩
    change orientations parse [orientationExif value] = _
    rw [orientations_cons, orientation_orientationExif hparse hrange.1 hrange.2]
    rfl

/-- A parser of blocks with the high byte first, whose first entry is the orientation. -/
def firstEntry : ExifParser := fun exif ↦
  if exif.take 12 = (orientationExif 1).take 12 then .ok (some (ofBig ((exif.drop 18).take 2)))
  else .error .exif

theorem readsBack_firstEntry : ReadsBack firstEntry := by
  intro value htwo height
  have hread : ∀ v ≤ 8, firstEntry (orientationExif v) = .ok (some (v : ℤ)) := by decide
  exact hread value height

end OpenWhistle.Attachments
