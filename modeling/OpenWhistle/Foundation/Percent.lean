import OpenWhistle.Foundation.Bytes
import OpenWhistle.Foundation.Json

/-!
# Percent-encoding

Bytes as a text of letters, digits and four marks; every other byte is a percent sign with its two
digits. What was encoded is decoded to the same bytes.
-/

set_option autoImplicit false
set_option relaxedAutoImplicit false

namespace Percent

/-- Bytes that stay as they are. -/
def isUnreserved (b : ℕ) : Bool :=
  (decide (48 ≤ b) && decide (b ≤ 57)) || (decide (65 ≤ b) && decide (b ≤ 90)) ||
    (decide (97 ≤ b) && decide (b ≤ 122)) || decide (b ∈ [45, 46, 95, 126])

def hexDigit (n : ℕ) : Char := n.digitChar.toUpper

def quoteByte (b : ℕ) : List Char :=
  if isUnreserved b then [Char.ofNat b] else ['%', hexDigit (b / 16), hexDigit (b % 16)]

/-- `quote(..., safe="")`, on bytes. -/
def quote (bytes : Bytes) : List Char := bytes.flatMap fun b ↦ quoteByte b.toNat

/-- `quote`, on a text with characters that are safe. -/
def quoteText (safe text : List Char) : List Char :=
  text.flatMap fun c ↦ if c ∈ safe then [c] else quote (String.utf8EncodeChar c)

/-- `none` where a percent sign has no two digits behind it, or a character is not of ASCII. -/
def unquote : List Char → Option Bytes
  | [] => some []
  | '%' :: a :: b :: text => do
    let a ← Json.hexValue a
    let b ← Json.hexValue b
    let bytes ← unquote text
    return UInt8.ofNat (16 * a + b) :: bytes
  | c :: text =>
    if c = '%' ∨ 128 ≤ c.toNat then none else (unquote text).map (UInt8.ofNat c.toNat :: ·)

theorem quoteByte_cases : ∀ b < 256,
    (isUnreserved b = true ∧ Char.ofNat b ≠ '%' ∧ (Char.ofNat b).toNat = b ∧ b < 128) ∨
      isUnreserved b = false ∧ Json.hexValue (hexDigit (b / 16)) = some (b / 16) ∧
        Json.hexValue (hexDigit (b % 16)) = some (b % 16) := by
  decide +kernel

theorem isUnreserved_hexDigit : ∀ n < 16, isUnreserved (hexDigit n).toNat = true := by
  decide

theorem shown_of_isUnreserved {b : ℕ} (h : isUnreserved b = true) :
    0x20 < b ∧ b < 0x7f ∧ b ∉ [0x22, 0x2F, 0x5C] := by
  simp only [isUnreserved, Bool.or_eq_true, Bool.and_eq_true, decide_eq_true_eq, List.mem_cons,
    List.not_mem_nil, or_false] at h ⊢
  omega

/-- A character of an encoded byte is a percent sign, or one that stays as it is. -/
theorem mem_quoteByte {b : ℕ} (hb : b < 256) {c : Char} (hc : c ∈ quoteByte b) :
    c = '%' ∨ isUnreserved c.toNat = true := by
  unfold quoteByte at hc
  rcases quoteByte_cases b hb with ⟨hplain, -, hback, -⟩ | ⟨hplain, -, -⟩
  · rw [if_pos hplain, List.mem_singleton] at hc
    rw [hc, hback]
    exact .inr hplain
  · rw [if_neg (by rw [hplain]; exact Bool.false_ne_true)] at hc
    rcases List.mem_cons.mp hc with hc | hc
    · exact .inl hc
    · rcases List.mem_cons.mp hc with rfl | hc
      · exact .inr (isUnreserved_hexDigit _ (Nat.div_lt_of_lt_mul hb))
      · rw [List.mem_singleton.mp hc]
        exact .inr (isUnreserved_hexDigit _ (Nat.mod_lt _ (by decide)))

/-- Every character of encoded bytes is of printable ASCII, no quote and no slash of either kind. -/
theorem shown_quote {bytes : Bytes} {c : Char} (hc : c ∈ quote bytes) :
    0x20 < c.toNat ∧ c.toNat < 0x7f ∧ c.toNat ∉ [0x22, 0x2F, 0x5C] := by
  obtain ⟨b, -, hc⟩ := List.mem_flatMap.mp hc
  rcases mem_quoteByte b.toNat_lt hc with rfl | hplain
  · decide
  · exact shown_of_isUnreserved hplain

theorem quote_ne_nil {bytes : Bytes} (h : bytes ≠ []) : quote bytes ≠ [] := by
  obtain ⟨b, bytes, rfl⟩ := List.exists_cons_of_ne_nil h
  rw [quote, List.flatMap_cons]
  unfold quoteByte
  split_ifs
  · exact List.cons_ne_nil _ _
  · exact List.cons_ne_nil _ _

theorem unquote_quoteByte (b : UInt8) (text : List Char) :
    unquote (quoteByte b.toNat ++ text) = (unquote text).map (b :: ·) := by
  rcases quoteByte_cases b.toNat b.toNat_lt with
    ⟨hplain, hpercent, hback, hascii⟩ | ⟨hplain, hhigh, hlow⟩
  · have hkept : ¬(Char.ofNat b.toNat = '%' ∨ 128 ≤ (Char.ofNat b.toNat).toNat) := by
      rw [hback, not_or, Nat.not_le]
      exact ⟨hpercent, hascii⟩
    rw [quoteByte, if_pos hplain, List.singleton_append, unquote]
    · rw [if_neg hkept, hback, UInt8.ofNat_toNat]
    · intro a c rest heq
      exact absurd heq hpercent
  · have hbyte : 16 * (b.toNat / 16) + b.toNat % 16 = b.toNat := Nat.div_add_mod _ _
    rw [quoteByte, hplain]
    simp only [Bool.false_eq_true, if_false, List.cons_append, List.nil_append]
    rw [unquote, hhigh, hlow]
    simp only [Option.bind_eq_bind, Option.bind_some, hbyte, UInt8.ofNat_toNat]
    cases unquote text <;> rfl

/-- What was encoded is decoded. -/
@[simp] theorem unquote_quote (bytes : Bytes) : unquote (quote bytes) = some bytes := by
  induction bytes with
  | nil => rfl
  | cons b bytes ih =>
    have hstep := unquote_quoteByte b (quote bytes)
    rw [ih] at hstep
    exact hstep

end Percent
