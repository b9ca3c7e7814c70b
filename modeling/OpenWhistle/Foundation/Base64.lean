import OpenWhistle.Foundation.Bytes

/-!
# Base64 for URLs

Three bytes are four letters of six bits each, the last group filled up with equals signs. A lenient
reader leaves out what is no letter, takes the two letters of the plain alphabet as well, and stops
at the equals signs that complete a group. What was written is read back.
-/

set_option autoImplicit false
set_option relaxedAutoImplicit false

namespace Base64

/-- The code of the letter for six bits. -/
def letter (n : ℕ) : UInt8 :=
  if n < 26 then UInt8.ofNat (65 + n)
  else if n < 52 then UInt8.ofNat (71 + n)
  else if n < 62 then UInt8.ofNat (n - 4)
  else if n = 62 then 45
  else 95

/-- The six bits of a letter; none of another character. -/
def bits (c : UInt8) : Option ℕ :=
  let n := c.toNat
  if 65 ≤ n ∧ n ≤ 90 then some (n - 65)
  else if 97 ≤ n ∧ n ≤ 122 then some (n - 71)
  else if 48 ≤ n ∧ n ≤ 57 then some (n + 4)
  else if n = 45 ∨ n = 43 then some 62
  else if n = 95 ∨ n = 47 then some 63
  else none

def pad : UInt8 := 61

/-- `base64.urlsafe_b64encode`. -/
def encode : Bytes → Bytes
  | [] => []
  | [a] => [letter (a.toNat / 4), letter (a.toNat % 4 * 16), pad, pad]
  | [a, b] =>
    [letter (a.toNat / 4), letter (a.toNat % 4 * 16 + b.toNat / 16), letter (b.toNat % 16 * 4), pad]
  | a :: b :: c :: bytes =>
    letter (a.toNat / 4) :: letter (a.toNat % 4 * 16 + b.toNat / 16) ::
      letter (b.toNat % 16 * 4 + c.toNat / 64) :: letter (c.toNat % 64) :: encode bytes

/-- The rest of a text, behind `quad` letters of a group of which `left` is not used up, and behind
equals signs. -/
def decodeFrom : (quad left pads : ℕ) → Bytes → Option Bytes
  | quad, _, _, [] => if quad = 0 then some [] else none
  | quad, left, pads, c :: text =>
    if c = pad then
      if 2 ≤ quad then
        if 4 ≤ quad + (pads + 1) then some [] else decodeFrom quad left (pads + 1) text
      else decodeFrom quad left pads text
    else
      match bits c with
      | none => decodeFrom quad left pads text
      | some n =>
        if quad = 0 then decodeFrom 1 n 0 text
        else if quad = 1 then
          (decodeFrom 2 (n % 16) 0 text).map (UInt8.ofNat (left * 4 + n / 16) :: ·)
        else if quad = 2 then
          (decodeFrom 3 (n % 4) 0 text).map (UInt8.ofNat (left * 16 + n / 4) :: ·)
        else (decodeFrom 0 0 0 text).map (UInt8.ofNat (left * 64 + n) :: ·)

/-- `base64.urlsafe_b64decode`: `none` where it raises. -/
def decode (text : Bytes) : Option Bytes := decodeFrom 0 0 0 text

theorem letter_spec : ∀ n < 64, letter n ≠ pad ∧ bits (letter n) = some n := by decide +kernel

/-- A letter is read. -/
theorem decodeFrom_letter {n : ℕ} (hn : n < 64) (quad left pads : ℕ) (text : Bytes) :
    decodeFrom quad left pads (letter n :: text) =
      if quad = 0 then decodeFrom 1 n 0 text
      else if quad = 1 then
        (decodeFrom 2 (n % 16) 0 text).map (UInt8.ofNat (left * 4 + n / 16) :: ·)
      else if quad = 2 then
        (decodeFrom 3 (n % 4) 0 text).map (UInt8.ofNat (left * 16 + n / 4) :: ·)
      else (decodeFrom 0 0 0 text).map (UInt8.ofNat (left * 64 + n) :: ·) := by
  obtain ⟨hpad, hbits⟩ := letter_spec n hn
  rw [decodeFrom, if_neg hpad, hbits]

/-- The first byte of a group, and what its second letter leaves. -/
theorem first_byte (a : ℕ) {rest : ℕ} (hrest : rest < 16) :
    a / 4 * 4 + (a % 4 * 16 + rest) / 16 = a ∧ (a % 4 * 16 + rest) % 16 = rest := by
  omega

theorem second_byte (b : ℕ) {rest : ℕ} (hrest : rest < 4) :
    b / 16 * 16 + (b % 16 * 4 + rest) / 4 = b ∧ (b % 16 * 4 + rest) % 4 = rest := by
  omega

/-- What was written is read back. -/
theorem decode_encode (bytes : Bytes) : decode (encode bytes) = some bytes := by
  induction bytes using encode.induct with
  | case1 => rfl
  | case2 a =>
    have ha := a.toNat_lt
    have hfirst := first_byte a.toNat (show 0 < 16 by omega)
    rw [Nat.add_zero] at hfirst
    rw [encode, decode, decodeFrom_letter (by omega), if_pos rfl, decodeFrom_letter (by omega),
      if_neg (by decide), if_pos rfl, hfirst.1, hfirst.2, UInt8.ofNat_toNat]
    rfl
  | case3 a b =>
    have ha := a.toNat_lt
    have hb := b.toNat_lt
    have hfirst := first_byte a.toNat (show b.toNat / 16 < 16 by omega)
    have hsecond := second_byte b.toNat (show 0 < 4 by omega)
    rw [Nat.add_zero] at hsecond
    rw [encode, decode, decodeFrom_letter (by omega), if_pos rfl, decodeFrom_letter (by omega),
      if_neg (by decide), if_pos rfl, decodeFrom_letter (by omega), if_neg (by decide),
      if_neg (by decide), if_pos rfl, hfirst.1, hfirst.2, hsecond.1, hsecond.2, UInt8.ofNat_toNat,
      UInt8.ofNat_toNat]
    rfl
  | case4 a b c bytes ih =>
    have ha := a.toNat_lt
    have hb := b.toNat_lt
    have hc := c.toNat_lt
    have hfirst := first_byte a.toNat (show b.toNat / 16 < 16 by omega)
    have hsecond := second_byte b.toNat (show c.toNat / 64 < 4 by omega)
    have hthird : c.toNat / 64 * 64 + c.toNat % 64 = c.toNat := by omega
    rw [encode, decode, decodeFrom_letter (by omega), if_pos rfl, decodeFrom_letter (by omega),
      if_neg (by decide), if_pos rfl, decodeFrom_letter (by omega), if_neg (by decide),
      if_neg (by decide), if_pos rfl, decodeFrom_letter (by omega), if_neg (by decide),
      if_neg (by decide), if_neg (by decide), hfirst.1, hfirst.2, hsecond.1, hsecond.2, hthird,
      UInt8.ofNat_toNat, UInt8.ofNat_toNat, UInt8.ofNat_toNat]
    rw [decode] at ih
    rw [ih]
    rfl

end Base64
