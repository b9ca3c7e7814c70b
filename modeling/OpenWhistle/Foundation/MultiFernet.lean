import Mathlib.Data.Nat.Notation

/-!
# Several keys at once

An instance of several keys makes its tokens under the first of them and opens a token under
whichever of them opens it. So a key can be replaced: the new one comes first, every token is opened
and made again, and what was made again opens under the new key alone.

What a key makes and opens is a parameter, of which the one thing known is that a token it made can
be opened again.
-/

set_option autoImplicit false
set_option relaxedAutoImplicit false

/-- A key, as what it makes and opens. -/
structure Sealing where
  encipher : (data : String) → (iv : ℕ) → String
  /-- `none` where the package raises `InvalidToken`. -/
  decrypt : String → Option String
  decrypt_encipher : ∀ data iv, decrypt (encipher data iv) = some data

/-- The keys of an instance; there is always a first one. -/
structure MultiFernet where
  current : Sealing
  previous : List Sealing

namespace MultiFernet

variable (fernets : MultiFernet) {token new data : String} {iv : ℕ}

/-- `encrypt`: under the first key. -/
def encrypt (data : String) (iv : ℕ) : String := fernets.current.encipher data iv

/-- `decrypt`: the first key that opens the token. -/
def decrypt (token : String) : Option String :=
  (fernets.current :: fernets.previous).findSome? fun fernet ↦ fernet.decrypt token

/-- The first key without the others. -/
def alone : MultiFernet := ⟨fernets.current, []⟩

/-- A token, opened and made again. -/
def rotate (token : String) (iv : ℕ) : Option String :=
  (fernets.decrypt token).map fun data ↦ fernets.encrypt data iv

variable {fernets}

/-- The first key is tried first. -/
theorem decrypt_of_alone (halone : fernets.alone.decrypt token = some data) :
    fernets.decrypt token = some data := by
  cases hcurrent : fernets.current.decrypt token with
  | none => simp [decrypt, alone, hcurrent] at halone
  | some held => simpa [decrypt, alone, hcurrent] using halone

theorem decrypt_alone_encrypt (data : String) (iv : ℕ) :
    fernets.alone.decrypt (fernets.encrypt data iv) = some data := by
  have hcurrent := fernets.current.decrypt_encipher data iv
  simp [decrypt, alone, encrypt, hcurrent]

/-- What was made again holds the same data, and the first key alone opens it. -/
theorem decrypt_of_rotate (hrotate : fernets.rotate token iv = some new) :
    ∃ data, fernets.decrypt token = some data ∧ fernets.alone.decrypt new = some data := by
  obtain ⟨data, hdata, rfl⟩ := Option.map_eq_some_iff.mp hrotate
  exact ⟨data, hdata, decrypt_alone_encrypt data iv⟩

end MultiFernet
