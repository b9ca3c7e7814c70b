import Mathlib.Data.Nat.Notation

/-!
# Fernet tokens

A token carries its time in clear, its initialisation vector, and the rest: the ciphertext under a
key with the tag over all of it. What the package behind it computes is a parameter, of which the
one thing known is that a token it made can be opened again.
-/

set_option autoImplicit false
set_option relaxedAutoImplicit false

structure Fernet.Token where
  time : ℕ
  iv : ℕ
  sealed : String
  deriving DecidableEq

/-- The keys of an instance, as what they make and open. -/
structure Fernet where
  /-- The ciphertext and the tag. -/
  encipher : (data : String) → (time iv : ℕ) → String
  /-- `none` where the package raises `InvalidToken`. -/
  decrypt : Fernet.Token → Option String
  decrypt_encipher : ∀ data time iv, decrypt ⟨time, iv, encipher data time iv⟩ = some data

namespace Fernet

variable (fernet : Fernet)

/-- `encrypt_at_time`. -/
def encryptAtTime (data : String) (time iv : ℕ) : Token where
  time := time
  iv := iv
  sealed := fernet.encipher data time iv

@[simp] theorem decrypt_encryptAtTime (data : String) (time iv : ℕ) :
    fernet.decrypt (fernet.encryptAtTime data time iv) = some data :=
  fernet.decrypt_encipher data time iv

/-- Tokens that hide nothing: the one law of the parameter can be met. -/
def clear : Fernet where
  encipher data _ _ := data
  decrypt token := some token.sealed
  decrypt_encipher _ _ _ := rfl

end Fernet
