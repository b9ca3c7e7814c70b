import OpenWhistle.Foundation.Interleaving
import OpenWhistle.Foundation.Redis
import OpenWhistle.Foundation.Text

/-!
# Attempts that count

Every guess at a password, at a code or at the setup token counts on a Redis key before it is checked:
INCR tells how many there are by now, past the limit the attempt takes its count back with DECR and is
refused, and otherwise EXPIRE starts the lockout window again. A right password gives its attempt back,
by a script that decrements the counter where there still is one; a right code clears the counter. All
of these are commands of their own, and the key may expire between any two of them.

What lies between the claim of an attempt and its outcome is one operation here, whose answer is drawn:
whether the guess is right. The history, which no command reads, says which life of a key an attempt
was counted in, who holds an admitted attempt or has still to take a refused one back, whose command
created a key, and which commands ran at which time.
-/

set_option autoImplicit false
set_option relaxedAutoImplicit false

namespace OpenWhistle.RateLimit

open Interleaving

/-- The settings, and the folding of case. -/
structure Limits where
  maxLoginAttempts : ℕ
  loginLockoutMinutes : ℕ
  one_le_attempts : 1 ≤ maxLoginAttempts
  one_le_minutes : 1 ≤ loginLockoutMinutes
  casefold : String → String

/-- `_admin_key`. -/
def adminKey (limits : Limits) (username : String) : String :=
  "openwhistle:admin_ratelimit:" ++ limits.casefold (Text.strip username)

/-- `_SETUP_TOKEN_FAILURES`. -/
def setupTokenFailures : String := "openwhistle:setup_token_failures"

/-! ### The commands -/

inductive Op
  | incr (key : String)
  | decr (key : String)
  | expire (key : String) (seconds : ℕ)
  | decrIfExists (key : String)
  | delete (key : String)
  | check
  deriving DecidableEq

@[reducible] def Reply : Op → Type
  | .incr _ => ℤ
  | .decr _ => ℤ
  | .expire _ _ => Unit
  | .decrIfExists _ => Unit
  | .delete _ => Unit
  | .check => Bool

/-- Redis refuses INCR and DECR on a value that is no number. -/
inductive Fault
  | responseError
  deriving DecidableEq

/-- What a command makes of the keys. -/
def effect (now : ℕ) : Op → Redis.Store → Redis.Store
  | .incr key, s => ((Redis.incr s now key).map Prod.snd).getD s
  | .decr key, s => ((Redis.decr s now key).map Prod.snd).getD s
  | .expire key seconds, s => Redis.expire s now key seconds
  | .decrIfExists key, s =>
    if Redis.find s now key = none then s else ((Redis.decr s now key).map Prod.snd).getD s
  | .delete key, s => Redis.delete s key
  | .check, s => s

/-- The count of an attempt: on which key, in which of its lives, and whether it was admitted. -/
structure Claim where
  key : String
  life : ℕ
  granted : Bool
  deriving DecidableEq

structure Counters where
  now : ℕ
  redis : Redis.Store
  /-- How often a key was created. -/
  life : String → ℕ
  creator : String → Option ℕ
  claims : ℕ → Option Claim
  /-- The admitted attempts that were not given back. -/
  admitted : List ℕ
  /-- The refused attempts that still count. -/
  refused : List ℕ
  log : List (ℕ × ℕ × Op)

namespace Counters

/-- A command that creates the key begins a life of it. -/
def begins (s : Counters) (w : ℕ) (key : String) : Counters :=
  if Redis.find s.redis s.now key = none then
    { s with
      life := Function.update s.life key (s.life key + 1)
      creator := Function.update s.creator key (some w) }
  else s

def ran (s : Counters) (w : ℕ) (operation : Op) : Counters :=
  { s with redis := effect s.now operation s.redis, log := s.log ++ [(w, s.now, operation)] }

/-- An attempt has counted up to `n`. -/
def counted (s : Counters) (limits : Limits) (w : ℕ) (key : String) (n : ℤ) : Counters :=
  { s with
    claims := Function.update s.claims w
      (some ⟨key, s.life key, decide (n ≤ limits.maxLoginAttempts)⟩)
    admitted := if n ≤ limits.maxLoginAttempts then w :: s.admitted else s.admitted
    refused := if n ≤ limits.maxLoginAttempts then s.refused else w :: s.refused }

section Begins

variable (s : Counters) (w : ℕ) (key : String)

@[simp] theorem begins_now : (s.begins w key).now = s.now := by unfold begins; split <;> rfl

@[simp] theorem begins_redis : (s.begins w key).redis = s.redis := by unfold begins; split <;> rfl

@[simp] theorem begins_claims : (s.begins w key).claims = s.claims := by unfold begins; split <;> rfl

@[simp] theorem begins_admitted : (s.begins w key).admitted = s.admitted := by
  unfold begins; split <;> rfl

@[simp] theorem begins_refused : (s.begins w key).refused = s.refused := by
  unfold begins; split <;> rfl

@[simp] theorem begins_log : (s.begins w key).log = s.log := by unfold begins; split <;> rfl

variable {s key}

theorem begins_of_find (h : Redis.find s.redis s.now key ≠ none) : s.begins w key = s := if_neg h

theorem begins_of_none (h : Redis.find s.redis s.now key = none) :
    (s.begins w key).life key = s.life key + 1 ∧ (s.begins w key).creator key = some w := by
  unfold begins
  rw [if_pos h]
  exact ⟨Function.update_self .., Function.update_self ..⟩

theorem begins_of_ne {other : String} (hne : key ≠ other) :
    (s.begins w other).life key = s.life key ∧ (s.begins w other).creator key = s.creator key := by
  unfold begins
  split
  · exact ⟨Function.update_of_ne hne .., Function.update_of_ne hne ..⟩
  · exact ⟨rfl, rfl⟩

end Begins

end Counters

variable (limits : Limits)

def perform (w : ℕ) : (operation : Op) → Bool → Counters →
    Option (Except Fault (Reply operation) × Counters)
  | .incr key, _, s =>
    match Redis.incr s.redis s.now key with
    | none => some (.error .responseError, s)
    | some (n, _) => some (.ok n, ((s.begins w key).ran w (.incr key)).counted limits w key n)
  | .decr key, _, s =>
    match Redis.decr s.redis s.now key with
    | none => some (.error .responseError, s)
    | some (n, _) =>
      some (.ok n, { (s.begins w key).ran w (.decr key) with refused := s.refused.erase w })
  | .expire key seconds, _, s => some (.ok (), s.ran w (.expire key seconds))
  | .decrIfExists key, _, s =>
    some (.ok (), { s.ran w (.decrIfExists key) with admitted := s.admitted.erase w })
  | .delete key, _, s => some (.ok (), s.ran w (.delete key))
  | .check, right, s => some (.ok right, s)

variable {limits} in
/-- INCR is refused, or counts. -/
theorem perform_incr {w : ℕ} {key : String} {draw : Bool} {s t : Counters}
    {reply : Except Fault ℤ} (h : perform limits w (.incr key) draw s = some (reply, t)) :
    reply = .error .responseError ∧ t = s ∨
      ∃ n store, Redis.incr s.redis s.now key = some (n, store) ∧ reply = .ok n ∧
        t = ((s.begins w key).ran w (.incr key)).counted limits w key n := by
  change (match Redis.incr s.redis s.now key with
    | none => some (.error .responseError, s)
    | some (n, _) => some (.ok n, ((s.begins w key).ran w (.incr key)).counted limits w key n)) =
      some (reply, t) at h
  cases hincr : Redis.incr s.redis s.now key with
  | none =>
    rw [hincr] at h
    cases h
    exact .inl ⟨rfl, rfl⟩
  | some result =>
    rw [hincr] at h
    cases h
    exact .inr ⟨result.1, result.2, rfl, rfl, rfl⟩

variable {limits} in
theorem perform_decr {w : ℕ} {key : String} {draw : Bool} {s t : Counters}
    {reply : Except Fault ℤ} (h : perform limits w (.decr key) draw s = some (reply, t)) :
    reply = .error .responseError ∧ t = s ∨
      ∃ n, reply = .ok n ∧
        t = { (s.begins w key).ran w (.decr key) with refused := s.refused.erase w } := by
  change (match Redis.decr s.redis s.now key with
    | none => some (.error .responseError, s)
    | some (n, _) =>
      some (.ok n, { (s.begins w key).ran w (.decr key) with refused := s.refused.erase w })) =
      some (reply, t) at h
  cases hdecr : Redis.decr s.redis s.now key with
  | none =>
    rw [hdecr] at h
    cases h
    exact .inl ⟨rfl, rfl⟩
  | some result =>
    rw [hdecr] at h
    cases h
    exact .inr ⟨result.1, rfl, rfl⟩

/-- Time passes. -/
def environment (milliseconds : ℕ) (s : Counters) : Option Counters :=
  some { s with now := s.now + milliseconds }

def semantics : Semantics Op Reply Fault Counters Bool ℕ where
  perform := perform limits
  environment := environment

/-! ### The functions of the limiter -/

abbrev Handler (α : Type) := Program Op Reply Fault α

abbrev call (operation : Op) : Handler (Reply operation) := Program.call operation

/-- `_claim`: a refused attempt neither counts nor extends the lock. -/
def claim (key : String) : Handler Bool := do
  let count ← call (.incr key)
  if limits.maxLoginAttempts < count then do
    let _ ← call (.decr key)
    return false
  else do
    call (.expire key (limits.loginLockoutMinutes * 60))
    return true

def claimAdminAttempt (username : String) : Handler Bool := claim limits (adminKey limits username)

/-- A counter that has expired meanwhile stays gone. -/
def releaseAdminAttempt (username : String) : Handler Unit :=
  call (.decrIfExists (adminKey limits username))

def resetAdminLoginAttempts (username : String) : Handler Unit :=
  call (.delete (adminKey limits username))

def claimSetupTokenAttempt : Handler Bool := claim limits setupTokenFailures

def resetSetupTokenFailures : Handler Unit := call (.delete setupTokenFailures)

/-! ### The requests that count -/

inductive Request
  | login (username : String)
  | loginMfa (username : String)
  | accountPassword (username : String)
  | setup
  deriving DecidableEq

inductive Answer
  | locked
  | wrong
  | right
  deriving DecidableEq

/-- A guess: it is claimed, checked, and settled where it is right. -/
def guess (claimed : Handler Bool) (settle : Handler Unit) : Handler Answer := do
  let admitted ← claimed
  if admitted = false then return .locked
  else do
    let right ← call .check
    if right then do
      settle
      return .right
    else return .wrong

/-- The password of the sign-in form, local or of the directory. -/
def loginPost (username : String) : Handler Answer :=
  guess (claimAdminAttempt limits username) (releaseAdminAttempt limits username)

/-- The code of the second step. -/
def loginMfaPost (username : String) : Handler Answer :=
  guess (claimAdminAttempt limits username) (resetAdminLoginAttempts limits username)

/-- The password and the code of a password change. -/
def accountPassword (username : String) : Handler Answer :=
  guess (claimAdminAttempt limits username) (resetAdminLoginAttempts limits username)

def setupPost : Handler Answer := guess (claimSetupTokenAttempt limits) resetSetupTokenFailures

def handler : Request → Handler Answer
  | .login username => loginPost limits username
  | .loginMfa username => loginMfaPost limits username
  | .accountPassword username => accountPassword limits username
  | .setup => setupPost limits

abbrev Step := Event Request Fault Bool ℕ

abbrev Requests := System Counters (Handler Answer)

end OpenWhistle.RateLimit
