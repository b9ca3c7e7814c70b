import OpenWhistle.Accounts.Users
import OpenWhistle.Foundation.Marks
import Mathlib.Data.List.Count

/-!
# A TOTP code is used once

A code is accepted in its own step of thirty seconds and in the one on either side, and its use is
noted under the account and the code for ninety seconds. The three steps last no longer than the
note, wherever in them the code was used, and so it is refused for the rest of them. That codes of
other steps, or of another secret of the account, may be the same only makes for more notes.

The codes themselves are any function of the secret and the step.
-/

set_option autoImplicit false
set_option relaxedAutoImplicit false

namespace OpenWhistle.Mfa

/-- `timecode`, of a time in milliseconds. It is taken of the local time of the process, in a zone
without daylight saving. -/
def timecode (now : ℕ) : ℤ := (now / 1000 / 30 : ℕ)

/-- Whether a step's code is accepted: the step is this one, or one on either side. -/
def inWindow (step : ℤ) (now : ℕ) : Prop := timecode now - 1 ≤ step ∧ step ≤ timecode now + 1

instance decidableInWindow (step : ℤ) (now : ℕ) : Decidable (inWindow step now) :=
  inferInstanceAs (Decidable (_ ∧ _))

variable (codeAt : String → ℤ → String)

/-- `totp.verify`, with a `valid_window` of 1. -/
def verifyCode (secret code : String) (now : ℕ) : Bool :=
  [-1, 0, 1].any fun offset ↦ decide (code = codeAt secret (timecode now + offset))

def verifyTotp (now : ℕ) (secret code : String) : Bool :=
  if Accounts.isTotpCode code then verifyCode codeAt secret code now else false

def totpUsedKey (userId code : String) : String :=
  "openwhistle:totp_used:" ++ userId ++ ":" ++ code

def consumeTotp (redis : Redis.Store) (now : ℕ) (userId secret code : String) :
    Bool × Redis.Store :=
  if verifyTotp codeAt now secret code then
    match Redis.setNx redis now (totpUsedKey userId code) "1" 90 with
    | some redis => (true, redis)
    | none => (false, redis)
  else (false, redis)

/-! ### Runs -/

/-- A key under which no use of a code is noted. -/
structure OtherKey where
  key : String
  ne_totpUsedKey : ∀ userId code, key ≠ totpUsedKey userId code

/-- What happens, some milliseconds after what came before. -/
inductive Event
  | consume (elapsed : ℕ) (userId secret code : String)
  | other (elapsed : ℕ) (key : OtherKey) (entry : Option Redis.Entry)

/-- A call that succeeded. -/
structure Use where
  userId : String
  secret : String
  code : String
  now : ℕ

structure Uses where
  redis : Redis.Store
  clock : ℕ
  /-- The last of them first. -/
  uses : List Use

def Uses.next (s : Uses) : Event → Uses
  | .consume elapsed userId secret code =>
    let now := s.clock + elapsed
    let result := consumeTotp codeAt s.redis now userId secret code
    { redis := result.2
      clock := now
      uses := if result.1 then ⟨userId, secret, code, now⟩ :: s.uses else s.uses }
  | .other elapsed key entry =>
    { s with redis := Function.update s.redis key.key entry, clock := s.clock + elapsed }

/-- The state after a list of events, of accounts whose codes are not noted as used yet. -/
def usesAfter (redis : Redis.Store) (clock : ℕ) (events : List Event) : Uses :=
  events.foldl (Uses.next codeAt) ⟨redis, clock, []⟩

/-! ### The notes -/

/-- The note that a use leaves. -/
def Use.occasion (use : Use) : Redis.Occasion :=
  ⟨totpUsedKey use.userId use.code, use.now, use.now + 1000 * 90⟩

def Uses.Noted (s : Uses) : Prop := Redis.Spaced s.redis (s.uses.map Use.occasion)

variable {codeAt}

variable (codeAt) in
/-- A call succeeds where no use is noted, and notes its own. -/
theorem consumeTotp_cases (redis : Redis.Store) (now : ℕ) (userId secret code : String) :
    consumeTotp codeAt redis now userId secret code = (false, redis) ∨
      verifyTotp codeAt now secret code = true ∧
        Redis.find redis now (totpUsedKey userId code) = none ∧
        consumeTotp codeAt redis now userId secret code =
          (true, Redis.set redis now (totpUsedKey userId code) "1" 90) := by
  unfold consumeTotp
  by_cases hverify : verifyTotp codeAt now secret code = true
  · rw [if_pos hverify]
    cases hset : Redis.setNx redis now (totpUsedKey userId code) "1" 90 with
    | none => exact .inl rfl
    | some next =>
      obtain ⟨hfind, hnext⟩ := Redis.setNx_eq_some hset
      exact .inr ⟨hverify, hfind, by rw [hnext]⟩
  · rw [if_neg hverify]
    exact .inl rfl

theorem Uses.Noted.next {s : Uses} (h : s.Noted) (event : Event) : (s.next codeAt event).Noted := by
  cases event with
  | other elapsed key entry =>
    refine Redis.Spaced.congr h fun occasion hmem ↦ ?_
    obtain ⟨use, _, rfl⟩ := List.mem_map.mp hmem
    exact Function.update_of_ne (key.ne_totpUsedKey use.userId use.code).symm ..
  | consume elapsed userId secret code =>
    unfold Uses.next Uses.Noted
    dsimp only
    rcases consumeTotp_cases codeAt s.redis (s.clock + elapsed) userId secret code with
      hrefused | ⟨_, hfind, htaken⟩
    · rw [hrefused, if_neg Bool.false_ne_true]
      exact h
    · rw [htaken, if_pos rfl, List.map_cons]
      exact Redis.Spaced.cons h hfind le_rfl

variable (codeAt) in
theorem noted_usesAfter (redis : Redis.Store) (clock : ℕ) (events : List Event) :
    (usesAfter codeAt redis clock events).Noted := by
  unfold usesAfter
  have hrun : ∀ s : Uses, s.Noted → (events.foldl (Uses.next codeAt) s).Noted := by
    induction events with
    | nil => exact fun s h ↦ h
    | cons event events ih => exact fun s h ↦ ih _ (h.next event)
  exact hrun _ (Redis.spaced_nil redis)

theorem uses_apart (redis : Redis.Store) (clock : ℕ) (events : List Event) :
    (usesAfter codeAt redis clock events).uses.Pairwise fun later earlier ↦
      later.userId = earlier.userId → later.code = earlier.code →
        earlier.now + 90000 ≤ later.now := by
  have hnoted := (noted_usesAfter codeAt redis clock events).apart
  refine (List.pairwise_map.mp hnoted).imp fun {later earlier} hapart huser hcode ↦ ?_
  refine (hapart ?_).le
  unfold Use.occasion
  rw [huser, hcode]

/-! ### The steps -/

/-- The three steps in which a code is accepted last ninety seconds. -/
theorem lt_of_inWindow {step : ℤ} {earlier later : ℕ} (hearlier : inWindow step earlier)
    (hlater : inWindow step later) : later < earlier + 90000 := by
  obtain ⟨_, hlast⟩ := hearlier
  obtain ⟨hfirst, _⟩ := hlater
  unfold timecode at hfirst hlast
  omega

/-- The use of a code of a step in the time in which the step's code is accepted. -/
def Use.isOf (userId code : String) (step : ℤ) (use : Use) : Bool :=
  decide (use.userId = userId) && decide (use.code = code) && decide (inWindow step use.now)

theorem countP_isOf_le_one {uses : List Use} (userId code : String) (step : ℤ)
    (hapart : uses.Pairwise fun later earlier ↦ later.userId = earlier.userId →
      later.code = earlier.code → earlier.now + 90000 ≤ later.now) :
    uses.countP (Use.isOf userId code step) ≤ 1 := by
  refine Redis.countP_le_one (hapart.imp fun {later earlier} hgap hearlier hlater ↦ ?_)
  -- the earlier use is of the same code in these steps
  unfold Use.isOf at hearlier hlater
  simp only [Bool.and_eq_true, decide_eq_true_eq] at hearlier hlater
  obtain ⟨⟨huser, hcode⟩, hwindow⟩ := hearlier
  obtain ⟨⟨huser', hcode'⟩, hwindow'⟩ := hlater
  have hlong := hgap (huser'.trans huser.symm) (hcode'.trans hcode.symm)
  exact absurd (lt_of_inWindow hwindow hwindow') (not_lt.mpr hlong)

/-- Whatever calls for whatever accounts follow each other, two that succeed for one account with
the same code are at least 90 seconds apart, and of the code of a step at most one succeeds in the
step itself and those on either side. -/
theorem totp_code_is_used_once (codeAt : String → ℤ → String) (redis : Redis.Store) (clock : ℕ)
    (events : List Event) :
    ((usesAfter codeAt redis clock events).uses.Pairwise fun later earlier ↦
      later.userId = earlier.userId → later.code = earlier.code →
        earlier.now + 90000 ≤ later.now) ∧
    ∀ userId secret step,
      (usesAfter codeAt redis clock events).uses.countP
        (Use.isOf userId (codeAt secret step) step) ≤ 1 :=
  ⟨uses_apart redis clock events, fun userId secret step ↦
    countP_isOf_le_one userId (codeAt secret step) step (uses_apart redis clock events)⟩

end OpenWhistle.Mfa
