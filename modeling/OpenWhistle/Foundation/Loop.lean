import Mathlib.Data.Nat.Notation

/-!
# While loops

A loop is told by what one turn of it comes to: its condition fails, its body returns or raises, or
the body reaches its end and the loop goes on from another state. Nothing says by itself that a loop
ends. It does where a measure of the state falls from turn to turn, and then its body is entered no
more often than the measure says; and the result is the value of any function that every turn
leaves as it is.
-/

set_option autoImplicit false
set_option relaxedAutoImplicit false

namespace Loop

/-- What one turn of a loop comes to. -/
inductive Turn (σ ρ : Type)
  /-- The condition fails, and the loop is left with this. -/
  | leave (result : ρ)
  /-- The body returns or raises this. -/
  | finish (result : ρ)
  | again (state : σ)

variable {σ ρ : Type} {turn : σ → Turn σ ρ}

/-- From a state on the body of the loop is entered so many times, and then there is a result. -/
inductive Ends (turn : σ → Turn σ ρ) : ℕ → σ → ρ → Prop
  | leave {state : σ} {result : ρ} (h : turn state = .leave result) : Ends turn 0 state result
  | finish {state : σ} {result : ρ} (h : turn state = .finish result) : Ends turn 1 state result
  | again {n : ℕ} {state next : σ} {result : ρ} (h : turn state = .again next)
    (hrest : Ends turn n next result) : Ends turn (n + 1) state result

/-- A loop has one result, after one number of turns. -/
theorem Ends.unique {n m : ℕ} {state : σ} {result other : ρ} (h : Ends turn n state result)
    (h' : Ends turn m state other) : n = m ∧ result = other := by
  induction h generalizing m with
  | leave hleave =>
    cases h' with
    | leave hother => exact ⟨rfl, Turn.leave.inj (hleave.symm.trans hother)⟩
    | finish hother => exact absurd (hleave.symm.trans hother) nofun
    | again hother _ => exact absurd (hleave.symm.trans hother) nofun
  | finish hfinish =>
    cases h' with
    | leave hother => exact absurd (hfinish.symm.trans hother) nofun
    | finish hother => exact ⟨rfl, Turn.finish.inj (hfinish.symm.trans hother)⟩
    | again hother _ => exact absurd (hfinish.symm.trans hother) nofun
  | again hagain _ ih =>
    cases h' with
    | leave hother => exact absurd (hagain.symm.trans hother) nofun
    | finish hother => exact absurd (hagain.symm.trans hother) nofun
    | again hother hrest =>
      rw [← Turn.again.inj (hagain.symm.trans hother)] at hrest
      obtain ⟨hn, hresult⟩ := ih hrest
      exact ⟨congrArg (· + 1) hn, hresult⟩

/-- A measure that is positive where the body is entered, and falls with every turn, bounds the
number of turns. The result is the value that every turn leaves as it is. -/
theorem exists_ends (turn : σ → Turn σ ρ) (measure : σ → ℕ) (value : σ → ρ)
    (hleave : ∀ state result, turn state = .leave result → value state = result)
    (hfinish : ∀ state result, turn state = .finish result →
      0 < measure state ∧ value state = result)
    (hagain : ∀ state next, turn state = .again next →
      measure next < measure state ∧ value state = value next) (state : σ) :
    ∃ n ≤ measure state, Ends turn n state (value state) := by
  induction hbound : measure state using Nat.strongRecOn generalizing state with
  | ind bound ih =>
    cases hturn : turn state with
    | leave result =>
      rw [hleave state result hturn]
      exact ⟨0, Nat.zero_le _, .leave hturn⟩
    | finish result =>
      obtain ⟨hpos, hvalue⟩ := hfinish state result hturn
      rw [hvalue]
      exact ⟨1, hbound ▸ hpos, .finish hturn⟩
    | again next =>
      obtain ⟨hless, hvalue⟩ := hagain state next hturn
      obtain ⟨n, hn, hends⟩ := ih (measure next) (hbound ▸ hless) next rfl
      rw [hvalue]
      exact ⟨n + 1, hbound ▸ Nat.succ_le_of_lt (Nat.lt_of_le_of_lt hn hless), .again hturn hends⟩

end Loop
