import Mathlib.Logic.Function.Basic

/-!
# Programs of atomic operations

A handler of a server talks to its stores one operation at a time: a script at a key-value store, a
statement at a database, the drawing of a random value. Between two operations anything may happen
elsewhere, within one nothing. A `Program` is such a handler: a tree whose inner nodes are
operations and whose branches are the replies, with exceptions as a second way to end.

`Program.call` performs one operation, `Program.attempt` is `try`/`except` as a value, and the monad
instance gives the sequencing and the `do` notation. The interleaving of many programs over one
shared state is the subject of `Interleaving`.
-/

set_option autoImplicit false
set_option relaxedAutoImplicit false

namespace Interleaving

/-- A program of atomic operations from `Op`. An operation answers with a value of its reply type,
or raises an exception of type `ε`. -/
inductive Program (Op : Type) (Reply : Op → Type) (ε α : Type)
  | ret (value : α)
  | raise (exception : ε)
  | perform (operation : Op) (next : Except ε (Reply operation) → Program Op Reply ε α)

namespace Program

variable {Op : Type} {Reply : Op → Type} {ε α β : Type}

/-- Sequencing: the second program starts where the first one returns; an exception of the first
one ends both. -/
def bind : Program Op Reply ε α → (α → Program Op Reply ε β) → Program Op Reply ε β
  | .ret value, rest => rest value
  | .raise exception, _ => .raise exception
  | .perform operation next, rest => .perform operation fun reply ↦ (next reply).bind rest

instance : Monad (Program Op Reply ε) where
  pure := .ret
  bind := bind

/-- Performs one operation and returns its reply. -/
def call (operation : Op) : Program Op Reply ε (Reply operation) :=
  .perform operation fun
    | .ok reply => .ret reply
    | .error exception => .raise exception

/-- Runs a program and returns how it ended: with a value, or with an exception that is thereby
caught. -/
def attempt : Program Op Reply ε α → Program Op Reply ε (Except ε α)
  | .ret value => .ret (.ok value)
  | .raise exception => .ret (.error exception)
  | .perform operation next => .perform operation fun reply ↦ (next reply).attempt

/-- Runs a program and one operation after it, whether it returns or raises. -/
def ensuring (program : Program Op Reply ε α) (cleanup : Op) : Program Op Reply ε α := do
  let result ← program.attempt
  let _ ← call cleanup
  match result with
  | .ok value => return value
  | .error exception => .raise exception

/-- Looks a row up, and goes on with it if it may be opened. A row that may not is as good as none. -/
def withAuthorized {ρ : Type} (lookUp : Program Op Reply ε (Option ρ)) (mayOpen : ρ → Bool)
    (refuse : Program Op Reply ε α) (route : ρ → Program Op Reply ε α) : Program Op Reply ε α := do
  let found ← lookUp
  match found.filter mayOpen with
  | none => refuse
  | some row => route row

/-- A program as a part of a larger system: its operations are some of the operations there. -/
def lift {Op' : Type} {Reply' : Op' → Type} (into : Op → Op')
    (reply : ∀ operation, Reply' (into operation) → Reply operation) :
    Program Op Reply ε α → Program Op' Reply' ε α
  | .ret value => .ret value
  | .raise exception => .raise exception
  | .perform operation next =>
    .perform (into operation) fun result ↦ (next (result.map (reply operation))).lift into reply

/-- Every operation the program may perform, whatever the replies, is one of the allowed ones. -/
def Within (allowed : Op → Prop) : Program Op Reply ε α → Prop
  | .ret _ => True
  | .raise _ => True
  | .perform operation next => allowed operation ∧ ∀ result, (next result).Within allowed

/-- The value of a program that has returned. -/
def returned : Program Op Reply ε α → Option α
  | .ret value => some value
  | _ => none

/-- The operation a program performs next. -/
def pending : Program Op Reply ε α → Option Op
  | .perform operation _ => some operation
  | _ => none

/-- A program has ended when it has no operation left, by a value or by an exception. -/
def Ended (program : Program Op Reply ε α) : Prop := program.pending = none

instance (program : Program Op Reply ε α) : Decidable program.Ended :=
  match program with
  | .ret _ => isTrue rfl
  | .raise _ => isTrue rfl
  | .perform _ _ => isFalse nofun

/-! ### Programs as parts of larger systems -/

section Lift

variable {Op' : Type} {Reply' : Op' → Type} (into : Op → Op')
  (reply : ∀ operation, Reply' (into operation) → Reply operation)

theorem lift_bind (program : Program Op Reply ε α) (rest : α → Program Op Reply ε β) :
    (program >>= rest).lift into reply =
      program.lift into reply >>= fun value ↦ (rest value).lift into reply := by
  induction program with
  | ret value => rfl
  | raise exception => rfl
  | perform operation next ih =>
    show Program.perform _ _ = Program.perform _ _
    congr 1
    funext result
    exact ih _

theorem lift_call (operation : Op) :
    (call operation : Program Op Reply ε (Reply operation)).lift into reply =
      (call (into operation) >>= fun value ↦ pure (reply operation value)) := by
  show Program.perform _ _ = Program.perform _ _
  congr 1
  funext result
  cases result <;> rfl

end Lift

/-! ### The operations of a program -/

theorem within_call {allowed : Op → Prop} {operation : Op} (h : allowed operation) :
    (call operation : Program Op Reply ε (Reply operation)).Within allowed := by
  refine ⟨h, fun result ↦ ?_⟩
  cases result with
  | ok reply => trivial
  | error exception => trivial

/-- Sequencing stays within the operations of its parts. -/
theorem Within.bind {allowed : Op → Prop} {rest : α → Program Op Reply ε β}
    {program : Program Op Reply ε α} (h : program.Within allowed)
    (hrest : ∀ value, (rest value).Within allowed) : (program >>= rest).Within allowed := by
  induction program with
  | ret value => exact hrest value
  | raise exception => trivial
  | perform operation next ih => exact ⟨h.1, fun result ↦ ih result (h.2 result)⟩

/-- Catching its exceptions adds no operation. -/
theorem Within.attempt {allowed : Op → Prop} {program : Program Op Reply ε α}
    (h : program.Within allowed) : program.attempt.Within allowed := by
  induction program with
  | ret value => trivial
  | raise exception => trivial
  | perform operation next ih => exact ⟨h.1, fun result ↦ ih result (h.2 result)⟩

theorem Within.imp {allowed permitted : Op → Prop}
    (himp : ∀ operation, allowed operation → permitted operation)
    {program : Program Op Reply ε α} (h : program.Within allowed) : program.Within permitted := by
  induction program with
  | ret value => trivial
  | raise exception => trivial
  | perform operation next ih =>
    exact ⟨himp operation h.1, fun result ↦ ih result (h.2 result)⟩

end Program

end Interleaving
