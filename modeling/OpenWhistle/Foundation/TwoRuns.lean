import Mathlib.Data.List.Basic

/-!
# Two runs of one system

A system answers one event after the other. An observer sees the answers to some of the events only.
Two runs look the same to it if a relation between their states survives every event the observer
does not see, on either side, and every event it sees, which both sides answer alike. What the runs
do between two visible events, and how much of it there is, then makes no difference.
-/

set_option autoImplicit false
set_option relaxedAutoImplicit false

namespace TwoRuns

variable {ε ω σ σ₁ σ₂ : Type*}

/-- The state after the events. -/
def run (step : σ → ε → ω × σ) (s : σ) (events : List ε) : σ :=
  events.foldl (fun s e ↦ (step s e).2) s

/-- The answers to the events that are seen. -/
def answers (step : σ → ε → ω × σ) (seen : ε → Bool) : σ → List ε → List ω
  | _, [] => []
  | s, e :: events =>
    if seen e then (step s e).1 :: answers step seen (step s e).2 events
    else answers step seen (step s e).2 events

theorem answers_cons_of_hidden {step : σ → ε → ω × σ} {seen : ε → Bool} {s : σ} {e : ε}
    {events : List ε} (hhidden : seen e = false) :
    answers step seen s (e :: events) = answers step seen (step s e).2 events := by
  rw [answers, hhidden, if_neg Bool.false_ne_true]

theorem answers_cons_of_seen {step : σ → ε → ω × σ} {seen : ε → Bool} {s : σ} {e : ε}
    {events : List ε} (hseen : seen e = true) :
    answers step seen s (e :: events) =
      (step s e).1 :: answers step seen (step s e).2 events := by
  rw [answers, if_pos hseen]

/-- What no step changes, a run does not change. -/
theorem run_frame {α : Type*} {step : σ → ε → ω × σ} (f : σ → α)
    (hstep : ∀ s e, f (step s e).2 = f s) (s : σ) (events : List ε) : f (run step s events) = f s := by
  induction events generalizing s with
  | nil => rfl
  | cons e events ih => exact (ih (step s e).2).trans (hstep s e)

/-- The relation between the two states survives what only one run does, and what both do. -/
structure Unwinds (step₁ : σ₁ → ε → ω × σ₁) (step₂ : σ₂ → ε → ω × σ₂) (seen₁ seen₂ : ε → Bool)
    (alike : σ₁ → σ₂ → Prop) : Prop where
  left : ∀ s₁ s₂ e, alike s₁ s₂ → seen₁ e = false → alike (step₁ s₁ e).2 s₂
  right : ∀ s₁ s₂ e, alike s₁ s₂ → seen₂ e = false → alike s₁ (step₂ s₂ e).2
  answer : ∀ s₁ s₂ e, alike s₁ s₂ → seen₁ e = true → seen₂ e = true →
    (step₁ s₁ e).1 = (step₂ s₂ e).1
  both : ∀ s₁ s₂ e, alike s₁ s₂ → seen₁ e = true → seen₂ e = true →
    alike (step₁ s₁ e).2 (step₂ s₂ e).2

variable {step₁ : σ₁ → ε → ω × σ₁} {step₂ : σ₂ → ε → ω × σ₂} {seen₁ seen₂ : ε → Bool}
  {alike : σ₁ → σ₂ → Prop}

/-- Two runs with the same visible events give the same answers to them. -/
theorem Unwinds.answers_eq (h : Unwinds step₁ step₂ seen₁ seen₂ alike) :
    ∀ (events₁ events₂ : List ε) {s₁ : σ₁} {s₂ : σ₂}, alike s₁ s₂ →
      events₁.filter seen₁ = events₂.filter seen₂ →
      answers step₁ seen₁ s₁ events₁ = answers step₂ seen₂ s₂ events₂ := by
  intro events₁
  induction events₁ with
  | nil =>
    intro events₂
    induction events₂ with
    | nil => exact fun _ _ ↦ rfl
    | cons e events₂ ih =>
      intro s₁ s₂ halike hsame
      have hhidden : seen₂ e = false := by
        cases hseen : seen₂ e with
        | false => rfl
        | true => simp [hseen] at hsame
      rw [List.filter_cons_of_neg (Bool.eq_false_iff.mp hhidden)] at hsame
      rw [answers_cons_of_hidden hhidden]
      exact ih (h.right s₁ s₂ e halike hhidden) hsame
  | cons e events₁ ih =>
    intro events₂ s₁ s₂ halike hsame
    cases hseen : seen₁ e with
    | false =>
      rw [List.filter_cons_of_neg (Bool.eq_false_iff.mp hseen)] at hsame
      rw [answers_cons_of_hidden hseen]
      exact ih events₂ (h.left s₁ s₂ e halike hseen) hsame
    | true =>
      rw [List.filter_cons_of_pos hseen] at hsame
      -- the other run goes on until it answers the same event
      induction events₂ generalizing s₂ with
      | nil => exact nomatch hsame
      | cons e₂ events₂ ih₂ =>
        cases hseen₂ : seen₂ e₂ with
        | false =>
          rw [List.filter_cons_of_neg (Bool.eq_false_iff.mp hseen₂)] at hsame
          rw [answers_cons_of_hidden hseen₂]
          exact ih₂ (h.right s₁ s₂ e₂ halike hseen₂) hsame
        | true =>
          rw [List.filter_cons_of_pos hseen₂] at hsame
          obtain ⟨rfl, hrest⟩ := List.cons.inj hsame
          rw [answers_cons_of_seen hseen, answers_cons_of_seen hseen₂,
            h.answer s₁ s₂ e halike hseen hseen₂,
            ih events₂ (h.both s₁ s₂ e halike hseen hseen₂) hrest]

end TwoRuns
