import Mathlib.Logic.Basic

/-!
# Machines

A machine takes one event after the other; an event that cannot happen in a state has no next state.
A property that every step keeps whose event meets a condition holds after every run whose steps all
meet it.
-/

set_option autoImplicit false
set_option relaxedAutoImplicit false

namespace Machine

variable {σ ε : Type*}

/-- The state after a list of events, when every one of them can happen in turn. -/
def run (step : σ → ε → Option σ) (s : σ) : List ε → Option σ
  | [] => some s
  | event :: events => (step s event).bind fun t ↦ run step t events

/-- Every step of the run satisfies a condition on the state it starts from and on its event. -/
def Meets (step : σ → ε → Option σ) (condition : σ → ε → Prop) (s : σ) : List ε → Prop
  | [] => True
  | event :: events => condition s event ∧ ∀ t ∈ step s event, Meets step condition t events

instance decidableMeets (step : σ → ε → Option σ) (condition : σ → ε → Prop)
    [∀ s event, Decidable (condition s event)] :
    ∀ (events : List ε) (s : σ), Decidable (Meets step condition s events)
  | [], _ => isTrue trivial
  | event :: events, s =>
    have := fun t ↦ decidableMeets step condition events t
    inferInstanceAs (Decidable (condition s event ∧
      ∀ t ∈ step s event, Meets step condition t events))

variable {step : σ → ε → Option σ}

theorem run_cons_eq_some {s last : σ} {event : ε} {events : List ε} :
    run step s (event :: events) = some last ↔
      ∃ t, step s event = some t ∧ run step t events = some last :=
  Option.bind_eq_some_iff

/-- The induction over runs. -/
theorem run_invariant {condition : σ → ε → Prop} {property : σ → Prop}
    (hstep : ∀ s event t, property s → condition s event → step s event = some t → property t)
    {events : List ε} : ∀ {s last : σ}, property s → Meets step condition s events →
      run step s events = some last → property last := by
  induction events with
  | nil =>
    intro s last hs _ hrun
    cases hrun
    exact hs
  | cons event events ih =>
    intro s last hs hmeets hrun
    obtain ⟨t, hnext, hrest⟩ := run_cons_eq_some.mp hrun
    exact ih (hstep s event t hs hmeets.1 hnext) (hmeets.2 t hnext) hrest

/-- The induction over runs for a property that every step keeps. -/
theorem run_invariant_of_step {property : σ → Prop}
    (hstep : ∀ s event t, property s → step s event = some t → property t) {events : List ε} :
    ∀ {s last : σ}, property s → run step s events = some last → property last := by
  induction events with
  | nil =>
    intro s last hs hrun
    cases hrun
    exact hs
  | cons event events ih =>
    intro s last hs hrun
    obtain ⟨t, hnext, hrest⟩ := run_cons_eq_some.mp hrun
    exact ih (hstep s event t hs hnext) hrest

end Machine
