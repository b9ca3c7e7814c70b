import OpenWhistle.Foundation.Program
import Mathlib.Data.Nat.Notation

/-!
# Interleaved programs over one shared state

Any number of workers run programs of atomic operations over one shared state. A `Semantics` says
what an operation does to the shared state, for every value the environment may draw for it, and
what the environment does by itself (a key that expires, a message that lands). A `System` is the
shared state with the program every worker has still to run. An `Event` lets one thing happen: a
request starts, a worker performs its next operation, the operation raises before it took effect or
its reply is lost after it did, or the environment moves. A run is a list of events; every order of
them is a run, so a property of all runs is a property of all interleavings. A worker that stops for
good is one that no later event names.

`run_invariant` is the induction over runs for a property of systems, `Meets` the condition that
every step of a run satisfies a condition on the system it starts from.
-/

set_option autoImplicit false
set_option relaxedAutoImplicit false

namespace Interleaving

/-- What the operations and the environment do to a shared state of type `σ`. An operation of worker
`w` is given what the environment draws for it; `none` means that it has to wait. -/
structure Semantics (Op : Type) (Reply : Op → Type) (ε σ δ χ : Type) where
  /-- The effect of an operation: its reply or exception, and the new shared state. -/
  perform : ℕ → (operation : Op) → δ → σ → Option (Except ε (Reply operation) × σ)
  /-- A change nobody asked for; `none` where it cannot happen. -/
  environment : χ → σ → Option σ

/-- The shared state, and the program every worker has still to run: `none` for a worker that has
not started. A worker that has ended keeps the end of its program. -/
structure System (σ π : Type) where
  shared : σ
  worker : ℕ → Option π

/-- One thing that happens. -/
inductive Event (ρ ε δ χ : Type)
  | start (w : ℕ) (request : ρ)
  | run (w : ℕ) (draw : δ)
  | fail (w : ℕ) (exception : ε)
  | lose (w : ℕ) (draw : δ) (exception : ε)
  | environment (change : χ)

variable {Op : Type} {Reply : Op → Type} {ε σ δ χ ρ α : Type}

/-- The worker an event is about. -/
def Event.worker : Event ρ ε δ χ → Option ℕ
  | .start w _ => some w
  | .run w _ => some w
  | .fail w _ => some w
  | .lose w _ _ => some w
  | .environment _ => none

/-- Some worker has no part in a run. -/
theorem exists_bystander (events : List (Event ρ ε δ χ)) :
    ∃ v, ∀ event ∈ events, event.worker ≠ some v := by
  have hbound : ∃ bound, ∀ event ∈ events, ∀ w, event.worker = some w → w < bound := by
    induction events with
    | nil => exact ⟨0, fun event hmem ↦ nomatch hmem⟩
    | cons event events ih =>
      obtain ⟨bound, hrest⟩ := ih
      refine ⟨max bound (event.worker.getD 0 + 1), fun other hmem w hw ↦ ?_⟩
      rcases List.mem_cons.mp hmem with rfl | hlater
      · rw [hw, Option.getD_some]
        omega
      · have hlt := hrest other hlater w hw
        omega
  obtain ⟨bound, hlt⟩ := hbound
  exact ⟨bound, fun event hmem hw ↦ Nat.lt_irrefl bound (hlt event hmem bound hw)⟩

namespace System

/-- The shared state has changed and worker `w` has `program` left to run. -/
def resume {π : Type} (s : System σ π) (w : ℕ) (shared : σ) (program : π) : System σ π where
  shared := shared
  worker := Function.update s.worker w (some program)

@[simp] theorem resume_worker_self {π : Type} (s : System σ π) (w : ℕ) (shared : σ)
    (program : π) : (s.resume w shared program).worker w = some program :=
  Function.update_self ..

/-- The operation a worker performs next. -/
def next (s : System σ (Program Op Reply ε α)) (w : ℕ) : Option Op :=
  (s.worker w).bind Program.pending

/-- The operation that takes effect with an event. -/
def effective (s : System σ (Program Op Reply ε α)) : Event ρ ε δ χ → Option Op
  | .run w _ => s.next w
  | .lose w _ _ => s.next w
  | _ => none

/-- The worker and the operation that take effect with an event. -/
def acting (s : System σ (Program Op Reply ε α)) : Event ρ ε δ χ → Option (ℕ × Op)
  | .run w _ => (s.next w).map fun operation ↦ (w, operation)
  | .lose w _ _ => (s.next w).map fun operation ↦ (w, operation)
  | _ => none

/-- The operation that takes effect with an event, if there is one, satisfies a condition on its
worker and on the shared state it meets. -/
def Acts (condition : ℕ → Op → σ → Prop) (s : System σ (Program Op Reply ε α))
    (event : Event ρ ε δ χ) : Prop :=
  ∀ w operation, s.acting event = some (w, operation) → condition w operation s.shared

instance (condition : ℕ → Op → σ → Prop) [∀ w operation s, Decidable (condition w operation s)]
    (s : System σ (Program Op Reply ε α)) (event : Event ρ ε δ χ) :
    Decidable (s.Acts condition event) :=
  match h : s.acting event with
  | none => isTrue fun _ _ hacting ↦ by rw [h] at hacting; cases hacting
  | some (w, operation) => decidable_of_iff (condition w operation s.shared)
      ⟨fun hcondition _ _ hacting ↦ by rw [h] at hacting; cases hacting; exact hcondition,
        fun hacts ↦ hacts w operation h⟩

/-- What a worker's request has been answered with. -/
def answer (s : System σ (Program Op Reply ε α)) (w : ℕ) : Option α :=
  (s.worker w).bind Program.returned

theorem next_eq_some {s : System σ (Program Op Reply ε α)} {w : ℕ} {operation : Op}
    {rest : Except ε (Reply operation) → Program Op Reply ε α}
    (h : s.worker w = some (.perform operation rest)) : s.next w = some operation := by
  rw [next, h]
  rfl

theorem next_eq_some_iff {s : System σ (Program Op Reply ε α)} {w : ℕ} {operation : Op} :
    s.next w = some operation ↔ ∃ rest, s.worker w = some (.perform operation rest) := by
  constructor
  · intro h
    obtain ⟨program, hworker, hpending⟩ := Option.bind_eq_some_iff.mp h
    cases program with
    | ret value => cases hpending
    | raise exception => cases hpending
    | perform other rest =>
      cases hpending
      exact ⟨rest, hworker⟩
  · rintro ⟨rest, hworker⟩
    exact next_eq_some hworker

theorem answer_eq_some {s : System σ (Program Op Reply ε α)} {w : ℕ} {value : α} :
    s.answer w = some value ↔ s.worker w = some (.ret value) := by
  unfold answer
  cases hworker : s.worker w with
  | none => simp
  | some program => cases program <;> simp [Program.returned]

theorem resume_worker_of_ne {π : Type} (s : System σ π) {v w : ℕ} (h : v ≠ w) (shared : σ)
    (program : π) : (s.resume w shared program).worker v = s.worker v :=
  Function.update_of_ne h ..

end System

namespace Semantics

/-- How a program ends that worker `w` runs with nothing in between, and the shared state by then. The
environment draws the same for every operation; `none` where the program has to wait. -/
def alone (sem : Semantics Op Reply ε σ δ χ) (w : ℕ) (draw : δ) :
    Program Op Reply ε α → σ → Option (Except ε α × σ)
  | .ret value, s => some (.ok value, s)
  | .raise exception, s => some (.error exception, s)
  | .perform operation next, s =>
    (sem.perform w operation draw s).bind fun result ↦ sem.alone w draw (next result.1) result.2

variable {sem : Semantics Op Reply ε σ δ χ} {w : ℕ} {draw : δ} {s t : σ}

theorem alone_call {operation : Op} {reply : Except ε (Reply operation)}
    (h : sem.perform w operation draw s = some (reply, t)) :
    sem.alone w draw (Program.call operation) s = some (reply, t) := by
  show (sem.perform w operation draw s).bind _ = _
  rw [h]
  cases reply <;> rfl

/-- What follows a program goes on where that has ended. -/
theorem alone_bind {β : Type} {first : Program Op Reply ε α} {rest : α → Program Op Reply ε β}
    {value : α} (h : sem.alone w draw first s = some (.ok value, t)) :
    sem.alone w draw (first >>= rest) s = sem.alone w draw (rest value) t := by
  induction first generalizing s with
  | ret value =>
    cases h
    rfl
  | raise exception => cases h
  | perform operation next ih =>
    obtain ⟨⟨reply, middle⟩, hperform, hnext⟩ := Option.bind_eq_some_iff.mp h
    show (sem.perform w operation draw s).bind _ = _
    rw [hperform]
    exact ih reply hnext

end Semantics

section Runs

variable (sem : Semantics Op Reply ε σ δ χ) (handler : ρ → Program Op Reply ε α)

/-- One step: `none` where the event cannot happen. -/
def step (s : System σ (Program Op Reply ε α)) :
    Event ρ ε δ χ → Option (System σ (Program Op Reply ε α))
  | .start w request =>
    match s.worker w with
    | none => some (s.resume w s.shared (handler request))
    | some _ => none
  | .run w draw =>
    match s.worker w with
    | some (.perform operation next) =>
      (sem.perform w operation draw s.shared).map fun result ↦
        s.resume w result.2 (next result.1)
    | _ => none
  | .fail w exception =>
    match s.worker w with
    | some (.perform _ next) => some (s.resume w s.shared (next (.error exception)))
    | _ => none
  | .lose w draw exception =>
    match s.worker w with
    | some (.perform operation next) =>
      (sem.perform w operation draw s.shared).map fun result ↦
        s.resume w result.2 (next (.error exception))
    | _ => none
  | .environment change =>
    (sem.environment change s.shared).map fun shared ↦ { s with shared := shared }

/-- The system a list of events leads to, when every one of them can happen in turn. -/
def run (s : System σ (Program Op Reply ε α)) :
    List (Event ρ ε δ χ) → Option (System σ (Program Op Reply ε α))
  | [] => some s
  | event :: events => (step sem handler s event).bind fun next ↦ run next events

/-- Every step of the run satisfies a condition on the system it starts from and on its event. -/
def Meets (condition : System σ (Program Op Reply ε α) → Event ρ ε δ χ → Prop)
    (s : System σ (Program Op Reply ε α)) : List (Event ρ ε δ χ) → Prop
  | [] => True
  | event :: events =>
    condition s event ∧ ∀ next ∈ step sem handler s event, Meets condition next events

instance decidableMeets (condition : System σ (Program Op Reply ε α) → Event ρ ε δ χ → Prop)
    [∀ s event, Decidable (condition s event)] :
    ∀ (events : List (Event ρ ε δ χ)) (s : System σ (Program Op Reply ε α)),
      Decidable (Meets sem handler condition s events)
  | [], _ => isTrue trivial
  | event :: events, s =>
    have := fun next ↦ decidableMeets condition events next
    inferInstanceAs (Decidable (condition s event ∧
      ∀ next ∈ step sem handler s event, Meets sem handler condition next events))

/-- What an event can do, once for all: a request starts at an idle worker, a worker's pending
operation takes effect, raises or loses its reply, or the environment changes the shared state. -/
theorem step_cases {s t : System σ (Program Op Reply ε α)} {event : Event ρ ε δ χ}
    (h : step sem handler s event = some t) :
    (∃ w request, event = .start w request ∧ s.worker w = none ∧
      t = s.resume w s.shared (handler request)) ∨
    (∃ w draw operation next reply shared, event = .run w draw ∧
      s.worker w = some (.perform operation next) ∧
      sem.perform w operation draw s.shared = some (reply, shared) ∧
      t = s.resume w shared (next reply)) ∨
    (∃ w exception operation next, event = .fail w exception ∧
      s.worker w = some (.perform operation next) ∧
      t = s.resume w s.shared (next (.error exception))) ∨
    (∃ w draw exception operation next reply shared, event = .lose w draw exception ∧
      s.worker w = some (.perform operation next) ∧
      sem.perform w operation draw s.shared = some (reply, shared) ∧
      t = s.resume w shared (next (.error exception))) ∨
    (∃ change shared, event = .environment change ∧
      sem.environment change s.shared = some shared ∧ t = { s with shared := shared }) := by
  cases event with
  | start w request =>
    simp only [step] at h
    split at h
    · rename_i hidle
      exact .inl ⟨w, request, rfl, hidle, by simpa using h.symm⟩
    · cases h
  | run w draw =>
    simp only [step] at h
    split at h
    · rename_i operation next hworker
      obtain ⟨⟨reply, shared⟩, hperform, rfl⟩ := Option.map_eq_some_iff.mp h
      exact .inr (.inl ⟨w, draw, operation, next, reply, shared, rfl, hworker, hperform, rfl⟩)
    · cases h
  | fail w exception =>
    simp only [step] at h
    split at h
    · rename_i operation next hworker
      exact .inr (.inr (.inl ⟨w, exception, operation, next, rfl, hworker, by simpa using h.symm⟩))
    · cases h
  | lose w draw exception =>
    simp only [step] at h
    split at h
    · rename_i operation next hworker
      obtain ⟨⟨reply, shared⟩, hperform, rfl⟩ := Option.map_eq_some_iff.mp h
      exact .inr (.inr (.inr (.inl
        ⟨w, draw, exception, operation, next, reply, shared, rfl, hworker, hperform, rfl⟩)))
    · cases h
  | environment change =>
    simp only [step] at h
    obtain ⟨shared, hchange, rfl⟩ := Option.map_eq_some_iff.mp h
    exact .inr (.inr (.inr (.inr ⟨change, shared, rfl, hchange, rfl⟩)))

variable {sem handler}

/-- The shared state after an event is what the operation that took effect made of it. -/
theorem perform_of_effective {s t : System σ (Program Op Reply ε α)} {event : Event ρ ε δ χ}
    {operation : Op} (h : s.effective event = some operation)
    (hstep : step sem handler s event = some t) :
    ∃ w draw reply, sem.perform w operation draw s.shared = some (reply, t.shared) := by
  rcases step_cases sem handler hstep with ⟨w, request, rfl, -, rfl⟩ |
    ⟨w, draw, other, next, reply, shared, rfl, hworker, hperform, rfl⟩ |
    ⟨w, exception, other, next, rfl, hworker, rfl⟩ |
    ⟨w, draw, exception, other, next, reply, shared, rfl, hworker, hperform, rfl⟩ |
    ⟨change, shared, rfl, hchange, rfl⟩
  · cases h
  · have hother : other = operation := Option.some.inj ((System.next_eq_some hworker).symm.trans h)
    subst hother
    exact ⟨w, draw, reply, hperform⟩
  · cases h
  · have hother : other = operation := Option.some.inj ((System.next_eq_some hworker).symm.trans h)
    subst hother
    exact ⟨w, draw, reply, hperform⟩
  · cases h

/-- The shared state changes by an operation that takes effect, by the environment, or not at
all. -/
theorem shared_cases {s t : System σ (Program Op Reply ε α)} {event : Event ρ ε δ χ}
    (hstep : step sem handler s event = some t) :
    (∃ operation w draw reply, s.effective event = some operation ∧
      sem.perform w operation draw s.shared = some (reply, t.shared)) ∨
    (∃ change, sem.environment change s.shared = some t.shared) ∨ t.shared = s.shared := by
  rcases step_cases sem handler hstep with ⟨w, request, rfl, -, rfl⟩ |
    ⟨w, draw, operation, next, reply, shared, rfl, hworker, hperform, rfl⟩ |
    ⟨w, exception, operation, next, rfl, hworker, rfl⟩ |
    ⟨w, draw, exception, operation, next, reply, shared, rfl, hworker, hperform, rfl⟩ |
    ⟨change, shared, rfl, hchange, rfl⟩
  · exact .inr (.inr rfl)
  · exact .inl ⟨operation, w, draw, reply, System.next_eq_some hworker, hperform⟩
  · exact .inr (.inr rfl)
  · exact .inl ⟨operation, w, draw, reply, System.next_eq_some hworker, hperform⟩
  · exact .inr (.inl ⟨change, hchange⟩)

/-- The same, with the worker whose operation took effect. -/
theorem acting_cases {s t : System σ (Program Op Reply ε α)} {event : Event ρ ε δ χ}
    (hstep : step sem handler s event = some t) :
    (∃ w operation draw reply, s.acting event = some (w, operation) ∧
      sem.perform w operation draw s.shared = some (reply, t.shared)) ∨
    (∃ change, sem.environment change s.shared = some t.shared) ∨ t.shared = s.shared := by
  rcases step_cases sem handler hstep with ⟨w, request, rfl, -, rfl⟩ |
    ⟨w, draw, operation, next, reply, shared, rfl, hworker, hperform, rfl⟩ |
    ⟨w, exception, operation, next, rfl, hworker, rfl⟩ |
    ⟨w, draw, exception, operation, next, reply, shared, rfl, hworker, hperform, rfl⟩ |
    ⟨change, shared, rfl, hchange, rfl⟩
  · exact .inr (.inr rfl)
  · have hacting : (s.next w).map (fun operation ↦ (w, operation)) = some (w, operation) := by
      rw [System.next_eq_some hworker]
      rfl
    exact .inl ⟨w, operation, draw, reply, hacting, hperform⟩
  · exact .inr (.inr rfl)
  · have hacting : (s.next w).map (fun operation ↦ (w, operation)) = some (w, operation) := by
      rw [System.next_eq_some hworker]
      rfl
    exact .inl ⟨w, operation, draw, reply, hacting, hperform⟩
  · exact .inr (.inl ⟨change, hchange⟩)

/-- The shared state after an event is what the operation of its worker made of it. -/
theorem perform_of_acting {s t : System σ (Program Op Reply ε α)} {event : Event ρ ε δ χ} {w : ℕ}
    {operation : Op} (hstep : step sem handler s event = some t)
    (hacting : s.acting event = some (w, operation)) :
    ∃ draw reply, sem.perform w operation draw s.shared = some (reply, t.shared) := by
  rcases step_cases sem handler hstep with ⟨v, request, rfl, -, rfl⟩ |
    ⟨v, draw, other, next, reply, shared, rfl, hworker, hperform, rfl⟩ |
    ⟨v, exception, other, next, rfl, hworker, rfl⟩ |
    ⟨v, draw, exception, other, next, reply, shared, rfl, hworker, hperform, rfl⟩ |
    ⟨change, shared, rfl, hchange, rfl⟩
  · cases hacting
  · change (s.next v).map (fun operation ↦ (v, operation)) = some (w, operation) at hacting
    rw [System.next_eq_some hworker] at hacting
    cases hacting
    exact ⟨draw, reply, hperform⟩
  · cases hacting
  · change (s.next v).map (fun operation ↦ (v, operation)) = some (w, operation) at hacting
    rw [System.next_eq_some hworker] at hacting
    cases hacting
    exact ⟨draw, reply, hperform⟩
  · cases hacting

/-- An operation that never has to wait takes effect whenever its turn comes. -/
theorem exists_step_of_effective {s : System σ (Program Op Reply ε α)} {event : Event ρ ε δ χ}
    {operation : Op} (h : s.effective event = some operation)
    (hnever : ∀ w draw, (sem.perform w operation draw s.shared).isSome = true) :
    ∃ t, step sem handler s event = some t := by
  cases event with
  | start w request => cases h
  | fail w exception => cases h
  | environment change => cases h
  | run w draw =>
    obtain ⟨rest, hworker⟩ := System.next_eq_some_iff.mp h
    obtain ⟨result, hperform⟩ := Option.isSome_iff_exists.mp (hnever w draw)
    exact ⟨s.resume w result.2 (rest result.1),
      by simp only [step, hworker, hperform, Option.map_some]⟩
  | lose w draw exception =>
    obtain ⟨rest, hworker⟩ := System.next_eq_some_iff.mp h
    obtain ⟨result, hperform⟩ := Option.isSome_iff_exists.mp (hnever w draw)
    exact ⟨s.resume w result.2 (rest (.error exception)),
      by simp only [step, hworker, hperform, Option.map_some]⟩

/-- A run that can happen has an end. -/
theorem run_eq_get {s : System σ (Program Op Reply ε α)} {events : List (Event ρ ε δ χ)}
    (h : (run sem handler s events).isSome = true) :
    run sem handler s events = some ((run sem handler s events).get h) :=
  (Option.some_get h).symm

@[simp] theorem run_nil (s : System σ (Program Op Reply ε α)) :
    run sem handler s [] = some s :=
  rfl

theorem run_cons_eq_some {s t : System σ (Program Op Reply ε α)} {event : Event ρ ε δ χ}
    {events : List (Event ρ ε δ χ)} :
    run sem handler s (event :: events) = some t ↔
      ∃ next, step sem handler s event = some next ∧ run sem handler next events = some t :=
  Option.bind_eq_some_iff

theorem run_append_eq_some {s t : System σ (Program Op Reply ε α)}
    {first second : List (Event ρ ε δ χ)} :
    run sem handler s (first ++ second) = some t ↔
      ∃ middle, run sem handler s first = some middle ∧
        run sem handler middle second = some t := by
  induction first generalizing s with
  | nil => simp
  | cons event events ih =>
    simp only [List.cons_append, run_cons_eq_some, ih]
    constructor
    · rintro ⟨next, hstep, middle, hfirst, hsecond⟩
      exact ⟨middle, ⟨next, hstep, hfirst⟩, hsecond⟩
    · rintro ⟨middle, ⟨next, hstep, hfirst⟩, hsecond⟩
      exact ⟨next, hstep, middle, hfirst, hsecond⟩

/-- A property that every step meeting the condition preserves holds after every run whose steps all
meet it. -/
theorem run_invariant {condition : System σ (Program Op Reply ε α) → Event ρ ε δ χ → Prop}
    {property : System σ (Program Op Reply ε α) → Prop}
    (hstep : ∀ s event t, property s → condition s event → step sem handler s event = some t →
      property t)
    {events : List (Event ρ ε δ χ)} : ∀ {s t : System σ (Program Op Reply ε α)}, property s →
      Meets sem handler condition s events → run sem handler s events = some t → property t := by
  induction events with
  | nil =>
    intro s t hs _ hrun
    cases hrun
    exact hs
  | cons event events ih =>
    intro s t hs hmeets hrun
    obtain ⟨next, hnext, hrest⟩ := run_cons_eq_some.mp hrun
    exact ih (hstep s event next hs hmeets.1 hnext) (hmeets.2 next hnext) hrest

/-- A worker that runs at the end ran at the start, or its request is among the events. -/
theorem started_of_worker {events : List (Event ρ ε δ χ)} {w : ℕ} :
    ∀ {s t : System σ (Program Op Reply ε α)}, run sem handler s events = some t →
      t.worker w ≠ none → s.worker w ≠ none ∨ ∃ request, Event.start w request ∈ events := by
  induction events with
  | nil =>
    intro s t hrun hworker
    cases hrun
    exact .inl hworker
  | cons event events ih =>
    intro s t hrun hworker
    obtain ⟨next, hstep, hrest⟩ := run_cons_eq_some.mp hrun
    have hresumed : ∀ {v : ℕ} {shared : σ} {program left : Program Op Reply ε α},
        s.worker v = some program → next = s.resume v shared left → next.worker w ≠ none →
        s.worker w ≠ none := by
      rintro v shared program left hv rfl hnext hnone
      have hne : w ≠ v := by
        rintro rfl
        rw [hv] at hnone
        cases hnone
      rw [System.resume_worker_of_ne _ hne] at hnext
      exact hnext hnone
    rcases ih hrest hworker with hnext | ⟨request, hmem⟩
    · rcases step_cases sem handler hstep with ⟨v, request, rfl, -, rfl⟩ |
        ⟨v, draw, operation, rest, reply, shared, -, hv, -, heq⟩ |
        ⟨v, exception, operation, rest, -, hv, heq⟩ |
        ⟨v, draw, exception, operation, rest, reply, shared, -, hv, -, heq⟩ |
        ⟨change, shared, -, -, rfl⟩
      · by_cases heq : w = v
        · exact .inr ⟨request, heq ▸ List.mem_cons_self⟩
        · rw [System.resume_worker_of_ne _ heq] at hnext
          exact .inl hnext
      · exact .inl (hresumed hv heq hnext)
      · exact .inl (hresumed hv heq hnext)
      · exact .inl (hresumed hv heq hnext)
      · exact .inl hnext
    · exact .inr ⟨request, List.mem_cons_of_mem _ hmem⟩

theorem meets_imp {first second : System σ (Program Op Reply ε α) → Event ρ ε δ χ → Prop}
    (himp : ∀ s event, first s event → second s event) {events : List (Event ρ ε δ χ)} :
    ∀ {s : System σ (Program Op Reply ε α)}, Meets sem handler first s events →
      Meets sem handler second s events := by
  induction events with
  | nil => intro s _; trivial
  | cons event events ih =>
    intro s h
    exact ⟨himp s event h.1, fun next hnext ↦ ih (h.2 next hnext)⟩

theorem meets_congr {first second : System σ (Program Op Reply ε α) → Event ρ ε δ χ → Prop}
    (hiff : ∀ s event, first s event ↔ second s event) {events : List (Event ρ ε δ χ)}
    {s : System σ (Program Op Reply ε α)} :
    Meets sem handler first s events ↔ Meets sem handler second s events :=
  ⟨meets_imp fun s event ↦ (hiff s event).mp, meets_imp fun s event ↦ (hiff s event).mpr⟩

theorem meets_of_forall {condition : System σ (Program Op Reply ε α) → Event ρ ε δ χ → Prop}
    {events : List (Event ρ ε δ χ)} (h : ∀ event ∈ events, ∀ s, condition s event) :
    ∀ s : System σ (Program Op Reply ε α), Meets sem handler condition s events := by
  induction events with
  | nil => intro s; trivial
  | cons event events ih =>
    intro s
    exact ⟨h event List.mem_cons_self s,
      fun next _ ↦ ih (fun later hlater ↦ h later (List.mem_cons_of_mem _ hlater)) next⟩

/-- A condition that every event of a run satisfies by itself comes on top of one on its steps. -/
theorem meets_and_of_forall {condition : System σ (Program Op Reply ε α) → Event ρ ε δ χ → Prop}
    {allowed : Event ρ ε δ χ → Prop} {events : List (Event ρ ε δ χ)}
    (h : ∀ event ∈ events, allowed event) :
    ∀ {s : System σ (Program Op Reply ε α)}, Meets sem handler condition s events →
      Meets sem handler (fun s event ↦ condition s event ∧ allowed event) s events := by
  induction events with
  | nil => intro s _; trivial
  | cons event events ih =>
    intro s hmeets
    exact ⟨⟨hmeets.1, h event List.mem_cons_self⟩, fun next hnext ↦
      ih (fun later hlater ↦ h later (List.mem_cons_of_mem _ hlater)) (hmeets.2 next hnext)⟩

/-- A run meets a condition when its first part does, and its second part from where the first one
ends. -/
theorem meets_append {condition : System σ (Program Op Reply ε α) → Event ρ ε δ χ → Prop}
    {first second : List (Event ρ ε δ χ)} {s : System σ (Program Op Reply ε α)} :
    Meets sem handler condition s (first ++ second) ↔ Meets sem handler condition s first ∧
      ∀ middle, run sem handler s first = some middle →
        Meets sem handler condition middle second := by
  induction first generalizing s with
  | nil =>
    constructor
    · intro h
      refine ⟨trivial, fun middle hmiddle ↦ ?_⟩
      cases hmiddle
      exact h
    · intro h
      exact h.2 s rfl
  | cons event events ih =>
    constructor
    · rintro ⟨hevent, hrest⟩
      refine ⟨⟨hevent, fun next hnext ↦ (ih.mp (hrest next hnext)).1⟩, fun middle hmiddle ↦ ?_⟩
      obtain ⟨next, hnext, hrun⟩ := run_cons_eq_some.mp hmiddle
      exact (ih.mp (hrest next hnext)).2 middle hrun
    · rintro ⟨⟨hevent, hfirst⟩, hsecond⟩
      refine ⟨hevent, fun next hnext ↦ ih.mpr ⟨hfirst next hnext, fun middle hmiddle ↦ ?_⟩⟩
      exact hsecond middle (run_cons_eq_some.mpr ⟨next, hnext, hmiddle⟩)

end Runs

end Interleaving
