import OpenWhistle.Foundation.Interleaving
import Mathlib.Data.List.Basic

/-!
# The journal of a run

A property that says what must have happened before something else needs the past of a run.
`Semantics.recorded` keeps it beside the shared state: a journal with one entry for every operation
that took effect, newest first, with its worker, its reply and the shared state it found. No
operation reads the journal.
-/

set_option autoImplicit false
set_option relaxedAutoImplicit false

namespace Interleaving

/-- An operation that took effect: who performed it, the shared state it found, and its reply,
whether or not that reply arrived. -/
structure Entry (Op : Type) (Reply : Op → Type) (ε σ : Type) where
  worker : ℕ
  operation : Op
  before : σ
  reply : Except ε (Reply operation)

/-- A shared state with the journal of what made it. -/
structure Recorded (Op : Type) (Reply : Op → Type) (ε σ : Type) where
  now : σ
  past : List (Entry Op Reply ε σ)

variable {Op : Type} {Reply : Op → Type} {ε σ δ χ : Type}

namespace Recorded

/-- The shared state moves on to `now`, and the operation is entered in the journal. -/
def record (h : Recorded Op Reply ε σ) (w : ℕ) (operation : Op) (reply : Except ε (Reply operation))
    (now : σ) : Recorded Op Reply ε σ where
  now := now
  past := ⟨w, operation, h.now, reply⟩ :: h.past

/-- The worker has performed the operation. -/
def Did (h : Recorded Op Reply ε σ) (w : ℕ) (operation : Op) : Prop :=
  ∃ s reply, (⟨w, operation, s, reply⟩ : Entry Op Reply ε σ) ∈ h.past

/-- The worker has performed the operation in a shared state with a property. -/
def Found (h : Recorded Op Reply ε σ) (w : ℕ) (operation : Op) (property : σ → Prop) : Prop :=
  ∃ s reply, (⟨w, operation, s, reply⟩ : Entry Op Reply ε σ) ∈ h.past ∧ property s

/-- The worker's operation was answered with the value. -/
def Answered (h : Recorded Op Reply ε σ) (w : ℕ) (operation : Op) (value : Reply operation) : Prop :=
  ∃ s, (⟨w, operation, s, .ok value⟩ : Entry Op Reply ε σ) ∈ h.past

variable {h t : Recorded Op Reply ε σ} {w : ℕ} {operation : Op}

theorem Did.later (hdid : h.Did w operation) (hpast : ∀ entry ∈ h.past, entry ∈ t.past) :
    t.Did w operation := by
  obtain ⟨s, reply, hmem⟩ := hdid
  exact ⟨s, reply, hpast _ hmem⟩

theorem Found.later {property : σ → Prop} (hfound : h.Found w operation property)
    (hpast : ∀ entry ∈ h.past, entry ∈ t.past) : t.Found w operation property := by
  obtain ⟨s, reply, hmem, hproperty⟩ := hfound
  exact ⟨s, reply, hpast _ hmem, hproperty⟩

theorem Answered.later {value : Reply operation} (hanswered : h.Answered w operation value)
    (hpast : ∀ entry ∈ h.past, entry ∈ t.past) : t.Answered w operation value := by
  obtain ⟨s, hmem⟩ := hanswered
  exact ⟨s, hpast _ hmem⟩

section Record

variable {other : Op} {v : ℕ} {reply : Except ε (Reply operation)} {now : σ}

theorem mem_record {entry : Entry Op Reply ε σ} (hmem : entry ∈ h.past) :
    entry ∈ (h.record w operation reply now).past :=
  List.mem_cons_of_mem _ hmem

theorem did_record_self : (h.record w operation reply now).Did w operation :=
  ⟨h.now, reply, List.mem_cons_self⟩

theorem found_record_self {property : σ → Prop} (hproperty : property h.now) :
    (h.record w operation reply now).Found w operation property :=
  ⟨h.now, reply, List.mem_cons_self, hproperty⟩

/-- Whatever was done was done before or just now. -/
theorem did_record_cases (hdid : (h.record w operation reply now).Did v other) :
    (v = w ∧ other = operation) ∨ h.Did v other := by
  obtain ⟨s, result, hmem⟩ := hdid
  rcases List.mem_cons.mp hmem with hnew | hold
  · cases hnew
    exact .inl ⟨rfl, rfl⟩
  · exact .inr ⟨s, result, hold⟩

end Record

end Recorded

/-- A semantics that keeps the journal of what its operations did. -/
def Semantics.recorded (sem : Semantics Op Reply ε σ δ χ) :
    Semantics Op Reply ε (Recorded Op Reply ε σ) δ χ where
  perform w operation draw h := (sem.perform w operation draw h.now).map fun result ↦
    (result.1, h.record w operation result.1 result.2)
  environment change h :=
    (sem.environment change h.now).map fun now ↦ { h with now := now }

/-- What a recorded operation does is what the operation does, and one entry more. -/
theorem Semantics.recorded_cases {sem : Semantics Op Reply ε σ δ χ} {w : ℕ} {operation : Op}
    {draw : δ} {h t : Recorded Op Reply ε σ} {reply : Except ε (Reply operation)}
    (hperform : sem.recorded.perform w operation draw h = some (reply, t)) :
    ∃ now, sem.perform w operation draw h.now = some (reply, now) ∧
      t = h.record w operation reply now := by
  obtain ⟨⟨result, now⟩, hresult, heq⟩ := Option.map_eq_some_iff.mp hperform
  cases heq
  exact ⟨now, hresult, rfl⟩

end Interleaving
