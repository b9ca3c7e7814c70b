import OpenWhistle.Foundation.Interleaving

/-!
# Rely and guarantee for interleaved programs

A `Contract` is what the workers of an interleaved system owe each other: an invariant of the shared
state, for every worker a relation saying what it may rely on while others move, and what holds of a
worker that has ended. `Safe` says of one program, from one shared state on, that each of its
operations keeps the invariant, moves the state only in ways every other worker tolerates, and
leaves a program that is safe again; it is proved along the program's text, one operation at a time,
with no other worker in sight. `Contract.run_safe` puts the pieces together: when every handler is
safe, the invariant holds in every state of every interleaving, and so does what was promised of the
workers that have ended.

A contract may hold only under a condition on the steps: `admits` restricts the requests, `allows`
the operations that take effect in a given shared state, `trusts` those whose reply arrives in it,
`tolerates` the changes of the environment.
`Contract.Permits` is that condition as one predicate on the events of a run.
-/

set_option autoImplicit false
set_option relaxedAutoImplicit false

namespace Interleaving

/-- What interleaved workers owe each other. -/
structure Contract {Op : Type} {Reply : Op → Type} {ε σ δ χ : Type}
    (sem : Semantics Op Reply ε σ δ χ) (ρ α : Type) where
  /-- Holds of the shared state between any two steps. -/
  invariant : σ → Prop
  /-- What a worker may rely on about the moves of all others. -/
  rely : ℕ → σ → σ → Prop
  rely_refl : ∀ w s, rely w s s
  rely_trans : ∀ w s t u, rely w s t → rely w t u → rely w s u
  /-- What holds of the shared state as long as a worker has not started. -/
  idle : ℕ → σ → Prop
  idle_stable : ∀ w s t, idle w s → rely w s t → invariant t → idle w t
  /-- What holds of the shared state once a worker has ended with a result. -/
  ends : ℕ → Except ε α → σ → Prop
  ends_stable : ∀ w result s t, ends w result s → rely w s t → invariant t → ends w result t
  /-- The requests the contract is about. -/
  admits : ρ → Prop
  /-- The operations of a worker that may take effect in a shared state. -/
  allows : ℕ → Op → σ → Prop
  /-- The operations of a worker whose reply may arrive, from a shared state. -/
  trusts : ℕ → Op → σ → Prop
  /-- The changes the environment may make to a shared state. -/
  tolerates : χ → σ → Prop
  environment_safe : ∀ change s t, invariant s → tolerates change s →
    sem.environment change s = some t → invariant t ∧ ∀ w, rely w s t

variable {Op : Type} {Reply : Op → Type} {ε σ δ χ ρ α : Type}
  {sem : Semantics Op Reply ε σ δ χ}

/-- From the shared state `s` on, whatever the others do within the contract, every operation the
program performs keeps the contract, and the program ends as `post` says. -/
def Safe (c : Contract sem ρ α) (w : ℕ) {β : Type} (post : Except ε β → σ → Prop) :
    Program Op Reply ε β → σ → Prop
  | .ret value, s => post (.ok value) s
  | .raise exception, s => post (.error exception) s
  | .perform operation next, s => ∀ t, c.rely w s t → c.invariant t →
    (∀ exception, Safe c w post (next (.error exception)) t) ∧
    (c.allows w operation t → ∀ draw reply u,
      sem.perform w operation draw t = some (reply, u) →
        c.invariant u ∧ (∀ v, v ≠ w → c.rely v t u) ∧
          (c.trusts w operation t → Safe c w post (next reply) u) ∧
          ∀ exception, Safe c w post (next (.error exception)) u)

namespace Safe

variable {c : Contract sem ρ α} {w : ℕ} {β γ : Type}

theorem ret {post : Except ε β → σ → Prop} {value : β} {s : σ} (h : post (.ok value) s) :
    Safe c w post (.ret value) s :=
  h

theorem raise {post : Except ε β → σ → Prop} {exception : ε} {s : σ}
    (h : post (.error exception) s) : Safe c w post (.raise exception) s :=
  h

/-- A weaker end is reached by the same program. -/
theorem imp {first second : Except ε β → σ → Prop} (h : ∀ result s, first result s → second result s)
    {program : Program Op Reply ε β} :
    ∀ {s : σ}, Safe c w first program s → Safe c w second program s := by
  induction program with
  | ret value => intro s hs; exact h _ _ hs
  | raise exception => intro s hs; exact h _ _ hs
  | perform operation next ih =>
    intro s hs t hrely hinv
    obtain ⟨hfail, hrun⟩ := hs t hrely hinv
    refine ⟨fun exception ↦ ih _ (hfail exception), fun hallows draw reply u hperform ↦ ?_⟩
    obtain ⟨hinv', hguarantee, hnext, hlost⟩ := hrun hallows draw reply u hperform
    exact ⟨hinv', hguarantee, fun htrusts ↦ ih _ (hnext htrusts),
      fun exception ↦ ih _ (hlost exception)⟩

/-- Safety survives what the others do. -/
theorem rely {post : Except ε β → σ → Prop}
    (hpost : ∀ result s t, post result s → c.rely w s t → c.invariant t → post result t)
    {program : Program Op Reply ε β} {s t : σ} (h : Safe c w post program s)
    (hrely : c.rely w s t) (hinv : c.invariant t) : Safe c w post program t := by
  cases program with
  | ret value => exact hpost _ _ _ h hrely hinv
  | raise exception => exact hpost _ _ _ h hrely hinv
  | perform operation next =>
    intro u hrely' hinv'
    exact h u (c.rely_trans w s t u hrely hrely') hinv'

/-- Sequencing: the first program ends where the second one is safe, or with an exception both end
with. -/
theorem bind {post : Except ε γ → σ → Prop} {rest : β → Program Op Reply ε γ}
    {program : Program Op Reply ε β} : ∀ {s : σ},
    Safe c w (fun result t ↦ match result with
      | .ok value => Safe c w post (rest value) t
      | .error exception => post (.error exception) t) program s →
    Safe c w post (program >>= rest) s := by
  induction program with
  | ret value => intro s hs; exact hs
  | raise exception => intro s hs; exact hs
  | perform operation next ih =>
    intro s hs t hrely hinv
    obtain ⟨hfail, hrun⟩ := hs t hrely hinv
    refine ⟨fun exception ↦ ih _ (hfail exception), fun hallows draw reply u hperform ↦ ?_⟩
    obtain ⟨hinv', hguarantee, hnext, hlost⟩ := hrun hallows draw reply u hperform
    exact ⟨hinv', hguarantee, fun htrusts ↦ ih _ (hnext htrusts),
      fun exception ↦ ih _ (hlost exception)⟩

/-- A caught exception is an ordinary value. -/
theorem attempt {post : Except ε (Except ε β) → σ → Prop} {program : Program Op Reply ε β} :
    ∀ {s : σ}, Safe c w (fun result t ↦ post (.ok result) t) program s →
      Safe c w post program.attempt s := by
  induction program with
  | ret value => intro s hs; exact hs
  | raise exception => intro s hs; exact hs
  | perform operation next ih =>
    intro s hs t hrely hinv
    obtain ⟨hfail, hrun⟩ := hs t hrely hinv
    refine ⟨fun exception ↦ ih _ (hfail exception), fun hallows draw reply u hperform ↦ ?_⟩
    obtain ⟨hinv', hguarantee, hnext, hlost⟩ := hrun hallows draw reply u hperform
    exact ⟨hinv', hguarantee, fun htrusts ↦ ih _ (hnext htrusts),
      fun exception ↦ ih _ (hlost exception)⟩

/-- One operation: what it does to any shared state the others may have left, and how it may
fail. -/
theorem call {operation : Op} {post : Except ε (Reply operation) → σ → Prop} {s : σ}
    (h : ∀ t, c.rely w s t → c.invariant t → (∀ exception, post (.error exception) t) ∧
      (c.allows w operation t → ∀ draw reply u,
        sem.perform w operation draw t = some (reply, u) →
          c.invariant u ∧ (∀ v, v ≠ w → c.rely v t u) ∧
            (c.trusts w operation t → post reply u) ∧ ∀ exception, post (.error exception) u)) :
    Safe c w post (Program.call operation) s := by
  intro t hrely hinv
  obtain ⟨hfail, hrun⟩ := h t hrely hinv
  refine ⟨fun exception ↦ hfail exception, fun hallows draw reply u hperform ↦ ?_⟩
  obtain ⟨hinv', hguarantee, hpost, hlost⟩ := hrun hallows draw reply u hperform
  refine ⟨hinv', hguarantee, fun htrusts ↦ ?_, fun exception ↦ hlost exception⟩
  cases reply with
  | ok value => exact hpost htrusts
  | error exception => exact hpost htrusts

/-- What neither the others nor the worker itself can undo still holds when the program ends. -/
theorem frame {kept : σ → Prop} {post : Except ε β → σ → Prop}
    (hrely : ∀ s t, kept s → c.rely w s t → kept t)
    (hown : ∀ operation draw s reply t, kept s →
      sem.perform w operation draw s = some (reply, t) → kept t)
    {program : Program Op Reply ε β} : ∀ {s : σ}, kept s → Safe c w post program s →
      Safe c w (fun result t ↦ post result t ∧ kept t) program s := by
  induction program with
  | ret value => intro s hkept hs; exact ⟨hs, hkept⟩
  | raise exception => intro s hkept hs; exact ⟨hs, hkept⟩
  | perform operation next ih =>
    intro s hkept hs t ht hinv
    obtain ⟨hfail, hrun⟩ := hs t ht hinv
    have hkept_t := hrely s t hkept ht
    refine ⟨fun exception ↦ ih _ hkept_t (hfail exception),
      fun hallows draw reply u hperform ↦ ?_⟩
    obtain ⟨hinv', hguarantee, hnext, hlost⟩ := hrun hallows draw reply u hperform
    have hkept_u := hown operation draw t reply u hkept_t hperform
    exact ⟨hinv', hguarantee, fun htrusts ↦ ih _ hkept_u (hnext htrusts),
      fun exception ↦ ih _ hkept_u (hlost exception)⟩

end Safe

/-- The end of a part of a handler that promises something of the value it returns, and nothing of
its exceptions. -/
def Returns {β : Type} (promise : β → σ → Prop) : Except ε β → σ → Prop
  | .ok value, s => promise value s
  | .error _, _ => True

/-- The end of a part of a handler that promises one thing of the value it returns, and another of
its exceptions. -/
def Settles {β : Type} (promise : β → σ → Prop) (kept : σ → Prop) : Except ε β → σ → Prop
  | .ok value, s => promise value s
  | .error _, s => kept s

namespace Safe

variable {c : Contract sem ρ α} {w : ℕ} {β γ : Type}

/-- One operation, of whose exceptions nothing is promised. -/
theorem call_returns {operation : Op} {promise : Reply operation → σ → Prop} {s : σ}
    (h : ∀ t, c.rely w s t → c.invariant t → c.allows w operation t → ∀ draw reply u,
      sem.perform w operation draw t = some (reply, u) →
        c.invariant u ∧ (∀ v, v ≠ w → c.rely v t u) ∧ ∀ value, reply = .ok value → promise value u) :
    Safe c w (Returns promise) (Program.call operation) s := by
  refine Safe.call fun t hrely hinv ↦ ⟨fun _ ↦ trivial, fun hallows draw reply u hperform ↦ ?_⟩
  obtain ⟨hinv', hothers, hpromise⟩ := h t hrely hinv hallows draw reply u hperform
  refine ⟨hinv', hothers, fun _ ↦ ?_, fun _ ↦ trivial⟩
  cases reply with
  | ok value => exact hpromise value rfl
  | error exception => trivial

/-- Sequencing, for parts that promise nothing of their exceptions. -/
theorem andThen {promise : β → σ → Prop} {post : γ → σ → Prop} {rest : β → Program Op Reply ε γ}
    {program : Program Op Reply ε β} {s : σ} (h : Safe c w (Returns promise) program s)
    (hrest : ∀ value t, promise value t → Safe c w (Returns post) (rest value) t) :
    Safe c w (Returns post) (program >>= rest) s := by
  refine Safe.bind (Safe.imp (fun result t hresult ↦ ?_) h)
  cases result with
  | ok value => exact hrest value t hresult
  | error exception => trivial

/-- Sequencing, where something is still promised when a part ends with an exception. -/
theorem thenSettles {promise : β → σ → Prop} {kept : σ → Prop} {post : γ → σ → Prop}
    {rest : β → Program Op Reply ε γ} {program : Program Op Reply ε β} {s : σ}
    (h : Safe c w (Settles promise kept) program s)
    (hrest : ∀ value t, promise value t → Safe c w (Settles post kept) (rest value) t) :
    Safe c w (Settles post kept) (program >>= rest) s := by
  refine Safe.bind (Safe.imp (fun result t hresult ↦ ?_) h)
  cases result with
  | ok value => exact hrest value t hresult
  | error exception => exact hresult

/-- Sequencing, with what relates the state before the first part to the state after it: a relation
that whatever the others do satisfies, and every operation of the worker's own. -/
theorem andThenFramed {grows : σ → σ → Prop} {promise : β → σ → Prop} {post : γ → σ → Prop}
    {rest : β → Program Op Reply ε γ} {program : Program Op Reply ε β} {s : σ}
    (hrefl : ∀ s, grows s s) (htrans : ∀ s t u, grows s t → grows t u → grows s u)
    (hrely : ∀ s t, c.rely w s t → grows s t)
    (hown : ∀ operation draw s reply t, sem.perform w operation draw s = some (reply, t) →
      grows s t)
    (h : Safe c w (Returns promise) program s)
    (hrest : ∀ value t, grows s t → promise value t → Safe c w (Returns post) (rest value) t) :
    Safe c w (Returns post) (program >>= rest) s := by
  have hframed := Safe.frame (fun t u ht hothers ↦ htrans s t u ht (hrely t u hothers))
    (fun operation draw t reply u ht hperform ↦
      htrans s t u ht (hown operation draw t reply u hperform)) (hrefl s) h
  refine Safe.bind (Safe.imp (fun result t hresult ↦ ?_) hframed)
  cases result with
  | ok value => exact hrest value t hresult.2 hresult.1
  | error exception => trivial

/-- A caught exception comes without a promise. -/
theorem caught {promise : β → σ → Prop} {program : Program Op Reply ε β} {s : σ}
    (h : Safe c w (Returns promise) program s) :
    Safe c w (Returns fun (result : Except ε β) t ↦ ∀ value, result = .ok value → promise value t)
      program.attempt s := by
  refine Safe.attempt (Safe.imp (fun result t hresult value heq ↦ ?_) h)
  subst heq
  exact hresult

/-- A program with an operation after it, which does no harm in any state. -/
theorem ensuring {program : Program Op Reply ε β} {cleanup : Op} {s : σ}
    (h : Safe c w (Returns fun _ _ ↦ True) program s)
    (hcleanup : ∀ t, Safe c w (Returns fun _ _ ↦ True) (Program.call cleanup) t) :
    Safe c w (Returns fun _ _ ↦ True) (program.ensuring cleanup) s := by
  refine Safe.andThen (Safe.caught h) fun result t _ ↦ ?_
  refine Safe.andThen (hcleanup t) fun _ t _ ↦ ?_
  cases result with
  | ok value => exact Safe.ret trivial
  | error exception => exact Safe.raise trivial

end Safe

namespace Contract

/-- The condition of a contract on the steps of a run: only admitted requests start, only allowed
operations take effect, only trusted replies arrive, and the environment makes only tolerated
changes. -/
def Permits (c : Contract sem ρ α) (s : System σ (Program Op Reply ε α)) : Event ρ ε δ χ → Prop
  | .start _ request => c.admits request
  | .run w _ => ∀ operation ∈ s.next w,
    c.allows w operation s.shared ∧ c.trusts w operation s.shared
  | .fail _ _ => True
  | .lose w _ _ => ∀ operation ∈ s.next w, c.allows w operation s.shared
  | .environment change => c.tolerates change s.shared

/-- A contract without conditions on replies. -/
theorem permits_of_starting {c : Contract sem ρ α}
    (htrusts : ∀ w operation s, c.trusts w operation s) {s : System σ (Program Op Reply ε α)}
    {event : Event ρ ε δ χ}
    (htolerates : ∀ change, event = .environment change → c.tolerates change s.shared)
    (hadmits : ∀ w request, event = .start w request → c.admits request)
    (h : s.Acts c.allows event) : c.Permits s event := by
  cases event with
  | start w request => exact hadmits w request rfl
  | run w draw =>
    intro operation hnext
    refine ⟨h w operation ?_, htrusts w operation s.shared⟩
    exact Option.map_eq_some_iff.mpr ⟨operation, hnext, rfl⟩
  | fail w exception => trivial
  | lose w draw exception =>
    intro operation hnext
    exact h w operation (Option.map_eq_some_iff.mpr ⟨operation, hnext, rfl⟩)
  | environment change => exact htolerates change rfl

/-- A contract whose only condition is on the operations that take effect. -/
theorem permits_of_acting {c : Contract sem ρ α} (hadmits : ∀ request, c.admits request)
    (htrusts : ∀ w operation s, c.trusts w operation s)
    (htolerates : ∀ change s, c.tolerates change s) {s : System σ (Program Op Reply ε α)}
    {event : Event ρ ε δ χ} (h : s.Acts c.allows event) : c.Permits s event :=
  permits_of_starting htrusts (fun change _ ↦ htolerates change s.shared)
    (fun _ request _ ↦ hadmits request) h

/-- A run of admitted requests whose operations are all allowed where they take effect. -/
theorem meets_permits {c : Contract sem ρ α} {handler : ρ → Program Op Reply ε α}
    (htrusts : ∀ w operation s, c.trusts w operation s)
    (htolerates : ∀ change s, c.tolerates change s) {s : System σ (Program Op Reply ε α)}
    {events : List (Event ρ ε δ χ)}
    (hadmits : ∀ w request, Event.start w request ∈ events → c.admits request)
    (h : Meets sem handler (fun s event ↦ s.Acts c.allows event) s events) :
    Meets sem handler c.Permits s events := by
  have hstarts : ∀ event ∈ events, ∀ w request, event = Event.start w request →
      c.admits request := by
    rintro event hmem w request rfl
    exact hadmits w request hmem
  exact meets_imp (fun s event hevent ↦ permits_of_starting htrusts
    (fun change _ ↦ htolerates change s.shared) hevent.2 hevent.1) (meets_and_of_forall hstarts h)

/-- The invariant holds, and every worker is idle or has a safe program left. -/
structure Holds (c : Contract sem ρ α) (s : System σ (Program Op Reply ε α)) : Prop where
  invariant : c.invariant s.shared
  idle : ∀ w, s.worker w = none → c.idle w s.shared
  safe : ∀ w program, s.worker w = some program → Safe c w (c.ends w) program s.shared

/-- Every admitted request is answered by a safe program. -/
def Handles (c : Contract sem ρ α) (handler : ρ → Program Op Reply ε α) : Prop :=
  ∀ w request s, c.admits request → c.invariant s → c.idle w s →
    Safe c w (c.ends w) (handler request) s

/-- A step of worker `w` that is safe for its program and tolerable for all others. -/
theorem holds_resume {c : Contract sem ρ α} {s : System σ (Program Op Reply ε α)} (h : c.Holds s)
    {w : ℕ} {shared : σ} {program : Program Op Reply ε α} (hinv : c.invariant shared)
    (hguarantee : ∀ v, v ≠ w → c.rely v s.shared shared)
    (hsafe : Safe c w (c.ends w) program shared) : c.Holds (s.resume w shared program) := by
  refine ⟨hinv, fun v hidle ↦ ?_, fun v left hleft ↦ ?_⟩
  · have hv : v ≠ w := by
      rintro rfl
      rw [System.resume_worker_self] at hidle
      cases hidle
    rw [System.resume_worker_of_ne _ hv] at hidle
    exact c.idle_stable v _ _ (h.idle v hidle) (hguarantee v hv) hinv
  · by_cases hv : v = w
    · subst hv
      rw [System.resume_worker_self, Option.some.injEq] at hleft
      subst hleft
      exact hsafe
    · rw [System.resume_worker_of_ne _ hv] at hleft
      exact (h.safe v left hleft).rely (c.ends_stable v) (hguarantee v hv) hinv

/-- A step keeps a contract when the request that starts with it, if one does, is answered by a safe
program. -/
theorem holds_step_of_start {c : Contract sem ρ α} {handler : ρ → Program Op Reply ε α}
    {s t : System σ (Program Op Reply ε α)} {event : Event ρ ε δ χ}
    (hstart : ∀ w request, event = .start w request → c.admits request → c.invariant s.shared →
      c.idle w s.shared → Safe c w (c.ends w) (handler request) s.shared)
    (h : c.Holds s) (hpermits : c.Permits s event) (hstep : step sem handler s event = some t) :
    c.Holds t := by
  rcases step_cases sem handler hstep with ⟨w, request, rfl, hidle, rfl⟩ |
    ⟨w, draw, operation, next, reply, shared, rfl, hworker, hperform, rfl⟩ |
    ⟨w, exception, operation, next, rfl, hworker, rfl⟩ |
    ⟨w, draw, exception, operation, next, reply, shared, rfl, hworker, hperform, rfl⟩ |
    ⟨change, shared, rfl, hchange, rfl⟩
  · exact holds_resume h h.invariant (fun v _ ↦ c.rely_refl v s.shared)
      (hstart w request rfl hpermits h.invariant (h.idle w hidle))
  · obtain ⟨-, hrun⟩ := h.safe w _ hworker s.shared (c.rely_refl w _) h.invariant
    obtain ⟨hallows, htrusts⟩ := hpermits operation (System.next_eq_some hworker)
    obtain ⟨hinv, hguarantee, hnext, -⟩ := hrun hallows draw reply shared hperform
    exact holds_resume h hinv hguarantee (hnext htrusts)
  · obtain ⟨hfail, -⟩ := h.safe w _ hworker s.shared (c.rely_refl w _) h.invariant
    exact holds_resume h h.invariant (fun v _ ↦ c.rely_refl v s.shared) (hfail exception)
  · obtain ⟨-, hrun⟩ := h.safe w _ hworker s.shared (c.rely_refl w _) h.invariant
    obtain ⟨hinv, hguarantee, -, hlost⟩ :=
      hrun (hpermits operation (System.next_eq_some hworker)) draw reply shared hperform
    exact holds_resume h hinv hguarantee (hlost exception)
  · obtain ⟨hinv, hrely⟩ := c.environment_safe change s.shared shared h.invariant hpermits hchange
    exact ⟨hinv, fun w hidle ↦ c.idle_stable w _ _ (h.idle w hidle) (hrely w) hinv,
      fun w program hworker ↦ (h.safe w program hworker).rely (c.ends_stable w) (hrely w) hinv⟩

theorem holds_step {c : Contract sem ρ α} {handler : ρ → Program Op Reply ε α}
    (hhandles : c.Handles handler) {s t : System σ (Program Op Reply ε α)} {event : Event ρ ε δ χ}
    (h : c.Holds s) (hpermits : c.Permits s event) (hstep : step sem handler s event = some t) :
    c.Holds t :=
  holds_step_of_start (fun w request _ ↦ hhandles w request s.shared) h hpermits hstep

/-- A contract that knows which requests its run starts holds after the run. -/
theorem run_safe_of_starts {c : Contract sem ρ α} {handler : ρ → Program Op Reply ε α}
    {events : List (Event ρ ε δ χ)}
    (hstarts : ∀ w request, Event.start w request ∈ events → ∀ s, c.admits request →
      c.invariant s → c.idle w s → Safe c w (c.ends w) (handler request) s) :
    ∀ {s t : System σ (Program Op Reply ε α)}, c.Holds s → Meets sem handler c.Permits s events →
      run sem handler s events = some t → c.Holds t := by
  induction events with
  | nil =>
    intro s t h _ hrun
    cases hrun
    exact h
  | cons event events ih =>
    intro s t h hpermits hrun
    obtain ⟨next, hstep, hrest⟩ := run_cons_eq_some.mp hrun
    refine ih (fun w request hmem ↦ hstarts w request (List.mem_cons_of_mem _ hmem))
      (holds_step_of_start ?_ h hpermits.1 hstep) (hpermits.2 next hstep) hrest
    rintro w request rfl
    exact hstarts w request List.mem_cons_self s.shared

/-- When every handler is safe, the contract holds after every run it permits. -/
theorem run_safe {c : Contract sem ρ α} {handler : ρ → Program Op Reply ε α}
    (hhandles : c.Handles handler) {s t : System σ (Program Op Reply ε α)}
    {events : List (Event ρ ε δ χ)} (h : c.Holds s)
    (hpermits : Meets sem handler c.Permits s events)
    (hrun : run sem handler s events = some t) : c.Holds t :=
  run_invariant (fun _ _ _ hs hcondition hstep ↦ holds_step hhandles hs hcondition hstep) h hpermits
    hrun

/-- What a worker that stands by may rely on in a step of another. -/
theorem Holds.rely_step {c : Contract sem ρ α} {handler : ρ → Program Op Reply ε α}
    {s t : System σ (Program Op Reply ε α)} {event : Event ρ ε δ χ} (h : c.Holds s)
    (hpermits : c.Permits s event) (hstep : step sem handler s event = some t) {v : ℕ}
    (hv : event.worker ≠ some v) : c.rely v s.shared t.shared := by
  rcases step_cases sem handler hstep with ⟨w, request, rfl, hidle, rfl⟩ |
    ⟨w, draw, operation, next, reply, shared, rfl, hworker, hperform, rfl⟩ |
    ⟨w, exception, operation, next, rfl, hworker, rfl⟩ |
    ⟨w, draw, exception, operation, next, reply, shared, rfl, hworker, hperform, rfl⟩ |
    ⟨change, shared, rfl, hchange, rfl⟩
  · exact c.rely_refl v s.shared
  · obtain ⟨-, hrun⟩ := h.safe w _ hworker s.shared (c.rely_refl w _) h.invariant
    obtain ⟨hallows, -⟩ := hpermits operation (System.next_eq_some hworker)
    exact (hrun hallows draw reply shared hperform).2.1 v fun heq ↦ hv (congrArg some heq.symm)
  · exact c.rely_refl v s.shared
  · obtain ⟨-, hrun⟩ := h.safe w _ hworker s.shared (c.rely_refl w _) h.invariant
    exact (hrun (hpermits operation (System.next_eq_some hworker)) draw reply shared hperform).2.1 v
      fun heq ↦ hv (congrArg some heq.symm)
  · exact (c.environment_safe change s.shared shared h.invariant hpermits hchange).2 v

/-- What a worker that stands by may rely on holds of a whole run. -/
theorem run_rely {c : Contract sem ρ α} {handler : ρ → Program Op Reply ε α}
    (hhandles : c.Handles handler) {v : ℕ} {events : List (Event ρ ε δ χ)} :
    ∀ {s t : System σ (Program Op Reply ε α)}, c.Holds s →
      Meets sem handler c.Permits s events → run sem handler s events = some t →
      (∀ event ∈ events, event.worker ≠ some v) → c.rely v s.shared t.shared := by
  induction events with
  | nil =>
    intro s t _ _ hrun _
    cases hrun
    exact c.rely_refl v s.shared
  | cons event events ih =>
    intro s t h hpermits hrun hv
    obtain ⟨next, hstep, hrest⟩ := run_cons_eq_some.mp hrun
    exact c.rely_trans v _ _ _
      (h.rely_step hpermits.1 hstep (hv event List.mem_cons_self))
      (ih (holds_step hhandles h hpermits.1 hstep) (hpermits.2 next hstep) hrest
        fun later hlater ↦ hv later (List.mem_cons_of_mem _ hlater))

/-- What follows of a step from the contract before and after it, and from what may be relied on
between it and the end of the run, holds of every step of a run that the contract permits. -/
theorem run_meets {c : Contract sem ρ α} {handler : ρ → Program Op Reply ε α}
    (hhandles : c.Handles handler) {last : System σ (Program Op Reply ε α)}
    {condition : System σ (Program Op Reply ε α) → Event ρ ε δ χ → Prop}
    (hcondition : ∀ s event next, c.Holds s → c.Permits s event →
      step sem handler s event = some next → c.Holds next →
      (∃ v, c.rely v next.shared last.shared) → condition s event)
    {events : List (Event ρ ε δ χ)} :
    ∀ {s : System σ (Program Op Reply ε α)}, c.Holds s → Meets sem handler c.Permits s events →
      run sem handler s events = some last → Meets sem handler condition s events := by
  induction events with
  | nil =>
    intro s _ _ _
    trivial
  | cons event events ih =>
    intro s h hpermits hrun
    obtain ⟨next, hstep, hrest⟩ := run_cons_eq_some.mp hrun
    have hnext := holds_step hhandles h hpermits.1 hstep
    obtain ⟨v, hv⟩ := exists_bystander events
    have hrely := run_rely hhandles hnext (hpermits.2 next hstep) hrest hv
    refine ⟨hcondition s event next h hpermits.1 hstep hnext ⟨v, hrely⟩, fun other hother ↦ ?_⟩
    obtain rfl : next = other := Option.some.inj (hstep.symm.trans hother)
    exact ih hnext (hpermits.2 next hstep) hrest

/-- A system in which no worker has started keeps a contract as soon as its shared state does. -/
theorem holds_of_idle {c : Contract sem ρ α} {s : System σ (Program Op Reply ε α)}
    (hinv : c.invariant s.shared) (hidle : ∀ w, c.idle w s.shared)
    (hworkers : ∀ w, s.worker w = none) : c.Holds s :=
  ⟨hinv, fun w _ ↦ hidle w, fun w program hworker ↦ by rw [hworkers w] at hworker; cases hworker⟩

/-! ### The promise of one request -/

/-- A step keeps what one worker's program is safe for. -/
theorem Holds.safe_step {c : Contract sem ρ α} {handler : ρ → Program Op Reply ε α}
    {s t : System σ (Program Op Reply ε α)} {event : Event ρ ε δ χ} (h : c.Holds s)
    (hpermits : c.Permits s event) (hstep : step sem handler s event = some t)
    (hnext : c.Holds t) {w : ℕ} {post : Except ε α → σ → Prop}
    (hpost : ∀ result s t, post result s → c.rely w s t → c.invariant t → post result t)
    {program : Program Op Reply ε α} (hworker : s.worker w = some program)
    (hsafe : Safe c w post program s.shared) :
    ∃ left, t.worker w = some left ∧ Safe c w post left t.shared := by
  have hguarantee : ∀ v draw operation next reply shared, v ≠ w →
      s.worker v = some (.perform operation next) → c.allows v operation s.shared →
      sem.perform v operation draw s.shared = some (reply, shared) → c.rely w s.shared shared := by
    intro v draw operation next reply shared hv hother hallows hperform
    obtain ⟨-, hrun⟩ := h.safe v _ hother s.shared (c.rely_refl v _) h.invariant
    exact (hrun hallows draw reply shared hperform).2.1 w hv.symm
  have hown : ∀ operation next, s.worker w = some (.perform operation next) →
      Safe c w post (.perform operation next) s.shared := by
    intro operation next hown
    rw [hworker, Option.some.injEq] at hown
    exact hown ▸ hsafe
  rcases step_cases sem handler hstep with ⟨v, request, rfl, hidle, rfl⟩ |
    ⟨v, draw, operation, next, reply, shared, rfl, hother, hperform, rfl⟩ |
    ⟨v, exception, operation, next, rfl, hother, rfl⟩ |
    ⟨v, draw, exception, operation, next, reply, shared, rfl, hother, hperform, rfl⟩ |
    ⟨change, shared, rfl, hchange, rfl⟩
  · have hv : w ≠ v := by
      rintro rfl
      rw [hworker] at hidle
      cases hidle
    exact ⟨program, (System.resume_worker_of_ne _ hv ..).trans hworker, hsafe⟩
  · obtain ⟨hallows, htrusts⟩ := hpermits operation (System.next_eq_some hother)
    by_cases hv : w = v
    · subst hv
      obtain ⟨-, hrun⟩ := hown operation next hother s.shared (c.rely_refl w _) h.invariant
      exact ⟨_, System.resume_worker_self .., (hrun hallows draw reply shared hperform).2.2.1 htrusts⟩
    · refine ⟨program, (System.resume_worker_of_ne _ hv ..).trans hworker, ?_⟩
      exact hsafe.rely hpost (hguarantee v draw operation next reply shared (Ne.symm hv) hother
        hallows hperform) hnext.invariant
  · by_cases hv : w = v
    · subst hv
      obtain ⟨hfail, -⟩ := hown operation next hother s.shared (c.rely_refl w _) h.invariant
      exact ⟨_, System.resume_worker_self .., hfail exception⟩
    · exact ⟨program, (System.resume_worker_of_ne _ hv ..).trans hworker, hsafe⟩
  · have hallows := hpermits operation (System.next_eq_some hother)
    by_cases hv : w = v
    · subst hv
      obtain ⟨-, hrun⟩ := hown operation next hother s.shared (c.rely_refl w _) h.invariant
      exact ⟨_, System.resume_worker_self ..,
        (hrun hallows draw reply shared hperform).2.2.2 exception⟩
    · refine ⟨program, (System.resume_worker_of_ne _ hv ..).trans hworker, ?_⟩
      exact hsafe.rely hpost (hguarantee v draw operation next reply shared (Ne.symm hv) hother
        hallows hperform) hnext.invariant
  · obtain ⟨hinv, hrely⟩ := c.environment_safe change s.shared shared h.invariant hpermits hchange
    exact ⟨program, hworker, hsafe.rely hpost (hrely w) hinv⟩

/-- In a run that the contract permits, a worker's program stays safe for what it is safe for. -/
theorem run_kept {c : Contract sem ρ α} {handler : ρ → Program Op Reply ε α}
    (hhandles : c.Handles handler) {w : ℕ} {post : Except ε α → σ → Prop}
    (hpost : ∀ result s t, post result s → c.rely w s t → c.invariant t → post result t)
    {events : List (Event ρ ε δ χ)} :
    ∀ {s t : System σ (Program Op Reply ε α)} {program : Program Op Reply ε α}, c.Holds s →
      Meets sem handler c.Permits s events → run sem handler s events = some t →
      s.worker w = some program → Safe c w post program s.shared →
      ∃ left, t.worker w = some left ∧ Safe c w post left t.shared := by
  induction events with
  | nil =>
    intro s t program _ _ hrun hworker hsafe
    cases hrun
    exact ⟨program, hworker, hsafe⟩
  | cons event events ih =>
    intro s t program h hpermits hrun hworker hsafe
    obtain ⟨next, hstep, hrest⟩ := run_cons_eq_some.mp hrun
    have hnext := holds_step hhandles h hpermits.1 hstep
    obtain ⟨left, hleft, hsafe'⟩ := h.safe_step hpermits.1 hstep hnext hpost hworker hsafe
    exact ih hnext (hpermits.2 next hstep) hrest hleft hsafe'

/-- In a run that the contract permits, the program of a request that has started is safe for
whatever the request's handler is safe for. -/
theorem run_promise {c : Contract sem ρ α} {handler : ρ → Program Op Reply ε α}
    (hhandles : c.Handles handler) {w : ℕ} {request : ρ} {post : Except ε α → σ → Prop}
    (hpost : ∀ result s t, post result s → c.rely w s t → c.invariant t → post result t)
    (hsafe : ∀ s, c.invariant s → c.idle w s → Safe c w post (handler request) s)
    {events : List (Event ρ ε δ χ)} :
    ∀ {s t : System σ (Program Op Reply ε α)}, c.Holds s →
      Meets sem handler c.Permits s events → run sem handler s events = some t →
      (Event.start w request ∈ events ∨
        ∃ program, s.worker w = some program ∧ Safe c w post program s.shared) →
      ∃ program, t.worker w = some program ∧ Safe c w post program t.shared := by
  induction events with
  | nil =>
    intro s t _ _ hrun hstarted
    cases hrun
    rcases hstarted with hmem | hsafe
    · cases hmem
    · exact hsafe
  | cons event events ih =>
    intro s t h hpermits hrun hstarted
    obtain ⟨next, hstep, hrest⟩ := Option.bind_eq_some_iff.mp hrun
    have hnext := holds_step hhandles h hpermits.1 hstep
    refine ih hnext (hpermits.2 next hstep) hrest ?_
    rcases hstarted with hmem | ⟨program, hworker, hprogram⟩
    · rcases List.mem_cons.mp hmem with rfl | hlater
      · simp only [step] at hstep
        split at hstep
        · rename_i hidle
          cases hstep
          exact .inr ⟨_, System.resume_worker_self .., hsafe _ h.invariant (h.idle w hidle)⟩
        · cases hstep
      · exact .inl hlater
    · exact .inr (h.safe_step hpermits.1 hstep hnext hpost hworker hprogram)

/-- What the contract promises of a request that has been answered. -/
theorem Holds.ends_of_answer {c : Contract sem ρ α} {s : System σ (Program Op Reply ε α)}
    (h : c.Holds s) {w : ℕ} {value : α} (hanswer : s.answer w = some value) :
    c.ends w (.ok value) s.shared :=
  h.safe w _ (System.answer_eq_some.mp hanswer)

end Contract

end Interleaving
