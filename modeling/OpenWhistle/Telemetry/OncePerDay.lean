import OpenWhistle.Foundation.Contract
import OpenWhistle.Telemetry.Steps
import Mathlib.Data.List.Dedup
import Mathlib.Data.List.Perm.Subperm

/-!
# Once a day, whatever the replicas do

The locks are nearly a day apart, and a request leaves only under a lock of its own run, so there
are at most as many. A run sends the identifier that it has read, or that it has made and committed.

That two successes are a whole day apart takes the row as well: a run that has read the row after
the other success was recorded has seen its time, and one that has read it before took its lock at
about the same time as the other. The second cannot be, as long as every run is over within half of
the time that the key stays.
-/

set_option autoImplicit false
set_option relaxedAutoImplicit false

namespace OpenWhistle.Telemetry

open Interleaving

variable {s t u : Installation} {w v : ℕ} {id : String} {since : ℕ}

/-! ### The contract -/

/-- The count, and the days where runs are prompt. -/
structure Kept (since : ℕ) (bound : Option ℕ) (s : Installation) : Prop where
  counted : Counted since s
  daily : ∀ n ∈ bound, Daily n s

/-- Where a bound is given, every step of a run is within it. -/
abbrev telemetry (since : ℕ) (bound : Option ℕ) : Contract semantics Call Bool where
  invariant := Kept since bound
  rely := Around
  rely_refl := Around.refl
  rely_trans _ _ _ _ := Around.trans
  idle := Untouched
  idle_stable _ _ _ h haround _ := h.later haround
  ends _ _ _ := True
  ends_stable _ _ _ _ _ _ _ := trivial
  admits _ := True
  allows w _ s := ∀ n ∈ bound, Prompt n w s
  trusts _ _ _ := True
  tolerates _ _ := True
  environment_safe change s t h _ hchange := by
    obtain ⟨milliseconds⟩ := change
    cases hchange
    refine ⟨⟨counted_tick h.counted milliseconds, fun n hn ↦ ?_⟩, fun w ↦ around_tick milliseconds⟩
    exact (h.daily n hn).beside rfl rfl (fun _ hlock ↦ hlock) (Nat.le_add_right ..) fun _ hid ↦ hid

variable {bound : Option ℕ} {write : Write} {fresh : String}

theorem Kept.beside (h : Kept since bound s) (hcounted : Counted since t)
    (hstate : t.state = s.state) (hsuccesses : t.successes = s.successes)
    (htaken : ∀ lock ∈ s.taken, lock ∈ t.taken) (hclock : s.clock = t.clock)
    (hheld : s.held = t.held) : Kept since bound t where
  counted := hcounted
  daily n hn := (h.daily n hn).beside hstate hsuccesses htaken hclock.le fun _ hid ↦ hheld ▸ hid

theorem kept_commit (h : Kept since bound s) (hwrite : ∀ time, write ≠ .lastSentAt time)
    (hfresh : ∀ clears, write = .installationId clears → fresh ∉ s.drawn) :
    Kept since bound (s.committed w write fresh) where
  counted := counted_commit h.counted write fresh
  daily n hn := daily_commit h.counted (h.daily n hn) hwrite hfresh

/-- A commit that draws an identifier draws a new one. -/
theorem perform_commit (draw : Draw) {reply : Except Unit Unit}
    (hperform : perform w (.commit write) draw s = some (reply, t)) :
    t = s.committed w write draw.id ∧
      ∀ clears, write = .installationId clears → draw.id ∉ s.drawn := by
  cases write with
  | installationId clears =>
    simp only [perform] at hperform
    split_ifs at hperform with hdrawn
    cases hperform
    exact ⟨rfl, fun _ _ ↦ hdrawn⟩
  | nothing =>
    cases hperform
    exact ⟨rfl, fun clears heq ↦ by cases heq⟩
  | enabled value =>
    cases hperform
    exact ⟨rfl, fun clears heq ↦ by cases heq⟩
  | lastSentAt time =>
    cases hperform
    exact ⟨rfl, fun clears heq ↦ by cases heq⟩

/-- What an insert does: nothing, or the row is the session's own. -/
theorem perform_insert (draw : Draw) {reply : Except Unit Unit}
    (hperform : perform w .insertState draw s = some (reply, t)) :
    t = s ∧ (s.state.isSome = true ∨ ∃ row, s.uncommitted = some (w, row)) ∨
      s.state = none ∧ s.uncommitted = none ∧ t = { s with
        uncommitted := some (w, ⟨false, draw.id, none⟩)
        drawn := draw.id :: s.drawn } := by
  simp only [perform] at hperform
  split at hperform
  · rename_i hstate
    cases hperform
    exact .inl ⟨rfl, .inl (by rw [hstate]; rfl)⟩
  · rename_i v row hstate hitem
    split_ifs at hperform with hv
    subst hv
    cases hperform
    exact .inl ⟨rfl, .inr ⟨row, hitem⟩⟩
  · rename_i hstate hitem
    split_ifs at hperform
    cases hperform
    exact .inr ⟨hstate, hitem, rfl⟩

theorem perform_lock (draw : Draw) {reply : Except Unit Bool}
    (hperform : perform w .lock draw s = some (reply, t)) :
    reply = .ok false ∧ t = s ∨
      reply = .ok true ∧ Redis.find s.redis s.clock lockKey = none ∧ t = { s with
        redis := Redis.set s.redis s.clock lockKey "1" lockTtlSeconds
        attempt := Function.update s.attempt w { s.attempt w with lockedAt := some s.clock }
        taken := (w, s.clock) :: s.taken } := by
  simp only [perform] at hperform
  split at hperform
  · cases hperform
    exact .inl ⟨rfl, rfl⟩
  · rename_i hfree
    cases hperform
    exact .inr ⟨rfl, hfree, rfl⟩

/-- The operations that need no more than the invariant. -/
def Free : Op → Prop
  | .send _ => False
  | .commit (.lastSentAt _) => False
  | _ => True

theorem kept_perform {operation : Op} (hfree : Free operation) (draw : Draw)
    {reply : Except Unit (Reply operation)} (h : Kept since bound s)
    (hperform : perform w operation draw s = some (reply, t)) :
    Kept since bound t ∧ ∀ v, v ≠ w → Around v s t := by
  cases operation with
  | getState =>
    cases hperform
    exact ⟨h.beside (counted_now h.counted _) rfl rfl (fun _ hlock ↦ hlock) rfl rfl,
      fun v hv ↦ around_attempt hv _⟩
  | insertState =>
    rcases perform_insert draw hperform with ⟨rfl, -⟩ | ⟨hstate, hitem, rfl⟩
    · exact ⟨h, fun v _ ↦ Around.refl v t⟩
    · exact ⟨h.beside (counted_insert h.counted hstate) rfl rfl (fun _ hlock ↦ hlock) rfl rfl,
        fun v hv ↦ around_insert hv hitem _ _⟩
  | now =>
    cases hperform
    exact ⟨h, fun v _ ↦ Around.refl v s⟩
  | lock =>
    rcases perform_lock draw hperform with ⟨-, rfl⟩ | ⟨-, hgone, rfl⟩
    · exact ⟨h, fun v _ ↦ Around.refl v t⟩
    · exact ⟨h.beside (counted_lock h.counted hgone _) rfl rfl
        (fun _ hlock ↦ List.mem_cons_of_mem _ hlock) rfl rfl, fun v hv ↦ around_lock hv ..⟩
  | send id => exact hfree.elim
  | commit write =>
    obtain ⟨rfl, hdrawn⟩ := perform_commit draw hperform
    refine ⟨kept_commit h (fun time heq ↦ ?_) hdrawn, fun v hv ↦ around_commit hv ..⟩
    subst heq
    exact hfree
  | rollback =>
    cases hperform
    exact ⟨h.beside (counted_rollback h.counted) rfl rfl (fun _ hlock ↦ hlock) rfl rfl,
      fun v hv ↦ around_rollback hv⟩

theorem safe_free {operation : Op} (hfree : Free operation) :
    Safe (telemetry since bound) w (Returns fun _ _ ↦ True) (call operation) s := by
  refine Safe.call_returns fun t _ hinv _ draw reply u hperform ↦ ?_
  obtain ⟨hkept, hothers⟩ := kept_perform hfree draw hinv hperform
  exact ⟨hkept, hothers, fun _ _ ↦ trivial⟩

/-! ### The switch, the reset and the wizard -/

theorem safe_ensureState :
    Safe (telemetry since bound) w (Returns fun _ _ ↦ True) ensureState s := by
  refine Safe.andThen (safe_free trivial) fun _ t _ ↦ ?_
  refine Safe.andThen (safe_free trivial) fun state t _ ↦ ?_
  cases state with
  | some row => exact Safe.ret trivial
  | none => exact Safe.raise trivial

theorem free_switchWrite (wanted : Bool) (state : Option TelemetryState) :
    Free (.commit (switchWrite wanted state)) := by
  cases state with
  | none => trivial
  | some row =>
    by_cases heq : row.enabled = wanted
    · simp [switchWrite, heq, Free]
    · simp [switchWrite, heq, Free]

theorem safe_toggle (cfg : Settings) (enabled : String) :
    Safe (telemetry since bound) w (Returns fun _ _ ↦ True)
      (systemTelemetryToggle cfg enabled) s := by
  unfold systemTelemetryToggle
  split_ifs
  · exact Safe.ret trivial
  refine Safe.andThen (safe_free trivial) fun state t _ ↦ ?_
  have hswitched : Safe (telemetry since bound) w (Returns fun _ _ ↦ True)
      (switched (decide (enabled = "1")) state) t := by
    unfold switched
    cases state with
    | some row => exact Safe.ret trivial
    | none =>
      dsimp only
      split_ifs
      · exact Safe.andThen safe_ensureState fun row t _ ↦ Safe.ret trivial
      · exact Safe.ret trivial
  refine Safe.andThen hswitched fun state t _ ↦ ?_
  exact Safe.andThen (safe_free (free_switchWrite _ state)) fun _ t _ ↦ Safe.ret trivial

theorem safe_resetId :
    Safe (telemetry since bound) w (Returns fun _ _ ↦ True) systemTelemetryResetId s := by
  refine Safe.andThen (safe_free trivial) fun state t _ ↦ ?_
  cases state with
  | none => exact Safe.ret trivial
  | some row => exact Safe.andThen (safe_free trivial) fun _ t _ ↦ Safe.ret trivial

theorem safe_wizardYes :
    Safe (telemetry since bound) w (Returns fun _ _ ↦ True) wizardYes s := by
  refine Safe.andThen safe_ensureState fun row t _ ↦ ?_
  exact Safe.andThen (safe_free (free_switchWrite true (some row))) fun _ t _ ↦ Safe.ret trivial

/-! ### A run -/

/-- What a run knows after its reading. -/
structure Running (bound : Option ℕ) (w readAt : ℕ) (lockedAt : Option ℕ) (id : Option String)
    (before : Success → Prop) (s : Installation) : Prop where
  attempt : s.attempt w = ⟨some readAt, lockedAt, id⟩
  requests : id = none → ∀ r ∈ s.requests, r.worker ≠ w
  successes : ∀ a ∈ s.successes, a.worker ≠ w
  read : readAt ≤ s.clock
  lock : ∀ time ∈ lockedAt, (w, time) ∈ s.taken ∧ readAt ≤ time ∧ time ≤ s.clock
  knows : bound.isSome = true → Knows readAt before s

variable {readAt : ℕ} {lockedAt : Option ℕ} {sentId : Option String} {before after : Success → Prop}

theorem Running.later (h : Running bound w readAt lockedAt sentId before s)
    (haround : Around w s t) : Running bound w readAt lockedAt sentId before t where
  attempt := haround.attempt.trans h.attempt
  requests hnone r hr hworker := h.requests hnone r (haround.requests r hr hworker) hworker
  successes a ha hworker := by
    rcases haround.successes a ha with hold | ⟨hne, -⟩
    · exact h.successes a hold hworker
    · exact hne hworker
  read := h.read.trans haround.clock
  lock time htime := by
    obtain ⟨hmem, hread, hpast⟩ := h.lock time htime
    exact ⟨haround.taken _ hmem, hread, hpast.trans haround.clock⟩
  knows hbound := (h.knows hbound).later h.read haround

theorem Running.imp (h : Running bound w readAt lockedAt sentId before s)
    (himp : ∀ a, before a → after a) : Running bound w readAt lockedAt sentId after s :=
  ⟨h.attempt, h.requests, h.successes, h.read, h.lock, fun hbound a ha ↦
    (h.knows hbound a ha).imp id fun hpast ↦ ⟨hpast.1, himp a hpast.2⟩⟩

/-- The session has no row of its own waiting for a commit. -/
def NoRow (w : ℕ) (s : Installation) : Prop := ∀ row, s.uncommitted ≠ some (w, row)

theorem NoRow.later (h : NoRow w s) (haround : Around w s t) : NoRow w t :=
  fun row hrow ↦ h row ((haround.uncommitted row).mp hrow)

/-- The row is there, has had the identifier, and nothing waits for a commit. -/
structure Settled (w : ℕ) (id : String) (s : Installation) : Prop where
  state : s.state.isSome = true
  held : id ∈ s.held
  own : NoRow w s

theorem Settled.later (h : Settled w id s) (haround : Around w s t) : Settled w id t :=
  ⟨haround.state h.state, haround.held _ h.held, h.own.later haround⟩

/-- The row a run has read tells of the successes before. -/
def ToldBy (state : Option TelemetryState) (a : Success) : Prop :=
  ∃ row, state = some row ∧ Tells row a

/-- What a run has read. -/
structure HasRead (bound : Option ℕ) (w readAt : ℕ) (state : Option TelemetryState)
    (s : Installation) : Prop where
  running : Running bound w readAt none none (ToldBy state) s
  own : NoRow w s
  settled : ∀ row, state = some row → Settled w row.installationId s

theorem HasRead.later {state : Option TelemetryState} (h : HasRead bound w readAt state s)
    (haround : Around w s t) : HasRead bound w readAt state t :=
  ⟨h.running.later haround, h.own.later haround, fun row hrow ↦ (h.settled row hrow).later haround⟩

theorem safe_read (h : Untouched w s) :
    Safe (telemetry since bound) w (Returns fun state t ↦ ∃ readAt, HasRead bound w readAt state t)
      (call .getState) s := by
  refine Safe.call_returns fun t haround hinv _ draw reply u hperform ↦ ?_
  have hfree : Free .getState := trivial
  obtain ⟨hkept, hothers⟩ := kept_perform hfree draw hinv hperform
  refine ⟨hkept, hothers, fun state heq ↦ ?_⟩
  have hidle : Untouched w t := h.later haround
  have hseen : t.seen w = t.state := seen_of_other hidle.uncommitted
  cases hperform
  cases heq
  refine ⟨t.clock, ⟨?_, fun _ ↦ hidle.requests, hidle.successes, le_rfl, fun _ htime ↦ ?_,
    fun hbound a ha ↦ .inr ?_⟩, hidle.uncommitted, fun row hrow ↦ ?_⟩
  · show Function.update t.attempt w _ w = _
    rw [Function.update_self, hidle.attempt]
    rfl
  · cases htime
  · obtain ⟨n, rfl⟩ := Option.isSome_iff_exists.mp hbound
    have hdaily : Daily n t := hinv.daily n rfl
    refine ⟨(hdaily.sound a ha).past, ?_⟩
    show ToldBy (t.seen w) a
    rw [hseen]
    cases hstate : t.state with
    | none =>
      have hnone : t.successes = [] := hdaily.none hstate
      have ha' : a ∈ t.successes := ha
      rw [hnone] at ha'
      cases ha'
    | some row => exact ⟨row, rfl, hdaily.tells row hstate a ha⟩
  · rw [hseen] at hrow
    exact ⟨by rw [show t.state = some row from hrow]; rfl, hinv.counted.row row hrow,
      hidle.uncommitted⟩

/-- A lock that is taken is the run's own. -/
theorem safe_lock {state : Option TelemetryState} (h : Running bound w readAt none none before s)
    (hsettled : ∀ row, state = some row → Settled w row.installationId s) :
    Safe (telemetry since bound) w (Returns fun got t ↦ got = true →
      (∃ time, s.clock ≤ time ∧ Running bound w readAt (some time) none before t) ∧
        ∀ row, state = some row → Settled w row.installationId t) (call .lock) s := by
  refine Safe.call_returns fun t haround hinv _ draw reply u hperform ↦ ?_
  have hfree : Free .lock := trivial
  obtain ⟨hkept, hothers⟩ := kept_perform hfree draw hinv hperform
  refine ⟨hkept, hothers, fun got heq hgot ↦ ?_⟩
  subst heq hgot
  have hrunning := h.later haround
  rcases perform_lock draw hperform with ⟨hfalse, -⟩ | ⟨-, hgone, rfl⟩
  · cases hfalse
  refine ⟨⟨t.clock, haround.clock, ?_, hrunning.requests, hrunning.successes, hrunning.read,
    fun time htime ↦ ?_, hrunning.knows⟩, fun row hrow ↦ ?_⟩
  · show Function.update t.attempt w _ w = _
    rw [Function.update_self, hrunning.attempt]
  · cases htime
    exact ⟨List.mem_cons_self, hrunning.read, le_rfl⟩
  · have hlater := (hsettled row hrow).later haround
    exact ⟨hlater.state, hlater.held, hlater.own⟩

/-- The clock is read between two states of the run. -/
theorem safe_now (own : Installation → Prop) (hown : own s)
    (hlater : ∀ t u, own t → Around w t u → own u) :
    Safe (telemetry since bound) w (Returns fun now t ↦ own t ∧ now = t.clock) (call .now) s := by
  refine Safe.call_returns fun t haround hinv _ draw reply u hperform ↦ ?_
  cases hperform
  refine ⟨hinv, fun v _ ↦ Around.refl v t, fun now heq ↦ ?_⟩
  cases heq
  exact ⟨hlater s t hown haround, rfl⟩

/-- A session that has inserted a row, or need not. -/
def Inserted (w : ℕ) (s : Installation) : Prop :=
  s.state.isSome = true ∨ ∃ row, s.uncommitted = some (w, row)

theorem safe_insert (h : Running bound w readAt lockedAt none before s) :
    Safe (telemetry since bound) w (Returns fun _ t ↦
      Running bound w readAt lockedAt none before t ∧ Inserted w t) (call .insertState) s := by
  refine Safe.call_returns fun t haround hinv _ draw reply u hperform ↦ ?_
  have hfree : Free .insertState := trivial
  obtain ⟨hkept, hothers⟩ := kept_perform hfree draw hinv hperform
  have hrunning := h.later haround
  refine ⟨hkept, hothers, fun _ _ ↦ ?_⟩
  rcases perform_insert draw hperform with ⟨rfl, hthere⟩ | ⟨-, -, rfl⟩
  · exact ⟨hrunning, hthere⟩
  · exact ⟨⟨hrunning.attempt, hrunning.requests, hrunning.successes, hrunning.read, hrunning.lock,
      hrunning.knows⟩, .inr ⟨_, rfl⟩⟩

/-- The row that was found is the session's own, or is committed. -/
def Found (w : ℕ) (row : TelemetryState) (s : Installation) : Prop :=
  s.uncommitted = some (w, row) ∨ Settled w row.installationId s

theorem Found.later {row : TelemetryState} (h : Found w row s) (haround : Around w s t) :
    Found w row t := by
  rcases h with hitem | hsettled
  · exact .inl ((haround.uncommitted row).mpr hitem)
  · exact .inr (hsettled.later haround)

theorem safe_readAgain (h : Running bound w readAt lockedAt none before s) :
    Safe (telemetry since bound) w (Returns fun state t ↦
      Running bound w readAt lockedAt none before t ∧ ∀ row, state = some row → Found w row t)
      (call .getState) s := by
  refine Safe.call_returns fun t haround hinv _ draw reply u hperform ↦ ?_
  have hfree : Free .getState := trivial
  obtain ⟨hkept, hothers⟩ := kept_perform hfree draw hinv hperform
  have hrunning := h.later haround
  refine ⟨hkept, hothers, fun state heq ↦ ?_⟩
  cases hperform
  cases heq
  refine ⟨⟨?_, hrunning.requests, hrunning.successes, hrunning.read, hrunning.lock,
    hrunning.knows⟩, fun row hrow ↦ ?_⟩
  · show Function.update t.attempt w _ w = _
    rw [Function.update_self, hrunning.attempt]
    rfl
  · by_cases hown : ∃ own, t.uncommitted = some (w, own)
    · obtain ⟨own, hitem⟩ := hown
      rw [seen_of_own hitem] at hrow
      cases hrow
      exact .inl hitem
    · rw [seen_of_other (not_exists.mp hown)] at hrow
      exact .inr ⟨by rw [show t.state = some row from hrow]; rfl, hinv.counted.row row hrow,
        not_exists.mp hown⟩

theorem noRow_committed (write : Write) (fresh : String) : NoRow w (s.committed w write fresh) :=
  fun _ hrow ↦ (waiting_eq_some.mp hrow).2 rfl

/-- The row is committed, with the identifier that was found. -/
theorem safe_publish {row : TelemetryState} (h : Running bound w readAt lockedAt none before s)
    (hfound : Found w row s) :
    Safe (telemetry since bound) w (Returns fun _ t ↦
      Running bound w readAt lockedAt none before t ∧ Settled w row.installationId t)
      (call (.commit .nothing)) s := by
  refine Safe.call_returns fun t haround hinv _ draw reply u hperform ↦ ?_
  have hfree : Free (.commit .nothing) := trivial
  obtain ⟨hkept, hothers⟩ := kept_perform hfree draw hinv hperform
  have hrunning := h.later haround
  refine ⟨hkept, hothers, fun _ _ ↦ ?_⟩
  cases hperform
  refine ⟨⟨hrunning.attempt, hrunning.requests, hrunning.successes, hrunning.read, hrunning.lock,
    hrunning.knows⟩, ?_⟩
  rcases hfound.later haround with hitem | hsettled
  · have hstate : (t.committed w .nothing draw.id).state = some row := by
      simp [Installation.committed, seen_of_own hitem, Write.apply]
    refine ⟨by rw [hstate]; rfl, ?_, noRow_committed _ _⟩
    exact (held_committed .nothing draw.id).2 row hstate
  · refine ⟨?_, (held_committed .nothing draw.id).1 _ hsettled.held, noRow_committed _ _⟩
    have hseen := isSome_seen (w := w) hsettled.state
    simpa [Installation.committed] using hseen

/-- The identifier a run sends was committed, and what the run knows is about it. -/
theorem safe_identifier {state : Option TelemetryState} {due time : ℕ}
    (h : Running bound w readAt (some time) none
      (fun a ↦ ∃ row, state = some row ∧ (a.id = row.installationId → a.sentAt + interval ≤ due)) s)
    (hsettled : ∀ row, state = some row → Settled w row.installationId s) :
    Safe (telemetry since bound) w (Returns fun id t ↦ Running bound w readAt (some time) none
      (fun a ↦ a.id = id → a.sentAt + interval ≤ due) t ∧ Settled w id t) (identifier state) s := by
  cases state with
  | some row =>
    refine Safe.ret ⟨h.imp fun a hbefore hid ↦ ?_, hsettled row rfl⟩
    obtain ⟨other, heq, hdue⟩ := hbefore
    cases heq
    exact hdue hid
  | none =>
    have hnothing : Running bound w readAt (some time) none (fun _ ↦ False) s :=
      h.imp fun a hbefore ↦ by
        obtain ⟨row, heq, -⟩ := hbefore
        cases heq
    have hensure : Safe (telemetry since bound) w (Returns fun row t ↦
        Running bound w readAt (some time) none (fun _ ↦ False) t ∧ Found w row t)
      ensureState s := by
      refine Safe.andThen (safe_insert hnothing) fun _ t hinserted ↦ ?_
      refine Safe.andThen (safe_readAgain hinserted.1) fun state t hread ↦ ?_
      cases state with
      | some row => exact Safe.ret ⟨hread.1, hread.2 row rfl⟩
      | none => exact Safe.raise trivial
    refine Safe.andThen hensure fun row t hfound ↦ ?_
    refine Safe.andThen (safe_publish hfound.1 hfound.2) fun _ t hpublished ↦ ?_
    exact Safe.ret ⟨hpublished.1.imp fun _ hfalse ↦ hfalse.elim, hpublished.2⟩

/-- The request leaves, under the lock of its run. -/
theorem safe_send {time : ℕ} (h : Running bound w readAt (some time) none before s)
    (hsettled : Settled w id s) :
    Safe (telemetry since bound) w (Returns fun _ t ↦
      Running bound w readAt (some time) (some id) before t ∧ Settled w id t)
      (call (.send id)) s := by
  refine Safe.call_returns fun t haround hinv _ draw reply u hperform ↦ ?_
  have hrunning := h.later haround
  have hsettled' := hsettled.later haround
  obtain ⟨hmem, hread, hpast⟩ := hrunning.lock time rfl
  cases hperform
  have hlockedAt : (t.attempt w).lockedAt.getD 0 = time := by
    rw [hrunning.attempt]
    rfl
  rw [hlockedAt]
  refine ⟨?_, fun v hv ↦ around_send hv _ rfl, fun _ _ ↦ ?_⟩
  · refine hinv.beside ?_ rfl rfl (fun _ hlock ↦ hlock) rfl rfl
    exact counted_send hinv.counted _ (hrunning.requests rfl) hmem hsettled'.held
  · refine ⟨⟨?_, fun hnone ↦ (by cases hnone), hrunning.successes, hrunning.read, hrunning.lock,
      hrunning.knows⟩, hsettled'.state, hsettled'.held, hsettled'.own⟩
    show Function.update t.attempt w _ w = _
    rw [Function.update_self, hrunning.attempt]

/-- A success is recorded. -/
theorem safe_record {time sentAt : ℕ} (hbound : ∀ n ∈ bound, 2 * n ≤ lockTtl)
    (h : Running bound w readAt (some time) (some id)
      (fun a ↦ a.id = id → a.sentAt + interval ≤ sentAt) s)
    (hsettled : Settled w id s) (hsent : time ≤ sentAt) (hstored : sentAt ≤ s.clock) :
    Safe (telemetry since bound) w (Returns fun _ _ ↦ True)
      (call (.commit (.lastSentAt sentAt))) s := by
  refine Safe.call_returns fun t haround hinv hprompt draw reply u hperform ↦ ?_
  have hrunning := h.later haround
  have hsettled' := hsettled.later haround
  obtain ⟨hmem, hread, -⟩ := hrunning.lock time rfl
  cases hperform
  refine ⟨⟨counted_commit hinv.counted _ _, fun n hn ↦ ?_⟩, fun v hv ↦ around_commit hv ..,
    fun _ _ ↦ trivial⟩
  have hwithin : t.clock < readAt + n := hprompt n hn readAt (by rw [hrunning.attempt]; rfl)
  have hknows := hrunning.knows (Option.isSome_iff_exists.mpr ⟨n, hn⟩)
  exact daily_success hinv.counted (hinv.daily n hn) (hbound n hn) hrunning.attempt hmem hread hsent
    (hstored.trans haround.clock) hwithin hsettled'.held hrunning.successes hsettled'.state hknows

/-- The part of a run that has found a day passed. -/
theorem safe_attemptReport {state : Option TelemetryState} {due : ℕ}
    (hbound : ∀ n ∈ bound, 2 * n ≤ lockTtl)
    (h : Running bound w readAt none none
      (fun a ↦ ∃ row, state = some row ∧ (a.id = row.installationId → a.sentAt + interval ≤ due)) s)
    (hsettled : ∀ row, state = some row → Settled w row.installationId s) (hdue : due ≤ s.clock) :
    Safe (telemetry since bound) w (Returns fun _ _ ↦ True) (attemptReport state) s := by
  refine Safe.andThen (Safe.caught (safe_lock h hsettled)) fun result t hresult ↦ ?_
  cases result with
  | error fault => exact Safe.ret trivial
  | ok got =>
    cases got with
    | false => exact Safe.ret trivial
    | true =>
      obtain ⟨⟨time, htime, hrunning⟩, hsettled⟩ := hresult true rfl rfl
      refine Safe.andThen (safe_identifier hrunning hsettled) fun id t hid ↦ ?_
      have hsend : Safe (telemetry since bound) w (Returns fun accepted t ↦ accepted = true →
          Running bound w readAt (some time) (some id)
            (fun a ↦ a.id = id → a.sentAt + interval ≤ due) t ∧ Settled w id t)
          (sendReport id) t := by
        refine Safe.andThen (Safe.caught (safe_send hid.1 hid.2)) fun result t hresult ↦ ?_
        cases result with
        | error fault => exact Safe.ret fun hfalse ↦ (by cases hfalse)
        | ok accepted => exact Safe.ret fun _ ↦ hresult accepted rfl
      refine Safe.andThen hsend fun accepted t haccepted ↦ ?_
      split_ifs with hyes
      · refine Safe.andThen (safe_now (fun t ↦ Running bound w readAt (some time)
          (some id) (fun a ↦ a.id = id → a.sentAt + interval ≤ due) t ∧ Settled w id t)
        (haccepted hyes)
          fun t u ht haround ↦ ⟨ht.1.later haround, ht.2.later haround⟩) fun now t hnow ↦ ?_
        obtain ⟨⟨hrunning, hsettled⟩, rfl⟩ := hnow
        have hpast := (hrunning.lock time rfl).2.2
        have hrecorded : Running bound w readAt (some time) (some id)
            (fun a ↦ a.id = id → a.sentAt + interval ≤ t.clock) t :=
          hrunning.imp fun a hbefore hid ↦ (hbefore hid).trans (hdue.trans (htime.trans hpast))
        exact Safe.andThen (safe_record hbound hrecorded hsettled hpast le_rfl) fun _ t _ ↦
          Safe.ret trivial
      · exact Safe.ret trivial

/-- What the row tells, once a day has passed since the success it holds. -/
theorem due_of_told {state : Option TelemetryState} {now : ℕ} {a : Success}
    (hdue : ∀ row, state = some row → row.due now = true) (h : ToldBy state a) :
    ∃ row, state = some row ∧ (a.id = row.installationId → a.sentAt + interval ≤ now) := by
  obtain ⟨row, rfl, htells⟩ := h
  refine ⟨row, rfl, fun hid ↦ ?_⟩
  obtain ⟨last, hlast, hle⟩ := htells hid
  have hpassed := hdue row rfl
  rw [TelemetryState.due, hlast] at hpassed
  have hday := of_decide_eq_true hpassed
  omega

theorem safe_reportIfDue (cfg : Settings) (hbound : ∀ n ∈ bound, 2 * n ≤ lockTtl)
    (h : Untouched w s) :
    Safe (telemetry since bound) w (Returns fun _ _ ↦ True) (reportIfDue cfg) s := by
  unfold reportIfDue
  split_ifs
  · exact Safe.ret trivial
  refine Safe.andThen (safe_read h) fun state t hread ↦ ?_
  obtain ⟨readAt, hread⟩ := hread
  split_ifs
  · cases state with
    | none =>
      refine safe_attemptReport hbound (hread.running.imp fun a htold ↦ ?_) hread.settled le_rfl
      obtain ⟨row, heq, -⟩ := htold
      cases heq
    | some row =>
      refine Safe.andThen (safe_now (HasRead bound w readAt (some row)) hread fun _ _ ht haround ↦
        ht.later haround) fun now t hnow ↦ ?_
      obtain ⟨hread, rfl⟩ := hnow
      split_ifs with hdue
      · refine safe_attemptReport hbound (hread.running.imp fun a htold ↦ ?_) hread.settled le_rfl
        refine due_of_told (fun other heq ↦ ?_) htold
        cases heq
        exact hdue
      · exact Safe.ret trivial
  · exact Safe.ret trivial

theorem telemetry_handles (hbound : ∀ n ∈ bound, 2 * n ≤ lockTtl) :
    (telemetry since bound).Handles handler := by
  intro w request s _ _ hidle
  have hsafe : Safe (telemetry since bound) w (Returns fun _ _ ↦ True) (handler request) s := by
    cases request with
    | report cfg =>
      exact Safe.ensuring (safe_reportIfDue cfg hbound hidle) fun _ ↦ safe_free trivial
    | toggle cfg enabled => exact Safe.ensuring (safe_toggle cfg enabled) fun _ ↦ safe_free trivial
    | resetId => exact Safe.ensuring safe_resetId fun _ ↦ safe_free trivial
    | wizardYes => exact Safe.ensuring safe_wizardYes fun _ ↦ safe_free trivial
  exact Safe.imp (fun _ _ _ ↦ trivial) hsafe

/-! ### Whole runs -/

theorem telemetry_start (clock : ℕ) (redis : Redis.Store) (state : Option TelemetryState) :
    (telemetry clock bound).Holds (start clock redis state) := by
  refine Contract.holds_of_idle ⟨⟨le_rfl, fun _ hlast ↦ (by cases hlast), List.Pairwise.nil,
    fun _ hmem ↦ (by cases hmem), List.nodup_nil, fun _ hmem ↦ (by cases hmem),
    fun _ hmem ↦ (by cases hmem), ?_, fun _ hid ↦ hid, fun _ hitem ↦ (by cases hitem), ?_, ?_⟩,
    fun n _ ↦ ⟨fun _ hmem ↦ (by cases hmem), fun _ _ _ hmem ↦ (by cases hmem), List.Pairwise.nil,
      fun _ ↦ rfl⟩⟩ (fun w ↦ ⟨rfl, fun _ hmem ↦ (by cases hmem), fun _ hmem ↦ (by cases hmem),
      fun _ hrow ↦ (by cases hrow)⟩) fun _ ↦ rfl
  · intro row hrow
    cases hrow
    exact List.mem_singleton_self _
  · cases state with
    | none => exact le_rfl
    | some row => exact le_rfl
  · intro hnone
    have hstate : state = none := hnone
    subst hstate
    rfl

/-- So many locks take so much time. -/
theorem length_taken (h : Counted since s) : (s.taken.length - 1) * lockTtl ≤ s.clock - since := by
  have hfirst : ∀ (lock : ℕ × ℕ) (older : List (ℕ × ℕ)), (lock :: older).Pairwise Apart →
      (∀ other ∈ lock :: older, since ≤ other.2) → older.length * lockTtl + since ≤ lock.2 := by
    intro lock older
    induction older generalizing lock with
    | nil =>
      intro _ hsince
      rw [List.length_nil, Nat.zero_mul, Nat.zero_add]
      exact hsince lock List.mem_cons_self
    | cons next older ih =>
      intro hapart hsince
      obtain ⟨hnext, hrest⟩ := List.pairwise_cons.mp hapart
      have holder := ih next hrest fun other hother ↦ hsince other (List.mem_cons_of_mem _ hother)
      have hgap : next.2 + lockTtl ≤ lock.2 := hnext next List.mem_cons_self
      rw [List.length_cons, Nat.succ_mul]
      omega
  cases htaken : s.taken with
  | nil => simp
  | cons lock older =>
    have hapart := h.apart
    have htimes := h.times
    rw [htaken] at hapart htimes
    have hlong := hfirst lock older hapart fun other hother ↦ (htimes other hother).1
    have hpast := (htimes lock List.mem_cons_self).2
    rw [List.length_cons, Nat.add_sub_cancel]
    omega

/-- No more requests than locks. -/
theorem length_requests (h : Counted since s) : s.requests.length ≤ s.taken.length := by
  have hsubset : s.requests.map Request.worker ⊆ s.taken.map Prod.fst := by
    intro worker hworker
    obtain ⟨r, hr, rfl⟩ := List.mem_map.mp hworker
    exact List.mem_map.mpr ⟨_, (h.locked r hr).1, rfl⟩
  have hle := (List.Nodup.subperm h.once hsubset).length_le
  rwa [List.length_map, List.length_map] at hle

section Runs

variable {clock : ℕ} {redis : Redis.Store} {state : Option TelemetryState} {events : List Step}
  {last : Replicas}

theorem counted_of_run (hrun : run semantics handler (start clock redis state) events = some last) :
    Counted clock last.shared := by
  have hbound : ∀ n ∈ (none : Option ℕ), 2 * n ≤ lockTtl := fun n hn ↦ (by cases hn)
  have hpermits : Meets semantics handler (telemetry clock none).Permits
      (start clock redis state) events := by
    refine meets_of_forall (fun event _ s ↦ ?_) _
    refine Contract.permits_of_acting (fun _ ↦ trivial) (fun _ _ _ ↦ trivial) (fun _ _ ↦ trivial) ?_
    intro w operation _ n hn
    cases hn
  exact (Contract.run_safe (telemetry_handles hbound) (telemetry_start clock redis state) hpermits
    hrun).invariant.counted

/-- However the runs of any replicas interleave and fail: the locks under which any two requests
left are at least the lifetime of the key apart, and so many requests take so much time. -/
theorem requests_apart (hrun : run semantics handler (start clock redis state) events = some last) :
    (last.shared.requests.Pairwise fun r r' ↦
      r.lockedAt + lockTtl ≤ r'.lockedAt ∨ r'.lockedAt + lockTtl ≤ r.lockedAt) ∧
    (∀ r ∈ last.shared.requests,
      clock ≤ r.lockedAt ∧ r.lockedAt ≤ r.leftAt ∧ r.leftAt ≤ last.shared.clock) ∧
    (last.shared.requests.length - 1) * lockTtl ≤ last.shared.clock - clock := by
  have h := counted_of_run hrun
  refine ⟨?_, fun r hr ↦ ?_, ?_⟩
  · have hworkers : last.shared.requests.Pairwise fun r r' ↦ r.worker ≠ r'.worker :=
      List.pairwise_map.mp h.once
    refine hworkers.imp_of_mem fun {r r'} hr hr' hne ↦ ?_
    exact apart_of_mem h.apart (h.locked r hr).1 (h.locked r' hr').1
      fun heq ↦ hne (congrArg Prod.fst heq)
  · obtain ⟨hlock, hleft, hpast⟩ := h.locked r hr
    exact ⟨(h.times _ hlock).1, hleft, hpast⟩
  · have hlength : last.shared.requests.length - 1 ≤ last.shared.taken.length - 1 :=
      Nat.sub_le_sub_right (length_requests h) 1
    exact (Nat.mul_le_mul_right _ hlength).trans (length_taken h)

/-- The far end sees at most one identifier more than were reset. -/
theorem identifiers_of_resets
    (hrun : run semantics handler (start clock redis state) events = some last) :
    (last.shared.requests.map Request.id).dedup.length ≤ 1 + last.shared.resets := by
  have h := counted_of_run hrun
  have hsubset : (last.shared.requests.map Request.id).dedup ⊆ last.shared.held := by
    intro id hid
    obtain ⟨r, hr, rfl⟩ := List.mem_map.mp (List.mem_dedup.mp hid)
    exact h.held r hr
  have hle := (List.Nodup.subperm (List.nodup_dedup _) hsubset).length_le
  have hrow : last.shared.state.toList.length ≤ 1 := by
    cases last.shared.state with
    | none => exact Nat.zero_le _
    | some row => exact le_rfl
  have hfew := h.few
  omega

instance decidablePrompt (n w : ℕ) (s : Installation) : Decidable (Prompt n w s) :=
  inferInstanceAs (Decidable (∀ readAt ∈ (s.attempt w).readAt, s.clock < readAt + n))

/-- Every step of a run comes within a time of its reading of the row. -/
def Punctual (n : ℕ) (s : Replicas) (event : Step) : Prop :=
  s.Acts (fun w _ t ↦ Prompt n w t) event

instance decidablePunctual (n : ℕ) (s : Replicas) (event : Step) : Decidable (Punctual n s event) :=
  inferInstanceAs (Decidable (s.Acts (fun w _ t ↦ Prompt n w t) event))

/-- Where no run takes longer than half of the time that the key stays, the successes under one
identifier are a whole day apart, on whatever replicas they were. -/
theorem successes_day_apart {n : ℕ} (hn : 2 * n ≤ lockTtl)
    (hpunctual : Meets semantics handler (Punctual n) (start clock redis state) events)
    (hrun : run semantics handler (start clock redis state) events = some last) :
    last.shared.successes.Pairwise fun later earlier ↦
      later.id = earlier.id → earlier.sentAt + interval ≤ later.sentAt := by
  have hbound : ∀ m ∈ some n, 2 * m ≤ lockTtl := fun m hm ↦ by
    cases hm
    exact hn
  have hpermits : Meets semantics handler (telemetry clock (some n)).Permits
      (start clock redis state) events := by
    refine meets_imp (fun s event hevent ↦ ?_) hpunctual
    refine Contract.permits_of_acting (fun _ ↦ trivial) (fun _ _ _ ↦ trivial) (fun _ _ ↦ trivial) ?_
    intro w operation hacting m hm
    cases hm
    exact hevent w operation hacting
  exact ((Contract.run_safe (telemetry_handles hbound) (telemetry_start clock redis state) hpermits
    hrun).invariant.daily n rfl).apart

end Runs

/-! ### Two replicas -/

def plain : Settings := ⟨false, false, none⟩

def drawn (id : String) : Draw := ⟨id, true⟩

/-- The switch goes on, two replicas ask at once, and a day later one asks again after a reset. -/
def twoReplicas : List Step :=
  [Event.start 1 (.toggle plain "1")] ++ List.replicate 5 (.run 1 (drawn "first")) ++
    [.start 2 (.report plain), .start 3 (.report plain), .run 2 (drawn "-"), .run 3 (drawn "-"),
      .environment (.tick 20)] ++
    List.replicate 6 (.run 2 (drawn "-")) ++ List.replicate 3 (.run 3 (drawn "-")) ++
    [.environment (.tick interval), .start 4 (.report plain)] ++
    List.replicate 7 (.run 4 (drawn "-")) ++
    [.environment (.tick interval), .start 5 .resetId] ++
    List.replicate 3 (.run 5 (drawn "second")) ++
    [.start 6 (.report plain)] ++ List.replicate 7 (.run 6 (drawn "-"))

theorem requests_apart_of_two : ∃ last,
    run semantics handler (start 0 (fun _ ↦ none) none) twoReplicas = some last ∧
    last.shared.requests.map (fun r ↦ (r.worker, r.id)) =
      [(6, "second"), (4, "first"), (2, "first")] ∧
    (last.shared.requests.length - 1) * lockTtl ≤ last.shared.clock - 0 := by
  have hrun := run_eq_get (show (run semantics handler (start 0 (fun _ ↦ none) none)
    twoReplicas).isSome = true by decide +kernel)
  exact ⟨_, hrun, by decide +kernel, (requests_apart hrun).2.2⟩

theorem identifiers_of_resets_of_two : ∃ last,
    run semantics handler (start 0 (fun _ ↦ none) none) twoReplicas = some last ∧
    last.shared.resets = 1 ∧
    (last.shared.requests.map Request.id).dedup.length ≤ 1 + last.shared.resets := by
  have hrun := run_eq_get (show (run semantics handler (start 0 (fun _ ↦ none) none)
    twoReplicas).isSome = true by decide +kernel)
  exact ⟨_, hrun, by decide +kernel, identifiers_of_resets hrun⟩

theorem successes_day_apart_of_two : ∃ last,
    run semantics handler (start 0 (fun _ ↦ none) none) twoReplicas = some last ∧
    last.shared.successes.map Success.sentAt = [2 * interval + 20, interval + 20, 20] ∧
    last.shared.successes.Pairwise fun later earlier ↦
      later.id = earlier.id → earlier.sentAt + interval ≤ later.sentAt := by
  have hrun := run_eq_get (show (run semantics handler (start 0 (fun _ ↦ none) none)
    twoReplicas).isSome = true by decide +kernel)
  have hpunctual : Meets semantics handler (Punctual 43050000) (start 0 (fun _ ↦ none) none)
      twoReplicas := by decide +kernel
  exact ⟨_, hrun, by decide +kernel, successes_day_apart (by decide) hpunctual hrun⟩

end OpenWhistle.Telemetry
