import OpenWhistle.Foundation.Contract
import OpenWhistle.Telemetry.Installation

/-!
# Without consent nothing leaves

The answer is read on every run. As long as the row says no, or is not there, a run of a replica
without `TELEMETRY_ENABLED=true` ends before it asks for the lock, and neither a reset nor a switch
to no changes the answer. So once the switch is off and what was under way has ended, no request
leaves until an admin says yes.
-/

set_option autoImplicit false
set_option relaxedAutoImplicit false

namespace OpenWhistle.Telemetry

open Interleaving

variable {s t : Installation} {w : ℕ} {left : List Request}

/-- Calls that do not say yes: runs where the environment does not either, a switch to no,
a reset. -/
def Call.Unasked : Call → Prop
  | .report cfg => cfg.telemetryEnabled ≠ some true
  | .toggle _ enabled => enabled ≠ "1"
  | .resetId => True
  | .wizardYes => False

/-- The committed row and one that waits say no, and so many requests have left. -/
structure Silent (left : List Request) (s : Installation) : Prop where
  row : ∀ row ∈ s.state, row.enabled = false
  waiting : ∀ item ∈ s.uncommitted, item.2.enabled = false
  requests : s.requests = left

theorem Silent.seen (h : Silent left s) : ∀ row ∈ s.seen w, row.enabled = false := by
  intro row hrow
  unfold Installation.seen at hrow
  split at hrow
  · rename_i v own hitem
    split_ifs at hrow
    · cases hrow
      exact h.waiting _ hitem
    · exact h.row row hrow
  · exact h.row row hrow

/-- Writes that do not say yes. -/
def Write.Denies (write : Write) : Prop := write ≠ .enabled true

theorem Write.Denies.apply {write : Write} (h : write.Denies) {row : TelemetryState}
    (hrow : row.enabled = false) (fresh : String) : (write.apply fresh row).enabled = false := by
  cases write with
  | nothing => exact hrow
  | enabled value =>
    cases value with
    | false => rfl
    | true => exact absurd rfl h
  | lastSentAt time => exact hrow
  | installationId clears => exact hrow

theorem silent_committed (h : Silent left s) {write : Write} (hwrite : write.Denies)
    (fresh : String) : Silent left (s.committed w write fresh) where
  row row hrow := by
    obtain ⟨old, hseen, rfl⟩ := Option.map_eq_some_iff.mp hrow
    exact hwrite.apply (h.seen old hseen) fresh
  waiting item hitem := h.waiting item (Option.filter_eq_some_iff.mp hitem).1
  requests := h.requests

/-- The operations of programs that are not asked. -/
def Quiet : Op → Prop
  | .send _ => False
  | .commit write => write.Denies
  | _ => True

theorem silent_perform {operation : Op} (hquiet : Quiet operation) {draw : Draw}
    {reply : Except Unit (Reply operation)} (h : Silent left s)
    (hperform : perform w operation draw s = some (reply, t)) : Silent left t := by
  cases operation with
  | getState =>
    cases hperform
    exact ⟨h.row, h.waiting, h.requests⟩
  | insertState =>
    simp only [perform] at hperform
    split at hperform
    · cases hperform
      exact h
    · split_ifs at hperform
      cases hperform
      exact h
    · split_ifs at hperform
      cases hperform
      refine ⟨h.row, fun item hitem ↦ ?_, h.requests⟩
      cases hitem
      rfl
  | now =>
    cases hperform
    exact h
  | lock =>
    simp only [perform] at hperform
    split at hperform
    · cases hperform
      exact h
    · cases hperform
      exact ⟨h.row, h.waiting, h.requests⟩
  | send id => exact hquiet.elim
  | commit write =>
    have hcommitted : t = s.committed w write draw.id := by
      cases write with
      | installationId clears =>
        simp only [perform] at hperform
        split_ifs at hperform
        cases hperform
        rfl
      | nothing =>
        cases hperform
        rfl
      | enabled value =>
        cases hperform
        rfl
      | lastSentAt time =>
        cases hperform
        rfl
    rw [hcommitted]
    exact silent_committed h hquiet draw.id
  | rollback =>
    cases hperform
    exact ⟨h.row, fun item hitem ↦ h.waiting item (Option.filter_eq_some_iff.mp hitem).1,
      h.requests⟩

abbrev silence (left : List Request) : Contract semantics Call Bool where
  invariant := Silent left
  rely _ _ _ := True
  rely_refl _ _ := trivial
  rely_trans _ _ _ _ _ _ := trivial
  idle _ _ := True
  idle_stable _ _ _ _ _ _ := trivial
  ends _ _ _ := True
  ends_stable _ _ _ _ _ _ _ := trivial
  admits := Call.Unasked
  allows _ _ _ := True
  trusts _ _ _ := True
  tolerates _ _ := True
  environment_safe change s t h _ hchange := by
    obtain ⟨milliseconds⟩ := change
    cases hchange
    exact ⟨⟨h.row, h.waiting, h.requests⟩, fun _ ↦ trivial⟩

theorem safe_quiet {operation : Op} (hquiet : Quiet operation) :
    Safe (silence left) w (Returns fun _ _ ↦ True) (call operation) s :=
  Safe.call_returns fun _ _ hinv _ _ _ _ hperform ↦
    ⟨silent_perform hquiet hinv hperform, fun _ _ ↦ trivial, fun _ _ ↦ trivial⟩

/-- The row a session reads says no. -/
theorem safe_readNo :
    Safe (silence left) w (Returns fun state _ ↦ ∀ row ∈ state, row.enabled = false)
      (call .getState) s := by
  refine Safe.call_returns fun t _ hinv _ draw reply u hperform ↦ ?_
  cases hperform
  refine ⟨⟨hinv.row, hinv.waiting, hinv.requests⟩, fun _ _ ↦ trivial, fun state heq ↦ ?_⟩
  cases heq
  exact hinv.seen

/-- Neither the environment nor the row says yes. -/
theorem not_enabled {cfg : Settings} (hcfg : cfg.telemetryEnabled ≠ some true)
    {state : Option TelemetryState} (hstate : ∀ row ∈ state, row.enabled = false) :
    cfg.isEnabled state = false := by
  unfold Settings.isEnabled Settings.lockedBy
  cases state with
  | none =>
    split_ifs
    · rfl
    · cases henv : cfg.telemetryEnabled with
      | none => rfl
      | some value =>
        cases value with
        | true => exact absurd henv hcfg
        | false => rfl
  | some row =>
    have hno := hstate row rfl
    split_ifs
    · rfl
    · cases henv : cfg.telemetryEnabled with
      | none => exact hno
      | some value =>
        cases value with
        | true => exact absurd henv hcfg
        | false => rfl

theorem silent_report {cfg : Settings} (hcfg : cfg.telemetryEnabled ≠ some true) :
    Safe (silence left) w (Returns fun _ _ ↦ True) (reportIfDue cfg) s := by
  unfold reportIfDue
  split_ifs
  · exact Safe.ret trivial
  refine Safe.andThen safe_readNo fun state t hstate ↦ ?_
  rw [not_enabled hcfg hstate]
  exact Safe.ret trivial

theorem denies_switchWrite (state : Option TelemetryState) : (switchWrite false state).Denies := by
  cases state with
  | none => exact Write.noConfusion
  | some row =>
    unfold Write.Denies
    by_cases heq : row.enabled = false
    · simp [switchWrite, heq]
    · simp [switchWrite, heq]

theorem silent_toggle (cfg : Settings) {enabled : String} (henabled : enabled ≠ "1") :
    Safe (silence left) w (Returns fun _ _ ↦ True) (systemTelemetryToggle cfg enabled) s := by
  unfold systemTelemetryToggle
  rw [decide_eq_false henabled]
  split_ifs
  · exact Safe.ret trivial
  refine Safe.andThen (safe_quiet trivial) fun state t _ ↦ ?_
  have hswitched : Safe (silence left) w (Returns fun _ _ ↦ True) (switched false state) t := by
    cases state with
    | some row => exact Safe.ret trivial
    | none => exact Safe.ret trivial
  refine Safe.andThen hswitched fun state t _ ↦ ?_
  exact Safe.andThen (safe_quiet (denies_switchWrite state)) fun _ t _ ↦ Safe.ret trivial

theorem silent_resetId :
    Safe (silence left) w (Returns fun _ _ ↦ True) systemTelemetryResetId s := by
  refine Safe.andThen (safe_quiet trivial) fun state t _ ↦ ?_
  cases state with
  | none => exact Safe.ret trivial
  | some row =>
    have hdenies : (Write.installationId row.lastSentAt.isSome).Denies := Write.noConfusion
    exact Safe.andThen (safe_quiet hdenies) fun _ t _ ↦ Safe.ret trivial

theorem silence_handles : (silence left).Handles handler := by
  intro w request s hunasked _ _
  have hsafe : Safe (silence left) w (Returns fun _ _ ↦ True) (handler request) s := by
    cases request with
    | report cfg => exact Safe.ensuring (silent_report hunasked) fun _ ↦ safe_quiet trivial
    | toggle cfg enabled =>
      exact Safe.ensuring (silent_toggle cfg hunasked) fun _ ↦ safe_quiet trivial
    | resetId => exact Safe.ensuring silent_resetId fun _ ↦ safe_quiet trivial
    | wizardYes => exact hunasked.elim
  exact Safe.imp (fun _ _ _ ↦ trivial) hsafe

/-- Once the row says no and what was under way has ended, no request leaves in any interleaving of
calls none of which says yes, and the row goes on saying no. -/
theorem silent_without_consent {middle last : Replicas} {events : List Step}
    (hoff : ∀ row ∈ middle.shared.state, row.enabled = false)
    (hwaiting : middle.shared.uncommitted = none)
    (hended : ∀ w program, middle.worker w = some program → program.Ended)
    (hunasked : ∀ w request, Event.start w request ∈ events → request.Unasked)
    (hrun : run semantics handler middle events = some last) :
    last.shared.requests = middle.shared.requests ∧
      ∀ row ∈ last.shared.state, row.enabled = false := by
  have hholds : (silence middle.shared.requests).Holds middle := by
    refine ⟨⟨hoff, fun item hitem ↦ ?_, rfl⟩, fun _ _ ↦ trivial, fun w program hworker ↦ ?_⟩
    · rw [hwaiting] at hitem
      cases hitem
    · cases program with
      | ret value => exact Safe.ret trivial
      | raise fault => exact Safe.raise trivial
      | perform operation next => cases hended w _ hworker
  have hpermits : Meets semantics handler (silence middle.shared.requests).Permits middle events :=
    Contract.meets_permits (fun _ _ _ ↦ trivial) (fun _ _ ↦ trivial) hunasked
      (meets_of_forall (fun _ _ _ _ _ _ ↦ trivial) middle)
  have hsilent := (Contract.run_safe silence_handles hholds hpermits hrun).invariant
  exact ⟨hsilent.requests, hsilent.row⟩

/-- A run, a reset, and a run a day later, with the switch off. -/
def switchedOff : List Step :=
  [Event.start 1 (.report ⟨false, false, none⟩)] ++ List.replicate 2 (.run 1 ⟨"-", true⟩) ++
    [.start 2 .resetId] ++ List.replicate 3 (.run 2 ⟨"second", true⟩) ++
    [.environment (.tick interval), .start 3 (.report ⟨false, false, none⟩)] ++
    List.replicate 2 (.run 3 ⟨"-", true⟩)

theorem silent_without_consent_of_off : ∃ last,
    run semantics handler (start 0 (fun _ ↦ none) (some ⟨false, "first", none⟩)) switchedOff =
      some last ∧
    last.shared.state = some ⟨false, "second", none⟩ ∧ last.answer 3 = some false ∧
    last.shared.requests = [] := by
  have hrun := run_eq_get (show (run semantics handler (start 0 (fun _ ↦ none)
    (some ⟨false, "first", none⟩)) switchedOff).isSome = true by decide +kernel)
  have hunasked : ∀ w request, Event.start w request ∈ switchedOff → request.Unasked := by
    intro w request hmem
    simp only [switchedOff, List.mem_append, List.mem_cons, List.mem_replicate, List.not_mem_nil,
      Event.start.injEq, reduceCtorEq, and_false, or_false, false_or] at hmem
    rcases hmem with (⟨-, rfl⟩ | ⟨-, rfl⟩) | ⟨-, rfl⟩
    · exact Option.some_ne_none true ∘ Eq.symm
    · trivial
    · exact Option.some_ne_none true ∘ Eq.symm
  have hsilent := silent_without_consent (fun row hrow ↦ by cases hrow; rfl) rfl
    (fun _ _ hworker ↦ by cases hworker) hunasked hrun
  exact ⟨_, hrun, by decide +kernel, by decide +kernel, hsilent.1⟩

end OpenWhistle.Telemetry
