import OpenWhistle.Foundation.Contract
import OpenWhistle.Setup.Wizard

/-!
# Setup happens once

Whoever has written anything holds the advisory lock, and setup was not complete when it looked under
the lock. Nobody else can complete it meanwhile, because that takes the lock. So the transaction that
makes the account finds setup open, and publishes the account, its audit entry and the mark at once;
whoever takes the lock next finds setup complete and writes nothing.
-/

set_option autoImplicit false
set_option relaxedAutoImplicit false

namespace OpenWhistle.Setup

open Interleaving Accounts

variable {s t u : Instance} {w v : ℕ} {existing : List AdminUser}

/-- The completed mark, as it is committed. -/
def Instance.isComplete (s : Instance) : Bool :=
  match s.setup with
  | none => false
  | some status => status.completed

/-- The audit log has the entry of an account. -/
def Recorded (account : AdminUser) (audit : List AdminCreated) : Prop :=
  ∃ org, account.orgId = some org ∧ ⟨account.id, account.username, account.role, org⟩ ∈ audit

/-- The request supplied the token that was stored when it was checked. -/
def Right (compared : Option (Option String × String)) : Prop :=
  ∃ token, token ≠ "" ∧ compared = some (some token, token)

/-- Nothing was made, or one account was, with its entry and the mark, by a request with the right
token. -/
def AllOrNothing (s : Instance) : Prop :=
  (s.isComplete = false ∧ s.made = []) ∨
    s.isComplete = true ∧ ∃ made, s.made = [made] ∧ Recorded made.account s.audit ∧
      Right made.compared

/-! ### The invariant -/

structure Sound (existing : List AdminUser) (s : Instance) : Prop where
  holder : ∀ w, s.writes w ≠ Writes.empty → s.lock = some w
  incomplete : ∀ w, s.writes w ≠ Writes.empty → s.isComplete = false
  made : AllOrNothing s
  accounts : s.accounts = s.made.map Made.account ++ existing

structure Around (w : ℕ) (s t : Instance) : Prop where
  writes : t.writes w = s.writes w
  compared : t.compared w = s.compared w
  lock : s.lock = some w → t.lock = some w ∧ t.setup = s.setup
  done : s.isComplete = true →
    t.setup = s.setup ∧ t.accounts = s.accounts ∧ t.audit = s.audit ∧ t.made = s.made

theorem Around.refl (w : ℕ) (s : Instance) : Around w s s :=
  ⟨rfl, rfl, fun h ↦ ⟨h, rfl⟩, fun _ ↦ ⟨rfl, rfl, rfl, rfl⟩⟩

theorem Around.trans (hst : Around w s t) (htu : Around w t u) : Around w s u where
  writes := htu.writes.trans hst.writes
  compared := htu.compared.trans hst.compared
  lock h := by
    obtain ⟨hlock, hsetup⟩ := hst.lock h
    obtain ⟨hlock', hsetup'⟩ := htu.lock hlock
    exact ⟨hlock', hsetup'.trans hsetup⟩
  done h := by
    obtain ⟨hsetup, haccounts, haudit, hmade⟩ := hst.done h
    have hcomplete : t.isComplete = true := by
      rw [Instance.isComplete, hsetup]
      exact h
    obtain ⟨hsetup', haccounts', haudit', hmade'⟩ := htu.done hcomplete
    exact ⟨hsetup'.trans hsetup, haccounts'.trans haccounts, haudit'.trans haudit,
      hmade'.trans hmade⟩

/-- A step that changes neither the tables nor what transactions have written, and takes no lock. -/
structure Beside (w : ℕ) (s t : Instance) : Prop where
  setup : t.setup = s.setup
  accounts : t.accounts = s.accounts
  audit : t.audit = s.audit
  lock : t.lock = s.lock
  writes : t.writes = s.writes
  compared : ∀ v, v ≠ w → t.compared v = s.compared v
  made : t.made = s.made

theorem Beside.sound (h : Beside w s t) (hinv : Sound existing s) : Sound existing t := by
  have hcomplete : t.isComplete = s.isComplete := by
    rw [Instance.isComplete, Instance.isComplete, h.setup]
  refine ⟨fun v ↦ ?_, fun v ↦ ?_, ?_, ?_⟩
  · rw [h.writes, h.lock]
    exact hinv.holder v
  · rw [h.writes, hcomplete]
    exact hinv.incomplete v
  · rw [AllOrNothing, hcomplete, h.made, h.audit]
    exact hinv.made
  · rw [h.accounts, h.made]
    exact hinv.accounts

theorem Beside.around (h : Beside w s t) (hv : v ≠ w) : Around v s t :=
  ⟨congrFun h.writes v, h.compared v hv, fun hlock ↦ ⟨h.lock.trans hlock, h.setup⟩,
    fun _ ↦ ⟨h.setup, h.accounts, h.audit, h.made⟩⟩

/-! ### What a transaction knows -/

/-- The transaction holds the lock, and setup is not complete. -/
structure Holding (w : ℕ) (s : Instance) : Prop where
  lock : s.lock = some w
  incomplete : s.isComplete = false

theorem Holding.later (h : Holding w s) (haround : Around w s t) : Holding w t := by
  obtain ⟨hlock, hsetup⟩ := haround.lock h.lock
  refine ⟨hlock, ?_⟩
  rw [Instance.isComplete, hsetup]
  exact h.incomplete

/-- Only the holder of the lock has written anything. -/
theorem Sound.writes_of_ne (hinv : Sound existing s) (hlock : s.lock = some w) (hv : v ≠ w) :
    s.writes v = Writes.empty := by
  by_contra hne
  have hholder := hinv.holder v hne
  rw [hlock] at hholder
  exact hv (Option.some.inj hholder).symm

theorem sound_write (hinv : Sound existing s) (hholding : Holding w s) (change : Writes → Writes) :
    Sound existing (s.write w change) where
  holder v hne := by
    by_cases hv : v = w
    · subst hv
      exact hholding.lock
    · exact hinv.holder v fun hempty ↦ hne ((Function.update_of_ne hv ..).trans hempty)
  incomplete _ _ := hholding.incomplete
  made := hinv.made
  accounts := hinv.accounts

theorem around_write (hv : v ≠ w) (change : Writes → Writes) : Around v s (s.write w change) :=
  ⟨Function.update_of_ne hv .., rfl, fun hlock ↦ ⟨hlock, rfl⟩, fun _ ↦ ⟨rfl, rfl, rfl, rfl⟩⟩

theorem writes_write (change : Writes → Writes) :
    (s.write w change).writes w = change (s.writes w) :=
  Function.update_self ..

theorem sound_ended (hinv : Sound existing s) : Sound existing (s.ended w) := by
  have hothers : ∀ v, (s.ended w).writes v ≠ Writes.empty → v ≠ w ∧ s.writes v ≠ Writes.empty := by
    intro v hne
    by_cases hv : v = w
    · subst hv
      exact absurd (Function.update_self ..) hne
    · exact ⟨hv, fun hempty ↦ hne ((Function.update_of_ne hv ..).trans hempty)⟩
  refine ⟨fun v hne ↦ ?_, fun v hne ↦ hinv.incomplete v (hothers v hne).2, hinv.made,
    hinv.accounts⟩
  obtain ⟨hv, hne⟩ := hothers v hne
  have hlock := hinv.holder v hne
  simp only [Instance.ended]
  rw [if_neg fun hheld ↦ hv (Option.some.inj (hlock.symm.trans hheld))]
  exact hlock

theorem around_ended (hv : v ≠ w) : Around v s (s.ended w) where
  writes := Function.update_of_ne hv ..
  compared := rfl
  lock hlock := by
    refine ⟨?_, rfl⟩
    simp only [Instance.ended]
    rw [if_neg fun hheld ↦ hv (Option.some.inj (hlock.symm.trans hheld))]
    exact hlock
  done _ := ⟨rfl, rfl, rfl, rfl⟩

/-- What setup commits: an account with its entry, and the mark. -/
structure Whole (writes : Writes) (account : AdminUser) : Prop where
  stored : writes.account = some account
  entry : Recorded account writes.entry.toList
  setup : ∃ status, writes.setup = some status ∧ status.completed = true

theorem isComplete_committed {account : AdminUser} (h : Whole (s.writes w) account) :
    (s.committed w).isComplete = true := by
  obtain ⟨status, hstatus, hcompleted⟩ := h.setup
  simp [Instance.isComplete, Instance.committed, Instance.setupSeen, hstatus, hcompleted]

theorem sound_committed {account : AdminUser} (hinv : Sound existing s) (hholding : Holding w s)
    (hwhole : Whole (s.writes w) account) (hright : Right (s.compared w)) :
    Sound existing (s.committed w) := by
  have hempty : ∀ v, (s.committed w).writes v = Writes.empty := by
    intro v
    by_cases hv : v = w
    · subst hv
      exact Function.update_self ..
    · exact (Function.update_of_ne hv ..).trans (hinv.writes_of_ne hholding.lock hv)
  have hnone : s.made = [] := by
    rcases hinv.made with ⟨-, hmade⟩ | ⟨hcomplete, -⟩
    · exact hmade
    · rw [hholding.incomplete] at hcomplete
      cases hcomplete
  have hmade : (s.committed w).made = [⟨w, account, s.compared w⟩] := by
    simp [Instance.committed, hwhole.stored, hnone]
  refine ⟨fun v hne ↦ absurd (hempty v) hne, fun v hne ↦ absurd (hempty v) hne, ?_, ?_⟩
  · refine .inr ⟨isComplete_committed hwhole, _, hmade, ?_, hright⟩
    obtain ⟨org, horg, hmem⟩ := hwhole.entry
    exact ⟨org, horg, List.mem_append_left _ hmem⟩
  · rw [hmade]
    simp [Instance.committed, hwhole.stored, hinv.accounts, hnone]

theorem around_committed (hholding : Holding w s) (hv : v ≠ w) :
    Around v s (s.committed w) where
  writes := Function.update_of_ne hv ..
  compared := rfl
  lock hlock := absurd (Option.some.inj (hlock.symm.trans hholding.lock)) hv
  done hcomplete := by
    rw [hholding.incomplete] at hcomplete
    cases hcomplete

/-! ### The contract -/

/-- What the requests of the wizard owe each other. -/
def wizard (existing : List AdminUser) : Contract semantics Request Answer where
  invariant := Sound existing
  rely := Around
  rely_refl := Around.refl
  rely_trans _ _ _ _ := Around.trans
  idle w s := s.writes w = Writes.empty
  idle_stable _ _ _ h haround _ := haround.writes.trans h
  ends _ _ _ := True
  ends_stable _ _ _ _ _ _ _ := trivial
  admits _ := True
  allows _ _ _ := True
  trusts _ _ _ := True
  tolerates _ _ := True
  environment_safe := by
    intro change s t hinv _ hchange
    cases change with
    | loseToken =>
      cases hchange
      refine ⟨⟨hinv.holder, hinv.incomplete, hinv.made, hinv.accounts⟩, fun w ↦ ?_⟩
      exact ⟨rfl, rfl, fun hlock ↦ ⟨hlock, rfl⟩, fun _ ↦ ⟨rfl, rfl, rfl, rfl⟩⟩

/-- The transaction has written nothing. -/
def Clean (w : ℕ) (s : Instance) : Prop := s.writes w = Writes.empty

theorem Clean.later (h : Clean w s) (haround : Around w s t) : Clean w t :=
  haround.writes.trans h

/-- The request has compared the right token. -/
def Admitted (w : ℕ) (s : Instance) : Prop := Right (s.compared w)

theorem Admitted.later (h : Admitted w s) (haround : Around w s t) : Admitted w t := by
  rw [Admitted, haround.compared]
  exact h

/-- A step that writes nothing. -/
theorem safe_beside {operation : Op} {promise : Reply operation → Instance → Prop}
    (hbeside : ∀ draw t reply u, perform w operation draw t = some (reply, u) → Beside w t u)
    (hpromise : ∀ draw t value u, Around w s t → Sound existing t →
      perform w operation draw t = some (.ok value, u) → promise value u) :
    Safe (wizard existing) w (Returns promise) (call operation) s := by
  refine Safe.call_returns fun t haround hinv _ draw reply u hperform ↦ ?_
  have h := hbeside draw t reply u hperform
  refine ⟨h.sound hinv, fun v hv ↦ h.around hv, fun value heq ↦ ?_⟩
  subst heq
  exact hpromise draw t value u haround hinv hperform

/-- What the session has loaded is of no account to others. -/
theorem safe_setup {populateExisting : Bool} {keeps : Instance → Prop}
    (hkeeps : ∀ t, Around w s t → keeps { t with
      loaded := Function.update t.loaded w (t.readSetup w populateExisting) }) :
    Safe (wizard existing) w (Returns fun _ ↦ keeps) (call (.setup populateExisting)) s := by
  refine safe_beside (fun _ _ _ _ hperform ↦ ?_) fun draw t value u haround hinv hperform ↦ ?_
  · cases hperform
    exact ⟨rfl, rfl, rfl, rfl, rfl, fun _ _ ↦ rfl, rfl⟩
  · cases hperform
    exact hkeeps t haround

/-- Setup is read again: what a clean transaction sees is what is committed. -/
theorem safe_isSetupComplete (hclean : Clean w s) {keeps : Instance → Prop}
    (hkeeps : ∀ t loaded, Around w s t → keeps { t with loaded := loaded }) :
    Safe (wizard existing) w (Returns fun complete t ↦ keeps t ∧
      (complete = false → s.lock = some w → Holding w t)) isSetupComplete s := by
  have hread : Safe (wizard existing) w (Returns fun setup t ↦ (keeps t ∧
      (s.lock = some w → t.lock = some w)) ∧ setup = t.setup) (call (.setup true)) s := by
    refine safe_beside (fun _ _ _ _ hperform ↦ ?_) fun draw t value u haround hinv hperform ↦ ?_
    · cases hperform
      exact ⟨rfl, rfl, rfl, rfl, rfl, fun _ _ ↦ rfl, rfl⟩
    · cases hperform
      refine ⟨⟨hkeeps t _ haround, fun hlock ↦ (haround.lock hlock).1⟩, ?_⟩
      have hseen : t.setupSeen w = t.setup := by
        rw [Instance.setupSeen, hclean.later haround]
        rfl
      simp only [Instance.readSetup, hseen]
      cases t.setup with
      | none => rfl
      | some row => rfl
  refine Safe.andThen hread fun setup t hsetup ↦ Safe.ret ⟨hsetup.1.1, fun hfalse hlock ↦ ?_⟩
  refine ⟨hsetup.1.2 hlock, ?_⟩
  rw [Instance.isComplete, ← hsetup.2]
  cases setup with
  | none => rfl
  | some status => exact hfalse

theorem safe_lock (hclean : Clean w s) (hadmitted : Admitted w s) :
    Safe (wizard existing) w (Returns fun _ t ↦ t.lock = some w ∧ Clean w t ∧ Admitted w t)
      (call .lock) s := by
  refine Safe.call_returns fun t haround hinv _ draw reply u hperform ↦ ?_
  simp only [semantics, perform] at hperform
  split_ifs at hperform with hfree
  have hclean' : Clean w t := hclean.later haround
  have hadmitted' : Admitted w t := hadmitted.later haround
  cases hperform
  refine ⟨⟨fun v hne ↦ ?_, hinv.incomplete, hinv.made, hinv.accounts⟩, fun v hv ↦ ?_,
    fun _ _ ↦ ⟨rfl, hclean', hadmitted'⟩⟩
  · have hholder := hinv.holder v hne
    rcases hfree with hfree | hfree
    · rw [hfree] at hholder
      cases hholder
    · exact hfree.symm.trans hholder
  · refine ⟨rfl, rfl, fun hlock ↦ ?_, fun _ ↦ ⟨rfl, rfl, rfl, rfl⟩⟩
    rcases hfree with hfree | hfree
    · rw [hfree] at hlock
      cases hlock
    · exact absurd (Option.some.inj (hlock.symm.trans hfree)) hv

/-- What a transaction that holds the lock has written. -/
structure Wrote (w : ℕ) (pattern : Writes → Prop) (s : Instance) : Prop where
  holding : Holding w s
  admitted : Admitted w s
  writes : pattern (s.writes w)

theorem Wrote.later {pattern : Writes → Prop} (h : Wrote w pattern s) (haround : Around w s t) :
    Wrote w pattern t :=
  ⟨h.holding.later haround, h.admitted.later haround, haround.writes.symm ▸ h.writes⟩

/-- One more thing is written under the lock, or nothing has changed. -/
theorem safe_write {operation : Op} {before : Writes → Prop}
    {after : Reply operation → Writes → Prop} (h : Wrote w before s)
    (hwrites : ∀ draw t reply u, perform w operation draw t = some (reply, u) →
      ∃ change, u = t.write w change ∧
        ∀ value, reply = .ok value → before (t.writes w) → after value (change (t.writes w))) :
    Safe (wizard existing) w (Returns fun value ↦ Wrote w (after value)) (call operation) s := by
  refine Safe.call_returns fun t haround hinv _ draw reply u hperform ↦ ?_
  have hwrote := h.later haround
  obtain ⟨change, rfl, hafter⟩ := hwrites draw t reply u hperform
  refine ⟨sound_write hinv hwrote.holding change, fun v hv ↦ around_write hv change,
    fun value heq ↦ ⟨⟨hwrote.holding.lock, hwrote.holding.incomplete⟩, hwrote.admitted, ?_⟩⟩
  rw [writes_write]
  exact hafter value heq hwrote.writes

theorem write_id : s.write w id = s := by
  simp [Instance.write]

theorem safe_commit {account : AdminUser} (h : Wrote w (fun writes ↦ Whole writes account) s) :
    Safe (wizard existing) w (Returns fun _ _ ↦ True) (call .commit) s := by
  refine Safe.call_returns fun t haround hinv _ draw reply u hperform ↦ ?_
  have hwrote := h.later haround
  cases hperform
  exact ⟨sound_committed hinv hwrote.holding hwrote.writes hwrote.admitted,
    fun v hv ↦ around_committed hwrote.holding hv, fun _ _ ↦ trivial⟩

theorem safe_rollback : Safe (wizard existing) w (Returns fun _ _ ↦ True) (call .rollback) s := by
  refine Safe.call_returns fun t haround hinv _ draw reply u hperform ↦ ?_
  cases hperform
  exact ⟨sound_ended hinv, fun v hv ↦ around_ended hv, fun _ _ ↦ trivial⟩

theorem safe_defaultOrg (h : Wrote w (fun _ ↦ True) s) :
    Safe (wizard existing) w (Returns fun _ ↦ Wrote w fun _ ↦ True) (call .defaultOrg) s := by
  refine safe_write h fun draw t reply u hperform ↦ ?_
  simp only [perform] at hperform
  split at hperform
  · cases hperform
    exact ⟨id, write_id.symm, fun _ _ _ ↦ trivial⟩
  · cases hperform
    exact ⟨_, rfl, fun _ _ _ ↦ trivial⟩

/-- The account is written, in the organisation it was asked for. -/
theorem safe_insertAdmin {username totpSecret : String} {org : ℕ} (h : Wrote w (fun _ ↦ True) s) :
    Safe (wizard existing) w (Returns fun admin ↦ Wrote w fun writes ↦
      writes.account = some admin ∧ admin.orgId = some org)
      (call (.insertAdmin username totpSecret org)) s := by
  refine safe_write h fun draw t reply u hperform ↦ ?_
  simp only [perform] at hperform
  split_ifs at hperform
  · cases hperform
    exact ⟨id, write_id.symm, fun _ heq ↦ nomatch heq⟩
  · cases hperform
    refine ⟨_, rfl, fun admin heq _ ↦ ?_⟩
    cases heq
    exact ⟨rfl, rfl⟩

theorem safe_log {admin : AdminUser} {org : ℕ} (h : Wrote w (fun writes ↦
    writes.account = some admin ∧ admin.orgId = some org) s) :
    Safe (wizard existing) w (Returns fun _ ↦ Wrote w fun writes ↦
      writes.account = some admin ∧ Recorded admin writes.entry.toList)
      (call (.log ⟨admin.id, admin.username, admin.role, org⟩)) s := by
  refine safe_write h fun draw t reply u hperform ↦ ?_
  cases hperform
  exact ⟨_, rfl, fun _ _ hbefore ↦ ⟨hbefore.1, org, hbefore.2, List.mem_singleton_self _⟩⟩

theorem safe_complete {admin : AdminUser} (h : Wrote w (fun writes ↦
    writes.account = some admin ∧ Recorded admin writes.entry.toList) s) :
    Safe (wizard existing) w (Returns fun _ ↦ Wrote w fun writes ↦ Whole writes admin)
      (call .complete) s := by
  refine safe_write h fun draw t reply u hperform ↦ ?_
  cases hperform
  exact ⟨_, rfl, fun _ _ hbefore ↦ ⟨hbefore.1, hbefore.2, _, rfl, rfl⟩⟩

theorem safe_rememberTelemetry {admin : AdminUser} {telemetry : Bool}
    (h : Wrote w (fun writes ↦ Whole writes admin) s) :
    Safe (wizard existing) w (Returns fun _ ↦ Wrote w fun writes ↦ Whole writes admin)
      (rememberTelemetry telemetry) s := by
  unfold rememberTelemetry
  split_ifs
  · refine safe_write h fun draw t reply u hperform ↦ ?_
    cases hperform
    exact ⟨_, rfl, fun _ _ hbefore ↦ ⟨hbefore.stored, hbefore.entry, hbefore.setup⟩⟩
  · exact Safe.ret h

theorem safe_writeAdmin {username totpSecret : String} {telemetry : Bool}
    (h : Wrote w (fun _ ↦ True) s) :
    Safe (wizard existing) w (Returns fun _ t ↦ ∃ admin, Wrote w (fun writes ↦ Whole writes admin) t)
      (writeAdmin username totpSecret telemetry) s := by
  refine Safe.andThen (safe_defaultOrg h) fun org t horg ↦ ?_
  refine Safe.andThen (safe_insertAdmin horg) fun admin t hadmin ↦ ?_
  refine Safe.andThen (safe_log hadmin) fun _ t hlogged ↦ ?_
  have hread : Safe (wizard existing) w (Returns fun _ ↦ Wrote w fun writes ↦
      writes.account = some admin ∧ Recorded admin writes.entry.toList) (call (.setup false)) t :=
    safe_setup fun u haround ↦ by
      have hlater := hlogged.later haround
      exact ⟨⟨hlater.holding.lock, hlater.holding.incomplete⟩, hlater.admitted, hlater.writes⟩
  refine Safe.andThen hread fun _ t hlogged ↦ ?_
  refine Safe.andThen (safe_complete hlogged) fun _ t hwhole ↦ ?_
  refine Safe.imp (fun result t hresult ↦ ?_) (safe_rememberTelemetry hwhole)
  cases result with
  | error fault => trivial
  | ok value => exact ⟨admin, hresult⟩

theorem safe_createInitialAdmin {username totpSecret : String} {telemetry : Bool}
    (hclean : Clean w s) (hadmitted : Admitted w s) :
    Safe (wizard existing) w (Returns fun _ _ ↦ True)
      (createInitialAdmin username totpSecret telemetry) s := by
  refine Safe.andThen (safe_lock hclean hadmitted) fun _ t hlocked ↦ ?_
  obtain ⟨hlock, hclean, hadmitted⟩ := hlocked
  have hcheck : Safe (wizard existing) w (Returns fun complete u ↦ (Clean w u ∧ Admitted w u) ∧
      (complete = false → t.lock = some w → Holding w u)) isSetupComplete t :=
    safe_isSetupComplete hclean fun u loaded haround ↦ by
      have hclean' : Clean w u := hclean.later haround
      have hadmitted' : Admitted w u := hadmitted.later haround
      exact ⟨hclean', hadmitted'⟩
  refine Safe.andThen hcheck fun complete t hchecked ↦ ?_
  cases complete with
  | true => exact Safe.andThen safe_rollback fun _ t _ ↦ Safe.ret trivial
  | false =>
    obtain ⟨⟨hclean, hadmitted⟩, hholding⟩ := hchecked
    have hwrote : Wrote w (fun _ ↦ True) t := ⟨hholding rfl hlock, hadmitted, trivial⟩
    refine Safe.andThen (safe_writeAdmin hwrote) fun _ t hwhole ↦ ?_
    obtain ⟨admin, hwhole⟩ := hwhole
    exact Safe.andThen (safe_commit hwhole) fun _ t _ ↦ Safe.ret trivial

/-! ### The routes -/

variable {config : Config}

/-- A step on the token, or on nothing, of a transaction that has written nothing. -/
theorem safe_aside {operation : Op} {keeps : Instance → Prop}
    (hlater : ∀ t, Around w s t → keeps t)
    (hbeside : ∀ draw t reply u, perform w operation draw t = some (reply, u) →
      Beside w t u ∧ (keeps t → keeps u)) :
    Safe (wizard existing) w (Returns fun _ ↦ keeps) (call operation) s :=
  safe_beside (fun draw t reply u hperform ↦ (hbeside draw t reply u hperform).1)
    fun draw t _ u haround _ hperform ↦ (hbeside draw t _ u hperform).2 (hlater t haround)

theorem safe_ensureSetupToken :
    Safe (wizard existing) w (Returns fun _ _ ↦ True) (ensureSetupToken config) s := by
  unfold ensureSetupToken
  split
  · refine safe_aside (fun _ _ ↦ trivial) fun _ _ _ _ hperform ↦ ?_
    cases hperform
    exact ⟨⟨rfl, rfl, rfl, rfl, rfl, fun _ _ ↦ rfl, rfl⟩, id⟩
  · refine safe_aside (fun _ _ ↦ trivial) fun _ _ _ _ hperform ↦ ?_
    cases hperform
    exact ⟨⟨rfl, rfl, rfl, rfl, rfl, fun _ _ ↦ rfl, rfl⟩, id⟩

theorem safe_setupGet (hclean : Clean w s) :
    Safe (wizard existing) w (Returns fun _ _ ↦ True) (setupGet config) s := by
  have hcheck : Safe (wizard existing) w (Returns fun complete t ↦ True ∧
      (complete = false → s.lock = some w → Holding w t)) isSetupComplete s :=
    safe_isSetupComplete hclean fun _ _ _ ↦ trivial
  refine Safe.andThen hcheck fun complete t _ ↦ ?_
  split_ifs
  · exact Safe.ret trivial
  · exact Safe.andThen safe_ensureSetupToken fun _ t _ ↦ Safe.ret trivial

/-- A request that goes on has supplied the token that is stored. -/
theorem safe_checkSetupToken {supplied : String} (hclean : Clean w s) :
    Safe (wizard existing) w (Returns fun right t ↦ Clean w t ∧ (right = true → Admitted w t))
      (checkSetupToken supplied) s := by
  have hget : Safe (wizard existing) w (Returns fun stored t ↦ Clean w t ∧
      t.compared w = some (stored, supplied)) (call (.getToken supplied)) s := by
    refine safe_beside (fun _ _ _ _ hperform ↦ ?_) fun draw t value u haround hinv hperform ↦ ?_
    · cases hperform
      exact ⟨rfl, rfl, rfl, rfl, rfl, fun v hv ↦ Function.update_of_ne hv .., rfl⟩
    · have hclean' : Clean w t := hclean.later haround
      cases hperform
      exact ⟨hclean', Function.update_self ..⟩
  refine Safe.andThen hget fun stored t hstored ↦ Safe.ret ⟨hstored.1, fun hright ↦ ?_⟩
  unfold sameToken at hright
  split at hright
  · cases hright
  · rename_i token
    simp only [Bool.and_eq_true, decide_eq_true_eq] at hright
    obtain ⟨⟨hsome, -⟩, rfl⟩ := hright
    exact ⟨token, hsome, hstored.2⟩

theorem safe_finishSetup {form : Form} (hclean : Clean w s) (hadmitted : Admitted w s) :
    Safe (wizard existing) w (Returns fun _ _ ↦ True) (finishSetup form) s := by
  refine Safe.andThen (safe_createInitialAdmin hclean hadmitted) fun created t _ ↦ ?_
  split_ifs
  · have hdelete : Safe (wizard existing) w (Returns fun _ _ ↦ True) (call .deleteToken) t := by
      refine safe_aside (fun _ _ ↦ trivial) fun _ _ _ _ hperform ↦ ?_
      cases hperform
      exact ⟨⟨rfl, rfl, rfl, rfl, rfl, fun _ _ ↦ rfl, rfl⟩, id⟩
    exact Safe.andThen hdelete fun _ t _ ↦ Safe.ret trivial
  · exact Safe.ret trivial

theorem safe_setupPost {form : Form} (hclean : Clean w s) :
    Safe (wizard existing) w (Returns fun _ _ ↦ True) (setupPost config form) s := by
  have hcheck : Safe (wizard existing) w (Returns fun complete t ↦ Clean w t ∧
      (complete = false → s.lock = some w → Holding w t)) isSetupComplete s :=
    safe_isSetupComplete hclean fun t loaded haround ↦ by
      have hclean' : Clean w t := hclean.later haround
      exact hclean'
  refine Safe.andThen hcheck fun complete t hchecked ↦ ?_
  obtain ⟨hclean, -⟩ := hchecked
  split_ifs
  · exact Safe.ret trivial
  refine Safe.andThen (safe_aside (fun _ ↦ hclean.later) fun _ _ _ _ hperform ↦ ?_)
    fun granted t hclean ↦ ?_
  · cases hperform
    exact ⟨⟨rfl, rfl, rfl, rfl, rfl, fun _ _ ↦ rfl, rfl⟩, id⟩
  split_ifs
  · refine Safe.andThen (safe_checkSetupToken hclean) fun right t hright ↦ ?_
    obtain ⟨hclean, hadmitted⟩ := hright
    split_ifs with hyes
    · have hboth : ∀ u, Around w t u → Clean w u ∧ Admitted w u :=
        fun u haround ↦ ⟨hclean.later haround, (hadmitted hyes).later haround⟩
      refine Safe.andThen (safe_aside hboth fun _ _ _ _ hperform ↦ ?_) fun _ t hboth ↦ ?_
      · cases hperform
        exact ⟨⟨rfl, rfl, rfl, rfl, rfl, fun _ _ ↦ rfl, rfl⟩, id⟩
      have hboth' : ∀ u, Around w t u → Clean w u ∧ Admitted w u :=
        fun u haround ↦ ⟨hboth.1.later haround, hboth.2.later haround⟩
      refine Safe.andThen (safe_aside hboth' fun _ _ _ _ hperform ↦ ?_) fun now t hboth ↦ ?_
      · cases hperform
        exact ⟨⟨rfl, rfl, rfl, rfl, rfl, fun _ _ ↦ rfl, rfl⟩, id⟩
      split_ifs
      · exact Safe.ret trivial
      · exact safe_finishSetup hboth.1 hboth.2
    · exact Safe.ret trivial
  · exact Safe.ret trivial

theorem wizard_handles : (wizard existing).Handles (handler config) := by
  intro w request s _ _ hclean
  have hsafe : Safe (wizard existing) w (Returns fun _ _ ↦ True) (handler config request) s := by
    cases request with
    | setupGet =>
      have hroute : Safe (wizard existing) w (Returns fun _ _ ↦ True) (setupGet config) s :=
        safe_setupGet hclean
      exact Safe.ensuring hroute fun _ ↦ safe_rollback
    | setupPost form =>
      have hroute : Safe (wizard existing) w (Returns fun _ _ ↦ True) (setupPost config form) s :=
        safe_setupPost hclean
      exact Safe.ensuring hroute fun _ ↦ safe_rollback
  exact Safe.imp (fun _ _ _ ↦ trivial) hsafe

/-! ### The theorem -/

variable {setup : Option SetupStatus} {organisation : Option ℕ} {audit : List AdminCreated}
  {telemetry : Bool} {token : Option String}

theorem wizard_start
    (h : (start setup organisation existing audit telemetry token).shared.isComplete = false) :
    (wizard existing).Holds (start setup organisation existing audit telemetry token) :=
  Contract.holds_of_idle ⟨fun _ hne ↦ absurd rfl hne, fun _ hne ↦ absurd rfl hne, .inl ⟨h, rfl⟩, rfl⟩
    (fun _ ↦ rfl) fun _ ↦ rfl

theorem wizard_permits {s : Replicas} (events : List Step) :
    Meets semantics (handler config) (wizard existing).Permits s events := by
  refine meets_of_forall (fun event _ s ↦ ?_) s
  exact Contract.permits_of_acting (fun _ ↦ trivial) (fun _ _ _ ↦ trivial) (fun _ _ ↦ trivial)
    fun _ _ _ ↦ trivial

/-- However the requests of the wizard interleave and fail: setup makes one account at most, with its
audit entry and the completed mark or not at all, for a request that supplied the token that was
stored; and what it has completed stays as it is. -/
theorem setup_happens_once {before after : List Step} {middle last : Replicas}
    (hincomplete :
      (start setup organisation existing audit telemetry token).shared.isComplete = false)
    (hbefore : run semantics (handler config)
      (start setup organisation existing audit telemetry token) before = some middle)
    (hafter : run semantics (handler config) middle after = some last) :
    last.shared.made.length ≤ 1 ∧
      last.shared.accounts = last.shared.made.map Made.account ++ existing ∧
      AllOrNothing last.shared ∧
      (middle.shared.isComplete = true → last.shared.setup = middle.shared.setup ∧
        last.shared.accounts = middle.shared.accounts ∧ last.shared.audit = middle.shared.audit) := by
  have hmiddle : (wizard existing).Holds middle :=
    Contract.run_safe wizard_handles (wizard_start hincomplete) (wizard_permits before) hbefore
  have hlast : Sound existing last.shared :=
    (Contract.run_safe wizard_handles hmiddle (wizard_permits after) hafter).invariant
  refine ⟨?_, hlast.accounts, hlast.made, fun hcomplete ↦ ?_⟩
  · rcases hlast.made with ⟨-, hmade⟩ | ⟨-, made, hmade, -⟩
    · rw [hmade]
      exact Nat.zero_le 1
    · rw [hmade]
      exact le_rfl
  · obtain ⟨v, hv⟩ := exists_bystander after
    have haround : Around v middle.shared last.shared :=
      Contract.run_rely wizard_handles hmiddle (wizard_permits after) hafter hv
    obtain ⟨hsetup, haccounts, haudit, -⟩ := haround.done hcomplete
    exact ⟨hsetup, haccounts, haudit⟩

/-! ### Two forms at once -/

def plain : Config where
  deployment :=
    { checkpw := fun _ _ ↦ false
      hashpw := fun _ password ↦ password
      verifyCode := fun _ code _ ↦ code = "123456" }
  setupToken := some "let me in"

def form (username : String) : Form where
  username := username
  password := "long enough to do"
  passwordConfirm := "long enough to do"
  totpSecret := "ABCDEFGHIJKLMNOPQRSTUVWXYZ234567"
  totpCode := "123456"
  setupToken := " let me in"
  telemetry := "1"

def drawn : Draw := ⟨true, 0, 7, "drawn", "hash"⟩

/-- Both forms get past the token; the second one then waits for the lock. -/
def twoForms : List Step :=
  [Event.start 1 .setupGet] ++ List.replicate 3 (Event.run 1 drawn) ++
    [Event.start 2 (.setupPost (form "anna")), Event.start 3 (.setupPost (form "bert"))] ++
    List.replicate 5 (Event.run 2 drawn) ++ List.replicate 5 (Event.run 3 drawn) ++
    List.replicate 9 (Event.run 2 drawn)

/-- The second form finds setup complete. -/
def secondForm : List Step := List.replicate 4 (.run 3 drawn)

theorem setup_happens_once_of_two : ∃ middle last,
    run semantics (handler plain) (start none none [] [] false none) twoForms = some middle ∧
    run semantics (handler plain) middle secondForm = some last ∧
    last.answer 3 = some (.redirect "/admin/login" 302) ∧
    last.shared.accounts.map AdminUser.username = ["anna"] ∧ last.shared.made.length ≤ 1 ∧
    AllOrNothing last.shared := by
  have hbefore := run_eq_get (show (run semantics (handler plain)
    (start none none [] [] false none) twoForms).isSome = true by decide +kernel)
  have hafter := run_eq_get (show (run semantics (handler plain) ((run semantics (handler plain)
    (start none none [] [] false none) twoForms).get (by decide +kernel)) secondForm).isSome = true by
      decide +kernel)
  have honce := setup_happens_once (by rfl) hbefore hafter
  exact ⟨_, _, hbefore, hafter, by decide +kernel, by decide +kernel, honce.1, honce.2.2.1⟩

end OpenWhistle.Setup
