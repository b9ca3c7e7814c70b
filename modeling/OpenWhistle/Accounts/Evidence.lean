import OpenWhistle.Accounts.Contract

/-!
# What a sign-in rests on

A sign-in rests on the rows it has read: the row its first factor was checked against, and the row
its code was checked against. A change of the account that was committed after one of these reads may
have revoked what was checked. A sweep is late for a sign-in when it runs after such a change.

The invariant `Current` says that nothing that waits or lives is behind a sweep that was late for it:
what a request has taken up is ahead of the sweeps until then, a waiting login is ahead of every
sweep of its account, and a session is ahead of every sweep but those it was stored before. Every
operation keeps it, except a store by a sign-in that a late sweep has overtaken.
-/

set_option autoImplicit false
set_option relaxedAutoImplicit false

namespace OpenWhistle.Accounts

open Interleaving

namespace Evidence

/-- A local password was checked against a row read before the entry at the position. -/
def restsOnPassword (evidence : Evidence) (position : ℕ) : Bool :=
  evidence.first.any fun check ↦ decide (check.1 = .password) && decide (check.2 ≤ position)

/-- A first factor of any kind was. -/
def restsOnFirst (evidence : Evidence) (position : ℕ) : Bool :=
  evidence.first.any fun check ↦ decide (check.2 ≤ position)

/-- A code was. -/
def restsOnCode (evidence : Evidence) (position : ℕ) : Bool :=
  evidence.second.any fun read ↦ decide (read ≤ position)

/-- The change at the position of the audit log revoked credentials that were checked: a password
change the old password, a reset the old secret and the local password where it sets a new one, a
deactivation everything. -/
def revokedBy (evidence : Evidence) (position : ℕ) : AuditAction → Bool
  | .authPasswordChanged => evidence.restsOnPassword position
  | .adminTotpReset passwordReset =>
    (passwordReset && evidence.restsOnPassword position) || evidence.restsOnCode position
  | .adminDeactivated => evidence.restsOnFirst position || evidence.restsOnCode position
  | _ => false

/-- The login that waits for its second factor. -/
def waiting (first : Option (FirstFactor × ℕ)) : Evidence := ⟨first, none⟩

theorem revokedBy_of_waiting {evidence : Evidence} {position : ℕ} {action : AuditAction}
    (h : (waiting evidence.first).revokedBy position action = true) :
    evidence.revokedBy position action = true := by
  have hcode : (waiting evidence.first).restsOnCode position = false := rfl
  have hpassword : (waiting evidence.first).restsOnPassword position =
    evidence.restsOnPassword position := rfl
  have hfirst : (waiting evidence.first).restsOnFirst position =
    evidence.restsOnFirst position := rfl
  cases action with
  | authPasswordChanged => exact h
  | adminTotpReset passwordReset =>
    simp only [revokedBy, hcode, hpassword, Bool.or_false] at h
    simp only [revokedBy, h, Bool.true_or]
  | adminDeactivated =>
    simp only [revokedBy, hcode, hfirst, Bool.or_false] at h
    simp only [revokedBy, h, Bool.true_or]
  | _ => cases h

/-- A row read after the entry makes no difference to it. -/
theorem revokedBy_of_later_code {evidence : Evidence} {position read : ℕ} {action : AuditAction}
    (hlater : position < read)
    (h : ({ evidence with second := some read } : Evidence).revokedBy position action = true) :
    (waiting evidence.first).revokedBy position action = true := by
  have hcode : ({ evidence with second := some read } : Evidence).restsOnCode position = false :=
    decide_eq_false (Nat.not_le.mpr hlater)
  have hpassword : ({ evidence with second := some read } : Evidence).restsOnPassword position =
    (waiting evidence.first).restsOnPassword position := rfl
  have hfirst : ({ evidence with second := some read } : Evidence).restsOnFirst position =
    (waiting evidence.first).restsOnFirst position := rfl
  cases action with
  | authPasswordChanged => exact h
  | adminTotpReset passwordReset =>
    simp only [revokedBy, hcode, hpassword, Bool.or_false] at h
    simp only [revokedBy, h, Bool.true_or]
  | adminDeactivated =>
    simp only [revokedBy, hcode, hfirst, Bool.or_false] at h
    simp only [revokedBy, h, Bool.true_or]
  | _ => cases h

/-- A first factor checked against a row read after the entry is not revoked by it. -/
theorem not_revokedBy_of_later_first {factor : FirstFactor} {position read : ℕ}
    (hlater : position < read) (action : AuditAction) :
    (waiting (some (factor, read))).revokedBy position action = false := by
  have hread : decide (read ≤ position) = false := decide_eq_false (Nat.not_le.mpr hlater)
  cases action <;>
    simp [revokedBy, restsOnPassword, restsOnFirst, restsOnCode, waiting, hread]

end Evidence

/-- The sweep ran after a change of its account that revoked what the evidence rests on. -/
def LateFor (log : List AuditEntry) (sweep : Sweep) (evidence : Evidence) : Prop :=
  ∃ position < sweep.audited, ∃ entry ∈ log[position]?,
    entry.account = sweep.account ∧ evidence.revokedBy position entry.action = true

instance (log : List AuditEntry) (sweep : Sweep) (evidence : Evidence) :
    Decidable (LateFor log sweep evidence) :=
  inferInstanceAs (Decidable (∃ position < sweep.audited, ∃ entry ∈ log[position]?,
    entry.account = sweep.account ∧ evidence.revokedBy position entry.action = true))

/-- What is committed after a sweep makes no difference to it. -/
theorem lateFor_append {log more : List AuditEntry} {sweep : Sweep} {evidence : Evidence}
    (haudited : sweep.audited ≤ log.length) :
    LateFor (log ++ more) sweep evidence ↔ LateFor log sweep evidence := by
  have hsame : ∀ position < sweep.audited, (log ++ more)[position]? = log[position]? :=
    fun position hposition ↦
      List.getElem?_append_left (Nat.lt_of_lt_of_le hposition haudited)
  constructor
  · rintro ⟨position, hposition, entry, hentry, hrest⟩
    exact ⟨position, hposition, entry, hsame position hposition ▸ hentry, hrest⟩
  · rintro ⟨position, hposition, entry, hentry, hrest⟩
    exact ⟨position, hposition, entry, (hsame position hposition).symm ▸ hentry, hrest⟩

theorem LateFor.of_waiting {log : List AuditEntry} {sweep : Sweep} {evidence : Evidence}
    (h : LateFor log sweep (.waiting evidence.first)) : LateFor log sweep evidence := by
  obtain ⟨position, hposition, entry, hentry, haccount, hrevoked⟩ := h
  exact ⟨position, hposition, entry, hentry, haccount, Evidence.revokedBy_of_waiting hrevoked⟩

/-- No sweep so far is late for a first factor that is checked now. -/
theorem not_lateFor_first {log : List AuditEntry} {sweep : Sweep} {factor : FirstFactor}
    (haudited : sweep.audited ≤ log.length) :
    ¬LateFor log sweep (.waiting (some (factor, log.length))) := by
  rintro ⟨position, hposition, entry, -, -, hrevoked⟩
  rw [Evidence.not_revokedBy_of_later_first (Nat.lt_of_lt_of_le hposition haudited)] at hrevoked
  cases hrevoked

/-- No sweep so far is late for a code that is checked now. -/
theorem LateFor.of_code {log : List AuditEntry} {sweep : Sweep} {evidence : Evidence}
    (haudited : sweep.audited ≤ log.length)
    (h : LateFor log sweep { evidence with second := some log.length }) :
    LateFor log sweep (.waiting evidence.first) := by
  obtain ⟨position, hposition, entry, hentry, haccount, hrevoked⟩ := h
  exact ⟨position, hposition, entry, hentry, haccount,
    Evidence.revokedBy_of_later_code (Nat.lt_of_lt_of_le hposition haudited) hrevoked⟩

/-! ### The invariant -/

/-- None of the sweeps is late for the evidence on an account. -/
def NoneLate (log : List AuditEntry) (sweeps : List Sweep) (account : UserId)
    (evidence : Evidence) : Prop :=
  ∀ sweep ∈ sweeps, sweep.account = account → ¬LateFor log sweep evidence

instance (log : List AuditEntry) (sweeps : List Sweep) (account : UserId) (evidence : Evidence) :
    Decidable (NoneLate log sweeps account evidence) :=
  inferInstanceAs (Decidable (∀ sweep ∈ sweeps, _))

/-- Nothing that waits or lives is behind a sweep that was late for it. -/
structure Current (log : List AuditEntry) (sweeps : List Sweep) (stored : List Token)
    (s : SignIns) : Prop where
  audited : ∀ sweep ∈ sweeps, sweep.audited ≤ log.length
  since : ∀ w account, (s.checks w account).sweeps ≤ sweeps.length
  checks : ∀ w account, NoneLate log (sweeps.take (s.checks w account).sweeps) account
    (s.checks w account).evidence
  pending : ∀ tempToken account, s.totpPending tempToken = some account →
    NoneLate log sweeps account (.waiting (s.pendingCheck tempToken))
  setup : ∀ tempToken account, s.totpSetup tempToken = some account →
    NoneLate log sweeps account (.waiting (s.setupCheck tempToken))
  stored : ∀ token, s.evidence token ≠ {} → token ∈ stored
  evidence : ∀ token, ∀ sweep ∈ sweeps, sweep.account = token.sub →
    LateFor log sweep (s.evidence token) → token ∈ sweep.before

/-- The invariant of the server. -/
def Server.Current (s : Server) : Prop :=
  OpenWhistle.Accounts.Current s.auditLog s.sessions.sweeps s.sessions.stored s.signIns

/-- No sweep that is late for the sign-in ran since its request took it up. -/
def Undisturbed (s : Server) (checks : Checks) (account : UserId) (evidence : Evidence) : Prop :=
  NoneLate s.auditLog (s.sessions.sweeps.drop checks.sweeps) account evidence

/-- A sign-in stores a waiting login or a session only if no late sweep has overtaken it. -/
def StoresInTime (w : ℕ) (s : Server) : Op → Prop
  | .setTotpPending _ user | .setTotpSetup _ user =>
    Undisturbed s (s.signIns.checks w user) user (.waiting (s.signIns.checks w user).evidence.first)
  | .setSession _ token => s.sessions.parent token = none →
    Undisturbed s (s.signIns.checks w token.sub) token.sub
      (s.signIns.checks w token.sub).evidence
  | _ => True

instance (w : ℕ) (s : Server) (operation : Op) : Decidable (StoresInTime w s operation) := by
  unfold StoresInTime Undisturbed
  split <;> infer_instance

/-! ### Every operation keeps it -/

variable {log more : List AuditEntry} {sweeps : List Sweep} {stored : List Token} {s : SignIns}
  {account : UserId} {evidence : Evidence}

theorem noneLate_append (haudited : ∀ sweep ∈ sweeps, sweep.audited ≤ log.length) :
    NoneLate (log ++ more) sweeps account evidence ↔ NoneLate log sweeps account evidence := by
  constructor
  · intro h sweep hsweep haccount hlate
    exact h sweep hsweep haccount ((lateFor_append (haudited sweep hsweep)).mpr hlate)
  · intro h sweep hsweep haccount hlate
    exact h sweep hsweep haccount ((lateFor_append (haudited sweep hsweep)).mp hlate)

theorem NoneLate.of_waiting (h : NoneLate log sweeps account evidence) :
    NoneLate log sweeps account (.waiting evidence.first) :=
  fun sweep hsweep haccount hlate ↦ h sweep hsweep haccount hlate.of_waiting

/-- The sweeps until a moment and the sweeps since then. -/
theorem noneLate_of_take_of_drop {n : ℕ} (htake : NoneLate log (sweeps.take n) account evidence)
    (hdrop : NoneLate log (sweeps.drop n) account evidence) :
    NoneLate log sweeps account evidence := by
  intro sweep hsweep
  rw [← List.take_append_drop n sweeps] at hsweep
  rcases List.mem_append.mp hsweep with hbefore | hsince
  · exact htake sweep hbefore
  · exact hdrop sweep hsince

namespace Current

/-- A commit. -/
theorem append (h : Current log sweeps stored s) (more : List AuditEntry) :
    Current (log ++ more) sweeps stored s where
  audited sweep hsweep := by
    rw [List.length_append]
    exact Nat.le_add_right_of_le (h.audited sweep hsweep)
  since := h.since
  checks w account :=
    (noneLate_append fun sweep hsweep ↦ h.audited sweep (List.mem_of_mem_take hsweep)).mpr
      (h.checks w account)
  pending tempToken account hpending :=
    (noneLate_append h.audited).mpr (h.pending tempToken account hpending)
  setup tempToken account hsetup :=
    (noneLate_append h.audited).mpr (h.setup tempToken account hsetup)
  stored := h.stored
  evidence token sweep hsweep haccount hlate := h.evidence token sweep hsweep haccount
    ((lateFor_append (h.audited sweep hsweep)).mp hlate)

/-- A request takes up something for an account. -/
theorem with_checks (h : Current log sweeps stored s) (w : ℕ) {checks : Checks}
    (hsince : checks.sweeps ≤ sweeps.length)
    (hchecks : NoneLate log (sweeps.take checks.sweeps) account checks.evidence) :
    Current log sweeps stored { s with
      checks := Function.update s.checks w (Function.update (s.checks w) account checks) } := by
  have hcases : ∀ v other, Function.update s.checks w
      (Function.update (s.checks w) account checks) v other = checks ∧ other = account ∨
      Function.update s.checks w (Function.update (s.checks w) account checks) v other =
        s.checks v other := by
    intro v other
    by_cases hv : v = w
    · subst hv
      rw [Function.update_self]
      by_cases hother : other = account
      · subst hother
        exact .inl ⟨Function.update_self .., rfl⟩
      · exact .inr (Function.update_of_ne hother ..)
    · rw [Function.update_of_ne hv]
      exact .inr rfl
  refine ⟨h.audited, fun v other ↦ ?_, fun v other ↦ ?_, h.pending, h.setup, h.stored, h.evidence⟩
  · show (Function.update s.checks w _ v other).sweeps ≤ _
    rcases hcases v other with ⟨heq, -⟩ | heq
    · rw [heq]
      exact hsince
    · rw [heq]
      exact h.since v other
  · show NoneLate log (sweeps.take (Function.update s.checks w _ v other).sweeps) other
      (Function.update s.checks w _ v other).evidence
    rcases hcases v other with ⟨heq, rfl⟩ | heq
    · rw [heq]
      exact hchecks
    · rw [heq]
      exact h.checks v other

/-- A request reads the row for a first factor. -/
theorem with_first (h : Current log sweeps stored s) (w : ℕ) (factor : FirstFactor)
    (account : UserId) : Current log sweeps stored { s with
      checks := Function.update s.checks w (Function.update (s.checks w) account
        ⟨⟨some (factor, log.length), none⟩, sweeps.length⟩) } := by
  refine h.with_checks w (Nat.le_refl _) fun sweep hsweep _ ↦ ?_
  exact not_lateFor_first (h.audited sweep (List.mem_of_mem_take hsweep))

/-- A request reads the row for a code. -/
theorem with_second (h : Current log sweeps stored s) (w : ℕ) (account : UserId) :
    Current log sweeps stored { s with
      checks := Function.update s.checks w (Function.update (s.checks w) account
        { s.checks w account with
          evidence := { (s.checks w account).evidence with second := some log.length } }) } := by
  refine h.with_checks w (h.since w account) fun sweep hsweep haccount hlate ↦ ?_
  have haudited := h.audited sweep (List.mem_of_mem_take hsweep)
  exact h.checks w account sweep hsweep haccount (hlate.of_code haudited).of_waiting

/-- Waiting logins that go. -/
theorem with_fewer (h : Current log sweeps stored s) {pending setup : TempToken → Option UserId}
    (hpending : ∀ tempToken, pending tempToken = s.totpPending tempToken ∨ pending tempToken = none)
    (hsetup : ∀ tempToken, setup tempToken = s.totpSetup tempToken ∨ setup tempToken = none) :
    Current log sweeps stored { s with totpPending := pending, totpSetup := setup } := by
  refine ⟨h.audited, h.since, h.checks, ?_, ?_, h.stored, h.evidence⟩
  · intro tempToken account heq
    rcases hpending tempToken with hsame | hnone
    · exact h.pending tempToken account (hsame.symm.trans heq)
    · cases hnone.symm.trans heq
  · intro tempToken account heq
    rcases hsetup tempToken with hsame | hnone
    · exact h.setup tempToken account (hsame.symm.trans heq)
    · cases hnone.symm.trans heq

end Current

/-- A waiting login that is stored or replaced in one of the two maps. -/
theorem noneLate_update {waiting : TempToken → Option UserId}
    {check : TempToken → Option (FirstFactor × ℕ)} {tempToken : TempToken}
    {first : Option (FirstFactor × ℕ)}
    (h : ∀ other user, waiting other = some user →
      NoneLate log sweeps user (.waiting (check other)))
    (hnew : NoneLate log sweeps account (.waiting first)) :
    ∀ other user, Function.update waiting tempToken (some account) other = some user →
      NoneLate log sweeps user (.waiting (Function.update check tempToken first other)) := by
  intro other user heq
  by_cases hother : other = tempToken
  · subst hother
    rw [Function.update_self, Option.some.injEq] at heq
    rw [Function.update_self, ← heq]
    exact hnew
  · rw [Function.update_of_ne hother] at heq ⊢
    exact h other user heq

variable {d : Deployment} {w : ℕ} {t u : Server}

/-- What a sign-in has checked is ahead of all sweeps, if no late one has overtaken it. -/
theorem Undisturbed.noneLate {evidence : Evidence}
    (hundisturbed : Undisturbed t (t.signIns.checks w account) account evidence)
    (hchecks : NoneLate t.auditLog (t.sessions.sweeps.take (t.signIns.checks w account).sweeps)
      account evidence) : NoneLate t.auditLog t.sessions.sweeps account evidence :=
  noneLate_of_take_of_drop hchecks hundisturbed

theorem current_setTotpPending (h : t.Current) (tempToken : TempToken) (user : UserId)
    (hintime : StoresInTime w t (.setTotpPending tempToken user)) :
    (t.setTotpPending w tempToken user).Current :=
  ⟨h.audited, h.since, h.checks,
    noneLate_update h.pending (Undisturbed.noneLate hintime (h.checks w user).of_waiting), h.setup, h.stored,
    h.evidence⟩

theorem current_setTotpSetup (h : t.Current) (tempToken : TempToken) (user : UserId)
    (hintime : StoresInTime w t (.setTotpSetup tempToken user)) :
    (t.setTotpSetup w tempToken user).Current :=
  ⟨h.audited, h.since, h.checks, h.pending,
    noneLate_update h.setup (Undisturbed.noneLate hintime (h.checks w user).of_waiting), h.stored,
    h.evidence⟩

theorem update_waiting_cases (waiting : TempToken → Option UserId) (tempToken other : TempToken) :
    Function.update waiting tempToken none other = waiting other ∨
      Function.update waiting tempToken none other = none := by
  by_cases hother : other = tempToken
  · exact .inr (hother ▸ Function.update_self ..)
  · exact .inl (Function.update_of_ne hother ..)

/-- A waiting login that is taken up is ahead of all sweeps of its account. -/
theorem current_getdelTotpPending (h : t.Current) (tempToken : TempToken) :
    (t.getdelTotpPending w tempToken).Current := by
  unfold Server.getdelTotpPending
  cases hpending : t.signIns.totpPending tempToken with
  | none => exact h
  | some user =>
    have hfewer := Current.with_fewer h (update_waiting_cases t.signIns.totpPending tempToken)
      fun _ ↦ .inl rfl
    refine hfewer.with_checks w (Nat.le_refl _) fun sweep hsweep ↦ ?_
    exact h.pending tempToken user hpending sweep (List.mem_of_mem_take hsweep)

theorem current_getdelTotpSetup (h : t.Current) (tempToken : TempToken) :
    (t.getdelTotpSetup w tempToken).Current := by
  unfold Server.getdelTotpSetup
  cases hsetup : t.signIns.totpSetup tempToken with
  | none => exact h
  | some user =>
    have hfewer := Current.with_fewer h (fun _ ↦ .inl rfl)
      (update_waiting_cases t.signIns.totpSetup tempToken)
    refine hfewer.with_checks w (Nat.le_refl _) fun sweep hsweep ↦ ?_
    exact h.setup tempToken user hsetup sweep (List.mem_of_mem_take hsweep)

/-- A session that begins is ahead of all sweeps of its account. -/
theorem current_setSession (h : t.Current) (user : UserId) (token : Token)
    (hintime : StoresInTime w t (.setSession user token)) :
    (t.setSession w user token).Current := by
  have hstored : Current t.auditLog t.sessions.sweeps (token :: t.sessions.stored) t.signIns :=
    ⟨h.audited, h.since, h.checks, h.pending, h.setup,
      fun other hother ↦ List.mem_cons_of_mem _ (h.stored other hother), h.evidence⟩
  unfold Server.setSession
  by_cases hparent : t.sessions.parent token = none
  · have hnone := (hintime hparent).noneLate (h.checks w token.sub)
    rw [if_pos hparent]
    refine ⟨h.audited, h.since, h.checks, h.pending, h.setup, ?_, ?_⟩
    · intro other hother
      by_cases heq : other = token
      · exact heq ▸ List.mem_cons_self
      · refine hstored.stored other ?_
        rw [← Function.update_of_ne heq (t.signIns.checks w token.sub).evidence t.signIns.evidence]
        exact hother
    · intro other sweep hsweep haccount hlate
      change LateFor t.auditLog sweep (Function.update t.signIns.evidence token
        (t.signIns.checks w token.sub).evidence other) at hlate
      by_cases heq : other = token
      · subst heq
        rw [Function.update_self] at hlate
        exact absurd hlate (hnone sweep hsweep haccount)
      · rw [Function.update_of_ne heq] at hlate
        exact h.evidence other sweep hsweep haccount hlate
  · rw [if_neg hparent]
    exact hstored

/-- A sweep ends what waits for its account, and comes after every session that is stored. -/
theorem current_sweep (h : t.Current) (user : UserId) (keep : Option Token) :
    (t.sweep user keep).Current := by
  have hlength : (t.sweep user keep).sessions.sweeps.length = t.sessions.sweeps.length + 1 := by
    show (t.sessions.sweeps ++ [_]).length = _
    rw [List.length_append]
    rfl
  have hmem : ∀ sweep ∈ (t.sweep user keep).sessions.sweeps, sweep ∈ t.sessions.sweeps ∨
      sweep = ⟨user, keep, t.sessions.stored, t.sessions.received, t.auditLog.length⟩ :=
    fun sweep hsweep ↦ (List.mem_append.mp hsweep).imp_right List.mem_singleton.mp
  refine ⟨?_, ?_, ?_, ?_, ?_, h.stored, ?_⟩
  · intro sweep hsweep
    rcases hmem sweep hsweep with hold | rfl
    · exact h.audited sweep hold
    · exact Nat.le_refl _
  · intro v account
    rw [hlength]
    exact Nat.le_succ_of_le (h.since v account)
  · intro v account
    show NoneLate t.auditLog ((t.sessions.sweeps ++ [_]).take (t.signIns.checks v account).sweeps)
      account (t.signIns.checks v account).evidence
    rw [List.take_append_of_le_length (h.since v account)]
    exact h.checks v account
  · intro tempToken account hpending sweep hsweep haccount
    change (if t.signIns.totpPending tempToken = some user then none
      else t.signIns.totpPending tempToken) = some account at hpending
    split_ifs at hpending with hswept
    rcases hmem sweep hsweep with hold | rfl
    · exact h.pending tempToken account hpending sweep hold haccount
    · have hsame : user = account := haccount
      rw [← hsame] at hpending
      exact absurd hpending hswept
  · intro tempToken account hsetup sweep hsweep haccount
    change (if t.signIns.totpSetup tempToken = some user then none
      else t.signIns.totpSetup tempToken) = some account at hsetup
    split_ifs at hsetup with hswept
    rcases hmem sweep hsweep with hold | rfl
    · exact h.setup tempToken account hsetup sweep hold haccount
    · have hsame : user = account := haccount
      rw [← hsame] at hsetup
      exact absurd hsetup hswept
  · intro token sweep hsweep haccount hlate
    rcases hmem sweep hsweep with hold | rfl
    · exact h.evidence token sweep hold haccount hlate
    · refine h.stored token fun hempty ↦ ?_
      obtain ⟨position, -, entry, -, -, hrevoked⟩ := hlate
      change (t.signIns.evidence token).revokedBy position entry.action = true at hrevoked
      rw [hempty] at hrevoked
      cases haction : entry.action <;> rw [haction] at hrevoked <;>
        simp [Evidence.revokedBy, Evidence.restsOnPassword, Evidence.restsOnFirst,
          Evidence.restsOnCode] at hrevoked

/-- Every operation keeps the invariant, a store by a sign-in if it is in time. -/
theorem current_perform {operation : Op} {draw : Draw}
    {reply : Except Fault (Reply operation)} (h : t.Current)
    (hintime : StoresInTime w t operation)
    (hperform : perform d w operation draw t = some (reply, u)) : u.Current := by
  cases operation with
  | receive request =>
    obtain ⟨sessions, hreceive, hresult⟩ := Option.map_eq_some_iff.mp hperform
    cases hresult
    obtain ⟨-, rfl⟩ := Sessions.receive_cases hreceive
    exact h
  | createAccessToken user authTime =>
    obtain ⟨sessions, hissue, hresult⟩ := Option.map_eq_some_iff.mp hperform
    cases hresult
    obtain ⟨-, -, rfl⟩ := Sessions.issue_cases hissue
    exact h
  | getUserByLdapUsername ldapUsername =>
    rcases readFirst_cases hperform with ⟨-, rfl⟩ | ⟨user, -, rfl⟩
    · exact h
    · exact Current.with_first h w .directory user.id
  | getUserByUsername username =>
    rcases readFirst_cases hperform with ⟨-, rfl⟩ | ⟨user, -, rfl⟩
    · exact h
    · exact Current.with_first h w .password user.id
  | provisionLdapUser ldapUsername =>
    obtain rfl := provision_cases hperform
    exact (Current.with_first h w .directory draw.random).append _
  | getUserById id =>
    cases hperform
    exact Current.with_second h w id
  | commit loaded changed action =>
    cases hperform
    exact Current.append h _
  | setSession user token =>
    cases hperform
    exact current_setSession h user token hintime
  | deleteSession token =>
    cases hperform
    rcases Sessions.delete_cases t.sessions w token with ⟨-, heq⟩ | ⟨-, heq⟩
    · rw [heq]
      exact h
    · rw [heq]
      exact h
  | sweep user keep =>
    cases hperform
    exact current_sweep h user keep
  | setTotpPending tempToken user =>
    cases hperform
    exact current_setTotpPending h tempToken user hintime
  | getdelTotpPending tempToken =>
    cases hperform
    exact current_getdelTotpPending h tempToken
  | setTotpSetup tempToken user =>
    cases hperform
    exact current_setTotpSetup h tempToken user hintime
  | getdelTotpSetup tempToken =>
    cases hperform
    exact current_getdelTotpSetup h tempToken
  | setTotpUsed user code =>
    rcases setTotpUsed_cases hperform with rfl | rfl
    · exact h
    · exact h
  | _ =>
    cases hperform
    exact h

/-- Keys that expire take nothing up. -/
theorem current_environment {change : Change} (h : t.Current)
    (hchange : environment change t = some u) : u.Current := by
  cases change with
  | expirePending tempToken =>
    cases hchange
    exact Current.with_fewer h (update_waiting_cases t.signIns.totpPending tempToken)
      fun _ ↦ .inl rfl
  | expireSetup tempToken =>
    cases hchange
    exact Current.with_fewer h (fun _ ↦ .inl rfl)
      (update_waiting_cases t.signIns.totpSetup tempToken)
  | _ =>
    cases hchange
    exact h

/-- A sign-in stores in time. -/
def SignsInInTime (s : Requests) (event : Step) : Prop :=
  ∀ acting ∈ s.acting event, StoresInTime acting.1 s.shared acting.2

instance (s : Requests) (event : Step) : Decidable (SignsInInTime s event) :=
  inferInstanceAs (Decidable (∀ acting ∈ s.acting event, _))

theorem current_step {s t : Requests} {event : Step} (h : s.shared.Current)
    (hintime : SignsInInTime s event)
    (hstep : step (semantics d) (handler d) s event = some t) : t.shared.Current := by
  rcases acting_cases hstep with ⟨w, operation, draw, reply, hacting, hperform⟩ |
    ⟨change, hchange⟩ | hsame
  · exact current_perform h (hintime (w, operation) hacting) hperform
  · exact current_environment h hchange
  · rw [hsame]
    exact h

theorem current_start (start : Start) : start.system.shared.Current where
  audited _ h := nomatch h
  since _ _ := Nat.le_refl 0
  checks _ _ _ h := nomatch h
  pending _ _ h := nomatch h
  setup _ _ h := nomatch h
  stored _ h := absurd rfl h
  evidence _ _ h := nomatch h

/-- The invariant holds after every run in which the sign-ins store in time. -/
theorem current_of_run {start : Start} {events : List Step} {last : Requests}
    (hintime : Meets (semantics d) (handler d) SignsInInTime start.system events)
    (hrun : run (semantics d) (handler d) start.system events = some last) :
    last.shared.Current := by
  have hkeeps : ∀ (s : Requests) (event : Step) (t : Requests), s.shared.Current →
      SignsInInTime s event → step (semantics d) (handler d) s event = some t →
        t.shared.Current := fun _ _ _ hs hevent hstep ↦ current_step hs hevent hstep
  exact run_invariant hkeeps (current_start start) hintime hrun

end OpenWhistle.Accounts
