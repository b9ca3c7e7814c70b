import OpenWhistle.Accounts.Handlers

/-!
# A sweep beats every refresh

A sweep records what it found: the sessions stored until then and the requests received until then.
The record stays. A session it condemned that lives later is, by the invariant, the successor that a
refresh received before the sweep has made and not handed out; once that refresh has been answered,
its token is not condemned or not alive. So when the refreshes of the time of the sweep have been
answered, no session from before it lives, and none that descends from one. A refresh that ends with
an exception instead may leave its successor behind, which no browser holds.
-/

set_option autoImplicit false
set_option relaxedAutoImplicit false

namespace OpenWhistle.Accounts

open Interleaving Descent

variable {d : Deployment}

/-- An operation keeps the records of the sweeps. -/
theorem sweeps_of_perform {w : ℕ} {operation : Op} {draw : Draw} {s t : Server}
    {reply : Except Fault (Reply operation)} (h : perform d w operation draw s = some (reply, t))
    {record : Sweep} (hrecord : record ∈ s.sessions.sweeps) : record ∈ t.sessions.sweeps := by
  by_cases hquiet : operation.isQuiet = true
  · rw [sessions_of_isQuiet hquiet h]
    exact hrecord
  cases operation with
  | receive request =>
    obtain ⟨sessions, hreceive, hresult⟩ := Option.map_eq_some_iff.mp h
    cases hresult
    obtain ⟨-, rfl⟩ := Sessions.receive_cases hreceive
    exact hrecord
  | createAccessToken user authTime =>
    obtain ⟨sessions, hissue, hresult⟩ := Option.map_eq_some_iff.mp h
    cases hresult
    obtain ⟨-, -, rfl⟩ := Sessions.issue_cases hissue
    exact hrecord
  | setSession user token =>
    cases h
    exact hrecord
  | deleteSession token =>
    cases h
    rcases Sessions.delete_cases s.sessions w token with ⟨-, heq⟩ | ⟨-, heq⟩
    · show record ∈ (s.sessions.delete w token).sweeps
      rw [heq]
      exact hrecord
    · show record ∈ (s.sessions.delete w token).sweeps
      rw [heq]
      exact hrecord
  | sweep user keep =>
    cases h
    exact List.mem_append_left _ hrecord
  | setCookie token =>
    cases h
    exact hrecord
  | _ => exact absurd rfl hquiet

theorem step_sweeps {s t : Requests} {event : Step}
    (hstep : step (semantics d) (handler d) s event = some t) {record : Sweep}
    (hrecord : record ∈ s.shared.sessions.sweeps) : record ∈ t.shared.sessions.sweeps := by
  rcases shared_cases hstep with ⟨operation, w, draw, reply, -, hperform⟩ | ⟨change, hchange⟩ | hsame
  · exact sweeps_of_perform hperform hrecord
  · cases change with
    | expireSession token =>
      have heq : t.shared = { s.shared with sessions := s.shared.sessions.expire token } :=
        (Option.some.inj hchange).symm
      rw [heq]
      exact hrecord
    | _ =>
      rw [← Option.some.inj hchange]
      exact hrecord
  · rw [hsame]
    exact hrecord

/-- The record of a sweep stays in every later state. -/
theorem run_sweeps {events : List Step} {s t : Requests}
    (hrun : run (semantics d) (handler d) s events = some t) {record : Sweep}
    (hrecord : record ∈ s.shared.sessions.sweeps) : record ∈ t.shared.sessions.sweeps := by
  have hmeets : Meets (semantics d) (handler d) (fun _ _ ↦ True) s events :=
    meets_of_forall (fun _ _ _ ↦ trivial) s
  have hkeeps : ∀ (s : Requests) (event : Step) (t : Requests),
      record ∈ s.shared.sessions.sweeps → True →
        step (semantics d) (handler d) s event = some t →
          record ∈ t.shared.sessions.sweeps := fun _ _ _ hs _ hstep ↦ step_sweeps hstep hs
  exact run_invariant hkeeps hrecord hmeets hrun

/-- What the sweep script leaves on record. -/
theorem record_of_sweep {s t : Requests} {event : Step} {account : UserId} {keep : Option Token}
    (hsweep : s.effective event = some (.sweep account keep))
    (hstep : step (semantics d) (handler d) s event = some t) :
    ⟨account, keep, s.shared.sessions.stored, s.shared.sessions.received,
      s.shared.auditLog.length⟩ ∈ t.shared.sessions.sweeps := by
  obtain ⟨w, draw, reply, hperform⟩ := perform_of_effective hsweep hstep
  have heq : t.shared = s.shared.sweep account keep :=
    (congrArg Prod.snd (Option.some.inj hperform)).symm
  rw [heq]
  exact List.mem_append_right _ List.mem_cons_self

/-- What is left of the sessions a sweep condemns belongs to a refresh from the time of the sweep
that has not been answered. -/
theorem dead_of_condemned {start : Start} {events : List Step} {last : Requests}
    (hrun : run (semantics d) (handler d) start.system events = some last) {record : Sweep}
    (hrecord : record ∈ last.shared.sessions.sweeps)
    (hanswered : ∀ w cookie, record.received w = some (.sessionRefresh cookie) →
      (last.answer w).isSome = true)
    {token : Token} (hcondemned : last.shared.sessions.Condemned record token) :
    last.shared.sessions.user token = none := by
  have hholds := holds_of_any_run hrun
  by_contra hlive
  obtain ⟨-, old, w, -, hown, -, hreceived⟩ :=
    hholds.invariant.condemned record hrecord token hlive hcondemned
  obtain ⟨answer, hanswer⟩ := Option.isSome_iff_exists.mp (hanswered w (some old) hreceived)
  have hfinished : last.shared.sessions.Finished w := hholds.ends_of_answer hanswer
  obtain ⟨hclear, -⟩ := (hfinished.settled token hown).2 hlive
  exact hclear record hrecord hcondemned

/-- Whatever requests end with an exception: a condemned session that was handed out is gone. -/
theorem dead_of_handed {start : Start} {events : List Step} {last : Requests}
    (hrun : run (semantics d) (handler d) start.system events = some last) {record : Sweep}
    (hrecord : record ∈ last.shared.sessions.sweeps) {token : Token}
    (hcondemned : last.shared.sessions.Condemned record token)
    (hhanded : token ∈ last.shared.sessions.handed) : last.shared.sessions.user token = none := by
  by_contra hlive
  exact ((holds_of_any_run hrun).invariant.condemned record hrecord token hlive hcondemned).1 hhanded

/-- In every interleaving: when the refreshes that were in flight at a sweep without a kept session
have been answered, no session of the account that was stored before the sweep, and none that
descends from one, exists. -/
theorem sweep_beats_every_refresh {start : Start} {before after : List Step} {event : Step}
    {s swept last : Requests} {account : UserId}
    (hbefore : run (semantics d) (handler d) start.system before = some s)
    (hsweep : s.effective event = some (.sweep account none))
    (hstep : step (semantics d) (handler d) s event = some swept)
    (hafter : run (semantics d) (handler d) swept after = some last)
    (hanswered : ∀ w cookie, s.shared.sessions.received w = some (.sessionRefresh cookie) →
      (last.answer w).isSome = true)
    (root : Token) (hroot : root ∈ s.shared.sessions.stored) (haccount : root.sub = account)
    (token : Token) (hdescends : Descends last.shared.sessions.parent root token) :
    last.shared.sessions.user token = none := by
  have hrun : run (semantics d) (handler d) start.system (before ++ event :: after) = some last :=
    run_append_eq_some.mpr ⟨s, hbefore, run_cons_eq_some.mpr ⟨swept, hstep, hafter⟩⟩
  have hrecord := run_sweeps hafter (record_of_sweep hsweep hstep)
  refine dead_of_condemned hrun hrecord hanswered ⟨⟨root, hroot, haccount, hdescends⟩, ?_⟩
  exact fun kept hkept ↦ nomatch hkept

/-! ### A refresh across a deactivation -/

/-- Passwords and codes that are compared as they are. -/
def literal : Deployment where
  checkpw plain hashed := plain == hashed
  hashpw _ password := password
  verifyCode secret code _ := secret == code

def anna : AdminUser where
  id := 1
  username := "anna"
  passwordHash := some "annas password"
  totpSecret := "111111"
  totpEnabled := true
  role := .caseManager

def berta : AdminUser where
  id := 2
  username := "berta"
  passwordHash := some "bertas password"
  totpSecret := "222222"
  totpEnabled := true
  role := .superadmin

/-- A session of a user. -/
def session (user : AdminUser) (jti : ℕ) : Token where
  sub := user.id
  exp := 3601
  iat := 1
  authTime := some 1
  jti := jti

/-- Both are signed in. -/
def morning : Start where
  users := [anna, berta]
  signedIn := [session anna 1, session berta 2]
  now := 1

/-- A request goes on for some operations, each with the same draw. -/
def continues (w n : ℕ) (random : ℕ := 0) : List Step :=
  List.replicate n (.run w { random := random })

/-- The state a list of events leads to. -/
def afterwards (s : Requests) (events : List Step) : Requests :=
  (run (semantics literal) (handler literal) s events).getD s

theorem run_afterwards {s : Requests} {events : List Step}
    (h : (run (semantics literal) (handler literal) s events).isSome = true) :
    run (semantics literal) (handler literal) s events = some (afterwards s events) := by
  obtain ⟨t, ht⟩ := Option.isSome_iff_exists.mp h
  rw [afterwards, ht]
  rfl

theorem step_afterwards {s : Requests} {event : Step}
    (h : (run (semantics literal) (handler literal) s [event]).isSome = true) :
    step (semantics literal) (handler literal) s event = some (afterwards s [event]) := by
  obtain ⟨t, hstep, ht⟩ := run_cons_eq_some.mp (run_afterwards h)
  cases ht
  exact hstep

/-- Anna's refresh has checked her session when Berta's deactivation of her account commits. -/
def refreshAcrossDeactivation : List Step :=
  .start 1 (.sessionRefresh (some (session anna 1))) :: continues 1 4 ++
    .start 2 (.deactivate (some (session berta 2)) 1) :: continues 2 6

/-- The moment before the sweep, the moment after it, and the end of the refresh, which has stored
its successor and has to withdraw it. -/
def beforeSweep : Requests := afterwards morning.system refreshAcrossDeactivation

def afterSweep : Requests := afterwards beforeSweep [.run 2 {}]

def afterRefresh : Requests := afterwards afterSweep (continues 1 4 7)

theorem sweep_beats_every_refresh_across_deactivation :
    afterRefresh.answer 1 = some (.refused 401) ∧
    session anna 7 ∈ afterRefresh.shared.sessions.stored ∧
    afterRefresh.shared.sessions.user (session anna 7) = none := by
  refine ⟨by decide +kernel, by decide +kernel, ?_⟩
  have hbefore : run (semantics literal) (handler literal) morning.system
    refreshAcrossDeactivation = some beforeSweep := run_afterwards (by decide +kernel)
  have hstep : step (semantics literal) (handler literal) beforeSweep (.run 2 {}) =
    some afterSweep := step_afterwards (by decide +kernel)
  have hafter : run (semantics literal) (handler literal) afterSweep (continues 1 4 7) =
    some afterRefresh := run_afterwards (by decide +kernel)
  have hanswered : ∀ w cookie,
      beforeSweep.shared.sessions.received w = some (.sessionRefresh cookie) →
        (afterRefresh.answer w).isSome = true := by
    intro w cookie hreceived
    by_cases hone : w = 1
    · rw [hone]
      decide +kernel
    by_cases htwo : w = 2
    · rw [htwo] at hreceived
      cases hreceived
    · have hnone : beforeSweep.shared.sessions.received w =
          Function.update (Function.update (fun _ ↦ none) 1
            (some (Request.sessionRefresh (some (session anna 1))))) 2
            (some (.deactivate (some (session berta 2)) 1)) w := rfl
      rw [hnone, Function.update_of_ne htwo, Function.update_of_ne hone] at hreceived
      cases hreceived
  exact sweep_beats_every_refresh hbefore rfl hstep hafter hanswered
    (session anna 1) (by decide +kernel) rfl (session anna 7) (Descends.child (by decide +kernel))

end OpenWhistle.Accounts
