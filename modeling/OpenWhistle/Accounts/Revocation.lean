import OpenWhistle.Accounts.Evidence
import OpenWhistle.Accounts.Logout

/-!
# Revoked credentials and the sessions that rest on them

A password change, a reset of the authenticator and a deactivation commit first and sweep the
account afterwards. A sign-in reads the account, checks what it was given against the row it has
read, and stores a waiting login or a session; nothing ties the store to the row. Where every store
comes before the sweep that would have ended it, the sweep ends all that rests on revoked credentials,
and a refresh cannot bring it back. Where a store comes after the sweep, the session stands: refused
while the account is not enrolled or not active, and accepted again when it is.
-/

set_option autoImplicit false
set_option relaxedAutoImplicit false

namespace OpenWhistle.Accounts

open Interleaving Descent

variable {d : Deployment}

/-- The session check, run with nothing in between, answers what `accepts` says. -/
theorem getSignedInAdmin_alone (s : Server) (w : ℕ) (draw : Draw) (token : Token) :
    ((semantics d).alone w draw (getSignedInAdmin d (some token)) s).map Prod.fst =
      some (.ok (s.accepts d token)) := by
  unfold Server.accepts
  show ((semantics d).alone w draw
    (if (s.sessions.user token).isSome = false then _ else _) s).map Prod.fst = _
  by_cases hlive : s.sessions.user token = none
  · have hnone : (s.sessions.user token).isSome = false := Option.isSome_eq_false_iff.mpr
      (Option.isNone_iff_eq_none.mpr hlive)
    rw [if_pos hnone, if_pos (.inl hlive)]
    rfl
  have hsome : ¬(s.sessions.user token).isSome = false := by
    rw [Option.isSome_iff_ne_none.mpr hlive]
    decide
  rw [if_neg hsome]
  show ((semantics d).alone w draw
    (if token.isCurrent d s.now = false then _ else _) s).map Prod.fst = _
  by_cases hcurrent : token.isCurrent d s.now = false
  · rw [if_pos hcurrent, if_pos (.inr hcurrent)]
    rfl
  rw [if_neg hcurrent, if_neg (not_or.mpr ⟨hlive, hcurrent⟩)]
  have hread : (semantics d).perform w (.getUserById token.sub) draw s =
    some (.ok (s.userById token.sub), { s with signIns := s.checkSecond w token.sub }) := rfl
  show (((semantics d).perform w (.getUserById token.sub) draw s).bind _).map Prod.fst = _
  rw [hread]
  cases s.userById token.sub with
  | none => rfl
  | some user =>
    show some (Except.ok (if _ then _ else _)) = some (Except.ok (Option.filter _ (some user)))
    rw [Option.filter_some]

/-- In every interleaving in which the sign-ins store in time: after a sweep of an account, no
session is accepted that rests on credentials which a change of the account had revoked before the
sweep, neither the one a sign-in stored nor one that a browser holds and that descends from it: a
request that comes with it is told that nobody is signed in. The session that a password change
keeps, and its descendants, are the change's own. -/
theorem revoked_credentials_never_yield_a_session {start : Start} {events : List Step}
    {last : Requests}
    (hintime : Meets (semantics d) (handler d) SignsInInTime start.system events)
    (hrun : run (semantics d) (handler d) start.system events = some last)
    {sweep : Sweep} (hsweep : sweep ∈ last.shared.sessions.sweeps)
    {root token : Token} (haccount : sweep.account = root.sub)
    (hrevoked : LateFor last.shared.auditLog sweep (last.shared.signIns.evidence root))
    (hdescends : Descends last.shared.sessions.parent root token)
    (hkept : ∀ kept, sweep.kept = some kept →
      ¬Descends last.shared.sessions.parent kept token)
    (hheld : last.shared.sessions.parent token = none ∨ token ∈ last.shared.sessions.handed) :
    last.shared.accepts d token = none ∧ ∀ w draw,
      ((semantics d).alone w draw (getSignedInAdmin d (some token)) last.shared).map Prod.fst =
        some (.ok none) := by
  have hbefore := (current_of_run hintime hrun).evidence root sweep hsweep haccount hrevoked
  have hcondemned : last.shared.sessions.Condemned sweep token :=
    ⟨⟨root, hbefore, haccount.symm, hdescends⟩, hkept⟩
  have horderly : last.shared.sessions.Orderly fun _ ↦ False :=
    (holds_of_any_run hrun).invariant
  have hdead : last.shared.sessions.user token = none := by
    by_contra hlive
    obtain ⟨hhanded, old, -, hparent, -⟩ :=
      horderly.condemned sweep hsweep token hlive hcondemned
    rcases hheld with hroot | hheld
    · rw [hroot] at hparent
      cases hparent
    · exact hhanded hheld
  have hrefused : last.shared.accepts d token = none := if_pos (.inl hdead)
  refine ⟨hrefused, fun w draw ↦ ?_⟩
  rw [getSignedInAdmin_alone, hrefused]

/-! ### A reset of the authenticator after a sign-in, and across one -/

/-- Nobody but Berta is signed in. -/
def evening : Start where
  users := [anna, berta]
  signedIn := [session berta 2]
  now := 1

/-- Berta resets Anna's authenticator; the new secret and the temporary password are drawn. -/
def resetAuthenticator : List Step :=
  .start 3 (.resetTotp (some (session berta 2)) 1) :: continues 3 5 ++
    [.run 3 { text := "333333" }, .run 3 { text := "temporary" }] ++ continues 3 3

/-- Anna's sign-in is complete when the reset starts. -/
def resetAfterSignIn : List Step :=
  .start 1 (.login "anna" "annas password") :: continues 1 6 5 ++
    .start 2 (.loginMfa 5 "111111") :: continues 2 12 7 ++ resetAuthenticator

def afterReset : Requests := afterwards evening.system resetAfterSignIn

/-- The sweep of a run: of Anna's account, with nothing kept. -/
def sweepOf (s : Requests) : Sweep :=
  s.shared.sessions.sweeps.headD ⟨0, none, [], fun _ ↦ none, 0⟩

theorem revoked_credentials_never_yield_a_session_after_reset :
    afterReset.answer 2 = some (.redirect "/admin/dashboard" 302) ∧
    afterReset.answer 3 = some (.users "anna" (some "temporary")) ∧
    afterReset.shared.accepts literal (session anna 7) = none := by
  refine ⟨by decide +kernel, by decide +kernel, ?_⟩
  have hrun : run (semantics literal) (handler literal) evening.system resetAfterSignIn =
    some afterReset := run_afterwards (by decide +kernel)
  have hsweeps : afterReset.shared.sessions.sweeps = [sweepOf afterReset] := rfl
  have hsweep : sweepOf afterReset ∈ afterReset.shared.sessions.sweeps :=
    hsweeps ▸ List.mem_singleton_self (sweepOf afterReset)
  have hkept : (sweepOf afterReset).kept = none := by decide +kernel
  exact (revoked_credentials_never_yield_a_session (by decide +kernel) hrun hsweep
    (by decide +kernel) (by decide +kernel) (Descends.refl (session anna 7))
    (fun kept h ↦ by rw [hkept] at h; cases h) (.inl (by decide +kernel))).1

/-- The reset commits and sweeps after the code step has read the row and before it has checked the
code. -/
def resetAcrossSignIn : List Step :=
  .start 1 (.login "anna" "annas password") :: continues 1 6 5 ++
    .start 2 (.loginMfa 5 "111111") :: continues 2 3 7 ++ resetAuthenticator ++ continues 2 9 7

/-- Anna enrols her new authenticator. -/
def enrolment : List Step :=
  .start 4 (.login "anna" "temporary") :: continues 4 6 8 ++
    .start 5 (.mfaSetup 8 "333333") :: continues 5 11 9

def afterEnrolment : Requests := afterwards evening.system (resetAcrossSignIn ++ enrolment)

/-- A session whose password and code were checked against what the reset revoked signs in once the
account is enrolled again. -/
theorem sign_in_outlives_the_reset :
    run (semantics literal) (handler literal) evening.system (resetAcrossSignIn ++ enrolment) =
      some afterEnrolment ∧
    (∃ sweep ∈ afterEnrolment.shared.sessions.sweeps, sweep.account = anna.id ∧
      sweep.kept = none ∧ LateFor afterEnrolment.shared.auditLog sweep
        (afterEnrolment.shared.signIns.evidence (session anna 7))) ∧
    (afterEnrolment.shared.accepts literal (session anna 7)).isSome = true ∧
    (afterwards afterEnrolment (.start 6 (.sessionTtl (some (session anna 7))) ::
      continues 6 5)).answer 6 = some (.ttl 3600 3601) := by
  exact ⟨run_afterwards (by decide +kernel), by decide +kernel, by decide +kernel,
    by decide +kernel⟩

end OpenWhistle.Accounts
