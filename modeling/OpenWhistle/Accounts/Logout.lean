import OpenWhistle.Accounts.Sweep

/-!
# What a logout ends

A refresh deletes the session it renews before its successor reaches the browser. A logout that still
carries the old session then finds nothing to delete, and the successor, which the response of the
refresh hands out afterwards, stays alive. Where the logout comes first, every refresh finds the old
session gone and withdraws its successor, and with the successors the whole line ends, because a
browser only ever holds a successor whose request ended the session before it. That no browser holds
one is so whatever requests end with an exception; a refresh that does may leave its successor behind.
-/

set_option autoImplicit false
set_option relaxedAutoImplicit false

namespace OpenWhistle.Accounts

open Interleaving Descent

variable {d : Deployment}

/-- A refresh that comes to delete the session it renews finds it gone. -/
def RefreshComesLate (old : Token) (s : Requests) (event : Step) : Prop :=
  ∀ acting ∈ s.acting event, acting.2 = .deleteSession old →
    s.shared.sessions.received acting.1 = some (.sessionRefresh (some old)) →
      s.shared.sessions.user old = none

instance (old : Token) (s : Requests) (event : Step) : Decidable (RefreshComesLate old s event) :=
  inferInstanceAs (Decidable (∀ acting ∈ s.acting event, _))

/-- When no refresh finds the session any more, none of its successors outlives the answer of its
refresh, and none was handed out. -/
theorem not_ended_by_refresh {old made : Token} {w : ℕ} {s : Sessions}
    (h : s.Orderly fun token ↦ token = old) (hmade : s.parent made = some old)
    (hown : s.owner made = some w) : s.endedBy old ≠ some w := by
  obtain ⟨-, -, -, v, hother, hreceived⟩ := h.parent made old hmade
  intro hended
  rw [hown, Option.some.injEq] at hother
  exact h.spared old w rfl hended (hother ▸ hreceived)

theorem holds_of_late {start : Start} {events : List Step} {last : Requests} {old : Token}
    (hlate : Meets (semantics d) (handler d) (RefreshComesLate old) start.system events)
    (hrun : run (semantics d) (handler d) start.system events = some last) :
    (lineage d fun token ↦ token = old).Holds last := by
  refine holds_of_run (meets_imp (fun s event h w operation hacting other hother hdelete hreceived ↦ ?_)
    hlate) hrun
  subst hother
  exact h (w, operation) hacting hdelete hreceived

/-- The sessions that descend from it are those of its own refreshes, and none was handed out. -/
theorem child_of_late {old token : Token} {s : Sessions} (h : s.Orderly fun token ↦ token = old)
    (hdescends : Descends s.parent old token) (hne : token ≠ old) :
    s.parent token = some old ∧ token ∉ s.handed := by
  rcases hdescends.cases_child with heq | ⟨made, hmade, hrest⟩
  · exact absurd heq hne
  obtain ⟨-, -, -, w, hown, -⟩ := h.parent made old hmade
  have hnot : made ∉ s.handed := fun hhanded ↦
    not_ended_by_refresh h hmade hown ((h.chosen made hhanded old hmade).trans hown)
  rcases hrest.cases_child with rfl | ⟨next, hnext, -⟩
  · exact ⟨hmade, hnot⟩
  · -- a session that was renewed itself had been handed out
    exact absurd (h.parent next made hnext).2.1 hnot

/-- In every interleaving in which no refresh of a session finds it when it comes to delete it, answered
or not: no browser was handed a session that descends from it. -/
theorem no_successor_handed {start : Start} {events : List Step} {last : Requests} {old : Token}
    (hlate : Meets (semantics d) (handler d) (RefreshComesLate old) start.system events)
    (hrun : run (semantics d) (handler d) start.system events = some last)
    (token : Token) (hdescends : Descends last.shared.sessions.parent old token) (hne : token ≠ old) :
    token ∉ last.shared.sessions.handed :=
  (child_of_late (holds_of_late hlate hrun).invariant hdescends hne).2

/-- In every interleaving in which no refresh of a session finds it when it comes to delete it:
when a logout of the session and all refreshes of it have been answered, neither the session nor any
that descends from it exists. -/
theorem logout_ends_the_line {start : Start} {events : List Step} {last : Requests} {old : Token}
    {l : ℕ} (hlate : Meets (semantics d) (handler d) (RefreshComesLate old) start.system events)
    (hrun : run (semantics d) (handler d) start.system events = some last)
    (hlogout : last.shared.sessions.received l = some (.logout (some old)))
    (hended : (last.answer l).isSome = true)
    (hanswered : ∀ w, last.shared.sessions.received w = some (.sessionRefresh (some old)) →
      (last.answer w).isSome = true)
    (token : Token) (hdescends : Descends last.shared.sessions.parent old token) :
    last.shared.sessions.user token = none := by
  have hholds := holds_of_late hlate hrun
  have horderly : last.shared.sessions.Orderly fun token ↦ token = old := hholds.invariant
  by_cases heq : token = old
  · subst heq
    obtain ⟨answer, hanswer⟩ := Option.isSome_iff_exists.mp hended
    have hfinished : last.shared.sessions.Finished l := hholds.ends_of_answer hanswer
    obtain ⟨-, hgone⟩ := hfinished.logout token hlogout
    by_contra hlive
    exact hlive (hgone (horderly.stored token (horderly.live token hlive))).2
  obtain ⟨hmade, -⟩ := child_of_late horderly hdescends heq
  obtain ⟨-, -, -, w, hown, hreceived⟩ := horderly.parent token old hmade
  obtain ⟨answer, hanswer⟩ := Option.isSome_iff_exists.mp (hanswered w hreceived)
  have hfinished : last.shared.sessions.Finished w := hholds.ends_of_answer hanswer
  by_contra hlive
  exact not_ended_by_refresh horderly hmade hown
    (((hfinished.settled token hown).2 hlive).2 old hmade)

/-! ### A logout before and after the DEL of a refresh -/

/-- The refresh has stored its successor when the logout deletes the session. -/
def logoutFirst : List Step :=
  .start 1 (.sessionRefresh (some (session anna 1))) :: continues 1 6 7 ++
    .start 2 (.logout (some (session anna 1))) :: continues 2 2 ++ continues 1 2

def afterLogoutFirst : Requests := afterwards morning.system logoutFirst

theorem logout_ends_the_line_of_a_started_refresh :
    afterLogoutFirst.answer 1 = some (.refused 401) ∧
    afterLogoutFirst.shared.sessions.user (session anna 7) = none := by
  refine ⟨by decide +kernel, ?_⟩
  have hrun : run (semantics literal) (handler literal) morning.system logoutFirst =
    some afterLogoutFirst := run_afterwards (by decide +kernel)
  have hanswered : ∀ w, afterLogoutFirst.shared.sessions.received w =
      some (.sessionRefresh (some (session anna 1))) →
        (afterLogoutFirst.answer w).isSome = true := by
    intro w hreceived
    by_cases hone : w = 1
    · rw [hone]
      decide +kernel
    by_cases htwo : w = 2
    · rw [htwo]
      decide +kernel
    · have hnone : afterLogoutFirst.shared.sessions.received w =
          Function.update (Function.update (fun _ ↦ none) 1
            (some (Request.sessionRefresh (some (session anna 1))))) 2
            (some (.logout (some (session anna 1)))) w := rfl
      rw [hnone, Function.update_of_ne htwo, Function.update_of_ne hone] at hreceived
      cases hreceived
  have hlogout : afterLogoutFirst.shared.sessions.received 2 =
    some (.logout (some (session anna 1))) := by decide +kernel
  exact logout_ends_the_line (by decide +kernel) hrun hlogout (by decide +kernel) hanswered
    (session anna 7) (Descends.child (by decide +kernel))

/-- The refresh has deleted the old session when the logout, which started after it, comes to do the
same. -/
def refreshFirst : List Step :=
  .start 1 (.sessionRefresh (some (session anna 1))) :: continues 1 6 7 ++
    .start 2 (.logout (some (session anna 1))) :: continues 1 1 ++ continues 2 2 ++ continues 1 2

def afterRefreshFirst : Requests := afterwards morning.system refreshFirst

/-- Both requests have been answered, and the successor of the session that was logged out is a
valid session in the browser. -/
theorem refresh_outlives_the_logout :
    run (semantics literal) (handler literal) morning.system refreshFirst =
      some afterRefreshFirst ∧
    afterRefreshFirst.answer 2 = some (.redirect "/admin/login" 303) ∧
    afterRefreshFirst.answer 1 = some (.ttl 3600 3601) ∧
    Descends afterRefreshFirst.shared.sessions.parent (session anna 1) (session anna 7) ∧
    session anna 7 ∈ afterRefreshFirst.shared.sessions.handed ∧
    (afterwards afterRefreshFirst (.start 3 (.sessionTtl (some (session anna 7))) ::
      continues 3 5)).answer 3 = some (.ttl 3600 3601) := by
  refine ⟨run_afterwards (by decide +kernel), by decide +kernel, by decide +kernel, ?_,
    by decide +kernel, by decide +kernel⟩
  exact Descends.child (by decide +kernel)

end OpenWhistle.Accounts
