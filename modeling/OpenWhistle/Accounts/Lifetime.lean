import OpenWhistle.Accounts.Users
import OpenWhistle.Foundation.Machine
import Mathlib.Order.Lattice

/-!
# The absolute lifetime of a login

Four clocks end a session: the `exp` of its token, the expiry of its Redis key, the age of its
cookie, and the time of the login, which a token carries as `auth_time` and hands on to the token a
refresh makes from it. Clocks read microseconds here; what is written into a token, a key or a cookie
is whole seconds. Along a chain of refreshes nothing is measured from the refresh but the start of
the next short lifetime, so no rounding adds up: every token of the chain is capped by the second of
the login itself.

Each reading of the clock has its own time, except that the seconds a key or a cookie gets are
computed and set at one reading. The checks of a request come one after the other. A session key is
named by an HMAC of its token, so it stands under the token itself; a forged token has no key.
-/

set_option autoImplicit false
set_option relaxedAutoImplicit false

namespace OpenWhistle.Accounts

/-- Times are microseconds since the epoch. -/
def second : ℕ := 1000000

/-! ### One token -/

/-- `exp` and `iat` are cut off to whole seconds when the token is encoded. -/
def createAccessToken (d : Deployment) (user : UserId) (authTime : Option ℕ) (now : ℕ)
    (jti : ℕ) : Token where
  sub := user
  exp := min (now + d.accessTokenExpireMinutes * 60 * second)
    ((authTime.getD (now / second) + d.sessionMaxHours * 3600) * second) / second
  iat := now / second
  authTime := some (authTime.getD (now / second))
  jti := jti

/-- The claims are those of the clock that reads whole seconds. -/
theorem createAccessToken_eq (d : Deployment) (user : UserId) (authTime : Option ℕ) (now : ℕ)
    (jti : ℕ) :
    createAccessToken d user authTime now jti = accessToken d user authTime (now / second) jti := by
  have hexp : min (now + d.accessTokenExpireMinutes * 60 * second)
      ((authTime.getD (now / second) + d.sessionMaxHours * 3600) * second) / second =
      min (now / second + d.accessTokenExpireMinutes * 60)
        (authTime.getD (now / second) + d.sessionMaxHours * 3600) := by
    unfold second
    omega
  rw [createAccessToken, accessToken, hexp]

/-- `jwt.decode` of a token with a right signature. -/
def Token.decodes (token : Token) (now : ℕ) : Bool :=
  decide (now < token.exp * second) && decide (token.iat * second ≤ now)

def Token.sessionTooOld (d : Deployment) (token : Token) (now : ℕ) : Bool :=
  decide (d.sessionMaxHours * 3600 * second < now - token.sessionStartedAt * second)

def Token.secondsLeft (token : Token) (now : ℕ) : ℕ :=
  if token.decodes now then (token.exp * second - now) / second else 0

/-- Something with a time to live: when it was set, and for how many seconds. -/
structure Held where
  token : Token
  set : ℕ
  seconds : ℕ
  deriving DecidableEq

def Held.ends (held : Held) : ℕ := held.set + held.seconds * second

/-- What `store_session` sets in Redis, and `_set_session_cookie` in the browser. -/
def Token.held (token : Token) (now : ℕ) : Held := ⟨token, now, max 1 (token.secondsLeft now)⟩

theorem ends_held_le (token : Token) (now : ℕ) :
    (token.held now).ends ≤ token.exp * second ∨ (token.held now).ends ≤ now + second := by
  have hends : (token.held now).ends = now + max 1 (token.secondsLeft now) * second := rfl
  rw [hends]
  unfold Token.secondsLeft
  split_ifs with hdecodes
  · have hlt : now < token.exp * second :=
      of_decide_eq_true (Bool.and_eq_true_iff.mp hdecodes).1
    have hmul : (token.exp * second - now) / second * second ≤ token.exp * second - now :=
      Nat.div_mul_le_self _ _
    rcases le_total 1 ((token.exp * second - now) / second) with hone | hone
    · left
      rw [max_eq_right hone]
      omega
    · right
      rw [max_eq_left hone, Nat.one_mul]
  · right
    rw [max_eq_left (Nat.zero_le 1), Nat.one_mul]

/-! ### Logins and their refreshes -/

/-- The readings of the clock by one check of a session. -/
structure Readings where
  began : ℕ
  validated : ℕ
  decoded : ℕ
  aged : ℕ
  validated_le : began ≤ validated
  decoded_le : validated ≤ decoded
  aged_le : decoded ≤ aged

/-- A request that was let in. -/
structure Visit where
  token : Token
  readings : Readings

structure Logins where
  users : List AdminUser
  /-- The session keys in Redis; a key that was deleted is not there. -/
  keys : Token → Option Held
  issued : List Token
  /-- When the login took place that a token belongs to. -/
  login : Token → ℕ
  /-- Every session key that was ever set, and every session cookie. -/
  stored : List Held
  cookies : List Held
  accepted : List Visit

/-- When a request makes a token, stores it, deletes the session before, and sets the cookie. -/
structure Renewal where
  created : ℕ
  stored : ℕ
  revoked : ℕ
  handed : ℕ
  jti : ℕ

inductive Arrival
  | login (user : UserId) (renewal : Renewal)
  | request (cookie : Token) (readings : Readings)
  | refresh (cookie : Token) (readings : Readings) (renewal : Renewal)
  | revoke (token : Token)

namespace Logins

/-- The session key exists at a time. -/
def live (s : Logins) (token : Token) (now : ℕ) : Bool :=
  (s.keys token).any fun held ↦ decide (now < held.ends)

def getSignedInAdmin (d : Deployment) (s : Logins) (cookie : Token) (readings : Readings) :
    Option AdminUser :=
  if s.live cookie readings.validated = false then none
  else if cookie.decodes readings.decoded = false ∨ cookie.sessionTooOld d readings.aged = true then
    none
  else (s.users.find? fun user ↦ user.id = cookie.sub).filter fun user ↦
    user.isActive && user.totpEnabled

/-- A token is made and its session stored. -/
def store (s : Logins) (token : Token) (login : ℕ) (renewal : Renewal) : Logins :=
  { s with
    keys := Function.update s.keys token (some (token.held renewal.stored))
    issued := token :: s.issued
    login := Function.update s.login token login
    stored := token.held renewal.stored :: s.stored }

def revokeSession (s : Logins) (token : Token) : Logins :=
  { s with keys := Function.update s.keys token none }

def setSessionCookie (s : Logins) (token : Token) (now : ℕ) : Logins :=
  { s with cookies := token.held now :: s.cookies }

/-- `_start_session`. -/
def startSession (d : Deployment) (s : Logins) (user : UserId) (renewal : Renewal) : Logins :=
  match s.users.find? fun other ↦ other.id = user with
  | none => s
  | some user =>
    if user.isActive = false then s
    else
      let token := createAccessToken d user.id none renewal.created renewal.jti
      (s.store token renewal.created renewal).setSessionCookie token renewal.handed

def sessionRefresh (d : Deployment) (s : Logins) (cookie : Token) (user : AdminUser)
    (renewal : Renewal) : Logins :=
  if cookie.sessionStartedAt = 0 then s
  else
    let token := createAccessToken d user.id (some cookie.sessionStartedAt) renewal.created
      renewal.jti
    let stored := s.store token (s.login cookie) renewal
    if stored.live cookie renewal.revoked then
      (stored.revokeSession cookie).setSessionCookie token renewal.handed
    else stored.revokeSession token

/-- What an event does. The `jti` of a new token is one no token has. -/
def step (d : Deployment) (s : Logins) : Arrival → Option Logins
  | .login user renewal =>
    if ∃ token ∈ s.issued, token.jti = renewal.jti then none else some (s.startSession d user renewal)
  | .request cookie readings =>
    match s.getSignedInAdmin d cookie readings with
    | none => some s
    | some _ => some { s with accepted := ⟨cookie, readings⟩ :: s.accepted }
  | .refresh cookie readings renewal =>
    if ∃ token ∈ s.issued, token.jti = renewal.jti then none
    else match s.getSignedInAdmin d cookie readings with
    | none => some s
    | some user => some
        (sessionRefresh d { s with accepted := ⟨cookie, readings⟩ :: s.accepted } cookie user renewal)
  | .revoke token => some (s.revokeSession token)

def start (users : List AdminUser) : Logins where
  users := users
  keys _ := none
  issued := []
  login _ := 0
  stored := []
  cookies := []
  accepted := []

end Logins

/-! ### The second of the login caps everything -/

/-- When the session of a login ends at the latest, in whole seconds. -/
def absoluteLimit (d : Deployment) (login : ℕ) : ℕ := login / second + d.sessionMaxHours * 3600

/-- A new token expires by the limit of the login it names. -/
theorem exp_createAccessToken_le (d : Deployment) (user : UserId) (authTime : Option ℕ)
    (now jti : ℕ) : (createAccessToken d user authTime now jti).exp ≤
      authTime.getD (now / second) + d.sessionMaxHours * 3600 := by
  rw [createAccessToken_eq]
  exact min_le_right _ _

namespace Logins

variable {d : Deployment} {s : Logins} {token : Token}

structure Bounded (d : Deployment) (s : Logins) : Prop where
  known : ∀ token held, s.keys token = some held → token ∈ s.issued
  started : ∀ token ∈ s.issued, token.authTime = some (s.login token / second)
  exp : ∀ token ∈ s.issued, token.exp ≤ absoluteLimit d (s.login token)
  accepted : ∀ visit ∈ s.accepted, visit.token ∈ s.issued ∧
    visit.readings.decoded < visit.token.exp * second
  stored : ∀ held ∈ s.stored, held.ends ≤ held.token.exp * second ∨ held.ends ≤ held.set + second
  cookies : ∀ held ∈ s.cookies, held.ends ≤ held.token.exp * second ∨ held.ends ≤ held.set + second

/-- Who is let in holds a token that was issued and has not expired. -/
theorem accepted_of_getSignedInAdmin {readings : Readings} {user : AdminUser} (h : s.Bounded d)
    (huser : s.getSignedInAdmin d token readings = some user) :
    token ∈ s.issued ∧ readings.decoded < token.exp * second := by
  unfold getSignedInAdmin at huser
  split_ifs at huser with hdead hexpired
  · refine ⟨?_, ?_⟩
    · have hlive : s.live token readings.validated = true := by simpa using hdead
      unfold live at hlive
      cases hheld : s.keys token with
      | none =>
        rw [hheld] at hlive
        cases hlive
      | some held => exact h.known token held hheld
    · have hdecodes : token.decodes readings.decoded = true := by
        simpa using (not_or.mp hexpired).1
      exact of_decide_eq_true (Bool.and_eq_true_iff.mp hdecodes).1

theorem Bounded.accept {readings : Readings} {user : AdminUser} (h : s.Bounded d)
    (huser : s.getSignedInAdmin d token readings = some user) :
    ({ s with accepted := ⟨token, readings⟩ :: s.accepted } : Logins).Bounded d := by
  have hown := accepted_of_getSignedInAdmin h huser
  refine ⟨h.known, h.started, h.exp, fun visit hvisit ↦ ?_, h.stored, h.cookies⟩
  rcases List.mem_cons.mp hvisit with rfl | hold
  · exact hown
  · exact h.accepted visit hold

/-- A new token that names the second of its login. -/
theorem Bounded.store {login : ℕ} {renewal : Renewal} (h : s.Bounded d) (hnew : token ∉ s.issued)
    (hstarted : token.authTime = some (login / second)) (hexp : token.exp ≤ absoluteLimit d login) :
    (s.store token login renewal).Bounded d := by
  have hlogin : ∀ other ∈ s.issued, (s.store token login renewal).login other = s.login other :=
    fun other hother ↦ Function.update_of_ne (ne_of_mem_of_not_mem hother hnew) ..
  have hself : (s.store token login renewal).login token = login := Function.update_self ..
  refine ⟨fun other held hheld ↦ ?_, fun other hother ↦ ?_, fun other hother ↦ ?_,
    fun visit hvisit ↦ ?_, fun held hheld ↦ ?_, h.cookies⟩
  · by_cases heq : other = token
    · rw [heq]
      exact List.mem_cons_self
    · have hold : s.keys other = some held := (Function.update_of_ne heq ..).symm.trans hheld
      exact List.mem_cons_of_mem _ (h.known other held hold)
  · rcases List.mem_cons.mp hother with rfl | hold
    · rw [hself]
      exact hstarted
    · rw [hlogin other hold]
      exact h.started other hold
  · rcases List.mem_cons.mp hother with rfl | hold
    · rw [hself]
      exact hexp
    · rw [hlogin other hold]
      exact h.exp other hold
  · obtain ⟨hissued, hdecoded⟩ := h.accepted visit hvisit
    exact ⟨List.mem_cons_of_mem _ hissued, hdecoded⟩
  · rcases List.mem_cons.mp hheld with rfl | hold
    · exact ends_held_le token renewal.stored
    · exact h.stored held hold

theorem Bounded.revokeSession (h : s.Bounded d) : (s.revokeSession token).Bounded d := by
  refine ⟨fun other held hheld ↦ ?_, h.started, h.exp, h.accepted, h.stored, h.cookies⟩
  change Function.update s.keys token none other = some held at hheld
  by_cases heq : other = token
  · rw [heq, Function.update_self] at hheld
    cases hheld
  · rw [Function.update_of_ne heq] at hheld
    exact h.known other held hheld

theorem Bounded.setSessionCookie {now : ℕ} (h : s.Bounded d) :
    (s.setSessionCookie token now).Bounded d := by
  refine ⟨h.known, h.started, h.exp, h.accepted, h.stored, fun held hheld ↦ ?_⟩
  rcases List.mem_cons.mp hheld with rfl | hold
  · exact ends_held_le token now
  · exact h.cookies held hold

theorem bounded_startSession {user : UserId} {renewal : Renewal} (h : s.Bounded d)
    (hfresh : ¬∃ token ∈ s.issued, token.jti = renewal.jti) :
    (s.startSession d user renewal).Bounded d := by
  unfold startSession
  cases s.users.find? fun other ↦ other.id = user with
  | none => exact h
  | some user =>
    dsimp only
    split_ifs
    · exact h
    · refine (h.store (fun hold ↦ hfresh ⟨_, hold, rfl⟩) rfl ?_).setSessionCookie
      exact exp_createAccessToken_le d user.id none renewal.created renewal.jti

theorem bounded_sessionRefresh {user : AdminUser} {renewal : Renewal} (h : s.Bounded d)
    (hissued : token ∈ s.issued) (hfresh : ¬∃ token ∈ s.issued, token.jti = renewal.jti) :
    (s.sessionRefresh d token user renewal).Bounded d := by
  have hstarted : token.sessionStartedAt = s.login token / second := by
    rw [Token.sessionStartedAt, h.started token hissued, Option.getD_some]
  unfold sessionRefresh
  split_ifs
  · exact h
  have hstored : (s.store (createAccessToken d user.id (some token.sessionStartedAt)
      renewal.created renewal.jti) (s.login token) renewal).Bounded d := by
    refine h.store (fun hold ↦ hfresh ⟨_, hold, rfl⟩) (congrArg some hstarted) ?_
    refine (exp_createAccessToken_le d user.id _ renewal.created renewal.jti).trans ?_
    rw [Option.getD_some, hstarted]
    exact le_refl _
  dsimp only
  split_ifs
  · exact hstored.revokeSession.setSessionCookie
  · exact hstored.revokeSession

theorem bounded_step {t : Logins} {arrival : Arrival} (h : s.Bounded d)
    (hstep : s.step d arrival = some t) : t.Bounded d := by
  cases arrival with
  | login user renewal =>
    obtain ⟨hfresh, heq⟩ := Option.ite_none_left_eq_some.mp hstep
    cases heq
    exact bounded_startSession h hfresh
  | request cookie readings =>
    unfold step at hstep
    dsimp only at hstep
    cases huser : s.getSignedInAdmin d cookie readings with
    | none =>
      rw [huser] at hstep
      cases hstep
      exact h
    | some user =>
      rw [huser] at hstep
      cases hstep
      exact h.accept huser
  | refresh cookie readings renewal =>
    obtain ⟨hfresh, heq⟩ := Option.ite_none_left_eq_some.mp hstep
    cases huser : s.getSignedInAdmin d cookie readings with
    | none =>
      rw [huser] at heq
      cases heq
      exact h
    | some user =>
      rw [huser] at heq
      cases heq
      exact bounded_sessionRefresh (h.accept huser) (accepted_of_getSignedInAdmin h huser).1 hfresh
  | revoke token =>
    cases hstep
    exact h.revokeSession

theorem bounded_run {users : List AdminUser} {arrivals : List Arrival} {last : Logins}
    (hrun : Machine.run (step d) (start users) arrivals = some last) : last.Bounded d := by
  refine Machine.run_invariant_of_step (fun _ _ _ hs hstep ↦ bounded_step hs hstep) ?_ hrun
  exact ⟨(fun _ _ h ↦ nomatch h), (fun _ h ↦ nomatch h), (fun _ h ↦ nomatch h),
    (fun _ h ↦ nomatch h), (fun _ h ↦ nomatch h), (fun _ h ↦ nomatch h)⟩

end Logins

/-- In every run, for every token, whichever login it goes back to and through however many refreshes:
it expires by the second of the login plus the absolute lifetime, no request that begins later is let
in with it, and its Redis keys and its cookies end with it, or one second after they were set. -/
theorem sessions_end_with_the_login (d : Deployment) {users : List AdminUser}
    {arrivals : List Arrival} {last : Logins}
    (hrun : Machine.run (Logins.step d) (Logins.start users) arrivals = some last) {token : Token}
    (hissued : token ∈ last.issued) :
    token.exp ≤ absoluteLimit d (last.login token) ∧
    (∀ visit ∈ last.accepted, visit.token = token →
      visit.readings.began < absoluteLimit d (last.login token) * second) ∧
    (∀ held ∈ last.stored, held.token = token →
      held.ends ≤ token.exp * second ∨ held.ends ≤ held.set + second) ∧
    ∀ held ∈ last.cookies, held.token = token →
      held.ends ≤ token.exp * second ∨ held.ends ≤ held.set + second := by
  have hbounded := Logins.bounded_run hrun
  have hexp := hbounded.exp token hissued
  refine ⟨hexp, ?_, ?_, ?_⟩
  · rintro visit hvisit rfl
    calc visit.readings.began ≤ visit.readings.decoded :=
          visit.readings.validated_le.trans visit.readings.decoded_le
      _ < visit.token.exp * second := (hbounded.accepted visit hvisit).2
      _ ≤ absoluteLimit d (last.login visit.token) * second := Nat.mul_le_mul_right _ hexp
  · rintro held hheld rfl
    exact hbounded.stored held hheld
  · rintro held hheld rfl
    exact hbounded.cookies held hheld

/-- An instance whose logins last one hour. -/
def hourly : Deployment where
  sessionMaxHours := 1
  checkpw _ _ := false
  hashpw _ password := password
  verifyCode _ _ _ := false

def lena : AdminUser where
  id := 1
  username := "lena"
  totpSecret := "L"
  totpEnabled := true
  role := .admin

/-- Lena signs in after a second and a half and refreshes her session in the last minutes. -/
def lateRefresh : List Arrival :=
  [.login 1 ⟨1500000, 1500900, 0, 1501000, 7⟩,
    .refresh (createAccessToken hourly 1 none 1500000 7)
      ⟨3000700000, 3000700100, 3000700200, 3000700300, by decide, by decide, by decide⟩
      ⟨3000700400, 3000700500, 3000700600, 3000700700, 8⟩,
    .request (createAccessToken hourly 1 (some 1) 3000700400 8)
      ⟨3600600000, 3600600100, 3600600200, 3600600300, by decide, by decide, by decide⟩]

theorem sessions_end_with_the_login_of_lena :
    ∃ last, Machine.run (Logins.step hourly) (Logins.start [lena]) lateRefresh = some last ∧
      last.accepted.length = 2 ∧ last.cookies.length = 2 ∧ ∀ token ∈ last.issued,
        token.exp ≤ absoluteLimit hourly (last.login token) ∧
        (∀ visit ∈ last.accepted, visit.token = token →
          visit.readings.began < absoluteLimit hourly (last.login token) * second) ∧
        (∀ held ∈ last.stored, held.token = token →
          held.ends ≤ token.exp * second ∨ held.ends ≤ held.set + second) ∧
        ∀ held ∈ last.cookies, held.token = token →
          held.ends ≤ token.exp * second ∨ held.ends ≤ held.set + second := by
  have hrun := (Option.some_get (show (Machine.run (Logins.step hourly) (Logins.start [lena])
    lateRefresh).isSome = true by decide +kernel)).symm
  exact ⟨_, hrun, by decide +kernel, by decide +kernel,
    fun token hissued ↦ sessions_end_with_the_login hourly hrun hissued⟩

end OpenWhistle.Accounts
