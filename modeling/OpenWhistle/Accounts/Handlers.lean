import OpenWhistle.Accounts.Contract

/-!
# Every account request keeps the contract

One lemma for each function of the handlers, in the order of the source. A request that is refused,
or that only reads and changes rows, never makes a token. A sign-in makes one in `startSession`, a
refresh one in `sessionRefresh`.
-/

set_option autoImplicit false
set_option relaxedAutoImplicit false

namespace OpenWhistle.Accounts

open Interleaving

variable {d : Deployment} {spared : Token → Prop} {w : ℕ} {request : Request} {s : Server}

/-- The request may be answered. -/
abbrev Answers (w : ℕ) : Except Fault Answer → Server → Prop :=
  Returns fun _ t ↦ t.sessions.Finished w

/-! ### Steps that leave the sessions alone -/

/-- Sequencing after an operation that leaves the sessions alone. -/
theorem safe_after {γ : Type} {operation : Op} {rest : Reply operation → Handler γ}
    {post : γ → Server → Prop} (hquiet : operation.isQuiet = true)
    (hserves : s.sessions.Serves w request)
    (hrest : ∀ value t, t.sessions.Serves w request →
      Safe (lineage d spared) w (Returns post) (rest value) t) :
    Safe (lineage d spared) w (Returns post) (call operation >>= rest) s :=
  safe_then (safe_quiet hquiet) fun value t hgrows _ ↦ hrest value t (hserves.grows hgrows)

/-- A request that has made no token may be answered at any time. -/
theorem safe_answer (hrequest : request.isLogout = false)
    (hserves : s.sessions.Serves w request) (answer : Answer) :
    Safe (lineage d spared) w (Answers w) (.ret answer) s :=
  Safe.ret (hserves.finished hrequest)

theorem safe_consumeTotp (user : UserId) (secret code : String) : Safe (lineage d spared) w
    (Quietly w s fun _ _ ↦ True) (consumeTotp d user secret code) s := by
  refine safe_then (safe_quiet rfl) fun now t hgrows _ ↦ ?_
  show Safe _ _ _ (if _ then _ else _) t
  split_ifs
  · exact safe_since hgrows (safe_quiet rfl)
  · exact Safe.ret ⟨hgrows, trivial⟩

/-! ### Who is signed in -/

theorem safe_getSignedInAdmin {token : Token} (hserves : s.sessions.Serves w request)
    (hcookie : request.cookie = some token) : Safe (lineage d spared) w
    (Quietly w s fun found t ↦ ∀ user, found = some user →
      user.id = token.sub ∧ t.sessions.Admitted w request token)
    (getSignedInAdmin d (some token)) s := by
  refine safe_then (safe_validateSession hserves hcookie) fun active t hgrows hadmitted ↦ ?_
  show Safe _ _ _ (if _ then _ else _) t
  split_ifs with hactive
  · exact Safe.ret ⟨hgrows, fun user huser ↦ nomatch huser⟩
  have hadmitted' := hadmitted (Bool.not_eq_false active ▸ hactive)
  refine safe_then (safe_quiet rfl) fun now u hgrows' _ ↦ ?_
  have hsu := hgrows.trans hgrows'
  show Safe _ _ _ (if _ then _ else _) u
  split_ifs with hcurrent
  · exact Safe.ret ⟨hsu, fun user huser ↦ nomatch huser⟩
  refine safe_then (safe_getUserById token.sub) fun found v hgrows'' hid ↦ ?_
  have hsv := hsu.trans hgrows''
  cases found with
  | none => exact Safe.ret ⟨hsv, fun user huser ↦ nomatch huser⟩
  | some user =>
    refine Safe.ret ⟨hsv, fun other hother ↦ ?_⟩
    have hsame : user = other := by
      split_ifs at hother
      exact Option.some.inj hother
    subst hsame
    exact ⟨hid user rfl, hadmitted'.grows (hserves.grows hgrows).received (hgrows'.trans hgrows'')⟩

/-- A route behind the session check runs for the user of the cookie, whose session was alive at
some moment of the request. -/
theorem safe_signedIn {route : AdminUser → Handler Answer}
    (hrequest : request.isLogout = false) (hserves : s.sessions.Serves w request)
    (hroute : ∀ user t, t.sessions.Serves w request →
      (∀ token, request.cookie = some token →
        user.id = token.sub ∧ t.sessions.Admitted w request token) →
      Safe (lineage d spared) w (Answers w) (route user) t) :
    Safe (lineage d spared) w (Answers w) (signedIn d request.cookie route) s := by
  unfold signedIn
  cases hcookie : request.cookie with
  | none => exact safe_answer hrequest hserves _
  | some token =>
    refine safe_then (safe_getSignedInAdmin hserves hcookie) fun found t hgrows hfound ↦ ?_
    have ht := hserves.grows hgrows
    cases found with
    | none => exact safe_answer hrequest ht _
    | some user =>
      refine hroute user t ht fun other hother ↦ ?_
      rw [hcookie, Option.some.injEq] at hother
      exact hother ▸ hfound user rfl

theorem safe_requireRole {roles : List AdminRole} {route : AdminUser → Handler Answer}
    (hrequest : request.isLogout = false) (hserves : s.sessions.Serves w request)
    (hroute : ∀ user t, t.sessions.Serves w request →
      Safe (lineage d spared) w (Answers w) (route user) t) :
    Safe (lineage d spared) w (Answers w) (requireRole d request.cookie roles route)
      s := by
  refine safe_signedIn hrequest hserves fun user t ht _ ↦ ?_
  split_ifs
  · exact safe_answer hrequest ht _
  · exact hroute user t ht
  · exact safe_answer hrequest ht _

/-! ### Logout and refresh -/

theorem safe_sessionTtl {cookie : Option Token}
    (hserves : s.sessions.Serves w (.sessionTtl cookie)) :
    Safe (lineage d spared) w (Answers w) (sessionTtl d cookie) s := by
  cases cookie with
  | none => exact safe_answer rfl hserves _
  | some token =>
    refine safe_signedIn rfl hserves fun user t ht _ ↦ ?_
    exact safe_after rfl ht fun now u hu ↦ safe_answer rfl hu _

theorem safe_logout {cookie : Option Token} (hserves : s.sessions.Serves w (.logout cookie)) :
    Safe (lineage d spared) w (Answers w) (logout cookie) s := by
  cases cookie with
  | none => exact safe_answer rfl hserves _
  | some token =>
    exact safe_then (safe_revokeSession_logout hserves) fun _ t _ hfinished ↦ Safe.ret hfinished

/-- A refresh hands the successor out, or ends it. -/
theorem safe_replaceSession {old new : Token} (hkeeps : s.sessions.Keeps w new (some old))
    (hreceived : s.sessions.received w = some (.sessionRefresh (some old))) :
    Safe (lineage d spared) w (Answers w) (replaceSession old new) s := by
  have hfinished : ∀ {t : Server}, s.sessions.Grows w t.sessions → t.sessions.Settled w →
      t.sessions.Finished w := by
    intro t hgrows hsettled
    refine ⟨hsettled, fun token hlogout ↦ ?_⟩
    rw [hgrows.received, hreceived] at hlogout
    cases hlogout
  refine safe_then (safe_revokeSession_old hkeeps hreceived) fun existed t hst hchosen ↦ ?_
  have hkeeps_t := hkeeps.grows hst
  cases existed with
  | true =>
    refine safe_then (safe_quiet rfl) fun now u htu _ ↦ ?_
    have hchosen_u := (hchosen rfl).grows hkeeps_t htu
    refine safe_then (safe_setCookie (hkeeps_t.grows htu) hchosen_u) fun _ v huv hsettled ↦ ?_
    exact Safe.ret (hfinished ((hst.trans htu).trans huv) hsettled)
  | false =>
    refine safe_then (safe_revokeSession_new (hst.received.trans hreceived)) fun _ u htu hdead ↦ ?_
    exact Safe.ret (hfinished (hst.trans htu) ((hkeeps_t.grows htu).settled_of_dead hdead))

theorem safe_sessionRefresh {cookie : Option Token}
    (hserves : s.sessions.Serves w (.sessionRefresh cookie)) :
    Safe (lineage d spared) w (Answers w) (sessionRefresh d cookie) s := by
  cases cookie with
  | none => exact safe_answer rfl hserves _
  | some token =>
    refine safe_signedIn rfl hserves fun user t ht hadmitted ↦ ?_
    obtain ⟨hid, hadmitted⟩ := hadmitted token rfl
    split_ifs
    · exact safe_answer rfl ht _
    rw [hid]
    refine Safe.andThen (safe_createAccessToken_successor ht hadmitted) ?_
    rintro new u ⟨hdrew, hsub, hreceived, hadmitted⟩
    rw [← hsub]
    refine Safe.andThen (safe_storeSession_successor hdrew hreceived hadmitted) ?_
    rintro - v ⟨hkeeps, hreceived⟩
    exact safe_replaceSession hkeeps hreceived

/-! ### Signing in -/

/-- The last steps of a sign-in: its token is stored and handed out. -/
theorem safe_startSession (user : AdminUser) (hrequest : request.isLogout = false)
    (hserves : s.sessions.Serves w request) :
    Safe (lineage d spared) w (Answers w) (startSession user) s := by
  unfold startSession
  by_cases hinactive : user.isActive = false
  · rw [if_pos hinactive]
    exact safe_answer hrequest hserves _
  rw [if_neg hinactive]
  refine Safe.andThen (safe_createAccessToken user.id hserves) ?_
  rintro token t ⟨hdrew, hsub, hreceived⟩
  rw [← hsub]
  refine Safe.andThen (safe_storeSession hdrew hreceived) ?_
  rintro - u ⟨hkeeps, hchosen, hreceived⟩
  refine safe_then (safe_quiet rfl) fun now v huv _ ↦ ?_
  refine safe_then (safe_quiet rfl) fun _ x hvx _ ↦ ?_
  have hux := huv.trans hvx
  refine safe_then (safe_setCookie (hkeeps.grows hux) (hchosen.grows hkeeps hux))
    fun _ y hxy hsettled ↦ ?_
  refine Safe.ret ⟨hsettled, fun token hlogout ↦ ?_⟩
  rw [(hux.trans hxy).received, hreceived, Option.some.injEq] at hlogout
  rw [hlogout] at hrequest
  cases hrequest

theorem safe_secondFactor (user : AdminUser) (hrequest : request.isLogout = false)
    (hserves : s.sessions.Serves w request) :
    Safe (lineage d spared) w (Answers w) (secondFactor user) s := by
  unfold secondFactor
  split_ifs
  · exact safe_answer hrequest hserves _
  · refine safe_after rfl hserves fun setupToken t ht ↦ ?_
    exact safe_after rfl ht fun _ u hu ↦ safe_answer hrequest hu _
  · refine safe_after rfl hserves fun tempToken t ht ↦ ?_
    exact safe_after rfl ht fun _ u hu ↦ safe_answer hrequest hu _

theorem safe_passwordFailed (hrequest : request.isLogout = false)
    (hserves : s.sessions.Serves w request) :
    Safe (lineage d spared) w (Answers w) passwordFailed s :=
  safe_after rfl hserves fun _ _ ht ↦ safe_answer hrequest ht _

theorem safe_firstFactorPassed (user : AdminUser) (hrequest : request.isLogout = false)
    (hserves : s.sessions.Serves w request) :
    Safe (lineage d spared) w (Answers w) (firstFactorPassed user) s :=
  safe_after rfl hserves fun _ _ ht ↦ safe_secondFactor user hrequest ht

theorem safe_ldapLogin (ldapUsername : String) (hrequest : request.isLogout = false)
    (hserves : s.sessions.Serves w request) :
    Safe (lineage d spared) w (Answers w) (ldapLogin ldapUsername) s := by
  refine safe_after rfl hserves fun found t ht ↦ ?_
  cases found with
  | some user => exact safe_firstFactorPassed user hrequest ht
  | none =>
    refine safe_after rfl ht fun taken u hu ↦ ?_
    show Safe _ _ _ (if _ then _ else _) u
    split_ifs
    · exact safe_passwordFailed hrequest hu
    · exact safe_after rfl hu fun user _ hv ↦ safe_firstFactorPassed user hrequest hv

theorem safe_localLogin (username password : String) (hrequest : request.isLogout = false)
    (hserves : s.sessions.Serves w request) :
    Safe (lineage d spared) w (Answers w) (localLogin d username password) s := by
  refine safe_after rfl hserves fun found t ht ↦ ?_
  cases found with
  | none => exact safe_passwordFailed hrequest ht
  | some user =>
    show Safe _ _ _ (if _ then _ else _) t
    split_ifs
    · exact safe_firstFactorPassed user hrequest ht
    · exact safe_passwordFailed hrequest ht

theorem safe_loginPost (username password : String) (hrequest : request.isLogout = false)
    (hserves : s.sessions.Serves w request) :
    Safe (lineage d spared) w (Answers w) (loginPost d username password) s := by
  unfold loginPost
  split_ifs
  · exact safe_answer hrequest hserves _
  all_goals
    refine safe_after rfl hserves fun claimed t ht ↦ ?_
    show Safe _ _ _ (if _ then _ else _) t
    split_ifs
  · exact safe_answer hrequest ht _
  · refine safe_after rfl ht fun ldapInfo u hu ↦ ?_
    cases ldapInfo with
    | some ldapUsername => exact safe_ldapLogin ldapUsername hrequest hu
    | none => exact safe_localLogin username password hrequest hu
  · exact safe_answer hrequest ht _
  · exact safe_localLogin username password hrequest ht

theorem safe_codeIsValid (user : AdminUser) (code : String) : Safe (lineage d spared) w
    (Quietly w s fun _ _ ↦ True) (codeIsValid d user code) s := by
  unfold codeIsValid
  split_ifs
  · exact Safe.ret ⟨Sessions.Grows.refl w s.sessions, trivial⟩
  · exact safe_consumeTotp user.id user.totpSecret code

theorem safe_loginMfaPost (tempToken : TempToken) (totpCode : String)
    (hrequest : request.isLogout = false) (hserves : s.sessions.Serves w request) :
    Safe (lineage d spared) w (Answers w) (loginMfaPost d tempToken totpCode) s := by
  refine safe_after rfl hserves fun waiting t ht ↦ ?_
  cases waiting with
  | none => exact safe_answer hrequest ht _
  | some userId =>
    refine safe_after rfl ht fun found u hu ↦ ?_
    cases found with
    | none => exact safe_answer hrequest hu _
    | some user =>
      refine safe_after rfl hu fun claimed v hv ↦ ?_
      show Safe _ _ _ (if _ then _ else _) v
      split_ifs
      · exact safe_answer hrequest hv _
      refine safe_then (safe_codeIsValid user totpCode) fun valid x hgrows _ ↦ ?_
      have hx := hv.grows hgrows
      cases valid with
      | true => exact safe_after rfl hx fun _ y hy ↦ safe_startSession user hrequest hy
      | false =>
        refine safe_after rfl hx fun newTemp y hy ↦ ?_
        exact safe_after rfl hy fun _ z hz ↦ safe_answer hrequest hz _

theorem safe_mfaSetupPost (tempToken : TempToken) (totpCode : String)
    (hrequest : request.isLogout = false) (hserves : s.sessions.Serves w request) :
    Safe (lineage d spared) w (Answers w) (mfaSetupPost d tempToken totpCode) s := by
  refine safe_after rfl hserves fun waiting t ht ↦ ?_
  cases waiting with
  | none => exact safe_answer hrequest ht _
  | some userId =>
    refine safe_after rfl ht fun found u hu ↦ ?_
    cases found with
    | none => exact safe_answer hrequest hu _
    | some user =>
      show Safe _ _ _ (if _ then _ else _) u
      split_ifs
      · exact safe_answer hrequest hu _
      refine safe_then (safe_consumeTotp user.id user.totpSecret totpCode) fun valid v hgrows _ ↦ ?_
      have hv := hu.grows hgrows
      cases valid with
      | true => exact safe_after rfl hv fun _ x hx ↦ safe_startSession _ hrequest hx
      | false =>
        refine safe_after rfl hv fun newSetupToken x hx ↦ ?_
        exact safe_after rfl hx fun _ y hy ↦ safe_answer hrequest hy _

/-! ### Changing an account -/

theorem safe_changePassword {cookie : Option Token} (user : AdminUser) (newPassword : String)
    (hrequest : request.isLogout = false) (hserves : s.sessions.Serves w request)
    (hcookie : cookie = request.cookie) :
    Safe (lineage d spared) w (Answers w) (changePassword cookie user newPassword) s := by
  refine safe_after rfl hserves fun hash t ht ↦ ?_
  refine safe_after rfl ht fun _ u hu ↦ ?_
  refine safe_after rfl hu fun _ v hv ↦ ?_
  refine safe_then (safe_revokeUserSessions user.id hv (.inr hcookie)) fun _ x hgrows _ ↦ ?_
  exact safe_answer hrequest (hv.grows hgrows) _

theorem safe_accountPassword {cookie : Option Token} {current new confirm code : String}
    (hserves : s.sessions.Serves w (.accountPassword cookie current new confirm code)) :
    Safe (lineage d spared) w (Answers w)
      (accountPassword d cookie current new confirm code) s := by
  refine safe_signedIn rfl hserves fun user t ht _ ↦ ?_
  cases user.passwordHash with
  | none => exact safe_answer rfl ht _
  | some hash =>
    show Safe _ _ _ (if _ then _ else _) t
    by_cases hdemo : demoAccount d user = true
    · rw [if_pos hdemo]
      exact safe_answer rfl ht _
    rw [if_neg hdemo]
    cases newPasswordError current new confirm with
    | some error => exact safe_answer rfl ht _
    | none =>
      refine safe_after rfl ht fun claimed u hu ↦ ?_
      show Safe _ _ _ (if _ then _ else _) u
      split_ifs
      · exact safe_answer rfl hu _
      · exact safe_answer rfl hu _
      refine safe_then (safe_consumeTotp user.id user.totpSecret code) fun valid v hgrows _ ↦ ?_
      have hv := hu.grows hgrows
      cases valid with
      | true => exact safe_changePassword user new rfl hv rfl
      | false => exact safe_answer rfl hv _

theorem safe_newTemporaryPassword (caller target : AdminUser) : Safe (lineage d spared) w
    (Quietly w s fun _ _ ↦ True) (newTemporaryPassword caller target) s := by
  unfold newTemporaryPassword
  cases target.passwordHash with
  | none => exact Safe.ret ⟨Sessions.Grows.refl w s.sessions, trivial⟩
  | some hash =>
    refine safe_then (safe_quiet rfl) fun password t hst _ ↦ ?_
    refine safe_then (safe_quiet rfl) fun hash u htu _ ↦ ?_
    exact Safe.ret ⟨hst.trans htu, trivial⟩

theorem safe_resetUserTotp {cookie : Option Token} {userId : UserId}
    (hserves : s.sessions.Serves w (.resetTotp cookie userId)) :
    Safe (lineage d spared) w (Answers w) (resetUserTotp d cookie userId) s := by
  refine safe_requireRole rfl hserves fun caller t ht ↦ ?_
  refine safe_after rfl ht fun found u hu ↦ ?_
  cases found with
  | none => exact safe_answer rfl hu _
  | some target =>
    show Safe _ _ _ (if _ then _ else _) u
    split_ifs
    · exact safe_answer rfl hu _
    · exact safe_answer rfl hu _
    · exact safe_answer rfl hu _
    refine safe_after rfl hu fun secret v hv ↦ ?_
    refine safe_then (safe_newTemporaryPassword caller _) fun changed x hgrows _ ↦ ?_
    refine safe_after rfl (hv.grows hgrows) fun _ y hy ↦ ?_
    refine safe_then (safe_revokeUserSessions target.id hy (.inl rfl)) fun _ z hgrows' _ ↦ ?_
    exact safe_answer rfl (hy.grows hgrows') _

theorem safe_endAccount (target : AdminUser) (hrequest : request.isLogout = false)
    (hserves : s.sessions.Serves w request) :
    Safe (lineage d spared) w (Answers w) (endAccount target) s := by
  refine safe_after rfl hserves fun _ t ht ↦ ?_
  refine safe_then (safe_revokeUserSessions target.id ht (.inl rfl)) fun _ u hgrows _ ↦ ?_
  exact safe_answer hrequest (ht.grows hgrows) _

theorem safe_deactivateUser {cookie : Option Token} {userId : UserId}
    (hserves : s.sessions.Serves w (.deactivate cookie userId)) :
    Safe (lineage d spared) w (Answers w) (deactivateUser d cookie userId) s := by
  refine safe_requireRole rfl hserves fun caller t ht ↦ ?_
  refine safe_after rfl ht fun found u hu ↦ ?_
  cases found with
  | none => exact safe_answer rfl hu _
  | some target =>
    show Safe _ _ _ (if _ then _ else _) u
    by_cases hown : target.id = caller.id
    · rw [if_pos hown]
      exact safe_answer rfl hu _
    rw [if_neg hown]
    cases mayNotManage d caller target with
    | some status => exact safe_answer rfl hu _
    | none =>
      show Safe _ _ _ (if _ then _ else _) u
      split_ifs
      · refine safe_after rfl hu fun count v hv ↦ ?_
        show Safe _ _ _ (if _ then _ else _) v
        split_ifs
        · exact safe_answer rfl hv _
        · exact safe_endAccount target rfl hv
      · exact safe_endAccount target rfl hu

theorem safe_reactivateUser {cookie : Option Token} {userId : UserId}
    (hserves : s.sessions.Serves w (.reactivate cookie userId)) :
    Safe (lineage d spared) w (Answers w) (reactivateUser d cookie userId) s := by
  refine safe_requireRole rfl hserves fun caller t ht ↦ ?_
  refine safe_after rfl ht fun found u hu ↦ ?_
  cases found with
  | none => exact safe_answer rfl hu _
  | some target =>
    dsimp only
    cases mayNotManage d caller target with
    | some status => exact safe_answer rfl hu _
    | none => exact safe_after rfl hu fun _ v hv ↦ safe_answer rfl hv _

theorem safe_assignRole (target : AdminUser) (role : AdminRole) (hrequest : request.isLogout = false)
    (hserves : s.sessions.Serves w request) :
    Safe (lineage d spared) w (Answers w) (assignRole target role) s :=
  safe_after rfl hserves fun _ _ ht ↦ safe_answer hrequest ht _

theorem safe_changeUserRole {cookie : Option Token} {userId : UserId} {role : String}
    (hserves : s.sessions.Serves w (.changeRole cookie userId role)) :
    Safe (lineage d spared) w (Answers w) (changeUserRole d cookie userId role) s := by
  refine safe_requireRole rfl hserves fun caller t ht ↦ ?_
  refine safe_after rfl ht fun found u hu ↦ ?_
  cases found with
  | none => exact safe_answer rfl hu _
  | some target =>
    dsimp only
    cases mayNotManage d caller target with
    | some status => exact safe_answer rfl hu _
    | none =>
      dsimp only
      cases adminRole role with
      | none => exact safe_answer rfl hu _
      | some role =>
        show Safe _ _ _ (if _ then _ else _) u
        split_ifs
        · exact safe_answer rfl hu _
        · exact safe_answer rfl hu _
        · refine safe_after rfl hu fun count v hv ↦ ?_
          show Safe _ _ _ (if _ then _ else _) v
          split_ifs
          · exact safe_answer rfl hv _
          · exact safe_assignRole target role rfl hv
        · exact safe_assignRole target role rfl hu

/-! ### All requests -/

theorem safe_answerTo (hserves : s.sessions.Serves w request) :
    Safe (lineage d spared) w (Answers w) (answerTo d request) s := by
  cases request with
  | login username password => exact safe_loginPost username password rfl hserves
  | loginMfa tempToken totpCode => exact safe_loginMfaPost tempToken totpCode rfl hserves
  | mfaSetup tempToken totpCode => exact safe_mfaSetupPost tempToken totpCode rfl hserves
  | logout cookie => exact safe_logout hserves
  | sessionTtl cookie => exact safe_sessionTtl hserves
  | sessionRefresh cookie => exact safe_sessionRefresh hserves
  | accountPassword cookie current new confirm code => exact safe_accountPassword hserves
  | resetTotp cookie target => exact safe_resetUserTotp hserves
  | deactivate cookie target => exact safe_deactivateUser hserves
  | reactivate cookie target => exact safe_reactivateUser hserves
  | changeRole cookie target role => exact safe_changeUserRole hserves

/-- A request that arrives is served. -/
theorem safe_receive (hidle : (lineage d spared).idle w s) : Safe (lineage d spared) w
    (Returns fun _ t ↦ t.sessions.Serves w request) (call (.receive request)) s := by
  refine safe_op fun t hgrows ht _ draw reply u hperform ↦ ?_
  obtain ⟨sessions, hreceive, hresult⟩ := Option.map_eq_some_iff.mp hperform
  cases hresult
  have hnone : t.sessions.received w = none := hgrows.received.trans hidle.1
  refine ⟨Sessions.orderly_receive ht hnone hreceive, fun v hv ↦ Sessions.grows_receive hv hreceive,
    fun _ _ ↦ ?_⟩
  obtain ⟨-, rfl⟩ := Sessions.receive_cases hreceive
  refine ⟨Function.update_self .., fun token htoken ↦ ?_, fun token hown ↦ ?_⟩
  · exact List.mem_append_left _ (Option.mem_toList.mpr htoken)
  · exact hidle.2 token ((hgrows.own token).mp hown)

theorem handles (d : Deployment) (spared : Token → Prop) : (lineage d spared).Handles (handler d) := by
  intro w request s _ _ hidle
  exact Safe.andThen (safe_receive hidle) fun _ _ hserves ↦ safe_answerTo hserves

theorem orderly_start (start : Start) : start.sessions.Orderly spared where
  sub token user h := by
    simp only [Start.sessions] at h
    split_ifs at h
    exact (Option.some.inj h).symm
  live token h := by
    simp only [Start.sessions] at h
    split_ifs at h with hmem
    · exact hmem
    · exact absurd rfl h
  stored _ h := h
  handed _ h := h
  presented _ h := nomatch h
  owned _ _ h := nomatch h
  parent _ _ h := nomatch h
  chosen _ _ _ h := nomatch h
  ended _ _ h := nomatch h
  before _ h := nomatch h
  kept _ h := nomatch h
  condemned _ h := nomatch h
  spared _ _ _ h := nomatch h

theorem holds_start (start : Start) : (lineage d spared).Holds start.system :=
  Contract.holds_of_idle (orderly_start start) (fun _ ↦ ⟨rfl, fun _ h ↦ nomatch h⟩) fun _ ↦ rfl

/-- In every run in which the refreshes that come to delete a spared session find it gone, the
contract holds in the end. -/
theorem holds_of_run {start : Start} {events : List Step} {last : Requests}
    (hgone : Meets (semantics d) (handler d) (fun s event ↦ ∀ w operation,
      s.acting event = some (w, operation) → FindsGone spared w operation s.shared)
      start.system events)
    (hrun : run (semantics d) (handler d) start.system events = some last) :
    (lineage d spared).Holds last := by
  refine Contract.run_safe (handles d spared) (holds_start start) (meets_imp ?_ hgone) hrun
  intro s event h
  exact Contract.permits_of_acting (fun _ ↦ trivial) (fun _ _ _ ↦ trivial) (fun _ _ ↦ trivial) h

/-- Without a spared session there is no condition. -/
theorem holds_of_any_run {start : Start} {events : List Step} {last : Requests}
    (hrun : run (semantics d) (handler d) start.system events = some last) :
    (lineage d fun _ ↦ False).Holds last := by
  refine holds_of_run (meets_of_forall (fun event _ s w operation _ ↦ ?_) start.system) hrun
  exact fun _ h ↦ h.elim

end OpenWhistle.Accounts
