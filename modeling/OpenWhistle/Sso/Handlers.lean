import OpenWhistle.Sso.Contract
import Mathlib.Tactic.SplitIfs

/-!
# Every request keeps the contract of the flows

The account requests first: none of their commits writes an identity column, which is a walk through
their programs. Then the functions of the sign-on, in the order of the source. What a callback has
redeemed determines who started the flow, by the binding it showed.
-/

set_option autoImplicit false
set_option relaxedAutoImplicit false

namespace OpenWhistle.Accounts

open Interleaving Program

/-- A commit leaves the identity columns as it loaded them. -/
def Op.KeepsIdentity : Op → Prop
  | .commit loaded changed _ =>
    changed.oidcSub = loaded.oidcSub ∧ changed.oidcIssuer = loaded.oidcIssuer
  | _ => True

/-- No commit of the program writes an identity column. -/
abbrev KeepsIdentities {α : Type} (program : Handler α) : Prop :=
  program.Within Op.KeepsIdentity

variable {d : Deployment}

theorem keepsIdentities_getSignedInAdmin (cookie : Option Token) :
    KeepsIdentities (getSignedInAdmin d cookie) := by
  cases cookie with
  | none => trivial
  | some token =>
    refine .bind (within_call trivial) fun active ↦ ?_
    split_ifs
    · trivial
    · refine .bind (within_call trivial) fun now ↦ ?_
      split_ifs
      · trivial
      · refine .bind (within_call trivial) fun found ↦ ?_
        cases found with
        | none => trivial
        | some user => trivial

theorem keepsIdentities_signedIn {cookie : Option Token} {route : AdminUser → Handler Answer}
    (hroute : ∀ user, KeepsIdentities (route user)) : KeepsIdentities (signedIn d cookie route) := by
  refine .bind (keepsIdentities_getSignedInAdmin cookie) fun found ↦ ?_
  cases found with
  | none => trivial
  | some user => exact hroute user

theorem keepsIdentities_requireRole {cookie : Option Token} {roles : List AdminRole}
    {route : AdminUser → Handler Answer} (hroute : ∀ user, KeepsIdentities (route user)) :
    KeepsIdentities (requireRole d cookie roles route) := by
  refine keepsIdentities_signedIn fun user ↦ ?_
  split_ifs
  · trivial
  · exact hroute user
  · trivial

theorem keepsIdentities_sessionTtl (cookie : Option Token) :
    KeepsIdentities (sessionTtl d cookie) := by
  cases cookie with
  | none => trivial
  | some token =>
    exact keepsIdentities_signedIn fun user ↦ .bind (within_call trivial) fun now ↦ trivial

theorem keepsIdentities_logout (cookie : Option Token) : KeepsIdentities (logout cookie) := by
  cases cookie with
  | none => trivial
  | some token => exact .bind (within_call trivial) fun existed ↦ trivial

theorem keepsIdentities_sessionRefresh (cookie : Option Token) :
    KeepsIdentities (sessionRefresh d cookie) := by
  cases cookie with
  | none => trivial
  | some token =>
    refine keepsIdentities_signedIn fun user ↦ ?_
    split_ifs
    · trivial
    · refine .bind (within_call trivial) fun new ↦ .bind (within_call trivial) fun _ ↦
        .bind (within_call trivial) fun existed ↦ ?_
      split_ifs
      · exact .bind (within_call trivial) fun now ↦ .bind (within_call trivial) fun _ ↦ trivial
      · exact .bind (within_call trivial) fun _ ↦ trivial

theorem keepsIdentities_consumeTotp (user : UserId) (secret code : String) :
    KeepsIdentities (consumeTotp d user secret code) := by
  refine .bind (within_call trivial) fun now ↦ ?_
  split_ifs
  · exact within_call trivial
  · trivial

theorem keepsIdentities_secondFactor (user : AdminUser) : KeepsIdentities (secondFactor user) := by
  unfold secondFactor
  split_ifs
  · trivial
  · exact .bind (within_call trivial) fun token ↦ .bind (within_call trivial) fun _ ↦ trivial
  · exact .bind (within_call trivial) fun token ↦ .bind (within_call trivial) fun _ ↦ trivial

theorem keepsIdentities_startSession (user : AdminUser) : KeepsIdentities (startSession user) := by
  unfold startSession
  by_cases hactive : user.isActive = false
  · rw [if_pos hactive]
    trivial
  · rw [if_neg hactive]
    exact .bind (within_call trivial) fun token ↦ .bind (within_call trivial) fun _ ↦
      .bind (within_call trivial) fun now ↦ .bind (within_call ⟨rfl, rfl⟩) fun _ ↦
        .bind (within_call trivial) fun _ ↦ trivial

theorem keepsIdentities_passwordFailed : KeepsIdentities passwordFailed :=
  .bind (within_call trivial) fun _ ↦ trivial

theorem keepsIdentities_firstFactorPassed (user : AdminUser) :
    KeepsIdentities (firstFactorPassed user) :=
  .bind (within_call trivial) fun _ ↦ keepsIdentities_secondFactor user

theorem keepsIdentities_ldapLogin (ldapUsername : String) :
    KeepsIdentities (ldapLogin ldapUsername) := by
  refine .bind (within_call trivial) fun found ↦ ?_
  cases found with
  | some user => exact keepsIdentities_firstFactorPassed user
  | none =>
    refine .bind (within_call trivial) fun taken ↦ ?_
    split_ifs
    · exact keepsIdentities_passwordFailed
    · exact .bind (within_call trivial) fun user ↦ keepsIdentities_firstFactorPassed user

theorem keepsIdentities_localLogin (username password : String) :
    KeepsIdentities (localLogin d username password) := by
  refine .bind (within_call trivial) fun found ↦ ?_
  cases found with
  | none => exact keepsIdentities_passwordFailed
  | some user =>
    show Within _ (if _ then _ else _)
    split_ifs
    · exact keepsIdentities_firstFactorPassed user
    · exact keepsIdentities_passwordFailed

theorem keepsIdentities_loginPost (username password : String) :
    KeepsIdentities (loginPost d username password) := by
  unfold loginPost
  split_ifs with hempty hldap
  · trivial
  · refine .bind (within_call trivial) fun claimed ↦ ?_
    split_ifs
    · trivial
    · refine .bind (within_call trivial) fun ldapInfo ↦ ?_
      cases ldapInfo with
      | some ldapUsername => exact keepsIdentities_ldapLogin ldapUsername
      | none => exact keepsIdentities_localLogin username password
  · refine .bind (within_call trivial) fun claimed ↦ ?_
    split_ifs
    · trivial
    · exact keepsIdentities_localLogin username password

theorem keepsIdentities_codeIsValid (user : AdminUser) (code : String) :
    KeepsIdentities (codeIsValid d user code) := by
  unfold codeIsValid
  split_ifs
  · trivial
  · exact keepsIdentities_consumeTotp user.id user.totpSecret code

theorem keepsIdentities_loginMfaPost (tempToken : TempToken) (totpCode : String) :
    KeepsIdentities (loginMfaPost d tempToken totpCode) := by
  refine .bind (within_call trivial) fun waiting ↦ ?_
  cases waiting with
  | none => trivial
  | some userId =>
    refine .bind (within_call trivial) fun found ↦ ?_
    cases found with
    | none => trivial
    | some user =>
      refine .bind (within_call trivial) fun claimed ↦ ?_
      split_ifs
      · trivial
      · refine .bind (keepsIdentities_codeIsValid user totpCode) fun valid ↦ ?_
        split_ifs
        · exact .bind (within_call trivial) fun _ ↦ keepsIdentities_startSession user
        · exact .bind (within_call trivial) fun newTemp ↦ .bind (within_call trivial) fun _ ↦
            trivial

theorem keepsIdentities_mfaSetupPost (tempToken : TempToken) (totpCode : String) :
    KeepsIdentities (mfaSetupPost d tempToken totpCode) := by
  refine .bind (within_call trivial) fun waiting ↦ ?_
  cases waiting with
  | none => trivial
  | some userId =>
    refine .bind (within_call trivial) fun found ↦ ?_
    cases found with
    | none => trivial
    | some user =>
      show Within _ (if _ then _ else _)
      split_ifs
      · trivial
      · refine .bind (keepsIdentities_consumeTotp user.id user.totpSecret totpCode) fun valid ↦ ?_
        split_ifs
        · exact .bind (within_call ⟨rfl, rfl⟩) fun _ ↦ keepsIdentities_startSession _
        · exact .bind (within_call trivial) fun newSetupToken ↦
            .bind (within_call trivial) fun _ ↦ trivial

theorem keepsIdentities_accountPassword (cookie : Option Token)
    (currentPassword newPassword confirmPassword totpCode : String) :
    KeepsIdentities
      (accountPassword d cookie currentPassword newPassword confirmPassword totpCode) := by
  refine keepsIdentities_signedIn fun user ↦ ?_
  cases user.passwordHash with
  | none => trivial
  | some hash =>
    show Within _ (if demoAccount d user = true then _ else _)
    by_cases hdemo : demoAccount d user = true
    · rw [if_pos hdemo]
      trivial
    · rw [if_neg hdemo]
      cases newPasswordError currentPassword newPassword confirmPassword with
      | some error => trivial
      | none =>
        refine .bind (within_call trivial) fun claimed ↦ ?_
        split_ifs
        · trivial
        · trivial
        · refine .bind (keepsIdentities_consumeTotp user.id user.totpSecret totpCode)
            fun valid ↦ ?_
          split_ifs
          · exact .bind (within_call trivial) fun hash ↦ .bind (within_call ⟨rfl, rfl⟩) fun _ ↦
              .bind (within_call trivial) fun _ ↦ .bind (within_call trivial) fun _ ↦ trivial
          · trivial

/-- What follows a temporary password goes on with the identity columns of the target. -/
theorem keepsIdentities_newTemporaryPassword {caller target : AdminUser}
    {rest : AdminUser × Option String → Handler Answer}
    (hrest : ∀ changed, changed.1.oidcSub = target.oidcSub →
      changed.1.oidcIssuer = target.oidcIssuer → KeepsIdentities (rest changed)) :
    KeepsIdentities (newTemporaryPassword caller target >>= rest) := by
  unfold newTemporaryPassword
  cases hhash : target.passwordHash with
  | none => exact hrest (target, none) rfl rfl
  | some hash =>
    refine ⟨trivial, fun password ↦ ?_⟩
    cases password with
    | error fault => trivial
    | ok password =>
      refine ⟨trivial, fun newHash ↦ ?_⟩
      cases newHash with
      | error fault => trivial
      | ok newHash => exact hrest (_, some password) rfl rfl

theorem keepsIdentities_resetUserTotp (cookie : Option Token) (target : UserId) :
    KeepsIdentities (resetUserTotp d cookie target) := by
  refine keepsIdentities_requireRole fun caller ↦ .bind (within_call trivial) fun found ↦ ?_
  cases found with
  | none => trivial
  | some user =>
    show Within _ (if _ then _ else _)
    split_ifs
    · trivial
    · trivial
    · trivial
    · refine .bind (within_call trivial) fun secret ↦ ?_
      refine keepsIdentities_newTemporaryPassword fun changed hsub hissuer ↦ ?_
      exact .bind (within_call ⟨hsub, hissuer⟩) fun _ ↦ .bind (within_call trivial) fun _ ↦ trivial

theorem keepsIdentities_endAccount (target : AdminUser) : KeepsIdentities (endAccount target) :=
  .bind (within_call ⟨rfl, rfl⟩) fun _ ↦ .bind (within_call trivial) fun _ ↦ trivial

theorem keepsIdentities_deactivateUser (cookie : Option Token) (target : UserId) :
    KeepsIdentities (deactivateUser d cookie target) := by
  refine keepsIdentities_requireRole fun caller ↦ .bind (within_call trivial) fun found ↦ ?_
  cases found with
  | none => trivial
  | some user =>
    show Within _ (if user.id = caller.id then _ else _)
    by_cases hself : user.id = caller.id
    · rw [if_pos hself]
      trivial
    · rw [if_neg hself]
      cases mayNotManage d caller user with
      | some status => trivial
      | none =>
        show Within _ (if user.role ≠ .caseManager ∧ user.isActive = true then _ else _)
        by_cases hprivileged : user.role ≠ .caseManager ∧ user.isActive = true
        · rw [if_pos hprivileged]
          refine .bind (within_call trivial) fun count ↦ ?_
          split_ifs
          · trivial
          · exact keepsIdentities_endAccount user
        · rw [if_neg hprivileged]
          exact keepsIdentities_endAccount user

theorem keepsIdentities_reactivateUser (cookie : Option Token) (target : UserId) :
    KeepsIdentities (reactivateUser d cookie target) := by
  refine keepsIdentities_requireRole fun caller ↦ .bind (within_call trivial) fun found ↦ ?_
  cases found with
  | none => trivial
  | some user =>
    dsimp only
    cases mayNotManage d caller user with
    | some status => trivial
    | none => exact .bind (within_call ⟨rfl, rfl⟩) fun _ ↦ trivial

theorem keepsIdentities_assignRole (target : AdminUser) (role : AdminRole) :
    KeepsIdentities (assignRole target role) :=
  .bind (within_call ⟨rfl, rfl⟩) fun _ ↦ trivial

theorem keepsIdentities_changeUserRole (cookie : Option Token) (target : UserId) (role : String) :
    KeepsIdentities (changeUserRole d cookie target role) := by
  refine keepsIdentities_requireRole fun caller ↦ .bind (within_call trivial) fun found ↦ ?_
  cases found with
  | none => trivial
  | some user =>
    dsimp only
    cases mayNotManage d caller user with
    | some status => trivial
    | none =>
      dsimp only
      cases adminRole role with
      | none => trivial
      | some role =>
        dsimp only
        split_ifs
        · trivial
        · trivial
        · refine .bind (within_call trivial) fun count ↦ ?_
          split_ifs
          · trivial
          · exact keepsIdentities_assignRole user role
        · exact keepsIdentities_assignRole user role

/-- No account request links or unlinks an identity. -/
theorem keepsIdentities_answerTo (request : Request) : KeepsIdentities (answerTo d request) := by
  cases request with
  | login username password => exact keepsIdentities_loginPost username password
  | loginMfa tempToken totpCode => exact keepsIdentities_loginMfaPost tempToken totpCode
  | mfaSetup tempToken totpCode => exact keepsIdentities_mfaSetupPost tempToken totpCode
  | logout cookie => exact keepsIdentities_logout cookie
  | sessionTtl cookie => exact keepsIdentities_sessionTtl cookie
  | sessionRefresh cookie => exact keepsIdentities_sessionRefresh cookie
  | accountPassword cookie current new confirm totpCode =>
    exact keepsIdentities_accountPassword cookie current new confirm totpCode
  | resetTotp cookie target => exact keepsIdentities_resetUserTotp cookie target
  | deactivate cookie target => exact keepsIdentities_deactivateUser cookie target
  | reactivate cookie target => exact keepsIdentities_reactivateUser cookie target
  | changeRole cookie target role => exact keepsIdentities_changeUserRole cookie target role

end OpenWhistle.Accounts

namespace OpenWhistle.Sso

open Interleaving
open Accounts (AdminUser UserId Token Fault)

variable {d : Deployment} {h t : History} {w : ℕ} {request : Request}

/-- The request may be answered at any time. -/
theorem safe_answer (answer : Answer) :
    Safe (flows d) w (Returns fun _ _ ↦ True) (.ret answer) h :=
  trivial

/-! ### Account requests -/

/-- A request that is no callback may perform any account operation that leaves the columns. -/
theorem permitted_of_keepsIdentity {operation : Accounts.Op} (hserves : Serves h w request)
    (hcallback : ∀ query, request ≠ .callback query) (hkeeps : operation.KeepsIdentity) :
    Permitted d w h (.account operation) := by
  intro t hmoves s
  have hgoes : ∀ account, GoesOn t w account := fun account ↦
    ⟨request, (hserves.moves hmoves).received, fun query hquery ↦ absurd hquery (hcallback query)⟩
  cases operation with
  | commit loaded changed action => exact hkeeps
  | setTotpPending tempToken account => exact hgoes account
  | setTotpSetup tempToken account => exact hgoes account
  | _ => trivial

theorem safe_accountRequest {inner : Accounts.Request} (hserves : Serves h w (.account inner)) :
    Safe (flows d) w (Returns fun _ _ ↦ True) (answerTo d (.account inner)) h := by
  refine safe_then (safe_account ?_) fun answer t _ _ ↦ safe_answer _
  exact (Accounts.keepsIdentities_answerTo inner).imp fun operation hkeeps ↦
    permitted_of_keepsIdentity hserves (fun _ ↦ Request.noConfusion) hkeeps

/-! ### Who is signed in -/

/-- An account operation that every request may perform. -/
def plain : Accounts.Op → Bool
  | .commit _ _ _ => false
  | .setTotpPending _ _ => false
  | .setTotpSetup _ _ => false
  | _ => true

theorem permitted_of_plain {operation : Accounts.Op} (hplain : plain operation = true) :
    Permitted d w h (.account operation) := by
  intro t _ s
  cases operation with
  | commit loaded changed action => cases hplain
  | setTotpPending tempToken account => cases hplain
  | setTotpSetup tempToken account => cases hplain
  | _ => trivial

/-- A read of the row of an account. -/
theorem safe_getUserById (id : UserId) : Safe (flows d) w
    (Quietly d w h fun found t ↦ ∀ user, found = some user → user.id = id ∧ Loaded d t user ∧
      t.Found w (.account (.getUserById id)) fun s ↦ s.accounts.userById id = some user)
    (account (Accounts.call (.getUserById id))) h := by
  rw [account_call]
  have hpermitted : Permitted d w h (.account (.getUserById id)) := permitted_of_plain rfl
  have hop : Safe (flows d) w
      (Returns fun found t ↦ Moves d w h t ∧ ∀ user, found = some user → user.id = id ∧
        Loaded d t user ∧ t.Found w (.account (.getUserById id)) fun s ↦
          s.accounts.userById id = some user)
      (call (.account (.getUserById id))) h := by
    refine safe_op fun t hmoves hsound draw reply now hperform ↦ ?_
    obtain ⟨hsound', hall⟩ :=
      quiet_step (isQuiet_account hpermitted) (hpermitted.moves hmoves) hsound hperform
    cases hperform
    refine ⟨hsound', fun v _ ↦ hall v, fun found hfound ↦ ⟨hmoves.trans (hall w),
      fun user huser ↦ ?_⟩⟩
    cases hfound
    have hid := id_of_userById huser
    refine ⟨hid, ⟨.inl ?_, .inl ?_⟩, Recorded.found_record_self huser⟩
    · show (t.now.accounts.userById user.id).bind _ = _
      rw [hid, huser, Option.bind_some]
    · show (t.now.accounts.userById user.id).bind _ = _
      rw [hid, huser, Option.bind_some]
  exact safe_then hop fun found t hmoves hfound ↦ ⟨hmoves, hfound⟩

/-- The account that a session signs in, and why. -/
theorem safe_getSignedInAdmin (token : Token) : Safe (flows d) w
    (Quietly d w h fun found t ↦ ∀ user, found = some user → user.id = token.sub ∧
      Loaded d t user ∧ (user.mustChangePassword = false → ValidSession d t w token user))
    (account (Accounts.getSignedInAdmin d.accounts (some token))) h := by
  unfold Accounts.getSignedInAdmin
  rw [account_bind]
  refine safe_then (safe_accountOp (permitted_of_plain rfl)) fun active t hht hactive ↦ ?_
  by_cases hstored : active = false
  · rw [if_pos hstored]
    exact ⟨hht, fun user huser ↦ nomatch huser⟩
  rw [if_neg hstored, account_bind]
  have hkey : t.Found w (.account (.existsSession token)) fun s ↦
      s.accounts.sessions.user token ≠ none := by
    obtain ⟨s, draw, accounts, hmem, hperform⟩ := hactive
    cases hperform
    exact ⟨s, _, hmem, fun hnone ↦ hstored (by rw [hnone]; rfl)⟩
  refine safe_then (safe_accountOp (permitted_of_plain rfl)) fun now u htu hnow ↦ ?_
  have hhu := hht.trans htu
  by_cases hcurrent : token.isCurrent d.accounts now = false
  · rw [if_pos hcurrent]
    exact ⟨hhu, fun user huser ↦ nomatch huser⟩
  rw [if_neg hcurrent, account_bind]
  have htime : u.Found w (.account .clock) fun s ↦
      token.isCurrent d.accounts s.accounts.now = true := by
    obtain ⟨s, draw, accounts, hmem, hperform⟩ := hnow
    cases hperform
    exact ⟨s, _, hmem, (Bool.not_eq_false _).mp hcurrent⟩
  refine safe_then (safe_getUserById token.sub) fun found v huv hfound ↦ ?_
  cases found with
  | none => exact ⟨hhu.trans huv, fun user huser ↦ nomatch huser⟩
  | some row =>
    refine ⟨hhu.trans huv, fun user huser ↦ ?_⟩
    obtain ⟨hid, hloaded, hrow⟩ := hfound row rfl
    by_cases husable : (row.isActive && row.totpEnabled) = true
    · rw [if_pos husable, Option.some.injEq] at huser
      subst huser
      obtain ⟨hactive', henrolled⟩ := Bool.and_eq_true_iff.mp husable
      exact ⟨hid, hloaded, fun hsettled ↦ ⟨(hkey.later htu.past).later huv.past,
        htime.later huv.past, hrow, hactive', henrolled, hsettled⟩⟩
    · rw [if_neg husable] at huser
      cases huser

/-- A route runs for the account of a session that was valid while the request ran. -/
theorem safe_currentAdmin {token : Token} {refusal : Answer} {route : AdminUser → Handler Answer}
    (hserves : Serves h w request)
    (hroute : ∀ user t, Serves t w request → user.id = token.sub → Loaded d t user →
      ValidSession d t w token user → Safe (flows d) w (Returns fun _ _ ↦ True) (route user) t) :
    Safe (flows d) w (Returns fun _ _ ↦ True) (currentAdmin d (some token) refusal route) h := by
  refine safe_then (safe_getSignedInAdmin token) fun found t hmoves hfound ↦ ?_
  cases found with
  | none => exact safe_answer refusal
  | some user =>
    obtain ⟨hid, hloaded, hvalid⟩ := hfound user rfl
    show Safe _ _ _ (if user.mustChangePassword = true then _ else _) t
    by_cases hmust : user.mustChangePassword = true
    · rw [if_pos hmust]
      exact safe_answer _
    · rw [if_neg hmust]
      exact hroute user t (hserves.moves hmoves) hid hloaded
        (hvalid (Bool.not_eq_true _ ▸ hmust))

theorem safe_validateCsrf {csrfToken owCsrf : Option String} {route : Handler Answer}
    (hroute : Safe (flows d) w (Returns fun _ _ ↦ True) route h) :
    Safe (flows d) w (Returns fun _ _ ↦ True) (validateCsrf csrfToken owCsrf route) h := by
  cases csrfToken with
  | none => exact safe_answer _
  | some token =>
    show Safe _ _ _ (if _ then _ else _) h
    split_ifs
    · exact safe_answer _
    · exact hroute

/-! ### Starting a flow -/

/-- An operation that only asks the provider or reads the accounts. -/
theorem isQuiet_of_reading {operation : Op}
    (hset : ∀ state stored, operation ≠ .setState state stored)
    (hget : ∀ state purpose, operation ≠ .getdelState state purpose)
    (hsame : ∀ w s draw reply now, perform d w operation draw s = some (reply, now) → now = s) :
    operation.IsQuiet d := by
  refine ⟨hset, hget, fun v s draw reply now hperform ↦ ?_⟩
  obtain rfl := hsame v s draw reply now hperform
  exact ⟨now.accounts, rfl, sameIdentities_of_users rfl⟩

theorem isQuiet_metadata : Op.metadata.IsQuiet d :=
  isQuiet_of_reading (fun _ _ ↦ Op.noConfusion) (fun _ _ ↦ Op.noConfusion) fun _ _ _ _ _ h ↦ by
    cases h
    rfl

theorem isQuiet_fetchClaims (code codeVerifier nonce : String) :
    (Op.fetchClaims code codeVerifier nonce).IsQuiet d :=
  isQuiet_of_reading (fun _ _ ↦ Op.noConfusion) (fun _ _ ↦ Op.noConfusion) fun _ _ _ _ _ h ↦ by
    cases h
    rfl

theorem isQuiet_getUserByOidcSub (sub issuer : String) :
    (Op.getUserByOidcSub sub issuer).IsQuiet d :=
  isQuiet_of_reading (fun _ _ ↦ Op.noConfusion) (fun _ _ ↦ Op.noConfusion) fun _ _ _ _ _ h ↦ by
    cases h
    rfl

/-- A request that may start a flow with any text it draws. -/
theorem safe_createAuthorizationUrl {purpose : Purpose} {binding : String}
    (hserves : Serves h w request)
    (hstart : ∀ t text nonce codeVerifier, Moves d w h t → ⟨w, .state, text⟩ ∈ t.now.drawn →
      Started d t w (if purpose = .link then linkStatePrefix ++ text else text)
        ⟨nonce, codeVerifier, some purpose, some binding⟩) :
    Safe (flows d) w (Returns fun _ t ↦ Grows h t) (createAuthorizationUrl d purpose binding) h := by
  refine safe_then (safe_quiet isQuiet_metadata fun _ _ _ ↦ trivial) fun endpoint t hht _ ↦ ?_
  refine safe_then (safe_tokenUrlsafe .state 32) fun text u htu hdrawn ↦ ?_
  refine safe_then (safe_tokenUrlsafe .nonce 32) fun nonce v huv _ ↦ ?_
  refine safe_then (safe_tokenUrlsafe .codeVerifier 64) fun codeVerifier x hvx _ ↦ ?_
  have hhx := ((hht.trans htu).trans huv).trans hvx
  have hdrawn' := (huv.trans hvx).drawn _ hdrawn
  have hstarted := hstart x text nonce codeVerifier hhx hdrawn'
  exact Safe.andThen (safe_setState (hserves.moves hhx) hstarted)
    fun _ y hxy ↦ hhx.toGrows.trans hxy

theorem safe_oidcAuthorize (hserves : Serves h w .authorize) :
    Safe (flows d) w (Returns fun _ _ ↦ True) (oidcAuthorize d) h := by
  unfold oidcAuthorize
  split_ifs
  · exact safe_answer _
  refine safe_then (safe_tokenUrlsafe .cookie 32) fun browser t hht hcookie ↦ ?_
  have hserves' := hserves.moves hht
  refine Safe.andThen (safe_createAuthorizationUrl hserves'
    fun u text nonce codeVerifier htu hdrawn ↦ ?_) fun url u htu ↦ ?_
  · exact .inl ⟨browser, (hserves'.moves htu).received, rfl, rfl, htu.drawn _ hcookie, hdrawn⟩
  · exact safe_then (safe_setLoginCookie (htu.drawn _ hcookie)) fun _ v _ _ ↦ safe_answer _

theorem safe_oidcLink {session : Option Token} {csrfToken owCsrf : Option String}
    (hserves : Serves h w (.link session csrfToken owCsrf)) :
    Safe (flows d) w (Returns fun _ _ ↦ True) (oidcLink d session csrfToken owCsrf) h := by
  cases session with
  | none => exact safe_answer _
  | some token =>
    refine safe_currentAdmin hserves fun user t hserves' hid _ hvalid ↦ safe_validateCsrf ?_
    split_ifs
    · exact safe_answer _
    refine Safe.andThen (safe_createAuthorizationUrl hserves'
      fun u text nonce codeVerifier htu hdrawn ↦ ?_) fun url u _ ↦ safe_answer _
    refine .inr ⟨token, ⟨csrfToken, owCsrf, (hserves'.moves htu).received⟩,
      ⟨user, hvalid.grows htu.toGrows⟩, rfl, ?_, text, hdrawn, rfl⟩
    rw [hid]

/-! ### Redeeming a state -/

/-- The identity a callback gets comes from the provider, for a state issued for its purpose and
with the binding it showed. -/
theorem safe_exchangeCode {code state : String} {purpose : Purpose} {binding : String}
    (hpurpose : isLinkState state = decide (purpose = .link)) : Safe (flows d) w
    (Quietly d w h fun result t ↦ ∀ claims, result = some claims → Sound d t ∧
      Delivered t w claims ∧ claims.iss = d.issuer ∧ ∃ stored,
        Redeemed d t w state purpose stored ∧ stored.binding.getD "" = binding)
    (exchangeCode code state purpose binding) h := by
  refine safe_then (safe_getdelState hpurpose) fun raw t hht hredeemed ↦ ?_
  cases raw with
  | none => exact ⟨hht, fun claims hclaims ↦ nomatch hclaims⟩
  | some stored =>
    show Safe _ _ _ (if stored.purpose.getD .login ≠ purpose then _ else _) t
    by_cases hother : stored.purpose.getD .login ≠ purpose
    · rw [if_pos hother]
      exact ⟨hht, fun claims hclaims ↦ nomatch hclaims⟩
    rw [if_neg hother]
    by_cases hbinding : stored.binding.getD "" ≠ binding
    · rw [if_pos hbinding]
      exact ⟨hht, fun claims hclaims ↦ nomatch hclaims⟩
    rw [if_neg hbinding]
    have hredeemed' := hredeemed stored rfl
    refine Safe.imp (fun result u hresult ↦ ?_)
      (safe_quiet (isQuiet_fetchClaims code stored.codeVerifier stored.nonce) fun _ _ _ ↦ trivial)
    cases result with
    | error fault => trivial
    | ok value =>
      obtain ⟨htu, hsound, s, draw, now, hmem, hperform⟩ := hresult
      refine ⟨hht.trans htu, fun claims hclaims ↦ ⟨hsound, ?_, ?_, stored,
        hredeemed'.grows htu.toGrows, not_not.mp hbinding⟩⟩
      · subst hclaims
        exact ⟨code, stored.codeVerifier, stored.nonce, s, hmem⟩
      · cases hperform
        obtain ⟨sub, -, rfl⟩ := Option.map_eq_some_iff.mp hclaims
        rfl

/-- What ties a link callback to its flow: the binding is that of its session. -/
theorem linkFlow_of_redeemed (hd : d.Distinct) {query : Callback} {state : String} {token : Token}
    {user : AdminUser} {stored : Stored} {identity : Claims} (hserves : Serves h w (.callback query))
    (hstate : query.state = some state) (hsession : query.session = some token)
    (hvalid : ValidSession d h w token user) (hid : user.id = token.sub)
    (hredeemed : Redeemed d h w state .link stored)
    (hbinding : stored.binding.getD "" = sessionBinding d user.id token)
    (hdelivered : Delivered h w identity) : ∃ v, LinkFlow d h token state v w identity := by
  obtain ⟨v, hdid, ⟨cookie, hlogin⟩ | ⟨other, hlink⟩⟩ := hredeemed.started
  · have hpurpose := hlogin.purpose.symm.trans hredeemed.purpose
    cases hpurpose
  · rw [hlink.binding, Option.getD_some] at hbinding
    obtain ⟨-, rfl⟩ := sessionBinding_injective hd hbinding
    exact ⟨v, hlink.received, hlink.session, ⟨stored, hdid⟩,
      ⟨query, hserves.received, hstate, hsession⟩, ⟨user, hvalid⟩, hredeemed.found, hdelivered⟩

theorem safe_linkTo {user : AdminUser} {identity : Claims} {token : Token} {state : String}
    (hloaded : Loaded d h user) (hissuer : identity.iss = d.issuer) (haccount : token.sub = user.id)
    (hflow : ∃ v, LinkFlow d h token state v w identity) :
    Safe (flows d) w (Returns fun _ _ ↦ True) (linkTo user identity) h :=
  safe_then (safe_linkIdentity hloaded hissuer haccount hflow) fun _ _ _ _ ↦ safe_answer _

theorem safe_oidcLinkCallback (hd : d.Distinct) {query : Callback} {state : String}
    (hserves : Serves h w (.callback query)) (hstate : query.state = some state)
    (hlink : isLinkState state = true) :
    Safe (flows d) w (Returns fun _ _ ↦ True) (oidcLinkCallback d query state) h := by
  unfold oidcLinkCallback
  cases hsession : query.session with
  | none => exact safe_answer _
  | some token =>
    refine safe_currentAdmin hserves fun user t hserves' hid hloaded hvalid ↦ ?_
    cases given query.error with
    | some error => exact safe_answer _
    | none =>
      cases given query.code with
      | none => exact safe_answer _
      | some code =>
        refine Safe.andThen (Safe.caught (safe_exchangeCode hlink)) fun result u hresult ↦ ?_
        cases result with
        | error fault => exact safe_answer _
        | ok claims =>
          obtain ⟨htu, hclaims⟩ := hresult claims rfl
          dsimp only
          cases hidentity : identityOf claims with
          | none => exact safe_answer _
          | some identity =>
            have hsome : claims = some identity := (Option.filter_eq_some_iff.mp hidentity).1
            obtain ⟨-, hdelivered, hissuer, stored, hredeemed, hbinding⟩ := hclaims identity hsome
            exact safe_linkTo (hloaded.moves htu) hissuer hid.symm
              (linkFlow_of_redeemed hd (hserves'.moves htu) hstate hsession
                (hvalid.grows htu.toGrows) hid hredeemed hbinding hdelivered)

/-- What ties a login callback to its flow: the binding is that of the cookie it came with, which
the request that started the flow has set. -/
theorem cookie_of_redeemed (hd : d.Distinct) {query : Callback} {state : String} {stored : Stored}
    (hsound : Sound d h) (hreceived : h.now.received w = some (.callback query))
    (hredeemed : Redeemed d h w state .login stored)
    (hbinding : stored.binding.getD "" = ((given query.browser).map (browserBinding d)).getD "") :
    ∃ cookie v, query.browser = some cookie ∧ h.now.received v = some .authorize ∧
      (v, cookie) ∈ h.now.cookies ∧ h.Did v (.setState state stored) := by
  obtain ⟨v, hdid, ⟨cookie, hlogin⟩ | ⟨token, hlink⟩⟩ := hredeemed.started
  · rw [hlogin.binding, Option.getD_some] at hbinding
    cases hgiven : given query.browser with
    | none =>
      rw [hgiven] at hbinding
      exact absurd hbinding (hd.sha256_ne_empty _)
    | some browser =>
      rw [hgiven, Option.map_some, Option.getD_some] at hbinding
      obtain rfl := browserBinding_injective hd hbinding
      have hbrowser : query.browser = some cookie := (Option.filter_eq_some_iff.mp hgiven).1
      -- the cookie was drawn by the start of the flow, so whoever set it is that start
      obtain ⟨setter, hset⟩ := hsound.known w _ cookie v hreceived hbrowser hlogin.cookie
      have hsame := hsound.unique _ (hsound.cookies setter cookie hset) _ hlogin.cookie rfl
      cases hsame
      exact ⟨cookie, v, hbrowser, hlogin.received, hset, hdid⟩
  · have hpurpose := hlink.purpose.symm.trans hredeemed.purpose
    cases hpurpose

/-- The second factor of an account that a login flow ends with. -/
theorem safe_secondFactor {user : AdminUser} {request : Request}
    (hreceived : h.now.received w = some request)
    (hflow : ∃ cookie state v, LoginFlow h cookie state v w user.id) :
    Safe (flows d) w (Quietly d w h fun _ _ ↦ True) (account (Accounts.secondFactor user)) h := by
  have hgoes : ∀ t, Moves d w h t → GoesOn t w user.id := by
    intro t hmoves
    obtain ⟨cookie, state, v, hlogin⟩ := hflow
    exact ⟨request, hmoves.received w request hreceived,
      fun query _ ↦ ⟨cookie, state, v, hlogin.grows hmoves.toGrows⟩⟩
  refine safe_account ?_
  unfold Accounts.secondFactor
  split_ifs
  · trivial
  · exact .bind (Program.within_call (permitted_of_plain rfl)) fun token ↦
      .bind (Program.within_call fun t hmoves _ ↦ hgoes t hmoves) fun _ ↦ trivial
  · exact .bind (Program.within_call (permitted_of_plain rfl)) fun token ↦
      .bind (Program.within_call fun t hmoves _ ↦ hgoes t hmoves) fun _ ↦ trivial

theorem safe_signInWith (hd : d.Distinct) {query : Callback} {state : String}
    {claims : Option Claims} (hserves : Serves h w (.callback query))
    (hstate : query.state = some state)
    (hclaims : ∀ identity, claims = some identity → Sound d h ∧ Delivered h w identity ∧
      identity.iss = d.issuer ∧ ∃ stored, Redeemed d h w state .login stored ∧
        stored.binding.getD "" = ((given query.browser).map (browserBinding d)).getD "") :
    Safe (flows d) w (Returns fun _ _ ↦ True) (signInWith claims) h := by
  cases claims with
  | none => exact safe_answer _
  | some claims =>
    unfold signInWith
    cases hidentity : identityOf (some claims) with
    | none => exact safe_answer _
    | some identity =>
      obtain ⟨hsound, hdelivered, -, stored, hredeemed, hbinding⟩ :=
        hclaims identity (Option.filter_eq_some_iff.mp hidentity).1
      obtain ⟨cookie, v, hbrowser, hauthorize, hset, hdid⟩ :=
        cookie_of_redeemed hd hsound hserves.received hredeemed hbinding
      refine safe_then (safe_quiet (isQuiet_getUserByOidcSub identity.sub identity.iss)
        fun _ _ _ ↦ trivial) fun found t hmoves hfound ↦ ?_
      cases found with
      | none => exact safe_answer _
      | some user =>
        have hreceived := (hserves.moves hmoves).received
        obtain ⟨-, s, draw, now, hmem, -⟩ := hfound
        have hflow : LoginFlow t cookie state v w user.id :=
          { received := hmoves.received v _ hauthorize
            cookieSet := hmoves.cookies _ hset
            started := ⟨stored, hdid.later hmoves.past⟩
            callback := ⟨query, hreceived, hstate, hbrowser⟩
            redeemed := hredeemed.found.later hmoves.past
            linked := ⟨identity, user, hdelivered.grows hmoves.toGrows, ⟨s, hmem⟩, rfl⟩ }
        exact safe_then (safe_secondFactor hreceived ⟨cookie, state, v, hflow⟩)
          fun answer u _ _ ↦ safe_answer _

theorem safe_oidcLoginCallback (hd : d.Distinct) {query : Callback}
    (hserves : Serves h w (.callback query))
    (hplain : ∀ state, given query.state = some state → isLinkState state = false) :
    Safe (flows d) w (Returns fun _ _ ↦ True) (oidcLoginCallback d query) h := by
  unfold oidcLoginCallback
  cases given query.error with
  | some error => exact safe_answer _
  | none =>
    cases given query.code with
    | none => exact safe_answer _
    | some code =>
      cases hstate : given query.state with
      | none => exact safe_answer _
      | some state =>
        refine Safe.andThen (Safe.caught (safe_exchangeCode (hplain state hstate)))
          fun result u hresult ↦ ?_
        cases result with
        | error fault => exact safe_answer _
        | ok claims =>
          obtain ⟨hmoves, hclaims⟩ := hresult claims rfl
          exact safe_signInWith hd (hserves.moves hmoves)
            (Option.filter_eq_some_iff.mp hstate).1 hclaims

theorem safe_oidcCallback (hd : d.Distinct) {query : Callback}
    (hserves : Serves h w (.callback query)) :
    Safe (flows d) w (Returns fun _ _ ↦ True) (oidcCallback d query) h := by
  unfold oidcCallback
  by_cases henabled : d.oidcEnabled = false
  · rw [if_pos henabled]
    exact safe_answer _
  rw [if_neg henabled]
  cases hstate : given query.state with
  | none => exact safe_oidcLoginCallback hd hserves fun state hsome ↦ by rw [hstate] at hsome; cases hsome
  | some state =>
    show Safe _ _ _ (if isLinkState state = true then _ else _) h
    by_cases hlink : isLinkState state = true
    · rw [if_pos hlink]
      exact safe_oidcLinkCallback hd hserves (Option.filter_eq_some_iff.mp hstate).1 hlink
    · rw [if_neg hlink]
      refine safe_oidcLoginCallback hd hserves fun other hother ↦ ?_
      rw [hstate, Option.some.injEq] at hother
      exact hother ▸ Bool.not_eq_true _ ▸ hlink

theorem safe_oidcUnlink {session : Option Token} {csrfToken owCsrf : Option String}
    (hserves : Serves h w (.unlink session csrfToken owCsrf)) :
    Safe (flows d) w (Returns fun _ _ ↦ True) (oidcUnlink d session csrfToken owCsrf) h := by
  cases session with
  | none => exact safe_answer _
  | some token =>
    refine safe_currentAdmin hserves fun user t _ _ _ _ ↦ safe_validateCsrf ?_
    split_ifs
    · exact safe_answer _
    · exact safe_answer _
    · exact safe_answer _
    · exact safe_then (safe_unlinkIdentity user) fun _ _ _ _ ↦ safe_answer _

/-! ### All requests -/

theorem handles (hd : d.Distinct) : (flows d).Handles (handler d) := by
  intro w request h _ _ hidle
  refine Safe.andThen (safe_receive request hidle.1 hidle.2) fun _ t hserves ↦ ?_
  cases request with
  | account inner => exact safe_accountRequest hserves
  | authorize => exact safe_oidcAuthorize hserves
  | link session csrfToken owCsrf => exact safe_oidcLink hserves
  | callback query => exact safe_oidcCallback hd hserves
  | unlink session csrfToken owCsrf => exact safe_oidcUnlink hserves

/-- The contract holds at the start of a run. -/
theorem holds_start (accounts : Accounts.Start) : (flows d).Holds (start accounts) := by
  refine Contract.holds_of_idle ?_ (fun w ↦ ⟨rfl, ?_⟩) fun _ ↦ rfl
  · exact
      { unique := fun _ hmem ↦ absurd hmem List.not_mem_nil
        urlsafe := fun _ hmem ↦ absurd hmem List.not_mem_nil
        presented := fun _ _ _ hreceived ↦ nomatch hreceived
        known := fun _ _ _ _ hreceived ↦ nomatch hreceived
        cookies := fun _ _ hmem ↦ absurd hmem List.not_mem_nil
        states := fun _ _ hstored ↦ nomatch hstored
        justified := fun _ hmem ↦ absurd hmem List.not_mem_nil }
  · rintro state stored ⟨s, reply, hmem⟩
    exact absurd hmem List.not_mem_nil

/-- The contract holds after every run. -/
theorem holds_of_run (hd : d.Distinct) {accounts : Accounts.Start} {events : List Step}
    {s : Requests} (hrun : run (semantics d) (handler d) (start accounts) events = some s) :
    (flows d).Holds s := by
  refine Contract.run_safe (handles hd) (holds_start accounts)
    (meets_of_forall (fun event _ s ↦ ?_) (start accounts)) hrun
  exact Contract.permits_of_acting (fun _ ↦ trivial) (fun _ _ _ ↦ trivial) (fun _ _ ↦ trivial)
    fun _ _ _ ↦ trivial

end OpenWhistle.Sso
