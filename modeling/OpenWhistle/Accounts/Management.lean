import OpenWhistle.Accounts.SignIn

/-!
# Changing an account

The holder's own change of the password, the reset of an authenticator by a superadmin, the
deactivation and the reactivation of an account, and the change of its role. The first three commit
first and end the sessions of the account afterwards; a password change keeps the session it was made
in. `handler` puts all requests together.
-/

set_option autoImplicit false
set_option relaxedAutoImplicit false

namespace OpenWhistle.Accounts

open Interleaving

/-- The new password is committed, and every other session of the account ends. -/
def changePassword (cookie : Option Token) (user : AdminUser) (newPassword : String) :
    Handler Answer := do
  let hash ← call (.hashPassword newPassword)
  call (.commit user { user with passwordHash := some hash, mustChangePassword := false }
    .authPasswordChanged)
  call (.limiter .resetAdminLoginAttempts)
  revokeUserSessions user.id cookie
  return .redirect "/admin/account?password=changed" 303

def accountPassword (d : Deployment) (cookie : Option Token)
    (currentPassword newPassword confirmPassword totpCode : String) : Handler Answer :=
  signedIn d cookie fun user ↦
    match user.passwordHash with
    | none => return .refused 404
    | some hash =>
      if demoAccount d user then return .refused 403
      else match newPasswordError currentPassword newPassword confirmPassword with
      | some error => return .account (some error) 400
      | none => do
        let claimed ← call (.claimAdminAttempt user.username)
        if claimed = false then
          return .account (some ("current_password", "login.error.locked")) 429
        else if verifyPassword d currentPassword hash = false then
          return .account (some ("current_password", "account.password.error.current")) 401
        else do
          let valid ← consumeTotp d user.id user.totpSecret totpCode
          if valid then changePassword cookie user newPassword
          else return .account (some ("totp_code", "mfa.error.invalid")) 401

/-- A new secret, to be enrolled at the next login. -/
def requireNewAuthenticator (user : AdminUser) (secret : String) : AdminUser :=
  { user with totpSecret := secret, totpEnabled := false }

/-- A temporary password for an account that has a local one. -/
def newTemporaryPassword (caller target : AdminUser) :
    Handler (AdminUser × Option String) :=
  match target.passwordHash with
  | none => return (target, none)
  | some _ => do
    let password ← call .temporaryPassword
    let hash ← call (.hashPassword password)
    return ({ target with
      passwordHash := some hash, mustChangePassword := true, createdById := some caller.id },
      some password)

def resetUserTotp (d : Deployment) (cookie : Option Token) (userId : UserId) : Handler Answer :=
  requireRole d cookie [.superadmin] fun caller ↦ do
    let found ← call (.getUserById userId)
    match found with
    | none => return .refused 404
    | some target =>
      if outsideOrg d caller target.orgId then return .refused 404
      else if target.id = caller.id then return .refused 400
      else if demoAccount d target then return .refused 403
      else do
        let secret ← call .randomBase32
        let changed ← newTemporaryPassword caller (requireNewAuthenticator target secret)
        call (.commit target changed.1 (.adminTotpReset changed.2.isSome))
        revokeUserSessions target.id none
        return .users target.username changed.2

/-- The account is deactivated, and its sessions end. -/
def endAccount (target : AdminUser) : Handler Answer := do
  call (.commit target { target with isActive := false } .adminDeactivated)
  revokeUserSessions target.id none
  return .redirect "/admin/users" 302

def deactivateUser (d : Deployment) (cookie : Option Token) (userId : UserId) : Handler Answer :=
  requireRole d cookie [.admin, .superadmin] fun caller ↦ do
    let found ← call (.getUserById userId)
    match found with
    | none => return .refused 404
    | some target =>
      if target.id = caller.id then return .refused 400
      else match mayNotManage d caller target with
      | some status => return .refused status
      | none =>
        if target.role ≠ .caseManager ∧ target.isActive = true then do
          let count ← call .countActivePrivilegedAdmins
          if count ≤ 1 then return .refused 422 else endAccount target
        else endAccount target

def reactivateUser (d : Deployment) (cookie : Option Token) (userId : UserId) : Handler Answer :=
  requireRole d cookie [.admin, .superadmin] fun caller ↦ do
    let found ← call (.getUserById userId)
    match found with
    | none => return .refused 404
    | some target =>
      match mayNotManage d caller target with
      | some status => return .refused status
      | none => do
        call (.commit target { target with isActive := true } .adminReactivated)
        return .redirect "/admin/users" 302

def assignRole (target : AdminUser) (role : AdminRole) : Handler Answer := do
  call (.commit target { target with role := role } .adminRoleChanged)
  return .redirect "/admin/users" 302

def changeUserRole (d : Deployment) (cookie : Option Token) (userId : UserId) (role : String) :
    Handler Answer :=
  requireRole d cookie [.admin, .superadmin] fun caller ↦ do
    let found ← call (.getUserById userId)
    match found with
    | none => return .refused 404
    | some target =>
      match mayNotManage d caller target with
      | some status => return .refused status
      | none =>
        match adminRole role with
        | none => return .refused 422
        | some role =>
          if target.id = caller.id then return .refused 403
          else if role = .superadmin ∧ caller.role ≠ .superadmin then return .refused 403
          else if target.role ≠ .caseManager ∧ role = .caseManager ∧ target.isActive = true then do
            let count ← call .countActivePrivilegedAdmins
            if count ≤ 1 then return .refused 422 else assignRole target role
          else assignRole target role

/-- What the server does for a request, once it has received it. -/
def answerTo (d : Deployment) : Request → Handler Answer
  | .login username password => loginPost d username password
  | .loginMfa tempToken totpCode => loginMfaPost d tempToken totpCode
  | .mfaSetup tempToken totpCode => mfaSetupPost d tempToken totpCode
  | .logout cookie => logout cookie
  | .sessionTtl cookie => sessionTtl d cookie
  | .sessionRefresh cookie => sessionRefresh d cookie
  | .accountPassword cookie current new confirm totpCode =>
    accountPassword d cookie current new confirm totpCode
  | .resetTotp cookie target => resetUserTotp d cookie target
  | .deactivate cookie target => deactivateUser d cookie target
  | .reactivate cookie target => reactivateUser d cookie target
  | .changeRole cookie target role => changeUserRole d cookie target role

def handler (d : Deployment) (request : Request) : Handler Answer := do
  call (.receive request)
  answerTo d request

/-! ### Runs -/

abbrev Step := Event Request Fault Draw Change

abbrev Requests := System Server (Handler Answer)

/-- Where a run begins: some accounts, and some sessions that browsers hold. -/
structure Start where
  users : List AdminUser
  signedIn : List Token := []
  now : ℕ := 0

def Start.sessions (start : Start) : Sessions where
  user token := if token ∈ start.signedIn then some token.sub else none
  received _ := none
  presented := []
  issued := start.signedIn
  stored := start.signedIn
  handed := start.signedIn
  owner _ := none
  parent _ := none
  endedBy _ := none
  sweeps := []

def Start.system (start : Start) : Requests where
  shared :=
    { now := start.now
      users := start.users
      auditLog := []
      totpUsed := []
      sessions := start.sessions
      signIns := ⟨fun _ ↦ none, fun _ ↦ none, fun _ _ ↦ {}, fun _ ↦ none, fun _ ↦ none,
        fun _ ↦ {}⟩ }
  worker _ := none

end OpenWhistle.Accounts
