import OpenWhistle.Accounts.Session

/-!
# Signing in

The password step ends with a login that waits for its code, or for its enrolment where the account
has no authenticator yet. The code step takes the waiting login, reads the account again, checks the
code against the secret it has read, and stores the session; the enrolment does the same and commits
that the authenticator is enrolled. Each step reads, checks and stores one after the other.
-/

set_option autoImplicit false
set_option relaxedAutoImplicit false

namespace OpenWhistle.Accounts

open Interleaving

/-! ### Waiting logins -/

def storeTotpPending (tempToken : TempToken) (user : UserId) : Handler Unit :=
  call (.setTotpPending tempToken user)

def consumeTotpPending (tempToken : TempToken) : Handler (Option UserId) :=
  call (.getdelTotpPending tempToken)

def storeTotpSetupPending (tempToken : TempToken) (user : UserId) : Handler Unit :=
  call (.setTotpSetup tempToken user)

def consumeTotpSetupPending (tempToken : TempToken) : Handler (Option UserId) :=
  call (.getdelTotpSetup tempToken)

/-- Checks a code and marks it used. -/
def consumeTotp (d : Deployment) (user : UserId) (secret code : String) : Handler Bool := do
  let now ← call .clock
  if verifyTotp d secret code now then call (.setTotpUsed user code)
  else return false

/-! ### The steps -/

/-- Hands a user whose first factor is checked to the second one. -/
def secondFactor (user : AdminUser) : Handler Answer :=
  if user.isActive = false then return .login (some "login.error.deactivated") 401
  else if user.totpEnabled = false then do
    let setupToken ← call .tokenUrlsafe
    storeTotpSetupPending setupToken user.id
    return .redirect "/admin/mfa/setup" 302
  else do
    let tempToken ← call .tokenUrlsafe
    storeTotpPending tempToken user.id
    return .loginMfa (some tempToken) none 200

/-- The only place a login becomes a session. -/
def startSession (user : AdminUser) : Handler Answer :=
  if user.isActive = false then return .redirect "/admin/login" 302
  else do
    let token ← call (.createAccessToken user.id none)
    storeSession user.id token
    let now ← call .clock
    call (.commit user { user with lastLoginAt := some now } .authLogin)
    call (.setCookie token)
    return .redirect (if user.mustChangePassword then "/admin/account" else "/admin/dashboard") 302

def passwordFailed : Handler Answer := do
  call (.limiter .passwordFailed)
  return .login (some "login.error.invalid") 401

/-- The first factor is right: the attempt is given back, and the second factor follows. -/
def firstFactorPassed (user : AdminUser) : Handler Answer := do
  call (.limiter .releaseAdminAttempt)
  secondFactor user

/-- The directory has vouched for a user: the account of that directory user is found, or made on
the first login. -/
def ldapLogin (ldapUsername : String) : Handler Answer := do
  let found ← call (.getUserByLdapUsername ldapUsername)
  match found with
  | some user => firstFactorPassed user
  | none => do
    let taken ← call (.usernameTaken ldapUsername)
    if taken then passwordFailed
    else do
      let user ← call (.provisionLdapUser ldapUsername)
      firstFactorPassed user

def localLogin (d : Deployment) (username password : String) : Handler Answer := do
  let found ← call (.getUserByUsername username)
  match found with
  | none => passwordFailed
  | some user =>
    if (user.passwordHash.any fun hash ↦ verifyPassword d password hash) = true then
      firstFactorPassed user
    else passwordFailed

/-- The password step. A directory that does not vouch for the user leaves the local password. -/
def loginPost (d : Deployment) (username password : String) : Handler Answer :=
  if username.toList.all Char.isWhitespace || password.isEmpty then
    return .login (some "login.error.required") 400
  else do
    let claimed ← call (.claimAdminAttempt username)
    if claimed = false then return .login (some "login.error.locked") 429
    else if d.ldapEnabled then do
      let ldapInfo ← call (.authenticateLdap username password)
      match ldapInfo with
      | some ldapUsername => ldapLogin ldapUsername
      | none => localLogin d username password
    else localLogin d username password

/-- Demo accounts have a code of their own; any other code is used once. -/
def codeIsValid (d : Deployment) (user : AdminUser) (code : String) : Handler Bool :=
  if d.demoMode && verifyDemoTotp code user.username user.totpSecret then return true
  else consumeTotp d user.id user.totpSecret code

/-- The code step. -/
def loginMfaPost (d : Deployment) (tempToken : TempToken) (totpCode : String) : Handler Answer := do
  let waiting ← consumeTotpPending tempToken
  match waiting with
  | none => return .redirect "/admin/login" 302
  | some userId => do
    let found ← call (.getUserById userId)
    match found with
    | none => return .redirect "/admin/login" 302
    | some user => do
      let claimed ← call (.claimAdminAttempt user.username)
      if claimed = false then return .loginMfa none (some "login.error.locked") 429
      else do
        let valid ← codeIsValid d user totpCode
        if valid then do
          call (.limiter .resetAdminLoginAttempts)
          startSession user
        else do
          let newTemp ← call .tokenUrlsafe
          storeTotpPending newTemp userId
          return .loginMfa (some newTemp) (some "mfa.error.invalid") 200

/-- The enrolment: the first code of a new authenticator. -/
def mfaSetupPost (d : Deployment) (tempToken : TempToken) (totpCode : String) : Handler Answer := do
  let waiting ← consumeTotpSetupPending tempToken
  match waiting with
  | none => return .redirect "/admin/login" 302
  | some userId => do
    let found ← call (.getUserById userId)
    match found with
    | none => return .redirect "/admin/login" 302
    | some user =>
      if user.isActive = false ∨ user.totpEnabled = true then return .redirect "/admin/login" 302
      else do
        let valid ← consumeTotp d user.id user.totpSecret totpCode
        if valid then do
          call (.commit user { user with totpEnabled := true } .authTotpSetup)
          startSession { user with totpEnabled := true }
        else do
          let newSetupToken ← call .tokenUrlsafe
          storeTotpSetupPending newSetupToken userId
          return .mfaSetup newSetupToken "mfa.setup.error.invalid"

end OpenWhistle.Accounts
