import OpenWhistle.Foundation.Program
import OpenWhistle.Accounts.Server

/-!
# Sessions: storing, checking, refreshing and ending them

The session functions of the authentication service, the dependency every protected route goes
through, and the requests that end or renew a session. A refresh stores the new session first and
then deletes the old one; where the old one was gone, it withdraws the new one.
-/

set_option autoImplicit false
set_option relaxedAutoImplicit false

namespace OpenWhistle.Accounts

open Interleaving

abbrev Handler (α : Type) := Program Op Reply Fault α

abbrev call (operation : Op) : Handler (Reply operation) := Program.call operation

/-- What a request is answered with. -/
inductive Answer
  | login (error : Option String) (status : ℕ)
  | loginMfa (tempToken : Option TempToken) (error : Option String) (status : ℕ)
  | mfaSetup (tempToken : TempToken) (error : String)
  | account (error : Option (String × String)) (status : ℕ)
  | users (username : String) (temporaryPassword : Option String)
  | ttl (seconds expiresAt : ℕ)
  | redirect (location : String) (status : ℕ)
  | refused (status : ℕ)
  deriving DecidableEq

/-! ### The session keys -/

def storeSession (user : UserId) (token : Token) : Handler Unit :=
  call (.setSession user token)

def validateSession (token : Token) : Handler Bool :=
  call (.existsSession token)

/-- Ends a session; true if it still existed. -/
def revokeSession (token : Token) : Handler Bool :=
  call (.deleteSession token)

/-- Ends every session of an account but the kept one, and every login of it that waits. -/
def revokeUserSessions (user : UserId) (keep : Option Token) : Handler Unit :=
  call (.sweep user keep)

/-! ### Who is signed in -/

/-- The account a session cookie signs in; `none` where the request is refused with 401. -/
def getSignedInAdmin (d : Deployment) (cookie : Option Token) : Handler (Option AdminUser) :=
  match cookie with
  | none => return none
  | some token => do
    let active ← validateSession token
    if active = false then return none
    else do
      let now ← call .clock
      if token.isCurrent d now = false then return none
      else do
        let found ← call (.getUserById token.sub)
        match found with
        | none => return none
        | some user => return if user.isActive && user.totpEnabled then some user else none

/-- What `getSignedInAdmin` answers when nothing happens in between. -/
def Server.accepts (d : Deployment) (s : Server) (token : Token) : Option AdminUser :=
  if s.sessions.user token = none ∨ token.isCurrent d s.now = false then none
  else (s.userById token.sub).filter fun user ↦ user.isActive && user.totpEnabled

/-- Runs a route for the account that is signed in. -/
def signedIn (d : Deployment) (cookie : Option Token) (route : AdminUser → Handler Answer) :
    Handler Answer := do
  let found ← getSignedInAdmin d cookie
  match found with
  | none => return .refused 401
  | some user => route user

/-- Runs a route for a signed-in account with one of the roles; while a password change is due,
nothing but the account page opens. -/
def requireRole (d : Deployment) (cookie : Option Token) (roles : List AdminRole)
    (route : AdminUser → Handler Answer) : Handler Answer :=
  signedIn d cookie fun user ↦
    if user.mustChangePassword then return .redirect "/admin/account" 303
    else if user.role ∈ roles then route user
    else return .refused 403

/-- The timer of the page. -/
def sessionTtl (d : Deployment) (cookie : Option Token) : Handler Answer :=
  match cookie with
  | none => return .refused 401
  | some token => signedIn d (some token) fun _ ↦ do
    let now ← call .clock
    return .ttl (token.exp - now) token.exp

/-! ### Logout and refresh -/

def logout (cookie : Option Token) : Handler Answer :=
  match cookie with
  | none => return .redirect "/admin/login" 303
  | some token => do
    let _ ← revokeSession token
    return .redirect "/admin/login" 303

/-- Hands the new session out, or withdraws it where the old one was gone. -/
def replaceSession (old new : Token) : Handler Answer := do
  let existed ← revokeSession old
  if existed then do
    let now ← call .clock
    call (.setCookie new)
    return .ttl (new.exp - now) new.exp
  else do
    let _ ← revokeSession new
    return .refused 401

/-- A new session up to the full lifetime, never past the absolute limit of the login. -/
def sessionRefresh (d : Deployment) (cookie : Option Token) : Handler Answer :=
  match cookie with
  | none => return .refused 401
  | some token => signedIn d (some token) fun user ↦
    if token.sessionStartedAt = 0 then return .refused 401
    else do
      let new ← call (.createAccessToken user.id (some token.sessionStartedAt))
      storeSession user.id new
      replaceSession token new

end OpenWhistle.Accounts
