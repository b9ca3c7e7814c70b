import OpenWhistle.Sso.Server

/-!
# The single sign-on requests

`authorize` sends a browser to the provider with a login state tied to a fresh cookie, `link` a
signed-in account with a link state tied to its session. The provider sends both back to one
callback, which takes the state by its first letters for one or the other, redeems it for that
purpose and with the binding of the cookie it came with, and then asks the provider whom it signed
in. A login goes on to the second factor of the account that is linked to that identity, a link
writes the identity into the account of the session.
-/

set_option autoImplicit false
set_option relaxedAutoImplicit false

namespace OpenWhistle.Sso

open Interleaving
open Accounts (AdminUser UserId Token Fault)

abbrev Handler (α : Type) := Program Op Reply Fault α

abbrev call (operation : Op) : Handler (Reply operation) := Program.call operation

/-- A function of the account requests, as a part of these. -/
def account {α : Type} (program : Accounts.Handler α) : Handler α :=
  program.lift .account fun _ reply ↦ reply

/-- The address at the provider a browser is sent to. -/
structure AuthorizationUrl where
  endpoint : String
  params : List (String × String)
  deriving DecidableEq

inductive Answer
  | account (answer : Accounts.Answer)
  | toProvider (url : AuthorizationUrl) (loginCookie : Option String)
  deriving DecidableEq

/-- A text that is missing or empty counts as none. -/
def given (text : Option String) : Option String :=
  text.filter fun text ↦ !text.isEmpty

def loginPage (error : String) (status : ℕ) : Answer :=
  .account (.login (some error) status)

/-- Back to the account page, which shows the result. -/
def ssoResult (result : String) : Answer :=
  .account (.redirect ("/admin/account?sso=" ++ result) 303)

/-! ### Redeeming a state -/

/-- Stores a fresh state with a nonce and a verifier, and gives the address that carries it. -/
def createAuthorizationUrl (d : Deployment) (purpose : Purpose) (binding : String) :
    Handler AuthorizationUrl := do
  let endpoint ← call .metadata
  let text ← call (.tokenUrlsafe .state 32)
  let state := if purpose = .link then linkStatePrefix ++ text else text
  let nonce ← call (.tokenUrlsafe .nonce 32)
  let codeVerifier ← call (.tokenUrlsafe .codeVerifier 64)
  call (.setState state ⟨nonce, codeVerifier, some purpose, some binding⟩)
  return ⟨endpoint,
    [("response_type", "code"), ("client_id", d.oidcClientId),
      ("redirect_uri", d.oidcRedirectUri), ("scope", "openid email profile"), ("state", state),
      ("nonce", nonce), ("code_challenge", d.pkceChallenge codeVerifier),
      ("code_challenge_method", "S256")]⟩

/-- The identity of a code, if its state is stored, was issued for the purpose and carries the
binding. The state is gone whatever the outcome. -/
def exchangeCode (code state : String) (purpose : Purpose) (binding : String) :
    Handler (Option Claims) := do
  let raw ← call (.getdelState state purpose)
  match raw with
  | none => return none
  | some stored =>
    if stored.purpose.getD .login ≠ purpose then return none
    else if stored.binding.getD "" ≠ binding then return none
    else call (.fetchClaims code stored.codeVerifier stored.nonce)

/-- The subject and the issuer of an identity, neither of them empty. -/
def identityOf (claims : Option Claims) : Option Claims :=
  claims.filter fun claims ↦ !claims.sub.isEmpty && !claims.iss.isEmpty

/-! ### Who is signed in -/

/-- Runs a route for the account of a session. While a password change is due, nothing but the
account page opens. -/
def currentAdmin (d : Deployment) (session : Option Token) (refusal : Answer)
    (route : AdminUser → Handler Answer) : Handler Answer := do
  let found ← account (Accounts.getSignedInAdmin d.accounts session)
  match found with
  | none => return refusal
  | some user =>
    if user.mustChangePassword then return .account (.redirect "/admin/account" 303)
    else route user

/-- Runs a route when the field of the form agrees with the cookie. -/
def validateCsrf (csrfToken owCsrf : Option String) (route : Handler Answer) : Handler Answer :=
  match csrfToken with
  | none => return .account (.refused 422)
  | some token =>
    if token.isEmpty || owCsrf ≠ some token then return .account (.refused 403) else route

/-! ### The flows -/

def oidcAuthorize (d : Deployment) : Handler Answer :=
  if d.oidcEnabled = false then return .account (.refused 404)
  else do
    let browser ← call (.tokenUrlsafe .cookie 32)
    let url ← createAuthorizationUrl d .login (browserBinding d browser)
    call (.setLoginCookie browser)
    return .toProvider url (some browser)

def oidcLink (d : Deployment) (session : Option Token) (csrfToken owCsrf : Option String) :
    Handler Answer :=
  match session with
  | none => return .account (.refused 401)
  | some sessionToken =>
    currentAdmin d (some sessionToken) (.account (.refused 401)) fun user ↦
      validateCsrf csrfToken owCsrf <|
        if d.oidcEnabled = false then return .account (.refused 404)
        else do
          let url ← createAuthorizationUrl d .link (sessionBinding d user.id sessionToken)
          return .toProvider url none

/-- The identity is committed to the account. -/
def linkTo (user : AdminUser) (claims : Claims) : Handler Answer := do
  let linked ← call (.linkIdentity user claims.sub claims.iss)
  return ssoResult (if linked then "linked" else "taken")

/-- The callback of a link flow, for the account of the session it came with. -/
def oidcLinkCallback (d : Deployment) (query : Callback) (state : String) : Handler Answer :=
  match query.session with
  | none => return loginPage "login.error.sso_link_session" 401
  | some sessionToken =>
    currentAdmin d (some sessionToken) (loginPage "login.error.sso_link_session" 401) fun user ↦
      match given query.error, given query.code with
      | none, some code => do
        let result ← (exchangeCode code state .link (sessionBinding d user.id sessionToken)).attempt
        match result with
        | .error _ => return ssoResult "failed"
        | .ok claims =>
          match identityOf claims with
          | none => return ssoResult "failed"
          | some identity => linkTo user identity
      | _, _ => return ssoResult "failed"

/-- The account of a verified identity goes on to its second factor. -/
def signInWith (claims : Option Claims) : Handler Answer :=
  match claims with
  | none => return loginPage "login.error.sso_expired" 200
  | some _ =>
    match identityOf claims with
    | none => return loginPage "login.error.sso_identity" 200
    | some identity => do
      let found ← call (.getUserByOidcSub identity.sub identity.iss)
      match found with
      | none => return loginPage "login.error.sso_unlinked" 200
      | some user => do
        let answer ← account (Accounts.secondFactor user)
        return .account answer

/-- The callback of a login flow. -/
def oidcLoginCallback (d : Deployment) (query : Callback) : Handler Answer :=
  match given query.error, given query.code, given query.state with
  | none, some code, some state => do
    let binding := ((given query.browser).map (browserBinding d)).getD ""
    let result ← (exchangeCode code state .login binding).attempt
    match result with
    | .error _ => return loginPage "login.error.sso_failed" 200
    | .ok claims => signInWith claims
  | _, _, _ => return loginPage "login.error.sso_failed" 200

def oidcCallback (d : Deployment) (query : Callback) : Handler Answer :=
  if d.oidcEnabled = false then return .account (.refused 404)
  else
    match given query.state with
    | some state =>
      if isLinkState state then oidcLinkCallback d query state else oidcLoginCallback d query
    | none => oidcLoginCallback d query

/-- An account that could sign in no other way keeps its identity. -/
def oidcUnlink (d : Deployment) (session : Option Token) (csrfToken owCsrf : Option String) :
    Handler Answer :=
  currentAdmin d session (.account (.refused 401)) fun user ↦
    validateCsrf csrfToken owCsrf <|
      if d.oidcEnabled = false then return .account (.refused 404)
      else if given user.oidcSub = none then return ssoResult "unlinked"
      else if given user.passwordHash = none ∧
          (given user.ldapUsername = none ∨ d.accounts.ldapEnabled = false) then
        return ssoResult "only_way_in"
      else do
        call (.unlinkIdentity user)
        return ssoResult "unlinked"

/-! ### Runs -/

/-- What the server does for a request, once it has received it. -/
def answerTo (d : Deployment) : Request → Handler Answer
  | .account request => do
    let answer ← account (Accounts.answerTo d.accounts request)
    return .account answer
  | .authorize => oidcAuthorize d
  | .link session csrfToken owCsrf => oidcLink d session csrfToken owCsrf
  | .callback query => oidcCallback d query
  | .unlink session csrfToken owCsrf => oidcUnlink d session csrfToken owCsrf

def handler (d : Deployment) (request : Request) : Handler Answer := do
  call (.receive request)
  answerTo d request

abbrev History := Recorded Op Reply Fault Server

abbrev Step := Event Request Fault Draw Change

abbrev Requests := System History (Handler Answer)

/-- A run begins with the accounts and the sessions of any start, and no flow under way. -/
def start (accounts : Accounts.Start) : Requests where
  shared := ⟨{ accounts := accounts.system.shared
               states := fun _ ↦ none
               received := fun _ ↦ none
               presented := []
               drawn := []
               cookies := [] }, []⟩
  worker _ := none

end OpenWhistle.Sso
