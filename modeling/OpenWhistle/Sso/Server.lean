import OpenWhistle.Foundation.Journal
import OpenWhistle.Accounts.Management

/-!
# What the single sign-on requests share

The states of the flows that are under way, in Redis, beside everything the account requests share.
An account request is a request here as well, so flows run between password logins, refreshes,
logouts and resets. The identity an account is linked to is two columns of its row.

The states and the login cookies are random texts. No draw repeats an earlier one; and nobody sends
a login cookie that was drawn before a response has set it. Nothing else keeps anybody from sending
any state, cookie or code at any time.

The requests received, the texts drawn and the cookies set are history, which no operation reads but
to draw a fresh text.
-/

set_option autoImplicit false
set_option relaxedAutoImplicit false

namespace OpenWhistle.Sso

open Interleaving
open Accounts (AdminUser UserId Token Fault)

/-- The settings of the sign-on, and what it takes from other packages and from the provider. -/
structure Deployment where
  accounts : Accounts.Deployment
  oidcEnabled : Bool := true
  oidcClientId : String := ""
  oidcRedirectUri : String := ""
  /-- The issuer the provider's metadata name, which an ID token must carry. -/
  issuer : String
  /-- The hexadecimal SHA-256 digest of a text. -/
  sha256 : (text : String) → String
  /-- `_pkce_challenge`. -/
  pkceChallenge : (verifier : String) → String
  /-- How the id of an account is written. -/
  str : UserId → String
  /-- How a session token is written in its cookie. -/
  encoded : Token → String

/-! ### States and bindings -/

inductive Purpose
  | login
  | link
  deriving DecidableEq

def linkStatePrefix : String := "link."

/-- What ties a link state to the session that started it. -/
def sessionBinding (d : Deployment) (userId : UserId) (sessionToken : Token) : String :=
  d.sha256 (d.str userId ++ ":" ++ d.encoded sessionToken)

/-- What ties a login state to the browser that started it. -/
def browserBinding (d : Deployment) (cookie : String) : String :=
  d.sha256 ("login:" ++ cookie)

/-- What Redis keeps under a state. Old states carry neither purpose nor binding. -/
structure Stored where
  nonce : String
  codeVerifier : String
  purpose : Option Purpose := none
  binding : Option String := none
  deriving DecidableEq

/-- The callback takes a state for a link state by its first letters. -/
def isLinkState (state : String) : Bool :=
  linkStatePrefix.toList.isPrefixOf state.toList

/-- The identity in a verified ID token. -/
structure Claims where
  sub : String
  iss : String
  deriving DecidableEq

/-! ### Requests -/

/-- The query and the cookies of a request to the callback. -/
structure Callback where
  code : Option String := none
  state : Option String := none
  error : Option String := none
  session : Option Token := none
  browser : Option String := none
  deriving DecidableEq

/-- The requests. `csrfToken` is the field of a form, `owCsrf` the cookie it must agree with. -/
inductive Request
  | account (request : Accounts.Request)
  | authorize
  | link (session : Option Token) (csrfToken owCsrf : Option String)
  | callback (query : Callback)
  | unlink (session : Option Token) (csrfToken owCsrf : Option String)
  deriving DecidableEq

/-- The login cookie of a request. -/
def Request.browser : Request → Option String
  | .callback query => query.browser
  | _ => none

/-! ### The shared state -/

/-- What a random text is drawn for. -/
inductive Use
  | cookie
  | state
  | nonce
  | codeVerifier
  deriving DecidableEq

structure Drawn where
  worker : ℕ
  use : Use
  text : String
  deriving DecidableEq

structure Server where
  accounts : Accounts.Server
  states : String → Option Stored
  received : ℕ → Option Request
  presented : List String
  drawn : List Drawn
  /-- The login cookies that responses have set, with the request each response answers. -/
  cookies : List (ℕ × String)

/-- The atomic operations. `getdelState` notes what its caller redeems the state for. `fetchClaims`
is the exchange with the provider: the verified identity, if there is one. -/
inductive Op
  | account (operation : Accounts.Op)
  | receive (request : Request)
  | metadata
  | tokenUrlsafe (use : Use) (bytes : ℕ)
  | setState (state : String) (stored : Stored)
  | getdelState (state : String) (purpose : Purpose)
  | fetchClaims (code codeVerifier nonce : String)
  | getUserByOidcSub (sub issuer : String)
  | linkIdentity (loaded : AdminUser) (sub issuer : String)
  | unlinkIdentity (loaded : AdminUser)
  | setLoginCookie (browser : String)
  deriving DecidableEq

/-- What an operation answers with. -/
@[reducible] def Reply : Op → Type
  | .account operation => Accounts.Reply operation
  | .receive _ => Unit
  | .metadata => String
  | .tokenUrlsafe _ _ => String
  | .setState _ _ => Unit
  | .getdelState _ _ => Option Stored
  | .fetchClaims _ _ _ => Option Claims
  | .getUserByOidcSub _ _ => Option AdminUser
  | .linkIdentity _ _ _ => Bool
  | .unlinkIdentity _ => Unit
  | .setLoginCookie _ => Unit

/-- What the environment draws for an operation: a random text, or the provider's answer. -/
structure Draw where
  account : Accounts.Draw := {}
  text : String := ""
  sub : Option String := none
  deriving Inhabited

/-! ### The operations -/

/-- The alphabet of `secrets.token_urlsafe`. -/
def isUrlsafe (letter : Char) : Bool :=
  letter.isAlphanum || letter == '-' || letter == '_'

namespace Server

/-- A request arrives with its cookies. -/
def receive (s : Server) (w : ℕ) (request : Request) : Option Server :=
  if ∀ cookie ∈ request.browser, (∃ draw ∈ s.drawn, draw.use = .cookie ∧ draw.text = cookie) →
      ∃ set ∈ s.cookies, set.2 = cookie then
    let arrive (accounts : Accounts.Server) : Server := { s with
      accounts := accounts
      received := Function.update s.received w (some request)
      presented := request.browser.toList ++ s.presented }
    match request with
    | .account inner => (s.accounts.sessions.receive w inner).map fun sessions ↦
        arrive { s.accounts with sessions := sessions }
    | _ => some (arrive s.accounts)
  else none

/-- A random text of so many bytes. -/
def draw (s : Server) (w : ℕ) (use : Use) (bytes : ℕ) (text : String) : Option Server :=
  if text.length = (4 * bytes + 2) / 3 ∧ text.toList.all isUrlsafe = true ∧
      (∀ earlier ∈ s.drawn, earlier.text ≠ text) ∧ (use = .cookie → text ∉ s.presented) then
    some { s with drawn := ⟨w, use, text⟩ :: s.drawn }
  else none

/-- SET of a state. -/
def setState (s : Server) (state : String) (stored : Stored) : Server :=
  { s with states := Function.update s.states state (some stored) }

/-- GETDEL of a state, and the end of its life. -/
def delState (s : Server) (state : String) : Server :=
  { s with states := Function.update s.states state none }

/-- The account of an identity. -/
def getUserByOidcSub (s : Server) (sub issuer : String) : Option AdminUser :=
  s.accounts.users.find? fun user ↦ user.oidcSub = some sub ∧ user.oidcIssuer = some issuer

/-- The commit that links an identity; `false` where the subject is another account's, which the
unique column refuses. -/
def linkIdentity (s : Server) (loaded : AdminUser) (sub issuer : String) : Bool × Server :=
  if loaded.oidcSub ≠ some sub ∧
      ∃ user ∈ s.accounts.users, user.id ≠ loaded.id ∧ user.oidcSub = some sub then (false, s)
  else
    let changed := { loaded with oidcSub := some sub, oidcIssuer := some issuer }
    (true, { s with accounts := s.accounts.commit loaded changed .authSsoLinked })

def unlinkIdentity (s : Server) (loaded : AdminUser) : Server :=
  let changed := { loaded with oidcSub := none, oidcIssuer := none }
  { s with accounts := s.accounts.commit loaded changed .authSsoUnlinked }

end Server

variable (d : Deployment)

def perform (w : ℕ) : (operation : Op) → Draw → Server →
    Option (Except Fault (Reply operation) × Server)
  | .account operation, draw, s =>
    (Accounts.perform d.accounts w operation draw.account s.accounts).map fun result ↦
      (result.1, { s with accounts := result.2 })
  | .receive request, _, s => (s.receive w request).map fun t ↦ (.ok (), t)
  | .metadata, draw, s => some (.ok draw.text, s)
  | .tokenUrlsafe use bytes, draw, s => (s.draw w use bytes draw.text).map fun t ↦ (.ok draw.text, t)
  | .setState state stored, _, s => some (.ok (), s.setState state stored)
  | .getdelState state _, _, s => some (.ok (s.states state), s.delState state)
  | .fetchClaims _ _ _, draw, s => some (.ok (draw.sub.map fun sub ↦ ⟨sub, d.issuer⟩), s)
  | .getUserByOidcSub sub issuer, _, s => some (.ok (s.getUserByOidcSub sub issuer), s)
  | .linkIdentity loaded sub issuer, _, s =>
    some (.ok (s.linkIdentity loaded sub issuer).1, (s.linkIdentity loaded sub issuer).2)
  | .unlinkIdentity loaded, _, s => some (.ok (), s.unlinkIdentity loaded)
  | .setLoginCookie browser, _, s => some (.ok (), { s with cookies := (w, browser) :: s.cookies })

/-- What happens without a request: to the accounts, or a state reaches the end of its life. -/
inductive Change
  | account (change : Accounts.Change)
  | expireState (state : String)

def environment : Change → Server → Option Server
  | .account change, s => (Accounts.environment change s.accounts).map fun accounts ↦
      { s with accounts := accounts }
  | .expireState state, s => some (s.delState state)

/-- The requests run over the shared state and its journal. -/
def semantics : Semantics Op Reply Fault (Recorded Op Reply Fault Server) Draw Change :=
  Semantics.recorded ⟨perform d, environment⟩

end OpenWhistle.Sso
