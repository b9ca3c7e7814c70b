import OpenWhistle.Foundation.Interleaving
import OpenWhistle.Foundation.Descent
import OpenWhistle.Accounts.Users

/-!
# What the sign-in, session and account requests share

The admin users and their audit log in the database; the session keys, the waiting logins and the
used codes in Redis. A session key is named by an HMAC of its token, so it stands here under the
token itself. Every operation is atomic: one Redis command or script, one read of a row, one commit.
A commit flushes the columns its request changed and appends its audit entries.

Session tokens are random. A draw never repeats one that was issued, nor one that somebody sent; and
nobody sends a token that was issued but not yet handed to a browser.

The rest is history, which no operation reads: who made which session token from which, what was
stored and handed out, who ended a session, what each sweep found; and for every request and every
waiting login the factors that it has checked, with the length of the audit log at the read of the
row they were checked against.
-/

set_option autoImplicit false
set_option relaxedAutoImplicit false

namespace OpenWhistle.Accounts

open Interleaving Descent

/-- The name of a waiting login: a random value in the page or in a cookie. -/
abbrev TempToken := ℕ

/-- The requests. `cookie` is the value of the session cookie. -/
inductive Request
  | login (username password : String)
  | loginMfa (tempToken : TempToken) (totpCode : String)
  | mfaSetup (tempToken : TempToken) (totpCode : String)
  | logout (cookie : Option Token)
  | sessionTtl (cookie : Option Token)
  | sessionRefresh (cookie : Option Token)
  | accountPassword (cookie : Option Token)
      (currentPassword newPassword confirmPassword totpCode : String)
  | resetTotp (cookie : Option Token) (target : UserId)
  | deactivate (cookie : Option Token) (target : UserId)
  | reactivate (cookie : Option Token) (target : UserId)
  | changeRole (cookie : Option Token) (target : UserId) (role : String)
  deriving DecidableEq

/-- The session cookie of a request. -/
def Request.cookie : Request → Option Token
  | .login _ _ => none
  | .loginMfa _ _ => none
  | .mfaSetup _ _ => none
  | .logout cookie => cookie
  | .sessionTtl cookie => cookie
  | .sessionRefresh cookie => cookie
  | .accountPassword cookie _ _ _ _ => cookie
  | .resetTotp cookie _ => cookie
  | .deactivate cookie _ => cookie
  | .reactivate cookie _ => cookie
  | .changeRole cookie _ _ => cookie

inductive AuditAction
  | adminCreated
  | authLogin
  | authTotpSetup
  | authPasswordChanged
  | adminTotpReset (passwordReset : Bool)
  | adminDeactivated
  | adminReactivated
  | adminRoleChanged
  | authSsoLinked
  | authSsoUnlinked
  deriving DecidableEq

/-- An entry of the audit log with the account it is about. -/
structure AuditEntry where
  account : UserId
  action : AuditAction
  deriving DecidableEq

/-! ### Sessions -/

/-- One run of the script that ends the sessions of an account: its arguments, the sessions stored
until then, the requests received until then, and the length of the audit log. -/
structure Sweep where
  account : UserId
  kept : Option Token
  before : List Token
  received : ℕ → Option Request
  audited : ℕ

/-- The session keys, and their history. -/
structure Sessions where
  /-- The user of a session key; `none` where the key does not exist. -/
  user : Token → Option UserId
  /-- The request of a worker, once the server has received it. -/
  received : ℕ → Option Request
  presented : List Token
  issued : List Token
  stored : List Token
  handed : List Token
  /-- The worker that made a token. -/
  owner : Token → Option ℕ
  /-- The session a token was made to succeed. -/
  parent : Token → Option Token
  /-- The worker whose DEL removed a session. -/
  endedBy : Token → Option ℕ
  sweeps : List Sweep

namespace Sessions

/-- A request arrives with its cookie. -/
def receive (s : Sessions) (w : ℕ) (request : Request) : Option Sessions :=
  if ∀ token ∈ request.cookie, token ∈ s.issued → token ∈ s.handed then
    some { s with
      received := Function.update s.received w (some request)
      presented := request.cookie.toList ++ s.presented }
  else none

/-- A token is made, to succeed the session its request came with or to begin a new one. -/
def issue (s : Sessions) (w : ℕ) (token : Token) (succeeds : Bool) : Option Sessions :=
  if token ∈ s.issued ∨ token ∈ s.presented then none
  else some { s with
    issued := token :: s.issued
    owner := Function.update s.owner token (some w)
    parent := Function.update s.parent token
      (if succeeds then (s.received w).bind Request.cookie else none) }

/-- SET of a session key. -/
def store (s : Sessions) (user : UserId) (token : Token) : Sessions where
  user := Function.update s.user token (some user)
  received := s.received
  presented := s.presented
  issued := s.issued
  stored := token :: s.stored
  handed := s.handed
  owner := s.owner
  parent := s.parent
  endedBy := s.endedBy
  sweeps := s.sweeps

/-- DEL of a session key. -/
def delete (s : Sessions) (w : ℕ) (token : Token) : Sessions :=
  if s.user token = none then s
  else { s with
    user := Function.update s.user token none
    endedBy := Function.update s.endedBy token (some w) }

/-- A session key expires. -/
def expire (s : Sessions) (token : Token) : Sessions where
  user := Function.update s.user token none
  received := s.received
  presented := s.presented
  issued := s.issued
  stored := s.stored
  handed := s.handed
  owner := s.owner
  parent := s.parent
  endedBy := s.endedBy
  sweeps := s.sweeps

/-- The script on the session keys: every session of the account but the kept one ends. -/
def sweep (s : Sessions) (account : UserId) (keep : Option Token) (audited : ℕ) : Sessions where
  user token := if s.user token = some account ∧ keep ≠ some token then none else s.user token
  received := s.received
  presented := s.presented
  issued := s.issued
  stored := s.stored
  handed := s.handed
  owner := s.owner
  parent := s.parent
  endedBy := s.endedBy
  sweeps := s.sweeps ++ [⟨account, keep, s.stored, s.received, audited⟩]

/-- The token leaves in the cookie of a response. -/
def hand (s : Sessions) (token : Token) : Sessions where
  user := s.user
  received := s.received
  presented := s.presented
  issued := s.issued
  stored := s.stored
  handed := token :: s.handed
  owner := s.owner
  parent := s.parent
  endedBy := s.endedBy
  sweeps := s.sweeps

end Sessions

/-! ### Sign-ins -/

/-- What a first factor was checked against: the local password, or a directory. -/
inductive FirstFactor
  | password
  | directory
  deriving DecidableEq

/-- The factors a sign-in has checked: the first one and the code, each with the length of the audit
log when the row was read that it was checked against. -/
structure Evidence where
  first : Option (FirstFactor × ℕ) := none
  second : Option ℕ := none
  deriving DecidableEq

/-- The evidence a request has taken up for an account, and the number of sweeps until then. -/
structure Checks where
  evidence : Evidence := {}
  sweeps : ℕ := 0

/-- The waiting logins, and the history of the sign-ins. -/
structure SignIns where
  totpPending : TempToken → Option UserId
  totpSetup : TempToken → Option UserId
  /-- What a request has checked of an account. -/
  checks : ℕ → UserId → Checks
  /-- The first factor behind a login that waits for its code. -/
  pendingCheck : TempToken → Option (FirstFactor × ℕ)
  /-- The first factor behind a login that waits for its enrolment. -/
  setupCheck : TempToken → Option (FirstFactor × ℕ)
  /-- What a session was stored on. -/
  evidence : Token → Evidence

structure Server where
  now : ℕ
  users : List AdminUser
  auditLog : List AuditEntry
  totpUsed : List (UserId × String)
  sessions : Sessions
  signIns : SignIns

/-- A call that leaves what is modelled here alone but may raise: the rate limiter giving an attempt
back or counting a failed password. -/
inductive Limiter
  | releaseAdminAttempt
  | resetAdminLoginAttempts
  | passwordFailed
  deriving DecidableEq

/-- The atomic operations of the handlers. `commit` carries the row its request loaded, the row as
the request left it, and the audit entry. -/
inductive Op
  | receive (request : Request)
  | claimAdminAttempt (username : String)
  | limiter (call : Limiter)
  | clock
  | authenticateLdap (username password : String)
  | getUserByLdapUsername (ldapUsername : String)
  | usernameTaken (username : String)
  | provisionLdapUser (ldapUsername : String)
  | getUserByUsername (username : String)
  | getUserById (id : UserId)
  | countActivePrivilegedAdmins
  | commit (loaded changed : AdminUser) (action : AuditAction)
  | tokenUrlsafe
  | randomBase32
  | temporaryPassword
  | hashPassword (password : String)
  | createAccessToken (user : UserId) (authTime : Option ℕ)
  | setSession (user : UserId) (token : Token)
  | existsSession (token : Token)
  | deleteSession (token : Token)
  | sweep (user : UserId) (keep : Option Token)
  | setTotpPending (tempToken : TempToken) (user : UserId)
  | getdelTotpPending (tempToken : TempToken)
  | setTotpSetup (tempToken : TempToken) (user : UserId)
  | getdelTotpSetup (tempToken : TempToken)
  | setTotpUsed (user : UserId) (code : String)
  | setCookie (token : Token)
  deriving DecidableEq

/-- What an operation answers with. -/
@[reducible] def Reply : Op → Type
  | .receive _ => Unit
  | .claimAdminAttempt _ => Bool
  | .limiter _ => Unit
  | .clock => ℕ
  | .authenticateLdap _ _ => Option String
  | .getUserByLdapUsername _ => Option AdminUser
  | .usernameTaken _ => Bool
  | .provisionLdapUser _ => AdminUser
  | .getUserByUsername _ => Option AdminUser
  | .getUserById _ => Option AdminUser
  | .countActivePrivilegedAdmins => ℕ
  | .commit _ _ _ => Unit
  | .tokenUrlsafe => TempToken
  | .randomBase32 => String
  | .temporaryPassword => String
  | .hashPassword _ => String
  | .createAccessToken _ _ => Token
  | .setSession _ _ => Unit
  | .existsSession _ => Bool
  | .deleteSession _ => Bool
  | .sweep _ _ => Unit
  | .setTotpPending _ _ => Unit
  | .getdelTotpPending _ => Option UserId
  | .setTotpSetup _ _ => Unit
  | .getdelTotpSetup _ => Option UserId
  | .setTotpUsed _ _ => Bool
  | .setCookie _ => Unit

/-- What the environment draws for an operation: random values, and the answers of systems that are
not modelled. -/
structure Draw where
  random : ℕ := 0
  text : String := ""
  allowed : Bool := true
  directory : Option String := none
  orgId : Option ℕ := none

/-- What can go wrong with an operation: its store is unreachable or refuses. -/
inductive Fault
  | unavailable
  deriving DecidableEq

namespace Server

/-- The request has read the row of an account that a first factor is checked against. -/
def checkFirst (s : Server) (w : ℕ) (factor : FirstFactor) (account : UserId) : SignIns :=
  { s.signIns with
    checks := Function.update s.signIns.checks w (Function.update (s.signIns.checks w) account
      ⟨⟨some (factor, s.auditLog.length), none⟩, s.sessions.sweeps.length⟩) }

/-- The request goes on with a login that was waiting. -/
def takeUp (s : Server) (w : ℕ) (first : Option (FirstFactor × ℕ)) (account : UserId) :
    ℕ → UserId → Checks :=
  Function.update s.signIns.checks w (Function.update (s.signIns.checks w) account
    ⟨⟨first, none⟩, s.sessions.sweeps.length⟩)

/-- The request has read the row of an account that a code is checked against. -/
def checkSecond (s : Server) (w : ℕ) (account : UserId) : SignIns :=
  { s.signIns with
    checks := Function.update s.signIns.checks w (Function.update (s.signIns.checks w) account
      { s.signIns.checks w account with
        evidence := { (s.signIns.checks w account).evidence with
          second := some s.auditLog.length } }) }

/-- A read of the row of an account for a first factor. -/
def readFirst (s : Server) (w : ℕ) (factor : FirstFactor) (found : Option AdminUser) :
    Option (Except Fault (Option AdminUser) × Server) :=
  match found with
  | none => some (.ok none, s)
  | some user => some (.ok (some user), { s with signIns := s.checkFirst w factor user.id })

/-- The row of a directory user that signs in for the first time. -/
def provisioned (draw : Draw) (ldapUsername : String) : AdminUser where
  id := draw.random
  username := ldapUsername
  totpSecret := draw.text
  role := .caseManager
  ldapUsername := some ldapUsername
  orgId := draw.orgId

/-- Provisioning a directory user, under an id no row has. -/
def provision (s : Server) (w : ℕ) (draw : Draw) (ldapUsername : String) :
    Option (Except Fault AdminUser × Server) :=
  let user := provisioned draw ldapUsername
  if (s.users.find? fun other ↦ other.id = user.id) = none then
    some (.ok user, { s with
      users := s.users ++ [user]
      auditLog := s.auditLog ++ [⟨user.id, .adminCreated⟩]
      signIns := s.checkFirst w .directory user.id })
  else none

/-- The row of a user. -/
def userById (s : Server) (id : UserId) : Option AdminUser :=
  s.users.find? fun user ↦ user.id = id

/-- The flush and COMMIT of a request that changed one row. -/
def commit (s : Server) (loaded changed : AdminUser) (action : AuditAction) : Server :=
  { s with
    users := s.users.map fun user ↦
      if user.id = loaded.id then AdminUser.flush loaded changed user else user
    auditLog := s.auditLog ++ [⟨loaded.id, action⟩] }

/-- SET of a session key. A session that begins rests on what its request has checked. -/
def setSession (s : Server) (w : ℕ) (user : UserId) (token : Token) : Server :=
  { s with
    sessions := s.sessions.store user token
    signIns := if s.sessions.parent token = none then
      { s.signIns with
        evidence := Function.update s.signIns.evidence token
          (s.signIns.checks w token.sub).evidence }
      else s.signIns }

/-- The sweep script: the sessions and the waiting logins of an account end. -/
def sweep (s : Server) (account : UserId) (keep : Option Token) : Server :=
  { s with
    sessions := s.sessions.sweep account keep s.auditLog.length
    signIns := { s.signIns with
      totpPending := fun tempToken ↦ if s.signIns.totpPending tempToken = some account then none
        else s.signIns.totpPending tempToken
      totpSetup := fun tempToken ↦ if s.signIns.totpSetup tempToken = some account then none
        else s.signIns.totpSetup tempToken } }

/-- SET of a login that waits for its code. -/
def setTotpPending (s : Server) (w : ℕ) (tempToken : TempToken) (user : UserId) : Server :=
  { s with signIns := { s.signIns with
    totpPending := Function.update s.signIns.totpPending tempToken (some user)
    pendingCheck := Function.update s.signIns.pendingCheck tempToken
      (s.signIns.checks w user).evidence.first } }

/-- GETDEL of a login that waits for its code. -/
def getdelTotpPending (s : Server) (w : ℕ) (tempToken : TempToken) : Server :=
  match s.signIns.totpPending tempToken with
  | none => s
  | some user => { s with signIns := { s.signIns with
      totpPending := Function.update s.signIns.totpPending tempToken none
      checks := s.takeUp w (s.signIns.pendingCheck tempToken) user } }

/-- SET of a login that waits for its enrolment. -/
def setTotpSetup (s : Server) (w : ℕ) (tempToken : TempToken) (user : UserId) : Server :=
  { s with signIns := { s.signIns with
    totpSetup := Function.update s.signIns.totpSetup tempToken (some user)
    setupCheck := Function.update s.signIns.setupCheck tempToken
      (s.signIns.checks w user).evidence.first } }

/-- GETDEL of a login that waits for its enrolment. -/
def getdelTotpSetup (s : Server) (w : ℕ) (tempToken : TempToken) : Server :=
  match s.signIns.totpSetup tempToken with
  | none => s
  | some user => { s with signIns := { s.signIns with
      totpSetup := Function.update s.signIns.totpSetup tempToken none
      checks := s.takeUp w (s.signIns.setupCheck tempToken) user } }

end Server

/-- What happens without a request: time passes, and keys reach the end of their life. A key may go
at any moment here, whatever its time to live. -/
inductive Change
  | tick (seconds : ℕ)
  | expireSession (token : Token)
  | expirePending (tempToken : TempToken)
  | expireSetup (tempToken : TempToken)
  | expireUsed (user : UserId) (code : String)

variable (d : Deployment)

/-- What the operations of the handlers do. -/
def perform (w : ℕ) : (operation : Op) → Draw → Server →
    Option (Except Fault (Reply operation) × Server)
  | .receive request, _, s =>
    (s.sessions.receive w request).map fun sessions ↦ (.ok (), { s with sessions := sessions })
  | .claimAdminAttempt _, draw, s => some (.ok draw.allowed, s)
  | .limiter _, _, s => some (.ok (), s)
  | .clock, _, s => some (.ok s.now, s)
  | .authenticateLdap _ _, draw, s => some (.ok draw.directory, s)
  | .getUserByLdapUsername ldapUsername, _, s => s.readFirst w .directory
      (s.users.find? fun user ↦ user.ldapUsername = some ldapUsername)
  | .usernameTaken username, _, s =>
    some (.ok (s.users.any fun user ↦ user.username.toLower == username.toLower), s)
  | .provisionLdapUser ldapUsername, draw, s => s.provision w draw ldapUsername
  | .getUserByUsername username, _, s => s.readFirst w .password
      (s.users.find? fun user ↦ user.username = username)
  | .getUserById id, _, s =>
    some (.ok (s.userById id), { s with signIns := s.checkSecond w id })
  | .countActivePrivilegedAdmins, _, s => some (.ok (activePrivilegedAdmins s.users), s)
  | .commit loaded changed action, _, s => some (.ok (), s.commit loaded changed action)
  | .tokenUrlsafe, draw, s => some (.ok draw.random, s)
  | .randomBase32, draw, s => some (.ok draw.text, s)
  | .temporaryPassword, draw, s => some (.ok draw.text, s)
  | .hashPassword password, draw, s => some (.ok (d.hashpw draw.random password), s)
  | .createAccessToken user authTime, draw, s =>
    (s.sessions.issue w (accessToken d user authTime s.now draw.random) authTime.isSome).map
      fun sessions ↦
        (.ok (accessToken d user authTime s.now draw.random), { s with sessions := sessions })
  | .setSession user token, _, s => some (.ok (), s.setSession w user token)
  | .existsSession token, _, s => some (.ok (s.sessions.user token).isSome, s)
  | .deleteSession token, _, s =>
    some (.ok (s.sessions.user token).isSome, { s with sessions := s.sessions.delete w token })
  | .sweep user keep, _, s => some (.ok (), s.sweep user keep)
  | .setTotpPending tempToken user, _, s => some (.ok (), s.setTotpPending w tempToken user)
  | .getdelTotpPending tempToken, _, s =>
    some (.ok (s.signIns.totpPending tempToken), s.getdelTotpPending w tempToken)
  | .setTotpSetup tempToken user, _, s => some (.ok (), s.setTotpSetup w tempToken user)
  | .getdelTotpSetup tempToken, _, s =>
    some (.ok (s.signIns.totpSetup tempToken), s.getdelTotpSetup w tempToken)
  | .setTotpUsed user code, _, s =>
    if (user, code) ∈ s.totpUsed then some (.ok false, s)
    else some (.ok true, { s with totpUsed := (user, code) :: s.totpUsed })
  | .setCookie token, _, s => some (.ok (), { s with sessions := s.sessions.hand token })

/-- What happens without a request. -/
def environment : Change → Server → Option Server
  | .tick seconds, s => some { s with now := s.now + seconds }
  | .expireSession token, s => some { s with sessions := s.sessions.expire token }
  | .expirePending tempToken, s => some { s with signIns := { s.signIns with
      totpPending := Function.update s.signIns.totpPending tempToken none } }
  | .expireSetup tempToken, s => some { s with signIns := { s.signIns with
      totpSetup := Function.update s.signIns.totpSetup tempToken none } }
  | .expireUsed user code, s => some { s with totpUsed := s.totpUsed.erase (user, code) }

def semantics : Semantics Op Reply Fault Server Draw Change where
  perform := perform d
  environment := environment

end OpenWhistle.Accounts
