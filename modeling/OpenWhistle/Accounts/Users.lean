import Mathlib.Data.Nat.Notation

/-!
# Accounts, their factors, and who may change whom

The rows of the admin users, the session tokens with the claims they carry, and the pure parts of
the services: the password policy, the two factor checks, the lifetime of a token, the rules on who
may manage an account. The primitives of other packages (bcrypt, the time-based codes) and the
settings are fields of a `Deployment`.

The unit of work of a request writes a changed row back column by column: a column that the request
left as it had read it stays as it is committed by then.
-/

set_option autoImplicit false
set_option relaxedAutoImplicit false

namespace OpenWhistle.Accounts

abbrev UserId := ℕ

inductive AdminRole
  | caseManager
  | admin
  | superadmin
  deriving DecidableEq

/-- The role of a form field. -/
def adminRole : String → Option AdminRole
  | "case_manager" => some .caseManager
  | "admin" => some .admin
  | "superadmin" => some .superadmin
  | _ => none

structure AdminUser where
  id : UserId
  username : String
  passwordHash : Option String := none
  totpSecret : String
  totpEnabled : Bool := false
  role : AdminRole
  isActive : Bool := true
  mustChangePassword : Bool := false
  ldapUsername : Option String := none
  oidcSub : Option String := none
  oidcIssuer : Option String := none
  orgId : Option ℕ := none
  createdById : Option UserId := none
  lastLoginAt : Option ℕ := none
  deriving DecidableEq

/-- The admin of an organisation, under its number. -/
def adminOf (org : ℕ) : AdminUser where
  id := org
  username := "admin"
  totpSecret := ""
  role := .admin
  orgId := some org

/-- A column that a request changed is written; one that it left alone stays as it is committed. -/
def written {α : Type} [DecidableEq α] (loaded changed committed : α) : α :=
  if changed = loaded then committed else changed

/-- The committed row after a request has flushed its changes to the row it had loaded. -/
def AdminUser.flush (loaded changed committed : AdminUser) : AdminUser where
  id := committed.id
  username := written loaded.username changed.username committed.username
  passwordHash := written loaded.passwordHash changed.passwordHash committed.passwordHash
  totpSecret := written loaded.totpSecret changed.totpSecret committed.totpSecret
  totpEnabled := written loaded.totpEnabled changed.totpEnabled committed.totpEnabled
  role := written loaded.role changed.role committed.role
  isActive := written loaded.isActive changed.isActive committed.isActive
  mustChangePassword :=
    written loaded.mustChangePassword changed.mustChangePassword committed.mustChangePassword
  ldapUsername := written loaded.ldapUsername changed.ldapUsername committed.ldapUsername
  oidcSub := written loaded.oidcSub changed.oidcSub committed.oidcSub
  oidcIssuer := written loaded.oidcIssuer changed.oidcIssuer committed.oidcIssuer
  orgId := written loaded.orgId changed.orgId committed.orgId
  createdById := written loaded.createdById changed.createdById committed.createdById
  lastLoginAt := written loaded.lastLoginAt changed.lastLoginAt committed.lastLoginAt

/-- The settings of an instance, and what it takes from other packages. -/
structure Deployment where
  accessTokenExpireMinutes : ℕ := 60
  sessionMaxHours : ℕ := 12
  ldapEnabled : Bool := false
  demoMode : Bool := false
  multiTenancyEnabled : Bool := false
  /-- `bcrypt.checkpw` on a password of at most 72 bytes. -/
  checkpw : (plain hashed : String) → Bool
  /-- `bcrypt.hashpw` with a salt. -/
  hashpw : (salt : ℕ) → (password : String) → String
  /-- The code of a secret at a time, with the window of one step. -/
  verifyCode : (secret code : String) → (now : ℕ) → Bool

/-! ### Passwords and codes -/

def bcryptMaxBytes : ℕ := 72

def minPasswordLength : ℕ := 12

def validatePassword (password : String) : Bool :=
  decide (minPasswordLength ≤ password.length) && decide (password.utf8ByteSize ≤ bcryptMaxBytes)

def verifyPassword (d : Deployment) (plain hashed : String) : Bool :=
  decide (plain.utf8ByteSize ≤ bcryptMaxBytes) && d.checkpw plain hashed

/-- Six ASCII digits and nothing else. -/
def isTotpCode (code : String) : Bool :=
  decide (code.length = 6) && code.toList.all Char.isDigit

def verifyTotp (d : Deployment) (secret code : String) (now : ℕ) : Bool :=
  isTotpCode code && d.verifyCode secret code now

def demoTotpSecret : String := "JBSWY3DPEHPK3PXP"

def demoUsernames : List String := ["demo", "case_manager", "demo2"]

def verifyDemoTotp (code username totpSecret : String) : Bool :=
  code == "000000" && demoUsernames.contains username && totpSecret == demoTotpSecret

def demoAccount (d : Deployment) (user : AdminUser) : Bool :=
  d.demoMode && demoUsernames.contains user.username

/-- The first error of the form for a new password that needs no credential check. -/
def newPasswordError (current new confirm : String) : Option (String × String) :=
  if current.isEmpty then some ("current_password", "account.password.error.current_required")
  else if new ≠ confirm then some ("confirm_password", "account.password.error.mismatch")
  else if validatePassword new = false then some ("new_password", "account.password.error.policy")
  else if new = current then some ("new_password", "account.password.error.unchanged")
  else none

/-! ### Session tokens -/

/-- A session token: a signed set of claims. The signature keeps everybody else from making one, and
`jti` makes no two of them equal. -/
structure Token where
  sub : UserId
  exp : ℕ
  iat : ℕ
  authTime : Option ℕ := none
  jti : ℕ
  deriving DecidableEq

/-- When the login of a session took place; old tokens carry only `iat`. -/
def Token.sessionStartedAt (token : Token) : ℕ :=
  token.authTime.getD token.iat

/-- The token has not expired, and its login is within the absolute limit. -/
def Token.isCurrent (d : Deployment) (token : Token) (now : ℕ) : Bool :=
  decide (now < token.exp) && decide (now - token.sessionStartedAt ≤ d.sessionMaxHours * 3600)

/-- The claims of a new token. With the time of an earlier login it lives no longer than the session
of that login may. -/
def accessToken (d : Deployment) (user : UserId) (authTime : Option ℕ) (now jti : ℕ) : Token where
  sub := user
  exp := min (now + d.accessTokenExpireMinutes * 60)
    (authTime.getD now + d.sessionMaxHours * 3600)
  iat := now
  authTime := some (authTime.getD now)
  jti := jti

/-! ### Who may change whom -/

/-- A caller confined to an organisation addresses a row outside it. -/
def outsideOrg (d : Deployment) (caller : AdminUser) (targetOrg : Option ℕ) : Bool :=
  d.multiTenancyEnabled && decide (caller.role ≠ .superadmin) && decide (targetOrg ≠ caller.orgId)

/-- The status a change to another account is refused with, if it is. -/
def mayNotManage (d : Deployment) (caller target : AdminUser) : Option ℕ :=
  if outsideOrg d caller target.orgId then some 404
  else if target.role = .superadmin ∧ caller.role ≠ .superadmin then some 403
  else if demoAccount d target then some 403
  else none

/-- Accounts that can administer the instance. -/
def activePrivilegedAdmins (users : List AdminUser) : ℕ :=
  users.countP fun user ↦
    (decide (user.role = .admin) || decide (user.role = .superadmin)) && user.isActive

end OpenWhistle.Accounts
