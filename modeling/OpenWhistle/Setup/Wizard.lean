import OpenWhistle.Accounts.Users
import OpenWhistle.Foundation.Interleaving
import OpenWhistle.Foundation.Text
import OpenWhistle.Usernames.Creation

/-!
# The setup wizard

The first account is made on a form that asks for a token from the log. The form checks whether setup
is complete, counts an attempt, compares the token, and validates. Then it takes an advisory lock that
ends with the transaction, checks once more, and writes the account, its audit entry and the completed
mark in that transaction. The database works under READ COMMITTED: a statement sees what was committed
when it began. A session keeps the row of the setup it has loaded, and looks at the stored one again
only where it is told to.

Whether an attempt is granted, fresh tokens, ids and hashes, and the time are drawn. Histories are the
tokens that each request has compared, and the accounts that setup has made.
-/

set_option autoImplicit false
set_option relaxedAutoImplicit false

namespace OpenWhistle.Setup

open Interleaving Accounts

structure SetupStatus where
  completed : Bool
  completedAt : Option ℕ
  deriving DecidableEq

/-- The audit entry of a new account. -/
structure AdminCreated where
  adminId : UserId
  username : String
  role : AdminRole
  targetOrg : ℕ
  deriving DecidableEq

/-- What a transaction has written and not committed. -/
structure Writes where
  organisation : Option ℕ
  account : Option AdminUser
  entry : Option AdminCreated
  setup : Option SetupStatus
  telemetry : Bool
  deriving DecidableEq

def Writes.empty : Writes := ⟨none, none, none, none, false⟩

/-- An account that setup has made: the request, and the stored token and the supplied one that it had
compared. -/
structure Made where
  request : ℕ
  account : AdminUser
  compared : Option (Option String × String)
  deriving DecidableEq

inductive Fault
  | integrityError
  deriving DecidableEq

inductive Op
  | setup (populateExisting : Bool)
  | claimSetupTokenAttempt
  | getToken (supplied : String)
  | resetSetupTokenFailures
  | setToken (token : String)
  | setTokenNx
  | clock
  | lock
  | defaultOrg
  | insertAdmin (username : String) (totpSecret : String) (orgId : ℕ)
  | log (entry : AdminCreated)
  | complete
  | enableTelemetry
  | commit
  | rollback
  | deleteToken

@[reducible] def Reply : Op → Type
  | .setup _ => Option SetupStatus
  | .claimSetupTokenAttempt => Bool
  | .getToken _ => Option String
  | .resetSetupTokenFailures => Unit
  | .setToken _ => Unit
  | .setTokenNx => Unit
  | .clock => ℕ
  | .lock => Unit
  | .defaultOrg => ℕ
  | .insertAdmin _ _ _ => AdminUser
  | .log _ => Unit
  | .complete => Unit
  | .enableTelemetry => Unit
  | .commit => Unit
  | .rollback => Unit
  | .deleteToken => Unit

structure Draw where
  granted : Bool
  now : ℕ
  id : ℕ
  token : String
  passwordHash : String

structure Instance where
  setup : Option SetupStatus
  organisation : Option ℕ
  accounts : List AdminUser
  audit : List AdminCreated
  telemetry : Bool
  /-- The holder of the advisory lock. -/
  lock : Option ℕ
  writes : ℕ → Writes
  /-- The row of the setup that a session has loaded. -/
  loaded : ℕ → Option SetupStatus
  token : Option String
  /-- The stored token, and the supplied one that a request has compared with it. -/
  compared : ℕ → Option (Option String × String)
  made : List Made

namespace Instance

variable (s : Instance) (w : ℕ)

/-- The setup row as a transaction sees it. -/
def setupSeen : Option SetupStatus := (s.writes w).setup.or s.setup

/-- SELECT of the setup row. A row that the session has loaded stays as it was loaded, unless the
statement populates it again. -/
def readSetup (populateExisting : Bool) : Option SetupStatus :=
  match s.setupSeen w with
  | none => none
  | some row => if populateExisting then some row else some ((s.loaded w).getD row)

def write (change : Writes → Writes) : Instance :=
  { s with writes := Function.update s.writes w (change (s.writes w)) }

/-- ROLLBACK: the lock is released, and the rows of the session expire. -/
def ended : Instance :=
  { s with
    lock := if s.lock = some w then none else s.lock
    writes := Function.update s.writes w Writes.empty
    loaded := Function.update s.loaded w none }

/-- COMMIT, with which the rows of the session do not expire. -/
def committed : Instance :=
  { s.ended w with
    loaded := s.loaded
    setup := s.setupSeen w
    organisation := (s.writes w).organisation.or s.organisation
    accounts := (s.writes w).account.toList ++ s.accounts
    audit := (s.writes w).entry.toList ++ s.audit
    telemetry := (s.writes w).telemetry || s.telemetry
    made := ((s.writes w).account.map fun account ↦ ⟨w, account, s.compared w⟩).toList ++ s.made }

end Instance

/-- The effect of a step. -/
def perform (w : ℕ) : (operation : Op) → Draw → Instance →
    Option (Except Fault (Reply operation) × Instance)
  | .setup populateExisting, _, s =>
    some (.ok (s.readSetup w populateExisting), { s with
      loaded := Function.update s.loaded w (s.readSetup w populateExisting) })
  | .claimSetupTokenAttempt, draw, s => some (.ok draw.granted, s)
  | .getToken supplied, _, s =>
    some (.ok s.token, { s with
      compared := Function.update s.compared w (some (s.token, supplied)) })
  | .resetSetupTokenFailures, _, s => some (.ok (), s)
  | .setToken token, _, s => some (.ok (), { s with token := some token })
  | .setTokenNx, draw, s => some (.ok (), { s with token := s.token.or (some draw.token) })
  | .clock, draw, s => some (.ok draw.now, s)
  | .lock, _, s =>
    if s.lock = none ∨ s.lock = some w then some (.ok (), { s with lock := some w }) else none
  | .defaultOrg, draw, s =>
    match (s.writes w).organisation.or s.organisation with
    | some org => some (.ok org, s)
    | none => some (.ok draw.id, s.write w fun writes ↦ { writes with organisation := some draw.id })
  | .insertAdmin username totpSecret orgId, draw, s =>
    if username ∈ s.accounts.map AdminUser.username then some (.error .integrityError, s)
    else
      let admin : AdminUser :=
        { id := draw.id
          username := username
          passwordHash := some draw.passwordHash
          totpSecret := totpSecret
          totpEnabled := true
          role := .superadmin
          orgId := some orgId }
      some (.ok admin, s.write w fun writes ↦ { writes with account := some admin })
  | .log entry, _, s => some (.ok (), s.write w fun writes ↦ { writes with entry := some entry })
  | .complete, draw, s =>
    some (.ok (), s.write w fun writes ↦ { writes with setup := some ⟨true, some draw.now⟩ })
  | .enableTelemetry, _, s => some (.ok (), s.write w fun writes ↦ { writes with telemetry := true })
  | .commit, _, s => some (.ok (), s.committed w)
  | .rollback, _, s => some (.ok (), s.ended w)
  | .deleteToken, _, s => some (.ok (), { s with token := none })

/-- The stored token goes by itself, as when the store loses its keys. -/
inductive Change
  | loseToken

def environment : Change → Instance → Option Instance
  | .loseToken, s => some { s with token := none }

def semantics : Semantics Op Reply Fault Instance Draw Change where
  perform := perform
  environment := environment

/-! ### The routes -/

abbrev Handler (α : Type) := Program Op Reply Fault α

abbrev call (operation : Op) : Handler (Reply operation) := Program.call operation

inductive Answer
  | page
  | form (fieldErrors : List (String × String)) (status : ℕ)
  | redirect (address : String) (status : ℕ)
  deriving DecidableEq

structure Form where
  username : String
  password : String
  passwordConfirm : String
  totpSecret : String
  totpCode : String
  setupToken : String
  telemetry : String
  deriving DecidableEq

inductive Request
  | setupGet
  | setupPost (form : Form)
  deriving DecidableEq

structure Config where
  deployment : Deployment
  /-- `SETUP_TOKEN`, where it is configured. -/
  setupToken : Option String

def isSetupComplete : Handler Bool := do
  let setup ← call (.setup true)
  return match setup with
    | none => false
    | some status => status.completed

def ensureSetupToken (config : Config) : Handler Unit :=
  match config.setupToken with
  | some token => call (.setToken token)
  | none => call .setTokenNx

/-- `compare_digest` of the texts, of which neither is empty. -/
def sameToken (stored : Option String) (supplied : String) : Bool :=
  match stored with
  | none => false
  | some stored => decide (stored ≠ "") && decide (supplied ≠ "") && decide (stored = supplied)

def checkSetupToken (supplied : String) : Handler Bool := do
  let stored ← call (.getToken supplied)
  return sameToken stored supplied

/-- `_TOTP_SECRET.fullmatch`. -/
@[irreducible] def isTotpSecret (secret : String) : Bool :=
  decide (secret.length = 32) &&
    secret.toList.all fun c ↦ c.isUpper || (decide ('2' ≤ c) && decide (c ≤ '7'))

/-- What is wrong with the fields of the form. -/
@[irreducible] def formErrors (config : Config) (form : Form) (now : ℕ) : List (String × String) :=
  (if (Usernames.validateUsername form.username).isSome then []
    else [("username", "wizard.error.username")]) ++
  (if validatePassword form.password then [] else [("password", "wizard.error.password")]) ++
  (if form.password = form.passwordConfirm then []
    else [("password_confirm", "wizard.error.password_confirm")]) ++
  (if isTotpSecret form.totpSecret &&
      verifyTotp config.deployment form.totpSecret form.totpCode now then []
    else [("totp_code", "wizard.error.totp_code")])

/-- The answer about the installation count: a yes is stored, and nothing else is. -/
def rememberTelemetry (telemetry : Bool) : Handler Unit :=
  if telemetry then call .enableTelemetry else return ()

/-- The account, its audit entry, the mark and the answer, under the lock. -/
def writeAdmin (username totpSecret : String) (telemetry : Bool) : Handler Unit := do
  let org ← call .defaultOrg
  let admin ← call (.insertAdmin username totpSecret org)
  call (.log ⟨admin.id, admin.username, admin.role, org⟩)
  let _ ← call (.setup false)
  call .complete
  rememberTelemetry telemetry

def createInitialAdmin (username totpSecret : String) (telemetry : Bool) : Handler Bool := do
  call .lock
  let complete ← isSetupComplete
  if complete then do
    call .rollback
    return false
  else do
    writeAdmin username totpSecret telemetry
    call .commit
    return true

def setupGet (config : Config) : Handler Answer := do
  let complete ← isSetupComplete
  if complete then return .redirect "/admin/login" 302
  else do
    ensureSetupToken config
    return .page

/-- The form, once its fields are right. -/
def finishSetup (form : Form) : Handler Answer := do
  let created ← createInitialAdmin (Text.strip form.username) form.totpSecret (form.telemetry = "1")
  if created then do
    call .deleteToken
    return .redirect "/admin/login" 302
  else return .redirect "/admin/login" 302

def setupPost (config : Config) (form : Form) : Handler Answer := do
  let complete ← isSetupComplete
  if complete then return .redirect "/admin/login" 302
  else do
    let granted ← call .claimSetupTokenAttempt
    if granted then do
      let right ← checkSetupToken (Text.strip form.setupToken)
      if right then do
        call .resetSetupTokenFailures
        let now ← call .clock
        if formErrors config form now ≠ [] then return .form (formErrors config form now) 422
        else finishSetup form
      else return .form [("setup_token", "wizard.error.setup_token")] 403
    else return .form [("setup_token", "wizard.error.setup_token_locked")] 429

/-- `get_db`: what a request has not committed is rolled back, however the request ends. -/
def withSession (route : Handler Answer) : Handler Answer := route.ensuring .rollback

def handler (config : Config) : Request → Handler Answer
  | .setupGet => withSession (setupGet config)
  | .setupPost form => withSession (setupPost config form)

abbrev Step := Event Request Fault Draw Change

abbrev Replicas := System Instance (Handler Answer)

/-- A database in which setup is not complete. -/
def start (setup : Option SetupStatus) (organisation : Option ℕ) (accounts : List AdminUser)
    (audit : List AdminCreated) (telemetry : Bool) (token : Option String) : Replicas where
  shared :=
    { setup := setup
      organisation := organisation
      accounts := accounts
      audit := audit
      telemetry := telemetry
      lock := none
      writes := fun _ ↦ Writes.empty
      loaded := fun _ ↦ none
      token := token
      compared := fun _ ↦ none
      made := [] }
  worker := fun _ ↦ none

end OpenWhistle.Setup
