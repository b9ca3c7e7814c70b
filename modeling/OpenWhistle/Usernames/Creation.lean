import OpenWhistle.Accounts.Users
import OpenWhistle.Foundation.CheckedInsert
import OpenWhistle.Foundation.Interleaving
import OpenWhistle.Foundation.Text

/-!
# The names of new accounts

An admin makes accounts on a form, and the first login of a user of the directory makes one too. Both
look whether there is an account of the same name in lower case, and insert the new one where there is
none; the database by itself refuses a second account of exactly the same name. Looking, inserting and
committing are steps of their own.

The name that is looked for is lowered in Python, and the stored names in the database. The letters
of both are parameters. The organisation of a new account, its id and its secrets are drawn. A name
that is taken is refused with the text of an exception, for which a fixed one stands here.
-/

set_option autoImplicit false
set_option relaxedAutoImplicit false

namespace OpenWhistle.Usernames

open Interleaving CheckedInsert Accounts

structure Spelling where
  python : Text.Letters
  database : Text.Letters

inductive Fault
  | multipleResultsFound
  | integrityError
  | dataError
  deriving DecidableEq

inductive Op
  | getUserByUsernameCi (username : String)
  | getByLdapUsername (username : String)
  | taken (username : String)
  | newAccountOrg
  | insertUser (username : String) (ldapUsername : Option String) (role : AdminRole)
      (orgId : Option ℕ) (createdById : Option UserId)
  | commit
  | close

@[reducible] def Reply : Op → Type
  | .getUserByUsernameCi _ => Option AdminUser
  | .getByLdapUsername _ => Option AdminUser
  | .taken _ => Option UserId
  | .newAccountOrg => Option ℕ
  | .insertUser _ _ _ _ _ => AdminUser
  | .commit => Unit
  | .close => Unit

structure Draw where
  id : UserId
  passwordHash : String
  totpSecret : String
  orgId : Option ℕ

structure Names where
  users : Table AdminUser
  /-- How many commits there were when a transaction looked for a name. -/
  checkedAt : ℕ → ℕ

/-- Two accounts that a unique index of the database does not allow beside each other. -/
def Clash (first second : AdminUser) : Prop :=
  first.username = second.username ∨
    (first.ldapUsername ≠ none ∧ first.ldapUsername = second.ldapUsername)

instance (first second : AdminUser) : Decidable (Clash first second) :=
  inferInstanceAs (Decidable (_ ∨ _))

section Semantics

variable (spelling : Spelling)

/-- The stored name of an account as the database lowers it. -/
def lowered (user : AdminUser) : String := spelling.database.lower user.username

namespace Names

variable (s : Names)

def called (name : String) : List AdminUser :=
  s.users.rows.filter fun user ↦ lowered spelling user = name

def getUserByUsernameCi (username : String) : Except Fault (Option AdminUser) :=
  scalarOneOrNone .multipleResultsFound
    (s.called spelling (spelling.python.lower (Text.strip username)))

def taken (username : String) : Option UserId :=
  ((s.called spelling (spelling.python.lower username)).head?).map AdminUser.id

/-- INSERT of an account. It waits for a transaction that has inserted the same name. -/
def insertUser (w : ℕ) (user : AdminUser) : Option (Except Fault AdminUser × Names) :=
  if 64 < user.username.length then some (.error .dataError, s)
  else if ∃ item ∈ s.users.pending, item.1 ≠ w ∧ Clash item.2 user then none
  else if ∃ other ∈ s.users.rows, Clash other user then some (.error .integrityError, s)
  else some (.ok user, { s with users := s.users.insert w user })

end Names

def perform (w : ℕ) : (operation : Op) → Draw → Names →
    Option (Except Fault (Reply operation) × Names)
  | .getUserByUsernameCi username, _, s =>
    some (s.getUserByUsernameCi spelling username, { s with
      checkedAt := Function.update s.checkedAt w s.users.commits })
  | .getByLdapUsername username, _, s =>
    some (scalarOneOrNone .multipleResultsFound
      (s.users.rows.filter fun user ↦ user.ldapUsername = some username), s)
  | .taken username, _, s =>
    some (.ok (s.taken spelling username), { s with
      checkedAt := Function.update s.checkedAt w s.users.commits })
  | .newAccountOrg, draw, s => some (.ok draw.orgId, s)
  | .insertUser username ldapUsername role orgId createdById, draw, s =>
    s.insertUser w
      { id := draw.id
        username := username
        passwordHash := if ldapUsername.isSome then none else some draw.passwordHash
        totpSecret := draw.totpSecret
        role := role
        mustChangePassword := ldapUsername.isNone
        ldapUsername := ldapUsername
        orgId := orgId
        createdById := createdById }
  | .commit, _, s => some (.ok (), { s with users := s.users.commit w })
  | .close, _, s => some (.ok (), { s with users := s.users.abort w })

/-- Nothing else makes or renames accounts. -/
def environment : Empty → Names → Option Names := nofun

def semantics : Semantics Op Reply Fault Names Draw Empty where
  perform := perform spelling
  environment := environment

end Semantics

/-! ### The routes -/

abbrev Handler (α : Type) := Program Op Reply Fault α

abbrev call (operation : Op) : Handler (Reply operation) := Program.call operation

/-- A character of a user name that is made on the form. -/
def isUsernameChar (c : Char) : Bool :=
  c.isAlphanum || c = '.' || c = '_' || c = '@' || c = ' ' || c = '-'

@[irreducible] def validateUsername (username : String) : Option String :=
  let candidate := Text.strip username
  if candidate.toList.all isUsernameChar ∧ 3 ≤ candidate.length ∧ candidate.length ≤ 64 then
    some candidate
  else none

inductive Answer
  | form (errors : List (String × String)) (status : ℕ)
  | refused (status : ℕ) (detail : String)
  | redirect (address : String) (status : ℕ)
  | login (error : String) (status : ℕ)
  | secondFactor (user : UserId)
  deriving DecidableEq

inductive Request
  | createUser (username password role : String) (currentUser : AdminUser)
  /-- A login that the directory has accepted, with the name as the directory spells it. -/
  | directoryLogin (username : String)

/-- `create_user` of the service, without its commit. -/
def svcCreate (username password : String) (role : AdminRole) (orgId : Option ℕ)
    (createdById : UserId) : Handler (Option AdminUser) :=
  match validateUsername username with
  | none => return none
  | some name =>
    if validatePassword password then do
      let user ← call (.insertUser name none role orgId (some createdById))
      return some user
    else return none

/-- What is wrong with the name of a new account. -/
def usernameErrors (username : String) : Handler (List (String × String)) :=
  match validateUsername username with
  | none => return [("username", "wizard.error.username")]
  | some _ => do
    let found ← call (.getUserByUsernameCi (Text.strip username))
    return if found.isSome then [("username", "admin.users.add.error.taken")] else []

def passwordErrors (password : String) : List (String × String) :=
  if validatePassword password then [] else [("password", "wizard.error.password")]

def createUser (username password role : String) (currentUser : AdminUser) : Handler Answer := do
  let errors ← usernameErrors username
  if errors ++ passwordErrors password ≠ [] then
    return .form (errors ++ passwordErrors password) 422
  else
    match adminRole role with
    | none => return .refused 422 "Unknown role."
    | some role =>
      if role = .superadmin ∧ currentUser.role ≠ .superadmin then
        return .refused 403 "Only a superadmin can create superadmin accounts."
      else do
        let org ← call .newAccountOrg
        match org with
        | none => return .refused 422 "Unknown organisation."
        | some orgId => do
          let created ← svcCreate (Text.strip username) password role (some orgId) currentUser.id
          match created with
          | none => return .refused 400 "Bad Request"
          | some _ => do
            call .commit
            return .redirect "/admin/users" 302

/-- `login_post`, where the directory has accepted the login. -/
def directoryLogin (username : String) : Handler Answer := do
  let found ← call (.getByLdapUsername username)
  match found with
  | some user => return .secondFactor user.id
  | none => do
    let taken ← call (.taken username)
    match taken with
    | some _ => return .login "login.error.invalid" 401
    | none => do
      let orgId ← call .newAccountOrg
      let user ← call (.insertUser username (some username) .caseManager orgId none)
      call .commit
      return .secondFactor user.id

/-- `get_db`: the session of a request is closed, however the request ends. -/
def withSession (route : Handler Answer) : Handler Answer := route.ensuring .close

def handler : Request → Handler Answer
  | .createUser username password role currentUser =>
    withSession (createUser username password role currentUser)
  | .directoryLogin username => withSession (directoryLogin username)

abbrev Step := Event Request Fault Draw Empty

abbrev Server := System Names (Handler Answer)

/-- The accounts there are. -/
def start (users : List AdminUser) : Server where
  shared := ⟨⟨users.map fun user ↦ ⟨user, 0⟩, [], 1⟩, fun _ ↦ 0⟩
  worker := fun _ ↦ none

end OpenWhistle.Usernames
