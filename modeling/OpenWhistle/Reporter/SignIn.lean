import OpenWhistle.Foundation.Redis
import OpenWhistle.Foundation.TwoRuns
import OpenWhistle.Reporter.Credentials

/-!
# The reporter's sign-in

The one check of a case number and a PIN, and the two requests that make it: the sign-in form of the
status page, and a reply that comes without a session. A wrong attempt counts on a key made from what
was typed for the case number, and the window of that key starts again; past the limit the answer
says how long it still runs. A right attempt counts nothing and clears nothing. It opens a session,
which a reply exchanges for a fresh one.

An attempt carries what the request sends and what it finds outside the database: the times at which
its Redis commands run, and the random keys it would draw.
-/

set_option autoImplicit false
set_option relaxedAutoImplicit false

namespace OpenWhistle.Reporter

open Cases (Status)

variable {Hash : Type}

/-- An installation. -/
structure Site (Hash : Type) where
  letters : Text.Letters
  pins : PinHash Hash
  /-- The salt of `TIMING_DUMMY_HASH`. -/
  timingDummySalt : ℕ
  /-- HMAC-SHA256 under the secret key, as hexadecimal digits. -/
  digest : String → String
  /-- The translation of a key into a language. -/
  translate : (lang key : String) → String
  maxAccessAttempts : ℕ
  accessLockoutMinutes : ℕ

/-- The commands of a request that ask for the time. -/
inductive Command
  | getSession
  | incr
  | expire
  | ttl
  | openSession
  | sessionTtl
  | renewSession
  deriving DecidableEq

variable (site : Site Hash)

/-! ### The failure counter -/

/-- `_wb_key`. -/
def wbKey (caseKey : String) : String := "openwhistle:wb_ratelimit:" ++ site.digest caseKey

/-- `_count_failure`. `none` where INCR raises. -/
def countFailure (redis : Redis.Store) (clock : Command → ℕ) (key : String) (seconds : ℕ) :
    Option (ℤ × Redis.Store) := do
  let (count, redis) ← Redis.incr redis (clock .incr) key
  return (count, Redis.expire redis (clock .expire) key seconds)

def recordWhistleblowerFailure (redis : Redis.Store) (clock : Command → ℕ) (caseKey : String) :
    Option (ℤ × Redis.Store) :=
  countFailure redis clock (wbKey site caseKey) (site.accessLockoutMinutes * 60)

def getWhistleblowerLockoutTtl (redis : Redis.Store) (clock : Command → ℕ) (caseKey : String) : ℤ :=
  max 0 (Redis.ttl redis (clock .ttl) (wbKey site caseKey))

/-! ### The check -/

/-- `TIMING_DUMMY_HASH`. -/
def timingDummyHash : Hash :=
  site.pins.hashpw "timing-equalizer-not-a-real-secret" site.timingDummySalt

def getReportByCredentials (db : Database site.pins) (caseNumber plainPin : String) :
    Option (Case site.pins) :=
  let pinHash := (db.byNumber caseNumber).map Case.pinHash
  let checked := verifyPin site.pins plainPin (pinHash.getD (timingDummyHash site))
  if !checked || pinHash.isNone then none else db.byNumber caseNumber

/-- `authenticate_whistleblower`. -/
def authenticateWhistleblower (db : Database site.pins) (redis : Redis.Store)
    (clock : Command → ℕ) (caseNumber pin : String) :
    Option ((Option (Case site.pins) × ℤ) × Redis.Store) :=
  let caseNumber := site.letters.upper (Text.strip caseNumber)
  match getReportByCredentials site db caseNumber (site.letters.lower (Text.strip pin)) with
  | some report => some ((some report, 0), redis)
  | none => do
    let (failures, redis) ← recordWhistleblowerFailure site redis clock caseNumber
    if failures ≤ site.maxAccessAttempts then
      return ((none, 0), redis)
    return ((none, max 1 (getWhistleblowerLockoutTtl site redis clock caseNumber)), redis)

/-! ### The requests -/

inductive Route
  | status
  | reply
  deriving DecidableEq

/-- `_SESSION_KEY_RE`. -/
def isSessionKey (cookie : String) : Bool :=
  decide (1 ≤ cookie.toList.length ∧ cookie.toList.length ≤ 86) &&
    cookie.toList.all fun c ↦ c.isAlphanum || c == '_' || c == '-'

/-- A sign-in form, or a reply without a session. `none` is a field that was not sent. A cookie is sent
with it only if it cannot be the key of a session: one of a session that is over is left out. -/
structure Attempt where
  route : Route
  caseNumber : Option String
  pin : Option String
  content : Option String
  cookie : Option String
  lang : String
  clock : Command → ℕ
  token : String
  fresh : String
  sessionless : cookie.filter isSessionKey = none

inductive Answer
  /-- The sign-in page, with an error. -/
  | invalid (error : String) (locked : Bool) (lockoutTtl : ℤ) (caseNumberValue : String)
  /-- The sign-in page, with the reply that was not sent. -/
  | unsentReply (content : String)
  /-- A required field is missing. -/
  | validationError
  | httpException (status : ℕ)
  /-- An exception nobody catches. -/
  | serverError
  | seeOther (location cookie : String)
  deriving DecidableEq

structure State (pins : PinHash Hash) where
  db : Database pins
  redis : Redis.Store

/-- A required form field: an empty one counts as missing. -/
def required (field : Option String) : Option String := field.filter fun value ↦ value ≠ ""

/-- `status_session_key`. -/
def statusSessionKey (token : String) : String := "status-session:" ++ site.digest token

theorem sessionPrefix_ne {token caseKey : String} :
    "status-session:" ++ token ≠ "openwhistle:wb_ratelimit:" ++ caseKey := by
  intro heq
  have hfirst := congrArg (fun key ↦ key.toList.head?) heq
  have hsession : "status-session:".toList.head? = some 's' := by simp
  have hcounter : "openwhistle:wb_ratelimit:".toList.head? = some 'o' := by simp
  simp only [String.toList_append, List.head?_append, hsession, hcounter, Option.some_or] at hfirst
  exact absurd (Option.some.inj hfirst) (by decide)

def sessionSeconds : ℕ := 7200

/-- The session that a right attempt opens. -/
def openSession (s : State site.pins) (a : Attempt) (report : Case site.pins) : State site.pins where
  db := s.db
  redis := Redis.set s.redis (a.clock .openSession) (statusSessionKey site a.token) report.id
    sessionSeconds

def statusPost (s : State site.pins) (a : Attempt) : Answer × State site.pins :=
  match required a.caseNumber, required a.pin with
  | some caseNumber, some pin =>
    match authenticateWhistleblower site s.db s.redis a.clock caseNumber pin with
    | none => (.serverError, s)
    | some ((none, lockoutTtl), redis) =>
      (.invalid (site.translate a.lang "status.error.invalid") (decide (lockoutTtl ≠ 0)) lockoutTtl
        (Text.strip caseNumber), { s with redis := redis })
    | some ((some report, _), redis) =>
      (.seeOther "/status" a.token, openSession site { s with redis := redis } a report)
  | _, _ => (.validationError, s)

/-- The longest reply. -/
def maxReply : ℕ := 5000

/-- What `reply_post` does for the session of a report. -/
def takeReply (s : State site.pins) (a : Attempt) (session : String) (report : Case site.pins)
    (content : String) : Answer × State site.pins :=
  let stripped := Text.strip content
  if stripped = "" then (.httpException 422, s)
  else if maxReply < stripped.toList.length then (.httpException 422, s)
  else
    let closed := decide (report.status = .closed)
    let db := if closed then s.db else s.db.addWhistleblowerMessage report.id stripped
    let remaining := max 1 (Redis.ttl s.redis (a.clock .sessionTtl) (statusSessionKey site session))
    let redis := Redis.set s.redis (a.clock .renewSession) (statusSessionKey site a.fresh) report.id
      remaining.toNat
    (.seeOther (if closed then "/status?replied=closed" else "/status?replied=1") a.fresh,
      { db := db, redis := Redis.delete redis (statusSessionKey site session) })

/-- The session of a cookie, with its report. -/
def sessionReport (s : State site.pins) (a : Attempt) : Option (String × Case site.pins) := do
  let session ← a.cookie.filter isSessionKey
  let id ← Redis.get s.redis (a.clock .getSession) (statusSessionKey site session)
  let report ← s.db.byId id
  return (session, report)

def replyPost (s : State site.pins) (a : Attempt) : Answer × State site.pins :=
  match required a.content with
  | none => (.validationError, s)
  | some content =>
    let content := Text.lf content
    match sessionReport site s a with
    | some (session, report) => takeReply site s a session report content
    | none =>
      let caseNumber := a.caseNumber.getD ""
      let pin := a.pin.getD ""
      if caseNumber = "" ∨ pin = "" then (.unsentReply content, s)
      else
        match authenticateWhistleblower site s.db s.redis a.clock caseNumber pin with
        | none => (.serverError, s)
        | some ((none, lockoutTtl), redis) =>
          (.httpException (if lockoutTtl ≠ 0 then 429 else 401), { s with redis := redis })
        | some ((some report, _), redis) =>
          takeReply site (openSession site { s with redis := redis } a report) a a.token report content

def step (s : State site.pins) (a : Attempt) : Answer × State site.pins :=
  match a.route with
  | .status => statusPost site s a
  | .reply => replyPost site s a

/-- The case number and the PIN of an attempt, as they are looked up. -/
def Attempt.lookedUp (a : Attempt) : String × String :=
  (site.letters.upper (Text.strip (a.caseNumber.getD "")),
    site.letters.lower (Text.strip (a.pin.getD "")))

/-- The case number and the PIN of an attempt do not belong together in this database. -/
def Attempt.wrong (db : Database site.pins) (a : Attempt) : Bool :=
  !decide (db.Opens (a.lookedUp site).1 (a.lookedUp site).2)

end OpenWhistle.Reporter
