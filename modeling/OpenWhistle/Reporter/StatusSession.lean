import OpenWhistle.Foundation.Interleaving
import OpenWhistle.Reporter.SignIn

/-!
# Status sessions

A sign-in opens a session of two hours: a Redis key made from the random cookie value, with the id of
the report. A reply moves the session to a fresh key. It reads the old key and, once the message is
stored, the time the old key has left; then it sets the fresh key for that many seconds, and deletes
the old one. These are separate commands, and other requests may run between any two of them. A
sign-out deletes the key of its cookie.

The clock counts milliseconds. A random cookie value never makes a key that was in use before. The
rest is history, which no command reads: for every key the request that has drawn it and not set it
yet, the sign-in it goes back to, the time at which it was to expire, and the request whose DEL removed
it; when each request asked how long its session lasts; the sign-ins whose sessions were renewed or
signed out; and the cookies the browser was given, the latest first.
-/

set_option autoImplicit false
set_option relaxedAutoImplicit false

namespace OpenWhistle.Reporter

open Interleaving
open Cases (Status)

variable {Hash : Type}

/-- The sign-in a session key goes back to. -/
structure Line where
  /-- The key it opened. -/
  first : String
  /-- When it opened that key. -/
  since : ℕ
  /-- How many milliseconds the replies since then have let pass, or rounded up. -/
  slipped : ℕ
  deriving DecidableEq

structure Reception (site : Site Hash) where
  now : ℕ
  db : Database site.pins
  redis : Redis.Store
  /-- The session keys in use so far. -/
  drawn : List String
  heldBy : String → Option ℕ
  askedAt : ℕ → ℕ
  line : String → Option Line
  ends : String → ℕ
  removedBy : String → Option ℕ
  renewed : List String
  signedOut : List String
  cookies : List (Option String)

/-- `renewSession` carries the session it replaces, and `deleteSession` whether a sign-out asks for it;
Redis is told neither. -/
inductive Op
  | getSession (token : String)
  | getReportById (id : String)
  | authenticate (caseNumber pin : String)
  | tokenUrlsafe
  | openSession (token reportId : String)
  | addMessage (reportId content : String)
  | sessionTtl (token : String)
  | renewSession (session fresh reportId : String) (seconds : ℕ)
  | deleteSession (token : String) (signsOut : Bool)
  | setCookie (cookie : Option String)
  deriving DecidableEq

@[reducible] def Reply (site : Site Hash) : Op → Type
  | .getSession _ => Option String
  | .getReportById _ => Option (Case site.pins)
  | .authenticate _ _ => Option (Case site.pins) × ℤ
  | .tokenUrlsafe => String
  | .openSession _ _ => Unit
  | .addMessage _ _ => Unit
  | .sessionTtl _ => ℤ
  | .renewSession _ _ _ _ => Unit
  | .deleteSession _ _ => Unit
  | .setCookie _ => Unit

inductive Fault
  | unavailable
  deriving DecidableEq

/-- What happens without a request of a reporter. -/
inductive Change (site : Site Hash)
  | tick (milliseconds : ℕ)
  | office (db : Database site.pins)

/-! ### What the commands do -/

/-- What some milliseconds lack to a whole second, if that is half a second at most, or to the first
one. -/
def overrun (left : ℕ) : ℕ :=
  if left < 500 then 1000 - left else if left % 1000 < 500 then 0 else 1000 - left % 1000

namespace Reception

variable {site : Site Hash}

/-- SET of the key that a sign-in opens. -/
def openSession (s : Reception site) (key reportId : String) : Reception site :=
  { s with
    redis := Redis.set s.redis s.now key reportId sessionSeconds
    heldBy := Function.update s.heldBy key none
    line := Function.update s.line key (some ⟨key, s.now, 0⟩)
    ends := Function.update s.ends key (s.now + 1000 * sessionSeconds)
    removedBy := Function.update s.removedBy key none }

/-- What a reply costs that sets a fresh key now: the time since it asked how long the old one lasts, or
since that one ended, and what the old one's last second then lacked. -/
def slip (s : Reception site) (w : ℕ) (old : String) : ℕ :=
  s.now - min (s.askedAt w) (s.ends old) + overrun (s.ends old - s.askedAt w)

/-- SET of the key that replaces another. -/
def renewSession (s : Reception site) (w : ℕ) (old fresh reportId : String) (seconds : ℕ) :
    Reception site :=
  { s with
    redis := Redis.set s.redis s.now fresh reportId seconds
    heldBy := Function.update s.heldBy fresh none
    line := Function.update s.line fresh ((s.line old).map fun line ↦
      { line with slipped := line.slipped + s.slip w old })
    ends := Function.update s.ends fresh (s.now + 1000 * seconds)
    removedBy := Function.update s.removedBy fresh none
    renewed := ((s.line old).map Line.first).toList ++ s.renewed }

/-- DEL of a key. -/
def deleteSession (s : Reception site) (w : ℕ) (key : String) (signsOut : Bool) : Reception site :=
  { s with
    redis := Redis.delete s.redis key
    removedBy := if s.redis key = none then s.removedBy
      else Function.update s.removedBy key (some w)
    signedOut := if signsOut then ((s.line key).map Line.first).toList ++ s.signedOut
      else s.signedOut }

end Reception

variable (site : Site Hash)

/-- What an operation answers and does. The check of a case number and a PIN is one operation here. -/
def perform (w : ℕ) : (operation : Op) → String → Reception site →
    Option (Except Fault (Reply site operation) × Reception site)
  | .getSession token, _, s =>
    some (.ok (Redis.get s.redis s.now (statusSessionKey site token)), s)
  | .getReportById id, _, s => some (.ok (s.db.byId id), s)
  | .authenticate caseNumber pin, _, s =>
    match authenticateWhistleblower site s.db s.redis (fun _ ↦ s.now) caseNumber pin with
    | none => some (.error .unavailable, s)
    | some (checked, redis) => some (.ok checked, { s with redis := redis })
  | .tokenUrlsafe, draw, s =>
    if statusSessionKey site draw ∈ s.drawn then none
    else some (.ok draw,
      { s with
        drawn := statusSessionKey site draw :: s.drawn
        heldBy := Function.update s.heldBy (statusSessionKey site draw) (some w) })
  | .openSession token reportId, _, s =>
    some (.ok (), s.openSession (statusSessionKey site token) reportId)
  | .addMessage reportId content, _, s =>
    some (.ok (), { s with db := s.db.addWhistleblowerMessage reportId content })
  | .sessionTtl token, _, s =>
    some (.ok (Redis.ttl s.redis s.now (statusSessionKey site token)),
      { s with askedAt := Function.update s.askedAt w s.now })
  | .renewSession session fresh reportId seconds, _, s =>
    some (.ok (), s.renewSession w (statusSessionKey site session) (statusSessionKey site fresh)
      reportId seconds)
  | .deleteSession token signsOut, _, s =>
    some (.ok (), s.deleteSession w (statusSessionKey site token) signsOut)
  | .setCookie cookie, _, s => some (.ok (), { s with cookies := cookie :: s.cookies })

def environment : Change site → Reception site → Option (Reception site)
  | .tick milliseconds, s => some { s with now := s.now + milliseconds }
  | .office db, s => some { s with db := db }

def semantics : Semantics Op (Reply site) Fault (Reception site) String (Change site) where
  perform := perform site
  environment := environment site

/-- The check of a case number and a PIN touches no session. -/
theorem redis_of_authenticate {db : Database site.pins} {redis redis' : Redis.Store}
    {clock : Command → ℕ} {caseNumber pin : String} {checked : Option (Case site.pins) × ℤ}
    (h : authenticateWhistleblower site db redis clock caseNumber pin = some (checked, redis'))
    (token : String) :
    redis' (statusSessionKey site token) = redis (statusSessionKey site token) := by
  unfold authenticateWhistleblower at h
  dsimp only at h
  cases hreport : getReportByCredentials site db (site.letters.upper (Text.strip caseNumber))
      (site.letters.lower (Text.strip pin)) with
  | some report =>
    rw [hreport] at h
    cases h
    rfl
  | none =>
    rw [hreport] at h
    obtain ⟨⟨failures, counted⟩, hcount, hrest⟩ := Option.bind_eq_some_iff.mp h
    obtain ⟨⟨count, incremented⟩, hincr, hexpire⟩ := Option.bind_eq_some_iff.mp hcount
    have hne : ∀ caseKey, statusSessionKey site token ≠ wbKey site caseKey :=
      fun _ ↦ sessionPrefix_ne
    have hframe : counted (statusSessionKey site token) = redis (statusSessionKey site token) := by
      cases hexpire
      rw [Redis.expire_of_ne (hne _), Redis.incr_of_ne (hne _) hincr]
    dsimp only at hrest
    split at hrest
    · cases hrest
      exact hframe
    · cases hrest
      exact hframe

/-! ### The requests -/

inductive Request
  | statusGet (cookie : Option String)
  | statusPost (caseNumber pin : String)
  | reply (cookie : Option String) (content caseNumber pin : String)
  | logout (cookie : Option String)
  deriving DecidableEq

/-- What a reporter's request is answered with. -/
inductive Response
  | status (reportId : Option String)
  | invalid (lockoutTtl : ℤ)
  | unsentReply (content : String)
  | httpException (status : ℕ)
  | seeOther (location : String)
  deriving DecidableEq

abbrev Handler (α : Type) := Program Op (Reply site) Fault α

abbrev call (operation : Op) : Handler site (Reply site operation) := Program.call operation

/-- The session of a cookie, with its report. -/
def sessionOf (cookie : Option String) : Handler site (Option (String × Case site.pins)) :=
  match cookie.filter isSessionKey with
  | none => return none
  | some token => do
    let found ← call site (.getSession token)
    match found with
    | none => return none
    | some id => do
      let report ← call site (.getReportById id)
      return report.map fun report ↦ (token, report)

/-- The status page does not renew the session it shows. -/
def statusGet (cookie : Option String) : Handler site Response := do
  let found ← sessionOf site cookie
  return .status (found.map fun found ↦ found.2.id)

/-- A session of its own for a right case number and PIN. -/
def newSession (report : Case site.pins) : Handler site String := do
  let token ← call site .tokenUrlsafe
  call site (.openSession token report.id)
  return token

def statusPostRoute (caseNumber pin : String) : Handler site Response := do
  let checked ← call site (.authenticate caseNumber pin)
  match checked.1 with
  | none => return .invalid checked.2
  | some report => do
    let token ← newSession site report
    call site (.setCookie (some token))
    return .seeOther "/status"

/-- A fresh key with what the old one has left, at least a second. -/
def moveSession (session : String) (report : Case site.pins) (location : String) :
    Handler site Response := do
  let left ← call site (.sessionTtl session)
  let fresh ← call site .tokenUrlsafe
  call site (.renewSession session fresh report.id (max 1 left).toNat)
  call site (.deleteSession session false)
  call site (.setCookie (some fresh))
  return .seeOther location

/-- A closed case takes no message, but its session moves as well. -/
def acceptReply (session : String) (report : Case site.pins) (content : String) :
    Handler site Response :=
  let stripped := Text.strip content
  if stripped = "" then return .httpException 422
  else if maxReply < stripped.toList.length then return .httpException 422
  else if report.status = .closed then moveSession site session report "/status?replied=closed"
  else do
    call site (.addMessage report.id stripped)
    moveSession site session report "/status?replied=1"

def replyRoute (cookie : Option String) (content caseNumber pin : String) :
    Handler site Response := do
  let found ← sessionOf site cookie
  match found with
  | some (session, report) => acceptReply site session report content
  | none =>
    if caseNumber = "" ∨ pin = "" then return .unsentReply content
    else do
      let checked ← call site (.authenticate caseNumber pin)
      match checked.1 with
      | none => return .httpException (if checked.2 ≠ 0 then 429 else 401)
      | some report => do
        let token ← newSession site report
        acceptReply site token report content

def statusLogout (cookie : Option String) : Handler site Response :=
  match cookie.filter isSessionKey with
  | none => do
    call site (.setCookie none)
    return .seeOther "/status"
  | some token => do
    call site (.deleteSession token true)
    call site (.setCookie none)
    return .seeOther "/status"

def handler : Request → Handler site Response
  | .statusGet cookie => statusGet site cookie
  | .statusPost caseNumber pin => statusPostRoute site caseNumber pin
  | .reply cookie content caseNumber pin => replyRoute site cookie (Text.lf content) caseNumber pin
  | .logout cookie => statusLogout site cookie

abbrev Step := Event Request Fault String (Change site)

abbrev Requests := System (Reception site) (Handler site Response)

end OpenWhistle.Reporter
