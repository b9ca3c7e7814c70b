import OpenWhistle.Foundation.Json
import OpenWhistle.Foundation.Redis
import OpenWhistle.Foundation.Text

/-!
# The update check

Once a day the server fetches a feed with the latest release and the security advisories, and keeps
what validates in three keys of Redis: the release, the advisories, and the ETag that makes the next
request conditional. Which advisories affect the running version is decided when a page is rendered.

A call of the update check runs at one time. The exchange with the site is the event's: no answer, or
a status, what `json` makes of the body, and an ETag. Numbers of the feed are whole numbers.
-/

set_option autoImplicit false
set_option relaxedAutoImplicit false

namespace OpenWhistle.Updates

/-- The setting, and what the standard library adds. -/
structure Site where
  updateCheckEnabled : Bool
  /-- The value of a decimal digit, by the tables of Unicode. -/
  decimal : Char → Option ℕ
  isoformat : ℕ → String

def cacheKey : String := "openwhistle:update_check"

def advisoriesKey : String := "openwhistle:update_check_advisories"

def etagKey : String := "openwhistle:update_check_etag"

def lockKey : String := "openwhistle:job_lock:update_check"

/-- `_CACHE_TTL`, in seconds. -/
def cacheTtl : ℕ := 7 * 24 * 3600

def severities : List String := ["low", "medium", "high", "critical"]

def maxAdvisories : ℕ := 100

def maxSummary : ℕ := 300

def maxCves : ℕ := 10

def maxRange : ℕ := 200

variable (site : Site)

/-! ### Versions -/

def isDecimal (c : Char) : Bool := (site.decimal c).isSome

/-- `int` takes so many digits, and raises `ValueError` for more. -/
def maxDigits : ℕ := 4300

/-- `int` of at most `maxDigits` decimal digits. -/
def toInt (digits : List Char) : ℕ := digits.foldl (fun n c ↦ 10 * n + (site.decimal c).getD 0) 0

/-- The numbers in front of the first part that is none. -/
def parseParts : List (List Char) → List ℕ
  | [] => []
  | part :: parts =>
    if part ≠ [] ∧ part.all (isDecimal site) then toInt site part :: parseParts parts else []

/-- The components of a version, where `int` takes all of them. -/
def parseVersion (version : List Char) : List ℕ :=
  let core := (((Text.stripChars version).dropWhile fun c ↦ c = 'v' || c = 'V').takeWhile
    fun c ↦ c ≠ '-').takeWhile fun c ↦ c ≠ '+'
  match parseParts site (core.splitOn '.') with
  | [] => [0]
  | parts => parts

/-- `compare_versions`. -/
def compareVersions (current latest : List Char) : String :=
  if parseVersion site current < parseVersion site latest then "update_available"
  else if parseVersion site latest < parseVersion site current then "ahead"
  else "up_to_date"

/-- A full match of `[vV]?\d{1,6}(?:\.\d{1,6}){0,3}`. -/
def isVersion (text : List Char) : Bool :=
  let parts := (match text with
    | 'v' :: rest => rest
    | 'V' :: rest => rest
    | rest => rest).splitOn '.'
  decide (parts.length ≤ 4) && parts.all fun part ↦
    decide (1 ≤ part.length ∧ part.length ≤ 6) && part.all (isDecimal site)

inductive Comparison
  | le
  | ge
  | lt
  | gt
  | eq
  deriving DecidableEq

/-- The operators, in the order in which they are tried. -/
def operators : List (List Char × Comparison) :=
  [(['<', '='], .le), (['>', '='], .ge), (['<'], .lt), (['>'], .gt), (['='], .eq)]

def Comparison.holds : Comparison → List ℕ → List ℕ → Bool
  | .le, cur, bound => decide (cur ≤ bound)
  | .ge, cur, bound => decide (bound ≤ cur)
  | .lt, cur, bound => decide (cur < bound)
  | .gt, cur, bound => decide (bound < cur)
  | .eq, cur, bound => decide (cur = bound)

def constraint (raw : List Char) : Option (Comparison × List Char) :=
  let rest := Text.stripChars raw
  let (sign, operator) :=
    (operators.find? fun candidate ↦ candidate.1.isPrefixOf rest).getD ([], .eq)
  let bound := if sign = [] then rest else (rest.drop sign.length).dropWhile Text.isSpace
  if isVersion site bound then some (operator, bound) else none

/-- `_constraints`: `none` when any does not parse. -/
def constraints (vulnerableRange : String) : Option (List (Comparison × List Char)) :=
  if maxRange < vulnerableRange.length then none
  else (vulnerableRange.toList.splitOn ',').mapM (constraint site)

/-- A version with zeros up to a width. -/
def padded (parts : List ℕ) (width : ℕ) : List ℕ := parts ++ List.replicate (width - parts.length) 0

def meets (current : List ℕ) : Comparison × List Char → Bool
  | (operator, rawBound) =>
    let bound := parseVersion site rawBound
    let width := max current.length bound.length
    operator.holds (padded current width) (padded bound width)

def versionInRange (version vulnerableRange : String) : Bool :=
  match constraints site vulnerableRange with
  | none => false
  | some parsed => parsed.all (meets site (parseVersion site version.toList))

/-! ### What of the feed is kept -/

/-- An exception that is not caught: a membership test with a list or an object, an item that is no
object, or a body that is nested too deeply. -/
inductive Fault
  | typeError
  | attributeError
  | recursionError
  deriving DecidableEq

def https : Option Json → String
  | some (.str url) => if url.startsWith "https://" ∧ url.length ≤ 500 then url else ""
  | _ => ""

def text (value : Option Json) (limit : ℕ) : String :=
  match value with
  | some (.str s) => String.ofList ((Text.stripChars s.toList).take limit)
  | _ => ""

/-- `_latest`. -/
def latestOf : Option Json → Option (List (String × Json))
  | some (.dict raw) =>
    match Json.get raw "version" with
    | some (.str version) =>
      if isVersion site version.toList then
        some [("tag_name", .str version), ("html_url", .str (https (Json.get raw "url"))),
          ("published_at", .str (text (Json.get raw "published_at") 40))]
      else none
    | _ => none
  | _ => none

/-- A full match of `[A-Za-z0-9-]{1,64}`. -/
def isAdvisoryId (id : String) : Bool :=
  decide (1 ≤ id.length ∧ id.length ≤ 64) && id.toList.all fun c ↦ c.isAlphanum || c = '-'

/-- A full match of `CVE-\d{4}-\d{4,7}`. -/
def isCveId (id : String) : Bool :=
  match id.toList with
  | 'C' :: 'V' :: 'E' :: '-' :: rest =>
    match rest.splitOn '-' with
    | [year, number] => decide (year.length = 4 ∧ 4 ≤ number.length ∧ number.length ≤ 7) &&
      year.all (isDecimal site) && number.all (isDecimal site)
    | _ => false
  | _ => false

def cveIds : Option Json → List Json
  | some (.list cves) => (cves.filter fun cve ↦ match cve with
      | .str id => isCveId site id
      | _ => false).take maxCves
  | _ => []

/-- `severity if severity in _SEVERITIES else ""`. A list or an object has no hash. -/
def severityOf : Option Json → Except Fault String
  | some (.str severity) => .ok (if severity ∈ severities then severity else "")
  | some (.list _) => .error .typeError
  | some (.dict _) => .error .typeError
  | _ => .ok ""

/-- `_advisory`: `none` when a required field is garbled. -/
def advisory : Json → Except Fault (Option Json)
  | .dict raw =>
    match Json.get raw "id", Json.get raw "affected", (Json.get raw "fixed").getD (.str "") with
    | some (.str id), some (.str affected), .str fixed =>
      let summary := text (Json.get raw "summary") maxSummary
      if isAdvisoryId id ∧ summary ≠ "" ∧ (constraints site affected).isSome ∧
          (fixed = "" ∨ isVersion site fixed.toList) then do
        let severity ← severityOf (Json.get raw "severity")
        return some (.dict [("id", .str id), ("cve_ids", .list (cveIds site (Json.get raw "cve_ids"))),
          ("summary", .str summary), ("severity", .str severity), ("affected", .str affected),
          ("fixed", .str fixed), ("url", .str (https (Json.get raw "url")))])
      else return none
    | _, _, _ => return none
  | _ => return none

/-- The advisories that validate, of the first hundred. -/
def keep (advisories : List Json) : Except Fault (List Json) := do
  let validated ← (advisories.take maxAdvisories).mapM (advisory site)
  return validated.filterMap id

/-! ### The fetch -/

/-- What `json.loads` raises: for a text that is no JSON and for a whole number of too many digits,
and for values that are nested deeper than its stack goes. -/
inductive Unread
  | valueError
  | recursionError
  deriving DecidableEq

structure Response where
  status : ℕ
  /-- The outcome of `resp.json()`. -/
  body : Except Unread Json
  etag : Option String

/-- A 200 whose body raises past the handler, which is one for `ValueError` only. -/
def Response.raises (response : Response) : Bool :=
  decide (response.status = 200) && match response.body with
    | .error .recursionError => true
    | _ => false

def readJson (now : ℕ) (redis : Redis.Store) (key : String) : Option Json :=
  match Redis.get redis now key with
  | none => none
  | some raw => if raw = "" then none else Json.loads raw

def readCache (now : ℕ) (redis : Redis.Store) : Option (List (String × Json)) :=
  match readJson now redis cacheKey with
  | some (.dict cached) => some cached
  | _ => none

def readAdvisories (now : ℕ) (redis : Redis.Store) : List Json :=
  match readJson now redis advisoriesKey with
  | some (.list advisories) => advisories
  | _ => []

/-- The If-None-Match of the request. -/
def ifNoneMatch (now : ℕ) (redis : Redis.Store) : Option String :=
  match Redis.get redis now etagKey with
  | none => none
  | some etag => if etag = "" then none else some etag

/-- `data.get("schema") == 1`. -/
def isSchemaOne (data : List (String × Json)) : Bool :=
  match Json.get data "schema" with
  | some (.int n) => decide (n = 1)
  | some (.bool b) => b
  | _ => false

/-- The feed of an answer: a 200 with schema 1. -/
def feedOf (response : Response) : Option (List (String × Json)) :=
  match response.body with
  | .ok (.dict data) => if response.status = 200 ∧ isSchemaOne data then some data else none
  | _ => none

/-- The release of a feed, and its ETag where there is a release. -/
def cacheRelease (now : ℕ) (redis : Redis.Store) (data : List (String × Json))
    (etag : Option String) : Option (List (String × Json)) × Redis.Store :=
  match latestOf site (Json.get data "latest") with
  | none => (readCache now redis, redis)
  | some latest =>
    let payload := latest ++ [("checked_at", .str (site.isoformat now))]
    let redis := Redis.set redis now cacheKey (Json.dumps (.dict payload)) cacheTtl
    match etag with
    | none => (some payload, redis)
    | some etag =>
      (some payload, if etag = "" then redis else Redis.set redis now etagKey etag cacheTtl)

/-- What a feed of schema 1 leaves in the cache: its advisories first. -/
def cacheFeed (now : ℕ) (redis : Redis.Store) (data : List (String × Json)) (etag : Option String) :
    Except Fault (Option (List (String × Json)) × Redis.Store) :=
  match Json.get data "advisories" with
  | some (.list advisories) => do
    let kept ← keep site advisories
    let redis := Redis.set redis now advisoriesKey (Json.dumps (.list kept)) cacheTtl
    return cacheRelease site now redis data etag
  | _ => return cacheRelease site now redis data etag

/-- `fetch_feed`, from the exchange on. An exception leaves the keys as they were: it comes before the
first of them is set. -/
def fetchFeed (now : ℕ) (redis : Redis.Store) (exchange : Option Response) :
    Except Fault (Option (List (String × Json)) × Redis.Store) :=
  match exchange with
  | none => .ok (readCache now redis, redis)
  | some response =>
    if response.status = 304 then
      match readCache now redis with
      | none => .ok (none, redis)
      | some cached =>
        let cached := Json.put cached "checked_at" (.str (site.isoformat now))
        .ok (some cached, Redis.set redis now cacheKey (Json.dumps (.dict cached)) cacheTtl)
    else if response.raises then .error .recursionError
    else
      match feedOf response with
      | none => .ok (readCache now redis, redis)
      | some data => cacheFeed site now redis data response.etag

/-- The daily job runs where the check is enabled and its lock is free. -/
def refreshes (now : ℕ) (redis : Redis.Store) : Bool :=
  site.updateCheckEnabled && (Redis.find redis now lockKey).isNone

/-- `refresh_update_check`. -/
def refreshUpdateCheck (now : ℕ) (redis : Redis.Store) (exchange : Option Response) : Redis.Store :=
  if refreshes site now redis then
    let locked := Redis.set redis now lockKey "1" 300
    match fetchFeed site now locked exchange with
    | .ok (_, fetched) => Redis.delete fetched lockKey
    | .error _ => Redis.delete locked lockKey
  else redis

/-! ### The notice -/

/-- `str` of a value. Of a list or an object it only matters that its text begins with a bracket. -/
def str : Json → String
  | .null => "None"
  | .bool true => "True"
  | .bool false => "False"
  | .int n => String.ofList (Json.renderInt n)
  | .str s => s
  | .list items => Json.dumps (.list items)
  | .dict items => Json.dumps (.dict items)

/-- The range of an advisory. -/
def affectedOf (items : List (String × Json)) : String :=
  ((Json.get items "affected").map str).getD ""

/-- `affecting`. -/
def affecting (version : String) : List Json → Except Fault (List Json)
  | [] => .ok []
  | .dict items :: advisories => do
    let rest ← affecting version advisories
    return if versionInRange site version (affectedOf items) then .dict items :: rest else rest
  | _ :: _ => .error .attributeError

/-- `_fixed_in`, of advisories that are objects. -/
def fixedIn (advisories : List Json) : String :=
  let fixes := advisories.filterMap fun item ↦ match item with
    | .dict items => ((Json.get items "fixed").filter Json.truthy).map str
    | _ => none
  match fixes with
  | [] => ""
  | fix :: fixes => fixes.foldl (fun best other ↦
      if parseVersion site best.toList < parseVersion site other.toList then other else best) fix

structure Status where
  enabled : Bool
  current : String
  latest : Option String
  status : String
  htmlUrl : Json
  checkedAt : Json
  advisories : List Json
  fixedIn : String

/-- `get_update_status`. -/
def getUpdateStatus (now : ℕ) (redis : Redis.Store) (currentVersion : String) :
    Except Fault Status := do
  let advisories ← if site.updateCheckEnabled then
      affecting site currentVersion (readAdvisories now redis)
    else pure []
  let unknown : Status := ⟨site.updateCheckEnabled, currentVersion, none, "unknown", .str "", .null,
    advisories, if site.updateCheckEnabled then fixedIn site advisories else ""⟩
  match readCache now redis with
  | none => return unknown
  | some cached =>
    match (Json.get cached "tag_name").filter Json.truthy with
    | none => return unknown
    | some (.str latest) =>
      return { unknown with
        latest := some latest
        status := compareVersions site currentVersion.toList latest.toList
        htmlUrl := (Json.get cached "html_url").getD (.str "")
        checkedAt := (Json.get cached "checked_at").getD .null }
    | some _ => .error .attributeError

end OpenWhistle.Updates
