import OpenWhistle.Foundation.Interleaving
import OpenWhistle.Foundation.Json
import OpenWhistle.Foundation.Redis

/-!
# The branding of the pages

Every page needs the branding rows, and takes them from a snapshot in Redis. A snapshot carries the
version it was loaded under, and counts only under that version. A save commits its rows, increments
the version and deletes the snapshot. A page that finds no snapshot of the version it has read loads
the rows and stores them under that version; reading the keys, loading and storing are steps of their
own.

The rows after each commit, in the order of the commits, are the history, which no step reads but for
the last of them.
-/

set_option autoImplicit false
set_option relaxedAutoImplicit false

namespace OpenWhistle.Branding

open Interleaving

def cacheKey : String := "branding:snapshot"

def versionKey : String := "branding:version"

def cacheSeconds : ℕ := 3600

/-- The rows by organisation. -/
abbrev Snapshot := List (String × Json)

inductive Op
  | mget
  | load
  | store (version : Option String) (rows : Snapshot)
  | commit
  | incrVersion
  | deleteCache

@[reducible] def Reply : Op → Type
  | .mget => Option String × Option String
  | .load => Snapshot
  | .store _ _ => Unit
  | .commit => Unit
  | .incrVersion => ℤ
  | .deleteCache => Unit

/-- Redis refuses INCR on a value that is no number. -/
inductive Fault
  | responseError
  deriving DecidableEq

structure Pages where
  now : ℕ
  redis : Redis.Store
  /-- How many commits there were. -/
  epoch : ℕ
  /-- The rows after so many commits. -/
  saved : ℕ → Snapshot
  /-- The commit of a save. -/
  committedAt : ℕ → Option ℕ
  /-- How often the version was incremented. -/
  current : ℕ
  /-- The latest commit of a save whose increment was among the first so many. -/
  floorAt : ℕ → ℕ

/-- `data.get("version") == version`. -/
def sameVersion : Option Json → Option String → Bool
  | none, none => true
  | some .null, none => true
  | some (.str cached), some version => decide (cached = version)
  | _, _ => false

/-- What is stored of a snapshot. -/
def render (version : Option String) (rows : Snapshot) : String :=
  Json.dumps (.dict [("version", match version with
    | none => .null
    | some version => .str version), ("rows", .dict rows)])

/-- The effect of a step. What a save makes of the rows is drawn. -/
def perform (w : ℕ) : (operation : Op) → Snapshot → Pages →
    Option (Except Fault (Reply operation) × Pages)
  | .mget, _, s =>
    some (.ok (Redis.get s.redis s.now cacheKey, Redis.get s.redis s.now versionKey), s)
  | .load, _, s => some (.ok (s.saved s.epoch), s)
  | .store version rows, _, s =>
    some (.ok (), { s with
      redis := Redis.set s.redis s.now cacheKey (render version rows) cacheSeconds })
  | .commit, rows, s =>
    some (.ok (), { s with
      epoch := s.epoch + 1
      saved := Function.update s.saved (s.epoch + 1) rows
      committedAt := Function.update s.committedAt w (some (s.epoch + 1)) })
  | .incrVersion, _, s =>
    match Redis.incr s.redis s.now versionKey with
    | none => some (.error .responseError, s)
    | some (n, redis) =>
      some (.ok n, { s with
        redis := redis
        current := s.current + 1
        floorAt := Function.update s.floorAt (s.current + 1)
          (max (s.floorAt s.current) ((s.committedAt w).getD 0)) })
  | .deleteCache, _, s => some (.ok (), { s with redis := Redis.delete s.redis cacheKey })

/-- Time passes, or the cache key goes before its time. -/
inductive Change
  | tick (milliseconds : ℕ)
  | evict

def environment : Change → Pages → Option Pages
  | .tick milliseconds, s => some { s with now := s.now + milliseconds }
  | .evict, s => some { s with redis := Redis.delete s.redis cacheKey }

def semantics : Semantics Op Reply Fault Pages Snapshot Change where
  perform := perform
  environment := environment

/-! ### The service and its routes -/

abbrev Handler (α : Type) := Program Op Reply Fault α

abbrev call (operation : Op) : Handler (Reply operation) := Program.call operation

/-- The rows of a cached snapshot of a version. -/
def hit (cached version : Option String) : Option Snapshot :=
  match cached with
  | none => none
  | some text =>
    if text = "" then none
    else
      match Json.loads text with
      | some (.dict data) =>
        if sameVersion (Json.get data "version") version then
          match Json.get data "rows" with
          | some (.dict rows) => some rows
          | _ => none
        else none
      | _ => none

/-- `snapshot`, of which `_load` and `_store` are one step each. -/
def snapshot : Handler Snapshot := do
  let found ← call .mget
  match hit found.1 found.2 with
  | some rows => return rows
  | none => do
    let rows ← call .load
    call (.store found.2 rows)
    return rows

def invalidate : Handler Unit := do
  let _ ← call .incrVersion
  call .deleteCache

inductive Request
  | page
  | brandingPost
  | brandingReset
  deriving DecidableEq

inductive Answer
  | rows (snapshot : Snapshot)
  | saved

/-- `branding_post`, from its commit on. -/
def brandingPost : Handler Answer := do
  call .commit
  invalidate
  return .saved

/-- `branding_reset`, from its commit on. -/
def brandingReset : Handler Answer := do
  call .commit
  invalidate
  return .saved

def handler : Request → Handler Answer
  | .page => do
    let rows ← snapshot
    return .rows rows
  | .brandingPost => brandingPost
  | .brandingReset => brandingReset

abbrev Step := Event Request Fault Snapshot Change

abbrev Views := System Pages (Handler Answer)

/-- Nothing is cached, and nothing was saved yet. -/
def start (now : ℕ) (rows : Snapshot) : Views where
  shared :=
    { now := now
      redis := fun _ ↦ none
      epoch := 0
      saved := fun _ ↦ rows
      committedAt := fun _ ↦ none
      current := 0
      floorAt := fun _ ↦ 0 }
  worker := fun _ ↦ none

end OpenWhistle.Branding
