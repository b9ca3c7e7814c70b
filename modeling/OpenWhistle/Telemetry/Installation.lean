import OpenWhistle.Foundation.Interleaving
import OpenWhistle.Foundation.Redis

/-!
# The installation count

Once a day at most, an installation whose admin agreed tells the far end that it exists: one request
with a random identifier and the version. Every replica asks hourly whether a day has passed; the
answer, the identifier and the last success are one row, and a key that is taken for an attempt and
never given back keeps the replicas apart.

Here are the programs that touch the row: an hourly run, the switch and the reset on the system
page, and the yes of the setup wizard. A run that meets a missing row where the environment says yes
makes it; the insert waits for another one that is not committed yet. A commit writes the columns
that the session has changed. Identifiers are drawn, and are never drawn twice. There is one clock,
in milliseconds, and the key-value store loses nothing. Histories are the locks that were taken, the
requests that left, the successes that were recorded, and the identifiers the row has had.
-/

set_option autoImplicit false
set_option relaxedAutoImplicit false

namespace OpenWhistle.Telemetry

open Interleaving

/-! ### Settings -/

structure Settings where
  demoMode : Bool
  localReviewLogin : Bool
  /-- `TELEMETRY_ENABLED`, where it is set. -/
  telemetryEnabled : Option Bool
  deriving DecidableEq

/-- Why the switch of the system page does not decide. -/
inductive LockedBy
  | demo
  | envOff
  | envOn
  deriving DecidableEq

/-- The single row. -/
structure TelemetryState where
  enabled : Bool
  installationId : String
  lastSentAt : Option ℕ
  deriving DecidableEq

namespace Settings

def lockedBy (cfg : Settings) : Option LockedBy :=
  if cfg.demoMode || cfg.localReviewLogin then some .demo
  else
    match cfg.telemetryEnabled with
    | some false => some .envOff
    | some true => some .envOn
    | none => none

def hardOff (cfg : Settings) : Bool :=
  decide (cfg.lockedBy = some .demo ∨ cfg.lockedBy = some .envOff)

def isEnabled (cfg : Settings) (state : Option TelemetryState) : Bool :=
  match cfg.lockedBy with
  | some lock => decide (lock = .envOn)
  | none =>
    match state with
    | some row => row.enabled
    | none => false

end Settings

/-- A day. -/
def interval : ℕ := 24 * 60 * 60 * 1000

def lockKey : String := "openwhistle:job_lock:telemetry"

/-- Five minutes less than a day. -/
def lockTtlSeconds : ℕ := 24 * 60 * 60 - 5 * 60

/-- How long the key stays, in milliseconds. -/
def lockTtl : ℕ := 1000 * lockTtlSeconds

/-- `_due`. -/
def TelemetryState.due (state : TelemetryState) (now : ℕ) : Bool :=
  match state.lastSentAt with
  | none => true
  | some last => decide (last + interval ≤ now)

/-! ### The installation -/

/-- What a commit writes. -/
inductive Write
  | nothing
  | enabled (value : Bool)
  | lastSentAt (time : ℕ)
  /-- A drawn identifier; a time that the session has read is cleared. -/
  | installationId (clears : Bool)
  deriving DecidableEq

/-- A request that left. -/
structure Request where
  worker : ℕ
  id : String
  lockedAt : ℕ
  leftAt : ℕ
  deriving DecidableEq

/-- A success that was recorded. -/
structure Success where
  worker : ℕ
  id : String
  readAt : ℕ
  lockedAt : ℕ
  /-- The time that is stored. -/
  sentAt : ℕ
  committedAt : ℕ
  deriving DecidableEq

/-- How far a run has come. -/
structure Attempt where
  /-- When it read the row. -/
  readAt : Option ℕ
  lockedAt : Option ℕ
  id : Option String
  deriving DecidableEq

structure Installation where
  clock : ℕ
  redis : Redis.Store
  state : Option TelemetryState
  /-- A row that was inserted and not committed, and by whom. -/
  uncommitted : Option (ℕ × TelemetryState)
  /-- The identifiers that were drawn. -/
  drawn : List String
  attempt : ℕ → Attempt
  /-- The locks that were taken, the last one first. -/
  taken : List (ℕ × ℕ)
  requests : List Request
  successes : List Success
  /-- The identifiers the committed row has had. -/
  held : List String
  /-- How often the identifier was reset. -/
  resets : ℕ

inductive Op
  | getState
  | insertState
  | now
  | lock
  | send (id : String)
  | commit (write : Write)
  | rollback
  deriving DecidableEq

@[reducible] def Reply : Op → Type
  | .getState => Option TelemetryState
  | .insertState => Unit
  | .now => ℕ
  | .lock => Bool
  | .send _ => Bool
  | .commit _ => Unit
  | .rollback => Unit

structure Draw where
  id : String
  accepted : Bool
  deriving DecidableEq

/-- The columns of a write, changed. -/
def Write.apply (write : Write) (fresh : String) (row : TelemetryState) : TelemetryState :=
  match write with
  | .nothing => row
  | .enabled value => { row with enabled := value }
  | .lastSentAt time => { row with lastSentAt := some time }
  | .installationId clears =>
    { row with
      installationId := fresh
      lastSentAt := if clears then none else row.lastSentAt }

namespace Installation

variable (s : Installation) (w : ℕ)

/-- The row a session sees: its own one, before it is committed. -/
def seen : Option TelemetryState :=
  match s.uncommitted with
  | some (v, row) => if v = w then some row else s.state
  | none => s.state

/-- The rows left uncommitted, once a session has ended its transaction. -/
def waiting : Option (ℕ × TelemetryState) := s.uncommitted.filter fun item ↦ item.1 ≠ w

/-- COMMIT of one write. -/
def committed (write : Write) (fresh : String) : Installation :=
  { s with
    state := (s.seen w).map (write.apply fresh)
    uncommitted := s.waiting w
    drawn := match write with
      | .installationId _ => fresh :: s.drawn
      | _ => s.drawn
    successes := match write with
      | .lastSentAt time =>
        ⟨w, (s.attempt w).id.getD "", (s.attempt w).readAt.getD 0, (s.attempt w).lockedAt.getD 0,
          time, s.clock⟩ :: s.successes
      | _ => s.successes
    held := match (s.seen w).map (write.apply fresh) with
      | some row => if row.installationId ∈ s.held then s.held else row.installationId :: s.held
      | none => s.held
    resets := match write with
      | .installationId _ => s.resets + 1
      | _ => s.resets }

end Installation

/-- The effect of a step. -/
def perform (w : ℕ) : (operation : Op) → Draw → Installation →
    Option (Except Unit (Reply operation) × Installation)
  | .getState, _, s =>
    some (.ok (s.seen w), { s with
      attempt := Function.update s.attempt w { s.attempt w with
        readAt := (s.attempt w).readAt.or (some s.clock) } })
  | .insertState, draw, s =>
    match s.state, s.uncommitted with
    | some _, _ => some (.ok (), s)
    | none, some (v, _) => if v = w then some (.ok (), s) else none
    | none, none =>
      if draw.id ∈ s.drawn then none
      else some (.ok (), { s with
        uncommitted := some (w, ⟨false, draw.id, none⟩)
        drawn := draw.id :: s.drawn })
  | .now, _, s => some (.ok s.clock, s)
  | .lock, _, s =>
    match Redis.find s.redis s.clock lockKey with
    | some _ => some (.ok false, s)
    | none => some (.ok true, { s with
        redis := Redis.set s.redis s.clock lockKey "1" lockTtlSeconds
        attempt := Function.update s.attempt w { s.attempt w with lockedAt := some s.clock }
        taken := (w, s.clock) :: s.taken })
  | .send id, draw, s =>
    some (.ok draw.accepted, { s with
      attempt := Function.update s.attempt w { s.attempt w with id := some id }
      requests := ⟨w, id, (s.attempt w).lockedAt.getD 0, s.clock⟩ :: s.requests })
  | .commit write, draw, s =>
    match write with
    | .installationId _ =>
      if draw.id ∈ s.drawn then none else some (.ok (), s.committed w write draw.id)
    | _ => some (.ok (), s.committed w write draw.id)
  | .rollback, _, s => some (.ok (), { s with uncommitted := s.waiting w })

/-- Time passes. -/
inductive Change
  | tick (milliseconds : ℕ)

def environment : Change → Installation → Option Installation
  | .tick milliseconds, s => some { s with clock := s.clock + milliseconds }

def semantics : Semantics Op Reply Unit Installation Draw Change where
  perform := perform
  environment := environment

/-! ### The programs -/

abbrev Handler (α : Type) := Program Op Reply Unit α

abbrev call (operation : Op) : Handler (Reply operation) := Program.call operation

/-- The row, made where it is missing; the caller commits. The read after the insert finds a row. -/
def ensureState : Handler TelemetryState := do
  call .insertState
  let state ← call .getState
  match state with
  | some row => return row
  | none => .raise ()

/-- The identifier a run sends: one that a missing row gets is committed first. -/
def identifier (state : Option TelemetryState) : Handler String :=
  match state with
  | some row => return row.installationId
  | none => do
    let row ← ensureState
    call (.commit .nothing)
    return row.installationId

/-- `send_report`: every failure is a no. -/
def sendReport (id : String) : Handler Bool := do
  let result ← (call (.send id)).attempt
  match result with
  | .ok accepted => return accepted
  | .error _ => return false

/-- The part of a run that has found a day passed: the lock, the request, the record. -/
def attemptReport (state : Option TelemetryState) : Handler Bool := do
  let result ← (call .lock).attempt
  match result with
  | .ok true => do
    let id ← identifier state
    let accepted ← sendReport id
    if accepted then do
      let now ← call .now
      call (.commit (.lastSentAt now))
      return true
    else return false
  | _ => return false

def reportIfDue (cfg : Settings) : Handler Bool :=
  if cfg.hardOff then return false
  else do
    let state ← call .getState
    if cfg.isEnabled state then
      match state with
      | some row => do
        let now ← call .now
        if row.due now then attemptReport state else return false
      | none => attemptReport state
    else return false

/-- A session: what it has not committed is rolled back, however it ends. -/
def withSession {α : Type} (body : Handler α) : Handler α := body.ensuring .rollback

/-- The row the switch is about: a missing one is made by a yes. -/
def switched (wanted : Bool) (state : Option TelemetryState) : Handler (Option TelemetryState) :=
  match state with
  | some row => return some row
  | none =>
    if wanted then do
      let row ← ensureState
      return some row
    else return none

/-- What the switch writes. -/
def switchWrite (wanted : Bool) (state : Option TelemetryState) : Write :=
  match state with
  | some row => if row.enabled = wanted then .nothing else .enabled wanted
  | none => .nothing

/-- The switch on the system page. -/
def systemTelemetryToggle (cfg : Settings) (enabled : String) : Handler Bool :=
  if cfg.lockedBy.isSome then return false
  else do
    let state ← call .getState
    let state ← switched (decide (enabled = "1")) state
    call (.commit (switchWrite (decide (enabled = "1")) state))
    return true

def systemTelemetryResetId : Handler Bool := do
  let state ← call .getState
  match state with
  | some row => do
    call (.commit (.installationId row.lastSentAt.isSome))
    return true
  | none => return false

/-- The yes of the setup wizard. -/
def wizardYes : Handler Bool := do
  let row ← ensureState
  call (.commit (switchWrite true (some row)))
  return true

inductive Call
  | report (cfg : Settings)
  | toggle (cfg : Settings) (enabled : String)
  | resetId
  | wizardYes
  deriving DecidableEq

def handler : Call → Handler Bool
  | .report cfg => withSession (reportIfDue cfg)
  | .toggle cfg enabled => withSession (systemTelemetryToggle cfg enabled)
  | .resetId => withSession systemTelemetryResetId
  | .wizardYes => withSession wizardYes

abbrev Step := Event Call Unit Draw Change

abbrev Replicas := System Installation (Handler Bool)

/-- An installation whose programs have not started. -/
def start (clock : ℕ) (redis : Redis.Store) (state : Option TelemetryState) : Replicas where
  shared :=
    { clock := clock
      redis := redis
      state := state
      uncommitted := none
      drawn := (state.map TelemetryState.installationId).toList
      attempt := fun _ ↦ ⟨none, none, none⟩
      taken := []
      requests := []
      successes := []
      held := (state.map TelemetryState.installationId).toList
      resets := 0 }
  worker := fun _ ↦ none

end OpenWhistle.Telemetry
