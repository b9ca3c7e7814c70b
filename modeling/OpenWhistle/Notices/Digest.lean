import Mathlib.Data.List.Sort
import Mathlib.Data.String.Basic
import OpenWhistle.Foundation.Interleaving

/-!
# Notices about cases

A new report and a message of a whistleblower are noted in two sets, and a scheduled run takes both
sets at once and sends a digest of them; when no channel takes the digest, the run puts the cases
back, one set after the other. Another scheduled run reminds of the deadlines of open cases, and marks
each reminder that was sent. The deletion of a case removes its number from the two sets and deletes
its marks, after the commit.

Whether a channel delivers, which cases are open and what is due are drawn. Histories are the notices
with where each of them is, the digests that were delivered, what was named in a message, and the
cases that were removed.
-/

set_option autoImplicit false
set_option relaxedAutoImplicit false

namespace OpenWhistle.Notices

open Interleaving

inductive Kind
  | newReports
  | newMessages
  deriving DecidableEq

inductive Mark
  | ack
  | feedback
  deriving DecidableEq

structure Settings where
  emailEnabled : Bool
  webhookEnabled : Bool
  notificationBatchMinutes : ℤ
  reminderEnabled : Bool

/-- `_channels_enabled`. -/
def Settings.channelsEnabled (cfg : Settings) : Bool := cfg.emailEnabled || cfg.webhookEnabled

/-- An open case, and whether its reminders are due. -/
structure Due where
  caseNumber : String
  ack : Bool
  feedback : Bool

def Due.on (due : Due) : Mark → Bool
  | .ack => due.ack
  | .feedback => due.feedback

inductive Op
  | submit (caseNumber : String)
  | loadReport (caseNumber : String)
  | commitMessage (caseNumber : String)
  | sadd (kind : Kind) (caseNumber : String)
  | sendNow (kind : Kind) (caseNumber : String)
  | take
  | deliver (newReports newMessages : List String)
  | requeue (kind : Kind) (cases : List String)
  | lock
  | unlock
  | selectOpen
  | existsMark (mark : Mark) (caseNumber : String)
  | dispatchReminder (caseNumber : String)
  | setMark (mark : Mark) (caseNumber : String)
  | loadReports (cases : List String)
  | commitDeletion (cases : List String)
  | srem (kind : Kind) (caseNumber : String)
  | deleteMarks (caseNumber : String)

@[reducible] def Reply : Op → Type
  | .submit _ => Unit
  | .loadReport _ => Bool
  | .commitMessage _ => Bool
  | .sadd _ _ => Unit
  | .sendNow _ _ => Unit
  | .take => List String × List String
  | .deliver _ _ => Bool
  | .requeue _ _ => Unit
  | .lock => Bool
  | .unlock => Unit
  | .selectOpen => List Due
  | .existsMark _ _ => Bool
  | .dispatchReminder _ => Bool
  | .setMark _ _ => Unit
  | .loadReports _ => List String
  | .commitDeletion _ => Unit
  | .srem _ _ => Unit
  | .deleteMarks _ => Unit

/-- Where a notice is. -/
inductive Place
  | queued
  | held (run : ℕ)
  | delivered (run : ℕ)
  deriving DecidableEq

structure Post where
  reports : List String
  queue : Kind → List String
  marks : List (Mark × String)
  locked : Bool
  /-- The numbers that cases have had. -/
  known : List String
  /-- The notices that were queued, in their order, and where each of them is. -/
  notices : List (Kind × String)
  place : ℕ → Place
  /-- How many notices there were when a run took the sets. -/
  tookAt : ℕ → Option ℕ
  /-- What was delivered, and by which run. -/
  deliveries : List (ℕ × Kind × String)
  /-- Who has named which case. -/
  mentions : List (ℕ × String)
  /-- The cases that were removed from a set, and those whose marks were deleted. -/
  forgotten : Kind → List String
  unmarked : List String

structure Draw where
  email : Bool
  webhook : Bool
  due : List Due

/-- SADD. -/
def sadd (set members : List String) : List String :=
  set ++ members.filter fun member ↦ member ∉ set

/-- The notices of the digest of one run. -/
def named (newReports newMessages : List String) : List (Kind × String) :=
  newReports.map (fun caseNumber ↦ (.newReports, caseNumber)) ++
    newMessages.map fun caseNumber ↦ (.newMessages, caseNumber)

/-- At least one channel delivers; without a channel there is nothing to do. -/
def delivers (cfg : Settings) (draw : Draw) : Bool :=
  !cfg.channelsEnabled || (cfg.emailEnabled && draw.email) || (cfg.webhookEnabled && draw.webhook)

namespace Post

variable (s : Post) (w : ℕ)

def notify (kind : Kind) (caseNumber : String) : Post :=
  { s with
    queue := Function.update s.queue kind (sadd (s.queue kind) [caseNumber])
    notices := s.notices ++ [(kind, caseNumber)]
    place := Function.update s.place s.notices.length .queued }

def taken : Post :=
  { s with
    queue := fun _ ↦ []
    place := fun i ↦ if i < s.notices.length ∧ s.place i = .queued then .held w else s.place i
    tookAt := Function.update s.tookAt w (some s.notices.length) }

def delivered (newReports newMessages : List String) : Post :=
  { s with
    place := fun i ↦ if s.place i = .held w then .delivered w else s.place i
    deliveries := (named newReports newMessages).map (fun notice ↦ (w, notice)) ++ s.deliveries }

def mention (cases : List String) : Post :=
  { s with mentions := cases.map (fun caseNumber ↦ (w, caseNumber)) ++ s.mentions }

def requeue (kind : Kind) (cases : List String) : Post :=
  { s with
    queue := Function.update s.queue kind (sadd (s.queue kind) cases)
    place := fun i ↦
      if s.place i = .held w ∧ s.notices[i]?.map Prod.fst = some kind then .queued else s.place i }

end Post

/-- The effect of a step. -/
def perform {ε : Type} (cfg : Settings) (w : ℕ) : (operation : Op) → Draw → Post →
    Option (Except ε (Reply operation) × Post)
  | .submit caseNumber, _, s =>
    if caseNumber ∈ s.known then none
    else some (.ok (), { s with
      reports := caseNumber :: s.reports
      known := caseNumber :: s.known })
  | .loadReport caseNumber, _, s => some (.ok (decide (caseNumber ∈ s.reports)), s)
  | .commitMessage caseNumber, _, s => some (.ok (decide (caseNumber ∈ s.reports)), s)
  | .sadd kind caseNumber, _, s => some (.ok (), s.notify kind caseNumber)
  | .sendNow _ caseNumber, _, s => some (.ok (), s.mention w [caseNumber])
  | .take, _, s => some (.ok (s.queue .newReports, s.queue .newMessages), s.taken w)
  | .deliver newReports newMessages, draw, s =>
    if delivers cfg draw then
      some (.ok true, (s.delivered w newReports newMessages).mention w (newReports ++ newMessages))
    else some (.ok false, s.mention w (newReports ++ newMessages))
  | .requeue kind cases, _, s => some (.ok (), s.requeue w kind cases)
  | .lock, _, s => some (.ok !s.locked, { s with locked := true })
  | .unlock, _, s => some (.ok (), { s with locked := false })
  | .selectOpen, draw, s => some (.ok (draw.due.filter fun due ↦ due.caseNumber ∈ s.reports), s)
  | .existsMark mark caseNumber, _, s => some (.ok (decide ((mark, caseNumber) ∈ s.marks)), s)
  | .dispatchReminder caseNumber, draw, s => some (.ok draw.email, s.mention w [caseNumber])
  | .setMark mark caseNumber, _, s =>
    some (.ok (), { s with marks := (mark, caseNumber) :: s.marks })
  | .loadReports cases, _, s =>
    some (.ok (cases.filter fun caseNumber ↦ caseNumber ∈ s.reports), s)
  | .commitDeletion cases, _, s =>
    some (.ok (), { s with reports := s.reports.filter fun caseNumber ↦ caseNumber ∉ cases })
  | .srem kind caseNumber, _, s =>
    some (.ok (), { s with
      queue := Function.update s.queue kind ((s.queue kind).filter fun other ↦ other ≠ caseNumber)
      forgotten := Function.update s.forgotten kind (caseNumber :: s.forgotten kind) })
  | .deleteMarks caseNumber, _, s =>
    some (.ok (), { s with
      marks := s.marks.filter fun item ↦ item.2 ≠ caseNumber
      unmarked := caseNumber :: s.unmarked })

/-- A mark or the lock of the reminders expires. -/
inductive Change
  | expireMark (mark : Mark) (caseNumber : String)
  | expireLock

def environment : Change → Post → Option Post
  | .expireMark mark caseNumber, s =>
    some { s with marks := s.marks.filter fun item ↦ item ≠ (mark, caseNumber) }
  | .expireLock, s => some { s with locked := false }

def semantics (ε : Type) (cfg : Settings) : Semantics Op Reply ε Post Draw Change where
  perform := perform cfg
  environment := environment

/-! ### The requests and the jobs -/

abbrev Handler (ε α : Type) := Program Op Reply ε α

section Handlers

variable {ε : Type}

abbrev call (operation : Op) : Handler ε (Reply operation) := Program.call operation

inductive Answer
  | done
  | refused
  | erased (cases : List String)
  deriving DecidableEq

inductive Request
  | submitReport (caseNumber : String)
  | whistleblowerMessage (caseNumber : String)
  | digest
  | reminders
  /-- A confirmed deletion, or a run of the retention. -/
  | delete (cases : List String)

/-- `_queue_or_send`. An exception of Redis is logged, and no more. -/
def queueOrSend (cfg : Settings) (kind : Kind) (caseNumber : String) : Handler ε Unit :=
  if cfg.channelsEnabled = false then return ()
  else if cfg.notificationBatchMinutes ≤ 0 then call (.sendNow kind caseNumber)
  else do
    let _ ← (call (.sadd kind caseNumber) : Handler ε Unit).attempt
    return ()

def submitReport (cfg : Settings) (caseNumber : String) : Handler ε Answer := do
  call (.submit caseNumber)
  queueOrSend cfg .newReports caseNumber
  return .done

/-- A message of the whistleblower: the report is read, the message committed, and then noted. -/
def whistleblowerMessage (cfg : Settings) (caseNumber : String) : Handler ε Answer := do
  let found ← call (.loadReport caseNumber)
  if found then do
    let committed ← call (.commitMessage caseNumber)
    if committed then do
      queueOrSend cfg .newMessages caseNumber
      return .done
    else return .refused
  else return .refused

/-- One round of the loop of `_requeue`. -/
def requeueKind (kind : Kind) (cases : List String) : Handler ε Unit :=
  if cases ≠ [] then call (.requeue kind cases) else return ()

/-- `_requeue`, of which an exception is logged. -/
def requeueAll (newReports newMessages : List String) : Handler ε Unit := do
  let _ ← ((do
    requeueKind .newReports newReports
    requeueKind .newMessages newMessages) : Handler ε Unit).attempt
  return ()

def deliverNotificationDigest : Handler ε Answer := do
  let read ← (call .take : Handler ε (List String × List String)).attempt
  match read with
  | .error _ => return .done
  | .ok (newReports, newMessages) =>
    if newReports ≠ [] ∨ newMessages ≠ [] then do
      let delivered ← call (.deliver (newReports.insertionSort (· ≤ ·))
        (newMessages.insertionSort (· ≤ ·)))
      if delivered then return .done
      else do
        requeueAll newReports newMessages
        return .done
    else return .done

/-- `_check_ack_reminder` and `_check_feedback_reminder`. -/
def checkReminder (mark : Mark) (due : Due) : Handler ε Unit :=
  if due.on mark = false then return ()
  else do
    let sent ← call (.existsMark mark due.caseNumber)
    if sent then return ()
    else do
      let dispatched ← call (.dispatchReminder due.caseNumber)
      if dispatched then call (.setMark mark due.caseNumber)
      else return ()

/-- The checks of every open case. An exception ends those of one case, and no others. -/
def checkReports : List Due → Handler ε Unit
  | [] => return ()
  | due :: rest => do
    let _ ← ((do
      checkReminder .ack due
      checkReminder .feedback due) : Handler ε Unit).attempt
    checkReports rest

def sendSlaReminders (cfg : Settings) : Handler ε Answer :=
  if cfg.reminderEnabled = false then return .done
  else do
    let locked ← call .lock
    if locked then do
      let open_ ← call .selectOpen
      checkReports open_
      call .unlock
      return .done
    else return .done

/-- `forget_case`. -/
def forgetCase (caseNumber : String) : Handler ε Unit := do
  call (.srem .newReports caseNumber)
  call (.srem .newMessages caseNumber)
  call (.deleteMarks caseNumber)

def forgetCases : List String → Handler ε Unit
  | [] => return ()
  | caseNumber :: rest => do
    forgetCase caseNumber
    forgetCases rest

/-- `confirm_delete` and `run_retention_cleanup`, whose reports are read, deleted and forgotten. -/
def delete (cases : List String) : Handler ε Answer := do
  let reports ← call (.loadReports cases)
  call (.commitDeletion reports)
  forgetCases reports
  return .erased reports

def handler (cfg : Settings) : Request → Handler ε Answer
  | .submitReport caseNumber => submitReport cfg caseNumber
  | .whistleblowerMessage caseNumber => whistleblowerMessage cfg caseNumber
  | .digest => deliverNotificationDigest
  | .reminders => sendSlaReminders cfg
  | .delete cases => delete cases

end Handlers

abbrev Step (ε : Type) := Event Request ε Draw Change

abbrev Office (ε : Type) := System Post (Handler ε Answer)

/-- Nothing is reported, noted or marked. -/
def Post.empty : Post where
  reports := []
  queue := fun _ ↦ []
  marks := []
  locked := false
  known := []
  notices := []
  place := fun _ ↦ .queued
  tookAt := fun _ ↦ none
  deliveries := []
  mentions := []
  forgotten := fun _ ↦ []
  unmarked := []

def start (ε : Type) : Office ε where
  shared := Post.empty
  worker := fun _ ↦ none

end OpenWhistle.Notices
