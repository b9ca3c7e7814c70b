import OpenWhistle.Cases.ClosedAt

/-!
# The desk: messages on a case

The office of `Cases`, and the two requests that write into the thread of a case: the reporter's
reply and the admin's. A reply reads the report, decides on what it read, takes the row lock with
SELECT FOR UPDATE, reads the latest time of the thread and commits its message; the admin's reply
may set `feedback_sent_at` with it. `nextSentAt` is the rule that keeps the times of a thread apart.

The thread begins with the receipt that `create_report` stores; a deleted report takes its thread
with it. Times are microseconds from the start of the calendar. A reporter's message keeps the day
only. History are the clock a message was stamped from, whether its request has read an acknowledged
report, the status it was committed on, and the status changes a reply has seen when it read its
report.
-/

set_option autoImplicit false
set_option relaxedAutoImplicit false
set_option linter.unusedSectionVars false

namespace OpenWhistle.Threads

open Interleaving ReadCommitted
open Cases (Row Status Transition Office Fault Page)

/-! ### Times -/

def microsecondsPerDay : ℕ := 86400000000

/-- The day of a time. -/
def dayFloor (moment : ℕ) : ℕ := moment - moment % microsecondsPerDay

/-- The last microsecond of the day of a time. -/
def lastOfDay (moment : ℕ) : ℕ := dayFloor moment + (microsecondsPerDay - 1)

/-- `earliest`, or just after the thread's latest time if that is not before it. -/
def nextAfter (latest : Option ℕ) (earliest : ℕ) : ℕ :=
  match latest with
  | some time => if earliest ≤ time then time + 1 else earliest
  | none => earliest

/-! ### The shared state -/

inductive ReportSender
  | whistleblower
  | admin
  deriving DecidableEq

/-- A message of a thread. The last three fields are history. -/
structure Message where
  sender : ReportSender
  content : String
  sentAt : ℕ
  clock : ℕ
  acknowledged : Bool
  status : Status
  deriving DecidableEq

/-- What a reply commits: its message, and the new value of `feedback_sent_at` if it sets one. -/
structure Posting (ι : Type) where
  report : ι
  sender : ReportSender
  content : String
  sentAt : ℕ
  feedbackSentAt : Option ℕ
  clock : ℕ
  acknowledged : Bool

/-- The columns a reply reads. -/
structure Report where
  row : Row ℕ
  feedbackSentAt : Option ℕ
  deriving DecidableEq

inductive Op (ι : Type)
  | office (operation : Cases.Op ι ℕ)
  | getReport (report : ι)
  | lockReport (report : ι)
  | latestSentAt (report : ι)
  | commitMessage (posting : Posting ι)

@[reducible] def Reply {ι : Type} : Op ι → Type
  | .office operation => Cases.Reply operation
  | .getReport _ => Option Report
  | .lockReport _ => Unit
  | .latestSentAt _ => Option ℕ
  | .commitMessage _ => Unit

/-- The reports with their threads, the latest message first, and the reports an admin's reply was
audited for. -/
structure Desk (ι : Type) where
  office : Office ι ℕ
  messages : ι → List Message
  feedbackSentAt : ι → Option ℕ
  messageSent : List ι
  loaded : ℕ → List (Transition ℕ)

/-- The receipt, which opens a thread; its text is stored under its key. -/
def receipt (today : ℕ) : Message where
  sender := .admin
  content := "system.receipt_message"
  sentAt := today
  clock := today
  acknowledged := false
  status := .received

section Semantics

variable {ι : Type} [DecidableEq ι]

namespace Desk

/-- The threads after the office has moved: a report that is gone takes its thread along. -/
def threadsWith (s : Desk ι) (office : Office ι ℕ) (report : ι) : List Message :=
  if (s.office.table.row report).isSome && (office.table.row report).isNone then []
  else s.messages report

/-- An operation of the office. -/
def withOffice (s : Desk ι) (office : Office ι ℕ) : Desk ι :=
  { s with office := office, messages := s.threadsWith office }

def getReport (s : Desk ι) (report : ι) : Option Report :=
  (s.office.table.row report).map fun row ↦ ⟨row, s.feedbackSentAt report⟩

/-- SELECT FOR UPDATE: the row stays as it is, and nobody else may write it. -/
def lockReport (s : Desk ι) (w : ℕ) (report : ι) : Option (Except Fault Unit × Desk ι) :=
  if s.office.ended w then some (.error .raised, s)
  else
    (s.office.table.write w report some).map fun result ↦
      (.ok (), { s with office := { s.office with table := result.2 } })

def latestSentAt (s : Desk ι) (report : ι) : Option ℕ := ((s.messages report).map Message.sentAt).max?

/-- The message of a posting, committed on a case with a status. -/
def messageOf (posting : Posting ι) (status : Status) : Message where
  sender := posting.sender
  content := posting.content
  sentAt := posting.sentAt
  clock := posting.clock
  acknowledged := posting.acknowledged
  status := status

/-- The desk once a posting has been committed, on a row. -/
def posted (s : Desk ι) (w : ℕ) (posting : Posting ι) (row : Row ℕ) : Desk ι where
  office := { s.office with
    table := s.office.table.commit w
    ended := Function.update s.office.ended w true }
  messages := Function.update s.messages posting.report
    (messageOf posting row.status :: s.messages posting.report)
  feedbackSentAt := Function.update s.feedbackSentAt posting.report
    (posting.feedbackSentAt <|> s.feedbackSentAt posting.report)
  messageSent :=
    if posting.sender = .admin then posting.report :: s.messageSent else s.messageSent
  loaded := s.loaded

/-- The INSERT of a message with the columns and the audit entry that go with it, and the COMMIT. A
message of a report that is gone is refused by its foreign key. -/
def commitMessage (s : Desk ι) (w : ℕ) (posting : Posting ι) :
    Option (Except Fault Unit × Desk ι) :=
  if s.office.ended w then some (.error .raised, s)
  else
    match s.office.table.seenBy w posting.report with
    | none => some (.error .raised, s)
    | some row => some (.ok (), s.posted w posting row)

end Desk

/-- What the environment does: it submits a report, at some time of the day, or aborts a
transaction. -/
inductive Happening (ι : Type)
  | submit (report : ι) (time : ℕ)
  | abort (w : ℕ)

variable (feedbackDue : ℕ → Option ℕ → ℕ)

def perform (w : ℕ) : (operation : Op ι) → ℕ → Desk ι →
    Option (Except Fault (Reply operation) × Desk ι)
  | .office operation, time, s =>
    (Cases.perform w operation time s.office).map fun result ↦ (result.1, s.withOffice result.2)
  | .getReport report, _, s =>
    some (.ok (s.getReport report),
      { s with loaded := Function.update s.loaded w (s.office.transitions report) })
  | .lockReport report, _, s => s.lockReport w report
  | .latestSentAt report, _, s => some (.ok (s.latestSentAt report), s)
  | .commitMessage posting, _, s => s.commitMessage w posting

def environment : Happening ι → Desk ι → Option (Desk ι)
  | .submit report time, s =>
    (Cases.environment feedbackDue (.submit report (dayFloor time)) s.office).map fun office ↦
      { s with
        office := office
        messages := Function.update s.messages report [receipt (dayFloor time)]
        feedbackSentAt := Function.update s.feedbackSentAt report none }
  | .abort w, s =>
    (Cases.environment feedbackDue (.abort w) s.office).map fun office ↦ { s with office := office }

def semantics : Semantics (Op ι) Reply Fault (Desk ι) ℕ (Happening ι) where
  perform := perform
  environment := environment feedbackDue

/-! ### What an operation can do -/

theorem office_cases {s t : Desk ι} {w : ℕ} {operation : Cases.Op ι ℕ} {time : ℕ}
    {reply : Except Fault (Cases.Reply operation)}
    (h : perform w (.office operation) time s = some (reply, t)) :
    ∃ office, Cases.perform w operation time s.office = some (reply, office) ∧
      t = s.withOffice office := by
  obtain ⟨⟨result, office⟩, hperform, heq⟩ := Option.map_eq_some_iff.mp h
  cases heq
  exact ⟨office, hperform, rfl⟩

/-- A SELECT FOR UPDATE finds no row, or locks it as it is. -/
theorem lockReport_cases {s t : Desk ι} {w : ℕ} {report : ι} {reply : Except Fault Unit}
    (h : s.lockReport w report = some (reply, t)) :
    (t = s ∧ (s.office.ended w = true ∨ s.office.table.seenBy w report = none)) ∨
    ∃ row, ¬s.office.table.Blocked w report ∧ s.office.table.seenBy w report = some row ∧
      t = { s with
        office := { s.office with table := s.office.table.lockRow w report (some row) } } := by
  unfold Desk.lockReport at h
  split_ifs at h with hended
  · cases h
    exact .inl ⟨rfl, .inl hended⟩
  · obtain ⟨⟨found, table⟩, hwrite, heq⟩ := Option.map_eq_some_iff.mp h
    cases heq
    rcases Table.write_cases hwrite with ⟨rfl, htable⟩ | ⟨row, hblocked, hseen, -, htable⟩
    · rw [htable]
      exact .inl ⟨rfl, .inr (Table.seenBy_of_write_none hwrite)⟩
    · rw [htable]
      exact .inr ⟨row, hblocked, hseen, rfl⟩

theorem commitMessage_cases {s t : Desk ι} {w : ℕ} {posting : Posting ι}
    {reply : Except Fault Unit} (h : s.commitMessage w posting = some (reply, t)) :
    t = s ∨ ∃ row, s.office.ended w = false ∧
      s.office.table.seenBy w posting.report = some row ∧ t = s.posted w posting row := by
  unfold Desk.commitMessage at h
  split_ifs at h with hended
  · cases h
    exact .inl rfl
  · split at h
    · cases h
      exact .inl rfl
    · rename_i row hseen
      cases h
      exact .inr ⟨row, (Bool.not_eq_true _).mp hended, hseen, rfl⟩

theorem submit_cases {s t : Desk ι} {report : ι} {time : ℕ}
    (h : environment feedbackDue (.submit report time) s = some t) :
    report ∉ s.office.reports ∧ t = { s with
      office := { s.office with
        table := s.office.table.insert report (Row.submitted feedbackDue (dayFloor time))
        reports := report :: s.office.reports }
      messages := Function.update s.messages report [receipt (dayFloor time)]
      feedbackSentAt := Function.update s.feedbackSentAt report none } := by
  obtain ⟨office, hoffice, rfl⟩ := Option.map_eq_some_iff.mp h
  obtain ⟨hnot, rfl⟩ := Cases.submit_cases feedbackDue hoffice
  exact ⟨hnot, rfl⟩

theorem abort_eq {s t : Desk ι} {w : ℕ} (h : environment feedbackDue (.abort w) s = some t) :
    t = { s with office := { s.office with
      table := s.office.table.abort w
      ended := Function.update s.office.ended w true } } := by
  cases h
  rfl

/-- Nobody has submitted a report yet. -/
def Desk.empty : Desk ι where
  office := Office.empty
  messages := fun _ ↦ []
  feedbackSentAt := fun _ ↦ none
  messageSent := []
  loaded := fun _ ↦ []

end Semantics

/-! ### The handlers -/

section Handlers

variable {ι : Type}

abbrev Handler (ι α : Type) := Program (Op ι) Reply Fault α

/-- One operation of a handler. -/
abbrev call (operation : Op ι) : Handler ι (Reply operation) := Program.call operation

/-- A function of the office, as a part of these. -/
def office {α : Type} (program : Cases.Handler ι ℕ α) : Handler ι α :=
  program.lift .office fun _ reply ↦ reply

inductive Answer
  | office (page : Page)
  | redirect (address : String) (status : ℕ)
  | refused (status : ℕ)
  deriving DecidableEq

/-- The requests of the office, and the replies with their text, stripped of surrounding whitespace.
The reporter's reply comes with the report that its session or its credentials open. -/
inductive Request (ι : Type)
  | office (request : Cases.Request ι ℕ)
  | adminReply (report : ι) (content : String) (mayAccess : Bool)
  | reply (opened : Option ι) (content : String)

/-- `_next_sent_at`. -/
def nextSentAt (report : ι) (earliest : ℕ) : Handler ι ℕ := do
  call (.lockReport report)
  let latest ← call (.latestSentAt report)
  return nextAfter latest earliest

/-- `add_whistleblower_message`. -/
def addWhistleblowerMessage (report : ι) (read : Report) (content : String) : Handler ι Unit := do
  let now ← call (.office .now)
  let sentAt ← nextSentAt report (dayFloor now)
  call (.commitMessage
    ⟨report, .whistleblower, content, sentAt, none, now, read.row.acknowledgedAt.isSome⟩)

/-- `add_admin_message`. -/
def addAdminMessage (report : ι) (read : Report) (content : String) : Handler ι Unit := do
  let now ← call (.office .now)
  let sentAt ← nextSentAt report now
  let feedbackSentAt :=
    if read.row.acknowledgedAt.isSome && read.feedbackSentAt.isNone then some sentAt else none
  call (.commitMessage
    ⟨report, .admin, content, sentAt, feedbackSentAt, now, read.row.acknowledgedAt.isSome⟩)

/-- The route `admin_reply`. -/
def adminReply (report : ι) (content : String) (mayAccess : Bool) : Handler ι Answer :=
  (call (.getReport report)).withAuthorized (fun _ ↦ mayAccess) (return .refused 404) fun read ↦
    if content.isEmpty then return .refused 422
    else do
      addAdminMessage report read content
      return .redirect "/admin/reports/" 302

/-- `reply_post`, once the session or the credentials have opened a report. -/
def replyPost (opened : Option ι) (content : String) : Handler ι Answer :=
  match opened with
  | none => return .refused 401
  | some report => do
    let found ← call (.getReport report)
    match found with
    | none => return .refused 401
    | some read =>
      if content.isEmpty then return .refused 422
      else if 5000 < content.length then return .refused 422
      else if read.row.status = .closed then return .redirect "/status?replied=closed" 303
      else do
        addWhistleblowerMessage report read content
        return .redirect "/status?replied=1" 303

def handler (feedbackDue : ℕ → Option ℕ → ℕ) : Request ι → Handler ι Answer
  | .office request => do
    let page ← office (Cases.handler feedbackDue request)
    return .office page
  | .adminReply report content mayAccess => adminReply report content mayAccess
  | .reply opened content => replyPost opened content

abbrev Work (ι : Type) := System (Desk ι) (Handler ι Answer)

abbrev Step (ι : Type) := Event (Request ι) Fault ℕ (Happening ι)

/-- Nothing has happened yet. -/
def start [DecidableEq ι] : Work ι where
  shared := Desk.empty
  worker := fun _ ↦ none

end Handlers

end OpenWhistle.Threads
