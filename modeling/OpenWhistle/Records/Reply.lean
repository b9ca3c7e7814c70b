import OpenWhistle.Records.Store
import OpenWhistle.Reporter.SignIn

/-!
# One reply, seen three times

`reply_post` takes the text of a reporter if there is something in it, if it is not too long, and if
the case is not closed. That is told three times: as what a request writes into the tables, as the
operations of a transaction on the desk, and as what becomes of a session. A reply that nothing comes
between is taken by all of them or by none, and the message gets the same time.
-/

set_option autoImplicit false
set_option relaxedAutoImplicit false

namespace OpenWhistle.Records

open Cases (Status)
open Interleaving
open Threads (Desk dayFloor nextAfter)

variable {Hash Rest : Type} {site : Site Hash}

/-- A text, stripped, that a case takes as a reply. -/
def Takes (status : Status) (stripped : String) : Prop :=
  stripped ≠ "" ∧ stripped.length ≤ maxReply ∧ status ≠ .closed

/-- A desk shows a case as the tables hold it, and nobody is writing it. -/
structure Mirrors (db : Database Hash Rest) (desk : Desk String) (report : Report Hash) : Prop where
  found : db.report report.id = some report
  row : desk.office.table.row report.id = some report.row
  free : desk.office.table.lock report.id = none
  latest : desk.latestSentAt report.id = db.latestSentAt report.id

/-! ### The tables -/

section Tables

variable {db : Database Hash Rest} {report : Report Hash} {content : String} {chance : Chance}
  {clock : Reading → ℕ}

theorem takes_iff {status : Status} {stripped : String} : Takes status stripped ↔
    ¬(stripped = "" ∨ maxReply < stripped.length ∨ status = .closed) := by
  unfold Takes
  rw [not_or, not_or, not_lt]

theorem replyPost_of_takes {sealed : Content} (hfound : db.report report.id = some report)
    (hsealed : encryptMessageContent site report (Text.strip (Text.lf content))
      (chance.iv .message) = some sealed)
    (htakes : Takes report.row.status (Text.strip (Text.lf content))) :
    replyPost site db report.id content chance clock = some [.message
      { id := chance.messageId
        report := report.id
        sender := .whistleblower
        content := sealed
        sentAt := db.nextSentAt report.id (dayFloor (clock .replied)) }] := by
  simp only [replyPost, hfound, Option.bind_eq_bind, Option.bind_some]
  rw [if_neg (takes_iff.mp htakes), addWhistleblowerMessage, hsealed]
  rfl

theorem replyPost_of_not_takes (hfound : db.report report.id = some report)
    (htakes : ¬Takes report.row.status (Text.strip (Text.lf content))) :
    replyPost site db report.id content chance clock = none := by
  simp only [replyPost, hfound, Option.bind_eq_bind, Option.bind_some]
  exact if_pos (not_not.mp (mt takes_iff.mpr htakes))

end Tables

/-! ### The desk -/

section Desks

variable (feedbackDue : ℕ → Option ℕ → ℕ) (w now : ℕ) (desk : Desk String) {report : String}
  {read : Cases.Row ℕ} {stripped : String}

/-- The office that has not moved. -/
theorem withOffice_self : desk.withOffice desk.office = desk := by
  have hthreads : desk.threadsWith desk.office = desk.messages := by
    funext report
    unfold Desk.threadsWith
    cases desk.office.table.row report <;> rfl
  unfold Desk.withOffice
  rw [hthreads]

theorem alone_getReport (hrow : desk.office.table.row report = some read) :
    (Threads.semantics feedbackDue).alone w now (Threads.call (.getReport report)) desk =
      some (.ok (some ⟨read, desk.feedbackSentAt report⟩),
        { desk with loaded := Function.update desk.loaded w (desk.office.transitions report) }) := by
  have hfound : desk.getReport report = some ⟨read, desk.feedbackSentAt report⟩ := by
    rw [Desk.getReport, hrow]
    rfl
  exact Semantics.alone_call (congrArg (fun found ↦ some (Except.ok found, _)) hfound)

/-- The row is locked as it is, with the latest time of the thread still to be seen. -/
theorem alone_nextSentAt {earliest : ℕ} (hrow : desk.office.table.row report = some read)
    (hfree : desk.office.table.lock report = none) (hended : desk.office.ended w = false) :
    (Threads.semantics feedbackDue).alone w now (Threads.nextSentAt report earliest) desk =
      some (.ok (nextAfter (desk.latestSentAt report) earliest),
        { desk with office := { desk.office with
          table := desk.office.table.lockRow w report (some read) } }) := by
  have hunwritten : desk.office.table.writtenBy w report = none := by
    rw [ReadCommitted.Table.writtenBy, hfree]
    rfl
  have hblocked : ¬desk.office.table.Blocked w report := by
    rintro ⟨lock, hlock, -⟩
    rw [hfree] at hlock
    cases hlock
  have hwrite : desk.office.table.write w report some =
      some (some read, desk.office.table.lockRow w report (some read)) := by
    rw [ReadCommitted.Table.write, if_neg hblocked,
      ReadCommitted.Table.seenBy_of_not_writtenBy hunwritten, hrow]
  have hlock : desk.lockReport w report = some (.ok (), { desk with office := { desk.office with
      table := desk.office.table.lockRow w report (some read) } }) := by
    rw [Desk.lockReport, hended, if_neg Bool.false_ne_true, hwrite]
    rfl
  unfold Threads.nextSentAt
  rw [Semantics.alone_bind (Semantics.alone_call hlock)]
  rfl

/-- A message that is stored with nothing in between. -/
theorem alone_addMessage (found : Threads.Report) (stripped : String)
    (hrow : desk.office.table.row report = some read)
    (hfree : desk.office.table.lock report = none) (hended : desk.office.ended w = false) :
    ∃ after stored, (Threads.semantics feedbackDue).alone w now
        (Threads.addWhistleblowerMessage report found stripped) desk = some (.ok (), after) ∧
      after.messages report = stored :: desk.messages report ∧
      stored.sender = .whistleblower ∧ stored.content = stripped ∧
      stored.sentAt = nextAfter (desk.latestSentAt report) (dayFloor now) := by
  have hnow : (Threads.semantics feedbackDue).perform w (.office .now) now desk =
      some (.ok now, desk) := by
    show some (Except.ok now, desk.withOffice desk.office) = _
    rw [withOffice_self]
  unfold Threads.addWhistleblowerMessage
  rw [Semantics.alone_bind (Semantics.alone_call hnow),
    Semantics.alone_bind (alone_nextSentAt feedbackDue w now desk hrow hfree hended)]
  have hcommit : ∀ posting : Threads.Posting String, posting.report = report →
      Desk.commitMessage { desk with office := { desk.office with
        table := desk.office.table.lockRow w report (some read) } } w posting =
          some (.ok (), Desk.posted { desk with office := { desk.office with
            table := desk.office.table.lockRow w report (some read) } } w posting read) := by
    rintro posting rfl
    rw [Desk.commitMessage, hended, if_neg Bool.false_ne_true,
      ReadCommitted.Table.seenBy_of_writtenBy (ReadCommitted.Table.writtenBy_lockRow_self _)]
  refine ⟨_, _, Semantics.alone_call (hcommit _ rfl), Function.update_self .., rfl, rfl, rfl⟩

/-- A reply that the case takes, run with nothing in between. -/
theorem desk_reply_of_takes (hrow : desk.office.table.row report = some read)
    (hfree : desk.office.table.lock report = none) (hended : desk.office.ended w = false)
    (htakes : Takes read.status stripped) :
    ∃ after stored, (Threads.semantics feedbackDue).alone w now
        (Threads.replyPost (some report) stripped) desk =
          some (.ok (.redirect "/status?replied=1" 303), after) ∧
      after.messages report = stored :: desk.messages report ∧
      stored.sender = .whistleblower ∧ stored.content = stripped ∧
      stored.sentAt = nextAfter (desk.latestSentAt report) (dayFloor now) := by
  obtain ⟨hfilled, hshort, hopen⟩ := htakes
  obtain ⟨after, stored, hadd, hthread⟩ := alone_addMessage feedbackDue w now
    { desk with loaded := Function.update desk.loaded w (desk.office.transitions report) }
    ⟨read, desk.feedbackSentAt report⟩ stripped hrow hfree hended
  refine ⟨after, stored, ?_, hthread⟩
  show (Threads.semantics feedbackDue).alone w now (Threads.call (.getReport report) >>= _) desk = _
  rw [Semantics.alone_bind (alone_getReport feedbackDue w now desk hrow)]
  dsimp only
  have hlong : ¬5000 < stripped.length := not_lt.mpr hshort
  rw [if_neg (by rwa [String.isEmpty_iff]), if_neg hlong, if_neg hopen, Semantics.alone_bind hadd]
  rfl

/-- One that it does not take. -/
theorem desk_reply_of_not_takes (hrow : desk.office.table.row report = some read)
    (htakes : ¬Takes read.status stripped) :
    ∃ answer after, (Threads.semantics feedbackDue).alone w now
        (Threads.replyPost (some report) stripped) desk = some (.ok answer, after) ∧
      answer ≠ .redirect "/status?replied=1" 303 ∧ after.messages = desk.messages := by
  have hrefused : ∃ answer : Threads.Answer, answer ≠ .redirect "/status?replied=1" 303 ∧
      (if stripped.isEmpty then (return .refused 422)
        else if 5000 < stripped.length then return .refused 422
        else if read.status = .closed then return .redirect "/status?replied=closed" 303
        else do
          Threads.addWhistleblowerMessage report ⟨read, desk.feedbackSentAt report⟩ stripped
          return .redirect "/status?replied=1" 303 : Threads.Handler String Threads.Answer) =
        .ret answer := by
    by_cases hempty : stripped.isEmpty
    · exact ⟨_, by decide, if_pos hempty⟩
    by_cases hlong : 5000 < stripped.length
    · exact ⟨_, by decide, (if_neg hempty).trans (if_pos hlong)⟩
    by_cases hclosed : read.status = .closed
    · exact ⟨_, by decide, (if_neg hempty).trans ((if_neg hlong).trans (if_pos hclosed))⟩
    · exact absurd ⟨fun h ↦ hempty (String.isEmpty_iff.mpr h), not_lt.mp hlong, hclosed⟩ htakes
  obtain ⟨answer, hanswer, hprogram⟩ := hrefused
  refine ⟨answer,
    { desk with loaded := Function.update desk.loaded w (desk.office.transitions report) },
    ?_, hanswer, rfl⟩
  show (Threads.semantics feedbackDue).alone w now (Threads.call (.getReport report) >>= _) desk = _
  rw [Semantics.alone_bind (alone_getReport feedbackDue w now desk hrow)]
  dsimp only
  rw [hprogram]
  rfl

end Desks

/-- With nothing in between, a reply is stored in the tables and on the desk, at the same time of the
thread, or in neither. -/
theorem replies_agree {db : Database Hash Rest} {desk : Desk String} {report : Report Hash}
    (h : Mirrors db desk report) {w : ℕ} (hended : desk.office.ended w = false)
    (feedbackDue : ℕ → Option ℕ → ℕ) {content : String} {chance : Chance} {clock : Reading → ℕ}
    {sealed : Content} (hsealed : encryptMessageContent site report
      (Text.strip (Text.lf content)) (chance.iv .message) = some sealed) :
    (∃ message after stored, replyPost site db report.id content chance clock =
        some [.message message] ∧
      (Threads.semantics feedbackDue).alone w (clock .replied)
          (Threads.replyPost (some report.id) (Text.strip (Text.lf content))) desk =
        some (.ok (.redirect "/status?replied=1" 303), after) ∧
      after.messages report.id = stored :: desk.messages report.id ∧
      stored.sender = message.sender ∧ stored.sentAt = message.sentAt) ∨
    (replyPost site db report.id content chance clock = none ∧
      ∃ answer after, (Threads.semantics feedbackDue).alone w (clock .replied)
          (Threads.replyPost (some report.id) (Text.strip (Text.lf content))) desk =
        some (.ok answer, after) ∧
      answer ≠ .redirect "/status?replied=1" 303 ∧ after.messages = desk.messages) := by
  by_cases htakes : Takes report.row.status (Text.strip (Text.lf content))
  · left
    obtain ⟨after, stored, hdesk, hthread, hsender, -, htime⟩ :=
      desk_reply_of_takes feedbackDue w (clock .replied) desk h.row h.free hended htakes
    refine ⟨_, after, stored, replyPost_of_takes h.found hsealed htakes, hdesk, hthread, hsender, ?_⟩
    rw [htime, h.latest]
    rfl
  · exact .inr ⟨replyPost_of_not_takes h.found htakes,
      desk_reply_of_not_takes feedbackDue w (clock .replied) desk h.row htakes⟩

/-! ### The session -/

/-- What a reporter's page says of a reply in a session. -/
theorem takeReply_iff (site : Reporter.Site Hash) (s : Reporter.State site.pins) (a : Reporter.Attempt)
    (session : String) (report : Reporter.Case site.pins) (content : String) :
    (Reporter.takeReply site s a session report content).1 =
        .seeOther "/status?replied=1" a.fresh ↔
      Takes report.status (Text.strip content) := by
  have hlength : (Text.strip content).toList.length = (Text.strip content).length :=
    String.length_toList
  rw [takes_iff, Reporter.takeReply, hlength]
  dsimp only
  by_cases hempty : Text.strip content = ""
  · rw [if_pos hempty]
    exact iff_of_false (fun h ↦ by cases h) (not_not.mpr (.inl hempty))
  by_cases hlong : Reporter.maxReply < (Text.strip content).length
  · rw [if_neg hempty, if_pos hlong]
    exact iff_of_false (fun h ↦ by cases h) (not_not.mpr (.inr (.inl hlong)))
  rw [if_neg hempty, if_neg hlong]
  by_cases hclosed : report.status = .closed
  · refine iff_of_false (fun h ↦ ?_) (not_not.mpr (.inr (.inr hclosed)))
    rw [hclosed] at h
    exact absurd (Reporter.Answer.seeOther.inj h).1 (by decide)
  · refine iff_of_true ?_ (not_or.mpr ⟨hempty, not_or.mpr ⟨hlong, hclosed⟩⟩)
    rw [decide_eq_false hclosed]
    rfl

end OpenWhistle.Records
