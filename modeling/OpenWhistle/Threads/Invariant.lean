import OpenWhistle.Threads.Desk
import Mathlib.Data.List.Basic

/-!
# What the requests at the desk owe each other

The invariant: the times of a thread strictly decrease from its latest message down to the receipt,
and every reporter's message lies on its day; a row has the status its last transition led to; and
every lock is on a committed row and holds that row as it was, an UPDATE that was decided on what a
request has read, or a deletion.

A reply relies on the row lock: as long as its transaction has not been aborted, nobody else writes
the row or its thread, so that the latest time it has read is still the latest one when it commits.
Where the report is gone before the lock, it stays gone and the message is refused.
-/

set_option autoImplicit false
set_option relaxedAutoImplicit false
set_option linter.unusedSectionVars false

namespace OpenWhistle.Threads

open Interleaving ReadCommitted
open Cases (Row Status Transition Office Fault Page Change TransactionKept Unwritten lastStatus)

variable {ι : Type} [DecidableEq ι] {feedbackDue : ℕ → Option ℕ → ℕ}

/-! ### The thread -/

/-- The messages of a thread strictly increase in time, from the oldest to the latest. -/
def Ordered (messages : List Message) : Prop :=
  messages.Pairwise fun later earlier ↦ earlier.sentAt < later.sentAt

/-- Every reporter's message lies on the day of its clock, unless an earlier message of the thread
leaves no time on that day. -/
def OnTheirDays : List Message → Prop
  | [] => True
  | message :: earlier =>
    (message.sender = .whistleblower → dayFloor message.sentAt = dayFloor message.clock ∨
      ∃ other ∈ earlier, lastOfDay message.clock ≤ other.sentAt) ∧ OnTheirDays earlier

/-- The earliest time a posting may get, going by its own clock alone. -/
def Posting.earliest (posting : Posting ι) : ℕ :=
  if posting.sender = .whistleblower then dayFloor posting.clock else posting.clock

theorem le_nextAfter (latest : Option ℕ) (earliest : ℕ) : earliest ≤ nextAfter latest earliest := by
  cases latest with
  | none => exact le_rfl
  | some time =>
    show earliest ≤ if earliest ≤ time then time + 1 else earliest
    split_ifs <;> omega

theorem lt_nextAfter {latest : Option ℕ} {time : ℕ} (h : latest = some time) (earliest : ℕ) :
    time < nextAfter latest earliest := by
  subst h
  show time < if earliest ≤ time then time + 1 else earliest
  split_ifs <;> omega

theorem nextAfter_le {latest : Option ℕ} {earliest bound : ℕ} (hearliest : earliest ≤ bound)
    (hlatest : ∀ time, latest = some time → time < bound) : nextAfter latest earliest ≤ bound := by
  cases latest with
  | none => exact hearliest
  | some time =>
    have hlt := hlatest time rfl
    show (if earliest ≤ time then time + 1 else earliest) ≤ bound
    split_ifs <;> omega

theorem dayFloor_eq_of_mem_day {moment time : ℕ} (hfirst : dayFloor moment ≤ time)
    (hlast : time ≤ lastOfDay moment) : dayFloor time = dayFloor moment := by
  unfold lastOfDay dayFloor microsecondsPerDay at *
  omega

theorem mem_times {message : Message} {messages : List Message} (h : message ∈ messages) :
    ∃ latest, (messages.map Message.sentAt).max? = some latest ∧ message.sentAt ≤ latest := by
  have hmem : message.sentAt ∈ messages.map Message.sentAt := List.mem_map_of_mem h
  cases hmax : (messages.map Message.sentAt).max? with
  | none =>
    rw [List.max?_eq_none_iff.mp hmax] at hmem
    cases hmem
  | some latest => exact ⟨latest, rfl, (List.max?_eq_some_iff.mp hmax).2 _ hmem⟩

/-- A message that is stamped after the latest one extends the order. -/
theorem Ordered.post {messages : List Message} (h : Ordered messages) {message : Message}
    {earliest : ℕ}
    (hsent : message.sentAt = nextAfter ((messages.map Message.sentAt).max?) earliest) :
    Ordered (message :: messages) := by
  refine List.pairwise_cons.mpr ⟨fun other hother ↦ ?_, h⟩
  obtain ⟨latest, hlatest, hle⟩ := mem_times hother
  rw [hsent]
  exact lt_of_le_of_lt hle (lt_nextAfter hlatest earliest)

/-- A reporter's message that is stamped from the start of its day stays on the day, or follows a
message that has used the day up. -/
theorem OnTheirDays.post {messages : List Message} (h : OnTheirDays messages) {message : Message}
    {earliest : ℕ}
    (hsent : message.sentAt = nextAfter ((messages.map Message.sentAt).max?) earliest)
    (hday : message.sender = .whistleblower → earliest = dayFloor message.clock) :
    OnTheirDays (message :: messages) := by
  refine ⟨fun hsender ↦ ?_, h⟩
  have hfloor := hday hsender
  by_cases hfull : ∃ other ∈ messages, lastOfDay message.clock ≤ other.sentAt
  · exact .inr hfull
  · left
    apply dayFloor_eq_of_mem_day
    · rw [hsent, ← hfloor]
      exact le_nextAfter _ _
    · rw [hsent]
      refine nextAfter_le ?_ fun latest hlatest ↦ ?_
      · rw [hfloor]
        exact Nat.le_add_right _ _
      · obtain ⟨other, hother, rfl⟩ := List.mem_map.mp (List.max?_mem hlatest)
        exact lt_of_not_ge fun hge ↦ hfull ⟨other, hother, hge⟩

/-! ### The invariant -/

/-- The UPDATE that a transaction has flushed for a report. -/
def Updating (feedbackDue : ℕ → Option ℕ → ℕ) (s : Office ι ℕ) (w : ℕ) (report : ι)
    (old new : Row ℕ) : Prop :=
  ∃ change, s.flushed w = some change ∧ change.report = report ∧
    Row.Decided feedbackDue change.time change.read change.new ∧
    new = Row.updated change.read change.new old

/-- What a lock on a report can hold. -/
def LockSound (feedbackDue : ℕ → Option ℕ → ℕ) (s : Office ι ℕ) (w : ℕ) (report : ι)
    (written : Option (Row ℕ)) : Prop :=
  ∃ old, s.table.row report = some old ∧
    ∀ new, written = some new → new = old ∨ Updating feedbackDue s w report old new

structure DeskSound (feedbackDue : ℕ → Option ℕ → ℕ) (s : Desk ι) : Prop where
  locks : ∀ report w written, s.office.table.lock report = some ⟨w, written⟩ →
    LockSound feedbackDue s.office w report written
  status : ∀ report row, s.office.table.row report = some row →
    row.status = lastStatus (s.office.transitions report)
  unknown : ∀ report, report ∉ s.office.reports → Cases.Unknown s.office report
  ordered : ∀ report, Ordered (s.messages report)
  days : ∀ report, OnTheirDays (s.messages report)
  receipt : ∀ report row, s.office.table.row report = some row →
    ∃ newer today, s.messages report = newer ++ [receipt today]

theorem DeskSound.mem_reports {s : Desk ι} (h : DeskSound feedbackDue s) {report : ι} {row : Row ℕ}
    (hrow : s.office.table.row report = some row) : report ∈ s.office.reports := by
  by_contra hnot
  rw [(h.unknown report hnot).row] at hrow
  cases hrow

/-- Where there is no row, nobody has written one. -/
theorem DeskSound.seenBy_eq_none {s : Desk ι} (h : DeskSound feedbackDue s) (w : ℕ) {report : ι}
    (hrow : s.office.table.row report = none) : s.office.table.seenBy w report = none := by
  cases hwritten : s.office.table.writtenBy w report with
  | none => rw [Table.seenBy_of_not_writtenBy hwritten, hrow]
  | some written =>
    obtain ⟨old, hold, -⟩ := h.locks report w written (Table.writtenBy_eq_some.mp hwritten)
    rw [hrow] at hold
    cases hold

/-- The row a commit leaves is the committed one, or an UPDATE of it. -/
theorem DeskSound.seenBy_cases {s : Desk ι} (h : DeskSound feedbackDue s) {w : ℕ} {report : ι}
    {new : Row ℕ} (hseen : s.office.table.seenBy w report = some new) :
    ∃ old, s.office.table.row report = some old ∧
      (new = old ∨ s.office.table.writtenBy w report = some (some new) ∧
        Updating feedbackDue s.office w report old new) := by
  cases hwritten : s.office.table.writtenBy w report with
  | none =>
    rw [Table.seenBy_of_not_writtenBy hwritten] at hseen
    exact ⟨new, hseen, .inl rfl⟩
  | some written =>
    rw [Table.seenBy_of_writtenBy hwritten] at hseen
    subst hseen
    obtain ⟨old, hold, hlock⟩ := h.locks report w _ (Table.writtenBy_eq_some.mp hwritten)
    rcases hlock new rfl with hsame | hupdating
    · exact ⟨old, hold, .inl hsame⟩
    · exact ⟨old, hold, .inr ⟨rfl, hupdating⟩⟩

/-! ### What a request relies on -/

/-- What the others leave alone of a request: its transaction, the threads of the reports it has
locked, and what it has loaded; a report that is gone stays gone, and `feedback_sent_at` stays
set. -/
structure DeskKept (w : ℕ) (s t : Desk ι) : Prop where
  office : TransactionKept w s.office t.office
  messages : ∀ report, (t.office.table.writtenBy w report).isSome = true →
    t.messages report = s.messages report
  gone : ∀ report ∈ s.office.reports, s.office.table.row report = none →
    t.office.table.row report = none
  feedback : ∀ report ∈ s.office.reports, (s.feedbackSentAt report).isSome = true →
    (t.feedbackSentAt report).isSome = true
  loaded : t.loaded w = s.loaded w

theorem DeskKept.refl (w : ℕ) (s : Desk ι) : DeskKept w s s :=
  ⟨TransactionKept.refl w s.office, fun _ _ ↦ rfl, fun _ _ h ↦ h, fun _ _ h ↦ h, rfl⟩

/-- What is written now was written before. -/
theorem writtenBy_of_kept {w : ℕ} {s t : Office ι ℕ} (h : TransactionKept w s t) {report : ι}
    (hwritten : (t.table.writtenBy w report).isSome = true) :
    Table.Kept w s.table t.table ∧ (s.table.writtenBy w report).isSome = true := by
  rcases h.table with htable | ⟨-, hfree⟩
  · rw [htable.written report] at hwritten
    exact ⟨htable, hwritten⟩
  · rw [hfree report] at hwritten
    cases hwritten

theorem DeskKept.trans {w : ℕ} {s t u : Desk ι} (hst : DeskKept w s t) (htu : DeskKept w t u) :
    DeskKept w s u where
  office := hst.office.trans htu.office
  messages report hwritten :=
    (htu.messages report hwritten).trans
      (hst.messages report (writtenBy_of_kept htu.office hwritten).2)
  gone report hmem hrow :=
    htu.gone report (hst.office.reports report hmem) (hst.gone report hmem hrow)
  feedback report hmem hset :=
    htu.feedback report (hst.office.reports report hmem) (hst.feedback report hmem hset)
  loaded := htu.loaded.trans hst.loaded

/-- The transaction holds the lock of one report, with the row as it is committed, and no other
lock. -/
structure Holding (w : ℕ) (report : ι) (s : Desk ι) : Prop where
  row : ∃ row, s.office.table.row report = some row ∧
    s.office.table.writtenBy w report = some (some row)
  alone : ∀ other, other ≠ report → s.office.table.writtenBy w other = none

/-- The report was deleted before its lock, and nothing is written. -/
structure Gone (w : ℕ) (report : ι) (s : Desk ι) : Prop where
  known : report ∈ s.office.reports
  row : s.office.table.row report = none
  free : Unwritten w s.office

/-- What a reply knows once it has asked for the lock. -/
def Locked (w : ℕ) (report : ι) (s : Desk ι) : Prop :=
  s.office.ended w = true ∨ Holding w report s ∨ Gone w report s

theorem Holding.kept {w : ℕ} {report : ι} {s t : Desk ι} (h : Holding w report s)
    (hkept : Table.Kept w s.office.table t.office.table) : Holding w report t where
  row := by
    obtain ⟨row, hrow, hwritten⟩ := h.row
    refine ⟨row, ?_, (hkept.written report).trans hwritten⟩
    rw [hkept.row report (by rw [hwritten]; rfl), hrow]
  alone other hne := (hkept.written other).trans (h.alone other hne)

theorem Locked.kept {w : ℕ} {report : ι} {s t : Desk ι} (h : Locked w report s)
    (hkept : DeskKept w s t) : Locked w report t := by
  rcases hkept.office.table with htable | ⟨hended, -⟩
  · rcases h with hended | hholding | hgone
    · exact .inl (hkept.office.ended hended)
    · exact .inr (.inl (hholding.kept htable))
    · exact .inr (.inr ⟨hkept.office.reports report hgone.known,
        hkept.gone report hgone.known hgone.row, hgone.free.kept hkept.office⟩)
  · exact .inl hended

/-- A commit under a row lock changes no row. -/
theorem Holding.rows {w : ℕ} {report : ι} {s : Desk ι} (h : Holding w report s) :
    (s.office.table.commit w).row = s.office.table.row := by
  funext other
  show s.office.table.seenBy w other = _
  by_cases heq : other = report
  · subst heq
    obtain ⟨row, hrow, hwritten⟩ := h.row
    rw [Table.seenBy_of_writtenBy hwritten, hrow]
  · exact Table.seenBy_of_not_writtenBy (h.alone other heq)

/-- What a reply has made of what it read: it sets `feedback_sent_at` only from a report that was
acknowledged, leaves it out only where it is set, and a reporter does not reply to a report that was
read as closed. -/
structure Considered (w : ℕ) (posting : Posting ι) (s : Desk ι) : Prop where
  known : posting.report ∈ s.office.reports
  sets : ∀ time, posting.feedbackSentAt = some time →
    time = posting.sentAt ∧ posting.sender = .admin ∧ posting.acknowledged = true
  keeps : posting.sender = .admin → posting.acknowledged = true → posting.feedbackSentAt = none →
    (s.feedbackSentAt posting.report).isSome = true
  notClosed : posting.sender = .whistleblower → lastStatus (s.loaded w) ≠ .closed

theorem Considered.kept {w : ℕ} {posting : Posting ι} {s t : Desk ι} (h : Considered w posting s)
    (hkept : DeskKept w s t) : Considered w posting t where
  known := hkept.office.reports _ h.known
  sets := h.sets
  keeps hsender hacknowledged hnone :=
    hkept.feedback _ h.known (h.keeps hsender hacknowledged hnone)
  notClosed hsender := by
    rw [hkept.loaded]
    exact h.notClosed hsender

/-- The time of a posting is the next one of its thread. -/
def Stamped (w : ℕ) (posting : Posting ι) (s : Desk ι) : Prop :=
  (s.office.table.writtenBy w posting.report).isSome = true →
    posting.sentAt = nextAfter (s.latestSentAt posting.report) posting.earliest

theorem Stamped.kept {w : ℕ} {posting : Posting ι} {s t : Desk ι} (h : Stamped w posting s)
    (hkept : DeskKept w s t) : Stamped w posting t := by
  intro hwritten
  obtain ⟨-, hbefore⟩ := writtenBy_of_kept hkept.office hwritten
  rw [Desk.latestSentAt, hkept.messages _ hwritten]
  exact h hbefore

end OpenWhistle.Threads
