import OpenWhistle.Threads.Steps
import OpenWhistle.Foundation.Contract

/-!
# The contract of the desk

Every request keeps the invariant of the desk in every interleaving. An `Extension` is a further
invariant of the desk, with the condition it needs on the operations: it is kept by moves that leave
the threads alone, and by the posting of a message that was considered and stamped under the lock.
`desk` is the contract of an extension, `desk_handles` that every handler keeps it.
-/

set_option autoImplicit false
set_option relaxedAutoImplicit false
set_option linter.unusedSectionVars false

namespace OpenWhistle.Threads

open Interleaving ReadCommitted
open Cases (Row Status Transition Office Fault Page Change TransactionKept Unwritten lastStatus)

variable {ι : Type} [DecidableEq ι] {feedbackDue : ℕ → Option ℕ → ℕ}

/-- A further invariant of the desk, and the operations it allows. -/
structure Extension (ι : Type) [DecidableEq ι] (feedbackDue : ℕ → Option ℕ → ℕ) where
  holds : Desk ι → Prop
  allows : ℕ → Op ι → Desk ι → Prop
  congr : ∀ s t : Desk ι, t.office.table.row = s.office.table.row → t.messages = s.messages →
    t.feedbackSentAt = s.feedbackSentAt → holds s → holds t
  withOffice : ∀ (s : Desk ι) (office : Office ι ℕ),
    (∀ report row, office.table.row report = some row →
      ∃ old, s.office.table.row report = some old) → holds s → holds (s.withOffice office)
  submit : ∀ (s t : Desk ι) report time, DeskSound feedbackDue s →
    environment feedbackDue (.submit report time) s = some t → holds s → holds t
  posted : ∀ (s : Desk ι) w posting row, DeskSound feedbackDue s → holds s →
    allows w (.commitMessage posting) s → s.office.ended w = false → Holding w posting.report s →
    Stamped w posting s → Considered w posting s →
    s.office.table.row posting.report = some row → holds (s.posted w posting row)

/-- No further invariant. -/
def Extension.plain (ι : Type) [DecidableEq ι] (feedbackDue : ℕ → Option ℕ → ℕ) :
    Extension ι feedbackDue where
  holds _ := True
  allows _ _ _ := True
  congr _ _ _ _ _ _ := trivial
  withOffice _ _ _ _ := trivial
  submit _ _ _ _ _ _ _ := trivial
  posted _ _ _ _ _ _ _ _ _ _ _ _ := trivial

variable (e : Extension ι feedbackDue)

def desk : Contract (semantics (ι := ι) feedbackDue) (Request ι) Answer where
  invariant s := DeskSound feedbackDue s ∧ e.holds s
  rely := DeskKept
  rely_refl := DeskKept.refl
  rely_trans _ _ _ _ := DeskKept.trans
  idle w s := Unwritten w s.office
  idle_stable _ _ _ h hkept _ := h.kept hkept.office
  ends _ _ _ := True
  ends_stable _ _ _ _ _ _ _ := trivial
  admits _ := True
  allows := e.allows
  trusts _ _ _ := True
  tolerates _ _ := True
  environment_safe := by
    rintro happening s t ⟨hsound, hholds⟩ - hchange
    change environment feedbackDue happening s = some t at hchange
    cases happening with
    | submit report time =>
      exact ⟨⟨deskSound_submit hsound hchange, e.submit s t report time hsound hchange hholds⟩,
        fun _ ↦ deskKept_environment hsound hchange⟩
    | abort w =>
      refine ⟨⟨deskSound_abort hsound hchange, ?_⟩, fun _ ↦ deskKept_environment hsound hchange⟩
      rw [abort_eq feedbackDue hchange]
      exact e.congr s _ rfl rfl rfl hholds

variable {e} {w : ℕ} {s : Desk ι}

/-! ### The operations -/

/-- An operation that keeps the invariant and what the others rely on. -/
theorem desk_call {operation : Op ι} {promise : Reply operation → Desk ι → Prop}
    (h : ∀ t, DeskKept w s t → DeskSound feedbackDue t → e.holds t → e.allows w operation t →
      ∀ time reply u, perform w operation time t = some (reply, u) →
        DeskSound feedbackDue u ∧ e.holds u ∧ (∀ v, v ≠ w → DeskKept v t u) ∧
          ∀ value, reply = .ok value → promise value u) :
    Safe (desk e) w (Returns promise) (call operation) s := by
  refine Safe.call fun t hkept hinv ↦ ⟨fun _ ↦ trivial, fun hallows time reply u hperform ↦ ?_⟩
  obtain ⟨hsound, hholds, hothers, hpromise⟩ :=
    h t hkept hinv.1 hinv.2 hallows time reply u hperform
  refine ⟨⟨hsound, hholds⟩, hothers, fun _ ↦ ?_, fun _ ↦ trivial⟩
  cases reply with
  | ok value => exact hpromise value rfl
  | error exception => trivial

/-- A part of the office ends in another. -/
theorem office_andThen {α β : Type} {first : Cases.Handler ι ℕ α} {rest : α → Cases.Handler ι ℕ β}
    {promise : α → Desk ι → Prop} {post : β → Desk ι → Prop}
    (h : Safe (desk e) w (Returns promise) (office first) s)
    (hrest : ∀ value t, promise value t → Safe (desk e) w (Returns post) (office (rest value)) t) :
    Safe (desk e) w (Returns post) (office (first >>= rest)) s := by
  rw [office, Program.lift_bind]
  exact Safe.andThen h hrest

/-- An operation of the office under which no report appears. -/
theorem desk_office {operation : Cases.Op ι ℕ}
    {P : Cases.Reply operation → Desk ι → Prop}
    (h : ∀ t, DeskKept w s t → DeskSound feedbackDue t → ∀ time reply office,
      Cases.perform w operation time t.office = some (reply, office) →
        DeskSound feedbackDue (t.withOffice office) ∧
          ∀ value, reply = .ok value → P value (t.withOffice office)) :
    Safe (desk e) w (Returns P) (office (Cases.call operation)) s := by
  rw [office, Cases.call, Program.lift_call]
  have hcall : Safe (desk e) w (Returns P) (call (.office operation)) s := ?_
  · exact Safe.andThen hcall fun value t ht ↦ Safe.ret ht
  refine desk_call fun t hkept hsound hholds _ time reply u hperform ↦ ?_
  obtain ⟨office, hoffice, rfl⟩ := office_cases hperform
  obtain ⟨hsound', hpromise⟩ := h t hkept hsound time reply office hoffice
  refine ⟨hsound', e.withOffice t office (fun report row hrow ↦ ?_) hholds,
    fun v hv ↦ deskKept_office hsound hv hoffice, hpromise⟩
  rcases hstored : t.office.table.row report with _ | old
  · rw [gone_perform hsound hoffice hstored] at hrow
    cases hrow
  · exact ⟨old, rfl⟩

/-- Nothing of the office has moved. -/
theorem DeskSound.withOffice_self {t : Desk ι} (h : DeskSound feedbackDue t) :
    DeskSound feedbackDue (t.withOffice t.office) :=
  h.withOffice h.locks h.status h.unknown fun _ row hrow ↦ ⟨row, hrow⟩

/-! ### The requests of the office -/

theorem desk_getAuthorizedReport (report : ι) (mayAccess : Bool) (h : Unwritten w s.office) :
    Safe (desk e) w (Returns fun _ t ↦ Unwritten w t.office)
      (office (Cases.getAuthorizedReport report mayAccess)) s := by
  refine office_andThen (desk_office (P := fun _ t ↦ Unwritten w t.office) ?_) fun read t ht ↦ ?_
  swap
  · split <;> exact Safe.ret ht
  intro t hkept hsound time reply office hperform
  cases hperform
  exact ⟨hsound.withOffice_self, fun _ _ ↦ h.kept hkept.office⟩

theorem desk_now (h : Unwritten w s.office) : Safe (desk e) w
    (Returns fun _ t ↦ Unwritten w t.office) (office (Cases.call .now)) s := by
  refine desk_office fun t hkept hsound time reply office hperform ↦ ?_
  cases hperform
  exact ⟨hsound.withOffice_self, fun _ _ ↦ h.kept hkept.office⟩

theorem desk_flush {change : Change ι ℕ} (h : Unwritten w s.office)
    (hdecided : Row.Decided feedbackDue change.time change.read change.new) :
    Safe (desk e) w (Returns fun _ _ ↦ True) (office (Cases.call (.flush change))) s :=
  desk_office fun _ hkept hsound _ _ _ hperform ↦
    ⟨deskSound_flush hsound (h.kept hkept.office) hdecided hperform, fun _ _ ↦ trivial⟩

theorem desk_commit (entries : List (Cases.AuditEntry ι ℕ)) :
    Safe (desk e) w (Returns fun _ _ ↦ True) (office (Cases.call (.commit entries))) s :=
  desk_office fun _ _ hsound _ _ _ hperform ↦
    ⟨deskSound_commit hsound hperform, fun _ _ ↦ trivial⟩

theorem desk_deleteReports (closedBefore : ℕ) (reports : List (ι × Row ℕ)) :
    ∀ s, Safe (desk e) w (Returns fun _ _ ↦ True)
      (office (Cases.deleteReports closedBefore reports)) s := by
  induction reports with
  | nil => exact fun s ↦ Safe.ret trivial
  | cons report reports ih =>
    intro s
    refine office_andThen (desk_office (P := fun _ _ ↦ True) ?_) fun _ t _ ↦ ih t
    exact fun t _ hsound _ _ _ hperform ↦
      ⟨deskSound_deleteReport hsound hperform, fun _ _ ↦ trivial⟩

/-- A request of the office decides on a row it has read, and flushes before it commits. -/
theorem desk_officeRequest (request : Cases.Request ι ℕ) (h : Unwritten w s.office) :
    Safe (desk e) w (Returns fun _ _ ↦ True) (office (Cases.handler feedbackDue request)) s := by
  cases request with
  | acknowledge report mayAccess =>
    refine office_andThen (desk_getAuthorizedReport report mayAccess h) fun read t hread ↦ ?_
    cases read with
    | none => exact Safe.ret trivial
    | some row =>
      refine office_andThen (desk_now hread) fun now u hnow ↦ ?_
      refine office_andThen (desk_flush hnow (.inl rfl)) fun refreshed v _ ↦ ?_
      exact office_andThen (desk_commit _) fun _ _ _ ↦ Safe.ret trivial
  | updateStatus report newStatus mayAccess =>
    refine office_andThen (desk_getAuthorizedReport report mayAccess h) fun read t hread ↦ ?_
    cases read with
    | none => exact Safe.ret trivial
    | some row =>
      show Safe _ w _ (office (if Cases.isValidTransition row.status newStatus = true then _ else _)) t
      split_ifs with hvalid
      · refine office_andThen (desk_now hread) fun now u hnow ↦ ?_
        refine office_andThen (desk_flush hnow (.inr ⟨newStatus, hvalid, rfl⟩)) fun refreshed v _ ↦ ?_
        exact office_andThen (desk_commit _) fun _ _ _ ↦ Safe.ret trivial
      · exact Safe.ret trivial
  | retention closedBefore =>
    refine office_andThen (desk_office (P := fun _ _ ↦ True) ?_) fun reports t _ ↦ ?_
    · intro t _ hsound time reply office hperform
      cases hperform
      refine ⟨hsound.withOffice hsound.locks hsound.status (fun other hnot ↦ ?_)
        (fun _ row hrow ↦ ⟨row, hrow⟩), fun _ _ ↦ trivial⟩
      exact (hsound.unknown other hnot).of_eq rfl rfl
    · refine office_andThen (desk_deleteReports closedBefore reports t) fun _ u _ ↦ ?_
      exact office_andThen (desk_commit _) fun _ _ _ ↦ Safe.ret trivial

/-! ### The replies -/

/-- What a reply knows of the report it has read. -/
structure Remembered (w : ℕ) (report : ι) (read : Report) (s : Desk ι) : Prop where
  known : report ∈ s.office.reports
  feedback : read.feedbackSentAt.isSome = true → (s.feedbackSentAt report).isSome = true
  status : read.row.status = lastStatus (s.loaded w)

theorem Remembered.kept {report : ι} {read : Report} {t : Desk ι} (h : Remembered w report read s)
    (hkept : DeskKept w s t) : Remembered w report read t where
  known := hkept.office.reports report h.known
  feedback hset := hkept.feedback report h.known (h.feedback hset)
  status := by
    rw [hkept.loaded]
    exact h.status

theorem desk_getReport (report : ι) (h : Unwritten w s.office) : Safe (desk e) w
    (Returns fun found t ↦ ∀ read, found = some read →
      Unwritten w t.office ∧ Remembered w report read t)
    (call (.getReport report)) s := by
  refine desk_call fun t hkept hsound hholds _ time reply u hperform ↦ ?_
  cases hperform
  refine ⟨⟨hsound.locks, hsound.status, hsound.unknown, hsound.ordered, hsound.days,
    hsound.receipt⟩, e.congr t _ rfl rfl rfl hholds, fun v hv ↦ deskKept_getReport t hv report,
    fun found hfound read hread ↦ ?_⟩
  cases hfound
  obtain ⟨row, hrow, rfl⟩ := Option.map_eq_some_iff.mp hread
  refine ⟨h.kept hkept.office, hsound.mem_reports hrow, id, ?_⟩
  show row.status = lastStatus (Function.update t.loaded w (t.office.transitions report) w)
  rw [Function.update_self]
  exact hsound.status report row hrow

theorem desk_replyNow {report : ι} {read : Report} (hfree : Unwritten w s.office)
    (h : Remembered w report read s) : Safe (desk e) w
    (Returns fun _ t ↦ Unwritten w t.office ∧ Remembered w report read t)
    (call (.office .now)) s := by
  refine desk_call fun t hkept hsound hholds _ time reply u hperform ↦ ?_
  obtain ⟨office, hoffice, rfl⟩ := office_cases hperform
  have hothers := fun v (hv : v ≠ w) ↦ deskKept_office hsound hv hoffice
  cases hoffice
  obtain ⟨hknown, hfeedback, hstatus⟩ := h.kept hkept
  exact ⟨hsound.withOffice_self, e.withOffice t _ (fun _ row hrow ↦ ⟨row, hrow⟩) hholds, hothers,
    fun _ _ ↦ ⟨hfree.kept hkept.office, hknown, hfeedback, hstatus⟩⟩

/-- The lock of a reply: it holds the committed row, unless the report is gone. -/
theorem desk_lockReport {report : ι} {read : Report} (hfree : Unwritten w s.office)
    (h : Remembered w report read s) : Safe (desk e) w
    (Returns fun _ t ↦ Locked w report t ∧ Remembered w report read t)
    (call (.lockReport report)) s := by
  refine desk_call fun t hkept hsound hholds _ time reply u hperform ↦ ?_
  have hfree' := hfree.kept hkept.office
  obtain ⟨hknown, hfeedback, hstatus⟩ := h.kept hkept
  have hsound' := deskSound_lockReport hsound hfree' hperform
  have hothers := fun v (hv : v ≠ w) ↦ deskKept_lockReport hv hperform
  rcases lockReport_cases hperform with ⟨rfl, hnothing⟩ | ⟨row, -, hseen, rfl⟩
  · refine ⟨hsound', hholds, hothers, fun _ _ ↦ ⟨?_, hknown, hfeedback, hstatus⟩⟩
    rcases hnothing with hended | hnone
    · exact .inl hended
    · rw [Table.seenBy_of_not_writtenBy (hfree' report)] at hnone
      exact .inr (.inr ⟨hknown, hnone, hfree'⟩)
  · refine ⟨hsound', e.congr t _ rfl rfl rfl hholds, hothers,
      fun _ _ ↦ ⟨.inr (.inl ⟨⟨row, ?_, ?_⟩, fun other hne ↦ ?_⟩), hknown, hfeedback, hstatus⟩⟩
    · rw [← hseen, Table.seenBy_of_not_writtenBy (hfree' report)]
      rfl
    · exact Table.writtenBy_lockRow_self _
    · rw [← hfree' other]
      simp [Table.writtenBy, Table.lock_lockRow_of_ne hne]

/-- The time is the next one of the thread, as long as the lock is held. -/
def Next (w : ℕ) (report : ι) (earliest sentAt : ℕ) (s : Desk ι) : Prop :=
  (s.office.table.writtenBy w report).isSome = true →
    sentAt = nextAfter (s.latestSentAt report) earliest

theorem Next.kept {report : ι} {earliest sentAt : ℕ} {t : Desk ι}
    (h : Next w report earliest sentAt s) (hkept : DeskKept w s t) :
    Next w report earliest sentAt t := by
  intro hwritten
  rw [Desk.latestSentAt, hkept.messages report hwritten]
  exact h (writtenBy_of_kept hkept.office hwritten).2

theorem desk_nextSentAt {report : ι} {read : Report} (hfree : Unwritten w s.office)
    (h : Remembered w report read s) (earliest : ℕ) : Safe (desk e) w
    (Returns fun sentAt t ↦
      Next w report earliest sentAt t ∧ Locked w report t ∧ Remembered w report read t)
    (nextSentAt report earliest) s := by
  refine Safe.andThen (desk_lockReport hfree h) fun _ t ht ↦ ?_
  have hlatest : Safe (desk e) w
      (Returns fun latest u ↦ Next w report earliest (nextAfter latest earliest) u ∧
        Locked w report u ∧ Remembered w report read u)
      (call (.latestSentAt report)) t := by
    refine desk_call fun u hkept hsound hholds _ time reply v hperform ↦ ?_
    cases hperform
    refine ⟨hsound, hholds, fun v _ ↦ DeskKept.refl v u, fun latest hlatest ↦ ⟨fun _ ↦ ?_,
      ht.1.kept hkept, ht.2.kept hkept⟩⟩
    cases hlatest
    rfl
  exact Safe.andThen hlatest fun latest u hu ↦ Safe.ret hu

/-- The commit of a message that was considered and stamped under the lock. -/
theorem desk_commitMessage {posting : Posting ι} (hlocked : Locked w posting.report s)
    (hstamped : Stamped w posting s) (hconsidered : Considered w posting s) :
    Safe (desk e) w (Returns fun _ _ ↦ True) (call (.commitMessage posting)) s := by
  refine desk_call fun t hkept hsound hholds hallows time reply u hperform ↦ ?_
  rcases commitMessage_cases hperform with rfl | ⟨row, hended, hseen, rfl⟩
  · exact ⟨hsound, hholds, fun v _ ↦ DeskKept.refl v u, fun _ _ ↦ trivial⟩
  rcases hlocked.kept hkept with hgone | hholding | hgone
  · rw [hended] at hgone
    cases hgone
  · obtain ⟨stored, hstored, hwritten⟩ := hholding.row
    rw [Table.seenBy_of_writtenBy hwritten] at hseen
    cases hseen
    exact ⟨deskSound_posted hsound hholding (hstamped.kept hkept) row,
      e.posted t w posting row hsound hholds hallows hended hholding (hstamped.kept hkept)
        (hconsidered.kept hkept) hstored,
      fun v hv ↦ deskKept_posted hv hholding row, fun _ _ ↦ trivial⟩
  · rw [hsound.seenBy_eq_none w hgone.row] at hseen
    cases hseen

theorem desk_addWhistleblowerMessage {report : ι} {read : Report} (content : String)
    (hfree : Unwritten w s.office) (h : Remembered w report read s)
    (hnotClosed : read.row.status ≠ .closed) : Safe (desk e) w (Returns fun _ _ ↦ True)
    (addWhistleblowerMessage report read content) s := by
  refine Safe.andThen (desk_replyNow hfree h) fun now t ht ↦ ?_
  refine Safe.andThen (desk_nextSentAt ht.1 ht.2 (dayFloor now)) fun sentAt u hu ↦ ?_
  obtain ⟨hnext, hlocked, hremembered⟩ := hu
  refine desk_commitMessage hlocked hnext ⟨hremembered.known, (fun _ hset ↦ nomatch hset),
    (fun hsender ↦ nomatch hsender), fun _ ↦ ?_⟩
  rw [← hremembered.status]
  exact hnotClosed

theorem desk_addAdminMessage {report : ι} {read : Report} (content : String)
    (hfree : Unwritten w s.office) (h : Remembered w report read s) :
    Safe (desk e) w (Returns fun _ _ ↦ True) (addAdminMessage report read content) s := by
  refine Safe.andThen (desk_replyNow hfree h) fun now t ht ↦ ?_
  refine Safe.andThen (desk_nextSentAt ht.1 ht.2 now) fun sentAt u hu ↦ ?_
  obtain ⟨hnext, hlocked, hremembered⟩ := hu
  refine desk_commitMessage hlocked hnext ⟨hremembered.known, fun time hset ↦ ?_,
    fun _ hacknowledged hnone ↦ hremembered.feedback ?_, fun hsender ↦ nomatch hsender⟩
  · split_ifs at hset with hsets
    cases hset
    exact ⟨rfl, rfl, (Bool.and_eq_true_iff.mp hsets).1⟩
  · change read.row.acknowledgedAt.isSome = true at hacknowledged
    rw [hacknowledged, Bool.true_and] at hnone
    cases hfeedback : read.feedbackSentAt with
    | none => simp [hfeedback] at hnone
    | some time => rfl

/-- Every handler keeps the contract of the desk. -/
theorem desk_handles : (desk e).Handles (handler feedbackDue) := by
  intro w request s _ _ hfree
  refine Safe.imp (fun _ _ _ ↦ trivial) (?_ : Safe _ w (Returns fun _ _ ↦ True) _ s)
  cases request with
  | office request =>
    exact Safe.andThen (desk_officeRequest request hfree) fun _ _ _ ↦ Safe.ret trivial
  | adminReply report content mayAccess =>
    refine Safe.andThen (desk_getReport report hfree) fun found t hfound ↦ ?_
    split
    · exact Safe.ret trivial
    · rename_i read hread
      obtain ⟨hfree', hremembered⟩ := hfound read (Option.filter_eq_some_iff.mp hread).1
      show Safe _ w _ (if content.isEmpty = true then _ else _) t
      split_ifs
      · exact Safe.ret trivial
      · exact Safe.andThen (desk_addAdminMessage content hfree' hremembered) fun _ _ _ ↦
          Safe.ret trivial
  | reply opened content =>
    cases opened with
    | none => exact Safe.ret trivial
    | some report =>
      refine Safe.andThen (desk_getReport report hfree) fun found t hfound ↦ ?_
      cases found with
      | none => exact Safe.ret trivial
      | some read =>
        obtain ⟨hfree', hremembered⟩ := hfound read rfl
        show Safe _ w _ (if content.isEmpty = true then _ else if 5000 < content.length then _
          else if read.row.status = .closed then _ else _) t
        split_ifs with hempty hlong hclosed
        · exact Safe.ret trivial
        · exact Safe.ret trivial
        · exact Safe.ret trivial
        · exact Safe.andThen (desk_addWhistleblowerMessage content hfree' hremembered hclosed)
            fun _ _ _ ↦ Safe.ret trivial

/-- The desk before anything has happened keeps the contract of every extension it satisfies. -/
theorem desk_start (h : e.holds Desk.empty) : (desk e).Holds (start : Work ι) := by
  refine Contract.holds_of_idle ⟨⟨(fun _ _ _ hlock ↦ nomatch hlock), (fun _ _ hrow ↦ nomatch hrow),
    (fun _ _ ↦ ⟨rfl, rfl, rfl⟩), (fun _ ↦ List.Pairwise.nil), (fun _ ↦ trivial),
    fun _ _ hrow ↦ nomatch hrow⟩, h⟩ (fun _ _ ↦ rfl) fun _ ↦ rfl

end OpenWhistle.Threads
