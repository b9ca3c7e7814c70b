import OpenWhistle.Cases.Office
import OpenWhistle.Foundation.Contract
import Mathlib.Data.Nat.Basic

/-!
# The closure time under overlapping requests

The invariant behind `closed_at`: every committed row agrees with its transitions, and every lock
holds the UPDATE of a request that decided on a consistent row. A commit keeps it by
`Row.agrees_updated`, as long as no request whose UPDATE changes the status of a case that it read
as not closed commits while the case is closed. The two sample runs at the end show the invariant at
work and what an overlap does.
-/

set_option autoImplicit false
set_option relaxedAutoImplicit false
set_option linter.unusedSectionVars false

namespace OpenWhistle.Cases

open Interleaving ReadCommitted

variable {ι τ : Type} [DecidableEq ι] [LinearOrder τ] {feedbackDue : τ → Option τ → τ}

/-- What a lock that is going to be committed was made from. -/
def Pending (feedbackDue : τ → Option τ → τ) (s : Office ι τ) (report : ι) (w : ℕ) (new : Row τ) :
    Prop :=
  ∃ change old, s.flushed w = some change ∧ change.report = report ∧ change.read.Consistent ∧
    Row.Decided feedbackDue change.time change.read change.new ∧
    s.table.row report = some old ∧ new = Row.updated change.read change.new old

structure ClosureSound (feedbackDue : τ → Option τ → τ) (s : Office ι τ) : Prop where
  agrees : ∀ report row, s.table.row report = some row → row.Agrees (s.transitions report)
  pending : ∀ report w new, s.table.lock report = some ⟨w, some new⟩ →
    Pending feedbackDue s report w new
  unknown : ∀ report, report ∉ s.reports → Unknown s report

/-- A transaction holds no lock. -/
def Unlocked (w : ℕ) (s : Office ι τ) : Prop :=
  ∀ report, ∀ lock ∈ s.table.lock report, lock.holder ≠ w

/-- The others leave a request's locks and its last UPDATE alone. -/
structure OwnKept (w : ℕ) (s t : Office ι τ) : Prop where
  lock : ∀ report, ∀ lock ∈ t.table.lock report, lock.holder = w → s.table.lock report = some lock
  flushed : t.flushed w = s.flushed w

theorem OwnKept.refl (w : ℕ) (s : Office ι τ) : OwnKept w s s :=
  ⟨fun _ _ hlock _ ↦ hlock, rfl⟩

theorem OwnKept.trans {w : ℕ} {s t u : Office ι τ} (hst : OwnKept w s t) (htu : OwnKept w t u) :
    OwnKept w s u :=
  ⟨fun report lock hlock hholder ↦ hst.lock report lock (htu.lock report lock hlock hholder) hholder,
    htu.flushed.trans hst.flushed⟩

theorem Unlocked.kept {w : ℕ} {s t : Office ι τ} (h : Unlocked w s) (hkept : OwnKept w s t) :
    Unlocked w t :=
  fun report lock hlock hholder ↦ h report lock (hkept.lock report lock hlock hholder) hholder

/-- The UPDATE that a transaction is about to commit changes a status that was read as not closed
only where the case is not closed now. -/
def NoOverlap (w : ℕ) (s : Office ι τ) : Prop :=
  ∀ change ∈ s.flushed w, ∀ old ∈ s.table.row change.report,
    (s.table.writtenBy w change.report).isSome = true →
      Row.Compatible change.read change.new old

/-! ### The steps -/

/-- A commit publishes what its transaction has written, and the transition with it. -/
theorem closureSound_commit {s : Office ι τ} (h : ClosureSound feedbackDue s) {w : ℕ}
    (hoverlap : NoOverlap w s) (entries : List (AuditEntry ι τ)) :
    ClosureSound feedbackDue { s with
      table := s.table.commit w
      audit := entries ++ s.audit
      ended := Function.update s.ended w true
      transitions := s.transitionsAfter w } where
  agrees := by
    intro report row hrow
    change s.table.seenBy w report = some row at hrow
    change row.Agrees (s.transitionsAfter w report)
    cases hwritten : s.table.writtenBy w report with
    | none =>
      rw [Table.seenBy_of_not_writtenBy hwritten] at hrow
      have heq : s.transitionsAfter w report = s.transitions report := by
        simp [Office.transitionsAfter, hwritten]
      rw [heq]
      exact h.agrees report row hrow
    | some written =>
      rw [Table.seenBy_of_writtenBy hwritten] at hrow
      subst hrow
      obtain ⟨change, old, hflushed, hreport, hread, hdecided, hold, hnew⟩ :=
        h.pending report w row (Table.writtenBy_eq_some.mp hwritten)
      have heq : s.transitionsAfter w report =
          Row.withTransition old row change.time (s.transitions report) := by
        simp [Office.transitionsAfter, hflushed, hold, hwritten]
      have hcompatible : Row.Compatible change.read change.new old := by
        apply hoverlap change hflushed old
        · rw [hreport]
          exact hold
        · rw [hreport, hwritten]
          rfl
      rw [heq, hnew]
      exact Row.agrees_updated hread hdecided (h.agrees report old hold) hcompatible
  pending := by
    intro report v new hlock
    obtain ⟨hlock, hne⟩ := Table.lock_commit hlock
    obtain ⟨change, old, hflushed, hreport, hread, hdecided, hold, hnew⟩ :=
      h.pending report v new hlock
    refine ⟨change, old, hflushed, hreport, hread, hdecided, ?_, hnew⟩
    rw [← hold]
    exact Table.row_commit_of_lock hlock hne
  unknown := fun report hnot ↦ (h.unknown report hnot).commit w entries

/-- The lock of a report is replaced, by a transaction that was not blocked. -/
theorem closureSound_lockRow {s t : Office ι τ} (h : ClosureSound feedbackDue s) {w : ℕ} {report : ι}
    {written : Option (Row τ)} {row : Row τ} (hseen : s.table.seenBy w report = some row)
    (htable : t.table = s.table.lockRow w report written) (hreports : t.reports = s.reports)
    (htransitions : t.transitions = s.transitions)
    (hflushed : ∀ other v new, s.table.lock other = some ⟨v, some new⟩ → t.flushed v = s.flushed v)
    (hnew : ∀ new, written = some new → Pending feedbackDue t report w new) :
    ClosureSound feedbackDue t where
  agrees := by
    intro other stored hstored
    rw [htable, Table.lockRow_row] at hstored
    rw [htransitions]
    exact h.agrees other stored hstored
  pending := by
    intro other v new hlock
    by_cases hother : other = report
    · subst hother
      rw [htable, Table.lock_lockRow_self] at hlock
      cases hlock
      exact hnew new rfl
    · rw [htable, Table.lock_lockRow_of_ne hother] at hlock
      obtain ⟨change, old, hchange, hreport, hread, hdecided, hold, heq⟩ :=
        h.pending other v new hlock
      refine ⟨change, old, ?_, hreport, hread, hdecided, ?_, heq⟩
      · rw [hflushed other v new hlock]
        exact hchange
      · rw [htable, Table.lockRow_row]
        exact hold
  unknown := by
    intro other hnot
    rw [hreports] at hnot
    exact (h.unknown other hnot).lockRow hseen htable htransitions

theorem closureSound_flush {s t : Office ι τ} (h : ClosureSound feedbackDue s) {w : ℕ}
    (hunlocked : Unlocked w s) {change : Change ι τ} (hread : change.read.Consistent)
    (hdecided : Row.Decided feedbackDue change.time change.read change.new)
    {reply : Except Fault (Row τ)} (hflush : s.flush w change = some (reply, t)) :
    ClosureSound feedbackDue t := by
  rcases flush_cases hflush with rfl | ⟨row, hblocked, hseen, rfl⟩
  · exact h
  have hfree : s.table.writtenBy w change.report = none := by
    cases hlock : s.table.lock change.report with
    | none => simp [Table.writtenBy, hlock]
    | some lock => simp [Table.writtenBy, hlock, hunlocked change.report lock hlock]
  have hrow : s.table.row change.report = some row := by
    rw [← hseen, Table.seenBy_of_not_writtenBy hfree]
  refine closureSound_lockRow h hseen rfl rfl rfl (fun other v new hlock ↦ ?_) fun new hnew ↦ ?_
  · exact Function.update_of_ne (hunlocked other _ hlock) ..
  · cases hnew
    exact ⟨change, row, Function.update_self .., rfl, hread, hdecided, hrow, rfl⟩

theorem closureSound_deleteReport {s t : Office ι τ} (h : ClosureSound feedbackDue s) {w : ℕ}
    {report : ι} {closedBefore : τ} {reply : Except Fault Unit}
    (hdelete : s.deleteReport w report closedBefore = some (reply, t)) :
    ClosureSound feedbackDue t := by
  rcases deleteReport_cases hdelete with rfl | ⟨row, hblocked, hseen, rfl⟩
  · exact h
  · exact closureSound_lockRow h hseen rfl rfl rfl (fun _ _ _ _ ↦ rfl) fun _ hnew ↦ nomatch hnew

theorem closureSound_submit {s t : Office ι τ} (h : ClosureSound feedbackDue s) {report : ι}
    {today : τ} (hsubmit : environment feedbackDue (.submit report today) s = some t) :
    ClosureSound feedbackDue t := by
  obtain ⟨hnot, rfl⟩ := submit_cases feedbackDue hsubmit
  obtain ⟨hrow, hlock, hnone⟩ := h.unknown report hnot
  refine ⟨fun other row hother ↦ ?_, fun other w new hother ↦ ?_, fun other hother ↦ ?_⟩
  · change Function.update s.table.row report _ other = some row at hother
    by_cases heq : other = report
    · subst heq
      rw [Function.update_self] at hother
      cases hother
      change (Row.submitted feedbackDue today).Agrees (s.transitions other)
      rw [hnone]
      exact Row.agrees_submitted today
    · rw [Function.update_of_ne heq] at hother
      exact h.agrees other row hother
  · change s.table.lock other = some ⟨w, some new⟩ at hother
    obtain ⟨change, old, hchange, hreport, hread, hdecided, hold, heq⟩ := h.pending other w new hother
    have hne : other ≠ report := by
      rintro rfl
      rw [hlock] at hother
      cases hother
    refine ⟨change, old, hchange, hreport, hread, hdecided, ?_, heq⟩
    change Function.update s.table.row report _ other = some old
    rw [Function.update_of_ne hne, hold]
  · have hne : other ≠ report := fun heq ↦ hother (heq ▸ List.mem_cons_self)
    exact (h.unknown other fun hmem ↦ hother (List.mem_cons_of_mem _ hmem)).submit hne _

theorem closureSound_abort {s : Office ι τ} (h : ClosureSound feedbackDue s) (w : ℕ) :
    ClosureSound feedbackDue
      { s with table := s.table.abort w, ended := Function.update s.ended w true } where
  agrees := h.agrees
  pending := by
    intro report v new hlock
    obtain ⟨hlock, -⟩ := Table.lock_release hlock
    exact h.pending report v new hlock
  unknown := fun report hnot ↦ (h.unknown report hnot).abort w

/-! ### The contract -/

theorem ownKept_lockRow {s t : Office ι τ} {v w : ℕ} (hne : v ≠ w) {report : ι}
    {written : Option (Row τ)} (htable : t.table = s.table.lockRow w report written)
    (hflushed : t.flushed v = s.flushed v) : OwnKept v s t where
  lock := by
    intro other lock hlock hholder
    by_cases hother : other = report
    · subst hother
      rw [htable, Table.lock_lockRow_self] at hlock
      cases hlock
      exact absurd hholder.symm hne
    · rw [htable, Table.lock_lockRow_of_ne hother] at hlock
      exact hlock
  flushed := hflushed

/-- An operation of one request leaves the locks and the UPDATEs of the others alone. -/
theorem ownKept_perform {v w : ℕ} (hne : v ≠ w) {operation : Op ι τ} {time : τ} {s t : Office ι τ}
    {reply : Except Fault (Reply operation)} (h : perform w operation time s = some (reply, t)) :
    OwnKept v s t := by
  cases operation with
  | getReport report =>
    cases h
    exact OwnKept.refl v s
  | now =>
    cases h
    exact OwnKept.refl v s
  | selectExpired closedBefore =>
    cases h
    exact ⟨fun _ _ hlock _ ↦ hlock, rfl⟩
  | flush change =>
    rcases flush_cases h with rfl | ⟨row, -, -, rfl⟩
    · exact OwnKept.refl v t
    · exact ownKept_lockRow hne rfl (Function.update_of_ne hne ..)
  | deleteReport report selected closedBefore =>
    rcases deleteReport_cases h with rfl | ⟨row, -, -, rfl⟩
    · exact OwnKept.refl v t
    · exact ownKept_lockRow hne rfl rfl
  | commit entries =>
    rcases commit_cases h with rfl | rfl
    · exact OwnKept.refl v t
    · exact ⟨fun _ _ hlock _ ↦ (Table.lock_commit hlock).1, rfl⟩

theorem ownKept_environment {w : ℕ} {happening : Happening ι τ} {s t : Office ι τ}
    (h : environment feedbackDue happening s = some t) : OwnKept w s t := by
  cases happening with
  | submit report today =>
    obtain ⟨-, rfl⟩ := submit_cases feedbackDue h
    exact ⟨fun _ _ hlock _ ↦ hlock, rfl⟩
  | abort v =>
    cases h
    exact ⟨fun _ _ hlock _ ↦ (Table.lock_release hlock).1, rfl⟩

/-- The operations that take effect only without an overlap. -/
def CommitsApart (w : ℕ) : Op ι τ → Office ι τ → Prop
  | .commit _, s => NoOverlap w s
  | _, _ => True

def closure (feedbackDue : τ → Option τ → τ) :
    Contract (semantics (ι := ι) feedbackDue) (Request ι τ) Page where
  invariant := ClosureSound feedbackDue
  rely := OwnKept
  rely_refl := OwnKept.refl
  rely_trans _ _ _ _ := OwnKept.trans
  idle := Unlocked
  idle_stable _ _ _ h hkept _ := h.kept hkept
  ends _ _ _ := True
  ends_stable _ _ _ _ _ _ _ := trivial
  admits _ := True
  allows := CommitsApart
  trusts _ _ _ := True
  tolerates _ _ := True
  environment_safe := by
    intro happening s t h _ hchange
    refine ⟨?_, fun w ↦ ownKept_environment hchange⟩
    cases happening with
    | submit report today => exact closureSound_submit h hchange
    | abort w =>
      cases hchange
      exact closureSound_abort h w

variable {w : ℕ} {s : Office ι τ}

/-- An operation that keeps the invariant, and what is known after it. -/
theorem closure_call {operation : Op ι τ} {promise : Reply operation → Office ι τ → Prop}
    (h : ∀ t, OwnKept w s t → ClosureSound feedbackDue t → CommitsApart w operation t →
      ∀ time reply u, perform w operation time t = some (reply, u) →
        ClosureSound feedbackDue u ∧ ∀ value, reply = .ok value → promise value u) :
    Safe (closure feedbackDue) w (Returns promise) (call operation) s := by
  refine Safe.call fun t hkept hinv ↦ ⟨fun _ ↦ trivial, fun hallows time reply u hperform ↦ ?_⟩
  obtain ⟨hinv', hpromise⟩ := h t hkept hinv hallows time reply u hperform
  refine ⟨hinv', fun v hv ↦ ownKept_perform hv hperform, fun _ ↦ ?_, fun _ ↦ trivial⟩
  cases reply with
  | ok value => exact hpromise value rfl
  | error exception => trivial

theorem closure_getAuthorizedReport (report : ι) (mayAccess : Bool) (h : Unlocked w s) :
    Safe (closure feedbackDue) w
      (Returns fun read t ↦ Unlocked w t ∧ ∀ row, read = some row → row.Consistent)
      (getAuthorizedReport report mayAccess) s := by
  have hget : Safe (closure feedbackDue) w
      (Returns fun read t ↦ Unlocked w t ∧ ∀ row, read = some row → row.Consistent)
      (call (.getReport report)) s := by
    refine closure_call fun t hkept hinv _ time reply u hperform ↦ ?_
    cases hperform
    refine ⟨hinv, fun read hread ↦ ?_⟩
    cases hread
    exact ⟨h.kept hkept, fun row hrow ↦ (hinv.agrees report row hrow).consistent⟩
  refine Safe.andThen hget fun read t hread ↦ ?_
  split
  · exact Safe.ret ⟨hread.1, nofun⟩
  · rename_i row hfound
    have hrow := hread.2 row (Option.filter_eq_some_iff.mp hfound).1
    exact Safe.ret ⟨hread.1, fun _ heq ↦ Option.some.inj heq ▸ hrow⟩

theorem closure_now (h : Unlocked w s) : Safe (closure (ι := ι) feedbackDue) w
    (Returns fun _ t ↦ Unlocked w t) (call .now) s := by
  refine closure_call fun t hkept hinv _ time reply u hperform ↦ ?_
  cases hperform
  exact ⟨hinv, fun _ _ ↦ h.kept hkept⟩

theorem closure_flush {change : Change ι τ} (h : Unlocked w s) (hread : change.read.Consistent)
    (hdecided : Row.Decided feedbackDue change.time change.read change.new) :
    Safe (closure feedbackDue) w (Returns fun _ _ ↦ True) (call (.flush change)) s := by
  refine closure_call fun t hkept hinv _ time reply u hperform ↦ ?_
  exact ⟨closureSound_flush hinv (h.kept hkept) hread hdecided hperform, fun _ _ ↦ trivial⟩

theorem closure_commit (entries : List (AuditEntry ι τ)) : Safe (closure feedbackDue) w
    (Returns fun _ _ ↦ True) (call (.commit entries)) s := by
  refine closure_call fun t _ hinv hapart time reply u hperform ↦ ⟨?_, fun _ _ ↦ trivial⟩
  rcases commit_cases hperform with rfl | rfl
  · exact hinv
  · exact closureSound_commit hinv hapart entries

theorem closure_deleteReports (closedBefore : τ) (reports : List (ι × Row τ)) :
    ∀ s, Safe (closure feedbackDue) w (Returns fun _ _ ↦ True) (deleteReports closedBefore reports)
      s := by
  induction reports with
  | nil => exact fun s ↦ Safe.ret trivial
  | cons report reports ih =>
    intro s
    have hdelete : Safe (closure feedbackDue) w (Returns fun _ _ ↦ True)
        (call (.deleteReport report.1 report.2 closedBefore)) s := by
      refine closure_call fun t _ hinv _ time reply u hperform ↦ ?_
      exact ⟨closureSound_deleteReport hinv hperform, fun _ _ ↦ trivial⟩
    exact Safe.andThen hdelete fun _ t _ ↦ ih t

/-- Every request decides on a consistent row. -/
theorem closure_handles : (closure (ι := ι) feedbackDue).Handles (handler feedbackDue) := by
  intro w request s _ _ hunlocked
  refine Safe.imp (fun _ _ _ ↦ trivial) (?_ : Safe _ w (Returns fun _ _ ↦ True) _ s)
  cases request with
  | acknowledge report mayAccess =>
    refine Safe.andThen (closure_getAuthorizedReport report mayAccess hunlocked) fun read t hread ↦ ?_
    cases read with
    | none => exact Safe.ret trivial
    | some row =>
      refine Safe.andThen (closure_now hread.1) fun now u hnow ↦ ?_
      refine Safe.andThen (closure_flush hnow (hread.2 row rfl) (.inl rfl)) fun refreshed v _ ↦ ?_
      exact Safe.andThen (closure_commit _) fun _ _ _ ↦ Safe.ret trivial
  | updateStatus report newStatus mayAccess =>
    refine Safe.andThen (closure_getAuthorizedReport report mayAccess hunlocked) fun read t hread ↦ ?_
    cases read with
    | none => exact Safe.ret trivial
    | some row =>
      show Safe _ w _ (if isValidTransition row.status newStatus = true then _ else _) t
      split_ifs with hvalid
      · refine Safe.andThen (closure_now hread.1) fun now u hnow ↦ ?_
        refine Safe.andThen (closure_flush hnow (hread.2 row rfl) (.inr ⟨newStatus, hvalid, rfl⟩))
          fun refreshed v _ ↦ ?_
        exact Safe.andThen (closure_commit _) fun _ _ _ ↦ Safe.ret trivial
      · exact Safe.ret trivial
  | retention closedBefore =>
    have hselect : Safe (closure feedbackDue) w (Returns fun _ _ ↦ True)
        (call (.selectExpired closedBefore : Op ι τ)) s := by
      refine closure_call fun t _ hinv _ time reply u hperform ↦ ?_
      cases hperform
      exact ⟨⟨hinv.agrees, hinv.pending, fun report hnot ↦ (hinv.unknown report hnot).of_eq rfl rfl⟩,
        fun _ _ ↦ trivial⟩
    refine Safe.andThen hselect fun reports t _ ↦ ?_
    refine Safe.andThen (closure_deleteReports closedBefore reports t) fun _ u _ ↦ ?_
    exact Safe.andThen (closure_commit _) fun _ _ _ ↦ Safe.ret trivial

/-! ### Every run -/

abbrev Work (ι τ : Type) := System (Office ι τ) (Handler ι τ Page)

abbrev Step (ι τ : Type) := Event (Request ι τ) Fault τ (Happening ι τ)

/-- Nothing has happened yet. -/
def start : Work ι τ where
  shared := Office.empty
  worker := fun _ ↦ none

/-- A commit changes a status that its request read as not closed only where the case is not
closed. -/
def StatusesApart (s : Work ι τ) : Step ι τ → Prop
  | .run w _ => ∀ operation ∈ s.next w, CommitsApart w operation s.shared
  | .lose w _ _ => ∀ operation ∈ s.next w, CommitsApart w operation s.shared
  | _ => True

instance (read new current : Row τ) : Decidable (Row.Compatible read new current) :=
  inferInstanceAs (Decidable (_ → _ → _))

instance (w : ℕ) (operation : Op ι τ) (s : Office ι τ) :
    Decidable (CommitsApart w operation s) :=
  match operation with
  | .commit _ => inferInstanceAs (Decidable (∀ change ∈ s.flushed w, _))
  | .getReport _ | .now | .flush _ | .selectExpired _ | .deleteReport _ _ _ => isTrue trivial

instance (s : Work ι τ) (event : Step ι τ) : Decidable (StatusesApart s event) :=
  match event with
  | .run w _ | .lose w _ _ => inferInstanceAs (Decidable (∀ operation ∈ s.next w, _))
  | .start _ _ | .fail _ _ | .environment _ => isTrue trivial

/-- In every run in which the commits of status changes do not overlap with a closing, every
committed row has a closure time exactly while it is closed, and that is the time of the last
transition that closed it. -/
theorem closed_at_agrees_with_status {events : List (Step ι τ)} {last : Work ι τ}
    (hapart : Meets (semantics feedbackDue) (handler feedbackDue) StatusesApart start events)
    (hrun : run (semantics feedbackDue) (handler feedbackDue) start events = some last) {report : ι}
    {row : Row τ} (hrow : last.shared.table.row report = some row) :
    (row.closedAt.isSome = true ↔ row.status = .closed) ∧
      (row.status = .closed → row.closedAt = lastClosed (last.shared.transitions report)) := by
  have hpermits : Meets (semantics feedbackDue) (handler feedbackDue)
      (closure feedbackDue).Permits start events := by
    refine meets_imp (fun s event h ↦ ?_) hapart
    cases event with
    | start w request => trivial
    | run w time => exact fun operation hnext ↦ ⟨h operation hnext, trivial⟩
    | fail w exception => trivial
    | lose w time exception => exact h
    | environment happening => trivial
  have hempty : ClosureSound feedbackDue (Office.empty : Office ι τ) :=
    ⟨(fun _ _ h ↦ nomatch h), (fun _ _ _ h ↦ nomatch h), fun _ _ ↦ ⟨rfl, rfl, rfl⟩⟩
  have hstart : (closure feedbackDue).Holds (start : Work ι τ) := by
    refine Contract.holds_of_idle hempty (fun w report lock hlock ↦ ?_) fun _ ↦ rfl
    cases hlock
  have hholds := Contract.run_safe closure_handles hstart hpermits hrun
  have hagrees := hholds.invariant.agrees report row hrow
  exact ⟨hagrees.consistent, hagrees.closedAt⟩

/-! ### Sample runs -/

/-- A feedback deadline for the samples. -/
def ninetyDays (submitted : ℕ) (_acknowledged : Option ℕ) : ℕ := submitted + 90

/-- The report 0 is submitted on day 1, closed on day 5, reopened on day 6 and closed again on
day 9, by one request after the other. -/
def closedTwice : List (Step ℕ ℕ) :=
  [.environment (.submit 0 1),
    .start 1 (.updateStatus 0 .closed true), .run 1 0, .run 1 5, .run 1 0, .run 1 0,
    .start 2 (.updateStatus 0 .inReview true), .run 2 0, .run 2 6, .run 2 0, .run 2 0,
    .start 3 (.updateStatus 0 .closed true), .run 3 0, .run 3 9, .run 3 0, .run 3 0]

/-- Two users read the report 0 as received; the first closes it on day 5, the second commits the
status in_review after that. -/
def overlapping : List (Step ℕ ℕ) :=
  [.environment (.submit 0 1),
    .start 1 (.updateStatus 0 .closed true), .start 2 (.updateStatus 0 .inReview true),
    .run 1 0, .run 2 0, .run 1 5, .run 1 0, .run 1 0, .run 2 6, .run 2 0, .run 2 0]

/-- The end of a sample run. -/
theorem sample_run (events : List (Step ℕ ℕ))
    (h : (run (semantics ninetyDays) (handler ninetyDays) start events).isSome = true) :
    run (semantics ninetyDays) (handler ninetyDays) start events =
      some ((run (semantics ninetyDays) (handler ninetyDays) start events).get h) :=
  run_eq_get h

theorem closed_at_agrees_after_two_closings : ∃ last,
    run (semantics ninetyDays) (handler ninetyDays) start closedTwice = some last ∧
    ∃ row, last.shared.table.row 0 = some row ∧ row.status = .closed ∧ row.closedAt = some 9 ∧
      (row.closedAt.isSome = true ↔ row.status = .closed) ∧
      (row.status = .closed → row.closedAt = lastClosed (last.shared.transitions 0)) := by
  have hrun := sample_run closedTwice (by decide)
  refine ⟨_, hrun, ⟨.closed, 1, none, some 91, some 9⟩, rfl, rfl, rfl, ?_⟩
  exact closed_at_agrees_with_status (by decide) hrun rfl

/-- After the overlap the case is in review and has a closure time. -/
theorem overlap_leaves_a_closure_time : ∃ last row,
    run (semantics ninetyDays) (handler ninetyDays) start overlapping = some last ∧
    last.shared.table.row 0 = some row ∧ row.status = .inReview ∧ row.closedAt = some 5 := by
  have hrun := sample_run overlapping (by decide)
  exact ⟨_, ⟨.inReview, 1, none, some 91, some 5⟩, hrun, rfl, rfl, rfl⟩

end OpenWhistle.Cases
