import OpenWhistle.Cases.ClosedAt

/-!
# What a retention run deletes

A run selects the reports that are closed and whose closure time lies before its cutoff, and deletes
them later by id alone. The invariant behind the deletions: a committed row has the status its last
transition led to, and what a run saw of the transitions at its SELECT stays on record. So a report
that has had no transition since then, and whose closure time was not older than its last closing,
is still due at its DELETE. A reopening in between is not noticed; the sample run at the end shows
one.
-/

set_option autoImplicit false
set_option relaxedAutoImplicit false
set_option linter.unusedSectionVars false

namespace OpenWhistle.Cases

open Interleaving ReadCommitted

variable {ι τ : Type} [DecidableEq ι] [LinearOrder τ] {feedbackDue : τ → Option τ → τ}

/-- At its DELETE the report was closed, and its last closing lay before the cutoff. -/
def Due (deletion : Deletion ι τ) : Prop :=
  deletion.row.status = .closed ∧
    ∃ closed ∈ lastClosed deletion.transitions, closed < deletion.closedBefore

structure RetentionSound (s : Office ι τ) : Prop where
  status : ∀ report row, s.table.row report = some row →
    row.status = lastStatus (s.transitions report)
  flushed : ∀ report w new, s.table.lock report = some ⟨w, some new⟩ →
    s.flushed w ≠ none ∧ s.table.row report ≠ none
  unknown : ∀ report, report ∉ s.reports → Unknown s report
  due : ∀ deletion ∈ s.deletions, Due deletion

/-- The others leave a request's last UPDATE and what it has selected alone. -/
structure SelectionKept (w : ℕ) (s t : Office ι τ) : Prop where
  flushed : t.flushed w = s.flushed w
  selected : t.selected w = s.selected w

/-- What a run knows of a report it has selected. -/
def Selected (w : ℕ) (closedBefore : τ) (s : Office ι τ) (report : ι × Row τ) : Prop :=
  Office.Expired closedBefore report.2 ∧ lastStatus (s.selected w report.1) = .closed

/-- No transition of the report has been committed since its run's SELECT, and the closure time the
run has read is not older than the report's last closing. -/
def Untouched (w : ℕ) (s : Office ι τ) (report : ι) (row : Row τ) : Prop :=
  s.transitions report = s.selected w report ∧
    ∀ closed ∈ lastClosed (s.transitions report), ∃ stamp ∈ row.closedAt, closed ≤ stamp

/-- A DELETE meets its report untouched. -/
def DeletesUntouched (w : ℕ) : Op ι τ → Office ι τ → Prop
  | .deleteReport report row _, s => Untouched w s report row
  | _, _ => True

/-! ### The steps -/

theorem lastClosed_of_lastStatus {transitions : List (Transition τ)}
    (h : lastStatus transitions = .closed) : ∃ closed, lastClosed transitions = some closed := by
  cases transitions with
  | nil => cases h
  | cons transition rest =>
    refine ⟨transition.time, ?_⟩
    have hnew : transition.new = .closed := h
    simp [lastClosed, hnew]

theorem due_of_untouched {s : Office ι τ} (hsound : RetentionSound s) {w : ℕ} {closedBefore : τ}
    {report : ι} {selected row : Row τ} (hselected : Selected w closedBefore s (report, selected))
    (huntouched : Untouched w s report selected) (hrow : s.table.row report = some row) :
    Due (⟨report, row, s.transitions report, closedBefore⟩ : Deletion ι τ) := by
  obtain ⟨⟨-, stamp, hstamp, hbefore⟩, hclosed⟩ := hselected
  obtain ⟨hsame, hstamped⟩ := huntouched
  have hstatus : lastStatus (s.transitions report) = .closed := by
    rw [hsame]
    exact hclosed
  obtain ⟨closed, hlast⟩ := lastClosed_of_lastStatus hstatus
  obtain ⟨other, hother, hle⟩ := hstamped closed hlast
  have heq : other = stamp := Option.some.inj (hother.symm.trans hstamp)
  refine ⟨(hsound.status report row hrow).trans hstatus, closed, hlast, ?_⟩
  exact lt_of_le_of_lt hle (heq ▸ hbefore)

theorem retentionSound_commit {s : Office ι τ} (h : RetentionSound s) (w : ℕ)
    (entries : List (AuditEntry ι τ)) :
    RetentionSound { s with
      table := s.table.commit w
      audit := entries ++ s.audit
      ended := Function.update s.ended w true
      transitions := s.transitionsAfter w } where
  status := by
    intro report row hrow
    change s.table.seenBy w report = some row at hrow
    change row.status = lastStatus (s.transitionsAfter w report)
    cases hwritten : s.table.writtenBy w report with
    | none =>
      rw [Table.seenBy_of_not_writtenBy hwritten] at hrow
      have heq : s.transitionsAfter w report = s.transitions report := by
        simp [Office.transitionsAfter, hwritten]
      rw [heq]
      exact h.status report row hrow
    | some written =>
      rw [Table.seenBy_of_writtenBy hwritten] at hrow
      subst hrow
      obtain ⟨hflushed, hold⟩ := h.flushed report w row (Table.writtenBy_eq_some.mp hwritten)
      obtain ⟨change, hchange⟩ := Option.ne_none_iff_exists'.mp hflushed
      obtain ⟨old, hold⟩ := Option.ne_none_iff_exists'.mp hold
      have heq : s.transitionsAfter w report =
          Row.withTransition old row change.time (s.transitions report) := by
        simp [Office.transitionsAfter, hchange, hold, hwritten]
      rw [heq, Row.lastStatus_withTransition (h.status report old hold)]
  flushed := by
    intro report v new hlock
    obtain ⟨hlock, hne⟩ := Table.lock_commit hlock
    obtain ⟨hflushed, hold⟩ := h.flushed report v new hlock
    refine ⟨hflushed, ?_⟩
    change (s.table.commit w).row report ≠ none
    rw [Table.row_commit_of_lock hlock hne]
    exact hold
  unknown := fun report hnot ↦ (h.unknown report hnot).commit w entries
  due := h.due

/-- The lock of a report is replaced; a lock that carries a row belongs to a flushed UPDATE. -/
theorem retentionSound_lockRow {s t : Office ι τ} (h : RetentionSound s) {w : ℕ} {report : ι}
    {written : Option (Row τ)} {row : Row τ} (hseen : s.table.seenBy w report = some row)
    (htable : t.table = s.table.lockRow w report written) (hreports : t.reports = s.reports)
    (htransitions : t.transitions = s.transitions)
    (hflushed : ∀ v, s.flushed v ≠ none → t.flushed v ≠ none)
    (hwritten : ∀ new, written = some new → t.flushed w ≠ none ∧ s.table.row report ≠ none)
    (hdue : ∀ deletion ∈ t.deletions, Due deletion) : RetentionSound t where
  status := by
    intro other stored hstored
    rw [htable, Table.lockRow_row] at hstored
    rw [htransitions]
    exact h.status other stored hstored
  flushed := by
    intro other v new hlock
    rw [htable, Table.lockRow_row]
    by_cases hother : other = report
    · subst hother
      rw [htable, Table.lock_lockRow_self] at hlock
      cases hlock
      exact hwritten new rfl
    · rw [htable, Table.lock_lockRow_of_ne hother] at hlock
      obtain ⟨hold, hrow⟩ := h.flushed other v new hlock
      exact ⟨hflushed v hold, hrow⟩
  unknown := by
    intro other hnot
    rw [hreports] at hnot
    exact (h.unknown other hnot).lockRow hseen htable htransitions
  due := hdue

/-- A row that a transaction sees is committed, or it comes from an UPDATE of a committed row. -/
theorem row_ne_none_of_seenBy {s : Office ι τ} (h : RetentionSound s) {w : ℕ} {report : ι}
    {row : Row τ} (hseen : s.table.seenBy w report = some row) : s.table.row report ≠ none := by
  cases hwritten : s.table.writtenBy w report with
  | none =>
    rw [Table.seenBy_of_not_writtenBy hwritten] at hseen
    rw [hseen]
    simp
  | some written =>
    rw [Table.seenBy_of_writtenBy hwritten] at hseen
    subst hseen
    exact (h.flushed report w row (Table.writtenBy_eq_some.mp hwritten)).2

theorem retentionSound_flush {s t : Office ι τ} (h : RetentionSound s) {w : ℕ}
    {change : Change ι τ} {reply : Except Fault (Row τ)}
    (hflush : s.flush w change = some (reply, t)) : RetentionSound t := by
  rcases flush_cases hflush with rfl | ⟨row, hblocked, hseen, rfl⟩
  · exact h
  refine retentionSound_lockRow h hseen rfl rfl rfl (fun v hv ↦ ?_) (fun new hnew ↦ ?_) h.due
  · by_cases heq : v = w
    · subst heq
      simp
    · change Function.update s.flushed w (some change) v ≠ none
      rw [Function.update_of_ne heq]
      exact hv
  · exact ⟨by simp, row_ne_none_of_seenBy h hseen⟩

/-- A DELETE of an untouched report, by a transaction that has no UPDATE of its own. -/
theorem retentionSound_deleteReport {s t : Office ι τ} (h : RetentionSound s) {w : ℕ}
    (hflushed : s.flushed w = none) {report : ι} {selected : Row τ} {closedBefore : τ}
    (hselected : Selected w closedBefore s (report, selected))
    (huntouched : Untouched w s report selected) {reply : Except Fault Unit}
    (hdelete : s.deleteReport w report closedBefore = some (reply, t)) : RetentionSound t := by
  rcases deleteReport_cases hdelete with rfl | ⟨row, hblocked, hseen, rfl⟩
  · exact h
  have hrow : s.table.row report = some row := by
    cases hwritten : s.table.writtenBy w report with
    | none => rw [← hseen, Table.seenBy_of_not_writtenBy hwritten]
    | some written =>
      rw [Table.seenBy_of_writtenBy hwritten] at hseen
      subst hseen
      exact absurd hflushed (h.flushed report w row (Table.writtenBy_eq_some.mp hwritten)).1
  refine retentionSound_lockRow h hseen rfl rfl rfl (fun _ hv ↦ hv) (fun _ hnew ↦ nomatch hnew) ?_
  intro deletion hdeletion
  rcases List.mem_cons.mp hdeletion with rfl | hold
  · exact due_of_untouched h hselected huntouched hrow
  · exact h.due deletion hold

theorem retentionSound_submit {s t : Office ι τ} (h : RetentionSound s) {report : ι} {today : τ}
    (hsubmit : environment feedbackDue (.submit report today) s = some t) : RetentionSound t := by
  obtain ⟨hnot, rfl⟩ := submit_cases feedbackDue hsubmit
  have hunknown := h.unknown report hnot
  refine ⟨fun other row hother ↦ ?_, fun other w new hlock ↦ ?_, fun other hother ↦ ?_, h.due⟩
  · change Function.update s.table.row report _ other = some row at hother
    by_cases heq : other = report
    · subst heq
      rw [Function.update_self] at hother
      cases hother
      change Status.received = lastStatus (s.transitions other)
      rw [hunknown.transitions]
      rfl
    · rw [Function.update_of_ne heq] at hother
      exact h.status other row hother
  · obtain ⟨hflushed, hrow⟩ := h.flushed other w new hlock
    refine ⟨hflushed, ?_⟩
    have hne : other ≠ report := by
      rintro rfl
      exact hrow hunknown.row
    change Function.update s.table.row report _ other ≠ none
    rw [Function.update_of_ne hne]
    exact hrow
  · have hne : other ≠ report := fun heq ↦ hother (heq ▸ List.mem_cons_self)
    exact (h.unknown other fun hmem ↦ hother (List.mem_cons_of_mem _ hmem)).submit hne _

theorem retentionSound_abort {s : Office ι τ} (h : RetentionSound s) (w : ℕ) :
    RetentionSound
      { s with table := s.table.abort w, ended := Function.update s.ended w true } where
  status := h.status
  flushed := fun report v new hlock ↦ h.flushed report v new (Table.lock_release hlock).1
  unknown := fun report hnot ↦ (h.unknown report hnot).abort w
  due := h.due

/-! ### The contract -/

theorem selectionKept_perform {v w : ℕ} (hne : v ≠ w) {operation : Op ι τ} {time : τ}
    {s t : Office ι τ} {reply : Except Fault (Reply operation)}
    (h : perform w operation time s = some (reply, t)) : SelectionKept v s t := by
  cases operation with
  | getReport report =>
    cases h
    exact ⟨rfl, rfl⟩
  | now =>
    cases h
    exact ⟨rfl, rfl⟩
  | selectExpired closedBefore =>
    cases h
    exact ⟨rfl, Function.update_of_ne hne ..⟩
  | flush change =>
    rcases flush_cases h with rfl | ⟨row, -, -, rfl⟩
    · exact ⟨rfl, rfl⟩
    · exact ⟨Function.update_of_ne hne .., rfl⟩
  | deleteReport report selected closedBefore =>
    rcases deleteReport_cases h with rfl | ⟨row, -, -, rfl⟩
    · exact ⟨rfl, rfl⟩
    · exact ⟨rfl, rfl⟩
  | commit entries =>
    rcases commit_cases h with rfl | rfl
    · exact ⟨rfl, rfl⟩
    · exact ⟨rfl, rfl⟩

theorem selectionKept_environment {w : ℕ} {happening : Happening ι τ} {s t : Office ι τ}
    (h : environment feedbackDue happening s = some t) : SelectionKept w s t := by
  cases happening with
  | submit report today =>
    obtain ⟨-, rfl⟩ := submit_cases feedbackDue h
    exact ⟨rfl, rfl⟩
  | abort v =>
    cases h
    exact ⟨rfl, rfl⟩

def retention (feedbackDue : τ → Option τ → τ) :
    Contract (semantics (ι := ι) feedbackDue) (Request ι τ) Page where
  invariant := RetentionSound
  rely := SelectionKept
  rely_refl _ _ := ⟨rfl, rfl⟩
  rely_trans _ _ _ _ hst htu := ⟨htu.flushed.trans hst.flushed, htu.selected.trans hst.selected⟩
  idle w s := s.flushed w = none
  idle_stable _ _ _ h hkept _ := hkept.flushed.trans h
  ends _ _ _ := True
  ends_stable _ _ _ _ _ _ _ := trivial
  admits _ := True
  allows := DeletesUntouched
  trusts _ _ _ := True
  tolerates _ _ := True
  environment_safe := by
    intro happening s t h _ hchange
    refine ⟨?_, fun w ↦ selectionKept_environment hchange⟩
    cases happening with
    | submit report today => exact retentionSound_submit h hchange
    | abort w =>
      cases hchange
      exact retentionSound_abort h w

variable {w : ℕ} {s : Office ι τ}

theorem retention_call {operation : Op ι τ} {promise : Reply operation → Office ι τ → Prop}
    (h : ∀ t, SelectionKept w s t → RetentionSound t → DeletesUntouched w operation t →
      ∀ time reply u, perform w operation time t = some (reply, u) →
        RetentionSound u ∧ ∀ value, reply = .ok value → promise value u) :
    Safe (retention feedbackDue) w (Returns promise) (call operation) s := by
  refine Safe.call fun t hkept hinv ↦ ⟨fun _ ↦ trivial, fun hallows time reply u hperform ↦ ?_⟩
  obtain ⟨hinv', hpromise⟩ := h t hkept hinv hallows time reply u hperform
  refine ⟨hinv', fun v hv ↦ selectionKept_perform hv hperform, fun _ ↦ ?_, fun _ ↦ trivial⟩
  cases reply with
  | ok value => exact hpromise value rfl
  | error exception => trivial

/-- An operation of an office user keeps the invariant whatever it decides. -/
theorem retention_office {operation : Op ι τ}
    (hoffice : ∀ report row closedBefore, operation ≠ .deleteReport report row closedBefore) :
    Safe (retention feedbackDue) w (Returns fun _ _ ↦ True) (call operation) s := by
  refine retention_call fun t _ hinv _ time reply u hperform ↦ ⟨?_, fun _ _ ↦ trivial⟩
  cases operation with
  | getReport report =>
    cases hperform
    exact hinv
  | now =>
    cases hperform
    exact hinv
  | selectExpired closedBefore =>
    cases hperform
    exact ⟨hinv.status, hinv.flushed, fun report hnot ↦ (hinv.unknown report hnot).of_eq rfl rfl,
      hinv.due⟩
  | flush change => exact retentionSound_flush hinv hperform
  | deleteReport report row closedBefore => exact absurd rfl (hoffice report row closedBefore)
  | commit entries =>
    rcases commit_cases hperform with rfl | rfl
    · exact hinv
    · exact retentionSound_commit hinv w entries

/-- What a SELECT returns is closed, by the row and by the transitions. -/
theorem selected_of_mem_expired {t : Office ι τ} (h : RetentionSound t) {closedBefore : τ}
    {report : ι × Row τ} (hmem : report ∈ t.expired closedBefore) :
    Office.Expired closedBefore report.2 ∧ lastStatus (t.transitions report.1) = .closed := by
  obtain ⟨name, -, hbind⟩ := List.mem_filterMap.mp hmem
  obtain ⟨row, hrow, hsome⟩ := Option.bind_eq_some_iff.mp hbind
  split_ifs at hsome with hexpired
  cases hsome
  exact ⟨hexpired, (h.status name row hrow).symm.trans hexpired.1⟩

theorem retention_selectExpired (closedBefore : τ) (h : s.flushed w = none) :
    Safe (retention feedbackDue) w
      (Returns fun reports t ↦ t.flushed w = none ∧ ∀ report ∈ reports, Selected w closedBefore t report)
      (call (.selectExpired closedBefore : Op ι τ)) s := by
  refine retention_call fun t hkept hinv _ time reply u hperform ↦ ?_
  cases hperform
  refine ⟨⟨hinv.status, hinv.flushed, fun report hnot ↦ (hinv.unknown report hnot).of_eq rfl rfl,
    hinv.due⟩, fun reports hreports ↦ ⟨hkept.flushed.trans h, fun report hmem ↦ ?_⟩⟩
  cases hreports
  obtain ⟨hexpired, hclosed⟩ := selected_of_mem_expired hinv hmem
  refine ⟨hexpired, ?_⟩
  change lastStatus (Function.update t.selected w t.transitions w report.1) = .closed
  rw [Function.update_self]
  exact hclosed

theorem Selected.kept {t : Office ι τ} {closedBefore : τ} {report : ι × Row τ}
    (h : Selected w closedBefore s report) (hkept : SelectionKept w s t) :
    Selected w closedBefore t report :=
  ⟨h.1, by rw [hkept.selected]; exact h.2⟩

theorem retention_deleteReports (closedBefore : τ) (reports : List (ι × Row τ)) :
    ∀ s : Office ι τ, s.flushed w = none → (∀ report ∈ reports, Selected w closedBefore s report) →
      Safe (retention feedbackDue) w (Returns fun _ _ ↦ True) (deleteReports closedBefore reports)
        s := by
  induction reports with
  | nil => exact fun s _ _ ↦ Safe.ret trivial
  | cons report reports ih =>
    intro s hflushed hselected
    have hdelete : Safe (retention feedbackDue) w (Returns fun _ t ↦ SelectionKept w s t)
        (call (.deleteReport report.1 report.2 closedBefore)) s := by
      refine retention_call fun t hkept hinv huntouched time reply u hperform ↦ ⟨?_, fun _ _ ↦ ?_⟩
      · exact retentionSound_deleteReport hinv (hkept.flushed.trans hflushed)
          ((hselected report List.mem_cons_self).kept hkept) huntouched hperform
      · rcases deleteReport_cases hperform with rfl | ⟨row, -, -, rfl⟩
        · exact hkept
        · exact ⟨hkept.flushed, hkept.selected⟩
    refine Safe.andThen hdelete fun _ t hkept ↦ ih t (hkept.flushed.trans hflushed) fun other hother ↦ ?_
    exact (hselected other (List.mem_cons_of_mem _ hother)).kept hkept

/-- Only a retention run deletes, and only what it has selected. -/
theorem retention_handles : (retention (ι := ι) feedbackDue).Handles (handler feedbackDue) := by
  intro w request s _ _ hflushed
  refine Safe.imp (fun _ _ _ ↦ trivial) (?_ : Safe _ w (Returns fun _ _ ↦ True) _ s)
  have hget : ∀ report mayAccess, Safe (retention feedbackDue) w (Returns fun _ _ ↦ True)
      (getAuthorizedReport report mayAccess) s := fun report mayAccess ↦
    Safe.andThen (retention_office nofun) fun _ _ _ ↦ by split <;> exact Safe.ret trivial
  cases request with
  | acknowledge report mayAccess =>
    refine Safe.andThen (hget report mayAccess) fun read t _ ↦ ?_
    cases read with
    | none => exact Safe.ret trivial
    | some row =>
      refine Safe.andThen (retention_office nofun) fun now u _ ↦ ?_
      refine Safe.andThen (retention_office nofun) fun refreshed v _ ↦ ?_
      exact Safe.andThen (retention_office nofun) fun _ _ _ ↦ Safe.ret trivial
  | updateStatus report newStatus mayAccess =>
    refine Safe.andThen (hget report mayAccess) fun read t _ ↦ ?_
    cases read with
    | none => exact Safe.ret trivial
    | some row =>
      show Safe _ w _ (if isValidTransition row.status newStatus = true then _ else _) t
      split_ifs
      · refine Safe.andThen (retention_office nofun) fun now u _ ↦ ?_
        refine Safe.andThen (retention_office nofun) fun refreshed v _ ↦ ?_
        exact Safe.andThen (retention_office nofun) fun _ _ _ ↦ Safe.ret trivial
      · exact Safe.ret trivial
  | retention closedBefore =>
    refine Safe.andThen (retention_selectExpired closedBefore hflushed) fun reports t hreports ↦ ?_
    refine Safe.andThen (retention_deleteReports closedBefore reports t hreports.1 hreports.2)
      fun _ u _ ↦ ?_
    exact Safe.andThen (retention_office nofun) fun _ _ _ ↦ Safe.ret trivial

/-! ### Every run -/

/-- A DELETE meets its report as its run's SELECT has seen it. -/
def ReportsUntouched (s : Work ι τ) : Step ι τ → Prop
  | .run w _ => ∀ operation ∈ s.next w, DeletesUntouched w operation s.shared
  | .lose w _ _ => ∀ operation ∈ s.next w, DeletesUntouched w operation s.shared
  | _ => True

instance (w : ℕ) (s : Office ι τ) (report : ι) (row : Row τ) : Decidable (Untouched w s report row) :=
  inferInstanceAs (Decidable (_ ∧ ∀ closed ∈ lastClosed (s.transitions report), _))

instance (w : ℕ) (operation : Op ι τ) (s : Office ι τ) :
    Decidable (DeletesUntouched w operation s) :=
  match operation with
  | .deleteReport report row _ => inferInstanceAs (Decidable (Untouched w s report row))
  | .getReport _ | .now | .flush _ | .selectExpired _ | .commit _ => isTrue trivial

instance (s : Work ι τ) (event : Step ι τ) : Decidable (ReportsUntouched s event) :=
  match event with
  | .run w _ | .lose w _ _ => inferInstanceAs (Decidable (∀ operation ∈ s.next w, _))
  | .start _ _ | .fail _ _ | .environment _ => isTrue trivial

/-- In every run whose DELETEs meet their reports untouched, every report a retention run has
deleted was closed at its DELETE, and its last closing lay before the run's cutoff. -/
theorem retention_deletes_only_what_is_due {events : List (Step ι τ)} {last : Work ι τ}
    (huntouched : Meets (semantics feedbackDue) (handler feedbackDue) ReportsUntouched start events)
    (hrun : run (semantics feedbackDue) (handler feedbackDue) start events = some last) :
    ∀ deletion ∈ last.shared.deletions, deletion.row.status = .closed ∧
      ∃ closed, lastClosed deletion.transitions = some closed ∧ closed < deletion.closedBefore := by
  have hpermits : Meets (semantics feedbackDue) (handler feedbackDue)
      (retention feedbackDue).Permits start events := by
    refine meets_imp (fun s event h ↦ ?_) huntouched
    cases event with
    | start w request => trivial
    | run w time => exact fun operation hnext ↦ ⟨h operation hnext, trivial⟩
    | fail w exception => trivial
    | lose w time exception => exact h
    | environment happening => trivial
  have hempty : RetentionSound (Office.empty : Office ι τ) :=
    ⟨(fun _ _ h ↦ nomatch h), (fun _ _ _ h ↦ nomatch h), (fun _ _ ↦ ⟨rfl, rfl, rfl⟩),
      fun _ h ↦ nomatch h⟩
  have hstart : (retention feedbackDue).Holds (start : Work ι τ) :=
    Contract.holds_of_idle hempty (fun _ ↦ rfl) fun _ ↦ rfl
  exact (Contract.run_safe retention_handles hstart hpermits hrun).invariant.due

/-- The report 0 is closed on day 5 and deleted by a run that deletes what was closed before
day 10. -/
def deletedInTime : List (Step ℕ ℕ) :=
  [.environment (.submit 0 1),
    .start 1 (.updateStatus 0 .closed true), .run 1 0, .run 1 5, .run 1 0, .run 1 0,
    .start 2 (.retention 10), .run 2 0, .run 2 0, .run 2 0]

/-- As before, and between the SELECT and the DELETE an office user reopens the report on day 2000. -/
def reopenedBetween : List (Step ℕ ℕ) :=
  [.environment (.submit 0 1),
    .start 1 (.updateStatus 0 .closed true), .run 1 0, .run 1 5, .run 1 0, .run 1 0,
    .start 2 (.retention 10), .run 2 0,
    .start 3 (.updateStatus 0 .inReview true), .run 3 0, .run 3 2000, .run 3 0, .run 3 0,
    .run 2 0, .run 2 0]

theorem retention_deletes_what_is_due_in_time : ∃ last,
    run (semantics ninetyDays) (handler ninetyDays) start deletedInTime = some last ∧
    last.shared.table.row 0 = none ∧ last.shared.deletions.length = 1 ∧
    ∀ deletion ∈ last.shared.deletions, deletion.row.status = .closed ∧
      ∃ closed, lastClosed deletion.transitions = some closed ∧ closed < deletion.closedBefore := by
  have hrun := sample_run deletedInTime (by decide)
  exact ⟨_, hrun, rfl, rfl, retention_deletes_only_what_is_due (by decide) hrun⟩

/-- The reopened report is deleted while it is in review. -/
theorem retention_deletes_a_reopened_report : ∃ last,
    run (semantics ninetyDays) (handler ninetyDays) start reopenedBetween = some last ∧
    last.shared.table.row 0 = none ∧
    last.shared.deletions.map (fun deletion ↦ (deletion.report, deletion.row.status)) =
      [(0, .inReview)] := by
  have hrun := sample_run reopenedBetween (by decide)
  exact ⟨_, hrun, rfl, rfl⟩

end OpenWhistle.Cases
