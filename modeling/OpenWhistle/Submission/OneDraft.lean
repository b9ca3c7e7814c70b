import OpenWhistle.Submission.Handlers

/-!
# Runs of a session from its first save

What the contract gives for every run that begins with the first save of a draft, whatever requests
arrive, however their operations interleave, and whichever of them stop for good.

The rows inserted from the session all carry the id of that save, so the table holds at most one of
them; no condition is needed. The answers stay in a draft key or in a committed report, as long as
nobody starts again and no expiry takes the last copy. What reporters are shown is true, as long as
no failed submit finds its own case number on a report with another PIN. That last condition is not
idle: whose report a failed submit found is decided by its case number alone, and two submits of one
draft can draw the same.
-/

set_option autoImplicit false
set_option relaxedAutoImplicit false

namespace OpenWhistle.Submission

open Interleaving

abbrev Step := Event Request Exn Draw Change

abbrev Requests := System Session (Handler Page)

/-- The first non-empty save of a session, over any reports table. -/
structure FirstSave where
  state : Draft
  nonempty : state.isEmpty = false
  unsaved : state.reportId = none
  iv : ℕ
  reportId : ReportId
  reports : Table
  fresh : reportId ∉ reports.rows.map Report.id

namespace FirstSave

/-- The session right after the save. -/
def session (first : FirstSave) : Session where
  keys := Keys.saveDraft {} first.iv first.state first.reportId
  reports := first.reports
  transaction := fun _ ↦ .inProgress
  inserted := []
  minted := [first.reportId]
  finished := false

/-- No other request has started. -/
def system (first : FirstSave) : Requests where
  shared := first.session
  worker := fun _ ↦ none

theorem custody (first : FirstSave) (terms : Terms) :
    Custody first.reportId terms first.session where
  carries := by
    refine ⟨fun token htoken ↦ ?_, fun _ h ↦ nomatch h⟩
    cases htoken
    simp [Draft.withReportId, first.nonempty, first.unsaved]
  minted := List.mem_cons_self
  inserted := fun _ h ↦ nomatch h
  landed := fun _ _ h ↦ nomatch h
  result := fun _ _ h ↦ nomatch h
  kept := fun _ ↦ .inr (Keys.holds_saveDraft ..)

theorem holds_of_run (first : FirstSave) (terms : Terms) {events : List Step} {last : Requests}
    (hpermits : Meets semantics handler (Submission.custody first.reportId terms).Permits first.system
      events)
    (hrun : run semantics handler first.system events = some last) :
    (Submission.custody first.reportId terms).Holds last :=
  custody_run (first.custody terms) (fun _ ↦ rfl) hpermits hrun

end FirstSave

/-! ### Sample runs -/

/-- The next operations of a worker, for which nothing but zeros is drawn. -/
def continues (w count : ℕ) : List Step := List.replicate count (.run w {})

theorem reviewed_nonempty : ({ step := some stepReview } : Draft).isEmpty = false := rfl

theorem reviewed_unsaved : ({ step := some stepReview } : Draft).reportId = none := rfl

/-- A draft saved at its review step. -/
def reviewed : FirstSave where
  state := { step := some stepReview }
  nonempty := reviewed_nonempty
  unsaved := reviewed_unsaved
  iv := 0
  reportId := 7
  reports := ⟨[], List.nodup_nil, List.nodup_nil⟩
  fresh := List.not_mem_nil

/-- A final submit of a draft that passes its checks. -/
def finalPost : Post where
  tenant := ⟨false, some 1⟩
  hasLocations := false
  polls := 0
  answer := fun _ ↦ .review
  draftError := fun _ ↦ none

/-- A submit that inserts its report under the case number 0 and sends its COMMIT. -/
def untilCommit (w : ℕ) (pin : Pin) : List Step :=
  .start w (.post finalPost) :: continues w 3 ++ .run w { pin := pin } :: continues w 4

/-- A submit that finds an abandoned claim recovers the draft before its own. -/
def recoverUntilCommit (w : ℕ) (pin : Pin) : List Step :=
  .start w (.post finalPost) :: continues w 6 ++
    [.run w { nonce := 1 }, .run w {}, .run w { pin := pin }] ++ continues w 4

/-- The COMMIT lands, its reply arrives, and the claim is finished. -/
def landAndFinish (w : ℕ) : List Step := .environment (.land w) :: continues w 2

/-- The COMMIT of the first submit fails, its claim expires, and before it looks its report up a
second submit recovers the draft and commits it under the case number the first one drew. -/
def repeatedDraw : List Step :=
  untilCommit 1 ⟨1⟩ ++ [.environment (.abort 1), .run 1 {}, .environment (.expire .pending)] ++
    recoverUntilCommit 2 ⟨2⟩ ++ landAndFinish 2 ++ continues 1 2

/-- The end of a run from the sample save. -/
theorem reviewed_run (events : List Step)
    (h : (run semantics handler reviewed.system events).isSome = true) :
    run semantics handler reviewed.system events =
      some ((run semantics handler reviewed.system events).get h) :=
  run_eq_get h

/-! ### At most one report -/

/-- Every row ever inserted from a session carries the id of its first save, so the table never
holds two of them. -/
theorem one_draft_one_report (first : FirstSave) {events : List Step} {last : Requests}
    (hrun : run semantics handler first.system events = some last) :
    (∀ entry ∈ last.shared.inserted, entry.2.id = first.reportId) ∧
      (last.shared.reports.rows.filter fun row ↦
        row ∈ last.shared.inserted.map Prod.snd).length ≤ 1 := by
  have hpermits : Meets semantics handler
      (custody first.reportId ⟨False, False⟩).Permits first.system events := by
    refine meets_of_forall (fun event _ s ↦ ?_) _
    cases event with
    | start w request => exact fun h ↦ h.elim
    | run w draw => exact fun _ _ ↦ ⟨trivial, fun h ↦ h.elim⟩
    | fail w exception => trivial
    | lose w draw exception => exact fun _ _ ↦ trivial
    | environment change =>
      cases change with
      | expire key => exact fun h ↦ h.elim
      | _ => trivial
  have hinserted := (first.holds_of_run _ hpermits hrun).invariant.inserted
  refine ⟨hinserted, Nat.le_trans (List.Sublist.length_le ?_)
    (last.shared.reports.length_filter_id_le_one first.reportId)⟩
  refine List.monotone_filter_right _ fun row hrow ↦ ?_
  obtain ⟨entry, hentry, rfl⟩ := List.mem_map.mp (of_decide_eq_true hrow)
  exact decide_eq_true (hinserted entry hentry)

/-- Two submits have inserted a report, one of them is in the table. -/
theorem one_draft_one_report_of_two_submits : ∃ last,
    run semantics handler reviewed.system repeatedDraw = some last ∧
    last.shared.inserted.length = 2 ∧ last.shared.reports.rows.length = 1 ∧
    (∀ entry ∈ last.shared.inserted, entry.2.id = reviewed.reportId) ∧
    (last.shared.reports.rows.filter fun row ↦
      row ∈ last.shared.inserted.map Prod.snd).length ≤ 1 := by
  have hrun := reviewed_run repeatedDraw (by decide)
  exact ⟨_, hrun, by decide, by decide, one_draft_one_report reviewed hrun⟩

/-! ### What reporters are shown -/

/-- No answer to a lookup is ambiguous for the submit that asks. -/
def UnambiguousAnswer (id : ReportId) (s : Requests) : Step → Prop
  | .run w _ => ∀ operation ∈ s.next w, ∀ own ∈ operation.ours, Unambiguous id s.shared own
  | _ => True

instance (id : ReportId) (s : Session) (own : Report) : Decidable (Unambiguous id s own) :=
  inferInstanceAs (Decidable (∀ row ∈ s.reports.rows, _))

instance (id : ReportId) (s : Requests) (event : Step) : Decidable (UnambiguousAnswer id s event) :=
  match event with
  | .run w _ => inferInstanceAs (Decidable (∀ operation ∈ s.next w, _))
  | .start _ _ | .fail _ _ | .lose _ _ _ | .environment _ => isTrue trivial

/-- While no lookup is ambiguous, the stored result and every success page name the case number of
the committed report of the draft, and a PIN that they show is that report's. -/
theorem shown_is_true (first : FirstSave) {events : List Step} {last : Requests}
    (hanswers : Meets semantics handler (UnambiguousAnswer first.reportId) first.system events)
    (hrun : run semantics handler first.system events = some last) :
    (∀ result, last.shared.keys.result = some result →
      Shows first.reportId last.shared result) ∧
    ∀ w result, last.answer w = some (.success result) →
      Shows first.reportId last.shared result := by
  have hpermits : Meets semantics handler
      (custody first.reportId ⟨True, False⟩).Permits first.system events := by
    refine meets_imp (fun s event h ↦ ?_) hanswers
    cases event with
    | start w request => exact fun hkeeps ↦ hkeeps.elim
    | run w draw => exact fun operation hnext ↦ ⟨trivial, fun _ ↦ h operation hnext⟩
    | fail w exception => trivial
    | lose w draw exception => exact fun _ _ ↦ trivial
    | environment change =>
      cases change with
      | expire key => exact fun hkeeps ↦ hkeeps.elim
      | _ => trivial
  have hholds := first.holds_of_run _ hpermits hrun
  exact ⟨hholds.invariant.result trivial, fun w result hanswer ↦ hholds.ends_of_answer hanswer trivial⟩

/-- A submit that is answered while its report is in the table. -/
theorem shown_is_true_of_plain_submit : ∃ last result,
    run semantics handler reviewed.system (untilCommit 1 ⟨1⟩ ++ landAndFinish 1) = some last ∧
    last.answer 1 = some (.success result) ∧ Shows reviewed.reportId last.shared result := by
  have hrun := reviewed_run (untilCommit 1 ⟨1⟩ ++ landAndFinish 1) (by decide)
  exact ⟨_, ⟨⟨0, 0⟩, some ⟨1⟩, []⟩, hrun, rfl, (shown_is_true reviewed (by decide) hrun).2 1 _ rfl⟩

/-- After a repeated draw the first submit shows its own PIN for the report of the second. -/
theorem repeated_draw_shows_a_false_pin : ∃ last result,
    run semantics handler reviewed.system repeatedDraw = some last ∧
    last.answer 1 = some (.success result) ∧ ¬Shows reviewed.reportId last.shared result := by
  have hrun := reviewed_run repeatedDraw (by decide)
  refine ⟨_, ⟨⟨0, 0⟩, some ⟨1⟩, []⟩, hrun, rfl, ?_⟩
  rintro ⟨row, hrow, -, -, hpin⟩
  have hother : ∀ row ∈ ((run semantics handler reviewed.system repeatedDraw).get
      (by decide)).shared.reports.rows, row.pinHash ≠ hashPin ⟨1⟩ := by decide
  exact hother row hrow (hpin ⟨1⟩ rfl)

/-! ### The answers are kept -/

/-- Nobody starts again, and an expiry leaves a copy of the draft. -/
def LeavesAnswers (id : ReportId) (s : Requests) : Step → Prop
  | .start _ request => request ≠ .restart
  | .environment (.expire key) => LeavesCopy id s.shared key
  | _ => True

instance (id : ReportId) (s : Session) (key : Key) : Decidable (LeavesCopy id s key) :=
  inferInstanceAs (Decidable ((∃ row ∈ s.reports.rows, row.id = id) ∨ (s.keys.expire key).Holds))

instance (id : ReportId) (s : Requests) (event : Step) : Decidable (LeavesAnswers id s event) :=
  match event with
  | .start _ .restart => isFalse fun h ↦ h rfl
  | .start _ (.get _) | .start _ (.post _) | .start _ (.removeAttachment _ _) =>
    isTrue (Request.noConfusion ·)
  | .environment (.expire key) => inferInstanceAs (Decidable (LeavesCopy id s.shared key))
  | .environment (.land _) | .environment (.abort _) | .environment (.otherReport _) => isTrue trivial
  | .run _ _ | .fail _ _ | .lose _ _ _ => isTrue trivial

/-- While nobody starts again and no expiry takes the last copy, a report of the draft is committed
or one of the draft keys holds the draft. -/
theorem answers_never_lost (first : FirstSave) {events : List Step} {last : Requests}
    (hleaves : Meets semantics handler (LeavesAnswers first.reportId) first.system events)
    (hrun : run semantics handler first.system events = some last) :
    HasReport first.reportId last.shared ∨ last.shared.keys.draft ≠ none ∨
      last.shared.keys.claimed ≠ none := by
  have hpermits : Meets semantics handler
      (custody first.reportId ⟨False, True⟩).Permits first.system events := by
    refine meets_imp (fun s event h ↦ ?_) hleaves
    cases event with
    | start w request => exact fun _ ↦ h
    | run w draw => exact fun _ _ ↦ ⟨trivial, fun htruthful ↦ htruthful.elim⟩
    | fail w exception => trivial
    | lose w draw exception => exact fun _ _ ↦ trivial
    | environment change =>
      cases change with
      | expire key => exact fun _ ↦ h
      | _ => trivial
  exact (first.holds_of_run _ hpermits hrun).invariant.kept trivial

/-- The first submit is dead and its claim has expired; the claimed key holds the draft. -/
theorem answers_never_lost_of_dead_submit : ∃ last,
    run semantics handler reviewed.system
      (untilCommit 1 ⟨1⟩ ++ [.environment (.abort 1), .environment (.expire .pending)]) = some last ∧
    ¬HasReport reviewed.reportId last.shared ∧ last.shared.keys.draft = none ∧
    (HasReport reviewed.reportId last.shared ∨ last.shared.keys.draft ≠ none ∨
      last.shared.keys.claimed ≠ none) := by
  have hrun := reviewed_run (untilCommit 1 ⟨1⟩ ++
    [.environment (.abort 1), .environment (.expire .pending)]) (by decide)
  refine ⟨_, hrun, ?_, rfl, answers_never_lost reviewed (by decide) hrun⟩
  rintro ⟨row, hrow, -⟩
  exact nomatch hrow

end OpenWhistle.Submission
