import OpenWhistle.Deletion.Invariant

/-!
# The steps of the registry

Every statement and every commit of a transaction keeps the invariant of the registry, given what
the transaction knows, and leaves the transactions of the others alone.
-/

set_option autoImplicit false
set_option relaxedAutoImplicit false
set_option linter.unusedSectionVars false

namespace OpenWhistle.Deletion

open Interleaving ReadCommitted

variable {ι α : Type} [DecidableEq ι] [DecidableEq α] {family : Family α} {s t : Registry ι α} {w : ℕ}

/-! ### The invariant -/

theorem present_of_seenBy {report : ι} {request : DeletionRequest α}
    (h : s.requests.seenBy w report = some request) : Present s report request := by
  cases hwritten : s.requests.writtenBy w report with
  | none =>
    rw [Table.seenBy_of_not_writtenBy hwritten] at h
    exact .inl h
  | some written =>
    rw [Table.seenBy_of_writtenBy hwritten] at h
    subst h
    exact .inr ⟨w, Table.writtenBy_eq_some.mp hwritten⟩

/-- A request that is present after a rewriting was present before, with the same id and the same
requester. -/
theorem present_lockRow {report other : ι} {written : Option (DeletionRequest α)}
    {request : DeletionRequest α} (hrewrites : Rewrites w report s written)
    (htable : t.requests = s.requests.lockRow w report written)
    (h : Present t other request) : ∃ old, Present s other old ∧ request.id = old.id ∧
      request.requestedById = old.requestedById := by
  rcases h with hrow | ⟨v, hlock⟩
  · rw [htable] at hrow
    exact ⟨request, .inl hrow, rfl, rfl⟩
  · rw [htable] at hlock
    by_cases heq : other = report
    · subst heq
      rw [Table.lock_lockRow_self] at hlock
      cases hlock
      obtain ⟨-, seen, hseen, hsame⟩ := hrewrites
      exact ⟨seen, present_of_seenBy hseen, (hsame request rfl).1, (hsame request rfl).2⟩
    · rw [Table.lock_lockRow_of_ne heq] at hlock
      exact ⟨request, .inr ⟨v, hlock⟩, rfl, rfl⟩

/-- Nothing has been committed, and no request has appeared. -/
theorem RegistrySound.rewrite (h : RegistrySound family s)
    (hpresent : ∀ report request, Present t report request → ∃ old, Present s report old ∧
      request.id = old.id ∧ request.requestedById = old.requestedById)
    (hrow : t.reports.row = s.reports.row)
    (hdeletes : ∀ report, ∀ lock ∈ t.reports.lock report, lock.written = none)
    (hunlocked : ∀ report, report ∉ s.known → t.reports.lock report = none)
    (hissued : t.issued = s.issued) (hwithdrawn : t.withdrawn = s.withdrawn)
    (hknown : t.known = s.known) (hexecutions : t.executions = s.executions) :
    RegistrySound family t where
  owner := by
    rw [hissued]
    exact h.owner
  present report request hrequest := by
    obtain ⟨old, hold, hid, hrequested⟩ := hpresent report request hrequest
    obtain ⟨hin, hnot, hrequester, hreport⟩ := h.present report old hold
    refine ⟨?_, ?_, ?_, ?_⟩
    · rw [hissued, hid]
      exact hin
    · rw [hwithdrawn, hid]
      exact hnot
    · rw [hrequested]
      exact hrequester
    · rw [hknown]
      exact hreport
  withdrawn := by
    rw [hwithdrawn, hissued]
    exact h.withdrawn
  deletes := hdeletes
  unknown report hnot := by
    rw [hknown] at hnot
    refine ⟨?_, hunlocked report hnot⟩
    rw [hrow]
    exact (h.unknown report hnot).row
  executed execution hmem := by
    rw [hexecutions] at hmem
    obtain ⟨hstanding, heyes, hin, hnot, hgone, habsent, hreport⟩ := h.executed execution hmem
    refine ⟨hstanding, heyes, ?_, ?_, ?_, fun request hrequest ↦ ?_, ?_⟩
    · rw [hissued]
      exact hin
    · rw [hwithdrawn]
      exact hnot
    · rw [hrow]
      exact hgone
    · obtain ⟨old, hold, -⟩ := hpresent _ request hrequest
      exact habsent old hold
    · rw [hknown]
      exact hreport
  gone := by
    rw [hknown, hrow, hexecutions]
    exact h.gone

/-- A statement that writes one request. -/
theorem RegistrySound.lockRow (h : RegistrySound family s) {report : ι}
    {written : Option (DeletionRequest α)} (hrewrites : Rewrites w report s written)
    (htable : t.requests = s.requests.lockRow w report written) (hreports : t.reports = s.reports)
    (hissued : t.issued = s.issued) (hwithdrawn : t.withdrawn = s.withdrawn)
    (hknown : t.known = s.known) (hexecutions : t.executions = s.executions) :
    RegistrySound family t := by
  refine h.rewrite (fun _ _ ↦ present_lockRow hrewrites htable) ?_ ?_ ?_ hissued hwithdrawn hknown
    hexecutions
  · rw [hreports]
  · rw [hreports]
    exact h.deletes
  · rw [hreports]
    exact fun other hnot ↦ (h.unknown other hnot).lock

theorem registrySound_insertRequest (h : RegistrySound family s) {report : ι} {requester : α}
    {id : ℕ} {reply : Except Fault Unit}
    (hinsert : s.insertRequest w report requester id = some (reply, t)) : RegistrySound family t := by
  rcases insertRequest_cases hinsert with rfl | ⟨hfresh, -, hrow, rfl⟩
  · exact h
  have hnew : ∀ other, (id, other) ∉ s.issued := fun other hmem ↦
    hfresh (List.mem_map.mpr ⟨_, hmem, rfl⟩)
  have hknown : report ∈ s.known := by
    by_contra hnot
    exact hrow (h.unknown report hnot).row
  have hpresent : ∀ other request, Present { s with
      requests := s.requests.lockRow w report (some ⟨id, some requester, none⟩)
      issued := (id, report) :: s.issued } other request →
      Present s other request ∨ other = report ∧ request = ⟨id, some requester, none⟩ := by
    rintro other request (hstored | ⟨v, hlock⟩)
    · exact .inl (.inl hstored)
    · change (s.requests.lockRow w report _).lock other = _ at hlock
      by_cases heq : other = report
      · subst heq
        rw [Table.lock_lockRow_self] at hlock
        cases hlock
        exact .inr ⟨rfl, rfl⟩
      · rw [Table.lock_lockRow_of_ne heq] at hlock
        exact .inl (.inr ⟨v, hlock⟩)
  refine ⟨fun other first second hfirst hsecond ↦ ?_, fun other request hrequest ↦ ?_,
    fun other hmem ↦ ?_, h.deletes,
    fun other hnot ↦ ⟨(h.unknown other hnot).row, (h.unknown other hnot).lock⟩,
    fun execution hmem ↦ ?_, h.gone⟩
  · rcases List.mem_cons.mp hfirst with hfirst | hfirst <;>
      rcases List.mem_cons.mp hsecond with hsecond | hsecond
    · cases hfirst
      cases hsecond
      rfl
    · cases hfirst
      exact absurd hsecond (hnew second)
    · cases hsecond
      exact absurd hfirst (hnew first)
    · exact h.owner other first second hfirst hsecond
  · rcases hpresent other request hrequest with hold | ⟨rfl, rfl⟩
    · obtain ⟨hin, hnot, hrequester, hreport⟩ := h.present other request hold
      exact ⟨List.mem_cons_of_mem _ hin, hnot, hrequester, hreport⟩
    · refine ⟨List.mem_cons_self, fun hmem ↦ ?_, ⟨requester, rfl⟩, hknown⟩
      obtain ⟨owner, howner⟩ := h.withdrawn id hmem
      exact hnew owner howner
  · obtain ⟨owner, howner⟩ := h.withdrawn other hmem
    exact ⟨owner, List.mem_cons_of_mem _ howner⟩
  · obtain ⟨hstanding, heyes, hin, hnot, hgone, habsent, hreport⟩ := h.executed execution hmem
    refine ⟨hstanding, heyes, List.mem_cons_of_mem _ hin, hnot, hgone, fun request hrequest ↦ ?_,
      hreport⟩
    rcases hpresent _ request hrequest with hold | ⟨heq, -⟩
    · exact habsent request hold
    · rw [heq] at hgone
      exact hrow hgone

/-- The lock of a report is taken for its deletion. -/
theorem registrySound_deleteReport (h : RegistrySound family s) {confirmation : Confirmation ι α}
    {request : DeletionRequest α}
    (hlocked : LockedFor w confirmation.report request s)
    {reply : Except Fault Unit}
    (hdelete : s.deleteReport w confirmation = some (reply, t)) : RegistrySound family t := by
  rcases deleteReport_cases hdelete with rfl | ⟨-, ⟨caseNumber, hcase⟩, hrest⟩
  · exact h
  obtain ⟨new, hnew⟩ := hlocked.written
  have hseen := Table.seenBy_of_writtenBy hnew
  rcases hrest with ⟨hnone, -⟩ | ⟨hrewrites, rfl⟩
  · rw [hseen] at hnone
    cases hnone
  rw [Table.seenBy_of_not_writtenBy (hlocked.reports _)] at hcase
  refine h.rewrite (fun _ _ ↦ present_lockRow hrewrites rfl) rfl (fun other lock hlock ↦ ?_)
    (fun other hnot ↦ ?_) rfl rfl rfl rfl
  · change (s.reports.lockRow w confirmation.report none).lock other = some lock at hlock
    by_cases heq : other = confirmation.report
    · subst heq
      rw [Table.lock_lockRow_self] at hlock
      cases hlock
      rfl
    · rw [Table.lock_lockRow_of_ne heq] at hlock
      exact h.deletes other lock hlock
  · have hne : other ≠ confirmation.report := by
      rintro rfl
      rw [(h.unknown _ hnot).row] at hcase
      cases hcase
    exact (Table.lock_lockRow_of_ne hne none).trans (h.unknown other hnot).lock

/-- What is present after the end of a transaction was present before. -/
theorem present_of_commit {report : ι} {request : DeletionRequest α}
    (htable : t.requests = s.requests.commit w) (h : Present t report request) :
    Present s report request := by
  rcases h with hrow | ⟨v, hlock⟩
  · rw [htable] at hrow
    exact present_of_seenBy hrow
  · rw [htable] at hlock
    exact .inr ⟨v, (Table.lock_commit hlock).1⟩

/-- A request that the transaction has deleted is gone with its commit. -/
theorem not_present_of_commit {report : ι} (htable : t.requests = s.requests.commit w)
    (hwritten : s.requests.writtenBy w report = some none) (request : DeletionRequest α) :
    ¬Present t report request := by
  rintro (hrow | ⟨v, hlock⟩)
  · rw [htable] at hrow
    change s.requests.seenBy w report = some request at hrow
    rw [Table.seenBy_of_writtenBy hwritten] at hrow
    cases hrow
  · rw [htable] at hlock
    cases (Table.writtenBy_eq_some.mp hwritten).symm.trans (Table.lock_commit hlock).1

/-- A report that is gone is gone for every transaction. -/
theorem RegistrySound.seenBy_eq_none (h : RegistrySound family s) (w : ℕ) {report : ι}
    (hrow : s.reports.row report = none) : s.reports.seenBy w report = none := by
  cases hwritten : s.reports.writtenBy w report with
  | none => rw [Table.seenBy_of_not_writtenBy hwritten, hrow]
  | some written =>
    rw [Table.seenBy_of_writtenBy hwritten]
    exact h.deletes report _ (Table.writtenBy_eq_some.mp hwritten)

/-- A commit keeps the invariant when what it withdraws is gone with it and was not executed, and
what it executes is as it should be. -/
theorem RegistrySound.commit (h : RegistrySound family s) (hreports : t.reports = s.reports.commit w)
    (hrequests : t.requests = s.requests.commit w) (hissued : t.issued = s.issued)
    (hknown : t.known = s.known)
    (hwithdrawn : ∀ id ∈ t.withdrawn, id ∈ s.withdrawn ∨ ∃ report, (id, report) ∈ s.issued ∧
      (∀ request, ¬Present t report request) ∧
        ∀ execution ∈ s.executions, execution.confirmation.report ≠ report)
    (hexecuted : ∀ execution ∈ t.executions, execution ∈ s.executions ∨ Executed family t execution)
    (hold : ∀ execution ∈ s.executions, execution ∈ t.executions)
    (hgone : ∀ report, s.reports.seenBy w report = none → s.reports.row report = none ∨
      ∃ execution ∈ t.executions, execution.confirmation.report = report) :
    RegistrySound family t where
  owner := by
    rw [hissued]
    exact h.owner
  present report request hrequest := by
    obtain ⟨hin, hnot, hrequester, hreport⟩ :=
      h.present report request (present_of_commit hrequests hrequest)
    refine ⟨?_, fun hmem ↦ ?_, hrequester, ?_⟩
    · rw [hissued]
      exact hin
    · rcases hwithdrawn _ hmem with hbefore | ⟨owner, howner, habsent, -⟩
      · exact hnot hbefore
      · rw [h.owner _ _ _ howner hin] at habsent
        exact habsent request hrequest
    · rw [hknown]
      exact hreport
  withdrawn id hmem := by
    rw [hissued]
    rcases hwithdrawn id hmem with hbefore | ⟨owner, howner, -⟩
    · exact h.withdrawn id hbefore
    · exact ⟨owner, howner⟩
  deletes report lock hlock := by
    rw [hreports] at hlock
    exact h.deletes report lock (Table.lock_commit hlock).1
  unknown report hnot := by
    rw [hknown] at hnot
    obtain ⟨hrow, hlock⟩ := h.unknown report hnot
    have hwritten : s.reports.writtenBy w report = none := by simp [Table.writtenBy, hlock]
    refine ⟨?_, ?_⟩
    · rw [hreports]
      exact (Table.seenBy_of_not_writtenBy hwritten).trans hrow
    · rw [hreports]
      simp [Table.commit, Table.release, hwritten, hlock]
  executed execution hmem := by
    rcases hexecuted execution hmem with hbefore | hnew
    · obtain ⟨hstanding, heyes, hin, hnot, hrow, habsent, hreport⟩ := h.executed execution hbefore
      refine ⟨hstanding, heyes, ?_, fun hwith ↦ ?_, ?_, fun request hrequest ↦ ?_, ?_⟩
      · rw [hissued]
        exact hin
      · rcases hwithdrawn _ hwith with hsame | ⟨owner, howner, -, hne⟩
        · exact hnot hsame
        · exact hne execution hbefore (h.owner _ _ _ hin howner)
      · rw [hreports]
        exact h.seenBy_eq_none w hrow
      · exact habsent request (present_of_commit hrequests hrequest)
      · rw [hknown]
        exact hreport
    · exact hnew
  gone report hmem hrow := by
    rw [hknown] at hmem
    rw [hreports] at hrow
    rcases hgone report hrow with hbefore | hnew
    · obtain ⟨execution, hexecution, heq⟩ := h.gone report hmem hbefore
      exact ⟨execution, hold execution hexecution, heq⟩
    · exact hnew

/-- A commit of a transaction that knows what it removes. -/
theorem registrySound_committed (h : RegistrySound family s) (hready : Ready family w s)
    (entries : List (AuditEntry ι α)) : RegistrySound family (s.committed w entries) := by
  cases hready with
  | nothing hremoving hreports =>
    have hwithdrawn : (s.committed w entries).withdrawn = s.withdrawn := by
      simp [Registry.committed, hremoving]
    have hexecutions : (s.committed w entries).executions = s.executions := by
      simp [Registry.committed, hremoving]
    refine h.commit rfl rfl rfl rfl (fun id hmem ↦ ?_) (fun execution hmem ↦ ?_)
      (fun execution hmem ↦ ?_) fun report hseen ↦ ?_
    · rw [hwithdrawn] at hmem
      exact .inl hmem
    · rw [hexecutions] at hmem
      exact .inl hmem
    · rw [hexecutions]
      exact hmem
    · rw [Table.seenBy_of_not_writtenBy (hreports report)] at hseen
      exact .inl hseen
  | withdrawal report request hremoving hreports hrow hwritten =>
    have hwithdrawn : (s.committed w entries).withdrawn = request.id :: s.withdrawn := by
      simp [Registry.committed, hremoving]
    have hexecutions : (s.committed w entries).executions = s.executions := by
      simp [Registry.committed, hremoving]
    refine h.commit rfl rfl rfl rfl (fun id hmem ↦ ?_) (fun execution hmem ↦ ?_)
      (fun execution hmem ↦ ?_) fun other hseen ↦ ?_
    · rw [hwithdrawn] at hmem
      rcases List.mem_cons.mp hmem with rfl | hold
      · refine .inr ⟨report, (h.present report request (.inl hrow)).issued,
          not_present_of_commit rfl hwritten, fun execution hexecution heq ↦ ?_⟩
        apply (h.executed execution hexecution).absent request
        rw [heq]
        exact .inl hrow
      · exact .inl hold
    · rw [hexecutions] at hmem
      exact .inl hmem
    · rw [hexecutions]
      exact hmem
    · rw [Table.seenBy_of_not_writtenBy (hreports other)] at hseen
      exact .inl hseen
  | deletion confirmation hremoving hreport halone hrow hwritten heyes =>
    have hwithdrawn : (s.committed w entries).withdrawn = s.withdrawn := by
      simp [Registry.committed, hremoving]
    have hexecutions : (s.committed w entries).executions =
        ⟨confirmation, s.requests.row confirmation.report⟩ :: s.executions := by
      simp [Registry.committed, hremoving]
    obtain ⟨hin, hnot, -, hknown⟩ := h.present _ _ (.inl hrow)
    refine h.commit rfl rfl rfl rfl (fun id hmem ↦ ?_) (fun execution hmem ↦ ?_)
      (fun execution hmem ↦ ?_) fun other hseen ↦ ?_
    · rw [hwithdrawn] at hmem
      exact .inl hmem
    · rw [hexecutions] at hmem
      rcases List.mem_cons.mp hmem with rfl | hold
      · refine .inr ⟨hrow, heyes, hin, ?_, Table.seenBy_of_writtenBy hreport,
          not_present_of_commit rfl hwritten, hknown⟩
        rw [hwithdrawn]
        exact hnot
      · exact .inl hold
    · rw [hexecutions]
      exact List.mem_cons_of_mem _ hmem
    · by_cases heq : other = confirmation.report
      · subst heq
        exact .inr ⟨_, by rw [hexecutions]; exact List.mem_cons_self, rfl⟩
      · rw [Table.seenBy_of_not_writtenBy (halone other heq)] at hseen
        exact .inl hseen

theorem registrySound_environment (h : RegistrySound family s) {happening : Happening ι}
    (hchange : environment happening s = some t) : RegistrySound family t := by
  cases happening with
  | submit report caseNumber =>
    obtain ⟨hnot, rfl⟩ := submit_cases hchange
    have hne : ∀ other ∈ s.known, other ≠ report := by
      rintro other hmem rfl
      exact hnot hmem
    refine ⟨h.owner, fun other request hrequest ↦ ?_, h.withdrawn, h.deletes, fun other hother ↦ ?_,
      fun execution hmem ↦ ?_, fun other hmem hrow ↦ ?_⟩
    · obtain ⟨hin, hwith, hrequester, hknown⟩ := h.present other request hrequest
      exact ⟨hin, hwith, hrequester, List.mem_cons_of_mem _ hknown⟩
    · have hother' : other ∉ s.known := fun hmem ↦ hother (List.mem_cons_of_mem _ hmem)
      have hdiffers : other ≠ report := fun heq ↦ hother (heq ▸ List.mem_cons_self)
      exact ⟨(Function.update_of_ne hdiffers ..).trans (h.unknown other hother').row,
        (h.unknown other hother').lock⟩
    · obtain ⟨hstanding, heyes, hin, hwith, hrow, habsent, hknown⟩ := h.executed execution hmem
      exact ⟨hstanding, heyes, hin, hwith,
        (Function.update_of_ne (hne _ hknown) ..).trans hrow, habsent,
        List.mem_cons_of_mem _ hknown⟩
    · rcases List.mem_cons.mp hmem with rfl | hold
      · change Function.update s.reports.row other _ other = none at hrow
        rw [Function.update_self] at hrow
        cases hrow
      · change Function.update s.reports.row report _ other = none at hrow
        rw [Function.update_of_ne (hne other hold)] at hrow
        exact h.gone other hold hrow
  | abort w =>
    cases hchange
    refine h.rewrite (fun report request hrequest ↦ ⟨request, ?_, rfl, rfl⟩) rfl
      (fun report lock hlock ↦ h.deletes report lock (Table.lock_release hlock).1)
      (fun report hnot ↦ ?_) rfl rfl rfl rfl
    · rcases hrequest with hrow | ⟨v, hlock⟩
      · exact .inl hrow
      · exact .inr ⟨v, (Table.lock_release hlock).1⟩
    · have hlock := (h.unknown report hnot).lock
      show (s.reports.release w).lock report = none
      simp [Table.release, hlock]

/-! ### What the others rely on -/

theorem registryKept_lockRow {v : ℕ} (hne : v ≠ w) {report : ι}
    {written : Option (DeletionRequest α)} (hblocked : ¬s.requests.Blocked w report)
    (htable : t.requests = s.requests.lockRow w report written) (hreports : t.reports = s.reports)
    (hended : t.ended = s.ended) (hremoving : t.removing v = s.removing v) : RegistryKept v s t where
  ended h := by
    rw [hended]
    exact h
  removing := hremoving
  tables := by
    rw [htable, hreports]
    exact .inl ⟨Table.Kept.refl v s.reports, Table.kept_lockRow hne hblocked _⟩

/-- A statement or a commit of one transaction leaves the others alone. -/
theorem registryKept_perform {v : ℕ} (hne : v ≠ w) {operation : Op ι α} {draw : ℕ}
    {reply : Except Fault (Reply operation)}
    (h : perform w operation draw s = some (reply, t)) : RegistryKept v s t := by
  cases operation with
  | getReport report =>
    cases h
    exact RegistryKept.refl v s
  | insertRequest report requester =>
    rcases insertRequest_cases h with rfl | ⟨-, hblocked, -, rfl⟩
    · exact RegistryKept.refl v t
    · exact registryKept_lockRow hne hblocked rfl rfl rfl rfl
  | deleteRequest report request =>
    rcases deleteRequest_cases h with rfl | ⟨-, -, -, ⟨-, rfl⟩ | ⟨hrewrites, rfl⟩⟩
    · exact RegistryKept.refl v t
    · exact ⟨id, Function.update_of_ne hne ..,
        .inl ⟨Table.Kept.refl v s.reports, Table.Kept.refl v s.requests⟩⟩
    · exact registryKept_lockRow hne hrewrites.1 rfl rfl rfl (Function.update_of_ne hne ..)
  | lockRequest report =>
    rcases lockRequest_cases h with ⟨rfl, -⟩ | ⟨request, hrewrites, -, -, rfl⟩
    · exact RegistryKept.refl v t
    · exact registryKept_lockRow hne hrewrites.1 rfl rfl rfl rfl
  | confirmRequest confirmation =>
    rcases confirmRequest_cases h with rfl | ⟨new, hrewrites, rfl⟩
    · exact RegistryKept.refl v t
    · exact registryKept_lockRow hne hrewrites.1 rfl rfl rfl rfl
  | deleteReport confirmation =>
    rcases deleteReport_cases h with rfl | ⟨hblocked, -, ⟨-, rfl⟩ | ⟨hrewrites, rfl⟩⟩
    · exact RegistryKept.refl v t
    · exact ⟨id, Function.update_of_ne hne ..,
        .inl ⟨Table.kept_lockRow hne hblocked _, Table.Kept.refl v s.requests⟩⟩
    · exact ⟨id, Function.update_of_ne hne ..,
        .inl ⟨Table.kept_lockRow hne hblocked _, Table.kept_lockRow hne hrewrites.1 _⟩⟩
  | commit entries =>
    rcases commit_cases h with rfl | ⟨-, rfl⟩
    · exact RegistryKept.refl v t
    · exact ⟨fun hended ↦ (Function.update_of_ne hne ..).trans hended, rfl,
        .inl ⟨Table.kept_commit hne, Table.kept_commit hne⟩⟩

theorem registryKept_environment (h : RegistrySound family s) {v : ℕ} {happening : Happening ι}
    (hchange : environment happening s = some t) : RegistryKept v s t := by
  cases happening with
  | submit report caseNumber =>
    obtain ⟨hnot, rfl⟩ := submit_cases hchange
    exact ⟨id, rfl,
      .inl ⟨Table.kept_insert (h.unknown report hnot).lock _, Table.Kept.refl v s.requests⟩⟩
  | abort w =>
    cases hchange
    by_cases hv : v = w
    · subst hv
      exact ⟨fun _ ↦ Function.update_self .., rfl, .inr ⟨Function.update_self ..,
        fun _ ↦ Table.writtenBy_release_self, fun _ ↦ Table.writtenBy_release_self⟩⟩
    · exact ⟨fun hended ↦ (Function.update_of_ne hv ..).trans hended, rfl,
        .inl ⟨Table.kept_abort hv, Table.kept_abort hv⟩⟩

end OpenWhistle.Deletion
