import OpenWhistle.Deletion.Registry

/-!
# What is known of deletion requests

An id belongs to one report. A request that is committed, or written and not committed yet, has not
been withdrawn; a report that was deleted is gone for good, and so is its request. Every executed
deletion met the very request it was checked against, and its two admins are two pairs of eyes.

A transaction may rely on its locks. What it is about to remove when it commits is known from its
own statements, as long as it has not been aborted.
-/

set_option autoImplicit false
set_option relaxedAutoImplicit false
set_option linter.unusedSectionVars false

namespace OpenWhistle.Deletion

open Interleaving ReadCommitted

variable {ι α : Type} [DecidableEq ι] [DecidableEq α] {family : Family α}

/-! ### What an operation can do -/

section Cases

variable {s t : Registry ι α} {w : ℕ} {report : ι}

/-- A request is written under the lock of its row; whatever else changes is not in the tables. -/
def Rewrites (w : ℕ) (report : ι) (s : Registry ι α) (written : Option (DeletionRequest α)) : Prop :=
  ¬s.requests.Blocked w report ∧ ∃ request, s.requests.seenBy w report = some request ∧
    ∀ new, written = some new →
      new.id = request.id ∧ new.requestedById = request.requestedById

theorem insertRequest_cases {requester : α} {id : ℕ} {reply : Except Fault Unit}
    (h : s.insertRequest w report requester id = some (reply, t)) :
    t = s ∨ id ∉ s.issued.map Prod.fst ∧ ¬s.requests.Blocked w report ∧
      s.reports.row report ≠ none ∧ t = { s with
        requests := s.requests.lockRow w report (some ⟨id, some requester, none⟩)
        issued := (id, report) :: s.issued } := by
  unfold Registry.insertRequest at h
  split_ifs at h with hwaits hfails
  · cases h
    exact .inl rfl
  · cases h
    obtain ⟨hfresh, hsettled⟩ := not_or.mp hwaits
    obtain ⟨-, hrest⟩ := not_or.mp hfails
    obtain ⟨hnone, hrow⟩ := not_or.mp hrest
    refine .inr ⟨hfresh, ?_, hrow, rfl⟩
    rintro ⟨lock, hlock, hholder⟩
    have hboth : ¬(s.requests.row report = none ∨ lock.written = none) :=
      fun hor ↦ hsettled ⟨lock, hlock, hholder, hor⟩
    have hwritten : s.requests.writtenBy w report = none := by
      simp [Table.writtenBy, show s.requests.lock report = some lock from hlock, hholder]
    rw [Table.seenBy_of_not_writtenBy hwritten] at hnone
    exact (not_or.mp hboth).1 (Option.not_isSome_iff_eq_none.mp hnone)

theorem deleteRequest_cases {id : ℕ} {reply : Except Fault Unit}
    (h : s.deleteRequest w report id = some (reply, t)) :
    t = s ∨ ∃ request, s.requests.row report = some request ∧ request.id = id ∧
      ((s.requests.seenBy w report = none ∧
        t = { s with removing := Function.update s.removing w (some (.withdrawal id)) }) ∨
      Rewrites w report s none ∧ t = { s with
        requests := s.requests.lockRow w report none
        removing := Function.update s.removing w (some (.withdrawal id)) }) := by
  unfold Registry.deleteRequest at h
  split_ifs at h with hended hother
  · cases h
    exact .inl rfl
  · cases h
    exact .inl rfl
  · obtain ⟨request, hrow, hid⟩ := Option.map_eq_some_iff.mp (not_not.mp hother)
    obtain ⟨⟨found, table⟩, hwrite, heq⟩ := Option.map_eq_some_iff.mp h
    cases heq
    refine .inr ⟨request, hrow, hid, ?_⟩
    rcases Table.write_cases hwrite with ⟨rfl, htable⟩ | ⟨row, hblocked, hseen, -, htable⟩
    · rw [htable]
      exact .inl ⟨Table.seenBy_of_write_none hwrite, rfl⟩
    · rw [htable]
      exact .inr ⟨⟨hblocked, row, hseen, fun _ hnew ↦ nomatch hnew⟩, rfl⟩

theorem lockRequest_cases {reply : Except Fault (Option (DeletionRequest α))}
    (h : s.lockRequest w report = some (reply, t)) :
    (t = s ∧ ∀ request, reply ≠ .ok (some request)) ∨ ∃ request,
      Rewrites w report s (some request) ∧ s.requests.seenBy w report = some request ∧
      reply = .ok (some request) ∧
      t = { s with requests := s.requests.lockRow w report (some request) } := by
  unfold Registry.lockRequest at h
  split_ifs at h with hended hrow
  · cases h
    exact .inl ⟨rfl, nofun⟩
  · cases h
    exact .inl ⟨rfl, nofun⟩
  · obtain ⟨⟨found, table⟩, hwrite, heq⟩ := Option.map_eq_some_iff.mp h
    cases heq
    rcases Table.write_cases hwrite with ⟨rfl, htable⟩ | ⟨row, hblocked, hseen, rfl, htable⟩
    · rw [htable]
      exact .inl ⟨rfl, nofun⟩
    · rw [htable]
      refine .inr ⟨row, ⟨hblocked, row, hseen, fun new hnew ↦ ?_⟩, hseen, rfl, rfl⟩
      cases hnew
      exact ⟨rfl, rfl⟩

theorem confirmRequest_cases {confirmation : Confirmation ι α} {reply : Except Fault Unit}
    (h : s.confirmRequest w confirmation = some (reply, t)) :
    t = s ∨ ∃ new, Rewrites w confirmation.report s (some new) ∧
      t = { s with requests := s.requests.lockRow w confirmation.report (some new) } := by
  unfold Registry.confirmRequest at h
  split_ifs at h with hended
  · cases h
    exact .inl rfl
  · obtain ⟨⟨found, table⟩, hwrite, heq⟩ := Option.map_eq_some_iff.mp h
    cases heq
    rcases Table.write_cases hwrite with ⟨rfl, htable⟩ | ⟨row, hblocked, hseen, rfl, htable⟩
    · rw [htable]
      exact .inl rfl
    · rw [htable]
      refine .inr ⟨_, ⟨hblocked, row, hseen, fun new hnew ↦ ?_⟩, rfl⟩
      cases hnew
      exact ⟨rfl, rfl⟩

/-- A DELETE of a report that is there takes its request with it. -/
theorem deleteReport_cases {confirmation : Confirmation ι α} {reply : Except Fault Unit}
    (h : s.deleteReport w confirmation = some (reply, t)) :
    t = s ∨ ¬s.reports.Blocked w confirmation.report ∧
      (∃ caseNumber, s.reports.seenBy w confirmation.report = some caseNumber) ∧
      ((s.requests.seenBy w confirmation.report = none ∧ t = { s with
        reports := s.reports.lockRow w confirmation.report none
        removing := Function.update s.removing w (some (.deletion confirmation)) }) ∨
      Rewrites w confirmation.report s none ∧ t = { s with
        reports := s.reports.lockRow w confirmation.report none
        requests := s.requests.lockRow w confirmation.report none
        removing := Function.update s.removing w (some (.deletion confirmation)) }) := by
  unfold Registry.deleteReport at h
  split_ifs at h with hended
  · cases h
    exact .inl rfl
  · obtain ⟨⟨found, reports⟩, hreports, hrest⟩ := Option.bind_eq_some_iff.mp h
    rcases Table.write_cases hreports with ⟨rfl, -⟩ | ⟨caseNumber, hblocked, hcase, rfl, htable⟩
    · cases hrest
      exact .inl rfl
    · obtain ⟨⟨found, table⟩, hwrite, heq⟩ := Option.map_eq_some_iff.mp hrest
      cases heq
      refine .inr ⟨hblocked, ⟨caseNumber, hcase⟩, ?_⟩
      change reports = _ at htable
      rcases Table.write_cases hwrite with ⟨rfl, hrequests⟩ | ⟨row, hfree, hseen, -, hrequests⟩
      · rw [htable, hrequests]
        exact .inl ⟨Table.seenBy_of_write_none hwrite, rfl⟩
      · rw [htable, hrequests]
        exact .inr ⟨⟨hfree, row, hseen, fun _ hnew ↦ nomatch hnew⟩, rfl⟩

theorem commit_cases {entries : List (AuditEntry ι α)} {reply : Except Fault Unit}
    (h : s.commit w entries = some (reply, t)) :
    t = s ∨ s.ended w = false ∧ t = s.committed w entries := by
  unfold Registry.commit at h
  split_ifs at h with hfails
  · cases h
    exact .inl rfl
  · cases h
    exact .inr ⟨(Bool.not_eq_true _).mp (not_or.mp hfails).1, rfl⟩

theorem submit_cases {caseNumber : String}
    (h : environment (.submit report caseNumber) s = some t) :
    report ∉ s.known ∧ t = { s with
      reports := s.reports.insert report caseNumber
      known := report :: s.known } := by
  simp only [environment] at h
  split_ifs at h with hknown
  cases h
  exact ⟨hknown, rfl⟩

end Cases

/-! ### The invariant -/

/-- A request of a report is committed, or written by a transaction that has not ended. -/
def Present (s : Registry ι α) (report : ι) (request : DeletionRequest α) : Prop :=
  s.requests.row report = some request ∨
    ∃ w, s.requests.lock report = some ⟨w, some request⟩

/-- The requester and the confirmer are two accounts, and neither has made the other. -/
def TwoPairs (family : Family α) (confirmation : Confirmation ι α) : Prop :=
  ∃ requester, confirmation.request.requestedById = some requester ∧
    requester ≠ confirmation.confirmer ∧ family.Apart requester confirmation.confirmer

/-- What holds of an executed deletion from its commit on. -/
structure Executed (family : Family α) (s : Registry ι α) (execution : Execution ι α) : Prop where
  standing : execution.standing = some execution.confirmation.request
  eyes : TwoPairs family execution.confirmation
  issued : (execution.confirmation.request.id, execution.confirmation.report) ∈ s.issued
  notWithdrawn : execution.confirmation.request.id ∉ s.withdrawn
  row : s.reports.row execution.confirmation.report = none
  absent : ∀ request, ¬Present s execution.confirmation.report request
  known : execution.confirmation.report ∈ s.known

/-- What holds of a request that is present. -/
structure Standing (s : Registry ι α) (report : ι) (request : DeletionRequest α) : Prop where
  issued : (request.id, report) ∈ s.issued
  notWithdrawn : request.id ∉ s.withdrawn
  requested : ∃ requester, request.requestedById = some requester
  known : report ∈ s.known

/-- Nothing is known of a report before it is submitted. -/
structure Unknown (s : Registry ι α) (report : ι) : Prop where
  row : s.reports.row report = none
  lock : s.reports.lock report = none

structure RegistrySound (family : Family α) (s : Registry ι α) : Prop where
  owner : ∀ id first second, (id, first) ∈ s.issued → (id, second) ∈ s.issued → first = second
  present : ∀ report request, Present s report request → Standing s report request
  withdrawn : ∀ id ∈ s.withdrawn, ∃ report, (id, report) ∈ s.issued
  deletes : ∀ report, ∀ lock ∈ s.reports.lock report, lock.written = none
  unknown : ∀ report, report ∉ s.known → Unknown s report
  executed : ∀ execution ∈ s.executions, Executed family s execution
  gone : ∀ report ∈ s.known, s.reports.row report = none →
    ∃ execution ∈ s.executions, execution.confirmation.report = report

/-- A transaction holds no lock. -/
def Unwritten (w : ℕ) (s : Registry ι α) : Prop :=
  (∀ report, s.reports.writtenBy w report = none) ∧ ∀ report, s.requests.writtenBy w report = none

/-- What the others leave alone of a transaction, unless it is aborted. -/
structure RegistryKept (w : ℕ) (s t : Registry ι α) : Prop where
  ended : s.ended w = true → t.ended w = true
  removing : t.removing w = s.removing w
  tables : (Table.Kept w s.reports t.reports ∧ Table.Kept w s.requests t.requests) ∨
    t.ended w = true ∧ Unwritten w t

theorem RegistryKept.refl (w : ℕ) (s : Registry ι α) : RegistryKept w s s :=
  ⟨id, rfl, .inl ⟨Table.Kept.refl w s.reports, Table.Kept.refl w s.requests⟩⟩

theorem Unwritten.kept {w : ℕ} {s t : Registry ι α} (h : Unwritten w s)
    (hkept : RegistryKept w s t) : Unwritten w t := by
  rcases hkept.tables with ⟨hreports, hrequests⟩ | ⟨-, hfree⟩
  · exact ⟨fun report ↦ (hreports.written report).trans (h.1 report),
      fun report ↦ (hrequests.written report).trans (h.2 report)⟩
  · exact hfree

theorem RegistryKept.trans {w : ℕ} {s t u : Registry ι α} (hst : RegistryKept w s t)
    (htu : RegistryKept w t u) : RegistryKept w s u where
  ended h := htu.ended (hst.ended h)
  removing := htu.removing.trans hst.removing
  tables := by
    rcases hst.tables with ⟨hreports, hrequests⟩ | ⟨hended, hfree⟩
    · rcases htu.tables with ⟨hreports', hrequests'⟩ | hgone
      · exact .inl ⟨hreports.trans hreports', hrequests.trans hrequests'⟩
      · exact .inr hgone
    · exact .inr ⟨htu.ended hended, hfree.kept htu⟩

/-! ### What a transaction knows -/

/-- A request that has not written anything. -/
structure Fresh (w : ℕ) (s : Registry ι α) : Prop where
  free : Unwritten w s
  removing : s.removing w = none

/-- A confirmation that holds the lock of the request it has read. -/
structure LockedFor (w : ℕ) (report : ι) (request : DeletionRequest α) (s : Registry ι α) : Prop where
  row : s.requests.row report = some request
  written : ∃ new, s.requests.writtenBy w report = some (some new)
  reports : ∀ other, s.reports.writtenBy w other = none
  removing : s.removing w = none

/-- What a transaction is about to remove by its commit: nothing, a request it has deleted by its
id, or the report of a request that it holds and has checked. -/
inductive Ready (family : Family α) (w : ℕ) (s : Registry ι α) : Prop
  | nothing (hremoving : s.removing w = none) (hreports : ∀ report, s.reports.writtenBy w report = none)
  | withdrawal (report : ι) (request : DeletionRequest α)
      (hremoving : s.removing w = some (.withdrawal request.id))
      (hreports : ∀ report, s.reports.writtenBy w report = none)
      (hrow : s.requests.row report = some request)
      (hwritten : s.requests.writtenBy w report = some none)
  | deletion (confirmation : Confirmation ι α)
      (hremoving : s.removing w = some (.deletion confirmation))
      (hreport : s.reports.writtenBy w confirmation.report = some none)
      (halone : ∀ other, other ≠ confirmation.report → s.reports.writtenBy w other = none)
      (hrow : s.requests.row confirmation.report = some confirmation.request)
      (hwritten : s.requests.writtenBy w confirmation.report = some none)
      (heyes : TwoPairs family confirmation)

/-- A fact about a transaction, as long as it has not been aborted. -/
def Unaborted (w : ℕ) (fact : Registry ι α → Prop) (s : Registry ι α) : Prop :=
  s.ended w = true ∨ fact s

section Kept

variable {w : ℕ} {s t : Registry ι α}

theorem Fresh.kept (h : Fresh w s) (hkept : RegistryKept w s t) : Fresh w t :=
  ⟨h.free.kept hkept, hkept.removing.trans h.removing⟩

/-- What survives the moves of the others survives them until the transaction is aborted. -/
theorem Unaborted.kept {fact : Registry ι α → Prop} (h : Unaborted w fact s)
    (hkept : RegistryKept w s t)
    (hfact : Table.Kept w s.reports t.reports → Table.Kept w s.requests t.requests →
      fact s → fact t) : Unaborted w fact t := by
  rcases h with hended | h
  · exact .inl (hkept.ended hended)
  · rcases hkept.tables with ⟨hreports, hrequests⟩ | ⟨hended, -⟩
    · exact .inr (hfact hreports hrequests h)
    · exact .inl hended

theorem LockedFor.kept {report : ι} {request : DeletionRequest α}
    (h : Unaborted w (LockedFor w report request) s) (hkept : RegistryKept w s t) :
    Unaborted w (LockedFor w report request) t := by
  refine h.kept hkept fun hreports hrequests hlocked ↦ ?_
  obtain ⟨new, hnew⟩ := hlocked.written
  refine ⟨?_, ⟨new, (hrequests.written report).trans hnew⟩,
    fun other ↦ (hreports.written other).trans (hlocked.reports other),
    hkept.removing.trans hlocked.removing⟩
  rw [hrequests.row report (by rw [hnew]; rfl), hlocked.row]

theorem Ready.kept (h : Unaborted w (Ready family w) s) (hkept : RegistryKept w s t) :
    Unaborted w (Ready family w) t := by
  refine h.kept hkept fun hreports hrequests hready ↦ ?_
  cases hready with
  | nothing hremoving hunwritten =>
    exact .nothing (hkept.removing.trans hremoving)
      fun report ↦ (hreports.written report).trans (hunwritten report)
  | withdrawal report request hremoving hunwritten hrow hwritten =>
    refine .withdrawal report request (hkept.removing.trans hremoving)
      (fun other ↦ (hreports.written other).trans (hunwritten other)) ?_
      ((hrequests.written report).trans hwritten)
    rw [hrequests.row report (by rw [hwritten]; rfl), hrow]
  | deletion confirmation hremoving hreport halone hrow hwritten heyes =>
    refine .deletion confirmation (hkept.removing.trans hremoving)
      ((hreports.written _).trans hreport)
      (fun other hne ↦ (hreports.written other).trans (halone other hne)) ?_
      ((hrequests.written _).trans hwritten) heyes
    rw [hrequests.row _ (by rw [hwritten]; rfl), hrow]

end Kept

end OpenWhistle.Deletion
