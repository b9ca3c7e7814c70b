import Mathlib.Data.List.Basic
import OpenWhistle.Access.Authorization
import OpenWhistle.Foundation.Json
import OpenWhistle.Foundation.Listing
import OpenWhistle.Foundation.Machine

/-!
# The audit trail and who sees what of it

Every action is recorded with the organisation it concerns: that of the report, or of what was acted
on, or of the actor. Under multi-tenancy an admin sees the entries of one organisation; one without
an organisation sees the own entries that concern none; a superadmin sees everything.

An entry is committed with what it records. Reports come and go, and take their entries along; a
report stays in its organisation. So at any time the trail knows of each entry whose report it is
about, and the page of an admin, all of its pages put together, lists exactly the entries that are
the admin's to see, the newest first.
-/

set_option autoImplicit false
set_option relaxedAutoImplicit false

namespace OpenWhistle.Audit

open Access Accounts

/-! ### The tables -/

structure AuditLog where
  id : ℕ
  createdAt : ℕ
  adminId : Option UserId
  adminUsername : String
  action : String
  reportId : Option ℕ
  detail : Option String
  orgId : Option ℕ
  deriving DecidableEq

/-- What the trail knows of a report. -/
structure Report where
  id : ℕ
  caseNumber : String
  orgId : Option ℕ
  deriving DecidableEq

structure Trail where
  reports : List Report
  entries : List AuditLog
  deriving DecidableEq

namespace Trail

def empty : Trail := ⟨[], []⟩

variable (db : Trail)

/-- `select(Report.org_id).where(Report.id == ...)`; no row is NULL as well. -/
def orgOf (reportId : ℕ) : Option ℕ :=
  (db.reports.find? fun report ↦ report.id = reportId).bind Report.orgId

/-- `get_report_by_case_number`. -/
def byCaseNumber (caseNumber : String) : Option Report :=
  db.reports.find? fun report ↦ report.caseNumber = caseNumber

/-- A row with a fresh id whose report is there. -/
def insert (entry : AuditLog) : Option Trail :=
  if entry.id ∈ db.entries.map AuditLog.id ∨
      ∃ reportId ∈ entry.reportId, reportId ∉ db.reports.map Report.id then none
  else some { db with entries := entry :: db.entries }

end Trail

/-! ### Recording -/

/-- The id and the time of a row. -/
structure Draw where
  id : ℕ
  now : ℕ
  deriving DecidableEq

/-- `json.dumps(detail) if detail else None`. -/
def detailText (detail : List (String × Json)) : Option String :=
  if detail.isEmpty then none else some (Json.dumps (.dict detail))

/-- `log`; `targetOrg` is `none` where it is left out. -/
def log (draw : Draw) (actor : AdminUser) (action : String) (reportId : Option ℕ)
    (detail : List (String × Json)) (targetOrg : Option (Option ℕ)) (db : Trail) : Option Trail :=
  db.insert
    { id := draw.id
      createdAt := draw.now
      adminId := some actor.id
      adminUsername := actor.username
      action := action
      reportId := reportId
      detail := detailText detail
      orgId :=
        match reportId with
        | some reportId => db.orgOf reportId
        | none => targetOrg.getD actor.orgId }

/-- `log_system`. -/
def logSystem (draw : Draw) (action : String) (detail : List (String × Json)) (orgId : Option ℕ)
    (db : Trail) : Option Trail :=
  db.insert
    { id := draw.id
      createdAt := draw.now
      adminId := none
      adminUsername := "system"
      action := action
      reportId := none
      detail := detailText detail
      orgId := orgId }

/-- What is committed, one transaction after the other. -/
inductive Event
  /-- A report with a drawn id, which is never the nil UUID. -/
  | fileReport (report : Report)
  /-- A report goes, and its entries with it. -/
  | deleteReport (reportId : ℕ)
  | log (draw : Draw) (actor : AdminUser) (action : String) (reportId : Option ℕ)
    (detail : List (String × Json)) (targetOrg : Option (Option ℕ))
  | logSystem (draw : Draw) (action : String) (detail : List (String × Json)) (orgId : Option ℕ)

def step (db : Trail) : Event → Option Trail
  | .fileReport report =>
    if report.id = 0 ∨ report.id ∈ db.reports.map Report.id then none
    else some { db with reports := report :: db.reports }
  | .deleteReport reportId =>
    some
      { reports := db.reports.filter fun report ↦ report.id ≠ reportId
        entries := db.entries.filter fun entry ↦ entry.reportId ≠ some reportId }
  | .log draw actor action reportId detail targetOrg =>
    log draw actor action reportId detail targetOrg db
  | .logSystem draw action detail orgId => logSystem draw action detail orgId db

/-! ### Listing -/

def reportViewed : String := "report.viewed"

/-- The query string of the page. -/
structure Query where
  action : String
  reportId : String
  views : String

/-- An instance: its settings, and what it takes of texts. -/
structure Site where
  multiTenancyEnabled : Bool
  strip : (text : String) → String
  upper : (text : String) → String
  /-- `uuid.UUID(...)`; `none` where it raises. -/
  uuid : (text : String) → Option ℕ

structure Filters where
  reportId : Option ℕ
  action : Option String
  excludeAction : Option String

/-- `_views_excluded`. -/
def viewsExcluded (showViews : Bool) : Option String :=
  if showViews then none else some reportViewed

section Listing

variable (site : Site) (db : Trail) (user : AdminUser) (query : Query)

/-- `_audit_filters`. -/
def auditFilters : Filters where
  reportId :=
    if site.strip query.reportId = "" then none
    else
      match site.uuid (site.strip query.reportId) with
      | some reportId => some reportId
      | none =>
        match db.byCaseNumber (site.upper (site.strip query.reportId)) with
        | some report => some report.id
        | none => some 0
  action := if query.action = "" then none else some query.action
  excludeAction := viewsExcluded (query.views = "1" || query.action = reportViewed)

/-- The conditions of the query; nothing is equal to NULL. -/
def selects (filters : Filters) (scope : Scope) (viewerId : UserId) (entry : AuditLog) : Bool :=
  (match filters.reportId with
    | some reportId => decide (entry.reportId = some reportId)
    | none => true) &&
  (match filters.action with
    | some action => decide (entry.action = action)
    | none => true) &&
  (match filters.excludeAction with
    | some action => decide (entry.action ≠ action)
    | none => true) &&
  (if scope.scopeOrg then
    match scope.orgId with
    | some orgId => decide (entry.orgId = some orgId)
    | none => decide (entry.orgId = none ∧ entry.adminId = some viewerId)
  else true)

/-- By time, and by id where the times are the same, the newest first. -/
def newestFirst (a b : AuditLog) : Bool :=
  decide (b.createdAt < a.createdAt ∨ a.createdAt = b.createdAt ∧ b.id ≤ a.id)

/-- `get_audit_log`: a page, or every row, and the number of rows. -/
def getAuditLog (filters : Filters) (page : ℕ) (perPage : Option ℕ) (scope : Scope)
    (viewerId : UserId) : List AuditLog × ℕ :=
  let rows := (db.entries.filter (selects filters scope viewerId)).mergeSort newestFirst
  (match perPage with
    | some n => (rows.drop ((page - 1) * n)).take n
    | none => rows,
    rows.length)

def perPage : ℕ := 50

/-- The entries of `audit_log_page`, and its number of pages; `page` is the number of the query
string, where it is one. -/
def auditLogPage (page : Option ℤ) : List AuditLog × ℕ :=
  let (entries, total) := getAuditLog db (auditFilters site db query)
    (max 1 (page.getD 1)).toNat (some perPage) (orgScope site.multiTenancyEnabled user) user.id
  (entries, max 1 ((total + 49) / 50))

/-- The entries of `audit_log_csv`. -/
def exported : List AuditLog :=
  (getAuditLog db (auditFilters site db query) 1 none (orgScope site.multiTenancyEnabled user)
    user.id).1

end Listing

/-! ### What holds of the trail at any time -/

/-- Rows have ids of their own, and an entry about a report has its organisation. -/
structure Sound (db : Trail) : Prop where
  ids : (db.entries.map AuditLog.id).Nodup
  reportIds : (db.reports.map Report.id).Nodup
  drawn : 0 ∉ db.reports.map Report.id
  orgs : ∀ entry ∈ db.entries, ∀ reportId ∈ entry.reportId,
    ∃ report ∈ db.reports, report.id = reportId ∧ report.orgId = entry.orgId

variable {db next : Trail} {entry : AuditLog} {event : Event}

theorem sound_empty : Sound Trail.empty where
  ids := List.nodup_nil
  reportIds := List.nodup_nil
  drawn := List.not_mem_nil
  orgs _ hentry := absurd hentry List.not_mem_nil

theorem sound_insert (h : Sound db)
    (horg : ∀ reportId ∈ entry.reportId, entry.orgId = db.orgOf reportId)
    (hinsert : db.insert entry = some next) : Sound next := by
  rw [Trail.insert] at hinsert
  split_ifs at hinsert with hrefused
  cases hinsert
  obtain ⟨hfresh, hreport⟩ := not_or.mp hrefused
  refine ⟨List.nodup_cons.mpr ⟨hfresh, h.ids⟩, h.reportIds, h.drawn,
    fun other hother reportId hid ↦ ?_⟩
  rcases List.mem_cons.mp hother with rfl | hother
  · have hthere : reportId ∈ db.reports.map Report.id := by
      by_contra hnot
      exact hreport ⟨reportId, hid, hnot⟩
    obtain ⟨report, hmem, rfl⟩ := List.mem_map.mp hthere
    refine ⟨report, hmem, rfl, ?_⟩
    rw [horg _ hid, Trail.orgOf]
    cases hfound : db.reports.find? fun other ↦ other.id = report.id with
    | none => exact absurd (decide_eq_true rfl) (List.find?_eq_none.mp hfound report hmem)
    | some found =>
      have hsame : found = report := List.inj_on_of_nodup_map h.reportIds
        (List.mem_of_find?_eq_some hfound) hmem (by simpa using List.find?_some hfound)
      rw [hsame]
      rfl
  · exact h.orgs other hother reportId hid

theorem sound_step (h : Sound db) (hstep : step db event = some next) : Sound next := by
  cases event with
  | fileReport report =>
    rw [step] at hstep
    split_ifs at hstep with hrefused
    cases hstep
    obtain ⟨hnil, hfresh⟩ := not_or.mp hrefused
    refine ⟨h.ids, List.nodup_cons.mpr ⟨hfresh, h.reportIds⟩, ?_,
      fun entry hentry reportId hid ↦ ?_⟩
    · rw [List.map_cons, List.mem_cons, not_or]
      exact ⟨fun heq ↦ hnil heq.symm, h.drawn⟩
    · obtain ⟨other, hmem, hother⟩ := h.orgs entry hentry reportId hid
      exact ⟨other, List.mem_cons_of_mem _ hmem, hother⟩
  | deleteReport gone =>
    cases hstep
    have hsublist : (db.reports.filter fun report ↦ report.id ≠ gone).Sublist db.reports :=
      List.filter_sublist
    refine ⟨h.ids.sublist (List.filter_sublist.map _), h.reportIds.sublist (hsublist.map _),
      fun hzero ↦ h.drawn ((hsublist.map _).subset hzero), fun entry hentry reportId hid ↦ ?_⟩
    obtain ⟨hentry, hstays⟩ := List.mem_filter.mp hentry
    obtain ⟨report, hmem, rfl, horg⟩ := h.orgs entry hentry reportId hid
    refine ⟨report, List.mem_filter.mpr ⟨hmem, ?_⟩, rfl, horg⟩
    refine decide_eq_true fun heq ↦ of_decide_eq_true hstays ?_
    rw [Option.mem_def.mp hid, heq]
  | log draw actor action reportId detail targetOrg =>
    refine sound_insert h (fun id hid ↦ ?_) hstep
    cases hid
    rfl
  | logSystem draw action detail orgId =>
    exact sound_insert h (fun id hid ↦ by cases hid) hstep

/-- At any time, an entry about a report has the organisation of the report. -/
theorem sound_of_run {events : List Event} (hrun : Machine.run step Trail.empty events = some db) :
    Sound db :=
  Machine.run_invariant_of_step (fun _ _ _ hsound hstep ↦ sound_step hsound hstep) sound_empty hrun

/-! ### The order of a listing -/

theorem orders_entries (h : Sound db) : Listing.Orders newestFirst db.entries where
  total a b := by
    simp only [newestFirst, Bool.or_eq_true, decide_eq_true_eq]
    omega
  trans a b c hab hbc := by
    simp only [newestFirst, decide_eq_true_eq] at *
    omega
  antisymm a ha b hb hab hba := by
    simp only [newestFirst, decide_eq_true_eq] at *
    exact List.inj_on_of_nodup_map h.ids ha hb (by omega)

/-- Strictly newer, or of the same time with a greater id. -/
def Newer (a b : AuditLog) : Prop :=
  b.createdAt < a.createdAt ∨ a.createdAt = b.createdAt ∧ b.id < a.id

theorem pairwise_newer (h : Sound db) (wanted : AuditLog → Bool) :
    ((db.entries.filter wanted).mergeSort newestFirst).Pairwise Newer := by
  have horders := orders_entries h
  have hsorted := List.pairwise_mergeSort horders.trans horders.total (db.entries.filter wanted)
  have hids : (((db.entries.filter wanted).mergeSort newestFirst).map AuditLog.id).Nodup := by
    rw [((List.mergeSort_perm _ newestFirst).map AuditLog.id).nodup_iff]
    exact h.ids.sublist (List.filter_sublist.map _)
  refine (hsorted.and (List.pairwise_map.mp hids)).imp fun {a b} hab ↦ ?_
  obtain ⟨hle, hne⟩ := hab
  simp only [newestFirst, decide_eq_true_eq] at hle
  unfold Newer
  omega

/-! ### Who sees what -/

section Seen

variable {site : Site} {user : AdminUser} {query : Query}

/-- What an admin may see. -/
def MaySee (site : Site) (user : AdminUser) (entry : AuditLog) : Prop :=
  site.multiTenancyEnabled = false ∨ user.role = .superadmin ∨
    entry.orgId = user.orgId ∧ (user.orgId = none → entry.adminId = some user.id)

/-- The report that a text of the filter names. -/
def named (site : Site) (db : Trail) (wanted : String) : Option ℕ :=
  (site.uuid wanted).or ((db.byCaseNumber (site.upper wanted)).map Report.id)

/-- What an admin asks for. -/
structure Wanted (site : Site) (db : Trail) (query : Query) (entry : AuditLog) : Prop where
  report : site.strip query.reportId ≠ "" →
    ∃ reportId, named site db (site.strip query.reportId) = some reportId ∧
      entry.reportId = some reportId
  action : query.action ≠ "" → entry.action = query.action
  views : entry.action = reportViewed → query.views = "1" ∨ query.action = reportViewed

theorem selects_scope (entry : AuditLog) :
    (if (orgScope site.multiTenancyEnabled user).scopeOrg then
      match (orgScope site.multiTenancyEnabled user).orgId with
      | some orgId => decide (entry.orgId = some orgId)
      | none => decide (entry.orgId = none ∧ entry.adminId = some user.id)
    else true) = true ↔ MaySee site user entry := by
  unfold MaySee orgScope
  cases site.multiTenancyEnabled with
  | false => simp
  | true =>
    by_cases hrole : user.role = .superadmin
    · simp [hrole]
    · cases horg : user.orgId with
      | none => simp [hrole]
      | some orgId => simp [hrole]

/-- An entry about no report there is, is about none. -/
theorem reportId_ne_zero (h : Sound db) (hentry : entry ∈ db.entries) :
    entry.reportId ≠ some 0 := by
  intro hzero
  obtain ⟨report, hmem, hid, -⟩ := h.orgs entry hentry 0 hzero
  exact h.drawn (hid ▸ List.mem_map_of_mem hmem)

theorem selects_report (h : Sound db) (hentry : entry ∈ db.entries) :
    (match (auditFilters site db query).reportId with
      | some reportId => decide (entry.reportId = some reportId)
      | none => true) = true ↔
      (site.strip query.reportId ≠ "" →
        ∃ reportId, named site db (site.strip query.reportId) = some reportId ∧
          entry.reportId = some reportId) := by
  dsimp only [auditFilters, named]
  split_ifs with hempty
  · simp [hempty]
  · cases huuid : site.uuid (site.strip query.reportId) with
    | some reportId => simp [hempty]
    | none =>
      cases hcase : db.byCaseNumber (site.upper (site.strip query.reportId)) with
      | some report => simp [hempty]
      | none => simpa [hempty] using reportId_ne_zero h hentry

theorem selects_iff (h : Sound db) (hentry : entry ∈ db.entries) :
    selects (auditFilters site db query) (orgScope site.multiTenancyEnabled user) user.id entry =
        true ↔ MaySee site user entry ∧ Wanted site db query entry := by
  have haction : (match (auditFilters site db query).action with
      | some action => decide (entry.action = action)
      | none => true) = true ↔ (query.action ≠ "" → entry.action = query.action) := by
    dsimp only [auditFilters]
    split_ifs with hempty <;> simp [hempty]
  have hviews : (match (auditFilters site db query).excludeAction with
      | some action => decide (entry.action ≠ action)
      | none => true) = true ↔
        (entry.action = reportViewed → query.views = "1" ∨ query.action = reportViewed) := by
    dsimp only [auditFilters, viewsExcluded]
    by_cases hone : query.views = "1"
    · simp [hone]
    · by_cases hviewed : query.action = reportViewed <;> simp [hone, hviewed]
  rw [selects, Bool.and_eq_true, Bool.and_eq_true, Bool.and_eq_true, selects_report h hentry,
    haction, hviews, selects_scope]
  constructor
  · rintro ⟨⟨⟨hreport, haction⟩, hviews⟩, hsee⟩
    exact ⟨hsee, hreport, haction, hviews⟩
  · rintro ⟨hsee, hreport, haction, hviews⟩
    exact ⟨⟨⟨hreport, haction⟩, hviews⟩, hsee⟩

theorem mem_exported (h : Sound db) : entry ∈ exported site db user query ↔
    entry ∈ db.entries ∧ MaySee site user entry ∧ Wanted site db query entry := by
  show entry ∈ (db.entries.filter _).mergeSort newestFirst ↔ _
  rw [List.mem_mergeSort, List.mem_filter]
  exact and_congr_right fun hentry ↦ selects_iff h hentry

/-- The pages put together are what is exported. -/
theorem flatMap_pages (site : Site) (db : Trail) (user : AdminUser) (query : Query) :
    ((List.range (auditLogPage site db user query none).2).flatMap fun i : ℕ ↦
      (auditLogPage site db user query (some ((i : ℤ) + 1))).1) = exported site db user query := by
  have hpage : ∀ i : ℕ, (auditLogPage site db user query (some ((i : ℤ) + 1))).1 =
      ((exported site db user query).drop (i * perPage)).take perPage := by
    intro i
    have hnumber : (max 1 ((i : ℤ) + 1)).toNat - 1 = i := by omega
    dsimp only [auditLogPage, getAuditLog, exported, Option.getD_some]
    rw [hnumber]
  have hcount : (auditLogPage site db user query none).2 =
      max 1 (((exported site db user query).length + 49) / 50) := rfl
  simp only [hpage]
  rw [Listing.flatMap_pages, hcount]
  refine List.take_of_length_le ?_
  rw [perPage]
  omega

/-- At any time, the pages of the audit log put together are the rows of its export: exactly the
entries that the admin may see and asks for, each once, the newest first. What an admin of an
organisation sees about a report is about one of that organisation, which is still there. The other
admins may also see entries about reports that are gone. -/
theorem listing_of_run {events : List Event}
    (hrun : Machine.run step Trail.empty events = some db) (site : Site) (user : AdminUser)
    (query : Query) :
    ((List.range (auditLogPage site db user query none).2).flatMap fun i : ℕ ↦
        (auditLogPage site db user query (some ((i : ℤ) + 1))).1) = exported site db user query ∧
      (exported site db user query).Pairwise Newer ∧
      (∀ entry, entry ∈ exported site db user query ↔
        entry ∈ db.entries ∧ MaySee site user entry ∧ Wanted site db query entry) ∧
      (site.multiTenancyEnabled = true → user.role ≠ .superadmin →
        ∀ entry ∈ exported site db user query, ∀ reportId ∈ entry.reportId,
          ∃ report ∈ db.reports, report.id = reportId ∧ report.orgId = user.orgId) := by
  have hsound := sound_of_run hrun
  refine ⟨flatMap_pages site db user query, pairwise_newer hsound _,
    fun entry ↦ mem_exported hsound, fun htenants hrole entry hentry reportId hid ↦ ?_⟩
  obtain ⟨hentry, hsee, -⟩ := (mem_exported hsound).mp hentry
  obtain ⟨report, hmem, hreport, horg⟩ := hsound.orgs entry hentry reportId hid
  refine ⟨report, hmem, hreport, horg.trans ?_⟩
  rcases hsee with hsingle | hsuper | hown
  · rw [htenants] at hsingle
    cases hsingle
  · exact absurd hsuper hrole
  · exact hown.1

/-! ### Two organisations -/

/-- An instance with organisations whose texts are as they are. -/
def twoTenants : Site where
  multiTenancyEnabled := true
  strip text := text
  upper text := text
  uuid _ := none

/-- Two reports of two organisations, and an action on each. -/
def twoActions : List Event :=
  [.fileReport ⟨1, "OW-1", some 1⟩, .fileReport ⟨2, "OW-2", some 2⟩,
    .log ⟨11, 5⟩ (adminOf 1) "report.acknowledged" (some 1) [] none,
    .log ⟨12, 6⟩ (adminOf 2) "report.acknowledged" (some 2) [] none]

theorem listing_of_run_of_two : ∃ db, Machine.run step Trail.empty twoActions = some db ∧
    exported twoTenants db (adminOf 1) ⟨"", "", ""⟩ ≠ [] ∧
    ∀ entry ∈ exported twoTenants db (adminOf 1) ⟨"", "", ""⟩, ∀ reportId ∈ entry.reportId,
      ∃ report ∈ db.reports, report.id = reportId ∧ report.orgId = some 1 := by
  obtain ⟨db, hrun⟩ := Option.isSome_iff_exists.mp
    (show (Machine.run step Trail.empty twoActions).isSome = true by decide +kernel)
  have hlisting := listing_of_run hrun twoTenants (adminOf 1) ⟨"", "", ""⟩
  refine ⟨db, hrun, ?_, hlisting.2.2.2 rfl (by decide)⟩
  cases hrun
  decide +kernel

end Seen

end OpenWhistle.Audit
