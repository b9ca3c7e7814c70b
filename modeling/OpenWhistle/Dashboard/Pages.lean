import OpenWhistle.Dashboard.Selection

/-!
# What an account lists is what it may open

The pages of a view, put together, are the reports the account may open and that match the filters,
each once, whatever order the database finds the rows in. Every page knows their number, the count on
a pill is the number of reports in the list behind it, and the content search decrypts no report that
the account may not open.
-/

set_option autoImplicit false
set_option relaxedAutoImplicit false
set_option linter.unusedSectionVars false

namespace OpenWhistle.Dashboard

open Accounts (AdminUser AdminRole UserId)
open Access (Placement Scope orgScope ownCasesOnly canAccessReport)
open Cases (Status)

/-- A state of the reports table: its rows, told apart by their ids. -/
structure Database (ι κ : Type) where
  reports : List (Report ι κ)
  ids_nodup : (reports.map Report.id).Nodup

variable {ι κ : Type} [LinearOrder ι] {site : Site κ} {user : AdminUser} {view : View}
  {db : Database ι κ} {table : List (Report ι κ)}

/-- A report that belongs to the list of a view. -/
def Listed (site : Site κ) (user : AdminUser) (view : View) (db : Database ι κ)
    (report : Report ι κ) : Prop :=
  InView site user view report ∧ Found site user view db.reports report

instance (report : Report ι κ) : Decidable (Listed site user view db report) :=
  inferInstanceAs (Decidable (_ ∧ _))

theorem ids_injective (hscan : table.Perm db.reports) :
    ∀ a ∈ table, ∀ b ∈ table, a.id = b.id → a = b := by
  intro a ha b hb hid
  exact List.inj_on_of_nodup_map db.ids_nodup (hscan.mem_iff.mp ha) (hscan.mem_iff.mp hb) hid

theorem nodup_of_scan (hscan : table.Perm db.reports) : table.Nodup :=
  hscan.nodup_iff.mpr db.ids_nodup.of_map

/-! ### The content search -/

theorem decrypted_eq (needle : String) (f : Filter) : (contentMatchIds site needle f table).decrypted =
    ((table.filter f.selects).mergeSort newestFirst).take contentSearchLimit :=
  Listing.take_of_take_succ _ _

theorem filter_selects : table.filter (viewFilter site user view).selects =
    table.filter fun report ↦ InView site user view report := by
  refine List.filter_congr fun report _ ↦ ?_
  rw [Bool.eq_iff_iff, viewFilter_selects_iff, decide_eq_true_eq]

/-- How many reports of the view come before one in the order of the content search. -/
theorem countP_before (hscan : table.Perm db.reports) (report : Report ι κ) :
    (table.filter fun other ↦ InView site user view other).countP
        (fun other ↦ !newestFirst report other) =
      db.reports.countP fun other ↦ InView site user view other ∧ Newer other report := by
  rw [List.countP_filter, hscan.countP_eq]
  refine List.countP_congr fun other _ ↦ ?_
  rw [Bool.and_eq_true, Bool.not_eq_true', newestFirst_eq_false_iff, decide_eq_true_eq,
    decide_eq_true_eq, and_comm]

/-- The content search decrypts the newest reports of the view. -/
theorem mem_decrypted_iff (hscan : table.Perm db.reports) (needle : String) {report : Report ι κ}
    (hmem : report ∈ table) :
    report ∈ (contentMatchIds site needle (viewFilter site user view) table).decrypted ↔
      InView site user view report ∧
        db.reports.countP (fun other ↦ InView site user view other ∧ Newer other report) <
          contentSearchLimit := by
  have horders := (orders_newestFirst (ids_injective hscan)).subset
    fun other (hother : other ∈ table.filter fun other ↦ InView site user view other) ↦
      List.mem_of_mem_filter hother
  have hnodup := (nodup_of_scan hscan).filter fun other ↦ decide (InView site user view other)
  rw [decrypted_eq, filter_selects]
  constructor
  · intro htake
    have hin := List.mem_mergeSort.mp (List.mem_of_mem_take htake)
    rw [horders.mem_take_mergeSort_iff hnodup hin, countP_before hscan] at htake
    exact ⟨by simpa using (List.mem_filter.mp hin).2, htake⟩
  · rintro ⟨hview, hcount⟩
    have hin : report ∈ table.filter fun other ↦ InView site user view other :=
      List.mem_filter.mpr ⟨hmem, by simpa using hview⟩
    rw [horders.mem_take_mergeSort_iff hnodup hin, countP_before hscan]
    exact hcount

/-- The ids that the content search finds are those of the decrypted reports with the term. -/
theorem mem_hits_iff (hscan : table.Perm db.reports) (needle : String) {report : Report ι κ}
    (hmem : report ∈ table) :
    report.id ∈ (contentMatchIds site needle (viewFilter site user view) table).hits ↔
      report ∈ (contentMatchIds site needle (viewFilter site user view) table).decrypted ∧
        contentContains site needle report = true := by
  have hsubset : ∀ other ∈ (contentMatchIds site needle (viewFilter site user view) table).decrypted,
      other ∈ table := by
    intro other hother
    rw [decrypted_eq] at hother
    exact List.mem_of_mem_filter (List.mem_mergeSort.mp (List.mem_of_mem_take hother))
  have hhits : (contentMatchIds site needle (viewFilter site user view) table).hits =
      ((contentMatchIds site needle (viewFilter site user view) table).decrypted.filter
        (contentContains site needle)).map Report.id := rfl
  rw [hhits, List.mem_map]
  constructor
  · rintro ⟨other, hother, hid⟩
    obtain ⟨hdecrypted, hcontains⟩ := List.mem_filter.mp hother
    rw [← ids_injective hscan other (hsubset other hdecrypted) report hmem hid]
    exact ⟨hdecrypted, hcontains⟩
  · rintro ⟨hdecrypted, hcontains⟩
    exact ⟨report, List.mem_filter.mpr ⟨hdecrypted, hcontains⟩, rfl⟩

/-! ### The list -/

/-- The search of the list finds what the search of the view is about. -/
theorem searchSelects_iff (hscan : table.Perm db.reports) {report : Report ι κ}
    (hmem : report ∈ table) (hview : InView site user view report) :
    searchSelects site (if view.caseQuery.isEmpty then none else some view.caseQuery)
        ((viewSearch site user view table).map ContentSearch.hits) report = true ↔
      Found site user view db.reports report := by
  unfold Found
  by_cases hempty : view.caseQuery.isEmpty = true
  · simp [hempty, searchSelects]
  · rw [if_neg hempty]
    simp only [searchSelects, hempty, Bool.or_eq_true, Like.ilike_contains_iff, false_or,
      Bool.false_eq_true, if_false]
    refine or_congr Iff.rfl ?_
    by_cases hlong : 3 ≤ view.caseQuery.length
    · have hsearch : viewSearch site user view table =
          some (contentMatchIds site view.caseQuery (viewFilter site user view) table) := if_pos hlong
      simp only [hsearch, Option.map_some, decide_eq_true_eq]
      rw [mem_hits_iff hscan _ hmem, mem_decrypted_iff hscan _ hmem]
      constructor
      · rintro ⟨⟨-, hcount⟩, hcontains⟩
        exact ⟨hlong, hcontains, hcount⟩
      · rintro ⟨-, hcontains, hcount⟩
        exact ⟨⟨hview, hcount⟩, hcontains⟩
    · simp [viewSearch, hlong]

/-- The rows of the list's query, before they are sorted. -/
theorem filter_listed (hscan : table.Perm db.reports) : (table.filter fun report ↦
    (viewFilter site user view).selects report &&
      searchSelects site (if view.caseQuery.isEmpty then none else some view.caseQuery)
        ((viewSearch site user view table).map ContentSearch.hits) report) =
    table.filter fun report ↦ Listed site user view db report := by
  refine List.filter_congr fun report hmem ↦ ?_
  rw [Bool.eq_iff_iff, Bool.and_eq_true, viewFilter_selects_iff, decide_eq_true_eq, Listed]
  exact and_congr_right fun hview ↦ searchSelects_iff hscan hmem hview

theorem pageSize_mem (view : View) : view.pageSize ∈ allowedPerPage := by
  unfold View.pageSize
  split
  · split_ifs with hallowed
    · exact hallowed.1
    · decide
  · decide

/-- One page: a piece of the sorted list of the view. -/
theorem dashboard_reports (hscan : table.Perm db.reports) :
    (dashboard site user view table).reports =
      (((db.reports.filter fun report ↦ Listed site user view db report).mergeSort
        (listOrder site (sortField view.sort) (view.dir = "asc"))).drop
          ((view.pageNumber - 1) * view.pageSize)).take view.pageSize := by
  have hnumber : max 1 view.pageNumber - 1 = view.pageNumber - 1 := by omega
  have hsize : max 1 (min 100 view.pageSize) = view.pageSize := by
    have hmem := pageSize_mem view
    simp only [allowedPerPage, List.mem_cons, List.not_mem_nil, or_false] at hmem
    omega
  have hperm : (table.filter fun report ↦ Listed site user view db report).Perm
      (db.reports.filter fun report ↦ Listed site user view db report) := hscan.filter _
  have horders : Listing.Orders (listOrder site (sortField view.sort) (view.dir = "asc"))
      (db.reports.filter fun report ↦ Listed site user view db report) :=
    (orders_listOrder _ _ (ids_injective (List.Perm.refl _))).subset fun _ ↦ List.mem_of_mem_filter
  change ((List.mergeSort (table.filter _) _).drop _).take _ = _
  rw [hnumber, hsize]
  rw [filter_listed hscan, horders.mergeSort_eq_of_perm hperm]

/-- Every page knows the number of reports that belong to its view. -/
theorem dashboard_total (hscan : table.Perm db.reports) : (dashboard site user view table).total =
    (db.reports.filter fun report ↦ Listed site user view db report).length := by
  change ((table.filter fun report ↦ _ && searchSelects site _
    ((viewSearch site user view table).map ContentSearch.hits) report)).length = _
  rw [filter_listed hscan]
  exact (hscan.filter _).length_eq

/-- What a page decrypts, the account may open. -/
theorem dashboard_decrypted (hscan : table.Perm db.reports) {report : Report ι κ}
    (hmem : report ∈ (dashboard site user view table).decrypted) :
    canAccessReport site.multiTenancyEnabled user report.toPlacement = true := by
  simp only [dashboard, viewSearch] at hmem
  split_ifs at hmem
  · rw [Option.map_some, Option.getD_some] at hmem
    have htable : report ∈ table := by
      rw [decrypted_eq] at hmem
      exact List.mem_of_mem_filter (List.mem_mergeSort.mp (List.mem_of_mem_take hmem))
    exact ((mem_decrypted_iff hscan _ htable).mp hmem).1.1
  · cases hmem

/-! ### The counts -/

theorem getReportStats_eq (hscan : table.Perm db.reports) (status : Status) :
    (dashboard site user view table).stats status = db.reports.countP fun report ↦
      canAccessReport site.multiTenancyEnabled user report.toPlacement = true ∧
        report.status = status ∧ ∀ location ∈ view.locationId, report.locationId = some location := by
  change ((table.filter fun report ↦ _).countP _) = _
  rw [List.countP_filter, hscan.countP_eq]
  refine List.countP_congr fun report _ ↦ ?_
  rw [decide_eq_true_eq, canAccessReport_iff]
  cases hassigned : ownCasesOnly user <;> cases hlocation : view.locationId <;>
    cases hscope : (orgScope site.multiTenancyEnabled user).scopeOrg <;> simp <;> tauto

/-- Without a search, the list behind a pill is what the account may open, with that status and in
that location. -/
theorem listed_pillLink_iff (nav : View) (hq : nav.q = "") (status : Status) (report : Report ι κ) :
    Listed site user (pillLink nav status) db report ↔
      canAccessReport site.multiTenancyEnabled user report.toPlacement = true ∧
        report.status = status ∧
        ∀ location ∈ nav.locationId, report.locationId = some location := by
  have hquery : (pillLink nav status).caseQuery.isEmpty = true := by
    have hnone : (pillLink nav status).q = "" := hq
    rw [View.caseQuery, hnone]
    decide
  have hstatus : statusOfValue (pillLink nav status).status = some status :=
    statusOfValue_statusValue status
  have hmine : ¬(pillLink nav status).myCases = "1" := by
    show ¬("" : String) = "1"
    decide
  have hlocation : (pillLink nav status).locationId = nav.locationId := rfl
  simp [Listed, InView, Found, hquery, hstatus, hmine, hlocation]

/-! ### All pages -/

/-- The page of a number, over the rows in the order in which the database finds them then. -/
def pageOf (site : Site κ) (user : AdminUser) (view : View) (scan : ℕ → List (Report ι κ))
    (number : ℕ) : Page ι κ :=
  dashboard site user { view with page := some number } (scan number)

/-- The pages that a number of reports needs are enough to hold them. -/
theorem length_le_totalPages {size : ℕ} (hsize : size ∈ allowedPerPage) (length : ℕ) :
    length ≤ max 1 ((length + size - 1) / size) * size := by
  simp only [allowedPerPage, List.mem_cons, List.not_mem_nil, or_false] at hsize
  rcases hsize with rfl | rfl | rfl | rfl <;> omega

/-- For every account, every view and every state of the database: the pages 1 to `total_pages` of
the view together show, each once, the reports that the account may open and that match the filters;
every page knows their number; the count of every status is the number of reports in the list its
pill links to, when no search is active; and the content search decrypts only reports that the
account may open. -/
theorem account_lists_what_it_may_open (scan : ℕ → List (Report ι κ))
    (hscan : ∀ number, (scan number).Perm db.reports) :
    ((List.range (pageOf site user view scan 1).totalPages).flatMap fun i ↦
        (pageOf site user view scan (i + 1)).reports).Perm
      (db.reports.filter fun report ↦ Listed site user view db report) ∧
    (∀ number, (pageOf site user view scan number).total =
      (db.reports.filter fun report ↦ Listed site user view db report).length) ∧
    (∀ number, (pageOf site user view scan number).caseQuery = "" → ∀ status other,
      (pageOf site user view scan number).stats status =
        (dashboard site user (pillLink (pageOf site user view scan number).nav status)
          (scan other)).total) ∧
    ∀ number, ∀ report ∈ (pageOf site user view scan number).decrypted,
      canAccessReport site.multiTenancyEnabled user report.toPlacement = true := by
  have htotal : ∀ number, (pageOf site user view scan number).total =
      (db.reports.filter fun report ↦ Listed site user view db report).length :=
    fun number ↦ dashboard_total (hscan number)
  refine ⟨?_, htotal, fun number hquery status other ↦ ?_, fun number report hmem ↦
    dashboard_decrypted (hscan number) hmem⟩
  · have hpages : (pageOf site user view scan 1).totalPages =
        max 1 (((db.reports.filter fun report ↦ Listed site user view db report).length +
          view.pageSize - 1) / view.pageSize) := by
      rw [← htotal 1]
      rfl
    have hpage : ∀ i, (pageOf site user view scan (i + 1)).reports =
        (((db.reports.filter fun report ↦ Listed site user view db report).mergeSort
          (listOrder site (sortField view.sort) (view.dir = "asc"))).drop
            (i * view.pageSize)).take view.pageSize := by
      intro i
      have hnumber : ({ view with page := some ((i + 1 : ℕ) : ℤ) } : View).pageNumber - 1 = i := by
        simp only [View.pageNumber, Option.map_some, Option.getD_some]
        omega
      rw [pageOf, dashboard_reports (hscan (i + 1)), hnumber]
      rfl
    simp only [hpage]
    rw [Listing.flatMap_pages, List.take_of_length_le]
    · exact List.mergeSort_perm _ _
    · rw [List.length_mergeSort, hpages]
      exact length_le_totalPages (pageSize_mem view) _
  · rw [dashboard_total (hscan other), ← List.countP_eq_length_filter]
    rw [pageOf, getReportStats_eq (hscan number) status]
    refine List.countP_congr fun report _ ↦ ?_
    rw [decide_eq_true_eq, decide_eq_true_eq]
    exact (listed_pillLink_iff (pageOf site user view scan number).nav hquery status report).symm

/-! ### A table that is found in two orders -/

/-- A site whose texts are stored as they are. -/
def plainSite : Site ℕ where
  multiTenancyEnabled := true
  collate a b := decide (a ≤ b)
  collate_total a b := by simpa using String.le_total a b
  collate_trans a b c := by
    simp only [decide_eq_true_eq]
    exact String.le_trans
  letters := Like.ascii
  fold := String.toLower
  decrypt _ text := some text

/-- A report of one of two days; every fourth belongs to no organisation. -/
def sample (i : ℕ) : Report ℕ ℕ where
  id := i
  orgId := if i % 4 = 0 then none else some 7
  assignedToId := none
  caseNumber := "OW-2026-" ++ toString (10000 + i)
  category := "fraud"
  status := if i % 2 = 0 then .received else .closed
  locationId := none
  submittedAt := i % 2
  encryptedDek := some 0
  description := "an invoice"
  messages := []

def sampleTable : Database ℕ ℕ where
  reports := (List.range 20).map sample
  ids_nodup := by decide +kernel

def adminOfSeven : AdminUser where
  id := 1
  username := "anna"
  totpSecret := ""
  role := .admin
  orgId := some 7

/-- Ten reports a page, sorted by the day. -/
def tenByDay : View := ⟨none, some 10, "submitted_at", "asc", "", "", none, ""⟩

theorem account_lists_what_it_may_open_in_two_orders :
    ((List.range (pageOf plainSite adminOfSeven tenByDay
        (fun number ↦ if number = 1 then sampleTable.reports else sampleTable.reports.reverse)
        1).totalPages).flatMap fun i ↦
      (pageOf plainSite adminOfSeven tenByDay
        (fun number ↦ if number = 1 then sampleTable.reports else sampleTable.reports.reverse)
        (i + 1)).reports).Perm
      (sampleTable.reports.filter fun report ↦
        Listed plainSite adminOfSeven tenByDay sampleTable report) ∧
    (sampleTable.reports.filter fun report ↦
      Listed plainSite adminOfSeven tenByDay sampleTable report).length = 15 := by
  refine ⟨(account_lists_what_it_may_open _ fun number ↦ ?_).1, by decide +kernel⟩
  show (if number = 1 then _ else _ : List (Report ℕ ℕ)).Perm sampleTable.reports
  split_ifs
  · exact List.Perm.refl _
  · exact List.reverse_perm _

end OpenWhistle.Dashboard
