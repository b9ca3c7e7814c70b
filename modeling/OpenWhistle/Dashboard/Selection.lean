import OpenWhistle.Dashboard.Query
import OpenWhistle.Foundation.Listing

/-!
# What the queries select

The WHERE clause of the list says the same as the decision about one report together with the filters
of the view, for every role, with and without organisations. The search of a view, said without its
two queries: the case number contains the term, or the text does and the report is among the newest
of the view.
-/

set_option autoImplicit false
set_option relaxedAutoImplicit false
set_option linter.unusedSectionVars false

namespace OpenWhistle.Dashboard

open Accounts (AdminUser AdminRole UserId)
open Access (Placement Scope orgScope ownCasesOnly canAccessReport)
open Cases (Status)

variable {ι κ : Type} [LinearOrder ι] {site : Site κ} {user : AdminUser} {view : View}

/-- A report that the account may open and that passes the filters of a view. -/
def InView (site : Site κ) (user : AdminUser) (view : View) (report : Report ι κ) : Prop :=
  canAccessReport site.multiTenancyEnabled user report.toPlacement = true ∧
  (∀ status ∈ statusOfValue view.status, report.status = status) ∧
  (∀ location ∈ view.locationId, report.locationId = some location) ∧
  (view.myCases = "1" → report.assignedToId = some user.id)

instance (report : Report ι κ) : Decidable (InView site user view report) :=
  inferInstanceAs (Decidable (_ ∧ _ ∧ _ ∧ _))

/-- A report submitted after another; of those of one day, the one with the greater id. -/
def Newer (other report : Report ι κ) : Prop :=
  report.submittedAt < other.submittedAt ∨
    report.submittedAt = other.submittedAt ∧ report.id < other.id

instance (other report : Report ι κ) : Decidable (Newer other report) :=
  inferInstanceAs (Decidable (_ ∨ _))

/-- A report that a search is about: the term is in its case number, or in its text while fewer than
`contentSearchLimit` reports of the view are newer. Without a term every report is. -/
def Found (site : Site κ) (user : AdminUser) (view : View) (reports : List (Report ι κ))
    (report : Report ι κ) : Prop :=
  view.caseQuery.isEmpty = true ∨
  view.caseQuery.toList.map site.letters.lower <:+:
    report.caseNumber.toList.map site.letters.lower ∨
  3 ≤ view.caseQuery.length ∧ contentContains site view.caseQuery report = true ∧
    reports.countP (fun other ↦ InView site user view other ∧ Newer other report) <
      contentSearchLimit

instance (reports : List (Report ι κ)) (report : Report ι κ) :
    Decidable (Found site user view reports report) :=
  inferInstanceAs (Decidable (_ ∨ _ ∨ _ ∧ _ ∧ _))

/-! ### The WHERE clause -/

theorem statusOfValue_statusValue (status : Status) :
    statusOfValue (statusValue status) = some status := by
  cases status <;> decide

/-- An account with a scope may open what is in its organisation, and a case manager its own. -/
theorem canAccessReport_iff (placement : Placement) :
    canAccessReport site.multiTenancyEnabled user placement = true ↔
      ((orgScope site.multiTenancyEnabled user).scopeOrg = true →
        placement.orgId = (orgScope site.multiTenancyEnabled user).orgId) ∧
      ∀ id ∈ ownCasesOnly user, placement.assignedToId = some id := by
  unfold canAccessReport orgScope ownCasesOnly
  cases user.role <;> cases site.multiTenancyEnabled <;> simp [eq_comm (a := user.orgId)]

theorem scopeOrg_iff : (orgScope site.multiTenancyEnabled user).scopeOrg = true ∨
    (orgScope site.multiTenancyEnabled user).orgId.isSome = true ↔
      (orgScope site.multiTenancyEnabled user).scopeOrg = true := by
  unfold orgScope
  cases hscope : site.multiTenancyEnabled && decide (user.role ≠ .superadmin) <;> simp

/-- The status filter of a view is the status its value stands for; other values filter nothing. -/
theorem viewFilter_status : (viewFilter site user view).statusFilter.bind statusOfValue =
    statusOfValue view.status := by
  by_cases hempty : view.status.isEmpty = true
  · have heq : view.status = "" := by simpa using hempty
    simp only [viewFilter, heq]
    decide
  · simp [viewFilter, hempty]

/-- The assignee that the list asks for: the case manager's own, else the one of "my cases". -/
theorem viewFilter_assigned (assignee : Option UserId) :
    (∀ id ∈ (viewFilter site user view).assignedToId, assignee = some id) ↔
      (∀ id ∈ ownCasesOnly user, assignee = some id) ∧
        (view.myCases = "1" → assignee = some user.id) := by
  simp only [viewFilter, ownCasesOnly]
  by_cases hmanager : user.role = .caseManager
  · simp [hmanager]
    exact fun h _ ↦ h
  · by_cases hmine : view.myCases = "1" <;> simp [hmanager, hmine]

theorem selects_iff (f : Filter) (report : Report ι κ) : f.selects report = true ↔
    (∀ status ∈ f.statusFilter.bind statusOfValue, report.status = status) ∧
    (∀ id ∈ f.assignedToId, report.assignedToId = some id) ∧
    (∀ location ∈ f.locationId, report.locationId = some location) ∧
    (f.scope.scopeOrg = true ∨ f.scope.orgId.isSome = true → report.orgId = f.scope.orgId) := by
  obtain ⟨statusFilter, assignedToId, locationId, scope⟩ := f
  simp only [Filter.selects, Bool.and_eq_true, and_assoc]
  refine and_congr ?_ (and_congr ?_ (and_congr ?_ ?_))
  · cases statusFilter.bind statusOfValue <;> simp
  · cases assignedToId <;> simp
  · cases locationId <;> simp
  · by_cases hscope : scope.scopeOrg = true ∨ scope.orgId.isSome = true <;> simp [hscope]

/-- The list is about exactly the reports of the view. -/
theorem viewFilter_selects_iff (report : Report ι κ) :
    (viewFilter site user view).selects report = true ↔ InView site user view report := by
  rw [selects_iff, viewFilter_status, viewFilter_assigned, InView, canAccessReport_iff]
  have hscope : (viewFilter site user view).scope = orgScope site.multiTenancyEnabled user := rfl
  have hlocation : (viewFilter site user view).locationId = view.locationId := rfl
  rw [hscope, hlocation, scopeOrg_iff]
  tauto

/-! ### The orders -/

/-- An order by a column and the id tells any two reports of a table apart. -/
theorem orders_orderBy {column : Report ι κ → Report ι κ → Bool}
    (htotal : ∀ a b, (column a b || column b a) = true)
    (htrans : ∀ a b c, column a b = true → column b c = true → column a c = true)
    {table : List (Report ι κ)} (hids : ∀ a ∈ table, ∀ b ∈ table, a.id = b.id → a = b) :
    Listing.Orders (orderBy column) table where
  total a b := by
    have hcolumn := htotal a b
    rcases le_total a.id b.id with hid | hid
    · cases hab : column a b <;> cases hba : column b a <;> simp_all [orderBy]
    · cases hab : column a b <;> cases hba : column b a <;> simp_all [orderBy]
  trans a b c hab hbc := by
    simp only [orderBy, Bool.and_eq_true, Bool.or_eq_true, Bool.not_eq_true', decide_eq_true_eq]
      at hab hbc ⊢
    obtain ⟨hab, hidab⟩ := hab
    obtain ⟨hbc, hidbc⟩ := hbc
    refine ⟨htrans a b c hab hbc, ?_⟩
    by_cases hca : column c a = true
    · -- all three tie in the column
      have hcb := htrans c a b hca hab
      have hba := htrans b c a hbc hca
      rw [hba] at hidab
      rw [hcb] at hidbc
      right
      exact le_trans (by simpa using hidbc) (by simpa using hidab)
    · exact .inl ((Bool.not_eq_true _).mp hca)
  antisymm a ha b hb hab hba := by
    simp only [orderBy, Bool.and_eq_true, Bool.or_eq_true, Bool.not_eq_true', decide_eq_true_eq]
      at hab hba
    rw [hba.1] at hab
    rw [hab.1] at hba
    apply hids a ha b hb
    exact le_antisymm (by simpa using hba.2) (by simpa using hab.2)

theorem orders_listOrder (sort : SortField) (ascending : Bool) {table : List (Report ι κ)}
    (hids : ∀ a ∈ table, ∀ b ∈ table, a.id = b.id → a = b) :
    Listing.Orders (listOrder site sort ascending) table := by
  have htotal : ∀ a b : Report ι κ, (columnLe site sort a b || columnLe site sort b a) = true := by
    intro a b
    cases sort with
    | submittedAt => simpa [columnLe] using le_total a.submittedAt b.submittedAt
    | caseNumber => exact site.collate_total a.caseNumber b.caseNumber
    | category => exact site.collate_total a.category b.category
    | status => simpa [columnLe] using le_total (statusRank a.status) (statusRank b.status)
  have htrans : ∀ a b c : Report ι κ, columnLe site sort a b = true → columnLe site sort b c = true →
      columnLe site sort a c = true := by
    intro a b c
    cases sort with
    | submittedAt => simpa [columnLe] using fun hab hbc ↦ le_trans hab hbc
    | caseNumber => exact site.collate_trans _ _ _
    | category => exact site.collate_trans _ _ _
    | status => simpa [columnLe] using fun hab hbc ↦ le_trans hab hbc
  cases ascending with
  | true => exact orders_orderBy htotal htrans hids
  | false =>
    refine orders_orderBy (fun a b ↦ ?_) (fun a b c hab hbc ↦ htrans c b a hbc hab) hids
    exact htotal b a

theorem orders_newestFirst {table : List (Report ι κ)}
    (hids : ∀ a ∈ table, ∀ b ∈ table, a.id = b.id → a = b) :
    Listing.Orders (newestFirst (ι := ι) (κ := κ)) table := by
  refine orders_orderBy (fun a b ↦ ?_) (fun a b c hab hbc ↦ ?_) hids
  · simpa using le_total b.submittedAt a.submittedAt
  · simp only [decide_eq_true_eq] at hab hbc ⊢
    exact le_trans hbc hab

/-- What comes before a report in the order of the content search is newer. -/
theorem newestFirst_eq_false_iff (report other : Report ι κ) :
    newestFirst report other = false ↔ Newer other report := by
  simp only [newestFirst, orderBy, Newer, Bool.and_eq_false_iff, Bool.or_eq_false_iff,
    Bool.not_eq_false', decide_eq_false_iff_not, decide_eq_true_eq, not_le]
  constructor
  · rintro (hlt | ⟨hle, hid⟩)
    · exact .inl hlt
    · rcases hle.lt_or_eq with hlt | heq
      · exact .inl hlt
      · exact .inr ⟨heq, hid⟩
  · rintro (hlt | ⟨heq, hid⟩)
    · exact .inl hlt
    · exact .inr ⟨heq.le, hid⟩

end OpenWhistle.Dashboard
