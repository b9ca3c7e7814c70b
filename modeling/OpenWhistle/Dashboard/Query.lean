import Mathlib.Data.List.Dedup
import Mathlib.Data.List.Infix
import Mathlib.Data.List.Sort
import OpenWhistle.Access.Authorization
import OpenWhistle.Cases.Status
import OpenWhistle.Foundation.Like
import OpenWhistle.Foundation.Text

/-!
# The dashboard: what an account lists

`_dashboard` and the three queries behind it, as functions of the rows of the reports table in the
order in which the database happens to find them. The list is filtered, sorted and cut into pages by
one query, the content search reads and decrypts reports before it, and the counts on the status
pills are a third query. What comes from elsewhere is a `Site`: the collation and the lower case of
the database, the case folding of Unicode, and the keys of the reports. A number or an id in the
query string is given as what it parses to.
-/

set_option autoImplicit false
set_option relaxedAutoImplicit false

namespace OpenWhistle.Dashboard

open Accounts (AdminUser AdminRole UserId)
open Access (Placement Scope orgScope ownCasesOnly canAccessReport)
open Cases (Status)

/-- The columns of a report that the dashboard reads, with the contents of its messages. -/
structure Report (ι κ : Type) extends Placement where
  id : ι
  caseNumber : String
  category : String
  status : Status
  locationId : Option ℕ
  submittedAt : ℕ
  encryptedDek : Option κ
  description : String
  messages : List String
  deriving DecidableEq

/-- What the dashboard takes from the database, from Unicode, and from the keys. -/
structure Site (κ : Type) where
  multiTenancyEnabled : Bool
  collate : String → String → Bool
  collate_total : ∀ a b, (collate a b || collate b a) = true
  collate_trans : ∀ a b c, collate a b = true → collate b c = true → collate a c = true
  letters : Like.LowerCase
  /-- Normal form C, with the case folded. -/
  fold : String → String
  /-- A field under a report's key; `none` where it does not open. -/
  decrypt : κ → String → Option String

/-- The query string, or the form of a search. -/
structure View where
  page : Option ℤ
  perPage : Option ℤ
  sort : String
  dir : String
  status : String
  myCases : String
  locationId : Option ℕ
  q : String
  deriving DecidableEq

inductive SortField
  | submittedAt
  | caseNumber
  | category
  | status
  deriving DecidableEq

def statusValue : Status → String
  | .received => "received"
  | .inReview => "in_review"
  | .pendingFeedback => "pending_feedback"
  | .closed => "closed"

def statuses : List Status := [.received, .inReview, .pendingFeedback, .closed]

/-- `_VALID_STATUSES`, and the status a value stands for. -/
def statusOfValue (value : String) : Option Status :=
  statuses.find? fun status ↦ statusValue status = value

/-- Where a status stands in the enumeration. -/
def statusRank : Status → ℕ
  | .received => 0
  | .inReview => 1
  | .pendingFeedback => 2
  | .closed => 3

/-- `_ALLOWED_SORT`. -/
def sortField (raw : String) : SortField :=
  if raw = "case_number" then .caseNumber
  else if raw = "category" then .category
  else if raw = "status" then .status
  else .submittedAt

def sortValue : SortField → String
  | .submittedAt => "submitted_at"
  | .caseNumber => "case_number"
  | .category => "category"
  | .status => "status"

def allowedPerPage : List ℕ := [10, 25, 50, 100]

def contentSearchLimit : ℕ := 5000

/-- The arguments of a query that say which reports it is about. -/
structure Filter where
  statusFilter : Option String
  assignedToId : Option UserId
  locationId : Option ℕ
  scope : Scope
  deriving DecidableEq

section Queries

variable {ι κ : Type} [LinearOrder ι] (site : Site κ)

/-- The WHERE clause of `get_reports_paginated` and of `content_match_ids`, without the search. A
comparison with a null column selects nothing, one with a null argument asks for null. -/
def Filter.selects (f : Filter) (report : Report ι κ) : Bool :=
  (match f.statusFilter.bind statusOfValue with
    | some status => decide (report.status = status)
    | none => true) &&
  (match f.assignedToId with
    | some id => decide (report.assignedToId = some id)
    | none => true) &&
  (match f.locationId with
    | some location => decide (report.locationId = some location)
    | none => true) &&
  (if f.scope.scopeOrg = true ∨ f.scope.orgId.isSome = true then
    decide (report.orgId = f.scope.orgId)
  else true)

/-- A column of the list, ascending. -/
def columnLe (sort : SortField) (a b : Report ι κ) : Bool :=
  match sort with
  | .submittedAt => decide (a.submittedAt ≤ b.submittedAt)
  | .caseNumber => site.collate a.caseNumber b.caseNumber
  | .category => site.collate a.category b.category
  | .status => decide (statusRank a.status ≤ statusRank b.status)

/-- ORDER BY a column, and the id downwards where the column ties. -/
def orderBy (column : Report ι κ → Report ι κ → Bool) (a b : Report ι κ) : Bool :=
  column a b && (!column b a || decide (b.id ≤ a.id))

/-- The order of the list. -/
def listOrder (sort : SortField) (ascending : Bool) : Report ι κ → Report ι κ → Bool :=
  orderBy fun a b ↦ if ascending then columnLe site sort a b else columnLe site sort b a

/-- The order of the content search: the newest first. -/
def newestFirst : Report ι κ → Report ι κ → Bool :=
  orderBy fun a b ↦ decide (b.submittedAt ≤ a.submittedAt)

/-! ### The content search -/

/-- `decrypt_field_safe`. -/
def decryptFieldSafe (key : κ) (ciphertext : String) : String :=
  match site.decrypt key ciphertext with
  | some text => text
  | none =>
    if ciphertext.startsWith "gAAAA" then "[DECRYPTION FAILED — check ENCRYPTION_KEY/SECRET_KEY]"
    else ciphertext

/-- `decrypt_report_fields`, in the language a text is stored in. -/
def decryptReportFields (report : Report ι κ) : String × List String :=
  match report.encryptedDek with
  | some key =>
    (decryptFieldSafe site key report.description, report.messages.map (decryptFieldSafe site key))
  | none => (report.description, report.messages)

/-- The description or a message contains a text, in any letter case. -/
def contentContains (needle : String) (report : Report ι κ) : Bool :=
  let (description, messages) := decryptReportFields site report
  (description :: messages).any fun text ↦
    decide ((site.fold needle).toList <:+: (site.fold text).toList)

/-- What the content search returns, with the reports it has decrypted. -/
structure ContentSearch (ι κ : Type) where
  hits : List ι
  readOrgs : List (Option ℕ)
  capped : Option ℕ
  decrypted : List (Report ι κ)

/-- `content_match_ids`. -/
def contentMatchIds (needle : String) (f : Filter) (table : List (Report ι κ)) :
    ContentSearch ι κ :=
  let rows := ((table.filter f.selects).mergeSort newestFirst).take (contentSearchLimit + 1)
  let reports := if contentSearchLimit < rows.length then rows.take contentSearchLimit else rows
  { hits := (reports.filter (contentContains site needle)).map Report.id
    readOrgs := (reports.map fun report ↦ report.orgId).dedup
    capped := if contentSearchLimit < rows.length then some contentSearchLimit else none
    decrypted := reports }

/-! ### The list and the counts -/

/-- The search of the list: the case number by ILIKE, the content by the ids found before. -/
def searchSelects (caseQuery : Option String) (contentIds : Option (List ι)) (report : Report ι κ) :
    Bool :=
  match caseQuery with
  | none => true
  | some query =>
    if query.isEmpty then true
    else Like.ilike site.letters ('%' :: (Like.escape query.toList ++ ['%'])) report.caseNumber.toList ||
      match contentIds with
      | some ids => decide (report.id ∈ ids)
      | none => false

/-- `get_reports_paginated`. -/
def getReportsPaginated (page perPage : ℕ) (f : Filter) (sort : SortField) (ascending : Bool)
    (caseQuery : Option String) (contentIds : Option (List ι)) (table : List (Report ι κ)) :
    List (Report ι κ) × ℕ :=
  let page := max 1 page
  let perPage := max 1 (min 100 perPage)
  let base := table.filter fun report ↦
    f.selects report && searchSelects site caseQuery contentIds report
  let rows := base.mergeSort (listOrder site sort ascending)
  ((rows.drop ((page - 1) * perPage)).take perPage, base.length)

/-- `get_report_stats`. -/
def getReportStats (scope : Scope) (assignedToId : Option UserId) (locationId : Option ℕ)
    (table : List (Report ι κ)) (status : Status) : ℕ :=
  (table.filter fun report ↦
    (!scope.scopeOrg || decide (report.orgId = scope.orgId)) &&
    (match assignedToId with
      | some id => decide (report.assignedToId = some id)
      | none => true) &&
    (match locationId with
      | some location => decide (report.locationId = some location)
      | none => true)).countP fun report ↦ report.status = status

/-! ### The page -/

/-- An audit entry of a content search; its term is stored as a token. -/
structure SearchEntry where
  targetOrg : Option ℕ
  term : String
  hits : ℕ
  deriving DecidableEq

/-- The context of `admin/dashboard.html`, as far as it is about the list, with the audit entries of
the search and the reports it has decrypted. -/
structure Page (ι κ : Type) where
  reports : List (Report ι κ)
  stats : Status → ℕ
  page : ℕ
  perPage : ℕ
  total : ℕ
  totalPages : ℕ
  caseQuery : String
  searchCapped : Option ℕ
  nav : View
  searchEntries : List SearchEntry
  decrypted : List (Report ι κ)

/-- The page number that a query string asks for. -/
def View.pageNumber (view : View) : ℕ := ((view.page.map (max 1)).getD 1).toNat

def View.pageSize (view : View) : ℕ :=
  match view.perPage with
  | some perPage => if perPage.toNat ∈ allowedPerPage ∧ 0 ≤ perPage then perPage.toNat else 25
  | none => 25

/-- The search term. -/
def View.caseQuery (view : View) : String := String.ofList ((Text.strip view.q).toList.take 64)

/-- What the list and the content search of a view are about. -/
def viewFilter (user : AdminUser) (view : View) : Filter where
  statusFilter := if view.status.isEmpty then none else some view.status
  assignedToId := ownCasesOnly user <|> if view.myCases = "1" then some user.id else none
  locationId := view.locationId
  scope := orgScope site.multiTenancyEnabled user

/-- The content search of a view, which a short term does not start. -/
def viewSearch (user : AdminUser) (view : View) (table : List (Report ι κ)) :
    Option (ContentSearch ι κ) :=
  if 3 ≤ view.caseQuery.length then
    some (contentMatchIds site view.caseQuery (viewFilter site user view) table)
  else none

/-- The audit entries of a content search: one for each organisation whose reports it has read. -/
def searchEntries (user : AdminUser) (term : String) (search : ContentSearch ι κ)
    (table : List (Report ι κ)) : List SearchEntry :=
  if site.multiTenancyEnabled = true ∧ search.readOrgs ≠ [] then
    search.readOrgs.map fun org ↦
      ⟨org, term, table.countP fun report ↦ report.id ∈ search.hits ∧ report.orgId = org⟩
  else [⟨user.orgId, term, search.hits.length⟩]

/-- `_dashboard`. -/
def dashboard (user : AdminUser) (view : View) (table : List (Report ι κ)) : Page ι κ :=
  let caseQuery := view.caseQuery
  let f := viewFilter site user view
  let search := viewSearch site user view table
  let sort := sortField view.sort
  let listed := getReportsPaginated site view.pageNumber view.pageSize f sort (view.dir = "asc")
    (if caseQuery.isEmpty then none else some caseQuery) (search.map ContentSearch.hits) table
  { reports := listed.1
    stats := getReportStats (orgScope site.multiTenancyEnabled user) (ownCasesOnly user)
      view.locationId table
    page := view.pageNumber
    perPage := view.pageSize
    total := listed.2
    totalPages := max 1 ((listed.2 + view.pageSize - 1) / view.pageSize)
    caseQuery := caseQuery
    searchCapped := search.bind ContentSearch.capped
    nav := {
      page := some 1
      perPage := some view.pageSize
      sort := sortValue sort
      dir := if view.dir = "asc" then "asc" else "desc"
      status := view.status
      myCases := if view.myCases = "1" then "1" else ""
      locationId := view.locationId
      q := caseQuery }
    searchEntries := (search.map fun found ↦ searchEntries site user caseQuery found table).getD []
    decrypted := (search.map ContentSearch.decrypted).getD [] }

/-- What the pill of a status links to: the view of the page, with this status and all cases. -/
def pillLink (nav : View) (status : Status) : View :=
  { nav with status := statusValue status, myCases := "" }

end Queries

end OpenWhistle.Dashboard
