import Mathlib.Data.List.Pairwise
import Mathlib.Data.List.Sort
import OpenWhistle.Access.Authorization
import OpenWhistle.Foundation.Machine
import OpenWhistle.Foundation.Text

/-!
# The categories of reports

A report keeps the slug of its category, and the pages show the label that the table has for the
slug. Admins add categories, deactivate and reactivate them while reporters submit. A request looks
into the table first and writes later, and others may have written in between. Two organisations may
have the same slug.

What the pages show for a report stays what they showed when it was filed. No category leaves the
table and only the active flag of one changes; the table refuses a second row of a slug in an
organisation; and the label of a report is looked up among the categories of its own organisation.
The built-in categories are offered for ever, because none is deactivated.
-/

set_option autoImplicit false
set_option relaxedAutoImplicit false

namespace OpenWhistle.Catalogue

open Accounts (AdminUser adminOf)
open Access (Scope orgScope)

/-- What is given: the letters of Unicode, the texts of the locales, and the order of texts in the
database. -/
structure Texts where
  letters : Text.Letters
  title : String → String
  /-- The text of `category.label.<slug>`. -/
  builtIn : (lang slug : String) → Option String
  collate : String → String → Bool

structure ReportCategory where
  id : ℕ
  slug : String
  labelEn : String
  labelDe : String
  isDefault : Bool
  isActive : Bool
  sortOrder : ℤ
  orgId : Option ℕ
  deriving DecidableEq

/-- What a report has of its category. -/
structure Report where
  orgId : Option ℕ
  category : String
  deriving DecidableEq

variable (texts : Texts)

def ReportCategory.labelFor (category : ReportCategory) (lang : String) : String :=
  if lang = "de" ∧ category.labelDe ≠ "" then category.labelDe
  else if category.isDefault ∧ lang ≠ "en" then
    ((texts.builtIn lang category.slug).filter (· ≠ "")).getD category.labelEn
  else category.labelEn

/-! ### The service -/

/-- `ORDER BY sort_order, label_en`. -/
def inOrder (first second : ReportCategory) : Bool :=
  decide (first.sortOrder < second.sortOrder) ||
    decide (first.sortOrder = second.sortOrder) && texts.collate first.labelEn second.labelEn

def getAllCategories (scope : Scope) (rows : List ReportCategory) : List ReportCategory :=
  (rows.filter fun row ↦ !scope.scopeOrg || decide (row.orgId = scope.orgId)).insertionSort
    fun first second ↦ inOrder texts first second = true

def getActiveCategories (scope : Scope) (rows : List ReportCategory) : List ReportCategory :=
  (rows.filter fun row ↦
    row.isActive && (!scope.scopeOrg || decide (row.orgId = scope.orgId))).insertionSort
      fun first second ↦ inOrder texts first second = true

/-- A dictionary, of which a later pair with the same key wins. -/
def getCategoryLabels (lang : String) (scope : Scope) (rows : List ReportCategory) :
    List (String × String) :=
  (getAllCategories texts scope rows).map fun row ↦ (row.slug, row.labelFor texts lang)

def categoryLabel (slug : String) (labels : List (String × String)) : String :=
  ((labels.reverse.lookup slug).filter (· ≠ "")).getD
    (texts.title (String.ofList (slug.toList.map fun c ↦ if c = '_' then ' ' else c)))

/-- Two rows are a failure of `scalar_one_or_none`. -/
def getCategoryBySlug (slug : String) (orgId : Option ℕ) (rows : List ReportCategory) :
    Except ℕ (Option ReportCategory) :=
  match rows.filter fun row ↦ row.slug = slug ∧ row.orgId = orgId with
  | [] => .ok none
  | [row] => .ok (some row)
  | _ => .error 500

/-! ### The routes -/

/-- `_report_org`. -/
def reportOrg (multiTenancyEnabled : Bool) (orgId : Option ℕ) : Scope :=
  ⟨multiTenancyEnabled, orgId⟩

/-- The label of the category on the pages of a report. -/
def labelOf (multiTenancyEnabled : Bool) (lang : String) (report : Report)
    (rows : List ReportCategory) : String :=
  categoryLabel texts report.category
    (getCategoryLabels texts lang (reportOrg multiTenancyEnabled report.orgId) rows)

/-- `_require_same_org` passes. -/
def sameOrg (multiTenancyEnabled : Bool) (user : AdminUser) (targetOrgId : Option ℕ) : Bool :=
  !(orgScope multiTenancyEnabled user).scopeOrg ||
    decide (targetOrgId = (orgScope multiTenancyEnabled user).orgId)

/-- What the form of a new category holds. -/
structure Form where
  slug : String
  labelEn : String
  labelDe : String
  sortOrder : ℤ
  deriving DecidableEq

def cleanSlug (slug : String) : String :=
  String.ofList ((texts.letters.lower (Text.strip slug)).toList.map fun c ↦
    if c = ' ' then '_' else c)

/-- `re.fullmatch(r"[a-z0-9_]+", slug)`. -/
def isSlug (slug : String) : Bool :=
  slug ≠ "" && slug.toList.all fun c ↦ ('a' ≤ c && c ≤ 'z') || ('0' ≤ c && c ≤ '9') || c = '_'

/-- The row that is to be added, or the status of the refusal. -/
def createCategory (defaultOrgId : Option ℕ) (user : AdminUser) (form : Form) (id : ℕ)
    (rows : List ReportCategory) : Except ℕ ReportCategory :=
  let slug := cleanSlug texts form.slug
  if isSlug slug = false ∨ Text.strip form.labelEn = "" ∨ Text.strip form.labelDe = "" then
    .error 400
  else
    let orgId := user.orgId.or defaultOrgId
    match getCategoryBySlug slug orgId rows with
    | .error status => .error status
    | .ok (some _) => .error 409
    | .ok none =>
      .ok ⟨id, slug, Text.strip form.labelEn, Text.strip form.labelDe, false, true, form.sortOrder,
        orgId⟩

variable (multiTenancyEnabled : Bool)

/-- The row that is to be switched, by either route. Only the one that deactivates spares the
built-in categories. -/
def switchCategory (active : Bool) (user : AdminUser) (id : ℕ) (rows : List ReportCategory) :
    Except ℕ ReportCategory :=
  match rows.find? fun row ↦ row.id = id with
  | none => .error 404
  | some row =>
    if sameOrg multiTenancyEnabled user row.orgId = false then .error 404
    else if active = false ∧ row.isDefault = true then .error 422
    else .ok row

def deactivateCategory (user : AdminUser) (id : ℕ) (rows : List ReportCategory) :
    Except ℕ ReportCategory :=
  switchCategory multiTenancyEnabled false user id rows

def reactivateCategory (user : AdminUser) (id : ℕ) (rows : List ReportCategory) :
    Except ℕ ReportCategory :=
  switchCategory multiTenancyEnabled true user id rows

/-- The categories that the form of an organisation offers. -/
def offered (orgId : Option ℕ) (rows : List ReportCategory) : List String :=
  (getActiveCategories texts ⟨multiTenancyEnabled, orgId⟩ rows).map ReportCategory.slug

/-! ### Requests at a time -/

/-- What a request has yet to write. -/
inductive Phase
  | idle
  | creating (row : ReportCategory)
  | switching (id : ℕ) (active : Bool)
  | filing (report : Report)
  deriving DecidableEq

structure State where
  rows : List ReportCategory
  reports : List Report
  workers : ℕ → Phase

inductive Event
  | create (w : ℕ) (defaultOrgId : Option ℕ) (user : AdminUser) (form : Form) (id : ℕ)
  | deactivate (w : ℕ) (user : AdminUser) (id : ℕ)
  | reactivate (w : ℕ) (user : AdminUser) (id : ℕ)
  /-- The last check of a draft. With multi-tenancy on, a wizard is some organisation's. -/
  | submit (w : ℕ) (orgId : Option ℕ) (category : String)
  | commit (w : ℕ)
  | fail (w : ℕ)

namespace State

def goOn (s : State) (w : ℕ) (phase : Phase) : State :=
  { s with workers := Function.update s.workers w phase }

/-- The primary key, and the constraint on slug and organisation, for which no two NULLs are the
same. -/
def conflicts (s : State) (row : ReportCategory) : Bool :=
  s.rows.any fun other ↦ other.id = row.id ||
    (row.orgId.isSome && other.orgId = row.orgId && other.slug = row.slug)

/-- `UPDATE report_categories SET is_active = … WHERE id = …`. -/
def switch (s : State) (id : ℕ) (active : Bool) : State :=
  { s with rows := s.rows.map fun row ↦
      if row.id = id then { row with isActive := active } else row }

/-- The write of a request. -/
def write (s : State) : Phase → State
  | .idle => s
  | .creating row => if s.conflicts row then s else { s with rows := row :: s.rows }
  | .switching id active => s.switch id active
  | .filing report => { s with reports := report :: s.reports }

end State

/-- The phase after a look at the table; only a changed flag is written. -/
def afterSwitch (active : Bool) : Except ℕ ReportCategory → Phase
  | .error _ => .idle
  | .ok row => if row.isActive = active then .idle else .switching row.id active

def afterCreate : Except ℕ ReportCategory → Phase
  | .error _ => .idle
  | .ok row => .creating row

def step (s : State) : Event → Option State
  | .create w defaultOrgId user form id =>
    if s.workers w = .idle then
      some (s.goOn w (afterCreate (createCategory texts defaultOrgId user form id s.rows)))
    else none
  | .deactivate w user id =>
    if s.workers w = .idle then
      some (s.goOn w (afterSwitch false (deactivateCategory multiTenancyEnabled user id s.rows)))
    else none
  | .reactivate w user id =>
    if s.workers w = .idle then
      some (s.goOn w (afterSwitch true (reactivateCategory multiTenancyEnabled user id s.rows)))
    else none
  | .submit w orgId category =>
    if s.workers w = .idle ∧ (multiTenancyEnabled = true → orgId.isSome = true) then
      some (s.goOn w (if category ∈ offered texts multiTenancyEnabled orgId s.rows then
        .filing ⟨orgId, category⟩ else .idle))
    else none
  | .commit w => some ((s.write (s.workers w)).goOn w .idle)
  | .fail w => some (s.goOn w .idle)

/-! ### What stays of the table -/

/-- Two rows that the table can hold beside each other. -/
def Apart (first second : ReportCategory) : Prop :=
  first.id ≠ second.id ∧
    ¬(first.orgId.isSome = true ∧ first.orgId = second.orgId ∧ first.slug = second.slug)

theorem Apart.symm {first second : ReportCategory} (h : Apart first second) :
    Apart second first := by
  refine ⟨h.1.symm, fun ⟨hsome, horg, hslug⟩ ↦ h.2 ⟨?_, horg.symm, hslug.symm⟩⟩
  rw [← horg]
  exact hsome

/-- The same category later on. -/
structure Same (row later : ReportCategory) : Prop where
  fixed : later = { row with isActive := later.isActive }
  active : row.isDefault = true → row.isActive = true → later.isActive = true

/-- Every category is still there. -/
def Kept (rows later : List ReportCategory) : Prop :=
  ∀ row ∈ rows, ∃ found ∈ later, Same row found

theorem Same.refl (row : ReportCategory) : Same row row := ⟨rfl, fun _ h ↦ h⟩

theorem Same.trans {row later last : ReportCategory} (h : Same row later)
    (hlater : Same later last) : Same row last := by
  refine ⟨?_, fun hdefault hactive ↦ hlater.active ?_ (h.active hdefault hactive)⟩
  · have hfixed := hlater.fixed
    rw [h.fixed] at hfixed
    exact hfixed
  · rw [h.fixed]
    exact hdefault

theorem Same.id {row later : ReportCategory} (h : Same row later) : later.id = row.id := by
  rw [h.fixed]

theorem Same.slug {row later : ReportCategory} (h : Same row later) : later.slug = row.slug := by
  rw [h.fixed]

theorem Same.orgId {row later : ReportCategory} (h : Same row later) : later.orgId = row.orgId := by
  rw [h.fixed]

theorem Same.isDefault {row later : ReportCategory} (h : Same row later) :
    later.isDefault = row.isDefault := by
  rw [h.fixed]

theorem Same.labelFor {row later : ReportCategory} (h : Same row later) (lang : String) :
    later.labelFor texts lang = row.labelFor texts lang := by
  rw [h.fixed]
  rfl

theorem Kept.refl (rows : List ReportCategory) : Kept rows rows :=
  fun row hrow ↦ ⟨row, hrow, .refl row⟩

theorem Kept.trans {rows later last : List ReportCategory} (h : Kept rows later)
    (hlater : Kept later last) : Kept rows last := by
  intro row hrow
  obtain ⟨found, hfound, hsame⟩ := h row hrow
  obtain ⟨kept, hkept, hlast⟩ := hlater found hfound
  exact ⟨kept, hkept, hsame.trans hlast⟩

/-- The category of a report is in the table, in the report's organisation. -/
def Filed (rows : List ReportCategory) (report : Report) : Prop :=
  report.orgId.isSome = true ∧
    ∃ row ∈ rows, row.orgId = report.orgId ∧ row.slug = report.category

theorem Filed.kept {rows later : List ReportCategory} {report : Report} (h : Filed rows report)
    (hkept : Kept rows later) : Filed later report := by
  obtain ⟨hsome, row, hrow, horg, hslug⟩ := h
  obtain ⟨found, hfound, hsame⟩ := hkept row hrow
  exact ⟨hsome, found, hfound, hsame.orgId.trans horg, hsame.slug.trans hslug⟩

/-- What a request that has looked knows of the table at any later time. -/
def Phase.Sound (rows : List ReportCategory) : Phase → Prop
  | .idle => True
  | .creating row => row.labelEn ≠ ""
  | .switching id active => ∃ row ∈ rows, row.id = id ∧ (active = false → row.isDefault = false)
  | .filing report => Filed rows report

theorem Phase.Sound.kept {rows later : List ReportCategory} {phase : Phase}
    (h : phase.Sound rows) (hkept : Kept rows later) : phase.Sound later := by
  cases phase with
  | idle => trivial
  | creating row => exact h
  | switching id active =>
    obtain ⟨row, hrow, hid, hdefault⟩ := h
    obtain ⟨found, hfound, hsame⟩ := hkept row hrow
    exact ⟨found, hfound, hsame.id.trans hid,
      fun hactive ↦ hsame.isDefault.trans (hdefault hactive)⟩
  | filing report => exact Filed.kept h hkept

structure Sound (s : State) : Prop where
  apart : s.rows.Pairwise Apart
  labelled : ∀ row ∈ s.rows, row.labelEn ≠ ""
  filed : ∀ report ∈ s.reports, Filed s.rows report
  workers : ∀ w, (s.workers w).Sound s.rows

variable {texts multiTenancyEnabled} {s t : State}

theorem eq_of_apart {rows : List ReportCategory} (h : rows.Pairwise Apart)
    {row other : ReportCategory} (hrow : row ∈ rows) (hother : other ∈ rows)
    (hnot : ¬Apart row other) : row = other := by
  have : Std.Symm Apart := ⟨fun _ _ hapart ↦ hapart.symm⟩
  by_contra hne
  exact hnot (h.forall hrow hother hne)

theorem eq_of_id {rows : List ReportCategory} (h : rows.Pairwise Apart) {row other : ReportCategory}
    (hrow : row ∈ rows) (hother : other ∈ rows) (hid : row.id = other.id) : row = other :=
  eq_of_apart h hrow hother fun hapart ↦ hapart.1 hid

theorem eq_of_slug {rows : List ReportCategory} (h : rows.Pairwise Apart)
    {row other : ReportCategory} (hrow : row ∈ rows) (hother : other ∈ rows)
    (hsome : row.orgId.isSome = true) (horg : row.orgId = other.orgId)
    (hslug : row.slug = other.slug) : row = other :=
  eq_of_apart h hrow hother fun hapart ↦ hapart.2 ⟨hsome, horg, hslug⟩

/-! ### What a look finds -/

theorem createCategory_eq_ok {defaultOrgId : Option ℕ} {user : AdminUser} {form : Form} {id : ℕ}
    {rows : List ReportCategory} {row : ReportCategory}
    (h : createCategory texts defaultOrgId user form id rows = .ok row) :
    row.labelEn ≠ "" ∧ row.orgId = user.orgId.or defaultOrgId := by
  simp only [createCategory] at h
  split at h
  next => cases h
  next hform =>
    split at h
    next => cases h
    next => cases h
    next =>
      cases h
      exact ⟨fun hlabel ↦ hform (.inr (.inl hlabel)), rfl⟩

theorem switchCategory_eq_ok {active : Bool} {user : AdminUser} {id : ℕ}
    {rows : List ReportCategory} {row : ReportCategory}
    (h : switchCategory multiTenancyEnabled active user id rows = .ok row) :
    row ∈ rows ∧ sameOrg multiTenancyEnabled user row.orgId = true ∧
      (active = false → row.isDefault = false) := by
  simp only [switchCategory] at h
  split at h
  next => cases h
  next found hfound =>
    split at h
    next => cases h
    next hsame =>
      split at h
      next => cases h
      next hspared =>
        cases h
        exact ⟨List.mem_of_find?_eq_some hfound, Bool.eq_true_of_not_eq_false hsame,
          fun hactive ↦ Bool.eq_false_iff.mpr fun hdefault ↦ hspared ⟨hactive, hdefault⟩⟩

/-- What holds of an idle request and of one that adds the row that a look has led to. -/
theorem afterCreate_cases {property : Phase → Prop} {looked : Except ℕ ReportCategory}
    (hidle : property .idle) (hcreating : ∀ row, looked = .ok row → property (.creating row)) :
    property (afterCreate looked) := by
  cases looked with
  | error status => exact hidle
  | ok row => exact hcreating row rfl

theorem afterSwitch_cases {property : Phase → Prop} {active : Bool}
    {looked : Except ℕ ReportCategory} (hidle : property .idle)
    (hswitching : ∀ row, looked = .ok row → property (.switching row.id active)) :
    property (afterSwitch active looked) := by
  cases looked with
  | error status => exact hidle
  | ok row =>
    by_cases hactive : row.isActive = active
    · simp only [afterSwitch, if_pos hactive]
      exact hidle
    · simp only [afterSwitch, if_neg hactive]
      exact hswitching row rfl

theorem sound_afterCreate {defaultOrgId : Option ℕ} {user : AdminUser} {form : Form} {id : ℕ}
    (rows : List ReportCategory) :
    (afterCreate (createCategory texts defaultOrgId user form id rows)).Sound rows :=
  afterCreate_cases trivial fun _ hlooked ↦ (createCategory_eq_ok hlooked).1

theorem sound_afterSwitch {active : Bool} {user : AdminUser} {id : ℕ}
    (rows : List ReportCategory) :
    (afterSwitch active (switchCategory multiTenancyEnabled active user id rows)).Sound rows := by
  refine afterSwitch_cases trivial fun row hlooked ↦ ?_
  obtain ⟨hrow, -, hdefault⟩ := switchCategory_eq_ok hlooked
  exact ⟨row, hrow, rfl, hdefault⟩

theorem filed_of_offered {orgId : Option ℕ} {category : String} {rows : List ReportCategory}
    (hsome : orgId.isSome = true) (hoffered : category ∈ offered texts true orgId rows) :
    Filed rows ⟨orgId, category⟩ := by
  obtain ⟨row, hrow, hslug⟩ := List.mem_map.mp hoffered
  have hfound := List.mem_filter.mp ((List.mem_insertionSort _).mp hrow)
  have horg : row.orgId = orgId := by
    have hscoped := hfound.2
    simp only [Bool.not_true, Bool.false_or, Bool.and_eq_true, decide_eq_true_eq] at hscoped
    exact hscoped.2
  exact ⟨hsome, row, hfound.1, horg, hslug⟩

/-! ### What a write leaves -/

theorem apart_of_not_conflicts {row other : ReportCategory} (h : s.conflicts row = false)
    (hother : other ∈ s.rows) : Apart row other := by
  have hnone := List.any_eq_false.mp h other hother
  simp only [Bool.or_eq_true, Bool.and_eq_true, decide_eq_true_eq, not_or, not_and] at hnone
  refine ⟨fun hid ↦ hnone.1 hid.symm, fun ⟨hsome, horg, hslug⟩ ↦ ?_⟩
  exact hnone.2 ⟨hsome, horg.symm⟩ hslug.symm

theorem Sound.kept_switch (h : Sound s) {id : ℕ} {active : Bool}
    (hphase : (Phase.switching id active).Sound s.rows) :
    Kept s.rows (s.switch id active).rows := by
  intro row hrow
  refine ⟨_, List.mem_map_of_mem hrow, ?_⟩
  obtain ⟨target, htarget, hid, hdefault⟩ := hphase
  by_cases hat : row.id = id
  · rw [if_pos hat]
    refine ⟨rfl, fun hbuilt _ ↦ ?_⟩
    have hrow_eq := eq_of_id h.apart hrow htarget (hat.trans hid.symm)
    cases active with
    | true => rfl
    | false =>
      rw [hrow_eq, hdefault rfl] at hbuilt
      cases hbuilt
  · rw [if_neg hat]
    exact .refl row

/-- Every write keeps the categories. -/
theorem Sound.kept_write (h : Sound s) {phase : Phase} (hphase : phase.Sound s.rows) :
    Kept s.rows (s.write phase).rows := by
  cases phase with
  | idle => exact .refl _
  | creating row =>
    cases hconflicts : s.conflicts row with
    | true =>
      simp only [State.write, hconflicts, if_true]
      exact .refl _
    | false =>
      simp only [State.write, hconflicts, Bool.false_eq_true, if_false]
      exact fun kept hkept ↦ ⟨kept, List.mem_cons_of_mem _ hkept, .refl kept⟩
  | switching id active => exact h.kept_switch hphase
  | filing report => exact .refl _

theorem apart_switch (h : s.rows.Pairwise Apart) (id : ℕ) (active : Bool) :
    (s.switch id active).rows.Pairwise Apart := by
  refine List.Pairwise.map _ (fun first second hapart ↦ ?_) h
  by_cases hfirst : first.id = id
  · by_cases hsecond : second.id = id
    · exact absurd (hfirst.trans hsecond.symm) hapart.1
    · rw [if_pos hfirst, if_neg hsecond]
      exact hapart
  · by_cases hsecond : second.id = id
    · rw [if_neg hfirst, if_pos hsecond]
      exact hapart
    · rw [if_neg hfirst, if_neg hsecond]
      exact hapart

theorem Sound.write (h : Sound s) {phase : Phase} (hphase : phase.Sound s.rows) :
    Sound (s.write phase) := by
  have hkept := h.kept_write hphase
  cases phase with
  | idle => exact h
  | creating row =>
    cases hconflicts : s.conflicts row with
    | true => simpa only [State.write, hconflicts, if_true] using h
    | false =>
      simp only [State.write, hconflicts, Bool.false_eq_true, if_false] at hkept ⊢
      refine ⟨List.pairwise_cons.mpr ⟨fun other ↦ apart_of_not_conflicts hconflicts, h.apart⟩, ?_,
        fun report hreport ↦ (h.filed report hreport).kept hkept, fun w ↦ (h.workers w).kept hkept⟩
      intro other hother
      rcases List.mem_cons.mp hother with rfl | hold
      · exact hphase
      · exact h.labelled other hold
  | switching id active =>
    refine ⟨apart_switch h.apart id active, fun row hrow ↦ ?_,
      fun report hreport ↦ (h.filed report hreport).kept hkept, fun w ↦ (h.workers w).kept hkept⟩
    obtain ⟨old, hold, rfl⟩ := List.mem_map.mp hrow
    have hlabel := h.labelled old hold
    split <;> exact hlabel
  | filing report =>
    refine ⟨h.apart, h.labelled, fun filed hfiled ↦ ?_, h.workers⟩
    rcases List.mem_cons.mp hfiled with rfl | hold
    · exact hphase
    · exact h.filed filed hold

/-- What holds of every other request, and of one in its new phase, holds of all of them. -/
theorem forall_workers {property : Phase → Prop} {workers : ℕ → Phase} {w : ℕ} {phase : Phase}
    (hothers : ∀ v, v ≠ w → property (workers v)) (hphase : property phase) (v : ℕ) :
    property (Function.update workers w phase v) := by
  by_cases hv : v = w
  · rw [hv, Function.update_self]
    exact hphase
  · rw [Function.update_of_ne hv]
    exact hothers v hv

theorem Sound.goOn (h : Sound s) {w : ℕ} {phase : Phase} (hphase : phase.Sound s.rows) :
    Sound (s.goOn w phase) :=
  ⟨h.apart, h.labelled, h.filed, forall_workers (fun v _ ↦ h.workers v) hphase⟩

/-- One step keeps the invariant and every category. -/
theorem sound_step {event : Event} (h : Sound s) (hstep : step texts true s event = some t) :
    Sound t ∧ Kept s.rows t.rows := by
  cases event with
  | create w defaultOrgId user form id =>
    simp only [step, Option.ite_none_right_eq_some, Option.some.injEq] at hstep
    obtain ⟨-, rfl⟩ := hstep
    exact ⟨h.goOn (sound_afterCreate s.rows), .refl _⟩
  | deactivate w user id =>
    simp only [step, Option.ite_none_right_eq_some, Option.some.injEq] at hstep
    obtain ⟨-, rfl⟩ := hstep
    exact ⟨h.goOn (sound_afterSwitch s.rows), .refl _⟩
  | reactivate w user id =>
    simp only [step, Option.ite_none_right_eq_some, Option.some.injEq] at hstep
    obtain ⟨-, rfl⟩ := hstep
    exact ⟨h.goOn (sound_afterSwitch s.rows), .refl _⟩
  | submit w orgId category =>
    simp only [step, Option.ite_none_right_eq_some, Option.some.injEq] at hstep
    obtain ⟨⟨-, hsome⟩, rfl⟩ := hstep
    refine ⟨h.goOn ?_, .refl _⟩
    split
    next hoffered => exact filed_of_offered (hsome trivial) hoffered
    next => trivial
  | commit w =>
    cases hstep
    exact ⟨(h.write (h.workers w)).goOn trivial, h.kept_write (h.workers w)⟩
  | fail w =>
    cases hstep
    exact ⟨h.goOn trivial, .refl _⟩

theorem sound_run {events : List Event} (h : Sound s)
    (hrun : Machine.run (step texts true) s events = some t) : Sound t ∧ Kept s.rows t.rows := by
  have hstep : ∀ (u : State) (event : Event) (v : State), Sound u ∧ Kept s.rows u.rows →
      step texts true u event = some v → Sound v ∧ Kept s.rows v.rows := by
    intro u event v hu hnext
    obtain ⟨hsound, hkept⟩ := sound_step hu.1 hnext
    exact ⟨hsound, hu.2.trans hkept⟩
  exact Machine.run_invariant_of_step hstep ⟨h, .refl s.rows⟩ hrun

/-! ### What the pages show -/

theorem labelFor_ne_empty {row : ReportCategory} (hlabel : row.labelEn ≠ "") (lang : String) :
    row.labelFor texts lang ≠ "" := by
  unfold ReportCategory.labelFor
  split
  next hde => exact hde.2
  next =>
    split
    next =>
      cases hlocale : (texts.builtIn lang row.slug).filter (· ≠ "") with
      | none => exact hlabel
      | some text => simpa using (Option.filter_eq_some_iff.mp hlocale).2
    next => exact hlabel

/-- A key with one value only is found with that value. -/
theorem lookup_of_only {κ β : Type} [BEq κ] [LawfulBEq κ] {key : κ} {value : β} :
    ∀ {pairs : List (κ × β)}, (key, value) ∈ pairs →
      (∀ pair ∈ pairs, pair.1 = key → pair.2 = value) → pairs.lookup key = some value
  | (found, other) :: rest, hmem, honly => by
    by_cases hkey : found = key
    · subst hkey
      rw [List.lookup_cons_self]
      exact congrArg some (honly _ List.mem_cons_self rfl)
    · have hne : (key == found) = false := beq_eq_false_iff_ne.mpr (Ne.symm hkey)
      have hrest : (key, value) ∈ rest := by
        rcases List.mem_cons.mp hmem with heq | hrest
        · cases heq
          exact absurd rfl hkey
        · exact hrest
      rw [List.lookup_cons, hne]
      exact lookup_of_only hrest fun pair hpair ↦ honly pair (List.mem_cons_of_mem _ hpair)

/-- A report shows the label of its category. -/
theorem labelOf_eq (h : Sound s) {report : Report} {row : ReportCategory} (hrow : row ∈ s.rows)
    (hsome : report.orgId.isSome = true) (horg : row.orgId = report.orgId)
    (hslug : row.slug = report.category) (lang : String) :
    labelOf texts true lang report s.rows = row.labelFor texts lang := by
  have hmem : ∀ other, other ∈ getAllCategories texts (reportOrg true report.orgId) s.rows ↔
      other ∈ s.rows ∧ other.orgId = report.orgId := by
    intro other
    rw [getAllCategories, List.mem_insertionSort, List.mem_filter]
    exact and_congr_right fun _ ↦ decide_eq_true_iff
  have hlookup : (getCategoryLabels texts lang (reportOrg true report.orgId) s.rows).reverse.lookup
      report.category = some (row.labelFor texts lang) := by
    refine lookup_of_only (List.mem_reverse.mpr ?_) fun pair hpair hkey ↦ ?_
    · exact List.mem_map.mpr ⟨row, (hmem row).mpr ⟨hrow, horg⟩, by rw [hslug]⟩
    · obtain ⟨other, hother, rfl⟩ := List.mem_map.mp (List.mem_reverse.mp hpair)
      obtain ⟨hin, hotherOrg⟩ := (hmem other).mp hother
      rw [eq_of_slug h.apart hin hrow (hotherOrg ▸ hsome) (hotherOrg.trans horg.symm)
        (hkey.trans hslug.symm)]
  have hne : row.labelFor texts lang ≠ "" := labelFor_ne_empty (h.labelled row hrow) lang
  rw [labelOf, categoryLabel, hlookup]
  simp [Option.filter, hne]

/-- A built-in category that is offered stays offered. -/
theorem offered_of_kept {rows later : List ReportCategory} (hkept : Kept rows later)
    {row : ReportCategory} (hrow : row ∈ rows) (hdefault : row.isDefault = true)
    (hactive : row.isActive = true) : row.slug ∈ offered texts true row.orgId later := by
  obtain ⟨found, hfound, hsame⟩ := hkept row hrow
  refine List.mem_map.mpr ⟨found, (List.mem_insertionSort _).mpr ?_, hsame.slug⟩
  refine List.mem_filter.mpr ⟨hfound, ?_⟩
  simp [hsame.active hdefault hactive, hsame.orgId]

/-! ### From the migrations on -/

/-- The categories that the migrations leave, in the default organisation. -/
def builtIns (org : ℕ) : List ReportCategory :=
  [⟨0, "financial_fraud", "Financial Fraud", "Finanzbetrug", true, true, 1, some org⟩,
    ⟨1, "workplace_safety", "Workplace Safety", "Arbeitssicherheit", true, true, 2, some org⟩,
    ⟨2, "environmental", "Environmental Violation", "Umweltverstoß", true, true, 3, some org⟩,
    ⟨3, "corruption", "Corruption / Bribery", "Korruption / Bestechung", true, true, 4, some org⟩,
    ⟨4, "data_protection", "Data Protection Violation", "Datenschutzverstoß", true, true, 5,
      some org⟩,
    ⟨5, "discrimination", "Discrimination / Harassment", "Diskriminierung / Belästigung", true,
      true, 6, some org⟩,
    ⟨6, "other", "Other", "Sonstiges", true, true, 99, some org⟩]

def seeded (org : ℕ) : State := ⟨builtIns org, [], fun _ ↦ .idle⟩

theorem sound_seeded (org : ℕ) : Sound (seeded org) where
  apart := by simp [seeded, builtIns, Apart]
  labelled := by simp [seeded, builtIns]
  filed := fun report hreport ↦ absurd hreport List.not_mem_nil
  workers := fun w ↦ trivial

/-- Whatever admins and reporters do meanwhile, the pages show for a report the label that its
category had when it was filed, and the form of the default organisation offers every built-in
category. -/
theorem categories_of_reports_stay {org : ℕ} {before later : List Event}
    (hbefore : Machine.run (step texts true) (seeded org) before = some s)
    (hlater : Machine.run (step texts true) s later = some t) :
    (∀ report ∈ s.reports, ∃ row ∈ s.rows, row.orgId = report.orgId ∧ row.slug = report.category ∧
      ∀ lang, labelOf texts true lang report s.rows = row.labelFor texts lang ∧
        labelOf texts true lang report t.rows = row.labelFor texts lang) ∧
    ∀ row ∈ builtIns org, row.slug ∈ offered texts true (some org) t.rows := by
  obtain ⟨hs, hseeded⟩ := sound_run (sound_seeded org) hbefore
  obtain ⟨ht, hkept⟩ := sound_run hs hlater
  refine ⟨fun report hreport ↦ ?_, fun row hrow ↦ ?_⟩
  · obtain ⟨hsome, row, hrow, horg, hslug⟩ := hs.filed report hreport
    refine ⟨row, hrow, horg, hslug, fun lang ↦ ⟨labelOf_eq hs hrow hsome horg hslug lang, ?_⟩⟩
    obtain ⟨found, hfound, hsame⟩ := hkept row hrow
    rw [← hsame.labelFor texts lang]
    exact labelOf_eq ht hfound hsome (hsame.orgId.trans horg) (hsame.slug.trans hslug) lang
  · have hbuilt : row.isDefault = true ∧ row.isActive = true ∧ row.orgId = some org := by
      simp only [builtIns, List.mem_cons, List.not_mem_nil, or_false] at hrow
      rcases hrow with rfl | rfl | rfl | rfl | rfl | rfl | rfl <;> exact ⟨rfl, rfl, rfl⟩
    obtain ⟨hdefault, hactive, horg⟩ := hbuilt
    rw [← horg]
    exact offered_of_kept (hseeded.trans hkept) hrow hdefault hactive

/-! ### Other organisations -/

/-- An event by which nobody may change the categories of an organisation. -/
def Event.Foreign (org : ℕ) : Event → Prop
  | .create _ defaultOrgId user _ _ => user.orgId.or defaultOrgId ≠ some org
  | .deactivate _ user _ => user.role ≠ .superadmin ∧ user.orgId ≠ some org
  | .reactivate _ user _ => user.role ≠ .superadmin ∧ user.orgId ≠ some org
  | .submit .. => True
  | .commit _ => True
  | .fail _ => True

/-- What a request has yet to write is no category of the organisation. -/
def Phase.Away (org : ℕ) (rows : List ReportCategory) : Phase → Prop
  | .idle => True
  | .creating row => row.orgId ≠ some org
  | .switching id _ => ∃ row ∈ rows, row.id = id ∧ row.orgId ≠ some org
  | .filing _ => True

/-- The categories of an organisation. -/
def rowsOf (org : ℕ) (rows : List ReportCategory) : List ReportCategory :=
  rows.filter fun row ↦ row.orgId = some org

theorem Phase.Away.kept {org : ℕ} {rows later : List ReportCategory} {phase : Phase}
    (h : phase.Away org rows) (hkept : Kept rows later) : phase.Away org later := by
  cases phase with
  | idle => trivial
  | creating row => exact h
  | switching id active =>
    obtain ⟨row, hrow, hid, horg⟩ := h
    obtain ⟨found, hfound, hsame⟩ := hkept row hrow
    exact ⟨found, hfound, hsame.id.trans hid, fun hfoundOrg ↦ horg (hsame.orgId ▸ hfoundOrg)⟩
  | filing report => trivial

theorem away_afterCreate {org : ℕ} {defaultOrgId : Option ℕ} {user : AdminUser} {form : Form}
    {id : ℕ} (horg : user.orgId.or defaultOrgId ≠ some org) (rows : List ReportCategory) :
    (afterCreate (createCategory texts defaultOrgId user form id rows)).Away org rows := by
  refine afterCreate_cases trivial fun row hlooked ↦ ?_
  have howner := (createCategory_eq_ok hlooked).2
  exact fun hmine ↦ horg (howner.symm.trans hmine)

theorem orgId_eq_of_sameOrg {user : AdminUser} {targetOrgId : Option ℕ}
    (hrole : user.role ≠ .superadmin) (hsame : sameOrg true user targetOrgId = true) :
    targetOrgId = user.orgId := by
  simpa [sameOrg, orgScope, hrole] using hsame

theorem away_afterSwitch {org : ℕ} {active : Bool} {user : AdminUser} {id : ℕ}
    (hrole : user.role ≠ .superadmin) (horg : user.orgId ≠ some org) (rows : List ReportCategory) :
    (afterSwitch active (switchCategory true active user id rows)).Away org rows := by
  refine afterSwitch_cases trivial fun row hlooked ↦ ?_
  obtain ⟨hrow, hsame, -⟩ := switchCategory_eq_ok hlooked
  exact ⟨row, hrow, rfl, orgId_eq_of_sameOrg hrole hsame ▸ horg⟩

theorem Sound.rowsOf_write (h : Sound s) {org : ℕ} {phase : Phase}
    (haway : phase.Away org s.rows) : rowsOf org (s.write phase).rows = rowsOf org s.rows := by
  cases phase with
  | idle => rfl
  | creating row =>
    cases hconflicts : s.conflicts row with
    | true => simp only [State.write, hconflicts, if_true]
    | false =>
      simp only [State.write, hconflicts, Bool.false_eq_true, if_false]
      exact List.filter_cons_of_neg fun hmine ↦ haway (of_decide_eq_true hmine)
  | switching id active =>
    obtain ⟨target, htarget, hid, horg⟩ := haway
    simp only [State.write, State.switch, rowsOf, List.filter_map]
    have howned : s.rows.filter ((fun row ↦ decide (row.orgId = some org)) ∘ fun row ↦
        if row.id = id then { row with isActive := active } else row) =
        s.rows.filter fun row ↦ row.orgId = some org := by
      refine List.filter_congr fun row _ ↦ ?_
      by_cases hat : row.id = id
      · simp [hat]
      · simp [hat]
    rw [howned]
    refine (List.map_congr_left fun row hrow ↦ ?_).trans (List.map_id _)
    obtain ⟨hin, hmine⟩ := List.mem_filter.mp hrow
    -- the row that is written belongs to somebody else
    have hne : row.id ≠ id := by
      intro hat
      rw [eq_of_id h.apart hin htarget (hat.trans hid.symm)] at hmine
      exact horg (of_decide_eq_true hmine)
    exact if_neg hne
  | filing report => rfl

theorem workers_write (phase : Phase) : (s.write phase).workers = s.workers := by
  cases phase with
  | idle => rfl
  | creating row =>
    cases hconflicts : s.conflicts row with
    | true => simp only [State.write, hconflicts, if_true]
    | false => simp only [State.write, hconflicts, Bool.false_eq_true, if_false]
  | switching id active => rfl
  | filing report => rfl

/-- A foreign step leaves the categories of the organisation, and only foreign writes to come. -/
theorem rowsOf_step {org : ℕ} {event : Event} (h : Sound s)
    (haway : ∀ w, (s.workers w).Away org s.rows) (hforeign : event.Foreign org)
    (hstep : step texts true s event = some t) :
    rowsOf org t.rows = rowsOf org s.rows ∧ ∀ w, (t.workers w).Away org t.rows := by
  have hgoOn : ∀ (w : ℕ) (phase : Phase), phase.Away org s.rows →
      ∀ v, ((s.goOn w phase).workers v).Away org s.rows :=
    fun w phase hphase ↦ forall_workers (fun v _ ↦ haway v) hphase
  cases event with
  | create w defaultOrgId user form id =>
    simp only [step, Option.ite_none_right_eq_some, Option.some.injEq] at hstep
    obtain ⟨-, rfl⟩ := hstep
    exact ⟨rfl, hgoOn w _ (away_afterCreate hforeign s.rows)⟩
  | deactivate w user id =>
    simp only [step, Option.ite_none_right_eq_some, Option.some.injEq] at hstep
    obtain ⟨-, rfl⟩ := hstep
    exact ⟨rfl, hgoOn w _ (away_afterSwitch hforeign.1 hforeign.2 s.rows)⟩
  | reactivate w user id =>
    simp only [step, Option.ite_none_right_eq_some, Option.some.injEq] at hstep
    obtain ⟨-, rfl⟩ := hstep
    exact ⟨rfl, hgoOn w _ (away_afterSwitch hforeign.1 hforeign.2 s.rows)⟩
  | submit w orgId category =>
    simp only [step, Option.ite_none_right_eq_some, Option.some.injEq] at hstep
    obtain ⟨-, rfl⟩ := hstep
    refine ⟨rfl, hgoOn w _ ?_⟩
    split <;> trivial
  | commit w =>
    cases hstep
    have hkept := h.kept_write (h.workers w)
    refine ⟨h.rowsOf_write (haway w), forall_workers (fun v _ ↦ ?_) trivial⟩
    rw [workers_write]
    exact (haway v).kept hkept
  | fail w =>
    cases hstep
    exact ⟨rfl, hgoOn w _ trivial⟩

theorem rowsOf_run {org : ℕ} {events : List Event} : ∀ {s : State}, Sound s →
    (∀ w, (s.workers w).Away org s.rows) → (∀ event ∈ events, event.Foreign org) →
    Machine.run (step texts true) s events = some t → rowsOf org t.rows = rowsOf org s.rows := by
  induction events with
  | nil =>
    intro s _ _ _ hrun
    cases hrun
    rfl
  | cons event events ih =>
    intro s hs haway hforeign hrun
    obtain ⟨u, hnext, hrest⟩ := Machine.run_cons_eq_some.mp hrun
    obtain ⟨hrows, hlater⟩ := rowsOf_step hs haway (hforeign event List.mem_cons_self) hnext
    have hrun := ih (sound_step hs hnext).1 hlater
      (fun event hevent ↦ hforeign event (List.mem_cons_of_mem _ hevent)) hrest
    exact hrun.trans hrows

theorem offered_eq (org : ℕ) (rows : List ReportCategory) :
    offered texts true (some org) rows =
      (((rowsOf org rows).filter fun row ↦ row.isActive).insertionSort
        fun first second ↦ inOrder texts first second = true).map ReportCategory.slug := by
  rw [rowsOf, List.filter_filter]
  rfl

/-- As long as no admin of an organisation and no superadmin asks for it, the organisation keeps its
categories as they are, and its form offers what it offered. -/
theorem categories_of_other_orgs_stay {seed org : ℕ} {before later : List Event}
    (hbefore : Machine.run (step texts true) (seeded seed) before = some s)
    (hidle : ∀ w, s.workers w = .idle) (hforeign : ∀ event ∈ later, event.Foreign org)
    (hlater : Machine.run (step texts true) s later = some t) :
    rowsOf org t.rows = rowsOf org s.rows ∧
    offered texts true (some org) t.rows = offered texts true (some org) s.rows := by
  have hs := (sound_run (sound_seeded seed) hbefore).1
  have haway : ∀ w, (s.workers w).Away org s.rows := by
    intro w
    rw [hidle w]
    trivial
  have hrows := rowsOf_run hs haway hforeign hlater
  refine ⟨hrows, ?_⟩
  rw [offered_eq, offered_eq, hrows]

/-! ### A report of each of two organisations, in categories of one slug -/

def plainTexts : Texts := ⟨.ascii, id, fun _ _ ↦ none, fun first second ↦ decide (first ≤ second)⟩

/-- Organisation 1 adds a category of its own and takes it back after a report. -/
def reporting : List Event :=
  [.create 0 (some 0) (adminOf 1) ⟨" Other ", "Anything else", "Alles andere", 50⟩ 7, .commit 0,
    .submit 1 (some 0) "other", .submit 2 (some 1) "other", .commit 1, .commit 2]

def withdrawing : List Event :=
  [.deactivate 0 (adminOf 1) 7, .commit 0, .deactivate 0 (adminOf 0) 6, .commit 0]

theorem categories_of_reports_stay_of_two : ∃ s t,
    Machine.run (step plainTexts true) (seeded 0) reporting = some s ∧
    Machine.run (step plainTexts true) s withdrawing = some t ∧
    s.reports = [⟨some 1, "other"⟩, ⟨some 0, "other"⟩] ∧
    offered plainTexts true (some 1) t.rows = [] ∧
    labelOf plainTexts true "de" ⟨some 1, "other"⟩ t.rows = "Alles andere" ∧
    (∀ report ∈ s.reports, ∃ row ∈ s.rows,
      row.orgId = report.orgId ∧ row.slug = report.category ∧
      ∀ lang, labelOf plainTexts true lang report s.rows = row.labelFor plainTexts lang ∧
        labelOf plainTexts true lang report t.rows = row.labelFor plainTexts lang) ∧
    ∀ row ∈ builtIns 0, row.slug ∈ offered plainTexts true (some 0) t.rows := by
  have hends : ((Machine.run (step plainTexts true) (seeded 0) reporting).bind fun s ↦
      (Machine.run (step plainTexts true) s withdrawing).map fun t ↦
        (s.reports, offered plainTexts true (some 1) t.rows,
          labelOf plainTexts true "de" ⟨some 1, "other"⟩ t.rows)) =
      some ([⟨some 1, "other"⟩, ⟨some 0, "other"⟩], [], "Alles andere") := by
    decide +kernel
  obtain ⟨s, hbefore, hends⟩ := Option.bind_eq_some_iff.mp hends
  obtain ⟨t, hlater, hshown⟩ := Option.map_eq_some_iff.mp hends
  obtain ⟨hreports, hshown⟩ := Prod.mk.inj hshown
  obtain ⟨hoffered, hlabel⟩ := Prod.mk.inj hshown
  exact ⟨s, t, hbefore, hlater, hreports, hoffered, hlabel,
    categories_of_reports_stay hbefore hlater⟩

/-- Organisation 1 adds a category, and tries to take one of organisation 0's away. -/
def meddling : List Event :=
  [.create 0 (some 0) (adminOf 1) ⟨"other", "Anything else", "Alles andere", 50⟩ 7, .commit 0,
    .deactivate 1 (adminOf 1) 6, .commit 1]

theorem categories_of_other_orgs_stay_of_one : ∃ t,
    Machine.run (step plainTexts true) (seeded 0) meddling = some t ∧
    offered plainTexts true (some 1) t.rows = ["other"] ∧
    rowsOf 0 t.rows = rowsOf 0 (builtIns 0) ∧
    offered plainTexts true (some 0) t.rows = offered plainTexts true (some 0) (builtIns 0) := by
  have hends : (Machine.run (step plainTexts true) (seeded 0) meddling).map
      (fun t ↦ offered plainTexts true (some 1) t.rows) = some ["other"] := by
    decide +kernel
  have hbefore : Machine.run (step plainTexts true) (seeded 0) [] = some (seeded 0) := rfl
  have hforeign : ∀ event ∈ meddling, event.Foreign 0 := by
    simp [meddling, Event.Foreign, adminOf]
  obtain ⟨t, hlater, hoffered⟩ := Option.map_eq_some_iff.mp hends
  exact ⟨t, hlater, hoffered,
    categories_of_other_orgs_stay hbefore (fun _ ↦ rfl) hforeign hlater⟩

end OpenWhistle.Catalogue
