import OpenWhistle.Records.CreateReport
import OpenWhistle.Submission.Wizard

/-!
# The report of a draft

A final submit hands the answers of its draft to `create_report`, which tries case numbers until one
is free. What comes of it is told in one step by `Records.createReport`: the loop over savepoints
files the same report where its errors are those of the unique index on the case numbers. The columns
that may identify the reporter hold what the wizard names, each text sealed.
-/

set_option autoImplicit false
set_option relaxedAutoImplicit false

namespace OpenWhistle.Records

open Identity (sealToken)
open Reporter (generateCaseNumber)
open Submission (Draft Office SubmissionMode identityColumns)

variable {Hash Rest : Type} {site : Site Hash}

/-! ### The columns that identify the reporter -/

/-- The answers as the final submit reads them. `none` where an entry is missing that it needs. -/
def formOf (orgId locationId : Option String) (files : List File) (answers : Draft) :
    Option Form := do
  let mode ← answers.submissionMode
  let category ← answers.category
  let description ← answers.description
  return {
    orgId := orgId
    category := category
    description := description
    mode := mode
    locationId := locationId
    name := answers.confidentialName.getD ""
    contact := answers.confidentialContact.getD ""
    email := answers.secureEmail.getD ""
    files := files }

/-- An entry with something in it, stripped. -/
def filled (entry : Option String) : Option String :=
  (entry.map Text.strip).filter fun text ↦ decide (text ≠ "")

theorem sealedField_getD (form : Form) (entry : Option String) (wanted : Bool) (iv : ℕ) :
    sealedField site form (entry.getD "") wanted iv =
      if form.mode = .confidential ∧ wanted = true then
        (filled entry).map fun text ↦ sealToken site.keys.root text iv
      else none := by
  have hempty : Text.strip "" = "" := rfl
  unfold sealedField filled
  cases entry with
  | none =>
    rw [Option.getD_none, hempty]
    simp
  | some text =>
    rw [Option.getD_some, Option.map_some, Option.filter_some]
    by_cases hfilled : Text.strip text = ""
    · simp [hfilled]
    · rw [if_pos (decide_eq_true hfilled)]
      simp [hfilled]

/-- The columns of a report hold what the wizard names for them, sealed. -/
theorem columns_of_createReport (office : Office) {db : Database Hash Rest} {id : String}
    {chance : Chance} {clock : Reading → ℕ} {orgId locationId : Option String} {files : List File}
    {answers : Draft} {form : Form} {report : Report Hash} {receipt : Message}
    (hmail : office.notifyEmailEnabled = site.notifyEmailEnabled)
    (hform : formOf orgId locationId files answers = some form)
    (hreport : createReport site db id form chance clock = some (report, receipt)) :
    report.confidentialName = (identityColumns office answers).1.map
        (fun text ↦ sealToken site.keys.root text (chance.iv .name)) ∧
      report.confidentialContact = (identityColumns office answers).2.1.map
        (fun text ↦ sealToken site.keys.root text (chance.iv .contact)) ∧
      report.secureEmail = (identityColumns office answers).2.2.map
        (fun text ↦ sealToken site.keys.root text (chance.iv .email)) := by
  obtain ⟨mode, hmode, hform⟩ := Option.bind_eq_some_iff.mp hform
  obtain ⟨category, -, hform⟩ := Option.bind_eq_some_iff.mp hform
  obtain ⟨description, -, hform⟩ := Option.bind_eq_some_iff.mp hform
  cases hform
  unfold createReport at hreport
  obtain ⟨fernet, -, hreport⟩ := Option.bind_eq_some_iff.mp hreport
  split_ifs at hreport
  obtain ⟨number, -, hreport⟩ := Option.bind_eq_some_iff.mp hreport
  cases hreport
  dsimp only
  rw [sealedField_getD, sealedField_getD, sealedField_getD]
  unfold identityColumns
  rw [hmode, hmail]
  by_cases hconfidential : mode = .confidential
  · subst hconfidential
    cases site.notifyEmailEnabled with
    | true => exact ⟨rfl, rfl, rfl⟩
    | false => exact ⟨rfl, rfl, rfl⟩
  · have hother : some mode ≠ some SubmissionMode.confidential :=
      fun h ↦ hconfidential (Option.some.inj h)
    rw [if_neg hother]
    exact ⟨if_neg fun h ↦ hconfidential h.1, if_neg fun h ↦ hconfidential h.1,
      if_neg fun h ↦ hconfidential h.1⟩

/-- Whatever report is filed with the answers, nothing in it identifies the reporter. -/
def FiledUnnamed (answers : Draft) : Prop :=
  ∀ (Hash Rest : Type) (site : Site Hash) (db : Database Hash Rest) (id : String) (chance : Chance)
    (clock : Reading → ℕ) (orgId locationId : Option String) (files : List File) (form : Form)
    (report : Report Hash) (receipt : Message),
    formOf orgId locationId files answers = some form →
      createReport site db id form chance clock = some (report, receipt) →
        report.confidentialName = none ∧ report.confidentialContact = none ∧
          report.secureEmail = none

theorem filedUnnamed_of_columns {answers : Draft}
    (h : ∀ office, identityColumns office answers = (none, none, none)) : FiledUnnamed answers := by
  intro Hash Rest site db id chance clock orgId locationId files form report receipt hform hreport
  have hcolumns := columns_of_createReport
    ⟨true, site.notifyEmailEnabled, [], fun _ ↦ none, fun _ ↦ none, true⟩ rfl hform hreport
  rwa [h] at hcolumns

/-! ### The case number -/

section Numbers

variable {chance : Chance} {clock : Reading → ℕ} {free : String → Bool}

/-- The case number of an attempt. -/
def numberOf (chance : Chance) (clock : Reading → ℕ) (attempt : ℕ) : String :=
  generateCaseNumber (dateOf (clock (.numbered attempt))).year (chance.suffix attempt)

theorem find?_caseNumbers {k : ℕ} (hk : k < 5)
    (hbefore : ∀ j < k, free (numberOf chance clock j) = false)
    (hfree : free (numberOf chance clock k) = true) :
    (caseNumbers chance clock).find? free = some (numberOf chance clock k) := by
  have hfirst : (List.range 5).find? (free ∘ numberOf chance clock) = some k :=
    List.find?_range_eq_some.mpr ⟨hfree, List.mem_range.mpr hk, fun j hj ↦ by simp [hbefore j hj]⟩
  rw [caseNumbers, List.find?_map]
  exact congrArg (Option.map (numberOf chance clock)) hfirst

theorem find?_caseNumbers_eq_none (hnone : ∀ j < 5, free (numberOf chance clock j) = false) :
    (caseNumbers chance clock).find? free = none := by
  refine List.find?_eq_none.mpr fun number hnumber ↦ ?_
  obtain ⟨j, hj, rfl⟩ := List.mem_map.mp hnumber
  exact Bool.eq_false_iff.mp (hnone j (List.mem_range.mp hj))

end Numbers

/-! ### The loop, on a table with its index -/

/-- What a final submit passes to `create_report`. -/
def requestOf (site : Site Hash) (form : Form) (id : String) (chance : Chance) :
    Creation.Request where
  category := form.category
  description := Text.strip form.description
  submissionMode := form.mode
  locationId := form.locationId
  confidentialNameEnc := sealedField site form form.name true (chance.iv .name)
  confidentialContactEnc := sealedField site form form.contact true (chance.iv .contact)
  secureEmailEnc := sealedField site form form.email site.notifyEmailEnabled (chance.iv .email)
  commit := false
  reportId := some id
  orgId := form.orgId

/-- The error of a second report with one case number. -/
def collision : Creation.DbError where
  integrity := true
  cause := some ⟨some "23505", some "ix_reports_case_number"⟩

/-- No report has the case number. -/
def isFree (db : Database Hash Rest) (number : String) : Bool :=
  db.reports.all fun row ↦ decide (row.caseNumber ≠ number)

/-- What the inserts of the attempts come to where the case number is all that may be taken. -/
def indexed (db : Database Hash Rest) (chance : Chance) (clock : Reading → ℕ) (attempt : ℕ) :
    Option Creation.DbError × Option Creation.DbError :=
  (if isFree db (numberOf chance clock attempt) = true then none else some collision, none)

theorem failure_indexed {db : Database Hash Rest} {chance : Chance} {clock : Reading → ℕ}
    {attempt : ℕ} : Creation.failure (indexed db chance clock) attempt =
      if isFree db (numberOf chance clock attempt) = true then none else some collision := by
  unfold Creation.failure indexed
  cases isFree db (numberOf chance clock attempt) <;> rfl

theorem collides_indexed {db : Database Hash Rest} {chance : Chance} {clock : Reading → ℕ}
    {attempt : ℕ} :
    Creation.Collides (indexed db chance clock) attempt ↔
      isFree db (numberOf chance clock attempt) = false := by
  unfold Creation.Collides
  rw [failure_indexed]
  cases isFree db (numberOf chance clock attempt) with
  | true =>
    refine ⟨?_, nofun⟩
    rintro ⟨error, herror, -⟩
    cases herror
  | false => exact ⟨fun _ ↦ rfl, fun _ ↦ ⟨collision, rfl, rfl, by decide⟩⟩

section Loop

variable {db : Database Hash Rest} {form : Form} {id : String} {draws : Creation.Draws}
  {clock : Reading → ℕ} {prepared : Creation.Prepared Hash}

/-- The report is the one of an attempt, with the first case number that is free. -/
theorem createReport_fst (hnew : db.report id = none)
    (hprepared : Creation.prepare site (requestOf site form id draws.chance) draws clock db =
      some prepared) :
    (createReport site db id form draws.chance clock).map Prod.fst =
      ((caseNumbers draws.chance clock).find? (isFree db)).map fun number ↦
        { Creation.reportOf (requestOf site form id draws.chance) draws clock prepared 0 with
          caseNumber := number } := by
  have hdek := Creation.makeReportFernet_sealToken site draws.chance.dek (draws.chance.iv .dek)
  simp only [Creation.prepare, hdek, Option.map_some] at hprepared
  cases hprepared
  simp only [createReport, hdek, hnew, Option.bind_eq_bind, Option.bind_some, Option.isSome_none]
  rw [if_neg Bool.false_ne_true]
  change Option.map _ (((caseNumbers draws.chance clock).find? (isFree db)).bind _) = _
  cases (caseNumbers draws.chance clock).find? (isFree db) with
  | none => rfl
  | some number => rfl

/-- The loop files the report that `Records.createReport` makes, or raises where there is none. -/
theorem createReport_indexed {session : Savepoints.Session (Database Hash Rest)}
    (hsound : session.transaction.failed = false) (hnew : session.work.report id = none) :
    (Creation.createReport site (requestOf site form id draws.chance) draws clock
        (indexed session.work draws.chance clock) session).2.toOption.map Prod.fst =
      (createReport site session.work id form draws.chance clock).map Prod.fst := by
  obtain ⟨prepared, hprepared, -⟩ := Creation.exists_prepare site
    (requestOf site form id draws.chance) draws clock session.work
  have houtcome : Creation.Outcome (requestOf site form id draws.chance) draws clock
      (indexed session.work draws.chance clock) prepared 0 5 session
      (Creation.createReport site (requestOf site form id draws.chance) draws clock
        (indexed session.work draws.chance clock) session) := by
    unfold Creation.createReport
    rw [hprepared]
    exact Creation.attempts_outcome 4 0 none hsound
  rw [createReport_fst hnew hprepared]
  generalize Creation.createReport site (requestOf site form id draws.chance) draws clock
    (indexed session.work draws.chance clock) session = ended at houtcome ⊢
  cases houtcome with
  | @filed k after hk hnone hfiled =>
    obtain ⟨-, hless, hbefore⟩ := hk
    have hfree : isFree session.work (numberOf draws.chance clock k) = true := by
      by_contra htaken
      rw [failure_indexed, if_neg htaken] at hnone
      cases hnone
    rw [find?_caseNumbers (by omega)
      (fun j hj ↦ collides_indexed.mp (hbefore j (Nat.zero_le j) hj)) hfree]
    rfl
  | @raised k error after hk herror hlast hafter =>
    obtain ⟨-, hless, hbefore⟩ := hk
    have hcollides : Creation.Collides (indexed session.work draws.chance clock) k := by
      refine collides_indexed.mpr (Bool.eq_false_iff.mpr fun hfree ↦ ?_)
      rw [failure_indexed, if_pos hfree] at herror
      cases herror
    have hlast := hlast hcollides
    rw [find?_caseNumbers_eq_none fun j hj ↦ ?_]
    · rfl
    · rcases Nat.lt_or_ge j k with hjk | hjk
      · exact collides_indexed.mp (hbefore j (Nat.zero_le j) hjk)
      · obtain rfl : j = k := by omega
        exact collides_indexed.mp hcollides

end Loop

end OpenWhistle.Records
