import OpenWhistle.Foundation.Text
import OpenWhistle.Submission.Submit

/-!
# The steps of the wizard

What a POST of the wizard makes of a draft: the steps of `submit_post`, the checks they share with
the final submit, and the exits that keep a rejected input for editing. What a request reads of the
settings, the locations and the categories is an input of that request, so they may change in any
way from one request to the next.

`Sound` is what the steps keep of a draft, `Ready` what a draft has that reached the review step.
-/

set_option autoImplicit false
set_option relaxedAutoImplicit false

namespace OpenWhistle.Submission

def stepDescription : ℕ := 4

/-- A location, as `get_location_by_id` finds it. -/
structure Location where
  isActive : Bool
  orgId : Option OrgId

/-- What a request reads: the settings, the slugs of the active categories, the locations by id, the
ids that `uuid.UUID` accepts, in their canonical form, and whether Redis has room for an upload. -/
structure Office where
  submissionModeEnabled : Bool
  notifyEmailEnabled : Bool
  categories : List String
  location : String → Option Location
  uuid : String → Option String
  room : Bool

/-- What `read_upload_files` makes of the uploaded files. -/
inductive Upload
  | rejected (reason : String)
  | files (files : List DraftFile)

/-- The form of a POST. -/
structure Form where
  action : String
  step : Int
  submissionMode : String
  confidentialName : String
  confidentialContact : String
  secureEmail : String
  locationId : String
  category : String
  description : String
  upload : Upload

/-! ### The checks -/

def SubmissionMode.ofForm (text : String) : Option SubmissionMode :=
  if text = "anonymous" then some .anonymous
  else if text = "confidential" then some .confidential
  else none

/-- `_mode_error`. -/
def modeError (enabled : Bool) (mode : Option SubmissionMode) : Option ErrorCode :=
  let allowed := if enabled then [SubmissionMode.anonymous, .confidential] else [.anonymous]
  if mode.any fun chosen ↦ allowed.contains chosen then none else some .modeRequired

/-- `_location_error`. -/
def locationError (office : Office) (tenant : Tenant) (locationId : Option String) :
    Option ErrorCode :=
  let chosen := locationId.getD ""
  if chosen = "" then none
  else
    match (office.uuid chosen).bind office.location with
    | none => some .invalidLocation
    | some found =>
      if !found.isActive ∨ tenant.isScoped ∧ found.orgId ≠ tenant.orgId then some .invalidLocation
      else none

/-- `_category_error`. -/
def categoryError (category : Option String) (slugs : List String) : Option ErrorCode :=
  if category.any fun slug ↦ slugs.contains slug then none else some .categoryRequired

/-- `_description_error`. -/
def descriptionError (description : Option String) : Option ErrorCode :=
  let length := (description.map fun text ↦ (Text.strip text).length).getD 0
  if length < 10 then some .descriptionTooShort
  else if length > 10000 then some .descriptionTooLong
  else none

/-- `_draft_error`: the first step whose value no longer passes its own check. -/
def draftErrorOf (office : Office) (tenant : Tenant) (hasLocations : Bool) (state : Draft) :
    Option (ℕ × ErrorCode) :=
  [(stepMode, modeError office.submissionModeEnabled state.submissionMode),
    (stepLocation, if hasLocations then locationError office tenant state.locationId else none),
    (stepCategory, categoryError state.category office.categories),
    (stepDescription, descriptionError state.description)].findSome? fun check ↦
      check.2.map fun error ↦ (check.1, error)

def isEmailLocal (c : Char) : Bool :=
  c.isAlphanum || ".!#$%&\x27*+/=?^_\x60\x7b|\x7d~-".toList.contains c

/-- One label of a domain: letters, digits and inner hyphens, at most 63 of them. -/
def isEmailLabel : List Char → Bool
  | [] => false
  | first :: rest =>
    first.isAlphanum && decide (rest.length ≤ 62) &&
      (rest.all fun c ↦ c.isAlphanum || c == '-') && (rest.getLast?.all Char.isAlphanum)

/-- `_valid_email`. -/
def validEmail (address : String) : Bool :=
  let before := address.toList.takeWhile (· ≠ '@')
  match address.toList.dropWhile (· ≠ '@') with
  | [] => false
  | _ :: domain =>
    !before.isEmpty && before.all isEmailLocal &&
      decide (2 ≤ (domain.splitOn '.').length) && (domain.splitOn '.').all isEmailLabel

/-! ### The steps -/

/-- What an attached file is listed as. -/
def DraftFile.entry (file : DraftFile) : String × ℕ := (file.filename, file.data.length)

namespace Draft

/-- `_fail` with the errors of single fields. -/
def rejected (state : Draft) (stepNo : ℕ) (error : ErrorCode) (field reason : String) : Draft :=
  { state.flagged stepNo error with flashFieldErrors := some [(field, reason)] }

/-- The organisation of a draft is fixed by the first wizard that saves it. -/
def joined (state : Draft) (tenant : Tenant) : Draft :=
  if tenant.isScoped then { state with orgId := state.orgId.orElse fun _ ↦ tenant.orgId } else state

/-- A POST that does not match the progress of the session. -/
def stale (state : Draft) : Draft :=
  { state with
    step := some (state.step.getD stepMode)
    flashError := if state.isEmpty then some .sessionIncomplete else state.flashError }

def back (state : Draft) (hasLocations : Bool) : Draft :=
  let prev := state.step.getD stepMode - 1
  let prev := if !hasLocations ∧ prev = stepLocation then stepMode else prev
  { state with step := some (max stepMode prev) }

/-- Step 1. An anonymous draft keeps nothing that identifies the reporter. -/
def withMode (state : Draft) (office : Office) (hasLocations : Bool) (form : Form) : Draft :=
  let effective :=
    if office.submissionModeEnabled then SubmissionMode.ofForm form.submissionMode
    else some .anonymous
  let next := if hasLocations then stepLocation else stepCategory
  match modeError office.submissionModeEnabled effective with
  | some error => state.flagged stepMode error
  | none =>
    if effective = some .confidential then
      let email := if office.notifyEmailEnabled then Text.strip form.secureEmail else ""
      let chosen := { state with
        submissionMode := effective
        confidentialName := some (Text.strip form.confidentialName)
        confidentialContact := some (Text.strip form.confidentialContact)
        secureEmail := some email }
      if email ≠ "" ∧ !validEmail email then chosen.flagged stepMode .emailInvalid
      else { chosen with step := some next }
    else
      { state with
        submissionMode := effective
        confidentialName := none
        confidentialContact := none
        secureEmail := none
        step := some next }

/-- Step 2, skipped where there are no locations. -/
def withLocation (state : Draft) (office : Office) (tenant : Tenant) (hasLocations : Bool)
    (form : Form) : Draft :=
  if hasLocations then
    let chosen := Text.strip form.locationId
    match locationError office tenant (some chosen) with
    | some error => state.flagged stepLocation error
    | none => { state with
        locationId := if chosen = "" then none else office.uuid chosen
        step := some stepCategory }
  else { state with step := some stepCategory }

/-- Step 3. -/
def withCategory (state : Draft) (office : Office) (form : Form) : Draft :=
  match categoryError (some form.category) office.categories with
  | some error => state.flagged stepCategory error
  | none => { state with category := some form.category, step := some stepDescription }

/-- Step 4. What was typed is kept even when it is rejected. -/
def withDescription (state : Draft) (form : Form) : Draft :=
  let stripped := Text.strip form.description
  let typed := { state with description := some (String.ofList (stripped.toList.take 10000)) }
  match descriptionError (some stripped) with
  | some error => typed.flagged stepDescription error
  | none => { typed with step := some stepAttachments }

/-- Step 5. With nothing chosen, what is attached stays. -/
def withAttachments (state : Draft) (office : Office) (form : Form) : Draft :=
  match form.upload with
  | .rejected reason => state.rejected stepAttachments .attachmentsRejected "files" reason
  | .files [] => { state with step := some stepReview }
  | .files files =>
    if office.room then
      { state with
        fileMeta := some (files.map DraftFile.entry)
        fileData := some files
        step := some stepReview }
    else state.flagged stepAttachments .attachmentsNoRoom

end Draft

/-- A POST of the wizard, with what it reads. -/
structure WizardPost extends Visit where
  form : Form
  office : Office

namespace WizardPost

/-- The steps of `submit_post` on a loaded draft. -/
def answer (wizard : WizardPost) (state : Draft) : Answer :=
  let form := wizard.form
  let current := state.step.getD stepMode
  if form.action ≠ "next" ∧ form.action ≠ "back" ∨ form.action = "next" ∧ form.step ≠ current then
    .save state.stale
  else
    let joined := state.joined wizard.tenant
    if form.action = "back" then .save (joined.back wizard.hasLocations)
    else if current = stepMode then .save (joined.withMode wizard.office wizard.hasLocations form)
    else if current = stepLocation then
      .save (joined.withLocation wizard.office wizard.tenant wizard.hasLocations form)
    else if current = stepCategory then .save (joined.withCategory wizard.office form)
    else if current = stepDescription then .save (joined.withDescription form)
    else if current = stepAttachments then .save (joined.withAttachments wizard.office form)
    else if current = stepReview then .review
    else .save { joined with step := some stepMode }

def draftError (wizard : WizardPost) : Draft → Option (ℕ × ErrorCode) :=
  draftErrorOf wizard.office wizard.tenant wizard.hasLocations

/-- The POST as the handlers see it. -/
def toPost (wizard : WizardPost) : Post where
  toVisit := wizard.toVisit
  answer := wizard.answer
  draftError := wizard.draftError

end WizardPost

/-- A request on the session, its POSTs those of the wizard. -/
inductive WizardRequest
  | get (visit : Visit)
  | post (wizard : WizardPost)
  | removeAttachment (tenant : Tenant) (index : Int)
  | restart

def WizardRequest.toRequest : WizardRequest → Request
  | .get visit => .get visit
  | .post wizard => .post wizard.toPost
  | .removeAttachment tenant index => .removeAttachment tenant index
  | .restart => .restart

def wizardHandler (request : WizardRequest) : Handler Page := handler request.toRequest

/-- The name, the contact and the e-mail that a report stores, each encrypted where it is there. -/
def identityColumns (office : Office) (answers : Draft) :
    Option String × Option String × Option String :=
  if answers.submissionMode = some .confidential then
    let kept := fun (entry : Option String) ↦
      (entry.map Text.strip).filter fun text ↦ decide (text ≠ "")
    (kept answers.confidentialName, kept answers.confidentialContact,
      if office.notifyEmailEnabled then kept answers.secureEmail else none)
  else (none, none, none)

/-! ### What the steps keep -/

namespace Draft

/-- From step 2 on a draft has a mode, from step 4 on a category, from step 5 on a description that
passes its check; an anonymous draft holds nothing that identifies the reporter; and the two lists of
files describe the same files. -/
structure Sound (state : Draft) : Prop where
  mode : ∀ n, state.step = some n → stepLocation ≤ n → state.submissionMode ≠ none
  category : ∀ n, state.step = some n → stepDescription ≤ n → state.category ≠ none
  description : ∀ n, state.step = some n → stepAttachments ≤ n →
    descriptionError state.description = none
  anonymous : state.submissionMode = some .anonymous →
    state.confidentialName = none ∧ state.confidentialContact = none ∧ state.secureEmail = none
  files : state.fileMeta = state.fileData.map (List.map DraftFile.entry)

/-- A draft that may be shown at its review step. -/
structure Ready (state : Draft) : Prop where
  mode : state.submissionMode ≠ none
  category : state.category ≠ none
  description : descriptionError state.description = none

instance (state : Draft) : Decidable state.Ready :=
  decidable_of_iff (state.submissionMode ≠ none ∧ state.category ≠ none ∧
    descriptionError state.description = none)
    ⟨fun h ↦ ⟨h.1, h.2.1, h.2.2⟩, fun h ↦ ⟨h.mode, h.category, h.description⟩⟩

variable {state : Draft}

theorem sound_empty : Sound {} :=
  ⟨(fun _ h ↦ nomatch h), (fun _ h ↦ nomatch h), (fun _ h ↦ nomatch h), (fun h ↦ nomatch h), rfl⟩

/-- Another step, where what it asks for is there; the entries that no clause is about are free. -/
theorem Sound.at_step {next : Draft} (h : state.Sound) {n : ℕ} (hstep : next.step = some n)
    (hmode : next.submissionMode = state.submissionMode) (hcategory : next.category = state.category)
    (hdescription : next.description = state.description)
    (hname : next.confidentialName = state.confidentialName)
    (hcontact : next.confidentialContact = state.confidentialContact)
    (hemail : next.secureEmail = state.secureEmail) (hmeta : next.fileMeta = state.fileMeta)
    (hdata : next.fileData = state.fileData)
    (hmoded : stepLocation ≤ n → state.submissionMode ≠ none)
    (hcategorised : stepDescription ≤ n → state.category ≠ none)
    (hdescribed : stepAttachments ≤ n → descriptionError state.description = none) :
    next.Sound := by
  have hat : ∀ m, next.step = some m → m = n := by
    intro m hm
    exact Option.some.inj (hm.symm.trans hstep)
  refine ⟨fun m hm hle ↦ ?_, fun m hm hle ↦ ?_, fun m hm hle ↦ ?_, fun hanonymous ↦ ?_, ?_⟩
  · rw [hmode]
    exact hmoded (hat m hm ▸ hle)
  · rw [hcategory]
    exact hcategorised (hat m hm ▸ hle)
  · rw [hdescription]
    exact hdescribed (hat m hm ▸ hle)
  · rw [hname, hcontact, hemail]
    exact h.anonymous (hmode ▸ hanonymous)
  · rw [hmeta, hdata]
    exact h.files

theorem Sound.flagged (h : state.Sound) {n : ℕ} (error : ErrorCode)
    (hmoded : stepLocation ≤ n → state.submissionMode ≠ none)
    (hcategorised : stepDescription ≤ n → state.category ≠ none)
    (hdescribed : stepAttachments ≤ n → descriptionError state.description = none) :
    (state.flagged n error).Sound :=
  h.at_step rfl rfl rfl rfl rfl rfl rfl rfl rfl hmoded hcategorised hdescribed

theorem Sound.joined (h : state.Sound) (tenant : Tenant) : (state.joined tenant).Sound := by
  unfold Draft.joined
  split_ifs
  · exact ⟨h.mode, h.category, h.description, h.anonymous, h.files⟩
  · exact h

/-- What the steps up to the one a draft is at ask for is there; the first step asks for nothing. -/
theorem Sound.upTo (h : state.Sound) {n : ℕ} (hle : n ≤ stepMode ∨ state.step = some n) :
    (stepLocation ≤ n → state.submissionMode ≠ none) ∧
      (stepDescription ≤ n → state.category ≠ none) ∧
      (stepAttachments ≤ n → descriptionError state.description = none) := by
  rcases hle with hfirst | hstep
  · have hearly : ∀ m, stepMode < m → ¬m ≤ n := fun m hm hmn ↦
      Nat.lt_irrefl n (Nat.lt_of_le_of_lt hfirst (Nat.lt_of_lt_of_le hm hmn))
    exact ⟨fun hn ↦ absurd hn (hearly _ (by decide)), fun hn ↦ absurd hn (hearly _ (by decide)),
      fun hn ↦ absurd hn (hearly _ (by decide))⟩
  · exact ⟨h.mode n hstep, h.category n hstep, h.description n hstep⟩

/-- The same, below the step. -/
theorem Sound.below (h : state.Sound) {n m : ℕ} (hle : n ≤ m) (hm : m ≤ stepMode ∨ state.step = some m) :
    (stepLocation ≤ n → state.submissionMode ≠ none) ∧
      (stepDescription ≤ n → state.category ≠ none) ∧
      (stepAttachments ≤ n → descriptionError state.description = none) := by
  obtain ⟨hmoded, hcategorised, hdescribed⟩ := h.upTo hm
  exact ⟨fun hn ↦ hmoded (hn.trans hle), fun hn ↦ hcategorised (hn.trans hle),
    fun hn ↦ hdescribed (hn.trans hle)⟩

/-- The step a draft is shown at is its own, or the first one. -/
theorem step_getD (state : Draft) :
    state.step.getD stepMode ≤ stepMode ∨ state.step = some (state.step.getD stepMode) := by
  cases hstep : state.step with
  | none => exact .inl (by simp)
  | some n => exact .inr (by simp)

theorem Sound.stale (h : state.Sound) : state.stale.Sound := by
  obtain ⟨hmoded, hcategorised, hdescribed⟩ := h.upTo state.step_getD
  exact h.at_step rfl rfl rfl rfl rfl rfl rfl rfl rfl hmoded hcategorised hdescribed

theorem Sound.back (h : state.Sound) (hasLocations : Bool) : (state.back hasLocations).Sound := by
  have hbelow : ∀ n, n ≤ state.step.getD stepMode →
      (stepLocation ≤ n → state.submissionMode ≠ none) ∧
        (stepDescription ≤ n → state.category ≠ none) ∧
        (stepAttachments ≤ n → descriptionError state.description = none) :=
    fun n hn ↦ h.below hn state.step_getD
  have hback : ∃ n, (state.back hasLocations).step = some n ∧
      (n ≤ stepMode ∨ n ≤ state.step.getD stepMode) := by
    refine ⟨_, rfl, ?_⟩
    split_ifs
    · exact .inl le_rfl
    · rcases Nat.le_total (state.step.getD stepMode - 1) stepMode with hle | hle
      · exact .inl (max_le le_rfl hle)
      · exact .inr ((max_eq_right hle).trans_le (Nat.sub_le ..))
  obtain ⟨n, hstep, hle⟩ := hback
  have hkept : (stepLocation ≤ n → state.submissionMode ≠ none) ∧
      (stepDescription ≤ n → state.category ≠ none) ∧
      (stepAttachments ≤ n → descriptionError state.description = none) := by
    rcases hle with hfirst | hn
    · exact h.upTo (.inl hfirst)
    · exact hbelow n hn
  exact h.at_step hstep rfl rfl rfl rfl rfl rfl rfl rfl hkept.1 hkept.2.1 hkept.2.2

/-- A draft at one of the first three steps needs its mode only. -/
theorem sound_of_early {next : Draft} {n : ℕ} (hstep : next.step = some n) (hn : n < stepDescription)
    (hmode : stepLocation ≤ n → next.submissionMode ≠ none)
    (hanonymous : next.submissionMode = some .anonymous →
      next.confidentialName = none ∧ next.confidentialContact = none ∧ next.secureEmail = none)
    (hfiles : next.fileMeta = next.fileData.map (List.map DraftFile.entry)) : next.Sound := by
  have hat : ∀ m, next.step = some m → m = n := by
    intro m hm
    exact Option.some.inj (hm.symm.trans hstep)
  refine ⟨fun m hm hle ↦ hmode (hat m hm ▸ hle), fun m hm hle ↦ ?_, fun m hm hle ↦ ?_, hanonymous,
    hfiles⟩
  · exact absurd (hat m hm ▸ hle) (Nat.not_le.mpr hn)
  · exact absurd (Nat.le_trans (by decide) (hat m hm ▸ hle)) (Nat.not_le.mpr hn)

theorem ne_none_of_modeError {enabled : Bool} {mode : Option SubmissionMode}
    (h : modeError enabled mode = none) : mode ≠ none := by
  rintro rfl
  simp [modeError] at h

theorem Sound.withMode (h : state.Sound) (office : Office) (hasLocations : Bool) (form : Form) :
    (state.withMode office hasLocations form).Sound := by
  have hnext : (if hasLocations = true then stepLocation else stepCategory) < stepDescription := by
    split_ifs
    · decide
    · decide
  unfold Draft.withMode
  extract_lets effective next email chosen
  split
  · exact h.flagged _ (fun hn ↦ absurd hn (by decide)) (fun hn ↦ absurd hn (by decide))
      fun hn ↦ absurd hn (by decide)
  · rename_i haccepted
    have hmode : effective ≠ none := ne_none_of_modeError haccepted
    split_ifs with hconfidential hemail
    · refine sound_of_early rfl (by decide) (fun _ ↦ hmode) (fun hanonymous ↦ ?_) h.files
      exact absurd (hconfidential.symm.trans hanonymous) (by decide)
    · refine sound_of_early rfl hnext (fun _ ↦ hmode) (fun hanonymous ↦ ?_) h.files
      exact absurd (hconfidential.symm.trans hanonymous) (by decide)
    · exact sound_of_early rfl hnext (fun _ ↦ hmode) (fun _ ↦ ⟨rfl, rfl, rfl⟩) h.files

theorem Sound.withLocation (h : state.Sound) (hstep : state.step = some stepLocation)
    (office : Office) (tenant : Tenant) (hasLocations : Bool) (form : Form) :
    (state.withLocation office tenant hasLocations form).Sound := by
  have hmode : state.submissionMode ≠ none := h.mode stepLocation hstep le_rfl
  unfold Draft.withLocation
  split_ifs
  · dsimp only
    split
    · exact sound_of_early rfl (by decide) (fun _ ↦ hmode) h.anonymous h.files
    · exact sound_of_early rfl (by decide) (fun _ ↦ hmode) h.anonymous h.files
  · exact sound_of_early rfl (by decide) (fun _ ↦ hmode) h.anonymous h.files

theorem Sound.withCategory (h : state.Sound) (hstep : state.step = some stepCategory)
    (office : Office) (form : Form) : (state.withCategory office form).Sound := by
  have hmode : state.submissionMode ≠ none := h.mode stepCategory hstep (by decide)
  unfold Draft.withCategory
  split
  · exact sound_of_early rfl (by decide) (fun _ ↦ hmode) h.anonymous h.files
  · refine ⟨fun n hn _ ↦ hmode, fun n hn _ ↦ Option.some_ne_none _, fun n hn hle ↦ ?_, h.anonymous,
      h.files⟩
    cases hn
    exact absurd hle (by decide)

theorem descriptionError_some (text : String) : descriptionError (some text) =
    if (Text.strip text).length < 10 then some .descriptionTooShort
    else if (Text.strip text).length > 10000 then some .descriptionTooLong
    else none := by
  rw [descriptionError, Option.map_some, Option.getD_some]

/-- A description that passes its check is not cut. -/
theorem descriptionError_typed {text : String}
    (h : descriptionError (some (Text.strip text)) = none) :
    descriptionError (some (String.ofList ((Text.strip text).toList.take 10000))) = none := by
  have hlength : (Text.strip text).toList.length ≤ 10000 := by
    rw [descriptionError_some, Text.strip_strip] at h
    split_ifs at h with hshort hlong
    rw [String.length_toList]
    exact Nat.le_of_not_gt hlong
  rw [List.take_of_length_le hlength, String.ofList_toList]
  exact h

theorem Sound.withDescription (h : state.Sound) (hstep : state.step = some stepDescription)
    (form : Form) : (state.withDescription form).Sound := by
  have hmode : state.submissionMode ≠ none := h.mode stepDescription hstep (by decide)
  have hcategory : state.category ≠ none := h.category stepDescription hstep le_rfl
  unfold Draft.withDescription
  extract_lets stripped typed
  split
  · refine ⟨fun n hn _ ↦ hmode, fun n hn _ ↦ hcategory, fun n hn hle ↦ ?_, h.anonymous, h.files⟩
    cases hn
    exact absurd hle (by decide)
  · rename_i haccepted
    exact ⟨fun n hn _ ↦ hmode, fun n hn _ ↦ hcategory,
      fun n hn _ ↦ descriptionError_typed haccepted, h.anonymous, h.files⟩

theorem Sound.withAttachments (h : state.Sound) (hstep : state.step = some stepAttachments)
    (office : Office) (form : Form) : (state.withAttachments office form).Sound := by
  have hmode : state.submissionMode ≠ none := h.mode stepAttachments hstep (by decide)
  have hcategory : state.category ≠ none := h.category stepAttachments hstep (by decide)
  have hdescription : descriptionError state.description = none :=
    h.description stepAttachments hstep le_rfl
  unfold Draft.withAttachments
  split
  · exact ⟨fun _ _ _ ↦ hmode, fun _ _ _ ↦ hcategory, fun _ _ _ ↦ hdescription, h.anonymous, h.files⟩
  · exact ⟨fun _ _ _ ↦ hmode, fun _ _ _ ↦ hcategory, fun _ _ _ ↦ hdescription, h.anonymous, h.files⟩
  · split_ifs
    · exact ⟨fun _ _ _ ↦ hmode, fun _ _ _ ↦ hcategory, fun _ _ _ ↦ hdescription, h.anonymous, rfl⟩
    · exact ⟨fun _ _ _ ↦ hmode, fun _ _ _ ↦ hcategory, fun _ _ _ ↦ hdescription, h.anonymous,
        h.files⟩

/-- A step that is not the first is the one the draft is at. -/
theorem step_eq_some {n : ℕ} (h : state.step.getD stepMode = n) (hn : n ≠ stepMode) :
    state.step = some n := by
  cases hstep : state.step with
  | none =>
    rw [hstep, Option.getD_none] at h
    exact absurd h.symm hn
  | some m =>
    rw [hstep, Option.getD_some] at h
    rw [h]

theorem joined_step (state : Draft) (tenant : Tenant) : (state.joined tenant).step = state.step := by
  unfold Draft.joined
  split_ifs
  · rfl
  · rfl

/-- Every exit of a POST that saves a draft saves a sound one. -/
theorem Sound.answer (h : state.Sound) {wizard : WizardPost} {answers : Draft}
    (hanswer : wizard.answer state = .save answers) : answers.Sound := by
  have hjoined := h.joined wizard.tenant
  have hat : ∀ n, state.step.getD stepMode = n → n ≠ stepMode →
      (state.joined wizard.tenant).step = some n := by
    intro n hn hne
    rw [joined_step]
    exact step_eq_some hn hne
  unfold WizardPost.answer at hanswer
  extract_lets form current joined at hanswer
  split_ifs at hanswer with hstale hback hfirst hsecond hthird hfourth hfifth hsixth
  · rw [← Answer.save.inj hanswer]
    exact h.stale
  · rw [← Answer.save.inj hanswer]
    exact hjoined.back wizard.hasLocations
  · rw [← Answer.save.inj hanswer]
    exact hjoined.withMode wizard.office wizard.hasLocations form
  · rw [← Answer.save.inj hanswer]
    exact hjoined.withLocation (hat _ hsecond (by decide)) wizard.office wizard.tenant
      wizard.hasLocations form
  · rw [← Answer.save.inj hanswer]
    exact hjoined.withCategory (hat _ hthird (by decide)) wizard.office form
  · rw [← Answer.save.inj hanswer]
    exact hjoined.withDescription (hat _ hfourth (by decide)) form
  · rw [← Answer.save.inj hanswer]
    exact hjoined.withAttachments (hat _ hfifth (by decide)) wizard.office form
  · rw [← Answer.save.inj hanswer]
    obtain ⟨hmoded, hcategorised, hdescribed⟩ := hjoined.upTo (n := stepMode) (.inl le_rfl)
    exact hjoined.at_step rfl rfl rfl rfl rfl rfl rfl rfl rfl hmoded hcategorised hdescribed

end Draft

end OpenWhistle.Submission
