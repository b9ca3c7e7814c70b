import Mathlib.Data.List.InsertIdx
import OpenWhistle.Records.Filing
import OpenWhistle.Submission.Assignment
import OpenWhistle.Submission.OneDraft
import OpenWhistle.Submission.Wizard

/-!
# Every saved draft is sound

What each exit of the wizard does to the draft it has loaded is in the module of its steps. Here the
requests of a session interleave: a request saves what it has made of a draft that was the session's
when it was loaded, a final submit gives back or flags the draft it has claimed, and a claim that was
abandoned is recovered. Whatever is under a key is a draft that somebody saved, so it is sound, and a
report is inserted only from one that passes the checks its submit reads.

One exit needs a condition. A submit that fails before its checks shows the draft it has claimed at
the review step, whatever step another request has taken it back to since the submit loaded it.
-/

set_option autoImplicit false
set_option relaxedAutoImplicit false

namespace OpenWhistle.Submission

open Interleaving

abbrev WizardStep := Event WizardRequest Exn Draw Change

/-- A session whose first request has saved its draft, over any reports table. -/
structure Begun where
  first : WizardPost
  answers : Draft
  answered : first.answer {} = .save answers
  iv : ℕ
  reportId : ReportId
  reports : Table

namespace Begun

variable (begun : Begun)

def session : Session where
  keys := Keys.saveDraft {} begun.iv begun.answers begun.reportId
  reports := begun.reports
  transaction := fun _ ↦ .inProgress
  inserted := []
  minted := [begun.reportId]
  finished := false

def system : Requests where
  shared := begun.session
  worker := fun _ ↦ none

end Begun

/-- A submit that failed saves its draft at the review step only with a mode, a category and a
description that passes its check. -/
def KeepsReady : Op → Prop
  | .setDraft state =>
    state.flashError = some .submitFailed → state.step = some stepReview → state.Ready
  | _ => True

instance decidableKeepsReady : ∀ operation, Decidable (KeepsReady operation)
  | .setDraft state => inferInstanceAs (Decidable (state.flashError = some .submitFailed →
      state.step = some stepReview → state.Ready))
  | .getDraft | .getClaimed | .getResult | .getdelResult | .exists _ | .assignReportId _
  | .deleteDraft | .claimDraft | .recoverDraft _ _ | .giveBackDraft _ _ | .finishClaim _ _
  | .external _ | .defaultOrgId | .generatePin | .generateCaseNumber | .insertReport _
  | .sendCommit | .awaitCommit | .committedCaseNumber _ _ => isTrue trivial

/-- The same for the operation that takes effect with an event. -/
def StaysReady (s : Requests) (event : WizardStep) : Prop :=
  s.Acts (fun _ operation _ ↦ KeepsReady operation) event

instance decidableStaysReady (s : Requests) (event : WizardStep) : Decidable (StaysReady s event) :=
  inferInstanceAs (Decidable (s.Acts _ event))

/-! ### Drafts that are not loaded -/

namespace Draft

variable {state : Draft}

theorem Sound.withId (h : state.Sound) (id : Option ReportId) :
    ({ state with reportId := id } : Draft).Sound :=
  ⟨h.mode, h.category, h.description, h.anonymous, h.files⟩

theorem Sound.withReportId (h : state.Sound) (fresh : ReportId) :
    (state.withReportId fresh).Sound := by
  unfold Draft.withReportId
  split_ifs
  · exact h
  · exact h.withId _

theorem Sound.shown (h : state.Sound) (hasLocations : Bool) :
    (Submission.shown state hasLocations).Sound := by
  by_cases hskips : !hasLocations ∧ state.step = some stepLocation
  · have hmode := h.mode stepLocation hskips.2 le_rfl
    exact h.at_step (n := stepCategory) (if_pos hskips) rfl rfl rfl rfl rfl rfl rfl rfl
      (fun _ ↦ hmode) (fun hn ↦ absurd hn (by decide)) fun hn ↦ absurd hn (by decide)
  · have hstep : (Submission.shown state hasLocations).step = state.step := if_neg hskips
    exact ⟨fun n hn ↦ h.mode n (hstep ▸ hn), fun n hn ↦ h.category n (hstep ▸ hn),
      fun n hn ↦ h.description n (hstep ▸ hn), h.anonymous, h.files⟩

/-- A file goes from both lists. -/
theorem Sound.removed (h : state.Sound) {index : ℕ}
    (hindex : index < (state.fileData.getD []).length) :
    ({ state with
      fileData := some ((state.fileData.getD []).eraseIdx index)
      fileMeta := state.fileMeta.map fun entries ↦ entries.eraseIdx index } : Draft).Sound := by
  refine ⟨h.mode, h.category, h.description, h.anonymous, ?_⟩
  have hfiles := h.files
  cases hdata : state.fileData with
  | none =>
    rw [hdata] at hindex
    exact absurd hindex (Nat.not_lt_zero index)
  | some files =>
    rw [hdata] at hfiles
    simp only [hfiles, Option.map_some, Option.getD_some, List.eraseIdx_map]

theorem ne_none_of_categoryError {category : Option String} {slugs : List String}
    (h : categoryError category slugs = none) : category ≠ none := by
  rintro rfl
  simp [categoryError] at h

/-- The checks are made in the order of the steps. -/
theorem draftError_cases {wizard : WizardPost} {n : ℕ} {error : ErrorCode}
    (herror : wizard.draftError state = some (n, error)) :
    n = stepMode ∨ n < stepDescription ∧ state.submissionMode ≠ none ∨
      n = stepDescription ∧ state.submissionMode ≠ none ∧ state.category ≠ none := by
  unfold WizardPost.draftError draftErrorOf at herror
  simp only [List.findSome?_cons] at herror
  cases hmode : modeError wizard.office.submissionModeEnabled state.submissionMode with
  | some failure =>
    simp only [hmode, Option.map_some, Option.some.injEq, Prod.mk.injEq] at herror
    exact .inl herror.1.symm
  | none =>
    have hmoded := ne_none_of_modeError hmode
    simp only [hmode, Option.map_none] at herror
    split at herror
    · rename_i found hlocation
      obtain ⟨failure, -, rfl⟩ := Option.map_eq_some_iff.mp hlocation
      cases herror
      exact .inr (.inl ⟨by decide, hmoded⟩)
    · cases hcategory : categoryError state.category wizard.office.categories with
      | some failure =>
        simp only [hcategory, Option.map_some, Option.some.injEq, Prod.mk.injEq] at herror
        exact .inr (.inl ⟨herror.1 ▸ by decide, hmoded⟩)
      | none =>
        simp only [hcategory, Option.map_none] at herror
        split at herror
        · rename_i found hdescription
          obtain ⟨failure, -, rfl⟩ := Option.map_eq_some_iff.mp hdescription
          cases herror
          exact .inr (.inr ⟨rfl, hmoded, ne_none_of_categoryError hcategory⟩)
        · cases herror

/-- The draft goes back to the first step whose check fails; the checks before have passed. -/
theorem Sound.sent_back (h : state.Sound) {wizard : WizardPost} {n : ℕ} {error : ErrorCode}
    (herror : wizard.draftError state = some (n, error)) : (state.flagged n error).Sound := by
  rcases draftError_cases herror with rfl | ⟨hlt, hmoded⟩ | ⟨rfl, hmoded, hcategorised⟩
  · exact h.flagged error (fun hn ↦ absurd hn (by decide)) (fun hn ↦ absurd hn (by decide))
      fun hn ↦ absurd hn (by decide)
  · exact h.flagged error (fun _ ↦ hmoded) (fun hn ↦ absurd hlt (Nat.not_lt.mpr hn))
      fun hn ↦ absurd hlt (Nat.not_lt.mpr (Nat.le_trans (by decide) hn))
  · exact h.flagged error (fun _ ↦ hmoded) (fun _ ↦ hcategorised) fun hn ↦ absurd hn (by decide)

end Draft

/-! ### The contract -/

/-- A row that a submit has inserted from a sound draft that passes the checks as it has read them. -/
def FiledBy (asked : ℕ → WizardPost → Prop) (w : ℕ) (row : Report) : Prop :=
  ∃ wizard, asked w wizard ∧ wizard.draftError row.answers = none ∧ row.answers.Sound

structure SoundSession (asked : ℕ → WizardPost → Prop) (s : Session) : Prop where
  stored : ∀ token, s.keys.Stores token → token.state.Sound
  inserted : ∀ entry ∈ s.inserted, FiledBy asked entry.1 entry.2

variable {asked : ℕ → WizardPost → Prop} {s t : Session} {w : ℕ}

/-- What is stored was stored before, and no row is inserted. -/
theorem SoundSession.of_fewer (h : SoundSession asked s)
    (hstores : ∀ token, t.keys.Stores token → s.keys.Stores token)
    (hinserted : t.inserted = s.inserted) : SoundSession asked t :=
  ⟨fun token htoken ↦ h.stored token (hstores token htoken), hinserted ▸ h.inserted⟩

theorem soundSession_environment {change : Change} (h : SoundSession asked s)
    (hchange : environment change s = some t) : SoundSession asked t := by
  cases change with
  | expire key =>
    cases hchange
    refine h.of_fewer (fun token htoken ↦ ?_) rfl
    cases key with
    | draft => exact .inr (htoken.resolve_left fun habsent ↦ by cases habsent)
    | claimed => exact .inl (htoken.resolve_right fun habsent ↦ by cases habsent)
    | _ => exact htoken
  | land w =>
    obtain ⟨row, hfresh, -, rfl⟩ := land_cases hchange
    exact h.of_fewer (fun _ htoken ↦ htoken) rfl
  | abort w =>
    obtain ⟨-, rfl⟩ := abort_cases hchange
    exact h.of_fewer (fun _ htoken ↦ htoken) rfl
  | otherReport row =>
    obtain ⟨-, hfresh, rfl⟩ := otherReport_cases hchange
    exact h.of_fewer (fun _ htoken ↦ htoken) rfl

/-- The requests owe each other no more than the session; nothing is relied on. -/
def keeping (asked : ℕ → WizardPost → Prop) : Contract semantics WizardRequest Page where
  invariant := SoundSession asked
  rely _ _ _ := True
  rely_refl _ _ := trivial
  rely_trans _ _ _ _ _ _ := trivial
  idle _ _ := True
  idle_stable _ _ _ _ _ _ := trivial
  ends _ _ _ := True
  ends_stable _ _ _ _ _ _ _ := trivial
  admits _ := True
  allows _ operation _ := KeepsReady operation
  trusts _ _ _ := True
  tolerates _ _ := True
  environment_safe _ _ _ hinv _ hchange := ⟨soundSession_environment hinv hchange, fun _ ↦ trivial⟩

/-! ### The operations -/

theorem keeps_call {operation : Op} {promise : Reply operation → Session → Prop}
    (h : ∀ t draw reply u, SoundSession asked t → KeepsReady operation →
      perform w operation draw t = some (reply, u) →
        SoundSession asked u ∧ ∀ value, reply = .ok value → promise value u) :
    Safe (keeping asked) w (Returns promise) (call operation) s := by
  refine Safe.call_returns fun t _ hinv hallows draw reply u hperform ↦ ?_
  obtain ⟨hsound, hpromise⟩ := h t draw reply u hinv hallows hperform
  exact ⟨hsound, fun _ _ ↦ trivial, hpromise⟩

/-- An operation that stores nothing new and inserts nothing. -/
theorem keeps_fewer {operation : Op}
    (h : ∀ t draw reply u, perform w operation draw t = some (reply, u) →
      (∀ token, u.keys.Stores token → t.keys.Stores token) ∧ u.inserted = t.inserted) :
    Safe (keeping asked) w Done (call operation) s :=
  keeps_call fun t draw reply u hinv _ hperform ↦
    ⟨hinv.of_fewer (h t draw reply u hperform).1 (h t draw reply u hperform).2, fun _ _ ↦ trivial⟩

theorem keeps_getDraft : Safe (keeping asked) w
    (Returns fun found _ ↦ ∀ token, found = some token → token.state.Sound) (call .getDraft) s := by
  refine keeps_call fun t draw reply u hinv _ hperform ↦ ?_
  cases hperform
  refine ⟨hinv, fun value hvalue token htoken ↦ ?_⟩
  cases hvalue
  exact hinv.stored token (.inl htoken)

theorem keeps_getClaimed : Safe (keeping asked) w
    (Returns fun found _ ↦ ∀ token, found = some token → token.state.Sound)
    (call .getClaimed) s := by
  refine keeps_call fun t draw reply u hinv _ hperform ↦ ?_
  cases hperform
  refine ⟨hinv, fun value hvalue token htoken ↦ ?_⟩
  cases hvalue
  exact hinv.stored token (.inr htoken)

theorem keeps_assignReportId {token : Token} (h : token.state.Sound) : Safe (keeping asked) w
    (Returns fun assigned _ ↦ ∀ id, assigned = some id →
      ({ token.state with reportId := some id } : Draft).Sound) (call (.assignReportId token)) s := by
  refine keeps_call fun t draw reply u hinv _ hperform ↦ ?_
  cases hperform
  refine ⟨hinv.of_fewer (fun other hother ↦ ?_) rfl, fun _ _ id _ ↦ h.withId (some id)⟩
  change (t.keys.assignReportIdScript token draw.uuid).2.Stores other at hother
  unfold Keys.assignReportIdScript at hother
  split_ifs at hother
  · exact hother
  · exact hother

/-- A draft that may be saved: sound, unless the condition on failed submits does not let it be. -/
def Savable (state : Draft) : Prop := KeepsReady (.setDraft state) → state.Sound

theorem keeps_saveSubmission {state : Draft} (h : Savable state) :
    Safe (keeping asked) w Done (saveSubmission state) s := by
  refine keeps_call fun t draw reply u hinv hready hperform ↦ ?_
  cases hperform
  refine ⟨⟨?_, hinv.inserted⟩, fun _ _ ↦ trivial⟩
  rintro token (hdraft | hclaimed)
  · cases hdraft
    exact (h hready).withReportId draw.uuid
  · exact hinv.stored token (.inr hclaimed)

theorem keeps_claimDraft : Safe (keeping asked) w
    (Returns fun claim _ ↦ ∀ token nonce, claim = some (token, nonce) → token.state.Sound)
    claimDraft s := by
  refine keeps_call fun t draw reply u hinv _ hperform ↦ ?_
  cases hperform
  rw [Keys.claimDraftScript]
  split
  · rename_i token hdraft _
    have hsound := hinv.stored token (.inl hdraft)
    refine ⟨⟨?_, hinv.inserted⟩, fun value hvalue other nonce hother ↦ ?_⟩
    · rintro other (habsent | hclaimed)
      · cases habsent
      · cases hclaimed
        exact hsound
    · cases hvalue
      cases hother
      exact hsound
  · refine ⟨hinv.of_fewer (fun _ hother ↦ hother) rfl, fun value hvalue other nonce hother ↦ ?_⟩
    cases hvalue
    cases hother

theorem keeps_recoverDraft (token : Token) (result : Option Result) :
    Safe (keeping asked) w Done (call (.recoverDraft token result)) s := by
  refine keeps_fewer fun t draw reply u hperform ↦ ?_
  cases hperform
  refine ⟨fun other hother ↦ ?_, rfl⟩
  change (t.keys.recoverDraftScript token result).2.Stores other at hother
  unfold Keys.recoverDraftScript at hother
  split_ifs at hother
  · exact hother
  · cases result with
    | none => exact .inr (hother.resolve_right fun habsent ↦ by cases habsent)
    | some stored => exact .inl (hother.resolve_right fun habsent ↦ by cases habsent)

theorem keeps_giveBackDraft {token : Token} (h : token.state.Sound) (nonce : Nonce) :
    Safe (keeping asked) w Done (giveBackDraft token nonce) s := by
  refine keeps_call fun t draw reply u hinv _ hperform ↦ ?_
  cases hperform
  rw [Keys.giveBackDraftScript]
  split_ifs
  · exact ⟨hinv.of_fewer (fun _ hother ↦ hother) rfl, fun _ _ ↦ trivial⟩
  · refine ⟨⟨?_, hinv.inserted⟩, fun _ _ ↦ trivial⟩
    rintro other (hdraft | habsent)
    · cases hstored : t.keys.draft with
      | none =>
        have heq : some token = some other := by simpa [hstored] using hdraft
        cases heq
        exact h
      | some stored =>
        have heq : some stored = some other := by simpa [hstored] using hdraft
        cases heq
        exact hinv.stored other (.inl hstored)
    · cases habsent

theorem keeps_finishClaim (nonce : Nonce) (result : Option Result) :
    Safe (keeping asked) w Done (finishClaim nonce result) s := by
  refine keeps_fewer fun t draw reply u hperform ↦ ?_
  cases hperform
  refine ⟨fun other hother ↦ ?_, rfl⟩
  change (t.keys.finishClaimScript nonce result).Stores other at hother
  unfold Keys.finishClaimScript at hother
  split_ifs at hother
  · exact hother
  · rcases hother with habsent | habsent
    · cases habsent
    · cases habsent

theorem keeps_deleteDraft : Safe (keeping asked) w Done (call .deleteDraft) s := by
  refine keeps_fewer fun t draw reply u hperform ↦ ?_
  cases hperform
  exact ⟨fun other hother ↦ .inr (hother.resolve_left fun habsent ↦ by cases habsent), rfl⟩

theorem keeps_insertReport {row : Report} (h : FiledBy asked w row) :
    Safe (keeping asked) w Done (call (.insertReport row)) s := by
  refine keeps_call fun t draw reply u hinv _ hperform ↦ ⟨?_, fun _ _ ↦ trivial⟩
  rcases insertReport_cases hperform with ⟨-, rfl⟩ | ⟨-, -, -, rfl⟩
  · exact hinv
  · refine ⟨hinv.stored, fun entry hentry ↦ ?_⟩
    rcases List.mem_cons.mp hentry with rfl | hold
    · exact h
    · exact hinv.inserted entry hold

theorem keeps_sendCommit : Safe (keeping asked) w Done (call .sendCommit) s := by
  refine keeps_fewer fun t draw reply u hperform ↦ ?_
  rcases sendCommit_cases hperform with rfl | ⟨-, rfl⟩
  · exact ⟨fun _ hother ↦ hother, rfl⟩
  · exact ⟨fun _ hother ↦ hother, rfl⟩

theorem keeps_awaitCommit : Safe (keeping asked) w Done (call .awaitCommit) s := by
  refine keeps_fewer fun t draw reply u hperform ↦ ?_
  obtain ⟨rfl, -⟩ := awaitCommit_cases hperform
  exact ⟨fun _ hother ↦ hother, rfl⟩

/-- An operation that leaves the session as it is. -/
theorem keeps_same {operation : Op}
    (h : ∀ t draw reply u, perform w operation draw t = some (reply, u) → u = t) :
    Safe (keeping asked) w Done (call operation) s := by
  refine keeps_fewer fun t draw reply u hperform ↦ ?_
  obtain rfl := h t draw reply u hperform
  exact ⟨fun _ hother ↦ hother, rfl⟩

theorem keeps_getdelResult : Safe (keeping asked) w Done (call .getdelResult) s := by
  refine keeps_fewer fun t draw reply u hperform ↦ ?_
  cases hperform
  exact ⟨fun _ hother ↦ hother, rfl⟩

/-! ### The requests -/

def keepingWalk (asked : ℕ → WizardPost → Prop) (w : ℕ) : Walk (keeping asked) w where
  Grows _ _ := True
  refl _ := trivial
  trans _ _ _ _ _ := trivial
  rely _ _ _ := trivial
  own _ _ _ _ _ _ := trivial
  Held token _ := token.state.Sound
  Found state _ := state.Sound
  Loaded _ state _ := state.Sound
  Savable state _ := Savable state
  Claimed _ token _ := token.state.Sound
  held _ _ _ _ h := h
  loadedLater _ _ _ _ _ h := h
  claimedLater _ _ _ _ _ h := h
  found _ _ h _ _ := h
  load _ _ _ h _ := h
  shows _ _ hasLocations _ h := h.shown hasLocations
  removes _ _ _ _ h hindex := h.removed hindex
  savable _ _ _ h := fun _ ↦ h
  failed _ _ _ h _ := fun hready ↦
    h.flagged .submitFailed (fun _ ↦ (hready rfl rfl).mode) (fun _ ↦ (hready rfl rfl).category)
      fun _ ↦ (hready rfl rfl).description
  getDraft _ := keeps_getDraft
  getClaimed _ := keeps_getClaimed
  getResult _ := keeps_same fun _ _ _ _ hperform ↦ by cases hperform; rfl
  getdelResult _ := keeps_getdelResult
  asks _ _ := keeps_same fun _ _ _ _ hperform ↦ by cases hperform; rfl
  assign _ _ h _ _ := keeps_assignReportId h
  save _ _ h := keeps_saveSubmission h
  deleteDraft _ := keeps_deleteDraft
  claim _ _ _ _ := keeps_claimDraft
  recover token result _ _ := keeps_recoverDraft token result
  giveBack _ _ nonce _ h := keeps_giveBackDraft h nonce
  finish _ _ nonce result _ _ _ := keeps_finishClaim nonce result
  external _ _ := keeps_same fun _ _ _ _ hperform ↦ by cases hperform; rfl
  defaultOrgId _ := keeps_same fun _ _ _ _ hperform ↦ by cases hperform; rfl
  generatePin _ := keeps_same fun _ _ _ _ hperform ↦ by cases hperform; rfl
  generateCaseNumber _ := keeps_same fun _ _ _ _ hperform ↦ by cases hperform; rfl
  sendCommit _ := keeps_sendCommit
  awaitCommit _ := keeps_awaitCommit
  lookUp _ _ _ := keeps_same fun _ _ _ _ hperform ↦ by cases hperform; rfl

theorem keeping_answering {wizard : WizardPost} (hasked : asked w wizard) :
    Answering (keepingWalk asked w) wizard.toPost where
  answers state _ _ h hanswer := (h.answer hanswer).withId state.reportId
  rejects _ _ _ _ h _ herror := h.sent_back herror
  inserts _ _ _ h haccepted hfiled :=
    keeps_insertReport ⟨wizard, hasked, hfiled.answers ▸ haccepted, hfiled.answers ▸ h⟩

theorem keeping_handles {request : WizardRequest}
    (hasked : ∀ wizard, request = .post wizard → asked w wizard) :
    Safe (keeping asked) w Done (wizardHandler request) s := by
  refine (keepingWalk asked w).handler fun post hpost ↦ ?_
  cases request with
  | post wizard =>
    cases hpost
    exact keeping_answering (hasked wizard rfl)
  | _ => cases hpost

theorem Begun.soundSession (begun : Begun) : SoundSession asked begun.session where
  stored := by
    rintro token (hdraft | habsent)
    · cases hdraft
      exact (Draft.sound_empty.answer begun.answered).withReportId begun.reportId
    · cases habsent
  inserted _ hentry := by cases hentry

/-- In every run whose failed submits save no draft that is not ready, every draft that is stored is
sound, and every report is inserted from a draft that passes the checks as its submit has read them;
an anonymous one stores nothing that identifies the reporter: the columns are empty, in the answers
and in whatever report is filed with them. -/
theorem wizard_keeps_its_invariants (begun : Begun) {events : List WizardStep} {last : Requests}
    (hready : Meets semantics wizardHandler StaysReady begun.system events)
    (hrun : run semantics wizardHandler begun.system events = some last) :
    (∀ token, last.shared.keys.Stores token → token.state.Sound) ∧
    ∀ entry ∈ last.shared.inserted, ∃ wizard, Event.start entry.1 (.post wizard) ∈ events ∧
      wizard.draftError entry.2.answers = none ∧
      (entry.2.answers.submissionMode = some .anonymous →
        identityColumns wizard.office entry.2.answers = (none, none, none) ∧
          Records.FiledUnnamed entry.2.answers) := by
  have hpermits : Meets semantics wizardHandler
      (keeping fun w wizard ↦ Event.start w (.post wizard) ∈ events).Permits begun.system events := by
    refine meets_imp (fun s event h ↦ ?_) hready
    exact Contract.permits_of_acting (fun _ ↦ trivial) (fun _ _ _ ↦ trivial) (fun _ _ ↦ trivial) h
  have hstart : (keeping fun w wizard ↦ Event.start w (.post wizard) ∈ events).Holds begun.system :=
    Contract.holds_of_idle begun.soundSession (fun _ ↦ trivial) fun _ ↦ rfl
  have hlast := Contract.run_safe_of_starts (fun w request hmem s _ _ _ ↦ ?_) hstart hpermits hrun
  · refine ⟨hlast.invariant.stored, fun entry hentry ↦ ?_⟩
    obtain ⟨wizard, hasked, haccepted, -⟩ := hlast.invariant.inserted entry hentry
    refine ⟨wizard, hasked, haccepted, fun hanonymous ↦ ?_⟩
    have hcolumns : ∀ office, identityColumns office entry.2.answers = (none, none, none) := by
      intro office
      rw [identityColumns, if_neg (by rw [hanonymous]; decide)]
    exact ⟨hcolumns wizard.office, Records.filedUnnamed_of_columns hcolumns⟩
  · refine Safe.imp (fun _ _ _ ↦ trivial) (keeping_handles fun wizard hpost ↦ ?_)
    exact hpost ▸ hmem

/-! ### A submit that fails -/

def plainOffice : Office := ⟨true, false, ["fraud"], fun _ ↦ none, fun _ ↦ none, true⟩

def formAt (step : Int) (category description : String) : Form :=
  ⟨"next", step, "anonymous", "", "", "", "", category, description, .files []⟩

def backForm : Form := { formAt 0 "" "" with action := "back" }

def wizardPost (form : Form) : WizardPost where
  tenant := ⟨false, none⟩
  hasLocations := false
  polls := 0
  form := form
  office := plainOffice

/-- The anonymous draft of a first request. -/
def anonymousDraft : Draft := { step := some stepCategory, submissionMode := some .anonymous }

theorem answer_first : (wizardPost (formAt 1 "" "")).answer {} = .save anonymousDraft := by
  rfl

def firstAnswer : Begun where
  first := wizardPost (formAt 1 "" "")
  answers := anonymousDraft
  answered := answer_first
  iv := 0
  reportId := 7
  reports := ⟨[], List.nodup_nil, List.nodup_nil⟩

/-- A request that loads the draft and saves what it has made of it. -/
def posted (w : ℕ) (form : Form) : List WizardStep :=
  [.start w (.post (wizardPost form)), .run w {}, .run w {}]

/-- The draft comes to its review step, and a submit loads it there. -/
def submitLoads : List WizardStep :=
  posted 1 (formAt 3 "fraud" "") ++ posted 2 (formAt 4 "" "Invoices are forged") ++
    posted 3 (formAt 5 "" "") ++ [.start 4 (.post (wizardPost (formAt 6 "" ""))), .run 4 {}]

/-- The submit claims the draft and inserts its report. -/
def submitInserts : List WizardStep := submitLoads ++ List.replicate 6 (.run 4 {})

theorem submit_keeps_its_invariants : ∃ last,
    run semantics wizardHandler firstAnswer.system submitInserts = some last ∧
      last.shared.inserted.length = 1 ∧ ∀ token, last.shared.keys.Stores token →
        token.state.Sound := by
  have hrun := run_eq_get (show (run semantics wizardHandler firstAnswer.system
    submitInserts).isSome = true by decide +kernel)
  exact ⟨_, hrun, by decide +kernel,
    (wizard_keeps_its_invariants firstAnswer (by decide +kernel) hrun).1⟩

/-- Before it claims the draft, others take it back and leave a description that is too short; then
the database fails before the checks. -/
def submitFails : List WizardStep :=
  submitLoads ++ posted 5 backForm ++ posted 6 backForm ++ posted 7 (formAt 4 "" "short") ++
    [.run 4 {}, .fail 4 .error] ++ List.replicate 4 (.run 4 {})

theorem failed_submit_skips_the_description : ∃ last,
    run semantics wizardHandler firstAnswer.system submitFails = some last ∧
      ∃ token, last.shared.keys.Stores token ∧ token.state.step = some stepReview ∧
        descriptionError token.state.description ≠ none ∧ ¬token.state.Sound := by
  have hrun := run_eq_get (show (run semantics wizardHandler firstAnswer.system
    submitFails).isSome = true by decide +kernel)
  have hdraft : (((run semantics wizardHandler firstAnswer.system submitFails).get
      (by decide +kernel)).shared.keys.draft.any fun token ↦
        decide (token.state.step = some stepReview) &&
          decide (descriptionError token.state.description ≠ none)) = true := by
    decide +kernel
  obtain ⟨token, htoken, hbad⟩ := (Option.any_eq_true _ _).mp hdraft
  obtain ⟨hstep, herror⟩ := Bool.and_eq_true_iff.mp hbad
  refine ⟨_, hrun, token, .inl htoken, of_decide_eq_true hstep, of_decide_eq_true herror,
    fun hsound ↦ ?_⟩
  exact of_decide_eq_true herror (hsound.description _ (of_decide_eq_true hstep) (by decide))

end OpenWhistle.Submission
