import OpenWhistle.Foundation.Contract
import OpenWhistle.Submission.Submit

/-!
# One walk along the handlers, for any contract about drafts

A contract about the drafts of a session says something of every token that is found under a key, of
every draft that is loaded, and of the draft that a final submit has claimed. A `Walk` is that,
together with what each operation has to give: a draft that was loaded may be saved, a claimed draft
may be given back, submitted, or flagged and saved again. From a walk every function of the handlers
keeps the contract, one lemma a function in the order of the source; a contract only has to supply
the operations.

`Answering` is what a POST owes of its own: the answer to a loaded draft is again one that may be
saved, and so is a claimed draft that is flagged with the error its check found.
-/

set_option autoImplicit false
set_option relaxedAutoImplicit false

namespace OpenWhistle.Submission

open Interleaving

variable {σ ρ α : Type} {sem : Semantics Op Reply Exn σ Draw Change}

/-- The end of a part of a handler of whose value nothing is promised. -/
abbrev Done {β : Type} : Except Exn β → σ → Prop := Returns fun _ _ ↦ True

/-- What a contract says of the drafts on their way through the handlers of one worker. -/
structure Walk (c : Contract sem ρ α) (w : ℕ) where
  /-- What others, and the worker's own operations, leave as it is. -/
  Grows : σ → σ → Prop
  refl : ∀ s, Grows s s
  trans : ∀ s t u, Grows s t → Grows t u → Grows s u
  rely : ∀ s t, c.rely w s t → Grows s t
  own : ∀ operation draw s reply t, sem.perform w operation draw s = some (reply, t) → Grows s t
  /-- A token that was found under a key. -/
  Held : Token → σ → Prop
  /-- A draft with a report id that was found there. -/
  Found : Draft → σ → Prop
  /-- The same, for the wizard of a tenant. -/
  Loaded : Tenant → Draft → σ → Prop
  /-- A draft that may be saved. -/
  Savable : Draft → σ → Prop
  /-- The draft that a final submit has claimed. -/
  Claimed : Tenant → Token → σ → Prop
  held : ∀ token s t, Grows s t → Held token s → Held token t
  loadedLater : ∀ tenant state s t, Grows s t → Loaded tenant state s → Loaded tenant state t
  claimedLater : ∀ tenant token s t, Grows s t → Claimed tenant token s → Claimed tenant token t
  found : ∀ token s, Held token s → token.state.isEmpty = false →
    token.state.reportId.isSome = true → Found token.state s
  load : ∀ tenant state s, Found state s →
    ¬(tenant.isScoped = true ∧ state.orgId.isSome = true ∧ state.orgId ≠ tenant.orgId) →
    Loaded tenant state s
  shows : ∀ tenant state hasLocations s, Loaded tenant state s →
    Loaded tenant (shown state hasLocations) s
  removes : ∀ tenant (state : Draft) index s, Loaded tenant state s →
    index < (state.fileData.getD []).length → Loaded tenant { state with
      fileData := some ((state.fileData.getD []).eraseIdx index)
      fileMeta := state.fileMeta.map fun entries ↦ entries.eraseIdx index } s
  savable : ∀ tenant state s, Loaded tenant state s → Savable state s
  failed : ∀ tenant token s, Claimed tenant token s → token.state.reportId.isSome = true →
    Savable (token.state.flagged stepReview .submitFailed) s
  getDraft : ∀ s, Safe c w (Returns fun found t ↦ ∀ token, found = some token → Held token t)
    (call .getDraft) s
  getClaimed : ∀ s, Safe c w (Returns fun found t ↦ ∀ token, found = some token → Held token t)
    (call .getClaimed) s
  getResult : ∀ s, Safe c w Done (call .getResult) s
  getdelResult : ∀ s, Safe c w Done (call .getdelResult) s
  asks : ∀ keys s, Safe c w Done (call (.exists keys)) s
  assign : ∀ token s, Held token s → token.state.isEmpty = false → token.state.reportId = none →
    Safe c w (Returns fun assigned t ↦ ∀ id, assigned = some id →
      Found { token.state with reportId := some id } t) (call (.assignReportId token)) s
  save : ∀ state s, Savable state s → Safe c w Done (saveSubmission state) s
  deleteDraft : ∀ s, Safe c w Done (call .deleteDraft) s
  claim : ∀ tenant state s, Loaded tenant state s →
    Safe c w (Returns fun claim t ↦ ∀ token nonce, claim = some (token, nonce) →
      Claimed tenant token t) claimDraft s
  recover : ∀ token result s, Held token s → Safe c w Done (call (.recoverDraft token result)) s
  giveBack : ∀ tenant token nonce s, Claimed tenant token s →
    Safe c w Done (giveBackDraft token nonce) s
  finish : ∀ tenant token nonce result s, Claimed tenant token s →
    token.state.reportId.isSome = true → Safe c w Done (finishClaim nonce result) s
  external : ∀ what s, Safe c w Done (call (.external what)) s
  defaultOrgId : ∀ s, Safe c w Done (call .defaultOrgId) s
  generatePin : ∀ s, Safe c w Done (call .generatePin) s
  generateCaseNumber : ∀ s, Safe c w Done (call .generateCaseNumber) s
  sendCommit : ∀ s, Safe c w Done (call .sendCommit) s
  awaitCommit : ∀ s, Safe c w Done (call .awaitCommit) s
  lookUp : ∀ reportId ours s, Safe c w Done (committedCaseNumber reportId ours) s

/-- The row a final submit inserts for a claimed draft. -/
structure FiledFor (tenant : Tenant) (claimed : Token) (row : Report) : Prop where
  id : claimed.state.reportId = some row.id
  answers : row.answers = claimed.state
  org : ∀ orgId, tenant.orgId = some orgId → row.orgId = some orgId

/-- What a POST owes the contract. -/
structure Answering {c : Contract sem ρ α} {w : ℕ} (walk : Walk c w) (post : Post) : Prop where
  answers : ∀ state answers s, walk.Loaded post.tenant state s → post.answer state = .save answers →
    walk.Loaded post.tenant (state.edited answers) s
  rejects : ∀ token stepNo error s, walk.Claimed post.tenant token s →
    token.state.reportId.isSome = true → post.draftError token.state = some (stepNo, error) →
    walk.Loaded post.tenant (token.state.flagged stepNo error) s
  inserts : ∀ token row s, walk.Claimed post.tenant token s → post.draftError token.state = none →
    FiledFor post.tenant token row → Safe c w Done (call (.insertReport row)) s

namespace Walk

variable {c : Contract sem ρ α} {w : ℕ} {s : σ}

/-- Sequencing, with what has grown meanwhile. -/
theorem next (walk : Walk c w) {β γ : Type} {promise : β → σ → Prop} {post : γ → σ → Prop}
    {rest : β → Handler γ} {program : Handler β} (h : Safe c w (Returns promise) program s)
    (hrest : ∀ value t, walk.Grows s t → promise value t → Safe c w (Returns post) (rest value) t) :
    Safe c w (Returns post) (program >>= rest) s :=
  Safe.andThenFramed walk.refl walk.trans walk.rely walk.own h hrest

/-! ### Loading -/

/-- A draft that is there is one that was found. -/
def Present (walk : Walk c w) (state : Draft) (s : σ) : Prop :=
  state.isEmpty = false → walk.Found state s

/-- A draft that is there is one that was loaded for the tenant. -/
def Open (walk : Walk c w) (tenant : Tenant) (state : Draft) (s : σ) : Prop :=
  state.isEmpty = false → walk.Loaded tenant state s

theorem present_empty (walk : Walk c w) : walk.Present {} s := fun h ↦ absurd h (by decide)

theorem open_empty (walk : Walk c w) (tenant : Tenant) : walk.Open tenant {} s :=
  fun h ↦ absurd h (by decide)

theorem loadSubmissionFor (walk : Walk c w) (attempts : ℕ) : ∀ s, Safe c w
    (Returns walk.Present) (Submission.loadSubmissionFor attempts) s := by
  induction attempts with
  | zero => exact fun s ↦ Safe.ret walk.present_empty
  | succ attempts ih =>
    refine fun s ↦ walk.next (walk.getDraft s) fun found t _ hfound ↦ ?_
    cases found with
    | none => exact Safe.ret walk.present_empty
    | some token =>
      have hheld := hfound token rfl
      show Safe _ _ _ (if token.state.isEmpty = true ∨ token.state.reportId.isSome = true then _
        else _) t
      split_ifs with hready
      · refine Safe.ret fun hnonempty ↦ walk.found token t hheld hnonempty ?_
        exact hready.resolve_left (by rw [hnonempty]; decide)
      · rw [not_or, Bool.not_eq_true, Bool.not_eq_true, Option.isSome_eq_false_iff,
          Option.isNone_iff_eq_none] at hready
        refine walk.next (walk.assign token t hheld hready.1 hready.2) fun assigned u _ hassigned ↦ ?_
        cases assigned with
        | none => exact ih u
        | some id => exact Safe.ret fun _ ↦ hassigned id rfl

theorem loadSubmission (walk : Walk c w) : Safe c w (Returns walk.Present)
    Submission.loadSubmission s :=
  walk.loadSubmissionFor 3 s

theorem loadDraft (walk : Walk c w) (tenant : Tenant) : Safe c w (Returns (walk.Open tenant))
    (Submission.loadDraft tenant) s := by
  refine walk.next walk.loadSubmission fun state t _ hstate ↦ ?_
  split_ifs with hother
  · exact Safe.ret (walk.open_empty tenant)
  · exact Safe.ret fun hnonempty ↦ walk.load tenant state t (hstate hnonempty) hother

/-! ### Recovery and waiting -/

theorem recoverDraft (walk : Walk c w) : Safe c w Done Submission.recoverDraft s := by
  refine walk.next (walk.asks _ s) fun busy t _ _ ↦ ?_
  cases busy with
  | true => exact Safe.ret trivial
  | false =>
    refine walk.next (walk.getClaimed t) fun found u _ hfound ↦ ?_
    cases found with
    | none => exact Safe.ret trivial
    | some token =>
      have hlookup : Safe c w Done (caseNumberOf token.state.reportId) u := by
        cases token.state.reportId with
        | none => exact Safe.ret trivial
        | some reportId => exact walk.lookUp reportId none u
      refine walk.next hlookup fun found v hgrows _ ↦ ?_
      have hheld : walk.Held token v := walk.held token u v hgrows (hfound token rfl)
      exact walk.next (walk.recover token _ v hheld) fun _ _ _ _ ↦ Safe.ret trivial

theorem storedResultPage (walk : Walk c w) (caseNumber : CaseNumber) :
    Safe c w Done (Submission.storedResultPage caseNumber) s := by
  refine walk.next (walk.getResult s) fun stored t _ _ ↦ ?_
  cases stored with
  | none => exact Safe.ret trivial
  | some result =>
    show Safe _ _ _ (if result.caseNumber = caseNumber then _ else _) t
    split_ifs
    · exact Safe.ret trivial
    · exact Safe.ret trivial

theorem awaitResult (walk : Walk c w) (polls : ℕ) : ∀ s, Safe c w Done
    (Submission.awaitResult polls) s := by
  have hrecovered : ∀ s, Safe c w Done
      (do Submission.recoverDraft; call .getdelResult) s :=
    fun s ↦ walk.next walk.recoverDraft fun _ t _ _ ↦ walk.getdelResult t
  induction polls with
  | zero => exact fun s ↦ walk.next (walk.asks _ s) fun _ t _ _ ↦ hrecovered t
  | succ polls ih =>
    refine fun s ↦ walk.next (walk.asks _ s) fun waits t _ _ ↦ ?_
    cases waits with
    | false => exact hrecovered t
    | true =>
      refine walk.next (walk.getdelResult t) fun stored u _ _ ↦ ?_
      cases stored with
      | none => exact ih u
      | some result => exact Safe.ret trivial

theorem submitOutcome (walk : Walk c w) (polls : ℕ) : Safe c w Done
    (Submission.submitOutcome polls) s := by
  refine walk.next (walk.awaitResult polls s) fun stored t _ _ ↦ ?_
  cases stored with
  | some result => exact Safe.ret trivial
  | none =>
    refine walk.next walk.loadSubmission fun state u _ _ ↦ ?_
    split_ifs
    · exact walk.next (walk.asks _ u) fun _ _ _ _ ↦ Safe.ret trivial
    · exact Safe.ret trivial

theorem awaitOtherSubmit (walk : Walk c w) (polls : ℕ) : Safe c w Done
    (Submission.awaitOtherSubmit polls) s :=
  walk.next (walk.submitOutcome polls) fun _ _ _ _ ↦ Safe.ret trivial

/-! ### The final submit -/

theorem fail (walk : Walk c w) {state : Draft} {stepNo : ℕ} {error : ErrorCode}
    (h : walk.Savable (state.flagged stepNo error) s) :
    Safe c w Done (Submission.fail state stepNo error) s :=
  walk.next (walk.save _ s h) fun _ _ _ _ ↦ Safe.ret trivial

/-- A draft that was loaded, and changed as the contract allows, is saved. -/
theorem saveLoaded (walk : Walk c w) {tenant : Tenant} {state : Draft}
    (h : walk.Loaded tenant state s) : Safe c w Done (Submission.saveSubmission state) s :=
  walk.save state s (walk.savable tenant state s h)

theorem insertFor (walk : Walk c w) {post : Post} (hanswering : Answering walk post)
    {claimed : Token} (haccepted : post.draftError claimed.state = none)
    {row : CaseNumber → Report}
    (hrow : ∀ caseNumber, FiledFor post.tenant claimed (row caseNumber)) (attempts : ℕ) :
    ∀ s, walk.Claimed post.tenant claimed s →
      Safe c w Done (Submission.insertFor row attempts) s := by
  induction attempts with
  | zero => exact fun s _ ↦ Safe.raise trivial
  | succ attempts ih =>
    refine fun s hclaimed ↦ walk.next (walk.generateCaseNumber s) fun caseNumber t hgrows _ ↦ ?_
    have hclaimed' := walk.claimedLater post.tenant claimed s t hgrows hclaimed
    refine walk.next (hanswering.inserts claimed _ t hclaimed' haccepted (hrow caseNumber))
      fun inserted u hgrows' _ ↦ ?_
    cases inserted with
    | true => exact Safe.ret trivial
    | false => exact ih u (walk.claimedLater post.tenant claimed t u hgrows' hclaimed')

/-- The organisation a report is filed under is the tenant's, where it has one. -/
theorem filedUnder (walk : Walk c w) (tenant : Tenant) : Safe c w
    (Returns fun filed _ ↦ ∀ orgId, tenant.orgId = some orgId → filed = some orgId)
    (Submission.filedUnder tenant.orgId) s := by
  cases horg : tenant.orgId with
  | none =>
    refine Safe.imp (fun result t _ ↦ ?_) (walk.defaultOrgId s)
    cases result with
    | ok filed => exact fun orgId habsent ↦ nomatch habsent
    | error exception => trivial
  | some orgId =>
    refine Safe.ret fun other hother ↦ ?_
    exact hother

theorem createReport (walk : Walk c w) {post : Post} (hanswering : Answering walk post)
    {claimed : Token} {reportId : ReportId} (hid : claimed.state.reportId = some reportId)
    (haccepted : post.draftError claimed.state = none)
    (hclaimed : walk.Claimed post.tenant claimed s) :
    Safe c w Done (Submission.createReport reportId post.tenant.orgId claimed.state) s := by
  refine walk.next (walk.generatePin s) fun pin t ht _ ↦ ?_
  refine walk.next (walk.filedUnder post.tenant) fun org u hu horg ↦ ?_
  have hclaimed' := walk.claimedLater post.tenant claimed t u hu
    (walk.claimedLater post.tenant claimed s t ht hclaimed)
  have hinsert : Safe c w Done (Submission.insertFor
      (fun caseNumber ↦ ⟨reportId, caseNumber, hashPin pin, org, claimed.state⟩) 5) u := by
    apply walk.insertFor hanswering haccepted
    · exact fun caseNumber ↦ ⟨hid, rfl, horg⟩
    · exact hclaimed'
  exact walk.next hinsert fun _ _ _ _ ↦ Safe.ret trivial

theorem beforeCommit (walk : Walk c w) {post : Post} (hanswering : Answering walk post)
    {claimed : Token} {reportId : ReportId} (hid : claimed.state.reportId = some reportId)
    (hclaimed : walk.Claimed post.tenant claimed s) (nonce : Nonce) :
    Safe c w Done (Submission.beforeCommit post claimed nonce reportId) s := by
  have hsome : claimed.state.reportId.isSome = true := by rw [hid]; rfl
  refine walk.next (walk.external _ s) fun _ t ht _ ↦ ?_
  have hclaimed_t := walk.claimedLater post.tenant claimed s t ht hclaimed
  split
  · rename_i stepNo error herror
    refine walk.next (walk.giveBack post.tenant claimed nonce t hclaimed_t) fun _ u hu _ ↦ ?_
    have hclaimed_u := walk.claimedLater post.tenant claimed t u hu hclaimed_t
    have hloaded := hanswering.rejects claimed stepNo error u hclaimed_u hsome herror
    exact walk.next (walk.fail (walk.savable _ _ u hloaded)) fun _ _ _ _ ↦ Safe.ret trivial
  · rename_i haccepted
    refine walk.next (walk.createReport hanswering hid haccepted hclaimed_t) fun _ u _ _ ↦ ?_
    exact walk.next (walk.external _ u) fun _ _ _ _ ↦ Safe.ret trivial

theorem commit (walk : Walk c w) : Safe c w Done Submission.commit s :=
  walk.next (walk.sendCommit s) fun _ t _ _ ↦ walk.awaitCommit t

theorem unlessCancelled {exception : Exn} {page : Handler Page} (h : Safe c w Done page s) :
    Safe c w Done (Submission.unlessCancelled exception page) s := by
  unfold Submission.unlessCancelled
  split_ifs
  · exact Safe.raise trivial
  · exact h

theorem submitCommitted (walk : Walk c w) {tenant : Tenant} {claimed : Token}
    (hclaimed : walk.Claimed tenant claimed s) (hid : claimed.state.reportId.isSome = true)
    (nonce : Nonce) (commitError : Option Exn) (ours : Report × Pin) :
    Safe c w Done (Submission.submitCommitted claimed nonce commitError ours) s := by
  refine walk.next (Safe.caught (walk.finish tenant claimed nonce _ s hclaimed hid))
    fun outcome t _ _ ↦ ?_
  split
  · exact Safe.raise trivial
  · split_ifs
    · exact Safe.raise trivial
    · exact Safe.ret trivial

theorem submittedElsewhere (walk : Walk c w) {tenant : Tenant} {claimed : Token}
    (hclaimed : walk.Claimed tenant claimed s) (hid : claimed.state.reportId.isSome = true)
    (nonce : Nonce) (exception : Exn) (committed : CaseNumber) :
    Safe c w Done (submitFailed.submittedElsewhere nonce exception committed) s := by
  refine walk.next (walk.external _ s) fun _ t ht _ ↦ ?_
  have hclaimed' := walk.claimedLater tenant claimed s t ht hclaimed
  refine walk.next (walk.finish tenant claimed nonce none t hclaimed' hid) fun _ u _ _ ↦ ?_
  exact unlessCancelled (walk.storedResultPage committed)

theorem submitFailed (walk : Walk c w) (post : Post) {claimed : Token} {reportId : ReportId}
    (hclaimed : walk.Claimed post.tenant claimed s) (hid : claimed.state.reportId.isSome = true)
    (nonce : Nonce) (ours : Option (Report × Pin)) (exception : Exn) :
    Safe c w Done (Submission.submitFailed post claimed nonce reportId ours exception) s := by
  refine walk.next (Safe.caught (walk.lookUp _ _ s)) fun outcome t ht _ ↦ ?_
  have hclaimed_t := walk.claimedLater post.tenant claimed s t ht hclaimed
  have hpending : Safe c w Done
      (Submission.unlessCancelled exception (pure (.pending true))) t :=
    unlessCancelled (Safe.ret trivial)
  rcases outcome with lookupError | found
  · cases lookupError with
    | cancelled => exact Safe.raise trivial
    | error => exact hpending
  rcases found with _ | committed
  · cases ours with
    | some own => exact hpending
    | none =>
      refine walk.next (walk.external _ t) fun _ u hu _ ↦ ?_
      have hclaimed_u := walk.claimedLater post.tenant claimed t u hu hclaimed_t
      refine walk.next (walk.giveBack post.tenant claimed nonce u hclaimed_u)
        fun givenBack v hv _ ↦ ?_
      apply unlessCancelled
      split_ifs
      · exact walk.fail (walk.failed post.tenant claimed v
          (walk.claimedLater post.tenant claimed u v hv hclaimed_u) hid)
      · exact walk.awaitOtherSubmit _
  · cases ours with
    | none => exact walk.submittedElsewhere hclaimed_t hid nonce exception committed
    | some own =>
      show Safe _ _ _ (if committed = own.1.caseNumber then _ else _) t
      split_ifs
      · exact walk.submitCommitted hclaimed_t hid nonce _ own
      · exact walk.submittedElsewhere hclaimed_t hid nonce exception committed

theorem finalSubmit (walk : Walk c w) {post : Post} (hanswering : Answering walk post)
    {state : Draft} (h : walk.Loaded post.tenant state s) :
    Safe c w Done (Submission.finalSubmit post) s := by
  refine walk.next (walk.claim post.tenant state s h) fun claim t _ hclaim ↦ ?_
  rcases claim with _ | ⟨claimed, nonce⟩
  · exact walk.next (walk.external _ t) fun _ _ _ _ ↦ walk.awaitOtherSubmit _
  have hclaimed := hclaim claimed nonce rfl
  cases hid : claimed.state.reportId with
  | none =>
    simp only [hid]
    exact walk.next (walk.giveBack post.tenant claimed nonce t hclaimed)
      fun _ _ _ _ ↦ Safe.ret trivial
  | some reportId =>
    have hsome : claimed.state.reportId.isSome = true := by rw [hid]; rfl
    simp only [hid]
    refine walk.next (Safe.caught (walk.beforeCommit hanswering hid hclaimed nonce))
      fun outcome u hu _ ↦ ?_
    have hclaimed_u := walk.claimedLater post.tenant claimed t u hu hclaimed
    rcases outcome with exception | page | ours
    · exact walk.submitFailed post hclaimed_u hsome nonce none exception
    · exact Safe.ret trivial
    refine walk.next (Safe.caught walk.commit) fun outcome v hv _ ↦ ?_
    have hclaimed_v := walk.claimedLater post.tenant claimed u v hv hclaimed_u
    cases outcome with
    | error exception => exact walk.submitFailed post hclaimed_v hsome nonce (some ours) exception
    | ok _ => exact walk.submitCommitted hclaimed_v hsome nonce none ours

/-! ### The routes -/

theorem answerPost (walk : Walk c w) {post : Post} (hanswering : Answering walk post)
    {state : Draft} (h : walk.Loaded post.tenant state s) :
    Safe c w Done (Submission.answerPost post state) s := by
  unfold Submission.answerPost
  split
  · rename_i answers hanswer
    have hedited := hanswering.answers state answers s h hanswer
    exact walk.next (walk.saveLoaded hedited) fun _ _ _ _ ↦ Safe.ret trivial
  · exact walk.finalSubmit hanswering h

theorem ifEmpty (walk : Walk c w) {tenant : Tenant} {state : Draft}
    (hstate : walk.Open tenant state s) {absent present : Handler Page}
    (habsent : Safe c w Done absent s)
    (hpresent : walk.Loaded tenant state s → Safe c w Done present s) :
    Safe c w Done (if state.isEmpty then absent else present) s := by
  split_ifs with hempty
  · exact habsent
  · exact hpresent (hstate (by simpa using hempty))

theorem submitPost (walk : Walk c w) {post : Post} (hanswering : Answering walk post) :
    Safe c w Done (Submission.submitPost post) s := by
  refine walk.next (walk.loadDraft post.tenant) fun state t _ hstate ↦ ?_
  refine walk.ifEmpty hstate ?_ (walk.answerPost hanswering)
  refine walk.next walk.recoverDraft fun _ u _ _ ↦ ?_
  refine walk.next (walk.loadDraft post.tenant) fun again v _ hagain ↦ ?_
  refine walk.ifEmpty hagain ?_ (walk.answerPost hanswering)
  refine walk.next (walk.asks _ v) fun busy x _ _ ↦ ?_
  split_ifs
  · exact walk.awaitOtherSubmit _
  · exact Safe.ret trivial

theorem renderWizard (walk : Walk c w) (visit : Visit) :
    Safe c w Done (Submission.renderWizard visit) s := by
  refine walk.next (walk.loadDraft visit.tenant) fun state t _ hstate ↦ ?_
  refine walk.ifEmpty hstate ?_ fun hloaded ↦ ?_
  · exact walk.next walk.loadSubmission fun _ _ _ _ ↦ Safe.ret trivial
  · have hshown := walk.shows visit.tenant state visit.hasLocations t hloaded
    exact walk.next (walk.saveLoaded hshown) fun _ _ _ _ ↦ Safe.ret trivial

theorem submitGet (walk : Walk c w) (visit : Visit) :
    Safe c w Done (Submission.submitGet visit) s := by
  refine walk.next walk.loadSubmission fun state t _ _ ↦ ?_
  split_ifs
  · refine walk.next (walk.asks _ t) fun busy u _ _ ↦ ?_
    split_ifs
    · refine walk.next (walk.submitOutcome 0) fun page v _ _ ↦ ?_
      cases page with
      | some shown => exact Safe.ret trivial
      | none => exact walk.renderWizard visit
    · exact walk.renderWizard visit
  · exact walk.renderWizard visit

theorem submitRemoveAttachment (walk : Walk c w) (tenant : Tenant) (index : Int) :
    Safe c w Done (Submission.submitRemoveAttachment tenant index) s := by
  refine walk.next (walk.loadDraft tenant) fun state t _ hstate ↦ ?_
  extract_lets files
  split_ifs with hfile
  · have hloaded := hstate (Draft.not_isEmpty_of_step hfile.1)
    have hindex : index.toNat < files.length := by omega
    have hremoved := walk.removes tenant state index.toNat t hloaded hindex
    exact walk.next (walk.saveLoaded hremoved) fun _ _ _ _ ↦ Safe.ret trivial
  · exact Safe.ret trivial

/-- Every request whose POST answers as the contract asks keeps the contract. -/
theorem handler (walk : Walk c w) {request : Request}
    (h : ∀ post, request = .post post → Answering walk post) :
    Safe c w Done (Submission.handler request) s := by
  cases request with
  | get visit => exact walk.submitGet visit
  | post post => exact walk.submitPost (h post rfl)
  | removeAttachment tenant index => exact walk.submitRemoveAttachment tenant index
  | restart => exact walk.next (walk.deleteDraft s) fun _ _ _ _ ↦ Safe.ret trivial

end Walk

end OpenWhistle.Submission
