import OpenWhistle.Submission.Custody

/-!
# Every request keeps the contract

One lemma for each operation and one for each function of the handlers, in the order of the source;
a caller's proof cites the lemmas of what it calls. The report id enters with the loads, which find
only drafts that carry it, and leaves with the saves, the give-backs and the inserts. The knowledge
that a report is committed enters with a lookup that found it or with the reply to a COMMIT; only a
worker that has it spends the draft or shows a page.
-/

set_option autoImplicit false
set_option relaxedAutoImplicit false

namespace OpenWhistle.Submission

open Interleaving

variable {id : ReportId} {terms : Terms} {w : ℕ} {s : Session}

/-! ### The operations -/

theorem safe_getDraft : Safe (custody id terms) w
    (Returns fun raw _ ↦ ∀ token, raw = some token → token.state.reportId = some id)
    (call .getDraft) s := by
  refine safe_read (fun draw t reply u hperform ↦ by cases hperform; rfl) ?_
  intro t _ hinv _ draw value hperform
  cases hperform
  exact hinv.carries.1

theorem safe_getClaimed : Safe (custody id terms) w
    (Returns fun raw _ ↦ ∀ token, raw = some token → token.state.reportId = some id)
    (call .getClaimed) s := by
  refine safe_read (fun draw t reply u hperform ↦ by cases hperform; rfl) ?_
  intro t _ hinv _ draw value hperform
  cases hperform
  exact hinv.carries.2

theorem safe_getResult : Safe (custody id terms) w
    (Returns fun stored t ↦ terms.truthful → ∀ result, stored = some result → Shows id t result)
    (call .getResult) s := by
  refine safe_read (fun draw t reply u hperform ↦ by cases hperform; rfl) ?_
  intro t _ hinv _ draw value hperform
  cases hperform
  exact hinv.result

theorem safe_getdelResult : Safe (custody id terms) w
    (Returns fun stored t ↦ terms.truthful → ∀ result, stored = some result → Shows id t result)
    (call .getdelResult) s := by
  refine safe_call fun t _ hinv draw reply u hperform ↦ ?_
  cases hperform
  refine ⟨hinv.with_keys rfl rfl rfl hinv.minted hinv.carries (fun _ _ h ↦ nomatch h) hinv.kept, ?_⟩
  intro _ value hvalue htruthful result hresult
  cases hvalue
  exact (hinv.result htruthful result hresult).grows (Grows.of_eq rfl rfl)

theorem safe_exists (keys : List Key) : Safe (custody id terms) w (Returns fun _ _ ↦ True)
    (call (.exists keys)) s :=
  safe_read (fun draw t reply u hperform ↦ by cases hperform; rfl) fun _ _ _ _ _ _ _ ↦ trivial

theorem safe_external (what : External) : Safe (custody id terms) w (Returns fun _ _ ↦ True)
    (call (.external what)) s :=
  safe_read (fun draw t reply u hperform ↦ by cases hperform; rfl) fun _ _ _ _ _ _ _ ↦ trivial

theorem safe_defaultOrgId : Safe (custody id terms) w (Returns fun _ _ ↦ True)
    (call .defaultOrgId) s :=
  safe_read (fun draw t reply u hperform ↦ by cases hperform; rfl) fun _ _ _ _ _ _ _ ↦ trivial

theorem safe_generatePin : Safe (custody id terms) w (Returns fun _ _ ↦ True)
    (call .generatePin) s :=
  safe_read (fun draw t reply u hperform ↦ by cases hperform; rfl) fun _ _ _ _ _ _ _ ↦ trivial

theorem safe_generateCaseNumber : Safe (custody id terms) w (Returns fun _ _ ↦ True)
    (call .generateCaseNumber) s :=
  safe_read (fun draw t reply u hperform ↦ by cases hperform; rfl) fun _ _ _ _ _ _ _ ↦ trivial

theorem safe_saveSubmission {state : Draft} (h : state.reportId = some id) :
    Safe (custody id terms) w (Returns fun _ _ ↦ True) (saveSubmission state) s := by
  refine safe_call fun t _ hinv draw reply u hperform ↦ ?_
  cases hperform
  exact ⟨hinv.with_keys rfl rfl rfl (List.mem_cons_of_mem _ hinv.minted)
    (hinv.carries.saveDraft h draw.iv draw.uuid) hinv.result
    fun _ ↦ .inr (Keys.holds_saveDraft ..), fun _ _ _ ↦ trivial⟩

/-- Starting again is the one operation that may lose the draft. -/
theorem safe_deleteDraft (h : ¬terms.keeps) : Safe (custody id terms) w (Returns fun _ _ ↦ True)
    (call .deleteDraft) s := by
  refine safe_call fun t _ hinv draw reply u hperform ↦ ?_
  cases hperform
  exact ⟨hinv.with_keys rfl rfl rfl hinv.minted hinv.carries.deleteDraft hinv.result
    fun hkeeps ↦ absurd hkeeps h, fun _ _ _ ↦ trivial⟩

theorem safe_claimDraft : Safe (custody id terms) w
    (Returns fun claim _ ↦ ∀ token nonce, claim = some (token, nonce) →
      token.state.reportId = some id) claimDraft s := by
  refine safe_call fun t _ hinv draw reply u hperform ↦ ?_
  cases hperform
  obtain ⟨hcarries, htoken⟩ := hinv.carries.claimDraftScript draw.nonce
  refine ⟨hinv.with_keys rfl rfl rfl hinv.minted hcarries ?_ ?_, ?_⟩
  · intro htruthful result hresult
    rw [Keys.claimDraftScript_result] at hresult
    exact hinv.result htruthful result hresult
  · intro hkeeps
    exact (hinv.kept hkeeps).imp_right fun hholds ↦ Keys.holds_claimDraftScript hholds draw.nonce
  · intro _ claim hclaim token nonce heq
    cases hclaim
    obtain ⟨claimed, hclaimed, hpair⟩ := Option.map_eq_some_iff.mp heq
    cases hpair
    exact htoken token hclaimed

/-- A recovery that found a report may spend the draft, because the report is there. -/
theorem safe_recoverDraftScript (token : Token) (result : Option Result)
    (h : ∀ stored, result = some stored → Shows id s stored) :
    Safe (custody id terms) w (Returns fun _ _ ↦ True) (call (.recoverDraft token result)) s := by
  refine safe_call fun t hgrows hinv draw reply u hperform ↦ ?_
  cases hperform
  refine ⟨hinv.with_keys rfl rfl rfl hinv.minted (hinv.carries.recoverDraftScript token result)
    ?_ ?_, fun _ _ _ ↦ trivial⟩
  · intro htruthful stored hstored
    rcases Keys.recoverDraftScript_result hstored with hold | hnew
    · exact hinv.result htruthful stored hold
    · exact (h stored hnew).grows hgrows
  · intro hkeeps
    cases result with
    | none =>
      exact (hinv.kept hkeeps).imp_right fun hholds ↦
        Keys.holds_recoverDraftScript_none hholds token
    | some stored => exact .inl ((h stored rfl).grows hgrows).hasReport

theorem safe_giveBackDraft {token : Token} (h : token.state.reportId = some id) (nonce : Nonce) :
    Safe (custody id terms) w (Returns fun _ _ ↦ True) (giveBackDraft token nonce) s := by
  refine safe_call fun t _ hinv draw reply u hperform ↦ ?_
  cases hperform
  refine ⟨hinv.with_keys rfl rfl rfl hinv.minted (hinv.carries.giveBackDraftScript h nonce) ?_ ?_,
    fun _ _ _ ↦ trivial⟩
  · intro htruthful result hresult
    rw [Keys.giveBackDraftScript_result] at hresult
    exact hinv.result htruthful result hresult
  · intro hkeeps
    exact (hinv.kept hkeeps).imp_right fun hholds ↦
      Keys.holds_giveBackDraftScript hholds token nonce

/-- The finishing script spends the draft of a report that is there. -/
theorem safe_finishClaim (nonce : Nonce) (result : Option Result) (hreport : HasReport id s)
    (h : terms.truthful → ∀ stored, result = some stored → Shows id s stored) :
    Safe (custody id terms) w (Returns fun _ _ ↦ True) (finishClaim nonce result) s := by
  refine safe_call fun t hgrows hinv draw reply u hperform ↦ ?_
  cases hperform
  refine ⟨hinv.with_keys rfl rfl rfl hinv.minted (hinv.carries.finishClaimScript nonce result)
    ?_ ?_, fun _ _ _ ↦ trivial⟩
  · intro htruthful stored hstored
    rcases Keys.finishClaimScript_result hstored with hold | hnew
    · exact hinv.result htruthful stored hold
    · exact (h htruthful stored hnew).grows hgrows
  · intro _
    exact .inl (hreport.grows hgrows)

theorem safe_insertReport {row : Report} (h : row.id = id) : Safe (custody id terms) w
    (Returns fun inserted t ↦ inserted = true → t.rowOf w = some row)
    (call (.insertReport row)) s := by
  refine safe_call fun t _ hinv draw reply u hperform ↦ ?_
  rcases insertReport_cases hperform with ⟨hreply, rfl⟩ | ⟨rfl, hprogress, hnone, rfl⟩
  · exact ⟨hinv, fun _ value hvalue htrue ↦ absurd (htrue ▸ hvalue) hreply⟩
  · refine ⟨?_, fun _ _ _ _ ↦ rowOf_insert_self t w row⟩
    refine hinv.of_keys_eq (grows_insert row hnone) rfl hinv.minted ?_ ?_
    · intro entry hentry
      rcases List.mem_cons.mp hentry with rfl | hold
      · exact h
      · exact hinv.inserted entry hold
    · intro v other hother hcommitted
      have hne : v ≠ w := by
        rintro rfl
        rw [hprogress] at hcommitted
        cases hcommitted
      rw [rowOf_insert_of_ne t hne] at hother
      exact hinv.landed v other hother hcommitted

theorem safe_sendCommit : Safe (custody id terms) w (Returns fun _ _ ↦ True)
    (call .sendCommit) s := by
  refine safe_call fun t _ hinv draw reply u hperform ↦ ?_
  rcases sendCommit_cases hperform with rfl | ⟨-, rfl⟩
  · exact ⟨hinv, fun _ _ _ ↦ trivial⟩
  · exact ⟨hinv.with_transaction w (by decide), fun _ _ _ ↦ trivial⟩

/-- The reply to a COMMIT says that the row is in the table. -/
theorem safe_awaitCommit {row : Report} (h : s.rowOf w = some row) : Safe (custody id terms) w
    (Returns fun _ t ↦ row ∈ t.reports.rows) (call .awaitCommit) s := by
  refine safe_call fun t hgrows hinv draw reply u hperform ↦ ?_
  obtain ⟨rfl, hcommitted⟩ := awaitCommit_cases hperform
  exact ⟨hinv, fun _ value hvalue ↦
    hinv.landed w row (hgrows.rowOf w row h) (hcommitted hvalue)⟩

/-- What a lookup under the draft's id finds. -/
theorem safe_committedCaseNumber (ours : Option Report) : Safe (custody id terms) w
    (Returns fun found t ↦ ∀ caseNumber, found = some caseNumber →
      ∃ row ∈ t.reports.rows, row.id = id ∧ row.caseNumber = caseNumber ∧
        (terms.truthful → ∀ own, ours = some own → caseNumber = own.caseNumber →
          row.pinHash = own.pinHash))
    (committedCaseNumber id ours) s := by
  refine safe_read (fun draw t reply u hperform ↦ by cases hperform; rfl) ?_
  intro t _ _ htrusts draw value hperform caseNumber hfound
  cases hperform
  obtain ⟨row, hrow, rfl⟩ := Option.map_eq_some_iff.mp hfound
  have hmem := List.mem_of_find?_eq_some hrow
  have hid : row.id = id := by simpa using List.find?_some hrow
  refine ⟨row, hmem, hid, rfl, fun htruthful own hown hcase ↦ ?_⟩
  exact htrusts htruthful own hown row hmem hid hcase

/-! ### Loading and saving -/

/-- A draft that is there carries the id. -/
def Carries (id : ReportId) (state : Draft) : Prop :=
  state.isEmpty = false → state.reportId = some id

theorem carries_empty : Carries id {} := fun h ↦ absurd h (by decide)

theorem safe_loadSubmissionFor (attempts : ℕ) : ∀ s, Safe (custody id terms) w
    (Returns fun state _ ↦ Carries id state) (loadSubmissionFor attempts) s := by
  induction attempts with
  | zero => exact fun s ↦ Safe.ret carries_empty
  | succ attempts ih =>
    refine fun s ↦ safe_then safe_getDraft fun raw t _ hraw ↦ ?_
    cases raw with
    | none => exact Safe.ret carries_empty
    | some token =>
      have hid := hraw token rfl
      have hhas : token.state.isEmpty = true ∨ token.state.reportId.isSome = true :=
        .inr (by rw [hid]; rfl)
      show Safe _ _ _ (if token.state.isEmpty = true ∨ token.state.reportId.isSome = true then _
        else _) t
      rw [if_pos hhas]
      exact Safe.ret fun _ ↦ hid

theorem safe_loadSubmission : Safe (custody id terms) w (Returns fun state _ ↦ Carries id state)
    loadSubmission s :=
  safe_loadSubmissionFor 3 s

theorem safe_loadDraft (tenant : Tenant) : Safe (custody id terms) w
    (Returns fun state _ ↦ Carries id state) (loadDraft tenant) s := by
  refine safe_then safe_loadSubmission fun state t _ hstate ↦ ?_
  split_ifs
  · exact Safe.ret carries_empty
  · exact Safe.ret hstate

/-! ### Recovery and waiting -/

/-- The lookup of the recovery: what it finds is the committed report of the draft. -/
theorem safe_caseNumberOf : Safe (custody id terms) w
    (Returns fun found t ↦ ∀ stored, found.map received = some stored → Shows id t stored)
    (caseNumberOf (some id)) s := by
  refine Safe.imp (fun result t hresult ↦ ?_) (safe_committedCaseNumber none)
  cases result with
  | error exception => trivial
  | ok found =>
    intro stored hstored
    obtain ⟨caseNumber, hfound, rfl⟩ := Option.map_eq_some_iff.mp hstored
    obtain ⟨row, hrow, hid, rfl, -⟩ := hresult caseNumber hfound
    exact shows_received hrow hid

theorem safe_recoverDraft : Safe (custody id terms) w (Returns fun _ _ ↦ True) recoverDraft s := by
  refine safe_then (safe_exists _) fun busy t _ _ ↦ ?_
  cases busy with
  | true => exact Safe.ret trivial
  | false =>
    refine safe_then safe_getClaimed fun raw u _ hraw ↦ ?_
    cases raw with
    | none => exact Safe.ret trivial
    | some token =>
      show Safe _ _ _ (caseNumberOf token.state.reportId >>= _) u
      rw [hraw token rfl]
      refine safe_then safe_caseNumberOf fun found v _ hfound ↦ ?_
      exact safe_then (safe_recoverDraftScript token _ hfound) fun _ _ _ _ ↦ Safe.ret trivial

theorem safe_storedResultPage {row : Report} (hrow : row ∈ s.reports.rows) (hid : row.id = id) :
    Safe (custody id terms) w (Returns (PageHolds id terms)) (storedResultPage row.caseNumber)
      s := by
  refine safe_then safe_getResult fun stored t hgrows hstored ↦ ?_
  have hreceived := (shows_received hrow hid).grows hgrows
  cases stored with
  | none => exact Safe.ret fun _ ↦ hreceived
  | some result =>
    show Safe _ _ _ (if result.caseNumber = row.caseNumber then _ else _) t
    split_ifs
    · exact Safe.ret fun htruthful ↦ hstored htruthful result rfl
    · exact Safe.ret fun _ ↦ hreceived

/-- A result that is found while waiting is a true one. -/
theorem safe_awaitResult (polls : ℕ) : ∀ s, Safe (custody id terms) w
    (Returns fun stored t ↦ terms.truthful → ∀ result, stored = some result → Shows id t result)
    (awaitResult polls) s := by
  have hrecovered : ∀ s, Safe (custody id terms) w
      (Returns fun stored t ↦ terms.truthful → ∀ result, stored = some result → Shows id t result)
      (do recoverDraft; call .getdelResult) s :=
    fun s ↦ safe_then safe_recoverDraft fun _ _ _ _ ↦ safe_getdelResult
  induction polls with
  | zero => exact fun s ↦ safe_then (safe_exists _) fun _ t _ _ ↦ hrecovered t
  | succ polls ih =>
    refine fun s ↦ safe_then (safe_exists _) fun waits t _ _ ↦ ?_
    cases waits with
    | false => exact hrecovered t
    | true =>
      refine safe_then safe_getdelResult fun stored u _ hstored ↦ ?_
      cases stored with
      | none => exact ih u
      | some result => exact Safe.ret hstored

theorem safe_submitOutcome (polls : ℕ) : Safe (custody id terms) w
    (Returns fun page t ↦ ∀ shown, page = some shown → PageHolds id terms shown t)
    (submitOutcome polls) s := by
  refine safe_then (safe_awaitResult polls s) fun stored t _ hstored ↦ ?_
  cases stored with
  | some result =>
    refine Safe.ret fun shown hshown ↦ ?_
    cases hshown
    exact fun htruthful ↦ hstored htruthful result rfl
  | none =>
    refine safe_then safe_loadSubmission fun state u _ _ ↦ ?_
    split_ifs
    · refine safe_then (safe_exists _) fun kept v _ _ ↦ Safe.ret fun shown hshown ↦ ?_
      cases hshown
      trivial
    · exact Safe.ret fun shown hshown ↦ nomatch hshown

theorem safe_awaitOtherSubmit (polls : ℕ) : Safe (custody id terms) w
    (Returns (PageHolds id terms)) (awaitOtherSubmit polls) s := by
  refine safe_then (safe_submitOutcome polls) fun page t _ hpage ↦ Safe.ret ?_
  cases page with
  | none => trivial
  | some shown => exact hpage shown rfl

/-! ### The final submit -/

theorem safe_fail {state : Draft} (h : state.reportId = some id) (stepNo : ℕ) (error : ErrorCode) :
    Safe (custody id terms) w (Returns (PageHolds id terms)) (fail state stepNo error) s :=
  safe_then (safe_saveSubmission h) fun _ _ _ _ ↦ Safe.ret trivial

theorem safe_insertFor (property : Report → Prop) {row : CaseNumber → Report}
    (hid : ∀ caseNumber, (row caseNumber).id = id) (hrow : ∀ caseNumber, property (row caseNumber))
    (attempts : ℕ) : ∀ s, Safe (custody id terms) w
      (Returns fun inserted t ↦ t.rowOf w = some inserted ∧ property inserted)
      (insertFor row attempts) s := by
  induction attempts with
  | zero => exact fun s ↦ Safe.raise trivial
  | succ attempts ih =>
    refine fun s ↦ safe_then safe_generateCaseNumber fun caseNumber t _ _ ↦ ?_
    refine safe_then (safe_insertReport (hid caseNumber)) fun inserted u _ hinserted ↦ ?_
    cases inserted with
    | true => exact Safe.ret ⟨hinserted rfl, hrow caseNumber⟩
    | false => exact ih u

theorem safe_filedUnder (orgId : Option OrgId) : Safe (custody id terms) w
    (Returns fun _ _ ↦ True) (filedUnder orgId) s := by
  cases orgId with
  | none => exact safe_defaultOrgId
  | some orgId => exact Safe.ret trivial

/-- What a submit knows of the report it has inserted and of its PIN. -/
def Own (id : ReportId) (w : ℕ) (s : Session) (ours : Report × Pin) : Prop :=
  s.rowOf w = some ours.1 ∧ ours.1.id = id ∧ ours.1.pinHash = hashPin ours.2

theorem Own.grows {t : Session} {ours : Report × Pin} (h : Own id w s ours) (hgrows : Grows s t) :
    Own id w t ours :=
  ⟨hgrows.rowOf w ours.1 h.1, h.2⟩

theorem safe_createReport (orgId : Option OrgId) (answers : Draft) : Safe (custody id terms) w
    (Returns fun ours t ↦ Own id w t ours) (createReport id orgId answers) s := by
  refine safe_then safe_generatePin fun pin t _ _ ↦ ?_
  refine safe_then (safe_filedUnder orgId) fun org u _ _ ↦ ?_
  have hinsert : Safe (custody id terms) w
      (Returns fun row v ↦ v.rowOf w = some row ∧ row.id = id ∧ row.pinHash = hashPin pin)
      (insertFor (fun caseNumber ↦ ⟨id, caseNumber, hashPin pin, org, answers⟩) 5) u := by
    apply safe_insertFor fun row ↦ row.id = id ∧ row.pinHash = hashPin pin
    · exact fun _ ↦ rfl
    · exact fun _ ↦ ⟨rfl, rfl⟩
  exact safe_then hinsert fun row v _ hrow ↦ Safe.ret hrow

theorem safe_beforeCommit (post : Post) {claimed : Token} (h : claimed.state.reportId = some id)
    (nonce : Nonce) : Safe (custody id terms) w
      (Returns fun outcome t ↦ match outcome with
        | .inl page => PageHolds id terms page t
        | .inr ours => Own id w t ours)
      (beforeCommit post claimed nonce id) s := by
  refine safe_then (safe_external _) fun _ t _ _ ↦ ?_
  split
  · refine safe_then (safe_giveBackDraft h nonce) fun _ u _ _ ↦ ?_
    exact safe_then (safe_fail h _ _) fun page v _ hpage ↦ Safe.ret hpage
  · refine safe_then (safe_createReport _ _) fun ours u _ hours ↦ ?_
    exact safe_then (safe_external _) fun _ v hgrows _ ↦ Safe.ret (hours.grows hgrows)

theorem safe_commit {row : Report} (h : s.rowOf w = some row) : Safe (custody id terms) w
    (Returns fun _ t ↦ row ∈ t.reports.rows) commit s :=
  safe_then safe_sendCommit fun _ _ hgrows _ ↦ safe_awaitCommit (hgrows.rowOf w row h)

theorem safe_unlessCancelled {exception : Exn} {page : Handler Page}
    (h : Safe (custody id terms) w (Returns (PageHolds id terms)) page s) :
    Safe (custody id terms) w (Returns (PageHolds id terms)) (unlessCancelled exception page) s := by
  unfold unlessCancelled
  split_ifs
  · exact Safe.raise trivial
  · exact h

/-- The success page of a submit is true when the table has a row with its case number and PIN. -/
theorem safe_submitCommitted (claimed : Token) (nonce : Nonce) (commitError : Option Exn)
    {ours : Report × Pin} (hreport : HasReport id s)
    (h : terms.truthful → ∃ row ∈ s.reports.rows, row.id = id ∧
      row.caseNumber = ours.1.caseNumber ∧ row.pinHash = hashPin ours.2) :
    Safe (custody id terms) w (Returns (PageHolds id terms))
      (submitCommitted claimed nonce commitError ours) s := by
  have hshows : ∀ result : Result, result.caseNumber = ours.1.caseNumber →
      result.pin = some ours.2 → terms.truthful → Shows id s result := by
    intro result hcase hpin htruthful
    obtain ⟨row, hrow, hid, hnumber, hhash⟩ := h htruthful
    refine ⟨row, hrow, hid, hnumber.trans hcase.symm, fun pin hshown ↦ ?_⟩
    rw [hpin, Option.some.injEq] at hshown
    rw [← hshown, hhash]
  refine safe_then (Safe.caught (safe_finishClaim nonce _ hreport fun htruthful stored hstored ↦ ?_))
    fun outcome t hgrows _ ↦ ?_
  · cases hstored
    exact hshows _ rfl rfl htruthful
  · split
    · exact Safe.raise trivial
    · split_ifs
      · exact Safe.raise trivial
      · exact Safe.ret fun htruthful ↦ (hshows _ rfl rfl htruthful).grows hgrows

theorem safe_submittedElsewhere {nonce : Nonce} {exception : Exn} {row : Report}
    (hrow : row ∈ s.reports.rows) (hid : row.id = id) :
    Safe (custody id terms) w (Returns (PageHolds id terms))
      (submitFailed.submittedElsewhere nonce exception row.caseNumber) s := by
  refine safe_then (safe_external _) fun _ t hgrows _ ↦ ?_
  have hrow_t := hgrows.rows row hrow
  refine safe_then (safe_finishClaim nonce none ⟨row, hrow_t, hid⟩ fun _ _ h ↦ nomatch h)
    fun _ u hgrows' _ ↦ ?_
  exact safe_unlessCancelled (safe_storedResultPage (hgrows'.rows row hrow_t) hid)

/-- The failure path: the draft is given back only with the id it was claimed with, and a page is
shown only for the report the lookup found. -/
theorem safe_submitFailed (post : Post) {claimed : Token} (h : claimed.state.reportId = some id)
    (nonce : Nonce) {ours : Option (Report × Pin)} (hours : ∀ own, ours = some own → Own id w s own)
    (exception : Exn) : Safe (custody id terms) w (Returns (PageHolds id terms))
      (submitFailed post claimed nonce id ours exception) s := by
  refine safe_then (Safe.caught (safe_committedCaseNumber _)) fun outcome t hgrows hfound ↦ ?_
  have hpending : Safe (custody id terms) w (Returns (PageHolds id terms))
      (unlessCancelled exception (pure (.pending true))) t :=
    safe_unlessCancelled (Safe.ret trivial)
  rcases outcome with lookupError | found
  · cases lookupError with
    | cancelled => exact Safe.raise trivial
    | error => exact hpending
  rcases found with _ | committed
  · cases ours with
    | some own => exact hpending
    | none =>
      refine safe_then (safe_external _) fun _ u _ _ ↦ ?_
      refine safe_then (safe_giveBackDraft h nonce) fun givenBack v _ _ ↦ ?_
      apply safe_unlessCancelled
      split_ifs
      · exact safe_fail h _ _
      · exact safe_awaitOtherSubmit _
  · obtain ⟨row, hrow, hid, rfl, hpin⟩ := hfound _ rfl committed rfl
    cases ours with
    | none => exact safe_submittedElsewhere hrow hid
    | some own =>
      show Safe _ _ _ (if row.caseNumber = own.1.caseNumber then _ else _) t
      split_ifs with hcase
      · refine safe_submitCommitted claimed nonce _ ⟨row, hrow, hid⟩ fun htruthful ↦ ?_
        have hhash := hpin htruthful own.1 rfl hcase
        exact ⟨row, hrow, hid, hcase, hhash.trans (hours own rfl).2.2⟩
      · exact safe_submittedElsewhere hrow hid

theorem safe_finalSubmit (post : Post) : Safe (custody id terms) w
    (Returns (PageHolds id terms)) (finalSubmit post) s := by
  refine safe_then safe_claimDraft fun claim t _ hclaim ↦ ?_
  rcases claim with _ | ⟨claimed, nonce⟩
  · exact safe_then (safe_external _) fun _ _ _ _ ↦ safe_awaitOtherSubmit _
  have hid := hclaim claimed nonce rfl
  simp only [hid]
  refine safe_then (Safe.caught (safe_beforeCommit post hid nonce)) fun outcome u _ houtcome ↦ ?_
  rcases outcome with exception | page | ours
  · exact safe_submitFailed post hid nonce (by simp) exception
  · exact Safe.ret (houtcome _ rfl)
  have hown : Own id w u ours := houtcome _ rfl
  refine safe_then (Safe.caught (safe_commit hown.1)) fun outcome v hgrows hcommitted ↦ ?_
  cases outcome with
  | error exception =>
    refine safe_submitFailed post hid nonce (fun own h ↦ ?_) exception
    cases h
    exact hown.grows hgrows
  | ok _ =>
    have hrow := hcommitted () rfl
    exact safe_submitCommitted claimed nonce none ⟨ours.1, hrow, hown.2.1⟩
      fun _ ↦ ⟨ours.1, hrow, hown.2.1, rfl, hown.2.2⟩

/-! ### The routes -/

theorem safe_answerPost (post : Post) {state : Draft} (h : state.reportId = some id) :
    Safe (custody id terms) w (Returns (PageHolds id terms)) (answerPost post state) s := by
  unfold answerPost
  split
  · exact safe_then (safe_saveSubmission h) fun _ _ _ _ ↦ Safe.ret trivial
  · exact safe_finalSubmit post

/-- The branches of a handler on whether a loaded draft is there. -/
theorem safe_ite_isEmpty {state : Draft} (hstate : Carries id state) {absent present : Handler Page}
    (habsent : Safe (custody id terms) w (Returns (PageHolds id terms)) absent s)
    (hpresent : state.reportId = some id →
      Safe (custody id terms) w (Returns (PageHolds id terms)) present s) :
    Safe (custody id terms) w (Returns (PageHolds id terms))
      (if state.isEmpty then absent else present) s := by
  split_ifs with hempty
  · exact habsent
  · exact hpresent (hstate (by simpa using hempty))

theorem safe_submitPost (post : Post) : Safe (custody id terms) w
    (Returns (PageHolds id terms)) (submitPost post) s := by
  refine safe_then (safe_loadDraft _) fun state t _ hstate ↦ ?_
  refine safe_ite_isEmpty hstate ?_ (safe_answerPost post)
  refine safe_then safe_recoverDraft fun _ u _ _ ↦ ?_
  refine safe_then (safe_loadDraft _) fun again v _ hagain ↦ ?_
  refine safe_ite_isEmpty hagain ?_ (safe_answerPost post)
  refine safe_then (safe_exists _) fun busy x _ _ ↦ ?_
  split_ifs
  · exact safe_awaitOtherSubmit _
  · exact Safe.ret trivial

theorem safe_renderWizard (visit : Visit) : Safe (custody id terms) w
    (Returns (PageHolds id terms)) (renderWizard visit) s := by
  refine safe_then (safe_loadDraft _) fun state t _ hstate ↦ ?_
  refine safe_ite_isEmpty hstate ?_ fun hid ↦ ?_
  · exact safe_then safe_loadSubmission fun _ _ _ _ ↦ Safe.ret trivial
  · exact safe_then (safe_saveSubmission hid) fun _ _ _ _ ↦ Safe.ret trivial

theorem safe_submitGet (visit : Visit) : Safe (custody id terms) w
    (Returns (PageHolds id terms)) (submitGet visit) s := by
  refine safe_then safe_loadSubmission fun state t _ hstate ↦ ?_
  refine safe_ite_isEmpty hstate ?_ fun _ ↦ safe_renderWizard visit
  refine safe_then (safe_exists _) fun busy u _ _ ↦ ?_
  split_ifs
  · refine safe_then (safe_submitOutcome 0) fun page v _ hpage ↦ ?_
    cases page with
    | some shown => exact Safe.ret (hpage shown rfl)
    | none => exact safe_renderWizard visit
  · exact safe_renderWizard visit

theorem safe_submitRemoveAttachment (tenant : Tenant) (index : Int) : Safe (custody id terms) w
    (Returns (PageHolds id terms)) (submitRemoveAttachment tenant index) s := by
  refine safe_then (safe_loadDraft _) fun state t _ hstate ↦ ?_
  extract_lets files
  split_ifs with hfile
  · have hid := hstate (Draft.not_isEmpty_of_step hfile.1)
    exact safe_then (safe_saveSubmission hid) fun _ _ _ _ ↦ Safe.ret trivial
  · exact Safe.ret trivial

theorem safe_handler {request : Request} (h : terms.keeps → request ≠ .restart) :
    Safe (custody id terms) w (Returns (PageHolds id terms)) (handler request) s := by
  cases request with
  | get visit => exact safe_submitGet visit
  | post post => exact safe_submitPost post
  | removeAttachment tenant index => exact safe_submitRemoveAttachment tenant index
  | restart =>
    have hforgets : ¬terms.keeps := fun hkeeps ↦ h hkeeps rfl
    exact safe_then (safe_deleteDraft hforgets) fun _ _ _ _ ↦ Safe.ret trivial

/-- In every run the contract permits, the invariant holds in the end and every page was true. -/
theorem custody_run {events : List (Event Request Exn Draw Change)}
    {first last : System Session (Handler Page)} (hinv : Custody id terms first.shared)
    (hidle : ∀ w, first.worker w = none)
    (hpermits : Meets semantics handler (custody id terms).Permits first events)
    (hrun : run semantics handler first events = some last) : (custody id terms).Holds last :=
  Contract.run_safe (fun _ _ _ hadmits _ _ ↦ safe_handler hadmits)
    (Contract.holds_of_idle hinv (fun _ ↦ trivial) hidle) hpermits hrun

end OpenWhistle.Submission
