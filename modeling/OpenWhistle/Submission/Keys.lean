import OpenWhistle.Submission.Draft

/-!
# The Redis keys of a submission session and the scripts on them

A session has five keys: its draft, the draft while a submit has claimed it, the nonce of that claim
("pending"), the result of a finished submit, and the report id of a draft saved without one. Each
may be absent, and each may expire at any moment. A script runs as one step; the five scripts are
translated here one by one, with the values they return.

`GiveBackOpen` and `RecoverOpen` say when the two scripts that can write the draft key get past
their guards and find no draft; `claimScript` and `finishScript` never write it. The section on
custody says what each script does to the answers: none of them lets go of the last copy of a draft
except the finishing one and a recovery that found the report.
-/

set_option autoImplicit false
set_option relaxedAutoImplicit false

namespace OpenWhistle.Submission

/-- The keys of one session; an absent key is `none`. -/
structure Keys where
  draft : Option Token := none
  claimed : Option Token := none
  pending : Option Nonce := none
  result : Option Result := none
  reportId : Option ReportId := none
  deriving DecidableEq

/-- The name of a key, for its expiry. -/
inductive Key
  | draft
  | claimed
  | pending
  | result
  | reportId
  deriving DecidableEq

namespace Keys

def expire (keys : Keys) : Key → Keys
  | .draft => { keys with draft := none }
  | .claimed => { keys with claimed := none }
  | .pending => { keys with pending := none }
  | .result => { keys with result := none }
  | .reportId => { keys with reportId := none }

/-! ### The scripts -/

/-- `_ASSIGN_REPORT_ID`: one id for a draft saved without one, whoever loads it; none once the draft
is no longer the one that was read. -/
def assignReportIdScript (keys : Keys) (token : Token) (fresh : ReportId) :
    Option ReportId × Keys :=
  if keys.draft = some token then
    (some (keys.reportId.getD fresh), { keys with reportId := some (keys.reportId.getD fresh) })
  else (none, keys)

/-- `_CLAIM_DRAFT`: renames the draft to its claimed key and marks the claim as pending, unless there
is no draft or one is claimed. -/
def claimDraftScript (keys : Keys) (nonce : Nonce) : Option Token × Keys :=
  match keys.draft, keys.claimed with
  | some token, none =>
    (some token, { keys with draft := none, claimed := some token, pending := some nonce })
  | _, _ => (none, keys)

/-- `_RECOVER_DRAFT`: for a claim whose pending key is gone and that is still the one that was read.
Without a result the draft is renamed back, with one it is spent. -/
def recoverDraftScript (keys : Keys) (token : Token) (result : Option Result) : Bool × Keys :=
  if keys.pending.isSome ∨ keys.draft.isSome ∨ keys.claimed ≠ some token then (false, keys)
  else
    match result with
    | none => (true, { keys with draft := keys.claimed, claimed := none })
    | some stored =>
      (true, { keys with claimed := none, reportId := none, result := some stored })

/-- `_GIVE_BACK_DRAFT`: never touches a newer claim, never overwrites a draft that came back. -/
def giveBackDraftScript (keys : Keys) (token : Token) (nonce : Nonce) : Bool × Keys :=
  if keys.pending.isSome ∧ keys.pending ≠ some nonce then (false, keys)
  else (true, { keys with draft := some (keys.draft.getD token), claimed := none, pending := none })

/-- `_FINISH_CLAIM`: stores the result if there is one; the draft is spent unless a newer claim
holds it. -/
def finishClaimScript (keys : Keys) (nonce : Nonce) (result : Option Result) : Keys :=
  let stored := { keys with result := result.orElse fun _ ↦ keys.result }
  if keys.pending.isSome ∧ keys.pending ≠ some nonce then stored
  else { stored with draft := none, claimed := none, pending := none, reportId := none }

/-- `SET` of the draft key by `_save_submission`. -/
def saveDraft (keys : Keys) (iv : ℕ) (state : Draft) (fresh : ReportId) : Keys :=
  { keys with draft := some ⟨iv, state.withReportId fresh⟩ }

/-- `DEL` of the draft and its report id, by a reporter who starts again. -/
def deleteDraft (keys : Keys) : Keys := { keys with draft := none, reportId := none }

/-! ### When a script writes the draft key -/

/-- The guard of the give-back lets this call through, and there is no draft. -/
def GiveBackOpen (keys : Keys) (nonce : Nonce) : Prop :=
  keys.draft = none ∧ (keys.pending = none ∨ keys.pending = some nonce)

/-- The guard of the recovery lets this call through, and it found no report. -/
def RecoverOpen (keys : Keys) (token : Token) (result : Option Result) : Prop :=
  keys.draft = none ∧ keys.pending = none ∧ keys.claimed = some token ∧ result = none

instance (keys : Keys) (nonce : Nonce) : Decidable (keys.GiveBackOpen nonce) :=
  inferInstanceAs (Decidable (_ ∧ _))

instance (keys : Keys) (token : Token) (result : Option Result) :
    Decidable (keys.RecoverOpen token result) :=
  inferInstanceAs (Decidable (_ ∧ _))

theorem assignReportIdScript_draft (keys : Keys) (token : Token) (fresh : ReportId)
    (h : keys.draft = none) : (keys.assignReportIdScript token fresh).2.draft = none := by
  simp [assignReportIdScript, h]

theorem claimDraftScript_draft (keys : Keys) (nonce : Nonce) (h : keys.draft = none) :
    (keys.claimDraftScript nonce).2.draft = none := by
  simp [claimDraftScript, h]

theorem finishClaimScript_draft (keys : Keys) (nonce : Nonce) (result : Option Result)
    (h : keys.draft = none) : (keys.finishClaimScript nonce result).draft = none := by
  unfold finishClaimScript
  split_ifs
  · exact h
  · rfl

/-- Where there is no draft, the give-back writes one exactly when its guard is open. -/
theorem giveBackDraftScript_draft_isSome (keys : Keys) (token : Token) (nonce : Nonce)
    (h : keys.draft = none) :
    (keys.giveBackDraftScript token nonce).2.draft ≠ none ↔ keys.GiveBackOpen nonce := by
  unfold giveBackDraftScript GiveBackOpen
  cases hpending : keys.pending with
  | none => simp [h]
  | some other =>
    by_cases hnonce : other = nonce
    · simp [h, hnonce]
    · simp [h, hnonce]

/-- Where there is no draft, the recovery writes one exactly when its guard is open and it found no
report. -/
theorem recoverDraftScript_draft_isSome (keys : Keys) (token : Token) (result : Option Result)
    (h : keys.draft = none) :
    (keys.recoverDraftScript token result).2.draft ≠ none ↔ keys.RecoverOpen token result := by
  unfold recoverDraftScript RecoverOpen
  by_cases hpending : keys.pending = none
  · by_cases hclaimed : keys.claimed = some token
    · cases result with
      | none => simp [h, hpending, hclaimed]
      | some stored => simp [h, hpending, hclaimed]
    · simp [h, hclaimed]
  · simp [h, hpending, Option.isSome_iff_ne_none]

/-! ### What the scripts do to the stored result -/

theorem assignReportIdScript_result (keys : Keys) (token : Token) (fresh : ReportId) :
    (keys.assignReportIdScript token fresh).2.result = keys.result := by
  unfold assignReportIdScript
  split_ifs
  · rfl
  · rfl

theorem claimDraftScript_result (keys : Keys) (nonce : Nonce) :
    (keys.claimDraftScript nonce).2.result = keys.result := by
  unfold claimDraftScript
  split
  · rfl
  · rfl

theorem giveBackDraftScript_result (keys : Keys) (token : Token) (nonce : Nonce) :
    (keys.giveBackDraftScript token nonce).2.result = keys.result := by
  unfold giveBackDraftScript
  split_ifs
  · rfl
  · rfl

/-- After a recovery the stored result is the old one or the one the recovery brought. -/
theorem recoverDraftScript_result {keys : Keys} {token : Token} {result : Option Result}
    {stored : Result} (h : (keys.recoverDraftScript token result).2.result = some stored) :
    keys.result = some stored ∨ result = some stored := by
  unfold recoverDraftScript at h
  split_ifs at h
  · exact .inl h
  · cases result with
    | none => exact .inl h
    | some brought => exact .inr h

/-- After the finishing script the stored result is the old one or the one the submit brought. -/
theorem finishClaimScript_result {keys : Keys} {nonce : Nonce} {result : Option Result}
    {stored : Result} (h : (keys.finishClaimScript nonce result).result = some stored) :
    keys.result = some stored ∨ result = some stored := by
  have heq : (keys.finishClaimScript nonce result).result = result.orElse fun _ ↦ keys.result := by
    unfold finishClaimScript
    split_ifs
    · rfl
    · rfl
  rw [heq] at h
  cases result with
  | none => exact .inl h
  | some brought => exact .inr h

/-! ### Custody of the answers -/

/-- The answers are in one of the two keys that hold a draft. -/
def Holds (keys : Keys) : Prop := keys.draft ≠ none ∨ keys.claimed ≠ none

instance (keys : Keys) : Decidable keys.Holds := inferInstanceAs (Decidable (_ ∨ _))

theorem holds_assignReportIdScript {keys : Keys} (h : keys.Holds) (token : Token)
    (fresh : ReportId) : (keys.assignReportIdScript token fresh).2.Holds := by
  unfold assignReportIdScript
  split_ifs
  · exact h
  · exact h

theorem holds_claimDraftScript {keys : Keys} (h : keys.Holds) (nonce : Nonce) :
    (keys.claimDraftScript nonce).2.Holds := by
  unfold claimDraftScript
  split
  · exact Or.inr (by simp)
  · exact h

/-- A recovery that found no report moves the draft, it does not drop it. -/
theorem holds_recoverDraftScript_none {keys : Keys} (h : keys.Holds) (token : Token) :
    (keys.recoverDraftScript token none).2.Holds := by
  unfold recoverDraftScript
  split_ifs with hguard
  · exact h
  · rw [not_or, not_or, not_not] at hguard
    exact Or.inl (by simp [hguard.2.2])

theorem holds_giveBackDraftScript {keys : Keys} (h : keys.Holds) (token : Token) (nonce : Nonce) :
    (keys.giveBackDraftScript token nonce).2.Holds := by
  unfold giveBackDraftScript
  split_ifs
  · exact h
  · exact Or.inl (by simp)

theorem holds_saveDraft (keys : Keys) (iv : ℕ) (state : Draft) (fresh : ReportId) :
    (keys.saveDraft iv state fresh).Holds :=
  Or.inl (by simp [saveDraft])

/-! ### The report id of the stored drafts -/

/-- Whatever draft is stored, under either key, carries the report id `id`. -/
def CarryId (keys : Keys) (id : ReportId) : Prop :=
  (∀ token, keys.draft = some token → token.state.reportId = some id) ∧
    ∀ token, keys.claimed = some token → token.state.reportId = some id

theorem CarryId.expire {keys : Keys} {id : ReportId} (h : keys.CarryId id) (key : Key) :
    (keys.expire key).CarryId id := by
  cases key with
  | draft => exact ⟨(fun _ habsent ↦ nomatch habsent), h.2⟩
  | claimed => exact ⟨h.1, (fun _ habsent ↦ nomatch habsent)⟩
  | pending => exact h
  | result => exact h
  | reportId => exact h

theorem CarryId.assignReportIdScript {keys : Keys} {id : ReportId} (h : keys.CarryId id)
    (token : Token) (fresh : ReportId) : (keys.assignReportIdScript token fresh).2.CarryId id := by
  unfold Keys.assignReportIdScript
  split_ifs
  · exact h
  · exact h

theorem CarryId.claimDraftScript {keys : Keys} {id : ReportId} (h : keys.CarryId id)
    (nonce : Nonce) : (keys.claimDraftScript nonce).2.CarryId id ∧
      ∀ token, (keys.claimDraftScript nonce).1 = some token → token.state.reportId = some id := by
  unfold Keys.claimDraftScript
  split
  · rename_i token hdraft _
    have hid := h.1 token hdraft
    refine ⟨⟨(fun _ habsent ↦ nomatch habsent), fun other hother ↦ ?_⟩, fun other hother ↦ ?_⟩
    · rw [Option.some.injEq] at hother
      exact hother ▸ hid
    · rw [Option.some.injEq] at hother
      exact hother ▸ hid
  · exact ⟨h, (fun _ habsent ↦ nomatch habsent)⟩

theorem CarryId.recoverDraftScript {keys : Keys} {id : ReportId} (h : keys.CarryId id)
    (token : Token) (result : Option Result) :
    (keys.recoverDraftScript token result).2.CarryId id := by
  unfold Keys.recoverDraftScript
  split_ifs
  · exact h
  · cases result with
    | none => exact ⟨h.2, (fun _ habsent ↦ nomatch habsent)⟩
    | some stored => exact ⟨h.1, (fun _ habsent ↦ nomatch habsent)⟩

theorem CarryId.giveBackDraftScript {keys : Keys} {id : ReportId} (h : keys.CarryId id)
    {token : Token} (htoken : token.state.reportId = some id) (nonce : Nonce) :
    (keys.giveBackDraftScript token nonce).2.CarryId id := by
  unfold Keys.giveBackDraftScript
  split_ifs
  · exact h
  · refine ⟨fun other hother ↦ ?_, (fun _ habsent ↦ nomatch habsent)⟩
    rw [Option.some.injEq] at hother
    cases hdraft : keys.draft with
    | none => rw [← hother, hdraft]; exact htoken
    | some stored => rw [← hother, hdraft]; exact h.1 stored hdraft

theorem CarryId.finishClaimScript {keys : Keys} {id : ReportId} (h : keys.CarryId id)
    (nonce : Nonce) (result : Option Result) : (keys.finishClaimScript nonce result).CarryId id := by
  unfold Keys.finishClaimScript
  split_ifs
  · exact h
  · exact ⟨(fun _ habsent ↦ nomatch habsent), (fun _ habsent ↦ nomatch habsent)⟩

theorem CarryId.saveDraft {keys : Keys} {id : ReportId} (h : keys.CarryId id) {state : Draft}
    (hstate : state.reportId = some id) (iv : ℕ) (fresh : ReportId) :
    (keys.saveDraft iv state fresh).CarryId id := by
  refine ⟨fun other hother ↦ ?_, h.2⟩
  rw [Keys.saveDraft, Option.some.injEq] at hother
  rw [← hother]
  exact Draft.withReportId_of_some hstate fresh

theorem CarryId.deleteDraft {keys : Keys} {id : ReportId} (h : keys.CarryId id) :
    keys.deleteDraft.CarryId id :=
  ⟨(fun _ habsent ↦ nomatch habsent), h.2⟩

end Keys

end OpenWhistle.Submission
