import Mathlib.Logic.Function.Basic
import OpenWhistle.Submission.Walk

/-!
# The report id of a draft saved without one

Such a draft gets its id in a key of its own, from the first loader that finds the key absent. The
id is the first one ever drawn in the session: nothing is saved, claimed or inserted before a load,
and a load of such a draft draws. From then on every stored draft is the original one or carries
that id, and while the original one is stored the key is there for the next loader.

Three things take the key away: the end of a claim, a recovery that found the report, and a reporter
who starts again. The first two take every stored copy with it. What is left is a copy in the hands
of a worker that claimed the original and has yet to give it back; `KeepsId` says that it does not
bring it back after the key has gone.
-/

set_option autoImplicit false
set_option relaxedAutoImplicit false

namespace OpenWhistle.Submission

open Interleaving

/-- A draft key or the claimed key holds the token. -/
def Keys.Stores (keys : Keys) (token : Token) : Prop :=
  keys.draft = some token ∨ keys.claimed = some token

instance (keys : Keys) (token : Token) : Decidable (keys.Stores token) :=
  inferInstanceAs (Decidable (_ ∨ _))

/-- The first id that was drawn in the session. -/
def Session.agreed (s : Session) : Option ReportId := s.minted.getLast?

/-- A draft carries the id that was drawn first. -/
def Agrees (s : Session) (state : Draft) : Prop :=
  ∃ id, state.reportId = some id ∧ s.agreed = some id

/-- The id that was drawn first stays the same. -/
def Later (s t : Session) : Prop := ∀ id, s.agreed = some id → t.agreed = some id

/-- The give-back of a draft without an id does not write the draft key after the key of the report
id has gone, and nobody starts again while a draft without an id is claimed. -/
def KeepsId (keys : Keys) : Op → Prop
  | .giveBackDraft token nonce =>
    token.state.reportId = none → keys.GiveBackOpen nonce → keys.reportId ≠ none
  | .deleteDraft => ∀ token ∈ keys.claimed, token.state.reportId ≠ none
  | _ => True

instance (keys : Keys) (operation : Op) : Decidable (KeepsId keys operation) :=
  match operation with
  | .giveBackDraft token nonce =>
    inferInstanceAs (Decidable (token.state.reportId = none → keys.GiveBackOpen nonce → _))
  | .deleteDraft => inferInstanceAs (Decidable (∀ token ∈ keys.claimed, _))
  | .getDraft | .getClaimed | .getResult | .getdelResult | .exists _ | .assignReportId _
  | .setDraft _ | .claimDraft | .recoverDraft _ _ | .finishClaim _ _ | .external _ | .defaultOrgId
  | .generatePin | .generateCaseNumber | .insertReport _ | .sendCommit | .awaitCommit
  | .committedCaseNumber _ _ => isTrue trivial

/-- The key of the report id does not expire before a stored draft without an id. -/
def Outlives (s : Session) : Change → Prop
  | .expire .reportId => (∀ token ∈ s.keys.draft, token.state.reportId ≠ none) ∧
    ∀ token ∈ s.keys.claimed, token.state.reportId ≠ none
  | _ => True

instance (s : Session) (change : Change) : Decidable (Outlives s change) :=
  match change with
  | .expire .reportId => inferInstanceAs (Decidable (_ ∧ _))
  | .expire .draft | .expire .claimed | .expire .pending | .expire .result => isTrue trivial
  | .land _ | .abort _ | .otherReport _ => isTrue trivial

/-- The invariant of a session whose draft `raw` was saved without an id. -/
structure Adoption (raw : Token) (s : Session) : Prop where
  stored : ∀ token, s.keys.Stores token → token = raw ∨ Agrees s token.state
  unclaimed : s.agreed = none → s.keys.claimed = none
  key : ∀ id, s.keys.reportId = some id → s.agreed = some id
  guarded : s.keys.Stores raw → s.agreed ≠ none → s.keys.reportId ≠ none
  inserted : ∀ entry ∈ s.inserted, s.agreed = some entry.2.id
  spent : s.finished = true → s.agreed ≠ none

variable {raw : Token} {s t : Session} {w : ℕ}

/-! ### The id that was drawn first -/

theorem Later.refl (s : Session) : Later s s := fun _ h ↦ h

theorem Later.trans {u : Session} (hst : Later s t) (htu : Later t u) : Later s u :=
  fun id h ↦ htu id (hst id h)

theorem Later.of_eq (h : t.minted = s.minted) : Later s t := by
  intro id hid
  rw [Session.agreed, h]
  exact hid

theorem Later.of_cons {fresh : ReportId} (h : t.minted = fresh :: s.minted) : Later s t := by
  intro id hid
  have hlast : s.minted.getLast? = some id := hid
  rw [Session.agreed, h, List.getLast?_cons, hlast, Option.getD_some]

theorem Later.agreed_ne_none (h : Later s t) (hagreed : s.agreed ≠ none) : t.agreed ≠ none := by
  obtain ⟨id, hid⟩ := Option.ne_none_iff_exists'.mp hagreed
  rw [h id hid]
  exact Option.some_ne_none id

theorem Agrees.later {state : Draft} (h : Agrees s state) (hlater : Later s t) :
    Agrees t state := by
  obtain ⟨id, hstate, hid⟩ := h
  exact ⟨id, hstate, hlater id hid⟩

theorem Agrees.agreed_ne_none {state : Draft} (h : Agrees s state) : s.agreed ≠ none := by
  obtain ⟨id, -, hid⟩ := h
  rw [hid]
  exact Option.some_ne_none id

theorem later_perform {operation : Op} {draw : Draw} {reply : Except Exn (Reply operation)}
    (h : perform w operation draw s = some (reply, t)) : Later s t := by
  cases operation with
  | assignReportId token =>
    cases h
    exact Later.of_cons rfl
  | setDraft state =>
    cases h
    exact Later.of_cons rfl
  | insertReport row =>
    rcases insertReport_cases h with ⟨-, rfl⟩ | ⟨-, -, -, rfl⟩
    · exact Later.refl t
    · exact Later.of_eq rfl
  | sendCommit =>
    rcases sendCommit_cases h with rfl | ⟨-, rfl⟩
    · exact Later.refl t
    · exact Later.of_eq rfl
  | awaitCommit =>
    obtain ⟨rfl, -⟩ := awaitCommit_cases h
    exact Later.refl t
  | _ =>
    cases h
    exact Later.of_eq rfl

/-- What the requests may rely on: the id that was drawn first stays, and none is put into the key of
the report id later than that. -/
structure Moves (s t : Session) : Prop where
  later : Later s t
  first : s.keys.reportId = none → t.keys.reportId ≠ none → s.agreed = none

theorem Moves.refl (s : Session) : Moves s s := ⟨Later.refl s, fun hnone hsome ↦ absurd hnone hsome⟩

theorem Moves.trans {u : Session} (hst : Moves s t) (htu : Moves t u) : Moves s u := by
  refine ⟨hst.later.trans htu.later, fun hnone hsome ↦ ?_⟩
  by_cases hkey : t.keys.reportId = none
  · by_contra hagreed
    exact hst.later.agreed_ne_none hagreed (htu.first hkey hsome)
  · exact hst.first hnone hkey

/-- The operations that may put an id into the key. -/
def Op.assigns : Op → Bool
  | .assignReportId _ => true
  | _ => false

/-- Every other operation leaves an absent key absent. -/
theorem reportId_perform {operation : Op} {draw : Draw} {reply : Except Exn (Reply operation)}
    (hassigns : operation.assigns = false) (hnone : s.keys.reportId = none)
    (h : perform w operation draw s = some (reply, t)) : t.keys.reportId = none := by
  cases operation with
  | assignReportId token => cases hassigns
  | claimDraft =>
    cases h
    change (s.keys.claimDraftScript draw.nonce).2.reportId = none
    unfold Keys.claimDraftScript
    split
    · exact hnone
    · exact hnone
  | recoverDraft token result =>
    cases h
    change (s.keys.recoverDraftScript token result).2.reportId = none
    unfold Keys.recoverDraftScript
    split_ifs
    · exact hnone
    · cases result with
      | none => exact hnone
      | some stored => rfl
  | giveBackDraft token nonce =>
    cases h
    change (s.keys.giveBackDraftScript token nonce).2.reportId = none
    unfold Keys.giveBackDraftScript
    split_ifs
    · exact hnone
    · exact hnone
  | finishClaim nonce result =>
    cases h
    change (s.keys.finishClaimScript nonce result).reportId = none
    unfold Keys.finishClaimScript
    split_ifs
    · exact hnone
    · rfl
  | insertReport row =>
    rcases insertReport_cases h with ⟨-, rfl⟩ | ⟨-, -, -, rfl⟩
    · exact hnone
    · exact hnone
  | sendCommit =>
    rcases sendCommit_cases h with rfl | ⟨-, rfl⟩
    · exact hnone
    · exact hnone
  | awaitCommit =>
    obtain ⟨rfl, -⟩ := awaitCommit_cases h
    exact hnone
  | deleteDraft =>
    cases h
    rfl
  | _ =>
    cases h
    exact hnone

theorem reportId_environment {change : Change} (hnone : s.keys.reportId = none)
    (h : environment change s = some t) : t.keys.reportId = none := by
  cases change with
  | expire key =>
    cases h
    cases key with
    | reportId => rfl
    | _ => exact hnone
  | land w =>
    obtain ⟨row, hfresh, -, rfl⟩ := land_cases h
    exact hnone
  | abort w =>
    obtain ⟨-, rfl⟩ := abort_cases h
    exact hnone
  | otherReport row =>
    obtain ⟨-, hfresh, rfl⟩ := otherReport_cases h
    exact hnone

/-! ### The invariant -/

/-- A step that draws no id: what is stored afterwards was stored before, or is all right. -/
theorem Adoption.with_keys (h : Adoption raw s) (hminted : t.minted = s.minted)
    (hinserted : t.inserted = s.inserted) (hfinished : t.finished = s.finished)
    (hstored : ∀ token, t.keys.Stores token → token = raw ∨ Agrees s token.state)
    (hunclaimed : s.agreed = none → t.keys.claimed = none)
    (hkey : ∀ id, t.keys.reportId = some id → s.keys.reportId = some id)
    (hguarded : t.keys.Stores raw → s.agreed ≠ none → t.keys.reportId ≠ none) :
    Adoption raw t := by
  have hagreed : t.agreed = s.agreed := by rw [Session.agreed, hminted, Session.agreed]
  have hlater : Later s t := Later.of_eq hminted
  constructor
  · intro token htoken
    exact (hstored token htoken).imp_right fun hagrees ↦ hagrees.later hlater
  · rw [hagreed]
    exact hunclaimed
  · intro id hid
    rw [hagreed]
    exact h.key id (hkey id hid)
  · rw [hagreed]
    exact hguarded
  · rw [hagreed, hinserted]
    exact h.inserted
  · rw [hagreed, hfinished]
    exact h.spent

/-- Nothing is claimed before the first draw. -/
theorem Adoption.agreed_of_claimed (h : Adoption raw s) {token : Token}
    (hclaimed : s.keys.claimed = some token) : s.agreed ≠ none := by
  intro hnone
  rw [h.unclaimed hnone] at hclaimed
  cases hclaimed

/-- A step that leaves the keys, the drawn ids and the inserted rows alone. -/
theorem Adoption.of_eq (h : Adoption raw s) (hkeys : t.keys = s.keys)
    (hminted : t.minted = s.minted) (hinserted : t.inserted = s.inserted)
    (hfinished : t.finished = s.finished) : Adoption raw t := by
  refine h.with_keys hminted hinserted hfinished ?_ ?_ ?_ ?_
  · rw [hkeys]
    exact h.stored
  · rw [hkeys]
    exact h.unclaimed
  · rw [hkeys]
    exact fun _ hid ↦ hid
  · rw [hkeys]
    exact h.guarded

theorem adoption_environment {change : Change} (hraw : raw.state.reportId = none)
    (h : Adoption raw s) (houtlives : Outlives s change) (hchange : environment change s = some t) :
    Adoption raw t ∧ Moves s t := by
  have hfirst : s.keys.reportId = none → t.keys.reportId ≠ none → s.agreed = none :=
    fun hnone hsome ↦ absurd (reportId_environment hnone hchange) hsome
  cases change with
  | expire key =>
    cases hchange
    refine ⟨?_, Later.of_eq rfl, hfirst⟩
    have hshrinks : ∀ token, (s.keys.expire key).Stores token → s.keys.Stores token := by
      intro token htoken
      cases key with
      | draft => exact .inr (htoken.resolve_left fun habsent ↦ nomatch habsent)
      | claimed => exact .inl (htoken.resolve_right fun habsent ↦ nomatch habsent)
      | _ => exact htoken
    refine h.with_keys rfl rfl rfl (fun token htoken ↦ h.stored token (hshrinks token htoken))
      ?_ ?_ ?_
    · intro hnone
      cases key with
      | claimed => rfl
      | _ => exact h.unclaimed hnone
    · intro id hid
      cases key with
      | reportId => exact nomatch hid
      | _ => exact hid
    · intro hstores hagreed
      have hbefore := hshrinks raw hstores
      cases key with
      | reportId => exact absurd hraw (hbefore.elim (houtlives.1 raw) (houtlives.2 raw))
      | _ => exact h.guarded hbefore hagreed
  | land w =>
    obtain ⟨row, hfresh, -, rfl⟩ := land_cases hchange
    exact ⟨h.of_eq rfl rfl rfl rfl, Later.of_eq rfl, hfirst⟩
  | abort w =>
    obtain ⟨-, rfl⟩ := abort_cases hchange
    exact ⟨h.of_eq rfl rfl rfl rfl, Later.of_eq rfl, hfirst⟩
  | otherReport row =>
    obtain ⟨-, hfresh, rfl⟩ := otherReport_cases hchange
    exact ⟨h.of_eq rfl rfl rfl rfl, Later.of_eq rfl, hfirst⟩

/-- The contract of the requests on such a session. -/
def adoption (raw : Token) (hraw : raw.state.reportId = none) :
    Contract semantics Request Page where
  invariant := Adoption raw
  rely _ := Moves
  rely_refl _ := Moves.refl
  rely_trans _ _ _ _ := Moves.trans
  idle _ _ := True
  idle_stable _ _ _ _ _ _ := trivial
  ends _ _ _ := True
  ends_stable _ _ _ _ _ _ _ := trivial
  admits _ := True
  allows _ operation s := KeepsId s.keys operation
  trusts _ _ _ := True
  tolerates change s := Outlives s change
  environment_safe _ _ _ hinv houtlives hchange :=
    have h := adoption_environment hraw hinv houtlives hchange
    ⟨h.1, fun _ ↦ h.2⟩

/-! ### The operations -/

variable {hraw : raw.state.reportId = none}

theorem adopts_call {operation : Op} {promise : Reply operation → Session → Prop}
    (hassigns : operation.assigns = false)
    (h : ∀ t, Later s t → Adoption raw t → KeepsId t.keys operation → ∀ draw reply u,
      perform w operation draw t = some (reply, u) →
        Adoption raw u ∧ ∀ value, reply = .ok value → promise value u) :
    Safe (adoption raw hraw) w (Returns promise) (call operation) s := by
  refine Safe.call_returns fun t hmoves hinv hkeeps draw reply u hperform ↦ ?_
  obtain ⟨hinv', hpromise⟩ := h t hmoves.later hinv hkeeps draw reply u hperform
  exact ⟨hinv', fun _ _ ↦ ⟨later_perform hperform, fun hnone hsome ↦
    absurd (reportId_perform hassigns hnone hperform) hsome⟩, hpromise⟩

/-- An operation that only reads. -/
theorem adopts_read {operation : Op} {promise : Reply operation → Session → Prop}
    (hassigns : operation.assigns = false)
    (hread : ∀ draw t reply u, perform w operation draw t = some (reply, u) → u = t)
    (h : ∀ t, Adoption raw t → ∀ draw value,
      perform w operation draw t = some (.ok value, t) → promise value t) :
    Safe (adoption raw hraw) w (Returns promise) (call operation) s := by
  refine adopts_call hassigns fun t _ hinv _ draw reply u hperform ↦ ?_
  obtain rfl := hread draw t reply u hperform
  refine ⟨hinv, fun value hvalue ↦ ?_⟩
  subst hvalue
  exact h u hinv draw value hperform

/-- A token that is the original draft, or carries the id. -/
def Known (raw : Token) (s : Session) (token : Token) : Prop :=
  token = raw ∨ Agrees s token.state

theorem Known.agrees {token : Token} (h : Known raw s token) (hraw : raw.state.reportId = none)
    (hid : token.state.reportId.isSome = true) : Agrees s token.state := by
  rcases h with rfl | hagrees
  · rw [hraw] at hid
    cases hid
  · exact hagrees

theorem adopts_getDraft : Safe (adoption raw hraw) w
    (Returns fun found t ↦ ∀ token, found = some token → Known raw t token) (call .getDraft) s := by
  refine adopts_read rfl (fun draw t reply u hperform ↦ by cases hperform; rfl) ?_
  intro t hinv draw value hperform token htoken
  cases hperform
  exact hinv.stored token (.inl htoken)

theorem adopts_getClaimed : Safe (adoption raw hraw) w
    (Returns fun found t ↦ ∀ token, found = some token → Known raw t token)
    (call .getClaimed) s := by
  refine adopts_read rfl (fun draw t reply u hperform ↦ by cases hperform; rfl) ?_
  intro t hinv draw value hperform token htoken
  cases hperform
  exact hinv.stored token (.inr htoken)

theorem adopts_getResult : Safe (adoption raw hraw) w Done (call .getResult) s :=
  adopts_read rfl (fun draw t reply u hperform ↦ by cases hperform; rfl) fun _ _ _ _ _ ↦ trivial

theorem adopts_getdelResult : Safe (adoption raw hraw) w Done (call .getdelResult) s := by
  refine adopts_call rfl fun t _ hinv _ draw reply u hperform ↦ ?_
  cases hperform
  exact ⟨hinv.with_keys rfl rfl rfl hinv.stored hinv.unclaimed (fun _ hid ↦ hid) hinv.guarded,
    fun _ _ ↦ trivial⟩

theorem adopts_exists (keys : List Key) : Safe (adoption raw hraw) w Done
    (call (.exists keys)) s :=
  adopts_read rfl (fun draw t reply u hperform ↦ by cases hperform; rfl) fun _ _ _ _ _ ↦ trivial

theorem adopts_external (what : External) : Safe (adoption raw hraw) w Done
    (call (.external what)) s :=
  adopts_read rfl (fun draw t reply u hperform ↦ by cases hperform; rfl) fun _ _ _ _ _ ↦ trivial

theorem adopts_defaultOrgId : Safe (adoption raw hraw) w Done (call .defaultOrgId) s :=
  adopts_read rfl (fun draw t reply u hperform ↦ by cases hperform; rfl) fun _ _ _ _ _ ↦ trivial

theorem adopts_generatePin : Safe (adoption raw hraw) w Done (call .generatePin) s :=
  adopts_read rfl (fun draw t reply u hperform ↦ by cases hperform; rfl) fun _ _ _ _ _ ↦ trivial

theorem adopts_generateCaseNumber : Safe (adoption raw hraw) w Done
    (call .generateCaseNumber) s :=
  adopts_read rfl (fun draw t reply u hperform ↦ by cases hperform; rfl) fun _ _ _ _ _ ↦ trivial

theorem adopts_committedCaseNumber (reportId : ReportId) (ours : Option Report) :
    Safe (adoption raw hraw) w Done (committedCaseNumber reportId ours) s :=
  adopts_read rfl (fun draw t reply u hperform ↦ by cases hperform; rfl) fun _ _ _ _ _ ↦ trivial

/-- The draw of the script: the first one of the session becomes the id of the original draft, and
whoever finds the original draft gets that id. -/
theorem adopts_assignReportId : Safe (adoption raw hraw) w
    (Returns fun found t ↦ ∀ id, found = some id → t.agreed = some id)
    (call (.assignReportId raw)) s := by
  refine Safe.call_returns fun t _ hinv _ draw reply u hperform ↦ ?_
  cases hperform
  have hlater : Later t { t with minted := draw.uuid :: t.minted } := Later.of_cons rfl
  have hstored : ∀ token, t.keys.Stores token →
      Known raw { t with minted := draw.uuid :: t.minted } token := fun token htoken ↦
    (hinv.stored token htoken).imp_right fun hagrees ↦ hagrees.later hlater
  have hnonempty : { t with minted := draw.uuid :: t.minted }.agreed ≠ none := by
    rw [Session.agreed, List.getLast?_cons]
    exact Option.some_ne_none _
  by_cases hdraft : t.keys.draft = some raw
  · -- The key holds the agreed id, or this draw is the first one of the session.
    have hfirst : t.keys.reportId = none → t.agreed = none := by
      intro hkey
      by_contra hsome
      exact hinv.guarded (.inl hdraft) hsome hkey
    have hassigned : { t with minted := draw.uuid :: t.minted }.agreed =
        some (t.keys.reportId.getD draw.uuid) := by
      cases hkey : t.keys.reportId with
      | some id => exact hlater id (hinv.key id hkey)
      | none =>
        rw [Session.agreed, List.getLast?_cons, show t.minted.getLast? = none from hfirst hkey]
    rw [Keys.assignReportIdScript, if_pos hdraft]
    refine ⟨⟨hstored, (absurd · hnonempty), ?_, fun _ _ ↦ Option.some_ne_none _, ?_, ?_⟩,
      fun _ _ ↦ ⟨hlater, fun hnone _ ↦ hfirst hnone⟩, ?_⟩
    · rintro id hid
      cases hid
      exact hassigned
    · exact fun entry hentry ↦ hlater _ (hinv.inserted entry hentry)
    · exact fun _ ↦ hnonempty
    · rintro value hvalue id rfl
      cases hvalue
      exact hassigned
  · -- Before the first draw nothing is claimed, so the original draft is stored nowhere.
    rw [Keys.assignReportIdScript, if_neg hdraft]
    refine ⟨⟨hstored, (absurd · hnonempty), fun id hid ↦ hlater id (hinv.key id hid), ?_, ?_, ?_⟩,
      fun _ _ ↦ ⟨hlater, fun hnone hsome ↦ absurd hnone hsome⟩, ?_⟩
    · intro hstores _
      have hclaimed : t.keys.claimed = some raw := hstores.resolve_left hdraft
      exact hinv.guarded (.inr hclaimed) (hinv.agreed_of_claimed hclaimed)
    · exact fun entry hentry ↦ hlater _ (hinv.inserted entry hentry)
    · exact fun _ ↦ hnonempty
    · rintro value hvalue id rfl
      cases hvalue

theorem adopts_saveSubmission {state : Draft} (h : Agrees s state) :
    Safe (adoption raw hraw) w Done (saveSubmission state) s := by
  refine adopts_call rfl fun t hlater hinv _ draw reply u hperform ↦ ?_
  cases hperform
  have hagrees : Agrees t state := h.later hlater
  have hgrown : Later t { t with minted := draw.uuid :: t.minted } := Later.of_cons rfl
  obtain ⟨id, hstate, hid⟩ := hagrees
  have hne : ∀ v : Session, v.minted = draw.uuid :: t.minted → v.agreed ≠ none := by
    intro v hv
    rw [(Later.of_cons hv) id hid]
    exact Option.some_ne_none id
  refine ⟨⟨?_, fun hnone ↦ absurd hnone (hne _ rfl), fun other hother ↦ hgrown other
    (hinv.key other hother), ?_, fun entry hentry ↦ hgrown _ (hinv.inserted entry hentry),
    fun _ ↦ hne _ rfl⟩, fun _ _ ↦ trivial⟩
  · rintro token (hdraft | hclaimed)
    · cases hdraft
      exact .inr ⟨id, Draft.withReportId_of_some hstate draw.uuid, hgrown id hid⟩
    · exact (hinv.stored token (.inr hclaimed)).imp_right fun hagrees ↦ hagrees.later hgrown
  · rintro (hdraft | hclaimed) _
    · have heq : (⟨draw.iv, state.withReportId draw.uuid⟩ : Token) = raw := Option.some.inj hdraft
      rw [← heq, Draft.withReportId_of_some hstate] at hraw
      cases hraw
    · exact hinv.guarded (.inr hclaimed) (hinv.agreed_of_claimed hclaimed)

/-- A reporter who starts again does so while no draft without an id is claimed. -/
theorem adopts_deleteDraft : Safe (adoption raw hraw) w Done (call .deleteDraft) s := by
  refine adopts_call rfl fun t _ hinv hkeeps draw reply u hperform ↦ ?_
  cases hperform
  refine ⟨hinv.with_keys rfl rfl rfl ?_ hinv.unclaimed (fun _ hid ↦ nomatch hid) ?_,
    fun _ _ ↦ trivial⟩
  · rintro token (hdraft | hclaimed)
    · exact nomatch hdraft
    · exact hinv.stored token (.inr hclaimed)
  · rintro (hdraft | hclaimed) _
    · exact nomatch hdraft
    · exact absurd hraw (hkeeps raw hclaimed)

/-- A claim moves the draft. It follows a load, so an id has been drawn. -/
theorem adopts_claimDraft (hagreed : s.agreed ≠ none) : Safe (adoption raw hraw) w
    (Returns fun claim t ↦ ∀ token nonce, claim = some (token, nonce) → Known raw t token)
    claimDraft s := by
  refine adopts_call rfl fun t hlater hinv _ draw reply u hperform ↦ ?_
  cases hperform
  rw [Keys.claimDraftScript]
  split
  · rename_i token hdraft _
    refine ⟨hinv.with_keys rfl rfl rfl ?_ ?_ (fun _ hid ↦ hid) ?_, ?_⟩
    · rintro other (habsent | hclaimed)
      · cases habsent
      · exact hinv.stored other (.inl (hdraft.trans hclaimed))
    · exact fun hnone ↦ absurd hnone (hlater.agreed_ne_none hagreed)
    · rintro (habsent | hclaimed) hsome
      · cases habsent
      · exact hinv.guarded (.inl (hdraft.trans hclaimed)) hsome
    · intro value hvalue other nonce hother
      subst hother
      cases hvalue
      exact hinv.stored token (.inl hdraft)
  · refine ⟨hinv.with_keys rfl rfl rfl hinv.stored hinv.unclaimed (fun _ hid ↦ hid) hinv.guarded, ?_⟩
    intro value hvalue other nonce hother
    subst hother
    cases hvalue

/-- A recovery moves the claimed draft back, or removes it with the key of the report id. -/
theorem adopts_recoverDraftScript (token : Token) (result : Option Result) :
    Safe (adoption raw hraw) w Done (call (.recoverDraft token result)) s := by
  refine adopts_call rfl fun t _ hinv _ draw reply u hperform ↦ ⟨?_, fun _ _ ↦ trivial⟩
  cases hperform
  unfold Keys.recoverDraftScript
  split_ifs with hguard
  · exact hinv.with_keys rfl rfl rfl hinv.stored hinv.unclaimed (fun _ hid ↦ hid) hinv.guarded
  rw [not_or, not_or, Bool.not_eq_true, Option.isSome_eq_false_iff, Option.isNone_iff_eq_none,
    Bool.not_eq_true, Option.isSome_eq_false_iff, Option.isNone_iff_eq_none] at hguard
  cases result with
  | none =>
    refine hinv.with_keys rfl rfl rfl ?_ (fun _ ↦ rfl) (fun _ hid ↦ hid) ?_
    · rintro other (hdraft | habsent)
      · exact hinv.stored other (.inr hdraft)
      · exact nomatch habsent
    · rintro (hdraft | habsent) hsome
      · exact hinv.guarded (.inr hdraft) hsome
      · exact nomatch habsent
  | some stored =>
    have hempty : ∀ other, ¬({ t.keys with
        claimed := none, reportId := none, result := some stored } : Keys).Stores other := by
      rintro other (hdraft | habsent)
      · rw [show t.keys.draft = none from hguard.2.1] at hdraft
        cases hdraft
      · exact nomatch habsent
    exact hinv.with_keys rfl rfl rfl (fun other hstores ↦ absurd hstores (hempty other))
      (fun _ ↦ rfl) (fun _ hid ↦ nomatch hid) fun hstores ↦ absurd hstores (hempty raw)

/-- A give-back that writes the original draft finds the key of the report id. -/
theorem adopts_giveBackDraft {token : Token} (h : Known raw s token) (nonce : Nonce) :
    Safe (adoption raw hraw) w Done (giveBackDraft token nonce) s := by
  refine adopts_call rfl fun t hlater hinv hkeeps draw reply u hperform ↦ ⟨?_, fun _ _ ↦ trivial⟩
  cases hperform
  have hknown : Known raw t token := h.imp_right fun hagrees ↦ hagrees.later hlater
  rw [Keys.giveBackDraftScript]
  split_ifs with hguard
  · exact hinv.with_keys rfl rfl rfl hinv.stored hinv.unclaimed (fun _ hid ↦ hid) hinv.guarded
  have hopen : t.keys.pending = none ∨ t.keys.pending = some nonce := by
    rw [not_and_or, Bool.not_eq_true, Option.isSome_eq_false_iff, Option.isNone_iff_eq_none,
      not_not] at hguard
    exact hguard
  cases hdraft : t.keys.draft with
  | some stored =>
    refine hinv.with_keys rfl rfl rfl ?_ (fun _ ↦ rfl) (fun _ hid ↦ hid) ?_
    · rintro other (hother | habsent)
      · exact hinv.stored other (.inl (hdraft.trans hother))
      · exact nomatch habsent
    · rintro (hother | habsent) hsome
      · exact hinv.guarded (.inl (hdraft.trans hother)) hsome
      · exact nomatch habsent
  | none =>
    refine hinv.with_keys rfl rfl rfl ?_ (fun _ ↦ rfl) (fun _ hid ↦ hid) ?_
    · rintro other (hother | habsent)
      · cases hother
        exact hknown
      · exact nomatch habsent
    · rintro (hother | habsent) _
      · cases hother
        exact hkeeps hraw ⟨hdraft, hopen⟩
      · exact nomatch habsent

/-- The end of a claim removes every stored draft with the key of the report id, or nothing. -/
theorem adopts_finishClaim (hagreed : s.agreed ≠ none) (nonce : Nonce) (result : Option Result) :
    Safe (adoption raw hraw) w Done (finishClaim nonce result) s := by
  refine adopts_call rfl fun t hlater hinv _ draw reply u hperform ↦ ⟨?_, fun _ _ ↦ trivial⟩
  cases hperform
  have hsome : t.agreed ≠ none := hlater.agreed_ne_none hagreed
  unfold Keys.finishClaimScript
  split_ifs with hguard
  · exact ⟨hinv.stored, hinv.unclaimed, hinv.key, hinv.guarded, hinv.inserted, fun _ ↦ hsome⟩
  · refine ⟨?_, fun _ ↦ rfl, (fun _ hid ↦ nomatch hid), ?_, hinv.inserted, fun _ ↦ hsome⟩
    · rintro other (habsent | habsent)
      · exact nomatch habsent
      · exact nomatch habsent
    · rintro (habsent | habsent)
      · exact nomatch habsent
      · exact nomatch habsent

theorem adopts_insertReport {row : Report} (h : s.agreed = some row.id) :
    Safe (adoption raw hraw) w Done (call (.insertReport row)) s := by
  refine adopts_call rfl fun t hlater hinv _ draw reply u hperform ↦ ⟨?_, fun _ _ ↦ trivial⟩
  rcases insertReport_cases hperform with ⟨-, rfl⟩ | ⟨-, -, -, rfl⟩
  · exact hinv
  · refine ⟨hinv.stored, hinv.unclaimed, hinv.key, hinv.guarded, ?_, hinv.spent⟩
    intro entry hentry
    rcases List.mem_cons.mp hentry with rfl | hold
    · exact hlater row.id h
    · exact hinv.inserted entry hold

theorem adopts_sendCommit : Safe (adoption raw hraw) w Done (call .sendCommit) s := by
  refine adopts_call rfl fun t _ hinv _ draw reply u hperform ↦ ⟨?_, fun _ _ ↦ trivial⟩
  rcases sendCommit_cases hperform with rfl | ⟨-, rfl⟩
  · exact hinv
  · exact hinv.of_eq rfl rfl rfl rfl

theorem adopts_awaitCommit : Safe (adoption raw hraw) w Done (call .awaitCommit) s := by
  refine adopts_call rfl fun u _ hinv _ draw reply v hperform ↦ ⟨?_, fun _ _ ↦ trivial⟩
  obtain ⟨rfl, -⟩ := awaitCommit_cases hperform
  exact hinv

/-! ### The requests -/

/-- What the contract says of the drafts on their way through the handlers. -/
def adoptionWalk (raw : Token) (hraw : raw.state.reportId = none) (w : ℕ) :
    Walk (adoption raw hraw) w where
  Grows := Later
  refl := Later.refl
  trans _ _ _ := Later.trans
  rely _ _ hmoves := hmoves.later
  own _ _ _ _ _ hperform := later_perform hperform
  Held token s := Known raw s token
  Found state s := Agrees s state
  Loaded _ state s := Agrees s state
  Savable state s := Agrees s state
  Claimed _ token s := Known raw s token
  held _ _ _ hlater hknown := hknown.imp_right fun hagrees ↦ hagrees.later hlater
  loadedLater _ _ _ _ hlater hagrees := hagrees.later hlater
  claimedLater _ _ _ _ hlater hknown := hknown.imp_right fun hagrees ↦ hagrees.later hlater
  found token s hknown _ hid := hknown.agrees hraw hid
  load _ _ _ hagrees _ := hagrees
  shows _ _ _ _ hagrees := hagrees
  removes _ _ _ _ hagrees _ := hagrees
  savable _ _ _ hagrees := hagrees
  failed _ token s hknown hid := hknown.agrees hraw hid
  getDraft _ := adopts_getDraft
  getClaimed _ := adopts_getClaimed
  getResult _ := adopts_getResult
  getdelResult _ := adopts_getdelResult
  asks keys _ := adopts_exists keys
  assign := fun token s hknown _ hnone ↦ by
    rcases hknown with rfl | hagrees
    · refine Safe.imp (fun result t hresult ↦ ?_) adopts_assignReportId
      cases result with
      | ok assigned => exact fun id hid ↦ ⟨id, rfl, hresult id hid⟩
      | error exception => trivial
    · obtain ⟨id, hid, -⟩ := hagrees
      rw [hnone] at hid
      cases hid
  save _ _ hagrees := adopts_saveSubmission hagrees
  deleteDraft _ := adopts_deleteDraft
  claim _ _ _ hagrees := adopts_claimDraft hagrees.agreed_ne_none
  recover token result _ _ := adopts_recoverDraftScript token result
  giveBack _ _ nonce _ hknown := adopts_giveBackDraft hknown nonce
  finish _ _ nonce result _ hknown hid :=
    adopts_finishClaim (hknown.agrees hraw hid).agreed_ne_none nonce result
  external what _ := adopts_external what
  defaultOrgId _ := adopts_defaultOrgId
  generatePin _ := adopts_generatePin
  generateCaseNumber _ := adopts_generateCaseNumber
  sendCommit _ := adopts_sendCommit
  awaitCommit _ := adopts_awaitCommit
  lookUp reportId ours _ := adopts_committedCaseNumber reportId ours

/-- Whatever a POST answers, it leaves the report id of the draft, and inserts a row under it. -/
theorem adoption_answering (post : Post) : Answering (adoptionWalk raw hraw w) post where
  answers _ _ _ hagrees _ := hagrees
  rejects _ _ _ _ hknown hid _ := hknown.agrees hraw hid
  inserts := fun token row s hknown _ hfiled ↦ by
    obtain ⟨id, hid, hagreed⟩ := hknown.agrees hraw (by rw [hfiled.id]; rfl)
    have heq : row.id = id := Option.some.inj (hfiled.id.symm.trans hid)
    rw [← heq] at hagreed
    exact adopts_insertReport hagreed

theorem adoption_handles : (adoption raw hraw).Handles handler := by
  intro w request s _ _ _
  have hdone : Safe (adoption raw hraw) w Done (handler request) s :=
    (adoptionWalk raw hraw w).handler fun post _ ↦ adoption_answering post
  exact Safe.imp (fun _ _ _ ↦ trivial) hdone

end OpenWhistle.Submission
