import OpenWhistle.Submission.Assignment
import OpenWhistle.Submission.OneDraft

/-!
# Runs of a session whose draft was saved without a report id

What the contract gives for every run that begins with such a draft, whatever requests arrive and
however they interleave, with the pending marker expiring at any moment. `loaded` is the id that a
worker reads off an answer: of a draft, of a claimed draft, or of the script that assigns one.

The condition is not idle. A final submit that claims the original draft gives it back, and nothing
tells the script of the give-back that the draft has been recovered, saved with its id, submitted
and spent meanwhile: the original is there again, its id is not, and the next loader draws another.
-/

set_option autoImplicit false
set_option relaxedAutoImplicit false

namespace OpenWhistle.Submission

open Interleaving

/-- A session whose draft was saved without a report id, over any reports table. -/
structure LegacySave where
  state : Draft
  nonempty : state.isEmpty = false
  unsaved : state.reportId = none
  iv : ℕ
  result : Option Result
  reports : Table

namespace LegacySave

def token (legacy : LegacySave) : Token := ⟨legacy.iv, legacy.state⟩

/-- The session before its first request. -/
def session (legacy : LegacySave) : Session where
  keys := { draft := some legacy.token, result := legacy.result }
  reports := legacy.reports
  transaction := fun _ ↦ .inProgress
  inserted := []
  minted := []
  finished := false

def system (legacy : LegacySave) : Requests where
  shared := legacy.session
  worker := fun _ ↦ none

theorem adoption (legacy : LegacySave) : Adoption legacy.token legacy.session where
  stored := by
    rintro token (hdraft | habsent)
    · cases hdraft
      exact .inl rfl
    · exact nomatch habsent
  unclaimed := fun _ ↦ rfl
  key := fun _ hid ↦ nomatch hid
  guarded := fun _ hsome ↦ absurd rfl hsome
  inserted := fun _ hentry ↦ nomatch hentry
  spent := fun hfinished ↦ nomatch hfinished

end LegacySave

/-! ### What a step loads, and what it draws -/

/-- The report id that a worker reads off an answer. -/
def Op.loaded : (operation : Op) → Reply operation → Option ReportId
  | .getDraft, found => found.bind fun token ↦ token.state.reportId
  | .getClaimed, found => found.bind fun token ↦ token.state.reportId
  | .claimDraft, claim => claim.bind fun claimed ↦ claimed.1.state.reportId
  | .assignReportId _, found => found
  | _, _ => none

/-- With the event a worker loads a state that carries the id. -/
def Loads (s : Requests) (event : Step) (id : ReportId) : Prop :=
  ∃ w draw operation reply shared, event = .run w draw ∧ s.next w = some operation ∧
    perform w operation draw s.shared = some (.ok reply, shared) ∧ operation.loaded reply = some id

/-- With the event the key of the report id comes into being. -/
def Mints (s : Requests) (event : Step) : Prop :=
  s.shared.keys.reportId = none ∧
    ∃ t ∈ step semantics handler s event, t.shared.keys.reportId ≠ none

/-- The draft is the one that was saved without an id: nothing has been saved or spent since, and
no id has been drawn. -/
def Untouched (legacy : LegacySave) (s : Session) : Prop :=
  s.keys.draft = some legacy.token ∧ s.minted = [] ∧ s.inserted = [] ∧ s.finished = false

/-- The condition on a step: the operation that takes effect brings no draft without an id back
after its id has gone, and the key of the report id does not expire before such a draft. -/
def KeepsIds (s : Requests) (event : Step) : Prop :=
  s.Acts (fun _ operation shared ↦ KeepsId shared.keys operation) event ∧
    match event with
    | .environment change => Outlives s.shared change
    | _ => True

instance (s : Requests) (event : Step) : Decidable (KeepsIds s event) :=
  match event with
  | .environment change => inferInstanceAs (Decidable (_ ∧ Outlives s.shared change))
  | .start w request => inferInstanceAs (Decidable (s.Acts _ (.start w request) ∧ True))
  | .run w draw => inferInstanceAs (Decidable (s.Acts _ (.run w draw) ∧ True))
  | .fail w exception => inferInstanceAs (Decidable (s.Acts _ (.fail w exception) ∧ True))
  | .lose w draw exception => inferInstanceAs (Decidable (s.Acts _ (.lose w draw exception) ∧ True))

/-- Whatever a worker loads is the id that was drawn first. -/
theorem agreed_of_perform {raw : Token} {w : ℕ} {operation : Op} {draw : Draw} {s t : Session}
    {reply : Reply operation} {id : ReportId} (hraw : raw.state.reportId = none)
    (hs : Adoption raw s) (ht : Adoption raw t)
    (hperform : perform w operation draw s = some (.ok reply, t))
    (hloaded : operation.loaded reply = some id) : t.agreed = some id := by
  have hknown : ∀ token, s.keys.Stores token → token.state.reportId = some id →
      s.agreed = some id := by
    intro token hstores hid
    rcases hs.stored token hstores with rfl | ⟨other, hother, hagreed⟩
    · rw [hraw] at hid
      cases hid
    · rw [hid] at hother
      cases hother
      exact hagreed
  cases operation with
  | getDraft =>
    cases hperform
    obtain ⟨token, hdraft, hid⟩ := Option.bind_eq_some_iff.mp hloaded
    exact hknown token (.inl hdraft) hid
  | getClaimed =>
    cases hperform
    obtain ⟨token, hclaimed, hid⟩ := Option.bind_eq_some_iff.mp hloaded
    exact hknown token (.inr hclaimed) hid
  | claimDraft =>
    have hlater := later_perform hperform
    cases hperform
    obtain ⟨⟨token, nonce⟩, hclaim, hid⟩ := Option.bind_eq_some_iff.mp hloaded
    obtain ⟨claimed, hscript, hpair⟩ := Option.map_eq_some_iff.mp hclaim
    cases hpair
    refine hlater id (hknown token (.inl ?_) hid)
    unfold Keys.claimDraftScript at hscript
    split at hscript
    · rename_i stored hdraft _
      cases hscript
      exact hdraft
    · cases hscript
  | assignReportId token =>
    cases hperform
    refine ht.key id ?_
    change (s.keys.assignReportIdScript token draw.uuid).1 = some id at hloaded
    change (s.keys.assignReportIdScript token draw.uuid).2.reportId = some id
    unfold Keys.assignReportIdScript at hloaded ⊢
    split_ifs at hloaded ⊢
    exact hloaded
  | _ => cases hloaded

/-- The script that assigns an id does so only while there is a draft. -/
theorem draft_of_assigns {w : ℕ} {operation : Op} {draw : Draw} {s t : Session}
    {reply : Except Exn (Reply operation)} (hassigns : operation.assigns = true)
    (hnone : s.keys.reportId = none) (hsome : t.keys.reportId ≠ none)
    (hperform : perform w operation draw s = some (reply, t)) :
    ∃ token, s.keys.draft = some token := by
  cases operation with
  | assignReportId token =>
    refine ⟨token, ?_⟩
    by_contra hdraft
    cases hperform
    change (s.keys.assignReportIdScript token draw.uuid).2.reportId ≠ none at hsome
    rw [Keys.assignReportIdScript, if_neg hdraft] at hsome
    exact hsome hnone
  | _ => cases hassigns

/-- The key of the report id comes into being only for the original draft, and before anything is
saved, inserted or spent. -/
theorem untouched_of_mints {legacy : LegacySave} {s t : Requests} {event : Step}
    (hs : Adoption legacy.token s.shared) (hmoves : Moves s.shared t.shared)
    (hnone : s.shared.keys.reportId = none) (hsome : t.shared.keys.reportId ≠ none)
    (hstep : step semantics handler s event = some t) : Untouched legacy s.shared := by
  have hagreed : s.shared.agreed = none := hmoves.first hnone hsome
  have hdraft : ∃ token, s.shared.keys.draft = some token := by
    rcases shared_cases hstep with ⟨operation, w, draw, reply, -, hperform⟩ | ⟨change, hchange⟩ |
      hsame
    · cases hassigns : operation.assigns with
      | false => exact absurd (reportId_perform hassigns hnone hperform) hsome
      | true => exact draft_of_assigns hassigns hnone hsome hperform
    · exact absurd (reportId_environment hnone hchange) hsome
    · rw [hsame] at hsome
      exact absurd hnone hsome
  obtain ⟨token, htoken⟩ := hdraft
  have horiginal : token = legacy.token := by
    rcases hs.stored token (.inl htoken) with heq | hagrees
    · exact heq
    · exact absurd hagreed hagrees.agreed_ne_none
  refine ⟨horiginal ▸ htoken, List.getLast?_eq_none_iff.mp hagreed, ?_, ?_⟩
  · rw [List.eq_nil_iff_forall_not_mem]
    intro entry hentry
    rw [hs.inserted entry hentry] at hagreed
    cases hagreed
  · rw [← Bool.not_eq_true]
    exact fun hfinished ↦ hs.spent hfinished hagreed

/-! ### One id -/

/-- In every run from a draft saved without a report id whose steps all meet the condition: every
state that is loaded, and every report that is inserted, carries one id, so that the table holds at
most one report of the draft; and the key of that id comes into being only for the original draft,
before anything is saved, inserted or spent. -/
theorem one_id_for_a_legacy_draft (legacy : LegacySave) {events : List Step} {last : Requests}
    (hkeeps : Meets semantics handler KeepsIds legacy.system events)
    (hrun : run semantics handler legacy.system events = some last) :
    (∃ id, Meets semantics handler (fun s event ↦ ∀ loaded, Loads s event loaded → loaded = id)
        legacy.system events ∧
      (∀ entry ∈ last.shared.inserted, entry.2.id = id) ∧
      (last.shared.reports.rows.filter fun row ↦
        row ∈ last.shared.inserted.map Prod.snd).length ≤ 1) ∧
      Meets semantics handler (fun s event ↦ Mints s event → Untouched legacy s.shared)
        legacy.system events := by
  have hpermits : Meets semantics handler
      (Submission.adoption legacy.token legacy.unsaved).Permits legacy.system events := by
    refine meets_imp (fun s event h ↦ ?_) hkeeps
    refine Contract.permits_of_starting (fun _ _ _ ↦ trivial) ?_ (fun _ _ _ ↦ trivial) h.1
    rintro change rfl
    exact h.2
  have hstart : (Submission.adoption legacy.token legacy.unsaved).Holds legacy.system :=
    Contract.holds_of_idle legacy.adoption (fun _ ↦ trivial) fun _ ↦ rfl
  have hlast := Contract.run_safe adoption_handles hstart hpermits hrun
  have hloads : Meets semantics handler
      (fun s event ↦ ∀ loaded, Loads s event loaded → last.shared.agreed = some loaded)
      legacy.system events := by
    refine Contract.run_meets adoption_handles ?_ hstart hpermits hrun
    rintro s event next hs - hstep hnext ⟨v, hmoves⟩ loaded
      ⟨w, draw, operation, reply, shared, rfl, hop, hperform, hloaded⟩
    obtain ⟨rest, hworker⟩ := System.next_eq_some_iff.mp hop
    have hshared : next.shared = shared := by
      simp only [step, hworker] at hstep
      obtain ⟨result, hresult, rfl⟩ := Option.map_eq_some_iff.mp hstep
      have heq : some result = some (.ok reply, shared) := hresult.symm.trans hperform
      cases heq
      rfl
    subst hshared
    exact hmoves.later loaded
      (agreed_of_perform legacy.unsaved hs.invariant hnext.invariant hperform hloaded)
  refine ⟨⟨last.shared.agreed.getD 0, meets_imp (fun s event h loaded hloaded ↦ ?_) hloads, ?_, ?_⟩,
    ?_⟩
  · rw [h loaded hloaded, Option.getD_some]
  · intro entry hentry
    rw [hlast.invariant.inserted entry hentry, Option.getD_some]
  · refine Nat.le_trans (List.Sublist.length_le ?_)
      (last.shared.reports.length_filter_id_le_one (last.shared.agreed.getD 0))
    refine List.monotone_filter_right _ fun row hrow ↦ decide_eq_true ?_
    obtain ⟨entry, hentry, rfl⟩ := List.mem_map.mp (of_decide_eq_true hrow)
    rw [hlast.invariant.inserted entry hentry, Option.getD_some]
  · refine Contract.run_meets adoption_handles ?_ hstart hpermits hrun
    rintro s event next hs hpermit hstep hnext - ⟨hnone, t, ht, hsome⟩
    obtain rfl : next = t := Option.some.inj (hstep.symm.trans ht)
    obtain ⟨v, hv⟩ := exists_bystander [event]
    have hmoves := hs.rely_step hpermit hstep (hv event List.mem_cons_self)
    exact untouched_of_mints hs.invariant hmoves hnone hsome hstep

/-- A draft at its review step that was saved without a report id. -/
def unnumbered : LegacySave where
  state := { step := some stepReview }
  nonempty := reviewed_nonempty
  unsaved := reviewed_unsaved
  iv := 0
  result := none
  reports := ⟨[], List.nodup_nil, List.nodup_nil⟩

/-- A final submit that loads the original draft, with the drawn id for it, and claims it. -/
def claimOriginal (w : ℕ) (uuid : ReportId) : List Step :=
  [.start w (.post finalPost), .run w {}, .run w { uuid := uuid }, .run w {}]

/-- A visit that loads the draft with an id that is drawn for it, and saves it. -/
def loadAndSave (w : ℕ) (uuid : ReportId) : List Step :=
  [.start w (.get finalPost.toVisit), .run w {}, .run w { uuid := uuid }] ++ continues w 3

/-- A final submit of the saved draft under a case number, up to its end. -/
def submitAs (w : ℕ) (number : Fin 100000) : List Step :=
  .start w (.post finalPost) :: continues w 4 ++
    .run w { caseNumber := ⟨0, number⟩ } :: continues w 3 ++ landAndFinish w

/-- The claim is given back in time, and the draft is saved and submitted. -/
def promptGiveBack : List Step :=
  claimOriginal 1 7 ++ continues 1 1 ++ loadAndSave 2 8 ++ submitAs 3 0

/-- The report carries the id that the first load drew. -/
theorem one_id_after_a_prompt_give_back : ∃ last,
    run semantics handler unnumbered.system promptGiveBack = some last ∧
    last.shared.inserted.map (fun entry ↦ entry.2.id) = [7] ∧
    ∃ id, ∀ entry ∈ last.shared.inserted, entry.2.id = id := by
  have hrun := run_eq_get (show (run semantics handler unnumbered.system promptGiveBack).isSome = true
    by decide +kernel)
  obtain ⟨⟨id, -, hinserted, -⟩, -⟩ := one_id_for_a_legacy_draft unnumbered (by decide +kernel) hrun
  exact ⟨_, hrun, by decide +kernel, id, hinserted⟩

/-- The claim is held up until the draft has been recovered, saved, submitted and spent; given back
after that, the original is loaded with another id and submitted again. -/
def heldUpOriginal : List Step :=
  claimOriginal 1 7 ++ [.environment (.expire .pending)] ++
    .start 2 (.get finalPost.toVisit) :: continues 2 12 ++ submitAs 3 0 ++ continues 1 1 ++
    loadAndSave 4 8 ++ submitAs 5 1

/-- Two reports with two ids are inserted from one draft, and both are committed. -/
theorem held_up_original_is_filed_twice : ∃ last,
    run semantics handler unnumbered.system heldUpOriginal = some last ∧
    last.shared.inserted.map (fun entry ↦ entry.2.id) = [8, 7] ∧
    last.shared.reports.rows.map Report.id = [8, 7] ∧
    ¬∃ id, ∀ entry ∈ last.shared.inserted, entry.2.id = id := by
  have hrun := run_eq_get (show (run semantics handler unnumbered.system heldUpOriginal).isSome = true
    by decide +kernel)
  have hids : ((run semantics handler unnumbered.system heldUpOriginal).get
      (by decide +kernel)).shared.inserted.map (fun entry ↦ entry.2.id) = [8, 7] := by
    decide +kernel
  refine ⟨_, hrun, hids, by decide +kernel, ?_⟩
  rintro ⟨id, hid⟩
  have hall : ∀ other ∈ [8, 7], other = id := by
    intro other hother
    rw [← hids] at hother
    obtain ⟨entry, hentry, rfl⟩ := List.mem_map.mp hother
    exact hid entry hentry
  have hboth : (8 : ReportId) = 7 :=
    (hall 8 List.mem_cons_self).trans (hall 7 (List.mem_cons_of_mem _ List.mem_cons_self)).symm
  exact absurd hboth (by decide)

end OpenWhistle.Submission
