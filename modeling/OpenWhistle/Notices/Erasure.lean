import OpenWhistle.Foundation.Contract
import OpenWhistle.Notices.Digest

/-!
# What is left of an erased case

A deletion removes the number of its case from the two sets and deletes its marks. That it stays away
needs that nobody writes it afterwards: no notice that was on its way, no run that puts it back, and no
reminder that had been sent. Then no digest finds it in a set and no reminder among the open cases, so
what starts after the removal never names it.
-/

set_option autoImplicit false
set_option relaxedAutoImplicit false

namespace OpenWhistle.Notices

open Interleaving

/-- Nothing puts a case into a set it was removed from, or marks it again. -/
def Timely (_w : ℕ) (operation : Op) (s : Post) : Prop :=
  match operation with
  | .sadd kind caseNumber => caseNumber ∉ s.forgotten kind
  | .requeue kind cases => ∀ caseNumber ∈ cases, caseNumber ∉ s.forgotten kind
  | .setMark _ caseNumber => caseNumber ∉ s.unmarked
  | _ => True

instance (w : ℕ) (operation : Op) (s : Post) : Decidable (Timely w operation s) := by
  cases operation <;> unfold Timely <;> infer_instance

variable {ε : Type} {cfg : Settings} {s t u : Post} {w v : ℕ}

/-! ### The removal -/

/-- What was removed is gone: a deleted case that is in no set any more, and has no mark. -/
structure Clear (s : Post) : Prop where
  reports : ∀ caseNumber ∈ s.reports, caseNumber ∈ s.known
  forgotten : ∀ kind, ∀ caseNumber ∈ s.forgotten kind,
    caseNumber ∈ s.known ∧ caseNumber ∉ s.reports ∧ caseNumber ∉ s.queue kind
  unmarked : ∀ caseNumber ∈ s.unmarked, ∀ mark, (mark, caseNumber) ∉ s.marks

/-- The case was deleted. -/
def Deleted (caseNumber : String) (s : Post) : Prop :=
  caseNumber ∈ s.known ∧ caseNumber ∉ s.reports

/-- The case was removed from both sets, and its marks are deleted. -/
def Erased (caseNumber : String) (s : Post) : Prop :=
  (∀ kind, caseNumber ∈ s.forgotten kind) ∧ caseNumber ∈ s.unmarked

/-- What a deletion may rely on, and a worker that has not started. -/
structure Beside (w : ℕ) (s t : Post) : Prop where
  known : ∀ caseNumber ∈ s.known, caseNumber ∈ t.known
  deleted : ∀ caseNumber, Deleted caseNumber s → caseNumber ∉ t.reports
  forgotten : ∀ kind, ∀ caseNumber ∈ s.forgotten kind, caseNumber ∈ t.forgotten kind
  unmarked : ∀ caseNumber ∈ s.unmarked, caseNumber ∈ t.unmarked
  mentions : ∀ caseNumber, (w, caseNumber) ∈ t.mentions → (w, caseNumber) ∈ s.mentions

theorem Deleted.later {caseNumber : String} (h : Deleted caseNumber s) (hbeside : Beside w s t) :
    Deleted caseNumber t :=
  ⟨hbeside.known caseNumber h.1, hbeside.deleted caseNumber h⟩

theorem Erased.later {caseNumber : String} (h : Erased caseNumber s) (hbeside : Beside w s t) :
    Erased caseNumber t :=
  ⟨fun kind ↦ hbeside.forgotten kind caseNumber (h.1 kind), hbeside.unmarked caseNumber h.2⟩

theorem Beside.refl (w : ℕ) (s : Post) : Beside w s s :=
  ⟨fun _ h ↦ h, fun _ h ↦ h.2, fun _ _ h ↦ h, fun _ h ↦ h, fun _ h ↦ h⟩

theorem Beside.trans (hst : Beside w s t) (htu : Beside w t u) : Beside w s u where
  known caseNumber h := htu.known caseNumber (hst.known caseNumber h)
  deleted caseNumber h := htu.deleted caseNumber (h.later hst)
  forgotten kind caseNumber h := htu.forgotten kind caseNumber (hst.forgotten kind caseNumber h)
  unmarked caseNumber h := htu.unmarked caseNumber (hst.unmarked caseNumber h)
  mentions caseNumber h := hst.mentions caseNumber (htu.mentions caseNumber h)

/-- An operation that removes a case. -/
def Removes : Op → Prop
  | .srem _ _ => True
  | .deleteMarks _ => True
  | _ => False

theorem mem_mention {w v : ℕ} {cases : List String} {caseNumber : String} :
    (v, caseNumber) ∈ (s.mention w cases).mentions ↔
      (v = w ∧ caseNumber ∈ cases) ∨ (v, caseNumber) ∈ s.mentions := by
  simp [Post.mention, eq_comm, and_comm]

/-- A step that only names cases. -/
theorem beside_mention {cases : List String} (hv : v ≠ w) : Beside v s (s.mention w cases) :=
  ⟨fun _ h ↦ h, fun _ h ↦ h.2, fun _ _ h ↦ h, fun _ h ↦ h,
    fun _ h ↦ (mem_mention.mp h).resolve_left fun hsame ↦ hv hsame.1⟩

theorem mem_sadd_queue {kind other : Kind} {members : List String} {caseNumber : String}
    (h : caseNumber ∈ Function.update s.queue kind (sadd (s.queue kind) members) other) :
    caseNumber ∈ s.queue other ∨ (other = kind ∧ caseNumber ∈ members) := by
  by_cases hkind : other = kind
  · subst hkind
    rw [Function.update_self] at h
    rcases List.mem_append.mp h with hold | hnew
    · exact .inl hold
    · exact .inr ⟨rfl, List.mem_of_mem_filter hnew⟩
  · rw [Function.update_of_ne hkind] at h
    exact .inl h

/-- A timely step keeps what was removed away. -/
theorem clear_step {operation : Op} {draw : Draw} {reply : Except ε (Reply operation)}
    (hremoves : ¬Removes operation) (hinv : Clear s) (htimely : Timely w operation s)
    (hperform : perform cfg w operation draw s = some (reply, u)) :
    Clear u ∧ ∀ v, v ≠ w → Beside v s u := by
  have hkeep : ∀ v, v ≠ w → Beside v s s := fun v _ ↦ Beside.refl v s
  cases operation with
  | submit caseNumber =>
    simp only [perform] at hperform
    split_ifs at hperform with hknown
    cases hperform
    refine ⟨⟨fun other hmem ↦ ?_, fun kind other hmem ↦ ?_, hinv.unmarked⟩, fun v _ ↦
      ⟨fun other hmem ↦ List.mem_cons_of_mem _ hmem, fun other hdeleted hmem ↦ ?_,
        fun _ _ h ↦ h, fun _ h ↦ h, fun _ h ↦ h⟩⟩
    · rcases List.mem_cons.mp hmem with rfl | hold
      · exact List.mem_cons_self
      · exact List.mem_cons_of_mem _ (hinv.reports other hold)
    · obtain ⟨hother, hreports, hqueue⟩ := hinv.forgotten kind other hmem
      refine ⟨List.mem_cons_of_mem _ hother, fun hmem ↦ ?_, hqueue⟩
      rcases List.mem_cons.mp hmem with rfl | hold
      · exact hknown hother
      · exact hreports hold
    · rcases List.mem_cons.mp hmem with rfl | hold
      · exact hknown hdeleted.1
      · exact hdeleted.2 hold
  | loadReport caseNumber => cases hperform; exact ⟨hinv, hkeep⟩
  | commitMessage caseNumber => cases hperform; exact ⟨hinv, hkeep⟩
  | sadd kind caseNumber =>
    cases hperform
    refine ⟨⟨hinv.reports, fun other number hmem ↦ ?_, hinv.unmarked⟩,
      fun v _ ↦ ⟨fun _ h ↦ h, fun _ h ↦ h.2, fun _ _ h ↦ h, fun _ h ↦ h, fun _ h ↦ h⟩⟩
    obtain ⟨hknown, hreports, hqueue⟩ := hinv.forgotten other number hmem
    refine ⟨hknown, hreports, fun hnew ↦ ?_⟩
    rcases mem_sadd_queue hnew with hold | ⟨rfl, hnumber⟩
    · exact hqueue hold
    · rw [List.mem_singleton] at hnumber
      subst hnumber
      exact htimely hmem
  | sendNow kind caseNumber =>
    cases hperform
    exact ⟨⟨hinv.reports, hinv.forgotten, hinv.unmarked⟩, fun v hv ↦ beside_mention hv⟩
  | take =>
    cases hperform
    refine ⟨⟨hinv.reports, fun kind number hmem ↦ ?_, hinv.unmarked⟩,
      fun v _ ↦ ⟨fun _ h ↦ h, fun _ h ↦ h.2, fun _ _ h ↦ h, fun _ h ↦ h, fun _ h ↦ h⟩⟩
    obtain ⟨hknown, hreports, -⟩ := hinv.forgotten kind number hmem
    exact ⟨hknown, hreports, List.not_mem_nil⟩
  | deliver newReports newMessages =>
    simp only [perform] at hperform
    split_ifs at hperform
    · cases hperform
      refine ⟨⟨hinv.reports, hinv.forgotten, hinv.unmarked⟩, fun v hv ↦ ?_⟩
      exact ⟨fun _ h ↦ h, fun _ h ↦ h.2, fun _ _ h ↦ h, fun _ h ↦ h,
        fun _ h ↦ (mem_mention.mp h).resolve_left fun hsame ↦ hv hsame.1⟩
    · cases hperform
      exact ⟨⟨hinv.reports, hinv.forgotten, hinv.unmarked⟩, fun v hv ↦ beside_mention hv⟩
  | requeue kind cases_ =>
    cases hperform
    refine ⟨⟨hinv.reports, fun other number hmem ↦ ?_, hinv.unmarked⟩,
      fun v _ ↦ ⟨fun _ h ↦ h, fun _ h ↦ h.2, fun _ _ h ↦ h, fun _ h ↦ h, fun _ h ↦ h⟩⟩
    obtain ⟨hknown, hreports, hqueue⟩ := hinv.forgotten other number hmem
    refine ⟨hknown, hreports, fun hnew ↦ ?_⟩
    rcases mem_sadd_queue hnew with hold | ⟨rfl, hnumber⟩
    · exact hqueue hold
    · exact htimely number hnumber hmem
  | lock =>
    cases hperform
    exact ⟨⟨hinv.reports, hinv.forgotten, hinv.unmarked⟩,
      fun v _ ↦ ⟨fun _ h ↦ h, fun _ h ↦ h.2, fun _ _ h ↦ h, fun _ h ↦ h, fun _ h ↦ h⟩⟩
  | unlock =>
    cases hperform
    exact ⟨⟨hinv.reports, hinv.forgotten, hinv.unmarked⟩,
      fun v _ ↦ ⟨fun _ h ↦ h, fun _ h ↦ h.2, fun _ _ h ↦ h, fun _ h ↦ h, fun _ h ↦ h⟩⟩
  | selectOpen => cases hperform; exact ⟨hinv, hkeep⟩
  | existsMark mark caseNumber => cases hperform; exact ⟨hinv, hkeep⟩
  | dispatchReminder caseNumber =>
    cases hperform
    exact ⟨⟨hinv.reports, hinv.forgotten, hinv.unmarked⟩, fun v hv ↦ beside_mention hv⟩
  | setMark mark caseNumber =>
    cases hperform
    refine ⟨⟨hinv.reports, hinv.forgotten, fun number hmem other hmark ↦ ?_⟩,
      fun v _ ↦ ⟨fun _ h ↦ h, fun _ h ↦ h.2, fun _ _ h ↦ h, fun _ h ↦ h, fun _ h ↦ h⟩⟩
    rcases List.mem_cons.mp hmark with heq | hold
    · cases heq
      exact htimely hmem
    · exact hinv.unmarked number hmem other hold
  | loadReports cases_ => cases hperform; exact ⟨hinv, hkeep⟩
  | commitDeletion cases_ =>
    cases hperform
    refine ⟨⟨fun number hmem ↦ hinv.reports number (List.mem_of_mem_filter hmem),
      fun kind number hmem ↦ ?_, hinv.unmarked⟩, fun v _ ↦ ⟨fun _ h ↦ h,
        fun _ h hmem ↦ h.2 (List.mem_of_mem_filter hmem), fun _ _ h ↦ h, fun _ h ↦ h, fun _ h ↦ h⟩⟩
    obtain ⟨hknown, hreports, hqueue⟩ := hinv.forgotten kind number hmem
    exact ⟨hknown, fun hmem ↦ hreports (List.mem_of_mem_filter hmem), hqueue⟩
  | srem kind caseNumber => exact absurd trivial hremoves
  | deleteMarks caseNumber => exact absurd trivial hremoves

/-- What the deletions and all others owe each other. -/
def erasing (ε : Type) (cfg : Settings) : Contract (semantics ε cfg) Request Answer where
  invariant := Clear
  rely := Beside
  rely_refl := Beside.refl
  rely_trans _ _ _ _ := Beside.trans
  idle w s := ∀ caseNumber, (w, caseNumber) ∉ s.mentions
  idle_stable _ _ _ h hbeside _ := fun caseNumber hmem ↦ h caseNumber (hbeside.mentions _ hmem)
  ends _ _ _ := True
  ends_stable _ _ _ _ _ _ _ := trivial
  admits _ := True
  allows := Timely
  trusts _ _ _ := True
  tolerates _ _ := True
  environment_safe := by
    intro change s t hinv _ hchange
    cases change with
    | expireMark mark caseNumber =>
      cases hchange
      exact ⟨⟨hinv.reports, hinv.forgotten, fun number hmem other hmark ↦
        hinv.unmarked number hmem other (List.mem_of_mem_filter hmark)⟩,
        fun w ↦ ⟨fun _ h ↦ h, fun _ h ↦ h.2, fun _ _ h ↦ h, fun _ h ↦ h, fun _ h ↦ h⟩⟩
    | expireLock =>
      cases hchange
      exact ⟨⟨hinv.reports, hinv.forgotten, hinv.unmarked⟩,
        fun w ↦ ⟨fun _ h ↦ h, fun _ h ↦ h.2, fun _ _ h ↦ h, fun _ h ↦ h, fun _ h ↦ h⟩⟩

/-- Whatever removes no case keeps the contract. -/
theorem safe_of_within {α : Type} {program : Handler ε α}
    (hwithin : program.Within fun operation ↦ ¬Removes operation) : ∀ {s : Post},
      Safe (erasing ε cfg) w (fun _ _ ↦ True) program s := by
  induction program with
  | ret value => exact trivial
  | raise exception => exact trivial
  | perform operation next ih =>
    intro s t hbeside hinv
    refine ⟨fun exception ↦ ih _ (hwithin.2 _), fun htimely draw reply u hperform ↦ ?_⟩
    obtain ⟨hinv', hothers⟩ := clear_step hwithin.1 hinv htimely hperform
    exact ⟨hinv', hothers, fun _ ↦ ih _ (hwithin.2 _), fun exception ↦ ih _ (hwithin.2 _)⟩

/-- An operation that removes no case, and what follows from its reply. -/
theorem safe_keeping {operation : Op} {promise : Reply operation → Post → Prop}
    (hremoves : ¬Removes operation)
    (hpromise : ∀ t draw value u, Beside w s t → Clear t →
      perform (ε := ε) cfg w operation draw t = some (.ok value, u) → promise value u) :
    Safe (erasing ε cfg) w (Returns promise) (call operation) s := by
  refine Safe.call_returns fun t hbeside hinv htimely draw reply u hperform ↦ ?_
  obtain ⟨hinv', hothers⟩ := clear_step hremoves hinv htimely hperform
  refine ⟨hinv', hothers, fun value heq ↦ ?_⟩
  subst heq
  exact hpromise t draw value u hbeside hinv hperform

theorem safe_loadReports {cases : List String} :
    Safe (erasing ε cfg) w (Returns fun reports t ↦ ∀ caseNumber ∈ reports,
      caseNumber ∈ t.known) (call (.loadReports cases)) s := by
  refine safe_keeping id fun t draw reports u hbeside hinv hperform caseNumber hmem ↦ ?_
  cases hperform
  exact hinv.reports caseNumber (of_decide_eq_true (List.mem_filter.mp hmem).2)

theorem safe_commitDeletion {cases : List String} (h : ∀ caseNumber ∈ cases, caseNumber ∈ s.known) :
    Safe (erasing ε cfg) w (Returns fun _ t ↦ ∀ caseNumber ∈ cases, Deleted caseNumber t)
      (call (.commitDeletion cases)) s := by
  refine safe_keeping id fun t draw value u hbeside hinv hperform caseNumber hmem ↦ ?_
  cases hperform
  refine ⟨hbeside.known caseNumber (h caseNumber hmem), fun hleft ↦ ?_⟩
  exact of_decide_eq_true (List.mem_filter.mp hleft).2 hmem

/-- What a deletion knows of other cases stays. -/
def Stable (w : ℕ) (keeps : Post → Prop) : Prop := ∀ s t, keeps s → Beside w s t → keeps t

theorem stable_deleted (cases : List String) :
    Stable w fun s ↦ ∀ caseNumber ∈ cases, Deleted caseNumber s :=
  fun _ _ h hbeside caseNumber hmem ↦ (h caseNumber hmem).later hbeside

theorem stable_erased (caseNumber : String) : Stable w (Erased caseNumber) :=
  fun _ _ h hbeside ↦ h.later hbeside

theorem stable_forgotten (caseNumber : String) (kind : Kind) :
    Stable w fun s ↦ caseNumber ∈ s.forgotten kind :=
  fun _ _ h hbeside ↦ hbeside.forgotten kind caseNumber h

theorem Stable.and {first second : Post → Prop} (h : Stable w first) (h' : Stable w second) :
    Stable w fun s ↦ first s ∧ second s :=
  fun s t hboth hbeside ↦ ⟨h s t hboth.1 hbeside, h' s t hboth.2 hbeside⟩

theorem safe_srem {kind : Kind} {caseNumber : String} {keeps : Post → Prop}
    (h : Deleted caseNumber s) (hstable : Stable w keeps) (hkeeps : keeps s) :
    Safe (erasing ε cfg) w (Returns fun _ t ↦ Deleted caseNumber t ∧
      caseNumber ∈ t.forgotten kind ∧ keeps t) (call (.srem kind caseNumber)) s := by
  refine Safe.call_returns fun t hbeside hinv _ draw reply u hperform ↦ ?_
  have hdeleted := h.later hbeside
  cases hperform
  have hall : ∀ v, Beside v t { t with
      queue := Function.update t.queue kind ((t.queue kind).filter fun other ↦ other ≠ caseNumber)
      forgotten := Function.update t.forgotten kind (caseNumber :: t.forgotten kind) } := by
    refine fun v ↦ ⟨fun _ h ↦ h, fun _ h ↦ h.2, fun other number hmem ↦ ?_, fun _ h ↦ h, fun _ h ↦ h⟩
    dsimp only
    by_cases hkind : other = kind
    · subst hkind
      rw [Function.update_self]
      exact List.mem_cons_of_mem _ hmem
    · rw [Function.update_of_ne hkind]
      exact hmem
  refine ⟨⟨hinv.reports, fun other number hmem ↦ ?_, hinv.unmarked⟩, fun v _ ↦ hall v,
    fun _ _ ↦ ⟨hdeleted, ?_, hstable _ _ (hstable _ _ hkeeps hbeside) (hall w)⟩⟩
  · dsimp only at hmem ⊢
    by_cases hkind : other = kind
    · subst hkind
      rw [Function.update_self] at hmem ⊢
      rcases List.mem_cons.mp hmem with rfl | hold
      · exact ⟨hdeleted.1, hdeleted.2, fun hleft ↦
          of_decide_eq_true (List.mem_filter.mp hleft).2 rfl⟩
      · obtain ⟨hknown, hreports, hqueue⟩ := hinv.forgotten other number hold
        exact ⟨hknown, hreports, fun hleft ↦ hqueue (List.mem_of_mem_filter hleft)⟩
    · rw [Function.update_of_ne hkind] at hmem ⊢
      exact hinv.forgotten other number hmem
  · dsimp only
    rw [Function.update_self]
    exact List.mem_cons_self

theorem safe_deleteMarks {caseNumber : String} {keeps : Post → Prop}
    (h : ∀ kind, caseNumber ∈ s.forgotten kind) (hstable : Stable w keeps) (hkeeps : keeps s) :
    Safe (erasing ε cfg) w (Returns fun _ t ↦ Erased caseNumber t ∧ keeps t)
      (call (.deleteMarks caseNumber)) s := by
  refine Safe.call_returns fun t hbeside hinv _ draw reply u hperform ↦ ?_
  cases hperform
  have hall : ∀ v, Beside v t { t with
      marks := t.marks.filter fun item ↦ item.2 ≠ caseNumber
      unmarked := caseNumber :: t.unmarked } :=
    fun v ↦ ⟨fun _ h ↦ h, fun _ h ↦ h.2, fun _ _ h ↦ h, fun _ h ↦ List.mem_cons_of_mem _ h,
      fun _ h ↦ h⟩
  refine ⟨⟨hinv.reports, hinv.forgotten, fun number hmem mark hmark ↦ ?_⟩, fun v _ ↦ hall v,
    fun _ _ ↦ ⟨⟨fun kind ↦ hbeside.forgotten kind caseNumber (h kind), List.mem_cons_self⟩,
      hstable _ _ (hstable _ _ hkeeps hbeside) (hall w)⟩⟩
  obtain ⟨hmark', hne⟩ := List.mem_filter.mp hmark
  rcases List.mem_cons.mp hmem with rfl | hold
  · exact of_decide_eq_true hne rfl
  · exact hinv.unmarked number hold mark hmark'

theorem safe_forgetCase {caseNumber : String} {keeps : Post → Prop} (h : Deleted caseNumber s)
    (hstable : Stable w keeps) (hkeeps : keeps s) :
    Safe (erasing ε cfg) w (Returns fun _ t ↦ Erased caseNumber t ∧ keeps t)
      (forgetCase caseNumber) s := by
  refine Safe.andThen (safe_srem h hstable hkeeps) fun _ t hreports ↦ ?_
  obtain ⟨hdeleted, hforgotten, hkeeps⟩ := hreports
  refine Safe.andThen (safe_srem hdeleted ((stable_forgotten caseNumber .newReports).and hstable)
    ⟨hforgotten, hkeeps⟩) fun _ u hmessages ↦ ?_
  obtain ⟨-, hforgotten', hforgotten, hkeeps⟩ := hmessages
  refine safe_deleteMarks (fun kind ↦ ?_) hstable hkeeps
  cases kind with
  | newReports => exact hforgotten
  | newMessages => exact hforgotten'

theorem safe_forgetCases {cases : List String} : ∀ {keeps : Post → Prop} {s : Post},
    (∀ caseNumber ∈ cases, Deleted caseNumber s) → Stable w keeps → keeps s →
      Safe (erasing ε cfg) w (Returns fun _ t ↦
        (∀ caseNumber ∈ cases, Erased caseNumber t) ∧ keeps t) (forgetCases cases) s := by
  induction cases with
  | nil => exact fun _ _ hkeeps ↦ Safe.ret ⟨(fun _ hmem ↦ nomatch hmem), hkeeps⟩
  | cons first rest ih =>
    intro keeps s h hstable hkeeps
    have hrest : ∀ caseNumber ∈ rest, Deleted caseNumber s :=
      fun caseNumber hmem ↦ h caseNumber (List.mem_cons_of_mem _ hmem)
    refine Safe.andThen (safe_forgetCase (h first List.mem_cons_self)
      ((stable_deleted rest).and hstable) ⟨hrest, hkeeps⟩) fun _ t hfirst ↦ ?_
    obtain ⟨hfirst, hrest, hkeeps⟩ := hfirst
    refine Safe.imp (fun result u hresult ↦ ?_)
      (ih hrest ((stable_erased first).and hstable) ⟨hfirst, hkeeps⟩)
    cases result with
    | error exception => trivial
    | ok value =>
      obtain ⟨hrest, hfirst, hkeeps⟩ := hresult
      refine ⟨fun caseNumber hmem ↦ ?_, hkeeps⟩
      rcases List.mem_cons.mp hmem with rfl | hlater
      · exact hfirst
      · exact hrest caseNumber hlater

/-- A deletion that has ended has erased its cases. -/
theorem safe_delete {cases : List String} :
    Safe (erasing ε cfg) w (Returns fun answer t ↦ ∀ erased, answer = .erased erased →
      ∀ caseNumber ∈ erased, Erased caseNumber t) (delete cases) s := by
  refine Safe.andThen safe_loadReports fun reports t hknown ↦ ?_
  refine Safe.andThen (safe_commitDeletion hknown) fun _ t hdeleted ↦ ?_
  have hforget : Safe (erasing ε cfg) w (Returns fun _ u ↦
      (∀ caseNumber ∈ reports, Erased caseNumber u) ∧ True) (forgetCases reports) t :=
    safe_forgetCases hdeleted (fun _ _ h _ ↦ h) trivial
  refine Safe.andThen hforget fun _ t herased ↦ Safe.ret ?_
  rintro erased heq
  cases heq
  exact herased.1

/-! ### What removes no case -/

theorem within_queueOrSend {kind : Kind} {caseNumber : String} :
    (queueOrSend (ε := ε) cfg kind caseNumber).Within fun operation ↦ ¬Removes operation := by
  unfold queueOrSend
  split_ifs
  · trivial
  · exact Program.within_call id
  · exact (Program.within_call id).attempt.bind fun _ ↦ trivial

theorem within_requeueKind {kind : Kind} {cases : List String} :
    (requeueKind (ε := ε) kind cases).Within fun operation ↦ ¬Removes operation := by
  unfold requeueKind
  split_ifs
  · exact Program.within_call id
  · trivial

theorem within_requeueAll {newReports newMessages : List String} :
    (requeueAll (ε := ε) newReports newMessages).Within fun operation ↦ ¬Removes operation := by
  refine (Program.Within.attempt ?_).bind fun _ ↦ trivial
  exact within_requeueKind.bind fun _ ↦ within_requeueKind

theorem within_digest :
    (deliverNotificationDigest (ε := ε)).Within fun operation ↦ ¬Removes operation := by
  refine (Program.within_call id).attempt.bind fun result ↦ ?_
  split
  · trivial
  split_ifs
  · refine (Program.within_call id).bind fun delivered ↦ ?_
    split_ifs
    · trivial
    · exact within_requeueAll.bind fun _ ↦ trivial
  · trivial

theorem within_checkReminder {mark : Mark} {due : Due} :
    (checkReminder (ε := ε) mark due).Within fun operation ↦ ¬Removes operation := by
  unfold checkReminder
  split_ifs
  · trivial
  refine (Program.within_call id).bind fun sent ↦ ?_
  split_ifs
  · trivial
  refine (Program.within_call id).bind fun dispatched ↦ ?_
  split_ifs
  · exact Program.within_call id
  · trivial

theorem within_checkReports {dues : List Due} :
    (checkReports (ε := ε) dues).Within fun operation ↦ ¬Removes operation := by
  induction dues with
  | nil => trivial
  | cons due dues ih =>
    exact (within_checkReminder.bind fun _ ↦ within_checkReminder).attempt.bind fun _ ↦ ih

/-- What removes no case. -/
theorem within_handler {request : Request} (h : ∀ cases, request ≠ .delete cases) :
    (handler (ε := ε) cfg request).Within fun operation ↦ ¬Removes operation := by
  cases request with
  | submitReport caseNumber =>
    exact (Program.within_call id).bind fun _ ↦ within_queueOrSend.bind fun _ ↦ trivial
  | whistleblowerMessage caseNumber =>
    refine (Program.within_call id).bind fun found ↦ ?_
    split_ifs
    · refine (Program.within_call id).bind fun committed ↦ ?_
      split_ifs
      · exact within_queueOrSend.bind fun _ ↦ trivial
      · trivial
    · trivial
  | digest => exact within_digest
  | reminders =>
    show (sendSlaReminders cfg).Within _
    unfold sendSlaReminders
    split_ifs
    · trivial
    refine (Program.within_call id).bind fun locked ↦ ?_
    split_ifs
    · exact (Program.within_call id).bind fun _ ↦ within_checkReports.bind fun _ ↦
        (Program.within_call id).bind fun _ ↦ trivial
    · trivial
  | delete cases => exact absurd rfl (h cases)

theorem erasing_handles : (erasing ε cfg).Handles (handler cfg) := by
  intro w request s _ _ _
  by_cases hdelete : ∃ cases, request = .delete cases
  · obtain ⟨cases, rfl⟩ := hdelete
    exact Safe.imp (fun _ _ _ ↦ trivial) safe_delete
  · exact safe_of_within (within_handler fun cases heq ↦ hdelete ⟨cases, heq⟩)

theorem erasing_start : (erasing ε cfg).Holds (start ε) :=
  Contract.holds_of_idle ⟨(fun _ hmem ↦ nomatch hmem), (fun _ _ hmem ↦ nomatch hmem),
    fun _ hmem ↦ nomatch hmem⟩ (fun _ _ hmem ↦ nomatch hmem) fun _ ↦ rfl

/-! ### After the removal -/

/-- A case that was removed, and whom of `late` it was never named by. -/
structure Gone (caseNumber : String) (late : ℕ → Prop) (s : Post) : Prop where
  deleted : Deleted caseNumber s
  erased : Erased caseNumber s
  queue : ∀ kind, caseNumber ∉ s.queue kind
  marks : ∀ mark, (mark, caseNumber) ∉ s.marks
  mentions : ∀ v, late v → (v, caseNumber) ∉ s.mentions

/-- The operation does not name the case in a message. -/
def Silent (caseNumber : String) : Op → Prop
  | .sendNow _ other => other ≠ caseNumber
  | .deliver newReports newMessages => caseNumber ∉ newReports ∧ caseNumber ∉ newMessages
  | .dispatchReminder other => other ≠ caseNumber
  | _ => True

variable {caseNumber : String} {late : ℕ → Prop}

/-- Who names nobody of a removed case leaves it gone. -/
theorem Gone.mention {cases : List String} (h : Gone caseNumber late s)
    (hsilent : late w → caseNumber ∉ cases) : Gone caseNumber late (s.mention w cases) where
  deleted := h.deleted
  erased := h.erased
  queue := h.queue
  marks := h.marks
  mentions v hv hmem := by
    rcases mem_mention.mp hmem with ⟨rfl, hnamed⟩ | hold
    · exact hsilent hv hnamed
    · exact h.mentions v hv hold

theorem gone_step {operation : Op} {draw : Draw} {reply : Except ε (Reply operation)}
    (hsilent : late w → Silent caseNumber operation) (h : Gone caseNumber late s)
    (htimely : Timely w operation s)
    (hperform : perform cfg w operation draw s = some (reply, u)) : Gone caseNumber late u := by
  cases operation with
  | submit other =>
    simp only [perform] at hperform
    split_ifs at hperform with hknown
    cases hperform
    refine ⟨⟨List.mem_cons_of_mem _ h.deleted.1, fun hmem ↦ ?_⟩, h.erased, h.queue, h.marks,
      h.mentions⟩
    rcases List.mem_cons.mp hmem with rfl | hold
    · exact hknown h.deleted.1
    · exact h.deleted.2 hold
  | loadReport other => cases hperform; exact h
  | commitMessage other => cases hperform; exact h
  | sadd kind other =>
    cases hperform
    refine ⟨h.deleted, h.erased, fun kind' hmem ↦ ?_, h.marks, h.mentions⟩
    rcases mem_sadd_queue hmem with hold | ⟨rfl, hother⟩
    · exact h.queue kind' hold
    · rw [List.mem_singleton] at hother
      subst hother
      exact htimely (h.erased.1 kind')
  | sendNow kind other =>
    cases hperform
    exact h.mention fun hlate hmem ↦ hsilent hlate (List.mem_singleton.mp hmem).symm
  | take =>
    cases hperform
    exact ⟨h.deleted, h.erased, fun _ ↦ List.not_mem_nil, h.marks, h.mentions⟩
  | deliver newReports newMessages =>
    have hnames : late w → caseNumber ∉ newReports ++ newMessages := fun hlate hmem ↦
      (List.mem_append.mp hmem).elim (hsilent hlate).1 (hsilent hlate).2
    simp only [perform] at hperform
    split_ifs at hperform
    · cases hperform
      have hdelivered : Gone caseNumber late (s.delivered w newReports newMessages) :=
        ⟨h.deleted, h.erased, h.queue, h.marks, h.mentions⟩
      exact hdelivered.mention hnames
    · cases hperform
      exact h.mention hnames
  | requeue kind cases_ =>
    cases hperform
    refine ⟨h.deleted, h.erased, fun kind' hmem ↦ ?_, h.marks, h.mentions⟩
    rcases mem_sadd_queue hmem with hold | ⟨rfl, hother⟩
    · exact h.queue kind' hold
    · exact htimely caseNumber hother (h.erased.1 kind')
  | lock =>
    cases hperform
    exact ⟨h.deleted, h.erased, h.queue, h.marks, h.mentions⟩
  | unlock =>
    cases hperform
    exact ⟨h.deleted, h.erased, h.queue, h.marks, h.mentions⟩
  | selectOpen => cases hperform; exact h
  | existsMark mark other => cases hperform; exact h
  | dispatchReminder other =>
    cases hperform
    exact h.mention fun hlate hmem ↦ hsilent hlate (List.mem_singleton.mp hmem).symm
  | setMark mark other =>
    cases hperform
    refine ⟨h.deleted, h.erased, h.queue, fun mark' hmem ↦ ?_, h.mentions⟩
    rcases List.mem_cons.mp hmem with heq | hold
    · cases heq
      exact htimely h.erased.2
    · exact h.marks mark' hold
  | loadReports cases_ => cases hperform; exact h
  | commitDeletion cases_ =>
    cases hperform
    exact ⟨⟨h.deleted.1, fun hmem ↦ h.deleted.2 (List.mem_of_mem_filter hmem)⟩, h.erased, h.queue,
      h.marks, h.mentions⟩
  | srem kind other =>
    cases hperform
    refine ⟨h.deleted, ⟨fun kind' ↦ ?_, h.erased.2⟩, fun kind' hmem ↦ ?_, h.marks, h.mentions⟩
    · dsimp only
      by_cases hkind : kind' = kind
      · subst hkind
        rw [Function.update_self]
        exact List.mem_cons_of_mem _ (h.erased.1 kind')
      · rw [Function.update_of_ne hkind]
        exact h.erased.1 kind'
    · dsimp only at hmem
      by_cases hkind : kind' = kind
      · subst hkind
        rw [Function.update_self] at hmem
        exact h.queue kind' (List.mem_of_mem_filter hmem)
      · rw [Function.update_of_ne hkind] at hmem
        exact h.queue kind' hmem
  | deleteMarks other =>
    cases hperform
    exact ⟨h.deleted, ⟨h.erased.1, List.mem_cons_of_mem _ h.erased.2⟩, h.queue,
      fun mark hmem ↦ h.marks mark (List.mem_of_mem_filter hmem), h.mentions⟩

/-- What may happen after the removal of a case. -/
def aftermath (ε : Type) (cfg : Settings) (caseNumber : String) (late : ℕ → Prop) :
    Contract (semantics ε cfg) Request Answer where
  invariant := Gone caseNumber late
  rely _ _ _ := True
  rely_refl _ _ := trivial
  rely_trans _ _ _ _ _ _ := trivial
  idle _ _ := True
  idle_stable _ _ _ _ _ _ := trivial
  ends _ _ _ := True
  ends_stable _ _ _ _ _ _ _ := trivial
  admits _ := True
  allows := Timely
  trusts _ _ _ := True
  tolerates _ _ := True
  environment_safe := by
    intro change s t h _ hchange
    cases change with
    | expireMark mark other =>
      cases hchange
      exact ⟨⟨h.deleted, h.erased, h.queue,
        fun mark' hmem ↦ h.marks mark' (List.mem_of_mem_filter hmem), h.mentions⟩, fun _ ↦ trivial⟩
    | expireLock =>
      cases hchange
      exact ⟨⟨h.deleted, h.erased, h.queue, h.marks, h.mentions⟩, fun _ ↦ trivial⟩

/-- Whoever is not late may do anything that is timely. -/
theorem safe_of_not_late {α : Type} (hlate : ¬late w) {program : Handler ε α} : ∀ {s : Post},
    Safe (aftermath ε cfg caseNumber late) w (fun _ _ ↦ True) program s := by
  induction program with
  | ret value => exact trivial
  | raise exception => exact trivial
  | perform operation next ih =>
    intro s t _ hinv
    refine ⟨fun exception ↦ ih _, fun htimely draw reply u hperform ↦ ?_⟩
    exact ⟨gone_step (fun hw ↦ absurd hw hlate) hinv htimely hperform, fun _ _ ↦ trivial,
      fun _ ↦ ih _, fun exception ↦ ih _⟩

/-- A silent operation, and what follows from its reply. -/
theorem safe_silent {operation : Op} {promise : Reply operation → Prop}
    (hsilent : Silent caseNumber operation)
    (hpromise : ∀ t draw value u, Gone caseNumber late t →
      perform (ε := ε) cfg w operation draw t = some (.ok value, u) → promise value) :
    Safe (aftermath ε cfg caseNumber late) w (Returns fun value _ ↦ promise value)
      (call operation) s := by
  refine Safe.call_returns fun t _ hinv htimely draw reply u hperform ↦ ?_
  refine ⟨gone_step (fun _ ↦ hsilent) hinv htimely hperform, fun _ _ ↦ trivial, fun value heq ↦ ?_⟩
  subst heq
  exact hpromise t draw value u hinv hperform

theorem silent_queueOrSend {kind : Kind} {other : String} (hother : other ≠ caseNumber) :
    Safe (aftermath ε cfg caseNumber late) w (Returns fun _ _ ↦ True)
      (queueOrSend cfg kind other) s := by
  unfold queueOrSend
  split_ifs
  · exact Safe.ret trivial
  · exact safe_silent hother fun _ _ _ _ _ _ ↦ trivial
  · have hsadd : Safe (aftermath ε cfg caseNumber late) w (Returns fun _ _ ↦ True)
        (call (.sadd kind other)) s := safe_silent trivial fun _ _ _ _ _ _ ↦ trivial
    exact Safe.andThen (Safe.caught hsadd) fun _ t _ ↦ Safe.ret trivial

theorem silent_submitReport {other : String} :
    Safe (aftermath ε cfg caseNumber late) w (Returns fun _ _ ↦ True) (submitReport cfg other) s := by
  have hsubmit : Safe (aftermath ε cfg caseNumber late) w (Returns fun _ _ ↦ other ≠ caseNumber)
      (call (.submit other)) s := by
    refine safe_silent trivial fun t draw value u h hperform ↦ ?_
    simp only [perform] at hperform
    split_ifs at hperform with hknown
    rintro rfl
    exact hknown h.deleted.1
  exact Safe.andThen hsubmit fun _ t hother ↦
    Safe.andThen (silent_queueOrSend hother) fun _ t _ ↦ Safe.ret trivial

theorem silent_whistleblowerMessage {other : String} :
    Safe (aftermath ε cfg caseNumber late) w (Returns fun _ _ ↦ True)
      (whistleblowerMessage cfg other) s := by
  have hload : Safe (aftermath ε cfg caseNumber late) w
      (Returns fun found _ ↦ found = true → other ≠ caseNumber) (call (.loadReport other)) s := by
    refine safe_silent trivial fun t draw found u h hperform hfound ↦ ?_
    cases hperform
    rintro rfl
    exact h.deleted.2 (of_decide_eq_true hfound)
  refine Safe.andThen hload fun found t hother ↦ ?_
  split_ifs with hfound
  · have hcommit : Safe (aftermath ε cfg caseNumber late) w (Returns fun _ _ ↦ True)
        (call (.commitMessage other)) t := safe_silent trivial fun _ _ _ _ _ _ ↦ trivial
    refine Safe.andThen hcommit fun committed t _ ↦ ?_
    split_ifs
    · exact Safe.andThen (silent_queueOrSend (hother hfound)) fun _ t _ ↦ Safe.ret trivial
    · exact Safe.ret trivial
  · exact Safe.ret trivial

theorem silent_requeueAll {newReports newMessages : List String} :
    Safe (aftermath ε cfg caseNumber late) w (Returns fun _ _ ↦ True)
      (requeueAll newReports newMessages) s := by
  have hkind : ∀ kind cases t, Safe (aftermath ε cfg caseNumber late) w (Returns fun _ _ ↦ True)
      (requeueKind kind cases) t := by
    intro kind cases t
    unfold requeueKind
    split_ifs
    · exact safe_silent trivial fun _ _ _ _ _ _ ↦ trivial
    · exact Safe.ret trivial
  have hboth : Safe (aftermath ε cfg caseNumber late) w (Returns fun _ _ ↦ True) (do
      requeueKind .newReports newReports
      requeueKind .newMessages newMessages) s :=
    Safe.andThen (hkind _ _ _) fun _ t _ ↦ hkind _ _ t
  exact Safe.andThen (Safe.caught hboth) fun _ t _ ↦ Safe.ret trivial

theorem silent_digest : Safe (aftermath ε cfg caseNumber late) w (Returns fun _ _ ↦ True)
    deliverNotificationDigest s := by
  have htake : Safe (aftermath ε cfg caseNumber late) w
      (Returns fun (read : List String × List String) _ ↦
        caseNumber ∉ read.1 ∧ caseNumber ∉ read.2) (call .take) s := by
    refine safe_silent trivial fun t draw read u h hperform ↦ ?_
    cases hperform
    exact ⟨h.queue _, h.queue _⟩
  refine Safe.andThen (Safe.caught htake) fun result t hresult ↦ ?_
  cases result with
  | error exception => exact Safe.ret trivial
  | ok read =>
    obtain ⟨newReports, newMessages⟩ := read
    obtain ⟨hreports, hmessages⟩ := hresult _ rfl
    dsimp only at hreports hmessages ⊢
    split_ifs
    · have hdeliver : Safe (aftermath ε cfg caseNumber late) w (Returns fun _ _ ↦ True)
          (call (.deliver (newReports.insertionSort (· ≤ ·)) (newMessages.insertionSort (· ≤ ·))))
          t := by
        refine safe_silent ⟨?_, ?_⟩ fun _ _ _ _ _ _ ↦ trivial
        · rw [List.mem_insertionSort]
          exact hreports
        · rw [List.mem_insertionSort]
          exact hmessages
      refine Safe.andThen hdeliver fun delivered t _ ↦ ?_
      split_ifs
      · exact Safe.ret trivial
      · exact Safe.andThen silent_requeueAll fun _ t _ ↦ Safe.ret trivial
    · exact Safe.ret trivial

theorem silent_checkReminder {mark : Mark} {due : Due} (hdue : due.caseNumber ≠ caseNumber) :
    Safe (aftermath ε cfg caseNumber late) w (Returns fun _ _ ↦ True) (checkReminder mark due) s := by
  unfold checkReminder
  split_ifs
  · exact Safe.ret trivial
  have hexists : Safe (aftermath ε cfg caseNumber late) w (Returns fun _ _ ↦ True)
      (call (.existsMark mark due.caseNumber)) s :=
    safe_silent trivial fun _ _ _ _ _ _ ↦ trivial
  refine Safe.andThen hexists fun sent t _ ↦ ?_
  split_ifs
  · exact Safe.ret trivial
  have hdispatch : Safe (aftermath ε cfg caseNumber late) w (Returns fun _ _ ↦ True)
      (call (.dispatchReminder due.caseNumber)) t :=
    safe_silent hdue fun _ _ _ _ _ _ ↦ trivial
  refine Safe.andThen hdispatch fun dispatched t _ ↦ ?_
  split_ifs
  · exact safe_silent trivial fun _ _ _ _ _ _ ↦ trivial
  · exact Safe.ret trivial

theorem silent_checkReports {dues : List Due} : (∀ due ∈ dues, due.caseNumber ≠ caseNumber) →
    ∀ {s : Post}, Safe (aftermath ε cfg caseNumber late) w (Returns fun _ _ ↦ True)
      (checkReports dues) s := by
  induction dues with
  | nil => exact fun _ ↦ Safe.ret trivial
  | cons due dues ih =>
    intro hdues s
    have hdue := hdues due List.mem_cons_self
    have hboth : Safe (aftermath ε cfg caseNumber late) w (Returns fun _ _ ↦ True) (do
        checkReminder .ack due
        checkReminder .feedback due) s :=
      Safe.andThen (silent_checkReminder hdue) fun _ t _ ↦ silent_checkReminder hdue
    exact Safe.andThen (Safe.caught hboth) fun _ t _ ↦
      ih fun other hmem ↦ hdues other (List.mem_cons_of_mem _ hmem)

theorem silent_sendSlaReminders :
    Safe (aftermath ε cfg caseNumber late) w (Returns fun _ _ ↦ True) (sendSlaReminders cfg) s := by
  unfold sendSlaReminders
  split_ifs
  · exact Safe.ret trivial
  have hlock : Safe (aftermath ε cfg caseNumber late) w (Returns fun _ _ ↦ True) (call .lock) s :=
    safe_silent trivial fun _ _ _ _ _ _ ↦ trivial
  refine Safe.andThen hlock fun locked t _ ↦ ?_
  split_ifs
  · have hselect : Safe (aftermath ε cfg caseNumber late) w (Returns fun (dues : List Due) _ ↦
        ∀ due ∈ dues, due.caseNumber ≠ caseNumber) (call .selectOpen) t := by
      refine safe_silent trivial fun t draw dues u h hperform due hmem ↦ ?_
      cases hperform
      rintro rfl
      exact h.deleted.2 (of_decide_eq_true (List.mem_filter.mp hmem).2)
    refine Safe.andThen hselect fun dues t hdues ↦ ?_
    refine Safe.andThen (silent_checkReports hdues) fun _ t _ ↦ ?_
    have hunlock : Safe (aftermath ε cfg caseNumber late) w (Returns fun _ _ ↦ True)
        (call .unlock) t := safe_silent trivial fun _ _ _ _ _ _ ↦ trivial
    exact Safe.andThen hunlock fun _ t _ ↦ Safe.ret trivial
  · exact Safe.ret trivial

theorem silent_forgetCases {cases : List String} : ∀ {s : Post},
    Safe (aftermath ε cfg caseNumber late) w (Returns fun _ _ ↦ True) (forgetCases cases) s := by
  have hsilent : ∀ operation s, Silent caseNumber operation →
      Safe (aftermath ε cfg caseNumber late) w (Returns fun _ _ ↦ True) (call operation) s :=
    fun operation s hsilent ↦ safe_silent hsilent fun _ _ _ _ _ _ ↦ trivial
  induction cases with
  | nil => exact Safe.ret trivial
  | cons first rest ih =>
    intro s
    have hfirst : Safe (aftermath ε cfg caseNumber late) w (Returns fun _ _ ↦ True)
        (forgetCase first) s :=
      Safe.andThen (hsilent _ _ trivial) fun _ t _ ↦
        Safe.andThen (hsilent _ _ trivial) fun _ t _ ↦ hsilent _ _ trivial
    exact Safe.andThen hfirst fun _ t _ ↦ ih

theorem silent_delete {cases : List String} :
    Safe (aftermath ε cfg caseNumber late) w (Returns fun _ _ ↦ True) (delete cases) s := by
  have hload : Safe (aftermath ε cfg caseNumber late) w (Returns fun _ _ ↦ True)
      (call (.loadReports cases)) s := safe_silent trivial fun _ _ _ _ _ _ ↦ trivial
  refine Safe.andThen hload fun reports t _ ↦ ?_
  have hcommit : Safe (aftermath ε cfg caseNumber late) w (Returns fun _ _ ↦ True)
      (call (.commitDeletion reports)) t := safe_silent trivial fun _ _ _ _ _ _ ↦ trivial
  exact Safe.andThen hcommit fun _ t _ ↦
    Safe.andThen silent_forgetCases fun _ t _ ↦ Safe.ret trivial

theorem aftermath_handles : (aftermath ε cfg caseNumber late).Handles (handler cfg) := by
  intro w request s _ _ _
  have hsafe : Safe (aftermath ε cfg caseNumber late) w (Returns fun _ _ ↦ True)
      (handler cfg request) s := by
    cases request with
    | submitReport other => exact silent_submitReport
    | whistleblowerMessage other => exact silent_whistleblowerMessage
    | digest => exact silent_digest
    | reminders => exact silent_sendSlaReminders
    | delete cases => exact silent_delete
  exact Safe.imp (fun _ _ _ ↦ trivial) hsafe

/-! ### The theorem -/

theorem gone_of_clear (h : Clear s) (herased : Erased caseNumber s)
    (hmentions : ∀ v, late v → (v, caseNumber) ∉ s.mentions) : Gone caseNumber late s where
  deleted :=
    have hforgotten := h.forgotten .newReports caseNumber (herased.1 .newReports)
    ⟨hforgotten.1, hforgotten.2.1⟩
  erased := herased
  queue kind := (h.forgotten kind caseNumber (herased.1 kind)).2.2
  marks := h.unmarked caseNumber herased.2
  mentions := hmentions

/-- However a deletion interleaves with notices, digests and reminders: once it has ended, no set and
no mark names a case that it has erased, and nothing that starts later mentions it, in a run in which
nothing puts back or marks a case after its removal. -/
theorem erased_case_leaves_redis {d : ℕ} {cases erased : List String} {before after : List (Step ε)}
    {middle last : Office ε} (hdelete : Event.start d (.delete cases) ∈ before)
    (hbefore : run (semantics ε cfg) (handler cfg) (start ε) before = some middle)
    (herased : middle.answer d = some (.erased erased)) (hcase : caseNumber ∈ erased)
    (hafter : run (semantics ε cfg) (handler cfg) middle after = some last)
    (htimely : Meets (semantics ε cfg) (handler cfg) (fun s event ↦ s.Acts Timely event) (start ε)
      (before ++ after)) :
    (∀ kind, caseNumber ∉ last.shared.queue kind) ∧
      (∀ mark, (mark, caseNumber) ∉ last.shared.marks) ∧
      ∀ v, middle.worker v = none → (v, caseNumber) ∉ last.shared.mentions := by
  obtain ⟨htimelyBefore, htimelyAfter⟩ := meets_append.mp htimely
  have hpermits : Meets (semantics ε cfg) (handler cfg) (erasing ε cfg).Permits (start ε) before :=
    Contract.meets_permits (fun _ _ _ ↦ trivial) (fun _ _ ↦ trivial) (fun _ _ _ ↦ trivial)
      htimelyBefore
  have hmiddle : (erasing ε cfg).Holds middle :=
    Contract.run_safe erasing_handles erasing_start hpermits hbefore
  have hpromise : Erased caseNumber middle.shared := by
    obtain ⟨program, hworker, hsafe⟩ := Contract.run_promise erasing_handles
      (fun result s t hresult hbeside _ ↦ by
        cases result with
        | error exception => trivial
        | ok answer => exact fun erased heq caseNumber hmem ↦
            (hresult erased heq caseNumber hmem).later hbeside)
      (fun s _ _ ↦ safe_delete) erasing_start hpermits hbefore (.inl hdelete)
    rw [System.answer_eq_some.mp herased] at hworker
    cases hworker
    exact hsafe erased rfl caseNumber hcase
  have hgone : Gone caseNumber (fun v ↦ middle.worker v = none) middle.shared :=
    gone_of_clear hmiddle.invariant hpromise fun v hidle ↦ hmiddle.idle v hidle caseNumber
  have hholds : (aftermath ε cfg caseNumber fun v ↦ middle.worker v = none).Holds middle :=
    ⟨hgone, fun _ _ ↦ trivial, fun w program hworker ↦ safe_of_not_late (by
      rw [hworker]
      exact Option.some_ne_none program)⟩
  have hpermitsAfter : Meets (semantics ε cfg) (handler cfg)
      (aftermath ε cfg caseNumber fun v ↦ middle.worker v = none).Permits middle after :=
    Contract.meets_permits (fun _ _ _ ↦ trivial) (fun _ _ ↦ trivial) (fun _ _ _ ↦ trivial)
      (htimelyAfter middle hbefore)
  have hlast := (Contract.run_safe aftermath_handles hholds hpermitsAfter hafter).invariant
  exact ⟨hlast.queue, hlast.marks, hlast.mentions⟩

/-! ### A digest that was under way -/

def mailing : Settings := ⟨true, false, 60, true⟩

def noMail : Draw := ⟨false, false, []⟩

/-- A report, and a digest that has taken its notice. -/
def digestUnderWay : List (Step Empty) :=
  [.start 1 (.submitReport "OW-1"), .run 1 noMail, .run 1 noMail, .start 2 .digest, .run 2 noMail]

/-- The digest fails and puts the notice back. -/
def digestFails : List (Step Empty) := [.run 2 noMail, .run 2 noMail]

def deletion : List (Step Empty) := .start 3 (.delete ["OW-1"]) :: List.replicate 5 (.run 3 noMail)

def nextDigest : List (Step Empty) := [.start 4 .digest, .run 4 noMail, .run 4 ⟨true, false, []⟩]

theorem erased_case_leaves_redis_after_the_digest : ∃ middle last,
    run (semantics Empty mailing) (handler mailing) (start Empty)
      (digestUnderWay ++ digestFails ++ deletion) = some middle ∧
    run (semantics Empty mailing) (handler mailing) middle [.start 4 .digest, .run 4 noMail] =
      some last ∧
    (∀ kind, "OW-1" ∉ last.shared.queue kind) ∧ (∀ mark, (mark, "OW-1") ∉ last.shared.marks) ∧
      (4, "OW-1") ∉ last.shared.mentions := by
  have hbefore := run_eq_get (show (run (semantics Empty mailing) (handler mailing) (start Empty)
    (digestUnderWay ++ digestFails ++ deletion)).isSome = true by decide +kernel)
  have hafter := run_eq_get (show (run (semantics Empty mailing) (handler mailing)
    ((run (semantics Empty mailing) (handler mailing) (start Empty)
      (digestUnderWay ++ digestFails ++ deletion)).get (by decide +kernel))
    [.start 4 .digest, .run 4 noMail]).isSome = true by decide +kernel)
  have hdelete : Event.start 3 (.delete ["OW-1"]) ∈ digestUnderWay ++ digestFails ++ deletion := by
    simp [deletion]
  have herased := erased_case_leaves_redis hdelete hbefore (by decide +kernel)
    (List.mem_singleton_self "OW-1") hafter (by decide +kernel)
  exact ⟨_, _, hbefore, hafter, herased.1, herased.2.1, herased.2.2 4 (by decide +kernel)⟩

/-- A digest that was under way puts the erased case back, and the next one mails its number. -/
theorem digest_brings_an_erased_case_back : ∃ middle last,
    run (semantics Empty mailing) (handler mailing) (start Empty) (digestUnderWay ++ deletion) =
      some middle ∧
    middle.answer 3 = some (.erased ["OW-1"]) ∧ middle.worker 4 = none ∧
    run (semantics Empty mailing) (handler mailing) middle (digestFails ++ nextDigest) =
      some last ∧
    last.answer 2 = some .done ∧ (4, "OW-1") ∈ last.shared.mentions := by
  have hbefore := run_eq_get (show (run (semantics Empty mailing) (handler mailing) (start Empty)
    (digestUnderWay ++ deletion)).isSome = true by decide +kernel)
  have hafter := run_eq_get (show (run (semantics Empty mailing) (handler mailing)
    ((run (semantics Empty mailing) (handler mailing) (start Empty)
      (digestUnderWay ++ deletion)).get (by decide +kernel))
    (digestFails ++ nextDigest)).isSome = true by decide +kernel)
  exact ⟨_, _, hbefore, by decide +kernel, by decide +kernel, hafter, by decide +kernel,
    by decide +kernel⟩

end OpenWhistle.Notices
