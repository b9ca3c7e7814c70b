import OpenWhistle.Foundation.Contract
import OpenWhistle.Notices.Digest

/-!
# Where the notices are

A notice is queued, or one run holds it, or one run has delivered it. The sets hold the cases of the
queued notices and no others: a run takes all of them at once, and puts back all it holds, kind by
kind. What a run knows between its steps is that its two lists are the cases of the notices it holds.
Nothing is lost or delivered twice, because every step moves each notice from one place to another.
-/

set_option autoImplicit false
set_option relaxedAutoImplicit false

namespace OpenWhistle.Notices

open Interleaving

variable {cfg : Settings} {s t u : Post} {w v : ℕ}

/-- There is a notice of a case at a place. -/
def At (s : Post) (place : Place) (notice : Kind × String) : Prop :=
  ∃ i, s.notices[i]? = some notice ∧ s.place i = place

/-- The sets and the deliveries agree with the places of the notices. -/
structure Accounted (s : Post) : Prop where
  queued : ∀ kind caseNumber, caseNumber ∈ s.queue kind ↔ At s .queued (kind, caseNumber)
  delivered : ∀ w notice, (w, notice) ∈ s.deliveries ↔ At s (.delivered w) notice
  tookAt : ∀ i w, s.place i = .held w ∨ s.place i = .delivered w → ∃ n, s.tookAt w = some n ∧ i < n
  beyond : ∀ i, s.notices.length ≤ i → s.place i = .queued

/-- What the others leave of the notices of a run. -/
structure Around (w : ℕ) (s t : Post) : Prop where
  notices : s.notices <+: t.notices
  held : ∀ i, t.place i = .held w ↔ s.place i = .held w
  delivered : ∀ i, t.place i = .delivered w ↔ s.place i = .delivered w

theorem Around.refl (w : ℕ) (s : Post) : Around w s s :=
  ⟨List.prefix_rfl, fun _ ↦ Iff.rfl, fun _ ↦ Iff.rfl⟩

theorem Around.trans (hst : Around w s t) (htu : Around w t u) : Around w s u where
  notices := hst.notices.trans htu.notices
  held i := (htu.held i).trans (hst.held i)
  delivered i := (htu.delivered i).trans (hst.delivered i)

/-- The worker holds no notice and has delivered none. -/
def Untouched (w : ℕ) (s : Post) : Prop := ∀ i, s.place i ≠ .held w ∧ s.place i ≠ .delivered w

/-- The worker holds no notice. -/
def Free (w : ℕ) (s : Post) : Prop := ∀ i, s.place i ≠ .held w

/-- The list of a run is that of the notices of a kind it holds. -/
def Hands (w : ℕ) (kind : Kind) (cases : List String) (s : Post) : Prop :=
  ∀ caseNumber, caseNumber ∈ cases ↔ At s (.held w) (kind, caseNumber)

theorem Untouched.free (h : Untouched w s) : Free w s := fun i ↦ (h i).1

theorem Untouched.later (h : Untouched w s) (haround : Around w s t) : Untouched w t :=
  fun i ↦ ⟨fun hheld ↦ (h i).1 ((haround.held i).mp hheld),
    fun hdelivered ↦ (h i).2 ((haround.delivered i).mp hdelivered)⟩

theorem Free.later (h : Free w s) (haround : Around w s t) : Free w t :=
  fun i hheld ↦ h i ((haround.held i).mp hheld)

theorem notices_of_prefix {i : ℕ} {notice : Kind × String} (h : s.notices <+: t.notices)
    (hi : s.notices[i]? = some notice) : t.notices[i]? = some notice := by
  obtain ⟨rest, heq⟩ := h
  obtain ⟨hlt, hnotice⟩ := List.getElem?_eq_some_iff.mp hi
  rw [← heq, List.getElem?_append_left hlt]
  exact hi

theorem Hands.later {kind : Kind} {cases : List String} (h : Hands w kind cases s)
    (hinv : Accounted s) (haround : Around w s t) : Hands w kind cases t := by
  intro caseNumber
  rw [h caseNumber]
  constructor
  · rintro ⟨i, hnotice, hheld⟩
    exact ⟨i, notices_of_prefix haround.notices hnotice, (haround.held i).mpr hheld⟩
  · rintro ⟨i, hnotice, hheld⟩
    have hheld' := (haround.held i).mp hheld
    have hlt : i < s.notices.length := by
      by_contra hge
      rw [hinv.beyond i (not_lt.mp hge)] at hheld'
      cases hheld'
    obtain ⟨rest, heq⟩ := haround.notices
    rw [← heq, List.getElem?_append_left hlt] at hnotice
    exact ⟨i, hnotice, hheld'⟩

/-! ### The moves -/

theorem mem_sadd {set members : List String} {member : String} :
    member ∈ sadd set members ↔ member ∈ set ∨ member ∈ members := by
  by_cases h : member ∈ set <;> simp [sadd, h]

theorem getElem?_notify {kind : Kind} {caseNumber : String} {i : ℕ} {notice : Kind × String} :
    (s.notify kind caseNumber).notices[i]? = some notice ↔
      s.notices[i]? = some notice ∨ (i = s.notices.length ∧ notice = (kind, caseNumber)) := by
  simp only [Post.notify]
  rcases lt_trichotomy i s.notices.length with hlt | rfl | hgt
  · rw [List.getElem?_append_left hlt]
    simp [hlt.ne]
  · simp [eq_comm]
  · rw [List.getElem?_eq_none (by simp; omega), List.getElem?_eq_none hgt.le]
    simp [hgt.ne']

theorem place_notify {kind : Kind} {caseNumber : String} (hinv : Accounted s) (i : ℕ) :
    (s.notify kind caseNumber).place i = s.place i := by
  by_cases hi : i = s.notices.length
  · subst hi
    rw [hinv.beyond _ le_rfl]
    exact Function.update_self ..
  · exact Function.update_of_ne hi ..

/-- A notice that is queued. -/
theorem at_notify {kind : Kind} {caseNumber : String} {place : Place} {notice : Kind × String}
    (hinv : Accounted s) : At (s.notify kind caseNumber) place notice ↔
      At s place notice ∨ (place = .queued ∧ notice = (kind, caseNumber)) := by
  simp only [At, place_notify hinv, getElem?_notify]
  constructor
  · rintro ⟨i, hnotice | ⟨rfl, rfl⟩, rfl⟩
    · exact .inl ⟨i, hnotice, rfl⟩
    · exact .inr ⟨hinv.beyond _ le_rfl, rfl⟩
  · rintro (⟨i, hnotice, rfl⟩ | ⟨rfl, rfl⟩)
    · exact ⟨i, .inl hnotice, rfl⟩
    · exact ⟨_, .inr ⟨rfl, rfl⟩, hinv.beyond _ le_rfl⟩

theorem accounted_notify {kind : Kind} {caseNumber : String} (hinv : Accounted s) :
    Accounted (s.notify kind caseNumber) where
  queued other number := by
    rw [at_notify hinv, ← hinv.queued]
    by_cases hkind : other = kind
    · subst hkind
      simp [Post.notify, mem_sadd]
    · simp [Post.notify, hkind]
  delivered v notice := by
    rw [at_notify hinv, ← hinv.delivered]
    simp [Post.notify]
  tookAt i v h := by
    rw [place_notify hinv] at h
    exact hinv.tookAt i v h
  beyond i hi := by
    rw [place_notify hinv]
    refine hinv.beyond i (le_trans ?_ hi)
    simp [Post.notify]

theorem around_notify {kind : Kind} {caseNumber : String} (hinv : Accounted s) :
    Around w s (s.notify kind caseNumber) where
  notices := List.prefix_append ..
  held i := by rw [place_notify hinv]
  delivered i := by rw [place_notify hinv]

theorem place_taken_eq {place : Place} {i : ℕ} (hqueued : place ≠ .queued) :
    (s.taken w).place i = place ↔
      s.place i = place ∨ (place = .held w ∧ i < s.notices.length ∧ s.place i = .queued) := by
  simp only [Post.taken]
  split_ifs with h
  · rw [h.2]
    constructor
    · rintro rfl
      exact .inr ⟨rfl, h.1, rfl⟩
    · rintro (rfl | ⟨rfl, -, -⟩)
      · exact absurd rfl hqueued
      · rfl
  · constructor
    · exact .inl
    · rintro (hplace | ⟨-, hboth⟩)
      · exact hplace
      · exact absurd hboth h

/-- A run takes what is queued. -/
theorem at_taken {place : Place} {notice : Kind × String}
    (hqueued : place ≠ .queued) : At (s.taken w) place notice ↔
      At s place notice ∨ (place = .held w ∧ At s .queued notice) := by
  unfold At
  simp only [place_taken_eq hqueued]
  constructor
  · rintro ⟨i, hnotice, hplace | ⟨rfl, -, hplace⟩⟩
    · exact .inl ⟨i, hnotice, hplace⟩
    · exact .inr ⟨rfl, i, hnotice, hplace⟩
  · rintro (⟨i, hnotice, hplace⟩ | ⟨rfl, i, hnotice, hplace⟩)
    · exact ⟨i, hnotice, .inl hplace⟩
    · exact ⟨i, hnotice, .inr ⟨rfl, (List.getElem?_eq_some_iff.mp hnotice).1, hplace⟩⟩

theorem not_queued_taken {i : ℕ} (hi : i < s.notices.length) :
    (s.taken w).place i ≠ .queued := by
  simp only [Post.taken]
  split_ifs with h
  · exact Place.noConfusion
  · exact fun hplace ↦ h ⟨hi, hplace⟩

theorem accounted_taken (hinv : Accounted s) (huntouched : Untouched w s) :
    Accounted (s.taken w) where
  queued kind number := by
    constructor
    · intro hmem
      cases hmem
    · rintro ⟨i, hnotice, hplace⟩
      exact absurd hplace (not_queued_taken (List.getElem?_eq_some_iff.mp hnotice).1)
  delivered v notice := by
    rw [at_taken Place.noConfusion, ← hinv.delivered]
    simp [Post.taken]
  tookAt i v h := by
    rw [place_taken_eq Place.noConfusion, place_taken_eq Place.noConfusion] at h
    by_cases hv : v = w
    · subst hv
      refine ⟨_, Function.update_self .., ?_⟩
      rcases h with (hheld | ⟨-, hlt, -⟩) | (hdelivered | ⟨heq, -⟩)
      · exact absurd hheld (huntouched i).1
      · exact hlt
      · exact absurd hdelivered (huntouched i).2
      · cases heq
    · obtain ⟨n, hn, hlt⟩ := hinv.tookAt i v (by
        rcases h with (hheld | ⟨heq, -⟩) | (hdelivered | ⟨heq, -⟩)
        · exact .inl hheld
        · cases heq
          exact absurd rfl hv
        · exact .inr hdelivered
        · cases heq)
      exact ⟨n, (Function.update_of_ne hv ..).trans hn, hlt⟩
  beyond i hi := by
    have hplace := hinv.beyond i hi
    simp only [Post.taken]
    rw [if_neg fun h ↦ absurd h.1 (not_lt.mpr hi)]
    exact hplace

theorem around_taken (hv : v ≠ w) : Around v s (s.taken w) where
  notices := List.prefix_rfl
  held i := by
    rw [place_taken_eq Place.noConfusion]
    simp [hv]
  delivered i := by
    rw [place_taken_eq Place.noConfusion]
    simp

theorem hands_taken (hinv : Accounted s) (huntouched : Untouched w s) (kind : Kind) :
    Hands w kind (s.queue kind) (s.taken w) := by
  intro caseNumber
  rw [hinv.queued, at_taken Place.noConfusion]
  constructor
  · exact fun hqueued ↦ .inr ⟨rfl, hqueued⟩
  · rintro (⟨i, -, hheld⟩ | ⟨-, hqueued⟩)
    · exact absurd hheld (huntouched i).1
    · exact hqueued

theorem place_delivered_eq {place : Place} {i : ℕ} {newReports newMessages : List String} :
    (s.delivered w newReports newMessages).place i = place ↔
      (s.place i = place ∧ place ≠ .held w) ∨ (place = .delivered w ∧ s.place i = .held w) := by
  simp only [Post.delivered]
  split_ifs with h
  · rw [h]
    constructor
    · rintro rfl
      exact .inr ⟨rfl, rfl⟩
    · rintro (⟨rfl, hne⟩ | ⟨rfl, -⟩)
      · exact absurd rfl hne
      · rfl
  · constructor
    · rintro rfl
      exact .inl ⟨rfl, h⟩
    · rintro (⟨hplace, -⟩ | ⟨-, hheld⟩)
      · exact hplace
      · exact absurd hheld h

/-- A run delivers what it holds. -/
theorem at_delivered {place : Place} {notice : Kind × String} {newReports newMessages : List String} :
    At (s.delivered w newReports newMessages) place notice ↔
      (At s place notice ∧ place ≠ .held w) ∨ (place = .delivered w ∧ At s (.held w) notice) := by
  unfold At
  simp only [place_delivered_eq]
  constructor
  · rintro ⟨i, hnotice, ⟨hplace, hne⟩ | ⟨rfl, hplace⟩⟩
    · exact .inl ⟨⟨i, hnotice, hplace⟩, hne⟩
    · exact .inr ⟨rfl, i, hnotice, hplace⟩
  · rintro (⟨⟨i, hnotice, hplace⟩, hne⟩ | ⟨rfl, i, hnotice, hplace⟩)
    · exact ⟨i, hnotice, .inl ⟨hplace, hne⟩⟩
    · exact ⟨i, hnotice, .inr ⟨rfl, hplace⟩⟩

theorem mem_named {newReports newMessages : List String} {notice : Kind × String}
    (hreports : Hands w .newReports newReports s) (hmessages : Hands w .newMessages newMessages s) :
    notice ∈ named newReports newMessages ↔ At s (.held w) notice := by
  obtain ⟨kind, caseNumber⟩ := notice
  cases kind with
  | newReports => simp [named, hreports caseNumber]
  | newMessages => simp [named, hmessages caseNumber]

theorem accounted_delivered {newReports newMessages : List String} (hinv : Accounted s)
    (hreports : Hands w .newReports newReports s) (hmessages : Hands w .newMessages newMessages s) :
    Accounted (s.delivered w newReports newMessages) where
  queued kind number := by
    rw [at_delivered]
    simp only [reduceCtorEq, ne_eq, not_false_eq_true, and_true, false_and, or_false]
    exact hinv.queued kind number
  delivered v notice := by
    rw [at_delivered, ← hinv.delivered, ← mem_named hreports hmessages]
    simp only [Post.delivered, List.mem_append, List.mem_map, Prod.mk.injEq, Place.delivered.injEq,
      reduceCtorEq, ne_eq, not_false_eq_true, and_true]
    constructor
    · rintro (⟨other, hmem, rfl, rfl⟩ | hold)
      · exact .inr ⟨rfl, hmem⟩
      · exact .inl hold
    · rintro (hold | ⟨rfl, hmem⟩)
      · exact .inr hold
      · exact .inl ⟨notice, hmem, rfl, rfl⟩
  tookAt i v h := by
    rw [place_delivered_eq, place_delivered_eq] at h
    rcases h with (⟨hheld, -⟩ | ⟨heq, -⟩) | (⟨hdelivered, -⟩ | ⟨heq, hheld⟩)
    · exact hinv.tookAt i v (.inl hheld)
    · cases heq
    · exact hinv.tookAt i v (.inr hdelivered)
    · cases heq
      exact hinv.tookAt i _ (.inl hheld)
  beyond i hi := by
    rw [place_delivered_eq]
    exact .inl ⟨hinv.beyond i hi, Place.noConfusion⟩

theorem around_delivered {newReports newMessages : List String} (hv : v ≠ w) :
    Around v s (s.delivered w newReports newMessages) where
  notices := List.prefix_rfl
  held i := by
    rw [place_delivered_eq]
    simp [hv]
  delivered i := by
    rw [place_delivered_eq]
    simp [hv]

theorem free_delivered {newReports newMessages : List String} :
    Free w (s.delivered w newReports newMessages) := by
  intro i hheld
  rw [place_delivered_eq] at hheld
  rcases hheld with ⟨-, hne⟩ | ⟨heq, -⟩
  · exact hne rfl
  · cases heq

/-- Whether a notice is of a kind. -/
def OfKind (s : Post) (kind : Kind) (i : ℕ) : Prop := s.notices[i]?.map Prod.fst = some kind

theorem place_requeue_eq {place : Place} {kind : Kind} {cases : List String} {i : ℕ} :
    (s.requeue w kind cases).place i = place ↔
      (s.place i = place ∧ ¬(place = .held w ∧ OfKind s kind i)) ∨
        (place = .queued ∧ s.place i = .held w ∧ OfKind s kind i) := by
  simp only [Post.requeue, OfKind]
  split_ifs with h
  · rw [h.1]
    constructor
    · rintro rfl
      exact .inr ⟨rfl, rfl, h.2⟩
    · rintro (⟨rfl, hne⟩ | ⟨rfl, -⟩)
      · exact absurd ⟨rfl, h.2⟩ hne
      · rfl
  · constructor
    · rintro rfl
      exact .inl ⟨rfl, h⟩
    · rintro (⟨hplace, -⟩ | ⟨-, hboth⟩)
      · exact hplace
      · exact absurd hboth h

theorem ofKind_iff {i : ℕ} {kind other : Kind} {caseNumber : String}
    (h : s.notices[i]? = some (other, caseNumber)) : OfKind s kind i ↔ other = kind := by
  simp [OfKind, h]

/-- A run puts back what it holds of a kind. -/
theorem at_requeue {place : Place} {kind other : Kind} {caseNumber : String} {cases : List String} :
    At (s.requeue w kind cases) place (other, caseNumber) ↔
      (At s place (other, caseNumber) ∧ ¬(place = .held w ∧ other = kind)) ∨
        (place = .queued ∧ other = kind ∧ At s (.held w) (other, caseNumber)) := by
  unfold At
  constructor
  · rintro ⟨i, hnotice, hplace⟩
    replace hnotice : s.notices[i]? = some (other, caseNumber) := hnotice
    rw [place_requeue_eq, ofKind_iff hnotice] at hplace
    rcases hplace with ⟨hplace, hne⟩ | ⟨hqueued, hheld, hkind⟩
    · exact .inl ⟨⟨i, hnotice, hplace⟩, hne⟩
    · exact .inr ⟨hqueued, hkind, i, hnotice, hheld⟩
  · rintro (⟨⟨i, hnotice, hplace⟩, hne⟩ | ⟨hqueued, hkind, i, hnotice, hheld⟩)
    · refine ⟨i, hnotice, place_requeue_eq.mpr (.inl ⟨hplace, ?_⟩)⟩
      rw [ofKind_iff hnotice]
      exact hne
    · exact ⟨i, hnotice, place_requeue_eq.mpr
        (.inr ⟨hqueued, hheld, (ofKind_iff hnotice).mpr hkind⟩)⟩

theorem accounted_requeue {kind : Kind} {cases : List String} (hinv : Accounted s)
    (hhands : Hands w kind cases s) : Accounted (s.requeue w kind cases) where
  queued other number := by
    rw [at_requeue, ← hinv.queued]
    by_cases hkind : other = kind
    · subst hkind
      simp [Post.requeue, mem_sadd, hhands number]
    · simp [Post.requeue, hkind]
  delivered v notice := by
    obtain ⟨other, number⟩ := notice
    rw [at_requeue, ← hinv.delivered]
    simp [Post.requeue]
  tookAt i v h := by
    rw [place_requeue_eq, place_requeue_eq] at h
    rcases h with (⟨hheld, -⟩ | ⟨heq, -⟩) | (⟨hdelivered, -⟩ | ⟨heq, -⟩)
    · exact hinv.tookAt i v (.inl hheld)
    · cases heq
    · exact hinv.tookAt i v (.inr hdelivered)
    · cases heq
  beyond i hi := by
    rw [place_requeue_eq]
    exact .inl ⟨hinv.beyond i hi, fun h ↦ Place.noConfusion h.1⟩

theorem around_requeue {kind : Kind} {cases : List String} (hv : v ≠ w) :
    Around v s (s.requeue w kind cases) where
  notices := List.prefix_rfl
  held i := by
    rw [place_requeue_eq]
    simp [hv]
  delivered i := by
    rw [place_requeue_eq]
    simp

/-- What a run holds of the other kind stays. -/
theorem hands_requeue {kind other : Kind} {cases others : List String} (hne : other ≠ kind)
    (h : Hands w other others s) : Hands w other others (s.requeue w kind cases) := by
  intro caseNumber
  rw [h caseNumber, at_requeue]
  simp [hne]

/-- What was put back is held no longer. -/
theorem hands_requeue_self {kind : Kind} {cases : List String} :
    Hands w kind [] (s.requeue w kind cases) := by
  intro caseNumber
  rw [at_requeue]
  simp

/-- A run that holds nothing of either kind holds nothing. -/
theorem free_of_hands (hinv : Accounted s) (hreports : Hands w .newReports [] s)
    (hmessages : Hands w .newMessages [] s) : Free w s := by
  intro i hheld
  have hlt : i < s.notices.length := by
    by_contra hge
    rw [hinv.beyond i (not_lt.mp hge)] at hheld
    cases hheld
  have hat : At s (.held w) s.notices[i] := ⟨i, List.getElem?_eq_getElem hlt, hheld⟩
  generalize s.notices[i] = notice at hat
  obtain ⟨kind, caseNumber⟩ := notice
  cases kind with
  | newReports => cases (hreports caseNumber).mpr hat
  | newMessages => cases (hmessages caseNumber).mpr hat

/-! ### The contract -/

/-- A step that touches no notice. -/
structure Same (s t : Post) : Prop where
  notices : t.notices = s.notices
  queue : t.queue = s.queue
  place : t.place = s.place
  tookAt : t.tookAt = s.tookAt
  deliveries : t.deliveries = s.deliveries

theorem Same.accounted (h : Same s t) (hinv : Accounted s) : Accounted t := by
  obtain ⟨hnotices, hqueue, hplace, htookAt, hdeliveries⟩ := h
  have hat : ∀ place notice, At t place notice ↔ At s place notice := by
    intro place notice
    rw [At, At, hnotices, hplace]
  refine ⟨fun kind number ↦ ?_, fun v notice ↦ ?_, fun i v hi ↦ ?_, fun i hi ↦ ?_⟩
  · rw [hat, hqueue]
    exact hinv.queued kind number
  · rw [hat, hdeliveries]
    exact hinv.delivered v notice
  · rw [hplace] at hi
    rw [htookAt]
    exact hinv.tookAt i v hi
  · rw [hnotices] at hi
    rw [hplace]
    exact hinv.beyond i hi

theorem Same.around (h : Same s t) : Around w s t where
  notices := h.notices ▸ List.prefix_rfl
  held i := by rw [h.place]
  delivered i := by rw [h.place]

/-- Two steps, the second of which touches no notice. -/
theorem Around.same (haround : Around w s t) (h : Same t u) : Around w s u := haround.trans h.around

/-- What those who queue notices and those who deliver them owe each other. -/
def accounting (cfg : Settings) : Contract (semantics Empty cfg) Request Answer where
  invariant := Accounted
  rely := Around
  rely_refl := Around.refl
  rely_trans _ _ _ _ := Around.trans
  idle := Untouched
  idle_stable _ _ _ h haround _ := h.later haround
  ends w _ s := Free w s
  ends_stable _ _ _ _ h haround _ := h.later haround
  admits request := ∀ cases, request ≠ .delete cases
  allows _ _ _ := True
  trusts _ _ _ := True
  tolerates _ _ := True
  environment_safe := by
    intro change s t hinv _ hchange
    have hsame : Same s t := by
      cases change <;> cases hchange <;> exact ⟨rfl, rfl, rfl, rfl, rfl⟩
    exact ⟨hsame.accounted hinv, fun w ↦ hsame.around⟩

/-- A step that touches no notice. -/
theorem safe_same {operation : Op} {keeps : Post → Prop}
    (hkeeps : ∀ t, Around w s t → Accounted t → keeps t)
    (hsame : ∀ draw t (reply : Except Empty (Reply operation)) u,
      perform cfg w operation draw t = some (reply, u) → Same t u) :
    Safe (accounting cfg) w (Returns fun _ ↦ keeps) (call operation) s := by
  refine Safe.call_returns fun t haround hinv _ draw reply u hperform ↦ ?_
  have h := hsame draw t reply u hperform
  exact ⟨h.accounted hinv, fun v _ ↦ h.around, fun _ _ ↦
    hkeeps u (haround.same h) (h.accounted hinv)⟩

theorem safe_sadd {kind : Kind} {caseNumber : String} (h : Free w s) :
    Safe (accounting cfg) w (Returns fun _ ↦ Free w) (call (.sadd kind caseNumber)) s := by
  refine Safe.call_returns fun t haround hinv _ draw reply u hperform ↦ ?_
  cases hperform
  exact ⟨accounted_notify hinv, fun v _ ↦ around_notify hinv,
    fun _ _ ↦ (h.later haround).later (around_notify hinv)⟩

theorem safe_take (h : Untouched w s) :
    Safe (accounting cfg) w (Returns fun (read : List String × List String) t ↦
      Hands w .newReports read.1 t ∧ Hands w .newMessages read.2 t ∧ Accounted t)
      (call .take) s := by
  refine Safe.call_returns fun t haround hinv _ draw reply u hperform ↦ ?_
  have huntouched := h.later haround
  cases hperform
  refine ⟨accounted_taken hinv huntouched, fun v hv ↦ around_taken hv, fun read heq ↦ ?_⟩
  cases heq
  exact ⟨hands_taken hinv huntouched _, hands_taken hinv huntouched _,
    accounted_taken hinv huntouched⟩

theorem safe_deliver {newReports newMessages : List String} (hinv : Accounted s)
    (hreports : Hands w .newReports newReports s) (hmessages : Hands w .newMessages newMessages s) :
    Safe (accounting cfg) w (Returns fun delivered t ↦ if delivered then Free w t else
      Hands w .newReports newReports t ∧ Hands w .newMessages newMessages t ∧ Accounted t)
      (call (.deliver newReports newMessages)) s := by
  refine Safe.call_returns fun t haround hinv' _ draw reply u hperform ↦ ?_
  have hreports' := hreports.later hinv haround
  have hmessages' := hmessages.later hinv haround
  have hmention : ∀ (t : Post) cases, Same t (t.mention w cases) :=
    fun _ _ ↦ ⟨rfl, rfl, rfl, rfl, rfl⟩
  simp only [semantics, perform] at hperform
  split_ifs at hperform
  · cases hperform
    have haccounted := accounted_delivered hinv' hreports' hmessages'
    refine ⟨(hmention _ _).accounted haccounted, fun v hv ↦ (around_delivered hv).same (hmention _ _),
      fun delivered heq ↦ ?_⟩
    cases heq
    exact free_delivered.later (hmention _ _).around
  · cases hperform
    have haccounted := (hmention t (newReports ++ newMessages)).accounted hinv'
    refine ⟨haccounted, fun v hv ↦ (hmention _ _).around, fun delivered heq ↦ ?_⟩
    cases heq
    exact ⟨hreports'.later hinv' (hmention _ _).around, hmessages'.later hinv' (hmention _ _).around,
      haccounted⟩

theorem safe_requeue {kind other : Kind} {cases others : List String} (hne : other ≠ kind)
    (hinv : Accounted s) (hcases : Hands w kind cases s) (hothers : Hands w other others s) :
    Safe (accounting cfg) w (Returns fun _ t ↦ Hands w kind [] t ∧ Hands w other others t ∧
      Accounted t) (call (.requeue kind cases)) s := by
  refine Safe.call_returns fun t haround hinv' _ draw reply u hperform ↦ ?_
  have hcases' := hcases.later hinv haround
  cases hperform
  have haccounted := accounted_requeue hinv' hcases'
  exact ⟨haccounted, fun v hv ↦ around_requeue hv, fun _ _ ↦
    ⟨hands_requeue_self, hands_requeue hne (hothers.later hinv haround), haccounted⟩⟩

/-! ### The requests and the jobs -/

theorem safe_queueOrSend {kind : Kind} {caseNumber : String} (h : Free w s) :
    Safe (accounting cfg) w (Returns fun _ ↦ Free w) (queueOrSend cfg kind caseNumber) s := by
  unfold queueOrSend
  split_ifs
  · exact Safe.ret h
  · exact safe_same (fun _ haround _ ↦ h.later haround) fun _ _ _ _ hperform ↦ by
      cases hperform; exact ⟨rfl, rfl, rfl, rfl, rfl⟩
  · refine Safe.andThen (Safe.caught (safe_sadd h)) fun result t hresult ↦ ?_
    cases result with
    | ok value => exact Safe.ret (hresult value rfl)
    | error fault => exact fault.elim

theorem safe_submitReport {caseNumber : String} (h : Free w s) :
    Safe (accounting cfg) w (Returns fun _ ↦ Free w) (submitReport cfg caseNumber) s := by
  refine Safe.andThen (safe_same (fun _ haround _ ↦ h.later haround) fun _ _ _ _ hperform ↦ ?_)
    fun _ t h ↦ Safe.andThen (safe_queueOrSend h) fun _ t h ↦ Safe.ret h
  simp only [perform] at hperform
  split_ifs at hperform
  cases hperform
  exact ⟨rfl, rfl, rfl, rfl, rfl⟩

theorem safe_whistleblowerMessage {caseNumber : String} (h : Free w s) :
    Safe (accounting cfg) w (Returns fun _ ↦ Free w) (whistleblowerMessage cfg caseNumber) s := by
  refine Safe.andThen (safe_same (fun _ haround _ ↦ h.later haround) fun _ _ _ _ hperform ↦ by
    cases hperform; exact ⟨rfl, rfl, rfl, rfl, rfl⟩) fun found t h ↦ ?_
  split_ifs
  · refine Safe.andThen (safe_same (fun _ haround _ ↦ h.later haround) fun _ _ _ _ hperform ↦ by
      cases hperform; exact ⟨rfl, rfl, rfl, rfl, rfl⟩) fun committed t h ↦ ?_
    split_ifs
    · exact Safe.andThen (safe_queueOrSend h) fun _ t h ↦ Safe.ret h
    · exact Safe.ret h
  · exact Safe.ret h

theorem safe_requeueKind {kind other : Kind} {cases others : List String} (hne : other ≠ kind)
    (hinv : Accounted s) (hcases : Hands w kind cases s) (hothers : Hands w other others s) :
    Safe (accounting cfg) w (Returns fun _ t ↦ Hands w kind [] t ∧ Hands w other others t ∧
      Accounted t) (requeueKind kind cases) s := by
  unfold requeueKind
  split_ifs with hempty
  · exact safe_requeue hne hinv hcases hothers
  · exact Safe.ret ⟨not_not.mp hempty ▸ hcases, hothers, hinv⟩

/-- What was not delivered is put back, kind by kind. -/
theorem safe_requeueAll {newReports newMessages : List String} (hinv : Accounted s)
    (hreports : Hands w .newReports newReports s) (hmessages : Hands w .newMessages newMessages s) :
    Safe (accounting cfg) w (Returns fun _ ↦ Free w) (requeueAll newReports newMessages) s := by
  have hboth : Safe (accounting cfg) w (Returns fun _ t ↦ Hands w .newMessages [] t ∧
      Hands w .newReports [] t ∧ Accounted t) (do
        requeueKind .newReports newReports
        requeueKind .newMessages newMessages) s :=
    Safe.andThen (safe_requeueKind (by decide) hinv hreports hmessages) fun _ t h ↦
      safe_requeueKind (by decide) h.2.2 h.2.1 h.1
  refine Safe.andThen (Safe.caught hboth) fun result t hresult ↦ ?_
  cases result with
  | ok value =>
    obtain ⟨hmessages, hreports, hinv⟩ := hresult value rfl
    exact Safe.ret (free_of_hands hinv hreports hmessages)
  | error fault => exact fault.elim

theorem hands_insertionSort {kind : Kind} {cases : List String} (h : Hands w kind cases s) :
    Hands w kind (cases.insertionSort (· ≤ ·)) s := by
  intro caseNumber
  rw [List.mem_insertionSort]
  exact h caseNumber

theorem hands_of_insertionSort {kind : Kind} {cases : List String}
    (h : Hands w kind (cases.insertionSort (· ≤ ·)) s) : Hands w kind cases s := by
  intro caseNumber
  rw [← List.mem_insertionSort (· ≤ ·)]
  exact h caseNumber

theorem safe_digest (h : Untouched w s) :
    Safe (accounting cfg) w (Returns fun _ ↦ Free w) deliverNotificationDigest s := by
  refine Safe.andThen (Safe.caught (safe_take h)) fun result t hresult ↦ ?_
  cases result with
  | error fault => exact fault.elim
  | ok read =>
    obtain ⟨newReports, newMessages⟩ := read
    obtain ⟨hreports, hmessages, hinv⟩ := hresult _ rfl
    dsimp only at hreports hmessages ⊢
    split_ifs with hsome
    · refine Safe.andThen (safe_deliver hinv (hands_insertionSort hreports)
        (hands_insertionSort hmessages)) fun delivered t hdelivered ↦ ?_
      cases delivered with
      | true => exact Safe.ret hdelivered
      | false =>
        obtain ⟨hreports, hmessages, hinv⟩ := hdelivered
        exact Safe.andThen (safe_requeueAll hinv (hands_of_insertionSort hreports)
          (hands_of_insertionSort hmessages)) fun _ t h ↦ Safe.ret h
    · obtain ⟨rfl, rfl⟩ : newReports = [] ∧ newMessages = [] := by simpa using hsome
      exact Safe.ret (free_of_hands hinv hreports hmessages)

theorem safe_checkReminder {mark : Mark} {due : Due} (h : Free w s) :
    Safe (accounting cfg) w (Returns fun _ ↦ Free w) (checkReminder mark due) s := by
  unfold checkReminder
  split_ifs
  · exact Safe.ret h
  refine Safe.andThen (safe_same (fun _ haround _ ↦ h.later haround) fun _ _ _ _ hperform ↦ by
    cases hperform; exact ⟨rfl, rfl, rfl, rfl, rfl⟩) fun sent t h ↦ ?_
  split_ifs
  · exact Safe.ret h
  refine Safe.andThen (safe_same (fun _ haround _ ↦ h.later haround) fun _ _ _ _ hperform ↦ by
    cases hperform; exact ⟨rfl, rfl, rfl, rfl, rfl⟩) fun dispatched t h ↦ ?_
  split_ifs
  · exact safe_same (fun _ haround _ ↦ h.later haround) fun _ _ _ _ hperform ↦ by
      cases hperform; exact ⟨rfl, rfl, rfl, rfl, rfl⟩
  · exact Safe.ret h

theorem safe_checkReports {dues : List Due} : ∀ {s : Post}, Free w s →
    Safe (accounting cfg) w (Returns fun _ ↦ Free w) (checkReports dues) s := by
  induction dues with
  | nil => exact fun h ↦ Safe.ret h
  | cons due dues ih =>
    intro s h
    have hboth : Safe (accounting cfg) w (Returns fun _ ↦ Free w) (do
        checkReminder .ack due
        checkReminder .feedback due) s :=
      Safe.andThen (safe_checkReminder h) fun _ t h ↦ safe_checkReminder h
    refine Safe.andThen (Safe.caught hboth) fun result t hresult ↦ ?_
    cases result with
    | ok value => exact ih (hresult value rfl)
    | error fault => exact fault.elim

theorem safe_sendSlaReminders (h : Free w s) :
    Safe (accounting cfg) w (Returns fun _ ↦ Free w) (sendSlaReminders cfg) s := by
  unfold sendSlaReminders
  split_ifs
  · exact Safe.ret h
  refine Safe.andThen (safe_same (fun _ haround _ ↦ h.later haround) fun _ _ _ _ hperform ↦ by
    cases hperform; exact ⟨rfl, rfl, rfl, rfl, rfl⟩) fun locked t h ↦ ?_
  split_ifs
  · refine Safe.andThen (safe_same (fun _ haround _ ↦ h.later haround) fun _ _ _ _ hperform ↦ by
      cases hperform; exact ⟨rfl, rfl, rfl, rfl, rfl⟩) fun dues t h ↦ ?_
    refine Safe.andThen (safe_checkReports h) fun _ t h ↦ ?_
    exact Safe.andThen (safe_same (fun _ haround _ ↦ h.later haround) fun _ _ _ _ hperform ↦ by
      cases hperform; exact ⟨rfl, rfl, rfl, rfl, rfl⟩) fun _ t h ↦ Safe.ret h
  · exact Safe.ret h

theorem accounting_handles : (accounting cfg).Handles (handler cfg) := by
  intro w request s hadmits _ huntouched
  have hsafe : Safe (accounting cfg) w (Returns fun _ ↦ Free w) (handler cfg request) s := by
    cases request with
    | submitReport caseNumber => exact safe_submitReport huntouched.free
    | whistleblowerMessage caseNumber => exact safe_whistleblowerMessage huntouched.free
    | digest => exact safe_digest huntouched
    | reminders => exact safe_sendSlaReminders huntouched.free
    | delete cases => exact absurd rfl (hadmits cases)
  refine Safe.imp (fun result t hresult ↦ ?_) hsafe
  cases result with
  | ok answer => exact hresult
  | error fault => exact fault.elim

/-! ### The theorem -/

theorem accounted_empty : Accounted Post.empty where
  queued _ _ := ⟨(fun h ↦ nomatch h), fun ⟨_, hnotice, _⟩ ↦ nomatch hnotice⟩
  delivered _ _ := ⟨(fun h ↦ nomatch h), fun ⟨_, hnotice, _⟩ ↦ nomatch hnotice⟩
  tookAt _ _ h := h.elim (fun heq ↦ nomatch heq) fun heq ↦ nomatch heq
  beyond _ _ := rfl

theorem accounting_start : (accounting cfg).Holds (start Empty) :=
  Contract.holds_of_idle accounted_empty (fun _ _ ↦ ⟨(fun heq ↦ nomatch heq), fun heq ↦ nomatch heq⟩)
    fun _ ↦ rfl

/-- A run is under way. -/
def UnderWay (s : Office Empty) (w : ℕ) : Prop := s.worker w ≠ none ∧ s.answer w = none

/-- Where a notice is: in its set, with one run that is under way, or delivered by one run. A run
that holds or has delivered it took it after it was queued. -/
def Placed (s : Office Empty) (i : ℕ) (notice : Kind × String) : Prop :=
  match s.shared.place i with
  | .queued => notice.2 ∈ s.shared.queue notice.1
  | .held w => UnderWay s w ∧ ∃ n, s.shared.tookAt w = some n ∧ i < n
  | .delivered w => (w, notice) ∈ s.shared.deliveries ∧ ∃ n, s.shared.tookAt w = some n ∧ i < n

/-- However notices, digests and reminders interleave: every notice is in one place, nothing else is
in the sets, and what was queued once is not delivered by two runs. -/
theorem digest_neither_loses_nor_duplicates {events : List (Step Empty)} {last : Office Empty}
    (hdeletions : ∀ w cases, Event.start w (.delete cases) ∉ events)
    (hrun : run (semantics Empty cfg) (handler cfg) (start Empty) events = some last) :
    (∀ (i : ℕ) notice, last.shared.notices[i]? = some notice → Placed last i notice) ∧
      (∀ kind caseNumber, caseNumber ∈ last.shared.queue kind ↔
        At last.shared .queued (kind, caseNumber)) ∧
      ∀ (i : ℕ) notice, last.shared.notices[i]? = some notice →
        (∀ j : ℕ, last.shared.notices[j]? = some notice → j = i) →
        ∀ w v, (w, notice) ∈ last.shared.deliveries → (v, notice) ∈ last.shared.deliveries →
          w = v := by
  have hpermits : Meets (semantics Empty cfg) (handler cfg) (accounting cfg).Permits (start Empty)
      events := by
    refine Contract.meets_permits (fun _ _ _ ↦ trivial) (fun _ _ ↦ trivial) ?_
      (meets_of_forall (fun _ _ _ _ _ _ ↦ trivial) _)
    rintro w request hmem cases rfl
    exact hdeletions w cases hmem
  have hholds := Contract.run_safe accounting_handles accounting_start hpermits hrun
  have hinv : Accounted last.shared := hholds.invariant
  refine ⟨fun i notice hnotice ↦ ?_, hinv.queued, fun i notice hnotice honce w v hw hv ↦ ?_⟩
  · unfold Placed
    cases hplace : last.shared.place i with
    | queued => exact (hinv.queued _ _).mpr ⟨i, hnotice, hplace⟩
    | held w =>
      refine ⟨⟨fun hidle ↦ (hholds.idle w hidle i).1 hplace, ?_⟩, hinv.tookAt i w (.inl hplace)⟩
      by_contra hanswer
      obtain ⟨answer, hanswer⟩ := Option.ne_none_iff_exists'.mp hanswer
      exact hholds.ends_of_answer hanswer i hplace
    | delivered w =>
      exact ⟨(hinv.delivered w notice).mpr ⟨i, hnotice, hplace⟩, hinv.tookAt i w (.inr hplace)⟩
  · obtain ⟨j, hj, hplace⟩ := (hinv.delivered w notice).mp hw
    obtain ⟨k, hk, hplace'⟩ := (hinv.delivered v notice).mp hv
    rw [honce j hj] at hplace
    rw [honce k hk, hplace] at hplace'
    exact Place.delivered.inj hplace'

/-! ### A digest that fails at first -/

def batched : Settings := ⟨true, false, 60, true⟩

def idleDraw : Draw := ⟨false, false, []⟩

def mailed : Draw := ⟨true, false, []⟩

/-- The first run delivers nothing and puts the case back, and the second one delivers it. -/
def twoDigests {ε : Type} : List (Step ε) :=
  [.start 1 (.submitReport "OW-1"), .run 1 idleDraw, .run 1 idleDraw, .start 2 .digest,
    .run 2 idleDraw, .run 2 idleDraw, .run 2 idleDraw, .start 3 .digest, .run 3 idleDraw,
    .run 3 mailed]

theorem digest_delivers_at_last : ∃ last,
    run (semantics Empty batched) (handler batched) (start Empty) twoDigests = some last ∧
    last.shared.deliveries = [(3, .newReports, "OW-1")] ∧
    last.shared.place 0 = .delivered 3 ∧ Placed last 0 (.newReports, "OW-1") := by
  have hrun := run_eq_get (show (run (semantics Empty batched) (handler batched) (start Empty)
    twoDigests).isSome = true by decide +kernel)
  have hplaced := (digest_neither_loses_nor_duplicates (by simp [twoDigests]) hrun).1 0
    (.newReports, "OW-1") (by decide +kernel)
  exact ⟨_, hrun, by decide +kernel, by decide +kernel, hplaced⟩

end OpenWhistle.Notices
