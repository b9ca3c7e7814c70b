import OpenWhistle.Foundation.Contract
import OpenWhistle.Links.CaseLinks

/-!
# The graph of the links

A link has two ends, the smaller one first, and each end lists the other: that holds of every link
there ever is. That two reports have one link at most holds as long as no link of theirs is committed
between the search of a request that links them and its own commit. What a request knows from its
search on is that a link of its reports can only have been committed later.
-/

set_option autoImplicit false
set_option relaxedAutoImplicit false

namespace OpenWhistle.Links

open Interleaving CheckedInsert

/-- Where a transaction commits a link, no link of its two reports has been committed since it looked
for one. -/
def Unraced (w : ℕ) (operation : Op) (s : Cases) : Prop :=
  match operation with
  | .commit => ∀ link ∈ s.links.pendingOf w,
      s.links.NoneSince CaseLink.ends link.ends (s.checkedAt w)
  | _ => True

instance (w : ℕ) (operation : Op) (s : Cases) : Decidable (Unraced w operation s) := by
  cases operation <;> unfold Unraced <;> infer_instance

variable {s t u : Cases} {w v : ℕ}

/-! ### The invariant -/

/-- Every link has its smaller end first. -/
structure Ordered (links : Table CaseLink) : Prop where
  rows : ∀ link ∈ links.rows, link.reportIdA < link.reportIdB
  pending : ∀ item ∈ links.pending, item.2.reportIdA < item.2.reportIdB

/-- The links are ordered, and in a run without races there is one at most for two reports. -/
structure Orderly (unraced : Prop) (s : Cases) : Prop where
  ordered : Ordered s.links
  distinct : unraced → s.links.Distinct CaseLink.ends

/-- What the others leave of a transaction, and what they leave of what it has learnt. -/
structure Around (w : ℕ) (s t : Cases) : Prop where
  pending : t.links.pendingOf w = s.links.pendingOf w
  checkedAt : t.checkedAt w = s.checkedAt w
  commits : s.links.commits ≤ t.links.commits
  since : ∀ k n, n ≤ s.links.commits → s.links.Since CaseLink.ends k n →
    t.links.Since CaseLink.ends k n

theorem Around.refl (w : ℕ) (s : Cases) : Around w s s := ⟨rfl, rfl, le_rfl, fun _ _ _ h ↦ h⟩

theorem Around.trans (hst : Around w s t) (htu : Around w t u) : Around w s u where
  pending := htu.pending.trans hst.pending
  checkedAt := htu.checkedAt.trans hst.checkedAt
  commits := hst.commits.trans htu.commits
  since k n hn h := htu.since k n (hn.trans hst.commits) (hst.since k n hn h)

/-- Links that are deleted leave order behind. -/
theorem Orderly.delete {unraced : Prop} (h : Orderly unraced s) (gone : CaseLink → Bool)
    (reports : List Report) :
    Orderly unraced { s with reports := reports, links := s.links.delete gone } where
  ordered := ⟨fun link hmem ↦ h.ordered.rows link (Table.mem_rows_of_delete hmem),
    h.ordered.pending⟩
  distinct hunraced := (h.distinct hunraced).delete gone

theorem around_delete (gone : CaseLink → Bool) (reports : List Report) :
    Around w s { s with reports := reports, links := s.links.delete gone } :=
  ⟨rfl, rfl, le_rfl, fun _ _ _ h ↦ h.delete gone⟩

/-- What the requests that link and unlink owe each other. -/
def linking (unraced : Prop) : Contract semantics Request Answer where
  invariant := Orderly unraced
  rely := Around
  rely_refl := Around.refl
  rely_trans _ _ _ _ := Around.trans
  idle w s := s.links.pendingOf w = []
  idle_stable _ _ _ h haround _ := haround.pending.trans h
  ends _ _ _ := True
  ends_stable _ _ _ _ _ _ _ := trivial
  admits _ := True
  allows w operation s := unraced → Unraced w operation s
  trusts _ _ _ := True
  tolerates _ _ := True
  environment_safe := by
    intro change s t hinv _ hchange
    cases change with
    | submit report =>
      simp only [semantics, environment] at hchange
      split_ifs at hchange
      cases hchange
      exact ⟨⟨hinv.ordered, hinv.distinct⟩, fun w ↦ ⟨rfl, rfl, le_rfl, fun _ _ _ h ↦ h⟩⟩
    | delete id =>
      simp only [semantics, environment] at hchange
      split_ifs at hchange
      cases hchange
      exact ⟨hinv.delete _ _, fun w ↦ around_delete _ _⟩

/-! ### The steps of a request -/

variable {letters : Text.Letters} {unraced : Prop}

/-- The transaction has inserted nothing. -/
def Clean (w : ℕ) (s : Cases) : Prop := s.links.pendingOf w = []

/-- The transaction has found no link of two reports. -/
structure Checked (w : ℕ) (k : Uuid × Uuid) (s : Cases) : Prop where
  clean : Clean w s
  since : s.links.Since CaseLink.ends k (s.checkedAt w)
  checkedAt : s.checkedAt w ≤ s.links.commits

/-- The transaction has inserted a link of two reports of which it had found none. -/
structure Inserted (w : ℕ) (k : Uuid × Uuid) (s : Cases) : Prop where
  pending : ∃ link, s.links.pendingOf w = [link] ∧ link.ends = k
  since : s.links.Since CaseLink.ends k (s.checkedAt w)
  checkedAt : s.checkedAt w ≤ s.links.commits

theorem Clean.later (h : Clean w s) (haround : Around w s t) : Clean w t :=
  haround.pending.trans h

theorem Checked.later {k : Uuid × Uuid} (h : Checked w k s) (haround : Around w s t) :
    Checked w k t where
  clean := h.clean.later haround
  since := haround.checkedAt ▸ haround.since k _ h.checkedAt h.since
  checkedAt := haround.checkedAt ▸ h.checkedAt.trans haround.commits

theorem Inserted.later {k : Uuid × Uuid} (h : Inserted w k s) (haround : Around w s t) :
    Inserted w k t where
  pending := haround.pending ▸ h.pending
  since := haround.checkedAt ▸ haround.since k _ h.checkedAt h.since
  checkedAt := haround.checkedAt ▸ h.checkedAt.trans haround.commits

/-- A step that only reads. -/
theorem safe_read {operation : Op} (h : Clean w s)
    (hreads : ∀ draw t reply u, perform w operation draw t = some (reply, u) → u = t) :
    Safe (linking unraced) w (Returns fun _ ↦ Clean w) (call operation) s := by
  refine Safe.call_returns fun t haround hinv _ draw reply u hperform ↦ ?_
  obtain rfl := hreads draw t reply u hperform
  exact ⟨hinv, fun v _ ↦ Around.refl v u, fun _ _ ↦ h.later haround⟩

theorem safe_getLinkBetween {a b : Uuid} (h : Clean w s) :
    Safe (linking unraced) w (Returns fun found t ↦ Clean w t ∧
      (found = none → Checked w (normalizeIds a b) t)) (call (.getLinkBetween a b)) s := by
  refine Safe.call_returns fun t haround hinv _ draw reply u hperform ↦ ?_
  have hclean := h.later haround
  cases hperform
  refine ⟨⟨hinv.ordered, hinv.distinct⟩,
    fun v hv ↦ ⟨rfl, Function.update_of_ne hv .., le_rfl, fun _ _ _ h ↦ h⟩,
    fun found hfound ↦ ⟨hclean, fun hnone ↦ ⟨hclean, ?_, ?_⟩⟩⟩
  · subst hnone
    have hempty : (t.links.rows.filter fun link ↦ link.ends = normalizeIds a b) = [] :=
      eq_nil_of_scalarOneOrNone hfound
    dsimp only
    rw [Function.update_self]
    refine Table.since_of_none fun link hmem heq ↦ ?_
    exact List.filter_eq_nil_iff.mp hempty link hmem (decide_eq_true heq)
  · dsimp only
    rw [Function.update_self]

theorem safe_insertLink {a b : Uuid} {actor : ℕ} {username : String} (hlt : a < b)
    (h : Checked w (a, b) s) :
    Safe (linking unraced) w (Returns fun _ ↦ Inserted w (a, b))
      (call (.insertLink a b actor username)) s := by
  refine Safe.call_returns fun t haround hinv _ draw reply u hperform ↦ ?_
  have hchecked := h.later haround
  change t.insertLink w _ = some (reply, u) at hperform
  unfold Cases.insertLink at hperform
  split_ifs at hperform
  · cases hperform
    refine ⟨⟨⟨hinv.ordered.rows, fun item hmem ↦ ?_⟩, hinv.distinct⟩,
      fun v hv ↦ ⟨Table.pendingOf_insert_of_ne hv _, rfl, le_rfl, fun _ _ _ h ↦ h⟩, fun _ _ ↦
        ⟨⟨_, (Table.pendingOf_insert_self _).trans (congrArg _ hchecked.clean), rfl⟩,
          hchecked.since, hchecked.checkedAt⟩⟩
    rcases List.mem_cons.mp hmem with rfl | hold
    · exact hlt
    · exact hinv.ordered.pending item hold
  · cases hperform
    exact ⟨hinv, fun v _ ↦ Around.refl v t, fun _ heq ↦ nomatch heq⟩

theorem safe_deleteLink {id : ℕ} (h : Clean w s) :
    Safe (linking unraced) w (Returns fun _ ↦ Clean w) (call (.deleteLink id)) s := by
  refine Safe.call_returns fun t haround hinv _ draw reply u hperform ↦ ?_
  have hclean := h.later haround
  change t.deleteLink w id = some (reply, u) at hperform
  unfold Cases.deleteLink at hperform
  split_ifs at hperform
  · cases hperform
    exact ⟨⟨hinv.ordered, hinv.distinct⟩, fun v _ ↦ ⟨rfl, rfl, le_rfl, fun _ _ _ h ↦ h⟩,
      fun _ _ ↦ hclean⟩
  · cases hperform
    exact ⟨hinv, fun v _ ↦ Around.refl v t, fun _ _ ↦ hclean⟩

/-- What a commit leaves to the others. -/
theorem around_commit (hv : v ≠ w) : Around v s (s.commit w) where
  pending := Table.pendingOf_commit_of_ne hv
  checkedAt := rfl
  commits := Nat.le_succ _
  since _ _ hn h := (h.delete _).commit hn

/-- A commit keeps the order of the links. -/
theorem ordered_commit (h : Ordered s.links) : Ordered (s.commit w).links where
  rows link hmem := by
    rcases Table.mem_rows_commit hmem with hold | hpending
    · exact h.rows link (Table.mem_rows_of_delete hold)
    · exact h.pending (w, link) hpending
  pending item hmem := h.pending item (List.mem_of_mem_filter hmem)

theorem safe_commit_of_clean (h : Clean w s) :
    Safe (linking unraced) w (Returns fun _ _ ↦ True) (call .commit) s := by
  refine Safe.call_returns fun t haround hinv _ draw reply u hperform ↦ ?_
  cases hperform
  refine ⟨⟨ordered_commit hinv.ordered, fun hunraced ↦ ?_⟩, fun v hv ↦ around_commit hv,
    fun _ _ ↦ trivial⟩
  exact ((hinv.distinct hunraced).delete _).commit_nothing (h.later haround)

theorem safe_commit_of_inserted {k : Uuid × Uuid} (h : Inserted w k s) :
    Safe (linking unraced) w (Returns fun _ _ ↦ True) (call .commit) s := by
  refine Safe.call_returns fun t haround hinv hallows draw reply u hperform ↦ ?_
  have hinserted := h.later haround
  cases hperform
  refine ⟨⟨ordered_commit hinv.ordered, fun hunraced ↦ ?_⟩, fun v hv ↦ around_commit hv,
    fun _ _ ↦ trivial⟩
  obtain ⟨link, hpending, rfl⟩ := hinserted.pending
  have hnone : t.links.NoneSince CaseLink.ends link.ends (t.checkedAt w) :=
    hallows hunraced link (hpending ▸ List.mem_singleton_self link)
  exact ((hinv.distinct hunraced).delete _).commit hpending (hinserted.since.delete _)
    fun entry hmem ↦ hnone entry (List.mem_of_mem_filter hmem)

theorem safe_close :
    Safe (linking unraced) w (Returns fun _ _ ↦ True) (call .close) s := by
  refine Safe.call_returns fun t haround hinv _ draw reply u hperform ↦ ?_
  cases hperform
  exact ⟨⟨⟨hinv.ordered.rows, fun item hmem ↦
    hinv.ordered.pending item (List.mem_of_mem_filter hmem)⟩, hinv.distinct⟩,
    fun v hv ↦ ⟨Table.pendingOf_abort_of_ne hv, rfl, le_rfl, fun _ _ _ h ↦ h⟩, fun _ _ ↦ trivial⟩

/-! ### The routes -/

/-- Two different ids in their order. -/
theorem normalizeIds_lt {a b : Uuid} (h : b ≠ a) :
    (normalizeIds a b).1 < (normalizeIds a b).2 := by
  unfold normalizeIds
  split_ifs with hlt
  · exact hlt
  · exact lt_of_le_of_ne (not_lt.mp hlt) h

theorem safe_withAuthorizedReport {reportId : Uuid} {user : AdminUser}
    {route : Report → Handler Answer} (h : Clean w s)
    (hroute : ∀ report t, Clean w t →
      Safe (linking unraced) w (Returns fun _ _ ↦ True) (route report) t) :
    Safe (linking unraced) w (Returns fun _ _ ↦ True)
      (withAuthorizedReport reportId user route) s := by
  refine Safe.andThen (safe_read h fun _ _ _ _ hperform ↦ by cases hperform; rfl)
    fun found t hclean ↦ ?_
  split
  · exact Safe.ret trivial
  · exact hroute _ t hclean

theorem safe_linkReport {reportId : Uuid} {caseNumber : String} {user : AdminUser}
    (h : Clean w s) : Safe (linking unraced) w (Returns fun _ _ ↦ True)
      (linkReport letters reportId caseNumber user) s := by
  refine safe_withAuthorizedReport h fun report t hclean ↦ ?_
  refine Safe.andThen (safe_read hclean fun _ _ _ _ hperform ↦ by cases hperform; rfl)
    fun found t hclean ↦ ?_
  split
  · exact Safe.ret trivial
  rename_i other _
  split_ifs with hself
  · exact Safe.ret trivial
  refine Safe.andThen (safe_getLinkBetween hclean) fun existing t hfound ↦ ?_
  cases existing with
  | some link => exact Safe.ret trivial
  | none =>
    rw [if_neg (by simp)]
    have hchecked := hfound.2 rfl
    have hlinked : Safe (linking unraced) w (Returns fun _ _ ↦ True)
        (linkCases report other user) t :=
      Safe.andThen (safe_insertLink (normalizeIds_lt hself) hchecked) fun _ t hinserted ↦
        safe_commit_of_inserted hinserted
    exact Safe.andThen hlinked fun _ t _ ↦ Safe.ret trivial

theorem safe_unlinkReport {reportId : Uuid} {linkId : ℕ} {user : AdminUser}
    (h : Clean w s) : Safe (linking unraced) w (Returns fun _ _ ↦ True)
      (unlinkReport reportId linkId user) s := by
  refine safe_withAuthorizedReport h fun report t hclean ↦ ?_
  refine Safe.andThen (safe_read hclean fun _ _ _ _ hperform ↦ by cases hperform; rfl)
    fun found t hclean ↦ ?_
  split
  · exact Safe.ret trivial
  split_ifs
  · exact Safe.ret trivial
  refine Safe.andThen (safe_deleteLink hclean) fun _ t hclean ↦ ?_
  exact Safe.andThen (safe_commit_of_clean hclean) fun _ t _ ↦ Safe.ret trivial

theorem linking_handles : (linking unraced).Handles (handler letters) := by
  intro w request s _ _ hclean
  have hsafe : Safe (linking unraced) w (Returns fun _ _ ↦ True) (handler letters request) s := by
    cases request with
    | linkReport reportId caseNumber user => exact Safe.ensuring (safe_linkReport hclean) fun _ ↦ safe_close
    | unlinkReport reportId linkId user => exact Safe.ensuring (safe_unlinkReport hclean) fun _ ↦ safe_close
  exact Safe.imp (fun _ _ _ ↦ trivial) hsafe

/-! ### The theorem -/

/-- The link joins the two reports, in whichever order. -/
def CaseLink.Joins (link : CaseLink) (a b : Uuid) : Prop :=
  (link.reportIdA = a ∧ link.reportIdB = b) ∨ (link.reportIdA = b ∧ link.reportIdB = a)

/-- A link has two different ends, the smaller one first, and each of them lists the other. -/
structure Paired (s : Cases) : Prop where
  irreflexive : ∀ link ∈ s.links.rows, link.reportIdA ≠ link.reportIdB
  normalized : ∀ link ∈ s.links.rows, link.reportIdA < link.reportIdB
  listed : ∀ link ∈ s.links.rows, (link.reportIdB, link.id) ∈ s.getLinkedReports link.reportIdA ∧
    (link.reportIdA, link.id) ∈ s.getLinkedReports link.reportIdB
  symmetric : ∀ a b id, (b, id) ∈ s.getLinkedReports a ↔ (a, id) ∈ s.getLinkedReports b

/-- No two links join the same reports, and the search for a link never fails. -/
structure Simple (s : Cases) : Prop where
  once : s.links.rows.Nodup ∧ ∀ first ∈ s.links.rows, ∀ second ∈ s.links.rows, ∀ a b,
    first.Joins a b → second.Joins a b → first = second
  total : ∀ a b, ∃ found, s.getLinkBetween a b = .ok found

theorem mem_getLinkedReports {a b : Uuid} {id : ℕ} : (b, id) ∈ s.getLinkedReports a ↔
    ∃ link ∈ s.links.rows, link.id = id ∧ link.Joins a b := by
  simp only [Cases.getLinkedReports, List.mem_append, List.mem_map, List.mem_filter,
    decide_eq_true_eq, Prod.mk.injEq]
  constructor
  · rintro (⟨link, ⟨hmem, ha⟩, hb, hid⟩ | ⟨link, ⟨hmem, hb⟩, ha, hid⟩)
    · exact ⟨link, hmem, hid, .inl ⟨ha, hb⟩⟩
    · exact ⟨link, hmem, hid, .inr ⟨ha, hb⟩⟩
  · rintro ⟨link, hmem, hid, ⟨ha, hb⟩ | ⟨ha, hb⟩⟩
    · exact .inl ⟨link, ⟨hmem, ha⟩, hb, hid⟩
    · exact .inr ⟨link, ⟨hmem, hb⟩, ha, hid⟩

theorem paired_of_ordered (h : Ordered s.links) : Paired s where
  irreflexive link hmem := (h.rows link hmem).ne
  normalized := h.rows
  listed link hmem := ⟨mem_getLinkedReports.mpr ⟨link, hmem, rfl, .inl ⟨rfl, rfl⟩⟩,
    mem_getLinkedReports.mpr ⟨link, hmem, rfl, .inr ⟨rfl, rfl⟩⟩⟩
  symmetric a b id := by
    rw [mem_getLinkedReports, mem_getLinkedReports]
    simp only [CaseLink.Joins, or_comm]

/-- Ordered links of the same reports have the same ends. -/
theorem ends_eq_of_joins {first second : CaseLink} {a b : Uuid}
    (hfirst : first.reportIdA < first.reportIdB) (hsecond : second.reportIdA < second.reportIdB)
    (h : first.Joins a b) (h' : second.Joins a b) : first.ends = second.ends := by
  unfold CaseLink.ends
  rcases h with ⟨ha, hb⟩ | ⟨ha, hb⟩ <;> rcases h' with ⟨ha', hb'⟩ | ⟨ha', hb'⟩
  · rw [ha, hb, ha', hb']
  · rw [ha, hb] at hfirst
    rw [ha', hb'] at hsecond
    exact absurd hsecond hfirst.asymm
  · rw [ha, hb] at hfirst
    rw [ha', hb'] at hsecond
    exact absurd hsecond hfirst.asymm
  · rw [ha, hb, ha', hb']

theorem simple_of_distinct (h : Ordered s.links) (hdistinct : s.links.Distinct CaseLink.ends) :
    Simple s where
  once := ⟨List.Nodup.of_map _ hdistinct, fun first hfirst second hsecond _ _ hjoins hjoins' ↦
    List.inj_on_of_nodup_map hdistinct hfirst hsecond
      (ends_eq_of_joins (h.rows first hfirst) (h.rows second hsecond) hjoins hjoins')⟩
  total a b := scalarOneOrNone_of_length (hdistinct.length_filter (normalizeIds a b))

theorem linking_start : (linking unraced).Holds start :=
  Contract.holds_of_idle ⟨⟨(fun _ hmem ↦ nomatch hmem), (fun _ hmem ↦ nomatch hmem)⟩,
    fun _ ↦ List.nodup_nil⟩ (fun _ ↦ rfl) fun _ ↦ rfl

/-- The contract asks for a run without races only where it is one. -/
theorem linking_permits {s : Desks} {events : List Step} (hunraced : unraced →
    Meets semantics (handler letters) (fun s event ↦ s.Acts Unraced event) s events) :
    Meets semantics (handler letters) (linking unraced).Permits s events := by
  by_cases h : unraced
  · refine meets_imp (fun s event hacts ↦ ?_) (hunraced h)
    exact Contract.permits_of_acting (fun _ ↦ trivial) (fun _ _ _ ↦ trivial) (fun _ _ ↦ trivial)
      fun w operation hacting _ ↦ hacts w operation hacting
  · refine meets_of_forall (fun event _ s ↦ ?_) s
    exact Contract.permits_of_acting (fun _ ↦ trivial) (fun _ _ _ ↦ trivial) (fun _ _ ↦ trivial)
      fun w operation _ hunraced ↦ absurd hunraced h

/-- In every run, links are ordered and listed at both ends. Two reports have one link at most, and
the search for it does not fail, when no commit adds a link of two reports that have got one since the
request has looked. -/
theorem links_form_a_simple_graph (letters : Text.Letters) {events : List Step} {last : Desks}
    (hrun : run semantics (handler letters) start events = some last) :
    Paired last.shared ∧
      (Meets semantics (handler letters) (fun s event ↦ s.Acts Unraced event) start events →
        Simple last.shared) := by
  have hordered : Ordered last.shared.links :=
    (Contract.run_safe linking_handles linking_start (linking_permits False.elim)
      hrun).invariant.ordered
  refine ⟨paired_of_ordered hordered, fun hunraced ↦ simple_of_distinct hordered ?_⟩
  have horderly : Orderly True last.shared :=
    (Contract.run_safe linking_handles linking_start (linking_permits fun _ ↦ hunraced)
      hrun).invariant
  exact horderly.distinct trivial

/-! ### Two requests at once -/

def anna : AdminUser := ⟨1, "anna", fun _ ↦ true⟩

def bert : AdminUser := ⟨2, "bert", fun _ ↦ true⟩

/-- Two reports, and a request from each of them to link it with the other. -/
def twoRequests : List Step :=
  [.environment (.submit ⟨"a", "OW-1"⟩), .environment (.submit ⟨"b", "OW-2"⟩),
    .start 1 (.linkReport "a" " ow-2" anna), .start 2 (.linkReport "b" "OW-1" bert),
    .run 1 0, .run 1 0, .run 2 0, .run 2 0]

/-- The second request looks for the link when the first one has committed it. -/
def inTurn : List Step :=
  twoRequests ++ [.run 1 0, .run 1 10, .run 1 0, .run 1 0, .run 2 0, .run 2 0]

/-- Both look for the link before either inserts it. -/
def atOnce : List Step :=
  twoRequests ++ [.run 1 0, .run 2 0, .run 1 10, .run 2 20, .run 1 0, .run 2 0]

theorem links_form_a_simple_graph_in_turn : ∃ last,
    run semantics (handler Text.Letters.ascii) start inTurn = some last ∧
    last.answer 1 = some (.redirect "/admin/reports/a#links" 302) ∧
    last.answer 2 = some (.refused 409 "These cases are already linked.") ∧
    last.shared.getLinkedReports "b" = [("a", 10)] ∧ Paired last.shared ∧ Simple last.shared := by
  have hrun := run_eq_get (show (run semantics (handler Text.Letters.ascii) start
    inTurn).isSome = true by decide +kernel)
  have hgraph := links_form_a_simple_graph Text.Letters.ascii hrun
  exact ⟨_, hrun, by decide +kernel, by decide +kernel, by decide +kernel, hgraph.1,
    hgraph.2 (by decide +kernel)⟩

/-- Two links of the same cases, and the search for the link of them fails from then on. -/
theorem requests_at_once_link_twice : ∃ last,
    run semantics (handler Text.Letters.ascii) start atOnce = some last ∧
    last.shared.links.rows.map CaseLink.ends = [("a", "b"), ("a", "b")] ∧
    last.shared.getLinkBetween "a" "b" = .error .multipleResultsFound ∧ ¬Simple last.shared := by
  have hrun := run_eq_get (show (run semantics (handler Text.Letters.ascii) start
    atOnce).isSome = true by decide +kernel)
  have hfails : ((run semantics (handler Text.Letters.ascii) start atOnce).get
      (by decide +kernel)).shared.getLinkBetween "a" "b" = .error .multipleResultsFound := by
    decide +kernel
  refine ⟨_, hrun, by decide +kernel, hfails, fun hsimple ↦ ?_⟩
  obtain ⟨found, hfound⟩ := hsimple.total "a" "b"
  cases hfails.symm.trans hfound

end OpenWhistle.Links
