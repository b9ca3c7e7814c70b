import Mathlib.Data.String.Basic
import OpenWhistle.Branding.Snapshot
import OpenWhistle.Foundation.Contract

/-!
# No stale branding after a save

A page reads the version before it loads the rows, and a save commits its rows before it increments
the version. So what was loaded under a version is at least as new as every save whose increment that
version has counted: that is the invariant of a cached snapshot, and what a page knows between its
steps. A page that starts after a save has returned reads a version that has counted it, or a later
one.
-/

set_option autoImplicit false
set_option relaxedAutoImplicit false

namespace OpenWhistle.Branding

open Interleaving

/-! ### Versions as texts -/

/-- The text of a version that was incremented so often. -/
def versionText (n : ℕ) : Option String := if n = 0 then none else some (toString n)

theorem versionText_injective : Function.Injective versionText := by
  intro m n h
  unfold versionText at h
  split_ifs at h with hm hn hn
  · exact hm.trans hn.symm
  · have hdigits := congrArg String.toList (Option.some.inj h)
    rw [Nat.toString_eq_repr, Nat.toString_eq_repr, Nat.toList_repr, Nat.toList_repr] at hdigits
    rw [← Nat.ofDigitChars_ten_toDigits (n := m), hdigits, Nat.ofDigitChars_ten_toDigits]

/-- A snapshot counts under the version it was stored with, and under no other. -/
theorem hit_render {stored version : Option String} {rows found : Snapshot}
    (h : hit (some (render stored rows)) version = some found) : stored = version ∧ found = rows := by
  unfold hit render at h
  dsimp only at h
  rw [if_neg (Json.dumps_ne_empty _), Json.loads_dumps] at h
  dsimp only at h
  have hrows : ∀ value, Json.get [("version", value), ("rows", Json.dict rows)] "rows" =
      some (.dict rows) := fun value ↦ by simp [Json.get]
  have hversion : ∀ value, Json.get [("version", value), ("rows", Json.dict rows)] "version" =
      some value := fun value ↦ by simp [Json.get, List.lookup_cons]
  rw [hrows, hversion] at h
  split_ifs at h with hsame
  dsimp only at h
  refine ⟨?_, (Option.some.inj h).symm⟩
  cases stored with
  | none =>
    cases version with
    | none => rfl
    | some version => cases hsame
  | some stored =>
    cases version with
    | none => cases hsame
    | some version => exact congrArg some (of_decide_eq_true hsame)

/-! ### The invariant -/

variable {s t u : Pages} {w v : ℕ}

/-- Rows that were in the database at some time from a commit on. -/
def Fresh (floor : ℕ) (rows : Snapshot) (s : Pages) : Prop :=
  ∃ e, floor ≤ e ∧ e ≤ s.epoch ∧ s.saved e = rows

structure Current (s : Pages) : Prop where
  version : s.redis versionKey =
    if s.current = 0 then none else some ⟨.integer s.current, none⟩
  floor : s.floorAt s.current ≤ s.epoch
  committed : ∀ w e, s.committedAt w = some e → e ≤ s.epoch
  cached : ∀ e, s.redis cacheKey = some e → ∃ n rows, n ≤ s.current ∧
    e.value = .text (render (versionText n) rows) ∧ Fresh (s.floorAt n) rows s

/-- The history grows, and what it was stays. -/
structure Grows (s t : Pages) : Prop where
  epoch : s.epoch ≤ t.epoch
  saved : ∀ e ≤ s.epoch, t.saved e = s.saved e
  current : s.current ≤ t.current
  floorAt : ∀ n ≤ s.current, t.floorAt n = s.floorAt n
  floor : s.floorAt s.current ≤ t.floorAt t.current

theorem Grows.refl (s : Pages) : Grows s s := ⟨le_rfl, fun _ _ ↦ rfl, le_rfl, fun _ _ ↦ rfl, le_rfl⟩

theorem Grows.trans (hst : Grows s t) (htu : Grows t u) : Grows s u where
  epoch := hst.epoch.trans htu.epoch
  saved e he := (htu.saved e (he.trans hst.epoch)).trans (hst.saved e he)
  current := hst.current.trans htu.current
  floorAt n hn := (htu.floorAt n (hn.trans hst.current)).trans (hst.floorAt n hn)
  floor := hst.floor.trans htu.floor

/-- What worker `w` may rely on. -/
structure Around (w : ℕ) (s t : Pages) : Prop where
  grows : Grows s t
  committedAt : t.committedAt w = s.committedAt w

theorem Around.refl (w : ℕ) (s : Pages) : Around w s s := ⟨Grows.refl s, rfl⟩

/-- A step that touches the keys alone. -/
theorem Around.of_keys (w now : ℕ) (redis : Redis.Store) (s : Pages) :
    Around w s { s with now := now, redis := redis } :=
  ⟨⟨le_rfl, fun _ _ ↦ rfl, le_rfl, fun _ _ ↦ rfl, le_rfl⟩, rfl⟩

theorem Around.trans (hst : Around w s t) (htu : Around w t u) : Around w s u :=
  ⟨hst.grows.trans htu.grows, htu.committedAt.trans hst.committedAt⟩

theorem Fresh.later {floor : ℕ} {rows : Snapshot} (h : Fresh floor rows s) (hgrows : Grows s t) :
    Fresh floor rows t := by
  obtain ⟨e, hfloor, he, hrows⟩ := h
  exact ⟨e, hfloor, he.trans hgrows.epoch, (hgrows.saved e he).trans hrows⟩

theorem Fresh.of_le {floor lower : ℕ} {rows : Snapshot} (h : Fresh floor rows s)
    (hlower : lower ≤ floor) : Fresh lower rows s := by
  obtain ⟨e, hfloor, he, hrows⟩ := h
  exact ⟨e, hlower.trans hfloor, he, hrows⟩

/-- A step that leaves the keys and lets the history grow. -/
theorem Current.cached_later (h : Current s) (hgrows : Grows s t)
    (hcache : t.redis cacheKey = s.redis cacheKey) : ∀ e, t.redis cacheKey = some e →
      ∃ n rows, n ≤ t.current ∧ e.value = .text (render (versionText n) rows) ∧
        Fresh (t.floorAt n) rows t := by
  intro e he
  rw [hcache] at he
  obtain ⟨n, rows, hn, hvalue, hfresh⟩ := h.cached e he
  exact ⟨n, rows, hn.trans hgrows.current, hvalue, hgrows.floorAt n hn ▸ hfresh.later hgrows⟩

/-! ### The contract -/

/-- What is promised of a save that has returned. -/
def Ended (w : ℕ) : Answer → Pages → Prop
  | .rows _, _ => True
  | .saved, s => ∃ e, s.committedAt w = some e ∧ e ≤ s.floorAt s.current

theorem Ended.later {answer : Answer} (h : Ended w answer s) (haround : Around w s t) :
    Ended w answer t := by
  cases answer with
  | rows snapshot => trivial
  | saved =>
    obtain ⟨e, hcommitted, he⟩ := h
    exact ⟨e, haround.committedAt.trans hcommitted, he.trans haround.grows.floor⟩

theorem tick_current {milliseconds : ℕ} (h : Current s) :
    Current { s with now := s.now + milliseconds } :=
  ⟨h.version, h.floor, h.committed, h.cached⟩

theorem delete_current (h : Current s) :
    Current { s with redis := Redis.delete s.redis cacheKey } := by
  have hversion : versionKey ≠ cacheKey := by decide
  refine ⟨?_, h.floor, h.committed, fun e he ↦ ?_⟩
  · rw [← h.version]
    exact Redis.delete_of_ne hversion
  · exact absurd ((Redis.delete_self s.redis cacheKey).symm.trans he) (Option.some_ne_none e).symm

/-- What pages and saves owe each other. -/
def branding : Contract semantics Request Answer where
  invariant := Current
  rely := Around
  rely_refl := Around.refl
  rely_trans _ _ _ _ := Around.trans
  idle w s := s.committedAt w = none
  idle_stable _ _ _ h haround _ := haround.committedAt.trans h
  ends w := Returns (Ended w)
  ends_stable := by
    intro w result s t h haround _
    cases result with
    | ok answer => exact Ended.later h haround
    | error fault => trivial
  admits _ := True
  allows _ _ _ := True
  trusts _ _ _ := True
  tolerates _ _ := True
  environment_safe := by
    intro change s t hinv _ hchange
    cases change with
    | tick milliseconds =>
      cases hchange
      exact ⟨tick_current hinv, fun w ↦ Around.of_keys w _ _ s⟩
    | evict =>
      cases hchange
      exact ⟨delete_current hinv, fun w ↦ Around.of_keys w _ _ s⟩

/-- One step: what it does to any state the others may have left. -/
theorem branding_call {operation : Op} {promise : Reply operation → Pages → Prop} {s : Pages}
    (h : ∀ t, Around w s t → Current t → ∀ draw value u,
      perform w operation draw t = some (.ok value, u) →
        Current u ∧ (∀ v, v ≠ w → Around v t u) ∧ promise value u)
    (hfault : ∀ draw fault t u, perform w operation draw t = some (.error fault, u) → u = t) :
    Safe branding w (Returns promise) (call operation) s := by
  refine Safe.call fun t haround hinv ↦ ⟨fun _ ↦ trivial, fun _ draw reply u hperform ↦ ?_⟩
  cases reply with
  | error fault =>
    cases hfault draw fault t u hperform
    exact ⟨hinv, fun v _ ↦ Around.refl v t, fun _ ↦ trivial, fun _ ↦ trivial⟩
  | ok value =>
    obtain ⟨hinv', hothers, hpromise⟩ := h t haround hinv draw value u hperform
    exact ⟨hinv', hothers, fun _ ↦ hpromise, fun _ ↦ trivial⟩

/-! ### The steps of a page -/

/-- A version a page has read: it counts the saves up to `floor`, and the database is as far. -/
structure Knows (floor n : ℕ) (s : Pages) : Prop where
  counted : n ≤ s.current
  floor : floor ≤ s.floorAt n
  epoch : s.floorAt n ≤ s.epoch

theorem Knows.later {floor n : ℕ} (h : Knows floor n s) (hgrows : Grows s t) : Knows floor n t where
  counted := h.counted.trans hgrows.current
  floor := (hgrows.floorAt n h.counted).symm ▸ h.floor
  epoch := (hgrows.floorAt n h.counted).symm ▸ h.epoch.trans hgrows.epoch

theorem get_version (h : Current s) :
    Redis.get s.redis s.now versionKey = versionText s.current := by
  have hversion := h.version
  unfold versionText
  split_ifs at hversion ⊢ with hzero
  · rw [Redis.get, Redis.find, hversion]
    rfl
  · rw [Redis.get, Redis.find_of_stays s.now hversion]
    rfl

theorem safe_mget {floor : ℕ} (hfloor : floor ≤ s.floorAt s.current) :
    Safe branding w (Returns fun (found : Option String × Option String) t ↦
      (∀ rows, hit found.1 found.2 = some rows → Fresh floor rows t) ∧
        ∃ n, found.2 = versionText n ∧ Knows floor n t) (call .mget) s := by
  refine branding_call (fun t haround hinv draw found u hperform ↦ ?_)
    (fun _ _ _ _ hperform ↦ nomatch hperform)
  cases hperform
  have hlater := hfloor.trans haround.grows.floor
  refine ⟨hinv, fun v _ ↦ Around.refl v t, fun rows hhit ↦ ?_, t.current, get_version hinv,
    le_rfl, hlater, hinv.floor⟩
  dsimp only at hhit
  cases hcached : Redis.get t.redis t.now cacheKey with
  | none =>
    rw [hcached] at hhit
    cases hhit
  | some text =>
    obtain ⟨e, he, htext⟩ := Redis.exists_of_get hcached
    obtain ⟨n, stored, hn, hvalue, hfresh⟩ := hinv.cached e he
    rw [hcached, ← htext _ hvalue, get_version hinv] at hhit
    obtain ⟨hversion, rfl⟩ := hit_render hhit
    rw [versionText_injective hversion] at hfresh
    exact hfresh.of_le hlater

theorem safe_load {floor n : ℕ} (h : Knows floor n s) :
    Safe branding w (Returns fun (rows : Snapshot) t ↦ Knows floor n t ∧ Fresh (t.floorAt n) rows t)
      (call .load) s := by
  refine branding_call (fun t haround hinv draw rows u hperform ↦ ?_)
    (fun _ _ _ _ hperform ↦ nomatch hperform)
  cases hperform
  have hknows := h.later haround.grows
  exact ⟨hinv, fun v _ ↦ Around.refl v t, hknows, t.epoch, hknows.epoch, le_rfl, rfl⟩

theorem safe_store {floor n : ℕ} {rows : Snapshot} (h : Knows floor n s)
    (hfresh : Fresh (s.floorAt n) rows s) :
    Safe branding w (Returns fun _ ↦ Fresh floor rows) (call (.store (versionText n) rows)) s := by
  refine branding_call (fun t haround hinv draw _ u hperform ↦ ?_)
    (fun _ _ _ _ hperform ↦ nomatch hperform)
  cases hperform
  have hknows := h.later haround.grows
  have hfresh' : Fresh (t.floorAt n) rows t :=
    haround.grows.floorAt n h.counted ▸ hfresh.later haround.grows
  have hversion : versionKey ≠ cacheKey := by decide
  refine ⟨⟨?_, hinv.floor, hinv.committed, fun e he ↦ ?_⟩, fun v _ ↦ Around.of_keys v _ _ t,
    hfresh'.of_le hknows.floor⟩
  · have hset : Redis.set t.redis t.now cacheKey (render (versionText n) rows) cacheSeconds
        versionKey = t.redis versionKey := Redis.set_of_ne hversion
    exact hset.trans hinv.version
  · have hentry : Redis.set t.redis t.now cacheKey (render (versionText n) rows) cacheSeconds
        cacheKey = some e := he
    rw [Redis.set_self] at hentry
    cases hentry
    exact ⟨n, rows, hknows.counted, rfl, hfresh'⟩

/-- What a page shows is at least as new as the saves that were counted when it began. -/
theorem safe_page {floor : ℕ} (hfloor : floor ≤ s.floorAt s.current) :
    Safe branding w (Returns fun answer t ↦ ∃ rows, answer = .rows rows ∧ Fresh floor rows t)
      (handler .page) s := by
  have hsnapshot : Safe branding w (Returns fun rows t ↦ Fresh floor rows t) snapshot s := by
    refine Safe.andThen (safe_mget hfloor) fun found t hfound ↦ ?_
    obtain ⟨hhit, n, hversion, hknows⟩ := hfound
    cases hrows : hit found.1 found.2 with
    | some rows =>
      dsimp only
      exact Safe.ret (hhit rows hrows)
    | none =>
      dsimp only
      refine Safe.andThen (safe_load hknows) fun rows u hloaded ↦ ?_
      rw [hversion]
      exact Safe.andThen (safe_store hloaded.1 hloaded.2) fun _ last hfresh ↦ Safe.ret hfresh
  refine Safe.andThen hsnapshot fun rows t hfresh ↦ Safe.ret ⟨rows, rfl, hfresh⟩

/-! ### The steps of a save -/

theorem safe_commit : Safe branding w (Returns fun _ t ↦ ∃ e, t.committedAt w = some e)
    (call .commit) s := by
  refine branding_call (fun t haround hinv draw _ u hperform ↦ ?_)
    (fun _ _ _ _ hperform ↦ nomatch hperform)
  cases hperform
  have hgrows : Grows t { t with
      epoch := t.epoch + 1
      saved := Function.update t.saved (t.epoch + 1) draw
      committedAt := Function.update t.committedAt w (some (t.epoch + 1)) } :=
    ⟨Nat.le_succ _, fun e he ↦ Function.update_of_ne (Nat.ne_of_lt (Nat.lt_succ_of_le he)) ..,
      le_rfl, fun _ _ ↦ rfl, le_rfl⟩
  refine ⟨⟨hinv.version, hinv.floor.trans (Nat.le_succ _), fun v e he ↦ ?_,
    hinv.cached_later hgrows rfl⟩, fun v hv ↦ ⟨hgrows, Function.update_of_ne hv ..⟩,
    t.epoch + 1, Function.update_self ..⟩
  by_cases hv : v = w
  · subst hv
    have heq := (Function.update_self ..).symm.trans he
    cases heq
    exact le_rfl
  · have hold := (Function.update_of_ne hv ..).symm.trans he
    exact (hinv.committed v e hold).trans (Nat.le_succ _)

theorem incr_version (h : Current s) :
    ∃ redis : Redis.Store,
      Redis.incr s.redis s.now versionKey = some (((s.current + 1 : ℕ) : ℤ), redis) ∧
      redis versionKey = some ⟨.integer (s.current + 1 : ℕ), none⟩ ∧
      redis cacheKey = s.redis cacheKey := by
  have hversion := h.version
  have hne : cacheKey ≠ versionKey := by decide
  split_ifs at hversion with hzero
  · have hfind : Redis.find s.redis s.now versionKey = none := by
      rw [Redis.find, hversion]
      rfl
    rw [Redis.incr, hfind, hzero]
    exact ⟨_, rfl, Function.update_self .., Function.update_of_ne hne ..⟩
  · rw [Redis.incr, Redis.find_of_stays s.now hversion]
    exact ⟨_, rfl, Function.update_self .., Function.update_of_ne hne ..⟩

theorem safe_incr {e : ℕ} (hcommitted : s.committedAt w = some e) :
    Safe branding w (Returns fun _ t ↦ t.committedAt w = some e ∧ e ≤ t.floorAt t.current)
      (call .incrVersion) s := by
  refine branding_call (fun t haround hinv draw n u hperform ↦ ?_)
    (fun draw fault t u hperform ↦ ?_)
  · obtain ⟨redis, hincr, hversion, hcache⟩ := incr_version hinv
    have hcommitted' := haround.committedAt.trans hcommitted
    rw [perform, hincr] at hperform
    cases hperform
    have hgrows : Grows t { t with
        redis := redis
        current := t.current + 1
        floorAt := Function.update t.floorAt (t.current + 1)
          (max (t.floorAt t.current) ((t.committedAt w).getD 0)) } := by
      refine ⟨le_rfl, fun _ _ ↦ rfl, Nat.le_succ _,
        fun m hm ↦ Function.update_of_ne (Nat.ne_of_lt (Nat.lt_succ_of_le hm)) .., ?_⟩
      dsimp only
      rw [Function.update_self]
      exact le_max_left ..
    refine ⟨⟨?_, ?_, hinv.committed, hinv.cached_later hgrows hcache⟩,
      fun v _ ↦ ⟨hgrows, rfl⟩, hcommitted', ?_⟩
    · rw [if_neg (Nat.succ_ne_zero _)]
      exact hversion
    · dsimp only
      rw [Function.update_self, hcommitted']
      exact max_le hinv.floor (hinv.committed w e hcommitted')
    · dsimp only
      rw [Function.update_self, hcommitted']
      exact le_max_right ..
  · cases hincr : Redis.incr t.redis t.now versionKey with
    | none =>
      rw [perform, hincr] at hperform
      cases hperform
      rfl
    | some result =>
      rw [perform, hincr] at hperform
      cases hperform

theorem safe_deleteCache {e : ℕ} (h : s.committedAt w = some e ∧ e ≤ s.floorAt s.current) :
    Safe branding w (Returns fun _ t ↦ t.committedAt w = some e ∧ e ≤ t.floorAt t.current)
      (call .deleteCache) s := by
  refine branding_call (fun t haround hinv draw _ u hperform ↦ ?_)
    (fun _ _ _ _ hperform ↦ nomatch hperform)
  cases hperform
  exact ⟨delete_current hinv, fun v _ ↦ Around.of_keys v _ _ t, haround.committedAt.trans h.1,
    h.2.trans haround.grows.floor⟩

theorem safe_save : Safe branding w (Returns (Ended w)) brandingPost s := by
  refine Safe.andThen safe_commit fun _ t hcommitted ↦ ?_
  obtain ⟨e, hcommitted⟩ := hcommitted
  have hinvalidate : Safe branding w (Returns fun _ u ↦ u.committedAt w = some e ∧
      e ≤ u.floorAt u.current) invalidate t :=
    Safe.andThen (safe_incr hcommitted) fun _ u hcounted ↦ safe_deleteCache hcounted
  exact Safe.andThen hinvalidate fun _ u hcounted ↦ Safe.ret ⟨e, hcounted⟩

theorem branding_handles : branding.Handles handler := by
  intro w request s _ _ _
  cases request with
  | page =>
    refine Safe.imp (fun result t hresult ↦ ?_) (safe_page le_rfl)
    cases result with
    | error fault => trivial
    | ok answer =>
      obtain ⟨rows, rfl, _⟩ := hresult
      trivial
  | brandingPost => exact safe_save
  | brandingReset => exact safe_save

/-! ### The theorem -/

theorem start_current (now : ℕ) (rows : Snapshot) : Current (start now rows).shared where
  version := rfl
  floor := le_rfl
  committed _ _ h := nomatch h
  cached _ h := nomatch h

theorem branding_start (now : ℕ) (rows : Snapshot) : branding.Holds (start now rows) :=
  Contract.holds_of_idle (start_current now rows) (fun _ ↦ rfl) fun _ ↦ rfl

theorem branding_permits {s : Views} (events : List Step) :
    Meets semantics handler branding.Permits s events :=
  meets_of_forall (fun _ _ _ ↦ Contract.permits_of_acting (fun _ ↦ trivial) (fun _ _ _ ↦ trivial)
    (fun _ _ ↦ trivial) fun _ _ _ ↦ trivial) s

/-- A page that has started shows what is at least as new as the saves counted by then. -/
theorem shown_is_fresh {middle last : Views} {after : List Step} {shown : Snapshot}
    (hmiddle : branding.Holds middle)
    (hafter : run semantics handler middle (.start v .page :: after) = some last)
    (hshown : last.answer v = some (.rows shown)) :
    Fresh (middle.shared.floorAt middle.shared.current) shown last.shared := by
  obtain ⟨started, hstart, hrest⟩ := run_cons_eq_some.mp hafter
  have hstarted : branding.Holds started :=
    Contract.holds_step branding_handles hmiddle (branding_permits [.start v .page]).1 hstart
  simp only [step] at hstart
  split at hstart
  · cases hstart
    obtain ⟨left, hleft, hsafe⟩ := Contract.run_kept branding_handles
      (fun result t u hresult haround _ ↦ by
        cases result with
        | error fault => trivial
        | ok answer =>
          obtain ⟨rows, hanswer, hfresh⟩ := hresult
          exact ⟨rows, hanswer, hfresh.later haround.grows⟩)
      hstarted (branding_permits after) hrest (System.resume_worker_self ..) (safe_page le_rfl)
    rw [System.answer_eq_some.mp hshown] at hleft
    cases hleft
    obtain ⟨rows, hanswer, hfresh⟩ := hsafe
    cases hanswer
    exact hfresh
  · cases hstart

/-- A run leaves the history as it was. -/
theorem history_stays {middle last : Views} {events : List Step} (hmiddle : branding.Holds middle)
    (hrun : run semantics handler middle events = some last) : Grows middle.shared last.shared := by
  obtain ⟨v, hv⟩ := exists_bystander events
  exact (Contract.run_rely branding_handles hmiddle (branding_permits events) hrun hv).grows

/-- However pages and saves interleave, and whenever the snapshot goes from the cache: a page that
starts after a save has returned shows the rows of that save or of a later one. -/
theorem no_stale_branding_after_a_save {now : ℕ} {rows shown : Snapshot} {w v : ℕ}
    {before after : List Step} {middle last : Views}
    (hbefore : run semantics handler (start now rows) before = some middle)
    (hsaved : middle.answer w = some .saved)
    (hafter : run semantics handler middle (.start v .page :: after) = some last)
    (hshown : last.answer v = some (.rows shown)) :
    ∃ k e, middle.shared.committedAt w = some k ∧ last.shared.saved k = middle.shared.saved k ∧
      k ≤ e ∧ e ≤ last.shared.epoch ∧ last.shared.saved e = shown := by
  have hmiddle : branding.Holds middle :=
    Contract.run_safe branding_handles (branding_start now rows) (branding_permits before) hbefore
  obtain ⟨k, hcommitted, hk⟩ := hmiddle.ends_of_answer hsaved
  have hgrows := history_stays hmiddle hafter
  obtain ⟨e, hfloor, he, hrows⟩ := shown_is_fresh hmiddle hafter hshown
  exact ⟨k, e, hcommitted, hgrows.saved k (hmiddle.invariant.committed w k hcommitted),
    hk.trans hfloor, he, hrows⟩

/-- A page has loaded the old rows, and stores them after the save. -/
def slowPage : List Step :=
  [.start 1 .page, .run 1 [], .run 1 [], .start 2 .brandingPost, .run 2 [("", .str "new")],
    .run 2 [], .run 2 [], .run 1 []]

/-- A page after it. -/
def nextPage : List Step := [.start 3 .page, .run 3 [], .run 3 [], .run 3 []]

/-- A page shows one name. -/
def Shows (s : Views) (v : ℕ) (name : String) : Prop := s.answer v = some (.rows [("", .str name)])

def shows (s : Views) (v : ℕ) (name : String) : Bool :=
  match s.answer v with
  | some (.rows [("", .str shown)]) => shown = name
  | _ => false

theorem shows_iff {s : Views} {name : String} (h : shows s v name = true) : Shows s v name := by
  unfold shows at h
  split at h
  · rename_i hanswer
    rw [Shows, hanswer, of_decide_eq_true h]
  · cases h

def returned (s : Views) (w : ℕ) : Bool :=
  match s.answer w with
  | some .saved => true
  | _ => false

theorem answer_of_returned {s : Views} (h : returned s w = true) : s.answer w = some .saved := by
  unfold returned at h
  split at h
  · assumption
  · cases h

theorem no_stale_branding_after_a_slow_page : ∃ middle last,
    run semantics handler (start 0 [("", .str "old")]) slowPage = some middle ∧
    Shows middle 1 "old" ∧ run semantics handler middle nextPage = some last ∧
    Shows last 3 "new" ∧
    ∃ k e, middle.shared.committedAt 2 = some k ∧ last.shared.saved k = middle.shared.saved k ∧
      k ≤ e ∧ e ≤ last.shared.epoch ∧ last.shared.saved e = [("", .str "new")] := by
  have hruns : ((run semantics handler (start 0 [("", .str "old")]) slowPage).any fun middle ↦
      shows middle 1 "old" && returned middle 2 &&
        (run semantics handler middle nextPage).any fun last ↦ shows last 3 "new") = true := by
    decide +kernel
  obtain ⟨middle, hbefore, hmiddle⟩ := (Option.any_eq_true ..).mp hruns
  rw [Bool.and_eq_true, Bool.and_eq_true] at hmiddle
  obtain ⟨⟨hold, hsaved⟩, hnext⟩ := hmiddle
  obtain ⟨last, hafter, hnew⟩ := (Option.any_eq_true ..).mp hnext
  exact ⟨middle, last, hbefore, shows_iff hold, hafter, shows_iff hnew,
    no_stale_branding_after_a_save hbefore (answer_of_returned hsaved) hafter (shows_iff hnew)⟩

end OpenWhistle.Branding
