import OpenWhistle.Updates.Feed

/-!
# The notice of an advisory

The advisories of a feed and its ETag are kept for seven days from the 200 that brought them. A 304
renews the release only. So the notice lives for seven days from the last 200 and no longer, however
often the feed is asked for and found unchanged; it comes back with the first call that has no ETag
left to send. A feed with an advisory whose severity is a list or an object raises on its way, and
leaves the advisories of an earlier feed.

Between two calls the key of the advisories holds what the last feed left there, until its time is
over: that is the invariant, and every call keeps it or begins it anew.
-/

set_option autoImplicit false
set_option relaxedAutoImplicit false

namespace OpenWhistle.Updates

/-! ### The server from call to call -/

structure Server where
  now : ℕ
  redis : Redis.Store
  /-- The time and the advisories of the last 200 with a feed. -/
  feed : Option (ℕ × List Json)

/-- Milliseconds pass, or the update check is called and its exchange ends so. -/
inductive Event
  | pass (milliseconds : ℕ)
  | refresh (exchange : Option Response)

variable (site : Site)

/-- The advisories of an answer: a 200 with a feed of schema 1, whose advisories are a list. -/
def advisoriesOf (response : Response) : Option (List Json) :=
  match (feedOf response).bind fun data ↦ Json.get data "advisories" with
  | some (.list advisories) => some advisories
  | _ => none

def step (s : Server) : Event → Server
  | .pass milliseconds => { s with now := s.now + milliseconds }
  | .refresh exchange =>
    { s with
      redis := refreshUpdateCheck site s.now s.redis exchange
      feed := if refreshes site s.now s.redis then
          ((exchange.bind advisoriesOf).map fun advisories ↦ (s.now, advisories)).or s.feed
        else s.feed }

def run (s : Server) (events : List Event) : Server := events.foldl (step site) s

/-- The validated advisories of a feed. -/
def validated (advisories : List Json) : List Json :=
  (advisories.take maxAdvisories).filterMap fun raw ↦ match advisory site raw with
    | .ok kept => kept
    | .error _ => none

/-- No advisory of a feed has a severity without a hash. -/
def Event.Readable : Event → Prop
  | .pass _ => True
  | .refresh exchange => ∀ advisories ∈ exchange.bind advisoriesOf,
    ∀ raw ∈ advisories.take maxAdvisories, ∃ kept, advisory site raw = .ok kept

instance (raw : Json) : Decidable (∃ kept, advisory site raw = .ok kept) :=
  match _h : advisory site raw with
  | .ok kept => isTrue ⟨kept, rfl⟩
  | .error _ => isFalse fun ⟨_, hkept⟩ ↦ nomatch hkept

instance (event : Event) : Decidable (event.Readable site) :=
  match event with
  | .pass _ => isTrue trivial
  | .refresh exchange => inferInstanceAs (Decidable (∀ advisories ∈ exchange.bind advisoriesOf,
      ∀ raw ∈ advisories.take maxAdvisories, ∃ kept, advisory site raw = .ok kept))

/-! ### What a call leaves -/

variable {site}

theorem mapM_eq_ok {α β : Type} {f : α → Except Fault β} {g : α → β} {items : List α}
    (h : ∀ item ∈ items, f item = .ok (g item)) : items.mapM f = .ok (items.map g) := by
  induction items with
  | nil => rfl
  | cons item items ih =>
    rw [List.mapM_cons, h item List.mem_cons_self, ih fun other hother ↦
      h other (List.mem_cons_of_mem _ hother)]
    rfl

theorem keep_eq_ok {advisories : List Json}
    (h : ∀ raw ∈ advisories.take maxAdvisories, ∃ kept, advisory site raw = .ok kept) :
    keep site advisories = .ok (validated site advisories) := by
  have hmap : (advisories.take maxAdvisories).mapM (advisory site) =
      .ok ((advisories.take maxAdvisories).map fun raw ↦ match advisory site raw with
        | .ok kept => kept
        | .error _ => none) := by
    refine mapM_eq_ok fun raw hraw ↦ ?_
    obtain ⟨kept, hkept⟩ := h raw hraw
    rw [hkept]
  rw [keep, hmap]
  change Except.ok _ = _
  rw [validated, List.filterMap_map]
  rfl

/-- The cached release names a text. -/
def CacheSound (redis : Redis.Store) : Prop :=
  ∀ now cached, readCache now redis = some cached → ∀ value, Json.get cached "tag_name" = some value →
    ∃ tag, value = .str tag

theorem CacheSound.of_eq {redis stored : Redis.Store} (h : CacheSound redis)
    (heq : stored cacheKey = redis cacheKey) : CacheSound stored := by
  intro now cached hcached
  refine h now cached ?_
  unfold readCache readJson at hcached ⊢
  rw [← Redis.get_congr heq]
  exact hcached

/-- A key that was set to a value reads as that value. -/
theorem eq_of_readJson_set {redis : Redis.Store} {now time seconds : ℕ} {key : String}
    {value found : Json}
    (h : readJson time (Redis.set redis now key (Json.dumps value) seconds) key = some found) :
    found = value := by
  unfold readJson at h
  cases hget : Redis.get (Redis.set redis now key (Json.dumps value) seconds) time key with
  | none =>
    rw [hget] at h
    cases h
  | some raw =>
    have hraw : raw = Json.dumps value := Redis.eq_of_get_set hget
    rw [hget, hraw] at h
    dsimp only at h
    rw [if_neg (Json.dumps_ne_empty value), Json.loads_dumps] at h
    exact (Option.some.inj h).symm

theorem eq_dict_of_readCache {redis : Redis.Store} {now : ℕ} {cached : List (String × Json)}
    (h : readCache now redis = some cached) : readJson now redis cacheKey = some (.dict cached) := by
  unfold readCache at h
  split at h
  · rename_i items hitems
    rw [hitems, Option.some.inj h]
  · cases h

theorem cacheSound_set {redis : Redis.Store} {now : ℕ} {payload : List (String × Json)}
    (h : ∀ value, Json.get payload "tag_name" = some value → ∃ tag, value = .str tag) :
    CacheSound (Redis.set redis now cacheKey (Json.dumps (.dict payload)) cacheTtl) := by
  intro time cached hcached
  have heq := eq_of_readJson_set (eq_dict_of_readCache hcached)
  rw [Json.dict.inj heq]
  exact h

theorem tag_of_latest {value : Option Json} {latest : List (String × Json)}
    (h : latestOf site value = some latest) (checked : Json) :
    ∃ tag, Json.get (latest ++ [("checked_at", checked)]) "tag_name" = some (.str tag) := by
  unfold latestOf at h
  split at h
  · split at h
    · rename_i version hversion
      split_ifs at h
      cases h
      exact ⟨version, by simp [Json.get, List.lookup_cons]⟩
    · cases h
  · cases h

/-- The release and the ETag have keys of their own. -/
theorem cacheRelease_kept (site : Site) (now : ℕ) (redis : Redis.Store) (data : List (String × Json))
    (etag : Option String) :
    (cacheRelease site now redis data etag).2 advisoriesKey = redis advisoriesKey ∧
      (CacheSound redis → CacheSound (cacheRelease site now redis data etag).2) := by
  unfold cacheRelease
  cases hlatest : latestOf site (Json.get data "latest") with
  | none => exact ⟨rfl, id⟩
  | some latest =>
    obtain ⟨tag, htag⟩ := tag_of_latest hlatest (.str (site.isoformat now))
    have hsound : CacheSound (Redis.set redis now cacheKey (Json.dumps (.dict
        (latest ++ [("checked_at", .str (site.isoformat now))]))) cacheTtl) := by
      refine cacheSound_set fun value hvalue ↦ ⟨tag, ?_⟩
      rw [htag] at hvalue
      exact (Option.some.inj hvalue).symm
    have hcache : advisoriesKey ≠ cacheKey := by decide
    have hetag : advisoriesKey ≠ etagKey := by decide
    have hboth : cacheKey ≠ etagKey := by decide
    cases etag with
    | none =>
      dsimp only
      exact ⟨Redis.set_of_ne hcache, fun _ ↦ hsound⟩
    | some etag =>
      dsimp only
      split_ifs
      · exact ⟨Redis.set_of_ne hcache, fun _ ↦ hsound⟩
      · exact ⟨(Redis.set_of_ne hetag).trans (Redis.set_of_ne hcache),
          fun _ ↦ hsound.of_eq (Redis.set_of_ne hboth)⟩

/-- What a fetch leaves: the advisories of its feed for seven days, or those there were. -/
structure Fetched (site : Site) (now : ℕ) (found : Option (List Json)) (redis stored : Redis.Store) :
    Prop where
  advisories : stored advisoriesKey = match found with
    | some advisories => some ⟨.text (Json.dumps (.list (validated site advisories))),
        some (now + 1000 * cacheTtl)⟩
    | none => redis advisoriesKey
  cache : CacheSound redis → CacheSound stored

theorem advisoriesOf_list {response : Response} {data : List (String × Json)}
    {advisories : List Json} (hfeed : feedOf response = some data)
    (hlist : Json.get data "advisories" = some (.list advisories)) :
    advisoriesOf response = some advisories := by
  rw [advisoriesOf, hfeed, Option.bind_some, hlist]

theorem advisoriesOf_other {response : Response} {data : List (String × Json)}
    (hfeed : feedOf response = some data)
    (hother : ∀ advisories, Json.get data "advisories" ≠ some (.list advisories)) :
    advisoriesOf response = none := by
  rw [advisoriesOf, hfeed, Option.bind_some]
  split
  · rename_i advisories hlist
    exact absurd hlist (hother advisories)
  · rfl

/-- A feed with a list of advisories stores them first. -/
theorem cacheFeed_list (now : ℕ) (redis : Redis.Store) {data : List (String × Json)}
    (etag : Option String) {advisories kept : List Json}
    (hlist : Json.get data "advisories" = some (.list advisories))
    (hkeep : keep site advisories = .ok kept) :
    cacheFeed site now redis data etag = .ok (cacheRelease site now
      (Redis.set redis now advisoriesKey (Json.dumps (.list kept)) cacheTtl) data etag) := by
  rw [cacheFeed, hlist]
  dsimp only
  rw [hkeep]
  rfl

theorem cacheFeed_other (now : ℕ) (redis : Redis.Store) {data : List (String × Json)}
    (etag : Option String)
    (hother : ∀ advisories, Json.get data "advisories" ≠ some (.list advisories)) :
    cacheFeed site now redis data etag = .ok (cacheRelease site now redis data etag) := by
  unfold cacheFeed
  split
  · rename_i advisories hlist
    exact absurd hlist (hother advisories)
  · rfl

theorem cacheFeed_ok (now : ℕ) (redis : Redis.Store) {response : Response}
    {data : List (String × Json)} (hfeed : feedOf response = some data)
    (h : ∀ advisories ∈ advisoriesOf response,
      ∀ raw ∈ advisories.take maxAdvisories, ∃ kept, advisory site raw = .ok kept) :
    ∃ result stored, cacheFeed site now redis data response.etag = .ok (result, stored) ∧
      Fetched site now (advisoriesOf response) redis stored := by
  by_cases hget : ∃ advisories, Json.get data "advisories" = some (.list advisories)
  · obtain ⟨advisories, hlist⟩ := hget
    have hfound := advisoriesOf_list hfeed hlist
    have hrelease := cacheRelease_kept site now (Redis.set redis now advisoriesKey
      (Json.dumps (.list (validated site advisories))) cacheTtl) data response.etag
    refine ⟨_, _, cacheFeed_list now redis response.etag hlist (keep_eq_ok (h advisories hfound)),
      ?_, fun hcache ↦ hrelease.2 (hcache.of_eq (Redis.set_of_ne (by decide)))⟩
    rw [hfound]
    exact hrelease.1.trans (Redis.set_self ..)
  · have hother : ∀ advisories, Json.get data "advisories" ≠ some (.list advisories) :=
      fun advisories hlist ↦ hget ⟨advisories, hlist⟩
    have hrelease := cacheRelease_kept site now redis data response.etag
    refine ⟨_, _, cacheFeed_other now redis response.etag hother, ?_, hrelease.2⟩
    rw [advisoriesOf_other hfeed hother]
    exact hrelease.1

/-- A body that raises is no feed. -/
theorem feedOf_of_raises {response : Response} (h : response.raises = true) :
    feedOf response = none := by
  unfold Response.raises at h
  unfold feedOf
  split
  next data hbody => simp [hbody] at h
  next => rfl

theorem advisoriesOf_of_raises {response : Response} (h : response.raises = true) :
    advisoriesOf response = none := by
  rw [advisoriesOf, feedOf_of_raises h]
  rfl

/-- The body of a 304 is not read. -/
theorem status_of_raises {response : Response} (h : response.raises = true) :
    response.status ≠ 304 := by
  intro hstatus
  simp [Response.raises, hstatus] at h

theorem fetchFeed_of_raises (site : Site) (now : ℕ) (redis : Redis.Store) {response : Response}
    (h : response.raises = true) :
    fetchFeed site now redis (some response) = .error .recursionError := by
  unfold fetchFeed
  dsimp only
  rw [if_neg (status_of_raises h), if_pos h]

theorem fetchFeed_ok (now : ℕ) (redis : Redis.Store) {exchange : Option Response}
    (hread : ∀ response ∈ exchange, response.raises = false)
    (h : ∀ advisories ∈ exchange.bind advisoriesOf,
      ∀ raw ∈ advisories.take maxAdvisories, ∃ kept, advisory site raw = .ok kept) :
    ∃ result stored, fetchFeed site now redis exchange = .ok (result, stored) ∧
      Fetched site now (exchange.bind advisoriesOf) redis stored := by
  have hunchanged : Fetched site now none redis redis := ⟨rfl, id⟩
  cases exchange with
  | none => exact ⟨readCache now redis, redis, rfl, hunchanged⟩
  | some response =>
    have hquiet : ¬response.raises = true := by simp [hread response rfl]
    rw [Option.bind_some] at h ⊢
    cases hfeed : feedOf response with
    | some data =>
      have hstatus : response.status ≠ 304 := by
        intro hstatus
        unfold feedOf at hfeed
        split at hfeed
        · rw [if_neg fun hboth ↦ by rw [hstatus] at hboth; omega] at hfeed
          cases hfeed
        · cases hfeed
      obtain ⟨result, stored, hcached, hfetched⟩ := cacheFeed_ok now redis hfeed h
      refine ⟨result, stored, ?_, hfetched⟩
      unfold fetchFeed
      dsimp only
      rw [if_neg hstatus, if_neg hquiet, hfeed]
      exact hcached
    | none =>
      have hnone : advisoriesOf response = none := by rw [advisoriesOf, hfeed]; rfl
      rw [hnone]
      unfold fetchFeed
      dsimp only
      rw [hfeed, if_neg hquiet]
      split_ifs
      · cases hcached : readCache now redis with
        | none => exact ⟨none, redis, rfl, hunchanged⟩
        | some cached =>
          refine ⟨_, _, rfl, Redis.set_of_ne (by decide), fun hcache ↦ cacheSound_set fun value
            hvalue ↦ ?_⟩
          rw [Json.get_put_of_ne (by decide)] at hvalue
          exact hcache now cached hcached value hvalue
      · exact ⟨readCache now redis, redis, rfl, hunchanged⟩

/-! ### Every run -/

/-- The advisories of the last feed, where their time is not over. -/
structure Sound (site : Site) (s : Server) : Prop where
  notice : ∀ time advisories, s.feed = some (time, advisories) → site.updateCheckEnabled = true ∧
    s.redis advisoriesKey = some ⟨.text (Json.dumps (.list (validated site advisories))),
      some (time + 1000 * cacheTtl)⟩
  cache : CacheSound s.redis

/-- A body that raises leaves what there was. -/
theorem sound_of_raises {s : Server} {response : Response} (h : Sound site s)
    (hraises : response.raises = true) : Sound site (step site s (.refresh (some response))) := by
  have hfeed : (step site s (.refresh (some response))).feed = s.feed := by
    simp [step, advisoriesOf_of_raises hraises]
  have hother : ∀ key, key ≠ lockKey →
      (step site s (.refresh (some response))).redis key = s.redis key := by
    intro key hkey
    simp only [step, refreshUpdateCheck]
    split
    · rw [fetchFeed_of_raises site _ _ hraises]
      exact (Function.update_of_ne hkey ..).trans (Redis.set_of_ne hkey)
    · rfl
  refine ⟨fun time advisories hlast ↦ ?_, h.cache.of_eq (hother cacheKey (by decide))⟩
  rw [hfeed] at hlast
  rw [hother advisoriesKey (by decide)]
  exact h.notice time advisories hlast

theorem sound_step {s : Server} {event : Event} (h : Sound site s) (hreadable : event.Readable site) :
    Sound site (step site s event) := by
  cases event with
  | pass milliseconds => exact ⟨h.notice, h.cache⟩
  | refresh exchange =>
    cases hrefreshes : refreshes site s.now s.redis with
    | false =>
      have heq : step site s (.refresh exchange) = s := by
        simp [step, refreshUpdateCheck, hrefreshes]
      rw [heq]
      exact h
    | true =>
      have henabled : site.updateCheckEnabled = true := ((Bool.and_eq_true _ _).mp hrefreshes).1
      by_cases hraises : ∃ response, exchange = some response ∧ response.raises = true
      · obtain ⟨response, rfl, hraises⟩ := hraises
        exact sound_of_raises h hraises
      have hread : ∀ response ∈ exchange, response.raises = false := fun response hresponse ↦
        Bool.eq_false_iff.mpr fun hyes ↦ hraises ⟨response, hresponse, hyes⟩
      obtain ⟨result, stored, hfetch, hfetched⟩ :=
        fetchFeed_ok s.now (Redis.set s.redis s.now lockKey "1" 300) hread hreadable
      have hredis : (step site s (.refresh exchange)).redis = Redis.delete stored lockKey := by
        simp [step, refreshUpdateCheck, hrefreshes, hfetch]
      have hfeed : (step site s (.refresh exchange)).feed =
          ((exchange.bind advisoriesOf).map fun advisories ↦ (s.now, advisories)).or s.feed := by
        simp [step, hrefreshes]
      have hadvisories : (step site s (.refresh exchange)).redis advisoriesKey =
          stored advisoriesKey := by
        rw [hredis]
        exact Function.update_of_ne (by decide) ..
      refine ⟨fun time advisories hlast ↦ ⟨henabled, ?_⟩, ?_⟩
      · rw [hfeed] at hlast
        rw [hadvisories, hfetched.advisories]
        cases hfound : exchange.bind advisoriesOf with
        | none =>
          rw [hfound] at hlast
          exact (Redis.set_of_ne (by decide)).trans (h.notice time advisories hlast).2
        | some found =>
          rw [hfound] at hlast
          cases hlast
          rfl
      · rw [hredis]
        refine (hfetched.cache (h.cache.of_eq (Redis.set_of_ne (by decide)))).of_eq ?_
        exact Function.update_of_ne (by decide) ..

theorem sound_run {events : List Event} : ∀ {s : Server}, Sound site s →
    (∀ event ∈ events, event.Readable site) → Sound site (run site s events) := by
  induction events with
  | nil => intro s hs _; exact hs
  | cons event events ih =>
    intro s hs hreadable
    exact ih (sound_step hs (hreadable event List.mem_cons_self))
      fun later hlater ↦ hreadable later (List.mem_cons_of_mem _ hlater)

/-! ### What is listed -/

theorem isDict_of_advisory {raw kept : Json} (h : advisory site raw = .ok (some kept)) :
    ∃ items, kept = .dict items := by
  unfold advisory at h
  split at h
  · split at h
    · dsimp only at h
      split_ifs at h
      · cases hseverity : severityOf (Json.get _ "severity") with
        | error fault =>
          rw [hseverity] at h
          cases h
        | ok severity =>
          rw [hseverity] at h
          cases h
          exact ⟨_, rfl⟩
      · cases h
    · cases h
  · cases h

theorem isDict_of_mem_validated {advisories : List Json} {kept : Json}
    (h : kept ∈ validated site advisories) : ∃ items, kept = .dict items := by
  obtain ⟨raw, -, hkept⟩ := List.mem_filterMap.mp h
  split at hkept
  · rename_i found hfound
    subst hkept
    exact isDict_of_advisory hfound
  · cases hkept

theorem affecting_ok (site : Site) (version : String) {advisories : List Json}
    (h : ∀ kept ∈ advisories, ∃ items, kept = .dict items) :
    ∃ listed, affecting site version advisories = .ok listed := by
  induction advisories with
  | nil => exact ⟨[], rfl⟩
  | cons kept advisories ih =>
    obtain ⟨items, rfl⟩ := h kept List.mem_cons_self
    obtain ⟨listed, hlisted⟩ := ih fun other hother ↦ h other (List.mem_cons_of_mem _ hother)
    rw [affecting, hlisted]
    exact ⟨_, rfl⟩

/-- The cached advisories are there as long as their time is not over. -/
theorem readAdvisories_of_sound {s : Server} (h : Sound site s) {time : ℕ} {advisories : List Json}
    (hlast : s.feed = some (time, advisories)) : readAdvisories s.now s.redis =
      if s.now ≤ time + 1000 * cacheTtl then validated site advisories else [] := by
  have hentry := (h.notice time advisories hlast).2
  unfold readAdvisories readJson Redis.get
  split_ifs with hnow
  · rw [Redis.find_eq_some hentry rfl hnow]
    dsimp only
    rw [if_neg (Json.dumps_ne_empty _), Json.loads_dumps]
  · have hgone : Redis.find s.redis s.now advisoriesKey = none := by
      refine Redis.find_eq_none_of_lt (fun e he ↦ ?_) (Nat.lt_of_not_le hnow)
      rw [hentry] at he
      cases he
      rfl
    rw [hgone]

theorem getUpdateStatus_ok {now : ℕ} {redis : Redis.Store} {version : String} {listed : List Json}
    (henabled : site.updateCheckEnabled = true) (hcache : CacheSound redis)
    (hlisted : affecting site version (readAdvisories now redis) = .ok listed) :
    ∃ status, getUpdateStatus site now redis version = .ok status ∧ status.advisories = listed := by
  unfold getUpdateStatus
  rw [if_pos henabled, hlisted]
  dsimp only [bind, Except.bind]
  cases hcached : readCache now redis with
  | none => exact ⟨_, rfl, rfl⟩
  | some cached =>
    dsimp only
    cases htag : (Json.get cached "tag_name").filter Json.truthy with
    | none => exact ⟨_, rfl, rfl⟩
    | some value =>
      obtain ⟨tag, rfl⟩ := hcache now cached hcached value (Option.filter_eq_some_iff.mp htag).1
      exact ⟨_, rfl, rfl⟩

/-- In every run whose feeds can be read, at every time after the first 200 the status lists exactly
the validated advisories of the last one that affect the running version, if and only if that 200
came seven days ago at most, or none of them does. -/
theorem advisories_are_listed_for_seven_days {start : Server} {events : List Event} {time : ℕ}
    {advisories : List Json} (version : String) (hfirst : start.feed = none)
    (hcache : CacheSound start.redis) (hreadable : ∀ event ∈ events, event.Readable site)
    (hlast : (run site start events).feed = some (time, advisories)) :
    ∃ status affected,
      getUpdateStatus site (run site start events).now (run site start events).redis version =
        .ok status ∧
      affecting site version (validated site advisories) = .ok affected ∧
      (status.advisories = affected ↔
        (run site start events).now ≤ time + 1000 * cacheTtl ∨ affected = []) := by
  have hsound : Sound site (run site start events) := by
    refine sound_run ⟨fun _ _ hfeed ↦ ?_, hcache⟩ hreadable
    rw [hfirst] at hfeed
    cases hfeed
  obtain ⟨affected, haffected⟩ :=
    affecting_ok site version fun _ (hkept : _ ∈ validated site advisories) ↦
      isDict_of_mem_validated hkept
  have hread := readAdvisories_of_sound hsound hlast
  have henabled := (hsound.notice time advisories hlast).1
  by_cases hnow : (run site start events).now ≤ time + 1000 * cacheTtl
  · rw [if_pos hnow] at hread
    obtain ⟨status, hstatus, hlisted⟩ :=
      getUpdateStatus_ok henabled hsound.cache (hread ▸ haffected)
    exact ⟨status, affected, hstatus, haffected, iff_of_true hlisted (.inl hnow)⟩
  · rw [if_neg hnow] at hread
    have hnone : affecting site version (readAdvisories (run site start events).now
        (run site start events).redis) = .ok [] := by
      rw [hread, affecting]
    obtain ⟨status, hstatus, hlisted⟩ := getUpdateStatus_ok henabled hsound.cache hnone
    refine ⟨status, affected, hstatus, haffected, ?_⟩
    rw [hlisted, or_iff_right hnow]
    exact eq_comm

/-! ### Seven days of answers that nothing has changed -/

/-- The answers the update check is meant for: a 200 with a feed of schema 1, or a 304 for the ETag
that was sent. -/
def Served (site : Site) : Server → List Event → Bool
  | _, [] => true
  | s, .pass milliseconds :: events => Served site (step site s (.pass milliseconds)) events
  | s, .refresh exchange :: events =>
    (match exchange with
      | none => false
      | some response => (advisoriesOf response).isSome ||
        (decide (response.status = 304) && (ifNoneMatch s.now s.redis).isSome)) &&
      Served site (step site s (.refresh exchange)) events

def plain : Site where
  updateCheckEnabled := true
  decimal c := if c.isDigit then some (c.toNat - 48) else none
  isoformat _ := ""

def published : Json :=
  .dict [("schema", .int 1), ("latest", .dict [("version", .str "2")]),
    ("advisories", .list [.dict [("id", .str "A-1"), ("summary", .str "A leak"),
      ("affected", .str "< 2"), ("fixed", .str "2")]])]

def oneDay : ℕ := 86400000

def fetched : Event := .refresh (some ⟨200, .ok published, some "first"⟩)

def unchanged : Event := .refresh (some ⟨304, .error .valueError, none⟩)

/-- The first answer takes 350 milliseconds from four o'clock on; the later calls are in time. -/
def installed : Server := ⟨350, fun _ ↦ none, none⟩

def daily (days : ℕ) : List Event :=
  fetched :: .pass (oneDay - 350) :: unchanged ::
    (List.replicate days [.pass oneDay, unchanged]).flatten

theorem advisories_are_listed_for_two_days : ∃ time advisories status affected,
    (run plain installed (daily 1)).feed = some (time, advisories) ∧
    getUpdateStatus plain (run plain installed (daily 1)).now
      (run plain installed (daily 1)).redis "1" = .ok status ∧
    affecting plain "1" (validated plain advisories) = .ok affected ∧
    (status.advisories = affected ↔
      (run plain installed (daily 1)).now ≤ time + 1000 * cacheTtl ∨ affected = []) := by
  obtain ⟨⟨time, advisories⟩, hlast⟩ := Option.isSome_iff_exists.mp
    (show (run plain installed (daily 1)).feed.isSome = true by decide +kernel)
  have hcache : CacheSound installed.redis := by
    intro now cached hcached
    cases hcached
  obtain ⟨status, affected, hlisted⟩ := advisories_are_listed_for_seven_days "1" rfl hcache
    (by decide +kernel) hlast
  exact ⟨time, advisories, status, affected, hlast, hlisted⟩

/-- Behind a call that has stored the release: it is there for seven days, the ETag until its time.
-/
structure Renewed (site : Site) (deadline : ℕ) (s : Server) : Prop where
  enabled : site.updateCheckEnabled = true
  lock : s.redis lockKey = none
  release : ∃ cached, s.redis cacheKey =
    some ⟨.text (Json.dumps (.dict cached)), some (s.now + 1000 * cacheTtl)⟩
  etag : ∃ tag, tag ≠ "" ∧ s.redis etagKey = some ⟨.text tag, some deadline⟩

/-- A 304 on a later day renews the release, and leaves the rest. -/
theorem Renewed.later {s : Server} {deadline milliseconds : ℕ} (h : Renewed site deadline s)
    (hcached : milliseconds < 1000 * cacheTtl) (htag : s.now + milliseconds < deadline) :
    (ifNoneMatch (s.now + milliseconds) s.redis).isSome = true ∧
      Renewed site deadline (run site s [.pass milliseconds, unchanged]) ∧
      (run site s [.pass milliseconds, unchanged]).now = s.now + milliseconds ∧
      (run site s [.pass milliseconds, unchanged]).feed = s.feed := by
  obtain ⟨cached, hrelease⟩ := h.release
  obtain ⟨tag, hne, hetag⟩ := h.etag
  have hrefreshes : refreshes site (s.now + milliseconds) s.redis = true := by
    rw [refreshes, h.enabled, Redis.find, h.lock]
    rfl
  have hread : readCache (s.now + milliseconds)
      (Redis.set s.redis (s.now + milliseconds) lockKey "1" 300) = some cached := by
    have hkept : Redis.set s.redis (s.now + milliseconds) lockKey "1" 300 cacheKey =
        some ⟨.text (Json.dumps (.dict cached)), some (s.now + 1000 * cacheTtl)⟩ :=
      (Redis.set_of_ne (by decide)).trans hrelease
    unfold readCache readJson Redis.get
    rw [Redis.find_eq_some hkept rfl (Nat.add_le_add_left hcached.le s.now)]
    dsimp only
    rw [if_neg (Json.dumps_ne_empty _), Json.loads_dumps]
  have hredis : (run site s [.pass milliseconds, unchanged]).redis =
      Redis.delete (Redis.set (Redis.set s.redis (s.now + milliseconds) lockKey "1" 300)
        (s.now + milliseconds) cacheKey (Json.dumps (.dict (Json.put cached "checked_at"
          (.str (site.isoformat (s.now + milliseconds)))))) cacheTtl) lockKey := by
    change refreshUpdateCheck site (s.now + milliseconds) s.redis (some ⟨304, .error .valueError, none⟩) = _
    rw [refreshUpdateCheck, if_pos hrefreshes]
    simp only [fetchFeed, if_true, hread]
  have hfeed : (run site s [.pass milliseconds, unchanged]).feed = s.feed := by
    change (if refreshes site (s.now + milliseconds) s.redis then none.or s.feed else s.feed) = s.feed
    rw [if_pos hrefreshes, Option.none_or]
  refine ⟨?_, ⟨h.enabled, ?_, ⟨Json.put cached "checked_at"
    (.str (site.isoformat (s.now + milliseconds))), ?_⟩, tag, hne, ?_⟩, rfl, hfeed⟩
  · rw [ifNoneMatch, Redis.get, Redis.find_eq_some hetag rfl htag.le]
    dsimp only
    rw [if_neg hne]
    rfl
  · rw [hredis, Redis.delete_self]
  · rw [hredis, Redis.delete_of_ne (by decide)]
    exact Redis.set_self ..
  · rw [hredis, Redis.delete_of_ne (by decide), Redis.set_of_ne (by decide),
      Redis.set_of_ne (by decide)]
    exact hetag

/-- On days of a 304 each, the release stays and the feed is that of the last 200. -/
theorem Renewed.days {s : Server} {deadline : ℕ} (days : ℕ) (h : Renewed site deadline s)
    (htag : s.now + days * oneDay < deadline) :
    Served site s (List.replicate days [.pass oneDay, unchanged]).flatten = true ∧
      (run site s (List.replicate days [.pass oneDay, unchanged]).flatten).now =
        s.now + days * oneDay ∧
      (run site s (List.replicate days [.pass oneDay, unchanged]).flatten).feed = s.feed := by
  induction days generalizing s with
  | zero => exact ⟨rfl, (congrArg (s.now + ·) (Nat.zero_mul oneDay)).symm, rfl⟩
  | succ days ih =>
    rw [Nat.succ_mul] at htag
    obtain ⟨hsent, hnext, hnow, hfeed⟩ := h.later (show oneDay < 1000 * cacheTtl by decide)
      (show s.now + oneDay < deadline by omega)
    obtain ⟨hserved, htime, hlast⟩ := ih hnext (by rw [hnow]; omega)
    have hrun : run site s (List.replicate (days + 1) [.pass oneDay, unchanged]).flatten =
        run site (run site s [.pass oneDay, unchanged])
          (List.replicate days [.pass oneDay, unchanged]).flatten := rfl
    rw [hrun]
    refine ⟨?_, ?_, hlast.trans hfeed⟩
    · change ((decide (304 = 304) && (ifNoneMatch (s.now + oneDay) s.redis).isSome) && Served site
        (run site s [.pass oneDay, unchanged]) (List.replicate days
          [.pass oneDay, unchanged]).flatten) = true
      rw [hsent, hserved]
      rfl
    · rw [htime, hnow, Nat.succ_mul]
      omega

/-- The calls of the daily job behind its first one, where that one was at 350 milliseconds. -/
theorem Renewed.daily {s : Server} {deadline : ℕ} (days : ℕ) (h : Renewed site deadline s)
    (hfirst : s.now = 350) (htag : oneDay + days * oneDay < deadline) :
    Served site s ([.pass (oneDay - 350), unchanged] ++
        (List.replicate days [.pass oneDay, unchanged]).flatten) = true ∧
      (run site s ([.pass (oneDay - 350), unchanged] ++
        (List.replicate days [.pass oneDay, unchanged]).flatten)).now = oneDay + days * oneDay ∧
      (run site s ([.pass (oneDay - 350), unchanged] ++
        (List.replicate days [.pass oneDay, unchanged]).flatten)).feed = s.feed := by
  have hday : oneDay = 86400000 := rfl
  obtain ⟨hsent, hnext, hnow, hfeed⟩ := h.later (show oneDay - 350 < 1000 * cacheTtl by decide)
    (show s.now + (oneDay - 350) < deadline by omega)
  have htime : s.now + (oneDay - 350) = oneDay := by omega
  rw [htime] at hnow
  obtain ⟨hserved, hlate, hlast⟩ := hnext.days days (by rwa [hnow])
  refine ⟨?_, ?_, ?_⟩
  · rw [List.cons_append, List.cons_append, List.nil_append]
    change ((decide (304 = 304) && (ifNoneMatch (s.now + (oneDay - 350)) s.redis).isSome) &&
      Served site (run site s [.pass (oneDay - 350), unchanged])
        (List.replicate days [.pass oneDay, unchanged]).flatten) = true
    rw [hsent, hserved]
    rfl
  · rw [run, List.foldl_append]
    exact hlate.trans (congrArg (· + days * oneDay) hnow)
  · rw [run, List.foldl_append]
    exact hlast.trans hfeed

theorem renewed_fetched :
    Renewed plain (350 + 1000 * cacheTtl) (step plain installed fetched) where
  enabled := rfl
  lock := by decide +kernel
  release := ⟨[("tag_name", .str "2"), ("html_url", .str ""), ("published_at", .str ""),
    ("checked_at", .str "")], by decide +kernel⟩
  etag := ⟨"first", by decide, by decide +kernel⟩

theorem served_fetched {s : Server} {events : List Event}
    (h : Served plain (step plain s fetched) events = true) :
    Served plain s (fetched :: events) = true := by
  have hfeed : (advisoriesOf ⟨200, .ok published, some "first"⟩).isSome = true := by decide +kernel
  rw [fetched, Served, ← fetched, h, hfeed]
  rfl

/-- A first event, further ones, and some time at the end. -/
theorem run_then_pass (s : Server) (event : Event) (events : List Event) (milliseconds : ℕ) :
    (run site s (event :: events ++ [.pass milliseconds])).now =
        (run site (step site s event) events).now + milliseconds ∧
      (run site s (event :: events ++ [.pass milliseconds])).feed =
        (run site (step site s event) events).feed := by
  rw [run, List.foldl_append]
  exact ⟨rfl, rfl⟩

/-- On the eighth day, with a call on each of them and twelve hours before the next one, the
advisory of the last 200 is gone. -/
theorem advisory_vanishes_on_the_eighth_day :
    Served plain installed (daily 6) = true ∧
    ((run plain installed (daily 6 ++ [.pass (oneDay / 2)])).feed.map fun feed ↦
      ((affecting plain "1" (validated plain feed.2)).toOption.map List.length)) = some (some 1) ∧
    ((getUpdateStatus plain (run plain installed (daily 6 ++ [.pass (oneDay / 2)])).now
      (run plain installed (daily 6 ++ [.pass (oneDay / 2)])).redis "1").toOption.map
        fun status ↦ status.advisories.length) = some 0 := by
  have hcache : CacheSound installed.redis := by
    intro now cached hcached
    cases hcached
  have hsound : Sound plain (run plain installed (daily 6 ++ [.pass (oneDay / 2)])) :=
    sound_run ⟨fun _ _ hfeed ↦ (by cases hfeed), hcache⟩ (by decide +kernel)
  have hdaily : daily 6 = fetched :: ([.pass (oneDay - 350), unchanged] ++
    (List.replicate 6 [.pass oneDay, unchanged]).flatten) := rfl
  obtain ⟨hserved, hnow, hfeed⟩ := renewed_fetched.daily 6 rfl (by decide)
  obtain ⟨hlate, hlast⟩ := @run_then_pass plain installed fetched
    ([.pass (oneDay - 350), unchanged] ++ (List.replicate 6 [.pass oneDay, unchanged]).flatten)
    (oneDay / 2)
  rw [← hdaily, hnow] at hlate
  rw [← hdaily, hfeed] at hlast
  refine ⟨served_fetched hserved, ?_, ?_⟩
  · rw [hlast]
    decide +kernel
  · obtain ⟨⟨time, advisories⟩, hnotice⟩ := Option.isSome_iff_exists.mp
      (show (step plain installed fetched).feed.isSome = true by decide +kernel)
    have htime : (step plain installed fetched).feed.map Prod.fst = some 350 := by decide +kernel
    rw [hnotice] at hlast htime
    have hgone : ¬(oneDay + 6 * oneDay + oneDay / 2 ≤ time + 1000 * cacheTtl) := by
      rw [show time = 350 from Option.some.inj htime]
      decide
    have hread := readAdvisories_of_sound hsound hlast
    rw [if_neg (hlate ▸ hgone)] at hread
    have hnone : affecting plain "1" (readAdvisories
        (run plain installed (daily 6 ++ [.pass (oneDay / 2)])).now
        (run plain installed (daily 6 ++ [.pass (oneDay / 2)])).redis) = .ok [] := by
      rw [hread, affecting]
    obtain ⟨status, hstatus, hlisted⟩ := getUpdateStatus_ok rfl hsound.cache hnone
    rw [hstatus]
    change some status.advisories.length = some 0
    rw [hlisted]
    rfl

end OpenWhistle.Updates
