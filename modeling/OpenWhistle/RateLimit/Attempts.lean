import Mathlib.Data.List.Perm.Basic
import OpenWhistle.Foundation.Contract
import OpenWhistle.RateLimit.Counters

/-!
# The limit of attempts

As long as every attempt takes its count back from the counter it was counted on, a counter is the
number of its admitted attempts and of the refused ones that have still to take theirs back. So the
attempts admitted on one counter and not given back stay within the limit, the counter never gets
below zero, and whoever creates it also gives it a time to live. That is not what the commands ask:
the DECR of a refused attempt meets whatever the key has become since its INCR, and so does the script
that gives an attempt back. When the counter has ended in between, the first one leaves a counter of
minus one that never expires, and both take a count that is not theirs from the next counter.

A refused attempt leaves no trace: the same commands without its own ones lead to the same counter.
The invariant for that is that the counter lags one behind between its INCR and its DECR.
-/

set_option autoImplicit false
set_option relaxedAutoImplicit false

namespace OpenWhistle.RateLimit

open Interleaving

/-- An attempt takes its count back from the life of the counter in which it was counted. -/
def TakesItsOwn (key : String) (w : ℕ) : Op → Counters → Prop
  | .decr other, s => other = key → Redis.find s.redis s.now key ≠ none ∧
      (s.claims w).map Claim.life = some (s.life key)
  | .decrIfExists other, s => other = key → Redis.find s.redis s.now key ≠ none →
      (s.claims w).map Claim.life = some (s.life key)
  | _, _ => True

instance (key : String) (w : ℕ) (operation : Op) (s : Counters) :
    Decidable (TakesItsOwn key w operation s) :=
  match operation with
  | .decr _ => inferInstanceAs (Decidable (_ → _ ∧ _))
  | .decrIfExists _ => inferInstanceAs (Decidable (_ → _ → _))
  | .incr _ | .expire _ _ | .delete _ | .check => isTrue trivial

namespace Counters

variable (s : Counters) (key : String) (life : ℕ)

/-- An attempt was counted in one life of the key. -/
def CountedIn (v : ℕ) : Prop := (s.claims v).map (fun c ↦ (c.key, c.life)) = some (key, life)

instance (v : ℕ) : Decidable (s.CountedIn key life v) := inferInstanceAs (Decidable (_ = _))

/-- The attempts admitted in one life of the key and not given back. -/
def holding : ℕ := s.admitted.countP fun v ↦ decide (s.CountedIn key life v)

/-- The refused attempts of one life of the key that still count. -/
def withdrawing : ℕ := s.refused.countP fun v ↦ decide (s.CountedIn key life v)

/-- The counter has a time to live where it is there. -/
def Timed : Prop := ∀ e, Redis.find s.redis s.now key = some e → e.expiresAt ≠ none

end Counters

/-- Some commands one after the other, each at its time. -/
def replay (commands : List (ℕ × ℕ × Op)) (s : Redis.Store) : Redis.Store :=
  commands.foldl (fun s command ↦ effect command.2.1 command.2.2 s) s

/-- The commands of all others. -/
def others (x : ℕ) (commands : List (ℕ × ℕ × Op)) : List (ℕ × ℕ × Op) :=
  commands.filter fun command ↦ decide (command.1 ≠ x)

theorem replay_snoc (commands : List (ℕ × ℕ × Op)) (command : ℕ × ℕ × Op) (s : Redis.Store) :
    replay (commands ++ [command]) s = effect command.2.1 command.2.2 (replay commands s) := by
  rw [replay, List.foldl_append]
  rfl

theorem others_snoc_self (x time : ℕ) (operation : Op) (commands : List (ℕ × ℕ × Op)) :
    others x (commands ++ [(x, time, operation)]) = others x commands := by
  simp [others]

theorem others_snoc_of_ne {x w : ℕ} (hne : w ≠ x) (time : ℕ) (operation : Op)
    (commands : List (ℕ × ℕ × Op)) :
    others x (commands ++ [(w, time, operation)]) = others x commands ++ [(w, time, operation)] := by
  simp [others, hne]

/-! ### The invariant -/

variable {limits : Limits} {key : String} {x w : ℕ} {first : Redis.Store} {s t u : Counters}

/-- The counter and its attempts. -/
structure Counted (limits : Limits) (key : String) (s : Counters) : Prop where
  entry : ∀ e, Redis.find s.redis s.now key = some e →
    e.value = .integer (s.holding key (s.life key) + s.withdrawing key (s.life key) : ℕ)
  limit : ∀ life, s.holding key life ≤ limits.maxLoginAttempts
  past : ∀ v c, s.claims v = some c → c.key = key → c.life ≤ s.life key
  created : Redis.find s.redis s.now key ≠ none → s.creator key ≠ none
  nodup : s.refused.Nodup

/-- What the counter has from an attempt that was refused. -/
def Counters.owed (s : Counters) (key : String) (x : ℕ) : ℤ :=
  if x ∈ s.refused ∧ s.CountedIn key (s.life key) x then 1 else 0

/-- The commands of the others alone lead to the same counter, less what a refused attempt has still
to take back. -/
def Traceless (first : Redis.Store) (key : String) (x : ℕ) (s : Counters) : Prop :=
  (∀ c, s.claims x = some c → c.granted = false) →
    Redis.Lags (s.owed key x) s.now s.redis (replay (others x s.log) first) key

/-- What worker `w` may rely on. -/
structure Around (key : String) (w : ℕ) (s t : Counters) : Prop where
  claims : t.claims w = s.claims w
  admitted : w ∈ t.admitted ↔ w ∈ s.admitted
  refused : w ∈ t.refused ↔ w ∈ s.refused
  creator : t.creator key = some w → s.creator key = some w ∧ (s.Timed key → t.Timed key)

theorem Around.refl (key : String) (w : ℕ) (s : Counters) : Around key w s s :=
  ⟨rfl, .rfl, .rfl, fun h ↦ ⟨h, id⟩⟩

theorem Around.trans (hst : Around key w s t) (htu : Around key w t u) : Around key w s u where
  claims := htu.claims.trans hst.claims
  admitted := htu.admitted.trans hst.admitted
  refused := htu.refused.trans hst.refused
  creator h :=
    have hlater := htu.creator h
    have hearlier := hst.creator hlater.1
    ⟨hearlier.1, hlater.2 ∘ hearlier.2⟩

/-- A worker whose attempt has not been counted. -/
structure Uncounted (key : String) (w : ℕ) (s : Counters) : Prop where
  claims : s.claims w = none
  admitted : w ∉ s.admitted
  refused : w ∉ s.refused
  creator : s.creator key ≠ some w

theorem Uncounted.later (h : Uncounted key w s) (haround : Around key w s t) : Uncounted key w t where
  claims := haround.claims.trans h.claims
  admitted := mt haround.admitted.mp h.admitted
  refused := mt haround.refused.mp h.refused
  creator hcreator := h.creator (haround.creator hcreator).1

/-- A worker whose attempt was refused, and has taken its count back. -/
structure Withdrawn (key : String) (w : ℕ) (s : Counters) : Prop where
  claims : ∃ c, s.claims w = some c ∧ c.granted = false
  refused : w ∉ s.refused
  creator : s.creator key ≠ some w

theorem Withdrawn.later (h : Withdrawn key w s) (haround : Around key w s t) : Withdrawn key w t where
  claims := haround.claims ▸ h.claims
  refused := mt haround.refused.mp h.refused
  creator hcreator := h.creator (haround.creator hcreator).1

/-- A worker whose attempt on `k` was refused, and still counts. -/
structure Refused (key k : String) (w : ℕ) (s : Counters) : Prop where
  claims : ∃ life, s.claims w = some ⟨k, life, false⟩
  refused : w ∈ s.refused
  creator : s.creator key ≠ some w

theorem Refused.later {k : String} (h : Refused key k w s) (haround : Around key w s t) :
    Refused key k w t where
  claims := haround.claims ▸ h.claims
  refused := haround.refused.mpr h.refused
  creator hcreator := h.creator (haround.creator hcreator).1

/-- A worker whose attempt on `k` was admitted. -/
structure Admitted (key k : String) (w : ℕ) (s : Counters) : Prop where
  claims : ∃ life, s.claims w = some ⟨k, life, true⟩
  admitted : w ∈ s.admitted
  creator : s.creator key = some w → k = key

theorem Admitted.later {k : String} (h : Admitted key k w s) (haround : Around key w s t) :
    Admitted key k w t where
  claims := haround.claims ▸ h.claims
  admitted := haround.admitted.mpr h.admitted
  creator hcreator := h.creator (haround.creator hcreator).1

/-- The same once EXPIRE has run. -/
structure Settled (key k : String) (w : ℕ) (s : Counters) : Prop where
  admitted : Admitted key k w s
  timed : s.creator key = some w → s.Timed key

theorem Settled.later {k : String} (h : Settled key k w s) (haround : Around key w s t) :
    Settled key k w t where
  admitted := h.admitted.later haround
  timed hcreator := (haround.creator hcreator).2 (h.timed (haround.creator hcreator).1)

/-- What holds at the end of a request. -/
def Ended (key : String) (w : ℕ) : Answer → Counters → Prop
  | .locked, s => Withdrawn key w s
  | _, s => s.creator key = some w → s.Timed key

theorem Ended.later {answer : Answer} (h : Ended key w answer s) (haround : Around key w s t) :
    Ended key w answer t := by
  cases answer with
  | locked => exact Withdrawn.later h haround
  | wrong => exact fun hcreator ↦ (haround.creator hcreator).2 (h (haround.creator hcreator).1)
  | right => exact fun hcreator ↦ (haround.creator hcreator).2 (h (haround.creator hcreator).1)

/-! ### The same command on two databases -/

theorem effect_incr (now : ℕ) (k : String) (a : Redis.Store) :
    effect now (.incr k) a = Redis.bump 1 a now k :=
  Redis.incr_eq_bump a now k

theorem effect_decr (now : ℕ) (k : String) (a : Redis.Store) :
    effect now (.decr k) a = Redis.bump (-1) a now k :=
  Redis.decr_eq_bump a now k

theorem effect_decrIfExists (now : ℕ) (k : String) (a : Redis.Store) :
    effect now (.decrIfExists k) a =
      if Redis.find a now k = none then a else Redis.bump (-1) a now k := by
  rw [effect, Redis.decr_eq_bump]

theorem effect_decrIfExists_of_ne {now : ℕ} {k : String} (hne : key ≠ k) (a : Redis.Store) :
    effect now (.decrIfExists k) a key = a key := by
  rw [effect_decrIfExists]
  split
  · rfl
  · exact Redis.bump_of_ne hne

/-- A command keeps the distance of two counters, unless it begins to count. -/
theorem lags_effect {distance : ℤ} {now : ℕ} {a b : Redis.Store}
    (h : Redis.Lags distance now a b key) (operation : Op)
    (hthere : operation = .incr key ∨ operation = .decr key → Redis.find a now key ≠ none) :
    Redis.Lags distance now (effect now operation a) (effect now operation b) key := by
  cases operation with
  | incr k =>
    rw [effect_incr, effect_incr]
    by_cases hk : key = k
    · subst hk
      exact h.bump (hthere (.inl rfl))
    · exact h.of_eq (Redis.bump_of_ne hk) (Redis.bump_of_ne hk)
  | decr k =>
    rw [effect_decr, effect_decr]
    by_cases hk : key = k
    · subst hk
      exact h.bump (hthere (.inr rfl))
    · exact h.of_eq (Redis.bump_of_ne hk) (Redis.bump_of_ne hk)
  | expire k seconds =>
    by_cases hk : key = k
    · subst hk
      exact h.expire seconds
    · exact h.of_eq (Redis.expire_of_ne hk) (Redis.expire_of_ne hk)
  | decrIfExists k =>
    by_cases hk : key = k
    · subst hk
      rw [effect_decrIfExists, effect_decrIfExists]
      rcases h.cases with ⟨ha, hb⟩ | ⟨e, ha, hb⟩
      · rw [if_pos ha, if_pos hb]
        exact h
      · have ha' : Redis.find a now key ≠ none := by rw [ha]; exact Option.some_ne_none e
        have hb' : Redis.find b now key ≠ none := by rw [hb]; exact Option.some_ne_none _
        rw [if_neg ha', if_neg hb']
        exact h.bump ha'
    · exact h.of_eq (effect_decrIfExists_of_ne hk a) (effect_decrIfExists_of_ne hk b)
  | delete k =>
    by_cases hk : key = k
    · subst hk
      exact Redis.Lags.delete distance now a b key
    · exact h.of_eq (Function.update_of_ne hk ..) (Function.update_of_ne hk ..)
  | check => exact h

/-- An attempt of an earlier life owes nothing. -/
theorem owed_eq_zero (h : ¬s.CountedIn key (s.life key) x) : s.owed key x = 0 :=
  if_neg fun hboth ↦ h hboth.2

/-- A command of another worker. -/
theorem Traceless.beside {operation : Op} (h : Traceless first key x s) (hne : w ≠ x)
    (hlog : u.log = s.log ++ [(w, s.now, operation)])
    (hredis : u.redis = effect s.now operation s.redis) (hnow : u.now = s.now)
    (hclaims : u.claims x = s.claims x) (hrefused : x ∈ u.refused ↔ x ∈ s.refused)
    (hpast : ∀ c, s.claims x = some c → c.key = key → c.life ≤ s.life key)
    (hlife : Redis.find s.redis s.now key = none ∧ operation = .incr key ∧
        u.life key = s.life key + 1 ∨
      (operation = .incr key ∨ operation = .decr key → Redis.find s.redis s.now key ≠ none) ∧
        u.life key = s.life key) : Traceless first key x u := by
  intro hgranted
  have hlags := h (hclaims ▸ hgranted)
  rw [hlog, others_snoc_of_ne hne, replay_snoc, hredis, hnow]
  rcases hlife with ⟨hnone, rfl, hlife⟩ | ⟨hthere, hlife⟩
  · have hcounted : ¬u.CountedIn key (u.life key) x := by
      intro hcounted
      obtain ⟨c, hc, heq⟩ := Option.map_eq_some_iff.mp hcounted
      rw [hclaims] at hc
      have hle := hpast c hc (congrArg Prod.fst heq)
      have hlt : c.life = u.life key := congrArg Prod.snd heq
      omega
    rw [owed_eq_zero hcounted, effect_incr, effect_incr]
    exact hlags.bump_of_none hnone
  · have hcounted : u.CountedIn key (u.life key) x ↔ s.CountedIn key (s.life key) x := by
      unfold Counters.CountedIn
      rw [hclaims, hlife]
    have howed : u.owed key x = s.owed key x := if_congr (and_congr hrefused hcounted) rfl rfl
    rw [howed]
    exact lags_effect hlags operation hthere

/-- The commands of an admitted attempt need no trace. -/
theorem traceless_of_granted {c : Claim} (hclaim : s.claims x = some c) (hgranted : c.granted = true) :
    Traceless first key x s := by
  intro h
  rw [h c hclaim] at hgranted
  cases hgranted

/-! ### Attempts among workers -/

theorem countP_erase_of_pos {workers : List ℕ} {p : ℕ → Bool} (hmem : w ∈ workers) (hw : p w = true) :
    (workers.erase w).countP p + 1 = workers.countP p := by
  rw [(List.perm_cons_erase hmem).countP_eq p, List.countP_cons_of_pos hw]

theorem countP_erase_of_neg (workers : List ℕ) {p : ℕ → Bool} (hw : ¬p w = true) :
    (workers.erase w).countP p = workers.countP p := by
  by_cases hmem : w ∈ workers
  · rw [(List.perm_cons_erase hmem).countP_eq p, List.countP_cons_of_neg hw]
  · rw [List.erase_of_not_mem hmem]

/-- The claim of one worker is not about the others. -/
theorem countP_congr_claims {workers : List ℕ} {life : ℕ}
    (hclaims : ∀ v ∈ workers, u.claims v = s.claims v) :
    workers.countP (fun v ↦ decide (u.CountedIn key life v)) =
      workers.countP fun v ↦ decide (s.CountedIn key life v) := by
  refine List.countP_congr fun v hv ↦ ?_
  rw [decide_eq_true_iff, decide_eq_true_iff]
  unfold Counters.CountedIn
  rw [hclaims v hv]

/-- Nobody was counted in a life to come. -/
theorem countP_eq_zero_of_lt (hpast : ∀ v c, s.claims v = some c → c.key = key → c.life ≤ s.life key)
    {life : ℕ} (hlife : s.life key < life) (workers : List ℕ) :
    workers.countP (fun v ↦ decide (s.CountedIn key life v)) = 0 := by
  refine List.countP_eq_zero.mpr fun v _ hcounted ↦ ?_
  obtain ⟨c, hc, heq⟩ := Option.map_eq_some_iff.mp (of_decide_eq_true hcounted)
  have hle := hpast v c hc (congrArg Prod.fst heq)
  have hlt : c.life = life := congrArg Prod.snd heq
  omega

/-- Counting leaves a counter its time to live. -/
theorem timed_of_bump {d : ℤ} (hthere : Redis.find s.redis s.now key ≠ none) (h : s.Timed key)
    (hredis : u.redis = Redis.bump d s.redis s.now key) (hnow : u.now = s.now) : u.Timed key := by
  obtain ⟨found, hfound⟩ := Option.ne_none_iff_exists'.mp hthere
  obtain ⟨value, hbumped⟩ := Redis.find_bump hfound
  intro e he
  rw [hredis, hnow, hbumped, Option.some.injEq] at he
  subst he
  exact h found hfound

/-- What is done to other keys leaves a counter its time to live. -/
theorem timed_of_eq (h : s.Timed key) (hredis : u.redis key = s.redis key) (hnow : u.now = s.now) :
    u.Timed key := by
  intro e he
  rw [Redis.find, hredis, hnow] at he
  exact h e he

theorem countedIn_of_claims {k : String} {life current : ℕ} {granted : Bool}
    (h : s.claims w = some ⟨k, current, granted⟩) :
    s.CountedIn key life w ↔ k = key ∧ current = life := by
  unfold Counters.CountedIn
  rw [h, Option.map_some, Option.some.injEq, Prod.mk.injEq]

/-! ### INCR -/

/-- After an INCR that counted up to `n`. -/
abbrev Counters.incremented (limits : Limits) (s : Counters) (w : ℕ) (k : String) (n : ℤ) :
    Counters :=
  ((s.begins w k).ran w (.incr k)).counted limits w k n

section Incr

variable {k : String} {n : ℤ}

theorem incremented_redis : (s.incremented limits w k n).redis = Redis.bump 1 s.redis s.now k := by
  change effect (s.begins w k).now (.incr k) (s.begins w k).redis = _
  rw [Counters.begins_now, Counters.begins_redis, effect_incr]

theorem incremented_now : (s.incremented limits w k n).now = s.now := s.begins_now w k

theorem incremented_claims_self : (s.incremented limits w k n).claims w =
    some ⟨k, (s.incremented limits w k n).life k, decide (n ≤ limits.maxLoginAttempts)⟩ :=
  Function.update_self ..

theorem incremented_claims_of_ne {v : ℕ} (hne : v ≠ w) :
    (s.incremented limits w k n).claims v = s.claims v := by
  change Function.update (s.begins w k).claims w _ v = _
  rw [Function.update_of_ne hne, Counters.begins_claims]

theorem incremented_admitted : (s.incremented limits w k n).admitted =
    if n ≤ limits.maxLoginAttempts then w :: s.admitted else s.admitted := by
  change (if n ≤ limits.maxLoginAttempts then w :: (s.begins w k).admitted
    else (s.begins w k).admitted) = _
  rw [Counters.begins_admitted]

theorem incremented_refused : (s.incremented limits w k n).refused =
    if n ≤ limits.maxLoginAttempts then s.refused else w :: s.refused := by
  change (if n ≤ limits.maxLoginAttempts then (s.begins w k).refused
    else w :: (s.begins w k).refused) = _
  rw [Counters.begins_refused]

theorem incremented_log : (s.incremented limits w k n).log = s.log ++ [(w, s.now, .incr k)] := by
  change (s.begins w k).log ++ [(w, (s.begins w k).now, .incr k)] = _
  rw [Counters.begins_log, Counters.begins_now]

/-- The attempt is counted in the life its INCR meets, or begins. -/
theorem countedIn_incremented {life : ℕ} : (s.incremented limits w k n).CountedIn key life w ↔
    k = key ∧ (s.incremented limits w k n).life k = life :=
  countedIn_of_claims incremented_claims_self

theorem holding_incremented (hadmitted : w ∉ s.admitted) (life : ℕ) :
    (s.incremented limits w k n).holding key life = s.holding key life +
      if n ≤ limits.maxLoginAttempts ∧ (s.incremented limits w k n).CountedIn key life w
      then 1 else 0 := by
  have hclaims : ∀ v ∈ s.admitted, (s.incremented limits w k n).claims v = s.claims v :=
    fun v hv ↦ incremented_claims_of_ne (ne_of_mem_of_not_mem hv hadmitted)
  rw [Counters.holding, incremented_admitted]
  by_cases hn : n ≤ limits.maxLoginAttempts
  · rw [if_pos hn, List.countP_cons, countP_congr_claims hclaims, Counters.holding]
    simp [hn]
  · rw [if_neg hn, countP_congr_claims hclaims, if_neg fun h ↦ hn h.1]
    rfl

theorem withdrawing_incremented (hrefused : w ∉ s.refused) (life : ℕ) :
    (s.incremented limits w k n).withdrawing key life = s.withdrawing key life +
      if ¬n ≤ limits.maxLoginAttempts ∧ (s.incremented limits w k n).CountedIn key life w
      then 1 else 0 := by
  have hclaims : ∀ v ∈ s.refused, (s.incremented limits w k n).claims v = s.claims v :=
    fun v hv ↦ incremented_claims_of_ne (ne_of_mem_of_not_mem hv hrefused)
  rw [Counters.withdrawing, incremented_refused]
  by_cases hn : n ≤ limits.maxLoginAttempts
  · rw [if_pos hn, countP_congr_claims hclaims, if_neg fun h ↦ h.1 hn]
    rfl
  · rw [if_neg hn, List.countP_cons, countP_congr_claims hclaims, Counters.withdrawing]
    simp [hn]

theorem past_incremented (hpast : ∀ v c, s.claims v = some c → c.key = key → c.life ≤ s.life key)
    (hlife : s.life key ≤ (s.incremented limits w k n).life key) (v : ℕ) (c : Claim)
    (hc : (s.incremented limits w k n).claims v = some c) (hkey : c.key = key) :
    c.life ≤ (s.incremented limits w k n).life key := by
  by_cases hv : v = w
  · subst hv
    rw [incremented_claims_self, Option.some.injEq] at hc
    subst hc
    exact le_of_eq (congrArg _ hkey)
  · rw [incremented_claims_of_ne hv] at hc
    exact (hpast v c hc hkey).trans hlife

theorem nodup_incremented (hnodup : s.refused.Nodup) (hrefused : w ∉ s.refused) :
    (s.incremented limits w k n).refused.Nodup := by
  rw [incremented_refused]
  split
  · exact hnodup
  · exact List.nodup_cons.mpr ⟨hrefused, hnodup⟩

/-- An attempt on another key. -/
theorem counted_incr_of_ne (h : Counted limits key s) (hown : Uncounted key w s) (hne : key ≠ k) :
    Counted limits key (s.incremented limits w k n) := by
  have hfind : ∀ time, Redis.find (s.incremented limits w k n).redis time key =
      Redis.find s.redis time key := by
    intro time
    rw [Redis.find, incremented_redis, Redis.bump_of_ne hne, Redis.find]
  have hlife : (s.incremented limits w k n).life key = s.life key := (Counters.begins_of_ne w hne).1
  have hcreator : (s.incremented limits w k n).creator key = s.creator key :=
    (Counters.begins_of_ne w hne).2
  have hcounted : ∀ life, ¬(s.incremented limits w k n).CountedIn key life w :=
    fun life hcounted ↦ hne (countedIn_incremented.mp hcounted).1.symm
  have hholding : ∀ life, (s.incremented limits w k n).holding key life = s.holding key life := by
    intro life
    rw [holding_incremented hown.admitted, if_neg fun h ↦ hcounted life h.2, Nat.add_zero]
  have hwithdrawing : ∀ life,
      (s.incremented limits w k n).withdrawing key life = s.withdrawing key life := by
    intro life
    rw [withdrawing_incremented hown.refused, if_neg fun h ↦ hcounted life h.2, Nat.add_zero]
  refine ⟨fun e he ↦ ?_, fun life ↦ (hholding life).symm ▸ h.limit life,
    past_incremented h.past hlife.ge, fun hthere ↦ ?_, nodup_incremented h.nodup hown.refused⟩
  · rw [incremented_now, hfind] at he
    rw [hlife, hholding, hwithdrawing]
    exact h.entry e he
  · rw [incremented_now, hfind] at hthere
    rw [hcreator]
    exact h.created hthere

/-- The first attempt on a key. -/
theorem counted_incr_of_none (h : Counted limits key s) (hown : Uncounted key w s)
    (hnone : Redis.find s.redis s.now key = none) :
    Counted limits key (s.incremented limits w key 1) := by
  have hone : (1 : ℤ) ≤ limits.maxLoginAttempts := by exact_mod_cast limits.one_le_attempts
  have hbegins := Counters.begins_of_none w hnone
  have hlife : (s.incremented limits w key 1).life key = s.life key + 1 := hbegins.1
  have hlt : s.life key < (s.incremented limits w key 1).life key :=
    Nat.lt_of_lt_of_eq (Nat.lt_succ_self _) hlife.symm
  refine ⟨fun e he ↦ ?_, fun life ↦ ?_, past_incremented h.past hlt.le, fun _ ↦ ?_,
    nodup_incremented h.nodup hown.refused⟩
  · have hentry := Redis.eq_of_find he
    rw [incremented_redis, Redis.bump_of_none hnone, Option.some.injEq] at hentry
    subst hentry
    rw [holding_incremented hown.admitted, withdrawing_incremented hown.refused,
      if_pos ⟨hone, countedIn_incremented.mpr ⟨rfl, rfl⟩⟩, if_neg fun h ↦ h.1 hone,
      Counters.holding, Counters.withdrawing, countP_eq_zero_of_lt h.past hlt,
      countP_eq_zero_of_lt h.past hlt]
    rfl
  · rw [holding_incremented hown.admitted]
    by_cases hnew : (s.incremented limits w key 1).life key = life
    · rw [if_pos ⟨hone, countedIn_incremented.mpr ⟨rfl, hnew⟩⟩, Counters.holding,
        countP_eq_zero_of_lt h.past (hnew ▸ hlt)]
      exact limits.one_le_attempts
    · rw [if_neg fun h ↦ hnew (countedIn_incremented.mp h.2).2]
      exact h.limit life
  · rw [show (s.incremented limits w key 1).creator key = some w from hbegins.2]
    exact Option.some_ne_none w

/-- One more attempt. -/
theorem counted_incr_of_some (h : Counted limits key s) (hown : Uncounted key w s) {m : ℤ}
    {time : Option ℕ} (hfind : Redis.find s.redis s.now key = some ⟨.integer m, time⟩) :
    Counted limits key (s.incremented limits w key (m + 1)) := by
  have hthere : Redis.find s.redis s.now key ≠ none := by
    rw [hfind]
    exact Option.some_ne_none _
  have hbegins : s.begins w key = s := Counters.begins_of_find w hthere
  have hlife : (s.incremented limits w key (m + 1)).life key = s.life key :=
    congrArg (fun c ↦ c.life key) hbegins
  have hcounted : (s.incremented limits w key (m + 1)).CountedIn key (s.life key) w :=
    countedIn_incremented.mpr ⟨rfl, hlife⟩
  have hm : m = (s.holding key (s.life key) + s.withdrawing key (s.life key) : ℕ) :=
    Redis.Value.integer.inj (h.entry _ hfind)
  refine ⟨fun e he ↦ ?_, fun life ↦ ?_, past_incremented h.past hlife.ge, fun _ ↦ ?_,
    nodup_incremented h.nodup hown.refused⟩
  · have hentry := Redis.eq_of_find he
    rw [incremented_redis, Redis.bump_of_integer hfind, Option.some.injEq] at hentry
    subst hentry
    rw [hlife, holding_incremented hown.admitted, withdrawing_incremented hown.refused]
    refine congrArg Redis.Value.integer ?_
    by_cases hn : m + 1 ≤ limits.maxLoginAttempts
    · rw [if_pos ⟨hn, hcounted⟩, if_neg fun h ↦ h.1 hn]
      omega
    · rw [if_neg fun h ↦ hn h.1, if_pos ⟨hn, hcounted⟩]
      omega
  · rw [holding_incremented hown.admitted]
    split
    · rename_i hadmitted
      have hnow : s.life key = life := hlife.symm.trans (countedIn_incremented.mp hadmitted.2).2
      have hle := hadmitted.1
      subst hnow
      omega
    · exact h.limit life
  · rw [show (s.incremented limits w key (m + 1)).creator key = s.creator key from
      congrArg (fun c ↦ c.creator key) hbegins]
    exact h.created hthere

theorem counted_incr (h : Counted limits key s) (hown : Uncounted key w s) {store : Redis.Store}
    (hincr : Redis.incr s.redis s.now k = some (n, store)) :
    Counted limits key (s.incremented limits w k n) := by
  by_cases hne : key = k
  · subst hne
    rcases Redis.incr_cases hincr with ⟨hnone, rfl⟩ | ⟨m, time, hfind, rfl⟩
    · exact counted_incr_of_none h hown hnone
    · exact counted_incr_of_some h hown hfind
  · exact counted_incr_of_ne h hown hne

/-- A refused attempt leaves the counter one ahead. -/
theorem traceless_incr_self (h : Traceless first key x s) (hown : Uncounted key x s)
    {store : Redis.Store} (hincr : Redis.incr s.redis s.now k = some (n, store)) :
    Traceless first key x (s.incremented limits x k n) := by
  intro hgranted
  have hrefused : ¬n ≤ limits.maxLoginAttempts := of_decide_eq_false (hgranted _ incremented_claims_self)
  have hlags := h fun c hc ↦ by
    rw [hown.claims] at hc
    cases hc
  have howed : s.owed key x = 0 := if_neg fun hboth ↦ hown.refused hboth.1
  rw [howed] at hlags
  rw [incremented_log, others_snoc_self, incremented_now, incremented_redis]
  by_cases hne : key = k
  · subst hne
    rcases Redis.incr_cases hincr with ⟨hnone, rfl⟩ | ⟨m, time, hfind, rfl⟩
    · exact absurd (by exact_mod_cast limits.one_le_attempts) hrefused
    · have hthere : Redis.find s.redis s.now key ≠ none := by
        rw [hfind]
        exact Option.some_ne_none _
      have hmem : x ∈ (s.incremented limits x key (m + 1)).refused := by
        rw [incremented_refused, if_neg hrefused]
        exact List.mem_cons_self
      rw [Counters.owed, if_pos ⟨hmem, countedIn_incremented.mpr ⟨rfl, rfl⟩⟩]
      exact hlags.bump_left hthere
  · rw [owed_eq_zero fun hcounted ↦ hne (countedIn_incremented.mp hcounted).1.symm]
    exact hlags.of_eq (Redis.bump_of_ne hne) rfl

theorem traceless_incr (hcounted : Counted limits key s) (h : Traceless first key x s)
    (hown : Uncounted key w s) {store : Redis.Store}
    (hincr : Redis.incr s.redis s.now k = some (n, store)) :
    Traceless first key x (s.incremented limits w k n) := by
  by_cases hx : w = x
  · subst hx
    exact traceless_incr_self h hown hincr
  · have hrefused : x ∈ (s.incremented limits w k n).refused ↔ x ∈ s.refused := by
      rw [incremented_refused]
      split
      · exact Iff.rfl
      · exact List.mem_cons.trans (or_iff_right fun heq ↦ hx heq.symm)
    refine h.beside hx incremented_log (by rw [incremented_redis, effect_incr]) incremented_now
      (incremented_claims_of_ne fun heq ↦ hx heq.symm) hrefused (fun c ↦ hcounted.past x c) ?_
    by_cases hne : key = k
    · subst hne
      by_cases hnone : Redis.find s.redis s.now key = none
      · exact .inl ⟨hnone, rfl, (Counters.begins_of_none w hnone).1⟩
      · exact .inr ⟨fun _ ↦ hnone,
          congrArg (fun c ↦ c.life key) (Counters.begins_of_find w hnone)⟩
    · refine .inr ⟨fun h ↦ ?_, (Counters.begins_of_ne w hne).1⟩
      rcases h with heq | heq
      · exact absurd (Op.incr.inj heq).symm hne
      · cases heq

theorem around_incr {v : ℕ} (hv : v ≠ w) : Around key v s (s.incremented limits w k n) := by
  refine ⟨incremented_claims_of_ne hv, ?_, ?_, fun hcreator ↦ ?_⟩
  · rw [incremented_admitted]
    split
    · exact List.mem_cons.trans (or_iff_right hv)
    · exact Iff.rfl
  · rw [incremented_refused]
    split
    · exact Iff.rfl
    · exact List.mem_cons.trans (or_iff_right hv)
  · by_cases hne : key = k
    · subst hne
      by_cases hnone : Redis.find s.redis s.now key = none
      · rw [show (s.incremented limits w key n).creator key = some w from
          (Counters.begins_of_none w hnone).2, Option.some.injEq] at hcreator
        exact absurd hcreator.symm hv
      · rw [show (s.incremented limits w key n).creator key = s.creator key from
          congrArg (fun c ↦ c.creator key) (Counters.begins_of_find w hnone)] at hcreator
        exact ⟨hcreator, fun htimed ↦ timed_of_bump hnone htimed incremented_redis incremented_now⟩
    · rw [show (s.incremented limits w k n).creator key = s.creator key from
        (Counters.begins_of_ne w hne).2] at hcreator
      refine ⟨hcreator, fun htimed ↦ timed_of_eq htimed ?_ incremented_now⟩
      rw [incremented_redis]
      exact Redis.bump_of_ne hne

theorem refused_incr (hown : Uncounted key w s) {store : Redis.Store}
    (hincr : Redis.incr s.redis s.now k = some (n, store)) (hn : limits.maxLoginAttempts < n) :
    Refused key k w (s.incremented limits w k n) := by
  have hrefused : ¬n ≤ limits.maxLoginAttempts := not_le.mpr hn
  refine ⟨⟨_, incremented_claims_self.trans (by rw [decide_eq_false hrefused])⟩, ?_, ?_⟩
  · rw [incremented_refused, if_neg hrefused]
    exact List.mem_cons_self
  · by_cases hne : key = k
    · subst hne
      rcases Redis.incr_cases hincr with ⟨-, rfl⟩ | ⟨m, time, hfind, rfl⟩
      · exact absurd (by exact_mod_cast limits.one_le_attempts) hrefused
      · have hthere : Redis.find s.redis s.now key ≠ none := by
          rw [hfind]
          exact Option.some_ne_none _
        rw [show (s.incremented limits w key (m + 1)).creator key = s.creator key from
          congrArg (fun c ↦ c.creator key) (Counters.begins_of_find w hthere)]
        exact hown.creator
    · rw [show (s.incremented limits w k n).creator key = s.creator key from
        (Counters.begins_of_ne w hne).2]
      exact hown.creator

theorem admitted_incr (hown : Uncounted key w s) (hn : ¬limits.maxLoginAttempts < n) :
    Admitted key k w (s.incremented limits w k n) := by
  have hadmitted : n ≤ limits.maxLoginAttempts := not_lt.mp hn
  refine ⟨⟨_, incremented_claims_self.trans (by rw [decide_eq_true hadmitted])⟩, ?_,
    fun hcreator ↦ by_contra fun hne ↦ ?_⟩
  · rw [incremented_admitted, if_pos hadmitted]
    exact List.mem_cons_self
  · rw [show (s.incremented limits w k n).creator key = s.creator key from
      (Counters.begins_of_ne w (Ne.symm hne)).2] at hcreator
    exact hown.creator hcreator

end Incr

/-! ### DECR -/

/-- After the DECR of a refused attempt. -/
abbrev Counters.decremented (s : Counters) (w : ℕ) (k : String) : Counters :=
  { (s.begins w k).ran w (.decr k) with refused := s.refused.erase w }

section Decr

variable {k : String}

theorem decremented_redis : (s.decremented w k).redis = Redis.bump (-1) s.redis s.now k := by
  change effect (s.begins w k).now (.decr k) (s.begins w k).redis = _
  rw [Counters.begins_now, Counters.begins_redis, effect_decr]

theorem decremented_now : (s.decremented w k).now = s.now := s.begins_now w k

theorem decremented_claims : (s.decremented w k).claims = s.claims := s.begins_claims w k

theorem decremented_log : (s.decremented w k).log = s.log ++ [(w, s.now, .decr k)] := by
  change (s.begins w k).log ++ [(w, (s.begins w k).now, .decr k)] = _
  rw [Counters.begins_log, Counters.begins_now]

/-- No life begins by a DECR that takes its own count back. -/
theorem decremented_life (htakes : TakesItsOwn key w (.decr k) s) :
    (s.decremented w k).life key = s.life key ∧
      (s.decremented w k).creator key = s.creator key := by
  by_cases hne : key = k
  · have hbegins : s.begins w k = s := Counters.begins_of_find w (hne ▸ (htakes hne.symm).1)
    exact ⟨congrArg (fun c ↦ c.life key) hbegins, congrArg (fun c ↦ c.creator key) hbegins⟩
  · exact Counters.begins_of_ne w hne

theorem holding_decremented (life : ℕ) : (s.decremented w k).holding key life = s.holding key life := by
  have hadmitted : (s.decremented w k).admitted = s.admitted := s.begins_admitted w k
  rw [Counters.holding, hadmitted, countP_congr_claims fun v _ ↦ congrFun decremented_claims v]
  rfl

/-- The refused attempt counts no more where it was counted. -/
theorem withdrawing_decremented (hown : Refused key k w s) (life : ℕ) :
    (s.decremented w k).withdrawing key life +
      (if s.CountedIn key life w then 1 else 0) = s.withdrawing key life := by
  rw [Counters.withdrawing, countP_congr_claims fun v _ ↦ congrFun decremented_claims v]
  split
  · rename_i hcounted
    exact countP_erase_of_pos hown.refused (decide_eq_true hcounted)
  · rename_i hcounted
    exact countP_erase_of_neg s.refused fun h ↦ hcounted (of_decide_eq_true h)

theorem Refused.countedIn (hown : Refused key k w s) (htakes : TakesItsOwn key w (.decr k) s) :
    s.CountedIn key (s.life key) w ↔ k = key := by
  obtain ⟨life, hclaims⟩ := hown.claims
  rw [countedIn_of_claims hclaims]
  refine ⟨And.left, fun hk ↦ ⟨hk, ?_⟩⟩
  have hlife := (htakes hk).2
  rw [hclaims] at hlife
  exact Option.some.inj hlife

theorem counted_decr (h : Counted limits key s) (hown : Refused key k w s)
    (htakes : TakesItsOwn key w (.decr k) s) : Counted limits key (s.decremented w k) := by
  obtain ⟨hlife, hcreator⟩ := decremented_life htakes
  have hwithdrawing := withdrawing_decremented hown (s.life key)
  refine ⟨fun e he ↦ ?_, fun life ↦ (holding_decremented life).symm ▸ h.limit life,
    fun v c hc hkey ↦ ?_, fun hthere ↦ ?_, h.nodup.erase w⟩
  · rw [decremented_now] at he
    rw [hlife, holding_decremented]
    by_cases hne : key = k
    · subst hne
      rw [if_pos ((hown.countedIn htakes).mpr rfl)] at hwithdrawing
      obtain ⟨⟨value, time⟩, hfound⟩ := Option.ne_none_iff_exists'.mp (htakes rfl).1
      obtain rfl : value = .integer _ := h.entry _ hfound
      have hentry := Redis.eq_of_find he
      rw [decremented_redis, Redis.bump_of_integer hfound, Option.some.injEq] at hentry
      subst hentry
      exact congrArg Redis.Value.integer (by omega)
    · rw [if_neg fun hcounted ↦ hne ((hown.countedIn htakes).mp hcounted).symm,
        Nat.add_zero] at hwithdrawing
      rw [hwithdrawing]
      rw [Redis.find, decremented_redis, Redis.bump_of_ne hne] at he
      exact h.entry e he
  · rw [decremented_claims] at hc
    rw [hlife]
    exact h.past v c hc hkey
  · rw [hcreator]
    refine h.created fun hnone ↦ hthere ?_
    rw [decremented_now]
    by_cases hne : key = k
    · exact absurd hnone (htakes hne.symm).1
    · rw [Redis.find, decremented_redis, Redis.bump_of_ne hne]
      exact hnone

/-- With its DECR a refused attempt has left the counter as it was. -/
theorem traceless_decr_self (hcounted : Counted limits key s) (h : Traceless first key x s)
    (hown : Refused key k x s) (htakes : TakesItsOwn key x (.decr k) s) :
    Traceless first key x (s.decremented x k) := by
  intro hgranted
  rw [decremented_claims] at hgranted
  have hlags := h hgranted
  have hdone : x ∉ (s.decremented x k).refused := hcounted.nodup.not_mem_erase
  rw [Counters.owed, if_neg fun hboth ↦ hdone hboth.1, decremented_log, others_snoc_self,
    decremented_now, decremented_redis]
  by_cases hne : key = k
  · subst hne
    rw [Counters.owed, if_pos ⟨hown.refused, (hown.countedIn htakes).mpr rfl⟩] at hlags
    exact hlags.bump_left (htakes rfl).1
  · rw [owed_eq_zero fun hcounted ↦ hne ((hown.countedIn htakes).mp hcounted).symm] at hlags
    exact hlags.of_eq (Redis.bump_of_ne hne) rfl

theorem traceless_decr (hcounted : Counted limits key s) (h : Traceless first key x s)
    (hown : Refused key k w s) (htakes : TakesItsOwn key w (.decr k) s) :
    Traceless first key x (s.decremented w k) := by
  by_cases hx : w = x
  · subst hx
    exact traceless_decr_self hcounted h hown htakes
  · refine h.beside hx decremented_log (by rw [decremented_redis, effect_decr]) decremented_now
      (congrFun decremented_claims x) (List.mem_erase_of_ne fun heq ↦ hx heq.symm)
      (fun c ↦ hcounted.past x c) (.inr ⟨fun hnames ↦ ?_, (decremented_life htakes).1⟩)
    rcases hnames with heq | heq
    · cases heq
    · exact (htakes (Op.decr.inj heq)).1

theorem around_decr (htakes : TakesItsOwn key w (.decr k) s) {v : ℕ} (hv : v ≠ w) :
    Around key v s (s.decremented w k) := by
  refine ⟨congrFun decremented_claims v, ?_, List.mem_erase_of_ne hv, fun hcreator ↦ ?_⟩
  · rw [show (s.decremented w k).admitted = s.admitted from s.begins_admitted w k]
  · rw [(decremented_life htakes).2] at hcreator
    refine ⟨hcreator, fun htimed ↦ ?_⟩
    by_cases hne : key = k
    · subst hne
      exact timed_of_bump (htakes rfl).1 htimed decremented_redis decremented_now
    · refine timed_of_eq htimed ?_ decremented_now
      rw [decremented_redis]
      exact Redis.bump_of_ne hne

theorem withdrawn_decr (h : Counted limits key s) (hown : Refused key k w s)
    (htakes : TakesItsOwn key w (.decr k) s) : Withdrawn key w (s.decremented w k) := by
  refine ⟨?_, h.nodup.not_mem_erase, ?_⟩
  · obtain ⟨life, hclaims⟩ := hown.claims
    rw [decremented_claims]
    exact ⟨_, hclaims, rfl⟩
  · rw [(decremented_life htakes).2]
    exact hown.creator

end Decr

/-! ### EXPIRE and DEL -/

theorem find_expire {now seconds : ℕ} {k : String} {a : Redis.Store} {e : Redis.Entry}
    (h : Redis.find (Redis.expire a now k seconds) now key = some e) :
    ∃ found, Redis.find a now key = some found ∧ found.value = e.value ∧
      (found.expiresAt ≠ none → e.expiresAt ≠ none) := by
  by_cases hne : key = k
  · subst hne
    cases hfound : Redis.find a now key with
    | none =>
      rw [Redis.expire, hfound] at h
      change Redis.find a now key = some e at h
      rw [hfound] at h
      cases h
    | some found =>
      have hentry := Redis.eq_of_find h
      rw [Redis.expire_of_find hfound, Option.some.injEq] at hentry
      subst hentry
      exact ⟨found, rfl, rfl, fun _ ↦ Option.some_ne_none _⟩
  · rw [Redis.find, Redis.expire_of_ne hne] at h
    exact ⟨e, h, rfl, id⟩

theorem find_delete {now : ℕ} {k : String} {a : Redis.Store} {e : Redis.Entry}
    (h : Redis.find (Redis.delete a k) now key = some e) : Redis.find a now key = some e := by
  by_cases hne : key = k
  · subst hne
    rw [Redis.find_delete] at h
    cases h
  · rw [Redis.find, Redis.delete, Function.update_of_ne hne] at h
    exact h

/-- A command that neither counts nor creates the key. -/
structure Keeps (key : String) (operation : Op) (s : Counters) : Prop where
  found : ∀ e, Redis.find (effect s.now operation s.redis) s.now key = some e →
    ∃ found, Redis.find s.redis s.now key = some found ∧ found.value = e.value ∧
      (found.expiresAt ≠ none → e.expiresAt ≠ none)
  uncounted : operation ≠ .incr key ∧ operation ≠ .decr key

theorem keeps_expire (key : String) (s : Counters) (k : String) (seconds : ℕ) :
    Keeps key (.expire k seconds) s :=
  ⟨fun _ he ↦ find_expire he, ⟨nofun, nofun⟩⟩

theorem keeps_delete (key : String) (s : Counters) (k : String) : Keeps key (.delete k) s :=
  ⟨fun e he ↦ ⟨e, find_delete he, rfl, id⟩, ⟨nofun, nofun⟩⟩

section Keeps

variable {operation : Op}

theorem counted_ran (h : Counted limits key s) (hkeeps : Keeps key operation s) :
    Counted limits key (s.ran w operation) := by
  refine ⟨fun e he ↦ ?_, h.limit, h.past, fun hthere ↦ ?_, h.nodup⟩
  · obtain ⟨found, hfound, hvalue, -⟩ := hkeeps.found e he
    rw [← hvalue]
    exact h.entry found hfound
  · obtain ⟨e, he⟩ := Option.ne_none_iff_exists'.mp hthere
    obtain ⟨found, hfound, -⟩ := hkeeps.found e he
    refine h.created ?_
    rw [hfound]
    exact Option.some_ne_none found

theorem timed_ran (h : s.Timed key) (hkeeps : Keeps key operation s) :
    (s.ran w operation).Timed key := by
  intro e he
  obtain ⟨found, hfound, -, hexpires⟩ := hkeeps.found e he
  exact hexpires (h found hfound)

theorem around_ran (hkeeps : Keeps key operation s) (v : ℕ) : Around key v s (s.ran w operation) :=
  ⟨rfl, .rfl, .rfl, fun h ↦ ⟨h, fun htimed ↦ timed_ran htimed hkeeps⟩⟩

/-- The commands of an admitted attempt, which alone run EXPIRE, DEL and the script. -/
theorem traceless_admitted {k : String} (hcounted : Counted limits key s)
    (h : Traceless first key x s) (hown : Admitted key k w s)
    (hlog : u.log = s.log ++ [(w, s.now, operation)])
    (hredis : u.redis = effect s.now operation s.redis) (hnow : u.now = s.now)
    (hclaims : u.claims = s.claims) (hrefused : u.refused = s.refused) (hlife : u.life = s.life)
    (huncounted : operation ≠ .incr key ∧ operation ≠ .decr key) : Traceless first key x u := by
  by_cases hx : w = x
  · subst hx
    obtain ⟨life, hclaim⟩ := hown.claims
    exact traceless_of_granted (hclaims ▸ hclaim) rfl
  · refine h.beside hx hlog hredis hnow (congrFun hclaims x) (by rw [hrefused])
      (fun c ↦ hcounted.past x c) (.inr ⟨fun hnames ↦ ?_, congrFun hlife key⟩)
    exact absurd hnames (not_or.mpr huncounted)

theorem Admitted.ran {k : String} (hown : Admitted key k w s) :
    Admitted key k w (s.ran w operation) :=
  ⟨hown.claims, hown.admitted, hown.creator⟩

end Keeps

/-- EXPIRE gives the key a time to live. -/
theorem timed_expire (s : Counters) (key : String) (seconds : ℕ) :
    (s.ran w (.expire key seconds)).Timed key := by
  intro e he
  cases hfound : Redis.find s.redis s.now key with
  | none =>
    obtain ⟨found, hthere, -⟩ := (keeps_expire key s key seconds).found e he
    rw [hfound] at hthere
    cases hthere
  | some found =>
    have hentry := Redis.eq_of_find he
    change Redis.expire s.redis s.now key seconds key = some e at hentry
    rw [Redis.expire_of_find hfound, Option.some.injEq] at hentry
    subst hentry
    exact Option.some_ne_none _

/-! ### The script that gives an attempt back -/

/-- After the script. -/
abbrev Counters.released (s : Counters) (w : ℕ) (k : String) : Counters :=
  { s.ran w (.decrIfExists k) with admitted := s.admitted.erase w }

section Release

variable {k : String}

theorem released_of_ne (hne : key ≠ k) : (s.released w k).redis key = s.redis key :=
  effect_decrIfExists_of_ne hne s.redis

theorem released_of_none (hnone : Redis.find s.redis s.now k = none) :
    (s.released w k).redis = s.redis := by
  change effect s.now (.decrIfExists k) s.redis = s.redis
  rw [effect_decrIfExists, if_pos hnone]

theorem released_of_some (hthere : Redis.find s.redis s.now k ≠ none) :
    (s.released w k).redis = Redis.bump (-1) s.redis s.now k := by
  change effect s.now (.decrIfExists k) s.redis = _
  rw [effect_decrIfExists, if_neg hthere]

theorem holding_released_le (life : ℕ) : (s.released w k).holding key life ≤ s.holding key life :=
  List.erase_sublist.countP_le

/-- An attempt given back holds nothing where it was counted. -/
theorem holding_released (hown : Admitted key k w s) (life : ℕ) :
    (s.released w k).holding key life + (if s.CountedIn key life w then 1 else 0) =
      s.holding key life := by
  split
  · rename_i hcounted
    exact countP_erase_of_pos hown.admitted (decide_eq_true hcounted)
  · rename_i hcounted
    exact countP_erase_of_neg s.admitted fun h ↦ hcounted (of_decide_eq_true h)

theorem counted_release (h : Counted limits key s) (hown : Admitted key k w s)
    (htakes : TakesItsOwn key w (.decrIfExists k) s) : Counted limits key (s.released w k) := by
  obtain ⟨current, hclaims⟩ := hown.claims
  have hholding := holding_released hown (s.life key)
  have hkept : ∀ e, Redis.find (s.released w k).redis s.now key = some e →
      Redis.find s.redis s.now key ≠ none := by
    intro e he hnone
    by_cases hne : key = k
    · subst hne
      rw [released_of_none hnone, hnone] at he
      cases he
    · rw [Redis.find, released_of_ne hne] at he
      rw [Redis.find, he] at hnone
      cases hnone
  refine ⟨fun e he ↦ ?_, fun life ↦ (holding_released_le life).trans (h.limit life), h.past,
    fun hthere ↦ ?_, h.nodup⟩
  · change e.value = .integer ((s.released w k).holding key (s.life key) +
      s.withdrawing key (s.life key) : ℕ)
    by_cases hne : key = k
    · subst hne
      have hlife := htakes rfl (hkept e he)
      rw [hclaims] at hlife
      rw [if_pos ((countedIn_of_claims hclaims).mpr ⟨rfl, Option.some.inj hlife⟩)] at hholding
      obtain ⟨⟨value, time⟩, hfound⟩ := Option.ne_none_iff_exists'.mp (hkept e he)
      obtain rfl : value = .integer _ := h.entry _ hfound
      have hentry := Redis.eq_of_find he
      rw [released_of_some (hkept e he), Redis.bump_of_integer hfound, Option.some.injEq] at hentry
      subst hentry
      exact congrArg Redis.Value.integer (by omega)
    · rw [if_neg fun hcounted ↦ hne ((countedIn_of_claims hclaims).mp hcounted).1.symm,
        Nat.add_zero] at hholding
      rw [hholding]
      rw [Redis.find, released_of_ne hne] at he
      exact h.entry e he
  · obtain ⟨e, he⟩ := Option.ne_none_iff_exists'.mp hthere
    exact h.created (hkept e he)

/-- The script leaves a counter its time to live. -/
theorem timed_release (h : s.Timed key) : (s.released w k).Timed key := by
  by_cases hne : key = k
  · subst hne
    by_cases hnone : Redis.find s.redis s.now key = none
    · exact timed_of_eq h (congrFun (released_of_none hnone) key) rfl
    · exact timed_of_bump hnone h (released_of_some hnone) rfl
  · exact timed_of_eq h (released_of_ne hne) rfl

theorem around_release {v : ℕ} (hv : v ≠ w) : Around key v s (s.released w k) :=
  ⟨rfl, List.mem_erase_of_ne hv, .rfl, fun h ↦ ⟨h, timed_release⟩⟩

end Release

/-! ### The contract -/

theorem counted_tick {milliseconds : ℕ} (h : Counted limits key s) :
    Counted limits key { s with now := s.now + milliseconds } := by
  refine ⟨fun e he ↦ h.entry e (Redis.find_of_later he (Nat.le_add_right _ _)), h.limit, h.past,
    fun hthere ↦ h.created fun hnone ↦ ?_, h.nodup⟩
  exact hthere (Redis.find_eq_none_of_find hnone (Nat.le_add_right _ _))

theorem traceless_tick {milliseconds : ℕ} (h : Traceless first key x s) :
    Traceless first key x { s with now := s.now + milliseconds } :=
  fun hgranted ↦ (h hgranted).later (Nat.le_add_right _ _)

theorem around_tick {milliseconds : ℕ} :
    Around key w s { s with now := s.now + milliseconds } :=
  ⟨rfl, .rfl, .rfl, fun h ↦
    ⟨h, fun htimed e he ↦ htimed e (Redis.find_of_later he (Nat.le_add_right _ _))⟩⟩

/-- What the attempts owe each other on one key, and an attempt that is refused to all others. -/
def attempts (limits : Limits) (key : String) (x : ℕ) (first : Redis.Store) :
    Contract (semantics limits) Request Answer where
  invariant s := Counted limits key s ∧ Traceless first key x s
  rely := Around key
  rely_refl := Around.refl key
  rely_trans _ _ _ _ := Around.trans
  idle := Uncounted key
  idle_stable _ _ _ h haround _ := h.later haround
  ends w := Returns (Ended key w)
  ends_stable := by
    intro w result s t h haround _
    cases result with
    | ok answer => exact Ended.later h haround
    | error fault => trivial
  admits _ := True
  allows := TakesItsOwn key
  trusts _ _ _ := True
  tolerates _ _ := True
  environment_safe := by
    intro milliseconds s t hinv _ hchange
    cases hchange
    exact ⟨⟨counted_tick hinv.1, traceless_tick hinv.2⟩, fun _ ↦ around_tick⟩

section Handlers

variable {k : String}

/-- One command: what it does to any counters the others may have left. -/
theorem attempts_call {operation : Op} {promise : Reply operation → Counters → Prop} {s : Counters}
    (h : ∀ t, Around key w s t → Counted limits key t → Traceless first key x t →
      TakesItsOwn key w operation t → ∀ draw value u,
        perform limits w operation draw t = some (.ok value, u) →
          Counted limits key u ∧ Traceless first key x u ∧ (∀ v, v ≠ w → Around key v t u) ∧
            promise value u)
    (hfault : ∀ draw fault t u, perform limits w operation draw t = some (.error fault, u) → u = t) :
    Safe (attempts limits key x first) w (Returns promise) (call operation) s := by
  refine Safe.call fun t haround hinv ↦ ⟨fun _ ↦ trivial,
    fun htakes draw reply u hperform ↦ ?_⟩
  cases reply with
  | error fault =>
    cases hfault draw fault t u hperform
    exact ⟨hinv, fun v _ ↦ Around.refl key v t, fun _ ↦ trivial, fun _ ↦ trivial⟩
  | ok value =>
    obtain ⟨hcounted, htraceless, hothers, hpromise⟩ :=
      h t haround hinv.1 hinv.2 htakes draw value u hperform
    exact ⟨⟨hcounted, htraceless⟩, hothers, fun _ ↦ hpromise, fun _ ↦ trivial⟩

theorem safe_incr (h : Uncounted key w s) :
    Safe (attempts limits key x first) w (Returns fun (n : ℤ) t ↦
      (limits.maxLoginAttempts < n → Refused key k w t) ∧
        (¬limits.maxLoginAttempts < n → Admitted key k w t)) (call (.incr k)) s := by
  refine attempts_call (fun t haround hcounted htraceless _ draw n u hperform ↦ ?_)
    (fun draw fault t u hperform ↦ ?_)
  · have hown := h.later haround
    rcases perform_incr hperform with ⟨heq, -⟩ | ⟨m, store, hincr, heq, rfl⟩
    · cases heq
    · cases heq
      exact ⟨counted_incr hcounted hown hincr, traceless_incr hcounted htraceless hown hincr,
        fun v hv ↦ around_incr hv, fun hn ↦ refused_incr hown hincr hn,
        fun hn ↦ admitted_incr hown hn⟩
  · rcases perform_incr hperform with ⟨-, heq⟩ | ⟨m, store, -, heq, -⟩
    · exact heq
    · cases heq

theorem safe_decr (h : Refused key k w s) :
    Safe (attempts limits key x first) w (Returns fun _ ↦ Withdrawn key w) (call (.decr k)) s := by
  refine attempts_call (fun t haround hcounted htraceless htakes draw n u hperform ↦ ?_)
    (fun draw fault t u hperform ↦ ?_)
  · have hown := h.later haround
    rcases perform_decr hperform with ⟨heq, -⟩ | ⟨m, -, rfl⟩
    · cases heq
    · exact ⟨counted_decr hcounted hown htakes, traceless_decr hcounted htraceless hown htakes,
        fun v hv ↦ around_decr htakes hv, withdrawn_decr hcounted hown htakes⟩
  · rcases perform_decr hperform with ⟨-, heq⟩ | ⟨m, heq, -⟩
    · exact heq
    · cases heq

theorem safe_expire (h : Admitted key k w s) (seconds : ℕ) :
    Safe (attempts limits key x first) w (Returns fun _ ↦ Settled key k w)
      (call (.expire k seconds)) s := by
  refine attempts_call (fun t haround hcounted htraceless _ draw _ u hperform ↦ ?_)
    (fun _ _ _ _ hperform ↦ nomatch hperform)
  have hown := h.later haround
  have hkeeps := keeps_expire key t k seconds
  cases hperform
  refine ⟨counted_ran hcounted hkeeps, traceless_admitted hcounted htraceless hown rfl rfl rfl rfl
    rfl rfl hkeeps.uncounted, fun v _ ↦ around_ran hkeeps v, hown.ran, fun hcreator ↦ ?_⟩
  obtain rfl := hown.creator hcreator
  exact timed_expire t k seconds

theorem safe_check (h : Settled key k w s) :
    Safe (attempts limits key x first) w (Returns fun _ ↦ Settled key k w) (call .check) s := by
  refine attempts_call (fun t haround hcounted htraceless _ draw _ u hperform ↦ ?_)
    (fun _ _ _ _ hperform ↦ nomatch hperform)
  cases hperform
  exact ⟨hcounted, htraceless, fun v _ ↦ Around.refl key v t, h.later haround⟩

theorem safe_release (h : Settled key k w s) :
    Safe (attempts limits key x first) w (Returns fun _ t ↦ t.creator key = some w → t.Timed key)
      (call (.decrIfExists k)) s := by
  refine attempts_call (fun t haround hcounted htraceless htakes draw _ u hperform ↦ ?_)
    (fun _ _ _ _ hperform ↦ nomatch hperform)
  have hown := h.later haround
  have huncounted : Op.decrIfExists k ≠ .incr key ∧ Op.decrIfExists k ≠ .decr key :=
    ⟨nofun, nofun⟩
  cases hperform
  exact ⟨counted_release hcounted hown.admitted htakes,
    traceless_admitted hcounted htraceless hown.admitted rfl rfl rfl rfl rfl rfl huncounted,
    fun v hv ↦ around_release hv, fun hcreator ↦ timed_release (hown.timed hcreator)⟩

theorem safe_delete (h : Settled key k w s) :
    Safe (attempts limits key x first) w (Returns fun _ t ↦ t.creator key = some w → t.Timed key)
      (call (.delete k)) s := by
  refine attempts_call (fun t haround hcounted htraceless _ draw _ u hperform ↦ ?_)
    (fun _ _ _ _ hperform ↦ nomatch hperform)
  have hown := h.later haround
  have hkeeps := keeps_delete key t k
  cases hperform
  exact ⟨counted_ran hcounted hkeeps, traceless_admitted hcounted htraceless hown.admitted rfl rfl
    rfl rfl rfl rfl hkeeps.uncounted, fun v _ ↦ around_ran hkeeps v,
    fun hcreator ↦ timed_ran (hown.timed hcreator) hkeeps⟩

theorem safe_claim (h : Uncounted key w s) :
    Safe (attempts limits key x first) w (Returns fun admitted t ↦
      (admitted = false → Withdrawn key w t) ∧ (admitted = true → Settled key k w t))
      (claim limits k) s := by
  refine Safe.andThen (safe_incr h) fun n t hcounted ↦ ?_
  split_ifs with hn
  · exact Safe.andThen (safe_decr (hcounted.1 hn)) fun _ u hwithdrawn ↦
      Safe.ret ⟨fun _ ↦ hwithdrawn, fun h ↦ nomatch h⟩
  · exact Safe.andThen (safe_expire (hcounted.2 hn) _) fun _ u hsettled ↦
      Safe.ret ⟨(fun h ↦ nomatch h), fun _ ↦ hsettled⟩

theorem safe_guess {settle : Handler Unit} (h : Uncounted key w s)
    (hsettle : ∀ t, Settled key k w t → Safe (attempts limits key x first) w
      (Returns fun _ u ↦ u.creator key = some w → u.Timed key) settle t) :
    Safe (attempts limits key x first) w (Returns (Ended key w)) (guess (claim limits k) settle) s := by
  refine Safe.andThen (safe_claim h) fun admitted t hclaimed ↦ ?_
  split_ifs with hadmitted
  · exact Safe.ret (hclaimed.1 hadmitted)
  · refine Safe.andThen (safe_check (hclaimed.2 (Bool.eq_true_of_not_eq_false hadmitted)))
      fun right u hsettled ↦ ?_
    split_ifs with hright
    · exact Safe.andThen (hsettle u hsettled) fun _ v htimed ↦ Safe.ret htimed
    · exact Safe.ret hsettled.timed

theorem attempts_handles : (attempts limits key x first).Handles (handler limits) := by
  intro w request s _ _ hidle
  cases request with
  | login username => exact safe_guess hidle fun t ht ↦ safe_release ht
  | loginMfa username => exact safe_guess hidle fun t ht ↦ safe_delete ht
  | accountPassword username => exact safe_guess hidle fun t ht ↦ safe_delete ht
  | setup => exact safe_guess hidle fun t ht ↦ safe_delete ht

end Handlers

/-! ### Every run -/

/-- Nobody has tried yet. -/
def start (now : ℕ) (redis : Redis.Store) : Requests where
  shared :=
    { now := now
      redis := redis
      life := fun _ ↦ 0
      creator := fun _ ↦ none
      claims := fun _ ↦ none
      admitted := []
      refused := []
      log := [] }
  worker := fun _ ↦ none

theorem attempts_start {now : ℕ} {redis : Redis.Store} (hgone : Redis.find redis now key = none) :
    (attempts limits key x redis).Holds (start now redis) := by
  refine Contract.holds_of_idle ⟨⟨fun e he ↦ ?_, fun _ ↦ Nat.zero_le _, (fun _ _ hc ↦ nomatch hc),
    fun hthere ↦ absurd hgone hthere, List.nodup_nil⟩, fun _ ↦ ?_⟩
    (fun w ↦ ⟨rfl, List.not_mem_nil, List.not_mem_nil, (fun h ↦ nomatch h)⟩) (fun _ ↦ rfl)
  · exact absurd (hgone.symm.trans he) (Option.some_ne_none e).symm
  · exact Redis.Lags.refl now redis key

/-- In every run whose attempts take back their own counts, the attempts admitted in one life of a
counter and not given back are within the limit, the counter is not negative, it has a time to live
once all requests are answered, and the commands of the others alone lead to the same counter as with
those of an attempt that was refused. -/
theorem attempt_limit_holds {now : ℕ} {redis : Redis.Store} {events : List Step} {last : Requests}
    (hgone : Redis.find redis now key = none)
    (hrun : run (semantics limits) (handler limits) (start now redis) events = some last)
    (htakes : Meets (semantics limits) (handler limits)
      (fun s event ↦ s.Acts (TakesItsOwn key) event) (start now redis) events) :
    (∀ life, last.shared.holding key life ≤ limits.maxLoginAttempts) ∧
    (∀ e, Redis.find last.shared.redis last.shared.now key = some e →
      ∃ n : ℕ, e.value = .integer n) ∧
    ((∀ w request, Event.start w request ∈ events → ∃ answer, last.answer w = some answer) →
      last.shared.Timed key) ∧
    ∀ x, last.answer x = some .locked → ∀ time, last.shared.now ≤ time →
      Redis.find (replay (others x last.shared.log) redis) time key =
        Redis.find last.shared.redis time key := by
  have hpermits : ∀ x, Meets (semantics limits) (handler limits) (attempts limits key x redis).Permits
      (start now redis) events :=
    fun x ↦ Contract.meets_permits (fun _ _ _ ↦ trivial) (fun _ _ ↦ trivial)
      (fun _ _ _ ↦ trivial) htakes
  have hholds : ∀ x, (attempts limits key x redis).Holds last :=
    fun x ↦ Contract.run_safe attempts_handles (attempts_start hgone) (hpermits x) hrun
  have hcounted := (hholds 0).invariant.1
  refine ⟨hcounted.limit, fun e he ↦ ⟨_, hcounted.entry e he⟩, fun hended e he ↦ ?_,
    fun x hlocked time htime ↦ ?_⟩
  · have hthere : Redis.find last.shared.redis last.shared.now key ≠ none := by
      rw [he]
      exact Option.some_ne_none e
    obtain ⟨w, hcreator⟩ := Option.ne_none_iff_exists'.mp (hcounted.created hthere)
    have hworker : last.worker w ≠ none := by
      intro hidle
      exact ((hholds 0).idle w hidle).creator hcreator
    obtain ⟨request, hmem⟩ := (started_of_worker hrun hworker).resolve_left fun h ↦ h rfl
    obtain ⟨answer, hanswer⟩ := hended w request hmem
    have hend := (hholds 0).ends_of_answer hanswer
    cases answer with
    | locked => exact absurd hcreator (Withdrawn.creator hend)
    | wrong => exact hend hcreator e he
    | right => exact hend hcreator e he
  · have hwithdrawn : Withdrawn key x last.shared := (hholds x).ends_of_answer hlocked
    obtain ⟨c, hclaim, hgranted⟩ := hwithdrawn.claims
    have hlags := (hholds x).invariant.2 fun other hother ↦ by
      rw [hclaim] at hother
      cases hother
      exact hgranted
    rw [Counters.owed, if_neg fun hboth ↦ hwithdrawn.refused hboth.1] at hlags
    exact hlags.find_eq htime

/-! ### A counter that has ended meanwhile -/

def oneTry : Limits where
  maxLoginAttempts := 1
  loginLockoutMinutes := 1
  one_le_attempts := le_rfl
  one_le_minutes := le_rfl
  casefold := id

def noKeys : Redis.Store := fun _ ↦ none

def anna : Request := .login "anna"

def annasKey : String := adminKey oneTry "anna"

/-- One attempt is wrong, and a second one is refused. -/
def twoAttempts (pause : ℕ) : List Step :=
  [.start 1 anna, .start 2 anna, .run 1 false, .run 1 false, .run 2 false, .run 1 false,
    .environment pause, .run 2 false]

/-- Two more attempts of the next minute. -/
def nextMinute : List Step :=
  [.start 3 anna, .start 4 anna, .run 3 false, .run 3 false, .run 3 false, .run 4 false,
    .run 4 false, .run 4 false]

theorem attempt_limit_holds_of_two : ∃ last,
    run (semantics oneTry) (handler oneTry) (start 0 noKeys) (twoAttempts 1000) = some last ∧
    last.answer 2 = some .locked ∧
    (∀ life, last.shared.holding annasKey life ≤ 1) ∧ last.shared.Timed annasKey := by
  have hrun := run_eq_get (show (run (semantics oneTry) (handler oneTry) (start 0 noKeys)
    (twoAttempts 1000)).isSome = true by decide +kernel)
  have hholds := attempt_limit_holds (show Redis.find noKeys 0 annasKey = none from rfl) hrun
    (by decide +kernel)
  refine ⟨_, hrun, by decide +kernel, hholds.1, hholds.2.2.1 fun w request hmem ↦ ?_⟩
  simp only [twoAttempts, List.mem_cons, Event.start.injEq, reduceCtorEq, or_false,
    List.not_mem_nil] at hmem
  rcases hmem with ⟨rfl, -⟩ | ⟨rfl, -⟩
  · exact ⟨.wrong, by decide +kernel⟩
  · exact ⟨.locked, by decide +kernel⟩

/-- The counter expires before the refused attempt takes its count back. It is minus one then, never
expires, and lets two attempts in where one is the limit. -/
theorem refused_attempt_leaves_a_negative_counter :
    (∃ last, run (semantics oneTry) (handler oneTry) (start 0 noKeys) (twoAttempts 60001) = some last ∧
      last.answer 1 = some .wrong ∧ last.answer 2 = some .locked ∧
      Redis.find last.shared.redis last.shared.now annasKey = some ⟨.integer (-1), none⟩ ∧
      Redis.find (replay (others 2 last.shared.log) noKeys) last.shared.now annasKey =
        none) ∧
    ∃ last, run (semantics oneTry) (handler oneTry) (start 0 noKeys)
        (twoAttempts 60001 ++ nextMinute) = some last ∧
      oneTry.maxLoginAttempts < last.shared.holding annasKey 2 := by
  refine ⟨⟨_, run_eq_get (show (run (semantics oneTry) (handler oneTry) (start 0 noKeys)
    (twoAttempts 60001)).isSome = true by decide +kernel), by decide +kernel, by decide +kernel,
    by decide +kernel, by decide +kernel⟩, ?_⟩
  exact ⟨_, run_eq_get (show (run (semantics oneTry) (handler oneTry) (start 0 noKeys)
    (twoAttempts 60001 ++ nextMinute)).isSome = true by decide +kernel), by decide +kernel⟩

end OpenWhistle.RateLimit
