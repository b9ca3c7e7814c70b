import Mathlib.Data.Set.Function

/-!
# Keys that expire

A Redis database, as far as counters and short-lived texts need it. Every command comes with the
time in milliseconds at which the server runs it, and a key whose time is over is not there. Two
databases that agree on a set of keys go on doing so under commands that take the same course on
them, and under commands on other keys.
-/

set_option autoImplicit false
set_option relaxedAutoImplicit false

namespace Redis

/-- A number, or a text that is none. -/
inductive Value
  | integer (n : ℤ)
  | text (value : String)
  deriving DecidableEq

structure Entry where
  value : Value
  /-- `none` for a key that stays. -/
  expiresAt : Option ℕ
  deriving DecidableEq

/-- An entry that has not expired: a server still keeps the key during the millisecond in which its
time is over. -/
def Entry.live (entry : Entry) (now : ℕ) : Bool :=
  match entry.expiresAt with
  | some time => decide (now ≤ time)
  | none => true

abbrev Store := String → Option Entry

/-- The entry a command finds. -/
def find (s : Store) (now : ℕ) (key : String) : Option Entry := (s key).filter fun e ↦ e.live now

def get (s : Store) (now : ℕ) (key : String) : Option String :=
  match find s now key with
  | some ⟨.integer n, _⟩ => some (toString n)
  | some ⟨.text value, _⟩ => some value
  | none => none

/-- SET with EX. -/
def set (s : Store) (now : ℕ) (key value : String) (seconds : ℕ) : Store :=
  Function.update s key (some ⟨.text value, some (now + 1000 * seconds)⟩)

/-- DEL. -/
def delete (s : Store) (key : String) : Store := Function.update s key none

/-- INCR leaves the expiry as it is, and fails on a text: `none`. -/
def incr (s : Store) (now : ℕ) (key : String) : Option (ℤ × Store) :=
  match find s now key with
  | none => some (1, Function.update s key (some ⟨.integer 1, none⟩))
  | some ⟨.integer n, time⟩ => some (n + 1, Function.update s key (some ⟨.integer (n + 1), time⟩))
  | some ⟨.text _, _⟩ => none

/-- DECR, likewise. -/
def decr (s : Store) (now : ℕ) (key : String) : Option (ℤ × Store) :=
  match find s now key with
  | none => some (-1, Function.update s key (some ⟨.integer (-1), none⟩))
  | some ⟨.integer n, time⟩ => some (n - 1, Function.update s key (some ⟨.integer (n - 1), time⟩))
  | some ⟨.text _, _⟩ => none

/-- EXPIRE does nothing to a key that is not there. -/
def expire (s : Store) (now : ℕ) (key : String) (seconds : ℕ) : Store :=
  match find s now key with
  | none => s
  | some entry =>
    Function.update s key (some { entry with expiresAt := some (now + 1000 * seconds) })

/-- TTL rounds to the nearest second; `-2` for no key, `-1` for one that stays. -/
def ttl (s : Store) (now : ℕ) (key : String) : ℤ :=
  match find s now key with
  | none => -2
  | some ⟨_, none⟩ => -1
  | some ⟨_, some time⟩ => ((time - now + 500) / 1000 : ℕ)

/-! ### A key that was just set -/

theorem get_set_self {s : Store} {now later seconds : ℕ} {key value : String}
    (hlater : later ≤ now + 1000 * seconds) :
    get (set s now key value seconds) later key = some value := by
  have hfind : find (set s now key value seconds) later key =
      some ⟨.text value, some (now + 1000 * seconds)⟩ := by
    simp [find, set, Entry.live, hlater]
  rw [get, hfind]

theorem set_self (s : Store) (now : ℕ) (key value : String) (seconds : ℕ) :
    set s now key value seconds key = some ⟨.text value, some (now + 1000 * seconds)⟩ :=
  Function.update_self ..

theorem set_of_ne {s : Store} {now seconds : ℕ} {key other value : String} (hne : key ≠ other) :
    set s now other value seconds key = s key :=
  Function.update_of_ne hne ..

theorem delete_self (s : Store) (key : String) : delete s key key = none := Function.update_self ..

theorem delete_of_ne {s : Store} {key other : String} (hne : key ≠ other) :
    delete s other key = s key :=
  Function.update_of_ne hne ..

/-- A key that stays is found. -/
theorem find_of_stays {s : Store} {key : String} {value : Value} (now : ℕ)
    (h : s key = some ⟨value, none⟩) : find s now key = some ⟨value, none⟩ := by
  rw [find, h]
  rfl

/-- A text that is read is the value of an entry. -/
theorem exists_of_get {s : Store} {now : ℕ} {key text : String} (h : get s now key = some text) :
    ∃ e, s key = some e ∧ (∀ value, e.value = .text value → value = text) := by
  unfold get at h
  cases hfind : find s now key with
  | none =>
    rw [hfind] at h
    cases h
  | some entry =>
    refine ⟨entry, (Option.filter_eq_some_iff.mp hfind).1, fun value hvalue ↦ ?_⟩
    obtain ⟨held, time⟩ := entry
    subst hvalue
    rw [hfind] at h
    exact Option.some.inj h

/-- A key that was set holds its text, or has expired. -/
theorem eq_of_get_set {s : Store} {now time seconds : ℕ} {key value text : String}
    (h : get (set s now key value seconds) time key = some text) : text = value := by
  unfold get at h
  cases hfind : find (set s now key value seconds) time key with
  | none =>
    rw [hfind] at h
    cases h
  | some entry =>
    have hentry : set s now key value seconds key = some entry :=
      (Option.filter_eq_some_iff.mp hfind).1
    rw [set_self, Option.some.injEq] at hentry
    subst hentry
    rw [hfind] at h
    exact (Option.some.inj h).symm

theorem get_congr {s t : Store} {key : String} (h : t key = s key) (now : ℕ) :
    get t now key = get s now key := by
  unfold get find
  rw [h]

theorem get_delete_of_ne {s : Store} {now : ℕ} {key other : String} (hne : key ≠ other) :
    get (delete s other) now key = get s now key := by
  unfold get find delete
  rw [Function.update_of_ne hne]

/-! ### Keys a command does not name -/

theorem expire_of_ne {s : Store} {now seconds : ℕ} {key other : String} (hne : key ≠ other) :
    expire s now other seconds key = s key := by
  unfold expire
  cases find s now other with
  | none => rfl
  | some entry => exact Function.update_of_ne hne ..

theorem incr_of_ne {s t : Store} {now : ℕ} {n : ℤ} {key other : String} (hne : key ≠ other)
    (hincr : incr s now other = some (n, t)) : t key = s key := by
  unfold incr at hincr
  cases hfind : find s now other with
  | none =>
    rw [hfind] at hincr
    cases hincr
    exact Function.update_of_ne hne ..
  | some entry =>
    obtain ⟨value, time⟩ := entry
    rw [hfind] at hincr
    cases value with
    | integer n =>
      cases hincr
      exact Function.update_of_ne hne ..
    | text value => cases hincr

/-- A key is gone once its time is over. -/
theorem find_eq_none_of_lt {s : Store} {now deadline : ℕ} {key : String}
    (hends : ∀ e, s key = some e → e.expiresAt = some deadline) (hlate : deadline < now) :
    find s now key = none := by
  refine Option.filter_eq_none_iff.mpr fun e hkey hlive ↦ ?_
  rw [Entry.live, hends e hkey] at hlive
  exact absurd (of_decide_eq_true hlive) (Nat.not_le.mpr hlate)

/-- A key that is gone stays gone. -/
theorem find_eq_none_of_find {s : Store} {now later : ℕ} {key : String} (h : find s now key = none)
    (hlater : now ≤ later) : find s later key = none := by
  refine Option.filter_eq_none_iff.mpr fun e hkey hlive ↦ ?_
  refine Option.filter_eq_none_iff.mp h e hkey ?_
  unfold Entry.live at hlive ⊢
  cases htime : e.expiresAt with
  | none => rfl
  | some time =>
    rw [htime] at hlive
    exact decide_eq_true (hlater.trans (of_decide_eq_true hlive))

/-- A key is there until its time is over. -/
theorem find_eq_some {s : Store} {now time : ℕ} {key : String} {e : Entry} (hkey : s key = some e)
    (htime : e.expiresAt = some time) (hnow : now ≤ time) : find s now key = some e := by
  have hlive : e.live now = true := by
    rw [Entry.live, htime]
    exact decide_eq_true hnow
  rw [find, hkey]
  exact Option.filter_eq_some_iff.mpr ⟨rfl, hlive⟩

/-- What TTL tells is short of the time a key has left by half a second at most. -/
theorem le_ttl {s : Store} {now time : ℕ} {key : String} {e : Entry} (hkey : s key = some e)
    (htime : e.expiresAt = some time) :
    time ≤ now + 1000 * (max 1 (ttl s now key)).toNat + 500 := by
  by_cases hnow : now ≤ time
  · have hfind := find_eq_some hkey htime hnow
    obtain ⟨value, expiresAt⟩ := e
    cases htime
    have httl : ttl s now key = ((time - now + 500) / 1000 : ℕ) := by
      rw [ttl, hfind]
    rw [httl]
    omega
  · omega

/-! ### Databases that agree on a set of keys -/

variable {keys : Set String} {s₁ s₂ : Store} {now : ℕ} {key : String}

theorem eqOn_update (h : Set.EqOn s₁ s₂ keys) (key : String) (entry : Option Entry) :
    Set.EqOn (Function.update s₁ key entry) (Function.update s₂ key entry) keys := by
  intro k hk
  by_cases heq : k = key
  · rw [heq, Function.update_self, Function.update_self]
  · rw [Function.update_of_ne heq, Function.update_of_ne heq]
    exact h hk

theorem eqOn_update_left (h : Set.EqOn s₁ s₂ keys) (hkey : key ∉ keys) (entry : Option Entry) :
    Set.EqOn (Function.update s₁ key entry) s₂ keys := by
  intro k hk
  rw [Function.update_of_ne (ne_of_mem_of_not_mem hk hkey)]
  exact h hk

theorem eqOn_set_left (h : Set.EqOn s₁ s₂ keys) (hkey : key ∉ keys) (value : String)
    (seconds : ℕ) : Set.EqOn (set s₁ now key value seconds) s₂ keys :=
  eqOn_update_left h hkey _

theorem eqOn_delete_left (h : Set.EqOn s₁ s₂ keys) (hkey : key ∉ keys) :
    Set.EqOn (delete s₁ key) s₂ keys :=
  eqOn_update_left h hkey none

theorem find_congr (h : Set.EqOn s₁ s₂ keys) (hkey : key ∈ keys) :
    find s₁ now key = find s₂ now key := by
  rw [find, find, h hkey]

theorem ttl_congr (h : Set.EqOn s₁ s₂ keys) (hkey : key ∈ keys) :
    ttl s₁ now key = ttl s₂ now key := by
  rw [ttl, ttl, find_congr h hkey]

theorem expire_congr (h : Set.EqOn s₁ s₂ keys) (hkey : key ∈ keys) (now seconds : ℕ) :
    Set.EqOn (expire s₁ now key seconds) (expire s₂ now key seconds) keys := by
  rw [expire, expire, find_congr h hkey]
  cases find s₂ now key with
  | none => exact h
  | some entry => exact eqOn_update h key _

/-- INCR fails on both, or counts the same on both. -/
theorem incr_congr (h : Set.EqOn s₁ s₂ keys) (hkey : key ∈ keys) :
    incr s₁ now key = none ∧ incr s₂ now key = none ∨
      ∃ n s₁' s₂', incr s₁ now key = some (n, s₁') ∧ incr s₂ now key = some (n, s₂') ∧
        Set.EqOn s₁' s₂' keys := by
  rw [incr, incr, find_congr h hkey]
  cases find s₂ now key with
  | none => exact .inr ⟨_, _, _, rfl, rfl, eqOn_update h key _⟩
  | some entry =>
    obtain ⟨value, time⟩ := entry
    cases value with
    | integer n => exact .inr ⟨_, _, _, rfl, rfl, eqOn_update h key _⟩
    | text value => exact .inl ⟨rfl, rfl⟩

/-! ### Counting up and down -/

/-- What INCR and DECR make of the keys. -/
def bump (d : ℤ) (s : Store) (now : ℕ) (key : String) : Store :=
  match find s now key with
  | none => Function.update s key (some ⟨.integer d, none⟩)
  | some ⟨.integer n, time⟩ => Function.update s key (some ⟨.integer (n + d), time⟩)
  | some ⟨.text _, _⟩ => s

theorem incr_eq_bump (s : Store) (now : ℕ) (key : String) :
    ((incr s now key).map Prod.snd).getD s = bump 1 s now key := by
  unfold incr bump
  cases find s now key with
  | none => rfl
  | some entry =>
    obtain ⟨value, time⟩ := entry
    cases value with
    | integer n => rfl
    | text value => rfl

theorem decr_eq_bump (s : Store) (now : ℕ) (key : String) :
    ((decr s now key).map Prod.snd).getD s = bump (-1) s now key := by
  unfold decr bump
  cases find s now key with
  | none => rfl
  | some entry =>
    obtain ⟨value, time⟩ := entry
    cases value with
    | integer n => rfl
    | text value => rfl

/-- INCR begins with one, or counts one more. -/
theorem incr_cases {s t : Store} {now : ℕ} {n : ℤ} {key : String}
    (h : incr s now key = some (n, t)) :
    find s now key = none ∧ n = 1 ∨
      ∃ m time, find s now key = some ⟨.integer m, time⟩ ∧ n = m + 1 := by
  unfold incr at h
  cases hfind : find s now key with
  | none =>
    rw [hfind] at h
    cases h
    exact .inl ⟨rfl, rfl⟩
  | some entry =>
    obtain ⟨value, time⟩ := entry
    rw [hfind] at h
    cases value with
    | integer m =>
      cases h
      exact .inr ⟨m, time, rfl, rfl⟩
    | text value => cases h

theorem eq_of_find {s : Store} {now : ℕ} {key : String} {e : Entry} (h : find s now key = some e) :
    s key = some e :=
  (Option.filter_eq_some_iff.mp h).1

theorem find_of_live {s : Store} {now : ℕ} {key : String} {e : Entry} (hkey : s key = some e)
    (hlive : e.live now = true) : find s now key = some e := by
  rw [find, hkey]
  exact Option.filter_eq_some_iff.mpr ⟨rfl, hlive⟩

/-- A key that is there was there. -/
theorem find_of_later {s : Store} {now time : ℕ} {key : String} {e : Entry}
    (h : find s time key = some e) (hlater : now ≤ time) : find s now key = some e := by
  cases hfind : find s now key with
  | none =>
    rw [find_eq_none_of_find hfind hlater] at h
    cases h
  | some other => rw [← eq_of_find hfind, eq_of_find h]

theorem find_delete (s : Store) (now : ℕ) (key : String) : find (delete s key) now key = none := by
  rw [find, delete, Function.update_self]
  rfl

section Bump

variable {d n : ℤ} {s : Store} {now : ℕ} {key other : String} {time : Option ℕ}

theorem bump_of_ne (hne : key ≠ other) : bump d s now other key = s key := by
  unfold bump
  cases find s now other with
  | none => exact Function.update_of_ne hne ..
  | some entry =>
    obtain ⟨value, time⟩ := entry
    cases value with
    | integer n => exact Function.update_of_ne hne ..
    | text value => rfl

theorem bump_of_none (h : find s now key = none) :
    bump d s now key key = some ⟨.integer d, none⟩ := by
  rw [bump, h]
  exact Function.update_self ..

theorem bump_of_integer (h : find s now key = some ⟨.integer n, time⟩) :
    bump d s now key key = some ⟨.integer (n + d), time⟩ := by
  rw [bump, h]
  exact Function.update_self ..

/-- Counting leaves the expiry as it is. -/
theorem find_bump {e : Entry} (h : find s now key = some e) :
    ∃ value, find (bump d s now key) now key = some ⟨value, e.expiresAt⟩ := by
  obtain ⟨value, time⟩ := e
  have hlive : Entry.live ⟨value, time⟩ now = true := (Option.filter_eq_some_iff.mp h).2
  cases value with
  | integer n => exact ⟨_, find_of_live (bump_of_integer h) hlive⟩
  | text value =>
    refine ⟨.text value, ?_⟩
    rw [bump, h]
    exact h

end Bump

/-- EXPIRE on a key that is there. -/
theorem expire_of_find {s : Store} {now seconds : ℕ} {key : String} {e : Entry}
    (h : find s now key = some e) :
    expire s now key seconds key = some { e with expiresAt := some (now + 1000 * seconds) } := by
  rw [expire, h]
  exact Function.update_self ..

/-! ### A counter that lags behind another -/

/-- An entry whose number is smaller. -/
def Entry.less (k : ℤ) (entry : Entry) : Entry :=
  match entry.value with
  | .integer n => { entry with value := .integer (n - k) }
  | .text _ => entry

theorem live_less (k : ℤ) (entry : Entry) (now : ℕ) : (entry.less k).live now = entry.live now := by
  unfold Entry.less Entry.live
  cases entry.value with
  | integer n => rfl
  | text value => rfl

theorem less_zero (entry : Entry) : entry.less 0 = entry := by
  obtain ⟨value, time⟩ := entry
  cases value with
  | integer n => exact congrArg (fun m ↦ Entry.mk (.integer m) time) (Int.sub_zero n)
  | text value => rfl

/-- On one key, the second database is the first one but for a number that is smaller by `k`, or the
key is on neither. -/
def Lags (k : ℤ) (now : ℕ) (s t : Store) (key : String) : Prop :=
  find s now key = none ∧ find t now key = none ∨
    ∃ e, s key = some e ∧ t key = some (e.less k)

section Lags

variable {k d : ℤ} {s t : Store} {now time : ℕ} {key other : String}

theorem Lags.refl (now : ℕ) (s : Store) (key : String) : Lags 0 now s s key := by
  cases hkey : s key with
  | none =>
    have hnone : find s now key = none := by
      rw [find, hkey]
      rfl
    exact .inl ⟨hnone, hnone⟩
  | some e => exact .inr ⟨e, hkey, by rw [hkey, less_zero]⟩

theorem Lags.later (h : Lags k now s t key) (hlater : now ≤ time) : Lags k time s t key :=
  h.imp_left fun hnone ↦
    ⟨find_eq_none_of_find hnone.1 hlater, find_eq_none_of_find hnone.2 hlater⟩

/-- Commands on other keys change nothing. -/
theorem Lags.of_eq {s' t' : Store} (h : Lags k now s t key) (hs : s' key = s key)
    (ht : t' key = t key) : Lags k now s' t' key := by
  unfold Lags find at h ⊢
  rw [hs, ht]
  exact h

/-- What a command finds on both. -/
theorem Lags.cases (h : Lags k now s t key) :
    find s now key = none ∧ find t now key = none ∨
      ∃ e, find s now key = some e ∧ find t now key = some (e.less k) := by
  rcases h with hnone | ⟨e, hs, ht⟩
  · exact .inl hnone
  · cases hlive : e.live now with
    | true => exact .inr ⟨e, find_of_live hs hlive, find_of_live ht ((live_less k e now).trans hlive)⟩
    | false =>
      refine .inl ⟨?_, ?_⟩
      · rw [find, hs]
        exact Option.filter_eq_none_iff.mpr fun other hother ↦ by
          cases hother
          exact Bool.eq_false_iff.mp hlive
      · rw [find, ht]
        exact Option.filter_eq_none_iff.mpr fun other hother ↦ by
          cases hother
          exact Bool.eq_false_iff.mp ((live_less k e now).trans hlive)

/-- Two databases that do not lag agree on the key from now on. -/
theorem Lags.find_eq (h : Lags 0 now s t key) (hlater : now ≤ time) :
    find t time key = find s time key := by
  rcases (h.later hlater).cases with ⟨hs, ht⟩ | ⟨e, hs, ht⟩
  · rw [hs, ht]
  · rw [hs, ht, less_zero]

/-- Counting begins anew on both. -/
theorem Lags.bump_of_none (h : Lags k now s t key) (hnone : find s now key = none) :
    Lags 0 now (bump d s now key) (bump d t now key) key := by
  rcases h.cases with ⟨hs, ht⟩ | ⟨e, hs, -⟩
  · refine .inr ⟨_, Redis.bump_of_none hs, ?_⟩
    rw [less_zero]
    exact Redis.bump_of_none ht
  · rw [hs] at hnone
    cases hnone

/-- Counting on both keeps the distance. -/
theorem Lags.bump (h : Lags k now s t key) (hsome : find s now key ≠ none) :
    Lags k now (bump d s now key) (bump d t now key) key := by
  rcases h.cases with ⟨hs, -⟩ | ⟨⟨value, time⟩, hs, ht⟩
  · exact absurd hs hsome
  · cases value with
    | integer n =>
      refine .inr ⟨_, bump_of_integer hs, ?_⟩
      rw [bump_of_integer ht]
      exact congrArg (fun m ↦ some (Entry.mk (.integer m) time)) (by omega)
    | text value =>
      refine h.of_eq ?_ ?_
      · rw [Redis.bump, hs]
      · rw [Redis.bump, ht]
        rfl

/-- Counting on the first one only changes the distance. -/
theorem Lags.bump_left (h : Lags k now s t key) (hsome : find s now key ≠ none) :
    Lags (k + d) now (Redis.bump d s now key) t key := by
  rcases h.cases with ⟨hs, -⟩ | ⟨⟨value, time⟩, hs, ht⟩
  · exact absurd hs hsome
  · cases value with
    | integer n =>
      refine .inr ⟨_, bump_of_integer hs, ?_⟩
      rw [eq_of_find ht]
      exact congrArg (fun m ↦ some (Entry.mk (.integer m) time)) (by omega)
    | text value =>
      refine .inr ⟨⟨.text value, time⟩, ?_, eq_of_find ht⟩
      rw [Redis.bump, hs]
      exact eq_of_find hs

theorem Lags.expire (h : Lags k now s t key) (seconds : ℕ) :
    Lags k now (expire s now key seconds) (expire t now key seconds) key := by
  rcases h.cases with ⟨hs, ht⟩ | ⟨⟨value, time⟩, hs, ht⟩
  · rw [Redis.expire, Redis.expire, hs, ht]
    exact h
  · refine .inr ⟨_, expire_of_find hs, ?_⟩
    rw [expire_of_find ht]
    cases value with
    | integer n => rfl
    | text value => rfl

theorem Lags.delete (k : ℤ) (now : ℕ) (s t : Store) (key : String) :
    Lags k now (delete s key) (delete t key) key :=
  .inl ⟨find_delete s now key, find_delete t now key⟩

end Lags

end Redis
