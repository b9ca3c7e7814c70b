import OpenWhistle.Foundation.Machine
import OpenWhistle.Foundation.Marks
import Mathlib

/-!
# Password spraying

Every failed password counts on the key of its minute, and each of these keys lives for the minutes of
the window and one more. Then the keys of the window are read and summed, and at the threshold an
alert is raised, unless there is a flag that the last alert set for the time of one window.

The minute is read from the clock before the failure is counted, and the counts are read after it: a
failure may count in its minute when later ones have been counted already, and it does not see these.
Where this does not happen, and a failure has read the counts before the next minute is over, the sum is
exactly what was counted in the window, and the threshold is not missed.
-/

set_option autoImplicit false
set_option relaxedAutoImplicit false

namespace OpenWhistle.RateLimit.Spraying

/-! ### The settings and the keys -/

structure Settings where
  /-- `admin_failed_login_alert_threshold`. -/
  threshold : ℤ
  /-- `admin_failed_login_alert_window_minutes`. -/
  minutes : ℕ
  one_le_minutes : 1 ≤ minutes

/-- `_SPRAY_PREFIX`. -/
def sprayPrefix : String := "openwhistle:admin_failed_logins:"

/-- `_SPRAY_ALERTED`. -/
def sprayAlerted : String := "openwhistle:admin_spray_alerted"

/-- The key of a minute. -/
def bucket (minute : ℤ) : String := sprayPrefix ++ toString minute

theorem bucket_injective {minute other : ℤ} (h : bucket minute = bucket other) : minute = other := by
  have hlist := congrArg String.toList h
  unfold bucket at hlist
  rw [String.toList_append, String.toList_append] at hlist
  exact Int.repr_injective (String.toList_injective (List.append_cancel_left hlist))

theorem bucket_ne_sprayAlerted (minute : ℤ) : bucket minute ≠ sprayAlerted := by
  intro h
  have hlist := congrArg (fun key ↦ key.toList.take 19) h
  unfold bucket at hlist
  rw [String.toList_append, List.take_append_of_le_length (by decide)] at hlist
  revert hlist
  decide

variable (settings : Settings)

/-- `range(now_minute - minutes + 1, now_minute + 1)`. -/
def window (minute : ℤ) : List ℤ :=
  (List.range settings.minutes).map fun i : ℕ ↦ minute - settings.minutes + 1 + (i : ℤ)

theorem mem_window {minute m : ℤ} :
    m ∈ window settings minute ↔ minute - settings.minutes < m ∧ m ≤ minute := by
  unfold window
  simp only [List.mem_map, List.mem_range]
  constructor
  · rintro ⟨i, hi, rfl⟩
    omega
  · intro h
    exact ⟨(m - (minute - settings.minutes + 1)).toNat, by omega, by omega⟩

theorem nodup_window (minute : ℤ) : (window settings minute).Nodup :=
  List.nodup_range.map fun i j hij ↦ by simpa using hij

/-- How many of the failures were counted in the minutes of a window. -/
def inWindow (minute : ℤ) (counted : List ℤ) : ℕ :=
  counted.countP fun m ↦ decide (minute - settings.minutes < m ∧ m ≤ minute)

/-- `int(c)` of what INCR has left. -/
def int : Redis.Value → ℤ
  | .integer n => n
  | .text value => value.toInt?.getD 0

/-- MGET, and the sum of what there is. -/
def total (s : Redis.Store) (now : ℕ) (minute : ℤ) : ℤ :=
  ((window settings minute).map fun m ↦
    ((Redis.find s now (bucket m)).map fun entry ↦ int entry.value).getD 0).sum

/-! ### Failed sign-ins -/

/-- How far `record_instance_login_failure` is, with the minute it has read. -/
inductive Phase
  | waiting
  | timed (nowMinute : ℤ)
  | incremented (nowMinute : ℤ)
  | expiring (nowMinute : ℤ)
  | reached (nowMinute : ℤ)
  | returned (alert : Bool)
  deriving DecidableEq

/-- The minute a failure has read and still needs. -/
def Phase.minute : Phase → Option ℤ
  | .timed m => some m
  | .incremented m => some m
  | .expiring m => some m
  | .reached m => some m
  | _ => none

/-- The audit entry and the notification of `_password_failed`, and when they were called for. -/
structure Alert where
  time : ℕ
  failedAttemptsAtLeast : ℤ
  windowMinutes : ℕ
  deriving DecidableEq

/-- A failure that has returned: whether the failures of the current minute and of the rest of its
window had reached the threshold when it was counted, and when it returned. -/
structure Ending where
  due : Bool
  time : ℕ
  deriving DecidableEq

/-- What a failure has summed, and what was counted by then. -/
structure Reading where
  minute : ℤ
  total : ℤ
  counted : List ℤ
  deriving DecidableEq

/-- The clock and Redis, and the failed sign-ins of all replicas. What no command reads: the minutes of
the failures counted so far, and what has become of the others. -/
structure State where
  now : ℕ
  redis : Redis.Store
  phase : ℕ → Phase
  counted : List ℤ
  due : ℕ → Bool
  readings : List Reading
  alerts : List Alert
  endings : List Ending

/-- At any time, with nothing counted. -/
def initial (now : ℕ) : State :=
  ⟨now, fun _ ↦ none, fun _ ↦ .waiting, [], fun _ ↦ false, [], [], []⟩

/-- `int(time.time() // 60)`. -/
def minuteOf (now : ℕ) : ℤ := ((now / 60000 : ℕ) : ℤ)

namespace State

variable (s : State)

def goOn (w : ℕ) (phase : Phase) : State := { s with phase := Function.update s.phase w phase }

def finish (w : ℕ) (alert : Bool) : State :=
  { s.goOn w (.returned alert) with endings := ⟨s.due w, s.now⟩ :: s.endings }

def incr (w : ℕ) (minute : ℤ) : State :=
  { s.goOn w (.incremented minute) with
    redis := ((Redis.incr s.redis s.now (bucket minute)).map Prod.snd).getD s.redis
    counted := minute :: s.counted
    due := Function.update s.due w
      (decide (settings.threshold ≤ inWindow settings (minuteOf s.now) (minute :: s.counted))) }

def expire (w : ℕ) (minute : ℤ) : State :=
  { s.goOn w (.expiring minute) with
    redis := Redis.expire s.redis s.now (bucket minute) ((settings.minutes + 1) * 60) }

def read (minute : ℤ) : State :=
  { s with readings := ⟨minute, total settings s.redis s.now minute, s.counted⟩ :: s.readings }

def raiseAlert (redis : Redis.Store) : State :=
  { s with
    redis := redis
    alerts := ⟨s.now, settings.threshold, settings.minutes⟩ :: s.alerts }

end State

/-- The clock, or the next command of a failed sign-in. -/
inductive Event
  | pass (milliseconds : ℕ)
  | start (w : ℕ)
  | incr (w : ℕ)
  | expire (w : ℕ)
  | mget (w : ℕ)
  | set (w : ℕ)

/-- `record_instance_login_failure` from one command to the next, and `_password_failed` with its
answer. -/
def step (s : State) : Event → Option State
  | .pass milliseconds => some { s with now := s.now + milliseconds }
  | .start w =>
    match s.phase w with
    | .waiting =>
      if settings.threshold ≤ 0 then some (s.goOn w (.returned false))
      else some (s.goOn w (.timed (minuteOf s.now)))
    | _ => none
  | .incr w =>
    match s.phase w with
    | .timed minute => some (s.incr settings w minute)
    | _ => none
  | .expire w =>
    match s.phase w with
    | .incremented minute => some (s.expire settings w minute)
    | _ => none
  | .mget w =>
    match s.phase w with
    | .expiring minute =>
      if total settings s.redis s.now minute < settings.threshold then
        some ((s.read settings minute).finish w false)
      else some ((s.read settings minute).goOn w (.reached minute))
    | _ => none
  | .set w =>
    match s.phase w with
    | .reached _ =>
      match Redis.setNx s.redis s.now sprayAlerted "1" (settings.minutes * 60) with
      | none => some (s.finish w false)
      | some redis => some ((s.raiseAlert settings redis).finish w true)
    | _ => none

/-! ### Windows -/

theorem sum_ite_eq {l : List ℤ} (hnodup : l.Nodup) (a : ℤ) :
    (l.map fun z ↦ if a = z then (1 : ℤ) else 0).sum = if a ∈ l then 1 else 0 := by
  induction l with
  | nil => rfl
  | cons z rest ih =>
    obtain ⟨hnot, hrest⟩ := List.nodup_cons.mp hnodup
    rw [List.map_cons, List.sum_cons, ih hrest]
    by_cases heq : a = z
    · subst heq
      simp [hnot]
    · simp [heq]

/-- The numbers of the minutes of a window add up to the number of the window: each failure counts
once in every window that contains its minute. -/
theorem sum_count_window (minute : ℤ) (counted : List ℤ) :
    ((window settings minute).map fun m ↦ (counted.count m : ℤ)).sum =
      inWindow settings minute counted := by
  induction counted with
  | nil => simp [inWindow]
  | cons m rest ih =>
    have hsplit : ((window settings minute).map fun z ↦ ((m :: rest).count z : ℤ)).sum =
        ((window settings minute).map fun z ↦ (rest.count z : ℤ)).sum +
          ((window settings minute).map fun z ↦ if m = z then (1 : ℤ) else 0).sum := by
      rw [← List.sum_map_add]
      refine congrArg List.sum (List.map_congr_left fun z _ ↦ ?_)
      rw [List.count_cons]
      by_cases heq : m = z
      · simp [heq]
      · simp [heq]
    rw [hsplit, ih, sum_ite_eq (nodup_window settings minute)]
    unfold inWindow
    rw [List.countP_cons]
    by_cases hmem : m ∈ window settings minute
    · simp [hmem, (mem_window settings).mp hmem]
    · have hnot := mt (mem_window settings).mpr hmem
      simp [hmem, hnot]

theorem inWindow_le_cons (minute m : ℤ) (counted : List ℤ) :
    inWindow settings minute counted ≤ inWindow settings minute (m :: counted) :=
  List.Sublist.countP_le (List.sublist_cons_self m counted)

/-! ### The buckets -/

/-- The key of a minute holds what was counted in it, until the minute and the window and one more
minute are over. -/
def Bucket (s : State) (m : ℤ) : Prop :=
  m ∉ s.counted ∧ s.redis (bucket m) = none ∨
    ∃ k expiresAt, s.redis (bucket m) = some ⟨.integer k, expiresAt⟩ ∧
      (∀ e : ℕ, expiresAt = some e → 60000 * (m + settings.minutes + 1) ≤ e) ∧
      ((s.now : ℤ) < 60000 * (m + settings.minutes + 1) → k = s.counted.count m)

variable {settings} {s : State} {m : ℤ}

theorem Bucket.congr {t : State} (h : Bucket settings s m) (hnow : s.now ≤ t.now)
    (hredis : t.redis (bucket m) = s.redis (bucket m))
    (hcount : t.counted.count m = s.counted.count m) : Bucket settings t m := by
  rcases h with ⟨hnot, hkey⟩ | ⟨k, expiresAt, hkey, hexpires, hvalue⟩
  · left
    rw [← List.count_eq_zero] at hnot ⊢
    exact ⟨hcount.trans hnot, hredis.trans hkey⟩
  · right
    refine ⟨k, expiresAt, hredis.trans hkey, hexpires, fun hearly ↦ ?_⟩
    rw [hcount]
    exact hvalue (by omega)

/-- What MGET finds at a time when nothing counted in the minute can have expired. -/
theorem Bucket.find_eq (h : Bucket settings s m)
    (hearly : (s.now : ℤ) < 60000 * (m + settings.minutes + 1)) :
    ((Redis.find s.redis s.now (bucket m)).map fun entry ↦ int entry.value).getD 0 =
      s.counted.count m := by
  rcases h with ⟨hnot, hkey⟩ | ⟨k, expiresAt, hkey, hexpires, hvalue⟩
  · rw [Redis.find, hkey, List.count_eq_zero.mpr hnot]
    rfl
  · have hfind : Redis.find s.redis s.now (bucket m) = some ⟨.integer k, expiresAt⟩ := by
      cases expiresAt with
      | none => exact Redis.find_of_stays s.now hkey
      | some e =>
        have := hexpires e rfl
        exact Redis.find_eq_some hkey rfl (by omega)
    rw [hfind]
    exact hvalue hearly

/-- The sum of a failure that reads before the next minute is over. -/
theorem total_eq (h : ∀ m, Bucket settings s m) {minute : ℤ}
    (hearly : (s.now : ℤ) < 60000 * (minute + 2)) :
    total settings s.redis s.now minute = inWindow settings minute s.counted := by
  rw [← sum_count_window]
  unfold total
  refine congrArg List.sum (List.map_congr_left fun z hz ↦ (h z).find_eq ?_)
  have := ((mem_window settings).mp hz).1
  omega

/-- What is found on the key of a minute. -/
theorem Bucket.cases (h : Bucket settings s m) :
    Redis.find s.redis s.now (bucket m) = none ∨
      ∃ k expiresAt, Redis.find s.redis s.now (bucket m) = some ⟨.integer k, expiresAt⟩ ∧
        (∀ e : ℕ, expiresAt = some e → 60000 * (m + settings.minutes + 1) ≤ e) ∧
        ((s.now : ℤ) < 60000 * (m + settings.minutes + 1) → k = s.counted.count m) := by
  cases hfind : Redis.find s.redis s.now (bucket m) with
  | none => exact .inl rfl
  | some entry =>
    right
    rcases h with ⟨-, hkey⟩ | ⟨k, expiresAt, hkey, hexpires, hvalue⟩
    · rw [Redis.eq_of_find hfind] at hkey
      cases hkey
    · rw [Redis.eq_of_find hfind] at hkey
      exact ⟨k, expiresAt, hkey, hexpires, hvalue⟩

theorem Bucket.incr (h : Bucket settings s m) (w : ℕ) (minute : ℤ) :
    Bucket settings (s.incr settings w minute) m := by
  have hredis : (s.incr settings w minute).redis = Redis.bump 1 s.redis s.now (bucket minute) :=
    Redis.incr_eq_bump ..
  by_cases heq : m = minute
  · subst heq
    right
    have hcount : (s.incr settings w m).counted.count m = s.counted.count m + 1 :=
      List.count_cons_self
    rw [hredis, hcount]
    rcases h.cases with hnone | ⟨k, expiresAt, hfind, hexpires, hvalue⟩
    · refine ⟨1, none, Redis.bump_of_none hnone, fun e he ↦ absurd he (Option.some_ne_none e).symm,
        fun hearly ↦ ?_⟩
      -- What is not there has not been counted.
      have hzero := h.find_eq hearly
      rw [hnone, Option.map_none, Option.getD_none] at hzero
      omega
    · refine ⟨k + 1, expiresAt, Redis.bump_of_integer hfind, hexpires, fun hearly ↦ ?_⟩
      rw [hvalue hearly]
      rfl
  · refine h.congr le_rfl ?_ ?_
    · rw [hredis]
      exact Redis.bump_of_ne fun hkey ↦ heq (bucket_injective hkey)
    · exact List.count_cons_of_ne (Ne.symm heq)

/-- A key begins to expire no earlier than in its minute. -/
theorem Bucket.expire (h : Bucket settings s m) (w : ℕ) {minute : ℤ}
    (hminute : minute ≤ minuteOf s.now) : Bucket settings (s.expire settings w minute) m := by
  by_cases heq : m = minute
  · subst heq
    rcases h.cases with hnone | ⟨k, expiresAt, hfind, -, hvalue⟩
    · refine h.congr le_rfl ?_ rfl
      unfold State.expire Redis.expire
      rw [hnone]
    · refine .inr ⟨k, _, Redis.expire_of_find hfind, fun e he ↦ ?_, hvalue⟩
      cases he
      unfold minuteOf at hminute
      push_cast
      omega
  · exact h.congr le_rfl (Redis.expire_of_ne fun hkey ↦ heq (bucket_injective hkey)) rfl

/-! ### The steps -/

variable (settings) in
/-- What one event can do. -/
inductive Steps (s : State) : Event → State → Prop
  | pass (milliseconds : ℕ) : Steps s (.pass milliseconds) { s with now := s.now + milliseconds }
  | start {w : ℕ} {phase : Phase} (hphase : s.phase w = .waiting)
      (hnext : phase = .returned false ∨ phase = .timed (minuteOf s.now)) :
      Steps s (.start w) (s.goOn w phase)
  | incr {w : ℕ} {minute : ℤ} (hphase : s.phase w = .timed minute) :
      Steps s (.incr w) (s.incr settings w minute)
  | expire {w : ℕ} {minute : ℤ} (hphase : s.phase w = .incremented minute) :
      Steps s (.expire w) (s.expire settings w minute)
  | below {w : ℕ} {minute : ℤ} (hphase : s.phase w = .expiring minute)
      (hsum : total settings s.redis s.now minute < settings.threshold) :
      Steps s (.mget w) ((s.read settings minute).finish w false)
  | reach {w : ℕ} {minute : ℤ} (hphase : s.phase w = .expiring minute) :
      Steps s (.mget w) ((s.read settings minute).goOn w (.reached minute))
  | silent {w : ℕ} {minute : ℤ} (hphase : s.phase w = .reached minute)
      (hset : Redis.setNx s.redis s.now sprayAlerted "1" (settings.minutes * 60) = none) :
      Steps s (.set w) (s.finish w false)
  | alert {w : ℕ} {minute : ℤ} {redis : Redis.Store} (hphase : s.phase w = .reached minute)
      (hset : Redis.setNx s.redis s.now sprayAlerted "1" (settings.minutes * 60) = some redis) :
      Steps s (.set w) ((s.raiseAlert settings redis).finish w true)

theorem steps_of_step {t : State} {event : Event} (h : step settings s event = some t) :
    Steps settings s event t := by
  cases event with
  | pass milliseconds =>
    cases h
    exact .pass milliseconds
  | start w =>
    unfold step at h
    dsimp only at h
    split at h
    · rename_i hphase
      split_ifs at h
      · cases h
        exact .start hphase (.inl rfl)
      · cases h
        exact .start hphase (.inr rfl)
    · cases h
  | incr w =>
    unfold step at h
    dsimp only at h
    split at h
    · rename_i minute hphase
      cases h
      exact .incr hphase
    · cases h
  | expire w =>
    unfold step at h
    dsimp only at h
    split at h
    · rename_i minute hphase
      cases h
      exact .expire hphase
    · cases h
  | mget w =>
    unfold step at h
    dsimp only at h
    split at h
    · rename_i minute hphase
      split_ifs at h with hsum
      · cases h
        exact .below hphase hsum
      · cases h
        exact .reach hphase
    · cases h
  | set w =>
    unfold step at h
    dsimp only at h
    split at h
    · rename_i minute hphase
      cases hset : Redis.setNx s.redis s.now sprayAlerted "1" (settings.minutes * 60) with
      | none =>
        rw [hset] at h
        cases h
        exact .silent hphase hset
      | some redis =>
        rw [hset] at h
        cases h
        exact .alert hphase hset
    · cases h

/-! ### What holds of every run -/

def occasion (alert : Alert) : Redis.Occasion :=
  ⟨sprayAlerted, alert.time, alert.time + 1000 * (alert.windowMinutes * 60)⟩

variable (settings) in
structure Inv (s : State) : Prop where
  buckets : ∀ m, Bucket settings s m
  behind : ∀ w m, (s.phase w).minute = some m → m ≤ minuteOf s.now
  /-- The flag is that of an alert. -/
  flag : ∀ e, s.redis sprayAlerted = some e → ∃ alert ∈ s.alerts, alert.time ≤ s.now ∧
    e.expiresAt = some (alert.time + 1000 * (settings.minutes * 60))
  windows : ∀ alert ∈ s.alerts, alert.windowMinutes = settings.minutes
  spaced : Redis.Spaced s.redis (s.alerts.map occasion)

theorem inv_initial (now : ℕ) : Inv settings (initial now) where
  buckets _ := .inl ⟨List.not_mem_nil, rfl⟩
  behind _ m h := absurd h (Option.some_ne_none m).symm
  flag e h := absurd h (Option.some_ne_none e).symm
  windows _ h := absurd h List.not_mem_nil
  spaced := Redis.spaced_nil _

/-- A request that goes on keeps no minute that is not over or current. -/
theorem behind_update (h : Inv settings s) (w : ℕ) {phase : Phase}
    (hphase : ∀ m, phase.minute = some m → m ≤ minuteOf s.now) (v : ℕ) (m : ℤ)
    (hv : (Function.update s.phase w phase v).minute = some m) : m ≤ minuteOf s.now := by
  by_cases heq : v = w
  · subst heq
    rw [Function.update_self] at hv
    exact hphase m hv
  · rw [Function.update_of_ne heq] at hv
    exact h.behind v m hv

/-- Neither Redis nor the clock is touched. -/
theorem Inv.congr {t : State} (h : Inv settings s) (hnow : t.now = s.now)
    (hredis : t.redis = s.redis) (hcounted : t.counted = s.counted) (halerts : t.alerts = s.alerts)
    (hbehind : ∀ w m, (t.phase w).minute = some m → m ≤ minuteOf s.now) : Inv settings t where
  buckets m := (h.buckets m).congr hnow.ge (by rw [hredis]) (by rw [hcounted])
  behind := by rwa [hnow]
  flag := by rw [hredis, halerts, hnow]; exact h.flag
  windows := by rw [halerts]; exact h.windows
  spaced := by rw [hredis, halerts]; exact h.spaced

/-- A command on the key of a minute leaves the flag alone. -/
theorem Inv.of_buckets {t : State} (h : Inv settings s) (hnow : t.now = s.now)
    (hflag : t.redis sprayAlerted = s.redis sprayAlerted) (halerts : t.alerts = s.alerts)
    (hbuckets : ∀ m, Bucket settings t m)
    (hbehind : ∀ w m, (t.phase w).minute = some m → m ≤ minuteOf s.now) : Inv settings t where
  buckets := hbuckets
  behind := by rwa [hnow]
  flag := by rw [hflag, halerts, hnow]; exact h.flag
  windows := by rw [halerts]; exact h.windows
  spaced := by
    rw [halerts]
    refine h.spaced.congr fun other hmem ↦ ?_
    obtain ⟨alert, -, rfl⟩ := List.mem_map.mp hmem
    exact hflag

theorem inv_step {t : State} {event : Event} (h : Inv settings s)
    (hstep : step settings s event = some t) : Inv settings t := by
  cases steps_of_step hstep with
  | pass milliseconds =>
    have hlater : minuteOf s.now ≤ minuteOf (s.now + milliseconds) := by
      unfold minuteOf
      omega
    exact {
      buckets := fun m ↦ (h.buckets m).congr (Nat.le_add_right ..) rfl rfl
      behind := fun w m hm ↦ (h.behind w m hm).trans hlater
      flag := fun e he ↦ by
        obtain ⟨alert, hmem, htime, hends⟩ := h.flag e he
        exact ⟨alert, hmem, htime.trans (Nat.le_add_right ..), hends⟩
      windows := h.windows
      spaced := h.spaced }
  | @start w phase hphase hnext =>
    refine h.congr rfl rfl rfl rfl (behind_update h w fun m hm ↦ ?_)
    rcases hnext with rfl | rfl
    · cases hm
    · exact (Option.some.inj hm).ge
  | @incr w minute hphase =>
    have hminute := h.behind w minute (by rw [hphase]; rfl)
    refine h.of_buckets rfl ?_ rfl (fun m ↦ (h.buckets m).incr w minute)
      (behind_update h w fun m hm ↦ (Option.some.inj hm) ▸ hminute)
    refine (congrFun (Redis.incr_eq_bump ..) _).trans (Redis.bump_of_ne ?_)
    exact (bucket_ne_sprayAlerted minute).symm
  | @expire w minute hphase =>
    have hminute := h.behind w minute (by rw [hphase]; rfl)
    exact h.of_buckets rfl (Redis.expire_of_ne (bucket_ne_sprayAlerted minute).symm) rfl
      (fun m ↦ (h.buckets m).expire w hminute)
      (behind_update h w fun m hm ↦ (Option.some.inj hm) ▸ hminute)
  | @below w minute hphase hsum =>
    exact h.congr rfl rfl rfl rfl (behind_update h w fun m hm ↦ absurd hm (Option.some_ne_none m).symm)
  | @reach w minute hphase =>
    have hminute := h.behind w minute (by rw [hphase]; rfl)
    exact h.congr rfl rfl rfl rfl
      (behind_update h w fun m hm ↦ (Option.some.inj hm) ▸ hminute)
  | @silent w minute hphase hset =>
    exact h.congr rfl rfl rfl rfl (behind_update h w fun m hm ↦ absurd hm (Option.some_ne_none m).symm)
  | @alert w minute redis hphase hset =>
    obtain ⟨hfind, rfl⟩ := Redis.setNx_eq_some hset
    exact {
      buckets := fun m ↦ by
        have hkey : Redis.set s.redis s.now sprayAlerted "1" (settings.minutes * 60) (bucket m) =
            s.redis (bucket m) := Redis.set_of_ne (bucket_ne_sprayAlerted m)
        exact (h.buckets m).congr le_rfl hkey rfl
      behind := behind_update h w fun m hm ↦ absurd hm (Option.some_ne_none m).symm
      flag := fun e he ↦ by
        change Redis.set s.redis s.now sprayAlerted "1" (settings.minutes * 60) sprayAlerted =
          some e at he
        rw [Redis.set_self, Option.some.injEq] at he
        subst he
        exact ⟨_, List.mem_cons_self, le_rfl, rfl⟩
      windows := fun alert hmem ↦ by
        rcases List.mem_cons.mp hmem with rfl | hmem
        · rfl
        · exact h.windows alert hmem
      spaced := h.spaced.cons hfind le_rfl }

variable (settings) in
/-- The condition of a step. A failure that is counted after the minute it has read finds the failures
of its own window at the threshold if those of the current one are, and a failure reads the counts
before the next minute is over. -/
def Orderly (s : State) : Event → Prop
  | .incr w => ∀ minute ∈ (s.phase w).minute,
    settings.threshold ≤ inWindow settings (minuteOf s.now) (minute :: s.counted) →
    settings.threshold ≤ inWindow settings minute (minute :: s.counted)
  | .mget w => ∀ minute ∈ (s.phase w).minute, (s.now : ℤ) < 60000 * (minute + 2)
  | _ => True

instance decidableOrderly (settings : Settings) (s : State) :
    ∀ event, Decidable (Orderly settings s event)
  | .pass _ => isTrue trivial
  | .start _ => isTrue trivial
  | .incr w => inferInstanceAs (Decidable (∀ minute ∈ (s.phase w).minute,
      settings.threshold ≤ inWindow settings (minuteOf s.now) (minute :: s.counted) →
      settings.threshold ≤ inWindow settings minute (minute :: s.counted)))
  | .expire _ => isTrue trivial
  | .mget w => inferInstanceAs (Decidable (∀ minute ∈ (s.phase w).minute,
      (s.now : ℤ) < 60000 * (minute + 2)))
  | .set _ => isTrue trivial

variable (settings) in
/-- What the sums and the alerts are for: each failure counts once in each window of its minute; a
failure that came when the threshold was reached has returned with an alert in the last window; and
there is one alert in a window. -/
structure Noticed (s : State) : Prop where
  once : ∀ reading ∈ s.readings,
    reading.total = inWindow settings reading.minute reading.counted
  noticed : ∀ ending ∈ s.endings, ending.due = true →
    ∃ alert ∈ s.alerts, alert.time ≤ ending.time ∧
      ending.time ≤ alert.time + 60000 * settings.minutes
  apart : ∀ start, s.alerts.countP (fun alert ↦ decide (start ≤ alert.time ∧
    alert.time ≤ start + 60000 * settings.minutes)) ≤ 1

/-- Alerts in one window are one, whoever raised them and however long it took. -/
theorem Inv.apart (h : Inv settings s) (start : ℕ) :
    s.alerts.countP (fun alert ↦ decide (start ≤ alert.time ∧
      alert.time ≤ start + 60000 * settings.minutes)) ≤ 1 := by
  refine Redis.countP_le_one ?_
  refine (List.pairwise_map.mp h.spaced.apart).imp_of_mem fun {later earlier} _ hmem hapart ↦ ?_
  intro hearlier hlater
  have hends : earlier.time + 1000 * (earlier.windowMinutes * 60) < later.time := hapart rfl
  rw [h.windows earlier hmem] at hends
  have hin := of_decide_eq_true hearlier
  have hout := of_decide_eq_true hlater
  omega

variable (settings) in
/-- A failure that is due will see enough; and what `Noticed` says of the failures that have read and
returned. -/
structure Seen (s : State) : Prop where
  due : ∀ w minute, s.phase w = .incremented minute ∨ s.phase w = .expiring minute →
    s.due w = true → settings.threshold ≤ inWindow settings minute s.counted
  once : ∀ reading ∈ s.readings,
    reading.total = inWindow settings reading.minute reading.counted
  noticed : ∀ ending ∈ s.endings, ending.due = true →
    ∃ alert ∈ s.alerts, alert.time ≤ ending.time ∧
      ending.time ≤ alert.time + 60000 * settings.minutes

theorem seen_initial (now : ℕ) : Seen settings (initial now) where
  due _ _ h := by rcases h with h | h <;> cases h
  once _ h := absurd h List.not_mem_nil
  noticed _ h := absurd h List.not_mem_nil

/-- A request goes on that has not to see more than before. -/
theorem due_update (h : Seen settings s) (w : ℕ) {phase : Phase}
    (hphase : ∀ minute, phase = .incremented minute ∨ phase = .expiring minute →
      s.phase w = .incremented minute)
    (v : ℕ) (minute : ℤ)
    (hv : Function.update s.phase w phase v = .incremented minute ∨
      Function.update s.phase w phase v = .expiring minute) (hdue : s.due v = true) :
    settings.threshold ≤ inWindow settings minute s.counted := by
  by_cases heq : v = w
  · subst heq
    rw [Function.update_self] at hv
    exact h.due v minute (.inl (hphase minute hv)) hdue
  · rw [Function.update_of_ne heq] at hv
    exact h.due v minute hv hdue

/-- A failure returns: it was not due, or there is an alert. -/
theorem noticed_cons {endings : List Ending} {alerts : List Alert} {ending : Ending}
    (h : ∀ ending ∈ endings, ending.due = true → ∃ alert ∈ alerts, alert.time ≤ ending.time ∧
      ending.time ≤ alert.time + 60000 * settings.minutes)
    (hlast : ending.due = true → ∃ alert ∈ alerts, alert.time ≤ ending.time ∧
      ending.time ≤ alert.time + 60000 * settings.minutes) :
    ∀ other ∈ ending :: endings, other.due = true → ∃ alert ∈ alerts, alert.time ≤ other.time ∧
      other.time ≤ alert.time + 60000 * settings.minutes := by
  intro other hmem hdue
  rcases List.mem_cons.mp hmem with rfl | hmem
  · exact hlast hdue
  · exact h other hmem hdue

theorem seen_step {t : State} {event : Event} (hinv : Inv settings s) (h : Seen settings s)
    (horderly : Orderly settings s event) (hstep : step settings s event = some t) :
    Seen settings t := by
  have hread : ∀ {w minute}, event = .mget w → s.phase w = .expiring minute →
      total settings s.redis s.now minute = inWindow settings minute s.counted := by
    rintro w minute rfl hphase
    exact total_eq hinv.buckets (horderly minute (congrArg Phase.minute hphase))
  have honce : ∀ {w minute}, event = .mget w → s.phase w = .expiring minute →
      ∀ reading ∈ (s.read settings minute).readings,
        reading.total = inWindow settings reading.minute reading.counted := by
    intro w minute hevent hphase reading hmem
    rcases List.mem_cons.mp hmem with rfl | hmem
    · exact hread hevent hphase
    · exact h.once reading hmem
  cases steps_of_step hstep with
  | pass milliseconds => exact ⟨h.due, h.once, h.noticed⟩
  | @start w phase hphase hnext =>
    refine ⟨due_update h w fun m hm ↦ ?_, h.once, h.noticed⟩
    rcases hnext with rfl | rfl <;> rcases hm with hm | hm <;> cases hm
  | @incr w minute hphase =>
    refine ⟨fun v m hv hdue ↦ ?_, h.once, h.noticed⟩
    by_cases heq : v = w
    · subst heq
      have hm : m = minute := by
        change Function.update s.phase v _ v = _ ∨ Function.update s.phase v _ v = _ at hv
        rw [Function.update_self] at hv
        rcases hv with hv | hv
        · cases hv
          rfl
        · cases hv
      subst hm
      change Function.update s.due v _ v = true at hdue
      rw [Function.update_self] at hdue
      exact horderly m (congrArg Phase.minute hphase) (of_decide_eq_true hdue)
    · change Function.update s.phase w _ v = _ ∨ Function.update s.phase w _ v = _ at hv
      change Function.update s.due w _ v = true at hdue
      rw [Function.update_of_ne heq] at hv hdue
      have := h.due v m hv hdue
      exact this.trans (Int.ofNat_le.mpr (inWindow_le_cons settings m minute s.counted))
  | @expire w minute hphase =>
    refine ⟨due_update h w fun m hm ↦ ?_, h.once, h.noticed⟩
    rcases hm with hm | hm
    · cases hm
    · cases hm
      exact hphase
  | @below w minute hphase hsum =>
    refine ⟨due_update h w fun m hm ↦ ?_, honce rfl hphase, noticed_cons h.noticed fun hdue ↦ ?_⟩
    · rcases hm with hm | hm <;> cases hm
    · have henough := h.due w minute (.inr hphase) hdue
      rw [hread rfl hphase] at hsum
      exact absurd henough (not_le.mpr hsum)
  | @reach w minute hphase =>
    refine ⟨due_update h w fun m hm ↦ ?_, honce rfl hphase, h.noticed⟩
    rcases hm with hm | hm <;> cases hm
  | @silent w minute hphase hset =>
    refine ⟨due_update h w fun m hm ↦ ?_, h.once, noticed_cons h.noticed fun _ ↦ ?_⟩
    · rcases hm with hm | hm <;> cases hm
    · obtain ⟨e, hkey, hleft⟩ := Redis.exists_of_setNx_eq_none hset
      obtain ⟨alert, hmem, htime, hends⟩ := hinv.flag e hkey
      have hnow := hleft _ hends
      refine ⟨alert, hmem, htime, ?_⟩
      change s.now ≤ alert.time + 60000 * settings.minutes
      omega
  | @alert w minute redis hphase hset =>
    refine ⟨due_update h w fun m hm ↦ ?_, h.once, noticed_cons (fun ending hmem hdue ↦ ?_) fun _ ↦ ?_⟩
    · rcases hm with hm | hm <;> cases hm
    · obtain ⟨alert, halert, htimes⟩ := h.noticed ending hmem hdue
      exact ⟨alert, List.mem_cons_of_mem _ halert, htimes⟩
    · exact ⟨_, List.mem_cons_self, le_rfl, Nat.le_add_right ..⟩

/-- In every run whose steps are all orderly, from any time on, nothing is missed. -/
theorem spraying_is_noticed_in_orderly_runs {now : ℕ} {events : List Event} {last : State}
    (horderly : Machine.Meets (step settings) (Orderly settings) (initial now) events)
    (hrun : Machine.run (step settings) (initial now) events = some last) :
    Noticed settings last := by
  have hstep : ∀ s event t, Inv settings s ∧ Seen settings s → Orderly settings s event →
      step settings s event = some t → Inv settings t ∧ Seen settings t :=
    fun _ _ _ hs hcondition hstep ↦
      ⟨inv_step hs.1 hstep, seen_step hs.1 hs.2 hcondition hstep⟩
  have hall : Inv settings last ∧ Seen settings last :=
    Machine.run_invariant hstep ⟨inv_initial now, seen_initial now⟩ horderly hrun
  exact ⟨hall.2.once, hall.2.noticed, hall.1.apart⟩

/-- Two failures within two minutes raise an alert. -/
def two : Settings := ⟨2, 2, by decide⟩

/-- Two failures in one minute, each of which has counted before the other reads. -/
def sameMinute : List Event :=
  [.start 0, .pass 1000, .start 1, .incr 1, .incr 0, .expire 0, .expire 1, .mget 1, .mget 0,
    .set 0, .pass 1, .set 1]

theorem noticed_in_the_same_minute : ∃ last,
    Machine.run (step two) (initial 360000) sameMinute = some last ∧ Noticed two last ∧
      last.alerts = [⟨361000, 2, 2⟩] := by
  have halerts : (Machine.run (step two) (initial 360000) sameMinute).map State.alerts =
      some [⟨361000, 2, 2⟩] := by
    decide +kernel
  obtain ⟨last, hrun, hlast⟩ := Option.map_eq_some_iff.mp halerts
  exact ⟨last, hrun, spraying_is_noticed_in_orderly_runs (by decide +kernel) hrun, hlast⟩

/-- The one reads the clock in minute 5 and the other in minute 6, and the other counts first: it
sees one failure, and so does the one that counts in minute 5 then. -/
def lateCount : List Event :=
  [.start 0, .pass 1000, .start 1, .incr 1, .expire 1, .mget 1, .incr 0, .expire 0, .mget 0]

theorem late_count_is_missed : ∃ last,
    Machine.run (step two) (initial 359500) lateCount = some last ∧
      last.counted = [5, 6] ∧ last.alerts = [] ∧ ¬ Noticed two last := by
  have hmissed : (Machine.run (step two) (initial 359500) lateCount).map (fun last ↦
      (last.counted, last.alerts, last.endings)) =
      some ([5, 6], [], [⟨true, 360500⟩, ⟨false, 360500⟩]) := by
    decide +kernel
  obtain ⟨last, hrun, hlast⟩ := Option.map_eq_some_iff.mp hmissed
  simp only [Prod.mk.injEq] at hlast
  obtain ⟨hcounted, halerts, hendings⟩ := hlast
  refine ⟨last, hrun, hcounted, halerts, fun hnoticed ↦ ?_⟩
  obtain ⟨alert, hmem, -⟩ := hnoticed.noticed ⟨true, 360500⟩
    (hendings ▸ List.mem_cons_self) rfl
  rw [halerts] at hmem
  exact List.not_mem_nil hmem

end OpenWhistle.RateLimit.Spraying
