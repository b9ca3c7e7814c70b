import OpenWhistle.Dashboard.AckRate
import OpenWhistle.Foundation.Marks
import Mathlib.Data.List.Count

/-!
# Reminders

A reminder is marked in Redis for as many days as are left, and one more, from the time it was
marked. The days are whole ones, counted from the time the run began, so that the mark outlives the
deadline: it falls on the last microsecond of a day, and with one day more than the whole ones the
next day has begun. After the deadline a mark lasts a day. Runs take their time: a key is looked up
later than the days are counted, and set after the reminder has been dispatched.
-/

set_option autoImplicit false
set_option relaxedAutoImplicit false

namespace OpenWhistle.Reminders

open Threads (microsecondsPerDay dayFloor lastOfDay)
open Dashboard (ackDue)

/-! ### Reports and their deadlines -/

/-- A report as a run reads it. The deadlines that are stored are last microseconds of a day. -/
structure Report where
  caseNumber : String
  submittedAt : ℕ
  acknowledgedAt : Option ℕ
  feedbackDueAt : Option ℕ
  feedbackSentAt : Option ℕ
  feedback_last : ∀ due ∈ feedbackDueAt, due % microsecondsPerDay = microsecondsPerDay - 1

theorem lastOfDay_mod (moment : ℕ) :
    lastOfDay moment % microsecondsPerDay = microsecondsPerDay - 1 := by
  unfold lastOfDay dayFloor microsecondsPerDay
  omega

theorem ackDue_mod (submittedAt : ℕ) :
    ackDue submittedAt % microsecondsPerDay = microsecondsPerDay - 1 :=
  lastOfDay_mod _

structure Settings where
  reminderAckWarnDays : ℤ := 2
  reminderFeedbackWarnDays : ℤ := 30

/-! ### One check -/

def daysLeft (due now : ℕ) : ℤ := ((due : ℤ) - now) / microsecondsPerDay

def dedupTtlSeconds (daysLeft : ℤ) : ℕ := (max daysLeft 0 * 86400 + 86400).toNat

def ackDedupKey (caseNumber : String) : String := "reminder:ack:" ++ caseNumber

def feedbackDedupKey (caseNumber : String) : String := "reminder:feedback:" ++ caseNumber

/-- When the steps of a check take place, in microseconds, and whether the mail server takes the
reminder. -/
structure Check where
  /-- When the run began. -/
  now : ℕ
  lookup : ℕ
  dispatch : ℕ
  mark : ℕ
  accepted : Bool
  now_le_lookup : now ≤ lookup
  lookup_le_dispatch : lookup ≤ dispatch
  dispatch_le_mark : dispatch ≤ mark

inductive Outcome
  | skipped
  | refused
  | sent
  deriving DecidableEq

/-- What both checks do with a deadline that is not met yet. -/
def checkReminder (key : String) (due : ℕ) (warnDays : ℤ) (check : Check) (redis : Redis.Store) :
    Outcome × Redis.Store :=
  let left := daysLeft due check.now
  if warnDays < left then (.skipped, redis)
  else if (Redis.find redis (check.lookup / 1000) key).isSome then (.skipped, redis)
  else if check.accepted then
    (.sent, Redis.set redis (check.mark / 1000) key "1" (dedupTtlSeconds left))
  else (.refused, redis)

def checkAckReminder (settings : Settings) (report : Report) (check : Check) (redis : Redis.Store) :
    Outcome × Redis.Store :=
  if report.acknowledgedAt.isSome then (.skipped, redis)
  else checkReminder (ackDedupKey report.caseNumber) (ackDue report.submittedAt)
    settings.reminderAckWarnDays check redis

def checkFeedbackReminder (settings : Settings) (report : Report) (check : Check)
    (redis : Redis.Store) : Outcome × Redis.Store :=
  match report.feedbackDueAt with
  | none => (.skipped, redis)
  | some due =>
    if report.feedbackSentAt.isSome then (.skipped, redis)
    else checkReminder (feedbackDedupKey report.caseNumber) due
      settings.reminderFeedbackWarnDays check redis

/-! ### Both kinds -/

inductive Kind
  | ack
  | feedback
  deriving DecidableEq

def Kind.check : Kind → Settings → Report → Check → Redis.Store → Outcome × Redis.Store
  | .ack => checkAckReminder
  | .feedback => checkFeedbackReminder

def Kind.key : Kind → String → String
  | .ack => ackDedupKey
  | .feedback => feedbackDedupKey

def Kind.warnDays : Kind → Settings → ℤ
  | .ack => Settings.reminderAckWarnDays
  | .feedback => Settings.reminderFeedbackWarnDays

/-- The deadline of a report that is not done. -/
def Kind.due : Kind → Report → Option ℕ
  | .ack, report => if report.acknowledgedAt.isSome then none else some (ackDue report.submittedAt)
  | .feedback, report => if report.feedbackSentAt.isSome then none else report.feedbackDueAt

theorem Kind.check_of_none {kind : Kind} {settings : Settings} {report : Report} {check : Check}
    {redis : Redis.Store} (hdone : kind.due report = none) :
    kind.check settings report check redis = (.skipped, redis) := by
  cases kind with
  | ack =>
    rw [Kind.due] at hdone
    rw [Kind.check, checkAckReminder]
    by_cases hack : report.acknowledgedAt.isSome = true
    · rw [if_pos hack]
    · rw [if_neg hack] at hdone
      cases hdone
  | feedback =>
    rw [Kind.due] at hdone
    rw [Kind.check, checkFeedbackReminder]
    by_cases hsent : report.feedbackSentAt.isSome = true
    · cases report.feedbackDueAt with
      | none => rfl
      | some due => exact if_pos hsent
    · rw [if_neg hsent] at hdone
      rw [hdone]

theorem Kind.check_of_some {kind : Kind} {settings : Settings} {report : Report} {check : Check}
    {redis : Redis.Store} {due : ℕ} (hdue : kind.due report = some due) :
    kind.check settings report check redis =
      checkReminder (kind.key report.caseNumber) due (kind.warnDays settings) check redis := by
  cases kind with
  | ack =>
    rw [Kind.due] at hdue
    rw [Kind.check, checkAckReminder]
    by_cases hack : report.acknowledgedAt.isSome = true
    · rw [if_pos hack] at hdue
      cases hdue
    · rw [if_neg hack] at hdue ⊢
      rw [Option.some.inj hdue]
      rfl
  | feedback =>
    rw [Kind.due] at hdue
    rw [Kind.check, checkFeedbackReminder]
    by_cases hsent : report.feedbackSentAt.isSome = true
    · rw [if_pos hsent] at hdue
      cases hdue
    · rw [if_neg hsent] at hdue
      rw [hdue]
      exact if_neg hsent

theorem Kind.due_mod {kind : Kind} {report : Report} {due : ℕ} (hdue : kind.due report = some due) :
    due % microsecondsPerDay = microsecondsPerDay - 1 := by
  cases kind with
  | ack =>
    rw [Kind.due] at hdue
    by_cases hack : report.acknowledgedAt.isSome = true
    · rw [if_pos hack] at hdue
      cases hdue
    · rw [if_neg hack, Option.some_inj] at hdue
      rw [← hdue]
      exact ackDue_mod _
  | feedback =>
    rw [Kind.due] at hdue
    by_cases hsent : report.feedbackSentAt.isSome = true
    · rw [if_pos hsent] at hdue
      cases hdue
    · rw [if_neg hsent] at hdue
      exact report.feedback_last due hdue

/-! ### How long a mark lasts -/

/-- A mark set before the deadline outlives it. -/
theorem due_lt_ends {due now mark : ℕ} (hlast : due % microsecondsPerDay = microsecondsPerDay - 1)
    (hmark : now ≤ mark) :
    due / 1000 < mark / 1000 + 1000 * dedupTtlSeconds (daysLeft due now) := by
  unfold dedupTtlSeconds daysLeft
  unfold microsecondsPerDay at *
  omega

/-- A mark lasts a day at least. -/
theorem day_le_ends (left : ℤ) : 86400000 ≤ 1000 * dedupTtlSeconds left := by
  unfold dedupTtlSeconds
  omega

theorem daysLeft_mono {due due' now now' : ℕ} (hdue : due' ≤ due) (hnow : now ≤ now') :
    daysLeft due' now' ≤ daysLeft due now := by
  unfold daysLeft
  refine Int.ediv_le_ediv (by decide) ?_
  omega

/-! ### What a check does -/

/-- A reminder that is sent was not marked, and is marked then. -/
theorem checkReminder_eq_sent {key : String} {due : ℕ} {warnDays : ℤ} {check : Check}
    {redis : Redis.Store} (h : (checkReminder key due warnDays check redis).1 = .sent) :
    Redis.find redis (check.lookup / 1000) key = none ∧
      (checkReminder key due warnDays check redis).2 =
        Redis.set redis (check.mark / 1000) key "1" (dedupTtlSeconds (daysLeft due check.now)) := by
  unfold checkReminder at h ⊢
  dsimp only at h ⊢
  split_ifs at h ⊢ with hwindow hmarked haccepted
  exact ⟨Option.not_isSome_iff_eq_none.mp hmarked, rfl⟩

theorem checkReminder_of_ne_sent {key : String} {due : ℕ} {warnDays : ℤ} {check : Check}
    {redis : Redis.Store} (h : (checkReminder key due warnDays check redis).1 ≠ .sent) :
    (checkReminder key due warnDays check redis).2 = redis := by
  unfold checkReminder at h ⊢
  dsimp only at h ⊢
  split_ifs at h ⊢
  · rfl
  · rfl
  · exact absurd rfl h
  · rfl

theorem checkReminder_of_find {key : String} {due : ℕ} {warnDays : ℤ} {check : Check}
    {redis : Redis.Store} (hwindow : daysLeft due check.now ≤ warnDays)
    (hfind : Redis.find redis (check.lookup / 1000) key = none) :
    (checkReminder key due warnDays check redis).1 = if check.accepted then .sent else .refused := by
  unfold checkReminder
  dsimp only
  rw [if_neg (not_lt.mpr hwindow), hfind, if_neg (Option.not_isSome_iff_eq_none.mpr rfl)]
  split_ifs
  · rfl
  · rfl

theorem checkReminder_eq_refused {key : String} {due : ℕ} {warnDays : ℤ} {check : Check}
    {redis : Redis.Store} (h : (checkReminder key due warnDays check redis).1 = .refused) :
    daysLeft due check.now ≤ warnDays ∧ Redis.find redis (check.lookup / 1000) key = none := by
  unfold checkReminder at h
  dsimp only at h
  split_ifs at h with hwindow hmarked haccepted
  exact ⟨not_lt.mp hwindow, Option.not_isSome_iff_eq_none.mp hmarked⟩

theorem Kind.check_of_ne_sent {kind : Kind} {settings : Settings} {report : Report} {check : Check}
    {redis : Redis.Store} (h : (kind.check settings report check redis).1 ≠ .sent) :
    (kind.check settings report check redis).2 = redis := by
  cases hdue : kind.due report with
  | none => rw [Kind.check_of_none hdue]
  | some due =>
    rw [Kind.check_of_some hdue] at h ⊢
    exact checkReminder_of_ne_sent h

/-- A check that finds the report in the window, undone and unmarked dispatches. -/
theorem Kind.check_of_find {kind : Kind} {settings : Settings} {report : Report} {check : Check}
    {redis : Redis.Store} {due : ℕ} (hdue : kind.due report = some due)
    (hwindow : daysLeft due check.now ≤ kind.warnDays settings)
    (hfind : Redis.find redis (check.lookup / 1000) (kind.key report.caseNumber) = none) :
    (kind.check settings report check redis).1 = if check.accepted then .sent else .refused := by
  rw [Kind.check_of_some hdue]
  exact checkReminder_of_find hwindow hfind

/-- A refused reminder is tried again. -/
theorem Kind.check_of_refused {kind : Kind} {settings : Settings} {report later : Report}
    {check check' : Check} {redis redis' : Redis.Store}
    (hrefused : (kind.check settings report check redis).1 = .refused)
    (hcase : later.caseNumber = report.caseNumber)
    (hkey : redis' (kind.key report.caseNumber) =
      (kind.check settings report check redis).2 (kind.key report.caseNumber))
    (hnow : check.now ≤ check'.now) (hlookup : check.lookup ≤ check'.lookup)
    (hdue : ∀ due ∈ kind.due report, ∃ due' ∈ kind.due later, due' ≤ due) :
    (kind.check settings later check' redis').1 = if check'.accepted then .sent else .refused := by
  rw [Kind.check_of_ne_sent (by rw [hrefused]; exact nofun)] at hkey
  cases hopen : kind.due report with
  | none =>
    rw [Kind.check_of_none hopen] at hrefused
    cases hrefused
  | some due =>
    rw [Kind.check_of_some hopen] at hrefused
    obtain ⟨hwindow, hfind⟩ := checkReminder_eq_refused hrefused
    obtain ⟨due', hdue', hle⟩ := hdue due hopen
    refine Kind.check_of_find hdue' ((daysLeft_mono hle hnow).trans hwindow) ?_
    rw [hcase, Redis.find, hkey]
    exact Redis.find_eq_none_of_find hfind (Nat.div_le_div_right hlookup)

/-! ### Runs -/

/-- A key that marks no reminder. -/
structure OtherKey where
  key : String
  ne_key : ∀ (kind : Kind) (caseNumber : String), key ≠ kind.key caseNumber

/-- What runs do one after the other, and what becomes of other keys in between. -/
inductive Event
  | check (kind : Kind) (report : Report) (check : Check)
  | other (key : OtherKey) (entry : Option Redis.Entry)

structure Sent where
  kind : Kind
  report : Report
  check : Check

structure Reminded where
  redis : Redis.Store
  /-- The last of them first. -/
  sent : List Sent

def Reminded.next (settings : Settings) (s : Reminded) : Event → Reminded
  | .check kind report check =>
    let result := kind.check settings report check s.redis
    { redis := result.2
      sent := if result.1 = .sent then ⟨kind, report, check⟩ :: s.sent else s.sent }
  | .other key entry => { s with redis := Function.update s.redis key.key entry }

def remindedAfter (settings : Settings) (redis : Redis.Store) (events : List Event) : Reminded :=
  events.foldl (Reminded.next settings) ⟨redis, []⟩

/-- A deadline of a report moves earlier only. -/
def DueNotLater : Event → Event → Prop
  | .check kind report _, .check kind' report' _ =>
    kind' = kind → report'.caseNumber = report.caseNumber →
      ∀ due ∈ kind.due report, ∀ due' ∈ kind'.due report', due' ≤ due
  | _, _ => True

/-- A report that has not changed has not moved its deadlines. -/
theorem dueNotLater_self (kind : Kind) (report : Report) (check check' : Check) :
    DueNotLater (.check kind report check) (.check kind report check') := by
  intro _ _ due hdue due' hdue'
  exact (Option.mem_unique hdue' hdue).le

/-! ### The marks of a run -/

def Sent.event (sent : Sent) : Event := .check sent.kind sent.report sent.check

/-- The mark that a reminder leaves. -/
def Sent.occasion (sent : Sent) : Redis.Occasion where
  key := sent.kind.key sent.report.caseNumber
  check := sent.check.lookup / 1000
  ends := sent.check.mark / 1000 + 1000 *
    dedupTtlSeconds (daysLeft ((sent.kind.due sent.report).getD 0) sent.check.now)

def Reminded.Marked (s : Reminded) : Prop := Redis.Spaced s.redis (s.sent.map Sent.occasion)

theorem Reminded.Marked.next {settings : Settings} {s : Reminded} (h : s.Marked) (event : Event) :
    (s.next settings event).Marked := by
  cases event with
  | other key entry =>
    refine Redis.Spaced.congr h fun occasion hmem ↦ ?_
    obtain ⟨sent, _, rfl⟩ := List.mem_map.mp hmem
    exact Function.update_of_ne (key.ne_key sent.kind sent.report.caseNumber).symm ..
  | check kind report check =>
    unfold Reminded.next Reminded.Marked
    dsimp only
    by_cases hsent : (kind.check settings report check s.redis).1 = .sent
    · rw [if_pos hsent, List.map_cons]
      cases hdue : kind.due report with
      | none =>
        rw [Kind.check_of_none hdue] at hsent
        cases hsent
      | some due =>
        rw [Kind.check_of_some hdue] at hsent ⊢
        obtain ⟨hfind, hset⟩ := checkReminder_eq_sent hsent
        rw [hset]
        unfold Sent.occasion
        dsimp only
        rw [hdue, Option.getD_some]
        exact Redis.Spaced.cons h hfind
          (Nat.div_le_div_right (check.lookup_le_dispatch.trans check.dispatch_le_mark))
    · rw [if_neg hsent, Kind.check_of_ne_sent hsent]
      exact h

theorem marked_remindedAfter (settings : Settings) (redis : Redis.Store) (events : List Event) :
    (remindedAfter settings redis events).Marked := by
  unfold remindedAfter
  have hrun : ∀ s : Reminded, s.Marked → (events.foldl (Reminded.next settings) s).Marked := by
    induction events with
    | nil => exact fun s h ↦ h
    | cons event events ih => exact fun s h ↦ ih _ (h.next event)
  exact hrun _ (Redis.spaced_nil redis)

/-- What has been sent are checks of the run, the last of them first. -/
theorem sent_sublist (settings : Settings) (events : List Event) :
    ∀ s : Reminded, ∃ new, new.Sublist events.reverse ∧
      (events.foldl (Reminded.next settings) s).sent.map Sent.event =
        new ++ s.sent.map Sent.event := by
  induction events with
  | nil => exact fun s ↦ ⟨[], List.Sublist.refl _, rfl⟩
  | cons event events ih =>
    intro s
    obtain ⟨new, hnew, hsent⟩ := ih (s.next settings event)
    rw [List.foldl_cons, hsent, List.reverse_cons]
    cases event with
    | other key entry => exact ⟨new, hnew.trans (List.sublist_append_left ..), rfl⟩
    | check kind report check =>
      unfold Reminded.next
      dsimp only
      by_cases hdone : (kind.check settings report check s.redis).1 = .sent
      · rw [if_pos hdone]
        refine ⟨new ++ [.check kind report check], hnew.append_right _, ?_⟩
        rw [List.map_cons, List.append_assoc]
        rfl
      · rw [if_neg hdone]
        exact ⟨new, hnew.trans (List.sublist_append_left ..), rfl⟩

theorem sent_dueNotLater {settings : Settings} {redis : Redis.Store} {events : List Event}
    (hdue : events.Pairwise DueNotLater) :
    (remindedAfter settings redis events).sent.Pairwise fun later earlier ↦
      DueNotLater earlier.event later.event := by
  obtain ⟨new, hnew, hsent⟩ := sent_sublist settings events ⟨redis, []⟩
  rw [List.map_nil, List.append_nil] at hsent
  have hpairs := (List.pairwise_reverse.mpr hdue).sublist hnew
  rw [← hsent] at hpairs
  exact List.pairwise_map.mp hpairs

/-- A reminder about a case that was dispatched by the deadline. -/
def Sent.inTime (kind : Kind) (caseNumber : String) (sent : Sent) : Bool :=
  decide (sent.kind = kind) && decide (sent.report.caseNumber = caseNumber) &&
    (sent.kind.due sent.report).any fun due ↦ decide (sent.check.dispatch ≤ due)

theorem Sent.inTime_iff {kind : Kind} {caseNumber : String} {sent : Sent} :
    sent.inTime kind caseNumber = true ↔ sent.kind = kind ∧ sent.report.caseNumber = caseNumber ∧
      ∃ due ∈ sent.kind.due sent.report, sent.check.dispatch ≤ due := by
  unfold Sent.inTime
  simp only [Bool.and_eq_true, decide_eq_true_eq, Option.any_eq_true, Option.mem_def, and_assoc]

/-- What holds of two reminders about one case: the mark of the earlier one is over. -/
def Apart (later earlier : Sent) : Prop :=
  later.kind = earlier.kind → later.report.caseNumber = earlier.report.caseNumber →
    earlier.occasion.ends ≤ later.occasion.check

theorem sent_apart (settings : Settings) (redis : Redis.Store) (events : List Event) :
    (remindedAfter settings redis events).sent.Pairwise Apart := by
  have hmarked := (marked_remindedAfter settings redis events).apart
  refine (List.pairwise_map.mp hmarked).imp fun {later earlier} hapart hkind hcase ↦ (hapart ?_).le
  unfold Sent.occasion
  dsimp only
  rw [hkind, hcase]

/-- The mark of a reminder by the deadline lasts until it is over. -/
theorem not_inTime_of_apart {kind : Kind} {caseNumber : String} {later earlier : Sent}
    (hearlier : earlier.inTime kind caseNumber = true) (hapart : Apart later earlier)
    (hnotlater : DueNotLater earlier.event later.event) : ¬later.inTime kind caseNumber = true := by
  intro hlater
  obtain ⟨hkind, hcase, due, hdue, _⟩ := Sent.inTime_iff.mp hearlier
  obtain ⟨hkind', hcase', due', hdue', hdispatch⟩ := Sent.inTime_iff.mp hlater
  have hends := hapart (hkind'.trans hkind.symm) (hcase'.trans hcase.symm)
  have hle : due' ≤ due :=
    hnotlater (hkind'.trans hkind.symm) (hcase'.trans hcase.symm) due hdue due' hdue'
  have hmark := due_lt_ends (Kind.due_mod hdue)
    ((earlier.check.now_le_lookup.trans earlier.check.lookup_le_dispatch).trans
      earlier.check.dispatch_le_mark)
  have hlookup : later.check.lookup / 1000 ≤ due / 1000 :=
    Nat.div_le_div_right ((later.check.lookup_le_dispatch.trans hdispatch).trans hle)
  unfold Sent.occasion at hends
  dsimp only at hends
  rw [Option.mem_def.mp hdue, Option.getD_some] at hends
  exact absurd (hmark.trans_le (hends.trans hlookup)) (lt_irrefl _)

theorem countP_inTime_le_one (kind : Kind) (caseNumber : String) {sent : List Sent}
    (hapart : sent.Pairwise Apart)
    (hdue : sent.Pairwise fun later earlier ↦ DueNotLater earlier.event later.event) :
    sent.countP (Sent.inTime kind caseNumber) ≤ 1 := by
  refine Redis.countP_le_one (List.Pairwise.imp₂ (fun later earlier hover hnotlater hearlier ↦ ?_)
    hapart hdue)
  exact not_inTime_of_apart hearlier hover hnotlater

/-- Two reminders about one case are 24 hours apart by the clock of Redis, which counts
milliseconds. -/
theorem day_le_of_apart {later earlier : Sent} (hapart : Apart later earlier)
    (hkind : later.kind = earlier.kind)
    (hcase : later.report.caseNumber = earlier.report.caseNumber) :
    earlier.check.dispatch / 1000 + 86400000 ≤ later.check.dispatch / 1000 := by
  have hends := hapart hkind hcase
  unfold Sent.occasion at hends
  dsimp only at hends
  calc earlier.check.dispatch / 1000 + 86400000
      ≤ earlier.check.mark / 1000 + 1000 * dedupTtlSeconds
          (daysLeft ((earlier.kind.due earlier.report).getD 0) earlier.check.now) :=
        Nat.add_le_add (Nat.div_le_div_right earlier.check.dispatch_le_mark) (day_le_ends _)
    _ ≤ later.check.lookup / 1000 := hends
    _ ≤ later.check.dispatch / 1000 := Nat.div_le_div_right later.check.lookup_le_dispatch

/-- Of a case and a kind of deadline, one reminder at most is dispatched by the deadline, and any
two are 24 hours apart. A refused one leaves Redis as it is, and so the next check tries again; and
a check that finds the report in the window, undone and unmarked dispatches. -/
theorem reminders_come_once_then_daily (settings : Settings) (redis : Redis.Store)
    (events : List Event) (hdue : events.Pairwise DueNotLater) :
    (∀ kind caseNumber,
      (remindedAfter settings redis events).sent.countP (Sent.inTime kind caseNumber) ≤ 1) ∧
    (remindedAfter settings redis events).sent.Pairwise (fun later earlier ↦
      later.kind = earlier.kind → later.report.caseNumber = earlier.report.caseNumber →
        earlier.check.dispatch / 1000 + 86400000 ≤ later.check.dispatch / 1000) ∧
    (∀ (kind : Kind) (report : Report) (check : Check) (redis : Redis.Store),
      (kind.check settings report check redis).1 = .refused →
        (kind.check settings report check redis).2 = redis ∧
        ∀ (later : Report) (check' : Check) (redis' : Redis.Store),
          later.caseNumber = report.caseNumber →
          redis' (kind.key report.caseNumber) = redis (kind.key report.caseNumber) →
          check.now ≤ check'.now → check.lookup ≤ check'.lookup →
          (∀ due ∈ kind.due report, ∃ due' ∈ kind.due later, due' ≤ due) →
          (kind.check settings later check' redis').1 =
            if check'.accepted then .sent else .refused) ∧
    ∀ (kind : Kind) (report : Report) (check : Check) (redis : Redis.Store),
      ∀ due ∈ kind.due report, daysLeft due check.now ≤ kind.warnDays settings →
        Redis.find redis (check.lookup / 1000) (kind.key report.caseNumber) = none →
        (kind.check settings report check redis).1 = if check.accepted then .sent else .refused := by
  have hapart := sent_apart settings redis events
  refine ⟨fun kind caseNumber ↦ countP_inTime_le_one kind caseNumber hapart (sent_dueNotLater hdue),
    hapart.imp day_le_of_apart, fun kind report check redis hrefused ↦ ?_,
    fun kind report check redis due hopen hwindow hfind ↦ Kind.check_of_find hopen hwindow hfind⟩
  have hkept : (kind.check settings report check redis).2 = redis :=
    Kind.check_of_ne_sent (by rw [hrefused]; exact nofun)
  refine ⟨hkept, fun later check' redis' hcase hkey hnow hlookup hlater ↦ ?_⟩
  exact Kind.check_of_refused hrefused hcase (by rw [hkept, hkey]) hnow hlookup hlater

/-- A report of the first day, in two checks a day apart. -/
def firstReport : Report := ⟨"OW-1", 0, none, none, none, nofun⟩

def checkAt (now : ℕ) : Check := ⟨now, now, now, now, true, le_rfl, le_rfl, le_rfl⟩

theorem reminders_of_the_first_report :
    (remindedAfter {} (fun _ ↦ none)
      [.check .ack firstReport (checkAt 500000000000),
        .check .ack firstReport (checkAt 600000000000)]).sent.countP
          (Sent.inTime .ack "OW-1") ≤ 1 :=
  (reminders_come_once_then_daily {} (fun _ ↦ none) _
    (List.pairwise_pair.mpr (dueNotLater_self .ack firstReport _ _))).1 .ack "OW-1"

end OpenWhistle.Reminders
