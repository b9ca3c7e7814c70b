import OpenWhistle.Foundation.LeastIncreasing
import OpenWhistle.Threads.Desk
import Mathlib.Data.List.Nodup
import Mathlib.Data.List.Forall2
import Mathlib.Data.List.GetD
import Mathlib.Data.List.Induction

/-!
# The migration to stored days

The times that whistleblowers gave rise to are rounded to the day they are on. A window over the old
order of a thread spreads the messages again: the largest of the rounded times less their places,
and the place itself. That is the least strictly increasing sequence above the rounded times, and
the same as what the running code makes of them one after the other. Rounding what the migration has
written moves nothing below the first rounding, and so a second run finds everything in its place.
-/

set_option autoImplicit false
set_option relaxedAutoImplicit false

namespace OpenWhistle.Threads.Migration

open LeastIncreasing (least)

structure Message where
  id : ℕ
  report : ℕ
  sender : ReportSender
  sentAt : ℕ
  deriving DecidableEq

/-! ### The statement -/

/-- `ORDER BY sent_at, id`. -/
def before (a b : Message) : Bool :=
  decide (a.sentAt < b.sentAt) || decide (a.sentAt = b.sentAt) && decide (a.id ≤ b.id)

def inOrder (thread : List Message) : List Message := thread.mergeSort before

/-- `PARTITION BY report_id`. -/
def thread (messages : List Message) (report : ℕ) : List Message :=
  messages.filter fun message ↦ decide (message.report = report)

/-- `ranked`: each message with its `row_number`. -/
def ranked (messages : List Message) (report : ℕ) : List (Message × ℕ) :=
  (inOrder (thread messages report)).zipIdx 1

/-- `r`. -/
def rounded (row : Message × ℕ) : ℕ :=
  if row.2 = 1 ∨ row.1.sender = .whistleblower then dayFloor row.1.sentAt else row.1.sentAt

/-- `max(r - n * interval '1 microsecond') OVER (PARTITION BY report_id ORDER BY n)`. -/
def windowMax (rows : List (Message × ℕ)) (n : ℕ) : Option ℤ :=
  ((rows.filter fun row ↦ decide (row.2 ≤ n)).map fun row ↦ (rounded row : ℤ) - row.2).max?

/-- `retimed`: the window holds the row itself. -/
def retimed (messages : List Message) (report : ℕ) : List (Message × ℤ) :=
  let rows := ranked messages report
  rows.map fun row ↦ (row.1, (windowMax rows row.2).getD 0 + row.2)

/-- The new row of a message. -/
def update (messages : List Message) (message : Message) : Message :=
  match (retimed messages message.report).find? fun row ↦ decide (row.1.id = message.id) with
  | some row => { message with sentAt := row.2.toNat }
  | none => message

/-- The statement `_MESSAGES`. -/
def upgradeMessages (messages : List Message) : List Message := messages.map (update messages)

/-! ### The rule of the running code -/

/-- The times that posting the messages of a thread in their order gives. -/
def ruleTimes (old : List Message) : List ℕ :=
  (old.zipIdx 1).foldl (fun times row ↦ times ++ [nextAfter times.max? (rounded row)]) []

def roundedTimes (old : List Message) : List ℕ := (old.zipIdx 1).map rounded

/-! ### Positions -/

def floorAt (old : List Message) (i : ℕ) : ℕ :=
  match old[i]? with
  | some message => rounded (message, i + 1)
  | none => 0

theorem floorAt_eq {old : List Message} {i : ℕ} {message : Message} (h : old[i]? = some message) :
    floorAt old i = rounded (message, i + 1) := by
  rw [floorAt, h]

/-- A thread with the least strictly increasing times above its rounded ones. -/
def retime (old : List Message) : List Message :=
  old.zipIdx.map fun row ↦ { row.1 with sentAt := least (floorAt old) row.2 }

theorem getElem?_retime (old : List Message) (i : ℕ) :
    (retime old)[i]? = old[i]?.map fun message ↦ { message with sentAt := least (floorAt old) i } := by
  rw [retime, List.getElem?_map, List.getElem?_zipIdx]
  cases old[i]? with
  | none => rfl
  | some message => rw [Option.map_some, Option.map_some, Option.map_some, Nat.zero_add]

theorem length_retime (old : List Message) : (retime old).length = old.length := by
  rw [retime, List.length_map, List.length_zipIdx]

theorem pairwise_retime (old : List Message) :
    (retime old).Pairwise fun a b ↦ a.sentAt < b.sentAt := by
  refine List.pairwise_iff_getElem.mpr fun i j hi hj hlt ↦ ?_
  have hsent : ∀ k (hk : k < (retime old).length), (retime old)[k].sentAt = least (floorAt old) k := by
    intro k hk
    have helem := getElem?_retime old k
    rw [List.getElem?_eq_getElem hk, List.getElem?_eq_getElem (length_retime old ▸ hk)] at helem
    rw [Option.some.inj helem]
  rw [hsent i hi, hsent j hj]
  exact LeastIncreasing.strictMono_least (floorAt old) hlt

/-! ### The window -/

theorem windowMax_eq {old : List Message} {i : ℕ} {message : Message} (h : old[i]? = some message) :
    windowMax (old.zipIdx 1) (i + 1) = some ((least (floorAt old) i : ℤ) - (i + 1)) := by
  rw [windowMax, List.max?_eq_some_iff]
  constructor
  · obtain ⟨k, hk, heq⟩ := LeastIncreasing.exists_least_add (floorAt old) i
    obtain ⟨hi, _⟩ := List.getElem?_eq_some_iff.mp h
    have helem : old[k]? = some old[k] := List.getElem?_eq_getElem (hk.trans_lt hi)
    rw [floorAt_eq helem] at heq
    refine List.mem_map.mpr ⟨(old[k], k + 1), List.mem_filter.mpr ⟨?_, ?_⟩, ?_⟩
    · exact List.mk_mem_zipIdx_iff_le_and_getElem?_sub.mpr ⟨Nat.le_add_left 1 k, helem⟩
    · exact decide_eq_true (Nat.succ_le_succ hk)
    · dsimp only
      omega
  · intro value hvalue
    obtain ⟨⟨other, n⟩, hmem, rfl⟩ := List.mem_map.mp hvalue
    obtain ⟨hrow, hn⟩ := List.mem_filter.mp hmem
    obtain ⟨hpos, helem⟩ := List.mk_mem_zipIdx_iff_le_and_getElem?_sub.mp hrow
    obtain ⟨k, rfl⟩ := Nat.exists_eq_add_of_le' hpos
    rw [Nat.add_sub_cancel] at helem
    have hle := LeastIncreasing.add_le_least (floorAt old)
      (Nat.le_of_succ_le_succ (of_decide_eq_true hn))
    rw [floorAt_eq helem] at hle
    dsimp only
    omega

/-! ### The new rows -/

section Table

variable {messages : List Message} {report i : ℕ} {message : Message}

theorem perm_inOrder (old : List Message) : (inOrder old).Perm old := List.mergeSort_perm _ _

theorem mem_of_inOrder (h : (inOrder (thread messages report))[i]? = some message) :
    message ∈ messages ∧ message.report = report := by
  have hmem := (perm_inOrder _).mem_iff.mp (List.mem_of_getElem? h)
  obtain ⟨hmessage, hreport⟩ := List.mem_filter.mp hmem
  exact ⟨hmessage, of_decide_eq_true hreport⟩

theorem nodup_inOrder (hids : (messages.map Message.id).Nodup) (report : ℕ) :
    ((inOrder (thread messages report)).map Message.id).Nodup := by
  refine (((perm_inOrder _).map Message.id).nodup_iff).mpr ?_
  exact hids.sublist (List.filter_sublist.map Message.id)

/-- The row of a message is found by its id. -/
theorem find?_retimed (hids : (messages.map Message.id).Nodup)
    (h : (inOrder (thread messages report))[i]? = some message) :
    (retimed messages report).find? (fun row ↦ decide (row.1.id = message.id)) =
      some (message, (least (floorAt (inOrder (thread messages report))) i : ℤ)) := by
  have hrow : ∀ (k : ℕ) (other : Message), (inOrder (thread messages report))[k]? = some other →
      (windowMax (ranked messages report) (k + 1)).getD 0 + ((k + 1 : ℕ) : ℤ) =
        least (floorAt (inOrder (thread messages report))) k := by
    intro k other helem
    rw [ranked, windowMax_eq helem, Option.getD_some]
    omega
  cases hfind : (retimed messages report).find? fun row ↦ decide (row.1.id = message.id) with
  | none =>
    have hmem : (message, i + 1) ∈ ranked messages report :=
      List.mk_mem_zipIdx_iff_le_and_getElem?_sub.mpr ⟨Nat.le_add_left 1 i, h⟩
    refine absurd ?_ (List.find?_eq_none.mp hfind _ (List.mem_map.mpr ⟨_, hmem, rfl⟩))
    exact decide_eq_true rfl
  | some row =>
    obtain ⟨⟨other, n⟩, hmem, rfl⟩ := List.mem_map.mp (List.mem_of_find?_eq_some hfind)
    obtain ⟨hpos, helem⟩ := List.mk_mem_zipIdx_iff_le_and_getElem?_sub.mp hmem
    obtain ⟨k, rfl⟩ := Nat.exists_eq_add_of_le' hpos
    rw [Nat.add_sub_cancel] at helem
    have hfound := List.find?_some hfind
    have hid : other.id = message.id := of_decide_eq_true hfound
    -- ids are unique, so it is the same place
    have hplace : k = i := by
      refine (List.getElem?_inj ?_ (nodup_inOrder hids report)).mp ?_
      · rw [List.length_map]
        exact (List.getElem?_eq_some_iff.mp helem).1
      · rw [List.getElem?_map, List.getElem?_map, helem, h, Option.map_some, Option.map_some, hid]
    subst hplace
    rw [h] at helem
    rw [Option.some.inj helem] at h ⊢
    exact congrArg some (Prod.ext rfl (hrow k _ h))

theorem update_eq (hids : (messages.map Message.id).Nodup)
    (h : (inOrder (thread messages report))[i]? = some message) :
    update messages message =
      { message with sentAt := least (floorAt (inOrder (thread messages report))) i } := by
  obtain ⟨_, hreport⟩ := mem_of_inOrder h
  have hfind := find?_retimed hids h
  rw [← hreport] at hfind ⊢
  rw [update, hfind]
  exact congrArg (fun time ↦ { message with sentAt := time }) (Int.toNat_natCast _)

theorem update_keeps (messages : List Message) (message : Message) :
    (update messages message).id = message.id ∧ (update messages message).report = message.report ∧
      (update messages message).sender = message.sender := by
  unfold update
  cases (retimed messages message.report).find? _ with
  | none => exact ⟨rfl, rfl, rfl⟩
  | some row => exact ⟨rfl, rfl, rfl⟩

theorem map_id_upgradeMessages (messages : List Message) :
    (upgradeMessages messages).map Message.id = messages.map Message.id := by
  rw [upgradeMessages, List.map_map]
  exact List.map_congr_left fun message _ ↦ (update_keeps messages message).1

theorem thread_upgradeMessages (messages : List Message) (report : ℕ) :
    thread (upgradeMessages messages) report = (thread messages report).map (update messages) := by
  rw [thread, upgradeMessages, List.filter_map, thread]
  refine congrArg (List.map (update messages)) (List.filter_congr fun message _ ↦ ?_)
  rw [Function.comp_apply, (update_keeps messages message).2.1]

theorem map_update_inOrder (hids : (messages.map Message.id).Nodup) (report : ℕ) :
    (inOrder (thread messages report)).map (update messages) =
      retime (inOrder (thread messages report)) := by
  refine List.ext_getElem? fun k ↦ ?_
  rw [List.getElem?_map, getElem?_retime]
  cases helem : (inOrder (thread messages report))[k]? with
  | none => rfl
  | some other => rw [Option.map_some, Option.map_some, update_eq hids helem]

/-- The new times leave the thread in its order. -/
theorem inOrder_upgradeMessages (hids : (messages.map Message.id).Nodup) (report : ℕ) :
    inOrder (thread (upgradeMessages messages) report) =
      retime (inOrder (thread messages report)) := by
  have hsorted : (inOrder (thread (upgradeMessages messages) report)).Pairwise fun a b ↦
      before a b = true := List.pairwise_mergeSort
    (fun a b c ↦ by simp only [before, Bool.or_eq_true, Bool.and_eq_true, decide_eq_true_eq]; omega)
    (fun a b ↦ by simp only [before, Bool.or_eq_true, Bool.and_eq_true, decide_eq_true_eq]; omega)
    (thread (upgradeMessages messages) report)
  have hretimed := pairwise_retime (inOrder (thread messages report))
  have hids' : ((upgradeMessages messages).map Message.id).Nodup := by
    rw [map_id_upgradeMessages]
    exact hids
  have hmem : ∀ a ∈ inOrder (thread (upgradeMessages messages) report), a ∈ upgradeMessages messages :=
    fun a ha ↦ List.mem_of_mem_filter ((perm_inOrder _).mem_iff.mp ha)
  have hperm : (inOrder (thread (upgradeMessages messages) report)).Perm
      (retime (inOrder (thread messages report))) := by
    rw [← map_update_inOrder hids]
    refine (perm_inOrder _).trans ?_
    rw [thread_upgradeMessages]
    exact ((perm_inOrder _).map _).symm
  refine hperm.eq_of_pairwise ?_ hsorted ?_
  · intro a b ha hb hab hba
    refine List.inj_on_of_nodup_map hids' (hmem a ha) (hmem b (hperm.mem_iff.mpr hb)) ?_
    simp only [before, Bool.or_eq_true, Bool.and_eq_true, decide_eq_true_eq] at hab hba
    omega
  · refine hretimed.imp fun {a b} hlt ↦ ?_
    rw [before, decide_eq_true hlt, Bool.true_or]

/-! ### The rule -/

theorem times_retime_append (old : List Message) (message : Message) :
    (retime (old ++ [message])).map Message.sentAt =
      (retime old).map Message.sentAt ++ [least (floorAt (old ++ [message])) old.length] := by
  have hfloor : ∀ k < old.length, floorAt (old ++ [message]) k = floorAt old k := by
    intro k hk
    rw [floorAt, floorAt, List.getElem?_append_left hk]
  rw [retime, retime, List.zipIdx_append, List.map_append, List.map_append]
  refine congrArg₂ (· ++ ·) ?_ ?_
  · refine congrArg (List.map Message.sentAt) (List.map_congr_left fun row hrow ↦ ?_)
    have hlt : row.2 < old.length :=
      (List.getElem?_eq_some_iff.mp (List.mem_zipIdx_iff_getElem?.mp hrow)).1
    rw [LeastIncreasing.least_congr fun k hk ↦ hfloor k (hk.trans_lt hlt)]
  · rw [Nat.zero_add]
    rfl

/-- The last time of a thread is its latest. -/
theorem max?_times_retime (old : List Message) (message : Message) :
    ((retime (old ++ [message])).map Message.sentAt).max? =
      some (least (floorAt (old ++ [message])) old.length) := by
  refine List.max?_eq_some_iff.mpr ⟨?_, fun time htime ↦ ?_⟩
  · rw [times_retime_append]
    exact List.mem_append_right _ (List.mem_singleton_self _)
  · have hpairs := List.pairwise_map.mpr (pairwise_retime (old ++ [message]))
    rw [times_retime_append] at hpairs htime
    rcases List.mem_append.mp htime with hearlier | hlast
    · exact ((List.pairwise_append.mp hpairs).2.2 time hearlier _ (List.mem_singleton_self _)).le
    · exact (List.mem_singleton.mp hlast).le

theorem ruleTimes_append (old : List Message) (message : Message) :
    ruleTimes (old ++ [message]) = ruleTimes old ++
      [nextAfter (ruleTimes old).max? (rounded (message, old.length + 1))] := by
  rw [ruleTimes, List.zipIdx_append, List.foldl_append, Nat.add_comm 1]
  rfl

theorem floorAt_append (old : List Message) (message : Message) :
    floorAt (old ++ [message]) old.length = rounded (message, old.length + 1) :=
  floorAt_eq List.getElem?_concat_length

theorem nextAfter_some (time earliest : ℕ) :
    nextAfter (some time) earliest = max earliest (time + 1) := by
  unfold nextAfter
  dsimp only
  split_ifs with hle
  · exact (max_eq_right (Nat.le_succ_of_le hle)).symm
  · exact (max_eq_left (Nat.lt_of_not_le hle)).symm

/-- Messages posted one after the other get the times of the migration. -/
theorem ruleTimes_eq (old : List Message) : ruleTimes old = (retime old).map Message.sentAt := by
  induction old using List.reverseRecOn with
  | nil => rfl
  | append_singleton old message ih =>
    rw [ruleTimes_append, times_retime_append, ih]
    refine congrArg (fun time ↦ (retime old).map Message.sentAt ++ [time]) ?_
    rcases List.eq_nil_or_concat old with rfl | ⟨earlier, last, rfl⟩
    · rw [← floorAt_append]
      rfl
    · have hearlier : ∀ k ≤ earlier.length,
          floorAt (earlier ++ [last] ++ [message]) k = floorAt (earlier ++ [last]) k := by
        intro k hk
        rw [floorAt, floorAt, List.getElem?_append_left]
        rw [List.length_append, List.length_singleton]
        exact Nat.lt_succ_of_le hk
      have hlength : (earlier ++ [last]).length = earlier.length + 1 := List.length_append
      rw [List.concat_eq_append, max?_times_retime, ← floorAt_append, nextAfter_some, hlength,
        LeastIncreasing.least, LeastIncreasing.least_congr hearlier]

/-! ### A second run -/

theorem dayFloor_le (moment : ℕ) : dayFloor moment ≤ moment := Nat.sub_le _ _

theorem dayFloor_le_dayFloor {earlier later : ℕ} (h : dayFloor earlier ≤ later) :
    dayFloor earlier ≤ dayFloor later := by
  unfold dayFloor microsecondsPerDay at *
  omega

/-- What is rounded again is not rounded below the first rounding, and not above the new time. -/
theorem floorAt_retime (old : List Message) {k : ℕ} (hk : k < old.length) :
    floorAt old k ≤ floorAt (retime old) k ∧ floorAt (retime old) k ≤ least (floorAt old) k := by
  have helem : old[k]? = some old[k] := List.getElem?_eq_getElem hk
  have hnew := getElem?_retime old k
  rw [helem, Option.map_some] at hnew
  have hle := LeastIncreasing.le_least (floorAt old) k
  rw [floorAt_eq hnew]
  rw [floorAt_eq helem] at hle ⊢
  unfold rounded at *
  dsimp only at *
  by_cases hround : k + 1 = 1 ∨ old[k].sender = .whistleblower
  · rw [if_pos hround] at hle ⊢
    rw [if_pos hround]
    exact ⟨dayFloor_le_dayFloor hle, dayFloor_le _⟩
  · rw [if_neg hround] at hle ⊢
    rw [if_neg hround]
    exact ⟨hle, le_rfl⟩

theorem least_floorAt_retime (old : List Message) {k : ℕ} (hk : k < old.length) :
    least (floorAt (retime old)) k = least (floorAt old) k :=
  LeastIncreasing.least_eq_of_le (fun _ hn ↦ (floorAt_retime old hn).1)
    (fun _ hn ↦ (floorAt_retime old hn).2) k hk

theorem upgradeMessages_upgradeMessages (hids : (messages.map Message.id).Nodup) :
    upgradeMessages (upgradeMessages messages) = upgradeMessages messages := by
  have hids' : ((upgradeMessages messages).map Message.id).Nodup := by
    rw [map_id_upgradeMessages]
    exact hids
  refine (List.map_congr_left fun message hmem ↦ ?_).trans (List.map_id _)
  have hthread : message ∈ inOrder (thread (upgradeMessages messages) message.report) :=
    (perm_inOrder _).mem_iff.mpr (List.mem_filter.mpr ⟨hmem, decide_eq_true rfl⟩)
  obtain ⟨k, helem⟩ := List.mem_iff_getElem?.mp hthread
  rw [update_eq hids' helem, inOrder_upgradeMessages hids]
  rw [inOrder_upgradeMessages hids, getElem?_retime] at helem
  obtain ⟨old, hold, hnew⟩ := Option.map_eq_some_iff.mp helem
  have hsent : message.sentAt = least (floorAt (inOrder (thread messages message.report))) k :=
    (congrArg Message.sentAt hnew).symm
  rw [least_floorAt_retime _ (List.getElem?_eq_some_iff.mp hold).1, ← hsent]
  rfl

/-! ### The migration -/

theorem roundedTimes_eq (old : List Message) :
    roundedTimes old = (List.range old.length).map (floorAt old) := by
  refine List.ext_getElem? fun k ↦ ?_
  rw [roundedTimes, List.getElem?_map, List.getElem?_zipIdx, List.getElem?_map]
  cases helem : old[k]? with
  | none =>
    have hrange : (List.range old.length)[k]? = none := by
      rw [List.getElem?_eq_none_iff, List.length_range]
      exact List.getElem?_eq_none_iff.mp helem
    rw [hrange]
    rfl
  | some message =>
    rw [List.getElem?_range (List.getElem?_eq_some_iff.mp helem).1, Option.map_some, Option.map_some,
      Option.map_some, floorAt_eq helem, Nat.add_comm 1]

theorem times_retime_eq (old : List Message) :
    (retime old).map Message.sentAt = (List.range old.length).map (least (floorAt old)) := by
  refine List.ext_getElem? fun k ↦ ?_
  rw [List.getElem?_map, getElem?_retime, List.getElem?_map]
  cases helem : old[k]? with
  | none =>
    have hrange : (List.range old.length)[k]? = none := by
      rw [List.getElem?_eq_none_iff, List.length_range]
      exact List.getElem?_eq_none_iff.mp helem
    rw [hrange]
    rfl
  | some message =>
    rw [List.getElem?_range (List.getElem?_eq_some_iff.mp helem).1]
    rfl

/-- The new times are the least strictly increasing ones that are nowhere below the rounded times.
-/
theorem times_retime_least (old : List Message) :
    List.Forall₂ (· ≤ ·) (roundedTimes old) ((retime old).map Message.sentAt) ∧
      ∀ times : List ℕ, times.Pairwise (· < ·) → List.Forall₂ (· ≤ ·) (roundedTimes old) times →
        List.Forall₂ (· ≤ ·) ((retime old).map Message.sentAt) times := by
  rw [roundedTimes_eq, times_retime_eq]
  constructor
  · refine List.forall₂_map_left_iff.mpr (List.forall₂_map_right_iff.mpr ?_)
    exact List.forall₂_same.mpr fun k _ ↦ LeastIncreasing.le_least _ k
  · intro times hincreasing habove
    have hlength := habove.length_eq
    rw [List.length_map, List.length_range] at hlength
    have hget := (List.forall₂_iff_get.mp habove).2
    have hbelow : ∀ k < old.length, least (floorAt old) k ≤ times.getD k 0 := by
      refine LeastIncreasing.least_le (fun k hk ↦ ?_) fun k hk ↦ ?_
      · rw [List.getD_eq_getElem _ _ (hlength ▸ Nat.lt_of_succ_lt hk),
          List.getD_eq_getElem _ _ (hlength ▸ hk)]
        exact List.pairwise_iff_getElem.mp hincreasing k (k + 1) _ _ (Nat.lt_succ_self k)
      · rw [List.getD_eq_getElem _ _ (hlength ▸ hk)]
        have hk' : k < ((List.range old.length).map (floorAt old)).length := by
          rw [List.length_map, List.length_range]
          exact hk
        have h := hget k hk' (hlength ▸ hk)
        rw [List.get_eq_getElem, List.get_eq_getElem, List.getElem_map, List.getElem_range] at h
        exact h
    refine List.forall₂_iff_get.mpr ⟨?_, fun k hk hk' ↦ ?_⟩
    · rw [List.length_map, List.length_range, hlength]
    · rw [List.get_eq_getElem, List.get_eq_getElem, List.getElem_map, List.getElem_range]
      rw [← List.getD_eq_getElem _ 0 hk']
      exact hbelow k (hlength ▸ hk')

/-- Of messages with different ids, every thread keeps its order, and its new times are those of the
rule of the running code: the least strictly increasing ones above the rounded times. A second run
changes nothing. -/
theorem migration_is_the_rule (messages : List Message) (hids : (messages.map Message.id).Nodup) :
    (∀ report,
      let old := inOrder (thread messages report)
      let new := inOrder (thread (upgradeMessages messages) report)
      (new.map fun message ↦ (message.id, message.report, message.sender)) =
        (old.map fun message ↦ (message.id, message.report, message.sender)) ∧
      new.map Message.sentAt = ruleTimes old ∧
      (new.map Message.sentAt).Pairwise (· < ·) ∧
      List.Forall₂ (· ≤ ·) (roundedTimes old) (new.map Message.sentAt) ∧
      ∀ times : List ℕ, times.Pairwise (· < ·) → List.Forall₂ (· ≤ ·) (roundedTimes old) times →
        List.Forall₂ (· ≤ ·) (new.map Message.sentAt) times) ∧
    upgradeMessages (upgradeMessages messages) = upgradeMessages messages := by
  refine ⟨fun report ↦ ?_, upgradeMessages_upgradeMessages hids⟩
  dsimp only
  rw [inOrder_upgradeMessages hids]
  obtain ⟨habove, hleast⟩ := times_retime_least (inOrder (thread messages report))
  refine ⟨?_, (ruleTimes_eq _).symm, List.pairwise_map.mpr (pairwise_retime _), habove, hleast⟩
  rw [← map_update_inOrder hids, List.map_map]
  refine List.map_congr_left fun message _ ↦ ?_
  obtain ⟨hid, hreport, hsender⟩ := update_keeps messages message
  exact Prod.ext hid (Prod.ext hreport hsender)

end Table

/-- A receipt at noon, an answer of the office and a message of the reporter on the next day. -/
def smallTable : List Message :=
  [⟨2, 0, .admin, 86400000001⟩, ⟨1, 0, .whistleblower, 43200000000⟩,
    ⟨3, 0, .whistleblower, 90000000000⟩]

theorem smallTable_migrates_once :
    upgradeMessages (upgradeMessages smallTable) = upgradeMessages smallTable :=
  (migration_is_the_rule smallTable (by decide)).2

end OpenWhistle.Threads.Migration
