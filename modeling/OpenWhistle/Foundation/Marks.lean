import OpenWhistle.Foundation.Redis
import Mathlib.Data.List.Count
import Mathlib.Data.List.Pairwise

/-!
# Keys that are set where there is none

A key that is set only where none is found, and for a limited time, spaces the occasions on which it
is set: no one of them falls before the time of another of the same key is over. Nothing else has to
be known of the key, neither who sets it nor how long each of them does.
-/

set_option autoImplicit false
set_option relaxedAutoImplicit false

namespace Redis

/-- SET with NX and EX. -/
def setNx (s : Store) (now : ℕ) (key value : String) (seconds : ℕ) : Option Store :=
  match find s now key with
  | some _ => none
  | none => some (set s now key value seconds)

theorem setNx_eq_some {s t : Store} {now seconds : ℕ} {key value : String}
    (h : setNx s now key value seconds = some t) :
    find s now key = none ∧ t = set s now key value seconds := by
  unfold setNx at h
  cases hfind : find s now key with
  | some entry =>
    rw [hfind] at h
    cases h
  | none =>
    rw [hfind] at h
    cases h
    exact ⟨rfl, rfl⟩

/-- Where a key is not set, its entry has time left. -/
theorem exists_of_setNx_eq_none {s : Store} {now seconds : ℕ} {key value : String}
    (h : setNx s now key value seconds = none) :
    ∃ e, s key = some e ∧ ∀ time, e.expiresAt = some time → now ≤ time := by
  unfold setNx at h
  cases hfind : find s now key with
  | some e =>
    obtain ⟨hkey, hlive⟩ := Option.filter_eq_some_iff.mp hfind
    refine ⟨e, hkey, fun time htime ↦ ?_⟩
    rw [Entry.live, htime] at hlive
    exact of_decide_eq_true hlive
  | none =>
    rw [hfind] at h
    cases h

/-! ### A key that is there for a time at least -/

def Marked (s : Store) (key : String) (ends : ℕ) : Prop :=
  ∃ e time, s key = some e ∧ e.expiresAt = some time ∧ ends ≤ time

theorem Marked.find_ne_none {s : Store} {key : String} {ends now : ℕ} (h : Marked s key ends)
    (hnow : now ≤ ends) : find s now key ≠ none := by
  obtain ⟨e, time, hkey, htime, hends⟩ := h
  rw [find_eq_some hkey htime (hnow.trans hends)]
  exact Option.some_ne_none e

theorem marked_set (s : Store) (now : ℕ) (key value : String) (seconds : ℕ) :
    Marked (set s now key value seconds) key (now + 1000 * seconds) :=
  ⟨_, _, set_self .., rfl, le_rfl⟩

theorem Marked.congr {s t : Store} {key : String} {ends : ℕ} (h : Marked s key ends)
    (heq : t key = s key) : Marked t key ends := by
  obtain ⟨e, time, hkey, htime, hends⟩ := h
  exact ⟨e, time, heq.trans hkey, htime, hends⟩

/-- A key found missing at some time and set no earlier is not there for less time than before. -/
theorem Marked.set {s : Store} {key other value : String} {ends check now seconds : ℕ}
    (h : Marked s key ends) (hfind : find s check other = none) (hcheck : check ≤ now) :
    Marked (set s now other value seconds) key ends := by
  by_cases heq : key = other
  · subst heq
    have hends : ends < check := by
      by_contra hlate
      exact h.find_ne_none (not_lt.mp hlate) hfind
    refine ⟨_, _, set_self .., rfl, ?_⟩
    omega
  · exact h.congr (set_of_ne heq)

/-! ### Occasions -/

/-- A key was found missing, and set until a time. -/
structure Occasion where
  key : String
  check : ℕ
  ends : ℕ

/-- What holds of the occasions so far, the last of them first. -/
structure Spaced (s : Store) (occasions : List Occasion) : Prop where
  marked : ∀ occasion ∈ occasions, Marked s occasion.key occasion.ends
  apart : occasions.Pairwise fun later earlier ↦ later.key = earlier.key → earlier.ends < later.check

theorem spaced_nil (s : Store) : Spaced s [] := ⟨nofun, List.Pairwise.nil⟩

theorem Spaced.congr {s t : Store} {occasions : List Occasion} (h : Spaced s occasions)
    (heq : ∀ occasion ∈ occasions, t occasion.key = s occasion.key) : Spaced t occasions :=
  ⟨fun occasion hmem ↦ (h.marked occasion hmem).congr (heq occasion hmem), h.apart⟩

theorem Spaced.cons {s : Store} {occasions : List Occasion} {key value : String}
    {check now seconds : ℕ} (h : Spaced s occasions) (hfind : find s check key = none)
    (hcheck : check ≤ now) :
    Spaced (set s now key value seconds) (⟨key, check, now + 1000 * seconds⟩ :: occasions) := by
  constructor
  · intro occasion hmem
    rcases List.mem_cons.mp hmem with rfl | hmem
    · exact marked_set ..
    · exact (h.marked occasion hmem).set hfind hcheck
  · refine List.pairwise_cons.mpr ⟨fun earlier hmem heq ↦ ?_, h.apart⟩
    by_contra hlate
    refine (h.marked earlier hmem).find_ne_none (not_lt.mp hlate) ?_
    rw [← heq]
    exact hfind

/-- Where no two of the occasions are of the kind that is counted, at most one is. -/
theorem countP_le_one {α : Type} {occasions : List α} {counted : α → Bool}
    (h : occasions.Pairwise fun later earlier ↦ counted earlier = true → ¬counted later = true) :
    occasions.countP counted ≤ 1 := by
  induction occasions with
  | nil => exact Nat.zero_le 1
  | cons last occasions ih =>
    obtain ⟨hlast, hrest⟩ := List.pairwise_cons.mp h
    by_cases hcounted : counted last = true
    · have hnone : occasions.countP counted = 0 :=
        List.countP_eq_zero.mpr fun earlier hmem hearlier ↦ hlast earlier hmem hearlier hcounted
      rw [List.countP_cons_of_pos hcounted, hnone]
    · rw [List.countP_cons_of_neg hcounted]
      exact ih hrest

end Redis
