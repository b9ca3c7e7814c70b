import OpenWhistle.Telemetry.Installation
import Mathlib.Data.List.Pairwise

/-!
# What the steps keep

The count: the key of the last lock is there until its time is over, so locks are as far apart; a
request leaves under a lock of its own run, with an identifier that the committed row has had. A row
that is made and a reset bring one identifier each.

The days: a success has its times in their order, and its run is over within a bound; the committed
row tells of the successes under its identifier; two of these are a day apart.

The steps of one run, as the others see them, are the relation `Around`.
-/

set_option autoImplicit false
set_option relaxedAutoImplicit false

namespace OpenWhistle.Telemetry

open Interleaving

variable {s t u : Installation} {w v : ℕ} {id : String} {since : ℕ}

/-! ### The invariant -/

/-- Two locks, the later one first. -/
def Apart (later earlier : ℕ × ℕ) : Prop := earlier.2 + lockTtl ≤ later.2

/-- The key of the last lock is there until its time is over. -/
def Guarded (s : Installation) : Prop :=
  ∀ last ∈ s.taken.head?, s.redis lockKey = some ⟨.text "1", some (last.2 + lockTtl)⟩

structure Counted (since : ℕ) (s : Installation) : Prop where
  clock : since ≤ s.clock
  guarded : Guarded s
  apart : s.taken.Pairwise Apart
  times : ∀ lock ∈ s.taken, since ≤ lock.2 ∧ lock.2 ≤ s.clock
  once : (s.requests.map Request.worker).Nodup
  locked : ∀ r ∈ s.requests,
    (r.worker, r.lockedAt) ∈ s.taken ∧ r.lockedAt ≤ r.leftAt ∧ r.leftAt ≤ s.clock
  held : ∀ r ∈ s.requests, r.id ∈ s.held
  row : ∀ row ∈ s.state, row.installationId ∈ s.held
  drawn : ∀ id ∈ s.held, id ∈ s.drawn
  uncommitted : ∀ item ∈ s.uncommitted, s.state = none ∧ item.2.lastSentAt = none ∧
    item.2.installationId ∈ s.drawn
  few : s.held.length ≤ s.state.toList.length + s.resets
  none : s.state = none → s.held = []

/-- A success, with the times of its run in their order, within the bound. -/
structure Success.Sound (bound : ℕ) (s : Installation) (a : Success) : Prop where
  lock : (a.worker, a.lockedAt) ∈ s.taken
  read : a.readAt ≤ a.lockedAt
  sent : a.lockedAt ≤ a.sentAt
  stored : a.sentAt ≤ a.committedAt
  past : a.committedAt ≤ s.clock
  prompt : a.committedAt < a.readAt + bound
  held : a.id ∈ s.held

/-- The row tells of a success under its identifier. -/
def Tells (row : TelemetryState) (a : Success) : Prop :=
  a.id = row.installationId → ∃ last, row.lastSentAt = some last ∧ a.sentAt ≤ last

/-- Two successes, the later one first. -/
def DayApart (later earlier : Success) : Prop :=
  later.id = earlier.id → earlier.sentAt + interval ≤ later.sentAt

structure Daily (bound : ℕ) (s : Installation) : Prop where
  sound : ∀ a ∈ s.successes, a.Sound bound s
  tells : ∀ row ∈ s.state, ∀ a ∈ s.successes, Tells row a
  apart : s.successes.Pairwise DayApart
  none : s.state = none → s.successes = []

/-- A bound on the time from the reading of a run to each of its later steps. -/
def Prompt (bound : ℕ) (w : ℕ) (s : Installation) : Prop :=
  ∀ readAt ∈ (s.attempt w).readAt, s.clock < readAt + bound

/-! ### What the others may do -/

structure Around (w : ℕ) (s t : Installation) : Prop where
  clock : s.clock ≤ t.clock
  attempt : t.attempt w = s.attempt w
  taken : ∀ lock ∈ s.taken, lock ∈ t.taken
  requests : ∀ r ∈ t.requests, r.worker = w → r ∈ s.requests
  successes : ∀ a ∈ t.successes, a ∈ s.successes ∨ a.worker ≠ w ∧ s.clock ≤ a.committedAt
  held : ∀ id ∈ s.held, id ∈ t.held
  state : s.state.isSome = true → t.state.isSome = true
  uncommitted : ∀ row, t.uncommitted = some (w, row) ↔ s.uncommitted = some (w, row)

theorem Around.refl (w : ℕ) (s : Installation) : Around w s s where
  clock := le_rfl
  attempt := rfl
  taken _ h := h
  requests _ h _ := h
  successes _ h := .inl h
  held _ h := h
  state h := h
  uncommitted _ := Iff.rfl

theorem Around.trans (hst : Around w s t) (htu : Around w t u) : Around w s u where
  clock := hst.clock.trans htu.clock
  attempt := htu.attempt.trans hst.attempt
  taken lock h := htu.taken lock (hst.taken lock h)
  requests r h hr := hst.requests r (htu.requests r h hr) hr
  successes a h := by
    rcases htu.successes a h with ha | ⟨ha, htime⟩
    · exact hst.successes a ha
    · exact .inr ⟨ha, hst.clock.trans htime⟩
  held id h := htu.held id (hst.held id h)
  state h := htu.state (hst.state h)
  uncommitted row := (htu.uncommitted row).trans (hst.uncommitted row)

/-- What holds of a run that has not started. -/
structure Untouched (w : ℕ) (s : Installation) : Prop where
  attempt : s.attempt w = ⟨none, none, none⟩
  requests : ∀ r ∈ s.requests, r.worker ≠ w
  successes : ∀ a ∈ s.successes, a.worker ≠ w
  uncommitted : ∀ row, s.uncommitted ≠ some (w, row)

theorem Untouched.later (h : Untouched w s) (haround : Around w s t) : Untouched w t where
  attempt := haround.attempt.trans h.attempt
  requests r hr hworker := h.requests r (haround.requests r hr hworker) hworker
  successes a ha hworker := by
    rcases haround.successes a ha with hold | ⟨hne, -⟩
    · exact h.successes a hold hworker
    · exact hne hworker
  uncommitted row hrow := h.uncommitted row ((haround.uncommitted row).mp hrow)

/-! ### What a session sees -/

theorem seen_of_own {row : TelemetryState} (h : s.uncommitted = some (w, row)) :
    s.seen w = some row := by
  simp [Installation.seen, h]

theorem seen_of_other (h : ∀ row, s.uncommitted ≠ some (w, row)) : s.seen w = s.state := by
  unfold Installation.seen
  cases hitem : s.uncommitted with
  | none => rfl
  | some item =>
    obtain ⟨v, row⟩ := item
    have hv : v ≠ w := by
      rintro rfl
      exact h row hitem
    simp [hv]

theorem isSome_seen (h : s.state.isSome = true) : (s.seen w).isSome = true := by
  by_cases hown : ∃ row, s.uncommitted = some (w, row)
  · obtain ⟨row, hrow⟩ := hown
    rw [seen_of_own hrow]
    rfl
  · rw [seen_of_other (not_exists.mp hown)]
    exact h

theorem waiting_eq_some {item : ℕ × TelemetryState} :
    s.waiting w = some item ↔ s.uncommitted = some item ∧ item.1 ≠ w := by
  simp [Installation.waiting, Option.filter_eq_some_iff]

/-- What a session sees is the committed row, or its own one while there is none. -/
theorem seen_cases (h : Counted since s) {row : TelemetryState} (hseen : s.seen w = some row) :
    s.state = some row ∨
      s.state = none ∧ s.uncommitted = some (w, row) ∧ row.installationId ∈ s.drawn := by
  by_cases hown : ∃ row, s.uncommitted = some (w, row)
  · obtain ⟨own, hitem⟩ := hown
    have heq : own = row := by
      rw [seen_of_own hitem] at hseen
      exact Option.some.inj hseen
    subst heq
    obtain ⟨hnone, -, hdrawn⟩ := h.uncommitted _ hitem
    exact .inr ⟨hnone, hitem, hdrawn⟩
  · rw [seen_of_other (not_exists.mp hown)] at hseen
    exact .inl hseen

theorem apply_installationId (write : Write) (fresh : String) (row : TelemetryState) :
    (write.apply fresh row).installationId = row.installationId ∨
      (∃ clears, write = .installationId clears) ∧
        (write.apply fresh row).installationId = fresh := by
  cases write with
  | nothing => exact .inl rfl
  | enabled value => exact .inl rfl
  | lastSentAt time => exact .inl rfl
  | installationId clears => exact .inr ⟨⟨clears, rfl⟩, rfl⟩

/-! ### Steps keep the count -/

/-- Two locks are apart, one way or the other. -/
theorem apart_of_mem (h : s.taken.Pairwise Apart) {first second : ℕ × ℕ} (hfirst : first ∈ s.taken)
    (hsecond : second ∈ s.taken) (hne : first ≠ second) :
    first.2 + lockTtl ≤ second.2 ∨ second.2 + lockTtl ≤ first.2 := by
  have hboth : s.taken.Pairwise fun a b ↦ Apart a b ∨ Apart b a := h.imp Or.inl
  have hsymm : Std.Symm fun a b : ℕ × ℕ ↦ Apart a b ∨ Apart b a := ⟨fun _ _ ↦ Or.symm⟩
  exact (hboth.forall hfirst hsecond hne).symm

theorem counted_now (h : Counted since s) (attempt : ℕ → Attempt) :
    Counted since { s with attempt := attempt } :=
  ⟨h.clock, h.guarded, h.apart, h.times, h.once, h.locked, h.held, h.row, h.drawn, h.uncommitted,
    h.few, h.none⟩

theorem counted_tick (h : Counted since s) (milliseconds : ℕ) :
    Counted since { s with clock := s.clock + milliseconds } where
  clock := h.clock.trans (Nat.le_add_right ..)
  guarded := h.guarded
  apart := h.apart
  times lock hlock := ⟨(h.times lock hlock).1, (h.times lock hlock).2.trans (Nat.le_add_right ..)⟩
  once := h.once
  locked r hr := by
    obtain ⟨hlock, hleft, hpast⟩ := h.locked r hr
    exact ⟨hlock, hleft, hpast.trans (Nat.le_add_right ..)⟩
  held := h.held
  row := h.row
  drawn := h.drawn
  uncommitted := h.uncommitted
  few := h.few
  none := h.none

theorem counted_rollback (h : Counted since s) :
    Counted since { s with uncommitted := s.waiting w } where
  clock := h.clock
  guarded := h.guarded
  apart := h.apart
  times := h.times
  once := h.once
  locked := h.locked
  held := h.held
  row := h.row
  drawn := h.drawn
  uncommitted item hitem := h.uncommitted item (waiting_eq_some.mp hitem).1
  few := h.few
  none := h.none

theorem counted_insert (h : Counted since s) (hstate : s.state = none) :
    Counted since
      { s with uncommitted := some (w, ⟨false, id, none⟩), drawn := id :: s.drawn } where
  clock := h.clock
  guarded := h.guarded
  apart := h.apart
  times := h.times
  once := h.once
  locked := h.locked
  held := h.held
  row := h.row
  drawn other hother := List.mem_cons_of_mem _ (h.drawn other hother)
  uncommitted item hitem := by
    cases hitem
    exact ⟨hstate, rfl, List.mem_cons_self⟩
  few := h.few
  none := h.none

/-- A lock that is taken is apart from the last one, whose key is gone. -/
theorem counted_lock (h : Counted since s)
    (hfree : Redis.find s.redis s.clock lockKey = none) (attempt : ℕ → Attempt) :
    Counted since { s with
      redis := Redis.set s.redis s.clock lockKey "1" lockTtlSeconds
      attempt := attempt
      taken := (w, s.clock) :: s.taken } where
  clock := h.clock
  guarded last hlast := by
    cases hlast
    exact Redis.set_self s.redis s.clock lockKey "1" lockTtlSeconds
  apart := by
    refine List.pairwise_cons.mpr ⟨fun earlier hearlier ↦ ?_, h.apart⟩
    cases htaken : s.taken with
    | nil =>
      rw [htaken] at hearlier
      cases hearlier
    | cons last older =>
      have hkey := h.guarded last (by rw [htaken]; rfl)
      have hgone : last.2 + lockTtl ≤ s.clock := by
        by_contra hlive
        rw [Redis.find_eq_some hkey rfl (Nat.le_of_not_le hlive)] at hfree
        cases hfree
      have hlast : earlier.2 ≤ last.2 := by
        have hapart := h.apart
        rw [htaken] at hearlier hapart
        rcases List.mem_cons.mp hearlier with rfl | holder
        · exact le_rfl
        · exact (Nat.le_add_right ..).trans ((List.pairwise_cons.mp hapart).1 earlier holder)
      exact (Nat.add_le_add_right hlast _).trans hgone
  times lock hlock := by
    rcases List.mem_cons.mp hlock with rfl | hold
    · exact ⟨h.clock, le_rfl⟩
    · exact h.times lock hold
  once := h.once
  locked r hr := ⟨List.mem_cons_of_mem _ (h.locked r hr).1, (h.locked r hr).2⟩
  held := h.held
  row := h.row
  drawn := h.drawn
  uncommitted := h.uncommitted
  few := h.few
  none := h.none

theorem counted_send (h : Counted since s) {lockedAt : ℕ} (attempt : ℕ → Attempt)
    (hnone : ∀ r ∈ s.requests, r.worker ≠ w) (hlock : (w, lockedAt) ∈ s.taken) (hid : id ∈ s.held) :
    Counted since { s with
      attempt := attempt
      requests := ⟨w, id, lockedAt, s.clock⟩ :: s.requests } where
  clock := h.clock
  guarded := h.guarded
  apart := h.apart
  times := h.times
  once := by
    refine List.nodup_cons.mpr ⟨fun hmem ↦ ?_, h.once⟩
    obtain ⟨r, hr, hworker⟩ := List.mem_map.mp hmem
    exact hnone r hr hworker
  locked r hr := by
    rcases List.mem_cons.mp hr with rfl | hold
    · exact ⟨hlock, (h.times _ hlock).2, le_rfl⟩
    · exact h.locked r hold
  held r hr := by
    rcases List.mem_cons.mp hr with rfl | hold
    · exact hid
    · exact h.held r hold
  row := h.row
  drawn := h.drawn
  uncommitted := h.uncommitted
  few := h.few
  none := h.none

/-- The identifiers after a commit are the old ones and that of the row. -/
theorem held_committed (write : Write) (fresh : String) :
    (∀ id ∈ s.held, id ∈ (s.committed w write fresh).held) ∧
      ∀ row ∈ (s.committed w write fresh).state,
        row.installationId ∈ (s.committed w write fresh).held := by
  unfold Installation.committed
  cases (s.seen w).map (write.apply fresh) with
  | none => exact ⟨fun id hid ↦ hid, fun row hrow ↦ by cases hrow⟩
  | some row =>
    dsimp only
    split_ifs with hmem
    · refine ⟨fun id hid ↦ hid, fun other hother ↦ ?_⟩
      cases hother
      exact hmem
    · refine ⟨fun id hid ↦ List.mem_cons_of_mem _ hid, fun other hother ↦ ?_⟩
      cases hother
      exact List.mem_cons_self

/-- A commit publishes an identifier that was drawn. -/
theorem drawn_committed (h : Counted since s) (write : Write) (fresh : String) :
    ∀ id ∈ (s.committed w write fresh).held, id ∈ (s.committed w write fresh).drawn := by
  have hgrows : ∀ id ∈ s.drawn, id ∈ (s.committed w write fresh).drawn := by
    intro id hid
    cases write with
    | installationId clears => exact List.mem_cons_of_mem _ hid
    | nothing => exact hid
    | enabled value => exact hid
    | lastSentAt time => exact hid
  have hrow : ∀ row ∈ (s.seen w).map (write.apply fresh),
      row.installationId ∈ (s.committed w write fresh).drawn := by
    intro row hrow
    obtain ⟨old, hseen, rfl⟩ := Option.map_eq_some_iff.mp hrow
    rcases apply_installationId write fresh old with hsame | ⟨⟨clears, rfl⟩, hfresh⟩
    · rw [hsame]
      rcases seen_cases h hseen with hstate | ⟨-, -, hdrawn⟩
      · exact hgrows _ (h.drawn _ (h.row old hstate))
      · exact hgrows _ hdrawn
    · rw [hfresh]
      exact List.mem_cons_self
  intro id hid
  have hcases :
      id ∈ s.held ∨ ∃ row ∈ (s.seen w).map (write.apply fresh), id = row.installationId := by
    unfold Installation.committed at hid
    cases hmap : (s.seen w).map (write.apply fresh) with
    | none =>
      rw [hmap] at hid
      exact .inl hid
    | some row =>
      rw [hmap] at hid
      dsimp only at hid
      split_ifs at hid with hmem
      · exact .inl hid
      · rcases List.mem_cons.mp hid with rfl | hold
        · exact .inr ⟨row, rfl, rfl⟩
        · exact .inl hold
  rcases hcases with hold | ⟨row, hmem, rfl⟩
  · exact hgrows id (h.drawn id hold)
  · exact hrow row hmem

/-- One more identifier takes a row that was missing or a reset. -/
theorem few_committed (h : Counted since s) (write : Write) (fresh : String) :
    (s.committed w write fresh).held.length ≤
      (s.committed w write fresh).state.toList.length + (s.committed w write fresh).resets := by
  have hfew := h.few
  have hresets : s.resets ≤ (s.committed w write fresh).resets := by
    cases write with
    | installationId clears => exact Nat.le_succ _
    | nothing => exact le_rfl
    | enabled value => exact le_rfl
    | lastSentAt time => exact le_rfl
  cases hseen : s.seen w with
  | none =>
    have hstate : s.state = none := by
      rw [← Option.not_isSome_iff_eq_none]
      intro hsome
      have h' := isSome_seen (w := w) hsome
      rw [hseen] at h'
      cases h'
    have hheld : (s.committed w write fresh).held = [] := by
      simp [Installation.committed, hseen, h.none hstate]
    rw [hheld]
    exact Nat.zero_le _
  | some row =>
    have hlength : (s.committed w write fresh).state.toList.length = 1 := by
      simp [Installation.committed, hseen]
    rw [hlength]
    have hheld : (s.committed w write fresh).held = s.held ∨
        (s.committed w write fresh).held = (write.apply fresh row).installationId :: s.held ∧
          (write.apply fresh row).installationId ∉ s.held := by
      simp only [Installation.committed, hseen, Option.map_some]
      split_ifs with hmem
      · exact .inl rfl
      · exact .inr ⟨rfl, hmem⟩
    rcases hheld with heq | ⟨heq, hnew⟩
    · rw [heq]
      cases hstate : s.state with
      | none =>
        rw [h.none hstate]
        exact Nat.zero_le _
      | some old =>
        rw [hstate] at hfew
        have hone : (some old).toList.length = 1 := rfl
        omega
    · rw [heq, List.length_cons]
      rcases seen_cases h hseen with hstate | ⟨hstate, -⟩
      · rw [hstate] at hfew
        have hone : (some row).toList.length = 1 := rfl
        rcases apply_installationId write fresh row with hsame | ⟨⟨clears, rfl⟩, -⟩
        · rw [hsame] at hnew
          exact absurd (h.row row hstate) hnew
        · have hone' : (s.committed w (.installationId clears) fresh).resets = s.resets + 1 := rfl
          omega
      · rw [h.none hstate, List.length_nil]
        omega

theorem counted_commit (h : Counted since s) (write : Write) (fresh : String) :
    Counted since (s.committed w write fresh) where
  clock := h.clock
  guarded := h.guarded
  apart := h.apart
  times := h.times
  once := h.once
  locked := h.locked
  held r hr := (held_committed write fresh).1 _ (h.held r hr)
  row := (held_committed write fresh).2
  drawn := drawn_committed h write fresh
  uncommitted item hitem := by
    obtain ⟨huncommitted, hne⟩ := waiting_eq_some.mp hitem
    obtain ⟨hstate, hlast, hdrawn⟩ := h.uncommitted item huncommitted
    have hseen : s.seen w = none := by
      rw [seen_of_other fun row hrow ↦ ?_, hstate]
      rw [huncommitted, Option.some.injEq] at hrow
      subst hrow
      exact hne rfl
    refine ⟨?_, hlast, ?_⟩
    · simp [Installation.committed, hseen]
    · cases write with
      | installationId clears => exact List.mem_cons_of_mem _ hdrawn
      | nothing => exact hdrawn
      | enabled value => exact hdrawn
      | lastSentAt time => exact hdrawn
  few := few_committed h write fresh
  none hnone := by
    have hseen : s.seen w = none := by
      simpa [Installation.committed] using hnone
    have hstate : s.state = none := by
      rw [← Option.not_isSome_iff_eq_none]
      intro hsome
      have h' := isSome_seen (w := w) hsome
      rw [hseen] at h'
      cases h'
    simp [Installation.committed, hseen, h.none hstate]

/-! ### Steps keep the days -/

section Days

variable {bound : ℕ}

/-- A success stays one while locks and identifiers are added and time passes. -/
theorem Success.Sound.later {a : Success} (h : a.Sound bound s)
    (htaken : ∀ lock ∈ s.taken, lock ∈ t.taken) (hclock : s.clock ≤ t.clock)
    (hheld : ∀ id ∈ s.held, id ∈ t.held) : a.Sound bound t where
  lock := htaken _ h.lock
  read := h.read
  sent := h.sent
  stored := h.stored
  past := h.past.trans hclock
  prompt := h.prompt
  held := hheld _ h.held

/-- A step that leaves the row and the successes. -/
theorem Daily.beside (h : Daily bound s) (hstate : t.state = s.state)
    (hsuccesses : t.successes = s.successes) (htaken : ∀ lock ∈ s.taken, lock ∈ t.taken)
    (hclock : s.clock ≤ t.clock) (hheld : ∀ id ∈ s.held, id ∈ t.held) : Daily bound t where
  sound a ha := (h.sound a (hsuccesses ▸ ha)).later htaken hclock hheld
  tells row hrow a ha := h.tells row (hstate ▸ hrow) a (hsuccesses ▸ ha)
  apart := hsuccesses.symm ▸ h.apart
  none hnone := by
    rw [hsuccesses]
    exact h.none (hstate ▸ hnone)

/-- A write that records no success. -/
theorem daily_commit (hcounted : Counted since s) (h : Daily bound s) {write : Write}
    {fresh : String} (hwrite : ∀ time, write ≠ .lastSentAt time)
    (hfresh : ∀ clears, write = .installationId clears → fresh ∉ s.drawn) :
    Daily bound (s.committed w write fresh) := by
  have hsuccesses : (s.committed w write fresh).successes = s.successes := by
    cases write with
    | lastSentAt time => exact absurd rfl (hwrite time)
    | nothing => rfl
    | enabled value => rfl
    | installationId clears => rfl
  refine ⟨fun a ha ↦ ?_, fun row hrow a ha ↦ ?_, hsuccesses.symm ▸ h.apart, fun hnone ↦ ?_⟩
  · rw [hsuccesses] at ha
    exact (h.sound a ha).later (fun _ hlock ↦ hlock) le_rfl (held_committed write fresh).1
  · rw [hsuccesses] at ha
    obtain ⟨old, hseen, rfl⟩ := Option.map_eq_some_iff.mp hrow
    rcases seen_cases hcounted hseen with hstate | ⟨hstate, -⟩
    · have htells := h.tells old hstate a ha
      cases write with
      | lastSentAt time => exact absurd rfl (hwrite time)
      | nothing => exact htells
      | enabled value => exact htells
      | installationId clears =>
        intro hid
        have hdrawn := hcounted.drawn _ (h.sound a ha).held
        rw [hid] at hdrawn
        exact absurd hdrawn (hfresh clears rfl)
    · rw [h.none hstate] at ha
      cases ha
  · rw [hsuccesses]
    refine h.none ?_
    rw [← Option.not_isSome_iff_eq_none]
    intro hsome
    have h' := isSome_seen (w := w) hsome
    rw [show s.seen w = none by simpa [Installation.committed] using hnone] at h'
    cases h'

/-- What a run knows of the successes that were recorded before it read the row; the others were
recorded since. -/
def Knows (readAt : ℕ) (before : Success → Prop) (s : Installation) : Prop :=
  ∀ a ∈ s.successes, readAt ≤ a.committedAt ∨ a.committedAt ≤ readAt ∧ before a

theorem Knows.later {readAt : ℕ} {before : Success → Prop} (h : Knows readAt before s)
    (hread : readAt ≤ s.clock) (haround : Around w s t) : Knows readAt before t := by
  intro a ha
  rcases haround.successes a ha with hold | ⟨-, htime⟩
  · exact h a hold
  · exact .inl (hread.trans htime)

/-- Within half of the time that the key stays, no other run records a success between the reading
of one and its end. -/
theorem not_since (hcounted : Counted since s) {a : Success} (ha : a.Sound bound s)
    (hbound : 2 * bound ≤ lockTtl) {readAt lockedAt : ℕ} (hlock : (w, lockedAt) ∈ s.taken)
    (hread : readAt ≤ lockedAt) (hprompt : s.clock < readAt + bound) (hne : a.worker ≠ w) :
    ¬ readAt ≤ a.committedAt := by
  intro hsince
  have hpast := (hcounted.times _ hlock).2
  have hdifferent : (a.worker, a.lockedAt) ≠ (w, lockedAt) := fun heq ↦ hne (congrArg Prod.fst heq)
  have hread' := ha.read
  have hsent := ha.sent
  have hstored := ha.stored
  have hprompt' := ha.prompt
  have hpast' := ha.past
  rcases apart_of_mem hcounted.apart ha.lock hlock hdifferent with hbefore | hafter
  · dsimp only at hbefore hpast
    omega
  · dsimp only at hafter hpast
    omega

/-- A success is recorded by a run that took its lock, within the bound. -/
theorem daily_success (hcounted : Counted since s) (h : Daily bound s)
    (hbound : 2 * bound ≤ lockTtl) {readAt lockedAt sentAt : ℕ} {fresh : String}
    (hattempt : s.attempt w = ⟨some readAt, some lockedAt, some id⟩)
    (hlock : (w, lockedAt) ∈ s.taken) (hread : readAt ≤ lockedAt) (hsent : lockedAt ≤ sentAt)
    (hstored : sentAt ≤ s.clock) (hprompt : s.clock < readAt + bound) (hid : id ∈ s.held)
    (hothers : ∀ a ∈ s.successes, a.worker ≠ w) (hstate : s.state.isSome = true)
    (hknows : Knows readAt (fun a ↦ a.id = id → a.sentAt + interval ≤ sentAt) s) :
    Daily bound (s.committed w (.lastSentAt sentAt) fresh) := by
  have hbefore : ∀ a ∈ s.successes,
      a.committedAt ≤ readAt ∧ (a.id = id → a.sentAt + interval ≤ sentAt) := by
    intro a ha
    rcases hknows a ha with hsince | hknown
    · have hnot := not_since hcounted (h.sound a ha) hbound hlock hread hprompt (hothers a ha)
      exact absurd hsince hnot
    · exact hknown
  have hsuccesses : (s.committed w (.lastSentAt sentAt) fresh).successes =
      ⟨w, id, readAt, lockedAt, sentAt, s.clock⟩ :: s.successes := by
    simp [Installation.committed, hattempt]
  have hheld := (held_committed (s := s) (w := w) (.lastSentAt sentAt) fresh).1
  refine ⟨fun a ha ↦ ?_, fun row hrow a ha ↦ ?_, ?_, fun hnone ↦ ?_⟩
  · rw [hsuccesses] at ha
    rcases List.mem_cons.mp ha with rfl | hold
    · exact ⟨hlock, hread, hsent, hstored, le_rfl, hprompt, hheld _ hid⟩
    · exact (h.sound a hold).later (fun _ hlock ↦ hlock) le_rfl hheld
  · rw [hsuccesses] at ha
    obtain ⟨old, hseen, rfl⟩ := Option.map_eq_some_iff.mp hrow
    intro _
    refine ⟨sentAt, rfl, ?_⟩
    rcases List.mem_cons.mp ha with rfl | hold
    · exact le_rfl
    · have hstored' := (h.sound a hold).stored
      have hpast := (hbefore a hold).1
      omega
  · rw [hsuccesses]
    exact List.pairwise_cons.mpr ⟨fun a ha heq ↦ (hbefore a ha).2 heq.symm, h.apart⟩
  · have hseen := isSome_seen (w := w) hstate
    rw [show s.seen w = none by simpa [Installation.committed] using hnone] at hseen
    cases hseen

end Days

/-! ### What one step is to the others -/

theorem around_attempt (hv : v ≠ w) (attempt : Attempt) :
    Around v s { s with attempt := Function.update s.attempt w attempt } where
  clock := le_rfl
  attempt := Function.update_of_ne hv ..
  taken _ h := h
  requests _ h _ := h
  successes _ h := .inl h
  held _ h := h
  state h := h
  uncommitted _ := Iff.rfl

theorem around_insert (hv : v ≠ w) (hnone : s.uncommitted = none) (row : TelemetryState)
    (drawn : List String) :
    Around v s { s with uncommitted := some (w, row), drawn := drawn } where
  clock := le_rfl
  attempt := rfl
  taken _ h := h
  requests _ h _ := h
  successes _ h := .inl h
  held _ h := h
  state h := h
  uncommitted other := by
    constructor
    · intro h
      have heq := (Prod.mk.inj (Option.some.inj h)).1
      exact absurd heq.symm hv
    · intro h
      rw [hnone] at h
      cases h

theorem around_lock (hv : v ≠ w) (redis : Redis.Store) (attempt : Attempt) (lock : ℕ × ℕ) :
    Around v s { s with
      redis := redis
      attempt := Function.update s.attempt w attempt
      taken := lock :: s.taken } where
  clock := le_rfl
  attempt := Function.update_of_ne hv ..
  taken _ h := List.mem_cons_of_mem _ h
  requests _ h _ := h
  successes _ h := .inl h
  held _ h := h
  state h := h
  uncommitted _ := Iff.rfl

theorem around_send (hv : v ≠ w) (attempt : Attempt) {r : Request} (hr : r.worker = w) :
    Around v s { s with
      attempt := Function.update s.attempt w attempt
      requests := r :: s.requests } where
  clock := le_rfl
  attempt := Function.update_of_ne hv ..
  taken _ h := h
  requests other hother hworker := by
    rcases List.mem_cons.mp hother with rfl | hold
    · exact absurd (hworker.symm.trans hr) hv
    · exact hold
  successes _ h := .inl h
  held _ h := h
  state h := h
  uncommitted _ := Iff.rfl

theorem uncommitted_waiting (hv : v ≠ w) (row : TelemetryState) :
    s.waiting w = some (v, row) ↔ s.uncommitted = some (v, row) :=
  waiting_eq_some.trans ⟨And.left, fun h ↦ ⟨h, hv⟩⟩

theorem around_rollback (hv : v ≠ w) : Around v s { s with uncommitted := s.waiting w } where
  clock := le_rfl
  attempt := rfl
  taken _ h := h
  requests _ h _ := h
  successes _ h := .inl h
  held _ h := h
  state h := h
  uncommitted := uncommitted_waiting hv

theorem around_commit (hv : v ≠ w) (write : Write) (fresh : String) :
    Around v s (s.committed w write fresh) where
  clock := le_rfl
  attempt := rfl
  taken _ h := h
  requests _ h _ := h
  successes a ha := by
    cases write with
    | lastSentAt time =>
      rcases List.mem_cons.mp ha with rfl | hold
      · exact .inr ⟨hv.symm, le_rfl⟩
      · exact .inl hold
    | nothing => exact .inl ha
    | enabled value => exact .inl ha
    | installationId clears => exact .inl ha
  held := (held_committed write fresh).1
  state h := by
    have hseen := isSome_seen (w := w) h
    simpa [Installation.committed] using hseen
  uncommitted := uncommitted_waiting hv

theorem around_tick (milliseconds : ℕ) :
    Around v s { s with clock := s.clock + milliseconds } where
  clock := Nat.le_add_right ..
  attempt := rfl
  taken _ h := h
  requests _ h _ := h
  successes _ h := .inl h
  held _ h := h
  state h := h
  uncommitted _ := Iff.rfl

end OpenWhistle.Telemetry
