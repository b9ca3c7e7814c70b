import OpenWhistle.Accounts.Server
import Mathlib.Tactic.SplitIfs

/-!
# The lineage of sessions

Every session token has an owner, the request that made it, and a refreshed one has a parent. At most
one successor of a session is ever handed out: the one whose request deleted the session itself. So
the sessions that browsers hold form chains, and a request can only come with a session on its chain.

A sweep condemns the sessions of its account that were stored before it and all that descend from
them, the kept session and its descendants apart. The invariant `Orderly` says what is left of the
condemned: only successors that were not handed out, whose parent is gone and whose request, a
refresh, had been received before the sweep. `Grows w` is what the requests other than `w` may do to
the sessions, and so what `w` may rely on.
-/

set_option autoImplicit false
set_option relaxedAutoImplicit false

namespace OpenWhistle.Accounts

open Interleaving Descent

namespace Sessions

/-- A sweep was to end the session: it existed before or descends from one of the account that did,
and is neither the kept session nor descends from it. -/
structure Condemned (s : Sessions) (sweep : Sweep) (token : Token) : Prop where
  descends : ∃ root ∈ sweep.before, root.sub = sweep.account ∧ Descends s.parent root token
  notKept : ∀ kept, sweep.kept = some kept → ¬Descends s.parent kept token

/-- The invariant of the sessions. A spared session is one that no refresh ends. -/
structure Orderly (spared : Token → Prop) (s : Sessions) : Prop where
  sub : ∀ token user, s.user token = some user → user = token.sub
  live : ∀ token, s.user token ≠ none → token ∈ s.stored
  stored : ∀ token ∈ s.stored, token ∈ s.issued
  handed : ∀ token ∈ s.handed, token ∈ s.stored
  presented : ∀ token ∈ s.presented, token ∈ s.issued → token ∈ s.handed
  owned : ∀ token w, s.owner token = some w → token ∈ s.issued
  parent : ∀ token old, s.parent token = some old → token ∈ s.issued ∧ old ∈ s.handed ∧
    token.sub = old.sub ∧
      ∃ w, s.owner token = some w ∧ s.received w = some (.sessionRefresh (some old))
  chosen : ∀ token ∈ s.handed, ∀ old, s.parent token = some old → s.endedBy old = s.owner token
  ended : ∀ token w, s.endedBy token = some w →
    token ∈ s.stored ∧ s.user token = none ∧ s.received w ≠ none
  before : ∀ sweep ∈ s.sweeps, ∀ token ∈ sweep.before, token ∈ s.stored ∧
    ∀ old, s.parent token = some old → old ∈ sweep.before
  kept : ∀ sweep ∈ s.sweeps, ∀ token, sweep.kept = some token → token ∈ s.presented
  condemned : ∀ sweep ∈ s.sweeps, ∀ token, s.user token ≠ none → s.Condemned sweep token →
    token ∉ s.handed ∧ ∃ old w, s.parent token = some old ∧ s.owner token = some w ∧
      s.user old = none ∧ sweep.received w = some (.sessionRefresh (some old))
  spared : ∀ token w, spared token → s.endedBy token = some w →
    s.received w ≠ some (.sessionRefresh (some token))

/-- What the other requests may do to the sessions while request `w` runs. -/
structure Grows (w : ℕ) (s t : Sessions) : Prop where
  received : t.received w = s.received w
  presented : ∀ token ∈ s.presented, token ∈ t.presented
  issued : ∀ token ∈ s.issued, token ∈ t.issued
  stored : ∀ token ∈ s.stored, token ∈ t.stored
  handed : ∀ token ∈ s.handed, token ∈ t.handed
  own : ∀ token, t.owner token = some w ↔ s.owner token = some w
  ownStored : ∀ token, s.owner token = some w → token ∈ t.stored → token ∈ s.stored
  parent : ∀ token ∈ s.issued, t.parent token = s.parent token
  descends : ∀ token ∈ s.issued, ∀ root,
    Descends t.parent root token ↔ Descends s.parent root token
  dead : ∀ token ∈ s.stored, s.user token = none → t.user token = none
  endedBy : ∀ token v, s.endedBy token = some v → t.endedBy token = some v
  fresh : ∀ token ∈ s.presented, token ∈ t.issued → token ∈ s.issued
  sweeps : ∀ sweep ∈ t.sweeps, sweep ∈ s.sweeps ∨
    (∀ request, s.received w = some request → sweep.received w = some request) ∧
      ∀ token ∈ s.issued, token ∈ s.stored → s.Condemned sweep token → t.user token = none

/-- Two histories that agree on the ancestors of a token condemn it alike. -/
theorem Condemned.congr {s t : Sessions} {sweep : Sweep} {token : Token}
    (hdescends : ∀ root, Descends t.parent root token ↔ Descends s.parent root token) :
    t.Condemned sweep token ↔ s.Condemned sweep token := by
  constructor
  · rintro ⟨⟨root, hroot, hsub, hdesc⟩, hkept⟩
    exact ⟨⟨root, hroot, hsub, (hdescends root).mp hdesc⟩,
      fun kept hk h ↦ hkept kept hk ((hdescends kept).mpr h)⟩
  · rintro ⟨⟨root, hroot, hsub, hdesc⟩, hkept⟩
    exact ⟨⟨root, hroot, hsub, (hdescends root).mpr hdesc⟩,
      fun kept hk h ↦ hkept kept hk ((hdescends kept).mp h)⟩

/-- A successor that was stored after the sweep is condemned only with its parent. -/
theorem Condemned.parent {s : Sessions} {sweep : Sweep} {token old : Token}
    (h : s.Condemned sweep token) (hnew : token ∉ sweep.before) (hold : s.parent token = some old) :
    s.Condemned sweep old := by
  obtain ⟨⟨root, hroot, hsub, hdescends⟩, hkept⟩ := h
  have hne : token ≠ root := by
    rintro rfl
    exact hnew hroot
  exact ⟨⟨root, hroot, hsub, hdescends.of_ne hne hold⟩,
    fun kept hk hdesc ↦ hkept kept hk (hdesc.of_parent hold)⟩

/-- A session that begins is condemned only by the sweeps after its store. -/
theorem Condemned.mem_before {s : Sessions} {sweep : Sweep} {token : Token}
    (h : s.Condemned sweep token) (hroot : s.parent token = none) : token ∈ sweep.before := by
  obtain ⟨⟨root, hmem, -, hdescends⟩, -⟩ := h
  rw [← hdescends.eq_of_root hroot]
  exact hmem

namespace Grows

theorem refl (w : ℕ) (s : Sessions) : Grows w s s where
  received := rfl
  presented _ h := h
  issued _ h := h
  stored _ h := h
  handed _ h := h
  own _ := Iff.rfl
  ownStored _ _ h := h
  parent _ _ := rfl
  descends _ _ _ := Iff.rfl
  dead _ _ h := h
  endedBy _ _ h := h
  fresh _ _ h := h
  sweeps _ h := .inl h

theorem trans {w : ℕ} {s t u : Sessions} (hst : Grows w s t) (htu : Grows w t u) :
    Grows w s u where
  received := htu.received.trans hst.received
  presented token h := htu.presented token (hst.presented token h)
  issued token h := htu.issued token (hst.issued token h)
  stored token h := htu.stored token (hst.stored token h)
  handed token h := htu.handed token (hst.handed token h)
  own token := (htu.own token).trans (hst.own token)
  ownStored token hown h := hst.ownStored token hown (htu.ownStored token ((hst.own token).mpr hown) h)
  parent token h := (htu.parent token (hst.issued token h)).trans (hst.parent token h)
  descends token h root := (htu.descends token (hst.issued token h) root).trans
    (hst.descends token h root)
  dead token h hdead := htu.dead token (hst.stored token h) (hst.dead token h hdead)
  endedBy token v h := htu.endedBy token v (hst.endedBy token v h)
  fresh token h hissued := hst.fresh token h (htu.fresh token (hst.presented token h) hissued)
  sweeps := by
    intro sweep hsweep
    rcases htu.sweeps sweep hsweep with hmiddle | ⟨hreceived, hends⟩
    · rcases hst.sweeps sweep hmiddle with hold | ⟨hreceived, hends⟩
      · exact .inl hold
      · refine .inr ⟨hreceived, fun token hissued hstored hcondemned ↦ ?_⟩
        exact htu.dead token (hst.stored token hstored) (hends token hissued hstored hcondemned)
    · refine .inr ⟨fun request hrequest ↦ ?_, fun token hissued hstored hcondemned ↦ ?_⟩
      · exact hreceived request (hst.received.trans hrequest)
      · have hcondemned' := (Condemned.congr (hst.descends token hissued)).mpr hcondemned
        exact hends token (hst.issued token hissued) (hst.stored token hstored) hcondemned'

/-- A token of the request that lives in the end has lived all along. -/
theorem live {w : ℕ} {s t : Sessions} {spared : Token → Prop} (h : Grows w s t)
    (ht : t.Orderly spared) {token : Token} (hown : s.owner token = some w) (hlive : t.user token ≠ none) : s.user token ≠ none := by
  intro hdead
  have hstored := h.ownStored token hown (ht.live token hlive)
  exact hlive (h.dead token hstored hdead)

/-- A sweep that condemns a stored token has ended it, or was there before. -/
theorem condemned {w : ℕ} {s t : Sessions} (h : Grows w s t) {sweep : Sweep} {token : Token}
    (hissued : token ∈ s.issued) (hstored : token ∈ s.stored) (hsweep : sweep ∈ t.sweeps)
    (hcondemned : t.Condemned sweep token) :
    sweep ∈ s.sweeps ∧ s.Condemned sweep token ∨ t.user token = none := by
  have hcondemned' := (Condemned.congr (h.descends token hissued)).mp hcondemned
  rcases h.sweeps sweep hsweep with hold | ⟨-, hends⟩
  · exact .inl ⟨hold, hcondemned'⟩
  · exact .inr (hends token hissued hstored hcondemned')

end Grows

/-! ### What each operation does to the sessions -/

variable {s t : Sessions} {w v : ℕ} {token : Token} {spared : Token → Prop}

namespace Orderly

/-- The parent of a token is not one that was never issued. -/
theorem parent_ne (h : s.Orderly spared) (hfresh : token ∉ s.issued) (made : Token) :
    s.parent made ≠ some token := fun hmade ↦
  hfresh (h.stored token (h.handed token (h.parent made token hmade).2.1))

/-- Every session of a chain belongs to one account. -/
theorem sub_eq (h : s.Orderly spared) {root : Token} (hdescends : Descends s.parent root token) :
    root.sub = token.sub := by
  have hclosed : ∀ made old : Token, made.sub = token.sub → s.parent made = some old →
      old.sub = token.sub := by
    intro made old hmade hold
    rw [← hmade, (h.parent made old hold).2.2.1]
  exact hdescends.closed (fun made ↦ made.sub = token.sub) hclosed rfl

/-- A session that a browser holds and that is alive is condemned by no sweep so far. -/
theorem not_condemned (h : s.Orderly spared) (hhanded : token ∈ s.handed)
    (hlive : s.user token ≠ none) {sweep : Sweep} (hsweep : sweep ∈ s.sweeps) : ¬s.Condemned sweep token := fun hcondemned ↦
  (h.condemned sweep hsweep token hlive hcondemned).1 hhanded

end Orderly

/-- A request arrives. -/
theorem receive_cases {request : Request} (h : s.receive w request = some t) :
    (∀ token ∈ request.cookie, token ∈ s.issued → token ∈ s.handed) ∧
    t = { s with
      received := Function.update s.received w (some request)
      presented := request.cookie.toList ++ s.presented } := by
  unfold receive at h
  split at h
  · rename_i hcookie
    cases h
    exact ⟨hcookie, rfl⟩
  · cases h

theorem orderly_receive {request : Request} (h : s.Orderly spared) (hidle : s.received w = none)
    (hreceive : s.receive w request = some t) : t.Orderly spared := by
  obtain ⟨hcookie, rfl⟩ := receive_cases hreceive
  have hne : ∀ v, s.received v ≠ none → v ≠ w := by
    rintro v hv rfl
    exact hv hidle
  refine { h with
    presented := ?_, parent := ?_, ended := ?_, kept := ?_, condemned := ?_, spared := ?_ }
  · intro token htoken hissued
    rcases List.mem_append.mp htoken with hnew | hold
    · exact hcookie token (Option.mem_toList.mp hnew) hissued
    · exact h.presented token hold hissued
  · intro token old hold
    obtain ⟨hissued, hhanded, hsub, v, hown, hreceived⟩ := h.parent token old hold
    refine ⟨hissued, hhanded, hsub, v, hown, ?_⟩
    have hv : v ≠ w := hne v (by rw [hreceived]; exact Option.some_ne_none _)
    exact (Function.update_of_ne hv ..).trans hreceived
  · intro token v hended
    obtain ⟨hstored, hdead, hreceived⟩ := h.ended token v hended
    refine ⟨hstored, hdead, ?_⟩
    show Function.update s.received w _ v ≠ none
    rw [Function.update_of_ne (hne v hreceived)]
    exact hreceived
  · intro sweep hsweep token htoken
    exact List.mem_append_right _ (h.kept sweep hsweep token htoken)
  · intro sweep hsweep token hlive hcondemned
    exact h.condemned sweep hsweep token hlive ⟨hcondemned.1, hcondemned.2⟩
  · intro token v hspared hended
    show Function.update s.received w _ v ≠ _
    rw [Function.update_of_ne (hne v (h.ended token v hended).2.2)]
    exact h.spared token v hspared hended

theorem grows_receive {request : Request} (hne : v ≠ w)
    (hreceive : s.receive w request = some t) : Grows v s t := by
  obtain ⟨-, rfl⟩ := receive_cases hreceive
  exact { Grows.refl v s with
    received := Function.update_of_ne hne ..
    presented := fun token h ↦ List.mem_append_right _ h
    sweeps := fun sweep hsweep ↦ .inl hsweep }

/-- A fresh token is made. -/
theorem issue_cases {succeeds : Bool} (h : s.issue w token succeeds = some t) :
    token ∉ s.issued ∧ token ∉ s.presented ∧ t = { s with
      issued := token :: s.issued
      owner := Function.update s.owner token (some w)
      parent := Function.update s.parent token
        (if succeeds then (s.received w).bind Request.cookie else none) } := by
  unfold issue at h
  split at h
  · cases h
  · rename_i hfresh
    rw [not_or] at hfresh
    exact ⟨hfresh.1, hfresh.2, (Option.some.inj h).symm⟩

/-- The token a refresh makes succeeds the session its request came with. -/
theorem orderly_issue {succeeds : Bool} (h : s.Orderly spared)
    (hsuccessor : ∀ old, succeeds = true → (s.received w).bind Request.cookie = some old →
      s.received w = some (.sessionRefresh (some old)) ∧ old ∈ s.handed ∧ token.sub = old.sub)
    (hissue : s.issue w token succeeds = some t) : t.Orderly spared := by
  obtain ⟨hissued, hpresented, rfl⟩ := issue_cases hissue
  have hdescends : ∀ other ∈ s.issued, ∀ root,
      Descends (Function.update s.parent token
        (if succeeds then (s.received w).bind Request.cookie else none)) root other ↔
        Descends s.parent root other := fun other hother root ↦
    descends_update_iff (h.parent_ne hissued) (ne_of_mem_of_not_mem hother hissued)
  have hparent : ∀ other ∈ s.issued, Function.update s.parent token
      (if succeeds then (s.received w).bind Request.cookie else none) other = s.parent other :=
    fun other hother ↦ Function.update_of_ne (ne_of_mem_of_not_mem hother hissued) ..
  have howner : ∀ other ∈ s.issued,
      Function.update s.owner token (some w) other = s.owner other :=
    fun other hother ↦ Function.update_of_ne (ne_of_mem_of_not_mem hother hissued) ..
  refine { h with
    stored := ?_, presented := ?_, owned := ?_, parent := ?_, chosen := ?_, before := ?_,
    condemned := ?_ }
  · exact fun other hother ↦ List.mem_cons_of_mem _ (h.stored other hother)
  · intro other hother hin
    rcases List.mem_cons.mp hin with rfl | hold
    · exact absurd hother hpresented
    · exact h.presented other hother hold
  · intro other v hown
    by_cases heq : other = token
    · exact heq ▸ List.mem_cons_self
    · change Function.update s.owner token (some w) other = some v at hown
      rw [Function.update_of_ne heq] at hown
      exact List.mem_cons_of_mem _ (h.owned other v hown)
  · intro other old hold
    change Function.update s.parent token _ other = some old at hold
    by_cases heq : other = token
    · subst heq
      rw [Function.update_self] at hold
      have hsucceeds : succeeds = true := by
        cases succeeds with
        | true => rfl
        | false => cases hold
      rw [if_pos hsucceeds] at hold
      obtain ⟨hreceived, hhanded, hsub⟩ := hsuccessor old hsucceeds hold
      exact ⟨List.mem_cons_self, hhanded, hsub, w, Function.update_self .., hreceived⟩
    · rw [Function.update_of_ne heq] at hold
      obtain ⟨hin, hhanded, hsub, v, hown, hreceived⟩ := h.parent other old hold
      exact ⟨List.mem_cons_of_mem _ hin, hhanded, hsub, v, (howner other hin).trans hown, hreceived⟩
  · intro other hother old hold
    have hin := h.stored other (h.handed other hother)
    have hold' : s.parent other = some old := (hparent other hin).symm.trans hold
    exact (h.chosen other hother old hold').trans (howner other hin).symm
  · intro sweep hsweep other hother
    obtain ⟨hstored, hold⟩ := h.before sweep hsweep other hother
    refine ⟨hstored, fun old hparent' ↦ hold old ?_⟩
    rw [← hparent other (h.stored other hstored)]
    exact hparent'
  · intro sweep hsweep other hlive hcondemned
    have hin := h.stored other (h.live other hlive)
    have hcondemned' : s.Condemned sweep other :=
      (Condemned.congr (hdescends other hin)).mp hcondemned
    obtain ⟨hhanded, old, v, hold, hown, hdead, hreceived⟩ :=
      h.condemned sweep hsweep other hlive hcondemned'
    exact ⟨hhanded, old, v, (hparent other hin).trans hold, (howner other hin).trans hown, hdead,
      hreceived⟩

theorem grows_issue {succeeds : Bool} (h : s.Orderly spared) (hne : v ≠ w)
    (hissue : s.issue w token succeeds = some t) : Grows v s t := by
  obtain ⟨hissued, hpresented, rfl⟩ := issue_cases hissue
  refine { Grows.refl v s with
    issued := ?_, own := ?_, parent := ?_, descends := ?_, fresh := ?_, sweeps := ?_ }
  · exact fun other hother ↦ List.mem_cons_of_mem _ hother
  · intro other
    show Function.update s.owner token (some w) other = some v ↔ _
    by_cases heq : other = token
    · subst heq
      rw [Function.update_self]
      constructor
      · intro hw
        exact absurd (Option.some.inj hw).symm hne
      · intro hown
        exact absurd (h.owned other v hown) hissued
    · rw [Function.update_of_ne heq]
  · exact fun other hother ↦ Function.update_of_ne (ne_of_mem_of_not_mem hother hissued) ..
  · exact fun other hother root ↦
      descends_update_iff (h.parent_ne hissued) (ne_of_mem_of_not_mem hother hissued)
  · intro other hother hin
    rcases List.mem_cons.mp hin with rfl | hold
    · exact absurd hother hpresented
    · exact hold
  · exact fun sweep hsweep ↦ .inl hsweep

/-- A token is stored once, by its owner. A successor that a sweep has condemned already is one
whose parent is gone. -/
theorem orderly_store (h : s.Orderly spared) (hissued : token ∈ s.issued)
    (hstored : token ∉ s.stored) (hcondemned : ∀ sweep ∈ s.sweeps, s.Condemned sweep token →
      ∃ old u, s.parent token = some old ∧ s.owner token = some u ∧ s.user old = none ∧
        sweep.received u = some (.sessionRefresh (some old))) :
    (s.store token.sub token).Orderly spared := by
  have huser : ∀ other ∈ s.stored, (s.store token.sub token).user other = s.user other :=
    fun other hother ↦ Function.update_of_ne (ne_of_mem_of_not_mem hother hstored) ..
  refine ⟨?_, ?_, ?_, ?_, h.presented, h.owned, h.parent, h.chosen, ?_, ?_, h.kept, ?_, h.spared⟩
  · intro other user huser'
    change Function.update s.user token (some token.sub) other = some user at huser'
    by_cases heq : other = token
    · subst heq
      rw [Function.update_self, Option.some.injEq] at huser'
      exact huser'.symm
    · rw [Function.update_of_ne heq] at huser'
      exact h.sub other user huser'
  · intro other hlive
    change Function.update s.user token (some token.sub) other ≠ none at hlive
    by_cases heq : other = token
    · exact heq ▸ List.mem_cons_self
    · rw [Function.update_of_ne heq] at hlive
      exact List.mem_cons_of_mem _ (h.live other hlive)
  · intro other hother
    rcases List.mem_cons.mp hother with rfl | hold
    · exact hissued
    · exact h.stored other hold
  · exact fun other hother ↦ List.mem_cons_of_mem _ (h.handed other hother)
  · intro other v hended
    obtain ⟨hin, hdead, hreceived⟩ := h.ended other v hended
    exact ⟨List.mem_cons_of_mem _ hin, (huser other hin).trans hdead, hreceived⟩
  · intro sweep hsweep other hother
    obtain ⟨hin, hold⟩ := h.before sweep hsweep other hother
    exact ⟨List.mem_cons_of_mem _ hin, hold⟩
  · intro sweep hsweep other hlive hcond
    have hcond' : s.Condemned sweep other := ⟨hcond.1, hcond.2⟩
    have hparent : ∀ old, s.parent other = some old → old ∈ s.stored := fun old hold ↦
      h.handed old (h.parent other old hold).2.1
    by_cases heq : other = token
    · subst heq
      obtain ⟨old, u, hold, hown, hdead, hreceived⟩ := hcondemned sweep hsweep hcond'
      refine ⟨fun hhanded ↦ hstored (h.handed other hhanded), old, u, hold, hown, ?_, hreceived⟩
      rw [huser old (hparent old hold)]
      exact hdead
    · have hlive' : s.user other ≠ none := by
        rw [← Function.update_of_ne heq (some token.sub) s.user]
        exact hlive
      obtain ⟨hhanded, old, u, hold, hown, hdead, hreceived⟩ :=
        h.condemned sweep hsweep other hlive' hcond'
      refine ⟨hhanded, old, u, hold, hown, ?_, hreceived⟩
      rw [huser old (hparent old hold)]
      exact hdead

theorem grows_store (hown : s.owner token = some w) (hstored : token ∉ s.stored) (hne : v ≠ w)
    (user : UserId) : Grows v s (s.store user token) := by
  refine { Grows.refl v s with stored := ?_, ownStored := ?_, dead := ?_, sweeps := ?_ }
  · exact fun other hother ↦ List.mem_cons_of_mem _ hother
  · intro other hother hin
    rcases List.mem_cons.mp hin with rfl | hold
    · rw [hown, Option.some.injEq] at hother
      exact absurd hother.symm hne
    · exact hold
  · intro other hother hdead
    show Function.update s.user token _ other = none
    rw [Function.update_of_ne (ne_of_mem_of_not_mem hother hstored)]
    exact hdead
  · exact fun sweep hsweep ↦ .inl hsweep

/-- Keys that go, by whatever hand. -/
theorem orderly_of_fewer (h : s.Orderly spared) {user : Token → Option UserId}
    {endedBy : Token → Option ℕ} (huser : ∀ other, user other = s.user other ∨ user other = none)
    (hended : ∀ other u, s.endedBy other = some u → endedBy other = some u)
    (hnew : ∀ other u, endedBy other = some u →
      other ∈ s.stored ∧ user other = none ∧ s.received u ≠ none)
    (hspared : ∀ other u, spared other → endedBy other = some u →
      s.received u ≠ some (.sessionRefresh (some other))) :
    { s with user := user, endedBy := endedBy }.Orderly spared := by
  have hlive : ∀ other, user other ≠ none → s.user other ≠ none := by
    intro other hne
    rcases huser other with heq | hnone
    · exact heq ▸ hne
    · exact absurd hnone hne
  have hdead : ∀ other, s.user other = none → user other = none := by
    intro other hnone
    rcases huser other with heq | hgone
    · exact heq.trans hnone
    · exact hgone
  refine { h with
    sub := ?_, live := ?_, chosen := ?_, ended := hnew, condemned := ?_, spared := hspared }
  · intro other account heq
    rcases huser other with hsame | hnone
    · exact h.sub other account (hsame.symm.trans heq)
    · cases hnone.symm.trans heq
  · exact fun other hne ↦ h.live other (hlive other hne)
  · intro other hother old hold
    obtain ⟨-, -, -, u, hown, -⟩ := h.parent other old hold
    have hchosen := h.chosen other hother old hold
    show endedBy old = s.owner other
    rw [hown] at hchosen ⊢
    exact hended old u hchosen
  · intro sweep hsweep other hne hcond
    obtain ⟨hhanded, old, u, hold, hown, hgone, hreceived⟩ :=
      h.condemned sweep hsweep other (hlive other hne) ⟨hcond.1, hcond.2⟩
    exact ⟨hhanded, old, u, hold, hown, hdead old hgone, hreceived⟩

theorem grows_of_fewer {user : Token → Option UserId} {endedBy : Token → Option ℕ}
    (huser : ∀ other, user other = s.user other ∨ user other = none)
    (hended : ∀ other u, s.endedBy other = some u → endedBy other = some u) :
    Grows v s { s with user := user, endedBy := endedBy } := by
  refine { Grows.refl v s with dead := ?_, endedBy := hended, sweeps := fun _ h ↦ .inl h }
  intro other _ hdead
  rcases huser other with hsame | hnone
  · exact hsame.trans hdead
  · exact hnone

theorem expire_eq (s : Sessions) (token : Token) : s.expire token =
    { s with user := Function.update s.user token none, endedBy := s.endedBy } :=
  rfl

theorem update_none_cases (user : Token → Option UserId) (token other : Token) :
    Function.update user token none other = user other ∨
      Function.update user token none other = none := by
  by_cases heq : other = token
  · exact .inr (heq ▸ Function.update_self ..)
  · exact .inl (Function.update_of_ne heq ..)

theorem orderly_expire (h : s.Orderly spared) (token : Token) :
    (s.expire token).Orderly spared := by
  rw [expire_eq]
  refine orderly_of_fewer h (update_none_cases s.user token) (fun _ _ hended ↦ hended) ?_ h.spared
  intro other u hended
  obtain ⟨hstored, hdead, hreceived⟩ := h.ended other u hended
  refine ⟨hstored, ?_, hreceived⟩
  rcases update_none_cases s.user token other with hsame | hnone
  · exact hsame.trans hdead
  · exact hnone

theorem grows_expire (token : Token) : Grows v s (s.expire token) := by
  rw [expire_eq]
  exact grows_of_fewer (update_none_cases s.user token) fun _ _ hended ↦ hended

/-- What a DEL leaves: the key is gone, and where it existed the request is on record as the one
that ended the session. -/
theorem delete_cases (s : Sessions) (w : ℕ) (token : Token) :
    (s.user token = none ∧ s.delete w token = s) ∨
    (s.user token ≠ none ∧ s.delete w token = { s with
      user := Function.update s.user token none
      endedBy := Function.update s.endedBy token (some w) }) := by
  unfold delete
  split_ifs with hdead
  · exact .inl ⟨hdead, rfl⟩
  · exact .inr ⟨hdead, rfl⟩

theorem delete_user_self (s : Sessions) (w : ℕ) (token : Token) :
    (s.delete w token).user token = none := by
  rcases delete_cases s w token with ⟨hdead, heq⟩ | ⟨-, heq⟩
  · rw [heq]
    exact hdead
  · rw [heq]
    exact Function.update_self ..

theorem delete_endedBy_self (hlive : s.user token ≠ none) :
    (s.delete w token).endedBy token = some w := by
  rcases delete_cases s w token with ⟨hdead, -⟩ | ⟨-, heq⟩
  · exact absurd hdead hlive
  · rw [heq]
    exact Function.update_self ..

/-- The request that ended a session stays on record: its session is gone already. -/
theorem Orderly.endedBy_update (h : s.Orderly spared) (hlive : s.user token ≠ none) (w : ℕ)
    (other : Token) (u : ℕ) (hended : s.endedBy other = some u) :
    Function.update s.endedBy token (some w) other = some u := by
  rw [Function.update_of_ne]
  · exact hended
  · rintro rfl
    exact hlive (h.ended other u hended).2.1

/-- A spared session is not deleted by a refresh. -/
theorem orderly_delete (h : s.Orderly spared) (token : Token) (hreceived : s.received w ≠ none)
    (hspared : spared token → s.received w = some (.sessionRefresh (some token)) →
      s.user token = none) : (s.delete w token).Orderly spared := by
  rcases delete_cases s w token with ⟨-, heq⟩ | ⟨hlive, heq⟩
  · rw [heq]
    exact h
  rw [heq]
  refine orderly_of_fewer h (update_none_cases s.user token) (h.endedBy_update hlive w) ?_ ?_
  · intro other u hended
    by_cases hsame : other = token
    · subst hsame
      rw [Function.update_self, Option.some.injEq] at hended
      exact ⟨h.live other hlive, Function.update_self .., hended ▸ hreceived⟩
    · rw [Function.update_of_ne hsame] at hended ⊢
      exact h.ended other u hended
  · intro other u hother hended
    by_cases hsame : other = token
    · subst hsame
      rw [Function.update_self, Option.some.injEq] at hended
      exact fun hrefresh ↦ hlive (hspared hother (hended ▸ hrefresh))
    · rw [Function.update_of_ne hsame] at hended
      exact h.spared other u hother hended

theorem grows_delete (h : s.Orderly spared) (w : ℕ) (token : Token) :
    Grows v s (s.delete w token) := by
  rcases delete_cases s w token with ⟨-, heq⟩ | ⟨hlive, heq⟩
  · rw [heq]
    exact Grows.refl v s
  · rw [heq]
    exact grows_of_fewer (update_none_cases s.user token) (h.endedBy_update hlive w)

/-- No condemned session survives the sweep that condemns it. -/
theorem sweep_condemned (h : s.Orderly spared) {account : UserId} {keep : Option Token}
    {audited : ℕ} (hcondemned : s.Condemned ⟨account, keep, s.stored, s.received, audited⟩ token) :
    (s.sweep account keep audited).user token = none := by
  obtain ⟨⟨root, -, hsub, hdescends⟩, hkept⟩ := hcondemned
  have hkeep : keep ≠ some token := fun heq ↦ hkept token heq (Descends.refl token)
  show (if s.user token = some account ∧ keep ≠ some token then none else s.user token) = none
  split_ifs with hswept
  · rfl
  · cases huser : s.user token with
    | none => rfl
    | some user =>
      have haccount : user = account := by
        rw [h.sub token user huser, ← h.sub_eq hdescends, hsub]
      exact absurd ⟨haccount ▸ huser, hkeep⟩ hswept

theorem sweep_user_cases (s : Sessions) (account : UserId) (keep : Option Token) (audited : ℕ)
    (other : Token) : (s.sweep account keep audited).user other = s.user other ∨
      (s.sweep account keep audited).user other = none := by
  show (if s.user other = some account ∧ keep ≠ some other then none else s.user other) = _ ∨
    (if s.user other = some account ∧ keep ≠ some other then none else s.user other) = none
  split_ifs
  · exact .inr rfl
  · exact .inl rfl

theorem orderly_sweep (h : s.Orderly spared) (account : UserId) {keep : Option Token}
    (audited : ℕ) (hkeep : ∀ token, keep = some token → token ∈ s.presented) :
    (s.sweep account keep audited).Orderly spared := by
  have hfewer : { s with
      user := (s.sweep account keep audited).user, endedBy := s.endedBy }.Orderly spared := by
    refine orderly_of_fewer h (sweep_user_cases s account keep audited)
      (fun _ _ hended ↦ hended) ?_ h.spared
    intro other u hended
    obtain ⟨hstored, hdead, hreceived⟩ := h.ended other u hended
    refine ⟨hstored, ?_, hreceived⟩
    rcases sweep_user_cases s account keep audited other with hsame | hnone
    · exact hsame.trans hdead
    · exact hnone
  refine ⟨hfewer.sub, hfewer.live, h.stored, h.handed, h.presented, h.owned, h.parent, h.chosen,
    hfewer.ended, ?_, ?_, ?_, h.spared⟩
  · intro sweep hsweep token htoken
    rcases List.mem_append.mp hsweep with hold | hnew
    · exact h.before sweep hold token htoken
    · cases List.mem_singleton.mp hnew
      exact ⟨htoken, fun old hold ↦ h.handed old (h.parent token old hold).2.1⟩
  · intro sweep hsweep token htoken
    rcases List.mem_append.mp hsweep with hold | hnew
    · exact h.kept sweep hold token htoken
    · cases List.mem_singleton.mp hnew
      exact hkeep token htoken
  · intro sweep hsweep token hlive hcond
    have hcond' : s.Condemned sweep token := ⟨hcond.1, hcond.2⟩
    rcases List.mem_append.mp hsweep with hold | hnew
    · exact hfewer.condemned sweep hold token hlive ⟨hcond.1, hcond.2⟩
    · cases List.mem_singleton.mp hnew
      exact absurd (sweep_condemned h hcond') hlive

theorem grows_sweep (h : s.Orderly spared) (account : UserId) (keep : Option Token)
    (audited : ℕ) : Grows v s (s.sweep account keep audited) := by
  refine { Grows.refl v s with dead := ?_, sweeps := ?_ }
  · intro other _ hdead
    rcases sweep_user_cases s account keep audited other with hsame | hnone
    · exact hsame.trans hdead
    · exact hnone
  · intro sweep hsweep
    rcases List.mem_append.mp hsweep with hold | hnew
    · exact .inl hold
    · cases List.mem_singleton.mp hnew
      exact .inr ⟨fun _ hreceived ↦ hreceived,
        fun _ _ _ hcondemned ↦ sweep_condemned h hcondemned⟩

/-- A token is handed out by the request that ended the session before it, when no sweep has
condemned it alive. -/
theorem orderly_hand (h : s.Orderly spared) (hstored : token ∈ s.stored)
    (hclear : ∀ sweep ∈ s.sweeps, s.Condemned sweep token → s.user token = none)
    (hchosen : ∀ old, s.parent token = some old → s.endedBy old = s.owner token) :
    (s.hand token).Orderly spared := by
  refine ⟨h.sub, h.live, h.stored, ?_, ?_, h.owned, ?_, ?_, h.ended, h.before, h.kept, ?_,
    h.spared⟩
  · intro other hother
    rcases List.mem_cons.mp hother with rfl | hold
    · exact hstored
    · exact h.handed other hold
  · exact fun other hother hissued ↦ List.mem_cons_of_mem _ (h.presented other hother hissued)
  · intro other old hold
    obtain ⟨hissued, hhanded, hrest⟩ := h.parent other old hold
    exact ⟨hissued, List.mem_cons_of_mem _ hhanded, hrest⟩
  · intro other hother old hold
    rcases List.mem_cons.mp hother with rfl | hin
    · exact hchosen old hold
    · exact h.chosen other hin old hold
  · intro sweep hsweep other hlive hcond
    have hcond' : s.Condemned sweep other := ⟨hcond.1, hcond.2⟩
    obtain ⟨hhanded, hrest⟩ := h.condemned sweep hsweep other hlive hcond'
    refine ⟨fun hin ↦ ?_, hrest⟩
    rcases List.mem_cons.mp hin with rfl | hin
    · exact hlive (hclear sweep hsweep hcond')
    · exact hhanded hin

theorem grows_hand (token : Token) : Grows v s (s.hand token) :=
  { Grows.refl v s with
    handed := fun _ hother ↦ List.mem_cons_of_mem _ hother
    sweeps := fun _ hsweep ↦ .inl hsweep }

end Sessions

end OpenWhistle.Accounts
