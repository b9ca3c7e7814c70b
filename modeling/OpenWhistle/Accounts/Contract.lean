import OpenWhistle.Foundation.Contract
import OpenWhistle.Accounts.Lineage
import OpenWhistle.Accounts.Management

/-!
# The contract between the account requests

Every request keeps the sessions `Orderly`, and every request that has been answered has settled its
token: where the token lives, no sweep so far has condemned it, and the session it succeeded was
ended by the request itself. The contract spares the sessions that no refresh finds when it comes to
delete them.

Most operations do not touch the sessions at all. What a request knows while it runs are four facts,
each of which the other requests leave true: that it serves its request and has made no token yet,
that its cookie was admitted, that it has made a token, and that it has stored it.
-/

set_option autoImplicit false
set_option relaxedAutoImplicit false

namespace OpenWhistle.Accounts

open Interleaving Descent

/-- A logout with a session cookie. -/
def Request.isLogout : Request → Bool
  | .logout (some _) => true
  | _ => false

namespace Sessions

/-- The token of an answered request is not condemned while it lives, and the session it succeeded
was ended by the same request. -/
def Settled (w : ℕ) (s : Sessions) : Prop :=
  ∀ token, s.owner token = some w → token ∈ s.issued ∧ (s.user token ≠ none →
    (∀ sweep ∈ s.sweeps, ¬s.Condemned sweep token) ∧
      ∀ old, s.parent token = some old → s.endedBy old = some w)

/-- What holds once a request has been answered. -/
structure Finished (w : ℕ) (s : Sessions) : Prop where
  settled : s.Settled w
  logout : ∀ token, s.received w = some (.logout (some token)) →
    token ∈ s.presented ∧ (token ∈ s.issued → token ∈ s.stored ∧ s.user token = none)

/-- The request has been received, and has made no token. -/
structure Serves (w : ℕ) (request : Request) (s : Sessions) : Prop where
  received : s.received w = some request
  cookie : ∀ token, request.cookie = some token → token ∈ s.presented
  empty : ∀ token, s.owner token ≠ some w

/-- The cookie of the request named a live session: every sweep that condemns it came later. -/
structure Admitted (w : ℕ) (request : Request) (token : Token) (s : Sessions) : Prop where
  handed : token ∈ s.handed
  issued : token ∈ s.issued
  condemned : ∀ sweep ∈ s.sweeps, s.Condemned sweep token → sweep.received w = some request

/-- The request has made one token, which it has not stored. -/
structure Drew (w : ℕ) (token : Token) (parent : Option Token) (s : Sessions) : Prop where
  owner : s.owner token = some w
  only : ∀ other, s.owner other = some w → other = token
  parent : s.parent token = parent
  issued : token ∈ s.issued
  fresh : token ∉ s.stored

/-- The request has stored the one token it has made. -/
structure Keeps (w : ℕ) (token : Token) (parent : Option Token) (s : Sessions) : Prop where
  owner : s.owner token = some w
  only : ∀ other, s.owner other = some w → other = token
  parent : s.parent token = parent
  issued : token ∈ s.issued
  stored : token ∈ s.stored

/-- The stored token may be handed out. -/
structure Chosen (w : ℕ) (token : Token) (s : Sessions) : Prop where
  clear : ∀ sweep ∈ s.sweeps, s.Condemned sweep token → s.user token = none
  chosen : ∀ old, s.parent token = some old → s.endedBy old = some w

variable {spared : Token → Prop} {w : ℕ} {request : Request} {token : Token}
  {parent : Option Token} {s t : Sessions}

theorem Finished.grows (h : s.Finished w) (hgrows : s.Grows w t) (ht : t.Orderly spared) :
    t.Finished w := by
  constructor
  · intro token hown
    have hown' := (hgrows.own token).mp hown
    obtain ⟨hissued, hlive⟩ := h.settled token hown'
    refine ⟨hgrows.issued token hissued, fun hlive' ↦ ?_⟩
    have hbefore := hgrows.live ht hown' hlive'
    obtain ⟨hclear, hchosen⟩ := hlive hbefore
    have hstored := hgrows.ownStored token hown' (ht.live token hlive')
    constructor
    · intro sweep hsweep hcondemned
      rcases hgrows.condemned hissued hstored hsweep hcondemned with ⟨hold, hcond⟩ | hdead
      · exact hclear sweep hold hcond
      · exact hlive' hdead
    · intro old hold
      rw [hgrows.parent token hissued] at hold
      exact hgrows.endedBy old w (hchosen old hold)
  · intro token hreceived
    rw [hgrows.received] at hreceived
    obtain ⟨hpresented, hgone⟩ := h.logout token hreceived
    refine ⟨hgrows.presented token hpresented, fun hissued ↦ ?_⟩
    obtain ⟨hstored, hdead⟩ := hgone (hgrows.fresh token hpresented hissued)
    exact ⟨hgrows.stored token hstored, hgrows.dead token hstored hdead⟩

theorem Serves.grows (h : s.Serves w request) (hgrows : s.Grows w t) : t.Serves w request where
  received := hgrows.received.trans h.received
  cookie token htoken := hgrows.presented token (h.cookie token htoken)
  empty token hown := h.empty token ((hgrows.own token).mp hown)

/-- A request without a token, other than a logout, has nothing to settle. -/
theorem Serves.finished (h : s.Serves w request) (hrequest : request.isLogout = false) :
    s.Finished w where
  settled token hown := absurd hown (h.empty token)
  logout token hreceived := by
    rw [h.received, Option.some.injEq] at hreceived
    rw [hreceived] at hrequest
    cases hrequest

theorem Admitted.grows (h : s.Admitted w request token) (hreceived : s.received w = some request)
    (hgrows : s.Grows w t) : t.Admitted w request token where
  handed := hgrows.handed token h.handed
  issued := hgrows.issued token h.issued
  condemned := by
    intro sweep hsweep hcondemned
    rcases hgrows.sweeps sweep hsweep with hold | ⟨hlater, -⟩
    · exact h.condemned sweep hold
        ((Condemned.congr (hgrows.descends token h.issued)).mp hcondemned)
    · exact hlater request hreceived

theorem Drew.grows (h : s.Drew w token parent) (hgrows : s.Grows w t) :
    t.Drew w token parent where
  owner := (hgrows.own token).mpr h.owner
  only other hother := h.only other ((hgrows.own other).mp hother)
  parent := (hgrows.parent token h.issued).trans h.parent
  issued := hgrows.issued token h.issued
  fresh hstored := h.fresh (hgrows.ownStored token h.owner hstored)

theorem Keeps.grows (h : s.Keeps w token parent) (hgrows : s.Grows w t) :
    t.Keeps w token parent where
  owner := (hgrows.own token).mpr h.owner
  only other hother := h.only other ((hgrows.own other).mp hother)
  parent := (hgrows.parent token h.issued).trans h.parent
  issued := hgrows.issued token h.issued
  stored := hgrows.stored token h.stored

theorem Chosen.grows (h : s.Chosen w token) (hkeeps : s.Keeps w token parent)
    (hgrows : s.Grows w t) : t.Chosen w token where
  clear := by
    intro sweep hsweep hcondemned
    rcases hgrows.condemned hkeeps.issued hkeeps.stored hsweep hcondemned with ⟨hold, hcond⟩ | hdead
    · exact hgrows.dead token hkeeps.stored (h.clear sweep hold hcond)
    · exact hdead
  chosen := by
    intro old hold
    rw [hgrows.parent token hkeeps.issued] at hold
    exact hgrows.endedBy old w (h.chosen old hold)

/-- A request that handed its token out has settled it. -/
theorem Keeps.settled (h : s.Keeps w token parent) (hchosen : s.Chosen w token) : s.Settled w := by
  intro other hother
  obtain rfl := h.only other hother
  exact ⟨h.issued, fun hlive ↦ ⟨fun sweep hsweep hcondemned ↦
    hlive (hchosen.clear sweep hsweep hcondemned), hchosen.chosen⟩⟩

/-- A request that withdrew its token has settled it. -/
theorem Keeps.settled_of_dead (h : s.Keeps w token parent) (hdead : s.user token = none) :
    s.Settled w := by
  intro other hother
  obtain rfl := h.only other hother
  exact ⟨h.issued, fun hlive ↦ absurd hdead hlive⟩

/-- A successor whose parent was condemned after the request was admitted. -/
theorem Drew.condemned {old : Token} (h : s.Drew w token (some old)) (horderly : s.Orderly spared)
    (hadmitted : s.Admitted w request old) {sweep : Sweep} (hsweep : sweep ∈ s.sweeps)
    (hcondemned : s.Condemned sweep token) :
    s.user old = none ∧ sweep.received w = some request := by
  have hnew : token ∉ sweep.before := fun hmem ↦
    h.fresh (horderly.before sweep hsweep token hmem).1
  have hold := hcondemned.parent hnew h.parent
  refine ⟨?_, hadmitted.condemned sweep hsweep hold⟩
  by_contra hlive
  exact horderly.not_condemned hadmitted.handed hlive hsweep hold

end Sessions

/-! ### The contract -/

/-- A refresh that comes to delete a spared session finds it gone. -/
def FindsGone (spared : Token → Prop) (w : ℕ) (operation : Op) (s : Server) : Prop :=
  ∀ token, spared token → operation = .deleteSession token →
    s.sessions.received w = some (.sessionRefresh (some token)) → s.sessions.user token = none

theorem sessions_environment {spared : Token → Prop} {change : Change} {s t : Server}
    (hs : s.sessions.Orderly spared) (h : environment change s = some t) :
    t.sessions.Orderly spared ∧ ∀ w, s.sessions.Grows w t.sessions := by
  cases change with
  | expireSession token =>
    cases h
    exact ⟨Sessions.orderly_expire hs token, fun w ↦ Sessions.grows_expire token⟩
  | _ =>
    cases h
    exact ⟨hs, fun w ↦ Sessions.Grows.refl w s.sessions⟩

/-- What the account requests owe each other. -/
def lineage (d : Deployment) (spared : Token → Prop) :
    Contract (semantics d) Request Answer where
  invariant s := s.sessions.Orderly spared
  rely w s t := s.sessions.Grows w t.sessions
  rely_refl w s := Sessions.Grows.refl w s.sessions
  rely_trans _ _ _ _ hst htu := hst.trans htu
  idle w s := s.sessions.received w = none ∧ ∀ token, s.sessions.owner token ≠ some w
  idle_stable w s t h hgrows _ := ⟨hgrows.received.trans h.1,
    fun token hown ↦ h.2 token ((hgrows.own token).mp hown)⟩
  ends w := Returns fun _ s ↦ s.sessions.Finished w
  ends_stable := by
    intro w result s t h hgrows ht
    cases result with
    | ok answer => exact Sessions.Finished.grows h hgrows ht
    | error fault => trivial
  admits _ := True
  allows := FindsGone spared
  trusts _ _ _ := True
  tolerates _ _ := True
  environment_safe _ _ _ hs _ h := sessions_environment hs h

/-- The operations that leave the sessions as they are. -/
def Op.isQuiet : Op → Bool
  | .receive _ => false
  | .createAccessToken _ _ => false
  | .setSession _ _ => false
  | .deleteSession _ => false
  | .sweep _ _ => false
  | .setCookie _ => false
  | _ => true

variable {d : Deployment} {spared : Token → Prop} {w : ℕ} {request : Request} {s t : Server}

theorem sessions_getdelTotpPending (s : Server) (w : ℕ) (tempToken : TempToken) :
    (s.getdelTotpPending w tempToken).sessions = s.sessions := by
  unfold Server.getdelTotpPending
  split <;> rfl

theorem sessions_getdelTotpSetup (s : Server) (w : ℕ) (tempToken : TempToken) :
    (s.getdelTotpSetup w tempToken).sessions = s.sessions := by
  unfold Server.getdelTotpSetup
  split <;> rfl

/-- A read for a first factor answers with the row and notes that it was read. -/
theorem readFirst_cases {factor : FirstFactor} {found : Option AdminUser}
    {reply : Except Fault (Option AdminUser)} (h : s.readFirst w factor found = some (reply, t)) :
    (found = none ∧ t = s) ∨
      ∃ user, found = some user ∧ t = { s with signIns := s.checkFirst w factor user.id } := by
  cases found with
  | none =>
    cases h
    exact .inl ⟨rfl, rfl⟩
  | some user =>
    cases h
    exact .inr ⟨user, rfl, rfl⟩

/-- The row of a new directory user is added under an id of its own. -/
theorem provision_cases {draw : Draw} {ldapUsername : String} {reply : Except Fault AdminUser}
    (h : s.provision w draw ldapUsername = some (reply, t)) : t = { s with
      users := s.users ++ [Server.provisioned draw ldapUsername]
      auditLog := s.auditLog ++ [⟨draw.random, .adminCreated⟩]
      signIns := s.checkFirst w .directory draw.random } := by
  simp only [Server.provision] at h
  split_ifs at h
  cases h
  rfl

theorem setTotpUsed_cases {user : UserId} {code : String} {draw : Draw}
    {reply : Except Fault Bool} (h : perform d w (.setTotpUsed user code) draw s = some (reply, t)) :
    t = s ∨ t = { s with totpUsed := (user, code) :: s.totpUsed } := by
  simp only [perform] at h
  split_ifs at h
  · cases h
    exact .inl rfl
  · cases h
    exact .inr rfl

theorem sessions_of_isQuiet {operation : Op} (hquiet : operation.isQuiet = true) {draw : Draw}
    {reply : Except Fault (Reply operation)} (h : perform d w operation draw s = some (reply, t)) :
    t.sessions = s.sessions := by
  cases operation with
  | receive request => cases hquiet
  | createAccessToken user authTime => cases hquiet
  | setSession user token => cases hquiet
  | deleteSession token => cases hquiet
  | sweep user keep => cases hquiet
  | setCookie token => cases hquiet
  | getUserByLdapUsername ldapUsername =>
    rcases readFirst_cases h with ⟨-, rfl⟩ | ⟨user, -, rfl⟩ <;> rfl
  | getUserByUsername username =>
    rcases readFirst_cases h with ⟨-, rfl⟩ | ⟨user, -, rfl⟩ <;> rfl
  | provisionLdapUser ldapUsername =>
    obtain rfl := provision_cases h
    rfl
  | getdelTotpPending tempToken =>
    cases h
    exact sessions_getdelTotpPending s w tempToken
  | getdelTotpSetup tempToken =>
    cases h
    exact sessions_getdelTotpSetup s w tempToken
  | setTotpUsed user code =>
    rcases setTotpUsed_cases h with rfl | rfl <;> rfl
  | _ =>
    cases h
    rfl

/-! ### The operations -/

/-- A part of a request that the other requests cannot tell from no step at all. -/
abbrev Quietly {β : Type} (w : ℕ) (s : Server) (promise : β → Server → Prop) :
    Except Fault β → Server → Prop :=
  Returns fun value t ↦ s.sessions.Grows w t.sessions ∧ promise value t

/-- Sequencing after a quiet part. -/
theorem safe_then {β γ : Type} {program : Handler β} {rest : β → Handler γ}
    {promise : β → Server → Prop} {post : γ → Server → Prop}
    (h : Safe (lineage d spared) w (Quietly w s promise) program s)
    (hrest : ∀ value t, s.sessions.Grows w t.sessions → promise value t →
      Safe (lineage d spared) w (Returns post) (rest value) t) :
    Safe (lineage d spared) w (Returns post) (program >>= rest) s :=
  Safe.andThen h fun value t hvalue ↦ hrest value t hvalue.1 hvalue.2

/-- A quiet part after a quiet part is quiet. -/
theorem safe_since {β : Type} {program : Handler β} {promise : β → Server → Prop}
    (hgrows : s.sessions.Grows w t.sessions)
    (h : Safe (lineage d spared) w (Quietly w t promise) program t) :
    Safe (lineage d spared) w (Quietly w s promise) program t := by
  refine Safe.imp (fun result u hresult ↦ ?_) h
  cases result with
  | ok value => exact ⟨hgrows.trans hresult.1, hresult.2⟩
  | error fault => trivial

/-- An operation, by what it does to any state the others may have left. -/
theorem safe_op {operation : Op} {promise : Reply operation → Server → Prop}
    (h : ∀ t, s.sessions.Grows w t.sessions → t.sessions.Orderly spared →
      FindsGone spared w operation t → ∀ draw reply u,
        perform d w operation draw t = some (reply, u) → u.sessions.Orderly spared ∧
          (∀ v, v ≠ w → t.sessions.Grows v u.sessions) ∧
            ∀ value, reply = .ok value → promise value u) :
    Safe (lineage d spared) w (Returns promise) (call operation) s := by
  refine Safe.call fun t hgrows ht ↦ ⟨fun _ ↦ trivial, fun hallows draw reply u hperform ↦ ?_⟩
  obtain ⟨hu, hguarantee, hpromise⟩ := h t hgrows ht hallows draw reply u hperform
  refine ⟨hu, hguarantee, fun _ ↦ ?_, fun _ ↦ trivial⟩
  cases reply with
  | ok value => exact hpromise value rfl
  | error fault => trivial

/-- An operation that leaves the sessions alone. -/
theorem safe_quiet {operation : Op} (hquiet : operation.isQuiet = true) :
    Safe (lineage d spared) w (Quietly w s fun _ _ ↦ True) (call operation) s := by
  refine safe_op fun t hgrows ht _ draw reply u hperform ↦ ?_
  have hsame := sessions_of_isQuiet hquiet hperform
  rw [hsame]
  exact ⟨ht, fun v _ ↦ Sessions.Grows.refl v t.sessions, fun _ _ ↦ ⟨hgrows, trivial⟩⟩

theorem safe_getUserById (id : UserId) : Safe (lineage d spared) w
    (Quietly w s fun found _ ↦ ∀ user, found = some user → user.id = id)
    (call (.getUserById id)) s := by
  refine safe_op fun t hgrows ht _ draw reply u hperform ↦ ?_
  cases hperform
  refine ⟨ht, fun v _ ↦ Sessions.Grows.refl v t.sessions, fun found hfound ↦ ⟨hgrows, ?_⟩⟩
  cases hfound
  intro user huser
  simpa using List.find?_some huser

/-- A session that exists, and that the request came with, is not condemned at this moment. -/
theorem safe_validateSession {token : Token} (hserves : s.sessions.Serves w request)
    (hcookie : request.cookie = some token) : Safe (lineage d spared) w
    (Quietly w s fun active t ↦ active = true → t.sessions.Admitted w request token)
    (validateSession token) s := by
  refine safe_op fun t hgrows ht _ draw reply u hperform ↦ ?_
  cases hperform
  refine ⟨ht, fun v _ ↦ Sessions.Grows.refl v t.sessions, fun active hactive ↦ ⟨hgrows, ?_⟩⟩
  cases hactive
  intro hlive
  have hne : t.sessions.user token ≠ none := Option.isSome_iff_ne_none.mp hlive
  have hissued := ht.stored token (ht.live token hne)
  have hhanded := ht.presented token ((hserves.grows hgrows).cookie token hcookie) hissued
  exact ⟨hhanded, hissued, fun sweep hsweep hcondemned ↦
    absurd hcondemned (ht.not_condemned hhanded hne hsweep)⟩

/-- The DEL of a session key. -/
theorem safe_revokeSession {token : Token} {promise : Bool → Server → Prop}
    (hreceived : s.sessions.received w = some request)
    (hpromise : ∀ t : Server, s.sessions.Grows w t.sessions → t.sessions.Orderly spared →
      promise (t.sessions.user token).isSome
        { t with sessions := t.sessions.delete w token }) :
    Safe (lineage d spared) w (Quietly w s promise) (revokeSession token) s := by
  refine safe_op fun t hgrows ht hgone draw reply u hperform ↦ ?_
  cases hperform
  have hsome : t.sessions.received w ≠ none := by
    rw [hgrows.received, hreceived]
    exact Option.some_ne_none request
  refine ⟨Sessions.orderly_delete ht token hsome fun hspared ↦ hgone token hspared rfl,
    fun v _ ↦ Sessions.grows_delete ht w token, fun existed hexisted ↦ ?_⟩
  cases hexisted
  exact ⟨hgrows.trans (Sessions.grows_delete ht w token), hpromise t hgrows ht⟩

/-- After the DEL of a logout, the session is gone for good. -/
theorem safe_revokeSession_logout {token : Token}
    (hserves : s.sessions.Serves w (.logout (some token))) : Safe (lineage d spared) w
    (Quietly w s fun _ t ↦ t.sessions.Finished w) (revokeSession token) s := by
  refine safe_revokeSession hserves.received fun t hgrows ht ↦ ?_
  have hdelete : t.sessions.Grows w (t.sessions.delete w token) :=
    Sessions.grows_delete ht w token
  have hserves' := hserves.grows (hgrows.trans hdelete)
  refine ⟨fun other hother ↦ absurd hother (hserves'.empty other), fun other hother ↦ ?_⟩
  have hsame : some (Request.logout (some token)) = some (.logout (some other)) :=
    hserves'.received.symm.trans hother
  cases hsame
  have hpresented := (hserves.grows hgrows).cookie token rfl
  refine ⟨hserves'.cookie token rfl, fun hissued ↦ ?_⟩
  have hstored := ht.handed token (ht.presented token hpresented (hdelete.fresh token hpresented hissued))
  exact ⟨hdelete.stored token hstored, Sessions.delete_user_self t.sessions w token⟩

/-- The DEL of the old session by a refresh: where it existed, the new one may be handed out. -/
theorem safe_revokeSession_old {old new : Token} (hkeeps : s.sessions.Keeps w new (some old))
    (hreceived : s.sessions.received w = some request) :
    Safe (lineage d spared) w
      (Quietly w s fun existed t ↦ existed = true → t.sessions.Chosen w new)
      (revokeSession old) s := by
  refine safe_revokeSession hreceived fun t hgrows ht hlive ↦ ?_
  have hne : t.sessions.user old ≠ none := Option.isSome_iff_ne_none.mp hlive
  have hkeeps' := hkeeps.grows hgrows
  have hdelete : t.sessions.Grows w (t.sessions.delete w old) := Sessions.grows_delete ht w old
  constructor
  · intro sweep hsweep hcondemned
    -- a condemned successor that lives has lost its parent
    rcases hdelete.condemned hkeeps'.issued hkeeps'.stored hsweep hcondemned with
      ⟨hold, hcond⟩ | hdead
    · refine hdelete.dead new hkeeps'.stored ?_
      by_contra hnew
      obtain ⟨-, parent, v, hparent, -, hgone, -⟩ := ht.condemned sweep hold new hnew hcond
      rw [hkeeps'.parent, Option.some.injEq] at hparent
      exact hne (hparent ▸ hgone)
    · exact hdead
  · intro parent hparent
    have hsame : some old = some parent :=
      hkeeps'.parent.symm.trans ((hdelete.parent new hkeeps'.issued).symm.trans hparent)
    cases hsame
    exact Sessions.delete_endedBy_self hne

/-- The withdrawal of a token. -/
theorem safe_revokeSession_new {new : Token} (hreceived : s.sessions.received w = some request) :
    Safe (lineage d spared) w (Quietly w s fun _ t ↦ t.sessions.user new = none)
      (revokeSession new) s :=
  safe_revokeSession hreceived fun t _ _ ↦ Sessions.delete_user_self t.sessions w new

/-- The sweep script ends what it condemns. -/
theorem safe_revokeUserSessions (user : UserId) {keep : Option Token}
    (hserves : s.sessions.Serves w request) (hkeep : keep = none ∨ keep = request.cookie) :
    Safe (lineage d spared) w (Quietly w s fun _ _ ↦ True) (revokeUserSessions user keep) s := by
  refine safe_op fun t hgrows ht _ draw reply u hperform ↦ ?_
  cases hperform
  have hkept : ∀ token, keep = some token → token ∈ t.sessions.presented := by
    intro token htoken
    rcases hkeep with hnone | hcookie
    · rw [hnone] at htoken
      cases htoken
    · exact (hserves.grows hgrows).cookie token (hcookie ▸ htoken)
  exact ⟨Sessions.orderly_sweep ht user _ hkept, fun v _ ↦ Sessions.grows_sweep ht user keep _,
    fun _ _ ↦ ⟨hgrows.trans (Sessions.grows_sweep ht user keep _), trivial⟩⟩

/-- A token that begins a session. -/
theorem safe_createAccessToken (user : UserId) (hserves : s.sessions.Serves w request) :
    Safe (lineage d spared) w
      (Returns fun token t ↦ t.sessions.Drew w token none ∧ token.sub = user ∧
        t.sessions.received w = some request)
      (call (.createAccessToken user none)) s := by
  refine safe_op fun t hgrows ht _ draw reply u hperform ↦ ?_
  obtain ⟨sessions, hissue, hresult⟩ := Option.map_eq_some_iff.mp hperform
  cases hresult
  have horderly := Sessions.orderly_issue ht (fun _ hsucceeds ↦ absurd hsucceeds (by decide)) hissue
  refine ⟨horderly, fun v hv ↦ Sessions.grows_issue ht hv hissue, fun token htoken ↦ ?_⟩
  cases htoken
  have hserves' := hserves.grows hgrows
  obtain ⟨-, -, rfl⟩ := Sessions.issue_cases hissue
  exact ⟨drew_of_issue ht hserves' hissue, rfl, hserves'.received⟩
where
  drew_of_issue {s t : Sessions} {token : Token} {succeeds : Bool} (hs : s.Orderly spared)
      (hserves : s.Serves w request) (hissue : s.issue w token succeeds = some t) :
      t.Drew w token (if succeeds then (s.received w).bind Request.cookie else none) := by
    obtain ⟨hfresh, -, rfl⟩ := Sessions.issue_cases hissue
    refine ⟨Function.update_self .., fun other hother ↦ ?_, Function.update_self ..,
      List.mem_cons_self, fun hstored ↦ hfresh (hs.stored token hstored)⟩
    by_contra hne
    change Function.update s.owner token (some w) other = some w at hother
    rw [Function.update_of_ne hne] at hother
    exact hserves.empty other hother

/-- A token that succeeds the session its request came with. -/
theorem safe_createAccessToken_successor {old : Token} {authTime : ℕ}
    (hserves : s.sessions.Serves w (.sessionRefresh (some old)))
    (hadmitted : s.sessions.Admitted w (.sessionRefresh (some old)) old) :
    Safe (lineage d spared) w
      (Returns fun token t ↦ t.sessions.Drew w token (some old) ∧ token.sub = old.sub ∧
        t.sessions.received w = some (.sessionRefresh (some old)) ∧
        t.sessions.Admitted w (.sessionRefresh (some old)) old)
      (call (.createAccessToken old.sub (some authTime))) s := by
  refine safe_op fun t hgrows ht _ draw reply u hperform ↦ ?_
  obtain ⟨sessions, hissue, hresult⟩ := Option.map_eq_some_iff.mp hperform
  cases hresult
  have hserves' := hserves.grows hgrows
  have hadmitted' := hadmitted.grows hserves.received hgrows
  have hcookie : (t.sessions.received w).bind Request.cookie = some old := by
    rw [hserves'.received]
    rfl
  have horderly := Sessions.orderly_issue ht (fun parent _ hparent ↦ by
    rw [hcookie, Option.some.injEq] at hparent
    subst hparent
    exact ⟨hserves'.received, hadmitted'.handed, rfl⟩) hissue
  refine ⟨horderly, fun v hv ↦ Sessions.grows_issue ht hv hissue, fun token htoken ↦ ?_⟩
  cases htoken
  have hdrew := safe_createAccessToken.drew_of_issue ht hserves' hissue
  rw [show (some authTime).isSome = true from rfl, if_pos rfl, hcookie] at hdrew
  obtain ⟨hfresh, -, rfl⟩ := Sessions.issue_cases hissue
  refine ⟨hdrew, rfl, hserves'.received, ?_⟩
  refine ⟨hadmitted'.handed, List.mem_cons_of_mem _ hadmitted'.issued,
    fun sweep hsweep hcondemned ↦ hadmitted'.condemned sweep hsweep ?_⟩
  refine (Sessions.Condemned.congr fun root ↦ ?_).mp hcondemned
  exact descends_update_iff (ht.parent_ne hfresh) (ne_of_mem_of_not_mem hadmitted'.issued hfresh)

/-- Storing a token that begins a session. -/
theorem safe_storeSession {token : Token} (hdrew : s.sessions.Drew w token none)
    (hreceived : s.sessions.received w = some request) :
    Safe (lineage d spared) w
      (Returns fun _ t ↦ t.sessions.Keeps w token none ∧ t.sessions.Chosen w token ∧
        t.sessions.received w = some request)
      (storeSession token.sub token) s := by
  refine safe_op fun t hgrows ht _ draw reply u hperform ↦ ?_
  cases hperform
  have hdrew' := hdrew.grows hgrows
  have hclear : ∀ sweep ∈ t.sessions.sweeps, ¬t.sessions.Condemned sweep token :=
    fun sweep hsweep hcondemned ↦
      hdrew'.fresh (ht.before sweep hsweep token (hcondemned.mem_before hdrew'.parent)).1
  refine ⟨Sessions.orderly_store ht hdrew'.issued hdrew'.fresh
    (fun sweep hsweep hcondemned ↦ absurd hcondemned (hclear sweep hsweep)),
    fun v hv ↦ Sessions.grows_store hdrew'.owner hdrew'.fresh hv _,
    fun _ _ ↦ ⟨?_, ?_, hgrows.received.trans hreceived⟩⟩
  · exact ⟨hdrew'.owner, hdrew'.only, hdrew'.parent, hdrew'.issued, List.mem_cons_self⟩
  · refine ⟨fun sweep hsweep hcondemned ↦ absurd ?_ (hclear sweep hsweep), fun old hold ↦ ?_⟩
    · exact ⟨hcondemned.1, hcondemned.2⟩
    · cases hdrew'.parent.symm.trans hold

/-- Storing a successor. -/
theorem safe_storeSession_successor {old token : Token}
    (hdrew : s.sessions.Drew w token (some old))
    (hreceived : s.sessions.received w = some (.sessionRefresh (some old)))
    (hadmitted : s.sessions.Admitted w (.sessionRefresh (some old)) old) :
    Safe (lineage d spared) w (Returns fun _ t ↦ t.sessions.Keeps w token (some old) ∧
      t.sessions.received w = some (.sessionRefresh (some old)))
      (storeSession token.sub token) s := by
  refine safe_op fun t hgrows ht _ draw reply u hperform ↦ ?_
  cases hperform
  have hdrew' := hdrew.grows hgrows
  refine ⟨Sessions.orderly_store ht hdrew'.issued hdrew'.fresh fun sweep hsweep hcondemned ↦ ?_,
    fun v hv ↦ Sessions.grows_store hdrew'.owner hdrew'.fresh hv _, fun _ _ ↦ ?_⟩
  · obtain ⟨hgone, hinFlight⟩ :=
      hdrew'.condemned ht (hadmitted.grows hreceived hgrows) hsweep hcondemned
    exact ⟨old, w, hdrew'.parent, hdrew'.owner, hgone, hinFlight⟩
  · exact ⟨⟨hdrew'.owner, hdrew'.only, hdrew'.parent, hdrew'.issued, List.mem_cons_self⟩,
      hgrows.received.trans hreceived⟩

/-- Handing the token out. -/
theorem safe_setCookie {token : Token} {parent : Option Token}
    (hkeeps : s.sessions.Keeps w token parent) (hchosen : s.sessions.Chosen w token) :
    Safe (lineage d spared) w (Quietly w s fun _ t ↦ t.sessions.Settled w)
      (call (.setCookie token)) s := by
  refine safe_op fun t hgrows ht _ draw reply u hperform ↦ ?_
  cases hperform
  have hkeeps' := hkeeps.grows hgrows
  have hchosen' := hchosen.grows hkeeps hgrows
  have hhand : t.sessions.Grows w (t.sessions.hand token) := Sessions.grows_hand token
  refine ⟨Sessions.orderly_hand ht hkeeps'.stored hchosen'.clear fun old hold ↦ ?_,
    fun v _ ↦ Sessions.grows_hand token, fun _ _ ↦ ⟨hgrows.trans hhand, ?_⟩⟩
  · exact (hchosen'.chosen old hold).trans hkeeps'.owner.symm
  · exact (hkeeps'.grows hhand).settled (hchosen'.grows hkeeps' hhand)

end OpenWhistle.Accounts
