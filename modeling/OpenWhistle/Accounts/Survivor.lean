import OpenWhistle.Accounts.Sweep

/-!
# The session that changed the password

A password change ends every session of the account but its own. Meanwhile the timer of the page may
refresh that very session: the refresh stores a successor, deletes the old session, and hands the
successor out. The sweep knows only the old token. Once that one is deleted there is nothing left to
keep, and the sweep ends the successor; and a sweep between the store and the DEL ends the successor
while the refresh still goes on to delete the old one.

Where a sweep finds the session not yet replaced, and a refresh that deletes it still has its own
successor, the browser ends up with a session: as long as nobody has deleted the old one it is there,
and after that the successor of the request that did. That needs the answer: a refresh that ends with
an exception after its DEL leaves the browser with a session that is gone and sends no successor.
-/

set_option autoImplicit false
set_option relaxedAutoImplicit false

namespace OpenWhistle.Accounts

open Interleaving

/-- The requests that a browser makes with one session: refreshes, and a password change. -/
def Request.With (old : Token) : Request → Prop
  | .sessionRefresh cookie => cookie = some old
  | .accountPassword cookie _ _ _ _ => cookie = some old
  | _ => False

/-- The key of a session is there, or its time is over, but for the part of a second that a time to
live in whole seconds leaves out. -/
def Server.Lasts (s : Server) (token : Token) : Prop :=
  s.sessions.user token ≠ none ∨ token.exp ≤ s.now + 1

instance (s : Server) (token : Token) : Decidable (s.Lasts token) :=
  inferInstanceAs (Decidable (_ ∨ _))

/-- No sweep that keeps a session comes after its replacement, and no refresh deletes it once its own
successor is gone. -/
def SparesSuccessor (old : Token) (w : ℕ) : Op → Server → Prop
  | .sweep _ keep, s => keep = some old → s.sessions.endedBy old = none
  | .deleteSession token, s => token = old → s.sessions.user old ≠ none →
      ∀ new ∈ s.sessions.issued, s.sessions.owner new = some w → s.Lasts new
  | _, _ => True

instance (old : Token) (w : ℕ) (operation : Op) (s : Server) :
    Decidable (SparesSuccessor old w operation s) :=
  match operation with
  | .sweep _ _ => inferInstanceAs (Decidable (_ → _))
  | .deleteSession _ => inferInstanceAs (Decidable (_ → _ → ∀ _ ∈ _, _ → _))
  | .receive _ | .claimAdminAttempt _ | .limiter _ | .clock | .authenticateLdap _ _
  | .getUserByLdapUsername _ | .usernameTaken _ | .provisionLdapUser _ | .getUserByUsername _
  | .getUserById _ | .countActivePrivilegedAdmins | .commit _ _ _ | .tokenUrlsafe | .randomBase32
  | .temporaryPassword | .hashPassword _ | .createAccessToken _ _ | .setSession _ _
  | .existsSession _ | .setTotpPending _ _ | .getdelTotpPending _ | .setTotpSetup _ _
  | .getdelTotpSetup _ | .setTotpUsed _ _ | .setCookie _ => isTrue trivial

/-- A session key expires no earlier than its token does. -/
def Timely : Change → Server → Prop
  | .expireSession token, s => token.exp ≤ s.now + 1
  | _, _ => True

instance (change : Change) (s : Server) : Decidable (Timely change s) :=
  match change with
  | .expireSession _ => inferInstanceAs (Decidable (_ ≤ _))
  | .tick _ | .expirePending _ | .expireSetup _ | .expireUsed _ _ => isTrue trivial

/-- The condition on a step. -/
def Spared (old : Token) (s : Requests) : Step → Prop
  | .environment change => Timely change s.shared
  | event => s.Acts (SparesSuccessor old) event

instance (old : Token) (s : Requests) (event : Step) : Decidable (Spared old s event) :=
  match event with
  | .environment change => inferInstanceAs (Decidable (Timely change s.shared))
  | .start w request =>
    inferInstanceAs (Decidable (s.Acts (SparesSuccessor old) (.start w request : Step)))
  | .run w draw => inferInstanceAs (Decidable (s.Acts (SparesSuccessor old) (.run w draw : Step)))
  | .fail w fault => inferInstanceAs (Decidable (s.Acts (SparesSuccessor old) (.fail w fault : Step)))
  | .lose w draw fault =>
    inferInstanceAs (Decidable (s.Acts (SparesSuccessor old) (.lose w draw fault : Step)))

/-- The session that the browser holds: the successor that it was handed last, or the one it came
with. -/
def Server.held (s : Server) (old : Token) : Token :=
  (s.sessions.handed.find? fun token ↦ s.sessions.parent token = some old).getD old

/-! ### The invariant -/

variable {d : Deployment} {old : Token} {s t u : Server} {v w : ℕ}

/-- The account can sign in. -/
def Open (account : UserId) (s : Server) : Prop :=
  ∃ user, s.userById account = some user ∧ (user.isActive && user.totpEnabled) = true

structure Survives (old : Token) (s : Server) : Prop where
  account : Open old.sub s
  issued : old ∈ s.sessions.issued
  root : s.sessions.owner old = none
  handed : ∀ token ∈ s.sessions.handed, token ∈ s.sessions.issued
  replaced : s.sessions.endedBy old ≠ none → s.sessions.user old = none
  there : s.sessions.endedBy old = none → s.Lasts old
  successor : ∀ token ∈ s.sessions.handed, s.sessions.parent token = some old →
    token.sub = old.sub ∧ s.sessions.endedBy old ≠ none ∧ s.Lasts token

/-- What request `w` may rely on. -/
structure Beside (old : Token) (w : ℕ) (s t : Server) : Prop where
  now : s.now ≤ t.now
  received : t.sessions.received w = s.sessions.received w
  issued : ∀ token ∈ s.sessions.issued, token ∈ t.sessions.issued ∧
    t.sessions.owner token = s.sessions.owner token ∧
    t.sessions.parent token = s.sessions.parent token
  ended : ∀ v, s.sessions.endedBy old = some v → t.sessions.endedBy old = some v
  mine : t.sessions.endedBy old = some w → s.sessions.endedBy old = some w
  handed : ∀ token ∈ s.sessions.handed, token ∈ t.sessions.handed
  hands : ∀ token ∈ s.sessions.issued, s.sessions.owner token = some w →
    token ∈ t.sessions.handed → token ∈ s.sessions.handed
  lasts : s.sessions.endedBy old ≠ none → ∀ token ∈ s.sessions.issued,
    s.sessions.owner token = some w → s.Lasts token → t.Lasts token

theorem Beside.refl (w : ℕ) (s : Server) : Beside old w s s :=
  ⟨Nat.le_refl _, rfl, fun _ h ↦ ⟨h, rfl, rfl⟩, fun _ h ↦ h, fun h ↦ h, fun _ h ↦ h, fun _ _ _ h ↦ h,
    fun _ _ _ _ h ↦ h⟩

theorem Beside.trans (hst : Beside old w s t) (htu : Beside old w t u) : Beside old w s u where
  now := Nat.le_trans hst.now htu.now
  received := htu.received.trans hst.received
  issued token h := by
    obtain ⟨hissued, howner, hparent⟩ := hst.issued token h
    obtain ⟨hissued', howner', hparent'⟩ := htu.issued token hissued
    exact ⟨hissued', howner'.trans howner, hparent'.trans hparent⟩
  ended v h := htu.ended v (hst.ended v h)
  mine h := hst.mine (htu.mine h)
  handed token h := htu.handed token (hst.handed token h)
  hands token h howner hhanded := by
    obtain ⟨hissued, howner', -⟩ := hst.issued token h
    exact hst.hands token h howner (htu.hands token hissued (howner'.trans howner) hhanded)
  lasts hended token h howner hlasts := by
    obtain ⟨hissued, howner', -⟩ := hst.issued token h
    obtain ⟨v, hv⟩ := Option.ne_none_iff_exists'.mp hended
    have hended' : t.sessions.endedBy old ≠ none := by
      rw [hst.ended v hv]
      exact Option.some_ne_none v
    exact htu.lasts hended' token hissued (howner'.trans howner)
      (hst.lasts hended token h howner hlasts)

/-! ### What leaves the sessions alone -/

theorem Server.Lasts.later {token : Token} (h : s.Lasts token)
    (huser : s.sessions.user token ≠ none → t.sessions.user token ≠ none) (hnow : s.now ≤ t.now) :
    t.Lasts token :=
  h.imp huser fun hover ↦ Nat.le_trans hover (Nat.add_le_add_right hnow 1)

theorem Survives.of_sessions (h : Survives old s) (hsessions : t.sessions = s.sessions)
    (hnow : s.now ≤ t.now) (haccount : Open old.sub s → Open old.sub t) : Survives old t := by
  have hlasts : ∀ {token : Token}, s.Lasts token → t.Lasts token :=
    fun hlasts ↦ hlasts.later (by rw [hsessions]; exact fun h ↦ h) hnow
  refine ⟨haccount h.account, ?_, ?_, ?_, ?_, ?_, ?_⟩
  all_goals rw [hsessions]
  · exact h.issued
  · exact h.root
  · exact h.handed
  · exact h.replaced
  · exact fun hended ↦ hlasts (h.there hended)
  · intro token hhanded hparent
    obtain ⟨hsub, hended, htoken⟩ := h.successor token hhanded hparent
    exact ⟨hsub, hended, hlasts htoken⟩

theorem beside_of_sessions (hsessions : t.sessions = s.sessions) (hnow : s.now ≤ t.now) (w : ℕ) :
    Beside old w s t := by
  refine ⟨hnow, ?_, ?_, ?_, ?_, ?_, ?_, fun _ token _ _ hlasts ↦ hlasts.later ?_ hnow⟩
  · rw [hsessions]
  · rw [hsessions]
    exact fun _ h ↦ ⟨h, rfl, rfl⟩
  · rw [hsessions]
    exact fun _ h ↦ h
  · rw [hsessions]
    exact fun h ↦ h
  · rw [hsessions]
    exact fun _ h ↦ h
  · rw [hsessions]
    exact fun _ _ _ h ↦ h
  · rw [hsessions]
    exact fun h ↦ h

/-- The operations that read, or write what no session depends on. -/
def Op.isAside : Op → Bool
  | .claimAdminAttempt _ | .limiter _ | .clock | .getUserById _ | .hashPassword _
  | .existsSession _ | .setTotpUsed _ _ => true
  | _ => false

theorem aside_perform {operation : Op} (haside : operation.isAside = true) {draw : Draw}
    {reply : Except Fault (Reply operation)} (h : perform d w operation draw s = some (reply, t)) :
    t.sessions = s.sessions ∧ t.now = s.now ∧ t.users = s.users := by
  cases operation with
  | claimAdminAttempt username => cases h; exact ⟨rfl, rfl, rfl⟩
  | limiter call => cases h; exact ⟨rfl, rfl, rfl⟩
  | clock => cases h; exact ⟨rfl, rfl, rfl⟩
  | getUserById id => cases h; exact ⟨rfl, rfl, rfl⟩
  | hashPassword password => cases h; exact ⟨rfl, rfl, rfl⟩
  | existsSession token => cases h; exact ⟨rfl, rfl, rfl⟩
  | setTotpUsed user code =>
    rcases setTotpUsed_cases h with rfl | rfl
    · exact ⟨rfl, rfl, rfl⟩
    · exact ⟨rfl, rfl, rfl⟩
  | _ => cases haside

theorem Open.of_users {account : UserId} (h : Open account s) (husers : t.users = s.users) :
    Open account t := by
  unfold Open Server.userById at h ⊢
  rw [husers]
  exact h

/-! ### The contract -/

theorem survives_environment {change : Change} (h : Survives old s) (htimely : Timely change s)
    (hchange : environment change s = some t) : Survives old t ∧ ∀ w, Beside old w s t := by
  cases change with
  | expireSession token =>
    cases hchange
    have hlasts : ∀ {other : Token}, s.Lasts other →
        Server.Lasts { s with sessions := s.sessions.expire token } other := by
      intro other hlasts
      by_cases heq : other = token
      · rw [heq]
        exact .inr htimely
      · refine hlasts.later (fun hlive ↦ ?_) (Nat.le_refl _)
        show Function.update s.sessions.user token none other ≠ none
        rw [Function.update_of_ne heq]
        exact hlive
    refine ⟨⟨h.account, h.issued, h.root, h.handed, fun hended ↦ ?_, fun hended ↦
      hlasts (h.there hended), fun other hhanded hparent ↦ ?_⟩, fun w ↦ ⟨Nat.le_refl _, rfl,
        fun _ h ↦ ⟨h, rfl, rfl⟩, fun _ h ↦ h, fun h ↦ h, fun _ h ↦ h, fun _ _ _ h ↦ h,
        fun _ _ _ _ h ↦ hlasts h⟩⟩
    · show Function.update s.sessions.user token none old = none
      by_cases heq : old = token
      · rw [heq, Function.update_self]
      · rw [Function.update_of_ne heq]
        exact h.replaced hended
    · obtain ⟨hsub, hended, htoken⟩ := h.successor other hhanded hparent
      exact ⟨hsub, hended, hlasts htoken⟩
  | tick seconds =>
    cases hchange
    exact ⟨h.of_sessions rfl (Nat.le_add_right _ _) fun haccount ↦ haccount.of_users rfl,
      beside_of_sessions rfl (Nat.le_add_right _ _)⟩
  | _ =>
    cases hchange
    exact ⟨h.of_sessions rfl (Nat.le_refl _) fun haccount ↦ haccount.of_users rfl,
      beside_of_sessions rfl (Nat.le_refl _)⟩

/-- What the requests with one session owe each other. -/
def survival (d : Deployment) (old : Token) : Contract (semantics d) Request Answer where
  invariant := Survives old
  rely := Beside old
  rely_refl := Beside.refl
  rely_trans _ _ _ _ := Beside.trans
  idle w s := s.sessions.endedBy old ≠ some w
  idle_stable _ _ _ h hbeside _ hended := h (hbeside.mine hended)
  ends w := Returns fun _ s ↦ s.sessions.endedBy old = some w →
    ∃ token ∈ s.sessions.handed, token ∈ s.sessions.issued ∧ s.sessions.parent token = some old
  ends_stable := by
    intro w result s t h hbeside _
    cases result with
    | ok answer =>
      intro hended
      obtain ⟨token, hhanded, hissued, hparent⟩ := h (hbeside.mine hended)
      obtain ⟨hissued', -, hparent'⟩ := hbeside.issued token hissued
      exact ⟨token, hbeside.handed token hhanded, hissued', hparent'.trans hparent⟩
    | error fault => trivial
  admits := Request.With old
  allows := SparesSuccessor old
  trusts _ _ _ := True
  tolerates := Timely
  environment_safe _ _ _ hs htimely h := survives_environment hs htimely h

/-- One operation, and what it promises when it is answered. -/
theorem survival_call {operation : Op} {promise : Reply operation → Server → Prop}
    (h : ∀ t, Beside old w s t → Survives old t → SparesSuccessor old w operation t →
      ∀ draw reply u, perform d w operation draw t = some (reply, u) →
        Survives old u ∧ (∀ v, v ≠ w → Beside old v t u) ∧
          ∀ value, reply = .ok value → promise value u) :
    Safe (survival d old) w (Returns promise) (call operation) s := by
  refine Safe.call fun t hbeside hsound ↦
    ⟨fun _ ↦ trivial, fun hallows draw reply u hperform ↦ ?_⟩
  obtain ⟨hsound', hothers, hpromise⟩ := h t hbeside hsound hallows draw reply u hperform
  refine ⟨hsound', hothers, fun _ ↦ ?_, fun _ ↦ trivial⟩
  cases reply with
  | ok value => exact hpromise value rfl
  | error fault => trivial

/-- Request `w` has not deleted the session. -/
def Spares (old : Token) (w : ℕ) (s : Server) : Prop := s.sessions.endedBy old ≠ some w

theorem Spares.beside (h : Spares old w s) (hbeside : Beside old w s t) : Spares old w t :=
  fun hended ↦ h (hbeside.mine hended)

theorem survival_aside {operation : Op} (haside : operation.isAside = true) :
    Safe (survival d old) w (Returns fun _ t ↦ Beside old w s t) (call operation) s := by
  refine survival_call fun t hbeside hsound _ draw reply u hperform ↦ ?_
  obtain ⟨hsessions, hnow, husers⟩ := aside_perform haside hperform
  have hothers : ∀ v, Beside old v _ _ :=
    beside_of_sessions hsessions (Nat.le_of_eq hnow.symm)
  exact ⟨hsound.of_sessions hsessions (Nat.le_of_eq hnow.symm) fun h ↦ h.of_users husers,
    fun v _ ↦ hothers v, fun _ _ ↦ hbeside.trans (hothers w)⟩

/-! ### The operations of a refresh -/

theorem survival_receive {request : Request} (h : Spares old w s) :
    Safe (survival d old) w
      (Returns fun _ t ↦ Spares old w t ∧ t.sessions.received w = some request)
      (call (.receive request)) s := by
  refine survival_call fun t hbeside hsound _ draw reply u hperform ↦ ?_
  obtain ⟨sessions, hreceive, hresult⟩ := Option.map_eq_some_iff.mp hperform
  cases hresult
  obtain ⟨-, rfl⟩ := Sessions.receive_cases hreceive
  have hspares : Spares old w t := h.beside hbeside
  refine ⟨⟨hsound.account, hsound.issued, hsound.root, hsound.handed, hsound.replaced, hsound.there,
    hsound.successor⟩, fun v hv ↦ ?_, fun _ _ ↦ ⟨hspares, Function.update_self ..⟩⟩
  exact ⟨Nat.le_refl _, Function.update_of_ne hv .., fun _ h ↦ ⟨h, rfl, rfl⟩, fun _ h ↦ h,
    fun h ↦ h, fun _ h ↦ h, fun _ _ _ h ↦ h, fun _ _ _ _ h ↦ h⟩

theorem survival_getUserById (id : UserId) : Safe (survival d old) w
    (Returns fun found t ↦ Beside old w s t ∧ ∀ user, found = some user → user.id = id)
    (call (.getUserById id)) s := by
  refine survival_call fun t hbeside hsound _ draw reply u hperform ↦ ?_
  obtain ⟨hsessions, hnow, husers⟩ := aside_perform rfl hperform
  have hothers : ∀ v, Beside old v _ _ :=
    beside_of_sessions hsessions (Nat.le_of_eq hnow.symm)
  refine ⟨hsound.of_sessions hsessions (Nat.le_of_eq hnow.symm) fun h ↦ h.of_users husers,
    fun v _ ↦ hothers v, fun found hfound ↦ ⟨hbeside.trans (hothers w), fun user huser ↦ ?_⟩⟩
  have hfind : t.userById id = some user := by
    cases hperform
    cases hfound
    exact huser
  simpa using List.find?_some hfind

/-- Request `w` has made a successor, and has not handed it out. -/
structure Drawn (old : Token) (w : ℕ) (new : Token) (s : Server) : Prop where
  issued : new ∈ s.sessions.issued
  owner : s.sessions.owner new = some w
  parent : s.sessions.parent new = some old
  unhanded : new ∉ s.sessions.handed

theorem Drawn.beside {new : Token} (h : Drawn old w new s) (hbeside : Beside old w s t) :
    Drawn old w new t := by
  obtain ⟨hissued, howner, hparent⟩ := hbeside.issued new h.issued
  exact ⟨hissued, howner.trans h.owner, hparent.trans h.parent,
    fun hhanded ↦ h.unhanded (hbeside.hands new h.issued h.owner hhanded)⟩

theorem Drawn.ne {new : Token} (h : Drawn old w new s) (hsound : Survives old s) : new ≠ old := by
  rintro rfl
  cases h.owner.symm.trans hsound.root

theorem survival_createAccessToken {user : UserId} {authTime : ℕ} (h : Spares old w s)
    (hreceived : s.sessions.received w = some (.sessionRefresh (some old))) :
    Safe (survival d old) w
      (Returns fun new t ↦ Spares old w t ∧ Drawn old w new t ∧ new.sub = user)
      (call (.createAccessToken user (some authTime))) s := by
  refine survival_call fun t hbeside hsound _ draw reply u hperform ↦ ?_
  obtain ⟨sessions, hissue, hresult⟩ := Option.map_eq_some_iff.mp hperform
  cases hresult
  generalize hnew : accessToken d user (some authTime) t.now draw.random = new at hissue ⊢
  have hsub : new.sub = user := by
    rw [← hnew]
    rfl
  obtain ⟨hfresh, -, rfl⟩ := Sessions.issue_cases hissue
  have hkept : ∀ token ∈ t.sessions.issued,
      Function.update t.sessions.owner new (some w) token = t.sessions.owner token ∧
      Function.update t.sessions.parent new (if (some authTime).isSome = true then
        (t.sessions.received w).bind Request.cookie else none) token = t.sessions.parent token :=
    fun token hmem ↦ ⟨Function.update_of_ne (ne_of_mem_of_not_mem hmem hfresh) ..,
      Function.update_of_ne (ne_of_mem_of_not_mem hmem hfresh) ..⟩
  have hcookie : (t.sessions.received w).bind Request.cookie = some old := by
    rw [hbeside.received, hreceived]
    rfl
  refine ⟨⟨hsound.account, List.mem_cons_of_mem _ hsound.issued, ?_, fun token hmem ↦
    List.mem_cons_of_mem _ (hsound.handed token hmem), hsound.replaced, hsound.there, ?_⟩,
    fun v hv ↦ ⟨Nat.le_refl _, rfl, fun token hmem ↦ ⟨List.mem_cons_of_mem _ hmem,
      hkept token hmem⟩, fun _ h ↦ h, fun h ↦ h, fun _ h ↦ h, fun _ _ _ h ↦ h,
      fun _ _ _ _ h ↦ h⟩, ?_⟩
  · exact (hkept old hsound.issued).1.trans hsound.root
  · intro token hhanded hparent
    exact hsound.successor token hhanded
      ((hkept token (hsound.handed token hhanded)).2.symm.trans hparent)
  · intro made hmade
    cases hmade
    have hspares : Spares old w t := h.beside hbeside
    refine ⟨hspares, ⟨List.mem_cons_self, Function.update_self .., ?_, ?_⟩, hsub⟩
    · exact (Function.update_self ..).trans hcookie
    · exact fun hhanded ↦ hfresh (hsound.handed new hhanded)

theorem survival_setSession {user : UserId} {new : Token} (h : Spares old w s)
    (hdrawn : Drawn old w new s) : Safe (survival d old) w
    (Returns fun _ t ↦ Spares old w t ∧ Drawn old w new t) (storeSession user new) s := by
  refine survival_call fun t hbeside hsound _ draw reply u hperform ↦ ?_
  cases hperform
  have hspares : Spares old w t := h.beside hbeside
  have hdrawn' := hdrawn.beside hbeside
  have hlive : ∀ token, t.sessions.user token ≠ none →
      (t.setSession w user new).sessions.user token ≠ none := by
    intro token hlive
    show Function.update t.sessions.user new (some user) token ≠ none
    by_cases heq : token = new
    · rw [heq, Function.update_self]
      exact Option.some_ne_none user
    · rw [Function.update_of_ne heq]
      exact hlive
  have hlasts : ∀ {token : Token}, t.Lasts token → (t.setSession w user new).Lasts token :=
    fun hlasts ↦ hlasts.later (hlive _) (Nat.le_refl _)
  refine ⟨⟨hsound.account, hsound.issued, hsound.root, hsound.handed, fun hended ↦ ?_,
    fun hended ↦ hlasts (hsound.there hended), fun token hhanded hparent ↦ ?_⟩,
    fun v _ ↦ ⟨Nat.le_refl _, rfl, fun _ h ↦ ⟨h, rfl, rfl⟩, fun _ h ↦ h, fun h ↦ h, fun _ h ↦ h,
      fun _ _ _ h ↦ h, fun _ _ _ _ h ↦ hlasts h⟩, fun _ _ ↦ ⟨hspares, ?_⟩⟩
  · show Function.update t.sessions.user new (some user) old = none
    rw [Function.update_of_ne (hdrawn'.ne hsound).symm]
    exact hsound.replaced hended
  · obtain ⟨hsub, hended, htoken⟩ := hsound.successor token hhanded hparent
    exact ⟨hsub, hended, hlasts htoken⟩
  · exact ⟨hdrawn'.issued, hdrawn'.owner, hdrawn'.parent, hdrawn'.unhanded⟩

/-- Request `w` has deleted the session, and its successor is there to be handed out. -/
structure Replaced (old : Token) (w : ℕ) (new : Token) (s : Server) : Prop where
  drawn : Drawn old w new s
  ended : s.sessions.endedBy old = some w
  lasts : s.Lasts new

theorem Replaced.beside {new : Token} (h : Replaced old w new s) (hbeside : Beside old w s t) :
    Replaced old w new t := by
  refine ⟨h.drawn.beside hbeside, hbeside.ended w h.ended, ?_⟩
  refine hbeside.lasts ?_ new h.drawn.issued h.drawn.owner h.lasts
  rw [h.ended]
  exact Option.some_ne_none w

/-- The DEL of the old session. -/
theorem survival_revokeSession_old {new : Token} (h : Spares old w s)
    (hdrawn : Drawn old w new s) : Safe (survival d old) w
    (Returns fun existed t ↦ (existed = true → Replaced old w new t) ∧
      (existed = false → Spares old w t ∧ Drawn old w new t)) (revokeSession old) s := by
  refine survival_call fun t hbeside hsound hspares draw reply u hperform ↦ ?_
  cases hperform
  have hdrawn' := hdrawn.beside hbeside
  rcases Sessions.delete_cases t.sessions w old with ⟨hgone, heq⟩ | ⟨hlive, heq⟩
  · rw [heq, hgone]
    exact ⟨hsound, fun v _ ↦ Beside.refl v t, fun existed hexisted ↦ by
      cases hexisted
      exact ⟨nofun, fun _ ↦ ⟨h.beside hbeside, hdrawn'⟩⟩⟩
  · -- nobody has deleted it so far: the key is there
    have hunended : t.sessions.endedBy old = none := by
      by_contra hended
      exact hlive (hsound.replaced hended)
    rw [heq]
    have hlasts : ∀ {token : Token} {endedBy : Token → Option ℕ}, token ≠ old → t.Lasts token →
        Server.Lasts { t with sessions := { t.sessions with
          user := Function.update t.sessions.user old none, endedBy := endedBy } } token := by
      intro token endedBy hne hlasts
      refine hlasts.later (fun hlive ↦ ?_) (Nat.le_refl _)
      show Function.update t.sessions.user old none token ≠ none
      rw [Function.update_of_ne hne]
      exact hlive
    have hended : Function.update t.sessions.endedBy old (some w) old = some w :=
      Function.update_self ..
    have hunhanded : ∀ token ∈ t.sessions.handed, t.sessions.parent token ≠ some old :=
      fun token hhanded hparent ↦ (hsound.successor token hhanded hparent).2.1 hunended
    refine ⟨⟨hsound.account, hsound.issued, hsound.root, hsound.handed, fun _ ↦
      Function.update_self .., fun hnone ↦ ?_, fun token hhanded hparent ↦
        absurd hparent (hunhanded token hhanded)⟩, fun v hv ↦ ⟨Nat.le_refl _, rfl,
          fun _ h ↦ ⟨h, rfl, rfl⟩, fun x hx ↦ ?_, fun hmine ↦ ?_, fun _ h ↦ h, fun _ _ _ h ↦ h,
          fun hnone ↦ absurd hunended hnone⟩, fun existed hexisted ↦ ?_⟩
    · change Function.update t.sessions.endedBy old (some w) old = none at hnone
      rw [hended] at hnone
      cases hnone
    · rw [hunended] at hx
      cases hx
    · change Function.update t.sessions.endedBy old (some w) old = some v at hmine
      rw [hended] at hmine
      exact absurd (Option.some.inj hmine).symm hv
    · cases hexisted
      refine ⟨fun _ ↦ ⟨⟨hdrawn'.issued, hdrawn'.owner, hdrawn'.parent, hdrawn'.unhanded⟩, hended,
        hlasts (hdrawn'.ne hsound) (hspares rfl hlive new hdrawn'.issued hdrawn'.owner)⟩,
        fun hnone ↦ ?_⟩
      rw [Option.isSome_eq_false_iff, Option.isNone_iff_eq_none] at hnone
      exact absurd hnone hlive

/-- The withdrawal of a successor that was not handed out. -/
theorem survival_revokeSession_new {new : Token} (h : Spares old w s)
    (hdrawn : Drawn old w new s) : Safe (survival d old) w
    (Returns fun _ t ↦ Spares old w t) (revokeSession new) s := by
  refine survival_call fun t hbeside hsound _ draw reply u hperform ↦ ?_
  cases hperform
  have hspares : Spares old w t := h.beside hbeside
  have hdrawn' := hdrawn.beside hbeside
  have hne := hdrawn'.ne hsound
  rcases Sessions.delete_cases t.sessions w new with ⟨-, heq⟩ | ⟨-, heq⟩
  · rw [heq]
    exact ⟨hsound, fun v _ ↦ Beside.refl v t, fun _ _ ↦ hspares⟩
  rw [heq]
  have hlasts : ∀ {token : Token} {endedBy : Token → Option ℕ}, token ≠ new → t.Lasts token →
      Server.Lasts { t with sessions := { t.sessions with
        user := Function.update t.sessions.user new none, endedBy := endedBy } } token := by
    intro token endedBy hne hlasts
    refine hlasts.later (fun hlive ↦ ?_) (Nat.le_refl _)
    show Function.update t.sessions.user new none token ≠ none
    rw [Function.update_of_ne hne]
    exact hlive
  have hended : Function.update t.sessions.endedBy new (some w) old = t.sessions.endedBy old :=
    Function.update_of_ne hne.symm ..
  have hothers : ∀ token ∈ t.sessions.handed, token ≠ new :=
    fun token hhanded ↦ ne_of_mem_of_not_mem hhanded hdrawn'.unhanded
  refine ⟨⟨hsound.account, hsound.issued, hsound.root, hsound.handed, fun hnone ↦ ?_,
    fun hnone ↦ ?_, fun token hhanded hparent ↦ ?_⟩, fun v hv ↦ ⟨Nat.le_refl _, rfl,
      fun _ h ↦ ⟨h, rfl, rfl⟩, fun x hx ↦ hended.trans hx, fun hmine ↦ hended.symm.trans hmine,
      fun _ h ↦ h, fun _ _ _ h ↦ h, fun _ token _ howner ↦ hlasts ?_⟩, fun _ _ hmine ↦
        hspares (hended.symm.trans hmine)⟩
  · show Function.update t.sessions.user new none old = none
    rw [Function.update_of_ne hne.symm]
    exact hsound.replaced fun hunended ↦ hnone (hended.trans hunended)
  · exact hlasts hne.symm (hsound.there (hended.symm.trans hnone))
  · obtain ⟨hsub, hreplaced, htoken⟩ := hsound.successor token hhanded hparent
    exact ⟨hsub, fun hnone ↦ hreplaced (hended.symm.trans hnone), hlasts (hothers token hhanded) htoken⟩
  · rintro rfl
    exact hv (Option.some.inj (howner.symm.trans hdrawn'.owner))

/-- The successor is handed out. -/
theorem survival_setCookie {new : Token} (h : Replaced old w new s) (hsub : new.sub = old.sub) :
    Safe (survival d old) w
      (Returns fun _ t ↦ ∃ token ∈ t.sessions.handed, token ∈ t.sessions.issued ∧
        t.sessions.parent token = some old)
      (call (.setCookie new)) s := by
  refine survival_call fun t hbeside hsound _ draw reply u hperform ↦ ?_
  cases hperform
  obtain ⟨hdrawn, hended, hlasts⟩ := h.beside hbeside
  have hreplaced : t.sessions.endedBy old ≠ none := by
    rw [hended]
    exact Option.some_ne_none w
  have hkept : ∀ {token : Token}, t.Lasts token →
      Server.Lasts { t with sessions := t.sessions.hand new } token :=
    fun hlasts ↦ hlasts.later (fun h ↦ h) (Nat.le_refl _)
  refine ⟨⟨hsound.account, hsound.issued, hsound.root, fun token hmem ↦ ?_, hsound.replaced,
    fun hnone ↦ absurd hnone hreplaced, fun token hmem hparent ↦ ?_⟩, fun v hv ↦ ⟨Nat.le_refl _, rfl,
      fun _ h ↦ ⟨h, rfl, rfl⟩, fun _ h ↦ h, fun h ↦ h, fun _ h ↦ List.mem_cons_of_mem _ h,
      fun token _ howner hmem ↦ ?_, fun _ _ _ _ h ↦ hkept h⟩, fun _ _ ↦
        ⟨new, List.mem_cons_self, hdrawn.issued, hdrawn.parent⟩⟩
  · rcases List.mem_cons.mp hmem with rfl | hold
    · exact hdrawn.issued
    · exact hsound.handed token hold
  · rcases List.mem_cons.mp hmem with rfl | hold
    · exact ⟨hsub, hreplaced, hkept hlasts⟩
    · obtain ⟨hsub', hreplaced', htoken⟩ := hsound.successor token hold hparent
      exact ⟨hsub', hreplaced', hkept htoken⟩
  · rcases List.mem_cons.mp hmem with rfl | hold
    · exact absurd (Option.some.inj (howner.symm.trans hdrawn.owner)) hv
    · exact hold

/-! ### The operations of a password change -/

/-- The row of an account after a commit. -/
theorem userById_commit (s : Server) (loaded changed : AdminUser) (action : AuditAction)
    (id : UserId) : (s.commit loaded changed action).userById id =
      (s.userById id).map fun user ↦
        if user.id = loaded.id then AdminUser.flush loaded changed user else user := by
  have hid : ∀ user : AdminUser,
      (if user.id = loaded.id then AdminUser.flush loaded changed user else user).id = user.id := by
    intro user
    split
    · rfl
    · rfl
  show (s.users.map _).find? _ = (s.users.find? _).map _
  rw [List.find?_map]
  congr 2
  funext user
  exact congrArg (fun n : ℕ ↦ decide (n = id)) (hid user)

/-- A commit that leaves the columns alone that a sign-in depends on. -/
theorem Open.commit {account : UserId} {loaded changed : AdminUser} (action : AuditAction)
    (h : Open account s) (hactive : changed.isActive = loaded.isActive)
    (htotp : changed.totpEnabled = loaded.totpEnabled) :
    Open account (s.commit loaded changed action) := by
  obtain ⟨user, huser, hopen⟩ := h
  refine ⟨_, (userById_commit s loaded changed action account).trans (by rw [huser]; rfl), ?_⟩
  dsimp only
  split
  · have hkept : (AdminUser.flush loaded changed user).isActive = user.isActive := if_pos hactive
    have hkept' : (AdminUser.flush loaded changed user).totpEnabled = user.totpEnabled :=
      if_pos htotp
    rw [hkept, hkept']
    exact hopen
  · exact hopen

theorem survival_commit {loaded changed : AdminUser} {action : AuditAction}
    (hactive : changed.isActive = loaded.isActive) (htotp : changed.totpEnabled = loaded.totpEnabled)
    (h : Spares old w s) : Safe (survival d old) w (Returns fun _ t ↦ Spares old w t)
      (call (.commit loaded changed action)) s := by
  refine survival_call fun t hbeside hsound _ draw reply u hperform ↦ ?_
  cases hperform
  have hspares : Spares old w t := h.beside hbeside
  have hothers := fun v ↦
    (beside_of_sessions (s := t) (t := t.commit loaded changed action) rfl (Nat.le_refl _) v :
      Beside old v _ _)
  exact ⟨hsound.of_sessions rfl (Nat.le_refl _) fun haccount ↦ haccount.commit action hactive htotp,
    fun v _ ↦ hothers v, fun _ _ ↦ hspares⟩

/-- The sweep of a password change comes before the session is replaced. -/
theorem survival_sweep {account : UserId} (h : Spares old w s) :
    Safe (survival d old) w (Returns fun _ t ↦ Spares old w t)
      (revokeUserSessions account (some old)) s := by
  refine survival_call fun t hbeside hsound hspares draw reply u hperform ↦ ?_
  cases hperform
  have hkept : Spares old w t := h.beside hbeside
  have hunended : t.sessions.endedBy old = none := hspares rfl
  have hold : (t.sweep account (some old)).sessions.user old = t.sessions.user old :=
    if_neg fun hswept ↦ hswept.2 rfl
  refine ⟨⟨hsound.account, hsound.issued, hsound.root, hsound.handed, fun hended ↦
    absurd hunended hended, fun _ ↦ (hsound.there hunended).later (by rw [hold]; exact fun h ↦ h)
      (Nat.le_refl _), fun token hhanded hparent ↦
        absurd hunended (hsound.successor token hhanded hparent).2.1⟩, fun v _ ↦
          ⟨Nat.le_refl _, rfl, fun _ h ↦ ⟨h, rfl, rfl⟩, fun _ h ↦ h, fun h ↦ h, fun _ h ↦ h,
            fun _ _ _ h ↦ h, fun hended ↦ absurd hunended hended⟩, fun _ _ ↦ hkept⟩

/-! ### The requests -/

theorem survival_answer (answer : Answer) (h : Spares old w s) :
    Safe (survival d old) w ((survival d old).ends w) (return answer) s :=
  Safe.ret fun hended ↦ absurd hended h

theorem survival_replaceSession {new : Token} (h : Spares old w s) (hdrawn : Drawn old w new s)
    (hsub : new.sub = old.sub) :
    Safe (survival d old) w ((survival d old).ends w) (replaceSession old new) s := by
  refine Safe.andThen (survival_revokeSession_old h hdrawn) fun existed t hexisted ↦ ?_
  cases existed with
  | true =>
    refine Safe.andThen (survival_aside rfl) fun now u hbeside ↦ ?_
    refine Safe.andThen (survival_setCookie ((hexisted.1 rfl).beside hbeside) hsub)
      fun _ x hhanded ↦ ?_
    exact Safe.ret fun _ ↦ hhanded
  | false =>
    obtain ⟨hspares, hdrawn⟩ := hexisted.2 rfl
    exact Safe.andThen (survival_revokeSession_new hspares hdrawn) fun _ u hspares ↦
      survival_answer _ hspares

/-- A route that runs for the account of the session. -/
theorem survival_signedIn {route : AdminUser → Handler Answer} (h : Spares old w s)
    (hroute : ∀ user t, user.id = old.sub → Beside old w s t →
      Safe (survival d old) w ((survival d old).ends w) (route user) t) :
    Safe (survival d old) w ((survival d old).ends w) (signedIn d (some old) route) s := by
  have hfound : Safe (survival d old) w
      (Returns fun found t ↦ Beside old w s t ∧ ∀ user, found = some user → user.id = old.sub)
      (getSignedInAdmin d (some old)) s := by
    refine Safe.andThen (survival_aside rfl) fun active t ht ↦ ?_
    by_cases hactive : active = false
    · rw [if_pos hactive]
      exact Safe.ret ⟨ht, fun user hnone ↦ absurd hnone (Option.some_ne_none user).symm⟩
    rw [if_neg hactive]
    refine Safe.andThen (survival_aside rfl) fun now u hu ↦ ?_
    have htu := ht.trans hu
    by_cases hcurrent : old.isCurrent d now = false
    · rw [if_pos hcurrent]
      exact Safe.ret ⟨htu, fun user hnone ↦ absurd hnone (Option.some_ne_none user).symm⟩
    rw [if_neg hcurrent]
    refine Safe.andThen (survival_getUserById old.sub) fun found x hx ↦ ?_
    obtain ⟨hux, hid⟩ := hx
    cases found with
    | none => exact Safe.ret ⟨htu.trans hux, fun user huser ↦ nomatch huser⟩
    | some user =>
      refine Safe.ret ⟨htu.trans hux, fun other hother ↦ ?_⟩
      have hsame : user = other := by
        split_ifs at hother
        exact Option.some.inj hother
      exact hid other (congrArg some hsame)
  refine Safe.andThen hfound fun found t ht ↦ ?_
  cases found with
  | none => exact survival_answer _ (h.beside ht.1)
  | some user => exact hroute user t (ht.2 user rfl) ht.1

theorem survival_sessionRefresh (h : Spares old w s)
    (hreceived : s.sessions.received w = some (.sessionRefresh (some old))) :
    Safe (survival d old) w ((survival d old).ends w) (sessionRefresh d (some old)) s := by
  refine survival_signedIn h fun user t hid ht ↦ ?_
  have hspares := h.beside ht
  by_cases hstarted : old.sessionStartedAt = 0
  · rw [if_pos hstarted]
    exact survival_answer _ hspares
  rw [if_neg hstarted]
  refine Safe.andThen (survival_createAccessToken hspares (ht.received.trans hreceived))
    fun new u hnew ↦ ?_
  obtain ⟨hspares, hdrawn, hsub⟩ := hnew
  refine Safe.andThen (survival_setSession hspares hdrawn) fun _ x hx ↦ ?_
  exact survival_replaceSession hx.1 hx.2 (hsub.trans hid)

theorem survival_changePassword {user : AdminUser} {newPassword : String} (h : Spares old w s) :
    Safe (survival d old) w ((survival d old).ends w)
      (changePassword (some old) user newPassword) s := by
  refine Safe.andThen (survival_aside rfl) fun hash t ht ↦ ?_
  refine Safe.andThen (survival_commit rfl rfl (h.beside ht)) fun _ u hspares ↦ ?_
  refine Safe.andThen (survival_aside rfl) fun _ x hx ↦ ?_
  exact Safe.andThen (survival_sweep (hspares.beside hx)) fun _ y hspares ↦
    survival_answer _ hspares

theorem survival_accountPassword {current new confirm code : String} (h : Spares old w s) :
    Safe (survival d old) w ((survival d old).ends w)
      (accountPassword d (some old) current new confirm code) s := by
  refine survival_signedIn h fun user t _ ht ↦ ?_
  have hspares := h.beside ht
  cases user.passwordHash with
  | none => exact survival_answer _ hspares
  | some hash =>
    dsimp only
    by_cases hdemo : demoAccount d user = true
    · rw [if_pos hdemo]
      exact survival_answer _ hspares
    rw [if_neg hdemo]
    cases newPasswordError current new confirm with
    | some error => exact survival_answer _ hspares
    | none =>
      refine Safe.andThen (survival_aside rfl) fun claimed u hu ↦ ?_
      have hspares := hspares.beside hu
      by_cases hclaimed : claimed = false
      · rw [if_pos hclaimed]
        exact survival_answer _ hspares
      rw [if_neg hclaimed]
      by_cases hverified : verifyPassword d current hash = false
      · rw [if_pos hverified]
        exact survival_answer _ hspares
      rw [if_neg hverified]
      refine Safe.andThen (survival_consumeTotp user.id user.totpSecret code) fun valid x hx ↦ ?_
      have hspares := hspares.beside hx
      cases valid with
      | true => exact survival_changePassword hspares
      | false => exact survival_answer _ hspares
where
  survival_consumeTotp {s : Server} (user : UserId) (secret code : String) :
      Safe (survival d old) w (Returns fun _ t ↦ Beside old w s t)
        (consumeTotp d user secret code) s := by
    refine Safe.andThen (survival_aside rfl) fun now t ht ↦ ?_
    by_cases hvalid : verifyTotp d secret code now = true
    · rw [if_pos hvalid]
      have hset : Safe (survival d old) w (Returns fun _ u ↦ Beside old w t u)
          (call (.setTotpUsed user code)) t := survival_aside rfl
      refine Safe.imp (fun result u hresult ↦ ?_) hset
      cases result with
      | ok value => exact ht.trans hresult
      | error fault => trivial
    · rw [if_neg hvalid]
      exact Safe.ret ht

theorem survival_handles (d : Deployment) (old : Token) :
    (survival d old).Handles (handler d) := by
  intro w request s hwith _ hidle
  refine Safe.andThen (survival_receive hidle) fun _ t ht ↦ ?_
  cases request with
  | sessionRefresh cookie =>
    cases hwith
    exact survival_sessionRefresh ht.1 ht.2
  | accountPassword cookie current new confirm code =>
    cases hwith
    exact survival_accountPassword ht.1
  | _ => exact hwith.elim

/-! ### The runs -/

theorem survival_start {start : Start} (hold : old ∈ start.signedIn)
    (haccount : Open old.sub start.system.shared) : (survival d old).Holds start.system := by
  refine Contract.holds_of_idle ⟨haccount, hold, rfl, fun _ h ↦ h, fun hended ↦ absurd rfl hended,
    fun _ ↦ .inl ?_, fun _ _ hparent ↦ nomatch hparent⟩ (fun _ hended ↦ nomatch hended) fun _ ↦ rfl
  show (if old ∈ start.signedIn then some old.sub else none) ≠ none
  rw [if_pos hold]
  exact Option.some_ne_none _

/-- A current session that lasts is accepted. -/
theorem accepts_of_lasts {token : Token} (haccount : Open token.sub s) (hlasts : s.Lasts token)
    (hcurrent : token.isCurrent d (s.now + 1) = true) :
    ∃ user, s.accepts d token = some user ∧ user.id = token.sub := by
  obtain ⟨user, huser, hopen⟩ := haccount
  obtain ⟨hexp, hage⟩ := Bool.and_eq_true_iff.mp hcurrent
  have hlater := of_decide_eq_true hexp
  have hyoung := of_decide_eq_true hage
  have hlive : s.sessions.user token ≠ none := hlasts.resolve_right (by omega)
  have hnow : token.isCurrent d s.now = true :=
    Bool.and_eq_true_iff.mpr ⟨decide_eq_true (by omega), decide_eq_true (by omega)⟩
  refine ⟨user, ?_, by simpa using List.find?_some huser⟩
  rw [Server.accepts, if_neg, huser]
  · exact Option.filter_eq_some_iff.mpr ⟨rfl, hopen⟩
  · rw [hnow]
    simp [hlive]

/-- In every interleaving of refreshes of a session and of password changes made with it, in which no
sweep comes after the session's replacement and no refresh deletes it once its own successor is gone:
when all requests are answered, the browser's session, the old one or the successor it was handed
last, is accepted, as long as it is current. -/
theorem session_that_changed_the_password_survives {start : Start} {events : List Step}
    {last : Requests} (hold : old ∈ start.signedIn) (haccount : Open old.sub start.system.shared)
    (hwith : ∀ w request, Event.start w request ∈ events → request.With old)
    (hspared : Meets (semantics d) (handler d) (Spared old) start.system events)
    (hrun : run (semantics d) (handler d) start.system events = some last)
    (hanswered : ∀ w request, Event.start w request ∈ events →
      ∃ answer, last.answer w = some answer)
    (hcurrent : (last.shared.held old).isCurrent d (last.shared.now + 1) = true) :
    (last.shared.held old = old ∨
      last.shared.sessions.parent (last.shared.held old) = some old) ∧
    ∃ user, last.shared.accepts d (last.shared.held old) = some user ∧ user.id = old.sub := by
  have hstarts : ∀ event ∈ events, ∀ w request, event = Event.start w request →
      request.With old := by
    rintro event hmem w request rfl
    exact hwith w request hmem
  have hpermits : Meets (semantics d) (handler d) (survival d old).Permits start.system events := by
    refine meets_imp (fun s event hevent ↦ Contract.permits_of_starting (fun _ _ _ ↦ trivial)
      (fun change hchange ↦ ?_) hevent.2 ?_) (meets_and_of_forall hstarts hspared)
    · subst hchange
      exact hevent.1
    · cases event with
      | environment change => exact fun _ _ hacting ↦ nomatch hacting
      | _ => exact hevent.1
  have hholds := Contract.run_safe (survival_handles d old) (survival_start hold haccount) hpermits
    hrun
  have hsound : Survives old last.shared := hholds.invariant
  cases hfind : last.shared.sessions.handed.find?
      fun token ↦ last.shared.sessions.parent token = some old with
  | some token =>
    have hheld : last.shared.held old = token := by rw [Server.held, hfind]; rfl
    have hparent : last.shared.sessions.parent token = some old := by
      simpa using List.find?_some hfind
    obtain ⟨hsub, -, hlasts⟩ := hsound.successor token (List.mem_of_find?_eq_some hfind) hparent
    rw [hheld] at hcurrent ⊢
    rw [← hsub]
    exact ⟨.inr hparent, accepts_of_lasts (hsub ▸ hsound.account) hlasts hcurrent⟩
  | none =>
    have hheld : last.shared.held old = old := by rw [Server.held, hfind]; rfl
    rw [hheld] at hcurrent ⊢
    refine ⟨.inl rfl, accepts_of_lasts hsound.account (hsound.there ?_) hcurrent⟩
    -- a refresh that has deleted the session has handed its successor out
    by_contra hended
    obtain ⟨w, hw⟩ := Option.ne_none_iff_exists'.mp hended
    rcases started_of_worker hrun (fun hworker ↦ hholds.idle w hworker hw) with hnone |
      ⟨request, hstart⟩
    · exact hnone rfl
    · obtain ⟨answer, hanswer⟩ := hanswered w request hstart
      obtain ⟨token, hhanded, -, hparent⟩ := hholds.ends_of_answer hanswer hw
      exact absurd (decide_eq_true hparent) (List.find?_eq_none.mp hfind token hhanded)

/-! ### A refresh and a password change -/

/-- Anna changes her password after `operations` steps of a refresh that goes on afterwards. -/
def passwordChangeWithin (operations : ℕ) : List Step :=
  .start 1 (.sessionRefresh (some (session anna 1))) :: continues 1 operations 7 ++
    .start 2 (.accountPassword (some (session anna 1)) "annas password" "another password"
      "another password" "111111") :: continues 2 11 ++ continues 1 (9 - operations) 7

/-- The sweep comes before the successor is stored. -/
def afterEarlySweep : Requests := afterwards morning.system (passwordChangeWithin 4)

/-- The sweep comes between the store and the DEL. -/
def afterLateSweep : Requests := afterwards morning.system (passwordChangeWithin 6)

theorem session_that_changed_the_password_survives_an_early_sweep :
    afterEarlySweep.shared.held (session anna 1) = session anna 7 ∧
      ∃ user, afterEarlySweep.shared.accepts literal (session anna 7) = some user ∧ user.id = 1 := by
  have hrun : run (semantics literal) (handler literal) morning.system (passwordChangeWithin 4) =
    some afterEarlySweep := run_afterwards (by decide +kernel)
  have hstarts : ∀ w request, Event.start w request ∈ passwordChangeWithin 4 →
      (w = 1 ∨ w = 2) ∧ request.With (session anna 1) := by
    intro w request hstart
    simp only [passwordChangeWithin, continues, List.mem_append, List.mem_cons, List.mem_replicate,
      Event.start.injEq, reduceCtorEq, and_false, or_false] at hstart
    rcases hstart with ⟨rfl, rfl⟩ | ⟨rfl, rfl⟩
    · exact ⟨.inl rfl, rfl⟩
    · exact ⟨.inr rfl, rfl⟩
  have hanswered : ∀ w request, Event.start w request ∈ passwordChangeWithin 4 →
      ∃ answer, afterEarlySweep.answer w = some answer := by
    intro w request hstart
    rw [← Option.isSome_iff_exists]
    rcases (hstarts w request hstart).1 with rfl | rfl
    · decide +kernel
    · decide +kernel
  have hheld : afterEarlySweep.shared.held (session anna 1) = session anna 7 := by decide +kernel
  have haccepted := (session_that_changed_the_password_survives (by decide +kernel)
    ⟨anna, by decide, by decide⟩ (fun w request hstart ↦ (hstarts w request hstart).2)
    (by decide +kernel) hrun hanswered (by decide +kernel)).2
  rw [hheld] at haccepted
  exact ⟨hheld, haccepted⟩

/-- The password was changed, the refresh was answered, and the browser is signed out. -/
theorem session_that_changed_the_password_dies_of_a_late_sweep :
    run (semantics literal) (handler literal) morning.system (passwordChangeWithin 6) =
      some afterLateSweep ∧
    afterLateSweep.answer 2 = some (.redirect "/admin/account?password=changed" 303) ∧
    afterLateSweep.answer 1 = some (.ttl 3600 3601) ∧
    afterLateSweep.shared.held (session anna 1) = session anna 7 ∧
    (session anna 7).isCurrent literal (afterLateSweep.shared.now + 1) = true ∧
    afterLateSweep.shared.accepts literal (session anna 7) = none ∧
    afterLateSweep.shared.accepts literal (session anna 1) = none :=
  -- one evaluation of the run for all that is said of its end
  ⟨run_afterwards (by decide +kernel), by decide +kernel⟩

end OpenWhistle.Accounts
