import OpenWhistle.Accounts.Sweep

/-!
# Somebody can always administer

A role change or a deactivation reads the accounts, checks its rules on what it has read, and commits
later. One rule counts the active admins; what keeps the last of them is a simpler one: nobody demotes
or deactivates the own account, so whoever asks is one that stays. That holds as long as the account
that asked is still what it was when the request was let in. Two admins who deactivate each other at
the same time both pass every check, and nobody is left.

Where every commit that takes an administering role away comes from an account that still has one
itself, there is always an active account with such a role; and the same holds of superadmins.
-/

set_option autoImplicit false
set_option relaxedAutoImplicit false

namespace OpenWhistle.Accounts

open Interleaving

/-- An active account that can administer the instance. -/
def AdminUser.administers (user : AdminUser) : Bool :=
  (decide (user.role = .admin) || decide (user.role = .superadmin)) && user.isActive

/-- An active superadmin. -/
def AdminUser.governs (user : AdminUser) : Bool := decide (user.role = .superadmin) && user.isActive

/-- The account that a request comes from. -/
def Server.requester (s : Server) (w : ℕ) : Option UserId :=
  ((s.sessions.received w).bind Request.cookie).map Token.sub

/-- What a commit takes away from the row it writes, the account that asked for it still has. -/
def StillHas (has : AdminUser → Bool) (w : ℕ) (loaded changed : AdminUser) (s : Server) : Prop :=
  ∀ row ∈ s.users, row.id = loaded.id → has row = true →
    has (AdminUser.flush loaded changed row) = false →
      ∃ own ∈ s.users, s.requester w = some own.id ∧ has own = true

instance (has : AdminUser → Bool) (w : ℕ) (loaded changed : AdminUser) (s : Server) :
    Decidable (StillHas has w loaded changed s) :=
  inferInstanceAs (Decidable (∀ _ ∈ _, _ → _ → _ → ∃ _ ∈ _, _ ∧ _))

/-- The condition on a commit. -/
def StillEntitled (w : ℕ) : Op → Server → Prop
  | .commit loaded changed _, s => StillHas AdminUser.administers w loaded changed s ∧
      StillHas AdminUser.governs w loaded changed s
  | _, _ => True

instance (w : ℕ) (operation : Op) (s : Server) : Decidable (StillEntitled w operation s) :=
  match operation with
  | .commit _ _ _ => inferInstanceAs (Decidable (_ ∧ _))
  | .receive _ | .claimAdminAttempt _ | .limiter _ | .clock | .authenticateLdap _ _
  | .getUserByLdapUsername _ | .usernameTaken _ | .provisionLdapUser _ | .getUserByUsername _
  | .getUserById _ | .countActivePrivilegedAdmins | .tokenUrlsafe | .randomBase32
  | .temporaryPassword | .hashPassword _ | .createAccessToken _ _ | .setSession _ _
  | .existsSession _ | .deleteSession _ | .sweep _ _ | .setTotpPending _ _ | .getdelTotpPending _
  | .setTotpSetup _ _ | .getdelTotpSetup _ | .setTotpUsed _ _ | .setCookie _ => isTrue trivial

/-- The requests that change who administers. -/
def Request.ChangesAdmins : Request → Prop
  | .changeRole _ _ _ => True
  | .deactivate _ _ => True
  | .reactivate _ _ => True
  | _ => False

/-! ### What a commit leaves -/

variable {d : Deployment} {has : AdminUser → Bool} {s t u : Server} {v w : ℕ}

/-- An account is there that has something. -/
def Server.Has (s : Server) (has : AdminUser → Bool) : Prop := ∃ user ∈ s.users, has user = true

theorem mem_commit (s : Server) (loaded changed : AdminUser) (action : AuditAction)
    {user : AdminUser} (h : user ∈ s.users) :
    (if user.id = loaded.id then AdminUser.flush loaded changed user else user) ∈
      (s.commit loaded changed action).users :=
  List.mem_map.mpr ⟨user, h, rfl⟩

/-- Whoever asks for a change to somebody else's row keeps its own. -/
theorem Server.Has.commit_other {loaded changed : AdminUser} (action : AuditAction) (h : s.Has has)
    (hstill : StillHas has w loaded changed s) (hother : s.requester w ≠ some loaded.id) :
    (s.commit loaded changed action).Has has := by
  obtain ⟨user, hmem, huser⟩ := h
  have hafter := mem_commit s loaded changed action hmem
  by_cases hid : user.id = loaded.id
  · rw [if_pos hid] at hafter
    by_cases hkept : has (AdminUser.flush loaded changed user) = true
    · exact ⟨_, hafter, hkept⟩
    · obtain ⟨own, hown, hrequester, hhas⟩ :=
        hstill user hmem hid huser (Bool.eq_false_iff.mpr hkept)
      have hne : own.id ≠ loaded.id := by
        intro heq
        rw [← heq] at hother
        exact hother hrequester
      have hstays := mem_commit s loaded changed action hown
      rw [if_neg hne] at hstays
      exact ⟨own, hstays, hhas⟩
  · rw [if_neg hid] at hafter
    exact ⟨user, hafter, huser⟩

/-- A commit that takes nothing away. -/
theorem Server.Has.commit_raising {loaded changed : AdminUser} (action : AuditAction) (h : s.Has has)
    (hraises : ∀ user, has user = true → has (AdminUser.flush loaded changed user) = true) :
    (s.commit loaded changed action).Has has := by
  obtain ⟨user, hmem, huser⟩ := h
  refine ⟨_, mem_commit s loaded changed action hmem, ?_⟩
  split
  · exact hraises user huser
  · exact huser

/-- A reactivation takes no role away. -/
theorem flush_reactivated (target user : AdminUser) :
    (AdminUser.flush target { target with isActive := true } user).role = user.role ∧
      (user.isActive = true →
        (AdminUser.flush target { target with isActive := true } user).isActive = true) := by
  refine ⟨if_pos rfl, fun hactive ↦ ?_⟩
  show (if true = target.isActive then user.isActive else true) = true
  split
  · exact hactive
  · rfl

/-! ### The contract -/

def administration (d : Deployment) : Contract (semantics d) Request Answer where
  invariant s := s.Has AdminUser.administers
  rely w s t := t.sessions.received w = s.sessions.received w ∧
    (s.Has AdminUser.governs → t.Has AdminUser.governs)
  rely_refl _ _ := ⟨rfl, fun h ↦ h⟩
  rely_trans _ _ _ _ hst htu := ⟨htu.1.trans hst.1, fun h ↦ htu.2 (hst.2 h)⟩
  idle _ _ := True
  idle_stable _ _ _ _ _ _ := trivial
  ends _ _ _ := True
  ends_stable _ _ _ _ _ _ _ := trivial
  admits := Request.ChangesAdmins
  allows := StillEntitled
  trusts _ _ _ := True
  tolerates _ _ := True
  environment_safe := by
    intro change s t h _ hchange
    cases change with
    | _ =>
      cases hchange
      exact ⟨h, fun _ ↦ ⟨rfl, fun h ↦ h⟩⟩

/-- The request of a worker, and what is known of it while others move. -/
abbrev Serving (w : ℕ) (request : Request) (s : Server) : Prop :=
  s.sessions.received w = some request

/-- One operation. An exception promises nothing. -/
theorem admin_call {operation : Op} {request : Request}
    {promise : Reply operation → Server → Prop} (h : Serving w request s)
    (hperform : ∀ t, Serving w request t → t.Has AdminUser.administers →
      StillEntitled w operation t → ∀ draw reply u,
        perform d w operation draw t = some (reply, u) →
          u.Has AdminUser.administers ∧ u.sessions.received = t.sessions.received ∧
            (t.Has AdminUser.governs → u.Has AdminUser.governs) ∧
              ∀ value, reply = .ok value → promise value u) :
    Safe (administration d) w (Returns fun value t ↦ Serving w request t ∧ promise value t)
      (call operation) s := by
  refine Safe.call fun t hrely hinv ↦ ⟨fun _ ↦ trivial, fun hallows draw reply u hstep ↦ ?_⟩
  have hserving : Serving w request t := hrely.1.trans h
  obtain ⟨hinv', hreceived, hgoverns, hpromise⟩ :=
    hperform t hserving hinv hallows draw reply u hstep
  refine ⟨hinv', fun v _ ↦ ⟨congrFun hreceived v, hgoverns⟩, fun _ ↦ ?_, fun _ ↦ trivial⟩
  cases reply with
  | ok value => exact ⟨(congrFun hreceived w).trans hserving, hpromise value rfl⟩
  | error fault => trivial

/-- The operations that leave the accounts alone, and what the server has received. -/
def Op.leavesAccounts : Op → Bool
  | .clock | .existsSession _ | .countActivePrivilegedAdmins | .sweep _ _ => true
  | _ => false

theorem admin_aside {operation : Op} {request : Request} (hleaves : operation.leavesAccounts = true)
    (h : Serving w request s) :
    Safe (administration d) w (Returns fun _ t ↦ Serving w request t) (call operation) s := by
  have hsafe : Safe (administration d) w
      (Returns fun _ t ↦ Serving w request t ∧ True) (call operation) s := by
    refine admin_call h fun t _ hinv _ draw reply u hperform ↦ ?_
    have hsame : u.users = t.users ∧ u.sessions.received = t.sessions.received := by
      cases operation with
      | clock => cases hperform; exact ⟨rfl, rfl⟩
      | existsSession token => cases hperform; exact ⟨rfl, rfl⟩
      | countActivePrivilegedAdmins => cases hperform; exact ⟨rfl, rfl⟩
      | sweep user keep => cases hperform; exact ⟨rfl, rfl⟩
      | _ => cases hleaves
    obtain ⟨husers, hreceived⟩ := hsame
    refine ⟨?_, hreceived, fun hgoverns ↦ ?_, fun _ _ ↦ trivial⟩
    · unfold Server.Has
      rw [husers]
      exact hinv
    · unfold Server.Has
      rw [husers]
      exact hgoverns
  refine Safe.imp (fun result t hresult ↦ ?_) hsafe
  cases result with
  | ok value => exact hresult.1
  | error fault => trivial

theorem admin_getUserById {request : Request} (id : UserId) (h : Serving w request s) :
    Safe (administration d) w
      (Returns fun found t ↦ Serving w request t ∧ ∀ user, found = some user → user.id = id)
      (call (.getUserById id)) s := by
  refine admin_call h fun t _ hinv _ draw reply u hperform ↦ ?_
  cases hperform
  refine ⟨hinv, rfl, fun hgoverns ↦ hgoverns, fun found hfound user huser ↦ ?_⟩
  cases hfound
  simpa using List.find?_some huser

/-- The commit of a role change or a deactivation, asked for by somebody else. -/
theorem admin_commit {request : Request} {token : Token} {loaded changed : AdminUser}
    {action : AuditAction} (hcookie : request.cookie = some token) (hother : loaded.id ≠ token.sub)
    (h : Serving w request s) :
    Safe (administration d) w (Returns fun _ t ↦ Serving w request t ∧ True)
      (call (.commit loaded changed action)) s := by
  refine admin_call h fun t hserving hinv hstill draw reply u hperform ↦ ?_
  cases hperform
  have hrequester : t.requester w ≠ some loaded.id := by
    rw [Server.requester, hserving]
    show request.cookie.map Token.sub ≠ some loaded.id
    rw [hcookie]
    exact fun heq ↦ hother (Option.some.inj heq).symm
  exact ⟨hinv.commit_other action hstill.1 hrequester, rfl,
    fun hgoverns ↦ hgoverns.commit_other action hstill.2 hrequester, fun _ _ ↦ trivial⟩

theorem admin_commitReactivated {request : Request} {target : AdminUser} (h : Serving w request s) :
    Safe (administration d) w (Returns fun _ t ↦ Serving w request t ∧ True)
      (call (.commit target { target with isActive := true } .adminReactivated)) s := by
  refine admin_call h fun t _ hinv _ draw reply u hperform ↦ ?_
  cases hperform
  refine ⟨hinv.commit_raising _ fun user huser ↦ ?_, rfl,
    fun hgoverns ↦ hgoverns.commit_raising _ fun user huser ↦ ?_, fun _ _ ↦ trivial⟩
  all_goals
    obtain ⟨hrole, hactive⟩ := flush_reactivated target user
    obtain ⟨hhas, hbefore⟩ := Bool.and_eq_true_iff.mp huser
    refine Bool.and_eq_true_iff.mpr ⟨?_, hactive hbefore⟩
    rw [hrole]
    exact hhas

/-! ### The requests -/

/-- A request may be answered at any time. -/
abbrev Answered : Except Fault Answer → Server → Prop := Returns fun _ _ ↦ True

/-- A route runs for the account of the request's cookie. -/
theorem admin_requireRole {request : Request} {roles : List AdminRole}
    {route : AdminUser → Handler Answer} (h : Serving w request s)
    (hroute : ∀ token caller t, request.cookie = some token → caller.id = token.sub →
      Serving w request t → Safe (administration d) w Answered (route caller) t) :
    Safe (administration d) w Answered (requireRole d request.cookie roles route) s := by
  unfold requireRole signedIn
  cases hcookie : request.cookie with
  | none => exact Safe.ret trivial
  | some token =>
    have hfound : Safe (administration d) w
        (Returns fun found t ↦ Serving w request t ∧ ∀ user, found = some user →
          user.id = token.sub) (getSignedInAdmin d (some token)) s := by
      refine Safe.andThen (admin_aside rfl h) fun active t ht ↦ ?_
      by_cases hactive : active = false
      · rw [if_pos hactive]
        exact Safe.ret ⟨ht, fun user hnone ↦ absurd hnone (Option.some_ne_none user).symm⟩
      rw [if_neg hactive]
      refine Safe.andThen (admin_aside rfl ht) fun now u hu ↦ ?_
      by_cases hcurrent : token.isCurrent d now = false
      · rw [if_pos hcurrent]
        exact Safe.ret ⟨hu, fun user hnone ↦ absurd hnone (Option.some_ne_none user).symm⟩
      rw [if_neg hcurrent]
      refine Safe.andThen (admin_getUserById token.sub hu) fun found x hx ↦ ?_
      obtain ⟨hserving, hid⟩ := hx
      cases found with
      | none => exact Safe.ret ⟨hserving, fun user huser ↦ nomatch huser⟩
      | some user =>
        refine Safe.ret ⟨hserving, fun other hother ↦ ?_⟩
        have hsame : user = other := by
          split_ifs at hother
          exact Option.some.inj hother
        exact hid other (congrArg some hsame)
    refine Safe.andThen hfound fun found t ht ↦ ?_
    cases found with
    | none => exact Safe.ret trivial
    | some user =>
      dsimp only
      split_ifs
      · exact Safe.ret trivial
      · exact hroute token user t hcookie (ht.2 user rfl) ht.1
      · exact Safe.ret trivial

section Routes

variable {request : Request} {token : Token} {caller target : AdminUser}

theorem admin_endAccount (hcookie : request.cookie = some token) (hcaller : caller.id = token.sub)
    (hother : target.id ≠ caller.id) (h : Serving w request s) :
    Safe (administration d) w Answered (endAccount target) s := by
  rw [hcaller] at hother
  refine Safe.andThen (admin_commit hcookie hother h) fun _ t ht ↦ ?_
  exact Safe.andThen (admin_aside rfl ht.1) fun _ u _ ↦ Safe.ret trivial

theorem admin_assignRole {role : AdminRole} (hcookie : request.cookie = some token)
    (hcaller : caller.id = token.sub) (hother : target.id ≠ caller.id) (h : Serving w request s) :
    Safe (administration d) w Answered (assignRole target role) s := by
  rw [hcaller] at hother
  exact Safe.andThen (admin_commit hcookie hother h) fun _ t _ ↦ Safe.ret trivial

theorem admin_deactivateUser {cookie : Option Token} {userId : UserId}
    (h : Serving w (.deactivate cookie userId) s) :
    Safe (administration d) w Answered (deactivateUser d cookie userId) s := by
  refine admin_requireRole h fun token caller t hcookie hcaller ht ↦ ?_
  refine Safe.andThen (admin_getUserById userId ht) fun found u hu ↦ ?_
  cases found with
  | none => exact Safe.ret trivial
  | some target =>
    dsimp only
    by_cases hown : target.id = caller.id
    · rw [if_pos hown]
      exact Safe.ret trivial
    rw [if_neg hown]
    cases mayNotManage d caller target with
    | some status => exact Safe.ret trivial
    | none =>
      dsimp only
      split_ifs
      · refine Safe.andThen (admin_aside rfl hu.1) fun count x hx ↦ ?_
        split_ifs
        · exact Safe.ret trivial
        · exact admin_endAccount hcookie hcaller hown hx
      · exact admin_endAccount hcookie hcaller hown hu.1

theorem admin_reactivateUser {cookie : Option Token} {userId : UserId}
    (h : Serving w (.reactivate cookie userId) s) :
    Safe (administration d) w Answered (reactivateUser d cookie userId) s := by
  refine admin_requireRole h fun token caller t hcookie hcaller ht ↦ ?_
  refine Safe.andThen (admin_getUserById userId ht) fun found u hu ↦ ?_
  cases found with
  | none => exact Safe.ret trivial
  | some target =>
    dsimp only
    cases mayNotManage d caller target with
    | some status => exact Safe.ret trivial
    | none => exact Safe.andThen (admin_commitReactivated hu.1) fun _ x _ ↦ Safe.ret trivial

theorem admin_changeUserRole {cookie : Option Token} {userId : UserId} {role : String}
    (h : Serving w (.changeRole cookie userId role) s) :
    Safe (administration d) w Answered (changeUserRole d cookie userId role) s := by
  refine admin_requireRole h fun token caller t hcookie hcaller ht ↦ ?_
  refine Safe.andThen (admin_getUserById userId ht) fun found u hu ↦ ?_
  cases found with
  | none => exact Safe.ret trivial
  | some target =>
    dsimp only
    cases mayNotManage d caller target with
    | some status => exact Safe.ret trivial
    | none =>
      dsimp only
      cases adminRole role with
      | none => exact Safe.ret trivial
      | some role =>
        dsimp only
        by_cases hown : target.id = caller.id
        · rw [if_pos hown]
          exact Safe.ret trivial
        rw [if_neg hown]
        split_ifs
        · exact Safe.ret trivial
        · refine Safe.andThen (admin_aside rfl hu.1) fun count x hx ↦ ?_
          split_ifs
          · exact Safe.ret trivial
          · exact admin_assignRole hcookie hcaller hown hx
        · exact admin_assignRole hcookie hcaller hown hu.1

end Routes

theorem admin_receive (request : Request) :
    Safe (administration d) w (Returns fun _ t ↦ Serving w request t)
      (call (.receive request)) s := by
  refine Safe.call fun t hrely hinv ↦ ⟨fun _ ↦ trivial, fun _ draw reply u hperform ↦ ?_⟩
  obtain ⟨sessions, hreceive, hresult⟩ := Option.map_eq_some_iff.mp hperform
  cases hresult
  obtain ⟨-, rfl⟩ := Sessions.receive_cases hreceive
  exact ⟨hinv, fun v hv ↦ ⟨Function.update_of_ne hv .., fun h ↦ h⟩,
    fun _ ↦ Function.update_self .., fun _ ↦ trivial⟩

theorem admin_handles (d : Deployment) : (administration d).Handles (handler d) := by
  intro w request s hchanges _ _
  have hanswers : Safe (administration d) w Answered (handler d request) s := by
    refine Safe.andThen (admin_receive request) fun _ t ht ↦ ?_
    cases request with
    | changeRole cookie target role => exact admin_changeUserRole ht
    | deactivate cookie target => exact admin_deactivateUser ht
    | reactivate cookie target => exact admin_reactivateUser ht
    | _ => exact hchanges.elim
  exact Safe.imp (fun _ _ _ ↦ trivial) hanswers

/-! ### The runs -/

/-- In every interleaving of role changes, deactivations and reactivations in which every commit that
takes an administering role away is asked for by an account that still has one: there is always an
active account that can administer, and, from any moment on at which there is an active superadmin,
there always is one. -/
theorem somebody_can_always_administer {start : Start} {before after : List Step}
    {middle last : Requests} (hadmin : start.system.shared.Has AdminUser.administers)
    (hchanges : ∀ w request, Event.start w request ∈ before ++ after → request.ChangesAdmins)
    (hentitled : Meets (semantics d) (handler d) (fun s event ↦ s.Acts StillEntitled event)
      start.system (before ++ after))
    (hbefore : run (semantics d) (handler d) start.system before = some middle)
    (hafter : run (semantics d) (handler d) middle after = some last) :
    last.shared.Has AdminUser.administers ∧
      (middle.shared.Has AdminUser.governs → last.shared.Has AdminUser.governs) := by
  have hpermits : Meets (semantics d) (handler d) (administration d).Permits start.system
      (before ++ after) :=
    Contract.meets_permits (fun _ _ _ ↦ trivial) (fun _ _ ↦ trivial) hchanges hentitled
  obtain ⟨hfirst, hsecond⟩ := meets_append.mp hpermits
  have hstart : (administration d).Holds start.system :=
    Contract.holds_of_idle hadmin (fun _ ↦ trivial) fun _ ↦ rfl
  have hmiddle := Contract.run_safe (admin_handles d) hstart hfirst hbefore
  have hlast := Contract.run_safe (admin_handles d) hmiddle (hsecond middle hbefore) hafter
  obtain ⟨v, hv⟩ := exists_bystander after
  have hrely := Contract.run_rely (admin_handles d) hmiddle (hsecond middle hbefore) hafter hv
  exact ⟨hlast.invariant, hrely.2⟩

/-! ### Two superadmins -/

def carla : AdminUser := { berta with id := 3, username := "carla" }

/-- Both are signed in, and nobody else can administer. -/
def superadmins : Start where
  users := [anna, berta, carla]
  signedIn := [session berta 2, session carla 3]
  now := 1

/-- Berta makes Carla a case manager. -/
def demotion : List Step :=
  .start 1 (.changeRole (some (session berta 2)) 3 "case_manager") :: continues 1 7

/-- Carla tries to deactivate Berta's account afterwards. -/
def lateDeactivation : List Step :=
  .start 2 (.deactivate (some (session carla 3)) 2) :: continues 2 4

def afterDemotion : Requests := afterwards superadmins.system demotion

def afterLateDeactivation : Requests := afterwards afterDemotion lateDeactivation

theorem somebody_can_always_administer_after_a_demotion :
    afterLateDeactivation.answer 2 = some (.refused 403) ∧
    afterLateDeactivation.shared.Has AdminUser.administers ∧
    afterLateDeactivation.shared.Has AdminUser.governs := by
  have hbefore : run (semantics literal) (handler literal) superadmins.system demotion =
    some afterDemotion := run_afterwards (by decide +kernel)
  have hafter : run (semantics literal) (handler literal) afterDemotion lateDeactivation =
    some afterLateDeactivation := run_afterwards (by decide +kernel)
  have hchanges : ∀ w request, Event.start w request ∈ demotion ++ lateDeactivation →
      request.ChangesAdmins := by
    intro w request hstart
    simp only [demotion, lateDeactivation, continues, List.mem_append, List.mem_cons,
      List.mem_replicate, Event.start.injEq, reduceCtorEq, and_false, or_false] at hstart
    rcases hstart with ⟨-, rfl⟩ | ⟨-, rfl⟩
    · trivial
    · trivial
  obtain ⟨hadmin, hsuper⟩ := somebody_can_always_administer
    ⟨berta, by decide, by decide⟩ hchanges (by decide +kernel) hbefore hafter
  exact ⟨by decide +kernel, hadmin, hsuper ⟨berta, by decide +kernel, by decide⟩⟩

/-- The two deactivate each other: each has passed its checks when the other commits. -/
def mutualDeactivation : List Step :=
  .start 1 (.deactivate (some (session berta 2)) 3) :: continues 1 6 ++
    .start 2 (.deactivate (some (session carla 3)) 2) :: continues 2 6 ++
    continues 1 2 ++ continues 2 2

def afterMutualDeactivation : Requests := afterwards superadmins.system mutualDeactivation

/-- Both deactivations were carried out, and nobody can administer. -/
theorem two_superadmins_deactivate_each_other :
    run (semantics literal) (handler literal) superadmins.system mutualDeactivation =
      some afterMutualDeactivation ∧
    superadmins.system.shared.Has AdminUser.governs ∧
    afterMutualDeactivation.answer 1 = some (.redirect "/admin/users" 302) ∧
    afterMutualDeactivation.answer 2 = some (.redirect "/admin/users" 302) ∧
    activePrivilegedAdmins afterMutualDeactivation.shared.users = 0 ∧
    ¬afterMutualDeactivation.shared.Has AdminUser.administers ∧
    ¬afterMutualDeactivation.shared.Has AdminUser.governs := by
  refine ⟨run_afterwards (by decide +kernel), ⟨berta, by decide, by decide⟩, by decide +kernel,
    by decide +kernel, by decide +kernel, ?_, ?_⟩
  · unfold Server.Has
    decide +kernel
  · unfold Server.Has
    decide +kernel

end OpenWhistle.Accounts
