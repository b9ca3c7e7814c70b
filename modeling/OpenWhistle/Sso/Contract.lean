import OpenWhistle.Foundation.Contract
import OpenWhistle.Accounts.Contract
import OpenWhistle.Sso.Binding

/-!
# The contract between the single sign-on requests

What every operation does to the invariant, to the identity columns and to what the other requests
know. An operation of the account requests changes no identity column and no state of a flow, so
whole account programs run inside the contract as soon as their commits leave the columns alone.
-/

set_option autoImplicit false
set_option relaxedAutoImplicit false

namespace OpenWhistle.Sso

open Interleaving
open Accounts (AdminUser UserId Token Fault)

/-! ### The identity columns -/

/-- No account is linked to another identity than before. -/
def SameIdentities (s t : Accounts.Server) : Prop :=
  ∀ account, (t.userById account).bind AdminUser.oidcSub =
      (s.userById account).bind AdminUser.oidcSub ∧
    (t.userById account).bind AdminUser.oidcIssuer = (s.userById account).bind AdminUser.oidcIssuer

theorem written_self {α : Type} [DecidableEq α] (loaded committed : α) :
    Accounts.written loaded loaded committed = committed :=
  if_pos rfl

theorem id_flush (loaded changed committed : AdminUser) :
    (AdminUser.flush loaded changed committed).id = committed.id :=
  rfl

theorem id_of_userById {s : Accounts.Server} {account : UserId} {user : AdminUser}
    (h : s.userById account = some user) : user.id = account := by
  simpa using List.find?_some h

/-- A commit flushes the changes into the row of its account. -/
theorem userById_commit (s : Accounts.Server) (loaded changed : AdminUser)
    (action : Accounts.AuditAction) (account : UserId) :
    (s.commit loaded changed action).userById account = (s.userById account).map fun user ↦
      if user.id = loaded.id then AdminUser.flush loaded changed user else user := by
  show List.find? _ (List.map _ s.users) = _
  rw [List.find?_map]
  have hid : ((fun user : AdminUser ↦ decide (user.id = account)) ∘ fun user ↦
      if user.id = loaded.id then AdminUser.flush loaded changed user else user) =
      fun user ↦ decide (user.id = account) := by
    funext user
    by_cases huser : user.id = loaded.id
    · simp only [Function.comp_apply, if_pos huser, id_flush]
    · simp only [Function.comp_apply, if_neg huser]
  rw [hid]
  rfl

theorem sameIdentities_of_users {s t : Accounts.Server} (h : t.users = s.users) :
    SameIdentities s t := by
  intro account
  have hsame : t.userById account = s.userById account := congrArg (List.find? _) h
  rw [hsame]
  exact ⟨rfl, rfl⟩

/-- What a commit makes of a column: written where it is the account's and was changed. -/
theorem column_commit (s : Accounts.Server) (loaded changed : AdminUser)
    (action : Accounts.AuditAction) (account : UserId) {column : AdminUser → Option String}
    (hcolumn : ∀ user, column (AdminUser.flush loaded changed user) =
      Accounts.written (column loaded) (column changed) (column user)) :
    ((s.commit loaded changed action).userById account).bind column =
      if account = loaded.id then (s.userById account).bind fun user ↦
        Accounts.written (column loaded) (column changed) (column user)
      else (s.userById account).bind column := by
  rw [userById_commit]
  cases hfound : s.userById account with
  | none => simp only [Option.map_none, Option.bind_none, ite_self]
  | some user =>
    rw [Option.map_some, Option.bind_some, id_of_userById hfound]
    by_cases haccount : account = loaded.id
    · rw [if_pos haccount, if_pos haccount, hcolumn, Option.bind_some]
    · rw [if_neg haccount, if_neg haccount, Option.bind_some]

/-- A commit that leaves the columns as it loaded them leaves them as they are committed. -/
theorem sameIdentities_commit (s : Accounts.Server) {loaded changed : AdminUser}
    (action : Accounts.AuditAction) (hsub : changed.oidcSub = loaded.oidcSub)
    (hissuer : changed.oidcIssuer = loaded.oidcIssuer) :
    SameIdentities s (s.commit loaded changed action) := by
  intro account
  have hsubs := column_commit s loaded changed action account
    (fun user ↦ (rfl : (AdminUser.flush loaded changed user).oidcSub = _))
  have hissuers := column_commit s loaded changed action account
    (fun user ↦ (rfl : (AdminUser.flush loaded changed user).oidcIssuer = _))
  simp only [hsub, written_self, ite_self] at hsubs
  simp only [hissuer, written_self, ite_self] at hissuers
  exact ⟨hsubs, hissuers⟩

/-- A directory user that signs in for the first time is linked to nothing. -/
theorem sameIdentities_provision {s : Accounts.Server} {user : AdminUser}
    (hsub : user.oidcSub = none) (hissuer : user.oidcIssuer = none) {t : Accounts.Server}
    (ht : t.users = s.users ++ [user]) :
    SameIdentities s t := by
  intro account
  have hfind : t.userById account = (s.userById account).or
      (if user.id = account then some user else none) := by
    show t.users.find? _ = _
    rw [ht, List.find?_append]
    congr 1
    by_cases huser : user.id = account
    · rw [if_pos huser, List.find?_cons_of_pos (by simpa using huser)]
    · rw [if_neg huser, List.find?_cons_of_neg (by simpa using huser)]
      rfl
  rw [hfind]
  cases hold : s.userById account with
  | some other => exact ⟨rfl, rfl⟩
  | none =>
    by_cases huser : user.id = account
    · rw [if_pos huser]
      exact ⟨hsub, hissuer⟩
    · rw [if_neg huser]
      exact ⟨rfl, rfl⟩

/-- The account operations that change users are the commit and the provisioning. -/
theorem sameIdentities_of_perform {d : Accounts.Deployment} {w : ℕ} {operation : Accounts.Op}
    {draw : Accounts.Draw} {s t : Accounts.Server}
    {reply : Except Fault (Accounts.Reply operation)}
    (hcommit : ∀ loaded changed action, operation = .commit loaded changed action →
      changed.oidcSub = loaded.oidcSub ∧ changed.oidcIssuer = loaded.oidcIssuer)
    (h : Accounts.perform d w operation draw s = some (reply, t)) : SameIdentities s t := by
  cases operation with
  | receive request =>
    obtain ⟨sessions, -, hresult⟩ := Option.map_eq_some_iff.mp h
    cases hresult
    exact sameIdentities_of_users rfl
  | createAccessToken user authTime =>
    obtain ⟨sessions, -, hresult⟩ := Option.map_eq_some_iff.mp h
    cases hresult
    exact sameIdentities_of_users rfl
  | getUserByLdapUsername ldapUsername =>
    rcases Accounts.readFirst_cases h with ⟨-, rfl⟩ | ⟨user, -, rfl⟩ <;>
      exact sameIdentities_of_users rfl
  | getUserByUsername username =>
    rcases Accounts.readFirst_cases h with ⟨-, rfl⟩ | ⟨user, -, rfl⟩ <;>
      exact sameIdentities_of_users rfl
  | provisionLdapUser ldapUsername =>
    obtain rfl := Accounts.provision_cases h
    have hplain : (Accounts.Server.provisioned draw ldapUsername).oidcSub = none := rfl
    exact sameIdentities_provision hplain rfl rfl
  | commit loaded changed action =>
    cases h
    obtain ⟨hsub, hissuer⟩ := hcommit loaded changed action rfl
    exact sameIdentities_commit s action hsub hissuer
  | getdelTotpPending tempToken =>
    cases h
    refine sameIdentities_of_users ?_
    unfold Accounts.Server.getdelTotpPending
    split <;> rfl
  | getdelTotpSetup tempToken =>
    cases h
    refine sameIdentities_of_users ?_
    unfold Accounts.Server.getdelTotpSetup
    split <;> rfl
  | setTotpUsed user code =>
    rcases Accounts.setTotpUsed_cases h with rfl | rfl <;> exact sameIdentities_of_users rfl
  | _ =>
    cases h
    exact sameIdentities_of_users rfl

/-! ### One entry more -/

variable {d : Deployment} {h t : History} {v w : ℕ} {operation : Op}
  {reply : Except Fault (Reply operation)} {now : Server}

theorem grows_record
    (hreceived : ∀ v request, h.now.received v = some request → now.received v = some request)
    (hdrawn : ∀ draw ∈ h.now.drawn, draw ∈ now.drawn)
    (hcookies : ∀ cookie ∈ h.now.cookies, cookie ∈ now.cookies) :
    Grows h (h.record w operation reply now) :=
  ⟨fun _ hmem ↦ Recorded.mem_record hmem, hreceived, hdrawn, hcookies⟩

theorem moves_record (hgrows : Grows h (h.record w operation reply now))
    (hset : v ≠ w ∨ ∀ state stored, operation ≠ .setState state stored)
    (hown : now.received v = h.now.received v)
    (hsub : ∀ account, SubFrom d (h.record w operation reply now) account (h.now.subOf account)
      (now.subOf account))
    (hissuer : ∀ account, IssuerFrom d (h.now.issuerOf account) (now.issuerOf account)) :
    Moves d v h (h.record w operation reply now) where
  toGrows := hgrows
  sets state stored hdid := by
    rcases Recorded.did_record_cases hdid with ⟨hv, hoperation⟩ | hold
    · rcases hset with hne | hne
      · exact absurd hv hne
      · exact absurd hoperation.symm (hne state stored)
    · exact hold
  own := hown
  sub := hsub
  issuer := hissuer

/-- The entries of the journal stay justified when a justified one is added. -/
theorem justified_record (hsound : Sound d h) (hgrows : Grows h (h.record w operation reply now))
    (hjustified : Justified d (h.record w operation reply now) w h.now operation) :
    ∀ entry ∈ (h.record w operation reply now).past,
      Justified d (h.record w operation reply now) entry.worker entry.before entry.operation := by
  intro entry hmem
  rcases List.mem_cons.mp hmem with rfl | hold
  · exact hjustified
  · exact (hsound.justified entry hold).grows hgrows

/-- A stored state stays the state of its start, and unspent, under any other operation. -/
theorem states_record (hsound : Sound d h) {state : String} {stored : Stored}
    (hstored : h.now.states state = some stored)
    (hother : ∀ purpose, operation ≠ .getdelState state purpose) :
    (∃ v, (h.record w operation reply now).Did v (.setState state stored)) ∧
      Unspent (h.record w operation reply now) state := by
  obtain ⟨⟨v, hdid⟩, hunspent⟩ := hsound.states state stored hstored
  refine ⟨⟨v, hdid.later fun _ ↦ Recorded.mem_record⟩, fun entry hmem hget ↦ ?_⟩
  rcases List.mem_cons.mp hmem with rfl | hold
  · obtain ⟨purpose, hoperation⟩ := hget
    exact absurd hoperation (hother purpose)
  · exact hunspent entry hold hget

section Accounts

variable {accounts : Accounts.Server}

theorem grows_accounts :
    Grows h (h.record w operation reply { h.now with accounts := accounts }) :=
  grows_record (fun _ _ hreceived ↦ hreceived) (fun _ hmem ↦ hmem) (fun _ hmem ↦ hmem)

/-- An operation that leaves the flows and the identities alone. -/
theorem moves_accounts (hset : v ≠ w ∨ ∀ state stored, operation ≠ .setState state stored)
    (hsame : SameIdentities h.now.accounts accounts) :
    Moves d v h (h.record w operation reply { h.now with accounts := accounts }) :=
  moves_record grows_accounts hset rfl (fun account ↦ .inl (hsame account).1)
    (fun account ↦ .inl (hsame account).2)

theorem sound_accounts (hsound : Sound d h)
    (hother : ∀ state purpose, operation ≠ .getdelState state purpose)
    (hjustified : Justified d (h.record w operation reply { h.now with accounts := accounts }) w
      h.now operation) :
    Sound d (h.record w operation reply { h.now with accounts := accounts }) where
  unique := hsound.unique
  urlsafe := hsound.urlsafe
  presented := hsound.presented
  known := hsound.known
  cookies := hsound.cookies
  states _ _ hstored := states_record hsound hstored fun purpose ↦ hother _ purpose
  justified := justified_record hsound grows_accounts hjustified

end Accounts

/-! ### The contract -/

theorem sameIdentities_environment {change : Accounts.Change} {s t : Accounts.Server}
    (h : Accounts.environment change s = some t) : SameIdentities s t := by
  cases change with
  | _ =>
    cases h
    exact sameIdentities_of_users rfl

theorem environment_safe {change : Change} (hsound : Sound d h)
    (hchange : (semantics d).environment change h = some t) :
    Sound d t ∧ ∀ w, Moves d w h t := by
  obtain ⟨now, henvironment, rfl⟩ := Option.map_eq_some_iff.mp hchange
  cases change with
  | account change =>
    obtain ⟨accounts, haccounts, rfl⟩ := Option.map_eq_some_iff.mp henvironment
    have hsame := sameIdentities_environment haccounts
    have hgrows : Grows h { h with now := { h.now with accounts := accounts } } :=
      ⟨fun _ hmem ↦ hmem, fun _ _ hreceived ↦ hreceived, fun _ hmem ↦ hmem, fun _ hmem ↦ hmem⟩
    refine ⟨⟨hsound.unique, hsound.urlsafe, hsound.presented, hsound.known, hsound.cookies,
      hsound.states, fun entry hmem ↦ (hsound.justified entry hmem).grows hgrows⟩, fun w ↦ ?_⟩
    exact ⟨hgrows, fun _ _ hdid ↦ hdid, rfl, fun account ↦ .inl (hsame account).1,
      fun account ↦ .inl (hsame account).2⟩
  | expireState state =>
    cases henvironment
    have hgrows : Grows h { h with now := h.now.delState state } :=
      ⟨fun _ hmem ↦ hmem, fun _ _ hreceived ↦ hreceived, fun _ hmem ↦ hmem, fun _ hmem ↦ hmem⟩
    refine ⟨⟨hsound.unique, hsound.urlsafe, hsound.presented, hsound.known, hsound.cookies,
      fun other stored hstored ↦ ?_, fun entry hmem ↦ (hsound.justified entry hmem).grows hgrows⟩,
      fun w ↦ ⟨hgrows, fun _ _ hdid ↦ hdid, rfl, fun _ ↦ .inl rfl, fun _ ↦ .inl rfl⟩⟩
    change Function.update h.now.states state none other = some stored at hstored
    by_cases hother : other = state
    · rw [hother, Function.update_self] at hstored
      cases hstored
    · rw [Function.update_of_ne hother] at hstored
      exact hsound.states other stored hstored

/-- What the requests owe each other. -/
def flows (d : Deployment) : Contract (semantics d) Request Answer where
  invariant h := Sound d h
  rely w h t := Moves d w h t
  rely_refl w h := Moves.refl d w h
  rely_trans _ _ _ _ hht htu := hht.trans htu
  idle w h := h.now.received w = none ∧ ∀ state stored, ¬h.Did w (.setState state stored)
  idle_stable w h t hidle hmoves _ := ⟨hmoves.own.trans hidle.1,
    fun state stored hdid ↦ hidle.2 state stored (hmoves.sets state stored hdid)⟩
  ends _ := Returns fun _ _ ↦ True
  ends_stable := by
    intro w result h t _ _ _
    cases result with
    | ok answer => trivial
    | error fault => trivial
  admits _ := True
  allows _ _ _ := True
  trusts _ _ _ := True
  tolerates _ _ := True
  environment_safe _ _ _ hsound _ hchange := environment_safe hsound hchange

/-! ### Parts of a request -/

/-- A part of a request after which the request knows what it knew before, and more. -/
abbrev Quietly {β : Type} (d : Deployment) (w : ℕ) (h : History) (promise : β → History → Prop) :
    Except Fault β → History → Prop :=
  Returns fun value t ↦ Moves d w h t ∧ promise value t

/-- Sequencing after a quiet part. -/
theorem safe_then {β γ : Type} {program : Handler β} {rest : β → Handler γ}
    {promise : β → History → Prop} {post : γ → History → Prop}
    (hprogram : Safe (flows d) w (Quietly d w h promise) program h)
    (hrest : ∀ value t, Moves d w h t → promise value t →
      Safe (flows d) w (Returns post) (rest value) t) :
    Safe (flows d) w (Returns post) (program >>= rest) h :=
  Safe.andThen hprogram fun value t hvalue ↦ hrest value t hvalue.1 hvalue.2

/-- A quiet part after a quiet part is quiet. -/
theorem safe_since {β : Type} {program : Handler β} {promise : β → History → Prop}
    (hmoves : Moves d w h t) (hprogram : Safe (flows d) w (Quietly d w t promise) program t) :
    Safe (flows d) w (Quietly d w h promise) program t := by
  refine Safe.imp (fun result u hresult ↦ ?_) hprogram
  cases result with
  | ok value => exact ⟨hmoves.trans hresult.1, hresult.2⟩
  | error fault => trivial

/-- An operation, by what it does to any state the others may have left. -/
theorem safe_op {promise : Reply operation → History → Prop}
    (hop : ∀ t, Moves d w h t → Sound d t → ∀ draw reply now,
      perform d w operation draw t.now = some (reply, now) →
        Sound d (t.record w operation reply now) ∧
          (∀ v, v ≠ w → Moves d v t (t.record w operation reply now)) ∧
            ∀ value, reply = .ok value → promise value (t.record w operation reply now)) :
    Safe (flows d) w (Returns promise) (call operation) h := by
  refine Safe.call fun t hmoves hsound ↦ ⟨fun _ ↦ trivial, fun _ draw reply u hperform ↦ ?_⟩
  obtain ⟨now, hnow, rfl⟩ := Semantics.recorded_cases hperform
  obtain ⟨hsound', hothers, hpromise⟩ := hop t hmoves hsound draw reply now hnow
  refine ⟨hsound', hothers, fun _ ↦ ?_, fun _ ↦ trivial⟩
  cases reply with
  | ok value => exact hpromise value rfl
  | error fault => trivial

/-- An operation that leaves the flows and the identities alone. -/
def Op.IsQuiet (d : Deployment) (operation : Op) : Prop :=
  (∀ state stored, operation ≠ .setState state stored) ∧
  (∀ state purpose, operation ≠ .getdelState state purpose) ∧
  ∀ w s draw reply now, perform d w operation draw s = some (reply, now) →
    ∃ accounts, now = { s with accounts := accounts } ∧ SameIdentities s.accounts accounts

/-- An operation that a request may perform at any time from `h` on. -/
def Permitted (d : Deployment) (w : ℕ) (h : History) (operation : Op) : Prop :=
  ∀ t, Moves d w h t → ∀ s, Justified d t w s operation

theorem Permitted.moves (hpermitted : Permitted d w h operation) (hmoves : Moves d w h t) :
    Permitted d w t operation :=
  fun u hu s ↦ hpermitted u (hmoves.trans hu) s

/-- A quiet operation keeps the invariant, and nobody can tell it from no step at all. -/
theorem quiet_step (hquiet : operation.IsQuiet d) (hpermitted : Permitted d w h operation)
    (hsound : Sound d h) {draw : Draw} (hperform : perform d w operation draw h.now =
      some (reply, now)) :
    Sound d (h.record w operation reply now) ∧ ∀ v, Moves d v h (h.record w operation reply now) := by
  obtain ⟨hset, hget, haccounts⟩ := hquiet
  obtain ⟨accounts, rfl, hsame⟩ := haccounts w h.now draw reply now hperform
  have hmoves : ∀ v, Moves d v h (h.record w operation reply { h.now with accounts := accounts }) :=
    fun v ↦ moves_accounts (.inr hset) hsame
  exact ⟨sound_accounts hsound hget (hpermitted _ (hmoves w) _), hmoves⟩

/-- What a request knows of a quiet operation it has performed. -/
theorem safe_quiet (hquiet : operation.IsQuiet d) (hpermitted : Permitted d w h operation) :
    Safe (flows d) w (Quietly d w h fun value t ↦ Sound d t ∧ ∃ s draw now,
      ⟨w, operation, s, .ok value⟩ ∈ t.past ∧ perform d w operation draw s = some (.ok value, now))
      (call operation) h := by
  refine safe_op fun t hmoves hsound draw reply now hperform ↦ ?_
  obtain ⟨hsound', hall⟩ := quiet_step hquiet (hpermitted.moves hmoves) hsound hperform
  refine ⟨hsound', fun v _ ↦ hall v, fun value hvalue ↦ ⟨hmoves.trans (hall w), hsound', ?_⟩⟩
  subst hvalue
  exact ⟨t.now, draw, now, List.mem_cons_self, hperform⟩

/-! ### Account programs -/

theorem isQuiet_account {operation : Accounts.Op} (hpermitted : Permitted d w h (.account operation)) :
    (Op.account operation).IsQuiet d := by
  refine ⟨fun _ _ ↦ Op.noConfusion, fun _ _ ↦ Op.noConfusion, fun v s draw reply now hperform ↦ ?_⟩
  obtain ⟨⟨outcome, accounts⟩, haccounts, heq⟩ := Option.map_eq_some_iff.mp hperform
  cases heq
  refine ⟨accounts, rfl, sameIdentities_of_perform (fun loaded changed action hcommit ↦ ?_)
    haccounts⟩
  have hjustified := hpermitted h (Moves.refl d w h) s
  rw [hcommit] at hjustified
  exact hjustified

/-- What a request knows of an account operation it has performed. -/
abbrev Performed (d : Deployment) (w : ℕ) (operation : Accounts.Op)
    (value : Accounts.Reply operation) (t : History) : Prop :=
  ∃ (s : Server) (draw : Accounts.Draw) (accounts : Accounts.Server),
    (⟨w, .account operation, s, .ok value⟩ : Entry Op Reply Fault Server) ∈ t.past ∧
      Accounts.perform d.accounts w operation draw s.accounts = some (.ok value, accounts)

theorem account_call (operation : Accounts.Op) :
    account (Accounts.call operation) = (call (.account operation) >>= fun value ↦ pure value) :=
  Program.lift_call _ _ operation

theorem account_bind {α β : Type} (program : Accounts.Handler α)
    (rest : α → Accounts.Handler β) :
    account (program >>= rest) = account program >>= fun value ↦ account (rest value) :=
  Program.lift_bind _ _ program rest

theorem safe_accountOp {operation : Accounts.Op}
    (hpermitted : Permitted d w h (.account operation)) :
    Safe (flows d) w (Quietly d w h fun value t ↦ Performed d w operation value t)
      (account (Accounts.call operation)) h := by
  rw [account_call]
  refine safe_then (safe_quiet (isQuiet_account hpermitted) hpermitted)
    fun value t hmoves hperformed ↦ ?_
  obtain ⟨-, s, draw, now, hmem, hperform⟩ := hperformed
  obtain ⟨⟨outcome, accounts⟩, haccounts, heq⟩ := Option.map_eq_some_iff.mp hperform
  cases heq
  exact ⟨hmoves, s, draw.account, accounts, hmem, haccounts⟩

/-- A part of an account request runs inside the contract, when its operations are permitted. -/
theorem safe_account {α : Type} {program : Accounts.Handler α} :
    ∀ {h : History}, program.Within (fun operation ↦ Permitted d w h (.account operation)) →
      Safe (flows d) w (Quietly d w h fun _ _ ↦ True) (account program) h := by
  induction program with
  | ret value =>
    intro h _
    exact ⟨Moves.refl d w h, trivial⟩
  | raise exception =>
    intro h _
    trivial
  | perform operation next ih =>
    intro h hwithin t hmoves hsound
    have hnext : ∀ {u : History} result, Moves d w h u →
        Safe (flows d) w (Quietly d w h fun _ _ ↦ True) (account (next result)) u :=
      fun result hu ↦ safe_since hu
        (ih result ((hwithin.2 result).imp fun _ hpermitted ↦ hpermitted.moves hu))
    refine ⟨fun exception ↦ hnext _ hmoves, fun _ draw reply u hperform ↦ ?_⟩
    obtain ⟨now, hnow, rfl⟩ := Semantics.recorded_cases hperform
    obtain ⟨hsound', hall⟩ := quiet_step (isQuiet_account hwithin.1)
      (hwithin.1.moves hmoves) hsound hnow
    have hown := hmoves.trans (hall w)
    exact ⟨hsound', fun v _ ↦ hall v, fun _ ↦ hnext _ hown, fun exception ↦ hnext _ hown⟩

/-! ### The operations of the flows -/

/-- The request is being served, and has stored no state. -/
structure Serves (h : History) (w : ℕ) (request : Request) : Prop where
  received : h.now.received w = some request
  none : ∀ state stored, ¬h.Did w (.setState state stored)

theorem Serves.moves {request : Request} (hserves : Serves h w request) (hmoves : Moves d w h t) :
    Serves t w request where
  received := hmoves.own.trans hserves.received
  none state stored hdid := hserves.none state stored (hmoves.sets state stored hdid)

theorem receive_cases {s now : Server} {request : Request} (h : s.receive w request = some now) :
    (∀ cookie ∈ request.browser, (∃ draw ∈ s.drawn, draw.use = .cookie ∧ draw.text = cookie) →
      ∃ set ∈ s.cookies, set.2 = cookie) ∧
    ∃ accounts, accounts.users = s.accounts.users ∧ now = { s with
      accounts := accounts
      received := Function.update s.received w (some request)
      presented := request.browser.toList ++ s.presented } := by
  unfold Server.receive at h
  split at h
  · rename_i hknown
    refine ⟨hknown, ?_⟩
    cases request with
    | account inner =>
      obtain ⟨sessions, -, rfl⟩ := Option.map_eq_some_iff.mp h
      exact ⟨{ s.accounts with sessions := sessions }, rfl, rfl⟩
    | _ =>
      cases h
      exact ⟨_, rfl, rfl⟩
  · cases h

theorem safe_receive (request : Request) (hidle : h.now.received w = none)
    (hnone : ∀ state stored, ¬h.Did w (.setState state stored)) :
    Safe (flows d) w (Returns fun _ t ↦ Serves t w request) (call (.receive request)) h := by
  refine safe_op fun t hmoves hsound draw reply now hperform ↦ ?_
  obtain ⟨next, hreceive, heq⟩ := Option.map_eq_some_iff.mp hperform
  cases heq
  obtain ⟨hknown, accounts, husers, rfl⟩ := receive_cases hreceive
  have hidle' : t.now.received w = none := hmoves.own.trans hidle
  have hreceived : ∀ v other, t.now.received v = some other →
      Function.update t.now.received w (some request) v = some other := by
    intro v other hother
    have hv : v ≠ w := by
      rintro rfl
      rw [hidle'] at hother
      cases hother
    rw [Function.update_of_ne hv, hother]
  have hgrows : Grows t (t.record w (.receive request) (.ok ()) { t.now with
      accounts := accounts
      received := Function.update t.now.received w (some request)
      presented := request.browser.toList ++ t.now.presented }) :=
    grows_record hreceived (fun _ hmem ↦ hmem) (fun _ hmem ↦ hmem)
  have hsame := sameIdentities_of_users husers
  -- the request of a worker is the new one or an old one
  have hcases : ∀ v other, Function.update t.now.received w (some request) v = some other →
      other = request ∨ t.now.received v = some other := by
    intro v other hother
    by_cases hv : v = w
    · rw [hv, Function.update_self, Option.some.injEq] at hother
      exact .inl hother.symm
    · rw [Function.update_of_ne hv] at hother
      exact .inr hother
  refine ⟨⟨hsound.unique, hsound.urlsafe, fun v other cookie hother hcookie ↦ ?_,
    fun v other cookie u hother hcookie hdrawn ↦ ?_, hsound.cookies,
    fun state stored hstored ↦ states_record hsound hstored fun _ ↦ Op.noConfusion,
    justified_record hsound hgrows trivial⟩, fun v hv ↦ ?_, fun _ _ ↦ ⟨?_, ?_⟩⟩
  · rcases hcases v other hother with rfl | hold
    · exact List.mem_append_left _ (Option.mem_toList.mpr hcookie)
    · exact List.mem_append_right _ (hsound.presented v other cookie hold hcookie)
  · rcases hcases v other hother with rfl | hold
    · obtain ⟨set, hset, hcookie'⟩ := hknown cookie hcookie ⟨_, hdrawn, rfl, rfl⟩
      exact ⟨set.1, hcookie' ▸ hset⟩
    · exact hsound.known v other cookie u hold hcookie hdrawn
  · exact moves_record hgrows (.inl hv) (Function.update_of_ne hv ..)
      (fun account ↦ .inl (hsame account).1) fun account ↦ .inl (hsame account).2
  · exact Function.update_self ..
  · intro state stored hdid
    rcases Recorded.did_record_cases hdid with ⟨-, hoperation⟩ | hold
    · cases hoperation
    · exact hnone state stored (hmoves.sets state stored hold)

/-- A fresh random text. -/
theorem safe_tokenUrlsafe (use : Use) (bytes : ℕ) : Safe (flows d) w
    (Quietly d w h fun text t ↦ ⟨w, use, text⟩ ∈ t.now.drawn)
    (call (.tokenUrlsafe use bytes)) h := by
  refine safe_op fun t hmoves hsound draw reply now hperform ↦ ?_
  obtain ⟨next, hdraw, heq⟩ := Option.map_eq_some_iff.mp hperform
  cases heq
  unfold Server.draw at hdraw
  split_ifs at hdraw with hfresh
  cases hdraw
  obtain ⟨-, hurlsafe, hnew, hunsent⟩ := hfresh
  have hgrows : Grows t (t.record w (.tokenUrlsafe use bytes) (.ok draw.text)
      { t.now with drawn := ⟨w, use, draw.text⟩ :: t.now.drawn }) :=
    grows_record (fun _ _ hreceived ↦ hreceived) (fun _ hmem ↦ List.mem_cons_of_mem _ hmem)
      (fun _ hmem ↦ hmem)
  have hall : ∀ v, Moves d v t (t.record w (.tokenUrlsafe use bytes) (.ok draw.text)
      { t.now with drawn := ⟨w, use, draw.text⟩ :: t.now.drawn }) := fun v ↦
    moves_record hgrows (.inr fun _ _ ↦ Op.noConfusion) rfl (fun _ ↦ .inl rfl) (fun _ ↦ .inl rfl)
  refine ⟨⟨fun first hfirst second hsecond heq ↦ ?_, fun first hfirst ↦ ?_, hsound.presented,
    fun v request cookie u hreceived hcookie hdrawn ↦ ?_,
    fun v cookie hset ↦ List.mem_cons_of_mem _ (hsound.cookies v cookie hset),
    fun state stored hstored ↦ states_record hsound hstored fun _ ↦ Op.noConfusion,
    justified_record hsound hgrows trivial⟩, fun v _ ↦ hall v, fun text htext ↦ ?_⟩
  · rcases List.mem_cons.mp hfirst with rfl | hfirst'
    · rcases List.mem_cons.mp hsecond with rfl | hsecond'
      · rfl
      · exact absurd heq.symm (hnew second hsecond')
    · rcases List.mem_cons.mp hsecond with rfl | hsecond'
      · exact absurd heq (hnew first hfirst')
      · exact hsound.unique first hfirst' second hsecond' heq
  · rcases List.mem_cons.mp hfirst with rfl | hfirst'
    · exact hurlsafe
    · exact hsound.urlsafe first hfirst'
  · rcases List.mem_cons.mp hdrawn with hnewest | hold
    · cases hnewest
      exact absurd (hsound.presented v request draw.text hreceived hcookie) (hunsent rfl)
    · exact hsound.known v request cookie u hreceived hcookie hold
  · cases htext
    exact ⟨hmoves.trans (hall w), List.mem_cons_self⟩

/-- The state of a flow is the random text its request drew, with the first letters of a link. -/
theorem text_of_started (hsound : Sound d h) {state : String} {stored : Stored}
    (hstarted : Started d h w state stored) : ∃ text, ⟨w, .state, text⟩ ∈ h.now.drawn ∧
      state = if isLinkState state then linkStatePrefix ++ text else text := by
  rcases hstarted with ⟨cookie, hlogin⟩ | ⟨token, hlink⟩
  · refine ⟨state, hlogin.state, ?_⟩
    have hplain := isLinkState_of_urlsafe (hsound.urlsafe _ hlogin.state)
    rw [hplain]
    rfl
  · obtain ⟨text, hdrawn, rfl⟩ := hlink.state
    exact ⟨text, hdrawn, by rw [isLinkState_append, if_pos rfl]⟩

/-- A state is started by one request only. -/
theorem eq_of_started (hsound : Sound d h) {state : String} {stored other : Stored}
    (hstarted : Started d h v state stored) (hother : Started d h w state other) : v = w := by
  obtain ⟨text, hdrawn, hstate⟩ := text_of_started hsound hstarted
  obtain ⟨text', hdrawn', hstate'⟩ := text_of_started hsound hother
  have htext : text = text' := by
    by_cases hlink : isLinkState state = true
    · rw [if_pos hlink] at hstate hstate'
      exact String.append_right_inj _ |>.mp (hstate.symm.trans hstate')
    · rw [if_neg hlink] at hstate hstate'
      exact hstate.symm.trans hstate'
  exact congrArg Drawn.worker (hsound.unique _ hdrawn _ hdrawn' htext)

/-- The state a flow is started with has not been stored, nor spent, before. -/
theorem unspent_of_started (hsound : Sound d h) {state : String} {stored : Stored}
    (hstarted : Started d h w state stored)
    (hnone : ∀ state stored, ¬h.Did w (.setState state stored)) : Unspent h state := by
  rintro entry hmem ⟨purpose, hoperation⟩
  cases hfound : entry.before.states state with
  | none => rfl
  | some other =>
    have hjustified := hsound.justified entry hmem
    rw [hoperation] at hjustified
    obtain ⟨-, v, s, reply, hset⟩ := hjustified other hfound
    have hother : Started d h v state other := hsound.justified _ hset
    have hsame : v = w := eq_of_started hsound hother hstarted
    subst hsame
    exact absurd ⟨s, reply, hset⟩ (hnone state other)

/-- The SET of a state that its request may start. -/
theorem safe_setState {state : String} {stored : Stored} {request : Request}
    (hserves : Serves h w request) (hstarted : Started d h w state stored) :
    Safe (flows d) w (Returns fun _ t ↦ Grows h t) (call (.setState state stored)) h := by
  refine safe_op fun t hmoves hsound draw reply now hperform ↦ ?_
  cases hperform
  have hgrows : Grows t (t.record w (.setState state stored) (.ok ())
      (t.now.setState state stored)) :=
    grows_record (fun _ _ hreceived ↦ hreceived) (fun _ hmem ↦ hmem) (fun _ hmem ↦ hmem)
  have hstarted' := hstarted.grows hmoves.toGrows
  refine ⟨⟨hsound.unique, hsound.urlsafe, hsound.presented, hsound.known, hsound.cookies,
    fun other found hfound ↦ ?_, justified_record hsound hgrows (hstarted'.grows hgrows)⟩,
    fun v hv ↦ moves_record hgrows (.inl hv) rfl (fun _ ↦ .inl rfl) (fun _ ↦ .inl rfl),
    fun _ _ ↦ hmoves.toGrows.trans hgrows⟩
  change Function.update t.now.states state (some stored) other = some found at hfound
  by_cases hother : other = state
  · rw [hother, Function.update_self, Option.some.injEq] at hfound
    subst hother hfound
    refine ⟨⟨w, Recorded.did_record_self⟩, fun entry hmem hget ↦ ?_⟩
    rcases List.mem_cons.mp hmem with rfl | hold
    · obtain ⟨purpose, hoperation⟩ := hget
      cases hoperation
    · exact unspent_of_started hsound hstarted' (hserves.moves hmoves).none entry hold hget
  · rw [Function.update_of_ne hother] at hfound
    exact states_record hsound hfound fun _ ↦ Op.noConfusion

/-- What a request knows that has redeemed a state: who started it, and for what. -/
structure Redeemed (d : Deployment) (h : History) (w : ℕ) (state : String) (purpose : Purpose)
    (stored : Stored) : Prop where
  found : h.Found w (.getdelState state purpose) fun s ↦ s.states state ≠ none
  started : ∃ v, h.Did v (.setState state stored) ∧ Started d h v state stored
  purpose : stored.purpose = some purpose

theorem Redeemed.grows {state : String} {purpose : Purpose} {stored : Stored}
    (hredeemed : Redeemed d h w state purpose stored) (hgrows : Grows h t) :
    Redeemed d t w state purpose stored where
  found := hredeemed.found.later hgrows.past
  started := by
    obtain ⟨v, hdid, hstarted⟩ := hredeemed.started
    exact ⟨v, hdid.later hgrows.past, hstarted.grows hgrows⟩
  purpose := hredeemed.purpose

/-- A state is issued for the purpose its first letters tell. -/
theorem purpose_of_started (hsound : Sound d h) {state : String} {stored : Stored}
    (hstarted : Started d h w state stored) {purpose : Purpose}
    (hpurpose : isLinkState state = decide (purpose = .link)) :
    stored.purpose = some purpose := by
  rcases hstarted with ⟨cookie, hlogin⟩ | ⟨token, hlink⟩
  · have hplain := isLinkState_of_urlsafe (hsound.urlsafe _ hlogin.state)
    rw [hplain] at hpurpose
    cases purpose with
    | login => exact hlogin.purpose
    | link => cases hpurpose
  · obtain ⟨text, -, rfl⟩ := hlink.state
    rw [isLinkState_append] at hpurpose
    cases purpose with
    | login => cases hpurpose
    | link => exact hlink.purpose

/-- The GETDEL of a state, for the purpose its first letters tell. -/
theorem safe_getdelState {state : String} {purpose : Purpose}
    (hpurpose : isLinkState state = decide (purpose = .link)) : Safe (flows d) w
    (Quietly d w h fun raw t ↦ ∀ stored, raw = some stored →
      Redeemed d t w state purpose stored) (call (.getdelState state purpose)) h := by
  refine safe_op fun t hmoves hsound draw reply now hperform ↦ ?_
  cases hperform
  have hgrows : Grows t (t.record w (.getdelState state purpose) (.ok (t.now.states state))
      (t.now.delState state)) :=
    grows_record (fun _ _ hreceived ↦ hreceived) (fun _ hmem ↦ hmem) (fun _ hmem ↦ hmem)
  have hall : ∀ v, Moves d v t (t.record w (.getdelState state purpose)
      (.ok (t.now.states state)) (t.now.delState state)) := fun v ↦
    moves_record hgrows (.inr fun _ _ ↦ Op.noConfusion) rfl (fun _ ↦ .inl rfl) (fun _ ↦ .inl rfl)
  have hstart : ∀ stored, t.now.states state = some stored →
      ∃ v, t.Did v (.setState state stored) ∧ Started d t v state stored := by
    intro stored hstored
    obtain ⟨⟨v, s, reply, hset⟩, -⟩ := hsound.states state stored hstored
    exact ⟨v, ⟨s, reply, hset⟩, hsound.justified _ hset⟩
  refine ⟨⟨hsound.unique, hsound.urlsafe, hsound.presented, hsound.known, hsound.cookies,
    fun other found hfound ↦ ?_, justified_record hsound hgrows fun stored hstored ↦ ?_⟩,
    fun v _ ↦ hall v, fun raw hraw ↦ ⟨hmoves.trans (hall w), fun stored hstored ↦ ?_⟩⟩
  · change Function.update t.now.states state none other = some found at hfound
    by_cases hother : other = state
    · rw [hother, Function.update_self] at hfound
      cases hfound
    · rw [Function.update_of_ne hother] at hfound
      refine states_record hsound hfound fun other' hoperation ↦ hother ?_
      cases hoperation
      rfl
  · obtain ⟨v, hdid, hstarted⟩ := hstart stored hstored
    exact ⟨purpose_of_started hsound hstarted hpurpose, v, hdid.later hgrows.past⟩
  · cases hraw
    obtain ⟨v, hdid, hstarted⟩ := hstart stored hstored
    refine ⟨Recorded.found_record_self ?_, ⟨v, hdid.later hgrows.past, hstarted.grows hgrows⟩,
      purpose_of_started hsound hstarted hpurpose⟩
    rw [hstored]
    exact Option.some_ne_none stored

/-- The row a request has loaded, and what its columns may have become since. -/
def Loaded (d : Deployment) (h : History) (user : AdminUser) : Prop :=
  SubFrom d h user.id user.oidcSub (h.now.subOf user.id) ∧
    IssuerFrom d user.oidcIssuer (h.now.issuerOf user.id)

theorem Loaded.moves {user : AdminUser} (hloaded : Loaded d h user) (hmoves : Moves d w h t) :
    Loaded d t user :=
  ⟨(hloaded.1.grows hmoves.toGrows).trans (hmoves.sub user.id),
    hloaded.2.trans (hmoves.issuer user.id)⟩

/-- A column that a commit writes is the new value or stays. -/
theorem column_commit_cases (s : Accounts.Server) (loaded changed : AdminUser)
    (action : Accounts.AuditAction) (account : UserId) {column : AdminUser → Option String}
    (hcolumn : ∀ user, column (AdminUser.flush loaded changed user) =
      Accounts.written (column loaded) (column changed) (column user)) :
    ((s.commit loaded changed action).userById account).bind column =
        (s.userById account).bind column ∨
      (account = loaded.id ∧ column changed ≠ column loaded ∧
        ((s.commit loaded changed action).userById account).bind column = column changed) := by
  rw [column_commit s loaded changed action account hcolumn]
  by_cases haccount : account = loaded.id
  · rw [if_pos haccount]
    cases s.userById account with
    | none => exact .inl rfl
    | some user =>
      simp only [Option.bind_some, Accounts.written]
      by_cases hsame : column changed = column loaded
      · exact .inl (if_pos hsame)
      · exact .inr ⟨haccount, hsame, if_neg hsame⟩
  · exact .inl (if_neg haccount)

/-- What a linking commit makes of the identity columns. -/
theorem linkIdentity_columns (s : Server) (user : AdminUser) (sub issuer : String)
    (account : UserId) :
    ((s.linkIdentity user sub issuer).2.subOf account = s.subOf account ∨
      (account = user.id ∧ user.oidcSub ≠ some sub ∧
        (s.linkIdentity user sub issuer).2.subOf account = some sub)) ∧
    ((s.linkIdentity user sub issuer).2.issuerOf account = s.issuerOf account ∨
      (account = user.id ∧ user.oidcIssuer ≠ some issuer ∧
        (s.linkIdentity user sub issuer).2.issuerOf account = some issuer)) := by
  unfold Server.linkIdentity
  by_cases htaken : user.oidcSub ≠ some sub ∧
      ∃ other ∈ s.accounts.users, other.id ≠ user.id ∧ other.oidcSub = some sub
  · rw [if_pos htaken]
    exact ⟨.inl rfl, .inl rfl⟩
  · rw [if_neg htaken]
    have hsub := column_commit_cases s.accounts user
      { user with oidcSub := some sub, oidcIssuer := some issuer } .authSsoLinked account
      (fun other ↦ (rfl : (AdminUser.flush _ _ other).oidcSub = _))
    have hissuer := column_commit_cases s.accounts user
      { user with oidcSub := some sub, oidcIssuer := some issuer } .authSsoLinked account
      (fun other ↦ (rfl : (AdminUser.flush _ _ other).oidcIssuer = _))
    exact ⟨hsub.imp id fun ⟨haccount, hne, hnow⟩ ↦ ⟨haccount, hne.symm, hnow⟩,
      hissuer.imp id fun ⟨haccount, hne, hnow⟩ ↦ ⟨haccount, hne.symm, hnow⟩⟩

/-- Only the accounts change when an identity is linked. -/
theorem linkIdentity_cases (s : Server) (user : AdminUser) (sub issuer : String) :
    ∃ accounts, (s.linkIdentity user sub issuer).2 = { s with accounts := accounts } := by
  unfold Server.linkIdentity
  split_ifs
  · exact ⟨s.accounts, rfl⟩
  · exact ⟨_, rfl⟩

/-- The commit of an identity that a link flow of the account has verified. -/
theorem safe_linkIdentity {user : AdminUser} {identity : Claims} {token : Token} {state : String}
    (hloaded : Loaded d h user) (hissuer : identity.iss = d.issuer) (haccount : token.sub = user.id)
    (hflow : ∃ v, LinkFlow d h token state v w identity) : Safe (flows d) w
    (Quietly d w h fun _ _ ↦ True) (call (.linkIdentity user identity.sub identity.iss)) h := by
  refine safe_op fun t hmoves hsound draw reply now hperform ↦ ?_
  cases hperform
  obtain ⟨v, hflow⟩ := hflow
  obtain ⟨hsubs, hissuers⟩ := hloaded.moves hmoves
  obtain ⟨accounts, haccounts⟩ := linkIdentity_cases t.now user identity.sub identity.iss
  have hcolumns := linkIdentity_columns t.now user identity.sub identity.iss
  rw [haccounts] at hcolumns ⊢
  have hgrows : Grows t (t.record w (.linkIdentity user identity.sub identity.iss)
      (.ok (t.now.linkIdentity user identity.sub identity.iss).1)
      { t.now with accounts := accounts }) := grows_accounts
  have hflow' := (hflow.grows hmoves.toGrows).grows hgrows
  have hvouched : Vouched d (t.record w (.linkIdentity user identity.sub identity.iss)
      (.ok (t.now.linkIdentity user identity.sub identity.iss).1)
      { t.now with accounts := accounts }) user.id identity.sub :=
    ⟨token, state, v, w, haccount, hissuer ▸ hflow'⟩
  have hall : ∀ v, Moves d v t (t.record w (.linkIdentity user identity.sub identity.iss)
      (.ok (t.now.linkIdentity user identity.sub identity.iss).1)
      { t.now with accounts := accounts }) := by
    intro v
    refine moves_record hgrows (.inr fun _ _ ↦ Op.noConfusion) rfl (fun account ↦ ?_)
      fun account ↦ ?_
    · rcases (hcolumns account).1 with hsame | ⟨rfl, -, hnow⟩
      · exact .inl hsame
      · exact .inr (.inr ⟨identity.sub, hnow, hvouched⟩)
    · rcases (hcolumns account).2 with hsame | ⟨-, -, hnow⟩
      · exact .inl hsame
      · exact .inr (.inr (hissuer ▸ hnow))
  refine ⟨sound_accounts hsound (fun _ _ ↦ Op.noConfusion)
    ⟨hissuer, ⟨token, state, v, haccount, hflow'⟩, hsubs.grows hgrows, hissuers⟩,
    fun v _ ↦ hall v, fun _ _ ↦ ⟨hmoves.trans (hall w), trivial⟩⟩

theorem safe_unlinkIdentity (user : AdminUser) : Safe (flows d) w
    (Quietly d w h fun _ _ ↦ True) (call (.unlinkIdentity user)) h := by
  refine safe_op fun t hmoves hsound draw reply now hperform ↦ ?_
  cases hperform
  have hall : ∀ v, Moves d v t (t.record w (.unlinkIdentity user) (.ok ())
      (t.now.unlinkIdentity user)) := by
    intro v
    refine moves_record grows_accounts (.inr fun _ _ ↦ Op.noConfusion) rfl (fun account ↦ ?_)
      fun account ↦ ?_
    · rcases column_commit_cases t.now.accounts user { user with oidcSub := none, oidcIssuer := none }
        .authSsoUnlinked account (fun other ↦ (rfl : (AdminUser.flush _ _ other).oidcSub = _)) with
        hsame | ⟨-, -, hnow⟩
      · exact .inl hsame
      · exact .inr (.inl hnow)
    · rcases column_commit_cases t.now.accounts user { user with oidcSub := none, oidcIssuer := none }
        .authSsoUnlinked account (fun other ↦ (rfl : (AdminUser.flush _ _ other).oidcIssuer = _))
        with hsame | ⟨-, -, hnow⟩
      · exact .inl hsame
      · exact .inr (.inl hnow)
  exact ⟨sound_accounts hsound (fun _ _ ↦ Op.noConfusion) trivial, fun v _ ↦ hall v,
    fun _ _ ↦ ⟨hmoves.trans (hall w), trivial⟩⟩

/-- A response sets the login cookie its request has drawn. -/
theorem safe_setLoginCookie {browser : String} (hdrawn : ⟨w, .cookie, browser⟩ ∈ h.now.drawn) :
    Safe (flows d) w (Quietly d w h fun _ _ ↦ True) (call (.setLoginCookie browser)) h := by
  refine safe_op fun t hmoves hsound draw reply now hperform ↦ ?_
  cases hperform
  have hgrows : Grows t (t.record w (.setLoginCookie browser) (.ok ())
      { t.now with cookies := (w, browser) :: t.now.cookies }) :=
    grows_record (fun _ _ hreceived ↦ hreceived) (fun _ hmem ↦ hmem)
      (fun _ hmem ↦ List.mem_cons_of_mem _ hmem)
  have hall : ∀ v, Moves d v t (t.record w (.setLoginCookie browser) (.ok ())
      { t.now with cookies := (w, browser) :: t.now.cookies }) := fun v ↦
    moves_record hgrows (.inr fun _ _ ↦ Op.noConfusion) rfl (fun _ ↦ .inl rfl) (fun _ ↦ .inl rfl)
  refine ⟨⟨hsound.unique, hsound.urlsafe, hsound.presented, fun v request cookie u hreceived
    hcookie hmem ↦ ?_, fun v cookie hmem ↦ ?_, fun state stored hstored ↦
    states_record hsound hstored fun _ ↦ Op.noConfusion, justified_record hsound hgrows trivial⟩,
    fun v _ ↦ hall v, fun _ _ ↦ ⟨hmoves.trans (hall w), trivial⟩⟩
  · obtain ⟨setter, hset⟩ := hsound.known v request cookie u hreceived hcookie hmem
    exact ⟨setter, List.mem_cons_of_mem _ hset⟩
  · rcases List.mem_cons.mp hmem with hnew | hold
    · cases hnew
      exact hmoves.drawn _ hdrawn
    · exact hsound.cookies v cookie hold

end OpenWhistle.Sso
