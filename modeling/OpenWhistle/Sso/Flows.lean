import OpenWhistle.Accounts.Sweep
import OpenWhistle.Sso.Handlers

/-!
# States are bound to browser, purpose and session

Every step of every run: an account is linked to an identity only by the callback of a link flow
that was started with the same session, valid both times; a callback goes on to a second factor only
with the cookie that was set when its flow started; and a GETDEL finds a state at most once, and
only for the purpose it was issued for.

Two link flows of one account may overlap, and a commit writes only the columns it changes, so the
identity that a commit completes may be the one another flow of the same account has verified.
-/

set_option autoImplicit false
set_option relaxedAutoImplicit false

namespace OpenWhistle.Sso

open Interleaving
open Accounts (AdminUser UserId Token Fault)

variable {d : Deployment} {w : ℕ}

theorem not_linked_of_sameIdentities {s t : Server} {account : UserId} {identity : Claims}
    (hsame : SameIdentities s.accounts t.accounts) (hbefore : ¬s.Linked account identity) :
    ¬t.Linked account identity := by
  rintro ⟨hsub, hissuer⟩
  exact hbefore ⟨(hsame account).1.symm.trans hsub, (hsame account).2.symm.trans hissuer⟩

/-- A column after a commit that set it: the value, or what it was where the value was loaded. -/
theorem column_of_commit {s : Accounts.Server} {loaded changed : AdminUser}
    {action : Accounts.AuditAction} {column : AdminUser → Option String}
    (hcolumn : ∀ user, column (AdminUser.flush loaded changed user) =
      Accounts.written (column loaded) (column changed) (column user)) {value : String}
    (hafter : ((s.commit loaded changed action).userById loaded.id).bind column = some value) :
    column changed = some value ∨ (column changed = column loaded ∧
      (s.userById loaded.id).bind column = some value) := by
  rw [column_commit s loaded changed action loaded.id hcolumn, if_pos rfl] at hafter
  obtain ⟨user, huser, hwritten⟩ := Option.bind_eq_some_iff.mp hafter
  unfold Accounts.written at hwritten
  split_ifs at hwritten with hsame
  · exact .inr ⟨hsame, by rw [huser, Option.bind_some, hwritten]⟩
  · exact .inl hwritten

/-- What an account that a commit has linked is linked to, column by column: what the commit wrote,
or what it left because it had loaded the same. -/
theorem linked_of_linkIdentity {s : Server} {user : AdminUser} {sub issuer : String}
    {account : UserId} {identity : Claims}
    (hafter : (s.linkIdentity user sub issuer).2.Linked account identity)
    (hbefore : ¬s.Linked account identity) :
    account = user.id ∧
    (identity.sub = sub ∨ (user.oidcSub = some sub ∧ s.subOf account = some identity.sub)) ∧
    (identity.iss = issuer ∨
      (user.oidcIssuer = some issuer ∧ s.issuerOf account = some identity.iss)) := by
  have haccount : account = user.id := by
    obtain ⟨hsubs, hissuers⟩ := linkIdentity_columns s user sub issuer account
    rcases hsubs with hsub | ⟨haccount, -⟩
    · rcases hissuers with hissuer | ⟨haccount, -⟩
      · exact absurd ⟨hsub.symm.trans hafter.1, hissuer.symm.trans hafter.2⟩ hbefore
      · exact haccount
    · exact haccount
  subst haccount
  unfold Server.linkIdentity at hafter
  split_ifs at hafter with htaken
  · exact absurd hafter hbefore
  obtain ⟨hsub, hissuer⟩ := hafter
  refine ⟨rfl, ?_, ?_⟩
  · rcases column_of_commit (fun other ↦ (rfl : (AdminUser.flush _ _ other).oidcSub = _)) hsub with
      hnew | ⟨hsame, hold⟩
    · exact .inl (Option.some.inj hnew).symm
    · exact .inr ⟨hsame.symm, hold⟩
  · rcases column_of_commit (fun other ↦ (rfl : (AdminUser.flush _ _ other).oidcIssuer = _))
      hissuer with hnew | ⟨hsame, hold⟩
    · exact .inl (Option.some.inj hnew).symm
    · exact .inr ⟨hsame.symm, hold⟩

/-- An unlinking commit links nothing. -/
theorem not_linked_of_unlinkIdentity {s : Server} {user : AdminUser} {account : UserId}
    {identity : Claims} (hbefore : ¬s.Linked account identity) :
    ¬(s.unlinkIdentity user).Linked account identity := by
  rintro ⟨hsub, hissuer⟩
  have hsubs := column_commit_cases s.accounts user { user with oidcSub := none, oidcIssuer := none }
    .authSsoUnlinked account (fun other ↦ (rfl : (AdminUser.flush _ _ other).oidcSub = _))
  have hissuers := column_commit_cases s.accounts user
    { user with oidcSub := none, oidcIssuer := none } .authSsoUnlinked account
    (fun other ↦ (rfl : (AdminUser.flush _ _ other).oidcIssuer = _))
  rcases hsubs with hsame | ⟨-, -, hnone⟩
  · rcases hissuers with hsame' | ⟨-, -, hnone⟩
    · exact hbefore ⟨hsame.symm.trans hsub, hsame'.symm.trans hissuer⟩
    · exact absurd (hnone.symm.trans hissuer) (Option.some_ne_none _).symm
  · exact absurd (hnone.symm.trans hsub) (Option.some_ne_none _).symm

/-- The entry an effective step leaves in the journal is justified. -/
theorem justified_of_step (hd : d.Distinct) {accounts : Accounts.Start} {events : List Step}
    {s t : Requests} {event : Step} {operation : Op}
    (hrun : run (semantics d) (handler d) (start accounts) events = some s)
    (hstep : step (semantics d) (handler d) s event = some t)
    (hacting : s.acting event = some (w, operation)) :
    Justified d t.shared w s.shared.now operation := by
  have hlater : run (semantics d) (handler d) (start accounts) (events ++ [event]) = some t :=
    run_append_eq_some.mpr ⟨s, hrun, run_cons_eq_some.mpr ⟨t, hstep, rfl⟩⟩
  have hsound : Sound d t.shared := (holds_of_run hd hlater).invariant
  obtain ⟨draw, reply, hperform⟩ := perform_of_acting hstep hacting
  obtain ⟨now, -, hrecord⟩ := Semantics.recorded_cases hperform
  refine hsound.justified ⟨w, operation, s.shared.now, reply⟩ ?_
  rw [hrecord]
  exact List.mem_cons_self

/-- An account operation leaves the requests that were received. -/
theorem received_of_account {s t : Requests} {event : Step} {operation : Accounts.Op}
    (hstep : step (semantics d) (handler d) s event = some t)
    (hacting : s.acting event = some (w, .account operation)) :
    t.shared.now.received = s.shared.now.received := by
  obtain ⟨draw, reply, hperform⟩ := perform_of_acting hstep hacting
  obtain ⟨now, hnow, hrecord⟩ := Semantics.recorded_cases hperform
  obtain ⟨result, -, heq⟩ := Option.map_eq_some_iff.mp hnow
  cases heq
  rw [hrecord]
  rfl

/-- Only a linking commit links an account to an identity. -/
theorem acting_of_linked (hd : d.Distinct) {accounts : Accounts.Start} {events : List Step}
    {s t : Requests} {event : Step} {account : UserId} {identity : Claims}
    (hrun : run (semantics d) (handler d) (start accounts) events = some s)
    (hstep : step (semantics d) (handler d) s event = some t)
    (hbefore : ¬s.shared.now.Linked account identity)
    (hafter : t.shared.now.Linked account identity) :
    ∃ w user sub issuer, s.acting event = some (w, .linkIdentity user sub issuer) ∧
      t.shared.now = (s.shared.now.linkIdentity user sub issuer).2 := by
  rcases acting_cases hstep with ⟨w, operation, draw, reply, hacting, hperform⟩ |
    ⟨change, hchange⟩ | hsame
  · have hjustified := justified_of_step hd hrun hstep hacting
    obtain ⟨now, hnow, hrecord⟩ := Semantics.recorded_cases hperform
    rw [hrecord] at hafter
    cases operation with
    | linkIdentity user sub issuer =>
      cases hnow
      exact ⟨w, user, sub, issuer, hacting, congrArg Recorded.now hrecord⟩
    | unlinkIdentity user =>
      cases hnow
      exact absurd hafter (not_linked_of_unlinkIdentity hbefore)
    | account operation =>
      obtain ⟨⟨outcome, inner⟩, hinner, heq⟩ := Option.map_eq_some_iff.mp hnow
      cases heq
      refine absurd hafter (not_linked_of_sameIdentities
        (sameIdentities_of_perform (fun loaded changed action hcommit ↦ ?_) hinner) hbefore)
      rw [hcommit] at hjustified
      exact hjustified
    | receive request =>
      obtain ⟨next, hreceive, heq⟩ := Option.map_eq_some_iff.mp hnow
      cases heq
      obtain ⟨-, inner, husers, rfl⟩ := receive_cases hreceive
      exact absurd hafter (not_linked_of_sameIdentities (sameIdentities_of_users husers) hbefore)
    | tokenUrlsafe use bytes =>
      obtain ⟨next, hdraw, heq⟩ := Option.map_eq_some_iff.mp hnow
      cases heq
      unfold Server.draw at hdraw
      split_ifs at hdraw
      cases hdraw
      exact absurd hafter hbefore
    | _ =>
      cases hnow
      exact absurd hafter hbefore
  · obtain ⟨now, hnow, hrecord⟩ := Option.map_eq_some_iff.mp hchange
    rw [← hrecord] at hafter
    cases change with
    | account change =>
      obtain ⟨inner, hinner, rfl⟩ := Option.map_eq_some_iff.mp hnow
      exact absurd hafter
        (not_linked_of_sameIdentities (sameIdentities_environment hinner) hbefore)
    | expireState state =>
      cases hnow
      exact absurd hafter hbefore
  · rw [hsame] at hafter
    exact absurd hafter hbefore

/-- In every run, with any states, codes and cookies in the requests: an account becomes linked to an
identity only at the commit of a callback that finishes a link flow of the account, started with the
same session, and only to an identity that such a flow of the account has verified; a callback goes
on to the second factor of an account only as the end of a login flow, with the cookie set at its
start; and a GETDEL that finds a state finds it for the purpose it was issued for, and is the first
to find it. -/
theorem single_sign_on_states_are_bound (hd : d.Distinct) {accounts : Accounts.Start}
    {events : List Step} {s t : Requests} {event : Step}
    (hrun : run (semantics d) (handler d) (start accounts) events = some s)
    (hstep : step (semantics d) (handler d) s event = some t) :
    (∀ account identity, ¬s.shared.now.Linked account identity →
      t.shared.now.Linked account identity →
        (∃ w user sub issuer token state v,
          s.acting event = some (w, .linkIdentity user sub issuer) ∧ user.id = account ∧
            token.sub = account ∧ LinkFlow d t.shared token state v w ⟨sub, issuer⟩) ∧
        ∃ token state v w, token.sub = account ∧ LinkFlow d t.shared token state v w identity) ∧
    (∀ w query tempToken account, s.shared.now.received w = some (.callback query) →
      (s.acting event = some (w, .account (.setTotpPending tempToken account)) ∨
        s.acting event = some (w, .account (.setTotpSetup tempToken account))) →
        ∃ cookie state v, LoginFlow t.shared cookie state v w account) ∧
    ∀ w state purpose stored, s.acting event = some (w, .getdelState state purpose) →
      s.shared.now.states state = some stored →
        stored.purpose = some purpose ∧ Unspent s.shared state ∧
          ∃ v, s.shared.Did v (.setState state stored) ∧ Started d s.shared v state stored := by
  refine ⟨fun account identity hbefore hafter ↦ ?_, fun w query tempToken account hreceived hacting ↦ ?_,
    fun w state purpose stored hacting hstored ↦ ?_⟩
  · obtain ⟨w, user, sub, issuer, hacting, hnow⟩ := acting_of_linked hd hrun hstep hbefore hafter
    obtain ⟨hissuer, ⟨token, state, v, htoken, hflow⟩, hsub, hfrom⟩ :=
      justified_of_step hd hrun hstep hacting
    rw [hnow] at hafter
    obtain ⟨haccount, hsubs, hissuers⟩ := linked_of_linkIdentity hafter hbefore
    subst haccount
    refine ⟨⟨w, user, sub, issuer, token, state, v, hacting, rfl, htoken, hflow⟩, ?_⟩
    have hiss : identity.iss = d.issuer := by
      rcases hissuers with hwritten | ⟨hloaded, hold⟩
      · exact hwritten.trans hissuer
      · rw [hold, hloaded, hissuer] at hfrom
        rcases hfrom with hsame | hnone | hsame
        · exact Option.some.inj hsame
        · cases hnone
        · exact Option.some.inj hsame
    have hown : sub = identity.sub → ∃ token state v w, token.sub = user.id ∧
        LinkFlow d t.shared token state v w identity := by
      intro hsame
      have hidentity : identity = ⟨sub, issuer⟩ := by
        rw [hsame, hissuer, ← hiss]
      exact ⟨token, state, v, w, htoken, hidentity ▸ hflow⟩
    rcases hsubs with hwritten | ⟨hloaded, hold⟩
    · exact hown hwritten.symm
    · rw [hold, hloaded] at hsub
      rcases hsub with hsame | hnone | ⟨other, hother, token', state', v', w', htoken', hflow'⟩
      · exact hown (Option.some.inj hsame).symm
      · cases hnone
      · cases hother
        rw [← hiss] at hflow'
        exact ⟨token', state', v', w', htoken', hflow'⟩
  · have hgoes : GoesOn t.shared w account ∧
        t.shared.now.received = s.shared.now.received := by
      rcases hacting with hpending | hsetup
      · exact ⟨justified_of_step hd hrun hstep hpending, received_of_account hstep hpending⟩
      · exact ⟨justified_of_step hd hrun hstep hsetup, received_of_account hstep hsetup⟩
    obtain ⟨⟨request, hrequest, hflow⟩, hsame⟩ := hgoes
    rw [hsame, hreceived, Option.some.injEq] at hrequest
    exact hflow query hrequest.symm
  · have hsound : Sound d s.shared := (holds_of_run hd hrun).invariant
    obtain ⟨⟨v, started, reply, hmem⟩, hunspent⟩ := hsound.states state stored hstored
    obtain ⟨hpurpose, -⟩ := justified_of_step hd hrun hstep hacting stored hstored
    exact ⟨hpurpose, hunspent, v, ⟨started, reply, hmem⟩, hsound.justified _ hmem⟩

/-! ### A link flow -/

/-- A number in decimal digits. -/
def decimal (n : ℕ) : List Char := Nat.toDigits 10 n

theorem decimal_injective : Function.Injective decimal := by
  intro n m h
  have hvalue := congrArg (fun digits ↦ Nat.ofDigitChars 10 digits 0) h
  simpa [decimal] using hvalue

theorem not_mem_decimal {letter : Char} (hletter : letter.isDigit = false) (n : ℕ) :
    letter ∉ decimal n := by
  intro hmem
  have hdigit := Nat.isDigit_of_mem_toDigits (by decide) (by decide) hmem
  rw [hletter] at hdigit
  cases hdigit

/-- The claims of a token, with dots between them. -/
def dotted (token : Token) : String :=
  String.ofList (decimal token.sub ++ '.' :: (decimal token.exp ++ '.' :: (decimal token.iat ++
    '.' :: (decimal (token.authTime.elim 0 Nat.succ) ++ '.' :: decimal token.jti))))

theorem dotted_injective : Function.Injective dotted := by
  intro token other h
  have hplain : ∀ n, '.' ∉ decimal n := not_mem_decimal rfl
  obtain ⟨hsub, hrest⟩ :=
    split_at_separator (hplain _) (hplain _) (String.ofList_injective h)
  obtain ⟨hexp, hrest⟩ := split_at_separator (hplain _) (hplain _) hrest
  obtain ⟨hiat, hrest⟩ := split_at_separator (hplain _) (hplain _) hrest
  obtain ⟨htime, hjti⟩ := split_at_separator (hplain _) (hplain _) hrest
  have htime' : token.authTime = other.authTime := by
    have hcode := decimal_injective htime
    cases hfirst : token.authTime <;> cases hsecond : other.authTime <;>
      simp_all
  cases token
  cases other
  congr
  · exact decimal_injective hsub
  · exact decimal_injective hexp
  · exact decimal_injective hiat
  · exact decimal_injective hjti

/-- A sign-on whose digests carry the whole text. -/
def sample : Deployment where
  accounts := Accounts.literal
  issuer := "https://id.example"
  sha256 text := "#" ++ text
  pkceChallenge verifier := verifier
  str userId := String.ofList (decimal userId)
  encoded := dotted

theorem sample_distinct : sample.Distinct where
  sha256_injective first second h := String.append_right_inj _ |>.mp h
  sha256_ne_empty text h := by
    have hlength := congrArg String.length h
    simp [sample] at hlength
  str_injective first second h := decimal_injective (String.ofList_injective h)
  str_plain userId := by
    simpa [sample] using not_mem_decimal rfl userId
  encoded_injective := dotted_injective

def repeated (letter : Char) (n : ℕ) : String := String.ofList (List.replicate n letter)

/-- Anna links her account: the flow is started, and its callback has come back to her session and
asked the provider, up to the commit. -/
def annaLinks : List Step :=
  [.start 1 (.link (some (Accounts.session Accounts.anna 1)) (some "form") (some "form")),
    .run 1 {}, .run 1 {}, .run 1 {}, .run 1 {}, .run 1 { text := "https://id.example/authorize" },
    .run 1 { text := repeated 'a' 43 }, .run 1 { text := repeated 'b' 43 },
    .run 1 { text := repeated 'c' 86 }, .run 1 {},
    .start 2 (.callback {
      code := some "code"
      state := some (linkStatePrefix ++ repeated 'a' 43)
      session := some (Accounts.session Accounts.anna 1) }),
    .run 2 {}, .run 2 {}, .run 2 {}, .run 2 {}, .run 2 {}, .run 2 { sub := some "anna" }]

def beforeLink : Requests :=
  (run (semantics sample) (handler sample) (start Accounts.morning) annaLinks).getD
    (start Accounts.morning)

def afterLink : Requests :=
  (step (semantics sample) (handler sample) beforeLink (.run 2 {})).getD beforeLink

theorem single_sign_on_states_are_bound_when_anna_links :
    afterLink.shared.now.Linked 1 ⟨"anna", "https://id.example"⟩ ∧
    ∃ token state v w, token.sub = 1 ∧
      LinkFlow sample afterLink.shared token state v w ⟨"anna", "https://id.example"⟩ := by
  have hrun : run (semantics sample) (handler sample) (start Accounts.morning) annaLinks =
      some beforeLink := by
    obtain ⟨s, hs⟩ := Option.isSome_iff_exists.mp (show (run (semantics sample) (handler sample)
      (start Accounts.morning) annaLinks).isSome = true by decide +kernel)
    rw [beforeLink, hs]
    rfl
  have hstep : step (semantics sample) (handler sample) beforeLink (.run 2 {}) =
      some afterLink := by
    obtain ⟨s, hs⟩ := Option.isSome_iff_exists.mp (show (step (semantics sample) (handler sample)
      beforeLink (.run 2 {})).isSome = true by decide +kernel)
    rw [afterLink, hs]
    rfl
  have hbefore : beforeLink.shared.now.subOf 1 ≠ some "anna" := by decide +kernel
  have hafter : afterLink.shared.now.Linked 1 ⟨"anna", "https://id.example"⟩ :=
    ⟨by decide +kernel, by decide +kernel⟩
  obtain ⟨hlinks, -⟩ := single_sign_on_states_are_bound sample_distinct hrun hstep
  exact ⟨hafter, (hlinks 1 _ (fun hlinked ↦ hbefore hlinked.1) hafter).2⟩

end OpenWhistle.Sso
