import OpenWhistle.Sso.Routes

/-!
# What a stored state is bound to

A stored state was started by one request: for a login by an `authorize` that drew the cookie its
binding hashes, for a link by a `link` of a session that was valid then. Digests, account ids and
tokens are taken to be distinct for distinct arguments (`Distinct`), so the binding that a callback
shows determines the cookie, or the account and the session.

`Sound` is the invariant on the shared state and its journal, `Moves` what the other requests may do
meanwhile. Most facts only need that the journal grows (`Grows`); the identity columns of a row that
a request has loaded may be replaced, but only by what another link flow of the account has verified.
-/

set_option autoImplicit false
set_option relaxedAutoImplicit false

namespace OpenWhistle.Sso

open Interleaving
open Accounts (AdminUser UserId Token Fault)

/-! ### Bindings -/

/-- Distinct texts have distinct digests, none of them empty, and accounts and tokens are written
differently. -/
structure Deployment.Distinct (d : Deployment) : Prop where
  sha256_injective : Function.Injective d.sha256
  sha256_ne_empty : ∀ text, d.sha256 text ≠ ""
  str_injective : Function.Injective d.str
  str_plain : ∀ userId, ':' ∉ (d.str userId).toList
  encoded_injective : Function.Injective d.encoded

variable {d : Deployment}

theorem browserBinding_injective (hd : d.Distinct) : Function.Injective (browserBinding d) := by
  intro cookie other h
  have htext : "login:" ++ cookie = "login:" ++ other := hd.sha256_injective h
  exact String.append_right_inj _ |>.mp htext

/-- Two texts that part at their first separator agree on both sides of it. -/
theorem split_at_separator {α : Type} {separator : α} {rest rest' : List α} :
    ∀ {first first' : List α}, separator ∉ first → separator ∉ first' →
      first ++ separator :: rest = first' ++ separator :: rest' → first = first' ∧ rest = rest'
  | [], [], _, _, h => ⟨rfl, (List.cons.inj h).2⟩
  | [], letter :: first', _, hfirst', h => by
    have hletter : separator = letter := (List.cons.inj h).1
    exact absurd (hletter ▸ List.mem_cons_self) hfirst'
  | letter :: first, [], hfirst, _, h => by
    have hletter : letter = separator := (List.cons.inj h).1
    exact absurd (hletter ▸ List.mem_cons_self) hfirst
  | letter :: first, letter' :: first', hfirst, hfirst', h => by
    obtain ⟨hletter, htail⟩ := List.cons.inj h
    obtain ⟨hrest, hsecond⟩ := split_at_separator (fun hmem ↦ hfirst (List.mem_cons_of_mem _ hmem))
      (fun hmem ↦ hfirst' (List.mem_cons_of_mem _ hmem)) htail
    exact ⟨by rw [hletter, hrest], hsecond⟩

/-- The session binding determines the account and the session. -/
theorem sessionBinding_injective (hd : d.Distinct) {userId other : UserId} {token token' : Token}
    (h : sessionBinding d userId token = sessionBinding d other token') :
    userId = other ∧ token = token' := by
  have htext : d.str userId ++ ":" ++ d.encoded token = d.str other ++ ":" ++ d.encoded token' :=
    hd.sha256_injective h
  have hlist : (d.str userId).toList ++ ':' :: (d.encoded token).toList =
      (d.str other).toList ++ ':' :: (d.encoded token').toList := by
    have hchars := congrArg String.toList htext
    have hcolon : ":".toList = [':'] := rfl
    simpa only [String.toList_append, List.append_assoc, hcolon, List.singleton_append] using hchars
  obtain ⟨hid, htoken⟩ := split_at_separator (hd.str_plain userId) (hd.str_plain other) hlist
  exact ⟨hd.str_injective (String.toList_inj.mp hid),
    hd.encoded_injective (String.toList_inj.mp htoken)⟩

/-- A random text is never taken for a link state. -/
theorem isLinkState_of_urlsafe {text : String} (h : text.toList.all isUrlsafe = true) :
    isLinkState text = false := by
  by_contra hlink
  have hpre : linkStatePrefix.toList <+: text.toList :=
    List.isPrefixOf_iff_prefix.mp (Bool.not_eq_false _ ▸ hlink)
  have hdot : '.' ∈ text.toList := hpre.subset (by decide)
  have hsafe := List.all_eq_true.mp h '.' hdot
  exact absurd hsafe (by decide)

theorem isLinkState_append (text : String) : isLinkState (linkStatePrefix ++ text) = true := by
  refine List.isPrefixOf_iff_prefix.mpr ⟨text.toList, ?_⟩
  rw [String.toList_append]

/-! ### What the journal says of a request -/

/-- The session was valid for the request: its key existed, its token was current, and its account
was active and enrolled with no password change due, each of it when the request looked. -/
structure ValidSession (d : Deployment) (h : History) (w : ℕ) (token : Token) (user : AdminUser) :
    Prop where
  stored : h.Found w (.account (.existsSession token)) fun s ↦
    s.accounts.sessions.user token ≠ none
  current : h.Found w (.account .clock) fun s ↦ token.isCurrent d.accounts s.accounts.now = true
  account : h.Found w (.account (.getUserById token.sub)) fun s ↦
    s.accounts.userById token.sub = some user
  active : user.isActive = true
  enrolled : user.totpEnabled = true
  settled : user.mustChangePassword = false

/-- The state is a login state of a browser with the cookie. -/
structure LoginStart (d : Deployment) (h : History) (w : ℕ) (state : String) (stored : Stored)
    (cookie : String) : Prop where
  received : h.now.received w = some .authorize
  purpose : stored.purpose = some .login
  binding : stored.binding = some (browserBinding d cookie)
  cookie : ⟨w, .cookie, cookie⟩ ∈ h.now.drawn
  state : ⟨w, .state, state⟩ ∈ h.now.drawn

/-- The state is a link state of a session that was valid when it was started. -/
structure LinkStart (d : Deployment) (h : History) (w : ℕ) (state : String) (stored : Stored)
    (token : Token) : Prop where
  received : ∃ csrfToken owCsrf, h.now.received w = some (.link (some token) csrfToken owCsrf)
  session : ∃ user, ValidSession d h w token user
  purpose : stored.purpose = some .link
  binding : stored.binding = some (sessionBinding d token.sub token)
  state : ∃ text, ⟨w, .state, text⟩ ∈ h.now.drawn ∧ state = linkStatePrefix ++ text

def Started (d : Deployment) (h : History) (w : ℕ) (state : String) (stored : Stored) : Prop :=
  (∃ cookie, LoginStart d h w state stored cookie) ∨ ∃ token, LinkStart d h w state stored token

/-- The provider has vouched for the identity to the request. -/
def Delivered (h : History) (w : ℕ) (identity : Claims) : Prop :=
  ∃ code codeVerifier nonce, h.Answered w (.fetchClaims code codeVerifier nonce) (some identity)

/-- A link flow that request `v` started and request `w` finished, both with the same valid session,
and that the provider has vouched for the identity in. -/
structure LinkFlow (d : Deployment) (h : History) (token : Token) (state : String) (v w : ℕ)
    (identity : Claims) : Prop where
  received : ∃ csrfToken owCsrf, h.now.received v = some (.link (some token) csrfToken owCsrf)
  session : ∃ user, ValidSession d h v token user
  started : ∃ stored, h.Did v (.setState state stored)
  callback : ∃ query, h.now.received w = some (.callback query) ∧ query.state = some state ∧
    query.session = some token
  callbackSession : ∃ user, ValidSession d h w token user
  redeemed : h.Found w (.getdelState state .link) fun s ↦ s.states state ≠ none
  delivered : Delivered h w identity

/-- A login flow that request `v` started by setting a cookie, and that request `w` finished with
that cookie, for the account that the provider's identity is linked to. -/
structure LoginFlow (h : History) (cookie state : String) (v w : ℕ) (account : UserId) : Prop where
  received : h.now.received v = some .authorize
  cookieSet : (v, cookie) ∈ h.now.cookies
  started : ∃ stored, h.Did v (.setState state stored)
  callback : ∃ query, h.now.received w = some (.callback query) ∧ query.state = some state ∧
    query.browser = some cookie
  redeemed : h.Found w (.getdelState state .login) fun s ↦ s.states state ≠ none
  linked : ∃ identity user, Delivered h w identity ∧
    h.Answered w (.getUserByOidcSub identity.sub identity.iss) (some user) ∧ user.id = account

/-- A link flow of the account has verified the subject. -/
def Vouched (d : Deployment) (h : History) (account : UserId) (sub : String) : Prop :=
  ∃ token state v w, token.sub = account ∧ LinkFlow d h token state v w ⟨sub, d.issuer⟩

/-! ### The identity columns -/

namespace Server

def subOf (s : Server) (account : UserId) : Option String :=
  (s.accounts.userById account).bind AdminUser.oidcSub

def issuerOf (s : Server) (account : UserId) : Option String :=
  (s.accounts.userById account).bind AdminUser.oidcIssuer

/-- The account is linked to an identity of the provider. -/
def Linked (s : Server) (account : UserId) (identity : Claims) : Prop :=
  s.subOf account = some identity.sub ∧ s.issuerOf account = some identity.iss

end Server

/-- What a subject column may have become: itself, empty, or what a link flow has verified. -/
def SubFrom (d : Deployment) (h : History) (account : UserId) (loaded now : Option String) : Prop :=
  now = loaded ∨ now = none ∨ ∃ sub, now = some sub ∧ Vouched d h account sub

def IssuerFrom (d : Deployment) (loaded now : Option String) : Prop :=
  now = loaded ∨ now = none ∨ now = some d.issuer

/-! ### The invariant -/

/-- The request goes on to the second factor of the account: where it is a callback, as the end of a
login flow. -/
def GoesOn (h : History) (w : ℕ) (account : UserId) : Prop :=
  ∃ request, h.now.received w = some request ∧ ∀ query, request = .callback query →
    ∃ cookie state v, LoginFlow h cookie state v w account

/-- What must have happened before worker `w` performs an operation on the shared state `s`. -/
def Justified (d : Deployment) (h : History) (w : ℕ) (s : Server) : Op → Prop
  | .setState state stored => Started d h w state stored
  | .getdelState state purpose => ∀ stored, s.states state = some stored →
    stored.purpose = some purpose ∧ ∃ v, h.Did v (.setState state stored)
  | .linkIdentity loaded sub issuer =>
    issuer = d.issuer ∧
    (∃ token state v, token.sub = loaded.id ∧ LinkFlow d h token state v w ⟨sub, issuer⟩) ∧
    SubFrom d h loaded.id loaded.oidcSub (s.subOf loaded.id) ∧
    IssuerFrom d loaded.oidcIssuer (s.issuerOf loaded.id)
  | .account (.commit loaded changed _) =>
    changed.oidcSub = loaded.oidcSub ∧ changed.oidcIssuer = loaded.oidcIssuer
  | .account (.setTotpPending _ account) => GoesOn h w account
  | .account (.setTotpSetup _ account) => GoesOn h w account
  | _ => True

/-- No GETDEL has found the state so far. -/
def Unspent (h : History) (state : String) : Prop :=
  ∀ entry ∈ h.past, (∃ purpose, entry.operation = .getdelState state purpose) →
    entry.before.states state = none

/-- The invariant of the flows. -/
structure Sound (d : Deployment) (h : History) : Prop where
  unique : ∀ draw ∈ h.now.drawn, ∀ other ∈ h.now.drawn, draw.text = other.text → draw = other
  urlsafe : ∀ draw ∈ h.now.drawn, draw.text.toList.all isUrlsafe = true
  presented : ∀ w request cookie, h.now.received w = some request →
    request.browser = some cookie → cookie ∈ h.now.presented
  known : ∀ w request cookie v, h.now.received w = some request →
    request.browser = some cookie → ⟨v, .cookie, cookie⟩ ∈ h.now.drawn →
      ∃ u, (u, cookie) ∈ h.now.cookies
  cookies : ∀ v cookie, (v, cookie) ∈ h.now.cookies → ⟨v, .cookie, cookie⟩ ∈ h.now.drawn
  states : ∀ state stored, h.now.states state = some stored →
    (∃ v, h.Did v (.setState state stored)) ∧ Unspent h state
  justified : ∀ entry ∈ h.past, Justified d h entry.worker entry.before entry.operation

/-! ### Growing -/

/-- What was done, received, drawn and set stays so. -/
structure Grows (h t : History) : Prop where
  past : ∀ entry ∈ h.past, entry ∈ t.past
  received : ∀ w request, h.now.received w = some request → t.now.received w = some request
  drawn : ∀ draw ∈ h.now.drawn, draw ∈ t.now.drawn
  cookies : ∀ cookie ∈ h.now.cookies, cookie ∈ t.now.cookies

variable {h t u : History} {w : ℕ}

theorem Grows.refl (h : History) : Grows h h :=
  ⟨fun _ hmem ↦ hmem, fun _ _ hreceived ↦ hreceived, fun _ hmem ↦ hmem, fun _ hmem ↦ hmem⟩

theorem Grows.trans (hht : Grows h t) (htu : Grows t u) : Grows h u where
  past entry hmem := htu.past entry (hht.past entry hmem)
  received v request hreceived := htu.received v request (hht.received v request hreceived)
  drawn draw hmem := htu.drawn draw (hht.drawn draw hmem)
  cookies cookie hmem := htu.cookies cookie (hht.cookies cookie hmem)

theorem ValidSession.grows {token : Token} {user : AdminUser}
    (hvalid : ValidSession d h w token user) (hgrows : Grows h t) :
    ValidSession d t w token user where
  stored := hvalid.stored.later hgrows.past
  current := hvalid.current.later hgrows.past
  account := hvalid.account.later hgrows.past
  active := hvalid.active
  enrolled := hvalid.enrolled
  settled := hvalid.settled

theorem LoginStart.grows {state cookie : String} {stored : Stored}
    (hstart : LoginStart d h w state stored cookie) (hgrows : Grows h t) :
    LoginStart d t w state stored cookie where
  received := hgrows.received w _ hstart.received
  purpose := hstart.purpose
  binding := hstart.binding
  cookie := hgrows.drawn _ hstart.cookie
  state := hgrows.drawn _ hstart.state

theorem LinkStart.grows {state : String} {stored : Stored} {token : Token}
    (hstart : LinkStart d h w state stored token) (hgrows : Grows h t) :
    LinkStart d t w state stored token where
  received := by
    obtain ⟨csrfToken, owCsrf, hreceived⟩ := hstart.received
    exact ⟨csrfToken, owCsrf, hgrows.received w _ hreceived⟩
  session := by
    obtain ⟨user, hvalid⟩ := hstart.session
    exact ⟨user, hvalid.grows hgrows⟩
  purpose := hstart.purpose
  binding := hstart.binding
  state := by
    obtain ⟨text, hdrawn, hstate⟩ := hstart.state
    exact ⟨text, hgrows.drawn _ hdrawn, hstate⟩

theorem Started.grows {state : String} {stored : Stored} (hstarted : Started d h w state stored)
    (hgrows : Grows h t) : Started d t w state stored := by
  rcases hstarted with ⟨cookie, hlogin⟩ | ⟨token, hlink⟩
  · exact .inl ⟨cookie, hlogin.grows hgrows⟩
  · exact .inr ⟨token, hlink.grows hgrows⟩

theorem Delivered.grows {identity : Claims} (hdelivered : Delivered h w identity)
    (hgrows : Grows h t) : Delivered t w identity := by
  obtain ⟨code, codeVerifier, nonce, hanswered⟩ := hdelivered
  exact ⟨code, codeVerifier, nonce, hanswered.later hgrows.past⟩

theorem LinkFlow.grows {token : Token} {state : String} {v : ℕ} {identity : Claims}
    (hflow : LinkFlow d h token state v w identity) (hgrows : Grows h t) :
    LinkFlow d t token state v w identity where
  received := by
    obtain ⟨csrfToken, owCsrf, hreceived⟩ := hflow.received
    exact ⟨csrfToken, owCsrf, hgrows.received v _ hreceived⟩
  session := by
    obtain ⟨user, hvalid⟩ := hflow.session
    exact ⟨user, hvalid.grows hgrows⟩
  started := by
    obtain ⟨stored, hdid⟩ := hflow.started
    exact ⟨stored, hdid.later hgrows.past⟩
  callback := by
    obtain ⟨query, hreceived, hquery⟩ := hflow.callback
    exact ⟨query, hgrows.received w _ hreceived, hquery⟩
  callbackSession := by
    obtain ⟨user, hvalid⟩ := hflow.callbackSession
    exact ⟨user, hvalid.grows hgrows⟩
  redeemed := hflow.redeemed.later hgrows.past
  delivered := hflow.delivered.grows hgrows

theorem LoginFlow.grows {cookie state : String} {v : ℕ} {account : UserId}
    (hflow : LoginFlow h cookie state v w account) (hgrows : Grows h t) :
    LoginFlow t cookie state v w account where
  received := hgrows.received v _ hflow.received
  cookieSet := hgrows.cookies _ hflow.cookieSet
  started := by
    obtain ⟨stored, hdid⟩ := hflow.started
    exact ⟨stored, hdid.later hgrows.past⟩
  callback := by
    obtain ⟨query, hreceived, hquery⟩ := hflow.callback
    exact ⟨query, hgrows.received w _ hreceived, hquery⟩
  redeemed := hflow.redeemed.later hgrows.past
  linked := by
    obtain ⟨identity, user, hdelivered, hanswered, hid⟩ := hflow.linked
    exact ⟨identity, user, hdelivered.grows hgrows, hanswered.later hgrows.past, hid⟩

theorem Vouched.grows {account : UserId} {sub : String} (hvouched : Vouched d h account sub)
    (hgrows : Grows h t) : Vouched d t account sub := by
  obtain ⟨token, state, v, w, haccount, hflow⟩ := hvouched
  exact ⟨token, state, v, w, haccount, hflow.grows hgrows⟩

theorem SubFrom.grows {account : UserId} {loaded now : Option String}
    (hsub : SubFrom d h account loaded now) (hgrows : Grows h t) :
    SubFrom d t account loaded now := by
  rcases hsub with hsame | hnone | ⟨sub, hnow, hvouched⟩
  · exact .inl hsame
  · exact .inr (.inl hnone)
  · exact .inr (.inr ⟨sub, hnow, hvouched.grows hgrows⟩)

theorem SubFrom.trans {account : UserId} {first second third : Option String}
    (hfirst : SubFrom d h account first second) (hsecond : SubFrom d h account second third) :
    SubFrom d h account first third := by
  rcases hsecond with rfl | hnone | hvouched
  · exact hfirst
  · exact .inr (.inl hnone)
  · exact .inr (.inr hvouched)

theorem IssuerFrom.trans {first second third : Option String}
    (hfirst : IssuerFrom d first second) (hsecond : IssuerFrom d second third) :
    IssuerFrom d first third := by
  rcases hsecond with rfl | hnone | hissuer
  · exact hfirst
  · exact .inr (.inl hnone)
  · exact .inr (.inr hissuer)

theorem GoesOn.grows {account : UserId} (hgoes : GoesOn h w account) (hgrows : Grows h t) :
    GoesOn t w account := by
  obtain ⟨request, hreceived, hflow⟩ := hgoes
  refine ⟨request, hgrows.received w request hreceived, fun query hquery ↦ ?_⟩
  obtain ⟨cookie, state, v, hlogin⟩ := hflow query hquery
  exact ⟨cookie, state, v, hlogin.grows hgrows⟩

/-- What was justified stays justified. -/
theorem Justified.grows {s : Server} {operation : Op} (hjustified : Justified d h w s operation)
    (hgrows : Grows h t) : Justified d t w s operation := by
  cases operation with
  | setState state stored => exact Started.grows hjustified hgrows
  | getdelState state purpose =>
    intro stored hstored
    obtain ⟨hpurpose, v, hdid⟩ := hjustified stored hstored
    exact ⟨hpurpose, v, hdid.later hgrows.past⟩
  | linkIdentity loaded sub issuer =>
    obtain ⟨hissuer, ⟨token, state, v, haccount, hflow⟩, hsub, hfrom⟩ := hjustified
    exact ⟨hissuer, ⟨token, state, v, haccount, hflow.grows hgrows⟩, hsub.grows hgrows, hfrom⟩
  | account operation =>
    cases operation with
    | setTotpPending tempToken account => exact GoesOn.grows hjustified hgrows
    | setTotpSetup tempToken account => exact GoesOn.grows hjustified hgrows
    | _ => exact hjustified
  | _ => trivial

/-! ### What the others may do -/

/-- What the other requests may do while worker `w` waits. -/
structure Moves (d : Deployment) (w : ℕ) (h t : History) : Prop extends Grows h t where
  sets : ∀ state stored, t.Did w (.setState state stored) → h.Did w (.setState state stored)
  own : t.now.received w = h.now.received w
  sub : ∀ account, SubFrom d t account (h.now.subOf account) (t.now.subOf account)
  issuer : ∀ account, IssuerFrom d (h.now.issuerOf account) (t.now.issuerOf account)

theorem Moves.refl (d : Deployment) (w : ℕ) (h : History) : Moves d w h h where
  toGrows := Grows.refl h
  sets _ _ hdid := hdid
  own := rfl
  sub _ := .inl rfl
  issuer _ := .inl rfl

theorem Moves.trans (hht : Moves d w h t) (htu : Moves d w t u) : Moves d w h u where
  toGrows := hht.toGrows.trans htu.toGrows
  sets state stored hdid := hht.sets state stored (htu.sets state stored hdid)
  own := htu.own.trans hht.own
  sub account := ((hht.sub account).grows htu.toGrows).trans (htu.sub account)
  issuer account := (hht.issuer account).trans (htu.issuer account)

end OpenWhistle.Sso
