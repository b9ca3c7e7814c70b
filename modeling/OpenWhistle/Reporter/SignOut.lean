import OpenWhistle.Foundation.Contract
import OpenWhistle.Reporter.Expiry

/-!
# Replies and a sign-out of one status session

Several replies are sent with the cookie of one session, perhaps by a double click, and the reporter
may sign out meanwhile. A reply deletes the key it came with only after it has set a fresh one, and
nothing tells it that the session is over by then. So a sign-out may find the fresh key set already,
and delete the old one only; or the fresh key is set after it. And a second reply may ask for the time
that is left when the first one has deleted the key: it then keeps the reporter signed in for one
second. Where neither happens, a sign-out leaves no key of the session, and the key that the browser
was given last is there for what was left of the two hours.

An answered sign-out has ended the session whatever became of the other requests. The key that the
browser holds is there when all requests have been answered: a reply that ends with an exception once it
has deleted its key sends no cookie, so the browser is left with the deleted key, and the fresh one is
there without a holder.

The contract has two halves. While nobody signs out, `SignedIn` carries the second one; otherwise
`SignedOut` carries the first one.
-/

set_option autoImplicit false
set_option relaxedAutoImplicit false

namespace OpenWhistle.Reporter

open Interleaving

variable {Hash : Type} (site : Site Hash) (session : String)

/-- A key descends from the session. -/
def Descends (s : Reception site) (key : String) : Prop :=
  (s.line key).map Line.first = some (statusSessionKey site session)

instance (s : Reception site) (key : String) : Decidable (Descends site session s key) :=
  inferInstanceAs (Decidable (_ = _))

/-- A sign-out comes with a key of the session and finds no other one, and no reply sets a fresh key
after it. -/
def SignsOutAlone (_ : ℕ) : Op → Reception site → Prop
  | .renewSession _ _ _ _, s => statusSessionKey site session ∉ s.signedOut
  | .deleteSession token true, s => Descends site session s (statusSessionKey site token) ∧
      ∀ key ∈ s.drawn, Descends site session s key → key ≠ statusSessionKey site token →
        Redis.find s.redis s.now key = none
  | _, _ => True

instance (w : ℕ) (operation : Op) (s : Reception site) :
    Decidable (SignsOutAlone site session w operation s) :=
  match operation with
  | .renewSession _ _ _ _ => inferInstanceAs (Decidable (_ ∉ _))
  | .deleteSession _ true => inferInstanceAs (Decidable (_ ∧ ∀ _ ∈ _, _))
  | .getSession _ | .getReportById _ | .authenticate _ _ | .tokenUrlsafe | .openSession _ _
  | .addMessage _ _ | .sessionTtl _ | .deleteSession _ false | .setCookie _ => isTrue trivial

/-- A reply asks how long its key has left before another one deletes it. -/
def AsksInTime (_ : ℕ) : Op → Reception site → Prop
  | .sessionTtl token, s => s.removedBy (statusSessionKey site token) = none
  | _, _ => True

instance (w : ℕ) (operation : Op) (s : Reception site) :
    Decidable (AsksInTime site w operation s) :=
  match operation with
  | .sessionTtl _ => inferInstanceAs (Decidable (_ = _))
  | .getSession _ | .getReportById _ | .authenticate _ _ | .tokenUrlsafe | .openSession _ _
  | .addMessage _ _ | .renewSession _ _ _ _ | .deleteSession _ _ | .setCookie _ => isTrue trivial

/-- The requests of a browser that is in the session. The reply form has no fields for a case number
and a PIN. -/
def Request.FromSession : Request → Prop
  | .statusGet _ => True
  | .statusPost _ _ => False
  | .reply cookie _ caseNumber pin => cookie = some session ∧ (caseNumber = "" ∨ pin = "")
  | .logout _ => True

/-! ### The invariant -/

variable {site session} {expires : ℕ} {stays : Prop} {s t u : Reception site} {w : ℕ}

structure Rooted (site : Site Hash) (session : String) (s : Reception site) : Prop where
  first : Descends site session s (statusSessionKey site session)
  drawn : ∀ key, Descends site session s key → key ∈ s.drawn

/-- Once the reporter has signed out, no key of the session is there. -/
def SignedOut (site : Site Hash) (session : String) (s : Reception site) : Prop :=
  statusSessionKey site session ∈ s.signedOut → ∀ key, Descends site session s key →
    Redis.find s.redis s.now key = none

/-- The session's own key is there until a reply deletes it, and a fresh key as long as that one would
have been, up to a second. -/
structure SignedIn (site : Site Hash) (session : String) (expires : ℕ) (s : Reception site) :
    Prop where
  gone : s.redis (statusSessionKey site session) = none →
    s.removedBy (statusSessionKey site session) ≠ none
  entry : ∀ e, s.redis (statusSessionKey site session) = some e →
    e.expiresAt = some expires
  fresh : ∀ key, Descends site session s key → key ≠ statusSessionKey site session →
    ∃ e time, s.redis key = some e ∧ e.expiresAt = some time ∧ expires ≤ time + 1000
  cookies : ∀ cookie ∈ s.cookies, ∃ token, cookie = some token ∧
    statusSessionKey site token ≠ statusSessionKey site session ∧
    Descends site session s (statusSessionKey site token)

/-- What worker `w` may rely on. -/
structure Around (site : Site Hash) (session : String) (w : ℕ) (s t : Reception site) : Prop where
  now : s.now ≤ t.now
  drawn : ∀ key ∈ s.drawn, key ∈ t.drawn
  line : ∀ key, Descends site session s key → Descends site session t key
  removedBy : t.removedBy (statusSessionKey site session) = some w →
    s.removedBy (statusSessionKey site session) = some w
  signedOut : statusSessionKey site session ∈ s.signedOut →
    statusSessionKey site session ∈ t.signedOut
  cookies : s.cookies ≠ [] → t.cookies ≠ []

theorem Around.refl (w : ℕ) (s : Reception site) : Around site session w s s :=
  ⟨le_rfl, fun _ h ↦ h, fun _ h ↦ h, fun h ↦ h, fun h ↦ h, fun h ↦ h⟩

theorem Around.trans (hst : Around site session w s t) (htu : Around site session w t u) :
    Around site session w s u where
  now := hst.now.trans htu.now
  drawn key h := htu.drawn key (hst.drawn key h)
  line key h := htu.line key (hst.line key h)
  removedBy h := hst.removedBy (htu.removedBy h)
  signedOut h := htu.signedOut (hst.signedOut h)
  cookies h := htu.cookies (hst.cookies h)

/-- The state as far as the session is concerned. -/
structure Sound (site : Site Hash) (session : String) (expires : ℕ) (stays : Prop)
    (s : Reception site) : Prop where
  rooted : Rooted site session s
  signedOut : ¬stays → SignedOut site session s
  signedIn : stays → SignedIn site session expires s

/-! ### What leaves the session alone -/

/-- Time passes, keys are drawn, and nothing else happens to a session. -/
structure Quiet (s t : Reception site) : Prop where
  now : s.now ≤ t.now
  drawn : ∀ key ∈ s.drawn, key ∈ t.drawn
  redis : t.redis = s.redis
  line : t.line = s.line
  removedBy : t.removedBy = s.removedBy
  signedOut : t.signedOut = s.signedOut
  cookies : t.cookies = s.cookies

namespace Quiet

theorem descends (h : Quiet s t) (key : String) :
    Descends site session t key ↔ Descends site session s key := by
  unfold Descends
  rw [h.line]

theorem around (h : Quiet s t) (w : ℕ) : Around site session w s t where
  now := h.now
  drawn := h.drawn
  line key := (h.descends key).mpr
  removedBy := by rw [h.removedBy]; exact fun h ↦ h
  signedOut := by rw [h.signedOut]; exact fun h ↦ h
  cookies := by rw [h.cookies]; exact fun h ↦ h

theorem sound (h : Quiet s t) (hsound : Sound site session expires stays s) :
    Sound site session expires stays t := by
  refine ⟨⟨(h.descends _).mpr hsound.rooted.first, fun key hkey ↦ ?_⟩, fun hstays hsigned key hkey ↦ ?_,
    fun hstays ↦ ?_⟩
  · exact h.drawn key (hsound.rooted.drawn key ((h.descends key).mp hkey))
  · rw [h.signedOut] at hsigned
    rw [h.redis]
    exact Redis.find_eq_none_of_find (hsound.signedOut hstays hsigned key ((h.descends key).mp hkey))
      h.now
  · have hin := hsound.signedIn hstays
    refine ⟨?_, ?_, fun key hkey hne ↦ ?_, fun cookie hcookie ↦ ?_⟩
    · rw [h.redis, h.removedBy]
      exact hin.gone
    · rw [h.redis]
      exact hin.entry
    · rw [h.redis]
      exact hin.fresh key ((h.descends key).mp hkey) hne
    · rw [h.cookies] at hcookie
      obtain ⟨token, heq, hne, hline⟩ := hin.cookies cookie hcookie
      exact ⟨token, heq, hne, (h.descends _).mpr hline⟩

end Quiet

theorem quiet_environment {change : Change site} (hchange : environment site change s = some t) :
    Quiet s t := by
  cases change with
  | tick milliseconds =>
    cases hchange
    exact ⟨Nat.le_add_right _ _, fun _ h ↦ h, rfl, rfl, rfl, rfl, rfl⟩
  | office db =>
    cases hchange
    exact ⟨le_rfl, fun _ h ↦ h, rfl, rfl, rfl, rfl, rfl⟩

/-! ### The contract -/

def oneSession (site : Site Hash) (session : String) (expires : ℕ) (stays : Prop) :
    Contract (semantics site) Request Response where
  invariant := Sound site session expires stays
  rely := Around site session
  rely_refl := Around.refl
  rely_trans _ _ _ _ := Around.trans
  idle w s := s.removedBy (statusSessionKey site session) ≠ some w
  idle_stable _ _ _ h haround _ hremoved := h (haround.removedBy hremoved)
  ends w := Returns fun _ s ↦ s.removedBy (statusSessionKey site session) = some w → s.cookies ≠ []
  ends_stable := by
    intro w result s t h haround _
    cases result with
    | ok response => exact fun hremoved ↦ haround.cookies (h (haround.removedBy hremoved))
    | error exception => trivial
  admits request := request.FromSession session ∧ (stays → ∀ cookie, request ≠ .logout cookie)
  allows w operation s := (¬stays → SignsOutAlone site session w operation s) ∧
    (stays → AsksInTime site w operation s)
  trusts _ _ _ := True
  tolerates _ _ := True
  environment_safe _ _ _ hsound _ hchange :=
    ⟨(quiet_environment hchange).sound hsound, (quiet_environment hchange).around⟩

/-- One operation, and what it promises when it is answered. -/
theorem session_call {operation : Op} {promise : Reply site operation → Reception site → Prop}
    (h : ∀ t, Around site session w s t → Sound site session expires stays t →
      (¬stays → SignsOutAlone site session w operation t) →
      (stays → AsksInTime site w operation t) →
      ∀ draw reply u, perform site w operation draw t = some (reply, u) →
        Sound site session expires stays u ∧ (∀ v, v ≠ w → Around site session v t u) ∧
          ∀ value, reply = .ok value → promise value u) :
    Safe (oneSession site session expires stays) w (Returns promise) (call site operation) s := by
  refine Safe.call fun t haround hsound ↦
    ⟨fun _ ↦ trivial, fun hallows draw reply u hperform ↦ ?_⟩
  obtain ⟨hsound', hothers, hpromise⟩ :=
    h t haround hsound hallows.1 hallows.2 draw reply u hperform
  refine ⟨hsound', hothers, fun _ ↦ ?_, fun _ ↦ trivial⟩
  cases reply with
  | ok value => exact hpromise value rfl
  | error exception => trivial

/-- The operations that leave the session alone. -/
theorem session_quiet {operation : Op} {promise : Reply site operation → Reception site → Prop}
    (h : ∀ t, Around site session w s t → Sound site session expires stays t →
      (stays → AsksInTime site w operation t) →
      ∀ draw reply u, perform site w operation draw t = some (reply, u) →
        Quiet t u ∧ ∀ value, reply = .ok value → promise value u) :
    Safe (oneSession site session expires stays) w (Returns promise) (call site operation) s := by
  refine session_call fun t haround hsound _ hasks draw reply u hperform ↦ ?_
  obtain ⟨hquiet, hpromise⟩ := h t haround hsound hasks draw reply u hperform
  exact ⟨hquiet.sound hsound, fun v _ ↦ hquiet.around v, hpromise⟩

/-! ### The operations of a reply -/

/-- Worker `w` has not deleted the session's key. -/
def Waiting (site : Site Hash) (session : String) (w : ℕ) (s : Reception site) : Prop :=
  s.removedBy (statusSessionKey site session) ≠ some w

theorem Waiting.around (h : Waiting site session w s) (haround : Around site session w s t) :
    Waiting site session w t :=
  fun hremoved ↦ h (haround.removedBy hremoved)

/-- The operations before a reply moves its session. -/
theorem session_waiting {operation : Op}
    (hquiet : ∀ t draw reply u, perform site w operation draw t = some (reply, u) → Quiet t u)
    (h : Waiting site session w s) :
    Safe (oneSession site session expires stays) w (Returns fun _ t ↦ Waiting site session w t)
      (call site operation) s := by
  refine session_quiet fun t haround _ _ draw reply u hperform ↦ ?_
  have hquiet' := hquiet t draw reply u hperform
  exact ⟨hquiet', fun _ _ ↦ h.around (haround.trans (hquiet'.around w))⟩

theorem quiet_getSession {token draw : String} {reply : Except Fault (Option String)}
    (hperform : perform site w (.getSession token) draw s = some (reply, t)) : Quiet s t := by
  cases hperform
  exact ⟨le_rfl, fun _ h ↦ h, rfl, rfl, rfl, rfl, rfl⟩

theorem quiet_getReportById {id draw : String} {reply : Except Fault (Option (Case site.pins))}
    (hperform : perform site w (.getReportById id) draw s = some (reply, t)) : Quiet s t := by
  cases hperform
  exact ⟨le_rfl, fun _ h ↦ h, rfl, rfl, rfl, rfl, rfl⟩

theorem quiet_addMessage {reportId content draw : String} {reply : Except Fault Unit}
    (hperform : perform site w (.addMessage reportId content) draw s = some (reply, t)) :
    Quiet s t := by
  cases hperform
  exact ⟨le_rfl, fun _ h ↦ h, rfl, rfl, rfl, rfl, rfl⟩

/-- That many seconds from now on are what is left of the session, up to a second. -/
def LongEnough (expires seconds : ℕ) (s : Reception site) : Prop :=
  expires ≤ s.now + 1000 * seconds + 1000

theorem LongEnough.later {seconds : ℕ} (h : LongEnough expires seconds s) (hnow : s.now ≤ t.now) :
    LongEnough expires seconds t := by
  unfold LongEnough at h ⊢
  omega

theorem session_sessionTtl :
    Safe (oneSession site session expires stays) w
      (Returns fun left t ↦ stays → LongEnough expires (max 1 left).toNat t)
      (call site (.sessionTtl session)) s := by
  refine session_quiet fun t haround hsound hasks draw reply u hperform ↦ ?_
  cases hperform
  refine ⟨⟨le_rfl, fun _ h ↦ h, rfl, rfl, rfl, rfl, rfl⟩, fun left hleft hstays ↦ ?_⟩
  cases hleft
  have hin := hsound.signedIn hstays
  obtain ⟨e, he⟩ := Option.ne_none_iff_exists'.mp (mt hin.gone (not_not.mpr (hasks hstays)))
  have hleft : expires ≤ t.now +
      1000 * (max 1 (Redis.ttl t.redis t.now (statusSessionKey site session))).toNat + 500 :=
    Redis.le_ttl he (hin.entry e he)
  unfold LongEnough
  dsimp only
  omega

theorem session_tokenUrlsafe {seconds : ℕ} (hlong : stays → LongEnough expires seconds s) :
    Safe (oneSession site session expires stays) w
      (Returns fun fresh t ↦ (stays → LongEnough expires seconds t) ∧
        statusSessionKey site fresh ∈ t.drawn ∧
        statusSessionKey site fresh ≠ statusSessionKey site session)
      (call site .tokenUrlsafe) s := by
  refine session_quiet fun t haround hsound _ draw reply u hperform ↦ ?_
  obtain ⟨hunused, heq⟩ := Option.ite_none_left_eq_some.mp hperform
  cases heq
  have hquiet : Quiet t
      { t with
        drawn := statusSessionKey site draw :: t.drawn
        heldBy := Function.update t.heldBy (statusSessionKey site draw) (some w) } :=
    ⟨le_rfl, fun _ h ↦ List.mem_cons_of_mem _ h, rfl, rfl, rfl, rfl, rfl⟩
  refine ⟨hquiet, fun fresh hfresh ↦ ⟨fun hstays ↦ ?_, ?_, ?_⟩⟩
  · exact ((hlong hstays).later haround.now).later hquiet.now
  · cases hfresh
    exact List.mem_cons_self
  · cases hfresh
    intro heq
    rw [heq] at hunused
    exact hunused (hsound.rooted.drawn _ hsound.rooted.first)

/-- What the SET of a fresh key makes of the lines. -/
theorem descends_renewSession {fresh reportId : String} {seconds : ℕ}
    (hfirst : Descends site session s (statusSessionKey site session)) (key : String) :
    Descends site session (s.renewSession w (statusSessionKey site session)
      (statusSessionKey site fresh) reportId seconds) key ↔
      key = statusSessionKey site fresh ∨ Descends site session s key := by
  obtain ⟨line, hline, hkey⟩ := Option.map_eq_some_iff.mp hfirst
  have hset : (s.renewSession w (statusSessionKey site session) (statusSessionKey site fresh) reportId
      seconds).line = Function.update s.line (statusSessionKey site fresh)
        ((s.line (statusSessionKey site session)).map fun line ↦
          { line with slipped := line.slipped + s.slip w (statusSessionKey site session) }) := rfl
  unfold Descends
  rw [hset]
  by_cases heq : key = statusSessionKey site fresh
  · rw [heq, Function.update_self, hline]
    exact iff_of_true (congrArg some hkey) (.inl rfl)
  · rw [Function.update_of_ne heq]
    exact ⟨.inr, fun h ↦ h.resolve_left heq⟩

/-- The fresh key is one more key of the session, and it lasts. -/
theorem Sound.renewSession {fresh reportId : String} {seconds : ℕ}
    (h : Sound site session expires stays s) (hdrawn : statusSessionKey site fresh ∈ s.drawn)
    (hne : statusSessionKey site fresh ≠ statusSessionKey site session)
    (hlong : stays → LongEnough expires seconds s)
    (hunsigned : ¬stays → statusSessionKey site session ∉ s.signedOut) :
    Sound site session expires stays (s.renewSession w (statusSessionKey site session)
      (statusSessionKey site fresh) reportId seconds) := by
  have hfirst := h.rooted.first
  refine ⟨⟨(descends_renewSession hfirst _).mpr (.inr hfirst), fun key hkey ↦ ?_⟩,
    fun hstays hsigned ↦ absurd hsigned (hunsigned hstays), fun hstays ↦ ?_⟩
  · rcases (descends_renewSession hfirst key).mp hkey with rfl | hold
    · exact hdrawn
    · exact h.rooted.drawn key hold
  have hin := h.signedIn hstays
  have hown : ∀ {key : String}, key ≠ statusSessionKey site fresh →
      (s.renewSession w (statusSessionKey site session) (statusSessionKey site fresh) reportId
        seconds).redis key = s.redis key := fun hkey ↦ Function.update_of_ne hkey ..
  refine ⟨fun hgone ↦ ?_, fun e he ↦ ?_, fun key hkey hkey' ↦ ?_, fun cookie hcookie ↦ ?_⟩
  · rw [hown hne.symm] at hgone
    show Function.update s.removedBy _ none (statusSessionKey site session) ≠ none
    rw [Function.update_of_ne hne.symm]
    exact hin.gone hgone
  · rw [hown hne.symm] at he
    exact hin.entry e he
  · by_cases heq : key = statusSessionKey site fresh
    · rw [heq]
      exact ⟨_, _, Function.update_self .., rfl, hlong hstays⟩
    · rw [hown heq]
      exact hin.fresh key (((descends_renewSession hfirst key).mp hkey).resolve_left heq) hkey'
  · obtain ⟨token, heq, htoken, hline⟩ := hin.cookies cookie hcookie
    exact ⟨token, heq, htoken, (descends_renewSession hfirst _).mpr (.inr hline)⟩

theorem session_renewSession {fresh reportId : String} {seconds : ℕ}
    (hlong : stays → LongEnough expires seconds s)
    (hdrawn : statusSessionKey site fresh ∈ s.drawn)
    (hne : statusSessionKey site fresh ≠ statusSessionKey site session) :
    Safe (oneSession site session expires stays) w
      (Returns fun _ t ↦ Descends site session t (statusSessionKey site fresh))
      (call site (.renewSession session fresh reportId seconds)) s := by
  refine session_call fun t haround hsound halone _ draw reply u hperform ↦ ?_
  cases hperform
  have hfirst := hsound.rooted.first
  refine ⟨hsound.renewSession (haround.drawn _ hdrawn) hne
    (fun hstays ↦ (hlong hstays).later haround.now) halone, fun v _ ↦ ?_, fun _ _ ↦ ?_⟩
  · refine ⟨le_rfl, fun _ h ↦ h, fun key hkey ↦ ?_, fun hremoved ↦ ?_, fun h ↦ h, fun h ↦ h⟩
    · exact (descends_renewSession hfirst key).mpr (.inr hkey)
    · have hsame : Function.update t.removedBy (statusSessionKey site fresh) none
          (statusSessionKey site session) = some v := hremoved
      rw [Function.update_of_ne hne.symm] at hsame
      exact hsame
  · exact (descends_renewSession hfirst _).mpr (.inl rfl)

/-- A DEL changes what is said of its key. -/
theorem around_deleteSession {v : ℕ} (hv : v ≠ w) (key : String) (signsOut : Bool) :
    Around site session v s (s.deleteSession w key signsOut) := by
  refine ⟨le_rfl, fun _ h ↦ h, fun _ h ↦ h, fun hremoved ↦ ?_, fun hsigned ↦ ?_, fun h ↦ h⟩
  · unfold Reception.deleteSession at hremoved
    dsimp only at hremoved
    split at hremoved
    · exact hremoved
    · by_cases heq : statusSessionKey site session = key
      · rw [heq, Function.update_self] at hremoved
        exact absurd (Option.some.inj hremoved).symm hv
      · rw [Function.update_of_ne heq] at hremoved
        exact hremoved
  · unfold Reception.deleteSession
    dsimp only
    split
    · exact List.mem_append_right _ hsigned
    · exact hsigned

/-- A deleted key is gone, and any other as it was. -/
theorem find_deleteSession {key other : String} {signsOut : Bool}
    (h : other = key ∨ Redis.find s.redis s.now other = none) :
    Redis.find (s.deleteSession w key signsOut).redis s.now other = none := by
  unfold Redis.find Reception.deleteSession Redis.delete
  dsimp only
  by_cases heq : other = key
  · rw [heq, Function.update_self]
    rfl
  · rw [Function.update_of_ne heq]
    exact h.resolve_left heq

/-- A reply deletes the session's own key. -/
theorem Sound.moved (h : Sound site session expires stays s) :
    Sound site session expires stays (s.deleteSession w (statusSessionKey site session) false) := by
  refine ⟨⟨h.rooted.first, h.rooted.drawn⟩, fun hstays hsigned key hkey ↦ ?_, fun hstays ↦ ?_⟩
  · exact find_deleteSession (.inr (h.signedOut hstays hsigned key hkey))
  have hin := h.signedIn hstays
  refine ⟨fun _ ↦ ?_, fun e he ↦ ?_, fun key hkey hne ↦ ?_, hin.cookies⟩
  · unfold Reception.deleteSession
    dsimp only
    split
    · rename_i hgone
      exact hin.gone hgone
    · rw [Function.update_self]
      exact Option.some_ne_none w
  · have hgone : Redis.delete s.redis (statusSessionKey site session)
        (statusSessionKey site session) = some e := he
    rw [Redis.delete, Function.update_self] at hgone
    cases hgone
  · obtain ⟨e, time, he, hrest⟩ := hin.fresh key hkey hne
    exact ⟨e, time, (Function.update_of_ne hne ..).trans he, hrest⟩

theorem session_moved {fresh : String}
    (hfresh : Descends site session s (statusSessionKey site fresh)) :
    Safe (oneSession site session expires stays) w
      (Returns fun _ t ↦ Descends site session t (statusSessionKey site fresh))
      (call site (.deleteSession session false)) s := by
  refine session_call fun t haround hsound _ _ draw reply u hperform ↦ ?_
  cases hperform
  exact ⟨hsound.moved, fun v hv ↦ around_deleteSession hv _ _, fun _ _ ↦ haround.line _ hfresh⟩

/-- The browser is given a fresh key, or, when it signs out, none. -/
theorem session_setCookie {cookie : Option String}
    (hcookie : stays → ∃ token, cookie = some token ∧
      statusSessionKey site token ≠ statusSessionKey site session ∧
      Descends site session s (statusSessionKey site token)) :
    Safe (oneSession site session expires stays) w
      (Returns fun _ t ↦ t.cookies ≠ [] ∧ (statusSessionKey site session ∈ s.signedOut →
        statusSessionKey site session ∈ t.signedOut)) (call site (.setCookie cookie)) s := by
  refine session_call fun t haround hsound _ _ draw reply u hperform ↦ ?_
  cases hperform
  refine ⟨⟨⟨hsound.rooted.first, hsound.rooted.drawn⟩, hsound.signedOut, fun hstays ↦ ?_⟩,
    fun v _ ↦ ?_, fun _ _ ↦ ⟨List.cons_ne_nil _ _, haround.signedOut⟩⟩
  · have hin := hsound.signedIn hstays
    refine ⟨hin.gone, hin.entry, hin.fresh, fun other hother ↦ ?_⟩
    rcases List.mem_cons.mp hother with rfl | hold
    · obtain ⟨token, heq, hne, hline⟩ := hcookie hstays
      exact ⟨token, heq, hne, haround.line _ hline⟩
    · exact hin.cookies other hold
  · exact ⟨le_rfl, fun _ h ↦ h, fun _ h ↦ h, fun h ↦ h, fun h ↦ h, fun _ ↦ List.cons_ne_nil _ _⟩

/-- The DEL of a sign-out that finds no other key of the session. -/
theorem session_signOut {token : String} (hleaves : ¬stays) :
    Safe (oneSession site session expires stays) w
      (Returns fun _ t ↦ statusSessionKey site session ∈ t.signedOut)
      (call site (.deleteSession token true)) s := by
  refine session_call fun t haround hsound halone _ draw reply u hperform ↦ ?_
  cases hperform
  obtain ⟨hdescends, hothers⟩ := halone hleaves
  refine ⟨⟨⟨hsound.rooted.first, hsound.rooted.drawn⟩, fun _ _ key hkey ↦ ?_, fun hstays ↦
    absurd hstays hleaves⟩, fun v hv ↦ around_deleteSession hv _ _, fun _ _ ↦ ?_⟩
  · by_cases heq : key = statusSessionKey site token
    · exact find_deleteSession (.inl heq)
    · exact find_deleteSession (.inr (hothers key (hsound.rooted.drawn key hkey) hkey heq))
  · unfold Descends at hdescends
    show _ ∈ ((t.line (statusSessionKey site token)).map Line.first).toList ++ t.signedOut
    rw [hdescends]
    exact List.mem_append_left _ (List.mem_singleton.mpr rfl)

/-! ### The requests -/

/-- How a request of the session ends. -/
theorem session_ends {response : Response} (h : Waiting site session w s) :
    Safe (oneSession site session expires stays) w ((oneSession site session expires stays).ends w)
      (return response) s :=
  Safe.ret fun hremoved ↦ absurd hremoved h

theorem session_moveSession (report : Case site.pins) (location : String) :
    Safe (oneSession site session expires stays) w ((oneSession site session expires stays).ends w)
      (moveSession site session report location) s := by
  refine Safe.andThen session_sessionTtl fun left t hlong ↦ ?_
  refine Safe.andThen (session_tokenUrlsafe hlong) fun fresh t hfresh ↦ ?_
  obtain ⟨hlong, hdrawn, hne⟩ := hfresh
  refine Safe.andThen (session_renewSession hlong hdrawn hne) fun _ t hfresh ↦ ?_
  refine Safe.andThen (session_moved hfresh) fun _ t hfresh ↦ ?_
  refine Safe.andThen (session_setCookie fun _ ↦ ⟨fresh, rfl, hne, hfresh⟩) fun _ t hcookies ↦ ?_
  exact Safe.ret fun _ ↦ hcookies.1

theorem session_acceptReply (report : Case site.pins) (content : String)
    (h : Waiting site session w s) :
    Safe (oneSession site session expires stays) w ((oneSession site session expires stays).ends w)
      (acceptReply site session report content) s := by
  unfold acceptReply
  dsimp only
  generalize Text.strip content = stripped
  by_cases hempty : stripped = ""
  · rw [if_pos hempty]
    exact session_ends h
  rw [if_neg hempty]
  by_cases hlong : maxReply < stripped.toList.length
  · rw [if_pos hlong]
    exact session_ends h
  rw [if_neg hlong]
  by_cases hclosed : report.status = .closed
  · rw [if_pos hclosed]
    exact session_moveSession report _
  · rw [if_neg hclosed]
    exact Safe.andThen (session_waiting (fun _ _ _ _ ↦ quiet_addMessage) h) fun _ t _ ↦
      session_moveSession report _

/-- What a cookie opens is a session of that cookie. -/
theorem session_sessionOf (cookie : Option String) (h : Waiting site session w s) :
    Safe (oneSession site session expires stays) w
      (Returns fun found t ↦ Waiting site session w t ∧
        ∀ opened ∈ found, cookie = some opened.1) (sessionOf site cookie) s := by
  unfold sessionOf
  cases htoken : cookie.filter isSessionKey with
  | none => exact Safe.ret ⟨h, nofun⟩
  | some token =>
    obtain ⟨hcookie, -⟩ := Option.filter_eq_some_iff.mp htoken
    refine Safe.andThen (session_waiting (fun _ _ _ _ ↦ quiet_getSession) h) fun found t hwaiting ↦ ?_
    cases found with
    | none => exact Safe.ret ⟨hwaiting, nofun⟩
    | some id =>
      refine Safe.andThen (session_waiting (fun _ _ _ _ ↦ quiet_getReportById) hwaiting)
        fun report t hwaiting ↦ Safe.ret ⟨hwaiting, fun opened hopened ↦ ?_⟩
      obtain ⟨report, -, rfl⟩ := Option.map_eq_some_iff.mp hopened
      exact hcookie

theorem session_statusGet (cookie : Option String) (h : Waiting site session w s) :
    Safe (oneSession site session expires stays) w ((oneSession site session expires stays).ends w)
      (statusGet site cookie) s :=
  Safe.andThen (session_sessionOf cookie h) fun _ _ hfound ↦ session_ends hfound.1

theorem session_replyRoute {content caseNumber pin : String} (hform : caseNumber = "" ∨ pin = "")
    (h : Waiting site session w s) :
    Safe (oneSession site session expires stays) w ((oneSession site session expires stays).ends w)
      (replyRoute site (some session) content caseNumber pin) s := by
  refine Safe.andThen (session_sessionOf (some session) h) fun found t hfound ↦ ?_
  obtain ⟨hwaiting, hsession⟩ := hfound
  cases found with
  | none =>
    dsimp only
    rw [if_pos hform]
    exact session_ends hwaiting
  | some opened =>
    cases Option.some.inj (hsession opened rfl)
    exact session_acceptReply opened.2 content hwaiting

/-- A sign-out that is answered is one of the session. -/
theorem session_statusLogout (cookie : Option String) (hleaves : ¬stays) :
    Safe (oneSession site session expires stays) w
      (Returns fun _ t ↦ t.cookies ≠ [] ∧ (∀ token ∈ cookie, isSessionKey token = true →
        statusSessionKey site session ∈ t.signedOut)) (statusLogout site cookie) s := by
  have hgiven : ∀ {t : Reception site}, stays → ∃ token, (none : Option String) = some token ∧
      statusSessionKey site token ≠ statusSessionKey site session ∧
      Descends site session t (statusSessionKey site token) := fun hstays ↦ absurd hstays hleaves
  unfold statusLogout
  cases htoken : cookie.filter isSessionKey with
  | none =>
    refine Safe.andThen (session_setCookie hgiven) fun _ t hcookies ↦
      Safe.ret ⟨hcookies.1, fun token hcookie hkey ↦ ?_⟩
    rw [hcookie] at htoken
    exact absurd hkey (Option.filter_eq_none_iff.mp htoken token rfl)
  | some token =>
    refine Safe.andThen (session_signOut hleaves) fun _ t hsigned ↦ ?_
    exact Safe.andThen (session_setCookie hgiven) fun _ u hcookies ↦
      Safe.ret ⟨hcookies.1, fun _ _ _ ↦ hcookies.2 hsigned⟩

theorem session_handles : (oneSession site session expires stays).Handles (handler site) := by
  rintro w request s ⟨hsession, hstays⟩ - hidle
  cases request with
  | statusGet cookie => exact session_statusGet cookie hidle
  | statusPost caseNumber pin => exact hsession.elim
  | reply cookie content caseNumber pin =>
    obtain ⟨rfl, hform⟩ := hsession
    exact session_replyRoute hform hidle
  | logout cookie =>
    have hleaves : ¬stays := fun h ↦ hstays h cookie rfl
    refine Safe.imp (fun result t hresult ↦ ?_) (session_statusLogout cookie hleaves)
    cases result with
    | ok response => exact fun _ ↦ hresult.1
    | error exception => trivial

/-! ### The runs -/

/-- A session of a report that is there until `expires`, in any database, among any other keys. -/
def inSession (site : Site Hash) (session : String) (db : Database site.pins) (redis : Redis.Store)
    (now : ℕ) (drawn : List String) (reportId : String) (expires : ℕ) : Requests site where
  shared :=
    { now := now, db := db, drawn := statusSessionKey site session :: drawn
      redis := Function.update redis (statusSessionKey site session)
        (some ⟨.text reportId, some expires⟩)
      line := Function.update (fun _ ↦ none) (statusSessionKey site session)
        (some ⟨statusSessionKey site session, now, 0⟩)
      ends := Function.update (fun _ ↦ 0) (statusSessionKey site session) expires
      heldBy := fun _ ↦ none, askedAt := fun _ ↦ 0, removedBy := fun _ ↦ none, renewed := []
      signedOut := [], cookies := [] }
  worker _ := none

section Runs

variable {db : Database site.pins} {redis : Redis.Store} {now : ℕ} {drawn : List String}
  {reportId : String}

theorem session_start : (oneSession site session expires stays).Holds
    (inSession site session db redis now drawn reportId expires) := by
  have hline : ∀ key, Descends site session
      (inSession site session db redis now drawn reportId expires).shared key →
        key = statusSessionKey site session := by
    intro key hkey
    by_contra hne
    simp [Descends, inSession, Function.update_of_ne hne] at hkey
  have hfirst : Descends site session
      (inSession site session db redis now drawn reportId expires).shared
        (statusSessionKey site session) := by
    simp [Descends, inSession]
  have hentry : (inSession site session db redis now drawn reportId expires).shared.redis
      (statusSessionKey site session) = some ⟨.text reportId, some expires⟩ := by
    simp [inSession]
  refine Contract.holds_of_idle ⟨⟨hfirst, fun key hkey ↦ ?_⟩, fun _ hsigned ↦ ?_, fun _ ↦ ?_⟩
    (fun _ ↦ (Option.some_ne_none _).symm) fun _ ↦ rfl
  · rw [hline key hkey]
    exact List.mem_cons_self
  · cases hsigned
  · refine ⟨fun hgone ↦ ?_, fun e he ↦ ?_, fun key hkey hne ↦ absurd (hline key hkey) hne, nofun⟩
    · rw [hentry] at hgone
      cases hgone
    · rw [hentry] at he
      cases he
      rfl

/-- A sign-out that is answered leaves no key of the session. -/
theorem no_key_after_a_sign_out {events : List (Step site)} {last : Requests site}
    (hpermits : Meets (semantics site) (handler site) (oneSession site session expires False).Permits
      (inSession site session db redis now drawn reportId expires) events)
    (hrun : run (semantics site) (handler site)
      (inSession site session db redis now drawn reportId expires) events = some last)
    {token : String} {response : Response} (hstart : Event.start w (.logout (some token)) ∈ events)
    (hkey : isSessionKey token = true) (hanswer : last.answer w = some response) :
    ∀ key, Descends site session last.shared key →
      Redis.find last.shared.redis last.shared.now key = none := by
  have hpost : ∀ (result : Except Fault Response) (s t : Reception site),
      Returns (fun _ t ↦ statusSessionKey site session ∈ t.signedOut) result s →
      Around site session w s t → Sound site session expires False t →
      Returns (fun _ t ↦ statusSessionKey site session ∈ t.signedOut) result t := by
    intro result s t h haround _
    cases result with
    | ok response => exact haround.signedOut h
    | error exception => trivial
  have hsafe : ∀ s, Sound site session expires False s → Waiting site session w s →
      Safe (oneSession site session expires False) w
        (Returns fun _ t ↦ statusSessionKey site session ∈ t.signedOut)
        (handler site (.logout (some token))) s := by
    intro s _ _
    refine Safe.imp (fun result t hresult ↦ ?_) (session_statusLogout (some token) not_false)
    cases result with
    | ok response => exact hresult.2 token rfl hkey
    | error exception => trivial
  obtain ⟨program, hworker, hended⟩ := Contract.run_promise session_handles hpost hsafe
    session_start hpermits hrun (.inl hstart)
  rw [System.answer_eq_some, hworker, Option.some.injEq] at hanswer
  subst hanswer
  exact (Contract.run_safe session_handles session_start hpermits hrun).invariant.signedOut
    not_false hended

/-- The key that the browser was given last lasts, when all requests are answered. -/
theorem key_of_the_last_cookie {events : List (Step site)} {last : Requests site}
    (hpermits : Meets (semantics site) (handler site) (oneSession site session expires True).Permits
      (inSession site session db redis now drawn reportId expires) events)
    (hrun : run (semantics site) (handler site)
      (inSession site session db redis now drawn reportId expires) events = some last)
    (hended : ∀ w request, Event.start w request ∈ events →
      ∃ response, last.answer w = some response) :
    ∃ token, last.shared.cookies.headD (some session) = some token ∧
      ∀ time, time + 1000 < expires →
        Redis.find last.shared.redis time (statusSessionKey site token) ≠ none := by
  have hholds := Contract.run_safe session_handles session_start hpermits hrun
  have hin := hholds.invariant.signedIn trivial
  have hthere : ∀ {key : String} {e : Redis.Entry} {ends : ℕ}, last.shared.redis key = some e →
      e.expiresAt = some ends → expires ≤ ends + 1000 → ∀ time, time + 1000 < expires →
        Redis.find last.shared.redis time key ≠ none := by
    intro key e ends hkey hends hlong time htime
    rw [Redis.find_eq_some hkey hends (by omega)]
    exact Option.some_ne_none e
  cases hcookies : last.shared.cookies with
  | cons cookie cookies =>
    obtain ⟨token, rfl, hne, hdescends⟩ :=
      hin.cookies cookie (hcookies ▸ List.mem_cons_self)
    obtain ⟨e, ends, hkey, hends, hlong⟩ := hin.fresh _ hdescends hne
    exact ⟨token, rfl, hthere hkey hends hlong⟩
  | nil =>
    refine ⟨session, rfl, ?_⟩
    -- A reply that has deleted the session's key has given the browser another one.
    have hkey : last.shared.redis (statusSessionKey site session) ≠ none := by
      intro hgone
      obtain ⟨w, hremoved⟩ := Option.ne_none_iff_exists'.mp (hin.gone hgone)
      rcases started_of_worker hrun (fun hworker ↦ hholds.idle w hworker hremoved) with hnone |
        ⟨request, hstart⟩
      · exact hnone rfl
      · obtain ⟨response, hanswer⟩ := hended w request hstart
        exact hholds.ends_of_answer hanswer hremoved hcookies
    obtain ⟨e, he⟩ := Option.ne_none_iff_exists'.mp hkey
    exact hthere he (hin.entry e he) (Nat.le_add_right _ _)

/-- In every run of replies and sign-outs of one session, however their commands interleave: where a
sign-out finds no other key of the session and no reply sets one after it, no key that descends from
the session is there once it is answered. And where nobody signs out, and no reply asks how long its
key has left after another one has deleted it, then as soon as all requests are answered, the key that
the browser was given last is there for what was left of the session, up to a second. -/
theorem sign_outs_end_and_replies_keep_the_session {events : List (Step site)}
    {last : Requests site}
    (hsession : ∀ w request, Event.start w request ∈ events → request.FromSession session)
    (hrun : run (semantics site) (handler site)
      (inSession site session db redis now drawn reportId expires) events = some last) :
    (Meets (semantics site) (handler site)
        (fun s event ↦ s.Acts (SignsOutAlone site session) event)
        (inSession site session db redis now drawn reportId expires) events →
      ∀ w token response, Event.start w (.logout (some token)) ∈ events →
        isSessionKey token = true → last.answer w = some response →
        ∀ key, Descends site session last.shared key →
          Redis.find last.shared.redis last.shared.now key = none) ∧
    (Meets (semantics site) (handler site) (fun s event ↦ s.Acts (AsksInTime site) event)
        (inSession site session db redis now drawn reportId expires) events →
      (∀ w cookie, Event.start w (.logout cookie) ∉ events) →
      (∀ w request, Event.start w request ∈ events →
        ∃ response, last.answer w = some response) →
      ∃ token, last.shared.cookies.headD (some session) = some token ∧
        ∀ time, time + 1000 < expires →
          Redis.find last.shared.redis time (statusSessionKey site token) ≠ none) := by
  constructor
  · intro halone w token response hstart hkey hanswer
    refine no_key_after_a_sign_out ?_ hrun hstart hkey hanswer
    refine Contract.meets_permits (fun _ _ _ ↦ trivial) (fun _ _ ↦ trivial)
      (fun v request hrequest ↦ ⟨hsession v request hrequest, nofun⟩)
      (meets_imp (fun s event hacts v operation hacting ↦ ?_) halone)
    exact ⟨fun _ ↦ hacts v operation hacting, nofun⟩
  · intro hasks hleaves hended
    refine key_of_the_last_cookie ?_ hrun hended
    refine Contract.meets_permits (fun _ _ _ ↦ trivial) (fun _ _ ↦ trivial)
      (fun v request hrequest ↦ ⟨hsession v request hrequest, fun _ cookie heq ↦ ?_⟩)
      (meets_imp (fun s event hacts v operation hacting ↦ ?_) hasks)
    · exact hleaves v cookie (heq ▸ hrequest)
    · exact ⟨fun h ↦ absurd trivial h, fun _ ↦ hacts v operation hacting⟩

end Runs

/-! ### A reply and a sign-out, and a double click -/

/-- Report 7 is open under the cookie "a" for two hours. -/
abbrev opened : Requests strict :=
  inSession strict "a" oneCase (fun _ ↦ none) 0 [] "7" (1000 * sessionSeconds)

/-- A reply until it has set a fresh key, or further. -/
def repliesFor (w operations : ℕ) (draw : String) : List (Step strict) :=
  served w (.reply (some "a") "There is more." "" "") operations draw

/-- A reply, and a sign-out with the cookie it gave. -/
def replyThenSignOut : List (Step strict) :=
  repliesFor 0 8 "b" ++ served 1 (.logout (some "b")) 2 ""

/-- Two replies that both ask for the time before either deletes the key. -/
def doubleClick : List (Step strict) :=
  repliesFor 0 4 "b" ++ repliesFor 1 8 "c" ++ List.replicate 4 (.run 0 "b")

/-- A sign-out falls between a reply's questions and its fresh key. -/
def signOutWithinReply : List (Step strict) :=
  repliesFor 0 5 "b" ++ served 1 (.logout (some "a")) 2 "" ++ List.replicate 3 (.run 0 "b")

/-- The second of two replies asks for the time when the first has deleted the key. -/
def lateDoubleClick : List (Step strict) :=
  repliesFor 0 3 "b" ++ repliesFor 1 8 "c" ++ List.replicate 5 (.run 0 "b") ++
    [.environment (.tick 2000)]

theorem sign_outs_end_and_replies_keep_the_session_of_seven :
    (∃ last, run (semantics strict) (handler strict) opened replyThenSignOut = some last ∧
      Redis.find last.shared.redis last.shared.now (statusSessionKey strict "b") = none) ∧
    ∃ last, run (semantics strict) (handler strict) opened doubleClick = some last ∧
      ∃ token, last.shared.cookies.headD (some "a") = some token ∧
        Redis.find last.shared.redis 7198000 (statusSessionKey strict token) ≠ none := by
  constructor
  · have hrun := run_eq_get (show (run (semantics strict) (handler strict) opened
      replyThenSignOut).isSome = true by decide +kernel)
    have hrequests : ∀ w request, Event.start w request ∈ replyThenSignOut →
        request = .reply (some "a") "There is more." "" "" ∨ request = .logout (some "b") := by
      simp only [replyThenSignOut, repliesFor, served, List.mem_append, List.mem_cons,
        List.mem_replicate, Event.start.injEq, reduceCtorEq, and_false, or_false]
      exact fun _ _ h ↦ h.imp And.right And.right
    have hsession : ∀ w request, Event.start w request ∈ replyThenSignOut →
        request.FromSession "a" := by
      intro w request hstart
      rcases hrequests w request hstart with rfl | rfl
      · exact ⟨rfl, .inl rfl⟩
      · trivial
    exact ⟨_, hrun, (sign_outs_end_and_replies_keep_the_session hsession hrun).1
      (by decide +kernel) 1 "b" (.seeOther "/status") (by simp [replyThenSignOut, served]) (by decide)
      (by decide +kernel) _ (by decide +kernel)⟩
  · have hrun := run_eq_get (show (run (semantics strict) (handler strict) opened
      doubleClick).isSome = true by decide +kernel)
    have hrequests : ∀ w request, Event.start w request ∈ doubleClick →
        (w = 0 ∨ w = 1) ∧ request = .reply (some "a") "There is more." "" "" := by
      simp only [doubleClick, repliesFor, served, List.mem_append, List.mem_cons,
        List.mem_replicate, Event.start.injEq, reduceCtorEq, and_false, or_false]
      exact fun _ _ h ↦ h.elim (fun h ↦ ⟨.inl h.1, h.2⟩) fun h ↦ ⟨.inr h.1, h.2⟩
    have hsession : ∀ w request, Event.start w request ∈ doubleClick →
        request.FromSession "a" := by
      intro w request hstart
      rw [(hrequests w request hstart).2]
      exact ⟨rfl, .inl rfl⟩
    have hnone : ∀ w cookie, Event.start w (.logout cookie) ∉ doubleClick := by
      intro w cookie hstart
      cases (hrequests w _ hstart).2
    obtain ⟨token, hcookie, hthere⟩ :=
      (sign_outs_end_and_replies_keep_the_session hsession hrun).2 (by decide +kernel) hnone (by
          intro w request hstart
          refine ⟨.seeOther "/status?replied=1", ?_⟩
          rcases (hrequests w request hstart).1 with rfl | rfl
          · decide +kernel
          · decide +kernel)
    exact ⟨_, hrun, token, hcookie, hthere 7198000 (by decide)⟩

/-- A fresh key outlives the sign-out it was set after, and a reply that asks too late gives the
browser a key for one second. -/
theorem a_reply_outlives_a_sign_out_and_ends_the_session :
    (∃ last, run (semantics strict) (handler strict) opened signOutWithinReply = some last ∧
      last.answer 0 = some (.seeOther "/status?replied=1") ∧
      last.answer 1 = some (.seeOther "/status") ∧
      Descends strict "a" last.shared (statusSessionKey strict "b") ∧
      Redis.get last.shared.redis last.shared.now (statusSessionKey strict "b") = some "7") ∧
    ∃ last, run (semantics strict) (handler strict) opened lateDoubleClick = some last ∧
      last.answer 0 = some (.seeOther "/status?replied=1") ∧
      last.answer 1 = some (.seeOther "/status?replied=1") ∧
      last.shared.now = 2000 ∧ last.shared.cookies = [some "b", some "c"] ∧
      Redis.find last.shared.redis last.shared.now (statusSessionKey strict "b") = none := by
  constructor
  · have hrun := run_eq_get (show (run (semantics strict) (handler strict) opened
      signOutWithinReply).isSome = true by decide +kernel)
    exact ⟨_, hrun, by decide +kernel, by decide +kernel, by decide +kernel, by decide +kernel⟩
  · have hrun := run_eq_get (show (run (semantics strict) (handler strict) opened
      lateDoubleClick).isSome = true by decide +kernel)
    exact ⟨_, hrun, by decide +kernel, by decide +kernel, by decide +kernel, by decide +kernel,
      by decide +kernel⟩

end OpenWhistle.Reporter
