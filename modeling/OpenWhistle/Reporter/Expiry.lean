import OpenWhistle.Foundation.Contract
import OpenWhistle.Reporter.Probing
import OpenWhistle.Reporter.StatusSession

/-!
# When a status session ends

A session key is set to expire two hours after the sign-in, and a key that replaces it to expire when
the one before would have, as far as whole seconds go. Redis rounds what a key has left to the nearest
second, a reply never asks for less than one, and it takes a while between reading the time and
setting the key. So what a reply costs is told by when it comes: the time it takes, and what the last
second of the old key lacks when it is half over or less. Over a chain of replies the costs add up.
Where along a line of keys they stay within a second, no key of the line is there a second after the
two hours.

Between the two commands of a reply other requests run. The contract says what they leave alone: the
time at which it asked, the keys it has drawn, and every key that was set.
-/

set_option autoImplicit false
set_option relaxedAutoImplicit false

namespace OpenWhistle.Reporter

open Interleaving

variable {Hash : Type} {site : Site Hash}

/-- When a reply sets a fresh key, all replies of its line together have cost a second at most. -/
def WithinASecond (site : Site Hash) (w : ℕ) : Op → Reception site → Prop
  | .renewSession session _ _ _, s => ∀ line ∈ s.line (statusSessionKey site session),
      line.slipped + s.slip w (statusSessionKey site session) ≤ 1000
  | _, _ => True

instance (w : ℕ) (operation : Op) (s : Reception site) :
    Decidable (WithinASecond site w operation s) :=
  match operation with
  | .renewSession session _ _ _ =>
    inferInstanceAs (Decidable (∀ line ∈ s.line (statusSessionKey site session),
      line.slipped + s.slip w (statusSessionKey site session) ≤ 1000))
  | .getSession _ | .getReportById _ | .authenticate _ _ | .tokenUrlsafe | .openSession _ _
  | .addMessage _ _ | .sessionTtl _ | .deleteSession _ _ | .setCookie _ => isTrue trivial

/-! ### What a reply asks for -/

/-- What is left, rounded to the nearest second but at least one, is more by the overrun at most. -/
theorem rounded_le (left : ℕ) :
    1000 * max 1 ((left + 500) / 1000) ≤ left + overrun left := by
  unfold overrun
  split_ifs <;> omega

/-- And a second is never more than that. -/
theorem second_le (left : ℕ) : 1000 ≤ left + overrun left := by
  unfold overrun
  split_ifs <;> omega

/-- A reply asks for what its key has left, and the overrun. -/
theorem asked_le {s : Redis.Store} {now ends : ℕ} {key : String}
    (hends : ∀ e, s key = some e → e.expiresAt = some ends) :
    1000 * (max 1 (Redis.ttl s now key)).toNat ≤ ends - now + overrun (ends - now) := by
  cases hfind : Redis.find s now key with
  | none =>
    have hone : (max 1 (Redis.ttl s now key)).toNat = 1 := by
      rw [Redis.ttl, hfind]
      rfl
    rw [hone]
    exact second_le _
  | some e =>
    obtain ⟨value, expiresAt⟩ := e
    have hentry : expiresAt = some ends := hends _ (Redis.eq_of_find hfind)
    have hrounded : (max 1 (Redis.ttl s now key)).toNat = max 1 ((ends - now + 500) / 1000) := by
      rw [Redis.ttl, hfind, hentry]
      dsimp only
      omega
    rw [hrounded]
    exact rounded_le _

/-! ### The invariant -/

/-- The key is set, or was there at the start, and nobody sets it again. -/
def Known (s : Reception site) (key : String) : Prop := key ∈ s.drawn ∧ s.heldBy key = none

/-- The keys of a line expire when they were set to, and no later than a second after the two hours. -/
structure Timed (s : Reception site) : Prop where
  named : ∀ key line, s.line key = some line → ∃ token, key = statusSessionKey site token
  held : ∀ key, s.heldBy key ≠ none → key ∈ s.drawn
  known : ∀ token, s.redis (statusSessionKey site token) ≠ none →
    Known s (statusSessionKey site token)
  asked : ∀ w, s.askedAt w ≤ s.now
  entry : ∀ key line, s.line key = some line → ∀ e, s.redis key = some e →
    e.expiresAt = some (s.ends key)
  ends : ∀ key line, s.line key = some line →
    s.ends key ≤ line.since + 1000 * sessionSeconds + line.slipped
  slipped : ∀ key line, s.line key = some line → line.slipped ≤ 1000

/-- What worker `w` may rely on. -/
structure Undisturbed (w : ℕ) (s t : Reception site) : Prop where
  askedAt : t.askedAt w = s.askedAt w
  held : ∀ key, s.heldBy key = some w → t.heldBy key = some w
  known : ∀ key, Known s key → Known t key ∧ t.line key = s.line key ∧ t.ends key = s.ends key

variable {s t u : Reception site} {w : ℕ}

theorem Undisturbed.refl (w : ℕ) (s : Reception site) : Undisturbed w s s :=
  ⟨rfl, fun _ h ↦ h, fun _ h ↦ ⟨h, rfl, rfl⟩⟩

theorem Undisturbed.trans (hst : Undisturbed w s t) (htu : Undisturbed w t u) :
    Undisturbed w s u := by
  refine ⟨htu.askedAt.trans hst.askedAt, fun key hkey ↦ htu.held key (hst.held key hkey),
    fun key hkey ↦ ?_⟩
  obtain ⟨hknown, hline, hends⟩ := hst.known key hkey
  obtain ⟨hknown', hline', hends'⟩ := htu.known key hknown
  exact ⟨hknown', hline'.trans hline, hends'.trans hends⟩

/-- Worker `w` knows how many seconds a key of a line had left when it asked. -/
def Asked (w : ℕ) (s : Reception site) (key : String) (seconds : ℕ) : Prop :=
  Known s key ∧ (s.line key ≠ none →
    1000 * seconds ≤ s.ends key - s.askedAt w + overrun (s.ends key - s.askedAt w))

theorem Asked.later {key : String} {seconds : ℕ} (h : Asked w s key seconds)
    (hst : Undisturbed w s t) : Asked w t key seconds := by
  obtain ⟨hknown, hseconds⟩ := h
  obtain ⟨hknown', hline, hends⟩ := hst.known key hknown
  refine ⟨hknown', ?_⟩
  rw [hline, hends, hst.askedAt]
  exact hseconds

/-! ### What leaves the sessions alone -/

/-- Time passes, and session keys go. -/
structure Calm (s t : Reception site) : Prop where
  now : s.now ≤ t.now
  drawn : t.drawn = s.drawn
  heldBy : t.heldBy = s.heldBy
  askedAt : t.askedAt = s.askedAt
  line : t.line = s.line
  ends : t.ends = s.ends
  redis : ∀ token, t.redis (statusSessionKey site token) = s.redis (statusSessionKey site token) ∨
    t.redis (statusSessionKey site token) = none

namespace Calm

theorem known (h : Calm s t) {key : String} : Known t key ↔ Known s key := by
  unfold Known
  rw [h.drawn, h.heldBy]

theorem timed (h : Calm s t) (hs : Timed s) : Timed t := by
  refine ⟨?_, ?_, fun token hkey ↦ h.known.mpr ?_, fun v ↦ ?_, fun key line hkey e he ↦ ?_, ?_, ?_⟩
  · rw [h.line]
    exact hs.named
  · rw [h.heldBy, h.drawn]
    exact hs.held
  · rcases h.redis token with hsame | hnone
    · rw [hsame] at hkey
      exact hs.known token hkey
    · exact absurd hnone hkey
  · rw [h.askedAt]
    exact (hs.asked v).trans h.now
  · rw [h.line] at hkey
    rw [h.ends]
    obtain ⟨token, rfl⟩ := hs.named key line hkey
    rcases h.redis token with hsame | hnone
    · exact hs.entry _ line hkey e (hsame.symm.trans he)
    · rw [hnone] at he
      cases he
  · rw [h.line, h.ends]
    exact hs.ends
  · rw [h.line]
    exact hs.slipped

theorem undisturbed (h : Calm s t) (w : ℕ) : Undisturbed w s t where
  askedAt := by rw [h.askedAt]
  held key hkey := by rw [h.heldBy]; exact hkey
  known key hkey := by
    rw [h.line, h.ends]
    exact ⟨h.known.mpr hkey, rfl, rfl⟩

end Calm

theorem calm_environment {change : Change site} (hchange : environment site change s = some t) :
    Calm s t := by
  cases change with
  | tick milliseconds =>
    cases hchange
    exact ⟨Nat.le_add_right _ _, rfl, rfl, rfl, rfl, rfl, fun _ ↦ .inl rfl⟩
  | office db =>
    cases hchange
    exact ⟨le_rfl, rfl, rfl, rfl, rfl, rfl, fun _ ↦ .inl rfl⟩

/-- The operations that set no key and ask for none. -/
def Op.Calm : Op → Prop
  | .tokenUrlsafe | .openSession _ _ | .sessionTtl _ | .renewSession _ _ _ _ => False
  | _ => True

theorem calm_perform {operation : Op} (hcalm : operation.Calm) {draw : String}
    {reply : Except Fault (Reply site operation)}
    (hperform : perform site w operation draw s = some (reply, t)) : Calm s t := by
  cases operation with
  | getSession token =>
    cases hperform
    exact ⟨le_rfl, rfl, rfl, rfl, rfl, rfl, fun _ ↦ .inl rfl⟩
  | getReportById id =>
    cases hperform
    exact ⟨le_rfl, rfl, rfl, rfl, rfl, rfl, fun _ ↦ .inl rfl⟩
  | authenticate caseNumber pin =>
    unfold perform at hperform
    dsimp only at hperform
    cases hchecked : authenticateWhistleblower site s.db s.redis (fun _ ↦ s.now) caseNumber pin with
    | none =>
      rw [hchecked] at hperform
      cases hperform
      exact ⟨le_rfl, rfl, rfl, rfl, rfl, rfl, fun _ ↦ .inl rfl⟩
    | some result =>
      rw [hchecked] at hperform
      cases hperform
      exact ⟨le_rfl, rfl, rfl, rfl, rfl, rfl,
        fun token ↦ .inl (redis_of_authenticate site hchecked token)⟩
  | addMessage reportId content =>
    cases hperform
    exact ⟨le_rfl, rfl, rfl, rfl, rfl, rfl, fun _ ↦ .inl rfl⟩
  | deleteSession token signsOut =>
    cases hperform
    refine ⟨le_rfl, rfl, rfl, rfl, rfl, rfl, fun other ↦ ?_⟩
    by_cases heq : statusSessionKey site other = statusSessionKey site token
    · rw [heq]
      exact .inr (Function.update_self ..)
    · exact .inl (Function.update_of_ne heq ..)
  | setCookie cookie =>
    cases hperform
    exact ⟨le_rfl, rfl, rfl, rfl, rfl, rfl, fun _ ↦ .inl rfl⟩
  | tokenUrlsafe => exact hcalm.elim
  | openSession token reportId => exact hcalm.elim
  | sessionTtl token => exact hcalm.elim
  | renewSession session fresh reportId seconds => exact hcalm.elim

/-! ### What sets a key -/

/-- SET of a session key, with the line it is of. -/
structure Sets (token : String) (line : Option Line) (expires : ℕ) (s t : Reception site) :
    Prop where
  now : t.now = s.now
  drawn : t.drawn = s.drawn
  heldBy : t.heldBy = Function.update s.heldBy (statusSessionKey site token) none
  askedAt : t.askedAt = s.askedAt
  redis : ∃ value, t.redis =
    Function.update s.redis (statusSessionKey site token) (some ⟨value, some expires⟩)
  line : t.line = Function.update s.line (statusSessionKey site token) line
  ends : t.ends = Function.update s.ends (statusSessionKey site token) expires

namespace Sets

variable {token : String} {line : Option Line} {expires : ℕ}

/-- The key that is set is one that its worker has drawn; what is known is left alone. -/
theorem undisturbed (h : Sets token line expires s t)
    (hheld : s.heldBy (statusSessionKey site token) = some w) {v : ℕ} (hv : v ≠ w) :
    Undisturbed v s t := by
  refine ⟨by rw [h.askedAt], fun key hkey ↦ ?_, fun key hkey ↦ ?_⟩
  · have hne : key ≠ statusSessionKey site token := by
      rintro rfl
      rw [hheld] at hkey
      exact hv (Option.some.inj hkey).symm
    rw [h.heldBy, Function.update_of_ne hne]
    exact hkey
  · have hne : key ≠ statusSessionKey site token := by
      rintro rfl
      rw [hkey.2] at hheld
      cases hheld
    rw [Known, h.drawn, h.heldBy, h.line, h.ends, Function.update_of_ne hne,
      Function.update_of_ne hne, Function.update_of_ne hne]
    exact ⟨hkey, rfl, rfl⟩

theorem timed (h : Sets token line expires s t) (hs : Timed s)
    (hheld : s.heldBy (statusSessionKey site token) = some w)
    (hallowed : ∀ l ∈ line, expires ≤ l.since + 1000 * sessionSeconds + l.slipped ∧
      l.slipped ≤ 1000) : Timed t := by
  obtain ⟨value, hredis⟩ := h.redis
  have hdrawn : statusSessionKey site token ∈ s.drawn :=
    hs.held _ (by rw [hheld]; exact Option.some_ne_none w)
  refine ⟨fun key l hkey ↦ ?_, fun key hkey ↦ ?_, fun other hother ↦ ?_, fun v ↦ ?_,
    fun key l hkey e he ↦ ?_, fun key l hkey ↦ ?_, fun key l hkey ↦ ?_⟩
  · by_cases heq : key = statusSessionKey site token
    · exact ⟨token, heq⟩
    · rw [h.line, Function.update_of_ne heq] at hkey
      exact hs.named key l hkey
  · rw [h.drawn]
    by_cases heq : key = statusSessionKey site token
    · rw [heq]
      exact hdrawn
    · rw [h.heldBy, Function.update_of_ne heq] at hkey
      exact hs.held key hkey
  · rw [Known, h.drawn, h.heldBy]
    by_cases heq : statusSessionKey site other = statusSessionKey site token
    · rw [heq, Function.update_self]
      exact ⟨hdrawn, rfl⟩
    · rw [hredis, Function.update_of_ne heq] at hother
      rw [Function.update_of_ne heq]
      exact hs.known other hother
  · rw [h.askedAt, h.now]
    exact hs.asked v
  · by_cases heq : key = statusSessionKey site token
    · rw [hredis, heq, Function.update_self] at he
      cases he
      rw [h.ends, heq, Function.update_self]
    · rw [hredis, Function.update_of_ne heq] at he
      rw [h.line, Function.update_of_ne heq] at hkey
      rw [h.ends, Function.update_of_ne heq]
      exact hs.entry key l hkey e he
  · by_cases heq : key = statusSessionKey site token
    · rw [h.line, heq, Function.update_self] at hkey
      rw [h.ends, heq, Function.update_self]
      exact (hallowed l hkey).1
    · rw [h.line, Function.update_of_ne heq] at hkey
      rw [h.ends, Function.update_of_ne heq]
      exact hs.ends key l hkey
  · by_cases heq : key = statusSessionKey site token
    · rw [h.line, heq, Function.update_self] at hkey
      exact (hallowed l hkey).2
    · rw [h.line, Function.update_of_ne heq] at hkey
      exact hs.slipped key l hkey

end Sets

theorem sets_openSession (token reportId : String) :
    Sets token (some ⟨statusSessionKey site token, s.now, 0⟩) (s.now + 1000 * sessionSeconds) s
      (s.openSession (statusSessionKey site token) reportId) :=
  ⟨rfl, rfl, rfl, rfl, ⟨_, rfl⟩, rfl, rfl⟩

theorem sets_renewSession (session fresh reportId : String) (seconds : ℕ) :
    Sets fresh ((s.line (statusSessionKey site session)).map fun line ↦
        { line with slipped := line.slipped + s.slip w (statusSessionKey site session) })
      (s.now + 1000 * seconds) s
      (s.renewSession w (statusSessionKey site session) (statusSessionKey site fresh) reportId
        seconds) :=
  ⟨rfl, rfl, rfl, rfl, ⟨_, rfl⟩, rfl, rfl⟩

/-- A fresh key ends with the one it replaces, or later by what the reply costs. -/
theorem renewed_le {old : String} {seconds : ℕ} (hasked : s.askedAt w ≤ s.now)
    (hseconds : 1000 * seconds ≤ s.ends old - s.askedAt w + overrun (s.ends old - s.askedAt w)) :
    s.now + 1000 * seconds ≤ s.ends old + s.slip w old := by
  unfold Reception.slip
  omega

/-! ### The contract -/

def twoHours (site : Site Hash) : Contract (semantics site) Request Response where
  invariant := Timed
  rely := Undisturbed
  rely_refl := Undisturbed.refl
  rely_trans _ _ _ _ := Undisturbed.trans
  idle _ _ := True
  idle_stable _ _ _ _ _ _ := trivial
  ends _ := Returns fun _ _ ↦ True
  ends_stable _ result _ _ _ _ _ := by cases result <;> trivial
  admits _ := True
  allows := WithinASecond site
  trusts _ _ _ := True
  tolerates _ _ := True
  environment_safe _ _ _ hs _ hchange :=
    ⟨(calm_environment hchange).timed hs, (calm_environment hchange).undisturbed⟩

/-- An operation that leaves the sessions alone. -/
theorem safe_calm (operation : Op) (hcalm : operation.Calm)
    {promise : Reply site operation → Reception site → Prop}
    (h : ∀ t draw value u, Timed t → perform site w operation draw t = some (.ok value, u) →
      Undisturbed w s u → promise value u) :
    Safe (twoHours site) w (Returns promise) (call site operation) s := by
  refine Safe.call_returns fun t hst ht _ draw reply u hperform ↦ ?_
  have hu := calm_perform hcalm hperform
  refine ⟨hu.timed ht, fun v _ ↦ hu.undisturbed v, fun value hvalue ↦ ?_⟩
  subst hvalue
  exact h t draw value u ht hperform (hst.trans (hu.undisturbed w))

theorem safe_untold (operation : Op) (hcalm : operation.Calm) :
    Safe (twoHours site) w (Returns fun _ _ ↦ True) (call site operation) s :=
  safe_calm operation hcalm fun _ _ _ _ _ _ _ ↦ trivial

theorem safe_known (operation : Op) (hcalm : operation.Calm) {key : String} (hknown : Known s key) :
    Safe (twoHours site) w (Returns fun _ t ↦ Known t key) (call site operation) s :=
  safe_calm operation hcalm fun _ _ _ _ _ _ hst ↦ (hst.known key hknown).1

theorem safe_sessionTtl {session : String} (hknown : Known s (statusSessionKey site session)) :
    Safe (twoHours site) w
      (Returns fun left t ↦ Asked w t (statusSessionKey site session) (max 1 left).toNat)
      (call site (.sessionTtl session)) s := by
  refine Safe.call_returns fun t hst ht _ draw reply u hperform ↦ ?_
  cases hperform
  refine ⟨⟨ht.named, ht.held, ht.known, fun v ↦ ?_, ht.entry, ht.ends, ht.slipped⟩,
    fun v hv ↦ ⟨Function.update_of_ne hv .., fun _ h ↦ h, fun _ h ↦ ⟨h, rfl, rfl⟩⟩,
    fun left hleft ↦ ?_⟩
  · show Function.update t.askedAt w t.now v ≤ t.now
    by_cases hv : v = w
    · rw [hv, Function.update_self]
    · rw [Function.update_of_ne hv]
      exact ht.asked v
  · cases hleft
    refine ⟨(hst.known _ hknown).1, fun hline ↦ ?_⟩
    obtain ⟨line, hline⟩ := Option.ne_none_iff_exists'.mp hline
    show _ ≤ t.ends (statusSessionKey site session) - Function.update t.askedAt w t.now w +
      overrun (t.ends (statusSessionKey site session) - Function.update t.askedAt w t.now w)
    rw [Function.update_self]
    exact asked_le (ht.entry _ line hline)

theorem safe_tokenUrlsafe :
    Safe (twoHours site) w (Returns fun fresh t ↦
        t.heldBy (statusSessionKey site fresh) = some w ∧ Undisturbed w s t)
      (call site .tokenUrlsafe) s := by
  refine Safe.call_returns fun t hst ht _ draw reply u hperform ↦ ?_
  obtain ⟨hunused, heq⟩ := Option.ite_none_left_eq_some.mp hperform
  cases heq
  have hrely : ∀ v, Undisturbed v t
      { t with
        drawn := statusSessionKey site draw :: t.drawn
        heldBy := Function.update t.heldBy (statusSessionKey site draw) (some w) } := by
    refine fun v ↦ ⟨rfl, fun key hkey ↦ ?_, fun key hkey ↦ ⟨⟨List.mem_cons_of_mem _ hkey.1, ?_⟩, rfl, rfl⟩⟩
    · have hne : key ≠ statusSessionKey site draw := by
        rintro rfl
        exact hunused (ht.held _ (by rw [hkey]; exact Option.some_ne_none v))
      exact (Function.update_of_ne hne ..).trans hkey
    · have hne : key ≠ statusSessionKey site draw := by
        rintro rfl
        exact hunused hkey.1
      exact (Function.update_of_ne hne ..).trans hkey.2
  refine ⟨⟨ht.named, fun key hkey ↦ ?_, fun token hkey ↦ ((hrely w).known _ (ht.known token hkey)).1,
    ht.asked, ht.entry, ht.ends, ht.slipped⟩, fun v _ ↦ hrely v, fun fresh hfresh ↦ ?_⟩
  · by_cases heq : key = statusSessionKey site draw
    · rw [heq]
      exact List.mem_cons_self
    · have hsame : Function.update t.heldBy (statusSessionKey site draw) (some w) key =
          t.heldBy key := Function.update_of_ne heq ..
      exact List.mem_cons_of_mem _ (ht.held key fun hnone ↦ hkey (hsame.trans hnone))
  · cases hfresh
    exact ⟨Function.update_self .., hst.trans (hrely w)⟩

theorem safe_openSession {token reportId : String}
    (hheld : s.heldBy (statusSessionKey site token) = some w) :
    Safe (twoHours site) w (Returns fun _ t ↦ Known t (statusSessionKey site token))
      (call site (.openSession token reportId)) s := by
  refine Safe.call_returns fun t hst ht _ draw reply u hperform ↦ ?_
  cases hperform
  have hset := sets_openSession (s := t) token reportId
  have hheld' := hst.held _ hheld
  have hu := hset.timed ht hheld' fun l hl ↦ by
    cases hl
    exact ⟨Nat.le_add_right _ _, Nat.zero_le _⟩
  refine ⟨hu, fun v hv ↦ hset.undisturbed hheld' hv, fun _ _ ↦ hu.known token ?_⟩
  obtain ⟨value, hredis⟩ := hset.redis
  rw [hredis, Function.update_self]
  exact Option.some_ne_none _

theorem safe_renewSession {session fresh reportId : String} {seconds : ℕ}
    (hasked : Asked w s (statusSessionKey site session) seconds)
    (hheld : s.heldBy (statusSessionKey site fresh) = some w) :
    Safe (twoHours site) w (Returns fun _ _ ↦ True)
      (call site (.renewSession session fresh reportId seconds)) s := by
  refine Safe.call_returns fun t hst ht hwithin draw reply u hperform ↦ ?_
  cases hperform
  have hset := sets_renewSession (w := w) (s := t) session fresh reportId seconds
  have hheld' := hst.held _ hheld
  refine ⟨hset.timed ht hheld' fun l hl ↦ ?_, fun v hv ↦ hset.undisturbed hheld' hv, fun _ _ ↦ trivial⟩
  obtain ⟨line, hline, rfl⟩ := Option.map_eq_some_iff.mp hl
  have hrenewed := renewed_le (ht.asked w)
    ((hasked.later hst).2 (by rw [hline]; exact Option.some_ne_none line))
  have hends := ht.ends _ line hline
  refine ⟨?_, hwithin line hline⟩
  dsimp only
  omega

/-! ### The requests -/

theorem safe_moveSession {session : String} (report : Case site.pins) (location : String)
    (hknown : Known s (statusSessionKey site session)) :
    Safe (twoHours site) w (Returns fun _ _ ↦ True) (moveSession site session report location) s := by
  refine Safe.andThen (safe_sessionTtl hknown) fun left t hasked ↦ ?_
  refine Safe.andThen safe_tokenUrlsafe fun fresh u hfresh ↦ ?_
  obtain ⟨hheld, htu⟩ := hfresh
  refine Safe.andThen (safe_renewSession (hasked.later htu) hheld) fun _ _ _ ↦ ?_
  refine Safe.andThen (safe_untold (.deleteSession session false) trivial) fun _ _ _ ↦ ?_
  exact Safe.andThen (safe_untold (.setCookie (some fresh)) trivial) fun _ _ _ ↦ Safe.ret trivial

theorem safe_acceptReply {session : String} (report : Case site.pins) (content : String)
    (hknown : Known s (statusSessionKey site session)) :
    Safe (twoHours site) w (Returns fun _ _ ↦ True) (acceptReply site session report content) s := by
  unfold acceptReply
  dsimp only
  generalize Text.strip content = stripped
  by_cases hempty : stripped = ""
  · rw [if_pos hempty]
    exact Safe.ret trivial
  rw [if_neg hempty]
  by_cases hlong : maxReply < stripped.toList.length
  · rw [if_pos hlong]
    exact Safe.ret trivial
  rw [if_neg hlong]
  by_cases hclosed : report.status = .closed
  · rw [if_pos hclosed]
    exact safe_moveSession report _ hknown
  · rw [if_neg hclosed]
    exact Safe.andThen (safe_known (.addMessage report.id stripped) trivial hknown)
      fun _ _ hknown ↦ safe_moveSession report _ hknown

/-- What a cookie opens is a key that is known. -/
theorem safe_sessionOf (cookie : Option String) :
    Safe (twoHours site) w (Returns fun found t ↦
      ∀ opened ∈ found, Known t (statusSessionKey site opened.1)) (sessionOf site cookie) s := by
  unfold sessionOf
  cases cookie.filter isSessionKey with
  | none => exact Safe.ret nofun
  | some token =>
    have hfound : Safe (twoHours site) w (Returns fun (found : Option String) t ↦
        found ≠ none → Known t (statusSessionKey site token)) (call site (.getSession token)) s := by
      refine safe_calm (.getSession token) trivial fun t draw value u ht hperform _ hvalue ↦ ?_
      cases hperform
      refine ht.known token fun hnone ↦ hvalue ?_
      rw [Redis.get, Redis.find, hnone]
      rfl
    refine Safe.andThen hfound fun found t hknown ↦ ?_
    cases found with
    | none => exact Safe.ret nofun
    | some id =>
      refine Safe.andThen (safe_known (.getReportById id) trivial (hknown (Option.some_ne_none id)))
        fun report u hknown ↦ Safe.ret fun opened hopened ↦ ?_
      obtain ⟨report, -, rfl⟩ := Option.map_eq_some_iff.mp hopened
      exact hknown

theorem safe_newSession (report : Case site.pins) :
    Safe (twoHours site) w (Returns fun token t ↦ Known t (statusSessionKey site token))
      (newSession site report) s := by
  refine Safe.andThen safe_tokenUrlsafe fun token t htoken ↦ ?_
  exact Safe.andThen (safe_openSession htoken.1) fun _ _ hknown ↦ Safe.ret hknown

theorem safe_statusPost (caseNumber pin : String) :
    Safe (twoHours site) w (Returns fun _ _ ↦ True) (statusPostRoute site caseNumber pin) s := by
  refine Safe.andThen (safe_untold (.authenticate caseNumber pin) trivial) fun checked t _ ↦ ?_
  cases checked.1 with
  | none => exact Safe.ret trivial
  | some report =>
    refine Safe.andThen (safe_newSession report) fun token _ _ ↦ ?_
    exact Safe.andThen (safe_untold (.setCookie (some token)) trivial) fun _ _ _ ↦ Safe.ret trivial

theorem safe_replyRoute (cookie : Option String) (content caseNumber pin : String) :
    Safe (twoHours site) w (Returns fun _ _ ↦ True)
      (replyRoute site cookie content caseNumber pin) s := by
  refine Safe.andThen (safe_sessionOf cookie) fun found t hknown ↦ ?_
  cases found with
  | some opened => exact safe_acceptReply opened.2 content (hknown opened rfl)
  | none =>
    dsimp only
    split_ifs
    · exact Safe.ret trivial
    · refine Safe.andThen (safe_untold (.authenticate caseNumber pin) trivial) fun checked t _ ↦ ?_
      cases checked.1 with
      | none => exact Safe.ret trivial
      | some report =>
        exact Safe.andThen (safe_newSession report) fun token _ hknown ↦
          safe_acceptReply report content hknown

theorem safe_statusLogout (cookie : Option String) :
    Safe (twoHours site) w (Returns fun _ _ ↦ True) (statusLogout site cookie) s := by
  unfold statusLogout
  cases cookie.filter isSessionKey with
  | none =>
    exact Safe.andThen (safe_untold (.setCookie none) trivial) fun _ _ _ ↦ Safe.ret trivial
  | some token =>
    refine Safe.andThen (safe_untold (.deleteSession token true) trivial) fun _ _ _ ↦ ?_
    exact Safe.andThen (safe_untold (.setCookie none) trivial) fun _ _ _ ↦ Safe.ret trivial

theorem twoHours_handles : (twoHours site).Handles (handler site) := by
  rintro w request s - - -
  cases request with
  | statusGet cookie =>
    exact Safe.andThen (safe_sessionOf cookie) fun _ _ _ ↦ Safe.ret trivial
  | statusPost caseNumber pin => exact safe_statusPost caseNumber pin
  | reply cookie content caseNumber pin => exact safe_replyRoute cookie _ caseNumber pin
  | logout cookie => exact safe_statusLogout cookie

/-! ### The runs -/

/-- Any database and any keys, none of them of a sign-in that is looked at. -/
def opening (site : Site Hash) (db : Database site.pins) (redis : Redis.Store) (now : ℕ)
    (drawn : List String) : Requests site where
  shared :=
    { now := now, db := db, redis := redis, drawn := drawn, heldBy := fun _ ↦ none
      askedAt := fun _ ↦ 0, line := fun _ ↦ none, ends := fun _ ↦ 0, removedBy := fun _ ↦ none
      renewed := [], signedOut := [], cookies := [] }
  worker _ := none

/-- In every run in which the replies of a line of session keys cost a second at most: when a second after
the two hours is over, no session key that goes back to a sign-in is there, however many replies, views and
sign-outs the run holds and wherever their commands fall. The session keys that are there at the start
are not drawn again. -/
theorem status_sessions_end_after_two_hours {db : Database site.pins} {redis : Redis.Store}
    {now : ℕ} {drawn : List String} {events : List (Step site)} {last : Requests site}
    (hdrawn : ∀ token, redis (statusSessionKey site token) ≠ none →
      statusSessionKey site token ∈ drawn)
    (hwithin : Meets (semantics site) (handler site)
      (fun s event ↦ s.Acts (WithinASecond site) event) (opening site db redis now drawn) events)
    (hrun : run (semantics site) (handler site) (opening site db redis now drawn) events = some last)
    {key : String} {line : Line} (hline : last.shared.line key = some line)
    (hlate : line.since + 1000 * sessionSeconds + 1000 < last.shared.now) :
    Redis.find last.shared.redis last.shared.now key = none := by
  have hstart : (twoHours site).Holds (opening site db redis now drawn) :=
    Contract.holds_of_idle ⟨nofun, fun key hkey ↦ absurd rfl hkey,
      fun token hkey ↦ ⟨hdrawn token hkey, rfl⟩, fun _ ↦ Nat.zero_le _, nofun, nofun, nofun⟩
      (fun _ ↦ trivial) fun _ ↦ rfl
  have hpermits : Meets (semantics site) (handler site) (twoHours site).Permits
      (opening site db redis now drawn) events :=
    meets_imp (fun _ _ hacts ↦ Contract.permits_of_acting (fun _ ↦ trivial) (fun _ _ _ ↦ trivial)
      (fun _ _ ↦ trivial) hacts) hwithin
  have htimed := (Contract.run_safe twoHours_handles hstart hpermits hrun).invariant
  refine Redis.find_eq_none_of_lt (htimed.entry key line hline) ?_
  have hends := htimed.ends key line hline
  have hslipped := htimed.slipped key line hline
  omega

/-! ### Two replies, and three -/

/-- A request from its start to its answer, with what it draws. -/
def served (w : ℕ) (request : Request) (operations : ℕ) (draw : String) : List (Step strict) :=
  .start w request :: List.replicate operations (.run w draw)

def signsIn : List (Step strict) := served 0 (.statusPost "OW-2026-48210" (generatePin 0)) 4 "a"

def replies (w : ℕ) (cookie draw : String) : List (Step strict) :=
  served w (.reply (some cookie) "There is more." "" "") 8 draw

/-- Two replies, half a second after each other, and a long wait. -/
def twoReplies : List (Step strict) :=
  signsIn ++ .environment (.tick 500) :: replies 1 "a" "b" ++ .environment (.tick 500) ::
    replies 2 "b" "c" ++ [.environment (.tick 7200001)]

theorem status_sessions_end_after_two_hours_and_two_replies :
    ∃ last, run (semantics strict) (handler strict) (opening strict oneCase (fun _ ↦ none) 0 [])
        twoReplies = some last ∧
      last.answer 2 = some (.seeOther "/status?replied=1") ∧
      Redis.find last.shared.redis last.shared.now (statusSessionKey strict "c") = none := by
  have hrun := run_eq_get (show (run (semantics strict) (handler strict)
    (opening strict oneCase (fun _ ↦ none) 0 []) twoReplies).isSome = true by decide +kernel)
  exact ⟨_, hrun, by decide +kernel,
    status_sessions_end_after_two_hours (fun _ h ↦ absurd rfl h) (by decide +kernel) hrun
      (show _ = some (⟨statusSessionKey strict "a", 0, 1000⟩ : Line) by decide +kernel)
      (by decide +kernel)⟩

/-- A third one, again after half a second. -/
def threeReplies : List (Step strict) :=
  signsIn ++ .environment (.tick 500) :: replies 1 "a" "b" ++ .environment (.tick 500) ::
    replies 2 "b" "c" ++ .environment (.tick 500) :: replies 3 "c" "d" ++
    [.environment (.tick 7199501)]

/-- More than two hours and a second after the sign-in the key of the third reply opens the case. -/
theorem three_replies_outlast_the_two_hours :
    ∃ last, run (semantics strict) (handler strict) (opening strict oneCase (fun _ ↦ none) 0 [])
        threeReplies = some last ∧
      ∃ line, last.shared.line (statusSessionKey strict "d") = some line ∧
        line.first = statusSessionKey strict "a" ∧
        line.since + 1000 * sessionSeconds + 1000 < last.shared.now ∧
        Redis.get last.shared.redis last.shared.now (statusSessionKey strict "d") = some "7" := by
  have hrun := run_eq_get (show (run (semantics strict) (handler strict)
    (opening strict oneCase (fun _ ↦ none) 0 []) threeReplies).isSome = true by decide +kernel)
  exact ⟨_, hrun, ⟨statusSessionKey strict "a", 0, 1500⟩, by decide +kernel, rfl, by decide +kernel,
    by decide +kernel⟩

end OpenWhistle.Reporter
