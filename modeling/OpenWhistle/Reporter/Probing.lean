import OpenWhistle.Reporter.SignIn

/-!
# Probing

Two things hold of wrong credentials. The check finds no case for them, so that what follows depends
on the failure counters only; and nothing else touches a failure counter: a right attempt and the
session it opens stay off those keys. Two installations with the same counters thus answer the wrong
attempts alike, whatever cases they have and whoever signs in meanwhile. A right attempt never asks a
counter, so that no number of failures keeps it out.
-/

set_option autoImplicit false
set_option relaxedAutoImplicit false

namespace OpenWhistle.Reporter

variable {Hash : Type} {site : Site Hash}

/-! ### The check -/

theorem getReportByCredentials_of_mem {db : Database site.pins} {c : Case site.pins}
    (hc : c ∈ db.cases) : getReportByCredentials site db c.number c.pin = some c := by
  have hchecked : verifyPin site.pins c.pin c.pinHash = true := (c.verifyPin_iff c.pin).mpr rfl
  simp [getReportByCredentials, Database.byNumber_of_mem hc, hchecked]

theorem getReportByCredentials_of_not_opens {db : Database site.pins} {number pin : String}
    (hwrong : ¬db.Opens number pin) : getReportByCredentials site db number pin = none := by
  unfold getReportByCredentials
  cases hfind : db.byNumber number with
  | none => simp
  | some c =>
    have hc : c ∈ db.cases := List.mem_of_find?_eq_some hfind
    have hnumber : c.number = number := by simpa using List.find?_some hfind
    have hchecked : verifyPin site.pins pin c.pinHash = false := by
      rw [Bool.eq_false_iff, ne_eq, c.verifyPin_iff]
      rintro rfl
      exact hwrong ⟨c, hc, hnumber, rfl⟩
    simp [hchecked]

/-- A right attempt passes the check, and leaves the counters as they are. -/
theorem authenticateWhistleblower_of_mem {db : Database site.pins} {c : Case site.pins}
    {redis : Redis.Store} {clock : Command → ℕ} {caseNumber pin : String} (hc : c ∈ db.cases)
    (hnumber : site.letters.upper (Text.strip caseNumber) = c.number)
    (hpin : site.letters.lower (Text.strip pin) = c.pin) :
    authenticateWhistleblower site db redis clock caseNumber pin =
      some ((some c, 0), redis) := by
  rw [authenticateWhistleblower, hnumber, hpin, getReportByCredentials_of_mem hc]

/-! ### The counters -/

/-- The keys that count failures. -/
def failureKeys (site : Site Hash) : Set String := {key | ∃ caseKey, key = wbKey site caseKey}

/-- The key of a session is told apart by its first letter. -/
theorem statusSessionKey_notMem (token : String) : statusSessionKey site token ∉ failureKeys site := by
  rintro ⟨caseKey, heq⟩
  exact sessionPrefix_ne heq

/-- Two refusals with the same counters take the same course. -/
theorem authenticateWhistleblower_congr {db₁ db₂ : Database site.pins} {redis₁ redis₂ : Redis.Store}
    (clock : Command → ℕ) {caseNumber pin : String}
    (hcounters : Set.EqOn redis₁ redis₂ (failureKeys site))
    (hwrong₁ : ¬db₁.Opens (site.letters.upper (Text.strip caseNumber))
      (site.letters.lower (Text.strip pin)))
    (hwrong₂ : ¬db₂.Opens (site.letters.upper (Text.strip caseNumber))
      (site.letters.lower (Text.strip pin))) :
    authenticateWhistleblower site db₁ redis₁ clock caseNumber pin = none ∧
        authenticateWhistleblower site db₂ redis₂ clock caseNumber pin = none ∨
      ∃ lockoutTtl redis₁' redis₂',
        authenticateWhistleblower site db₁ redis₁ clock caseNumber pin =
          some ((none, lockoutTtl), redis₁') ∧
        authenticateWhistleblower site db₂ redis₂ clock caseNumber pin =
          some ((none, lockoutTtl), redis₂') ∧
        Set.EqOn redis₁' redis₂' (failureKeys site) := by
  have hkey : ∀ caseKey, wbKey site caseKey ∈ failureKeys site := fun caseKey ↦ ⟨caseKey, rfl⟩
  simp only [authenticateWhistleblower, getReportByCredentials_of_not_opens hwrong₁,
    getReportByCredentials_of_not_opens hwrong₂, recordWhistleblowerFailure, countFailure,
    getWhistleblowerLockoutTtl]
  rcases Redis.incr_congr hcounters (hkey (site.letters.upper (Text.strip caseNumber))) with
    ⟨hnone₁, hnone₂⟩ | ⟨count, counted₁, counted₂, hcount₁, hcount₂, heq⟩
  · left
    rw [hnone₁, hnone₂]
    exact ⟨rfl, rfl⟩
  · right
    have hwindow := fun now ↦ Redis.expire_congr heq
      (hkey (site.letters.upper (Text.strip caseNumber))) now (site.accessLockoutMinutes * 60)
    rw [hcount₁, hcount₂]
    simp only [Option.bind_eq_bind, Option.bind_some, Option.pure_def]
    by_cases hlimit : count ≤ site.maxAccessAttempts
    · rw [if_pos hlimit, if_pos hlimit]
      exact ⟨_, _, _, rfl, rfl, hwindow _⟩
    · rw [if_neg hlimit, if_neg hlimit, Redis.ttl_congr (hwindow _) (hkey _)]
      exact ⟨_, _, _, rfl, rfl, hwindow _⟩

/-! ### What a request leaves behind -/

theorem sessionReport_eq_none (s : State site.pins) (a : Attempt) : sessionReport site s a = none := by
  rw [sessionReport, a.sessionless]
  rfl

/-- A reply stays off the counters, and changes no case number and no PIN. -/
theorem takeReply_frame (s : State site.pins) (a : Attempt) (session : String)
    (report : Case site.pins) (content : String) :
    Set.EqOn (takeReply site s a session report content).2.redis s.redis (failureKeys site) ∧
      (takeReply site s a session report content).2.db.credentials = s.db.credentials := by
  simp only [takeReply]
  split
  · exact ⟨fun _ _ ↦ rfl, rfl⟩
  split
  · exact ⟨fun _ _ ↦ rfl, rfl⟩
  constructor
  · exact Redis.eqOn_delete_left
      (Redis.eqOn_set_left (fun _ _ ↦ rfl) (statusSessionKey_notMem a.fresh) _ _)
      (statusSessionKey_notMem session)
  · simp only
    split
    · rfl
    · exact Database.credentials_addWhistleblowerMessage _ _ _

theorem openSession_frame (s : State site.pins) (a : Attempt) (report : Case site.pins) :
    Set.EqOn (openSession site s a report).redis s.redis (failureKeys site) :=
  Redis.eqOn_set_left (fun _ _ ↦ rfl) (statusSessionKey_notMem a.token) _ _

theorem required_eq_some {field : Option String} {value : String}
    (h : required field = some value) : field.getD "" = value := by
  obtain ⟨hfield, -⟩ := Option.filter_eq_some_iff.mp h
  rw [hfield, Option.getD_some]

/-- What was typed belongs together in the database. -/
def Attempt.Right (site : Site Hash) (db : Database site.pins) (a : Attempt) : Prop :=
  db.Opens (a.lookedUp site).1 (a.lookedUp site).2

/-- An attempt changes no case number and no PIN. -/
theorem credentials_step (s : State site.pins) (a : Attempt) :
    (step site s a).2.db.credentials = s.db.credentials := by
  unfold step
  split
  · unfold statusPost
    split
    · split <;> rfl
    · rfl
  · simp only [replyPost, sessionReport_eq_none]
    split
    · rfl
    split
    · rfl
    split
    · rfl
    · rfl
    · exact (takeReply_frame _ _ _ _ _).2

theorem right_congr {db db' : Database site.pins} (heq : db'.credentials = db.credentials)
    (a : Attempt) : a.Right site db' ↔ a.Right site db := by
  rw [Attempt.Right, Attempt.Right, Database.opens_iff, Database.opens_iff, heq]

/-- A right attempt stays off the failure counters. -/
theorem redis_step_of_right {s : State site.pins} {a : Attempt} (hright : a.Right site s.db) :
    Set.EqOn (step site s a).2.redis s.redis (failureKeys site) := by
  obtain ⟨c, hc, hnumber, hpin⟩ := hright
  rw [Attempt.lookedUp] at hnumber hpin
  unfold step
  split
  · unfold statusPost
    split
    · rename_i caseNumber pin hcase hsecret
      rw [required_eq_some hcase] at hnumber
      rw [required_eq_some hsecret] at hpin
      rw [authenticateWhistleblower_of_mem hc hnumber.symm hpin.symm]
      exact openSession_frame s a c
    · exact fun _ _ ↦ rfl
  · simp only [replyPost, sessionReport_eq_none]
    split
    · exact fun _ _ ↦ rfl
    split
    · exact fun _ _ ↦ rfl
    simp only [authenticateWhistleblower_of_mem hc hnumber.symm hpin.symm]
    have hframe := takeReply_frame (openSession site ⟨s.db, s.redis⟩ a c) a a.token c
    exact (hframe _).1.trans (openSession_frame ⟨s.db, s.redis⟩ a c)

/-- Two installations with the same counters answer a wrong attempt alike, and have the same
counters afterwards. -/
theorem step_congr {s₁ s₂ : State site.pins} {a : Attempt}
    (hcounters : Set.EqOn s₁.redis s₂.redis (failureKeys site)) (hwrong₁ : ¬a.Right site s₁.db)
    (hwrong₂ : ¬a.Right site s₂.db) :
    (step site s₁ a).1 = (step site s₂ a).1 ∧
      Set.EqOn (step site s₁ a).2.redis (step site s₂ a).2.redis (failureKeys site) := by
  unfold step
  split
  · unfold statusPost
    split
    · rename_i caseNumber pin hcase hsecret
      rw [Attempt.Right, Attempt.lookedUp, required_eq_some hcase, required_eq_some hsecret]
        at hwrong₁ hwrong₂
      rcases authenticateWhistleblower_congr a.clock hcounters hwrong₁ hwrong₂ with
        ⟨hraises₁, hraises₂⟩ | ⟨lockoutTtl, redis₁, redis₂, hrefused₁, hrefused₂, heq⟩
      · rw [hraises₁, hraises₂]
        exact ⟨rfl, hcounters⟩
      · rw [hrefused₁, hrefused₂]
        exact ⟨rfl, heq⟩
    · exact ⟨rfl, hcounters⟩
  · simp only [replyPost, sessionReport_eq_none]
    split
    · exact ⟨rfl, hcounters⟩
    split
    · exact ⟨rfl, hcounters⟩
    rcases authenticateWhistleblower_congr a.clock hcounters hwrong₁ hwrong₂ with
      ⟨hraises₁, hraises₂⟩ | ⟨lockoutTtl, redis₁, redis₂, hrefused₁, hrefused₂, heq⟩
    · rw [hraises₁, hraises₂]
      exact ⟨rfl, hcounters⟩
    · rw [hrefused₁, hrefused₂]
      exact ⟨rfl, heq⟩

/-! ### Two installations -/

/-- The counters agree, and the credentials on either side are still those of the beginning. -/
structure Alike (db₁ db₂ : Database site.pins) (s₁ s₂ : State site.pins) : Prop where
  counters : Set.EqOn s₁.redis s₂.redis (failureKeys site)
  first : s₁.db.credentials = db₁.credentials
  second : s₂.db.credentials = db₂.credentials

theorem wrong_eq_true_iff {db : Database site.pins} {a : Attempt} :
    a.wrong site db = true ↔ ¬a.Right site db := by
  rw [Attempt.wrong, Bool.not_eq_true', decide_eq_false_iff_not, Attempt.Right]

theorem wrong_eq_false_iff {db : Database site.pins} {a : Attempt} :
    a.wrong site db = false ↔ a.Right site db := by
  rw [Attempt.wrong, Bool.not_eq_false', decide_eq_true_iff, Attempt.Right]

/-- The counters survive what the reporters do on either side, and what the prober does on both. -/
theorem unwinds (db₁ db₂ : Database site.pins) :
    TwoRuns.Unwinds (step site) (step site) (Attempt.wrong site db₁) (Attempt.wrong site db₂)
      (Alike db₁ db₂) where
  left s₁ s₂ a halike hright := by
    have hright := (right_congr halike.first a).mpr (wrong_eq_false_iff.mp hright)
    exact ⟨(redis_step_of_right hright).trans halike.counters,
      (credentials_step s₁ a).trans halike.first, halike.second⟩
  right s₁ s₂ a halike hright := by
    have hright := (right_congr halike.second a).mpr (wrong_eq_false_iff.mp hright)
    exact ⟨halike.counters.trans (redis_step_of_right hright).symm, halike.first,
      (credentials_step s₂ a).trans halike.second⟩
  answer s₁ s₂ a halike hwrong₁ hwrong₂ :=
    (step_congr halike.counters
      (fun hright ↦ wrong_eq_true_iff.mp hwrong₁ ((right_congr halike.first a).mp hright))
      (fun hright ↦ wrong_eq_true_iff.mp hwrong₂ ((right_congr halike.second a).mp hright))).1
  both s₁ s₂ a halike hwrong₁ hwrong₂ := by
    have hcounters := (step_congr halike.counters
      (fun hright ↦ wrong_eq_true_iff.mp hwrong₁ ((right_congr halike.first a).mp hright))
      (fun hright ↦ wrong_eq_true_iff.mp hwrong₂ ((right_congr halike.second a).mp hright))).2
    exact ⟨hcounters, (credentials_step s₁ a).trans halike.first,
      (credentials_step s₂ a).trans halike.second⟩

/-! ### Right credentials -/

/-- A reply with something in it, and not too much. -/
def Attempt.Acceptable (a : Attempt) : Prop :=
  ∃ content, required a.content = some content ∧ Text.strip (Text.lf content) ≠ "" ∧
    (Text.strip (Text.lf content)).toList.length ≤ maxReply

/-- The attempt opens the case with this id. The form leads to the case and to a session of two hours. A
reply is taken, and leads to the case and to a session; one that no case would take is refused
as such. -/
def Unlocks (site : Site Hash) (s : State site.pins) (a : Attempt) (id : String) : Prop :=
  match a.route with
  | .status => (step site s a).1 = .seeOther "/status" a.token ∧
      ∀ now ≤ a.clock .openSession + 1000 * sessionSeconds,
        Redis.get (step site s a).2.redis now (statusSessionKey site a.token) = some id
  | .reply => (a.Acceptable → (∃ location, (step site s a).1 = .seeOther location a.fresh) ∧
        (site.digest a.token ≠ site.digest a.fresh →
          Redis.get (step site s a).2.redis (a.clock .renewSession)
            (statusSessionKey site a.fresh) = some id)) ∧
      (¬a.Acceptable → (step site s a).1 ∈ [.validationError, .httpException 422])

theorem required_of_typed {field : Option String} {issued typed : String}
    (hfield : field = some typed) (htyped : Text.Typed issued typed) (hissued : issued ≠ "") :
    required field = some typed := by
  have hne : typed ≠ "" := by
    rintro rfl
    obtain ⟨before, core, after, heq, -, -, hsame⟩ := htyped
    have hcore : core = [] := by
      have hnil : [] = before ++ core ++ after := heq
      simp only [List.nil_eq, List.append_eq_nil_iff] at hnil
      exact hnil.1.2
    rw [hcore, List.map_nil, List.nil_eq, List.map_eq_nil_iff, String.toList_eq_nil_iff] at hsame
    exact hissued hsame
  rw [required, hfield, Option.filter_some, if_pos (decide_eq_true hne)]

theorem takeReply_of_acceptable {s : State site.pins} {a : Attempt} {session : String}
    {report : Case site.pins} {content : String} (hne : Text.strip content ≠ "")
    (hlength : (Text.strip content).toList.length ≤ maxReply) :
    (∃ location, (takeReply site s a session report content).1 = .seeOther location a.fresh) ∧
      (site.digest session ≠ site.digest a.fresh →
        Redis.get (takeReply site s a session report content).2.redis (a.clock .renewSession)
          (statusSessionKey site a.fresh) = some report.id) := by
  simp only [takeReply]
  rw [if_neg hne, if_neg (Nat.not_lt.mpr hlength)]
  refine ⟨⟨_, rfl⟩, fun hdigest ↦ ?_⟩
  have hkeys : statusSessionKey site a.fresh ≠ statusSessionKey site session := by
    intro heq
    exact hdigest ((String.append_right_inj "status-session:").mp heq).symm
  simp only
  rw [Redis.get_delete_of_ne hkeys, Redis.get_set_self]
  omega

theorem takeReply_of_not_acceptable {s : State site.pins} {a : Attempt} {session : String}
    {report : Case site.pins} {content : String}
    (hbad : Text.strip content = "" ∨ maxReply < (Text.strip content).toList.length) :
    (takeReply site s a session report content).1 = .httpException 422 := by
  simp only [takeReply]
  rcases hbad with hempty | hlong
  · rw [if_pos hempty]
  · by_cases hempty : Text.strip content = ""
    · rw [if_pos hempty]
    · rw [if_neg hempty, if_pos hlong]

/-- What was typed in any letter case and with any whitespace opens the case, whatever the counters
say. -/
theorem unlocks_of_typed {s : State site.pins} {a : Attempt} {c : Case site.pins}
    {caseNumber pin : String} (hc : c ∈ s.db.cases) (hnumber : a.caseNumber = some caseNumber)
    (hpin : a.pin = some pin) (htypedNumber : Text.Typed c.number caseNumber)
    (htypedPin : Text.Typed c.pin pin) : Unlocks site s a c.id := by
  have hauth : authenticateWhistleblower site s.db s.redis a.clock caseNumber pin =
      some ((some c, 0), s.redis) :=
    authenticateWhistleblower_of_mem hc
      (Text.upper_strip_typed site.letters htypedNumber c.number_issued.graphic
        c.number_issued.capital)
      (Text.lower_strip_typed site.letters htypedPin c.pin_issued.graphic c.pin_issued.small)
  have hgiven := required_of_typed hnumber htypedNumber c.number_issued.nonempty
  have hsecret := required_of_typed hpin htypedPin c.pin_issued.nonempty
  unfold Unlocks
  cases hroute : a.route with
  | status =>
    have hstep : step site s a = (.seeOther "/status" a.token, openSession site ⟨s.db, s.redis⟩ a c) := by
      simp only [step, hroute, statusPost, hgiven, hsecret, hauth]
    rw [hstep]
    exact ⟨rfl, fun now hnow ↦ Redis.get_set_self hnow⟩
  | reply =>
    have hsent : ¬(caseNumber = "" ∨ pin = "") := by
      have hne := (Option.filter_eq_some_iff.mp hgiven).2
      have hne' := (Option.filter_eq_some_iff.mp hsecret).2
      rintro (hempty | hempty)
      · exact of_decide_eq_true hne hempty
      · exact of_decide_eq_true hne' hempty
    have hstep : ∀ content, required a.content = some content →
        step site s a = takeReply site (openSession site ⟨s.db, s.redis⟩ a c) a a.token c
          (Text.lf content) := by
      intro content hcontent
      simp only [step, hroute, replyPost, hcontent, sessionReport_eq_none, hnumber, hpin,
        Option.getD_some, if_neg hsent, hauth]
    constructor
    · rintro ⟨content, hcontent, hne, hlength⟩
      rw [hstep content hcontent]
      exact takeReply_of_acceptable hne hlength
    · intro hbad
      cases hcontent : required a.content with
      | none =>
        have hanswer : (step site s a).1 = .validationError := by
          simp only [step, hroute, replyPost, hcontent]
        rw [hanswer]
        exact List.mem_cons_self
      | some content =>
        rw [hstep content hcontent, takeReply_of_not_acceptable]
        · exact List.mem_cons_of_mem _ List.mem_cons_self
        · by_contra hgood
          rw [not_or, Nat.not_lt] at hgood
          exact hbad ⟨content, hcontent, hgood⟩

/-- The reporters keep their case numbers and PINs. -/
theorem credentials_run (s : State site.pins) (attempts : List Attempt) :
    (TwoRuns.run (step site) s attempts).db.credentials = s.db.credentials :=
  TwoRuns.run_frame (fun s ↦ s.db.credentials) credentials_step s attempts

/-- A prober with wrong credentials learns nothing: two installations with the same failure counters
give the same answers to the same wrong attempts, whatever cases either has and whatever right
attempts are made there before, between and after. And it locks nobody out: after any attempts, the
case number and the PIN of a case open it, in any letter case and with any whitespace around them. -/
theorem wrong_credentials_tell_nothing (site : Site Hash) :
    (∀ (db₁ db₂ : Database site.pins) (redis₁ redis₂ : Redis.Store) (attempts₁ attempts₂ : List Attempt),
      Set.EqOn redis₁ redis₂ (failureKeys site) →
      attempts₁.filter (Attempt.wrong site db₁) = attempts₂.filter (Attempt.wrong site db₂) →
      TwoRuns.answers (step site) (Attempt.wrong site db₁) ⟨db₁, redis₁⟩ attempts₁ =
        TwoRuns.answers (step site) (Attempt.wrong site db₂) ⟨db₂, redis₂⟩ attempts₂) ∧
    ∀ (db : Database site.pins) (redis : Redis.Store) (earlier : List Attempt) (a : Attempt)
      (c : Case site.pins) (caseNumber pin : String), c ∈ db.cases → a.caseNumber = some caseNumber →
      a.pin = some pin → Text.Typed c.number caseNumber → Text.Typed c.pin pin →
      Unlocks site (TwoRuns.run (step site) ⟨db, redis⟩ earlier) a c.id := by
  constructor
  · intro db₁ db₂ redis₁ redis₂ attempts₁ attempts₂ hcounters hsame
    exact (unwinds db₁ db₂).answers_eq attempts₁ attempts₂ ⟨hcounters, rfl, rfl⟩ hsame
  · intro db redis earlier a c caseNumber pin hc hnumber hpin htypedNumber htypedPin
    have hmem : (c.id, c.number, c.pin) ∈
        (TwoRuns.run (step site) ⟨db, redis⟩ earlier).db.credentials := by
      rw [credentials_run]
      exact List.mem_map.mpr ⟨c, hc, rfl⟩
    obtain ⟨c', hc', heq⟩ := List.mem_map.mp hmem
    obtain ⟨hid, hrest⟩ := Prod.mk.inj heq
    obtain ⟨hsameNumber, hsamePin⟩ := Prod.mk.inj hrest
    rw [← hid]
    rw [← hsameNumber] at htypedNumber
    rw [← hsamePin] at htypedPin
    exact unlocks_of_typed hc' hnumber hpin htypedNumber htypedPin

/-- An installation that locks after one failure. -/
def strict : Site String where
  letters := Text.Letters.ascii
  pins := PinHash.clear
  timingDummySalt := 0
  digest := id
  translate _ key := key
  maxAccessAttempts := 1
  accessLockoutMinutes := 15

def openCase : Case strict.pins where
  id := "7"
  number := generateCaseNumber 2026 48210
  pin := generatePin 0
  pinHash := generatePin 0
  status := .received
  messages := []
  number_issued := issuedNumber_generateCaseNumber 2026 48210
  pin_issued := issuedPin_generatePin 0
  hashed := ⟨0, rfl⟩

def noCase : Database strict.pins := ⟨[], List.nodup_nil, List.nodup_nil⟩

def oneCase : Database strict.pins := ⟨[openCase], List.nodup_singleton _, List.nodup_singleton _⟩

def attemptAt (second : ℕ) (pin : String) : Attempt where
  route := .status
  caseNumber := some " ow-2026-48210"
  pin := some pin
  content := none
  cookie := none
  lang := "de"
  clock _ := 1000 * second
  token := "t"
  fresh := "u"
  sessionless := rfl

/-- A prober who tries a PIN twice is told the same of a case that does not exist and of one whose
reporter signs in between the two attempts; and afterwards the reporter gets in again. -/
theorem wrong_credentials_tell_nothing_of_openCase :
    TwoRuns.answers (step strict) (Attempt.wrong strict noCase) ⟨noCase, fun _ ↦ none⟩
        [attemptAt 1 "guess", attemptAt 3 "guess"] =
      TwoRuns.answers (step strict) (Attempt.wrong strict oneCase) ⟨oneCase, fun _ ↦ none⟩
        [attemptAt 1 "guess", attemptAt 2 (generatePin 0), attemptAt 3 "guess"] ∧
    Unlocks strict (TwoRuns.run (step strict) ⟨oneCase, fun _ ↦ none⟩
      [attemptAt 1 "guess", attemptAt 3 "guess"]) (attemptAt 4 (generatePin 0)) "7" := by
  have htyped : Text.Typed (generateCaseNumber 2026 48210) " ow-2026-48210" :=
    ⟨[' '], "ow-2026-48210".toList, [], by decide +kernel, Text.forall_of_all (by decide),
      (fun _ hc ↦ nomatch hc), by decide +kernel⟩
  have hsame : [attemptAt 1 "guess", attemptAt 3 "guess"].filter (Attempt.wrong strict noCase) =
      [attemptAt 1 "guess", attemptAt 2 (generatePin 0), attemptAt 3 "guess"].filter
        (Attempt.wrong strict oneCase) := by
    have hnone : ∀ a ∈ [attemptAt 1 "guess", attemptAt 3 "guess"],
        Attempt.wrong strict noCase a = true := by decide +kernel
    have hguess : (attemptAt 1 "guess").wrong strict oneCase = true ∧
        (attemptAt 3 "guess").wrong strict oneCase = true := by decide +kernel
    have hright : (attemptAt 2 (generatePin 0)).wrong strict oneCase = false := by decide +kernel
    rw [List.filter_eq_self.mpr hnone, List.filter_cons_of_pos hguess.1,
      List.filter_cons_of_neg (Bool.eq_false_iff.mp hright), List.filter_cons_of_pos hguess.2,
      List.filter_nil]
  exact ⟨(wrong_credentials_tell_nothing strict).1 _ _ _ _ _ _ (fun _ _ ↦ rfl) hsame,
    (wrong_credentials_tell_nothing strict).2 _ _ _ _ openCase _ _ List.mem_cons_self rfl rfl htyped
      ⟨[], (generatePin 0).toList, [], (List.append_nil _).symm, nofun, nofun, rfl⟩⟩

end OpenWhistle.Reporter
