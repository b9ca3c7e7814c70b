import OpenWhistle.Foundation.Contract
import OpenWhistle.Usernames.Creation

/-!
# One account of a name

Names are distinct in lower case as long as two things hold: no account is committed while another one
of its name has been committed since its transaction has looked, and a name of the directory that the
database lowers differently from Python belongs to nobody yet. Names from the form are plain ASCII,
which both lower in the same way.
-/

set_option autoImplicit false
set_option relaxedAutoImplicit false

namespace OpenWhistle.Usernames

open Interleaving CheckedInsert Accounts

variable {spelling : Spelling}

/-- Where a transaction commits an account, none of the same name has been committed since it looked
for one; and where it looks for a name that the database lowers differently, nobody has that name. -/
def Unraced (spelling : Spelling) (w : ℕ) (operation : Op) (s : Names) : Prop :=
  match operation with
  | .commit => ∀ user ∈ s.users.pendingOf w,
      s.users.NoneSince (lowered spelling) (lowered spelling user) (s.checkedAt w)
  | .taken username => spelling.python.lower username ≠ spelling.database.lower username →
      ∀ user ∈ s.users.rows, lowered spelling user ≠ spelling.database.lower username
  | _ => True

instance (w : ℕ) (operation : Op) (s : Names) : Decidable (Unraced spelling w operation s) := by
  cases operation <;> unfold Unraced <;> infer_instance

variable {s t u : Names} {w v : ℕ}

/-! ### Names from the form -/

theorem lt_of_isUsernameChar {c : Char} (h : isUsernameChar c = true) : c.toNat < 128 := by
  delta isUsernameChar Char.isAlphanum Char.isAlpha Char.isUpper Char.isLower Char.isDigit at h
  simp only [Bool.or_eq_true, Bool.and_eq_true, decide_eq_true_eq, ge_iff_le,
    UInt32.le_iff_toNat_le] at h
  have htoNat : c.toNat = c.val.toNat := rfl
  rw [htoNat]
  rcases h with (((((((⟨-, h⟩ | ⟨-, h⟩) | ⟨-, h⟩) | rfl) | rfl) | rfl) | rfl) | rfl)
  · exact Nat.lt_of_le_of_lt h (by decide)
  · exact Nat.lt_of_le_of_lt h (by decide)
  · exact Nat.lt_of_le_of_lt h (by decide)
  all_goals decide

/-- A name from the form is lowered in one way. -/
theorem lower_of_validateUsername {username name : String}
    (h : validateUsername username = some name) :
    name = Text.strip username ∧ spelling.python.lower name = spelling.database.lower name := by
  unfold validateUsername at h
  dsimp only at h
  split_ifs at h with hvalid
  cases h
  refine ⟨rfl, ?_⟩
  have hascii : ∀ c ∈ (Text.strip username).toList, c.toNat < 128 := fun c hc ↦
    lt_of_isUsernameChar (List.all_eq_true.mp hvalid.1 c hc)
  rw [spelling.python.lower_ascii _ hascii, spelling.database.lower_ascii _ hascii]

/-! ### The contract -/

/-- What the others leave of a transaction, and what they leave of what it has learnt. -/
structure Around (spelling : Spelling) (w : ℕ) (s t : Names) : Prop where
  pending : t.users.pendingOf w = s.users.pendingOf w
  checkedAt : t.checkedAt w = s.checkedAt w
  commits : s.users.commits ≤ t.users.commits
  since : ∀ k n, n ≤ s.users.commits → s.users.Since (lowered spelling) k n →
    t.users.Since (lowered spelling) k n

theorem Around.refl (w : ℕ) (s : Names) : Around spelling w s s :=
  ⟨rfl, rfl, le_rfl, fun _ _ _ h ↦ h⟩

theorem Around.trans (hst : Around spelling w s t) (htu : Around spelling w t u) :
    Around spelling w s u where
  pending := htu.pending.trans hst.pending
  checkedAt := htu.checkedAt.trans hst.checkedAt
  commits := hst.commits.trans htu.commits
  since k n hn h := htu.since k n (hn.trans hst.commits) (hst.since k n hn h)

/-- What the requests that make accounts owe each other. -/
def naming (spelling : Spelling) : Contract (semantics spelling) Request Answer where
  invariant s := s.users.Distinct (lowered spelling)
  rely := Around spelling
  rely_refl := Around.refl
  rely_trans _ _ _ _ := Around.trans
  idle w s := s.users.pendingOf w = []
  idle_stable _ _ _ h haround _ := haround.pending.trans h
  ends _ _ _ := True
  ends_stable _ _ _ _ _ _ _ := trivial
  admits _ := True
  allows := Unraced spelling
  trusts _ _ _ := True
  tolerates _ _ := True
  environment_safe change := change.elim

/-- The transaction has inserted nothing. -/
def Clean (w : ℕ) (s : Names) : Prop := s.users.pendingOf w = []

/-- The transaction has found no account of a name. -/
structure Free (spelling : Spelling) (w : ℕ) (name : String) (s : Names) : Prop where
  clean : Clean w s
  since : s.users.Since (lowered spelling) (spelling.database.lower name) (s.checkedAt w)
  checkedAt : s.checkedAt w ≤ s.users.commits

/-- The transaction has inserted an account of a name of which it had found none. -/
structure Inserted (spelling : Spelling) (w : ℕ) (name : String) (s : Names) : Prop where
  pending : ∃ user, s.users.pendingOf w = [user] ∧ user.username = name
  since : s.users.Since (lowered spelling) (spelling.database.lower name) (s.checkedAt w)
  checkedAt : s.checkedAt w ≤ s.users.commits

theorem Clean.later (h : Clean w s) (haround : Around spelling w s t) : Clean w t :=
  haround.pending.trans h

theorem Free.later {name : String} (h : Free spelling w name s) (haround : Around spelling w s t) :
    Free spelling w name t where
  clean := h.clean.later haround
  since := haround.checkedAt ▸ haround.since _ _ h.checkedAt h.since
  checkedAt := haround.checkedAt ▸ h.checkedAt.trans haround.commits

theorem Inserted.later {name : String} (h : Inserted spelling w name s)
    (haround : Around spelling w s t) : Inserted spelling w name t where
  pending := haround.pending ▸ h.pending
  since := haround.checkedAt ▸ haround.since _ _ h.checkedAt h.since
  checkedAt := haround.checkedAt ▸ h.checkedAt.trans haround.commits

/-! ### The steps of a request -/

/-- Whoever looks and finds none of the name knows that later ones are committed later. -/
theorem free_of_none {name : String} (hclean : Clean w s)
    (hnone : ∀ user ∈ s.users.rows, lowered spelling user ≠ spelling.database.lower name) :
    Free spelling w name { s with checkedAt := Function.update s.checkedAt w s.users.commits } where
  clean := hclean
  since := by
    dsimp only
    rw [Function.update_self]
    exact Table.since_of_none hnone
  checkedAt := by
    dsimp only
    rw [Function.update_self]

theorem safe_getUserByUsernameCi {username : String} (h : Clean w s) :
    Safe (naming spelling) w (Returns fun found t ↦ Clean w t ∧
      (found = none → ∀ name, spelling.python.lower (Text.strip username) =
        spelling.database.lower name → Free spelling w name t))
      (call (.getUserByUsernameCi username)) s := by
  refine Safe.call_returns fun t haround hinv _ draw reply u hperform ↦ ?_
  have hclean := h.later haround
  cases hperform
  refine ⟨hinv, fun v hv ↦ ⟨rfl, Function.update_of_ne hv .., le_rfl, fun _ _ _ h ↦ h⟩,
    fun found hfound ↦ ⟨hclean, ?_⟩⟩
  rintro rfl name hname
  refine free_of_none hclean fun user hmem heq ↦ ?_
  have hempty : t.called spelling (spelling.python.lower (Text.strip username)) = [] :=
    eq_nil_of_scalarOneOrNone hfound
  exact List.filter_eq_nil_iff.mp hempty user hmem (decide_eq_true (heq.trans hname.symm))

theorem safe_taken {username : String} (h : Clean w s) :
    Safe (naming spelling) w (Returns fun found t ↦ Clean w t ∧
      (found = none → Free spelling w username t)) (call (.taken username)) s := by
  refine Safe.call_returns fun t haround hinv hallows draw reply u hperform ↦ ?_
  have hclean := h.later haround
  cases hperform
  refine ⟨hinv, fun v hv ↦ ⟨rfl, Function.update_of_ne hv .., le_rfl, fun _ _ _ h ↦ h⟩,
    fun found hfound ↦ ⟨hclean, ?_⟩⟩
  rintro rfl
  refine free_of_none hclean fun user hmem heq ↦ ?_
  by_cases hsame : spelling.python.lower username = spelling.database.lower username
  · have hempty : t.called spelling (spelling.python.lower username) = [] :=
      List.head?_eq_none_iff.mp (Option.map_eq_none_iff.mp (Except.ok.inj hfound))
    exact List.filter_eq_nil_iff.mp hempty user hmem (decide_eq_true (heq.trans hsame.symm))
  · exact hallows hsame user hmem heq

/-- A step that only reads. -/
theorem safe_read {operation : Op} {keeps : Names → Prop}
    (hlater : ∀ t, Around spelling w s t → keeps t)
    (hreads : ∀ draw t reply u, perform spelling w operation draw t = some (reply, u) → u = t) :
    Safe (naming spelling) w (Returns fun _ ↦ keeps) (call operation) s := by
  refine Safe.call_returns fun t haround hinv _ draw reply u hperform ↦ ?_
  obtain rfl := hreads draw t reply u hperform
  exact ⟨hinv, fun v _ ↦ Around.refl v u, fun _ _ ↦ hlater u haround⟩

/-- An account is inserted, or nothing has changed. -/
theorem insertUser_cases {user : AdminUser} {reply : Except Fault AdminUser}
    (h : s.insertUser w user = some (reply, u)) : ((∃ fault, reply = .error fault) ∧ u = s) ∨
      (reply = .ok user ∧ u = { s with users := s.users.insert w user }) := by
  unfold Names.insertUser at h
  split_ifs at h
  · cases h
    exact .inl ⟨⟨_, rfl⟩, rfl⟩
  · cases h
    exact .inl ⟨⟨_, rfl⟩, rfl⟩
  · cases h
    exact .inr ⟨rfl, rfl⟩

theorem safe_insertUser {name : String} {ldapUsername : Option String} {role : AdminRole}
    {orgId : Option ℕ} {createdById : Option UserId} (h : Free spelling w name s) :
    Safe (naming spelling) w (Returns fun _ ↦ Inserted spelling w name)
      (call (.insertUser name ldapUsername role orgId createdById)) s := by
  refine Safe.call_returns fun t haround hinv _ draw reply u hperform ↦ ?_
  have hfree := h.later haround
  rcases insertUser_cases hperform with ⟨⟨fault, rfl⟩, rfl⟩ | ⟨rfl, rfl⟩
  · exact ⟨hinv, fun v _ ↦ Around.refl v u, fun _ heq ↦ nomatch heq⟩
  · exact ⟨hinv, fun v hv ↦ ⟨Table.pendingOf_insert_of_ne hv _, rfl, le_rfl, fun _ _ _ h ↦ h⟩,
      fun _ _ ↦ ⟨⟨_, (Table.pendingOf_insert_self _).trans (congrArg _ hfree.clean), rfl⟩,
        hfree.since, hfree.checkedAt⟩⟩

theorem safe_commit {name : String} (h : Inserted spelling w name s) :
    Safe (naming spelling) w (Returns fun _ _ ↦ True) (call .commit) s := by
  refine Safe.call_returns fun t haround hinv hallows draw reply u hperform ↦ ?_
  have hinserted := h.later haround
  cases hperform
  refine ⟨?_, fun v hv ↦ ⟨Table.pendingOf_commit_of_ne hv, rfl, Nat.le_succ _,
    fun _ _ hn h ↦ h.commit hn⟩, fun _ _ ↦ trivial⟩
  obtain ⟨user, hpending, rfl⟩ := hinserted.pending
  exact Table.Distinct.commit hinv hpending hinserted.since
    (hallows user (hpending ▸ List.mem_singleton_self user))

theorem safe_close : Safe (naming spelling) w (Returns fun _ _ ↦ True) (call .close) s := by
  refine Safe.call_returns fun t haround hinv _ draw reply u hperform ↦ ?_
  cases hperform
  exact ⟨hinv, fun v hv ↦ ⟨Table.pendingOf_abort_of_ne hv, rfl, le_rfl, fun _ _ _ h ↦ h⟩,
    fun _ _ ↦ trivial⟩

/-! ### The routes -/

/-- The transaction has found no account of the name that a form asks for. -/
def FreeFor (spelling : Spelling) (w : ℕ) (username : String) (s : Names) : Prop :=
  ∀ name, spelling.python.lower (Text.strip username) = spelling.database.lower name →
    Free spelling w name s

theorem FreeFor.later {username : String} (h : FreeFor spelling w username s)
    (haround : Around spelling w s t) : FreeFor spelling w username t :=
  fun name hname ↦ (h name hname).later haround

theorem safe_usernameErrors {username : String} (h : Clean w s) :
    Safe (naming spelling) w (Returns fun errors t ↦ errors = [] →
      FreeFor spelling w (Text.strip username) t) (usernameErrors username) s := by
  unfold usernameErrors
  split
  · exact Safe.ret fun heq ↦ nomatch heq
  · refine Safe.andThen (safe_getUserByUsernameCi h) fun found t hfound ↦ Safe.ret fun hnone ↦ ?_
    cases found with
    | none => exact hfound.2 rfl
    | some user => cases hnone

theorem safe_svcCreate {username password : String} {role : AdminRole} {orgId : Option ℕ}
    {createdById : UserId} (h : FreeFor spelling w username s) :
    Safe (naming spelling) w (Returns fun created t ↦ created ≠ none →
      ∃ name, Inserted spelling w name t) (svcCreate username password role orgId createdById) s := by
  unfold svcCreate
  split
  · exact Safe.ret fun hnone ↦ absurd rfl hnone
  rename_i name hname
  have hnamed : name = Text.strip username ∧
      spelling.python.lower name = spelling.database.lower name := lower_of_validateUsername hname
  obtain ⟨hstrip, hlower⟩ := hnamed
  split_ifs
  · refine Safe.andThen (safe_insertUser (h name (hstrip ▸ hlower))) fun user t hinserted ↦ ?_
    exact Safe.ret fun _ ↦ ⟨name, hinserted⟩
  · exact Safe.ret fun hnone ↦ absurd rfl hnone

theorem safe_createUser {username password role : String} {currentUser : AdminUser}
    (h : Clean w s) : Safe (naming spelling) w (Returns fun _ _ ↦ True)
      (createUser username password role currentUser) s := by
  have hnames : Safe (naming spelling) w (Returns fun errors t ↦ errors = [] →
      FreeFor spelling w (Text.strip username) t) (usernameErrors username) s :=
    safe_usernameErrors h
  refine Safe.andThen hnames fun errors t herrors ↦ ?_
  split_ifs with hwrong
  · exact Safe.ret trivial
  have hfree := herrors (List.append_eq_nil_iff.mp (not_not.mp hwrong)).1
  split
  · exact Safe.ret trivial
  split_ifs
  · exact Safe.ret trivial
  refine Safe.andThen (safe_read (fun _ ↦ hfree.later) fun _ _ _ _ hperform ↦ by
    cases hperform; rfl) fun org t hfree ↦ ?_
  cases org with
  | none => exact Safe.ret trivial
  | some orgId =>
    refine Safe.andThen (safe_svcCreate hfree) fun created t hcreated ↦ ?_
    cases created with
    | none => exact Safe.ret trivial
    | some user =>
      obtain ⟨name, hinserted⟩ := hcreated (Option.some_ne_none user)
      exact Safe.andThen (safe_commit hinserted) fun _ t _ ↦ Safe.ret trivial

theorem safe_directoryLogin {username : String} (h : Clean w s) :
    Safe (naming spelling) w (Returns fun _ _ ↦ True) (directoryLogin username) s := by
  refine Safe.andThen (safe_read (fun _ ↦ h.later) fun _ _ _ _ hperform ↦ by
    cases hperform; rfl) fun found t hclean ↦ ?_
  cases found with
  | some user => exact Safe.ret trivial
  | none =>
    refine Safe.andThen (safe_taken hclean) fun taken t htaken ↦ ?_
    cases taken with
    | some other => exact Safe.ret trivial
    | none =>
      have hfree := htaken.2 rfl
      refine Safe.andThen (safe_read (fun _ ↦ hfree.later) fun _ _ _ _ hperform ↦ by
        cases hperform; rfl) fun orgId t hfree ↦ ?_
      refine Safe.andThen (safe_insertUser hfree) fun user t hinserted ↦ ?_
      exact Safe.andThen (safe_commit hinserted) fun _ t _ ↦ Safe.ret trivial

theorem naming_handles : (naming spelling).Handles handler := by
  intro w request s _ _ hclean
  have hsafe : Safe (naming spelling) w (Returns fun _ _ ↦ True) (handler request) s := by
    cases request with
    | createUser username password role currentUser =>
      have hroute : Safe (naming spelling) w (Returns fun _ _ ↦ True)
          (createUser username password role currentUser) s := safe_createUser hclean
      exact Safe.ensuring hroute fun _ ↦ safe_close
    | directoryLogin username =>
      have hroute : Safe (naming spelling) w (Returns fun _ _ ↦ True)
          (directoryLogin username) s := safe_directoryLogin hclean
      exact Safe.ensuring hroute fun _ ↦ safe_close
  exact Safe.imp (fun _ _ _ ↦ trivial) hsafe

/-! ### The theorem -/

/-- No two accounts have the same name in lower case, and looking for a name never fails. -/
structure Unique (spelling : Spelling) (s : Names) : Prop where
  once : s.users.rows.Nodup ∧ ∀ first ∈ s.users.rows, ∀ second ∈ s.users.rows,
    lowered spelling first = lowered spelling second → first = second
  /-- Python's lower case tells those accounts apart whose names it lowers as the database does. -/
  python : ∀ first ∈ s.users.rows, ∀ second ∈ s.users.rows,
    spelling.python.lower first.username = lowered spelling first →
    spelling.python.lower second.username = lowered spelling second →
    spelling.python.lower first.username = spelling.python.lower second.username → first = second
  total : ∀ username, ∃ found, s.getUserByUsernameCi spelling username = .ok found

theorem unique_of_distinct (h : s.users.Distinct (lowered spelling)) : Unique spelling s where
  once := ⟨List.Nodup.of_map _ h, fun _ hfirst _ hsecond heq ↦
    List.inj_on_of_nodup_map h hfirst hsecond heq⟩
  python _ hfirst _ hsecond hlowered hother heq :=
    List.inj_on_of_nodup_map h hfirst hsecond (hlowered.symm.trans (heq.trans hother))
  total _ := scalarOneOrNone_of_length (h.length_filter _)

theorem naming_start {users : List AdminUser} (h : (users.map (lowered spelling)).Nodup) :
    (naming spelling).Holds (start users) := by
  refine Contract.holds_of_idle ?_ (fun _ ↦ rfl) fun _ ↦ rfl
  have hrows : (start users).shared.users.rows = users := by
    simp [Table.rows, start, Function.comp_def]
  show ((start users).shared.users.rows.map (lowered spelling)).Nodup
  rw [hrows]
  exact h

/-- However the form and first logins of directory users interleave, names stay distinct in lower
case, when no account is committed after another one of its name that its transaction could not see,
and no name is looked for that somebody has and that Python lowers differently. -/
theorem usernames_are_unique {users : List AdminUser} {events : List Step} {last : Server}
    (hstart : (users.map (lowered spelling)).Nodup)
    (hunraced : Meets (semantics spelling) handler (fun s event ↦ s.Acts (Unraced spelling) event)
      (start users) events)
    (hrun : run (semantics spelling) handler (start users) events = some last) :
    Unique spelling last.shared := by
  have hpermits : Meets (semantics spelling) handler (naming spelling).Permits (start users) events :=
    Contract.meets_permits (fun _ _ _ ↦ trivial) (fun _ _ ↦ trivial) (fun _ _ _ ↦ trivial) hunraced
  exact unique_of_distinct
    (Contract.run_safe naming_handles (naming_start hstart) hpermits hrun).invariant

/-! ### Two accounts at once -/

def plain : Spelling := ⟨Text.Letters.ascii, Text.Letters.ascii⟩

def owner : AdminUser where
  id := 0
  username := "Owner"
  totpSecret := ""
  role := .superadmin

def drawn (id : UserId) : Draw := ⟨id, "hash", "secret", some 1⟩

/-- Anna is made on the form, and logs in from the directory. -/
def twoCreations : List Step :=
  [.start 1 (.createUser " Anna" "long enough to do" "admin" owner),
    .start 2 (.directoryLogin "anna"), .run 2 (drawn 0)]

/-- The directory's Anna is looked for when the other one is committed. -/
def oneByOne : List Step :=
  twoCreations ++ List.replicate 5 (Event.run 1 (drawn 1)) ++
    List.replicate 2 (Event.run 2 (drawn 2))

/-- Both are looked for before either is committed. -/
def atOnce : List Step :=
  twoCreations ++ [Event.run 1 (drawn 1), Event.run 2 (drawn 2)] ++
    List.replicate 3 (Event.run 1 (drawn 1)) ++ List.replicate 3 (Event.run 2 (drawn 2))

theorem usernames_are_unique_one_by_one : ∃ last,
    run (semantics plain) handler (start [owner]) oneByOne = some last ∧
    last.answer 1 = some (.redirect "/admin/users" 302) ∧
    last.answer 2 = some (.login "login.error.invalid" 401) ∧ Unique plain last.shared := by
  have hrun := run_eq_get (show (run (semantics plain) handler (start [owner])
    oneByOne).isSome = true by decide +kernel)
  exact ⟨_, hrun, by decide +kernel, by decide +kernel,
    usernames_are_unique (by decide +kernel) (by decide +kernel) hrun⟩

/-- Two accounts of one name, and looking for it fails from then on. -/
theorem creations_at_once_share_a_name : ∃ last,
    run (semantics plain) handler (start [owner]) atOnce = some last ∧
    last.shared.users.rows.map AdminUser.username = ["anna", "Anna", "Owner"] ∧
    last.shared.getUserByUsernameCi plain "ANNA" = .error .multipleResultsFound ∧
    ¬Unique plain last.shared := by
  have hrun := run_eq_get (show (run (semantics plain) handler (start [owner])
    atOnce).isSome = true by decide +kernel)
  have hfails : ((run (semantics plain) handler (start [owner]) atOnce).get
      (by decide +kernel)).shared.getUserByUsernameCi plain "ANNA" =
        .error .multipleResultsFound := by
    decide +kernel
  refine ⟨_, hrun, by decide +kernel, hfails, fun hunique ↦ ?_⟩
  obtain ⟨found, hfound⟩ := hunique.total "ANNA"
  cases hfails.symm.trans hfound

end OpenWhistle.Usernames
