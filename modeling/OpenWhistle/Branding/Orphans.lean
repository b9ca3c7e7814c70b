import Mathlib.Data.List.Dedup
import OpenWhistle.Branding.Images
import OpenWhistle.Foundation.Parties

/-!
# No brand image outlives its last use

The stored images are those the rows refer to, after every commit. What a transaction has left when
it drops orphans is referred to by the row it has written or by a row of another organisation, and
that has to last until it commits: the one step that ends it is the commit of a transaction that takes
the same image out of its own row, having looked before, or not at all. So two transactions must not
both release an image that nobody else refers to, each after it has seen the other's row.

A light logo has its favicons because a save writes all three columns, or the one that writes fewer
finds the others there.
-/

set_option autoImplicit false
set_option relaxedAutoImplicit false

namespace OpenWhistle.Branding.Images

/-! ### What a request makes of a row -/

/-- A row has its two favicons exactly when it has a light logo. -/
def Whole (row : Row) : Prop :=
  (row .favicon32).isSome = (row .logoLight).isSome ∧
    (row .favicon180).isSome = (row .logoLight).isSome

theorem mem_imagesOf {row : Row} {sha : Sha} :
    sha ∈ imagesOf row ↔ ∃ c ∈ imageFields, row c = some sha :=
  List.mem_filterMap

theorem whole_newRow : Whole newRow := ⟨rfl, rfl⟩

/-- Columns that are no part of a light logo. -/
theorem whole_put {row : Row} (h : Whole row) {c : Column} (value : Option String)
    (hlight : c ≠ .logoLight) (hsmall : c ≠ .favicon32) (hlarge : c ≠ .favicon180) :
    Whole (put row c value) := by
  unfold Whole put
  rw [Function.update_of_ne hlight.symm, Function.update_of_ne hsmall.symm,
    Function.update_of_ne hlarge.symm]
  exact h

theorem whole_putLight (row : Row) {logo small large : Option Sha}
    (hsmall : small.isSome = logo.isSome) (hlarge : large.isSome = logo.isSome) :
    Whole (putLight row logo small large) := ⟨hsmall, hlarge⟩

theorem whole_setText {state : Row × List Column} (h : Whole state.1) {c : Column}
    (value : Option String) (hlight : c ≠ .logoLight) (hsmall : c ≠ .favicon32)
    (hlarge : c ≠ .favicon180) : Whole (setText c value state).1 := by
  unfold setText
  split_ifs
  · exact whole_put h value hlight hsmall hlarge
  · exact h

theorem whole_setLight (form : Form) {state : Row × List Column} (h : Whole state.1) :
    Whole (setLight form state).1 := by
  unfold setLight
  split
  · exact whole_putLight _ rfl rfl
  · split_ifs
    · exact whole_putLight _ rfl rfl
    · exact h

theorem whole_setDark (form : Form) {state : Row × List Column} (h : Whole state.1) :
    Whole (setDark form state).1 := by
  have hput : ∀ value, Whole (put state.1 .logoDark value) := fun value ↦
    whole_put h value (by decide) (by decide) (by decide)
  unfold setDark
  split
  · exact hput _
  · split_ifs
    · exact hput _
    · exact h

theorem whole_resetField {row : Row} (h : Whole row) {c : Column} (hc : c ∈ resettable) :
    Whole (resetField row c) := by
  unfold resetField
  split_ifs with hlight
  · exact whole_putLight _ rfl rfl
  · refine whole_put h none hlight ?_ ?_ <;>
    · rintro rfl
      revert hc
      decide

/-- Whatever is asked for, the light logo and the favicons come and go together. -/
theorem whole_apply (request : Request) (user : String) {row : Row} (h : Whole row) :
    Whole (request.apply user row).1 := by
  have huser : ∀ {row : Row}, Whole row → Whole (put row .updatedById (some user)) := fun h ↦
    whole_put h _ (by decide) (by decide) (by decide)
  cases request with
  | post form =>
    have hname : Whole (setText .name form.name (row, [])).1 :=
      whole_setText h _ (by decide) (by decide) (by decide)
    have hcolour : Whole (setText .primaryColor form.colour (setText .name form.name (row, []))).1 :=
      whole_setText hname _ (by decide) (by decide) (by decide)
    have hdark := whole_setDark form (whole_setLight form hcolour)
    change Whole (form.save user row).1
    unfold Form.save
    dsimp only
    split_ifs
    · exact hdark
    · exact huser hdark
  | reset fields hfields =>
    change Whole (put (fields.foldl resetField row) .updatedById (some user))
    refine huser ?_
    clear huser
    induction fields generalizing row with
    | nil => exact h
    | cons c rest ih =>
      exact ih (whole_resetField h (hfields List.mem_cons_self))
        fun other hmem ↦ hfields (List.mem_cons_of_mem c hmem)

theorem setText_eq {c : Column} {value : Option String} {state : Row × List Column}
    (h : (setText c value state).2 = []) : setText c value state = state := by
  unfold setText at h ⊢
  split_ifs at h ⊢
  · exact absurd h (List.append_ne_nil_of_right_ne_nil _ (List.cons_ne_nil _ _))
  · rfl

theorem setLight_eq {form : Form} {state : Row × List Column} (h : (setLight form state).2 = []) :
    setLight form state = state ∧ form.light = none := by
  unfold setLight at h ⊢
  split at h
  · exact absurd h (List.append_ne_nil_of_right_ne_nil _ (List.cons_ne_nil _ _))
  · rename_i hlight
    split_ifs at h ⊢
    · exact absurd h (List.append_ne_nil_of_right_ne_nil _ (List.cons_ne_nil _ _))
    · exact ⟨rfl, hlight⟩

theorem setDark_eq {form : Form} {state : Row × List Column} (h : (setDark form state).2 = []) :
    setDark form state = state ∧ form.dark = none := by
  unfold setDark at h ⊢
  split at h
  · exact absurd h (List.append_ne_nil_of_right_ne_nil _ (List.cons_ne_nil _ _))
  · rename_i hdark
    split_ifs at h ⊢
    · exact absurd h (List.append_ne_nil_of_right_ne_nil _ (List.cons_ne_nil _ _))
    · exact ⟨rfl, hdark⟩

/-- A request that does not drop orphans has left the row as it was and brings no image. -/
theorem apply_of_not_drops {request : Request} {user : String} {row : Row}
    (h : (request.apply user row).2 = false) :
    (request.apply user row).1 = row ∧ request.uploads = [] := by
  cases request with
  | post form =>
    change (!(form.save user row).2.isEmpty) = false at h
    change (form.save user row).1 = row ∧ Request.uploads (.post form) = []
    unfold Form.save at h ⊢
    dsimp only at h ⊢
    split_ifs at h ⊢ with hnone
    · obtain ⟨hdark, hnoDark⟩ := setDark_eq hnone
      rw [hdark] at hnone ⊢
      obtain ⟨hlight, hnoLight⟩ := setLight_eq hnone
      rw [hlight] at hnone ⊢
      have hcolour := setText_eq hnone
      rw [hcolour] at hnone ⊢
      rw [setText_eq hnone]
      exact ⟨rfl, by simp [Request.uploads, hnoLight, hnoDark]⟩
    · refine absurd ?_ hnone
      simpa using h
  | reset fields hfields => cases h

/-! ### What an UPDATE leaves -/

/-- The light logo and the favicons have all changed since a row was read, or none of them has. -/
def Together (read wanted : Row) : Prop :=
  (wanted .favicon32 = read .favicon32 ↔ wanted .logoLight = read .logoLight) ∧
    (wanted .favicon180 = read .favicon180 ↔ wanted .logoLight = read .logoLight)

instance decidableTogether (read wanted : Row) : Decidable (Together read wanted) :=
  inferInstanceAs (Decidable ((_ ↔ _) ∧ (_ ↔ _)))

/-- Of two columns that have values together, one that changes alone changes to a value. -/
theorem isSome_of_ne {read wanted : Row} {c d : Column}
    (hread : (read c).isSome = (read d).isSome) (hwanted : (wanted c).isSome = (wanted d).isSome)
    (hc : wanted c = read c) (hd : wanted d ≠ read d) : (wanted d).isSome = true := by
  by_contra hnone
  have hwd : wanted d = none := by simpa using hnone
  have hrc : (read c).isSome = false := by
    rw [← hc, hwanted, hwd]
    rfl
  have hrd : read d = none := by
    rw [hread] at hrc
    simpa using hrc
  exact hd (hwd.trans hrd.symm)

/-- Two columns that have values together have them after the UPDATE, unless one is written alone
where both have lost theirs. -/
theorem isSome_update {current read wanted : Row} {c d : Column}
    (hcurrent : (current c).isSome = (current d).isSome)
    (hread : (read c).isSome = (read d).isSome) (hwanted : (wanted c).isSome = (wanted d).isSome)
    (htogether : current d = none → (wanted c = read c ↔ wanted d = read d)) :
    (update current read wanted c).isSome = (update current read wanted d).isSome := by
  unfold update
  cases hd : current d with
  | none =>
    have hc : current c = none := by
      rw [hd] at hcurrent
      simpa using hcurrent
    have hiff := htogether hd
    by_cases hsame : wanted d = read d
    · rw [if_pos hsame, if_pos (hiff.mpr hsame), hc]
    · rw [if_neg hsame, if_neg (mt hiff.mp hsame)]
      exact hwanted
  | some value =>
    have hc : (current c).isSome = true := by
      rw [hcurrent, hd]
      rfl
    split_ifs with hsame hother hother
    · exact hc
    · rw [hc, isSome_of_ne hread hwanted hsame hother]
    · exact isSome_of_ne hread.symm hwanted.symm hother hsame
    · exact hwanted

theorem whole_update {current read wanted : Row} (hcurrent : Whole current) (hread : Whole read)
    (hwanted : Whole wanted) (htogether : current .logoLight = none → Together read wanted) :
    Whole (update current read wanted) :=
  ⟨isSome_update hcurrent.1 hread.1 hwanted.1 fun h ↦ (htogether h).1,
    isSome_update hcurrent.2 hread.2 hwanted.2 fun h ↦ (htogether h).2⟩

/-! ### Rows and references -/

theorem mem_referenced {rows : Rows} {sha : Sha} :
    sha ∈ referenced rows ↔ ∃ entry ∈ rows, sha ∈ imagesOf entry.2 :=
  List.mem_flatMap

/-- The rows a transaction sees: the one it has written, and the others. -/
theorem mem_view {rows : Rows} {txn : Txn} {entry : Option String × Row} :
    entry ∈ view rows txn ↔ (∃ row ∈ txn.written, entry = (txn.org, row)) ∨
      entry ∈ rows ∧ (txn.written.isSome = true → entry.1 ≠ txn.org) := by
  unfold view writeRow
  cases txn.written with
  | none => simp
  | some row => simp

theorem mem_of_lookup {rows : Rows} {org : Option String} {row : Row}
    (h : rows.lookup org = some row) : (org, row) ∈ rows := by
  obtain ⟨before, after, rfl, -⟩ := List.lookup_eq_some_iff.mp h
  exact List.mem_append_right _ List.mem_cons_self

theorem ne_of_lookup_eq_none {rows : Rows} {org : Option String} (h : rows.lookup org = none)
    {entry : Option String × Row} (hmem : entry ∈ rows) : entry.1 ≠ org := by
  have hne := List.lookup_eq_none_iff.mp h entry hmem
  exact fun heq ↦ by simp [heq] at hne

/-! ### The invariant -/

/-- What is committed. -/
structure Sound (rows : Rows) (images : List Sha) : Prop where
  /-- The foreign keys. -/
  refers : ∀ sha ∈ referenced rows, sha ∈ images
  used : ∀ sha ∈ images, sha ∈ referenced rows
  whole : ∀ entry ∈ rows, Whole entry.2

/-- What holds of a transaction over what is committed. -/
structure Own (rows : Rows) (images : List Sha) (txn : Txn) : Prop where
  read : ∀ row, txn.phase = .loaded (some row) → Whole row
  whole : ∀ row ∈ txn.written, Whole row
  refers : ∀ row ∈ txn.written, ∀ sha ∈ imagesOf row, sha ∈ images ∨ sha ∈ txn.stored
  fresh : ∀ sha ∈ txn.stored, sha ∉ images
  gone : ∀ sha ∈ txn.gone, sha ∉ referenced (view rows txn)
  /-- Once it has dropped the orphans, it sees a reference to whatever it has left. -/
  dropped : txn.hasDropped = true → ∀ sha, sha ∈ images ∨ sha ∈ txn.stored →
    sha ∈ txn.gone ∨ sha ∈ referenced (view rows txn)
  /-- A transaction that does not drop orphans makes none. -/
  idle : ∀ work, txn.phase = .flushed work false → work.stored = [] ∧
    ∀ row ∈ work.written, imagesOf row = [] ∧ ∀ entry ∈ rows, entry.1 ≠ txn.org

/-- What keeps two transactions apart: the lock of a row, that of an image, and the foreign key. -/
structure Apart (txn other : Txn) : Prop where
  orgs : txn.written.isSome = true → other.written.isSome = true → txn.org ≠ other.org
  stored : ∀ sha ∈ txn.stored, sha ∉ other.stored
  gone : ∀ sha ∈ txn.gone, ∀ row ∈ other.written, sha ∉ imagesOf row

structure Inv (s : State) : Prop where
  sound : Sound s.rows s.images
  own : ∀ (i : ℕ) txn, s.txns[i]? = some txn → Own s.rows s.images txn
  apart : ∀ (i j : ℕ) txn other, i ≠ j → s.txns[i]? = some txn → s.txns[j]? = some other →
    Apart txn other

/-! ### The condition -/

/-- The images that a transaction has taken out of the row of its organisation. -/
def released (s : State) (txn : Txn) : List Sha :=
  match txn.written with
  | none => []
  | some row => (referenced (s.rows.filter fun entry ↦ entry.1 = txn.org)).filter fun sha ↦
      sha ∉ imagesOf row

theorem mem_released {s : State} {txn : Txn} {sha : Sha} :
    sha ∈ released s txn ↔ ∃ row ∈ txn.written, sha ∉ imagesOf row ∧
      ∃ entry ∈ s.rows, entry.1 = txn.org ∧ sha ∈ imagesOf entry.2 := by
  unfold released
  cases txn.written with
  | none => simp
  | some row =>
    simp only [List.mem_filter, mem_referenced, decide_eq_true_eq, Option.mem_some_iff]
    constructor
    · rintro ⟨⟨entry, ⟨hmem, horg⟩, hsha⟩, hnot⟩
      exact ⟨row, rfl, hnot, entry, hmem, horg, hsha⟩
    · rintro ⟨other, rfl, hnot, entry, hmem, horg, hsha⟩
      exact ⟨⟨entry, ⟨hmem, horg⟩, hsha⟩, hnot⟩

def Txn.readRow (txn : Txn) : Option Row :=
  match txn.phase with
  | .loaded row => row
  | _ => none

/-- The condition of a step. When a transaction commits, an image that it has released and that another
one, past its `drop_orphan_images`, has released too is shown by a third organisation. And a save that
changes a part of the light logo and its favicons does not find the light logo gone. -/
def Careful (s : State) : Event → Prop
  | .commit i => ∀ txn ∈ s.txns[i]?, ∀ other ∈ s.txns.eraseIdx i, other.hasDropped = true →
    ∀ sha ∈ released s txn, sha ∈ released s other →
      ∃ entry ∈ s.rows, entry.1 ≠ txn.org ∧ entry.1 ≠ other.org ∧ sha ∈ imagesOf entry.2
  | .flush i => ∀ txn ∈ s.txns[i]?, ∀ read ∈ txn.readRow, ∀ current ∈ s.rows.lookup txn.org,
    current .logoLight = none → Together read (txn.request.apply txn.user read).1
  | _ => True

/-! ### The steps -/

/-- What one event can do. -/
inductive Steps (s : State) : Event → State → Prop
  | start (org : Option String) (user : String) (request : Request) :
      Steps s (.start org user request)
        { s with txns := s.txns ++ [⟨org, user, request, .started⟩] }
  | read {i : ℕ} {txn : Txn} (htxn : s.txns[i]? = some txn) :
      Steps s (.read i) (s.goOn i txn (.loaded (s.rows.lookup txn.org)))
  | flush {i : ℕ} {txn : Txn} {read written : Option Row} {refers : List Sha}
      (htxn : s.txns[i]? = some txn) (hphase : txn.phase = .loaded read)
      (hrow : flushRow s (s.txns.eraseIdx i) txn.org
        (txn.request.apply txn.user (read.getD newRow)).1 read = some (written, refers))
      (hadmits : admits s (s.txns.eraseIdx i) (missing s txn.request) refers = true) :
      Steps s (.flush i) (s.goOn i txn (.flushed ⟨written, missing s txn.request⟩
        (txn.request.apply txn.user (read.getD newRow)).2))
  | drop {i : ℕ} {txn : Txn} {work : Work} (htxn : s.txns[i]? = some txn)
      (hphase : txn.phase = .flushed work true)
      (hdeletable : deletable (s.txns.eraseIdx i) (orphans s txn) = true) :
      Steps s (.drop i) (s.goOn i txn (.dropped work (orphans s txn)))
  | commit {i : ℕ} {txn : Txn} (htxn : s.txns[i]? = some txn)
      (hphase : (∃ work, txn.phase = .flushed work false) ∨ txn.hasDropped = true) :
      Steps s (.commit i) (s.commit i txn)
  | rollback {i : ℕ} {txn : Txn} (htxn : s.txns[i]? = some txn) :
      Steps s (.rollback i) (s.goOn i txn .ended)

theorem steps_of_step {s t : State} {event : Event} (h : step s event = some t) :
    Steps s event t := by
  cases event with
  | start org user request =>
    cases h
    exact .start org user request
  | read i =>
    obtain ⟨txn, htxn, h⟩ := Option.bind_eq_some_iff.mp h
    split at h
    · cases h
      exact .read htxn
    · cases h
  | flush i =>
    obtain ⟨txn, htxn, h⟩ := Option.bind_eq_some_iff.mp h
    split at h
    · rename_i read hphase
      obtain ⟨⟨written, refers⟩, hrow, h⟩ := Option.bind_eq_some_iff.mp h
      dsimp only at h
      split_ifs at h with hadmits
      cases h
      exact .flush htxn hphase hrow hadmits
    · cases h
  | drop i =>
    obtain ⟨txn, htxn, h⟩ := Option.bind_eq_some_iff.mp h
    split at h
    · rename_i work hphase
      split_ifs at h with hdeletable
      cases h
      exact .drop htxn hphase hdeletable
    · cases h
  | commit i =>
    obtain ⟨txn, htxn, h⟩ := Option.bind_eq_some_iff.mp h
    split at h
    · rename_i work hphase
      cases h
      exact .commit htxn (.inl ⟨work, hphase⟩)
    · rename_i work gone hphase
      cases h
      refine .commit htxn (.inr ?_)
      unfold Txn.hasDropped
      rw [hphase]
    · cases h
  | rollback i =>
    obtain ⟨txn, htxn, h⟩ := Option.bind_eq_some_iff.mp h
    split at h
    · cases h
    · cases h
      exact .rollback htxn

/-! ### One transaction goes on -/

theorem mem_others {s : State} {i : ℕ} {other : Txn} :
    other ∈ s.txns.eraseIdx i ↔ ∃ j ≠ i, s.txns[j]? = some other :=
  List.mem_eraseIdx_iff_getElem?

/-- Nothing is committed, and what one transaction has done keeps it apart from the others. -/
theorem Inv.goOn {s : State} (h : Inv s) {i : ℕ} {txn : Txn} {phase : Phase}
    (hown : Own s.rows s.images { txn with phase := phase })
    (hapart : ∀ other ∈ s.txns.eraseIdx i,
      Apart { txn with phase := phase } other ∧ Apart other { txn with phase := phase }) :
    Inv (s.goOn i txn phase) where
  sound := h.sound
  own := Parties.forall_set hown fun j other _ hother ↦ h.own j other hother
  apart := Parties.apart_set h.apart fun j other hj hother ↦
    hapart other (mem_others.mpr ⟨j, hj, hother⟩)

/-- A transaction that has written nothing. -/
structure Idle (txn : Txn) : Prop where
  written : txn.written = none
  stored : txn.stored = []
  gone : txn.gone = []
  dropped : txn.hasDropped = false
  flushed : ∀ work, txn.phase ≠ .flushed work false

theorem idle_started (org : Option String) (user : String) (request : Request) :
    Idle ⟨org, user, request, .started⟩ := ⟨rfl, rfl, rfl, rfl, fun _ h ↦ by cases h⟩

theorem idle_loaded (txn : Txn) (row : Option Row) : Idle { txn with phase := .loaded row } :=
  ⟨rfl, rfl, rfl, rfl, fun _ h ↦ by cases h⟩

theorem idle_ended (txn : Txn) : Idle { txn with phase := .ended } :=
  ⟨rfl, rfl, rfl, rfl, fun _ h ↦ by cases h⟩

theorem Idle.own {txn : Txn} (h : Idle txn) (rows : Rows) (images : List Sha)
    (hread : ∀ row, txn.phase = .loaded (some row) → Whole row) : Own rows images txn where
  read := hread
  whole row hrow := by
    rw [h.written] at hrow
    cases hrow
  refers row hrow := by
    rw [h.written] at hrow
    cases hrow
  fresh sha hsha := by
    rw [h.stored] at hsha
    cases hsha
  gone sha hsha := by
    rw [h.gone] at hsha
    cases hsha
  dropped hdropped := by
    rw [h.dropped] at hdropped
    cases hdropped
  idle work hwork := absurd hwork (h.flushed work)

theorem Idle.apart {txn : Txn} (h : Idle txn) (other : Txn) : Apart txn other where
  orgs hwritten := by
    rw [h.written] at hwritten
    cases hwritten
  stored sha hsha := by
    rw [h.stored] at hsha
    cases hsha
  gone sha hsha := by
    rw [h.gone] at hsha
    cases hsha

theorem Idle.apart_right {txn : Txn} (h : Idle txn) (other : Txn) : Apart other txn where
  orgs _ hwritten := by
    rw [h.written] at hwritten
    cases hwritten
  stored sha _ := by
    rw [h.stored]
    exact List.not_mem_nil
  gone sha _ row hrow := by
    rw [h.written] at hrow
    cases hrow

theorem Inv.goOn_idle {s : State} (h : Inv s) {i : ℕ} {txn : Txn} {phase : Phase}
    (hidle : Idle { txn with phase := phase })
    (hread : ∀ row, phase = .loaded (some row) → Whole row) : Inv (s.goOn i txn phase) :=
  h.goOn (hidle.own _ _ hread) fun other _ ↦ ⟨hidle.apart other, hidle.apart_right other⟩

/-! ### The flush -/

theorem not_locked {others : List Txn} {org : Option String} (h : locked others org ≠ true)
    {other : Txn} (hmem : other ∈ others) (hwritten : other.written.isSome = true) :
    other.org ≠ org := by
  rintro rfl
  refine h (List.any_eq_true.mpr ⟨other, hmem, ?_⟩)
  rw [hwritten]
  simp

/-- The row is inserted, nothing is written, or the row is locked and written over. -/
theorem flushRow_cases {s : State} {others : List Txn} {org : Option String} {wanted : Row}
    {read written : Option Row} {refers : List Sha}
    (h : flushRow s others org wanted read = some (written, refers)) :
    (read = none ∧ locked others org ≠ true ∧ s.rows.lookup org = none ∧ written = some wanted ∧
      refers = imagesOf wanted) ∨
    (written = none ∧ refers = []) ∨
    ∃ row current, read = some row ∧ changed row wanted ≠ [] ∧ locked others org ≠ true ∧
      s.rows.lookup org = some current ∧ written = some (update current row wanted) ∧
      refers = (imageFields.filter fun c ↦ wanted c ≠ row c).filterMap wanted := by
  cases read with
  | none =>
    change (if locked others org = true ∨ (s.rows.lookup org).isSome = true then none
      else some (some wanted, imagesOf wanted)) = some (written, refers) at h
    split_ifs at h with hfree
    cases h
    obtain ⟨hlocked, hnone⟩ := not_or.mp hfree
    exact .inl ⟨rfl, hlocked, Option.not_isSome_iff_eq_none.mp hnone, rfl, rfl⟩
  | some row =>
    change (if changed row wanted = [] then some (none, [])
      else if locked others org = true then none
      else (s.rows.lookup org).map fun current ↦ (some (update current row wanted),
        (imageFields.filter fun c ↦ wanted c ≠ row c).filterMap wanted)) =
      some (written, refers) at h
    split_ifs at h with hchanged hlocked
    · cases h
      exact .inr (.inl ⟨rfl, rfl⟩)
    · obtain ⟨current, hcurrent, h⟩ := Option.map_eq_some_iff.mp h
      cases h
      exact .inr (.inr ⟨row, current, rfl, hchanged, hlocked, hcurrent, rfl, rfl⟩)

theorem admits_iff {s : State} {others : List Txn} {inserted refers : List Sha} :
    admits s others inserted refers = true ↔
      (∀ sha ∈ inserted, ∀ other ∈ others, sha ∉ other.stored) ∧
      ∀ sha ∈ refers, (sha ∈ s.images ∨ sha ∈ inserted) ∧
        ∀ other ∈ others, sha ∉ other.gone := by
  unfold admits
  simp only [Bool.and_eq_true, List.all_eq_true, decide_eq_true_eq]

/-- What a row refers to after an UPDATE: what it referred to, or what has changed. -/
theorem mem_imagesOf_update {current read wanted : Row} {sha : Sha}
    (h : sha ∈ imagesOf (update current read wanted)) :
    sha ∈ imagesOf current ∨
      sha ∈ (imageFields.filter fun c ↦ wanted c ≠ read c).filterMap wanted := by
  obtain ⟨c, hc, hsha⟩ := mem_imagesOf.mp h
  unfold update at hsha
  split_ifs at hsha with hsame
  · exact .inl (mem_imagesOf.mpr ⟨c, hc, hsha⟩)
  · exact .inr (List.mem_filterMap.mpr
      ⟨c, List.mem_filter.mpr ⟨hc, decide_eq_true hsame⟩, hsha⟩)

theorem not_mem_images_of_missing {s : State} {request : Request} {sha : Sha}
    (h : sha ∈ missing s request) : sha ∉ s.images :=
  of_decide_eq_true (List.mem_filter.mp (List.mem_dedup.mp h)).2

/-- What the flush writes: a whole row, of which every image is stored and none is being deleted, where
nobody else has written; and without a drop of orphans, a row without images where there was none. -/
structure Flushed (s : State) (i : ℕ) (txn : Txn) (inserted : List Sha) (drops : Bool) (row : Row) :
    Prop where
  whole : Whole row
  refers : ∀ sha ∈ imagesOf row, sha ∈ s.images ∨ sha ∈ inserted
  kept : ∀ other ∈ s.txns.eraseIdx i, ∀ sha ∈ other.gone, sha ∉ imagesOf row
  alone : ∀ other ∈ s.txns.eraseIdx i, other.written.isSome = true → other.org ≠ txn.org
  idle : drops = false → imagesOf row = [] ∧ ∀ entry ∈ s.rows, entry.1 ≠ txn.org

theorem changed_self (row : Row) : changed row row = [] :=
  List.filter_eq_nil_iff.mpr fun _ _ hne ↦ of_decide_eq_true hne rfl

theorem flushed_row {s : State} (h : Inv s) {i : ℕ} {txn : Txn} {read : Option Row} {row : Row}
    {refers : List Sha} (htxn : s.txns[i]? = some txn) (hphase : txn.phase = .loaded read)
    (hcareful : Careful s (.flush i))
    (hrow : flushRow s (s.txns.eraseIdx i) txn.org
      (txn.request.apply txn.user (read.getD newRow)).1 read = some (some row, refers))
    (hadmits : admits s (s.txns.eraseIdx i) (missing s txn.request) refers = true) :
    Flushed s i txn (missing s txn.request)
      (txn.request.apply txn.user (read.getD newRow)).2 row := by
  obtain ⟨-, hrefers⟩ := admits_iff.mp hadmits
  rcases flushRow_cases hrow with ⟨rfl, hlocked, hlookup, hwritten, rfl⟩ | ⟨hwritten, -⟩ |
    ⟨loaded, current, rfl, hchanged, hlocked, hlookup, hwritten, rfl⟩
  · cases hwritten
    exact {
      whole := whole_apply _ _ whole_newRow
      refers := fun sha hsha ↦ (hrefers sha hsha).1
      kept := fun other hother sha hgone hsha ↦ (hrefers sha hsha).2 other hother hgone
      alone := fun other hother ↦ not_locked hlocked hother
      idle := fun hdrops ↦ by
        have hsame : (txn.request.apply txn.user newRow).1 = newRow := (apply_of_not_drops hdrops).1
        refine ⟨?_, fun entry ↦ ne_of_lookup_eq_none hlookup⟩
        rw [Option.getD_none, hsame]
        rfl }
  · cases hwritten
  · cases hwritten
    have hmem := mem_of_lookup hlookup
    have hloaded : Whole loaded := (h.own i txn htxn).read loaded hphase
    exact {
      whole := whole_update (h.sound.whole _ hmem) hloaded (whole_apply _ _ hloaded)
        fun hlost ↦ hcareful txn htxn loaded (by rw [Txn.readRow, hphase]; rfl) current hlookup hlost
      refers := fun sha hsha ↦ by
        rcases mem_imagesOf_update hsha with hcurrent | hnew
        · exact .inl (h.sound.refers sha (mem_referenced.mpr ⟨_, hmem, hcurrent⟩))
        · exact (hrefers sha hnew).1
      kept := fun other hother sha hgone hsha ↦ by
        rcases mem_imagesOf_update hsha with hcurrent | hnew
        · -- The row is not written by the other one, which therefore has seen the reference.
          obtain ⟨j, -, hother'⟩ := mem_others.mp hother
          refine (h.own j other hother').gone sha hgone (mem_referenced.mpr ⟨_, mem_view.mpr
            (.inr ⟨hmem, fun hwritten ↦ (not_locked hlocked hother hwritten).symm⟩), hcurrent⟩)
        · exact (hrefers sha hnew).2 other hother hgone
      alone := fun other hother ↦ not_locked hlocked hother
      idle := fun hdrops ↦ by
        have hsame : (txn.request.apply txn.user loaded).1 = loaded := (apply_of_not_drops hdrops).1
        refine absurd ?_ hchanged
        rw [Option.getD_some, hsame]
        exact changed_self loaded }

theorem Inv.flush {s : State} (h : Inv s) {i : ℕ} {txn : Txn} {read written : Option Row}
    {refers : List Sha} (htxn : s.txns[i]? = some txn) (hphase : txn.phase = .loaded read)
    (hcareful : Careful s (.flush i))
    (hrow : flushRow s (s.txns.eraseIdx i) txn.org
      (txn.request.apply txn.user (read.getD newRow)).1 read = some (written, refers))
    (hadmits : admits s (s.txns.eraseIdx i) (missing s txn.request) refers = true) :
    Inv (s.goOn i txn (.flushed ⟨written, missing s txn.request⟩
      (txn.request.apply txn.user (read.getD newRow)).2)) := by
  obtain ⟨hinserted, -⟩ := admits_iff.mp hadmits
  have hflushed : ∀ row ∈ written, Flushed s i txn (missing s txn.request)
      (txn.request.apply txn.user (read.getD newRow)).2 row := by
    rintro row ⟨⟩
    exact flushed_row h htxn hphase hcareful hrow hadmits
  refine h.goOn ?_ fun other hother ↦ ⟨?_, ?_⟩
  · exact {
      read := fun row hloaded ↦ by cases hloaded
      whole := fun row hrow ↦ (hflushed row hrow).whole
      refers := fun row hrow ↦ (hflushed row hrow).refers
      fresh := fun sha hsha ↦ not_mem_images_of_missing hsha
      gone := fun sha hsha ↦ absurd hsha List.not_mem_nil
      dropped := fun hdropped ↦ by cases hdropped
      idle := fun work hwork ↦ by
        injection hwork with hwork hdrops
        subst hwork
        refine ⟨?_, fun row hrow ↦ (hflushed row hrow).idle hdrops⟩
        change missing s txn.request = []
        unfold missing
        rw [(apply_of_not_drops hdrops).2]
        rfl }
  · exact {
      orgs := fun hwritten hother' ↦ by
        obtain ⟨row, hrow⟩ := Option.isSome_iff_exists.mp hwritten
        exact ((hflushed row hrow).alone other hother hother').symm
      stored := fun sha hsha ↦ hinserted sha hsha other hother
      gone := fun sha hsha ↦ absurd hsha List.not_mem_nil }
  · exact {
      orgs := fun hother' hwritten ↦ by
        obtain ⟨row, hrow⟩ := Option.isSome_iff_exists.mp hwritten
        exact (hflushed row hrow).alone other hother hother'
      stored := fun sha hsha hmissing ↦ hinserted sha hmissing other hother hsha
      gone := fun sha hgone row hrow ↦ (hflushed row hrow).kept other hother sha hgone }

/-! ### The drop of orphans -/

theorem deletable_iff {others : List Txn} {gone : List Sha} : deletable others gone = true ↔
    ∀ sha ∈ gone, ∀ other ∈ others, sha ∉ other.gone ∧
      ∀ row ∈ other.written, sha ∉ imagesOf row := by
  unfold deletable
  simp only [List.all_eq_true, Bool.and_eq_true, decide_eq_true_eq, Option.all_eq_true,
    Option.mem_def]

theorem mem_orphans {s : State} {txn : Txn} {sha : Sha} : sha ∈ orphans s txn ↔
    (sha ∈ s.images ∨ sha ∈ txn.stored) ∧ sha ∉ referenced (view s.rows txn) := by
  unfold orphans
  rw [List.mem_filter, List.mem_append, decide_eq_true_eq]

/-- What a transaction has written is what it has written when it has dropped the orphans. -/
theorem dropped_eq {txn : Txn} {work : Work} (hphase : txn.phase = .flushed work true)
    (gone : List Sha) :
    ({ txn with phase := .dropped work gone } : Txn).written = txn.written ∧
      ({ txn with phase := .dropped work gone } : Txn).stored = txn.stored := by
  unfold Txn.written Txn.stored Txn.work
  rw [hphase]
  exact ⟨rfl, rfl⟩

theorem Inv.drop {s : State} (h : Inv s) {i : ℕ} {txn : Txn} {work : Work}
    (htxn : s.txns[i]? = some txn) (hphase : txn.phase = .flushed work true)
    (hdeletable : deletable (s.txns.eraseIdx i) (orphans s txn) = true) :
    Inv (s.goOn i txn (.dropped work (orphans s txn))) := by
  obtain ⟨hwritten, hstored⟩ := dropped_eq hphase (orphans s txn)
  have hown := h.own i txn htxn
  have hview : view s.rows { txn with phase := .dropped work (orphans s txn) } =
      view s.rows txn := by
    unfold view
    rw [hwritten]
  refine h.goOn ?_ fun other hother ↦ ⟨?_, ?_⟩
  · exact {
      read := fun row hloaded ↦ by cases hloaded
      whole := by rw [hwritten]; exact hown.whole
      refers := by rw [hwritten, hstored]; exact hown.refers
      fresh := by rw [hstored]; exact hown.fresh
      gone := fun sha hsha ↦ by
        rw [hview]
        exact (mem_orphans.mp hsha).2
      dropped := fun _ sha hsha ↦ by
        rw [hstored] at hsha
        rw [hview]
        by_cases hseen : sha ∈ referenced (view s.rows txn)
        · exact .inr hseen
        · exact .inl (mem_orphans.mpr ⟨hsha, hseen⟩)
      idle := fun other hother ↦ by cases hother }
  · obtain ⟨j, hj, hother'⟩ := mem_others.mp hother
    have hapart := h.apart i j txn other (Ne.symm hj) htxn hother'
    exact {
      orgs := by rw [hwritten]; exact hapart.orgs
      stored := by rw [hstored]; exact hapart.stored
      gone := fun sha hsha ↦ (deletable_iff.mp hdeletable sha hsha other hother).2 }
  · obtain ⟨j, hj, hother'⟩ := mem_others.mp hother
    have hapart := h.apart j i other txn hj hother' htxn
    exact {
      orgs := by rw [hwritten]; exact hapart.orgs
      stored := by rw [hstored]; exact hapart.stored
      gone := by rw [hwritten]; exact hapart.gone }

/-! ### The commit -/

theorem mem_commit_images {s : State} {i : ℕ} {txn : Txn} {sha : Sha} :
    sha ∈ (s.commit i txn).images ↔ (sha ∈ s.images ∨ sha ∈ txn.stored) ∧ sha ∉ txn.gone := by
  unfold State.commit
  rw [List.mem_filter, List.mem_append, decide_eq_true_eq]

/-- A transaction that commits has dropped the orphans, or has left none. -/
def Ready (txn : Txn) : Prop :=
  (∃ work, txn.phase = .flushed work false) ∨ txn.hasDropped = true

theorem Sound.commit {s : State} (h : Sound s.rows s.images) {i : ℕ} {txn : Txn}
    (hown : Own s.rows s.images txn) (hready : Ready txn) :
    Sound (s.commit i txn).rows (s.commit i txn).images where
  refers sha hsha := by
    refine mem_commit_images.mpr ⟨?_, fun hgone ↦ hown.gone sha hgone hsha⟩
    obtain ⟨entry, hentry, hsha⟩ := mem_referenced.mp hsha
    rcases mem_view.mp hentry with ⟨row, hrow, rfl⟩ | ⟨hentry, -⟩
    · exact hown.refers row hrow sha hsha
    · exact .inl (h.refers sha (mem_referenced.mpr ⟨entry, hentry, hsha⟩))
  used sha hsha := by
    obtain ⟨hstored, hleft⟩ := mem_commit_images.mp hsha
    rcases hready with ⟨work, hphase⟩ | hdropped
    · obtain ⟨hnone, hidle⟩ := hown.idle work hphase
      have hwork : txn.work = work := by
        unfold Txn.work
        rw [hphase]
      rw [Txn.stored, hwork, hnone] at hstored
      obtain ⟨entry, hentry, hsha⟩ :=
        mem_referenced.mp (h.used sha (hstored.resolve_right List.not_mem_nil))
      refine mem_referenced.mpr ⟨entry, mem_view.mpr (.inr ⟨hentry, fun hwritten ↦ ?_⟩), hsha⟩
      obtain ⟨row, hrow⟩ := Option.isSome_iff_exists.mp hwritten
      rw [Txn.written, hwork] at hrow
      exact (hidle row hrow).2 entry hentry
    · exact (hown.dropped hdropped sha hstored).resolve_left hleft
  whole entry hentry := by
    rcases mem_view.mp hentry with ⟨row, hrow, rfl⟩ | ⟨hentry, -⟩
    · exact hown.whole row hrow
    · exact h.whole entry hentry

/-- What another transaction sees after a commit: the row that was committed, and the others that it
saw before. -/
theorem mem_view_commit {s : State} {i : ℕ} {txn other : Txn} {entry : Option String × Row} :
    entry ∈ view (s.commit i txn).rows other ↔
      (∃ row ∈ other.written, entry = (other.org, row)) ∨
      ((∃ row ∈ txn.written, entry = (txn.org, row)) ∨
        entry ∈ s.rows ∧ (txn.written.isSome = true → entry.1 ≠ txn.org)) ∧
      (other.written.isSome = true → entry.1 ≠ other.org) := by
  rw [mem_view]
  change _ ∨ entry ∈ view s.rows txn ∧ _ ↔ _
  rw [mem_view]

/-- What a transaction has left and saw a reference to is referred to after the commit of another:
either the row it saw is there, or the other one has released the image, and then a third organisation
shows it. -/
theorem seen_of_commit {s : State} (h : Sound s.rows s.images) {i : ℕ} {txn other : Txn}
    (hown : Own s.rows s.images other) (hapart : Apart other txn)
    (hshown : ∀ sha ∈ released s txn, sha ∈ released s other →
      ∃ entry ∈ s.rows, entry.1 ≠ txn.org ∧ entry.1 ≠ other.org ∧ sha ∈ imagesOf entry.2)
    (hdropped : other.hasDropped = true) {sha : Sha}
    (hsha : sha ∈ referenced (s.commit i txn).rows) :
    sha ∈ other.gone ∨ sha ∈ referenced (view (s.commit i txn).rows other) := by
  obtain ⟨entry, hentry, himage⟩ := mem_referenced.mp hsha
  have hsees : ∀ entry ∈ (s.commit i txn).rows, sha ∈ imagesOf entry.2 →
      (other.written.isSome = true → entry.1 ≠ other.org) →
      sha ∈ referenced (view (s.commit i txn).rows other) := fun entry hentry himage hother ↦
    mem_referenced.mpr ⟨entry, mem_view.mpr (.inr ⟨hentry, hother⟩), himage⟩
  by_cases hown' : other.written.isSome = true ∧ entry.1 = other.org
  swap
  · exact .inr (hsees entry hentry himage fun hwritten horg ↦ hown' ⟨hwritten, horg⟩)
  obtain ⟨hwritten, horg⟩ := hown'
  obtain ⟨row, hrow⟩ := Option.isSome_iff_exists.mp hwritten
  -- The entry is the committed row that the other transaction has written over.
  have hcommitted : entry ∈ s.rows := by
    rcases mem_view.mp hentry with ⟨written, hwritten', rfl⟩ | ⟨hcommitted, -⟩
    · exact absurd horg.symm (hapart.orgs hwritten (Option.isSome_of_mem hwritten'))
    · exact hcommitted
  by_cases hkept : sha ∈ imagesOf row
  · exact .inr (mem_referenced.mpr ⟨_, mem_view.mpr (.inl ⟨row, hrow, rfl⟩), hkept⟩)
  have hstored : sha ∈ s.images := h.refers sha (mem_referenced.mpr ⟨entry, hcommitted, himage⟩)
  rcases hown.dropped hdropped sha (.inl hstored) with hgone | hseen
  · exact .inl hgone
  right
  obtain ⟨seen, hseen, hseenImage⟩ := mem_referenced.mp hseen
  rcases mem_view.mp hseen with ⟨written, hwritten', rfl⟩ | ⟨hseen, hseenOrg⟩
  · cases hrow.symm.trans hwritten'
    exact absurd hseenImage hkept
  by_cases hlost : txn.written.isSome = true ∧ seen.1 = txn.org
  swap
  · exact hsees seen (mem_view.mpr (.inr ⟨hseen, fun hwritten' horg' ↦ hlost ⟨hwritten', horg'⟩⟩))
      hseenImage hseenOrg
  obtain ⟨htxn, hseenTxn⟩ := hlost
  obtain ⟨next, hnext⟩ := Option.isSome_iff_exists.mp htxn
  by_cases hstays : sha ∈ imagesOf next
  · refine hsees (txn.org, next) (mem_view.mpr (.inl ⟨next, hnext, rfl⟩)) hstays fun _ ↦ ?_
    exact (hapart.orgs hwritten htxn).symm
  · obtain ⟨third, hthird, hne, hne', hthirdImage⟩ := hshown sha
      (mem_released.mpr ⟨next, hnext, hstays, seen, hseen, hseenTxn, hseenImage⟩)
      (mem_released.mpr ⟨row, hrow, hkept, entry, hcommitted, horg, himage⟩)
    exact hsees third (mem_view.mpr (.inr ⟨hthird, fun _ ↦ hne⟩)) hthirdImage fun _ ↦ hne'

theorem Own.commit {s : State} (h : Sound s.rows s.images) {i : ℕ} {txn other : Txn}
    (hown : Own s.rows s.images other) (htxn : Own s.rows s.images txn) (hready : Ready txn)
    (hapart : Apart other txn) (hapart' : Apart txn other)
    (hshown : other.hasDropped = true → ∀ sha ∈ released s txn, sha ∈ released s other →
      ∃ entry ∈ s.rows, entry.1 ≠ txn.org ∧ entry.1 ≠ other.org ∧ sha ∈ imagesOf entry.2) :
    Own (s.commit i txn).rows (s.commit i txn).images other where
  read := hown.read
  whole := hown.whole
  refers row hrow sha hsha := by
    refine (hown.refers row hrow sha hsha).imp_left fun hstored ↦ ?_
    exact mem_commit_images.mpr
      ⟨.inl hstored, fun hgone ↦ hapart'.gone sha hgone row hrow hsha⟩
  fresh sha hsha hstored := by
    rcases (mem_commit_images.mp hstored).1 with himages | htxnStored
    · exact hown.fresh sha hsha himages
    · exact hapart.stored sha hsha htxnStored
  gone sha hsha hseen := by
    obtain ⟨entry, hentry, himage⟩ := mem_referenced.mp hseen
    refine hown.gone sha hsha ?_
    rcases mem_view_commit.mp hentry with hmine | ⟨⟨row, hrow, rfl⟩ | ⟨hcommitted, -⟩, hother⟩
    · exact mem_referenced.mpr ⟨entry, mem_view.mpr (.inl hmine), himage⟩
    · exact absurd himage (hapart.gone sha hsha row hrow)
    · exact mem_referenced.mpr ⟨entry, mem_view.mpr (.inr ⟨hcommitted, hother⟩), himage⟩
  dropped hdropped sha hsha := by
    rcases hsha with himages | hstored
    · exact seen_of_commit h hown hapart (hshown hdropped) hdropped
        ((h.commit htxn hready).used sha himages)
    · -- What it has inserted itself nobody else can refer to.
      refine (hown.dropped hdropped sha (.inr hstored)).imp_right fun hseen ↦ ?_
      obtain ⟨entry, hentry, himage⟩ := mem_referenced.mp hseen
      rcases mem_view.mp hentry with hmine | ⟨hcommitted, -⟩
      · exact mem_referenced.mpr ⟨entry, mem_view.mpr (.inl hmine), himage⟩
      · exact absurd (h.refers sha (mem_referenced.mpr ⟨entry, hcommitted, himage⟩))
          (hown.fresh sha hstored)
  idle work hwork := by
    obtain ⟨hnone, hidle⟩ := hown.idle work hwork
    refine ⟨hnone, fun row hrow ↦ ⟨(hidle row hrow).1, fun entry hentry ↦ ?_⟩⟩
    have hwritten : other.written.isSome = true := by
      unfold Txn.written Txn.work
      rw [hwork]
      exact Option.isSome_of_mem hrow
    rcases mem_view.mp hentry with ⟨next, hnext, rfl⟩ | ⟨hcommitted, -⟩
    · exact (hapart.orgs hwritten (Option.isSome_of_mem hnext)).symm
    · exact (hidle row hrow).2 entry hcommitted

theorem Inv.commit {s : State} (h : Inv s) {i : ℕ} {txn : Txn} (htxn : s.txns[i]? = some txn)
    (hready : Ready txn) (hcareful : Careful s (.commit i)) : Inv (s.commit i txn) where
  sound := h.sound.commit (h.own i txn htxn) hready
  own := Parties.forall_set ((idle_ended txn).own _ _ fun row hrow ↦ by cases hrow)
    fun j other hj hother ↦ (h.own j other hother).commit h.sound (h.own i txn htxn) hready
      (h.apart j i other txn hj hother htxn) (h.apart i j txn other (Ne.symm hj) htxn hother)
      (hcareful txn htxn other (mem_others.mpr ⟨j, hj, hother⟩))
  apart := Parties.apart_set h.apart fun _ other _ _ ↦
    ⟨(idle_ended txn).apart other, (idle_ended txn).apart_right other⟩

/-! ### Runs -/

theorem inv_initial : Inv initial where
  sound := ⟨fun _ hsha ↦ absurd hsha List.not_mem_nil, fun _ hsha ↦ absurd hsha List.not_mem_nil,
    fun _ hentry ↦ absurd hentry List.not_mem_nil⟩
  own _ _ htxn := by cases htxn
  apart _ _ _ _ _ htxn := by cases htxn

theorem Inv.start {s : State} (h : Inv s) (org : Option String) (user : String)
    (request : Request) : Inv { s with txns := s.txns ++ [⟨org, user, request, .started⟩] } where
  sound := h.sound
  own := Parties.forall_concat
    ((idle_started org user request).own _ _ fun row hrow ↦ by cases hrow) h.own
  apart := Parties.apart_concat h.apart fun other ↦
    ⟨(idle_started org user request).apart other, (idle_started org user request).apart_right other⟩

theorem inv_step {s t : State} {event : Event} (h : Inv s) (hcareful : Careful s event)
    (hstep : step s event = some t) : Inv t := by
  cases steps_of_step hstep with
  | start org user request => exact h.start org user request
  | @read i txn htxn =>
    refine h.goOn_idle (idle_loaded txn _) fun row hrow ↦ ?_
    injection hrow with hlookup
    exact h.sound.whole _ (mem_of_lookup hlookup)
  | flush htxn hphase hrow hadmits => exact h.flush htxn hphase hcareful hrow hadmits
  | drop htxn hphase hdeletable => exact h.drop htxn hphase hdeletable
  | commit htxn hphase => exact h.commit htxn hphase hcareful
  | @rollback i txn htxn => exact h.goOn_idle (idle_ended txn) fun row hrow ↦ by cases hrow

instance decidableCareful (s : State) : ∀ event, Decidable (Careful s event)
  | .start _ _ _ => isTrue trivial
  | .read _ => isTrue trivial
  | .flush i => inferInstanceAs (Decidable (∀ txn ∈ s.txns[i]?, ∀ read ∈ txn.readRow,
      ∀ current ∈ s.rows.lookup txn.org, current .logoLight = none →
        Together read (txn.request.apply txn.user read).1))
  | .drop _ => isTrue trivial
  | .commit i => inferInstanceAs (Decidable (∀ txn ∈ s.txns[i]?, ∀ other ∈ s.txns.eraseIdx i,
      other.hasDropped = true → ∀ sha ∈ released s txn, sha ∈ released s other →
        ∃ entry ∈ s.rows, entry.1 ≠ txn.org ∧ entry.1 ≠ other.org ∧ sha ∈ imagesOf entry.2))
  | .rollback _ => isTrue trivial

/-- After every careful run, whoever is in flight: the stored images are those the rows refer to, and a
row has its favicons exactly when it has a light logo. -/
theorem no_image_outlives_its_last_use {events : List Event} {last : State}
    (hcareful : Machine.Meets step Careful initial events)
    (hrun : Machine.run step initial events = some last) :
    (∀ sha, sha ∈ last.images ↔ ∃ entry ∈ last.rows, sha ∈ imagesOf entry.2) ∧
      ∀ entry ∈ last.rows, Whole entry.2 := by
  have hinv : Inv last := Machine.run_invariant
    (fun _ _ _ hs hcondition hstep ↦ inv_step hs hcondition hstep) inv_initial hcareful hrun
  refine ⟨fun sha ↦ ⟨fun hsha ↦ mem_referenced.mp (hinv.sound.used sha hsha), fun hsha ↦ ?_⟩,
    hinv.sound.whole⟩
  exact hinv.sound.refers sha (mem_referenced.mpr hsha)

def showDark (sha : Sha) : Request := .post ⟨none, none, none, some sha, false, false⟩

def showLight (logo small large : Sha) : Request :=
  .post ⟨none, none, some (logo, small, large), none, false, false⟩

def removeDark : Request := .post ⟨none, none, none, none, false, true⟩

/-- A request with nothing in between. -/
def alone (i : ℕ) : List Event := [.read i, .flush i, .drop i, .commit i]

/-- Two organisations show the same dark logo, each saved on its own. -/
def sharedLogo : List Event :=
  .start (some "a") "admin" (showDark "x") :: alone 0 ++
    .start (some "b") "admin" (showDark "x") :: alone 1

/-- The one removes it, and while that is in flight the other replaces it by a light logo. -/
def oneRemoval : List Event :=
  sharedLogo ++ [.start (some "a") "admin" removeDark, .start (some "b") "admin"
    (showLight "l" "s" "m"), .read 2, .read 3, .flush 2, .flush 3, .drop 3, .commit 3, .drop 2,
    .commit 2]

/-- Both remove it, and each looks for orphans while the row of the other still shows it. -/
def twoRemovals : List Event :=
  sharedLogo ++ [.start (some "a") "admin" removeDark, .start (some "b") "admin" removeDark,
    .read 2, .read 3, .flush 2, .flush 3, .drop 2, .drop 3, .commit 2, .commit 3]

/-- A light logo is removed while it is replaced by another one with the same favicons. -/
def sameFavicons : List Event :=
  .start none "admin" (showLight "l" "s" "m") :: alone 0 ++
    [.start none "admin" (showLight "k" "s" "m"), .start none "admin" (.post ⟨none, none, none, none,
      true, false⟩), .read 1] ++ alone 2 ++ [.flush 1, .drop 1, .commit 1]

/-- What is stored, what the rows refer to, and who is in flight. -/
def summary (s : State) : List Sha × List (List Sha) × List Bool :=
  (s.images, s.rows.map fun entry ↦ imagesOf entry.2, s.txns.map Txn.inFlight)

theorem images_after_one_removal : ∃ last, Machine.run step initial oneRemoval = some last ∧
    summary last = (["x", "l", "s", "m"], [[], ["l", "x", "s", "m"]], [false, false, false, false]) ∧
    (∀ sha, sha ∈ last.images ↔ ∃ entry ∈ last.rows, sha ∈ imagesOf entry.2) ∧
      ∀ entry ∈ last.rows, Whole entry.2 := by
  have hrun : (Machine.run step initial oneRemoval).map summary =
      some (["x", "l", "s", "m"], [[], ["l", "x", "s", "m"]], [false, false, false, false]) := by
    decide +kernel
  obtain ⟨last, hlast, hsummary⟩ := Option.map_eq_some_iff.mp hrun
  exact ⟨last, hlast, hsummary, no_image_outlives_its_last_use (by decide +kernel) hlast⟩

/-- The image stays when nobody refers to it, and nobody is in flight who would remove it. -/
theorem orphan_after_two_removals : ∃ last, Machine.run step initial twoRemovals = some last ∧
    (∀ txn ∈ last.txns, txn.inFlight = false) ∧
    ¬∀ sha, sha ∈ last.images ↔ ∃ entry ∈ last.rows, sha ∈ imagesOf entry.2 := by
  have hrun : (Machine.run step initial twoRemovals).map summary =
      some (["x"], [[], []], [false, false, false, false]) := by
    decide +kernel
  obtain ⟨last, hlast, hsummary⟩ := Option.map_eq_some_iff.mp hrun
  simp only [summary, Prod.mk.injEq] at hsummary
  obtain ⟨himages, hrows, hended⟩ := hsummary
  refine ⟨last, hlast, fun txn htxn ↦ ?_, fun hall ↦ ?_⟩
  · have hmem := List.mem_map_of_mem (f := Txn.inFlight) htxn
    rw [hended] at hmem
    simpa using hmem
  · obtain ⟨entry, hentry, himage⟩ := (hall "x").mp (himages ▸ List.mem_cons_self)
    have hmem : imagesOf entry.2 ∈ last.rows.map fun entry ↦ imagesOf entry.2 :=
      List.mem_map_of_mem hentry
    rw [hrows] at hmem
    have hnone : imagesOf entry.2 = [] := by simpa using hmem
    rw [hnone] at himage
    cases himage

/-- The UPDATE writes the one column that has changed, over a row that has lost all three. -/
theorem logo_without_favicons : ∃ last, Machine.run step initial sameFavicons = some last ∧
    ¬∀ entry ∈ last.rows, Whole entry.2 := by
  have hrun : (Machine.run step initial sameFavicons).map
      (fun last ↦ last.rows.map fun entry ↦ (entry.2 .logoLight, entry.2 .favicon32)) =
      some [(some "k", none)] := by
    decide +kernel
  obtain ⟨last, hlast, hrows⟩ := Option.map_eq_some_iff.mp hrun
  refine ⟨last, hlast, fun hwhole ↦ ?_⟩
  obtain ⟨entry, hentry, hcolumns⟩ := List.mem_map.mp (hrows ▸ List.mem_cons_self)
  obtain ⟨hlight, hsmall⟩ := Prod.mk.inj hcolumns
  have hboth := (hwhole entry hentry).1
  rw [hlight, hsmall] at hboth
  cases hboth

end OpenWhistle.Branding.Images
