import Mathlib.Data.List.Nodup
import OpenWhistle.Foundation.Machine
import OpenWhistle.Foundation.MultiFernet
import OpenWhistle.Foundation.Parties

/-!
# Moving the files of old attachments

Files from before version 1.5 lie under keys that carry their names, and files from before 1.4 in
clear. The job at startup loads the rows with a key and takes one after the other: it copies the
object to a fresh key, or reads it, seals it and puts it there, then points the row at it and
commits, then deletes the old object. The rows are those it has loaded; another run may have moved
them since.

Every step may fail, before it takes effect or after. A run that fails at the commit ends, and one
that is stopped is one that no later event names. No step loses a file: an object is deleted after
its row has come to point at another one, and a row never comes back to a key it has left.
-/

set_option autoImplicit false
set_option relaxedAutoImplicit false

namespace OpenWhistle.Attachments.Rekey

/-! ### Rows and objects -/

/-- A row of `attachments`, as far as its file goes. -/
structure Attachment where
  id : String
  reportId : String
  storageKey : Option String
  data : Option String
  encrypted : Bool
  deriving DecidableEq

/-- `_UUID_KEY.fullmatch`. -/
def isUuidKey (key : String) : Bool :=
  let groups := key.toList.splitOn '-'
  decide (groups.map List.length = [8, 4, 4, 4, 12]) &&
    groups.flatten.all fun c ↦ c ∈ "0123456789abcdef".toList

/-- `make_report_fernet` of the data key of a report, as what it makes and opens; `none` where the
report is gone or its key cannot be unwrapped. -/
abbrev Keys := (reportId : String) → Option Sealing

/-- The plaintext of what is stored for an attachment. -/
def plain (keys : Keys) (attachment : Attachment) (data : String) : Option String :=
  if attachment.encrypted then (keys attachment.reportId).bind fun fernet ↦ fernet.decrypt data
  else some data

/-! ### Runs -/

/-- How far a run is: the row it is at, as it has loaded it, and those that come after. -/
inductive Phase
  | starting
  | looping (rest : List Attachment)
  /-- A key has been generated for a row. -/
  | keyed (attachment : Attachment) (new : String) (rest : List Attachment)
  /-- The object has been read and sealed. -/
  | fetched (attachment : Attachment) (new ciphertext : String) (rest : List Attachment)
  /-- The new object is there. -/
  | written (attachment : Attachment) (new : String) (rest : List Attachment)
  /-- The row points at it. -/
  | pointed (attachment : Attachment) (rest : List Attachment)
  | ended

/-- The database and the object store. What no run reads: the keys that rows have had, and those
that have been generated. -/
structure Store where
  rows : List Attachment
  objects : String → Option String
  had : List String
  generated : List String

/-- The runs of `rekey_legacy_objects`, in the order of their start. -/
structure State where
  store : Store
  runs : List Phase

/-- `read_attachment`; `none` where it raises. -/
def readAttachment (keys : Keys) (store : Store) (attachment : Attachment) : Option String :=
  match attachment.storageKey with
  | some key =>
    if key = "" then attachment.data.bind (plain keys attachment)
    else (store.objects key).bind (plain keys attachment)
  | none => attachment.data.bind (plain keys attachment)

/-- Before any run. -/
def start (rows : List Attachment) (objects : String → Option String) : State :=
  ⟨⟨rows, objects, rows.filterMap Attachment.storageKey, []⟩, []⟩

/-- What becomes of a step: it is done, it fails and has done nothing, or it has taken effect and
its reply is lost. -/
inductive Reply
  | done
  | failed
  | lost
  deriving DecidableEq

/-- It has taken effect. -/
def Reply.effective : Reply → Bool
  | .failed => false
  | _ => true

inductive Event
  | start
  /-- The rows are loaded. -/
  | load (i : ℕ)
  /-- The next row: it is skipped, or gets a key. -/
  | next (i : ℕ) (new : String)
  /-- The copy, or the read. -/
  | move (i : ℕ) (reply : Reply) (iv : ℕ)
  | put (i : ℕ) (reply : Reply)
  | commit (i : ℕ) (reply : Reply)
  | delete (i : ℕ) (reply : Reply)

/-- `att.storage_key or ""`. -/
def Attachment.old (attachment : Attachment) : String := attachment.storageKey.getD ""

namespace Store

variable (store : Store)

/-- PUT of an object, or the copy of one. -/
def put (key data : String) : Store :=
  { store with objects := Function.update store.objects key (some data) }

/-- DELETE of an object. -/
def remove (key : String) : Store :=
  { store with objects := Function.update store.objects key none }

/-- The UPDATE of a row: the key, and the flag where it was not set on the row that was loaded. -/
def point (attachment : Attachment) (new : String) : Store :=
  { store with
    rows := store.rows.map fun row ↦ if row.id = attachment.id then
      { row with storageKey := some new, encrypted := row.encrypted || !attachment.encrypted }
      else row
    had := new :: store.had }

/-- `generate_storage_key`. -/
def generate (new : String) : Store := { store with generated := new :: store.generated }

/-- A key that nobody has had. -/
def IsFresh (new : String) : Prop :=
  isUuidKey new = true ∧ new ∉ store.had ∧ new ∉ store.generated

instance decidableIsFresh (new : String) : Decidable (store.IsFresh new) :=
  inferInstanceAs (Decidable (_ ∧ _ ∧ _))

end Store

/-- A run goes on, and leaves this. -/
def State.goOn (s : State) (i : ℕ) (store : Store) (phase : Phase) : State :=
  ⟨store, s.runs.set i phase⟩

variable (keys : Keys)

/-- `rekey_legacy_objects`, from one step to the next. -/
def step (s : State) : Event → Option State
  | .start => some ⟨s.store, s.runs ++ [.starting]⟩
  | .load i => s.runs[i]?.bind fun phase ↦
    match phase with
    | .starting =>
      some (s.goOn i s.store (.looping (s.store.rows.filter fun row ↦ row.storageKey.isSome)))
    | _ => none
  | .next i new => s.runs[i]?.bind fun phase ↦
    match phase with
    | .looping [] => some (s.goOn i s.store .ended)
    | .looping (attachment :: rest) =>
      if isUuidKey attachment.old && attachment.encrypted then some (s.goOn i s.store (.looping rest))
      else if s.store.IsFresh new then
        some (s.goOn i (s.store.generate new) (.keyed attachment new rest))
      else none
    | _ => none
  | .move i reply iv => s.runs[i]?.bind fun phase ↦
    match phase with
    | .keyed attachment new rest =>
      match s.store.objects attachment.old with
      | none => some (s.goOn i s.store (.looping rest))
      | some data =>
        if attachment.encrypted then
          some (s.goOn i (if reply.effective then s.store.put new data else s.store)
            (if reply = .done then .written attachment new rest else .looping rest))
        else
          match keys attachment.reportId with
          | none => some (s.goOn i s.store (.looping rest))
          | some fernet => some (s.goOn i s.store
              (if reply = .done then .fetched attachment new (fernet.encipher data iv) rest
                else .looping rest))
    | _ => none
  | .put i reply => s.runs[i]?.bind fun phase ↦
    match phase with
    | .fetched attachment new ciphertext rest =>
      some (s.goOn i (if reply.effective then s.store.put new ciphertext else s.store)
        (if reply = .done then .written attachment new rest else .looping rest))
    | _ => none
  | .commit i reply => s.runs[i]?.bind fun phase ↦
    match phase with
    | .written attachment new rest =>
      some (s.goOn i (if reply.effective then s.store.point attachment new else s.store)
        (if reply = .done then .pointed attachment rest else .ended))
    | _ => none
  | .delete i reply => s.runs[i]?.bind fun phase ↦
    match phase with
    | .pointed attachment rest =>
      some (s.goOn i (if reply.effective then s.store.remove attachment.old else s.store)
        (.looping rest))
    | _ => none

/-! ### No file is lost -/

/-- Every row with a key points to an object of its own, which `read_attachment` turns into the
original bytes. The id is the primary key. -/
structure Kept (original : String → String) (store : Store) : Prop where
  ids : (store.rows.map Attachment.id).Nodup
  readable : ∀ row ∈ store.rows, ∀ key ∈ row.storageKey, key ≠ "" ∧
    (store.objects key).isSome = true ∧ readAttachment keys store row = some (original row.id)
  own : ∀ row ∈ store.rows, ∀ other ∈ store.rows, ∀ key ∈ row.storageKey,
    key ∈ other.storageKey → row.id = other.id

/-- The rows a run has loaded and still needs. -/
def Phase.loaded : Phase → List Attachment
  | .starting => []
  | .looping rest => rest
  | .keyed attachment _ rest => attachment :: rest
  | .fetched attachment _ _ rest => attachment :: rest
  | .written attachment _ rest => attachment :: rest
  | .pointed attachment rest => attachment :: rest
  | .ended => []

/-- The key that a run has generated and that no row has yet. -/
def Phase.new : Phase → Option String
  | .keyed _ new _ => some new
  | .fetched _ new _ _ => some new
  | .written _ new _ => some new
  | _ => none

/-- An attachment whose file has been sealed. -/
def Attachment.sealed (attachment : Attachment) : Attachment := { attachment with encrypted := true }

/-- A row as it was loaded, at any later time: its key has been this row's only, its object reads as
the file if it is still there, and the row is what it was but for its key and a flag that is set. -/
structure Stale (original : String → String) (store : Store) (attachment : Attachment) : Prop where
  key : attachment.storageKey = some attachment.old
  ne : attachment.old ≠ ""
  had : attachment.old ∈ store.had
  own : ∀ row ∈ store.rows, attachment.old ∈ row.storageKey → row.id = attachment.id
  reads : ∀ data, store.objects attachment.old = some data →
    plain keys attachment data = some (original attachment.id)
  row : ∀ row ∈ store.rows, row.id = attachment.id → row.reportId = attachment.reportId ∧
    (attachment.encrypted = true → row.encrypted = true)

/-- What holds of a run. -/
structure Run (original : String → String) (store : Store) (phase : Phase) : Prop where
  stale : ∀ attachment ∈ phase.loaded, Stale keys original store attachment
  new : ∀ new ∈ phase.new, new ∉ store.had ∧ new ∈ store.generated ∧ new ≠ ""
  fetched : ∀ attachment new ciphertext rest, phase = .fetched attachment new ciphertext rest →
    plain keys attachment.sealed ciphertext = some (original attachment.id)
  written : ∀ attachment new rest, phase = .written attachment new rest →
    ∃ data, store.objects new = some data ∧
      plain keys attachment.sealed data = some (original attachment.id)
  pointed : ∀ attachment rest, phase = .pointed attachment rest →
    ∀ row ∈ store.rows, attachment.old ∉ row.storageKey

structure Inv (original : String → String) (s : State) : Prop where
  kept : Kept keys original s.store
  had : ∀ row ∈ s.store.rows, ∀ key ∈ row.storageKey, key ∈ s.store.had
  runs : ∀ (i : ℕ) phase, s.runs[i]? = some phase → Run keys original s.store phase
  apart : ∀ (i j : ℕ) phase other, i ≠ j → s.runs[i]? = some phase → s.runs[j]? = some other →
    ∀ new ∈ phase.new, new ∉ other.new

variable {keys} {original : String → String} {s : State} {store next : Store} {i : ℕ}

/-- A run goes on and may change the store: it says what holds of itself, and that it has left the
others alone. -/
theorem Inv.goOn (h : Inv keys original s) {phase : Phase} (hkept : Kept keys original store)
    (hhad : ∀ row ∈ store.rows, ∀ key ∈ row.storageKey, key ∈ store.had)
    (hrun : Run keys original store phase)
    (hothers : ∀ (j : ℕ) other, j ≠ i → s.runs[j]? = some other → Run keys original store other)
    (hnew : ∀ (j : ℕ) other, j ≠ i → s.runs[j]? = some other →
      ∀ new ∈ phase.new, new ∉ other.new) : Inv keys original (s.goOn i store phase) where
  kept := hkept
  had := hhad
  runs := Parties.forall_set hrun hothers
  apart := Parties.apart_set h.apart fun j other hj hother ↦
    ⟨hnew j other hj hother, fun new hother' hmem ↦ hnew j other hj hother new hmem hother'⟩

/-- A run goes on without changing anything, and needs no more than before. -/
theorem Inv.goOn_same (h : Inv keys original s) {phase old : Phase} (hold : s.runs[i]? = some old)
    (hrun : Run keys original s.store phase) (hnew : ∀ new ∈ phase.new, new ∈ old.new) :
    Inv keys original (s.goOn i s.store phase) :=
  h.goOn h.kept h.had hrun (fun j other _ hother ↦ h.runs j other hother)
    fun j other hj hother new hmem ↦ h.apart i j old other hj.symm hold hother new (hnew new hmem)

/-! ### Objects and rows -/

theorem plain_sealed (attachment : Attachment) (data : String) :
    plain keys attachment.sealed data =
      (keys attachment.reportId).bind fun fernet ↦ fernet.decrypt data := rfl

/-- An object under a key that no row has had. -/
theorem Stale.put {attachment : Attachment} (h : Stale keys original store attachment)
    {key : String} (data : String) (hkey : key ∉ store.had) :
    Stale keys original (store.put key data) attachment where
  key := h.key
  ne := h.ne
  had := h.had
  own := h.own
  reads other hother := by
    refine h.reads other ((Function.update_of_ne ?_ _ _).symm.trans hother)
    rintro rfl
    exact hkey h.had
  row := h.row

/-- What `Kept` says of one row. -/
theorem readable_iff {row : Attachment} {key : String} (hkey : row.storageKey = some key)
    {file : String} :
    (key ≠ "" ∧ (store.objects key).isSome = true ∧ readAttachment keys store row = some file) ↔
      key ≠ "" ∧ ∃ data, store.objects key = some data ∧ plain keys row data = some file := by
  refine and_congr_right fun hne ↦ ?_
  unfold readAttachment
  rw [hkey]
  dsimp only
  rw [if_neg hne, Option.bind_eq_some_iff]
  constructor
  · rintro ⟨-, hread⟩
    exact hread
  · rintro ⟨data, hdata, hplain⟩
    exact ⟨by rw [hdata]; rfl, data, hdata, hplain⟩

theorem Kept.put (h : Kept keys original store)
    (hhad : ∀ row ∈ store.rows, ∀ key ∈ row.storageKey, key ∈ store.had) {key : String}
    (data : String) (hkey : key ∉ store.had) : Kept keys original (store.put key data) where
  ids := h.ids
  readable row hrow other hother := by
    obtain ⟨hne, old, hold, hplain⟩ := (readable_iff hother).mp (h.readable row hrow other hother)
    refine (readable_iff hother).mpr ⟨hne, old, ?_, hplain⟩
    refine (Function.update_of_ne ?_ _ _).trans hold
    rintro rfl
    exact hkey (hhad row hrow other hother)
  own := h.own

theorem Run.put {phase : Phase} (h : Run keys original store phase) {key : String} (data : String)
    (hkey : key ∉ store.had) (hnew : key ∉ phase.new) :
    Run keys original (store.put key data) phase where
  stale attachment hmem := (h.stale attachment hmem).put data hkey
  new := h.new
  fetched := h.fetched
  written attachment new rest hphase := by
    obtain ⟨other, hother, hplain⟩ := h.written attachment new rest hphase
    refine ⟨other, (Function.update_of_ne ?_ _ _).trans hother, hplain⟩
    rintro rfl
    exact hnew (by rw [hphase]; rfl)
  pointed := h.pointed

theorem Run.generate {phase : Phase} (h : Run keys original store phase) (new : String) :
    Run keys original (store.generate new) phase where
  stale attachment hmem :=
    have hstale := h.stale attachment hmem
    ⟨hstale.key, hstale.ne, hstale.had, hstale.own, hstale.reads, hstale.row⟩
  new other hother :=
    have hnew := h.new other hother
    ⟨hnew.1, List.mem_cons_of_mem _ hnew.2.1, hnew.2.2⟩
  fetched := h.fetched
  written := h.written
  pointed := h.pointed

/-- A row after the UPDATE: the one that was pointed at the new object, or another. -/
theorem mem_point {attachment row : Attachment} {new : String}
    (h : row ∈ (store.point attachment new).rows) :
    ∃ before ∈ store.rows, row.id = before.id ∧ row.reportId = before.reportId ∧
      (before.id = attachment.id ∧ row.storageKey = some new ∧
          row.encrypted = (before.encrypted || !attachment.encrypted) ∨
        before.id ≠ attachment.id ∧ row = before) := by
  obtain ⟨before, hbefore, rfl⟩ := List.mem_map.mp h
  refine ⟨before, hbefore, ?_⟩
  by_cases hid : before.id = attachment.id
  · rw [if_pos hid]
    exact ⟨rfl, rfl, .inl ⟨hid, rfl, rfl⟩⟩
  · rw [if_neg hid]
    exact ⟨rfl, rfl, .inr ⟨hid, rfl⟩⟩

/-- A key that rows have had is on no row that it was not on. -/
theorem before_point {attachment row : Attachment} {new key : String}
    (h : row ∈ (store.point attachment new).rows) (hkey : key ∈ row.storageKey) (hne : key ≠ new) :
    row ∈ store.rows := by
  obtain ⟨before, hbefore, -, -, ⟨-, hnew, -⟩ | ⟨-, rfl⟩⟩ := mem_point h
  · rw [hnew] at hkey
    exact absurd (Option.some.inj hkey).symm hne
  · exact hbefore

theorem Stale.point {attachment other : Attachment} (h : Stale keys original store attachment)
    {new : String} (hnew : new ∉ store.had) :
    Stale keys original (store.point other new) attachment where
  key := h.key
  ne := h.ne
  had := List.mem_cons_of_mem _ h.had
  own row hrow hkey := by
    refine h.own row (before_point hrow hkey ?_) hkey
    rintro rfl
    exact hnew h.had
  reads := h.reads
  row row hrow hid := by
    obtain ⟨before, hbefore, hid', hreport, hcases⟩ := mem_point hrow
    obtain ⟨hreport', hencrypted⟩ := h.row before hbefore (hid'.symm.trans hid)
    refine ⟨hreport.trans hreport', fun hsealed ↦ ?_⟩
    rcases hcases with ⟨-, -, hrow'⟩ | ⟨-, rfl⟩
    · rw [hrow', hencrypted hsealed]
      rfl
    · exact hencrypted hsealed

theorem Run.point {phase : Phase} (h : Run keys original store phase) (attachment : Attachment)
    {new : String} (hnew : new ∉ store.had) (hother : new ∉ phase.new) :
    Run keys original (store.point attachment new) phase where
  stale other hmem := (h.stale other hmem).point hnew
  new other hmem := by
    obtain ⟨hhad, hgenerated, hne⟩ := h.new other hmem
    refine ⟨fun hmem' ↦ ?_, hgenerated, hne⟩
    rcases List.mem_cons.mp hmem' with rfl | hmem'
    · exact hother hmem
    · exact hhad hmem'
  fetched := h.fetched
  written := h.written
  pointed other rest hphase row hrow hkey := by
    have hstale := h.stale other (by rw [hphase]; exact List.mem_cons_self)
    refine h.pointed other rest hphase row (before_point hrow hkey ?_) hkey
    rintro rfl
    exact hnew hstale.had

/-- The row points at an object that reads as the file. -/
theorem Kept.point (h : Kept keys original store)
    (hhad : ∀ row ∈ store.rows, ∀ key ∈ row.storageKey, key ∈ store.had) {attachment : Attachment}
    (hstale : Stale keys original store attachment) {new data : String} (hnew : new ∉ store.had)
    (hne : new ≠ "") (hdata : store.objects new = some data)
    (hplain : plain keys attachment.sealed data = some (original attachment.id)) :
    Kept keys original (store.point attachment new) where
  ids := by
    refine (congrArg List.Nodup ?_).mpr h.ids
    unfold Store.point
    rw [List.map_map]
    refine List.map_congr_left fun row _ ↦ ?_
    dsimp only [Function.comp]
    split_ifs <;> rfl
  readable row hrow key hkey := by
    obtain ⟨before, hbefore, hid, hreport, ⟨hsame, hkey', hsealed⟩ | ⟨-, rfl⟩⟩ := mem_point hrow
    · rw [hkey'] at hkey
      cases hkey
      refine (readable_iff hkey').mpr ⟨hne, data, hdata, ?_⟩
      obtain ⟨hreport', hencrypted⟩ := hstale.row before hbefore hsame
      have htrue : row.encrypted = true := by
        rw [hsealed]
        cases hflag : attachment.encrypted with
        | true => rw [hencrypted hflag]; rfl
        | false => exact Bool.or_true _
      rw [plain, if_pos htrue, hreport, hreport', hid, hsame]
      exact hplain
    · exact (readable_iff hkey).mpr
        ((readable_iff hkey).mp (h.readable row hbefore key hkey))
  own row hrow other hother key hkey hkey' := by
    obtain ⟨before, hbefore, hid, -, ⟨hsame, hrow', -⟩ | ⟨-, rfl⟩⟩ := mem_point hrow
    · obtain ⟨before', hbefore', hid', -, ⟨hsame', -, -⟩ | ⟨-, rfl⟩⟩ := mem_point hother
      · rw [hid, hid', hsame, hsame']
      · rw [hrow'] at hkey
        cases hkey
        exact absurd (hhad other hbefore' new hkey') hnew
    · obtain ⟨before', hbefore', hid', -, ⟨hsame', hother', -⟩ | ⟨-, rfl⟩⟩ := mem_point hother
      · rw [hother'] at hkey'
        cases hkey'
        exact absurd (hhad row hbefore new hkey) hnew
      · exact h.own row hbefore other hbefore' key hkey hkey'

theorem had_point (hhad : ∀ row ∈ store.rows, ∀ key ∈ row.storageKey, key ∈ store.had)
    (attachment : Attachment) (new : String) :
    ∀ row ∈ (store.point attachment new).rows, ∀ key ∈ row.storageKey,
      key ∈ (store.point attachment new).had := by
  intro row hrow key hkey
  obtain ⟨before, hbefore, -, -, ⟨-, hrow', -⟩ | ⟨-, rfl⟩⟩ := mem_point hrow
  · rw [hrow'] at hkey
    cases hkey
    exact List.mem_cons_self
  · exact List.mem_cons_of_mem _ (hhad row hbefore key hkey)

/-- An object to which no row points. -/
theorem Kept.remove (h : Kept keys original store) {key : String}
    (hkey : ∀ row ∈ store.rows, key ∉ row.storageKey) : Kept keys original (store.remove key) where
  ids := h.ids
  readable row hrow other hother := by
    obtain ⟨hne, old, hold, hplain⟩ := (readable_iff hother).mp (h.readable row hrow other hother)
    refine (readable_iff hother).mpr ⟨hne, old, ?_, hplain⟩
    refine (Function.update_of_ne ?_ _ _).trans hold
    rintro rfl
    exact hkey row hrow hother
  own := h.own

theorem Stale.remove {attachment : Attachment} (h : Stale keys original store attachment)
    (key : String) : Stale keys original (store.remove key) attachment where
  key := h.key
  ne := h.ne
  had := h.had
  own := h.own
  reads data hdata := by
    by_cases heq : attachment.old = key
    · rw [heq] at hdata
      cases (Function.update_self ..).symm.trans hdata
    · exact h.reads data ((Function.update_of_ne heq _ _).symm.trans hdata)
  row := h.row

theorem Run.remove {phase : Phase} (h : Run keys original store phase) {key : String}
    (hkey : key ∈ store.had) : Run keys original (store.remove key) phase where
  stale attachment hmem := (h.stale attachment hmem).remove key
  new := h.new
  fetched := h.fetched
  written attachment new rest hphase := by
    obtain ⟨data, hdata, hplain⟩ := h.written attachment new rest hphase
    refine ⟨data, (Function.update_of_ne ?_ _ _).trans hdata, hplain⟩
    rintro rfl
    exact (h.new new (by rw [hphase]; rfl)).1 hkey
  pointed := h.pointed

/-! ### Runs -/

theorem run_looping {rest : List Attachment}
    (h : ∀ attachment ∈ rest, Stale keys original store attachment) :
    Run keys original store (.looping rest) where
  stale := h
  new _ hnew := by cases hnew
  fetched _ _ _ _ hphase := by cases hphase
  written _ _ _ hphase := by cases hphase
  pointed _ _ hphase := by cases hphase

theorem run_starting : Run keys original store .starting where
  stale _ hmem := absurd hmem List.not_mem_nil
  new _ hnew := by cases hnew
  fetched _ _ _ _ hphase := by cases hphase
  written _ _ _ hphase := by cases hphase
  pointed _ _ hphase := by cases hphase

theorem run_ended : Run keys original store .ended where
  stale _ hmem := absurd hmem List.not_mem_nil
  new _ hnew := by cases hnew
  fetched _ _ _ _ hphase := by cases hphase
  written _ _ _ hphase := by cases hphase
  pointed _ _ hphase := by cases hphase

/-- A row that is loaded. -/
theorem stale_of_mem (h : Kept keys original store)
    (hhad : ∀ row ∈ store.rows, ∀ key ∈ row.storageKey, key ∈ store.had)
    {attachment : Attachment} (hmem : attachment ∈ store.rows)
    (hkey : attachment.storageKey.isSome = true) :
    Stale keys original store attachment := by
  obtain ⟨key, hkey⟩ := Option.isSome_iff_exists.mp hkey
  have hold : attachment.old = key := by rw [Attachment.old, hkey]; rfl
  obtain ⟨hne, data, hdata, hplain⟩ := (readable_iff hkey).mp (h.readable attachment hmem key hkey)
  exact {
    key := by rw [hold, hkey]
    ne := by rw [hold]; exact hne
    had := by rw [hold]; exact hhad attachment hmem key hkey
    own := fun row hrow hkey' ↦ h.own row hrow attachment hmem key
      (by rw [hold] at hkey'; exact hkey') hkey
    reads := fun other hother ↦ by
      rw [hold, hdata] at hother
      cases hother
      exact hplain
    row := fun row hrow hid ↦ by
      have hsame : row = attachment := List.inj_on_of_nodup_map h.ids hrow hmem hid
      rw [hsame]
      exact ⟨rfl, fun hsealed ↦ hsealed⟩ }

theorem ne_of_isUuidKey {key : String} (h : isUuidKey key = true) : key ≠ "" := by
  rintro rfl
  revert h
  decide

/-- The next row: it gets a key that nobody has had. -/
theorem inv_next (h : Inv keys original s) {attachment : Attachment} {rest : List Attachment}
    (hphase : s.runs[i]? = some (.looping (attachment :: rest))) {new : String}
    (hfresh : s.store.IsFresh new) :
    Inv keys original (s.goOn i (s.store.generate new) (.keyed attachment new rest)) := by
  obtain ⟨huuid, hhad, hgenerated⟩ := hfresh
  have hrun := h.runs i _ hphase
  refine h.goOn ⟨h.kept.ids, h.kept.readable, h.kept.own⟩ h.had ?_
    (fun j other _ hother ↦ (h.runs j other hother).generate new)
    fun j other _ hother key hkey hmem ↦ ?_
  · have hgenerate := hrun.generate new
    exact {
      stale := hgenerate.stale
      new := fun key hkey ↦ by
        cases hkey
        exact ⟨hhad, List.mem_cons_self, ne_of_isUuidKey huuid⟩
      fetched := fun _ _ _ _ hphase ↦ by cases hphase
      written := fun _ _ _ hphase ↦ by cases hphase
      pointed := fun _ _ hphase ↦ by cases hphase }
  · cases hkey
    exact hgenerated ((h.runs j other hother).new new hmem).2.1

/-- An object comes under the key of a run, with or without the run learning of it. -/
theorem inv_put (h : Inv keys original s) {phase old : Phase} (hold : s.runs[i]? = some old)
    {attachment : Attachment} {new data : String} {rest : List Attachment} (hnew : new ∈ old.new)
    (hloaded : old.loaded = attachment :: rest)
    (hplain : plain keys attachment.sealed data = some (original attachment.id))
    (hphase : phase = .written attachment new rest ∨ phase = .looping rest) :
    Inv keys original (s.goOn i (s.store.put new data) phase) := by
  have hrun := h.runs i old hold
  obtain ⟨hhad, hgenerated, hne⟩ := hrun.new new hnew
  have hstale : ∀ other ∈ attachment :: rest, Stale keys original (s.store.put new data) other :=
    fun other hother ↦ (hrun.stale other (by rw [hloaded]; exact hother)).put data hhad
  refine h.goOn (h.kept.put h.had data hhad) h.had ?_ (fun j other hj hother ↦ ?_)
    fun j other hj hother key hkey ↦ ?_
  · rcases hphase with rfl | rfl
    · exact {
        stale := hstale
        new := fun key hkey ↦ by
          cases hkey
          exact ⟨hhad, hgenerated, hne⟩
        fetched := fun _ _ _ _ hphase ↦ by cases hphase
        written := fun other key rest' hphase ↦ by
          cases hphase
          exact ⟨data, Function.update_self .., hplain⟩
        pointed := fun _ _ hphase ↦ by cases hphase }
    · exact run_looping fun other hother ↦ hstale other (List.mem_cons_of_mem _ hother)
  · exact (h.runs j other hother).put data hhad (h.apart i j old other hj.symm hold hother new hnew)
  · rcases hphase with rfl | rfl
    · cases hkey
      exact h.apart i j old other hj.symm hold hother new hnew
    · cases hkey

/-- The row of a run points at its object, with or without the run learning of it. -/
theorem inv_commit (h : Inv keys original s) {phase : Phase} {attachment : Attachment}
    {new : String} {rest : List Attachment} (hold : s.runs[i]? = some (.written attachment new rest))
    (hphase : phase = .pointed attachment rest ∨ phase = .ended) :
    Inv keys original (s.goOn i (s.store.point attachment new) phase) := by
  have hrun := h.runs i _ hold
  obtain ⟨hhad, -, hne⟩ := hrun.new new rfl
  obtain ⟨data, hdata, hplain⟩ := hrun.written attachment new rest rfl
  have hstale := hrun.stale attachment List.mem_cons_self
  refine h.goOn (h.kept.point h.had hstale hhad hne hdata hplain) (had_point h.had attachment new) ?_
    (fun j other hj hother ↦ ?_) fun j other hj hother key hkey ↦ ?_
  · rcases hphase with rfl | rfl
    · exact {
        stale := fun other hother ↦ (hrun.stale other hother).point hhad
        new := fun _ hnew ↦ by cases hnew
        fetched := fun _ _ _ _ hphase ↦ by cases hphase
        written := fun _ _ _ hphase ↦ by cases hphase
        pointed := fun other rest' hphase row hrow hkey ↦ by
          cases hphase
          obtain ⟨before, hbefore, -, -, ⟨-, hrow', -⟩ | ⟨hid, rfl⟩⟩ := mem_point hrow
          · rw [hrow'] at hkey
            exact hhad ((Option.some.inj hkey) ▸ hstale.had)
          · exact hid (hstale.own row hbefore hkey) }
    · exact run_ended
  · exact (h.runs j other hother).point attachment hhad
      (h.apart i j _ other hj.symm hold hother new rfl)
  · rcases hphase with rfl | rfl <;> cases hkey

/-- The object that a row has left is deleted. -/
theorem inv_delete (h : Inv keys original s) {attachment : Attachment} {rest : List Attachment}
    (hold : s.runs[i]? = some (.pointed attachment rest)) :
    Inv keys original (s.goOn i (s.store.remove attachment.old) (.looping rest)) := by
  have hrun := h.runs i _ hold
  have hhad := (hrun.stale attachment List.mem_cons_self).had
  refine h.goOn (h.kept.remove (hrun.pointed attachment rest rfl)) h.had ?_
    (fun j other _ hother ↦ (h.runs j other hother).remove hhad) fun _ _ _ _ key hkey ↦ by cases hkey
  exact run_looping fun other hother ↦
    (hrun.stale other (List.mem_cons_of_mem _ hother)).remove attachment.old

/-- The rest of a run's rows, when it gives one up. -/
theorem inv_giveUp (h : Inv keys original s) {old : Phase} (hold : s.runs[i]? = some old)
    {attachment : Attachment} {rest : List Attachment} (hloaded : old.loaded = attachment :: rest) :
    Inv keys original (s.goOn i s.store (.looping rest)) := by
  refine h.goOn_same hold (run_looping fun other hother ↦ ?_) fun new hnew ↦ by cases hnew
  exact (h.runs i old hold).stale other (by rw [hloaded]; exact List.mem_cons_of_mem _ hother)

/-- The copy of an object that is sealed, or the read and the sealing of one that is not. -/
theorem inv_move {t : State} {reply : Reply} {iv : ℕ} {attachment : Attachment} {new : String}
    {rest : List Attachment} (h : Inv keys original s)
    (hold : s.runs[i]? = some (.keyed attachment new rest))
    (hstep : step keys s (.move i reply iv) = some t) : Inv keys original t := by
  have hstale := (h.runs i _ hold).stale attachment List.mem_cons_self
  have hgiveUp := inv_giveUp h hold rfl
  obtain ⟨phase, hphase, hstep⟩ := Option.bind_eq_some_iff.mp hstep
  cases hold.symm.trans hphase
  dsimp only at hstep
  split at hstep
  · cases hstep
    exact hgiveUp
  · rename_i data hdata
    have hfile := hstale.reads data hdata
    by_cases hencrypted : attachment.encrypted = true
    · rw [if_pos hencrypted] at hstep
      cases hstep
      have hplain : plain keys attachment.sealed data = some (original attachment.id) := by
        rw [plain, if_pos hencrypted] at hfile
        exact hfile
      cases reply with
      | done => exact inv_put h hold rfl rfl hplain (.inl rfl)
      | failed => exact hgiveUp
      | lost => exact inv_put h hold rfl rfl hplain (.inr rfl)
    · rw [if_neg hencrypted] at hstep
      split at hstep
      · cases hstep
        exact hgiveUp
      · rename_i fernet hfernet
        cases hstep
        rw [plain, if_neg hencrypted, Option.some.injEq] at hfile
        cases reply with
        | done =>
          have hrun := h.runs i _ hold
          refine h.goOn_same hold ?_ fun key hkey ↦ hkey
          exact {
            stale := hrun.stale
            new := hrun.new
            fetched := fun other key ciphertext rest' hphase ↦ by
              cases hphase
              rw [plain_sealed, hfernet, Option.bind_some, fernet.decrypt_encipher, hfile]
            written := fun _ _ _ hphase ↦ by cases hphase
            pointed := fun _ _ hphase ↦ by cases hphase }
        | failed => exact hgiveUp
        | lost => exact hgiveUp

theorem inv_step {t : State} {event : Event} (h : Inv keys original s)
    (hstep : step keys s event = some t) : Inv keys original t := by
  cases event with
  | start =>
    cases hstep
    exact {
      kept := h.kept
      had := h.had
      runs := Parties.forall_concat run_starting h.runs
      apart := Parties.apart_concat h.apart fun _ ↦
        ⟨fun _ hkey ↦ (by cases hkey), fun _ _ hkey ↦ (by cases hkey)⟩ }
  | load i =>
    obtain ⟨phase, hphase, hstep⟩ := Option.bind_eq_some_iff.mp hstep
    cases phase with
    | starting =>
      cases hstep
      refine h.goOn_same hphase (run_looping fun attachment hmem ↦ ?_) fun _ hkey ↦ by cases hkey
      obtain ⟨hrow, hkey⟩ := List.mem_filter.mp hmem
      exact stale_of_mem h.kept h.had hrow hkey
    | _ => cases hstep
  | next i new =>
    obtain ⟨phase, hphase, hstep⟩ := Option.bind_eq_some_iff.mp hstep
    cases phase with
    | looping rest =>
      cases rest with
      | nil =>
        cases hstep
        exact h.goOn_same hphase run_ended fun _ hkey ↦ by cases hkey
      | cons attachment rest =>
        dsimp only at hstep
        split_ifs at hstep with hdone hfresh
        · cases hstep
          exact inv_giveUp h hphase rfl
        · cases hstep
          exact inv_next h hphase hfresh
    | _ => cases hstep
  | move i reply iv =>
    obtain ⟨phase, hphase, hrest⟩ := Option.bind_eq_some_iff.mp hstep
    cases phase with
    | keyed attachment new rest => exact inv_move h hphase hstep
    | _ => cases hrest
  | put i reply =>
    obtain ⟨phase, hphase, hstep⟩ := Option.bind_eq_some_iff.mp hstep
    cases phase with
    | fetched attachment new ciphertext rest =>
      cases hstep
      have hplain := (h.runs i _ hphase).fetched attachment new ciphertext rest rfl
      cases reply with
      | done => exact inv_put h hphase rfl rfl hplain (.inl rfl)
      | failed => exact inv_giveUp h hphase rfl
      | lost => exact inv_put h hphase rfl rfl hplain (.inr rfl)
    | _ => cases hstep
  | commit i reply =>
    obtain ⟨phase, hphase, hstep⟩ := Option.bind_eq_some_iff.mp hstep
    cases phase with
    | written attachment new rest =>
      cases hstep
      cases reply with
      | done => exact inv_commit h hphase (.inl rfl)
      | failed => exact h.goOn_same hphase run_ended fun _ hkey ↦ by cases hkey
      | lost => exact inv_commit h hphase (.inr rfl)
    | _ => cases hstep
  | delete i reply =>
    obtain ⟨phase, hphase, hstep⟩ := Option.bind_eq_some_iff.mp hstep
    cases phase with
    | pointed attachment rest =>
      cases hstep
      cases reply with
      | done => exact inv_delete h hphase
      | failed => exact inv_giveUp h hphase rfl
      | lost => exact inv_delete h hphase
    | _ => cases hstep

/-- From a database whose files are all there, whatever runs do and whatever fails: every file is
there, under a key of its own. -/
theorem rekeying_loses_no_file {rows : List Attachment} {objects : String → Option String}
    (hstart : Kept keys original (start rows objects).store) {events : List Event} {last : State}
    (hrun : Machine.run (step keys) (start rows objects) events = some last) :
    Kept keys original last.store := by
  have hinv : Inv keys original (start rows objects) := {
    kept := hstart
    had := fun row hrow key hkey ↦ List.mem_filterMap.mpr ⟨row, hrow, hkey⟩
    runs := fun i phase hphase ↦ by cases hphase
    apart := fun i j phase other _ hphase ↦ by cases hphase }
  exact (Machine.run_invariant_of_step (fun _ _ _ hs hstep ↦ inv_step hs hstep) hinv hrun).kept

/-- A file in clear under its name, and one sealed under its name. -/
def legacyRows : List Attachment :=
  [⟨"a", "r", some "a.txt", none, false⟩, ⟨"b", "r", some "b.txt", none, true⟩]

def legacyObjects (key : String) : Option String :=
  if key = "a.txt" then some "first" else if key = "b.txt" then some "second" else none

/-- Tokens that hide nothing. -/
def clearKeys : Keys := fun _ ↦ some ⟨fun data _ ↦ data, some, fun _ _ ↦ rfl⟩

def legacyFile (id : String) : String := if id = "a" then "first" else "second"

def firstKey : String := "00000000-0000-4000-8000-000000000001"

def secondKey : String := "00000000-0000-4000-8000-000000000002"

def thirdKey : String := "00000000-0000-4000-8000-000000000003"

/-- Two runs over the same rows: the second moves the first row once more from the key that the
first run has left, and its reply of the commit is lost; the first run goes on to the second row. -/
def twoRuns : List Event :=
  [.start, .start, .load 0, .load 1, .next 0 firstKey, .next 1 secondKey, .move 0 .done 0,
    .move 1 .done 0, .put 0 .done, .put 1 .done, .commit 0 .done, .delete 0 .done, .commit 1 .lost,
    .next 0 thirdKey, .move 0 .done 0, .commit 0 .done, .delete 0 .lost]

theorem kept_legacyRows : Kept clearKeys legacyFile (start legacyRows legacyObjects).store where
  ids := by decide
  readable row hrow key hkey := by
    rcases List.mem_cons.mp hrow with rfl | hrow
    · cases hkey
      exact ⟨by decide, rfl, rfl⟩
    · cases List.mem_singleton.mp hrow
      cases hkey
      exact ⟨by decide, rfl, rfl⟩
  own row hrow other hother key hkey hkey' := by
    rcases List.mem_cons.mp hrow with rfl | hrow
    · rcases List.mem_cons.mp hother with rfl | hother
      · rfl
      · cases List.mem_singleton.mp hother
        cases hkey
        exact absurd hkey' (by decide)
    · cases List.mem_singleton.mp hrow
      rcases List.mem_cons.mp hother with rfl | hother
      · cases hkey
        exact absurd hkey' (by decide)
      · cases List.mem_singleton.mp hother
        rfl

theorem two_runs_lose_no_file : ∃ last,
    Machine.run (step clearKeys) (start legacyRows legacyObjects) twoRuns = some last ∧
      last.store.rows.map Attachment.storageKey = [some secondKey, some thirdKey] ∧
      Kept clearKeys legacyFile last.store := by
  have hrun : (Machine.run (step clearKeys) (start legacyRows legacyObjects) twoRuns).map
      (fun last ↦ last.store.rows.map Attachment.storageKey) =
      some [some secondKey, some thirdKey] := by
    decide +kernel
  obtain ⟨last, hlast, hkeys⟩ := Option.map_eq_some_iff.mp hrun
  exact ⟨last, hlast, hkeys, rekeying_loses_no_file kept_legacyRows hlast⟩

end OpenWhistle.Attachments.Rekey
