import OpenWhistle.Attachments.Rekey

/-!
# The files of reports, from the submit to the erasure

A submit seals each file under the key of its report, puts it into the object store or into its row,
and commits the report and the rows together. If it fails before its commit, it takes its objects
back; if it does not learn what became of the commit, it leaves them, and the commit may still land.
An erasure reads the keys of the rows, deletes the reports with their rows, and removes the objects
after the commit. Any number of submits and erasures go on at a time, and each may fail at every
step or be stopped. A draft may come back and be sent again under its id, even after its report was
erased; the id is refused only while the report is there.

Erasures of one report exclude each other: a confirmation holds the row of its deletion request from
before it reads the keys, and the retention job, of which one runs at a time, takes reports that have
been closed for longer than any draft is kept, so that none of them comes back meanwhile.

Two things hold at any time. The rows are the files of the reports that were committed and not
erased, and each reads as the file that was sent. And every object belongs to a row, to a submit or
an erasure that is under way, or to one that has failed. The argument follows a key from hand to
hand: it is in the hand of one submit, then of one report, and once it is given up nobody reads it,
so that whoever removes an object takes it from nobody.
-/

set_option autoImplicit false
set_option relaxedAutoImplicit false

namespace OpenWhistle.Attachments.Custody

/-! ### Files and rows -/

/-- A file of a draft. -/
structure File where
  name : String
  contentType : String
  data : String
  named : name ≠ ""

/-- A row of `attachments`. -/
structure Row where
  id : String
  reportId : String
  filename : String
  contentType : String
  size : ℕ
  data : Option String
  storageKey : Option String
  encrypted : Bool

/-- `stored_object_keys`, of some rows. -/
def storedKeys (rows : List Row) : List String := rows.filterMap Row.storageKey

/-- The row of a report: its id, and the key that was drawn for it. -/
structure Report where
  id : String
  dek : ℕ
  deriving DecidableEq

/-- Whose a key is: nobody's yet, a submit's, a report's, or nobody's any more. -/
inductive Status
  | free
  | filing (i : ℕ)
  | row (reportId : String)
  | doomed
  deriving DecidableEq

/-- How far a submit or an erasure is. -/
inductive Phase
  | idle
  /-- The files still to be put, and the rows so far. -/
  | filing (report : Report) (rest : List File) (done : List (Row × File))
  /-- The exception handler; the COMMIT was issued or not. -/
  | failing (report : Report) (issued : Bool) (done : List (Row × File))
  /-- The page that says that the report may have been sent. -/
  | pending (report : Report) (done : List (Row × File))
  /-- The keys are read. -/
  | chosen (reportIds keys : List String)
  | removing (keys : List String)

def keysOf (done : List (Row × File)) : List String := storedKeys (done.map Prod.fst)

/-- The keys that somebody will give to a row or remove. -/
def Phase.held : Phase → List String
  | .filing _ _ done => keysOf done
  | .failing _ _ done => keysOf done
  | .pending _ done => keysOf done
  | .removing keys => keys
  | _ => []

structure State where
  /-- The keys of the reports that are there. -/
  reports : String → Option ℕ
  rows : List Row
  objects : String → Option String
  workers : ℕ → Phase
  /-- The files of the reports that were committed and not erased. -/
  library : List (String × File)
  /-- The reports that an erasure has in its hand, and its worker. -/
  locks : String → Option ℕ
  status : String → Status
  /-- Keys that somebody should have removed, and did not. -/
  leaked : List String

def State.empty : State where
  reports _ := none
  rows := []
  objects _ := none
  workers _ := .idle
  library := []
  locks _ := none
  status _ := .free
  leaked := []

inductive Event
  | submit (i : ℕ) (report : Report) (files : List File)
  | put (i : ℕ) (id key : String) (nameIv dataIv : ℕ) (reply : Rekey.Reply)
  | fail (i : ℕ)
  | commit (i : ℕ) (replied : Bool)
  /-- A COMMIT without a reply is carried out. -/
  | land (i : ℕ)
  | look (i : ℕ) (answered : Bool)
  | erase (i : ℕ) (reportIds : List String)
  | eraseCommit (i : ℕ) (reply : Rekey.Reply)
  | remove (i : ℕ) (reply : Rekey.Reply)
  | crash (i : ℕ)

/-! ### Reading -/

section Steps

-- The keys of reports, as what they make and open.
variable (keys : ℕ → Sealing)

def storedData (objects : String → Option String) (row : Row) : Option String :=
  match row.storageKey with
  | some key => if key = "" then row.data else objects key
  | none => row.data

/-- `read_attachment`; `none` where it raises. -/
def readAttachment (s : State) (row : Row) : Option String :=
  (storedData s.objects row).bind fun data ↦
    if row.encrypted then (s.reports row.reportId).bind fun dek ↦ (keys dek).decrypt data
    else some data

/-- `decrypt_field_safe`. -/
def decryptFieldSafe (fernet : Sealing) (ciphertext : String) : String :=
  match fernet.decrypt ciphertext with
  | some text => text
  | none =>
    if ciphertext.startsWith "gAAAA" then "[DECRYPTION FAILED — check ENCRYPTION_KEY/SECRET_KEY]"
    else ciphertext

/-- `attachment_filename`. -/
def attachmentFilename (s : State) (row : Row) : String :=
  match s.reports row.reportId with
  | some dek =>
    let name := decryptFieldSafe (keys dek) row.filename
    if name = "" then row.filename else name
  | none => row.filename

/-! ### Steps -/

/-- A row of `create_attachments`. -/
def newRow (report : Report) (id : String) (file : File) (nameIv : ℕ)
    (data storageKey : Option String) : Row where
  id := id
  reportId := report.id
  filename := (keys report.dek).encipher file.name nameIv
  contentType := file.contentType
  size := file.data.length
  data := data
  storageKey := storageKey
  encrypted := true

def State.goOn (s : State) (i : ℕ) (phase : Phase) : State :=
  { s with workers := Function.update s.workers i phase }

def State.put (s : State) (key data : String) (status : Status) : State :=
  { s with
    objects := Function.update s.objects key (some data)
    status := Function.update s.status key status }

/-- The report is there, with its rows. -/
def State.file (s : State) (i : ℕ) (report : Report) (done : List (Row × File)) : State :=
  { s with
    reports := Function.update s.reports report.id (some report.dek)
    rows := s.rows ++ done.map Prod.fst
    library := s.library ++ done.map fun p ↦ (report.id, p.2)
    status := fun key ↦ if s.status key = .filing i then .row report.id else s.status key }

/-- A submit gives up its keys. -/
def State.giveUp (s : State) (i : ℕ) : State :=
  { s with status := fun key ↦ if s.status key = .filing i then .doomed else s.status key }

/-- A worker takes reports into its hand to erase them. -/
def State.lock (s : State) (i : ℕ) (reportIds : List String) : State :=
  { s with locks := fun id ↦ if id ∈ reportIds then some i else s.locks id }

/-- The end of its transaction. -/
def State.unlock (s : State) (i : ℕ) : State :=
  { s with locks := fun id ↦ if s.locks id = some i then none else s.locks id }

/-- Reports are gone, with their rows. -/
def State.erase (s : State) (reportIds : List String) : State :=
  { s with
    reports := fun id ↦ if id ∈ reportIds then none else s.reports id
    rows := s.rows.filter fun row ↦ decide (row.reportId ∉ reportIds)
    library := s.library.filter fun entry ↦ decide (entry.1 ∉ reportIds)
    status := fun key ↦
      match s.status key with
      | .row reportId => if reportId ∈ reportIds then .doomed else .row reportId
      | status => status }

def State.leak (s : State) (keys : List String) : State := { s with leaked := keys ++ s.leaked }

def State.remove (s : State) (key : String) : State :=
  { s with objects := Function.update s.objects key none }

variable (useS3 : Bool)

def step (s : State) : Event → Option State
  | .submit i report files =>
    match s.workers i with
    | .idle => some (s.goOn i (.filing report files []))
    | _ => none
  | .put i id key nameIv dataIv reply =>
    match s.workers i with
    | .filing report (file :: rest) done =>
      let ciphertext := (keys report.dek).encipher file.data dataIv
      if useS3 then
        -- a key that was generated is a fresh UUID
        if s.status key = .free ∧ key ≠ "" then
          match reply with
          | .done => some ((s.put key ciphertext (.filing i)).goOn i (.filing report rest
              (done ++ [(newRow keys report id file nameIv none (some key), file)])))
          | .failed => some (s.goOn i (.failing report false done))
          | .lost => some (((s.put key ciphertext .doomed).leak [key]).goOn i
              (.failing report false done))
        else none
      else some (s.goOn i (.filing report rest
        (done ++ [(newRow keys report id file nameIv (some ciphertext) none, file)])))
    | _ => none
  | .fail i =>
    match s.workers i with
    | .filing report _ done => some (s.goOn i (.failing report false done))
    | _ => none
  | .commit i replied =>
    match s.workers i with
    | .filing report [] done =>
      if replied = true ∧ s.reports report.id = none then some ((s.file i report done).goOn i .idle)
      else some (s.goOn i (.failing report true done))
    | _ => none
  | .land i =>
    match s.workers i with
    | .failing report true done =>
      if s.reports report.id = none then some ((s.file i report done).goOn i .idle) else none
    | .pending report done =>
      if s.reports report.id = none then some ((s.file i report done).goOn i .idle) else none
    | _ => none
  | .look i answered =>
    match s.workers i with
    | .failing report issued done =>
      if answered = true ∧ (issued = false ∨ s.reports report.id ≠ none) then
        some ((s.giveUp i).goOn i (.removing (keysOf done)))
      else some (s.goOn i (.pending report done))
    | _ => none
  | .erase i reportIds =>
    match s.workers i with
    | .idle =>
      if ∀ id ∈ reportIds, s.reports id ≠ none ∧ s.locks id = none then
        some ((s.lock i reportIds).goOn i (.chosen reportIds (storedKeys
          (s.rows.filter fun row ↦ decide (row.reportId ∈ reportIds)))))
      else none
    | _ => none
  | .eraseCommit i reply =>
    match s.workers i with
    | .chosen reportIds chosen =>
      match reply with
      | .done => some (((s.erase reportIds).unlock i).goOn i (.removing chosen))
      | .failed => some ((s.unlock i).goOn i .idle)
      | .lost => some ((((s.erase reportIds).unlock i).leak chosen).goOn i .idle)
    | _ => none
  | .remove i reply =>
    match s.workers i with
    | .removing (key :: rest) =>
      match reply with
      | .failed => some ((s.leak [key]).goOn i (.removing rest))
      | _ => some ((s.remove key).goOn i (.removing rest))
    | .removing [] => some (s.goOn i .idle)
    | _ => none
  | .crash i => some (((s.unlock i).leak (s.workers i).held).goOn i .idle)

end Steps

/-! ### What holds at any time -/

variable {keys : ℕ → Sealing} {fernet : Sealing} {useS3 : Bool} {s t : State} {i j : ℕ}

/-- The row is that of a file under a key, and its bytes are where it says. -/
structure Reads (fernet : Sealing) (objects : String → Option String) (row : Row) (file : File) :
    Prop where
  data : ∃ data, storedData objects row = some data ∧ fernet.decrypt data = some file.data
  name : fernet.decrypt row.filename = some file.name
  contentType : row.contentType = file.contentType
  size : row.size = file.data.length
  encrypted : row.encrypted = true

/-- The row is that of a file of a report that is there. -/
def Stored (keys : ℕ → Sealing) (s : State) (row : Row) (entry : String × File) : Prop :=
  row.reportId = entry.1 ∧
    ∃ dek, s.reports row.reportId = some dek ∧ Reads (keys dek) s.objects row entry.2

/-- The rows that a submit has made. -/
def Made (keys : ℕ → Sealing) (s : State) (i : ℕ) (report : Report) (done : List (Row × File)) :
    Prop :=
  ∀ p ∈ done, p.1.reportId = report.id ∧ Reads (keys report.dek) s.objects p.1 p.2 ∧
    ∀ key ∈ p.1.storageKey, s.status key = .filing i

def PhaseSound (keys : ℕ → Sealing) (s : State) (i : ℕ) : Phase → Prop
  | .idle => True
  | .filing report _ done => Made keys s i report done
  | .failing report _ done => Made keys s i report done
  | .pending report done => Made keys s i report done
  | .chosen reportIds chosen => (∀ id ∈ reportIds, s.locks id = some i) ∧
    (∀ key ∈ chosen, s.status key = .doomed ∨ ∃ id ∈ reportIds, s.status key = .row id) ∧
    ∀ row ∈ s.rows, row.reportId ∈ reportIds → ∀ key ∈ row.storageKey, key ∈ chosen
  | .removing chosen => ∀ key ∈ chosen, s.status key = .doomed

/-- Somebody has a key, or should have removed it. -/
def Accounted (s : State) (key : String) : Prop :=
  (∃ row ∈ s.rows, row.storageKey = some key) ∨ (∃ i, key ∈ (s.workers i).held) ∨ key ∈ s.leaked

structure Sound (keys : ℕ → Sealing) (s : State) : Prop where
  stored : List.Forall₂ (Stored keys s) s.rows s.library
  owned : ∀ row ∈ s.rows, ∀ key ∈ row.storageKey, s.status key = .row row.reportId
  locked : ∀ id i, s.locks id = some i → s.reports id ≠ none
  phases : ∀ i, PhaseSound keys s i (s.workers i)
  accounted : ∀ key, s.objects key ≠ none → Accounted s key

/-- What a step of one worker is for the others. -/
structure Around (i : ℕ) (s t : State) : Prop where
  status : ∀ key, t.status key = s.status key ∨ s.status key = .free ∨ s.status key = .filing i ∨
    ∃ id, s.status key = .row id ∧ t.status key = .doomed
  objects : ∀ key, t.objects key = s.objects key ∨ s.status key = .free ∨
    s.status key = .filing i ∨ s.status key = .doomed
  rows : ∀ row ∈ t.rows, row ∈ s.rows ∨ s.reports row.reportId = none
  locks : ∀ j, j ≠ i → ∀ id, s.locks id = some j → t.locks id = some j
  workers : ∀ j, j ≠ i → t.workers j = s.workers j

theorem mem_storedKeys {rows : List Row} {key : String} :
    key ∈ storedKeys rows ↔ ∃ row ∈ rows, row.storageKey = some key :=
  List.mem_filterMap

theorem mem_keysOf {done : List (Row × File)} {key : String} :
    key ∈ keysOf done ↔ ∃ p ∈ done, p.1.storageKey = some key := by
  rw [keysOf, mem_storedKeys]
  constructor
  · rintro ⟨row, hrow, hkey⟩
    obtain ⟨p, hp, rfl⟩ := List.mem_map.mp hrow
    exact ⟨p, hp, hkey⟩
  · rintro ⟨p, hp, hkey⟩
    exact ⟨p.1, List.mem_map_of_mem hp, hkey⟩

theorem storedData_congr {objects objects' : String → Option String} {row : Row}
    (h : ∀ key ∈ row.storageKey, objects' key = objects key) :
    storedData objects' row = storedData objects row := by
  unfold storedData
  cases hkey : row.storageKey with
  | none => rfl
  | some key =>
    dsimp only
    rw [h key hkey]

theorem Reads.congr {objects objects' : String → Option String} {row : Row} {file : File}
    (hreads : Reads fernet objects row file)
    (h : ∀ key ∈ row.storageKey, objects' key = objects key) : Reads fernet objects' row file :=
  { hreads with data := by rw [storedData_congr h]; exact hreads.data }

/-! ### Others -/

namespace Around

/-- A key that is neither fresh nor the worker's keeps its status, or its row goes. -/
theorem status_of_ne (h : Around i s t) {key : String} (hfree : s.status key ≠ .free)
    (hother : s.status key ≠ .filing i) :
    t.status key = s.status key ∨ ∃ id, s.status key = .row id ∧ t.status key = .doomed := by
  rcases h.status key with hsame | hkey | hkey | hrow
  · exact .inl hsame
  · exact absurd hkey hfree
  · exact absurd hkey hother
  · exact .inr hrow

/-- An object of somebody else stays. -/
theorem objects_of_ne (h : Around i s t) {key : String} (hfree : s.status key ≠ .free)
    (hother : s.status key ≠ .filing i) (hdoomed : s.status key ≠ .doomed) :
    t.objects key = s.objects key := by
  rcases h.objects key with hsame | hkey | hkey | hkey
  · exact hsame
  · exact absurd hkey hfree
  · exact absurd hkey hother
  · exact absurd hkey hdoomed

theorem of_filing (h : Around i s t) (hj : j ≠ i) {key : String}
    (hkey : s.status key = .filing j) :
    t.status key = .filing j ∧ t.objects key = s.objects key := by
  have hfree : s.status key ≠ .free := by simp [hkey]
  have hother : s.status key ≠ .filing i := by simpa [hkey] using hj
  refine ⟨?_, h.objects_of_ne hfree hother (by simp [hkey])⟩
  rcases h.status_of_ne hfree hother with hsame | ⟨id, hrow, -⟩
  · rw [hsame, hkey]
  · simp [hkey] at hrow

theorem of_doomed (h : Around i s t) {key : String} (hkey : s.status key = .doomed) :
    t.status key = .doomed := by
  have hfree : s.status key ≠ .free := by simp [hkey]
  have hother : s.status key ≠ .filing i := by simp [hkey]
  rcases h.status_of_ne hfree hother with hsame | ⟨id, -, hdoomed⟩
  · rw [hsame, hkey]
  · exact hdoomed

theorem of_row (h : Around i s t) {key id : String} (hkey : s.status key = .row id) :
    t.status key = .doomed ∨ t.status key = .row id := by
  have hfree : s.status key ≠ .free := by simp [hkey]
  have hother : s.status key ≠ .filing i := by simp [hkey]
  rcases h.status_of_ne hfree hother with hsame | ⟨id, -, hdoomed⟩
  · rw [hsame, hkey]
    exact .inr rfl
  · exact .inl hdoomed

theorem objects_of_row (h : Around i s t) {key id : String} (hkey : s.status key = .row id) :
    t.objects key = s.objects key :=
  h.objects_of_ne (by simp [hkey]) (by simp [hkey]) (by simp [hkey])

theorem made (h : Around i s t) (hj : j ≠ i) {report : Report} {done : List (Row × File)}
    (hmade : Made keys s j report done) : Made keys t j report done := by
  intro p hp
  obtain ⟨hreport, hreads, hkeys⟩ := hmade p hp
  exact ⟨hreport, hreads.congr fun key hkey ↦ (h.of_filing hj (hkeys key hkey)).2,
    fun key hkey ↦ (h.of_filing hj (hkeys key hkey)).1⟩

theorem phase (h : Around i s t) (hj : j ≠ i)
    (hlocked : ∀ id k, s.locks id = some k → s.reports id ≠ none) {phase : Phase}
    (hphase : PhaseSound keys s j phase) : PhaseSound keys t j phase := by
  cases phase with
  | idle => trivial
  | filing report rest done => exact h.made hj hphase
  | failing report issued done => exact h.made hj hphase
  | pending report done => exact h.made hj hphase
  | removing chosen => exact fun key hkey ↦ h.of_doomed (hphase key hkey)
  | chosen reportIds chosen =>
    obtain ⟨hlocks, hchosen, hall⟩ := hphase
    refine ⟨fun id hid ↦ h.locks j hj id (hlocks id hid), fun key hkey ↦ ?_, fun row hrow hid ↦ ?_⟩
    · rcases hchosen key hkey with hdoomed | ⟨id, hid, hrow⟩
      · exact .inl (h.of_doomed hdoomed)
      · exact (h.of_row hrow).imp_right fun hsame ↦ ⟨id, hid, hsame⟩
    · rcases h.rows row hrow with hold | hnew
      · exact hall row hold hid
      -- a report that is being erased is there, so it is not filed again
      · exact absurd hnew (hlocked _ j (hlocks _ hid))

end Around

/-- The rows that were there are read as before. -/
theorem Sound.reads_after (h : Sound keys s) (ha : Around i s t) :
    List.Forall₂ (fun row entry ↦ row.reportId = entry.1 ∧
      ∃ dek, s.reports row.reportId = some dek ∧ Reads (keys dek) t.objects row entry.2)
      s.rows s.library := by
  have hsame : ∀ row ∈ s.rows, ∀ key ∈ row.storageKey, t.objects key = s.objects key :=
    fun row hrow key hkey ↦ ha.objects_of_row (h.owned row hrow key hkey)
  refine ((List.forall₂_and_left _ _).mpr ⟨hsame, h.stored⟩).imp ?_
  rintro row entry ⟨hobjects, hreport, dek, hdek, hreads⟩
  exact ⟨hreport, dek, hdek, hreads.congr hobjects⟩

theorem Sound.phases_after (h : Sound keys s) (ha : Around i s t)
    (hphase : PhaseSound keys t i (t.workers i)) (j : ℕ) : PhaseSound keys t j (t.workers j) := by
  by_cases hj : j = i
  · subst hj
    exact hphase
  · rw [ha.workers j hj]
    exact ha.phase hj h.locked (h.phases j)

/-- A key stays accounted for, if it does where it was in a row or in the hand of the worker. -/
theorem Accounted.next {key : String} (h : Accounted s key) (ha : Around i s t)
    (hrow : (∃ row ∈ s.rows, row.storageKey = some key) → Accounted t key)
    (hheld : key ∈ (s.workers i).held → Accounted t key)
    (hleaked : key ∈ s.leaked → key ∈ t.leaked) : Accounted t key := by
  rcases h with hin | ⟨j, hj⟩ | hlost
  · exact hrow hin
  · by_cases heq : j = i
    · subst heq
      exact hheld hj
    · exact .inr (.inl ⟨j, by rw [ha.workers j heq]; exact hj⟩)
  · exact .inr (.inr (hleaked hlost))

theorem workers_goOn (s : State) (i : ℕ) (phase : Phase) : (s.goOn i phase).workers i = phase :=
  Function.update_self ..

theorem workers_goOn_of_ne (s : State) {i j : ℕ} (hj : j ≠ i) (phase : Phase) :
    (s.goOn i phase).workers j = s.workers j :=
  Function.update_of_ne hj ..

/-- A worker goes on with the keys that it has in its hand. -/
theorem held_of_workers {phase next : Phase} (hworker : s.workers i = phase)
    (hheld : phase.held = next.held) : ∀ key ∈ (s.workers i).held, key ∈ next.held := by
  rw [hworker, hheld]
  exact fun _ hkey ↦ hkey

/-- In the hand of an idle worker, or of one that has just read the keys, there is none. -/
theorem held_of_none {phase : Phase} {property : String → Prop} (hworker : s.workers i = phase)
    (hnone : phase.held = []) : ∀ key ∈ (s.workers i).held, property key := by
  rw [hworker, hnone]
  exact fun _ hkey ↦ absurd hkey List.not_mem_nil

theorem held_goOn {phase : Phase} {key : String} (hkey : key ∈ phase.held) (s : State) (i : ℕ) :
    Accounted (s.goOn i phase) key :=
  .inr (.inl ⟨i, by rw [workers_goOn]; exact hkey⟩)

/-! ### One step -/

/-- A worker goes on, and leaves some keys. -/
theorem sound_leak (h : Sound keys s) {phase : Phase} {lost : List String}
    (hphase : PhaseSound keys s i phase)
    (hheld : ∀ key ∈ (s.workers i).held, key ∈ phase.held ∨ key ∈ lost) :
    Sound keys ((s.leak lost).goOn i phase) := by
  have ha : Around i s ((s.leak lost).goOn i phase) :=
    ⟨fun _ ↦ .inl rfl, fun _ ↦ .inl rfl, fun _ hrow ↦ .inl hrow, fun _ _ _ hid ↦ hid,
      fun j hj ↦ workers_goOn_of_ne _ hj phase⟩
  refine ⟨h.stored, h.owned, h.locked, h.phases_after ha ?_, fun key hkey ↦ ?_⟩
  · rw [workers_goOn]
    exact hphase
  · refine (h.accounted key hkey).next ha (fun hrow ↦ .inl hrow) (fun hold ↦ ?_) fun hlost ↦
      List.mem_append_right _ hlost
    rcases hheld key hold with hnew | hlost
    · exact held_goOn hnew _ i
    · exact .inr (.inr (List.mem_append_left _ hlost))

theorem sound_goOn (h : Sound keys s) {phase : Phase} (hphase : PhaseSound keys s i phase)
    (hheld : ∀ key ∈ (s.workers i).held, key ∈ phase.held) : Sound keys (s.goOn i phase) := by
  have hnone : Sound keys ((s.leak []).goOn i phase) :=
    sound_leak h hphase fun key hkey ↦ .inl (hheld key hkey)
  exact hnone

/-- An object is put under a fresh key. -/
theorem sound_put (h : Sound keys s) {key data : String} {status : Status} {phase : Phase}
    {lost : List String} (hfree : s.status key = .free)
    (hphase : PhaseSound keys (s.put key data status) i phase)
    (hheld : ∀ k ∈ (s.workers i).held, k ∈ phase.held)
    (hnew : key ∈ phase.held ∨ key ∈ lost) :
    Sound keys (((s.put key data status).leak lost).goOn i phase) := by
  have ha : Around i s (((s.put key data status).leak lost).goOn i phase) := by
    refine ⟨fun k ↦ ?_, fun k ↦ ?_, fun _ hrow ↦ .inl hrow, fun _ _ _ hid ↦ hid,
      fun j hj ↦ workers_goOn_of_ne _ hj phase⟩
    · by_cases hk : k = key
      · exact .inr (.inl (hk ▸ hfree))
      · exact .inl (Function.update_of_ne hk ..)
    · by_cases hk : k = key
      · exact .inr (.inl (hk ▸ hfree))
      · exact .inl (Function.update_of_ne hk ..)
  refine ⟨h.reads_after ha, fun row hrow k hk ↦ ?_, h.locked, h.phases_after ha ?_,
    fun k hk ↦ ?_⟩
  · have howned := h.owned row hrow k hk
    have hne : k ≠ key := by
      rintro rfl
      rw [hfree] at howned
      cases howned
    exact (Function.update_of_ne hne ..).trans howned
  · rw [workers_goOn]
    exact hphase
  · by_cases heq : k = key
    · subst heq
      rcases hnew with hmem | hlost
      · exact held_goOn hmem _ i
      · exact .inr (.inr (List.mem_append_left _ hlost))
    · have hold : s.objects k ≠ none := by
        rw [← Function.update_of_ne heq (some data) s.objects]
        exact hk
      exact (h.accounted k hold).next ha (fun hrow ↦ .inl hrow)
        (fun hmem ↦ held_goOn (hheld k hmem) _ i) fun hlost ↦ List.mem_append_right _ hlost

/-- A report that is there keeps its key when another one is filed. -/
theorem reports_file {report : Report} (hnew : s.reports report.id = none) {id : String}
    (hthere : s.reports id ≠ none) (i : ℕ) (done : List (Row × File)) :
    (s.file i report done).reports id = s.reports id := by
  have hne : id ≠ report.id := by
    rintro rfl
    exact hthere hnew
  exact Function.update_of_ne hne ..

/-- A submit is committed. -/
theorem sound_file (h : Sound keys s) {report : Report} {done : List (Row × File)}
    (hmade : Made keys s i report done) (hnew : s.reports report.id = none)
    (hheld : (s.workers i).held = keysOf done) :
    Sound keys ((s.file i report done).goOn i .idle) := by
  have ha : Around i s ((s.file i report done).goOn i .idle) := by
    refine ⟨fun key ↦ ?_, fun _ ↦ .inl rfl, fun row hrow ↦ ?_, fun _ _ _ hid ↦ hid,
      fun j hj ↦ workers_goOn_of_ne _ hj .idle⟩
    · by_cases hkey : s.status key = .filing i
      · exact .inr (.inr (.inl hkey))
      · exact .inl (if_neg hkey)
    · rcases List.mem_append.mp hrow with hold | hmem
      · exact .inl hold
      · obtain ⟨p, hp, rfl⟩ := List.mem_map.mp hmem
        rw [(hmade p hp).1]
        exact .inr hnew
  have hkept : List.Forall₂ (Stored keys ((s.file i report done).goOn i .idle))
      s.rows s.library := by
    refine (h.reads_after ha).imp ?_
    rintro row entry ⟨hreport, dek, hdek, hreads⟩
    refine ⟨hreport, dek, (reports_file hnew ?_ i done).trans hdek, hreads⟩
    rw [hdek]
    exact Option.some_ne_none dek
  have hdone : List.Forall₂ (Stored keys ((s.file i report done).goOn i .idle))
      (done.map Prod.fst) (done.map fun p ↦ (report.id, p.2)) := by
    rw [List.forall₂_map_left_iff, List.forall₂_map_right_iff, List.forall₂_same]
    refine fun p hp ↦ ⟨(hmade p hp).1, report.dek, ?_, (hmade p hp).2.1⟩
    rw [(hmade p hp).1]
    exact Function.update_self ..
  refine ⟨List.rel_append hkept hdone, fun row hrow key hkey ↦ ?_, fun id j hlock ↦ ?_,
    h.phases_after ha ?_, fun key hkey ↦ ?_⟩
  · rcases List.mem_append.mp hrow with hold | hmem
    · have howned := h.owned row hold key hkey
      have hne : s.status key ≠ .filing i := by
        rw [howned]
        exact fun heq ↦ by cases heq
      exact (if_neg hne).trans howned
    · obtain ⟨p, hp, rfl⟩ := List.mem_map.mp hmem
      rw [(hmade p hp).1]
      exact if_pos ((hmade p hp).2.2 key hkey)
  · have hthere := h.locked id j hlock
    exact fun hgone ↦ hthere ((reports_file hnew hthere i done).symm.trans hgone)
  · rw [workers_goOn]
    trivial
  · refine (h.accounted key hkey).next ha ?_ (fun hmem ↦ ?_) fun hlost ↦ hlost
    · rintro ⟨row, hrow, hkey⟩
      exact .inl ⟨row, List.mem_append_left _ hrow, hkey⟩
    · rw [hheld] at hmem
      obtain ⟨p, hp, hkey⟩ := mem_keysOf.mp hmem
      exact .inl ⟨p.1, List.mem_append_right _ (List.mem_map_of_mem hp), hkey⟩

theorem locks_unlock {id : String} :
    (s.unlock i).locks id = some j ↔ s.locks id = some j ∧ j ≠ i := by
  dsimp only [State.unlock]
  by_cases hours : s.locks id = some i
  · rw [if_pos hours, hours]
    constructor
    · rintro ⟨⟩
    · rintro ⟨⟨⟩, hj⟩
      exact absurd rfl hj
  · rw [if_neg hours]
    refine ⟨fun hlock ↦ ⟨hlock, ?_⟩, And.left⟩
    rintro rfl
    exact hours hlock

/-- The transaction of a worker ends, and it goes on without the reports it had in its hand. -/
theorem sound_unlock (h : Sound keys (s.goOn i .idle)) : Sound keys ((s.unlock i).goOn i .idle) := by
  have ha : Around i (s.goOn i .idle) ((s.unlock i).goOn i .idle) :=
    ⟨fun _ ↦ .inl rfl, fun _ ↦ .inl rfl, fun _ hrow ↦ .inl hrow,
      fun j hj _ hid ↦ locks_unlock.mpr ⟨hid, hj⟩, fun _ _ ↦ rfl⟩
  refine ⟨h.stored, h.owned, fun id j hlock ↦ h.locked id j (locks_unlock.mp hlock).1,
    h.phases_after ha ?_, h.accounted⟩
  rw [workers_goOn]
  trivial

/-- A submit takes its objects back. -/
theorem sound_giveUp (h : Sound keys s) {done : List (Row × File)} {report : Report}
    (hmade : Made keys s i report done) (hheld : (s.workers i).held = keysOf done) :
    Sound keys ((s.giveUp i).goOn i (.removing (keysOf done))) := by
  have ha : Around i s ((s.giveUp i).goOn i (.removing (keysOf done))) := by
    refine ⟨fun key ↦ ?_, fun _ ↦ .inl rfl, fun _ hrow ↦ .inl hrow, fun _ _ _ hid ↦ hid,
      fun j hj ↦ workers_goOn_of_ne _ hj _⟩
    by_cases hkey : s.status key = .filing i
    · exact .inr (.inr (.inl hkey))
    · exact .inl (if_neg hkey)
  refine ⟨h.stored, fun row hrow key hkey ↦ ?_, h.locked, h.phases_after ha ?_,
    fun key hkey ↦ ?_⟩
  · have howned := h.owned row hrow key hkey
    have hne : s.status key ≠ .filing i := by
      rw [howned]
      exact fun heq ↦ by cases heq
    exact (if_neg hne).trans howned
  · rw [workers_goOn]
    intro key hkey
    obtain ⟨p, hp, hstored⟩ := mem_keysOf.mp hkey
    exact if_pos ((hmade p hp).2.2 key hstored)
  · refine (h.accounted key hkey).next ha (fun hrow ↦ .inl hrow) (fun hmem ↦ ?_) fun hlost ↦ hlost
    rw [hheld] at hmem
    exact held_goOn hmem _ i

theorem status_erase (s : State) (reportIds : List String) (key : String) :
    (s.erase reportIds).status key = s.status key ∧
        (∀ id ∈ reportIds, s.status key ≠ .row id) ∨
      (∃ id ∈ reportIds, s.status key = .row id) ∧ (s.erase reportIds).status key = .doomed := by
  dsimp only [State.erase]
  cases hstatus : s.status key with
  | row id =>
    dsimp only
    by_cases hid : id ∈ reportIds
    · exact .inr ⟨⟨id, hid, rfl⟩, if_pos hid⟩
    · refine .inl ⟨if_neg hid, fun other hother heq ↦ ?_⟩
      cases heq
      exact hid hother
  | free => exact .inl ⟨rfl, fun _ _ heq ↦ by cases heq⟩
  | filing j => exact .inl ⟨rfl, fun _ _ heq ↦ by cases heq⟩
  | doomed => exact .inl ⟨rfl, fun _ _ heq ↦ by cases heq⟩

/-- A report that is not erased keeps its key. -/
theorem reports_erase {reportIds : List String} {id : String} (hstays : id ∉ reportIds) :
    (s.erase reportIds).reports id = s.reports id :=
  if_neg hstays

/-- The rows of a library and its entries are erased together. -/
theorem forall₂_erase (reportIds : List String) {rows : List Row} {library : List (String × File)}
    (h : List.Forall₂ (Stored keys s) rows library) :
    List.Forall₂ (Stored keys (s.erase reportIds))
      (rows.filter fun row ↦ decide (row.reportId ∉ reportIds))
      (library.filter fun entry ↦ decide (entry.1 ∉ reportIds)) := by
  induction h with
  | nil => exact .nil
  | @cons row entry rows library hfirst _ ih =>
    obtain ⟨hreport, dek, hdek, hreads⟩ := hfirst
    by_cases hid : entry.1 ∈ reportIds
    · rw [List.filter_cons_of_neg (by simpa [hreport] using hid),
        List.filter_cons_of_neg (by simpa using hid)]
      exact ih
    · rw [List.filter_cons_of_pos (by simpa [hreport] using hid),
        List.filter_cons_of_pos (by simpa using hid)]
      refine .cons ⟨hreport, dek, (reports_erase ?_).trans hdek, hreads⟩ ih
      rw [hreport]
      exact hid

/-- Reports are erased. -/
theorem sound_erase (h : Sound keys s) {reportIds chosen : List String}
    (hphase : s.workers i = .chosen reportIds chosen) :
    Sound keys (((s.erase reportIds).unlock i).goOn i (.removing chosen)) := by
  have hstarted := h.phases i
  rw [hphase] at hstarted
  obtain ⟨hlocks, hchosen, hall⟩ := hstarted
  have ha : Around i s (((s.erase reportIds).unlock i).goOn i (.removing chosen)) := by
    refine ⟨fun key ↦ ?_, fun _ ↦ .inl rfl, fun row hrow ↦ .inl (List.mem_of_mem_filter hrow),
      fun j hj _ hid ↦ locks_unlock.mpr ⟨hid, hj⟩, fun j hj ↦ workers_goOn_of_ne _ hj _⟩
    rcases status_erase s reportIds key with ⟨hsame, -⟩ | ⟨⟨id, -, hrow⟩, hdoomed⟩
    · exact .inl hsame
    · exact .inr (.inr (.inr ⟨id, hrow, hdoomed⟩))
  refine ⟨forall₂_erase reportIds h.stored, fun row hrow key hkey ↦ ?_, fun id j hlock ↦ ?_,
    h.phases_after ha ?_, fun key hkey ↦ ?_⟩
  · obtain ⟨hmem, hstays⟩ := List.mem_filter.mp hrow
    have howned := h.owned row hmem key hkey
    rcases status_erase s reportIds key with ⟨hsame, -⟩ | ⟨⟨id, hid, hrow⟩, -⟩
    · exact hsame.trans howned
    · rw [howned] at hrow
      cases hrow
      exact absurd hid (of_decide_eq_true hstays)
  · -- the reports that are erased were locked by this worker
    obtain ⟨hlock, hj⟩ := locks_unlock.mp hlock
    have hstays : id ∉ reportIds := fun hid ↦
      hj (Option.some.inj (hlock.symm.trans (hlocks id hid)))
    exact fun hgone ↦ h.locked id j hlock ((reports_erase hstays).symm.trans hgone)
  · rw [workers_goOn]
    intro key hkey
    rcases status_erase s reportIds key with ⟨hsame, hother⟩ | ⟨-, hdoomed⟩
    · rcases hchosen key hkey with hdoomed | ⟨id, hid, hrow⟩
      · exact hsame.trans hdoomed
      · exact absurd hrow (hother id hid)
    · exact hdoomed
  · refine (h.accounted key hkey).next ha ?_ (fun hmem ↦ ?_) fun hlost ↦ hlost
    · rintro ⟨row, hrow, hstored⟩
      by_cases hid : row.reportId ∈ reportIds
      · exact held_goOn (hall row hrow hid key hstored) _ i
      · exact .inl ⟨row, List.mem_filter.mpr ⟨hrow, decide_eq_true hid⟩, hstored⟩
    · rw [hphase] at hmem
      cases hmem

/-- An object is removed. -/
theorem sound_remove (h : Sound keys s) {key : String} {rest : List String}
    (hphase : s.workers i = .removing (key :: rest)) :
    Sound keys ((s.remove key).goOn i (.removing rest)) := by
  have hstarted := h.phases i
  rw [hphase] at hstarted
  have hdoomed := hstarted key List.mem_cons_self
  have ha : Around i s ((s.remove key).goOn i (.removing rest)) := by
    refine ⟨fun _ ↦ .inl rfl, fun k ↦ ?_, fun _ hrow ↦ .inl hrow, fun _ _ _ hid ↦ hid,
      fun j hj ↦ workers_goOn_of_ne _ hj _⟩
    by_cases hk : k = key
    · exact .inr (.inr (.inr (hk ▸ hdoomed)))
    · exact .inl (Function.update_of_ne hk ..)
  refine ⟨h.reads_after ha, h.owned, h.locked, h.phases_after ha ?_, fun k hk ↦ ?_⟩
  · rw [workers_goOn]
    exact fun k hk ↦ hstarted k (List.mem_cons_of_mem _ hk)
  · have hne : k ≠ key := by
      rintro rfl
      exact hk (Function.update_self ..)
    have hold : s.objects k ≠ none := by
      rw [← Function.update_of_ne hne none s.objects]
      exact hk
    refine (h.accounted k hold).next ha (fun hrow ↦ .inl hrow) (fun hmem ↦ ?_) fun hlost ↦ hlost
    rw [hphase] at hmem
    rcases List.mem_cons.mp hmem with heq | hmem
    · exact absurd heq hne
    · exact held_goOn hmem _ i

/-- What a submit makes of a file is a row that reads as it. -/
theorem reads_newRow {objects : String → Option String} {report : Report} {id : String}
    {file : File} {nameIv dataIv : ℕ} {data storageKey : Option String}
    (hstored : storedData objects (newRow keys report id file nameIv data storageKey) =
      some ((keys report.dek).encipher file.data dataIv)) :
    Reads (keys report.dek) objects (newRow keys report id file nameIv data storageKey) file where
  data := ⟨_, hstored, (keys report.dek).decrypt_encipher _ _⟩
  name := (keys report.dek).decrypt_encipher _ _
  contentType := rfl
  size := rfl
  encrypted := rfl

theorem mem_keysOf_append {done : List (Row × File)} {p : Row × File} {key : String}
    (hkey : key ∈ keysOf done) : key ∈ keysOf (done ++ [p]) := by
  obtain ⟨q, hq, hstored⟩ := mem_keysOf.mp hkey
  exact mem_keysOf.mpr ⟨q, List.mem_append_left _ hq, hstored⟩

/-- A submit has put one more file. -/
theorem Made.append {report : Report} {done : List (Row × File)} {p : Row × File}
    (h : Made keys s i report done) (hreport : p.1.reportId = report.id)
    (hreads : Reads (keys report.dek) s.objects p.1 p.2)
    (hkeys : ∀ key ∈ p.1.storageKey, s.status key = .filing i) :
    Made keys s i report (done ++ [p]) := by
  intro q hq
  rcases List.mem_append.mp hq with hq | hq
  · exact h q hq
  · rw [List.mem_singleton.mp hq]
    exact ⟨hreport, hreads, hkeys⟩

/-- A fresh key is none of those that a submit has. -/
theorem Made.put {report : Report} {key data : String} {done : List (Row × File)}
    (h : Made keys s i report done) (hfree : s.status key = .free) (status : Status) :
    Made keys (s.put key data status) i report done := by
  intro p hp
  obtain ⟨hreport, hreads, hkeys⟩ := h p hp
  have hne : ∀ k ∈ p.1.storageKey, k ≠ key := by
    rintro k hk rfl
    rw [hkeys k hk] at hfree
    cases hfree
  exact ⟨hreport, hreads.congr fun k hk ↦ Function.update_of_ne (hne k hk) ..,
    fun k hk ↦ (Function.update_of_ne (hne k hk) ..).trans (hkeys k hk)⟩

/-- What a worker has made, while its rows are not committed. -/
theorem Sound.made (h : Sound keys s) {report : Report} {done : List (Row × File)} :
    (∀ rest, s.workers i = .filing report rest done → Made keys s i report done) ∧
    (∀ issued, s.workers i = .failing report issued done → Made keys s i report done) ∧
    (s.workers i = .pending report done → Made keys s i report done) := by
  have hphase := h.phases i
  refine ⟨fun rest hworker ↦ ?_, fun issued hworker ↦ ?_, fun hworker ↦ ?_⟩ <;>
    rw [hworker] at hphase <;> exact hphase

theorem sound_step_put {id key : String} {nameIv dataIv : ℕ} {reply : Rekey.Reply}
    (h : Sound keys s) (hstep : step keys useS3 s (.put i id key nameIv dataIv reply) = some t) :
    Sound keys t := by
  dsimp only [step] at hstep
  split at hstep
  next report file rest done hworker =>
    have hmade := h.made.1 _ hworker
    have hheld : ∀ k ∈ (s.workers i).held, k ∈ keysOf done := by
      rw [hworker]
      exact fun k hk ↦ hk
    split_ifs at hstep with hs3 hfresh
    · cases reply with
      | done =>
        cases hstep
        have hstored : storedData
            (s.put key ((keys report.dek).encipher file.data dataIv) (.filing i)).objects
            (newRow keys report id file nameIv none (some key)) =
              some ((keys report.dek).encipher file.data dataIv) := by
          dsimp only [storedData, newRow]
          rw [if_neg hfresh.2]
          exact Function.update_self ..
        have hput : Sound keys (((s.put key ((keys report.dek).encipher file.data dataIv)
            (.filing i)).leak []).goOn i (.filing report rest
              (done ++ [(newRow keys report id file nameIv none (some key), file)]))) := by
          refine sound_put h hfresh.1 ?_ (fun k hk ↦ mem_keysOf_append (hheld k hk)) (.inl ?_)
          · refine (hmade.put hfresh.1 _).append rfl (reads_newRow hstored) ?_
            rintro k ⟨⟩
            exact Function.update_self ..
          · exact mem_keysOf.mpr ⟨_, List.mem_append_right _ (List.mem_singleton_self _), rfl⟩
        exact hput
      | failed =>
        cases hstep
        exact sound_goOn h hmade hheld
      | lost =>
        cases hstep
        exact sound_put h hfresh.1 (hmade.put hfresh.1 _) hheld (.inr (List.mem_singleton_self _))
    · cases hstep
      refine sound_goOn h (hmade.append rfl (reads_newRow rfl) ?_) fun k hk ↦
        mem_keysOf_append (hheld k hk)
      rintro k ⟨⟩
  next => cases hstep

/-- An idle worker takes reports into its hand, and reads the keys of their rows. -/
theorem sound_lock (h : Sound keys s) {reportIds : List String} (hworker : s.workers i = .idle)
    (hthere : ∀ id ∈ reportIds, s.reports id ≠ none ∧ s.locks id = none) :
    Sound keys ((s.lock i reportIds).goOn i (.chosen reportIds (storedKeys
      (s.rows.filter fun row ↦ decide (row.reportId ∈ reportIds))))) := by
  have ha : Around i s ((s.lock i reportIds).goOn i (.chosen reportIds (storedKeys
      (s.rows.filter fun row ↦ decide (row.reportId ∈ reportIds))))) := by
    refine ⟨fun _ ↦ .inl rfl, fun _ ↦ .inl rfl, fun _ hrow ↦ .inl hrow, fun j _ id hlock ↦ ?_,
      fun j hj ↦ workers_goOn_of_ne _ hj _⟩
    -- what another worker has locked is not taken
    have hother : id ∉ reportIds := by
      intro hid
      rw [(hthere id hid).2] at hlock
      cases hlock
    exact (if_neg hother).trans hlock
  refine ⟨h.stored, h.owned, fun id j hlock ↦ ?_, h.phases_after ha ?_, fun key hkey ↦
    (h.accounted key hkey).next ha .inl (held_of_none hworker rfl key) id⟩
  · by_cases hid : id ∈ reportIds
    · exact (hthere id hid).1
    · exact h.locked id j ((if_neg hid).symm.trans hlock)
  · rw [workers_goOn]
    refine ⟨fun id hid ↦ if_pos hid, fun key hkey ↦ ?_, fun row hrow hid key hkey ↦
      mem_storedKeys.mpr ⟨row, List.mem_filter.mpr ⟨hrow, decide_eq_true hid⟩, hkey⟩⟩
    obtain ⟨row, hrow, hstored⟩ := mem_storedKeys.mp hkey
    obtain ⟨hmem, hid⟩ := List.mem_filter.mp hrow
    exact .inr ⟨row.reportId, of_decide_eq_true hid, h.owned row hmem key hstored⟩

theorem sound_step {event : Event} (h : Sound keys s) (hstep : step keys useS3 s event = some t) :
    Sound keys t := by
  cases event with
  | put i id key nameIv dataIv reply => exact sound_step_put h hstep
  | submit i report files =>
    dsimp only [step] at hstep
    split at hstep
    next hworker =>
      cases hstep
      exact sound_goOn h (fun p hp ↦ absurd hp List.not_mem_nil) (held_of_none hworker rfl)
    next => cases hstep
  | fail i =>
    dsimp only [step] at hstep
    split at hstep
    next report rest done hworker =>
      cases hstep
      exact sound_goOn h (h.made.1 _ hworker) (held_of_workers hworker rfl)
    next => cases hstep
  | commit i replied =>
    dsimp only [step] at hstep
    split at hstep
    next report done hworker =>
      split_ifs at hstep with hcommit
      · cases hstep
        exact sound_file h (h.made.1 _ hworker) hcommit.2 (by rw [hworker]; rfl)
      · cases hstep
        exact sound_goOn h (h.made.1 _ hworker) (held_of_workers hworker rfl)
    next => cases hstep
  | land i =>
    dsimp only [step] at hstep
    split at hstep
    next report done hworker =>
      split_ifs at hstep with hnew
      cases hstep
      exact sound_file h (h.made.2.1 _ hworker) hnew (by rw [hworker]; rfl)
    next report done hworker =>
      split_ifs at hstep with hnew
      cases hstep
      exact sound_file h (h.made.2.2 hworker) hnew (by rw [hworker]; rfl)
    next => cases hstep
  | look i answered =>
    dsimp only [step] at hstep
    split at hstep
    next report issued done hworker =>
      split_ifs at hstep with hback
      · cases hstep
        exact sound_giveUp h (h.made.2.1 _ hworker) (by rw [hworker]; rfl)
      · cases hstep
        exact sound_goOn h (h.made.2.1 _ hworker) (held_of_workers hworker rfl)
    next => cases hstep
  | erase i reportIds =>
    dsimp only [step] at hstep
    split at hstep
    next hworker =>
      split_ifs at hstep with hthere
      cases hstep
      exact sound_lock h hworker hthere
    next => cases hstep
  | eraseCommit i reply =>
    dsimp only [step] at hstep
    split at hstep
    next reportIds chosen hworker =>
      cases reply with
      | done =>
        cases hstep
        exact sound_erase h hworker
      | failed =>
        cases hstep
        exact sound_unlock (sound_goOn h trivial (held_of_none hworker rfl))
      | lost =>
        cases hstep
        have hleft : Sound keys (((((s.erase reportIds).unlock i).goOn i
            (.removing chosen)).leak chosen).goOn i .idle) := by
          refine sound_leak (sound_erase h hworker) trivial fun key hkey ↦ .inr ?_
          rw [workers_goOn] at hkey
          exact hkey
        simpa [State.goOn, State.leak] using hleft
    next => cases hstep
  | remove i reply =>
    dsimp only [step] at hstep
    split at hstep
    next key rest hworker =>
      have hphase := h.phases i
      rw [hworker] at hphase
      cases reply with
      | failed =>
        cases hstep
        refine sound_leak h (fun k hk ↦ hphase k (List.mem_cons_of_mem _ hk)) fun k hk ↦ ?_
        rw [hworker] at hk
        rcases List.mem_cons.mp hk with rfl | hk
        · exact .inr (List.mem_singleton_self _)
        · exact .inl hk
      | done =>
        cases hstep
        exact sound_remove h hworker
      | lost =>
        cases hstep
        exact sound_remove h hworker
    next hworker =>
      cases hstep
      exact sound_goOn h trivial (held_of_none hworker rfl)
    next => cases hstep
  | crash i =>
    cases hstep
    have hleft : Sound keys ((s.leak (s.workers i).held).goOn i .idle) :=
      sound_leak h trivial fun key hkey ↦ .inr hkey
    exact sound_unlock hleft

theorem sound_empty : Sound keys .empty where
  stored := .nil
  owned := fun _ hrow ↦ absurd hrow List.not_mem_nil
  locked := fun _ _ hlock ↦ by cases hlock
  phases := fun _ ↦ trivial
  accounted := fun _ hkey ↦ absurd rfl hkey

/-! ### Runs -/

/-- A row is downloaded as a file. -/
structure Downloads (keys : ℕ → Sealing) (s : State) (row : Row) (entry : String × File) :
    Prop where
  report : row.reportId = entry.1
  there : s.reports row.reportId ≠ none
  data : readAttachment keys s row = some entry.2.data
  name : attachmentFilename keys s row = entry.2.name
  contentType : row.contentType = entry.2.contentType
  size : row.size = entry.2.data.length

theorem downloads_of_stored {row : Row} {entry : String × File} (h : Stored keys s row entry) :
    Downloads keys s row entry := by
  obtain ⟨hreport, dek, hdek, hreads⟩ := h
  obtain ⟨data, hstored, hopens⟩ := hreads.data
  refine ⟨hreport, ?_, ?_, ?_, hreads.contentType, hreads.size⟩
  · rw [hdek]
    exact Option.some_ne_none dek
  · rw [readAttachment, hstored, Option.bind_some, if_pos hreads.encrypted, hdek,
      Option.bind_some, hopens]
  · rw [attachmentFilename, hdek]
    dsimp only
    rw [decryptFieldSafe, hreads.name]
    exact if_neg entry.2.named

/-- After any run the rows are the files of the reports that were committed and not erased, each
downloaded as it was sent; and every object belongs to a row, to a submit or an erasure that is
under way, or to one that has failed. -/
theorem files_are_kept_until_erased {events : List Event}
    (hrun : Machine.run (step keys useS3) .empty events = some s) :
    List.Forall₂ (Downloads keys s) s.rows s.library ∧
      ∀ key, s.objects key ≠ none → Accounted s key := by
  have h : Sound keys s :=
    Machine.run_invariant_of_step (fun _ _ _ hs hstep ↦ sound_step hs hstep) sound_empty hrun
  exact ⟨h.stored.imp fun _ _ hstored ↦ downloads_of_stored hstored, h.accounted⟩

/-! ### A lost reply, an erasure, and the draft again -/

/-- Tokens that show the data behind a mark. -/
def clear : Sealing where
  encipher data _ := String.ofList ('~' :: data.toList)
  decrypt token := some (String.ofList token.toList.tail)
  decrypt_encipher data _ := by
    rw [String.toList_ofList, List.tail_cons, String.ofList_toList]

def evidence : File := ⟨"evidence.txt", "text/plain", "seen on Monday", by decide⟩

/-- The COMMIT of a submit lands and its reply is lost. The report is erased, and the draft, given
back, is sent again under its id. Another submit fails. -/
def refiled : List Event :=
  [.submit 0 ⟨"r1", 0⟩ [evidence], .submit 1 ⟨"r2", 1⟩ [evidence], .put 0 "f1" "k1" 0 0 .done,
    .put 1 "f2" "k2" 0 0 .done, .commit 0 false, .land 0, .fail 1, .look 1 true, .remove 1 .done,
    .erase 2 ["r1"], .eraseCommit 2 .done, .remove 2 .done, .submit 0 ⟨"r1", 2⟩ [evidence],
    .put 0 "f3" "k3" 0 0 .done, .commit 0 true]

theorem files_are_kept_until_erased_of_refiled : ∃ s,
    Machine.run (step (fun _ ↦ clear) true) .empty refiled = some s ∧
    s.library.map Prod.fst = ["r1"] ∧ s.objects "k1" = none ∧ s.objects "k2" = none ∧
    List.Forall₂ (Downloads (fun _ ↦ clear) s) s.rows s.library := by
  have hends : (Machine.run (step (fun _ ↦ clear) true) .empty refiled).map
      (fun s ↦ (s.library.map Prod.fst, s.objects "k1", s.objects "k2")) =
        some (["r1"], none, none) := by
    decide +kernel
  obtain ⟨s, hrun, hshown⟩ := Option.map_eq_some_iff.mp hends
  obtain ⟨hlibrary, hobjects⟩ := Prod.mk.inj hshown
  obtain ⟨hfirst, hsecond⟩ := Prod.mk.inj hobjects
  exact ⟨s, hrun, hlibrary, hfirst, hsecond, (files_are_kept_until_erased hrun).1⟩

end OpenWhistle.Attachments.Custody
