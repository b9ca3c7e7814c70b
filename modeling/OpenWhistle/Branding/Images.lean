import Mathlib.Data.List.Defs
import Mathlib.Logic.Function.Basic
import OpenWhistle.Foundation.Machine

/-!
# The images of the branding

An image is stored once, under its hash, and every row that shows it refers to it. A save reads the
row of its organisation, stores the images it brings and writes the columns it has changed, deletes
the images that no row refers to as it sees them, and commits. Transactions are READ COMMITTED: a
statement sees the committed rows and what its own transaction has written. A row that another
transaction has written is locked until that one ends, an image cannot be inserted while another
transaction inserts it, and of a deletion and a new reference to the same image the later waits.
Whoever waits may fail in the end, and any transaction may be rolled back at any time.

An image is its hash here, and a hash stands for the file it is computed from.
-/

set_option autoImplicit false
set_option relaxedAutoImplicit false

namespace OpenWhistle.Branding.Images

/-! ### Rows -/

inductive Column
  | name
  | primaryColor
  | logoLight
  | logoDark
  | favicon32
  | favicon180
  | updatedById
  deriving DecidableEq

abbrev Sha := String

/-- A row of `branding`, without its key. -/
abbrev Row := Column → Option String

def columns : List Column :=
  [.name, .primaryColor, .logoLight, .logoDark, .favicon32, .favicon180, .updatedById]

/-- `IMAGE_FIELDS`. -/
def imageFields : List Column := [.logoLight, .logoDark, .favicon32, .favicon180]

/-- `_RESETTABLE`. -/
def resettable : List Column := [.name, .primaryColor, .logoLight, .logoDark]

/-- `Branding(…)`, as nothing is set. -/
def newRow : Row := fun _ ↦ none

/-- What a row refers to. -/
def imagesOf (row : Row) : List Sha := imageFields.filterMap row

def put (row : Row) (column : Column) (value : Option String) : Row :=
  Function.update row column value

/-- The light logo and its favicons, which go together. -/
def putLight (row : Row) (logo small large : Option Sha) : Row :=
  put (put (put row .logoLight logo) .favicon32 small) .favicon180 large

/-! ### Requests -/

/-- The form of `branding_post`, past its checks: the name and the colour, `none` where empty, and
the images as their hashes. -/
structure Form where
  name : Option String
  colour : Option String
  /-- The logo, the small favicon and the large one. -/
  light : Option (Sha × Sha × Sha)
  dark : Option Sha
  removeLogoLight : Bool
  removeLogoDark : Bool

/-- Any other field of a reset is answered before the database is asked. -/
inductive Request
  | post (form : Form)
  | reset (fields : List Column) (hfields : fields ⊆ resettable)

/-- The images a request brings. -/
def Request.uploads : Request → List Sha
  | .post form => (form.light.toList.flatMap fun (logo, small, large) ↦ [logo, small, large]) ++
      form.dark.toList
  | .reset _ _ => []

/-- A text field of the form. -/
def setText (column : Column) (value : Option String) (state : Row × List Column) :
    Row × List Column :=
  if state.1 column ≠ value then (put state.1 column value, state.2 ++ [column]) else state

def setLight (form : Form) (state : Row × List Column) : Row × List Column :=
  match form.light with
  | some (logo, small, large) => (putLight state.1 logo small large, state.2 ++ [.logoLight])
  | none =>
    if form.removeLogoLight ∧ (state.1 .logoLight).isSome then
      (putLight state.1 none none none, state.2 ++ [.logoLight])
    else state

def setDark (form : Form) (state : Row × List Column) : Row × List Column :=
  match form.dark with
  | some logo => (put state.1 .logoDark logo, state.2 ++ [.logoDark])
  | none =>
    if form.removeLogoDark ∧ (state.1 .logoDark).isSome then
      (put state.1 .logoDark none, state.2 ++ [.logoDark])
    else state

/-- The row as `branding_post` leaves it, and the fields that are changed. -/
def Form.save (form : Form) (user : String) (row : Row) : Row × List Column :=
  let state := setDark form (setLight form
    (setText .primaryColor form.colour (setText .name form.name (row, []))))
  if state.2 = [] then state else (put state.1 .updatedById user, state.2)

/-- One field of `branding_reset`. -/
def resetField (row : Row) (column : Column) : Row :=
  if column = .logoLight then putLight row none none none else put row column none

/-- The row as a request leaves it in its session, and whether `drop_orphan_images` runs. -/
def Request.apply (request : Request) (user : String) (row : Row) : Row × Bool :=
  match request with
  | .post form =>
    let saved := form.save user row
    (saved.1, !saved.2.isEmpty)
  | .reset fields _ => (put (fields.foldl resetField row) .updatedById user, true)

/-! ### Transactions -/

/-- What a transaction has written and not committed: its row, if it has written one, and the images
it has inserted. -/
structure Work where
  written : Option Row
  stored : List Sha

/-- How far a request is. -/
inductive Phase
  | started
  /-- It has read the row of its organisation. -/
  | loaded (row : Option Row)
  /-- It has flushed, and `drop_orphan_images` runs or not. -/
  | flushed (work : Work) (drops : Bool)
  | dropped (work : Work) (gone : List Sha)
  | ended

structure Txn where
  org : Option String
  user : String
  request : Request
  phase : Phase

namespace Txn

variable (txn : Txn)

def work : Work :=
  match txn.phase with
  | .flushed work _ => work
  | .dropped work _ => work
  | _ => ⟨none, []⟩

/-- The row as it has written it. -/
def written : Option Row := txn.work.written

def stored : List Sha := txn.work.stored

/-- The images it has deleted. -/
def gone : List Sha :=
  match txn.phase with
  | .dropped _ gone => gone
  | _ => []

def inFlight : Bool :=
  match txn.phase with
  | .ended => false
  | _ => true

def hasDropped : Bool :=
  match txn.phase with
  | .dropped _ _ => true
  | _ => false

end Txn

abbrev Rows := List (Option String × Row)

/-- The images that some row refers to. -/
def referenced (rows : Rows) : List Sha := rows.flatMap fun entry ↦ imagesOf entry.2

def writeRow (rows : Rows) (org : Option String) (row : Row) : Rows :=
  (org, row) :: rows.filter fun entry ↦ entry.1 ≠ org

/-- The rows as a transaction sees them. -/
def view (rows : Rows) (txn : Txn) : Rows :=
  match txn.written with
  | some row => writeRow rows txn.org row
  | none => rows

/-- What is committed, and the requests in the order in which they came. -/
structure State where
  rows : Rows
  images : List Sha
  txns : List Txn

def initial : State := ⟨[], [], []⟩

inductive Event
  | start (org : Option String) (user : String) (request : Request)
  | read (i : ℕ)
  | flush (i : ℕ)
  | drop (i : ℕ)
  | commit (i : ℕ)
  | rollback (i : ℕ)

/-- The columns of an UPDATE: those whose value is another than the one that was read. -/
def changed (read wanted : Row) : List Column := columns.filter fun c ↦ wanted c ≠ read c

/-- The row after that UPDATE. -/
def update (current read wanted : Row) : Row := fun c ↦
  if wanted c = read c then current c else wanted c

/-- Another transaction has written the row. -/
def locked (others : List Txn) (org : Option String) : Bool :=
  others.any fun other ↦ decide (other.org = org) && other.written.isSome

/-- What the flush writes to the row, and the images it newly refers to. `none` where it has to
wait, or fails: an UPDATE without a column is not made. -/
def flushRow (s : State) (others : List Txn) (org : Option String) (wanted : Row) :
    Option Row → Option (Option Row × List Sha)
  | none =>
    if locked others org ∨ (s.rows.lookup org).isSome then none
    else some (some wanted, imagesOf wanted)
  | some read =>
    if changed read wanted = [] then some (none, [])
    else if locked others org then none
    else (s.rows.lookup org).map fun current ↦
      (some (update current read wanted),
        (imageFields.filter fun c ↦ wanted c ≠ read c).filterMap wanted)

/-- The images `store_image` inserts. -/
def missing (s : State) (request : Request) : List Sha :=
  (request.uploads.filter fun sha ↦ sha ∉ s.images).dedup

/-- The foreign keys of new references, and the inserts: `false` where one waits or fails. -/
def admits (s : State) (others : List Txn) (inserted refers : List Sha) : Bool :=
  (inserted.all fun sha ↦ others.all fun other ↦ sha ∉ other.stored) &&
    refers.all fun sha ↦ decide (sha ∈ s.images ∨ sha ∈ inserted) &&
      others.all fun other ↦ sha ∉ other.gone

/-- What `drop_orphan_images` deletes: what it sees no reference to. -/
def orphans (s : State) (txn : Txn) : List Sha :=
  (s.images ++ txn.stored).filter fun sha ↦ sha ∉ referenced (view s.rows txn)

/-- No other transaction has deleted one of these images or written a reference to one. -/
def deletable (others : List Txn) (gone : List Sha) : Bool :=
  gone.all fun sha ↦ others.all fun other ↦
    decide (sha ∉ other.gone) && other.written.all fun row ↦ sha ∉ imagesOf row

/-- The request at a place goes on. -/
def State.goOn (s : State) (i : ℕ) (txn : Txn) (phase : Phase) : State :=
  { s with txns := s.txns.set i { txn with phase := phase } }

def State.commit (s : State) (i : ℕ) (txn : Txn) : State where
  rows := view s.rows txn
  images := (s.images ++ txn.stored).filter fun sha ↦ sha ∉ txn.gone
  txns := s.txns.set i { txn with phase := .ended }

/-- `branding_post` and `branding_reset`, from one statement to the next. -/
def step (s : State) : Event → Option State
  | .start org user request => some { s with txns := s.txns ++ [⟨org, user, request, .started⟩] }
  | .read i => s.txns[i]?.bind fun txn ↦
    match txn.phase with
    | .started => some (s.goOn i txn (.loaded (s.rows.lookup txn.org)))
    | _ => none
  | .flush i => s.txns[i]?.bind fun txn ↦
    match txn.phase with
    | .loaded read =>
      let others := s.txns.eraseIdx i
      let (wanted, drops) := txn.request.apply txn.user (read.getD newRow)
      let inserted := missing s txn.request
      (flushRow s others txn.org wanted read).bind fun (written, refers) ↦
        if admits s others inserted refers then
          some (s.goOn i txn (.flushed ⟨written, inserted⟩ drops))
        else none
    | _ => none
  | .drop i => s.txns[i]?.bind fun txn ↦
    match txn.phase with
    | .flushed work true =>
      if deletable (s.txns.eraseIdx i) (orphans s txn) then
        some (s.goOn i txn (.dropped work (orphans s txn)))
      else none
    | _ => none
  | .commit i => s.txns[i]?.bind fun txn ↦
    match txn.phase with
    | .flushed _ false => some (s.commit i txn)
    | .dropped _ _ => some (s.commit i txn)
    | _ => none
  | .rollback i => s.txns[i]?.bind fun txn ↦
    match txn.phase with
    | .ended => none
    | _ => some (s.goOn i txn .ended)

end OpenWhistle.Branding.Images
