import Mathlib.Data.List.AList
import OpenWhistle.Foundation.Json
import OpenWhistle.Foundation.Like
import OpenWhistle.Foundation.Machine
import OpenWhistle.Foundation.MultiFernet

/-!
# Rotating the encryption key

The script first re-encrypts in memory all that is under a root key: the columns that hold a token,
and the entries of the audit log that hold one inside their JSON, found by their action and a LIKE
pattern. If one value opens under no key, or anything fails, nothing is written. Then it writes in
one transaction, each value only where it still is the one that was read.

Others write meanwhile. What they write carries the current key, so a value that was not read is one
they wrote later, or opens under the current key already. What the script puts in place of a value
is that very value again: compared with a database in which only the others have written, no
plaintext differs at any time.
-/

set_option autoImplicit false
set_option relaxedAutoImplicit false

namespace OpenWhistle.Keys.Rotation

open Json

/-! ### Keys and values -/

structure Settings where
  encryptionKey : String
  encryptionKeyPrevious : String
  secretKey : String

namespace Settings

variable (settings : Settings)

def current : String :=
  if settings.encryptionKey = "" then settings.secretKey else settings.encryptionKey

def previous : List String :=
  ((settings.encryptionKeyPrevious.toList.splitOn ',').map String.ofList).filter fun key ↦
    decide (key ≠ "")

/-- `encryption_keys`. -/
def encryptionKeys : List String := settings.current :: settings.previous

/-- After `ENCRYPTION_KEY_PREVIOUS` has been emptied. -/
def alone : Settings := { settings with encryptionKeyPrevious := "" }

end Settings

/-- A column with tokens in it, or with JSON that holds one. -/
inductive Column
  | encryptedDek
  | confidentialName
  | confidentialContact
  | secureEmail
  | totpSecret
  | detail
  deriving DecidableEq

/-- A column of a row of its table. -/
structure Cell where
  column : Column
  id : String
  deriving DecidableEq

/-- What is not NULL in these columns. -/
abbrev Cells := AList fun _ : Cell ↦ String

/-- An installation: its settings, the two ways to make a key of a text, and the actions of the
entries of the audit log, which never change. -/
structure Instance where
  settings : Settings
  /-- SHA-256. -/
  deriveRoot : String → Sealing
  /-- `derive_mek`. -/
  deriveMek : String → Sealing
  action : (id : String) → String

namespace Instance

variable (inst : Instance)

/-- `_make_fernet`. -/
def makeFernet : MultiFernet :=
  ⟨inst.deriveRoot inst.settings.current, inst.settings.previous.map inst.deriveRoot⟩

/-- `make_mek_fernet`. -/
def makeMekFernet : MultiFernet :=
  ⟨inst.deriveMek inst.settings.current, inst.settings.previous.map inst.deriveMek⟩

def alone : Instance := { inst with settings := inst.settings.alone }

end Instance

def identityRevealed : String := "report.identity_revealed"

def contentSearched : String := "report.content_searched"

/-- The key in `detail` under which entries of an action hold a token. -/
def encryptedKey (action : String) : Option String :=
  if action = identityRevealed then some "reason"
  else if action = contentSearched then some "term"
  else none

/-! ### What is stored -/

/-- The plaintext of a `detail`: the object with the plaintext in the place of the token. -/
def detailReading (fernets : MultiFernet) (key detail : String) : Option Json :=
  match loads detail with
  | some (.dict items) =>
    match get items key with
    | some (.str token) => (fernets.decrypt token).map fun data ↦ .dict (put items key (.str data))
    | some _ => none
    | none => some (.dict items)
  | _ => none

/-- The plaintext of a cell, under the keys of an installation. -/
def reading (inst : Instance) (cell : Cell) (text : String) : Option Json :=
  match cell.column with
  | .encryptedDek => (inst.makeMekFernet.decrypt text).map .str
  | .detail =>
    match encryptedKey (inst.action cell.id) with
    | some key => detailReading inst.makeFernet key text
    | none => some (.str text)
  | _ => (inst.makeFernet.decrypt text).map .str

/-- A cell holds a value under a root key. -/
def Rooted (inst : Instance) (cell : Cell) (text : String) : Prop :=
  cell.column = .detail → ∃ key items value, encryptedKey (inst.action cell.id) = some key ∧
    loads text = some (.dict items) ∧ get items key = some value

/-- The audit log writes `detail` by `json.dumps` of a dict. -/
def Formed (cell : Cell) (text : String) : Prop :=
  cell.column = .detail → ∃ items, text = dumps (.dict items)

/-- What is written under the current key. -/
def UnderCurrent (inst : Instance) (cell : Cell) (text : String) : Prop :=
  Formed cell text ∧
    (Rooted inst cell text → ∃ plain, reading inst.alone cell text = some plain)

/-- The same plaintext, and the current key alone opens it. -/
structure Rotated (inst : Instance) (cell : Cell) (old new : String) : Prop where
  formed : Formed cell new
  plain : ∃ plain, reading inst cell old = some plain ∧ reading inst.alone cell new = some plain

/-! ### The script -/

/-- `InvalidToken`, or another exception. -/
inductive Failure
  | invalidToken
  | other

/-- `rotate`, and `rotate_dek`. -/
def rotateToken (fernets : MultiFernet) (token : String) (iv : ℕ) : Except Failure String :=
  match fernets.rotate token iv with
  | some new => .ok new
  | none => .error .invalidToken

/-- `_rotate_detail`. -/
def rotateDetail (fernets : MultiFernet) (key detail : String) (iv : ℕ) : Except Failure String :=
  match loads detail with
  | some (.dict items) =>
    match get items key with
    | some (.str token) =>
      match fernets.rotate token iv with
      | some new => .ok (dumps (.dict (put items key (.str new))))
      | none => .error .invalidToken
    | _ => .error .other
  | _ => .error .other

/-- A column, the WHERE clause beside `IS NOT NULL`, and the transform. -/
structure Source where
  column : Column
  wanted : (id text : String) → Bool
  transform : (text : String) → (iv : ℕ) → Except Failure String

def tokens (fernets : MultiFernet) (column : Column) : Source :=
  ⟨column, fun _ _ ↦ true, rotateToken fernets⟩

/-- `LIKE '%"key"%'`. -/
def pattern (key : String) : List Char := '%' :: '"' :: (key.toList ++ ['"', '%'])

def details (inst : Instance) (action key : String) : Source where
  column := .detail
  wanted id text := decide (inst.action id = action) && Like.like (pattern key) text.toList
  transform := rotateDetail inst.makeFernet key

def sources (inst : Instance) : List Source :=
  [tokens inst.makeMekFernet .encryptedDek,
    tokens inst.makeFernet .confidentialName,
    tokens inst.makeFernet .confidentialContact,
    tokens inst.makeFernet .secureEmail,
    tokens inst.makeFernet .totpSecret,
    details inst identityRevealed "reason",
    details inst contentSearched "term"]

structure Write where
  cell : Cell
  old : String
  new : String

/-- The rows of one SELECT. What opens under no key is noted, another exception goes up. -/
def compute (source : Source) (iv : (id : String) → ℕ) :
    List (Sigma fun _ : Cell ↦ String) → List Write → List Cell → Option (List Write × List Cell)
  | [], writes, failed => some (writes, failed)
  | row :: rows, writes, failed =>
    if row.1.column = source.column ∧ source.wanted row.1.id row.2 = true then
      match source.transform row.2 (iv row.1.id) with
      | .ok new => compute source iv rows (writes ++ [⟨row.1, row.2, new⟩]) failed
      | .error .invalidToken => compute source iv rows writes (failed ++ [row.1])
      | .error .other => none
    else compute source iv rows writes failed

inductive Phase
  | starting
  | selecting (rest : List Source) (writes : List Write) (failed : List Cell)
  /-- In the transaction: what it has written so far is not committed, and locked. -/
  | writing (rest : List Write) (pending : Cells) (skipped : ℕ)
  | exited (code skipped : ℕ)

/-- What is committed, and how far the script is. -/
structure State where
  cells : Cells
  phase : Phase

inductive Event
  /-- The first check. -/
  | start
  /-- The SELECT of the next source, and its transforms. -/
  | select (iv : (id : String) → ℕ)
  /-- All are read. -/
  | transact
  /-- The next UPDATE. -/
  | update
  | commit (succeeds : Bool)
  /-- Anything that raises. -/
  | fail
  /-- Somebody else commits a value, or `none` for a row that goes or a value that becomes NULL. -/
  | write (cell : Cell) (value : Option String)

def assign (cells : Cells) (cell : Cell) : Option String → Cells
  | some text => cells.insert cell text
  | none => cells.erase cell

/-- The script has written the cell and not committed. -/
def Phase.locks : Phase → Cell → Bool
  | .writing _ pending _, cell => decide (cell ∈ pending)
  | _, _ => false

/-- What the transaction sees. -/
def seen (pending cells : Cells) (cell : Cell) : Option String :=
  (pending.lookup cell).or (cells.lookup cell)

/-- The exit code and the number that the script has skipped. -/
def Phase.exit : Phase → Option (ℕ × ℕ)
  | .exited code skipped => some (code, skipped)
  | _ => none

variable (inst : Instance)

def step (state : State) : Event → Option State
  | .start =>
    match state.phase with
    | .starting =>
      if inst.settings.encryptionKey = "" ∨ inst.settings.encryptionKeys.tail = [] then
        some { state with phase := .exited 1 0 }
      else some { state with phase := .selecting (sources inst) [] [] }
    | _ => none
  | .select iv =>
    match state.phase with
    | .selecting (source :: rest) writes failed =>
      match compute source iv state.cells.entries writes failed with
      | some (writes, failed) => some { state with phase := .selecting rest writes failed }
      | none => some { state with phase := .exited 1 0 }
    | _ => none
  | .transact =>
    match state.phase with
    | .selecting [] writes failed =>
      if failed = [] then some { state with phase := .writing writes ∅ 0 }
      else some { state with phase := .exited 1 0 }
    | _ => none
  | .update =>
    match state.phase with
    | .writing (write :: rest) pending skipped =>
      if seen pending state.cells write.cell = some write.old then
        some { state with phase := .writing rest (pending.insert write.cell write.new) skipped }
      else some { state with phase := .writing rest pending (skipped + 1) }
    | _ => none
  | .commit succeeds =>
    match state.phase with
    | .writing [] pending skipped =>
      if succeeds then some ⟨pending ∪ state.cells, .exited 0 skipped⟩
      else some { state with phase := .exited 1 0 }
    | _ => none
  | .fail => if state.phase.exit.isSome then none else some { state with phase := .exited 1 0 }
  | .write cell value =>
    if state.phase.locks cell then none
    else some { state with cells := assign state.cells cell value }

/-- The database as the others alone would have left it. -/
def Event.onto (cells : Cells) : Event → Cells
  | .write cell value => assign cells cell value
  | _ => cells

def othersOnly (cells : Cells) (events : List Event) : Cells := events.foldl Event.onto cells

/-- Before the script. -/
def before (cells : Cells) : State := ⟨cells, .starting⟩

variable {inst} {cell : Cell} {text old mid new : String} {plain : Json}

/-! ### One value -/

theorem Settings.previous_alone (settings : Settings) : settings.alone.previous = [] := by
  simp [Settings.previous, Settings.alone]

theorem makeFernet_alone : inst.alone.makeFernet = inst.makeFernet.alone := by
  simp only [Instance.makeFernet, Instance.alone, Settings.previous_alone, List.map_nil]
  rfl

theorem makeMekFernet_alone : inst.alone.makeMekFernet = inst.makeMekFernet.alone := by
  simp only [Instance.makeMekFernet, Instance.alone, Settings.previous_alone, List.map_nil]
  rfl

theorem token_of_alone {fernets : MultiFernet}
    (halone : (fernets.alone.decrypt text).map Json.str = some plain) :
    (fernets.decrypt text).map Json.str = some plain := by
  obtain ⟨data, hdata, rfl⟩ := Option.map_eq_some_iff.mp halone
  rw [MultiFernet.decrypt_of_alone hdata, Option.map_some]

theorem detailReading_of_alone {fernets : MultiFernet} {key : String}
    (halone : detailReading fernets.alone key text = some plain) :
    detailReading fernets key text = some plain := by
  unfold detailReading at halone ⊢
  split at halone
  · rename_i items hloads
    split at halone
    · rename_i token hget
      obtain ⟨data, hdata, rfl⟩ := Option.map_eq_some_iff.mp halone
      simp only [MultiFernet.decrypt_of_alone hdata, Option.map_some]
    · cases halone
    · exact halone
  · cases halone

/-- What the current key alone opens is what all the keys together read. -/
theorem reading_of_alone (halone : reading inst.alone cell text = some plain) :
    reading inst cell text = some plain := by
  obtain ⟨column, id⟩ := cell
  have hroot : ∀ {value}, (inst.alone.makeFernet.decrypt text).map Json.str = some value →
      (inst.makeFernet.decrypt text).map Json.str = some value := fun h ↦
    token_of_alone (makeFernet_alone ▸ h)
  cases column with
  | encryptedDek => exact token_of_alone (makeMekFernet_alone ▸ halone)
  | confidentialName => exact hroot halone
  | confidentialContact => exact hroot halone
  | secureEmail => exact hroot halone
  | totpSecret => exact hroot halone
  | detail =>
    unfold reading at halone ⊢
    change (match encryptedKey (inst.action id) with
      | some key => detailReading inst.alone.makeFernet key text
      | none => some (.str text)) = some plain at halone
    cases hkey : encryptedKey (inst.action id) with
    | none => simpa [hkey] using halone
    | some key =>
      simp only [hkey] at halone ⊢
      exact detailReading_of_alone (makeFernet_alone ▸ halone)

theorem rotated_self (hformed : Formed cell text)
    (halone : reading inst.alone cell text = some plain) : Rotated inst cell text text :=
  ⟨hformed, plain, reading_of_alone halone, halone⟩

theorem Rotated.trans (hfirst : Rotated inst cell old mid) (hsecond : Rotated inst cell mid new) :
    Rotated inst cell old new := by
  obtain ⟨plain, hold, hmid⟩ := hfirst.plain
  obtain ⟨plain', hmid', hnew⟩ := hsecond.plain
  obtain rfl : plain = plain' := Option.some.inj ((reading_of_alone hmid).symm.trans hmid')
  exact ⟨hsecond.formed, plain, hold, hnew⟩

theorem Rotated.reading_eq (hrotated : Rotated inst cell old new) :
    reading inst cell new = reading inst cell old := by
  obtain ⟨plain, hold, hnew⟩ := hrotated.plain
  rw [hold, reading_of_alone hnew]

theorem decrypt_of_rotateToken {fernets : MultiFernet} {iv : ℕ}
    (hrotate : rotateToken fernets old iv = .ok new) :
    ∃ data, fernets.decrypt old = some data ∧ fernets.alone.decrypt new = some data := by
  unfold rotateToken at hrotate
  split at hrotate
  · rename_i made hmade
    cases hrotate
    exact MultiFernet.decrypt_of_rotate hmade
  · cases hrotate

theorem reading_of_rotateDetail {fernets : MultiFernet} {key : String} {iv : ℕ}
    (hrotate : rotateDetail fernets key old iv = .ok new) :
    (∃ items, new = dumps (.dict items)) ∧ ∃ plain, detailReading fernets key old = some plain ∧
      detailReading fernets.alone key new = some plain := by
  unfold rotateDetail at hrotate
  split at hrotate
  · rename_i items hloads
    split at hrotate
    · rename_i token hget
      split at hrotate
      · rename_i made hmade
        cases hrotate
        obtain ⟨data, hdata, halone⟩ := MultiFernet.decrypt_of_rotate hmade
        refine ⟨⟨_, rfl⟩, .dict (put items key (.str data)), ?_, ?_⟩
        · simp only [detailReading, hloads, hget, hdata, Option.map_some]
        · simp only [detailReading, loads_dumps, get_put_self, halone, Option.map_some, put_put]
      · cases hrotate
    · cases hrotate
  · cases hrotate

theorem rotated_of_tokens {fernets : MultiFernet} {iv : ℕ} (hcolumn : cell.column ≠ .detail)
    (hreading : ∀ text, reading inst cell text = (fernets.decrypt text).map .str)
    (halone : ∀ text, reading inst.alone cell text = (fernets.alone.decrypt text).map .str)
    (hrotate : rotateToken fernets old iv = .ok new) : Rotated inst cell old new := by
  obtain ⟨data, hold, hnew⟩ := decrypt_of_rotateToken hrotate
  exact ⟨fun hdetail ↦ absurd hdetail hcolumn, .str data, by rw [hreading, hold, Option.map_some],
    by rw [halone, hnew, Option.map_some]⟩

theorem rotated_of_details {action key id : String} {iv : ℕ}
    (hkey : encryptedKey action = some key)
    (hwanted : (details inst action key).wanted id old = true)
    (htransform : (details inst action key).transform old iv = .ok new) :
    Rotated inst ⟨.detail, id⟩ old new := by
  obtain rfl : inst.action id = action := of_decide_eq_true (Bool.and_eq_true_iff.mp hwanted).1
  obtain ⟨hformed, plain, hold, hnew⟩ := reading_of_rotateDetail htransform
  refine ⟨fun _ ↦ hformed, plain, ?_, ?_⟩
  · simp only [reading, hkey, hold]
  · have hkey' : encryptedKey (inst.alone.action id) = some key := hkey
    simp only [reading, hkey', makeFernet_alone, hnew]

/-- A source re-encrypts the values it selects. -/
theorem rotated_of_transform {source : Source} {id : String} {iv : ℕ}
    (hsource : source ∈ sources inst) (hwanted : source.wanted id old = true)
    (htransform : source.transform old iv = .ok new) :
    Rotated inst ⟨source.column, id⟩ old new := by
  have hmek : ∀ text, reading inst.alone ⟨.encryptedDek, id⟩ text =
      (inst.makeMekFernet.alone.decrypt text).map .str := fun text ↦ by
    rw [← makeMekFernet_alone]
    rfl
  have hroot : ∀ text, (inst.alone.makeFernet.decrypt text).map Json.str =
      (inst.makeFernet.alone.decrypt text).map .str := fun text ↦ by rw [makeFernet_alone]
  simp only [sources, List.mem_cons, List.not_mem_nil, or_false] at hsource
  rcases hsource with rfl | rfl | rfl | rfl | rfl | rfl | rfl
  · exact rotated_of_tokens (by simp [tokens]) (fun _ ↦ rfl) hmek htransform
  · exact rotated_of_tokens (by simp [tokens]) (fun _ ↦ rfl) hroot htransform
  · exact rotated_of_tokens (by simp [tokens]) (fun _ ↦ rfl) hroot htransform
  · exact rotated_of_tokens (by simp [tokens]) (fun _ ↦ rfl) hroot htransform
  · exact rotated_of_tokens (by simp [tokens]) (fun _ ↦ rfl) hroot htransform
  · exact rotated_of_details rfl hwanted htransform
  · exact rotated_of_details rfl hwanted htransform

/-! ### Every value is selected -/

theorem like_pattern {key : String} (hkey : key = "reason" ∨ key = "term") {text : List Char} :
    Like.like (pattern key) text = true ↔ renderString key <:+: text := by
  have hpattern : pattern key = '%' :: (Like.escape (renderString key) ++ ['%']) := by
    rcases hkey with rfl | rfl <;> decide
  rw [hpattern, Like.like_contains_iff]

theorem encryptedKey_cases {action key : String} (hkey : encryptedKey action = some key) :
    action = identityRevealed ∧ key = "reason" ∨ action = contentSearched ∧ key = "term" := by
  unfold encryptedKey at hkey
  split_ifs at hkey with hrevealed hsearched
  · exact .inl ⟨hrevealed, (Option.some.inj hkey).symm⟩
  · exact .inr ⟨hsearched, (Option.some.inj hkey).symm⟩

/-- A key that `json.dumps` wrote is in the text as the pattern spells it, so no value is missed. -/
theorem exists_source (hformed : Formed cell text) (hrooted : Rooted inst cell text) :
    ∃ source ∈ sources inst, source.column = cell.column ∧ source.wanted cell.id text = true := by
  obtain ⟨column, id⟩ := cell
  cases column with
  | encryptedDek => exact ⟨tokens inst.makeMekFernet .encryptedDek, by simp [sources], rfl, rfl⟩
  | confidentialName =>
    exact ⟨tokens inst.makeFernet .confidentialName, by simp [sources], rfl, rfl⟩
  | confidentialContact =>
    exact ⟨tokens inst.makeFernet .confidentialContact, by simp [sources], rfl, rfl⟩
  | secureEmail => exact ⟨tokens inst.makeFernet .secureEmail, by simp [sources], rfl, rfl⟩
  | totpSecret => exact ⟨tokens inst.makeFernet .totpSecret, by simp [sources], rfl, rfl⟩
  | detail =>
    obtain ⟨written, rfl⟩ := hformed rfl
    obtain ⟨key, items, value, hkey, hloads, hget⟩ := hrooted rfl
    obtain rfl : written = items := by
      rw [loads_dumps] at hloads
      exact Json.dict.inj (Option.some.inj hloads)
    have hinfix : renderString key <:+: (dumps (.dict written)).toList := by
      rw [dumps, String.toList_ofList]
      exact renderString_infix_of_get hget
    rcases encryptedKey_cases hkey with ⟨haction, rfl⟩ | ⟨haction, rfl⟩
    · exact ⟨details inst identityRevealed "reason", by simp [sources], rfl,
        Bool.and_eq_true_iff.mpr ⟨decide_eq_true haction, (like_pattern (.inl rfl)).mpr hinfix⟩⟩
    · exact ⟨details inst contentSearched "term", by simp [sources], rfl,
        Bool.and_eq_true_iff.mpr ⟨decide_eq_true haction, (like_pattern (.inr rfl)).mpr hinfix⟩⟩

/-- What one SELECT adds: the values that open under no key are noted, the others re-encrypted. -/
structure Computed (source : Source) (rows : List (Sigma fun _ : Cell ↦ String))
    (writes : List Write) (failed : List Cell) (result : List Write × List Cell) : Prop where
  keeps : ∀ write ∈ writes, write ∈ result.1
  fails : failed ≠ [] → result.2 ≠ []
  made : ∀ write ∈ result.1, write ∈ writes ∨ write.cell.column = source.column ∧
    source.wanted write.cell.id write.old = true ∧
      ∃ iv, source.transform write.old iv = .ok write.new
  covers : ∀ row ∈ rows, row.1.column = source.column → source.wanted row.1.id row.2 = true →
    result.2 ≠ [] ∨ ∃ write ∈ result.1, write.cell = row.1 ∧ write.old = row.2

theorem compute_computed {source : Source} {iv : String → ℕ}
    {rows : List (Sigma fun _ : Cell ↦ String)} : ∀ {writes : List Write} {failed : List Cell}
      {result : List Write × List Cell}, compute source iv rows writes failed = some result →
        Computed source rows writes failed result := by
  induction rows with
  | nil =>
    intro writes failed result hcompute
    cases hcompute
    exact ⟨fun _ h ↦ h, id, fun _ h ↦ .inl h, by simp⟩
  | cons row rows ih =>
    intro writes failed result hcompute
    unfold compute at hcompute
    split at hcompute
    · rename_i hwanted
      split at hcompute
      · rename_i new htransform
        obtain ⟨hkeeps, hfails, hmade, hcovers⟩ := ih hcompute
        refine ⟨fun write hwrite ↦ hkeeps write (by simp [hwrite]), hfails, fun write hwrite ↦ ?_,
          fun other hother hcolumn hother' ↦ ?_⟩
        · rcases hmade write hwrite with hold | hnew
          · rcases List.mem_append.mp hold with hold | hself
            · exact .inl hold
            · cases List.mem_singleton.mp hself
              exact .inr ⟨hwanted.1, hwanted.2, _, htransform⟩
          · exact .inr hnew
        · rcases List.mem_cons.mp hother with rfl | hother
          · exact .inr ⟨⟨other.1, other.2, new⟩, hkeeps _ (by simp), rfl, rfl⟩
          · exact hcovers other hother hcolumn hother'
      · obtain ⟨hkeeps, hfails, hmade, hcovers⟩ := ih hcompute
        have hfailed := hfails (by simp)
        exact ⟨hkeeps, fun _ ↦ hfailed, hmade, fun _ _ _ _ ↦ .inl hfailed⟩
      · cases hcompute
    · rename_i hunwanted
      obtain ⟨hkeeps, hfails, hmade, hcovers⟩ := ih hcompute
      refine ⟨hkeeps, hfails, hmade, fun other hother hcolumn hwanted ↦ ?_⟩
      rcases List.mem_cons.mp hother with rfl | hother
      · exact absurd ⟨hcolumn, hwanted⟩ hunwanted
      · exact hcovers other hother hcolumn hwanted

/-! ### What holds at every time -/

theorem lookup_assign (cells : Cells) (cell other : Cell) (value : Option String) :
    (assign cells cell value).lookup other =
      if other = cell then value else cells.lookup other := by
  by_cases hother : other = cell
  · subst hother
    rw [if_pos rfl]
    cases value <;> simp [assign]
  · rw [if_neg hother]
    cases value <;> simp [assign, hother]

/-- A value under a root key will be written again, or opens under the current key already. -/
def Covered (inst : Instance) (writes : List Write) (cell : Cell) (text : String) : Prop :=
  Rooted inst cell text → (∃ write ∈ writes, write.cell = cell ∧ write.old = text) ∨
    ∃ plain, reading inst.alone cell text = some plain

theorem UnderCurrent.covered (hcurrent : UnderCurrent inst cell text) (writes : List Write) :
    Covered inst writes cell text :=
  fun hrooted ↦ .inr (hcurrent.2 hrooted)

structure Selecting (inst : Instance) (cells : Cells) (rest : List Source) (writes : List Write)
    (failed : List Cell) : Prop where
  left : ∀ source ∈ rest, source ∈ sources inst
  rotated : ∀ write ∈ writes, Rotated inst write.cell write.old write.new
  covered : ∀ source ∈ sources inst, source ∈ rest ∨ ∀ cell text,
    cells.lookup cell = some text → source.column = cell.column →
      source.wanted cell.id text = true → failed ≠ [] ∨ Covered inst writes cell text

structure Writing (inst : Instance) (cells : Cells) (rest : List Write) (pending : Cells)
    (skipped : ℕ) : Prop where
  rotated : ∀ write ∈ rest, Rotated inst write.cell write.old write.new
  locked : ∀ cell new, pending.lookup cell = some new → ∃ old, cells.lookup cell = some old ∧
    Rotated inst cell old new
  covered : skipped = 0 → ∀ cell text, cells.lookup cell = some text → cell ∈ pending ∨
    Covered inst rest cell text

/-- The cell holds what the others have left there, or the same again under the current key. -/
def Kept (inst : Instance) (base cells : Cells) (cell : Cell) : Prop :=
  cells.lookup cell = base.lookup cell ∨ ∃ old new, base.lookup cell = some old ∧
    cells.lookup cell = some new ∧ Rotated inst cell old new

structure Exited (inst : Instance) (base cells : Cells) (code skipped : ℕ) : Prop where
  untouched : code ≠ 0 → cells = base
  kept : ∀ cell, Kept inst base cells cell
  rotated : code = 0 → skipped = 0 → ∀ cell text, base.lookup cell = some text →
    Rooted inst cell text → ∃ new, cells.lookup cell = some new ∧ Rotated inst cell text new

/-- Until the script has come to an end, the database is as the others alone have left it. -/
def PhaseSound (inst : Instance) (base cells : Cells) : Phase → Prop
  | .starting => cells = base
  | .selecting rest writes failed => cells = base ∧ Selecting inst base rest writes failed
  | .writing rest pending skipped => cells = base ∧ Writing inst base rest pending skipped
  | .exited code skipped => Exited inst base cells code skipped

structure Inv (inst : Instance) (base : Cells) (state : State) : Prop where
  formed : ∀ cell text, base.lookup cell = some text → Formed cell text
  sound : PhaseSound inst base state.cells state.phase

variable {base cells pending : Cells} {rest writes : List Write} {failed : List Cell} {skipped : ℕ}

/-- An exit that has written nothing. -/
theorem Exited.of_eq (heq : cells = base) : Exited inst base cells 1 0 :=
  ⟨fun _ ↦ heq, fun _ ↦ .inl (heq ▸ rfl), fun hcode ↦ absurd hcode Nat.one_ne_zero⟩

theorem eq_of_not_exited {state : State} (hinv : Inv inst base state)
    (hphase : state.phase.exit = none) : state.cells = base := by
  have hsound := hinv.sound
  cases hstate : state.phase with
  | starting => simpa [hstate, PhaseSound] using hsound
  | selecting rest writes failed =>
    rw [hstate] at hsound
    exact hsound.1
  | writing rest pending skipped =>
    rw [hstate] at hsound
    exact hsound.1
  | exited code skipped => simp [hstate, Phase.exit] at hphase

/-! ### The script moves on -/

theorem Selecting.initial : Selecting inst cells (sources inst) [] [] :=
  ⟨fun _ hsource ↦ hsource, by simp, fun _ hsource ↦ .inl hsource⟩

theorem Selecting.select {source : Source} {sourcesLeft : List Source} {iv : String → ℕ}
    {result : List Write × List Cell}
    (hselecting : Selecting inst cells (source :: sourcesLeft) writes failed)
    (hcompute : compute source iv cells.entries writes failed = some result) :
    Selecting inst cells sourcesLeft result.1 result.2 := by
  obtain ⟨hkeeps, hfails, hmade, hcovers⟩ := compute_computed hcompute
  have hsource := hselecting.left source List.mem_cons_self
  refine ⟨fun other hother ↦ hselecting.left other (List.mem_cons_of_mem _ hother),
    fun write hwrite ↦ ?_, fun other hother ↦ ?_⟩
  · rcases hmade write hwrite with hold | ⟨hcolumn, hwanted, iv', htransform⟩
    · exact hselecting.rotated write hold
    · have hrotated := rotated_of_transform hsource hwanted htransform
      rwa [← hcolumn] at hrotated
  · by_cases hself : other = source
    · subst hself
      refine .inr fun cell text hlookup hcolumn hwanted ↦ ?_
      rcases hcovers ⟨cell, text⟩ (AList.mem_lookup_iff.mp hlookup) hcolumn.symm hwanted with
        hfailed | hwrite
      · exact .inl hfailed
      · exact .inr fun _ ↦ .inl hwrite
    · rcases hselecting.covered other hother with hleft | hcovered
      · exact .inl ((List.mem_cons.mp hleft).resolve_left hself)
      · refine .inr fun cell text hlookup hcolumn hwanted ↦ ?_
        rcases hcovered cell text hlookup hcolumn hwanted with hfailed | hcovered
        · exact .inl (hfails hfailed)
        · refine .inr fun hrooted ↦ ?_
          rcases hcovered hrooted with ⟨write, hwrite, hat⟩ | halone
          · exact .inl ⟨write, hkeeps write hwrite, hat⟩
          · exact .inr halone

/-- When all sources are read and nothing failed, no value is left out. -/
theorem Selecting.writing (hselecting : Selecting inst cells [] writes [])
    (hformed : ∀ cell text, cells.lookup cell = some text → Formed cell text) :
    Writing inst cells writes ∅ 0 where
  rotated := hselecting.rotated
  locked cell new hpending := by simp at hpending
  covered _ cell text hlookup := by
    refine .inr fun hrooted ↦ ?_
    obtain ⟨source, hsource, hcolumn, hwanted⟩ := exists_source (hformed cell text hlookup) hrooted
    rcases hselecting.covered source hsource with hleft | hcovered
    · cases hleft
    · rcases hcovered cell text hlookup hcolumn hwanted with hfailed | hcovered
      · exact absurd rfl hfailed
      · exact hcovered hrooted

theorem Writing.update {write : Write}
    (hwriting : Writing inst cells (write :: rest) pending skipped)
    (hseen : seen pending cells write.cell = some write.old) :
    Writing inst cells rest (pending.insert write.cell write.new) skipped where
  rotated other hother := hwriting.rotated other (List.mem_cons_of_mem _ hother)
  locked cell new hpending := by
    by_cases hcell : cell = write.cell
    · subst hcell
      obtain rfl : write.new = new := by simpa using hpending
      have hrotated := hwriting.rotated write List.mem_cons_self
      rcases Option.or_eq_some_iff.mp hseen with hown | ⟨-, hcommitted⟩
      · obtain ⟨old, hold, hfirst⟩ := hwriting.locked _ _ hown
        exact ⟨old, hold, hfirst.trans hrotated⟩
      · exact ⟨write.old, hcommitted, hrotated⟩
    · rw [AList.lookup_insert_ne hcell] at hpending
      exact hwriting.locked cell new hpending
  covered hskipped cell text hlookup := by
    rcases hwriting.covered hskipped cell text hlookup with hpending | hcovered
    · exact .inl ((AList.mem_insert _).mpr (.inr hpending))
    · by_cases hcell : cell = write.cell
      · exact .inl ((AList.mem_insert _).mpr (.inl hcell))
      · refine .inr fun hrooted ↦ ?_
        rcases hcovered hrooted with ⟨other, hother, hat, hold⟩ | halone
        · rcases List.mem_cons.mp hother with rfl | hother
          · exact absurd hat.symm hcell
          · exact .inl ⟨other, hother, hat, hold⟩
        · exact .inr halone

/-- A value that has changed meanwhile is left; the count says that some may be left out. -/
theorem Writing.skip {write : Write}
    (hwriting : Writing inst cells (write :: rest) pending skipped) :
    Writing inst cells rest pending (skipped + 1) where
  rotated other hother := hwriting.rotated other (List.mem_cons_of_mem _ hother)
  locked := hwriting.locked
  covered hskipped := absurd hskipped (Nat.succ_ne_zero skipped)

theorem Writing.commit (hwriting : Writing inst base [] pending skipped)
    (hformed : ∀ cell text, base.lookup cell = some text → Formed cell text) :
    Exited inst base (pending ∪ base) 0 skipped where
  untouched hcode := absurd rfl hcode
  kept cell := by
    by_cases hcell : cell ∈ pending
    · obtain ⟨new, hnew⟩ := Option.isSome_iff_exists.mp (AList.lookup_isSome.mpr hcell)
      obtain ⟨old, hold, hrotated⟩ := hwriting.locked cell new hnew
      exact .inr ⟨old, new, hold, by rw [AList.lookup_union_left hcell, hnew], hrotated⟩
    · exact .inl (AList.lookup_union_right hcell)
  rotated _ hskipped cell text hlookup hrooted := by
    by_cases hcell : cell ∈ pending
    · obtain ⟨new, hnew⟩ := Option.isSome_iff_exists.mp (AList.lookup_isSome.mpr hcell)
      obtain ⟨old, hold, hrotated⟩ := hwriting.locked cell new hnew
      obtain rfl : text = old := Option.some.inj (hlookup.symm.trans hold)
      exact ⟨new, by rw [AList.lookup_union_left hcell, hnew], hrotated⟩
    · rcases hwriting.covered hskipped cell text hlookup with hpending | hcovered
      · exact absurd hpending hcell
      · rcases hcovered hrooted with ⟨write, hwrite, -⟩ | ⟨plain, halone⟩
        · cases hwrite
        · exact ⟨text, by rw [AList.lookup_union_right hcell, hlookup],
            rotated_self (hformed cell text hlookup) halone⟩

/-! ### The others write -/

/-- A property of what is stored, after a write of which it holds too. -/
theorem forall_assign {property : Cell → String → Prop} {value : Option String}
    (hcells : ∀ other text, cells.lookup other = some text → property other text)
    (hvalue : ∀ text, value = some text → property cell text) :
    ∀ other text, (assign cells cell value).lookup other = some text → property other text := by
  intro other text hlookup
  rw [lookup_assign] at hlookup
  split_ifs at hlookup with hother
  · exact hother ▸ hvalue text hlookup
  · exact hcells other text hlookup

variable {value : Option String}

theorem Selecting.afterWrite {sourcesLeft : List Source}
    (hselecting : Selecting inst cells sourcesLeft writes failed)
    (hvalue : ∀ text, value = some text → UnderCurrent inst cell text) :
    Selecting inst (assign cells cell value) sourcesLeft writes failed where
  left := hselecting.left
  rotated := hselecting.rotated
  covered source hsource := by
    refine (hselecting.covered source hsource).imp_right fun hcovered ↦ ?_
    exact forall_assign hcovered fun text htext _ _ ↦ .inr ((hvalue text htext).covered writes)

theorem Writing.afterWrite (hwriting : Writing inst cells rest pending skipped)
    (hcell : cell ∉ pending) (hvalue : ∀ text, value = some text → UnderCurrent inst cell text) :
    Writing inst (assign cells cell value) rest pending skipped where
  rotated := hwriting.rotated
  locked other new hpending := by
    have hother : other ≠ cell := fun heq ↦
      hcell (heq ▸ AList.lookup_isSome.mp (Option.isSome_iff_exists.mpr ⟨new, hpending⟩))
    rw [lookup_assign, if_neg hother]
    exact hwriting.locked other new hpending
  covered hskipped := forall_assign (hwriting.covered hskipped) fun text htext ↦
    .inr ((hvalue text htext).covered rest)

theorem Exited.afterWrite {code : ℕ} (hexited : Exited inst base cells code skipped)
    (hvalue : ∀ text, value = some text → UnderCurrent inst cell text) :
    Exited inst (assign base cell value) (assign cells cell value) code skipped where
  untouched hcode := by rw [hexited.untouched hcode]
  kept other := by
    unfold Kept
    rw [lookup_assign, lookup_assign]
    split_ifs with hother
    · exact .inl rfl
    · exact hexited.kept other
  rotated hcode hskipped other text hlookup hrooted := by
    rw [lookup_assign] at hlookup ⊢
    split_ifs at hlookup ⊢ with hother
    · subst hother
      obtain ⟨plain, halone⟩ := (hvalue text hlookup).2 hrooted
      exact ⟨text, hlookup, rotated_self (hvalue text hlookup).1 halone⟩
    · exact hexited.rotated hcode hskipped other text hlookup hrooted

/-! ### One step, and a run -/

theorem inv_start {state state' : State} (hinv : Inv inst base state)
    (hstep : step inst state .start = some state') : Inv inst base state' := by
  obtain ⟨cells, phase⟩ := state
  cases phase with
  | starting =>
    simp only [step] at hstep
    split at hstep
    · cases hstep
      exact ⟨hinv.formed, Exited.of_eq hinv.sound⟩
    · cases hstep
      exact ⟨hinv.formed, hinv.sound, .initial⟩
  | _ => cases hstep

theorem inv_select {state state' : State} {iv : String → ℕ} (hinv : Inv inst base state)
    (hstep : step inst state (.select iv) = some state') : Inv inst base state' := by
  obtain ⟨cells, phase⟩ := state
  cases phase with
  | selecting sourcesLeft writes failed =>
    obtain ⟨rfl, hselecting⟩ := hinv.sound
    cases sourcesLeft with
    | nil => cases hstep
    | cons source sourcesLeft =>
      simp only [step] at hstep
      split at hstep
      · rename_i computed failures hcompute
        cases hstep
        exact ⟨hinv.formed, rfl, hselecting.select hcompute⟩
      · cases hstep
        exact ⟨hinv.formed, .of_eq rfl⟩
  | _ => cases hstep

theorem inv_transact {state state' : State} (hinv : Inv inst base state)
    (hstep : step inst state .transact = some state') : Inv inst base state' := by
  obtain ⟨cells, phase⟩ := state
  cases phase with
  | selecting sourcesLeft writes failed =>
    obtain ⟨rfl, hselecting⟩ := hinv.sound
    cases sourcesLeft with
    | cons source sourcesLeft => cases hstep
    | nil =>
      simp only [step] at hstep
      split at hstep
      · rename_i hfailed
        subst hfailed
        cases hstep
        exact ⟨hinv.formed, rfl, hselecting.writing hinv.formed⟩
      · cases hstep
        exact ⟨hinv.formed, .of_eq rfl⟩
  | _ => cases hstep

theorem inv_update {state state' : State} (hinv : Inv inst base state)
    (hstep : step inst state .update = some state') : Inv inst base state' := by
  obtain ⟨cells, phase⟩ := state
  cases phase with
  | writing rest pending skipped =>
    obtain ⟨rfl, hwriting⟩ := hinv.sound
    cases rest with
    | nil => cases hstep
    | cons write rest =>
      simp only [step] at hstep
      split at hstep
      · rename_i hseen
        cases hstep
        exact ⟨hinv.formed, rfl, hwriting.update hseen⟩
      · cases hstep
        exact ⟨hinv.formed, rfl, hwriting.skip⟩
  | _ => cases hstep

theorem inv_commit {state state' : State} {succeeds : Bool} (hinv : Inv inst base state)
    (hstep : step inst state (.commit succeeds) = some state') : Inv inst base state' := by
  obtain ⟨cells, phase⟩ := state
  cases phase with
  | writing rest pending skipped =>
    obtain ⟨rfl, hwriting⟩ := hinv.sound
    cases rest with
    | cons write rest => cases hstep
    | nil =>
      simp only [step] at hstep
      split at hstep
      · cases hstep
        exact ⟨hinv.formed, hwriting.commit hinv.formed⟩
      · cases hstep
        exact ⟨hinv.formed, .of_eq rfl⟩
  | _ => cases hstep

theorem inv_fail {state state' : State} (hinv : Inv inst base state)
    (hstep : step inst state .fail = some state') : Inv inst base state' := by
  simp only [step] at hstep
  split at hstep
  · cases hstep
  · rename_i hphase
    have heq : state.cells = base := eq_of_not_exited hinv (by simpa using hphase)
    cases hstep
    exact ⟨hinv.formed, .of_eq heq⟩

theorem inv_write {state state' : State} (hinv : Inv inst base state)
    (hvalue : ∀ text, value = some text → UnderCurrent inst cell text)
    (hstep : step inst state (.write cell value) = some state') :
    Inv inst (assign base cell value) state' := by
  obtain ⟨cells, phase⟩ := state
  simp only [step] at hstep
  split at hstep
  · cases hstep
  · rename_i hlocks
    cases hstep
    refine ⟨forall_assign hinv.formed fun text htext ↦ (hvalue text htext).1, ?_⟩
    have hsound := hinv.sound
    cases phase with
    | starting => exact congrArg (assign · cell value) hsound
    | selecting sourcesLeft writes failed =>
      obtain ⟨rfl, hselecting⟩ := hsound
      exact ⟨rfl, hselecting.afterWrite hvalue⟩
    | writing rest pending skipped =>
      obtain ⟨rfl, hwriting⟩ := hsound
      exact ⟨rfl, hwriting.afterWrite (by simpa [Phase.locks] using hlocks) hvalue⟩
    | exited code skipped => exact Exited.afterWrite hsound hvalue

theorem inv_step {state state' : State} {event : Event} (hinv : Inv inst base state)
    (hevent : ∀ cell text, event = .write cell (some text) → UnderCurrent inst cell text)
    (hstep : step inst state event = some state') : Inv inst (event.onto base) state' := by
  cases event with
  | start => exact inv_start hinv hstep
  | select iv => exact inv_select hinv hstep
  | transact => exact inv_transact hinv hstep
  | update => exact inv_update hinv hstep
  | commit succeeds => exact inv_commit hinv hstep
  | fail => exact inv_fail hinv hstep
  | write cell value =>
    exact inv_write hinv (fun text htext ↦ hevent cell text (by rw [htext])) hstep

theorem inv_run {events : List Event} {state last : State} (hinv : Inv inst base state)
    (hothers : ∀ cell text, Event.write cell (some text) ∈ events → UnderCurrent inst cell text)
    (hrun : Machine.run (step inst) state events = some last) :
    Inv inst (othersOnly base events) last := by
  induction events generalizing base state with
  | nil =>
    cases hrun
    exact hinv
  | cons event events ih =>
    obtain ⟨next, hnext, hrest⟩ := Machine.run_cons_eq_some.mp hrun
    have hinv' := inv_step hinv
      (fun cell text heq ↦ hothers cell text (heq ▸ List.mem_cons_self)) hnext
    exact ih hinv' (fun cell text hmem ↦ hothers cell text (List.mem_cons_of_mem _ hmem)) hrest

theorem Inv.kept {state : State} (hinv : Inv inst base state) (cell : Cell) :
    Kept inst base state.cells cell := by
  cases hphase : state.phase with
  | exited code skipped =>
    have hsound := hinv.sound
    rw [hphase] at hsound
    exact hsound.kept cell
  | _ =>
    have heq := eq_of_not_exited hinv (by rw [hphase]; rfl)
    exact .inl (by rw [heq])

theorem Inv.formed_cells {state : State} (hinv : Inv inst base state) :
    ∀ cell text, state.cells.lookup cell = some text → Formed cell text := by
  intro cell text hlookup
  rcases hinv.kept cell with hsame | ⟨old, new, -, hnew, hrotated⟩
  · exact hinv.formed cell text (hsame ▸ hlookup)
  · exact Option.some.inj (hlookup.symm.trans hnew) ▸ hrotated.formed

/-- The plaintext of a cell of the database. -/
def plaintext (inst : Instance) (cells : Cells) (cell : Cell) : Option Json :=
  (cells.lookup cell).bind (reading inst cell)

theorem Kept.plaintext_eq (hkept : Kept inst base cells cell) :
    plaintext inst cells cell = plaintext inst base cell := by
  rcases hkept with hsame | ⟨old, new, hold, hnew, hrotated⟩
  · rw [plaintext, plaintext, hsame]
  · simp only [plaintext, hold, hnew, Option.bind_some, hrotated.reading_eq]

theorem inv_before (hformed : ∀ cell text, cells.lookup cell = some text → Formed cell text) :
    Inv inst cells (before cells) :=
  ⟨hformed, rfl⟩

/-- All or nothing, complete, and no plaintext lost, whatever others write meanwhile. -/
theorem rotation_is_all_or_nothing_and_complete {cells : Cells}
    (hformed : ∀ cell text, cells.lookup cell = some text → Formed cell text) {events : List Event}
    (hothers : ∀ cell text, Event.write cell (some text) ∈ events → UnderCurrent inst cell text)
    {last : State} (hrun : Machine.run (step inst) (before cells) events = some last) :
    (∀ code skipped, last.phase = .exited code skipped → code ≠ 0 →
      last.cells = othersOnly cells events) ∧
    (last.phase = .exited 0 0 → ∀ cell text, (othersOnly cells events).lookup cell = some text →
      Rooted inst cell text → ∃ new plain, last.cells.lookup cell = some new ∧
        reading inst cell text = some plain ∧ reading inst.alone cell new = some plain) ∧
    (∀ cell, last.cells.lookup cell = (othersOnly cells events).lookup cell ∨
      ∃ written new plain, (othersOnly cells events).lookup cell = some written ∧
        last.cells.lookup cell = some new ∧ reading inst cell written = some plain ∧
        reading inst.alone cell new = some plain) ∧
    ∀ again later,
      (∀ cell text, Event.write cell (some text) ∈ again → UnderCurrent inst cell text) →
      Machine.run (step inst) (before last.cells) again = some later → ∀ cell,
        plaintext inst later.cells cell = plaintext inst (othersOnly last.cells again) cell := by
  have hinv := inv_run (inv_before hformed) hothers hrun
  refine ⟨fun code skipped hphase hcode ↦ ?_, fun hphase cell text hlookup hrooted ↦ ?_,
    fun cell ↦ ?_, fun again later hagain hlater cell ↦ ?_⟩
  · have hsound := hinv.sound
    rw [hphase] at hsound
    exact hsound.untouched hcode
  · have hsound := hinv.sound
    rw [hphase] at hsound
    obtain ⟨new, hnew, hrotated⟩ := hsound.rotated rfl rfl cell text hlookup hrooted
    obtain ⟨plain, hold, halone⟩ := hrotated.plain
    exact ⟨new, plain, hnew, hold, halone⟩
  · rcases hinv.kept cell with hsame | ⟨old, new, hold, hnew, hrotated⟩
    · exact .inl hsame
    · obtain ⟨plain, hplain, halone⟩ := hrotated.plain
      exact .inr ⟨old, new, plain, hold, hnew, hplain, halone⟩
  · exact ((inv_run (inv_before hinv.formed_cells) hagain hlater).kept cell).plaintext_eq

/-- Tokens that carry the name of their key in clear. -/
def marked (key : String) : Sealing where
  encipher data _ := String.ofList (key.toList ++ data.toList)
  decrypt token :=
    if key.toList.isPrefixOf token.toList then some (String.ofList (token.toList.drop key.length))
    else none
  decrypt_encipher data iv := by
    rw [String.toList_ofList, if_pos (by simp), ← String.length_toList, List.drop_left,
      String.ofList_toList]

def smallInstance : Instance where
  settings := ⟨"new", "old,", "unused"⟩
  deriveRoot := marked
  deriveMek key := marked (key ++ "-mek")
  action _ := identityRevealed

def dekCell : Cell := ⟨.encryptedDek, "report"⟩

def secretCell : Cell := ⟨.totpSecret, "lena"⟩

def reasonCell : Cell := ⟨.detail, "entry"⟩

def smallCells : Cells :=
  assign (assign (assign ∅ dekCell (some "old-mek:dek")) secretCell (some "old:first")) reasonCell
    (some (dumps (.dict [("via", .str "pdf"), ("reason", .str "old:inquiry")])))

/-- Lena enrols again before her secret is read. -/
def smallRun : List Event :=
  [.start, .select fun _ ↦ 0, .select fun _ ↦ 0, .select fun _ ↦ 0,
    .write secretCell (some "new:second"), .select fun _ ↦ 0, .select fun _ ↦ 0, .select fun _ ↦ 0,
    .select fun _ ↦ 0, .transact, .update, .update, .update, .commit true]

theorem formed_smallCells : ∀ cell text, smallCells.lookup cell = some text → Formed cell text := by
  refine forall_assign (forall_assign (forall_assign (fun _ _ h ↦ ?_) ?_) ?_) ?_
  · simp at h
  · exact fun _ _ hdetail ↦ absurd hdetail (by decide)
  · exact fun _ _ hdetail ↦ absurd hdetail (by decide)
  · exact fun text htext _ ↦ ⟨_, (Option.some.inj htext).symm⟩

theorem small_database_is_rotated : ∃ last,
    Machine.run (step smallInstance) (before smallCells) smallRun = some last ∧
      last.phase = .exited 0 0 ∧
      (othersOnly smallCells smallRun).lookup secretCell = some "new:second" ∧
      ∃ new plain, last.cells.lookup dekCell = some new ∧
        reading smallInstance dekCell "old-mek:dek" = some plain ∧
        reading smallInstance.alone dekCell new = some plain := by
  have hrun : (Machine.run (step smallInstance) (before smallCells) smallRun).map
      (fun last ↦ last.phase.exit) = some (some (0, 0)) := by
    decide +kernel
  obtain ⟨last, hlast, hexit⟩ := Option.map_eq_some_iff.mp hrun
  have hphase : last.phase = .exited 0 0 := by
    cases hstate : last.phase with
    | exited code skipped =>
      rw [hstate] at hexit
      cases hexit
      rfl
    | _ =>
      rw [hstate] at hexit
      cases hexit
  have hothers : ∀ cell text, Event.write cell (some text) ∈ smallRun →
      UnderCurrent smallInstance cell text := by
    intro cell text hmem
    obtain ⟨rfl, rfl⟩ : cell = secretCell ∧ text = "new:second" := by simpa [smallRun] using hmem
    have hopen : smallInstance.alone.makeFernet.decrypt "new:second" = some ":second" := by
      decide +kernel
    exact ⟨fun hdetail ↦ absurd hdetail (by decide), fun _ ↦
      ⟨.str ":second", congrArg (Option.map Json.str) hopen⟩⟩
  exact ⟨last, hlast, hphase, by decide +kernel,
    (rotation_is_all_or_nothing_and_complete formed_smallCells hothers hlast).2.1 hphase dekCell
      "old-mek:dek" (by decide +kernel) (fun hdetail ↦ absurd hdetail (by decide))⟩

end OpenWhistle.Keys.Rotation
