import Mathlib.Algebra.GroupWithZero.Nat
import Mathlib.Data.List.Basic
import Mathlib.Data.Nat.Notation
import OpenWhistle.Foundation.Base64

/-!
# Taking the time out of the tokens of a report

A token holds the second it was made in clear. A migration makes the tokens of all reports again, at
time 0: the wrapped key of a report and the reporter's fields under the instance's keys, and what
the report consists of under the key of the report. What is no token stays, and so does a token that
does not open; those are counted.

Everything is read afterwards as before. Every token that its key opens has time 0, and a second run
changes nothing and counts the same. The argument is about one value under one key, and goes on from
there to lists of values, to a report and to all of them.
-/

set_option autoImplicit false
set_option relaxedAutoImplicit false

namespace OpenWhistle.Keys.Reseal

/-! ### Tokens -/

/-- A key, or several of which the first one seals; values are their bytes. -/
structure Fernet where
  /-- The initialisation vector, the ciphertext and the tag. -/
  encipher : (data : Bytes) → (time iv : ℕ) → Bytes
  /-- `none` where the package raises `InvalidToken`. -/
  decrypt : Bytes → Option Bytes
  decrypt_encipher : ∀ data time iv,
    decrypt (Base64.encode (0x80 :: Bytes.toBig 8 time ++ encipher data time iv)) = some data

namespace Fernet

variable (fernet : Fernet)

/-- `encrypt_at_time`. -/
def encryptAtTime (data : Bytes) (time iv : ℕ) : Bytes :=
  Base64.encode (0x80 :: Bytes.toBig 8 time ++ fernet.encipher data time iv)

/-- `seal`. -/
def sealed (data : Bytes) (iv : ℕ) : Bytes := fernet.encryptAtTime data 0 iv

end Fernet

/-- `gAAAA`, in which every token begins. -/
def tokenStart : Bytes := [103, 65, 65, 65, 65]

def startsToken (value : Bytes) : Bool := tokenStart.isPrefixOf value

/-- The time of a token is 0; `none` where it is no Base64. -/
def isTimeless (value : Bytes) : Option Bool :=
  (Base64.decode value).map fun bytes ↦ decide ((bytes.drop 1).take 8 = List.replicate 8 0)

/-- How many tokens did not open, and how many vectors were drawn. -/
structure Progress where
  unreadable : ℕ
  drawn : ℕ
  deriving DecidableEq

/-- A step of the migration; `none` where it raises, and nothing is committed. -/
abbrev Migrates (α : Type) := Progress → Option (α × Progress)

section Migration

-- The vectors that are drawn, one after the other.
variable (draw : ℕ → ℕ)

/-- `reseal`, and the value that is in its place afterwards. -/
def reseal (fernet : Fernet) (value : Bytes) : Migrates Bytes := fun p ↦
  if startsToken value then
    match isTimeless value with
    | none => none
    | some true => some (value, p)
    | some false =>
      match fernet.decrypt value with
      | some data => some (fernet.sealed data (draw p.drawn), { p with drawn := p.drawn + 1 })
      | none => some (value, { p with unreadable := p.unreadable + 1 })
  else some (value, p)

/-- A column that may be NULL. -/
def resealOption (fernet : Fernet) : Option Bytes → Migrates (Option Bytes)
  | none => fun p ↦ some (none, p)
  | some value => fun p ↦ (reseal draw fernet value p).map fun (new, p) ↦ (some new, p)

/-- A step for each of some rows. -/
def each {α : Type} (step : α → Migrates α) : List α → Migrates (List α)
  | [] => fun p ↦ some ([], p)
  | row :: rows => fun p ↦
    match step row p with
    | none => none
    | some (new, p) => (each step rows p).map fun (news, p) ↦ (new :: news, p)

/-! ### Reports -/

structure Attachment where
  encrypted : Bool
  filename : Bytes
  /-- `none` where the bytes are in a bucket. -/
  data : Option Bytes
  deriving DecidableEq

/-- A report and the rows that belong to it. -/
structure Report where
  encryptedDek : Bytes
  confidentialName : Option Bytes
  confidentialContact : Option Bytes
  secureEmail : Option Bytes
  description : Bytes
  messages : List Bytes
  notes : List Bytes
  attachments : List Attachment
  deriving DecidableEq

/-- The keys of an instance. -/
structure Instance where
  /-- `make_mek_fernet`. -/
  mek : Fernet
  /-- `_make_fernet`. -/
  root : Fernet
  /-- The key of a report; `none` where it does not have 32 bytes. -/
  report : (dek : Bytes) → Option Fernet

/-- The name of an encrypted attachment. -/
def resealName (fernet : Fernet) (attachment : Attachment) : Migrates Attachment := fun p ↦
  if attachment.encrypted then
    (reseal draw fernet attachment.filename p).map fun (filename, p) ↦
      ({ attachment with filename := filename }, p)
  else some (attachment, p)

/-- The bytes of an encrypted attachment. -/
def resealData (fernet : Fernet) (attachment : Attachment) : Migrates Attachment := fun p ↦
  if attachment.encrypted then
    (resealOption draw fernet attachment.data p).map fun (data, p) ↦
      ({ attachment with data := data }, p)
  else some (attachment, p)

/-- What is under the key of the report. -/
def resealContent (fernet : Fernet) (report : Report) : Migrates Report := fun p ↦
  match reseal draw fernet report.description p with
  | none => none
  | some (description, p) =>
    match each (reseal draw fernet) report.messages p with
    | none => none
    | some (messages, p) =>
      match each (reseal draw fernet) report.notes p with
      | none => none
      | some (notes, p) =>
        match each (resealName draw fernet) report.attachments p with
        | none => none
        | some (attachments, p) =>
          (each (resealData draw fernet) attachments p).map fun (attachments, p) ↦
            ({ report with
                description := description
                messages := messages
                notes := notes
                attachments := attachments }, p)

/-- The reporter's fields. -/
def resealReporter (inst : Instance) (report : Report) : Migrates Report := fun p ↦
  match resealOption draw inst.root report.confidentialName p with
  | none => none
  | some (name, p) =>
    match resealOption draw inst.root report.confidentialContact p with
    | none => none
    | some (contact, p) =>
      (resealOption draw inst.root report.secureEmail p).map fun (email, p) ↦
        ({ report with
            confidentialName := name
            confidentialContact := contact
            secureEmail := email }, p)

/-- One report of the loop. -/
def resealReport (inst : Instance) (report : Report) : Migrates Report := fun p ↦
  match resealReporter draw inst report p with
  | none => none
  | some (report, p) =>
    match inst.mek.decrypt report.encryptedDek with
    | none => some (report, { p with unreadable := p.unreadable + 1 })
    | some dek =>
      match inst.report dek with
      | none => none
      | some fernet =>
        match resealContent draw fernet report p with
        | none => none
        | some (report, p) =>
          (reseal draw inst.mek report.encryptedDek p).map fun (dek, p) ↦
            ({ report with encryptedDek := dek }, p)

/-- `upgrade`: the reports afterwards, and the number that is logged. -/
def upgrade (inst : Instance) (reports : List Report) : Option (List Report × ℕ) :=
  (each (resealReport draw inst) reports ⟨0, 0⟩).map fun (reports, p) ↦ (reports, p.unreadable)

end Migration

/-! ### What is read -/

/-- What a value holds: the data of a token, or itself where it does not open. -/
def opened (fernet : Fernet) (value : Bytes) : Bytes ⊕ Bytes :=
  match fernet.decrypt value with
  | some data => .inl data
  | none => .inr value

/-- An attachment as a reader of its values finds it. One that is not encrypted is as it is. -/
structure Shown where
  encrypted : Bool
  filename : Bytes ⊕ Bytes
  data : Option (Bytes ⊕ Bytes)
  deriving DecidableEq

def showAttachment (read : Bytes → Bytes ⊕ Bytes) (attachment : Attachment) : Shown where
  encrypted := attachment.encrypted
  filename := if attachment.encrypted then read attachment.filename else .inr attachment.filename
  data := attachment.data.map (if attachment.encrypted then read else .inr)

/-- What is under the key of a report. -/
structure Content where
  description : Bytes ⊕ Bytes
  messages : List (Bytes ⊕ Bytes)
  notes : List (Bytes ⊕ Bytes)
  attachments : List Shown
  deriving DecidableEq

def showContent (read : Bytes → Bytes ⊕ Bytes) (report : Report) : Content where
  description := read report.description
  messages := report.messages.map read
  notes := report.notes.map read
  attachments := report.attachments.map (showAttachment read)

/-- The values under the key of a report, by its wrapped key; where that does not open, they are
what they are. -/
def reader (inst : Instance) (encryptedDek : Bytes) : Bytes → Bytes ⊕ Bytes :=
  match (inst.mek.decrypt encryptedDek).bind inst.report with
  | some fernet => opened fernet
  | none => .inr

/-- Everything that a report holds: the data of every token that opens, and every other value byte
for byte. -/
structure Reading where
  confidentialName : Option (Bytes ⊕ Bytes)
  confidentialContact : Option (Bytes ⊕ Bytes)
  secureEmail : Option (Bytes ⊕ Bytes)
  dek : Bytes ⊕ Bytes
  content : Content
  deriving DecidableEq

def reading (inst : Instance) (report : Report) : Reading where
  confidentialName := report.confidentialName.map (opened inst.root)
  confidentialContact := report.confidentialContact.map (opened inst.root)
  secureEmail := report.secureEmail.map (opened inst.root)
  dek := opened inst.mek report.encryptedDek
  content := showContent (reader inst report.encryptedDek) report

/-! ### One value -/

/-- A value that is left as it is: no token, a token of time 0, or one that does not open. -/
def Quiet (fernet : Fernet) (value : Bytes) : Prop :=
  startsToken value = true → isTimeless value = some true ∨
    isTimeless value = some false ∧ fernet.decrypt value = none

/-- Tokens that have a time and do not open. -/
def stuck (fernet : Fernet) (value : Bytes) : ℕ :=
  if startsToken value = true ∧ isTimeless value = some false ∧ fernet.decrypt value = none then 1
  else 0

/-- A value and what is in its place afterwards. -/
structure Kept (fernet : Fernet) (old new : Bytes) : Prop where
  decrypt : fernet.decrypt new = fernet.decrypt old
  closed : fernet.decrypt old = none → new = old
  quiet : Quiet fernet new

/-- What a step keeps, and how many values it counts. -/
def Keeps {α : Type} (step : (ℕ → ℕ) → α → Migrates α) (kept : α → α → Prop) (count : α → ℕ) :
    Prop :=
  ∀ draw old p new q, step draw old p = some (new, q) →
    kept old new ∧ q.unreadable = p.unreadable + count new

/-- A row for which a step has nothing to do but to count. -/
def Rests {α : Type} (step : (ℕ → ℕ) → α → Migrates α) (count : α → ℕ) (row : α) : Prop :=
  ∀ draw p, step draw row p = some (row, { p with unreadable := p.unreadable + count row })

variable {fernet : Fernet} {old new : Bytes}

theorem isTimeless_sealed (data : Bytes) (iv : ℕ) :
    isTimeless (fernet.sealed data iv) = some true := by
  rw [isTimeless, Fernet.sealed, Fernet.encryptAtTime, Base64.decode_encode]
  rfl

theorem decrypt_sealed (data : Bytes) (iv : ℕ) :
    fernet.decrypt (fernet.sealed data iv) = some data :=
  fernet.decrypt_encipher data 0 iv

/-- A value that a run leaves alone. -/
theorem kept_refl (h : Quiet fernet old) : Kept fernet old old := ⟨rfl, fun _ ↦ rfl, h⟩

theorem stuck_eq_zero (h : startsToken old = true → isTimeless old = some true) :
    stuck fernet old = 0 := by
  rw [stuck, if_neg]
  rintro ⟨hstarts, htime, -⟩
  rw [h hstarts] at htime
  cases htime

theorem keeps_reseal (fernet : Fernet) :
    Keeps (fun draw ↦ reseal draw fernet) (Kept fernet) (stuck fernet) := by
  intro draw old p new q hstep
  dsimp only [reseal] at hstep
  split_ifs at hstep with hstarts
  · cases htime : isTimeless old with
    | none =>
      rw [htime] at hstep
      cases hstep
    | some timeless =>
      rw [htime] at hstep
      cases timeless with
      | true =>
        cases hstep
        refine ⟨kept_refl fun _ ↦ .inl htime, ?_⟩
        rw [stuck_eq_zero fun _ ↦ htime]
        rfl
      | false =>
        cases hopens : fernet.decrypt old with
        | none =>
          rw [hopens] at hstep
          cases hstep
          refine ⟨kept_refl fun _ ↦ .inr ⟨htime, hopens⟩, ?_⟩
          rw [stuck, if_pos ⟨hstarts, htime, hopens⟩]
        | some data =>
          rw [hopens] at hstep
          cases hstep
          refine ⟨⟨(decrypt_sealed _ _).trans hopens.symm, fun hnone ↦ ?_,
            fun _ ↦ .inl (isTimeless_sealed _ _)⟩, ?_⟩
          · rw [hopens] at hnone
            cases hnone
          · rw [stuck_eq_zero fun _ ↦ isTimeless_sealed _ _]
            rfl
  · cases hstep
    refine ⟨kept_refl fun hyes ↦ absurd hyes hstarts, ?_⟩
    rw [stuck_eq_zero fun hyes ↦ absurd hyes hstarts]
    rfl

theorem rests_reseal (h : Quiet fernet old) :
    Rests (fun draw ↦ reseal draw fernet) (stuck fernet) old := by
  intro draw p
  dsimp only [reseal]
  split_ifs with hstarts
  · rcases h hstarts with htime | ⟨htime, hopens⟩
    · rw [htime, stuck_eq_zero fun _ ↦ htime]
      rfl
    · rw [htime, hopens, stuck, if_pos ⟨hstarts, htime, hopens⟩]
  · rw [stuck_eq_zero fun hyes ↦ absurd hyes hstarts]
    rfl

theorem opened_of_kept (h : Kept fernet old new) :
    opened fernet new = opened fernet old := by
  cases hopens : fernet.decrypt old with
  | none => rw [h.closed hopens]
  | some data => rw [opened, opened, h.decrypt, hopens]

/-! ### Several values -/

def stuckOption (fernet : Fernet) (value : Option Bytes) : ℕ := (value.map (stuck fernet)).getD 0

theorem keeps_resealOption (fernet : Fernet) :
    Keeps (fun draw ↦ resealOption draw fernet) (Option.Rel (Kept fernet))
      (stuckOption fernet) := by
  intro draw old p new q hstep
  cases old with
  | none =>
    cases hstep
    exact ⟨.none, rfl⟩
  | some value =>
    obtain ⟨⟨held, p₁⟩, hvalue, heq⟩ := Option.map_eq_some_iff.mp hstep
    cases heq
    obtain ⟨hkept, hcount⟩ := keeps_reseal fernet draw value p held _ hvalue
    exact ⟨.some hkept, hcount⟩

theorem rests_resealOption {value : Option Bytes} (h : ∀ data ∈ value, Quiet fernet data) :
    Rests (fun draw ↦ resealOption draw fernet) (stuckOption fernet) value := by
  intro draw p
  cases value with
  | none => rfl
  | some data =>
    have hrest := rests_reseal (h data rfl) draw p
    dsimp only [resealOption] at hrest ⊢
    rw [hrest]
    rfl

section Each

variable {α : Type} {step : (ℕ → ℕ) → α → Migrates α} {kept : α → α → Prop} {count : α → ℕ}

theorem keeps_each (h : Keeps step kept count) :
    Keeps (fun draw ↦ each (step draw)) (List.Forall₂ kept) fun rows ↦ (rows.map count).sum := by
  intro draw old
  induction old with
  | nil =>
    intro p new q hstep
    cases hstep
    exact ⟨.nil, rfl⟩
  | cons row rows ih =>
    intro p new q hstep
    dsimp only [each] at hstep
    cases hrow : step draw row p with
    | none =>
      rw [hrow] at hstep
      cases hstep
    | some first =>
      obtain ⟨held, p₁⟩ := first
      rw [hrow] at hstep
      obtain ⟨⟨news, p₂⟩, hrows, heq⟩ := Option.map_eq_some_iff.mp hstep
      cases heq
      obtain ⟨hkept, hcount⟩ := h draw row p held p₁ hrow
      obtain ⟨hkepts, hcounts⟩ := ih p₁ news _ hrows
      refine ⟨.cons hkept hkepts, ?_⟩
      dsimp only at hcounts ⊢
      rw [hcounts, hcount, List.map_cons, List.sum_cons, Nat.add_assoc]

theorem rests_each {rows : List α} (h : ∀ row ∈ rows, Rests step count row) :
    Rests (fun draw ↦ each (step draw)) (fun rows ↦ (rows.map count).sum) rows := by
  induction rows with
  | nil => exact fun draw p ↦ rfl
  | cons row rows ih =>
    intro draw p
    have hrest := ih (fun other hother ↦ h other (List.mem_cons_of_mem _ hother)) draw
      { p with unreadable := p.unreadable + count row }
    dsimp only [each] at hrest ⊢
    rw [h row List.mem_cons_self draw p]
    dsimp only
    rw [hrest, Option.map_some, List.map_cons, List.sum_cons, Nat.add_assoc]

end Each

/-! ### Attachments -/

/-- An attachment whose name is kept. -/
structure KeptName (fernet : Fernet) (old new : Attachment) : Prop where
  encrypted : new.encrypted = old.encrypted
  data : new.data = old.data
  filename : if old.encrypted then Kept fernet old.filename new.filename
    else new.filename = old.filename

/-- An attachment whose bytes are kept. -/
structure KeptData (fernet : Fernet) (old new : Attachment) : Prop where
  encrypted : new.encrypted = old.encrypted
  filename : new.filename = old.filename
  data : if old.encrypted then Option.Rel (Kept fernet) old.data new.data else new.data = old.data

/-- An attachment for which there is nothing left to do. -/
def QuietAttachment (fernet : Fernet) (attachment : Attachment) : Prop :=
  attachment.encrypted = true →
    Quiet fernet attachment.filename ∧ ∀ data ∈ attachment.data, Quiet fernet data

def nameCount (fernet : Fernet) (attachment : Attachment) : ℕ :=
  if attachment.encrypted then stuck fernet attachment.filename else 0

def dataCount (fernet : Fernet) (attachment : Attachment) : ℕ :=
  if attachment.encrypted then stuckOption fernet attachment.data else 0

theorem keeps_resealName (fernet : Fernet) :
    Keeps (fun draw ↦ resealName draw fernet) (KeptName fernet) (nameCount fernet) := by
  intro draw old p new q hstep
  dsimp only [resealName] at hstep
  split_ifs at hstep with hencrypted
  · obtain ⟨⟨held, p₁⟩, hname, heq⟩ := Option.map_eq_some_iff.mp hstep
    cases heq
    obtain ⟨hkept, hcount⟩ := keeps_reseal fernet draw _ p held _ hname
    refine ⟨⟨rfl, rfl, ?_⟩, ?_⟩
    · rw [if_pos hencrypted]
      exact hkept
    · rw [nameCount, if_pos hencrypted]
      exact hcount
  · cases hstep
    refine ⟨⟨rfl, rfl, ?_⟩, ?_⟩
    · rw [if_neg hencrypted]
    · rw [nameCount, if_neg hencrypted]
      rfl

theorem keeps_resealData (fernet : Fernet) :
    Keeps (fun draw ↦ resealData draw fernet) (KeptData fernet) (dataCount fernet) := by
  intro draw old p new q hstep
  dsimp only [resealData] at hstep
  split_ifs at hstep with hencrypted
  · obtain ⟨⟨held, p₁⟩, hdata, heq⟩ := Option.map_eq_some_iff.mp hstep
    cases heq
    obtain ⟨hkept, hcount⟩ := keeps_resealOption fernet draw _ p held _ hdata
    refine ⟨⟨rfl, rfl, ?_⟩, ?_⟩
    · rw [if_pos hencrypted]
      exact hkept
    · rw [dataCount, if_pos hencrypted]
      exact hcount
  · cases hstep
    refine ⟨⟨rfl, rfl, ?_⟩, ?_⟩
    · rw [if_neg hencrypted]
    · rw [dataCount, if_neg hencrypted]
      rfl

theorem rests_resealName {attachment : Attachment} (h : QuietAttachment fernet attachment) :
    Rests (fun draw ↦ resealName draw fernet) (nameCount fernet) attachment := by
  intro draw p
  dsimp only [resealName]
  rw [nameCount]
  split_ifs with hencrypted
  · have hrest := rests_reseal (h hencrypted).1 draw p
    dsimp only at hrest
    rw [hrest]
    rfl
  · rfl

theorem rests_resealData {attachment : Attachment} (h : QuietAttachment fernet attachment) :
    Rests (fun draw ↦ resealData draw fernet) (dataCount fernet) attachment := by
  intro draw p
  dsimp only [resealData]
  rw [dataCount]
  split_ifs with hencrypted
  · have hrest := rests_resealOption (h hencrypted).2 draw p
    dsimp only at hrest
    rw [hrest]
    rfl
  · rfl

theorem map_eq_of_rel {old new : Option Bytes} (h : Option.Rel (Kept fernet) old new) :
    new.map (opened fernet) = old.map (opened fernet) := by
  cases h with
  | none => rfl
  | some hkept => exact congrArg some (opened_of_kept hkept)

theorem quiet_of_rel {old new : Option Bytes} (h : Option.Rel (Kept fernet) old new) :
    ∀ data ∈ new, Quiet fernet data := by
  intro data hdata
  cases h with
  | none => cases hdata
  | some hkept =>
    cases hdata
    exact hkept.quiet

/-- What both passes over the attachments keep. -/
theorem kept_attachment {old named new : Attachment} (hname : KeptName fernet old named)
    (hdata : KeptData fernet named new) :
    showAttachment (opened fernet) new = showAttachment (opened fernet) old ∧
      QuietAttachment fernet new ∧ nameCount fernet named = nameCount fernet new := by
  obtain ⟨hsame, hheld, hfilename⟩ := hname
  obtain ⟨hsame', hfilename', hbytes⟩ := hdata
  have hencrypted : new.encrypted = old.encrypted := hsame'.trans hsame
  refine ⟨?_, fun hyes ↦ ?_, by rw [nameCount, nameCount, hsame', hfilename']⟩
  · rw [showAttachment, showAttachment, hencrypted, hfilename']
    rw [hsame, hheld] at hbytes
    cases hold : old.encrypted with
    | true =>
      rw [hold, if_pos rfl] at hfilename hbytes
      simp only [if_true, opened_of_kept hfilename, map_eq_of_rel hbytes]
    | false =>
      rw [hold, if_neg Bool.false_ne_true] at hfilename hbytes
      rw [hbytes, hfilename]
  · rw [hencrypted] at hyes
    rw [hsame, hyes, if_pos rfl] at hbytes
    rw [hyes, if_pos rfl] at hfilename
    rw [hfilename']
    exact ⟨hfilename.quiet, quiet_of_rel hbytes⟩

theorem kept_attachments {olds nameds news : List Attachment}
    (hnames : List.Forall₂ (KeptName fernet) olds nameds)
    (hdatas : List.Forall₂ (KeptData fernet) nameds news) :
    news.map (showAttachment (opened fernet)) = olds.map (showAttachment (opened fernet)) ∧
      (∀ attachment ∈ news, QuietAttachment fernet attachment) ∧
      (nameds.map (nameCount fernet)).sum = (news.map (nameCount fernet)).sum := by
  induction hnames generalizing news with
  | nil =>
    cases hdatas
    exact ⟨rfl, fun _ hmem ↦ absurd hmem List.not_mem_nil, rfl⟩
  | cons hname _ ih =>
    cases hdatas with
    | cons hdata hdatas =>
      obtain ⟨hshown, hquiet, hcount⟩ := kept_attachment hname hdata
      obtain ⟨hshowns, hquiets, hcounts⟩ := ih hdatas
      refine ⟨?_, fun attachment hmem ↦ ?_, ?_⟩
      · rw [List.map_cons, List.map_cons, hshown, hshowns]
      · rcases List.mem_cons.mp hmem with rfl | hmem
        · exact hquiet
        · exact hquiets attachment hmem
      · rw [List.map_cons, List.map_cons, List.sum_cons, List.sum_cons, hcount, hcounts]

/-! ### What is under the key of a report -/

theorem map_eq_of_kept {olds news : List Bytes} (h : List.Forall₂ (Kept fernet) olds news) :
    news.map (opened fernet) = olds.map (opened fernet) ∧
      ∀ value ∈ news, Quiet fernet value := by
  induction h with
  | nil => exact ⟨rfl, fun _ hmem ↦ absurd hmem List.not_mem_nil⟩
  | cons hkept _ ih =>
    refine ⟨?_, fun value hmem ↦ ?_⟩
    · rw [List.map_cons, List.map_cons, opened_of_kept hkept, ih.1]
    · rcases List.mem_cons.mp hmem with rfl | hmem
      · exact hkept.quiet
      · exact ih.2 value hmem

structure QuietContent (fernet : Fernet) (report : Report) : Prop where
  description : Quiet fernet report.description
  messages : ∀ value ∈ report.messages, Quiet fernet value
  notes : ∀ value ∈ report.notes, Quiet fernet value
  attachments : ∀ attachment ∈ report.attachments, QuietAttachment fernet attachment

def contentCount (fernet : Fernet) (report : Report) : ℕ :=
  stuck fernet report.description + (report.messages.map (stuck fernet)).sum +
    (report.notes.map (stuck fernet)).sum + (report.attachments.map (nameCount fernet)).sum +
    (report.attachments.map (dataCount fernet)).sum

/-- The content of a report is kept, and nothing else is touched. -/
structure KeptContent (fernet : Fernet) (old new : Report) : Prop where
  encryptedDek : new.encryptedDek = old.encryptedDek
  confidentialName : new.confidentialName = old.confidentialName
  confidentialContact : new.confidentialContact = old.confidentialContact
  secureEmail : new.secureEmail = old.secureEmail
  shown : showContent (opened fernet) new = showContent (opened fernet) old
  quiet : QuietContent fernet new

theorem keeps_resealContent (fernet : Fernet) :
    Keeps (fun draw ↦ resealContent draw fernet) (KeptContent fernet) (contentCount fernet) := by
  intro draw old p new q hstep
  dsimp only [resealContent] at hstep
  cases hdescription : reseal draw fernet old.description p with
  | none =>
    rw [hdescription] at hstep
    cases hstep
  | some first =>
    obtain ⟨description, p₁⟩ := first
    rw [hdescription] at hstep
    dsimp only at hstep
    cases hmessages : each (reseal draw fernet) old.messages p₁ with
    | none =>
      rw [hmessages] at hstep
      cases hstep
    | some second =>
      obtain ⟨messages, p₂⟩ := second
      rw [hmessages] at hstep
      dsimp only at hstep
      cases hnotes : each (reseal draw fernet) old.notes p₂ with
      | none =>
        rw [hnotes] at hstep
        cases hstep
      | some third =>
        obtain ⟨notes, p₃⟩ := third
        rw [hnotes] at hstep
        dsimp only at hstep
        cases hnames : each (resealName draw fernet) old.attachments p₃ with
        | none =>
          rw [hnames] at hstep
          cases hstep
        | some fourth =>
          obtain ⟨named, p₄⟩ := fourth
          rw [hnames] at hstep
          obtain ⟨⟨attachments, p₅⟩, hdatas, heq⟩ := Option.map_eq_some_iff.mp hstep
          cases heq
          obtain ⟨hkept₁, hcount₁⟩ := keeps_reseal fernet draw _ _ _ _ hdescription
          obtain ⟨hkept₂, hcount₂⟩ := keeps_each (keeps_reseal fernet) draw _ _ _ _ hmessages
          obtain ⟨hkept₃, hcount₃⟩ := keeps_each (keeps_reseal fernet) draw _ _ _ _ hnotes
          obtain ⟨hkept₄, hcount₄⟩ := keeps_each (keeps_resealName fernet) draw _ _ _ _ hnames
          obtain ⟨hkept₅, hcount₅⟩ := keeps_each (keeps_resealData fernet) draw _ _ _ _ hdatas
          obtain ⟨hshown₂, hquiet₂⟩ := map_eq_of_kept hkept₂
          obtain ⟨hshown₃, hquiet₃⟩ := map_eq_of_kept hkept₃
          obtain ⟨hshown₅, hquiet₅, hsame⟩ := kept_attachments hkept₄ hkept₅
          refine ⟨⟨rfl, rfl, rfl, rfl, ?_, ⟨hkept₁.quiet, hquiet₂, hquiet₃, hquiet₅⟩⟩, ?_⟩
          · dsimp only [showContent]
            rw [opened_of_kept hkept₁, hshown₂, hshown₃, hshown₅]
          · dsimp only [contentCount] at hcount₂ hcount₃ hcount₄ hcount₅ ⊢
            omega

theorem rests_resealContent {report : Report} (h : QuietContent fernet report) :
    Rests (fun draw ↦ resealContent draw fernet) (contentCount fernet) report := by
  intro draw p
  have hdescription := fun p ↦ rests_reseal h.description draw p
  have hmessages := fun p ↦
    rests_each (fun value hmem ↦ rests_reseal (h.messages value hmem)) draw p
  have hnotes := fun p ↦ rests_each (fun value hmem ↦ rests_reseal (h.notes value hmem)) draw p
  have hnames := fun p ↦
    rests_each (fun row hmem ↦ rests_resealName (h.attachments row hmem)) draw p
  have hdatas := fun p ↦
    rests_each (fun row hmem ↦ rests_resealData (h.attachments row hmem)) draw p
  dsimp only at hdescription hmessages hnotes hnames hdatas
  dsimp only [resealContent, contentCount]
  rw [hdescription]
  dsimp only
  rw [hmessages]
  dsimp only
  rw [hnotes]
  dsimp only
  rw [hnames]
  dsimp only
  rw [hdatas, Option.map_some]
  simp only [Nat.add_assoc]

/-! ### A report -/

def reporterCount (inst : Instance) (report : Report) : ℕ :=
  stuckOption inst.root report.confidentialName + stuckOption inst.root report.confidentialContact +
    stuckOption inst.root report.secureEmail

structure QuietReporter (inst : Instance) (report : Report) : Prop where
  name : ∀ value ∈ report.confidentialName, Quiet inst.root value
  contact : ∀ value ∈ report.confidentialContact, Quiet inst.root value
  email : ∀ value ∈ report.secureEmail, Quiet inst.root value

structure KeptReporter (inst : Instance) (old new : Report) : Prop where
  name : new.confidentialName.map (opened inst.root) = old.confidentialName.map (opened inst.root)
  contact : new.confidentialContact.map (opened inst.root) =
    old.confidentialContact.map (opened inst.root)
  email : new.secureEmail.map (opened inst.root) = old.secureEmail.map (opened inst.root)
  quiet : QuietReporter inst new
  encryptedDek : new.encryptedDek = old.encryptedDek
  shown : ∀ read, showContent read new = showContent read old

theorem keeps_resealReporter (inst : Instance) :
    Keeps (fun draw ↦ resealReporter draw inst) (KeptReporter inst) (reporterCount inst) := by
  intro draw old p new q hstep
  dsimp only [resealReporter] at hstep
  cases hname : resealOption draw inst.root old.confidentialName p with
  | none =>
    rw [hname] at hstep
    cases hstep
  | some first =>
    obtain ⟨name, p₁⟩ := first
    rw [hname] at hstep
    dsimp only at hstep
    cases hcontact : resealOption draw inst.root old.confidentialContact p₁ with
    | none =>
      rw [hcontact] at hstep
      cases hstep
    | some second =>
      obtain ⟨contact, p₂⟩ := second
      rw [hcontact] at hstep
      obtain ⟨⟨email, p₃⟩, hemail, heq⟩ := Option.map_eq_some_iff.mp hstep
      cases heq
      obtain ⟨hkept₁, hcount₁⟩ := keeps_resealOption inst.root draw _ _ _ _ hname
      obtain ⟨hkept₂, hcount₂⟩ := keeps_resealOption inst.root draw _ _ _ _ hcontact
      obtain ⟨hkept₃, hcount₃⟩ := keeps_resealOption inst.root draw _ _ _ _ hemail
      refine ⟨⟨map_eq_of_rel hkept₁, map_eq_of_rel hkept₂, map_eq_of_rel hkept₃,
        ⟨quiet_of_rel hkept₁, quiet_of_rel hkept₂, quiet_of_rel hkept₃⟩, rfl, fun _ ↦ rfl⟩, ?_⟩
      dsimp only [reporterCount]
      omega

theorem rests_resealReporter {inst : Instance} {report : Report} (h : QuietReporter inst report) :
    Rests (fun draw ↦ resealReporter draw inst) (reporterCount inst) report := by
  intro draw p
  have hname := fun p ↦ rests_resealOption h.name draw p
  have hcontact := fun p ↦ rests_resealOption h.contact draw p
  have hemail := fun p ↦ rests_resealOption h.email draw p
  dsimp only at hname hcontact hemail
  dsimp only [resealReporter, reporterCount]
  rw [hname]
  dsimp only
  rw [hcontact]
  dsimp only
  rw [hemail, Option.map_some]
  simp only [Nat.add_assoc]

/-- What is counted at a report: a wrapped key that does not open counts for its content. -/
def reportCount (inst : Instance) (report : Report) : ℕ :=
  reporterCount inst report +
    match inst.mek.decrypt report.encryptedDek with
    | none => 1
    | some dek =>
      match inst.report dek with
      | none => 0
      | some fernet => contentCount fernet report + stuck inst.mek report.encryptedDek

/-- Nothing of a report that can be read has a time: every value is no token, a token of time 0, or
a token that does not open. What is under a key that does not open is left alone. -/
structure QuietReport (inst : Instance) (report : Report) : Prop where
  reporter : QuietReporter inst report
  content : ∀ dek, inst.mek.decrypt report.encryptedDek = some dek →
    Quiet inst.mek report.encryptedDek ∧
      ∃ fernet, inst.report dek = some fernet ∧ QuietContent fernet report

structure KeptReport (inst : Instance) (old new : Report) : Prop where
  reading : reading inst new = reading inst old
  quiet : QuietReport inst new

theorem keeps_resealReport (inst : Instance) :
    Keeps (fun draw ↦ resealReport draw inst) (KeptReport inst) (reportCount inst) := by
  intro draw old p new q hstep
  dsimp only [resealReport] at hstep
  cases hreporter : resealReporter draw inst old p with
  | none =>
    rw [hreporter] at hstep
    cases hstep
  | some first =>
    obtain ⟨mid, p₁⟩ := first
    rw [hreporter] at hstep
    dsimp only at hstep
    obtain ⟨hkept, hcount⟩ := keeps_resealReporter inst draw _ _ _ _ hreporter
    cases hopens : inst.mek.decrypt mid.encryptedDek with
    | none =>
      rw [hopens] at hstep
      cases hstep
      refine ⟨⟨?_, hkept.quiet, fun dek hdek ↦ ?_⟩, ?_⟩
      · rw [reading, reading, hkept.name, hkept.contact, hkept.email, hkept.encryptedDek,
          hkept.shown]
      · rw [hopens] at hdek
        cases hdek
      · dsimp only [reportCount]
        rw [hopens, hcount]
        rfl
    | some dek =>
      rw [hopens] at hstep
      dsimp only at hstep
      cases hkey : inst.report dek with
      | none =>
        rw [hkey] at hstep
        cases hstep
      | some fernet =>
        rw [hkey] at hstep
        dsimp only at hstep
        cases hcontent : resealContent draw fernet mid p₁ with
        | none =>
          rw [hcontent] at hstep
          cases hstep
        | some second =>
          obtain ⟨last, p₂⟩ := second
          rw [hcontent] at hstep
          obtain ⟨⟨token, p₃⟩, htoken, heq⟩ := Option.map_eq_some_iff.mp hstep
          cases heq
          obtain ⟨hkept', hcount'⟩ := keeps_resealContent fernet draw _ _ _ _ hcontent
          obtain ⟨hdek, hcountDek⟩ := keeps_reseal inst.mek draw _ _ _ _ htoken
          have hopens' : inst.mek.decrypt token = some dek := by
            rw [hdek.decrypt, hkept'.encryptedDek, hopens]
          have hold : inst.mek.decrypt old.encryptedDek = some dek := hkept.encryptedDek ▸ hopens
          refine ⟨⟨?_, ⟨?_, ?_, ?_⟩, fun other hother ↦ ?_⟩, ?_⟩
          · have hreader : ∀ wrapped, inst.mek.decrypt wrapped = some dek →
                reader inst wrapped = opened fernet := by
              intro wrapped hwrapped
              rw [reader, hwrapped, Option.bind_some, hkey]
            have hwrapped : opened inst.mek token = opened inst.mek old.encryptedDek := by
              rw [opened_of_kept hdek, hkept'.encryptedDek, hkept.encryptedDek]
            dsimp only [reading]
            rw [hkept'.confidentialName, hkept'.confidentialContact, hkept'.secureEmail, hkept.name,
              hkept.contact, hkept.email, hwrapped, hreader token hopens',
              hreader old.encryptedDek hold]
            exact congrArg _ (hkept'.shown.trans (hkept.shown _))
          · exact hkept'.confidentialName ▸ hkept.quiet.name
          · exact hkept'.confidentialContact ▸ hkept.quiet.contact
          · exact hkept'.secureEmail ▸ hkept.quiet.email
          · have hsame : other = dek := Option.some.inj (hother.symm.trans hopens')
            subst hsame
            exact ⟨hdek.quiet, fernet, hkey, hkept'.quiet.description, hkept'.quiet.messages,
              hkept'.quiet.notes, hkept'.quiet.attachments⟩
          · dsimp only [reportCount, reporterCount] at hcount ⊢
            rw [hopens', hkept'.confidentialName, hkept'.confidentialContact, hkept'.secureEmail]
            dsimp only
            rw [hkey, hcountDek, hcount', hcount]
            simp only [Nat.add_assoc]
            rfl

theorem rests_resealReport {inst : Instance} {report : Report} (h : QuietReport inst report) :
    Rests (fun draw ↦ resealReport draw inst) (reportCount inst) report := by
  intro draw p
  have hreporter := fun p ↦ rests_resealReporter h.reporter draw p
  dsimp only at hreporter
  dsimp only [resealReport, reportCount]
  rw [hreporter]
  dsimp only
  cases hopens : inst.mek.decrypt report.encryptedDek with
  | none => simp only [Nat.add_assoc]
  | some dek =>
    obtain ⟨hquiet, fernet, hkey, hcontent⟩ := h.content dek hopens
    have hrest := fun p ↦ rests_resealContent hcontent draw p
    have hdek := fun p ↦ rests_reseal hquiet draw p
    dsimp only at hrest hdek
    dsimp only
    rw [hkey]
    dsimp only
    rw [hrest]
    dsimp only
    rw [hdek, Option.map_some]
    simp only [Nat.add_assoc]

/-! ### All reports -/

/-- The migration keeps everything that a report holds; afterwards no token that opens has a time; the
number that it logs is that of the tokens that have one and do not open, with the wrapped keys that
do not; and a second run changes nothing and logs the same. -/
theorem upgrade_keeps {inst : Instance} {draw : ℕ → ℕ} {reports after : List Report} {n : ℕ}
    (hrun : upgrade draw inst reports = some (after, n)) :
    after.map (reading inst) = reports.map (reading inst) ∧
      (∀ report ∈ after, QuietReport inst report) ∧
      n = (after.map (reportCount inst)).sum ∧
      ∀ draw', upgrade draw' inst after = some (after, n) := by
  obtain ⟨⟨news, q⟩, heach, heq⟩ := Option.map_eq_some_iff.mp hrun
  cases heq
  obtain ⟨hkept, hcount⟩ := keeps_each (keeps_resealReport inst) draw _ _ _ _ heach
  have hboth : after.map (reading inst) = reports.map (reading inst) ∧
      ∀ report ∈ after, QuietReport inst report := by
    clear hrun heach hcount
    induction hkept with
    | nil => exact ⟨rfl, fun _ hmem ↦ absurd hmem List.not_mem_nil⟩
    | cons hfirst _ ih =>
      refine ⟨?_, fun report hmem ↦ ?_⟩
      · rw [List.map_cons, List.map_cons, hfirst.reading, ih.1]
      · rcases List.mem_cons.mp hmem with rfl | hmem
        · exact hfirst.quiet
        · exact ih.2 report hmem
  refine ⟨hboth.1, hboth.2, hcount.trans (Nat.zero_add _), fun draw' ↦ ?_⟩
  have hrest := rests_each (fun report hmem ↦ rests_resealReport (hboth.2 report hmem)) draw' ⟨0, 0⟩
  dsimp only at hrest
  rw [upgrade, hrest, hcount]
  rfl

/-! ### An old report -/

/-- A key that hides nothing, and marks what it has sealed with a number. -/
def marked (mark : UInt8) : Fernet where
  encipher data _ _ := mark :: data
  decrypt value := (Base64.decode value).bind fun bytes ↦
    if bytes.head? = some 0x80 ∧ (bytes.drop 9).head? = some mark then some (bytes.drop 10)
    else none
  decrypt_encipher data time iv := by
    have hlength : (Bytes.toBig 8 time).length = 8 := Bytes.length_toBig 8 time
    have hdrop : (0x80 :: Bytes.toBig 8 time ++ mark :: data).drop 9 = mark :: data := by
      rw [List.cons_append, List.drop_succ_cons, List.drop_left' hlength]
    have hdrop' : (0x80 :: Bytes.toBig 8 time ++ mark :: data).drop 10 = data := by
      rw [show 10 = 9 + 1 from rfl, ← List.drop_drop, hdrop]
      rfl
    rw [Base64.decode_encode, Option.bind_some, hdrop, hdrop', if_pos ⟨rfl, rfl⟩]

/-- Keys of their own for the reports, the fields and the wrapped keys. -/
def threeKeys : Instance where
  mek := marked 1
  root := marked 2
  report dek := if dek = [9] then some (marked 3) else none

/-- A report with tokens of some time, a text from before there was encryption, a token of another
key, and an attachment that is not encrypted. -/
def oldReport : Report where
  encryptedDek := (marked 1).encryptAtTime [9] 1700000000 0
  confidentialName := some ((marked 2).encryptAtTime [65] 1700000000 0)
  confidentialContact := none
  secureEmail := none
  description := [72, 105]
  messages :=
    [(marked 3).encryptAtTime [66] 1700000000 0, (marked 4).encryptAtTime [67] 1700000000 0]
  notes := [(marked 3).encryptAtTime [68] 0 0]
  attachments := [⟨true, (marked 3).encryptAtTime [69] 1700000000 0,
    some ((marked 3).encryptAtTime [70] 1700000000 0)⟩, ⟨false, [71], some [1, 2]⟩]

theorem upgrade_keeps_of_one : ∃ after, upgrade id threeKeys [oldReport] = some (after, 1) ∧
    after ≠ [oldReport] ∧ after.map (reading threeKeys) = [reading threeKeys oldReport] ∧
    ∀ draw', upgrade draw' threeKeys after = some (after, 1) := by
  have hnumber : (upgrade id threeKeys [oldReport]).map Prod.snd = some 1 := by decide +kernel
  obtain ⟨⟨after, n⟩, hrun, hn⟩ := Option.map_eq_some_iff.mp hnumber
  cases hn
  have hkeeps := upgrade_keeps hrun
  refine ⟨after, hrun, fun hsame ↦ ?_, hkeeps.1, hkeeps.2.2.2⟩
  have hfirst : (upgrade id threeKeys [oldReport]).map Prod.fst ≠ some [oldReport] := by
    decide +kernel
  rw [hrun] at hfirst
  exact hfirst (congrArg some hsame)

end OpenWhistle.Keys.Reseal
