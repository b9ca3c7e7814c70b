import Mathlib.Data.List.Basic
import OpenWhistle.Audit.Trail
import OpenWhistle.Foundation.Csv
import OpenWhistle.Foundation.JsonUnicode

/-!
# The export of the audit trail

The rows that an admin may see become a text of comma-separated values. A cell that a spreadsheet
would take for a formula gets an apostrophe in front. The details of an entry are one cell: an
object of texts, or a text that is no object as it is.

Whatever stands in the entries, a reader of the format finds a header and one record for each of
them, with its six cells; no cell starts a formula; and the cell of the details reads as an object
again where it was one. That it was taken is recorded with the number of rows.
-/

set_option autoImplicit false
set_option relaxedAutoImplicit false

namespace OpenWhistle.Audit

open Access Accounts

/-! ### The cells -/

/-- What the export takes of texts, times and keys. -/
structure Writer where
  isoformat : (time : ℕ) → String
  /-- The text of a UUID. -/
  uuidText : (id : ℕ) → String
  /-- `str` of a list or an object. -/
  shown : (value : Json) → String
  /-- `decrypt_or_none`. -/
  decrypt : (token : String) → Option String
  /-- The translator. -/
  t : (key : String) → String

/-- The first letters of a formula. -/
def formulaStarts : List Char := ['=', '+', '-', '@', '\t', '\r']

/-- `_csv_cell`. -/
def csvCell : Csv.Field → Csv.Field
  | [] => []
  | c :: value => if c ∈ formulaStarts then '\'' :: c :: value else c :: value

/-- `str` of a value. -/
def str (writer : Writer) : Json → String
  | .str s => s
  | .int n => String.ofList (Json.renderInt n)
  | .bool b => if b then "True" else "False"
  | .null => "None"
  | value => writer.shown value

def encryptedDetailKeys : List String := ["reason", "term"]

def reasonUnreadable : String := "audit.detail.reason_unreadable"

/-- `_detail_value`, decrypting. -/
def detailValue (writer : Writer) (key : String) (value : Json) : String :=
  match value with
  | .null => "—"
  | value =>
    let text := str writer value
    if key ∈ encryptedDetailKeys ∧ "gAAAAA".toList <+: text.toList then
      match writer.decrypt text with
      | some plain => if plain = "" then reasonUnreadable else plain
      | none => reasonUnreadable
    else text

/-- `_csv_detail_value`. -/
def csvDetailValue (writer : Writer) (key value : String) : String :=
  if value = reasonUnreadable then writer.t value
  else if key = "via" ∧ writer.t ("audit.detail.via." ++ value) ≠ "audit.detail.via." ++ value then
    writer.t ("audit.detail.via." ++ value)
  else value

/-- A key of a `dict`: in its place where it is there, else at the end. -/
def putText (items : List (String × String)) (key value : String) : List (String × String) :=
  if items.any fun item ↦ decide (item.1 = key) then
    items.map fun item ↦ if item.1 = key then (key, value) else item
  else items ++ [(key, value)]

/-- The pairs of the details, as the export shows them. -/
def detailTexts (writer : Writer) (items : List (String × Json)) : List (String × String) :=
  items.foldl
    (fun texts item ↦
      putText texts item.1 (csvDetailValue writer item.1 (detailValue writer item.1 item.2))) []

/-- `_csv_detail`. -/
def csvDetail (writer : Writer) (raw : Option String) : String :=
  match Json.loads (raw.getD "") with
  | some (.dict items) => Json.dumpsTexts (detailTexts writer items)
  | _ => raw.getD ""

def label (writer : Writer) (action : String) : String :=
  if writer.t ("audit.action." ++ action) = "audit.action." ++ action then action
  else writer.t ("audit.action." ++ action)

def header : Csv.Row :=
  ["timestamp", "admin", "action", "action_label", "report_id", "detail"].map String.toList

/-- The six texts of an entry. -/
def texts (writer : Writer) (entry : AuditLog) : List String :=
  [writer.isoformat entry.createdAt, entry.adminUsername, entry.action, label writer entry.action,
    (entry.reportId.map writer.uuidText).getD "", csvDetail writer entry.detail]

def record (writer : Writer) (entry : AuditLog) : Csv.Row :=
  (texts writer entry).map fun text ↦ csvCell text.toList

/-- `audit_log_csv`: the text, after the export is recorded. -/
def auditLogCsv (site : Site) (writer : Writer) (draw : Draw) (user : AdminUser) (query : Query)
    (db : Trail) : Option (Trail × List Char) :=
  let filters := auditFilters site db query
  let entries := exported site db user query
  let named := [("action", filters.action), ("report_id", filters.reportId.map writer.uuidText)]
  let detail := ("rows", Json.int entries.length) :: named.filterMap fun item ↦
    item.2.map fun value ↦ (item.1, .str value)
  (log draw user "audit.exported" none detail none db).map fun next ↦
    (next, Csv.write (header :: entries.map (record writer)))

/-! ### Each cell -/

variable {writer : Writer}

/-- A cell that a spreadsheet does not take for a formula. -/
def Harmless (cell : Csv.Field) : Prop := ∀ c ∈ cell.head?, c ∉ formulaStarts

theorem harmless_csvCell (value : Csv.Field) : Harmless (csvCell value) := by
  intro c hc
  cases value with
  | nil => cases hc
  | cons first value =>
    rw [csvCell] at hc
    split_ifs at hc with hstarts
    · cases hc
      decide
    · cases hc
      exact hstarts

theorem harmless_header : ∀ cell ∈ header, Harmless cell := by
  have hheads : header.map List.head? =
      [some 't', some 'a', some 'a', some 'a', some 'r', some 'd'] := rfl
  intro cell hcell c hc
  have hmem : cell.head? ∈ header.map List.head? := List.mem_map_of_mem hcell
  rw [hheads, Option.mem_def.mp hc] at hmem
  simp only [List.mem_cons, Option.some.injEq, List.not_mem_nil, or_false] at hmem
  rcases hmem with rfl | rfl | rfl | rfl | rfl | rfl <;> decide

/-- The text itself, with an apostrophe in front where it would start a formula. -/
theorem csvCell_cases (value : Csv.Field) :
    Harmless value ∧ csvCell value = value ∨ ¬Harmless value ∧ csvCell value = '\'' :: value := by
  cases value with
  | nil =>
    left
    exact ⟨fun c hc ↦ (by cases hc), rfl⟩
  | cons first value =>
    rw [csvCell]
    split_ifs with hstarts
    · right
      exact ⟨fun h ↦ h first rfl hstarts, rfl⟩
    · left
      refine ⟨fun c hc ↦ ?_, rfl⟩
      cases hc
      exact hstarts

/-- The cell of the details of an object reads as an object of its texts. -/
theorem loads_csvDetail {raw : String} {items : List (String × Json)}
    (hraw : Json.loads raw = some (.dict items)) :
    Json.loads (csvDetail writer (some raw)) =
      some (.dict ((detailTexts writer items).map fun item ↦ (item.1, .str item.2))) := by
  rw [csvDetail, Option.getD_some, hraw]
  exact Json.loads_dumpsTexts _

theorem csvDetail_of_not_object {raw : Option String}
    (hraw : ∀ items, Json.loads (raw.getD "") ≠ some (.dict items)) :
    csvDetail writer raw = raw.getD "" := by
  unfold csvDetail
  split
  · exact absurd ‹_› (hraw _)
  · rfl

/-! ### The whole text -/

/-- What an export says of some entries, and how. -/
structure Says (writer : Writer) (entries : List AuditLog) (text : List Char) : Prop where
  /-- A reader finds the header and a record for each entry. -/
  read : Csv.read text = header :: entries.map (record writer)
  harmless : ∀ row ∈ Csv.read text, ∀ cell ∈ row, Harmless cell
  /-- The cells of an entry are its texts, some with an apostrophe in front. -/
  cells : ∀ entry ∈ entries, List.Forall₂
    (fun (text : String) cell ↦
      cell = text.toList ∨ ¬Harmless text.toList ∧ cell = '\'' :: text.toList)
    (texts writer entry) (record writer entry)
  /-- An object among the details reads as one. -/
  objects : ∀ entry ∈ entries, ∀ raw ∈ entry.detail, ∀ items, Json.loads raw = some (.dict items) →
    Json.loads (csvDetail writer entry.detail) =
      some (.dict ((detailTexts writer items).map fun item ↦ (item.1, .str item.2)))
  /-- Details that are no object stay as they are. -/
  others : ∀ entry ∈ entries, (∀ items, Json.loads (entry.detail.getD "") ≠ some (.dict items)) →
    csvDetail writer entry.detail = entry.detail.getD ""

theorem says_write (entries : List AuditLog) :
    Says writer entries (Csv.write (header :: entries.map (record writer))) := by
  have hread : Csv.read (Csv.write (header :: entries.map (record writer))) =
      header :: entries.map (record writer) := by
    refine Csv.read_write fun row hrow ↦ ?_
    rcases List.mem_cons.mp hrow with rfl | hrow
    · exact List.cons_ne_nil _ _
    · obtain ⟨entry, -, rfl⟩ := List.mem_map.mp hrow
      exact List.cons_ne_nil _ _
  refine ⟨hread, fun row hrow cell hcell ↦ ?_, fun entry _ ↦ ?_,
    fun entry _ raw hraw items hitems ↦ ?_, fun entry _ hraw ↦ csvDetail_of_not_object hraw⟩
  · rw [hread] at hrow
    rcases List.mem_cons.mp hrow with rfl | hrow
    · exact harmless_header cell hcell
    · obtain ⟨entry, -, rfl⟩ := List.mem_map.mp hrow
      obtain ⟨text, -, rfl⟩ := List.mem_map.mp hcell
      exact harmless_csvCell _
  · refine List.forall₂_map_right_iff.mpr (List.forall₂_same.mpr fun text _ ↦ ?_)
    rcases csvCell_cases text.toList with ⟨-, hcell⟩ | ⟨hstarts, hcell⟩
    · exact .inl hcell
    · exact .inr ⟨hstarts, hcell⟩
  · rw [Option.mem_def.mp hraw]
    exact loads_csvDetail hitems

/-- At any time, the export of an admin says exactly the entries of the admin's listing, in a text
that reads back as a record each, and is recorded with their number. -/
theorem export_of_run {events : List Event} {db next : Trail} {text : List Char}
    (hrun : Machine.run step Trail.empty events = some db) {site : Site} {draw : Draw}
    {user : AdminUser} {query : Query}
    (hexport : auditLogCsv site writer draw user query db = some (next, text)) :
    Says writer (exported site db user query) text ∧
      Sound next ∧ next.reports = db.reports ∧
      ∃ entry, next.entries = entry :: db.entries ∧ entry.adminId = some user.id ∧
        entry.action = "audit.exported" ∧ entry.orgId = user.orgId ∧
        ∃ items raw, entry.detail = some raw ∧ Json.loads raw = some (.dict items) ∧
          items.head? = some ("rows", .int (exported site db user query).length) := by
  obtain ⟨after, hlog, heq⟩ := Option.map_eq_some_iff.mp hexport
  obtain ⟨rfl, rfl⟩ := Prod.mk.inj heq
  have hsound : Sound after :=
    sound_insert (sound_of_run hrun) (fun id hid ↦ by cases hid) hlog
  refine ⟨says_write _, hsound, ?_⟩
  rw [log, Trail.insert] at hlog
  split_ifs at hlog with hrefused
  cases hlog
  refine ⟨rfl, _, rfl, rfl, rfl, rfl, _, _, rfl, Json.loads_dumps _, rfl⟩

/-- Texts as they are, numbers in digits, and nothing that can be decrypted. -/
def plainWriter : Writer where
  isoformat time := toString time
  uuidText id := toString id
  shown _ := ""
  decrypt _ := none
  t key := key

/-- An account whose name a spreadsheet would take for a formula. -/
def formulaName : AdminUser := { adminOf 1 with username := "=1+1" }

/-- A note of that account, with a comma and quotes in its details. -/
def threeActions : List Event := twoActions ++
  [.log ⟨13, 7⟩ formulaName "report.note_added" (some 1) [("text", .str "a, \"b\"")] none]

theorem export_of_run_of_two : ∃ db next text,
    Machine.run step Trail.empty threeActions = some db ∧
    auditLogCsv twoTenants plainWriter ⟨14, 8⟩ (adminOf 1) ⟨"", "", ""⟩ db = some (next, text) ∧
    (exported twoTenants db (adminOf 1) ⟨"", "", ""⟩).length = 2 ∧
    Says plainWriter (exported twoTenants db (adminOf 1) ⟨"", "", ""⟩) text := by
  obtain ⟨⟨next, text⟩, hboth⟩ := Option.isSome_iff_exists.mp
    (show ((Machine.run step Trail.empty threeActions).bind fun db ↦
      auditLogCsv twoTenants plainWriter ⟨14, 8⟩ (adminOf 1) ⟨"", "", ""⟩ db).isSome = true by
        decide +kernel)
  obtain ⟨db, hrun, hexport⟩ := Option.bind_eq_some_iff.mp hboth
  have hlength : (Machine.run step Trail.empty threeActions).map (fun db ↦
      (db.entries.filter (selects (auditFilters twoTenants db ⟨"", "", ""⟩)
        (orgScope true (adminOf 1)) 1)).length) = some 2 := by
    decide +kernel
  rw [hrun] at hlength
  exact ⟨db, next, text, hrun, hexport, (List.length_mergeSort _).trans (Option.some.inj hlength),
    (export_of_run hrun hexport).1⟩

end OpenWhistle.Audit
