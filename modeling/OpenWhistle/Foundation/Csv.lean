import Mathlib.Data.List.Basic
import Mathlib.Tactic.SplitIfs

/-!
# Comma-separated values

Rows of fields as a text, in the dialect of spreadsheets: a field that has a comma, a quote or a
line break in it stands in quotes, with its quotes doubled, and a row ends with a carriage return
and a line feed. A row of one empty field is written as a pair of quotes, since an empty line is no
row.

A reader goes through the text a character at a time. What was written is read back as it was: the
proof follows a field through the reader, then a row, then the rows.
-/

set_option autoImplicit false
set_option relaxedAutoImplicit false

namespace Csv

abbrev Field := List Char

abbrev Row := List Field

/-! ### Writing -/

/-- Characters for which a field stands in quotes. -/
def special (c : Char) : Bool := c = ',' || c = '"' || c = '\n' || c = '\r'

def doubled (c : Char) : List Char := if c = '"' then ['"', '"'] else [c]

def quoted (field : Field) : List Char := '"' :: field.flatMap doubled ++ ['"']

/-- A field where only what needs quotes has them. -/
def writeField (field : Field) : List Char :=
  if field.any special then quoted field else field

def writeFields : Row → List Char
  | [] => []
  | [field] => writeField field
  | field :: next :: fields => writeField field ++ ',' :: writeFields (next :: fields)

/-- `writer.writerow`. -/
def writerow (row : Row) : List Char :=
  (if row = [[]] then ['"', '"'] else writeFields row) ++ ['\r', '\n']

def write (rows : List Row) : List Char := rows.flatMap writerow

/-! ### Reading -/

/-- Where the reader is. -/
inductive Mode
  | startRecord
  /-- Behind the carriage return that ended a row. -/
  | eatLine
  | startField
  | inField
  | inQuoted
  /-- Behind a quote inside quotes: the end of the field, or the first of two. -/
  | quoteInQuoted

/-- Reads the rest of a text, with the field and the fields of the row so far. -/
def readRest : Mode → Field → Row → List Char → List Row
  | .startRecord, _, _, [] => []
  | .eatLine, _, _, [] => []
  | .startField, field, fields, [] => [fields ++ [field]]
  | .inField, field, fields, [] => [fields ++ [field]]
  | .inQuoted, field, fields, [] => [fields ++ [field]]
  | .quoteInQuoted, field, fields, [] => [fields ++ [field]]
  | .inQuoted, field, fields, c :: text =>
    if c = '"' then readRest .quoteInQuoted field fields text
    else readRest .inQuoted (field ++ [c]) fields text
  | .quoteInQuoted, field, fields, c :: text =>
    if c = '"' then readRest .inQuoted (field ++ [c]) fields text
    else if c = ',' then readRest .startField [] (fields ++ [field]) text
    else if c = '\r' then (fields ++ [field]) :: readRest .eatLine [] [] text
    else if c = '\n' then (fields ++ [field]) :: readRest .startRecord [] [] text
    else readRest .inField (field ++ [c]) fields text
  | .inField, field, fields, c :: text =>
    if c = ',' then readRest .startField [] (fields ++ [field]) text
    else if c = '\r' then (fields ++ [field]) :: readRest .eatLine [] [] text
    else if c = '\n' then (fields ++ [field]) :: readRest .startRecord [] [] text
    else readRest .inField (field ++ [c]) fields text
  | .startField, field, fields, c :: text =>
    if c = '"' then readRest .inQuoted field fields text
    else if c = ',' then readRest .startField [] (fields ++ [field]) text
    else if c = '\r' then (fields ++ [field]) :: readRest .eatLine [] [] text
    else if c = '\n' then (fields ++ [field]) :: readRest .startRecord [] [] text
    else readRest .inField (field ++ [c]) fields text
  | .eatLine, field, fields, c :: text =>
    if c = '\n' then readRest .startRecord field fields text
    else if c = '\r' then [] :: readRest .eatLine [] [] text
    else if c = '"' then readRest .inQuoted [] [] text
    else if c = ',' then readRest .startField [] [[]] text
    else readRest .inField [c] [] text
  | .startRecord, _, _, c :: text =>
    if c = '\n' then [] :: readRest .startRecord [] [] text
    else if c = '\r' then [] :: readRest .eatLine [] [] text
    else if c = '"' then readRest .inQuoted [] [] text
    else if c = ',' then readRest .startField [] [[]] text
    else readRest .inField [c] [] text

def read (text : List Char) : List Row := readRest .startRecord [] [] text

/-! ### A field is read back -/

variable {field : Field} {fields : Row} {rest : List Char}

theorem readRest_doubled (fields : Row) (rest text : List Char) : ∀ field : Field,
    readRest .inQuoted field fields (text.flatMap doubled ++ rest) =
      readRest .inQuoted (field ++ text) fields rest := by
  induction text with
  | nil =>
    intro field
    rw [List.append_nil]
    rfl
  | cons c text ih =>
    intro field
    have hstep : readRest .inQuoted field fields (doubled c ++ (text.flatMap doubled ++ rest)) =
        readRest .inQuoted (field ++ [c]) fields (text.flatMap doubled ++ rest) := by
      rw [doubled]
      split_ifs with hc
      · subst hc
        rfl
      · rw [List.singleton_append, readRest, if_neg hc]
    rw [List.flatMap_cons, List.append_assoc, hstep, ih, List.append_assoc, List.singleton_append]

/-- A field in quotes. -/
theorem readRest_quoted (text : Field) :
    readRest .startField [] fields (quoted text ++ rest) =
      readRest .quoteInQuoted text fields rest := by
  have hbody := readRest_doubled fields ('"' :: rest) text []
  rw [List.nil_append] at hbody
  rw [quoted, List.cons_append, List.cons_append, List.append_assoc, List.singleton_append,
    readRest, if_pos rfl, hbody, readRest, if_pos rfl]

/-- A field without quotes. -/
theorem readRest_plain {text : List Char} : ∀ {field : Field}, text.any special = false →
    readRest .inField field fields (text ++ rest) =
      readRest .inField (field ++ text) fields rest := by
  induction text with
  | nil =>
    intro field _
    rw [List.append_nil]
    rfl
  | cons c text ih =>
    intro field hplain
    obtain ⟨hc, htext⟩ := Bool.or_eq_false_iff.mp hplain
    have hne : c ≠ ',' ∧ c ≠ '"' ∧ c ≠ '\n' ∧ c ≠ '\r' := by simpa [special, and_assoc] using hc
    rw [List.cons_append, readRest, if_neg hne.1, if_neg hne.2.2.2, if_neg hne.2.2.1, ih htext,
      List.append_assoc, List.singleton_append]

/-- A written field, in front of a comma or the end of the row. -/
theorem readRest_writeField (text : Field) {c : Char} (hc : c = ',' ∨ c = '\r') :
    readRest .startField [] fields (writeField text ++ c :: rest) =
      readRest .startField text fields (c :: rest) := by
  have hne : c ≠ '"' := by rcases hc with rfl | rfl <;> decide
  rw [writeField]
  split_ifs with hspecial
  · rw [readRest_quoted]
    rcases hc with rfl | rfl <;> rfl
  · rw [Bool.not_eq_true] at hspecial
    cases text with
    | nil => rfl
    | cons first text =>
      obtain ⟨hfirst, htext⟩ := Bool.or_eq_false_iff.mp hspecial
      have hfirst' : first ≠ ',' ∧ first ≠ '"' ∧ first ≠ '\n' ∧ first ≠ '\r' := by
        simpa [special, and_assoc] using hfirst
      rw [List.cons_append, readRest, if_neg hfirst'.2.1, if_neg hfirst'.1, if_neg hfirst'.2.2.2,
        if_neg hfirst'.2.2.1, List.nil_append, readRest_plain htext, List.singleton_append]
      rcases hc with rfl | rfl <;> rfl

/-! ### A row is read back -/

/-- The fields that are left of a row. -/
theorem readRest_writeFields (rest : List Char) (row : Row) : ∀ fields : Row, row ≠ [] →
    readRest .startField [] fields (writeFields row ++ '\r' :: '\n' :: rest) =
      (fields ++ row) :: read rest := by
  induction row with
  | nil => exact fun _ h ↦ absurd rfl h
  | cons field row ih =>
    intro fields _
    cases row with
    | nil =>
      rw [writeFields, readRest_writeField field (.inr rfl)]
      rfl
    | cons next row =>
      rw [writeFields, List.append_assoc, List.cons_append, readRest_writeField field (.inl rfl)]
      show readRest .startField [] (fields ++ [field]) _ = _
      rw [ih _ (List.cons_ne_nil _ _), List.append_assoc, List.singleton_append]

/-- The start of a row is the start of its first field, unless the line is empty. -/
theorem read_eq_startField {c : Char} (hline : c ≠ '\n' ∧ c ≠ '\r') (rest : List Char) :
    read (c :: rest) = readRest .startField [] [] (c :: rest) := by
  simp only [read, readRest, if_neg hline.1, if_neg hline.2, List.nil_append]

theorem writeField_cons {field : Field} (hne : field ≠ []) :
    ∃ c text, writeField field = c :: text ∧ c ≠ '\n' ∧ c ≠ '\r' := by
  rw [writeField]
  split_ifs with hspecial
  · exact ⟨'"', _, rfl, by decide, by decide⟩
  · rw [Bool.not_eq_true] at hspecial
    obtain ⟨first, text, rfl⟩ := List.exists_cons_of_ne_nil hne
    have hfirst := (Bool.or_eq_false_iff.mp hspecial).1
    have hfirst' : first ≠ ',' ∧ first ≠ '"' ∧ first ≠ '\n' ∧ first ≠ '\r' := by
      simpa [special, and_assoc] using hfirst
    exact ⟨first, text, rfl, hfirst'.2.2.1, hfirst'.2.2.2⟩

/-- A written row does not start with a line break. -/
theorem writeFields_cons {row : Row} (hne : row ≠ []) (hempty : row ≠ [[]]) :
    ∃ c text, writeFields row = c :: text ∧ c ≠ '\n' ∧ c ≠ '\r' := by
  obtain ⟨field, row, rfl⟩ := List.exists_cons_of_ne_nil hne
  cases row with
  | nil =>
    rw [writeFields]
    exact writeField_cons fun hfield ↦ hempty (congrArg (fun field ↦ [field]) hfield)
  | cons next row =>
    rw [writeFields]
    by_cases hfield : field = []
    · subst hfield
      exact ⟨',', _, rfl, by decide, by decide⟩
    · obtain ⟨c, text, heq, hline⟩ := writeField_cons hfield
      rw [heq]
      exact ⟨c, _, rfl, hline⟩

theorem read_writerow {row : Row} (hne : row ≠ []) (rest : List Char) :
    read (writerow row ++ rest) = row :: read rest := by
  rw [writerow]
  split_ifs with hempty
  · subst hempty
    rfl
  · obtain ⟨c, text, heq, hline⟩ := writeFields_cons hne hempty
    have hrow := readRest_writeFields rest row [] hne
    rw [heq, List.cons_append] at hrow
    rw [heq, List.append_assoc, List.cons_append, List.cons_append, read_eq_startField hline]
    exact hrow

/-- What was written is read back. -/
theorem read_write {rows : List Row} (hrows : ∀ row ∈ rows, row ≠ []) :
    read (write rows) = rows := by
  induction rows with
  | nil => rfl
  | cons row rows ih =>
    have hrest : read (write rows) = rows := ih fun other hother ↦
      hrows other (List.mem_cons_of_mem _ hother)
    rw [write, List.flatMap_cons, read_writerow (hrows row List.mem_cons_self)]
    exact congrArg (row :: ·) hrest

end Csv
