import Mathlib.Data.List.Forall2
import OpenWhistle.Records.Store

/-!
# The time of the day leaves no trace

A reporter's request reads the clock for the day and for the year, never for more. So two readings on
the same day make the same rows, and two runs that differ in the reporters' times within their days
only go through the same states, whatever the office does in between and however exact its own times
are. The tokens have a time of their own, which is 0.
-/

set_option autoImplicit false
set_option relaxedAutoImplicit false

namespace OpenWhistle.Records

open Identity (sealToken)
open Threads (microsecondsPerDay dayFloor)

variable {Hash Rest : Type} {site : Site Hash}

/-! ### The day of a reading -/

/-- Two times on the same UTC day. -/
def SameDay (a b : ℕ) : Prop := a / microsecondsPerDay = b / microsecondsPerDay

instance (a b : ℕ) : Decidable (SameDay a b) := inferInstanceAs (Decidable (_ = _))

theorem SameDay.dayFloor_eq {a b : ℕ} (h : SameDay a b) : dayFloor a = dayFloor b := by
  have hfloor : ∀ moment, dayFloor moment = microsecondsPerDay * (moment / microsecondsPerDay) := by
    intro moment
    rw [dayFloor]
    have hdiv := Nat.div_add_mod moment microsecondsPerDay
    omega
  rw [hfloor, hfloor, h]

theorem SameDay.dateOf_eq {a b : ℕ} (h : SameDay a b) : dateOf a = dateOf b := by
  rw [dateOf, dateOf, h]

/-- Two clocks that show the same day at each reading. -/
def SameDays (first second : Reading → ℕ) : Prop := ∀ reading, SameDay (first reading) (second reading)

variable {first second : Reading → ℕ}

/-! ### What a request makes of the clock -/

theorem caseNumbers_congr (h : SameDays first second) (chance : Chance) :
    caseNumbers chance first = caseNumbers chance second := by
  refine List.map_congr_left fun attempt _ ↦ ?_
  rw [(h (.numbered attempt)).dateOf_eq]

theorem createReport_congr (h : SameDays first second) (db : Database Hash Rest) (id : String)
    (form : Form) (chance : Chance) :
    createReport site db id form chance first = createReport site db id form chance second := by
  unfold createReport
  rw [caseNumbers_congr h, (h .received).dayFloor_eq]

theorem createAttachments_congr (h : SameDays first second) (report : Report Hash)
    (files : List File) (chance : Chance) :
    createAttachments site report files chance first =
      createAttachments site report files chance second := by
  unfold createAttachments
  rw [(h .uploaded).dayFloor_eq]

theorem addWhistleblowerMessage_congr (h : SameDays first second) (db : Database Hash Rest)
    (report : Report Hash) (content : String) (chance : Chance) :
    addWhistleblowerMessage site db report content chance first =
      addWhistleblowerMessage site db report content chance second := by
  unfold addWhistleblowerMessage
  rw [(h .replied).dayFloor_eq]

/-- A deed writes the same at any time of the day. -/
theorem records_congr (h : SameDays first second) (db : Database Hash Rest) (deed : Deed) :
    deed.records site db first = deed.records site db second := by
  cases deed with
  | submit session id form chance =>
    simp only [Deed.records, submitPost, createReport_congr h, createAttachments_congr h]
  | upload id files chance =>
    simp only [Deed.records, createAttachments_congr h]
  | reply id content chance =>
    simp only [Deed.records, replyPost, addWhistleblowerMessage_congr h]
  | saveDraft session state chance => rfl

/-! ### Two runs -/

/-- The same operation: the office at the same time, a reporter on the same day. -/
inductive SameButTimeOfDay : Operation Hash Rest → Operation Hash Rest → Prop
  | reporter {deed : Deed} {first second : Reading → ℕ} (h : SameDays first second) :
    SameButTimeOfDay (.reporter deed first) (.reporter deed second)
  | office {request : OfficeRequest Hash Rest} {now : ℕ} :
    SameButTimeOfDay (.office request now) (.office request now)

theorem step_congr {o o' : Operation Hash Rest} (h : SameButTimeOfDay o o')
    (db : Database Hash Rest) : step site db o = step site db o' := by
  cases h with
  | reporter h => rw [step, step, records_congr h]
  | office => rfl

theorem run_congr {operations operations' : List (Operation Hash Rest)}
    (h : List.Forall₂ SameButTimeOfDay operations operations') (db : Database Hash Rest) :
    run site db operations = run site db operations' := by
  induction h generalizing db with
  | nil => rfl
  | cons hstep _ ih =>
    rw [run, List.foldl_cons, step_congr hstep]
    exact ih _

/-! ### The tokens -/

@[simp] theorem time_sealToken (fernet : Fernet) (data : String) (iv : ℕ) :
    (sealToken fernet data iv).time = 0 := rfl

/-- The encrypted values of a record carry no time. -/
def Record.Timeless (record : Record Hash) : Prop := ∀ token ∈ record.tokens, token.time = 0

theorem timeless_encryptMessageContent {report : Report Hash} {content : String} {iv : ℕ}
    {sealed : Content} (h : encryptMessageContent site report content iv = some sealed) :
    ∀ token ∈ sealed.tokens, token.time = 0 := by
  unfold encryptMessageContent at h
  split at h
  · cases h
    exact fun token htoken ↦ nomatch htoken
  · obtain ⟨fernet, -, rfl⟩ := Option.map_eq_some_iff.mp h
    intro token htoken
    rw [List.mem_singleton.mp htoken, time_sealToken]

theorem time_sealedField {form : Form} {text : String} {wanted : Bool} {iv : ℕ} :
    ∀ token ∈ (sealedField site form text wanted iv).toList, token.time = 0 := by
  intro token htoken
  simp only [sealedField] at htoken
  split at htoken
  · rw [List.mem_singleton.mp htoken, time_sealToken]
  · exact nomatch htoken

theorem timeless_createReport {db : Database Hash Rest} {id : String} {form : Form}
    {chance : Chance} {clock : Reading → ℕ} {report : Report Hash} {receipt : Message}
    (h : createReport site db id form chance clock = some (report, receipt)) :
    (Record.report report).Timeless ∧ (Record.message receipt : Record Hash).Timeless := by
  obtain ⟨fernet, -, hrow⟩ := Option.bind_eq_some_iff.mp h
  split at hrow
  · exact nomatch hrow
  · obtain ⟨number, -, heq⟩ := Option.bind_eq_some_iff.mp hrow
    obtain ⟨rfl, rfl⟩ := Prod.mk.inj (Option.some.inj heq)
    refine ⟨fun token htoken ↦ ?_, fun token htoken ↦ ?_⟩
    · simp only [Record.tokens, Content.tokens, Option.toList_some, List.append_assoc,
        List.mem_append, List.mem_singleton] at htoken
      rcases htoken with rfl | rfl | hname | hcontact | hemail
      · rfl
      · rfl
      · exact time_sealedField token hname
      · exact time_sealedField token hcontact
      · exact time_sealedField token hemail
    · rw [List.mem_singleton.mp htoken, time_sealToken]

theorem timeless_attachmentRecords {fernet : Fernet} {report : String} {chance : Chance}
    {today : ℕ} {file : File × ℕ} :
    ∀ record ∈ attachmentRecords site fernet report chance today file, record.Timeless := by
  intro record hrecord token htoken
  simp only [attachmentRecords] at hrecord
  split at hrecord
  · rcases List.mem_pair.mp hrecord with rfl | rfl
    · rw [List.mem_singleton.mp htoken, time_sealToken]
    · simp only [Record.tokens, Content.tokens, Option.toList_none, List.flatMap_nil,
        List.append_nil, List.mem_singleton] at htoken
      rw [htoken, time_sealToken]
  · rw [List.mem_singleton.mp hrecord] at htoken
    simp only [Record.tokens, Content.tokens, Option.toList_some, List.flatMap_cons,
      List.flatMap_nil, List.append_nil, List.mem_append, List.mem_singleton] at htoken
    rcases htoken with rfl | rfl <;> rfl

theorem timeless_createAttachments {report : Report Hash} {files : List File} {chance : Chance}
    {clock : Reading → ℕ} {records : List (Record Hash)}
    (h : createAttachments site report files chance clock = some records) :
    ∀ record ∈ records, record.Timeless := by
  obtain ⟨fernet, -, rfl⟩ := Option.map_eq_some_iff.mp h
  intro record hrecord
  obtain ⟨file, -, hfile⟩ := List.mem_flatMap.mp hrecord
  exact timeless_attachmentRecords record hfile

theorem timeless_submitPost {db : Database Hash Rest} {session id : String} {form : Form}
    {chance : Chance} {clock : Reading → ℕ} {records : List (Record Hash)}
    (h : submitPost site db session id form chance clock = some records) :
    ∀ record ∈ records, record.Timeless := by
  obtain ⟨⟨report, receipt⟩, hcreate, hrest⟩ := Option.bind_eq_some_iff.mp h
  obtain ⟨attachments, hattach, heq⟩ := Option.bind_eq_some_iff.mp hrest
  cases heq
  obtain ⟨hreport, hreceipt⟩ := timeless_createReport hcreate
  intro record hrecord
  simp only [List.cons_append, List.mem_cons, List.mem_append, List.not_mem_nil, or_false]
    at hrecord
  rcases hrecord with rfl | rfl | hmem | rfl
  · exact hreport
  · exact hreceipt
  · exact timeless_createAttachments hattach record hmem
  · intro token htoken
    rw [List.mem_singleton.mp htoken, time_sealToken]

theorem timeless_replyPost {db : Database Hash Rest} {id content : String} {chance : Chance}
    {clock : Reading → ℕ} {records : List (Record Hash)}
    (h : replyPost site db id content chance clock = some records) :
    ∀ record ∈ records, record.Timeless := by
  obtain ⟨report, -, hrest⟩ := Option.bind_eq_some_iff.mp h
  simp only at hrest
  split at hrest
  · exact nomatch hrest
  · obtain ⟨message, hmessage, heq⟩ := Option.bind_eq_some_iff.mp hrest
    cases heq
    obtain ⟨sealed, hsealed, rfl⟩ := Option.map_eq_some_iff.mp hmessage
    intro record hrecord
    rw [List.mem_singleton.mp hrecord]
    exact timeless_encryptMessageContent hsealed

/-- A deed seals with the time 0. -/
theorem timeless_records (db : Database Hash Rest) (deed : Deed) (clock : Reading → ℕ) :
    ∀ record ∈ deed.records site db clock, record.Timeless := by
  have hgetD : ∀ found : Option (List (Record Hash)),
      (∀ records, found = some records → ∀ record ∈ records, record.Timeless) →
        ∀ record ∈ found.getD [], record.Timeless := by
    intro found hfound
    cases found with
    | none => exact fun record hrecord ↦ nomatch hrecord
    | some records => exact hfound records rfl
  cases deed with
  | submit session id form chance => exact hgetD _ fun _ ↦ timeless_submitPost
  | upload id files chance =>
    refine hgetD _ fun records hrecords ↦ ?_
    obtain ⟨report, -, hattach⟩ := Option.bind_eq_some_iff.mp hrecords
    exact timeless_createAttachments hattach
  | reply id content chance => exact hgetD _ fun _ ↦ timeless_replyPost
  | saveDraft session state chance =>
    intro record hrecord token htoken
    rw [List.mem_singleton.mp hrecord] at htoken
    rw [List.mem_singleton.mp htoken, time_sealToken]

/-- Two runs of the same operations, with the office at the same times and the reporters at any times
of the same days, end with the same database: no column and no token keeps the time of the day. And
every encrypted value that a reporter's operation writes, in whatever state it runs, carries the time
0. -/
theorem time_of_day_leaves_no_trace (site : Site Hash) :
    (∀ (db : Database Hash Rest) (operations operations' : List (Operation Hash Rest)),
      List.Forall₂ SameButTimeOfDay operations operations' →
      run site db operations = run site db operations') ∧
    ∀ (db : Database Hash Rest) (deed : Deed) (clock : Reading → ℕ),
      ∀ record ∈ deed.records site db clock, ∀ token ∈ record.tokens, token.time = 0 :=
  ⟨fun db _ _ h ↦ run_congr h db, fun db deed clock ↦ timeless_records db deed clock⟩

/-- An installation that hides nothing. -/
def plain : Site String where
  keys := ⟨Fernet.clear, Fernet.clear, fun _ ↦ Fernet.clear, fun _ ↦ Fernet.clear⟩
  pins := Reporter.PinHash.clear
  receipt := "received"
  notifyEmailEnabled := false
  useS3 := false
  dumps number pin _ := number ++ pin

def noRecords : Database String Unit where
  defaultOrgId := none
  reports := []
  messages := []
  attachments := []
  audit := []
  rest := ()
  objects _ := none
  drafts _ := none
  results _ := none

def chances : Chance where
  iv _ := 0
  pin := 0
  salt := 0
  dek := "k"
  suffix attempt := attempt
  messageId := "m"
  attachmentId _ := "a"
  storageKey _ := "s"

/-- A report is submitted, acknowledged and replied to, at a microsecond of each of its days. -/
def correspondence (submitted replied : ℕ) : List (Operation String Unit) :=
  [.reporter (.submit "d" "r" ⟨none, "fraud", "x", .confidential, none, "Ann", "", "", [⟨"f", "t", "b"⟩]⟩
      chances) fun _ ↦ submitted,
    .office (.acknowledge "r") microsecondsPerDay,
    .reporter (.reply "r" "more" chances) fun _ ↦ microsecondsPerDay + replied]

/-- Noon or the last microsecond of the day: the database is the same. -/
theorem time_of_day_leaves_no_trace_of_correspondence :
    run plain noRecords (correspondence 43200000000 0) =
      run plain noRecords (correspondence 86399999999 5) ∧
    ∀ record ∈ (Deed.reply "r" "more" chances).records plain
      (run plain noRecords (correspondence 43200000000 0)) fun _ ↦ microsecondsPerDay,
      ∀ token ∈ record.tokens, token.time = 0 := by
  have hsubmitted : SameDay 43200000000 86399999999 := by decide
  have hreplied : SameDay (microsecondsPerDay + 0) (microsecondsPerDay + 5) := by decide
  refine ⟨(time_of_day_leaves_no_trace plain).1 noRecords _ _ ?_,
    (time_of_day_leaves_no_trace plain).2 _ _ _⟩
  exact .cons (.reporter fun _ ↦ hsubmitted)
    (.cons .office (.cons (.reporter fun _ ↦ hreplied) .nil))

end OpenWhistle.Records
