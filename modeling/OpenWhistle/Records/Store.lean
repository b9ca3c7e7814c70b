import OpenWhistle.Identity.Vault
import OpenWhistle.Records.Deadlines
import OpenWhistle.Reporter.Credentials
import OpenWhistle.Submission.Draft

/-!
# What is stored, and who stores it

The tables of a case with every time and every token in them: the report, its thread, its
attachments, and beside the database the objects of an external storage and what Redis holds for a
draft. A reporter submits, uploads, replies, and saves a draft. The office replies, acknowledges and
changes a status, and makes any number of other requests, each of which may change everything that
is stored and knows its time.

A reporter's request reads the clock more than once, and each reading has a name. What the request
draws at random is given with it; the initialisation vector of a token is named after what it seals.
The bytes of a file are the characters of a string.
-/

set_option autoImplicit false
set_option relaxedAutoImplicit false

namespace OpenWhistle.Records

open Cases (Row Status)
open Identity (sealToken)
open Reporter (PinHash generateCaseNumber generatePin)
open Submission (SubmissionMode)
open Threads (ReportSender dayFloor nextAfter)

/-! ### The tables -/

/-- A stored text: a token, or the text itself where it was written before there were tokens. -/
inductive Content
  | plain (text : String)
  | sealed (token : Fernet.Token)
  deriving DecidableEq

structure Report (Hash : Type) where
  id : String
  caseNumber : String
  pinHash : Hash
  orgId : Option String
  category : String
  description : Content
  /-- `none` is the empty text. -/
  encryptedDek : Option Fernet.Token
  submissionMode : SubmissionMode
  locationId : Option String
  confidentialName : Option Fernet.Token
  confidentialContact : Option Fernet.Token
  secureEmail : Option Fernet.Token
  /-- The status and the times that go with it. -/
  row : Row ℕ
  feedbackSentAt : Option ℕ

structure Message where
  id : String
  report : String
  sender : ReportSender
  content : Content
  sentAt : ℕ

structure Attachment where
  id : String
  report : String
  filename : Content
  contentType : String
  size : ℕ
  data : Option Content
  storageKey : Option String
  encrypted : Bool
  uploadedAt : ℕ

structure AuditEntry where
  action : String
  report : String
  createdAt : ℕ

/-- `rest` is whatever else the office keeps: notes, links, accounts. -/
structure Database (Hash Rest : Type) where
  defaultOrgId : Option String
  reports : List (Report Hash)
  messages : List Message
  attachments : List Attachment
  audit : List AuditEntry
  rest : Rest
  /-- The objects of the external storage. -/
  objects : String → Option Fernet.Token
  /-- The drafts in Redis. -/
  drafts : String → Option Fernet.Token
  /-- The results of final submits in Redis. -/
  results : String → Option Fernet.Token

variable {Hash Rest : Type}

/-- One thing a reporter's request writes. -/
inductive Record (Hash : Type)
  | report (row : Report Hash)
  | message (row : Message)
  | attachment (row : Attachment)
  | object (key : String) (token : Fernet.Token)
  | draft (session : String) (token : Fernet.Token)
  | result (session : String) (token : Fernet.Token)

def Content.tokens : Content → List Fernet.Token
  | .plain _ => []
  | .sealed token => [token]

/-- The encrypted values of what is written. -/
def Record.tokens : Record Hash → List Fernet.Token
  | .report row => row.description.tokens ++ row.encryptedDek.toList ++
      row.confidentialName.toList ++ row.confidentialContact.toList ++ row.secureEmail.toList
  | .message row => row.content.tokens
  | .attachment row => row.filename.tokens ++ (row.data.toList.flatMap Content.tokens)
  | .object _ token => [token]
  | .draft _ token => [token]
  | .result _ token => [token]

namespace Database

def write (db : Database Hash Rest) : Record Hash → Database Hash Rest
  | .report row => { db with reports := db.reports ++ [row] }
  | .message row => { db with messages := db.messages ++ [row] }
  | .attachment row => { db with attachments := db.attachments ++ [row] }
  | .object key token => { db with objects := Function.update db.objects key (some token) }
  | .draft session token => { db with drafts := Function.update db.drafts session (some token) }
  | .result session token => { db with results := Function.update db.results session (some token) }

/-- `get_report_by_id`. -/
def report (db : Database Hash Rest) (id : String) : Option (Report Hash) :=
  db.reports.find? fun row ↦ decide (row.id = id)

def update (db : Database Hash Rest) (id : String) (change : Report Hash → Report Hash) :
    Database Hash Rest :=
  { db with reports := db.reports.map fun row ↦ if row.id = id then change row else row }

/-- The latest time of a thread. -/
def latestSentAt (db : Database Hash Rest) (report : String) : Option ℕ :=
  ((db.messages.filter fun row ↦ decide (row.report = report)).map Message.sentAt).max?

/-- `_next_sent_at`. -/
def nextSentAt (db : Database Hash Rest) (report : String) (earliest : ℕ) : ℕ :=
  nextAfter (db.latestSentAt report) earliest

end Database

/-! ### The keys -/

/-- What the configured secrets make. -/
structure Keys where
  /-- `_make_fernet`. -/
  root : Fernet
  /-- `make_mek_fernet`. -/
  mek : Fernet
  /-- The key of a report, from its raw data key. -/
  report : (dek : String) → Fernet
  /-- `_draft_fernet`. -/
  draft : (session : String) → Fernet

structure Site (Hash : Type) where
  keys : Keys
  pins : PinHash Hash
  /-- The receipt in the default language. -/
  receipt : String
  notifyEmailEnabled : Bool
  useS3 : Bool
  /-- The JSON of a result: case number, PIN, and the files with their sizes. -/
  dumps : (caseNumber pin : String) → (files : List (String × ℕ)) → String

/-- What a request seals. -/
inductive Sealed
  | dek
  | description
  | receipt
  | name
  | contact
  | email
  | filename (file : ℕ)
  | data (file : ℕ)
  | message
  | draft
  | result
  deriving DecidableEq

/-- What a request draws at random. -/
structure Chance where
  iv : Sealed → ℕ
  pin : ℕ
  salt : ℕ
  dek : String
  /-- The suffix of the case number, in each attempt. -/
  suffix : ℕ → ℕ
  messageId : String
  attachmentId : ℕ → String
  storageKey : ℕ → String

/-- The readings of the clock in a reporter's request. -/
inductive Reading
  | received
  | numbered (attempt : ℕ)
  | uploaded
  | replied
  deriving DecidableEq

variable (site : Site Hash)

/-- `make_report_fernet`. `none` where the data key cannot be unwrapped. -/
def makeReportFernet (encryptedDek : Fernet.Token) : Option Fernet :=
  (site.keys.mek.decrypt encryptedDek).map site.keys.report

/-- `_encrypt_message_content`. -/
def encryptMessageContent (report : Report Hash) (content : String) (iv : ℕ) : Option Content :=
  match report.encryptedDek with
  | none => some (.plain content)
  | some dek => (makeReportFernet site dek).map fun fernet ↦ .sealed (sealToken fernet content iv)

/-! ### The reporter -/

structure File where
  filename : String
  contentType : String
  data : String

/-- What a draft holds at its final submit. -/
structure Form where
  orgId : Option String
  category : String
  description : String
  mode : SubmissionMode
  locationId : Option String
  name : String
  contact : String
  email : String
  files : List File

/-- A confidential field, sealed when there is something in it. -/
def sealedField (form : Form) (text : String) (wanted : Bool) (iv : ℕ) : Option Fernet.Token :=
  let stripped := Text.strip text
  if form.mode = .confidential ∧ stripped ≠ "" ∧ wanted = true then
    some (sealToken site.keys.root stripped iv)
  else none

/-- The case numbers of the attempts, each with the year of its reading. -/
def caseNumbers (chance : Chance) (clock : Reading → ℕ) : List String :=
  (List.range 5).map fun attempt ↦
    generateCaseNumber (dateOf (clock (.numbered attempt))).year (chance.suffix attempt)

/-- `create_report`: the report and its receipt. `none` where the id is taken, and where every case
number is. -/
def createReport (db : Database Hash Rest) (id : String) (form : Form) (chance : Chance)
    (clock : Reading → ℕ) : Option (Report Hash × Message) := do
  let encryptedDek := sealToken site.keys.mek chance.dek (chance.iv .dek)
  let fernet ← makeReportFernet site encryptedDek
  let today := dayFloor (clock .received)
  if (db.report id).isSome then none
  else
    let number ← (caseNumbers chance clock).find? fun number ↦
      db.reports.all fun row ↦ decide (row.caseNumber ≠ number)
    return (
      { id := id
        caseNumber := number
        pinHash := site.pins.hashpw (generatePin chance.pin) chance.salt
        orgId := form.orgId <|> db.defaultOrgId
        category := form.category
        description := .sealed (sealToken fernet (Text.strip form.description)
          (chance.iv .description))
        encryptedDek := some encryptedDek
        submissionMode := form.mode
        locationId := form.locationId
        confidentialName := sealedField site form form.name true (chance.iv .name)
        confidentialContact := sealedField site form form.contact true (chance.iv .contact)
        secureEmail := sealedField site form form.email site.notifyEmailEnabled (chance.iv .email)
        row := Row.submitted feedbackDue today
        feedbackSentAt := none },
      { id := chance.messageId
        report := id
        sender := .admin
        content := .sealed (sealToken fernet site.receipt (chance.iv .receipt))
        sentAt := today })

/-- The row of a file, and its object in the external storage. -/
def attachmentRecords (fernet : Fernet) (report : String) (chance : Chance) (today : ℕ)
    (file : File × ℕ) : List (Record Hash) :=
  let ciphertext := sealToken fernet file.1.data (chance.iv (.data file.2))
  let row : Attachment :=
    { id := chance.attachmentId file.2
      report := report
      filename := .sealed (sealToken fernet file.1.filename (chance.iv (.filename file.2)))
      contentType := file.1.contentType
      size := file.1.data.length
      data := if site.useS3 then none else some (.sealed ciphertext)
      storageKey := if site.useS3 then some (chance.storageKey file.2) else none
      encrypted := true
      uploadedAt := today }
  if site.useS3 then [.object (chance.storageKey file.2) ciphertext, .attachment row]
  else [.attachment row]

/-- `create_attachments`. `none` where the data key cannot be unwrapped. -/
def createAttachments (report : Report Hash) (files : List File) (chance : Chance)
    (clock : Reading → ℕ) : Option (List (Record Hash)) :=
  (report.encryptedDek.bind (makeReportFernet site)).map fun fernet ↦
    files.zipIdx.flatMap
      (attachmentRecords site fernet report.id chance (dayFloor (clock .uploaded)))

/-- What a reporter does. -/
inductive Deed
  | submit (session id : String) (form : Form) (chance : Chance)
  | upload (id : String) (files : List File) (chance : Chance)
  | reply (id content : String) (chance : Chance)
  | saveDraft (session state : String) (chance : Chance)

/-- The final submit of `submit_post`: report, receipt and attachments in one transaction, and the
result for a second click. -/
def submitPost (db : Database Hash Rest) (session id : String) (form : Form) (chance : Chance)
    (clock : Reading → ℕ) : Option (List (Record Hash)) := do
  let (report, receipt) ← createReport site db id form chance clock
  let attachments ← createAttachments site report form.files chance clock
  let result := sealToken (site.keys.draft session)
    (site.dumps report.caseNumber (generatePin chance.pin)
      (form.files.map fun file ↦ (file.filename, file.data.length))) (chance.iv .result)
  return .report report :: .message receipt :: attachments ++ [.result session result]

/-- `add_whistleblower_message`. -/
def addWhistleblowerMessage (db : Database Hash Rest) (report : Report Hash) (content : String)
    (chance : Chance) (clock : Reading → ℕ) : Option Message :=
  (encryptMessageContent site report content (chance.iv .message)).map fun sealed ↦
    { id := chance.messageId
      report := report.id
      sender := .whistleblower
      content := sealed
      sentAt := db.nextSentAt report.id (dayFloor (clock .replied)) }

/-- The longest message. -/
def maxReply : ℕ := 5000

/-- A reply, in a session of the case: what `reply_post` stores. -/
def replyPost (db : Database Hash Rest) (id content : String) (chance : Chance)
    (clock : Reading → ℕ) : Option (List (Record Hash)) := do
  let report ← db.report id
  let stripped := Text.strip (Text.lf content)
  if stripped = "" ∨ maxReply < stripped.length ∨ report.row.status = .closed then none
  else
    let message ← addWhistleblowerMessage site db report stripped chance clock
    return [.message message]

/-- What a deed writes. One that fails writes nothing. -/
def Deed.records (db : Database Hash Rest) (clock : Reading → ℕ) : Deed → List (Record Hash)
  | .submit session id form chance => (submitPost site db session id form chance clock).getD []
  | .upload id files chance =>
    ((db.report id).bind fun report ↦ createAttachments site report files chance clock).getD []
  | .reply id content chance => (replyPost site db id content chance clock).getD []
  | .saveDraft session state chance =>
    [.draft session (sealToken (site.keys.draft session) state (chance.iv .draft))]

/-! ### The office -/

/-- A request of the office, on a case it may open. -/
inductive OfficeRequest (Hash Rest : Type)
  | reply (id content messageId : String) (iv : ℕ)
  | acknowledge (id : String)
  | updateStatus (id : String) (newStatus : Status)
  | other (change : ℕ → Database Hash Rest → Database Hash Rest)

def Database.log (db : Database Hash Rest) (action report : String) (now : ℕ) :
    Database Hash Rest :=
  { db with audit := db.audit ++ [⟨action, report, now⟩] }

/-- `add_admin_message`. -/
def addAdminMessage (db : Database Hash Rest) (report : Report Hash) (content messageId : String)
    (iv now : ℕ) : Option (Database Hash Rest) :=
  (encryptMessageContent site report content iv).map fun sealed ↦
    let sentAt := db.nextSentAt report.id now
    let answered := db.update report.id fun row ↦
      if row.row.acknowledgedAt.isSome ∧ row.feedbackSentAt.isNone then
        { row with feedbackSentAt := some sentAt }
      else row
    answered.write (.message
      { id := messageId
        report := report.id
        sender := .admin
        content := sealed
        sentAt := sentAt })

def OfficeRequest.perform (now : ℕ) (db : Database Hash Rest) :
    OfficeRequest Hash Rest → Database Hash Rest
  | .reply id content messageId iv =>
    let text := Text.lf content
    ((db.report id).bind fun report ↦
      if maxReply < text.length ∨ Text.strip text = "" then none
      else addAdminMessage site (db.log "report.message_sent" id now) report (Text.strip text)
        messageId iv now).getD db
  | .acknowledge id =>
    if (db.report id).isSome then
      (db.update id fun row ↦ { row with
        row := row.row.acknowledgeReport feedbackDue now }).log "report.acknowledged" id now
    else db
  | .updateStatus id newStatus =>
    match db.report id with
    | none => db
    | some report =>
      if Cases.isValidTransition report.row.status newStatus then
        (db.update id fun row ↦ { row with
          row := row.row.updateReportStatus now newStatus }).log "report.status_changed" id now
      else db
  | .other change => change now db

/-! ### Runs -/

/-- A deed of a reporter with the clock it reads, or a request of the office at its time. -/
inductive Operation (Hash Rest : Type)
  | reporter (deed : Deed) (clock : Reading → ℕ)
  | office (request : OfficeRequest Hash Rest) (now : ℕ)

def step (db : Database Hash Rest) : Operation Hash Rest → Database Hash Rest
  | .reporter deed clock => (deed.records site db clock).foldl Database.write db
  | .office request now => request.perform site now db

def run (db : Database Hash Rest) (operations : List (Operation Hash Rest)) : Database Hash Rest :=
  operations.foldl (step site) db

end OpenWhistle.Records
