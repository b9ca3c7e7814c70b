import Mathlib.Algebra.GroupWithZero.Nat
import Mathlib.Data.Finset.Basic
import Mathlib.Data.Nat.Notation
import OpenWhistle.Attachments.Orientation

/-!
# Cleaning an Office file

An Office file is an archive of parts. Some parts are dropped, some are replaced by empty ones, an
embedded file is cleaned by the same function, a picture by its own, and what is left is rewritten by
the name of the part. The rules look at the names of the parts, each in its own way.

The archive is read and written by a library, the texts are rewritten by regular expressions, and the
pictures are cleaned elsewhere: all of this is given. A call notes which entries it inflates, each by
the way to it: the number of the entry, behind that of the embedded file it is in.
-/

set_option autoImplicit false
set_option relaxedAutoImplicit false

namespace OpenWhistle.Attachments

open Bytes

abbrev Name := List Char

/-- An entry of an archive: its name, the size it declares, and what reading it gives. -/
structure Entry where
  filename : Name
  fileSize : ℕ
  content : Except Fault Bytes
  deriving DecidableEq

/-- What is given: the library for archives, the tables of letters, the regular expressions of the
module by what they are for, and the cleaning of pictures. -/
structure Office where
  openZip : Bytes → Except Fault (List Entry)
  writeZip : List (Name × Bytes) → Bytes
  casefold : Name → Name
  /-- A decimal digit, by the tables of Unicode. -/
  isDecimal : Char → Bool
  stripImage : Bytes → Except Fault Bytes
  /-- The ids of the relationships to printer settings. -/
  printerIds : Bytes → List Bytes
  /-- The targets of the relationships to core properties, decoded. -/
  coreTargets : Bytes → Except Fault (List Name)
  /-- An element or an attribute that refers to an id goes. -/
  dropReference : Bytes → Bytes → Bytes
  scrubProfilePaths : Bytes → Bytes
  dropDrawingMetadata : Bytes → Bytes
  /-- Revision ids, document variables, connection strings, and the authors of a text document. -/
  anonymiseWord : Bytes → Bytes
  dropAbsPath : Bytes → Bytes
  /-- `_SP_PROPERTIES in body`. -/
  isSpProperties : Bytes → Bool
  emptySpProperties : Bytes
  anonymiseComments : Bytes → Bytes
  neutralAttrs : Bytes → List (Bytes × Bytes) → Bytes
  dropPrinterRelationships : Bytes → Bytes
  dropThumbnailRelationships : Bytes → Bytes
  dropOverrides : Bytes → Bytes

def maxSizeBytes : ℕ := 10 * 1024 * 1024

/-! ### Names -/

def endsWith (name suffix : Name) : Bool := suffix.isSuffixOf name

def startsWith (name start : Name) : Bool := start.isPrefixOf name

/-- `text in name`. -/
def contains : Name → Name → Bool
  | [], text => text.isEmpty
  | c :: name, text => text.isPrefixOf (c :: name) || contains name text

/-- `name.replace(text, "", 1)`. -/
def removeFirst : Name → Name → Name
  | [], _ => []
  | c :: name, text =>
    if text.isPrefixOf (c :: name) then (c :: name).drop text.length else c :: removeFirst name text

/-- `name.removesuffix(suffix)`. -/
def removeSuffix (name suffix : Name) : Name :=
  if endsWith name suffix then name.take (name.length - suffix.length) else name

/-- `Path(name).name`. -/
def lastPart (name : Name) : Name :=
  ((name.splitOn '/').filter fun part ↦ decide (part ≠ [] ∧ part ≠ ['.'])).getLast?.getD []

/-- `Path(name).suffix`: from the last dot on, if there is anything but dots in front of it. -/
def pathSuffix (name : Name) : Name :=
  let part := lastPart name
  let ext := part.reverse.takeWhile fun c ↦ c ≠ '.'
  let stem := (part.reverse.drop (ext.length + 1)).reverse
  if stem.any fun c ↦ c ≠ '.' then '.' :: ext.reverse else []

def lower (name : Name) : Name := name.map Char.toLower

/-- A letter of a pattern that is matched in either case: the letter `i` has two more in Unicode. -/
def matchesLetter (pattern c : Char) : Bool :=
  decide (c.toLower = pattern ∨ pattern = 'i' ∧ (c = 'İ' ∨ c = 'ı'))

/-- What follows a pattern of letters, if the name starts with it. -/
def afterLetters : Name → Name → Option Name
  | [], name => some name
  | _ :: _, [] => none
  | p :: pattern, c :: name => if matchesLetter p c then afterLetters pattern name else none

/-- `_OOXML_MEDIA_DIR.match`, with what follows. -/
def afterMediaDir (name : Name) : Option Name :=
  ["word".toList, "xl".toList, "ppt".toList].findSome? fun dir ↦
    afterLetters (dir ++ "/media/".toList) name

def pictureExtensions : List Name :=
  ["jpeg".toList, "jpg".toList, "png".toList, "gif".toList, "webp".toList, "tiff".toList,
    "tif".toList]

/-- A full match of `[^/]+\.` and one of the extensions. -/
def isPictureName (name : Name) : Bool :=
  let ext := name.reverse.takeWhile fun c ↦ c ≠ '.'
  let stem := name.reverse.drop (ext.length + 1)
  decide (stem ≠ [] ∧ '/' ∉ stem) &&
    pictureExtensions.any fun known ↦ decide (afterLetters known ext.reverse = some [])

/-- `_OOXML_MEDIA.fullmatch`. -/
def isMedia (name : Name) : Bool := ((afterMediaDir name).map isPictureName).getD false

/-- `_is_cleanable_image`. -/
def isCleanableImage (body : Bytes) : Bool :=
  [[0xFF, 0xD8, 0xFF], [0x89, 0x50, 0x4E, 0x47, 0x0D, 0x0A, 0x1A, 0x0A], ascii "GIF8".toList,
    [0x49, 0x49, 0x2A, 0x00], [0x4D, 0x4D, 0x00, 0x2A]].any (fun magic ↦ magic.isPrefixOf body) ||
  (decide (body.take 4 = ascii "RIFF".toList) &&
    decide ((body.drop 8).take 4 = ascii "WEBP".toList))

variable (office : Office)

/-- A full match of a start, digits, at least some number of them, and an end. -/
def isNumbered (least : ℕ) (start stop name : Name) : Bool :=
  startsWith name start && endsWith name stop &&
    decide (start.length + least + stop.length ≤ name.length) &&
    ((name.take (name.length - stop.length)).drop start.length).all office.isDecimal

/-! ### The rules by name -/

def neutralTime : Bytes := ascii "1980-01-01T00:00:00Z".toList

def authorName : Bytes := ascii "Author".toList

/-- An attribute and its neutral value. -/
def neutral (name : String) (value : Bytes) : Bytes × Bytes := (ascii name.toList, value)

/-- `_OOXML_EMPTY_PARTS`. -/
def emptyParts : List (Name × Bytes) :=
  [("docprops/core.xml".toList, ascii ("<?xml version=\"1.0\" encoding=\"UTF-8\" standalone=\"yes\"?>\n" ++
      "<cp:coreProperties xmlns:cp=\"http://schemas.openxmlformats.org/package/2006/" ++
      "metadata/core-properties\" xmlns:dc=\"http://purl.org/dc/elements/1.1/\" " ++
      "xmlns:dcterms=\"http://purl.org/dc/terms/\" " ++
      "xmlns:xsi=\"http://www.w3.org/2001/XMLSchema-instance\"/>").toList),
    ("docprops/app.xml".toList, ascii ("<?xml version=\"1.0\" encoding=\"UTF-8\" standalone=\"yes\"?>\n" ++
      "<Properties xmlns=\"http://schemas.openxmlformats.org/officeDocument/2006/" ++
      "extended-properties\"/>").toList),
    ("docprops/custom.xml".toList, ascii ("<?xml version=\"1.0\" encoding=\"UTF-8\" standalone=\"yes\"?>\n" ++
      "<Properties xmlns=\"http://schemas.openxmlformats.org/officeDocument/2006/" ++
      "custom-properties\"/>").toList)]

/-- `_anonymise_ooxml_part`. -/
def anonymisePart (name : Name) (body : Bytes) : Bytes :=
  let body := if endsWith name ".xml".toList || endsWith name ".rels".toList ||
    endsWith name ".svg".toList then office.scrubProfilePaths body else body
  if endsWith name ".svg".toList then office.dropDrawingMetadata body
  else if startsWith name "word/".toList && endsWith name ".xml".toList then office.anonymiseWord body
  else if decide (name = "xl/workbook.xml".toList) then
    office.neutralAttrs (office.dropAbsPath body) [neutral "userName" authorName]
  else if isNumbered office 1 "customXml/item".toList ".xml".toList name &&
    office.isSpProperties body then office.emptySpProperties
  else if isNumbered office 0 "xl/comments".toList ".xml".toList name then office.anonymiseComments body
  else if startsWith name "xl/persons/".toList then
    office.neutralAttrs body [neutral "displayName" authorName, neutral "userId" [],
      neutral "providerId" (ascii "None".toList)]
  else if startsWith name "xl/threadedComments/".toList then
    office.neutralAttrs body [neutral "dT" neutralTime]
  else if startsWith name "xl/pivotCache/pivotCacheDefinition".toList then
    office.neutralAttrs body [neutral "refreshedBy" authorName,
      neutral "refreshedDate" (ascii "0".toList), neutral "refreshedDateIso" neutralTime]
  else if decide (name = "xl/connections.xml".toList) then
    office.neutralAttrs body [neutral "connection" []]
  else if startsWith name "xl/revisions/".toList then
    office.neutralAttrs body ([neutral "userName" authorName, neutral "dateTime" neutralTime] ++
      if endsWith name "userNames.xml".toList then [neutral "name" authorName] else [])
  else
    let body := if endsWith name ".rels".toList then office.dropPrinterRelationships body else body
    if decide (name = "_rels/.rels".toList) then office.dropThumbnailRelationships body
    else if decide (name = "[Content_Types].xml".toList) then office.dropOverrides body
    else body

/-! ### One package -/

/-- The entries that have been inflated, with the sizes they declare. -/
abbrev Inflated := Finset (List ℕ × ℕ)

/-- A function that may raise, and inflates entries. -/
abbrev Inflating := StateT Inflated (Except Fault)

/-- An entry with the way to it. -/
abbrev Located := List ℕ × Entry

/-- `src.read`. -/
def inflate (entry : Located) : Inflating Bytes := do
  modify fun inflated ↦ insert (entry.1, entry.2.fileSize) inflated
  liftM entry.2.content

/-- `src.read(name)`: the last entry of this name. -/
def named (entries : List Located) (name : Name) : Option Located :=
  entries.reverse.find? fun entry ↦ decide (entry.2.filename = name)

/-- The entries that are relationships, each by its name. -/
def relationships (entries : List Located) : List Located :=
  entries.filterMap fun entry ↦
    if endsWith entry.2.filename ".rels".toList then named entries entry.2.filename else none

/-- `_printer_settings_ids`. -/
def printerSettingsIds (entries : List Located) : Inflating (List (Name × List Bytes)) := do
  let ids ← (relationships entries).mapM fun entry ↦ do
    let found := office.printerIds (← inflate entry)
    return (removeSuffix (removeFirst entry.2.filename "_rels/".toList) ".rels".toList, found)
  return ids.filter fun id ↦ !id.2.isEmpty

/-- `_core_property_parts`. -/
def corePropertyParts (entries : List Located) : Inflating (List Name) :=
  match named entries "_rels/.rels".toList with
  | none => return []
  | some entry => do
    let rels ← inflate entry
    let targets ← (liftM (office.coreTargets rels) : Inflating (List Name))
    return targets.map fun target ↦ office.casefold (target.dropWhile fun c ↦ c = '/')

/-- The thumbnail, and the settings of a printer. -/
def isDropped (name : Name) : Bool :=
  startsWith name "docProps/thumbnail.".toList || contains name "/printerSettings/".toList

/-- The empty part that replaces a part. -/
def emptyPart (coreParts : List Name) (name : Name) : Option Bytes :=
  let part := office.casefold name
  emptyParts.lookup (if part ∈ coreParts then "docprops/core.xml".toList else part)

/-- `printer_ids.get(name, ())`. -/
def idsOf (printerIds : List (Name × List Bytes)) (name : Name) : List Bytes :=
  (printerIds.reverse.lookup name).getD []

/-- `_OOXML_EMPTY_PARTS.get(part) or src.read(info)`. -/
def readEntry (coreParts : List Name) (entry : Located) : Inflating Bytes :=
  match emptyPart office coreParts entry.2.filename with
  | some empty => pure empty
  | none => inflate entry

/-- The body of a part, without its references to the settings of a printer. -/
def readPart (printerIds : List (Name × List Bytes)) (coreParts : List Name) (entry : Located) :
    Inflating Bytes := do
  let body ← readEntry office coreParts entry
  return (idsOf printerIds entry.2.filename).foldl (fun body id ↦ office.dropReference id body) body

/-- An embedded file is cleaned by `recurse`, if it is of a type that can be. -/
def cleanEmbedded (recurse : List ℕ → Bytes → Inflating Bytes) (entry : Located) (body : Bytes) :
    Inflating Bytes :=
  if contains entry.2.filename "/embeddings/".toList then
    if lower (pathSuffix entry.2.filename) ∈ [".docx".toList, ".xlsx".toList] then
      recurse entry.1 body
    else throw (.metadata "Office file carries an embedded object")
  else pure body

/-- A picture, by its name or its content, is cleaned. -/
def cleanPicture (name : Name) (body : Bytes) : Except Fault Bytes :=
  if isMedia name || (afterMediaDir name).isSome && isCleanableImage body then office.stripImage body
  else .ok body

/-- What becomes of an entry: `none` where it is dropped. -/
def stripPart (recurse : List ℕ → Bytes → Inflating Bytes) (printerIds : List (Name × List Bytes))
    (coreParts : List Name) (entry : Located) : Inflating (Option Bytes) :=
  if isDropped entry.2.filename then pure none
  else do
    let body ← readPart office printerIds coreParts entry
    let body ← cleanEmbedded recurse entry body
    let body ← (liftM (cleanPicture office entry.2.filename body) : Inflating Bytes)
    return some (anonymisePart office entry.2.filename body)

/-- The entries of an archive, with the ways to them. -/
def locate (path : List ℕ) (entries : List Entry) : List Located :=
  entries.mapIdx fun i entry ↦ (path ++ [i], entry)

/-- The parts of a package, each cleaned or dropped. -/
def stripParts (recurse : List ℕ → Bytes → Inflating Bytes) (path : List ℕ) (entries : List Entry) :
    Inflating (List (Option Bytes)) := do
  if 20 * maxSizeBytes < (entries.map Entry.fileSize).sum then
    throw (.metadata "archive expands too far")
  else
    let entries := locate path entries
    let printerIds ← printerSettingsIds office entries
    let coreParts ← corePropertyParts office entries
    entries.mapM (stripPart office recurse printerIds coreParts)

/-- What is written: the parts that are left, under their names. -/
def leftParts (entries : List Entry) (parts : List (Option Bytes)) : List (Name × Bytes) :=
  (entries.zip parts).filterMap fun (entry, part) ↦ part.map fun body ↦ (entry.filename, body)

/-- `_strip_ooxml`, with what it does for an embedded file. -/
def stripPackage (recurse : List ℕ → Bytes → Inflating Bytes) (path : List ℕ) (data : Bytes) :
    Inflating Bytes := do
  let entries ← (liftM (office.openZip data) : Inflating (List Entry))
  let parts ← stripParts office recurse path entries
  return office.writeZip (leftParts entries parts)

/-- `_strip_ooxml(data, embedded=True)`. -/
def stripEmbedded : List ℕ → Bytes → Inflating Bytes :=
  stripPackage office fun _ _ ↦ throw (.metadata "Office file carries an embedded object")

/-- `_strip_ooxml`. -/
def stripOoxml (data : Bytes) : Inflating Bytes := stripPackage office (stripEmbedded office) [] data

end OpenWhistle.Attachments
