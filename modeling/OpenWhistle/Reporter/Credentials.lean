import Mathlib.Algebra.GroupWithZero.Nat
import Mathlib.Data.List.GetD
import Mathlib.Data.List.Nodup
import Mathlib.Data.Nat.Notation
import OpenWhistle.Cases.Status
import OpenWhistle.Foundation.Text

/-!
# Case numbers, PINs and the cases they open

A reporter is handed a case number and a PIN. Both are printable ASCII, the number in capitals and the
PIN in small letters; the two generators make such texts. What the database keeps of the PIN is its
hash. The hash is ideal: it checks against the text it was made from and against no other. The PIN
itself is no column: `Case.pin` is history, the text that was handed out.
-/

set_option autoImplicit false
set_option relaxedAutoImplicit false

namespace OpenWhistle.Reporter

open Cases (Status)

/-! ### The generators -/

structure IssuedNumber (number : String) : Prop where
  nonempty : number ≠ ""
  graphic : ∀ c ∈ number.toList, Text.Graphic c
  capital : ∀ c ∈ number.toList, c.toUpper = c

/-- `len(text.encode())`. -/
def encodedLength (text : String) : ℕ := (text.toList.map Char.utf8Size).sum

/-- `_BCRYPT_MAX_BYTES`. -/
def bcryptMaxBytes : ℕ := 72

structure IssuedPin (pin : String) : Prop where
  nonempty : pin ≠ ""
  graphic : ∀ c ∈ pin.toList, Text.Graphic c
  small : ∀ c ∈ pin.toList, c.toLower = c
  short : encodedLength pin ≤ bcryptMaxBytes

/-- `generate_case_number`, with the year and the random suffix. -/
def generateCaseNumber (year suffix : ℕ) : String :=
  String.ofList ("OW-".toList ++ Nat.toDigits 10 year ++ "-".toList ++
    (Nat.toDigits 10 suffix).leftpad 5 '0')

def hexDigits : List Char := "0123456789abcdef".toList

/-- The last `width` hexadecimal digits of a number. -/
def hex (width n : ℕ) : List Char :=
  (List.range width).reverse.map fun i ↦ hexDigits.getD (n / 16 ^ i % 16) '0'

/-- `generate_pin`: the text of a UUID, given as its 128 bits. -/
def generatePin (uuid : ℕ) : String :=
  String.ofList (hex 8 (uuid / 16 ^ 24) ++ "-".toList ++ hex 4 (uuid / 16 ^ 20) ++ "-".toList ++
    hex 4 (uuid / 16 ^ 16) ++ "-".toList ++ hex 4 (uuid / 16 ^ 12) ++ "-".toList ++ hex 12 uuid)

theorem graphic_of_isDigit {c : Char} (hc : c.isDigit = true) :
    Text.Graphic c ∧ c.toUpper = c := by
  have hrange : 48 ≤ c.toNat ∧ c.toNat ≤ 57 := by
    simpa [Char.isDigit, UInt32.le_iff_toNat_le] using hc
  refine ⟨⟨?_, ?_⟩, ?_⟩
  · omega
  · omega
  · rw [← Char.toNat_inj, Text.toNat_toUpper, if_neg]
    omega

theorem toList_generateCaseNumber (year suffix : ℕ) :
    (generateCaseNumber year suffix).toList = "OW-".toList ++ Nat.toDigits 10 year ++ "-".toList ++
      (Nat.toDigits 10 suffix).leftpad 5 '0' := String.toList_ofList

/-- What the generator hands out is a case number. -/
theorem issuedNumber_generateCaseNumber (year suffix : ℕ) :
    IssuedNumber (generateCaseNumber year suffix) := by
  have hdigits : ∀ n, ∀ c ∈ Nat.toDigits 10 n, Text.Graphic c ∧ c.toUpper = c := fun n c hc ↦
    graphic_of_isDigit (Nat.isDigit_of_mem_toDigits (by decide) (by decide) hc)
  have hletters : ∀ c ∈ "OW-".toList, Text.Graphic c ∧ c.toUpper = c :=
    Text.forall_of_all (by decide)
  have hdash : ∀ c ∈ "-".toList, Text.Graphic c ∧ c.toUpper = c := Text.forall_of_all (by decide)
  have hall : ∀ c ∈ (generateCaseNumber year suffix).toList, Text.Graphic c ∧ c.toUpper = c := by
    intro c hc
    rw [toList_generateCaseNumber] at hc
    simp only [List.mem_append] at hc
    rcases hc with ((hc | hc) | hc) | hc
    · exact hletters c hc
    · exact hdigits year c hc
    · exact hdash c hc
    · rcases List.mem_append.mp hc with hc | hc
      · rw [List.eq_of_mem_replicate hc]
        decide
      · exact hdigits suffix c hc
  refine ⟨fun h ↦ ?_, fun c hc ↦ (hall c hc).1, fun c hc ↦ (hall c hc).2⟩
  have hfirst : 'O' ∈ (generateCaseNumber year suffix).toList := by
    rw [toList_generateCaseNumber]
    exact List.mem_append_left _ (List.mem_append_left _ (List.mem_append_left _ (by decide)))
  rw [h] at hfirst
  exact nomatch hfirst

theorem length_hex (width n : ℕ) : (hex width n).length = width := by
  rw [hex, List.length_map, List.length_reverse, List.length_range]

theorem mem_hexDigits_of_mem_hex {width n : ℕ} {c : Char} (hc : c ∈ hex width n) :
    c ∈ hexDigits := by
  obtain ⟨i, -, rfl⟩ := List.mem_map.mp hc
  have hlt : n / 16 ^ i % 16 < hexDigits.length := Nat.mod_lt _ (by decide)
  rw [List.getD_eq_getElem _ _ hlt]
  exact List.getElem_mem hlt

theorem mem_generatePin {uuid : ℕ} {c : Char} (hc : c ∈ (generatePin uuid).toList) :
    c ∈ '-' :: hexDigits := by
  rw [generatePin, String.toList_ofList] at hc
  simp only [List.mem_append] at hc
  rcases hc with (((((((hc | hc) | hc) | hc) | hc) | hc) | hc) | hc) | hc
  all_goals first
    | exact List.mem_cons_of_mem _ (mem_hexDigits_of_mem_hex hc)
    | exact List.mem_cons.mpr (.inl (List.mem_singleton.mp hc))

/-- Printable ASCII takes a byte a character. -/
theorem encodedLength_of_graphic {text : String} (h : ∀ c ∈ text.toList, Text.Graphic c) :
    encodedLength text = text.toList.length := by
  have hone : ∀ c ∈ text.toList, c.utf8Size = 1 := by
    intro c hc
    rw [Char.utf8Size_eq_one_iff, UInt32.le_iff_toNat_le]
    exact (h c hc).2.trans (by decide)
  rw [encodedLength, List.map_congr_left hone, List.map_const', List.sum_replicate_nat, Nat.mul_one]

/-- What the generator hands out is a PIN. -/
theorem issuedPin_generatePin (uuid : ℕ) : IssuedPin (generatePin uuid) := by
  have hall : ∀ c ∈ '-' :: hexDigits, Text.Graphic c ∧ c.toLower = c :=
    Text.forall_of_all (by decide)
  have hgraphic : ∀ c ∈ (generatePin uuid).toList, Text.Graphic c :=
    fun c hc ↦ (hall c (mem_generatePin hc)).1
  have hlength : (generatePin uuid).toList.length = 36 := by
    rw [generatePin, String.toList_ofList]
    simp only [List.length_append, length_hex]
    decide
  refine ⟨fun h ↦ ?_, hgraphic, fun c hc ↦ (hall c (mem_generatePin hc)).2, ?_⟩
  · rw [h] at hlength
    exact nomatch hlength
  · rw [encodedLength_of_graphic hgraphic, hlength]
    decide

/-! ### The hash -/

/-- An ideal hash of PINs. -/
structure PinHash (Hash : Type) where
  hashpw : (pin : String) → (salt : ℕ) → Hash
  checkpw : (plain : String) → (hashed : Hash) → Bool
  checkpw_hashpw : ∀ plain pin salt, checkpw plain (hashpw pin salt) = decide (plain = pin)

/-- A hash that hides nothing: the law of an ideal one can be met. -/
def PinHash.clear : PinHash String where
  hashpw pin _ := pin
  checkpw plain hashed := decide (plain = hashed)
  checkpw_hashpw _ _ _ := rfl

variable {Hash : Type} (pins : PinHash Hash)

/-- `_bcrypt_check`. -/
def bcryptCheck (plain : String) (hashed : Hash) : Bool :=
  if encodedLength plain > bcryptMaxBytes then false else pins.checkpw plain hashed

def verifyPin (plain : String) (hashed : Hash) : Bool := bcryptCheck pins plain hashed

/-! ### The cases -/

/-- A report, as its reporter reaches it. `pin` is history. -/
structure Case where
  id : String
  number : String
  pin : String
  pinHash : Hash
  status : Status
  messages : List String
  number_issued : IssuedNumber number
  pin_issued : IssuedPin pin
  hashed : ∃ salt, pinHash = pins.hashpw pin salt

variable {pins}

/-- The hash of a case checks against its PIN only. -/
theorem Case.verifyPin_iff (c : Case pins) (plain : String) :
    verifyPin pins plain c.pinHash = true ↔ plain = c.pin := by
  obtain ⟨salt, hhash⟩ := c.hashed
  rw [verifyPin, bcryptCheck, hhash, pins.checkpw_hashpw]
  split
  · rename_i hlong
    constructor
    · exact fun h ↦ nomatch h
    · rintro rfl
      exact absurd c.pin_issued.short (Nat.not_le.mpr hlong)
  · exact decide_eq_true_iff

/-- The table of reports. Ids and case numbers are unique. -/
structure Database (pins : PinHash Hash) where
  cases : List (Case pins)
  ids : (cases.map Case.id).Nodup
  numbers : (cases.map Case.number).Nodup

namespace Database

def byNumber (db : Database pins) (number : String) : Option (Case pins) :=
  db.cases.find? fun c ↦ decide (c.number = number)

/-- `get_report_by_id`. -/
def byId (db : Database pins) (id : String) : Option (Case pins) :=
  db.cases.find? fun c ↦ decide (c.id = id)

/-- The row after a reply. -/
def appendMessage (id content : String) (c : Case pins) : Case pins :=
  if c.id = id then { c with messages := c.messages ++ [content] } else c

/-- `add_whistleblower_message`. -/
def addWhistleblowerMessage (db : Database pins) (id content : String) : Database pins where
  cases := db.cases.map (appendMessage id content)
  ids := by
    have hids : Case.id ∘ appendMessage id content = (Case.id : Case pins → String) := by
      funext c
      simp only [Function.comp_apply, appendMessage]
      split <;> rfl
    rw [List.map_map, hids]
    exact db.ids
  numbers := by
    have hnumbers : Case.number ∘ appendMessage id content = (Case.number : Case pins → String) := by
      funext c
      simp only [Function.comp_apply, appendMessage]
      split <;> rfl
    rw [List.map_map, hnumbers]
    exact db.numbers

/-- A case number and a PIN that belong together. -/
def Opens (db : Database pins) (number pin : String) : Prop :=
  ∃ c ∈ db.cases, c.number = number ∧ c.pin = pin

instance (db : Database pins) (number pin : String) : Decidable (db.Opens number pin) :=
  inferInstanceAs (Decidable (∃ c ∈ db.cases, c.number = number ∧ c.pin = pin))

theorem byNumber_of_mem {db : Database pins} {c : Case pins} (hc : c ∈ db.cases) :
    db.byNumber c.number = some c := by
  cases hfind : db.byNumber c.number with
  | none =>
    have hnone := List.find?_eq_none.mp hfind c hc
    exact absurd (decide_eq_true rfl) hnone
  | some d =>
    have hd := List.mem_of_find?_eq_some hfind
    have hnumber : d.number = c.number := by simpa using List.find?_some hfind
    rw [List.inj_on_of_nodup_map db.numbers hd hc hnumber]

/-- Who is who: what no request of a reporter changes. -/
def credentials (db : Database pins) : List (String × String × String) :=
  db.cases.map fun c ↦ (c.id, c.number, c.pin)

theorem opens_iff {db : Database pins} {number pin : String} :
    db.Opens number pin ↔ ∃ id, (id, number, pin) ∈ db.credentials := by
  constructor
  · rintro ⟨c, hc, rfl, rfl⟩
    exact ⟨c.id, List.mem_map.mpr ⟨c, hc, rfl⟩⟩
  · rintro ⟨id, hmem⟩
    obtain ⟨c, hc, heq⟩ := List.mem_map.mp hmem
    obtain ⟨-, hrest⟩ := Prod.mk.inj heq
    exact ⟨c, hc, Prod.mk.inj hrest⟩

@[simp] theorem credentials_addWhistleblowerMessage (db : Database pins) (id content : String) :
    (db.addWhistleblowerMessage id content).credentials = db.credentials := by
  rw [credentials, addWhistleblowerMessage, List.map_map, credentials]
  refine List.map_congr_left fun c _ ↦ ?_
  simp only [Function.comp_apply, appendMessage]
  split <;> rfl

end Database

end OpenWhistle.Reporter
