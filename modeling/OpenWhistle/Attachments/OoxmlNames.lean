import OpenWhistle.Attachments.Ooxml
import Mathlib

/-!
# The letter case of part names

The names of the parts of an Office file are the same in either letter case. Some of the rules of the
cleaner look at them so: the empty parts, the core properties, the pictures, and the type of an embedded
file. The others look at the letters as they are, each only where a call comes to it: a part that is
dropped is looked at no further, `userNames.xml` is looked for among the revisions only, and nothing is
looked at once a part is refused. Two files that differ only in their spelling are cleaned alike as soon
as the tests that are come to say the same of both.

Two calls for two such files are run side by side, part by part, up to the first that is refused. What
they read is the same, since a spelling changes neither an entry's place nor what is in it.
-/

set_option autoImplicit false
set_option relaxedAutoImplicit false

namespace OpenWhistle.Attachments

open Bytes

/-! ### Letters -/

theorem toLower_val (c : Char) :
    c.toLower.toNat = if 65 ≤ c.toNat ∧ c.toNat ≤ 90 then c.toNat + 32 else c.toNat := by
  unfold Char.toLower
  split_ifs with h hnat hnat
  · have hlt := c.val.toNat_lt
    change (c.val + (97 - 65)).toNat = c.val.toNat + 32
    rw [UInt32.toNat_add]
    change (c.val.toNat + 32) % 4294967296 = c.val.toNat + 32
    have hle : c.val.toNat ≤ 90 := hnat.2
    omega
  · exact absurd ⟨UInt32.le_iff_toNat_le.mp h.1, UInt32.le_iff_toNat_le.mp h.2⟩ hnat
  · exact absurd ⟨UInt32.le_iff_toNat_le.mpr hnat.1, UInt32.le_iff_toNat_le.mpr hnat.2⟩ h
  · rfl

/-- What is no letter has no other spelling. -/
theorem toLower_eq_iff {d : Char} (hupper : ¬(65 ≤ d.toNat ∧ d.toNat ≤ 90))
    (hlower : ¬(97 ≤ d.toNat ∧ d.toNat ≤ 122)) (c : Char) : c.toLower = d ↔ c = d := by
  constructor
  · intro h
    have hval := congrArg Char.toNat h
    rw [toLower_val] at hval
    refine Char.toNat_inj.mp ?_
    split_ifs at hval <;> omega
  · rintro rfl
    refine Char.toNat_inj.mp ?_
    rw [toLower_val, if_neg hupper]

theorem toLower_slash (c : Char) : c.toLower = '/' ↔ c = '/' := toLower_eq_iff (by decide) (by decide) c

theorem toLower_dot (c : Char) : c.toLower = '.' ↔ c = '.' := toLower_eq_iff (by decide) (by decide) c

theorem matchesLetter_toLower (pattern c : Char) :
    matchesLetter pattern c.toLower = matchesLetter pattern c := by
  unfold matchesLetter
  rw [Char.toLower_toLower_eq_toLower]
  simp only [toLower_eq_iff (d := 'İ') (by decide) (by decide), toLower_eq_iff (d := 'ı') (by decide) (by decide)]

/-! ### Rules that look at either letter case -/

theorem afterLetters_lower (pattern name : Name) :
    afterLetters pattern (lower name) = (afterLetters pattern name).map lower := by
  induction pattern generalizing name with
  | nil => rfl
  | cons p pattern ih =>
    cases name with
    | nil => rfl
    | cons c name =>
      change (if matchesLetter p c.toLower then afterLetters pattern (lower name) else none) =
        (if matchesLetter p c then afterLetters pattern name else none).map lower
      rw [matchesLetter_toLower, ih]
      split_ifs <;> rfl

theorem afterMediaDir_lower (name : Name) :
    afterMediaDir (lower name) = (afterMediaDir name).map lower := by
  unfold afterMediaDir
  simp only [afterLetters_lower, List.map_findSome?]
  rfl

theorem beforeDot_lower (name : Name) : (lower name).reverse.takeWhile (fun c ↦ decide (c ≠ '.')) =
    lower (name.reverse.takeWhile fun c ↦ decide (c ≠ '.')) := by
  unfold lower
  rw [← List.map_reverse, List.takeWhile_map]
  have hsame : ((fun c : Char ↦ decide (c ≠ '.')) ∘ Char.toLower) = fun c ↦ decide (c ≠ '.') := by
    funext c
    exact decide_eq_decide.mpr (not_congr (toLower_dot c))
  rw [hsame]

theorem lower_eq_nil {name : Name} : lower name = [] ↔ name = [] := List.map_eq_nil_iff

theorem slash_mem_lower (name : Name) : '/' ∈ lower name ↔ '/' ∈ name := by
  simp only [lower, List.mem_map, toLower_slash, exists_eq_right]

theorem isPictureName_lower (name : Name) : isPictureName (lower name) = isPictureName name := by
  unfold isPictureName
  dsimp only
  rw [beforeDot_lower]
  generalize name.reverse.takeWhile (fun c ↦ decide (c ≠ '.')) = ext
  have hstem : (lower name).reverse.drop ((lower ext).length + 1) =
      lower (name.reverse.drop (ext.length + 1)) := by
    unfold lower
    rw [List.length_map, ← List.map_reverse, List.map_drop]
  have hext : (lower ext).reverse = lower ext.reverse := by
    unfold lower
    exact List.map_reverse.symm
  rw [hstem, hext]
  congr 1
  · exact decide_eq_decide.mpr (and_congr (not_congr lower_eq_nil) (not_congr (slash_mem_lower _)))
  · congr 1
    funext known
    rw [afterLetters_lower]
    refine decide_eq_decide.mpr ?_
    cases afterLetters known ext.reverse with
    | none => exact Iff.rfl
    | some left => simp [lower]

theorem isMedia_lower (name : Name) : isMedia (lower name) = isMedia name := by
  unfold isMedia
  rw [afterMediaDir_lower]
  cases afterMediaDir name with
  | none => rfl
  | some left => exact isPictureName_lower left

theorem splitOn_lower (name : Name) : (lower name).splitOn '/' = (name.splitOn '/').map lower := by
  unfold List.splitOn
  induction name with
  | nil => rfl
  | cons c name ih =>
    change List.splitOnP _ (c.toLower :: lower name) = _
    rw [List.splitOnP_cons_eq_if_modifyHead, List.splitOnP_cons_eq_if_modifyHead, ih]
    have hslash : (c.toLower == '/') = (c == '/') := by
      rw [Bool.eq_iff_iff, beq_iff_eq, beq_iff_eq, toLower_slash]
    rw [hslash]
    split_ifs
    · rfl
    · cases List.splitOnP (fun d ↦ d == '/') name <;> rfl

theorem lastPart_lower (name : Name) : lastPart (lower name) = lower (lastPart name) := by
  unfold lastPart
  rw [splitOn_lower, List.filter_map]
  have hsame : ((fun part : Name ↦ decide (part ≠ [] ∧ part ≠ ['.'])) ∘ lower) =
      fun part ↦ decide (part ≠ [] ∧ part ≠ ['.']) := by
    funext part
    refine decide_eq_decide.mpr (and_congr (not_congr lower_eq_nil) (not_congr ?_))
    match part with
    | [] => exact Iff.rfl
    | [c] => simp [lower, toLower_dot]
    | c :: d :: part => simp [lower]
  rw [hsame, List.getLast?_map]
  cases (List.filter _ (List.splitOn '/' name)).getLast? <;> rfl

theorem pathSuffix_lower (name : Name) : lower (pathSuffix (lower name)) = lower (pathSuffix name) := by
  unfold pathSuffix
  dsimp only
  rw [lastPart_lower, beforeDot_lower]
  generalize (lastPart name).reverse.takeWhile (fun c ↦ decide (c ≠ '.')) = ext
  have hstem : ((lower (lastPart name)).reverse.drop ((lower ext).length + 1)).reverse =
      lower ((lastPart name).reverse.drop (ext.length + 1)).reverse := by
    unfold lower
    rw [List.length_map, ← List.map_reverse, ← List.map_drop, ← List.map_reverse]
  have hany : (lower ((lastPart name).reverse.drop (ext.length + 1)).reverse).any
        (fun c ↦ decide (c ≠ '.')) =
      ((lastPart name).reverse.drop (ext.length + 1)).reverse.any fun c ↦ decide (c ≠ '.') := by
    unfold lower
    rw [List.any_map]
    congr 1
    funext c
    exact decide_eq_decide.mpr (not_congr (toLower_dot c))
  rw [hstem, hany]
  split_ifs
  · simp [lower, Function.comp_def]
  · rfl

/-! ### Two packages -/

/-- The two names are the same in either letter case. -/
def SameLetters (name other : Name) : Prop := lower name = lower other

variable (office : Office)

/-- The rules of `_anonymise_ooxml_part`. -/
inductive PartRule
  | drawing
  | word
  | workbook
  | customItem
  | comments
  | persons
  | threadedComments
  | pivotCache
  | connections
  | revisions (userNames : Bool)
  | packageRels
  | rels
  | contentTypes
  | none
  deriving DecidableEq

/-- The rule that the name of a part comes to. -/
def ruleOf (name : Name) : PartRule :=
  if endsWith name ".svg".toList then .drawing
  else if startsWith name "word/".toList && endsWith name ".xml".toList then .word
  else if decide (name = "xl/workbook.xml".toList) then .workbook
  else if isNumbered office 1 "customXml/item".toList ".xml".toList name then .customItem
  else if isNumbered office 0 "xl/comments".toList ".xml".toList name then .comments
  else if startsWith name "xl/persons/".toList then .persons
  else if startsWith name "xl/threadedComments/".toList then .threadedComments
  else if startsWith name "xl/pivotCache/pivotCacheDefinition".toList then .pivotCache
  else if decide (name = "xl/connections.xml".toList) then .connections
  else if startsWith name "xl/revisions/".toList then
    .revisions (endsWith name "userNames.xml".toList)
  else if decide (name = "_rels/.rels".toList) then .packageRels
  else if endsWith name ".rels".toList then .rels
  else if decide (name = "[Content_Types].xml".toList) then .contentTypes
  else .none

def PartRule.clean (rule : PartRule) (body : Bytes) : Bytes :=
  match rule with
  | .drawing => office.dropDrawingMetadata body
  | .word => office.anonymiseWord body
  | .workbook => office.neutralAttrs (office.dropAbsPath body) [neutral "userName" authorName]
  | .customItem => if office.isSpProperties body then office.emptySpProperties else body
  | .comments => office.anonymiseComments body
  | .persons => office.neutralAttrs body [neutral "displayName" authorName, neutral "userId" [],
      neutral "providerId" (ascii "None".toList)]
  | .threadedComments => office.neutralAttrs body [neutral "dT" neutralTime]
  | .pivotCache => office.neutralAttrs body [neutral "refreshedBy" authorName,
      neutral "refreshedDate" (ascii "0".toList), neutral "refreshedDateIso" neutralTime]
  | .connections => office.neutralAttrs body [neutral "connection" []]
  | .revisions userNames => office.neutralAttrs body
      ([neutral "userName" authorName, neutral "dateTime" neutralTime] ++
        if userNames then [neutral "name" authorName] else [])
  | .packageRels => office.dropThumbnailRelationships (office.dropPrinterRelationships body)
  | .rels => office.dropPrinterRelationships body
  | .contentTypes => office.dropOverrides body
  | .none => body

/-- Profile paths are looked for in the part. -/
def hasPaths (name : Name) : Bool :=
  endsWith name ".xml".toList || endsWith name ".rels".toList || endsWith name ".svg".toList

variable {office}

/-- A name is not of two beginnings. -/
theorem head_of_startsWith {name start : Name} {c : Char} (hstart : start.head? = some c)
    (h : startsWith name start = true) : name.head? = some c := by
  obtain ⟨rest, rfl⟩ := List.isPrefixOf_iff_prefix.mp h
  rw [List.head?_append, hstart]
  rfl

/-- A part of custom data comes to none of the later rules. -/
theorem not_later_of_customItem {name : Name}
    (h : isNumbered office 1 "customXml/item".toList ".xml".toList name = true) :
    (∀ start : Name, start.head? = some 'x' → startsWith name start = false) ∧
      endsWith name ".rels".toList = false ∧
      ∀ other : Name, other.head? ≠ some 'c' → decide (name = other) = false := by
  simp only [isNumbered, Bool.and_eq_true] at h
  obtain ⟨⟨⟨hcustom, hend⟩, -⟩, -⟩ := h
  have hhead : name.head? = some 'c' := head_of_startsWith (by decide) hcustom
  refine ⟨fun start hstart ↦ Bool.eq_false_iff.mpr fun hlater ↦ ?_,
    Bool.eq_false_iff.mpr fun hrels ↦ ?_, fun other hother ↦ decide_eq_false ?_⟩
  · have hx := head_of_startsWith hstart hlater
    rw [hhead] at hx
    exact absurd hx (by decide)
  · have hsuffix := List.suffix_of_suffix_length_le (List.isSuffixOf_iff_suffix.mp hend)
      (List.isSuffixOf_iff_suffix.mp hrels) (by decide)
    exact absurd hsuffix (by decide)
  · rintro rfl
    exact hother hhead

theorem clean_ite {p : Prop} [Decidable p] (rule other : PartRule) (body : Bytes) :
    (if p then rule else other).clean office body =
      if p then rule.clean office body else other.clean office body := by
  split_ifs <;> rfl

/-- A part is cleaned by the rule of its name. -/
theorem anonymisePart_eq (name : Name) (body : Bytes) : anonymisePart office name body =
    (ruleOf office name).clean office
      (if hasPaths name then office.scrubProfilePaths body else body) := by
  unfold anonymisePart hasPaths ruleOf
  dsimp only
  generalize (if (endsWith name ".xml".toList || endsWith name ".rels".toList ||
    endsWith name ".svg".toList) = true then office.scrubProfilePaths body else body) = scrubbed
  simp only [clean_ite]
  refine if_congr Iff.rfl rfl (if_congr Iff.rfl rfl (if_congr Iff.rfl rfl ?_))
  by_cases hcustom : isNumbered office 1 "customXml/item".toList ".xml".toList name = true
  · obtain ⟨hlater, hrels, hother⟩ := not_later_of_customItem hcustom
    have hcomments : isNumbered office 0 "xl/comments".toList ".xml".toList name = false := by
      rw [isNumbered, hlater _ (by decide), Bool.false_and, Bool.false_and, Bool.false_and]
    rw [if_pos hcustom, hcustom, Bool.true_and]
    refine if_congr Iff.rfl rfl ?_
    rw [hcomments, hlater "xl/persons/".toList (by decide),
      hlater "xl/threadedComments/".toList (by decide),
      hlater "xl/pivotCache/pivotCacheDefinition".toList (by decide),
      hother "xl/connections.xml".toList (by decide), hlater "xl/revisions/".toList (by decide),
      hother "_rels/.rels".toList (by decide), hother "[Content_Types].xml".toList (by decide), hrels]
    rfl
  · have hnone : ¬(isNumbered office 1 "customXml/item".toList ".xml".toList name &&
        office.isSpProperties scrubbed) = true := fun h ↦ hcustom (Bool.and_eq_true_iff.mp h).1
    rw [if_neg hcustom, if_neg hnone]
    refine if_congr Iff.rfl rfl (if_congr Iff.rfl rfl (if_congr Iff.rfl rfl (if_congr Iff.rfl rfl
      (if_congr Iff.rfl rfl (if_congr Iff.rfl rfl ?_)))))
    by_cases hrels : endsWith name ".rels".toList = true
    · have htypes : decide (name = "[Content_Types].xml".toList) = false := by
        refine decide_eq_false ?_
        rintro rfl
        exact absurd hrels (by decide)
      rw [if_pos hrels, if_pos hrels, htypes]
      rfl
    · have hpackage : decide (name = "_rels/.rels".toList) = false := by
        refine decide_eq_false ?_
        rintro rfl
        exact hrels (by decide)
      rw [if_neg hrels, if_neg hrels, hpackage]
      rfl

/-! ### The same letters -/

theorem isMedia_congr {name other : Name} (h : SameLetters name other) :
    isMedia name = isMedia other := by
  rw [← isMedia_lower name, h, isMedia_lower]

theorem afterMediaDir_congr {name other : Name} (h : SameLetters name other) :
    (afterMediaDir name).isSome = (afterMediaDir other).isSome := by
  have hname := congrArg Option.isSome (afterMediaDir_lower name)
  have hother := congrArg Option.isSome (afterMediaDir_lower other)
  rw [Option.isSome_map] at hname hother
  rw [← hname, h, hother]

theorem pathSuffix_congr {name other : Name} (h : SameLetters name other) :
    lower (pathSuffix name) = lower (pathSuffix other) := by
  rw [← pathSuffix_lower name, h, pathSuffix_lower]

theorem cleanPicture_congr {name other : Name} (h : SameLetters name other) :
    cleanPicture office name = cleanPicture office other := by
  unfold cleanPicture
  rw [isMedia_congr h, afterMediaDir_congr h]

/-! ### What a function comes to -/

section Outcomes

variable {α β ι : Type}

/-- What a function comes to: an exception, or its result. -/
def outcome (m : Inflating α) : Except Fault α := (m.run ∅).map Prod.fst

/-- The function comes to the same, whatever has been inflated before. -/
def Steady (m : Inflating α) : Prop := ∀ s, (m.run s).map Prod.fst = outcome m

theorem steady_pure (a : α) : Steady (pure a) := fun _ ↦ rfl

theorem steady_throw (fault : Fault) : Steady (throw fault : Inflating α) := fun _ ↦ rfl

theorem outcome_lift (x : Except Fault α) : outcome (liftM x) = x := by
  cases x <;> rfl

theorem steady_lift (x : Except Fault α) : Steady (liftM x) := by
  intro s
  rw [outcome_lift]
  cases x <;> rfl

theorem run_bind_map {m : Inflating α} {f : α → Inflating β} (hm : Steady m)
    (hf : ∀ a, Steady (f a)) (s : Inflated) :
    ((m >>= f).run s).map Prod.fst = (outcome m).bind fun a ↦ outcome (f a) := by
  rw [StateT.run_bind, ← hm s]
  cases m.run s with
  | error fault => rfl
  | ok result => exact hf result.1 result.2

theorem outcome_bind {m : Inflating α} {f : α → Inflating β} (hm : Steady m)
    (hf : ∀ a, Steady (f a)) : outcome (m >>= f) = (outcome m).bind fun a ↦ outcome (f a) :=
  run_bind_map hm hf ∅

theorem Steady.bind {m : Inflating α} {f : α → Inflating β} (hm : Steady m)
    (hf : ∀ a, Steady (f a)) : Steady (m >>= f) := fun s ↦
  (run_bind_map hm hf s).trans (outcome_bind hm hf).symm

theorem steady_mapM {f : ι → Inflating β} (hf : ∀ item, Steady (f item)) (items : List ι) :
    Steady (items.mapM f) := by
  induction items with
  | nil => exact steady_pure []
  | cons item items ih =>
    rw [List.mapM_cons]
    exact (hf item).bind fun b ↦ ih.bind fun bs ↦ steady_pure (b :: bs)

/-- The items of a list one after the other, up to the first that raises. -/
theorem outcome_mapM {f : ι → Inflating β} (hf : ∀ item, Steady (f item)) (items : List ι) :
    outcome (items.mapM f) = items.mapM fun item ↦ outcome (f item) := by
  induction items with
  | nil => rfl
  | cons item items ih =>
    rw [List.mapM_cons, List.mapM_cons,
      outcome_bind (hf item) fun b ↦ (steady_mapM hf items).bind fun bs ↦ steady_pure (b :: bs)]
    refine congrArg (outcome (f item)).bind (funext fun b ↦ ?_)
    rw [outcome_bind (steady_mapM hf items) fun bs ↦ steady_pure (b :: bs), ih]
    rfl

end Outcomes

theorem steady_inflate (entry : Located) : Steady (inflate entry) :=
  Steady.bind (fun _ ↦ rfl) fun _ ↦ steady_lift _

theorem steady_printerSettingsIds (entries : List Located) :
    Steady (printerSettingsIds office entries) :=
  (steady_mapM (fun entry ↦ (steady_inflate entry).bind fun _ ↦ steady_pure _) _).bind
    fun _ ↦ steady_pure _

theorem steady_corePropertyParts (entries : List Located) :
    Steady (corePropertyParts office entries) := by
  unfold corePropertyParts
  cases named entries "_rels/.rels".toList with
  | none => exact steady_pure []
  | some entry =>
    exact (steady_inflate entry).bind fun _ ↦ (steady_lift _).bind fun _ ↦ steady_pure _

theorem steady_readEntry (coreParts : List Name) (entry : Located) :
    Steady (readEntry office coreParts entry) := by
  unfold readEntry
  cases emptyPart office coreParts entry.2.filename with
  | none => exact steady_inflate entry
  | some empty => exact steady_pure empty

section Parts

variable {recurse : List ℕ → Bytes → Inflating Bytes}

theorem steady_cleanEmbedded (hrecurse : ∀ path body, Steady (recurse path body)) (entry : Located)
    (body : Bytes) : Steady (cleanEmbedded recurse entry body) := by
  unfold cleanEmbedded
  split_ifs
  · exact hrecurse entry.1 body
  · exact steady_throw _
  · exact steady_pure body

variable (office) (recurse) in
/-- The body of a part in front of `_anonymise_ooxml_part`. -/
def cleanedBody (ids : List (Name × List Bytes)) (coreParts : List Name) (entry : Located) :
    Except Fault Bytes :=
  (outcome (readEntry office coreParts entry)).bind fun body ↦
    (outcome (cleanEmbedded recurse entry ((idsOf ids entry.2.filename).foldl
      (fun body id ↦ office.dropReference id body) body))).bind
        (cleanPicture office entry.2.filename)

theorem steady_stripPart (hrecurse : ∀ path body, Steady (recurse path body))
    (ids : List (Name × List Bytes)) (coreParts : List Name) (entry : Located) :
    Steady (stripPart office recurse ids coreParts entry) := by
  unfold stripPart readPart
  split_ifs
  · exact steady_pure none
  · exact ((steady_readEntry coreParts entry).bind fun _ ↦ steady_pure _).bind fun body ↦
      (steady_cleanEmbedded hrecurse entry body).bind fun _ ↦
        (steady_lift _).bind fun _ ↦ steady_pure _

/-- What a part comes to. -/
theorem outcome_stripPart (hrecurse : ∀ path body, Steady (recurse path body))
    (ids : List (Name × List Bytes)) (coreParts : List Name) (entry : Located) :
    outcome (stripPart office recurse ids coreParts entry) =
      if isDropped entry.2.filename then .ok none
      else (cleanedBody office recurse ids coreParts entry).map fun body ↦
        some (anonymisePart office entry.2.filename body) := by
  unfold stripPart readPart cleanedBody
  split_ifs
  · rfl
  · have hrest : ∀ body, Steady (do
        let body ← cleanEmbedded recurse entry body
        let body ← (liftM (cleanPicture office entry.2.filename body) : Inflating Bytes)
        return some (anonymisePart office entry.2.filename body) : Inflating (Option Bytes)) :=
      fun body ↦ (steady_cleanEmbedded hrecurse entry body).bind fun _ ↦
        (steady_lift _).bind fun _ ↦ steady_pure _
    rw [outcome_bind ((steady_readEntry coreParts entry).bind fun _ ↦ steady_pure _) hrest,
      outcome_bind (steady_readEntry coreParts entry) fun _ ↦ steady_pure _]
    cases outcome (readEntry office coreParts entry) with
    | error fault => rfl
    | ok body =>
      change outcome (_ >>= _) = _
      rw [outcome_bind (steady_cleanEmbedded hrecurse entry _) fun _ ↦
        (steady_lift _).bind fun _ ↦ steady_pure _]
      dsimp only [Except.bind]
      cases outcome (cleanEmbedded recurse entry _) with
      | error fault => rfl
      | ok embedded =>
        dsimp only [Except.bind]
        rw [outcome_bind (steady_lift _) fun _ ↦ steady_pure _, outcome_lift]
        cases cleanPicture office entry.2.filename embedded <;> rfl

theorem steady_stripPackage (hrecurse : ∀ path body, Steady (recurse path body)) (path : List ℕ)
    (data : Bytes) : Steady (stripPackage office recurse path data) := by
  unfold stripPackage stripParts
  refine (steady_lift _).bind fun entries ↦ Steady.bind ?_ fun _ ↦ steady_pure _
  split_ifs
  · exact steady_throw _
  · exact (steady_printerSettingsIds _).bind fun ids ↦ (steady_corePropertyParts _).bind
      fun coreParts ↦ steady_mapM (steady_stripPart hrecurse ids coreParts) _

end Parts

theorem steady_stripEmbedded (path : List ℕ) (body : Bytes) :
    Steady (stripEmbedded office path body) :=
  steady_stripPackage (fun _ _ ↦ steady_throw _) path body

section Calls

variable (office)

/-- What is looked up in front of the parts: the ids of the settings of printers, and the names of the
core properties. -/
def lookups (entries : List Located) : Except Fault (List (Name × List Bytes) × List Name) :=
  (outcome (printerSettingsIds office entries)).bind fun ids ↦
    (outcome (corePropertyParts office entries)).map fun coreParts ↦ (ids, coreParts)

/-- What becomes of the parts of a package: an exception, or each part dropped or cleaned. -/
def partsOf (entries : List Entry) : Except Fault (List (Option Bytes)) :=
  outcome (stripParts office (stripEmbedded office) [] entries)

/-- What a call returns. -/
def cleanedOoxml (data : Bytes) : Except Fault Bytes := outcome (stripOoxml office data)

variable {office}

/-- A call writes what becomes of the parts, under their names. -/
theorem cleanedOoxml_eq {data : Bytes} {entries : List Entry} (hopen : office.openZip data = .ok entries) :
    cleanedOoxml office data = (partsOf office entries).map fun parts ↦
      office.writeZip (leftParts entries parts) := by
  unfold cleanedOoxml stripOoxml stripPackage partsOf outcome
  rw [StateT.run_bind, hopen]
  change Except.map Prod.fst (((stripParts office (stripEmbedded office) [] entries).run ∅).bind
    fun result ↦ .ok (office.writeZip (leftParts entries result.1), result.2)) = _
  cases (stripParts office (stripEmbedded office) [] entries).run ∅ <;> rfl

/-- The parts of a package that is not too large, by what is looked up. -/
theorem partsOf_eq {entries : List Entry}
    (hsmall : ¬20 * maxSizeBytes < (entries.map Entry.fileSize).sum) :
    partsOf office entries = (lookups office (locate [] entries)).bind fun found ↦
      (locate [] entries).mapM fun entry ↦
        outcome (stripPart office (stripEmbedded office) found.1 found.2 entry) := by
  have hparts : ∀ ids coreParts, Steady ((locate [] entries).mapM
      (stripPart office (stripEmbedded office) ids coreParts)) := fun ids coreParts ↦
    steady_mapM (steady_stripPart steady_stripEmbedded ids coreParts) _
  unfold partsOf stripParts lookups
  rw [if_neg hsmall]
  dsimp only
  rw [outcome_bind (steady_printerSettingsIds _) fun ids ↦
    (steady_corePropertyParts _).bind (hparts ids)]
  cases outcome (printerSettingsIds office (locate [] entries)) with
  | error fault => rfl
  | ok ids =>
    dsimp only [Except.bind]
    rw [outcome_bind (steady_corePropertyParts _) (hparts ids)]
    cases outcome (corePropertyParts office (locate [] entries)) with
    | error fault => rfl
    | ok coreParts =>
      exact outcome_mapM (steady_stripPart steady_stripEmbedded ids coreParts) _

end Calls

/-! ### The tests that are come to -/

/-- An entry under another name. -/
def respell (entry : Entry) (other : Name) : Entry := { entry with filename := other }

/-- An entry with the way to it, and the other spelling of its name. -/
abbrev Place := List ℕ × Entry × Name

def Place.first (place : Place) : Located := (place.1, place.2.1)

def Place.second (place : Place) : Located := (place.1, respell place.2.1 place.2.2)

def places (parts : List (Entry × Name)) : List Place := parts.mapIdx fun i part ↦ ([i], part)

theorem locate_first (parts : List (Entry × Name)) :
    locate [] (parts.map Prod.fst) = (places parts).map Place.first := by
  refine List.ext_getElem (by simp [locate, places]) fun i _ _ ↦ ?_
  simp [locate, places, Place.first]

theorem locate_second (parts : List (Entry × Name)) :
    locate [] (parts.map fun part ↦ respell part.1 part.2) = (places parts).map Place.second := by
  refine List.ext_getElem (by simp [locate, places]) fun i _ _ ↦ ?_
  simp [locate, places, Place.second]

theorem mem_of_mem_places {parts : List (Entry × Name)} {place : Place}
    (h : place ∈ places parts) : place.2 ∈ parts := by
  obtain ⟨i, hi, rfl⟩ := List.mem_mapIdx.mp h
  exact List.getElem_mem hi

variable (office)

/-- The two spellings of a part are not told apart by the tests that its cleaning comes to. -/
structure SameTests (found otherFound : List (Name × List Bytes) × List Name) (place : Place) :
    Prop where
  dropped : isDropped place.2.1.filename = isDropped place.2.2
  empty : isDropped place.2.1.filename = false →
    emptyPart office found.2 place.2.1.filename = emptyPart office otherFound.2 place.2.2
  -- the part can be read
  read : isDropped place.2.1.filename = false →
    ∀ body, outcome (readEntry office found.2 place.first) = .ok body →
      idsOf found.1 place.2.1.filename = idsOf otherFound.1 place.2.2 ∧
        contains place.2.1.filename "/embeddings/".toList = contains place.2.2 "/embeddings/".toList
  -- what is embedded in it, or pictured, can be cleaned
  cleaned : isDropped place.2.1.filename = false →
    ∀ body, cleanedBody office (stripEmbedded office) found.1 found.2 place.first = .ok body →
      hasPaths place.2.1.filename = hasPaths place.2.2 ∧
        ruleOf office place.2.1.filename = ruleOf office place.2.2

/-- No part is told apart, up to the first that is refused. -/
def SameParts (found otherFound : List (Name × List Bytes) × List Name) : List Place → Prop
  | [] => True
  | place :: rest => SameTests office found otherFound place ∧
      ∀ part, outcome (stripPart office (stripEmbedded office) found.1 found.2 place.first) =
        .ok part → SameParts found otherFound rest

/-- Two spellings of the parts of a package are not told apart, as far as a call comes: the package is
too large, or both are refused when the relationships are looked up, or no part is told apart. -/
def Alike (parts : List (Entry × Name)) : Prop :=
  20 * maxSizeBytes < (parts.map fun part ↦ part.1.fileSize).sum ∨
    match lookups office ((places parts).map Place.first),
      lookups office ((places parts).map Place.second) with
    | .ok found, .ok otherFound => SameParts office found otherFound (places parts)
    | .error _, .error _ => True
    | _, _ => False

/-- Both files are refused, or the same parts are dropped, and the others are cleaned to the same
bodies. -/
def CleanedAlike (data otherData : Bytes) (parts : List (Entry × Name)) : Prop :=
  (∃ fault otherFault, cleanedOoxml office data = .error fault ∧
    cleanedOoxml office otherData = .error otherFault) ∨
  ∃ bodies, cleanedOoxml office data =
      .ok (office.writeZip (leftParts (parts.map Prod.fst) bodies)) ∧
    cleanedOoxml office otherData =
      .ok (office.writeZip (leftParts (parts.map fun part ↦ respell part.1 part.2) bodies))

variable {office} {found otherFound : List (Name × List Bytes) × List Name}

theorem cleanEmbedded_congr (recurse : List ℕ → Bytes → Inflating Bytes) (path : List ℕ)
    {entry : Entry} {other : Name} (hletters : SameLetters entry.filename other)
    (hembedded : contains entry.filename "/embeddings/".toList =
      contains other "/embeddings/".toList) :
    cleanEmbedded recurse (path, respell entry other) = cleanEmbedded recurse (path, entry) := by
  unfold cleanEmbedded
  dsimp only [respell]
  rw [hembedded, pathSuffix_congr hletters]
  rfl

/-- A part whose spellings are not told apart comes to the same. -/
theorem outcome_stripPart_congr {place : Place} (hletters : SameLetters place.2.1.filename place.2.2)
    (h : SameTests office found otherFound place) :
    outcome (stripPart office (stripEmbedded office) found.1 found.2 place.first) =
      outcome (stripPart office (stripEmbedded office) otherFound.1 otherFound.2 place.second) := by
  rw [outcome_stripPart steady_stripEmbedded, outcome_stripPart steady_stripEmbedded]
  change (if isDropped place.2.1.filename then _ else _) = if isDropped place.2.2 then _ else _
  rw [← h.dropped]
  split_ifs with hdropped
  · rfl
  · have hkept := Bool.eq_false_iff.mpr hdropped
    have hread : outcome (readEntry office otherFound.2 place.second) =
        outcome (readEntry office found.2 place.first) := by
      have hempty : emptyPart office otherFound.2 place.second.2.filename =
          emptyPart office found.2 place.first.2.filename := (h.empty hkept).symm
      unfold readEntry
      rw [hempty]
      rfl
    have hbody : cleanedBody office (stripEmbedded office) otherFound.1 otherFound.2 place.second =
        cleanedBody office (stripEmbedded office) found.1 found.2 place.first := by
      have hids := h.read hkept
      unfold cleanedBody
      rw [hread]
      revert hids
      cases outcome (readEntry office found.2 place.first) with
      | error fault => exact fun _ ↦ rfl
      | ok body =>
        intro hids
        obtain ⟨hsame, hembedded⟩ := hids body rfl
        dsimp only [Except.bind]
        have hclean : cleanEmbedded (stripEmbedded office) place.second =
            cleanEmbedded (stripEmbedded office) place.first :=
          cleanEmbedded_congr _ _ hletters hembedded
        rw [hclean]
        change (outcome (cleanEmbedded _ place.first ((idsOf otherFound.1 place.2.2).foldl _ body))).bind
          (cleanPicture office place.2.2) = _
        rw [← hsame, ← cleanPicture_congr hletters]
        rfl
    rw [hbody]
    have hrules := h.cleaned hkept
    revert hrules
    cases cleanedBody office (stripEmbedded office) found.1 found.2 place.first with
    | error fault => exact fun _ ↦ rfl
    | ok body =>
      intro hrules
      obtain ⟨hpaths, hrule⟩ := hrules body rfl
      change Except.ok (some (anonymisePart office place.2.1.filename body)) =
        Except.ok (some (anonymisePart office place.2.2 body))
      rw [anonymisePart_eq, anonymisePart_eq, hpaths, hrule]

/-- The parts come to the same, up to the first that is refused. -/
theorem mapM_congr {all : List Place}
    (hletters : ∀ place ∈ all, SameLetters place.2.1.filename place.2.2)
    (h : SameParts office found otherFound all) :
    ((all.map Place.first).mapM fun entry ↦
        outcome (stripPart office (stripEmbedded office) found.1 found.2 entry)) =
      (all.map Place.second).mapM fun entry ↦
        outcome (stripPart office (stripEmbedded office) otherFound.1 otherFound.2 entry) := by
  induction all with
  | nil => rfl
  | cons place all ih =>
    obtain ⟨htests, hrest⟩ := h
    obtain ⟨hfirst, hothers⟩ := List.forall_mem_cons.mp hletters
    rw [List.map_cons, List.map_cons, List.mapM_cons, List.mapM_cons,
      ← outcome_stripPart_congr hfirst htests]
    revert hrest
    cases outcome (stripPart office (stripEmbedded office) found.1 found.2 place.first) with
    | error fault => exact fun _ ↦ rfl
    | ok part =>
      intro hrest
      rw [ih hothers (hrest part rfl)]

/-- Two packages that are not told apart are both refused, or come to the same. -/
theorem partsOf_alike {parts : List (Entry × Name)}
    (hletters : ∀ part ∈ parts, SameLetters part.1.filename part.2) (halike : Alike office parts) :
    (∃ fault otherFault, partsOf office (parts.map Prod.fst) = .error fault ∧
      partsOf office (parts.map fun part ↦ respell part.1 part.2) = .error otherFault) ∨
    partsOf office (parts.map Prod.fst) =
      partsOf office (parts.map fun part ↦ respell part.1 part.2) := by
  have hfirst : ((parts.map Prod.fst).map Entry.fileSize).sum =
      (parts.map fun part ↦ part.1.fileSize).sum := by
    rw [List.map_map]
    rfl
  have hsecond : ((parts.map fun part ↦ respell part.1 part.2).map Entry.fileSize).sum =
      (parts.map fun part ↦ part.1.fileSize).sum := by
    rw [List.map_map]
    rfl
  by_cases hlarge : 20 * maxSizeBytes < (parts.map fun part ↦ part.1.fileSize).sum
  · refine .inr ?_
    unfold partsOf stripParts
    rw [if_pos (hfirst ▸ hlarge), if_pos (hsecond ▸ hlarge)]
  · have htests := halike.resolve_left hlarge
    rw [partsOf_eq (hfirst ▸ hlarge), partsOf_eq (hsecond ▸ hlarge), locate_first, locate_second]
    revert htests
    cases lookups office ((places parts).map Place.first) with
    | error fault =>
      cases lookups office ((places parts).map Place.second) with
      | error otherFault => exact fun _ ↦ .inl ⟨fault, otherFault, rfl, rfl⟩
      | ok otherFound => exact False.elim
    | ok found =>
      cases lookups office ((places parts).map Place.second) with
      | error otherFault => exact False.elim
      | ok otherFound =>
        exact fun htests ↦ .inr (mapM_congr
          (fun place hplace ↦ hletters _ (mem_of_mem_places hplace)) htests)

/-- Two files that differ only in the letter case of their part names, and are not told apart as far as a
call comes: both are refused or neither, the same parts are dropped, and the others are cleaned to the
same bodies. -/
theorem spellings_are_cleaned_alike {data otherData : Bytes}
    {parts : List (Entry × Name)} (hdata : office.openZip data = .ok (parts.map Prod.fst))
    (hother : office.openZip otherData = .ok (parts.map fun part ↦ respell part.1 part.2))
    (hletters : ∀ part ∈ parts, SameLetters part.1.filename part.2) (halike : Alike office parts) :
    CleanedAlike office data otherData parts := by
  unfold CleanedAlike
  rw [cleanedOoxml_eq hdata, cleanedOoxml_eq hother]
  rcases partsOf_alike hletters halike with ⟨fault, otherFault, hfirst, hsecond⟩ | hsame
  · rw [hfirst, hsecond]
    exact .inl ⟨fault, otherFault, rfl, rfl⟩
  · rw [← hsame]
    cases partsOf office (parts.map Prod.fst) with
    | error fault => exact .inl ⟨fault, fault, rfl, rfl⟩
    | ok bodies => exact .inr ⟨bodies, rfl, rfl⟩

/-! ### Two spellings of a thumbnail -/

/-- An archive of one entry that is not compressed. -/
def storedZip (name : Name) (body : Bytes) : Bytes :=
  let fields := toLittle 2 20 ++ toLittle 2 0 ++ toLittle 2 0 ++ toLittle 2 0 ++ toLittle 2 33 ++
    toLittle 4 (crc32 body) ++ toLittle 4 body.length ++ toLittle 4 body.length ++
      toLittle 2 name.length ++ toLittle 2 0
  let head := [0x50, 0x4B, 0x03, 0x04] ++ fields ++ ascii name ++ body
  let directory := [0x50, 0x4B, 0x01, 0x02] ++ toLittle 2 20 ++ fields ++ toLittle 2 0 ++
    toLittle 2 0 ++ toLittle 2 0 ++ toLittle 4 0 ++ toLittle 4 0 ++ ascii name
  head ++ directory ++ ([0x50, 0x4B, 0x05, 0x06] ++ toLittle 2 0 ++ toLittle 2 0 ++ toLittle 2 1 ++
    toLittle 2 1 ++ toLittle 4 directory.length ++ toLittle 4 head.length ++ toLittle 2 0)

/-- An installation that has these archives of one entry to read, and no text to rewrite. -/
def sampleOffice (samples : List (Name × Bytes)) : Office where
  openZip data := match samples.find? fun sample ↦ decide (storedZip sample.1 sample.2 = data) with
    | some (name, body) => .ok [⟨name, body.length, .ok body⟩]
    | none => .error (.metadata "File is not a zip file")
  writeZip parts := parts.flatMap fun part ↦ storedZip part.1 part.2
  casefold := lower
  isDecimal c := c.isDigit
  stripImage := .ok
  printerIds _ := []
  coreTargets _ := .ok []
  dropReference _ body := body
  scrubProfilePaths body := body
  dropDrawingMetadata body := body
  anonymiseWord body := body
  dropAbsPath body := body
  isSpProperties _ := false
  emptySpProperties := []
  anonymiseComments body := body
  neutralAttrs body _ := body
  dropPrinterRelationships body := body
  dropThumbnailRelationships body := body
  dropOverrides body := body

def fontName : Name := "word/fonts/font1.odttf".toList

def otherFontName : Name := "word/Fonts/font1.odttf".toList

def fonts : List (Name × Bytes) := [(fontName, [0x01]), (otherFontName, [0x01])]

theorem fonts_are_cleaned_alike : CleanedAlike (sampleOffice fonts) (storedZip fontName [0x01])
    (storedZip otherFontName [0x01]) [(⟨fontName, 1, .ok [0x01]⟩, otherFontName)] := by
  have hfirst : (sampleOffice fonts).openZip (storedZip fontName [0x01]) =
      .ok [⟨fontName, 1, .ok [0x01]⟩] := by decide +kernel
  have hsecond : (sampleOffice fonts).openZip (storedZip otherFontName [0x01]) =
      .ok [⟨otherFontName, 1, .ok [0x01]⟩] := by decide +kernel
  have hletters : ∀ part ∈ [((⟨fontName, 1, .ok [0x01]⟩ : Entry), otherFontName)],
      SameLetters part.1.filename part.2 := by
    intro part hpart
    rw [List.mem_singleton.mp hpart]
    exact (by decide +kernel : lower fontName = lower otherFontName)
  have halike : Alike (sampleOffice fonts) [(⟨fontName, 1, .ok [0x01]⟩, otherFontName)] := by
    refine .inr ?_
    have hnone : lookups (sampleOffice fonts) [([0], ⟨fontName, 1, .ok [0x01]⟩)] = .ok ([], []) := by
      decide +kernel
    have hother : lookups (sampleOffice fonts) [([0], ⟨otherFontName, 1, .ok [0x01]⟩)] =
        .ok ([], []) := by decide +kernel
    change match lookups (sampleOffice fonts) [([0], ⟨fontName, 1, .ok [0x01]⟩)],
      lookups (sampleOffice fonts) [([0], ⟨otherFontName, 1, .ok [0x01]⟩)] with
      | .ok found, .ok otherFound => SameParts (sampleOffice fonts) found otherFound _
      | .error _, .error _ => True
      | _, _ => False
    rw [hnone, hother]
    have htests : SameTests (sampleOffice fonts) ([], []) ([], [])
        ([0], ⟨fontName, 1, .ok [0x01]⟩, otherFontName) := by
      refine ⟨?_, fun _ ↦ ?_, fun _ _ _ ↦ ⟨?_, ?_⟩, fun _ _ _ ↦ ⟨?_, ?_⟩⟩ <;> decide +kernel
    exact ⟨htests, fun _ _ ↦ trivial⟩
  exact spellings_are_cleaned_alike hfirst hsecond hletters halike

/-- `userNames.xml` is looked for among the revisions only. -/
example : ruleOf (sampleOffice []) "foo/userNames.xml".toList =
    ruleOf (sampleOffice []) "foo/usernames.xml".toList := by
  decide +kernel

def thumbnailName : Name := "docProps/thumbnail.jpeg".toList

def otherThumbnailName : Name := "docprops/thumbnail.jpeg".toList

def thumbnails : List (Name × Bytes) :=
  [(thumbnailName, [0xFF, 0xD8]), (otherThumbnailName, [0xFF, 0xD8])]

/-- The thumbnail is dropped under one name and kept under the other. -/
theorem thumbnails_are_told_apart : ¬CleanedAlike (sampleOffice thumbnails)
    (storedZip thumbnailName [0xFF, 0xD8]) (storedZip otherThumbnailName [0xFF, 0xD8])
    [(⟨thumbnailName, 2, .ok [0xFF, 0xD8]⟩, otherThumbnailName)] := by
  have hdropped : cleanedOoxml (sampleOffice thumbnails) (storedZip thumbnailName [0xFF, 0xD8]) =
      .ok [] := by decide +kernel
  have hkept : cleanedOoxml (sampleOffice thumbnails) (storedZip otherThumbnailName [0xFF, 0xD8]) =
      .ok (storedZip otherThumbnailName [0xFF, 0xD8]) := by decide +kernel
  rintro (⟨fault, -, hfault, -⟩ | ⟨bodies, hfirst, hsecond⟩)
  · rw [hdropped] at hfault
    cases hfault
  · rw [hdropped] at hfirst
    rw [hkept] at hsecond
    match bodies with
    | [] => exact absurd (Except.ok.inj hsecond) (by decide +kernel)
    | none :: bodies => exact absurd (Except.ok.inj hsecond) (by simp [leftParts, sampleOffice, storedZip])
    | some body :: bodies => exact absurd (Except.ok.inj hfirst) (by simp [leftParts, sampleOffice, storedZip])

end OpenWhistle.Attachments
