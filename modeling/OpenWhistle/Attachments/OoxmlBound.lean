import OpenWhistle.Attachments.OoxmlNames
import Mathlib.Algebra.BigOperators.Group.Finset.Basic
import Mathlib.Data.Finset.Lattice.Basic

/-!
# How far an Office file inflates

A call refuses a package whose entries declare more than twenty times the size of an attachment. The
bound is for each package: an embedded one is cleaned by a call of its own, with the whole bound for
itself, and there may be any number of them.

So the check bounds what a call inflates where nothing is embedded. Where something is, the sizes that
the packages declare count together, less those of the entries that are never read: such as are
dropped or replaced by their names, and tell no relationships.
-/

set_option autoImplicit false
set_option relaxedAutoImplicit false

namespace OpenWhistle.Attachments

open Bytes

/-! ### What a function notes -/

section Notes

variable {α β ι : Type}

/-- The function ends with this result, from some state. -/
def Returns (m : Inflating α) (a : α) : Prop := ∃ s t, m.run s = .ok (a, t)

/-- The function notes these entries, whenever it ends. -/
def Logs (m : Inflating α) (log : Inflated) : Prop := ∀ s a t, m.run s = .ok (a, t) → t = s ∪ log

/-- The entries noted for all the items of a list. -/
def unions (items : List ι) (log : ι → Inflated) : Inflated :=
  items.foldr (fun item all ↦ log item ∪ all) ∅

theorem logs_pure (a : α) : Logs (pure a) ∅ := by
  rintro s b t h
  cases h
  exact (Finset.union_empty s).symm

theorem logs_lift (x : Except Fault α) : Logs (liftM x : Inflating α) ∅ := by
  rintro s a t h
  cases x with
  | error fault => cases h
  | ok b =>
    cases h
    exact (Finset.union_empty s).symm

theorem returns_pure {a b : α} (h : Returns (pure a : Inflating α) b) : b = a := by
  obtain ⟨s, t, hrun⟩ := h
  cases hrun
  rfl

theorem returns_lift {x : Except Fault α} {a : α} (h : Returns (liftM x : Inflating α) a) :
    x = .ok a := by
  obtain ⟨s, t, hrun⟩ := h
  cases x with
  | error fault => cases hrun
  | ok b =>
    cases hrun
    rfl

theorem run_throw (fault : Fault) (s : Inflated) :
    (throw fault : Inflating α).run s = .error fault := rfl

theorem logs_throw (fault : Fault) (log : Inflated) : Logs (throw fault : Inflating α) log := by
  rintro s a t h
  rw [run_throw] at h
  cases h

theorem bind_run {m : Inflating α} {f : α → Inflating β} {s t : Inflated} {b : β}
    (h : (m >>= f).run s = .ok (b, t)) :
    ∃ a u, m.run s = .ok (a, u) ∧ (f a).run u = .ok (b, t) := by
  rw [StateT.run_bind] at h
  cases hm : m.run s with
  | error fault =>
    rw [hm] at h
    cases h
  | ok result =>
    rw [hm] at h
    exact ⟨result.1, result.2, rfl, h⟩

theorem Logs.bind {m : Inflating α} {f : α → Inflating β} {log more : Inflated} (hm : Logs m log)
    (hf : ∀ a, Returns m a → Logs (f a) more) : Logs (m >>= f) (log ∪ more) := by
  rintro s b t h
  obtain ⟨a, u, hfirst, hrest⟩ := bind_run h
  rw [hf a ⟨s, u, hfirst⟩ u b t hrest, hm s a u hfirst, Finset.union_assoc]

theorem Returns.bind {m : Inflating α} {f : α → Inflating β} {b : β} (h : Returns (m >>= f) b) :
    ∃ a, Returns m a ∧ Returns (f a) b := by
  obtain ⟨s, t, hrun⟩ := h
  obtain ⟨a, u, hfirst, hrest⟩ := bind_run hrun
  exact ⟨a, ⟨s, u, hfirst⟩, u, t, hrest⟩

theorem logs_mapM {f : ι → Inflating β} {log : ι → Inflated} {items : List ι}
    (h : ∀ item ∈ items, Logs (f item) (log item)) : Logs (items.mapM f) (unions items log) := by
  induction items with
  | nil => exact logs_pure []
  | cons item items ih =>
    obtain ⟨hitem, hrest⟩ := List.forall_mem_cons.mp h
    rw [List.mapM_cons]
    refine hitem.bind fun b _ ↦ ?_
    have hmore := (ih hrest).bind fun bs _ ↦ logs_pure (b :: bs)
    rwa [Finset.union_empty] at hmore

theorem returns_mapM {f : ι → Inflating β} {g : ι → β} {items : List ι}
    (h : ∀ item ∈ items, ∀ b, Returns (f item) b → b = g item) :
    ∀ {results : List β}, Returns (items.mapM f) results → results = items.map g := by
  induction items with
  | nil => exact fun hresults ↦ returns_pure hresults
  | cons item items ih =>
    intro results hresults
    obtain ⟨hitem, hrest⟩ := List.forall_mem_cons.mp h
    rw [List.mapM_cons] at hresults
    obtain ⟨b, hb, hbind⟩ := hresults.bind
    obtain ⟨bs, hbs, hcons⟩ := hbind.bind
    rw [returns_pure hcons, hitem b hb, ih hrest hbs, List.map_cons]

end Notes

/-! ### The entries the rules have read -/

/-- What is noted of an entry. -/
def key (entry : Located) : List ℕ × ℕ := (entry.1, entry.2.fileSize)

variable (office : Office)

/-- The ids of the settings of printers, by the part that refers to them. -/
def idsOfPackage (entries : List Located) : List (Name × List Bytes) :=
  ((relationships entries).map fun entry ↦
    (removeSuffix (removeFirst entry.2.filename "_rels/".toList) ".rels".toList,
      office.printerIds (entry.2.content.toOption.getD []))).filter fun id ↦ !id.2.isEmpty

/-- The names of the core properties. -/
def coreOfPackage (entries : List Located) : List Name :=
  match named entries "_rels/.rels".toList with
  | none => []
  | some entry => (((entry.2.content.bind office.coreTargets).toOption).getD []).map fun target ↦
      office.casefold (target.dropWhile fun c ↦ c = '/')

/-- The body of a part, in front of the rules for embedded files and pictures. -/
def bodyOf (printerIds : List (Name × List Bytes)) (coreParts : List Name) (entry : Located) :
    Except Fault Bytes :=
  (match emptyPart office coreParts entry.2.filename with
    | some empty => Except.ok empty
    | none => entry.2.content).map fun body ↦
      (idsOf printerIds entry.2.filename).foldl (fun body id ↦ office.dropReference id body) body

/-- The entries that tell which parts refer to printers, and which are core properties. -/
def relsRead (entries : List Located) : Inflated :=
  unions (relationships entries) (fun entry ↦ {key entry}) ∪
    match named entries "_rels/.rels".toList with
    | none => ∅
    | some entry => {key entry}

/-- The entry itself, unless it is dropped or replaced. -/
def partRead (coreParts : List Name) (entry : Located) : Inflated :=
  if isDropped entry.2.filename then ∅
  else if (emptyPart office coreParts entry.2.filename).isSome then ∅
  else {key entry}

/-- The entries of an embedded package. -/
def embeddedRead (nested : List ℕ → Bytes → Inflated) (printerIds : List (Name × List Bytes))
    (coreParts : List Name) (entry : Located) : Inflated :=
  if isDropped entry.2.filename then ∅
  else if contains entry.2.filename "/embeddings/".toList then
    match bodyOf office printerIds coreParts entry with
    | .ok body => nested entry.1 body
    | .error _ => ∅
  else ∅

/-- The entries of a package that the rules have read, with those of the packages in it. -/
def packageRead (nested : List ℕ → Bytes → Inflated) (path : List ℕ) (data : Bytes) : Inflated :=
  match office.openZip data with
  | .error _ => ∅
  | .ok entries =>
    let entries := locate path entries
    let printerIds := idsOfPackage office entries
    let coreParts := coreOfPackage office entries
    relsRead entries ∪ unions entries fun entry ↦
      partRead office coreParts entry ∪ embeddedRead office nested printerIds coreParts entry

/-- The entries of a file that the rules have read: its own, and those of the packages in it. -/
def fileRead (data : Bytes) : Inflated :=
  packageRead office (packageRead office fun _ _ ↦ ∅) [] data

def totalSize (inflated : Inflated) : ℕ := ∑ entry ∈ inflated, entry.2

/-! ### What the packages declare -/

/-- The entries of an archive, with the ways to them. -/
def entriesOf (package : List ℕ × Bytes) : List Located :=
  match office.openZip package.2 with
  | .ok entries => locate package.1 entries
  | .error _ => []

/-- The bytes of an embedded file, with the way to it. -/
def embeddedFile (printerIds : List (Name × List Bytes)) (coreParts : List Name) (entry : Located) :
    Option (List ℕ × Bytes) :=
  if !isDropped entry.2.filename && contains entry.2.filename "/embeddings/".toList then
    (bodyOf office printerIds coreParts entry).toOption.map fun body ↦ (entry.1, body)
  else none

/-- The files embedded in a package, as they are opened. -/
def embeddedFiles (package : List ℕ × Bytes) : List (List ℕ × Bytes) :=
  let entries := entriesOf office package
  entries.filterMap
    (embeddedFile office (idsOfPackage office entries) (coreOfPackage office entries))

/-- A file, and those embedded in it. -/
def packagesOf (data : Bytes) : List (List ℕ × Bytes) :=
  ([], data) :: embeddedFiles office ([], data)

def sizes (entries : List Located) : ℕ := (entries.map fun entry ↦ entry.2.fileSize).sum

/-- An entry is looked up for relationships: of each name that ends in `.rels`, the last one. -/
def isLookedUp (entries : List Located) (entry : Located) : Bool :=
  endsWith entry.2.filename ".rels".toList &&
    decide (named entries entry.2.filename = some entry)

/-- An entry is dropped or replaced by its name, and is not looked up for relationships. -/
def isUnread (entries : List Located) (entry : Located) : Bool :=
  (isDropped entry.2.filename ||
    (emptyPart office (coreOfPackage office entries) entry.2.filename).isSome) &&
  !isLookedUp entries entry

/-- What the entries of the packages declare. -/
def declared (packages : List (List ℕ × Bytes)) : ℕ :=
  (packages.map fun package ↦ sizes (entriesOf office package)).sum

/-- What the entries declare that are never read. -/
def unread (packages : List (List ℕ × Bytes)) : ℕ :=
  (packages.map fun package ↦
    let entries := entriesOf office package
    sizes (entries.filter (isUnread office entries))).sum

/-! ### What a call notes -/

variable {office}

theorem logs_inflate (entry : Located) : Logs (inflate entry) {key entry} := by
  have hmodify : Logs (modify fun inflated ↦ insert (key entry) inflated : Inflating Unit)
      {key entry} := by
    rintro s a t h
    cases h
    change insert (key entry) s = s ∪ {key entry}
    rw [Finset.insert_eq, Finset.union_comm]
  have h := hmodify.bind fun _ _ ↦ logs_lift entry.2.content
  rwa [Finset.union_empty] at h

theorem returns_inflate {entry : Located} {body : Bytes} (h : Returns (inflate entry) body) :
    entry.2.content = .ok body := by
  obtain ⟨-, -, hlift⟩ := h.bind
  exact returns_lift hlift

theorem logs_printerSettingsIds (entries : List Located) :
    Logs (printerSettingsIds office entries)
      (unions (relationships entries) fun entry ↦ {key entry}) := by
  have hentry : ∀ entry ∈ relationships entries, Logs (do
      let found := office.printerIds (← inflate entry)
      return (removeSuffix (removeFirst entry.2.filename "_rels/".toList) ".rels".toList, found) :
        Inflating (Name × List Bytes)) {key entry} := by
    intro entry _
    have h := (logs_inflate entry).bind fun body _ ↦ logs_pure
      (removeSuffix (removeFirst entry.2.filename "_rels/".toList) ".rels".toList,
        office.printerIds body)
    rwa [Finset.union_empty] at h
  have h := (logs_mapM hentry).bind fun ids _ ↦ logs_pure (ids.filter fun id ↦ !id.2.isEmpty)
  rwa [Finset.union_empty] at h

theorem returns_printerSettingsIds {entries : List Located} {ids : List (Name × List Bytes)}
    (h : Returns (printerSettingsIds office entries) ids) : ids = idsOfPackage office entries := by
  obtain ⟨found, hfound, hids⟩ := h.bind
  rw [returns_pure hids, idsOfPackage, returns_mapM (fun entry _ result hresult ↦ ?_) hfound]
  obtain ⟨body, hbody, hpure⟩ := hresult.bind
  rw [returns_pure hpure, returns_inflate hbody]
  rfl

theorem logs_corePropertyParts (entries : List Located) :
    Logs (corePropertyParts office entries) (match named entries "_rels/.rels".toList with
      | none => ∅
      | some entry => {key entry}) := by
  unfold corePropertyParts
  cases named entries "_rels/.rels".toList with
  | none => exact logs_pure []
  | some entry =>
    have h := (logs_inflate entry).bind fun rels _ ↦
      (logs_lift (office.coreTargets rels)).bind fun targets _ ↦
        logs_pure (targets.map fun target ↦ office.casefold (target.dropWhile fun c ↦ c = '/'))
    rwa [Finset.union_empty, Finset.union_empty] at h

theorem returns_corePropertyParts {entries : List Located} {coreParts : List Name}
    (h : Returns (corePropertyParts office entries) coreParts) :
    coreParts = coreOfPackage office entries := by
  unfold corePropertyParts at h
  unfold coreOfPackage
  cases hnamed : named entries "_rels/.rels".toList with
  | none =>
    rw [hnamed] at h
    exact returns_pure h
  | some entry =>
    rw [hnamed] at h
    obtain ⟨rels, hrels, htargets⟩ := h.bind
    obtain ⟨targets, hlift, hpure⟩ := htargets.bind
    have hbind : entry.2.content.bind office.coreTargets = .ok targets := by
      rw [returns_inflate hrels]
      exact returns_lift hlift
    rw [returns_pure hpure]
    dsimp only
    rw [hbind]
    rfl

/-- The entry, unless a part replaces it. -/
def unreplaced (office : Office) (coreParts : List Name) (entry : Located) : Inflated :=
  if (emptyPart office coreParts entry.2.filename).isSome then ∅ else {key entry}

theorem logs_readPart (printerIds : List (Name × List Bytes)) (coreParts : List Name)
    (entry : Located) : Logs (readPart office printerIds coreParts entry)
      (unreplaced office coreParts entry) := by
  have hentry : Logs (readEntry office coreParts entry) (unreplaced office coreParts entry) := by
    unfold readEntry unreplaced
    cases emptyPart office coreParts entry.2.filename with
    | none => exact logs_inflate entry
    | some empty => exact logs_pure empty
  have h := hentry.bind fun body _ ↦ logs_pure
    ((idsOf printerIds entry.2.filename).foldl (fun body id ↦ office.dropReference id body) body)
  rwa [Finset.union_empty] at h

theorem returns_readPart {printerIds : List (Name × List Bytes)} {coreParts : List Name}
    {entry : Located} {body : Bytes} (h : Returns (readPart office printerIds coreParts entry) body) :
    bodyOf office printerIds coreParts entry = .ok body := by
  obtain ⟨read, hread, hpure⟩ := h.bind
  rw [returns_pure hpure, bodyOf]
  unfold readEntry at hread
  cases hempty : emptyPart office coreParts entry.2.filename with
  | none =>
    rw [hempty] at hread
    rw [returns_inflate hread]
    rfl
  | some empty =>
    rw [hempty] at hread
    rw [returns_pure hread]
    rfl

section Package

variable {recurse : List ℕ → Bytes → Inflating Bytes} {nested : List ℕ → Bytes → Inflated}

/-- A part notes itself, and the entries of the package in it. -/
theorem logs_stripPart (hrecurse : ∀ path body, Logs (recurse path body) (nested path body))
    (printerIds : List (Name × List Bytes)) (coreParts : List Name) (entry : Located) :
    Logs (stripPart office recurse printerIds coreParts entry)
      (partRead office coreParts entry ∪ embeddedRead office nested printerIds coreParts entry) := by
  unfold stripPart partRead embeddedRead
  by_cases hdropped : isDropped entry.2.filename = true
  · rw [if_pos hdropped, if_pos hdropped, if_pos hdropped, Finset.union_empty]
    exact logs_pure none
  · rw [if_neg hdropped, if_neg hdropped, if_neg hdropped]
    refine (logs_readPart printerIds coreParts entry).bind fun body hbody ↦ ?_
    rw [returns_readPart hbody]
    dsimp only
    have hembedded : Logs (cleanEmbedded recurse entry body)
        (if contains entry.2.filename "/embeddings/".toList then nested entry.1 body else ∅) := by
      unfold cleanEmbedded
      split_ifs
      · exact hrecurse entry.1 body
      · exact logs_throw _ _
      · exact logs_pure body
    have h := hembedded.bind fun cleaned _ ↦
      (logs_lift (cleanPicture office entry.2.filename cleaned)).bind fun picture _ ↦
        logs_pure (some (anonymisePart office entry.2.filename picture))
    rwa [Finset.union_empty, Finset.union_empty] at h

/-- A package notes what the rules have read. -/
theorem logs_stripPackage (hrecurse : ∀ path body, Logs (recurse path body) (nested path body))
    (path : List ℕ) (data : Bytes) : Logs (stripPackage office recurse path data)
      (packageRead office nested path data) := by
  unfold stripPackage packageRead
  cases hopen : office.openZip data with
  | error fault => exact logs_throw fault ∅
  | ok entries =>
    dsimp only
    have hparts : Logs (stripParts office recurse path entries)
        (relsRead (locate path entries) ∪ unions (locate path entries) fun entry ↦
          partRead office (coreOfPackage office (locate path entries)) entry ∪
            embeddedRead office nested (idsOfPackage office (locate path entries))
              (coreOfPackage office (locate path entries)) entry) := by
      unfold stripParts
      split_ifs
      · exact logs_throw _ _
      · dsimp only
        rw [relsRead, Finset.union_assoc]
        refine (logs_printerSettingsIds _).bind fun ids hids ↦ ?_
        refine (logs_corePropertyParts _).bind fun coreParts hcore ↦ ?_
        rw [← returns_printerSettingsIds hids, ← returns_corePropertyParts hcore]
        exact logs_mapM fun entry _ ↦ logs_stripPart hrecurse ids coreParts entry
    have h := hparts.bind fun parts _ ↦ logs_pure (office.writeZip (leftParts entries parts))
    rw [Finset.union_empty] at h
    intro s body t hrun
    exact h s body t hrun

end Package

/-- A call notes exactly what the rules have read. -/
theorem logs_stripOoxml (data : Bytes) : Logs (stripOoxml office data) (fileRead office data) :=
  logs_stripPackage (logs_stripPackage fun _ _ ↦ logs_throw _ _) [] data

/-! ### What the rules have read, by the entries -/

theorem mem_unions {α : Type} {items : List α} {log : α → Inflated} {k : List ℕ × ℕ} :
    k ∈ unions items log ↔ ∃ item ∈ items, k ∈ log item := by
  induction items with
  | nil => simp [unions]
  | cons item items ih =>
    have hcons : unions (item :: items) log = log item ∪ unions items log := rfl
    rw [hcons, Finset.mem_union, ih, List.exists_mem_cons_iff]

theorem mem_of_named {entries : List Located} {name : Name} {entry : Located}
    (h : named entries name = some entry) : entry ∈ entries ∧ entry.2.filename = name := by
  have hname := List.find?_some h
  exact ⟨List.mem_reverse.mp (List.mem_of_find?_eq_some h), of_decide_eq_true hname⟩

theorem mem_relationships {entries : List Located} {entry : Located} :
    entry ∈ relationships entries ↔ entry ∈ entries ∧ isLookedUp entries entry = true := by
  rw [relationships, List.mem_filterMap, isLookedUp, Bool.and_eq_true, decide_eq_true_iff]
  constructor
  · rintro ⟨other, -, hfound⟩
    split_ifs at hfound with hends
    obtain ⟨hmem, hname⟩ := mem_of_named hfound
    rw [hname]
    exact ⟨hmem, hends, hfound⟩
  · rintro ⟨hmem, hends, hnamed⟩
    exact ⟨entry, hmem, by rw [if_pos hends, hnamed]⟩

theorem mem_relsRead {entries : List Located} {k : List ℕ × ℕ} :
    k ∈ relsRead entries ↔ ∃ entry ∈ relationships entries, k = key entry := by
  have hunions : k ∈ unions (relationships entries) (fun entry ↦ {key entry}) ↔
      ∃ entry ∈ relationships entries, k = key entry := by
    simp only [mem_unions, Finset.mem_singleton]
  rw [relsRead, Finset.mem_union, hunions]
  refine ⟨fun h ↦ h.elim id fun hpackage ↦ ?_, .inl⟩
  -- the relationships of the package are among those of all parts
  cases hnamed : named entries "_rels/.rels".toList with
  | none =>
    rw [hnamed] at hpackage
    exact absurd hpackage (Finset.notMem_empty k)
  | some entry =>
    rw [hnamed] at hpackage
    obtain ⟨hmem, hname⟩ := mem_of_named hnamed
    refine ⟨entry, mem_relationships.mpr ⟨hmem, ?_⟩, Finset.mem_singleton.mp hpackage⟩
    rw [isLookedUp, hname, decide_eq_true hnamed]
    decide

/-- The entries of a package that are read are those that are not left unread. -/
theorem mem_read {entries : List Located} {k : List ℕ × ℕ} :
    k ∈ relsRead entries ∪ unions entries (partRead office (coreOfPackage office entries)) ↔
      ∃ entry ∈ entries, isUnread office entries entry = false ∧ k = key entry := by
  rw [Finset.mem_union, mem_relsRead, mem_unions]
  constructor
  · rintro (⟨entry, hmem, rfl⟩ | ⟨entry, hmem, hk⟩)
    · obtain ⟨hentry, hlooked⟩ := mem_relationships.mp hmem
      exact ⟨entry, hentry, by simp [isUnread, hlooked], rfl⟩
    · unfold partRead at hk
      split_ifs at hk with hdropped hempty
      · exact absurd hk (Finset.notMem_empty k)
      · exact absurd hk (Finset.notMem_empty k)
      · exact ⟨entry, hmem, by simp [isUnread, hdropped, hempty], Finset.mem_singleton.mp hk⟩
  · rintro ⟨entry, hmem, hread, rfl⟩
    by_cases hlooked : isLookedUp entries entry = true
    · exact .inl ⟨entry, mem_relationships.mpr ⟨hmem, hlooked⟩, rfl⟩
    · have hkept : isDropped entry.2.filename = false ∧
          (emptyPart office (coreOfPackage office entries) entry.2.filename).isSome = false := by
        simpa [isUnread, hlooked] using hread
      refine .inr ⟨entry, hmem, ?_⟩
      rw [partRead, if_neg (Bool.eq_false_iff.mp hkept.1), if_neg (Bool.eq_false_iff.mp hkept.2)]
      exact Finset.mem_singleton_self _

variable (office) in
/-- What is noted of the entries of a package that are read. -/
def readOf (package : List ℕ × Bytes) : List (List ℕ × ℕ) :=
  let entries := entriesOf office package
  (entries.filter fun entry ↦ !isUnread office entries entry).map key

theorem mem_embeddedRead {nested : List ℕ → Bytes → Inflated} {ids : List (Name × List Bytes)}
    {coreParts : List Name} {entry : Located} {k : List ℕ × ℕ} :
    k ∈ embeddedRead office nested ids coreParts entry ↔
      ∃ file, embeddedFile office ids coreParts entry = some file ∧ k ∈ nested file.1 file.2 := by
  unfold embeddedRead embeddedFile
  cases isDropped entry.2.filename with
  | true => simp
  | false =>
    cases contains entry.2.filename "/embeddings/".toList with
    | false => simp
    | true =>
      cases bodyOf office ids coreParts entry with
      | error fault => simp [Except.toOption]
      | ok body => simp [Except.toOption]

/-- A package notes its entries that are read, and what the files embedded in it note. -/
theorem mem_packageRead {nested : List ℕ → Bytes → Inflated} {path : List ℕ} {data : Bytes}
    {k : List ℕ × ℕ} : k ∈ packageRead office nested path data ↔ k ∈ readOf office (path, data) ∨
      ∃ file ∈ embeddedFiles office (path, data), k ∈ nested file.1 file.2 := by
  unfold packageRead readOf embeddedFiles entriesOf
  cases office.openZip data with
  | error fault => simp
  | ok entries =>
    dsimp only
    generalize locate path entries = located
    have hsplit : k ∈ (unions located fun entry ↦ partRead office (coreOfPackage office located) entry ∪
          embeddedRead office nested (idsOfPackage office located)
            (coreOfPackage office located) entry) ↔
        k ∈ unions located (partRead office (coreOfPackage office located)) ∨
          ∃ entry ∈ located, k ∈ embeddedRead office nested (idsOfPackage office located)
            (coreOfPackage office located) entry := by
      simp only [mem_unions, Finset.mem_union, and_or_left, exists_or]
    rw [Finset.mem_union, hsplit, ← or_assoc, ← Finset.mem_union, mem_read]
    refine or_congr ?_ ?_
    · simp only [List.mem_map, List.mem_filter, Bool.not_eq_true', and_assoc]
      exact exists_congr fun entry ↦ and_congr_right fun _ ↦ and_congr_right fun _ ↦ eq_comm
    · simp only [mem_embeddedRead, List.mem_filterMap]
      constructor
      · rintro ⟨entry, hmem, file, hfile, hk⟩
        exact ⟨file, ⟨entry, hmem, hfile⟩, hk⟩
      · rintro ⟨file, ⟨entry, hmem, hfile⟩, hk⟩
        exact ⟨entry, hmem, file, hfile, hk⟩

/-- A file notes the entries that are read, of all its packages. -/
theorem fileRead_eq (data : Bytes) :
    fileRead office data = ((packagesOf office data).flatMap (readOf office)).toFinset := by
  ext k
  rw [fileRead, mem_packageRead, List.mem_toFinset, packagesOf, List.flatMap_cons, List.mem_append,
    List.mem_flatMap]
  refine or_congr_right (exists_congr fun file ↦ and_congr_right fun _ ↦ ?_)
  rw [mem_packageRead]
  refine or_iff_left ?_
  rintro ⟨-, -, hnone⟩
  exact Finset.notMem_empty k hnone

/-! ### Each entry once -/

/-- The entries of a package are in their places. -/
theorem locate_pairwise (path : List ℕ) (entries : List Entry) :
    (locate path entries).Pairwise fun one other ↦ one.1 ≠ other.1 := by
  rw [List.pairwise_iff_getElem]
  intro i j hi hj hlt heq
  simp only [locate, List.getElem_mapIdx, List.append_cancel_left_eq, List.cons.injEq,
    and_true] at heq
  exact hlt.ne heq

theorem path_of_mem_locate {path : List ℕ} {entries : List Entry} {entry : Located}
    (h : entry ∈ locate path entries) : ∃ i, entry.1 = path ++ [i] := by
  obtain ⟨i, hi, rfl⟩ := List.mem_mapIdx.mp h
  exact ⟨i, rfl⟩

theorem entriesOf_pairwise (package : List ℕ × Bytes) :
    (entriesOf office package).Pairwise fun one other ↦ one.1 ≠ other.1 := by
  unfold entriesOf
  cases office.openZip package.2 with
  | error fault => exact .nil
  | ok entries => exact locate_pairwise _ _

theorem path_of_mem_entriesOf {package : List ℕ × Bytes} {entry : Located}
    (h : entry ∈ entriesOf office package) : ∃ i, entry.1 = package.1 ++ [i] := by
  unfold entriesOf at h
  cases hopen : office.openZip package.2 with
  | error fault =>
    rw [hopen] at h
    cases h
  | ok entries =>
    rw [hopen] at h
    exact path_of_mem_locate h

theorem path_of_embeddedFile {ids : List (Name × List Bytes)} {coreParts : List Name}
    {entry : Located} {file : List ℕ × Bytes}
    (h : embeddedFile office ids coreParts entry = some file) : file.1 = entry.1 := by
  unfold embeddedFile at h
  split_ifs at h
  obtain ⟨body, -, rfl⟩ := Option.map_eq_some_iff.mp h
  rfl

/-- The packages of a file are in places of their own. -/
theorem packagesOf_pairwise (data : Bytes) :
    (packagesOf office data).Pairwise fun one other ↦ one.1 ≠ other.1 := by
  refine List.pairwise_cons.mpr ⟨fun file hfile ↦ ?_, ?_⟩
  · obtain ⟨entry, hmem, hentry⟩ := List.mem_filterMap.mp hfile
    obtain ⟨i, hi⟩ := path_of_mem_entriesOf hmem
    rw [path_of_embeddedFile hentry, hi]
    exact (List.append_ne_nil_of_right_ne_nil _ (List.cons_ne_nil i [])).symm
  · refine (entriesOf_pairwise _).filterMap _ fun one other hne file hfile more hmore ↦ ?_
    rw [path_of_embeddedFile hfile, path_of_embeddedFile hmore]
    exact hne

theorem path_of_mem_readOf {package : List ℕ × Bytes} {k : List ℕ × ℕ}
    (h : k ∈ readOf office package) : k.1.dropLast = package.1 := by
  obtain ⟨entry, hmem, rfl⟩ := List.mem_map.mp h
  obtain ⟨i, hi⟩ := path_of_mem_entriesOf (List.mem_of_mem_filter hmem)
  rw [key, hi, List.dropLast_concat]

/-- No entry is noted for two packages, or twice for one. -/
theorem readOf_nodup (data : Bytes) : ((packagesOf office data).flatMap (readOf office)).Nodup := by
  refine List.nodup_flatMap.mpr ⟨fun package _ ↦ ?_, ?_⟩
  · refine List.pairwise_map.mpr (((entriesOf_pairwise package).filter _).imp fun hne heq ↦ ?_)
    exact hne (Prod.mk.inj heq).1
  · refine (packagesOf_pairwise data).imp fun hne k hone hother ↦ hne ?_
    rw [← path_of_mem_readOf hone, ← path_of_mem_readOf hother]

/-! ### The sizes together -/

theorem sizes_filter (p : Located → Bool) (entries : List Located) :
    sizes (entries.filter fun entry ↦ !p entry) + sizes (entries.filter p) = sizes entries := by
  induction entries with
  | nil => rfl
  | cons entry entries ih =>
    cases hp : p entry with
    | true => simp [sizes, hp] at ih ⊢; omega
    | false => simp [sizes, hp] at ih ⊢; omega

theorem sum_readOf (packages : List (List ℕ × Bytes)) :
    ((packages.flatMap (readOf office)).map Prod.snd).sum + unread office packages =
      declared office packages := by
  induction packages with
  | nil => rfl
  | cons package packages ih =>
    have hfirst := sizes_filter (isUnread office (entriesOf office package))
      (entriesOf office package)
    have hkeys : ((readOf office package).map Prod.snd).sum = sizes
        ((entriesOf office package).filter fun entry ↦
          !isUnread office (entriesOf office package) entry) := by
      rw [readOf, List.map_map]
      rfl
    rw [List.flatMap_cons, List.map_append, List.sum_append, hkeys]
    unfold unread declared at ih ⊢
    rw [List.map_cons, List.sum_cons, List.map_cons, List.sum_cons]
    dsimp only at ih ⊢
    omega

/-- What a file inflates, and what is left unread, is what its packages declare. -/
theorem totalSize_fileRead (data : Bytes) :
    totalSize (fileRead office data) + unread office (packagesOf office data) =
      declared office (packagesOf office data) := by
  rw [fileRead_eq, totalSize, List.sum_toFinset _ (readOf_nodup data)]
  exact sum_readOf _

theorem sizes_locate (path : List ℕ) (entries : List Entry) :
    sizes (locate path entries) = (entries.map Entry.fileSize).sum := by
  have hentries : (locate path entries).map Prod.snd = entries := by
    refine List.ext_getElem ?_ fun i _ _ ↦ ?_
    · rw [List.length_map, locate, List.length_mapIdx]
    · simp only [locate, List.getElem_map, List.getElem_mapIdx]
  rw [sizes]
  conv_rhs => rw [← hentries, List.map_map]
  rfl

/-- A package that is not refused declares no more than the bound. -/
theorem sizes_le_of_returns {recurse : List ℕ → Bytes → Inflating Bytes} {path : List ℕ}
    {data out : Bytes} (h : Returns (stripPackage office recurse path data) out) :
    sizes (entriesOf office (path, data)) ≤ 20 * maxSizeBytes := by
  obtain ⟨entries, hopen, hrest⟩ := h.bind
  obtain ⟨parts, hparts, -⟩ := hrest.bind
  have hentries : entriesOf office (path, data) = locate path entries := by
    rw [entriesOf, returns_lift hopen]
  rw [hentries, sizes_locate]
  by_contra hlarge
  obtain ⟨s, t, hrun⟩ := hparts
  rw [stripParts, if_pos (not_le.mp hlarge), run_throw] at hrun
  cases hrun

/-- A file that is not refused inflates no more than the bound, if and only if nothing is embedded
in it, or its packages declare no more together but for what is never read. -/
theorem inflated_within_bound_iff {data out : Bytes} {inflated : Inflated}
    (hrun : (stripOoxml office data).run ∅ = .ok (out, inflated)) :
    totalSize inflated ≤ 20 * maxSizeBytes ↔ embeddedFiles office ([], data) = [] ∨
      declared office (packagesOf office data) ≤
        20 * maxSizeBytes + unread office (packagesOf office data) := by
  have hlog := logs_stripOoxml data ∅ out inflated hrun
  rw [Finset.empty_union] at hlog
  have htotal : totalSize (fileRead office data) + unread office (packagesOf office data) =
      declared office (packagesOf office data) := totalSize_fileRead data
  rw [hlog]
  constructor
  · intro hbound
    exact .inr (by omega)
  · rintro (hnone | hbound)
    · -- one package, whose own check it has passed
      have hcheck := sizes_le_of_returns ⟨∅, inflated, hrun⟩
      have hdeclared : declared office (packagesOf office data) =
          sizes (entriesOf office ([], data)) := by
        rw [packagesOf, hnone, declared, List.map_singleton, List.sum_singleton]
      omega
    · omega

/-! ### Two workbooks in one document -/

/-- An archive that is not compressed, of entries with these names and contents; each declares a size
of its own. -/
def zipOf (entries : List (Name × ℕ × Bytes)) : Bytes :=
  let fields := fun entry : Name × ℕ × Bytes ↦
    toLittle 2 20 ++ toLittle 2 0 ++ toLittle 2 0 ++ toLittle 2 0 ++ toLittle 2 33 ++
      toLittle 4 (crc32 entry.2.2) ++ toLittle 4 entry.2.2.length ++ toLittle 4 entry.2.1 ++
        toLittle 2 entry.1.length ++ toLittle 2 0
  let heads := entries.map fun entry ↦
    [0x50, 0x4B, 0x03, 0x04] ++ fields entry ++ ascii entry.1 ++ entry.2.2
  let directory := (entries.mapIdx fun i entry ↦
    [0x50, 0x4B, 0x01, 0x02] ++ toLittle 2 20 ++ fields entry ++ toLittle 2 0 ++ toLittle 2 0 ++
      toLittle 2 0 ++ toLittle 4 0 ++ toLittle 4 (heads.take i).flatten.length ++
        ascii entry.1).flatten
  heads.flatten ++ directory ++ ([0x50, 0x4B, 0x05, 0x06] ++ toLittle 2 0 ++ toLittle 2 0 ++
    toLittle 2 entries.length ++ toLittle 2 entries.length ++ toLittle 4 directory.length ++
      toLittle 4 heads.flatten.length ++ toLittle 2 0)

/-- An installation that has these archives to read, and no text to rewrite. -/
def zipOffice (samples : List (List (Name × ℕ × Bytes))) : Office :=
  { sampleOffice [] with
    openZip := fun data ↦ match samples.find? fun sample ↦ decide (zipOf sample = data) with
      | some sample => .ok (sample.map fun entry ↦ ⟨entry.1, entry.2.1, .ok entry.2.2⟩)
      | none => .error (.metadata "File is not a zip file")
    writeZip := fun parts ↦ zipOf (parts.map fun part ↦ (part.1, part.2.length, part.2)) }

def workbookName : Name := "xl/workbook.xml".toList

/-- A workbook of one part, of one byte, that declares this size. -/
def workbook (size : ℕ) : List (Name × ℕ × Bytes) := [(workbookName, size, [0x20])]

/-- A document with two such workbooks in it. -/
def document (size : ℕ) : List (Name × ℕ × Bytes) :=
  let body := zipOf (workbook size)
  [("word/embeddings/a.xlsx".toList, body.length, body),
    ("word/embeddings/b.xlsx".toList, body.length, body)]

def documentOffice (size : ℕ) : Office := zipOffice [workbook size, document size]

theorem small_workbooks_stay_within_bound :
    totalSize {([1, 0], 1), ([1], 129), ([0, 0], 1), ([0], 129)} ≤ 20 * maxSizeBytes ↔
      embeddedFiles (documentOffice 1) ([], zipOf (document 1)) = [] ∨
        declared (documentOffice 1) (packagesOf (documentOffice 1) (zipOf (document 1))) ≤
          20 * maxSizeBytes +
            unread (documentOffice 1) (packagesOf (documentOffice 1) (zipOf (document 1))) := by
  have hrun : (stripOoxml (documentOffice 1) (zipOf (document 1))).run ∅ =
      .ok (zipOf (document 1), {([1, 0], 1), ([1], 129), ([0, 0], 1), ([0], 129)}) := by
    decide +kernel
  exact inflated_within_bound_iff hrun

/-- Each of the workbooks may inflate up to the bound, and both are inflated. -/
theorem workbooks_inflate_past_bound : ¬∀ (out : Bytes) (inflated : Inflated),
    (stripOoxml (documentOffice (20 * maxSizeBytes)) (zipOf (document (20 * maxSizeBytes)))).run ∅ =
      .ok (out, inflated) → totalSize inflated ≤ 20 * maxSizeBytes := by
  intro h
  have hrun : (stripOoxml (documentOffice (20 * maxSizeBytes))
      (zipOf (document (20 * maxSizeBytes)))).run ∅ =
        .ok (zipOf (document 1), {([1, 0], 20 * maxSizeBytes), ([1], 129),
          ([0, 0], 20 * maxSizeBytes), ([0], 129)}) := by
    decide +kernel
  exact absurd (h _ _ hrun) (by decide +kernel)

end OpenWhistle.Attachments
