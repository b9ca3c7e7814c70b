import OpenWhistle.Foundation.JsonIndent
import OpenWhistle.Integrity.Files
import Mathlib.Data.List.Dedup

/-!
# The manifest and its check

At the build the index is written to a text, with the keys in their order; at runtime the text is
read and compared with an index of the files that are there. Whether the check finds nothing, and
what it names, is a matter of what was shipped then and what is there now, path by path; and the
text itself depends on nothing else, so that two builds of the same files have one hash.

The hash is a parameter. Where a statement needs that it tells two contents apart, it says so of the
contents in question.
-/

set_option autoImplicit false
set_option relaxedAutoImplicit false

namespace OpenWhistle.Integrity

/-! ### Writing -/

def ManifestEntry.json (entry : ManifestEntry) : Json :=
  .dict [("sha256", .str entry.sha256), ("size", .int entry.size)]

def filesJson (index : Index) : List (String × Json) :=
  index.entries.map fun item ↦ (item.1, item.2.json)

/-- What the build writes. -/
def manifest (version : String) (index : Index) : List (String × Json) :=
  [("version", .str version), ("algorithm", .str "sha256"), ("files", .dict (filesJson index))]

/-- `json.dumps(manifest, indent=2, sort_keys=True)`. -/
def body (version : String) (index : Index) : String :=
  Json.dumpsIndent 2 (Json.sorted (.dict (manifest version index)))

/-! ### Checking -/

structure IntegrityResult where
  available : Bool
  ok : Bool
  checked : ℕ
  missing : List String
  modified : List String
  extra : List String
  version : Option Json
  manifestSha256 : Option String

def unavailable : IntegrityResult where
  available := false
  ok := false
  checked := 0
  missing := []
  modified := []
  extra := []
  version := none
  manifestSha256 := none

/-- A text that is an object with files. -/
def loadManifest (text : Option String) : Option (List (String × Json)) :=
  match text with
  | none => none
  | some raw =>
    match Json.loads raw with
    | some (.dict items) =>
      match Json.get items "files" with
      | some files => if files.truthy then some items else none
      | none => none
    | _ => none

/-- A hash equals a value of the manifest. -/
def hashAgrees (sha256 : String) : Option Json → Bool
  | some (.str held) => decide (held = sha256)
  | _ => false

/-- A size equals a value of the manifest; `True` equals 1 and `False` equals 0. -/
def sizeAgrees (size : ℕ) : Option Json → Bool
  | some (.int n) => decide (n = size)
  | some (.bool b) => decide (size = b.toNat)
  | _ => false

def agrees (current : ManifestEntry) (fields : List (String × Json)) : Bool :=
  hashAgrees current.sha256 (Json.get fields "sha256") &&
    sizeAgrees current.size (Json.get fields "size")

/-- A file that is there, and whose entry is not the same. -/
def isModified (current : Index) (files : List (String × Json)) (path : String) : Bool :=
  match current.lookup path, Json.get files path with
  | some held, some (.dict fields) => !agrees held fields
  | _, _ => false

/-- A file that is there, and whose entry has no fields. -/
def isBroken (current : Index) (files : List (String × Json)) (path : String) : Bool :=
  match current.lookup path, Json.get files path with
  | some _, some (.dict _) => false
  | some _, _ => true
  | none, _ => false

def ordered (paths : List String) : List String := paths.mergeSort fun a b ↦ decide (a ≤ b)

section Check

variable (sha256 : Bytes → String)

def utf8 (text : String) : Bytes := text.toUTF8.data.toList

/-- The comparison of the two indexes. -/
def compareFiles (items files : List (String × Json)) (current : Index) (text : Option String) :
    IntegrityResult :=
  let known := (files.map Prod.fst).dedup
  let missing := ordered (known.filter fun path ↦ (current.lookup path).isNone)
  let modified := ordered (known.filter fun path ↦ isModified current files path)
  let extra := ordered (current.keys.filter fun path ↦ path ∉ known)
  { available := true
    ok := missing.isEmpty && modified.isEmpty && extra.isEmpty
    checked := current.keys.length
    missing := missing
    modified := modified
    extra := extra
    version := (Json.get items "version").filter fun value ↦ match value with
      | .null => false
      | _ => true
    manifestSha256 := text.map fun text ↦ (hashFile sha256 (utf8 text)).sha256 }

/-- `verify_integrity`; files that are no object, or an entry that is none, raise an exception. -/
def verifyIntegrity (roots : List Root) (text : Option String) : Except Unit IntegrityResult :=
  match loadManifest text with
  | none => .ok unavailable
  | some items =>
    match Json.get items "files" with
    | some (.dict files) =>
      let current := buildFileIndex sha256 roots
      if files.any fun item ↦ isBroken current files item.1 then .error ()
      else .ok (compareFiles sha256 items files current text)
    | _ => .error ()

end Check

/-! ### What was written is read back -/

variable {index current : Index} {version path : String}

theorem keys_filesJson (index : Index) : (filesJson index).map Prod.fst = index.keys := by
  rw [filesJson, List.map_map]
  rfl

theorem nodup_filesJson (index : Index) : ((filesJson index).map Prod.fst).Nodup := by
  rw [keys_filesJson]
  exact index.keys_nodup

theorem get_filesJson (index : Index) (path : String) :
    Json.get (filesJson index) path = (index.lookup path).map ManifestEntry.json := by
  apply Option.ext
  intro value
  rw [Json.get_eq_some_iff (nodup_filesJson index), filesJson, List.mem_map, Option.map_eq_some_iff]
  constructor
  · rintro ⟨⟨key, entry⟩, hmem, heq⟩
    obtain ⟨rfl, rfl⟩ := Prod.mk.inj heq
    exact ⟨entry, AList.mem_lookup_iff.mpr hmem, rfl⟩
  · rintro ⟨entry, hlookup, rfl⟩
    exact ⟨⟨path, entry⟩, AList.mem_lookup_iff.mp hlookup, rfl⟩

/-- The files of a manifest, as they are read. -/
def filesRead (index : Index) : List (String × Json) :=
  Json.sortPairs (Json.sortedPairs (filesJson index))

theorem mem_filesRead (path : String) :
    path ∈ ((filesRead index).map Prod.fst).dedup ↔ path ∈ index := by
  rw [List.mem_dedup, filesRead, ((Json.perm_sortPairs _).map Prod.fst).mem_iff,
    Json.keys_sortedPairs, keys_filesJson, AList.mem_keys]

/-- The fields of an entry, as they are read. -/
def ManifestEntry.fields (entry : ManifestEntry) : List (String × Json) :=
  Json.sortPairs (Json.sortedPairs [("sha256", .str entry.sha256), ("size", .int entry.size)])

theorem get_filesRead (index : Index) (path : String) :
    Json.get (filesRead index) path =
      (index.lookup path).map fun entry ↦ .dict entry.fields := by
  rw [filesRead, Json.get_sorted (nodup_filesJson index), get_filesJson, Option.map_map]
  rfl

theorem agrees_fields (held entry : ManifestEntry) :
    agrees held entry.fields = true ↔ entry = held := by
  have hkeys :
      ([("sha256", Json.str entry.sha256), ("size", .int entry.size)].map Prod.fst).Nodup := by
    show ["sha256", "size"].Nodup
    decide
  have hhash : Json.get entry.fields "sha256" = some (.str entry.sha256) := by
    rw [ManifestEntry.fields, Json.get_sorted hkeys]
    rfl
  have hsize : Json.get entry.fields "size" = some (.int entry.size) := by
    rw [ManifestEntry.fields, Json.get_sorted hkeys]
    rfl
  rw [agrees, hhash, hsize]
  obtain ⟨hash, size⟩ := entry
  obtain ⟨hash', size'⟩ := held
  simp only [hashAgrees, sizeAgrees, Bool.and_eq_true, decide_eq_true_eq, ManifestEntry.mk.injEq,
    Int.natCast_inj]

/-- What the check reads of what the build has written. -/
theorem loadManifest_body (version : String) (hindex : index.entries ≠ []) :
    ∃ items, loadManifest (some (body version index)) = some items ∧
      Json.get items "files" = some (.dict (filesRead index)) ∧
      Json.get items "version" = some (.str version) := by
  have hkeys : ((manifest version index).map Prod.fst).Nodup := by
    show ["version", "algorithm", "files"].Nodup
    decide
  have hfiles : Json.get (Json.sortPairs (Json.sortedPairs (manifest version index))) "files" =
      some (.dict (filesRead index)) := by
    rw [Json.get_sorted hkeys]
    rfl
  have hversion : Json.get (Json.sortPairs (Json.sortedPairs (manifest version index))) "version" =
      some (.str version) := by
    rw [Json.get_sorted hkeys]
    rfl
  have htruthy : (Json.dict (filesRead index)).truthy = true := by
    have hne : filesRead index ≠ [] := by
      intro hnil
      have hlength := (Json.perm_sortPairs (Json.sortedPairs (filesJson index))).length_eq
      rw [show Json.sortPairs (Json.sortedPairs (filesJson index)) = [] from hnil,
        Json.sortedPairs_eq_map, List.length_map, filesJson, List.length_map,
        List.length_nil] at hlength
      exact hindex (List.length_eq_zero_iff.mp hlength.symm)
    simpa [Json.truthy] using hne
  refine ⟨_, ?_, hfiles, hversion⟩
  rw [loadManifest, body, Json.loads_dumpsIndent]
  dsimp only [Json.sorted]
  rw [hfiles]
  dsimp only
  rw [htruthy]
  rfl

/-! ### Sorted lists of paths -/

theorem mem_ordered {paths : List String} : path ∈ ordered paths ↔ path ∈ paths :=
  List.mem_mergeSort

/-- Each path once, in order. -/
theorem pairwise_ordered {paths : List String} (hnodup : paths.Nodup) :
    (ordered paths).Pairwise (· < ·) := by
  have hsorted : (ordered paths).Pairwise fun a b ↦ decide (a ≤ b) = true :=
    List.pairwise_mergeSort
      (fun a b c hab hbc ↦ decide_eq_true ((of_decide_eq_true hab).trans (of_decide_eq_true hbc)))
      (fun a b ↦ by rcases le_total a b with h | h <;> simp [h]) paths
  have hdistinct : (ordered paths).Nodup := (List.mergeSort_perm _ _).nodup_iff.mpr hnodup
  exact (hsorted.and hdistinct).imp fun h ↦ lt_of_le_of_ne (of_decide_eq_true h.1) h.2

/-! ### The check -/

section Verdict

variable {sha256 : Bytes → String} {built running : Shipped}

/-- The index at a path is what is shipped there. -/
theorem lookup_asPosix (shipped : Shipped) {parts : List String} (hne : parts ≠ [])
    (hslash : ∀ name ∈ parts, '/' ∉ name.toList) :
    (buildFileIndex sha256 shipped.roots).lookup (asPosix parts) =
      (shipped.at parts).map (hashFile sha256) := by
  cases hat : shipped.at parts with
  | some data => exact lookup_buildFileIndex hat
  | none =>
    cases hlookup : (buildFileIndex sha256 shipped.roots).lookup (asPosix parts) with
    | none => rfl
    | some entry =>
      obtain ⟨others, data, hat', hkey, -⟩ := at_of_lookup hlookup
      obtain ⟨hne', hslash'⟩ := noSlash_of_at hat'
      have hsame := asPosix_injective hne hne' hslash hslash' hkey
      subst hsame
      rw [hat] at hat'
      cases hat'

/-- The hash tells the contents apart that were shipped at one path. -/
def Separates (sha256 : Bytes → String) (built running : Shipped) : Prop :=
  ∀ parts data data', built.at parts = some data → running.at parts = some data' →
    sha256 data = sha256 data' → data = data'

/-- Two indexes agree exactly where the same is shipped. -/
theorem lookup_eq_iff (hseparates : Separates sha256 built running) :
    (∀ path, (buildFileIndex sha256 built.roots).lookup path =
      (buildFileIndex sha256 running.roots).lookup path) ↔
      ∀ parts, built.at parts = running.at parts := by
  constructor
  · intro hlookup parts
    have hcases : (parts ≠ [] ∧ ∀ name ∈ parts, '/' ∉ name.toList) ∨
        built.at parts = none ∧ running.at parts = none := by
      cases hbuilt : built.at parts with
      | some data => exact .inl (noSlash_of_at hbuilt)
      | none =>
        cases hrunning : running.at parts with
        | some data => exact .inl (noSlash_of_at hrunning)
        | none => exact .inr ⟨rfl, rfl⟩
    rcases hcases with ⟨hne, hslash⟩ | ⟨hbuilt, hrunning⟩
    · have hsame := hlookup (asPosix parts)
      rw [lookup_asPosix built hne hslash, lookup_asPosix running hne hslash] at hsame
      cases hbuilt : built.at parts with
      | none =>
        rw [hbuilt] at hsame
        exact (Option.map_eq_none_iff.mp hsame.symm).symm
      | some data =>
        rw [hbuilt] at hsame
        obtain ⟨data', hrunning, hhash⟩ := Option.map_eq_some_iff.mp hsame.symm
        rw [hashFile_eq, hashFile_eq] at hhash
        have hsha256 := (ManifestEntry.mk.inj hhash).1.symm
        rw [hrunning, hseparates parts data data' hbuilt hrunning hsha256]
    · rw [hbuilt, hrunning]
  · intro hat path
    have hhalf : ∀ first second : Shipped, (∀ parts, first.at parts = second.at parts) →
        ∀ entry, (buildFileIndex sha256 first.roots).lookup path = some entry →
          (buildFileIndex sha256 second.roots).lookup path = some entry := by
      intro first second hsame entry hlookup
      obtain ⟨parts, data, hfirst, rfl, rfl⟩ := at_of_lookup hlookup
      exact lookup_buildFileIndex ((hsame parts) ▸ hfirst)
    apply Option.ext
    intro entry
    exact ⟨hhalf built running hat entry, hhalf running built (fun parts ↦ (hat parts).symm) entry⟩

/-- The check of a manifest that the build has written compares the two indexes. -/
theorem verify_body {roots : List Root} (hindex : index.entries ≠ []) :
    ∃ items, Json.get items "version" = some (.str version) ∧
      verifyIntegrity sha256 roots (some (body version index)) =
        .ok (compareFiles sha256 items (filesRead index) (buildFileIndex sha256 roots)
          (some (body version index))) := by
  obtain ⟨items, hload, hfiles, hversion⟩ := loadManifest_body version hindex
  refine ⟨items, hversion, ?_⟩
  have hsound : ((filesRead index).any fun item ↦
      isBroken (buildFileIndex sha256 roots) (filesRead index) item.1) = false := by
    rw [List.any_eq_false]
    intro item hitem
    have hmem : item.1 ∈ index :=
      (mem_filesRead item.1).mp (List.mem_dedup.mpr (List.mem_map_of_mem hitem))
    obtain ⟨entry, hentry⟩ := Option.isSome_iff_exists.mp (AList.lookup_isSome.mpr hmem)
    rw [isBroken, get_filesRead, hentry]
    cases (buildFileIndex sha256 roots).lookup item.1 <;> simp
  rw [verifyIntegrity, hload]
  dsimp only
  rw [hfiles]
  dsimp only
  rw [hsound]
  rfl

theorem isModified_iff : isModified current (filesRead index) path = true ↔
    ∃ held entry, current.lookup path = some held ∧ index.lookup path = some entry ∧
      entry ≠ held := by
  rw [isModified, get_filesRead]
  cases hcurrent : current.lookup path with
  | none => simp
  | some held =>
    cases hindex : index.lookup path with
    | none => simp
    | some entry =>
      have hagrees : (!agrees held entry.fields) = true ↔ entry ≠ held := by
        rw [Bool.not_eq_true', ← Bool.not_eq_true, agrees_fields]
      refine hagrees.trans ⟨fun hne ↦ ⟨held, entry, rfl, rfl, hne⟩, ?_⟩
      rintro ⟨_, _, hheld, hentry, hne⟩
      cases hheld
      cases hentry
      exact hne

/-- A path is in the index when something is shipped there. -/
theorem mem_buildFileIndex {shipped : Shipped} : path ∈ buildFileIndex sha256 shipped.roots ↔
    ∃ parts data, path = asPosix parts ∧ shipped.at parts = some data := by
  constructor
  · intro hmem
    obtain ⟨entry, hentry⟩ := Option.isSome_iff_exists.mp (AList.lookup_isSome.mpr hmem)
    obtain ⟨parts, data, hat, hkey, -⟩ := at_of_lookup hentry
    exact ⟨parts, data, hkey, hat⟩
  · rintro ⟨parts, data, rfl, hat⟩
    apply AList.lookup_isSome.mp
    rw [lookup_buildFileIndex hat]
    rfl

/-- The index of other files, at a path where something is shipped. -/
theorem lookup_of_at {parts : List String} {data : Bytes} (hat : built.at parts = some data) :
    (buildFileIndex sha256 running.roots).lookup (asPosix parts) =
      (running.at parts).map (hashFile sha256) :=
  lookup_asPosix running (noSlash_of_at hat).1 (noSlash_of_at hat).2

/-- Where the hash tells two contents apart, so do the entries. -/
theorem entry_ne_iff (hseparates : Separates sha256 built running) {parts : List String}
    {data data' : Bytes} (hbuilt : built.at parts = some data)
    (hrunning : running.at parts = some data') :
    hashFile sha256 data ≠ hashFile sha256 data' ↔ data ≠ data' := by
  constructor
  · rintro hne rfl
    exact hne rfl
  · intro hne heq
    rw [hashFile_eq, hashFile_eq] at heq
    exact hne (hseparates parts data data' hbuilt hrunning (ManifestEntry.mk.inj heq).1)

section Lists

variable {items : List (String × Json)} {text : Option String}

/-- The comparison of what a build has written with the files that are there. -/
def compared (sha256 : Bytes → String) (built running : Shipped) (items : List (String × Json))
    (text : Option String) : IntegrityResult :=
  compareFiles sha256 items (filesRead (buildFileIndex sha256 built.roots))
    (buildFileIndex sha256 running.roots) text

theorem mem_missing : path ∈ (compared sha256 built running items text).missing ↔ ∃ parts data,
    path = asPosix parts ∧ built.at parts = some data ∧ running.at parts = none := by
  rw [compared, compareFiles, mem_ordered, List.mem_filter, mem_filesRead, mem_buildFileIndex]
  constructor
  · rintro ⟨⟨parts, data, rfl, hat⟩, hnone⟩
    refine ⟨parts, data, rfl, hat, ?_⟩
    rw [lookup_of_at hat, Option.isNone_map] at hnone
    exact Option.isNone_iff_eq_none.mp hnone
  · rintro ⟨parts, data, rfl, hat, hnone⟩
    refine ⟨⟨parts, data, rfl, hat⟩, ?_⟩
    rw [lookup_of_at hat, hnone]
    rfl

theorem mem_modified (hseparates : Separates sha256 built running) :
    path ∈ (compared sha256 built running items text).modified ↔ ∃ parts data data',
      path = asPosix parts ∧ built.at parts = some data ∧ running.at parts = some data' ∧
        data ≠ data' := by
  rw [compared, compareFiles, mem_ordered, List.mem_filter, mem_filesRead, isModified_iff]
  constructor
  · rintro ⟨-, held, entry, hheld, hentry, hne⟩
    obtain ⟨parts, data, hat, rfl, rfl⟩ := at_of_lookup hentry
    rw [lookup_of_at hat] at hheld
    obtain ⟨data', hat', rfl⟩ := Option.map_eq_some_iff.mp hheld
    exact ⟨parts, data, data', rfl, hat, hat', (entry_ne_iff hseparates hat hat').mp hne⟩
  · rintro ⟨parts, data, data', rfl, hat, hat', hne⟩
    refine ⟨mem_buildFileIndex.mpr ⟨parts, data, rfl, hat⟩, hashFile sha256 data',
      hashFile sha256 data, lookup_buildFileIndex hat', lookup_buildFileIndex hat, ?_⟩
    exact (entry_ne_iff hseparates hat hat').mpr hne

theorem mem_extra : path ∈ (compared sha256 built running items text).extra ↔ ∃ parts data,
    path = asPosix parts ∧ built.at parts = none ∧ running.at parts = some data := by
  rw [compared, compareFiles, mem_ordered, List.mem_filter, ← AList.mem_keys, mem_buildFileIndex,
    decide_eq_true_eq, mem_filesRead]
  constructor
  · rintro ⟨⟨parts, data, rfl, hat⟩, hnot⟩
    refine ⟨parts, data, rfl, ?_, hat⟩
    cases hbuilt : built.at parts with
    | none => rfl
    | some held => exact absurd (mem_buildFileIndex.mpr ⟨parts, held, rfl, hbuilt⟩) hnot
  · rintro ⟨parts, data, rfl, hnone, hat⟩
    refine ⟨⟨parts, data, rfl, hat⟩, fun hmem ↦ ?_⟩
    have hlookup : (buildFileIndex sha256 built.roots).lookup (asPosix parts) = none := by
      rw [lookup_of_at hat, hnone]
      rfl
    exact AList.lookup_eq_none.mp hlookup hmem

/-- The three lists are empty exactly when the same is shipped everywhere. -/
theorem compared_ok_iff (hseparates : Separates sha256 built running) :
    (compared sha256 built running items text).ok = true ↔
      ∀ parts, built.at parts = running.at parts := by
  have hok : (compared sha256 built running items text).ok = true ↔
      (compared sha256 built running items text).missing = [] ∧
        (compared sha256 built running items text).modified = [] ∧
        (compared sha256 built running items text).extra = [] := by
    rw [← List.isEmpty_iff, ← List.isEmpty_iff, ← List.isEmpty_iff, ← Bool.and_eq_true,
      ← Bool.and_eq_true, ← Bool.and_assoc]
    rfl
  rw [hok, List.eq_nil_iff_forall_not_mem, List.eq_nil_iff_forall_not_mem,
    List.eq_nil_iff_forall_not_mem]
  constructor
  · rintro ⟨hmissing, hmodified, hextra⟩ parts
    cases hbuilt : built.at parts with
    | none =>
      cases hrunning : running.at parts with
      | none => rfl
      | some data => exact absurd (mem_extra.mpr ⟨parts, data, rfl, hbuilt, hrunning⟩) (hextra _)
    | some data =>
      cases hrunning : running.at parts with
      | none =>
        exact absurd (mem_missing.mpr ⟨parts, data, rfl, hbuilt, hrunning⟩) (hmissing _)
      | some data' =>
        by_contra hne
        have hdata : data ≠ data' := fun heq ↦ hne (congrArg some heq)
        exact hmodified _ ((mem_modified hseparates).mpr
          ⟨parts, data, data', rfl, hbuilt, hrunning, hdata⟩)
  · intro hsame
    refine ⟨fun path hmem ↦ ?_, fun path hmem ↦ ?_, fun path hmem ↦ ?_⟩
    · obtain ⟨parts, data, -, hbuilt, hrunning⟩ := mem_missing.mp hmem
      rw [hsame, hrunning] at hbuilt
      cases hbuilt
    · obtain ⟨parts, data, data', -, hbuilt, hrunning, hne⟩ := (mem_modified hseparates).mp hmem
      rw [hsame, hrunning] at hbuilt
      exact hne (Option.some.inj hbuilt).symm
    · obtain ⟨parts, data, -, hbuilt, hrunning⟩ := mem_extra.mp hmem
      rw [← hsame, hbuilt] at hrunning
      cases hrunning

end Lists

/-- What the check of the shipped files against a manifest of their build says. -/
structure Reports (sha256 : Bytes → String) (built running : Shipped) (version : String)
    (r : IntegrityResult) : Prop where
  available : r.available = true
  versioned : r.version = some (.str version)
  ok : r.ok = true ↔ ∀ parts, built.at parts = running.at parts
  missing : ∀ path, path ∈ r.missing ↔ ∃ parts data,
    path = asPosix parts ∧ built.at parts = some data ∧ running.at parts = none
  modified : ∀ path, path ∈ r.modified ↔ ∃ parts data data',
    path = asPosix parts ∧ built.at parts = some data ∧ running.at parts = some data' ∧ data ≠ data'
  extra : ∀ path, path ∈ r.extra ↔ ∃ parts data,
    path = asPosix parts ∧ built.at parts = none ∧ running.at parts = some data
  sorted : r.missing.Pairwise (· < ·) ∧ r.modified.Pairwise (· < ·) ∧ r.extra.Pairwise (· < ·)
  manifestSha256 : r.manifestSha256 =
    some (sha256 (utf8 (body version (buildFileIndex sha256 built.roots))))

/-- The manifest that a build wrote, checked against the files that are there: the check finds
nothing exactly when the same is shipped at every path; what is gone, what has other bytes and what
was added is each named once, under its path, in order. -/
theorem verify_reports (hseparates : Separates sha256 built running)
    (hsome : ∃ parts data, built.at parts = some data) :
    ∃ r, verifyIntegrity sha256 running.roots
        (some (body version (buildFileIndex sha256 built.roots))) = .ok r ∧
      Reports sha256 built running version r := by
  have hindex : (buildFileIndex sha256 built.roots).entries ≠ [] := by
    obtain ⟨parts, data, hat⟩ := hsome
    intro hnil
    have hmem : asPosix parts ∈ buildFileIndex sha256 built.roots :=
      mem_buildFileIndex.mpr ⟨parts, data, rfl, hat⟩
    rw [AList.mem_keys, AList.keys, hnil] at hmem
    cases hmem
  obtain ⟨items, hversion, hverify⟩ := verify_body hindex
  have hknown := List.nodup_dedup
    ((filesRead (buildFileIndex sha256 built.roots)).map Prod.fst)
  refine ⟨compared sha256 built running items _, hverify, rfl, ?_, compared_ok_iff hseparates,
    fun path ↦ mem_missing, fun path ↦ mem_modified hseparates, fun path ↦ mem_extra, ?_, ?_⟩
  · dsimp only [compared, compareFiles]
    rw [hversion]
    rfl
  · exact ⟨pairwise_ordered (hknown.filter _), pairwise_ordered (hknown.filter _),
      pairwise_ordered ((buildFileIndex sha256 running.roots).keys_nodup.filter _)⟩
  · dsimp only [compared, compareFiles]
    rw [Option.map_some, hashFile_eq]

/-! ### One text for one content -/

/-- The text as the version and the files in their order. -/
theorem body_eq (version : String) (index : Index) : body version index =
    Json.dumpsIndent 2 (.dict (Json.sortPairs [("version", .str version),
      ("algorithm", .str "sha256"), ("files", .dict (filesRead index))])) := by
  simp only [body, manifest, Json.sorted, Json.sortedPairs, filesRead]

/-- Indexes of one content are written alike, whatever the order in which they were filled. -/
theorem filesRead_eq {index other : Index} (h : ∀ path, index.lookup path = other.lookup path) :
    filesRead index = filesRead other := by
  have hperm : index.entries.Perm other.entries :=
    List.lookup_ext index.nodupKeys other.nodupKeys fun path entry ↦ by
      rw [show index.entries.dlookup path = other.entries.dlookup path from h path]
  rw [filesRead, filesRead, Json.sortedPairs_eq_map, Json.sortedPairs_eq_map]
  refine Json.sortPairs_eq_of_perm ((hperm.map _).map _) ?_
  rw [← Json.sortedPairs_eq_map, Json.keys_sortedPairs]
  exact nodup_filesJson other

/-- Files that are written alike are of one content. -/
theorem lookup_eq_of_filesRead {index other : Index} (h : filesRead index = filesRead other)
    (path : String) : index.lookup path = other.lookup path := by
  have hget := get_filesRead index path
  rw [h, get_filesRead] at hget
  cases hindex : index.lookup path with
  | none =>
    rw [hindex] at hget
    exact (Option.map_eq_none_iff.mp hget).symm
  | some entry =>
    rw [hindex] at hget
    obtain ⟨held, hheld, hfields⟩ := Option.map_eq_some_iff.mp hget
    have hsame : agrees entry held.fields = true := by
      rw [Json.dict.inj hfields, agrees_fields]
    rw [hheld, (agrees_fields entry held).mp hsame]

/-- Two builds write the same manifest exactly when they have one version and ship the same at every
path; the order in which the files were found leaves no trace. -/
theorem body_eq_iff (hseparates : Separates sha256 built running) (version version' : String) :
    body version (buildFileIndex sha256 built.roots) =
        body version' (buildFileIndex sha256 running.roots) ↔
      version = version' ∧ ∀ parts, built.at parts = running.at parts := by
  rw [← lookup_eq_iff hseparates, body_eq, body_eq]
  constructor
  · intro hbody
    have hvalue := congrArg Json.loads hbody
    rw [Json.loads_dumpsIndent, Json.loads_dumpsIndent, Option.some.injEq,
      Json.dict.injEq] at hvalue
    have hmem : ∀ item, item ∈ [("version", Json.str version), ("algorithm", .str "sha256"),
          ("files", .dict (filesRead (buildFileIndex sha256 built.roots)))] ↔
        item ∈ [("version", Json.str version'), ("algorithm", .str "sha256"),
          ("files", .dict (filesRead (buildFileIndex sha256 running.roots)))] := by
      intro item
      rw [← (Json.perm_sortPairs _).mem_iff, hvalue, (Json.perm_sortPairs _).mem_iff]
    have hversion := (hmem ("version", .str version)).mp (by simp)
    have hfiles := (hmem ("files", .dict (filesRead (buildFileIndex sha256 built.roots)))).mp
      (by simp)
    have hread : filesRead (buildFileIndex sha256 built.roots) =
        filesRead (buildFileIndex sha256 running.roots) := by simpa using hfiles
    exact ⟨by simpa using hversion, lookup_eq_of_filesRead hread⟩
  · rintro ⟨rfl, hlookup⟩
    rw [filesRead_eq hlookup]

end Verdict

/-! ### A build and what became of it -/

/-- A hash for the examples: that of the empty file as it is, and of others their letters. -/
def letters (content : Bytes) : String :=
  if content = [] then "e3b0c44298fc1c149afbf4c8996fb92427ae41e4649b934ca495991b7852b855"
  else String.ofList ('#' :: content.map fun byte ↦ Char.ofNat byte.toNat)

theorem letters_injective : Function.Injective letters := by
  intro first second h
  rw [letters, letters] at h
  split_ifs at h with hfirst hsecond hsecond
  · rw [hfirst, hsecond]
  · exact absurd (congrArg String.toList h) (by simp)
  · exact absurd (congrArg String.toList h) (by simp)
  · have hlists := List.cons.inj (String.ofList_injective h)
    refine List.map_injective_iff.mpr (fun a b hab ↦ ?_) hlists.2
    have hvalid : ∀ byte : UInt8, (Char.ofNat byte.toNat).toNat = byte.toNat := fun byte ↦ by
      have hlt := byte.toNat_lt
      rw [Char.ofNat, dif_pos (.inl (by omega))]
      rfl
    exact UInt8.toNat_inj.mp ((hvalid a).symm.trans ((congrArg Char.toNat hab).trans (hvalid b)))

theorem separates_letters (built running : Shipped) : Separates letters built running :=
  fun _ _ _ _ _ h ↦ letters_injective h

/-- A build of one module. -/
def oneModule : Shipped where
  roots := [⟨"app", .directory [("__init__.py", .file (some []))], by decide, by
    simp [Node.Valid, Node.ValidEntries]⟩]
  distinct := List.nodup_singleton _

/-- The same with another module. -/
def twoModules : Shipped where
  roots := [⟨"app", .directory [("other.py", .file (some [])), ("__init__.py", .file (some []))],
    by decide, by simp [Node.Valid, Node.ValidEntries]⟩]
  distinct := List.nodup_singleton _

theorem verify_reports_of_two : ∃ r, verifyIntegrity letters twoModules.roots
      (some (body "1" (buildFileIndex letters oneModule.roots))) = .ok r ∧
    Reports letters oneModule twoModules "1" r :=
  verify_reports (separates_letters _ _) ⟨["app", "__init__.py"], [], by decide⟩

theorem body_eq_iff_of_two : body "1" (buildFileIndex letters oneModule.roots) =
      body "1" (buildFileIndex letters twoModules.roots) ↔
    "1" = "1" ∧ ∀ parts, oneModule.at parts = twoModules.at parts :=
  body_eq_iff (separates_letters _ _) "1" "1"

end OpenWhistle.Integrity
