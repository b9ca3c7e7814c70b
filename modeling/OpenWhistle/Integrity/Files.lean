import OpenWhistle.Foundation.Bytes
import Mathlib.Data.List.AList

/-!
# The index of the shipped files

The shipped trees are walked, and every file that can be read is kept with its hash and its size,
under its path. Compiled files, their directories and the manifest are left out; a link to a
directory is not followed. The order in which a directory lists its entries is not known.

What is shipped at a path is said without the walk, by going down the names of the path; the index
holds exactly that.
-/

set_option autoImplicit false
set_option relaxedAutoImplicit false

namespace OpenWhistle.Integrity

/-! ### Trees -/

inductive Node
  /-- `none` where the file cannot be read. -/
  | file (content : Option Bytes)
  /-- The entries as the scan returns them; none where it fails. -/
  | directory (entries : List (String × Node))
  /-- A symbolic link to a directory. -/
  | link

namespace Node

mutual

/-- The names in a directory are distinct, and no name has a slash. -/
def Valid : Node → Prop
  | .directory entries => (entries.map Prod.fst).Nodup ∧ ValidEntries entries
  | .file _ => True
  | .link => True

def ValidEntries : List (String × Node) → Prop
  | [] => True
  | (name, node) :: entries => '/' ∉ name.toList ∧ node.Valid ∧ ValidEntries entries

end

mutual

/-- The induction over trees. -/
theorem induction {property : Node → Prop} (hfile : ∀ content, property (.file content))
    (hlink : property .link)
    (hdirectory : ∀ entries, (∀ item ∈ entries, property item.2) → property (.directory entries)) :
    ∀ node, property node
  | .file content => hfile content
  | .link => hlink
  | .directory entries => hdirectory entries (inductionEntries hfile hlink hdirectory entries)

theorem inductionEntries {property : Node → Prop} (hfile : ∀ content, property (.file content))
    (hlink : property .link)
    (hdirectory : ∀ entries, (∀ item ∈ entries, property item.2) → property (.directory entries)) :
    ∀ entries : List (String × Node), ∀ item ∈ entries, property item.2
  | [], item, hmem => absurd hmem List.not_mem_nil
  | (name, node) :: entries, item, hmem => by
    rcases List.mem_cons.mp hmem with rfl | hmem
    · exact induction hfile hlink hdirectory node
    · exact inductionEntries hfile hlink hdirectory entries item hmem

end

theorem validEntries_of_mem {entries : List (String × Node)} (h : ValidEntries entries)
    {item : String × Node} (hmem : item ∈ entries) : '/' ∉ item.1.toList ∧ item.2.Valid := by
  induction entries with
  | nil => cases hmem
  | cons first entries ih =>
    obtain ⟨name, node⟩ := first
    obtain ⟨hname, hnode, hrest⟩ := h
    rcases List.mem_cons.mp hmem with rfl | hmem
    · exact ⟨hname, hnode⟩
    · exact ih hrest hmem

end Node

/-- A tree that is shipped, under its name. -/
structure Root where
  name : String
  node : Node
  noSlash : '/' ∉ name.toList
  valid : node.Valid

/-- `SHIPPED_ROOTS`. -/
structure Shipped where
  roots : List Root
  distinct : (roots.map Root.name).Nodup

/-! ### The index -/

structure ManifestEntry where
  sha256 : String
  size : ℕ
  deriving DecidableEq

abbrev Index := AList fun _ : String ↦ ManifestEntry

def manifestName : String := "integrity-manifest.json"

def chunk : ℕ := 65536

section Hashing

variable (sha256 : Bytes → String)

/-- The rest of a file, chunk by chunk, after what was fed to the hash. -/
def hashChunks : ℕ → Bytes → ℕ → Bytes → ManifestEntry
  | 0, fed, size, _ => ⟨sha256 fed, size⟩
  | fuel + 1, fed, size, rest =>
    match rest.take chunk with
    | [] => ⟨sha256 fed, size⟩
    | first :: more =>
      hashChunks fuel (fed ++ first :: more) (size + (first :: more).length) (rest.drop chunk)

/-- `_hash_file`. -/
def hashFile (content : Bytes) : ManifestEntry :=
  hashChunks sha256 (content.length + 1) [] 0 content

/-- Chunks or not, the hash is that of the whole file. -/
theorem hashFile_eq (content : Bytes) :
    hashFile sha256 content = ⟨sha256 content, content.length⟩ := by
  have hloop : ∀ (fuel : ℕ) (fed : Bytes) (size : ℕ) (rest : Bytes), rest.length < fuel →
      hashChunks sha256 fuel fed size rest = ⟨sha256 (fed ++ rest), size + rest.length⟩ := by
    intro fuel
    induction fuel with
    | zero =>
      intro fed size rest hrest
      cases hrest
    | succ fuel ih =>
      intro fed size rest hrest
      rw [hashChunks]
      cases hchunk : rest.take chunk with
      | nil =>
        have hnil : rest = [] := by
          rcases List.take_eq_nil_iff.mp hchunk with hzero | hnil
          · cases hzero
          · exact hnil
        subst hnil
        rw [List.append_nil]
        rfl
      | cons first more =>
        have hsplit : first :: more ++ rest.drop chunk = rest := by
          rw [← hchunk, List.take_append_drop]
        have hlength : (first :: more).length + (rest.drop chunk).length = rest.length := by
          rw [← List.length_append, hsplit]
        dsimp only
        rw [ih, List.append_assoc, hsplit, Nat.add_assoc, hlength]
        rw [List.length_cons] at hlength
        omega
  rw [hashFile, hloop _ _ _ _ (Nat.lt_succ_self _), List.nil_append, Nat.zero_add]

end Hashing

/-- Files that are not looked at. -/
def skipped (name : String) : Bool :=
  ".pyc".toList.isSuffixOf name.toList || decide (name = manifestName)

mutual

/-- `os.walk` below a directory: its files first, then the directories in it. -/
def walkNode (parts : List String) : Node → List (List String × Option Bytes)
  | .directory entries => walkFiles parts entries ++ walkDirectories parts entries
  | .file _ => []
  | .link => []

def walkFiles (parts : List String) : List (String × Node) → List (List String × Option Bytes)
  | [] => []
  | (name, .file content) :: entries =>
    if skipped name then walkFiles parts entries
    else (parts ++ [name], content) :: walkFiles parts entries
  | (_, .directory _) :: entries => walkFiles parts entries
  | (_, .link) :: entries => walkFiles parts entries

def walkDirectories (parts : List String) :
    List (String × Node) → List (List String × Option Bytes)
  | [] => []
  | (name, node) :: entries =>
    if name = "__pycache__" then walkDirectories parts entries
    else walkNode (parts ++ [name]) node ++ walkDirectories parts entries

end

def asPosix (parts : List String) : String :=
  String.ofList (['/'].intercalate (parts.map String.toList))

section Index

variable (sha256 : Bytes → String)

/-- What one file adds to the index. -/
def addFile (index : Index) (item : List String × Option Bytes) : Index :=
  match item.2 with
  | some content => index.insert (asPosix item.1) (hashFile sha256 content)
  | none => index

def indexOne (root : Root) : Index := (walkNode [root.name] root.node).foldl (addFile sha256) ∅

def buildFileIndex (roots : List Root) : Index :=
  roots.foldl (fun index root ↦ indexOne sha256 root ∪ index) ∅

end Index

/-! ### What is shipped -/

/-- The content of a file that is there and can be read. -/
def contentOf : Option Node → Option Bytes
  | some (.file content) => content
  | _ => none

/-- What is shipped below a node at a path. -/
def shippedAt : Node → List String → Option Bytes
  | .directory entries, [name] => if skipped name then none else contentOf (entries.lookup name)
  | .directory entries, name :: next :: path =>
    if name = "__pycache__" then none
    else
      match entries.lookup name with
      | some node => shippedAt node (next :: path)
      | none => none
  | _, _ => none

/-- What is shipped at a path. -/
def Shipped.at (shipped : Shipped) : List String → Option Bytes
  | [] => none
  | name :: path =>
    match shipped.roots.find? fun root ↦ root.name = name with
    | some root => shippedAt root.node path
    | none => none

/-! ### The walk finds what is shipped -/

variable {parts path full : List String} {name : String} {node : Node} {content : Option Bytes}
  {data : Bytes} {entries : List (String × Node)}

theorem mem_walkFiles : (full, content) ∈ walkFiles parts entries ↔
    ∃ name, (name, Node.file content) ∈ entries ∧ skipped name = false ∧
      full = parts ++ [name] := by
  induction entries with
  | nil => simp [walkFiles]
  | cons item entries ih =>
    obtain ⟨name, node⟩ := item
    cases node with
    | file held =>
      rw [walkFiles]
      split_ifs with hskipped
      · rw [ih]
        constructor
        · rintro ⟨other, hmem, hother, rfl⟩
          exact ⟨other, List.mem_cons_of_mem _ hmem, hother, rfl⟩
        · rintro ⟨other, hmem, hother, rfl⟩
          rcases List.mem_cons.mp hmem with heq | hmem
          · rw [(Prod.mk.inj heq).1, hskipped] at hother
            cases hother
          · exact ⟨other, hmem, hother, rfl⟩
      · rw [List.mem_cons, ih]
        constructor
        · rintro (heq | ⟨other, hmem, hother, rfl⟩)
          · obtain ⟨rfl, rfl⟩ := Prod.mk.inj heq
            exact ⟨name, List.mem_cons_self, Bool.eq_false_iff.mpr hskipped, rfl⟩
          · exact ⟨other, List.mem_cons_of_mem _ hmem, hother, rfl⟩
        · rintro ⟨other, hmem, hother, rfl⟩
          rcases List.mem_cons.mp hmem with heq | hmem
          · obtain ⟨rfl, hfile⟩ := Prod.mk.inj heq
            cases hfile
            exact .inl rfl
          · exact .inr ⟨other, hmem, hother, rfl⟩
    | directory inner =>
      rw [walkFiles, ih]
      simp
    | link =>
      rw [walkFiles, ih]
      simp

theorem mem_walkDirectories : (full, content) ∈ walkDirectories parts entries ↔
    ∃ item ∈ entries, item.1 ≠ "__pycache__" ∧
      (full, content) ∈ walkNode (parts ++ [item.1]) item.2 := by
  induction entries with
  | nil => simp [walkDirectories]
  | cons item entries ih =>
    obtain ⟨name, node⟩ := item
    rw [walkDirectories]
    split_ifs with hname
    · subst hname
      simp [ih]
    · rw [List.mem_append, ih]
      simp [hname]

/-- Where no name comes twice, a name is found with the node it stands with. -/
theorem lookup_of_mem (hnodup : (entries.map Prod.fst).Nodup) (hmem : (name, node) ∈ entries) :
    entries.lookup name = some node := by
  obtain ⟨before, after, hentries⟩ := List.append_of_mem hmem
  refine List.lookup_eq_some_iff.mpr ⟨before, after, hentries, fun item hitem ↦ ?_⟩
  rw [hentries, List.map_append, List.map_cons, List.nodup_append] at hnodup
  have hne := hnodup.2.2 item.1 (List.mem_map_of_mem hitem) name List.mem_cons_self
  simpa using hne.symm

theorem mem_of_lookup (h : entries.lookup name = some node) : (name, node) ∈ entries := by
  obtain ⟨before, after, hentries, -⟩ := List.lookup_eq_some_iff.mp h
  rw [hentries]
  exact List.mem_append_right _ List.mem_cons_self

/-- What the walk finds is shipped at the rest of the path. -/
theorem shippedAt_of_mem (node : Node) : ∀ {parts full : List String} {data : Bytes}, node.Valid →
    (full, some data) ∈ walkNode parts node →
      ∃ path, full = parts ++ path ∧ shippedAt node path = some data ∧
        ∀ name ∈ path, '/' ∉ name.toList := by
  induction node using Node.induction with
  | hfile content =>
    intro parts full data _ hmem
    rw [walkNode] at hmem
    cases hmem
  | hlink =>
    intro parts full data _ hmem
    rw [walkNode] at hmem
    cases hmem
  | hdirectory entries ih =>
    intro parts full data hvalid hmem
    obtain ⟨hnodup, hentries⟩ := hvalid
    rw [walkNode, List.mem_append] at hmem
    rcases hmem with hfile | hbelow
    · obtain ⟨name, hmem, hskipped, rfl⟩ := mem_walkFiles.mp hfile
      refine ⟨[name], rfl, ?_, fun other hother ↦ ?_⟩
      · rw [shippedAt, hskipped, lookup_of_mem hnodup hmem]
        rfl
      · rw [List.mem_singleton.mp hother]
        exact (Node.validEntries_of_mem hentries hmem).1
    · obtain ⟨⟨name, node⟩, hmem, hname, hnode⟩ := mem_walkDirectories.mp hbelow
      obtain ⟨hslash, hvalid⟩ := Node.validEntries_of_mem hentries hmem
      obtain ⟨path, rfl, hshipped, hpath⟩ := ih _ hmem hvalid hnode
      refine ⟨name :: path, by simp, ?_, fun other hother ↦ ?_⟩
      · cases path with
        | nil => cases node <;> cases hshipped
        | cons next path =>
          rw [shippedAt, if_neg hname, lookup_of_mem hnodup hmem]
          exact hshipped
      · rcases List.mem_cons.mp hother with rfl | hother
        · exact hslash
        · exact hpath other hother

/-- The walk finds what is shipped. -/
theorem mem_of_shippedAt : ∀ {path parts : List String} {node : Node},
    shippedAt node path = some data → (parts ++ path, some data) ∈ walkNode parts node := by
  intro path
  induction path with
  | nil =>
    intro parts node h
    cases node <;> cases h
  | cons name path ih =>
    intro parts node h
    cases node with
    | file content => cases path <;> cases h
    | link => cases path <;> cases h
    | directory entries =>
      rw [walkNode, List.mem_append]
      cases path with
      | nil =>
        rw [shippedAt] at h
        split_ifs at h with hskipped
        refine .inl (mem_walkFiles.mpr ⟨name, ?_, Bool.eq_false_iff.mpr hskipped, rfl⟩)
        cases hlookup : entries.lookup name with
        | none =>
          rw [hlookup] at h
          cases h
        | some node =>
          rw [hlookup] at h
          cases node with
          | file content =>
            have hcontent : content = some data := h
            subst hcontent
            exact mem_of_lookup hlookup
          | directory inner => cases h
          | link => cases h
      | cons next path =>
        rw [shippedAt] at h
        split_ifs at h with hname
        cases hlookup : entries.lookup name with
        | none =>
          rw [hlookup] at h
          cases h
        | some node =>
          rw [hlookup] at h
          have hbelow : (parts ++ [name] ++ next :: path, some data) ∈
              walkNode (parts ++ [name]) node := ih h
          rw [List.append_assoc, List.singleton_append] at hbelow
          exact .inr (mem_walkDirectories.mpr ⟨_, mem_of_lookup hlookup, hname, hbelow⟩)

/-! ### Paths are told apart -/

theorem asPosix_injective {others : List String} (hparts : parts ≠ [])
    (hothers : others ≠ []) (hslash : ∀ name ∈ parts, '/' ∉ name.toList)
    (hslash' : ∀ name ∈ others, '/' ∉ name.toList) (heq : asPosix parts = asPosix others) :
    parts = others := by
  have hsplit : ∀ names : List String, names ≠ [] → (∀ name ∈ names, '/' ∉ name.toList) →
      ((['/'].intercalate (names.map String.toList)).splitOn '/') = names.map String.toList := by
    intro names hne hnames
    refine List.splitOn_intercalate _ (fun letters hletters ↦ ?_) (by simpa using hne)
    obtain ⟨name, hname, rfl⟩ := List.mem_map.mp hletters
    exact hnames name hname
  have hlists := String.ofList_injective heq
  have hmap : parts.map String.toList = others.map String.toList := by
    rw [← hsplit parts hparts hslash, hlists, hsplit others hothers hslash']
  exact List.map_injective_iff.mpr (fun _ _ h ↦ String.toList_injective h) hmap

/-- A path at which something is shipped starts with the name of a root, and its names have no
slash. -/
theorem noSlash_of_at {shipped : Shipped} (h : shipped.at parts = some data) :
    parts ≠ [] ∧ ∀ name ∈ parts, '/' ∉ name.toList := by
  cases parts with
  | nil => cases h
  | cons name path =>
    refine ⟨List.cons_ne_nil _ _, ?_⟩
    rw [Shipped.at] at h
    cases hroot : shipped.roots.find? fun root ↦ root.name = name with
    | none =>
      rw [hroot] at h
      cases h
    | some root =>
      rw [hroot] at h
      have hname : root.name = name := by simpa using List.find?_some hroot
      have hmem : ([root.name] ++ path, some data) ∈ walkNode [root.name] root.node :=
        mem_of_shippedAt h
      obtain ⟨other, heq, -, hslash⟩ := shippedAt_of_mem root.node root.valid hmem
      have hpath : path = other := List.append_cancel_left heq
      intro part hpart
      rcases List.mem_cons.mp hpart with rfl | hpart
      · rw [← hname]
        exact root.noSlash
      · exact hslash part (hpath ▸ hpart)

/-! ### The index holds what is shipped -/

section Lookup

variable {sha256 : Bytes → String} {key : String} {entry : ManifestEntry}

/-- What stands in an index after some files was there before or is one of theirs. -/
theorem mem_of_addFiles {items : List (List String × Option Bytes)} : ∀ {index : Index},
    (items.foldl (addFile sha256) index).lookup key = some entry →
      index.lookup key = some entry ∨ ∃ parts data, (parts, some data) ∈ items ∧
        key = asPosix parts ∧ entry = hashFile sha256 data := by
  induction items with
  | nil => exact fun h ↦ .inl h
  | cons item items ih =>
    intro index h
    obtain ⟨parts, content⟩ := item
    rcases ih h with hbefore | ⟨other, data, hmem, hkey, hentry⟩
    · cases content with
      | none => exact .inl hbefore
      | some data =>
        by_cases hkey : key = asPosix parts
        · subst hkey
          have hlookup : (AList.insert (asPosix parts) (hashFile sha256 data) index).lookup
              (asPosix parts) = some entry := hbefore
          rw [AList.lookup_insert, Option.some.injEq] at hlookup
          exact .inr ⟨parts, data, List.mem_cons_self, rfl, hlookup.symm⟩
        · have hlookup : (AList.insert (asPosix parts) (hashFile sha256 data) index).lookup key =
              some entry := hbefore
          rw [AList.lookup_insert_ne hkey] at hlookup
          exact .inl hlookup
    · exact .inr ⟨other, data, List.mem_cons_of_mem _ hmem, hkey, hentry⟩

/-- A file that can be read is in the index, under its path. -/
theorem isSome_addFiles {items : List (List String × Option Bytes)} : ∀ {index : Index},
    ((index.lookup key).isSome = true ∨ ∃ parts data, (parts, some data) ∈ items ∧
      key = asPosix parts) → ((items.foldl (addFile sha256) index).lookup key).isSome = true := by
  induction items with
  | nil =>
    rintro index (h | ⟨parts, data, hmem, -⟩)
    · exact h
    · cases hmem
  | cons item items ih =>
    intro index h
    obtain ⟨parts, content⟩ := item
    refine ih ?_
    rcases h with hbefore | ⟨other, data, hmem, rfl⟩
    · left
      cases content with
      | none => exact hbefore
      | some data =>
        have hmem : key ∈ AList.insert (asPosix parts) (hashFile sha256 data) index :=
          (AList.mem_insert index).mpr (.inr (AList.lookup_isSome.mp hbefore))
        exact AList.lookup_isSome.mpr hmem
    · rcases List.mem_cons.mp hmem with heq | hmem
      · obtain ⟨rfl, rfl⟩ := Prod.mk.inj heq
        have hmem : asPosix other ∈ AList.insert (asPosix other) (hashFile sha256 data) index :=
          (AList.mem_insert index).mpr (.inl rfl)
        exact .inl (AList.lookup_isSome.mpr hmem)
      · exact .inr ⟨other, data, hmem, rfl⟩

/-- What stands in the index of some roots was there before or stands in that of one of them. -/
theorem lookup_union_cases {roots : List Root} : ∀ {index : Index},
    (roots.foldl (fun index root ↦ indexOne sha256 root ∪ index) index).lookup key = some entry →
      index.lookup key = some entry ∨
        ∃ root ∈ roots, (indexOne sha256 root).lookup key = some entry := by
  induction roots with
  | nil => exact fun h ↦ .inl h
  | cons root roots ih =>
    intro index h
    rcases ih h with hbefore | ⟨other, hmem, hlookup⟩
    · by_cases hroot : key ∈ indexOne sha256 root
      · rw [AList.lookup_union_left hroot] at hbefore
        exact .inr ⟨root, List.mem_cons_self, hbefore⟩
      · rw [AList.lookup_union_right hroot] at hbefore
        exact .inl hbefore
    · exact .inr ⟨other, List.mem_cons_of_mem _ hmem, hlookup⟩

theorem mem_union {roots : List Root} : ∀ {index : Index},
    (key ∈ index ∨ ∃ root ∈ roots, key ∈ indexOne sha256 root) →
      key ∈ roots.foldl (fun index root ↦ indexOne sha256 root ∪ index) index := by
  induction roots with
  | nil =>
    rintro index (h | ⟨root, hmem, -⟩)
    · exact h
    · cases hmem
  | cons root roots ih =>
    intro index h
    refine ih ?_
    rcases h with hbefore | ⟨other, hmem, hkey⟩
    · exact .inl (AList.mem_union.mpr (.inr hbefore))
    · rcases List.mem_cons.mp hmem with rfl | hmem
      · exact .inl (AList.mem_union.mpr (.inl hkey))
      · exact .inr ⟨other, hmem, hkey⟩

/-- A root is found under its name. -/
theorem Shipped.at_root (shipped : Shipped) {root : Root} (hroot : root ∈ shipped.roots)
    (path : List String) : shipped.at (root.name :: path) = shippedAt root.node path := by
  rw [Shipped.at]
  cases hfound : shipped.roots.find? fun other ↦ other.name = root.name with
  | none =>
    have hnot := List.find?_eq_none.mp hfound root hroot
    exact absurd (decide_eq_true rfl) hnot
  | some other =>
    have hname : other.name = root.name := by simpa using List.find?_some hfound
    have heq : other = root :=
      List.inj_on_of_nodup_map shipped.distinct (List.mem_of_find?_eq_some hfound) hroot hname
    rw [heq]

/-- What stands in the index is shipped. -/
theorem at_of_lookup {shipped : Shipped}
    (h : (buildFileIndex sha256 shipped.roots).lookup key = some entry) :
    ∃ parts data, shipped.at parts = some data ∧ key = asPosix parts ∧
      entry = hashFile sha256 data := by
  rcases lookup_union_cases h with hempty | ⟨root, hroot, hlookup⟩
  · cases hempty
  · rcases mem_of_addFiles hlookup with hempty | ⟨full, data, hmem, hkey, hentry⟩
    · cases hempty
    · obtain ⟨path, rfl, hshipped, -⟩ := shippedAt_of_mem root.node root.valid hmem
      refine ⟨root.name :: path, data, ?_, hkey, hentry⟩
      rw [shipped.at_root hroot]
      exact hshipped

/-- The index holds, under each path, the hash and the size of what is shipped there. -/
theorem lookup_buildFileIndex {shipped : Shipped} (hat : shipped.at parts = some data) :
    (buildFileIndex sha256 shipped.roots).lookup (asPosix parts) = some (hashFile sha256 data) := by
  have hmem : asPosix parts ∈ buildFileIndex sha256 shipped.roots := by
    cases parts with
    | nil => cases hat
    | cons name path =>
      rw [Shipped.at] at hat
      cases hroot : shipped.roots.find? fun root ↦ root.name = name with
      | none =>
        rw [hroot] at hat
        cases hat
      | some root =>
        rw [hroot] at hat
        have hname : root.name = name := by simpa using List.find?_some hroot
        refine mem_union (.inr ⟨root, List.mem_of_find?_eq_some hroot, ?_⟩)
        refine AList.lookup_isSome.mp (isSome_addFiles (.inr ⟨[root.name] ++ path, data, ?_, ?_⟩))
        · exact mem_of_shippedAt hat
        · rw [hname]
          rfl
  obtain ⟨entry, hentry⟩ := Option.isSome_iff_exists.mp (AList.lookup_isSome.mpr hmem)
  obtain ⟨others, held, hat', hkey, rfl⟩ := at_of_lookup hentry
  obtain ⟨hparts, hslash⟩ := noSlash_of_at hat
  obtain ⟨hothers, hslash'⟩ := noSlash_of_at hat'
  have hsame : parts = others := asPosix_injective hparts hothers hslash hslash' hkey
  subst hsame
  rw [hat, Option.some.injEq] at hat'
  subst hat'
  exact hentry

end Lookup

end OpenWhistle.Integrity
