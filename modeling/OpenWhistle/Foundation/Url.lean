import Mathlib.Data.List.TakeWhile
import Mathlib.Data.Nat.Notation

/-!
# Addresses

The parts of an address: a scheme in front of a colon, a host behind two slashes, a path, a query
behind a question mark and a fragment behind a number sign. Blanks in front and line breaks anywhere
do not count, neither here nor in a browser.

A browser resolves a reference on the host of the page that it is on if it begins with one slash.
-/

set_option autoImplicit false
set_option relaxedAutoImplicit false

namespace Url

/-- In front of a mark, and behind it. -/
def cutAt (mark : Char) (text : List Char) : List Char × List Char :=
  (text.takeWhile fun c ↦ decide (c ≠ mark), (text.dropWhile fun c ↦ decide (c ≠ mark)).drop 1)

def isBlank (c : Char) : Bool := decide (c.toNat ≤ 0x20)

def isDropped (c : Char) : Bool := decide (c ∈ ['\t', '\r', '\n'])

/-- What counts of an address. -/
def cleaned (url : List Char) : List Char := (url.dropWhile isBlank).filter fun c ↦ !isDropped c

def isSchemeChar (c : Char) : Bool := c.isAlphanum || decide (c ∈ ['+', '-', '.'])

def splitScheme (url : List Char) : List Char × List Char :=
  let front := url.takeWhile fun c ↦ decide (c ≠ ':')
  if front.length < url.length ∧ front.head?.any Char.isAlpha = true ∧
      front.all isSchemeChar = true then
    (front.map Char.toLower, url.drop (front.length + 1))
  else ([], url)

def splitNetloc (url : List Char) : List Char × List Char :=
  if ['/', '/'].isPrefixOf url then
    let isHost := fun c ↦ decide (c ∉ ['/', '?', '#'])
    ((url.drop 2).takeWhile isHost, (url.drop 2).dropWhile isHost)
  else ([], url)

structure Split where
  scheme : List Char
  netloc : List Char
  path : List Char
  query : List Char
  fragment : List Char

/-- `urlsplit`: `none` where it raises, on a host that is none. -/
def urlsplit (isNetloc : List Char → Bool) (url : List Char) : Option Split :=
  let (scheme, url) := splitScheme (cleaned url)
  let (netloc, url) := splitNetloc url
  if netloc = [] ∨ isNetloc netloc = true then
    let (url, fragment) := cutAt '#' url
    let (path, query) := cutAt '?' url
    some ⟨scheme, netloc, path, query, fragment⟩
  else none

/-- One slash in front: a browser counts a backslash as another one. -/
def staysOnHost (reference : List Char) : Bool :=
  match cleaned reference with
  | ['/'] => true
  | '/' :: c :: _ => decide (c ≠ '/' ∧ c ≠ '\\')
  | _ => false

/-- A path and a query, as one text. -/
def join (path query : List Char) : List Char :=
  path ++ if query = [] then [] else '?' :: query

theorem takeWhile_of_not_mem {mark : Char} {text : List Char} (h : mark ∉ text) :
    text.takeWhile (fun c ↦ decide (c ≠ mark)) = text := by
  refine List.takeWhile_eq_self_iff.mpr fun c hc ↦ decide_eq_true ?_
  rintro rfl
  exact h hc

theorem cutAt_of_not_mem {mark : Char} {text : List Char} (h : mark ∉ text) :
    cutAt mark text = (text, []) := by
  have hdrop : text.dropWhile (fun c ↦ decide (c ≠ mark)) = [] := by
    refine List.dropWhile_eq_nil_iff.mpr fun c hc ↦ decide_eq_true ?_
    rintro rfl
    exact h hc
  rw [cutAt, takeWhile_of_not_mem h, hdrop]
  rfl

theorem cutAt_append {mark : Char} {front : List Char} (h : mark ∉ front) (back : List Char) :
    cutAt mark (front ++ mark :: back) = (front, back) := by
  have hkept : ∀ c ∈ front, decide (c ≠ mark) = true := by
    intro c hc
    refine decide_eq_true ?_
    rintro rfl
    exact h hc
  rw [cutAt, List.takeWhile_append_of_pos hkept, List.dropWhile_append_of_pos hkept]
  simp

/-- Without blanks and controls everything counts. -/
theorem cleaned_of_shown {url : List Char} (h : ∀ c ∈ url, 0x20 < c.toNat) : cleaned url = url := by
  have hdrop : url.dropWhile isBlank = url := by
    cases url with
    | nil => rfl
    | cons c url =>
      have hc := h c List.mem_cons_self
      rw [List.dropWhile_cons, if_neg]
      rw [isBlank, decide_eq_true_eq]
      omega
  rw [cleaned, hdrop]
  refine List.filter_eq_self.mpr fun c hc ↦ ?_
  have hshown := h c hc
  rw [isDropped, Bool.not_eq_true', decide_eq_false_iff_not]
  intro hmem
  rcases List.mem_cons.mp hmem with rfl | hmem
  · exact absurd hshown (by decide)
  · rcases List.mem_cons.mp hmem with rfl | hmem
    · exact absurd hshown (by decide)
    · rw [List.mem_singleton.mp hmem] at hshown
      exact absurd hshown (by decide)

/-! ### The address of a page -/

/-- A path and a query as a page has them. -/
structure IsPage (path query : List Char) : Prop where
  slash : ∃ rest, path = '/' :: rest ∧ rest.head? ≠ some '/'
  path : ∀ c ∈ path, 0x20 < c.toNat ∧ c ≠ '?' ∧ c ≠ '#'
  query : ∀ c ∈ query, 0x20 < c.toNat ∧ c ≠ '#'

variable {path query : List Char}

theorem shown_of_isPage (h : IsPage path query) :
    ∀ c ∈ join path query, 0x20 < c.toNat ∧ c ≠ '#' := by
  intro c hc
  rcases List.mem_append.mp hc with hc | hc
  · exact ⟨(h.path c hc).1, (h.path c hc).2.2⟩
  · split_ifs at hc
    · cases hc
    · rcases List.mem_cons.mp hc with rfl | hc
      · exact ⟨by decide, by decide⟩
      · exact h.query c hc

theorem splitScheme_slash (rest : List Char) : splitScheme ('/' :: rest) = ([], '/' :: rest) := by
  have hfront : ('/' :: rest).takeWhile (fun c ↦ decide (c ≠ ':')) =
      '/' :: rest.takeWhile (fun c ↦ decide (c ≠ ':')) := List.takeWhile_cons_of_pos rfl
  rw [splitScheme]
  rw [hfront, if_neg]
  rintro ⟨-, hletter, -⟩
  rw [List.head?_cons, Option.any_some] at hletter
  exact absurd hletter (by decide)

theorem splitNetloc_slash {rest : List Char} (h : rest.head? ≠ some '/') :
    splitNetloc ('/' :: rest) = ([], '/' :: rest) := by
  rw [splitNetloc, if_neg]
  intro hstart
  obtain ⟨back, hback⟩ := List.isPrefixOf_iff_prefix.mp hstart
  rw [List.cons_append, List.cons_append, List.cons.injEq] at hback
  rw [← hback.2] at h
  exact h rfl

/-- The parts of the address of a page are its path and its query. -/
theorem urlsplit_page (isNetloc : List Char → Bool) (h : IsPage path query) :
    urlsplit isNetloc (join path query) = some ⟨[], [], path, query, []⟩ := by
  have hshown := shown_of_isPage h
  obtain ⟨rest, hpath, hrest⟩ := h.slash
  have hfragment : cutAt '#' (join path query) = (join path query, []) :=
    cutAt_of_not_mem fun hmem ↦ (hshown _ hmem).2 rfl
  have hquery : cutAt '?' (join path query) = (path, query) := by
    have hmark : '?' ∉ path := fun hmem ↦ (h.path _ hmem).2.1 rfl
    unfold join
    split_ifs with hnone
    · rw [List.append_nil, cutAt_of_not_mem hmark, hnone]
    · exact cutAt_append hmark query
  obtain ⟨back, hback, hslash⟩ : ∃ back, join path query = '/' :: back ∧
      back.head? ≠ some '/' := by
    refine ⟨rest ++ (if query = [] then [] else '?' :: query), ?_, ?_⟩
    · rw [join, hpath, List.cons_append]
    · cases rest with
      | nil =>
        split_ifs
        · exact fun heq ↦ by cases heq
        · exact fun heq ↦ absurd (Option.some.inj heq) (by decide)
      | cons c rest => exact hrest
  have hclean := cleaned_of_shown fun c hc ↦ (hshown c hc).1
  unfold urlsplit
  rw [hclean, hback, splitScheme_slash]
  dsimp only
  rw [splitNetloc_slash hslash]
  dsimp only
  rw [if_pos (.inl rfl), ← hback, hfragment]
  dsimp only
  rw [hquery]

end Url
