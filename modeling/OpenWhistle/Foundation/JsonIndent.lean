import OpenWhistle.Foundation.Json
import OpenWhistle.Foundation.Listing
import Mathlib.Data.String.Basic

/-!
# Values on several lines

A value with every item and every pair on a line of its own, indented by its depth. The lines are
blanks to a reader, so what was written is read back. An object can be written with its keys in
their order: pairs of one content are then one text, and each key is still found with its value.
-/

set_option autoImplicit false
set_option relaxedAutoImplicit false

namespace Json

/-- The end of a line, and the indentation of the next one. -/
def newline (width : ℕ) : List Char := '\n' :: List.replicate width ' '

section Indented

variable (step : ℕ)

mutual

def indented : ℕ → Json → List Char
  | _, .null => render .null
  | _, .bool b => render (.bool b)
  | _, .int n => render (.int n)
  | _, .str s => render (.str s)
  | _, .list [] => ['[', ']']
  | width, .list (item :: items) =>
    '[' :: newline (width + step) ++ indented (width + step) item ++ indentedItems width items
  | _, .dict [] => ['{', '}']
  | width, .dict ((key, value) :: items) =>
    '{' :: newline (width + step) ++ renderString key ++ ':' :: ' ' ::
      indented (width + step) value ++ indentedPairs width items

def indentedItems : ℕ → List Json → List Char
  | width, [] => newline width ++ [']']
  | width, item :: items =>
    ',' :: newline (width + step) ++ indented (width + step) item ++ indentedItems width items

def indentedPairs : ℕ → List (String × Json) → List Char
  | width, [] => newline width ++ ['}']
  | width, (key, value) :: items =>
    ',' :: newline (width + step) ++ renderString key ++ ':' :: ' ' ::
      indented (width + step) value ++ indentedPairs width items

end

/-- `json.dumps` with `indent`. -/
def dumpsIndent (value : Json) : String := String.ofList (indented step 0 value)

end Indented

/-! ### Lines are blanks -/

theorem skip_newline (width : ℕ) (rest : List Char) : skip (newline width ++ rest) = skip rest := by
  have hblank : ∀ c ∈ newline width, isBlank c = true := by
    intro c hc
    rcases List.mem_cons.mp hc with rfl | hspace
    · rfl
    · rw [List.eq_of_mem_replicate hspace]
      rfl
  exact List.dropWhile_append_of_pos hblank

theorem take_newline (n width : ℕ) (rest : List Char) :
    take n (newline width ++ rest) = take n rest := by
  cases n with
  | zero => rw [take, take]
  | succ n => rw [take, take, skip_newline]

theorem takePair_newline (n width : ℕ) (rest : List Char) :
    takePair n (newline width ++ rest) = takePair n rest := by
  cases n with
  | zero => rw [takePair, takePair]
  | succ n => rw [takePair, takePair, skip_newline]

variable (step : ℕ)

theorem indented_cons (width : ℕ) (v : Json) :
    ∃ c t, indented step width v = c :: t ∧ isBlank c = false ∧ c ≠ ']' := by
  cases v with
  | null => exact render_cons .null
  | bool b => exact render_cons (.bool b)
  | int n => exact render_cons (.int n)
  | str s => exact render_cons (.str s)
  | list items => cases items <;> exact ⟨_, _, rfl, by decide⟩
  | dict items => rcases items with - | ⟨⟨key, value⟩, items⟩ <;> exact ⟨_, _, rfl, by decide⟩

theorem stops_indentedItems (width : ℕ) (items : List Json) (rest : List Char) :
    Stops (indentedItems step width items ++ rest) := by
  cases items <;> exact stops_cons (by decide) _

theorem stops_indentedPairs (width : ℕ) (items : List (String × Json)) (rest : List Char) :
    Stops (indentedPairs step width items ++ rest) := by
  rcases items with - | ⟨⟨key, value⟩, items⟩ <;> exact stops_cons (by decide) _

theorem indentedItems_ne_nil (width : ℕ) (items : List Json) :
    (indentedItems step width items).length ≠ 0 := by
  cases items <;> exact Nat.succ_ne_zero _

theorem indentedPairs_ne_nil (width : ℕ) (items : List (String × Json)) :
    (indentedPairs step width items).length ≠ 0 := by
  rcases items with - | ⟨⟨key, value⟩, items⟩ <;> exact Nat.succ_ne_zero _

mutual

theorem take_indented : ∀ (v : Json) (width : ℕ) {n : ℕ} (rest : List Char),
    (indented step width v).length ≤ n → Stops rest →
      take n (indented step width v ++ rest) = some (v, rest)
  | v, width, 0, rest, hn, _ => by
    obtain ⟨c, t, hrender, -⟩ := indented_cons step width v
    rw [hrender] at hn
    cases hn
  | .null, _, n + 1, rest, hn, hrest => take_render .null rest hn hrest
  | .bool b, _, n + 1, rest, hn, hrest => take_render (.bool b) rest hn hrest
  | .int m, _, n + 1, rest, hn, hrest => take_render (.int m) rest hn hrest
  | .str s, _, n + 1, rest, hn, hrest => take_render (.str s) rest hn hrest
  | .list [], _, n + 1, rest, _, _ => rfl
  | .list (item :: items), width, n + 1, rest, hn, _ => by
    simp only [indented, List.length_cons, List.length_append, List.cons_append] at hn
    have hitem := take_indented item (width + step) (n := n) _ (by omega)
      (stops_indentedItems step width items rest)
    have hitems := takeItems_indented items width (n := n) rest (by omega)
    obtain ⟨c, t, hrender, hblank, hclose⟩ := indented_cons step (width + step) item
    have hopen : (skip (newline (width + step) ++ (indented step (width + step) item ++
        (indentedItems step width items ++ rest)))).head? ≠ some ']' := by
      rw [skip_newline, hrender, List.cons_append, skip_cons hblank]
      exact fun heq ↦ hclose (Option.some.inj heq)
    simp only [indented, List.cons_append, List.append_assoc]
    rw [take, skip_cons (by decide)]
    dsimp only
    rw [if_neg (by decide), if_pos rfl, if_neg hopen, take_newline, hitem]
    simp only [Option.bind_eq_bind, Option.bind_some]
    rw [hitems]
    rfl
  | .dict [], _, n + 1, rest, _, _ => rfl
  | .dict ((key, value) :: items), width, n + 1, rest, hn, _ => by
    simp only [indented, List.length_cons, List.length_append, List.cons_append] at hn
    obtain ⟨m, rfl⟩ : ∃ m, n = m + 1 := Nat.exists_eq_succ_of_ne_zero (by omega)
    have hvalue := take_indented value (width + step) (n := m) _ (by omega)
      (stops_indentedPairs step width items rest)
    have hpair := takePair_renderString key (by omega) hvalue
    have hitems := takePairs_indented items width (n := m + 1) rest (by omega)
    have hopen : (skip (newline (width + step) ++ (renderString key ++ ':' :: ' ' ::
        (indented step (width + step) value ++
          (indentedPairs step width items ++ rest))))).head? ≠ some '}' := by
      rw [skip_newline, renderString, List.cons_append, List.cons_append, skip_cons (by decide)]
      exact fun heq ↦ absurd (Option.some.inj heq) (by decide)
    simp only [indented, List.cons_append, List.append_assoc]
    rw [take, skip_cons (by decide)]
    dsimp only
    rw [if_neg (by decide), if_neg (by decide), if_pos rfl, if_neg hopen, takePair_newline, hpair]
    simp only [Option.bind_eq_bind, Option.bind_some]
    rw [hitems]
    rfl

theorem takeItems_indented : ∀ (items : List Json) (width : ℕ) {n : ℕ} (rest : List Char),
    (indentedItems step width items).length ≤ n →
      takeItems n (indentedItems step width items ++ rest) = some (items, rest)
  | items, width, 0, rest, hn => absurd (Nat.le_zero.mp hn) (indentedItems_ne_nil step width items)
  | [], width, n + 1, rest, _ => by
    rw [indentedItems, List.append_assoc, takeItems, skip_newline]
    rfl
  | item :: items, width, n + 1, rest, hn => by
    simp only [indentedItems, List.length_cons, List.length_append, List.cons_append] at hn
    have hitem := take_indented item (width + step) (n := n) _ (by omega)
      (stops_indentedItems step width items rest)
    have hitems := takeItems_indented items width (n := n) rest (by omega)
    simp only [indentedItems, List.cons_append, List.append_assoc]
    rw [takeItems, skip_cons (by decide)]
    dsimp only
    rw [if_neg (by decide), if_pos rfl, take_newline, hitem]
    simp only [Option.bind_eq_bind, Option.bind_some]
    rw [hitems]
    rfl

theorem takePairs_indented :
    ∀ (items : List (String × Json)) (width : ℕ) {n : ℕ} (rest : List Char),
    (indentedPairs step width items).length ≤ n →
      takePairs n (indentedPairs step width items ++ rest) = some (items, rest)
  | items, width, 0, rest, hn => absurd (Nat.le_zero.mp hn) (indentedPairs_ne_nil step width items)
  | [], width, n + 1, rest, _ => by
    rw [indentedPairs, List.append_assoc, takePairs, skip_newline]
    rfl
  | (key, value) :: items, width, n + 1, rest, hn => by
    simp only [indentedPairs, List.length_cons, List.length_append, List.cons_append] at hn
    obtain ⟨m, rfl⟩ : ∃ m, n = m + 1 := Nat.exists_eq_succ_of_ne_zero (by omega)
    have hvalue := take_indented value (width + step) (n := m) _ (by omega)
      (stops_indentedPairs step width items rest)
    have hpair := takePair_renderString key (by omega) hvalue
    have hitems := takePairs_indented items width (n := m + 1) rest (by omega)
    simp only [indentedPairs, List.cons_append, List.append_assoc]
    rw [takePairs, skip_cons (by decide)]
    dsimp only
    rw [if_neg (by decide), if_pos rfl, takePair_newline, hpair]
    simp only [Option.bind_eq_bind, Option.bind_some]
    rw [hitems]
    rfl

end

/-- What was written on several lines is read back. -/
@[simp] theorem loads_dumpsIndent (value : Json) : loads (dumpsIndent step value) = some value := by
  have hread := take_indented step value 0
    (n := (indented step 0 value).length + 1) [] (Nat.le_succ _) (fun c hc ↦ by cases hc)
  rw [List.append_nil] at hread
  rw [loads, dumpsIndent, String.toList_ofList, hread]
  rfl

/-! ### Keys in their order -/

/-- Pairs with the keys in their order. -/
def sortPairs (items : List (String × Json)) : List (String × Json) :=
  items.mergeSort fun a b ↦ decide (a.1 ≤ b.1)

mutual

/-- What `sort_keys` makes of a value. -/
def sorted : Json → Json
  | .null => .null
  | .bool b => .bool b
  | .int n => .int n
  | .str s => .str s
  | .list items => .list (sortedItems items)
  | .dict items => .dict (sortPairs (sortedPairs items))

def sortedItems : List Json → List Json
  | [] => []
  | item :: items => sorted item :: sortedItems items

def sortedPairs : List (String × Json) → List (String × Json)
  | [] => []
  | (key, value) :: items => (key, sorted value) :: sortedPairs items

end

theorem sortedPairs_eq_map (items : List (String × Json)) :
    sortedPairs items = items.map fun item ↦ (item.1, sorted item.2) := by
  induction items with
  | nil => rfl
  | cons item items ih =>
    obtain ⟨key, value⟩ := item
    rw [sortedPairs, ih]
    rfl

theorem keys_sortedPairs (items : List (String × Json)) :
    (sortedPairs items).map Prod.fst = items.map Prod.fst := by
  rw [sortedPairs_eq_map, List.map_map]
  rfl

theorem perm_sortPairs (items : List (String × Json)) : (sortPairs items).Perm items :=
  List.mergeSort_perm _ _

/-- Where no key comes twice, a key has the value it stands with. -/
theorem get_eq_some_iff {items : List (String × Json)} (hkeys : (items.map Prod.fst).Nodup)
    {key : String} {value : Json} : get items key = some value ↔ (key, value) ∈ items := by
  have hkeys' : (items.reverse.map Prod.fst).Nodup := by
    rw [List.map_reverse]
    exact List.nodup_reverse.mpr hkeys
  rw [get, ← List.mem_reverse, List.lookup_eq_some_iff]
  constructor
  · rintro ⟨before, after, hitems, -⟩
    rw [hitems]
    exact List.mem_append_right _ List.mem_cons_self
  · intro hmem
    obtain ⟨before, after, hitems⟩ := List.append_of_mem hmem
    refine ⟨before, after, hitems, fun item hitem ↦ ?_⟩
    rw [hitems, List.map_append, List.map_cons, List.nodup_append] at hkeys'
    have hne := hkeys'.2.2 item.1 (List.mem_map_of_mem hitem) key List.mem_cons_self
    simpa using hne.symm

/-- A key is found in sorted pairs as in the pairs before. -/
theorem get_sorted {items : List (String × Json)} (hkeys : (items.map Prod.fst).Nodup)
    (key : String) : get (sortPairs (sortedPairs items)) key = (get items key).map sorted := by
  have hkeys' : ((sortPairs (sortedPairs items)).map Prod.fst).Nodup := by
    rw [((perm_sortPairs _).map Prod.fst).nodup_iff, keys_sortedPairs]
    exact hkeys
  apply Option.ext
  intro value
  rw [get_eq_some_iff hkeys', (perm_sortPairs _).mem_iff, sortedPairs_eq_map,
    Option.map_eq_some_iff, List.mem_map]
  constructor
  · rintro ⟨⟨other, old⟩, hmem, heq⟩
    obtain ⟨rfl, rfl⟩ := Prod.mk.inj heq
    exact ⟨old, (get_eq_some_iff hkeys).mpr hmem, rfl⟩
  · rintro ⟨old, hget, rfl⟩
    exact ⟨(key, old), (get_eq_some_iff hkeys).mp hget, rfl⟩

/-- Pairs of one content are sorted to one list. -/
theorem sortPairs_eq_of_perm {items others : List (String × Json)} (hperm : items.Perm others)
    (hkeys : (others.map Prod.fst).Nodup) : sortPairs items = sortPairs others := by
  refine Listing.Orders.mergeSort_eq_of_perm ⟨fun a b ↦ ?_, fun a b c hab hbc ↦ ?_,
    fun a ha b hb hab hba ↦ ?_⟩ hperm
  · rcases le_total a.1 b.1 with h | h
    · simp [h]
    · simp [h]
  · exact decide_eq_true ((of_decide_eq_true hab).trans (of_decide_eq_true hbc))
  · have hkey : a.1 = b.1 := le_antisymm (of_decide_eq_true hab) (of_decide_eq_true hba)
    exact List.inj_on_of_nodup_map hkeys ha hb hkey

end Json
