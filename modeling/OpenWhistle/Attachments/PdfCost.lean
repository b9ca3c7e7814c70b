import Mathlib.Algebra.Order.Ring.Int
import Mathlib.Data.List.Basic
import Mathlib.Tactic.SplitIfs

/-!
# What a PDF costs to clone

Three bounds stop the count: the number of listed objects, the budget of the walk through one
object, and the total between objects. Each stops it only when the exact cost is beyond the cap as
well, and what is counted is never more than the exact cost; so a value within the cap is exact.

The walk takes the nodes from a stack. Every entry of an array or a dictionary is pushed once, so
the entries below the stack are what is left to count.
-/

set_option autoImplicit false
set_option relaxedAutoImplicit false

namespace OpenWhistle.Attachments.Pdf

/-! ### Objects -/

/-- An object as the reader gives it. Of a dictionary only the values are read; an indirect
reference is a leaf. -/
inductive Obj
  | leaf
  | array (items : List Obj)
  | dictionary (values : List Obj)

mutual

/-- The number of entries of the arrays and dictionaries inside an object. -/
def Obj.entries : Obj → ℕ
  | .leaf => 0
  | .array items => items.length + entriesOf items
  | .dictionary values => values.length + entriesOf values

def entriesOf : List Obj → ℕ
  | [] => 0
  | obj :: objs => obj.entries + entriesOf objs

end

/-- One for each object, and one for each entry inside. -/
def exactCost (objs : List Obj) : ℕ := (objs.map fun obj ↦ 1 + obj.entries).sum

/-! ### The count -/

theorem entriesOf_append (objs others : List Obj) :
    entriesOf (objs ++ others) = entriesOf objs + entriesOf others := by
  induction objs with
  | nil => rw [List.nil_append, entriesOf, Nat.zero_add]
  | cons obj objs ih => rw [List.cons_append, entriesOf, entriesOf, ih, Nat.add_assoc]

theorem entriesOf_reverse (objs : List Obj) : entriesOf objs.reverse = entriesOf objs := by
  induction objs with
  | nil => rfl
  | cons obj objs ih =>
    rw [List.reverse_cons, entriesOf_append, ih, entriesOf, entriesOf, entriesOf, Nat.add_zero,
      Nat.add_comm]

/-- `stack.extend`: the last child comes to be the first of the stack. -/
def extend (children stack : List Obj) : List Obj := children.reverse ++ stack

theorem entriesOf_extend (children stack : List Obj) :
    entriesOf (extend children stack) = entriesOf children + entriesOf stack := by
  rw [extend, entriesOf_append, entriesOf_reverse]

theorem length_extend (children stack : List Obj) :
    (extend children stack).length = children.length + stack.length := by
  rw [extend, List.length_append, List.length_reverse]

/-- The loop of `entries`: the stack has its last node first. -/
def walk (budget : ℤ) : (stack : List Obj) → (seen : ℕ) → ℕ
  | [], seen => seen
  | .leaf :: stack, seen => walk budget stack seen
  | .array items :: stack, seen =>
    if budget < ((seen + items.length : ℕ) : ℤ) then seen + items.length
    else walk budget (extend items stack) (seen + items.length)
  | .dictionary values :: stack, seen =>
    if budget < ((seen + values.length : ℕ) : ℤ) then seen + values.length
    else walk budget (extend values stack) (seen + values.length)
termination_by stack => entriesOf stack + stack.length
decreasing_by
  · simp only [entriesOf, Obj.entries, List.length_cons]
    omega
  · simp only [entriesOf_extend, length_extend, entriesOf, Obj.entries, List.length_cons]
    omega
  · simp only [entriesOf_extend, length_extend, entriesOf, Obj.entries, List.length_cons]
    omega

/-- `entries`. -/
def countEntries (obj : Obj) (budget : ℤ) : ℕ := walk budget [obj] 0

/-- The part of a `PdfReader` that the count reads. -/
structure PdfReader where
  /-- The object numbers of each generation. -/
  xref : List (ℕ × List ℕ)
  xrefObjStm : List ℕ
  /-- `none` where the object cannot be parsed. -/
  getObject : ℕ → ℕ → Option Obj

def PdfReader.sources (reader : PdfReader) : List (ℕ × ℕ) :=
  (reader.xref.flatMap fun (gen, numbers) ↦ numbers.map fun num ↦ (num, gen)) ++
    reader.xrefObjStm.map fun num ↦ (num, 0)

def tooManyObjects : String := "PDF has too many objects to clean"

/-- The loop over the sources. -/
def addUp (reader : PdfReader) (cap : ℤ) : List (ℕ × ℕ) → ℤ → Except String ℤ
  | [], total => .ok total
  | (num, gen) :: sources, total =>
    match reader.getObject num gen with
    | none => .error tooManyObjects
    | some obj =>
      let total' := total + (1 + countEntries obj (cap - total))
      if cap < total' then .ok total' else addUp reader cap sources total'

/-- `_pdf_clone_cost`. -/
def pdfCloneCost (reader : PdfReader) (cap : ℤ) : Except String ℤ :=
  if cap < (((reader.xref.map fun (_, numbers) ↦ numbers.length).sum +
      reader.xrefObjStm.length : ℕ) : ℤ) then .ok (cap + 1)
  else addUp reader cap reader.sources 0

def maxPdfElements : ℤ := 20000

/-- The check of `_strip_pdf`. -/
def checkBudget (reader : PdfReader) : Except String Unit :=
  match pdfCloneCost reader maxPdfElements with
  | .error message => .error message
  | .ok cost => if maxPdfElements < cost then .error tooManyObjects else .ok ()

/-! ### Exact, or beyond the budget -/

/-- A count that stops early is beyond its bound, and so is the exact one. -/
def Counts (bound value exact : ℤ) : Prop := value = exact ∨ bound < value ∧ bound < exact

theorem walk_counts (budget : ℤ) (stack : List Obj) (seen : ℕ) :
    Counts budget (walk budget stack seen) (seen + entriesOf stack : ℕ) := by
  induction stack, seen using walk.induct budget with
  | case1 seen =>
    rw [walk, entriesOf]
    exact .inl rfl
  | case2 stack seen ih =>
    rw [walk, entriesOf, Obj.entries, Nat.zero_add]
    exact ih
  | case3 items stack seen hbeyond =>
    rw [walk, if_pos hbeyond, entriesOf, Obj.entries]
    exact .inr ⟨hbeyond, by omega⟩
  | case4 items stack seen hwithin ih =>
    rw [walk, if_neg hwithin, entriesOf, Obj.entries]
    rw [entriesOf_extend] at ih
    rwa [Nat.add_assoc items.length, ← Nat.add_assoc seen]
  | case5 values stack seen hbeyond =>
    rw [walk, if_pos hbeyond, entriesOf, Obj.entries]
    exact .inr ⟨hbeyond, by omega⟩
  | case6 values stack seen hwithin ih =>
    rw [walk, if_neg hwithin, entriesOf, Obj.entries]
    rw [entriesOf_extend] at ih
    rwa [Nat.add_assoc values.length, ← Nat.add_assoc seen]

theorem countEntries_counts (obj : Obj) (budget : ℤ) :
    Counts budget (countEntries obj budget) obj.entries := by
  have h := walk_counts budget [obj] 0
  rwa [entriesOf, entriesOf, Nat.zero_add, Nat.add_zero] at h

theorem exactCost_cons (obj : Obj) (objs : List Obj) :
    exactCost (obj :: objs) = 1 + obj.entries + exactCost objs := by
  rw [exactCost, List.map_cons, List.sum_cons]
  rfl

theorem length_le_exactCost (objs : List Obj) : objs.length ≤ exactCost objs := by
  induction objs with
  | nil => exact Nat.zero_le _
  | cons obj objs ih =>
    rw [exactCost_cons, List.length_cons]
    omega

theorem addUp_counts {reader : PdfReader} (cap : ℤ) {sources : List (ℕ × ℕ)} :
    ∀ {objs : List Obj} (total : ℤ),
      (sources.map fun (num, gen) ↦ reader.getObject num gen) = objs.map some →
      ∃ cost, addUp reader cap sources total = .ok cost ∧
        Counts cap cost (total + exactCost objs) := by
  induction sources with
  | nil =>
    intro objs total hparse
    rw [List.map_nil] at hparse
    rw [List.map_eq_nil_iff.mp hparse.symm]
    exact ⟨total, rfl, .inl (by rw [exactCost]; simp)⟩
  | cons source sources ih =>
    intro objs total hparse
    obtain ⟨num, gen⟩ := source
    cases objs with
    | nil => cases hparse
    | cons obj objs =>
      rw [List.map_cons, List.map_cons, List.cons.injEq] at hparse
      obtain ⟨hobj, hrest⟩ := hparse
      dsimp only at hobj
      have hentries := countEntries_counts obj (cap - total)
      unfold addUp
      rw [hobj, exactCost_cons]
      dsimp only
      by_cases hbeyond : cap < total + (1 + countEntries obj (cap - total))
      · rw [if_pos hbeyond]
        refine ⟨_, rfl, .inr ⟨hbeyond, ?_⟩⟩
        rcases hentries with hexact | ⟨_, hlate⟩
        · omega
        · omega
      · rw [if_neg hbeyond]
        rcases hentries with hexact | ⟨hlate, _⟩
        · obtain ⟨cost, hcost, hcounts⟩ :=
            ih (total + (1 + countEntries obj (cap - total))) hrest
          refine ⟨cost, hcost, ?_⟩
          rw [hexact] at hcounts
          rw [Nat.cast_add, Nat.cast_add, ← Int.add_assoc total, Nat.cast_one]
          exact hcounts
        · omega

theorem length_sources (reader : PdfReader) : reader.sources.length =
    (reader.xref.map fun (_, numbers) ↦ numbers.length).sum + reader.xrefObjStm.length := by
  unfold PdfReader.sources
  rw [List.length_append, List.length_map, List.length_flatMap]
  simp only [List.length_map]

theorem pdfCloneCost_counts {reader : PdfReader} {objs : List Obj} (cap : ℤ)
    (hparse : (reader.sources.map fun (num, gen) ↦ reader.getObject num gen) = objs.map some) :
    ∃ cost, pdfCloneCost reader cap = .ok cost ∧ Counts cap cost (exactCost objs) := by
  unfold pdfCloneCost
  rw [← length_sources]
  by_cases hmany : cap < (reader.sources.length : ℤ)
  · rw [if_pos hmany]
    refine ⟨cap + 1, rfl, .inr ⟨by omega, ?_⟩⟩
    have hlength := congrArg List.length hparse
    rw [List.length_map, List.length_map] at hlength
    have hcost := length_le_exactCost objs
    omega
  · rw [if_neg hmany]
    obtain ⟨cost, hcost, hcounts⟩ := addUp_counts cap 0 hparse
    rw [Int.zero_add] at hcounts
    exact ⟨cost, hcost, hcounts⟩

/-- Of objects that can be read, the cost is within a cap exactly when the exact cost is, and is
then the exact one; and so the check passes exactly the files whose exact cost is within its bound.
-/
theorem pdfCloneCost_is_exact_up_to_the_cap (reader : PdfReader) (objs : List Obj) (cap : ℤ)
    (hparse : (reader.sources.map fun (num, gen) ↦ reader.getObject num gen) = objs.map some) :
    (∃ cost, pdfCloneCost reader cap = .ok cost ∧
      (cost ≤ cap ↔ (exactCost objs : ℤ) ≤ cap) ∧ (cost ≤ cap → cost = exactCost objs)) ∧
    (checkBudget reader = .ok () ↔ (exactCost objs : ℤ) ≤ maxPdfElements) := by
  constructor
  · obtain ⟨cost, hcost, hcounts⟩ := pdfCloneCost_counts cap hparse
    refine ⟨cost, hcost, ?_⟩
    rcases hcounts with hexact | ⟨hvalue, hexact⟩
    · exact ⟨by rw [hexact], fun _ ↦ hexact⟩
    · exact ⟨by omega, by omega⟩
  · obtain ⟨cost, hcost, hcounts⟩ := pdfCloneCost_counts maxPdfElements hparse
    unfold checkBudget
    rw [hcost]
    dsimp only
    by_cases hlarge : maxPdfElements < cost
    · rw [if_pos hlarge]
      refine iff_of_false nofun ?_
      rcases hcounts with hexact | ⟨_, hexact⟩
      · rw [← hexact]
        exact not_le.mpr hlarge
      · exact not_le.mpr hexact
    · rw [if_neg hlarge]
      refine iff_of_true rfl ?_
      rcases hcounts with hexact | ⟨hvalue, _⟩
      · rw [← hexact]
        exact not_lt.mp hlarge
      · exact absurd hvalue hlarge

/-- A dictionary of two arrays, and a number. -/
def smallPdf : PdfReader where
  xref := [(0, [1, 2])]
  xrefObjStm := []
  getObject
    | 1, _ => some (.dictionary [.array [.leaf, .leaf], .array []])
    | _, _ => some .leaf

theorem cost_of_smallPdf : ∃ cost, pdfCloneCost smallPdf 4 = .ok cost ∧
    (cost ≤ 4 ↔ (exactCost [.dictionary [.array [.leaf, .leaf], .array []], .leaf] : ℤ) ≤ 4) ∧
    (cost ≤ 4 → cost = exactCost [.dictionary [.array [.leaf, .leaf], .array []], .leaf]) :=
  (pdfCloneCost_is_exact_up_to_the_cap smallPdf
    [.dictionary [.array [.leaf, .leaf], .array []], .leaf] 4 rfl).1

end OpenWhistle.Attachments.Pdf
