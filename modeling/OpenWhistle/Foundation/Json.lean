import Mathlib.Data.Int.Notation
import Mathlib.Data.Nat.Notation
import Mathlib.Tactic.SplitIfs

/-!
# JSON texts

The values of JSON without fractions, the text a value is written as, and the value a text is read
as. A writer puts one blank after each comma and colon, and writes every character outside printable
ASCII as an escape, the ones beyond the basic plane as a surrogate pair. A reader skips blanks, and
takes as many characters as a value has.

What was written is read back as it was. The proof follows the value: a value in front of any text
that does not go on with a digit is read, and the rest of the text is left.
-/

set_option autoImplicit false
set_option relaxedAutoImplicit false

inductive Json
  | null
  | bool (b : Bool)
  | int (n : ℤ)
  | str (s : String)
  | list (items : List Json)
  /-- The pairs in the order of the text. -/
  | dict (items : List (String × Json))

namespace Json

/-! ### Characters -/

def hex4 (n : ℕ) : List Char :=
  [(n / 4096 % 16).digitChar, (n / 256 % 16).digitChar, (n / 16 % 16).digitChar,
    (n % 16).digitChar]

def hexValue (c : Char) : Option ℕ :=
  if '0' ≤ c ∧ c ≤ '9' then some (c.toNat - 48)
  else if 'a' ≤ c ∧ c ≤ 'f' then some (c.toNat - 87)
  else if 'A' ≤ c ∧ c ≤ 'F' then some (c.toNat - 55)
  else none

def takeHex : List Char → Option (ℕ × List Char)
  | a :: b :: c :: d :: rest => do
    let a ← hexValue a
    let b ← hexValue b
    let c ← hexValue c
    let d ← hexValue d
    return (((a * 16 + b) * 16 + c) * 16 + d, rest)
  | _ => none

/-- The escapes of one letter. -/
def shorts : List (Char × Char) :=
  [('"', '"'), ('\\', '\\'), ('\n', 'n'), ('\r', 'r'), ('\t', 't'), ('\x08', 'b'), ('\x0c', 'f')]

def escapeChar (c : Char) : List Char :=
  match shorts.lookup c with
  | some letter => ['\\', letter]
  | none =>
    if 0x20 ≤ c.toNat ∧ c.toNat ≤ 0x7e then [c]
    else if c.toNat < 0x10000 then '\\' :: 'u' :: hex4 c.toNat
    else '\\' :: 'u' :: hex4 (0xd800 + (c.toNat - 0x10000) / 0x400) ++
      '\\' :: 'u' :: hex4 (0xdc00 + (c.toNat - 0x10000) % 0x400)

/-- What follows `\u`. A surrogate without its partner is no character. -/
def takeUnicode (text : List Char) : Option (Char × List Char) := do
  let (n, rest) ← takeHex text
  if n < 0xd800 ∨ 0xe000 ≤ n then return (Char.ofNat n, rest)
  else if n < 0xdc00 then
    match rest with
    | '\\' :: 'u' :: rest => do
      let (m, rest) ← takeHex rest
      if 0xdc00 ≤ m ∧ m < 0xe000 then
        return (Char.ofNat (0x10000 + (n - 0xd800) * 0x400 + (m - 0xdc00)), rest)
      else none
    | _ => none
  else none

def takeEscape : List Char → Option (Char × List Char)
  | [] => none
  | letter :: rest =>
    if letter = 'u' then takeUnicode rest
    else if letter = '/' then some ('/', rest)
    else ((shorts.map Prod.swap).lookup letter).map fun c ↦ (c, rest)

def takeChar : List Char → Option (Char × List Char)
  | [] => none
  | c :: rest =>
    if c = '\\' then takeEscape rest else if c.toNat < 0x20 then none else some (c, rest)

/-! ### Values -/

def renderString (s : String) : List Char := '"' :: s.toList.flatMap escapeChar ++ ['"']

def renderInt (n : ℤ) : List Char :=
  if n < 0 then '-' :: Nat.toDigits 10 n.natAbs else Nat.toDigits 10 n.natAbs

mutual

def render : Json → List Char
  | .null => ['n', 'u', 'l', 'l']
  | .bool true => ['t', 'r', 'u', 'e']
  | .bool false => ['f', 'a', 'l', 's', 'e']
  | .int n => renderInt n
  | .str s => renderString s
  | .list [] => ['[', ']']
  | .list (item :: items) => '[' :: render item ++ renderItems items
  | .dict [] => ['{', '}']
  | .dict ((key, value) :: items) =>
    '{' :: renderString key ++ ':' :: ' ' :: render value ++ renderPairs items

/-- The items of a list after the first. -/
def renderItems : List Json → List Char
  | [] => [']']
  | item :: items => ',' :: ' ' :: render item ++ renderItems items

/-- The pairs of an object after the first. -/
def renderPairs : List (String × Json) → List Char
  | [] => ['}']
  | (key, value) :: items =>
    ',' :: ' ' :: renderString key ++ ':' :: ' ' :: render value ++ renderPairs items

end

/-- `json.dumps`. -/
def dumps (value : Json) : String := String.ofList (render value)

def isBlank (c : Char) : Bool := c = ' ' || c = '\t' || c = '\n' || c = '\r'

def skip (text : List Char) : List Char := text.dropWhile isBlank

/-- A string after its opening quote. -/
def takeString : ℕ → List Char → Option (List Char × List Char)
  | 0, _ => none
  | _ + 1, [] => none
  | n + 1, c :: text =>
    if c = '"' then some ([], text)
    else do
      let (c, rest) ← takeChar (c :: text)
      let (s, rest) ← takeString n rest
      return (c :: s, rest)

def takeDigits (text : List Char) : Option (ℕ × List Char) :=
  if text.takeWhile Char.isDigit = [] then none
  else some (Nat.ofDigitChars 10 (text.takeWhile Char.isDigit) 0, text.dropWhile Char.isDigit)

def takeInt : List Char → Option (Json × List Char)
  | '-' :: rest => (takeDigits rest).map fun (n, rest) ↦ (.int (-n), rest)
  | text => (takeDigits text).map fun (n, rest) ↦ (.int n, rest)

def takeWord (word : List Char) (value : Json) (text : List Char) : Option (Json × List Char) :=
  if word.isPrefixOf text then some (value, text.drop word.length) else none

mutual

/-- A value in front of a text. -/
def take : ℕ → List Char → Option (Json × List Char)
  | 0, _ => none
  | n + 1, text =>
    match skip text with
    | [] => none
    | c :: rest =>
      if c = '"' then (takeString n rest).map fun (s, rest) ↦ (.str (String.ofList s), rest)
      else if c = '[' then
        if (skip rest).head? = some ']' then some (.list [], (skip rest).tail)
        else do
          let (item, rest) ← take n rest
          let (items, rest) ← takeItems n rest
          return (.list (item :: items), rest)
      else if c = '{' then
        if (skip rest).head? = some '}' then some (.dict [], (skip rest).tail)
        else do
          let (pair, rest) ← takePair n rest
          let (items, rest) ← takePairs n rest
          return (.dict (pair :: items), rest)
      else if c = 'n' then takeWord ['u', 'l', 'l'] .null rest
      else if c = 't' then takeWord ['r', 'u', 'e'] (.bool true) rest
      else if c = 'f' then takeWord ['a', 'l', 's', 'e'] (.bool false) rest
      else takeInt (c :: rest)

def takeItems : ℕ → List Char → Option (List Json × List Char)
  | 0, _ => none
  | n + 1, text =>
    match skip text with
    | [] => none
    | c :: rest =>
      if c = ']' then some ([], rest)
      else if c = ',' then do
        let (item, rest) ← take n rest
        let (items, rest) ← takeItems n rest
        return (item :: items, rest)
      else none

def takePair : ℕ → List Char → Option ((String × Json) × List Char)
  | 0, _ => none
  | n + 1, text =>
    match skip text with
    | [] => none
    | c :: rest =>
      if c = '"' then do
        let (key, rest) ← takeString n rest
        match skip rest with
        | [] => none
        | c :: rest =>
          if c = ':' then do
            let (value, rest) ← take n rest
            return ((String.ofList key, value), rest)
          else none
      else none

def takePairs : ℕ → List Char → Option (List (String × Json) × List Char)
  | 0, _ => none
  | n + 1, text =>
    match skip text with
    | [] => none
    | c :: rest =>
      if c = '}' then some ([], rest)
      else if c = ',' then do
        let (pair, rest) ← takePair n rest
        let (items, rest) ← takePairs n rest
        return (pair :: items, rest)
      else none

end

/-- `json.loads`: `none` where the text is no JSON. -/
def loads (text : String) : Option Json :=
  match take (text.toList.length + 1) text.toList with
  | some (value, rest) => if skip rest = [] then some value else none
  | none => none

/-! ### Objects -/

/-- `dict.get`. A key that comes twice counts with its last value. -/
def get (items : List (String × Json)) (key : String) : Option Json := items.reverse.lookup key

/-- A value under a key: in the place of its value where the key is there, and else at the end. -/
def put (items : List (String × Json)) (key : String) (value : Json) : List (String × Json) :=
  if items.any fun item ↦ decide (item.1 = key) then
    items.map fun item ↦ if item.1 = key then (key, value) else item
  else items ++ [(key, value)]

/-- The truth value of a value. -/
def truthy : Json → Bool
  | .null => false
  | .bool b => b
  | .int n => decide (n ≠ 0)
  | .str s => decide (s ≠ "")
  | .list items => !items.isEmpty
  | .dict items => !items.isEmpty

/-! ### Strings are read back -/

theorem hexValue_digitChar : ∀ d < 16, hexValue d.digitChar = some d := by decide

theorem takeHex_hex4 {n : ℕ} (hn : n < 0x10000) (rest : List Char) :
    takeHex (hex4 n ++ rest) = some (n, rest) := by
  have hdigit : ∀ m, hexValue (m % 16).digitChar = some (m % 16) :=
    fun m ↦ hexValue_digitChar _ (Nat.mod_lt m (by decide))
  simp only [hex4, List.cons_append, List.nil_append, takeHex, hdigit, Option.bind_eq_bind,
    Option.bind_some, Option.pure_def, Option.some.injEq, Prod.mk.injEq, and_true]
  omega

theorem lookup_swap_of_lookup : ∀ {c letter : Char}, shorts.lookup c = some letter →
    (shorts.map Prod.swap).lookup letter = some c ∧ letter ≠ 'u' ∧ letter ≠ '/' := by
  have hall : ∀ p ∈ shorts, (shorts.map Prod.swap).lookup p.2 = some p.1 ∧ p.2 ≠ 'u' ∧ p.2 ≠ '/' := by
    decide
  intro c letter hlookup
  obtain ⟨before, after, heq, -⟩ := List.lookup_eq_some_iff.mp hlookup
  exact hall (c, letter) (heq ▸ List.mem_append_right before List.mem_cons_self)

theorem takeUnicode_pair {n m : ℕ} (hn : 0xd800 ≤ n) (hn' : n < 0xdc00) (hm : 0xdc00 ≤ m)
    (hm' : m < 0xe000) (rest : List Char) :
    takeUnicode (hex4 n ++ ('\\' :: 'u' :: hex4 m ++ rest)) =
      some (Char.ofNat (0x10000 + (n - 0xd800) * 0x400 + (m - 0xdc00)), rest) := by
  have hnot : ¬(n < 0xd800 ∨ 0xe000 ≤ n) := by omega
  rw [takeUnicode, takeHex_hex4 (by omega)]
  simp only [Option.bind_eq_bind, Option.bind_some, List.cons_append]
  rw [if_neg hnot, if_pos hn', takeHex_hex4 (by omega)]
  simp only [Option.bind_some]
  rw [if_pos ⟨hm, hm'⟩]
  rfl

theorem toNat_lt (c : Char) : c.toNat < 0x110000 := by
  rcases c.valid with h | h
  · exact Nat.lt_trans h (by omega)
  · exact h.2

theorem surrogates_toNat {n : ℕ} (hn : 0x10000 ≤ n) :
    0x10000 + (0xd800 + (n - 0x10000) / 0x400 - 0xd800) * 0x400 +
      (0xdc00 + (n - 0x10000) % 0x400 - 0xdc00) = n := by
  omega

theorem takeChar_escapeChar (c : Char) (rest : List Char) :
    takeChar (escapeChar c ++ rest) = some (c, rest) := by
  unfold escapeChar
  cases hlookup : shorts.lookup c with
  | some letter =>
    obtain ⟨hback, hu, hslash⟩ := lookup_swap_of_lookup hlookup
    simp [takeChar, takeEscape, hu, hslash, hback]
  | none =>
    have hbackslash : c ≠ '\\' := by
      rintro rfl
      cases hlookup
    dsimp only
    split_ifs with hprintable hplane
    · simp only [List.cons_append, List.nil_append, takeChar]
      rw [if_neg hbackslash, if_neg (by omega)]
    · have hvalid : c.toNat < 0xd800 ∨ 0xe000 ≤ c.toNat := by
        rcases c.valid with h | h
        · exact .inl h
        · exact .inr h.1
      simp only [List.cons_append, takeChar, takeEscape, if_true, takeUnicode]
      rw [takeHex_hex4 hplane]
      simp only [Option.bind_eq_bind, Option.bind_some]
      rw [if_pos hvalid, Char.ofNat_toNat]
      rfl
    · have hlt := toNat_lt c
      have hread := takeUnicode_pair (n := 0xd800 + (c.toNat - 0x10000) / 0x400)
        (m := 0xdc00 + (c.toNat - 0x10000) % 0x400) (by omega) (by omega) (by omega) (by omega) rest
      rw [surrogates_toNat (by omega), Char.ofNat_toNat] at hread
      simpa only [List.append_assoc, List.cons_append, takeChar, takeEscape, if_true] using hread

theorem escapeChar_ne_nil (c : Char) : ∃ head tail, escapeChar c = head :: tail ∧ head ≠ '"' := by
  unfold escapeChar
  cases hlookup : shorts.lookup c with
  | some letter => exact ⟨_, _, rfl, by decide⟩
  | none =>
    dsimp only
    split_ifs
    · refine ⟨c, [], rfl, ?_⟩
      rintro rfl
      cases hlookup
    · exact ⟨_, _, rfl, by decide⟩
    · exact ⟨_, _, rfl, by decide⟩

/-- A string is read up to its closing quote. -/
theorem takeString_flatMap (rest : List Char) :
    ∀ {s : List Char} {n : ℕ}, (s.flatMap escapeChar).length < n →
      takeString n (s.flatMap escapeChar ++ '"' :: rest) = some (s, rest) := by
  intro s
  induction s with
  | nil =>
    intro n hn
    cases n with
    | zero => exact absurd hn (Nat.not_lt_zero _)
    | succ n => rfl
  | cons c s ih =>
    intro n hn
    obtain ⟨head, tail, hescape, hhead⟩ := escapeChar_ne_nil c
    rw [List.flatMap_cons, List.length_append] at hn
    rw [List.flatMap_cons, List.append_assoc]
    cases n with
    | zero => exact absurd hn (Nat.not_lt_zero _)
    | succ n =>
      have hread := takeChar_escapeChar c (s.flatMap escapeChar ++ '"' :: rest)
      rw [hescape, List.length_cons] at hn
      rw [hescape, List.cons_append] at hread ⊢
      rw [takeString, if_neg hhead, hread]
      simp only [Option.bind_eq_bind, Option.bind_some]
      rw [ih (by omega)]
      rfl

/-! ### Values are read back -/

/-- A text that does not go on with a digit. -/
def Stops (rest : List Char) : Prop := ∀ c ∈ rest.head?, c.isDigit = false

theorem stops_cons {c : Char} (hc : c.isDigit = false) (rest : List Char) : Stops (c :: rest) := by
  intro d hd
  cases hd
  exact hc

theorem takeDigits_toDigits (n : ℕ) {rest : List Char} (hrest : Stops rest) :
    takeDigits (Nat.toDigits 10 n ++ rest) = some (n, rest) := by
  have hdigits : ∀ c ∈ Nat.toDigits 10 n, c.isDigit = true :=
    fun c hc ↦ Nat.isDigit_of_mem_toDigits (by decide) (by decide) hc
  have htake : rest.takeWhile Char.isDigit = [] ∧ rest.dropWhile Char.isDigit = rest := by
    cases rest with
    | nil => exact ⟨rfl, rfl⟩
    | cons c rest =>
      have hc := hrest c rfl
      exact ⟨by rw [List.takeWhile_cons, hc]; rfl, by rw [List.dropWhile_cons, hc]; rfl⟩
  rw [takeDigits, List.takeWhile_append_of_pos hdigits, List.dropWhile_append_of_pos hdigits,
    htake.1, htake.2, List.append_nil, if_neg Nat.toDigits_ne_nil, Nat.ofDigitChars_ten_toDigits]

theorem skip_cons {c : Char} (hc : isBlank c = false) (rest : List Char) :
    skip (c :: rest) = c :: rest := by
  rw [skip, List.dropWhile_cons, hc]
  rfl

theorem skip_blank (rest : List Char) : skip (' ' :: rest) = skip rest := rfl

theorem take_blank (n : ℕ) (rest : List Char) : take n (' ' :: rest) = take n rest := by
  cases n with
  | zero => rw [take, take]
  | succ n => rw [take, take, skip_blank]

theorem takePair_blank (n : ℕ) (rest : List Char) : takePair n (' ' :: rest) = takePair n rest := by
  cases n with
  | zero => rw [takePair, takePair]
  | succ n => rw [takePair, takePair, skip_blank]

theorem ne_of_isDigit {c : Char} (hc : c.isDigit = true) : isBlank c = false ∧ c ≠ ']' ∧ c ≠ '"' ∧
    c ≠ '[' ∧ c ≠ '{' ∧ c ≠ 'n' ∧ c ≠ 't' ∧ c ≠ 'f' := by
  refine ⟨Bool.eq_false_iff.mpr fun hblank ↦ ?_, ?_, ?_, ?_, ?_, ?_, ?_, ?_⟩
  · simp only [isBlank, Bool.or_eq_true, decide_eq_true_eq] at hblank
    rcases hblank with ((rfl | rfl) | rfl) | rfl <;> cases hc
  all_goals
    rintro rfl
    cases hc

theorem toDigits_cons (n : ℕ) : ∃ c t, Nat.toDigits 10 n = c :: t ∧ c.isDigit = true := by
  cases hdigits : Nat.toDigits 10 n with
  | nil => exact absurd hdigits Nat.toDigits_ne_nil
  | cons c t =>
    refine ⟨c, t, rfl, Nat.isDigit_of_mem_toDigits (b := 10) (n := n) (by decide) (by decide) ?_⟩
    rw [hdigits]
    exact List.mem_cons_self

theorem renderInt_cons (n : ℤ) : ∃ c t, renderInt n = c :: t ∧ isBlank c = false ∧ c ≠ ']' ∧
    c ≠ '"' ∧ c ≠ '[' ∧ c ≠ '{' ∧ c ≠ 'n' ∧ c ≠ 't' ∧ c ≠ 'f' := by
  obtain ⟨c, t, hdigits, hc⟩ := toDigits_cons n.natAbs
  obtain ⟨hblank, hclose, hquote, hlist, hdict, hn, ht, hf⟩ := ne_of_isDigit hc
  rw [renderInt, hdigits]
  split
  · exact ⟨_, _, rfl, by decide⟩
  · exact ⟨c, t, rfl, hblank, hclose, hquote, hlist, hdict, hn, ht, hf⟩

/-- What a value begins with. -/
theorem render_cons (v : Json) : ∃ c t, render v = c :: t ∧ isBlank c = false ∧ c ≠ ']' := by
  cases v with
  | null => exact ⟨_, _, rfl, by decide⟩
  | bool b => cases b <;> exact ⟨_, _, rfl, by decide⟩
  | int n =>
    obtain ⟨c, t, hrender, hblank, hclose, -⟩ := renderInt_cons n
    exact ⟨c, t, hrender, hblank, hclose⟩
  | str s => exact ⟨_, _, rfl, by decide⟩
  | list items => cases items <;> exact ⟨_, _, rfl, by decide⟩
  | dict items => rcases items with - | ⟨⟨key, value⟩, items⟩ <;> exact ⟨_, _, rfl, by decide⟩

theorem takeInt_renderInt (n : ℤ) {rest : List Char} (hrest : Stops rest) :
    takeInt (renderInt n ++ rest) = some (.int n, rest) := by
  unfold renderInt
  split
  · rename_i hn
    rw [List.cons_append, takeInt, takeDigits_toDigits _ hrest]
    exact congrArg (fun m ↦ some (Json.int m, rest)) (by omega)
  · rename_i hn
    obtain ⟨c, t, hdigits, hc⟩ := toDigits_cons n.natAbs
    have hread := takeDigits_toDigits n.natAbs hrest
    rw [hdigits, List.cons_append] at hread ⊢
    rw [takeInt, hread]
    · exact congrArg (fun m ↦ some (Json.int m, rest)) (by omega)
    · intro _ heq
      obtain ⟨rfl, -⟩ := List.cons.inj heq
      cases hc

/-- A string is read as a value. -/
theorem take_renderString (s : String) {n : ℕ} (rest : List Char)
    (hn : (renderString s).length ≤ n) :
    take n (renderString s ++ rest) = some (.str s, rest) := by
  cases n with
  | zero => cases hn
  | succ n =>
    simp only [renderString, List.cons_append, List.append_assoc, List.length_cons,
      List.length_append, List.length_nil, List.nil_append] at hn ⊢
    rw [take, skip_cons (by decide)]
    dsimp only
    rw [if_pos rfl, takeString_flatMap rest (by omega)]
    exact congrArg (fun text ↦ some (Json.str text, rest)) String.ofList_toList

theorem stops_renderItems (items : List Json) (rest : List Char) :
    Stops (renderItems items ++ rest) := by
  cases items <;> exact stops_cons (by decide) _

theorem stops_renderPairs (items : List (String × Json)) (rest : List Char) :
    Stops (renderPairs items ++ rest) := by
  rcases items with - | ⟨⟨key, value⟩, items⟩ <;> exact stops_cons (by decide) _

theorem take_renderInt (m : ℤ) {n : ℕ} {rest : List Char} (hrest : Stops rest) :
    take (n + 1) (renderInt m ++ rest) = some (.int m, rest) := by
  have hread := takeInt_renderInt m hrest
  obtain ⟨c, t, hrender, hblank, -, hquote, hlist, hdict, hn, ht, hf⟩ := renderInt_cons m
  rw [hrender, List.cons_append] at hread ⊢
  rw [take, skip_cons hblank]
  dsimp only
  rw [if_neg hquote, if_neg hlist, if_neg hdict, if_neg hn, if_neg ht, if_neg hf, hread]

/-- A pair is read when its value is. -/
theorem takePair_renderString (key : String) {value : Json} {n : ℕ} {text rest : List Char}
    (hn : (renderString key).length ≤ n) (hvalue : take n text = some (value, rest)) :
    takePair (n + 1) (renderString key ++ ':' :: ' ' :: text) = some ((key, value), rest) := by
  simp only [renderString, List.cons_append, List.append_assoc, List.length_cons,
    List.length_append, List.length_nil, List.nil_append] at hn ⊢
  rw [takePair, skip_cons (by decide)]
  dsimp only
  rw [if_pos rfl, takeString_flatMap _ (by omega)]
  simp only [Option.bind_eq_bind, Option.bind_some]
  rw [skip_cons (by decide)]
  dsimp only
  rw [if_pos rfl, take_blank, hvalue, Option.bind_some, String.ofList_toList]
  rfl

theorem renderItems_ne_nil (items : List Json) : (renderItems items).length ≠ 0 := by
  cases items <;> exact Nat.succ_ne_zero _

theorem renderPairs_ne_nil (items : List (String × Json)) : (renderPairs items).length ≠ 0 := by
  rcases items with - | ⟨⟨key, value⟩, items⟩ <;> exact Nat.succ_ne_zero _

mutual

theorem take_render : ∀ (v : Json) {n : ℕ} (rest : List Char), (render v).length ≤ n → Stops rest →
    take n (render v ++ rest) = some (v, rest)
  | v, 0, rest, hn, _ => by
    obtain ⟨c, t, hrender, -⟩ := render_cons v
    rw [hrender] at hn
    cases hn
  | .null, n + 1, rest, _, _ => rfl
  | .bool true, n + 1, rest, _, _ => rfl
  | .bool false, n + 1, rest, _, _ => rfl
  | .int m, n + 1, rest, _, hrest => take_renderInt m hrest
  | .str s, n + 1, rest, hn, _ => take_renderString s rest hn
  | .list [], n + 1, rest, _, _ => rfl
  | .list (item :: items), n + 1, rest, hn, _ => by
    simp only [render, List.length_cons, List.length_append] at hn
    have hitem := take_render item (n := n) _ (by omega) (stops_renderItems items rest)
    have hitems := takeItems_render items (n := n) rest (by omega)
    obtain ⟨c, t, hrender, hblank, hclose⟩ := render_cons item
    have hopen : (skip (render item ++ (renderItems items ++ rest))).head? ≠ some ']' := by
      rw [hrender, List.cons_append, skip_cons hblank]
      exact fun heq ↦ hclose (Option.some.inj heq)
    simp only [render, List.cons_append, List.append_assoc]
    rw [take, skip_cons (by decide)]
    dsimp only
    rw [if_neg (by decide), if_pos rfl, if_neg hopen, hitem]
    simp only [Option.bind_eq_bind, Option.bind_some]
    rw [hitems]
    rfl
  | .dict [], n + 1, rest, _, _ => rfl
  | .dict ((key, value) :: items), n + 1, rest, hn, _ => by
    simp only [render, List.length_cons, List.length_append] at hn
    obtain ⟨m, rfl⟩ : ∃ m, n = m + 1 := Nat.exists_eq_succ_of_ne_zero (by omega)
    have hvalue := take_render value (n := m) _ (by omega) (stops_renderPairs items rest)
    have hpair := takePair_renderString key (by omega) hvalue
    have hitems := takePairs_render items (n := m + 1) rest (by omega)
    have hopen : (skip (renderString key ++
        ':' :: ' ' :: (render value ++ (renderPairs items ++ rest)))).head? ≠ some '}' := by
      rw [renderString, List.cons_append, List.cons_append, skip_cons (by decide)]
      exact fun heq ↦ absurd (Option.some.inj heq) (by decide)
    simp only [render, List.cons_append, List.append_assoc]
    rw [take, skip_cons (by decide)]
    dsimp only
    rw [if_neg (by decide), if_neg (by decide), if_pos rfl, if_neg hopen, hpair]
    simp only [Option.bind_eq_bind, Option.bind_some]
    rw [hitems]
    rfl

theorem takeItems_render : ∀ (items : List Json) {n : ℕ} (rest : List Char),
    (renderItems items).length ≤ n → takeItems n (renderItems items ++ rest) = some (items, rest)
  | items, 0, rest, hn => absurd (Nat.le_zero.mp hn) (renderItems_ne_nil items)
  | [], n + 1, rest, _ => rfl
  | item :: items, n + 1, rest, hn => by
    simp only [renderItems, List.length_cons, List.length_append] at hn
    have hitem := take_render item (n := n) _ (by omega) (stops_renderItems items rest)
    have hitems := takeItems_render items (n := n) rest (by omega)
    simp only [renderItems, List.cons_append, List.append_assoc]
    rw [takeItems, skip_cons (by decide)]
    dsimp only
    rw [if_neg (by decide), if_pos rfl, take_blank, hitem]
    simp only [Option.bind_eq_bind, Option.bind_some]
    rw [hitems]
    rfl

theorem takePairs_render : ∀ (items : List (String × Json)) {n : ℕ} (rest : List Char),
    (renderPairs items).length ≤ n → takePairs n (renderPairs items ++ rest) = some (items, rest)
  | items, 0, rest, hn => absurd (Nat.le_zero.mp hn) (renderPairs_ne_nil items)
  | [], n + 1, rest, _ => rfl
  | (key, value) :: items, n + 1, rest, hn => by
    simp only [renderPairs, List.length_cons, List.length_append] at hn
    obtain ⟨m, rfl⟩ : ∃ m, n = m + 1 := Nat.exists_eq_succ_of_ne_zero (by omega)
    have hvalue := take_render value (n := m) _ (by omega) (stops_renderPairs items rest)
    have hpair := takePair_renderString key (by omega) hvalue
    have hitems := takePairs_render items (n := m + 1) rest (by omega)
    simp only [renderPairs, List.cons_append, List.append_assoc]
    rw [takePairs, skip_cons (by decide)]
    dsimp only
    rw [if_neg (by decide), if_pos rfl, takePair_blank, hpair]
    simp only [Option.bind_eq_bind, Option.bind_some]
    rw [hitems]
    rfl

end

/-- What was written is read back. -/
@[simp] theorem loads_dumps (value : Json) : loads (dumps value) = some value := by
  have hread := take_render value (n := (render value).length + 1) []
    (Nat.le_succ _) (fun _ hc ↦ nomatch hc)
  rw [List.append_nil] at hread
  rw [loads, dumps, String.toList_ofList, hread]
  rfl

theorem dumps_ne_empty (value : Json) : dumps value ≠ "" := by
  intro hempty
  have hread := loads_dumps value
  rw [hempty] at hread
  cases hread

theorem dumps_injective : Function.Injective dumps := by
  intro first second heq
  have hread := congrArg loads heq
  rwa [loads_dumps, loads_dumps, Option.some.injEq] at hread

/-! ### Reading an object after it was changed -/

theorem get_put_of_ne {items : List (String × Json)} {key other : String} (hne : other ≠ key)
    (value : Json) : get (put items key value) other = get items other := by
  have hlookup : ∀ pairs : List (String × Json),
      (pairs.map fun item ↦ if item.1 = key then (key, value) else item).lookup other =
        pairs.lookup other := by
    intro pairs
    induction pairs with
    | nil => rfl
    | cons pair pairs ih =>
      obtain ⟨name, held⟩ := pair
      rw [List.map_cons, List.lookup_cons, List.lookup_cons, ih]
      by_cases hname : name = key
      · have hother : (other == name) = false := beq_eq_false_iff_ne.mpr (hname ▸ hne)
        have hkey : (other == key) = false := beq_eq_false_iff_ne.mpr hne
        rw [if_pos hname, hkey, hother]
      · rw [if_neg hname]
  unfold put get
  split
  · rw [← List.map_reverse, hlookup]
  · have hkey : (other == key) = false := beq_eq_false_iff_ne.mpr hne
    rw [List.reverse_append, List.reverse_singleton, List.singleton_append, List.lookup_cons, hkey]

theorem get_put_self (items : List (String × Json)) (key : String) (value : Json) :
    get (put items key value) key = some value := by
  have hlookup : ∀ pairs : List (String × Json), (∃ pair ∈ pairs, pair.1 = key) →
      (pairs.map fun item ↦ if item.1 = key then (key, value) else item).lookup key = some value := by
    intro pairs
    induction pairs with
    | nil => simp
    | cons pair pairs ih =>
      intro hkey
      rw [List.map_cons, List.lookup_cons]
      by_cases hname : pair.1 = key
      · rw [if_pos hname, beq_self_eq_true]
      · have hother : (key == pair.1) = false := beq_eq_false_iff_ne.mpr (Ne.symm hname)
        rw [if_neg hname, hother]
        exact ih (by simpa [hname] using hkey)
  unfold put get
  split
  · rename_i hany
    rw [← List.map_reverse]
    exact hlookup _ (by simpa using hany)
  · rw [List.reverse_append, List.reverse_singleton, List.singleton_append, List.lookup_cons,
      beq_self_eq_true]

/-- The last value that is put under a key is the one that stays. -/
theorem put_put (items : List (String × Json)) (key : String) (first second : Json) :
    put (put items key first) key second = put items key second := by
  by_cases hany : (items.any fun item ↦ decide (item.1 = key)) = true
  · have hkept : ((items.map fun item ↦ if item.1 = key then (key, first) else item).any
        fun item ↦ decide (item.1 = key)) = true := by
      obtain ⟨item, hitem, hkey⟩ := List.any_eq_true.mp hany
      refine List.any_eq_true.mpr ⟨(key, first), List.mem_map.mpr ⟨item, hitem, ?_⟩, by simp⟩
      rw [if_pos (of_decide_eq_true hkey)]
    rw [put, put, put, if_pos hany, if_pos hkept, if_pos hany, List.map_map]
    refine List.map_congr_left fun item _ ↦ ?_
    by_cases hkey : item.1 = key <;> simp [hkey]
  · have hnone : ∀ item ∈ items, item.1 ≠ key := fun item hitem hkey ↦
      hany (List.any_eq_true.mpr ⟨item, hitem, decide_eq_true hkey⟩)
    have hmap : (items.map fun item ↦ if item.1 = key then (key, second) else item) = items := by
      refine (List.map_congr_left fun item hitem ↦ ?_).trans (List.map_id items)
      exact if_neg (hnone item hitem)
    rw [put, put, put, if_neg hany, if_neg hany, if_pos (by simp), List.map_append, hmap]
    simp

/-- The text of an object contains the text of each of its keys. -/
theorem renderString_infix_of_get {items : List (String × Json)} {key : String} {value : Json}
    (hget : get items key = some value) : renderString key <:+: render (.dict items) := by
  have hpairs : ∀ pairs : List (String × Json), (∃ pair ∈ pairs, pair.1 = key) →
      renderString key <:+: renderPairs pairs := by
    intro pairs
    induction pairs with
    | nil => simp
    | cons pair pairs ih =>
      obtain ⟨name, held⟩ := pair
      intro hkey
      by_cases hname : name = key
      · subst hname
        exact ⟨[',', ' '], ':' :: ' ' :: render held ++ renderPairs pairs, by simp [renderPairs]⟩
      · obtain ⟨before, after, heq⟩ := ih (by simpa [hname] using hkey)
        exact ⟨',' :: ' ' :: renderString name ++ ':' :: ' ' :: render held ++ before, after,
          by simp [renderPairs, ← heq]⟩
  have hmem : ∃ pair ∈ items, pair.1 = key := by
    obtain ⟨before, after, heq, -⟩ := List.lookup_eq_some_iff.mp hget
    have hpair : (key, value) ∈ items.reverse := heq ▸ by simp
    exact ⟨(key, value), List.mem_reverse.mp hpair, rfl⟩
  cases items with
  | nil => simp at hmem
  | cons pair pairs =>
    obtain ⟨name, held⟩ := pair
    by_cases hname : name = key
    · subst hname
      exact ⟨['{'], ':' :: ' ' :: render held ++ renderPairs pairs, by simp [render]⟩
    · obtain ⟨before, after, heq⟩ := hpairs pairs (by simpa [hname] using hmem)
      exact ⟨'{' :: renderString name ++ ':' :: ' ' :: render held ++ before, after,
        by simp [render, ← heq]⟩

end Json
