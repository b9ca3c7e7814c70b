import OpenWhistle.Foundation.Json

/-!
# JSON texts for people

An object of texts, written with its letters as they are: only quotes, backslashes and control
characters are escaped. What was written is read back.
-/

set_option autoImplicit false
set_option relaxedAutoImplicit false

namespace Json

/-! ### Writing -/

/-- A character, escaped only where it has to be. -/
def keepChar (c : Char) : List Char :=
  match shorts.lookup c with
  | some letter => ['\\', letter]
  | none => if 0x20 ≤ c.toNat then [c] else '\\' :: 'u' :: hex4 c.toNat

def renderText (s : String) : List Char := '"' :: (s.toList.flatMap keepChar ++ ['"'])

/-- The pairs behind the first one, and the end. -/
def renderTexts : List (String × String) → List Char
  | [] => ['}']
  | (key, value) :: items =>
    ',' :: ' ' :: (renderText key ++ ':' :: ' ' :: (renderText value ++ renderTexts items))

/-- `json.dumps(..., ensure_ascii=False)` of an object of texts. -/
def dumpsTexts : List (String × String) → String
  | [] => "{}"
  | (key, value) :: items =>
    String.ofList
      ('{' :: (renderText key ++ ':' :: ' ' :: (renderText value ++ renderTexts items)))

/-! ### Reading -/

theorem takeChar_keepChar (c : Char) (rest : List Char) :
    takeChar (keepChar c ++ rest) = some (c, rest) := by
  unfold keepChar
  cases hlookup : shorts.lookup c with
  | some letter =>
    obtain ⟨hback, hu, hslash⟩ := lookup_swap_of_lookup hlookup
    simp [takeChar, takeEscape, hu, hslash, hback]
  | none =>
    have hbackslash : c ≠ '\\' := by
      rintro rfl
      cases hlookup
    dsimp only
    split_ifs with hshown
    · rw [List.singleton_append, takeChar, if_neg hbackslash, if_neg (by omega)]
    · simp only [List.cons_append, takeChar, takeEscape, if_true, takeUnicode]
      rw [takeHex_hex4 (by omega)]
      simp only [Option.bind_eq_bind, Option.bind_some]
      rw [if_pos (.inl (by omega)), Char.ofNat_toNat]
      rfl

theorem keepChar_cons (c : Char) : ∃ head tail, keepChar c = head :: tail ∧ head ≠ '"' := by
  unfold keepChar
  cases hlookup : shorts.lookup c with
  | some letter => exact ⟨_, _, rfl, by decide⟩
  | none =>
    dsimp only
    split_ifs
    · refine ⟨c, [], rfl, ?_⟩
      rintro rfl
      cases hlookup
    · exact ⟨_, _, rfl, by decide⟩

theorem takeString_keepChar (rest : List Char) :
    ∀ {s : List Char} {n : ℕ}, (s.flatMap keepChar).length < n →
      takeString n (s.flatMap keepChar ++ '"' :: rest) = some (s, rest) := by
  intro s
  induction s with
  | nil =>
    intro n hn
    obtain ⟨n, rfl⟩ := Nat.exists_eq_add_one_of_ne_zero (Nat.ne_of_gt hn)
    rfl
  | cons c s ih =>
    intro n hn
    obtain ⟨head, tail, hkeep, hhead⟩ := keepChar_cons c
    have hread := takeChar_keepChar c (s.flatMap keepChar ++ '"' :: rest)
    rw [List.flatMap_cons, List.length_append, hkeep, List.length_cons] at hn
    obtain ⟨n, rfl⟩ := Nat.exists_eq_add_one_of_ne_zero (show n ≠ 0 by omega)
    rw [hkeep, List.cons_append] at hread
    rw [List.flatMap_cons, List.append_assoc, hkeep, List.cons_append, takeString, if_neg hhead,
      hread]
    simp only [Option.bind_eq_bind, Option.bind_some]
    rw [ih (by omega)]
    rfl

theorem take_renderText (s : String) {n : ℕ} (rest : List Char)
    (hn : (renderText s).length ≤ n) : take n (renderText s ++ rest) = some (.str s, rest) := by
  simp only [renderText, List.length_cons, List.length_append, List.length_nil] at hn
  obtain ⟨n, rfl⟩ := Nat.exists_eq_add_one_of_ne_zero (show n ≠ 0 by omega)
  rw [renderText, List.cons_append, List.append_assoc, List.singleton_append, take,
    skip_cons (by decide)]
  dsimp only
  rw [if_pos rfl, takeString_keepChar rest (by omega)]
  exact congrArg (fun text ↦ some (Json.str text, rest)) String.ofList_toList

theorem takePair_renderText (key value : String) {n : ℕ} (rest : List Char)
    (hkey : (renderText key).length ≤ n) (hvalue : (renderText value).length ≤ n) :
    takePair (n + 1) (renderText key ++ ':' :: ' ' :: (renderText value ++ rest)) =
      some ((key, .str value), rest) := by
  have hread := take_renderText value rest hvalue
  simp only [renderText, List.length_cons, List.length_append, List.length_nil] at hkey
  rw [renderText, List.cons_append, List.append_assoc, List.singleton_append, takePair,
    skip_cons (by decide)]
  dsimp only
  rw [if_pos rfl, takeString_keepChar _ (by omega)]
  simp only [Option.bind_eq_bind, Option.bind_some]
  rw [skip_cons (by decide)]
  dsimp only
  rw [if_pos rfl, take_blank, hread, Option.bind_some, String.ofList_toList]
  rfl

theorem takePairs_renderTexts (rest : List Char) :
    ∀ {items : List (String × String)} {n : ℕ}, (renderTexts items).length ≤ n →
      takePairs n (renderTexts items ++ rest) =
        some (items.map fun item ↦ (item.1, .str item.2), rest) := by
  intro items
  induction items with
  | nil =>
    intro n hn
    obtain ⟨n, rfl⟩ := Nat.exists_eq_add_one_of_ne_zero (Nat.ne_of_gt hn)
    rfl
  | cons item items ih =>
    intro n hn
    obtain ⟨key, value⟩ := item
    simp only [renderTexts, List.length_cons, List.length_append] at hn
    obtain ⟨n, rfl⟩ := Nat.exists_eq_add_of_le (show 2 ≤ n by omega)
    rw [Nat.add_comm 2 n]
    have hpair := takePair_renderText key value (n := n) (renderTexts items ++ rest) (by omega)
      (by omega)
    have hitems := ih (n := n + 1) (by omega)
    simp only [renderTexts, List.cons_append, List.append_assoc]
    rw [takePairs, skip_cons (by decide)]
    dsimp only
    rw [if_neg (by decide), if_pos rfl, takePair_blank, hpair]
    simp only [Option.bind_eq_bind, Option.bind_some]
    rw [hitems]
    rfl

/-- What was written is read back. -/
theorem loads_dumpsTexts (items : List (String × String)) :
    loads (dumpsTexts items) = some (.dict (items.map fun item ↦ (item.1, .str item.2))) := by
  cases items with
  | nil => rfl
  | cons item items =>
    obtain ⟨key, value⟩ := item
    obtain ⟨m, hm⟩ : ∃ m, m = (renderText key ++
        ':' :: ' ' :: (renderText value ++ renderTexts items)).length := ⟨_, rfl⟩
    have hlength := hm
    simp only [List.length_append, List.length_cons] at hlength
    have hpair := takePair_renderText key value (n := m) (renderTexts items) (by omega) (by omega)
    have hitems := takePairs_renderTexts [] (n := m + 1)
      (show (renderTexts items).length ≤ m + 1 by omega)
    have hblank : (skip (renderText key ++
        ':' :: ' ' :: (renderText value ++ renderTexts items))).head? ≠ some '}' := by
      rw [renderText, List.cons_append, skip_cons (by decide)]
      simp
    have hread : take (m + 2) ('{' :: (renderText key ++
        ':' :: ' ' :: (renderText value ++ renderTexts items))) =
        some (.dict ((key, .str value) :: items.map fun item ↦ (item.1, .str item.2)), []) := by
      rw [take, skip_cons (by decide)]
      dsimp only
      rw [if_neg (by decide), if_neg (by decide), if_pos rfl, if_neg hblank, hpair]
      simp only [Option.bind_eq_bind, Option.bind_some]
      rw [List.append_nil] at hitems
      rw [hitems]
      rfl
    rw [loads, dumpsTexts, String.toList_ofList, List.length_cons, ← hm, hread]
    rfl

end Json
