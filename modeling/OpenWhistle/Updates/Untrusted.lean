import OpenWhistle.Updates.Advisories

/-!
# A feed that cannot be trusted

The body of an answer is any value of JSON. It is decoded from its beginning to its end: a whole
number of too many digits is no JSON to the check, and a value that is nested deeper than the stack of
the decoder goes raises past it. Of what is decoded the checks look at the shape: of a number they can
only tell which whole number it equals, and every other field is asked first whether it is a text, a
list or an object. One check is made without that question: whether the severity is one of the known
words, which a list or an object answers with an exception.

Whatever was stored before, a feed is stored as its format says, an advisory at a time, if and only if
its body is not nested too deeply, no whole number of it is too long, and no advisory that would be
stored has such a severity. Where one has, nothing of the feed is stored.
-/

set_option autoImplicit false
set_option relaxedAutoImplicit false

namespace OpenWhistle.Updates

/-! ### Values with fractions -/

/-- A value of JSON, with numbers that have a fraction or an exponent. -/
inductive Value
  | null
  | bool (b : Bool)
  | int (n : ℤ)
  /-- A number with a fraction or an exponent, and the whole number it equals, where it does. -/
  | float (whole : Option ℤ)
  | str (s : String)
  | list (items : List Value)
  | dict (items : List (String × Value))

mutual

/-- What the checks can tell of a value: a float is the whole number it equals, or a value that is
neither a text nor a list nor an object nor a number they ask for. -/
def Value.seen : Value → Json
  | .null => .null
  | .bool b => .bool b
  | .int n => .int n
  | .float none => .null
  | .float (some n) => .int n
  | .str s => .str s
  | .list items => .list (seenItems items)
  | .dict items => .dict (seenPairs items)

def seenItems : List Value → List Json
  | [] => []
  | item :: items => item.seen :: seenItems items

def seenPairs : List (String × Value) → List (String × Json)
  | [] => []
  | (key, value) :: items => (key, value.seen) :: seenPairs items

end

/-- A list or an object around a value. -/
inductive Container
  | list
  | dict
  deriving DecidableEq

/-- A whole number that `int` does not take. -/
def tooLong (n : ℤ) : Bool := decide (maxDigits < (Nat.toDigits 10 n.natAbs).length)

/-- Something decoded in front of the rest of a list or of an object. -/
def andRest {α β : Type} (pack : α → β) (first : Except Unread α)
    (rest : Except Unread (List β)) : Except Unread (List β) :=
  match first with
  | .error raised => .error raised
  | .ok value => rest.map (pack value :: ·)

section Decoding

-- Whether the stack of the decoder holds values that are in one another.
variable (fits : List Container → Bool)

mutual

/-- `json.loads` of the text of a value, inside some lists and objects. -/
def Value.decode : Value → List Container → Except Unread Json
  | .null, _ => .ok .null
  | .bool b, _ => .ok (.bool b)
  | .int n, _ => if tooLong n then .error .valueError else .ok (.int n)
  | .float none, _ => .ok .null
  | .float (some n), _ => .ok (.int n)
  | .str s, _ => .ok (.str s)
  | .list items, around =>
    if fits (.list :: around) then (decodeItems items (.list :: around)).map .list
    else .error .recursionError
  | .dict items, around =>
    if fits (.dict :: around) then (decodePairs items (.dict :: around)).map .dict
    else .error .recursionError

def decodeItems : List Value → List Container → Except Unread (List Json)
  | [], _ => .ok []
  | item :: items, around => andRest id (item.decode around) (decodeItems items around)

def decodePairs : List (String × Value) → List Container → Except Unread (List (String × Json))
  | [], _ => .ok []
  | (key, value) :: items, around =>
    andRest (fun decoded ↦ (key, decoded)) (value.decode around) (decodePairs items around)

end

end Decoding

mutual

/-- A whole number of too many digits is somewhere in the value. -/
def Value.overlong : Value → Bool
  | .int n => tooLong n
  | .list items => overlongItems items
  | .dict items => overlongPairs items
  | _ => false

def overlongItems : List Value → Bool
  | [] => false
  | item :: items => item.overlong || overlongItems items

def overlongPairs : List (String × Value) → Bool
  | [] => false
  | (_, value) :: items => value.overlong || overlongPairs items

end

/-! ### What the format says of an advisory -/

variable (site : Site)

/-- The fields an advisory must have. -/
structure Required where
  id : String
  affected : String
  fixed : String
  summary : String

/-- The required fields of an advisory, where all of them validate. -/
def required (raw : List (String × Json)) : Option Required :=
  match Json.get raw "id", Json.get raw "affected", (Json.get raw "fixed").getD (.str "") with
  | some (.str id), some (.str affected), .str fixed =>
    let summary := text (Json.get raw "summary") maxSummary
    if isAdvisoryId id ∧ summary ≠ "" ∧ (constraints site affected).isSome ∧
        (fixed = "" ∨ isVersion site fixed.toList) then some ⟨id, affected, fixed, summary⟩
    else none
  | _, _, _ => none

/-- The severity that is shown: one of the known words, or none. -/
def shownSeverity : Option Json → String
  | some (.str severity) => if severity ∈ severities then severity else ""
  | _ => ""

/-- An advisory as the format has it stored: dropped without its required fields, and blank in every
other field that does not validate. -/
def valid : Json → Option Json
  | .dict raw => (required site raw).map fun fields ↦
      .dict [("id", .str fields.id), ("cve_ids", .list (cveIds site (Json.get raw "cve_ids"))),
        ("summary", .str fields.summary),
        ("severity", .str (shownSeverity (Json.get raw "severity"))),
        ("affected", .str fields.affected), ("fixed", .str fields.fixed),
        ("url", .str (https (Json.get raw "url")))]
  | _ => none

/-- A list or an object, which cannot be looked up in a set. -/
def isUnhashable : Option Json → Bool
  | some (.list _) => true
  | some (.dict _) => true
  | _ => false

/-- An advisory with its required fields, whose severity is a list or an object. -/
def breaks : Json → Bool
  | .dict raw => (required site raw).isSome && isUnhashable (Json.get raw "severity")
  | _ => false

/-- The advisories that are looked at: the first hundred of a feed of schema 1. -/
def entries : Json → List Json
  | .dict data =>
    if isSchemaOne data then
      match Json.get data "advisories" with
      | some (.list advisories) => advisories.take maxAdvisories
      | _ => []
    else []
  | _ => []

/-- A feed of schema 1 with a list of advisories. -/
def hasList : Json → Bool
  | .dict data => isSchemaOne data && match Json.get data "advisories" with
    | some (.list _) => true
    | _ => false
  | _ => false

/-- What the format promises of a 200 with this body. -/
structure Kept (now : ℕ) (redis stored : Redis.Store) (body : Json) : Prop where
  advisories : ∀ data advisories, body = .dict data → isSchemaOne data = true →
    Json.get data "advisories" = some (.list advisories) →
      readAdvisories now stored = (advisories.take maxAdvisories).filterMap (valid site)
  notAList : ∀ data, body = .dict data → isSchemaOne data = true →
    (∀ advisories, Json.get data "advisories" ≠ some (.list advisories)) →
      stored advisoriesKey = redis advisoriesKey
  notSchemaOne : (∀ data, body = .dict data → isSchemaOne data = false) →
    stored advisoriesKey = redis advisoriesKey ∧ stored cacheKey = redis cacheKey

/-! ### What is decoded -/

section Decoding

variable {fits : List Container → Bool}

/-- The outcomes of decoding a value: what the checks see of it, where no number of it is too long;
or one of the two exceptions, and the first one only where a number is too long. -/
def Decoded {α : Type} (outcome : Except Unread α) (seen : α) (overlong : Bool) : Prop :=
  outcome = .ok seen ∧ overlong = false ∨ outcome = .error .valueError ∧ overlong = true ∨
    outcome = .error .recursionError

theorem decoded_cons {α β : Type} {outcome : Except Unread α} {first : α}
    {overlong overlongs : Bool} {rest : Except Unread (List β)} {seen : List β} (pack : α → β)
    (hfirst : Decoded outcome first overlong) (hrest : Decoded rest seen overlongs) :
    Decoded (andRest pack outcome rest) (pack first :: seen) (overlong || overlongs) := by
  rcases hfirst with ⟨rfl, rfl⟩ | ⟨rfl, rfl⟩ | rfl
  · rcases hrest with ⟨rfl, rfl⟩ | ⟨rfl, rfl⟩ | rfl
    · exact .inl ⟨rfl, rfl⟩
    · exact .inr (.inl ⟨rfl, rfl⟩)
    · exact .inr (.inr rfl)
  · exact .inr (.inl ⟨rfl, rfl⟩)
  · exact .inr (.inr rfl)

theorem decoded_container {β : Type} {outcome : Except Unread (List β)} {seen : List β}
    {overlong : Bool} (pack : List β → Json) (around : List Container)
    (h : Decoded outcome seen overlong) :
    Decoded (if fits around then outcome.map pack else .error .recursionError) (pack seen)
      overlong := by
  by_cases hfits : fits around = true
  · rw [if_pos hfits]
    rcases h with ⟨rfl, hshort⟩ | ⟨rfl, hlong⟩ | rfl
    · exact .inl ⟨rfl, hshort⟩
    · exact .inr (.inl ⟨rfl, hlong⟩)
    · exact .inr (.inr rfl)
  · rw [if_neg hfits]
    exact .inr (.inr rfl)

mutual

theorem decoded_value : ∀ (value : Value) (around : List Container),
    Decoded (value.decode fits around) value.seen value.overlong
  | .null, _ => .inl ⟨rfl, rfl⟩
  | .bool _, _ => .inl ⟨rfl, rfl⟩
  | .int n, _ => by
    cases hlong : tooLong n with
    | true => exact .inr (.inl ⟨if_pos hlong, hlong⟩)
    | false => exact .inl ⟨if_neg (by rw [hlong]; decide), hlong⟩
  | .float none, _ => .inl ⟨rfl, rfl⟩
  | .float (some _), _ => .inl ⟨rfl, rfl⟩
  | .str _, _ => .inl ⟨rfl, rfl⟩
  | .list items, around => decoded_container .list (.list :: around) (decoded_items items _)
  | .dict items, around => decoded_container .dict (.dict :: around) (decoded_pairs items _)

theorem decoded_items : ∀ (items : List Value) (around : List Container),
    Decoded (decodeItems fits items around) (seenItems items) (overlongItems items)
  | [], _ => .inl ⟨rfl, rfl⟩
  | item :: items, around =>
    decoded_cons id (decoded_value item around) (decoded_items items around)

theorem decoded_pairs : ∀ (items : List (String × Value)) (around : List Container),
    Decoded (decodePairs fits items around) (seenPairs items) (overlongPairs items)
  | [], _ => .inl ⟨rfl, rfl⟩
  | (key, value) :: items, around =>
    decoded_cons (fun decoded ↦ (key, decoded)) (decoded_value value around)
      (decoded_pairs items around)

end

end Decoding

/-! ### The check of one advisory -/

variable {site}

theorem severityOf_eq {severity : Option Json} (h : isUnhashable severity = false) :
    severityOf severity = .ok (shownSeverity severity) := by
  rcases severity with - | (- | - | - | severity | items | items)
  · rfl
  · rfl
  · rfl
  · rfl
  · rfl
  · cases h
  · cases h

theorem severityOf_raises {severity : Option Json} (h : isUnhashable severity = true) :
    severityOf severity = .error .typeError := by
  unfold isUnhashable at h
  split at h
  · rfl
  · rfl
  · cases h

/-- The check of an object goes by its required fields, and then by its severity. -/
theorem advisory_dict (raw : List (String × Json)) :
    advisory site (.dict raw) = match required site raw with
      | none => .ok none
      | some fields => (severityOf (Json.get raw "severity")).map fun severity ↦
          some (.dict [("id", .str fields.id),
            ("cve_ids", .list (cveIds site (Json.get raw "cve_ids"))),
            ("summary", .str fields.summary), ("severity", .str severity),
            ("affected", .str fields.affected), ("fixed", .str fields.fixed),
            ("url", .str (https (Json.get raw "url")))]) := by
  unfold advisory
  dsimp only
  split
  · rename_i id affected fixed hid haffected hfixed
    rw [required, hid, haffected, hfixed]
    dsimp only
    split_ifs
    · cases severityOf (Json.get raw "severity") <;> rfl
    · rfl
  · rename_i hnot
    have hrequired : required site raw = none := by
      unfold required
      split
      · rename_i id affected fixed hid haffected hfixed
        exact (hnot id affected fixed hid haffected hfixed).elim
      · rfl
    rw [hrequired]
    rfl

theorem advisory_of_valid {raw : Json} (h : breaks site raw = false) :
    advisory site raw = .ok (valid site raw) := by
  cases raw with
  | dict raw =>
    rw [advisory_dict, valid]
    cases hrequired : required site raw with
    | none => rfl
    | some fields =>
      have hhash : isUnhashable (Json.get raw "severity") = false := by
        simpa [breaks, hrequired] using h
      rw [severityOf_eq hhash]
      rfl
  | null => rfl
  | bool b => rfl
  | int n => rfl
  | str s => rfl
  | list items => rfl

theorem advisory_of_breaks {raw : Json} (h : breaks site raw = true) :
    advisory site raw = .error .typeError := by
  cases raw with
  | dict raw =>
    obtain ⟨hrequired, hhash⟩ := Bool.and_eq_true_iff.mp h
    obtain ⟨fields, hfields⟩ := Option.isSome_iff_exists.mp hrequired
    rw [advisory_dict, hfields]
    dsimp only
    rw [severityOf_raises hhash]
    rfl
  | null => cases h
  | bool b => cases h
  | int n => cases h
  | str s => cases h
  | list items => cases h

theorem validated_eq {advisories : List Json}
    (h : ∀ raw ∈ advisories.take maxAdvisories, breaks site raw = false) :
    validated site advisories = (advisories.take maxAdvisories).filterMap (valid site) := by
  refine List.filterMap_congr fun raw hraw ↦ ?_
  rw [advisory_of_valid (h raw hraw)]

/-- One check that raises ends the whole list. -/
theorem mapM_eq_error {α β ε : Type} {f : α → Except ε β} {items : List α} {item : α} {fault : ε}
    (hitem : item ∈ items) (hfault : f item = .error fault) : ∃ other, items.mapM f = .error other := by
  induction items with
  | nil => cases hitem
  | cons first items ih =>
    rw [List.mapM_cons]
    cases hfirst : f first with
    | error other => exact ⟨other, rfl⟩
    | ok kept =>
      have hrest : item ∈ items := by
        rcases List.mem_cons.mp hitem with rfl | hrest
        · rw [hfirst] at hfault
          cases hfault
        · exact hrest
      obtain ⟨other, hother⟩ := ih hrest
      refine ⟨other, ?_⟩
      rw [hother]
      rfl

theorem keep_eq_error {advisories : List Json} {raw : Json}
    (hraw : raw ∈ advisories.take maxAdvisories) (hbreaks : breaks site raw = true) :
    ∃ fault, keep site advisories = .error fault := by
  obtain ⟨fault, hfault⟩ := mapM_eq_error hraw (advisory_of_breaks hbreaks)
  exact ⟨fault, by rw [keep, hfault]; rfl⟩

/-! ### The fetch of a 200 -/

variable {now : ℕ} {redis : Redis.Store} {etag : Option String}

theorem feedOf_dict {data : List (String × Json)} (h : isSchemaOne data = true) :
    feedOf ⟨200, .ok (.dict data), etag⟩ = some data := by
  simp [feedOf, h]

theorem feedOf_other {body : Json} (h : ∀ data, body = .dict data → isSchemaOne data = false) :
    feedOf ⟨200, .ok body, etag⟩ = none := by
  cases body with
  | dict data => simp [feedOf, h data rfl]
  | null => rfl
  | bool b => rfl
  | int n => rfl
  | str s => rfl
  | list items => rfl

/-- A 200 with a feed of schema 1 caches it. -/
theorem fetchFeed_dict {data : List (String × Json)} (h : isSchemaOne data = true) :
    fetchFeed site now redis (some ⟨200, .ok (.dict data), etag⟩) =
      cacheFeed site now redis data etag := by
  unfold fetchFeed
  dsimp only
  rw [if_neg (by decide), if_neg (by simp [Response.raises]), feedOf_dict h]

theorem fetchFeed_other {body : Json} (h : ∀ data, body = .dict data → isSchemaOne data = false) :
    fetchFeed site now redis (some ⟨200, .ok body, etag⟩) = .ok (readCache now redis, redis) := by
  unfold fetchFeed
  dsimp only
  rw [if_neg (by decide), if_neg (by simp [Response.raises]), feedOf_other h]

/-- A key that was set with a time to live is read at once. -/
theorem readAdvisories_of_entry {stored : Redis.Store} {advisories : List Json}
    (h : stored advisoriesKey = some ⟨.text (Json.dumps (.list advisories)),
      some (now + 1000 * cacheTtl)⟩) : readAdvisories now stored = advisories := by
  unfold readAdvisories readJson Redis.get
  rw [Redis.find_eq_some h rfl (Nat.le_add_right ..)]
  dsimp only
  rw [if_neg (Json.dumps_ne_empty _), Json.loads_dumps]

theorem entries_list {data : List (String × Json)} {advisories : List Json}
    (hschema : isSchemaOne data = true)
    (hlist : Json.get data "advisories" = some (.list advisories)) :
    entries (.dict data) = advisories.take maxAdvisories := by
  rw [entries, if_pos hschema, hlist]

/-- The body is no feed, a feed without a list, or a feed with a list of advisories. -/
theorem body_cases (body : Json) :
    (∀ data, body = .dict data → isSchemaOne data = false) ∨
    ∃ data, body = .dict data ∧ isSchemaOne data = true ∧
      ((∃ advisories, Json.get data "advisories" = some (.list advisories)) ∨
        ∀ advisories, Json.get data "advisories" ≠ some (.list advisories)) := by
  by_cases hfeed : ∃ data, body = .dict data ∧ isSchemaOne data = true
  · obtain ⟨data, hdata, hschema⟩ := hfeed
    refine .inr ⟨data, hdata, hschema, ?_⟩
    by_cases hlist : ∃ advisories, Json.get data "advisories" = some (.list advisories)
    · exact .inl hlist
    · exact .inr fun advisories h ↦ hlist ⟨advisories, h⟩
  · refine .inl fun data hdata ↦ Bool.eq_false_iff.mpr fun hschema ↦ hfeed ⟨data, hdata, hschema⟩

theorem kept_of_unbroken (site : Site) (now : ℕ) (redis : Redis.Store) (etag : Option String)
    {body : Json} (h : ∀ raw ∈ entries body, breaks site raw = false) :
    ∃ result stored, fetchFeed site now redis (some ⟨200, .ok body, etag⟩) = .ok (result, stored) ∧
      Kept site now redis stored body := by
  rcases body_cases body with hother | ⟨data, rfl, hschema, ⟨advisories, hlist⟩ | hnolist⟩
  · refine ⟨_, _, fetchFeed_other hother, fun data _ hdata hschema ↦ ?_,
      fun data hdata hschema ↦ ?_, fun _ ↦ ⟨rfl, rfl⟩⟩
    · rw [hother data hdata] at hschema
      cases hschema
    · rw [hother data hdata] at hschema
      cases hschema
  · rw [entries_list hschema hlist] at h
    have hkeep : keep site advisories = .ok (validated site advisories) :=
      keep_eq_ok fun raw hraw ↦ ⟨_, advisory_of_valid (h raw hraw)⟩
    refine ⟨_, _, (fetchFeed_dict hschema).trans (cacheFeed_list now redis etag hlist hkeep),
      fun other items hdata _ hitems ↦ ?_, fun other hdata _ hno ↦ ?_, fun hno ↦ ?_⟩
    · rw [← Json.dict.inj hdata, hlist] at hitems
      rw [← Json.list.inj (Option.some.inj hitems), ← validated_eq h]
      exact readAdvisories_of_entry ((cacheRelease_kept ..).1.trans (Redis.set_self ..))
    · rw [← Json.dict.inj hdata] at hno
      exact absurd hlist (hno advisories)
    · rw [hno data rfl] at hschema
      cases hschema
  · refine ⟨_, _, (fetchFeed_dict hschema).trans (cacheFeed_other now redis etag hnolist),
      fun other items hdata _ hitems ↦ ?_, fun _ _ _ _ ↦ (cacheRelease_kept ..).1, fun hno ↦ ?_⟩
    · rw [← Json.dict.inj hdata] at hitems
      exact absurd hitems (hnolist items)
    · rw [hno data rfl] at hschema
      cases hschema

theorem fetchFeed_raises (site : Site) (now : ℕ) (redis : Redis.Store) (etag : Option String)
    {body raw : Json} (hraw : raw ∈ entries body) (hbreaks : breaks site raw = true) :
    ∃ fault, fetchFeed site now redis (some ⟨200, .ok body, etag⟩) = .error fault := by
  rcases body_cases body with hother | ⟨data, rfl, hschema, ⟨advisories, hlist⟩ | hnolist⟩
  · exfalso
    cases body with
    | dict data => simp [entries, hother data rfl] at hraw
    | null => cases hraw
    | bool b => cases hraw
    | int n => cases hraw
    | str s => cases hraw
    | list items => cases hraw
  · rw [entries_list hschema hlist] at hraw
    obtain ⟨fault, hfault⟩ := keep_eq_error hraw hbreaks
    refine ⟨fault, (fetchFeed_dict hschema).trans ?_⟩
    rw [cacheFeed, hlist]
    dsimp only
    rw [hfault]
    rfl
  · exfalso
    rw [entries, if_pos hschema] at hraw
    split at hraw
    · rename_i advisories hlist
      exact hnolist advisories hlist
    · cases hraw

/-- A body that is no JSON to the check leaves the keys as they are. -/
theorem fetchFeed_garbled (site : Site) (now : ℕ) (redis : Redis.Store) (etag : Option String) :
    fetchFeed site now redis (some ⟨200, .error .valueError, etag⟩) =
      .ok (readCache now redis, redis) := rfl

theorem hasList_of_entry {body raw : Json} (h : raw ∈ entries body) : hasList body = true := by
  unfold entries at h
  split at h
  next data =>
    split_ifs at h with hschema
    · split at h
      next advisories hlist => simp [hasList, hschema, hlist]
      next => cases h
    · cases h
  next => cases h

theorem exists_of_hasList {body : Json} (h : hasList body = true) :
    ∃ data advisories, body = .dict data ∧ isSchemaOne data = true ∧
      Json.get data "advisories" = some (.list advisories) := by
  unfold hasList at h
  split at h
  next data =>
    obtain ⟨hschema, hlist⟩ := Bool.and_eq_true_iff.mp h
    split at hlist
    next advisories hget => exact ⟨data, advisories, rfl, hschema, hget⟩
    next => cases hlist
  next => cases h

theorem hasList_eq_true {data : List (String × Json)} {advisories : List Json}
    (hschema : isSchemaOne data = true)
    (hlist : Json.get data "advisories" = some (.list advisories)) :
    hasList (.dict data) = true := by
  simp [hasList, hschema, hlist]

/-- Where nothing is changed, the format's promises are those of a body without a list of
advisories. -/
theorem kept_of_no_list (site : Site) (now : ℕ) (redis : Redis.Store) {body : Json}
    (h : hasList body = false) : Kept site now redis redis body := by
  refine ⟨fun data advisories hdata hschema hlist ↦ ?_, fun _ _ _ _ ↦ rfl, fun _ ↦ ⟨rfl, rfl⟩⟩
  rw [hdata, hasList_eq_true hschema hlist] at h
  cases h

/-- No list of advisories is the one that is stored whatever was stored before. -/
theorem exists_not_kept (site : Site) (now : ℕ) {body : Json} (h : hasList body = true) :
    ∃ redis, ¬Kept site now redis redis body := by
  obtain ⟨data, advisories, hdata, hschema, hlist⟩ := exists_of_hasList h
  by_cases hnone : (advisories.take maxAdvisories).filterMap (valid site) = []
  · let redis : Redis.Store := fun _ ↦ some ⟨.text (Json.dumps (.list [.null])),
      some (now + 1000 * cacheTtl)⟩
    refine ⟨redis, fun hkept ↦ ?_⟩
    have hread := hkept.advisories data advisories hdata hschema hlist
    rw [hnone, readAdvisories_of_entry rfl] at hread
    cases hread
  · refine ⟨fun _ ↦ none, fun hkept ↦ hnone ?_⟩
    exact (hkept.advisories data advisories hdata hschema hlist).symm

/-- Whatever was stored before, a 200 with any value as its body ends without an exception and leaves
what the format promises, if and only if decoding the body does not run out of stack, no number of a
feed with a list of advisories is too long, and none of the first hundred advisories that has its
required fields has a list or an object for a severity. -/
theorem feed_is_kept_iff (site : Site) (fits : List Container → Bool) (now : ℕ)
    (etag : Option String) (body : Value) :
    (∀ redis, ∃ result stored,
      fetchFeed site now redis (some ⟨200, body.decode fits [], etag⟩) = .ok (result, stored) ∧
        Kept site now redis stored body.seen) ↔
      body.decode fits [] ≠ .error .recursionError ∧
      (hasList body.seen = true → body.overlong = false) ∧
      ∀ raw ∈ entries body.seen, breaks site raw = false := by
  have hdecoded : Decoded (body.decode fits []) body.seen body.overlong := decoded_value body []
  rcases hdecoded with ⟨hread, hshort⟩ | ⟨hgarbled, hlong⟩ | hdeep
  · rw [hread]
    refine ⟨fun h ↦ ⟨nofun, fun _ ↦ hshort, fun raw hraw ↦ ?_⟩, fun h redis ↦
      kept_of_unbroken site now redis etag h.2.2⟩
    refine Bool.eq_false_iff.mpr fun hbreaks ↦ ?_
    obtain ⟨result, stored, hfetch, -⟩ := h fun _ ↦ none
    obtain ⟨fault, hfault⟩ := fetchFeed_raises site now (fun _ ↦ none) etag hraw hbreaks
    rw [hfault] at hfetch
    cases hfetch
  · rw [hgarbled]
    refine ⟨fun h ↦ ?_, fun h redis ↦ ⟨_, _, fetchFeed_garbled site now redis etag, ?_⟩⟩
    · have hno : hasList body.seen = false := by
        refine Bool.eq_false_iff.mpr fun hlist ↦ ?_
        obtain ⟨redis, hnot⟩ := exists_not_kept site now hlist
        obtain ⟨result, stored, hfetch, hkept⟩ := h redis
        rw [fetchFeed_garbled] at hfetch
        cases hfetch
        exact hnot hkept
      refine ⟨nofun, fun hlist ↦ absurd hlist (by rw [hno]; decide), fun raw hraw ↦ ?_⟩
      rw [hasList_of_entry hraw] at hno
      cases hno
    · refine kept_of_no_list site now redis (Bool.eq_false_iff.mpr fun hlist ↦ ?_)
      rw [h.2.1 hlist] at hlong
      cases hlong
  · rw [hdeep]
    refine ⟨fun h ↦ ?_, fun h ↦ absurd rfl h.1⟩
    obtain ⟨result, stored, hfetch, -⟩ := h fun _ ↦ none
    cases hfetch

/-- A sound advisory, and one whose severity is a list of words. -/
def listedSeverity : Value :=
  .dict [("schema", .int 1), ("advisories", .list
    [.dict [("id", .str "A-1"), ("summary", .str "A leak"), ("affected", .str "< 2"),
      ("severity", .str "high")],
    .dict [("id", .str "A-2"), ("summary", .str "A leak"), ("affected", .str "< 2"),
      ("severity", .list [.str "high"])]])]

/-- The second advisory keeps the first from being stored. -/
theorem listed_severity_raises : ¬∃ result stored,
    fetchFeed plain 350 (fun _ ↦ none)
      (some ⟨200, listedSeverity.decode (fun _ ↦ true) [], none⟩) = .ok (result, stored) ∧
        Kept plain 350 (fun _ ↦ none) stored listedSeverity.seen := by
  rintro ⟨result, stored, hfetch, -⟩
  have hfails : (fetchFeed plain 350 (fun _ ↦ none)
      (some ⟨200, listedSeverity.decode (fun _ ↦ true) [], none⟩)).toOption.isNone = true := by
    decide +kernel
  rw [hfetch] at hfails
  cases hfails

end OpenWhistle.Updates
