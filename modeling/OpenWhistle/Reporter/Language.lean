import OpenWhistle.Foundation.Percent
import OpenWhistle.Foundation.Text
import OpenWhistle.Foundation.Url

/-!
# Back to the page after a change of the language

The form for the language sends along where the reader was, and anybody can send anything there. The
answer is a redirect to it if it is a path on this host, and else to one of two pages. A browser
never leaves the host on it, whatever was sent; and from every page of the host the reader is back
on this page.
-/

set_option autoImplicit false
set_option relaxedAutoImplicit false

namespace OpenWhistle.Reporter.Language

def languages : List String := ["en", "de", "fr", "es", "pt-br"]

def safeLang (lang : String) : String := if lang ∈ languages then lang else "en"

/-- What the framework leaves as it is in the address of a redirect. -/
def redirectSafe : List Char := ":/%#?=@[]!$&'()*+,;".toList

structure Redirect where
  location : List Char
  cookie : String

def startsWith (text start : List Char) : Bool := start.isPrefixOf text

/-- `set_language`: `none` where the parser of the address raises. -/
def setLanguage (isNetloc : List Char → Bool) (lang : String) (nextUrl : List Char) :
    Option Redirect :=
  (Url.urlsplit isNetloc nextUrl).map fun parsed ↦
    let onThisHost := decide (parsed.scheme = []) && decide (parsed.netloc = []) &&
      startsWith parsed.path ['/'] && !startsWith parsed.path ['/', '/'] &&
      decide ('\\' ∉ nextUrl)
    let safeUrl :=
      if onThisHost then Url.join parsed.path parsed.query
      else if startsWith parsed.path "/admin/".toList then "/admin/dashboard".toList
      else "/submit".toList
    { location := Percent.quoteText redirectSafe safeUrl
      cookie := safeLang lang }

/-! ### On this host -/

theorem shown_quoteText {text : List Char} {c : Char}
    (hc : c ∈ Percent.quoteText redirectSafe text) : 0x20 < c.toNat := by
  obtain ⟨d, -, hc⟩ := List.mem_flatMap.mp hc
  split_ifs at hc with hsafe
  · rw [List.mem_singleton.mp hc]
    have hshown : ∀ e ∈ redirectSafe, 0x20 < e.toNat := Text.forall_of_all rfl
    exact hshown d hsafe
  · exact (Percent.shown_quote hc).1

/-- What an encoded character begins with is a slash only if the character is one. -/
theorem head_quoteText {d : Char} (hd : d ≠ '/') (text : List Char) :
    ∃ c rest, Percent.quoteText redirectSafe (d :: text) = c :: rest ∧ c ≠ '/' ∧ c ≠ '\\' := by
  rw [Percent.quoteText, List.flatMap_cons]
  split_ifs with hsafe
  · refine ⟨d, _, rfl, hd, ?_⟩
    rintro rfl
    revert hsafe
    decide
  · obtain ⟨c, rest, hquote⟩ := List.exists_cons_of_ne_nil
      (Percent.quote_ne_nil String.utf8EncodeChar_ne_nil)
    have hc : c ∈ Percent.quote (String.utf8EncodeChar d) := by
      rw [hquote]
      exact List.mem_cons_self
    have hslash := (Percent.shown_quote hc).2.2
    rw [hquote]
    refine ⟨c, _, rfl, ?_, ?_⟩
    · rintro rfl
      exact hslash (by decide)
    · rintro rfl
      exact hslash (by decide)

theorem staysOnHost_slash {text : List Char} (h : text.head? ≠ some '/') :
    Url.staysOnHost (Percent.quoteText redirectSafe ('/' :: text)) = true := by
  have hslash : Percent.quoteText redirectSafe ('/' :: text) =
      '/' :: Percent.quoteText redirectSafe text := by
    rw [Percent.quoteText, List.flatMap_cons, if_pos (by decide)]
    rfl
  rw [Url.staysOnHost, Url.cleaned_of_shown fun c hc ↦ shown_quoteText hc, hslash]
  cases text with
  | nil => rfl
  | cons d text =>
    have hd : d ≠ '/' := by
      rintro rfl
      exact h rfl
    obtain ⟨c, rest, hquote, hc⟩ := head_quoteText hd text
    rw [hquote]
    exact decide_eq_true hc

theorem exists_slash {path : List Char} (hslash : startsWith path ['/'] = true)
    (htwo : startsWith path ['/', '/'] = false) :
    ∃ rest, path = '/' :: rest ∧ rest.head? ≠ some '/' := by
  obtain ⟨rest, rfl⟩ := List.isPrefixOf_iff_prefix.mp hslash
  refine ⟨rest, rfl, fun hhead ↦ ?_⟩
  obtain ⟨back, rfl⟩ := List.head?_eq_some_iff.mp hhead
  have hstarts : startsWith (['/'] ++ '/' :: back) ['/', '/'] = true :=
    List.isPrefixOf_iff_prefix.mpr (List.prefix_append ['/', '/'] back)
  rw [hstarts] at htwo
  cases htwo

theorem head?_append_join {rest query : List Char} (h : rest.head? ≠ some '/') :
    (rest ++ if query = [] then [] else '?' :: query).head? ≠ some '/' := by
  cases rest with
  | nil =>
    split_ifs
    · exact fun heq ↦ by cases heq
    · exact fun heq ↦ absurd (Option.some.inj heq) (by decide)
  | cons c rest => exact h

/-- Whatever is sent along, the browser stays on the host; and whoever was on a page of the host is
back on it, if its address has no backslash. -/
theorem language_form_stays_on_host (isNetloc : List Char → Bool) (lang : String) :
    (∀ nextUrl redirect, setLanguage isNetloc lang nextUrl = some redirect →
      Url.staysOnHost redirect.location = true ∧ redirect.cookie ∈ languages) ∧
    ∀ path query, Url.IsPage path query → '\\' ∉ Url.join path query →
      setLanguage isNetloc lang (Url.join path query) =
        some ⟨Percent.quoteText redirectSafe (Url.join path query), safeLang lang⟩ := by
  refine ⟨fun nextUrl redirect h ↦ ?_, fun path query hpage hbackslash ↦ ?_⟩
  · obtain ⟨parsed, -, rfl⟩ := Option.map_eq_some_iff.mp h
    refine ⟨?_, ?_⟩
    · dsimp only
      split_ifs with hhost hadmin
      · simp only [Bool.and_eq_true, Bool.not_eq_true', decide_eq_true_eq] at hhost
        obtain ⟨rest, hpath, hrest⟩ := exists_slash hhost.1.1.2 hhost.1.2
        rw [Url.join, hpath, List.cons_append]
        exact staysOnHost_slash (head?_append_join hrest)
      · decide
      · decide
    · dsimp only [safeLang]
      split_ifs with hlang
      · exact hlang
      · decide
  · obtain ⟨rest, hpath, hrest⟩ := hpage.slash
    have hone : startsWith path ['/'] = true := by
      rw [hpath]
      rfl
    have htwo : startsWith path ['/', '/'] = false := by
      refine Bool.eq_false_of_not_eq_true fun hstarts ↦ ?_
      obtain ⟨back, hback⟩ := List.isPrefixOf_iff_prefix.mp hstarts
      rw [hpath, List.cons_append, List.cons_append, List.cons.injEq] at hback
      rw [← hback.2] at hrest
      exact hrest rfl
    rw [setLanguage, Url.urlsplit_page isNetloc hpage, Option.map_some]
    simp only [hone, htwo, hbackslash, decide_true, Bool.and_self, Bool.not_false,
      not_false_eq_true, if_true]

/-- An address of another host, and a page with a query. -/
theorem language_form_stays_on_host_of_two :
    (∃ redirect, setLanguage (fun _ ↦ true) "de" "//elsewhere/x".toList = some redirect ∧
      Url.staysOnHost redirect.location = true) ∧
    ∃ redirect, setLanguage (fun _ ↦ true) "fr" "/status?case=1".toList = some redirect ∧
      redirect.location = "/status?case=1".toList ∧ redirect.cookie = "fr" := by
  have hform := language_form_stays_on_host fun _ ↦ true
  have hpage : Url.IsPage "/status".toList "case=1".toList :=
    ⟨⟨"status".toList, rfl, by decide⟩, Text.forall_of_all rfl, Text.forall_of_all rfl⟩
  obtain ⟨redirect, hredirect⟩ : ∃ redirect,
      setLanguage (fun _ ↦ true) "de" "//elsewhere/x".toList = some redirect := ⟨_, rfl⟩
  refine ⟨⟨redirect, hredirect, ((hform "de").1 _ _ hredirect).1⟩, _,
    (hform "fr").2 _ _ hpage (by decide), ?_, rfl⟩
  decide +kernel

end OpenWhistle.Reporter.Language
