import Rankuno.UrlFilter.Patterns
import Rankuno.UrlKeys.Normalize

/-!
# Filters and the spellings of a page

The graph knows a page by its normalized URL, a filter looks at the path as a link spelled it.
Two spellings of one page pass the same filters only if their paths are the same, since for
every path there is a pattern that matches it alone.
-/

namespace Rankuno.UrlFilters

open Python Python.Text Python.Urllib UrlKeys

/-- The path of `urlparse` without the parameters of its last segment: `_splitparams`. -/
def withoutParams (path : Text) : Text :=
  match rpartition '/' path with
  | (none, last) => (partition ';' last).1
  | (some before, last) => before ++ '/' :: (partition ';' last).1

/-- The path that a filter looks at, none where `urlparse` raises `ValueError`. -/
def filteredPath (unicode : UnicodeData) (url : Text) : Option Text :=
  (urlsplit unicode url).toOption.map fun parts => orRoot (withoutParams parts.path)

/-- `matches`, of a URL whose scheme has parameters. -/
def UrlFilter.matchesUrl (filter : UrlFilter) (regexes : Regexes) (unicode : UnicodeData)
    (url : Text) : Option Bool :=
  (filteredPath unicode url).map (filter.matchesPath regexes)

/-- The URL is one of the web. -/
def IsWebUrl (unicode : UnicodeData) (url : Text) : Prop :=
  ∃ parts, urlsplit unicode url = .ok parts ∧
    (parts.scheme = "http".toList ∨ parts.scheme = "https".toList)

/-- Two URLs of the web are one page of the graph. -/
structure SpellOnePage (unicode : UnicodeData) (url url' : Text) : Prop where
  web : IsWebUrl unicode url
  web' : IsWebUrl unicode url'
  key : normalizeUrl unicode url = normalizeUrl unicode url'

/-- Every filter answers alike on two URLs. -/
def FiltersAgree (regexes : Regexes) (unicode : UnicodeData) (url url' : Text) : Prop :=
  ∀ includePatterns excludePatterns filter,
    UrlFilter.create regexes includePatterns excludePatterns = some filter →
      filter.matchesUrl regexes unicode url = filter.matchesUrl regexes unicode url'

/-! ### Patterns for one text -/

/-- The characters that `re.escape` escapes. -/
def escaped : Text := "()[]\x7b\x7d?*+-|^$\\.&~# \t\n\r\x0b\x0c".toList

/-- `re.escape`. -/
def escape (text : Text) : Text :=
  text.flatMap fun c => if escaped.any fun other => other = c then ['\\', c] else [c]

def exactStart : Text := "^(?-i:".toList
def exactEnd : Text := ")\\Z".toList

/-- `"^(?-i:" + re.escape(text) + r")\Z"`. -/
def exactPattern (text : Text) : Text := exactStart ++ (escape text ++ exactEnd)

/-- An escaped text between anchors, without `IGNORECASE`, is found in that text alone. -/
def FindsExactly (regexes : Regexes) : Prop :=
  ∀ text, ∃ search, regexes.search (exactPattern text) = some search ∧
    ∀ path, search path = true ↔ path = text

section Spellings

variable {regexes : Regexes} {unicode : UnicodeData} {url url' text path : Text}

theorem create_exact {search : Text → Bool}
    (compiled : regexes.search (exactPattern text) = some search) :
    UrlFilter.create regexes [exactPattern text] [] =
      some ⟨[exactPattern text], [], [.regex search], []⟩ := by
  have regex : looksLikeRegex (exactPattern text) = true := by
    rw [looksLikeRegex, exactPattern]
    rfl
  rw [UrlFilter.create, List.mapM_cons, compilePattern, if_pos regex, compiled]
  rfl

theorem exists_exact (exact_ : FindsExactly regexes) (text : Text) :
    ∃ includePatterns filter, UrlFilter.create regexes includePatterns [] = some filter ∧
      ∀ path, filter.matchesPath regexes path = true ↔ path = text := by
  obtain ⟨search, compiled, found⟩ := exact_ text
  refine ⟨[exactPattern text], _, create_exact compiled, fun path => ?_⟩
  rw [← found, UrlFilter.matchesPath]
  cases answer : search path with
  | true => simp [matchSingle, answer]
  | false => simp [matchSingle, answer]

theorem exists_filteredPath (web : IsWebUrl unicode url) :
    ∃ path, filteredPath unicode url = some path := by
  obtain ⟨parts, split, -⟩ := web
  exact ⟨_, by rw [filteredPath, split]; rfl⟩

/-- Every filter answers alike on two spellings of a page exactly where they have one path. -/
theorem filtersAgree_iff_path (regexes : Regexes) (unicode : UnicodeData) (url url' : Text)
    (exact_ : FindsExactly regexes) (page : SpellOnePage unicode url url') :
    FiltersAgree regexes unicode url url' ↔
      filteredPath unicode url = filteredPath unicode url' := by
  constructor
  · intro agree
    obtain ⟨path, spelled⟩ := exists_filteredPath page.web
    obtain ⟨path', spelled'⟩ := exists_filteredPath page.web'
    obtain ⟨patterns, filter, created, alone⟩ := exists_exact exact_ path
    have answers := agree patterns [] filter created
    rw [UrlFilter.matchesUrl, UrlFilter.matchesUrl, spelled, spelled', Option.map_some,
      Option.map_some, Option.some.injEq, (alone path).mpr rfl] at answers
    rw [spelled, spelled', (alone path').mp answers.symm]
  · intro path patterns patterns' filter _
    rw [UrlFilter.matchesUrl, UrlFilter.matchesUrl, path]

/-! ### A concrete search -/

/-- The text that an escaped one stands for. -/
def unescape : Text → Text
  | [] => []
  | [c] => [c]
  | c :: d :: rest => if c = '\\' then d :: unescape rest else c :: unescape (d :: rest)

theorem unescape_cons {c : Char} {s : Text} (plain : c ≠ '\\') :
    unescape (c :: s) = c :: unescape s := by
  cases s with
  | nil => rfl
  | cons d s => rw [unescape, if_neg plain]

theorem unescape_escape (text : Text) : unescape (escape text) = text := by
  induction text with
  | nil => rfl
  | cons c text ih =>
    rw [escape, List.flatMap_cons, ← escape]
    cases special : escaped.any fun other => other = c with
    | true =>
      rw [if_pos rfl, List.cons_append, List.cons_append, List.nil_append, unescape, if_pos rfl, ih]
    | false =>
      have plain : c ≠ '\\' := by
        intro same
        rw [same] at special
        exact absurd special (by decide)
      rw [if_neg Bool.false_ne_true, List.singleton_append, unescape_cons plain, ih]

/-- The text that an exact pattern is for. -/
def exactText (pattern : Text) : Option Text :=
  if exactStart.isPrefixOf pattern ∧ exactEnd.isSuffixOf pattern then
    let body := pattern.drop exactStart.length
    some (unescape (body.take (body.length - exactEnd.length)))
  else none

theorem exactText_exactPattern (text : Text) : exactText (exactPattern text) = some text := by
  have begins : exactStart.isPrefixOf (exactPattern text) = true :=
    List.isPrefixOf_iff_prefix.mpr (List.prefix_append _ _)
  have ends : exactEnd.isSuffixOf (exactPattern text) = true :=
    List.isSuffixOf_iff_suffix.mpr ⟨exactStart ++ escape text, List.append_assoc _ _ _⟩
  rw [exactText, if_pos ⟨begins, ends⟩, exactPattern, List.drop_left]
  dsimp only
  rw [List.length_append, Nat.add_sub_cancel, List.take_left, unescape_escape]

/-- ASCII letters, the fragment of the wildcard patterns, and searches for one text. -/
def exactRegexes : Regexes where
  lower := List.map Char.toLower
  same c d := c.toLower = d.toLower
  other _ := none
  search pattern := (exactText pattern).map fun text path => path = text

theorem findsExactly_exactRegexes : FindsExactly exactRegexes := by
  intro text
  refine ⟨fun path => path = text, ?_, fun path => decide_eq_true_iff⟩
  exact congrArg (Option.map _) (exactText_exactPattern text)

def blogUrl : Text := "https://a.io/blog".toList
def blogSlashUrl : Text := "http://www.a.io//blog/".toList

theorem isWebUrl_blog : IsWebUrl .ascii blogUrl := ⟨_, rfl, Or.inr rfl⟩

theorem isWebUrl_blogSlash : IsWebUrl .ascii blogSlashUrl := ⟨_, rfl, Or.inl rfl⟩

theorem spellOnePage_blog : SpellOnePage .ascii blogUrl blogSlashUrl :=
  ⟨isWebUrl_blog, isWebUrl_blogSlash, by decide⟩

theorem filtersAgree_blog : FiltersAgree exactRegexes .ascii blogUrl blogSlashUrl ↔
    filteredPath .ascii blogUrl = filteredPath .ascii blogSlashUrl :=
  filtersAgree_iff_path exactRegexes .ascii blogUrl blogSlashUrl findsExactly_exactRegexes
    spellOnePage_blog

/-- One spelling of a page passes a filter that another one does not. -/
theorem spelling_changes_verdict : SpellOnePage .ascii blogUrl blogSlashUrl ∧
    ∃ filter, UrlFilter.create exactRegexes ["/blog".toList] [] = some filter ∧
      filter.matchesUrl exactRegexes .ascii blogUrl = some true ∧
        filter.matchesUrl exactRegexes .ascii blogSlashUrl = some false := by
  refine ⟨spellOnePage_blog, _, rfl, ?_, ?_⟩
  · decide
  · decide

end Spellings

end Rankuno.UrlFilters
