import Mathlib.Algebra.Order.Field.Basic
import Mathlib.Algebra.Order.Field.Rat
import Rankuno.Performance.UrlIdentity
import Rankuno.UrlFilter.Spellings

/-!
# Search Console rows on the pages of a crawl

`gsc_aggregator.py`: each row is given to a page, by its URL, by the folded URL, by a folded
URL that begins with its own, and the rows of a page are added up. Positions and rates are
rational numbers.
-/

namespace Rankuno.GscEnrichment

open Python Python.Text Python.Urllib UrlKeys UrlFilters Performance

/-- `GscPageMetrics`. -/
structure GscPageMetrics where
  url : Text
  impressions : Nat
  clicks : Nat
  avgPosition : ℚ
  position_ge : 1 ≤ avgPosition

structure GscPropertyValidationResult where
  isValid : Bool
  matchType : Text := []
  reason : Text
  deriving DecidableEq

structure GscSignals where
  clicks : Nat
  impressions : Nat
  avgPosition : ℚ
  ctr : ℚ

structure EnrichedPageWithMetrics where
  page : FullPageIntelligenceProfile
  gscSignals : Option GscSignals
  matchType : Text
  matchedGscUrls : List Text

structure AggregationResult where
  matchedPages : List EnrichedPageWithMetrics
  unmatchedGscUrls : List Text
  unmatchedCrawlPages : List FullPageIntelligenceProfile
  validationError : Option Text := none

section Urlparse

/-- `uses_params`. -/
def usesParams : List Text :=
  ["", "ftp", "hdl", "prospero", "http", "imap", "https", "shttp", "rtsp", "rtsps", "rtspu",
    "sip", "sips", "mms", "sftp", "tel"].map String.toList

variable (unicode : UnicodeData)

/-- `urlparse`, but for the parameters that it takes off the path. -/
def urlparse (url : Text) : Except Text SplitResult :=
  (urlsplit unicode url).map fun parts =>
    if usesParams.any fun scheme => scheme = parts.scheme then
      { parts with path := withoutParams parts.path }
    else parts

def slashed (path : Text) : Text := if path.getLast? = some '/' then path else path ++ ['/']

end Urlparse

section Validator

variable (unicode : UnicodeData)

/-- `_DOMAIN_PREFIX`. -/
def domainPrefix : Text := "sc-domain:".toList

/-- `_normalize_netloc`. -/
def normalizeNetloc (netloc : Text) : Text := (partition ':' netloc).1

/-- `_normalize_path`. -/
def normalizePath (path : Text) : Text := slashed (orRoot path)

/-- `_is_subdomain`. -/
def isSubdomain (subdomain domain : Text) : Bool :=
  subdomain ≠ domain && ('.' :: domain).isSuffixOf subdomain

def missingDomain : GscPropertyValidationResult where
  isValid := false
  reason := "Property or crawl URL missing domain".toList

/-- `_validate_domain_property`. -/
def validateDomainProperty (propertyUrl crawlBaseUrl : Text) :
    Except Text GscPropertyValidationResult := do
  let domain := unicode.lower
    (rstrip (fun c => c = '/') (strip isSpace (propertyUrl.drop domainPrefix.length)))
  let crawl ← urlparse unicode (unicode.lower crawlBaseUrl)
  let crawlHost := normalizeNetloc crawl.netloc
  if domain.isEmpty || crawlHost.isEmpty then return missingDomain
  if crawlHost = domain || isSubdomain crawlHost domain then
    return {
      isValid := true
      matchType := "domain".toList
      reason := "Domain match: ".toList ++ crawlHost ++ " is covered by ".toList ++
        domainPrefix ++ domain }
  return {
    isValid := false
    reason := "No match: ".toList ++ domainPrefix ++ domain ++ " does not cover crawl ".toList ++
      crawlHost }

/-- `urlparse` with the `ValueError` that `validate` makes of any error. -/
def parsed (url : Text) : Except Text SplitResult :=
  (urlparse unicode url).mapError fun message => "Invalid URL provided: ".toList ++ message

/-- `validate`. -/
def validate (propertyUrl crawlBaseUrl : Text) : Except Text GscPropertyValidationResult := do
  if domainPrefix.isPrefixOf (unicode.lower propertyUrl) then
    return ← validateDomainProperty unicode propertyUrl crawlBaseUrl
  let prop ← parsed unicode (unicode.lower propertyUrl)
  let crawl ← parsed unicode (unicode.lower crawlBaseUrl)
  let propNetloc := normalizeNetloc prop.netloc
  let crawlNetloc := normalizeNetloc crawl.netloc
  let propPath := normalizePath prop.path
  let crawlPath := normalizePath crawl.path
  if propNetloc.isEmpty || crawlNetloc.isEmpty then return missingDomain
  if !prop.scheme.isEmpty && !crawl.scheme.isEmpty && prop.scheme ≠ crawl.scheme then
    return {
      isValid := false
      reason := "Scheme mismatch: ".toList ++ prop.scheme ++ " vs ".toList ++ crawl.scheme }
  if propNetloc = crawlNetloc && propPath = crawlPath then
    return {
      isValid := true
      matchType := "exact".toList
      reason := "Exact match: ".toList ++ propertyUrl ++ " ↔ ".toList ++ crawlBaseUrl }
  if isSubdomain crawlNetloc propNetloc && propPath = ['/'] then
    return {
      isValid := true
      matchType := "subdomain".toList
      reason := "Subdomain match: ".toList ++ crawlNetloc ++ " is a subdomain of ".toList ++
        propNetloc }
  if propNetloc = crawlNetloc && propPath.isPrefixOf crawlPath then
    return {
      isValid := true
      matchType := "prefix".toList
      reason := "Prefix match: crawl path ".toList ++ crawlPath ++
        " extends property path ".toList ++ propPath }
  return {
    isValid := false
    reason := "No match: property ".toList ++ propNetloc ++ propPath ++
      " does not cover crawl ".toList ++ crawlNetloc ++ crawlPath }

end Validator

section Code

/-- `m.avg_position * m.impressions`. -/
def GscPageMetrics.weight (m : GscPageMetrics) : ℚ := m.avgPosition * (m.impressions : ℚ)

/-- `GscSignals.aggregate`. -/
def GscSignals.aggregate (metrics : List GscPageMetrics) : GscSignals :=
  if metrics.isEmpty then { clicks := 0, impressions := 0, avgPosition := 1, ctr := 0 }
  else
    let totalClicks := (metrics.map GscPageMetrics.clicks).sum
    let totalImpressions := (metrics.map GscPageMetrics.impressions).sum
    { clicks := totalClicks
      impressions := totalImpressions
      avgPosition :=
        if 0 < totalImpressions then
          (metrics.map GscPageMetrics.weight).sum / totalImpressions
        else 1
      ctr := if 0 < totalImpressions then (totalClicks : ℚ) / totalImpressions else 0 }

variable (unicode : UnicodeData)

/-- `_normalize_url`. -/
def normalizeUrl (url : Text) : Text :=
  match urlparse unicode (unicode.lower url) with
  | .error _ => url
  | .ok parts =>
    parts.scheme ++ ':' :: '/' :: '/' :: (parts.netloc ++ slashed (orRoot parts.path))

/-- `page_by_url`. -/
def pageByUrl (pages : List FullPageIntelligenceProfile) : Dict Text FullPageIntelligenceProfile :=
  pages.foldl (fun found page => found.alter page.url page fun _ => page) Table.empty

/-- `_find_matching_page`. -/
def findMatchingPage (pages : Dict Text FullPageIntelligenceProfile) (gscUrl : Text) :
    Option FullPageIntelligenceProfile :=
  match pages.get gscUrl with
  | some page => some page
  | none =>
    let normalizedGsc := normalizeUrl unicode gscUrl
    match pages.rows.find? fun entry => normalizeUrl unicode entry.1 = normalizedGsc with
    | some entry => some entry.2
    | none =>
      (pages.rows.find? fun entry =>
        normalizedGsc.isPrefixOf (normalizeUrl unicode entry.1)).map Prod.snd

/-- The rows by the URL of their page, and the URLs of the rows without one. -/
structure Matching where
  matchedPages : Dict Text (List GscPageMetrics) := Table.empty
  unmatchedGscUrls : List Text := []

/-- One row is given to its page. -/
def Matching.add (pages : Dict Text FullPageIntelligenceProfile) (matching : Matching)
    (metric : GscPageMetrics) : Matching :=
  match findMatchingPage unicode pages metric.url with
  | some page =>
    { matching with
      matchedPages := matching.matchedPages.alter page.url [] fun held => held ++ [metric] }
  | none => { matching with unmatchedGscUrls := matching.unmatchedGscUrls ++ [metric.url] }

/-- The page with what was given to it. -/
def enrich (matchedPages : Dict Text (List GscPageMetrics)) (page : FullPageIntelligenceProfile) :
    EnrichedPageWithMetrics :=
  match matchedPages.get page.url with
  | some metrics =>
    { page
      gscSignals := some (GscSignals.aggregate metrics)
      matchType := "exact".toList
      matchedGscUrls := metrics.map GscPageMetrics.url }
  | none => { page, gscSignals := none, matchType := [], matchedGscUrls := [] }

/-- `aggregate`. -/
def aggregate (gscPropertyUrl crawlBaseUrl : Text) (rows : List GscPageMetrics)
    (crawledPages : List FullPageIntelligenceProfile) : Except Text AggregationResult := do
  let validation ← validate unicode gscPropertyUrl crawlBaseUrl
  if !validation.isValid then
    return {
      matchedPages := []
      unmatchedGscUrls := rows.map GscPageMetrics.url
      unmatchedCrawlPages := crawledPages
      validationError := some validation.reason }
  let matching := rows.foldl (Matching.add unicode (pageByUrl crawledPages)) {}
  return {
    matchedPages := crawledPages.map (enrich matching.matchedPages)
    unmatchedGscUrls := matching.unmatchedGscUrls
    unmatchedCrawlPages :=
      crawledPages.filter fun page => (matching.matchedPages.get page.url).isNone }

end Code

section Meaning

variable (unicode : UnicodeData)

/-- The scheme and the host that a URL names, in lower case; none where it cannot be read. -/
def siteOf (url : Text) : Option (Text × Option Text) :=
  match urlsplit unicode (unicode.lower url) with
  | .error _ => none
  | .ok parts => some (parts.scheme, parts.hostname unicode)

def rowsOf (rows : List GscPageMetrics) (page : EnrichedPageWithMetrics) : List GscPageMetrics :=
  rows.filter fun row => row.url ∈ page.matchedGscUrls

/-- Enrichment loses no traffic, and gives each row to one page of its site. -/
structure Conserves (rows : List GscPageMetrics) (result : AggregationResult) : Prop where
  clicks :
    (result.matchedPages.map fun page => (page.gscSignals.map GscSignals.clicks).getD 0).sum +
      ((rows.filter fun row => row.url ∈ result.unmatchedGscUrls).map GscPageMetrics.clicks).sum =
        (rows.map GscPageMetrics.clicks).sum
  impressions :
    (result.matchedPages.map fun page => (page.gscSignals.map GscSignals.impressions).getD 0).sum +
      ((rows.filter fun row => row.url ∈ result.unmatchedGscUrls).map
        GscPageMetrics.impressions).sum = (rows.map GscPageMetrics.impressions).sum
  once : ∀ row ∈ rows, row.url ∉ result.unmatchedGscUrls ∧
        (∃! page, page ∈ result.matchedPages ∧ row.url ∈ page.matchedGscUrls) ∨
      row.url ∈ result.unmatchedGscUrls ∧ ∀ page ∈ result.matchedPages,
        row.url ∉ page.matchedGscUrls
  site : ∀ page ∈ result.matchedPages, ∀ url ∈ page.matchedGscUrls,
    siteOf unicode url = siteOf unicode page.page.url
  position : ∀ page ∈ result.matchedPages, ∀ signals, page.gscSignals = some signals →
    0 < ((rowsOf rows page).map GscPageMetrics.impressions).sum →
      signals.avgPosition = ((rowsOf rows page).map GscPageMetrics.weight).sum /
        ((rowsOf rows page).map GscPageMetrics.impressions).sum

/-- The page that a row without a page of its own URL is folded onto. -/
def FoldsOnto (pages : List FullPageIntelligenceProfile) (url : Text)
    (page : FullPageIntelligenceProfile) : Prop :=
  let folded := normalizeUrl unicode url
  pages.find? (fun page => normalizeUrl unicode page.url = folded) = some page ∨
    pages.find? (fun page => normalizeUrl unicode page.url = folded) = none ∧
      pages.find? (fun page => folded.isPrefixOf (normalizeUrl unicode page.url)) = some page

/-- Whether a URL names a host, none where it cannot be read. -/
def namesHost (url : Text) : Option Bool := (siteOf unicode url).map fun site => site.2.isSome

/-- A row that is folded onto a page names a host as the page does. -/
def HostsAlike (pages : List FullPageIntelligenceProfile) (rows : List GscPageMetrics) : Prop :=
  ∀ row ∈ rows, row.url ∉ pages.map FullPageIntelligenceProfile.url →
    ∀ page, FoldsOnto unicode pages row.url page →
      namesHost unicode row.url = namesHost unicode page.url

end Meaning

section Folding

variable {unicode : UnicodeData} {url url' path s : Text} {raw raw' : SplitResult}

theorem withoutParams_rooted (rooted : path = [] ∨ path.head? = some '/') :
    withoutParams path = [] ∨ (withoutParams path).head? = some '/' := by
  obtain rfl | rooted := rooted
  · exact Or.inl rfl
  · right
    rw [withoutParams]
    split
    · next last cut =>
      cases path with
      | nil => cases rooted
      | cons c path =>
        cases rooted
        exact absurd List.mem_cons_self (notMem_of_rpartition_fst (congrArg Prod.fst cut))
    · next before last cut =>
      rw [eq_of_rpartition cut] at rooted
      cases before with
      | nil => rfl
      | cons c before => exact rooted

theorem slashed_rooted (rooted : path = [] ∨ path.head? = some '/') :
    (slashed (orRoot path)).head? = some '/' := by
  have head : (orRoot path).head? = some '/' := by
    rw [orRoot]
    split
    · rfl
    · next filled => exact rooted.resolve_left filled
  rw [slashed]
  split
  · exact head
  · rw [List.head?_append, head, Option.some_or]

theorem exists_normalizeUrl (read : urlsplit unicode (unicode.lower url) = .ok raw) : ∃ path,
    normalizeUrl unicode url = raw.scheme ++ ':' :: '/' :: '/' :: (raw.netloc ++ path) ∧
      (raw.netloc ≠ [] → path.head? = some '/') := by
  have rooted := (splitsFrom_of_urlsplit read).rooted
  rw [normalizeUrl, urlparse, read, Except.map]
  dsimp only
  split
  · exact ⟨_, rfl, fun located => slashed_rooted (withoutParams_rooted (rooted located))⟩
  · exact ⟨_, rfl, fun located => slashed_rooted (rooted located)⟩

theorem colon_notMem_scheme (read : urlsplit unicode s = .ok raw) : ':' ∉ raw.scheme := by
  rw [(parts_of_urlsplit read).1]
  obtain empty | scheme := isScheme_of_splitScheme (UrlKeys.cleaned s)
  · rw [empty]
    exact List.not_mem_nil
  · exact scheme.colon

theorem slash_notMem_netloc (read : urlsplit unicode s = .ok raw) : '/' ∉ raw.netloc := fun mem =>
  absurd ((splitsFrom_of_urlsplit read).netloc '/' mem).2.2 (by decide)

theorem eq_of_isPrefix {sep : Char} {a b x y : Text} (apart : sep ∉ a) (apart' : sep ∉ b)
    (begins : a ++ sep :: x <+: b ++ sep :: y) : a = b ∧ x <+: y := by
  obtain ⟨more, whole⟩ := begins
  have parts := congrArg (partition sep) whole
  rw [List.append_assoc, List.cons_append, partition_append_cons apart,
    partition_append_cons apart', Prod.mk.injEq, Option.some.injEq] at parts
  exact ⟨parts.1, more, parts.2⟩

theorem hostname_congr (same : raw.netloc = raw'.netloc) :
    raw.hostname unicode = raw'.hostname unicode := by
  rw [SplitResult.hostname, SplitResult.hostname, SplitResult.hostinfo, SplitResult.hostinfo, same]

theorem hostname_of_netloc_nil (empty : raw.netloc = []) : raw.hostname unicode = none := by
  rw [SplitResult.hostname, SplitResult.hostinfo, empty]
  rfl

theorem siteOf_eq_iff (begins : normalizeUrl unicode url <+: normalizeUrl unicode url') :
    siteOf unicode url = siteOf unicode url' ↔ namesHost unicode url = namesHost unicode url' := by
  refine ⟨fun same => by rw [namesHost, namesHost, same], fun alike => ?_⟩
  rw [namesHost, namesHost, siteOf, siteOf] at alike
  rw [siteOf, siteOf]
  cases read : urlsplit unicode (unicode.lower url) with
  | error e =>
    rw [read] at alike
    cases read' : urlsplit unicode (unicode.lower url') with
    | error e' => rfl
    | ok raw' =>
      rw [read'] at alike
      cases alike
  | ok raw =>
    rw [read] at alike
    cases read' : urlsplit unicode (unicode.lower url') with
    | error e' =>
      rw [read'] at alike
      cases alike
    | ok raw' =>
      rw [read'] at alike
      obtain ⟨path, folded, rooted⟩ := exists_normalizeUrl read
      obtain ⟨path', folded', rooted'⟩ := exists_normalizeUrl read'
      rw [folded, folded'] at begins
      obtain ⟨scheme, begins⟩ := eq_of_isPrefix (colon_notMem_scheme read)
        (colon_notMem_scheme read') begins
      rw [List.cons_prefix_cons, List.cons_prefix_cons] at begins
      have alike : (raw.hostname unicode).isSome = (raw'.hostname unicode).isSome :=
        Option.some.inj alike
      have hosts : raw.hostname unicode = raw'.hostname unicode := by
        by_cases located : raw.netloc = []
        · rw [hostname_of_netloc_nil located] at alike ⊢
          exact (Option.isNone_iff_eq_none.mp (Option.isSome_eq_false_iff.mp alike.symm)).symm
        by_cases located' : raw'.netloc = []
        · rw [hostname_of_netloc_nil located'] at alike ⊢
          exact Option.isNone_iff_eq_none.mp (Option.isSome_eq_false_iff.mp alike)
        obtain ⟨tail, rfl⟩ := List.head?_eq_some_iff.mp (rooted located)
        obtain ⟨tail', rfl⟩ := List.head?_eq_some_iff.mp (rooted' located')
        exact hostname_congr (eq_of_isPrefix (slash_notMem_netloc read)
          (slash_notMem_netloc read') begins.2.2).1
      dsimp only
      rw [scheme, hosts]

end Folding

section Matching

variable {unicode : UnicodeData} {pages : List FullPageIntelligenceProfile} {url : Text}
  {page : FullPageIntelligenceProfile}

theorem rows_pageByUrl (distinct : (pages.map FullPageIntelligenceProfile.url).Nodup) :
    (pageByUrl pages).rows = pages.map fun page => (page.url, page) := by
  induction pages using List.reverseRecOn with
  | nil => rfl
  | append_singleton pages page ih =>
    rw [List.map_append, List.nodup_append] at distinct
    obtain ⟨distinct, -, apart⟩ := distinct
    have fresh : (pageByUrl pages).get page.url = none := by
      refine Option.eq_none_iff_forall_ne_some.mpr fun held found => ?_
      rw [Dict.get_eq_some, ih distinct, List.mem_map] at found
      obtain ⟨other, mem, same⟩ := found
      exact apart other.url (List.mem_map_of_mem mem) page.url List.mem_cons_self
        (congrArg Prod.fst same)
    rw [pageByUrl, List.foldl_append, ← pageByUrl, List.foldl_cons, List.foldl_nil,
      Dict.rows_alter_of_eq_none fresh, ih distinct, List.map_append, List.map_singleton]

theorem findMatchingPage_eq_some (distinct : (pages.map FullPageIntelligenceProfile.url).Nodup) :
    findMatchingPage unicode (pageByUrl pages) url = some page ↔ (page ∈ pages ∧ page.url = url) ∨
        url ∉ pages.map FullPageIntelligenceProfile.url ∧ FoldsOnto unicode pages url page := by
  have rows := rows_pageByUrl distinct
  rw [findMatchingPage]
  split
  · next held found =>
    rw [Dict.get_eq_some, rows, List.mem_map] at found
    obtain ⟨own, mem, same⟩ := found
    cases same
    have known : held.url ∈ pages.map FullPageIntelligenceProfile.url := List.mem_map_of_mem mem
    constructor
    · intro same
      cases same
      exact Or.inl ⟨mem, rfl⟩
    · rintro (⟨other, same⟩ | ⟨unknown, -⟩)
      · exact congrArg some (List.inj_on_of_nodup_map distinct mem other same.symm)
      · exact absurd known unknown
  · next fresh =>
    have unknown : url ∉ pages.map FullPageIntelligenceProfile.url := by
      intro known
      obtain ⟨own, mem, rfl⟩ := List.mem_map.mp known
      have found : (pageByUrl pages).get own.url = some own := by
        rw [Dict.get_eq_some, rows]
        exact List.mem_map_of_mem mem
      rw [fresh] at found
      cases found
    have other : ¬(page ∈ pages ∧ page.url = url) := by
      rintro ⟨mem, rfl⟩
      exact unknown (List.mem_map_of_mem mem)
    rw [or_iff_right other, and_iff_right unknown, FoldsOnto, rows]
    simp only [Function.comp_def, List.find?_map]
    cases same : pages.find? fun page =>
        normalizeUrl unicode page.url = normalizeUrl unicode url with
    | some held => simp
    | none => simp [Option.map_map, Function.comp_def]

theorem mem_of_findMatchingPage (distinct : (pages.map FullPageIntelligenceProfile.url).Nodup)
    (found : findMatchingPage unicode (pageByUrl pages) url = some page) : page ∈ pages := by
  obtain ⟨mem, -⟩ | ⟨-, same | ⟨-, begins⟩⟩ := (findMatchingPage_eq_some distinct).mp found
  · exact mem
  · exact List.mem_of_find?_eq_some same
  · exact List.mem_of_find?_eq_some begins

end Matching

section Rows

variable (unicode : UnicodeData) (pages : List FullPageIntelligenceProfile)
  (rows : List GscPageMetrics)

/-- The URL of the page that a row is given to. -/
def ownerOf (url : Text) : Option Text :=
  (findMatchingPage unicode (pageByUrl pages) url).map FullPageIntelligenceProfile.url

def given (page : Text) : List GscPageMetrics :=
  rows.filter fun row => ownerOf unicode pages row.url = some page

/-- What the loop over the rows leaves. -/
def matchingOf : Matching := rows.foldl (Matching.add unicode (pageByUrl pages)) {}

/-- The result where the property validates. -/
def enrichment : AggregationResult where
  matchedPages := pages.map (enrich (matchingOf unicode pages rows).matchedPages)
  unmatchedGscUrls := (matchingOf unicode pages rows).unmatchedGscUrls
  unmatchedCrawlPages := pages.filter fun page =>
    ((matchingOf unicode pages rows).matchedPages.get page.url).isNone

variable {unicode pages rows}

theorem matchingOf_concat (row : GscPageMetrics) : matchingOf unicode pages (rows ++ [row]) =
    (matchingOf unicode pages rows).add unicode (pageByUrl pages) row := by
  rw [matchingOf, List.foldl_append, List.foldl_cons, List.foldl_nil, ← matchingOf]

theorem given_concat (row : GscPageMetrics) (page : Text) :
    given unicode pages (rows ++ [row]) page = given unicode pages rows page ++
      if ownerOf unicode pages row.url = some page then [row] else [] := by
  rw [given, List.filter_append, ← given, List.filter_singleton]
  simp only [Bool.cond_decide]

theorem get_matchedPages (page : Text) : (matchingOf unicode pages rows).matchedPages.get page =
    if (given unicode pages rows page).isEmpty then none
    else some (given unicode pages rows page) := by
  induction rows using List.reverseRecOn with
  | nil => rfl
  | append_singleton rows row ih =>
    rw [matchingOf_concat, given_concat, Matching.add]
    cases found : findMatchingPage unicode (pageByUrl pages) row.url with
    | none =>
      have nobody : ownerOf unicode pages row.url = none := by
        rw [ownerOf, found, Option.map_none]
      simpa [nobody] using ih
    | some own =>
      have owner : ownerOf unicode pages row.url = some own.url := by
        rw [ownerOf, found, Option.map_some]
      dsimp only
      rw [Dict.get_alter, owner]
      by_cases same : page = own.url
      · subst same
        have filled : ¬(given unicode pages rows own.url ++ [row]).isEmpty := by simp
        rw [if_pos rfl, if_pos rfl, ih, if_neg filled]
        split
        · next empty => rw [List.isEmpty_iff.mp empty, Option.getD_none]
        · rw [Option.getD_some]
      · rw [if_neg same, if_neg (fun equal => same (Option.some.inj equal).symm), ih,
          List.append_nil]

theorem unmatchedGscUrls_eq : (matchingOf unicode pages rows).unmatchedGscUrls =
    (rows.filter fun row => ownerOf unicode pages row.url = none).map GscPageMetrics.url := by
  induction rows using List.reverseRecOn with
  | nil => rfl
  | append_singleton rows row ih =>
    rw [matchingOf_concat, List.filter_append, List.map_append, ← ih, Matching.add]
    cases found : findMatchingPage unicode (pageByUrl pages) row.url with
    | none =>
      have nobody : ownerOf unicode pages row.url = none := by
        rw [ownerOf, found, Option.map_none]
      simp [nobody]
    | some own =>
      have owner : ownerOf unicode pages row.url = some own.url := by
        rw [ownerOf, found, Option.map_some]
      simp [owner]

theorem enrich_matchingOf (page : FullPageIntelligenceProfile) :
    enrich (matchingOf unicode pages rows).matchedPages page = {
      page
      gscSignals :=
        if (given unicode pages rows page.url).isEmpty then none
        else some (GscSignals.aggregate (given unicode pages rows page.url))
      matchType := if (given unicode pages rows page.url).isEmpty then [] else "exact".toList
      matchedGscUrls := (given unicode pages rows page.url).map GscPageMetrics.url } := by
  rw [enrich, get_matchedPages]
  by_cases empty : (given unicode pages rows page.url).isEmpty
  · simp only [if_pos empty]
    rw [List.isEmpty_iff.mp empty, List.map_nil]
  · simp only [if_neg empty]

theorem mem_unmatchedGscUrls {row : GscPageMetrics} (mem : row ∈ rows) :
    row.url ∈ (enrichment unicode pages rows).unmatchedGscUrls ↔
      ownerOf unicode pages row.url = none := by
  rw [enrichment, unmatchedGscUrls_eq, List.mem_map]
  constructor
  · rintro ⟨other, found, same⟩
    rw [← same]
    exact of_decide_eq_true (List.mem_filter.mp found).2
  · exact fun nobody => ⟨row, List.mem_filter.mpr ⟨mem, decide_eq_true nobody⟩, rfl⟩

theorem mem_matchedGscUrls {row : GscPageMetrics} (mem : row ∈ rows)
    (page : FullPageIntelligenceProfile) :
    row.url ∈ (enrich (matchingOf unicode pages rows).matchedPages page).matchedGscUrls ↔
      ownerOf unicode pages row.url = some page.url := by
  rw [enrich_matchingOf, List.mem_map]
  constructor
  · rintro ⟨other, found, same⟩
    rw [← same]
    exact of_decide_eq_true (List.mem_filter.mp found).2
  · exact fun owner => ⟨row, List.mem_filter.mpr ⟨mem, decide_eq_true owner⟩, rfl⟩

theorem rowsOf_enrich (page : FullPageIntelligenceProfile) :
    rowsOf rows (enrich (matchingOf unicode pages rows).matchedPages page) =
      given unicode pages rows page.url :=
  List.filter_congr fun _ mem => decide_eq_decide.mpr (mem_matchedGscUrls mem page)

theorem aggregate_eq {gscPropertyUrl crawlBaseUrl : Text} {validation : GscPropertyValidationResult}
    (validates : validate unicode gscPropertyUrl crawlBaseUrl = .ok validation)
    (valid : validation.isValid = true) :
    aggregate unicode gscPropertyUrl crawlBaseUrl rows pages =
      .ok (enrichment unicode pages rows) := by
  rw [aggregate, validates]
  simp only [bind, Except.bind, valid, Bool.not_true, Bool.false_eq_true, if_false]
  rfl

end Rows

section Traffic

variable {unicode : UnicodeData} {pages : List FullPageIntelligenceProfile}
  {rows : List GscPageMetrics}

theorem exists_page (distinct : (pages.map FullPageIntelligenceProfile.url).Nodup) {url own : Text}
    (owner : ownerOf unicode pages url = some own) :
    ∃ page ∈ pages, page.url = own ∧
      findMatchingPage unicode (pageByUrl pages) url = some page := by
  obtain ⟨page, found, same⟩ := Option.map_eq_some_iff.mp owner
  exact ⟨page, mem_of_findMatchingPage distinct found, same, found⟩

theorem sum_given (distinct : (pages.map FullPageIntelligenceProfile.url).Nodup)
    (value : GscPageMetrics → Nat) :
    (pages.map fun page => ((given unicode pages rows page.url).map value).sum).sum +
      ((rows.filter fun row =>
        row.url ∈ (enrichment unicode pages rows).unmatchedGscUrls).map value).sum =
          (rows.map value).sum := by
  have keys : (pages.map fun page => some page.url).Nodup := by
    have lifted := distinct.map (Option.some_injective Text)
    rwa [List.map_map] at lifted
  have grouped := GroupedSums.sum_by_key keys (fun row => ownerOf unicode pages row.url) value rows
  have owned : ∀ row : GscPageMetrics,
      (∃ k ∈ pages.map fun page => some page.url, ownerOf unicode pages row.url = k) ↔
        ownerOf unicode pages row.url ≠ none := by
    refine fun row => ⟨?_, fun owned => ?_⟩
    · rintro ⟨k, mem, owner⟩
      obtain ⟨page, -, rfl⟩ := List.mem_map.mp mem
      rw [owner]
      exact Option.some_ne_none _
    · obtain ⟨own, owner⟩ := Option.ne_none_iff_exists'.mp owned
      obtain ⟨page, mem, rfl, -⟩ := exists_page distinct owner
      exact ⟨_, List.mem_map_of_mem mem, owner⟩
  have others : (rows.filter fun row =>
      row.url ∈ (enrichment unicode pages rows).unmatchedGscUrls) =
        rows.filter fun row => ownerOf unicode pages row.url = none :=
    List.filter_congr fun row mem => decide_eq_decide.mpr (mem_unmatchedGscUrls mem)
  simp only [List.map_map, Function.comp_def, owned] at grouped
  rw [others]
  refine (congrArg (· + _) grouped).trans ?_
  rw [GroupedSums.sum_map_filter, GroupedSums.sum_map_filter, ← List.sum_map_add]
  refine congrArg List.sum (List.map_congr_left fun row _ => ?_)
  by_cases nobody : ownerOf unicode pages row.url = none
  · simp [nobody]
  · simp [nobody]

theorem clicks_aggregate (metrics : List GscPageMetrics) :
    (GscSignals.aggregate metrics).clicks = (metrics.map GscPageMetrics.clicks).sum := by
  cases metrics with
  | nil => rfl
  | cons m metrics => rfl

theorem impressions_aggregate (metrics : List GscPageMetrics) :
    (GscSignals.aggregate metrics).impressions = (metrics.map GscPageMetrics.impressions).sum := by
  cases metrics with
  | nil => rfl
  | cons m metrics => rfl

theorem sum_signals {value : GscPageMetrics → Nat} {total : GscSignals → Nat}
    (adds : ∀ metrics, total (GscSignals.aggregate metrics) = (metrics.map value).sum) :
    ((enrichment unicode pages rows).matchedPages.map fun page =>
        (page.gscSignals.map total).getD 0).sum =
      (pages.map fun page => ((given unicode pages rows page.url).map value).sum).sum := by
  rw [enrichment, List.map_map]
  refine congrArg List.sum (List.map_congr_left fun page _ => ?_)
  rw [Function.comp_apply, enrich_matchingOf]
  dsimp only
  split
  · next empty => rw [List.isEmpty_iff.mp empty, Option.map_none, Option.getD_none, List.map_nil,
      List.sum_nil]
  · rw [Option.map_some, Option.getD_some, adds]

theorem given_once (distinct : (pages.map FullPageIntelligenceProfile.url).Nodup)
    {row : GscPageMetrics} (mem : row ∈ rows) :
    row.url ∉ (enrichment unicode pages rows).unmatchedGscUrls ∧
        (∃! page, page ∈ (enrichment unicode pages rows).matchedPages ∧
          row.url ∈ page.matchedGscUrls) ∨
      row.url ∈ (enrichment unicode pages rows).unmatchedGscUrls ∧
        ∀ page ∈ (enrichment unicode pages rows).matchedPages, row.url ∉ page.matchedGscUrls := by
  cases owner : ownerOf unicode pages row.url with
  | none =>
    refine Or.inr ⟨(mem_unmatchedGscUrls mem).mpr owner, fun enriched found held => ?_⟩
    obtain ⟨page, -, rfl⟩ := List.mem_map.mp found
    rw [mem_matchedGscUrls mem, owner] at held
    cases held
  | some own =>
    obtain ⟨page, listed, rfl, -⟩ := exists_page distinct owner
    refine Or.inl ⟨fun unmatched => ?_, enrich (matchingOf unicode pages rows).matchedPages page,
      ⟨List.mem_map_of_mem listed, (mem_matchedGscUrls mem page).mpr owner⟩, ?_⟩
    · rw [mem_unmatchedGscUrls mem, owner] at unmatched
      cases unmatched
    · rintro enriched ⟨found, held⟩
      obtain ⟨other, known, rfl⟩ := List.mem_map.mp found
      rw [mem_matchedGscUrls mem, owner, Option.some.injEq] at held
      rw [List.inj_on_of_nodup_map distinct known listed held.symm]

theorem FoldsOnto.begins {url : Text} {page : FullPageIntelligenceProfile}
    (folds : FoldsOnto unicode pages url page) :
    normalizeUrl unicode url <+: normalizeUrl unicode page.url := by
  obtain same | ⟨-, begins⟩ := folds
  · have equal := List.find?_some same
    rw [decide_eq_true_eq] at equal
    rw [equal]
  · have first := List.find?_some begins
    exact List.isPrefixOf_iff_prefix.mp first

theorem sites_iff (distinct : (pages.map FullPageIntelligenceProfile.url).Nodup) :
    (∀ page ∈ (enrichment unicode pages rows).matchedPages, ∀ url ∈ page.matchedGscUrls,
      siteOf unicode url = siteOf unicode page.page.url) ↔ HostsAlike unicode pages rows := by
  constructor
  · intro sites row mem unknown page folds
    have found := (findMatchingPage_eq_some distinct).mpr (Or.inr ⟨unknown, folds⟩)
    have owner : ownerOf unicode pages row.url = some page.url := congrArg _ found
    have listed : enrich (matchingOf unicode pages rows).matchedPages page ∈
        (enrichment unicode pages rows).matchedPages :=
      List.mem_map_of_mem (mem_of_findMatchingPage distinct found)
    have same := sites _ listed row.url ((mem_matchedGscUrls mem page).mpr owner)
    rw [enrich_matchingOf] at same
    exact (siteOf_eq_iff folds.begins).mp same
  · intro alike enriched listed url held
    obtain ⟨page, mem, rfl⟩ := List.mem_map.mp listed
    rw [enrich_matchingOf] at held ⊢
    obtain ⟨row, mem', rfl⟩ := List.mem_map.mp held
    obtain ⟨row_mem, owner⟩ := List.mem_filter.mp mem'
    obtain ⟨other, known, same, found⟩ := exists_page distinct (of_decide_eq_true owner)
    cases List.inj_on_of_nodup_map distinct known mem same
    obtain ⟨-, equal⟩ | ⟨unknown, folds⟩ := (findMatchingPage_eq_some distinct).mp found
    · rw [equal]
    · exact (siteOf_eq_iff folds.begins).mpr (alike row row_mem unknown _ folds)

theorem avgPosition_aggregate {metrics : List GscPageMetrics}
    (seen : 0 < (metrics.map GscPageMetrics.impressions).sum) :
    (GscSignals.aggregate metrics).avgPosition = (metrics.map GscPageMetrics.weight).sum /
      (metrics.map GscPageMetrics.impressions).sum := by
  cases metrics with
  | nil => exact absurd seen (Nat.lt_irrefl 0)
  | cons m metrics => exact if_pos seen

/-- With a property that validates, enrichment keeps all traffic on its site exactly where the
rows that are folded onto a page name a host as that page does. -/
theorem conserves_iff {gscPropertyUrl crawlBaseUrl : Text}
    {validation : GscPropertyValidationResult}
    (validates : validate unicode gscPropertyUrl crawlBaseUrl = .ok validation)
    (valid : validation.isValid = true)
    (distinct : (pages.map FullPageIntelligenceProfile.url).Nodup) :
    ∃ result, aggregate unicode gscPropertyUrl crawlBaseUrl rows pages = .ok result ∧
      (Conserves unicode rows result ↔ HostsAlike unicode pages rows) := by
  refine ⟨enrichment unicode pages rows, aggregate_eq validates valid,
    fun conserves => (sites_iff distinct).mp conserves.site, fun alike => ⟨?_, ?_, ?_, ?_, ?_⟩⟩
  · rw [sum_signals clicks_aggregate]
    exact sum_given distinct GscPageMetrics.clicks
  · rw [sum_signals impressions_aggregate]
    exact sum_given distinct GscPageMetrics.impressions
  · exact fun row mem => given_once distinct mem
  · exact (sites_iff distinct).mpr alike
  · intro enriched listed signals held seen
    obtain ⟨page, -, rfl⟩ := List.mem_map.mp listed
    rw [rowsOf_enrich] at seen ⊢
    rw [enrich_matchingOf] at held
    dsimp only at held
    split at held
    · cases held
    · cases held
      exact avgPosition_aggregate seen

def homepageUrl : Text := "http://a.io/".toList

def homepage : FullPageIntelligenceProfile where
  url := homepageUrl
  canonicalUrl := homepageUrl

def exactMatch : GscPropertyValidationResult where
  isValid := true
  matchType := "exact".toList
  reason := "Exact match: http://a.io/ ↔ http://a.io/".toList

theorem validate_homepage :
    validate UnicodeData.ascii homepageUrl homepageUrl = .ok exactMatch := by decide

theorem nodup_homepage : ([homepage].map FullPageIntelligenceProfile.url).Nodup :=
  List.nodup_singleton homepageUrl

/-- A row for a URL without a host. -/
def hostless : GscPageMetrics where
  url := "http:a.io".toList
  impressions := 3
  clicks := 1
  avgPosition := 1
  position_ge := le_refl 1

theorem conserves_homepage : ∃ result,
    aggregate UnicodeData.ascii homepageUrl homepageUrl [hostless] [homepage] = .ok result ∧
      (Conserves UnicodeData.ascii [hostless] result ↔
        HostsAlike UnicodeData.ascii [homepage] [hostless]) :=
  conserves_iff validate_homepage rfl nodup_homepage

/-- A URL without a host folds to that of a page with one. -/
theorem not_conserves_hostless : ∃ result,
    aggregate UnicodeData.ascii homepageUrl homepageUrl [hostless] [homepage] = .ok result ∧
      ¬Conserves UnicodeData.ascii [hostless] result := by
  refine ⟨_, aggregate_eq validate_homepage rfl, fun conserves => ?_⟩
  have alike := (sites_iff nodup_homepage).mp conserves.site hostless List.mem_cons_self
    (by decide) homepage (Or.inl (by decide))
  exact absurd alike (by decide)

end Traffic

end Rankuno.GscEnrichment
