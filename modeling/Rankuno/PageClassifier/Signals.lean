import Rankuno.PageClassifier.StructuredData
import Rankuno.PageClassifier.Taxonomy
import Rankuno.UrlKeys.Locales

/-!
# The structural signals

`signal_parsers.py`: the evidence of a page and what the five parsers make of it, and the
URL rules that settle a page before any of them. An opinion becomes a signal when its note
fits; a parser raises where it does not.
-/

namespace Rankuno.PageClassifier

open Python Python.Text Python.Urllib UrlKeys
open Placement (PrimaryPageType)

/-! ### Layer 0 -/

/-- `MAX_CRAWL_DEPTH`. -/
def maxCrawlDepth : Nat := 15

/-- `MAX_QUERY_PARAMS`. -/
def maxQueryParams : Nat := 5

/-- `_LEGAL_SLUGS`. -/
def legalSlugs : List Text :=
  ["privacy-policy", "privacy", "terms", "terms-of-service", "terms-and-conditions",
    "terms-of-use", "cookie-policy", "cookies", "legal", "disclaimer", "accessibility", "gdpr",
    "imprint", "impressum", "sitemap", "404", "search"].map String.toList

/-- `_FILTER_PARAMS`. -/
def filterParams : List Text :=
  ["color", "colour", "size", "price", "brand", "sort", "sort_by", "orderby", "filter",
    "facet"].map String.toList

def meaningfulParams (unicode : UnicodeData) (query : Text) : List (Text × Text) :=
  (parseQsl query).filter fun pair => !isTrackingParam unicode pair.1

/-- `is_faceted_filter`. -/
def isFacetedFilter (unicode : UnicodeData) (url : Text) : Bool :=
  match safeSplit unicode url with
  | none => false
  | some parts =>
    if parts.query = [] then false
    else
      let meaningful := meaningfulParams unicode parts.query
      if maxQueryParams < meaningful.length then true
      else meaningful.any fun pair => unicode.lower pair.1 ∈ filterParams

/-- `url_fast_path`. -/
def urlFastPath (unicode : UnicodeData) (url : Text) : Option (HierarchyLevel × PrimaryPageType) :=
  match safeSplit unicode url with
  | none => none
  | some parts =>
    let path := (stripLocalePrefix unicode none (orRoot parts.path)).1
    let segments := (filledParts path).map unicode.lower
    if segments = [] then
      if meaningfulParams unicode parts.query = [] then some (.l0Homepage, .homepage)
      else some (.utilityPage, .facetedFilter)
    else if isFacetedFilter unicode url then some (.utilityPage, .facetedFilter)
    else if segments.any fun segment => segment ∈ legalSlugs then
      some (.utilityPage, .utilityLegal)
    else if maxCrawlDepth < segments.length then some (.utilityPage, .facetedFilter)
    else none

/-! ### Evidence -/

inductive Indexability where
  | indexable
  | noindex
  | canonicalisedAway
  | notAPage
  | unknown
  deriving DecidableEq

structure NavLink where
  href : Text
  navDepth : Nat := 0

structure CmsRecord where
  recordType : Text
  parentId : Option Int := none
  parentUrl : Option Text := none
  hasChildren : Bool := false

structure PageEvidence where
  url : Text
  finalUrl : Text := []
  redirectChain : List Text := []
  canonicalUrl : Text := []
  indexability : Indexability := .unknown
  indexabilityReason : Text := []
  normalizedPath : Text
  depth : Option Nat := none
  html : Option Text := none
  navLinks : List NavLink := []
  discoverySources : DiscoverySource := {}
  sitemapSource : Option Text := none
  cmsRecord : Option CmsRecord := none
  inboundInternalLinks : Nat := 0
  outboundInternalLinks : Nat := 0
  totalPagesInCrawl : Nat := 0
  breadcrumbPath : List Text := []
  pageTitle : Text := []
  pageTitleCount : Nat := 0
  pageTitleOutsideHead : Bool := false
  metaDescription : Text := []
  metaDescriptionCount : Nat := 0
  metaDescriptionOutsideHead : Bool := false
  h1Text : Text := []
  h1Count : Nat := 0
  jsonldTypes : List Text := []
  httpStatus : Option Int := none
  firstRedirectStatus : Option Int := none
  fetchOutcome : Option Text := none
  canonicalDeclared : Option Bool := none
  canonicalLinkCount : Option Nat := none
  bodyLinkCount : Option Nat := none
  breadcrumbParentUrl : Option Text := none
  uniqueContentInlinks : Option Nat := none
  url_ne : url ≠ []
  normalizedPath_ne : normalizedPath ≠ []

/-- What building a signal or a profile raises. -/
inductive Raised where
  /-- `ValidationError`, with the fields that failed. -/
  | validation (fields : List Text)
  /-- The model validator of a profile. -/
  | incoherentPair (level : HierarchyLevel) (pageType : PrimaryPageType)
  /-- `RecursionError`. -/
  | recursion
  /-- `OverflowError`. -/
  | overflow

/-- The arguments of a signal. -/
structure Opinion where
  source : SignalSource
  level : HierarchyLevel
  pageType : PrimaryPageType
  confidence : ℚ
  notes : Text

/-- `SignalScore(...)`. -/
def SignalScore.build (opinion : Opinion) : Except Raised SignalScore :=
  if sure : 0 ≤ opinion.confidence ∧ opinion.confidence ≤ 1 then
    if short : opinion.notes.length ≤ 500 then
      .ok {
        source := opinion.source
        suggestedLevel := opinion.level
        suggestedPageType := opinion.pageType
        confidence := opinion.confidence
        notes := opinion.notes
        confidence_nonneg := sure.1
        confidence_le_one := sure.2
        notes_length := short }
    else .error (.validation ["notes".toList])
  else .error (.validation ["confidence".toList])

/-! ### The parsers -/

/-- `str` of an integer. -/
def ofInt (n : Int) : Text := (toString n).toList

def corporateSegments : List Text :=
  ["about", "about-us", "company", "careers", "team", "leadership", "investors"].map String.toList

/-- The class of the letters of a scheme, case ignored. -/
def isSchemePart (c : Char) : Bool :=
  isPatternLetter c || isAsciiDigit c || c = '+' || c = '.' || c = '-'

/-- `re.sub` of a scheme and a host at the start. -/
def withoutHost (href : Text) : Text :=
  let tail := href.dropWhile isSchemePart
  let after := tail.drop 3
  if href.head?.any isPatternLetter && "://".toList.isPrefixOf tail &&
      after.head?.any fun c => c ≠ '/' then
    after.dropWhile fun c => c ≠ '/'
  else href

/-- `_path_key`. -/
def pathKey (unicode : UnicodeData) (href : Text) : Text :=
  let path := (partition '#' (partition '?' (withoutHost (strip isSpace href))).1).1
  normalizePath (stripLocalePrefix unicode none (orRoot path)).1

/-- `parse_aria_nav_signal`. -/
def ariaNavOpinion (unicode : UnicodeData) (evidence : PageEvidence) : Option Opinion :=
  let target := pathKey unicode evidence.normalizedPath
  let found := evidence.navLinks.filter fun link => pathKey unicode link.href = target
  match (found.map NavLink.navDepth).min? with
  | none => none
  | some depth =>
    let notes := "nav depth ".toList ++ ofNat depth ++ ", ".toList ++ ofNat found.length ++
      " nav occurrence(s)".toList
    if depth = 0 then
      if (filledParts target).head?.any fun segment =>
          unicode.lower segment ∈ corporateSegments then none
      else some ⟨.ariaNavTree, .l1PrimaryNavHub, .serviceCategoryHub, 90 / 100, notes⟩
    else if depth = 1 then
      some ⟨.ariaNavTree, .l2SubNavHub, .serviceCategoryHub, 82 / 100, notes⟩
    else some ⟨.ariaNavTree, .l3LeafPage, .serviceDetailPage, 70 / 100, notes⟩

/-- The pair of a record's kind. -/
def cmsPair (kind : Text) (isRoot hasChildren : Bool) : HierarchyLevel × PrimaryPageType :=
  let hub : HierarchyLevel := if isRoot then .l1PrimaryNavHub else .l2SubNavHub
  if kind ∈ ["product", "products"].map String.toList then (.l3LeafPage, .productDetailPage)
  else if kind ∈ ["collection", "collections", "product_category", "category"].map
      String.toList then (hub, .productCategoryHub)
  else if kind ∈ ["post", "posts"].map String.toList then (.l3LeafPage, .blogArticle)
  else if hasChildren then (hub, .serviceCategoryHub)
  else (.l3LeafPage, .serviceDetailPage)

/-- `parse_cms_endpoint_signal`. -/
def cmsEndpointOpinion (unicode : UnicodeData) (evidence : PageEvidence) : Option Opinion :=
  evidence.cmsRecord.map fun record =>
    let parent := record.parentId.filter fun parent => parent ≠ 0
    let pair := cmsPair (unicode.lower record.recordType) parent.isNone record.hasChildren
    { source := .cmsApiEndpoint
      level := pair.1
      pageType := pair.2
      confidence :=
        if record.parentUrl.any (fun url => url ≠ []) || parent.isNone then 95 / 100 else 88 / 100
      notes := "cms type '".toList ++ record.recordType ++ "', parent=".toList ++
        (parent.map ofInt).getD "root".toList }

/-- `_SITEMAP_HINTS`. -/
def sitemapHints : List (Text × HierarchyLevel × PrimaryPageType) := [
  ("product".toList, .l3LeafPage, .productDetailPage),
  ("collection".toList, .l2SubNavHub, .productCategoryHub),
  ("categor".toList, .l2SubNavHub, .productCategoryHub),
  ("case-stud".toList, .l3LeafPage, .caseStudy),
  ("case_stud".toList, .l3LeafPage, .caseStudy),
  ("blog".toList, .l3LeafPage, .blogArticle),
  ("post".toList, .l3LeafPage, .blogArticle),
  ("news".toList, .l3LeafPage, .blogArticle),
  ("resource".toList, .l3LeafPage, .blogArticle),
  ("service".toList, .l3LeafPage, .serviceDetailPage),
  ("software".toList, .l3LeafPage, .serviceDetailPage),
  ("global-page".toList, .l1PrimaryNavHub, .companyAbout),
  ("page".toList, .l1PrimaryNavHub, .serviceCategoryHub)]

/-- `parse_sitemap_signal`. -/
def sitemapOpinion (unicode : UnicodeData) (evidence : PageEvidence) : Option Opinion :=
  match evidence.sitemapSource with
  | none => none
  | some source =>
    if source = [] then none
    else
      (sitemapHints.find? fun hint => containsText hint.1 (unicode.lower source)).map fun hint =>
        { source := .sitemapIndex
          level := hint.2.1
          pageType := hint.2.2
          confidence := 75 / 100
          notes := "sitemap '".toList ++ source ++ "' matched '".toList ++ hint.1 ++ ['\''] }

def maxSchemaTypeChars : Nat := 256

/-- `_SCHEMA_TYPE_MAP`. -/
def schemaTypeMap : List (Text × HierarchyLevel × PrimaryPageType) := [
  ("product".toList, .l3LeafPage, .productDetailPage),
  ("itempage".toList, .l3LeafPage, .productDetailPage),
  ("service".toList, .l3LeafPage, .serviceDetailPage),
  ("article".toList, .l3LeafPage, .blogArticle),
  ("blogposting".toList, .l3LeafPage, .blogArticle),
  ("newsarticle".toList, .l3LeafPage, .blogArticle),
  ("techarticle".toList, .l3LeafPage, .blogArticle),
  ("collectionpage".toList, .l2SubNavHub, .productCategoryHub),
  ("aboutpage".toList, .l3LeafPage, .companyAbout),
  ("contactpage".toList, .utilityPage, .commercialLeadGen),
  ("blog".toList, .l1PrimaryNavHub, .blogHub),
  ("softwareapplication".toList, .l3LeafPage, .toolApplication),
  ("webapplication".toList, .l3LeafPage, .toolApplication)]

/-- `_recognised`. -/
def recognised (unicode : UnicodeData) (declared : Text) :
    Option (HierarchyLevel × PrimaryPageType) :=
  if maxSchemaTypeChars < declared.length then none
  else
    let name := unicode.lower ((split '/' declared).getLastD [])
    (schemaTypeMap.find? fun entry => entry.1 = name).map Prod.snd

/-- The first recognised type decides; the walk may end before one is met. -/
def firstRecognised (unicode : UnicodeData) : List (Option Text) → Except Raised (Option Opinion)
  | [] => .ok none
  | none :: _ => .error .recursion
  | some declared :: rest =>
    match recognised unicode declared with
    | some (level, pageType) =>
      .ok (some ⟨.schemaJsonld, level, pageType, 80 / 100,
        "schema.org @type '".toList ++ declared ++ ['\'']⟩)
    | none => firstRecognised unicode rest

/-- The types `parse_jsonld_signal` goes through. -/
def typesOf (reader : BlockReader) (evidence : PageEvidence) : List (Option Text) :=
  match evidence.html.filter fun html => html ≠ [] with
  | some html => iterDeclaredTypes reader html
  | none => evidence.jsonldTypes.map some

def l1HubInboundLinkThreshold : Nat := 1000

/-- An integer this large is no `float`. -/
def floatLimit : Nat := 2 ^ 1024 - 2 ^ 970

/-- The threshold of `parse_link_indegree_signal`. Where `int(total * 0.5)` is not half the total,
which is past what a `float` holds exactly, it is above the cap. -/
def inboundThreshold (total : Nat) : Nat :=
  if 0 < total then min l1HubInboundLinkThreshold (max 10 (total / 2))
  else l1HubInboundLinkThreshold

/-- `parse_link_indegree_signal`. -/
def linkIndegreeOpinion (evidence : PageEvidence) : Except Raised (Option Opinion) :=
  let inbound := evidence.inboundInternalLinks
  let total := evidence.totalPagesInCrawl
  if inbound = 0 then .ok none
  else if floatLimit ≤ total then .error .overflow
  else
    let threshold := inboundThreshold total
    if threshold ≤ inbound then
      .ok (some ⟨.linkInDegree, .l1PrimaryNavHub, .serviceCategoryHub, 72 / 100,
        ofNat inbound ++ " inbound internal links (threshold ".toList ++ ofNat threshold ++ [')']⟩)
    else if inbound ≤ 1 ∧ 50 < total then
      .ok (some ⟨.linkInDegree, .l3LeafPage, .unknown, 35 / 100,
        "near-orphan: ".toList ++ ofNat inbound ++ " inbound internal link(s)".toList⟩)
    else .ok none

section Parsers

variable (unicode : UnicodeData) (reader : BlockReader)

/-- The parsers, in signal order. -/
def parsers : List (PageEvidence → Except Raised (Option Opinion)) := [
  fun evidence => .ok (cmsEndpointOpinion unicode evidence),
  fun evidence => .ok (ariaNavOpinion unicode evidence),
  fun evidence => .ok (sitemapOpinion unicode evidence),
  fun evidence => firstRecognised unicode (typesOf reader evidence),
  linkIndegreeOpinion]

/-- A parser, as far as it has something to say. -/
def runParser (evidence : PageEvidence)
    (parser : PageEvidence → Except Raised (Option Opinion)) :
    Except Raised (Option SignalScore) := do
  match ← parser evidence with
  | none => .ok none
  | some opinion => (SignalScore.build opinion).map some

/-- `collect_structural_signals`. -/
def collectStructuralSignals (evidence : PageEvidence) : Except Raised (List SignalScore) := do
  let scores ← (parsers unicode reader).mapM (runParser evidence)
  .ok (scores.filterMap fun score => score)

end Parsers

/-! ### When the parsers return -/

/-- A confidence a signal may have. -/
def Opinion.Sure (opinion : Opinion) : Prop := 0 ≤ opinion.confidence ∧ opinion.confidence ≤ 1

/-- A note a signal may have. -/
def Opinion.Noted (opinion : Opinion) : Prop := opinion.notes.length ≤ 500

section Returns

variable {unicode : UnicodeData} {reader : BlockReader} {evidence : PageEvidence}
  {opinion : Opinion}

theorem exists_build (sure : opinion.Sure) :
    (∃ signal, SignalScore.build opinion = .ok signal) ↔ opinion.Noted := by
  have bounds : 0 ≤ opinion.confidence ∧ opinion.confidence ≤ 1 := sure
  rw [SignalScore.build, dif_pos bounds]
  split
  · next short => exact iff_of_true ⟨_, rfl⟩ short
  · next long =>
    refine iff_of_false (fun ⟨signal, built⟩ => ?_) long
    cases built

theorem cmsEndpointOpinion_sure (h : cmsEndpointOpinion unicode evidence = some opinion) :
    opinion.Sure := by
  obtain ⟨record, -, rfl⟩ := Option.map_eq_some_iff.mp h
  rw [Opinion.Sure]
  dsimp only
  split
  · norm_num
  · norm_num

theorem ariaNavOpinion_sure (h : ariaNavOpinion unicode evidence = some opinion) :
    opinion.Sure := by
  unfold ariaNavOpinion at h
  dsimp only at h
  split at h
  · cases h
  · split at h
    · split at h
      · cases h
      · obtain rfl := Option.some.inj h
        norm_num [Opinion.Sure]
    · split at h
      · obtain rfl := Option.some.inj h
        norm_num [Opinion.Sure]
      · obtain rfl := Option.some.inj h
        norm_num [Opinion.Sure]

theorem sitemapOpinion_sure (h : sitemapOpinion unicode evidence = some opinion) :
    opinion.Sure := by
  unfold sitemapOpinion at h
  split at h
  · cases h
  · split at h
    · cases h
    · obtain ⟨hint, -, rfl⟩ := Option.map_eq_some_iff.mp h
      norm_num [Opinion.Sure]

theorem length_sitemapHints : ∀ hint ∈ sitemapHints, hint.1.length ≤ 11 := by
  simp [sitemapHints]

theorem sitemapOpinion_noted (short : ∀ source ∈ evidence.sitemapSource, source.length ≤ 200)
    (h : sitemapOpinion unicode evidence = some opinion) : opinion.Noted := by
  unfold sitemapOpinion at h
  split at h
  · cases h
  · next source named =>
    split at h
    · cases h
    · obtain ⟨hint, found, rfl⟩ := Option.map_eq_some_iff.mp h
      have few := length_sitemapHints hint (List.mem_of_find?_eq_some found)
      have many := short source named
      simp only [Opinion.Noted, List.length_append, List.length_singleton, String.length_toList]
      have start : "sitemap '".length = 9 := by decide
      have middle : "' matched '".length = 11 := by decide
      omega

theorem firstRecognised_noted {types : List (Option Text)}
    (h : firstRecognised unicode types = .ok (some opinion)) : opinion.Sure ∧ opinion.Noted := by
  induction types with
  | nil => cases h
  | cons type types ih =>
    cases type with
    | none => cases h
    | some declared =>
      rw [firstRecognised] at h
      split at h
      · next level pageType known =>
        obtain rfl := Option.some.inj (Except.ok.inj h)
        refine ⟨by norm_num [Opinion.Sure], ?_⟩
        have few : declared.length ≤ maxSchemaTypeChars := by
          unfold recognised at known
          split at known
          · cases known
          · next short => exact Nat.le_of_not_lt short
        simp only [Opinion.Noted, List.length_append, List.length_singleton, String.length_toList]
        have start : "schema.org @type '".length = 18 := by decide
        rw [maxSchemaTypeChars] at few
        omega
      · exact ih h

theorem linkIndegreeOpinion_sure (h : linkIndegreeOpinion evidence = .ok (some opinion)) :
    opinion.Sure := by
  unfold linkIndegreeOpinion at h
  dsimp only at h
  split at h
  · cases h
  · split at h
    · cases h
    · split at h
      · obtain rfl := Option.some.inj (Except.ok.inj h)
        norm_num [Opinion.Sure]
      · split at h
        · obtain rfl := Option.some.inj (Except.ok.inj h)
          norm_num [Opinion.Sure]
        · cases h

theorem exists_runParser {parser : PageEvidence → Except Raised (Option Opinion)}
    (sure : ∀ opinion, parser evidence = .ok (some opinion) → opinion.Sure) :
    (∃ score, runParser evidence parser = .ok score) ↔
      ∃ reached, parser evidence = .ok reached ∧ ∀ opinion ∈ reached, opinion.Noted := by
  rw [runParser]
  cases found : parser evidence with
  | error raised =>
    refine iff_of_false (fun ⟨score, h⟩ => ?_) fun ⟨reached, h, _⟩ => ?_
    · cases h
    · cases h
  | ok reached =>
    cases reached with
    | none => exact iff_of_true ⟨_, rfl⟩ ⟨none, rfl, fun opinion mem => by cases mem⟩
    | some opinion =>
      have built := exists_build (sure opinion found)
      constructor
      · rintro ⟨score, h⟩
        refine ⟨some opinion, rfl, fun other same => ?_⟩
        obtain rfl := Option.some.inj same
        refine built.mp ?_
        cases made : SignalScore.build opinion with
        | error raised =>
          have stuck : (SignalScore.build opinion).map some = .ok score := h
          rw [made] at stuck
          cases stuck
        | ok signal => exact ⟨signal, rfl⟩
      · rintro ⟨_, same, noted⟩
        obtain rfl := Except.ok.inj same
        obtain ⟨signal, made⟩ := built.mpr (noted opinion rfl)
        refine ⟨some signal, ?_⟩
        change (SignalScore.build opinion).map some = .ok (some signal)
        rw [made]
        rfl

theorem exists_runParser_pure {f : PageEvidence → Option Opinion}
    (sure : ∀ opinion, f evidence = some opinion → opinion.Sure) :
    (∃ score, runParser evidence (fun evidence => .ok (f evidence)) = .ok score) ↔
      ∀ opinion, f evidence = some opinion → opinion.Noted := by
  rw [exists_runParser fun opinion h => sure opinion (Except.ok.inj h)]
  constructor
  · rintro ⟨reached, same, noted⟩ opinion h
    obtain rfl := Except.ok.inj same
    exact noted opinion h
  · intro noted
    exact ⟨_, rfl, noted⟩

end Returns

/-- What keeps the parsers from raising, beside a sitemap's name that fits a profile: the notes
quote what the CMS and the counters say, the walk over the JSON-LD meets a recognised type or its
end before the stack does, and half of a total is taken as a `float`. -/
structure SignalsFit (unicode : UnicodeData) (reader : BlockReader) (evidence : PageEvidence) :
    Prop where
  cms : ∀ opinion, cmsEndpointOpinion unicode evidence = some opinion → opinion.Noted
  nav : ∀ opinion, ariaNavOpinion unicode evidence = some opinion → opinion.Noted
  walk : firstRecognised unicode (typesOf reader evidence) ≠ .error .recursion
  total : evidence.inboundInternalLinks ≠ 0 → evidence.totalPagesInCrawl < floatLimit
  links : ∀ opinion, linkIndegreeOpinion evidence = .ok (some opinion) → opinion.Noted

section Collected

variable {unicode : UnicodeData} {reader : BlockReader} {evidence : PageEvidence}

theorem firstRecognised_error {types : List (Option Text)} {raised : Raised}
    (h : firstRecognised unicode types = .error raised) : raised = .recursion := by
  induction types with
  | nil => cases h
  | cons type types ih =>
    cases type with
    | none => exact (Except.error.inj h).symm
    | some declared =>
      rw [firstRecognised] at h
      split at h
      · cases h
      · exact ih h

theorem exists_linkIndegreeOpinion : (∃ reached, linkIndegreeOpinion evidence = .ok reached) ↔
    (evidence.inboundInternalLinks ≠ 0 → evidence.totalPagesInCrawl < floatLimit) := by
  unfold linkIndegreeOpinion
  dsimp only
  split
  · next unlinked => exact iff_of_true ⟨_, rfl⟩ fun linked => absurd unlinked linked
  · next linked =>
    split
    · next large =>
      refine iff_of_false (fun ⟨reached, h⟩ => ?_) fun small => ?_
      · cases h
      · exact absurd (small linked) (Nat.not_lt.mpr large)
    · next small =>
      refine iff_of_true ?_ fun _ => Nat.lt_of_not_le small
      split
      · exact ⟨_, rfl⟩
      · split
        · exact ⟨_, rfl⟩
        · exact ⟨_, rfl⟩

/-- **The parsers return exactly where the signals fit.** -/
theorem exists_collectStructuralSignals
    (short : ∀ source ∈ evidence.sitemapSource, source.length ≤ 200) :
    (∃ signals, collectStructuralSignals unicode reader evidence = .ok signals) ↔
      SignalsFit unicode reader evidence := by
  have collected : (∃ signals, collectStructuralSignals unicode reader evidence = .ok signals) ↔
      ∃ scores, (parsers unicode reader).mapM (runParser evidence) = .ok scores := by
    rw [collectStructuralSignals]
    simp only [bind_eq_ok]
    constructor
    · rintro ⟨signals, scores, h, -⟩
      exact ⟨scores, h⟩
    · rintro ⟨scores, h⟩
      exact ⟨_, scores, h, rfl⟩
  rw [collected, exists_mapM_ok]
  simp only [parsers, List.forall_mem_cons, List.not_mem_nil, false_implies, implies_true, and_true]
  rw [exists_runParser_pure fun _ => cmsEndpointOpinion_sure,
    exists_runParser_pure fun _ => ariaNavOpinion_sure,
    exists_runParser_pure fun _ => sitemapOpinion_sure,
    exists_runParser fun _ h => (firstRecognised_noted h).1,
    exists_runParser fun _ => linkIndegreeOpinion_sure]
  constructor
  · rintro ⟨cms, nav, -, ⟨reached, walked, -⟩, linked, reached', noted⟩
    refine ⟨cms, nav, fun stuck => ?_, exists_linkIndegreeOpinion.mp ⟨linked, reached'⟩,
      fun opinion h => ?_⟩
    · rw [walked] at stuck
      cases stuck
    · obtain rfl := Except.ok.inj (reached'.symm.trans h)
      exact noted opinion rfl
  · intro fit
    refine ⟨fit.cms, fit.nav, fun _ => sitemapOpinion_noted short, ?_, ?_⟩
    · cases walked : firstRecognised unicode (typesOf reader evidence) with
      | error raised => exact absurd (firstRecognised_error walked ▸ walked) fit.walk
      | ok reached =>
        refine ⟨reached, rfl, fun opinion h => ?_⟩
        obtain rfl := Option.mem_def.mp h
        exact (firstRecognised_noted walked).2
    · obtain ⟨linked, reached⟩ := exists_linkIndegreeOpinion.mpr fit.total
      refine ⟨linked, reached, fun opinion h => ?_⟩
      obtain rfl := Option.mem_def.mp h
      exact fit.links opinion reached

end Collected

end Rankuno.PageClassifier
