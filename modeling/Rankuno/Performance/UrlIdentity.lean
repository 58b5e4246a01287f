import Rankuno.Foundation.Table
import Rankuno.Foundation.TieredIndex
import Rankuno.UrlKeys.Normalize

/-!
# Whose page a reported address is

Search Console and GA4 report addresses, the crawl holds pages. An index over the
pages of a crawl lists the aliases of each (its URL, where its fetch landed, the
canonical URL it declares) and answers with the page an address belongs to, by
the absolute address, by path and query, by path alone, each first as it is
spelled and then with the path's case folded.

The keys of the absolute level tell the host, the others do not. An address is
never given to a page of another host exactly as long as no such page is the
first to claim it without its host, `ClaimedOnHost`.
-/

namespace Rankuno.Performance

open Python Python.Text UrlKeys TieredIndex

/-- `OTHERS_LABEL`. -/
def othersLabel : Text := "OTHERS".toList

/-- The fields of a page's profile that say where it is and where it belongs. -/
structure FullPageIntelligenceProfile where
  url : Text
  canonicalUrl : Text
  finalUrl : Text := []
  breadcrumbPath : List Text := []
  deriving DecidableEq

inductive MatchTier where
  | crawledUrl
  | redirectTarget
  | canonicalTag
  | barePath
  | caseFolded
  deriving DecidableEq

inductive MatchFailure where
  | unparseable
  | offSite
  | otherSubdomain
  | ambiguous
  | notCrawled
  deriving DecidableEq

structure UrlMatch where
  googleUrl : Text
  pageUrl : Text
  via : MatchTier
  deriving DecidableEq

structure UrlFailure where
  googleUrl : Text
  reason : MatchFailure
  deriving DecidableEq

inductive Resolution where
  | found (found : UrlMatch)
  | failed (failure : UrlFailure)
  deriving DecidableEq

/-- `_SOURCES`, in descending order of evidence. -/
def sources : List ((FullPageIntelligenceProfile → Text) × MatchTier) :=
  [(FullPageIntelligenceProfile.url, .crawledUrl),
    (FullPageIntelligenceProfile.finalUrl, .redirectTarget),
    (FullPageIntelligenceProfile.canonicalUrl, .canonicalTag)]

/-- `placement_depth`. -/
def placementDepth (trail : List Text) : Nat :=
  if trail.head? = some othersLabel then 0 else trail.length

/-- `_path_key`. -/
def pathKey (unicode : UnicodeData) (parts : SplitResult) : Text :=
  let path := normalizePath (orRoot parts.path)
  let query := queryKey unicode parts.query
  if query = [] then path else path ++ '?' :: query

section Dedupe

variable (unicode : UnicodeData)

/-- The key the engine's own deduplication goes by. -/
def pageKey (page : FullPageIntelligenceProfile) : Text := normalizeUrl unicode page.url

/-- The pages kept so far, and how many copies were dropped. -/
abbrev Deduped : Type := Table Text (pageKey unicode) × Nat

variable {unicode}

/-- A page takes the place of the copy that is held, if it is placed better. -/
def keepBest (held : Deduped unicode) (page : FullPageIntelligenceProfile) : Deduped unicode :=
  match held.1.insert? page with
  | some pages => (pages, held.2)
  | none =>
    (held.1.update
      (fun copy => placementDepth copy.breadcrumbPath < placementDepth page.breadcrumbPath)
      (fun copy => if pageKey unicode copy = pageKey unicode page then page else copy)
      (fun copy => by
        split
        · next same => exact same.symm
        · rfl),
      held.2 + 1)

/-- `dedupe_profiles`. -/
def dedupeProfiles (unicode : UnicodeData) (profiles : List FullPageIntelligenceProfile) :
    Deduped unicode :=
  profiles.foldl keepBest (.empty, 0)

end Dedupe

/-- The three identities an address is looked up by. -/
inductive Level where
  | absolute
  | path
  | bare
  deriving DecidableEq

/-- The key of an address at a level. Only the absolute level has one for an
address that cannot be split. -/
def levelKey (unicode : UnicodeData) (url : Text) : Level → Option Text
  | .absolute => some (normalizeUrl unicode url)
  | .path => (safeSplit unicode url).map (pathKey unicode)
  | .bare => (safeSplit unicode url).map fun parts => normalizePath (orRoot parts.path)

/-- The aliases of one source that are not empty, with the pages they name. -/
def live (field : FullPageIntelligenceProfile → Text) (pages : List FullPageIntelligenceProfile) :
    List (Text × Text) :=
  (pages.map fun page => (field page, page.url)).filter fun pair => pair.1 ≠ []

/-- The claims of each source at a level. -/
def levelClaims (unicode : UnicodeData) (pages : List FullPageIntelligenceProfile)
    (level : Level) : List (List (Text × Text) × MatchTier) :=
  sources.map fun source =>
    ((live source.1 pages).filterMap fun pair =>
      (levelKey unicode pair.1 level).map fun key => (key, pair.2), source.2)

/-- The same claims, of the folded keys. -/
def foldedClaims (unicode : UnicodeData) (pages : List FullPageIntelligenceProfile)
    (level : Level) : List (List (Text × Text) × MatchTier) :=
  (levelClaims unicode pages level).map fun tier =>
    (tier.1.map fun claim => (foldPath unicode claim.1, claim.2), tier.2)

/-- `_merge` of the `_tier_index` of each source. -/
def mergeClaims (tiers : List (List (Text × Text) × MatchTier)) : Index Text Text MatchTier :=
  Index.merge (tiers.map fun tier => Tier.ofClaims tier.1 tier.2)

/-- `_host_of`. -/
def hostOf (unicode : UnicodeData) (url : Text) : Text :=
  match safeSplit unicode url with
  | none => []
  | some parts => siteHost unicode parts.netloc

def hostsOf (unicode : UnicodeData) (pages : List FullPageIntelligenceProfile) : List Text :=
  (pages.map fun page => hostOf unicode page.url).filter fun host => host ≠ []

structure UrlResolutionIndex where
  pages : List FullPageIntelligenceProfile
  duplicateProfiles : Nat
  hosts : List Text
  domains : List Text
  exact : Level → Index Text Text MatchTier
  folded : Level → Index Text Text MatchTier

namespace UrlResolutionIndex

/-- `UrlResolutionIndex.__init__`. -/
def build (unicode : HostData) (profiles : List FullPageIntelligenceProfile) : UrlResolutionIndex :=
  let deduped := dedupeProfiles unicode.toUnicodeData profiles
  let pages := deduped.1.rows
  let hosts := hostsOf unicode.toUnicodeData pages
  { pages
    duplicateProfiles := deduped.2
    hosts
    domains := hosts.map (registrableDomain unicode)
    exact := fun level => mergeClaims (levelClaims unicode.toUnicodeData pages level)
    folded := fun level => mergeClaims (foldedClaims unicode.toUnicodeData pages level) }

/-- A look at one level: the exact key, then `_case_folded`. -/
def lookUp (unicode : UnicodeData) (index : UrlResolutionIndex) (googleUrl : Text) (level : Level)
    (key : Text) (via : MatchTier → MatchTier) (next : Resolution) : Resolution :=
  match (index.exact level).verdict key with
  | .ambiguous => .failed ⟨googleUrl, .ambiguous⟩
  | .owned owner tier => .found ⟨googleUrl, owner, via tier⟩
  | .unknown =>
    match (index.folded level).verdict (foldPath unicode key) with
    | .ambiguous => .failed ⟨googleUrl, .ambiguous⟩
    | .owned owner _ => .found ⟨googleUrl, owner, .caseFolded⟩
    | .unknown => next

/-- `_by_path`. -/
def byPath (unicode : UnicodeData) (index : UrlResolutionIndex) (googleUrl : Text)
    (parts : SplitResult) : Resolution :=
  index.lookUp unicode googleUrl .path (pathKey unicode parts) (fun tier => tier) <|
    index.lookUp unicode googleUrl .bare (normalizePath (orRoot parts.path))
      (fun _ => .barePath) <|
    .failed ⟨googleUrl, .notCrawled⟩

/-- `resolve`. -/
def resolve (unicode : HostData) (index : UrlResolutionIndex) (googleUrl : Text) : Resolution :=
  match safeSplit unicode.toUnicodeData googleUrl with
  | none => .failed ⟨googleUrl, .unparseable⟩
  | some parts =>
    if parts.netloc = [] ∧ parts.path.head? ≠ some '/' then .failed ⟨googleUrl, .unparseable⟩
    else if parts.netloc = [] then index.byPath unicode.toUnicodeData googleUrl parts
    else
      let host := hostOf unicode.toUnicodeData googleUrl
      index.lookUp unicode.toUnicodeData googleUrl .absolute
        (normalizeUrl unicode.toUnicodeData googleUrl) (fun tier => tier) <|
      if host ∈ index.hosts then index.byPath unicode.toUnicodeData googleUrl parts
      else if registrableDomain unicode host ∈ index.domains then
        .failed ⟨googleUrl, .otherSubdomain⟩
      else .failed ⟨googleUrl, .offSite⟩

end UrlResolutionIndex

/-- The page a resolution names, if any. -/
def Resolution.page? : Resolution → Option Text
  | .found answer => some answer.pageUrl
  | .failed _ => none

/-- The addresses a page is known by. -/
def FullPageIntelligenceProfile.aliases (page : FullPageIntelligenceProfile) : List Text :=
  [page.url, page.finalUrl, page.canonicalUrl].filter fun url => url ≠ []

/-- A level, and whether its keys are folded. -/
structure Step where
  level : Level
  folded : Bool
  deriving DecidableEq

namespace Step

variable (unicode : UnicodeData) (pages : List FullPageIntelligenceProfile) (url : Text)

/-- What the pages claim at a step. -/
def claims (step : Step) : List (List (Text × Text) × MatchTier) :=
  if step.folded then foldedClaims unicode pages step.level
  else levelClaims unicode pages step.level

def key (step : Step) : Option Text :=
  (levelKey unicode url step.level).map fun key => if step.folded then foldPath unicode key else key

/-- The steps of a lookup: those with the host always, those without it only for
an address on a host that was crawled. -/
def consulted : List Step :=
  [⟨.absolute, false⟩, ⟨.absolute, true⟩] ++
    if hostOf unicode url ∈ hostsOf unicode pages then
      [⟨.path, false⟩, ⟨.path, true⟩, ⟨.bare, false⟩, ⟨.bare, true⟩]
    else []

/-- No page claims the address at the step. -/
def Unclaimed (step : Step) : Prop :=
  ∀ key, step.key unicode url = some key →
    ∀ tier ∈ step.claims unicode pages, claimants tier.1 key = []

/-- The page is the only one with the strongest claim of the address at the step. -/
def Claimed (step : Step) (owner : Text) : Prop :=
  ∃ key tier, step.key unicode url = some key ∧
    SoleClaimant key owner tier (step.claims unicode pages)

/-- The step is the first at which the address is claimed, and the page is its
only claimant there. -/
def FirstClaimed (step : Step) (owner : Text) : Prop :=
  ∃ before after, consulted unicode pages url = before ++ step :: after ∧
    (∀ earlier ∈ before, earlier.Unclaimed unicode pages url) ∧
    step.Claimed unicode pages url owner

end Step

section Hosts

variable (unicode : UnicodeData) (pages : List FullPageIntelligenceProfile) (url : Text)

/-- The page with this URL has an alias on the host of the address. -/
def OnHost (owner : Text) : Prop :=
  ∃ page ∈ pages, page.url = owner ∧
    ∃ known ∈ page.aliases, hostOf unicode known = hostOf unicode url

/-- The address can be split, and no bracket follows the `www.` of its host. -/
def PlainHost : Prop :=
  ∃ parts, safeSplit unicode url = some parts ∧ ¬BracketedWww unicode parts.netloc

/-- No page of another host is the first to claim the address: not without its
host, and not with it where a host is oddly written. -/
structure ClaimedOnHost : Prop where
  path : ∀ (step : Step) owner, step.level ≠ .absolute → step.FirstClaimed unicode pages url owner →
    OnHost unicode pages url owner
  odd : ∀ (step : Step) owner, step.level = .absolute → step.FirstClaimed unicode pages url owner →
    (¬PlainHost unicode url ∨
      ∃ page ∈ pages, page.url = owner ∧ ∃ known ∈ page.aliases, ¬PlainHost unicode known) →
    OnHost unicode pages url owner

end Hosts

section Lookup

variable {unicode : UnicodeData} {pages : List FullPageIntelligenceProfile} {url key owner : Text}
variable {level : Level} {tier : MatchTier}

theorem mem_levelClaims {claims : List (Text × Text)}
    (h : (claims, tier) ∈ levelClaims unicode pages level) (mem : (key, owner) ∈ claims) :
    ∃ page ∈ pages, page.url = owner ∧ ∃ known ∈ page.aliases,
      levelKey unicode known level = some key := by
  obtain ⟨source, hsource, hclaims⟩ := List.mem_map.mp h
  cases hclaims
  obtain ⟨⟨known, named⟩, mem, claimed⟩ := List.mem_filterMap.mp mem
  obtain ⟨mem, filled⟩ := List.mem_filter.mp mem
  obtain ⟨page, hpage, hpair⟩ := List.mem_map.mp mem
  cases hpair
  obtain ⟨key', hkey, hpair⟩ := Option.map_eq_some_iff.mp claimed
  cases hpair
  refine ⟨page, hpage, rfl, source.1 page, List.mem_filter.mpr ⟨?_, filled⟩, hkey⟩
  rw [sources, List.mem_cons, List.mem_cons, List.mem_singleton] at hsource
  obtain rfl | rfl | rfl := hsource
  · exact List.mem_cons_self
  · exact List.mem_cons_of_mem _ List.mem_cons_self
  · exact List.mem_cons_of_mem _ (List.mem_cons_of_mem _ List.mem_cons_self)

variable {step : Step}

theorem mem_stepClaims {claims : List (Text × Text)}
    (h : (claims, tier) ∈ step.claims unicode pages) (mem : (key, owner) ∈ claims) :
    ∃ page ∈ pages, page.url = owner ∧ ∃ known ∈ page.aliases,
      step.key unicode known = some key := by
  rw [Step.claims] at h
  cases hfold : step.folded with
  | false =>
    rw [hfold] at h
    obtain ⟨page, hpage, hurl, known, hknown, hkey⟩ := mem_levelClaims h mem
    refine ⟨page, hpage, hurl, known, hknown, ?_⟩
    rw [Step.key, hkey, hfold]
    rfl
  | true =>
    rw [hfold] at h
    obtain ⟨⟨exact_, tier'⟩, htier, hpair⟩ := List.mem_map.mp h
    cases hpair
    obtain ⟨⟨key', owner'⟩, claimed, hpair⟩ := List.mem_map.mp mem
    cases hpair
    obtain ⟨page, hpage, hurl, known, hknown, hkey⟩ := mem_levelClaims htier claimed
    refine ⟨page, hpage, hurl, known, hknown, ?_⟩
    rw [Step.key, hkey, hfold]
    rfl

/-- **The absolute keys tell the host.** A page that claims an address with its
host is on that host. -/
theorem onHost_of_claimed (lowers : LowersLetters unicode)
    (absolute : step.level = .absolute) (claimed : step.Claimed unicode pages url owner)
    (plain : PlainHost unicode url)
    (plain' : ∀ page ∈ pages, page.url = owner → ∀ known ∈ page.aliases, PlainHost unicode known) :
    OnHost unicode pages url owner := by
  obtain ⟨key, tier, hkey, sole⟩ := claimed
  obtain ⟨claims, htier, mem⟩ := sole.mem
  obtain ⟨page, hpage, hurl, known, hknown, hkey'⟩ := mem_stepClaims htier mem
  obtain ⟨parts, split, plain⟩ := plain
  obtain ⟨parts', split', plain'⟩ := plain' page hpage hurl known hknown
  refine ⟨page, hpage, hurl, known, hknown, ?_⟩
  have same := hkey'.trans hkey.symm
  simp only [Step.key, absolute, levelKey, Option.map_some, Option.some.injEq] at same
  rw [hostOf, hostOf, split, split']
  refine (siteHost_eq_of_key_eq lowers split split' plain plain' ?_).symm
  cases hfold : step.folded with
  | false =>
    simp only [hfold, Bool.false_eq_true, if_false] at same
    exact Or.inl same.symm
  | true =>
    simp only [hfold, if_true] at same
    exact Or.inr same.symm

/-- What the index says of an address at a step. -/
def Step.verdict (unicode : UnicodeData) (pages : List FullPageIntelligenceProfile) (url : Text)
    (step : Step) : TieredIndex.Verdict Text MatchTier :=
  match step.key unicode url with
  | none => .unknown
  | some key => verdictOf key (step.claims unicode pages)

theorem Step.verdict_eq_unknown :
    step.verdict unicode pages url = .unknown ↔ step.Unclaimed unicode pages url := by
  rw [verdict, Unclaimed]
  cases step.key unicode url with
  | none => simp
  | some key =>
    simp only [Option.some.injEq, forall_eq']
    exact verdictOf_eq_unknown

theorem Step.exists_verdict_eq_owned :
    (∃ tier, step.verdict unicode pages url = .owned owner tier) ↔
      step.Claimed unicode pages url owner := by
  rw [Claimed]
  constructor
  · rintro ⟨tier, h⟩
    rw [verdict] at h
    split at h
    · cases h
    · next key hkey => exact ⟨key, tier, hkey, verdictOf_eq_owned.mp h⟩
  · rintro ⟨key, tier, hkey, sole⟩
    refine ⟨tier, ?_⟩
    rw [verdict, hkey]
    exact verdictOf_eq_owned.mpr sole

theorem firstOwner_eq_some_iff :
    firstOwner ((Step.consulted unicode pages url).map (Step.verdict unicode pages url)) =
        some owner ↔ ∃ step : Step, step.FirstClaimed unicode pages url owner := by
  rw [firstOwner_eq_some]
  constructor
  · rintro ⟨before, label, after, split, unknown⟩
    obtain ⟨steps, rest, hsplit, rfl, hrest⟩ := List.map_eq_append_iff.mp split
    obtain ⟨step, later, rfl, howned, rfl⟩ := List.map_eq_cons_iff.mp hrest
    refine ⟨step, steps, later, hsplit, fun earlier mem => ?_,
      Step.exists_verdict_eq_owned.mp ⟨label, howned⟩⟩
    exact Step.verdict_eq_unknown.mp (unknown _ (List.mem_map_of_mem mem))
  · rintro ⟨step, before, after, split, unclaimed, claimed⟩
    obtain ⟨label, howned⟩ := Step.exists_verdict_eq_owned.mpr claimed
    refine ⟨before.map (Step.verdict unicode pages url), label,
      after.map (Step.verdict unicode pages url), ?_, ?_⟩
    · rw [split, List.map_append, List.map_cons, howned]
    · intro verdict mem
      obtain ⟨earlier, passed, rfl⟩ := List.mem_map.mp mem
      exact Step.verdict_eq_unknown.mpr (unclaimed earlier passed)

end Lookup

section Resolve

variable {unicode : HostData} {profiles : List FullPageIntelligenceProfile} {url key : Text}
variable {level : Level}

/-- The pages an index is built over. -/
abbrev pagesOf (unicode : HostData) (profiles : List FullPageIntelligenceProfile) :
    List FullPageIntelligenceProfile :=
  (dedupeProfiles unicode.toUnicodeData profiles).1.rows

theorem page?_lookUp {via : MatchTier → MatchTier} {next : Resolution}
    {verdicts : List (TieredIndex.Verdict Text MatchTier)}
    (hkey : levelKey unicode.toUnicodeData url level = some key)
    (rest : next.page? = firstOwner verdicts) :
    ((UrlResolutionIndex.build unicode profiles).lookUp unicode.toUnicodeData url level key via
        next).page? =
      firstOwner
        (Step.verdict unicode.toUnicodeData (pagesOf unicode profiles) url ⟨level, false⟩ ::
          Step.verdict unicode.toUnicodeData (pagesOf unicode profiles) url ⟨level, true⟩ ::
            verdicts) := by
  have exact_ : Step.verdict unicode.toUnicodeData (pagesOf unicode profiles) url ⟨level, false⟩ =
      ((UrlResolutionIndex.build unicode profiles).exact level).verdict key := by
    rw [Step.verdict, Step.key, hkey]
    exact (Index.verdict_merge _).symm
  have folded : Step.verdict unicode.toUnicodeData (pagesOf unicode profiles) url ⟨level, true⟩ =
      ((UrlResolutionIndex.build unicode profiles).folded level).verdict
        (foldPath unicode.toUnicodeData key) := by
    rw [Step.verdict, Step.key, hkey]
    exact (Index.verdict_merge _).symm
  rw [exact_, folded, UrlResolutionIndex.lookUp]
  cases ((UrlResolutionIndex.build unicode profiles).exact level).verdict key with
  | ambiguous => rfl
  | owned owner tier => rfl
  | unknown =>
    cases ((UrlResolutionIndex.build unicode profiles).folded level).verdict
        (foldPath unicode.toUnicodeData key) with
    | ambiguous => rfl
    | owned owner tier => rfl
    | unknown => exact rest

/-- **An absolute address is resolved to the only claimant at the first step at
which it is claimed.** -/
theorem page?_resolve {parts : SplitResult}
    (split : safeSplit unicode.toUnicodeData url = some parts) (absolute : parts.netloc ≠ []) :
    (UrlResolutionIndex.resolve unicode (UrlResolutionIndex.build unicode profiles) url).page? =
      firstOwner ((Step.consulted unicode.toUnicodeData (pagesOf unicode profiles) url).map
        (Step.verdict unicode.toUnicodeData (pagesOf unicode profiles) url)) := by
  rw [UrlResolutionIndex.resolve, split]
  simp only [absolute, false_and, if_false]
  rw [Step.consulted, List.map_append]
  refine page?_lookUp rfl ?_
  split
  · next crawled =>
    have crawled : hostOf unicode.toUnicodeData url ∈
        hostsOf unicode.toUnicodeData (pagesOf unicode profiles) := crawled
    rw [if_pos crawled, UrlResolutionIndex.byPath]
    refine page?_lookUp (by rw [levelKey, split]; rfl) ?_
    refine page?_lookUp (by rw [levelKey, split]; rfl) ?_
    rfl
  · next uncrawled =>
    have uncrawled : hostOf unicode.toUnicodeData url ∉
        hostsOf unicode.toUnicodeData (pagesOf unicode profiles) := uncrawled
    rw [if_neg uncrawled]
    split
    · rfl
    · rfl

/-- An address that names its host: `parts.netloc` is not empty. -/
def IsAbsolute (unicode : UnicodeData) (url : Text) : Prop :=
  ∃ parts, safeSplit unicode url = some parts ∧ parts.netloc ≠ []

/-- What `resolve` answers is a page with an alias on the host of the address. -/
def StaysOnHost (unicode : HostData) (profiles : List FullPageIntelligenceProfile) (url : Text) :
    Prop :=
  ∀ answer, UrlResolutionIndex.resolve unicode (UrlResolutionIndex.build unicode profiles) url =
    .found answer →
    OnHost unicode.toUnicodeData (pagesOf unicode profiles) url answer.pageUrl

theorem staysOnHost_iff : StaysOnHost unicode profiles url ↔ ∀ owner,
    (UrlResolutionIndex.resolve unicode (UrlResolutionIndex.build unicode profiles) url).page? =
      some owner → OnHost unicode.toUnicodeData (pagesOf unicode profiles) url owner := by
  rw [StaysOnHost]
  cases UrlResolutionIndex.resolve unicode (UrlResolutionIndex.build unicode profiles) url with
  | found answer => simp [Resolution.page?]
  | failed failure => simp [Resolution.page?]

/-- **Traffic goes to a page of another host exactly when such a page is the first
to claim the address without its host.** For every list of profiles and every
absolute address, a page `resolve` answers with has an alias on the host of the
address if and only if no page without one is the only claimant of the address at
the first step, of those that do not look at the host, at which it is claimed at
all (nor, where a host is oddly written, at a step that does). -/
theorem staysOnHost_iff_claimedOnHost (unicode : HostData)
    (lowers : LowersLetters unicode.toUnicodeData) (profiles : List FullPageIntelligenceProfile)
    (url : Text) (absolute : IsAbsolute unicode.toUnicodeData url) :
    StaysOnHost unicode profiles url ↔
      ClaimedOnHost unicode.toUnicodeData (pagesOf unicode profiles) url := by
  obtain ⟨parts, split, located⟩ := absolute
  rw [staysOnHost_iff, page?_resolve split located]
  simp only [firstOwner_eq_some_iff]
  constructor
  · intro stays
    exact ⟨fun step owner _ first => stays owner ⟨step, first⟩,
      fun step owner _ first _ => stays owner ⟨step, first⟩⟩
  · rintro ⟨path, odd⟩ owner ⟨step, first⟩
    by_cases level : step.level = .absolute
    · by_cases plain : PlainHost unicode.toUnicodeData url ∧
          ∀ page ∈ pagesOf unicode profiles, page.url = owner →
            ∀ known ∈ page.aliases, PlainHost unicode.toUnicodeData known
      · obtain ⟨before, after, -, -, claimed⟩ := first
        exact onHost_of_claimed lowers level claimed plain.1 plain.2
      · refine odd step owner level first ?_
        rw [not_and_or] at plain
        refine plain.imp_right fun odd => ?_
        simpa only [not_forall, exists_prop] using odd
    · exact path step owner level first

end Resolve

section Sample

/-- The Unicode database on ASCII text. -/
def asciiHosts : HostData where
  lower := fun s => s.map Char.toLower
  nfkc := fun s => s
  idna := fun _ => .error "not ASCII".toList
  repr := fun s => '\'' :: s ++ ['\'']
  isDigit := isAsciiDigit

theorem asciiHosts_lowersLetters : LowersLetters asciiHosts.toUnicodeData :=
  lowersLetters_of_map fun _ => rfl

instance decidableOnHost (unicode : UnicodeData) (pages : List FullPageIntelligenceProfile)
    (url owner : Text) : Decidable (OnHost unicode pages url owner) :=
  inferInstanceAs (Decidable (∃ page ∈ pages, page.url = owner ∧
    ∃ known ∈ page.aliases, hostOf unicode known = hostOf unicode url))

/-- A crawl of two hosts, only the first of which has a page `/x`. -/
def sampleProfiles : List FullPageIntelligenceProfile :=
  [{ url := "https://a.io/x".toList, canonicalUrl := "https://a.io/x".toList },
    { url := "https://b.io/".toList, canonicalUrl := "https://b.io/".toList }]

/-- An address of the first host is resolved with its host. -/
theorem claimedOnHost_sample : ClaimedOnHost asciiHosts.toUnicodeData
    (pagesOf asciiHosts sampleProfiles) "http://www.a.io/X".toList := by
  have resolved : UrlResolutionIndex.resolve asciiHosts
      (UrlResolutionIndex.build asciiHosts sampleProfiles) "http://www.a.io/X".toList =
        .found ⟨"http://www.a.io/X".toList, "https://a.io/x".toList, .caseFolded⟩ := by
    decide
  have onHost : OnHost asciiHosts.toUnicodeData (pagesOf asciiHosts sampleProfiles)
      "http://www.a.io/X".toList "https://a.io/x".toList := by
    decide
  refine (staysOnHost_iff_claimedOnHost asciiHosts asciiHosts_lowersLetters sampleProfiles
    "http://www.a.io/X".toList
    ⟨⟨"http".toList, "www.a.io".toList, "/X".toList, [], []⟩, by decide, by decide⟩).mp ?_
  intro answer h
  rw [resolved] at h
  cases h
  exact onHost

/-- An address of the second host, which has no such page, is given to the first. -/
theorem resolves_to_other_host :
    ¬StaysOnHost asciiHosts sampleProfiles "https://b.io/x".toList := by
  intro stays
  have resolved : UrlResolutionIndex.resolve asciiHosts
      (UrlResolutionIndex.build asciiHosts sampleProfiles) "https://b.io/x".toList =
        .found ⟨"https://b.io/x".toList, "https://a.io/x".toList, .crawledUrl⟩ := by
    decide
  have elsewhere : ¬OnHost asciiHosts.toUnicodeData (pagesOf asciiHosts sampleProfiles)
      "https://b.io/x".toList "https://a.io/x".toList := by
    decide
  exact elsewhere (stays _ resolved)

end Sample

end Rankuno.Performance
