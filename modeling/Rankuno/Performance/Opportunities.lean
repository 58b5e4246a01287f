import Mathlib.Data.List.Lex
import Mathlib.Data.List.MinMax
import Mathlib.Data.Prod.Lex
import Rankuno.Performance.Aggregator
import Rankuno.Python.Sorted
import Rankuno.ScreamingFrog.Reconciler

/-!
# What a crawl and an export together recommend

`opportunity_scorer.py`: five kinds of findings. Three are about crawled pages, and a page that
one of them has reported is left to it; the others are about addresses of the export that
reached no page. Shares, positions and scores are rational numbers.
-/

namespace Rankuno.Opportunities

open Python Python.Text UrlKeys Performance

/-- A crawled page, with the links that the crawl counted to it. -/
structure FullPageIntelligenceProfile extends Performance.FullPageIntelligenceProfile where
  inboundInternalLinksCount : Nat := 0

inductive OpportunityKind where
  | orphanWithTraffic
  | buriedWithTraffic
  | indexedCrawlTrap
  | underperformingSibling
  | indexedSubdomain
  deriving DecidableEq

/-- `list(OpportunityKind)`. -/
def OpportunityKind.all : List OpportunityKind :=
  [.orphanWithTraffic, .buriedWithTraffic, .indexedCrawlTrap, .underperformingSibling,
    .indexedSubdomain]

inductive Severity where
  | routine
  | critical
  deriving DecidableEq

inductive SignalGap where
  | noSearchData
  | inboundLinksUnreliable
  deriving DecidableEq

structure Opportunity where
  kind : OpportunityKind
  url : Text
  sectionPath : List Text := []
  score : ℚ := 0
  clicks : Nat := 0
  impressions : Nat := 0
  position : Option ℚ := none
  inboundInternalLinks : Nat := 0
  referenceUrl : Option Text := none
  reason : Text := []
  severity : Severity := .routine

/-- A finding with the value that it is ranked by. -/
abbrev Item : Type := ℚ × Opportunity

/-- What `f"{_:.1f}"` and `f"{_:.1%}"` write. -/
structure Formats where
  fixed1 : ℚ → Text
  percent1 : ℚ → Text

def buriedTrailDepth : Nat := 3

def sitewideLinkShare : ℚ := 1 / 5

def criticalSubdomainClickShare : ℚ := 1 / 100

/-- `_NON_PRODUCTION`. -/
def nonProduction : List Text :=
  ["staging", "stage", "uat", "qc", "qa", "dev", "test", "sandbox", "preprod", "preview",
    "internal", "auth", "sso", "login", "admin"].map String.toList

/-- `STRIKING_BAND`. -/
def strikingBand : ℚ × ℚ := (5, 20)

/-- `" > ".join(trail)`. -/
def arrows (trail : List Text) : Text := join " > ".toList trail

/-- `part / whole if whole else 0.0`. -/
def shareOf (part whole : Nat) : ℚ := if whole = 0 then 0 else part / whole

section Malformed

/-- `MARKUP_MARKERS`. -/
def markupMarkers : List Text := ["<", ">", "href=", "“", "”"].map String.toList

def leadingSpacePath : Text → Bool
  | '/' :: '%' :: '2' :: '0' :: _ => true
  | '/' :: '%' :: '0' :: c :: _ => c = '9' || c = 'a' || c = 'A' || c = 'd' || c = 'D'
  | '/' :: c :: _ => isSpace c
  | _ => false

/-- `is_malformed_url`. -/
def isMalformedUrl (unicode : UnicodeData) (url : Text) : Bool :=
  match safeSplit unicode url with
  | none => false
  | some parts =>
    leadingSpacePath parts.path ||
      markupMarkers.any fun marker => containsText marker (Urllib.unquote parts.path)

end Malformed

section Groups

structure UnmatchedGroup where
  host : Text
  reason : MatchFailure
  urls : Nat
  clicks : Nat
  impressions : Nat
  examples : List Text
  deriving DecidableEq

def maxGroupExamples : Nat := 3

/-- The reasons by the address, of which the last counts. -/
def reasonsOf (metrics : PageMetricSet) : Dict Text MatchFailure :=
  (metrics.gscResolution.failures ++ metrics.ga4Resolution.failures).foldl
    (fun reasons failure => reasons.alter failure.googleUrl failure.reason fun _ => failure.reason)
    Table.empty

/-- The rows that reached no page, by host and reason. -/
def tallyOf (unicode : UnicodeData) (metrics : PageMetricSet) :
    Dict (Text × MatchFailure) (List GscPageMetrics) :=
  metrics.unresolvedGsc.foldl (fun tally row =>
    let reason := ((reasonsOf metrics).get row.url).getD .notCrawled
    tally.alter (hostOf unicode row.url, reason) [] fun rows => rows ++ [row]) Table.empty

/-- `unmatched_groups`. -/
def unmatchedGroups (unicode : UnicodeData) (metrics : PageMetricSet) : List UnmatchedGroup :=
  let groups := (tallyOf unicode metrics).rows.map fun entry =>
    ({ host := entry.1.1
       reason := entry.1.2
       urls := entry.2.length
       clicks := (entry.2.map GscPageMetrics.clicks).sum
       impressions := (entry.2.map GscPageMetrics.impressions).sum
       examples :=
        ((sortedBy (fun row : GscPageMetrics => -(row.clicks : ℤ)) entry.2).take
          maxGroupExamples).map GscPageMetrics.url } : UnmatchedGroup)
  sortedBy (fun group => toLex (-(group.clicks : ℤ), toLex (-(group.urls : ℤ), group.host))) groups

end Groups

section Finders

variable (unicode : UnicodeData) (formats : Formats)

/-- `_Measured`. -/
abbrev Measured : Type := List (FullPageIntelligenceProfile × GscPageMetrics)

/-- `_orphan_share`. -/
def orphanShare (pages : List FullPageIntelligenceProfile) : ℚ :=
  shareOf (pages.countP fun page => page.inboundInternalLinksCount = 0) pages.length

/-- `_measured`, of the pages of the index. -/
def measured (pages : List FullPageIntelligenceProfile) (metrics : PageMetricSet) : Measured :=
  pages.filterMap fun page =>
    (metrics.pages.get page.url).bind fun held => held.gsc.map fun gsc => (page, gsc)

def trailOf (page : FullPageIntelligenceProfile) : List Text :=
  sectionPathOf page.toFullPageIntelligenceProfile

/-- `_opportunity`. -/
def opportunity (kind : OpportunityKind) (page : FullPageIntelligenceProfile)
    (gsc : GscPageMetrics) (reason : Text) (referenceUrl : Option Text := none) : Opportunity where
  kind
  url := page.url
  sectionPath := trailOf page
  clicks := gsc.clicks
  impressions := gsc.impressions
  position := if gsc.impressions = 0 then none else some (roundTo 2 gsc.position)
  inboundInternalLinks := page.inboundInternalLinksCount
  referenceUrl
  reason

/-- The findings of a loop over the pages, and the pages that have been reported. -/
structure Gathered where
  reported : List Text := []
  items : List Item := []

/-- `reported.add(page.url)` and `items.append(...)`. -/
def Gathered.report (gathered : Gathered) (value : ℚ) (finding : Opportunity) : Gathered where
  reported := gathered.reported ++ [finding.url]
  items := gathered.items ++ [(value, finding)]

/-- One turn of the loop for orphans. -/
def addOrphan (minClicks : ℤ) (gathered : Gathered)
    (entry : FullPageIntelligenceProfile × GscPageMetrics) : Gathered :=
  if entry.1.inboundInternalLinksCount ≠ 0 ∨ (entry.2.clicks : ℤ) < minClicks then gathered
  else
    gathered.report entry.2.clicks (opportunity .orphanWithTraffic entry.1 entry.2
      ("Earns ".toList ++ ofNat entry.2.clicks ++
        " search clicks with no internal link pointing at it. ".toList ++
        "Nothing on the site passes authority to this page, ".toList ++
        "and a visitor cannot browse to it.".toList))

/-- One turn of the loop for buried pages. -/
def addBuried (minClicks : ℤ) (gathered : Gathered)
    (entry : FullPageIntelligenceProfile × GscPageMetrics) : Gathered :=
  let trail := trailOf entry.1
  if entry.1.url ∈ gathered.reported ∨ trail.length < buriedTrailDepth then gathered
  else if (entry.2.clicks : ℤ) < minClicks then gathered
  else
    gathered.report entry.2.clicks (opportunity .buriedWithTraffic entry.1 entry.2
      ("Earns ".toList ++ ofNat entry.2.clicks ++ " search clicks from ".toList ++
        ofNat trail.length ++ " levels down, under ".toList ++ arrows trail ++
        ". Demand is proven; the navigation makes it hard to reach.".toList))

/-- One turn of the loop of `_traps`, where `reported` is `seen`. -/
def addTrap (gathered : Gathered) (row : GscPageMetrics) : Gathered :=
  if row.url ∈ gathered.reported ∨
      ¬(isSpiderTrap unicode row.url || isMalformedUrl unicode row.url) then gathered
  else
    let kind := if isSpiderTrap unicode row.url then "a crawl loop" else "a malformed address"
    gathered.report row.impressions {
      kind := .indexedCrawlTrap
      url := row.url
      clicks := row.clicks
      impressions := row.impressions
      position := if row.impressions = 0 then none else some (roundTo 2 row.position)
      reason :=
        "Google has indexed this URL and shown it ".toList ++ ofNat row.impressions ++
          " times, but it is ".toList ++ kind.toList ++
          " rather than a page. It spends crawl budget ".toList ++
          "and competes with the real page it duplicates.".toList }

/-- `_traps`. -/
def traps (metrics : PageMetricSet) : List Item :=
  (metrics.unresolvedGsc.foldl (addTrap unicode) {}).items

/-- The words about a subdomain, by the tokens of its name. -/
def verdictOf (suspicious : List Text) : Text :=
  if suspicious.isEmpty then
    "If it is a real property, crawl it separately to audit it. ".toList ++
      "If it is not meant to be public, put it behind a password and serve noindex.".toList
  else
    "Its name (".toList ++ join ", ".toList suspicious ++
      ") suggests it was never meant to be public. ".toList ++
      "If so, put it behind a password and serve noindex — an indexed staging copy ".toList ++
      "competes with the real site for the same terms.".toList

/-- The finding about one group. -/
def subdomain (exportedClicks exportedRows : Nat) (group : UnmatchedGroup) : Opportunity :=
  let label := unicode.lower (partition '.' group.host).1
  let suspicious := nonProduction.filter fun token => containsText token label
  let share := shareOf group.clicks exportedClicks
  let rowShare := shareOf group.urls exportedRows
  { kind := .indexedSubdomain
    url := group.host
    clicks := group.clicks
    impressions := group.impressions
    referenceUrl := group.examples.head?
    severity := if criticalSubdomainClickShare ≤ max share rowShare then .critical else .routine
    reason :=
      "Google has indexed ".toList ++ ofNat group.urls ++ " URLs on ".toList ++ group.host ++
        ", a subdomain of this site that this crawl did not cover, and they take ".toList ++
        ofNatGrouped group.clicks ++ " clicks — ".toList ++ formats.percent1 share ++
        " of everything in this export. ".toList ++ verdictOf suspicious }

/-- `_subdomains`. -/
def subdomains (metrics : PageMetricSet) (exportedClicks exportedRows : Nat) : List Item :=
  ((unmatchedGroups unicode metrics).filter fun group =>
    group.reason = .otherSubdomain && !group.host.isEmpty).map fun group =>
      (group.clicks, subdomain unicode formats exportedClicks exportedRows group)

/-- The measured pages by their trail. -/
def bySection (entries : Measured) : Dict (List Text) Measured :=
  entries.foldl (fun sections entry =>
    sections.alter (trailOf entry.1) [] fun members => members ++ [entry]) Table.empty

/-- `gsc.ctr`. -/
def ctr (gsc : GscPageMetrics) : ℚ := shareOf gsc.clicks gsc.impressions

/-- A page draws impressions and ranks off page one, with fewer clicks than its section. -/
def underperforms (minImpressions : ℤ) (sectionCtr : ℚ) (gsc : GscPageMetrics) : Bool :=
  minImpressions ≤ (gsc.impressions : ℤ) && strikingBand.1 ≤ gsc.position &&
    gsc.position ≤ strikingBand.2 && ctr gsc < sectionCtr

/-- The findings of one section. -/
def siblingsOf (minImpressions : ℤ) (reported : List Text) (sitePages : Nat)
    (path : List Text) (members : Measured) : List Item :=
  if members.length < 2 then []
  else
    let topical := members.filter fun entry =>
      (entry.1.inboundInternalLinksCount : ℚ) ≤ sitePages * sitewideLinkShare
    match topical.argmax fun entry => entry.1.inboundInternalLinksCount with
    | none => []
    | some hub =>
      if hub.1.inboundInternalLinksCount = 0 then []
      else
        let sectionCtr := shareOf (members.map fun entry => entry.2.clicks).sum
          (members.map fun entry => entry.2.impressions).sum
        (members.filter fun entry =>
          !(entry.1.url = hub.1.url || reported.any fun url => url = entry.1.url) &&
            underperforms minImpressions sectionCtr entry.2).map fun entry =>
          (entry.2.impressions, opportunity .underperformingSibling entry.1 entry.2
            ("Shown ".toList ++ ofNat entry.2.impressions ++
              " times but averaging position ".toList ++ formats.fixed1 entry.2.position ++
              ", while a sibling in ".toList ++ arrows path ++ " carries ".toList ++
              ofNat hub.1.inboundInternalLinksCount ++
              " internal links. Check whether that page links here.".toList) (some hub.1.url))

/-- `_siblings`. -/
def siblings (entries : Measured) (minImpressions : ℤ) (reported : List Text) (sitePages : Nat) :
    List Item :=
  (bySection entries).rows.flatMap fun entry =>
    siblingsOf formats minImpressions reported sitePages entry.1 entry.2

end Finders

end Rankuno.Opportunities
