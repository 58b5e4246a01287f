import Mathlib.Logic.Function.Basic
import Rankuno.SiteCrawl.ResumeChain

/-!
# What discovery reports of a crawl

`discover_site` on its serial path, one turn of a loop at a time: sitemaps and
the CMS name URLs, the walk queues the root and the seeds, and every URL that
leaves the frontier is capped, skipped, excluded, missed or fetched, each with a
counter of its own. Nodes remember which paths surfaced them. The report puts
the counters beside the nodes that no link names.
-/

namespace Rankuno

/-- Which paths surfaced a node. -/
structure DiscoverySource where
  sitemap : Bool := false
  domLink : Bool := false
  cmsApi : Bool := false
  deriving DecidableEq

def DiscoverySource.merge (a b : DiscoverySource) : DiscoverySource :=
  ⟨a.sitemap || b.sitemap, a.domLink || b.domLink, a.cmsApi || b.cmsApi⟩

namespace DiscoverySource

def ofSitemap : DiscoverySource := { sitemap := true }

def ofCms : DiscoverySource := { cmsApi := true }

def ofLink : DiscoverySource := { domLink := true }

def sitemapOnly (s : DiscoverySource) : Bool := s.sitemap && !s.domLink

/-- In the CMS, in no sitemap, and linked from nowhere. -/
def cmsOnlyUnlinked (s : DiscoverySource) : Bool := s.cmsApi && !s.sitemap && !s.domLink

end DiscoverySource

/-- What a report can say of a URL. -/
inductive GapClass where
  | fetched
  | notRetrieved
  | facetedSkipped
  | resumeExcluded
  | depthCapped
  | sitemapOnly
  | cmsOnlyUnlinked
  deriving DecidableEq

structure GapCounters where
  pagesFetched : Nat := 0
  pagesNotRetrieved : Nat := 0
  facetedSkipped : Nat := 0
  resumeExcluded : Nat := 0
  depthCapped : Nat := 0
  deriving DecidableEq

def GapCounters.total (c : GapCounters) : Nat :=
  c.pagesFetched + c.pagesNotRetrieved + c.facetedSkipped + c.resumeExcluded + c.depthCapped

structure DiscoveryReport where
  totalUrls : Nat
  sitemapOnly : Nat
  cmsOnlyUnlinked : Nat
  counters : GapCounters
  abandonedInFlight : Nat
  deriving DecidableEq

/-- `unaccounted`. -/
def DiscoveryReport.unaccounted (r : DiscoveryReport) : Int :=
  (r.totalUrls : Int) - r.counters.pagesFetched - r.counters.pagesNotRetrieved - r.sitemapOnly -
    r.cmsOnlyUnlinked - r.counters.facetedSkipped - r.counters.resumeExcluded -
    r.counters.depthCapped - r.abandonedInFlight

/-- `discover_site` in the middle of its work. -/
structure DiscoveryRun (rules : UrlRules) where
  graph : SiteGraph rules := {}
  /-- The sources of the nodes, by key. -/
  sources : String → DiscoverySource := fun _ => {}
  counters : GapCounters := {}
  walking : Bool := false
  /-- The seeds not queued yet. -/
  seeds : List String := []
  frontier : List (String × Nat) := []
  seen : List String := []
  /-- The links of the page just stored that `record_links` has yet to look at,
  those it has recorded, and the depth of the page. -/
  links : List String := []
  recorded : List String := []
  depth : Nat := 0
  /-- What became of each key taken from the frontier. Nothing reads this. -/
  visits : List (String × GapClass) := []
  /-- The keys of the seeds the graph refused. Nothing reads this either. -/
  refusedSeeds : List String := []

inductive DiscoveryEvent where
  /-- A sitemap names a URL. -/
  | sitemap (url : String)
  /-- The CMS names a URL. -/
  | cms (url : String)
  | walk
  /-- The next seed. -/
  | seed
  /-- The next URL of the frontier; the answer counts only if it is requested. -/
  | visit (answer : Option PageAnswer)
  /-- The next link of the page. -/
  | record
  /-- The next recorded target. -/
  | queue
  deriving DecidableEq

namespace DiscoveryRun

variable {rules : UrlRules}

/-- The graph has a node under this key. -/
def HasNode (s : DiscoveryRun rules) (key : String) : Prop := (s.graph.nodes.find? key).isSome

instance (s : DiscoveryRun rules) (key : String) : Decidable (s.HasNode key) :=
  inferInstanceAs (Decidable (_ = true))

/-- `add`: a node that is new has no source but this one. -/
def add (settings : CrawlSettings) (source : DiscoverySource) (url : String)
    (s : DiscoveryRun rules) : DiscoveryRun rules × Bool :=
  let added := s.graph.add settings source.domLink url
  let key := rules.normalizeUrl url
  let before := if s.HasNode key then s.sources key else {}
  ({ s with
      graph := added.1
      sources :=
        if added.2 then Function.update s.sources key (before.merge source) else s.sources },
    added.2)

/-- The beginning of `_crawl_dom`. -/
def walk (settings : CrawlSettings) (s : DiscoveryRun rules) : DiscoveryRun rules :=
  let root := (s.add settings .ofLink settings.baseUrl).1
  { root with
    walking := true
    frontier := [(settings.baseUrl, 0)]
    seen := [rules.normalizeUrl settings.baseUrl]
    seeds := settings.seedUrls }

/-- One turn of the loop over the seeds. -/
def queueSeed (settings : CrawlSettings) (s : DiscoveryRun rules) (seed : String)
    (seeds : List String) : DiscoveryRun rules :=
  let key := rules.normalizeUrl seed
  if key ∈ s.seen then { s with seeds }
  else
    let added := s.add settings .ofLink seed
    if added.2 then
      { added.1 with seeds, seen := key :: s.seen, frontier := s.frontier ++ [(seed, 0)] }
    else { added.1 with seeds, seen := key :: s.seen, refusedSeeds := key :: s.refusedSeeds }

/-- A URL leaves the frontier. -/
def leave (s : DiscoveryRun rules) (url : String) (frontier : List (String × Nat))
    (outcome : GapClass) (counters : GapCounters) : DiscoveryRun rules :=
  { s with
    frontier
    counters
    visits := s.visits ++ [(rules.normalizeUrl url, outcome)] }

/-- One turn of the loop over the frontier, up to the links of the page. -/
def visit (settings : CrawlSettings) (s : DiscoveryRun rules) (url : String) (depth : Nat)
    (frontier : List (String × Nat)) (answer : Option PageAnswer) : DiscoveryRun rules :=
  let counters := s.counters
  if ∃ limit ∈ settings.maxDepth, limit < depth then
    s.leave url frontier .depthCapped { counters with depthCapped := counters.depthCapped + 1 }
  else if rules.isFacetedFilter url then
    s.leave url frontier .facetedSkipped
      { counters with facetedSkipped := counters.facetedSkipped + 1 }
  else if rules.normalizeUrl url ∈ SiteCrawl.excluded rules settings then
    s.leave url frontier .resumeExcluded
      { counters with resumeExcluded := counters.resumeExcluded + 1 }
  else
    match answer with
    | none =>
      s.leave url frontier .notRetrieved
        { counters with pagesNotRetrieved := counters.pagesNotRetrieved + 1 }
    | some page =>
      let s := s.leave url frontier .fetched
        { counters with pagesFetched := counters.pagesFetched + 1 }
      { s with
        graph := s.graph.storeHtml url
        links := page.links.take maxLinksPerPage
        depth }

/-- One turn of the loop of `record_links`. -/
def record (settings : CrawlSettings) (s : DiscoveryRun rules) (target : String)
    (links : List String) : DiscoveryRun rules :=
  let added := s.add settings .ofLink target
  if added.2 then { added.1 with links, recorded := s.recorded ++ [target] }
  else { added.1 with links }

/-- One turn of the loop over the recorded targets. -/
def queue (s : DiscoveryRun rules) (target : String) (recorded : List String) :
    DiscoveryRun rules :=
  let key := rules.normalizeUrl target
  if key ∈ s.seen then { s with recorded }
  else
    { s with
      recorded
      seen := key :: s.seen
      frontier := s.frontier ++ [(target, s.depth + 1)] }

/-- The loops run one after the other: sitemaps and the CMS, the seeds, and for
each URL of the frontier the links of its page and then the targets recorded. -/
def step (settings : CrawlSettings) (s : DiscoveryRun rules) :
    DiscoveryEvent → Option (DiscoveryRun rules)
  | .sitemap url => if s.walking then none else some (s.add settings .ofSitemap url).1
  | .cms url => if s.walking then none else some (s.add settings .ofCms url).1
  | .walk => if s.walking then none else some (s.walk settings)
  | .seed =>
    match s.seeds with
    | [] => none
    | seed :: seeds => some (s.queueSeed settings seed seeds)
  | .visit answer =>
    match s.seeds, s.links, s.recorded, s.frontier with
    | [], [], [], (url, depth) :: frontier => some (s.visit settings url depth frontier answer)
    | _, _, _, _ => none
  | .record =>
    match s.links with
    | [] => none
    | target :: links => some (s.record settings target links)
  | .queue =>
    match s.links, s.recorded with
    | [], target :: recorded => some (s.queue target recorded)
    | _, _ => none

def machine (rules : UrlRules) (settings : CrawlSettings) :
    Machine (DiscoveryRun rules) DiscoveryEvent := ⟨step settings⟩

/-- No loop has a turn left: the walk is over, or was never begun. -/
def Completed (s : DiscoveryRun rules) : Prop :=
  s.seeds = [] ∧ s.frontier = [] ∧ s.links = [] ∧ s.recorded = []

instance (s : DiscoveryRun rules) : Decidable s.Completed :=
  inferInstanceAs (Decidable (_ ∧ _ ∧ _ ∧ _))

/-- `report`, as far as `unaccounted` reads it. -/
def report (s : DiscoveryRun rules) : DiscoveryReport where
  totalUrls := s.graph.nodes.rows.length
  sitemapOnly := (s.graph.nodes.rows.filter fun url =>
    (s.sources (rules.normalizeUrl url)).sitemapOnly).length
  cmsOnlyUnlinked := (s.graph.nodes.rows.filter fun url =>
    (s.sources (rules.normalizeUrl url)).cmsOnlyUnlinked).length
  counters := s.counters
  abandonedInFlight := 0

end DiscoveryRun

end Rankuno
