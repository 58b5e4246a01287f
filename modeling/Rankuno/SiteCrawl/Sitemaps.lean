import Rankuno.Foundation.BreadthFirst
import Rankuno.SiteCrawl.Graph
import Rankuno.UrlKeys.Hosts

/-!
# Sitemap discovery

Path A of a discovery. The seeds are two hardcoded probes, the sitemaps that
`robots.txt` names and those the homepage links to; an index leads to further files.
The serial path takes one file at a time from a queue, the concurrent one a whole
round of files. What the site answers is a parameter, with every file parsed.

Both paths visit the files breadth first. Where they part is the last section.
-/

namespace Rankuno

open BreadthFirst Python Python.Text UrlKeys

def maxSitemapFetchAttempts : Nat := 100

inductive SitemapKind
  | index
  | urlset
  | unknown
  deriving DecidableEq

/-- `SitemapDocument`. -/
structure SitemapDocument where
  kind : SitemapKind
  locations : List String
  nodup : locations.Nodup
  deriving DecidableEq

/-- What a request for a sitemap file comes to: no answer, a status that is no 2xx, or
the file, as `parse_sitemap` reads it. -/
inductive SitemapAnswer
  | failed
  | declined (status : Nat)
  | retrieved (document : SitemapDocument)
  deriving DecidableEq

/-- `is_refusal`. -/
def isRefusal (status : Nat) : Bool := status ∈ [401, 403, 407, 429] || 500 ≤ status

/-- The site as sitemap discovery meets it. -/
structure SitemapSite where
  /-- `robots.sitemaps`. -/
  robots : List String
  /-- `_homepage_sitemap_links`. -/
  homepage : List String
  answer : String → SitemapAnswer

/-- The files that a file leads to. -/
def SitemapSite.children (site : SitemapSite) (url : String) : List String :=
  match site.answer url with
  | .retrieved ⟨.index, locations, _⟩ => locations
  | _ => []

section Seeds

variable (unicode : HostData)

/-- `_registrable_host`. -/
def registrableHost (url : String) : Text :=
  match safeSplit unicode.toUnicodeData url.toList with
  | none => []
  | some parts => registrableDomain unicode (siteHost unicode.toUnicodeData parts.netloc)

/-- The candidate is let through: it has the registrable host of the site. -/
def onHost (baseRegistrable : Text) (candidate : String) : Bool :=
  baseRegistrable ≠ [] && registrableHost unicode candidate = baseRegistrable

/-- `_filter_same_host_sitemaps`, and how many it dropped. -/
def filterSameHostSitemaps (candidates : List String) (baseRegistrable : Text) :
    List String × Nat :=
  (candidates.filter (onHost unicode baseRegistrable),
    candidates.countP fun candidate => !onHost unicode baseRegistrable candidate)

/-- The hardcoded probes. -/
def sitemapProbes (baseUrl : String) : List String :=
  let root := String.ofList (rstrip (fun c => c = '/') baseUrl.toList)
  [root ++ "/sitemap_index.xml", root ++ "/sitemap.xml"]

/-- `_sitemap_seeds`, and `sitemap_offhost_skipped` after it. -/
def sitemapSeeds (baseUrl : String) (site : SitemapSite) : List String × Nat :=
  let baseRegistrable := registrableHost unicode baseUrl
  let robots := filterSameHostSitemaps unicode site.robots baseRegistrable
  let homepage := filterSameHostSitemaps unicode site.homepage baseRegistrable
  (sitemapProbes baseUrl ++ robots.1 ++ homepage.1, robots.2 + homepage.2)

end Seeds

/-- What Path A counts, the graph it adds to, and the files it asked for. -/
structure SitemapWalk (rules : UrlRules) where
  graph : SiteGraph rules
  requested : List String := []
  attempts : Nat := 0
  refused : Nat := 0
  parsed : Nat := 0
  offhostSkipped : Nat := 0

namespace SitemapWalk

variable {rules : UrlRules} (settings : CrawlSettings) (site : SitemapSite)

def request (s : SitemapWalk rules) (url : String) : SitemapWalk rules :=
  { s with requested := s.requested ++ [url], attempts := s.attempts + 1 }

/-- What is done with the answer, but for the files it leads to. -/
def record (s : SitemapWalk rules) (url : String) : SitemapWalk rules :=
  match site.answer url with
  | .failed => s
  | .declined status => if isRefusal status then { s with refused := s.refused + 1 } else s
  | .retrieved ⟨.unknown, _, _⟩ => s
  | .retrieved ⟨.index, _, _⟩ => { s with parsed := s.parsed + 1 }
  | .retrieved ⟨.urlset, locations, _⟩ =>
    { s with
      parsed := s.parsed + 1
      graph := locations.foldl (fun g location => (g.add settings false location).1) s.graph }

/-- The loop of `_discover_from_sitemaps`: `remaining` attempts are left. Files
that were visited are passed over. -/
def drain : Nat → List String → List String → SitemapWalk rules → SitemapWalk rules
  | 0, _, _, s => s
  | remaining + 1, visited, pending, s =>
    match pending.dropWhile fun url => url ∈ visited with
    | [] => s
    | url :: rest =>
      drain remaining (url :: visited)
        (rest ++ (site.children url).filter fun loc => loc ∉ url :: visited)
        ((s.request url).record settings site url)

/-- The loop of `_asitemaps`: `remaining` attempts are left. A round is what is
pending and was not visited before it, cut to what remains. -/
def rounds (remaining : Nat) (visited pending : List String) (s : SitemapWalk rules) :
    SitemapWalk rules :=
  let batch := pending.filter fun url => url ∉ visited
  if remaining = 0 ∨ batch = [] then s
  else
    let cut := batch.take remaining
    let asked := cut.foldl request s
    rounds (remaining - batch.length) (batch ++ visited)
      ((cut.flatMap site.children).filter fun loc => loc ∉ batch ++ visited)
      (cut.foldl (fun s url => s.record settings site url) asked)
termination_by remaining
decreasing_by
  rename_i goesOn
  exact Nat.sub_lt (Nat.pos_of_ne_zero (not_or.mp goesOn).1)
    (List.length_pos_of_ne_nil (not_or.mp goesOn).2)

end SitemapWalk

section Paths

variable {rules : UrlRules} (unicode : HostData) (settings : CrawlSettings) (site : SitemapSite)
  (g : SiteGraph rules)

/-- `_discover_from_sitemaps`. -/
def discoverFromSitemaps : SitemapWalk rules :=
  let seeds := sitemapSeeds unicode settings.baseUrl site
  SitemapWalk.drain settings site maxSitemapFetchAttempts [] seeds.1
    { graph := g, offhostSkipped := seeds.2 }

/-- `_asitemaps`. -/
def asitemaps : SitemapWalk rules :=
  let seeds := sitemapSeeds unicode settings.baseUrl site
  SitemapWalk.rounds settings site maxSitemapFetchAttempts [] seeds.1
    { graph := g, offhostSkipped := seeds.2 }

/-- The sitemap files that are declared, breadth first and as often as they are. -/
def declaredSitemaps : List String :=
  levels site.children maxSitemapFetchAttempts []
    (sitemapSeeds unicode settings.baseUrl site).1

/-- Both paths ask for the same files, each once and within the budget, count the same
and leave the same nodes. -/
structure SitemapPathsAgree (serial concurrent : SitemapWalk rules) : Prop where
  requests : ∀ url, url ∈ serial.requested ↔ url ∈ concurrent.requested
  serialOnce : serial.requested.Nodup
  concurrentOnce : concurrent.requested.Nodup
  serialBounded : serial.requested.length ≤ maxSitemapFetchAttempts
  concurrentBounded : concurrent.requested.length ≤ maxSitemapFetchAttempts
  attempts : serial.attempts = concurrent.attempts
  refused : serial.refused = concurrent.refused
  parsed : serial.parsed = concurrent.parsed
  nodes : ∀ url, url ∈ serial.graph.allUrls ↔ url ∈ concurrent.graph.allUrls

/-- The walk asked for files of the site alone, and counted every other one that was
declared to it. -/
structure StaysOnSite (s : SitemapWalk rules) : Prop where
  asked : ∀ url ∈ s.requested,
    registrableHost unicode url = registrableHost unicode settings.baseUrl
  counted : s.offhostSkipped =
    (site.robots ++ site.homepage ++ s.requested.flatMap site.children).countP fun url =>
      registrableHost unicode url ≠ registrableHost unicode settings.baseUrl

/-- The probes are on the site, and no index within the budget names a file that is
not. -/
structure DeclaresOnSite : Prop where
  probes : ∀ url ∈ sitemapProbes settings.baseUrl,
    registrableHost unicode url = registrableHost unicode settings.baseUrl
  indexes : ∀ url ∈ (fresh [] (declaredSitemaps unicode settings site)).take
    maxSitemapFetchAttempts, ∀ loc ∈ site.children url,
      registrableHost unicode loc = registrableHost unicode settings.baseUrl

end Paths

namespace SitemapWalk

variable {rules : UrlRules} {settings : CrawlSettings} {site : SitemapSite} {s : SitemapWalk rules}
  {n : Nat} {visited pending urls : List String} {url : String}

/-- A request and what is done with its answer. -/
def visit (settings : CrawlSettings) (site : SitemapSite) (s : SitemapWalk rules) (url : String) :
    SitemapWalk rules :=
  (s.request url).record settings site url

theorem record_request (other : String) :
    (s.request other).record settings site url = (s.record settings site url).request other := by
  rw [record, record]
  cases site.answer url with
  | failed => rfl
  | declined status =>
    simp only
    split <;> rfl
  | retrieved document =>
    obtain ⟨kind, locations, nodup⟩ := document
    cases kind <;> rfl

theorem record_foldl_request : (urls.foldl request s).record settings site url =
    urls.foldl request (s.record settings site url) := by
  induction urls generalizing s with
  | nil => rfl
  | cons other urls ih => rw [List.foldl_cons, List.foldl_cons, ih, record_request]

theorem foldl_record_foldl_request :
    urls.foldl (fun s url => s.record settings site url) (urls.foldl request s) =
      urls.foldl (visit settings site) s := by
  induction urls generalizing s with
  | nil => rfl
  | cons url urls ih =>
    rw [List.foldl_cons, List.foldl_cons, List.foldl_cons, record_foldl_request, ih]
    rfl

theorem drain_eq : drain settings site n visited pending s =
    (queue site.children n visited pending).foldl (visit settings site) s := by
  induction n generalizing visited pending s with
  | zero => rfl
  | succ n ih =>
    rw [drain, queue]
    cases pending.dropWhile fun url => url ∈ visited with
    | nil => rfl
    | cons url rest => exact ih

theorem rounds_eq (n : Nat) (visited pending : List String) (s : SitemapWalk rules) :
    rounds settings site n visited pending s =
      (BreadthFirst.rounds site.children n visited pending).foldl (visit settings site) s := by
  induction n using Nat.strongRecOn generalizing visited pending s with
  | ind n ih =>
    rw [rounds, BreadthFirst.rounds]
    split
    · rfl
    · next goesOn =>
      simp only [foldl_record_foldl_request, List.foldl_append]
      exact ih _ (Nat.sub_lt (Nat.pos_of_ne_zero (not_or.mp goesOn).1)
        (List.length_pos_of_ne_nil (not_or.mp goesOn).2)) _ _ _

theorem of_record (settings : CrawlSettings) (site : SitemapSite) (s : SitemapWalk rules)
    (url : String) : (s.record settings site url).requested = s.requested ∧
    (s.record settings site url).attempts = s.attempts ∧
      (s.record settings site url).offhostSkipped = s.offhostSkipped := by
  rw [record]
  cases site.answer url with
  | failed => exact ⟨rfl, rfl, rfl⟩
  | declined status =>
    simp only
    split <;> exact ⟨rfl, rfl, rfl⟩
  | retrieved document =>
    obtain ⟨kind, locations, nodup⟩ := document
    cases kind <;> exact ⟨rfl, rfl, rfl⟩

theorem of_foldl_visit (settings : CrawlSettings) (site : SitemapSite) (s : SitemapWalk rules)
    (urls : List String) : (urls.foldl (visit settings site) s).requested = s.requested ++ urls ∧
    (urls.foldl (visit settings site) s).offhostSkipped = s.offhostSkipped := by
  induction urls generalizing s with
  | nil => exact ⟨(List.append_nil _).symm, rfl⟩
  | cons url urls ih =>
    obtain ⟨requested, -, skipped⟩ := of_record settings site (s.request url) url
    rw [List.foldl_cons, (ih _).1, (ih _).2, visit, requested, skipped, request, List.append_assoc]
    exact ⟨rfl, rfl⟩

end SitemapWalk

section Agreement

variable {rules : UrlRules} {unicode : HostData} {settings : CrawlSettings} {site : SitemapSite}
  {g : SiteGraph rules}

/-- What Path A starts with. -/
def SitemapWalk.start (unicode : HostData) (settings : CrawlSettings) (site : SitemapSite)
    (g : SiteGraph rules) : SitemapWalk rules :=
  { graph := g, offhostSkipped := (sitemapSeeds unicode settings.baseUrl site).2 }

theorem discoverFromSitemaps_eq : discoverFromSitemaps unicode settings site g =
    ((fresh [] (declaredSitemaps unicode settings site)).take maxSitemapFetchAttempts).foldl
      (SitemapWalk.visit settings site) (.start unicode settings site g) := by
  rw [discoverFromSitemaps, SitemapWalk.drain_eq, declaredSitemaps,
    ← queue_eq (fun _ _ => List.not_mem_nil) (Nat.le_refl _)]
  rfl

theorem asitemaps_eq : asitemaps unicode settings site g =
    ((declaredSitemaps unicode settings site).take maxSitemapFetchAttempts).foldl
      (SitemapWalk.visit settings site) (.start unicode settings site g) := by
  rw [asitemaps, SitemapWalk.rounds_eq, declaredSitemaps,
    ← BreadthFirst.rounds_eq (fun _ _ => List.not_mem_nil) (Nat.le_refl _)]
  rfl

theorem requested_discoverFromSitemaps : (discoverFromSitemaps unicode settings site g).requested =
    (fresh [] (declaredSitemaps unicode settings site)).take maxSitemapFetchAttempts := by
  rw [discoverFromSitemaps_eq, (SitemapWalk.of_foldl_visit _ _ _ _).1]
  exact List.nil_append _

theorem requested_asitemaps : (asitemaps unicode settings site g).requested =
    (declaredSitemaps unicode settings site).take maxSitemapFetchAttempts := by
  rw [asitemaps_eq, (SitemapWalk.of_foldl_visit _ _ _ _).1]
  exact List.nil_append _

/-- The paths agree exactly where no file is declared twice within the budget. -/
theorem sitemapPathsAgree_iff_nodup (rules : UrlRules) (unicode : HostData)
    (settings : CrawlSettings) (site : SitemapSite) (g : SiteGraph rules) :
    SitemapPathsAgree (discoverFromSitemaps unicode settings site g)
        (asitemaps unicode settings site g) ↔
      ((declaredSitemaps unicode settings site).take maxSitemapFetchAttempts).Nodup := by
  constructor
  · intro agree
    rw [← requested_asitemaps (g := g)]
    exact agree.concurrentOnce
  · intro nodup
    have same : asitemaps unicode settings site g = discoverFromSitemaps unicode settings site g := by
      rw [asitemaps_eq, discoverFromSitemaps_eq, take_fresh nodup fun _ _ => List.not_mem_nil]
    have once : (discoverFromSitemaps unicode settings site g).requested.Nodup := by
      rw [← same, requested_asitemaps]
      exact nodup
    have bounded : (discoverFromSitemaps unicode settings site g).requested.length ≤
        maxSitemapFetchAttempts := by
      rw [requested_discoverFromSitemaps]
      exact List.length_take_le _ _
    rw [same]
    exact ⟨fun _ => Iff.rfl, once, once, bounded, bounded, rfl, rfl, rfl, fun _ => Iff.rfl⟩

end Agreement

section OnSite

variable {rules : UrlRules} {unicode : HostData} {settings : CrawlSettings} {site : SitemapSite}
  {g : SiteGraph rules}

theorem onHost_iff (named : registrableHost unicode settings.baseUrl ≠ []) (url : String) :
    onHost unicode (registrableHost unicode settings.baseUrl) url = true ↔
      registrableHost unicode url = registrableHost unicode settings.baseUrl := by
  rw [onHost, Bool.and_eq_true, decide_eq_true_eq, decide_eq_true_eq]
  exact and_iff_right named

theorem offhostSkipped_start (named : registrableHost unicode settings.baseUrl ≠ []) :
    (SitemapWalk.start unicode settings site g).offhostSkipped =
      (site.robots ++ site.homepage).countP fun url =>
        registrableHost unicode url ≠ registrableHost unicode settings.baseUrl := by
  have off : (fun url => !onHost unicode (registrableHost unicode settings.baseUrl) url) =
      fun url => decide (registrableHost unicode url ≠ registrableHost unicode settings.baseUrl) := by
    funext url
    rw [Bool.eq_iff_iff, Bool.not_eq_true', Bool.eq_false_iff, decide_eq_true_eq, Ne,
      onHost_iff named]
  rw [List.countP_append, ← off]
  rfl

theorem staysOnSite_iff (named : registrableHost unicode settings.baseUrl ≠ [])
    (urls : List String) :
    StaysOnSite unicode settings site
        (urls.foldl (SitemapWalk.visit settings site) (.start unicode settings site g)) ↔
      (∀ url ∈ urls, registrableHost unicode url = registrableHost unicode settings.baseUrl) ∧
        ∀ url ∈ urls, ∀ loc ∈ site.children url,
          registrableHost unicode loc = registrableHost unicode settings.baseUrl := by
  obtain ⟨requested, skipped⟩ :=
    SitemapWalk.of_foldl_visit settings site (.start unicode settings site g) urls
  have nested : ∀ n, (n = n + ((urls.flatMap site.children).countP fun url =>
      registrableHost unicode url ≠ registrableHost unicode settings.baseUrl) ↔
        ∀ url ∈ urls, ∀ loc ∈ site.children url,
          registrableHost unicode loc = registrableHost unicode settings.baseUrl) := by
    intro n
    rw [Nat.left_eq_add, List.countP_eq_zero]
    simp only [List.mem_flatMap, decide_eq_true_eq, not_not]
    exact ⟨fun all url mem loc leads => all loc ⟨url, mem, leads⟩,
      fun all loc ⟨url, mem, leads⟩ => all url mem loc leads⟩
  have asked : (urls.foldl (SitemapWalk.visit settings site)
      (.start unicode settings site g)).requested = urls := requested.trans (List.nil_append urls)
  constructor
  · intro stays
    have on := stays.asked
    have counted := stays.counted
    rw [asked] at on
    rw [asked, skipped, offhostSkipped_start named] at counted
    generalize site.robots ++ site.homepage = declared at counted
    rw [List.countP_append] at counted
    exact ⟨on, (nested _).mp counted⟩
  · rintro ⟨on, indexes⟩
    constructor
    · rw [asked]
      exact on
    · rw [asked, skipped, offhostSkipped_start named]
      generalize site.robots ++ site.homepage = declared
      rw [List.countP_append]
      exact (nested _).mpr indexes

theorem registrableHost_of_mem_seeds (named : registrableHost unicode settings.baseUrl ≠ [])
    (probes : ∀ url ∈ sitemapProbes settings.baseUrl,
      registrableHost unicode url = registrableHost unicode settings.baseUrl) :
    ∀ url ∈ (sitemapSeeds unicode settings.baseUrl site).1,
      registrableHost unicode url = registrableHost unicode settings.baseUrl := by
  intro url mem
  rw [sitemapSeeds, List.append_assoc] at mem
  rcases List.mem_append.mp mem with probe | declared
  · exact probes url probe
  · rcases List.mem_append.mp declared with robots | homepage
    · exact (onHost_iff named url).mp (List.mem_filter.mp robots).2
    · exact (onHost_iff named url).mp (List.mem_filter.mp homepage).2

theorem mem_visited_of_probe {url : String} (probe : url ∈ sitemapProbes settings.baseUrl) :
    url ∈ (fresh [] (declaredSitemaps unicode settings site)).take maxSitemapFetchAttempts := by
  refine mem_take_fresh ?_ List.not_mem_nil
  have first : url ∈ (sitemapProbes settings.baseUrl).take maxSitemapFetchAttempts := probe
  rw [declaredSitemaps, maxSitemapFetchAttempts, levels, sitemapSeeds]
  simp only [List.append_assoc]
  rw [List.take_append]
  exact List.mem_append_left _ first

/-- Path A stays on the site on both paths exactly where the probes are on it and no
index within the budget names a file that is not. -/
theorem staysOnSite_iff_declaresOnSite (rules : UrlRules) (unicode : HostData)
    (settings : CrawlSettings) (site : SitemapSite) (g : SiteGraph rules)
    (named : registrableHost unicode settings.baseUrl ≠ []) :
    StaysOnSite unicode settings site (discoverFromSitemaps unicode settings site g) ∧
        StaysOnSite unicode settings site (asitemaps unicode settings site g) ↔
      DeclaresOnSite unicode settings site := by
  rw [discoverFromSitemaps_eq, asitemaps_eq, staysOnSite_iff named, staysOnSite_iff named]
  constructor
  · rintro ⟨⟨asked, indexes⟩, -⟩
    exact ⟨fun url probe => asked url (mem_visited_of_probe probe), indexes⟩
  · rintro ⟨probes, indexes⟩
    have visited : (fresh [] (declaredSitemaps unicode settings site)).take
        maxSitemapFetchAttempts = queue site.children maxSitemapFetchAttempts []
          (sitemapSeeds unicode settings.baseUrl site).1 :=
      (queue_eq (fun _ _ => List.not_mem_nil) (Nat.le_refl _)).symm
    have asked : ∀ url ∈ (fresh [] (declaredSitemaps unicode settings site)).take
        maxSitemapFetchAttempts,
          registrableHost unicode url = registrableHost unicode settings.baseUrl := by
      rw [visited] at indexes ⊢
      exact forall_queue (registrableHost_of_mem_seeds named probes) indexes
    refine ⟨⟨asked, indexes⟩, fun url mem => ?_, fun url mem => ?_⟩
    · exact asked url (mem_take_fresh mem List.not_mem_nil)
    · exact indexes url (mem_take_fresh mem List.not_mem_nil)

end OnSite

section Sample

/-- The Unicode database on ASCII text. -/
def siteHosts : HostData where
  lower := Urllib.lowerAscii
  nfkc := id
  idna := .ok
  repr := fun s => ['\''] ++ s ++ ['\'']
  isDigit := isAsciiDigit

/-- What the rules answer on the addresses below. No page is added. -/
def sitemapRules : UrlRules where
  normalizeUrl := id
  isCrawlableUrl := fun _ => true
  isSpiderTrap := fun _ => false
  isMalformedUrl := fun _ => false
  isFacetedFilter := fun _ => false
  tailOf := fun _ => none

def sitemapSettings : CrawlSettings where
  baseUrl := "https://a.io/"
  maxPages := 100
  preCrawlBudget := 50

/-- `robots.txt` names the file that is probed for as well. -/
def probedAndNamed : SitemapSite where
  robots := ["https://a.io/sitemap.xml"]
  homepage := []
  answer := fun _ => .declined 404

/-- The concurrent path asks for it twice. -/
theorem asks_twice :
    (asitemaps siteHosts sitemapSettings probedAndNamed ({} : SiteGraph sitemapRules)).requested =
        ["https://a.io/sitemap_index.xml", "https://a.io/sitemap.xml", "https://a.io/sitemap.xml"] ∧
      ¬SitemapPathsAgree (discoverFromSitemaps siteHosts sitemapSettings probedAndNamed
          ({} : SiteGraph sitemapRules))
        (asitemaps siteHosts sitemapSettings probedAndNamed ({} : SiteGraph sitemapRules)) := by
  have asked : (asitemaps siteHosts sitemapSettings probedAndNamed
      ({} : SiteGraph sitemapRules)).requested =
        ["https://a.io/sitemap_index.xml", "https://a.io/sitemap.xml",
          "https://a.io/sitemap.xml"] := by
    rw [requested_asitemaps]
    decide
  refine ⟨asked, fun agree => ?_⟩
  have once := agree.concurrentOnce
  rw [asked] at once
  exact absurd once (by decide)

/-- The index of the site names a file of another one. -/
def namesAnother : SitemapSite where
  robots := []
  homepage := []
  answer url :=
    if url = "https://a.io/sitemap_index.xml" then
      .retrieved ⟨.index, ["https://b.io/pages.xml"], List.nodup_singleton _⟩
    else .declined 404

/-- That file is asked for, and not counted. -/
theorem leaves_site : (discoverFromSitemaps siteHosts sitemapSettings namesAnother
        ({} : SiteGraph sitemapRules)).requested =
      ["https://a.io/sitemap_index.xml", "https://a.io/sitemap.xml", "https://b.io/pages.xml"] ∧
      (discoverFromSitemaps siteHosts sitemapSettings namesAnother
        ({} : SiteGraph sitemapRules)).offhostSkipped = 0 ∧
      ¬StaysOnSite siteHosts sitemapSettings namesAnother
        (discoverFromSitemaps siteHosts sitemapSettings namesAnother
          ({} : SiteGraph sitemapRules)) := by
  have asked : (discoverFromSitemaps siteHosts sitemapSettings namesAnother
      ({} : SiteGraph sitemapRules)).requested =
        ["https://a.io/sitemap_index.xml", "https://a.io/sitemap.xml",
          "https://b.io/pages.xml"] := by
    decide
  refine ⟨asked, by decide, fun stays => ?_⟩
  have on := stays.asked "https://b.io/pages.xml" (by rw [asked]; decide)
  exact absurd on (by decide)

theorem staysOnSite_iff_declaresOnSite_sample :
    registrableHost siteHosts sitemapSettings.baseUrl ≠ [] ∧
      (StaysOnSite siteHosts sitemapSettings namesAnother
          (discoverFromSitemaps siteHosts sitemapSettings namesAnother
            ({} : SiteGraph sitemapRules)) ∧
          StaysOnSite siteHosts sitemapSettings namesAnother
            (asitemaps siteHosts sitemapSettings namesAnother ({} : SiteGraph sitemapRules)) ↔
        DeclaresOnSite siteHosts sitemapSettings namesAnother) :=
  have named : registrableHost siteHosts sitemapSettings.baseUrl ≠ [] := by decide
  ⟨named, staysOnSite_iff_declaresOnSite sitemapRules siteHosts sitemapSettings namesAnother {}
    named⟩

end Sample

end Rankuno
