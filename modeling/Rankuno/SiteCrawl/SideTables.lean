import Mathlib.Algebra.Order.Floor.Semiring
import Mathlib.Data.Rat.Floor
import Rankuno.SiteCrawl.Discovery
import Rankuno.SiteCrawl.LoopWatching

/-!
# The tables beside the nodes of a site graph

`SiteGraph` keeps what it read of a page's body outside the page's node: the body
itself, its breadcrumb labels, its schema.org types, and whether it was read at
all, each under the key of the page. A confirmed loop takes its members out of all
of them. A body may land after that. `store_html` then has no node to read for, and
files the body all the same.
-/

namespace Rankuno

open Python

def maxBreadcrumbLabelChars : Nat := 256

/-- What a graph has read out of a page, or out of the answer to a request for one.
A reading of a body may raise. -/
structure PageReader (Trail Facts Result : Type) where
  extractBreadcrumb : Text → String → Option Trail
  sectionLabels : Trail → String → String → List Text
  breadcrumbParentUrl : Trail → String → Option String
  extractSchemaTypes : Text → Option (List Text)
  /-- The facts of a page that was never requested. -/
  unrequested : Facts
  /-- `record_fetch`, as far as it rewrites the facts of a node. -/
  learned : String → Result → Facts → Facts

/-- What a graph is created with. -/
structure GraphInput where
  baseUrl : String
  maxPages : Nat
  domReserveFraction : ℚ := 1 / 5
  urlFilter : Option (String → Bool) := none
  releaseBodies : Bool := false
  maxPages_pos : 0 < maxPages

namespace GraphInput

variable (input : GraphInput)

def domReserve : Nat := ⌊(input.maxPages : ℚ) * max 0 (min input.domReserveFraction (9 / 10))⌋₊

def preCrawlBudget : Nat := max 1 (input.maxPages - input.domReserve)

/-- The graph's own part of what a crawl is started with. -/
def settings : CrawlSettings where
  baseUrl := input.baseUrl
  maxPages := input.maxPages
  preCrawlBudget := input.preCrawlBudget
  urlFilter := input.urlFilter

theorem preCrawlBudget_le : input.preCrawlBudget ≤ input.maxPages :=
  Nat.max_le.mpr ⟨input.maxPages_pos, Nat.sub_le _ _⟩

end GraphInput

structure DiscoveredNode (Record Facts : Type) where
  url : String
  sources : DiscoverySource := {}
  sitemapSource : Option String := none
  cmsRecord : Option Record := none
  inboundLinks : Nat := 0
  outboundLinks : Nat := 0
  depth : Option Nat := none
  bodyLinkCount : Option Nat := none
  breadcrumbParentUrl : Option String := none
  uniqueContentInlinks : Option Nat := some 0
  facts : Facts

/-- The arguments of `add`. -/
structure Sighting (Record : Type) where
  url : String
  sources : DiscoverySource := {}
  sitemapSource : Option String := none
  cmsRecord : Option Record := none
  depth : Option Nat := none

/-- What became of a page, for the statements below: no operation reads it. -/
inductive PageEvent where
  | admitted (key : String)
  | stored (key : String) (html : Text)
  deriving DecidableEq

/-- The body stored last under a key since its node was last admitted. The events
come last first. -/
def lastBody : List PageEvent → String → Option Text
  | [], _ => none
  | .admitted admitted :: events, key => if admitted = key then none else lastBody events key
  | .stored stored html :: events, key => if stored = key then some html else lastBody events key

/-- A change to what is known of a page. The page stays the one it is. -/
structure NodeChange (Record Facts : Type) where
  apply : DiscoveredNode Record Facts → DiscoveredNode Record Facts
  url_apply : ∀ node, (apply node).url = node.url

namespace NodeChange

variable {Record Facts : Type}

/-- The end of `add`: what a sighting adds. -/
def seen (s : Sighting Record) : NodeChange Record Facts where
  apply node :=
    { node with
      sources := node.sources.merge s.sources
      sitemapSource :=
        if (s.sitemapSource.any (· ≠ "")) && !node.sitemapSource.any (· ≠ "") then s.sitemapSource
        else node.sitemapSource
      cmsRecord := node.cmsRecord.or s.cmsRecord
      depth := match s.depth, node.depth with
        | none, known => known
        | some depth, none => some depth
        | some depth, some known => some (min depth known) }
  url_apply _ := rfl

/-- A page links to this one, from its body region or from elsewhere. -/
def linked (inBody : Bool) : NodeChange Record Facts where
  apply node :=
    { node with
      inboundLinks := node.inboundLinks + 1
      uniqueContentInlinks :=
        if inBody then some (node.uniqueContentInlinks.getD 0 + 1) else node.uniqueContentInlinks }
  url_apply _ := rfl

/-- The page carries these links. -/
def linking (toUrls bodyUrls : List String) : NodeChange Record Facts where
  apply node :=
    { node with
      outboundLinks := node.outboundLinks + toUrls.length
      bodyLinkCount := some bodyUrls.length }
  url_apply _ := rfl

/-- A request for the page was answered. -/
def fetched {Trail Result : Type} (reader : PageReader Trail Facts Result) (url : String)
    (result : Result) : NodeChange Record Facts where
  apply node := { node with facts := reader.learned url result node.facts }
  url_apply _ := rfl

/-- `node.breadcrumb_parent_url = parent`. -/
def parent (parent : String) : NodeChange Record Facts where
  apply node := { node with breadcrumbParentUrl := some parent }
  url_apply _ := rfl

end NodeChange

/-- `SiteGraph`, with its tables. -/
structure PageGraph (rules : UrlRules) (Record Facts : Type) where
  nodes : Table String (fun node : DiscoveredNode Record Facts => rules.normalizeUrl node.url) :=
    .empty
  html : Dict String Text := .empty
  fetched : List String := []
  breadcrumbs : Dict String (List Text) := .empty
  jsonldTypes : Dict String (List Text) := .empty
  loops : LoopWatcher := {}
  history : List PageEvent := []

/-- What `to_page_evidence` takes from a page's body. -/
structure BodyEvidence where
  html : Option Text := none
  breadcrumbPath : List Text := []
  jsonldTypes : List Text := []
  breadcrumbParentUrl : Option String := none
  deriving DecidableEq

namespace PageGraph

variable {rules : UrlRules} {Trail Record Facts Result : Type}

/-- Change the node with a key, where there is one. -/
def changeNode (g : PageGraph rules Record Facts) (key : String)
    (change : NodeChange Record Facts) : PageGraph rules Record Facts :=
  { g with
    nodes := g.nodes.update (fun node => rules.normalizeUrl node.url = key) change.apply
      fun node => congrArg rules.normalizeUrl (change.url_apply node) }

def see (g : PageGraph rules Record Facts) (s : Sighting Record) : PageGraph rules Record Facts :=
  g.changeNode (rules.normalizeUrl s.url) (.seen s)

/-- Take out the members of a loop that was just confirmed. -/
def evict (g : PageGraph rules Record Facts) (keys : List String) : PageGraph rules Record Facts :=
  { g with
    nodes := g.nodes.delete fun node => keys.contains (rules.normalizeUrl node.url)
    html := g.html.delete fun row => keys.contains row.1
    fetched := g.fetched.filter fun key => !keys.contains key
    breadcrumbs := g.breadcrumbs.delete fun row => keys.contains row.1
    jsonldTypes := g.jsonldTypes.delete fun row => keys.contains row.1 }

/-- The end of `add`: a page there is learns where it was seen, a new one needs room. -/
def insertNode (reader : PageReader Trail Facts Result) (input : GraphInput)
    (g : PageGraph rules Record Facts) (s : Sighting Record) :
    PageGraph rules Record Facts × Bool :=
  match g.nodes.insert? { url := s.url, facts := reader.unrequested } with
  | none => (g.see s, true)
  | some nodes =>
    if input.settings.limit s.sources.domLink ≤ g.nodes.rows.length then (g, false)
    else
      let g := { g with nodes, history := .admitted (rules.normalizeUrl s.url) :: g.history }
      (g.see s, true)

/-- `add`: the graph after it, and whether it has a node for the page. -/
def add (reader : PageReader Trail Facts Result) (input : GraphInput)
    (g : PageGraph rules Record Facts) (s : Sighting Record) :
    PageGraph rules Record Facts × Bool :=
  if s.url = input.baseUrl then g.insertNode reader input s
  else if !rules.isCrawlableUrl s.url || rules.isSpiderTrap s.url || rules.isMalformedUrl s.url then
    (g, false)
  else
    let verdict := g.loops.observe (rules.tailOf s.url) (rules.normalizeUrl s.url)
    let g := { g.evict verdict.evict with loops := verdict.watcher }
    if verdict.refuse then (g, false)
    else if input.urlFilter.any fun accepts => !accepts s.url then (g, false)
    else g.insertNode reader input s

/-- The loop of `record_links`. -/
def recordTargets (reader : PageReader Trail Facts Result) (input : GraphInput) (depth : Nat)
    (inBody : List String) (g : PageGraph rules Record Facts) :
    List String → PageGraph rules Record Facts × List String
  | [] => (g, [])
  | target :: targets =>
    let added := g.add reader input
      { url := target, sources := .ofLink, depth := some (depth + 1) }
    if added.2 then
      let counted :=
        added.1.changeNode (rules.normalizeUrl target) (.linked (inBody.contains target))
      let rest := recordTargets reader input depth inBody counted targets
      (rest.1, target :: rest.2)
    else recordTargets reader input depth inBody added.1 targets

/-- `record_links`: the graph, and the targets it has a node for. -/
def recordLinks (reader : PageReader Trail Facts Result) (input : GraphInput)
    (g : PageGraph rules Record Facts) (fromUrl : String) (toUrls : List String) (depth : Nat)
    (bodyUrls : List String) : PageGraph rules Record Facts × List String :=
  let source := g.changeNode (rules.normalizeUrl fromUrl) (.linking toUrls bodyUrls)
  source.recordTargets reader input depth bodyUrls toUrls

/-- `record_fetch`. -/
def recordFetch (reader : PageReader Trail Facts Result) (g : PageGraph rules Record Facts)
    (url : String) (result : Result) : PageGraph rules Record Facts :=
  g.changeNode (rules.normalizeUrl url) (.fetched reader url result)

/-- The body of the page with this key is let go once it was read. -/
def releases (rules : UrlRules) (input : GraphInput) (key : String) : Bool :=
  input.releaseBodies && key ≠ rules.normalizeUrl input.baseUrl

/-- The beginning of `store_html`: the page is read, and what was read of it before
is forgotten. -/
def markFetched (input : GraphInput) (g : PageGraph rules Record Facts) (key : String)
    (html : Text) : PageGraph rules Record Facts :=
  { g with
    html := if releases rules input key then g.html.delete fun row => row.1 = key
      else g.html.put (key, html)
    fetched := g.fetched.insert key
    breadcrumbs := g.breadcrumbs.delete fun row => row.1 = key
    jsonldTypes := g.jsonldTypes.delete fun row => row.1 = key
    history := .stored key html :: g.history }

/-- The trail of a body with one is kept, and the page above on it. -/
def keepTrail (reader : PageReader Trail Facts Result) (input : GraphInput)
    (g : PageGraph rules Record Facts) (key url : String) (trail : Trail) :
    PageGraph rules Record Facts :=
  let labels := reader.sectionLabels trail input.baseUrl url
  let g := if labels = [] then g
    else { g with
      breadcrumbs := g.breadcrumbs.put (key, labels.map fun label =>
        label.take maxBreadcrumbLabelChars) }
  g.changeNode key (.parent ((reader.breadcrumbParentUrl trail url).getD ""))

def keepTypes (g : PageGraph rules Record Facts) (key : String) (types : List Text) :
    PageGraph rules Record Facts :=
  if types = [] then g else { g with jsonldTypes := g.jsonldTypes.put (key, types) }

/-- `store_html`: the graph after it, and whether the body was released; there is no
answer where reading it raises. -/
def storeHtml (reader : PageReader Trail Facts Result) (input : GraphInput)
    (g : PageGraph rules Record Facts) (url : String) (html : Text) :
    PageGraph rules Record Facts × Option Bool :=
  let key := rules.normalizeUrl url
  let released := releases rules input key
  let marked := g.markFetched input key html
  match g.nodes.find? key with
  | none => (marked, some released)
  | some node =>
    let read := marked.changeNode key (.parent "")
    if html = [] then (read, some released)
    else
      match reader.extractBreadcrumb html node.url with
      | none => (read, none)
      | some trail =>
        let placed := read.keepTrail reader input key node.url trail
        match reader.extractSchemaTypes html with
        | none => (placed, none)
        | some types => (placed.keepTypes key types, some released)

/-- `unfetched_urls`. -/
def unfetchedUrls (g : PageGraph rules Record Facts) : List String :=
  (g.nodes.rows.filter fun node => rules.normalizeUrl node.url ∉ g.fetched).map DiscoveredNode.url

/-- `to_page_evidence`, as far as it joins the tables to a node. -/
def evidence (g : PageGraph rules Record Facts) (node : DiscoveredNode Record Facts) :
    BodyEvidence :=
  let key := rules.normalizeUrl node.url
  { html := g.html.get key
    breadcrumbPath := (g.breadcrumbs.get key).getD []
    jsonldTypes := (g.jsonldTypes.get key).getD []
    breadcrumbParentUrl := node.breadcrumbParentUrl }

end PageGraph

section Calls

variable {Trail Record Facts Result : Type}

inductive GraphCall (Record Result : Type) where
  | add (s : Sighting Record)
  | recordLinks (fromUrl : String) (toUrls : List String) (depth : Nat) (bodyUrls : List String)
  | recordFetch (url : String) (result : Result)
  | storeHtml (url : String) (html : Text)

variable (rules : UrlRules) (reader : PageReader Trail Facts Result) (input : GraphInput)

/-- A graph, and the calls made of it in any order. -/
def graphCalls : Machine (PageGraph rules Record Facts) (GraphCall Record Result) where
  step g
    | .add s => some (g.add reader input s).1
    | .recordLinks fromUrl toUrls depth bodyUrls =>
      some (g.recordLinks reader input fromUrl toUrls depth bodyUrls).1
    | .recordFetch url result => some (g.recordFetch reader url result)
    | .storeHtml url html => some (g.storeHtml reader input url html).1

/-- What a page is known by once this body of it was read. -/
def bodyReading (url : String) : Option Text → BodyEvidence
  | none => {}
  | some html =>
    let released := PageGraph.releases rules input (rules.normalizeUrl url)
    let kept := if released then none else some html
    let trail := if html = [] then none else reader.extractBreadcrumb html url
    match trail with
    | none => { html := kept, breadcrumbParentUrl := some "" }
    | some trail =>
      { html := kept
        breadcrumbPath := (reader.sectionLabels trail input.baseUrl url).map fun label =>
          label.take maxBreadcrumbLabelChars
        jsonldTypes := (reader.extractSchemaTypes html).getD []
        breadcrumbParentUrl := some ((reader.breadcrumbParentUrl trail url).getD "") }

/-- The tables are the tables of the nodes there are. -/
structure TablesBelong (g : PageGraph rules Record Facts) : Prop where
  owned : ∀ key, key ∈ g.fetched ∨ (g.html.get key).isSome ∨ (g.breadcrumbs.get key).isSome ∨
    (g.jsonldTypes.get key).isSome → (g.nodes.find? key).isSome
  /-- What is joined to a node was read from the body stored last since its admission. -/
  joined : ∀ node ∈ g.nodes.rows, g.evidence node =
    bodyReading rules reader input node.url (lastBody g.history (rules.normalizeUrl node.url))
  unfetched : g.unfetchedUrls = (g.nodes.rows.filter fun node =>
    (lastBody g.history (rules.normalizeUrl node.url)).isNone).map DiscoveredNode.url
  bounded : g.nodes.rows.length ≤ input.maxPages
  /-- Only links make a node once the budget of the other paths is spent. -/
  reserved : ∀ s : Sighting Record, s.sources.domLink = false →
    input.preCrawlBudget ≤ g.nodes.rows.length → ∀ key,
      ((g.add reader input s).1.nodes.find? key).isSome → (g.nodes.find? key).isSome

/-- A body is stored only of a page that has a node. -/
def StoresNode (g : PageGraph rules Record Facts) : GraphCall Record Result → Prop
  | .storeHtml url _ => (g.nodes.find? (rules.normalizeUrl url)).isSome
  | _ => True

end Calls

namespace PageGraph

variable {rules : UrlRules} {Trail Record Facts Result : Type}
variable {reader : PageReader Trail Facts Result} {input : GraphInput}
variable {g : PageGraph rules Record Facts} {s : Sighting Record} {key k url : String}

/-! ## The nodes, as a crawl's other models have them -/

/-- The graph without what it knows of its pages. -/
def siteGraph (g : PageGraph rules Record Facts) : SiteGraph rules where
  nodes := ⟨g.nodes.rows.map DiscoveredNode.url, by
    rw [List.map_map]
    exact g.nodes.keys_nodup⟩
  fetched := g.fetched
  loops := g.loops

theorem find?_siteGraph :
    g.siteGraph.nodes.find? key = (g.nodes.find? key).map DiscoveredNode.url := by
  rw [Table.find?, siteGraph, List.find?_map]
  rfl

@[simp] theorem length_siteGraph : g.siteGraph.nodes.rows.length = g.nodes.rows.length :=
  List.length_map _

@[simp] theorem siteGraph_changeNode {change : NodeChange Record Facts} :
    (g.changeNode key change).siteGraph = g.siteGraph := by
  have urls : (g.changeNode key change).nodes.rows.map DiscoveredNode.url =
      g.nodes.rows.map DiscoveredNode.url := by
    rw [changeNode, Table.update, List.map_map]
    refine List.map_congr_left fun node _ => ?_
    rw [Function.comp_apply]
    split
    · exact change.url_apply node
    · rfl
  simp only [siteGraph, urls]
  rfl

theorem siteGraph_evict {keys : List String} :
    (g.evict keys).siteGraph = g.siteGraph.evict keys := by
  simp only [siteGraph, SiteGraph.evict, evict, Table.delete, List.filter_map]
  rfl

theorem siteGraph_insertNode : (g.insertNode reader input s).1.siteGraph =
      (g.siteGraph.insertNode input.settings s.sources.domLink s.url).1 ∧
    (g.insertNode reader input s).2 =
      (g.siteGraph.insertNode input.settings s.sources.domLink s.url).2 := by
  rw [insertNode, SiteGraph.insertNode]
  cases inserted : g.nodes.insert? { url := s.url, facts := reader.unrequested } with
  | none =>
    have taken : g.siteGraph.nodes.insert? s.url = none := by
      rw [Table.insert?_eq_none] at inserted ⊢
      rw [find?_siteGraph, Option.isSome_map]
      exact inserted
    rw [taken]
    exact ⟨siteGraph_changeNode, rfl⟩
  | some nodes =>
    obtain ⟨fresh, rows⟩ := Table.insert?_eq_some.mp inserted
    have new : g.siteGraph.nodes.insert? s.url = some { g with nodes }.siteGraph.nodes := by
      refine Table.insert?_eq_some.mpr ⟨?_, ?_⟩
      · rw [find?_siteGraph]
        exact congrArg (Option.map DiscoveredNode.url) fresh
      · simp only [siteGraph, rows, List.map_append, List.map_singleton]
    rw [new]
    simp only [length_siteGraph]
    split
    · exact ⟨rfl, rfl⟩
    · exact ⟨siteGraph_changeNode, rfl⟩

theorem siteGraph_add : (g.add reader input s).1.siteGraph =
      (g.siteGraph.add input.settings s.sources.domLink s.url).1 ∧
    (g.add reader input s).2 = (g.siteGraph.add input.settings s.sources.domLink s.url).2 := by
  rw [add, SiteGraph.add]
  by_cases root : s.url = input.baseUrl
  · rw [if_pos root, if_pos (show s.url = input.settings.baseUrl from root)]
    exact siteGraph_insertNode
  · rw [if_neg root, if_neg (show ¬s.url = input.settings.baseUrl from root)]
    split
    · exact ⟨rfl, rfl⟩
    · have loops : g.siteGraph.loops = g.loops := rfl
      have filter : input.settings.urlFilter = input.urlFilter := rfl
      rw [loops, filter]
      generalize g.loops.observe (rules.tailOf s.url) (rules.normalizeUrl s.url) = verdict
      have evicted : ({ g.evict verdict.evict with loops := verdict.watcher } :
            PageGraph rules Record Facts).siteGraph =
          { g.siteGraph.evict verdict.evict with loops := verdict.watcher } := by
        rw [← siteGraph_evict]
        rfl
      dsimp only
      split
      · exact ⟨evicted, rfl⟩
      · split
        · exact ⟨evicted, rfl⟩
        · rw [← evicted]
          exact siteGraph_insertNode

theorem siteGraph_storeHtml {html : Text} :
    (g.storeHtml reader input url html).1.siteGraph = g.siteGraph.storeHtml url := by
  have marked : (g.markFetched input (rules.normalizeUrl url) html).siteGraph =
      g.siteGraph.storeHtml url := rfl
  have trails : ∀ (h : PageGraph rules Record Facts) nodeUrl trail,
      (h.keepTrail reader input (rules.normalizeUrl url) nodeUrl trail).siteGraph =
        h.siteGraph := by
    intro h nodeUrl trail
    rw [keepTrail, siteGraph_changeNode]
    split
    · rfl
    · rfl
  have types : ∀ (h : PageGraph rules Record Facts) types,
      (h.keepTypes (rules.normalizeUrl url) types).siteGraph = h.siteGraph := by
    intro h types
    rw [keepTypes]
    split
    · rfl
    · rfl
  rw [storeHtml]
  split
  · exact marked
  · dsimp only
    split
    · rw [siteGraph_changeNode, marked]
    · split
      · rw [siteGraph_changeNode, marked]
      · split
        · rw [trails, siteGraph_changeNode, marked]
        · rw [types, trails, siteGraph_changeNode, marked]

theorem nodes_storeHtml {html : Text} :
    (g.storeHtml reader input url html).1.siteGraph.nodes = g.siteGraph.nodes := by
  rw [siteGraph_storeHtml]
  rfl

theorem isSome_find?_siteGraph :
    (g.siteGraph.nodes.find? key).isSome = (g.nodes.find? key).isSome := by
  rw [find?_siteGraph, Option.isSome_map]

theorem adds_add : SiteGraph.Adds input.settings s.sources.domLink s.url g.siteGraph
    ((g.add reader input s).1.siteGraph, (g.add reader input s).2) := by
  obtain ⟨graph, answer⟩ := @siteGraph_add _ _ _ _ _ reader input g s
  rw [graph, answer]
  exact SiteGraph.adds_add

theorem length_add_le (bounded : g.nodes.rows.length ≤ input.maxPages) :
    (g.add reader input s).1.nodes.rows.length ≤ input.maxPages := by
  have adds := @adds_add _ _ _ _ _ reader input g s
  generalize added : ((g.add reader input s).1.siteGraph, (g.add reader input s).2) = after at adds
  have graph : (g.add reader input s).1.siteGraph = after.1 := congrArg Prod.fst added
  rw [← length_siteGraph] at bounded ⊢
  rw [graph]
  cases adds with
  | refused fewer => exact Nat.le_trans fewer.length_le bounded
  | known there same => rwa [same]
  | inserted inserts room =>
    rw [(Table.insert?_eq_some.mp inserts).2, List.length_append]
    have limit : input.settings.limit s.sources.domLink ≤ input.maxPages := by
      rw [CrawlSettings.limit]
      split
      · exact Nat.le_refl _
      · exact input.preCrawlBudget_le
    exact Nat.le_trans room limit

theorem isSome_find?_of_add (unlinked : s.sources.domLink = false)
    (spent : input.preCrawlBudget ≤ g.nodes.rows.length)
    (there : ((g.add reader input s).1.nodes.find? key).isSome) : (g.nodes.find? key).isSome := by
  have adds := @adds_add _ _ _ _ _ reader input g s
  generalize added : ((g.add reader input s).1.siteGraph, (g.add reader input s).2) = after at adds
  have graph : (g.add reader input s).1.siteGraph = after.1 := congrArg Prod.fst added
  rw [← isSome_find?_siteGraph] at there ⊢
  rw [graph] at there
  cases adds with
  | refused fewer =>
    obtain ⟨row, found⟩ := Option.isSome_iff_exists.mp there
    obtain ⟨mem, rfl⟩ := Table.find?_eq_some.mp found
    rw [Table.find?_key (fewer.subset mem)]
    rfl
  | known known same => rwa [same] at there
  | inserted inserts room =>
    rw [length_siteGraph, unlinked] at room
    exact absurd spent (Nat.not_le_of_lt room)

/-! ## What the tables hold of one page -/

theorem find?_delete_keys {κ ρ : Type} [DecidableEq κ] {keyOf : ρ → κ} {t : Table κ keyOf}
    {p : κ → Bool} {k : κ} :
    (t.delete fun r => p (keyOf r)).find? k = if p k then none else t.find? k := by
  rw [Table.find?_delete]
  cases found : t.find? k with
  | none => simp
  | some r =>
    obtain ⟨-, rfl⟩ := Table.find?_eq_some.mp found
    cases h : p (keyOf r) with
    | false => simp [h]
    | true => simp [h]

theorem get_delete_keys {κ ν : Type} [DecidableEq κ] {d : Dict κ ν} {p : κ → Bool} {k : κ} :
    Dict.get (d.delete fun row => p row.1) k = if p k then none else d.get k := by
  rw [Dict.get, find?_delete_keys]
  split
  · rfl
  · rfl

/-- The tables at one key: the URL of the node and the page above it, and what was
read of the page. -/
structure Slot where
  page : Option (String × Option String)
  fetched : Prop
  html : Option Text
  breadcrumbs : Option (List Text)
  jsonldTypes : Option (List Text)
  body : Option Text

def slot (g : PageGraph rules Record Facts) (key : String) : Slot where
  page := (g.nodes.find? key).map fun node => (node.url, node.breadcrumbParentUrl)
  fetched := key ∈ g.fetched
  html := g.html.get key
  breadcrumbs := g.breadcrumbs.get key
  jsonldTypes := g.jsonldTypes.get key
  body := lastBody g.history key

/-- A page without a node has nothing, and one with a node what its last body says. -/
structure Slot.Fits (rules : UrlRules) (reader : PageReader Trail Facts Result)
    (input : GraphInput) (slot : Slot) : Prop where
  bare : slot.page = none → ¬slot.fetched ∧ slot.html = none ∧ slot.breadcrumbs = none ∧
    slot.jsonldTypes = none
  read : ∀ page, slot.page = some page → (slot.fetched ↔ slot.body.isSome) ∧
    ⟨slot.html, slot.breadcrumbs.getD [], slot.jsonldTypes.getD [], page.2⟩ =
      bodyReading rules reader input page.1 slot.body

section Slots

variable {change : NodeChange Record Facts}

theorem find?_changeNode : (g.changeNode key change).nodes.find? k =
    if key = k then (g.nodes.find? k).map change.apply else g.nodes.find? k := by
  rw [changeNode, Table.find?_update]
  cases found : g.nodes.find? k with
  | none => simp
  | some node =>
    obtain ⟨-, rfl⟩ := Table.find?_eq_some.mp found
    by_cases same : key = rules.normalizeUrl node.url
    · simp [same]
    · simp [same, Ne.symm same]

theorem slot_changeNode
    (parent : ∀ node, (change.apply node).breadcrumbParentUrl = node.breadcrumbParentUrl) :
    (g.changeNode key change).slot k = g.slot k := by
  have page : ((g.changeNode key change).nodes.find? k).map
      (fun node => (node.url, node.breadcrumbParentUrl)) =
      (g.nodes.find? k).map fun node => (node.url, node.breadcrumbParentUrl) := by
    rw [find?_changeNode]
    split
    · rw [Option.map_map]
      congr 1
      funext node
      rw [Function.comp_apply, change.url_apply, parent]
    · rfl
  rw [slot, page]
  rfl

theorem slot_parent {parent : String} : (g.changeNode key (.parent parent)).slot k =
    if key = k then { g.slot k with page := (g.slot k).page.map fun page => (page.1, some parent) }
    else g.slot k := by
  have page : ((g.changeNode key (.parent parent)).nodes.find? k).map
      (fun node => (node.url, node.breadcrumbParentUrl)) =
      if key = k then (g.slot k).page.map fun page => (page.1, some parent)
      else (g.slot k).page := by
    rw [find?_changeNode]
    split
    · rw [slot, Option.map_map, Option.map_map]
      rfl
    · rfl
  rw [slot, page]
  split
  · rfl
  · rfl

theorem slot_evict {keys : List String} : (g.evict keys).slot k =
    if keys.contains k then ⟨none, False, none, none, none, (g.slot k).body⟩ else g.slot k := by
  have page : (g.evict keys).nodes.find? k =
      if keys.contains k then none else g.nodes.find? k := find?_delete_keys
  have fetched : (k ∈ (g.evict keys).fetched) =
      if keys.contains k then False else k ∈ g.fetched := by
    rw [evict, List.mem_filter]
    split
    · next gone =>
      rw [gone]
      simp
    · next kept =>
      rw [Bool.not_eq_true] at kept
      rw [kept]
      simp
  rw [slot, page, fetched]
  simp only [evict, get_delete_keys]
  split
  · rfl
  · rfl

theorem slot_admit {nodes : Table String fun node : DiscoveredNode Record Facts =>
      rules.normalizeUrl node.url} {node : DiscoveredNode Record Facts}
    (inserted : g.nodes.insert? node = some nodes) :
    ({ g with nodes, history := .admitted (rules.normalizeUrl node.url) :: g.history } :
        PageGraph rules Record Facts).slot k =
      if rules.normalizeUrl node.url = k then
        { g.slot k with page := some (node.url, node.breadcrumbParentUrl), body := none }
      else g.slot k := by
  simp only [slot, Table.find?_insert? inserted, lastBody]
  split
  · rfl
  · rfl

end Slots

section Reads

variable {html : Text} {trail : Trail} {types : List Text}

/-- The slot of a page whose body was just filed. -/
def Slot.marked (slot : Slot) (released : Bool) (html : Text) : Slot :=
  { slot with
    fetched := True
    html := if released then none else some html
    breadcrumbs := none
    jsonldTypes := none
    body := some html }

theorem slot_markFetched : (g.markFetched input key html).slot k =
    if key = k then (g.slot k).marked (releases rules input key) html else g.slot k := by
  have fetched : (k ∈ (g.markFetched input key html).fetched) =
      if key = k then True else k ∈ g.fetched := by
    rw [markFetched, List.mem_insert_iff]
    split
    · next same => simp [same]
    · next other => simp [Ne.symm other]
  have body : (g.markFetched input key html).html.get k =
      if key = k then if releases rules input key then none else some html
      else g.html.get k := by
    rw [markFetched]
    split
    · rw [Dict.get_delete_key]
    · rw [Dict.get_put]
  rw [slot, fetched, body]
  simp only [markFetched, Dict.get_delete_key, lastBody]
  split
  · rfl
  · rfl

theorem slot_keepTrail : (g.keepTrail reader input key url trail).slot k =
    if key = k then
      { g.slot k with
        page := (g.slot k).page.map fun page =>
          (page.1, some ((reader.breadcrumbParentUrl trail url).getD ""))
        breadcrumbs :=
          if reader.sectionLabels trail input.baseUrl url = [] then (g.slot k).breadcrumbs
          else some ((reader.sectionLabels trail input.baseUrl url).map fun label =>
            label.take maxBreadcrumbLabelChars) }
    else g.slot k := by
  rw [keepTrail, slot_parent]
  split
  · next same =>
    split
    · rfl
    · simp only [slot, Dict.get_put, if_pos same]
  · next other =>
    split
    · rfl
    · simp only [slot, Dict.get_put, if_neg other]

theorem slot_keepTypes : (g.keepTypes key types).slot k =
    if key = k then
      { g.slot k with
        jsonldTypes := if types = [] then (g.slot k).jsonldTypes else some types }
    else g.slot k := by
  rw [keepTypes]
  split
  · split
    · rfl
    · rfl
  · simp only [slot, Dict.get_put]
    split
    · rfl
    · rfl

theorem slot_storeHtml_of_ne (other : rules.normalizeUrl url ≠ k) :
    (g.storeHtml reader input url html).1.slot k = g.slot k := by
  have marked : (g.markFetched input (rules.normalizeUrl url) html).slot k = g.slot k := by
    rw [slot_markFetched, if_neg other]
  have read : ((g.markFetched input (rules.normalizeUrl url) html).changeNode
      (rules.normalizeUrl url) (.parent "")).slot k = g.slot k := by
    rw [slot_parent, if_neg other, marked]
  rw [storeHtml]
  split
  · exact marked
  · dsimp only
    split
    · exact read
    · split
      · exact read
      · split
        · rw [slot_keepTrail, if_neg other, read]
        · rw [slot_keepTypes, if_neg other, slot_keepTrail, if_neg other, read]

theorem getD_unless_nil {α β : Type} {values : List α} {kept : List β}
    (same : values = [] → kept = []) :
    (if values = [] then none else some kept).getD [] = kept := by
  split
  · next none => rw [same none, Option.getD_none]
  · rw [Option.getD_some]

theorem Slot.fits_of_body {slot : Slot} {parent : Option String}
    (page : slot.page = some (url, parent)) (fetched : slot.fetched)
    (body : slot.body = some html)
    (evidence : ⟨slot.html, slot.breadcrumbs.getD [], slot.jsonldTypes.getD [], parent⟩ =
      bodyReading rules reader input url (some html)) : slot.Fits rules reader input := by
  refine ⟨fun none => ?_, fun found same => ?_⟩
  · rw [page] at none
    cases none
  · rw [page] at same
    cases same
    rw [body]
    exact ⟨iff_of_true fetched rfl, evidence⟩

theorem fits_storeHtml {node : DiscoveredNode Record Facts}
    (there : g.nodes.find? (rules.normalizeUrl url) = some node) :
    ((g.storeHtml reader input url html).1.slot (rules.normalizeUrl url)).Fits rules reader
      input := by
  obtain ⟨-, keyed⟩ := Table.find?_eq_some.mp there
  have page : (g.slot (rules.normalizeUrl url)).page =
      some (node.url, node.breadcrumbParentUrl) := by
    rw [slot, there]
    rfl
  have read : ((g.markFetched input (rules.normalizeUrl url) html).changeNode
      (rules.normalizeUrl url) (.parent "")).slot (rules.normalizeUrl url) =
      { (g.slot (rules.normalizeUrl url)).marked
          (releases rules input (rules.normalizeUrl url)) html with
        page := some (node.url, some "") } := by
    rw [slot_parent, if_pos rfl, slot_markFetched, if_pos rfl, Slot.marked, page]
    rfl
  rw [storeHtml, there]
  dsimp only
  by_cases empty : html = []
  · rw [if_pos empty, read]
    refine Slot.fits_of_body rfl trivial rfl ?_
    simp only [bodyReading, Slot.marked, if_pos empty, keyed, Option.getD_none]
  · rw [if_neg empty]
    cases extracted : reader.extractBreadcrumb html node.url with
    | none =>
      dsimp only
      rw [read]
      refine Slot.fits_of_body rfl trivial rfl ?_
      simp only [bodyReading, Slot.marked, if_neg empty, extracted, keyed, Option.getD_none]
    | some trail =>
      dsimp only
      cases typed : reader.extractSchemaTypes html with
      | none =>
        dsimp only
        rw [slot_keepTrail, if_pos rfl, read]
        refine Slot.fits_of_body rfl trivial rfl ?_
        simp only [bodyReading, Slot.marked, if_neg empty, extracted, typed, keyed,
          Option.getD_none]
        rw [getD_unless_nil fun none => by rw [none, List.map_nil]]
      | some types =>
        dsimp only
        rw [slot_keepTypes, if_pos rfl, slot_keepTrail, if_pos rfl, read]
        refine Slot.fits_of_body rfl trivial rfl ?_
        simp only [bodyReading, Slot.marked, if_neg empty, extracted, typed, keyed,
          Option.getD_some]
        rw [getD_unless_nil fun none => by rw [none, List.map_nil], getD_unless_nil id]

end Reads

/-! ## Runs -/

section Steps

/-- Every page's slot fits, and the nodes are no more than there may be. -/
structure Fits (reader : PageReader Trail Facts Result) (input : GraphInput)
    (g : PageGraph rules Record Facts) : Prop where
  slots : ∀ key, (g.slot key).Fits rules reader input
  bounded : g.nodes.rows.length ≤ input.maxPages

variable {change : NodeChange Record Facts}

theorem Slot.fits_bare {body : Option Text} :
    (⟨none, False, none, none, none, body⟩ : Slot).Fits rules reader input :=
  ⟨fun _ => ⟨id, rfl, rfl, rfl⟩, fun _ found => by cases found⟩

theorem fits_empty : ({} : PageGraph rules Record Facts).Fits reader input := by
  refine ⟨fun k => ⟨fun _ => ⟨List.not_mem_nil, rfl, rfl, rfl⟩, fun _ found => ?_⟩, Nat.zero_le _⟩
  cases found

theorem length_changeNode : (g.changeNode key change).nodes.rows.length = g.nodes.rows.length :=
  List.length_map _

theorem Fits.changeNode (fits : g.Fits reader input)
    (parent : ∀ node, (change.apply node).breadcrumbParentUrl = node.breadcrumbParentUrl) :
    (g.changeNode key change).Fits reader input := by
  refine ⟨fun k => ?_, ?_⟩
  · rw [slot_changeNode parent]
    exact fits.slots k
  · rw [length_changeNode]
    exact fits.bounded

theorem slots_insertNode (slots : ∀ key, (g.slot key).Fits rules reader input) :
    ∀ key, ((g.insertNode reader input s).1.slot key).Fits rules reader input := by
  intro k
  rw [insertNode]
  split
  · rw [see, slot_changeNode fun _ => rfl]
    exact slots k
  · next nodes inserted =>
    split
    · exact slots k
    · dsimp only
      rw [see, slot_changeNode fun _ => rfl, slot_admit inserted]
      split
      · next same =>
        have missing : (g.slot k).page = none := by
          rw [slot, ← same, (Table.insert?_eq_some.mp inserted).1]
          rfl
        obtain ⟨unread, html, breadcrumbs, types⟩ := (slots k).bare missing
        refine ⟨fun none => ?_, fun page found => ?_⟩
        · cases none
        · cases found
          refine ⟨iff_of_false unread Bool.false_ne_true, ?_⟩
          rw [html, breadcrumbs, types]
          rfl
      · exact slots k

theorem slots_evict {keys : List String} (slots : ∀ key, (g.slot key).Fits rules reader input) :
    ∀ key, ((g.evict keys).slot key).Fits rules reader input := by
  intro k
  rw [slot_evict]
  split
  · exact Slot.fits_bare
  · exact slots k

theorem Fits.add (fits : g.Fits reader input) : (g.add reader input s).1.Fits reader input := by
  refine ⟨?_, length_add_le fits.bounded⟩
  rw [PageGraph.add]
  split
  · exact slots_insertNode fits.slots
  · split
    · exact fits.slots
    · dsimp only
      split
      · exact slots_evict fits.slots
      · split
        · exact slots_evict fits.slots
        · exact slots_insertNode (slots_evict fits.slots)

theorem Fits.recordTargets {depth : Nat} {inBody targets : List String}
    (fits : g.Fits reader input) :
    (g.recordTargets reader input depth inBody targets).1.Fits reader input := by
  induction targets generalizing g with
  | nil => exact fits
  | cons target targets ih =>
    rw [PageGraph.recordTargets]
    dsimp only
    split
    · exact ih (fits.add.changeNode fun _ => rfl)
    · exact ih fits.add

theorem Fits.storeHtml {html : Text} (fits : g.Fits reader input)
    (there : (g.nodes.find? (rules.normalizeUrl url)).isSome) :
    (g.storeHtml reader input url html).1.Fits reader input := by
  obtain ⟨node, found⟩ := Option.isSome_iff_exists.mp there
  refine ⟨fun k => ?_, ?_⟩
  · by_cases same : rules.normalizeUrl url = k
    · rw [← same]
      exact fits_storeHtml found
    · rw [slot_storeHtml_of_ne same]
      exact fits.slots k
  · rw [← length_siteGraph, nodes_storeHtml, length_siteGraph]
    exact fits.bounded

theorem Fits.step {t : PageGraph rules Record Facts} {call : GraphCall Record Result}
    (fits : g.Fits reader input) (stores : StoresNode rules g call)
    (moves : (graphCalls rules reader input).step g call = some t) : t.Fits reader input := by
  cases call with
  | add s =>
    cases moves
    exact fits.add
  | recordLinks fromUrl toUrls depth bodyUrls =>
    cases moves
    exact (fits.changeNode fun _ => rfl).recordTargets
  | recordFetch url result =>
    cases moves
    exact fits.changeNode fun _ => rfl
  | storeHtml url html =>
    cases moves
    exact fits.storeHtml stores

theorem Fits.read_node {node : DiscoveredNode Record Facts} (fits : g.Fits reader input)
    (mem : node ∈ g.nodes.rows) :
    (rules.normalizeUrl node.url ∈ g.fetched ↔
        (lastBody g.history (rules.normalizeUrl node.url)).isSome) ∧
      g.evidence node = bodyReading rules reader input node.url
        (lastBody g.history (rules.normalizeUrl node.url)) := by
  have page : (g.slot (rules.normalizeUrl node.url)).page =
      some (node.url, node.breadcrumbParentUrl) := by
    rw [slot, Table.find?_key mem]
    rfl
  exact (fits.slots _).read _ page

theorem Fits.tablesBelong (fits : g.Fits reader input) : TablesBelong rules reader input g where
  owned := by
    intro key held
    by_contra missing
    rw [Bool.not_eq_true, Option.isSome_eq_false_iff, Option.isNone_iff_eq_none] at missing
    have page : (g.slot key).page = none := by
      rw [slot, missing]
      rfl
    obtain ⟨unread, html, breadcrumbs, types⟩ := (fits.slots key).bare page
    rcases held with fetched | some | some | some
    · exact unread fetched
    · exact absurd html (Option.isSome_iff_ne_none.mp some)
    · exact absurd breadcrumbs (Option.isSome_iff_ne_none.mp some)
    · exact absurd types (Option.isSome_iff_ne_none.mp some)
  joined node mem := (fits.read_node mem).2
  unfetched := by
    refine congrArg (List.map DiscoveredNode.url) (List.filter_congr fun node mem => ?_)
    rw [Bool.eq_iff_iff, decide_eq_true_eq, (fits.read_node mem).1, Option.isNone_iff_eq_none,
      Option.not_isSome_iff_eq_none]
  bounded := fits.bounded
  reserved s unlinked spent key := isSome_find?_of_add unlinked spent

end Steps

end PageGraph

/-- The tables are the nodes' own in every state of a run exactly when no body is ever
stored of a page without a node. -/
theorem always_tablesBelong_iff {Trail Record Facts Result : Type} (rules : UrlRules)
    (reader : PageReader Trail Facts Result) (input : GraphInput)
    (calls : List (GraphCall Record Result)) :
    (graphCalls rules reader input).Always (TablesBelong rules reader input) {} calls ↔
      (graphCalls rules reader input).Meets (StoresNode rules) {} calls := by
  refine Machine.always_iff_meets_of_invariant
    (fun _ _ _ fits stores moves => PageGraph.Fits.step fits stores moves)
    (fun _ fits => fits.tablesBelong) ?_ ?_ PageGraph.fits_empty
  · intro g call t _ moves belong
    cases call with
    | storeHtml url html =>
      cases moves
      have fetched : rules.normalizeUrl url ∈ (g.storeHtml reader input url html).1.fetched := by
        show _ ∈ (g.storeHtml reader input url html).1.siteGraph.fetched
        rw [PageGraph.siteGraph_storeHtml]
        exact SiteGraph.mem_fetched_storeHtml.mpr (Or.inl rfl)
      have there := belong.owned _ (Or.inl fetched)
      rwa [← PageGraph.isSome_find?_siteGraph, PageGraph.nodes_storeHtml,
        PageGraph.isSome_find?_siteGraph] at there
    | add => trivial
    | recordLinks => trivial
    | recordFetch => trivial
  · intro g call stuck
    cases call with
    | storeHtml => cases stuck
    | add => trivial
    | recordLinks => trivial
    | recordFetch => trivial

section Sample

/-- Pages without breadcrumbs and types. -/
def plainPages : PageReader Unit Unit Unit where
  extractBreadcrumb _ _ := some ()
  sectionLabels _ _ _ := []
  breadcrumbParentUrl _ _ := none
  extractSchemaTypes _ := some []
  unrequested := ()
  learned _ _ _ := ()

def smallCrawl : GraphInput where
  baseUrl := "https://a.io/"
  maxPages := 100
  maxPages_pos := by decide

/-- A loop is confirmed while the first of its pages is being fetched. -/
def lateBody : List (GraphCall Unit Unit) :=
  (manyLinks.map fun offer => .add { url := offer.url, sources := .ofLink }) ++
    [.storeHtml "https://a.io/docs/x/y/z" ['h']]

/-- The body is filed of a page that is gone. -/
theorem not_always_tablesBelong_lateBody : ¬(graphCalls loopRules plainPages smallCrawl).Always
      (TablesBelong loopRules plainPages smallCrawl) {} lateBody := by
  intro always
  have ends : (((graphCalls loopRules plainPages smallCrawl).run {} lateBody).map fun g =>
      (g.fetched, (g.nodes.find? "https://a.io/docs/x/y/z").isSome)) =
        some (["https://a.io/docs/x/y/z"], false) := by
    decide +kernel
  obtain ⟨g, run, shown⟩ := Option.map_eq_some_iff.mp ends
  obtain ⟨fetched, gone⟩ := Prod.mk.inj shown
  have there := (always.last run).owned "https://a.io/docs/x/y/z" (Or.inl (by simp [fetched]))
  rw [gone] at there
  cases there

end Sample

end Rankuno
