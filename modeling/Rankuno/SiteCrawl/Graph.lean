import Rankuno.Foundation.Table

/-!
# The site graph of a crawl

A crawl collects the URLs it hears of in one graph, under the key `normalize_url`
gives each, and remembers the keys of the pages it retrieved as HTML. `add` is
the one way in: it refuses what is no page, what a relative link fabricated, what
the operator's filter excludes and what the budget has no room for. Confirming a
relative-link loop also takes out the members it admitted before.

What the URL rules say of a text is a parameter. Nothing here depends on them
but through their answers.
-/

namespace Rankuno

/-- The URL rules a graph consults. -/
structure UrlRules where
  normalizeUrl : String → String
  isCrawlableUrl : String → Bool
  isSpiderTrap : String → Bool
  isMalformedUrl : String → Bool
  isFacetedFilter : String → Bool
  /-- `_tail_of`: the last three path segments, and how many there are. -/
  tailOf : String → Option (String × Nat)

/-- The input a crawl is started with, as far as its graph and its frontier
depend on it. -/
structure CrawlSettings where
  baseUrl : String
  maxPages : Nat
  preCrawlBudget : Nat
  maxDepth : Option Nat := none
  urlFilter : Option (String → Bool) := none
  seedUrls : List String := []
  excludeUrls : List String := []

/-- How many nodes there may be for a new one to be let in: only links may use
the whole budget. -/
def CrawlSettings.limit (settings : CrawlSettings) (domLink : Bool) : Nat :=
  if domLink then settings.maxPages else settings.preCrawlBudget

section Loops

/-- `MIN_LOOP_URLS`. -/
def minLoopUrls : Nat := 25

/-- `MIN_DEPTH_SPREAD`. -/
def minDepthSpread : Nat := 4

/-- A key admitted under a tail, and the depth of its path. -/
structure LoopMember where
  tail : String
  depth : Nat
  key : String
  deriving DecidableEq

/-- `LoopWatcher`: the tails confirmed to be loops, and the members of the others. -/
structure LoopWatcher where
  members : List LoopMember := []
  confirmed : List String := []
  deriving DecidableEq

structure LoopVerdict where
  refuse : Bool
  evict : List String
  watcher : LoopWatcher

namespace LoopWatcher

/-- The members of one tail are enough of a loop: many, at many depths. -/
def isLoop (members : List LoopMember) : Bool :=
  minLoopUrls ≤ members.length && minDepthSpread ≤ (members.map LoopMember.depth).dedup.length

/-- `observe`. The call that confirms a tail names the keys admitted under it,
the one it was asked about among them. -/
def observe (w : LoopWatcher) (found : Option (String × Nat)) (key : String) : LoopVerdict :=
  match found with
  | none => ⟨false, [], w⟩
  | some (tail, depth) =>
    if tail ∈ w.confirmed then ⟨true, [], w⟩
    else
      let members := w.members ++ [⟨tail, depth, key⟩]
      let (mine, others) := members.partition fun m => m.tail = tail
      if isLoop mine then
        ⟨true, mine.map LoopMember.key, ⟨others, tail :: w.confirmed⟩⟩
      else ⟨false, [], { w with members }⟩

end LoopWatcher

end Loops

/-- `SiteGraph`: its nodes by their URL, and the keys of the pages retrieved. -/
structure SiteGraph (rules : UrlRules) where
  nodes : Table String rules.normalizeUrl := .empty
  fetched : List String := []
  loops : LoopWatcher := {}

namespace SiteGraph

variable {rules : UrlRules}

/-- `all_urls`. -/
def allUrls (g : SiteGraph rules) : List String := g.nodes.rows

/-- `unfetched_urls`. -/
def unfetchedUrls (g : SiteGraph rules) : List String :=
  g.nodes.rows.filter fun url => rules.normalizeUrl url ∉ g.fetched

/-- The graph has the page as one it retrieved. -/
def Holds (g : SiteGraph rules) (key : String) : Prop :=
  key ∈ g.fetched ∧ (g.nodes.find? key).isSome

instance (g : SiteGraph rules) (key : String) : Decidable (g.Holds key) :=
  inferInstanceAs (Decidable (_ ∧ _))

/-- Take out the members of a loop that was just confirmed. -/
def evict (g : SiteGraph rules) (keys : List String) : SiteGraph rules :=
  { g with
    nodes := g.nodes.delete fun url => keys.contains (rules.normalizeUrl url)
    fetched := g.fetched.filter fun key => !keys.contains key }

/-- The end of `add`: a URL there is stays, a new one needs room. -/
def insertNode (g : SiteGraph rules) (settings : CrawlSettings) (domLink : Bool) (url : String) :
    SiteGraph rules × Bool :=
  match g.nodes.insert? url with
  | none => (g, true)
  | some nodes =>
    if settings.limit domLink ≤ g.nodes.rows.length then (g, false)
    else ({ g with nodes }, true)

/-- `add`: the graph after it, and whether it has a node for the URL. The crawl
root is exempt from every refusal but the budget's. -/
def add (g : SiteGraph rules) (settings : CrawlSettings) (domLink : Bool) (url : String) :
    SiteGraph rules × Bool :=
  if url = settings.baseUrl then g.insertNode settings domLink url
  else if !rules.isCrawlableUrl url || rules.isSpiderTrap url || rules.isMalformedUrl url then
    (g, false)
  else
    let verdict := g.loops.observe (rules.tailOf url) (rules.normalizeUrl url)
    let g := { g.evict verdict.evict with loops := verdict.watcher }
    if verdict.refuse then (g, false)
    else if settings.urlFilter.any fun accepts => !accepts url then (g, false)
    else g.insertNode settings domLink url

/-- `record_links`: the graph with the targets of a page, and those it has a
node for. -/
def recordLinks (settings : CrawlSettings) (g : SiteGraph rules) :
    List String → SiteGraph rules × List String
  | [] => (g, [])
  | url :: urls =>
    let added := g.add settings true url
    let rest := recordLinks settings added.1 urls
    (rest.1, if added.2 then url :: rest.2 else rest.2)

/-- `store_html`, as far as it marks the page retrieved. -/
def storeHtml (g : SiteGraph rules) (url : String) : SiteGraph rules :=
  { g with fetched := g.fetched.insert (rules.normalizeUrl url) }

section Lemmas

variable {g : SiteGraph rules} {settings : CrawlSettings} {domLink : Bool} {url key : String}

@[simp] theorem fetched_insertNode : (g.insertNode settings domLink url).1.fetched = g.fetched := by
  unfold insertNode
  split
  · rfl
  · split <;> rfl

theorem mem_fetched_of_evict {keys : List String} (h : key ∈ (g.evict keys).fetched) :
    key ∈ g.fetched := (List.mem_filter.mp h).1

theorem mem_fetched_of_add (h : key ∈ (g.add settings domLink url).1.fetched) :
    key ∈ g.fetched := by
  unfold add at h
  split at h
  · rwa [fetched_insertNode] at h
  · split at h
    · exact h
    · dsimp only at h
      split at h
      · exact mem_fetched_of_evict h
      · split at h
        · exact mem_fetched_of_evict h
        · rw [fetched_insertNode] at h
          exact mem_fetched_of_evict h

theorem mem_fetched_of_recordLinks {urls : List String}
    (h : key ∈ (g.recordLinks settings urls).1.fetched) : key ∈ g.fetched := by
  induction urls generalizing g with
  | nil => exact h
  | cons url urls ih => exact mem_fetched_of_add (ih h)

theorem evict_observe {w : LoopWatcher} {found : Option (String × Nat)}
    (h : (w.observe found key).refuse = false) : (w.observe found key).evict = [] := by
  cases found with
  | none => rfl
  | some found =>
    rw [LoopWatcher.observe] at h ⊢
    split
    · rfl
    · next unconfirmed =>
      rw [if_neg unconfirmed] at h
      simp only at h ⊢
      split
      · next loop =>
        rw [if_pos loop] at h
        cases h
      · rfl

theorem nodes_evict_nil : (g.evict []).nodes = g.nodes := by
  have all : (g.nodes.rows.filter fun url =>
      !([] : List String).contains (rules.normalizeUrl url)) = g.nodes.rows :=
    List.filter_eq_self.mpr fun _ _ => rfl
  cases h : g.nodes with
  | mk rows nodup =>
    rw [h] at all
    simp only [evict, Table.delete, h, Table.mk.injEq]
    exact all

/-- What one `add` can do to the nodes: a URL that is refused adds none and may
take some out, one that is there stays, and a new one needs room. -/
inductive Adds (settings : CrawlSettings) (domLink : Bool) (url : String) (g : SiteGraph rules) :
    SiteGraph rules × Bool → Prop
  | refused {g' : SiteGraph rules} (fewer : g'.nodes.rows.Sublist g.nodes.rows) :
      Adds settings domLink url g (g', false)
  | known {g' : SiteGraph rules} (there : (g.nodes.find? (rules.normalizeUrl url)).isSome)
      (same : g'.nodes = g.nodes) : Adds settings domLink url g (g', true)
  | inserted {g' : SiteGraph rules} (inserts : g.nodes.insert? url = some g'.nodes)
      (room : g.nodes.rows.length < settings.limit domLink) : Adds settings domLink url g (g', true)

theorem adds_insertNode {g₀ : SiteGraph rules} (same : g.nodes = g₀.nodes) :
    Adds settings domLink url g₀ (g.insertNode settings domLink url) := by
  rw [insertNode]
  split
  · next taken =>
    refine Adds.known ?_ same
    rw [← same]
    exact Table.insert?_eq_none.mp taken
  · next nodes inserts =>
    split
    · next full =>
      refine Adds.refused ?_
      rw [same]
    · next room =>
      rw [same] at inserts room
      exact Adds.inserted inserts (Nat.lt_of_not_le room)

theorem adds_add : Adds settings domLink url g (g.add settings domLink url) := by
  rw [add]
  split
  · exact adds_insertNode rfl
  · split
    · exact Adds.refused (List.Sublist.refl _)
    · simp only
      split
      · exact Adds.refused List.filter_sublist
      · next passes =>
        have kept : (g.evict (g.loops.observe (rules.tailOf url)
            (rules.normalizeUrl url)).evict).nodes = g.nodes := by
          rw [evict_observe (Bool.eq_false_iff.mpr passes), nodes_evict_nil]
        split
        · refine Adds.refused ?_
          rw [kept]
        · exact adds_insertNode kept

theorem add_baseUrl : (g.add settings domLink settings.baseUrl).2 = true ↔
    (g.nodes.find? (rules.normalizeUrl settings.baseUrl)).isSome ∨
      g.nodes.rows.length < settings.limit domLink := by
  rw [add, if_pos rfl, insertNode]
  split
  · next taken => exact iff_of_true rfl (Or.inl (Table.insert?_eq_none.mp taken))
  · next nodes inserts =>
    have fresh := (Table.insert?_eq_some.mp inserts).1
    split
    · next full => simp [fresh, full]
    · next room => exact iff_of_true rfl (Or.inr (Nat.lt_of_not_le room))

theorem mem_fetched_storeHtml :
    key ∈ (g.storeHtml url).fetched ↔ key = rules.normalizeUrl url ∨ key ∈ g.fetched :=
  List.mem_insert_iff

end Lemmas

end SiteGraph

end Rankuno
