import Mathlib.Data.List.Perm.Subperm
import Rankuno.Foundation.GroupedSums
import Rankuno.SiteCrawl.Discovery

/-!
# When the gap accounting of a crawl balances

Every node a link names is to leave the frontier once, and every other node is
in the sitemap or the CMS alone, so that the counters add up to the graph. Two
things break this: a root the full graph refuses is queued all the same, and a
seed the graph refuses stays among the keys seen, so that a link to the same page
in a spelling the graph accepts makes a node that is never queued. A crawl
balances exactly when neither happens, `LosesNothing`.
-/

namespace Rankuno

namespace DiscoveryRun

variable {rules : UrlRules}

/-- The classes a report has a node in, each as often as it counts it there. -/
def classesOf (s : DiscoveryRun rules) (key : String) : List GapClass :=
  (s.visits.filter fun visit => visit.1 = key).map Prod.snd ++
    (if (s.sources key).sitemapOnly then [.sitemapOnly] else []) ++
      if (s.sources key).cmsOnlyUnlinked then [.cmsOnlyUnlinked] else []

/-- The gap is explained: nothing is left over, and every node is in exactly one
class. -/
structure Balanced (s : DiscoveryRun rules) : Prop where
  unaccounted : s.report.unaccounted = 0
  oneClass : ∀ url ∈ s.graph.nodes.rows, (s.classesOf (rules.normalizeUrl url)).length = 1

/-- No node is taken out: the loop watcher evicts nothing. -/
def EvictsNothing (settings : CrawlSettings) (s : DiscoveryRun rules) (e : DiscoveryEvent) : Prop :=
  ∀ t ∈ s.step settings e, ∀ url ∈ s.graph.nodes.rows, url ∈ t.graph.nodes.rows

instance (settings : CrawlSettings) (s : DiscoveryRun rules) (e : DiscoveryEvent) :
    Decidable (s.EvictsNothing settings e) :=
  inferInstanceAs (Decidable (∀ t ∈ s.step settings e, _))

/-- When the walk begins, the root is a node or there is room for it, and no link
that the graph accepts has the key of a seed that it refused. -/
def LosesNothing (settings : CrawlSettings) (s : DiscoveryRun rules) : DiscoveryEvent → Prop
  | .walk => s.walking = false → s.HasNode (rules.normalizeUrl settings.baseUrl) ∨
        s.graph.nodes.rows.length < settings.maxPages
  | .record => ∀ target ∈ s.links.head?, (s.graph.add settings true target).2 = true →
      rules.normalizeUrl target ∉ s.refusedSeeds
  | _ => True

instance (settings : CrawlSettings) (s : DiscoveryRun rules) :
    ∀ e, Decidable (s.LosesNothing settings e)
  | .walk => inferInstanceAs (Decidable (s.walking = false → _ ∨ _))
  | .record => inferInstanceAs (Decidable (∀ target ∈ s.links.head?, _ → _))
  | .sitemap _ | .cms _ | .seed | .visit _ | .queue => isTrue trivial

/-- The keys that were ever in the frontier. -/
def queued (s : DiscoveryRun rules) : List String :=
  s.frontier.map (fun entry => rules.normalizeUrl entry.1) ++ s.visits.map Prod.fst

/-- A link names the node. -/
def Linked (s : DiscoveryRun rules) (key : String) : Prop :=
  s.HasNode key ∧ (s.sources key).domLink = true

section Add

variable {s : DiscoveryRun rules} {settings : CrawlSettings} {source : DiscoverySource}
variable {url key : String}

theorem hasNode_iff : s.HasNode key ↔ ∃ url ∈ s.graph.nodes.rows, rules.normalizeUrl url = key := by
  rw [HasNode, Option.isSome_iff_exists]
  simp only [Table.find?_eq_some]

theorem sources_add : (s.add settings source url).1.sources key =
    if (s.add settings source url).2 = true ∧ key = rules.normalizeUrl url then
      (if s.HasNode key then s.sources key else {}).merge source
    else s.sources key := by
  rw [add]
  by_cases accepted : (s.graph.add settings source.domLink url).2 = true
  · simp only [accepted, if_true, true_and]
    by_cases same : key = rules.normalizeUrl url
    · subst same
      rw [if_pos rfl]
      exact Function.update_self ..
    · rw [if_neg same]
      exact Function.update_of_ne same ..
  · simp only [accepted, Bool.false_eq_true, if_false, false_and]

variable (keeps : ∀ node ∈ s.graph.nodes.rows,
  node ∈ (s.add settings source url).1.graph.nodes.rows)
include keeps

theorem hasNode_add : (s.add settings source url).1.HasNode key ↔
    s.HasNode key ∨ (s.add settings source url).2 = true ∧ key = rules.normalizeUrl url := by
  have adds : SiteGraph.Adds settings source.domLink url s.graph
      (s.graph.add settings source.domLink url) := SiteGraph.adds_add
  simp only [add, HasNode] at keeps ⊢
  generalize s.graph.add settings source.domLink url = added at adds keeps
  cases adds with
  | refused fewer =>
    rw [or_iff_left fun both => Bool.false_ne_true both.1]
    simp only [Option.isSome_iff_exists, Table.find?_eq_some]
    constructor
    · rintro ⟨node, mem, same⟩
      exact ⟨node, fewer.subset mem, same⟩
    · rintro ⟨node, mem, same⟩
      exact ⟨node, keeps node mem, same⟩
  | known there same =>
    rw [same]
    constructor
    · exact Or.inl
    · rintro (known | ⟨-, rfl⟩)
      · exact known
      · exact there
  | inserted inserts room =>
    rw [Table.find?_insert? inserts]
    by_cases same : rules.normalizeUrl url = key
    · simp [same]
    · rw [if_neg same, or_iff_left fun both => same both.2.symm]

omit keeps in
theorem room_of_add (accepted : (s.add settings source url).2 = true) :
    s.HasNode (rules.normalizeUrl url) ∨
      s.graph.nodes.rows.length < settings.limit source.domLink := by
  have adds : SiteGraph.Adds settings source.domLink url s.graph
      (s.graph.add settings source.domLink url) := SiteGraph.adds_add
  simp only [add] at accepted
  generalize s.graph.add settings source.domLink url = added at adds accepted
  cases adds with
  | refused fewer => cases accepted
  | known there same => exact Or.inl there
  | inserted inserts room => exact Or.inr room

theorem length_le_add :
    s.graph.nodes.rows.length ≤ (s.add settings source url).1.graph.nodes.rows.length :=
  (List.subperm_of_subset (List.Nodup.of_map _ s.graph.nodes.keys_nodup) keeps).length_le

theorem linked_add : (s.add settings source url).1.Linked key ↔ s.Linked key ∨
    (s.add settings source url).2 = true ∧ key = rules.normalizeUrl url ∧
      source.domLink = true := by
  rw [Linked, hasNode_add keeps, sources_add, Linked]
  by_cases own : (s.add settings source url).2 = true ∧ key = rules.normalizeUrl url
  · obtain ⟨accepted, rfl⟩ := own
    rw [if_pos ⟨accepted, rfl⟩, DiscoverySource.merge, Bool.or_eq_true]
    by_cases known : s.HasNode (rules.normalizeUrl url)
    · simp [known, accepted]
    · simp [known, accepted]
  · rw [if_neg own, or_iff_left own, or_iff_left fun all => own ⟨all.1, all.2.1⟩]

theorem found_add (some_ : source ≠ {}) (found : ∀ key, s.HasNode key → s.sources key ≠ {}) :
    ∀ key, (s.add settings source url).1.HasNode key →
      (s.add settings source url).1.sources key ≠ {} := by
  intro key node
  rw [sources_add]
  split
  · intro none_
    rw [DiscoverySource.merge, DiscoverySource.mk.injEq] at none_
    simp only [Bool.or_eq_false_iff] at none_
    obtain ⟨⟨-, a⟩, ⟨-, b⟩, -, c⟩ := none_
    refine some_ ?_
    cases source
    cases a
    cases b
    cases c
    rfl
  · next other =>
    obtain node | own := (hasNode_add keeps).mp node
    · exact found key node
    · exact absurd own other

theorem full_add (link : source.domLink = true) (lacks : ¬s.HasNode key)
    (full : settings.maxPages ≤ s.graph.nodes.rows.length) :
    ¬(s.add settings source url).1.HasNode key ∧
      settings.maxPages ≤ (s.add settings source url).1.graph.nodes.rows.length := by
  refine ⟨fun node => ?_, full.trans (length_le_add keeps)⟩
  obtain known | ⟨accepted, rfl⟩ := (hasNode_add keeps).mp node
  · exact lacks known
  · obtain known | room := room_of_add accepted
    · exact lacks known
    · rw [link, CrawlSettings.limit, if_pos rfl] at room
      omega

end Add

/-- What the walk keeps true of its own records, whatever it loses. -/
structure Coherent (settings : CrawlSettings) (s : DiscoveryRun rules) : Prop where
  counted : s.counters.total = s.visits.length
  found : ∀ key, s.HasNode key → s.sources key ≠ {}
  /-- Before the walk nothing is linked, and nothing is queued. -/
  idle : s.walking = false → s.queued = [] ∧ s.refusedSeeds = [] ∧ s.recorded = [] ∧
    s.links = [] ∧ s.seeds = [] ∧ ∀ key, ¬s.Linked key
  /-- The seeds are queued before any page is read. -/
  seedsFirst : s.seeds ≠ [] → s.links = [] ∧ s.recorded = []
  nodup : s.queued.Nodup
  seen : s.walking = true → ∀ key, key ∈ s.seen ↔ key ∈ s.queued ∨ key ∈ s.refusedSeeds
  apart : ∀ key ∈ s.refusedSeeds, key ∉ s.queued
  /-- What was queued is a linked node, or a page that a full graph has no node for. -/
  queued : ∀ key ∈ s.queued, s.Linked key ∨
    ¬s.HasNode key ∧ settings.maxPages ≤ s.graph.nodes.rows.length
  recorded : ∀ target ∈ s.recorded, s.Linked (rules.normalizeUrl target)
  linked : ∀ key, s.Linked key →
    key ∈ s.queued ∨ key ∈ s.recorded.map rules.normalizeUrl ∨ key ∈ s.refusedSeeds

/-- Nothing is lost so far. -/
structure Intact (s : DiscoveryRun rules) : Prop where
  queued : ∀ key ∈ s.queued, s.HasNode key
  refused : ∀ key ∈ s.refusedSeeds, ¬s.Linked key

section Steps

variable {s t : DiscoveryRun rules} {settings : CrawlSettings}

theorem Coherent.intact_of_idle (h : s.Coherent settings) (idle : s.walking = false) :
    s.Intact := by
  obtain ⟨queued, refused, -, -, -, -⟩ := h.idle idle
  constructor
  · rw [queued]
    exact fun _ mem => absurd mem List.not_mem_nil
  · rw [refused]
    exact fun _ mem => absurd mem List.not_mem_nil

theorem queued_push (s : DiscoveryRun rules) (url : String) (depth : Nat) :
    ({ s with frontier := s.frontier ++ [(url, depth)] } : DiscoveryRun rules).queued.Perm
      (rules.normalizeUrl url :: s.queued) := by
  rw [queued, queued, List.map_append, List.append_assoc]
  exact List.perm_middle

section Discover

variable {source : DiscoverySource} {url : String}

theorem Coherent.discover (h : s.Coherent settings) (idle : s.walking = false)
    (some_ : source ≠ {}) (unlinked : source.domLink = false)
    (keeps : ∀ node ∈ s.graph.nodes.rows, node ∈ (s.add settings source url).1.graph.nodes.rows) :
    (s.add settings source url).1.Coherent settings := by
  obtain ⟨queued, refused, recorded, links, seeds, none_⟩ := h.idle idle
  have none' : ∀ key, ¬(s.add settings source url).1.Linked key := by
    intro key linked
    obtain linked | ⟨-, -, link⟩ := (linked_add keeps).mp linked
    · exact none_ key linked
    · rw [unlinked] at link
      cases link
  exact
    { counted := h.counted
      found := found_add keeps some_ h.found
      idle := fun _ => ⟨queued, refused, recorded, links, seeds, none'⟩
      seedsFirst := h.seedsFirst
      nodup := h.nodup
      seen := fun walking => absurd walking (by rw [Bool.not_eq_true]; exact idle)
      apart := h.apart
      queued := fun key mem => by
        have mem : key ∈ s.queued := mem
        rw [queued] at mem
        cases mem
      recorded := fun target mem => by
        have mem : target ∈ s.recorded := mem
        rw [recorded] at mem
        cases mem
      linked := fun key linked => absurd linked (none' key) }

end Discover

section Walk

variable (keeps : ∀ node ∈ s.graph.nodes.rows, node ∈ (s.walk settings).graph.nodes.rows)
include keeps

theorem Coherent.walk (h : s.Coherent settings) (idle : s.walking = false) :
    (s.walk settings).Coherent settings := by
  obtain ⟨queued, refused, recorded, links, seeds, none_⟩ := h.idle idle
  have visits : s.visits = [] := List.map_eq_nil_iff.mp (List.append_eq_nil_iff.mp queued).2
  have queued' : (s.walk settings).queued = [rules.normalizeUrl settings.baseUrl] := by
    change [rules.normalizeUrl settings.baseUrl] ++ s.visits.map Prod.fst = _
    rw [visits]
    rfl
  exact
    { counted := h.counted
      found := found_add keeps (by decide) h.found
      idle := fun walking => by cases walking
      seedsFirst := fun _ => ⟨links, recorded⟩
      nodup := by
        rw [queued']
        exact List.nodup_singleton _
      seen := fun _ key => by
        rw [queued']
        have none_ : (s.walk settings).refusedSeeds = [] := refused
        rw [none_]
        simp [DiscoveryRun.walk]
      apart := fun key mem => by
        have mem : key ∈ s.refusedSeeds := mem
        rw [refused] at mem
        cases mem
      queued := fun key mem => by
        rw [queued', List.mem_singleton] at mem
        subst mem
        by_cases accepted : (s.add settings .ofLink settings.baseUrl).2 = true
        · exact Or.inl ((linked_add keeps).mpr (Or.inr ⟨accepted, rfl, rfl⟩))
        · have refused : ¬((s.graph.nodes.find? _).isSome ∨ _) :=
            fun room => accepted (SiteGraph.add_baseUrl.mpr room)
          obtain ⟨lacks, full⟩ := not_or.mp refused
          exact Or.inr (full_add keeps rfl lacks (Nat.le_of_not_lt full))
      recorded := fun target mem => by
        have mem : target ∈ s.recorded := mem
        rw [recorded] at mem
        cases mem
      linked := fun key linked => by
        rw [queued']
        obtain linked | ⟨-, rfl, -⟩ := (linked_add keeps).mp linked
        · exact absurd linked (none_ key)
        · exact Or.inl (List.mem_singleton_self _) }

theorem intact_walk (h : s.Coherent settings) (idle : s.walking = false) :
    (s.walk settings).Intact ↔ s.Intact ∧ s.LosesNothing settings .walk := by
  obtain ⟨queued, refused, -, -, -, -⟩ := h.idle idle
  have visits : s.visits = [] := List.map_eq_nil_iff.mp (List.append_eq_nil_iff.mp queued).2
  have queued' : (s.walk settings).queued = [rules.normalizeUrl settings.baseUrl] := by
    change [rules.normalizeUrl settings.baseUrl] ++ s.visits.map Prod.fst = _
    rw [visits]
    rfl
  have refused' : (s.walk settings).refusedSeeds = [] := refused
  have root : (s.walk settings).HasNode (rules.normalizeUrl settings.baseUrl) ↔
      s.HasNode (rules.normalizeUrl settings.baseUrl) ∨
        s.graph.nodes.rows.length < settings.maxPages := by
    refine (hasNode_add keeps).trans ?_
    rw [and_iff_left rfl]
    refine (or_congr_right SiteGraph.add_baseUrl).trans ?_
    exact or_self_left
  rw [and_iff_right (h.intact_of_idle idle), LosesNothing]
  constructor
  · intro intact _
    exact root.mp (intact.queued _ (by rw [queued']; exact List.mem_singleton_self _))
  · intro room
    constructor
    · intro key mem
      rw [queued', List.mem_singleton] at mem
      rw [mem]
      exact root.mpr (room idle)
    · rw [refused']
      exact fun _ mem => absurd mem List.not_mem_nil

end Walk

section Record

variable {target : String}

theorem Coherent.withSeeds (h : s.Coherent settings) (walking : s.walking = true)
    (seeds : List String) (seedsFirst : seeds ≠ [] → s.links = [] ∧ s.recorded = []) :
    ({ s with seeds } : DiscoveryRun rules).Coherent settings where
  counted := h.counted
  found := h.found
  idle := fun idle => absurd walking (Bool.eq_false_iff.mp idle)
  seedsFirst := seedsFirst
  nodup := h.nodup
  seen := h.seen
  apart := h.apart
  queued := h.queued
  recorded := h.recorded
  linked := h.linked

theorem coherent_intact_record (h : s.Coherent settings) (walking : s.walking = true)
    (seeds : s.seeds = []) (links : List String) (keeps : ∀ node ∈ s.graph.nodes.rows,
      node ∈ (s.add settings .ofLink target).1.graph.nodes.rows) :
    (s.record settings target links).Coherent settings ∧
      ((s.record settings target links).Intact ↔ s.Intact ∧
        ((s.add settings .ofLink target).2 = true →
          rules.normalizeUrl target ∉ s.refusedSeeds)) := by
  have still : ∀ key ∈ s.queued, (s.add settings .ofLink target).1.Linked key ∨
      ¬(s.add settings .ofLink target).1.HasNode key ∧
        settings.maxPages ≤ (s.add settings .ofLink target).1.graph.nodes.rows.length := by
    intro key mem
    obtain was | ⟨lacks, full⟩ := h.queued key mem
    · exact Or.inl ((linked_add keeps).mpr (Or.inl was))
    · exact Or.inr (full_add keeps rfl lacks full)
  have queued : (∀ key ∈ s.queued, (s.add settings .ofLink target).1.HasNode key) ↔
      ∀ key ∈ s.queued, s.HasNode key := by
    constructor
    · intro after key mem
      obtain was | ⟨lacks, full⟩ := h.queued key mem
      · exact was.1
      · exact absurd (after key mem) (full_add keeps rfl lacks full).1
    · exact fun before key mem => (hasNode_add keeps).mpr (Or.inl (before key mem))
  rw [record]
  by_cases accepted : (s.add settings .ofLink target).2 = true
  · have linked : ∀ key, (s.add settings .ofLink target).1.Linked key ↔
        s.Linked key ∨ key = rules.normalizeUrl target := by
      intro key
      rw [linked_add keeps, and_iff_right accepted, DiscoverySource.ofLink, and_iff_left rfl]
    rw [if_pos accepted]
    constructor
    · exact
        { counted := h.counted
          found := found_add keeps (by decide) h.found
          idle := fun idle => absurd walking (Bool.eq_false_iff.mp idle)
          seedsFirst := fun outstanding => absurd seeds outstanding
          nodup := h.nodup
          seen := h.seen
          apart := h.apart
          queued := still
          recorded := fun other mem => by
            obtain mem | mem := List.mem_append.mp mem
            · exact (linked _).mpr (Or.inl (h.recorded other mem))
            · rw [List.mem_singleton.mp mem]
              exact (linked _).mpr (Or.inr rfl)
          linked := fun key is => by
            rw [List.map_append, List.mem_append]
            obtain was | rfl := (linked key).mp is
            · exact (h.linked key was).imp_right (Or.imp_left Or.inl)
            · exact Or.inr (Or.inl (Or.inr (List.mem_singleton_self _))) }
    · constructor
      · intro intact
        refine ⟨⟨queued.mp intact.queued, fun key refused was => ?_⟩, fun _ refused => ?_⟩
        · exact intact.refused key refused ((linked key).mpr (Or.inl was))
        · exact intact.refused _ refused ((linked _).mpr (Or.inr rfl))
      · rintro ⟨intact, other⟩
        refine ⟨queued.mpr intact.queued, fun key refused is => ?_⟩
        obtain was | rfl := (linked key).mp is
        · exact intact.refused key refused was
        · exact other accepted refused
  · have linked : ∀ key, (s.add settings .ofLink target).1.Linked key ↔ s.Linked key :=
      fun key => (linked_add keeps).trans (or_iff_left fun all => accepted all.1)
    rw [if_neg accepted]
    constructor
    · exact
        { counted := h.counted
          found := found_add keeps (by decide) h.found
          idle := fun idle => absurd walking (Bool.eq_false_iff.mp idle)
          seedsFirst := fun outstanding => absurd seeds outstanding
          nodup := h.nodup
          seen := h.seen
          apart := h.apart
          queued := still
          recorded := fun other mem => (linked _).mpr (h.recorded other mem)
          linked := fun key is => h.linked key ((linked key).mp is) }
    · rw [and_iff_left fun both => absurd both accepted]
      constructor
      · exact fun intact => ⟨queued.mp intact.queued,
          fun key refused was => intact.refused key refused ((linked key).mpr was)⟩
      · exact fun intact => ⟨queued.mpr intact.queued,
          fun key refused is => intact.refused key refused ((linked key).mp is)⟩

theorem coherent_intact_push {recorded : List String} (h : s.Coherent settings)
    (walking : s.walking = true) (split : s.recorded = target :: recorded)
    (unseen : rules.normalizeUrl target ∉ s.seen) (depth : Nat) :
    ({ s with
        recorded
        seen := rules.normalizeUrl target :: s.seen
        frontier := s.frontier ++ [(target, depth)] } : DiscoveryRun rules).Coherent settings ∧
      (({ s with
          recorded
          seen := rules.normalizeUrl target :: s.seen
          frontier := s.frontier ++ [(target, depth)] } : DiscoveryRun rules).Intact ↔
        s.Intact) := by
  have pushed := s.queued_push target depth
  have mem_pushed : ∀ key, key ∈ _ ↔ key = rules.normalizeUrl target ∨ key ∈ s.queued :=
    fun key => pushed.mem_iff.trans List.mem_cons
  rw [h.seen walking, not_or] at unseen
  have new : s.Linked (rules.normalizeUrl target) :=
    h.recorded target (split ▸ List.mem_cons_self)
  constructor
  · exact
      { counted := h.counted
        found := h.found
        idle := fun idle => absurd walking (Bool.eq_false_iff.mp idle)
        seedsFirst := fun outstanding => by
          have none_ := (h.seedsFirst outstanding).2
          rw [split] at none_
          cases none_
        nodup := pushed.nodup_iff.mpr (List.nodup_cons.mpr ⟨unseen.1, h.nodup⟩)
        seen := fun _ key => by
          rw [List.mem_cons, h.seen walking]
          exact or_assoc.symm.trans (or_congr_left (mem_pushed key).symm)
        apart := fun key refused mem => by
          obtain rfl | mem := (mem_pushed key).mp mem
          · exact unseen.2 refused
          · exact h.apart key refused mem
        queued := fun key mem => by
          obtain rfl | mem := (mem_pushed key).mp mem
          · exact Or.inl new
          · exact h.queued key mem
        recorded := fun other mem => h.recorded other (split ▸ List.mem_cons_of_mem _ mem)
        linked := fun key is => by
          obtain mem | mem | mem := h.linked key is
          · exact Or.inl ((mem_pushed key).mpr (Or.inr mem))
          · rw [split, List.map_cons] at mem
            obtain rfl | mem := List.mem_cons.mp mem
            · exact Or.inl ((mem_pushed _).mpr (Or.inl rfl))
            · exact Or.inr (Or.inl mem)
          · exact Or.inr (Or.inr mem) }
  · constructor
    · exact fun intact => ⟨fun key mem => intact.queued key ((mem_pushed key).mpr (Or.inr mem)),
        intact.refused⟩
    · intro intact
      refine ⟨fun key mem => ?_, intact.refused⟩
      obtain rfl | mem := (mem_pushed key).mp mem
      · exact new.1
      · exact intact.queued key mem

theorem coherent_intact_queue {recorded : List String} (h : s.Coherent settings)
    (walking : s.walking = true) (split : s.recorded = target :: recorded) :
    (s.queue target recorded).Coherent settings ∧
      ((s.queue target recorded).Intact ↔ s.Intact) := by
  rw [queue]
  by_cases known : rules.normalizeUrl target ∈ s.seen
  · rw [if_pos known]
    refine ⟨?_, fun intact => ⟨intact.queued, intact.refused⟩,
      fun intact => ⟨intact.queued, intact.refused⟩⟩
    exact
      { counted := h.counted
        found := h.found
        idle := fun idle => absurd walking (Bool.eq_false_iff.mp idle)
        seedsFirst := fun outstanding => by
          have none_ := (h.seedsFirst outstanding).2
          rw [split] at none_
          cases none_
        nodup := h.nodup
        seen := h.seen
        apart := h.apart
        queued := h.queued
        recorded := fun other mem => h.recorded other (split ▸ List.mem_cons_of_mem _ mem)
        linked := fun key is => by
          obtain mem | mem | mem := h.linked key is
          · exact Or.inl mem
          · rw [split, List.map_cons] at mem
            obtain rfl | mem := List.mem_cons.mp mem
            · exact ((h.seen walking _).mp known).imp_right Or.inr
            · exact Or.inr (Or.inl mem)
          · exact Or.inr (Or.inr mem) }
  · rw [if_neg known]
    exact coherent_intact_push h walking split known (s.depth + 1)

end Record

section Seed

variable {seed : String} {seeds : List String}

theorem coherent_intact_queueSeed (h : s.Coherent settings) (split : s.seeds = seed :: seeds)
    (keeps : ∀ node ∈ s.graph.nodes.rows,
      node ∈ (s.queueSeed settings seed seeds).graph.nodes.rows) :
    (s.queueSeed settings seed seeds).Coherent settings ∧
      ((s.queueSeed settings seed seeds).Intact ↔ s.Intact) := by
  have outstanding : s.seeds ≠ [] := by simp [split]
  obtain ⟨links, recorded⟩ := h.seedsFirst outstanding
  have walking : s.walking = true := by
    by_contra idle
    exact outstanding (h.idle (Bool.eq_false_iff.mpr idle)).2.2.2.2.1
  rw [queueSeed] at keeps ⊢
  by_cases known : rules.normalizeUrl seed ∈ s.seen
  · rw [if_pos known]
    exact ⟨h.withSeeds walking seeds fun _ => ⟨links, recorded⟩,
      fun intact => ⟨intact.queued, intact.refused⟩, fun intact => ⟨intact.queued, intact.refused⟩⟩
  · rw [if_neg known] at keeps ⊢
    have fresh := not_or.mp (mt (h.seen walking _).mpr known)
    by_cases accepted : (s.add settings .ofLink seed).2 = true
    · simp only [if_pos accepted] at keeps ⊢
      obtain ⟨made, kept⟩ := coherent_intact_record
        (h.withSeeds walking [] fun outstanding => absurd rfl outstanding) walking rfl s.links keeps
      have joins : s.recorded ++ [seed] = seed :: s.recorded := by rw [recorded]; rfl
      rw [record] at made kept
      have accepted' : (({ s with seeds := [] } : DiscoveryRun rules).add settings .ofLink seed).2 =
          true := accepted
      rw [if_pos accepted'] at made kept
      obtain ⟨pushed, same⟩ := coherent_intact_push made walking joins known 0
      refine ⟨pushed.withSeeds walking seeds fun _ => ⟨links, recorded⟩, ?_⟩
      have intact := same.trans (kept.trans (and_iff_left fun _ => fresh.2))
      constructor
      · intro after
        have before := intact.mp ⟨after.queued, after.refused⟩
        exact ⟨before.queued, before.refused⟩
      · intro before
        have after := intact.mpr ⟨before.queued, before.refused⟩
        exact ⟨after.queued, after.refused⟩
    · simp only [if_neg accepted] at keeps ⊢
      have node : ∀ key, (s.add settings .ofLink seed).1.HasNode key ↔ s.HasNode key :=
        fun key => (hasNode_add keeps).trans (or_iff_left fun both => accepted both.1)
      have linked : ∀ key, (s.add settings .ofLink seed).1.Linked key ↔ s.Linked key :=
        fun key => (linked_add keeps).trans (or_iff_left fun all => accepted all.1)
      have unlinked : ¬s.Linked (rules.normalizeUrl seed) := by
        intro was
        obtain mem | mem | mem := h.linked _ was
        · exact fresh.1 mem
        · rw [recorded] at mem
          cases mem
        · exact fresh.2 mem
      constructor
      · exact
          { counted := h.counted
            found := found_add keeps (by decide) h.found
            idle := fun idle => absurd walking (Bool.eq_false_iff.mp idle)
            seedsFirst := fun _ => ⟨links, recorded⟩
            nodup := h.nodup
            seen := fun _ key => by
              rw [List.mem_cons, h.seen walking, or_left_comm]
              exact or_congr_right List.mem_cons.symm
            apart := fun key refused mem => by
              obtain rfl | refused := List.mem_cons.mp refused
              · exact fresh.1 mem
              · exact h.apart key refused mem
            queued := fun key mem => by
              obtain was | ⟨lacks, full⟩ := h.queued key mem
              · exact Or.inl ((linked key).mpr was)
              · exact Or.inr (full_add keeps rfl lacks full)
            recorded := fun target mem => (linked _).mpr (h.recorded target mem)
            linked := fun key is => (h.linked key ((linked key).mp is)).imp_right
              (Or.imp_right (List.mem_cons_of_mem _)) }
      · constructor
        · intro intact
          refine ⟨fun key mem => (node key).mp (intact.queued key mem), fun key refused was => ?_⟩
          exact intact.refused key (List.mem_cons_of_mem _ refused) ((linked key).mpr was)
        · intro intact
          refine ⟨fun key mem => (node key).mpr (intact.queued key mem), fun key refused is => ?_⟩
          obtain rfl | refused := List.mem_cons.mp refused
          · exact unlinked ((linked _).mp is)
          · exact intact.refused key refused ((linked key).mp is)

end Seed

section Visit

variable {url : String} {depth : Nat} {frontier : List (String × Nat)}

theorem visit_eq (settings : CrawlSettings) (s : DiscoveryRun rules) (url : String) (depth : Nat)
    (frontier : List (String × Nat)) (answer : Option PageAnswer) :
    ∃ graph outcome counters links d, graph.nodes = s.graph.nodes ∧
      counters.total = s.counters.total + 1 ∧ s.visit settings url depth frontier answer =
        { s with
          graph
          counters
          frontier
          links
          depth := d
          visits := s.visits ++ [(rules.normalizeUrl url, outcome)] } := by
  rw [visit.eq_def]
  split
  · refine ⟨_, _, _, _, _, rfl, ?_, rfl⟩
    simp only [GapCounters.total]
    omega
  · split
    · refine ⟨_, _, _, _, _, rfl, ?_, rfl⟩
      simp only [GapCounters.total]
      omega
    · split
      · refine ⟨_, _, _, _, _, rfl, ?_, rfl⟩
        simp only [GapCounters.total]
        omega
      · cases answer with
        | none =>
          refine ⟨_, _, _, _, _, rfl, ?_, rfl⟩
          simp only [GapCounters.total]
          omega
        | some page =>
          refine ⟨s.graph.storeHtml url, _, _, _, _, rfl, ?_, rfl⟩
          simp only [leave, GapCounters.total]
          omega

theorem coherent_intact_visit (h : s.Coherent settings) (walking : s.walking = true)
    (seeds : s.seeds = []) (split : s.frontier = (url, depth) :: frontier)
    (answer : Option PageAnswer) :
    (s.visit settings url depth frontier answer).Coherent settings ∧
      ((s.visit settings url depth frontier answer).Intact ↔ s.Intact) := by
  obtain ⟨graph, outcome, counters, links, d, nodes, total, visited⟩ :=
    visit_eq settings s url depth frontier answer
  rw [visited]
  have moved : (({ s with
      frontier, visits := s.visits ++ [(rules.normalizeUrl url, outcome)] } :
        DiscoveryRun rules).queued).Perm s.queued := by
    rw [queued, queued, split, List.map_append, List.map_singleton, List.map_cons,
      ← List.append_assoc]
    exact List.perm_append_singleton _ _
  have node : ∀ key, (graph.nodes.find? key).isSome ↔ s.HasNode key := by
    intro key
    rw [nodes]
    rfl
  have linked : ∀ key, ((graph.nodes.find? key).isSome ∧ (s.sources key).domLink = true) ↔
      s.Linked key := fun key => and_congr_left fun _ => node key
  constructor
  · exact
      { counted := by
          rw [total, h.counted, List.length_append]
          rfl
        found := fun key is => h.found key ((node key).mp is)
        idle := fun idle => absurd walking (Bool.eq_false_iff.mp idle)
        seedsFirst := fun outstanding => absurd seeds outstanding
        nodup := moved.nodup_iff.mpr h.nodup
        seen := fun _ key => (h.seen walking key).trans (or_congr_left moved.mem_iff.symm)
        apart := fun key refused mem => h.apart key refused (moved.mem_iff.mp mem)
        queued := fun key mem => by
          obtain was | ⟨lacks, full⟩ := h.queued key (moved.mem_iff.mp mem)
          · exact Or.inl ((linked key).mpr was)
          · refine Or.inr ⟨fun is => lacks ((node key).mp is), ?_⟩
            rw [nodes]
            exact full
        recorded := fun target mem => (linked _).mpr (h.recorded target mem)
        linked := fun key is => (h.linked key ((linked key).mp is)).imp_left moved.mem_iff.mpr }
  · constructor
    · exact fun intact => ⟨fun key mem => (node key).mp (intact.queued key (moved.mem_iff.mpr mem)),
        fun key refused was => intact.refused key refused ((linked key).mpr was)⟩
    · exact fun intact => ⟨fun key mem => (node key).mpr (intact.queued key (moved.mem_iff.mp mem)),
        fun key refused is => intact.refused key refused ((linked key).mp is)⟩

end Visit

theorem Coherent.walking_of_ne (h : s.Coherent settings)
    (busy : s.queued ≠ [] ∨ s.links ≠ [] ∨ s.recorded ≠ []) : s.walking = true := by
  by_contra idle
  obtain ⟨queued, -, recorded, links, -, -⟩ := h.idle (Bool.eq_false_iff.mpr idle)
  obtain b | b | b := busy
  · exact b queued
  · exact b links
  · exact b recorded

/-- **Each step keeps the records in order, and loses something exactly when it
is the walk's first and the root has no room, or records a link whose key is that
of a refused seed.** -/
theorem coherent_intact_step {e : DiscoveryEvent} (h : s.Coherent settings)
    (evicts : s.EvictsNothing settings e) (hstep : s.step settings e = some t) :
    t.Coherent settings ∧ (t.Intact ↔ s.Intact ∧ s.LosesNothing settings e) := by
  have keeps := evicts t hstep
  cases e with
  | sitemap url =>
    rw [step] at hstep
    split at hstep
    · cases hstep
    · next idle =>
      cases hstep
      have idle := Bool.eq_false_iff.mpr idle
      have after := h.discover idle (by decide) rfl keeps
      exact ⟨after, iff_of_true (after.intact_of_idle idle) ⟨h.intact_of_idle idle, trivial⟩⟩
  | cms url =>
    rw [step] at hstep
    split at hstep
    · cases hstep
    · next idle =>
      cases hstep
      have idle := Bool.eq_false_iff.mpr idle
      have after := h.discover idle (by decide) rfl keeps
      exact ⟨after, iff_of_true (after.intact_of_idle idle) ⟨h.intact_of_idle idle, trivial⟩⟩
  | walk =>
    rw [step] at hstep
    split at hstep
    · cases hstep
    · next idle =>
      cases hstep
      have idle := Bool.eq_false_iff.mpr idle
      exact ⟨Coherent.walk keeps h idle, intact_walk keeps h idle⟩
  | seed =>
    rw [step] at hstep
    split at hstep
    · cases hstep
    · next seed seeds split =>
      cases hstep
      obtain ⟨after, same⟩ := coherent_intact_queueSeed h split keeps
      exact ⟨after, same.trans (and_iff_left trivial).symm⟩
  | visit answer =>
    rw [step] at hstep
    split at hstep
    · next url depth frontier seeds _ _ split =>
      cases hstep
      have walking : s.walking = true :=
        h.walking_of_ne (Or.inl (by rw [queued, split]; exact List.cons_ne_nil _ _))
      obtain ⟨after, same⟩ := coherent_intact_visit h walking seeds split answer
      exact ⟨after, same.trans (and_iff_left trivial).symm⟩
    · cases hstep
  | record =>
    rw [step] at hstep
    split at hstep
    · cases hstep
    · next target links split =>
      cases hstep
      have some_ : s.links ≠ [] := by rw [split]; exact List.cons_ne_nil _ _
      have seeds : s.seeds = [] := by
        by_contra outstanding
        exact some_ (h.seedsFirst outstanding).1
      have same : (s.record settings target links).graph =
          (s.add settings .ofLink target).1.graph := by
        rw [record]
        split
        · rfl
        · rfl
      rw [same] at keeps
      obtain ⟨after, lost⟩ := coherent_intact_record h
        (h.walking_of_ne (Or.inr (Or.inl some_))) seeds links keeps
      refine ⟨after, lost.trans (and_congr_right fun _ => ?_)⟩
      rw [LosesNothing, split]
      simp [add, DiscoverySource.ofLink]
  | queue =>
    rw [step] at hstep
    split at hstep
    · next target recorded _ split =>
      cases hstep
      have some_ : s.recorded ≠ [] := by rw [split]; exact List.cons_ne_nil _ _
      obtain ⟨after, same⟩ := coherent_intact_queue h
        (h.walking_of_ne (Or.inr (Or.inr some_))) split
      exact ⟨after, same.trans (and_iff_left trivial).symm⟩
    · cases hstep

end Steps

section Completed

variable {s : DiscoveryRun rules} {settings : CrawlSettings} {key : String}

theorem unaccounted_eq (h : s.Coherent settings) : s.report.unaccounted =
    (s.graph.nodes.rows.length : Int) - s.visits.length - s.report.sitemapOnly -
      s.report.cmsOnlyUnlinked := by
  have counted := h.counted
  rw [GapCounters.total] at counted
  rw [DiscoveryReport.unaccounted]
  simp only [report]
  omega

theorem sum_length_ite (l : List String) (p : String → Bool) (c : GapClass) :
    (l.map fun url => (if p url then [c] else []).length).sum = (l.filter p).length := by
  induction l with
  | nil => rfl
  | cons url l ih =>
    rw [List.map_cons, List.sum_cons, ih, List.filter_cons]
    cases p url with
    | false => exact Nat.zero_add _
    | true => exact Nat.add_comm _ _

theorem sum_length_classesOf (s : DiscoveryRun rules) :
    (s.graph.nodes.rows.map fun url => (s.classesOf (rules.normalizeUrl url)).length).sum =
      (s.visits.filter fun visit => ∃ key ∈ s.graph.nodes.rows.map rules.normalizeUrl,
        visit.1 = key).length + s.report.sitemapOnly + s.report.cmsOnlyUnlinked := by
  have visits := GroupedSums.sum_length_by_key s.graph.nodes.keys_nodup Prod.fst s.visits
  rw [List.map_map] at visits
  simp only [classesOf, List.length_append, List.length_map, List.sum_map_add]
  rw [sum_length_ite, sum_length_ite]
  exact congrArg (· + _ + _) visits

theorem classesOf_length (s : DiscoveryRun rules) (key : String) : (s.classesOf key).length =
    (s.visits.filter fun visit => visit.1 = key).length +
      (if (s.sources key).sitemapOnly then 1 else 0) +
        if (s.sources key).cmsOnlyUnlinked then 1 else 0 := by
  rw [classesOf, List.length_append, List.length_append, List.length_map]
  cases (s.sources key).sitemapOnly with
  | false =>
    cases (s.sources key).cmsOnlyUnlinked with
    | false => rfl
    | true => rfl
  | true =>
    cases (s.sources key).cmsOnlyUnlinked with
    | false => rfl
    | true => rfl

theorem one_class_of_unlinked {source : DiscoverySource} (link : source.domLink = false)
    (found : source ≠ {}) : ((if source.sitemapOnly then 1 else 0) +
      if source.cmsOnlyUnlinked then 1 else 0) = 1 := by
  obtain ⟨sitemap, domLink, cmsApi⟩ := source
  obtain rfl : domLink = false := link
  revert found
  revert sitemap cmsApi
  decide

theorem length_filter_visits (nodup : (s.visits.map Prod.fst).Nodup) :
    (s.visits.filter fun visit => visit.1 = key).length =
      if key ∈ s.visits.map Prod.fst then 1 else 0 := by
  have count : (s.visits.map Prod.fst).count key = _ := nodup.count
  rw [List.count_eq_countP, List.countP_map, List.countP_eq_length_filter] at count
  exact count

/-- **A completed crawl balances exactly when nothing was lost.** -/
theorem balanced_iff_intact (h : s.Coherent settings) (done : s.Completed) :
    s.Balanced ↔ s.Intact := by
  have visited : s.queued = s.visits.map Prod.fst := by
    rw [queued, done.2.1]
    rfl
  have nodup : (s.visits.map Prod.fst).Nodup := visited ▸ h.nodup
  have known : ∀ {key}, s.HasNode key ↔ ∃ k ∈ s.graph.nodes.rows.map rules.normalizeUrl,
      key = k := by
    intro key
    rw [hasNode_iff]
    constructor
    · rintro ⟨url, mem, rfl⟩
      exact ⟨_, List.mem_map_of_mem mem, rfl⟩
    · rintro ⟨k, mem, rfl⟩
      exact List.mem_map.mp mem
  have remainder := unaccounted_eq h
  have total := s.sum_length_classesOf
  constructor
  · rintro ⟨balance, oneClass⟩
    have ones : (s.graph.nodes.rows.map fun url =>
        (s.classesOf (rules.normalizeUrl url)).length).sum = s.graph.nodes.rows.length := by
      rw [List.map_congr_left oneClass, List.map_const', List.sum_replicate_nat, Nat.mul_one]
    have all : (s.visits.filter fun visit => ∃ key ∈ s.graph.nodes.rows.map rules.normalizeUrl,
        visit.1 = key).length = s.visits.length := by omega
    have all := List.length_filter_eq_length_iff.mp all
    constructor
    · intro key mem
      rw [visited] at mem
      obtain ⟨visit, listed, rfl⟩ := List.mem_map.mp mem
      exact known.mpr (of_decide_eq_true (all visit listed))
    · rintro key refused ⟨node, link⟩
      obtain ⟨url, mem, rfl⟩ := hasNode_iff.mp node
      have one := oneClass url mem
      have unvisited : rules.normalizeUrl url ∉ s.visits.map Prod.fst := by
        rw [← visited]
        exact h.apart _ refused
      rw [classesOf_length, length_filter_visits nodup, if_neg unvisited] at one
      simp [DiscoverySource.sitemapOnly, DiscoverySource.cmsOnlyUnlinked, link] at one
  · intro intact
    have one : ∀ url ∈ s.graph.nodes.rows, (s.classesOf (rules.normalizeUrl url)).length = 1 := by
      intro url mem
      have node : s.HasNode (rules.normalizeUrl url) := hasNode_iff.mpr ⟨url, mem, rfl⟩
      rw [classesOf_length, length_filter_visits nodup, ← visited]
      cases link : (s.sources (rules.normalizeUrl url)).domLink with
      | true =>
        have queued : rules.normalizeUrl url ∈ s.queued := by
          obtain mem | mem | mem := h.linked _ ⟨node, link⟩
          · exact mem
          · rw [done.2.2.2] at mem
            cases mem
          · exact absurd ⟨node, link⟩ (intact.refused _ mem)
        rw [if_pos queued]
        simp [DiscoverySource.sitemapOnly, DiscoverySource.cmsOnlyUnlinked, link]
      | false =>
        have unqueued : rules.normalizeUrl url ∉ s.queued := by
          intro queued
          obtain ⟨-, linked⟩ | ⟨lacks, -⟩ := h.queued _ queued
          · rw [link] at linked
            cases linked
          · exact lacks node
        rw [if_neg unqueued, Nat.zero_add]
        exact one_class_of_unlinked link (h.found _ node)
    have ones : (s.graph.nodes.rows.map fun url =>
        (s.classesOf (rules.normalizeUrl url)).length).sum = s.graph.nodes.rows.length := by
      rw [List.map_congr_left one, List.map_const', List.sum_replicate_nat, Nat.mul_one]
    have all : (s.visits.filter fun visit => ∃ key ∈ s.graph.nodes.rows.map rules.normalizeUrl,
        visit.1 = key) = s.visits := by
      refine List.filter_eq_self.mpr fun visit mem => decide_eq_true (known.mp ?_)
      refine intact.queued _ ?_
      rw [visited]
      exact List.mem_map_of_mem mem
    rw [ones, all] at total
    refine ⟨?_, one⟩
    omega

end Completed

theorem coherent_empty (settings : CrawlSettings) :
    ({} : DiscoveryRun rules).Coherent settings where
  counted := rfl
  found := fun _ node => absurd node Bool.false_ne_true
  idle := fun _ => ⟨rfl, rfl, rfl, rfl, rfl, fun _ linked => absurd linked.1 Bool.false_ne_true⟩
  seedsFirst := fun outstanding => absurd rfl outstanding
  nodup := List.nodup_nil
  seen := fun walking => by cases walking
  apart := fun _ mem => absurd mem List.not_mem_nil
  queued := fun _ mem => absurd mem List.not_mem_nil
  recorded := fun _ mem => absurd mem List.not_mem_nil
  linked := fun _ linked => absurd linked.1 Bool.false_ne_true

/-- **When the gap accounting of a crawl balances.** On every site, under any URL
rules, settings and answers, a crawl that runs to completion and evicts nothing
leaves no remainder, with every node in exactly one class, if and only if the root
was a node or had room when the walk began, and the graph accepted no link whose
key is that of a seed it had refused. -/
theorem balanced_iff_losesNothing (rules : UrlRules) (settings : CrawlSettings)
    (run : List DiscoveryEvent) (s : DiscoveryRun rules)
    (evicts : (machine rules settings).Meets (EvictsNothing settings) {} run)
    (reach : (machine rules settings).run {} run = some s) (done : s.Completed) :
    s.Balanced ↔ (machine rules settings).Meets (LosesNothing settings) {} run := by
  have coherent : s.Coherent settings :=
    Machine.invariant_of_meets (fun _ _ _ h evicts hstep => (coherent_intact_step h evicts hstep).1)
      (coherent_empty settings) evicts reach
  have intact : s.Intact ↔ ({} : DiscoveryRun rules).Intact ∧
      (machine rules settings).Meets (LosesNothing settings) {} run :=
    Machine.last_iff_meets
      (fun _ _ _ h evicts hstep => (coherent_intact_step h evicts hstep).1)
      (fun _ _ _ h evicts hstep => (coherent_intact_step h evicts hstep).2)
      (coherent_empty settings) evicts reach
  rw [balanced_iff_intact coherent done, intact]
  exact and_iff_right ((coherent_empty settings).intact_of_idle rfl)

section Sample

open CrawlChain

/-- A sitemap names one page, which the homepage links beside another. -/
def sampleDiscovery : List DiscoveryEvent :=
  [.sitemap "https://a.io/x/", .sitemap "https://a.io/z/", .walk,
    .visit (some ⟨["https://a.io/x/", "https://a.io/y/"]⟩), .record, .record, .queue, .queue,
    .visit none, .visit (some ⟨[]⟩)]

theorem balanced_sample :
    ∃ s, (machine sampleRules sampleSettings).run {} sampleDiscovery = some s ∧ s.Balanced := by
  have ran : ((machine sampleRules sampleSettings).run {} sampleDiscovery).any
      fun s => s.Completed := by decide
  obtain ⟨s, reach, done⟩ := (Option.any_eq_true _ _).mp ran
  exact ⟨s, reach, (balanced_iff_losesNothing sampleRules sampleSettings sampleDiscovery s
    (by decide) reach (of_decide_eq_true done)).mpr (by decide)⟩

/-- One page is all there is room for, and the sitemap has taken it. -/
def tightSettings : CrawlSettings where
  baseUrl := "https://a.io/"
  maxPages := 1
  preCrawlBudget := 1

def tightDiscovery : List DiscoveryEvent :=
  [.sitemap "https://a.io/x/", .walk, .visit (some ⟨[]⟩)]

/-- The homepage is fetched, and is no node: the report is one short. -/
theorem refused_root_unbalances :
    (machine sampleRules tightSettings).Meets (EvictsNothing tightSettings) {} tightDiscovery ∧
      (((machine sampleRules tightSettings).run {} tightDiscovery).any fun s =>
        s.Completed ∧ s.report.unaccounted = -1) ∧
      ¬∀ s ∈ (machine sampleRules tightSettings).run {} tightDiscovery, s.Balanced := by
  have short : ((machine sampleRules tightSettings).run {} tightDiscovery).any fun s =>
      s.Completed ∧ s.report.unaccounted = -1 := by decide
  refine ⟨by decide, short, fun balanced => ?_⟩
  obtain ⟨s, reach, found⟩ := (Option.any_eq_true _ _).mp short
  obtain ⟨-, remainder⟩ := of_decide_eq_true found
  rw [(balanced s reach).unaccounted] at remainder
  cases remainder

end Sample

end DiscoveryRun

end Rankuno
