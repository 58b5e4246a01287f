import Rankuno.Foundation.Machine
import Rankuno.SiteCrawl.Graph

/-!
# Crawls that resume one another

A crawl collects URLs from sitemaps and the CMS, then walks the links breadth
first, and may stop between any two of its steps. `resume_job` starts another one
from the checkpoint it leaves: the URLs not retrieved are its seeds, and the rest
of the checkpoint is what it must not request. A chain is a crawl and any number
of such resumes, one after the other, on a site that answers as it likes.

The graph of a resumed crawl has the excluded pages too, as link targets it never
requested, so its own checkpoint lists them as not retrieved. A chain keeps what
an earlier crawl retrieved from a later one exactly as long as no crawl but the
last one before each resume has retrieved anything, and a resumed crawl's graph
still has all it retrieved, `ResumesOnce`.
-/

namespace Rankuno

def maxLinksPerPage : Nat := 5000

/-- What the resume reads of a checkpoint. -/
structure CrawlCheckpoint where
  urls : List String
  unfetched : List String
  deriving DecidableEq

namespace CrawlCheckpoint

/-- `remaining`, the seeds of the resumed crawl. -/
def remaining (c : CrawlCheckpoint) : List String := c.unfetched

/-- `already`, what the resumed crawl must not request. -/
def already (c : CrawlCheckpoint) : List String := c.urls.filter fun url => url ∉ c.remaining

theorem notMem_already {c : CrawlCheckpoint} {url : String} (h : url ∈ c.remaining) :
    url ∉ c.already := by
  intro mem
  exact of_decide_eq_true (List.mem_filter.mp mem).2 h

theorem mem_remaining_or_already {c : CrawlCheckpoint} {url : String} (h : url ∈ c.urls) :
    url ∈ c.remaining ∨ url ∈ c.already := by
  by_cases outstanding : url ∈ c.remaining
  · exact Or.inl outstanding
  · exact Or.inr (List.mem_filter.mpr ⟨h, decide_eq_true outstanding⟩)

end CrawlCheckpoint

/-- A page that answered as HTML, by the links read from it, in document order. -/
structure PageAnswer where
  links : List String
  deriving DecidableEq

/-- One crawl in the middle of its work. -/
structure SiteCrawl (rules : UrlRules) where
  graph : SiteGraph rules := {}
  /-- The link walk has begun. -/
  walking : Bool := false
  frontier : List (String × Nat) := []
  seen : List String := []
  /-- The links of the page just stored, and the depth of that page. -/
  reading : Option (List String × Nat) := none
  /-- The keys of the pages it retrieved, those since evicted among them. -/
  retrieved : List String := []

inductive SiteCrawlEvent where
  /-- A sitemap or the CMS names a URL. -/
  | discover (url : String)
  | walk
  /-- The next URL of the frontier; the answer counts only if it is requested. -/
  | visit (answer : Option PageAnswer)
  | recordLinks
  deriving DecidableEq

namespace SiteCrawl

variable {rules : UrlRules}

/-- `excluded`. -/
def excluded (rules : UrlRules) (settings : CrawlSettings) : List String :=
  settings.excludeUrls.map rules.normalizeUrl

/-- The seeds of a crawl, queued unless they are there already or refused. -/
def queueSeeds (settings : CrawlSettings) (c : SiteCrawl rules) : List String → SiteCrawl rules
  | [] => c
  | seed :: seeds =>
    if rules.normalizeUrl seed ∈ c.seen then queueSeeds settings c seeds
    else
      let added := c.graph.add settings true seed
      queueSeeds settings
        { c with
          graph := added.1
          seen := rules.normalizeUrl seed :: c.seen
          frontier := if added.2 then c.frontier ++ [(seed, 0)] else c.frontier } seeds

/-- The beginning of `_crawl_dom`. -/
def walk (settings : CrawlSettings) (c : SiteCrawl rules) : SiteCrawl rules :=
  queueSeeds settings
    { c with
      graph := (c.graph.add settings true settings.baseUrl).1
      walking := true
      frontier := [(settings.baseUrl, 0)]
      seen := [rules.normalizeUrl settings.baseUrl] } settings.seedUrls

/-- The targets of a page that were not seen before join the frontier. -/
def queueTargets (depth : Nat) (c : SiteCrawl rules) : List String → SiteCrawl rules
  | [] => c
  | target :: targets =>
    if rules.normalizeUrl target ∈ c.seen then queueTargets depth c targets
    else
      queueTargets depth
        { c with
          seen := rules.normalizeUrl target :: c.seen
          frontier := c.frontier ++ [(target, depth + 1)] } targets

/-- The next URL of the frontier is passed over. -/
def Skips (rules : UrlRules) (settings : CrawlSettings) (url : String) (depth : Nat) : Prop :=
  (∃ limit ∈ settings.maxDepth, limit < depth) ∨ rules.isFacetedFilter url = true ∨
    rules.normalizeUrl url ∈ excluded rules settings

instance (settings : CrawlSettings) (url : String) (depth : Nat) :
    Decidable (Skips rules settings url depth) :=
  inferInstanceAs (Decidable ((∃ limit ∈ settings.maxDepth, _) ∨ _ ∨ _))

/-- One step of a crawl. A sitemap or the CMS is read only before the walk. -/
def step (settings : CrawlSettings) (c : SiteCrawl rules) :
    SiteCrawlEvent → Option (SiteCrawl rules)
  | .discover url =>
    if c.walking then none
    else some { c with graph := (c.graph.add settings false url).1 }
  | .walk => if c.walking then none else some (c.walk settings)
  | .visit answer =>
    match c.reading, c.frontier with
    | none, (url, depth) :: frontier =>
      if Skips rules settings url depth then some { c with frontier }
      else
        match answer with
        | none => some { c with frontier }
        | some page =>
          some { c with
            graph := c.graph.storeHtml url
            frontier
            reading := some (page.links.take maxLinksPerPage, depth)
            retrieved := c.retrieved ++ [rules.normalizeUrl url] }
    | _, _ => none
  | .recordLinks =>
    match c.reading with
    | none => none
    | some (links, depth) =>
      let recorded := c.graph.recordLinks settings links
      some (queueTargets depth { c with graph := recorded.1, reading := none } recorded.2)

/-- What the checkpoint of a crawl that stops here has. -/
def checkpoint (c : SiteCrawl rules) : CrawlCheckpoint :=
  ⟨c.graph.allUrls, c.graph.unfetchedUrls⟩

/-- A crawl marks as retrieved only what it retrieved, and that is nothing it
was told to exclude. -/
structure Honest (settings : CrawlSettings) (c : SiteCrawl rules) : Prop where
  retrieved_of_fetched : ∀ key ∈ c.graph.fetched, key ∈ c.retrieved
  notMem_excluded : ∀ key ∈ c.retrieved, key ∉ excluded rules settings

section Steps

variable {settings : CrawlSettings} {c d : SiteCrawl rules}

theorem honest_empty : Honest settings ({} : SiteCrawl rules) where
  retrieved_of_fetched := fun _ mem => absurd mem List.not_mem_nil
  notMem_excluded := fun _ mem => absurd mem List.not_mem_nil

theorem Honest.of_subset (h : c.Honest settings) (retrieved : d.retrieved = c.retrieved)
    (fetched : ∀ key ∈ d.graph.fetched, key ∈ c.graph.fetched) : d.Honest settings where
  retrieved_of_fetched := fun key mem => by
    rw [retrieved]
    exact h.retrieved_of_fetched key (fetched key mem)
  notMem_excluded := by
    rw [retrieved]
    exact h.notMem_excluded

theorem honest_queueSeeds {seeds : List String} (h : c.Honest settings) :
    (c.queueSeeds settings seeds).Honest settings := by
  induction seeds generalizing c with
  | nil => exact h
  | cons seed seeds ih =>
    rw [queueSeeds]
    split
    · exact ih h
    · exact ih (h.of_subset rfl fun _ => SiteGraph.mem_fetched_of_add)

theorem honest_walk (h : c.Honest settings) : (c.walk settings).Honest settings := by
  rw [walk]
  refine honest_queueSeeds ?_
  exact h.of_subset rfl fun key mem => SiteGraph.mem_fetched_of_add mem

theorem queueTargets_graph {depth : Nat} {targets : List String} :
    (c.queueTargets depth targets).graph = c.graph ∧
      (c.queueTargets depth targets).retrieved = c.retrieved := by
  induction targets generalizing c with
  | nil => exact ⟨rfl, rfl⟩
  | cons target targets ih =>
    rw [queueTargets]
    split
    · exact ih
    · exact ih

theorem honest_storeHtml {url : String} {frontier : List (String × Nat)}
    {reading : Option (List String × Nat)} (h : c.Honest settings)
    (requested : rules.normalizeUrl url ∉ excluded rules settings) :
    Honest settings
      { c with
        graph := c.graph.storeHtml url
        frontier
        reading
        retrieved := c.retrieved ++ [rules.normalizeUrl url] } where
  retrieved_of_fetched := by
    intro key mem
    obtain rfl | mem := SiteGraph.mem_fetched_storeHtml.mp mem
    · exact List.mem_append_right _ (List.mem_singleton_self _)
    · exact List.mem_append_left _ (h.retrieved_of_fetched key mem)
  notMem_excluded := by
    intro key mem
    obtain mem | mem := List.mem_append.mp mem
    · exact h.notMem_excluded key mem
    · rwa [List.mem_singleton.mp mem]

theorem honest_step {e : SiteCrawlEvent} (h : c.Honest settings)
    (hstep : c.step settings e = some d) : d.Honest settings := by
  cases e with
  | discover url =>
    rw [step] at hstep
    split at hstep
    · cases hstep
    · cases hstep
      exact h.of_subset rfl fun _ => SiteGraph.mem_fetched_of_add
  | walk =>
    rw [step] at hstep
    split at hstep
    · cases hstep
    · cases hstep
      exact honest_walk h
  | visit answer =>
    rw [step] at hstep
    split at hstep
    · next url depth frontier _ _ =>
      split at hstep
      · cases hstep
        exact h.of_subset rfl fun _ => id
      · next requested =>
        split at hstep
        · cases hstep
          exact h.of_subset rfl fun _ => id
        · cases hstep
          exact honest_storeHtml h fun mem => requested (Or.inr (Or.inr mem))
    · cases hstep
  | recordLinks =>
    rw [step] at hstep
    split at hstep
    · cases hstep
    · cases hstep
      refine h.of_subset queueTargets_graph.2 fun key mem => ?_
      rw [queueTargets_graph.1] at mem
      exact SiteGraph.mem_fetched_of_recordLinks mem

end Steps

theorem mem_already_checkpoint {c : SiteCrawl rules} {key : String} :
    key ∈ c.checkpoint.already.map rules.normalizeUrl ↔ c.graph.Holds key := by
  rw [List.mem_map]
  constructor
  · rintro ⟨url, mem, rfl⟩
    obtain ⟨node, unlisted⟩ := List.mem_filter.mp mem
    refine ⟨?_, ?_⟩
    · by_contra unfetched
      exact of_decide_eq_true unlisted
        (List.mem_filter.mpr ⟨node, decide_eq_true unfetched⟩)
    · rw [Table.find?_key node]
      rfl
  · rintro ⟨fetched, node⟩
    obtain ⟨url, found⟩ := Option.isSome_iff_exists.mp node
    obtain ⟨mem, rfl⟩ := Table.find?_eq_some.mp found
    refine ⟨url, List.mem_filter.mpr ⟨mem, decide_eq_true fun listed => ?_⟩, rfl⟩
    exact of_decide_eq_true (List.mem_filter.mp listed).2 fetched

end SiteCrawl

/-- A chain of crawls, the last of which is under way. -/
structure CrawlChain (rules : UrlRules) where
  settings : CrawlSettings
  crawl : SiteCrawl rules := {}
  /-- What each crawl before it retrieved, the first crawl first. -/
  earlier : List (List String) := []
  /-- The checkpoint it was resumed from. -/
  resumed : Option CrawlCheckpoint := none

inductive ChainEvent where
  | crawl (event : SiteCrawlEvent)
  /-- The crawl has stopped, and `resume_job` is called on its job. -/
  | resume
  deriving DecidableEq

namespace CrawlChain

variable {rules : UrlRules}

/-- `resume_job` once it has read the checkpoint. -/
def resumeJob (s : CrawlChain rules) : Option (CrawlChain rules) :=
  let checkpoint := s.crawl.checkpoint
  if checkpoint.remaining = [] then none
  else
    some {
      settings :=
        { s.settings with
          seedUrls := checkpoint.remaining
          excludeUrls := checkpoint.already }
      earlier := s.earlier ++ [s.crawl.retrieved]
      resumed := some checkpoint }

def step (s : CrawlChain rules) : ChainEvent → Option (CrawlChain rules)
  | .crawl event => (s.crawl.step s.settings event).map fun crawl => { s with crawl }
  | .resume => s.resumeJob

def machine (rules : UrlRules) : Machine (CrawlChain rules) ChainEvent := ⟨step⟩

/-- What a chain owes the site and its operator: a resume splits what its
checkpoint discovered, no crawl may request what an earlier one retrieved, and no
two retrieve the same page. -/
structure NeverRefetches (s : CrawlChain rules) : Prop where
  apart : ∀ checkpoint ∈ s.resumed, ∀ url ∈ s.settings.seedUrls, url ∉ s.settings.excludeUrls
  covers : ∀ checkpoint ∈ s.resumed, ∀ url ∈ checkpoint.urls,
    url ∈ s.settings.seedUrls ∨ url ∈ s.settings.excludeUrls
  excluded : ∀ keys ∈ s.earlier, ∀ key ∈ keys, key ∈ SiteCrawl.excluded rules s.settings
  once : (s.earlier ++ [s.crawl.retrieved]).Pairwise List.Disjoint

/-- A resume that starts a crawl resumes one before which nothing was retrieved,
and whose graph still has every page it retrieved. -/
def ResumesOnce (s : CrawlChain rules) : ChainEvent → Prop
  | .crawl _ => True
  | .resume => s.crawl.checkpoint.remaining ≠ [] →
      (∀ keys ∈ s.earlier, keys = []) ∧ ∀ key ∈ s.crawl.retrieved, s.crawl.graph.Holds key

section Steps

variable {s t : CrawlChain rules} {a : ChainEvent}

theorem resumeJob_eq_some (h : s.resumeJob = some t) :
    s.crawl.checkpoint.remaining ≠ [] ∧ t.earlier = s.earlier ++ [s.crawl.retrieved] ∧
      t.crawl = {} ∧ t.resumed = some s.crawl.checkpoint ∧
      t.settings.seedUrls = s.crawl.checkpoint.remaining ∧
      t.settings.excludeUrls = s.crawl.checkpoint.already := by
  rw [resumeJob] at h
  split at h
  · cases h
  · next outstanding =>
    cases h
    exact ⟨outstanding, rfl, rfl, rfl, rfl, rfl⟩

theorem honest_step (h : s.crawl.Honest s.settings) (hstep : s.step a = some t) :
    t.crawl.Honest t.settings := by
  cases a with
  | crawl event =>
    obtain ⟨crawl, hcrawl, rfl⟩ := Option.map_eq_some_iff.mp hstep
    exact SiteCrawl.honest_step h hcrawl
  | resume =>
    obtain ⟨-, -, fresh, -⟩ := resumeJob_eq_some hstep
    rw [fresh]
    exact SiteCrawl.honest_empty

theorem once_of_excluded (others : s.earlier.Pairwise List.Disjoint)
    (excluded : ∀ keys ∈ s.earlier, ∀ key ∈ keys, key ∈ SiteCrawl.excluded rules s.settings)
    (honest : s.crawl.Honest s.settings) :
    (s.earlier ++ [s.crawl.retrieved]).Pairwise List.Disjoint := by
  rw [List.pairwise_append]
  refine ⟨others, List.pairwise_singleton _ _, fun keys before last mem key old new => ?_⟩
  rw [List.mem_singleton] at mem
  subst mem
  exact honest.notMem_excluded key new (excluded keys before key old)

theorem neverRefetches_crawl {event : SiteCrawlEvent} (h : s.NeverRefetches)
    (honest : s.crawl.Honest s.settings) (hstep : s.step (.crawl event) = some t) :
    t.NeverRefetches := by
  have after := honest_step honest hstep
  obtain ⟨crawl, -, rfl⟩ := Option.map_eq_some_iff.mp hstep
  exact ⟨h.apart, h.covers, h.excluded,
    once_of_excluded (List.pairwise_append.mp h.once).1 h.excluded after⟩

theorem neverRefetches_resume (h : s.NeverRefetches) (honest : s.crawl.Honest s.settings)
    (hstep : s.resumeJob = some t) : t.NeverRefetches ↔ s.ResumesOnce .resume := by
  obtain ⟨outstanding, earlier, fresh, resumed, seeds, exclude⟩ := resumeJob_eq_some hstep
  have excluded : ∀ key, key ∈ SiteCrawl.excluded rules t.settings ↔ s.crawl.graph.Holds key := by
    intro key
    rw [SiteCrawl.excluded, exclude]
    exact SiteCrawl.mem_already_checkpoint
  constructor
  · intro after _
    have held : ∀ keys ∈ t.earlier, ∀ key ∈ keys, s.crawl.graph.Holds key :=
      fun keys mem key new => (excluded key).mp (after.excluded keys mem key new)
    rw [earlier] at held
    constructor
    · intro keys mem
      -- A page of an earlier crawl was excluded, so this one did not retrieve it.
      refine List.eq_nil_iff_forall_not_mem.mpr fun key old => ?_
      obtain ⟨fetched, -⟩ := held keys (List.mem_append_left _ mem) key old
      exact honest.notMem_excluded key (honest.retrieved_of_fetched key fetched)
        (h.excluded keys mem key old)
    · exact held _ (List.mem_append_right _ (List.mem_singleton_self _))
  · intro once
    obtain ⟨first, held⟩ := once outstanding
    refine ⟨?_, ?_, ?_, ?_⟩
    · intro checkpoint _ url seed
      rw [exclude]
      rw [seeds] at seed
      exact CrawlCheckpoint.notMem_already seed
    · intro checkpoint mem url discovered
      obtain rfl := Option.some.inj (resumed.symm.trans mem)
      rw [seeds, exclude]
      exact CrawlCheckpoint.mem_remaining_or_already discovered
    · intro keys mem key old
      rw [excluded]
      rw [earlier] at mem
      obtain mem | mem := List.mem_append.mp mem
      · rw [first keys mem] at old
        cases old
      · rw [List.mem_singleton.mp mem] at old
        exact held key old
    · rw [earlier, fresh, List.pairwise_append]
      refine ⟨h.once, List.pairwise_singleton _ _, fun keys _ last mem => ?_⟩
      rw [List.mem_singleton.mp mem]
      exact List.disjoint_nil_right keys

theorem neverRefetches_step (h : s.NeverRefetches) (honest : s.crawl.Honest s.settings)
    (hstep : s.step a = some t) : t.NeverRefetches ↔ s.ResumesOnce a := by
  cases a with
  | crawl event => exact iff_of_true (neverRefetches_crawl h honest hstep) trivial
  | resume => exact neverRefetches_resume h honest hstep

theorem resumesOnce_of_refused (h : s.step a = none) : s.ResumesOnce a := by
  cases a with
  | crawl event => trivial
  | resume =>
    intro outstanding
    rw [step, resumeJob] at h
    dsimp only at h
    rw [if_neg outstanding] at h
    cases h

end Steps

theorem neverRefetches_first (settings : CrawlSettings) :
    NeverRefetches ({ settings } : CrawlChain rules) where
  apart := fun _ mem => absurd mem (Option.not_mem_none _)
  covers := fun _ mem => absurd mem (Option.not_mem_none _)
  excluded := fun _ mem => absurd mem List.not_mem_nil
  once := List.pairwise_singleton _ _

/-- **When a chain of resumes never fetches a page twice.** On every site, under
any URL rules and whatever crawl comes first, the chain is as it should be in all
states of the run exactly when each resume in it that starts a crawl resumes one
before which no crawl had retrieved a page, and whose graph has lost none of the
pages it retrieved itself. -/
theorem neverRefetches_iff_resumesOnce (rules : UrlRules) (settings : CrawlSettings)
    (run : List ChainEvent) :
    (machine rules).Always NeverRefetches { settings } run ↔
      (machine rules).Meets ResumesOnce { settings } run := by
  have honest : (machine rules).Always (fun s => s.crawl.Honest s.settings) { settings } run :=
    Machine.always_of_invariant (fun _ _ _ => honest_step) SiteCrawl.honest_empty fun _ h => h
  have both : (machine rules).Always
      (fun s => s.NeverRefetches ∧ s.crawl.Honest s.settings) { settings } run ↔
        (machine rules).Meets ResumesOnce { settings } run := by
    refine Machine.always_iff_meets ?_ (fun _ _ => resumesOnce_of_refused)
      ⟨neverRefetches_first settings, SiteCrawl.honest_empty⟩
    intro s a t ⟨never, honest⟩ hstep
    rw [and_iff_left (honest_step honest hstep)]
    exact neverRefetches_step never honest hstep
  rw [← both]
  constructor
  · intro never pre post u split hu
    exact ⟨never pre post u split hu, honest pre post u split hu⟩
  · intro h pre post u split hu
    exact (h pre post u split hu).1

/-- What the rules answer on the addresses of the sample below: each is its own
key, a page, and too short to be part of a loop. -/
def sampleRules : UrlRules where
  normalizeUrl := id
  isCrawlableUrl := fun _ => true
  isSpiderTrap := fun _ => false
  isMalformedUrl := fun _ => false
  isFacetedFilter := fun _ => false
  tailOf := fun _ => none

def sampleSettings : CrawlSettings where
  baseUrl := "https://a.io/"
  maxPages := 100
  preCrawlBudget := 50

/-- The first crawl stops after the homepage and the second after one more page. -/
def sampleChain : List ChainEvent :=
  [.crawl .walk, .crawl (.visit (some ⟨["https://a.io/x/", "https://a.io/y/"]⟩)),
    .crawl .recordLinks, .resume,
    .crawl .walk, .crawl (.visit none), .crawl (.visit (some ⟨[]⟩)), .resume,
    .crawl .walk, .crawl (.visit (some ⟨[]⟩))]

/-- The third crawl requests the homepage, which the first one retrieved. -/
theorem refetches_homepage :
    (((machine sampleRules).run { settings := sampleSettings } sampleChain).any fun s =>
      s.earlier = [["https://a.io/"], ["https://a.io/x/"]] ∧
        s.crawl.retrieved = ["https://a.io/"]) ∧
      ¬(machine sampleRules).Always NeverRefetches { settings := sampleSettings } sampleChain := by
  have refetched : ((machine sampleRules).run { settings := sampleSettings } sampleChain).any
      fun s => s.earlier = [["https://a.io/"], ["https://a.io/x/"]] ∧
        s.crawl.retrieved = ["https://a.io/"] := by decide
  refine ⟨refetched, fun always => ?_⟩
  obtain ⟨s, hs, found⟩ := (Option.any_eq_true _ _).mp refetched
  obtain ⟨earlier, retrieved⟩ := of_decide_eq_true found
  have once := (always.last hs).once
  rw [earlier, retrieved] at once
  have apart := (List.pairwise_append.mp once).2.2 _ List.mem_cons_self _ List.mem_cons_self
  exact apart List.mem_cons_self List.mem_cons_self

end CrawlChain

end Rankuno
