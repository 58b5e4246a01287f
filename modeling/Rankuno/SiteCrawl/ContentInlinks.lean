import Rankuno.SiteCrawl.BodyRegion
import Rankuno.SiteCrawl.SideTables

/-!
# Inlinks from the content of pages

`record_links` counts every link of a page for its target, and a link of the page's body a
second time. The links of a page are distinct as they are written, and cut to a bound. Their
targets are told apart by key, so that a target can be counted once for each of its spellings
on one page, and not at all for a spelling that the cut or `add` turns away.
-/

namespace Rankuno

open Python PageLinks

/-- `cap_links`. -/
def capLinks (links : List Text) : List Text :=
  if links.length ≤ maxLinksPerPage then links else links.take maxLinksPerPage

/-- `cap_reading`. -/
def capReading (reading : LinkReading) : LinkReading :=
  let links := capLinks reading.links
  if links.length = reading.links.length then reading
  else ⟨links, reading.bodyLinks.filter fun link => links.any fun other => other = link⟩

/-- A page whose links are recorded, and what its links are read with. -/
structure LinkingPage where
  url : String
  depth : Nat
  request : LinkRequest
  events : List Event

/-- `add` has nothing against the URL itself. -/
def UrlRules.admits (rules : UrlRules) (input : GraphInput) (url : String) : Bool :=
  url = input.baseUrl ||
    (rules.isCrawlableUrl url && !rules.isSpiderTrap url && !rules.isMalformedUrl url)

/-- A link that is recorded for the page with this key. -/
def UrlRules.records (rules : UrlRules) (input : GraphInput) (key url : String) : Bool :=
  rules.admits input url && rules.normalizeUrl url = key

section Calls

variable {Trail Record Facts Result : Type}
variable (rules : UrlRules) (linkRules : LinkRules) (reader : PageReader Trail Facts Result)
  (input : GraphInput)

namespace LinkingPage

variable (page : LinkingPage)

def reading : LinkReading := readPageLinks linkRules page.request page.events

def toUrls : List String := (capReading (page.reading linkRules)).links.map String.ofList

def bodyUrls : List String := (capReading (page.reading linkRules)).bodyLinks.map String.ofList

/-- The body of the page has a link to the page with this key. -/
def linksTo (key : String) : Bool :=
  (page.reading linkRules).bodyLinks.any fun link => rules.normalizeUrl (String.ofList link) = key

/-- The recorded links of the body to the page with this key, as they are written. -/
def spellings (key : String) : List String :=
  (page.toUrls linkRules).filter fun url =>
    (page.bodyUrls linkRules).contains url && rules.records input key url

/-- A target in the body is recorded in one spelling. -/
def SpelledOnce (key : String) : Prop :=
  page.linksTo rules linkRules key = true → (page.spellings rules linkRules input key).length = 1

end LinkingPage

/-- A graph, and the pages whose links are recorded in it. -/
def linkCalls : Machine (PageGraph rules Record Facts) LinkingPage where
  step g page := some (g.recordLinks reader input page.url (page.toUrls linkRules) page.depth
    (page.bodyUrls linkRules)).1

variable {rules} in
/-- Neither the ceiling nor the filter nor a loop turns a target away. -/
def PageGraph.AddsAdmitted (depth : Nat) (inBody : List String) :
    PageGraph rules Record Facts → List String → Prop
  | _, [] => True
  | g, target :: targets =>
    (rules.admits input target = true → (g.add reader input
      { url := target, sources := .ofLink, depth := some (depth + 1) }).2 = true) ∧
      AddsAdmitted depth inBody (g.recordTargets reader input depth inBody [target]).1 targets

variable {rules} in
/-- So for the targets of a page. -/
def AddsLinks (g : PageGraph rules Record Facts) (page : LinkingPage) : Prop :=
  PageGraph.AddsAdmitted reader input page.depth (page.bodyUrls linkRules)
    (g.changeNode (rules.normalizeUrl page.url)
      (.linking (page.toUrls linkRules) (page.bodyUrls linkRules))) (page.toUrls linkRules)

variable {rules} in
/-- A page with this key has a node before the calls, or a link that is recorded. -/
def Reached (g : PageGraph rules Record Facts) (pages : List LinkingPage) (key : String) : Prop :=
  (g.nodes.find? key).isSome ∨ ∃ page ∈ pages, ∃ url ∈ page.toUrls linkRules,
    rules.records input key url = true

/-- The pages whose body links to the page with this key. -/
def linkingPages (pages : List LinkingPage) (key : String) : List String :=
  ((pages.filter fun page => page.linksTo rules linkRules key).map fun page =>
    rules.normalizeUrl page.url).dedup

variable {rules} in
/-- Nothing links to a node yet. -/
def PageGraph.Unlinked (g : PageGraph rules Record Facts) : Prop :=
  ∀ node ∈ g.nodes.rows, node.inboundLinks = 0 ∧ node.uniqueContentInlinks = some 0

variable {rules} in
/-- Each node counts the pages whose body links to it, and no more than its links. -/
def ExactInlinks (pages : List LinkingPage) (g : PageGraph rules Record Facts) : Prop :=
  ∀ node ∈ g.nodes.rows,
    let linking := linkingPages rules linkRules pages (rules.normalizeUrl node.url)
    node.uniqueContentInlinks = some linking.length ∧ linking.length ≤ node.inboundLinks

end Calls

namespace PageGraph

variable {rules : UrlRules} {Trail Record Facts Result : Type}
variable {linkRules : LinkRules} {reader : PageReader Trail Facts Result} {input : GraphInput}
variable {g : PageGraph rules Record Facts} {s : Sighting Record} {key k target : String}
variable {change : NodeChange Record Facts} {known : Prop} {n m depth : Nat} {inBody : List String}

def counts (g : PageGraph rules Record Facts) (k : String) : Option (Nat × Option Nat) :=
  (g.nodes.find? k).map fun node => (node.inboundLinks, node.uniqueContentInlinks)

theorem counts_changeNode (keeps : ∀ node, (change.apply node).inboundLinks = node.inboundLinks ∧
      (change.apply node).uniqueContentInlinks = node.uniqueContentInlinks) :
    (g.changeNode key change).counts k = g.counts k := by
  rw [counts, find?_changeNode]
  split
  · rw [Option.map_map]
    exact congrArg (Option.map · _) (funext fun node => Prod.ext (keeps node).1 (keeps node).2)
  · rfl

theorem counts_linked {body : Bool} : (g.changeNode key (.linked body)).counts k =
    if key = k then (g.counts k).map fun counted =>
      (counted.1 + 1, if body then some (counted.2.getD 0 + 1) else counted.2)
    else g.counts k := by
  rw [counts, find?_changeNode]
  split
  · rw [counts, Option.map_map, Option.map_map]
    rfl
  · rfl

theorem counts_insertNode (added : (g.insertNode reader input s).2 = true) :
    (g.insertNode reader input s).1.counts k =
      if rules.normalizeUrl s.url = k then (g.counts k).or (some (0, some 0)) else g.counts k := by
  rw [insertNode] at added ⊢
  cases inserted : g.nodes.insert? { url := s.url, facts := reader.unrequested } with
  | none =>
    change (g.see s).counts k = _
    rw [see, counts_changeNode fun _ => ⟨rfl, rfl⟩]
    split
    · next same =>
      obtain ⟨node, found⟩ := Option.isSome_iff_exists.mp (Table.insert?_eq_none.mp inserted)
      rw [counts, ← same, found]
      rfl
    · rfl
  | some nodes =>
    rw [inserted] at added
    dsimp only at added ⊢
    split at added
    · cases added
    · next room =>
      rw [if_neg room]
      dsimp only
      rw [see, counts_changeNode fun _ => ⟨rfl, rfl⟩, counts, Table.find?_insert? inserted]
      split
      · next same =>
        rw [counts, ← same, (Table.insert?_eq_some.mp inserted).1]
        rfl
      · rfl

theorem counts_evict_nil {loops : LoopWatcher} :
    ({ g.evict [] with loops } : PageGraph rules Record Facts).counts k = g.counts k :=
  congrArg (Option.map _) (find?_delete_keys (p := fun key => ([] : List String).contains key))

theorem counts_add (free : rules.admits input s.url = true → (g.add reader input s).2 = true) :
    (g.add reader input s).2 = rules.admits input s.url ∧ (g.add reader input s).1.counts k =
        if rules.admits input s.url = true ∧ rules.normalizeUrl s.url = k then
          (g.counts k).or (some (0, some 0))
        else g.counts k := by
  by_cases root : s.url = input.baseUrl
  · have admitted : rules.admits input s.url = true := by
      rw [UrlRules.admits, decide_eq_true root, Bool.true_or]
    have added := free admitted
    rw [add, if_pos root] at added ⊢
    refine ⟨added.trans admitted.symm, ?_⟩
    rw [counts_insertNode added, admitted]
    simp
  · have verdict : rules.admits input s.url = !(!rules.isCrawlableUrl s.url ||
        rules.isSpiderTrap s.url || rules.isMalformedUrl s.url) := by
      rw [UrlRules.admits, decide_eq_false root, Bool.false_or, Bool.not_or, Bool.not_or,
        Bool.not_not]
    rw [add, if_neg root] at free ⊢
    cases refused : !rules.isCrawlableUrl s.url || rules.isSpiderTrap s.url ||
        rules.isMalformedUrl s.url with
    | true =>
      rw [verdict, refused]
      simp
    | false =>
      have admitted : rules.admits input s.url = true := by rw [verdict, refused]; rfl
      have added := free admitted
      rw [refused, if_neg Bool.false_ne_true] at added
      rw [if_neg Bool.false_ne_true]
      dsimp only at added ⊢
      cases looped : (g.loops.observe (rules.tailOf s.url) (rules.normalizeUrl s.url)).refuse with
      | true =>
        rw [looped] at added
        cases added
      | false =>
        rw [looped, if_neg Bool.false_ne_true] at added
        rw [if_neg Bool.false_ne_true]
        rw [SiteGraph.evict_observe looped] at added ⊢
        split at added
        · cases added
        · next passes =>
          rw [if_neg passes, counts_insertNode added, counts_evict_nil, admitted]
          refine ⟨added, ?_⟩
          simp

theorem counts_recordTargets_singleton
    (free : rules.admits input target = true → (g.add reader input
      { url := target, sources := .ofLink, depth := some (depth + 1) }).2 = true) :
    (g.recordTargets reader input depth inBody [target]).1.counts k =
      if rules.admits input target = true ∧ rules.normalizeUrl target = k then
        some (((g.counts k).getD (0, some 0)).1 + 1,
          if inBody.contains target then some ((((g.counts k).getD (0, some 0)).2.getD 0) + 1)
          else ((g.counts k).getD (0, some 0)).2)
      else g.counts k := by
  obtain ⟨added, counted⟩ := @counts_add _ _ _ _ _ reader input g
    { url := target, sources := .ofLink, depth := some (depth + 1) } k free
  rw [recordTargets]
  dsimp only at added counted ⊢
  cases admitted : rules.admits input target with
  | false =>
    rw [admitted] at added counted
    rw [added, if_neg Bool.false_ne_true, recordTargets]
    simpa using counted
  | true =>
    rw [admitted] at added counted
    rw [added, if_pos rfl, recordTargets]
    dsimp only
    rw [counts_linked, counted]
    by_cases same : rules.normalizeUrl target = k
    · simp only [same, and_self, if_true]
      cases g.counts k with
      | none => rfl
      | some counted => rfl
    · simp [same]

/-- What was counted for a key, which has a node only where it is known. -/
def Tally (known : Prop) (g : PageGraph rules Record Facts) (k : String) (n m : Nat) : Prop :=
  (g.counts k = none ∧ n = 0 ∧ m = 0) ∨ (known ∧ g.counts k = some (n, some m))

theorem Tally.recordTarget (tally : g.Tally known k n m)
    (reached : rules.records input k target = true → known)
    (free : rules.admits input target = true → (g.add reader input
      { url := target, sources := .ofLink, depth := some (depth + 1) }).2 = true) :
    (g.recordTargets reader input depth inBody [target]).1.Tally known k
      (n + if rules.records input k target then 1 else 0)
      (m + if inBody.contains target && rules.records input k target then 1 else 0) := by
  have counted :=
    @counts_recordTargets_singleton _ _ _ _ _ reader input g k target depth inBody free
  have before : (g.counts k).getD (0, some 0) = (n, some m) := by
    obtain ⟨missing, rfl, rfl⟩ | ⟨-, found⟩ := tally
    · rw [missing]
      rfl
    · rw [found]
      rfl
  cases recorded : rules.records input k target with
  | false =>
    rw [UrlRules.records, Bool.and_eq_false_iff, decide_eq_false_iff_not] at recorded
    rw [if_neg (by grind)] at counted
    rw [Bool.and_false, if_neg Bool.false_ne_true, Tally, counted]
    exact tally
  | true =>
    rw [recorded] at reached
    rw [UrlRules.records, Bool.and_eq_true, decide_eq_true_eq] at recorded
    rw [if_pos recorded, before] at counted
    refine Or.inr ⟨reached rfl, counted.trans ?_⟩
    rw [Bool.and_true]
    cases inBody.contains target with
    | true => rfl
    | false => rfl

theorem recordTargets_cons {targets : List String} :
    (g.recordTargets reader input depth inBody (target :: targets)).1 =
      ((g.recordTargets reader input depth inBody [target]).1.recordTargets reader input depth
        inBody targets).1 := by
  rw [recordTargets, recordTargets]
  dsimp only
  split
  · rfl
  · rfl

theorem Tally.recordTargets {targets : List String} (tally : g.Tally known k n m)
    (reached : ∀ target ∈ targets, rules.records input k target = true → known)
    (free : g.AddsAdmitted reader input depth inBody targets) :
    (g.recordTargets reader input depth inBody targets).1.Tally known k
      (n + targets.countP (rules.records input k))
      (m + targets.countP fun url => inBody.contains url && rules.records input k url) := by
  induction targets generalizing g n m with
  | nil => exact tally
  | cons target targets ih =>
    rw [List.forall_mem_cons] at reached
    have rest := ih (tally.recordTarget reached.1 free.1) reached.2 free.2
    have order : ∀ a b c : Nat, a + b + c = a + (c + b) := by omega
    rw [order, order] at rest
    rw [recordTargets_cons, List.countP_cons, List.countP_cons]
    exact rest

end PageGraph

namespace LinkingPage

variable {rules : UrlRules} {linkRules : LinkRules} {input : GraphInput} {page : LinkingPage}
  {key : String}

theorem linksTo_of_mem_spellings {url : String}
    (mem : url ∈ page.spellings rules linkRules input key) :
    page.linksTo rules linkRules key = true := by
  obtain ⟨-, recorded⟩ := List.mem_filter.mp mem
  rw [Bool.and_eq_true, List.contains_iff_mem, UrlRules.records, Bool.and_eq_true,
    decide_eq_true_eq] at recorded
  obtain ⟨body, -, same⟩ := recorded
  obtain ⟨link, listed, rfl⟩ := List.mem_map.mp body
  refine List.any_eq_true.mpr ⟨link, ?_, decide_eq_true same⟩
  rw [capReading] at listed
  split at listed
  · exact listed
  · exact (List.mem_filter.mp listed).1

theorem SpelledOnce.length_spellings (once : page.SpelledOnce rules linkRules input key) :
    (page.spellings rules linkRules input key).length =
      if page.linksTo rules linkRules key = true then 1 else 0 := by
  split
  · next links => exact once links
  · next silent =>
    rw [List.length_eq_zero_iff, List.eq_nil_iff_forall_not_mem]
    exact fun url mem => silent (linksTo_of_mem_spellings mem)

end LinkingPage

section Runs

variable {rules : UrlRules} {Trail Record Facts Result : Type}
variable {linkRules : LinkRules} {reader : PageReader Trail Facts Result} {input : GraphInput}
variable {g t : PageGraph rules Record Facts} {page : LinkingPage} {pages : List LinkingPage}
variable {known : Prop} {k : String} {n m : Nat}

theorem PageGraph.Tally.recordLinks (tally : g.Tally known k n m) (le : m ≤ n)
    (reached : ∀ url ∈ page.toUrls linkRules, rules.records input k url = true → known)
    (free : AddsLinks linkRules reader input g page) :
    ∃ n', m + (page.spellings rules linkRules input k).length ≤ n' ∧
      (g.recordLinks reader input page.url (page.toUrls linkRules) page.depth
        (page.bodyUrls linkRules)).1.Tally known k n'
          (m + (page.spellings rules linkRules input k).length) := by
  have source : (g.changeNode (rules.normalizeUrl page.url)
      (.linking (page.toUrls linkRules) (page.bodyUrls linkRules))).Tally known k n m := by
    rw [PageGraph.Tally, PageGraph.counts_changeNode fun _ => ⟨rfl, rfl⟩]
    exact tally
  have after := source.recordTargets reached free
  rw [LinkingPage.spellings, ← List.countP_eq_length_filter]
  refine ⟨_, Nat.add_le_add le (List.countP_mono_left fun url _ recorded => ?_), after⟩
  exact (Bool.and_eq_true_iff.mp recorded).2

theorem PageGraph.Tally.run (tally : g.Tally known k n m) (le : m ≤ n)
    (reached : ∀ page ∈ pages, ∀ url ∈ page.toUrls linkRules,
      rules.records input k url = true → known)
    (free : (linkCalls rules linkRules reader input).Meets (AddsLinks linkRules reader input) g
      pages)
    (run : (linkCalls rules linkRules reader input).run g pages = some t) :
    ∃ n', m + (pages.flatMap (·.spellings rules linkRules input k)).length ≤ n' ∧
      t.Tally known k n' (m + (pages.flatMap (·.spellings rules linkRules input k)).length) := by
  induction pages generalizing g n m with
  | nil =>
    cases run
    exact ⟨n, le, tally⟩
  | cons page pages ih =>
    rw [List.forall_mem_cons] at reached
    obtain ⟨u, moves, ends⟩ := Machine.run_cons_eq_some.mp run
    obtain rfl := Option.some.inj moves
    obtain ⟨n', le', after⟩ := tally.recordLinks le reached.1 free.1
    have rest := ih after le' reached.2 (free.2 _ rfl) ends
    rw [Nat.add_assoc, ← List.length_append] at rest
    rw [List.flatMap_cons]
    exact rest

theorem length_flatMap_spellings (once : ∀ page ∈ pages, page.SpelledOnce rules linkRules input k) :
    (pages.flatMap (·.spellings rules linkRules input k)).length =
      (pages.filter (·.linksTo rules linkRules k)).length := by
  induction pages with
  | nil => rfl
  | cons page pages ih =>
    rw [List.forall_mem_cons] at once
    rw [List.flatMap_cons, List.length_append, once.1.length_spellings, ih once.2, List.filter_cons]
    split
    · rw [List.length_cons, Nat.add_comm]
    · exact Nat.zero_add _

end Runs

/-- Where each page with a recorded link to a target in its body has one spelling of it there,
the inlinks from content are exact: after any calls that no ceiling, filter or loop disturbs, for
pages with keys of their own. -/
theorem exactInlinks_of_spelledOnce {Trail Record Facts Result : Type} (rules : UrlRules)
    (linkRules : LinkRules) (reader : PageReader Trail Facts Result) (input : GraphInput)
    {g t : PageGraph rules Record Facts} {pages : List LinkingPage} (unlinked : g.Unlinked)
    (distinct : (pages.map fun page => rules.normalizeUrl page.url).Nodup)
    (free : (linkCalls rules linkRules reader input).Meets (AddsLinks linkRules reader input) g
      pages)
    (once : ∀ key, Reached linkRules input g pages key →
      ∀ page ∈ pages, page.SpelledOnce rules linkRules input key)
    (run : (linkCalls rules linkRules reader input).run g pages = some t) :
    ExactInlinks linkRules pages t := by
  intro node listed
  have start : g.Tally (Reached linkRules input g pages (rules.normalizeUrl node.url))
      (rules.normalizeUrl node.url) 0 0 := by
    cases found : g.nodes.find? (rules.normalizeUrl node.url) with
    | none => exact Or.inl ⟨by rw [PageGraph.counts, found]; rfl, rfl, rfl⟩
    | some known =>
      obtain ⟨mem, -⟩ := Table.find?_eq_some.mp found
      refine Or.inr ⟨Or.inl (by rw [found]; rfl), ?_⟩
      rw [PageGraph.counts, found, Option.map_some, (unlinked known mem).1, (unlinked known mem).2]
  have reached : ∀ page ∈ pages, ∀ url ∈ page.toUrls linkRules,
      rules.records input (rules.normalizeUrl node.url) url = true →
        Reached linkRules input g pages (rules.normalizeUrl node.url) :=
    fun page mem url linked recorded => Or.inr ⟨page, mem, url, linked, recorded⟩
  obtain ⟨n, le, tally⟩ := start.run (Nat.le_refl 0) reached free run
  have there : t.counts (rules.normalizeUrl node.url) =
      some (node.inboundLinks, node.uniqueContentInlinks) := by
    rw [PageGraph.counts, Table.find?_key listed]
    rfl
  obtain ⟨missing, -⟩ | ⟨known, counted⟩ := tally
  · cases there.symm.trans missing
  · rw [Nat.zero_add, length_flatMap_spellings (once _ known)] at le counted
    have linking : linkingPages rules linkRules pages (rules.normalizeUrl node.url) =
        (pages.filter (·.linksTo rules linkRules (rules.normalizeUrl node.url))).map fun page =>
          rules.normalizeUrl page.url :=
      List.Nodup.dedup (distinct.sublist (List.filter_sublist.map _))
    obtain ⟨inbound, unique⟩ := Prod.mk.inj (Option.some.inj (there.symm.trans counted))
    dsimp only
    rw [linking, List.length_map]
    exact ⟨unique, le.trans_eq inbound.symm⟩

section Sample

/-- The rules of a site on which a trailing slash changes nothing. -/
def slashRules : UrlRules :=
  { loopRules with
    normalizeUrl := fun url => if url = "https://a.io/x/" then "https://a.io/x" else url }

def pathLinks : LinkRules := ⟨UnicodeData.ascii, joinPath⟩

/-- The page `<main>` with links to these paths. -/
def mainPage (paths : List String) : LinkingPage where
  url := "https://a.io/"
  depth := 0
  request := { baseUrl := "https://a.io/".toList }
  events := Document.events (.element ⟨mainTag, []⟩
    (paths.foldr (fun path rest =>
      .element ⟨anchorTag, [("href".toList, some path.toList)]⟩ .done rest) .done) .done)

def siteCalls : Machine (PageGraph slashRules Unit Unit) LinkingPage :=
  linkCalls slashRules pathLinks plainPages smallCrawl

theorem meets_mainPage {paths urls : List String} (read : (mainPage paths).toUrls pathLinks = urls)
    (adds : PageGraph.AddsAdmitted plainPages smallCrawl 0 ((mainPage paths).bodyUrls pathLinks)
      ({} : PageGraph slashRules Unit Unit) urls) :
    siteCalls.Meets (AddsLinks pathLinks plainPages smallCrawl) {} [mainPage paths] := by
  refine ⟨?_, fun _ _ => trivial⟩
  rw [AddsLinks, read]
  exact adds

/-- A page with one link. -/
theorem exactInlinks_oneSpelling : ∃ t, siteCalls.run {} [mainPage ["/x"]] = some t ∧
    ExactInlinks pathLinks [mainPage ["/x"]] t := by
  have read : (mainPage ["/x"]).toUrls pathLinks = ["https://a.io/x"] := by decide
  refine ⟨_, rfl, exactInlinks_of_spelledOnce slashRules pathLinks plainPages smallCrawl ?_
    (List.nodup_singleton _) (meets_mainPage read ⟨fun _ => by decide +kernel, trivial⟩) ?_ rfl⟩
  · intro node listed
    cases listed
  · rintro key (known | ⟨page, listed, url, linked, recorded⟩) other listed' -
    · cases known
    · obtain rfl := List.mem_singleton.mp listed
      obtain rfl := List.mem_singleton.mp listed'
      rw [read, List.mem_singleton] at linked
      rw [linked, UrlRules.records, Bool.and_eq_true, decide_eq_true_eq] at recorded
      obtain rfl : "https://a.io/x" = key := recorded.2
      decide

/-- Two spellings of one target on one page count twice. -/
theorem not_exactInlinks_twoSpellings :
    ¬∀ (pages : List LinkingPage) (t : PageGraph slashRules Unit Unit),
      (pages.map fun page => slashRules.normalizeUrl page.url).Nodup →
      siteCalls.Meets (AddsLinks pathLinks plainPages smallCrawl) {} pages →
      siteCalls.run {} pages = some t → ExactInlinks pathLinks pages t := by
  intro all
  have read : (mainPage ["/x", "/x/"]).toUrls pathLinks =
      ["https://a.io/x", "https://a.io/x/"] := by decide
  have ends : ((siteCalls.run {} [mainPage ["/x", "/x/"]]).map fun g =>
      g.nodes.rows.map fun node => (node.url, node.uniqueContentInlinks)) =
        some [("https://a.io/x", some 2)] := by
    decide +kernel
  obtain ⟨g, run, shown⟩ := Option.map_eq_some_iff.mp ends
  have adds := meets_mainPage read ⟨fun _ => by decide +kernel, fun _ => by decide +kernel, trivial⟩
  have counted : ("https://a.io/x", some 2) ∈ g.nodes.rows.map fun node =>
      (node.url, node.uniqueContentInlinks) := by
    rw [shown]
    exact List.mem_singleton_self _
  obtain ⟨node, listed, same⟩ := List.mem_map.mp counted
  obtain ⟨url, twice⟩ := Prod.mk.inj same
  have once := (all [mainPage ["/x", "/x/"]] g (List.nodup_singleton _) adds run node listed).1
  have single : linkingPages slashRules pathLinks [mainPage ["/x", "/x/"]]
      (slashRules.normalizeUrl "https://a.io/x") = ["https://a.io/"] := by decide
  rw [twice, url, single] at once
  cases once

end Sample

end Rankuno
