import Mathlib.Data.Prod.Lex
import Rankuno.Foundation.BreadthFirst
import Rankuno.Foundation.Forest
import Rankuno.PageClassifier.Signals
import Rankuno.Python.Html
import Rankuno.Python.Sorted

/-!
# The findings of an audit

`audit.ts`: the findings about a crawl, each with the number of pages behind it. Duplicates are
counted from the first page with a last segment, and a label of the menu is compared by its
letters and digits alone. `toLowerCase` and `URL` are parameters.
-/

namespace Rankuno.Audit

open Python Python.Text BreadthFirst PageClassifier

/-- What `new URL(url)` tells. -/
structure Address where
  host : Text
  pathname : Text
  search : Text

/-- The browser's library as far as audits go. -/
structure Browser where
  toLowerCase : Text → Text
  /-- `new URL(_)`, `none` where it throws. -/
  parse : Text → Option Address

/-- What an audit reads of a `FullPageIntelligenceProfile`. -/
structure AuditPage where
  url : Text
  finalUrl : Text := []
  /-- `discovery_sources?.sitemap`. -/
  inSitemap : Bool := false
  inboundInternalLinksCount : Nat := 1
  indexability : Indexability := .unknown
  gscImpressions : Option Nat := none
  breadcrumbPath : List Text := []
  finalConfidenceScore : ℚ := 1
  deriving DecidableEq

inductive Severity where
  | high
  | medium
  | low
  deriving DecidableEq

structure Finding where
  id : Text
  count : Nat
  /-- The URLs of a finding of duplicates. -/
  urls : Nat := 0
  severity : Severity
  deriving DecidableEq

/-- A finding of the pages that pass a test, if there are any. -/
def tallied (id : String) (severity : Severity) (pages : List AuditPage)
    (test : AuditPage → Bool) : List Finding :=
  if pages.countP test = 0 then [] else [{ id := id.toList, count := pages.countP test, severity }]

/-- `indexConflictFindings`. -/
def indexConflictFindings (pages : List AuditPage) : List Finding :=
  let conflict (verdict : Indexability) (page : AuditPage) : Bool :=
    pages.any (fun page => page.gscImpressions.isSome) &&
      0 < page.gscImpressions.getD 0 && page.indexability = verdict
  tallied "noindex-earning" .high pages (conflict .noindex) ++
    (tallied "canonical-overruled" .medium pages (conflict .canonicalisedAway) ++
      tallied "dead-earning" .high pages (conflict .notAPage))

/-- `text.includes(part)`. -/
def includes (text part : Text) : Bool := text.tails.any fun rest => part.isPrefixOf rest

def minSiloPages : Nat := 25

/-- The `SILO_SHARE` of a site is one page of as many. -/
def siloShare : Nat := 100

def fillerTokens : List Text :=
  ["a", "an", "and", "for", "in", "of", "on", "the", "to", "with"].map String.toList

/-- `sameAncestry`. -/
def sameAncestry (a b : List Text) : Bool :=
  let (shorter, longer) := if a.length ≤ b.length then (a, b) else (b, a)
  if shorter = [] then longer = []
  else
    longer.foldl (fun index item => if shorter[index]? = some item then index + 1 else index) 0 =
      shorter.length

section Pages

variable (browser : Browser)

def pathOf (url : Text) : Text := ((browser.parse url).map Address.pathname).getD url

def segments (url : Text) : List Text := (split '/' (pathOf browser url)).filter fun s => s ≠ []

def firstSegment (url : Text) : Text := (segments browser url).head?.getD []

/-- `flatten`. -/
def flatten (text : Text) : Text :=
  (browser.toLowerCase text).filter fun c =>
    (97 ≤ c.toNat && c.toNat ≤ 122) || isAsciiDigit c

/-- `label.includes(flat) || flat.includes(label)`. -/
def namesFolder (label flat : Text) : Bool := includes label flat || includes flat label

def menuLabels (roots : Forest Text) : List Text :=
  (roots.preorder.filter fun label => label ≠ []).map (flatten browser)

/-- The pages of a folder are counted in `bySegment`. -/
def siloPages (pages : List AuditPage) : List AuditPage :=
  pages.filter fun page =>
    firstSegment browser page.url ≠ [] ∧ 2 ≤ (segments browser page.url).length

def folderSize (pages : List AuditPage) (segment : Text) : Nat :=
  (siloPages browser pages).countP fun page => firstSegment browser page.url = segment

/-- The folder holds a meaningful share of the pages. -/
def isSilo (pages : List AuditPage) (segment : Text) : Bool :=
  minSiloPages ≤ folderSize browser pages segment &&
    pages.length ≤ siloShare * folderSize browser pages segment

def inMenu (labels : List Text) (segment : Text) : Bool :=
  labels.any fun label => namesFolder label (flatten browser segment)

/-- `siloFindings`. -/
def siloFindings (pages : List AuditPage) (labels : List Text) : List Finding :=
  ((fresh [] ((siloPages browser pages).map fun page => firstSegment browser page.url)).filter
    fun segment => isSilo browser pages segment && !inMenu browser labels segment).map
      fun segment =>
        { id := "silo:".toList ++ segment
          count := folderSize browser pages segment
          severity := .high }

def normalizeSegment (segment : Text) : Text :=
  join "-".toList (((browser.toLowerCase segment).splitOnP fun c => c = '-' || c = '_').filter
    fun token => token ≠ [] && !oneOf fillerTokens token)

/-- The last segment of a page. -/
def leafOf (page : AuditPage) : Text :=
  normalizeSegment browser ((segments browser page.url).getLast?.getD [])

/-- The segments above it. -/
def chainOf (page : AuditPage) : List Text :=
  (segments browser page.url).dropLast.map (normalizeSegment browser)

/-- The pages of a bucket that match its first. -/
def matched : List AuditPage → List AuditPage
  | [] => []
  | head :: rest =>
    head :: rest.filter fun page => sameAncestry (chainOf browser page) (chainOf browser head)

/-- The pages with a last segment. -/
def bucket (pages : List AuditPage) (leaf : Text) : List AuditPage :=
  pages.filter fun page => leafOf browser page = leaf

/-- The groups of `duplicateFindings`. -/
def duplicateGroups (pages : List AuditPage) : List (List AuditPage) :=
  ((fresh [] (pages.map (leafOf browser))).map fun leaf =>
    matched browser (bucket browser pages leaf)).filter fun group => 1 < group.length

/-- `duplicateFindings`. -/
def duplicateFindings (pages : List AuditPage) : List Finding :=
  let groups := duplicateGroups browser pages
  if groups = [] then []
  else
    [{ id := "duplicate-urls".toList
       count := groups.length
       urls := (groups.map List.length).sum
       severity := .high }]

/-- The sign and what follows it are `[?&]page=\d`. -/
def startsPageNumber : Text → Bool
  | sign :: rest =>
    (sign = '?' || sign = '&') && (rest.take 5).map Char.toLower = "page=".toList &&
      (rest.drop 5).head?.any isAsciiDigit
  | [] => false

/-- `/\/page\/\d+\/?$/i`, read from the end. -/
def endsWithPage (path : Text) : Bool :=
  let back := path.reverse
  let number := if back.head? = some '/' then back.tail else back
  number.head?.any isAsciiDigit &&
    "/egap/".toList.isPrefixOf ((number.dropWhile isAsciiDigit).map Char.toLower)

/-- `isPaginated`. -/
def isPaginated (url : Text) : Bool :=
  url.tails.any startsPageNumber || endsWithPage (pathOf browser url)

/-- The text without a slash at its end. -/
def unslashed (path : Text) : Text := if path.getLast? = some '/' then path.dropLast else path

/-- `strip` of `sameAddress`. -/
def addressText (url : Text) : Text :=
  match browser.parse url with
  | none => url
  | some address =>
    (if "www.".toList.isPrefixOf address.host then address.host.drop 4 else address.host) ++
      unslashed address.pathname ++ address.search

/-- The page is a sitemap entry that redirects elsewhere. -/
def redirectsElsewhere (page : AuditPage) : Bool :=
  page.inSitemap && page.finalUrl ≠ [] &&
    addressText browser page.finalUrl ≠ addressText browser page.url

/-- The URL folder contradicts the menu path. -/
def isMismatched (page : AuditPage) : Bool :=
  page.breadcrumbPath ≠ [] && 2 ≤ (segments browser page.url).length &&
    !page.breadcrumbPath.any fun label =>
      namesFolder (flatten browser label) (flatten browser (firstSegment browser page.url))

/-- The order of the findings: the gravest first, and the largest. -/
def rank (finding : Finding) : Nat ×ₗ ℤ :=
  let order := match finding.severity with
    | .high => 0
    | .medium => 1
    | .low => 2
  toLex (order, -finding.count)

/-- The findings before the duplicates. -/
def leadFindings (pages : List AuditPage) : List Finding :=
  tallied "orphans" .high pages (fun page => page.inboundInternalLinksCount = 0) ++
    (indexConflictFindings pages ++
      tallied "sitemap-redirects" .medium pages (redirectsElsewhere browser))

/-- The findings after the silos. -/
def restFindings (pages : List AuditPage) : List Finding :=
  tallied "pagination" .medium pages (fun page => isPaginated browser page.url) ++
    (tallied "silo-mismatch" .medium pages (isMismatched browser) ++
      tallied "unclassified" .low pages fun page => page.finalConfidenceScore = 0)

/-- `buildFindings`. -/
def buildFindings (roots : Forest Text) (pages : List AuditPage) : List Finding :=
  if pages = [] then []
  else
    sortedBy rank (leadFindings browser pages ++ (duplicateFindings browser pages ++
      (siloFindings browser pages (menuLabels browser roots) ++ restFindings browser pages)))

/-- No character of the label is one of a page's URL. -/
def IsForeign (pages : List AuditPage) (label : Text) : Prop :=
  ∀ page ∈ pages, ∀ c ∈ label, c ∉ page.url

/-- What does not depend on the order of the pages, and on a label foreign to them. -/
structure Independent (roots : Forest Text) (pages : List AuditPage) : Prop where
  order : ∀ pages', pages'.Perm pages →
    ((buildFindings browser roots pages').map fun f => (f.id, f.count, f.urls)).Perm
      ((buildFindings browser roots pages).map fun f => (f.id, f.count, f.urls))
  labels : ∀ label roots', roots'.preorder.Perm (label :: roots.preorder) →
    IsForeign pages label → buildFindings browser roots' pages = buildFindings browser roots pages

/-- The pages of a bucket that match a page if it comes first, where it makes a group. -/
def copies (pages : List AuditPage) (page : AuditPage) : Nat :=
  let others := (pages.erase page).countP fun other =>
    leafOf browser other = leafOf browser page ∧
      sameAncestry (chainOf browser other) (chainOf browser page)
  if others = 0 then 0 else others + 1

/-- Pages with one last segment match as many pages, and no large folder without a label is named
by a foreign one. -/
structure Settled (roots : Forest Text) (pages : List AuditPage) : Prop where
  copies : ∀ p ∈ pages, ∀ q ∈ pages, leafOf browser p = leafOf browser q →
    copies browser pages p = copies browser pages q
  folders : ∀ segment, isSilo browser pages segment = true →
    inMenu browser (menuLabels browser roots) segment = false → ∀ label, label ≠ [] →
      IsForeign pages label → namesFolder (flatten browser label) (flatten browser segment) = false

end Pages

section Order

variable {browser : Browser} {roots : Forest Text} {pages pages' : List AuditPage}
  {head page : AuditPage} {rest : List AuditPage} {labels labels' : List Text}

theorem tallied_perm (same : pages'.Perm pages) (id : String) (severity : Severity)
    (test : AuditPage → Bool) :
    tallied id severity pages' test = tallied id severity pages test := by
  rw [tallied, tallied, same.countP_eq]

theorem leadFindings_perm (same : pages'.Perm pages) :
    leadFindings browser pages' = leadFindings browser pages := by
  simp only [leadFindings, indexConflictFindings, tallied_perm same, same.any_eq]

theorem restFindings_perm (same : pages'.Perm pages) :
    restFindings browser pages' = restFindings browser pages := by
  simp only [restFindings, tallied_perm same]

theorem siloFindings_perm (same : pages'.Perm pages) (labels : List Text) :
    (siloFindings browser pages' labels).Perm (siloFindings browser pages labels) := by
  have deep : (siloPages browser pages').Perm (siloPages browser pages) := same.filter _
  have size : folderSize browser pages' = folderSize browser pages :=
    funext fun segment => deep.countP_eq _
  have silo : isSilo browser pages' = isSilo browser pages :=
    funext fun segment => by rw [isSilo, isSilo, size, same.length_eq]
  rw [siloFindings, siloFindings, size, silo]
  exact ((perm_fresh (deep.map _)).filter _).map _

theorem perm_buildFindings (browser : Browser) (roots : Forest Text) (pages : List AuditPage) :
    (buildFindings browser roots pages).Perm
      (leadFindings browser pages ++ (duplicateFindings browser pages ++
        (siloFindings browser pages (menuLabels browser roots) ++
          restFindings browser pages))) := by
  rw [buildFindings]
  split
  · next empty =>
    rw [empty]
    exact List.Perm.refl _
  · exact perm_sortedBy rank _

theorem order_iff (same : pages'.Perm pages) {α : Type} (figures : Finding → α) :
    ((buildFindings browser roots pages').map figures).Perm
        ((buildFindings browser roots pages).map figures) ↔
      ((duplicateFindings browser pages').map figures).Perm
        ((duplicateFindings browser pages).map figures) := by
  have silos : (siloFindings browser pages' _).Perm _ :=
    siloFindings_perm same (menuLabels browser roots)
  have others := (silos.append_right (restFindings browser pages)).map figures
  rw [((perm_buildFindings browser roots pages').map figures).congr_left,
    ((perm_buildFindings browser roots pages).map figures).congr_right, leadFindings_perm same,
    restFindings_perm same]
  simp only [List.map_append, List.perm_append_left_iff] at others ⊢
  rw [(others.append_left _).congr_left, List.perm_append_right_iff]

/-- The size of a group, and none for a page alone. -/
def sizeOf (group : List AuditPage) : Nat := if 1 < group.length then group.length else 0

def groupSize (browser : Browser) (pages : List AuditPage) (leaf : Text) : Nat :=
  sizeOf (matched browser (bucket browser pages leaf))

def sizes (browser : Browser) (pages : List AuditPage) : List Nat :=
  (fresh [] (pages.map (leafOf browser))).map (groupSize browser pages)

theorem sizes_spec (groups : List (List AuditPage)) :
    ((groups.filter fun group => 1 < group.length).map List.length).sum =
        (groups.map sizeOf).sum ∧
      (groups.filter fun group => 1 < group.length).length =
        (groups.map sizeOf).countP (0 < ·) := by
  induction groups with
  | nil => exact ⟨rfl, rfl⟩
  | cons group groups ih =>
    by_cases large : 1 < group.length
    · have positive : 0 < group.length := by omega
      simp [sizeOf, large, positive, ih]
    · simp [sizeOf, large, ih]

theorem sum_sizes (browser : Browser) (pages : List AuditPage) :
    ((duplicateGroups browser pages).map List.length).sum = (sizes browser pages).sum := by
  rw [duplicateGroups, (sizes_spec _).1, List.map_map]
  rfl

theorem sum_urls (browser : Browser) (pages : List AuditPage) :
    (((duplicateFindings browser pages).map fun f => (f.id, f.count, f.urls)).map (·.2.2)).sum =
      (sizes browser pages).sum := by
  rw [← sum_sizes, duplicateFindings]
  split
  · next empty =>
    rw [empty]
    rfl
  · simp

theorem duplicateFindings_perm (same : (sizes browser pages').Perm (sizes browser pages)) :
    duplicateFindings browser pages' = duplicateFindings browser pages := by
  have count :
      (duplicateGroups browser pages').length = (duplicateGroups browser pages).length := by
    rw [duplicateGroups, duplicateGroups, (sizes_spec _).2, (sizes_spec _).2, List.map_map,
      List.map_map]
    exact same.countP_eq _
  have total := (sum_sizes browser pages').trans (same.sum_eq.trans (sum_sizes browser pages).symm)
  simp only [duplicateFindings, ← List.length_eq_zero_iff, count, total]

theorem groupSize_eq (same : pages'.Perm pages)
    (first : bucket browser pages' (leafOf browser head) = head :: rest) :
    groupSize browser pages' (leafOf browser head) = copies browser pages head := by
  have others : rest.Perm (bucket browser (pages.erase head) (leafOf browser head)) := by
    have bucket := (same.filter fun page => leafOf browser page = leafOf browser head).erase head
    rwa [← Audit.bucket, first, List.erase_cons_head, List.erase_filter] at bucket
  have size : (matched browser (head :: rest)).length = (pages.erase head).countP (fun other =>
      leafOf browser other = leafOf browser head ∧
        sameAncestry (chainOf browser other) (chainOf browser head)) + 1 := by
    rw [matched, List.length_cons, ← List.countP_eq_length_filter, others.countP_eq, bucket,
      List.countP_filter]
    simp only [Bool.decide_and, Bool.decide_eq_true, Bool.and_comm]
  rw [groupSize, first, sizeOf, size, copies]
  grind

theorem exists_head {leaf : Text} (same : pages'.Perm pages)
    (mem : leaf ∈ pages'.map (leafOf browser)) : ∃ head ∈ pages,
      leafOf browser head = leaf ∧ groupSize browser pages' leaf = copies browser pages head := by
  obtain ⟨page, listed, rfl⟩ := List.mem_map.mp mem
  cases first : bucket browser pages' (leafOf browser page) with
  | nil => exact absurd (decide_eq_true rfl) (List.filter_eq_nil_iff.mp first page listed)
  | cons head rest =>
    have mem := List.mem_filter.mp (first ▸ List.mem_cons_self : head ∈ bucket browser pages' _)
    have leaf : leafOf browser head = leafOf browser page := of_decide_eq_true mem.2
    rw [← leaf] at first ⊢
    exact ⟨head, same.mem_iff.mp mem.1, rfl, groupSize_eq same first⟩

theorem sizes_perm (same : pages'.Perm pages)
    (settled : ∀ p ∈ pages, ∀ q ∈ pages, leafOf browser p = leafOf browser q →
      copies browser pages p = copies browser pages q) :
    (sizes browser pages').Perm (sizes browser pages) := by
  refine List.Perm.trans (List.Perm.of_eq (List.map_congr_left fun leaf mem => ?_))
    ((perm_fresh (same.map _)).map _)
  have listed := (mem_fresh.mp mem).1
  obtain ⟨p, memP, leafP, sizeP⟩ := exists_head same listed
  obtain ⟨q, memQ, leafQ, sizeQ⟩ :=
    exists_head (List.Perm.refl pages) ((same.map _).mem_iff.mp listed)
  rw [sizeP, sizeQ, settled p memP q memQ (leafP.trans leafQ.symm)]

theorem sum_sizes_first (listed : page ∈ pages) :
    (sizes browser (page :: pages.erase page)).sum = copies browser pages page +
      ((fresh [leafOf browser page] (pages.map (leafOf browser))).map
        (groupSize browser pages)).sum := by
  have same := (List.perm_cons_erase listed).symm
  have own : groupSize browser (page :: pages.erase page) (leafOf browser page) =
      copies browser pages page :=
    groupSize_eq same (List.filter_cons_of_pos (decide_eq_true rfl))
  have keys : (fresh [leafOf browser page] _).Perm _ := perm_fresh (same.map (leafOf browser))
  rw [List.map_cons, fresh_cons_of_mem (List.mem_singleton_self _)] at keys
  rw [sizes, List.map_cons, fresh_cons_of_notMem List.not_mem_nil, List.map_cons, List.sum_cons,
    own, ← (keys.map (groupSize browser pages)).sum_eq]
  congr 2
  refine List.map_congr_left fun leaf mem => ?_
  have other : leafOf browser page ≠ leaf := fun same =>
    (mem_fresh.mp mem).2 (List.mem_singleton.mpr same.symm)
  have bucket : bucket browser (page :: pages.erase page) leaf = bucket browser pages leaf := by
    rw [Audit.bucket, List.filter_cons_of_neg (by simpa using other), ← List.erase_filter]
    exact List.erase_of_not_mem fun mem => other (of_decide_eq_true (List.mem_filter.mp mem).2)
  rw [groupSize, bucket, groupSize]

end Order

section Labels

variable {browser : Browser} {roots roots' : Forest Text} {pages : List AuditPage}
  {label segment : Text}

theorem inMenu_added (added : roots'.preorder.Perm (label :: roots.preorder)) :
    inMenu browser (menuLabels browser roots') segment =
      (decide (label ≠ []) && namesFolder (flatten browser label) (flatten browser segment) ||
        inMenu browser (menuLabels browser roots) segment) := by
  have same : (menuLabels browser roots').Perm _ := (added.filter _).map (flatten browser)
  rw [inMenu, same.any_eq]
  by_cases blank : label = [] <;> simp [blank, inMenu, menuLabels]

theorem siloFindings_added (settled : Settled browser roots pages)
    (added : roots'.preorder.Perm (label :: roots.preorder)) (foreign : IsForeign pages label) :
    siloFindings browser pages (menuLabels browser roots') =
      siloFindings browser pages (menuLabels browser roots) := by
  rw [siloFindings, siloFindings]
  congr 1
  refine List.filter_congr fun segment _ => ?_
  cases silo : isSilo browser pages segment with
  | false => rfl
  | true =>
    rw [inMenu_added added]
    cases named : inMenu browser (menuLabels browser roots) segment with
    | true => rw [Bool.or_true]
    | false =>
      by_cases blank : label = []
      · simp [blank]
      · rw [settled.folders segment silo named label blank foreign, Bool.and_false, Bool.false_or]

theorem mem_siloFindings {labels : List Text} : (∃ finding ∈ siloFindings browser pages labels,
    finding.id = "silo:".toList ++ segment) ↔
      isSilo browser pages segment = true ∧ inMenu browser labels segment = false := by
  constructor
  · rintro ⟨finding, listed, named⟩
    obtain ⟨other, mem, rfl⟩ := List.mem_map.mp listed
    obtain rfl := List.append_cancel_left named
    simpa using (List.mem_filter.mp mem).2
  · rintro ⟨silo, unnamed⟩
    have large : minSiloPages ≤ folderSize browser pages segment :=
      of_decide_eq_true (Bool.and_eq_true_iff.mp silo).1
    obtain ⟨page, listed, first⟩ := List.countP_pos_iff.mp (Nat.lt_of_lt_of_le (by decide) large)
    have mem : segment ∈ (siloPages browser pages).map fun page => firstSegment browser page.url :=
      List.mem_map.mpr ⟨page, listed, of_decide_eq_true first⟩
    exact ⟨_, List.mem_map.mpr ⟨segment, List.mem_filter.mpr
      ⟨mem_fresh.mpr ⟨mem, List.not_mem_nil⟩, by simp [silo, unnamed]⟩, rfl⟩, rfl⟩

end Labels

/-- The findings depend neither on the order of the pages nor on labels foreign to them exactly
where the groups of duplicates have one size from any page, and no label names a folder of
characters that it does not have. -/
theorem independent_iff (browser : Browser) (roots : Forest Text) (pages : List AuditPage) :
    Independent browser roots pages ↔ Settled browser roots pages := by
  constructor
  · refine fun independent => ⟨fun p memP q memQ same => ?_, ?_⟩
    · have sum (page) (listed : page ∈ pages) :
          (sizes browser (page :: pages.erase page)).sum = (sizes browser pages).sum := by
        have first := (List.perm_cons_erase listed).symm
        have figures := (order_iff first _).mp (independent.order _ first)
        rw [← sum_urls, ← sum_urls]
        exact (figures.map _).sum_eq
      have sums := (sum p memP).trans (sum q memQ).symm
      rw [sum_sizes_first memP, sum_sizes_first memQ, same] at sums
      exact Nat.add_right_cancel sums
    · refine fun segment silo unnamed label filled foreign => Bool.eq_false_iff.mpr fun named => ?_
      have added := independent.labels label (.cons label .nil roots) (List.Perm.refl _) foreign
      have same := (perm_buildFindings browser _ pages).symm.trans
        ((List.Perm.of_eq added).trans (perm_buildFindings browser roots pages))
      simp only [List.perm_append_left_iff, List.perm_append_right_iff] at same
      obtain ⟨finding, listed, id⟩ := mem_siloFindings.mpr ⟨silo, unnamed⟩
      have still := (mem_siloFindings.mp ⟨finding, same.mem_iff.mpr listed, id⟩).2
      rw [inMenu_added (List.Perm.refl _), named] at still
      simp [filled] at still
  · refine fun settled => ⟨fun pages' same => ?_, fun label roots' added foreign => ?_⟩
    · rw [order_iff same, duplicateFindings_perm (sizes_perm same settled.copies)]
    · rw [buildFindings, buildFindings, siloFindings_added settled added foreign]

/-- The letters of ASCII, and paths alone. -/
def plainBrowser : Browser := ⟨fun text => text.map Char.toLower, fun _ => none⟩

/-- Two addresses of one page, behind another page with their last segment. -/
def shadowedPages : List AuditPage :=
  ["/x/p", "/a/p", "/a/b/p"].map fun url => { url := url.toList }

theorem not_independent_shadowed : ¬Independent plainBrowser .nil shadowedPages := by
  intro independent
  have ahead := independent.order
    (["/a/p", "/x/p", "/a/b/p"].map fun url => { url := url.toList }) (by decide)
  exact absurd ahead (by decide)

end Rankuno.Audit
