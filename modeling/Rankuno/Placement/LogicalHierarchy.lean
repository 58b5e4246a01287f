import Mathlib.Data.List.Sort
import Rankuno.Foundation.LastByKey
import Rankuno.Performance.UrlIdentity

/-!
# Pages under the header menu

`logical_hierarchy.py`: each page is assigned to the entry of the menu with the longest
path that its own path starts with, or to `OTHERS`. What the cascade found out about a page
beside its place is a type variable.
-/

namespace Rankuno.Placement

open Python Python.Text UrlKeys
open Performance (othersLabel)

inductive PrimaryPageType where
  | homepage
  | serviceCategoryHub
  | serviceDetailPage
  | productCategoryHub
  | productDetailPage
  | blogHub
  | blogArticle
  | companyAbout
  | commercialLeadGen
  | facetedFilter
  | utilityLegal
  | caseStudy
  | toolApplication
  | unknown
  deriving DecidableEq

def PrimaryPageType.value : PrimaryPageType → Text
  | homepage => "HOMEPAGE".toList
  | serviceCategoryHub => "SERVICE_CATEGORY_HUB".toList
  | serviceDetailPage => "SERVICE_DETAIL_PAGE".toList
  | productCategoryHub => "PRODUCT_CATEGORY_HUB".toList
  | productDetailPage => "PRODUCT_DETAIL_PAGE".toList
  | blogHub => "BLOG_HUB".toList
  | blogArticle => "BLOG_ARTICLE".toList
  | companyAbout => "COMPANY_ABOUT".toList
  | commercialLeadGen => "COMMERCIAL_LEAD_GEN".toList
  | facetedFilter => "FACETED_FILTER".toList
  | utilityLegal => "UTILITY_LEGAL".toList
  | caseStudy => "CASE_STUDY".toList
  | toolApplication => "TOOL_APPLICATION".toList
  | unknown => "UNKNOWN".toList

inductive TrailSource where
  | menu
  | breadcrumb
  | none
  deriving DecidableEq

/-- The fields that placement reads and writes, and the others. -/
structure FullPageIntelligenceProfile (ρ : Type) where
  url : Text
  primaryPageType : PrimaryPageType
  navParentUrl : Option Text := Option.none
  breadcrumbPath : List Text := []
  ownBreadcrumb : List Text := []
  trailSource : TrailSource := .none
  facts : ρ
  deriving DecidableEq

/-- An entry of the header menu. -/
inductive NavNode where
  | node (label : Text) (url : Option Text) (children : List NavNode)

/-- A parsed header menu. -/
structure NavigationTree where
  roots : List NavNode := []

structure NavAssignment where
  url : Text
  navPath : List Text := []
  navParentUrl : Option Text := Option.none
  matchedExactly : Bool := false
  group : Text := othersLabel
  deriving DecidableEq

structure NavCoverageReport where
  totalUrls : Nat := 0
  exactMatches : Nat := 0
  inheritedMatches : Nat := 0
  breadcrumbMatches : Nat := 0
  unmatched : Nat := 0
  navEntries : Nat := 0
  groups : List Text := []
  deriving DecidableEq

section Menu

variable (unicode : UnicodeData)

/-- `url.split("://", 1)[-1]`. -/
def withoutScheme (url : Text) : Text :=
  match url.tails.find? fun rest => "://".toList.isPrefixOf rest with
  | some rest => rest.drop 3
  | none => url

/-- `_match_key`. -/
def matchKey (url : Text) : Text :=
  let rest := (withoutScheme (normalizeUrl unicode url)).dropWhile (· ≠ '/')
  let path := if rest = [] then ['/'] else rest
  let path := (path.takeWhile (· ≠ '?')).takeWhile (· ≠ '#')
  let path := if path.head? = some '/' then path else '/' :: path
  if path.getLast? = some '/' then path else path ++ ['/']

/-- An entry that pages are matched against. -/
structure NavEntry where
  key : Text
  labels : List Text
  url : Text
  deriving DecidableEq

/-- The text a node is shown by: `node.label or (node.url or "")`. -/
def NavNode.shown : NavNode → Text
  | .node label url _ => if label = [] then url.getD [] else label

mutual

/-- `walk` of `_nav_entries`. The root of the site is no entry. -/
def NavNode.entries (ancestry : List Text) : NavNode → List NavEntry
  | .node label url children =>
    let shown := (NavNode.node label url children).shown
    let path := if shown = [] then ancestry else ancestry ++ [shown]
    let target := url.getD []
    let key := matchKey unicode target
    (if target = [] ∨ key = ['/'] then [] else [⟨key, path, target⟩]) ++ entriesOfAll path children

def NavNode.entriesOfAll (path : List Text) : List NavNode → List NavEntry
  | [] => []
  | child :: children => child.entries path ++ entriesOfAll path children

end

/-- `_nav_entries`, the longest keys first. -/
def navEntries (tree : NavigationTree) : List NavEntry :=
  (NavNode.entriesOfAll unicode [] tree.roots).insertionSort
    fun a b => b.key.length ≤ a.key.length

/-- `_group_order`. -/
def groupOrder (tree : NavigationTree) : List Text :=
  tree.roots.foldl (fun order root =>
    if root.shown = [] ∨ root.shown ∈ order then order else order ++ [root.shown]) []

end Menu

section Assign

variable (unicode : UnicodeData) {ρ : Type}

/-- `_assign_one`. -/
def assignOne (url : Text) (pageType : PrimaryPageType) (key : Text) : List NavEntry → NavAssignment
  | [] => { url, navPath := [othersLabel, pageType.value] }
  | entry :: entries =>
    if key = entry.key ∨ entry.key.isPrefixOf key then
      { url
        navPath := entry.labels
        navParentUrl := some entry.url
        matchedExactly := decide (key = entry.key)
        group := entry.labels.head?.getD othersLabel }
    else assignOne url pageType key entries

/-- The assignment of each page, in their order. -/
def assignEach (tree : NavigationTree) (pages : List (FullPageIntelligenceProfile ρ)) :
    List NavAssignment :=
  pages.map fun page =>
    assignOne page.url page.primaryPageType (matchKey unicode page.url) (navEntries unicode tree)

/-- `assign_navigation`. Of pages with the same URL, the last one's assignment is kept. -/
def assignNavigation (tree : NavigationTree) (pages : List (FullPageIntelligenceProfile ρ)) :
    Dict Text NavAssignment × NavCoverageReport :=
  let assigned := assignEach unicode tree pages
  let assignments := LastByKey.byKey NavAssignment.url assigned
  let exact := assigned.countP fun a => a.matchedExactly
  let inherited := assigned.countP fun a => !a.matchedExactly && a.navParentUrl.isSome
  let groups := groupOrder tree
  (assignments,
    { totalUrls := pages.length
      exactMatches := exact
      inheritedMatches := inherited
      unmatched := pages.length - exact - inherited
      navEntries := (navEntries unicode tree).length
      groups :=
        if assignments.rows.any fun row => row.2.group = othersLabel then groups ++ [othersLabel]
        else groups })

/-- `recount_placements`. -/
def recountPlacements (report : NavCoverageReport) (pages : List (FullPageIntelligenceProfile ρ)) :
    NavCoverageReport :=
  let breadcrumb := pages.countP fun page => page.trailSource = .breadcrumb
  let menu := pages.countP fun page => page.trailSource = .menu
  let exact := min report.exactMatches menu
  let inherited := min report.inheritedMatches (menu - exact)
  { report with
    totalUrls := pages.length
    exactMatches := exact
    inheritedMatches := inherited
    breadcrumbMatches := breadcrumb
    unmatched := pages.length - exact - inherited - breadcrumb }

variable {unicode} {tree : NavigationTree} {pages : List (FullPageIntelligenceProfile ρ)}

theorem assignNavigation_congr {pages' : List (FullPageIntelligenceProfile ρ)}
    (same : pages'.map (fun page => (page.url, page.primaryPageType)) =
      pages.map fun page => (page.url, page.primaryPageType)) :
    assignNavigation unicode tree pages' = assignNavigation unicode tree pages := by
  have each : assignEach unicode tree pages' = assignEach unicode tree pages := by
    have through := congrArg (List.map fun (pair : Text × PrimaryPageType) =>
      assignOne pair.1 pair.2 (matchKey unicode pair.1) (navEntries unicode tree)) same
    rwa [List.map_map, List.map_map] at through
  have length : pages'.length = pages.length := by
    simpa only [List.length_map] using congrArg List.length same
  rw [assignNavigation, assignNavigation, each, length]

theorem assignOne_url {url key : Text} {pageType : PrimaryPageType} {entries : List NavEntry} :
    (assignOne url pageType key entries).url = url := by
  induction entries with
  | nil => rfl
  | cons entry entries ih =>
    rw [assignOne]
    split
    · rfl
    · exact ih

theorem exists_get_assignNavigation {page : FullPageIntelligenceProfile ρ} (listed : page ∈ pages) :
    ∃ assignment, (assignNavigation unicode tree pages).1.get page.url = some assignment := by
  have own : assignOne page.url page.primaryPageType (matchKey unicode page.url)
      (navEntries unicode tree) ∈ assignEach unicode tree pages := List.mem_map_of_mem listed
  exact Option.isSome_iff_exists.mp (LastByKey.isSome_get.mpr ⟨_, own, assignOne_url⟩)

end Assign

end Rankuno.Placement
