import Rankuno.Placement.LogicalHierarchy

/-!
# Placing pages, once and again

`place_pages` puts each page under the header menu or where its own breadcrumb says, and
overwrites the trail the page came with. `reparse_placement` does it again on a stored
result. What a page published about itself survives a placement as the evidence
`ownBreadcrumbOf` finds, so placing placed pages changes nothing.

The parser of the menu is a parameter.
-/

namespace Rankuno.Placement

open Python Python.Text UrlKeys
open Performance (othersLabel)

/-- `_menu_depth`. -/
def menuDepth (navPath : List Text) : Nat :=
  if navPath = [] ∨ navPath.head? = some othersLabel then 0 else navPath.length

/-- `_better_trail`. -/
def betterTrail (breadcrumb navPath : List Text) : List Text × TrailSource :=
  let menu := menuDepth navPath
  if menu ≠ 0 ∧ breadcrumb.length ≤ menu then (navPath, .menu)
  else if breadcrumb ≠ [] then (breadcrumb, .breadcrumb)
  else (navPath, .none)

/-- What a result stores of a placement. -/
structure PageClassificationOutput (ρ : Type) where
  baseUrl : Text
  navigation : NavigationTree
  navCoverage : NavCoverageReport
  pages : List (FullPageIntelligenceProfile ρ)

section Placing

variable {ρ : Type}

/-- `_tagged`. -/
def tagged (page : FullPageIntelligenceProfile ρ) (trail : List Text) :
    FullPageIntelligenceProfile ρ :=
  { page with trailSource := if trail = [] then .none else .breadcrumb }

/-- `_own_breadcrumb`. Results stored before the field existed are read by their source. -/
def ownBreadcrumbOf (page : FullPageIntelligenceProfile ρ) : List Text :=
  if page.ownBreadcrumb ≠ [] then page.ownBreadcrumb
  else if page.trailSource = .breadcrumb then page.breadcrumbPath
  else []

/-- The body of the loop in `place_pages`. -/
def placePage (assignments : Dict Text NavAssignment) (page : FullPageIntelligenceProfile ρ) :
    FullPageIntelligenceProfile ρ :=
  match assignments.get page.url with
  | none => tagged page (ownBreadcrumbOf page)
  | some assignment =>
    let better := betterTrail (ownBreadcrumbOf page) assignment.navPath
    let placed :=
      { page with navParentUrl := assignment.navParentUrl, trailSource := better.2 }
    if better.1 ≠ page.breadcrumbPath then { placed with breadcrumbPath := better.1 }
    else placed

/-- The body of the loop in `reparse_placement`, which always writes the trail. -/
def replacePage (assignments : Dict Text NavAssignment) (page : FullPageIntelligenceProfile ρ) :
    FullPageIntelligenceProfile ρ :=
  match assignments.get page.url with
  | none => tagged page (ownBreadcrumbOf page)
  | some assignment =>
    let better := betterTrail (ownBreadcrumbOf page) assignment.navPath
    { page with
      navParentUrl := assignment.navParentUrl
      trailSource := better.2
      breadcrumbPath := better.1 }

/-- `place_pages`. -/
def placePages (parse : Text → Text → NavigationTree) (unicode : UnicodeData)
    (homepageHtml : Option Text) (baseUrl : Text) (pages : List (FullPageIntelligenceProfile ρ)) :
    NavigationTree × NavCoverageReport × List (FullPageIntelligenceProfile ρ) :=
  match homepageHtml with
  | some (first :: html) =>
    let navigation := parse (first :: html) baseUrl
    let (assignments, coverage) := assignNavigation unicode navigation pages
    let placed := pages.map (placePage assignments)
    (navigation, recountPlacements coverage placed, placed)
  | _ =>
    let placed := pages.map fun page => tagged page page.breadcrumbPath
    ({}, recountPlacements { totalUrls := pages.length } placed, placed)

/-- `reparse_placement`. -/
def reparsePlacement (parse : Text → Text → NavigationTree) (unicode : UnicodeData)
    (result : PageClassificationOutput ρ) (homepageHtml : Option Text) :
    PageClassificationOutput ρ :=
  match homepageHtml with
  | some (first :: html) =>
    let (navigation, coverage, pages) :=
      placePages parse unicode (some (first :: html)) result.baseUrl result.pages
    { result with navigation, navCoverage := coverage, pages }
  | _ =>
    let (assignments, coverage) := assignNavigation unicode result.navigation result.pages
    let pages := result.pages.map (replacePage assignments)
    { result with navCoverage := recountPlacements coverage pages, pages }

/-- The result of a crawl whose pages `place_pages` places. -/
def placedResult (parse : Text → Text → NavigationTree) (unicode : UnicodeData)
    (homepageHtml : Option Text) (baseUrl : Text) (pages : List (FullPageIntelligenceProfile ρ)) :
    PageClassificationOutput ρ :=
  let (navigation, navCoverage, pages) := placePages parse unicode homepageHtml baseUrl pages
  { baseUrl, navigation, navCoverage, pages }

end Placing

section Stable

variable {ρ : Type} {page page' : FullPageIntelligenceProfile ρ}
  {assignments : Dict Text NavAssignment} {assignment : NavAssignment} {navPath : List Text}

/-- The page as its assignment and its own evidence place it. -/
def FullPageIntelligenceProfile.placedBy (page : FullPageIntelligenceProfile ρ)
    (assignment : NavAssignment) : FullPageIntelligenceProfile ρ :=
  { page with
    navParentUrl := assignment.navParentUrl
    trailSource := (betterTrail (ownBreadcrumbOf page) assignment.navPath).2
    breadcrumbPath := (betterTrail (ownBreadcrumbOf page) assignment.navPath).1 }

theorem placePage_of_get (found : assignments.get page.url = some assignment) :
    placePage assignments page = page.placedBy assignment := by
  rw [placePage, found]
  dsimp only
  split
  · rfl
  · next unchanged =>
    rw [FullPageIntelligenceProfile.placedBy, not_not.mp unchanged]

theorem placePage_of_get_none (found : assignments.get page.url = none) :
    placePage assignments page = tagged page (ownBreadcrumbOf page) := by
  rw [placePage, found]

theorem replacePage_eq : replacePage assignments page = placePage assignments page := by
  cases found : assignments.get page.url with
  | none => rw [placePage_of_get_none found, replacePage, found]
  | some assignment =>
    rw [placePage_of_get found, replacePage, found]
    rfl

theorem placePage_url : (placePage assignments page).url = page.url := by
  cases found : assignments.get page.url with
  | none =>
    rw [placePage_of_get_none found]
    rfl
  | some assignment =>
    rw [placePage_of_get found]
    rfl

theorem placePage_primaryPageType :
    (placePage assignments page).primaryPageType = page.primaryPageType := by
  cases found : assignments.get page.url with
  | none =>
    rw [placePage_of_get_none found]
    rfl
  | some assignment =>
    rw [placePage_of_get found]
    rfl

theorem ownBreadcrumbOf_of_ne_nil (own : page.ownBreadcrumb ≠ []) :
    ownBreadcrumbOf page = page.ownBreadcrumb := if_pos own

theorem ownBreadcrumbOf_of_nil (own : page.ownBreadcrumb = []) :
    ownBreadcrumbOf page = if page.trailSource = .breadcrumb then page.breadcrumbPath else [] :=
  if_neg (not_not.mpr own)

theorem ownBreadcrumbOf_tagged :
    ownBreadcrumbOf (tagged page (ownBreadcrumbOf page)) = ownBreadcrumbOf page := by
  by_cases own : page.ownBreadcrumb = []
  · have left (trail : List Text) : ownBreadcrumbOf (tagged page trail) =
        if (tagged page trail).trailSource = .breadcrumb then page.breadcrumbPath else [] :=
      ownBreadcrumbOf_of_nil own
    rw [left, ownBreadcrumbOf_of_nil own]
    by_cases source : page.trailSource = .breadcrumb
    · rw [if_pos source]
      by_cases path : page.breadcrumbPath = []
      · rw [path, ite_self]
      · rw [tagged, if_neg path, if_pos rfl]
    · rw [if_neg source]
      rfl
  · rw [ownBreadcrumbOf_of_ne_nil own]
    exact ownBreadcrumbOf_of_ne_nil own

theorem betterTrail_menu {breadcrumb : List Text}
    (menu : menuDepth navPath ≠ 0 ∧ breadcrumb.length ≤ menuDepth navPath) :
    betterTrail breadcrumb navPath = (navPath, .menu) := if_pos menu

theorem betterTrail_placedBy :
    betterTrail (ownBreadcrumbOf (page.placedBy assignment)) assignment.navPath =
      betterTrail (ownBreadcrumbOf page) assignment.navPath := by
  by_cases own : page.ownBreadcrumb = []
  · have left : ownBreadcrumbOf (page.placedBy assignment) =
        if (betterTrail (ownBreadcrumbOf page) assignment.navPath).2 = .breadcrumb then
          (betterTrail (ownBreadcrumbOf page) assignment.navPath).1 else [] :=
      ownBreadcrumbOf_of_nil own
    rw [left]
    by_cases menu : menuDepth assignment.navPath ≠ 0 ∧
        (ownBreadcrumbOf page).length ≤ menuDepth assignment.navPath
    · rw [betterTrail_menu menu]
      exact betterTrail_menu ⟨menu.1, Nat.zero_le _⟩
    · by_cases evidence : ownBreadcrumbOf page = []
      · have neither : betterTrail [] assignment.navPath = (assignment.navPath, .none) := by
          rw [evidence] at menu
          rw [betterTrail, if_neg menu]
          rfl
        rw [evidence, neither]
        exact neither
      · have wins : betterTrail (ownBreadcrumbOf page) assignment.navPath =
            (ownBreadcrumbOf page, .breadcrumb) := by
          rw [betterTrail, if_neg menu, if_pos evidence]
        rw [wins]
        exact wins
  · have kept : ownBreadcrumbOf (page.placedBy assignment) = ownBreadcrumbOf page := by
      rw [ownBreadcrumbOf_of_ne_nil own]
      exact ownBreadcrumbOf_of_ne_nil own
    rw [kept]

theorem placePage_placePage :
    placePage assignments (placePage assignments page) = placePage assignments page := by
  cases found : assignments.get page.url with
  | none =>
    rw [placePage_of_get_none found]
    have again : assignments.get (tagged page (ownBreadcrumbOf page)).url = none := found
    rw [placePage_of_get_none again, ownBreadcrumbOf_tagged]
    rfl
  | some assignment =>
    rw [placePage_of_get found]
    have again : assignments.get (page.placedBy assignment).url = some assignment := found
    rw [placePage_of_get again, FullPageIntelligenceProfile.placedBy, betterTrail_placedBy]
    rfl

end Stable

section Results

variable {ρ : Type} {parse : Text → Text → NavigationTree} {unicode : UnicodeData}
  {tree : NavigationTree} {pages pages' : List (FullPageIntelligenceProfile ρ)}

/-- The coverage and the pages that placing under a menu gives. -/
def placeUnder (unicode : UnicodeData) (tree : NavigationTree)
    (pages : List (FullPageIntelligenceProfile ρ)) :
    NavCoverageReport × List (FullPageIntelligenceProfile ρ) :=
  let placed := pages.map (placePage (assignNavigation unicode tree pages).1)
  (recountPlacements (assignNavigation unicode tree pages).2 placed, placed)

variable {first : Char}

theorem placePages_of_html {html baseUrl : Text} :
    placePages parse unicode (some (first :: html)) baseUrl pages =
      (parse (first :: html) baseUrl, placeUnder unicode (parse (first :: html) baseUrl) pages) :=
  rfl

theorem placedResult_of_html {html baseUrl : Text} :
    placedResult parse unicode (some (first :: html)) baseUrl pages =
      { baseUrl
        navigation := parse (first :: html) baseUrl
        navCoverage := (placeUnder unicode (parse (first :: html) baseUrl) pages).1
        pages := (placeUnder unicode (parse (first :: html) baseUrl) pages).2 } := rfl

theorem reparsePlacement_of_html {result : PageClassificationOutput ρ}
    {html : Text} :
    reparsePlacement parse unicode result (some (first :: html)) =
      placedResult parse unicode (some (first :: html)) result.baseUrl result.pages := rfl

theorem reparsePlacement_stored {result : PageClassificationOutput ρ} {homepageHtml : Option Text}
    (absent : homepageHtml.getD [] = []) :
    reparsePlacement parse unicode result homepageHtml =
      { result with
        navCoverage := (placeUnder unicode result.navigation result.pages).1
        pages := (placeUnder unicode result.navigation result.pages).2 } := by
  have loop : replacePage (ρ := ρ) (assignNavigation unicode result.navigation result.pages).1 =
      placePage (assignNavigation unicode result.navigation result.pages).1 :=
    funext fun _ => replacePage_eq
  match homepageHtml, absent with
  | none, _ =>
    rw [placeUnder, ← loop]
    rfl
  | some [], _ =>
    rw [placeUnder, ← loop]
    rfl

theorem assignNavigation_placed {assignments : Dict Text NavAssignment} :
    assignNavigation unicode tree (pages.map (placePage assignments)) =
      assignNavigation unicode tree pages := by
  refine assignNavigation_congr ?_
  rw [List.map_map]
  refine List.map_congr_left fun page _ => ?_
  rw [Function.comp_apply, placePage_url, placePage_primaryPageType]

theorem placeUnder_placeUnder :
    placeUnder unicode tree (placeUnder unicode tree pages).2 = placeUnder unicode tree pages := by
  have again : (pages.map (placePage (assignNavigation unicode tree pages).1)).map
      (placePage (assignNavigation unicode tree pages).1) =
      pages.map (placePage (assignNavigation unicode tree pages).1) := by
    rw [List.map_map]
    exact List.map_congr_left fun page _ => placePage_placePage
  simp only [placeUnder, assignNavigation_placed, again]

/-- Pages that the cascade described alike, and that carry the same evidence of what they
published about themselves. -/
structure SameEvidence (page page' : FullPageIntelligenceProfile ρ) : Prop where
  url : page.url = page'.url
  primaryPageType : page.primaryPageType = page'.primaryPageType
  ownBreadcrumb : page.ownBreadcrumb = page'.ownBreadcrumb
  facts : page.facts = page'.facts
  evidence : ownBreadcrumbOf page = ownBreadcrumbOf page'

theorem SameEvidence.placedBy {page page' : FullPageIntelligenceProfile ρ}
    {assignment : NavAssignment} (same : SameEvidence page page') :
    page.placedBy assignment = page'.placedBy assignment := by
  simp only [FullPageIntelligenceProfile.placedBy, same.url, same.primaryPageType,
    same.ownBreadcrumb, same.facts, same.evidence]

theorem SameEvidence.forall₂_placePage {assignments : Dict Text NavAssignment}
    (same : List.Forall₂ SameEvidence pages pages')
    (assigned : ∀ page ∈ pages, ∃ assignment, assignments.get page.url = some assignment) :
    pages.map (placePage assignments) = pages'.map (placePage assignments) := by
  induction same with
  | nil => rfl
  | @cons page page' pages pages' head tail ih =>
    obtain ⟨assignment, found⟩ := assigned page List.mem_cons_self
    have found' : assignments.get page'.url = some assignment := head.url ▸ found
    rw [List.map_cons, List.map_cons, placePage_of_get found, placePage_of_get found',
      head.placedBy, ih fun page listed => assigned page (List.mem_cons_of_mem _ listed)]

theorem SameEvidence.placeUnder (same : List.Forall₂ SameEvidence pages pages') :
    Placement.placeUnder unicode tree pages = Placement.placeUnder unicode tree pages' := by
  have alike : assignNavigation unicode tree pages = assignNavigation unicode tree pages' := by
    refine assignNavigation_congr ?_
    induction same with
    | nil => rfl
    | cons head _ ih => rw [List.map_cons, List.map_cons, head.url, head.primaryPageType, ih]
  have placed : pages.map (placePage (assignNavigation unicode tree pages).1) =
      pages'.map (placePage (assignNavigation unicode tree pages).1) :=
    SameEvidence.forall₂_placePage same fun page => exists_get_assignNavigation
  rw [Placement.placeUnder, Placement.placeUnder, placed, alike]

/-- **Placing again changes nothing.** What a homepage's menu places, the stored menu and the
same homepage place alike; a second reparse of any stored result gives the first one's; and
a placement reads an earlier one only through the evidence it finds in each page. -/
theorem placement_stable (parse : Text → Text → NavigationTree) (unicode : UnicodeData) :
    (∀ (first : Char) (html baseUrl : Text) (pages : List (FullPageIntelligenceProfile ρ)),
      let result := placedResult parse unicode (some (first :: html)) baseUrl pages
      reparsePlacement parse unicode result none = result ∧
        reparsePlacement parse unicode result (some (first :: html)) = result) ∧
    (∀ (stored : PageClassificationOutput ρ) (homepageHtml : Option Text),
      reparsePlacement parse unicode (reparsePlacement parse unicode stored homepageHtml)
          homepageHtml =
        reparsePlacement parse unicode stored homepageHtml) ∧
    ∀ (first : Char) (html baseUrl : Text) (pages pages' : List (FullPageIntelligenceProfile ρ)),
      List.Forall₂ SameEvidence pages pages' →
        placePages parse unicode (some (first :: html)) baseUrl pages =
          placePages parse unicode (some (first :: html)) baseUrl pages' := by
  refine ⟨fun first html baseUrl pages => ⟨?_, ?_⟩, fun stored homepageHtml => ?_,
    fun first html baseUrl pages pages' same => ?_⟩
  · rw [reparsePlacement_stored rfl]
    simp only [placedResult_of_html, placeUnder_placeUnder]
  · rw [reparsePlacement_of_html]
    simp only [placedResult_of_html, placeUnder_placeUnder]
  · cases given : homepageHtml.getD [] with
    | nil =>
      rw [reparsePlacement_stored given, reparsePlacement_stored given]
      simp only [placeUnder_placeUnder]
    | cons first html =>
      obtain rfl : homepageHtml = some (first :: html) := by
        cases homepageHtml with
        | none => cases given
        | some text => exact congrArg some given
      rw [reparsePlacement_of_html, reparsePlacement_of_html]
      simp only [placedResult_of_html, placeUnder_placeUnder]
  · rw [placePages_of_html, placePages_of_html, SameEvidence.placeUnder same]

end Results

/-- A page that publishes no breadcrumb, before anything has placed it. -/
def unplacedPage : FullPageIntelligenceProfile Unit where
  url := "https://a.co/p".toList
  primaryPageType := .blogArticle
  facts := ()

/-- The same page in a result in which the menu placed it. -/
def menuPage : FullPageIntelligenceProfile Unit :=
  { unplacedPage with breadcrumbPath := ["Blog".toList], trailSource := .menu }

/-- The same page in a result older than its own field, placed by its breadcrumb. -/
def legacyPage : FullPageIntelligenceProfile Unit :=
  { unplacedPage with breadcrumbPath := ["Blog".toList], trailSource := .breadcrumb }

theorem menuPage_placed_as_unplacedPage : List.Forall₂ SameEvidence [menuPage] [unplacedPage] ∧
      placePages (fun _ _ => {}) .ascii (some ['<']) "https://a.co".toList [menuPage] =
        placePages (fun _ _ => {}) .ascii (some ['<']) "https://a.co".toList [unplacedPage] :=
  ⟨.cons ⟨rfl, rfl, rfl, rfl, rfl⟩ .nil,
    (placement_stable _ _).2.2 _ _ _ _ _ (.cons ⟨rfl, rfl, rfl, rfl, rfl⟩ .nil)⟩

/-- Two pages that differ only in what an earlier placement wrote are placed apart. -/
theorem earlier_placement_read :
    { legacyPage with breadcrumbPath := [], trailSource := .none } = unplacedPage ∧
      placePages (fun _ _ => {}) .ascii (some ['<']) "https://a.co".toList [legacyPage] ≠
        placePages (fun _ _ => {}) .ascii (some ['<']) "https://a.co".toList [unplacedPage] := by
  refine ⟨rfl, fun same => ?_⟩
  have sources := congrArg (fun placed => placed.2.2.map (·.trailSource)) same
  revert sources
  decide

end Rankuno.Placement
