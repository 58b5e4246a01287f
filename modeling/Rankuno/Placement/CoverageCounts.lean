import Rankuno.Placement.MenuMatching
import Rankuno.Placement.Placement

/-!
# What the coverage report says placed the pages

`assign_navigation` counts the pages that the menu matches before a breadcrumb may beat it,
and `recount_placements` cuts these counts down to the pages that the menu has kept. The
exact matches are cut last, so what they report may be pages that are only below an entry.
-/

namespace Rankuno.Placement

open Python Python.Text UrlKeys
open Performance (othersLabel)

/-! ### Counts of what two conditions share -/

section Counting

variable {α : Type} {p q : α → Bool} {l : List α}

variable (p q) in
theorem countP_split :
    l.countP p = l.countP (fun a => p a && q a) + l.countP fun a => p a && !q a := by
  induction l with
  | nil => rfl
  | cons a l ih =>
    rw [List.countP_cons, List.countP_cons, List.countP_cons, ih]
    cases p a <;> cases q a <;> simp <;> omega

theorem countP_and_le : (l.countP fun a => p a && q a) ≤ l.countP q :=
  List.countP_mono_left fun _ _ both => (Bool.and_eq_true_iff.mp both).2

theorem countP_eq_countP_and_iff :
    l.countP q = (l.countP fun a => p a && q a) ↔ ∀ a ∈ l, q a = true → p a = true := by
  have split := countP_split q p (l := l)
  simp only [Bool.and_comm (q _)] at split
  rw [split, Nat.add_eq_left, List.countP_eq_zero]
  refine forall₂_congr fun a _ => ?_
  cases p a <;> cases q a <;> decide

theorem cut_counts {first second m n : Nat} (hm : first ≤ m) (hn : second ≤ n) :
    min m (first + second) + min n (first + second - min m (first + second)) = first + second ∧
      (min m (first + second) = first ↔ m = first ∨ second = 0) := by
  omega

end Counting

section Tells

variable {ρ : Type} (unicode : UnicodeData) (tree : NavigationTree)

/-- The menu has a linked entry at the path of the page. -/
def isEntry (url : Text) : Bool :=
  (linkedEntries unicode tree).any fun entry => entry.key = matchKey unicode url

/-- The entry that the page is matched to names its place at least as deep as its own
breadcrumb. -/
def placedByMenu (page : FullPageIntelligenceProfile ρ) : Bool :=
  (hit? unicode tree page.url).any fun entry =>
    menuDepth entry.labels ≠ 0 ∧ (ownBreadcrumbOf page).length ≤ menuDepth entry.labels

/-- Each count of the report is the number of the pages it is about. -/
structure TellsWhatPlaced (report : NavCoverageReport)
    (pages : List (FullPageIntelligenceProfile ρ)) : Prop where
  total : report.totalUrls = pages.length
  sum : report.totalUrls =
    report.exactMatches + report.inheritedMatches + report.breadcrumbMatches + report.unmatched
  breadcrumbMatches : report.breadcrumbMatches =
    pages.countP fun page => page.trailSource = .breadcrumb
  unmatched : report.unmatched = pages.countP fun page => page.trailSource = .none
  exactMatches : report.exactMatches =
    pages.countP fun page => decide (page.trailSource = .menu) && isEntry unicode tree page.url
  inheritedMatches : report.inheritedMatches =
    pages.countP fun page => decide (page.trailSource = .menu) && !isEntry unicode tree page.url

/-- The menu keeps every page that is an entry, or places no other. -/
def EntriesKept (pages : List (FullPageIntelligenceProfile ρ)) : Prop :=
  (∀ page ∈ pages, isEntry unicode tree page.url = true → placedByMenu unicode tree page = true) ∨
    ∀ page ∈ pages, placedByMenu unicode tree page = true → isEntry unicode tree page.url = true

end Tells

/-! ### The recount -/

section Recount

variable {ρ : Type} {unicode : UnicodeData} {tree : NavigationTree}
  {report : NavCoverageReport} {pages : List (FullPageIntelligenceProfile ρ)}

variable (pages) in
theorem length_eq_countP : pages.length = (pages.countP fun page => page.trailSource = .menu) +
      (pages.countP fun page => page.trailSource = .breadcrumb) +
      pages.countP fun page => page.trailSource = .none := by
  induction pages with
  | nil => rfl
  | cons page pages ih =>
    rw [List.length_cons, List.countP_cons, List.countP_cons, List.countP_cons, ih]
    cases page.trailSource <;> simp <;> omega

theorem tells_recountPlacements_iff (exact_ : (pages.countP fun page =>
      decide (page.trailSource = .menu) && isEntry unicode tree page.url) ≤ report.exactMatches)
    (inherited : (pages.countP fun page => decide (page.trailSource = .menu) &&
      !isEntry unicode tree page.url) ≤ report.inheritedMatches) :
    TellsWhatPlaced unicode tree (recountPlacements report pages) pages ↔
      report.exactMatches = (pages.countP fun page =>
        decide (page.trailSource = .menu) && isEntry unicode tree page.url) ∨
      (pages.countP fun page => decide (page.trailSource = .menu) &&
        !isEntry unicode tree page.url) = 0 := by
  have menu := countP_split (l := pages) (fun page => decide (page.trailSource = .menu))
    fun page => isEntry unicode tree page.url
  have sources := length_eq_countP pages
  obtain ⟨kept, split⟩ := cut_counts exact_ inherited
  rw [← menu] at kept split
  rw [← split]
  constructor
  · intro tells
    exact tells.exactMatches
  · intro same
    constructor
    · rfl
    · simp only [recountPlacements]
      omega
    · rfl
    · simp only [recountPlacements]
      omega
    · exact same
    · simp only [recountPlacements]
      omega

end Recount

section Placing

variable {ρ : Type} {unicode : UnicodeData} {tree : NavigationTree}
  {pages : List (FullPageIntelligenceProfile ρ)} {page : FullPageIntelligenceProfile ρ}

theorem betterTrail_menu_iff {breadcrumb navPath : List Text} :
    (betterTrail breadcrumb navPath).2 = .menu ↔
      menuDepth navPath ≠ 0 ∧ breadcrumb.length ≤ menuDepth navPath := by
  rw [betterTrail]
  split
  · next wins => exact iff_of_true rfl wins
  · next loses =>
      refine iff_of_false ?_ loses
      split
      · exact TrailSource.noConfusion
      · exact TrailSource.noConfusion

theorem trailSource_placePage (listed : page ∈ pages) :
    (placePage (assignNavigation unicode tree pages).1 page).trailSource = .menu ↔
      placedByMenu unicode tree page = true := by
  obtain ⟨assignment, found⟩ : ∃ assignment,
      (assignNavigation unicode tree pages).1.get page.url = some assignment :=
    exists_get_assignNavigation listed
  obtain ⟨pageType, rfl⟩ := exists_assignOne found
  rw [placePage_of_get found]
  refine betterTrail_menu_iff.trans ?_
  rw [placedByMenu]
  cases met : hit? unicode tree page.url with
  | none =>
    rw [assignOne_of_find?_none met]
    exact iff_of_false (fun deep => deep.1 rfl) Bool.false_ne_true
  | some entry =>
    rw [assignOne_of_find? met]
    exact decide_eq_true_iff.symm

theorem isEntry_iff {url : Text} : isEntry unicode tree url = true ↔
    ∃ entry ∈ linkedEntries unicode tree, entry.key = matchKey unicode url := by
  simp only [isEntry, List.any_eq_true, decide_eq_true_eq]

theorem exactMatches_assignNavigation : (assignNavigation unicode tree pages).2.exactMatches =
      pages.countP fun page => isEntry unicode tree page.url := by
  refine (List.countP_map ..).trans (List.countP_congr fun page _ => ?_)
  exact matchedExactly_iff.trans isEntry_iff.symm

theorem inherited_of_placedByMenu (pageType : PrimaryPageType)
    (placed : placedByMenu unicode tree page = true)
    (other : isEntry unicode tree page.url = false) :
    (assignOne page.url pageType (matchKey unicode page.url)
        (navEntries unicode tree)).matchedExactly = false ∧
      (assignOne page.url pageType (matchKey unicode page.url)
        (navEntries unicode tree)).navParentUrl.isSome = true := by
  constructor
  · refine Bool.eq_false_iff.mpr fun exact_ => ?_
    rw [isEntry_iff.mpr (matchedExactly_iff.mp exact_)] at other
    cases other
  · rw [placedByMenu] at placed
    cases met : hit? unicode tree page.url with
    | none =>
      rw [met] at placed
      cases placed
    | some entry =>
      rw [assignOne_of_find? met]
      rfl

theorem countP_le_inheritedMatches :
    (pages.countP fun page => placedByMenu unicode tree page && !isEntry unicode tree page.url) ≤
      (assignNavigation unicode tree pages).2.inheritedMatches := by
  refine (List.countP_mono_left fun page _ both => ?_).trans_eq (List.countP_map ..).symm
  obtain ⟨placed, other⟩ := Bool.and_eq_true_iff.mp both
  obtain ⟨inexact, parent⟩ := inherited_of_placedByMenu page.primaryPageType placed
    (Bool.not_eq_true' _ |>.mp other)
  exact Bool.and_eq_true_iff.mpr ⟨by rw [inexact]; rfl, parent⟩

variable (unicode tree pages) in
theorem countP_placed (q : Text → Bool) :
    ((pages.map (placePage (assignNavigation unicode tree pages).1)).countP fun page =>
      decide (page.trailSource = .menu) && q page.url) =
      pages.countP fun page => placedByMenu unicode tree page && q page.url := by
  refine (List.countP_map ..).trans (List.countP_congr fun page listed => ?_)
  rw [Function.comp_apply, placePage_url, Bool.and_eq_true_iff, Bool.and_eq_true_iff,
    decide_eq_true_iff, trailSource_placePage listed]

theorem tells_placeUnder_iff : TellsWhatPlaced unicode tree (placeUnder unicode tree pages).1
        (placeUnder unicode tree pages).2 ↔
      EntriesKept unicode tree pages := by
  have entries := countP_placed unicode tree pages (isEntry unicode tree)
  have others := countP_placed unicode tree pages fun url => !isEntry unicode tree url
  rw [placeUnder, tells_recountPlacements_iff, entries, others, exactMatches_assignNavigation,
    countP_eq_countP_and_iff, List.countP_eq_zero, EntriesKept]
  · refine or_congr_right (forall₂_congr fun page _ => ?_)
    cases placedByMenu unicode tree page <;> cases isEntry unicode tree page.url <;> decide
  · rw [entries, exactMatches_assignNavigation]
    exact countP_and_le
  · rw [others]
    exact countP_le_inheritedMatches

theorem tells_tagged (unicode : UnicodeData) (pages : List (FullPageIntelligenceProfile ρ)) :
    TellsWhatPlaced unicode {} (recountPlacements { totalUrls := pages.length }
        (pages.map fun page => tagged page page.breadcrumbPath))
      (pages.map fun page => tagged page page.breadcrumbPath) := by
  have noMenu (q : FullPageIntelligenceProfile ρ → Bool) :
      ((pages.map fun page => tagged page page.breadcrumbPath).countP fun page =>
        decide (page.trailSource = .menu) && q page) = 0 := by
    rw [List.countP_eq_zero]
    intro page listed
    obtain ⟨page, -, rfl⟩ := List.mem_map.mp listed
    rw [tagged]
    split <;> exact Bool.false_ne_true
  exact (tells_recountPlacements_iff (Nat.le_of_eq (noMenu _)) (Nat.le_of_eq (noMenu _))).mpr
    (Or.inr (noMenu _))

end Placing

section Reports

variable {ρ : Type}

/-- The menu that the pages are placed under: the homepage's where there is one. -/
def menuOf (parse : Text → Text → NavigationTree) (homepageHtml : Option Text) (baseUrl : Text)
    (stored : NavigationTree) : NavigationTree :=
  match homepageHtml with
  | some (first :: html) => parse (first :: html) baseUrl
  | _ => stored

/-- **The counts tell what placed each page exactly where the menu keeps every page that is
an entry, or places no other.** -/
theorem tellsWhatPlaced_iff_entriesKept (parse : Text → Text → NavigationTree)
    (unicode : UnicodeData) :
    (∀ (homepageHtml : Option Text) (baseUrl : Text) (pages : List (FullPageIntelligenceProfile ρ)),
      let placed := placePages parse unicode homepageHtml baseUrl pages
      TellsWhatPlaced unicode placed.1 placed.2.1 placed.2.2 ↔
        EntriesKept unicode (menuOf parse homepageHtml baseUrl {}) pages) ∧
    ∀ (homepageHtml : Option Text) (stored : PageClassificationOutput ρ),
      let placed := reparsePlacement parse unicode stored homepageHtml
      TellsWhatPlaced unicode placed.navigation placed.navCoverage placed.pages ↔
        EntriesKept unicode (menuOf parse homepageHtml stored.baseUrl stored.navigation)
          stored.pages := by
  constructor
  · intro homepageHtml baseUrl pages
    have unread : EntriesKept unicode {} pages := Or.inl fun _ _ entry => by cases entry
    cases homepageHtml with
    | none => exact iff_of_true (tells_tagged unicode pages) unread
    | some text =>
      cases text with
      | nil => exact iff_of_true (tells_tagged unicode pages) unread
      | cons first html => exact tells_placeUnder_iff
  · intro homepageHtml stored
    cases homepageHtml with
    | none =>
      rw [reparsePlacement_stored rfl]
      exact tells_placeUnder_iff
    | some text =>
      cases text with
      | nil =>
        rw [reparsePlacement_stored rfl]
        exact tells_placeUnder_iff
      | cons first html => exact tells_placeUnder_iff

end Reports

def blogMenu : NavigationTree where
  roots := [.node "Blog".toList (some "https://e.com/blog".toList) []]

/-- The page of the entry, which publishes a longer breadcrumb than the menu's path. -/
def blogHub : FullPageIntelligenceProfile Unit where
  url := "https://e.com/blog".toList
  primaryPageType := .blogHub
  ownBreadcrumb := ["Home".toList, "Blog".toList]
  facts := ()

/-- A page below the entry. -/
def blogArticle : FullPageIntelligenceProfile Unit where
  url := "https://e.com/blog/a".toList
  primaryPageType := .blogArticle
  facts := ()

/-- The two pages as the menu and the breadcrumb place them. -/
def blogPlaced : NavigationTree × NavCoverageReport × List (FullPageIntelligenceProfile Unit) :=
  placePages (fun _ _ => blogMenu) .ascii (some ['<']) "https://e.com".toList
    [blogHub, blogArticle]

/-- The menu places the article alone, and the report calls it an exact match. -/
theorem article_counted_exact : (blogPlaced.2.2.map (·.trailSource) = [.breadcrumb, .menu] ∧
        blogPlaced.2.1.exactMatches = 1 ∧ blogPlaced.2.1.inheritedMatches = 0) ∧
      ¬TellsWhatPlaced .ascii blogPlaced.1 blogPlaced.2.1 blogPlaced.2.2 := by
  refine ⟨by decide, fun tells => ?_⟩
  have counted := tells.exactMatches
  revert counted
  decide

end Rankuno.Placement
