import Mathlib.Algebra.Order.Floor.Ring
import Mathlib.Data.List.Sort
import Mathlib.Data.Rat.Floor
import Rankuno.Performance.UrlIdentity

/-!
# Metrics rolled up the navigation tree

Every export row is resolved onto a page, rows that share a page are merged, and
each page's metrics are lifted onto every prefix of its trail. Positions, times,
conversions and revenue are rational numbers.
-/

namespace Rankuno.Performance

open Python UrlKeys

structure GscPageMetrics where
  url : Text
  clicks : Nat
  impressions : Nat
  position : ℚ
  deriving DecidableEq

structure Ga4PageMetrics where
  path : Text
  sessions : Nat
  engagedSessions : Nat
  engagementTimeSec : ℚ
  conversions : ℚ
  revenue : ℚ
  deriving DecidableEq

structure PagePerformance where
  pageUrl : Text
  gsc : Option GscPageMetrics
  ga4 : Option Ga4PageMetrics
  deriving DecidableEq

/-- The counters of `_Acc` that its `add` adds. -/
@[ext] structure Metrics where
  clicks : Nat := 0
  impressions : Nat := 0
  /-- The sum of position times impressions. -/
  positionWeight : ℚ := 0
  sessions : Nat := 0
  engagedSessions : Nat := 0
  engagementTimeSec : ℚ := 0
  conversions : ℚ := 0
  revenue : ℚ := 0
  deriving DecidableEq

/-- `_Acc.add`. -/
def Metrics.add (m other : Metrics) : Metrics where
  clicks := m.clicks + other.clicks
  impressions := m.impressions + other.impressions
  positionWeight := m.positionWeight + other.positionWeight
  sessions := m.sessions + other.sessions
  engagedSessions := m.engagedSessions + other.engagedSessions
  engagementTimeSec := m.engagementTimeSec + other.engagementTimeSec
  conversions := m.conversions + other.conversions
  revenue := m.revenue + other.revenue

/-- The running totals of a section, `_Acc`. -/
@[ext] structure Acc where
  pages : Nat := 0
  pagesWithData : Nat := 0
  directPages : Nat := 0
  directClicks : Nat := 0
  metrics : Metrics := {}
  deriving DecidableEq

/-- One page's merged metrics, `_PageAcc`. -/
@[ext] structure PageAcc where
  metrics : Metrics := {}
  seenGsc : Bool := false
  seenGa4 : Bool := false
  deriving DecidableEq

structure UnattributedTotals where
  rows : Nat := 0
  clicks : Nat := 0
  impressions : Nat := 0
  sessions : Nat := 0
  deriving DecidableEq

structure ResolutionOutcome where
  total : Nat := 0
  found : List UrlMatch := []
  failures : List UrlFailure := []
  deriving DecidableEq

structure PageMetricSet where
  pages : Dict Text PagePerformance
  unattributed : UnattributedTotals
  unresolvedGsc : List GscPageMetrics
  unresolvedGa4 : List Ga4PageMetrics
  gscResolution : ResolutionOutcome
  ga4Resolution : ResolutionOutcome

structure SectionPerformance where
  path : List Text
  label : Text
  depth : Nat
  pages : Nat
  pagesWithData : Nat
  directPages : Nat
  directClicks : Nat
  clicks : Nat
  impressions : Nat
  position : Option ℚ
  sessions : Nat
  engagedSessions : Nat
  engagementTimeSec : ℚ
  conversions : ℚ
  revenue : ℚ
  deriving DecidableEq

structure PerformanceRollup where
  site : SectionPerformance
  sections : List SectionPerformance
  unattributed : UnattributedTotals
  gscResolution : ResolutionOutcome
  ga4Resolution : ResolutionOutcome
  duplicateProfiles : Nat
  deriving DecidableEq

/-- `section_path_of`. -/
def sectionPathOf (page : FullPageIntelligenceProfile) : List Text :=
  if page.breadcrumbPath = [] then [othersLabel] else page.breadcrumbPath

section Merge

/-- What the loops of `merge_page_metrics` have gathered. -/
structure Merge where
  byPage : Dict Text PageAcc := Table.empty
  unresolved : UnattributedTotals := {}
  missedGsc : List GscPageMetrics := []
  missedGa4 : List Ga4PageMetrics := []
  gsc : ResolutionOutcome := {}
  ga4 : ResolutionOutcome := {}

def ResolutionOutcome.add (outcome : ResolutionOutcome) : Resolution → ResolutionOutcome
  | .found answer =>
    { outcome with total := outcome.total + 1, found := outcome.found ++ [answer] }
  | .failed failure =>
    { outcome with total := outcome.total + 1, failures := outcome.failures ++ [failure] }

def PageAcc.addGsc (row : GscPageMetrics) (held : PageAcc) : PageAcc :=
  { held with
    seenGsc := true
    metrics :=
      { held.metrics with
        clicks := held.metrics.clicks + row.clicks
        impressions := held.metrics.impressions + row.impressions
        positionWeight := held.metrics.positionWeight + row.position * row.impressions } }

def PageAcc.addGa4 (row : Ga4PageMetrics) (held : PageAcc) : PageAcc :=
  { held with
    seenGa4 := true
    metrics :=
      { held.metrics with
        sessions := held.metrics.sessions + row.sessions
        engagedSessions := held.metrics.engagedSessions + row.engagedSessions
        engagementTimeSec := held.metrics.engagementTimeSec + row.engagementTimeSec
        conversions := held.metrics.conversions + row.conversions
        revenue := held.metrics.revenue + row.revenue } }

variable (resolve : Text → Resolution)

/-- One turn of the loop over the Search Console rows. -/
def Merge.addGsc (merge : Merge) (row : GscPageMetrics) : Merge :=
  let merge := { merge with gsc := merge.gsc.add (resolve row.url) }
  match resolve row.url with
  | .failed _ =>
    { merge with
      missedGsc := merge.missedGsc ++ [row]
      unresolved :=
        { merge.unresolved with
          rows := merge.unresolved.rows + 1
          clicks := merge.unresolved.clicks + row.clicks
          impressions := merge.unresolved.impressions + row.impressions } }
  | .found outcome =>
    { merge with byPage := Dict.alter merge.byPage outcome.pageUrl {} (PageAcc.addGsc row) }

/-- One turn of the loop over the GA4 rows. -/
def Merge.addGa4 (merge : Merge) (row : Ga4PageMetrics) : Merge :=
  let merge := { merge with ga4 := merge.ga4.add (resolve row.path) }
  match resolve row.path with
  | .failed _ =>
    { merge with
      missedGa4 := merge.missedGa4 ++ [row]
      unresolved :=
        { merge.unresolved with
          rows := merge.unresolved.rows + 1
          sessions := merge.unresolved.sessions + row.sessions } }
  | .found outcome =>
    { merge with byPage := Dict.alter merge.byPage outcome.pageUrl {} (PageAcc.addGa4 row) }

def Merge.ofRows (gscRows : List GscPageMetrics) (ga4Rows : List Ga4PageMetrics) : Merge :=
  ga4Rows.foldl (Merge.addGa4 resolve) (gscRows.foldl (Merge.addGsc resolve) {})

/-- `_page_performance`. -/
def pagePerformance (url : Text) (held : PageAcc) : PagePerformance where
  pageUrl := url
  gsc :=
    if held.seenGsc then
      some
        { url
          clicks := held.metrics.clicks
          impressions := held.metrics.impressions
          position :=
            if held.metrics.impressions = 0 then 0
            else held.metrics.positionWeight / held.metrics.impressions }
    else none
  ga4 :=
    if held.seenGa4 then
      some
        { path := url
          sessions := held.metrics.sessions
          engagedSessions := held.metrics.engagedSessions
          engagementTimeSec := held.metrics.engagementTimeSec
          conversions := held.metrics.conversions
          revenue := held.metrics.revenue }
    else none

/-- `merge_page_metrics`. -/
def mergePageMetrics (gscRows : List GscPageMetrics) (ga4Rows : List Ga4PageMetrics) :
    PageMetricSet :=
  let merge := Merge.ofRows resolve gscRows ga4Rows
  { pages := Dict.mapValues merge.byPage pagePerformance
    unattributed := merge.unresolved
    unresolvedGsc := merge.missedGsc
    unresolvedGa4 := merge.missedGa4
    gscResolution := merge.gsc
    ga4Resolution := merge.ga4 }

end Merge

section RollUp

/-- `_measured`. -/
def measured : Option PagePerformance → Metrics
  | none => {}
  | some held =>
    let acc : Metrics :=
      match held.gsc with
      | none => {}
      | some gsc =>
        { clicks := gsc.clicks
          impressions := gsc.impressions
          positionWeight := gsc.position * gsc.impressions }
    match held.ga4 with
    | none => acc
    | some ga4 =>
      { acc with
        sessions := ga4.sessions
        engagedSessions := ga4.engagedSessions
        engagementTimeSec := ga4.engagementTimeSec
        conversions := ga4.conversions
        revenue := ga4.revenue }

/-- A page counted for one of the prefixes of its trail. -/
def Acc.lift (held : Option PagePerformance) (acc : Acc) : Acc :=
  { acc with
    pages := acc.pages + 1
    pagesWithData := if held.isSome then acc.pagesWithData + 1 else acc.pagesWithData
    metrics := acc.metrics.add (measured held) }

/-- A page counted for its trail alone. -/
def Acc.own (held : Option PagePerformance) (acc : Acc) : Acc :=
  { acc with
    directPages := acc.directPages + 1
    directClicks := acc.directClicks + (measured held).clicks }

/-- One turn of the loop of `_roll_up`; `_prefixes` of the trail are its `inits`. -/
def liftPage (byPage : Dict Text PagePerformance) (sections : Dict (List Text) Acc)
    (page : FullPageIntelligenceProfile) : Dict (List Text) Acc :=
  let path := sectionPathOf page
  let held := Dict.get byPage page.url
  let sections := path.inits.foldl
    (fun sections start => Dict.alter sections start {} (Acc.lift held)) sections
  Dict.alter sections path {} (Acc.own held)

/-- `_roll_up`. The last step is `setdefault`. -/
def rollUp (pages : List FullPageIntelligenceProfile) (byPage : Dict Text PagePerformance) :
    Dict (List Text) Acc :=
  Dict.alter (pages.foldl (liftPage byPage) Table.empty) [] {} fun acc => acc

end RollUp

section Render

/-- `round` of Python, with this many digits. A tie goes to the even digit. -/
def roundTo (digits : Nat) (q : ℚ) : ℚ :=
  let scaled := q * 10 ^ digits
  let below := ⌊scaled⌋
  let rest := scaled - below
  let nearest := if rest < 1 / 2 ∨ rest = 1 / 2 ∧ below % 2 = 0 then below else below + 1
  nearest / 10 ^ digits

/-- The mean that `_position` rounds. -/
def meanPosition (weight : ℚ) (impressions : Nat) : Option ℚ :=
  if impressions = 0 then none else some (weight / impressions)

/-- `_position`. -/
def position (weight : ℚ) (impressions : Nat) : Option ℚ :=
  (meanPosition weight impressions).map (roundTo 2)

/-- `_render`. -/
def render (path : List Text) (acc : Acc) : SectionPerformance where
  path := path
  label := path.getLast?.getD []
  depth := path.length
  pages := acc.pages
  pagesWithData := acc.pagesWithData
  directPages := acc.directPages
  directClicks := acc.directClicks
  clicks := acc.metrics.clicks
  impressions := acc.metrics.impressions
  position := position acc.metrics.positionWeight acc.metrics.impressions
  sessions := acc.metrics.sessions
  engagedSessions := acc.metrics.engagedSessions
  engagementTimeSec := roundTo 3 acc.metrics.engagementTimeSec
  conversions := acc.metrics.conversions
  revenue := acc.metrics.revenue

/-- `rollup_of`. It fails where `pop` has no site row to take out. -/
def rollupOf (pages : List FullPageIntelligenceProfile) (duplicateProfiles : Nat)
    (metrics : PageMetricSet) : Option PerformanceRollup :=
  let sections := rollUp pages metrics.pages
  (Dict.get sections []).map fun site =>
    { site := render [] site
      sections := ((sections.delete fun row => row.1 = []).rows.insertionSort
        fun row row' => row.1 ≤ row'.1).map fun row => render row.1 row.2
      unattributed := metrics.unattributed
      gscResolution := metrics.gscResolution
      ga4Resolution := metrics.ga4Resolution
      duplicateProfiles }

/-- `aggregate`. -/
def aggregate (unicode : HostData) (index : UrlResolutionIndex) (gscRows : List GscPageMetrics)
    (ga4Rows : List Ga4PageMetrics) : Option PerformanceRollup :=
  rollupOf index.pages index.duplicateProfiles
    (mergePageMetrics (UrlResolutionIndex.resolve unicode index) gscRows ga4Rows)

end Render

end Rankuno.Performance
