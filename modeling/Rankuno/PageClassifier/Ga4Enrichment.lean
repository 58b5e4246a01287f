import Mathlib.Algebra.Order.BigOperators.Group.List
import Mathlib.Algebra.Order.Group.Nat
import Rankuno.UrlFilter.Spellings

/-!
# Analytics totals on the crawled pages

`ga4_enrichment.py`. One report of a host is joined onto the pages of a crawl, over a key that
pages and rows of the report both have: the path that `urlparse` finds, without the slashes it ends
in. The key of a page has no host, and the path of a row goes through the parser like a URL.

The store, the budget and the client are given as what they answer.
-/

namespace Rankuno.Ga4

open Python Python.Text Python.Urllib UrlKeys UrlFilters

inductive Ga4EnrichmentStatus where
  | notRequested
  | succeeded
  | unmapped
  | notAuthorized
  | overCap
  | overBudget
  | failed
  deriving DecidableEq

structure Ga4EnrichmentReport where
  status : Ga4EnrichmentStatus
  propertyId : Option Text
  pagesCrawled : Nat
  pagesMatched : Nat := 0
  rowsAvailable : Nat := 0
  rowsUsed : Nat := 0
  truncated : Bool := false
  reason : String := ""

/-- `Ga4PageMetrics`. -/
structure Ga4PageMetrics where
  path : Text
  screenPageViews : Nat
  sessions : Nat
  deriving DecidableEq

/-- `Ga4HostReport`. -/
structure Ga4HostReport where
  host : Text
  rows : List Ga4PageMetrics
  rowCount : Nat
  truncated : Bool

/-- A page with its totals; `α` is what else is known of it. -/
structure Page (α : Type) where
  url : Text
  ga4ScreenPageViews : Option Nat := none
  ga4Sessions : Option Nat := none
  rest : α

/-- `uses_params`. -/
def usesParams : List Text :=
  ["", "ftp", "hdl", "prospero", "http", "imap", "https", "shttp", "rtsp", "rtsps", "rtspu", "sip",
    "sips", "mms", "sftp", "tel"].map String.toList

def isSlash (c : Char) : Bool := c = '/'

section Join

variable {α : Type} (unicode : UnicodeData)

/-- `_path_key`. An error is the text of the `ValueError`. -/
def pathKey (url : Text) : Except Text Text :=
  match urlsplit unicode url with
  | .error error => .error error
  | .ok parts =>
    let path := orRoot (if usesParams.any fun scheme => scheme = parts.scheme then
      withoutParams parts.path else parts.path)
    .ok (if 1 < path.length ∧ path.getLast? = some '/' then orRoot (rstrip isSlash path)
      else path)

/-- The loop over the rows. -/
def totalsFrom (totals : Dict Text Ga4PageMetrics) :
    List Ga4PageMetrics → Except Text (Dict Text Ga4PageMetrics)
  | [] => .ok totals
  | row :: rows =>
    match pathKey unicode row.path with
    | .error error => .error error
    | .ok key =>
      let total :=
        match totals.get key with
        | none => row
        | some previous =>
          { path := key
            screenPageViews := previous.screenPageViews + row.screenPageViews
            sessions := previous.sessions + row.sessions }
      totalsFrom (Table.put totals (key, total)) rows

/-- A page with what was counted for its key, if anything was. -/
def Page.withTotals (page : Page α) : Option Ga4PageMetrics → Page α
  | none => page
  | some total => { page with
      ga4ScreenPageViews := some total.screenPageViews
      ga4Sessions := some total.sessions }

/-- The loop over the pages. -/
def enrich (totals : Dict Text Ga4PageMetrics) : List (Page α) → Except Text (List (Page α) × Nat)
  | [] => .ok ([], 0)
  | page :: pages =>
    match pathKey unicode page.url with
    | .error error => .error error
    | .ok key =>
      (enrich totals pages).map fun (enriched, matched) =>
        (page.withTotals (totals.get key) :: enriched,
          if (totals.get key).isSome then matched + 1 else matched)

/-- `_attach`. -/
def attach (pages : List (Page α)) (report : Ga4HostReport) : Except Text (List (Page α) × Nat) :=
  (totalsFrom unicode Table.empty report.rows).bind fun totals => enrich unicode totals pages

/-! ## The run -/

/-- What the store of an organization and its budget answer. -/
structure Ga4Access where
  /-- The property that is mapped; the error is `Ga4AccessStoreUnavailableError`. -/
  mapped : Except Unit (Option Text)
  spends : Bool

/-- What a run is given, beside the pages. -/
structure Gates where
  propertyId : Option Text
  store : Option Ga4Access
  maxPages : Nat

/-- How no report is fetched. -/
inductive FetchFailure where
  | noSecret
  | notAuthorized
  | configuration
  | unavailable

/-- `_stop`. -/
def stop (status : Ga4EnrichmentStatus) (crawled : Nat) (propertyId : Option Text)
    (reason : String) : Ga4EnrichmentReport :=
  { status, propertyId, pagesCrawled := crawled, reason }

def reasonUnmapped : String := "not requested: no GA4 property is mapped for this organisation"

def reasonFailed : String := "GA4 data could not be fetched; the crawl completed without it"

/-- The outcome of a report that was not fetched. -/
def FetchFailure.outcome (crawled : Nat) (propertyId : Text) : FetchFailure → Ga4EnrichmentReport
  | noSecret => stop .unmapped crawled (some propertyId) reasonUnmapped
  | notAuthorized => stop .notAuthorized crawled (some propertyId)
      "not authorized, re-add the account"
  | configuration => stop .failed crawled (some propertyId)
      "GA4 is not configured on this server: the shared OAuth client is missing"
  | unavailable => stop .failed crawled (some propertyId) reasonFailed

/-- The outcome before a report is asked for, or the property to ask for. -/
def Gates.check (gates : Gates) (crawled : Nat) : Except Ga4EnrichmentReport Text :=
  match gates.propertyId with
  | none => .error (stop .notRequested crawled none "")
  | some propertyId =>
    match gates.store with
    | none => .error (stop .unmapped crawled (some propertyId)
        "not requested: GA4 is not configured on this server")
    | some store =>
      if gates.maxPages < crawled then .error (stop .overCap crawled (some propertyId)
        "not requested: this crawl has more pages than the GA4 page cap")
      else
        match store.mapped with
        | .error () => .error (stop .failed crawled (some propertyId) reasonFailed)
        | .ok mapped =>
          if mapped ≠ some propertyId then
            .error (stop .unmapped crawled (some propertyId) reasonUnmapped)
          else if store.spends then .ok propertyId
          else .error (stop .overBudget crawled (some propertyId)
            "skipped: this organisation has used its GA4 calls for today")

/-- `run_ga4_enrichment`. -/
def runGa4Enrichment (pages : List (Page α)) (gates : Gates)
    (fetched : Except FetchFailure Ga4HostReport) :
    Except Text (List (Page α) × Ga4EnrichmentReport) :=
  match gates.check pages.length with
  | .error outcome => .ok (pages, outcome)
  | .ok propertyId =>
    match fetched with
    | .error failure => .ok (pages, failure.outcome pages.length propertyId)
    | .ok report =>
      (attach unicode pages report).map fun (enriched, matched) =>
        (enriched,
          { status := .succeeded
            propertyId := some propertyId
            pagesCrawled := pages.length
            pagesMatched := matched
            rowsAvailable := report.rowCount
            rowsUsed := report.rows.length
            truncated := report.truncated })

/-! ## What a join promises -/

/-- The run gets to the report. -/
def Gates.Pass (gates : Gates) (crawled : Nat) : Prop :=
  ∃ propertyId, gates.check crawled = .ok propertyId

/-- The URL is on the host, and its path is the other up to trailing slashes. -/
def isOwn (host url path : Text) : Bool :=
  match urlsplit unicode url with
  | .error _ => false
  | .ok parts =>
    parts.hostname unicode = some host && rstrip isSlash parts.path = rstrip isSlash path

/-- The rows that are a page's own. -/
def ownRows (report : Ga4HostReport) (page : Page α) : List Ga4PageMetrics :=
  report.rows.filter fun row => isOwn unicode report.host page.url row.path

/-- The page with the sums over its own rows, if it has any. -/
def joined (report : Ga4HostReport) (page : Page α) : Page α :=
  let own := ownRows unicode report page
  if own = [] then page
  else { page with
    ga4ScreenPageViews := some (own.map Ga4PageMetrics.screenPageViews).sum
    ga4Sessions := some (own.map Ga4PageMetrics.sessions).sum }

/-- A run that gets to a report joins it onto the pages that have rows in it. -/
def Joins (pages : List (Page α)) (gates : Gates) (report : Ga4HostReport) : Prop :=
  gates.Pass pages.length → ∃ summary, runGa4Enrichment unicode pages gates (.ok report) =
      .ok (pages.map (joined unicode report), summary) ∧
    summary.pagesMatched = pages.countP fun page => ownRows unicode report page ≠ []

/-- Every page and every path has a key, and they have the same one where the path is the
page's own. -/
structure KeysAgree (urls : List Text) (host : Text) (paths : List Text) : Prop where
  page : ∀ url ∈ urls, ∃ key, pathKey unicode url = .ok key
  path : ∀ path ∈ paths, ∃ key, pathKey unicode path = .ok key
  own : ∀ url ∈ urls, ∀ path ∈ paths,
    pathKey unicode url = pathKey unicode path ↔ isOwn unicode host url path = true

end Join

/-! ## Totals -/

section Totals

variable {α : Type} {unicode : UnicodeData} {rows : List Ga4PageMetrics} {key : Text}

/-- The rows with a key. -/
def rowsAt (unicode : UnicodeData) (key : Text) (rows : List Ga4PageMetrics) :
    List Ga4PageMetrics :=
  rows.filter fun row => pathKey unicode row.path = .ok key

/-- What is counted: whether there is a row, and its figures. -/
def figures : Option Ga4PageMetrics → Option (Nat × Nat)
  | none => none
  | some total => some (total.screenPageViews, total.sessions)

/-- The sums over some rows, if there are any. -/
def sums (rows : List Ga4PageMetrics) : Option (Nat × Nat) :=
  if rows = [] then none
  else some ((rows.map Ga4PageMetrics.screenPageViews).sum, (rows.map Ga4PageMetrics.sessions).sum)

/-- Two figures that may be missing, added. -/
def plus : Option (Nat × Nat) → Option (Nat × Nat) → Option (Nat × Nat)
  | none, figures => figures
  | figures, none => figures
  | some a, some b => some (a.1 + b.1, a.2 + b.2)

theorem sums_cons (row : Ga4PageMetrics) (rows : List Ga4PageMetrics) :
    sums (row :: rows) = plus (some (row.screenPageViews, row.sessions)) (sums rows) := by
  rw [sums, if_neg (List.cons_ne_nil _ _), List.map_cons, List.map_cons, List.sum_cons,
    List.sum_cons, sums]
  split
  · next none =>
    rw [none]
    rfl
  · rfl

theorem plus_assoc (a b c : Option (Nat × Nat)) : plus (plus a b) c = plus a (plus b c) := by
  cases a <;> cases b <;> cases c <;> simp [plus, Nat.add_assoc]

theorem totalsFrom_spec (totals : Dict Text Ga4PageMetrics)
    (keyed : ∀ row ∈ rows, ∃ key, pathKey unicode row.path = .ok key) :
    ∃ totals', totalsFrom unicode totals rows = .ok totals' ∧ ∀ key, figures (totals'.get key) =
        plus (figures (totals.get key)) (sums (rowsAt unicode key rows)) := by
  induction rows generalizing totals with
  | nil =>
    refine ⟨totals, rfl, ?_⟩
    intro key
    cases totals.get key <;> rfl
  | cons row rows ih =>
    obtain ⟨own, found⟩ := keyed row List.mem_cons_self
    unfold totalsFrom
    rw [found]
    dsimp only
    obtain ⟨totals', run, spec⟩ := ih _ fun row mem => keyed row (List.mem_cons_of_mem _ mem)
    refine ⟨totals', run, ?_⟩
    intro key
    rw [spec, Dict.get_put, rowsAt, rowsAt, List.filter_cons, found]
    by_cases same : own = key
    · subst same
      rw [if_pos rfl, if_pos (decide_eq_true rfl), sums_cons, ← plus_assoc]
      congr 1
      cases totals.get own <;> rfl
    · have other : ¬ decide ((.ok own : Except Text Text) = .ok key) = true := by
        rw [decide_eq_true_eq, Except.ok.injEq]
        exact same
      rw [if_neg same, if_neg other]

/-- A page with figures, if there are any. -/
def Page.withFigures (page : Page α) : Option (Nat × Nat) → Page α
  | none => page
  | some (views, sessions) =>
    { page with ga4ScreenPageViews := some views, ga4Sessions := some sessions }

theorem withTotals_eq (page : Page α) (total : Option Ga4PageMetrics) :
    page.withTotals total = page.withFigures (figures total) := by
  cases total <;> rfl

theorem isSome_figures (total : Option Ga4PageMetrics) : (figures total).isSome = total.isSome := by
  cases total <;> rfl

theorem joined_eq (report : Ga4HostReport) (page : Page α) :
    joined unicode report page = page.withFigures (sums (ownRows unicode report page)) := by
  unfold joined sums
  dsimp only
  split
  · rfl
  · rfl

theorem enrich_spec {totals : Dict Text Ga4PageMetrics} {pages : List (Page α)}
    {keyOf : Page α → Text}
    (keyed : ∀ page ∈ pages, pathKey unicode page.url = .ok (keyOf page)) :
    enrich unicode totals pages =
      .ok (pages.map fun page => page.withTotals (totals.get (keyOf page)),
        pages.countP fun page => (totals.get (keyOf page)).isSome) := by
  induction pages with
  | nil => rfl
  | cons page pages ih =>
    rw [enrich, keyed page List.mem_cons_self]
    dsimp only
    rw [ih fun page mem => keyed page (List.mem_cons_of_mem _ mem), Except.map, List.countP_cons]
    dsimp only
    split <;> rfl

theorem keyed_of_totalsFrom {totals totals' : Dict Text Ga4PageMetrics}
    (run : totalsFrom unicode totals rows = .ok totals') :
    ∀ row ∈ rows, ∃ key, pathKey unicode row.path = .ok key := by
  induction rows generalizing totals with
  | nil =>
    intro row mem
    cases mem
  | cons row rows ih =>
    unfold totalsFrom at run
    split at run
    · cases run
    · next key found =>
      intro row' mem
      obtain rfl | mem := List.mem_cons.mp mem
      · exact ⟨key, found⟩
      · exact ih run row' mem

theorem keyed_of_enrich {totals : Dict Text Ga4PageMetrics} {pages : List (Page α)}
    {result : List (Page α) × Nat} (run : enrich unicode totals pages = .ok result) :
    ∀ page ∈ pages, ∃ key, pathKey unicode page.url = .ok key := by
  induction pages generalizing result with
  | nil =>
    intro page mem
    cases mem
  | cons page pages ih =>
    unfold enrich at run
    split at run
    · cases run
    · next key found =>
      cases rest : enrich unicode totals pages with
      | error error =>
        rw [rest] at run
        cases run
      | ok rest =>
        intro page' mem
        obtain rfl | mem := List.mem_cons.mp mem
        · exact ⟨key, found⟩
        · exact ih ‹_› page' mem

def keyOf (unicode : UnicodeData) (page : Page α) : Text :=
  ((pathKey unicode page.url).toOption).getD []

theorem pathKey_eq_keyOf {page : Page α} (keyed : ∃ key, pathKey unicode page.url = .ok key) :
    pathKey unicode page.url = .ok (keyOf unicode page) := by
  obtain ⟨key, found⟩ := keyed
  rw [keyOf, found]
  rfl

theorem attach_spec {pages : List (Page α)} {report : Ga4HostReport}
    (paths : ∀ row ∈ report.rows, ∃ key, pathKey unicode row.path = .ok key)
    (urls : ∀ page ∈ pages, ∃ key, pathKey unicode page.url = .ok key) :
    attach unicode pages report = .ok (pages.map fun page =>
          page.withFigures (sums (rowsAt unicode (keyOf unicode page) report.rows)),
        pages.countP fun page => rowsAt unicode (keyOf unicode page) report.rows ≠ []) := by
  obtain ⟨totals, run, spec⟩ := totalsFrom_spec Table.empty paths
  have counted (key : Text) : figures (totals.get key) = sums (rowsAt unicode key report.rows) := by
    rw [spec]
    rfl
  rw [attach, run, Except.bind, enrich_spec fun page mem => pathKey_eq_keyOf (urls page mem)]
  congr 2
  · apply List.map_congr_left
    intro page _
    rw [withTotals_eq, counted]
  · apply List.countP_congr
    intro page _
    rw [← isSome_figures, counted, sums]
    split
    · next none => simp [none]
    · next some => simp [some]

end Totals

section Agreement

variable {α : Type} {unicode : UnicodeData} {pages : List (Page α)} {host : Text}
  {paths : List Text} {gates : Gates} {report : Ga4HostReport}

theorem run_of_pass (unicode : UnicodeData) (report : Ga4HostReport)
    (pass : gates.Pass pages.length) :
    (∃ error, attach unicode pages report = .error error ∧
        runGa4Enrichment unicode pages gates (.ok report) = .error error) ∨
      ∃ joined summary, attach unicode pages report = .ok joined ∧
        runGa4Enrichment unicode pages gates (.ok report) = .ok (joined.1, summary) ∧
        summary.pagesMatched = joined.2 := by
  obtain ⟨propertyId, checked⟩ := pass
  rw [runGa4Enrichment, checked]
  dsimp only
  cases attach unicode pages report with
  | error error => exact .inl ⟨error, rfl, rfl⟩
  | ok joined => exact .inr ⟨joined, _, rfl, rfl, rfl⟩

theorem rowsAt_eq_ownRows (agree : KeysAgree unicode (pages.map Page.url) host paths)
    (rows : report.rows.map Ga4PageMetrics.path = paths) (same : report.host = host)
    {page : Page α} (mem : page ∈ pages) :
    rowsAt unicode (keyOf unicode page) report.rows = ownRows unicode report page := by
  have url := List.mem_map_of_mem (f := Page.url) mem
  apply List.filter_congr
  intro row inside
  have path : row.path ∈ paths := rows ▸ List.mem_map_of_mem inside
  have own := agree.own page.url url row.path path
  rw [pathKey_eq_keyOf (agree.page page.url url)] at own
  rw [same, Bool.eq_iff_iff, decide_eq_true_eq, ← own]
  exact eq_comm

theorem joins_of_keysAgree (agree : KeysAgree unicode (pages.map Page.url) host paths)
    (rows : report.rows.map Ga4PageMetrics.path = paths) (same : report.host = host) :
    Joins unicode pages gates report := by
  intro pass
  have keyed : ∀ row ∈ report.rows, ∃ key, pathKey unicode row.path = .ok key := fun row mem =>
    agree.path row.path (rows ▸ List.mem_map_of_mem mem)
  have attached := attach_spec keyed fun page mem => agree.page page.url (List.mem_map_of_mem mem)
  obtain ⟨error, raises, _⟩ | ⟨result, summary, gives, run, matched⟩ :=
    run_of_pass unicode report pass
  · rw [attached] at raises
    cases raises
  · rw [attached] at gives
    cases gives
    refine ⟨summary, ?_, ?_⟩
    · rw [run]
      congr 2
      apply List.map_congr_left
      intro page mem
      rw [joined_eq, rowsAt_eq_ownRows agree rows same mem]
    · rw [matched]
      apply List.countP_congr
      intro page mem
      rw [rowsAt_eq_ownRows agree rows same mem]

def openGates (crawled : Nat) : Gates := ⟨some [], some ⟨.ok (some []), true⟩, crawled⟩

theorem pass_openGates (crawled : Nat) : (openGates crawled).Pass crawled := by
  refine ⟨[], ?_⟩
  simp [Gates.check, openGates]

def countOn (host : Text) (paths : List Text) (path : Text) (views : Nat) : Ga4HostReport :=
  ⟨host, paths.map fun p => ⟨p, if p = path then views else 0, 0⟩, 0, false⟩

theorem paths_countOn (host : Text) (paths : List Text) (path : Text) (views : Nat) :
    (countOn host paths path views).rows.map Ga4PageMetrics.path = paths := by
  rw [countOn, List.map_map]
  exact List.map_id' paths

section Counting

variable {path : Text} {views : Nat} {rows : List Ga4PageMetrics} {page : Page α}
  {row : Ga4PageMetrics}

theorem views_of_mem (page : Page α) (mem : row ∈ rows) :
    ∃ total, (page.withFigures (sums rows)).ga4ScreenPageViews = some total ∧
      row.screenPageViews ≤ total := by
  rw [sums, if_neg (List.ne_nil_of_mem mem)]
  exact ⟨_, rfl, List.single_le_sum (fun views _ => Nat.zero_le views) _ (List.mem_map_of_mem mem)⟩

theorem views_of_zero (page : Page α) (none : ∀ row ∈ rows, row.screenPageViews = 0) :
    (page.withFigures (sums rows)).ga4ScreenPageViews = some 0 ∨
      (page.withFigures (sums rows)).ga4ScreenPageViews = page.ga4ScreenPageViews := by
  rw [sums]
  split
  · exact .inr rfl
  · left
    have total : (rows.map Ga4PageMetrics.screenPageViews).sum = 0 := by
      rw [List.sum_eq_zero_iff_forall_eq_nat]
      intro views mem
      obtain ⟨row, inside, rfl⟩ := List.mem_map.mp mem
      exact none row inside
    rw [total]
    rfl

theorem mem_iff_of_views {rows' : List Ga4PageMetrics}
    (more : page.ga4ScreenPageViews.getD 0 < row.screenPageViews)
    (others : ∀ r ∈ rows, r ≠ row → r.screenPageViews = 0)
    (others' : ∀ r ∈ rows', r ≠ row → r.screenPageViews = 0)
    (same : page.withFigures (sums rows) = page.withFigures (sums rows')) :
    row ∈ rows → row ∈ rows' := by
  intro mem
  by_contra missing
  have none : ∀ r ∈ rows', r.screenPageViews = 0 := by
    intro r inside
    refine others' r inside ?_
    rintro rfl
    exact missing inside
  obtain ⟨total, counted, bound⟩ := views_of_mem page mem
  rw [same] at counted
  obtain zero | before := views_of_zero page none
  · rw [zero] at counted
    cases counted
    omega
  · rw [before] at counted
    rw [counted, Option.getD_some] at more
    omega

end Counting

/-- **Where every join of such reports is right, keys agree.** -/
theorem keysAgree_of_joins (right : ∀ report : Ga4HostReport, report.host = host →
      report.rows.map Ga4PageMetrics.path = paths → ∀ gates, Joins unicode pages gates report) :
    KeysAgree unicode (pages.map Page.url) host paths := by
  -- what a report that counts on one path is joined to
  have joins (path : Text) (views : Nat) :
      ∃ result, attach unicode pages (countOn host paths path views) = .ok result ∧
        result.1 = pages.map (joined unicode (countOn host paths path views)) := by
    obtain ⟨summary, run, _⟩ := right _ rfl (paths_countOn host paths path views)
      (openGates pages.length) (pass_openGates pages.length)
    obtain ⟨error, _, raises⟩ | ⟨result, _, gives, run', _⟩ :=
      run_of_pass unicode (countOn host paths path views) (pass_openGates pages.length)
    · rw [raises] at run
      cases run
    · rw [run'] at run
      exact ⟨result, gives, congrArg Prod.fst (Except.ok.inj run)⟩
  have keyed : (∀ path ∈ paths, ∃ key, pathKey unicode path = .ok key) ∧
      ∀ page ∈ pages, ∃ key, pathKey unicode page.url = .ok key := by
    obtain ⟨result, gives, _⟩ := joins [] 0
    rw [attach] at gives
    cases run : totalsFrom unicode Table.empty (countOn host paths [] 0).rows with
    | error error =>
      rw [run] at gives
      cases gives
    | ok totals =>
      rw [run] at gives
      refine ⟨?_, keyed_of_enrich gives⟩
      intro path mem
      exact keyed_of_totalsFrom run _ (List.mem_map_of_mem mem)
  obtain ⟨pathKeyed, pageKeyed⟩ := keyed
  refine ⟨?_, pathKeyed, ?_⟩
  · intro url mem
    obtain ⟨page, inside, rfl⟩ := List.mem_map.mp mem
    exact pageKeyed page inside
  · intro url mem path counted
    obtain ⟨page, inside, rfl⟩ := List.mem_map.mp mem
    -- more views on the path than the page had before
    let views := page.ga4ScreenPageViews.getD 0 + 1
    let report := countOn host paths path views
    have rowKeyed : ∀ row ∈ report.rows, ∃ key, pathKey unicode row.path = .ok key := by
      intro row mem
      have path := List.mem_map_of_mem (f := Ga4PageMetrics.path) mem
      rw [paths_countOn] at path
      exact pathKeyed row.path path
    obtain ⟨result, gives, joined⟩ := joins path views
    rw [attach_spec rowKeyed pageKeyed] at gives
    cases gives
    have same := List.map_inj_left.mp joined page inside
    rw [joined_eq] at same
    have others : ∀ row ∈ report.rows, row ≠ ⟨path, views, 0⟩ → row.screenPageViews = 0 := by
      intro row mem other
      obtain ⟨p, _, rfl⟩ := List.mem_map.mp mem
      by_cases own : p = path
      · subst own
        exact absurd (by rw [if_pos rfl]) other
      · exact if_neg own
    have present : (⟨path, views, 0⟩ : Ga4PageMetrics) ∈ report.rows :=
      List.mem_map.mpr ⟨path, counted, by rw [if_pos rfl]⟩
    have atKey (row : Ga4PageMetrics)
        (mem : row ∈ rowsAt unicode (keyOf unicode page) report.rows) :=
      others row (List.mem_filter.mp mem).1
    have atOwn (row : Ga4PageMetrics) (mem : row ∈ ownRows unicode report page) :=
      others row (List.mem_filter.mp mem).1
    have more : page.ga4ScreenPageViews.getD 0 < views := Nat.lt_succ_self _
    have both : (⟨path, views, 0⟩ : Ga4PageMetrics) ∈
          rowsAt unicode (keyOf unicode page) report.rows ↔
        ⟨path, views, 0⟩ ∈ ownRows unicode report page :=
      ⟨mem_iff_of_views more atKey atOwn same, mem_iff_of_views more atOwn atKey same.symm⟩
    rw [rowsAt, ownRows, List.mem_filter, List.mem_filter, decide_eq_true_eq] at both
    rw [pathKey_eq_keyOf (pageKeyed page inside), eq_comm]
    exact ⟨fun keys => (both.mp ⟨present, keys⟩).2, fun own => (both.mpr ⟨present, own⟩).2⟩

end Agreement

/-- **Reports of a host on given paths are joined onto their own pages alone, whatever they count,
exactly when keys agree.** -/
theorem joins_iff {α : Type} (unicode : UnicodeData) (pages : List (Page α)) (host : Text)
    (paths : List Text) :
    (∀ report : Ga4HostReport, report.host = host →
      report.rows.map Ga4PageMetrics.path = paths → ∀ gates, Joins unicode pages gates report) ↔
        KeysAgree unicode (pages.map Page.url) host paths :=
  ⟨keysAgree_of_joins, fun agree _ same rows _ => joins_of_keysAgree agree rows same⟩

def crawledPage : Page Unit := { url := "https://a.test/x".toList, rest := () }

def doubleSlash : Ga4HostReport := ⟨"a.test".toList, [⟨"//b.test/x".toList, 1, 1⟩], 1, false⟩

/-- The path `//b.test/x` is read as the host `b.test` and the path `/x`. -/
theorem not_joins_doubleSlash : ¬ Joins .ascii [crawledPage] (openGates 1) doubleSlash := by
  intro right
  obtain ⟨summary, run, _⟩ := right (pass_openGates 1)
  have views := congrArg (fun result : Except Text (List (Page Unit) × Ga4EnrichmentReport) =>
    result.toOption.map fun result => result.1.map Page.ga4ScreenPageViews) run
  have counted :
      ((runGa4Enrichment .ascii [crawledPage] (openGates 1) (.ok doubleSlash)).toOption.map
      fun result => result.1.map Page.ga4ScreenPageViews) = some [some 1] := by decide
  have own : ([crawledPage].map (joined .ascii doubleSlash)).map Page.ga4ScreenPageViews =
      [none] := by decide
  rw [counted] at views
  exact absurd (views.trans (congrArg some own)) (by decide)

end Rankuno.Ga4
