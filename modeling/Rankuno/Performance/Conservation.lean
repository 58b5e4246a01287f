import Rankuno.Performance.Attribution

/-!
# No traffic is lost or counted twice

What the sections hold and what was attributed to no page add up to the export.
A section holds what its own pages and its child sections hold, and its position
is the mean over the rows of its pages, weighted by their impressions.
-/

namespace Rankuno.Performance

open Python UrlKeys GroupedSums

section Conservation

/-- The sections right below one. -/
def PerformanceRollup.children (rollup : PerformanceRollup) (parent : SectionPerformance) :
    List SectionPerformance :=
  rollup.sections.filter fun child => child.depth = parent.depth + 1 ∧ parent.path <+: child.path

/-- The mean position of some rows, weighted by their impressions. -/
def weightedMean (rows : List GscPageMetrics) : Option ℚ :=
  let impressions := (rows.map fun row => row.impressions).sum
  if impressions = 0 then none
  else some ((rows.map fun row => row.position * (row.impressions : ℚ)).sum / impressions)

/-- The trail of a section itself, not of one below it. -/
def exactly (path trail : List Text) : Bool := trail = path

/-- The trails of a section and of those below it. -/
def within (path trail : List Text) : Bool := path <+: trail

variable (resolve : Text → Resolution) (pages : List FullPageIntelligenceProfile)
variable (gscRows : List GscPageMetrics) (ga4Rows : List Ga4PageMetrics)

/-- A section is made of its own pages and of its child sections. -/
structure SectionConserves (rollup : PerformanceRollup) (parent : SectionPerformance) : Prop where
  clicks : parent.clicks =
    ((gscRowsOf resolve pages gscRows (exactly parent.path)).map fun row => row.clicks).sum +
      ((rollup.children parent).map fun child => child.clicks).sum
  impressions : parent.impressions =
    ((gscRowsOf resolve pages gscRows (exactly parent.path)).map fun row => row.impressions).sum +
      ((rollup.children parent).map fun child => child.impressions).sum
  sessions : parent.sessions =
    ((ga4RowsOf resolve pages ga4Rows (exactly parent.path)).map fun row => row.sessions).sum +
      ((rollup.children parent).map fun child => child.sessions).sum
  counted : parent.pages =
    parent.directPages + ((rollup.children parent).map fun child => child.pages).sum
  directPages : parent.directPages =
    (pages.filter fun page => exactly parent.path (sectionPathOf page)).length
  directClicks : parent.directClicks =
    ((gscRowsOf resolve pages gscRows (exactly parent.path)).map fun row => row.clicks).sum
  position : parent.position =
    (weightedMean (gscRowsOf resolve pages gscRows (within parent.path))).map (roundTo 2)

/-- No traffic is lost, and none is counted twice. -/
structure Conserves (rollup : PerformanceRollup) : Prop where
  clicks : rollup.site.clicks + rollup.unattributed.clicks = (gscRows.map fun row => row.clicks).sum
  impressions : rollup.site.impressions + rollup.unattributed.impressions =
    (gscRows.map fun row => row.impressions).sum
  sessions : rollup.site.sessions + rollup.unattributed.sessions =
    (ga4Rows.map fun row => row.sessions).sum
  gscOutcomes : rollup.gscResolution.found.length + rollup.gscResolution.failures.length =
    gscRows.length
  ga4Outcomes : rollup.ga4Resolution.found.length + rollup.ga4Resolution.failures.length =
    ga4Rows.length
  sections : ∀ parent ∈ rollup.site :: rollup.sections,
    SectionConserves resolve pages gscRows ga4Rows rollup parent
  topClicks : rollup.site.clicks =
    ((rollup.sections.filter fun top => top.depth = 1).map fun top => top.clicks).sum
  topImpressions : rollup.site.impressions =
    ((rollup.sections.filter fun top => top.depth = 1).map fun top => top.impressions).sum
  topSessions : rollup.site.sessions =
    ((rollup.sections.filter fun top => top.depth = 1).map fun top => top.sessions).sum
  topPages : rollup.site.pages =
    ((rollup.sections.filter fun top => top.depth = 1).map fun top => top.pages).sum

end Conservation

section Lifted

variable (byPage : Dict Text PagePerformance) (pages : List FullPageIntelligenceProfile)

/-- What a page adds to every section it is in. -/
def lifted (page : FullPageIntelligenceProfile) : List Text × Acc :=
  (sectionPathOf page, Acc.lift (Dict.get byPage page.url) 0)

/-- What it adds to its own. -/
def owned (page : FullPageIntelligenceProfile) : List Text × Acc :=
  (sectionPathOf page, Acc.own (Dict.get byPage page.url) 0)

/-- All that it adds, section by section. -/
def placements (page : FullPageIntelligenceProfile) : List (List Text × Acc) :=
  ((sectionPathOf page).inits.map fun start => (start, (lifted byPage page).2)) ++
    [owned byPage page]

variable {byPage} {pages} {page : FullPageIntelligenceProfile} {path : List Text}

theorem liftPage_tally (entries : List (List Text × Acc)) :
    liftPage byPage (tally entries) page = tally (entries ++ placements byPage page) := by
  have lift : (fun (sections : Dict (List Text) Acc) (start : List Text) =>
      Dict.alter sections start {} (Acc.lift (Dict.get byPage page.url))) =
        fun sections start => Dict.alter sections start 0 (· + (lifted byPage page).2) := by
    funext sections start
    exact congrArg (Dict.alter sections start 0) (funext fun acc => Acc.lift_eq_add _ acc)
  have own : Acc.own (Dict.get byPage page.url) = (· + (owned byPage page).2) :=
    funext fun acc => Acc.own_eq_add _ acc
  rw [placements, ← List.append_assoc, tally_append_singleton, tally_append, List.foldl_map,
    liftPage]
  simp only [lift, own]
  rfl

theorem foldl_liftPage : pages.foldl (liftPage byPage) Table.empty =
    tally (pages.flatMap (placements byPage)) := by
  induction pages using List.reverseRecOn with
  | nil => rfl
  | append_singleton pages page ih =>
    rw [List.foldl_append, ih, List.flatMap_append, List.flatMap_singleton]
    exact liftPage_tally _

theorem sum_placements : (((placements byPage page).filter fun entry => entry.1 = path).map
    Prod.snd).sum = (if path <+: sectionPathOf page then (lifted byPage page).2 else 0) +
      if sectionPathOf page = path then (owned byPage page).2 else 0 := by
  rw [sum_map_filter, placements, List.map_append, List.sum_append, List.map_map,
    List.map_singleton, List.sum_singleton]
  congr 1
  exact sum_map_inits (sectionPathOf page) path (lifted byPage page).2

theorem sum_flatMap_placements : (((pages.flatMap (placements byPage)).filter fun entry =>
    entry.1 = path).map Prod.snd).sum =
      under (pages.map (lifted byPage)) path + direct (pages.map (owned byPage)) path := by
  rw [under, direct, sum_map_filter _ Prod.snd (pages.map (lifted byPage)),
    sum_map_filter _ Prod.snd (pages.map (owned byPage)), List.map_map, List.map_map,
    ← List.sum_map_add]
  induction pages with
  | nil => rfl
  | cons page pages ih =>
    rw [List.flatMap_cons, List.filter_append, List.map_append, List.sum_append, sum_placements,
      ih, List.map_cons, List.sum_cons]
    rfl

theorem isSome_get_rollUp : (Dict.get (rollUp pages byPage) path).isSome ↔
    path = [] ∨ ∃ page ∈ pages, path <+: sectionPathOf page := by
  rw [rollUp, foldl_liftPage, Dict.get_alter]
  by_cases site : path = []
  · simp [site]
  · rw [if_neg site, isSome_get_tally, or_iff_right site]
    simp only [List.mem_flatMap, placements, List.mem_append, List.mem_map, List.mem_inits,
      List.mem_singleton, owned]
    constructor
    · rintro ⟨entry, ⟨page, mem, ⟨start, below, rfl⟩ | rfl⟩, rfl⟩
      · exact ⟨page, mem, below⟩
      · exact ⟨page, mem, List.prefix_rfl⟩
    · rintro ⟨page, mem, below⟩
      exact ⟨_, ⟨page, mem, Or.inl ⟨path, below, rfl⟩⟩, rfl⟩

/-- **A section has what the pages in it add.** -/
theorem get_rollUp {acc : Acc} (h : Dict.get (rollUp pages byPage) path = some acc) :
    acc = under (pages.map (lifted byPage)) path + direct (pages.map (owned byPage)) path := by
  have total := getD_get_tally (pages.flatMap (placements byPage)) path
  rw [sum_flatMap_placements] at total
  rw [rollUp, foldl_liftPage, Dict.get_alter] at h
  split at h
  · next site =>
    cases h
    rw [site] at total ⊢
    exact total
  · rw [h] at total
    exact total

end Lifted

section Rendered

variable {pages : List FullPageIntelligenceProfile} {duplicates : Nat} {metrics : PageMetricSet}
variable {rollup : PerformanceRollup} {parent : SectionPerformance} {path : List Text}

theorem exists_rollupOf (pages : List FullPageIntelligenceProfile) (duplicates : Nat)
    (metrics : PageMetricSet) : ∃ rollup, rollupOf pages duplicates metrics = some rollup := by
  have root : (Dict.get (rollUp pages metrics.pages) []).isSome :=
    isSome_get_rollUp.mpr (Or.inl rfl)
  obtain ⟨site, h⟩ := Option.isSome_iff_exists.mp root
  rw [rollupOf, h]
  exact ⟨_, rfl⟩

theorem mem_sections (h : rollupOf pages duplicates metrics = some rollup) :
    parent ∈ rollup.sections ↔ ∃ path acc, path ≠ [] ∧
      Dict.get (rollUp pages metrics.pages) path = some acc ∧ parent = render path acc := by
  obtain ⟨site, -, rfl⟩ := Option.map_eq_some_iff.mp h
  rw [List.mem_map]
  constructor
  · rintro ⟨⟨path, acc⟩, mem, rfl⟩
    obtain ⟨mem, below⟩ := Table.mem_delete.mp ((List.mem_insertionSort _).mp mem)
    exact ⟨path, acc, of_decide_eq_false below, Dict.get_eq_some.mpr mem, rfl⟩
  · rintro ⟨path, acc, below, found, rfl⟩
    refine ⟨(path, acc), (List.mem_insertionSort _).mpr (Table.mem_delete.mpr ?_), rfl⟩
    exact ⟨Dict.get_eq_some.mp found, decide_eq_false below⟩

theorem rendered (h : rollupOf pages duplicates metrics = some rollup)
    (mem : parent ∈ rollup.site :: rollup.sections) : parent = render parent.path
      (under (pages.map (lifted metrics.pages)) parent.path +
        direct (pages.map (owned metrics.pages)) parent.path) := by
  have held : ∃ path acc, Dict.get (rollUp pages metrics.pages) path = some acc ∧
      parent = render path acc := by
    obtain rfl | mem := List.mem_cons.mp mem
    · obtain ⟨site, found, rfl⟩ := Option.map_eq_some_iff.mp h
      exact ⟨[], site, found, rfl⟩
    · obtain ⟨path, acc, -, found, rendered⟩ := (mem_sections h).mp mem
      exact ⟨path, acc, found, rendered⟩
  obtain ⟨path, acc, found, rfl⟩ := held
  exact congrArg (render path) (get_rollUp found)

theorem nodup_sections (h : rollupOf pages duplicates metrics = some rollup) :
    (rollup.sections.map fun row => row.path).Nodup := by
  obtain ⟨site, -, rfl⟩ := Option.map_eq_some_iff.mp h
  rw [List.map_map]
  exact (((List.perm_insertionSort _ _).map _).nodup_iff).mpr
    ((rollUp pages metrics.pages).delete _).keys_nodup

theorem children_spec (h : rollupOf pages duplicates metrics = some rollup)
    (mem : parent ∈ rollup.site :: rollup.sections) :
    Children (pages.map (lifted metrics.pages)) parent.path
      ((rollup.children parent).map fun child => child.path) where
  nodup := (nodup_sections h).sublist (List.filter_sublist.map _)
  longer := by
    intro path listed
    obtain ⟨child, chosen, rfl⟩ := List.mem_map.mp listed
    obtain ⟨known, right⟩ := List.mem_filter.mp chosen
    obtain ⟨deeper, tail, whole⟩ := of_decide_eq_true right
    have depth : child.depth = child.path.length := by
      rw [rendered h (List.mem_cons_of_mem _ known)]
      rfl
    have depth' : parent.depth = parent.path.length := by
      rw [rendered h mem]
      rfl
    rw [← whole, List.length_append] at depth
    have single : tail.length = 1 := by omega
    obtain ⟨a, rfl⟩ := List.length_eq_one_iff.mp single
    exact ⟨a, whole.symm⟩
  complete := by
    intro entry listed a below
    obtain ⟨page, known, rfl⟩ := List.mem_map.mp listed
    have shown : (Dict.get (rollUp pages metrics.pages) (parent.path ++ [a])).isSome :=
      isSome_get_rollUp.mpr (Or.inr ⟨page, known, below⟩)
    obtain ⟨acc, found⟩ := Option.isSome_iff_exists.mp shown
    have depth : parent.depth = parent.path.length := by
      rw [rendered h mem]
      rfl
    refine List.mem_map.mpr ⟨render (parent.path ++ [a]) acc, List.mem_filter.mpr ⟨?_, ?_⟩, rfl⟩
    · exact (mem_sections h).mpr ⟨_, acc, by simp, found, rfl⟩
    · refine decide_eq_true ⟨?_, List.prefix_append _ _⟩
      rw [depth]
      exact List.length_append

/-- **A section has what its own pages and its child sections have.** -/
theorem balance {N : Type*} [AddCommMonoid N] (h : rollupOf pages duplicates metrics = some rollup)
    (mem : parent ∈ rollup.site :: rollup.sections) (f : Acc →+ N) (g : SectionPerformance → N)
    (renders : ∀ path acc, g (render path acc) = f acc)
    (indirect : ∀ held, f (Acc.own held 0) = 0) :
    g parent = f (direct (pages.map (lifted metrics.pages)) parent.path) +
      ((rollup.children parent).map g).sum := by
  have total : ∀ row ∈ rollup.site :: rollup.sections,
      g row = f (under (pages.map (lifted metrics.pages)) row.path) := by
    intro row listed
    have nothing : f (direct (pages.map (owned metrics.pages)) row.path) = 0 := by
      refine map_direct_eq_zero f fun entry given => ?_
      obtain ⟨page, -, rfl⟩ := List.mem_map.mp given
      exact indirect _
    rw [rendered h listed, renders, map_add, nothing, add_zero]
    rfl
  rw [total parent mem, under_eq_direct_add (children_spec h mem), map_add, map_list_sum,
    List.map_map, List.map_map]
  congr 2
  refine List.map_congr_left fun child listed => ?_
  exact (total child (List.mem_cons_of_mem _ (List.mem_filter.mp listed).1)).symm

variable {byPage : Dict Text PagePerformance}

theorem metrics_lift (held : Option PagePerformance) : (Acc.lift held 0).metrics = measured held :=
  zero_add (measured held)

theorem direct_metrics : (direct (pages.map (lifted byPage)) path).metrics =
    ((pages.filter fun page => exactly path (sectionPathOf page)).map fun page =>
      measured (Dict.get byPage page.url)).sum := by
  refine (map_direct Acc.metricsHom).trans ?_
  rw [List.filter_map, List.map_map]
  congr 1
  exact List.map_congr_left fun page _ => metrics_lift _

theorem under_metrics : (under (pages.map (lifted byPage)) path).metrics =
    ((pages.filter fun page => within path (sectionPathOf page)).map fun page =>
      measured (Dict.get byPage page.url)).sum := by
  refine (map_under Acc.metricsHom).trans ?_
  rw [List.filter_map, List.map_map]
  congr 1
  exact List.map_congr_left fun page _ => metrics_lift _

theorem direct_pages : (direct (pages.map (lifted byPage)) path).pages =
    (pages.filter fun page => exactly path (sectionPathOf page)).length := by
  refine (map_direct Acc.pagesHom).trans ?_
  rw [List.filter_map, List.map_map]
  refine (congrArg List.sum List.map_const').trans ?_
  rw [List.sum_replicate_nat, Nat.mul_one]
  rfl

theorem direct_directPages : (direct (pages.map (owned byPage)) path).directPages =
    (pages.filter fun page => exactly path (sectionPathOf page)).length := by
  refine (map_direct Acc.directPagesHom).trans ?_
  rw [List.filter_map, List.map_map]
  refine (congrArg List.sum List.map_const').trans ?_
  rw [List.sum_replicate_nat, Nat.mul_one]
  rfl

theorem direct_directClicks : (direct (pages.map (owned byPage)) path).directClicks =
    ((pages.filter fun page => exactly path (sectionPathOf page)).map fun page =>
      measured (Dict.get byPage page.url)).sum.clicks := by
  refine (map_direct Acc.directClicksHom).trans ?_
  refine Eq.trans ?_ (map_list_sum Metrics.clicksHom _).symm
  rw [List.filter_map, List.map_map, List.map_map]
  congr 1
  exact List.map_congr_left fun page _ => zero_add _

end Rendered

section Conserved

variable {resolve : Text → Resolution} {pages : List FullPageIntelligenceProfile}
variable {gscRows : List GscPageMetrics} {ga4Rows : List Ga4PageMetrics} {duplicates : Nat}
variable {rollup : PerformanceRollup} {parent : SectionPerformance}

theorem sectionPathOf_ne_nil (page : FullPageIntelligenceProfile) : sectionPathOf page ≠ [] := by
  rw [sectionPathOf]
  split
  · exact List.cons_ne_nil _ _
  · next placed => exact placed

theorem filter_exactly_nil : (pages.filter fun page => exactly [] (sectionPathOf page)) = [] :=
  List.filter_eq_nil_iff.mpr fun page _ => by
    simpa [exactly] using sectionPathOf_ne_nil page

theorem sum_figures_all (nodup : (pages.map fun page => page.url).Nodup)
    (lands : ∀ url owner, (resolve url).page? = some owner → ∃ page ∈ pages, page.url = owner) :
    ((pages.filter fun page => within [] (sectionPathOf page)).map
      (figures resolve gscRows ga4Rows)).sum = attributed resolve gscRows ga4Rows := by
  have everywhere : (pages.filter fun page => within [] (sectionPathOf page)) = pages :=
    List.filter_eq_self.mpr fun page _ => decide_eq_true (List.nil_prefix)
  rw [sum_figures nodup, everywhere, attributed]
  congr 2
  refine List.filter_eq_self.mpr fun entry mem => decide_eq_true ?_
  have landed : ∃ url, (resolve url).page? = some entry.1 := by
    rw [attributions, List.mem_append] at mem
    obtain mem | mem := mem
    · obtain ⟨row, -, claimed⟩ := List.mem_filterMap.mp mem
      obtain ⟨url, answer, rfl⟩ := Option.map_eq_some_iff.mp claimed
      exact ⟨_, answer⟩
    · obtain ⟨row, -, claimed⟩ := List.mem_filterMap.mp mem
      obtain ⟨url, answer, rfl⟩ := Option.map_eq_some_iff.mp claimed
      exact ⟨_, answer⟩
  obtain ⟨url, answer⟩ := landed
  obtain ⟨page, known, same⟩ := lands url entry.1 answer
  exact ⟨page.url, List.mem_map_of_mem known, same.symm⟩

theorem balance_rows (h : rollupOf pages duplicates (mergePageMetrics resolve gscRows ga4Rows) =
      some rollup) (nodup : (pages.map fun page => page.url).Nodup)
    (mem : parent ∈ rollup.site :: rollup.sections) (f : Metrics →+ ℕ)
    (g : SectionPerformance → ℕ) (renders : ∀ path acc, g (render path acc) = f acc.metrics) :
    g parent =
      ((gscRowsOf resolve pages gscRows (exactly parent.path)).map fun row => f (.ofGsc row)).sum +
        ((ga4RowsOf resolve pages ga4Rows (exactly parent.path)).map fun row =>
            f (.ofGa4 row)).sum +
          ((rollup.children parent).map g).sum := by
  rw [balance h mem (f.comp Acc.metricsHom) g renders fun _ => map_zero f]
  congr 1
  rw [← sum_figures_rows nodup f (exactly parent.path)]
  exact congrArg f direct_metrics

theorem directPages_eq (h : rollupOf pages duplicates (mergePageMetrics resolve gscRows ga4Rows) =
    some rollup) (mem : parent ∈ rollup.site :: rollup.sections) : parent.directPages =
      (pages.filter fun page => exactly parent.path (sectionPathOf page)).length := by
  rw [rendered h mem]
  refine (congrArg₂ (· + ·) (map_under_eq_zero Acc.directPagesHom fun entry given => ?_)
    direct_directPages).trans (zero_add _)
  obtain ⟨page, -, rfl⟩ := List.mem_map.mp given
  rfl

variable (resolve pages gscRows ga4Rows) in
/-- The figures of the pages at or below a path, together. -/
def figuresWithin (path : List Text) : Metrics :=
  ((pages.filter fun page => within path (sectionPathOf page)).map
    (figures resolve gscRows ga4Rows)).sum

theorem metrics_section (path : List Text) :
    (under (pages.map (lifted (mergePageMetrics resolve gscRows ga4Rows).pages)) path +
      direct (pages.map (owned (mergePageMetrics resolve gscRows ga4Rows).pages)) path).metrics =
        figuresWithin resolve pages gscRows ga4Rows path := by
  have own : (direct (pages.map (owned (mergePageMetrics resolve gscRows ga4Rows).pages))
      path).metrics = 0 := by
    refine map_direct_eq_zero Acc.metricsHom fun entry given => ?_
    obtain ⟨page, -, rfl⟩ := List.mem_map.mp given
    rfl
  exact (congrArg₂ (· + ·) under_metrics own).trans (add_zero _)

theorem position_eq (h : rollupOf pages duplicates (mergePageMetrics resolve gscRows ga4Rows) =
    some rollup) (mem : parent ∈ rollup.site :: rollup.sections) : parent.position =
      position (figuresWithin resolve pages gscRows ga4Rows parent.path).positionWeight
        (figuresWithin resolve pages gscRows ga4Rows parent.path).impressions := by
  refine (congrArg SectionPerformance.position (rendered h mem)).trans ?_
  rw [← metrics_section parent.path]
  rfl

theorem sectionConserves (h : rollupOf pages duplicates (mergePageMetrics resolve gscRows ga4Rows) =
      some rollup) (nodup : (pages.map fun page => page.url).Nodup)
    (mem : parent ∈ rollup.site :: rollup.sections) :
    SectionConserves resolve pages gscRows ga4Rows rollup parent where
  clicks := by
    refine (balance_rows h nodup mem Metrics.clicksHom SectionPerformance.clicks
      fun _ _ => rfl).trans ?_
    exact congrArg (· + _) ((congrArg (_ + ·) List.sum_map_zero).trans (add_zero _))
  impressions := by
    refine (balance_rows h nodup mem Metrics.impressionsHom SectionPerformance.impressions
      fun _ _ => rfl).trans ?_
    exact congrArg (· + _) ((congrArg (_ + ·) List.sum_map_zero).trans (add_zero _))
  sessions := by
    refine (balance_rows h nodup mem Metrics.sessionsHom SectionPerformance.sessions
      fun _ _ => rfl).trans ?_
    exact congrArg (· + _) ((congrArg (· + _) List.sum_map_zero).trans (zero_add _))
  counted := by
    rw [balance h mem Acc.pagesHom SectionPerformance.pages (fun _ _ => rfl) fun _ => rfl,
      directPages_eq h mem]
    exact congrArg (· + _) direct_pages
  directPages := directPages_eq h mem
  directClicks := by
    rw [rendered h mem]
    refine (congrArg₂ (· + ·) (map_under_eq_zero Acc.directClicksHom fun entry given => ?_)
      direct_directClicks).trans ?_
    · obtain ⟨page, -, rfl⟩ := List.mem_map.mp given
      rfl
    · refine (zero_add _).trans ((sum_figures_rows nodup Metrics.clicksHom _).trans ?_)
      exact (congrArg (_ + ·) List.sum_map_zero).trans (add_zero _)
  position := by
    have weight : (figuresWithin resolve pages gscRows ga4Rows parent.path).positionWeight =
        ((gscRowsOf resolve pages gscRows (within parent.path)).map fun row =>
          row.position * (row.impressions : ℚ)).sum :=
      (sum_figures_rows nodup Metrics.positionWeightHom _).trans
        ((congrArg (_ + ·) List.sum_map_zero).trans (add_zero _))
    have impressions : (figuresWithin resolve pages gscRows ga4Rows parent.path).impressions =
        ((gscRowsOf resolve pages gscRows (within parent.path)).map fun row =>
          row.impressions).sum :=
      (sum_figures_rows nodup Metrics.impressionsHom _).trans
        ((congrArg (_ + ·) List.sum_map_zero).trans (add_zero _))
    rw [position_eq h mem, weight, impressions]
    rfl

theorem site_metrics (h : rollupOf pages duplicates (mergePageMetrics resolve gscRows ga4Rows) =
      some rollup) (nodup : (pages.map fun page => page.url).Nodup)
    (lands : ∀ url owner, (resolve url).page? = some owner → ∃ page ∈ pages, page.url = owner)
    (f : Metrics →+ ℕ) (g : SectionPerformance → ℕ)
    (renders : ∀ path acc, g (render path acc) = f acc.metrics) :
    g rollup.site = f (attributed resolve gscRows ga4Rows) := by
  obtain ⟨site, -, hrollup⟩ := Option.map_eq_some_iff.mp h
  have root : rollup.site.path = [] := by
    rw [← hrollup]
    rfl
  rw [rendered h List.mem_cons_self, renders, metrics_section, root]
  exact congrArg f (sum_figures_all nodup lands)

theorem children_site (h : rollupOf pages duplicates (mergePageMetrics resolve gscRows ga4Rows) =
    some rollup) : rollup.children rollup.site =
      rollup.sections.filter fun top => top.depth = 1 := by
  obtain ⟨site, -, rfl⟩ := Option.map_eq_some_iff.mp h
  refine List.filter_congr fun top _ => decide_eq_decide.mpr ?_
  exact and_iff_left List.nil_prefix

theorem site_eq_sum_top (h : rollupOf pages duplicates (mergePageMetrics resolve gscRows ga4Rows) =
      some rollup) (f : Acc →+ ℕ) (g : SectionPerformance → ℕ)
    (renders : ∀ path acc, g (render path acc) = f acc)
    (indirect : ∀ held, f (Acc.own held 0) = 0) :
    g rollup.site = ((rollup.sections.filter fun top => top.depth = 1).map g).sum := by
  have root : rollup.site.path = [] := by
    obtain ⟨site, -, rfl⟩ := Option.map_eq_some_iff.mp h
    rfl
  have nothing : f (direct (pages.map (lifted (mergePageMetrics resolve gscRows ga4Rows).pages))
      rollup.site.path) = 0 := by
    have empty : (pages.filter fun page => exactly [] (sectionPathOf page)) = [] :=
      filter_exactly_nil
    rw [root, map_direct, List.filter_map, List.map_map]
    exact congrArg (fun l => (List.map _ l).sum) empty
  rw [balance h List.mem_cons_self f g renders indirect, nothing, zero_add, children_site h]

theorem conserves_rollupOf (h : rollupOf pages duplicates
      (mergePageMetrics resolve gscRows ga4Rows) = some rollup)
    (nodup : (pages.map fun page => page.url).Nodup)
    (lands : ∀ url owner, (resolve url).page? = some owner → ∃ page ∈ pages, page.url = owner) :
    Conserves resolve pages gscRows ga4Rows rollup := by
  have accounts : (Merge.ofRows resolve gscRows ga4Rows).Accounts resolve gscRows ga4Rows :=
    Merge.accounts_ofRows gscRows ga4Rows
  have unattributed : rollup.unattributed = (Merge.ofRows resolve gscRows ga4Rows).unresolved := by
    obtain ⟨site, -, rfl⟩ := Option.map_eq_some_iff.mp h
    rfl
  have gsc : rollup.gscResolution = (Merge.ofRows resolve gscRows ga4Rows).gsc := by
    obtain ⟨site, -, rfl⟩ := Option.map_eq_some_iff.mp h
    rfl
  have ga4 : rollup.ga4Resolution = (Merge.ofRows resolve gscRows ga4Rows).ga4 := by
    obtain ⟨site, -, rfl⟩ := Option.map_eq_some_iff.mp h
    rfl
  constructor
  case clicks =>
    rw [unattributed, ← accounts.clicks]
    exact congrArg (· + _) (site_metrics h nodup lands Metrics.clicksHom _ fun _ _ => rfl)
  case impressions =>
    rw [unattributed, ← accounts.impressions]
    exact congrArg (· + _) (site_metrics h nodup lands Metrics.impressionsHom _ fun _ _ => rfl)
  case sessions =>
    rw [unattributed, ← accounts.sessions]
    exact congrArg (· + _) (site_metrics h nodup lands Metrics.sessionsHom _ fun _ _ => rfl)
  case gscOutcomes => rw [gsc, accounts.gsc]
  case ga4Outcomes => rw [ga4, accounts.ga4]
  case sections => exact fun parent mem => sectionConserves h nodup mem
  case topClicks =>
    exact site_eq_sum_top h (Metrics.clicksHom.comp Acc.metricsHom) _ (fun _ _ => rfl) fun _ => rfl
  case topImpressions =>
    exact site_eq_sum_top h (Metrics.impressionsHom.comp Acc.metricsHom) _ (fun _ _ => rfl)
      fun _ => rfl
  case topSessions =>
    exact site_eq_sum_top h (Metrics.sessionsHom.comp Acc.metricsHom) _ (fun _ _ => rfl)
      fun _ => rfl
  case topPages =>
    exact site_eq_sum_top h Acc.pagesHom _ (fun _ _ => rfl) fun _ => rfl

end Conserved

section Aggregate

variable {unicode : HostData} {profiles : List FullPageIntelligenceProfile}

theorem nodup_pagesOf : ((pagesOf unicode profiles).map fun page => page.url).Nodup := by
  have keys := (dedupeProfiles unicode.toUnicodeData profiles).1.keys_nodup
  refine List.Nodup.of_map (normalizeUrl unicode.toUnicodeData) ?_
  rw [List.map_map]
  exact keys

theorem owned_mem_pagesOf (step : Step) {key owner : Text} {tier : MatchTier}
    (h : TieredIndex.verdictOf key (step.claims unicode.toUnicodeData (pagesOf unicode profiles)) =
      .owned owner tier) :
    ∃ page ∈ pagesOf unicode profiles, page.url = owner := by
  obtain ⟨claims, htier, mem⟩ := (TieredIndex.verdictOf_eq_owned.mp h).mem
  obtain ⟨page, known, same, -⟩ := mem_stepClaims htier mem
  exact ⟨page, known, same⟩

theorem page?_lookUp_mem {level : Level} {url key owner : Text} {via : MatchTier → MatchTier}
    {next : Resolution}
    (rest : next.page? = some owner → ∃ page ∈ pagesOf unicode profiles, page.url = owner)
    (h : ((UrlResolutionIndex.build unicode profiles).lookUp unicode.toUnicodeData url level key
      via next).page? = some owner) :
    ∃ page ∈ pagesOf unicode profiles, page.url = owner := by
  rw [UrlResolutionIndex.lookUp] at h
  split at h
  · cases h
  · next owner' tier found =>
    cases h
    exact owned_mem_pagesOf ⟨level, false⟩
      ((TieredIndex.Index.verdict_merge _).symm.trans found)
  · split at h
    · cases h
    · next owner' tier found =>
      cases h
      exact owned_mem_pagesOf ⟨level, true⟩
        ((TieredIndex.Index.verdict_merge _).symm.trans found)
    · exact rest h

theorem page?_resolve_mem (url owner : Text) (h : (UrlResolutionIndex.resolve unicode
    (UrlResolutionIndex.build unicode profiles) url).page? = some owner) :
    ∃ page ∈ pagesOf unicode profiles, page.url = owner := by
  have byPath : ∀ parts, ((UrlResolutionIndex.build unicode profiles).byPath
      unicode.toUnicodeData url parts).page? = some owner →
        ∃ page ∈ pagesOf unicode profiles, page.url = owner := by
    intro parts
    refine page?_lookUp_mem (page?_lookUp_mem fun failed => ?_)
    cases failed
  rw [UrlResolutionIndex.resolve] at h
  split at h
  · cases h
  · next parts split =>
    split at h
    · cases h
    · split at h
      · exact byPath parts h
      · refine page?_lookUp_mem (fun next => ?_) h
        split at next
        · exact byPath parts next
        · split at next
          · cases next
          · cases next

/-- **No traffic is lost or counted twice.** For every crawl and all rows, the
rollup exists, and: the site row and the unattributed totals add up to the rows;
matches and failures add up to them; every section has what the rows of its own
pages and its child sections have; the top sections add up to the site row; and
the position of a section is the mean over the rows of its pages, weighted by
their impressions, rounded. -/
theorem conserves_aggregate (unicode : HostData) (profiles : List FullPageIntelligenceProfile)
    (gscRows : List GscPageMetrics) (ga4Rows : List Ga4PageMetrics) :
    ∃ rollup, aggregate unicode (UrlResolutionIndex.build unicode profiles) gscRows ga4Rows =
        some rollup ∧
      Conserves (UrlResolutionIndex.resolve unicode (UrlResolutionIndex.build unicode profiles))
        (pagesOf unicode profiles) gscRows ga4Rows rollup := by
  obtain ⟨rollup, h⟩ := exists_rollupOf (pagesOf unicode profiles)
    (UrlResolutionIndex.build unicode profiles).duplicateProfiles
    (mergePageMetrics (UrlResolutionIndex.resolve unicode
      (UrlResolutionIndex.build unicode profiles)) gscRows ga4Rows)
  exact ⟨rollup, h, conserves_rollupOf h nodup_pagesOf page?_resolve_mem⟩

end Aggregate

end Rankuno.Performance
