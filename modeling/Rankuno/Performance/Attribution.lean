import Rankuno.Foundation.GroupedSums
import Rankuno.Performance.Aggregator

/-!
# What the export adds to which page

Totals of counters are sums in a commutative monoid, so the merge of the rows is
a tally of what each of them adds. A page then has exactly what the rows that
were resolved to it add, and the rows of any pages are found in the export.
-/

namespace Rankuno.Performance

open Python UrlKeys GroupedSums

section Reaches

variable (resolve : Text → Resolution) (pages : List FullPageIntelligenceProfile)

/-- The address is that of a page whose trail is such a one. -/
def Reaches (trails : List Text → Bool) (url : Text) : Prop :=
  ∃ page ∈ pages, trails (sectionPathOf page) ∧ (resolve url).page? = some page.url

instance (trails : List Text → Bool) (url : Text) : Decidable (Reaches resolve pages trails url) :=
  inferInstanceAs (Decidable (∃ page ∈ pages, trails (sectionPathOf page) ∧
    (resolve url).page? = some page.url))

/-- The rows of the pages whose trail is such a one. -/
def gscRowsOf (rows : List GscPageMetrics) (trails : List Text → Bool) : List GscPageMetrics :=
  rows.filter fun row => Reaches resolve pages trails row.url

def ga4RowsOf (rows : List Ga4PageMetrics) (trails : List Text → Bool) : List Ga4PageMetrics :=
  rows.filter fun row => Reaches resolve pages trails row.path

end Reaches

section Monoids

namespace Metrics

instance : Zero Metrics := ⟨{}⟩

instance : Add Metrics := ⟨add⟩

instance : AddCommMonoid Metrics where
  add_assoc a b c := by
    apply Metrics.ext <;> apply add_assoc
  zero_add a := by
    apply Metrics.ext <;> apply zero_add
  add_zero a := by
    apply Metrics.ext <;> apply add_zero
  add_comm a b := by
    apply Metrics.ext <;> apply add_comm
  nsmul := nsmulRec

/-- What a Search Console row adds. -/
def ofGsc (row : GscPageMetrics) : Metrics where
  clicks := row.clicks
  impressions := row.impressions
  positionWeight := row.position * row.impressions

/-- What a GA4 row adds. -/
def ofGa4 (row : Ga4PageMetrics) : Metrics where
  sessions := row.sessions
  engagedSessions := row.engagedSessions
  engagementTimeSec := row.engagementTimeSec
  conversions := row.conversions
  revenue := row.revenue

def clicksHom : Metrics →+ ℕ where
  toFun := clicks
  map_zero' := rfl
  map_add' _ _ := rfl

def impressionsHom : Metrics →+ ℕ where
  toFun := impressions
  map_zero' := rfl
  map_add' _ _ := rfl

def positionWeightHom : Metrics →+ ℚ where
  toFun := positionWeight
  map_zero' := rfl
  map_add' _ _ := rfl

def sessionsHom : Metrics →+ ℕ where
  toFun := sessions
  map_zero' := rfl
  map_add' _ _ := rfl

end Metrics

namespace Acc

instance : Zero Acc := ⟨{}⟩

instance : Add Acc where
  add a b :=
    { pages := a.pages + b.pages
      pagesWithData := a.pagesWithData + b.pagesWithData
      directPages := a.directPages + b.directPages
      directClicks := a.directClicks + b.directClicks
      metrics := a.metrics + b.metrics }

instance : AddCommMonoid Acc where
  add_assoc a b c := by
    apply Acc.ext <;> apply add_assoc
  zero_add a := by
    apply Acc.ext <;> apply zero_add
  add_zero a := by
    apply Acc.ext <;> apply add_zero
  add_comm a b := by
    apply Acc.ext <;> apply add_comm
  nsmul := nsmulRec

def metricsHom : Acc →+ Metrics where
  toFun := metrics
  map_zero' := rfl
  map_add' _ _ := rfl

def pagesHom : Acc →+ ℕ where
  toFun := pages
  map_zero' := rfl
  map_add' _ _ := rfl

def directPagesHom : Acc →+ ℕ where
  toFun := directPages
  map_zero' := rfl
  map_add' _ _ := rfl

def directClicksHom : Acc →+ ℕ where
  toFun := directClicks
  map_zero' := rfl
  map_add' _ _ := rfl

theorem lift_eq_add (held : Option PagePerformance) (acc : Acc) :
    acc.lift held = acc + lift held 0 := by
  apply Acc.ext
  · exact congrArg (acc.pages + ·) (zero_add 1).symm
  · cases held with
    | none => rfl
    | some page => exact congrArg (acc.pagesWithData + ·) (zero_add 1).symm
  · rfl
  · rfl
  · exact congrArg (acc.metrics + ·) (zero_add (measured held)).symm

theorem own_eq_add (held : Option PagePerformance) (acc : Acc) :
    acc.own held = acc + own held 0 := by
  apply Acc.ext
  · rfl
  · rfl
  · exact congrArg (acc.directPages + ·) (zero_add 1).symm
  · exact congrArg (acc.directClicks + ·) (zero_add (measured held).clicks).symm
  · exact (add_zero acc.metrics).symm

end Acc

namespace PageAcc

instance : Zero PageAcc := ⟨{}⟩

instance : Add PageAcc where
  add a b :=
    { metrics := a.metrics + b.metrics
      seenGsc := a.seenGsc || b.seenGsc
      seenGa4 := a.seenGa4 || b.seenGa4 }

instance : AddCommMonoid PageAcc where
  add_assoc a b c := by
    apply PageAcc.ext
    · apply add_assoc
    · apply Bool.or_assoc
    · apply Bool.or_assoc
  zero_add a := by
    apply PageAcc.ext
    · apply zero_add
    · apply Bool.false_or
    · apply Bool.false_or
  add_zero a := by
    apply PageAcc.ext
    · apply add_zero
    · apply Bool.or_false
    · apply Bool.or_false
  add_comm a b := by
    apply PageAcc.ext
    · apply add_comm
    · apply Bool.or_comm
    · apply Bool.or_comm
  nsmul := nsmulRec

def metricsHom : PageAcc →+ Metrics where
  toFun := metrics
  map_zero' := rfl
  map_add' _ _ := rfl

theorem addGsc_eq_add (row : GscPageMetrics) (held : PageAcc) :
    held.addGsc row = held + ⟨.ofGsc row, true, false⟩ := by
  apply PageAcc.ext
  · apply Metrics.ext
    · rfl
    · rfl
    · rfl
    · rfl
    · rfl
    · exact (add_zero held.metrics.engagementTimeSec).symm
    · exact (add_zero held.metrics.conversions).symm
    · exact (add_zero held.metrics.revenue).symm
  · exact (Bool.or_true held.seenGsc).symm
  · exact (Bool.or_false held.seenGa4).symm

theorem addGa4_eq_add (row : Ga4PageMetrics) (held : PageAcc) :
    held.addGa4 row = held + ⟨.ofGa4 row, false, true⟩ := by
  apply PageAcc.ext
  · apply Metrics.ext
    · rfl
    · rfl
    · exact (add_zero held.metrics.positionWeight).symm
    · rfl
    · rfl
    · rfl
    · rfl
    · rfl
  · exact (Bool.or_false held.seenGsc).symm
  · exact (Bool.or_true held.seenGa4).symm

/-- A page has nothing from a source it was not seen in, and no position without
impressions. -/
structure Sound (held : PageAcc) : Prop where
  gsc : held.seenGsc = false → held.metrics.clicks = 0 ∧ held.metrics.impressions = 0
  ga4 : held.seenGa4 = false → held.metrics.sessions = 0 ∧ held.metrics.engagedSessions = 0 ∧
      held.metrics.engagementTimeSec = 0 ∧ held.metrics.conversions = 0 ∧ held.metrics.revenue = 0
  position : held.metrics.impressions = 0 → held.metrics.positionWeight = 0

theorem Sound.zero : Sound 0 where
  gsc _ := ⟨rfl, rfl⟩
  ga4 _ := ⟨rfl, rfl, rfl, rfl, rfl⟩
  position _ := rfl

theorem Sound.ofGsc (row : GscPageMetrics) : Sound ⟨.ofGsc row, true, false⟩ where
  gsc unseen := by cases unseen
  ga4 _ := ⟨rfl, rfl, rfl, rfl, rfl⟩
  position unshown := by
    change row.position * (row.impressions : ℚ) = 0
    have unshown : row.impressions = 0 := unshown
    rw [unshown, Nat.cast_zero, mul_zero]

theorem Sound.ofGa4 (row : Ga4PageMetrics) : Sound ⟨.ofGa4 row, false, true⟩ where
  gsc _ := ⟨rfl, rfl⟩
  ga4 unseen := by cases unseen
  position _ := rfl

theorem sum_zero {a b : ℚ} (ha : a = 0) (hb : b = 0) : a + b = 0 := by
  rw [ha, hb, add_zero]

theorem Sound.add {held held' : PageAcc} (h : held.Sound) (h' : held'.Sound) :
    (held + held').Sound where
  gsc unseen := by
    obtain ⟨unseen, unseen'⟩ := Bool.or_eq_false_iff.mp unseen
    obtain ⟨clicks, impressions⟩ := h.gsc unseen
    obtain ⟨clicks', impressions'⟩ := h'.gsc unseen'
    exact ⟨Nat.add_eq_zero_iff.mpr ⟨clicks, clicks'⟩,
      Nat.add_eq_zero_iff.mpr ⟨impressions, impressions'⟩⟩
  ga4 unseen := by
    obtain ⟨unseen, unseen'⟩ := Bool.or_eq_false_iff.mp unseen
    obtain ⟨a, b, c, d, e⟩ := h.ga4 unseen
    obtain ⟨a', b', c', d', e'⟩ := h'.ga4 unseen'
    exact ⟨Nat.add_eq_zero_iff.mpr ⟨a, a'⟩, Nat.add_eq_zero_iff.mpr ⟨b, b'⟩,
      sum_zero c c', sum_zero d d', sum_zero e e'⟩
  position unshown := by
    obtain ⟨unshown, unshown'⟩ := Nat.add_eq_zero_iff.mp unshown
    exact sum_zero (h.position unshown) (h'.position unshown')

theorem Sound.sum {accs : List PageAcc} (h : ∀ held ∈ accs, held.Sound) : accs.sum.Sound := by
  induction accs with
  | nil => exact Sound.zero
  | cons held accs ih =>
    rw [List.forall_mem_cons] at h
    rw [List.sum_cons]
    exact h.1.add (ih h.2)

end PageAcc

end Monoids

section Merged

theorem measured_pagePerformance {held : PageAcc} (h : held.Sound) (url : Text) :
    measured (some (pagePerformance url held)) = held.metrics := by
  have weight : (if held.metrics.impressions = 0 then 0
      else held.metrics.positionWeight / held.metrics.impressions) *
        (held.metrics.impressions : ℚ) = held.metrics.positionWeight := by
    split
    · next unshown => rw [zero_mul, h.position unshown]
    · next shown => exact div_mul_cancel₀ _ (Nat.cast_ne_zero.mpr shown)
  cases seenGsc : held.seenGsc with
  | false =>
    obtain ⟨clicks, impressions⟩ := h.gsc seenGsc
    have position := h.position impressions
    cases seenGa4 : held.seenGa4 with
    | false =>
      obtain ⟨a, b, c, d, e⟩ := h.ga4 seenGa4
      simp only [measured, pagePerformance, seenGsc, seenGa4, Bool.false_eq_true, if_false]
      apply Metrics.ext <;> symm <;> assumption
    | true =>
      simp only [measured, pagePerformance, seenGsc, seenGa4, Bool.false_eq_true, if_false, if_true]
      apply Metrics.ext <;> first | rfl | (symm; assumption)
  | true =>
    cases seenGa4 : held.seenGa4 with
    | false =>
      obtain ⟨a, b, c, d, e⟩ := h.ga4 seenGa4
      simp only [measured, pagePerformance, seenGsc, seenGa4, Bool.false_eq_true, if_false,
        if_true, weight]
      apply Metrics.ext <;> first | rfl | (symm; assumption)
    | true =>
      simp only [measured, pagePerformance, seenGsc, seenGa4, if_true, weight]

variable (resolve : Text → Resolution)

/-- What each resolved row adds to which page. -/
def attributions (gscRows : List GscPageMetrics) (ga4Rows : List Ga4PageMetrics) :
    List (Text × PageAcc) :=
  (gscRows.filterMap fun row =>
    (resolve row.url).page?.map fun url => (url, ⟨.ofGsc row, true, false⟩)) ++
  ga4Rows.filterMap fun row =>
    (resolve row.path).page?.map fun url => (url, ⟨.ofGa4 row, false, true⟩)

def attributed (gscRows : List GscPageMetrics) (ga4Rows : List Ga4PageMetrics) : Metrics :=
  ((attributions resolve gscRows ga4Rows).map fun entry => entry.2.metrics).sum

/-- Every row so far is accounted for. -/
structure Merge.Accounts (gscRows : List GscPageMetrics) (ga4Rows : List Ga4PageMetrics)
    (merge : Merge) : Prop where
  byPage : merge.byPage = tally (attributions resolve gscRows ga4Rows)
  clicks : (attributed resolve gscRows ga4Rows).clicks + merge.unresolved.clicks =
    (gscRows.map fun row => row.clicks).sum
  impressions : (attributed resolve gscRows ga4Rows).impressions + merge.unresolved.impressions =
    (gscRows.map fun row => row.impressions).sum
  sessions : (attributed resolve gscRows ga4Rows).sessions + merge.unresolved.sessions =
    (ga4Rows.map fun row => row.sessions).sum
  gsc : merge.gsc.found.length + merge.gsc.failures.length = gscRows.length
  ga4 : merge.ga4.found.length + merge.ga4.failures.length = ga4Rows.length

theorem ResolutionOutcome.length_add (outcome : ResolutionOutcome) (resolution : Resolution) :
    (outcome.add resolution).found.length + (outcome.add resolution).failures.length =
      outcome.found.length + outcome.failures.length + 1 := by
  cases resolution with
  | found answer =>
    simp only [add, List.length_append, List.length_singleton]
    omega
  | failed failure =>
    simp only [add, List.length_append, List.length_singleton]
    omega

variable {resolve} {gscRows : List GscPageMetrics} {ga4Rows : List Ga4PageMetrics}

theorem filterMap_append_row {ρ : Type*} (url : ρ → Text) (value : ρ → PageAcc) (rows : List ρ)
    (row : ρ) :
    ((rows ++ [row]).filterMap fun row => (resolve (url row)).page?.map fun u => (u, value row)) =
      (rows.filterMap fun row => (resolve (url row)).page?.map fun u => (u, value row)) ++
        ((resolve (url row)).page?.map fun u => (u, value row)).toList := by
  rw [List.filterMap_append, List.filterMap_cons]
  cases (resolve (url row)).page? with
  | none => rfl
  | some u => rfl

theorem tally_attribution {entries : List (Text × PageAcc)} {url : Text} {added : PageAcc}
    {add : PageAcc → PageAcc} (h : ∀ held, add held = held + added) :
    Dict.alter (tally entries) url {} add = tally (entries ++ [(url, added)]) := by
  rw [tally_append_singleton, funext h]
  rfl

theorem attributions_gsc (row : GscPageMetrics) :
    attributions resolve (gscRows ++ [row]) [] = attributions resolve gscRows [] ++
      ((resolve row.url).page?.map fun url =>
        (url, (⟨.ofGsc row, true, false⟩ : PageAcc))).toList := by
  rw [attributions, attributions, List.filterMap_nil, List.append_nil, List.append_nil]
  exact filterMap_append_row (fun row => row.url) (fun row => ⟨.ofGsc row, true, false⟩) gscRows row

theorem attributions_ga4 (row : Ga4PageMetrics) :
    attributions resolve gscRows (ga4Rows ++ [row]) = attributions resolve gscRows ga4Rows ++
      ((resolve row.path).page?.map fun url =>
        (url, (⟨.ofGa4 row, false, true⟩ : PageAcc))).toList := by
  rw [attributions, attributions, List.append_assoc]
  congr 1
  exact filterMap_append_row (fun row => row.path) (fun row => ⟨.ofGa4 row, false, true⟩) ga4Rows
    row

theorem Merge.Accounts.addGsc {merge : Merge} (h : merge.Accounts resolve gscRows [])
    (row : GscPageMetrics) :
    (merge.addGsc resolve row).Accounts resolve (gscRows ++ [row]) [] := by
  obtain ⟨byPage, clicks, impressions, sessions, gsc, ga4⟩ := h
  have length := ResolutionOutcome.length_add merge.gsc (resolve row.url)
  have entries : attributions resolve (gscRows ++ [row]) [] = _ := attributions_gsc row
  cases resolved : resolve row.url with
  | failed failure =>
    rw [resolved] at length entries
    have same : attributions resolve (gscRows ++ [row]) [] = attributions resolve gscRows [] :=
      entries.trans (List.append_nil _)
    have total : attributed resolve (gscRows ++ [row]) [] = attributed resolve gscRows [] := by
      rw [attributed, same, attributed]
    rw [Merge.addGsc, resolved]
    constructor
    · rw [same]
      exact byPage
    · rw [total, List.map_append, List.sum_append, ← clicks]
      exact (Nat.add_assoc _ _ _).symm
    · rw [total, List.map_append, List.sum_append, ← impressions]
      exact (Nat.add_assoc _ _ _).symm
    · rw [total]
      exact sessions
    · rw [List.length_append, ← gsc]
      exact length
    · exact ga4
  | found outcome =>
    rw [resolved] at length entries
    have total : attributed resolve (gscRows ++ [row]) [] =
        attributed resolve gscRows [] + .ofGsc row := by
      rw [attributed, entries, List.map_append, List.sum_append, ← attributed]
      congr 1
      exact add_zero _
    rw [Merge.addGsc, resolved]
    constructor
    · rw [entries]
      change Dict.alter merge.byPage _ _ _ = _
      rw [byPage]
      exact tally_attribution (PageAcc.addGsc_eq_add row)
    · rw [total, List.map_append, List.sum_append, ← clicks]
      exact Nat.add_right_comm _ _ _
    · rw [total, List.map_append, List.sum_append, ← impressions]
      exact Nat.add_right_comm _ _ _
    · rw [total]
      exact sessions
    · rw [List.length_append, ← gsc]
      exact length
    · exact ga4

theorem Merge.Accounts.addGa4 {merge : Merge} (h : merge.Accounts resolve gscRows ga4Rows)
    (row : Ga4PageMetrics) :
    (merge.addGa4 resolve row).Accounts resolve gscRows (ga4Rows ++ [row]) := by
  obtain ⟨byPage, clicks, impressions, sessions, gsc, ga4⟩ := h
  have length := ResolutionOutcome.length_add merge.ga4 (resolve row.path)
  have entries : attributions resolve gscRows (ga4Rows ++ [row]) = _ := attributions_ga4 row
  cases resolved : resolve row.path with
  | failed failure =>
    rw [resolved] at length entries
    have same : attributions resolve gscRows (ga4Rows ++ [row]) =
        attributions resolve gscRows ga4Rows :=
      entries.trans (List.append_nil _)
    have total : attributed resolve gscRows (ga4Rows ++ [row]) =
        attributed resolve gscRows ga4Rows := by
      rw [attributed, same, attributed]
    rw [Merge.addGa4, resolved]
    constructor
    · rw [same]
      exact byPage
    · rw [total]
      exact clicks
    · rw [total]
      exact impressions
    · rw [total, List.map_append, List.sum_append, ← sessions]
      exact (Nat.add_assoc _ _ _).symm
    · exact gsc
    · rw [List.length_append, ← ga4]
      exact length
  | found outcome =>
    rw [resolved] at length entries
    have total : attributed resolve gscRows (ga4Rows ++ [row]) =
        attributed resolve gscRows ga4Rows + .ofGa4 row := by
      rw [attributed, entries, List.map_append, List.sum_append, ← attributed]
      congr 1
      exact add_zero _
    rw [Merge.addGa4, resolved]
    constructor
    · rw [entries]
      change Dict.alter merge.byPage _ _ _ = _
      rw [byPage]
      exact tally_attribution (PageAcc.addGa4_eq_add row)
    · rw [total]
      exact clicks
    · rw [total]
      exact impressions
    · rw [total, List.map_append, List.sum_append, ← sessions]
      exact Nat.add_right_comm _ _ _
    · exact gsc
    · rw [List.length_append, ← ga4]
      exact length

/-- **Every row is accounted for, once.** -/
theorem Merge.accounts_ofRows (gscRows : List GscPageMetrics) (ga4Rows : List Ga4PageMetrics) :
    (Merge.ofRows resolve gscRows ga4Rows).Accounts resolve gscRows ga4Rows := by
  have fromGsc : (gscRows.foldl (Merge.addGsc resolve) {}).Accounts resolve gscRows [] := by
    induction gscRows using List.reverseRecOn with
    | nil => exact ⟨rfl, rfl, rfl, rfl, rfl, rfl⟩
    | append_singleton gscRows row ih =>
      rw [List.foldl_append]
      exact ih.addGsc row
  rw [ofRows]
  induction ga4Rows using List.reverseRecOn with
  | nil => exact fromGsc
  | append_singleton ga4Rows row ih =>
    rw [List.foldl_append]
    exact ih.addGa4 row

theorem sound_attributions {entry : Text × PageAcc}
    (mem : entry ∈ attributions resolve gscRows ga4Rows) : entry.2.Sound := by
  rw [attributions, List.mem_append] at mem
  obtain mem | mem := mem
  · obtain ⟨row, -, claimed⟩ := List.mem_filterMap.mp mem
    obtain ⟨url, -, rfl⟩ := Option.map_eq_some_iff.mp claimed
    exact PageAcc.Sound.ofGsc row
  · obtain ⟨row, -, claimed⟩ := List.mem_filterMap.mp mem
    obtain ⟨url, -, rfl⟩ := Option.map_eq_some_iff.mp claimed
    exact PageAcc.Sound.ofGa4 row

variable (resolve gscRows ga4Rows) in
/-- A page's figures, as `_roll_up` reads them. -/
def figures (page : FullPageIntelligenceProfile) : Metrics :=
  measured (Dict.get (mergePageMetrics resolve gscRows ga4Rows).pages page.url)

/-- **A page has what its rows add.** -/
theorem figures_eq (page : FullPageIntelligenceProfile) : figures resolve gscRows ga4Rows page =
      (((attributions resolve gscRows ga4Rows).filter fun entry => entry.1 = page.url).map
        fun entry => entry.2.metrics).sum := by
  have total := getD_get_tally (attributions resolve gscRows ga4Rows) page.url
  have sound : (((attributions resolve gscRows ga4Rows).filter fun entry =>
      entry.1 = page.url).map Prod.snd).sum.Sound := by
    refine PageAcc.Sound.sum fun held mem => ?_
    obtain ⟨entry, listed, rfl⟩ := List.mem_map.mp mem
    exact sound_attributions (List.mem_filter.mp listed).1
  have split : (((attributions resolve gscRows ga4Rows).filter fun entry =>
      entry.1 = page.url).map fun entry => entry.2.metrics).sum =
        (((attributions resolve gscRows ga4Rows).filter fun entry =>
          entry.1 = page.url).map Prod.snd).sum.metrics := by
    change _ = PageAcc.metricsHom _
    rw [map_list_sum, List.map_map]
    rfl
  rw [split, ← total]
  rw [← total] at sound
  rw [figures, mergePageMetrics]
  simp only [Dict.get_mapValues, (Merge.accounts_ofRows gscRows ga4Rows).byPage]
  cases held : Dict.get (tally (attributions resolve gscRows ga4Rows)) page.url with
  | none => rfl
  | some held_ =>
    rw [held] at sound
    exact measured_pagePerformance sound page.url

variable {pages : List FullPageIntelligenceProfile}

theorem sum_figures (nodup : (pages.map fun page => page.url).Nodup) (trails : List Text → Bool) :
    ((pages.filter fun page => trails (sectionPathOf page)).map
        (figures resolve gscRows ga4Rows)).sum =
      (((attributions resolve gscRows ga4Rows).filter fun entry =>
        ∃ u ∈ (pages.filter fun page => trails (sectionPathOf page)).map fun page => page.url,
          entry.1 = u).map fun entry => entry.2.metrics).sum := by
  have nodup : ((pages.filter fun page => trails (sectionPathOf page)).map fun page =>
      page.url).Nodup :=
    nodup.sublist (List.filter_sublist.map _)
  refine Eq.trans ?_ (sum_by_key nodup Prod.fst (fun entry => entry.2.metrics)
    (attributions resolve gscRows ga4Rows))
  rw [List.map_map]
  congr 1
  exact List.map_congr_left fun page _ => figures_eq page

theorem reaches_iff {trails : List Text → Bool} {url : Text} : Reaches resolve pages trails url ↔
      ∃ u ∈ (pages.filter fun page => trails (sectionPathOf page)).map fun page => page.url,
        (resolve url).page? = some u := by
  constructor
  · rintro ⟨page, mem, trail, answer⟩
    exact ⟨page.url, List.mem_map_of_mem (List.mem_filter.mpr ⟨mem, trail⟩), answer⟩
  · rintro ⟨u, mem, answer⟩
    obtain ⟨page, listed, rfl⟩ := List.mem_map.mp mem
    obtain ⟨known, trail⟩ := List.mem_filter.mp listed
    exact ⟨page, known, trail, answer⟩

/-- **A figure of some pages is that of their rows.** -/
theorem sum_figures_rows {N : Type*} [AddCommMonoid N]
    (nodup : (pages.map fun page => page.url).Nodup) (f : Metrics →+ N)
    (trails : List Text → Bool) :
    f ((pages.filter fun page => trails (sectionPathOf page)).map
        (figures resolve gscRows ga4Rows)).sum =
      ((gscRowsOf resolve pages gscRows trails).map fun row => f (.ofGsc row)).sum +
        ((ga4RowsOf resolve pages ga4Rows trails).map fun row => f (.ofGa4 row)).sum := by
  have fromGsc := sum_filterMap_filter gscRows (fun row => (resolve row.url).page?)
    (fun row => (⟨.ofGsc row, true, false⟩ : PageAcc))
    ((pages.filter fun page => trails (sectionPathOf page)).map fun page => page.url)
    fun held => f held.metrics
  have fromGa4 := sum_filterMap_filter ga4Rows (fun row => (resolve row.path).page?)
    (fun row => (⟨.ofGa4 row, false, true⟩ : PageAcc))
    ((pages.filter fun page => trails (sectionPathOf page)).map fun page => page.url)
    fun held => f held.metrics
  rw [gscRowsOf, ga4RowsOf]
  simp only [reaches_iff]
  rw [← fromGsc, ← fromGa4, ← List.sum_append, ← List.map_append, ← List.filter_append,
    ← attributions, sum_figures nodup, map_list_sum, List.map_map]
  rfl

end Merged

end Rankuno.Performance
