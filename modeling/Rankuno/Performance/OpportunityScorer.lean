import Rankuno.Performance.Opportunities

/-!
# The report of the recommendations

The findings of a kind are ranked against its own largest and cut off at a limit, and what is
cut off is counted. The report sorts them by severity first, then by kind, then by score: the
scores of a kind fall within each severity, not across them.
-/

namespace Rankuno.Opportunities

open Python Python.Text UrlKeys Performance

/-- `MAX_ORPHAN_SHARE`. -/
def maxOrphanShare : ℚ := 1 / 2

structure OpportunityReport where
  opportunities : List Opportunity
  found : Dict OpportunityKind Nat
  truncated : Dict OpportunityKind Nat
  skipped : Dict OpportunityKind SignalGap
  limitPerKind : Nat

section Rank

/-- `max(value for value, _ in items)`. -/
def best : List Item → ℚ
  | [] => 0
  | first :: rest => rest.foldl (fun best item => max best item.1) first.1

/-- `l[:limit]`. -/
def upTo (limit : ℤ) (l : List Item) : List Item :=
  if 0 ≤ limit then l.take limit.toNat else l.take (l.length - limit.natAbs)

/-- A finding with its score against the largest of its kind. -/
def scored (best : ℚ) (item : Item) : Opportunity :=
  { item.2 with score := if best = 0 then 0 else roundTo 1 (100 * item.1 / best) }

/-- `_rank`. -/
def rank (items : List Item) (limit : ℤ) : Nat × List Opportunity :=
  if items.isEmpty then (0, [])
  else (items.length, (upTo limit (sortedBy (fun item => -item.1) items)).map (scored (best items)))

end Rank

section Code

/-- What `score_opportunities` has recorded. -/
structure Findings where
  found : Dict OpportunityKind Nat := Table.empty
  truncated : Dict OpportunityKind Nat := Table.empty
  skipped : Dict OpportunityKind SignalGap := Table.empty
  out : List Opportunity := []

/-- `record`. -/
def Findings.record (limit : ℤ) (findings : Findings) (kind : OpportunityKind)
    (items : List Item) : Findings :=
  let (total, kept) := rank items limit
  { findings with
    found := if total = 0 then findings.found else findings.found.alter kind total fun _ => total
    truncated :=
      if kept.length < total then
        findings.truncated.alter kind (total - kept.length) fun _ => total - kept.length
      else findings.truncated
    out := findings.out ++ kept }

/-- `skipped[kind] = gap`. -/
def Findings.skip (findings : Findings) (kind : OpportunityKind) (gap : SignalGap) : Findings :=
  { findings with skipped := findings.skipped.alter kind gap fun _ => gap }

/-- `order.index(kind)`. -/
def OpportunityKind.index (kind : OpportunityKind) : Nat := all.idxOf kind

def Opportunity.key (o : Opportunity) : Bool ×ₗ Nat ×ₗ ℚ :=
  toLex (decide (o.severity ≠ .critical), toLex (o.kind.index, -o.score))

/-- `OpportunityReport(...)`, which has no limit below zero. -/
def Findings.report (limit : ℤ) (findings : Findings) : Except Text OpportunityReport :=
  if limit < 0 then .error "limit_per_kind".toList
  else
    .ok {
      opportunities := sortedBy Opportunity.key findings.out
      found := findings.found
      truncated := findings.truncated
      skipped := findings.skipped
      limitPerKind := limit.toNat }

variable (unicode : UnicodeData) (formats : Formats)

/-- `score_opportunities`, of the pages of the index. -/
def scoreOpportunities (pages : List FullPageIntelligenceProfile) (metrics : PageMetricSet)
    (limitPerKind : ℤ := 1000) (minClicks : ℤ := 1) (minImpressions : ℤ := 100) :
    Except Text OpportunityReport :=
  let entries := measured pages metrics
  if entries.isEmpty then
    (OpportunityKind.all.foldl (fun (findings : Findings) kind =>
      findings.skip kind .noSearchData) {}).report limitPerKind
  else
    let linksUsable := orphanShare pages ≤ maxOrphanShare
    let orphans : Gathered := if linksUsable then entries.foldl (addOrphan minClicks) {} else {}
    let findings :=
      if linksUsable then ({} : Findings).record limitPerKind .orphanWithTraffic orphans.items
      else ({} : Findings).skip .orphanWithTraffic .inboundLinksUnreliable
    let buried := entries.foldl (addBuried minClicks) { reported := orphans.reported }
    let findings := findings.record limitPerKind .buriedWithTraffic buried.items
    let findings := findings.record limitPerKind .indexedCrawlTrap (traps unicode metrics)
    let exportedClicks :=
      (entries.map fun entry => entry.2.clicks).sum + metrics.unattributed.clicks
    let findings := findings.record limitPerKind .indexedSubdomain
      (subdomains unicode formats metrics exportedClicks metrics.gscResolution.total)
    let findings :=
      if linksUsable then
        findings.record limitPerKind .underperformingSibling
          (siblings formats entries minImpressions buried.reported pages.length)
      else findings.skip .underperformingSibling .inboundLinksUnreliable
    findings.report limitPerKind

end Code

section Meaning

/-- The findings of a kind, as the report lists them. -/
def OpportunityReport.returned (report : OpportunityReport) (kind : OpportunityKind) :
    List Opportunity :=
  report.opportunities.filter fun o => o.kind = kind

/-- Those of one severity. -/
def OpportunityReport.ranked (report : OpportunityReport) (kind : OpportunityKind)
    (severity : Severity) : List Opportunity :=
  (report.returned kind).filter fun o => o.severity = severity

/-- The kinds that are about a crawled page. -/
def OpportunityKind.isAboutPage (kind : OpportunityKind) : Bool :=
  kind = .orphanWithTraffic || kind = .buriedWithTraffic || kind = .underperformingSibling

def Opportunity.unscored (o : Opportunity) : Opportunity := { o with score := 0 }

/-- The report accounts for what was found of each kind, `candidates`. -/
structure Accounted (candidates : OpportunityKind → List Item) (report : OpportunityReport) :
    Prop where
  exclusive : ∀ o ∈ report.opportunities, ∀ o' ∈ report.opportunities,
    o.kind.isAboutPage = true → o'.kind.isAboutPage = true → o.url = o'.url → o.kind = o'.kind
  counted : ∀ kind, (report.returned kind).length + (report.truncated.get kind).getD 0 =
    (report.found.get kind).getD 0
  found : ∀ kind, (report.found.get kind).getD 0 = (candidates kind).length
  skipped : ∀ kind, (report.skipped.get kind).isSome →
    report.found.get kind = none ∧ report.returned kind = []
  largest : ∀ kind, ∃ kept dropped : List Item, (kept ++ dropped).Perm (candidates kind) ∧
    (∀ item ∈ kept, ∀ other ∈ dropped, other.1 ≤ item.1) ∧
      ((report.returned kind).map Opportunity.unscored).Perm (kept.map Prod.snd)
  bounded : ∀ o ∈ report.opportunities, 0 ≤ o.score ∧ o.score ≤ 100
  falling : ∀ kind severity, (report.ranked kind severity).Pairwise fun o o' => o'.score ≤ o.score
  headed : ∀ kind, (∃ item ∈ candidates kind, 0 < item.1) → report.returned kind ≠ [] →
    ∃ severity, (report.ranked kind severity).head?.map Opportunity.score = some 100
  grave : ∀ o ∈ report.opportunities, o.severity = .critical → o.kind = .indexedSubdomain
  first : report.opportunities.Pairwise fun o o' =>
    o'.severity = .critical → o.severity = .critical

/-- What is answered for a kind: its findings, or why it was not evaluated. -/
abbrev Answer : Type := OpportunityKind × Except SignalGap (List Item)

def candidatesOf (answers : List Answer) (kind : OpportunityKind) : List Item :=
  (answers.filter fun answer => answer.1 = kind).flatMap fun answer => answer.2.toOption.getD []

variable (unicode : UnicodeData) (formats : Formats)

/-- The answers for the kinds, in the order in which they are recorded. -/
def answersOf (pages : List FullPageIntelligenceProfile) (metrics : PageMetricSet)
    (minClicks minImpressions : ℤ) : List Answer :=
  let entries := measured pages metrics
  if entries.isEmpty then OpportunityKind.all.map fun kind => (kind, .error .noSearchData)
  else
    let linksUsable := orphanShare pages ≤ maxOrphanShare
    let orphans : Gathered := if linksUsable then entries.foldl (addOrphan minClicks) {} else {}
    let buried := entries.foldl (addBuried minClicks) { reported := orphans.reported }
    let exportedClicks :=
      (entries.map fun entry => entry.2.clicks).sum + metrics.unattributed.clicks
    [(.orphanWithTraffic,
        if linksUsable then .ok orphans.items else .error .inboundLinksUnreliable),
      (.buriedWithTraffic, .ok buried.items),
      (.indexedCrawlTrap, .ok (traps unicode metrics)),
      (.indexedSubdomain,
        .ok (subdomains unicode formats metrics exportedClicks metrics.gscResolution.total)),
      (.underperformingSibling,
        if linksUsable then
          .ok (siblings formats entries minImpressions buried.reported pages.length)
        else .error .inboundLinksUnreliable)]

end Meaning

section Rounding

variable {x y : ℚ}

theorem roundTo_mono (digits : Nat) (below : x ≤ y) : roundTo digits x ≤ roundTo digits y := by
  have scale : (0 : ℚ) < 10 ^ digits := by positivity
  have scaled : x * 10 ^ digits ≤ y * 10 ^ digits := mul_le_mul_of_nonneg_right below scale.le
  rw [roundTo, roundTo]
  generalize x * 10 ^ digits = x at scaled
  generalize y * 10 ^ digits = y at scaled
  refine div_le_div_of_nonneg_right (Int.cast_le.mpr ?_) scale.le
  have floors : ⌊x⌋ ≤ ⌊y⌋ := Int.floor_mono scaled
  obtain less | same := floors.lt_or_eq
  · split
    · split
      · exact floors
      · exact floors.trans (Int.le_add_one le_rfl)
    · split
      · exact less
      · exact (Int.add_one_le_iff.mpr less).trans (Int.le_add_one le_rfl)
  · rw [same]
    split
    · split
      · exact le_rfl
      · exact Int.le_add_one le_rfl
    · next up =>
      rw [if_neg]
      refine fun down => up ?_
      obtain less | ⟨tie, even⟩ := down
      · exact Or.inl (lt_of_le_of_lt (sub_le_sub_right scaled _) less)
      · obtain less | equal := (sub_le_sub_right scaled (⌊y⌋ : ℚ)).lt_or_eq
        · exact Or.inl (less.trans_eq tie)
        · exact Or.inr ⟨equal.trans tie, even⟩

theorem roundTo_zero (digits : Nat) : roundTo digits 0 = 0 := by
  simp [roundTo]

theorem roundTo_hundred : roundTo 1 100 = 100 := by
  norm_num [roundTo]

end Rounding

section Ranking

variable {items : List Item} {item : Item} {o : Opportunity} {kind : OpportunityKind} {n : Nat}

/-- What the code relies on in the findings of a kind. -/
structure IsFinding (kind : OpportunityKind) (item : Item) : Prop where
  own : item.2.kind = kind
  unscored : item.2.score = 0
  nonneg : 0 ≤ item.1
  grave : item.2.severity = .critical → kind = .indexedSubdomain

theorem foldl_max_spec (start : ℚ) (items : List Item) :
    (items.foldl (fun best item => max best item.1) start = start ∨
      ∃ item ∈ items, item.1 = items.foldl (fun best item => max best item.1) start) ∧
    start ≤ items.foldl (fun best item => max best item.1) start ∧
      ∀ item ∈ items, item.1 ≤ items.foldl (fun best item => max best item.1) start := by
  induction items generalizing start with
  | nil => exact ⟨Or.inl rfl, le_rfl, fun _ none => absurd none List.not_mem_nil⟩
  | cons first rest ih =>
    rw [List.foldl_cons]
    obtain ⟨reached, above, all⟩ := ih (max start first.1)
    refine ⟨?_, (le_max_left _ _).trans above, fun item mem => ?_⟩
    · obtain same | ⟨item, mem, same⟩ := reached
      · rw [same]
        obtain least | most := max_choice start first.1
        · exact Or.inl least
        · exact Or.inr ⟨first, List.mem_cons_self, most.symm⟩
      · exact Or.inr ⟨item, List.mem_cons_of_mem first mem, same⟩
    · obtain rfl | later := List.mem_cons.mp mem
      · exact (le_max_right _ _).trans above
      · exact all item later

theorem le_best (mem : item ∈ items) : item.1 ≤ best items := by
  cases items with
  | nil => cases mem
  | cons first rest =>
    obtain ⟨-, above, all⟩ := foldl_max_spec first.1 rest
    obtain rfl | later := List.mem_cons.mp mem
    · exact above
    · exact all item later

theorem exists_best (filled : items ≠ []) : ∃ item ∈ items, item.1 = best items := by
  cases items with
  | nil => exact absurd rfl filled
  | cons first rest =>
    obtain ⟨same | ⟨item, mem, same⟩, -, -⟩ := foldl_max_spec first.1 rest
    · exact ⟨first, List.mem_cons_self, same.symm⟩
    · exact ⟨item, List.mem_cons_of_mem first mem, same⟩

theorem scored_bounds (nonneg : 0 ≤ item.1) (mem : item ∈ items) :
    0 ≤ (scored (best items) item).score ∧ (scored (best items) item).score ≤ 100 := by
  have below := le_best mem
  have hundred : (0 : ℚ) ≤ 100 := by norm_num
  rw [scored]
  split
  · exact ⟨le_rfl, hundred⟩
  · next some =>
    have positive : 0 < best items := lt_of_le_of_ne (nonneg.trans below) (Ne.symm some)
    constructor
    · exact (roundTo_zero 1).ge.trans
        (roundTo_mono 1 (div_nonneg (mul_nonneg hundred nonneg) positive.le))
    · refine (roundTo_mono 1 ?_).trans_eq roundTo_hundred
      rw [div_le_iff₀ positive]
      exact mul_le_mul_of_nonneg_left below hundred

theorem scored_best (positive : 0 < best items) (largest : item.1 = best items) :
    (scored (best items) item).score = 100 := by
  rw [scored, largest]
  dsimp only
  rw [if_neg positive.ne', mul_div_cancel_right₀ _ positive.ne', roundTo_hundred]

theorem unscored_scored (best : ℚ) (unscored : item.2.score = 0) :
    (scored best item).unscored = item.2 := by
  rw [scored, Opportunity.unscored, ← unscored]

def keptItems (n : Nat) (items : List Item) : List Item :=
  (sortedBy (fun item => -item.1) items).take n

def kept (n : Nat) (items : List Item) : List Opportunity :=
  (keptItems n items).map (scored (best items))

theorem rank_eq (items : List Item) (n : Nat) : rank items n = (items.length, kept n items) := by
  rw [rank]
  split
  · next empty =>
    rw [List.isEmpty_iff.mp empty, kept, keptItems, sortedBy, List.insertionSort_nil, List.take_nil]
    rfl
  · rw [upTo, if_pos (Int.natCast_nonneg n), Int.toNat_natCast, kept, keptItems]

theorem length_kept (n : Nat) (items : List Item) : (kept n items).length = min n items.length := by
  rw [kept, List.length_map, keptItems, List.length_take, (perm_sortedBy _ items).length_eq]

theorem mem_of_mem_kept (mem : o ∈ kept n items) :
    ∃ item ∈ items, o = scored (best items) item := by
  obtain ⟨item, found, rfl⟩ := List.mem_map.mp mem
  exact ⟨item, mem_sortedBy.mp (List.mem_of_mem_take found), rfl⟩

theorem mem_kept (whole : items.length ≤ n) (mem : item ∈ items) :
    scored (best items) item ∈ kept n items := by
  refine List.mem_map_of_mem ?_
  rw [keptItems, List.take_of_length_le ((perm_sortedBy _ items).length_eq.trans_le whole)]
  exact mem_sortedBy.mpr mem

theorem filter_kept {kind' : OpportunityKind} (all : ∀ item ∈ items, IsFinding kind' item) :
    (kept n items).filter (fun o => o.kind = kind) = if kind' = kind then kept n items else [] := by
  have own : ∀ o ∈ kept n items, o.kind = kind' := by
    intro o mem
    obtain ⟨item, found, rfl⟩ := mem_of_mem_kept mem
    exact (all item found).own
  split
  · next same =>
    rw [List.filter_eq_self]
    exact fun o mem => decide_eq_true ((own o mem).trans same)
  · next other =>
    rw [List.filter_eq_nil_iff]
    exact fun o mem => by rw [own o mem, decide_eq_true_eq]; exact other

theorem exists_hundred (some : ∃ item ∈ items, 0 < item.1) (filled : kept n items ≠ []) :
    ∃ o ∈ kept n items, o.score = 100 := by
  obtain ⟨item, mem, positive⟩ := some
  have positive : 0 < best items := lt_of_lt_of_le positive (le_best mem)
  obtain ⟨largest, listed, same⟩ := exists_best (List.ne_nil_of_mem mem)
  cases sorted : keptItems n items with
  | nil => exact absurd (congrArg (List.map (scored (best items))) sorted) filled
  | cons first rest =>
    have inside : first ∈ keptItems n items := sorted ▸ List.mem_cons_self
    refine ⟨scored (best items) first, List.mem_map_of_mem inside, scored_best positive ?_⟩
    cases whole : sortedBy (fun item : Item => -item.1) items with
    | nil =>
      rw [keptItems, whole, List.take_nil] at sorted
      cases sorted
    | cons head tail =>
      have head_eq : head = first := by
        cases n with
        | zero =>
          rw [keptItems, List.take_zero] at sorted
          cases sorted
        | succ n =>
          rw [keptItems, whole, List.take_succ_cons] at sorted
          exact (List.cons.inj sorted).1
      subst head_eq
      have above := le_of_sortedBy_eq_cons whole listed
      have own : head ∈ items := by
        rw [← (perm_sortedBy (fun item : Item => -item.1) items).mem_iff, whole]
        exact List.mem_cons_self
      exact le_antisymm (le_best own) (same ▸ neg_le_neg_iff.mp above)

end Ranking

section Records

variable {answers : List Answer} {answer : Answer} {findings : Findings} {n : Nat}
  {candidates : OpportunityKind → List Item}

/-- One kind is recorded, or skipped. -/
def Findings.add (limit : ℤ) (findings : Findings) (answer : Answer) : Findings :=
  match answer.2 with
  | .ok items => findings.record limit answer.1 items
  | .error gap => findings.skip answer.1 gap

/-- What is recorded of the findings of each kind. -/
structure Recorded (n : Nat) (candidates : OpportunityKind → List Item) (findings : Findings) :
    Prop where
  returned : ∀ kind, findings.out.filter (fun o => o.kind = kind) = kept n (candidates kind)
  found : ∀ kind, (findings.found.get kind).getD 0 = (candidates kind).length
  truncated : ∀ kind, (findings.truncated.get kind).getD 0 = (candidates kind).length - n
  absent : ∀ kind, candidates kind = [] → findings.found.get kind = none
  skipped : ∀ kind, (findings.skipped.get kind).isSome → candidates kind = []

/-- What the answers give for a kind is a list of its findings. -/
def AllFindings (answers : List Answer) : Prop :=
  ∀ answer ∈ answers, ∀ item ∈ answer.2.toOption.getD [], IsFinding answer.1 item

theorem candidatesOf_of_notMem {kind : OpportunityKind} (fresh : kind ∉ answers.map Prod.fst) :
    candidatesOf answers kind = [] := by
  rw [candidatesOf, List.filter_eq_nil_iff.mpr, List.flatMap_nil]
  intro answer mem same
  rw [decide_eq_true_eq] at same
  exact fresh (same ▸ List.mem_map_of_mem mem)

theorem candidatesOf_concat {own : OpportunityKind} (fresh : own ∉ answers.map Prod.fst)
    (answer : Except SignalGap (List Item)) : candidatesOf (answers ++ [(own, answer)]) =
      Function.update (candidatesOf answers) own (answer.toOption.getD []) := by
  funext kind
  rw [candidatesOf, List.filter_append, List.flatMap_append, ← candidatesOf, List.filter_singleton]
  by_cases same : kind = own
  · subst same
    simp [candidatesOf_of_notMem fresh]
  · simp [same, Ne.symm same]

theorem kept_nil (n : Nat) : kept n [] = [] := by
  rw [kept, keptItems, sortedBy, List.insertionSort_nil, List.take_nil, List.map_nil]

section Record

variable {kind own : OpportunityKind} {items : List Item}

theorem get_found_record : (findings.record n own items).found.get kind =
    if kind = own ∧ items ≠ [] then some items.length else findings.found.get kind := by
  rw [Findings.record, rank_eq]
  dsimp only
  by_cases empty : items = []
  · rw [if_neg (fun both : kind = own ∧ items ≠ [] => both.2 empty),
      if_pos (List.length_eq_zero_iff.mpr empty)]
  · rw [if_neg (mt List.length_eq_zero_iff.mp empty), Dict.get_alter]
    exact if_congr (and_iff_left empty).symm rfl rfl

theorem get_truncated_record : (findings.record n own items).truncated.get kind =
    if kind = own ∧ n < items.length then some (items.length - n)
    else findings.truncated.get kind := by
  rw [Findings.record, rank_eq]
  dsimp only
  rw [length_kept]
  by_cases cut : n < items.length
  · rw [Nat.min_eq_left cut.le, if_pos cut, Dict.get_alter]
    exact if_congr (and_iff_left cut).symm rfl rfl
  · rw [Nat.min_eq_right (Nat.le_of_not_lt cut), if_neg (Nat.lt_irrefl _),
      if_neg (fun both : kind = own ∧ n < items.length => cut both.2)]

theorem out_record : (findings.record n own items).out = findings.out ++ kept n items := by
  rw [Findings.record, rank_eq]

theorem Recorded.record (recorded : Recorded n candidates findings) (fresh : candidates own = [])
    (all : ∀ item ∈ items, IsFinding own item) (evaluated : findings.skipped.get own = none) :
    Recorded n (Function.update candidates own items) (findings.record n own items) where
  returned kind := by
    rw [out_record, List.filter_append, recorded.returned, filter_kept all]
    by_cases same : kind = own
    · rw [same, Function.update_self, if_pos rfl, fresh, kept_nil, List.nil_append]
    · rw [Function.update_of_ne same, if_neg (Ne.symm same), List.append_nil]
  found kind := by
    rw [get_found_record]
    by_cases same : kind = own
    · rw [same, Function.update_self]
      by_cases empty : items = []
      · rw [if_neg (fun both => both.2 empty), recorded.absent own fresh, empty]
        rfl
      · rw [if_pos ⟨rfl, empty⟩, Option.getD_some]
    · rw [if_neg (fun both => same both.1), Function.update_of_ne same, recorded.found]
  truncated kind := by
    rw [get_truncated_record]
    by_cases same : kind = own
    · rw [same, Function.update_self]
      by_cases cut : n < items.length
      · rw [if_pos ⟨rfl, cut⟩, Option.getD_some]
      · rw [if_neg (fun both => cut both.2), recorded.truncated, fresh, List.length_nil,
          Nat.zero_sub, Nat.sub_eq_zero_of_le (Nat.le_of_not_lt cut)]
    · rw [if_neg (fun both => same both.1), Function.update_of_ne same, recorded.truncated]
  absent kind none := by
    rw [get_found_record]
    by_cases same : kind = own
    · rw [same, Function.update_self] at none
      rw [if_neg (fun both => both.2 none), same, recorded.absent own fresh]
    · rw [Function.update_of_ne same] at none
      rw [if_neg (fun both => same both.1), recorded.absent kind none]
  skipped kind skip := by
    by_cases same : kind = own
    · rw [same] at skip
      exact absurd skip (by rw [Findings.record, evaluated]; exact Bool.false_ne_true)
    · rw [Function.update_of_ne same]
      exact recorded.skipped kind skip

theorem Recorded.skip (recorded : Recorded n candidates findings) (fresh : candidates own = [])
    (gap : SignalGap) : Recorded n candidates (findings.skip own gap) where
  returned := recorded.returned
  found := recorded.found
  truncated := recorded.truncated
  absent := recorded.absent
  skipped kind skip := by
    rw [Findings.skip, Dict.get_alter] at skip
    by_cases same : kind = own
    · rw [same, fresh]
    · rw [if_neg same] at skip
      exact recorded.skipped kind skip

end Record

theorem recorded_answers (distinct : (answers.map Prod.fst).Nodup) (all : AllFindings answers) :
    Recorded n (candidatesOf answers) (answers.foldl (Findings.add n) {}) ∧
      ∀ kind, ((answers.foldl (Findings.add n) {}).skipped.get kind).isSome →
        kind ∈ answers.map Prod.fst := by
  induction answers using List.reverseRecOn with
  | nil =>
    refine ⟨⟨fun kind => ?_, fun _ => rfl, fun _ => (Nat.zero_sub n).symm, fun _ _ => rfl,
      fun _ _ => rfl⟩, fun kind none => ?_⟩
    · exact (kept_nil n).symm
    · cases none
  | append_singleton answers answer ih =>
    obtain ⟨own, answer⟩ := answer
    rw [List.map_append, List.nodup_append] at distinct
    obtain ⟨distinct, -, apart⟩ := distinct
    have fresh : own ∉ answers.map Prod.fst := fun mem =>
      apart own mem own List.mem_cons_self rfl
    have found := all (own, answer) (List.mem_append_right _ List.mem_cons_self)
    obtain ⟨recorded, seen⟩ :=
      ih distinct fun answer mem => all answer (List.mem_append_left _ mem)
    have unseen := candidatesOf_of_notMem fresh
    rw [candidatesOf_concat fresh, List.foldl_append, List.foldl_cons, List.foldl_nil]
    generalize answers.foldl (Findings.add n) {} = findings at recorded seen
    simp only [List.map_append, List.mem_append]
    cases answer with
    | error gap =>
      have same : Function.update (candidatesOf answers) own [] = candidatesOf answers :=
        (congrArg (Function.update _ own) unseen.symm).trans (Function.update_eq_self own _)
      refine ⟨same.symm ▸ recorded.skip unseen gap, fun kind skip => ?_⟩
      have skip : ((findings.skip own gap).skipped.get kind).isSome := skip
      rw [Findings.skip, Dict.get_alter] at skip
      split at skip
      · next equal => exact Or.inr (equal ▸ List.mem_cons_self)
      · exact Or.inl (seen kind skip)
    | ok items =>
      have evaluated : findings.skipped.get own = none :=
        Option.not_isSome_iff_eq_none.mp fun skip => fresh (seen own skip)
      exact ⟨recorded.record unseen found evaluated, fun kind skip => Or.inl (seen kind skip)⟩

end Records

section Report

variable {findings : Findings} {n : Nat} {candidates : OpportunityKind → List Item}

/-- The report of what is recorded. -/
def reportOf (n : Nat) (findings : Findings) : OpportunityReport where
  opportunities := sortedBy Opportunity.key findings.out
  found := findings.found
  truncated := findings.truncated
  skipped := findings.skipped
  limitPerKind := n

theorem report_natCast : findings.report n = .ok (reportOf n findings) := by
  rw [Findings.report, if_neg (Int.not_lt.mpr (Int.natCast_nonneg n)), Int.toNat_natCast]
  rfl

theorem Opportunity.key_le {o o' : Opportunity} (before : o.key ≤ o'.key) :
    (o'.severity = .critical → o.severity = .critical) ∧
      (o.kind = o'.kind → o.severity = o'.severity → o'.score ≤ o.score) := by
  rw [Opportunity.key, Opportunity.key, Prod.Lex.toLex_le_toLex, Prod.Lex.toLex_le_toLex] at before
  dsimp only at before
  obtain graver | ⟨alike, rest⟩ := before
  · rw [Bool.lt_iff, decide_eq_false_iff_not, decide_eq_true_eq, not_not] at graver
    exact ⟨fun _ => graver.1, fun _ same => absurd (same ▸ graver.1) graver.2⟩
  · rw [decide_eq_decide, not_iff_not] at alike
    refine ⟨alike.mpr, fun kind _ => ?_⟩
    obtain less | ⟨-, scores⟩ := rest
    · exact absurd less (by rw [kind]; exact Nat.lt_irrefl _)
    · exact neg_le_neg_iff.mp scores

variable (findings n) in
theorem returned_perm (kind : OpportunityKind) :
    ((reportOf n findings).returned kind).Perm (findings.out.filter fun o => o.kind = kind) :=
  (perm_sortedBy Opportunity.key findings.out).filter _

theorem mem_reportOf {o : Opportunity} (recorded : Recorded n candidates findings)
    (mem : o ∈ (reportOf n findings).opportunities) :
    ∃ item ∈ candidates o.kind, o = scored (best (candidates o.kind)) item := by
  have own : o ∈ findings.out.filter fun other => other.kind = o.kind :=
    List.mem_filter.mpr ⟨mem_sortedBy.mp mem, decide_eq_true rfl⟩
  rw [recorded.returned] at own
  exact mem_of_mem_kept own

theorem Recorded.accounted (recorded : Recorded n candidates findings)
    (all : ∀ kind, ∀ item ∈ candidates kind, IsFinding kind item)
    (exclusive : ∀ kind kind', kind.isAboutPage = true → kind'.isAboutPage = true →
      ∀ item ∈ candidates kind, ∀ item' ∈ candidates kind', item.2.url = item'.2.url →
        kind = kind') : Accounted candidates (reportOf n findings) where
  exclusive o mem o' mem' about about' same := by
    obtain ⟨item, found, equal⟩ := mem_reportOf recorded mem
    obtain ⟨item', found', equal'⟩ := mem_reportOf recorded mem'
    refine exclusive o.kind o'.kind about about' item found item' found' ?_
    rw [equal, equal'] at same
    exact same
  counted kind := by
    rw [(returned_perm findings n kind).length_eq, recorded.returned, length_kept, reportOf,
      recorded.truncated, recorded.found]
    omega
  found := recorded.found
  skipped kind skip := by
    have none := recorded.skipped kind skip
    refine ⟨recorded.absent kind none, (List.Perm.nil_eq ?_).symm⟩
    have same := returned_perm findings n kind
    rw [recorded.returned, none, kept_nil] at same
    exact same.symm
  largest kind := by
    refine ⟨keptItems n (candidates kind),
      (sortedBy (fun item => -item.1) (candidates kind)).drop n, ?_, ?_, ?_⟩
    · rw [keptItems, List.take_append_drop]
      exact perm_sortedBy _ _
    · intro item inside other dropped
      have before := le_of_mem_drop_sortedBy inside dropped
      exact neg_le_neg_iff.mp before
    · refine ((returned_perm findings n kind).map _).trans ?_
      rw [recorded.returned, kept, List.map_map]
      refine List.Perm.of_eq (List.map_congr_left fun item inside => ?_)
      have found := mem_sortedBy.mp (List.mem_of_mem_take inside)
      exact unscored_scored _ (all kind item found).unscored
  bounded o mem := by
    obtain ⟨item, found, equal⟩ := mem_reportOf recorded mem
    rw [equal]
    exact scored_bounds (all _ item found).nonneg found
  falling kind severity := by
    have sorted := ((pairwise_sortedBy Opportunity.key findings.out).filter
      fun o => o.kind = kind).filter fun o => o.severity = severity
    refine sorted.imp_of_mem fun {o o'} mem mem' before => ?_
    obtain ⟨own, grave⟩ := List.mem_filter.mp mem
    obtain ⟨own', grave'⟩ := List.mem_filter.mp mem'
    exact (Opportunity.key_le before).2
      ((of_decide_eq_true (List.mem_filter.mp own).2).trans
        (of_decide_eq_true (List.mem_filter.mp own').2).symm)
      ((of_decide_eq_true grave).trans (of_decide_eq_true grave').symm)
  headed kind some filled := by
    have filled : kept n (candidates kind) ≠ [] := by
      intro empty
      have same := returned_perm findings n kind
      rw [recorded.returned, empty] at same
      exact filled same.eq_nil
    obtain ⟨o, mem, hundred⟩ := exists_hundred some filled
    rw [← recorded.returned] at mem
    obtain ⟨listed, own⟩ := List.mem_filter.mp mem
    have own := of_decide_eq_true own
    have passes : (decide (o.kind = kind) && decide (o.severity = o.severity)) = true := by
      rw [own, decide_eq_true rfl, decide_eq_true rfl]
      rfl
    obtain ⟨first, head, listed', same, before⟩ :=
      @exists_head?_filter_sortedBy _ _ _ Opportunity.key _ _
        (fun other => other.kind = kind && other.severity = o.severity) listed passes
    rw [Bool.and_eq_true, decide_eq_true_eq, decide_eq_true_eq] at same
    refine ⟨o.severity, ?_⟩
    have ranked : (reportOf n findings).ranked kind o.severity =
        (sortedBy Opportunity.key findings.out).filter fun other =>
          other.kind = kind && other.severity = o.severity := by
      rw [OpportunityReport.ranked, OpportunityReport.returned, List.filter_filter]
      exact List.filter_congr fun other _ => Bool.and_comm _ _
    have above := (Opportunity.key_le before).2 (same.1.trans own.symm) same.2
    obtain ⟨item, found, equal⟩ := mem_reportOf recorded (mem_sortedBy.mpr listed')
    have below := (scored_bounds (all _ item found).nonneg found).2
    rw [ranked, head, Option.map_some, Option.some.injEq]
    rw [← equal] at below
    exact le_antisymm below (hundred ▸ above)
  grave o mem critical := by
    obtain ⟨item, found, equal⟩ := mem_reportOf recorded mem
    rw [equal] at critical
    exact (all _ item found).grave critical
  first := (pairwise_sortedBy Opportunity.key findings.out).imp fun before =>
    (Opportunity.key_le before).1

end Report

section Finders

variable {unicode : UnicodeData} {formats : Formats} {entries : Measured}
  {kind : OpportunityKind} {start : List Text} {gathered : Gathered} {item : Item}
  {minClicks minImpressions : ℤ}

/-- What a loop that reports pages of one kind keeps, after the pages at its start. -/
structure Gathered.Holds (kind : OpportunityKind) (start : List Text) (gathered : Gathered) :
    Prop where
  findings : ∀ item ∈ gathered.items, IsFinding kind item
  fresh : ∀ item ∈ gathered.items, item.2.url ∉ start
  own : ∀ item ∈ gathered.items, item.2.url ∈ gathered.reported
  start : ∀ url ∈ start, url ∈ gathered.reported

theorem holds_start : Gathered.Holds kind start { reported := start } where
  findings _ none := absurd none List.not_mem_nil
  fresh _ none := absurd none List.not_mem_nil
  own _ none := absurd none List.not_mem_nil
  start _ mem := mem

theorem Gathered.Holds.report (holds : gathered.Holds kind start) {value : ℚ}
    {finding : Opportunity} (found : IsFinding kind (value, finding))
    (fresh : finding.url ∉ start) : (gathered.report value finding).Holds kind start where
  findings item mem := by
    obtain earlier | last := List.mem_append.mp mem
    · exact holds.findings item earlier
    · exact List.mem_singleton.mp last ▸ found
  fresh item mem := by
    obtain earlier | last := List.mem_append.mp mem
    · exact holds.fresh item earlier
    · exact List.mem_singleton.mp last ▸ fresh
  own item mem := by
    obtain earlier | last := List.mem_append.mp mem
    · exact List.mem_append_left _ (holds.own item earlier)
    · exact List.mem_append_right _ (List.mem_singleton.mp last ▸ List.mem_cons_self)
  start url mem := List.mem_append_left _ (holds.start url mem)

theorem isFinding_opportunity (value : Nat) (page : FullPageIntelligenceProfile)
    (gsc : GscPageMetrics) (reason : Text) (referenceUrl : Option Text) :
    IsFinding kind (value, opportunity kind page gsc reason referenceUrl) where
  own := rfl
  unscored := rfl
  nonneg := Nat.cast_nonneg value
  grave critical := by cases critical

theorem holds_orphans : (entries.foldl (addOrphan minClicks) {}).Holds .orphanWithTraffic [] := by
  refine List.foldlRecOn entries _ holds_start fun gathered holds entry _ => ?_
  rw [addOrphan]
  split
  · exact holds
  · exact holds.report (isFinding_opportunity ..) List.not_mem_nil

theorem holds_buried : (entries.foldl (addBuried minClicks) { reported := start }).Holds
    .buriedWithTraffic start := by
  refine List.foldlRecOn entries _ holds_start fun gathered holds entry _ => ?_
  rw [addBuried]
  split
  · exact holds
  · next known =>
    split
    · exact holds
    · exact holds.report (isFinding_opportunity ..) fun listed =>
        known (Or.inl (holds.start _ listed))

theorem holds_traps (rows : List GscPageMetrics) :
    (rows.foldl (addTrap unicode) {}).Holds .indexedCrawlTrap [] := by
  refine List.foldlRecOn rows _ holds_start fun gathered holds row _ => ?_
  rw [addTrap]
  split
  · exact holds
  · refine holds.report ⟨rfl, rfl, Nat.cast_nonneg _, fun critical => ?_⟩ List.not_mem_nil
    cases critical

theorem isFinding_of_mem_subdomains {metrics : PageMetricSet} {clicks rows : Nat}
    (mem : item ∈ subdomains unicode formats metrics clicks rows) :
    IsFinding .indexedSubdomain item := by
  obtain ⟨group, -, rfl⟩ := List.mem_map.mp mem
  exact ⟨rfl, rfl, Nat.cast_nonneg _, fun _ => rfl⟩

theorem siblings_spec {reported : List Text} {sitePages : Nat}
    (mem : item ∈ siblings formats entries minImpressions reported sitePages) :
    IsFinding .underperformingSibling item ∧ item.2.url ∉ reported := by
  obtain ⟨⟨path, members⟩, -, found⟩ := List.mem_flatMap.mp mem
  rw [siblingsOf] at found
  split at found
  · cases found
  · dsimp only at found
    split at found
    · cases found
    · split at found
      · cases found
      · obtain ⟨entry, kept, rfl⟩ := List.mem_map.mp found
        refine ⟨isFinding_opportunity .., fun listed => ?_⟩
        have passes := (List.mem_filter.mp kept).2
        rw [Bool.and_eq_true, Bool.not_eq_true', Bool.or_eq_false_iff, List.any_eq_false] at passes
        exact passes.1.2 _ listed (decide_eq_true rfl)

end Finders

section Score

variable (unicode : UnicodeData) (formats : Formats) (pages : List FullPageIntelligenceProfile)
  (metrics : PageMetricSet) (limitPerKind minClicks minImpressions : ℤ)

theorem scoreOpportunities_eq :
    scoreOpportunities unicode formats pages metrics limitPerKind minClicks minImpressions =
      ((answersOf unicode formats pages metrics minClicks minImpressions).foldl
        (Findings.add limitPerKind) {}).report limitPerKind := by
  rw [scoreOpportunities, answersOf]
  dsimp only
  split
  · rfl
  · by_cases usable : orphanShare pages ≤ maxOrphanShare
    · simp only [if_pos usable]
      rfl
    · simp only [if_neg usable]
      rfl

theorem keys_answersOf :
    ((answersOf unicode formats pages metrics minClicks minImpressions).map Prod.fst).Nodup := by
  rw [answersOf]
  dsimp only
  split
  · simp only [List.map_map]
    decide
  · simp only [List.map_cons, List.map_nil]
    decide

/-- The orphans, where the links are usable. -/
def orphansOf : Gathered :=
  if orphanShare pages ≤ maxOrphanShare then
    (measured pages metrics).foldl (addOrphan minClicks) {}
  else {}

def buriedOf : Gathered :=
  (measured pages metrics).foldl (addBuried minClicks)
    { reported := (orphansOf pages metrics minClicks).reported }

theorem holds_orphansOf : (orphansOf pages metrics minClicks).Holds .orphanWithTraffic [] := by
  rw [orphansOf]
  split
  · exact holds_orphans
  · exact holds_start

theorem candidatesOf_nil (kind : OpportunityKind) : candidatesOf [] kind = [] := rfl

theorem candidatesOf_cons (own : OpportunityKind) (answer : Except SignalGap (List Item))
    (answers : List Answer) (kind : OpportunityKind) :
    candidatesOf ((own, answer) :: answers) kind =
      (if own = kind then answer.toOption.getD [] else []) ++ candidatesOf answers kind := by
  rw [candidatesOf, List.filter_cons]
  split
  · next same =>
    rw [if_pos (of_decide_eq_true same)]
    rfl
  · next other =>
    rw [if_neg (fun same => other (decide_eq_true same))]
    rfl

variable {pages metrics minClicks} in
theorem candidates_spec {kind : OpportunityKind} {item : Item} (mem : item ∈ candidatesOf
      (answersOf unicode formats pages metrics minClicks minImpressions) kind) :
    IsFinding kind item ∧
      (kind = .orphanWithTraffic → item.2.url ∈ (orphansOf pages metrics minClicks).reported) ∧
      (kind = .buriedWithTraffic → item.2.url ∉ (orphansOf pages metrics minClicks).reported ∧
          item.2.url ∈ (buriedOf pages metrics minClicks).reported) ∧
      (kind = .underperformingSibling →
        item.2.url ∉ (buriedOf pages metrics minClicks).reported) := by
  rw [answersOf] at mem
  dsimp only at mem
  split at mem
  · have none : ∀ kind, candidatesOf
        (OpportunityKind.all.map fun kind => (kind, .error .noSearchData)) kind = [] := by
      intro kind
      cases kind with
      | _ => rfl
    rw [none] at mem
    cases mem
  · rw [← orphansOf, ← buriedOf] at mem
    cases kind with
    | orphanWithTraffic =>
      have holds := holds_orphansOf pages metrics minClicks
      simp only [candidatesOf_cons, candidatesOf_nil, reduceCtorEq, if_true, if_false,
        List.append_nil] at mem
      split at mem
      · exact ⟨holds.findings item mem, fun _ => holds.own item mem, by simp, by simp⟩
      · cases mem
    | buriedWithTraffic =>
      simp only [candidatesOf_cons, candidatesOf_nil, reduceCtorEq, if_true, if_false,
        List.nil_append, List.append_nil] at mem
      have holds : (buriedOf pages metrics minClicks).Holds .buriedWithTraffic _ := holds_buried
      exact ⟨holds.findings item mem, by simp,
        fun _ => ⟨holds.fresh item mem, holds.own item mem⟩, by simp⟩
    | indexedCrawlTrap =>
      simp only [candidatesOf_cons, candidatesOf_nil, reduceCtorEq, if_true, if_false,
        List.nil_append, List.append_nil] at mem
      exact ⟨(holds_traps _).findings item mem, by simp, by simp, by simp⟩
    | indexedSubdomain =>
      simp only [candidatesOf_cons, candidatesOf_nil, reduceCtorEq, if_true, if_false,
        List.nil_append, List.append_nil] at mem
      exact ⟨isFinding_of_mem_subdomains mem, by simp, by simp, by simp⟩
    | underperformingSibling =>
      simp only [candidatesOf_cons, candidatesOf_nil, reduceCtorEq, if_true, if_false,
        List.nil_append, List.append_nil] at mem
      split at mem
      · obtain ⟨finding, fresh⟩ := siblings_spec mem
        exact ⟨finding, by simp, by simp, fun _ => fresh⟩
      · cases mem

theorem allFindings_answersOf :
    AllFindings (answersOf unicode formats pages metrics minClicks minImpressions) := by
  intro answer mem item inside
  refine (candidates_spec unicode formats minImpressions (List.mem_flatMap.mpr
    ⟨answer, List.mem_filter.mpr ⟨mem, decide_eq_true rfl⟩, inside⟩)).1

theorem exclusive_candidates (kind kind' : OpportunityKind) (about : kind.isAboutPage = true)
    (about' : kind'.isAboutPage = true) (item : Item) (mem : item ∈ candidatesOf
      (answersOf unicode formats pages metrics minClicks minImpressions) kind)
    (item' : Item) (mem' : item' ∈ candidatesOf
      (answersOf unicode formats pages metrics minClicks minImpressions) kind')
    (same : item.2.url = item'.2.url) : kind = kind' := by
  obtain ⟨-, orphan, buried, sibling⟩ := candidates_spec unicode formats minImpressions mem
  obtain ⟨-, orphan', buried', sibling'⟩ := candidates_spec unicode formats minImpressions mem'
  have held : (buriedOf pages metrics minClicks).Holds .buriedWithTraffic
    (orphansOf pages metrics minClicks).reported := holds_buried
  rw [same] at orphan buried sibling
  cases kind with
  | indexedCrawlTrap => cases about
  | indexedSubdomain => cases about
  | orphanWithTraffic =>
    cases kind' with
    | indexedCrawlTrap => cases about'
    | indexedSubdomain => cases about'
    | orphanWithTraffic => rfl
    | buriedWithTraffic => exact absurd (orphan rfl) (buried' rfl).1
    | underperformingSibling => exact absurd (held.start _ (orphan rfl)) (sibling' rfl)
  | buriedWithTraffic =>
    cases kind' with
    | indexedCrawlTrap => cases about'
    | indexedSubdomain => cases about'
    | orphanWithTraffic => exact absurd (orphan' rfl) (buried rfl).1
    | buriedWithTraffic => rfl
    | underperformingSibling => exact absurd (buried rfl).2 (sibling' rfl)
  | underperformingSibling =>
    cases kind' with
    | indexedCrawlTrap => cases about'
    | indexedSubdomain => cases about'
    | orphanWithTraffic => exact absurd (held.start _ (orphan' rfl)) (sibling rfl)
    | buriedWithTraffic => exact absurd (buried' rfl).2 (sibling rfl)
    | underperformingSibling => rfl

variable (n : Nat) in
theorem exists_findings : ∃ findings,
    scoreOpportunities unicode formats pages metrics n minClicks minImpressions =
      .ok (reportOf n findings) ∧
    Recorded n (candidatesOf
      (answersOf unicode formats pages metrics minClicks minImpressions)) findings := by
  rw [scoreOpportunities_eq]
  exact ⟨_, report_natCast, (recorded_answers
    (keys_answersOf unicode formats pages metrics minClicks minImpressions)
    (allFindings_answersOf unicode formats pages metrics minClicks minImpressions)).1⟩

end Score

section Subdomains

theorem related_of_pairwise {α : Type*} {R : α → α → Prop} {l : List α} {a b : α}
    (pairwise : l.Pairwise R) (mem : a ∈ l) (mem' : b ∈ l) (apart : a ≠ b) : R a b ∨ R b a := by
  have related : l.Pairwise fun a b => R a b ∨ R b a := pairwise.imp Or.inl
  have : Std.Symm fun a b => R a b ∨ R b a := ⟨fun _ _ => Or.symm⟩
  exact related.forall mem mem' apart

def rowAt (url : String) (clicks : Nat) : GscPageMetrics where
  url := url.toList
  clicks
  impressions := 10
  position := 1

def failureAt (url : String) : UrlFailure where
  googleUrl := url.toList
  reason := .otherSubdomain

def homepage : FullPageIntelligenceProfile where
  url := "http://a.io/".toList
  canonicalUrl := "http://a.io/".toList
  inboundInternalLinksCount := 1

/-- Two subdomains that were not crawled: one with a click, one with three addresses. -/
def twoSubdomains : PageMetricSet where
  pages := Dict.alter Table.empty homepage.url
    { pageUrl := homepage.url, gsc := some (rowAt "http://a.io/" 1000), ga4 := none } id
  unattributed := { rows := 4, clicks := 1, impressions := 40 }
  unresolvedGsc := [rowAt "http://x.a.io/" 1, rowAt "http://y.a.io/1" 0,
    rowAt "http://y.a.io/2" 0, rowAt "http://y.a.io/3" 0]
  unresolvedGa4 := []
  gscResolution := {
    total := 200
    failures := ["http://x.a.io/", "http://y.a.io/1", "http://y.a.io/2",
      "http://y.a.io/3"].map failureAt }
  ga4Resolution := {}

def clicked : UnmatchedGroup where
  host := "x.a.io".toList
  reason := .otherSubdomain
  urls := 1
  clicks := 1
  impressions := 10
  examples := ["http://x.a.io/".toList]

def listed : UnmatchedGroup where
  host := "y.a.io".toList
  reason := .otherSubdomain
  urls := 3
  clicks := 0
  impressions := 30
  examples := ["http://y.a.io/1".toList, "http://y.a.io/2".toList, "http://y.a.io/3".toList]

theorem unmatchedGroups_twoSubdomains :
    unmatchedGroups UnicodeData.ascii twoSubdomains = [clicked, listed] := by decide

/-- The one position of the rows is 1, and the shares of the clicks are 1 of 1001 and none. -/
def sampleFormats : Formats where
  fixed1 _ := "1.0".toList
  percent1 share := if share = 0 then "0.0%".toList else "0.1%".toList

def routineItem : Item := (1, subdomain UnicodeData.ascii sampleFormats 1001 200 clicked)

def criticalItem : Item := (0, subdomain UnicodeData.ascii sampleFormats 1001 200 listed)

theorem candidates_twoSubdomains : candidatesOf
    (answersOf UnicodeData.ascii sampleFormats [homepage] twoSubdomains 1 100) .indexedSubdomain =
      [routineItem, criticalItem] := by
  have found : measured [homepage] twoSubdomains = [(homepage, rowAt "http://a.io/" 1000)] := rfl
  rw [answersOf, found]
  simp only [List.isEmpty_cons, Bool.false_eq_true, if_false, candidatesOf_cons, candidatesOf_nil,
    reduceCtorEq, if_true, List.nil_append, List.append_nil]
  change subdomains UnicodeData.ascii sampleFormats twoSubdomains 1001 200 = _
  rw [subdomains, unmatchedGroups_twoSubdomains, routineItem, criticalItem]
  have clicks : (clicked.clicks : ℚ) = 1 := Nat.cast_one
  have none : (listed.clicks : ℚ) = 0 := Nat.cast_zero
  rw [← clicks, ← none]
  rfl

theorem severity_routineItem : routineItem.2.severity = .routine := by
  refine if_neg ?_
  norm_num [shareOf, clicked, criticalSubdomainClickShare]

theorem severity_criticalItem : criticalItem.2.severity = .critical := by
  refine if_pos ?_
  norm_num [shareOf, listed, criticalSubdomainClickShare]

end Subdomains

end Rankuno.Opportunities
