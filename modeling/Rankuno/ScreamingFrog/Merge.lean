import Mathlib.Data.Rat.Defs
import Mathlib.Data.Rat.Cast.Order
import Rankuno.Placement.Placement
import Rankuno.ScreamingFrog.CrossCheck

/-!
# Merging what a crawl missed

`screaming_frog_merge.py`: the live pages that an export holds and a crawl lacks are
classified from their addresses alone, appended to the crawl's pages, and all of them are
placed again under the stored menu. Which pages are missing is decided on the keys of
`normalise`; a page is keyed by `normalize_url`.

The cascade that classifies a page and the parser of the menu are parameters.
-/

namespace Rankuno.FrogMerge

open Python Python.Text Python.Urllib UrlKeys Placement

/-- `ConsensusMethod`. -/
inductive ConsensusMethod where
  | layer0FastPath
  | layer1Structural
  | layer2LocalMl
  | layer3LlmFallback
  | weightedConsensus
  deriving DecidableEq

def llmFallbackConfidenceThreshold : ℚ := 85 / 100

/-- What a profile holds beside its place. -/
structure PageFacts (σ : Type) where
  normalizedPath : Text
  finalConfidenceScore : ℚ
  consensusMethod : ConsensusMethod
  inboundInternalLinksCount : Nat := 0
  discoverySources : DiscoverySource := {}
  others : σ

/-- A page of a crawl. -/
abbrev Page (σ : Type) := FullPageIntelligenceProfile (PageFacts σ)

/-- A row of the export, with the column the merge reads too. -/
structure ExportRow extends ScreamingFrogRow where
  uniqueInlinks : Nat := 0

/-- What is known of a page that only an export names. -/
structure PageEvidence where
  url : Text
  normalizedPath : Text
  inboundInternalLinks : Nat
  totalPagesInCrawl : Nat
  url_ne : url ≠ []
  normalizedPath_ne : normalizedPath ≠ []

/-- What the layers of the cascade settle about a page. -/
structure CascadeVerdict (σ : Type) where
  primaryPageType : PrimaryPageType
  finalConfidenceScore : ℚ
  consensusMethod : ConsensusMethod
  others : σ

structure CrawlSummary where
  pagesClassified : Nat := 0
  escalatedToLlm : Nat := 0
  escalationRate : ℚ := 0
  unknownPages : Nat := 0
  lowConfidencePages : Nat := 0
  orphanPages : Nat := 0
  llmSpendUsd : ℚ := 0

/-- A stored result. -/
structure CrawlResult (σ τ : Type) extends PageClassificationOutput (PageFacts σ) where
  orphans : Nat
  summary : CrawlSummary
  others : τ

structure MergeOutcome (σ τ : Type) where
  output : CrawlResult σ τ
  report : ReconciliationReport
  merged : Nat

/-- The pages only the export holds that the crawl should have found. -/
def missedPages (report : ReconciliationReport) : List Text :=
  (report.frogOnly.filter fun gap => gap.reason = .missedPage).map UrlGap.url

variable {σ τ : Type}

/-- `escalated_to_llm`. -/
def escalatedToLlm (page : Page σ) : Bool := page.facts.consensusMethod = .layer3LlmFallback

/-- `is_confidently_classified`. -/
def isConfidentlyClassified (page : Page σ) : Bool :=
  llmFallbackConfidenceThreshold ≤ page.facts.finalConfidenceScore &&
    page.primaryPageType ≠ .unknown

/-- `classify_page`, for evidence that has none of the page's own. -/
def classifyPage (cascade : PageEvidence → CascadeVerdict σ) (evidence : PageEvidence) :
    Page σ where
  url := evidence.url
  primaryPageType := (cascade evidence).primaryPageType
  facts := {
    normalizedPath := evidence.normalizedPath
    finalConfidenceScore := (cascade evidence).finalConfidenceScore
    consensusMethod := (cascade evidence).consensusMethod
    inboundInternalLinksCount := evidence.inboundInternalLinks
    others := (cascade evidence).others }

/-- `_resummarise`. -/
def resummarise (output : CrawlResult σ τ) : CrawlSummary :=
  let total := output.pages.length
  let escalated := output.pages.countP escalatedToLlm
  { pagesClassified := total
    escalatedToLlm := escalated
    escalationRate := if total = 0 then 0 else escalated / total
    unknownPages := output.pages.countP fun page => page.primaryPageType = .unknown
    lowConfidencePages := output.pages.countP fun page => !isConfidentlyClassified page
    orphanPages := output.orphans
    llmSpendUsd := output.summary.llmSpendUsd }

section Merge

variable (unicode : UnicodeData) (cascade : PageEvidence → CascadeVerdict σ)
  (parse : Text → Text → NavigationTree)

/-- `_profile_for`. -/
def profileFor (url : Text) (row : Option ExportRow) (totalPages : Nat) :
    Except ReconcileError (Page σ) :=
  if url_ne : url = [] then .error (.emptyField "url".toList)
  else if normalizedPath_ne : normalizeUrl unicode url = [] then
    .error (.emptyField "normalized_path".toList)
  else
    .ok (classifyPage cascade {
      url
      normalizedPath := normalizeUrl unicode url
      inboundInternalLinks := (row.map ExportRow.uniqueInlinks).getD 0
      totalPagesInCrawl := totalPages
      url_ne
      normalizedPath_ne })

/-- The sources of each URL of the crawl: of pages with one URL, those of the last. -/
def engineSources (pages : List (Page σ)) : List (Text × DiscoverySource) :=
  ((LastByKey.byKey FullPageIntelligenceProfile.url pages).rows.map Prod.snd).map fun page =>
    (page.url, page.facts.discoverySources)

def engineUrls (result : CrawlResult σ τ) : List Text := result.pages.map (·.url)

def frogRows (rows : List ExportRow) : List ScreamingFrogRow :=
  rows.map ExportRow.toScreamingFrogRow

/-- The comparison of the export with the crawl. -/
def crossCheck (result : CrawlResult σ τ) (rows : List ExportRow) (sourceFormat : ExportFormat) :
    Except ReconcileError ReconciliationReport :=
  reconcile unicode result.baseUrl (engineUrls result) (frogRows rows) sourceFormat
    (engineSources result.pages)

/-- The profiles of the pages to add. -/
def additionsFor (rows : List ExportRow) (missed : List Text) (totalAfter : Nat) :
    Except ReconcileError (List (Page σ)) :=
  let byKey := LastByKey.byKey (fun row : ExportRow => normalise unicode row.address) rows
  missed.mapM fun url =>
    profileFor unicode cascade url (byKey.get (normalise unicode url)) totalAfter

/-- The result with more pages that nothing has placed yet. -/
def combined (result : CrawlResult σ τ) (additions : List (Page σ)) :
    PageClassificationOutput (PageFacts σ) :=
  { result.toPageClassificationOutput with pages := result.pages ++ additions }

/-- The result with more pages, all of them placed again and counted. -/
def withPages (result : CrawlResult σ τ) (additions : List (Page σ)) : CrawlResult σ τ :=
  let merged := { result with
    toPageClassificationOutput := reparsePlacement parse unicode (combined result additions) none }
  { merged with summary := resummarise merged }

/-- `merge_reconciled_urls`, of an export that its loader has read. -/
def mergeReconciledUrls (result : CrawlResult σ τ) (rows : List ExportRow)
    (sourceFormat : ExportFormat) : Except ReconcileError (MergeOutcome σ τ) := do
  let report ← crossCheck unicode result rows sourceFormat
  if sourceFormat = .bareUrlList ∨ missedPages report = [] then
    return { output := result, report, merged := 0 }
  else
    let totalAfter := result.pages.length + (missedPages report).length
    let additions ← additionsFor unicode cascade rows (missedPages report) totalAfter
    return { output := withPages unicode parse result additions, report, merged := additions.length }

/-- The page, wherever a placement put it. -/
def SameButPlaced (page placed : Page σ) : Prop :=
  { placed with
    navParentUrl := page.navParentUrl
    breadcrumbPath := page.breadcrumbPath
    trailSource := page.trailSource } = page

/-- The keys the pages of a result are told apart by. -/
def pageKeys (result : CrawlResult σ τ) : List Text :=
  result.pages.map fun page => page.facts.normalizedPath

/-- The pages of the crawl and those it missed, each with a key of its own, and counted. -/
structure Merged (result : CrawlResult σ τ) (outcome : MergeOutcome σ τ) : Prop where
  pages : ∃ kept added, outcome.output.pages = kept ++ added ∧
    List.Forall₂ SameButPlaced result.pages kept ∧
    added.map (·.url) = missedPages outcome.report ∧ added.length = outcome.merged
  keys : (pageKeys outcome.output).Nodup
  counted : outcome.output.summary.pagesClassified = outcome.output.pages.length

/-- The merge adds each missing page once, and nothing when it is done again. -/
def MergesOnce (result : CrawlResult σ τ) (rows : List ExportRow) (sourceFormat : ExportFormat) :
    Prop :=
  ∃ outcome, mergeReconciledUrls unicode cascade parse result rows sourceFormat = .ok outcome ∧
    Merged result outcome ∧
    ∃ again, mergeReconciledUrls unicode cascade parse outcome.output rows sourceFormat =
        .ok again ∧
      again.merged = 0 ∧ again.output = outcome.output

/-- The row kept for its key is a page that the crawl lacks and should have found. -/
structure IsMissed (baseUrl : Text) (engineUrls : List Text) (frogRows : List ScreamingFrogRow)
    (row : ScreamingFrogRow) : Prop where
  kept : (frogByKey unicode frogRows).get (normalise unicode row.address) = some row
  lacks : Lacks unicode engineUrls row
  judged : ∃ base, urlsplit unicode baseUrl = .ok base ∧
    frogReason unicode row (siteHost unicode base.netloc) = .ok .missedPage

/-- The comparison can be made, both kinds of keys tell the missing pages apart, and a result
that stays as it is counts its pages. -/
structure Mergeable (result : CrawlResult σ τ) (rows : List ExportRow)
    (sourceFormat : ExportFormat) : Prop where
  judges : JudgesKept unicode result.baseUrl (engineUrls result) (frogRows rows) sourceFormat
  unheld : sourceFormat = .internalHtml → ∀ row,
    IsMissed unicode result.baseUrl (engineUrls result) (frogRows rows) row →
      normalizeUrl unicode row.address ∉ pageKeys result
  apart : sourceFormat = .internalHtml → ∀ row other,
    IsMissed unicode result.baseUrl (engineUrls result) (frogRows rows) row →
    IsMissed unicode result.baseUrl (engineUrls result) (frogRows rows) other →
      normalizeUrl unicode row.address = normalizeUrl unicode other.address →
        row.address = other.address
  counted : (sourceFormat = .internalHtml → ∀ row,
      ¬IsMissed unicode result.baseUrl (engineUrls result) (frogRows rows) row) →
    result.summary.pagesClassified = result.pages.length

end Merge

section Missed

variable {unicode : UnicodeData} {baseUrl : Text} {engineUrls : List Text}
  {frogRows : List ScreamingFrogRow} {sourceFormat : ExportFormat}
  {engineSources : List (Text × DiscoverySource)} {base : SplitResult} {loops : List Text}
  {r : ReconciliationReport}

theorem mem_missedPages {url : Text} : url ∈ missedPages r ↔
    ∃ gap ∈ r.frogOnly, gap.reason = .missedPage ∧ gap.url = url := by
  simp [missedPages, and_assoc]

theorem mem_missedPages_iff (h : Reports unicode baseUrl engineUrls frogRows .internalHtml
    engineSources base loops r) {url : Text} : url ∈ missedPages r ↔
      ∃ row, IsMissed unicode baseUrl engineUrls frogRows row ∧ row.address = url := by
  rw [mem_missedPages]
  constructor
  · rintro ⟨gap, mem, reason, rfl⟩
    obtain ⟨⟨k, row⟩, alone, ok⟩ := (mem_of_mapM_ok h.frogOnly).mp mem
    obtain ⟨held, lacks⟩ := mem_frogAlone.mp alone
    obtain ⟨-, rfl⟩ := LastByKey.mem_of_get held
    obtain ⟨address, verdict, -⟩ := frogGap_eq_ok ok
    exact ⟨row, ⟨held, lacks_iff.mpr lacks, base, h.split, reason ▸ verdict rfl⟩, address.symm⟩
  · rintro ⟨row, missed, rfl⟩
    obtain ⟨base', split, judged⟩ := missed.judged
    obtain rfl : base' = base := Except.ok.inj (split.symm.trans h.split)
    have alone := mem_frogAlone.mpr ⟨missed.kept, lacks_iff.mp missed.lacks⟩
    obtain ⟨gap, ok⟩ := exists_mapM_ok.mp ⟨_, h.frogOnly⟩ _ alone
    obtain ⟨address, verdict, -⟩ := frogGap_eq_ok ok
    exact ⟨gap, (mem_of_mapM_ok h.frogOnly).mpr ⟨_, alone, ok⟩,
      Except.ok.inj ((verdict rfl).symm.trans judged), address⟩

theorem nodup_missedPages (h : Reports unicode baseUrl engineUrls frogRows sourceFormat
    engineSources base loops r) : (missedPages r).Nodup := by
  have keys : ((r.frogOnly.map UrlGap.url).map (normalise unicode)).Nodup := by
    rw [h.frog_keys]
    exact nodup_sortedKeys
  exact keys.of_map.sublist (List.Sublist.map _ List.filter_sublist)

theorem missedPages_of_bare (h : Reports unicode baseUrl engineUrls frogRows .bareUrlList
    engineSources base loops r) : missedPages r = [] := by
  refine List.eq_nil_iff_forall_not_mem.mpr fun url mem => ?_
  obtain ⟨gap, listed, reason, -⟩ := mem_missedPages.mp mem
  obtain ⟨entry, -, ok⟩ := (mem_of_mapM_ok h.frogOnly).mp listed
  have unknown := (frogGap_eq_ok ok).2.2 rfl
  rw [reason] at unknown
  cases unknown

theorem judgesKept_append (h : Reports unicode baseUrl engineUrls frogRows .internalHtml
    engineSources base loops r)
    (judges : JudgesKept unicode baseUrl engineUrls frogRows .internalHtml) :
    JudgesKept unicode baseUrl (engineUrls ++ missedPages r) frogRows .internalHtml where
  base_ne := judges.base_ne
  base := judges.base
  rows row kept lacks := judges.rows row kept fun url mem =>
    lacks url (List.mem_append_left _ mem)
  urls url kept alone := by
    refine judges.urls url ?_ alone
    have added : (missedPages r).filter (fun other => normalise unicode other =
        normalise unicode url) = [] := by
      refine List.filter_eq_nil_iff.mpr fun other mem same => ?_
      obtain ⟨row, missed, rfl⟩ := (mem_missedPages_iff h).mp mem
      exact alone row (LastByKey.mem_of_get missed.kept).1 (of_decide_eq_true same)
    rw [engineByKey, LastByKey.get_byKey, List.filter_append, added, List.append_nil] at kept
    rw [engineByKey, LastByKey.get_byKey]
    exact kept

theorem missedPages_append {engineSources' : List (Text × DiscoverySource)} {base' : SplitResult}
    {loops' : List Text} {r' : ReconciliationReport}
    (h : Reports unicode baseUrl engineUrls frogRows .internalHtml engineSources base loops r)
    (h' : Reports unicode baseUrl (engineUrls ++ missedPages r) frogRows .internalHtml
      engineSources' base' loops' r') : missedPages r' = [] := by
  refine List.eq_nil_iff_forall_not_mem.mpr fun url mem => ?_
  obtain ⟨row, missed, rfl⟩ := (mem_missedPages_iff h').mp mem
  have lacks : Lacks unicode engineUrls row := fun url held =>
    missed.lacks url (List.mem_append_left _ held)
  have listed := (mem_missedPages_iff h).mpr ⟨row, ⟨missed.kept, lacks, missed.judged⟩, rfl⟩
  exact missed.lacks _ (List.mem_append_right _ listed) rfl

end Missed

section Additions

variable {unicode : UnicodeData} {cascade : PageEvidence → CascadeVerdict σ}

theorem urlunsplit_ne_nil {parts : SplitResult} (filled : parts.path ≠ []) :
    urlunsplit parts ≠ [] := by
  rw [urlunsplit]
  split_ifs <;> simp_all

theorem normalizeUrl_ne_nil (url : Text) : normalizeUrl unicode url ≠ [] := by
  cases split : safeSplit unicode url with
  | none =>
    rw [normalizeUrl_of_none split]
    intro blank
    rw [safeSplit, blank] at split
    cases split
  | some parts =>
    rw [normalizeUrl_of_safeSplit split]
    obtain ⟨tail, rooted, -⟩ := normalizePath_settled (orRoot parts.path)
    have filled : (keyParts unicode parts).path ≠ [] := by
      rw [keyParts]
      exact rooted ▸ List.cons_ne_nil _ _
    exact urlunsplit_ne_nil filled

theorem profileFor_eq_ok {url : Text} {row : Option ExportRow} {totalPages : Nat} {page : Page σ}
    (h : profileFor unicode cascade url row totalPages = .ok page) :
    page.url = url ∧ page.facts.normalizedPath = normalizeUrl unicode url := by
  rw [profileFor] at h
  split_ifs at h
  cases h
  exact ⟨rfl, rfl⟩

theorem exists_profileFor {url : Text} (filled : url ≠ []) (row : Option ExportRow)
    (totalPages : Nat) : ∃ page, profileFor unicode cascade url row totalPages = .ok page := by
  rw [profileFor, dif_neg filled, dif_neg (normalizeUrl_ne_nil url)]
  exact ⟨_, rfl⟩

variable {rows : List ExportRow} {missed : List Text} {totalAfter : Nat}

theorem exists_additionsFor (filled : ∀ url ∈ missed, url ≠ []) :
    ∃ additions, additionsFor unicode cascade rows missed totalAfter = .ok additions :=
  exists_mapM_ok.mpr fun url mem => exists_profileFor (filled url mem) _ totalAfter

theorem additionsFor_eq_ok {additions : List (Page σ)}
    (h : additionsFor unicode cascade rows missed totalAfter = .ok additions) :
    additions.map (·.url) = missed ∧ additions.map (fun page => page.facts.normalizedPath) =
        missed.map (normalizeUrl unicode) := by
  constructor
  · have urls : additions.map (·.url) = missed.map fun url => url :=
      map_of_mapM_ok (fun _ _ ok => (profileFor_eq_ok ok).1) h
    rw [urls, List.map_id']
  · exact map_of_mapM_ok (fun _ _ ok => (profileFor_eq_ok ok).2) h

end Additions

section Placed

variable {unicode : UnicodeData} {parse : Text → Text → NavigationTree}
  {result : CrawlResult σ τ} {additions : List (Page σ)}

theorem sameButPlaced_placePage {assignments : Dict Text NavAssignment} {page : Page σ} :
    SameButPlaced page (placePage assignments page) := by
  cases found : assignments.get page.url with
  | none =>
    rw [placePage_of_get_none found]
    rfl
  | some assignment =>
    rw [placePage_of_get found]
    rfl

theorem SameButPlaced.facts {page placed : Page σ} (same : SameButPlaced page placed) :
    placed.facts = page.facts := by
  rw [SameButPlaced] at same
  rw [← same]

variable (unicode parse result additions) in
theorem withPages_spec : (∃ assignments, (withPages unicode parse result additions).pages =
      (result.pages ++ additions).map (placePage assignments)) ∧
    (withPages unicode parse result additions).baseUrl = result.baseUrl ∧
    (withPages unicode parse result additions).summary.pagesClassified =
      (withPages unicode parse result additions).pages.length := by
  have stored : reparsePlacement parse unicode (combined result additions) none = _ :=
    reparsePlacement_stored rfl
  exact ⟨⟨_, congrArg (·.pages) stored⟩, congrArg (·.baseUrl) stored, rfl⟩

theorem pageKeys_withPages : pageKeys (withPages unicode parse result additions) =
    pageKeys result ++ additions.map fun page => page.facts.normalizedPath := by
  obtain ⟨⟨assignments, pages⟩, -, -⟩ := withPages_spec unicode parse result additions
  rw [pageKeys, pages, List.map_map, pageKeys, ← List.map_append]
  exact List.map_congr_left fun page _ => congrArg _ sameButPlaced_placePage.facts

theorem engineUrls_withPages : engineUrls (withPages unicode parse result additions) =
    engineUrls result ++ additions.map (·.url) := by
  obtain ⟨⟨assignments, pages⟩, -, -⟩ := withPages_spec unicode parse result additions
  rw [engineUrls, pages, List.map_map, engineUrls, ← List.map_append]
  exact List.map_congr_left fun page _ => placePage_url

theorem forall₂_sameButPlaced {assignments : Dict Text NavAssignment} (pages : List (Page σ)) :
    List.Forall₂ SameButPlaced pages (pages.map (placePage assignments)) := by
  rw [List.forall₂_map_right_iff]
  exact List.forall₂_same.mpr fun page _ => sameButPlaced_placePage

end Placed

section Merges

variable {unicode : UnicodeData} {cascade : PageEvidence → CascadeVerdict σ}
  {parse : Text → Text → NavigationTree} {result : CrawlResult σ τ} {rows : List ExportRow}
  {sourceFormat : ExportFormat} {report : ReconciliationReport} {outcome : MergeOutcome σ τ}

variable (cascade parse) in
theorem merge_of_nothing (checked : crossCheck unicode result rows sourceFormat = .ok report)
    (nothing : sourceFormat = .bareUrlList ∨ missedPages report = []) :
    mergeReconciledUrls unicode cascade parse result rows sourceFormat =
      .ok { output := result, report, merged := 0 } := by
  rw [mergeReconciledUrls, checked]
  exact if_pos nothing

variable (cascade parse) in
theorem merge_of_missed (checked : crossCheck unicode result rows sourceFormat = .ok report)
    (something : ¬(sourceFormat = .bareUrlList ∨ missedPages report = [])) :
    ∃ additions, additions.map (·.url) = missedPages report ∧
      additions.map (fun page => page.facts.normalizedPath) =
        (missedPages report).map (normalizeUrl unicode) ∧
      mergeReconciledUrls unicode cascade parse result rows sourceFormat =
        .ok { output := withPages unicode parse result additions
              report
              merged := additions.length } := by
  obtain ⟨base, loops, h⟩ := reconcile_eq_ok.mp checked
  have filled : ∀ url ∈ missedPages report, url ≠ [] := by
    intro url mem
    obtain ⟨gap, listed, -, rfl⟩ := mem_missedPages.mp mem
    obtain ⟨entry, -, ok⟩ := (mem_of_mapM_ok h.frogOnly).mp listed
    rw [(frogGap_eq_ok ok).1]
    exact entry.2.address_ne
  obtain ⟨additions, added⟩ : ∃ additions, additionsFor unicode cascade rows (missedPages report)
      (result.pages.length + (missedPages report).length) = .ok additions :=
    exists_additionsFor filled
  obtain ⟨urls, keys⟩ := additionsFor_eq_ok added
  refine ⟨additions, urls, keys, ?_⟩
  rw [mergeReconciledUrls, checked]
  refine (if_neg something).trans ?_
  rw [added]
  rfl

theorem exists_crossCheck (ok : mergeReconciledUrls unicode cascade parse result rows sourceFormat =
    .ok outcome) : ∃ report, crossCheck unicode result rows sourceFormat = .ok report :=
  (bind_eq_ok.mp ok).imp fun _ => And.left

theorem nothing_iff (checked : crossCheck unicode result rows sourceFormat = .ok report) :
    sourceFormat = .bareUrlList ∨ missedPages report = [] ↔ (sourceFormat = .internalHtml → ∀ row,
        ¬IsMissed unicode result.baseUrl (engineUrls result) (frogRows rows) row) := by
  obtain ⟨base, loops, h⟩ := reconcile_eq_ok.mp checked
  cases sourceFormat with
  | bareUrlList => simp
  | internalHtml =>
    rw [List.eq_nil_iff_forall_not_mem]
    simp only [mem_missedPages_iff h]
    simp

theorem nodup_merged_iff (distinct : (pageKeys result).Nodup)
    (checked : crossCheck unicode result rows .internalHtml = .ok report) :
    (pageKeys result ++ (missedPages report).map (normalizeUrl unicode)).Nodup ↔
      (∀ row, IsMissed unicode result.baseUrl (engineUrls result) (frogRows rows) row →
        normalizeUrl unicode row.address ∉ pageKeys result) ∧
      ∀ row other, IsMissed unicode result.baseUrl (engineUrls result) (frogRows rows) row →
        IsMissed unicode result.baseUrl (engineUrls result) (frogRows rows) other →
          normalizeUrl unicode row.address = normalizeUrl unicode other.address →
            row.address = other.address := by
  obtain ⟨base, loops, h⟩ := reconcile_eq_ok.mp checked
  rw [List.nodup_append]
  constructor
  · rintro ⟨-, inside, disjoint⟩
    constructor
    · intro row missed held
      have added := (mem_missedPages_iff h).mpr ⟨row, missed, rfl⟩
      exact disjoint _ held _ (List.mem_map_of_mem added) rfl
    · intro row other missed missed' same
      exact List.inj_on_of_nodup_map inside ((mem_missedPages_iff h).mpr ⟨row, missed, rfl⟩)
        ((mem_missedPages_iff h).mpr ⟨other, missed', rfl⟩) same
  · rintro ⟨unheld, apart⟩
    refine ⟨distinct, (nodup_missedPages h).map_on ?_, ?_⟩
    · intro url mem url' mem' same
      obtain ⟨row, missed, rfl⟩ := (mem_missedPages_iff h).mp mem
      obtain ⟨other, missed', rfl⟩ := (mem_missedPages_iff h).mp mem'
      exact apart row other missed missed' same
    · rintro key held key' added rfl
      obtain ⟨url, mem, rfl⟩ := List.mem_map.mp added
      obtain ⟨row, missed, rfl⟩ := (mem_missedPages_iff h).mp mem
      exact unheld row missed held

variable (cascade parse) in
theorem merge_again {additions : List (Page σ)}
    (checked : crossCheck unicode result rows .internalHtml = .ok report)
    (urls : additions.map (·.url) = missedPages report) :
    ∃ report', mergeReconciledUrls unicode cascade parse (withPages unicode parse result additions)
        rows .internalHtml =
      .ok { output := withPages unicode parse result additions, report := report', merged := 0 } := by
  obtain ⟨base, loops, h⟩ := reconcile_eq_ok.mp checked
  obtain ⟨-, baseUrl, -⟩ := withPages_spec unicode parse result additions
  have crawl : engineUrls (withPages unicode parse result additions) =
      engineUrls result ++ missedPages report := by
    rw [engineUrls_withPages, urls]
  have judges := judgesKept_append h (exists_reconcile_iff_judgesKept.mp ⟨report, checked⟩)
  rw [← crawl, ← baseUrl] at judges
  obtain ⟨report', checked'⟩ := exists_reconcile_iff_judgesKept.mpr judges
  obtain ⟨base', loops', h'⟩ := reconcile_eq_ok.mp checked'
  refine ⟨report', merge_of_nothing cascade parse checked' (Or.inr ?_)⟩
  rw [crawl, baseUrl] at h'
  exact missedPages_append h h'

theorem Mergeable.mergesOnce (distinct : (pageKeys result).Nodup)
    (h : Mergeable unicode result rows sourceFormat) :
    MergesOnce unicode cascade parse result rows sourceFormat := by
  obtain ⟨report, checked⟩ : ∃ report, crossCheck unicode result rows sourceFormat = .ok report :=
    exists_reconcile_iff_judgesKept.mpr h.judges
  by_cases nothing : sourceFormat = .bareUrlList ∨ missedPages report = []
  · have unchanged := merge_of_nothing cascade parse checked nothing
    have unfound : missedPages report = [] := by
      obtain ⟨base, loops, reports⟩ := reconcile_eq_ok.mp checked
      refine nothing.elim ?_ id
      rintro rfl
      exact missedPages_of_bare reports
    refine ⟨_, unchanged, ⟨⟨result.pages, [], (List.append_nil _).symm, ?_, unfound.symm, rfl⟩,
      distinct, h.counted ((nothing_iff checked).mp nothing)⟩, _, unchanged, rfl, rfl⟩
    exact List.forall₂_same.mpr fun page _ => rfl
  · obtain ⟨additions, urls, keys, merged⟩ := merge_of_missed cascade parse
      checked nothing
    obtain rfl : sourceFormat = .internalHtml := by
      cases sourceFormat with
      | internalHtml => rfl
      | bareUrlList => exact absurd (Or.inl rfl) nothing
    obtain ⟨⟨assignments, pages⟩, -, counted⟩ := withPages_spec unicode parse result additions
    obtain ⟨report', again⟩ := merge_again cascade parse checked urls
    refine ⟨_, merged, ⟨⟨_, _, pages.trans List.map_append, forall₂_sameButPlaced _, ?_, ?_⟩, ?_,
      counted⟩, _, again, rfl, rfl⟩
    · rw [List.map_map, ← urls]
      exact List.map_congr_left fun page _ => placePage_url
    · exact List.length_map _
    · rw [pageKeys_withPages, keys]
      exact (nodup_merged_iff distinct checked).mpr ⟨h.unheld rfl, h.apart rfl⟩

theorem MergesOnce.mergeable (distinct : (pageKeys result).Nodup)
    (h : MergesOnce unicode cascade parse result rows sourceFormat) :
    Mergeable unicode result rows sourceFormat := by
  obtain ⟨outcome, ok, merged, -⟩ := h
  obtain ⟨report, checked⟩ := exists_crossCheck ok
  have judges := exists_reconcile_iff_judgesKept.mp ⟨report, checked⟩
  by_cases nothing : sourceFormat = .bareUrlList ∨ missedPages report = []
  · rw [merge_of_nothing cascade parse checked nothing] at ok
    cases ok
    have found := (nothing_iff checked).mp nothing
    exact ⟨judges, fun full row missed => absurd missed (found full row),
      fun full row _ missed => absurd missed (found full row), fun _ => merged.counted⟩
  · obtain ⟨additions, urls, keys, same⟩ := merge_of_missed cascade parse
      checked nothing
    rw [same] at ok
    cases ok
    obtain rfl : sourceFormat = .internalHtml := by
      cases sourceFormat with
      | internalHtml => rfl
      | bareUrlList => exact absurd (Or.inl rfl) nothing
    have apart := merged.keys
    rw [pageKeys_withPages, keys, nodup_merged_iff distinct checked] at apart
    exact ⟨judges, fun _ => apart.1, fun _ => apart.2, fun found =>
      absurd ((nothing_iff checked).mpr found) nothing⟩

/-- **A merge adds each missing page once exactly when the two kinds of keys agree on the
missing pages**, of a comparison that can be made and a result that counts its pages. -/
theorem mergesOnce_iff_mergeable (unicode : UnicodeData)
    (cascade : PageEvidence → CascadeVerdict σ) (parse : Text → Text → NavigationTree)
    (result : CrawlResult σ τ) (rows : List ExportRow) (sourceFormat : ExportFormat)
    (distinct : (pageKeys result).Nodup) :
    MergesOnce unicode cascade parse result rows sourceFormat ↔
      Mergeable unicode result rows sourceFormat :=
  ⟨MergesOnce.mergeable distinct, Mergeable.mergesOnce distinct⟩

end Merges

section Sample

open UrlSafetyPolicy (asciiData)

/-- A cascade that settles nothing. -/
def unresolved (_ : PageEvidence) : CascadeVerdict Unit where
  primaryPageType := .unknown
  finalConfidenceScore := 0
  consensusMethod := .weightedConsensus
  others := ()

def noMenu (_ _ : Text) : NavigationTree := {}

/-- A page of the crawl. -/
def crawledPage : Page Unit where
  url := "https://a.co/p".toList
  primaryPageType := .blogArticle
  facts := {
    normalizedPath := "https://a.co/p/".toList
    finalConfidenceScore := 1
    consensusMethod := .layer0FastPath
    others := () }

/-- A crawl of one page. -/
def smallCrawl : CrawlResult Unit Unit where
  baseUrl := "https://a.co/".toList
  navigation := {}
  navCoverage := {}
  pages := [crawledPage]
  orphans := 0
  summary := { pagesClassified := 1 }
  others := ()

/-- A live page of the site. -/
def exportRow (address : Text) (address_ne : address ≠ []) : ExportRow where
  address
  statusCode := 200
  indexability := "Indexable".toList
  address_ne

def trackedRow : ExportRow := exportRow "https://a.co/p?utm_source=x".toList (by decide)

def missingRow : ExportRow := exportRow "https://a.co/q".toList (by decide)

theorem smallCrawl_distinct : (pageKeys smallCrawl).Nodup := List.nodup_singleton _

theorem missing_page_added :
    MergesOnce asciiData unresolved noMenu smallCrawl [missingRow] .internalHtml := by
  have only {row : ScreamingFrogRow} (missed : IsMissed asciiData smallCrawl.baseUrl
      (engineUrls smallCrawl) (frogRows [missingRow]) row) :
      row = missingRow.toScreamingFrogRow :=
    List.mem_singleton.mp (LastByKey.mem_of_get missed.kept).1
  have judges : Judges asciiData smallCrawl.baseUrl (engineUrls smallCrawl)
      (frogRows [missingRow]) .internalHtml := by
    refine ⟨by decide, ⟨⟨"https".toList, "a.co".toList, "/".toList, [], []⟩, by decide⟩, ?_, ?_⟩
    · intro row listed _
      obtain rfl := List.mem_singleton.mp listed
      exact Or.inl ⟨⟨"https".toList, "a.co".toList, "/q".toList, [], []⟩, by decide⟩
    · intro url listed _
      obtain rfl := List.mem_singleton.mp listed
      exact ⟨by decide, ⟨"https".toList, "a.co".toList, "/p".toList, [], []⟩, by decide⟩
  refine (mergesOnce_iff_mergeable _ _ _ _ _ _ smallCrawl_distinct).mpr
    ⟨judges.judgesKept, fun _ row missed => ?_, fun _ row other missed missed' _ => ?_,
      fun _ => rfl⟩
  · rw [only missed]
    decide
  · rw [only missed, only missed']

/-- The tracked address of a crawled page is added as a page of its own, under the same key. -/
theorem tracked_page_added_twice : (pageKeys smallCrawl).Nodup ∧
      ¬MergesOnce asciiData unresolved noMenu smallCrawl [trackedRow] .internalHtml := by
  refine ⟨smallCrawl_distinct, fun merges => ?_⟩
  have mergeable := merges.mergeable smallCrawl_distinct
  refine mergeable.unheld rfl trackedRow.toScreamingFrogRow ⟨?_, ?_, ?_⟩ ?_
  · decide
  · intro url listed
    obtain rfl := List.mem_singleton.mp listed
    decide
  · exact ⟨⟨"https".toList, "a.co".toList, "/".toList, [], []⟩, by decide⟩
  · decide

end Sample

end Rankuno.FrogMerge
