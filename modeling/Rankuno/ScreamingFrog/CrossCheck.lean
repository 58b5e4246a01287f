import Rankuno.ScreamingFrog.Reconciler
import Rankuno.UrlSafety.Rebuilt

/-!
# The cross-check and the order of its rows

Whatever the inputs, a report splits the keys of both sides into those of both and those
of one. Which rows and URLs it judges depends on their order, so its reasons stand apart
from the order exactly when the rows and URLs of one key are judged alike.
-/

namespace Rankuno

open Python Python.Text Python.Urllib UrlKeys

section Lists

variable {α β ε : Type} {f : α → Except ε β} {xs : List α} {ys : List β}

theorem exists_mapM_ok : (∃ ys, xs.mapM f = .ok ys) ↔ ∀ x ∈ xs, ∃ y, f x = .ok y := by
  induction xs with
  | nil => simp [Pure.pure, Except.pure]
  | cons x xs ih =>
    rw [List.forall_mem_cons, ← ih]
    simp only [List.mapM_cons, bind_eq_ok]
    constructor
    · rintro ⟨ys, y, first, zs, rest, -⟩
      exact ⟨⟨y, first⟩, zs, rest⟩
    · rintro ⟨⟨y, first⟩, zs, rest⟩
      exact ⟨y :: zs, y, first, zs, rest, rfl⟩

theorem mem_of_mapM_ok (h : xs.mapM f = .ok ys) {y : β} : y ∈ ys ↔ ∃ x ∈ xs, f x = .ok y := by
  induction xs generalizing ys with
  | nil =>
    cases h
    simp
  | cons x xs ih =>
    simp only [List.mapM_cons, bind_eq_ok] at h
    obtain ⟨z, first, zs, rest, same⟩ := h
    cases same
    rw [List.mem_cons, List.exists_mem_cons_iff, ← ih rest, first]
    simp [eq_comm]

theorem map_of_mapM_ok {γ : Type} {g : β → γ} {k : α → γ}
    (keeps : ∀ x y, f x = .ok y → g y = k x) (h : xs.mapM f = .ok ys) :
    ys.map g = xs.map k := by
  induction xs generalizing ys with
  | nil =>
    cases h
    rfl
  | cons x xs ih =>
    simp only [List.mapM_cons, bind_eq_ok] at h
    obtain ⟨z, first, zs, rest, same⟩ := h
    cases same
    rw [List.map_cons, List.map_cons, keeps x z first, ih rest]

end Lists

section Entries

variable {ν : Type} {d : Dict Text ν} {p : Text → Bool} {k : Text} {v : ν}

theorem mem_sortedKeys : k ∈ sortedKeys d p ↔ (d.get k).isSome ∧ p k = true := by
  rw [sortedKeys, List.mem_insertionSort, List.mem_filter, Option.isSome_iff_exists]
  simp only [List.mem_map, Dict.get_eq_some]
  constructor
  · rintro ⟨⟨⟨k, v⟩, mem, rfl⟩, passes⟩
    exact ⟨⟨v, mem⟩, passes⟩
  · rintro ⟨⟨v, mem⟩, passes⟩
    exact ⟨⟨(k, v), mem, rfl⟩, passes⟩

theorem nodup_sortedKeys : (sortedKeys d p).Nodup := by
  rw [sortedKeys, (List.perm_insertionSort _ _).nodup_iff]
  exact d.keys_nodup.filter _

theorem mem_entriesOf : (k, v) ∈ entriesOf d p ↔ d.get k = some v ∧ p k = true := by
  simp only [entriesOf, List.mem_filterMap, mem_sortedKeys, Option.map_eq_some_iff]
  constructor
  · rintro ⟨key, ⟨-, passes⟩, value, found, same⟩
    cases same
    exact ⟨found, passes⟩
  · rintro ⟨found, passes⟩
    exact ⟨k, ⟨by rw [found]; rfl, passes⟩, v, found, rfl⟩

theorem map_fst_entriesOf : (entriesOf d p).map Prod.fst = sortedKeys d p := by
  have found : ∀ k ∈ sortedKeys d p, (d.get k).isSome := fun k mem => (mem_sortedKeys.mp mem).1
  rw [entriesOf]
  generalize sortedKeys d p = keys at found
  induction keys with
  | nil => rfl
  | cons k keys ih =>
    obtain ⟨v, held⟩ := Option.isSome_iff_exists.mp (found k List.mem_cons_self)
    rw [List.filterMap_cons, held]
    simp only [Option.map_some, List.map_cons]
    rw [ih fun k mem => found k (List.mem_cons_of_mem _ mem)]

end Entries

variable (unicode : UnicodeData)

/-- The row is a live page of the site that may be indexed. -/
def IsLivePage (baseUrl : Text) (row : ScreamingFrogRow) : Prop :=
  ∃ base parts, urlsplit unicode baseUrl = .ok base ∧ urlsplit unicode row.address = .ok parts ∧
    siteHost unicode parts.netloc = siteHost unicode base.netloc ∧ row.statusCode = 200 ∧
    endsWithAny nonPageSuffixes (unicode.lower parts.path) = false ∧
    isSpiderTrap unicode row.address = false ∧
    (row.indexability = [] ∨ unicode.lower (strip isSpace row.indexability) = "indexable".toList)

/-- No URL of the crawl has the key of the row. -/
def Lacks (engineUrls : List Text) (row : ScreamingFrogRow) : Prop :=
  ∀ url ∈ engineUrls, normalise unicode url ≠ normalise unicode row.address

/-- A report that splits the keys of both sides, and misses no live page. -/
structure Reconciled (baseUrl : Text) (engineUrls : List Text)
    (frogRows : List ScreamingFrogRow) (sourceFormat : ExportFormat)
    (report : ReconciliationReport) : Prop where
  engine_nodup : ((report.inBothUrls ++ report.engineOnly.map UrlGap.url).map
    (normalise unicode)).Nodup
  engine_keys : ∀ k, k ∈ (report.inBothUrls ++ report.engineOnly.map UrlGap.url).map
    (normalise unicode) ↔ ∃ url ∈ engineUrls, normalise unicode url = k
  frog_nodup : ((report.inBothUrls ++ report.frogOnly.map UrlGap.url).map
    (normalise unicode)).Nodup
  frog_keys : ∀ k, k ∈ (report.inBothUrls ++ report.frogOnly.map UrlGap.url).map
    (normalise unicode) ↔ ∃ row ∈ frogRows, normalise unicode row.address = k
  in_both : report.inBoth = report.inBothUrls.length
  frog_sum : (report.frogReasons.rows.map Prod.snd).sum = report.frogOnly.length
  engine_sum : (report.engineReasons.rows.map Prod.snd).sum = report.engineOnly.length
  missed : sourceFormat = .internalHtml → ∀ row ∈ frogRows, Lacks unicode engineUrls row →
    IsLivePage unicode baseUrl row → ∃ gap ∈ report.frogOnly,
      normalise unicode gap.url = normalise unicode row.address ∧ gap.reason = .missedPage

/-- Two reports put every key into the same part, with the same reason. -/
structure SameVerdicts (r r' : ReconciliationReport) : Prop where
  both : ∀ k, k ∈ r.inBothUrls.map (normalise unicode) ↔ k ∈ r'.inBothUrls.map (normalise unicode)
  frog : ∀ k reason, (∃ gap ∈ r.frogOnly, normalise unicode gap.url = k ∧ gap.reason = reason) ↔
      ∃ gap ∈ r'.frogOnly, normalise unicode gap.url = k ∧ gap.reason = reason
  engine : ∀ k reason, (∃ gap ∈ r.engineOnly, normalise unicode gap.url = k ∧ gap.reason = reason) ↔
      ∃ gap ∈ r'.engineOnly, normalise unicode gap.url = k ∧ gap.reason = reason

/-- The cross-check ends in a report, and in one with the same verdicts whatever the
order of its inputs. -/
def CrossChecks (baseUrl : Text) (engineUrls : List Text) (frogRows : List ScreamingFrogRow)
    (sourceFormat : ExportFormat) (engineSources : List (Text × DiscoverySource)) : Prop :=
  ∃ r, reconcile unicode baseUrl engineUrls frogRows sourceFormat engineSources = .ok r ∧
    Reconciled unicode baseUrl engineUrls frogRows sourceFormat r ∧
    ∀ urls rows, urls.Perm engineUrls → rows.Perm frogRows →
      ∃ r', reconcile unicode baseUrl urls rows sourceFormat engineSources = .ok r' ∧
        SameVerdicts unicode r r'

section Condition

/-- `urlsplit` reads the URL. -/
def Splits (url : Text) : Prop := ∃ parts, urlsplit unicode url = .ok parts

/-- The row can be judged: `urlsplit` reads its address, or that of a bare list looks
corrupted as it stands. -/
def Judgeable (sourceFormat : ExportFormat) (row : ScreamingFrogRow) : Prop :=
  Splits unicode row.address ∨ sourceFormat = .bareUrlList ∧ looksCorrupted row.address = true

/-- The rows with one key are judged alike. -/
def RowsAlike (baseUrl : Text) (engineUrls : List Text) (frogRows : List ScreamingFrogRow) : Prop :=
  ∀ base, urlsplit unicode baseUrl = .ok base → ∀ row ∈ frogRows, ∀ other ∈ frogRows,
    Lacks unicode engineUrls row → normalise unicode other.address = normalise unicode row.address →
    frogReason unicode row (siteHost unicode base.netloc) =
      frogReason unicode other (siteHost unicode base.netloc)

/-- Whichever URL is taken for each key the export lacks, the keys are judged alike. -/
def UrlsAlike (engineUrls : List Text) (frogRows : List ScreamingFrogRow)
    (sources : Dict Text DiscoverySource) : Prop :=
  ∀ pick pick', LastByKey.Picks (normalise unicode) engineUrls pick →
    LastByKey.Picks (normalise unicode) engineUrls pick' →
    ∀ loops loops', repeatedTails unicode
        (((engineAlone unicode engineUrls frogRows).map Prod.fst).filterMap pick) = .ok loops →
      repeatedTails unicode
        (((engineAlone unicode engineUrls frogRows).map Prod.fst).filterMap pick') = .ok loops' →
      ∀ k ∈ (engineAlone unicode engineUrls frogRows).map Prod.fst, ∀ url url',
        pick k = some url → pick' k = some url' →
        engineReason unicode url loops (sources.get k) =
          engineReason unicode url' loops' (sources.get k)

/-- What one side lacks can be judged. -/
structure Judges (baseUrl : Text) (engineUrls : List Text)
    (frogRows : List ScreamingFrogRow) (sourceFormat : ExportFormat) : Prop where
  base_ne : baseUrl ≠ []
  base : Splits unicode baseUrl
  rows : ∀ row ∈ frogRows, Lacks unicode engineUrls row → Judgeable unicode sourceFormat row
  urls : ∀ url ∈ engineUrls,
    (∀ row ∈ frogRows, normalise unicode row.address ≠ normalise unicode url) →
    url ≠ [] ∧ Splits unicode url

/-- Of what one side lacks, the row and the URL that each key keeps can be judged. -/
structure JudgesKept (baseUrl : Text) (engineUrls : List Text)
    (frogRows : List ScreamingFrogRow) (sourceFormat : ExportFormat) : Prop where
  base_ne : baseUrl ≠ []
  base : Splits unicode baseUrl
  rows : ∀ row, (frogByKey unicode frogRows).get (normalise unicode row.address) = some row →
    Lacks unicode engineUrls row → Judgeable unicode sourceFormat row
  urls : ∀ url, (engineByKey unicode engineUrls).get (normalise unicode url) = some url →
    (∀ row ∈ frogRows, normalise unicode row.address ≠ normalise unicode url) →
    url ≠ [] ∧ Splits unicode url

/-- What one side lacks can be judged, and the same way for all that is folded together. -/
structure FoldsAlike (baseUrl : Text) (engineUrls : List Text)
    (frogRows : List ScreamingFrogRow) (sourceFormat : ExportFormat)
    (engineSources : List (Text × DiscoverySource)) : Prop
    extends Judges unicode baseUrl engineUrls frogRows sourceFormat where
  rows_alike : sourceFormat = .internalHtml → RowsAlike unicode baseUrl engineUrls frogRows
  urls_alike : UrlsAlike unicode engineUrls frogRows (sourcesByKey unicode engineSources)

end Condition

section Judging

variable {unicode} {url : Text} {row : ScreamingFrogRow} {baseHost : Text}

theorem splitOrRaise_eq_ok {parts : SplitResult} :
    splitOrRaise unicode url = .ok parts ↔ urlsplit unicode url = .ok parts := by
  rw [splitOrRaise]
  cases urlsplit unicode url with
  | error e =>
    constructor
    · intro h
      cases h
    · intro h
      cases h
  | ok parts =>
    constructor
    · intro h
      cases h
      rfl
    · intro h
      cases h
      rfl

theorem splitOrRaise_of_not (unread : ¬Splits unicode url) :
    ∃ e, splitOrRaise unicode url = .error e := by
  cases split : splitOrRaise unicode url with
  | error e => exact ⟨e, rfl⟩
  | ok parts => exact absurd ⟨parts, splitOrRaise_eq_ok.mp split⟩ unread

theorem exists_map_splitOrRaise {ρ : Type} (judge : SplitResult → ρ) :
    (∃ reason, (splitOrRaise unicode url).map judge = .ok reason) ↔ Splits unicode url := by
  constructor
  · rintro ⟨reason, h⟩
    by_contra unread
    obtain ⟨e, split⟩ := splitOrRaise_of_not unread
    rw [split] at h
    cases h
  · rintro ⟨parts, split⟩
    rw [splitOrRaise_eq_ok.mpr split]
    exact ⟨judge parts, rfl⟩

theorem exists_defaulterCategory : (∃ category, defaulterCategory unicode url = .ok category) ↔
      Splits unicode url ∨ looksCorrupted url = true := by
  constructor
  · rintro ⟨category, h⟩
    by_contra unread
    rw [not_or] at unread
    obtain ⟨e, split⟩ := splitOrRaise_of_not unread.1
    rw [defaulterCategory, isCorruptedUrl, if_neg unread.2, split] at h
    cases h
  · intro readable
    have decided : ∃ corrupted, isCorruptedUrl unicode url = .ok corrupted := by
      rw [isCorruptedUrl]
      split
      · exact ⟨true, rfl⟩
      · next plain => exact (exists_map_splitOrRaise _).mpr (readable.resolve_right plain)
    obtain ⟨corrupted, known⟩ := decided
    simp only [defaulterCategory, bind_eq_ok, known]
    cases corrupted with
    | true => exact ⟨_, true, rfl, rfl⟩
    | false =>
      have splits : Splits unicode url := by
        refine readable.resolve_right fun corrupted => ?_
        rw [isCorruptedUrl, if_pos corrupted] at known
        cases known
      obtain ⟨category, ok⟩ := (exists_map_splitOrRaise
        fun parts => pathCategory (unicode.lower parts.path)).mpr splits
      exact ⟨category, false, rfl, ok⟩

theorem exists_frogGap {sourceFormat : ExportFormat} :
    (∃ gap, frogGap unicode sourceFormat baseHost row = .ok gap) ↔
      Judgeable unicode sourceFormat row := by
  cases sourceFormat with
  | internalHtml =>
    have bare : Judgeable unicode .internalHtml row ↔ Splits unicode row.address := by
      simp [Judgeable]
    rw [bare, ← exists_map_splitOrRaise (frogReasonOf unicode row baseHost)]
    simp only [frogGap, bind_eq_ok]
    constructor
    · rintro ⟨gap, reason, ok, -⟩
      exact ⟨reason, ok⟩
    · rintro ⟨reason, ok⟩
      exact ⟨_, reason, ok, rfl⟩
  | bareUrlList =>
    have bare : Judgeable unicode .bareUrlList row ↔
        Splits unicode row.address ∨ looksCorrupted row.address = true := by
      simp [Judgeable]
    rw [bare, ← exists_defaulterCategory]
    simp only [frogGap, bind_eq_ok]
    constructor
    · rintro ⟨gap, category, ok, -⟩
      exact ⟨category, ok⟩
    · rintro ⟨category, ok⟩
      exact ⟨_, category, ok, rfl⟩

theorem frogGap_eq_ok {sourceFormat : ExportFormat} {gap : UrlGap FrogGapReason}
    (h : frogGap unicode sourceFormat baseHost row = .ok gap) :
    gap.url = row.address ∧
      (sourceFormat = .internalHtml → frogReason unicode row baseHost = .ok gap.reason) ∧
      (sourceFormat = .bareUrlList → gap.reason = .unknown) := by
  cases sourceFormat with
  | internalHtml =>
    simp only [frogGap, bind_eq_ok] at h
    obtain ⟨reason, ok, same⟩ := h
    cases same
    exact ⟨rfl, fun _ => ok, fun bare => by cases bare⟩
  | bareUrlList =>
    simp only [frogGap, bind_eq_ok] at h
    obtain ⟨category, ok, same⟩ := h
    cases same
    exact ⟨rfl, (fun full => by cases full), fun _ => rfl⟩

variable {loops : List Text} {sources : Option DiscoverySource}

theorem engineGap_eq_ok {gap : UrlGap EngineGapReason}
    (h : engineGap unicode loops sources url = .ok gap) :
    gap.url = url ∧ engineReason unicode url loops sources = .ok gap.reason ∧ url ≠ [] := by
  simp only [engineGap, bind_eq_ok] at h
  obtain ⟨reason, ok, same⟩ := h
  split at same
  · cases same
  · next filled =>
    cases same
    exact ⟨rfl, ok, filled⟩

theorem exists_engineGap (loops : List Text) (sources : Option DiscoverySource)
    (splits : Splits unicode url) (filled : url ≠ []) :
    ∃ gap, engineGap unicode loops sources url = .ok gap := by
  have judged : ∃ reason, engineReason unicode url loops sources = .ok reason := by
    rw [engineReason]
    split
    · exact ⟨_, rfl⟩
    · exact (exists_map_splitOrRaise _).mpr splits
  obtain ⟨reason, ok⟩ := judged
  refine ⟨{ url, reason }, ?_⟩
  rw [engineGap, ok]
  exact if_neg filled

theorem exists_repeatedTails {urls : List Text} :
    (∃ loops, repeatedTails unicode urls = .ok loops) ↔ ∀ url ∈ urls, Splits unicode url := by
  simp only [repeatedTails, bind_eq_ok, Splits, ← splitOrRaise_eq_ok]
  rw [← exists_mapM_ok]
  constructor
  · rintro ⟨loops, parts, ok, -⟩
    exact ⟨parts, ok⟩
  · rintro ⟨parts, ok⟩
    exact ⟨_, parts, ok, rfl⟩

/-- The tail of a URL, if `urlsplit` reads it. -/
def tailOfUrl (unicode : UnicodeData) (url : Text) : Option Text :=
  (splitOrRaise unicode url).toOption.bind fun parts => lastSegments parts.path

theorem mem_repeatedTails {urls : List Text} (h : repeatedTails unicode urls = .ok loops)
    {tail : Text} : tail ∈ loops ↔ tail ∈ urls.filterMap (tailOfUrl unicode) ∧
      minTailRepeats ≤ (urls.filterMap (tailOfUrl unicode)).count tail := by
  simp only [repeatedTails, bind_eq_ok] at h
  obtain ⟨parts, split, same⟩ := h
  have tails : parts.map (fun parts => lastSegments parts.path) = urls.map (tailOfUrl unicode) := by
    refine map_of_mapM_ok (fun url parts ok => ?_) split
    rw [tailOfUrl, ok]
    rfl
  have kept : parts.filterMap (fun parts => lastSegments parts.path) =
      urls.filterMap (tailOfUrl unicode) := by
    have kept := congrArg (List.filterMap id) tails
    rw [List.filterMap_map, List.filterMap_map] at kept
    exact kept
  cases same
  rw [kept, List.mem_filter, decide_eq_true_eq]

theorem mem_repeatedTails_of_perm {urls urls' : List Text} {loops' : List Text}
    (same : urls.Perm urls') (h : repeatedTails unicode urls = .ok loops)
    (h' : repeatedTails unicode urls' = .ok loops') (tail : Text) :
    tail ∈ loops ↔ tail ∈ loops' := by
  have tails := same.filterMap (tailOfUrl unicode)
  rw [mem_repeatedTails h, mem_repeatedTails h', tails.mem_iff, tails.count_eq]

theorem engineReason_congr {loops' : List Text} (same : ∀ tail, tail ∈ loops ↔ tail ∈ loops') :
    engineReason unicode url loops sources = engineReason unicode url loops' sources := by
  have judged : engineReasonOf unicode loops sources = engineReasonOf unicode loops' sources := by
    funext parts
    simp only [engineReasonOf, same]
  rw [engineReason, engineReason, judged]

end Judging

section Reports

variable {unicode} {baseUrl : Text} {engineUrls : List Text} {frogRows : List ScreamingFrogRow}
variable {sourceFormat : ExportFormat} {engineSources : List (Text × DiscoverySource)}
variable {r : ReconciliationReport}

/-- What a report is made of. -/
structure Reports (unicode : UnicodeData) (baseUrl : Text) (engineUrls : List Text)
    (frogRows : List ScreamingFrogRow) (sourceFormat : ExportFormat)
    (engineSources : List (Text × DiscoverySource)) (base : SplitResult) (loops : List Text)
    (r : ReconciliationReport) : Prop where
  split : urlsplit unicode baseUrl = .ok base
  frogOnly : (frogAlone unicode engineUrls frogRows).mapM (fun entry =>
    frogGap unicode sourceFormat (siteHost unicode base.netloc) entry.2) = .ok r.frogOnly
  tails : repeatedTails unicode ((engineAlone unicode engineUrls frogRows).map Prod.snd) = .ok loops
  engineOnly : (engineAlone unicode engineUrls frogRows).mapM (fun entry =>
    engineGap unicode loops ((sourcesByKey unicode engineSources).get entry.1) entry.2) =
      .ok r.engineOnly
  base_ne : baseUrl ≠ []
  report : r = reportOf unicode engineUrls frogRows baseUrl sourceFormat r.frogOnly r.engineOnly

theorem reconcile_eq_ok :
    reconcile unicode baseUrl engineUrls frogRows sourceFormat engineSources = .ok r ↔
      ∃ base loops, Reports unicode baseUrl engineUrls frogRows sourceFormat engineSources base
        loops r := by
  simp only [reconcile, bind_eq_ok, splitOrRaise_eq_ok]
  constructor
  · rintro ⟨base, split, frogOnly, frog, loops, repeated, engineOnly, engine, same⟩
    split at same
    · cases same
    · next filled =>
      cases same
      exact ⟨base, loops, split, frog, repeated, engine, filled, rfl⟩
  · rintro ⟨base, loops, h⟩
    refine ⟨base, h.split, r.frogOnly, h.frogOnly, loops, h.tails, r.engineOnly, h.engineOnly, ?_⟩
    rw [if_neg h.base_ne, ← h.report]
    rfl

theorem mem_frogAlone {k : Text} {row : ScreamingFrogRow} :
    (k, row) ∈ frogAlone unicode engineUrls frogRows ↔
      (frogByKey unicode frogRows).get k = some row ∧
        ((engineByKey unicode engineUrls).get k).isNone := mem_entriesOf

theorem mem_engineAlone {k url : Text} : (k, url) ∈ engineAlone unicode engineUrls frogRows ↔
      (engineByKey unicode engineUrls).get k = some url ∧
        ((frogByKey unicode frogRows).get k).isNone := mem_entriesOf

variable {base : SplitResult} {loops : List Text}

theorem Reports.frog_keys (h : Reports unicode baseUrl engineUrls frogRows sourceFormat
    engineSources base loops r) :
    (r.frogOnly.map UrlGap.url).map (normalise unicode) =
      sortedKeys (frogByKey unicode frogRows) fun k =>
        ((engineByKey unicode engineUrls).get k).isNone := by
  rw [map_of_mapM_ok (fun _ _ ok => (frogGap_eq_ok ok).1) h.frogOnly, List.map_map,
    ← map_fst_entriesOf]
  refine List.map_congr_left fun entry mem => ?_
  exact (LastByKey.mem_of_get (mem_frogAlone.mp mem).1).2

theorem Reports.engine_keys (h : Reports unicode baseUrl engineUrls frogRows sourceFormat
    engineSources base loops r) :
    (r.engineOnly.map UrlGap.url).map (normalise unicode) =
      sortedKeys (engineByKey unicode engineUrls) fun k =>
        ((frogByKey unicode frogRows).get k).isNone := by
  rw [map_of_mapM_ok (fun _ _ ok => (engineGap_eq_ok ok).1) h.engineOnly, List.map_map,
    ← map_fst_entriesOf]
  refine List.map_congr_left fun entry mem => ?_
  exact (LastByKey.mem_of_get (mem_engineAlone.mp mem).1).2

theorem Reports.both_keys (h : Reports unicode baseUrl engineUrls frogRows sourceFormat
    engineSources base loops r) :
    r.inBothUrls.map (normalise unicode) = sortedKeys (engineByKey unicode engineUrls) fun k =>
        ((frogByKey unicode frogRows).get k).isSome := by
  have urls : r.inBothUrls = (shared unicode engineUrls frogRows).map Prod.snd := by
    rw [h.report]
    rfl
  rw [urls, List.map_map, ← map_fst_entriesOf]
  refine List.map_congr_left fun entry mem => ?_
  exact (LastByKey.mem_of_get (mem_entriesOf.mp mem).1).2

theorem Reports.mem_both (h : Reports unicode baseUrl engineUrls frogRows sourceFormat
    engineSources base loops r) {k : Text} :
    k ∈ r.inBothUrls.map (normalise unicode) ↔ ((engineByKey unicode engineUrls).get k).isSome ∧
        ((frogByKey unicode frogRows).get k).isSome := by
  rw [h.both_keys, mem_sortedKeys]

/-- The reason a row is given. -/
def FrogVerdict (unicode : UnicodeData) (sourceFormat : ExportFormat) (baseHost : Text)
    (row : ScreamingFrogRow) (reason : FrogGapReason) : Prop :=
  (sourceFormat = .internalHtml → frogReason unicode row baseHost = .ok reason) ∧
    (sourceFormat = .bareUrlList → reason = .unknown)

theorem FrogVerdict.unique {row : ScreamingFrogRow} {baseHost : Text} {a b : FrogGapReason}
    (ha : FrogVerdict unicode sourceFormat baseHost row a)
    (hb : FrogVerdict unicode sourceFormat baseHost row b) : a = b := by
  cases sourceFormat with
  | internalHtml =>
    have same := (ha.1 rfl).symm.trans (hb.1 rfl)
    cases same
    rfl
  | bareUrlList => exact (ha.2 rfl).trans (hb.2 rfl).symm

theorem Reports.frog_verdict (h : Reports unicode baseUrl engineUrls frogRows sourceFormat
    engineSources base loops r) {k : Text} {reason : FrogGapReason} :
    (∃ gap ∈ r.frogOnly, normalise unicode gap.url = k ∧ gap.reason = reason) ↔
      ∃ row, (frogByKey unicode frogRows).get k = some row ∧
        ((engineByKey unicode engineUrls).get k).isNone ∧
        FrogVerdict unicode sourceFormat (siteHost unicode base.netloc) row reason := by
  constructor
  · rintro ⟨gap, mem, rfl, rfl⟩
    obtain ⟨⟨key, row⟩, alone, ok⟩ := (mem_of_mapM_ok h.frogOnly).mp mem
    obtain ⟨held, lacks⟩ := mem_frogAlone.mp alone
    obtain ⟨address, verdict⟩ := frogGap_eq_ok ok
    have own : normalise unicode gap.url = key := by
      rw [address]
      exact (LastByKey.mem_of_get held).2
    rw [own]
    exact ⟨row, held, lacks, verdict⟩
  · rintro ⟨row, held, lacks, verdict⟩
    have alone := mem_frogAlone.mpr ⟨held, lacks⟩
    obtain ⟨gap, ok⟩ := exists_mapM_ok.mp ⟨_, h.frogOnly⟩ _ alone
    obtain ⟨address, own⟩ := frogGap_eq_ok ok
    refine ⟨gap, (mem_of_mapM_ok h.frogOnly).mpr ⟨_, alone, ok⟩, ?_, FrogVerdict.unique own verdict⟩
    rw [address]
    exact (LastByKey.mem_of_get held).2

theorem Reports.engine_verdict (h : Reports unicode baseUrl engineUrls frogRows sourceFormat
    engineSources base loops r) {k : Text} {reason : EngineGapReason} :
    (∃ gap ∈ r.engineOnly, normalise unicode gap.url = k ∧ gap.reason = reason) ↔
      ∃ url, (engineByKey unicode engineUrls).get k = some url ∧
        ((frogByKey unicode frogRows).get k).isNone ∧
        engineReason unicode url loops ((sourcesByKey unicode engineSources).get k) =
          .ok reason := by
  constructor
  · rintro ⟨gap, mem, rfl, rfl⟩
    obtain ⟨⟨key, url⟩, alone, ok⟩ := (mem_of_mapM_ok h.engineOnly).mp mem
    obtain ⟨held, lacks⟩ := mem_engineAlone.mp alone
    obtain ⟨same, verdict, -⟩ := engineGap_eq_ok ok
    have own : normalise unicode gap.url = key := by
      rw [same]
      exact (LastByKey.mem_of_get held).2
    rw [own]
    exact ⟨url, held, lacks, verdict⟩
  · rintro ⟨url, held, lacks, verdict⟩
    have alone := mem_engineAlone.mpr ⟨held, lacks⟩
    obtain ⟨gap, ok⟩ := exists_mapM_ok.mp ⟨_, h.engineOnly⟩ _ alone
    obtain ⟨same, own, -⟩ := engineGap_eq_ok ok
    refine ⟨gap, (mem_of_mapM_ok h.engineOnly).mpr ⟨_, alone, ok⟩, ?_, ?_⟩
    · rw [same]
      exact (LastByKey.mem_of_get held).2
    · rw [own] at verdict
      exact Except.ok.inj verdict

theorem sum_countReasons {ρ : Type} [DecidableEq ρ] (gaps : List (UrlGap ρ)) :
    ((countReasons gaps).rows.map Prod.snd).sum = gaps.length := by
  have ones : (Prod.snd ∘ fun gap : UrlGap ρ => (gap.reason, 1)) = fun _ => 1 := rfl
  rw [countReasons, GroupedSums.sum_tally, List.map_map, ones, List.map_const',
    List.sum_replicate_nat, Nat.mul_one]

theorem own_keys {ν ν' : Type} (d : Dict Text ν) (e : Dict Text ν') :
    ((sortedKeys d fun k => (e.get k).isSome) ++ sortedKeys d fun k => (e.get k).isNone).Nodup ∧
      ∀ k, k ∈ (sortedKeys d fun k => (e.get k).isSome) ++
        (sortedKeys d fun k => (e.get k).isNone) ↔ (d.get k).isSome := by
  constructor
  · refine List.nodup_append.mpr ⟨nodup_sortedKeys, nodup_sortedKeys, ?_⟩
    rintro k has k' hasNot rfl
    have held := (mem_sortedKeys.mp has).2
    rw [Option.isNone_iff_eq_none.mp (mem_sortedKeys.mp hasNot).2] at held
    cases held
  · intro k
    rw [List.mem_append, mem_sortedKeys, mem_sortedKeys, ← and_or_left]
    cases e.get k <;> simp

theorem other_keys {ν ν' : Type} (d : Dict Text ν) (e : Dict Text ν') :
    ((sortedKeys d fun k => (e.get k).isSome) ++ sortedKeys e fun k => (d.get k).isNone).Nodup ∧
      ∀ k, k ∈ (sortedKeys d fun k => (e.get k).isSome) ++
        (sortedKeys e fun k => (d.get k).isNone) ↔ (e.get k).isSome := by
  constructor
  · refine List.nodup_append.mpr ⟨nodup_sortedKeys, nodup_sortedKeys, ?_⟩
    rintro k has k' hasNot rfl
    have held := (mem_sortedKeys.mp has).1
    rw [Option.isNone_iff_eq_none.mp (mem_sortedKeys.mp hasNot).2] at held
    cases held
  · intro k
    rw [List.mem_append, mem_sortedKeys, mem_sortedKeys]
    cases d.get k <;> simp

theorem lacks_iff {row : ScreamingFrogRow} : Lacks unicode engineUrls row ↔
    ((engineByKey unicode engineUrls).get (normalise unicode row.address)).isNone := by
  rw [Option.isNone_iff_eq_none, ← Option.not_isSome_iff_eq_none, engineByKey, LastByKey.isSome_get]
  simp [Lacks]

theorem frogReason_of_isLivePage {row : ScreamingFrogRow}
    (split : urlsplit unicode baseUrl = .ok base)
    (live : IsLivePage unicode baseUrl row) :
    frogReason unicode row (siteHost unicode base.netloc) = .ok .missedPage := by
  obtain ⟨base', parts, splitBase, splitRow, inScope, status, page, noTrap, indexable⟩ := live
  rw [split] at splitBase
  cases splitBase
  have noIndex : ¬(row.indexability ≠ [] ∧
      unicode.lower (strip isSpace row.indexability) ≠ "indexable".toList) := by
    rintro ⟨filled, other⟩
    exact indexable.elim filled other
  rw [frogReason, splitOrRaise_eq_ok.mpr splitRow]
  simp only [Except.map, frogReasonOf]
  rw [if_neg (not_not.mpr inScope), if_neg (by rw [status]; decide), if_neg (by rw [status]; decide),
    page, noTrap, if_neg noIndex]
  rfl

theorem Reports.reconciled (h : Reports unicode baseUrl engineUrls frogRows sourceFormat
    engineSources base loops r)
    (alike : sourceFormat = .internalHtml → RowsAlike unicode baseUrl engineUrls frogRows) :
    Reconciled unicode baseUrl engineUrls frogRows sourceFormat r := by
  obtain ⟨engineNodup, engineKeys⟩ :=
    own_keys (engineByKey unicode engineUrls) (frogByKey unicode frogRows)
  obtain ⟨frogNodup, frogKeys⟩ :=
    other_keys (engineByKey unicode engineUrls) (frogByKey unicode frogRows)
  rw [← h.both_keys, ← h.engine_keys, ← List.map_append] at engineNodup engineKeys
  rw [← h.both_keys, ← h.frog_keys, ← List.map_append] at frogNodup frogKeys
  have frogSum : r.frogReasons = countReasons r.frogOnly := by
    rw [h.report]
    rfl
  have engineSum : r.engineReasons = countReasons r.engineOnly := by
    rw [h.report]
    rfl
  refine ⟨engineNodup, fun k => ?_, frogNodup, fun k => ?_, ?_, ?_, ?_, ?_⟩
  · rw [engineKeys, engineByKey, LastByKey.isSome_get]
  · rw [frogKeys, frogByKey, LastByKey.isSome_get]
  · rw [h.report]
    simp [reportOf]
  · rw [frogSum]
    exact sum_countReasons _
  · rw [engineSum]
    exact sum_countReasons _
  · intro full row mem lacks live
    obtain ⟨judged, held⟩ : ∃ judged,
        (frogByKey unicode frogRows).get (normalise unicode row.address) = some judged :=
      Option.isSome_iff_exists.mp (LastByKey.isSome_get.mpr ⟨row, mem, rfl⟩)
    obtain ⟨known, own⟩ := LastByKey.mem_of_get held
    refine h.frog_verdict.mpr ⟨judged, held, lacks_iff.mp lacks, fun _ => ?_, fun bare => ?_⟩
    · rw [← alike full base h.split row mem judged known lacks own]
      exact frogReason_of_isLivePage h.split live
    · rw [full] at bare
      cases bare

theorem unmatched_iff {url : Text} :
    (∀ row ∈ frogRows, normalise unicode row.address ≠ normalise unicode url) ↔
      ((frogByKey unicode frogRows).get (normalise unicode url)).isNone := by
  rw [Option.isNone_iff_eq_none, ← Option.not_isSome_iff_eq_none, frogByKey, LastByKey.isSome_get]
  simp

theorem JudgesKept.reports (h : JudgesKept unicode baseUrl engineUrls frogRows sourceFormat)
    (engineSources : List (Text × DiscoverySource)) :
    ∃ r base loops, Reports unicode baseUrl engineUrls frogRows sourceFormat engineSources base
      loops r := by
  obtain ⟨base, split⟩ := h.base
  have rows : ∀ entry ∈ frogAlone unicode engineUrls frogRows, ∃ gap,
      frogGap unicode sourceFormat (siteHost unicode base.netloc) entry.2 = .ok gap := by
    rintro ⟨k, row⟩ alone
    obtain ⟨held, lacks⟩ := mem_frogAlone.mp alone
    obtain ⟨-, rfl⟩ := LastByKey.mem_of_get held
    exact exists_frogGap.mpr (h.rows row held (lacks_iff.mpr lacks))
  have urls : ∀ entry ∈ engineAlone unicode engineUrls frogRows,
      entry.2 ≠ [] ∧ Splits unicode entry.2 := by
    rintro ⟨k, url⟩ alone
    obtain ⟨held, lacks⟩ := mem_engineAlone.mp alone
    obtain ⟨-, rfl⟩ := LastByKey.mem_of_get held
    exact h.urls url held (unmatched_iff.mpr lacks)
  obtain ⟨frogOnly, frog⟩ := exists_mapM_ok.mpr rows
  obtain ⟨loops, tails⟩ : ∃ loops, repeatedTails unicode
      ((engineAlone unicode engineUrls frogRows).map Prod.snd) = .ok loops := by
    refine exists_repeatedTails.mpr fun url mem => ?_
    obtain ⟨entry, alone, rfl⟩ := List.mem_map.mp mem
    exact (urls entry alone).2
  obtain ⟨engineOnly, engine⟩ := exists_mapM_ok.mpr fun entry alone =>
    exists_engineGap loops ((sourcesByKey unicode engineSources).get entry.1)
      (urls entry alone).2 (urls entry alone).1
  exact ⟨reportOf unicode engineUrls frogRows baseUrl sourceFormat frogOnly engineOnly, base, loops,
    split, frog, tails, engine, h.base_ne, rfl⟩

/-- **There is a report exactly when the rows and the URLs kept can be judged.** -/
theorem exists_reconcile_iff_judgesKept :
    (∃ r, reconcile unicode baseUrl engineUrls frogRows sourceFormat engineSources = .ok r) ↔
      JudgesKept unicode baseUrl engineUrls frogRows sourceFormat := by
  constructor
  · rintro ⟨r, ok⟩
    obtain ⟨base, loops, h⟩ := reconcile_eq_ok.mp ok
    refine ⟨h.base_ne, ⟨base, h.split⟩, fun row held lacks => ?_, fun url held alone => ?_⟩
    · obtain ⟨gap, ok⟩ := exists_mapM_ok.mp ⟨_, h.frogOnly⟩ _
        (mem_frogAlone.mpr ⟨held, lacks_iff.mp lacks⟩)
      exact exists_frogGap.mp ⟨gap, ok⟩
    · have kept := mem_engineAlone.mpr ⟨held, unmatched_iff.mp alone⟩
      obtain ⟨gap, ok⟩ := exists_mapM_ok.mp ⟨_, h.engineOnly⟩ _ kept
      exact ⟨(engineGap_eq_ok ok).2.2, exists_repeatedTails.mp ⟨_, h.tails⟩ url
        (List.mem_map.mpr ⟨_, kept, rfl⟩)⟩
  · intro h
    obtain ⟨r, base, loops, reports⟩ := h.reports engineSources
    exact ⟨r, reconcile_eq_ok.mpr ⟨base, loops, reports⟩⟩

theorem Judges.judgesKept (h : Judges unicode baseUrl engineUrls frogRows sourceFormat) :
    JudgesKept unicode baseUrl engineUrls frogRows sourceFormat where
  base_ne := h.base_ne
  base := h.base
  rows row held := h.rows row (LastByKey.mem_of_get held).1
  urls url held := h.urls url (LastByKey.mem_of_get held).1

variable {urls : List Text} {rows : List ScreamingFrogRow}

theorem Judges.of_perm (h : Judges unicode baseUrl engineUrls frogRows sourceFormat)
    (sameUrls : urls.Perm engineUrls) (sameRows : rows.Perm frogRows) :
    Judges unicode baseUrl urls rows sourceFormat where
  base_ne := h.base_ne
  base := h.base
  rows row mem lacks := h.rows row (sameRows.mem_iff.mp mem) fun url held =>
    lacks url (sameUrls.mem_iff.mpr held)
  urls url mem alone := h.urls url (sameUrls.mem_iff.mp mem) fun row held =>
    alone row (sameRows.mem_iff.mpr held)

theorem perm_keys_engineAlone (sameUrls : urls.Perm engineUrls) (sameRows : rows.Perm frogRows) :
    ((engineAlone unicode urls rows).map Prod.fst).Perm
      ((engineAlone unicode engineUrls frogRows).map Prod.fst) := by
  rw [engineAlone, engineAlone, map_fst_entriesOf, map_fst_entriesOf]
  refine (List.perm_ext_iff_of_nodup nodup_sortedKeys nodup_sortedKeys).mpr fun k => ?_
  rw [mem_sortedKeys, mem_sortedKeys, engineByKey, engineByKey,
    LastByKey.isSome_get_of_perm sameUrls, ← Option.not_isSome, ← Option.not_isSome,
    Bool.not_eq_true', Bool.not_eq_true', ← Bool.not_eq_true, ← Bool.not_eq_true, frogByKey,
    frogByKey, LastByKey.isSome_get_of_perm sameRows]

theorem map_snd_engineAlone : (engineAlone unicode engineUrls frogRows).map Prod.snd =
    ((engineAlone unicode engineUrls frogRows).map Prod.fst).filterMap
      (engineByKey unicode engineUrls).get := by
  have held : ∀ entry ∈ engineAlone unicode engineUrls frogRows,
      (engineByKey unicode engineUrls).get entry.1 = some entry.2 :=
    fun entry mem => (mem_engineAlone.mp mem).1
  generalize engineAlone unicode engineUrls frogRows = entries at held
  induction entries with
  | nil => rfl
  | cons entry entries ih =>
    rw [List.map_cons, List.map_cons, List.filterMap_cons, held entry List.mem_cons_self,
      ih fun other mem => held other (List.mem_cons_of_mem _ mem)]

theorem Reports.mem_loops (h : Reports unicode baseUrl urls rows sourceFormat engineSources base
    loops r) (sameUrls : urls.Perm engineUrls) (sameRows : rows.Perm frogRows)
    {pick : Text → Option Text} (picked : ∀ k, (engineByKey unicode urls).get k = pick k)
    {loops' : List Text} (tails : repeatedTails unicode
      (((engineAlone unicode engineUrls frogRows).map Prod.fst).filterMap pick) = .ok loops')
    (tail : Text) : tail ∈ loops ↔ tail ∈ loops' := by
  have own := h.tails
  rw [map_snd_engineAlone] at own
  refine mem_repeatedTails_of_perm ?_ own tails tail
  rw [funext picked]
  exact (perm_keys_engineAlone sameUrls sameRows).filterMap pick

theorem Reports.exists_loops (h : Reports unicode baseUrl urls rows sourceFormat engineSources
    base loops r) (sameUrls : urls.Perm engineUrls) (sameRows : rows.Perm frogRows) :
    ∃ loops', repeatedTails unicode
      (((engineAlone unicode engineUrls frogRows).map Prod.fst).filterMap
        (engineByKey unicode urls).get) = .ok loops' := by
  refine exists_repeatedTails.mpr fun url mem => ?_
  have own := exists_repeatedTails.mp ⟨loops, h.tails⟩
  rw [map_snd_engineAlone] at own
  exact own url
    (((perm_keys_engineAlone sameUrls sameRows).filterMap _).mem_iff.mpr mem)

variable {r' : ReconciliationReport} {base' : SplitResult} {loops' : List Text}

theorem frogVerdict_iff (alike : sourceFormat = .internalHtml →
      RowsAlike unicode baseUrl engineUrls frogRows)
    (split : urlsplit unicode baseUrl = .ok base) (sameRows : rows.Perm frogRows)
    {k : Text} {row row' : ScreamingFrogRow} {reason : FrogGapReason}
    (held : (frogByKey unicode frogRows).get k = some row)
    (held' : (frogByKey unicode rows).get k = some row')
    (lacks : ((engineByKey unicode engineUrls).get k).isNone) :
    FrogVerdict unicode sourceFormat (siteHost unicode base.netloc) row reason ↔
      FrogVerdict unicode sourceFormat (siteHost unicode base.netloc) row' reason := by
  obtain ⟨mem, rfl⟩ := LastByKey.mem_of_get held
  obtain ⟨mem', own'⟩ := LastByKey.mem_of_get held'
  cases sourceFormat with
  | internalHtml =>
    have same := alike rfl base split row mem row' (sameRows.mem_iff.mp mem')
      (lacks_iff.mpr lacks) own'
    rw [FrogVerdict, FrogVerdict, same]
  | bareUrlList => simp [FrogVerdict]

theorem FoldsAlike.engineReason_eq
    (alike : FoldsAlike unicode baseUrl engineUrls frogRows sourceFormat engineSources)
    (h : Reports unicode baseUrl engineUrls frogRows sourceFormat engineSources base loops r)
    (h' : Reports unicode baseUrl urls rows sourceFormat engineSources base' loops' r')
    (sameUrls : urls.Perm engineUrls) (sameRows : rows.Perm frogRows)
    {k url url' : Text} (held : (engineByKey unicode engineUrls).get k = some url)
    (held' : (engineByKey unicode urls).get k = some url')
    (lacks : ((frogByKey unicode frogRows).get k).isNone) :
    engineReason unicode url loops ((sourcesByKey unicode engineSources).get k) =
      engineReason unicode url' loops' ((sourcesByKey unicode engineSources).get k) := by
  obtain ⟨loopsA, tailsA⟩ := h.exists_loops (List.Perm.refl _) (List.Perm.refl _)
  obtain ⟨loopsB, tailsB⟩ := h'.exists_loops sameUrls sameRows
  have alone : k ∈ (engineAlone unicode engineUrls frogRows).map Prod.fst :=
    List.mem_map.mpr ⟨(k, url), mem_engineAlone.mpr ⟨held, lacks⟩, rfl⟩
  calc engineReason unicode url loops ((sourcesByKey unicode engineSources).get k)
      = engineReason unicode url loopsA ((sourcesByKey unicode engineSources).get k) :=
        engineReason_congr (h.mem_loops (List.Perm.refl _) (List.Perm.refl _) (fun _ => rfl) tailsA)
    _ = engineReason unicode url' loopsB ((sourcesByKey unicode engineSources).get k) :=
        alike.urls_alike _ _ LastByKey.picks_get (LastByKey.picks_get.of_perm sameUrls) loopsA
          loopsB tailsA tailsB k alone url url' held held'
    _ = engineReason unicode url' loops' ((sourcesByKey unicode engineSources).get k) :=
        (engineReason_congr (h'.mem_loops sameUrls sameRows (fun _ => rfl) tailsB)).symm

theorem FoldsAlike.sameVerdicts
    (alike : FoldsAlike unicode baseUrl engineUrls frogRows sourceFormat engineSources)
    (h : Reports unicode baseUrl engineUrls frogRows sourceFormat engineSources base loops r)
    (h' : Reports unicode baseUrl urls rows sourceFormat engineSources base' loops' r')
    (sameUrls : urls.Perm engineUrls) (sameRows : rows.Perm frogRows) :
    SameVerdicts unicode r r' := by
  have sameBase := h.split.symm.trans h'.split
  cases sameBase
  have engineKeys : ∀ k, ((engineByKey unicode urls).get k).isSome ↔
      ((engineByKey unicode engineUrls).get k).isSome := fun k =>
    LastByKey.isSome_get_of_perm sameUrls
  have frogKeys : ∀ k, ((frogByKey unicode rows).get k).isSome ↔
      ((frogByKey unicode frogRows).get k).isSome := fun k =>
    LastByKey.isSome_get_of_perm sameRows
  refine ⟨fun k => ?_, fun k reason => ?_, fun k reason => ?_⟩
  · rw [h.mem_both, h'.mem_both, engineKeys, frogKeys]
  · rw [h.frog_verdict, h'.frog_verdict]
    have lacksIff : ((engineByKey unicode urls).get k).isNone ↔
        ((engineByKey unicode engineUrls).get k).isNone := by
      simp only [Option.isNone_iff_eq_none, ← Option.not_isSome_iff_eq_none, engineKeys]
    rw [lacksIff]
    constructor
    · rintro ⟨row, held, lacks, verdict⟩
      obtain ⟨row', held'⟩ := Option.isSome_iff_exists.mp
        ((frogKeys k).mpr (Option.isSome_iff_exists.mpr ⟨row, held⟩))
      exact ⟨row', held', lacks,
        (frogVerdict_iff alike.rows_alike h.split sameRows held held' lacks).mp verdict⟩
    · rintro ⟨row', held', lacks, verdict⟩
      obtain ⟨row, held⟩ := Option.isSome_iff_exists.mp
        ((frogKeys k).mp (Option.isSome_iff_exists.mpr ⟨row', held'⟩))
      exact ⟨row, held, lacks,
        (frogVerdict_iff alike.rows_alike h.split sameRows held held' lacks).mpr verdict⟩
  · rw [h.engine_verdict, h'.engine_verdict]
    have lacksIff : ((frogByKey unicode rows).get k).isNone ↔
        ((frogByKey unicode frogRows).get k).isNone := by
      simp only [Option.isNone_iff_eq_none, ← Option.not_isSome_iff_eq_none, frogKeys]
    rw [lacksIff]
    constructor
    · rintro ⟨url, held, lacks, verdict⟩
      obtain ⟨url', held'⟩ := Option.isSome_iff_exists.mp
        ((engineKeys k).mpr (Option.isSome_iff_exists.mpr ⟨url, held⟩))
      refine ⟨url', held', lacks, ?_⟩
      rw [← alike.engineReason_eq h h' sameUrls sameRows held held' lacks]
      exact verdict
    · rintro ⟨url', held', lacks, verdict⟩
      obtain ⟨url, held⟩ := Option.isSome_iff_exists.mp
        ((engineKeys k).mp (Option.isSome_iff_exists.mpr ⟨url', held'⟩))
      refine ⟨url, held, lacks, ?_⟩
      rw [alike.engineReason_eq h h' sameUrls sameRows held held' lacks]
      exact verdict

theorem FoldsAlike.crossChecks
    (alike : FoldsAlike unicode baseUrl engineUrls frogRows sourceFormat engineSources) :
    CrossChecks unicode baseUrl engineUrls frogRows sourceFormat engineSources := by
  obtain ⟨r, base, loops, h⟩ := alike.toJudges.judgesKept.reports engineSources
  refine ⟨r, reconcile_eq_ok.mpr ⟨base, loops, h⟩, h.reconciled alike.rows_alike, ?_⟩
  intro urls rows sameUrls sameRows
  obtain ⟨r', base', loops', h'⟩ :=
    (alike.toJudges.of_perm sameUrls sameRows).judgesKept.reports engineSources
  exact ⟨r', reconcile_eq_ok.mpr ⟨base', loops', h'⟩, alike.sameVerdicts h h' sameUrls sameRows⟩

theorem CrossChecks.foldsAlike
    (checks : CrossChecks unicode baseUrl engineUrls frogRows sourceFormat engineSources) :
    FoldsAlike unicode baseUrl engineUrls frogRows sourceFormat engineSources := by
  obtain ⟨r, ok, -, anyOrder⟩ := checks
  obtain ⟨base, loops, h⟩ := reconcile_eq_ok.mp ok
  have reordered : ∀ urls rows, urls.Perm engineUrls → rows.Perm frogRows →
      ∃ r' loops', Reports unicode baseUrl urls rows sourceFormat engineSources base loops' r' ∧
        SameVerdicts unicode r r' := by
    intro urls rows sameUrls sameRows
    obtain ⟨r', ok', same⟩ := anyOrder urls rows sameUrls sameRows
    obtain ⟨base', loops', h'⟩ := reconcile_eq_ok.mp ok'
    have sameBase := h.split.symm.trans h'.split
    cases sameBase
    exact ⟨r', loops', h', same⟩
  have frogKept : ∀ row ∈ frogRows, Lacks unicode engineUrls row → ∃ r' gap,
      SameVerdicts unicode r r' ∧
      frogGap unicode sourceFormat (siteHost unicode base.netloc) row = .ok gap ∧
      ∀ reason, (∃ gap ∈ r'.frogOnly, normalise unicode gap.url = normalise unicode row.address ∧
        gap.reason = reason) ↔
          FrogVerdict unicode sourceFormat (siteHost unicode base.netloc) row reason := by
    intro row mem lacks
    obtain ⟨rows, sameRows, held⟩ : ∃ rows : List ScreamingFrogRow, rows.Perm frogRows ∧
        (frogByKey unicode rows).get (normalise unicode row.address) = some row :=
      LastByKey.exists_perm_get mem
    obtain ⟨r', loops', h', same⟩ := reordered engineUrls rows (List.Perm.refl _) sameRows
    have alone := mem_frogAlone.mpr ⟨held, lacks_iff.mp lacks⟩
    obtain ⟨gap, ok⟩ := exists_mapM_ok.mp ⟨_, h'.frogOnly⟩ _ alone
    refine ⟨r', gap, same, ok, fun reason => ?_⟩
    rw [h'.frog_verdict]
    constructor
    · rintro ⟨judged, heldToo, -, verdict⟩
      rw [held] at heldToo
      cases heldToo
      exact verdict
    · intro verdict
      exact ⟨row, held, lacks_iff.mp lacks, verdict⟩
  refine ⟨⟨h.base_ne, ⟨base, h.split⟩, ?_, ?_⟩, ?_, ?_⟩
  · intro row mem lacks
    obtain ⟨r', gap, -, ok, -⟩ := frogKept row mem lacks
    exact exists_frogGap.mp ⟨gap, ok⟩
  · intro url mem alone
    obtain ⟨urls, sameUrls, held⟩ : ∃ urls : List Text, urls.Perm engineUrls ∧
        (engineByKey unicode urls).get (normalise unicode url) = some url :=
      LastByKey.exists_perm_get mem
    obtain ⟨r', loops', h', -⟩ := reordered urls frogRows sameUrls (List.Perm.refl _)
    have kept := mem_engineAlone.mpr ⟨held, unmatched_iff.mp alone⟩
    obtain ⟨gap, ok⟩ := exists_mapM_ok.mp ⟨_, h'.engineOnly⟩ _ kept
    exact ⟨(engineGap_eq_ok ok).2.2, exists_repeatedTails.mp ⟨_, h'.tails⟩ url
      (List.mem_map.mpr ⟨_, kept, rfl⟩)⟩
  · rintro rfl base' split row mem other otherMem lacks own
    have sameBase := h.split.symm.trans split
    cases sameBase
    have otherLacks : Lacks unicode engineUrls other := fun url held => by
      rw [own]
      exact lacks url held
    obtain ⟨r₁, gap₁, same₁, ok₁, verdict₁⟩ := frogKept row mem lacks
    obtain ⟨r₂, gap₂, same₂, ok₂, verdict₂⟩ := frogKept other otherMem otherLacks
    have first := (frogGap_eq_ok ok₁).2
    have second := (verdict₂ gap₁.reason).mp (by
      rw [own]
      exact (same₂.frog _ _).mp ((same₁.frog _ _).mpr ((verdict₁ _).mpr first)))
    exact (first.1 rfl).trans (second.1 rfl).symm
  · intro pick pick' picks picks' loopsA loopsB tailsA tailsB k alone url url' held held'
    obtain ⟨urls₁, sameUrls₁, picked₁⟩ := picks.exists_perm
    obtain ⟨urls₂, sameUrls₂, picked₂⟩ := picks'.exists_perm
    obtain ⟨r₁, loops₁, h₁, same₁⟩ := reordered urls₁ frogRows sameUrls₁ (List.Perm.refl _)
    obtain ⟨r₂, loops₂, h₂, same₂⟩ := reordered urls₂ frogRows sameUrls₂ (List.Perm.refl _)
    obtain ⟨⟨k, old⟩, inside, rfl⟩ := List.mem_map.mp alone
    obtain ⟨-, lacks⟩ := mem_engineAlone.mp inside
    have kept₁ : (engineByKey unicode urls₁).get k = some url := (picked₁ k).trans held
    have kept₂ : (engineByKey unicode urls₂).get k = some url' := (picked₂ k).trans held'
    obtain ⟨gap, ok⟩ := exists_mapM_ok.mp ⟨_, h₁.engineOnly⟩ _
      (mem_engineAlone.mpr ⟨kept₁, lacks⟩)
    have first := (engineGap_eq_ok ok).2.1
    obtain ⟨again, keptAgain, -, second⟩ := h₂.engine_verdict.mp ((same₂.engine k gap.reason).mp
      ((same₁.engine k gap.reason).mpr (h₁.engine_verdict.mpr ⟨url, kept₁, lacks, first⟩)))
    rw [kept₂] at keptAgain
    cases keptAgain
    calc engineReason unicode url loopsA ((sourcesByKey unicode engineSources).get k)
        = engineReason unicode url loops₁ ((sourcesByKey unicode engineSources).get k) :=
          (engineReason_congr (h₁.mem_loops sameUrls₁ (List.Perm.refl _) picked₁ tailsA)).symm
      _ = engineReason unicode url' loops₂ ((sourcesByKey unicode engineSources).get k) :=
          first.trans second.symm
      _ = engineReason unicode url' loopsB ((sourcesByKey unicode engineSources).get k) :=
          engineReason_congr (h₂.mem_loops sameUrls₂ (List.Perm.refl _) picked₂ tailsB)

end Reports

/-- **The cross-check stands apart from the order of its inputs exactly when what is folded
together is judged alike.** -/
theorem crossChecks_iff_foldsAlike (unicode : UnicodeData) (baseUrl : Text)
    (engineUrls : List Text) (frogRows : List ScreamingFrogRow) (sourceFormat : ExportFormat)
    (engineSources : List (Text × DiscoverySource)) :
    CrossChecks unicode baseUrl engineUrls frogRows sourceFormat engineSources ↔
      FoldsAlike unicode baseUrl engineUrls frogRows sourceFormat engineSources :=
  ⟨CrossChecks.foldsAlike, FoldsAlike.crossChecks⟩

section Sample

open UrlSafetyPolicy (asciiData)

/-- A live page. -/
def livePage : ScreamingFrogRow where
  address := "https://shop.example/a".toList
  statusCode := 200
  indexability := "Indexable".toList
  address_ne := by decide

/-- The address over plain HTTP that redirects to it. -/
def plainSource : ScreamingFrogRow where
  address := "http://shop.example/a".toList
  statusCode := 301
  indexability := "Non-Indexable".toList
  address_ne := by decide

/-- The page is missed only if its row comes last. -/
theorem missed_page_becomes_redirect :
    ¬CrossChecks asciiData "https://shop.example/".toList [] [livePage, plainSource]
      .internalHtml [] := by
  have reasons : (reconcile asciiData "https://shop.example/".toList []
      [livePage, plainSource] .internalHtml []).toOption.map (fun r => r.frogOnly.map UrlGap.reason) =
      some [.redirect] := by decide
  have live : IsLivePage asciiData "https://shop.example/".toList livePage := by
    refine ⟨⟨"https".toList, "shop.example".toList, "/".toList, [], []⟩,
      ⟨"https".toList, "shop.example".toList, "/a".toList, [], []⟩, ?_⟩
    decide
  rintro ⟨r, ok, reconciled, -⟩
  obtain ⟨gap, mem, -, missed⟩ := reconciled.missed rfl _ List.mem_cons_self
    (fun url held => by cases held) live
  rw [ok] at reasons
  have redirects : r.frogOnly.map UrlGap.reason = [.redirect] := Option.some.inj reasons
  have reason := List.mem_map_of_mem (f := UrlGap.reason) mem
  rw [redirects, missed] at reason
  simp at reason

end Sample

end Rankuno
