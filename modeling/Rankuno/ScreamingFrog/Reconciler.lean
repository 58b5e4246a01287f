import Mathlib.Data.List.Sort
import Rankuno.Foundation.GroupedSums
import Rankuno.Foundation.LastByKey
import Rankuno.SiteCrawl.Discovery
import Rankuno.UrlKeys.Hosts

/-!
# Cross-checking a crawl against an export

`screaming_frog_reconciler.py`: the rows of an export, or of a bare list of URLs, and the
URLs of a crawl are folded onto keys that leave out what neither tool means anything by,
and every key that one side lacks gets a reason, by the first rule that matches.

Of the rows and URLs with one key the last is judged.
-/

namespace Rankuno

open Python Python.Text Python.Urllib UrlKeys

section Texts

/-- `needle in s`. -/
def containsText (needle s : Text) : Bool := s.tails.any fun tail => needle.isPrefixOf tail

/-- `s.count(needle)`, for a needle that does not overlap itself. -/
def countText (needle s : Text) : Nat := s.tails.countP fun tail => needle.isPrefixOf tail

/-- `s.endswith(endings)`. -/
def endsWithAny (endings : List Text) (s : Text) : Bool :=
  endings.any fun ending => ending.isSuffixOf s

/-- `s.split(sep, 1)[1]`. -/
def afterFirst (sep : Text) : Text → Text
  | [] => []
  | c :: s => if sep.isPrefixOf (c :: s) then (c :: s).drop sep.length else afterFirst sep s

def segmentsOf (path : Text) : List Text := (split '/' path).filter (· ≠ [])

end Texts

section Rules

/-- `MAX_CRAWL_DEPTH`. -/
def maxCrawlDepth : Nat := 15

def trapSegmentMinLength : Nat := 3

/-- `is_spider_trap`. -/
def isSpiderTrap (unicode : UnicodeData) (url : Text) : Bool :=
  match safeSplit unicode url with
  | none => false
  | some parts =>
    let segments := segmentsOf parts.path
    let long := segments.filter fun segment => trapSegmentMinLength < segment.length
    maxCrawlDepth < segments.length || !decide (long.map unicode.lower).Nodup

/-- `NON_PAGE_SUFFIXES`. -/
def nonPageSuffixes : List Text :=
  [".jpg", ".jpeg", ".png", ".gif", ".webp", ".svg", ".ico", ".bmp", ".eps", ".ai", ".psd",
    ".css", ".js", ".json", ".xml", ".rss", ".atom", ".zip", ".gz", ".tar", ".rar", ".7z",
    ".mp4", ".mp3", ".avi", ".mov", ".wmv", ".wav", ".webm", ".woff", ".woff2", ".ttf", ".eot",
    ".exe", ".dmg", ".pkg", ".md", ".markdown"].map String.toList

/-- `_PDF_SUFFIXES`. -/
def pdfSuffixes : List Text := [".pdf".toList]

def presentationSuffixes : List Text :=
  [".ppt", ".pptx", ".pptm", ".pps", ".ppsx", ".odp", ".key"].map String.toList

def spreadsheetSuffixes : List Text :=
  [".xls", ".xlsx", ".xlsm", ".csv", ".ods"].map String.toList

def otherFileSuffixes : List Text :=
  nonPageSuffixes ++ [".doc", ".docx", ".docm", ".rtf", ".odt", ".txt", ".epub", ".asx", ".asf",
    ".rm"].map String.toList

end Rules

inductive FrogGapReason where
  | offSite
  | redirect
  | clientError
  | mediaUrl
  | spiderTrap
  | nonIndexable
  | missedPage
  | unknown
  deriving DecidableEq

/-- `ExportFormat`. -/
inductive ExportFormat where
  | internalHtml
  | bareUrlList
  deriving DecidableEq

/-- Only `sitemapOrphan` is never produced any more. -/
inductive EngineGapReason where
  | malformedMarkup
  | repeatedSuffixTrap
  | queryVariant
  | sitemapOrphan
  | sitemapOnlyNoLink
  | cmsApiOnly
  | linkedNotInExport
  | provenanceUnknown
  | pdfFile
  | presentationFile
  | spreadsheetFile
  | otherFile
  deriving DecidableEq

inductive DefaulterCategory where
  | damHtmlArchive
  | damFormsOther
  | cmsInternalLeak
  | corruptedUrl
  deriving DecidableEq

/-- A row of the export, with the columns the comparison reads. -/
structure ScreamingFrogRow where
  address : Text
  statusCode : Int := 0
  indexability : Text := []
  address_ne : address ≠ []
  deriving DecidableEq

/-- One URL that is on a single side, and why. -/
structure UrlGap (ρ : Type) where
  url : Text
  reason : ρ
  defaulterCategory : Option DefaulterCategory := none
  deriving DecidableEq

structure ReconciliationReport where
  baseUrl : Text
  frogRows : Nat
  frogLive : Nat
  engineUrls : Nat
  inBoth : Nat
  inBothUrls : List Text
  frogOnly : List (UrlGap FrogGapReason)
  engineOnly : List (UrlGap EngineGapReason)
  frogReasons : Dict FrogGapReason Nat
  engineReasons : Dict EngineGapReason Nat
  sourceFormat : ExportFormat

/-- What `reconcile` raises: what `urlsplit` does, or a model's check of a field that may
not be empty. -/
inductive ReconcileError where
  | value (message : Text)
  | emptyField (name : Text)
  deriving DecidableEq

variable (unicode : UnicodeData)

/-- `urlsplit` as `reconcile` calls it, unguarded. -/
def splitOrRaise (url : Text) : Except ReconcileError SplitResult :=
  (urlsplit unicode url).mapError .value

/-- `normalise`. -/
def normalise (url : Text) : Text :=
  match urlsplit unicode (strip isSpace url) with
  | .error _ => strip isSpace url
  | .ok parts =>
    let path := rstrip (fun c => c = '/') parts.path
    urlunsplit {
      scheme := "https".toList
      netloc := dropLeading www (unicode.lower parts.netloc)
      path := if path = [] then ['/'] else path
      query := parts.query
      fragment := [] }

section Frog

/-- What the rules of `_frog_reason` say of a row, once its address is split. -/
def frogReasonOf (row : ScreamingFrogRow) (baseHost : Text) (parts : SplitResult) : FrogGapReason :=
  if siteHost unicode parts.netloc ≠ baseHost then .offSite
  else if 300 ≤ row.statusCode ∧ row.statusCode < 400 then .redirect
  else if 400 ≤ row.statusCode ∨ row.statusCode = 0 then .clientError
  else if endsWithAny nonPageSuffixes (unicode.lower parts.path) then .mediaUrl
  else if isSpiderTrap unicode row.address then .spiderTrap
  else if row.indexability ≠ [] ∧
      unicode.lower (strip isSpace row.indexability) ≠ "indexable".toList then .nonIndexable
  else .missedPage

/-- `_frog_reason`. -/
def frogReason (row : ScreamingFrogRow) (baseHost : Text) : Except ReconcileError FrogGapReason :=
  (splitOrRaise unicode row.address).map (frogReasonOf unicode row baseHost)

/-- The part of `_is_corrupted_url` that does not split the URL. -/
def looksCorrupted (url : Text) : Bool :=
  (["%20", "%22", "%27"].any fun marker => containsText marker.toList url) ||
    [".html.html", ".htm.htm", ".html.htm", ".htm.html"].any fun ext =>
      containsText ext.toList url

/-- `re.search(r"^\s|\s$|\s\x7b2\x7d", path)`, for a path without line feeds. -/
def hasOddSpace (path : Text) : Bool :=
  path.head?.any isSpace || path.getLast?.any isSpace ||
    (path.zip path.tail).any fun pair => isSpace pair.1 && isSpace pair.2

/-- The part of it that does. -/
def splitsCorrupted (url : Text) (parts : SplitResult) : Bool :=
  containsText "//".toList parts.path || 2 ≤ countText "http".toList url || hasOddSpace parts.path

/-- `_is_corrupted_url`. -/
def isCorruptedUrl (url : Text) : Except ReconcileError Bool :=
  if looksCorrupted url then .ok true
  else (splitOrRaise unicode url).map (splitsCorrupted url)

/-- `_DAM_PREFIX`. -/
def damPrefix : Text := "/content/dam/".toList

/-- `_dam_investors`. -/
def damInvestors (path : Text) : Bool :=
  (split '/' (afterFirst damPrefix path))[2]? = some "investors".toList

/-- What `_defaulter_category` makes of the path of a URL that is not corrupted. -/
def pathCategory (path : Text) : Option DefaulterCategory :=
  if containsText damPrefix path ∧ endsWithAny [".html".toList, ".htm".toList] path then
    some (if damInvestors path then .damHtmlArchive else .damFormsOther)
  else if containsText "/content/".toList path ∧ ¬containsText damPrefix path then
    some .cmsInternalLeak
  else none

/-- `_defaulter_category`. -/
def defaulterCategory (url : Text) : Except ReconcileError (Option DefaulterCategory) := do
  let corrupted ← isCorruptedUrl unicode url
  if corrupted then .ok (some .corruptedUrl)
  else (splitOrRaise unicode url).map fun parts => pathCategory (unicode.lower parts.path)

/-- The gap of a row the crawl lacks. A bare list says nothing but the address. -/
def frogGap (sourceFormat : ExportFormat) (baseHost : Text) (row : ScreamingFrogRow) :
    Except ReconcileError (UrlGap FrogGapReason) :=
  match sourceFormat with
  | .internalHtml => do
      let reason ← frogReason unicode row baseHost
      return { url := row.address, reason }
  | .bareUrlList => do
      let category ← defaulterCategory unicode row.address
      return { url := row.address, reason := .unknown, defaulterCategory := category }

end Frog

section Engine

/-- `_TAIL_SEGMENTS`. -/
def Reconciler.tailSegments : Nat := 3

/-- `MIN_TAIL_REPEATS`. -/
def minTailRepeats : Nat := 25

/-- The last segments of a path, if it has so many. -/
def lastSegments (path : Text) : Option Text :=
  let segments := segmentsOf path
  if Reconciler.tailSegments ≤ segments.length then
    some (join ['/'] (segments.drop (segments.length - Reconciler.tailSegments)))
  else none

/-- `_repeated_tails`. -/
def repeatedTails (urls : List Text) : Except ReconcileError (List Text) := do
  let parts ← urls.mapM (splitOrRaise unicode)
  let tails := parts.filterMap fun parts => lastSegments parts.path
  return tails.filter fun tail => minTailRepeats ≤ tails.count tail

/-- `_provenance_reason`. -/
def provenanceReason (sources : Option DiscoverySource) : EngineGapReason :=
  match sources with
  | none => .provenanceUnknown
  | some sources =>
    if sources = {} then .provenanceUnknown
    else if sources.domLink then .linkedNotInExport
    else if sources.sitemap then .sitemapOnlyNoLink
    else .cmsApiOnly

def malformedMarkers : List Text := ["<", ">", "href="].map String.toList

/-- What the rules of `_engine_reason` say of a URL, once it is split. -/
def engineReasonOf (loops : List Text) (sources : Option DiscoverySource)
    (parts : SplitResult) : EngineGapReason :=
  let path := unicode.lower parts.path
  if (lastSegments parts.path).any fun tail => tail ∈ loops then .repeatedSuffixTrap
  else if endsWithAny pdfSuffixes path then .pdfFile
  else if endsWithAny presentationSuffixes path then .presentationFile
  else if endsWithAny spreadsheetSuffixes path then .spreadsheetFile
  else if endsWithAny otherFileSuffixes path then .otherFile
  else if parts.query ≠ [] then .queryVariant
  else provenanceReason sources

/-- `_engine_reason`. -/
def engineReason (url : Text) (loops : List Text) (sources : Option DiscoverySource) :
    Except ReconcileError EngineGapReason :=
  if malformedMarkers.any fun marker => containsText marker url then .ok .malformedMarkup
  else (splitOrRaise unicode url).map (engineReasonOf unicode loops sources)

/-- The gap of a URL the export lacks. -/
def engineGap (loops : List Text) (sources : Option DiscoverySource) (url : Text) :
    Except ReconcileError (UrlGap EngineGapReason) := do
  let reason ← engineReason unicode url loops sources
  if url = [] then .error (.emptyField "url".toList) else return { url, reason }

/-- `_sources_by_key`. -/
def sourcesByKey (engineSources : List (Text × DiscoverySource)) : Dict Text DiscoverySource :=
  engineSources.foldl (fun pooled entry =>
    pooled.alter (normalise unicode entry.1) {} fun held => held.merge entry.2) .empty

end Engine

/-- The keys of one dictionary that pass a test, sorted. -/
def sortedKeys {ν : Type} (d : Dict Text ν) (p : Text → Bool) : List Text :=
  ((d.rows.map Prod.fst).filter p).insertionSort fun a b => String.ofList a ≤ String.ofList b

/-- The elements a dictionary holds under keys that pass a test, with their keys. -/
def entriesOf {ν : Type} (d : Dict Text ν) (p : Text → Bool) : List (Text × ν) :=
  (sortedKeys d p).filterMap fun k => (d.get k).map fun v => (k, v)

/-- `Counter`. -/
def countReasons {ρ : Type} [DecidableEq ρ] (gaps : List (UrlGap ρ)) : Dict ρ Nat :=
  GroupedSums.tally (gaps.map fun gap => (gap.reason, 1))

section Sides

variable (engineUrls : List Text) (frogRows : List ScreamingFrogRow)

/-- `frog_by_key`. -/
def frogByKey : Dict Text ScreamingFrogRow :=
  LastByKey.byKey (fun row => normalise unicode row.address) frogRows

/-- `engine_by_key`. -/
def engineByKey : Dict Text Text := LastByKey.byKey (normalise unicode) engineUrls

def frogAlone : List (Text × ScreamingFrogRow) :=
  entriesOf (frogByKey unicode frogRows) fun k => ((engineByKey unicode engineUrls).get k).isNone

def engineAlone : List (Text × Text) :=
  entriesOf (engineByKey unicode engineUrls) fun k => ((frogByKey unicode frogRows).get k).isNone

def shared : List (Text × Text) :=
  entriesOf (engineByKey unicode engineUrls) fun k => ((frogByKey unicode frogRows).get k).isSome

/-- The report with the gaps of both sides. -/
def reportOf (baseUrl : Text) (sourceFormat : ExportFormat)
    (frogOnly : List (UrlGap FrogGapReason)) (engineOnly : List (UrlGap EngineGapReason)) :
    ReconciliationReport where
  baseUrl := baseUrl
  frogRows := frogRows.length
  frogLive := frogRows.countP fun row => row.statusCode = 200
  engineUrls := (engineByKey unicode engineUrls).rows.length
  inBoth := (shared unicode engineUrls frogRows).length
  inBothUrls := (shared unicode engineUrls frogRows).map Prod.snd
  frogOnly := frogOnly
  engineOnly := engineOnly
  frogReasons := countReasons frogOnly
  engineReasons := countReasons engineOnly
  sourceFormat := sourceFormat

end Sides

/-- `reconcile`. -/
def reconcile (baseUrl : Text) (engineUrls : List Text) (frogRows : List ScreamingFrogRow)
    (sourceFormat : ExportFormat) (engineSources : List (Text × DiscoverySource)) :
    Except ReconcileError ReconciliationReport := do
  let base ← splitOrRaise unicode baseUrl
  let baseHost := siteHost unicode base.netloc
  let frogOnly ← (frogAlone unicode engineUrls frogRows).mapM fun entry =>
    frogGap unicode sourceFormat baseHost entry.2
  let loops ← repeatedTails unicode ((engineAlone unicode engineUrls frogRows).map Prod.snd)
  let sources := sourcesByKey unicode engineSources
  let engineOnly ← (engineAlone unicode engineUrls frogRows).mapM fun entry =>
    engineGap unicode loops (sources.get entry.1) entry.2
  if baseUrl = [] then .error (.emptyField "base_url".toList)
  else return reportOf unicode engineUrls frogRows baseUrl sourceFormat frogOnly engineOnly

end Rankuno
