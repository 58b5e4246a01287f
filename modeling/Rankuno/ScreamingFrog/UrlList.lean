import Rankuno.Python.Lines
import Rankuno.Python.Utf8RoundTrip
import Rankuno.UrlKeys.Hosts
import Rankuno.Worker.Daemon

/-!
# The approved URL list

`url_list.py`: the URLs of a crawl, or of a paste, are filtered, rendered one to a line
and fingerprinted when a preview is made, and the worker reads the lines of the bytes
that were approved. Names are resolved by one function for the whole of a preview.
-/

namespace Rankuno

open Python Python.Text Python.Urllib UrlKeys

inductive UrlListSource where
  | orphans
  | all
  | pasted
  deriving DecidableEq

/-- What each stage removed. -/
structure UrlListCounts where
  sourceRows : Nat := 0
  duplicatesDropped : Nat := 0
  nonHttpDropped : Nat := 0
  offDomainDropped : Nat := 0
  unsafeHostDropped : Nat := 0
  kept : Nat := 0
  deriving DecidableEq

structure UrlListManifest where
  source : UrlListSource
  sourceJobId : Text
  sourceLabel : Text
  registrableDomain : Text
  urlCount : Nat
  sha256 : String
  sample : List Text
  counts : UrlListCounts

/-- The field constraints the model checks when it is built. -/
def UrlListManifest.Valid (manifest : UrlListManifest) : Prop :=
  manifest.sourceJobId.length ≤ 64 ∧ manifest.sourceLabel.length ≤ 400 ∧
    manifest.registrableDomain.length ≤ 253 ∧ 1 ≤ manifest.urlCount ∧ IsSha256 manifest.sha256

instance : DecidablePred UrlListManifest.Valid := fun _ =>
  inferInstanceAs (Decidable (_ ∧ _ ∧ _ ∧ _ ∧ _))

/-- How a preview ends without a list: by one of its own errors, with their texts, by
pydantic's, or by an exception of the policy that it does not expect. -/
inductive UrlListError where
  | empty (message : Text)
  | tooLarge (message : Text)
  | validation
  | escaped (message : Text)

namespace UrlListSource

def value : UrlListSource → Text
  | orphans => "orphans".toList
  | all => "all".toList
  | pasted => "pasted".toList

def overCeilingAlternative : UrlListSource → Text
  | orphans => []
  | all => " Choose 'Orphans Only', which is smaller and is the recommended source.".toList
  | pasted => " Send fewer URLs, or split the list and dispatch it as more than one run.".toList

end UrlListSource

/-- `f"{n:,}"` of an integer. -/
def ofIntGrouped (n : Int) : Text :=
  if n < 0 then '-' :: ofNatGrouped n.natAbs else ofNatGrouped n.natAbs

/-- `str` of `EmptyUrlListError`. -/
def emptyUrlListError (counts : UrlListCounts) (source : UrlListSource) : Text :=
  "the '".toList ++ source.value ++ "' URL list is empty after filtering: ".toList ++
    ofNatGrouped counts.sourceRows ++ " URL(s) in, ".toList ++
    ofNatGrouped counts.duplicatesDropped ++ " duplicate, ".toList ++
    ofNatGrouped counts.nonHttpDropped ++ " not http/https, ".toList ++
    ofNatGrouped counts.offDomainDropped ++ " outside the crawl's own domain, ".toList ++
    ofNatGrouped counts.unsafeHostDropped ++
    " on a host that failed the SSRF check. Nothing was dispatched.".toList

/-- `str` of `UrlListTooLargeError`. -/
def urlListTooLargeError (urlCount : Nat) (ceiling : Int) (source : UrlListSource) : Text :=
  "this crawl's '".toList ++ source.value ++ "' URL list holds ".toList ++
    ofNatGrouped urlCount ++ " URLs, over the ".toList ++ ofIntGrouped ceiling ++
    (" ceiling (SCREAMING_FROG_URL_LIST_MAX_URLS), so nothing was generated. A shorter list " ++
      "is not silently substituted because the run would then audit fewer pages than the " ++
      "approval says.").toList ++ source.overCeilingAlternative

/-- `render_url_list`. -/
def renderUrlList (urls : List Text) : Bytes :=
  Utf8.encode (urls.flatMap fun url => url ++ crlf)

/-- `_strip_fragment`. -/
def stripFragment (url : Text) : Text := strip isSpace (partition '#' url).1

section Filters

variable (unicode : HostData)

/-- `_host_of`. -/
def hostOf (url : Text) : Option Text :=
  match safeSplit unicode.toUnicodeData url with
  | none => none
  | some parts =>
    if parts.netloc = [] then none else some (siteHost unicode.toUnicodeData parts.netloc)

/-- `parts.netloc`. -/
def netlocOf (url : Text) : Option Text :=
  (safeSplit unicode.toUnicodeData url).map SplitResult.netloc

/-- `f"{parts.scheme.lower()}://{parts.netloc}/"`, the URL the policy is asked about. -/
def originOf (url : Text) : Text :=
  match safeSplit unicode.toUnicodeData url with
  | none => []
  | some parts =>
    unicode.lower parts.scheme ++ ':' :: '/' :: '/' :: parts.netloc ++ ['/']

/-- What `_same_scheme_and_domain` says of one URL. -/
inductive ScopeVerdict where
  | nonHttp
  | offDomain
  | inScope
  deriving DecidableEq

def scopeOf (domain url : Text) : ScopeVerdict :=
  match safeSplit unicode.toUnicodeData url with
  | none => .nonHttp
  | some parts =>
    if unicode.lower parts.scheme ∉ ["http".toList, "https".toList] then .nonHttp
    else
      match hostOf unicode url with
      | none => .offDomain
      | some host =>
        if domain ≠ [] ∧ registrableDomain unicode host ≠ domain then .offDomain
        else .inScope

/-- One round of `_dedupe`. The URLs it has seen are those it has yielded. -/
def dedupeRow (s : List Text × UrlListCounts) (raw : Text) : List Text × UrlListCounts :=
  let url := stripFragment raw
  let counts := { s.2 with sourceRows := s.2.sourceRows + 1 }
  if url = [] ∨ url ∈ s.1 then
    (s.1, { counts with duplicatesDropped := counts.duplicatesDropped + 1 })
  else (s.1 ++ [url], counts)

/-- One round of `_same_scheme_and_domain`. -/
def scopeRow (domain : Text) (s : List Text × UrlListCounts) (url : Text) :
    List Text × UrlListCounts :=
  match scopeOf unicode domain url with
  | .nonHttp => (s.1, { s.2 with nonHttpDropped := s.2.nonHttpDropped + 1 })
  | .offDomain => (s.1, { s.2 with offDomainDropped := s.2.offDomainDropped + 1 })
  | .inScope => (s.1 ++ [url], s.2)

variable (policy : UrlSafetyPolicy) (resolve : Resolver)

/-- `_safe_hosts`, with the network locations checked and those allowed so far. -/
def safeHosts : List Text → List Text → List Text → Except UrlListError (List Text)
  | [], _, allowed => .ok allowed
  | url :: urls, checked, allowed =>
    match netlocOf unicode url with
    | none => safeHosts urls checked allowed
    | some netloc =>
      if netloc ∈ checked then safeHosts urls checked allowed
      else
        match policy.validate unicode.toUnicodeData resolve (originOf unicode url) with
        | .ok _ => safeHosts urls (netloc :: checked) (netloc :: allowed)
        | .error (.unsafeUrl _) => safeHosts urls (netloc :: checked) allowed
        | .error (.escaped message) => .error (.escaped message)

/-- One round of the last filter. -/
def keepRow (allowedNetlocs : List Text) (s : List Text × UrlListCounts) (url : Text) :
    List Text × UrlListCounts :=
  if (netlocOf unicode url).any fun netloc => netloc ∈ allowedNetlocs then (s.1 ++ [url], s.2)
  else (s.1, { s.2 with unsafeHostDropped := s.2.unsafeHostDropped + 1 })

/-- The registrable domain of `base_url`, or nothing when it names no host. -/
def scopeDomain (baseUrl : Text) : Text :=
  match hostOf unicode baseUrl with
  | none => []
  | some host => if host = [] then [] else registrableDomain unicode host

/-- What a preview is made from. -/
structure UrlListRequest where
  urls : List Text
  source : UrlListSource
  sourceJobId : Text
  sourceLabel : Text
  baseUrl : Text
  maxUrls : Int

variable (wire : DispatchWire)

/-- The URLs in scope, and the counts so far. -/
def UrlListRequest.inScope (request : UrlListRequest) : List Text × UrlListCounts :=
  let deduped := request.urls.foldl dedupeRow ([], {})
  deduped.1.foldl (scopeRow unicode (scopeDomain unicode request.baseUrl)) ([], deduped.2)

/-- `build_url_list`. -/
def buildUrlList (request : UrlListRequest) : Except UrlListError (UrlListManifest × Bytes) := do
  let inScope := request.inScope unicode
  let allowedNetlocs ← safeHosts unicode policy resolve inScope.1 [] []
  let filtered := inScope.1.foldl (keepRow unicode allowedNetlocs) ([], inScope.2)
  let kept := filtered.1
  let counts := { filtered.2 with kept := kept.length }
  if kept = [] then .error (.empty (emptyUrlListError counts request.source))
  else if request.maxUrls < kept.length then
    .error (.tooLarge (urlListTooLargeError kept.length request.maxUrls request.source))
  else
    let body := renderUrlList kept
    let manifest : UrlListManifest := {
      source := request.source
      sourceJobId := request.sourceJobId
      sourceLabel := request.sourceLabel
      registrableDomain := scopeDomain unicode request.baseUrl
      urlCount := kept.length
      sha256 := wire.sha256Hex body
      sample := kept.take sampleSize
      counts := counts }
    if manifest.Valid then .ok (manifest, body) else .error .validation

end Filters

end Rankuno
