import Rankuno.HttpFetcher.Fetcher
import Rankuno.Python.Html
import Rankuno.ScreamingFrog.Reconciler

/-!
# The links of a page

`_AnchorCollector` and `read_page_links`: one reading of a page collects the addresses of its
anchors, its base address, and where its first `main` and its first `article` begin and end
among them. `urljoin` is a parameter.
-/

namespace Rankuno.PageLinks

open Python Python.Text UrlKeys

/-- The standard library as far as links go. -/
structure LinkRules where
  unicode : UnicodeData
  /-- `urljoin`, `none` where it raises `ValueError`. -/
  urljoin : Text → Text → Option Text

def mainTag : Text := "main".toList
def articleTag : Text := "article".toList
def baseTag : Text := "base".toList
def anchorTag : Text := "a".toList

def skipLinkPrefixes : List Text :=
  ["#".toList, "javascript:".toList, "mailto:".toList, "tel:".toList, "data:".toList, "sms:".toList]

/-- The number of links before an element and before its end, which is none while it is open. -/
structure Span where
  first : Nat
  last : Option Nat := none
  deriving DecidableEq

/-- The fields of an `_AnchorCollector`. -/
structure AnchorCollector where
  hrefs : List Text := []
  baseHref : Option Text := none
  main : Option Span := none
  article : Option Span := none

/-- The address of an element: its first `href` that is not empty. -/
def hrefOf (unicode : UnicodeData) (element : Element) : Option Text :=
  (element.attrs.findSome? fun attr =>
    if unicode.lower attr.1 = "href".toList then attr.2.filter fun value => value ≠ []
    else none).map (strip isSpace)

/-- A span begins at the first start tag. -/
def openSpan (count : Nat) (span : Option Span) : Option Span := span.or (some ⟨count, none⟩)

/-- A span ends at the first end tag. -/
def closeSpan (count : Nat) (span : Option Span) : Option Span :=
  span.map fun span => { span with last := span.last.or (some count) }

namespace AnchorCollector

/-- `handle_starttag`. -/
def handleStarttag (unicode : UnicodeData) (element : Element) (s : AnchorCollector) :
    AnchorCollector :=
  let opened :=
    if element.tag = mainTag ∧ s.main = none then
      { s with main := openSpan s.hrefs.length s.main }
    else if element.tag = articleTag ∧ s.article = none then
      { s with article := openSpan s.hrefs.length s.article }
    else s
  if element.tag = baseTag ∧ opened.baseHref = none then
    { opened with baseHref := hrefOf unicode element }
  else if element.tag = anchorTag then
    { opened with hrefs := opened.hrefs ++ (hrefOf unicode element).toList }
  else opened

/-- `handle_endtag`. -/
def handleEndtag (tag : Text) (s : AnchorCollector) : AnchorCollector :=
  if tag = mainTag ∧ s.main ≠ none ∧ (s.main.bind Span.last) = none then
    { s with main := closeSpan s.hrefs.length s.main }
  else if tag = articleTag ∧ s.article ≠ none ∧ (s.article.bind Span.last) = none then
    { s with article := closeSpan s.hrefs.length s.article }
  else s

def handle (unicode : UnicodeData) (s : AnchorCollector) : Event → AnchorCollector
  | .startTag element => s.handleStarttag unicode element
  | .data _ => s
  | .endTag tag => s.handleEndtag tag

def run (unicode : UnicodeData) (events : List Event) : AnchorCollector :=
  events.foldl (handle unicode) {}

/-- `body_region`. -/
def bodyRegion (s : AnchorCollector) : Option (Nat × Nat) :=
  (s.main.or s.article).map fun span => (span.first, span.last.getD s.hrefs.length)

end AnchorCollector

def isWeb (parts : SplitResult) : Bool :=
  parts.scheme = "http".toList ∨ parts.scheme = "https".toList

/-- `_resolution_base`. -/
def resolutionBase (rules : LinkRules) (baseHref : Option Text) (landedUrl site : Text) : Text :=
  match baseHref.filter fun href => href ≠ [] with
  | none => landedUrl
  | some href =>
    match rules.urljoin landedUrl href with
    | none => landedUrl
    | some resolved =>
      match safeSplit rules.unicode resolved with
      | none => landedUrl
      | some parts =>
        if isWeb parts ∧ siteHost rules.unicode parts.netloc = site then resolved
        else landedUrl

/-- `is_crawlable_url`. -/
def isCrawlableUrl (unicode : UnicodeData) (url : Text) : Bool :=
  match safeSplit unicode url with
  | none => true
  | some parts => !endsWithAny nonPageSuffixes (unicode.lower parts.path)

/-- The link of an address, if it is kept. -/
def linkOf (rules : LinkRules) (sameHostOnly : Bool) (resolveAgainst baseHost href : Text) :
    Option Text :=
  if skipLinkPrefixes.any fun lead => lead.isPrefixOf href then none
  else
    match rules.urljoin resolveAgainst href with
    | none => none
    | some absolute =>
      if maxFetchUrlLength < absolute.length then none
      else
        match safeSplit rules.unicode absolute with
        | none => none
        | some parts =>
          if isWeb parts = false then none
          else if sameHostOnly ∧ siteHost rules.unicode parts.netloc ≠ baseHost then none
          else if isCrawlableUrl rules.unicode absolute = false then none
          else some (partition '#' absolute).1

/-- `LinkReading`. -/
structure LinkReading where
  links : List Text
  bodyLinks : List Text
  deriving DecidableEq

/-- `found[link] = None`. -/
def addLink (found : List Text) (link : Text) : List Text :=
  if found.any fun other => other = link then found else found ++ [link]

/-- The loop over the addresses from an index on. -/
def readHrefs (keep : Text → Option Text) (region : Option (Nat × Nat)) :
    Nat → LinkReading → List Text → LinkReading
  | _, reading, [] => reading
  | index, reading, href :: hrefs =>
    match keep href with
    | none => readHrefs keep region (index + 1) reading hrefs
    | some link =>
      readHrefs keep region (index + 1)
        { links := addLink reading.links link
          bodyLinks :=
            if region.all fun span => span.1 ≤ index ∧ index < span.2 then
              addLink reading.bodyLinks link
            else reading.bodyLinks }
        hrefs

/-- What a call of `read_page_links` is given beside the page. -/
structure LinkRequest where
  baseUrl : Text
  sameHostOnly : Bool := true
  documentUrl : Text := []

/-- The link of an address on a page, if it is kept. -/
def LinkRequest.keep (request : LinkRequest) (rules : LinkRules) (baseHref : Option Text) :
    Text → Option Text :=
  let baseHost :=
    match safeSplit rules.unicode request.baseUrl with
    | none => []
    | some parts => siteHost rules.unicode parts.netloc
  let landedUrl := if request.documentUrl ≠ [] then request.documentUrl else request.baseUrl
  linkOf rules request.sameHostOnly (resolutionBase rules baseHref landedUrl baseHost) baseHost

/-- `read_page_links`, of the stream that the page is read as. -/
def readPageLinks (rules : LinkRules) (request : LinkRequest) (events : List Event) : LinkReading :=
  let collector := AnchorCollector.run rules.unicode events
  readHrefs (request.keep rules collector.baseHref) collector.bodyRegion 0 ⟨[], []⟩
    collector.hrefs

end Rankuno.PageLinks
