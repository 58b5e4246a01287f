import Mathlib.Data.List.Infix
import Rankuno.Python.Html

/-!
# Collecting the entries of the header menu

`_NavCollector`: the stream of a page's tags is read once. Counters say whether a tag is inside
the menu, and inside it the anchors and the headings without a link are collected with the
depth of their lists and panels. The letters of a word and `int` are parameters.
-/

namespace Rankuno.NavMenu

open Python Python.Text

/-- The standard library as far as labels and declared depths go. -/
structure Reader where
  /-- A character that `\w` matches. -/
  isWord : Char → Bool
  /-- `int(raw.strip())`, `none` where it raises `ValueError`. -/
  int : Text → Option Int

def roleAttr : Text := "role".toList

def navTags : List Text := ["nav".toList, "header".toList]
def listTags : List Text := ["ul".toList, "ol".toList, "dl".toList]

def headingTags : List Text :=
  ["span".toList, "strong".toList, "h2".toList, "h3".toList, "h4".toList, "h5".toList,
    "h6".toList, "div".toList, "button".toList, "summary".toList]

def panelTags : List Text :=
  ["div".toList, "section".toList, "aside".toList, "ul".toList, "ol".toList, "nav".toList,
    "details".toList]

def footerTag : Text := "footer".toList
def anchorTag : Text := "a".toList

/-- `ROOT_LEVEL_ATTRS`. -/
def rootLevelAttrs : List (Text × Int) :=
  [("data-menu-level".toList, 0), ("data-level".toList, 0), ("aria-level".toList, 1)]

/-- `_BREADCRUMB_WORD.search(value)`. -/
def namesBreadcrumb (value : Text) : Bool :=
  (value.map Char.toLower).tails.any fun rest => "breadcrumb".toList.isPrefixOf rest

/-- `is_breadcrumb_container`. -/
def isBreadcrumbContainer (element : Element) : Bool :=
  ["aria-label".toList, "class".toList, "id".toList, "itemtype".toList,
    "data-testid".toList].any fun key => (element.attr? key).any namesBreadcrumb

/-- `_declares_root`. -/
def declaresRoot (reader : Reader) (element : Element) : Bool :=
  rootLevelAttrs.any fun attr =>
    ((element.attr? attr.1).bind reader.int).any fun level => level = attr.2

/-- `_FRAGMENT_HREF.match(href)`, the fragment. -/
def fragment? (reader : Reader) : Text → Option Text
  | '#' :: first :: rest =>
    if isAsciiAlpha first ∧
        rest.all (fun c => reader.isWord c || c = ':' || c = '.' || c = '-') then
      some (first :: rest)
    else none
  | _ => none

/-- `_WHITESPACE.sub(" ", _)`, inside a run or not. -/
def squeeze (inRun : Bool) : Text → Text
  | [] => []
  | c :: rest =>
    if isSpace c then
      if inRun then squeeze true rest else ' ' :: squeeze true rest
    else c :: squeeze false rest

/-- What the counters say about the place in the page. -/
structure Gate where
  navDepth : Nat := 0
  footerDepth : Nat := 0
  crumbDepth : Nat := 0
  crumbTags : List Text := []

/-- `_inside_header_nav`. -/
def Gate.insideHeaderNav (gate : Gate) : Bool :=
  0 < gate.navDepth ∧ gate.footerDepth = 0 ∧ gate.crumbDepth = 0

/-- The fields of a `_NavCollector`, the top of the stacks first. -/
structure NavCollector extends Gate where
  entries : List (Nat × Text × Option Text) := []
  declaredRootHrefs : List Text := []
  containers : Nat := 0
  listDepth : Nat := 0
  dropdownDepth : Nat := 0
  navStack : List Bool := []
  panelIds : List Text := []
  elements : List Text := []
  panelLevels : List Nat := []
  current : Option Text := none
  currentHref : Option Text := none
  currentDepth : Nat := 0
  anchorOpen : Bool := false

/-- `tag == "footer" or mapping.get("role") == "contentinfo"`. -/
def isFooter (element : Element) : Bool :=
  element.tag = footerTag ∨ element.attr? roleAttr = some "contentinfo".toList

/-- `mapping.get("role") == "navigation"`. -/
def hasNavRole (element : Element) : Bool := element.attr? roleAttr = some "navigation".toList

namespace NavCollector

variable (reader : Reader)

/-- `_open`. -/
def openEntry (href : Option Text) (s : NavCollector) : NavCollector :=
  { s with
    current := some []
    currentHref := href
    currentDepth := s.dropdownDepth + (s.listDepth - 1) }

/-- The label of a text, which is none without a letter. -/
def labelOf (text : Text) : Text :=
  let words := Text.strip isSpace (squeeze false text)
  if words.any reader.isWord then words else []

/-- `_finish_anchor`. -/
def finishAnchor (s : NavCollector) : NavCollector :=
  match s.current with
  | none => s
  | some text =>
    let label := labelOf reader text
    { s with
      entries :=
        if label ≠ [] ∨ s.currentHref ≠ none then
          s.entries ++ [(s.currentDepth, label, s.currentHref)]
        else s.entries
      current := none
      currentHref := none
      anchorOpen := false }

/-- The start of a `nav`, a `header` or an element with the role of one. -/
def startNav (element : Element) (s : NavCollector) : NavCollector :=
  let containers :=
    if s.navDepth = 0 ∧ s.footerDepth = 0 then s.containers + 1 else s.containers
  if oneOf navTags element.tag then
    let counted := s.insideHeaderNav && decide (0 < s.listDepth)
    { s with
      containers
      navStack := counted :: s.navStack
      dropdownDepth := if counted then s.dropdownDepth + 1 else s.dropdownDepth
      navDepth := s.navDepth + 1 }
  else { s with containers, navDepth := s.navDepth + 1 }

/-- The element on the stack, and its panel if it is one. -/
def pushElement (element : Element) (s : NavCollector) : NavCollector :=
  if element.isVoid then s
  else
    let elements := element.tag :: s.elements
    let elementId := Text.strip isSpace ((element.attr? "id".toList).getD [])
    if oneOf panelTags element.tag ∧ elementId ≠ [] ∧ oneOf s.panelIds elementId then
      { s with
        elements
        panelLevels := elements.length :: s.panelLevels
        dropdownDepth := s.dropdownDepth + 1 }
    else { s with elements }

/-- The address of an anchor: `mapping.get("href") or None`. -/
def hrefOf (element : Element) : Option Text :=
  (element.attr? "href".toList).filter fun href => href ≠ []

/-- The start of an anchor inside the menu. -/
def startAnchor (element : Element) (s : NavCollector) : NavCollector :=
  let finished := s.finishAnchor reader
  let href := hrefOf element
  let opened :=
    { finished with
      panelIds := finished.panelIds ++
        (href.bind fun href => fragment? reader (Text.strip isSpace href)).toList
      declaredRootHrefs := finished.declaredRootHrefs ++
        (href.filter fun _ => declaresRoot reader element).toList }
  { opened.openEntry href with anchorOpen := true }

/-- The start of an element inside the menu. -/
def startInside (element : Element) (s : NavCollector) : NavCollector :=
  let pushed := s.pushElement element
  if oneOf listTags element.tag then { pushed with listDepth := pushed.listDepth + 1 }
  else if element.tag = anchorTag then pushed.startAnchor reader element
  else if oneOf headingTags element.tag ∧ pushed.anchorOpen = false ∧ 0 < pushed.listDepth then
    pushed.openEntry none
  else pushed

/-- `handle_starttag`. -/
def handleStarttag (element : Element) (s : NavCollector) : NavCollector :=
  if isFooter element then { s with footerDepth := s.footerDepth + 1 }
  else if isBreadcrumbContainer element then
    { s with crumbDepth := s.crumbDepth + 1, crumbTags := element.tag :: s.crumbTags }
  else if oneOf navTags element.tag || hasNavRole element then s.startNav element
  else if s.insideHeaderNav = false then s
  else s.startInside reader element

/-- The panels that began above a level of the stack are closed. -/
def closePanels (level : Nat) : List Nat → Nat → List Nat × Nat
  | [], dropdownDepth => ([], dropdownDepth)
  | top :: panelLevels, dropdownDepth =>
    if level < top then closePanels level panelLevels (dropdownDepth - 1)
    else (top :: panelLevels, dropdownDepth)

/-- The elements are popped to one of a tag. -/
def popElements (tag : Text) : List Text → List Nat → Nat → List Text × List Nat × Nat
  | [], panelLevels, dropdownDepth => ([], panelLevels, dropdownDepth)
  | popped :: elements, panelLevels, dropdownDepth =>
    let closed := closePanels elements.length panelLevels dropdownDepth
    if popped = tag then (elements, closed)
    else popElements tag elements closed.1 closed.2

/-- The end of a `nav` or a `header`. -/
def endNav (s : NavCollector) : NavCollector :=
  let finished := s.finishAnchor reader
  { finished with
    navDepth := finished.navDepth - 1
    navStack := finished.navStack.tail
    dropdownDepth :=
      if finished.navStack.head? = some true then finished.dropdownDepth - 1
      else finished.dropdownDepth }

/-- The element off the stack, with what was left open in it. -/
def popElement (tag : Text) (s : NavCollector) : NavCollector :=
  if oneOf voidTags tag = false ∧ oneOf s.elements tag then
    let left := popElements tag s.elements s.panelLevels s.dropdownDepth
    { s with elements := left.1, panelLevels := left.2.1, dropdownDepth := left.2.2 }
  else s

/-- The end of an element inside the menu. -/
def endInside (tag : Text) (s : NavCollector) : NavCollector :=
  let popped := s.popElement tag
  if oneOf listTags tag then { popped with listDepth := popped.listDepth - 1 }
  else if tag = anchorTag then popped.finishAnchor reader
  else if oneOf headingTags tag ∧ popped.anchorOpen = false then popped.finishAnchor reader
  else popped

/-- `handle_endtag`. -/
def handleEndtag (tag : Text) (s : NavCollector) : NavCollector :=
  if tag = footerTag then { s with footerDepth := s.footerDepth - 1 }
  else if s.crumbTags.head? = some tag then
    { s with crumbDepth := s.crumbDepth - 1, crumbTags := s.crumbTags.tail }
  else if oneOf navTags tag then s.endNav reader
  else if s.insideHeaderNav = false then s
  else s.endInside reader tag

/-- `handle_data`. -/
def handleData (data : Text) (s : NavCollector) : NavCollector :=
  { s with current := s.current.map fun text => text ++ data }

def handle (s : NavCollector) : Event → NavCollector
  | .startTag element => s.handleStarttag reader element
  | .data text => s.handleData text
  | .endTag tag => s.handleEndtag reader tag

def run (events : List Event) : NavCollector := events.foldl (handle reader) {}

end NavCollector

end Rankuno.NavMenu
