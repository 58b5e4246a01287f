import Rankuno.NavMenu.NavCollector
import Rankuno.PageClassifier.Signals

/-!
# The links of the navigation

`_NavLinkExtractor`: the anchors inside navigation landmarks, with the depth of their lists. A
landmark is opened by its tag or by its role but closed by its tag, its end leaves every list,
and one anchor is read at a time.
-/

namespace Rankuno.PageClassifier

open Python Python.Text

def navTag : Text := "nav".toList
def anchorTag : Text := "a".toList
def listTags : List Text := ["ul".toList, "ol".toList]

/-- What the address of a link does not start with. -/
def unusablePrefixes : List Text :=
  ["#".toList, "javascript:".toList, "mailto:".toList, "tel:".toList]

/-- A `NavLink` with its text. -/
structure LabelledLink extends NavLink where
  text : Text

/-- The fields of a `_NavLinkExtractor`. -/
structure NavLinkExtractor where
  links : List LabelledLink := []
  navDepth : Nat := 0
  listDepth : Nat := 0
  currentHref : Option Text := none
  currentText : Text := []

section Elements

variable (unicode : UnicodeData)

/-- `attributes.get(name, "")`. -/
def attributeOf (element : Element) (name : Text) : Text :=
  let attributes := element.attrs.map fun attr => (unicode.lower attr.1, attr.2)
  (Element.attr? { element with attrs := attributes } name).getD []

def isLandmark (element : Element) : Bool :=
  element.tag = navTag ∨
    unicode.lower (attributeOf unicode element "role".toList) = "navigation".toList

def isList (element : Element) : Bool := oneOf listTags element.tag

/-- The address of an anchor, where it is one to follow. -/
def usableHref (element : Element) : Option Text :=
  let href := strip isSpace (attributeOf unicode element "href".toList)
  if href ≠ [] ∧ unusablePrefixes.all (fun lead => !lead.isPrefixOf href) then some href else none

end Elements

namespace NavLinkExtractor

variable (unicode : UnicodeData)

/-- `handle_starttag`. -/
def handleStarttag (element : Element) (s : NavLinkExtractor) : NavLinkExtractor :=
  if isLandmark unicode element then { s with navDepth := s.navDepth + 1 }
  else if s.navDepth = 0 then s
  else if isList element then { s with listDepth := s.listDepth + 1 }
  else if element.tag = anchorTag then
    match usableHref unicode element with
    | some href => { s with currentHref := some href, currentText := [] }
    | none => s
  else s

/-- `handle_endtag`. -/
def handleEndtag (tag : Text) (s : NavLinkExtractor) : NavLinkExtractor :=
  if tag = navTag ∧ 0 < s.navDepth then { s with navDepth := s.navDepth - 1, listDepth := 0 }
  else if s.navDepth = 0 then s
  else if oneOf listTags tag ∧ 0 < s.listDepth then { s with listDepth := s.listDepth - 1 }
  else if tag = anchorTag then
    match s.currentHref with
    | some href =>
      let text := strip isSpace (NavMenu.squeeze false s.currentText)
      { s with
        links := s.links ++ [⟨⟨href, s.listDepth - 1⟩, text⟩]
        currentHref := none
        currentText := [] }
    | none => s
  else s

/-- `handle_data`. -/
def handleData (data : Text) (s : NavLinkExtractor) : NavLinkExtractor :=
  if s.currentHref = none then s else { s with currentText := s.currentText ++ data }

def handle (s : NavLinkExtractor) : Event → NavLinkExtractor
  | .startTag element => s.handleStarttag unicode element
  | .data data => s.handleData data
  | .endTag tag => s.handleEndtag tag

def run (events : List Event) : NavLinkExtractor := events.foldl (handle unicode) {}

def recorded (s : NavLinkExtractor) : List (Text × Nat) :=
  s.links.map fun link => (link.href, link.navDepth)

end NavLinkExtractor

section Spec

variable (unicode : UnicodeData)

/-- An element inside of others lies in a landmark. -/
def inNavigation (above : List Element) : Bool := above.any (isLandmark unicode)

/-- The lists around an element that are themselves in a landmark: those inside the outermost. -/
def listsAround : List Element → Nat
  | [] => 0
  | outer :: above =>
    (if isList outer && inNavigation unicode above then 1 else 0) + listsAround above

/-- The element lies in an anchor to follow in a landmark. -/
def inAnchor : List Element → Bool
  | [] => false
  | outer :: above =>
    (outer.tag = anchorTag && inNavigation unicode above && (usableHref unicode outer).isSome) ||
      inAnchor above

/-- The address and the depth of an anchor to follow in a landmark. -/
def navAnchor (place : Document.Place) : List (Text × Nat) :=
  if place.element.tag = anchorTag ∧ inNavigation unicode place.above then
    (usableHref unicode place.element).toList.map fun href =>
      (href, listsAround unicode place.above - 1)
  else []

/-- The anchors to follow in the landmarks are recorded, and the counters are back at zero. -/
structure ReadsNavLinks (document : Document) : Prop where
  links : (NavLinkExtractor.run unicode document.events).recorded =
    (document.places [] []).flatMap (navAnchor unicode)
  navDepth : (NavLinkExtractor.run unicode document.events).navDepth = 0
  listDepth : (NavLinkExtractor.run unicode document.events).listDepth = 0

/-- A landmark is a `nav`, which is in no list of another one, and no anchor is in an anchor to
follow. -/
@[mk_iff] structure Plain (place : Document.Place) : Prop where
  landmark : isLandmark unicode place.element = true → place.element.tag = navTag
  lists : place.element.tag = navTag → listsAround unicode place.above = 0
  anchors : place.element.tag = anchorTag → inAnchor unicode place.above = false

instance (place : Document.Place) : Decidable (Plain unicode place) :=
  decidable_of_iff' _ (plain_iff unicode place)

end Spec

/-! ### Over a document -/

namespace NavLinkExtractor

variable {unicode : UnicodeData} {s t u : NavLinkExtractor} {element : Element}
  {above : List Element} {before : List Event} {anchors more : List (Text × Nat)}
  {place : Document.Place}

/-- The extractor is at a place inside of some elements. -/
structure Inside (unicode : UnicodeData) (above : List Element) (s : NavLinkExtractor) : Prop where
  navDepth : s.navDepth = above.countP (isLandmark unicode)
  listDepth : s.listDepth = listsAround unicode above
  current : s.currentHref ≠ none → inAnchor unicode above = true

/-- Some anchors were read, of which there are none inside of another. -/
structure Extends (anchors : List (Text × Nat)) (s t : NavLinkExtractor) : Prop where
  links : t.recorded = s.recorded ++ anchors
  navDepth : t.navDepth = s.navDepth
  listDepth : t.listDepth = s.listDepth
  current : t.currentHref = s.currentHref
  quiet : s.currentHref ≠ none → anchors = []

theorem Extends.refl (s : NavLinkExtractor) : Extends [] s s :=
  ⟨(List.append_nil _).symm, rfl, rfl, rfl, fun _ => rfl⟩

theorem Extends.trans (first : Extends anchors s t) (second : Extends more t u) :
    Extends (anchors ++ more) s u where
  links := by rw [second.links, first.links, List.append_assoc]
  navDepth := second.navDepth.trans first.navDepth
  listDepth := second.listDepth.trans first.listDepth
  current := second.current.trans first.current
  quiet reading := by rw [first.quiet reading, second.quiet (first.current ▸ reading)]; rfl

theorem Inside.of_extends (inside : Inside unicode above s) (read : Extends anchors s t) :
    Inside unicode above t :=
  ⟨read.navDepth.trans inside.navDepth, read.listDepth.trans inside.listDepth,
    read.current ▸ inside.current⟩

theorem Inside.inNavigation_iff (inside : Inside unicode above s) :
    inNavigation unicode above = true ↔ s.navDepth ≠ 0 := by
  rw [inside.navDepth, ← Nat.pos_iff_ne_zero, List.countP_pos_iff, inNavigation, List.any_eq_true]

theorem Inside.push (inside : Inside unicode above s)
    (navDepth : t.navDepth = s.navDepth + if isLandmark unicode element then 1 else 0)
    (listDepth : t.listDepth =
      (if isList element && inNavigation unicode above then 1 else 0) + s.listDepth)
    (current : t.currentHref = s.currentHref ∨ inAnchor unicode (element :: above) = true) :
    Inside unicode (element :: above) t := by
  refine ⟨?_, ?_, fun reading => ?_⟩
  · rw [navDepth, inside.navDepth, List.countP_cons]
  · rw [listDepth, inside.listDepth, listsAround]
  · rcases current with same | opened
    · exact Bool.or_eq_true_iff.mpr (Or.inr (inside.current (same ▸ reading)))
    · exact opened

theorem Inside.current_eq_none (inside : Inside unicode place.above s)
    (plain : Plain unicode place) (anchor : place.element.tag = anchorTag) :
    s.currentHref = none := by
  by_contra reading
  exact Bool.false_ne_true ((plain.anchors anchor).symm.trans (inside.current reading))

/-- An element is read from its start tag, with what is read of its content, to its end tag. -/
structure ReadsElement (unicode : UnicodeData) (place : Document.Place) (s : NavLinkExtractor) :
    Prop where
  inside : Inside unicode (place.element :: place.above) (s.handleStarttag unicode place.element)
  whole : ∀ anchors t, Extends anchors (s.handleStarttag unicode place.element) t →
    Extends (navAnchor unicode place ++ anchors) s (t.handleEndtag place.element.tag)

theorem tag_ne_nav (landmark : isLandmark unicode element = false) : element.tag ≠ navTag :=
  fun nav => Bool.false_ne_true (landmark.symm.trans (decide_eq_true (Or.inl nav)))

theorem reads_landmark (plain : Plain unicode place) (inside : Inside unicode place.above s)
    (landmark : isLandmark unicode place.element = true) : ReadsElement unicode place s := by
  have nav := plain.landmark landmark
  have noList : isList place.element = false := by rw [isList, nav]; decide
  have noAnchor : navAnchor unicode place = [] :=
    if_neg fun anchor => absurd (nav.symm.trans anchor.1) (by decide)
  have level : s.listDepth = 0 := inside.listDepth.trans (plain.lists nav)
  have start : s.handleStarttag unicode place.element = { s with navDepth := s.navDepth + 1 } :=
    if_pos landmark
  constructor
  · rw [start]
    exact inside.push (by rw [if_pos landmark]) (by simp [noList]) (Or.inl rfl)
  · intro anchors t body
    rw [start] at body
    have depth : t.navDepth = s.navDepth + 1 := body.navDepth
    rw [noAnchor, List.nil_append, handleEndtag, if_pos ⟨nav, by omega⟩]
    exact ⟨body.links, by rw [depth]; rfl, level.symm, body.current, body.quiet⟩

theorem reads_other (inside : Inside unicode place.above s)
    (landmark : isLandmark unicode place.element = false)
    (other : s.navDepth ≠ 0 → isList place.element = false ∧ (place.element.tag = anchorTag →
        usableHref unicode place.element = none ∧ s.currentHref = none)) :
    s.handleStarttag unicode place.element = s ∧ navAnchor unicode place = [] ∧
      ReadsElement unicode place s := by
  have start : s.handleStarttag unicode place.element = s := by grind [handleStarttag]
  have noAnchor : navAnchor unicode place = [] := by
    grind [navAnchor, inside.inNavigation_iff]
  refine ⟨start, noAnchor, ?_, fun anchors t body => ?_⟩
  · rw [start]
    exact inside.push (by simp [landmark]) (by grind [inside.inNavigation_iff]) (Or.inl rfl)
  · rw [start] at body
    have finish : t.handleEndtag place.element.tag = t := by
      grind [handleEndtag, tag_ne_nav, body.navDepth, body.current, isList]
    rw [finish, noAnchor, List.nil_append]
    exact body

theorem reads_list (inside : Inside unicode place.above s)
    (landmark : isLandmark unicode place.element = false) (inner : s.navDepth ≠ 0)
    (list : isList place.element = true) : ReadsElement unicode place s := by
  have noAnchor : navAnchor unicode place = [] := by
    refine if_neg fun anchor => absurd list ?_
    rw [isList, anchor.1]
    decide
  have start :
      s.handleStarttag unicode place.element = { s with listDepth := s.listDepth + 1 } := by
    rw [handleStarttag, if_neg (Bool.eq_false_iff.mp landmark), if_neg inner, if_pos list]
  constructor
  · rw [start]
    refine inside.push (by simp [landmark]) ?_ (Or.inl rfl)
    rw [list, inside.inNavigation_iff.mpr inner, Bool.true_and, if_pos rfl, Nat.add_comm]
  · intro anchors t body
    rw [start] at body
    have depth : t.listDepth = s.listDepth + 1 := body.listDepth
    have level : t.navDepth = s.navDepth := body.navDepth
    rw [noAnchor, List.nil_append, handleEndtag, if_neg fun closes => tag_ne_nav landmark closes.1,
      if_neg (level ▸ inner), if_pos ⟨list, by omega⟩]
    exact ⟨body.links, level, by rw [depth]; rfl, body.current, body.quiet⟩

theorem reads_anchor (plain : Plain unicode place) (inside : Inside unicode place.above s)
    (landmark : isLandmark unicode place.element = false) (inner : s.navDepth ≠ 0)
    (anchor : place.element.tag = anchorTag) {href : Text}
    (usable : usableHref unicode place.element = some href) : ReadsElement unicode place s := by
  have free : s.currentHref = none := inside.current_eq_none plain anchor
  have noList : isList place.element = false := by rw [isList, anchor]; decide
  have inNav : inNavigation unicode place.above = true := inside.inNavigation_iff.mpr inner
  have own : navAnchor unicode place = [(href, s.listDepth - 1)] := by
    rw [navAnchor, if_pos ⟨anchor, inNav⟩, usable, inside.listDepth]
    rfl
  have start : s.handleStarttag unicode place.element =
      { s with currentHref := some href, currentText := [] } := by
    rw [handleStarttag, if_neg (Bool.eq_false_iff.mp landmark), if_neg inner,
      if_neg (Bool.eq_false_iff.mp noList), if_pos anchor, usable]
  constructor
  · rw [start]
    exact inside.push (by simp [landmark]) (by simp [noList])
      (Or.inr (by simp [inAnchor, anchor, inNav, usable]))
  · intro anchors t body
    rw [start] at body
    have reading : t.currentHref = some href := body.current
    have level : t.navDepth = s.navDepth := body.navDepth
    have depth : t.listDepth = s.listDepth := body.listDepth
    have links : t.recorded = s.recorded ++ anchors := body.links
    have alone : anchors = [] := body.quiet (Option.some_ne_none href)
    rw [alone, List.append_nil] at links
    rw [own, alone, List.append_nil, handleEndtag, anchor,
      if_neg fun closes => absurd closes.1 (by decide), if_neg (level ▸ inner),
      if_neg fun closes => absurd closes.1 (by decide), if_pos rfl, reading]
    refine ⟨?_, level, depth, free.symm, fun busy => absurd free busy⟩
    rw [recorded, List.map_append, ← depth, ← links]
    rfl

theorem reads_element (plain : Plain unicode place) (inside : Inside unicode place.above s) :
    ReadsElement unicode place s := by
  by_cases landmark : isLandmark unicode place.element = true
  · exact reads_landmark plain inside landmark
  · have landmark := Bool.eq_false_iff.mpr landmark
    by_cases inner : s.navDepth = 0
    · exact (reads_other inside landmark fun busy => absurd inner busy).2.2
    · cases list : isList place.element with
      | true => exact reads_list inside landmark inner list
      | false =>
        cases usable : usableHref unicode place.element with
        | none =>
          exact (reads_other inside landmark fun _ =>
            ⟨list, fun anchor => ⟨usable, inside.current_eq_none plain anchor⟩⟩).2.2
        | some href =>
          by_cases anchor : place.element.tag = anchorTag
          · exact reads_anchor plain inside landmark inner anchor usable
          · exact (reads_other inside landmark fun _ =>
              ⟨list, fun same => absurd same anchor⟩).2.2

theorem reads_void (plain : Plain unicode place) (inside : Inside unicode place.above s)
    (void : place.element.isVoid = true) :
    s.handleStarttag unicode place.element = s ∧ navAnchor unicode place = [] := by
  have not : ∀ tag, oneOf voidTags tag = false → place.element.tag ≠ tag := by
    rintro tag filled rfl
    exact Bool.false_ne_true (filled.symm.trans void)
  have landmark : isLandmark unicode place.element = false :=
    Bool.eq_false_iff.mpr fun landmark => not navTag (by decide) (plain.landmark landmark)
  have list : isList place.element = false := by
    refine Bool.eq_false_iff.mpr fun list => ?_
    rcases List.mem_pair.mp (oneOf_iff.mp list) with ul | ol
    · exact not "ul".toList (by decide) ul
    · exact not "ol".toList (by decide) ol
  have other := reads_other inside landmark fun _ =>
    ⟨list, fun anchor => absurd anchor (not anchorTag (by decide))⟩
  exact ⟨other.1, other.2.1⟩

theorem extends_handleData (data : Text) : Extends [] s (s.handleData data) := by
  rw [handleData]
  split
  · exact Extends.refl s
  · exact ⟨(List.append_nil _).symm, rfl, rfl, rfl, fun _ => rfl⟩

theorem extends_document (document : Document)
    (plain : ∀ place ∈ document.places above before, Plain unicode place)
    (inside : Inside unicode above s) :
    Extends ((document.places above before).flatMap (navAnchor unicode)) s
      (document.events.foldl (handle unicode) s) := by
  induction document generalizing above before s with
  | done => exact Extends.refl s
  | data text rest ih =>
    have read : Extends [] s (s.handleData text) := extends_handleData text
    exact read.trans (ih plain (inside.of_extends read))
  | element element content rest below after =>
    cases void : element.isVoid with
    | true =>
      rw [Document.places_void void] at plain ⊢
      obtain ⟨start, noAnchor⟩ := reads_void (plain _ List.mem_cons_self) inside void
      have last := after (fun place listed => plain place (List.mem_cons_of_mem _ listed)) inside
      rw [Document.events_void void, List.foldl_cons, handle, start, List.flatMap_cons, noAnchor]
      exact last
    | false =>
      rw [Document.places_element void] at plain ⊢
      have reads := reads_element (plain _ List.mem_cons_self) inside
      have inner := below (fun place listed =>
        plain place (List.mem_cons_of_mem _ (List.mem_append_left _ listed))) reads.inside
      have whole := reads.whole _ _ inner
      have last := after (fun place listed =>
        plain place (List.mem_cons_of_mem _ (List.mem_append_right _ listed)))
        (inside.of_extends whole)
      rw [Document.events_element void, List.foldl_cons, List.foldl_append, List.foldl_cons,
        List.flatMap_cons, List.flatMap_append, ← List.append_assoc]
      exact whole.trans last

theorem navDepth_handleStarttag : (s.handleStarttag unicode element).navDepth =
    s.navDepth + if isLandmark unicode element then 1 else 0 := by
  grind [handleStarttag]

theorem navDepth_handleEndtag (tag : Text) :
    (s.handleEndtag tag).navDepth = s.navDepth - if tag = navTag then 1 else 0 := by
  grind -ring [handleEndtag]

theorem navDepth_document (document : Document) :
    (document.events.foldl (handle unicode) s).navDepth = s.navDepth +
      document.elements.countP fun element =>
        isLandmark unicode element ∧ element.tag ≠ navTag := by
  induction document generalizing s with
  | done => rfl
  | data text rest ih =>
    have same : (s.handleData text).navDepth = s.navDepth := by grind [handleData]
    exact ih.trans (congrArg (· + _) same)
  | element element content rest below after =>
    cases void : element.isVoid with
    | true =>
      have nav : element.tag ≠ navTag := fun nav =>
        absurd void (by rw [Element.isVoid, nav]; decide)
      rw [Document.events_void void, Document.elements_void void, List.foldl_cons, after, handle,
        navDepth_handleStarttag, List.countP_cons]
      simp only [nav, ne_eq, not_false_eq_true, and_true, Bool.decide_eq_true]
      omega
    | false =>
      have named : element.tag = navTag → isLandmark unicode element = true :=
        fun nav => decide_eq_true (Or.inl nav)
      rw [Document.events_element void, Document.elements_element void, List.foldl_cons,
        List.foldl_append, List.foldl_cons, after, handle, handle, navDepth_handleEndtag, below,
        navDepth_handleStarttag, List.countP_cons, List.countP_append]
      grind -ring

end NavLinkExtractor

/-- Where every landmark is a `nav` outside the lists of another one, and no anchor is inside one
to follow, the anchors of the landmarks are recorded; where they are, every landmark is a
`nav`. -/
theorem readsNavLinks_of_plain (unicode : UnicodeData) (document : Document) :
    ((∀ place ∈ document.places [] [], Plain unicode place) → ReadsNavLinks unicode document) ∧
      (ReadsNavLinks unicode document → ∀ element ∈ document.elements,
        isLandmark unicode element = true → element.tag = navTag) := by
  refine ⟨fun plain => ?_, fun reads element listed landmark => ?_⟩
  · have whole := NavLinkExtractor.extends_document document plain
      (s := {}) ⟨rfl, rfl, fun busy => absurd rfl busy⟩
    exact ⟨whole.links, whole.navDepth, whole.listDepth⟩
  · have depth := @NavLinkExtractor.navDepth_document unicode {} document
    have stuck := (Nat.zero_add _).symm.trans (depth.symm.trans reads.navDepth)
    by_contra nav
    exact List.countP_eq_zero.mp stuck element listed (decide_eq_true ⟨landmark, nav⟩)

/-- `<nav><ul><li><a href="/a"></a></li></ul></nav>`. -/
def menuSample : Document :=
  .element ⟨navTag, []⟩ (.element ⟨"ul".toList, []⟩ (.element ⟨"li".toList, []⟩
    (.element ⟨anchorTag, [("href".toList, some "/a".toList)]⟩ .done .done) .done) .done) .done

/-- `<div role="navigation"></div><a href="/a"></a>`. -/
def roleSample : Document :=
  .element ⟨"div".toList, [("role".toList, some "navigation".toList)]⟩ .done
    (.element ⟨anchorTag, [("href".toList, some "/a".toList)]⟩ .done .done)

theorem readsNavLinks_menu : ReadsNavLinks .ascii menuSample := by
  refine (readsNavLinks_of_plain .ascii menuSample).1 ?_
  decide

theorem not_readsNavLinks_role : ¬ReadsNavLinks .ascii roleSample :=
  fun reads => absurd reads.navDepth (by decide)

end Rankuno.PageClassifier
