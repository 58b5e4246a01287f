import Rankuno.Python.Lower
import Rankuno.SiteCrawl.PageLinks

/-!
# The body region

The region begins at the first start tag of its name, and ends at the first end tag of that
name. That is the end of the element it began with, unless an element of the same name lies in
it: then the anchors that follow the inner one are left out.
-/

namespace Rankuno.PageLinks

open Python Python.Text UrlKeys

/-- The element of a start tag. -/
def elementOf? : Event → Option Element
  | .startTag element => some element
  | .data _ => none
  | .endTag _ => none

def startTags (events : List Event) : List Element := events.filterMap elementOf?

def anchorHref (unicode : UnicodeData) (element : Element) : Option Text :=
  if element.tag = anchorTag then hrefOf unicode element else none

/-- The addresses of the anchors among some elements. -/
def hrefsOf (unicode : UnicodeData) (elements : List Element) : List Text :=
  elements.filterMap (anchorHref unicode)

/-- The base address that some elements declare first. -/
def baseOf (unicode : UnicodeData) (elements : List Element) : Option Text :=
  elements.findSome? fun element =>
    if element.tag = baseTag then hrefOf unicode element else none

/-- The first element of a name: the elements before it, and its content. -/
def firstElement (tag : Text) : Document → Option (List Element × Document)
  | .done => none
  | .data _ rest => firstElement tag rest
  | .element e content rest =>
    if e.tag = tag then some ([], content)
    else if e.isVoid then (firstElement tag rest).map fun found => (e :: found.1, found.2)
    else
      ((firstElement tag content).map fun found => (e :: found.1, found.2)).or
        ((firstElement tag rest).map fun found =>
          (e :: (content.elements ++ found.1), found.2))

/-- The element that the body region is named after. -/
structure BodyElement where
  tag : Text
  before : List Element
  content : Document

/-- The first `main`, else the first `article`. -/
def bodyElement (document : Document) : Option BodyElement :=
  ((firstElement mainTag document).map fun found => ⟨mainTag, found.1, found.2⟩).or
    ((firstElement articleTag document).map fun found => ⟨articleTag, found.1, found.2⟩)

section

variable (unicode : UnicodeData) (document : Document)

/-- The addresses of the anchors inside of the body element, or in the whole document. -/
def regionHrefs : List Text :=
  match bodyElement document with
  | none => hrefsOf unicode document.elements
  | some body => hrefsOf unicode body.content.elements

/-- How many addresses come before these, and how many before the end of them. -/
def regionSpan : Nat × Nat :=
  match bodyElement document with
  | none => (0, (hrefsOf unicode document.elements).length)
  | some body =>
    ((hrefsOf unicode body.before).length,
      (hrefsOf unicode body.before).length + (hrefsOf unicode body.content.elements).length)

end

/-- The region that is read is the body element, and the body links are those of the kept links
that an anchor in it has. -/
structure ReadsBody (rules : LinkRules) (document : Document) : Prop where
  hrefs : (AnchorCollector.run rules.unicode document.events).hrefs =
    hrefsOf rules.unicode document.elements
  region : (AnchorCollector.run rules.unicode document.events).bodyRegion.getD
      (0, (hrefsOf rules.unicode document.elements).length) =
    regionSpan rules.unicode document
  links : ∀ request : LinkRequest, (readPageLinks rules request document.events).links =
    ((hrefsOf rules.unicode document.elements).filterMap
      (request.keep rules (baseOf rules.unicode document.elements))).eraseDups
  bodyLinks : ∀ request : LinkRequest, (readPageLinks rules request document.events).bodyLinks =
    ((regionHrefs rules.unicode document).filterMap
      (request.keep rules (baseOf rules.unicode document.elements))).eraseDups
  subset : ∀ request : LinkRequest, (readPageLinks rules request document.events).bodyLinks ⊆
      (readPageLinks rules request document.events).links

/-- Inside of the body element, no anchor with an address begins after an end tag of its name. -/
def ClosesLast (unicode : UnicodeData) (body : BodyElement) : Prop :=
  ∀ before after, body.content.events = before ++ .endTag body.tag :: after →
    hrefsOf unicode (startTags after) = []

section Streams

variable {unicode : UnicodeData} {document content rest : Document} {e : Element} {tag : Text}
  {events events' : List Event} {event : Event} {n first : Nat} {span : Option Span}
  {elements elements' : List Element} {s : AnchorCollector}

theorem startTags_append : startTags (events ++ events') = startTags events ++ startTags events' :=
  List.filterMap_append

theorem startTags_startTag : startTags (.startTag e :: events) = e :: startTags events := rfl

theorem startTags_endTag : startTags (.endTag tag :: events) = startTags events := rfl

theorem startTags_events : startTags document.events = document.elements := by
  induction document with
  | done => rfl
  | data text rest ih => exact ih
  | element e content rest below after =>
    cases void : e.isVoid with
    | true =>
      rw [Document.events_void void, Document.elements_void void, startTags_startTag, after]
    | false =>
      rw [Document.events_element void, Document.elements_element void, startTags_startTag,
        startTags_append, startTags_endTag, below, after]

theorem hrefsOf_append : hrefsOf unicode (elements ++ elements') =
    hrefsOf unicode elements ++ hrefsOf unicode elements' :=
  List.filterMap_append

theorem hrefsOf_cons : hrefsOf unicode (e :: elements) =
    (anchorHref unicode e).toList ++ hrefsOf unicode elements := by
  rw [hrefsOf, hrefsOf, List.filterMap_cons]
  cases anchorHref unicode e <;> rfl

/-! ### One span -/

/-- The number of addresses so far and the span of a name, after an event. -/
def track (unicode : UnicodeData) (tag : Text) (s : Nat × Option Span) : Event → Nat × Option Span
  | .startTag e =>
    (s.1 + (anchorHref unicode e).toList.length, if e.tag = tag then openSpan s.1 s.2 else s.2)
  | .data _ => s
  | .endTag other => (s.1, if other = tag then closeSpan s.1 s.2 else s.2)

/-- The span of a name after a stream. -/
def spanOver (unicode : UnicodeData) (tag : Text) (n : Nat) (span : Option Span)
    (events : List Event) : Option Span :=
  (events.foldl (track unicode tag) (n, span)).2

theorem foldl_track_fst : (events.foldl (track unicode tag) (n, span)).1 =
    n + (hrefsOf unicode (startTags events)).length := by
  induction events generalizing n span with
  | nil => rfl
  | cons event events ih =>
    cases event with
    | startTag e =>
      rw [List.foldl_cons, track, ih, startTags_startTag, hrefsOf_cons, List.length_append,
        Nat.add_assoc]
    | data text => exact ih
    | endTag other => exact ih

theorem spanOver_append : spanOver unicode tag n span (events ++ events') =
    spanOver unicode tag (n + (hrefsOf unicode (startTags events)).length)
      (spanOver unicode tag n span events) events' := by
  rw [spanOver, spanOver, spanOver, List.foldl_append, ← foldl_track_fst]

theorem spanOver_absent (absent : ∀ e ∈ startTags events, e.tag ≠ tag) :
    spanOver unicode tag n none events = none := by
  induction events generalizing n with
  | nil => rfl
  | cons event events ih =>
    cases event with
    | startTag e =>
      rw [startTags_startTag, List.forall_mem_cons] at absent
      rw [spanOver, List.foldl_cons, track, if_neg absent.1]
      exact ih absent.2
    | data text => exact ih absent
    | endTag other =>
      rw [spanOver, List.foldl_cons, track, closeSpan, Option.map_none, ite_self]
      exact ih absent

theorem spanOver_open (running : Event.endTag tag ∉ events) :
    spanOver unicode tag n (some ⟨first, none⟩) events = some ⟨first, none⟩ := by
  induction events generalizing n with
  | nil => rfl
  | cons event events ih =>
    rw [List.mem_cons, not_or] at running
    cases event with
    | startTag e =>
      rw [spanOver, List.foldl_cons, track, openSpan, Option.some_or, ite_self]
      exact ih running.2
    | data text => exact ih running.2
    | endTag other =>
      have differs : other ≠ tag := fun same => running.1 (same ▸ rfl)
      rw [spanOver, List.foldl_cons, track, if_neg differs]
      exact ih running.2

theorem spanOver_closed {last : Nat} :
    spanOver unicode tag n (some ⟨first, some last⟩) events = some ⟨first, some last⟩ := by
  induction events generalizing n with
  | nil => rfl
  | cons event events ih =>
    rw [spanOver, List.foldl_cons]
    cases event with
    | startTag e =>
      rw [track, openSpan, Option.some_or, ite_self]
      exact ih
    | data text => exact ih
    | endTag other =>
      rw [track, closeSpan, Option.map_some, Option.some_or, ite_self]
      exact ih

theorem spanOver_element {inner outer : List Event} (named : e.tag = tag)
    (plain : anchorHref unicode e = none) (absent : ∀ e ∈ startTags events, e.tag ≠ tag)
    (running : Event.endTag tag ∉ inner) :
    spanOver unicode tag 0 none (events ++ .startTag e :: (inner ++ .endTag tag :: outer)) =
      some ⟨(hrefsOf unicode (startTags events)).length,
        some ((hrefsOf unicode (startTags events)).length +
          (hrefsOf unicode (startTags inner)).length)⟩ := by
  rw [spanOver_append, spanOver_absent absent, Nat.zero_add, spanOver, List.foldl_cons, track,
    if_pos named, plain]
  change spanOver unicode tag _ (some ⟨_, none⟩) (inner ++ .endTag tag :: outer) = _
  rw [spanOver_append, spanOver_open running, spanOver, List.foldl_cons, track, if_pos rfl]
  exact spanOver_closed

/-! ### The collector -/

theorem anchorHref_of_tag (other : e.tag ≠ anchorTag) : anchorHref unicode e = none := if_neg other

theorem closeSpan_of_ended (ended : ¬(span ≠ none ∧ span.bind Span.last = none)) :
    closeSpan n span = span := by
  cases span with
  | none => rfl
  | some span =>
    cases last : span.last with
    | none => exact absurd ⟨Option.some_ne_none _, last⟩ ended
    | some count =>
      rw [closeSpan, Option.map_some, last, Option.some_or, ← last]

theorem handleStarttag_eq : s.handleStarttag unicode e =
    { hrefs := s.hrefs ++ (anchorHref unicode e).toList
      baseHref := s.baseHref.or (if e.tag = baseTag then hrefOf unicode e else none)
      main := if e.tag = mainTag then openSpan s.hrefs.length s.main else s.main
      article := if e.tag = articleTag then openSpan s.hrefs.length s.article else s.article } := by
  obtain ⟨hrefs, baseHref, main, article⟩ := s
  rw [AnchorCollector.handleStarttag, anchorHref]
  by_cases mainNamed : e.tag = mainTag
  · have others : mainTag ≠ articleTag ∧ mainTag ≠ baseTag ∧ mainTag ≠ anchorTag := by decide
    cases main <;> simp [mainNamed, others, openSpan]
  · by_cases articleNamed : e.tag = articleTag
    · have others : articleTag ≠ mainTag ∧ articleTag ≠ baseTag ∧ articleTag ≠ anchorTag := by
        decide
      cases article <;> simp [articleNamed, others, openSpan]
    · by_cases baseNamed : e.tag = baseTag
      · have others : baseTag ≠ mainTag ∧ baseTag ≠ articleTag ∧ baseTag ≠ anchorTag := by decide
        cases baseHref <;> simp [baseNamed, others]
      · by_cases anchor : e.tag = anchorTag
        · have others : anchorTag ≠ mainTag ∧ anchorTag ≠ articleTag ∧ anchorTag ≠ baseTag := by
            decide
          simp [anchor, others]
        · simp [mainNamed, articleNamed, baseNamed, anchor]

theorem handleEndtag_eq : s.handleEndtag tag =
    { s with
      main := if tag = mainTag then closeSpan s.hrefs.length s.main else s.main
      article := if tag = articleTag then closeSpan s.hrefs.length s.article else s.article } := by
  have others : articleTag ≠ mainTag := by decide
  rw [AnchorCollector.handleEndtag]
  by_cases mainNamed : tag = mainTag
  · rw [if_pos mainNamed, mainNamed, if_neg others.symm]
    split
    · rfl
    · next ended =>
        rw [if_neg fun article => others article.1.symm,
          closeSpan_of_ended fun open_ => ended ⟨rfl, open_⟩]
  · rw [if_neg fun main => mainNamed main.1, if_neg mainNamed]
    by_cases articleNamed : tag = articleTag
    · rw [if_pos articleNamed]
      split
      · rfl
      · next ended => rw [closeSpan_of_ended fun open_ => ended ⟨articleNamed, open_⟩]
    · rw [if_neg fun article => articleNamed article.1, if_neg articleNamed]

theorem foldl_handle : events.foldl (AnchorCollector.handle unicode) s =
    { hrefs := s.hrefs ++ hrefsOf unicode (startTags events)
      baseHref := s.baseHref.or (baseOf unicode (startTags events))
      main := spanOver unicode mainTag s.hrefs.length s.main events
      article := spanOver unicode articleTag s.hrefs.length s.article events } := by
  induction events generalizing s with
  | nil =>
    rw [startTags, List.filterMap_nil, hrefsOf, List.filterMap_nil, List.append_nil, baseOf,
      List.findSome?_nil, Option.or_none]
    rfl
  | cons event events ih =>
    rw [List.foldl_cons, ih]
    cases event with
    | startTag e =>
      rw [AnchorCollector.handle, handleStarttag_eq]
      dsimp only
      rw [startTags_startTag, hrefsOf_cons, List.append_assoc, List.length_append,
        Option.or_assoc, baseOf, baseOf, List.findSome?_cons]
      congr 1
      cases (if e.tag = baseTag then hrefOf unicode e else none) <;> rfl
    | data text => rfl
    | endTag other =>
      rw [AnchorCollector.handle, handleEndtag_eq]
      rfl

variable (unicode document) in
theorem run_document : AnchorCollector.run unicode document.events =
    { hrefs := hrefsOf unicode document.elements
      baseHref := baseOf unicode document.elements
      main := spanOver unicode mainTag 0 none document.events
      article := spanOver unicode articleTag 0 none document.events } := by
  rw [AnchorCollector.run, foldl_handle, startTags_events]
  rfl

/-! ### The first element of a name -/

theorem firstElement_void (void : e.isVoid = true) (other : e.tag ≠ tag) :
    firstElement tag (.element e content rest) =
      (firstElement tag rest).map fun found => (e :: found.1, found.2) := by
  rw [firstElement, if_neg other, if_pos void]

theorem firstElement_element (void : e.isVoid = false) (other : e.tag ≠ tag) :
    firstElement tag (.element e content rest) =
      ((firstElement tag content).map fun found => (e :: found.1, found.2)).or
        ((firstElement tag rest).map fun found =>
          (e :: (content.elements ++ found.1), found.2)) := by
  rw [firstElement, if_neg other, if_neg (Bool.eq_false_iff.mp void)]

theorem not_tag_of_firstElement_eq_none
    (none_ : firstElement tag document = none) : ∀ e ∈ document.elements, e.tag ≠ tag := by
  induction document with
  | done => exact fun _ never => by cases never
  | data text rest ih => exact ih none_
  | element e content rest below after =>
    have other : e.tag ≠ tag := by
      intro same
      rw [firstElement, if_pos same] at none_
      cases none_
    cases void : e.isVoid with
    | true =>
      rw [firstElement_void void other, Option.map_eq_none_iff] at none_
      rw [Document.elements_void void, List.forall_mem_cons]
      exact ⟨other, after none_⟩
    | false =>
      rw [firstElement_element void other, Option.or_eq_none_iff, Option.map_eq_none_iff,
        Option.map_eq_none_iff] at none_
      rw [Document.elements_element void, List.forall_mem_cons, List.forall_mem_append]
      exact ⟨other, below none_.1, after none_.2⟩

/-- The stream of a document with an element of a name, at the first one. -/
structure Opens (tag : Text) (events : List Event) (before : List Element) (content : Document)
    (pre : List Event) (e : Element) (post : List Event) : Prop where
  stream : events = pre ++ .startTag e :: (content.events ++ .endTag tag :: post)
  named : e.tag = tag
  starts : startTags pre = before
  absent : ∀ other ∈ before, other.tag ≠ tag

theorem exists_opens {found : List Element × Document} (named : oneOf voidTags tag = false)
    (first : firstElement tag document = some found) :
    ∃ pre e post, Opens tag document.events found.1 found.2 pre e post := by
  induction document generalizing found with
  | done => cases first
  | data text rest ih =>
    obtain ⟨pre, e, post, opens⟩ := ih first
    refine ⟨.data text :: pre, e, post, ?_, opens.named, opens.starts, opens.absent⟩
    exact congrArg (Event.data text :: ·) opens.stream
  | element e content rest below after =>
    by_cases same : e.tag = tag
    · rw [firstElement, if_pos same] at first
      cases first
      have void : e.isVoid = false := by
        rw [Element.isVoid, same]
        exact named
      refine ⟨[], e, rest.events, ?_, same, rfl, fun _ never => by cases never⟩
      rw [Document.events_element void, same]
      rfl
    · cases void : e.isVoid with
      | true =>
        rw [firstElement_void void same, Option.map_eq_some_iff] at first
        obtain ⟨inner, first, rfl⟩ := first
        obtain ⟨pre, other, post, opens⟩ := after first
        refine ⟨.startTag e :: pre, other, post, ?_, opens.named, ?_, ?_⟩
        · rw [Document.events_void void, opens.stream]
          rfl
        · rw [startTags_startTag, opens.starts]
        · exact List.forall_mem_cons.mpr ⟨same, opens.absent⟩
      | false =>
        rw [firstElement_element void same] at first
        cases inside : firstElement tag content with
        | some inner =>
          rw [inside, Option.map_some, Option.some_or] at first
          cases first
          obtain ⟨pre, other, post, opens⟩ := below inside
          refine ⟨.startTag e :: pre, other, post ++ .endTag e.tag :: rest.events, ?_,
            opens.named, ?_, ?_⟩
          · rw [Document.events_element void, opens.stream]
            simp only [List.cons_append, List.append_assoc]
          · rw [startTags_startTag, opens.starts]
          · exact List.forall_mem_cons.mpr ⟨same, opens.absent⟩
        | none =>
          rw [inside, Option.map_none, Option.none_or, Option.map_eq_some_iff] at first
          obtain ⟨inner, first, rfl⟩ := first
          obtain ⟨pre, other, post, opens⟩ := after first
          refine ⟨.startTag e :: (content.events ++ .endTag e.tag :: pre), other, post, ?_,
            opens.named, ?_, ?_⟩
          · rw [Document.events_element void, opens.stream]
            simp only [List.cons_append, List.append_assoc]
          · rw [startTags_startTag, startTags_append, startTags_endTag, startTags_events,
              opens.starts]
          · refine List.forall_mem_cons.mpr ⟨same, List.forall_mem_append.mpr ⟨?_, ?_⟩⟩
            · exact not_tag_of_firstElement_eq_none inside
            · exact opens.absent

theorem spanOver_of_none (none_ : firstElement tag document = none) :
    spanOver unicode tag 0 none document.events = none := by
  refine spanOver_absent ?_
  rw [startTags_events]
  exact not_tag_of_firstElement_eq_none none_

theorem spanOver_of_some {found : List Element × Document} (named : oneOf voidTags tag = false)
    (other : tag ≠ anchorTag) (first : firstElement tag document = some found) :
    ∃ inner outer, found.2.events ++ [.endTag tag] = inner ++ .endTag tag :: outer ∧
      Event.endTag tag ∉ inner ∧ spanOver unicode tag 0 none document.events =
          some ⟨(hrefsOf unicode found.1).length, some ((hrefsOf unicode found.1).length +
            (hrefsOf unicode (startTags inner)).length)⟩ := by
  obtain ⟨pre, e, post, opens⟩ := exists_opens named first
  have listed : Event.endTag tag ∈ found.2.events ++ [.endTag tag] :=
    List.mem_append_right _ List.mem_cons_self
  obtain ⟨inner, outer, split, running⟩ := List.eq_append_cons_of_mem listed
  refine ⟨inner, outer, split, running, ?_⟩
  have whole : found.2.events ++ .endTag tag :: post = inner ++ .endTag tag :: (outer ++ post) := by
    rw [List.append_cons, split, List.append_assoc]
    rfl
  have absent : ∀ e ∈ startTags pre, e.tag ≠ tag := opens.starts.symm ▸ opens.absent
  rw [opens.stream, whole, spanOver_element opens.named
    (anchorHref_of_tag fun anchor => other (opens.named.symm.trans anchor)) absent running,
    opens.starts]

theorem suffix_of_first {α : Type} {x : α} {before after inner outer : List α} (first : x ∉ inner)
    (same : before ++ x :: after = inner ++ x :: outer) : after <:+ outer := by
  rcases List.append_eq_append_iff.mp same with ⟨more, long, short⟩ | ⟨more, long, short⟩
  · cases more with
    | nil => exact (List.cons.inj short).2 ▸ List.suffix_refl _
    | cons y more =>
      obtain ⟨rfl, -⟩ := List.cons.inj short
      refine absurd ?_ first
      rw [long]
      exact List.mem_append_right _ List.mem_cons_self
  · cases more with
    | nil => exact (List.cons.inj short).2 ▸ List.suffix_refl _
    | cons y more =>
      rw [(List.cons.inj short).2]
      exact (List.suffix_cons x after).trans (List.suffix_append more _)

theorem span_of_content_iff {inner outer : List Event}
    (split : content.events ++ [.endTag tag] = inner ++ .endTag tag :: outer)
    (running : Event.endTag tag ∉ inner) :
    (hrefsOf unicode (startTags inner)).length = (hrefsOf unicode content.elements).length ↔
      ∀ before after, content.events = before ++ .endTag tag :: after →
        hrefsOf unicode (startTags after) = [] := by
  have counted : (hrefsOf unicode content.elements).length =
      (hrefsOf unicode (startTags inner)).length + (hrefsOf unicode (startTags outer)).length := by
    have tags := congrArg startTags split
    rw [startTags_append, startTags_append, startTags_endTag, startTags_endTag, startTags_events]
      at tags
    have tags : content.elements = startTags inner ++ startTags outer :=
      (List.append_nil _).symm.trans tags
    rw [tags, hrefsOf_append, List.length_append]
  rw [counted]
  constructor
  · intro same before after shape
    have none_ : hrefsOf unicode (startTags outer) = [] :=
      List.eq_nil_of_length_eq_zero (by omega)
    rw [shape, List.append_assoc, List.cons_append] at split
    obtain ⟨more, rfl⟩ := suffix_of_first running split
    rw [startTags_append, startTags_append, hrefsOf_append, hrefsOf_append,
      List.append_eq_nil_iff, List.append_eq_nil_iff] at none_
    exact none_.2.1
  · intro closes
    rcases List.eq_nil_or_concat outer with rfl | ⟨after, event, rfl⟩
    · rfl
    · have last : content.events = inner ++ .endTag tag :: after ∧ Event.endTag tag = event := by
        rw [List.concat_eq_append, ← List.cons_append, ← List.append_assoc] at split
        obtain ⟨same, single⟩ := List.append_inj' split rfl
        exact ⟨same, (List.cons.inj single).1⟩
      have tags : startTags (after.concat event) = startTags after := by
        rw [List.concat_eq_append, ← last.2, startTags_append, startTags_endTag]
        exact List.append_nil _
      rw [tags, closes inner after last.1]
      rfl

/-! ### The region -/

theorem regionSpan_of_some {body : BodyElement} (named : bodyElement document = some body) :
    regionSpan unicode document = ((hrefsOf unicode body.before).length,
        (hrefsOf unicode body.before).length + (hrefsOf unicode body.content.elements).length) := by
  rw [regionSpan, named]

variable (unicode) in
theorem span_iff {found : List Element × Document} (total : Nat)
    (named : oneOf voidTags tag = false) (other : tag ≠ anchorTag)
    (first : firstElement tag document = some found) :
    ∃ span, spanOver unicode tag 0 none document.events = some span ∧
      ((span.first, span.last.getD total) = ((hrefsOf unicode found.1).length,
          (hrefsOf unicode found.1).length + (hrefsOf unicode found.2.elements).length) ↔
        ClosesLast unicode ⟨tag, found.1, found.2⟩) := by
  obtain ⟨inner, outer, split, running, span⟩ := spanOver_of_some named other first
  refine ⟨_, span, ?_⟩
  rw [ClosesLast, ← span_of_content_iff split running, Prod.mk.injEq, Option.getD_some,
    Nat.add_left_cancel_iff]
  exact and_iff_right rfl

theorem bodyRegion_iff : (AnchorCollector.run unicode document.events).bodyRegion.getD
      (0, (hrefsOf unicode document.elements).length) = regionSpan unicode document ↔
    ∀ body, bodyElement document = some body → ClosesLast unicode body := by
  have alone {body : BodyElement} (named : bodyElement document = some body) :
      ClosesLast unicode body ↔
        ∀ body, bodyElement document = some body → ClosesLast unicode body := by
    constructor
    · intro closes other same
      rw [named] at same
      cases same
      exact closes
    · exact fun closes => closes body named
  rw [run_document, AnchorCollector.bodyRegion]
  dsimp only
  cases main : firstElement mainTag document with
  | some found =>
    have named : bodyElement document = some ⟨mainTag, found.1, found.2⟩ := by
      rw [bodyElement, main]
      rfl
    obtain ⟨span, opened, closes⟩ := span_iff unicode
      (hrefsOf unicode document.elements).length (by decide) (by decide) main
    rw [opened, regionSpan_of_some named, ← alone named, ← closes]
    rfl
  | none =>
    rw [spanOver_of_none main, Option.none_or]
    cases article : firstElement articleTag document with
    | some found =>
      have named : bodyElement document = some ⟨articleTag, found.1, found.2⟩ := by
        rw [bodyElement, main, article]
        rfl
      obtain ⟨span, opened, closes⟩ := span_iff unicode
        (hrefsOf unicode document.elements).length (by decide) (by decide) article
      rw [opened, regionSpan_of_some named, ← alone named, ← closes]
      rfl
    | none =>
      have unnamed : bodyElement document = none := by
        rw [bodyElement, main, article]
        rfl
      rw [spanOver_of_none article, regionSpan, unnamed]
      exact ⟨fun _ body never => absurd never.symm (Option.some_ne_none _), fun _ => rfl⟩

theorem regionHrefs_eq : regionHrefs unicode document =
    ((hrefsOf unicode document.elements).take (regionSpan unicode document).2).drop
      (regionSpan unicode document).1 := by
  have within {tag : Text} {found : List Element × Document} (named : oneOf voidTags tag = false)
      (other : tag ≠ anchorTag) (first : firstElement tag document = some found) :
      ∃ after, hrefsOf unicode document.elements =
        hrefsOf unicode found.1 ++ (hrefsOf unicode found.2.elements ++ after) := by
    obtain ⟨pre, e, post, opens⟩ := exists_opens named first
    refine ⟨hrefsOf unicode (startTags post), ?_⟩
    have plain : anchorHref unicode e = none :=
      anchorHref_of_tag fun anchor => other (opens.named.symm.trans anchor)
    rw [← startTags_events, opens.stream, startTags_append, startTags_startTag, startTags_append,
      startTags_endTag, startTags_events, opens.starts, hrefsOf_append, hrefsOf_cons,
      hrefsOf_append, plain]
    rfl
  rw [regionHrefs, regionSpan]
  cases named : bodyElement document with
  | none => exact (List.take_length).symm
  | some body =>
    dsimp only
    have shape : ∃ after, hrefsOf unicode document.elements =
        hrefsOf unicode body.before ++ (hrefsOf unicode body.content.elements ++ after) := by
      rw [bodyElement, Option.or_eq_some_iff] at named
      rcases named with main | ⟨-, article⟩
      · obtain ⟨found, first, rfl⟩ := Option.map_eq_some_iff.mp main
        exact within (by decide) (by decide) first
      · obtain ⟨found, first, rfl⟩ := Option.map_eq_some_iff.mp article
        exact within (by decide) (by decide) first
    obtain ⟨after, shape⟩ := shape
    rw [shape, ← List.append_assoc, ← List.length_append, List.take_left', List.drop_left']
    · rfl
    · rfl

end Streams

/-! ### The links -/

section Links

variable {rules : LinkRules} {document : Document} {keep : Text → Option Text} {index : Nat}
  {region : Option (Nat × Nat)} {reading : LinkReading} {hrefs links found : List Text}
  {first last : Nat}

theorem foldl_addLink : links.foldl addLink found =
    found ++ (links.filter fun link => !found.any fun other => other = link).eraseDups := by
  induction links generalizing found with
  | nil => exact (List.append_nil _).symm
  | cons link links ih =>
    rw [List.foldl_cons, ih, addLink]
    cases listed : found.any fun other => other = link with
    | true => rw [if_pos rfl, List.filter_cons_of_neg (by simp [listed])]
    | false =>
      have same : (links.filter fun other =>
          !(found ++ [link]).any fun known => known = other) =
          links.filter fun other => !(other == link) && !found.any fun known => known = other :=
        List.filter_congr fun other _ => by
          simp [List.any_append, Bool.and_comm, eq_comm, beq_eq_decide]
      rw [if_neg Bool.false_ne_true, List.filter_cons_of_pos (by simp [listed]),
        List.eraseDups_cons, List.filter_filter, List.append_assoc, same]
      rfl

theorem foldl_addLink_nil : links.foldl addLink [] = links.eraseDups := by
  have all : (links.filter fun link => !([] : List Text).any fun other => other = link) = links :=
    List.filter_eq_self.mpr fun _ _ => rfl
  rw [foldl_addLink, all]
  rfl

theorem readHrefs_links : (readHrefs keep region index reading hrefs).links =
    (hrefs.filterMap keep).foldl addLink reading.links := by
  induction hrefs generalizing index reading with
  | nil => rfl
  | cons href hrefs ih =>
    rw [readHrefs, List.filterMap_cons]
    cases keep href with
    | none => exact ih
    | some link => exact ih

theorem readHrefs_bodyLinks_none : (readHrefs keep none index reading hrefs).bodyLinks =
    (hrefs.filterMap keep).foldl addLink reading.bodyLinks := by
  induction hrefs generalizing index reading with
  | nil => rfl
  | cons href hrefs ih =>
    rw [readHrefs, List.filterMap_cons]
    cases keep href with
    | none => exact ih
    | some link => exact ih

theorem readHrefs_bodyLinks_some :
    (readHrefs keep (some (first, last)) index reading hrefs).bodyLinks =
      (((hrefs.take (last - index)).drop (first - index)).filterMap keep).foldl addLink
        reading.bodyLinks := by
  induction hrefs generalizing index reading with
  | nil => rw [List.take_nil, List.drop_nil]; rfl
  | cons href hrefs ih =>
    have later : last - (index + 1) = last - index - 1 := Nat.sub_succ _ _
    have begins : first - (index + 1) = first - index - 1 := Nat.sub_succ _ _
    by_cases within : first ≤ index ∧ index < last
    · have rest : last - index = last - (index + 1) + 1 := by omega
      rw [rest, Nat.sub_eq_zero_of_le within.1, List.take_succ_cons, List.drop_zero,
        List.filterMap_cons, readHrefs]
      have begun : first - (index + 1) = 0 := by omega
      cases keep href with
      | none =>
        rw [ih, begun]
        rfl
      | some link =>
        rw [ih, begun, Option.all_some, decide_eq_true within, if_pos rfl]
        rfl
    · have skipped : ((href :: hrefs).take (last - index)).drop (first - index) =
          (hrefs.take (last - (index + 1))).drop (first - (index + 1)) := by
        by_cases ended : last ≤ index
        · have none_ : last - (index + 1) = 0 := by omega
          rw [Nat.sub_eq_zero_of_le ended, none_, List.take_zero, List.take_zero, List.drop_nil,
            List.drop_nil]
        · have rest : last - index = last - (index + 1) + 1 := by omega
          have ahead : first - index = first - (index + 1) + 1 := by omega
          rw [rest, ahead, List.take_succ_cons, List.drop_succ_cons]
      rw [skipped, readHrefs]
      cases keep href with
      | none => exact ih
      | some link =>
        rw [ih, Option.all_some, decide_eq_false within, if_neg Bool.false_ne_true]

theorem bodyLinks_eq {span : Nat × Nat} (spans : region.getD (0, hrefs.length) = span) :
    (readHrefs keep region 0 ⟨[], []⟩ hrefs).bodyLinks =
      (((hrefs.take span.2).drop span.1).filterMap keep).eraseDups := by
  rw [← foldl_addLink_nil, ← spans]
  cases region with
  | none =>
    rw [readHrefs_bodyLinks_none, Option.getD_none, List.take_length, List.drop_zero]
  | some bounds => exact readHrefs_bodyLinks_some

end Links

section Reading

variable {rules : LinkRules} {document : Document}

theorem readPageLinks_eq (request : LinkRequest) : readPageLinks rules request document.events =
      readHrefs (request.keep rules (baseOf rules.unicode document.elements))
        (AnchorCollector.run rules.unicode document.events).bodyRegion 0 ⟨[], []⟩
        (hrefsOf rules.unicode document.elements) := by
  rw [readPageLinks, run_document]

/-- The body element is what is read exactly where no anchor in it follows the end of an inner
element of its name. -/
theorem readsBody_iff_closesLast (rules : LinkRules) (document : Document) :
    ReadsBody rules document ↔
      ∀ body, bodyElement document = some body → ClosesLast rules.unicode body := by
  constructor
  · exact fun reads => bodyRegion_iff.mp reads.region
  · intro closes
    have region := bodyRegion_iff.mpr closes
    have bodyLinks (request : LinkRequest) :
        (readPageLinks rules request document.events).bodyLinks =
          ((regionHrefs rules.unicode document).filterMap
            (request.keep rules (baseOf rules.unicode document.elements))).eraseDups := by
      rw [readPageLinks_eq, bodyLinks_eq region, regionHrefs_eq]
    have links (request : LinkRequest) : (readPageLinks rules request document.events).links =
          ((hrefsOf rules.unicode document.elements).filterMap
            (request.keep rules (baseOf rules.unicode document.elements))).eraseDups := by
      rw [readPageLinks_eq, readHrefs_links]
      exact foldl_addLink_nil
    refine ⟨by rw [run_document], region, links, bodyLinks, fun request link listed => ?_⟩
    rw [bodyLinks, List.mem_eraseDups, regionHrefs_eq] at listed
    rw [links, List.mem_eraseDups]
    exact ((List.drop_sublist _ _).trans (List.take_sublist _ _)).filterMap _ |>.subset listed

/-- `urljoin` of an absolute path on a host. -/
def joinPath (base href : Text) : Option Text :=
  if href.head? = some '/' then some ("https://a.io".toList ++ href) else some base

/-- `<article><article></article><a href="/x"></a></article>`. -/
def nestedArticles : Document :=
  .element ⟨articleTag, []⟩
    (.element ⟨articleTag, []⟩ .done
      (.element ⟨anchorTag, [("href".toList, some "/x".toList)]⟩ .done .done))
    .done

/-- The anchor after the inner article is not read as one of the body. -/
theorem nested_article_ends_region :
    (AnchorCollector.run UnicodeData.ascii nestedArticles.events).bodyRegion = some (0, 0) ∧
      regionSpan UnicodeData.ascii nestedArticles = (0, 1) ∧
        ¬ReadsBody ⟨UnicodeData.ascii, joinPath⟩ nestedArticles := by
  have region : (AnchorCollector.run UnicodeData.ascii nestedArticles.events).bodyRegion =
      some (0, 0) := by decide
  have span : regionSpan UnicodeData.ascii nestedArticles = (0, 1) := by decide
  refine ⟨region, span, fun reads => ?_⟩
  have same := reads.region
  rw [region, span] at same
  cases same

end Reading

end Rankuno.PageLinks
