import Rankuno.Python.Text

/-!
# Streams of tags

`html.parser`: a page is read as a stream of start tags, texts and end tags. A properly
nested stream is what a document is written as: each element's content stands between its
tags, and a void element has neither content nor end tag.
-/

namespace Rankuno.Python

open Text

/-- A start tag: the attributes come in order, without a value where none is written. -/
structure Element where
  tag : Text
  attrs : List (Text × Option Text) := []
  deriving DecidableEq

inductive Event where
  | startTag (element : Element)
  | data (text : Text)
  | endTag (tag : Text)
  deriving DecidableEq

/-- `{key: value or "" for key, value in attrs}.get(name)`. The last value of a name stands. -/
def Element.attr? (element : Element) (name : Text) : Option Text :=
  (element.attrs.reverse.find? fun attr => attr.1 = name).map fun attr => attr.2.getD []

/-- The names of a set. -/
def Text.oneOf (names : List Text) (name : Text) : Bool := names.any fun other => other = name

theorem Text.oneOf_iff {names : List Text} {name : Text} :
    oneOf names name = true ↔ name ∈ names := by
  rw [oneOf, List.any_eq_true]
  constructor
  · rintro ⟨other, listed, same⟩
    exact of_decide_eq_true same ▸ listed
  · intro listed
    exact ⟨name, listed, decide_eq_true rfl⟩

/-- The elements of HTML without an end tag. -/
def voidTags : List Text :=
  ["area".toList, "base".toList, "br".toList, "col".toList, "embed".toList, "hr".toList,
    "img".toList, "input".toList, "link".toList, "meta".toList, "param".toList, "source".toList,
    "track".toList, "wbr".toList]

def Element.isVoid (element : Element) : Bool := oneOf voidTags element.tag

/-- Elements and texts, one after the other. What is given as the content of a void element is
not part of the document. -/
inductive Document where
  | done
  | data (text : Text) (rest : Document)
  | element (element : Element) (content rest : Document)

namespace Document

/-- The stream that a document is written as. -/
def events : Document → List Event
  | done => []
  | data text rest => .data text :: rest.events
  | element e content rest =>
    if e.isVoid then .startTag e :: rest.events
    else .startTag e :: (content.events ++ .endTag e.tag :: rest.events)

/-- An element in a document: what it is inside of, the nearest first, and what is read before
it. -/
structure Place where
  element : Element
  above : List Element
  before : List Event

/-- The elements of a document that is inside of others and read after some events. -/
def places (above : List Element) (before : List Event) : Document → List Place
  | done => []
  | data text rest => rest.places above (before ++ [.data text])
  | element e content rest =>
    ⟨e, above, before⟩ ::
      if e.isVoid then rest.places above (before ++ [.startTag e])
      else content.places (e :: above) (before ++ [.startTag e]) ++
        rest.places above (before ++ .startTag e :: (content.events ++ [.endTag e.tag]))

variable {e : Element} {content rest document : Document} {above : List Element}
  {before : List Event} {place : Place} {text : Text}

theorem events_void (void : e.isVoid = true) :
    (element e content rest).events = .startTag e :: rest.events := if_pos void

theorem events_element (void : e.isVoid = false) : (element e content rest).events =
    .startTag e :: (content.events ++ .endTag e.tag :: rest.events) :=
  if_neg (Bool.eq_false_iff.mp void)

theorem places_void (void : e.isVoid = true) : (element e content rest).places above before =
    ⟨e, above, before⟩ :: rest.places above (before ++ [.startTag e]) := by
  rw [places, if_pos void]

theorem places_element (void : e.isVoid = false) : (element e content rest).places above before =
      ⟨e, above, before⟩ :: (content.places (e :: above) (before ++ [.startTag e]) ++
        rest.places above (before ++ .startTag e :: (content.events ++ [.endTag e.tag]))) := by
  rw [places, if_neg (Bool.eq_false_iff.mp void)]

/-- The elements of a document, in order. -/
def elements : Document → List Element
  | done => []
  | data _ rest => rest.elements
  | element e content rest =>
    e :: if e.isVoid then rest.elements else content.elements ++ rest.elements

theorem elements_void (void : e.isVoid = true) :
    (element e content rest).elements = e :: rest.elements := by
  rw [elements, if_pos void]

theorem elements_element (void : e.isVoid = false) :
    (element e content rest).elements = e :: (content.elements ++ rest.elements) := by
  rw [elements, if_neg (Bool.eq_false_iff.mp void)]

theorem mem_of_places {outer : Element} (listed : place ∈ document.places above before)
    (mem : outer ∈ place.element :: place.above) : outer ∈ document.elements ∨ outer ∈ above := by
  induction document generalizing above before with
  | done => cases listed
  | data text rest ih => exact ih listed
  | element e content rest below after =>
    cases void : e.isVoid with
    | true =>
      rw [places_void void] at listed
      rw [elements_void void, List.mem_cons]
      rcases List.mem_cons.mp listed with rfl | listed
      · exact (List.mem_cons.mp mem).imp_left Or.inl
      · exact (after listed).imp_left Or.inr
    | false =>
      rw [places_element void] at listed
      rw [elements_element void, List.mem_cons, List.mem_append]
      rcases List.mem_cons.mp listed with rfl | listed
      · exact (List.mem_cons.mp mem).imp_left Or.inl
      · rcases List.mem_append.mp listed with listed | listed
        · rcases below listed with inner | inner
          · exact Or.inl (Or.inr (Or.inl inner))
          · exact (List.mem_cons.mp inner).imp_left Or.inl
        · exact (after listed).imp_left fun rest => Or.inr (Or.inr rest)

theorem startTag_mem_events (read : Event.startTag e ∈ document.events) :
    e ∈ document.elements := by
  induction document with
  | done => cases read
  | data text rest ih =>
    rcases List.mem_cons.mp read with never | read
    · cases never
    · exact ih read
  | element first content rest below after =>
    cases void : first.isVoid with
    | true =>
      rw [events_void void, List.mem_cons] at read
      rw [elements_void void, List.mem_cons]
      exact read.imp Event.startTag.inj after
    | false =>
      rw [events_element void, List.mem_cons, List.mem_append, List.mem_cons] at read
      rw [elements_element void, List.mem_cons, List.mem_append]
      rcases read with same | inner | never | rest
      · exact Or.inl (Event.startTag.inj same)
      · exact Or.inr (Or.inl (below inner))
      · cases never
      · exact Or.inr (Or.inr (after rest))

end Document

end Rankuno.Python
