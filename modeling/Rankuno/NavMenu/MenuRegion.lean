import Rankuno.NavMenu.NavCollector

/-!
# The region that the counters open

What the counters of a `_NavCollector` say depends on the tags alone. Over an element with its
content the stack of breadcrumbs may lose some of the breadcrumbs around it, closed by an end
tag of their name; a `nav` among them then leaves the depth of the menu one higher, until its
own end tag takes that back.
-/

namespace Rankuno.NavMenu

open Python Python.Text

namespace Gate

/-- What a start tag does to the counters. -/
def start (element : Element) (gate : Gate) : Gate :=
  if isFooter element then { gate with footerDepth := gate.footerDepth + 1 }
  else if isBreadcrumbContainer element then
    { gate with crumbDepth := gate.crumbDepth + 1, crumbTags := element.tag :: gate.crumbTags }
  else if oneOf navTags element.tag || hasNavRole element then
    { gate with navDepth := gate.navDepth + 1 }
  else gate

/-- What an end tag does to them. -/
def finish (tag : Text) (gate : Gate) : Gate :=
  if tag = footerTag then { gate with footerDepth := gate.footerDepth - 1 }
  else if gate.crumbTags.head? = some tag then
    { gate with crumbDepth := gate.crumbDepth - 1, crumbTags := gate.crumbTags.tail }
  else if oneOf navTags tag then { gate with navDepth := gate.navDepth - 1 }
  else gate

def step (gate : Gate) : Event → Gate
  | .startTag element => gate.start element
  | .data _ => gate
  | .endTag tag => gate.finish tag

def after (gate : Gate) (events : List Event) : Gate := events.foldl step gate

end Gate

/-! ### The counters and the rest of the collector -/

namespace NavCollector

variable {reader : Reader} {s : NavCollector} {element : Element} {tag : Text}
  {href : Option Text} {event : Event} {events : List Event}

@[simp] theorem toGate_openEntry : (s.openEntry href).toGate = s.toGate := rfl

@[simp] theorem toGate_finishAnchor : (s.finishAnchor reader).toGate = s.toGate := by
  rw [finishAnchor]
  cases s.current <;> rfl

@[simp] theorem toGate_pushElement : (s.pushElement element).toGate = s.toGate := by
  rw [pushElement]
  split
  · rfl
  · dsimp only
    split <;> rfl

theorem toGate_startAnchor : (s.startAnchor reader element).toGate = s.toGate :=
  toGate_finishAnchor (s := s)

@[simp] theorem toGate_startInside : (s.startInside reader element).toGate = s.toGate := by
  rw [startInside]
  split
  · exact toGate_pushElement
  · split
    · exact toGate_startAnchor.trans toGate_pushElement
    · split
      · exact toGate_pushElement
      · exact toGate_pushElement

theorem toGate_startNav :
    (s.startNav element).toGate = { s.toGate with navDepth := s.navDepth + 1 } := by
  rw [startNav]
  dsimp only
  split <;> rfl

theorem toGate_handleStarttag :
    (s.handleStarttag reader element).toGate = s.toGate.start element := by
  rw [handleStarttag, Gate.start]
  split
  · rfl
  · split
    · rfl
    · split
      · exact toGate_startNav
      · split
        · rfl
        · exact toGate_startInside

theorem toGate_endNav :
    (s.endNav reader).toGate = { s.toGate with navDepth := s.navDepth - 1 } := by
  rw [endNav]
  dsimp only
  rw [toGate_finishAnchor]

@[simp] theorem toGate_popElement : (s.popElement tag).toGate = s.toGate := by
  rw [popElement]
  split <;> rfl

@[simp] theorem toGate_endInside : (s.endInside reader tag).toGate = s.toGate := by
  rw [endInside]
  split
  · exact toGate_popElement
  · split
    · exact toGate_finishAnchor.trans toGate_popElement
    · split
      · exact toGate_finishAnchor.trans toGate_popElement
      · exact toGate_popElement

theorem toGate_handleEndtag : (s.handleEndtag reader tag).toGate = s.toGate.finish tag := by
  rw [handleEndtag, Gate.finish]
  split
  · rfl
  · split
    · rfl
    · split
      · exact toGate_endNav
      · split
        · rfl
        · exact toGate_endInside

variable (reader) in
theorem toGate_handle : (handle reader s event).toGate = s.toGate.step event := by
  cases event with
  | startTag element => exact toGate_handleStarttag
  | data text => rfl
  | endTag tag => exact toGate_handleEndtag

theorem toGate_foldl : (events.foldl (handle reader) s).toGate = s.toGate.after events := by
  induction events generalizing s with
  | nil => rfl
  | cons event events ih =>
    rw [List.foldl_cons, ih, toGate_handle, Gate.after, Gate.after, List.foldl_cons]

end NavCollector

/-! ### Over a document -/

def opensCrumb (element : Element) : Bool := !isFooter element && isBreadcrumbContainer element

/-- The element opens the menu by its role alone. -/
def opensByRole (element : Element) : Bool :=
  !isFooter element && !isBreadcrumbContainer element && hasNavRole element &&
    !oneOf navTags element.tag

/-- Footers have the tag of one, and breadcrumbs have an end tag. -/
def ClosedByName (document : Document) : Prop :=
  ∀ element ∈ document.elements, (isFooter element = true → element.tag = footerTag) ∧
      (element.isVoid = true → opensCrumb element = false)

def navCount (tags : List Text) : Nat := tags.countP (oneOf navTags)

/-- The counters where `n` elements opened the menu by their role, and those of some breadcrumbs
around were closed. -/
structure Gate.Past (n : Nat) (gate gate' : Gate) : Prop where
  footerDepth : gate'.footerDepth = gate.footerDepth
  crumbs : ∃ closed, gate.crumbTags = closed ++ gate'.crumbTags ∧
    gate'.navDepth = gate.navDepth + n + navCount closed

namespace Gate

variable {gate gate' gate'' : Gate} {element : Element} {n m : Nat} {tag : Text}
  {document : Document} {events events' : List Event}

theorem after_append : gate.after (events ++ events') = (gate.after events).after events' :=
  List.foldl_append

theorem after_cons {event : Event} :
    gate.after (event :: events) = (gate.step event).after events := rfl

theorem Past.refl (gate : Gate) : Past 0 gate gate := ⟨rfl, [], rfl, rfl⟩

theorem Past.trans (first : Past n gate gate') (second : Past m gate' gate'') :
    Past (n + m) gate gate'' := by
  obtain ⟨closed, crumbs, nav⟩ := first.crumbs
  obtain ⟨closed', crumbs', nav'⟩ := second.crumbs
  refine ⟨second.footerDepth.trans first.footerDepth, closed ++ closed', ?_, ?_⟩
  · rw [crumbs, crumbs', List.append_assoc]
  · rw [nav', nav, navCount, navCount, navCount, List.countP_append]
    omega

theorem start_footer (footer : isFooter element = true) :
    gate.start element = { gate with footerDepth := gate.footerDepth + 1 } := if_pos footer

theorem start_crumb (crumb : opensCrumb element = true) : gate.start element =
    { gate with crumbDepth := gate.crumbDepth + 1, crumbTags := element.tag :: gate.crumbTags } := by
  obtain ⟨footer, crumb⟩ := Bool.and_eq_true_iff.mp crumb
  rw [start, if_neg (by simpa using footer), if_pos crumb]

theorem start_nav (footer : isFooter element = false)
    (crumb : isBreadcrumbContainer element = false)
    (nav : (oneOf navTags element.tag || hasNavRole element) = true) :
    gate.start element = { gate with navDepth := gate.navDepth + 1 } := by
  rw [start, if_neg (by simp [footer]), if_neg (by simp [crumb]), if_pos nav]

theorem start_other (footer : isFooter element = false)
    (crumb : isBreadcrumbContainer element = false)
    (nav : (oneOf navTags element.tag || hasNavRole element) = false) :
    gate.start element = gate := by
  rw [start, if_neg (by simp [footer]), if_neg (by simp [crumb]), if_neg (by simp [nav])]

theorem finish_eq (gate : Gate) (footer : tag ≠ footerTag) :
    (∃ outer, gate.crumbTags = tag :: outer ∧ (gate.finish tag).crumbTags = outer ∧
        (gate.finish tag).navDepth = gate.navDepth) ∨
      (gate.crumbTags.head? ≠ some tag ∧ (gate.finish tag).crumbTags = gate.crumbTags ∧
        (gate.finish tag).navDepth = gate.navDepth - navCount [tag]) := by
  by_cases top : gate.crumbTags.head? = some tag
  · left
    obtain ⟨outer, crumbs⟩ := List.head?_eq_some_iff.mp top
    refine ⟨outer, crumbs, ?_, ?_⟩
    · rw [finish, if_neg footer, if_pos top, crumbs]
      rfl
    · rw [finish, if_neg footer, if_pos top]
  · right
    rw [finish, if_neg footer, if_neg top, navCount, List.countP_singleton]
    split <;> exact ⟨top, rfl, rfl⟩

theorem finish_footerDepth (footer : tag ≠ footerTag) :
    (gate.finish tag).footerDepth = gate.footerDepth := by
  rw [finish, if_neg footer]
  split
  · rfl
  · split <;> rfl

theorem isFooter_of_tag (tag : element.tag = footerTag) : isFooter element = true :=
  decide_eq_true (Or.inl tag)

theorem Past.finish_crumb {inner : Gate} (past : Past n inner gate') (footer : tag ≠ footerTag)
    (opened : inner.crumbTags = tag :: gate.crumbTags) (nav : inner.navDepth = gate.navDepth)
    (footers : inner.footerDepth = gate.footerDepth) :
    Past n gate (gate'.finish tag) := by
  refine ⟨(finish_footerDepth footer).trans (past.footerDepth.trans footers), ?_⟩
  obtain ⟨closed, crumbs, depth⟩ := past.crumbs
  rw [opened] at crumbs
  rw [nav] at depth
  rcases finish_eq gate' footer with ⟨outer, top, left, same⟩ | ⟨top, left, less⟩
  · cases closed with
    | nil =>
      rw [top] at crumbs
      exact ⟨[], by rw [left]; exact (List.cons.inj crumbs).2, same.trans depth⟩
    | cons first closed =>
      obtain ⟨rfl, rest⟩ := List.cons.inj crumbs
      refine ⟨closed ++ [tag], ?_, ?_⟩
      · rw [left, List.append_assoc]
        exact rest.trans (congrArg (closed ++ ·) top)
      · rw [same, depth, navCount, navCount, List.countP_append, List.countP_cons,
          List.countP_singleton]
  · cases closed with
    | nil => exact absurd (congrArg List.head? crumbs).symm top
    | cons first closed =>
      obtain ⟨rfl, rest⟩ := List.cons.inj crumbs
      refine ⟨closed, by rw [left]; exact rest, ?_⟩
      rw [less, depth, navCount, navCount, navCount, List.countP_cons, List.countP_singleton]
      omega

theorem Past.finish_nav {inner : Gate} (past : Past n inner gate') (footer : tag ≠ footerTag)
    (opened : inner.crumbTags = gate.crumbTags)
    (nav : inner.navDepth = gate.navDepth + navCount [tag])
    (footers : inner.footerDepth = gate.footerDepth) :
    Past n gate (gate'.finish tag) := by
  refine ⟨(finish_footerDepth footer).trans (past.footerDepth.trans footers), ?_⟩
  obtain ⟨closed, crumbs, depth⟩ := past.crumbs
  rw [opened] at crumbs
  rw [nav] at depth
  rcases finish_eq gate' footer with ⟨outer, top, left, same⟩ | ⟨-, left, less⟩
  · refine ⟨closed ++ [tag], ?_, ?_⟩
    · rw [left, List.append_assoc]
      exact crumbs.trans (congrArg (closed ++ ·) top)
    · rw [same, depth, navCount, navCount, navCount, List.countP_append]
      omega
  · exact ⟨closed, by rw [left]; exact crumbs, by rw [less, depth]; omega⟩

theorem not_footerTag (footer : isFooter element = false) : element.tag ≠ footerTag := by
  intro tag
  rw [isFooter_of_tag tag] at footer
  cases footer

/-- What an element opens by its role alone. -/
def roleCount (element : Element) : Nat := if opensByRole element then 1 else 0

theorem roleCount_crumb (crumb : isBreadcrumbContainer element = true) : roleCount element = 0 := by
  rw [roleCount, opensByRole, crumb]
  simp

theorem roleCount_tag (tag : oneOf navTags element.tag = true) : roleCount element = 0 := by
  rw [roleCount, opensByRole, tag]
  simp

theorem roleCount_role (role : hasNavRole element = false) : roleCount element = 0 := by
  rw [roleCount, opensByRole, role]
  simp

theorem start_inner (footer : isFooter element = false)
    (crumb : isBreadcrumbContainer element = false) :
    gate.start element =
      { gate with navDepth := gate.navDepth + roleCount element + navCount [element.tag] } := by
  have count : navCount [element.tag] = if oneOf navTags element.tag then 1 else 0 :=
    List.countP_singleton
  cases tag : oneOf navTags element.tag with
  | true =>
    rw [start_nav footer crumb (by rw [tag]; rfl), roleCount_tag tag, count, tag]
    rfl
  | false =>
    cases role : hasNavRole element with
    | true =>
      have opens : roleCount element = 1 := by
        rw [roleCount, opensByRole, footer, crumb, role, tag]
        rfl
      rw [start_nav footer crumb (by rw [tag, role]; rfl), opens, count, tag]
      rfl
    | false =>
      rw [start_other footer crumb (by rw [tag, role]; rfl), roleCount_role role, count, tag]
      rfl

theorem past_element (named : isFooter element = true → element.tag = footerTag)
    (past : Past n (gate.start element) gate') :
    Past (roleCount element + n) gate (gate'.finish element.tag) := by
  cases footer : isFooter element with
  | true =>
    have opens : roleCount element = 0 := by
      rw [roleCount, opensByRole, footer]
      rfl
    have tag := named footer
    rw [start_footer footer] at past
    obtain ⟨closed, crumbs, nav⟩ := past.crumbs
    rw [opens, Nat.zero_add, tag, finish, if_pos rfl]
    exact ⟨by rw [past.footerDepth]; rfl, closed, crumbs, nav⟩
  | false =>
    have tag := not_footerTag footer
    cases crumb : isBreadcrumbContainer element with
    | true =>
      have opens : opensCrumb element = true := by
        rw [opensCrumb, footer, crumb]
        rfl
      rw [start_crumb opens] at past
      rw [roleCount_crumb crumb, Nat.zero_add]
      exact past.finish_crumb tag rfl rfl rfl
    | false =>
      rw [start_inner footer crumb] at past
      have role : Past (roleCount element) gate
          { gate with navDepth := gate.navDepth + roleCount element } := ⟨rfl, [], rfl, rfl⟩
      exact role.trans (past.finish_nav tag rfl rfl rfl)

theorem void_not_nav : ∀ tag ∈ voidTags, oneOf navTags tag = false := by decide

theorem past_void (void : element.isVoid = true)
    (named : isFooter element = true → element.tag = footerTag)
    (crumb : opensCrumb element = false) : Past (roleCount element) gate (gate.start element) := by
  have listed := oneOf_iff.mp void
  have footer : isFooter element = false := by
    refine Bool.eq_false_iff.mpr fun footer => ?_
    rw [named footer] at listed
    exact absurd listed (by decide)
  have crumb : isBreadcrumbContainer element = false := by
    rw [opensCrumb, footer] at crumb
    exact crumb
  have tag : navCount [element.tag] = 0 := by
    rw [navCount, List.countP_singleton, void_not_nav element.tag listed]
    rfl
  rw [start_inner footer crumb, tag]
  exact ⟨rfl, [], rfl, rfl⟩

theorem past_document (closed : ClosedByName document) :
    Past (document.elements.countP opensByRole) gate (gate.after document.events) := by
  induction document generalizing gate with
  | done => exact Past.refl gate
  | data text rest ih => exact ih closed
  | element e content rest below after =>
    cases void : e.isVoid with
    | true =>
      rw [ClosedByName, Document.elements_void void, List.forall_mem_cons] at closed
      obtain ⟨own, closed⟩ := closed
      rw [Document.events_void void, Document.elements_void void, List.countP_cons,
        Nat.add_comm, after_cons]
      exact (past_void void own.1 (own.2 void)).trans (after closed)
    | false =>
      rw [ClosedByName, Document.elements_element void, List.forall_mem_cons,
        List.forall_mem_append] at closed
      obtain ⟨own, inner, outer⟩ := closed
      have through := (past_element own.1 (@below (gate.start e) inner)).trans (after outer)
      rw [Document.events_element void, Document.elements_element void, List.countP_cons,
        List.countP_append, Nat.add_comm, ← Nat.add_assoc, after_cons, after_append]
      exact through

/-! ### What is never closed -/

/-- The element opens a footer that no end tag closes. -/
def opensForever (element : Element) : Bool := isFooter element && element.tag ≠ footerTag

theorem start_footerDepth : (gate.start element).footerDepth =
    gate.footerDepth + if isFooter element then 1 else 0 := by
  rw [start]
  split
  · rfl
  · split
    · rfl
    · split <;> rfl

theorem footerDepth_after : (gate.after document.events).footerDepth =
    gate.footerDepth + document.elements.countP opensForever := by
  induction document generalizing gate with
  | done => rfl
  | data text rest ih => exact ih
  | element e content rest below after =>
    have own : (if isFooter e then 1 else 0) =
        (if opensForever e then 1 else 0) + if e.tag = footerTag then 1 else 0 := by
      by_cases tag : e.tag = footerTag
      · rw [if_pos tag, isFooter_of_tag tag, opensForever, tag]
        simp
      · rw [if_neg tag, opensForever, decide_eq_true tag, Bool.and_true]
        rfl
    cases void : e.isVoid with
    | true =>
      have tag : e.tag ≠ footerTag := by
        intro tag
        rw [Element.isVoid, tag] at void
        exact absurd (oneOf_iff.mp void) (by decide)
      rw [Document.events_void void, Document.elements_void void, List.countP_cons, after_cons,
        after, step, start_footerDepth, own, if_neg tag]
      omega
    | false =>
      rw [Document.events_element void, Document.elements_element void, List.countP_cons,
        List.countP_append, after_cons, after_append, after_cons, after, step, step]
      by_cases tag : e.tag = footerTag
      · rw [finish, if_pos tag]
        dsimp only
        rw [below, start_footerDepth, own, if_pos tag]
        omega
      · rw [finish_footerDepth tag, below, start_footerDepth, own, if_neg tag]
        omega

/-- A breadcrumb of a tag without an end tag is open. -/
def Stuck (gate : Gate) : Prop := ∃ tag ∈ gate.crumbTags, tag ∈ voidTags

theorem Stuck.start (stuck : gate.Stuck) : (gate.start element).Stuck := by
  obtain ⟨tag, open_, listed⟩ := stuck
  rw [Gate.start]
  split
  · exact ⟨tag, open_, listed⟩
  · split
    · exact ⟨tag, List.mem_cons_of_mem _ open_, listed⟩
    · split <;> exact ⟨tag, open_, listed⟩

theorem Stuck.finish (stuck : gate.Stuck) (void : oneOf voidTags tag = false) :
    (gate.finish tag).Stuck := by
  obtain ⟨other, open_, listed⟩ := stuck
  rw [Gate.finish]
  split
  · exact ⟨other, open_, listed⟩
  · split
    · next top =>
        obtain ⟨outer, crumbs⟩ := List.head?_eq_some_iff.mp top
        rw [crumbs] at open_
        rcases List.mem_cons.mp open_ with rfl | open_
        · exact absurd (oneOf_iff.mpr listed) (Bool.eq_false_iff.mp void)
        · exact ⟨other, by rw [crumbs]; exact open_, listed⟩
    · split <;> exact ⟨other, open_, listed⟩

theorem Stuck.after (stuck : gate.Stuck) : (gate.after document.events).Stuck := by
  induction document generalizing gate with
  | done => exact stuck
  | data text rest ih => exact ih stuck
  | element e content rest below after =>
    cases void : e.isVoid with
    | true =>
      rw [Document.events_void void, after_cons]
      exact after stuck.start
    | false =>
      rw [Document.events_element void, after_cons, after_append]
      exact after ((below stuck.start).finish void)

theorem stuck_of_void (listed : element ∈ document.elements) (void : element.isVoid = true)
    (crumb : opensCrumb element = true) : (gate.after document.events).Stuck := by
  induction document generalizing gate with
  | done => cases listed
  | data text rest ih => exact ih listed
  | element e content rest below after =>
    cases void' : e.isVoid with
    | true =>
      rw [Document.elements_void void'] at listed
      rw [Document.events_void void', after_cons]
      rcases List.mem_cons.mp listed with rfl | listed
      · rw [step, start_crumb crumb]
        exact Stuck.after ⟨_, List.mem_cons_self, oneOf_iff.mp void⟩
      · exact after listed
    | false =>
      rw [Document.elements_element void'] at listed
      rw [Document.events_element void', after_cons, after_append]
      rcases List.mem_cons.mp listed with rfl | listed
      · rw [void] at void'
        cases void'
      · rcases List.mem_append.mp listed with listed | listed
        · exact ((below listed).finish void').after
        · exact after listed

/-! ### Where an element is -/

/-- The breadcrumbs around a place. -/
def crumbsOf (above : List Element) : List Text := (above.filter opensCrumb).map (·.tag)

/-- The element opens the menu by its tag. -/
def opensByTag (element : Element) : Bool :=
  !isFooter element && !isBreadcrumbContainer element && oneOf navTags element.tag

/-- The counters inside of some elements. The breadcrumbs that are open are some of those
around, and each `nav` among the others counts for the menu. -/
structure Inside (above : List Element) (gate : Gate) : Prop where
  footerDepth : gate.footerDepth = above.countP isFooter
  crumbs : gate.crumbTags.Sublist (crumbsOf above)
  navDepth : gate.navDepth + navCount gate.crumbTags =
    above.countP opensByTag + navCount (crumbsOf above)

variable {above : List Element}

theorem inside_nil : Inside [] {} := ⟨rfl, List.Sublist.refl _, rfl⟩

theorem Inside.past (inside : Inside above gate) (past : Past 0 gate gate') :
    Inside above gate' := by
  obtain ⟨closed, crumbs, nav⟩ := past.crumbs
  refine ⟨past.footerDepth.trans inside.footerDepth, ?_, ?_⟩
  · refine List.Sublist.trans ?_ inside.crumbs
    rw [crumbs]
    exact List.sublist_append_right _ _
  · have same := inside.navDepth
    rw [crumbs, navCount, List.countP_append] at same
    rw [nav, ← same, navCount, navCount]
    omega

theorem Inside.start (inside : Inside above gate) (role : opensByRole element = false) :
    Inside (element :: above) (gate.start element) := by
  obtain ⟨footers, crumbs, nav⟩ := inside
  have counted : (gate.start element).footerDepth = (element :: above).countP isFooter := by
    rw [start_footerDepth, footers, List.countP_cons]
  cases footer : isFooter element with
  | true =>
    have around : crumbsOf (element :: above) = crumbsOf above := by
      rw [crumbsOf, List.filter_cons_of_neg (by simp [opensCrumb, footer]), crumbsOf]
    have tag : opensByTag element = false := by
      rw [opensByTag, footer]
      rfl
    refine ⟨counted, ?_, ?_⟩
    · rw [start_footer footer, around]
      exact crumbs
    · rw [start_footer footer, around, List.countP_cons_of_neg (by simp [tag])]
      exact nav
  | false =>
    cases crumb : isBreadcrumbContainer element with
    | true =>
      have opens : opensCrumb element = true := by
        rw [opensCrumb, footer, crumb]
        rfl
      have around : crumbsOf (element :: above) = element.tag :: crumbsOf above := by
        rw [crumbsOf, List.filter_cons_of_pos opens, List.map_cons, crumbsOf]
      have tag : opensByTag element = false := by
        rw [opensByTag, footer, crumb]
        rfl
      refine ⟨counted, ?_, ?_⟩
      · rw [start_crumb opens, around]
        exact crumbs.cons_cons _
      · rw [start_crumb opens, around, List.countP_cons_of_neg (by simp [tag])]
        simp only [navCount, List.countP_cons] at nav ⊢
        omega
    | false =>
      have around : crumbsOf (element :: above) = crumbsOf above := by
        rw [crumbsOf, List.filter_cons_of_neg (by simp [opensCrumb, crumb]), crumbsOf]
      have none_ : roleCount element = 0 := by
        rw [roleCount, role]
        rfl
      have tag : navCount [element.tag] = if opensByTag element then 1 else 0 := by
        rw [opensByTag, footer, crumb]
        exact List.countP_singleton
      rw [start_inner footer crumb, none_, tag] at *
      refine ⟨counted, ?_, ?_⟩
      · rw [around]
        exact crumbs
      · rw [around, List.countP_cons]
        dsimp only
        omega

/-- Every element of the document is closed by the tag that it opened with. -/
def ClosesAll (document : Document) : Prop :=
  ClosedByName document ∧ ∀ element ∈ document.elements, opensByRole element = false

theorem ClosesAll.past (closes : ClosesAll document) (gate : Gate) :
    Past 0 gate (gate.after document.events) := by
  have none_ : document.elements.countP opensByRole = 0 :=
    List.countP_eq_zero.mpr fun e listed => by simp [closes.2 e listed]
  exact none_ ▸ past_document closes.1

theorem closesAll_cons {e : Element} {content rest : Document}
    (closes : ClosesAll (.element e content rest)) :
    opensByRole e = false ∧ (e.isVoid = false → ClosesAll content) ∧ ClosesAll rest ∧
      ClosesAll (.element e content .done) := by
  obtain ⟨closed, roles⟩ := closes
  cases void : e.isVoid with
  | true =>
    have alone : (Document.element e content .done).elements = [e] :=
      Document.elements_void void
    rw [ClosedByName, Document.elements_void void, List.forall_mem_cons] at closed
    rw [Document.elements_void void, List.forall_mem_cons] at roles
    refine ⟨roles.1, fun never => Bool.noConfusion never, ⟨closed.2, roles.2⟩, ?_⟩
    rw [ClosesAll, ClosedByName, alone]
    exact ⟨List.forall_mem_singleton.mpr closed.1, List.forall_mem_singleton.mpr roles.1⟩
  | false =>
    have alone : (Document.element e content .done).elements = e :: (content.elements ++ []) :=
      Document.elements_element void
    rw [ClosedByName, Document.elements_element void, List.forall_mem_cons,
      List.forall_mem_append] at closed
    rw [Document.elements_element void, List.forall_mem_cons, List.forall_mem_append] at roles
    refine ⟨roles.1, fun _ => ⟨closed.2.1, roles.2.1⟩, ⟨closed.2.2, roles.2.2⟩, ?_⟩
    rw [ClosesAll, ClosedByName, alone, List.append_nil]
    exact ⟨List.forall_mem_cons.mpr ⟨closed.1, closed.2.1⟩,
      List.forall_mem_cons.mpr ⟨roles.1, roles.2.1⟩⟩

theorem inside_places {before : List Event} {place : Document.Place} (closes : ClosesAll document)
    (inside : Inside above (after {} before)) (listed : place ∈ document.places above before) :
    Inside place.above (after {} place.before) := by
  induction document generalizing above before with
  | done => cases listed
  | data text rest ih =>
    refine ih closes ?_ listed
    rw [after_append]
    exact inside
  | element e content rest below outer =>
    obtain ⟨role, content_, rest_, alone⟩ := closesAll_cons closes
    have opened : Inside (e :: above) (after {} (before ++ [.startTag e])) := by
      rw [after_append]
      exact inside.start role
    have passed := inside.past (alone.past (after {} before))
    cases void : e.isVoid with
    | true =>
      rw [Document.places_void void] at listed
      rw [Document.events_void void, ← after_append] at passed
      rcases List.mem_cons.mp listed with rfl | listed
      · exact inside
      · exact outer rest_ passed listed
    | false =>
      rw [Document.places_element void] at listed
      rw [Document.events_element void, ← after_append] at passed
      rcases List.mem_cons.mp listed with rfl | listed
      · exact inside
      · rcases List.mem_append.mp listed with listed | listed
        · exact below (content_ void) opened listed
        · exact outer rest_ passed listed

/-- The depth of the breadcrumbs is the number of those that are open. -/
def Level (gate : Gate) : Prop := gate.crumbDepth = gate.crumbTags.length

theorem Level.step (level : gate.Level) (event : Event) : (gate.step event).Level := by
  cases event with
  | startTag element =>
    rw [Gate.step, Gate.start]
    split
    · exact level
    · split
      · exact congrArg (· + 1) level
      · split <;> exact level
  | data text => exact level
  | endTag tag =>
    rw [Gate.step, Gate.finish]
    split
    · exact level
    · split
      · exact (congrArg (· - 1) level).trans List.length_tail.symm
      · split <;> exact level

theorem Level.after (level : gate.Level) (events : List Event) : (gate.after events).Level := by
  induction events generalizing gate with
  | nil => exact level
  | cons event events ih => exact ih (level.step event)

theorem countP_navTags (footers : ∀ element ∈ above, isFooter element = false) :
    above.countP opensByTag + navCount (crumbsOf above) =
      above.countP fun element => oneOf navTags element.tag := by
  induction above with
  | nil => rfl
  | cons e above ih =>
    rw [List.forall_mem_cons] at footers
    have ih := ih footers.2
    have tag : opensByTag e = (!isBreadcrumbContainer e && oneOf navTags e.tag) := by
      rw [opensByTag, footers.1]
      rfl
    have crumb : opensCrumb e = isBreadcrumbContainer e := by
      rw [opensCrumb, footers.1]
      rfl
    rw [List.countP_cons, List.countP_cons, crumbsOf, List.filter_cons, crumb, tag]
    cases isBreadcrumbContainer e with
    | true =>
      rw [if_pos rfl, List.map_cons, navCount, List.countP_cons, ← crumbsOf, ← navCount, ← ih]
      simp only [Bool.not_true, Bool.false_and, Bool.false_eq_true, if_false]
      omega
    | false =>
      rw [if_neg Bool.false_ne_true, ← crumbsOf, ← ih]
      simp only [Bool.not_false, Bool.true_and]
      omega

theorem insideHeaderNav_iff (inside : Inside above gate) (level : gate.Level) :
    gate.insideHeaderNav = true ↔ gate.crumbTags = [] ∧
      (∀ element ∈ above, isFooter element = false) ∧
        ∃ element ∈ above, oneOf navTags element.tag = true := by
  have crumbs : gate.crumbDepth = 0 ↔ gate.crumbTags = [] := by
    rw [level, List.length_eq_zero_iff]
  have footers : gate.footerDepth = 0 ↔ ∀ element ∈ above, isFooter element = false := by
    rw [inside.footerDepth, List.countP_eq_zero]
    exact forall₂_congr fun element _ => Bool.eq_false_iff.symm
  rw [insideHeaderNav, decide_eq_true_iff, crumbs, footers]
  constructor
  · rintro ⟨nav, none_, open_⟩
    have depth := inside.navDepth
    rw [open_, countP_navTags none_] at depth
    have count : 0 < above.countP fun element => oneOf navTags element.tag := by
      rw [← depth]
      exact nav
    exact ⟨open_, none_, List.countP_pos_iff.mp count⟩
  · rintro ⟨open_, none_, nav⟩
    have depth := inside.navDepth
    rw [open_, countP_navTags none_] at depth
    have depth : gate.navDepth = above.countP fun element => oneOf navTags element.tag := depth
    exact ⟨depth ▸ List.countP_pos_iff.mpr nav, none_, open_⟩

end Gate

end Rankuno.NavMenu
