import Rankuno.NavMenu.MenuStacks

/-!
# The links of the menu

Over a properly nested document whose elements are closed by the tags they opened with, the
collector comes back to where it was, and the anchors that it records are those for which no
breadcrumb around them is left open. An anchor in a breadcrumb is among them where the end
tags inside have closed every breadcrumb around it.
-/

namespace Rankuno.NavMenu

open Python Python.Text

namespace NavCollector

variable {reader : Reader} {s s' s'' : NavCollector} {element : Element} {tag : Text}
  {event : Event} {events : List Event} {document : Document}

/-! ### What is left on the stacks -/

/-- What holds of every collector. -/
structure Sound (s : NavCollector) : Prop where
  pending : s.Pending
  panels : s.panels.Sound

theorem sound_nil : Sound {} :=
  ⟨⟨fun _ => rfl, fun _ => rfl⟩, ⟨rfl, List.Pairwise.nil, fun _ never => by cases never⟩⟩

variable (reader) in
theorem Sound.handle (sound : s.Sound) (event : Event) : (handle reader s event).Sound :=
  ⟨(handle_spec sound.pending).1, sound_handle sound.panels⟩

variable (reader) in
theorem Sound.foldl (sound : s.Sound) (events : List Event) :
    (events.foldl (NavCollector.handle reader) s).Sound := by
  induction events generalizing s with
  | nil => exact sound
  | cons event events ih => exact ih (sound.handle reader event)

/-- No element, list or anchor more is open. -/
structure Settles (s s' : NavCollector) : Prop where
  elements : s'.elements <:+ s.elements
  listDepth : s'.listDepth ≤ s.listDepth
  anchor : s.anchorOpen = false → s'.anchorOpen = false

theorem Settles.of_same (elements : s'.elements = s.elements)
    (listDepth : s'.listDepth = s.listDepth) (anchor : s'.anchorOpen = s.anchorOpen) :
    Settles s s' :=
  ⟨elements ▸ List.suffix_refl _, Nat.le_of_eq listDepth, fun closed => anchor.trans closed⟩

theorem Settles.trans (first : Settles s s') (second : Settles s' s'') : Settles s s'' :=
  ⟨second.elements.trans first.elements, Nat.le_trans second.listDepth first.listDepth,
    fun closed => second.anchor (first.anchor closed)⟩

theorem settles_finishAnchor (sound : s.Sound) : Settles s (s.finishAnchor reader) := by
  refine ⟨?_, ?_, fun _ => (finishAnchor_spec reader sound.pending).1⟩
  · have same : (s.finishAnchor reader).elements = s.elements :=
      congrArg Panels.elements (panels_finishAnchor reader s)
    exact same ▸ List.suffix_refl _
  · rw [finishAnchor]
    cases s.current <;> exact Nat.le_refl _

theorem settles_popElement (sound : s.Sound) : Settles s (s.popElement tag) := by
  refine ⟨(popElement_spec tag sound.panels).1, ?_, ?_⟩
  · obtain ⟨_, _, _, popped⟩ := exists_popElement tag s
    have same : (s.popElement tag).listDepth = s.listDepth := by rw [popped]
    exact Nat.le_of_eq same
  · obtain ⟨_, _, _, popped⟩ := exists_popElement tag s
    rw [popped]
    exact fun closed => closed

theorem Sound.popElement (sound : s.Sound) : (s.popElement tag).Sound := by
  refine ⟨?_, (popElement_spec tag sound.panels).2⟩
  obtain ⟨_, _, _, popped⟩ := exists_popElement tag s
  rw [popped]
  exact ⟨sound.pending.text, sound.pending.href⟩

theorem settles_endInside (sound : s.Sound) : Settles s (s.endInside reader tag) := by
  have popped : Settles s (s.popElement tag) := settles_popElement sound
  have finished : Settles s ((s.popElement tag).finishAnchor reader) :=
    popped.trans (settles_finishAnchor sound.popElement)
  rw [endInside]
  split
  · exact ⟨popped.elements, Nat.le_trans (Nat.sub_le _ _) popped.listDepth, popped.anchor⟩
  · split
    · exact finished
    · split
      · exact finished
      · exact popped

theorem settles_endtag (sound : s.Sound) : Settles s (s.handleEndtag reader tag) := by
  rw [handleEndtag]
  split
  · exact Settles.of_same rfl rfl rfl
  · split
    · exact Settles.of_same rfl rfl rfl
    · split
      · have finished : Settles s (s.finishAnchor reader) := settles_finishAnchor sound
        exact ⟨finished.elements, finished.listDepth, finished.anchor⟩
      · split
        · exact Settles.of_same rfl rfl rfl
        · exact settles_endInside sound

theorem settles_starttag (outside : isFooter element = true ∨ isBreadcrumbContainer element = true ∨
    (oneOf navTags element.tag || hasNavRole element) = true ∨ s.insideHeaderNav = false) :
    Settles s (s.handleStarttag reader element) := by
  rw [handleStarttag]
  split
  · exact Settles.of_same rfl rfl rfl
  · next footer =>
    split
    · exact Settles.of_same rfl rfl rfl
    · next crumb =>
      split
      · rw [startNav]
        split <;> exact Settles.of_same rfl rfl rfl
      · next nav =>
        split
        · exact Settles.of_same rfl rfl rfl
        · next inside =>
          rcases outside with h | h | h | h
          · exact absurd h footer
          · exact absurd h crumb
          · exact absurd h nav
          · exact absurd h inside

theorem startInside_elements : (s.startInside reader element).elements =
    if element.isVoid then s.elements else element.tag :: s.elements := by
  obtain ⟨elements, _, _, pushed, same⟩ := exists_pushElement element s
  rw [← same]
  exact (congrArg Panels.elements panels_startInside).trans (congrArg NavCollector.elements pushed)

theorem startAnchor_listDepth : (s.startAnchor reader element).listDepth = s.listDepth := by
  have same : (s.finishAnchor reader).listDepth = s.listDepth := by
    rw [finishAnchor]
    cases s.current <;> rfl
  exact same

theorem startInside_listDepth : (s.startInside reader element).listDepth =
    s.listDepth + if oneOf listTags element.tag then 1 else 0 := by
  obtain ⟨_, _, _, pushed, -⟩ := exists_pushElement element s
  have same : (s.pushElement element).listDepth = s.listDepth := by rw [pushed]
  rw [startInside]
  split
  · exact congrArg (· + 1) same
  · split
    · exact startAnchor_listDepth.trans same
    · split <;> exact same

theorem startInside_anchorOpen (other : element.tag ≠ anchorTag) :
    (s.startInside reader element).anchorOpen = s.anchorOpen := by
  obtain ⟨_, _, _, pushed, -⟩ := exists_pushElement element s
  have same : (s.pushElement element).anchorOpen = s.anchorOpen := by rw [pushed]
  rw [startInside]
  split
  · exact same
  · split <;> exact same

theorem popElement_suffix (sound : s'.Sound) (void : oneOf voidTags tag = false)
    (left : s'.elements <:+ tag :: s.elements) :
    (s'.popElement tag).elements <:+ s.elements := by
  rcases List.suffix_cons_iff.mp left with top | below
  · have listed : oneOf s'.elements tag = true := oneOf_iff.mpr (top ▸ List.mem_cons_self)
    rw [popElement, if_pos ⟨void, listed⟩, top, popElements]
    dsimp only
    rw [if_pos rfl]
  · exact (popElement_spec tag sound.panels).1.trans below

theorem endInside_elements : (s.endInside reader tag).elements = (s.popElement tag).elements :=
  congrArg Panels.elements panels_endInside

theorem endInside_listDepth (list : oneOf listTags tag = true) :
    (s.endInside reader tag).listDepth = s.listDepth - 1 := by
  obtain ⟨_, _, _, popped⟩ := exists_popElement tag s
  rw [endInside, if_pos list, popped]

theorem endInside_anchorOpen (sound : s.Sound) :
    (s.endInside reader anchorTag).anchorOpen = false := by
  rw [endInside, if_neg (by decide), if_pos rfl]
  exact (finishAnchor_spec reader sound.popElement.pending).1

theorem settles_inside (sound : s'.Sound) (void : element.isVoid = false)
    (inner : Settles (s.startInside reader element) s') :
    Settles s (s'.endInside reader element.tag) := by
  have ended : Settles s' (s'.endInside reader element.tag) := settles_endInside sound
  constructor
  · rw [endInside_elements]
    refine popElement_suffix sound void ?_
    have left := inner.elements
    rwa [startInside_elements, void, if_neg Bool.false_ne_true] at left
  · have left := inner.listDepth
    rw [startInside_listDepth] at left
    cases list : oneOf listTags element.tag with
    | true =>
      rw [list, if_pos rfl] at left
      rw [endInside_listDepth list]
      omega
    | false =>
      rw [list, if_neg Bool.false_ne_true] at left
      exact Nat.le_trans ended.listDepth left
  · intro closed
    by_cases anchor : element.tag = anchorTag
    · rw [anchor]
      exact endInside_anchorOpen sound
    · exact ended.anchor (inner.anchor ((startInside_anchorOpen anchor).trans closed))

theorem void_not_menu : ∀ tag ∈ voidTags, oneOf listTags tag = false ∧ tag ≠ anchorTag := by decide

theorem settles_void (void : element.isVoid = true) :
    Settles s (s.handleStarttag reader element) := by
  by_cases inside : isFooter element = true ∨ isBreadcrumbContainer element = true ∨
      (oneOf navTags element.tag || hasNavRole element) = true ∨ s.insideHeaderNav = false
  · exact settles_starttag inside
  · obtain ⟨list, anchor⟩ := void_not_menu element.tag (oneOf_iff.mp void)
    simp only [not_or] at inside
    obtain ⟨footer, crumb, nav, inside⟩ := inside
    rw [handleStarttag, if_neg footer, if_neg crumb, if_neg nav, if_neg inside]
    refine Settles.of_same ?_ ?_ (startInside_anchorOpen anchor)
    · rw [startInside_elements, void, if_pos rfl]
    · rw [startInside_listDepth, list, if_neg Bool.false_ne_true, Nat.add_zero]

theorem insideHeaderNav_past {gate gate' : Gate} (past : Gate.Past 0 gate gate')
    (level : gate.Level) (level' : gate'.Level) (inside : gate.insideHeaderNav = true) :
    gate'.insideHeaderNav = true ∧ gate'.crumbTags = [] := by
  obtain ⟨closed, crumbs, nav⟩ := past.crumbs
  rw [Gate.insideHeaderNav, decide_eq_true_iff, level, List.length_eq_zero_iff] at inside
  obtain ⟨depth, footers, none_⟩ := inside
  rw [none_] at crumbs
  obtain ⟨rfl, left⟩ := List.nil_eq_append_iff.mp crumbs
  refine ⟨?_, left⟩
  rw [Gate.insideHeaderNav, decide_eq_true_iff, level', left, nav, past.footerDepth]
  exact ⟨Nat.lt_of_lt_of_le depth (Nat.le_add_right _ _), footers, rfl⟩

theorem settles_element (sound : s.Sound) (level : s.toGate.Level) (void : element.isVoid = false)
    (closes : Gate.ClosesAll document)
    (inner : Settles (s.handleStarttag reader element)
      (document.events.foldl (NavCollector.handle reader) (s.handleStarttag reader element))) :
    Settles s (handleEndtag reader element.tag
      (document.events.foldl (NavCollector.handle reader) (s.handleStarttag reader element))) := by
  have started : (s.handleStarttag reader element).Sound := sound.handle reader (.startTag element)
  have read := started.foldl reader document.events
  by_cases inside : isFooter element = true ∨ isBreadcrumbContainer element = true ∨
      (oneOf navTags element.tag || hasNavRole element) = true ∨ s.insideHeaderNav = false
  · exact ((settles_starttag inside).trans inner).trans (settles_endtag read)
  · simp only [not_or] at inside
    obtain ⟨footer, crumb, nav, inside⟩ := inside
    have start : s.handleStarttag reader element = s.startInside reader element := by
      rw [handleStarttag, if_neg footer, if_neg crumb, if_neg nav, if_neg inside]
    rw [start] at inner read ⊢
    have gate : (document.events.foldl (NavCollector.handle reader)
        (s.startInside reader element)).toGate = s.toGate.after document.events := by
      rw [toGate_foldl, toGate_startInside]
    generalize document.events.foldl (NavCollector.handle reader)
      (s.startInside reader element) = last at inner read gate ⊢
    obtain ⟨still, crumbs⟩ := insideHeaderNav_past (closes.past s.toGate) level
      (level.after _) (Bool.not_eq_false _ |>.mp inside)
    rw [← gate] at still crumbs
    have tag : oneOf navTags element.tag = false := by
      simp only [Bool.or_eq_true, not_or] at nav
      exact Bool.eq_false_iff.mpr nav.1
    have ended : last.handleEndtag reader element.tag = last.endInside reader element.tag := by
      rw [handleEndtag, if_neg (Gate.not_footerTag (Bool.eq_false_iff.mpr footer)), crumbs,
        if_neg (by simp), if_neg (by simp [tag]), if_neg (by simp [still])]
    rw [ended]
    exact settles_inside read void inner

theorem settles_document (sound : s.Sound) (level : s.toGate.Level)
    (closes : Gate.ClosesAll document) :
    Settles s (document.events.foldl (NavCollector.handle reader) s) := by
  induction document generalizing s with
  | done => exact Settles.of_same rfl rfl rfl
  | data text rest ih =>
    have read : Settles s (s.handleData text) := Settles.of_same rfl rfl rfl
    exact read.trans (ih (sound.handle reader (.data text)) level closes)
  | element e content rest below after =>
    obtain ⟨-, content_, rest_, -⟩ := Gate.closesAll_cons closes
    have started : (s.handleStarttag reader e).Sound := sound.handle reader (.startTag e)
    have level' : (s.handleStarttag reader e).toGate.Level := by
      rw [toGate_handleStarttag]
      exact level.step (.startTag e)
    cases void : e.isVoid with
    | true =>
      rw [Document.events_void void, List.foldl_cons]
      exact (settles_void void).trans (after started level' rest_)
    | false =>
      have whole := settles_element sound level void (content_ void)
        (below started level' (content_ void))
      have read := started.foldl reader content.events
      have gate : (content.events.foldl (NavCollector.handle reader)
          (s.handleStarttag reader e)).toGate.Level := by
        rw [toGate_foldl]
        exact level'.after _
      have gate' := gate.step (.endTag e.tag)
      rw [← toGate_handle reader] at gate'
      rw [Document.events_element void, List.foldl_cons, List.foldl_append, List.foldl_cons]
      exact whole.trans (after (read.handle reader (.endTag e.tag)) gate' rest_)

/-! ### What is recorded -/

/-- What a stream of events records. -/
def recordedOver (gate : Gate) : List Event → List Text
  | [] => []
  | event :: events => recordedBy gate event ++ recordedOver (gate.step event) events

theorem recorded_foldl (sound : s.Sound) : (events.foldl (NavCollector.handle reader) s).recorded =
      s.recorded ++ recordedOver s.toGate events := by
  induction events generalizing s with
  | nil => exact (List.append_nil _).symm
  | cons event events ih =>
    rw [List.foldl_cons, ih (sound.handle reader event), (handle_spec sound.pending).2,
      toGate_handle, recordedOver, List.append_assoc]

theorem recordedOver_append {gate : Gate} {events' : List Event} :
    recordedOver gate (events ++ events') =
      recordedOver gate events ++ recordedOver (gate.after events) events' := by
  induction events generalizing gate with
  | nil => rfl
  | cons event events ih =>
    rw [List.cons_append, recordedOver, recordedOver, ih, List.append_assoc]
    rfl

theorem recordedOver_events (document : Document) (above : List Element) (before : List Event) :
    recordedOver (Gate.after {} before) document.events =
      (document.places above before).flatMap fun place =>
        recordedBy (Gate.after {} place.before) (.startTag place.element) := by
  induction document generalizing above before with
  | done => rfl
  | data text rest ih =>
    have step : Gate.after {} (before ++ [.data text]) = Gate.after {} before :=
      Gate.after_append
    have rest_ := ih above (before ++ [.data text])
    rw [step] at rest_
    exact rest_
  | element e content rest below after =>
    cases void : e.isVoid with
    | true =>
      rw [Document.events_void void, Document.places_void void, recordedOver,
        List.flatMap_cons, ← after above (before ++ [Event.startTag e]), Gate.after_append]
      rfl
    | false =>
      rw [Document.events_element void, Document.places_element void, recordedOver,
        List.flatMap_cons, List.flatMap_append,
        ← after above
          (before ++ Event.startTag e :: (content.events ++ [Event.endTag e.tag])),
        ← below (e :: above) (before ++ [Event.startTag e])]
      simp only [Gate.after_append, Gate.after_cons, recordedOver_append, recordedOver]
      rfl

end NavCollector

/-! ### The menu -/

def isMenu (element : Element) : Bool := oneOf navTags element.tag || hasNavRole element

/-- The element is one that nothing of the menu is in. -/
def isExcluded (element : Element) : Bool := isFooter element || isBreadcrumbContainer element

/-- The element lies in the menu. -/
def liesInMenu (place : Document.Place) : Prop :=
  (∃ outer ∈ place.element :: place.above, isMenu outer = true) ∧
    ∀ outer ∈ place.element :: place.above, isExcluded outer = false

def anchorHref (place : Document.Place) : Option Text :=
  if place.element.tag = anchorTag then NavCollector.hrefOf place.element else none

instance (place : Document.Place) : Decidable (liesInMenu place) :=
  inferInstanceAs (Decidable (_ ∧ _))

/-- The addresses of the anchors in the menu, in order. -/
def menuHrefs (document : Document) : List Text :=
  (document.places [] []).flatMap fun place =>
    if liesInMenu place then (anchorHref place).toList else []

/-- The anchors with an address that are recorded are those in the menu, and the counters and the
stacks are empty at the end. -/
structure ReadsMenu (reader : Reader) (document : Document) : Prop where
  links : (NavCollector.run reader document.events).entries.filterMap (·.2.2) = menuHrefs document
  navDepth : (NavCollector.run reader document.events).navDepth = 0
  footerDepth : (NavCollector.run reader document.events).footerDepth = 0
  crumbDepth : (NavCollector.run reader document.events).crumbDepth = 0
  crumbTags : (NavCollector.run reader document.events).crumbTags = []
  listDepth : (NavCollector.run reader document.events).listDepth = 0
  dropdownDepth : (NavCollector.run reader document.events).dropdownDepth = 0
  navStack : (NavCollector.run reader document.events).navStack = []
  elements : (NavCollector.run reader document.events).elements = []
  panelLevels : (NavCollector.run reader document.events).panelLevels = []

/-- A start tag may open a breadcrumb, an end tag closes the last one if it has its name. -/
def closeByName (tags : List Text) : Event → List Text
  | .startTag element => if opensCrumb element then element.tag :: tags else tags
  | .data _ => tags
  | .endTag tag => if tag ≠ footerTag ∧ tags.head? = some tag then tags.tail else tags

/-- The tags of the breadcrumbs that no end tag of their name has closed. -/
def stillOpen (events : List Event) : List Text := events.foldl closeByName []

/-- The end tags close what the elements open. -/
structure EndTagsClose (document : Document) : Prop where
  footers : ∀ element ∈ document.elements, isFooter element = true → element.tag = footerTag
  navs : ∀ element ∈ document.elements, hasNavRole element = true →
    oneOf navTags element.tag = true ∨ isExcluded element = true
  crumbs : ∀ element ∈ document.elements, element.isVoid = true →
    isBreadcrumbContainer element = true → isFooter element = true
  anchors : ∀ place ∈ document.places [] [], anchorHref place ≠ none →
    isExcluded place.element = false →
    (∃ outer ∈ place.above, oneOf navTags outer.tag = true) →
    (∀ outer ∈ place.above, isFooter outer = false) →
    (∃ outer ∈ place.above, isBreadcrumbContainer outer = true) → stillOpen place.before ≠ []

section Places

variable {reader : Reader} {document : Document} {place : Document.Place} {events : List Event}
  {α : Type} {f g : α → List Text} {l : List α}

theorem foldl_closeByName {gate : Gate} :
    events.foldl closeByName gate.crumbTags = (gate.after events).crumbTags := by
  induction events generalizing gate with
  | nil => rfl
  | cons event events ih =>
    rw [List.foldl_cons, Gate.after_cons, ← ih]
    congr 1
    cases event with
    | startTag element =>
      rw [closeByName, opensCrumb, Gate.step, Gate.start]
      cases isFooter element with
      | true => rfl
      | false =>
        cases isBreadcrumbContainer element with
        | true => rfl
        | false => cases oneOf navTags element.tag || hasNavRole element <;> rfl
    | data text => rfl
    | endTag tag =>
      rw [closeByName, Gate.step, Gate.finish]
      by_cases footer : tag = footerTag
      · rw [if_neg fun both => both.1 footer, if_pos footer]
      · rw [if_neg footer]
        by_cases top : gate.crumbTags.head? = some tag
        · rw [if_pos ⟨footer, top⟩, if_pos top]
        · rw [if_neg fun both => top both.2, if_neg top]
          split <;> rfl

theorem stillOpen_eq : stillOpen events = (Gate.after {} events).crumbTags := by
  have start : Gate.crumbTags {} = [] := rfl
  rw [stillOpen, ← start, foldl_closeByName]

theorem EndTagsClose.closesAll (close : EndTagsClose document) : Gate.ClosesAll document := by
  refine ⟨fun element listed => ⟨close.footers element listed, fun void => ?_⟩,
    fun element listed => ?_⟩
  · rw [opensCrumb]
    cases crumb : isBreadcrumbContainer element with
    | true =>
      rw [close.crumbs element listed void crumb]
      rfl
    | false => exact Bool.and_false _
  · rw [opensByRole]
    cases role : hasNavRole element with
    | true =>
      rcases close.navs element listed role with tag | excluded
      · rw [tag]
        exact Bool.and_false _
      · rcases Bool.or_eq_true_iff.mp excluded with footer | crumb
        · rw [footer]
          rfl
        · rw [crumb]
          simp
    | false => simp

theorem liesInMenu_iff (closes : Gate.ClosesAll document)
    (listed : place ∈ document.places [] []) (anchor : place.element.tag = anchorTag) :
    liesInMenu place ↔ isExcluded place.element = false ∧
      (∃ outer ∈ place.above, oneOf navTags outer.tag = true) ∧
        ∀ outer ∈ place.above, isExcluded outer = false := by
  have byTag : ∀ outer ∈ place.element :: place.above, isExcluded outer = false →
      isMenu outer = oneOf navTags outer.tag := by
    intro outer mem included
    have role := closes.2 outer ((Document.mem_of_places listed mem).resolve_right fun never => by
      cases never)
    rw [isExcluded, Bool.or_eq_false_iff] at included
    rw [opensByRole, included.1, included.2] at role
    rw [isMenu]
    cases tag : oneOf navTags outer.tag with
    | true => rfl
    | false =>
      rw [tag] at role
      simpa using role
  rw [liesInMenu, List.forall_mem_cons]
  constructor
  · rintro ⟨⟨outer, mem, menu⟩, own, around⟩
    refine ⟨own, ⟨outer, ?_, ?_⟩, around⟩
    · rcases List.mem_cons.mp mem with rfl | mem
      · rw [byTag _ List.mem_cons_self own, anchor] at menu
        exact absurd (oneOf_iff.mp menu) (by decide)
      · exact mem
    · have included : isExcluded outer = false := by
        rcases List.mem_cons.mp mem with rfl | mem
        · exact own
        · exact around outer mem
      rw [← byTag outer mem included]
      exact menu
  · rintro ⟨own, ⟨outer, mem, tag⟩, around⟩
    refine ⟨⟨outer, List.mem_cons_of_mem _ mem, ?_⟩, own, around⟩
    rw [isMenu, tag]
    rfl

theorem opensAnchor_iff (closes : Gate.ClosesAll document)
    (listed : place ∈ document.places [] []) :
    NavCollector.opensAnchor (Gate.after {} place.before) place.element = true ↔
      place.element.tag = anchorTag ∧ isExcluded place.element = false ∧
        stillOpen place.before = [] ∧ (∀ outer ∈ place.above, isFooter outer = false) ∧
          ∃ outer ∈ place.above, oneOf navTags outer.tag = true := by
  have inside := Gate.inside_places closes Gate.inside_nil listed
  have fresh : Gate.Level {} := rfl
  have level := fresh.after place.before
  have own : isExcluded place.element = false ↔
      isFooter place.element = false ∧ isBreadcrumbContainer place.element = false := by
    rw [isExcluded, Bool.or_eq_false_iff]
  rw [NavCollector.opensAnchor, decide_eq_true_iff, Gate.insideHeaderNav_iff inside level,
    ← stillOpen_eq, own]
  constructor
  · rintro ⟨anchor, footer, crumb, -, around⟩
    exact ⟨anchor, ⟨footer, crumb⟩, around⟩
  · rintro ⟨anchor, ⟨footer, crumb⟩, around⟩
    refine ⟨anchor, footer, crumb, ?_, around⟩
    have role := closes.2 place.element
      ((Document.mem_of_places listed List.mem_cons_self).resolve_right fun never => by cases never)
    have tag : oneOf navTags place.element.tag = false := by
      rw [anchor]
      decide
    rw [opensByRole, footer, crumb, tag] at role
    rw [tag]
    simpa using role

/-- What is recorded at a place. -/
def recordedAt (place : Document.Place) : List Text :=
  NavCollector.recordedBy (Gate.after {} place.before) (.startTag place.element)

/-- What the menu has there. -/
def menuAt (place : Document.Place) : List Text :=
  if liesInMenu place then (anchorHref place).toList else []

theorem recordedAt_eq (closes : Gate.ClosesAll document) (listed : place ∈ document.places [] []) :
    recordedAt place = if isExcluded place.element = false ∧ stillOpen place.before = [] ∧
        (∀ outer ∈ place.above, isFooter outer = false) ∧
          ∃ outer ∈ place.above, oneOf navTags outer.tag = true
      then (anchorHref place).toList else [] := by
  have opens := opensAnchor_iff closes listed
  rw [recordedAt, NavCollector.recordedBy, anchorHref]
  by_cases anchor : place.element.tag = anchorTag
  · rw [if_pos anchor]
    refine if_congr (opens.trans ?_) rfl rfl
    exact and_iff_right anchor
  · rw [if_neg anchor, if_neg fun opened => anchor (opens.mp opened).1]
    exact (ite_self _).symm

theorem stillOpen_of_none (closes : Gate.ClosesAll document)
    (listed : place ∈ document.places [] [])
    (none_ : ∀ outer ∈ place.above, isExcluded outer = false) : stillOpen place.before = [] := by
  have inside := Gate.inside_places closes Gate.inside_nil listed
  have crumbs : Gate.crumbsOf place.above = [] := by
    rw [Gate.crumbsOf, List.map_eq_nil_iff, List.filter_eq_nil_iff]
    intro outer mem opens
    have included := none_ outer mem
    rw [isExcluded, Bool.or_eq_false_iff] at included
    rw [opensCrumb, included.1, included.2] at opens
    cases opens
  rw [stillOpen_eq]
  exact List.sublist_nil.mp (crumbs ▸ inside.crumbs)

theorem recordedAt_of_menuAt (closes : Gate.ClosesAll document)
    (listed : place ∈ document.places [] []) (some_ : menuAt place ≠ []) :
    recordedAt place = menuAt place := by
  rw [menuAt] at some_ ⊢
  split at some_
  · next lies =>
      have anchor : place.element.tag = anchorTag := by
        by_contra other
        rw [anchorHref, if_neg other] at some_
        exact some_ rfl
      obtain ⟨own, tag, around⟩ := (liesInMenu_iff closes listed anchor).mp lies
      rw [recordedAt_eq closes listed, if_pos lies]
      refine if_pos ⟨own, stillOpen_of_none closes listed around, ?_, tag⟩
      intro outer mem
      exact (Bool.or_eq_false_iff.mp (around outer mem)).1
  · exact absurd rfl some_

theorem recordedAt_eq_menuAt_iff (closes : Gate.ClosesAll document) :
    (∀ place ∈ document.places [] [], recordedAt place = menuAt place) ↔
      ∀ place ∈ document.places [] [], anchorHref place ≠ none → isExcluded place.element = false →
        (∃ outer ∈ place.above, oneOf navTags outer.tag = true) →
        (∀ outer ∈ place.above, isFooter outer = false) →
        (∃ outer ∈ place.above, isBreadcrumbContainer outer = true) →
          stillOpen place.before ≠ [] := by
  refine forall₂_congr fun place listed => ?_
  rw [recordedAt_eq closes listed]
  constructor
  · rintro same linked own tag footers ⟨outer, mem, crumb⟩ open_
    rw [if_pos ⟨own, open_, footers, tag⟩, menuAt, if_neg] at same
    · exact linked (Option.toList_eq_nil_iff.mp same)
    · intro lies
      have included := lies.2 outer (List.mem_cons_of_mem _ mem)
      rw [isExcluded, crumb, Bool.or_true] at included
      cases included
  · intro stay
    by_cases some_ : menuAt place = []
    · rw [some_]
      split
      · next opens =>
          obtain ⟨own, open_, footers, tag⟩ := opens
          cases href : anchorHref place with
          | none => rfl
          | some url =>
            exfalso
            have anchor : place.element.tag = anchorTag := by
              by_contra other
              rw [anchorHref, if_neg other] at href
              cases href
            have lies : ¬liesInMenu place := by
              intro lies
              rw [menuAt, if_pos lies, href] at some_
              cases some_
            rw [liesInMenu_iff closes listed anchor] at lies
            refine lies ⟨own, tag, fun outer mem => ?_⟩
            rw [isExcluded, footers outer mem, Bool.false_or, Bool.eq_false_iff]
            intro crumb
            exact stay (by rw [href]; exact Option.some_ne_none _) own tag footers
              ⟨outer, mem, crumb⟩ open_
      · rfl
    · rw [← recordedAt_eq closes listed]
      exact recordedAt_of_menuAt closes listed some_

/-! ### Lists that are put together alike -/

theorem length_flatMap_le (kept : ∀ a ∈ l, g a ≠ [] → f a = g a) :
    (l.flatMap g).length ≤ (l.flatMap f).length := by
  induction l with
  | nil => exact Nat.le_refl _
  | cons a l ih =>
    obtain ⟨own, kept⟩ := List.forall_mem_cons.mp kept
    have shorter : (g a).length ≤ (f a).length := by
      by_cases none_ : g a = []
      · rw [none_]
        exact Nat.zero_le _
      · rw [own none_]
    rw [List.flatMap_cons, List.flatMap_cons, List.length_append, List.length_append]
    exact Nat.add_le_add shorter (ih kept)

theorem flatMap_eq_flatMap_iff (kept : ∀ a ∈ l, g a ≠ [] → f a = g a) :
    l.flatMap f = l.flatMap g ↔ ∀ a ∈ l, f a = g a := by
  constructor
  · intro same
    induction l with
    | nil => exact fun _ never => by cases never
    | cons a l ih =>
      obtain ⟨own, kept⟩ := List.forall_mem_cons.mp kept
      have longer := length_flatMap_le kept
      rw [List.flatMap_cons, List.flatMap_cons] at same
      have head : f a = g a := by
        by_cases none_ : g a = []
        · have length := congrArg List.length same
          rw [none_, List.length_append, List.length_append, List.length_nil] at length
          rw [none_]
          exact List.eq_nil_of_length_eq_zero (by omega)
        · exact own none_
      rw [head] at same
      exact List.forall_mem_cons.mpr ⟨head, ih kept (List.append_cancel_left same)⟩
  · exact fun same => List.flatMap_congr same

end Places

end Rankuno.NavMenu
