import Rankuno.NavMenu.MenuLinks

/-!
# What is read from the menu

A start tag opens a region by its tag, by its role or by what it is marked as; an end tag closes
one by its name alone. Where every region has the end tag that closes it, the counters and the
stacks come back to where they were, and the anchors of the menu are recorded, but for those of
a breadcrumb that an inner end tag has closed.
-/

namespace Rankuno.NavMenu

open Python Python.Text

namespace NavCollector

variable {reader : Reader} {s : NavCollector} {events : List Event} {document : Document}

theorem navStack_foldl (level : s.navStack.length = s.navDepth)
    (role : ∀ element, .startTag element ∈ events → opensByRole element = false) :
    (events.foldl (handle reader) s).navStack.length =
      (events.foldl (handle reader) s).navDepth := by
  induction events generalizing s with
  | nil => exact level
  | cons event events ih =>
    refine ih (navStack_handle level ?_) fun element read => ?_
    · intro element same
      exact role element (same ▸ List.mem_cons_self)
    · exact role element (List.mem_cons_of_mem _ read)

variable (reader document) in
theorem toGate_run : (run reader document.events).toGate = Gate.after {} document.events :=
  toGate_foldl

variable (reader document) in
theorem recorded_run : (run reader document.events).recorded =
    (document.places [] []).flatMap recordedAt := by
  rw [run, recorded_foldl sound_nil]
  exact recordedOver_events document [] []

variable (reader) in
theorem settles_run (closes : Gate.ClosesAll document) : Settles {} (run reader document.events) :=
  settles_document sound_nil rfl closes

theorem links_run (closes : Gate.ClosesAll document) :
    (run reader document.events).entries.filterMap (·.2.2) =
      (document.places [] []).flatMap recordedAt := by
  have sound : (run reader document.events).Sound := sound_nil.foldl reader document.events
  have closed := (settles_run reader closes).anchor rfl
  have same := recorded_run reader document
  rw [recorded, sound.pending.href closed, Option.toList_none, List.append_nil] at same
  exact same

theorem stacks_run (closes : Gate.ClosesAll document)
    (level : (run reader document.events).navDepth = 0) :
    (run reader document.events).listDepth = 0 ∧ (run reader document.events).dropdownDepth = 0 ∧
      (run reader document.events).navStack = [] ∧ (run reader document.events).elements = [] ∧
        (run reader document.events).panelLevels = [] := by
  have sound : (run reader document.events).Sound := sound_nil.foldl reader document.events
  have settles := settles_run reader closes
  have elements : (run reader document.events).elements = [] :=
    List.suffix_nil.mp settles.elements
  have navStack : (run reader document.events).navStack = [] := by
    refine List.eq_nil_of_length_eq_zero (Eq.trans ?_ level)
    exact navStack_foldl rfl fun element read =>
      closes.2 element (Document.startTag_mem_events read)
  have panelLevels : (run reader document.events).panelLevels = [] := by
    refine List.eq_nil_iff_forall_not_mem.mpr fun panel listed => ?_
    obtain ⟨positive, onStack⟩ := sound.panels.onStack panel listed
    have short : panel ≤ (run reader document.events).elements.length := onStack
    rw [elements] at short
    exact absurd short (Nat.not_le_of_lt positive)
  refine ⟨Nat.le_zero.mp settles.listDepth, ?_, navStack, elements, panelLevels⟩
  refine sound.panels.dropdownDepth.trans ?_
  rw [panels, navStack, panelLevels]
  rfl

end NavCollector

section Scope

variable {reader : Reader} {document : Document} {element : Element}

theorem ReadsMenu.closesAll (reads : ReadsMenu reader document) : Gate.ClosesAll document := by
  have gate := NavCollector.toGate_run reader document
  have footers : (Gate.after {} document.events).footerDepth = 0 := by
    rw [← gate]
    exact reads.footerDepth
  have crumbs : (Gate.after {} document.events).crumbTags = [] := by
    rw [← gate]
    exact reads.crumbTags
  have navs : (Gate.after {} document.events).navDepth = 0 := by
    rw [← gate]
    exact reads.navDepth
  have closed : ClosedByName document := by
    intro element listed
    constructor
    · intro footer
      rw [Gate.footerDepth_after, Nat.zero_add, List.countP_eq_zero] at footers
      have named := footers element listed
      rw [Gate.opensForever, footer, Bool.true_and, decide_eq_true_iff, not_not] at named
      exact named
    · intro void
      refine Bool.eq_false_iff.mpr fun crumb => ?_
      have stuck : (Gate.after {} document.events).Stuck :=
        Gate.stuck_of_void listed void crumb
      obtain ⟨tag, open_, -⟩ := stuck
      rw [crumbs] at open_
      cases open_
  refine ⟨closed, ?_⟩
  have past : Gate.Past (document.elements.countP opensByRole) {}
      (Gate.after {} document.events) := Gate.past_document closed
  obtain ⟨outer, -, depth⟩ := past.crumbs
  rw [navs] at depth
  have none_ : document.elements.countP opensByRole = 0 := by omega
  intro element listed
  exact Bool.eq_false_iff.mpr (List.countP_eq_zero.mp none_ element listed)

theorem links_iff (closes : Gate.ClosesAll document) :
    (NavCollector.run reader document.events).entries.filterMap (·.2.2) = menuHrefs document ↔
      ∀ place ∈ document.places [] [], recordedAt place = menuAt place := by
  rw [NavCollector.links_run closes, ← flatMap_eq_flatMap_iff]
  · rfl
  · exact fun place listed => recordedAt_of_menuAt closes listed

theorem ReadsMenu.endTagsClose (reads : ReadsMenu reader document) : EndTagsClose document := by
  have closes := reads.closesAll
  refine ⟨fun element listed => (closes.1 element listed).1, ?_, ?_, ?_⟩
  · intro element listed role
    have opens := closes.2 element listed
    rw [opensByRole, role, isExcluded] at *
    revert opens
    cases isFooter element <;> cases isBreadcrumbContainer element <;>
      cases oneOf navTags element.tag <;> simp
  · intro element listed void crumb
    have opens := (closes.1 element listed).2 void
    rw [opensCrumb, crumb, Bool.and_true] at opens
    simpa using opens
  · exact (recordedAt_eq_menuAt_iff closes).mp ((links_iff closes).mp reads.links)

theorem EndTagsClose.readsMenu (close : EndTagsClose document) : ReadsMenu reader document := by
  have closes := close.closesAll
  have gate := NavCollector.toGate_run reader document
  have past := closes.past {}
  obtain ⟨closed, crumbs, nav⟩ := past.crumbs
  obtain ⟨rfl, left⟩ := List.nil_eq_append_iff.mp crumbs
  have fresh : Gate.Level {} := rfl
  have level := fresh.after document.events
  have navDepth : (NavCollector.run reader document.events).navDepth = 0 :=
    (congrArg Gate.navDepth gate).trans nav
  obtain ⟨listDepth, dropdownDepth, navStack, elements, panelLevels⟩ :=
    NavCollector.stacks_run closes navDepth
  exact
    { links := (links_iff closes).mpr ((recordedAt_eq_menuAt_iff closes).mpr close.anchors)
      navDepth
      footerDepth := (congrArg Gate.footerDepth gate).trans past.footerDepth
      crumbDepth := (congrArg Gate.crumbDepth gate).trans (level.trans (congrArg List.length left))
      crumbTags := (congrArg Gate.crumbTags gate).trans left
      listDepth
      dropdownDepth
      navStack
      elements
      panelLevels }

/-- The menu is read as it stands exactly where the end tags close what the elements open. -/
theorem readsMenu_iff_endTagsClose (reader : Reader) (document : Document) :
    ReadsMenu reader document ↔ EndTagsClose document :=
  ⟨ReadsMenu.endTagsClose, EndTagsClose.readsMenu⟩

/-- Letters, digits and underscores. -/
def asciiReader : Reader where
  isWord c := c.isAlphanum || c = '_'
  int raw := (String.ofList raw).toInt?

/-- `<nav><div class="breadcrumb"><div></div><a href="/x">X</a></div></nav>`. -/
def dividedTrail : Document :=
  .element ⟨"nav".toList, []⟩
    (.element ⟨"div".toList, [("class".toList, some "breadcrumb".toList)]⟩
      (.element ⟨"div".toList, []⟩ .done
        (.element ⟨"a".toList, [("href".toList, some "/x".toList)]⟩
          (.data "X".toList .done) .done))
      .done)
    .done

/-- The end tag of an inner `div` closes a breadcrumb, and the anchor after it is recorded. -/
theorem trail_link_recorded :
    (NavCollector.run asciiReader dividedTrail.events).entries.filterMap (·.2.2) = ["/x".toList] ∧
      menuHrefs dividedTrail = [] ∧ ¬ReadsMenu asciiReader dividedTrail := by
  have recorded : (NavCollector.run asciiReader dividedTrail.events).entries.filterMap (·.2.2) =
      ["/x".toList] := by decide
  have menu : menuHrefs dividedTrail = [] := by decide
  refine ⟨recorded, menu, fun reads => ?_⟩
  have links := reads.links
  rw [recorded, menu] at links
  cases links

end Scope

end Rankuno.NavMenu
