import Rankuno.NavMenu.MenuRegion

/-!
# The stacks of the collector

The levels of the open panels lie on the stack of elements, and each panel and each counted
`nav` is a level of the dropdowns. An anchor that is open has its address, and what has been
recorded together with it are the anchors that started inside the menu.
-/

namespace Rankuno.NavMenu

open Python Python.Text

/-- The fields that panels are closed by. -/
structure Panels where
  navStack : List Bool
  dropdownDepth : Nat
  elements : List Text
  panelLevels : List Nat

/-- The levels are on the stack, the last ones on top, and are counted. -/
structure Panels.Sound (panels : Panels) : Prop where
  dropdownDepth : panels.dropdownDepth = panels.navStack.count true + panels.panelLevels.length
  sorted : panels.panelLevels.Pairwise fun inner outer => outer ≤ inner
  onStack : ∀ level ∈ panels.panelLevels, 0 < level ∧ level ≤ panels.elements.length

namespace NavCollector

variable {reader : Reader} {s : NavCollector} {element : Element} {tag : Text}
  {href : Option Text} {event : Event} {events : List Event}

def panels (s : NavCollector) : Panels :=
  ⟨s.navStack, s.dropdownDepth, s.elements, s.panelLevels⟩

/-! ### Panels -/

variable (reader s) in
theorem panels_finishAnchor : (s.finishAnchor reader).panels = s.panels := by
  rw [finishAnchor]
  cases s.current <;> rfl

theorem panels_startAnchor : (s.startAnchor reader element).panels = s.panels :=
  panels_finishAnchor reader s

theorem panels_startInside :
    (s.startInside reader element).panels = (s.pushElement element).panels := by
  rw [startInside]
  split
  · rfl
  · split
    · exact panels_startAnchor
    · split <;> rfl

theorem panels_endInside : (s.endInside reader tag).panels = (s.popElement tag).panels := by
  rw [endInside]
  split
  · rfl
  · split
    · exact panels_finishAnchor _ _
    · split
      · exact panels_finishAnchor _ _
      · rfl

theorem sound_startNav (sound : s.panels.Sound) : (s.startNav element).panels.Sound := by
  rw [startNav]
  split
  · refine ⟨?_, sound.sorted, sound.onStack⟩
    have depth : s.dropdownDepth = s.navStack.count true + s.panelLevels.length :=
      sound.dropdownDepth
    simp only [panels, List.count_cons, depth]
    cases (s.insideHeaderNav && decide (0 < s.listDepth)) <;> simp; omega
  · exact sound

theorem sound_pushElement (sound : s.panels.Sound) : (s.pushElement element).panels.Sound := by
  have longer : ∀ level ∈ s.panelLevels, 0 < level ∧ level ≤ s.elements.length + 1 :=
    fun level listed => ⟨(sound.onStack level listed).1,
      Nat.le_succ_of_le (sound.onStack level listed).2⟩
  rw [pushElement]
  split
  · exact sound
  · dsimp only
    split
    · refine ⟨?_, ?_, ?_⟩
      · exact congrArg (· + 1) sound.dropdownDepth
      · exact List.pairwise_cons.mpr ⟨fun level listed => (longer level listed).2, sound.sorted⟩
      · exact List.forall_mem_cons.mpr ⟨⟨Nat.succ_pos _, Nat.le_refl _⟩, longer⟩
    · exact ⟨sound.dropdownDepth, sound.sorted, longer⟩

theorem sound_endNav (sound : s.panels.Sound) : (s.endNav reader).panels.Sound := by
  have kept := panels_finishAnchor reader s
  have sound : (s.finishAnchor reader).panels.Sound := kept ▸ sound
  rw [endNav]
  generalize s.finishAnchor reader = finished at sound ⊢
  refine ⟨?_, sound.sorted, sound.onStack⟩
  have depth : finished.dropdownDepth =
      finished.navStack.count true + finished.panelLevels.length := sound.dropdownDepth
  simp only [panels, depth]
  cases finished.navStack with
  | nil => rfl
  | cons counted outer => cases counted <;> simp

theorem closePanels_spec (level : Nat) {count dropdownDepth : Nat} {levels : List Nat}
    (depth : dropdownDepth = count + levels.length)
    (sorted : levels.Pairwise fun inner outer => outer ≤ inner) :
    (closePanels level levels dropdownDepth).2 =
        count + (closePanels level levels dropdownDepth).1.length ∧
      (closePanels level levels dropdownDepth).1 <:+ levels ∧
        ∀ left ∈ (closePanels level levels dropdownDepth).1, left ≤ level := by
  induction levels generalizing dropdownDepth with
  | nil => exact ⟨depth, List.suffix_refl _, fun _ never => by cases never⟩
  | cons top levels ih =>
    obtain ⟨below, sorted⟩ := List.pairwise_cons.mp sorted
    rw [closePanels]
    split
    · have less : dropdownDepth - 1 = count + levels.length := by
        rw [depth, List.length_cons]
        omega
      obtain ⟨depth, left, short⟩ := ih less sorted
      exact ⟨depth, left.trans (List.suffix_cons _ _), short⟩
    · next stays =>
        have top_ := Nat.le_of_not_lt stays
        refine ⟨depth, List.suffix_refl _, List.forall_mem_cons.mpr ⟨top_, ?_⟩⟩
        exact fun left listed => Nat.le_trans (below left listed) top_

theorem popElements_spec {navStack : List Bool} {elements : List Text} {levels : List Nat}
    {dropdownDepth : Nat} (tag : Text)
    (sound : Panels.Sound ⟨navStack, dropdownDepth, elements, levels⟩) :
    let left := popElements tag elements levels dropdownDepth
    left.1 <:+ elements ∧ Panels.Sound ⟨navStack, left.2.2, left.1, left.2.1⟩ := by
  induction elements generalizing levels dropdownDepth with
  | nil => exact ⟨List.suffix_refl _, sound⟩
  | cons popped elements ih =>
    obtain ⟨depth, left, short⟩ := closePanels_spec elements.length
      sound.dropdownDepth sound.sorted
    have closed : Panels.Sound ⟨navStack, _, elements, _⟩ :=
      ⟨depth, sound.sorted.sublist left.sublist,
        fun level listed => ⟨(sound.onStack level (left.subset listed)).1, short level listed⟩⟩
    rw [popElements]
    dsimp only
    split
    · exact ⟨List.suffix_cons _ _, closed⟩
    · obtain ⟨less, sound⟩ := ih closed
      exact ⟨less.trans (List.suffix_cons _ _), sound⟩

theorem popElement_spec (tag : Text) (sound : s.panels.Sound) :
    (s.popElement tag).elements <:+ s.elements ∧ (s.popElement tag).panels.Sound := by
  rw [popElement]
  split
  · exact popElements_spec tag sound
  · exact ⟨List.suffix_refl _, sound⟩

theorem sound_handle (sound : s.panels.Sound) : (handle reader s event).panels.Sound := by
  cases event with
  | startTag element =>
    rw [handle, handleStarttag]
    split
    · exact sound
    · split
      · exact sound
      · split
        · exact sound_startNav sound
        · split
          · exact sound
          · rw [panels_startInside]
            exact sound_pushElement sound
  | data text => exact sound
  | endTag tag =>
    rw [handle, handleEndtag]
    split
    · exact sound
    · split
      · exact sound
      · split
        · exact sound_endNav sound
        · split
          · exact sound
          · rw [panels_endInside]
            exact (popElement_spec tag sound).2

/-! ### The levels of the menu -/

theorem navStack_pushElement : (s.pushElement element).navStack = s.navStack := by
  rw [pushElement]
  split
  · rfl
  · dsimp only
    split <;> rfl

theorem navStack_popElement : (s.popElement tag).navStack = s.navStack := by
  rw [popElement]
  split <;> rfl

theorem navStack_startInside : (s.startInside reader element).navStack = s.navStack :=
  (congrArg Panels.navStack panels_startInside).trans navStack_pushElement

theorem navStack_endInside : (s.endInside reader tag).navStack = s.navStack :=
  (congrArg Panels.navStack panels_endInside).trans navStack_popElement

theorem navDepth_startInside : (s.startInside reader element).navDepth = s.navDepth :=
  congrArg Gate.navDepth toGate_startInside

theorem navDepth_endInside : (s.endInside reader tag).navDepth = s.navDepth :=
  congrArg Gate.navDepth toGate_endInside

theorem navStack_endNav : (s.endNav reader).navStack = s.navStack.tail :=
  congrArg List.tail (congrArg Panels.navStack (panels_finishAnchor reader s))

theorem navStack_handle (level : s.navStack.length = s.navDepth)
    (role : ∀ element, event = .startTag element → opensByRole element = false) :
    (handle reader s event).navStack.length = (handle reader s event).navDepth := by
  cases event with
  | startTag element =>
    rw [handle, handleStarttag]
    split
    · exact level
    · next footer =>
      split
      · exact level
      · next crumb =>
        split
        · next nav =>
          cases tag : oneOf navTags element.tag with
          | true =>
            rw [startNav, if_pos tag]
            exact congrArg (· + 1) level
          | false =>
            have opens := role element rfl
            rw [tag, Bool.false_or] at nav
            rw [opensByRole, Bool.eq_false_iff.mpr footer, Bool.eq_false_iff.mpr crumb, nav,
              tag] at opens
            cases opens
        · split
          · exact level
          · rw [navStack_startInside, navDepth_startInside]
            exact level
  | data text => exact level
  | endTag tag =>
    rw [handle, handleEndtag]
    split
    · exact level
    · split
      · exact level
      · split
        · rw [navStack_endNav, List.length_tail, level]
          exact (congrArg Gate.navDepth toGate_endNav).symm
        · split
          · exact level
          · rw [navStack_endInside, navDepth_endInside]
            exact level

/-! ### Anchors -/

/-- An anchor that is open has a text, and nothing else an address. -/
structure Pending (s : NavCollector) : Prop where
  text : s.current = none → s.anchorOpen = false
  href : s.anchorOpen = false → s.currentHref = none

/-- The addresses that are recorded, and that of the anchor that is open. -/
def recorded (s : NavCollector) : List Text :=
  s.entries.filterMap (·.2.2) ++ s.currentHref.toList

variable (reader) in
theorem finishAnchor_spec (pending : s.Pending) :
    (s.finishAnchor reader).anchorOpen = false ∧ (s.finishAnchor reader).Pending ∧
      (s.finishAnchor reader).recorded = s.recorded := by
  rw [finishAnchor]
  cases text : s.current with
  | none => exact ⟨pending.text text, pending, rfl⟩
  | some words =>
    refine ⟨rfl, ⟨fun _ => rfl, fun _ => rfl⟩, ?_⟩
    rw [recorded, recorded, Option.toList_none, List.append_nil]
    dsimp only
    split
    · rw [List.filterMap_append]
      cases s.currentHref <;> rfl
    · next nothing =>
        have none_ : s.currentHref = none := not_not.mp fun some_ => nothing (Or.inr some_)
        rw [none_, Option.toList_none, List.append_nil]

theorem exists_pushElement (element : Element) (s : NavCollector) :
    ∃ elements panelLevels dropdownDepth,
      s.pushElement element = { s with elements, panelLevels, dropdownDepth } ∧
        elements = if element.isVoid then s.elements else element.tag :: s.elements := by
  rw [pushElement]
  split
  · exact ⟨_, _, _, rfl, rfl⟩
  · dsimp only
    split <;> exact ⟨_, _, _, rfl, rfl⟩

theorem exists_popElement (tag : Text) (s : NavCollector) : ∃ elements panelLevels dropdownDepth,
      s.popElement tag = { s with elements, panelLevels, dropdownDepth } := by
  rw [popElement]
  split <;> exact ⟨_, _, _, rfl⟩

theorem startAnchor_spec (pending : s.Pending) : (s.startAnchor reader element).Pending ∧
      (s.startAnchor reader element).recorded = s.recorded ++ (hrefOf element).toList := by
  obtain ⟨closed, pending, same⟩ := finishAnchor_spec reader pending
  refine ⟨⟨fun never => absurd never (Option.some_ne_none _), fun never => Bool.noConfusion never⟩, ?_⟩
  rw [recorded, pending.href closed, Option.toList_none, List.append_nil] at same
  rw [← same]
  rfl

/-- The start tag opens an anchor of the menu. -/
def opensAnchor (gate : Gate) (element : Element) : Bool :=
  element.tag = anchorTag ∧ isFooter element = false ∧ isBreadcrumbContainer element = false ∧
    (oneOf navTags element.tag || hasNavRole element) = false ∧ gate.insideHeaderNav = true

/-- What an event records, whether an anchor or nothing. -/
def recordedBy (gate : Gate) : Event → List Text
  | .startTag element => if opensAnchor gate element then (hrefOf element).toList else []
  | .data _ => []
  | .endTag _ => []

variable (reader element) in
theorem startInside_spec (pending : s.Pending) :
    (s.startInside reader element).Pending ∧ (s.startInside reader element).recorded =
      s.recorded ++ if element.tag = anchorTag then (hrefOf element).toList else [] := by
  obtain ⟨elements, panelLevels, dropdownDepth, pushed, -⟩ := exists_pushElement element s
  have kept : (s.pushElement element).Pending := by
    rw [pushed]
    exact ⟨pending.text, pending.href⟩
  have same : (s.pushElement element).recorded = s.recorded := by
    rw [pushed]
    rfl
  rw [startInside]
  by_cases list : oneOf listTags element.tag = true
  · have other : element.tag ≠ anchorTag := by
      intro anchor
      rw [anchor] at list
      exact absurd (oneOf_iff.mp list) (by decide)
    rw [if_pos list, if_neg other, List.append_nil]
    exact ⟨⟨kept.text, kept.href⟩, same⟩
  · rw [if_neg list]
    by_cases anchor : element.tag = anchorTag
    · rw [if_pos anchor, if_pos anchor, ← same]
      exact startAnchor_spec kept
    · rw [if_neg anchor, if_neg anchor, List.append_nil]
      split
      · next heading =>
          refine ⟨⟨fun never => absurd never (Option.some_ne_none _), fun _ => rfl⟩, ?_⟩
          rw [← same, recorded, recorded, kept.href heading.2.1]
          rfl
      · exact ⟨kept, same⟩

theorem endInside_spec (pending : s.Pending) :
    (s.endInside reader tag).Pending ∧ (s.endInside reader tag).recorded = s.recorded := by
  obtain ⟨elements, panelLevels, dropdownDepth, popped⟩ := exists_popElement tag s
  have kept : (s.popElement tag).Pending := by
    rw [popped]
    exact ⟨pending.text, pending.href⟩
  have same : (s.popElement tag).recorded = s.recorded := by
    rw [popped]
    rfl
  obtain ⟨-, finished, same'⟩ := finishAnchor_spec reader kept
  rw [endInside]
  split
  · exact ⟨⟨kept.text, kept.href⟩, same⟩
  · split
    · exact ⟨finished, same'.trans same⟩
    · split
      · exact ⟨finished, same'.trans same⟩
      · exact ⟨kept, same⟩

theorem handle_spec (pending : s.Pending) : (handle reader s event).Pending ∧
    (handle reader s event).recorded = s.recorded ++ recordedBy s.toGate event := by
  cases event with
  | startTag element =>
    rw [handle, handleStarttag, recordedBy, opensAnchor]
    split
    · next footer => exact ⟨⟨pending.text, pending.href⟩, by simp [footer, recorded]⟩
    · next footer =>
      split
      · next crumb => exact ⟨⟨pending.text, pending.href⟩, by simp [crumb, recorded]⟩
      · next crumb =>
        split
        · next nav =>
          have started : (s.startNav element).Pending ∧
              (s.startNav element).recorded = s.recorded := by
            rw [startNav]
            split <;> exact ⟨⟨pending.text, pending.href⟩, rfl⟩
          exact ⟨started.1, by simp [nav, started.2]⟩
        · next nav =>
          split
          · next outside => exact ⟨pending, by simp [outside]⟩
          · next inside =>
            obtain ⟨started, same⟩ := startInside_spec reader element pending
            refine ⟨started, same.trans ?_⟩
            simp only [Bool.not_eq_true, Bool.not_eq_false] at footer crumb nav inside
            simp [footer, crumb, nav, inside]
  | data text =>
    refine ⟨⟨fun none_ => pending.text ?_, pending.href⟩, (List.append_nil _).symm⟩
    exact Option.map_eq_none_iff.mp none_
  | endTag tag =>
    rw [handle, handleEndtag, recordedBy, List.append_nil]
    split
    · exact ⟨⟨pending.text, pending.href⟩, rfl⟩
    · split
      · exact ⟨⟨pending.text, pending.href⟩, rfl⟩
      · split
        · obtain ⟨-, finished, same⟩ := finishAnchor_spec reader pending
          exact ⟨⟨finished.text, finished.href⟩, same⟩
        · split
          · exact ⟨pending, rfl⟩
          · exact endInside_spec pending

end NavCollector

end Rankuno.NavMenu
