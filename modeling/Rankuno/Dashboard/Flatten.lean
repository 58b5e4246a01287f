import Mathlib.Data.Finset.Basic
import Rankuno.Dashboard.DashModel

/-!
# The rows of the tree that are drawn

`passes`, `flatten` and `setFocus` of `useDashboardStore.ts`. The walk goes below a node only if
the node passes, so that what is below one that does not is hidden, whatever it is.
-/

namespace Rankuno.Dashboard

inductive ConfidenceBand where
  | high
  | review
  deriving DecidableEq

/-- `confidenceBand`, with `CONFIDENCE_THRESHOLD`. -/
def confidenceBand (profile : PageProfile) : ConfidenceBand :=
  if 85 / 100 ≤ profile.finalConfidenceScore then .high else .review

structure FlatRow where
  i : Nat
  depth : Nat
  deriving DecidableEq

/-- What a row has to pass. The miss mask is there when only misses are asked for. -/
structure Filters where
  laneFilter : Finset Nat
  bandFilter : Finset ConfidenceBand
  missed : Option (Nat → Nat) := none

/-- `passes`. -/
def Filters.passes (filters : Filters) (node : DashNode) : Bool :=
  if node.lv ∉ filters.laneFilter then false
  else if filters.missed.any fun missed => missed node.i = 0 then false
  else match node.profile with
    | none => true
    | some profile => confidenceBand profile ∈ filters.bandFilter

/-- A node that passes is drawn, and what is below it if it is open. -/
def Filters.visit (filters : Filters) (opened : Finset Nat) (depth : Nat) (node : DashNode) :
    List FlatRow × Option Nat :=
  if filters.passes node then ([⟨node.i, depth⟩], if node.i ∈ opened then some (depth + 1) else none)
  else ([], none)

/-- `flatten`. -/
def flatten (nodes : Forest DashNode) (opened : Finset Nat) (filters : Filters) : List FlatRow :=
  Forest.walkStack (filters.visit opened) nodes.size (nodes.trees (fun _ => 0) 0)

/-- The parent of a node, its parent, and so on: the nodes it is below. -/
def parentsOf (i : Nat) : Forest DashNode → Finset Nat
  | .nil => ∅
  | .cons node kids rest =>
    (if i ∈ kids.preorder.map DashNode.i then {node.i} else ∅) ∪ parentsOf i kids ∪
      parentsOf i rest

/-- The open nodes after `setFocus`. -/
def setFocus (nodes : Forest DashNode) (opened : Finset Nat) (i : Nat) : Finset Nat :=
  opened ∪ parentsOf i nodes

/-- The filters hide no node that passes them. -/
structure HidesNothing (nodes : Forest DashNode) (filters : Filters) : Prop where
  /-- With every node open, the nodes that pass are drawn, each once and in preorder. -/
  shown : ∀ opened : Finset Nat, (∀ node ∈ nodes.preorder, node.i ∈ opened) →
    (flatten nodes opened filters).map FlatRow.i =
      (nodes.preorder.filter filters.passes).map DashNode.i
  /-- Opening more nodes removes no row. -/
  grows : ∀ opened more : Finset Nat, opened ⊆ more →
    ∀ row ∈ flatten nodes opened filters, row ∈ flatten nodes more filters
  /-- A node that passes is drawn once the focus is set on it. -/
  focused : ∀ node ∈ nodes.preorder, filters.passes node → ∀ opened : Finset Nat,
    node.i ∈ (flatten nodes (setFocus nodes opened node.i) filters).map FlatRow.i

/-- Nothing that passes is below a node that does not. -/
def PassesFromTop (nodes : Forest DashNode) (filters : Filters) : Prop :=
  ∀ entry ∈ nodes.nodes, filters.passes entry.1 = false →
    ∀ node ∈ entry.2.preorder, filters.passes node = false

section Rows

variable {filters : Filters} {opened more : Finset Nat} {depth : Nat} {node : DashNode}
  {nodes kids rest : Forest DashNode}

/-- The rows of a forest on a level. -/
def rowsOf (filters : Filters) (opened : Finset Nat) (depth : Nat) (nodes : Forest DashNode) :
    List FlatRow :=
  nodes.walk (filters.visit opened) depth

theorem flatten_eq : flatten nodes opened filters = rowsOf filters opened 0 nodes :=
  Forest.walkStack_trees

theorem rowsOf_cons_of_not (fails : filters.passes node = false) :
    rowsOf filters opened depth (.cons node kids rest) = rowsOf filters opened depth rest := by
  rw [rowsOf, Forest.walk, Filters.visit, fails]
  rfl

theorem rowsOf_cons_of_closed (passes : filters.passes node) (closed : node.i ∉ opened) :
    rowsOf filters opened depth (.cons node kids rest) =
      ⟨node.i, depth⟩ :: rowsOf filters opened depth rest := by
  rw [rowsOf, Forest.walk, Filters.visit, if_pos passes, if_neg closed]
  rfl

theorem rowsOf_cons_of_open (passes : filters.passes node) (opens : node.i ∈ opened) :
    rowsOf filters opened depth (.cons node kids rest) = ⟨node.i, depth⟩ ::
      (rowsOf filters opened (depth + 1) kids ++ rowsOf filters opened depth rest) := by
  rw [rowsOf, Forest.walk, Filters.visit, if_pos passes, if_pos opens]
  rfl

theorem passesFromTop_cons : PassesFromTop (.cons node kids rest) filters ↔
    (filters.passes node = false → ∀ inner ∈ kids.preorder, filters.passes inner = false) ∧
      PassesFromTop kids filters ∧ PassesFromTop rest filters := by
  rw [PassesFromTop, Forest.nodes, List.forall_mem_cons, List.forall_mem_append]
  rfl

theorem rowsOf_open (opens : ∀ node ∈ nodes.preorder, node.i ∈ opened) (depth : Nat) :
    ((rowsOf filters opened depth nodes).map FlatRow.i).Sublist
        ((nodes.preorder.filter filters.passes).map DashNode.i) ∧
      ((rowsOf filters opened depth nodes).map FlatRow.i =
          (nodes.preorder.filter filters.passes).map DashNode.i ↔ PassesFromTop nodes filters) := by
  induction nodes generalizing depth with
  | nil => exact ⟨List.Sublist.refl _, iff_of_true rfl fun _ mem => absurd mem List.not_mem_nil⟩
  | cons node kids rest below after =>
    obtain ⟨opensNode, opens⟩ := List.forall_mem_cons.mp opens
    obtain ⟨opensKids, opensRest⟩ := List.forall_mem_append.mp opens
    obtain ⟨kidsIn, kidsAll⟩ := below opensKids (depth + 1)
    obtain ⟨restIn, restAll⟩ := after opensRest depth
    rw [passesFromTop_cons, Forest.preorder]
    cases passes : filters.passes node with
    | true =>
      rw [rowsOf_cons_of_open passes opensNode, List.filter_cons_of_pos passes, List.filter_append,
        List.map_cons, List.map_append, List.map_cons, List.map_append]
      refine ⟨(kidsIn.append restIn).cons_cons _, ?_⟩
      rw [List.cons_inj_right, ← kidsAll, ← restAll]
      simp only [reduceCtorEq, false_implies, true_and]
      constructor
      · intro same
        have lengths := congrArg List.length same
        rw [List.length_append, List.length_append] at lengths
        have few := kidsIn.length_le
        have fewer := restIn.length_le
        exact ⟨kidsIn.eq_of_length (by omega), restIn.eq_of_length (by omega)⟩
      · rintro ⟨kids, rest⟩
        rw [kids, rest]
    | false =>
      rw [rowsOf_cons_of_not passes, List.filter_cons_of_neg (by simp [passes]),
        List.filter_append, List.map_append]
      refine ⟨restIn.trans (List.sublist_append_right _ _), ?_⟩
      rw [← restAll]
      simp only [true_implies]
      constructor
      · intro same
        have lengths := congrArg List.length same
        rw [List.length_append] at lengths
        have fewer := restIn.length_le
        have blank : (kids.preorder.filter filters.passes).map DashNode.i = [] :=
          List.length_eq_zero_iff.mp (by omega)
        rw [blank, List.nil_append] at same
        have hidden : ∀ inner ∈ kids.preorder, filters.passes inner = false := by
          simpa using List.filter_eq_nil_iff.mp (List.map_eq_nil_iff.mp blank)
        exact ⟨hidden, fun entry mem _ inner low =>
          hidden inner (Forest.preorder_subset_of_mem_nodes mem low), same⟩
      · rintro ⟨hidden, -, rest⟩
        have blank : kids.preorder.filter filters.passes = [] :=
          List.filter_eq_nil_iff.mpr (by simpa using hidden)
        rw [rest, blank, List.map_nil, List.nil_append]

theorem rowsOf_subset (wider : opened ⊆ more) (depth : Nat) :
    rowsOf filters opened depth nodes ⊆ rowsOf filters more depth nodes := by
  induction nodes generalizing depth with
  | nil => exact List.Subset.refl _
  | cons node kids rest below after =>
    cases passes : filters.passes node with
    | false =>
      rw [rowsOf_cons_of_not passes, rowsOf_cons_of_not passes]
      exact after depth
    | true =>
      by_cases opens : node.i ∈ opened
      · rw [rowsOf_cons_of_open passes opens, rowsOf_cons_of_open passes (wider opens)]
        exact List.cons_subset_cons _ (List.append_subset.mpr
          ⟨List.subset_append_of_subset_left _ (below _),
            List.subset_append_of_subset_right _ (after _)⟩)
      · rw [rowsOf_cons_of_closed passes opens]
        by_cases opens : node.i ∈ more
        · rw [rowsOf_cons_of_open passes opens]
          exact List.cons_subset_cons _ (List.subset_append_of_subset_right _ (after _))
        · rw [rowsOf_cons_of_closed passes opens]
          exact List.cons_subset_cons _ (after _)

theorem mem_rowsOf_focus (fromTop : PassesFromTop nodes filters) (passes : filters.passes node)
    (mem : node ∈ nodes.preorder) (revealed : parentsOf node.i nodes ⊆ opened) (depth : Nat) :
    node.i ∈ (rowsOf filters opened depth nodes).map FlatRow.i := by
  induction nodes generalizing depth with
  | nil => cases mem
  | cons top kids rest below after =>
    obtain ⟨hidden, fromKids, fromRest⟩ := passesFromTop_cons.mp fromTop
    rw [parentsOf, Finset.union_subset_iff, Finset.union_subset_iff] at revealed
    obtain ⟨⟨parent, revealKids⟩, revealRest⟩ := revealed
    cases topPasses : filters.passes top with
    | false =>
      rw [rowsOf_cons_of_not topPasses]
      obtain rfl | mem := List.mem_cons.mp mem
      · exact absurd passes (Bool.eq_false_iff.mp topPasses)
      · obtain mem | mem := List.mem_append.mp mem
        · exact absurd passes (Bool.eq_false_iff.mp (hidden topPasses node mem))
        · exact after fromRest mem revealRest depth
    | true =>
      by_cases opens : top.i ∈ opened
      · rw [rowsOf_cons_of_open topPasses opens, List.map_cons, List.map_append]
        obtain rfl | mem := List.mem_cons.mp mem
        · exact List.mem_cons_self
        · refine List.mem_cons_of_mem _ (List.mem_append.mpr ?_)
          obtain mem | mem := List.mem_append.mp mem
          · exact Or.inl (below fromKids mem revealKids _)
          · exact Or.inr (after fromRest mem revealRest depth)
      · rw [rowsOf_cons_of_closed topPasses opens, List.map_cons]
        obtain rfl | mem := List.mem_cons.mp mem
        · exact List.mem_cons_self
        · obtain mem | mem := List.mem_append.mp mem
          · rw [if_pos (List.mem_map_of_mem mem)] at parent
            exact absurd (parent (Finset.mem_singleton_self _)) opens
          · exact List.mem_cons_of_mem _ (after fromRest mem revealRest depth)

end Rows

/-- The filters hide nothing that passes them exactly when nothing that passes is below a node
that does not. -/
theorem hidesNothing_iff (nodes : Forest DashNode) (filters : Filters) :
    HidesNothing nodes filters ↔ PassesFromTop nodes filters := by
  let all : Finset Nat := (nodes.preorder.map DashNode.i).toFinset
  have whole : ∀ node ∈ nodes.preorder, node.i ∈ all := fun node mem =>
    List.mem_toFinset.mpr (List.mem_map_of_mem mem)
  constructor
  · intro h
    have shown := h.shown all whole
    rw [flatten_eq] at shown
    exact (rowsOf_open whole 0).2.mp shown
  · intro fromTop
    refine ⟨fun opened opens => ?_, fun opened more wider row => ?_, fun node mem passes opened => ?_⟩
    · rw [flatten_eq]
      exact (rowsOf_open opens 0).2.mpr fromTop
    · rw [flatten_eq, flatten_eq]
      exact fun drawn => rowsOf_subset wider 0 drawn
    · rw [flatten_eq]
      exact mem_rowsOf_focus fromTop passes mem Finset.subset_union_right 0

section Sample

/-- A section in the top lane with a page below it, in the next. -/
def sectionWithPage : Forest DashNode :=
  buildNodes none false 0 (.tree { segment := "blog".toList, path := "/blog/".toList }
    (.tree { segment := "a".toList, path := "/blog/a/".toList,
             profile := some ⟨"https://x.io/blog/a".toList, "/blog/a".toList,
               "L3_LEAF_PAGE".toList, "BLOG_ARTICLE".toList, 9 / 10, none⟩ } .nil))

/-- The lane of the page alone is asked for: the page is not drawn. -/
theorem not_hidesNothing_lane : ¬ HidesNothing sectionWithPage ⟨{1}, {.high, .review}, none⟩ := by
  intro h
  have drawn := h.shown {0, 1} (by decide)
  revert drawn
  decide +kernel

end Sample

end Rankuno.Dashboard
