import Mathlib.Data.List.Forall2
import Rankuno.Dashboard.DashModel
import Rankuno.Foundation.Csv

/-!
# The export of a category

`categoryCsv.ts` and `csv.ts`: the URLs at or below a node as a table. A cell that a spreadsheet
would evaluate gets an apostrophe in front, and what is written is read back by any reader of
comma-separated values.
-/

namespace Rankuno.Dashboard

open Python

/-- `CATEGORY_CSV_HEADERS`. -/
def categoryCsvHeaders : List Text :=
  ["URL", "Path", "Hierarchy level", "Page type"].map String.toList

/-- The walk goes everywhere, and puts out what is no group. -/
def visitPage (_ : Unit) (node : DashNode) : List DashNode × Option Unit :=
  (if node.kind ≠ .group then [node] else [], some ())

/-- `categoryPages`. -/
def categoryPages (root : DashNode) (kids : Forest DashNode) : List DashNode :=
  Forest.walkStack visitPage (Forest.tree root kids).size [((), root, kids)]

/-- A spreadsheet evaluates the cell: `/^[=+\-@\t\r]/`. -/
def startsFormula (value : Text) : Bool :=
  value.head?.any fun c => c ∈ ['=', '+', '-', '@', '\t', '\r']

/-- `neutralise`. -/
def neutralise (value : Text) : Text := if startsFormula value then '\'' :: value else value

/-- The values of a node. -/
def categoryValues (node : DashNode) : List Text :=
  [node.url, (node.profile.map PageProfile.normalizedPath).getD [],
    (node.profile.map PageProfile.hierarchyLevel).getD [],
    (node.profile.map PageProfile.primaryPageType).getD []]

/-- `categoryCsv`, with `toCsv`. -/
def categoryCsv (root : DashNode) (kids : Forest DashNode) : Text :=
  Csv.write (categoryCsvHeaders ::
    (categoryPages root kids).map fun node => (categoryValues node).map neutralise)

/-- The cell is the value, with an apostrophe in front exactly when the value starts a formula. -/
def ShownAs (value cell : Text) : Prop :=
  (startsFormula value = true → cell = '\'' :: value) ∧ (startsFormula value = false → cell = value)

/-- A reader gets from the export of every node the header and a row for each URL of its subtree,
in preorder, as many as the node counts, each with a cell for each column. -/
def ExportsFaithfully (model : DashModel) : Prop :=
  ∀ entry ∈ model.nodes.nodes, ∃ rows : List (List Text),
    Csv.read (categoryCsv entry.1 entry.2) = some (categoryCsvHeaders :: rows) ∧
      List.Forall₂ (fun node row => List.Forall₂ ShownAs (categoryValues node) row)
        ((Forest.tree entry.1 entry.2).preorder.filter DashNode.isUrl) rows ∧
      rows.length = entry.1.cnt ∧ ∀ row ∈ rows, row.length = categoryCsvHeaders.length

theorem walk_pages (nodes : Forest DashNode) :
    nodes.walk visitPage () = nodes.preorder.filter DashNode.isUrl := by
  induction nodes with
  | nil => rfl
  | cons node kids rest below after =>
    rw [Forest.walk, visitPage, Option.elim_some, below, after, Forest.preorder, List.filter_cons,
      List.filter_append, DashNode.isUrl]
    cases node.kind <;> rfl

theorem categoryPages_eq (root : DashNode) (kids : Forest DashNode) :
    categoryPages root kids = (Forest.tree root kids).preorder.filter DashNode.isUrl := by
  rw [← walk_pages, ← Forest.walkStack_trees]
  rfl

theorem shownAs_neutralise (value : Text) : ShownAs value (neutralise value) := by
  rw [neutralise]
  constructor
  · intro formula
    rw [if_pos formula]
  · intro plain
    rw [plain]
    rfl

/-- Every export is faithful. -/
theorem exportsFaithfully (model : DashModel) : ExportsFaithfully model := by
  intro entry mem
  refine ⟨(categoryPages entry.1 entry.2).map fun node => (categoryValues node).map neutralise,
    ?_, ?_, ?_, ?_⟩
  · refine Csv.read_write (List.cons_ne_nil _ _) (List.forall_mem_cons.mpr ⟨by decide, ?_⟩)
    intro row listed
    obtain ⟨node, -, rfl⟩ := List.mem_map.mp listed
    exact Nat.le_add_left 2 2
  · rw [categoryPages_eq, List.forall₂_map_right_iff]
    refine List.forall₂_same.mpr fun node _ => ?_
    rw [List.forall₂_map_right_iff]
    exact List.forall₂_same.mpr fun value _ => shownAs_neutralise value
  · rw [List.length_map, categoryPages_eq, model.counted entry mem, urlCount,
      List.countP_eq_length_filter]
  · intro row listed
    obtain ⟨node, -, rfl⟩ := List.mem_map.mp listed
    rfl

end Rankuno.Dashboard
