import Mathlib.Data.Rat.Defs
import Rankuno.Foundation.Forest
import Rankuno.Foundation.GroupedSums
import Rankuno.Python.Text

/-!
# The dashboard's tree

`dashboardModel.ts`. The nodes of the model are addressed by their place in one array, and each
names its parent and its children; here they are the forest that these make, in the order it is
drawn, and each keeps its index. The array is filled by a walk in preorder, so that the indices
follow it, and only the roots are reordered afterwards.
-/

namespace Rankuno.Dashboard

open Python

/-- The fields of a profile that the tree and its views read. -/
structure PageProfile where
  url : Text
  normalizedPath : Text
  hierarchyLevel : Text
  primaryPageType : Text
  finalConfidenceScore : ℚ
  /-- `trail_source`, which older results lack. -/
  trailSource : Option Text := none
  deriving DecidableEq

/-- A node of `buildTree` or `buildNavTree`. -/
structure TreeNode where
  segment : Text
  path : Text
  profile : Option PageProfile := none

inductive TrailSourceTag where
  | menu
  | breadcrumb
  | mixed
  | none
  deriving DecidableEq

inductive NodeKind where
  | page
  | group
  | defaulter
  deriving DecidableEq

structure DashNode where
  i : Nat
  lv : Nat
  label : Text
  url : Text
  /-- Pages in this subtree. -/
  cnt : Nat
  profile : Option PageProfile := none
  src : TrailSourceTag := .none
  kind : NodeKind
  defaulterCategory : Option Text := none
  deriving DecidableEq

def othersLabel : Text := "OTHERS".toList
def othersLane : Nat := 4
def defaulterLane : Nat := 5

/-- `trailSourceOf`. -/
def trailSourceOf (profile : PageProfile) : TrailSourceTag :=
  if profile.trailSource = some "menu".toList then .menu
  else if profile.trailSource = some "breadcrumb".toList then .breadcrumb
  else .none

/-- `merge`. -/
def merge (a b : TrailSourceTag) : TrailSourceTag :=
  if a = b then a else if a = .none then b else if b = .none then a else .mixed

/-- `rootRank`, with `SRC_RANK`. -/
def rootRank (node : DashNode) : Nat :=
  if node.label = othersLabel then 4
  else match node.src with
    | .menu => 0
    | .mixed => 1
    | .breadcrumb => 2
    | .none => 3

/-- The counts of the roots. -/
def total (nodes : Forest DashNode) : Nat := (nodes.roots.map DashNode.cnt).sum

/-- The walk of `buildDashModel`, below a parent on a level and from an index on, and the pass
that adds up the counts and the sources from the last node to the first. -/
def buildNodes (parentLv : Option Nat) (others : Bool) (next : Nat) :
    Forest TreeNode → Forest DashNode
  | .nil => .nil
  | .cons node children rest =>
    let othersBranch := others || node.segment = othersLabel
    let lv := if othersBranch then othersLane else min (parentLv.elim 0 (· + 1)) 3
    let kids := buildNodes (some lv) othersBranch (next + 1) children
    .cons {
      i := next
      lv
      label := node.segment
      url := (node.profile.map PageProfile.url).getD node.path
      cnt := (if node.profile.isSome then 1 else 0) + total kids
      profile := node.profile
      src := kids.roots.foldr (fun kid src => merge src kid.src)
        ((node.profile.map trailSourceOf).getD .none)
      kind := if node.profile.isSome then .page else .group
    } kids (buildNodes parentLv others (next + 1 + children.size) rest)

/-- `roots.sort`, stable, by the evidence that built a section. -/
def sortRoots (nodes : Forest DashNode) : Forest DashNode :=
  ((nodes.trees (fun _ => ()) 0).mergeSort fun a b => rootRank a.2.1 ≤ rootRank b.2.1).foldr
    (fun tree rest => .cons tree.2.1 tree.2.2 rest) .nil

/-! ### The quarantine -/

/-- A row of `frog_only`. -/
structure FrogOnlyRow where
  url : Text
  defaulterCategory : Option Text := none

def quarantineRootLabel : Text := "Defaulter / Quarantine".toList

/-- `DEFAULTER_CATEGORY_LABELS[category] ?? category`. -/
def categoryLabel (category : Text) : Text :=
  if category = "DAM_HTML_ARCHIVE".toList then "DAM archive (investors)".toList
  else if category = "DAM_FORMS_OTHER".toList then "DAM archive (other)".toList
  else if category = "CMS_INTERNAL_LEAK".toList then "CMS internal path leak".toList
  else if category = "CORRUPTED_URL".toList then "Malformed URL".toList
  else category

/-- The leaves of a category, from an index on. -/
def defaulterLeaves (category : Text) (next : Nat) : List Text → Forest DashNode
  | [] => .nil
  | url :: rest =>
    .cons { i := next, lv := defaulterLane, label := url, url, cnt := 1, kind := .defaulter,
            defaulterCategory := some category } .nil
      (defaulterLeaves category (next + 1) rest)

/-- The groups of the categories, from an index on. -/
def defaulterGroups (urlsOf : Text → List Text) (next : Nat) : List Text → Forest DashNode
  | [] => .nil
  | category :: rest =>
    .cons { i := next, lv := defaulterLane, label := categoryLabel category, url := [],
            cnt := (urlsOf category).length, kind := .group }
      (defaulterLeaves category (next + 1) (urlsOf category))
      (defaulterGroups urlsOf (next + 1 + (urlsOf category).length) rest)

/-- `buildDefaulterSubtree`, with the order of `Array.sort`. -/
def defaulterSubtree (order : Text → Text → Bool) (next : Nat) (frogOnly : List FrogOnlyRow) :
    Forest DashNode :=
  let categories := (frogOnly.filterMap fun gap => gap.defaulterCategory.filter (· ≠ [])).dedup
  let urlsOf category :=
    ((frogOnly.filter fun gap => gap.defaulterCategory = some category).map
      FrogOnlyRow.url).mergeSort order
  if categories = [] then .nil
  else
    let groups := defaulterGroups urlsOf (next + 1) (categories.mergeSort order)
    .tree { i := next, lv := defaulterLane, label := quarantineRootLabel, url := [],
            cnt := total groups, kind := .group } groups

/-! ### Counts -/

/-- The node is a URL: a page or a defaulter. -/
def DashNode.isUrl (node : DashNode) : Bool := node.kind ≠ .group

/-- The nodes of a forest that are URLs. -/
def urlCount (nodes : Forest DashNode) : Nat := nodes.preorder.countP DashNode.isUrl

/-- Every node counts the URLs of its subtree. -/
def Counted (nodes : Forest DashNode) : Prop :=
  ∀ entry ∈ nodes.nodes, entry.1.cnt = urlCount (.tree entry.1 entry.2)

/-- `DashModel`, as far as its views read it. -/
structure DashModel where
  nodes : Forest DashNode
  counted : Counted nodes

section Counts

variable {node : DashNode} {kids rest f g : Forest DashNode}

theorem urlCount_cons : urlCount (.cons node kids rest) =
    (if node.isUrl then 1 else 0) + urlCount kids + urlCount rest := by
  rw [urlCount, Forest.preorder, List.countP_cons, List.countP_append, urlCount, urlCount]
  omega

theorem urlCount_tree : urlCount (.tree node kids) =
    (if node.isUrl then 1 else 0) + urlCount kids := urlCount_cons

theorem counted_nil : Counted .nil := fun _ mem => absurd mem List.not_mem_nil

theorem counted_cons : Counted (.cons node kids rest) ↔
    node.cnt = (if node.isUrl then 1 else 0) + urlCount kids ∧ Counted kids ∧ Counted rest := by
  rw [← urlCount_tree, Counted, Forest.nodes, List.forall_mem_cons, List.forall_mem_append]
  rfl

theorem counted_append : Counted (f ++ g) ↔ Counted f ∧ Counted g := by
  rw [Counted, Forest.nodes_append, List.forall_mem_append]
  rfl

theorem total_eq (counted : Counted f) : total f = urlCount f := by
  induction f with
  | nil => rfl
  | cons node kids rest _ ih =>
    obtain ⟨own, -, after⟩ := counted_cons.mp counted
    rw [total, Forest.roots, List.map_cons, List.sum_cons, ← total, ih after, urlCount_cons, own]

theorem counted_buildNodes (parentLv : Option Nat) (others : Bool) (next : Nat)
    (f : Forest TreeNode) : Counted (buildNodes parentLv others next f) := by
  induction f generalizing parentLv others next with
  | nil => exact counted_nil
  | cons node children rest below after =>
    refine counted_cons.mpr ⟨?_, below _ _ _, after _ _ _⟩
    rw [← total_eq (below _ _ _)]
    cases node.profile <;> rfl

theorem counted_foldr {trees : List (Unit × DashNode × Forest DashNode)}
    (counted : ∀ tree ∈ trees, Counted (.tree tree.2.1 tree.2.2)) :
    Counted (trees.foldr (fun tree rest => .cons tree.2.1 tree.2.2 rest) .nil) := by
  induction trees with
  | nil => exact counted_nil
  | cons tree trees ih =>
    obtain ⟨first, others⟩ := List.forall_mem_cons.mp counted
    obtain ⟨own, below, -⟩ := counted_cons.mp first
    exact counted_cons.mpr ⟨own, below, ih others⟩

theorem counted_trees (counted : Counted f) (i : Nat) :
    ∀ tree ∈ f.trees (fun _ => ()) i, Counted (.tree tree.2.1 tree.2.2) := by
  induction f generalizing i with
  | nil => exact fun _ mem => absurd mem List.not_mem_nil
  | cons node kids rest _ ih =>
    obtain ⟨own, below, after⟩ := counted_cons.mp counted
    exact List.forall_mem_cons.mpr ⟨counted_cons.mpr ⟨own, below, counted_nil⟩, ih after _⟩

theorem counted_sortRoots (counted : Counted f) : Counted (sortRoots f) :=
  counted_foldr fun tree mem => counted_trees counted 0 tree (List.mem_mergeSort.mp mem)

theorem counted_defaulterLeaves (category : Text) (next : Nat) (urls : List Text) :
    Counted (defaulterLeaves category next urls) ∧
      urlCount (defaulterLeaves category next urls) = urls.length := by
  induction urls generalizing next with
  | nil => exact ⟨counted_nil, rfl⟩
  | cons url rest ih =>
    obtain ⟨counted, count⟩ := ih (next + 1)
    refine ⟨counted_cons.mpr ⟨rfl, counted_nil, counted⟩, ?_⟩
    rw [defaulterLeaves, urlCount_cons, count, List.length_cons, Nat.add_comm]
    rfl

theorem counted_defaulterGroups (urlsOf : Text → List Text) (next : Nat) (categories : List Text) :
    Counted (defaulterGroups urlsOf next categories) := by
  induction categories generalizing next with
  | nil => exact counted_nil
  | cons category rest ih =>
    obtain ⟨counted, count⟩ := counted_defaulterLeaves category (next + 1) (urlsOf category)
    refine counted_cons.mpr ⟨?_, counted, ih _⟩
    rw [count]
    exact (Nat.zero_add _).symm

theorem counted_defaulterSubtree (order : Text → Text → Bool) (next : Nat)
    (frogOnly : List FrogOnlyRow) : Counted (defaulterSubtree order next frogOnly) := by
  rw [defaulterSubtree]
  split
  · exact counted_nil
  · have groups := counted_defaulterGroups
    exact counted_cons.mpr ⟨(total_eq (groups _ _ _)).trans (Nat.zero_add _).symm,
      groups _ _ _, counted_nil⟩

end Counts

/-- `buildDashModel` of a tree; `frogOnly` is none without a cross-check, or where the defaulters
are not asked for. -/
def buildDashModel (order : Text → Text → Bool) (hasProvenance : Bool) (tree : Forest TreeNode)
    (frogOnly : Option (List FrogOnlyRow)) : DashModel :=
  let nodes := buildNodes none false 0 tree
  { nodes := (if hasProvenance then sortRoots nodes else nodes) ++
      (frogOnly.elim .nil (defaulterSubtree order tree.size))
    counted := by
      have built : Counted nodes := counted_buildNodes none false 0 tree
      refine counted_append.mpr ⟨?_, ?_⟩
      · split
        · exact counted_sortRoots built
        · exact built
      · cases frogOnly with
        | none => exact counted_nil
        | some frogOnly => exact counted_defaulterSubtree order _ frogOnly }

section Totals

variable {f : Forest DashNode}

theorem urlCount_buildNodes (parentLv : Option Nat) (others : Bool) (next : Nat)
    (f : Forest TreeNode) : urlCount (buildNodes parentLv others next f) =
      f.preorder.countP fun node => node.profile.isSome := by
  induction f generalizing parentLv others next with
  | nil => rfl
  | cons node children rest below after =>
    rw [buildNodes, urlCount_cons, below, after, Forest.preorder, List.countP_cons,
      List.countP_append]
    cases node.profile <;> simp [DashNode.isUrl, Nat.add_comm, Nat.add_assoc]

theorem preorder_foldr (trees : List (Unit × DashNode × Forest DashNode)) : Forest.preorder
    (trees.foldr (fun tree rest => .cons tree.2.1 tree.2.2 rest) .nil) = Forest.stacked trees := by
  induction trees with
  | nil => rfl
  | cons tree trees ih =>
    rw [List.foldr_cons, Forest.preorder, ih]
    rfl

theorem urlCount_sortRoots : urlCount (sortRoots f) = urlCount f := by
  rw [urlCount, sortRoots, preorder_foldr, urlCount, ← Forest.stacked_trees (fun _ => ()) 0]
  exact ((List.mergeSort_perm _ _).flatMap_right _).countP_eq _

theorem urlCount_defaulterGroups (urlsOf : Text → List Text) (next : Nat) (categories : List Text) :
    urlCount (defaulterGroups urlsOf next categories) =
      (categories.map fun category => (urlsOf category).length).sum := by
  induction categories generalizing next with
  | nil => rfl
  | cons category rest ih =>
    rw [defaulterGroups, urlCount_cons, (counted_defaulterLeaves _ _ _).2, ih, List.map_cons,
      List.sum_cons]
    exact congrArg (· + _) (Nat.zero_add _)

theorem sum_categories (frogOnly : List FrogOnlyRow) :
    ((frogOnly.filterMap fun gap => gap.defaulterCategory.filter (· ≠ [])).dedup.map fun category =>
      (frogOnly.filter fun gap => gap.defaulterCategory = some category).length).sum =
      frogOnly.countP fun gap => gap.defaulterCategory.any (· ≠ []) := by
  have byKey := GroupedSums.sum_length_by_key ((List.nodup_dedup
    (frogOnly.filterMap fun gap => gap.defaulterCategory.filter (· ≠ []))).map
      fun _ _ => Option.some.inj) FrogOnlyRow.defaulterCategory frogOnly
  rw [List.map_map] at byKey
  rw [List.countP_eq_length_filter]
  refine byKey.trans (congrArg List.length (List.filter_congr fun gap mem => ?_))
  cases named : gap.defaulterCategory with
  | none => simp
  | some category =>
    rw [Bool.eq_iff_iff, decide_eq_true_iff]
    simp only [List.mem_map, List.mem_dedup, List.mem_filterMap, Option.filter_eq_some_iff]
    constructor
    · rintro ⟨_, ⟨_, ⟨_, _, _, filled⟩, rfl⟩, same⟩
      cases same
      exact filled
    · exact fun filled => ⟨_, ⟨category, ⟨gap, mem, named, filled⟩, rfl⟩, rfl⟩

theorem urlCount_defaulterSubtree (order : Text → Text → Bool) (next : Nat)
    (frogOnly : List FrogOnlyRow) : urlCount (defaulterSubtree order next frogOnly) =
      frogOnly.countP fun gap => gap.defaulterCategory.any (· ≠ []) := by
  rw [← sum_categories, defaulterSubtree]
  split
  · rename_i empty
    rw [empty]
    rfl
  · rw [urlCount_tree, urlCount_defaulterGroups]
    simp only [List.length_map, List.length_mergeSort]
    exact (Nat.zero_add _).trans (((List.mergeSort_perm _ order).map _).sum_eq)

end Totals

end Rankuno.Dashboard
