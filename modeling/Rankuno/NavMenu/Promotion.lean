import Mathlib.Data.List.Perm.Basic
import Rankuno.NavMenu.BuildTree

/-!
# Declared roots and headings without a section

`_promote_declared_roots` lifts the nodes that the markup calls top-level out of the nesting
and `_prune_unlinked_leaves` drops the headings that nothing is left under. A lifted node
becomes a root of depth 0 with its own children, whose depths stay those of their old places.
-/

namespace Rankuno.NavMenu

open Python

/-- `url is not None and url in declared`. -/
def declaredIn (declared : List Text) (url : Option Text) : Bool :=
  url.any fun url => declared.any fun root => root = url

/-- `strip` of `_promote_declared_roots`: the nodes that are kept and those that are lifted. -/
def strip (declared : List Text) (atRoot : Bool) : Forest NavNode → Forest NavNode × Forest NavNode
  | .nil => (.nil, .nil)
  | .cons node children rest =>
    let below := strip declared false children
    let after := strip declared atRoot rest
    if atRoot = false ∧ declaredIn declared node.url = true then
      (after.1, below.2 ++ (.tree { node with depth := 0 } below.1 ++ after.2))
    else (.cons node below.1 after.1, below.2 ++ after.2)

/-- `_promote_declared_roots`. -/
def promoteDeclaredRoots (declared : List Text) (nodes : Forest NavNode) : Forest NavNode :=
  if declared = [] then nodes
  else (strip declared true nodes).1 ++ (strip declared true nodes).2

/-- `_prune_unlinked_leaves`. -/
def pruneUnlinkedLeaves : Forest NavNode → Forest NavNode
  | .nil => .nil
  | .cons node children rest =>
    let kept := pruneUnlinkedLeaves children
    if node.url = none ∧ kept = .nil then pruneUnlinkedLeaves rest
    else .cons node kept (pruneUnlinkedLeaves rest)

/-- The roots that `parse_navigation` makes of its entries. -/
def menuRoots (entries : List Entry) (declared : List Text) : Forest NavNode :=
  pruneUnlinkedLeaves (promoteDeclaredRoots declared (buildTree entries))

/-! ### The links of a menu -/

section Links

variable {declared : List Text} {node : NavNode} {children rest f g : Forest NavNode}
  {atRoot : Bool} {url : Text}

def links (f : Forest NavNode) : List (Text × Text) :=
  f.preorder.filterMap fun node => node.url.map fun url => (node.label, url)

def NavNode.link (node : NavNode) : List (Text × Text) :=
  (node.url.map fun url => (node.label, url)).toList

theorem links_cons : links (.cons node children rest) =
    node.link ++ (links children ++ links rest) := by
  rw [links, Forest.preorder, List.filterMap_cons, List.filterMap_append, NavNode.link]
  cases node.url <;> rfl

@[simp] theorem links_append : links (f ++ g) = links f ++ links g := by
  rw [links, Forest.preorder_append, List.filterMap_append]
  rfl

theorem link_eq_nil : node.link = [] ↔ node.url = none := by
  rw [NavNode.link]
  cases node.url with
  | none => exact iff_of_true rfl rfl
  | some url => exact iff_of_false (List.cons_ne_nil _ _) (Option.some_ne_none _)

theorem declaredIn_iff {address : Option Text} :
    declaredIn declared address = true ↔ ∃ url ∈ declared, address = some url := by
  rw [declaredIn, Option.any_eq_true]
  constructor
  · rintro ⟨url, own, listed⟩
    obtain ⟨root, listed, same⟩ := List.any_eq_true.mp listed
    exact ⟨url, of_decide_eq_true same ▸ listed, own⟩
  · rintro ⟨url, listed, own⟩
    exact ⟨url, own, List.any_eq_true.mpr ⟨url, listed, decide_eq_true rfl⟩⟩

theorem url_ne_none (own : declaredIn declared node.url = true) : node.url ≠ none := by
  intro unlinked
  rw [unlinked] at own
  cases own

theorem strip_cons_lifted (own : declaredIn declared node.url = true) :
    strip declared false (.cons node children rest) = ((strip declared false rest).1,
        (strip declared false children).2 ++
          (.tree { node with depth := 0 } (strip declared false children).1 ++
            (strip declared false rest).2)) := by
  rw [strip, if_pos ⟨rfl, own⟩]

theorem strip_cons_kept (stays : ¬(atRoot = false ∧ declaredIn declared node.url = true)) :
    strip declared atRoot (.cons node children rest) =
      (.cons node (strip declared false children).1 (strip declared atRoot rest).1,
        (strip declared false children).2 ++ (strip declared atRoot rest).2) := by
  rw [strip, if_neg stays]

theorem strip_nil : strip [] atRoot f = (f, .nil) := by
  induction f generalizing atRoot with
  | nil => rfl
  | cons node children rest below after =>
    have undeclared : ¬(atRoot = false ∧ declaredIn [] node.url = true) := by
      rintro ⟨-, own⟩
      obtain ⟨url, listed, -⟩ := declaredIn_iff.mp own
      cases listed
    rw [strip_cons_kept undeclared, below, after]
    rfl

theorem promoteDeclaredRoots_eq : promoteDeclaredRoots declared f =
    (strip declared true f).1 ++ (strip declared true f).2 := by
  rw [promoteDeclaredRoots]
  split
  · next empty => rw [empty, strip_nil, Forest.append_nil]
  · rfl

theorem links_strip : (links (strip declared atRoot f).1 ++
    links (strip declared atRoot f).2).Perm (links f) := by
  induction f generalizing atRoot with
  | nil => exact List.Perm.refl _
  | cons node children rest below after =>
    have below := @below false
    have after := @after atRoot
    by_cases lifts : atRoot = false ∧ declaredIn declared node.url = true
    · obtain ⟨rfl, own⟩ := lifts
      have link : ({ node with depth := 0 } : NavNode).link = node.link := rfl
      simp only [strip_cons_lifted own, links_append, Forest.tree, links_cons, link]
      refine List.Perm.trans ?_ ((below.append after).append_left node.link)
      rw [List.perm_iff_count]
      intro pair
      simp only [List.count_append]
      simp only [links, Forest.preorder, List.filterMap_nil, List.count_nil]
      omega
    · simp only [strip_cons_kept lifts, links_append, links_cons]
      refine List.Perm.trans ?_ ((below.append after).append_left node.link)
      rw [List.perm_iff_count]
      intro pair
      simp only [List.count_append]
      omega

theorem pruneUnlinkedLeaves_cons : pruneUnlinkedLeaves (.cons node children rest) =
    if node.url = none ∧ pruneUnlinkedLeaves children = .nil then pruneUnlinkedLeaves rest
    else .cons node (pruneUnlinkedLeaves children) (pruneUnlinkedLeaves rest) := rfl

@[simp] theorem links_pruneUnlinkedLeaves : links (pruneUnlinkedLeaves f) = links f := by
  induction f with
  | nil => rfl
  | cons node children rest below after =>
    rw [pruneUnlinkedLeaves_cons, links_cons, ← below, ← after]
    split
    · next dropped =>
        rw [link_eq_nil.mpr dropped.1, dropped.2]
        rfl
    · exact links_cons

theorem pruneUnlinkedLeaves_eq_nil_iff : pruneUnlinkedLeaves f = .nil ↔ links f = [] := by
  constructor
  · intro pruned
    rw [← links_pruneUnlinkedLeaves, pruned]
    rfl
  · intro unlinked
    induction f with
    | nil => rfl
    | cons node children rest below after =>
      rw [links_cons, List.append_eq_nil_iff, List.append_eq_nil_iff, link_eq_nil] at unlinked
      obtain ⟨own, inner, outer⟩ := unlinked
      rw [pruneUnlinkedLeaves_cons, if_pos ⟨own, below inner⟩, after outer]

theorem pruneUnlinkedLeaves_append :
    pruneUnlinkedLeaves (f ++ g) = pruneUnlinkedLeaves f ++ pruneUnlinkedLeaves g := by
  induction f with
  | nil => rfl
  | cons node children rest _ after =>
    rw [Forest.cons_append, pruneUnlinkedLeaves_cons, pruneUnlinkedLeaves_cons, after]
    split <;> rfl

theorem mem_roots_prune (listed : node ∈ f.roots) (linked : node.url ≠ none) :
    node ∈ (pruneUnlinkedLeaves f).roots := by
  induction f with
  | nil => cases listed
  | cons first children rest _ after =>
    rw [pruneUnlinkedLeaves_cons]
    rw [Forest.roots] at listed
    split
    · next dropped =>
        rcases List.mem_cons.mp listed with rfl | listed
        · exact absurd dropped.1 linked
        · exact after listed
    · rcases List.mem_cons.mp listed with rfl | listed
      · exact List.mem_cons_self
      · exact List.mem_cons_of_mem _ (after listed)

theorem ne_nil_of_mem_nodes (listed : (node, children) ∈ (pruneUnlinkedLeaves f).nodes)
    (unlinked : node.url = none) : children ≠ .nil := by
  induction f with
  | nil => cases listed
  | cons first inner rest below after =>
    rw [pruneUnlinkedLeaves_cons] at listed
    split at listed
    · exact after listed
    · next stays =>
        rw [Forest.nodes] at listed
        rcases List.mem_cons.mp listed with same | listed
        · obtain ⟨rfl, rfl⟩ := Prod.mk.inj same
          exact fun empty => stays ⟨unlinked, empty⟩
        · rcases List.mem_append.mp listed with listed | listed
          · exact below listed
          · exact after listed

theorem exists_lifted (listed : node ∈ f.preorder) (own : declaredIn declared node.url = true) :
    ∃ root ∈ (strip declared false f).2.roots, root.url = node.url := by
  induction f with
  | nil => cases listed
  | cons first children rest below after =>
    rw [Forest.preorder] at listed
    by_cases lifts : declaredIn declared first.url = true
    · rw [strip_cons_lifted lifts]
      simp only [Forest.roots_append, List.mem_append]
      rcases List.mem_cons.mp listed with rfl | listed
      · exact ⟨_, Or.inr (Or.inl List.mem_cons_self), rfl⟩
      · rcases List.mem_append.mp listed with listed | listed
        · obtain ⟨root, mem, url⟩ := below listed
          exact ⟨root, Or.inl mem, url⟩
        · obtain ⟨root, mem, url⟩ := after listed
          exact ⟨root, Or.inr (Or.inr mem), url⟩
    · rw [strip_cons_kept fun lift => lifts lift.2]
      simp only [Forest.roots_append, List.mem_append]
      rcases List.mem_cons.mp listed with rfl | listed
      · exact absurd own lifts
      · rcases List.mem_append.mp listed with listed | listed
        · obtain ⟨root, mem, url⟩ := below listed
          exact ⟨root, Or.inl mem, url⟩
        · obtain ⟨root, mem, url⟩ := after listed
          exact ⟨root, Or.inr mem, url⟩

theorem exists_promoted (listed : node ∈ f.preorder) (own : declaredIn declared node.url = true) :
    ∃ root ∈ (promoteDeclaredRoots declared f).roots, root.url = node.url := by
  rw [promoteDeclaredRoots_eq]
  simp only [Forest.roots_append, List.mem_append]
  induction f with
  | nil => cases listed
  | cons first children rest _ after =>
    rw [Forest.preorder] at listed
    rw [strip_cons_kept fun lift => Bool.noConfusion lift.1]
    simp only [Forest.roots_append, Forest.roots, List.mem_append, List.mem_cons]
    rcases List.mem_cons.mp listed with rfl | listed
    · exact ⟨node, Or.inl (Or.inl rfl), rfl⟩
    · rcases List.mem_append.mp listed with listed | listed
      · obtain ⟨root, mem, url⟩ := exists_lifted listed own
        exact ⟨root, Or.inr (Or.inl mem), url⟩
      · obtain ⟨root, mem, url⟩ := after listed
        rcases mem with kept | lifted
        · exact ⟨root, Or.inl (Or.inr kept), url⟩
        · exact ⟨root, Or.inr (Or.inr lifted), url⟩

end Links

/-! ### Depths -/

section Depths

variable {declared : List Text} {node : NavNode} {children rest f g : Forest NavNode}
  {atRoot : Bool} {above : List (Nat × NavNode)} {next n : Nat}

/-- The nodes on each level have its depth, counted from `n`. -/
def Levelled : Nat → Forest NavNode → Prop
  | _, .nil => True
  | n, .cons node children rest => node.depth = n ∧ Levelled (n + 1) children ∧ Levelled n rest

theorem levelled_append : Levelled n (f ++ g) ↔ Levelled n f ∧ Levelled n g := by
  induction f with
  | nil => exact (iff_of_eq (true_and _)).symm
  | cons node children rest _ after =>
    rw [Forest.cons_append, Levelled, Levelled, after, and_assoc, and_assoc]

variable (above next) in
theorem levelled_iff : Levelled above.length f ↔
    ∀ visit ∈ f.visits above next, visit.2.depth = visit.1.length := by
  induction f generalizing above next with
  | nil => exact iff_of_true trivial fun _ mem => by cases mem
  | cons node children rest below after =>
    have below := below ((next, node) :: above) (next + 1)
    rw [List.length_cons] at below
    rw [Levelled, Forest.visits, List.forall_mem_cons, List.forall_mem_append, below, after]

theorem Levelled.prune (levelled : Levelled n f) : Levelled n (pruneUnlinkedLeaves f) := by
  induction f generalizing n with
  | nil => exact trivial
  | cons node children rest below after =>
    obtain ⟨own, inner, outer⟩ := levelled
    rw [pruneUnlinkedLeaves_cons]
    split
    · exact after outer
    · exact ⟨own, below inner, after outer⟩

theorem Levelled.kept (levelled : Levelled n f) : Levelled n (strip declared atRoot f).1 := by
  induction f generalizing n atRoot with
  | nil => exact trivial
  | cons node children rest below after =>
    obtain ⟨own, inner, outer⟩ := levelled
    by_cases lifts : atRoot = false ∧ declaredIn declared node.url = true
    · obtain ⟨rfl, lifts⟩ := lifts
      rw [strip_cons_lifted lifts]
      exact after outer
    · rw [strip_cons_kept lifts]
      exact ⟨own, below inner, after outer⟩

theorem Levelled.eq_nil {m : Nat} (levelled : Levelled n f) (levelled' : Levelled m f)
    (ne : n ≠ m) : f = .nil := by
  cases f with
  | nil => rfl
  | cons node children rest => exact absurd (levelled.1.symm.trans levelled'.1) ne

/-- The trees have no linked node below their roots. -/
def Lone : Forest NavNode → Prop
  | .nil => True
  | .cons _ children rest => links children = [] ∧ Lone rest

theorem lone_append : Lone (f ++ g) ↔ Lone f ∧ Lone g := by
  induction f with
  | nil => exact (iff_of_eq (true_and _)).symm
  | cons node children rest _ after =>
    rw [Forest.cons_append, Lone, Lone, after, and_assoc]

theorem levelled_lifted_iff (levelled : Levelled n f) (nested : 0 < n) :
    Levelled 0 (pruneUnlinkedLeaves (strip declared false f).2) ↔
      Lone (strip declared false f).2 := by
  induction f generalizing n with
  | nil => exact Iff.rfl
  | cons node children rest below after =>
    obtain ⟨own, inner, outer⟩ := levelled
    have below := below inner (Nat.succ_pos n)
    have after := after outer nested
    by_cases lifts : declaredIn declared node.url = true
    · have linked : ¬(({ node with depth := 0 } : NavNode).url = none ∧
          pruneUnlinkedLeaves (strip declared false children).1 = .nil) :=
        fun drop => url_ne_none lifts drop.1
      have left : Levelled (n + 1) (pruneUnlinkedLeaves (strip declared false children).1) :=
        inner.kept.prune
      rw [strip_cons_lifted lifts, pruneUnlinkedLeaves_append, pruneUnlinkedLeaves_append,
        levelled_append, levelled_append, lone_append, lone_append, below, after, Forest.tree,
        pruneUnlinkedLeaves_cons, if_neg linked, Levelled, Lone,
        ← pruneUnlinkedLeaves_eq_nil_iff]
      refine and_congr_right fun _ => and_congr_left fun _ => ?_
      constructor
      · rintro ⟨-, first, -⟩
        exact ⟨left.eq_nil first (by omega), trivial⟩
      · rintro ⟨empty, -⟩
        rw [empty]
        exact ⟨rfl, trivial, trivial⟩
    · rw [strip_cons_kept fun lift => lifts lift.2, pruneUnlinkedLeaves_append,
        levelled_append, lone_append, below, after]

theorem levelled_lifted_roots_iff (levelled : Levelled 0 f) :
    Levelled 0 (pruneUnlinkedLeaves (strip declared true f).2) ↔
      Lone (strip declared true f).2 := by
  induction f with
  | nil => exact Iff.rfl
  | cons node children rest _ after =>
    obtain ⟨own, inner, outer⟩ := levelled
    rw [strip_cons_kept fun lift => Bool.noConfusion lift.1, pruneUnlinkedLeaves_append,
      levelled_append, lone_append, levelled_lifted_iff inner (Nat.succ_pos 0), after outer]

theorem levelled_promoted_iff (levelled : Levelled 0 f) :
    Levelled 0 (pruneUnlinkedLeaves (promoteDeclaredRoots declared f)) ↔
      Lone (strip declared true f).2 := by
  have kept : Levelled 0 (pruneUnlinkedLeaves (strip declared true f).1) := levelled.kept.prune
  rw [promoteDeclaredRoots_eq, pruneUnlinkedLeaves_append, levelled_append,
    levelled_lifted_roots_iff levelled, and_iff_right kept]

end Depths

/-! ### What is left below a lifted node -/

section Sheltered

variable {declared : List Text} {node : NavNode} {children rest f : Forest NavNode}
  {above : List (Nat × NavNode)} {next : Nat}

/-- Every linked node is declared. -/
def AllDeclared (declared : List Text) (f : Forest NavNode) : Prop :=
  ∀ node ∈ f.preorder, node.url ≠ none → declaredIn declared node.url = true

theorem allDeclared_cons : AllDeclared declared (.cons node children rest) ↔
    (node.url ≠ none → declaredIn declared node.url = true) ∧
      AllDeclared declared children ∧ AllDeclared declared rest := by
  rw [AllDeclared, Forest.preorder, List.forall_mem_cons, List.forall_mem_append]
  rfl

/-- Below a declared node every linked one is declared too. -/
def Sheltered (declared : List Text) : Forest NavNode → Prop
  | .nil => True
  | .cons node children rest =>
    (declaredIn declared node.url = true → AllDeclared declared children) ∧
      Sheltered declared children ∧ Sheltered declared rest

/-- The same below each root. -/
def ShelteredRoots (declared : List Text) : Forest NavNode → Prop
  | .nil => True
  | .cons _ children rest => Sheltered declared children ∧ ShelteredRoots declared rest

theorem links_kept_eq_nil_iff (sheltered : Sheltered declared f) :
    links (strip declared false f).1 = [] ↔ AllDeclared declared f := by
  induction f with
  | nil => exact iff_of_true rfl fun _ mem => by cases mem
  | cons node children rest below after =>
    obtain ⟨own, inner, outer⟩ := sheltered
    rw [allDeclared_cons]
    by_cases lifts : declaredIn declared node.url = true
    · rw [strip_cons_lifted lifts, after outer]
      exact ⟨fun rest => ⟨fun _ => lifts, own lifts, rest⟩, fun all => all.2.2⟩
    · rw [strip_cons_kept fun lift => lifts lift.2, links_cons, List.append_eq_nil_iff,
        List.append_eq_nil_iff, below inner, after outer, link_eq_nil]
      refine and_congr_left fun _ => ⟨fun none_ => absurd none_, fun all => ?_⟩
      exact not_not.mp fun linked => lifts (all linked)

theorem lone_lifted_iff : Lone (strip declared false f).2 ↔ Sheltered declared f := by
  induction f with
  | nil => exact Iff.rfl
  | cons node children rest below after =>
    by_cases lifts : declaredIn declared node.url = true
    · rw [strip_cons_lifted lifts, lone_append, lone_append, below, after, Forest.tree, Lone,
        Lone, Sheltered]
      constructor
      · rintro ⟨inner, ⟨bare, -⟩, outer⟩
        exact ⟨fun _ => (links_kept_eq_nil_iff inner).mp bare, inner, outer⟩
      · rintro ⟨own, inner, outer⟩
        exact ⟨inner, ⟨(links_kept_eq_nil_iff inner).mpr (own lifts), trivial⟩, outer⟩
    · rw [strip_cons_kept fun lift => lifts lift.2, lone_append, below, after, Sheltered]
      exact (and_iff_right fun lift => absurd lift lifts).symm

theorem lone_promoted_iff : Lone (strip declared true f).2 ↔ ShelteredRoots declared f := by
  induction f with
  | nil => exact Iff.rfl
  | cons node children rest _ after =>
    rw [strip_cons_kept fun lift => Bool.noConfusion lift.1, lone_append, lone_lifted_iff, after,
      ShelteredRoots]

/-- The linked node that is visited is declared, or none of the nodes above it is. -/
def FreeVisit (declared : List Text) (above : List (Nat × NavNode)) (node : NavNode) : Prop :=
  node.url ≠ none → declaredIn declared node.url = false →
    ∀ outer ∈ above, declaredIn declared outer.2.url = false

theorem freeVisit_iff : FreeVisit declared above node ↔
    ∀ outer ∈ above, declaredIn declared outer.2.url = true → node.url ≠ none →
      declaredIn declared node.url = true := by
  constructor
  · intro free outer listed own linked
    by_contra undeclared
    rw [free linked (Bool.eq_false_iff.mpr undeclared) outer listed] at own
    cases own
  · intro free linked undeclared outer listed
    refine Bool.eq_false_iff.mpr fun own => ?_
    rw [free outer listed own linked] at undeclared
    cases undeclared

theorem forall_visits_iff : (∀ visit ∈ f.visits above next, FreeVisit declared visit.1 visit.2) ↔
      Sheltered declared f ∧
        ∀ outer ∈ above, declaredIn declared outer.2.url = true → AllDeclared declared f := by
  induction f generalizing above next with
  | nil =>
    exact iff_of_true (fun _ mem => by cases mem) ⟨trivial, fun _ _ _ _ mem => by cases mem⟩
  | cons node children rest below after =>
    rw [Forest.visits, List.forall_mem_cons, List.forall_mem_append, below, after,
      List.forall_mem_cons, freeVisit_iff, Sheltered]
    simp only [allDeclared_cons]
    constructor
    · rintro ⟨free, ⟨inner, own, inner'⟩, outer, outer'⟩
      exact ⟨⟨own, inner, outer⟩, fun o mem decl =>
        ⟨free o mem decl, inner' o mem decl, outer' o mem decl⟩⟩
    · rintro ⟨⟨own, inner, outer⟩, all⟩
      exact ⟨fun o mem decl => (all o mem decl).1,
        ⟨inner, own, fun o mem decl => (all o mem decl).2.1⟩, outer,
        fun o mem decl => (all o mem decl).2.2⟩

variable (next) in
theorem shelteredRoots_iff : ShelteredRoots declared f ↔
    ∀ visit ∈ f.visits [] next, FreeVisit declared visit.1.dropLast visit.2 := by
  induction f generalizing next with
  | nil => exact iff_of_true trivial fun _ mem => by cases mem
  | cons node children rest _ after =>
    have inner : Sheltered declared children ↔ ∀ visit ∈ children.visits [(next, node)] (next + 1),
          FreeVisit declared visit.1.dropLast visit.2 := by
      rw [← List.nil_append [(next, node)], Forest.visits_above, List.forall_mem_map]
      simp only [List.dropLast_concat]
      rw [forall_visits_iff]
      exact (and_iff_left fun _ mem => by cases mem).symm
    rw [ShelteredRoots, Forest.visits, List.forall_mem_cons, List.forall_mem_append, ← inner,
      after (next + 1 + children.size)]
    exact (and_iff_right fun _ _ _ mem => by cases mem).symm

end Sheltered

/-! ### The nesting of the entries -/

section Entries

variable (entries : List Entry) (declared : List Text)

/-- The tree of the entries, and what is left of it after the promotion and the pruning. -/
structure NestsFaithfully : Prop where
  preorder : (buildTree entries).preorder.map (fun node => (node.label, node.url)) =
    entries.map fun entry => (entry.label, entry.url)
  parent : ∀ before entry after, entries = before ++ entry :: after →
    (Outline.above Entry.depth (Outline.chain Entry.depth before.reverse) entry.depth).length <
        maxNavDepth →
      ∃ visit, ((buildTree entries).visits [] 0)[before.length]? = some visit ∧
        visit.1.head?.map Prod.fst =
          (Outline.nearest Entry.depth before.reverse entry.depth).map Prod.fst
  once : ∀ entry ∈ entries, ∀ url, entry.url = some url →
    ((menuRoots entries declared).preorder.filter fun node => node.url = some url).map
      (·.label) = [entry.label]
  declaredRoot : ∀ url ∈ declared, (∃ entry ∈ entries, entry.url = some url) →
    ∃ root ∈ (menuRoots entries declared).roots, root.url = some url
  heading : ∀ node children, (node, children) ∈ (menuRoots entries declared).nodes →
    node.url = none → children ≠ .nil
  depth : ∀ above node, (above, node) ∈ (menuRoots entries declared).visits [] 0 →
    node.depth = above.length ∧ node.depth < maxNavDepth

/-- No linked entry that is not declared is below a declared one that is nested itself, where
the entries are nested by their depths and the outermost levels are kept. -/
def LiftsBare : Prop :=
  ∀ before entry after, entries = before ++ entry :: after → entry.url ≠ none →
    declaredIn declared entry.url = false → ∀ outer ∈ (ancestors before.reverse entry).dropLast,
        declaredIn declared outer.2.url = false

variable {entries declared} {f : Forest NavNode} {m : Nat} {url label : Text}
  {pairs : List (Text × Text)}

theorem levelled_buildTree : Levelled 0 (buildTree entries) := by
  refine (levelled_iff [] 0).mpr fun visit mem => ?_
  obtain ⟨before, entry, -, -, rfl⟩ := mem_visits_iff.mp mem
  exact length_branch.symm

theorem map_url_branch (items : List (Nat × Entry)) :
    (branch items).map (fun item => item.2.url) = items.map fun item => item.2.url := by
  induction items with
  | nil => rfl
  | cons item outer ih =>
    rw [branch, List.map_cons, List.map_cons, ih]
    rfl

theorem liftsBare_iff : LiftsBare entries declared ↔
    ShelteredRoots declared (buildTree entries) := by
  have branches (items : List (Nat × Entry)) :
      (∀ outer ∈ items.dropLast, declaredIn declared outer.2.url = false) ↔
        ∀ outer ∈ (branch items).dropLast, declaredIn declared outer.2.url = false := by
    have same := congrArg List.dropLast (map_url_branch items)
    rw [← List.map_dropLast, ← List.map_dropLast] at same
    rw [← List.forall_mem_map (f := fun item : Nat × Entry => item.2.url)
      (P := fun url => declaredIn declared url = false), ← same, List.forall_mem_map]
  rw [shelteredRoots_iff 0]
  constructor
  · intro bare visit mem
    obtain ⟨before, entry, after, split, rfl⟩ := mem_visits_iff.mp mem
    intro linked undeclared
    exact (branches _).mp (bare before entry after split linked undeclared)
  · intro free before entry after split linked undeclared
    exact (branches _).mpr
      (free _ (mem_visits_iff.mpr ⟨before, entry, after, split, rfl⟩) linked undeclared)

theorem depth_lt_strip (declared : List Text) (atRoot : Bool)
    (shallow : ∀ node ∈ f.preorder, node.depth < m) :
    (∀ node ∈ (strip declared atRoot f).1.preorder, node.depth < m) ∧
      ∀ node ∈ (strip declared atRoot f).2.preorder, node.depth < m := by
  induction f generalizing atRoot with
  | nil => exact ⟨shallow, shallow⟩
  | cons node children rest below after =>
    rw [Forest.preorder, List.forall_mem_cons, List.forall_mem_append] at shallow
    obtain ⟨own, inner, outer⟩ := shallow
    obtain ⟨keptBelow, liftedBelow⟩ := below false inner
    obtain ⟨keptAfter, liftedAfter⟩ := after atRoot outer
    by_cases lifts : atRoot = false ∧ declaredIn declared node.url = true
    · obtain ⟨rfl, lifts⟩ := lifts
      rw [strip_cons_lifted lifts]
      simp only [Forest.preorder_append, Forest.tree, Forest.preorder, List.forall_mem_append,
        List.forall_mem_cons]
      exact ⟨keptAfter, liftedBelow, ⟨Nat.zero_lt_of_lt own, keptBelow, fun _ mem => by cases mem⟩,
        liftedAfter⟩
    · rw [strip_cons_kept lifts]
      simp only [Forest.preorder_append, Forest.preorder, List.forall_mem_append,
        List.forall_mem_cons]
      exact ⟨⟨own, keptBelow, keptAfter⟩, liftedBelow, liftedAfter⟩

theorem preorder_prune_sublist : (pruneUnlinkedLeaves f).preorder.Sublist f.preorder := by
  induction f with
  | nil => exact List.Sublist.refl _
  | cons node children rest below after =>
    rw [pruneUnlinkedLeaves_cons, Forest.preorder]
    split
    · exact (after.trans (List.sublist_append_right _ _)).trans (List.sublist_cons_self _ _)
    · exact (below.append after).cons_cons node

theorem depth_lt (entries : List Entry) (declared : List Text) :
    ∀ node ∈ (menuRoots entries declared).preorder, node.depth < maxNavDepth := by
  have built : ∀ node ∈ (buildTree entries).preorder, node.depth < maxNavDepth := by
    intro node mem
    rw [← Forest.map_snd_visits [] 0] at mem
    obtain ⟨visit, visited, rfl⟩ := List.mem_map.mp mem
    obtain ⟨before, entry, -, -, rfl⟩ := mem_visits_iff.mp visited
    exact length_ancestors_lt
  intro node mem
  have mem := preorder_prune_sublist.subset mem
  rw [promoteDeclaredRoots_eq, Forest.preorder_append] at mem
  obtain ⟨kept, lifted⟩ := depth_lt_strip declared true built
  rcases List.mem_append.mp mem with mem | mem
  · exact kept node mem
  · exact lifted node mem

theorem labels_eq : (f.preorder.filter fun node => node.url = some url).map (·.label) =
    ((links f).filter fun pair => pair.2 = url).map Prod.fst := by
  rw [links]
  induction f.preorder with
  | nil => rfl
  | cons node nodes ih =>
    rw [List.filterMap_cons]
    cases address : node.url with
    | none =>
      rw [List.filter_cons_of_neg (by simp [address])]
      exact ih
    | some own =>
      rw [Option.map_some, List.filter_cons, List.filter_cons, address]
      by_cases same : own = url
      · rw [if_pos (by simpa using same), if_pos (by simpa using same), List.map_cons,
          List.map_cons, ih]
      · rw [if_neg (by simpa using same), if_neg (by simpa using same), ih]

theorem filter_eq_singleton (distinct : (pairs.map Prod.snd).Nodup)
    (listed : (label, url) ∈ pairs) :
    (pairs.filter fun pair => pair.2 = url) = [(label, url)] := by
  induction pairs with
  | nil => cases listed
  | cons pair pairs ih =>
    rw [List.map_cons, List.nodup_cons] at distinct
    obtain ⟨fresh, distinct⟩ := distinct
    rcases List.mem_cons.mp listed with rfl | listed
    · rw [List.filter_cons_of_pos (by simp)]
      congr 1
      refine List.filter_eq_nil_iff.mpr fun other mem same => fresh ?_
      exact List.mem_map.mpr ⟨other, mem, of_decide_eq_true same⟩
    · have other : pair.2 ≠ url := by
        rintro rfl
        exact fresh (List.mem_map.mpr ⟨_, listed, rfl⟩)
      rw [List.filter_cons, if_neg (by simpa using other), ih distinct listed]

theorem links_buildTree : links (buildTree entries) =
    entries.filterMap fun entry => entry.url.map fun url => (entry.label, url) := by
  have through := congrArg (List.filterMap fun pair : Text × Option Text =>
    pair.2.map fun url => (pair.1, url)) (preorder_buildTree entries)
  rwa [List.filterMap_map, List.filterMap_map] at through

theorem map_snd_links : (entries.filterMap fun entry =>
    entry.url.map fun url => (entry.label, url)).map Prod.snd = entries.filterMap Entry.url := by
  rw [List.map_filterMap]
  congr 1
  funext entry
  cases entry.url <;> rfl

variable (entries declared) in
theorem links_menuRoots : (links (menuRoots entries declared)).Perm
    (links (buildTree entries)) := by
  rw [menuRoots, links_pruneUnlinkedLeaves, promoteDeclaredRoots_eq, links_append]
  exact links_strip

theorem labels_menuRoots (distinct : (entries.filterMap Entry.url).Nodup) {entry : Entry}
    (listed : entry ∈ entries) (linked : entry.url = some url) :
    ((menuRoots entries declared).preorder.filter fun node => node.url = some url).map
      (·.label) = [entry.label] := by
  have mem : (entry.label, url) ∈ links (buildTree entries) := by
    rw [links_buildTree]
    exact List.mem_filterMap.mpr ⟨entry, listed, by rw [linked]; rfl⟩
  rw [← map_snd_links, ← links_buildTree] at distinct
  have once := (links_menuRoots entries declared).filter fun pair => decide (pair.2 = url)
  rw [filter_eq_singleton distinct mem] at once
  rw [labels_eq, List.perm_singleton.mp once]
  rfl

theorem exists_root (listed : url ∈ declared) (linked : ∃ entry ∈ entries, entry.url = some url) :
    ∃ root ∈ (menuRoots entries declared).roots, root.url = some url := by
  obtain ⟨entry, mem, own⟩ := linked
  have pair : (entry.label, entry.url) ∈
      (buildTree entries).preorder.map fun node => (node.label, node.url) := by
    rw [preorder_buildTree]
    exact List.mem_map_of_mem mem
  obtain ⟨node, visited, same⟩ := List.mem_map.mp pair
  have address : node.url = some url := (Prod.mk.inj same).2.trans own
  obtain ⟨root, mem, url'⟩ := exists_promoted visited (declaredIn_iff.mpr ⟨url, listed, address⟩)
  have linked : root.url = some url := url'.trans address
  exact ⟨root, mem_roots_prune mem (by rw [linked]; exact Option.some_ne_none _), linked⟩

/-- **The menu nests its entries faithfully exactly where no linked entry is left below a
declared one that is lifted.** -/
theorem nestsFaithfully_iff_liftsBare (entries : List Entry) (declared : List Text)
    (distinct : (entries.filterMap Entry.url).Nodup) :
    NestsFaithfully entries declared ↔ LiftsBare entries declared := by
  rw [liftsBare_iff, ← lone_promoted_iff, ← levelled_promoted_iff levelled_buildTree]
  constructor
  · intro faithful
    refine (levelled_iff [] 0).mpr fun visit mem => ?_
    exact (faithful.depth visit.1 visit.2 mem).1
  · intro levelled
    constructor
    · exact preorder_buildTree entries
    · intro before entry after split few
      exact ⟨_, visits_getElem? split, head?_placement few⟩
    · intro entry listed url linked
      exact labels_menuRoots distinct listed linked
    · intro url listed linked
      exact exists_root listed linked
    · intro node children
      exact ne_nil_of_mem_nodes
    · intro above node mem
      have visited : node ∈ (menuRoots entries declared).preorder := by
        rw [← Forest.map_snd_visits [] 0]
        exact List.mem_map_of_mem mem
      exact ⟨(levelled_iff [] 0).mp levelled _ mem, depth_lt entries declared node visited⟩

end Entries

/-- A tab, a linked heading below it that the markup calls top-level, and an item. -/
def careersEntries : List Entry :=
  [⟨0, "Company".toList, some "https://e.com/company".toList⟩,
    ⟨1, "Careers".toList, some "https://e.com/careers".toList⟩,
    ⟨2, "Openings".toList, some "https://e.com/openings".toList⟩]

/-- The item is below a root and keeps the depth of its old place. -/
theorem openings_depth : menuRoots careersEntries ["https://e.com/careers".toList] =
        .cons ⟨"Company".toList, some "https://e.com/company".toList, 0⟩ .nil
          (.cons ⟨"Careers".toList, some "https://e.com/careers".toList, 0⟩
            (.cons ⟨"Openings".toList, some "https://e.com/openings".toList, 2⟩ .nil .nil)
            .nil) ∧
      ¬NestsFaithfully careersEntries ["https://e.com/careers".toList] := by
  refine ⟨by decide, fun faithful => ?_⟩
  have depths : ∀ visit ∈ (menuRoots careersEntries ["https://e.com/careers".toList]).visits [] 0,
      visit.2.depth = visit.1.length := fun visit mem => (faithful.depth _ _ mem).1
  revert depths
  decide

/-- Nothing is below the item, which may be lifted. -/
theorem openings_lifted : (careersEntries.filterMap Entry.url).Nodup ∧
      (NestsFaithfully careersEntries ["https://e.com/openings".toList] ↔
        LiftsBare careersEntries ["https://e.com/openings".toList]) :=
  ⟨by decide, nestsFaithfully_iff_liftsBare _ _ (by decide)⟩

end Rankuno.NavMenu
