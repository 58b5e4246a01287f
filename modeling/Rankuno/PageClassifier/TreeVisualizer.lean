import Rankuno.Foundation.Trie
import Rankuno.Placement.LogicalHierarchy

/-!
# The hierarchy report

`build_tree` files the profiles of a crawl in a tree by the path of their normalised URL.
A node that no profile names is put in on the way to the nodes below it. The profile of a
node is the last one with its path: scheme, host and query string are no part of that, so
profiles with different keys may share one node, and only one of them stays. The rollup badge
of a node counts the nodes below it, whether or not they hold a page.

The tree loses no page exactly where the profiles have distinct paths and every beginning of
a path is one, `Separated`.
-/

universe u

namespace Rankuno.TreeVisualizer

open Python Text
open Placement (withoutScheme)

structure TreeNode (ρ : Type u) where
  segment : Text
  path : Text
  profile : Option ρ := none
  deriving DecidableEq

/-- The root with the nodes below it, a node before those that were put in after it. -/
structure SiteTree (ρ : Type u) where
  root : TreeNode ρ
  children : Forest (TreeNode ρ)
  deriving DecidableEq

/-- `descendant_count`, of a node with these children. -/
def descendantCount {ρ : Type u} : Forest (TreeNode ρ) → Nat
  | .nil => 0
  | .cons _ children rest => 1 + descendantCount children + descendantCount rest

/-- `_path_segments`. -/
def pathSegments (url : Text) : List Text :=
  let path := (partition '/' (withoutScheme url)).2.getD []
  (split '/' (partition '?' path).1).filter fun segment => !segment.isEmpty

section BuildTree

variable {ρ : Type u}

/-- The node that is put in at an address. -/
def TreeNode.created (address : List Text) : TreeNode ρ where
  segment := address.getLast?.getD []
  path := (address.flatMap fun segment => '/' :: segment) ++ ['/']

theorem TreeNode.segment_created (above : List Text) (segment : Text) :
    (created (above ++ [segment]) : TreeNode ρ).segment = segment := by
  rw [created, List.getLast?_concat, Option.getD_some]

def TreeNode.holding (profile : ρ) (node : TreeNode ρ) : TreeNode ρ :=
  { node with profile := some profile }

theorem TreeNode.segment_holding (profile : ρ) (node : TreeNode ρ) :
    (node.holding profile).segment = node.segment := rfl

/-- The nodes on the way to a profile, and its own. -/
def planting (profile : ρ) : Forest.Planting (TreeNode.segment (ρ := ρ)) where
  fresh := TreeNode.created
  rewrite := TreeNode.holding profile
  key_fresh := TreeNode.segment_created
  key_rewrite := TreeNode.segment_holding profile

variable (normalizedPath : ρ → Text)

/-- The loop body of `build_tree`. -/
def place (tree : SiteTree ρ) (profile : ρ) : SiteTree ρ :=
  let segments := pathSegments (normalizedPath profile)
  if segments = [] then { tree with root := tree.root.holding profile }
  else { tree with children := tree.children.graft (planting profile) [] segments }

def buildTree (profiles : List ρ) : SiteTree ρ :=
  profiles.foldl (place normalizedPath) ⟨⟨['/'], ['/'], none⟩, .nil⟩

end BuildTree

namespace SiteTree

variable {ρ : Type u} (tree : SiteTree ρ)

/-- Every node, with the segments from the root down to it. -/
def placed : List (List Text × TreeNode ρ) :=
  ([], tree.root) :: tree.children.addressed TreeNode.segment []

def nodes : List (TreeNode ρ × Forest (TreeNode ρ)) :=
  (tree.root, tree.children) :: tree.children.nodes

end SiteTree

section Law

variable {ρ : Type u} [DecidableEq ρ] (normalizedPath : ρ → Text) (profiles : List ρ)

/-- Each profile is at one node, the one its path leads to, and the badges count the profiles
below. -/
structure LosesNoPage : Prop where
  held : ∀ profile ∈ profiles, ∃ node,
    ((buildTree normalizedPath profiles).placed.filter fun spot =>
      spot.2.profile = some profile) = [(pathSegments (normalizedPath profile), node)]
  counted : ∀ spot ∈ (buildTree normalizedPath profiles).nodes,
    descendantCount spot.2 = (spot.2.preorder.filter fun node => node.profile.isSome).length

/-- No two profiles have the same path, and every path that leads on to a profile is one's. -/
structure Separated : Prop where
  distinct : (profiles.map fun profile => pathSegments (normalizedPath profile)).Nodup
  closed : ∀ profile ∈ profiles, ∀ address, address ≠ [] →
    address <+: pathSegments (normalizedPath profile) →
      ∃ other ∈ profiles, pathSegments (normalizedPath other) = address

end Law

theorem descendantCount_eq {ρ : Type u} (f : Forest (TreeNode ρ)) : descendantCount f = f.size := by
  induction f with
  | nil => rfl
  | cons node children rest below after =>
    rw [descendantCount, Forest.size_cons, below, after]
    omega

section Run

variable {ρ : Type u} (normalizedPath : ρ → Text) (profiles : List ρ)

/-- The last profile with these path segments. -/
def holder (address : List Text) : Option ρ :=
  (profiles.filter fun profile => pathSegments (normalizedPath profile) = address).getLast?

/-- Some profile has a path that begins so. -/
def leadsOn (address : List Text) : Bool :=
  profiles.any fun profile => address.isPrefixOf (pathSegments (normalizedPath profile))

/-- The node the profiles leave at an address below the root. -/
def nodeAt (address : List Text) : Option (TreeNode ρ) :=
  if leadsOn normalizedPath profiles address then
    some { (TreeNode.created address : TreeNode ρ) with profile := holder normalizedPath profiles address }
  else none

variable {normalizedPath profiles} {address : List Text} {profile : ρ} {node : TreeNode ρ}

theorem leadsOn_iff : leadsOn normalizedPath profiles address = true ↔
    ∃ profile ∈ profiles, address <+: pathSegments (normalizedPath profile) := by
  rw [leadsOn, List.any_eq_true]
  exact exists_congr fun profile => and_congr_right fun _ => List.isPrefixOf_iff_prefix

theorem holder_append : holder normalizedPath (profiles ++ [profile]) address =
    if pathSegments (normalizedPath profile) = address then some profile
    else holder normalizedPath profiles address := by
  rw [holder, List.filter_append]
  split
  · next same =>
    rw [List.filter_singleton, decide_eq_true same]
    exact List.getLast?_concat
  · next other =>
    rw [List.filter_singleton, decide_eq_false other]
    exact congrArg List.getLast? (List.append_nil _)

theorem mem_of_holder (h : holder normalizedPath profiles address = some profile) :
    profile ∈ profiles ∧ pathSegments (normalizedPath profile) = address := by
  obtain ⟨listed, same⟩ := List.mem_filter.mp (List.mem_of_getLast? h)
  exact ⟨listed, of_decide_eq_true same⟩

theorem exists_holder (listed : profile ∈ profiles) :
    ∃ last, holder normalizedPath profiles (pathSegments (normalizedPath profile)) = some last := by
  cases held : holder normalizedPath profiles (pathSegments (normalizedPath profile)) with
  | none =>
    rw [holder, List.getLast?_eq_none_iff, List.filter_eq_nil_iff] at held
    exact absurd (decide_eq_true rfl) (held profile listed)
  | some last => exact ⟨last, rfl⟩

theorem holder_of_not_leadsOn (h : leadsOn normalizedPath profiles address = false) :
    holder normalizedPath profiles address = none := by
  cases held : holder normalizedPath profiles address with
  | none => rfl
  | some profile =>
    obtain ⟨listed, rfl⟩ := mem_of_holder held
    rw [leadsOn_iff.mpr ⟨profile, listed, List.prefix_refl _⟩] at h
    cases h

theorem buildTree_append : buildTree normalizedPath (profiles ++ [profile]) =
    place normalizedPath (buildTree normalizedPath profiles) profile :=
  List.foldl_concat ..

theorem nodeAt_append : nodeAt normalizedPath (profiles ++ [profile]) address =
    if address <+: pathSegments (normalizedPath profile) then
      let found := (nodeAt normalizedPath profiles address).getD (TreeNode.created address)
      some (if address = pathSegments (normalizedPath profile) then found.holding profile
        else found)
    else nodeAt normalizedPath profiles address := by
  have leads : leadsOn normalizedPath (profiles ++ [profile]) address =
      (leadsOn normalizedPath profiles address ||
        address.isPrefixOf (pathSegments (normalizedPath profile))) := by
    simp [leadsOn]
  have found : (nodeAt normalizedPath profiles address).getD (TreeNode.created address) =
      { (TreeNode.created address : TreeNode ρ) with profile := holder normalizedPath profiles address } := by
    rw [nodeAt]
    split
    · rfl
    · next none => rw [holder_of_not_leadsOn (Bool.eq_false_iff.mpr none)]; rfl
  rw [found, nodeAt, leads, holder_append]
  by_cases begins : address <+: pathSegments (normalizedPath profile)
  · rw [List.isPrefixOf_iff_prefix.mpr begins, Bool.or_true, if_pos rfl, if_pos begins]
    simp only [eq_comm (a := address)]
    split
    · rfl
    · rfl
  · have other : pathSegments (normalizedPath profile) ≠ address := by
      rintro rfl
      exact begins (List.prefix_refl _)
    rw [Bool.eq_false_iff.mpr fun h => begins (List.isPrefixOf_iff_prefix.mp h), Bool.or_false,
      if_neg begins, if_neg other, nodeAt]

variable (normalizedPath profiles) in
/-- **What `build_tree` leaves**: at the root and at every address the last profile with that
path, in a node wherever a path leads on. -/
theorem buildTree_spec : (buildTree normalizedPath profiles).root =
        ⟨['/'], ['/'], holder normalizedPath profiles []⟩ ∧
      (buildTree normalizedPath profiles).children.Keyed TreeNode.segment ∧
      ∀ address, address ≠ [] →
        (buildTree normalizedPath profiles).children.get? TreeNode.segment address =
          nodeAt normalizedPath profiles address := by
  induction profiles using List.reverseRecOn with
  | nil => exact ⟨rfl, trivial, fun _ _ => rfl⟩
  | append_singleton profiles profile ih =>
    obtain ⟨root, keyed, found⟩ := ih
    rw [buildTree_append, place, holder_append]
    by_cases top : pathSegments (normalizedPath profile) = []
    · rw [if_pos top]
      refine ⟨?_, keyed, fun address below => ?_⟩
      · rw [if_pos top, root]
        rfl
      · rw [found address below, nodeAt_append, if_neg]
        rw [top, List.prefix_nil]
        exact below
    · rw [if_neg top]
      refine ⟨?_, keyed.graft _ _ _, fun address below => ?_⟩
      · rw [if_neg top]
        exact root
      · rw [Forest.get?_graft, Forest.grafted, found address below, nodeAt_append]
        simp only [below, false_or, ite_not]
        rfl

variable (normalizedPath profiles) in
theorem nodup_placed : ((buildTree normalizedPath profiles).placed.map Prod.fst).Nodup := by
  obtain ⟨-, keyed, -⟩ := buildTree_spec normalizedPath profiles
  rw [SiteTree.placed, List.map_cons, List.nodup_cons]
  refine ⟨fun mem => ?_, keyed.nodup []⟩
  obtain ⟨⟨address, node⟩, listed, same⟩ := List.mem_map.mp mem
  obtain ⟨root, -, below, started⟩ := Forest.exists_of_mem_addressed listed
  rw [started] at same
  cases same

theorem mem_addressed_iff :
    (address, node) ∈ (buildTree normalizedPath profiles).children.addressed TreeNode.segment [] ↔
      address ≠ [] ∧ nodeAt normalizedPath profiles address = some node := by
  obtain ⟨-, keyed, found⟩ := buildTree_spec normalizedPath profiles
  rw [keyed.mem_addressed_iff]
  constructor
  · rintro ⟨below, same, here⟩
    obtain rfl : address = below := same
    have nonempty : address ≠ [] := by
      rintro rfl
      rw [Forest.get?_nil_right] at here
      cases here
    exact ⟨nonempty, (found _ nonempty).symm.trans here⟩
  · rintro ⟨nonempty, here⟩
    exact ⟨address, rfl, (found address nonempty).trans here⟩

theorem profile_of_nodeAt (h : nodeAt normalizedPath profiles address = some node) :
    node.profile = holder normalizedPath profiles address := by
  rw [nodeAt] at h
  split at h
  · rw [← Option.some.inj h]
  · cases h

theorem profile_of_mem_placed (h : (address, node) ∈ (buildTree normalizedPath profiles).placed) :
    node.profile = holder normalizedPath profiles address := by
  obtain same | below := List.mem_cons.mp h
  · obtain ⟨rfl, rfl⟩ := Prod.mk.inj same
    rw [(buildTree_spec normalizedPath profiles).1]
  · exact profile_of_nodeAt (mem_addressed_iff.mp below).2

variable (normalizedPath) in
theorem exists_placed (listed : profile ∈ profiles) : ∃ node,
    (pathSegments (normalizedPath profile), node) ∈ (buildTree normalizedPath profiles).placed := by
  by_cases top : pathSegments (normalizedPath profile) = []
  · rw [top]
    exact ⟨_, List.mem_cons_self⟩
  · have leads : leadsOn normalizedPath profiles (pathSegments (normalizedPath profile)) = true :=
      leadsOn_iff.mpr ⟨profile, listed, List.prefix_refl _⟩
    exact ⟨_, List.mem_cons_of_mem _ (mem_addressed_iff.mpr ⟨top, if_pos leads⟩)⟩

theorem forall_preorder_iff :
    (∀ node ∈ (buildTree normalizedPath profiles).children.preorder, node.profile.isSome = true) ↔
      ∀ profile ∈ profiles, ∀ address, address ≠ [] →
        address <+: pathSegments (normalizedPath profile) →
          ∃ other ∈ profiles, pathSegments (normalizedPath other) = address := by
  rw [← Forest.map_snd_addressed TreeNode.segment []]
  constructor
  · intro full profile listed address nonempty begins
    have here : nodeAt normalizedPath profiles address = some _ :=
      if_pos (leadsOn_iff.mpr ⟨profile, listed, begins⟩)
    have some_ := full _ (List.mem_map.mpr ⟨_, mem_addressed_iff.mpr ⟨nonempty, here⟩, rfl⟩)
    obtain ⟨other, held⟩ := Option.isSome_iff_exists.mp some_
    exact ⟨other, mem_of_holder held⟩
  · rintro closed node mem
    obtain ⟨⟨address, node⟩, listed, rfl⟩ := List.mem_map.mp mem
    obtain ⟨nonempty, here⟩ := mem_addressed_iff.mp listed
    rw [profile_of_nodeAt here]
    rw [nodeAt] at here
    split at here
    · next leads =>
      obtain ⟨profile, mem, begins⟩ := leadsOn_iff.mp leads
      obtain ⟨other, mem', rfl⟩ := closed profile mem address nonempty begins
      obtain ⟨last, held⟩ := exists_holder mem'
      rw [held]
      rfl
    · cases here

theorem forall_counted_iff :
    (∀ spot ∈ (buildTree normalizedPath profiles).nodes, descendantCount spot.2 =
        (spot.2.preorder.filter fun node => node.profile.isSome).length) ↔
      ∀ node ∈ (buildTree normalizedPath profiles).children.preorder,
        node.profile.isSome = true := by
  constructor
  · intro counted
    have top := counted _ List.mem_cons_self
    rw [descendantCount_eq, Forest.size] at top
    exact List.length_filter_eq_length_iff.mp top.symm
  · rintro full ⟨node, below⟩ mem
    rw [descendantCount_eq, Forest.size]
    refine (List.length_filter_eq_length_iff.mpr fun other inside => full other ?_).symm
    obtain same | listed := List.mem_cons.mp mem
    · rwa [(Prod.mk.inj same).2] at inside
    · exact Forest.preorder_subset_of_mem_nodes listed inside

theorem holder_of_distinct
    (distinct : (profiles.map fun profile => pathSegments (normalizedPath profile)).Nodup)
    (listed : profile ∈ profiles) :
    holder normalizedPath profiles (pathSegments (normalizedPath profile)) = some profile := by
  obtain ⟨last, held⟩ := exists_holder listed
  obtain ⟨listed', same⟩ := mem_of_holder held
  rw [held, List.inj_on_of_nodup_map distinct listed' listed same]

/-- **The tree loses no page exactly where paths are distinct and complete.** -/
theorem losesNoPage_iff [DecidableEq ρ] (keys : (profiles.map normalizedPath).Nodup) :
    LosesNoPage normalizedPath profiles ↔ Separated normalizedPath profiles := by
  constructor
  · rintro ⟨held, counted⟩
    refine ⟨?_, forall_preorder_iff.mp (forall_counted_iff.mp counted)⟩
    rw [List.nodup_map_iff_inj_on keys.of_map]
    -- Both are the profile of the one node their path leads to.
    intro profile listed other listed' same
    have stayed {profile : ρ} (listed : profile ∈ profiles) :
        holder normalizedPath profiles (pathSegments (normalizedPath profile)) = some profile := by
      obtain ⟨node, only⟩ := held profile listed
      obtain ⟨mem, isHere⟩ := List.mem_filter.mp (only ▸ List.mem_singleton_self _)
      rw [← profile_of_mem_placed mem]
      exact of_decide_eq_true isHere
    exact Option.some.inj ((stayed listed).symm.trans ((congrArg _ same).trans (stayed listed')))
  · rintro ⟨distinct, closed⟩
    refine ⟨fun profile listed => ?_, forall_counted_iff.mpr (forall_preorder_iff.mpr closed)⟩
    obtain ⟨node, mem⟩ := exists_placed normalizedPath listed
    refine ⟨node, filter_eq_singleton (nodup_placed _ _) mem (decide_eq_true ?_) fun spot mem' here => ?_⟩
    · exact (profile_of_mem_placed mem).trans (holder_of_distinct distinct listed)
    · have same := (profile_of_mem_placed mem').symm.trans (of_decide_eq_true here)
      exact (mem_of_holder same).2.symm

/-- A homepage and a section under it. -/
theorem losesNoPage_section : LosesNoPage id
    ["https://example.com/".toList, "https://example.com/blog/".toList] := by
  refine (losesNoPage_iff (by decide)).mpr ⟨by decide, fun profile listed address nonempty begins => ?_⟩
  have paths : pathSegments profile = [] ∨ pathSegments profile = ["blog".toList] := by
    obtain rfl | rest := List.mem_cons.mp listed
    · exact Or.inl (by decide)
    · obtain rfl := List.mem_singleton.mp rest
      exact Or.inr (by decide)
  obtain top | blog := paths
  · rw [id, top, List.prefix_nil] at begins
    exact absurd begins nonempty
  · refine ⟨"https://example.com/blog/".toList, by simp, ?_⟩
    rw [id, blog] at begins
    obtain _ | ⟨segment, below⟩ := address
    · exact absurd rfl nonempty
    · obtain ⟨rfl, rest⟩ := List.cons_prefix_cons.mp begins
      rw [List.prefix_nil.mp rest]
      decide

/-- **Of two pages that differ in the query string one is lost.** -/
theorem loses_page_of_query : ¬∀ profiles : List Text, (profiles.map id).Nodup →
    LosesNoPage id profiles := by
  intro always
  have kept := (always ["https://example.com/a/?p=1".toList, "https://example.com/a/?p=2".toList]
    (by decide)).held _ List.mem_cons_self
  have lost : ((buildTree id ["https://example.com/a/?p=1".toList,
      "https://example.com/a/?p=2".toList]).placed.filter fun spot =>
        spot.2.profile = some "https://example.com/a/?p=1".toList) = [] := by decide
  obtain ⟨node, only⟩ := kept
  rw [lost] at only
  cases only

end Run

end Rankuno.TreeVisualizer
