import Mathlib.Data.Int.Order.Basic
import Mathlib.Logic.Function.Iterate
import Rankuno.Foundation.Forest
import Rankuno.Foundation.Outline
import Rankuno.Python.Text

/-!
# The tree of a header menu

`_build_tree`: the entries of the menu come in the order of the page, each with a depth, and
are nested by a stack of open nodes. The depths are compared with each other, and a node that
would be on a fourth level takes the place of the one that is open on the third.
-/

namespace Rankuno.NavMenu

open Python

/-- An entry of the menu: `(depth, label, url)`. -/
structure Entry where
  depth : Int
  label : Text
  url : Option Text
  deriving DecidableEq

/-- The fields of a node of the menu. The children are below it in a forest. -/
structure NavNode where
  label : Text := []
  url : Option Text := none
  depth : Nat := 0
  deriving DecidableEq

/-- `NavNode(label=label, url=url, depth=depth)`. -/
def Entry.node (entry : Entry) (depth : Nat) : NavNode :=
  { label := entry.label, url := entry.url, depth }

/-- `MAX_NAV_DEPTH`. -/
def maxNavDepth : Nat := 3

/-- The variables of the loop of `_build_tree`, the top of the stacks first. -/
structure Builder where
  roots : Forest NavNode := .nil
  stack : List (NavNode × Forest NavNode) := []
  openRaw : List Int := []

namespace Builder

/-- The body of the loop in `collapse`. -/
def pop (builder : Builder) : Builder :=
  match builder.stack with
  | [] => builder
  | (node, children) :: [] =>
    { roots := builder.roots ++ .tree node children
      stack := []
      openRaw := builder.openRaw.tail }
  | (node, children) :: (parent, siblings) :: outer =>
    { builder with
      stack := (parent, siblings ++ .tree node children) :: outer
      openRaw := builder.openRaw.tail }

/-- `collapse`. -/
def collapse (builder : Builder) (toDepth : Nat) : Builder :=
  pop^[builder.stack.length - toDepth] builder

/-- The rank of a raw depth among those that are open. -/
def rank (builder : Builder) (rawDepth : Int) : Nat :=
  (builder.openRaw.dropWhile fun raw => rawDepth ≤ raw).length

/-- The body of the loop over the entries. -/
def push (builder : Builder) (entry : Entry) : Builder :=
  let depth := min (builder.rank entry.depth) (maxNavDepth - 1)
  let kept := builder.collapse depth
  { kept with
    stack := (entry.node depth, .nil) :: kept.stack
    openRaw := entry.depth :: kept.openRaw }

end Builder

/-- `_build_tree`. -/
def buildTree (entries : List Entry) : Forest NavNode :=
  ((entries.foldl Builder.push {}).collapse 0).roots

/-! ### What the stack stands for -/

namespace Builder

variable {builder : Builder} {n : Nat}

/-- The forest that is built so far. -/
def built (builder : Builder) : Forest NavNode := builder.roots ++ .wrap builder.stack .nil

/-- The open nodes with their numbers in it. -/
def opened (builder : Builder) : List (Nat × NavNode) :=
  Forest.opened builder.roots.size builder.stack

theorem pop_built : builder.pop.built = builder.built := by
  obtain ⟨roots, stack, openRaw⟩ := builder
  cases stack with
  | nil => rfl
  | cons slot outer =>
    obtain ⟨node, children⟩ := slot
    cases outer with
    | nil => simp only [pop, built, Forest.wrap, Forest.append_nil]
    | cons parent outer => simp only [pop, built, Forest.wrap, Forest.append_nil]

theorem pop_opened : builder.pop.opened = builder.opened.tail := by
  obtain ⟨roots, stack, openRaw⟩ := builder
  cases stack with
  | nil => rfl
  | cons slot outer => cases outer <;> rfl

/-- Every open node has its raw depth. -/
def Level (builder : Builder) : Prop := builder.openRaw.length = builder.stack.length

theorem Level.pop (level : builder.Level) :
    builder.pop.Level ∧ builder.pop.openRaw = builder.openRaw.tail ∧
      builder.pop.stack.length = builder.stack.length - 1 := by
  obtain ⟨roots, stack, openRaw⟩ := builder
  cases stack with
  | nil =>
    obtain rfl : openRaw = [] := List.eq_nil_of_length_eq_zero level
    exact ⟨rfl, rfl, rfl⟩
  | cons slot outer =>
    have tail : openRaw.tail.length = outer.length :=
      List.length_tail.trans (congrArg (· - 1) level)
    cases outer with
    | nil => exact ⟨tail, rfl, rfl⟩
    | cons parent outer => exact ⟨tail, rfl, rfl⟩

theorem Level.iterate_pop (level : builder.Level) :
    (Builder.pop^[n] builder).Level ∧ (Builder.pop^[n] builder).built = builder.built ∧
      (Builder.pop^[n] builder).opened = builder.opened.drop n ∧
      (Builder.pop^[n] builder).openRaw = builder.openRaw.drop n ∧
      (Builder.pop^[n] builder).stack.length = builder.stack.length - n := by
  induction n with
  | zero => exact ⟨level, rfl, rfl, rfl, rfl⟩
  | succ n ih =>
    obtain ⟨level, built, opened, openRaw, length⟩ := ih
    obtain ⟨level', openRaw', length'⟩ := level.pop
    rw [Function.iterate_succ_apply']
    refine ⟨level', pop_built.trans built, ?_, ?_, ?_⟩
    · rw [pop_opened, opened, List.tail_drop]
    · rw [openRaw', openRaw, List.tail_drop]
    · rw [length', length, Nat.sub_sub]

end Builder

/-! ### What the entries say -/

/-- Entries of which each is under the next, as nodes. -/
def branch : List (Nat × Entry) → List (Nat × NavNode)
  | [] => []
  | (number, entry) :: outer => (number, entry.node outer.length) :: branch outer

/-- The entries above one, the nearest first: those of smaller and smaller depth among the
earlier ones, which are given the nearest first, and of these the outermost. -/
def ancestors (earlier : List Entry) (entry : Entry) : List (Nat × Entry) :=
  (Outline.above Entry.depth (Outline.chain Entry.depth earlier) entry.depth).rtake
    (maxNavDepth - 1)

/-- Where an entry belongs. -/
def placement (earlier : List Entry) (entry : Entry) : List (Nat × NavNode) × NavNode :=
  (branch (ancestors earlier entry), entry.node (ancestors earlier entry).length)

/-- Where the entries belong, which are given the last first. -/
def placements : List Entry → List (List (Nat × NavNode) × NavNode)
  | [] => []
  | entry :: earlier => placements earlier ++ [placement earlier entry]

/-- The last entry and those above it. -/
def kept : List Entry → List (Nat × Entry)
  | [] => []
  | entry :: earlier => (earlier.length, entry) :: ancestors earlier entry

section Kept

variable {α : Type} {p : α → Bool} {l : List α} {k n : Nat} {earlier : List Entry}
  {entry : Entry} {items : List (Nat × Entry)}

@[simp] theorem length_branch : (branch items).length = items.length := by
  induction items with
  | nil => rfl
  | cons item outer ih => rw [branch, List.length_cons, List.length_cons, ih]

theorem branch_drop : (branch items).drop n = branch (items.drop n) := by
  induction items generalizing n with
  | nil => rw [branch, List.drop_nil, List.drop_nil, branch]
  | cons item outer ih =>
    cases n with
    | zero => rfl
    | succ n =>
      rw [branch, List.drop_succ_cons, List.drop_succ_cons]
      exact ih

theorem drop_min_rank : l.drop (l.length - min (l.dropWhile p).length k) =
    (l.dropWhile p).rtake k := by
  obtain ⟨dropped, parts⟩ : l.dropWhile p <:+ l := List.dropWhile_suffix p
  generalize l.dropWhile p = rest at parts ⊢
  subst parts
  have place : (dropped ++ rest).length - min rest.length k =
      dropped.length + (rest.length - k) := by
    rw [List.length_append]
    omega
  rw [place, List.drop_length_add_append, List.rtake]

theorem ancestors_kept : (Outline.above Entry.depth (kept earlier) entry.depth).rtake
    (maxNavDepth - 1) = ancestors earlier entry := by
  cases earlier with
  | nil => rfl
  | cons last earlier =>
    have decreasing := Outline.decreasing_chain Entry.depth (last :: earlier)
    exact Outline.rtake_above_cons_rtake decreasing

@[simp] theorem length_placements : (placements earlier).length = earlier.length := by
  induction earlier with
  | nil => rfl
  | cons entry earlier ih => rw [placements, List.length_append, ih, List.length_cons]; rfl

end Kept

namespace Builder

variable {builder : Builder} {earlier : List Entry} {entry : Entry}

/-- The variables after the earlier entries. -/
structure Follows (builder : Builder) (earlier : List Entry) : Prop where
  level : builder.Level
  visits : builder.built.visits [] 0 = placements earlier
  opened : builder.opened = branch (kept earlier)
  openRaw : builder.openRaw = (kept earlier).map fun item => item.2.depth

theorem Follows.size (follows : builder.Follows earlier) : builder.built.size = earlier.length := by
  rw [← Forest.length_visits [] 0, follows.visits, length_placements]

theorem Follows.collapse (follows : builder.Follows earlier) (entry : Entry) :
    let depth := min (builder.rank entry.depth) (maxNavDepth - 1)
    depth = (ancestors earlier entry).length ∧ (builder.collapse depth).Level ∧
      (builder.collapse depth).built = builder.built ∧
      (builder.collapse depth).opened = branch (ancestors earlier entry) ∧
      (builder.collapse depth).openRaw =
        (ancestors earlier entry).map fun item => item.2.depth := by
  intro depth
  have rank : builder.rank entry.depth =
      (Outline.above Entry.depth (kept earlier) entry.depth).length := by
    rw [Builder.rank, follows.openRaw, List.dropWhile_map, List.length_map]
    rfl
  have length : builder.stack.length = (kept earlier).length := by
    rw [← follows.level, follows.openRaw, List.length_map]
  have left : (kept earlier).drop (builder.stack.length - depth) = ancestors earlier entry := by
    rw [← ancestors_kept, length]
    exact (congrArg (fun n => (kept earlier).drop ((kept earlier).length - min n 2)) rank).trans
      drop_min_rank
  obtain ⟨level, built, opened, openRaw, -⟩ :=
    follows.level.iterate_pop (n := builder.stack.length - depth)
  refine ⟨?_, level, built, ?_, ?_⟩
  · rw [← ancestors_kept, List.rtake, List.length_drop, ← rank]
    exact (Nat.sub_sub_eq_min _ _).symm
  · rw [Builder.collapse, opened, follows.opened, branch_drop, left]
  · rw [Builder.collapse, openRaw, follows.openRaw, ← List.map_drop, left]

theorem visits_put {kept : Builder} {node : NavNode} {openRaw : List Int} :
    (Builder.mk kept.roots ((node, .nil) :: kept.stack) openRaw).built.visits [] 0 =
      kept.built.visits [] 0 ++ [(kept.opened, node)] := by
  rw [Builder.built, Builder.built, Forest.visits_append, Forest.visits_append, Forest.wrap,
    Forest.append_nil, Forest.visits_wrap, List.append_assoc, Nat.zero_add]
  rfl

theorem opened_put {kept : Builder} {node : NavNode} {openRaw : List Int} :
    (Builder.mk kept.roots ((node, .nil) :: kept.stack) openRaw).opened =
      (kept.built.size, node) :: kept.opened := by
  rw [Builder.opened, Forest.opened, Builder.built, Forest.size_append]
  rfl

theorem Follows.push (follows : builder.Follows earlier) (entry : Entry) :
    (builder.push entry).Follows (entry :: earlier) := by
  obtain ⟨depth, level, built, opened, openRaw⟩ := follows.collapse entry
  have node := congrArg entry.node depth
  constructor
  · exact congrArg (· + 1) level
  · rw [Builder.push, visits_put, built, follows.visits, opened, node]
    rfl
  · rw [Builder.push, opened_put, built, follows.size, opened, node]
    rfl
  · exact congrArg (List.cons entry.depth) openRaw

theorem Follows.foldl (follows : builder.Follows earlier) (entries : List Entry) :
    (entries.foldl Builder.push builder).Follows (entries.reverse ++ earlier) := by
  induction entries generalizing builder earlier with
  | nil => exact follows
  | cons entry entries ih =>
    rw [List.foldl_cons, List.reverse_cons, List.append_assoc]
    exact ih (follows.push entry)

theorem follows_nil : Follows {} [] := ⟨rfl, rfl, rfl, rfl⟩

theorem Level.roots_collapse (level : builder.Level) :
    (builder.collapse 0).roots = builder.built := by
  obtain ⟨-, built, -, -, length⟩ := level.iterate_pop (n := builder.stack.length - 0)
  have ground : (builder.collapse 0).stack = [] :=
    List.eq_nil_of_length_eq_zero (length.trans (Nat.sub_self _))
  rw [← built, Builder.built]
  exact (congrArg (fun stack => (builder.collapse 0).roots ++ Forest.wrap stack .nil)
    ground).trans Forest.append_nil |>.symm

end Builder

/-- **The tree has the entries in their order, each where it belongs.** -/
theorem visits_buildTree (entries : List Entry) :
    (buildTree entries).visits [] 0 = placements entries.reverse := by
  have follows := Builder.follows_nil.foldl entries
  rw [buildTree, follows.level.roots_collapse, follows.visits, List.append_nil]

section Placements

variable {entries before after earlier : List Entry} {entry : Entry}
  {visit : List (Nat × NavNode) × NavNode}

theorem exists_placements_append (later earlier : List Entry) :
    ∃ rest, placements (later ++ earlier) = placements earlier ++ rest := by
  induction later with
  | nil => exact ⟨[], (List.append_nil _).symm⟩
  | cons entry later ih =>
    obtain ⟨rest, parts⟩ := ih
    exact ⟨rest ++ [placement (later ++ earlier) entry], by
      rw [List.cons_append, placements, parts, List.append_assoc]⟩

theorem visits_getElem? (split : entries = before ++ entry :: after) :
    ((buildTree entries).visits [] 0)[before.length]? = some (placement before.reverse entry) := by
  have reversed : entries.reverse = after.reverse ++ entry :: before.reverse := by
    rw [split, List.reverse_append, List.reverse_cons, List.append_assoc]
    rfl
  obtain ⟨rest, parts⟩ := exists_placements_append after.reverse (entry :: before.reverse)
  rw [visits_buildTree, reversed, parts, placements, List.append_assoc,
    List.getElem?_append_right (by rw [length_placements, List.length_reverse]),
    length_placements, List.length_reverse, Nat.sub_self]
  rfl

theorem mem_visits_iff : visit ∈ (buildTree entries).visits [] 0 ↔
    ∃ before entry after, entries = before ++ entry :: after ∧
      visit = placement before.reverse entry := by
  constructor
  · intro mem
    obtain ⟨n, found⟩ := List.mem_iff_getElem?.mp mem
    have bound : n < entries.length := by
      have bound := (List.getElem?_eq_some_iff.mp found).1
      rwa [visits_buildTree, length_placements, List.length_reverse] at bound
    have split : entries = entries.take n ++ entries[n] :: entries.drop (n + 1) := by
      rw [← List.drop_eq_getElem_cons bound, List.take_append_drop]
    have own := visits_getElem? split
    rw [List.length_take, Nat.min_eq_left (Nat.le_of_lt bound), found] at own
    exact ⟨_, _, _, split, Option.some.inj own⟩
  · rintro ⟨before, entry, after, split, rfl⟩
    exact List.mem_of_getElem? (visits_getElem? split)

theorem map_placements : (placements earlier).map (fun visit => (visit.2.label, visit.2.url)) =
    (earlier.map fun entry => (entry.label, entry.url)).reverse := by
  induction earlier with
  | nil => rfl
  | cons entry earlier ih =>
    rw [placements, List.map_append, ih]
    exact (List.reverse_cons ..).symm

variable (entries) in
theorem preorder_buildTree : (buildTree entries).preorder.map (fun node => (node.label, node.url)) =
      entries.map fun entry => (entry.label, entry.url) := by
  rw [← Forest.map_snd_visits [] 0, List.map_map, visits_buildTree]
  refine map_placements.trans ?_
  rw [List.map_reverse, List.reverse_reverse]

theorem length_ancestors_lt : (ancestors earlier entry).length < maxNavDepth := by
  rw [ancestors, List.rtake, List.length_drop]
  have deep : 0 < maxNavDepth := by decide
  omega

theorem head?_placement
    (few : (Outline.above Entry.depth (Outline.chain Entry.depth earlier) entry.depth).length <
      maxNavDepth) :
    (placement earlier entry).1.head?.map Prod.fst =
      (Outline.nearest Entry.depth earlier entry.depth).map Prod.fst := by
  have all : ancestors earlier entry =
      Outline.above Entry.depth (Outline.chain Entry.depth earlier) entry.depth :=
    Outline.rtake_of_length_le (Nat.le_sub_one_of_lt few)
  rw [placement, ← Outline.head?_above_chain, ← all]
  cases ancestors earlier entry <;> rfl

end Placements

end Rankuno.NavMenu
