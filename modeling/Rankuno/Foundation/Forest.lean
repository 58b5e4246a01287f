import Mathlib.Data.List.DropRight

/-!
# Forests and the branch that is open in them

A forest is a list of trees. Its nodes are numbered in preorder, and each is visited with
the nodes above it. A forest that grows at the end of its last branch is a stack of open
nodes, each with the trees that are already closed below it: what is put below the innermost
open node is visited last, with the open nodes above it.
-/

universe u v

/-- A list of trees: the label and the children of the first, and the trees after it. -/
inductive Forest (α : Type u) where
  | nil
  | cons (a : α) (children rest : Forest α)
  deriving DecidableEq

namespace Forest

variable {α : Type u}

def append : Forest α → Forest α → Forest α
  | nil, g => g
  | cons a children rest, g => cons a children (rest.append g)

instance : Append (Forest α) := ⟨append⟩

/-- One tree. -/
def tree (a : α) (children : Forest α) : Forest α := cons a children nil

/-- The labels, each before those below it. -/
def preorder : Forest α → List α
  | nil => []
  | cons a children rest => a :: (children.preorder ++ rest.preorder)

/-- The number of nodes. -/
def size (f : Forest α) : Nat := f.preorder.length

/-- The labels of the trees. -/
def roots : Forest α → List α
  | nil => []
  | cons a _ rest => a :: rest.roots

/-- The nodes with what is below them. -/
def nodes : Forest α → List (α × Forest α)
  | nil => []
  | cons a children rest => (a, children) :: (children.nodes ++ rest.nodes)

/-- The nodes in preorder, numbered from `next`, each with the nodes above it, the nearest
first. -/
def visits (above : List (Nat × α)) (next : Nat) : Forest α → List (List (Nat × α) × α)
  | nil => []
  | cons a children rest =>
    (above, a) :: (children.visits ((next, a) :: above) (next + 1) ++
      rest.visits above (next + 1 + children.size))

variable {a : α} {children rest f g h : Forest α} {above : List (Nat × α)} {next : Nat}

@[simp] theorem nil_append : nil ++ f = f := rfl

@[simp] theorem cons_append : cons a children rest ++ f = cons a children (rest ++ f) := rfl

@[simp] theorem append_nil : f ++ nil = f := by
  induction f with
  | nil => rfl
  | cons a children rest _ ih => rw [cons_append, ih]

@[simp] theorem preorder_append : (f ++ g).preorder = f.preorder ++ g.preorder := by
  induction f with
  | nil => rfl
  | cons a children rest _ ih =>
    rw [cons_append, preorder, preorder, ih, List.cons_append, List.append_assoc]

@[simp] theorem roots_append : (f ++ g).roots = f.roots ++ g.roots := by
  induction f with
  | nil => rfl
  | cons a children rest _ ih => rw [cons_append, roots, roots, ih, List.cons_append]

@[simp] theorem nodes_append : (f ++ g).nodes = f.nodes ++ g.nodes := by
  induction f with
  | nil => rfl
  | cons a children rest _ ih =>
    rw [cons_append, nodes, nodes, ih, List.cons_append, List.append_assoc]

theorem preorder_subset_of_mem_nodes {children : Forest α} (h : (a, children) ∈ f.nodes) :
    children.preorder ⊆ f.preorder := by
  induction f with
  | nil => cases h
  | cons b inner rest below after =>
    rw [nodes, List.mem_cons, List.mem_append] at h
    intro c mem
    rw [preorder, List.mem_cons, List.mem_append]
    obtain same | inside | later := h
    · obtain ⟨-, rfl⟩ := Prod.mk.inj same
      exact Or.inr (Or.inl mem)
    · exact Or.inr (Or.inl (below inside mem))
    · exact Or.inr (Or.inr (after later mem))

@[simp] theorem size_nil : (nil : Forest α).size = 0 := rfl

@[simp] theorem size_cons : (cons a children rest).size = children.size + rest.size + 1 := by
  simp only [size, preorder, List.length_cons, List.length_append]

@[simp] theorem size_append : (f ++ g).size = f.size + g.size := by
  simp only [size, preorder_append, List.length_append]

theorem visits_append : (f ++ g).visits above next =
    f.visits above next ++ g.visits above (next + f.size) := by
  induction f generalizing next with
  | nil => rfl
  | cons a children rest _ ih =>
    rw [cons_append, visits, visits, ih, List.cons_append, List.append_assoc, size_cons]
    congr 4
    omega

theorem visits_above (inner above : List (Nat × α)) : f.visits (inner ++ above) next =
    (f.visits inner next).map fun visit => (visit.1 ++ above, visit.2) := by
  induction f generalizing inner next with
  | nil => rfl
  | cons a children rest below ih =>
    rw [visits, visits, List.map_cons, List.map_append, ← ih, ← below]
    rfl

variable (above next) in
theorem map_snd_visits : (f.visits above next).map Prod.snd = f.preorder := by
  induction f generalizing above next with
  | nil => rfl
  | cons a children rest below ih =>
    rw [visits, preorder, List.map_cons, List.map_append, below, ih]

variable (above next) in
theorem length_visits : (f.visits above next).length = f.size := by
  rw [size, ← map_snd_visits above next, List.length_map]

theorem lt_of_mem_visit {k : Nat} {visit : List (Nat × α) × α} {node : Nat × α}
    (found : (f.visits above next)[k]? = some visit) (mem : node ∈ visit.1) :
    node ∈ above ∨ node.1 < next + k := by
  induction f generalizing above next k with
  | nil => cases found
  | cons a children rest below after =>
    cases k with
    | zero =>
      cases found
      exact Or.inl mem
    | succ k =>
      rw [visits, List.getElem?_cons_succ, List.getElem?_append, length_visits] at found
      split at found
      · obtain first | lower := below found
        · obtain rfl | outer := List.mem_cons.mp first
          · exact Or.inr (by dsimp only; omega)
          · exact Or.inl outer
        · exact Or.inr (by omega)
      · exact (after found).imp_right fun lower => by omega

/-! ### Open branches -/

/-- The forest of a stack of open nodes, the innermost first, with a forest put below it. -/
def wrap : List (α × Forest α) → Forest α → Forest α
  | [], inner => inner
  | (a, closed) :: outer, inner => wrap outer (tree a (closed ++ inner))

/-- The open nodes with their numbers, where `next` nodes come before them. -/
def opened (next : Nat) : List (α × Forest α) → List (Nat × α)
  | [] => []
  | (a, _) :: outer => (next + (wrap outer nil).size, a) :: opened next outer

variable {stack : List (α × Forest α)} {inner : Forest α}

theorem size_wrap : (wrap stack inner).size = (wrap stack nil).size + inner.size := by
  induction stack generalizing inner with
  | nil => rw [wrap, wrap, size_nil, Nat.zero_add]
  | cons slot outer ih =>
    rw [wrap, wrap, ih, @ih (tree slot.1 (slot.2 ++ nil))]
    simp only [tree, size_cons, size_append, size_nil]
    omega

theorem size_wrap_cons : (wrap ((a, children) :: stack) nil).size =
    (wrap stack nil).size + (children.size + 1) := by
  rw [wrap, size_wrap, append_nil, tree, size_cons, size_nil, Nat.add_zero]

theorem visits_wrap : (wrap stack inner).visits [] next = (wrap stack nil).visits [] next ++
      inner.visits (opened next stack) (next + (wrap stack nil).size) := by
  induction stack generalizing inner with
  | nil => rfl
  | cons slot outer ih =>
    obtain ⟨a, closed⟩ := slot
    have place : next + (wrap outer nil).size + 1 + closed.size =
        next + ((wrap outer nil).size + (closed.size + 1)) := by omega
    rw [size_wrap_cons, opened, wrap, wrap, ih, @ih (tree a (closed ++ nil)), tree, tree,
      visits, visits, visits_append, append_nil, place]
    simp only [visits, List.append_nil, List.append_assoc, List.cons_append]

section Stack

variable {β : Type v} {fuel : Nat} {stack : List (β × α × Forest α)}

/-- The trees of a forest with their places, of which the first has the number `i`. -/
def trees (place : Nat → β) (i : Nat) : Forest α → List (β × α × Forest α)
  | nil => []
  | cons a children rest => (place i, a, children) :: rest.trees place (i + 1)

/-- The labels that are taken from a stack with their places, in at most `fuel` steps: what is
below a tree is put on the stack when the tree is taken, its last tree on top. -/
def popped (child : β → Nat → β) : Nat → List (β × α × Forest α) → List (β × α)
  | 0, _ => []
  | _ + 1, [] => []
  | fuel + 1, (place, a, children) :: stack =>
    (place, a) :: popped child fuel ((children.trees (child place) 0).reverse ++ stack)

/-- The labels of all trees of a stack. -/
def stacked (stack : List (β × α × Forest α)) : List α :=
  stack.flatMap fun entry => entry.2.1 :: entry.2.2.preorder

theorem stacked_trees (place : Nat → β) (i : Nat) : stacked (f.trees place i) = f.preorder := by
  induction f generalizing i with
  | nil => rfl
  | cons a children rest _ ih =>
    rw [trees, stacked, List.flatMap_cons, preorder, ← ih (i + 1)]
    rfl

theorem stacked_push (place : Nat → β) (stack : List (β × α × Forest α)) :
    (stacked ((f.trees place 0).reverse ++ stack)).Perm (f.preorder ++ stacked stack) := by
  rw [stacked, List.flatMap_append, ← stacked_trees (f := f) place 0]
  exact ((List.reverse_perm _).flatMap_right _).append_right _

/-- With enough steps every label is taken from the stack, and once. -/
theorem popped_perm (child : β → Nat → β) (enough : (stacked stack).length ≤ fuel) :
    ((popped child fuel stack).map Prod.snd).Perm (stacked stack) := by
  induction fuel generalizing stack with
  | zero =>
    rw [List.length_eq_zero_iff.mp (Nat.le_zero.mp enough)]
    exact List.Perm.nil
  | succ fuel ih =>
    cases stack with
    | nil => exact List.Perm.nil
    | cons entry stack =>
      obtain ⟨place, a, children⟩ := entry
      have pushed := stacked_push (f := children) (child place) stack
      have whole : stacked ((place, a, children) :: stack) =
          a :: (children.preorder ++ stacked stack) := rfl
      rw [whole, List.length_cons] at enough
      rw [whole, popped, List.map_cons]
      refine List.Perm.cons a ((ih ?_).trans pushed)
      rw [pushed.length_eq]
      exact Nat.le_of_succ_le_succ enough

end Stack

section Walk

variable {β γ : Type*} (visit : β → α → List γ × Option β)

/-- A walk in preorder. What is known above a node decides what the node puts out, and what is
known below it, if the walk goes there. -/
def walk (b : β) : Forest α → List γ
  | nil => []
  | cons a children rest =>
    (visit b a).1 ++ ((visit b a).2.elim [] fun inner => children.walk inner) ++ rest.walk b

/-- The walk with a stack, in at most `fuel` steps: the first tree below a node on top. -/
def walkStack : Nat → List (β × α × Forest α) → List γ
  | 0, _ => []
  | _ + 1, [] => []
  | fuel + 1, (b, a, children) :: stack =>
    (visit b a).1 ++ walkStack fuel
      (((visit b a).2.elim [] fun inner => children.trees (fun _ => inner) 0) ++ stack)

variable {visit} {b : β} {fuel : Nat} {stack : List (β × α × Forest α)}

theorem flatMap_trees (i : Nat) : ((f.trees (fun _ => b) i).flatMap fun entry =>
    (tree entry.2.1 entry.2.2).walk visit entry.1) = f.walk visit b := by
  induction f generalizing i with
  | nil => rfl
  | cons a children rest _ ih =>
    rw [trees, List.flatMap_cons, ih, walk, tree, walk, walk, List.append_nil]

/-- With enough steps the stack walks as the recursion does. -/
theorem walkStack_eq (enough : (stacked stack).length ≤ fuel) : walkStack visit fuel stack =
    stack.flatMap fun entry => (tree entry.2.1 entry.2.2).walk visit entry.1 := by
  induction fuel generalizing stack with
  | zero =>
    cases stack with
    | nil => rfl
    | cons entry stack => exact absurd enough (Nat.not_succ_le_zero _)
  | succ fuel ih =>
    cases stack with
    | nil => rfl
    | cons entry stack =>
      obtain ⟨b, a, children⟩ := entry
      have whole : (stacked ((b, a, children) :: stack)).length =
          children.preorder.length + (stacked stack).length + 1 := by
        rw [stacked, List.flatMap_cons, List.length_append, List.length_cons, stacked]
        dsimp only
        omega
      rw [whole] at enough
      rw [walkStack, List.flatMap_cons, tree, walk, walk, List.append_nil, List.append_assoc]
      congr 1
      cases (visit b a).2 with
      | none => exact ih (Nat.le_trans (Nat.le_add_left _ _) (Nat.le_of_succ_le_succ enough))
      | some inner =>
        rw [Option.elim_some, Option.elim_some, ih, List.flatMap_append, flatMap_trees]
        rw [stacked, List.flatMap_append, List.length_append]
        have below := stacked_trees (f := children) (fun _ => inner) 0
        rw [stacked] at below
        rw [below]
        exact Nat.le_of_succ_le_succ enough

theorem walkStack_trees : walkStack visit f.size (f.trees (fun _ => b) 0) = f.walk visit b := by
  rw [walkStack_eq (stacked_trees _ 0 ▸ Nat.le_refl _), flatMap_trees]

end Walk

end Forest
