import Mathlib.Data.List.Nodup
import Mathlib.Data.List.Perm.Subperm
import Mathlib.Logic.Relation

/-!
# A descent that remembers nothing

A walk takes a node off its stack, finds the children of it and puts them on the stack,
without a look at where it has been. Where every node has at most one parent, `OneParent`, it
finds each descendant of its root once and ends; or else the root is a descendant of itself,
and it goes round for ever.
-/

universe u

namespace Descent

variable {α : Type u} (children : α → List α)

/-- A path of one child or more. -/
def Below : α → α → Prop := Relation.TransGen fun parent child => child ∈ children parent

/-- The walk from a stack, its top first, or `none` where it takes more rounds than these. -/
def walk : Nat → List α → List α → Option (List α)
  | 0, _, _ => none
  | _ + 1, [], found => some found
  | n + 1, current :: stack, found =>
    walk n ((children current).reverse ++ stack) (found ++ children current)

/-- Every node is listed once among the children of at most one. -/
structure OneParent : Prop where
  nodup : ∀ a, (children a).Nodup
  unique : ∀ a b c, c ∈ children a → c ∈ children b → a = b

variable {children} {root a b c : α} {n : Nat} {stack found all : List α}

theorem exists_isChildof_below_self (h : Below children a a) :
    ∃ b ∈ children a, Below children b b := by
  obtain ⟨b, child, back⟩ := Relation.TransGen.head'_iff.mp h
  exact ⟨b, child, .tail' back child⟩

theorem walk_of_cycle (mem : a ∈ stack) (cycle : Below children a a) :
    walk children n stack found = none := by
  induction n generalizing stack found a with
  | zero => rfl
  | succ n ih =>
    cases stack with
    | nil => cases mem
    | cons current stack =>
      rw [walk]
      obtain rfl | later := List.mem_cons.mp mem
      · obtain ⟨b, child, cycle⟩ := exists_isChildof_below_self cycle
        exact ih (List.mem_append_left _ (List.mem_reverse.mpr child)) cycle
      · exact ih (List.mem_append_right _ later) cycle

variable (children) in
/-- A walk half done: it has found the children of the nodes it has taken, and the nodes it
has found, with the root, are those and the ones on the stack. -/
structure Halfway (root : α) (taken stack found : List α) : Prop where
  same : (taken ++ stack).Perm (root :: found)
  nodup : (root :: found).Nodup
  below : ∀ a ∈ found, Below children root a
  closed : ∀ a, a ∈ found ↔ ∃ b ∈ taken, a ∈ children b

theorem Halfway.start (root : α) : Halfway children root [] [root] [] where
  same := .refl _
  nodup := List.nodup_singleton root
  below _ mem := absurd mem List.not_mem_nil
  closed a := by simp

variable {taken : List α}

theorem Halfway.step {current : α} (h : OneParent children)
    (acyclic : ¬Below children root root)
    (half : Halfway children root taken (current :: stack) found) :
    Halfway children root (current :: taken)
      ((children current).reverse ++ stack) (found ++ children current) := by
  obtain ⟨same, nodup, below, closed⟩ := half
  have here : current = root ∨ Below children root current := by
    have mem := same.mem_iff.mp (List.mem_append_right taken List.mem_cons_self)
    exact (List.mem_cons.mp mem).imp_right (below current)
  have reach : ∀ child ∈ children current, Below children root child := by
    intro child mem
    obtain rfl | below := here
    · exact .single mem
    · exact below.tail mem
  have untaken : current ∉ taken := by
    have parts := same.symm.nodup nodup
    rw [List.nodup_append] at parts
    exact fun mem => parts.2.2 current mem current List.mem_cons_self rfl
  refine ⟨?_, ?_, ?_, ?_⟩
  · have moved : (current :: taken ++ ((children current).reverse ++ stack)).Perm
        (taken ++ current :: stack ++ children current) := by
      have swapped : ((children current).reverse ++ stack).Perm (stack ++ children current) :=
        List.perm_append_comm.trans ((List.reverse_perm _).append_left stack)
      refine ((swapped.append_left taken).cons current).trans ?_
      rw [← List.append_assoc, ← List.cons_append]
      exact List.perm_middle.symm.append_right _
    exact moved.trans (same.append_right (children current))
  · rw [← List.cons_append, List.nodup_append]
    refine ⟨nodup, h.nodup current, fun child old other new same => ?_⟩
    obtain rfl := same
    obtain rfl | old := List.mem_cons.mp old
    · exact acyclic (reach _ new)
    · obtain ⟨parent, mem, isChild⟩ := (closed child).mp old
      exact untaken (h.unique _ _ _ isChild new ▸ mem)
  · intro child mem
    exact (List.mem_append.mp mem).elim (below child) (reach child)
  · intro child
    rw [List.mem_append, closed]
    constructor
    · rintro (⟨parent, mem, isChild⟩ | isChild)
      · exact ⟨parent, List.mem_cons_of_mem _ mem, isChild⟩
      · exact ⟨current, List.mem_cons_self, isChild⟩
    · rintro ⟨parent, mem, isChild⟩
      obtain rfl | mem := List.mem_cons.mp mem
      · exact Or.inr isChild
      · exact Or.inl ⟨parent, mem, isChild⟩

theorem Halfway.complete (half : Halfway children root taken [] found) :
    a ∈ found ↔ Below children root a := by
  obtain ⟨same, -, below, closed⟩ := half
  rw [List.append_nil] at same
  refine ⟨below a, fun path => ?_⟩
  induction path with
  | single child => exact (closed _).mpr ⟨root, same.mem_iff.mpr List.mem_cons_self, child⟩
  | tail _ child inside =>
    exact (closed _).mpr ⟨_, same.mem_iff.mpr (List.mem_cons_of_mem _ inside), child⟩

theorem Halfway.walk {result : List α} (h : OneParent children)
    (acyclic : ¬Below children root root)
    (half : Halfway children root taken stack found)
    (ends : Descent.walk children n stack found = some result) :
    (root :: result).Nodup ∧ ∀ a, a ∈ result ↔ Below children root a := by
  induction n generalizing taken stack found with
  | zero => cases ends
  | succ n ih =>
    cases stack with
    | nil =>
      obtain rfl := Option.some.inj ends
      exact ⟨half.nodup, fun a => half.complete⟩
    | cons current stack => exact ih (half.step h acyclic) ends

theorem Halfway.length_le (half : Halfway children root taken stack found)
    (finite : ∀ a, ∀ child ∈ children a, child ∈ all) : taken.length ≤ all.length + 1 := by
  have listed : found ⊆ all := by
    intro a mem
    obtain ⟨b, -, child⟩ := (half.closed a).mp mem
    exact finite b a child
  have few := (List.subperm_of_subset (List.nodup_cons.mp half.nodup).2 listed).length_le
  have count := half.same.length_eq
  rw [List.length_append, List.length_cons] at count
  omega

theorem Halfway.ends (h : OneParent children)
    (acyclic : ¬Below children root root) (finite : ∀ a, ∀ child ∈ children a, child ∈ all)
    (half : Halfway children root taken stack found)
    (enough : all.length + 2 ≤ n + taken.length) :
    ∃ result, Descent.walk children n stack found = some result := by
  induction n generalizing taken stack found with
  | zero =>
    have few := half.length_le finite
    omega
  | succ n ih =>
    cases stack with
    | nil => exact ⟨found, rfl⟩
    | cons current stack =>
      refine ih (half.step h acyclic) ?_
      rw [List.length_cons]
      omega

/-- **The walk ends exactly where its root is no descendant of itself**, and then within as
many rounds as there are nodes, and two. -/
theorem exists_walk_iff (h : OneParent children)
    (finite : ∀ a, ∀ child ∈ children a, child ∈ all) (enough : all.length + 2 ≤ n) :
    (∃ result, walk children n [root] [] = some result) ↔ ¬Below children root root := by
  constructor
  · rintro ⟨result, ends⟩ cycle
    rw [walk_of_cycle List.mem_cons_self cycle] at ends
    cases ends
  · exact fun acyclic => (Halfway.start root).ends h acyclic finite enough

theorem walk_eq_some (h : OneParent children) {result : List α}
    (ends : walk children n [root] [] = some result) :
    (root :: result).Nodup ∧ ∀ a, a ∈ result ↔ Below children root a := by
  refine (Halfway.start root).walk h (fun cycle => ?_) ends
  rw [walk_of_cycle List.mem_cons_self cycle] at ends
  cases ends

end Descent
