import Mathlib.Data.List.DropRight
import Mathlib.Order.Lattice

/-!
# Outlines

The items of an outline come in order, each with a depth, and an item is under the nearest
earlier one of smaller depth. The items above the next one are a chain of decreasing depths,
which an algorithm may keep as a stack, and may keep only the outermost `k` of besides the
last item: the outermost `k` above any item are the same.
-/

universe u v

namespace Outline

variable {α : Type u} {κ : Type v} [LinearOrder κ] (key : α → κ)

/-- What is left open of a chain by an item of depth `d`, the nearest first. -/
def above (chain : List (Nat × α)) (d : κ) : List (Nat × α) :=
  chain.dropWhile fun item => d ≤ key item.2

/-- The last item and those above it, numbered in order, where the items are given the nearest
first. -/
def chain : List α → List (Nat × α)
  | [] => []
  | a :: earlier => (earlier.length, a) :: above key (chain earlier) (key a)

/-- The nearest earlier item of smaller depth. -/
def nearest : List α → κ → Option (Nat × α)
  | [], _ => none
  | a :: earlier, d => if key a < d then some (earlier.length, a) else nearest earlier d

variable {key} {d : κ} {item : Nat × α} {l : List (Nat × α)}

theorem above_cons_of_le (le : d ≤ key item.2) : above key (item :: l) d = above key l d :=
  List.dropWhile_cons_of_pos (decide_eq_true le)

theorem above_cons_of_lt (lt : key item.2 < d) : above key (item :: l) d = item :: l :=
  List.dropWhile_cons_of_neg (by simpa using lt)

theorem above_sublist : (above key l d).Sublist l := List.dropWhile_sublist _

theorem above_above {d' : κ} (le : d' ≤ d) : above key (above key l d) d' = above key l d' := by
  induction l with
  | nil => rfl
  | cons item l ih =>
    rcases lt_or_ge (key item.2) d with lt | ge
    · rw [above_cons_of_lt lt]
    · rw [above_cons_of_le ge, above_cons_of_le (le.trans ge), ih]

theorem head?_above_chain (earlier : List α) (d : κ) :
    (above key (chain key earlier) d).head? = nearest key earlier d := by
  induction earlier with
  | nil => rfl
  | cons a earlier ih =>
    rw [chain, nearest]
    rcases lt_or_ge (key a) d with lt | ge
    · rw [above_cons_of_lt lt, if_pos lt, List.head?_cons]
    · rw [above_cons_of_le ge, if_neg (not_lt.mpr ge), above_above ge, ih]

/-- Chains decrease. -/
def Decreasing (key : α → κ) (l : List (Nat × α)) : Prop :=
  l.Pairwise fun inner outer => key outer.2 < key inner.2

theorem Decreasing.lt_of_mem_above (decreasing : Decreasing key l) (mem : item ∈ above key l d) :
    key item.2 < d := by
  induction l with
  | nil => cases mem
  | cons first l ih =>
    obtain ⟨outer, rest⟩ := List.pairwise_cons.mp decreasing
    rcases lt_or_ge (key first.2) d with lt | ge
    · rw [above_cons_of_lt lt] at mem
      rcases List.mem_cons.mp mem with rfl | mem
      · exact lt
      · exact (outer item mem).trans lt
    · rw [above_cons_of_le ge] at mem
      exact ih rest mem

variable (key) in
theorem decreasing_chain (earlier : List α) : Decreasing key (chain key earlier) := by
  induction earlier with
  | nil => exact List.Pairwise.nil
  | cons a earlier ih =>
    exact List.pairwise_cons.mpr ⟨fun _ mem => ih.lt_of_mem_above mem, ih.sublist above_sublist⟩

/-! ### The outermost items -/

section Outermost

variable {k : Nat}

theorem rtake_append_of_length {l l' : List (Nat × α)} (long : l'.length = k) :
    (l ++ l').rtake k = l' := by
  rw [List.rtake, List.length_append, long, Nat.add_sub_cancel, List.drop_left]

theorem rtake_of_length_le {l : List (Nat × α)} (short : l.length ≤ k) : l.rtake k = l := by
  rw [List.rtake, Nat.sub_eq_zero_of_le short, List.drop_zero]

theorem short_or_append_rtake (k : Nat) (l : List (Nat × α)) :
    l.length ≤ k ∨ ∃ inner, l = inner ++ l.rtake k ∧ (l.rtake k).length = k := by
  rcases Nat.le_total l.length k with short | long
  · exact Or.inl short
  · refine Or.inr ⟨l.take (l.length - k), (List.take_append_drop _ _).symm, ?_⟩
    rw [List.rtake, List.length_drop]
    omega

theorem rtake_above_rtake (decreasing : Decreasing key l) :
    (above key (l.rtake k) d).rtake k = (above key l d).rtake k := by
  rcases short_or_append_rtake k l with short | ⟨inner, parts, long⟩
  · rw [rtake_of_length_le short]
  · generalize l.rtake k = outer at parts long ⊢
    subst parts
    induction inner with
    | nil => rfl
    | cons first inner ih =>
      obtain ⟨below, rest⟩ := List.pairwise_cons.mp decreasing
      rw [List.cons_append]
      rcases lt_or_ge (key first.2) d with lt | ge
      · rw [above_cons_of_lt lt, ← List.cons_append, rtake_append_of_length long]
        cases outer with
        | nil => rw [above, List.dropWhile_nil, List.rtake_nil]
        | cons second outer =>
          have lt' : key second.2 < d :=
            (below second (List.mem_append_right _ List.mem_cons_self)).trans lt
          rw [above_cons_of_lt lt', rtake_of_length_le (Nat.le_of_eq long)]
      · rw [above_cons_of_le ge]
        exact ih rest

theorem rtake_above_cons_rtake (decreasing : Decreasing key (item :: l)) :
    (above key (item :: l.rtake k) d).rtake k = (above key (item :: l) d).rtake k := by
  obtain ⟨-, rest⟩ := List.pairwise_cons.mp decreasing
  rcases lt_or_ge (key item.2) d with lt | ge
  · rw [above_cons_of_lt lt, above_cons_of_lt lt]
    rcases short_or_append_rtake k l with short | ⟨inner, parts, long⟩
    · rw [rtake_of_length_le short]
    · generalize l.rtake k = outer at parts long ⊢
      subst parts
      rw [← List.cons_append, rtake_append_of_length long, ← List.singleton_append,
        rtake_append_of_length long]
  · rw [above_cons_of_le ge, above_cons_of_le ge, rtake_above_rtake rest]

end Outermost

end Outline
