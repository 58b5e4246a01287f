import Mathlib.Data.List.Sort
import Mathlib.Order.Lattice

/-!
# Python's `sorted` with a key

The sort is stable: entries with one key keep their order. A slice from the start of the
sorted list holds entries of which none has a greater key than one that is left out.
-/

universe u v

namespace Rankuno.Python

variable {α : Type u} {κ : Type v} [LinearOrder κ] {key : α → κ} {l rest : List α} {a b : α}
  {n : Nat}

/-- `sorted(l, key=key)`. -/
def sortedBy (key : α → κ) (l : List α) : List α :=
  l.insertionSort fun a b => key a ≤ key b

variable (key l) in
theorem perm_sortedBy : (sortedBy key l).Perm l := List.perm_insertionSort _ l

@[simp] theorem mem_sortedBy : a ∈ sortedBy key l ↔ a ∈ l := List.mem_insertionSort _

variable (key l) in
theorem pairwise_sortedBy : (sortedBy key l).Pairwise fun a b => key a ≤ key b :=
  have : IsTrans α fun a b => key a ≤ key b := ⟨fun _ _ _ => le_trans⟩
  have : Std.Total fun a b => key a ≤ key b := ⟨fun a b => le_total (key a) (key b)⟩
  List.pairwise_insertionSort _ l

theorem le_of_mem_drop_sortedBy (kept : a ∈ (sortedBy key l).take n)
    (dropped : b ∈ (sortedBy key l).drop n) : key a ≤ key b := by
  have sorted := pairwise_sortedBy key l
  rw [← List.take_append_drop n (sortedBy key l), List.pairwise_append] at sorted
  exact sorted.2.2 a kept b dropped

theorem le_of_sortedBy_eq_cons (first : sortedBy key l = a :: rest) (mem : b ∈ l) :
    key a ≤ key b := by
  have sorted := pairwise_sortedBy key l
  rw [first, List.pairwise_cons] at sorted
  rw [← (perm_sortedBy key l).mem_iff, first, List.mem_cons] at mem
  obtain rfl | later := mem
  · exact le_refl _
  · exact sorted.1 b later

theorem exists_head?_filter_sortedBy {p : α → Bool} (mem : b ∈ l) (passes : p b = true) :
    ∃ a, ((sortedBy key l).filter p).head? = some a ∧ a ∈ l ∧ p a = true ∧ key a ≤ key b := by
  have found : b ∈ (sortedBy key l).filter p :=
    List.mem_filter.mpr ⟨mem_sortedBy.mpr mem, passes⟩
  have sorted := (pairwise_sortedBy key l).filter p
  cases first : (sortedBy key l).filter p with
  | nil =>
    rw [first] at found
    cases found
  | cons a rest =>
    rw [first] at found sorted
    have own : a ∈ (sortedBy key l).filter p := by
      rw [first]
      exact List.mem_cons_self
    obtain ⟨listed, kept⟩ := List.mem_filter.mp own
    refine ⟨a, rfl, mem_sortedBy.mp listed, kept, ?_⟩
    obtain rfl | later := List.mem_cons.mp found
    · exact le_refl _
    · exact (List.pairwise_cons.mp sorted).1 b later

end Rankuno.Python
