import Mathlib.Data.List.Sort

/-!
# Scanning a list that is sorted by length

A list is sorted, the longest first, and scanned for the first entry that hits. The hit is
as long as any, and among the entries of its kind it is the one that came first before
the list was sorted, as the sorting keeps the order of entries of one length.
-/

universe u

namespace SortedScan

variable {α : Type u} (length : α → Nat)

/-- The longest first, those of one length in their order. -/
def longestFirst (l : List α) : List α := l.insertionSort fun a b => length b ≤ length a

variable {length} {l : List α} {p q : α → Bool} {a b : α}

variable (length) in
theorem mem_longestFirst : a ∈ longestFirst length l ↔ a ∈ l := List.mem_insertionSort _

variable (length l) in
theorem pairwise_longestFirst :
    (longestFirst length l).Pairwise fun a b => length b ≤ length a := by
  have total : Std.Total fun a b : α => length b ≤ length a := ⟨fun a b => Nat.le_total _ _⟩
  have trans : IsTrans α fun a b => length b ≤ length a := ⟨fun _ _ _ h h' => Nat.le_trans h' h⟩
  exact List.pairwise_insertionSort _ l

theorem filter_longestFirst {n : Nat} (level : ∀ a ∈ l, q a = true → length a = n) :
    (longestFirst length l).filter q = l.filter q := by
  have kept : (l.filter q).Sublist (longestFirst length l) := by
    refine List.sublist_insertionSort (List.pairwise_iff_forall_sublist.mpr ?_)
      List.filter_sublist
    intro a b pair
    have listed := pair.subset
    have left := List.mem_filter.mp (listed List.mem_cons_self)
    have right := List.mem_filter.mp (listed (List.mem_cons_of_mem _ List.mem_cons_self))
    rw [level a left.1 left.2, level b right.1 right.2]
  have inner : (l.filter q).Sublist ((longestFirst length l).filter q) := by
    have again := kept.filter q
    rwa [List.filter_filter, List.filter_congr fun a _ => Bool.and_self (q a)] at again
  have same : ((longestFirst length l).filter q).Perm (l.filter q) :=
    (List.perm_insertionSort _ l).filter q
  exact (inner.eq_of_length same.length_eq.symm).symm

variable (length p) in
theorem le_of_find? (h : (longestFirst length l).find? p = some a) (listed : b ∈ l)
    (hit : p b = true) : length b ≤ length a := by
  obtain ⟨-, before, after, sorted, missed⟩ := List.find?_eq_some_iff_append.mp h
  have mem := (mem_longestFirst length).mpr listed
  rw [sorted, List.mem_append, List.mem_cons] at mem
  rcases mem with early | rfl | late
  · have no := missed b early
    rw [hit] at no
    cases no
  · exact Nat.le_refl _
  · have order := pairwise_longestFirst length l
    rw [sorted, List.pairwise_append, List.pairwise_cons] at order
    exact order.2.1.1 b late

variable (length p q) in
theorem head?_filter_of_find? (h : (longestFirst length l).find? p = some a) (own : q a = true)
    (hits : ∀ b, q b = true → p b = true) (level : ∀ b ∈ l, q b = true → length b = length a) :
    (l.filter q).head? = some a := by
  obtain ⟨-, before, after, sorted, missed⟩ := List.find?_eq_some_iff_append.mp h
  have earlier : before.filter q = [] := by
    refine List.filter_eq_nil_iff.mpr fun b early kind => ?_
    have no := missed b early
    rw [hits b kind] at no
    cases no
  rw [← filter_longestFirst level, sorted, List.filter_append, earlier, List.nil_append,
    List.filter_cons_of_pos own]
  rfl

end SortedScan
