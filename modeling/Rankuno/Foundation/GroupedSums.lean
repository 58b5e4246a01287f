import Mathlib.Algebra.BigOperators.Group.List.Lemmas
import Mathlib.Algebra.GroupWithZero.Nat
import Rankuno.Foundation.Table

/-!
# Sums by group

Entries are grouped, by the one key each has or under every prefix of its path,
and each group is totalled. The lemmas say that totals over groups add up to the
total over the entries, and that the total under a path is that of the entries
right at it and of its children.
-/

universe u v w

namespace GroupedSums

section Sums

variable {α : Type u} {β : Type v} {M : Type w} [AddCommMonoid M]

theorem sum_map_filter (p : α → Prop) [DecidablePred p] (f : α → M) (l : List α) :
    ((l.filter fun a => p a).map f).sum = (l.map fun a => if p a then f a else 0).sum := by
  induction l with
  | nil => rfl
  | cons a l ih =>
    rw [List.filter_cons, List.map_cons, List.sum_cons, ← ih]
    by_cases ha : p a
    · simp [ha]
    · simp [ha]

theorem sum_map_comm (f : α → β → M) (l : List α) (m : List β) :
    (l.map fun a => (m.map (f a)).sum).sum = (m.map fun b => (l.map fun a => f a b).sum).sum := by
  induction l with
  | nil => simp
  | cons a l ih =>
    simp only [List.map_cons, List.sum_cons, ih, List.sum_map_add]

theorem sum_map_exclusive {p : α → Prop} [DecidablePred p] {l : List α}
    (exclusive : l.Pairwise fun a b => ¬(p a ∧ p b)) (v : M) :
    (l.map fun a => if p a then v else 0).sum = if ∃ a ∈ l, p a then v else 0 := by
  induction l with
  | nil => simp
  | cons a l ih =>
    obtain ⟨apart, exclusive⟩ := List.pairwise_cons.mp exclusive
    rw [List.map_cons, List.sum_cons, ih exclusive]
    by_cases ha : p a
    · have others : ¬∃ b ∈ l, p b := fun ⟨b, mem, hb⟩ => apart b mem ⟨ha, hb⟩
      rw [if_pos ha, if_neg others, add_zero, if_pos ⟨a, List.mem_cons_self, ha⟩]
    · rw [if_neg ha, zero_add]
      simp [ha]

variable {κ : Type*} [DecidableEq κ]

theorem sum_by_key {keys : List κ} (nodup : keys.Nodup) (key : β → κ) (v : β → M)
    (entries : List β) :
    (keys.map fun k => ((entries.filter fun b => key b = k).map v).sum).sum =
      ((entries.filter fun b => ∃ k ∈ keys, key b = k).map v).sum := by
  simp only [sum_map_filter]
  rw [sum_map_comm]
  congr 1
  refine List.map_congr_left fun b _ => ?_
  refine sum_map_exclusive (nodup.imp fun {k k'} other both => other ?_) (v b)
  exact both.1.symm.trans both.2

theorem sum_length_by_key {keys : List κ} (nodup : keys.Nodup) (key : β → κ) (entries : List β) :
    (keys.map fun k => (entries.filter fun b => key b = k).length).sum =
      (entries.filter fun b => ∃ k ∈ keys, key b = k).length := by
  have length : ∀ l : List β, l.length = (l.map fun _ => 1).sum := by
    intro l
    rw [List.map_const', List.sum_replicate_nat, Nat.mul_one]
  simp only [length]
  exact sum_by_key nodup key (fun _ => 1) entries

theorem sum_filterMap_filter {ρ : Type*} (rows : List ρ) (key : ρ → Option κ) (value : ρ → β)
    (keys : List κ) (f : β → M) :
    (((rows.filterMap fun row => (key row).map fun k => (k, value row)).filter fun entry =>
      ∃ k ∈ keys, entry.1 = k).map fun entry => f entry.2).sum =
      ((rows.filter fun row => ∃ k ∈ keys, key row = some k).map fun row => f (value row)).sum := by
  induction rows with
  | nil => rfl
  | cons row rows ih =>
    rw [List.filterMap_cons, List.filter_cons]
    cases found : key row with
    | none => simpa [found] using ih
    | some k =>
      simp only [Option.map_some, List.filter_cons, Option.some.injEq]
      split
      · rw [List.map_cons, List.sum_cons, List.map_cons, List.sum_cons, ih]
      · exact ih

end Sums

section Tally

variable {κ : Type u} {M : Type w} [DecidableEq κ] [AddCommMonoid M]

/-- Add each entry to what its key has so far. -/
def tally (entries : List (κ × M)) : Dict κ M :=
  entries.foldl (fun totals entry => Dict.alter totals entry.1 0 (· + entry.2)) Table.empty

theorem tally_append (entries entries' : List (κ × M)) : tally (entries ++ entries') =
    entries'.foldl (fun totals entry => Dict.alter totals entry.1 0 (· + entry.2))
      (tally entries) := by
  rw [tally, List.foldl_append, ← tally]

theorem tally_append_singleton (entries : List (κ × M)) (entry : κ × M) :
    tally (entries ++ [entry]) = Dict.alter (tally entries) entry.1 0 (· + entry.2) :=
  tally_append entries [entry]

theorem exists_rows_tally_cons (entry : κ × M) (entries : List (κ × M)) :
    ∃ value rest, (tally (entry :: entries)).rows = (entry.1, value) :: rest := by
  induction entries using List.reverseRecOn with
  | nil => exact ⟨_, [], rfl⟩
  | append_singleton entries last ih =>
    obtain ⟨value, rest, rows⟩ := ih
    rw [← List.cons_append, tally_append_singleton]
    exact Dict.exists_rows_alter_cons rows

theorem isSome_get_tally {entries : List (κ × M)} {key : κ} :
    (Dict.get (tally entries) key).isSome ↔ ∃ entry ∈ entries, entry.1 = key := by
  induction entries using List.reverseRecOn with
  | nil => simp [tally]
  | append_singleton entries entry ih =>
    rw [tally_append_singleton, Dict.get_alter]
    by_cases same : key = entry.1
    · simp [same]
    · rw [if_neg same, ih]
      simp [Ne.symm same]

/-- **What a tally has for a key is the sum of its entries.** -/
theorem getD_get_tally (entries : List (κ × M)) (key : κ) : (Dict.get (tally entries) key).getD 0 =
      ((entries.filter fun entry => entry.1 = key).map Prod.snd).sum := by
  induction entries using List.reverseRecOn with
  | nil => rfl
  | append_singleton entries entry ih =>
    rw [tally_append_singleton, Dict.get_alter, List.filter_append, List.map_append,
      List.sum_append, ← ih]
    by_cases same : key = entry.1
    · subst same
      simp
    · simp [same, Ne.symm same]

theorem sum_tally (entries : List (κ × M)) :
    ((tally entries).rows.map Prod.snd).sum = (entries.map Prod.snd).sum := by
  have values : (tally entries).rows.map Prod.snd = ((tally entries).rows.map Prod.fst).map fun k =>
        ((entries.filter fun entry => entry.1 = k).map Prod.snd).sum := by
    rw [List.map_map]
    refine List.map_congr_left fun row mem => ?_
    rw [Function.comp_apply, ← getD_get_tally, Dict.get_eq_some.mpr mem, Option.getD_some]
  have all : (entries.filter fun entry =>
      ∃ k ∈ (tally entries).rows.map Prod.fst, entry.1 = k) = entries := by
    refine List.filter_eq_self.mpr fun entry mem => decide_eq_true ?_
    obtain ⟨value, held⟩ := Option.isSome_iff_exists.mp (isSome_get_tally.mpr ⟨entry, mem, rfl⟩)
    exact ⟨entry.1, List.mem_map.mpr ⟨(entry.1, value), Dict.get_eq_some.mp held, rfl⟩, rfl⟩
  rw [values, sum_by_key (tally entries).keys_nodup, all]

end Tally

section Inits

variable {α : Type u}

theorem nodup_inits (l : List α) : l.inits.Nodup := by
  induction l with
  | nil => exact List.nodup_singleton []
  | cons a l ih =>
    rw [List.inits_cons, List.nodup_cons]
    refine ⟨fun mem => ?_, ih.map List.cons_injective⟩
    obtain ⟨start, -, same⟩ := List.mem_map.mp mem
    cases same

theorem sum_map_inits {M : Type w} [AddCommMonoid M] [DecidableEq α] (l path : List α) (v : M) :
    (l.inits.map fun start => if start = path then v else 0).sum = if path <+: l then v else 0 := by
  rw [sum_map_exclusive ((nodup_inits l).imp fun {a b} other both => other ?_)]
  · refine if_congr ?_ rfl rfl
    rw [exists_eq_right, List.mem_inits]
  · exact both.1.trans both.2.symm

end Inits

section Children

variable {α : Type u} {M : Type w}

/-- The children of a path: one step longer, no two the same, and all that an
entry is at or below. -/
structure Children (entries : List (List α × M)) (path : List α) (children : List (List α)) :
    Prop where
  nodup : children.Nodup
  longer : ∀ child ∈ children, ∃ a, child = path ++ [a]
  complete : ∀ entry ∈ entries, ∀ a, path ++ [a] <+: entry.1 → path ++ [a] ∈ children

variable {entries : List (List α × M)} {path : List α} {children : List (List α)}

theorem Children.prefix_iff (h : Children entries path children) {entry : List α × M}
    (mem : entry ∈ entries) :
    path <+: entry.1 ↔ entry.1 = path ∨ ∃ child ∈ children, child <+: entry.1 := by
  constructor
  · rintro ⟨tail, whole⟩
    cases tail with
    | nil => exact Or.inl (whole.symm.trans (List.append_nil path))
    | cons a tail =>
      have below : path ++ [a] <+: entry.1 := ⟨tail, by rw [← whole]; simp⟩
      exact Or.inr ⟨path ++ [a], h.complete entry mem a below, below⟩
  · rintro (same | ⟨child, known, below⟩)
    · rw [same]
    · obtain ⟨a, rfl⟩ := h.longer child known
      exact (List.prefix_append path [a]).trans below

theorem Children.not_both (h : Children entries path children) {q : List α}
    (at_ : q = path) : ¬∃ child ∈ children, child <+: q := by
  rintro ⟨child, known, below⟩
  obtain ⟨a, rfl⟩ := h.longer child known
  have shorter := below.length_le
  rw [at_, List.length_append, List.length_singleton] at shorter
  omega

theorem Children.exclusive (h : Children entries path children) (q : List α) :
    children.Pairwise fun c d => ¬(c <+: q ∧ d <+: q) := by
  refine List.Pairwise.imp_of_mem (fun {c d} hc hd other both => other ?_) h.nodup
  obtain ⟨a, rfl⟩ := h.longer c hc
  obtain ⟨b, rfl⟩ := h.longer d hd
  exact List.prefix_of_prefix_length_le both.1 both.2 (by simp) |>.eq_of_length (by simp)

end Children

section Totals

variable {α : Type u} {M : Type w} [AddCommMonoid M] [DecidableEq α]

/-- The total of the entries at a path and below it. -/
def under (entries : List (List α × M)) (path : List α) : M :=
  ((entries.filter fun entry => path <+: entry.1).map Prod.snd).sum

/-- The total of the entries right at a path. -/
def direct (entries : List (List α × M)) (path : List α) : M :=
  ((entries.filter fun entry => entry.1 = path).map Prod.snd).sum

variable {entries : List (List α × M)} {path : List α} {children : List (List α)}

section Hom

variable {N : Type*} [AddCommMonoid N] (f : M →+ N)

theorem map_under : f (under entries path) =
    ((entries.filter fun entry => path <+: entry.1).map fun entry => f entry.2).sum := by
  rw [under, map_list_sum, List.map_map]
  rfl

theorem map_direct : f (direct entries path) =
    ((entries.filter fun entry => entry.1 = path).map fun entry => f entry.2).sum := by
  rw [direct, map_list_sum, List.map_map]
  rfl

theorem map_under_eq_zero (h : ∀ entry ∈ entries, f entry.2 = 0) : f (under entries path) = 0 := by
  rw [map_under]
  refine List.sum_eq_zero fun value mem => ?_
  obtain ⟨entry, chosen, rfl⟩ := List.mem_map.mp mem
  exact h entry (List.mem_filter.mp chosen).1

theorem map_direct_eq_zero (h : ∀ entry ∈ entries, f entry.2 = 0) :
    f (direct entries path) = 0 := by
  rw [map_direct]
  refine List.sum_eq_zero fun value mem => ?_
  obtain ⟨entry, chosen, rfl⟩ := List.mem_map.mp mem
  exact h entry (List.mem_filter.mp chosen).1

end Hom

/-- **The total under a path is that of the entries at it and of its children.** -/
theorem under_eq_direct_add (h : Children entries path children) :
    under entries path = direct entries path + (children.map (under entries)).sum := by
  have below : (children.map (under entries)).sum = (entries.map fun entry =>
        if ∃ child ∈ children, child <+: entry.1 then entry.2 else 0).sum := by
    change (children.map fun child => under entries child).sum = _
    simp only [under, sum_map_filter]
    rw [sum_map_comm]
    congr 1
    exact List.map_congr_left fun entry _ => sum_map_exclusive (h.exclusive entry.1) entry.2
  rw [below, under, direct, sum_map_filter, sum_map_filter, ← List.sum_map_add]
  congr 1
  refine List.map_congr_left fun entry mem => ?_
  by_cases at_ : entry.1 = path
  · rw [if_pos ((h.prefix_iff mem).mpr (Or.inl at_)), if_pos at_, if_neg (h.not_both at_), add_zero]
  · rw [if_neg at_, zero_add]
    exact if_congr ((h.prefix_iff mem).trans (or_iff_right at_)) rfl rfl

end Totals

/-! ### Sums along parents -/

/-- Nodes in an array, each with its parent, if it has one, which stands before it. -/
structure Parents where
  parent : Nat → Option Nat
  before : ∀ {j p}, parent j = some p → p < j

namespace Parents

variable {M : Type*} [AddCommMonoid M] (tree : Parents)

/-- The node `j` is the node `i`, or its parent is at or below `i`. -/
def below (i j : Nat) : Bool :=
  i = j || match _h : tree.parent j with
    | none => false
    | some p => below i p
termination_by j
decreasing_by exact tree.before ‹_›

/-- The nodes at or below one, of the first `n`. -/
def subtree (n i : Nat) : List Nat := (List.range n).filter (tree.below i)

/-- Of the first `n` nodes, from the last to the first, each adds what it has to its parent. -/
def foldUp : Nat → (Nat → M) → Nat → M
  | 0, acc => acc
  | j + 1, acc =>
    foldUp j ((tree.parent j).elim acc fun p => Function.update acc p (acc p + acc j))

/-- From the first of `n` nodes to the last, the root that each is at or below. -/
def rootTable : Nat → Nat → Nat
  | 0 => fun _ => 0
  | j + 1 => Function.update (rootTable j) j ((tree.parent j).elim j (rootTable j))

variable {tree} {i j n p : Nat} {acc : Nat → M}

theorem below_iff : tree.below i j ↔ i = j ∨ ∃ p, tree.parent j = some p ∧ tree.below i p := by
  rw [below]
  split <;> simp_all

theorem le_of_below (below : tree.below i j) : i ≤ j := by
  induction j using Nat.strong_induction_on with
  | _ j ih =>
    obtain rfl | ⟨p, parent, above⟩ := below_iff.mp below
    · exact Nat.le_refl i
    · exact (ih p (tree.before parent) above).trans (tree.before parent).le

theorem sum_subtree_succ : ((tree.subtree (n + 1) i).map acc).sum =
    ((tree.subtree n i).map acc).sum + if tree.below i n then acc n else 0 := by
  rw [subtree, List.range_succ, List.filter_append, List.map_append, List.sum_append, subtree]
  by_cases below : tree.below i n <;> simp [below]

theorem sum_subtree_update (before : p < n) (v : M) :
    ((tree.subtree n i).map (Function.update acc p (acc p + v))).sum =
      ((tree.subtree n i).map acc).sum + if tree.below i p then v else 0 := by
  have single : (tree.subtree n i).Pairwise fun a b => ¬(a = p ∧ b = p) :=
    (List.nodup_range.filter _).imp fun {a b} other both => other (both.1.trans both.2.symm)
  have added : Function.update acc p (acc p + v) = fun j => acc j + if j = p then v else 0 := by
    funext j
    by_cases same : j = p <;> simp [same]
  rw [added, List.sum_map_add, sum_map_exclusive single]
  simp [subtree, before]

theorem foldUp_eq (n : Nat) (acc : Nat → M) (i : Nat) : tree.foldUp n acc i =
    (if n ≤ i then acc i else 0) + ((tree.subtree n i).map acc).sum := by
  induction n generalizing acc with
  | zero => simp [foldUp, subtree]
  | succ n ih =>
    have own : (if n ≤ i then acc i else 0) =
        (if i = n then acc n else 0) + if n + 1 ≤ i then acc i else 0 := by
      obtain below | rfl | above := Nat.lt_trichotomy i n
      · simp [below.ne, below.not_ge, (Nat.lt_succ_of_lt below).not_ge]
      · simp [Nat.not_succ_le_self]
      · simp [above.ne', above.le, Nat.succ_le_of_lt above]
    rw [foldUp, ih, sum_subtree_succ]
    cases parent : tree.parent n with
    | none =>
      simp only [Option.elim_none, below_iff (j := n), parent]
      simp [own]
      ac_rfl
    | some p =>
      have before := tree.before parent
      have kept : (if n ≤ i then Function.update acc p (acc p + acc n) i else 0) =
          if n ≤ i then acc i else 0 :=
        ite_congr rfl (fun late => Function.update_of_ne (before.trans_le late).ne' _ _)
          fun _ => rfl
      have apart : (if i = n ∨ tree.below i p then acc n else 0) =
          (if i = n then acc n else 0) + if tree.below i p then acc n else 0 := by
        by_cases same : i = n
        · have above : ¬tree.below n p := fun mem => (le_of_below mem).not_gt before
          simp [same, above]
        · simp [same]
      simp only [Option.elim_some, sum_subtree_update before, below_iff (j := n), parent]
      simp [kept, own, apart]
      ac_rfl

/-- **What arrives at a node is what it and those below it had.** -/
theorem foldUp_of_lt (known : i < n) : tree.foldUp n acc i = ((tree.subtree n i).map acc).sum := by
  rw [foldUp_eq, if_neg known.not_ge, zero_add]

variable (tree) in
theorem rootTable_spec (known : j < n) :
    tree.rootTable n j ≤ j ∧ tree.parent (tree.rootTable n j) = none ∧
      ∀ i, tree.parent i = none → (tree.rootTable n j = i ↔ tree.below i j) := by
  induction n generalizing j with
  | zero => exact absurd known (Nat.not_lt_zero j)
  | succ n ih =>
    obtain earlier | rfl := Nat.lt_succ_iff_lt_or_eq.mp known
    · rw [rootTable, Function.update_of_ne earlier.ne]
      exact ih earlier
    · rw [rootTable, Function.update_self]
      cases parent : tree.parent j with
      | none =>
        refine ⟨Nat.le_refl j, parent, fun i _ => ?_⟩
        rw [below_iff (j := j), parent]
        simpa using eq_comm
      | some p =>
        obtain ⟨le, top, only⟩ := ih (tree.before parent)
        refine ⟨le.trans (tree.before parent).le, top, fun i root => ?_⟩
        have other : i ≠ j := fun same => by cases (same ▸ root).symm.trans parent
        rw [Option.elim_some, only i root, below_iff (j := j), or_iff_right other, parent]
        simp

theorem subtree_root (root : tree.parent i = none) :
    tree.subtree n i = (List.range n).filter fun j => tree.rootTable n j = i :=
  List.filter_congr fun _ known => Bool.eq_iff_iff.mpr <|
    ((tree.rootTable_spec (List.mem_range.mp known)).2.2 i root).symm.trans decide_eq_true_iff.symm

theorem sum_roots {roots : List Nat}
    (all : roots.Perm ((List.range n).filter fun j => tree.parent j = none)) :
    (roots.map (tree.foldUp n acc)).sum = ((List.range n).map acc).sum := by
  have total : ∀ i ∈ roots, tree.foldUp n acc i =
      (((List.range n).filter fun j => tree.rootTable n j = i).map acc).sum := by
    intro i mem
    obtain ⟨known, root⟩ := List.mem_filter.mp (all.mem_iff.mp mem)
    rw [foldUp_of_lt (List.mem_range.mp known), subtree_root (decide_eq_true_iff.mp root)]
  have every : ((List.range n).filter fun j => ∃ i ∈ roots, tree.rootTable n j = i) =
      List.range n := by
    refine List.filter_eq_self.mpr fun j known => decide_eq_true ⟨_, all.mem_iff.mpr ?_, rfl⟩
    obtain ⟨le, top, -⟩ := tree.rootTable_spec (List.mem_range.mp known)
    exact List.mem_filter.mpr ⟨List.mem_range.mpr (le.trans_lt (List.mem_range.mp known)),
      decide_eq_true top⟩
  rw [List.map_congr_left total, sum_by_key (all.nodup_iff.mpr (List.nodup_range.filter _)), every]

end Parents
end GroupedSums
