import Mathlib.Data.List.Nodup
import Mathlib.Data.List.TakeDrop

/-!
# Breadth-first walks with a budget

`next` names what each item leads to. A walk visits at most `n` items, none that it
saw before. `queue` takes one at a time from the front of a queue. `rounds` takes all
that are pending in one go and leaves out what was seen before the round, but not
what is pending twice. Both are read off `levels`, the items by their distance from
the first ones and as often as they are named: `queue` visits the first `n` distinct
ones (`queue_eq`), `rounds` the first `n` (`rounds_eq`).
-/

namespace Rankuno.BreadthFirst

variable {α : Type*} [DecidableEq α]

/-- The items of a list that were not seen, each where it occurs first. -/
def fresh (seen : List α) : List α → List α
  | [] => []
  | a :: l => if a ∈ seen then fresh seen l else a :: fresh (a :: seen) l

section Fresh

variable {seen seen' l l' : List α} {a : α} {n : Nat}

@[simp] theorem fresh_nil : fresh seen ([] : List α) = [] := rfl

theorem fresh_cons_of_mem (mem : a ∈ seen) : fresh seen (a :: l) = fresh seen l := if_pos mem

theorem fresh_cons_of_notMem (new : a ∉ seen) :
    fresh seen (a :: l) = a :: fresh (a :: seen) l := if_neg new

theorem fresh_congr (same : ∀ a, a ∈ seen ↔ a ∈ seen') (l : List α) :
    fresh seen l = fresh seen' l := by
  induction l generalizing seen seen' with
  | nil => rfl
  | cons a l ih =>
    by_cases mem : a ∈ seen
    · rw [fresh_cons_of_mem mem, fresh_cons_of_mem ((same a).mp mem), ih same]
    · rw [fresh_cons_of_notMem mem, fresh_cons_of_notMem (mt (same a).mpr mem)]
      congr 1
      refine ih fun b => ?_
      rw [List.mem_cons, List.mem_cons, same b]

theorem mem_fresh : a ∈ fresh seen l ↔ a ∈ l ∧ a ∉ seen := by
  induction l generalizing seen with
  | nil => simp
  | cons b l ih =>
    by_cases mem : b ∈ seen
    · rw [fresh_cons_of_mem mem, ih, List.mem_cons]
      grind
    · rw [fresh_cons_of_notMem mem, List.mem_cons, List.mem_cons, ih, List.mem_cons]
      grind

theorem nodup_fresh : (fresh seen l).Nodup := by
  induction l generalizing seen with
  | nil => exact List.nodup_nil
  | cons a l ih =>
    by_cases mem : a ∈ seen
    · rw [fresh_cons_of_mem mem]
      exact ih
    · rw [fresh_cons_of_notMem mem, List.nodup_cons]
      exact ⟨fun again => (mem_fresh.mp again).2 List.mem_cons_self, ih⟩

theorem perm_fresh (same : l.Perm l') : (fresh seen l).Perm (fresh seen l') :=
  (List.perm_ext_iff_of_nodup nodup_fresh nodup_fresh).mpr fun a => by
    rw [mem_fresh, mem_fresh, same.mem_iff]

theorem fresh_append : fresh seen (l ++ l') = fresh seen l ++ fresh (l ++ seen) l' := by
  induction l generalizing seen with
  | nil => rfl
  | cons a l ih =>
    by_cases mem : a ∈ seen
    · rw [List.cons_append, fresh_cons_of_mem mem, fresh_cons_of_mem mem, ih]
      congr 1
      refine fresh_congr (fun b => ?_) l'
      simp only [List.cons_append, List.mem_cons, List.mem_append]
      grind
    · rw [List.cons_append, fresh_cons_of_notMem mem, fresh_cons_of_notMem mem, ih,
        List.cons_append]
      congr 2
      refine fresh_congr (fun b => ?_) l'
      simp only [List.cons_append, List.mem_cons, List.mem_append]
      grind

theorem fresh_eq_nil (all : ∀ a ∈ l, a ∈ seen) : fresh seen l = [] := by
  refine List.eq_nil_iff_forall_not_mem.mpr fun a mem => ?_
  exact (mem_fresh.mp mem).2 (all a (mem_fresh.mp mem).1)

theorem fresh_eq_self (nodup : l.Nodup) (new : ∀ a ∈ l, a ∉ seen) : fresh seen l = l := by
  induction l generalizing seen with
  | nil => rfl
  | cons a l ih =>
    obtain ⟨once, rest⟩ := List.nodup_cons.mp nodup
    rw [fresh_cons_of_notMem (new a List.mem_cons_self), ih rest]
    intro b mem
    rw [List.mem_cons, not_or]
    exact ⟨fun same => once (same ▸ mem), new b (List.mem_cons_of_mem a mem)⟩

theorem fresh_filter {p : α → Bool} (keeps : ∀ a, a ∉ seen → p a = true) :
    fresh seen (l.filter p) = fresh seen l := by
  induction l generalizing seen with
  | nil => rfl
  | cons a l ih =>
    by_cases mem : a ∈ seen
    · rw [fresh_cons_of_mem mem, ← ih keeps, List.filter_cons]
      split
      · exact fresh_cons_of_mem mem
      · rfl
    · rw [List.filter_cons_of_pos (keeps a mem), fresh_cons_of_notMem mem,
        fresh_cons_of_notMem mem, ih]
      exact fun b new => keeps b fun there => new (List.mem_cons_of_mem a there)

theorem fresh_filter_append {p : α → Bool} {l'' : List α} (keeps : ∀ a, a ∉ seen → p a = true) :
    fresh seen (l ++ (l'.filter p ++ l'')) = fresh seen (l ++ (l' ++ l'')) := by
  rw [fresh_append, fresh_append, fresh_append, fresh_append, fresh_filter]
  · congr 2
    refine fresh_congr (fun a => ?_) l''
    have kept := keeps a
    simp only [List.mem_append, List.mem_filter]
    grind
  · exact fun a unseen => keeps a fun there => unseen (List.mem_append_right l there)

theorem take_fresh (nodup : (l.take n).Nodup) (new : ∀ a ∈ l.take n, a ∉ seen) :
    (fresh seen l).take n = l.take n := by
  conv_lhs => rw [← List.take_append_drop n l, fresh_append, fresh_eq_self nodup new]
  rcases Nat.le_total l.length n with short | long
  · rw [List.drop_eq_nil_of_le short, fresh_nil, List.append_nil, List.take_take, Nat.min_self]
  · have enough : n ≤ (l.take n).length := Nat.le_of_eq (List.length_take_of_le long).symm
    rw [List.take_append_of_le_length enough, List.take_take, Nat.min_self]

theorem length_fresh_le : (fresh seen l).length ≤ l.length := by
  induction l generalizing seen with
  | nil => exact Nat.le_refl 0
  | cons a l ih =>
    by_cases mem : a ∈ seen
    · rw [fresh_cons_of_mem mem]
      exact Nat.le_succ_of_le ih
    · rw [fresh_cons_of_notMem mem]
      exact Nat.succ_le_succ ih

theorem mem_take_fresh (mem : a ∈ l.take n) (new : a ∉ seen) : a ∈ (fresh seen l).take n := by
  have few : (fresh seen (l.take n)).length ≤ n :=
    Nat.le_trans length_fresh_le (List.length_take_le n l)
  rw [← List.take_append_drop n l, fresh_append, List.take_append, List.take_of_length_le few]
  exact List.mem_append_left _ (mem_fresh.mpr ⟨mem, new⟩)

theorem fresh_flatMap {next : α → List α} {visited : List α}
    (expanded : ∀ a ∈ l, a ∈ visited → ∀ b ∈ next a, b ∈ seen) :
    fresh seen ((fresh visited l).flatMap next) = fresh seen (l.flatMap next) := by
  induction l generalizing seen visited with
  | nil => rfl
  | cons a l ih =>
    have rest := fun b mem => expanded b (List.mem_cons_of_mem a mem)
    by_cases mem : a ∈ visited
    · have old := expanded a List.mem_cons_self mem
      rw [fresh_cons_of_mem mem, List.flatMap_cons, fresh_append, fresh_eq_nil old,
        List.nil_append, ih rest]
      refine fresh_congr (fun b => ?_) _
      rw [List.mem_append]
      exact ⟨.inr, fun there => there.elim (old b) id⟩
    · rw [fresh_cons_of_notMem mem, List.flatMap_cons, List.flatMap_cons, fresh_append,
        fresh_append, ih]
      intro b there known c leads
      rw [List.mem_append]
      rcases List.mem_cons.mp known with rfl | before
      · exact .inl leads
      · exact .inr (rest b there before c leads)

end Fresh

section Walks

variable (next : α → List α)

/-- The items within `n` steps of a level, level by level and as often as they are
named, but for what was seen in an earlier level. -/
def levels : Nat → List α → List α → List α
  | 0, _, _ => []
  | n + 1, seen, level =>
    level ++ levels n (level ++ seen) ((level.flatMap next).filter fun a => a ∉ level ++ seen)

/-- Visit one item at a time from the front of a queue. -/
def queue : Nat → List α → List α → List α
  | 0, _, _ => []
  | n + 1, seen, pending =>
    match pending.dropWhile fun a => a ∈ seen with
    | [] => []
    | a :: rest => a :: queue n (a :: seen) (rest ++ (next a).filter fun b => b ∉ a :: seen)

/-- Visit what is pending in one go, but for what was seen before. -/
def rounds (n : Nat) (seen pending : List α) : List α :=
  let batch := pending.filter fun a => a ∉ seen
  if n = 0 ∨ batch = [] then []
  else
    batch.take n ++ rounds (n - batch.length) (batch ++ seen)
      (((batch.take n).flatMap next).filter fun a => a ∉ batch ++ seen)
termination_by n
decreasing_by
  rename_i goesOn
  exact Nat.sub_lt (Nat.pos_of_ne_zero (not_or.mp goesOn).1)
    (List.length_pos_of_ne_nil (not_or.mp goesOn).2)

variable {next} {seen seen' level pending pending' : List α} {a : α} {m n : Nat}

theorem levels_nil : levels next n seen [] = [] := by
  induction n generalizing seen with
  | zero => rfl
  | succ n ih => rw [levels, List.nil_append, List.nil_append, List.flatMap_nil, List.filter_nil, ih]

theorem dropWhile_seen (seen pending : List α) :
    (pending.dropWhile (fun a => a ∈ seen) = [] ∧ fresh seen pending = []) ∨
      ∃ a rest, pending.dropWhile (fun a => a ∈ seen) = a :: rest ∧
        fresh seen pending = a :: fresh (a :: seen) rest := by
  induction pending with
  | nil => exact .inl ⟨rfl, rfl⟩
  | cons a l ih =>
    by_cases mem : a ∈ seen
    · rw [fresh_cons_of_mem mem, List.dropWhile_cons, if_pos (decide_eq_true mem)]
      exact ih
    · rw [fresh_cons_of_notMem mem, List.dropWhile_cons, if_neg (by simpa using mem)]
      exact .inr ⟨a, l, rfl, rfl⟩

theorem queue_congr (same : ∀ a, a ∈ seen ↔ a ∈ seen')
    (new : fresh seen pending = fresh seen' pending') :
    queue next n seen pending = queue next n seen' pending' := by
  induction n generalizing seen seen' pending pending' with
  | zero => rfl
  | succ n ih =>
    rw [queue, queue]
    rcases dropWhile_seen seen pending with ⟨drop, all⟩ | ⟨a, rest, drop, first⟩ <;>
      rcases dropWhile_seen seen' pending' with ⟨drop', all'⟩ | ⟨a', rest', drop', first'⟩
    · rw [drop, drop']
    · rw [all, first'] at new
      cases new
    · rw [first, all'] at new
      cases new
    · rw [first, first', List.cons.injEq] at new
      obtain ⟨rfl, rests⟩ := new
      have visited : ∀ b, b ∈ a :: seen ↔ b ∈ a :: seen' := by
        intro b
        rw [List.mem_cons, List.mem_cons, same b]
      have ahead : ∀ b, b ∈ rest ++ a :: seen ↔ b ∈ rest' ++ a :: seen' := by
        intro b
        have same := visited b
        have news : b ∈ fresh (a :: seen) rest ↔ b ∈ fresh (a :: seen') rest' := by rw [rests]
        rw [mem_fresh, mem_fresh] at news
        rw [List.mem_append, List.mem_append]
        grind
      simp only [drop, drop', List.cons.injEq, true_and]
      refine ih visited ?_
      rw [fresh_append, fresh_append, rests, fresh_filter, fresh_filter, fresh_congr ahead]
      all_goals
        intro b unseen
        exact decide_eq_true (mt (List.mem_append_right _) unseen)

theorem queue_nil : queue next n seen [] = [] := by
  cases n <;> rfl

theorem queue_append (n : Nat) (seen pending later : List α) :
    queue next n seen (pending ++ later) =
      (fresh seen pending).take n ++ queue next (n - (fresh seen pending).length)
        (pending ++ seen) (later ++ (fresh seen pending).flatMap next) := by
  induction pending generalizing n seen later with
  | nil => simp
  | cons a pending ih =>
    by_cases mem : a ∈ seen
    · have visited : ∀ b, b ∈ pending ++ seen ↔ b ∈ a :: pending ++ seen := by
        intro b
        simp only [List.cons_append, List.mem_cons, List.mem_append]
        grind
      rw [fresh_cons_of_mem mem, ← queue_congr visited (fresh_congr visited _), ← ih]
      exact queue_congr (fun b => Iff.rfl) (fresh_cons_of_mem mem)
    · cases n with
      | zero => simp [queue]
      | succ n =>
        have visited : ∀ b, b ∈ pending ++ a :: seen ↔ b ∈ a :: pending ++ seen := by
          intro b
          simp only [List.cons_append, List.mem_cons, List.mem_append]
          grind
        rw [fresh_cons_of_notMem mem, List.take_succ_cons, List.length_cons,
          Nat.add_sub_add_right, List.flatMap_cons, List.cons_append, queue,
          List.dropWhile_cons, if_neg (by simpa using mem)]
        simp only [List.cons_append, List.cons.injEq, true_and]
        rw [List.append_assoc, ih]
        congr 1
        refine queue_congr visited ?_
        rw [List.append_assoc, fresh_filter_append]
        · exact fresh_congr visited _
        · intro b unseen
          exact decide_eq_true (mt (List.mem_append_right _) unseen)

theorem fresh_ne_nil (some_ : level ≠ []) (new : ∀ a ∈ level, a ∉ seen) :
    fresh seen level ≠ [] := by
  cases level with
  | nil => exact absurd rfl some_
  | cons a l =>
    rw [fresh_cons_of_notMem (new a List.mem_cons_self)]
    exact List.cons_ne_nil _ _

theorem new_of_mem_filter (mem : a ∈ pending.filter fun a => a ∉ level ++ seen) :
    a ∉ level ++ seen := of_decide_eq_true (List.mem_filter.mp mem).2

/-- A queue visits the first distinct items of the levels. -/
theorem queue_eq (new : ∀ a ∈ level, a ∉ seen) (enough : n ≤ m) :
    queue next n seen level = (fresh seen (levels next m seen level)).take n := by
  induction m generalizing n seen level with
  | zero =>
    obtain rfl := Nat.le_zero.mp enough
    rfl
  | succ m ih =>
    have expanded : queue next (n - (fresh seen level).length) (level ++ seen)
        ((fresh seen level).flatMap next) =
          queue next (n - (fresh seen level).length) (level ++ seen)
            ((level.flatMap next).filter fun a => a ∉ level ++ seen) := by
      refine queue_congr (fun _ => Iff.rfl) ?_
      rw [fresh_flatMap fun a mem there => absurd there (new a mem),
        fresh_filter fun a unseen => decide_eq_true unseen]
    have through : queue next n seen (level ++ []) = _ := queue_append n seen level []
    rw [List.append_nil, List.nil_append, expanded] at through
    rw [through, levels, fresh_append, List.take_append]
    by_cases done : level = []
    · rw [done, List.flatMap_nil, List.filter_nil, levels_nil]
      simp [queue_nil]
    · have progress := List.length_pos_of_ne_nil (fresh_ne_nil done new)
      rw [ih (fun a mem => new_of_mem_filter mem) (by omega)]

theorem rounds_eq (new : ∀ a ∈ level, a ∉ seen) (enough : n ≤ m) :
    rounds next n seen level = (levels next m seen level).take n := by
  induction m generalizing n seen level with
  | zero =>
    obtain rfl := Nat.le_zero.mp enough
    rw [rounds, if_pos (.inl rfl)]
    rfl
  | succ m ih =>
    have batch : (level.filter fun a => a ∉ seen) = level :=
      List.filter_eq_self.mpr fun a mem => decide_eq_true (new a mem)
    rw [rounds, batch, levels, List.take_append]
    split
    · next stop =>
      rcases stop with rfl | rfl
      · simp
      · rw [List.flatMap_nil, List.filter_nil, levels_nil, List.take_nil, List.take_nil]
        rfl
    · next goesOn =>
      have progress := List.length_pos_of_ne_nil (not_or.mp goesOn).2
      congr 1
      rcases Nat.lt_or_ge level.length n with short | long
      · rw [List.take_of_length_le (Nat.le_of_lt short),
          ih (fun a mem => new_of_mem_filter mem) (by omega)]
      · rw [Nat.sub_eq_zero_of_le long, rounds, if_pos (.inl rfl), List.take_zero]

/-- What holds of all that is pending, and of all that the visited items lead to, holds
of every visited item. -/
theorem forall_queue {P : α → Prop} (first : ∀ a ∈ pending, P a)
    (further : ∀ a ∈ queue next n seen pending, ∀ b ∈ next a, P b) :
    ∀ a ∈ queue next n seen pending, P a := by
  induction n generalizing seen pending with
  | zero => exact fun a mem => absurd mem List.not_mem_nil
  | succ n ih =>
    rw [queue] at further ⊢
    have kept : ∀ a ∈ pending.dropWhile fun a => a ∈ seen, P a := fun a mem =>
      first a (List.dropWhile_sublist _ |>.mem mem)
    cases drop : pending.dropWhile fun a => a ∈ seen with
    | nil => exact fun a mem => absurd mem List.not_mem_nil
    | cons a rest =>
      rw [drop] at kept further
      simp only [List.forall_mem_cons] at kept further ⊢
      refine ⟨kept.1, ih (fun b mem => ?_) further.2⟩
      rcases List.mem_append.mp mem with before | led
      · exact kept.2 b before
      · exact further.1 b (List.mem_filter.mp led).1

end Walks

end Rankuno.BreadthFirst
