import Mathlib.Data.List.Induction
import Rankuno.Foundation.Table

/-!
# The last of each key

A dictionary filled from a list keeps, of the elements with one key, the last. Which
keys it has does not depend on the order of the list; which elements it keeps does, and
an order can be found for every choice.
-/

universe u v

namespace LastByKey

variable {α : Type u} {κ : Type v} [DecidableEq κ] (key : α → κ)

/-- `{key(x): x for x in xs}`. -/
def byKey (xs : List α) : Dict κ α :=
  xs.foldl (fun d x => d.alter (key x) x fun _ => x) .empty

/-- One element for each key there is. -/
structure Picks (xs : List α) (pick : κ → Option α) : Prop where
  own : ∀ k x, pick k = some x → x ∈ xs ∧ key x = k
  total : ∀ x ∈ xs, (pick (key x)).isSome

variable {key} {xs ys : List α} {x : α} {k : κ}

theorem byKey_append_singleton :
    byKey key (xs ++ [x]) = (byKey key xs).alter (key x) x fun _ => x := by
  rw [byKey, List.foldl_append, ← byKey]
  rfl

theorem get_byKey : (byKey key xs).get k = (xs.filter fun x => key x = k).getLast? := by
  induction xs using List.reverseRecOn with
  | nil => rfl
  | append_singleton xs x ih =>
    rw [byKey_append_singleton, Dict.get_alter, List.filter_append]
    by_cases same : k = key x
    · subst same
      simp
    · rw [if_neg same, ih]
      simp [Ne.symm same]

theorem get_byKey_eq_some : (byKey key xs).get k = some x ↔
    key x = k ∧ ∃ before after, xs = before ++ x :: after ∧ ∀ later ∈ after, key later ≠ k := by
  induction xs using List.reverseRecOn with
  | nil => simp [byKey]
  | append_singleton xs y ih =>
    rw [byKey_append_singleton, Dict.get_alter]
    split
    · next same =>
      constructor
      · intro kept
        cases kept
        exact ⟨same.symm, xs, [], rfl, List.forall_mem_nil _⟩
      · rintro ⟨own, before, after, split, last⟩
        rcases List.eq_nil_or_concat after with rfl | ⟨after, z, rfl⟩
        · obtain ⟨-, ends⟩ := List.append_inj' split rfl
          cases ends
          rfl
        · have split : xs ++ [y] = (before ++ x :: after) ++ [z] := by simpa using split
          obtain ⟨-, ends⟩ := List.append_inj' split rfl
          cases ends
          exact absurd same.symm (last y (by simp))
    · next other =>
      rw [ih]
      refine and_congr_right fun own => ?_
      constructor
      · rintro ⟨before, after, rfl, last⟩
        refine ⟨before, after ++ [y], by simp, ?_⟩
        rw [List.forall_mem_append, List.forall_mem_singleton]
        exact ⟨last, Ne.symm other⟩
      · rintro ⟨before, after, split, last⟩
        rcases List.eq_nil_or_concat after with rfl | ⟨after, z, rfl⟩
        · obtain ⟨-, ends⟩ := List.append_inj' split rfl
          cases ends
          exact absurd own.symm other
        · have split : xs ++ [y] = (before ++ x :: after) ++ [z] := by simpa using split
          obtain ⟨rfl, -⟩ := List.append_inj' split rfl
          exact ⟨before, after, rfl, fun later mem => last later (by simp [mem])⟩

theorem mem_of_get (h : (byKey key xs).get k = some x) : x ∈ xs ∧ key x = k := by
  rw [get_byKey] at h
  simpa using List.mem_filter.mp (List.mem_of_getLast? h)

theorem isSome_get : ((byKey key xs).get k).isSome ↔ ∃ x ∈ xs, key x = k := by
  rw [get_byKey]
  simp

theorem isSome_get_of_perm (same : ys.Perm xs) :
    ((byKey key ys).get k).isSome ↔ ((byKey key xs).get k).isSome := by
  rw [isSome_get, isSome_get]
  simp only [same.mem_iff]

theorem picks_get : Picks key xs (byKey key xs).get where
  own _ _ := mem_of_get
  total x mem := isSome_get.mpr ⟨x, mem, rfl⟩

omit [DecidableEq κ] in
theorem Picks.of_perm {pick : κ → Option α} (h : Picks key ys pick) (same : ys.Perm xs) :
    Picks key xs pick where
  own k x found := ⟨same.mem_iff.mp (h.own k x found).1, (h.own k x found).2⟩
  total x mem := h.total x (same.mem_iff.mpr mem)

theorem exists_perm_get [DecidableEq α] (mem : x ∈ xs) :
    ∃ ys, ys.Perm xs ∧ (byKey key ys).get (key x) = some x := by
  refine ⟨xs.erase x ++ [x], ?_, ?_⟩
  · exact (List.perm_append_singleton x _).trans (List.perm_cons_erase mem).symm
  · rw [byKey_append_singleton, Dict.get_alter, if_pos rfl]

/-- **Every choice is what some order keeps.** -/
theorem Picks.exists_perm [DecidableEq α] {pick : κ → Option α} (h : Picks key xs pick) :
    ∃ ys, ys.Perm xs ∧ ∀ k, (byKey key ys).get k = pick k := by
  refine ⟨(xs.filter fun x => !decide (pick (key x) = some x)) ++
    xs.filter fun x => pick (key x) = some x, ?_, fun k => ?_⟩
  · exact List.perm_append_comm.trans (List.filter_append_perm _ xs)
  · cases picked : pick k with
    | none =>
      have without : ∀ y ∈ xs, key y ≠ k := by
        rintro y mem rfl
        have chosen := h.total y mem
        rw [picked] at chosen
        cases chosen
      rw [get_byKey, List.filter_eq_nil_iff.mpr]
      · rfl
      · intro y mem
        have old : y ∈ xs := by
          rcases List.mem_append.mp mem with first | second
          · exact (List.mem_filter.mp first).1
          · exact (List.mem_filter.mp second).1
        simpa using without y old
    | some x =>
      obtain ⟨mem, own⟩ := h.own k x picked
      have only : ∀ y ∈ (xs.filter fun y => pick (key y) = some y).filter fun y => key y = k,
          y = x := by
        intro y inside
        obtain ⟨chosen, same⟩ := List.mem_filter.mp inside
        have kept := of_decide_eq_true (List.mem_filter.mp chosen).2
        rw [of_decide_eq_true same, picked] at kept
        exact (Option.some.inj kept).symm
      have last : ((xs.filter fun y => pick (key y) = some y).filter fun y =>
          key y = k).getLast? = some x := by
        have inside : x ∈ (xs.filter fun y => pick (key y) = some y).filter fun y =>
            key y = k := by
          simp [mem, own, picked]
        have nonempty := List.ne_nil_of_mem inside
        rw [List.getLast?_eq_some_getLast nonempty, only _ (List.getLast_mem nonempty)]
      rw [get_byKey, List.filter_append, List.getLast?_append, last]
      rfl

end LastByKey
