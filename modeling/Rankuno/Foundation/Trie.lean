import Mathlib.Data.List.Nodup
import Rankuno.Foundation.Forest

/-!
# Forests addressed by keys

The nodes of a forest carry keys, and the keys from a root down to a node are its address.
`graft` walks an address down, puts in the nodes it misses and rewrites the last one. Where
siblings have distinct keys, `Keyed`, an address is of one node, and a graft changes what is
found at the address and, where nothing was, at the nonempty beginnings of it.
-/

universe u v

namespace Forest

variable {κ : Type u} {α : Type v}

section Addresses

variable (key : α → κ)

/-- The nodes with their addresses, in preorder, below an address. -/
def addressed (above : List κ) : Forest α → List (List κ × α)
  | nil => []
  | cons a children rest =>
    (above ++ [key a], a) :: (children.addressed (above ++ [key a]) ++ rest.addressed above)

/-- No two siblings share a key. -/
def Keyed : Forest α → Prop
  | nil => True
  | cons a children rest => key a ∉ rest.roots.map key ∧ children.Keyed ∧ rest.Keyed

variable {key} {above address : List κ} {a : α} {f : Forest α}

variable (key above) in
theorem map_snd_addressed : (f.addressed key above).map Prod.snd = f.preorder := by
  induction f generalizing above with
  | nil => rfl
  | cons a children rest below after =>
    rw [addressed, preorder, List.map_cons, List.map_append, below, after]

theorem exists_of_mem_addressed (h : (address, a) ∈ f.addressed key above) :
    ∃ root ∈ f.roots, ∃ below, address = above ++ key root :: below := by
  induction f generalizing above with
  | nil => cases h
  | cons b children rest inner after =>
    rw [addressed, List.mem_cons, List.mem_append] at h
    obtain same | inside | later := h
    · obtain ⟨rfl, rfl⟩ := Prod.mk.inj same
      exact ⟨_, List.mem_cons_self, [], rfl⟩
    · obtain ⟨root, -, below, rfl⟩ := inner inside
      refine ⟨b, List.mem_cons_self, key root :: below, ?_⟩
      rw [List.append_assoc, List.singleton_append]
    · obtain ⟨root, listed, below, rfl⟩ := after later
      exact ⟨root, List.mem_cons_of_mem _ listed, below, rfl⟩

theorem Keyed.nodup (keyed : f.Keyed key) (above : List κ) :
    ((f.addressed key above).map Prod.fst).Nodup := by
  induction f generalizing above with
  | nil => exact List.nodup_nil
  | cons a children rest below after =>
    obtain ⟨fresh, inside, others⟩ := keyed
    have first : ∀ address ∈ (rest.addressed key above).map Prod.fst,
        ∀ below, address ≠ above ++ key a :: below := by
      rintro _ mem below rfl
      obtain ⟨⟨address, b⟩, listed, rfl⟩ := List.mem_map.mp mem
      obtain ⟨root, mem, _, same⟩ := exists_of_mem_addressed listed
      obtain ⟨same, -⟩ := List.cons.inj (List.append_cancel_left same)
      exact fresh (List.mem_map.mpr ⟨root, mem, same.symm⟩)
    have inner : ∀ address ∈ (children.addressed key (above ++ [key a])).map Prod.fst,
        ∃ k below, address = above ++ key a :: k :: below := by
      intro _ mem
      obtain ⟨⟨address, b⟩, listed, rfl⟩ := List.mem_map.mp mem
      obtain ⟨root, -, below, rfl⟩ := exists_of_mem_addressed listed
      exact ⟨key root, below, by simp⟩
    rw [addressed, List.map_cons, List.map_append, List.nodup_cons, List.nodup_append]
    refine ⟨?_, below inside _, after others above, ?_⟩
    · rw [List.mem_append, not_or]
      constructor
      · intro mem
        obtain ⟨k, below, same⟩ := inner _ mem
        cases (List.cons.inj (List.append_cancel_left same)).2
      · exact fun mem => first _ mem [] rfl
    · intro address mem other mem' same
      obtain ⟨k, below, rfl⟩ := inner _ mem
      exact first _ mem' (k :: below) same.symm

end Addresses

section Lookup

variable [DecidableEq κ] (key : α → κ)

/-- The node at an address. -/
def get? : Forest α → List κ → Option α
  | nil, _ => none
  | cons _ _ _, [] => none
  | cons a children rest, k :: below =>
    if key a = k then if below = [] then some a else children.get? below
    else rest.get? (k :: below)

variable {key} {above address : List κ} {a : α} {f : Forest α}

theorem get?_nil_right : f.get? key [] = none := by
  cases f <;> rfl

theorem get?_eq_none_of_not_root {k : κ} {below : List κ} (h : k ∉ f.roots.map key) :
    f.get? key (k :: below) = none := by
  induction f with
  | nil => rfl
  | cons a children rest _ after =>
    rw [roots, List.map_cons, List.mem_cons, not_or] at h
    rw [get?, if_neg (Ne.symm h.1), after h.2]

theorem Keyed.mem_addressed_iff (keyed : f.Keyed key) : (address, a) ∈ f.addressed key above ↔
    ∃ below, address = above ++ below ∧ f.get? key below = some a := by
  induction f generalizing above address with
  | nil =>
    refine ⟨fun mem => absurd mem List.not_mem_nil, ?_⟩
    rintro ⟨below, -, found⟩
    cases found
  | cons b children rest below after =>
    obtain ⟨fresh, inside, others⟩ := keyed
    rw [addressed, List.mem_cons, List.mem_append, below inside, after others]
    constructor
    · rintro (same | ⟨keys, rfl, found⟩ | ⟨keys, rfl, found⟩)
      · obtain ⟨rfl, rfl⟩ := Prod.mk.inj same
        exact ⟨[key a], rfl, by rw [get?, if_pos rfl, if_pos rfl]⟩
      · refine ⟨key b :: keys, by simp, ?_⟩
        have nonempty : keys ≠ [] := by
          rintro rfl
          rw [get?_nil_right] at found
          cases found
        rw [get?, if_pos rfl, if_neg nonempty, found]
      · refine ⟨keys, rfl, ?_⟩
        cases keys with
        | nil => rw [get?_nil_right] at found; cases found
        | cons k keys =>
          rw [get?, if_neg, found]
          rintro rfl
          rw [get?_eq_none_of_not_root fresh] at found
          cases found
    · rintro ⟨keys, rfl, found⟩
      cases keys with
      | nil => cases found
      | cons k keys =>
        rw [get?] at found
        split at found
        · next same =>
          split at found
          · next last =>
            rw [last, ← same, Option.some.inj found]
            exact Or.inl rfl
          · exact Or.inr (Or.inl ⟨keys, by rw [← same]; simp, found⟩)
        · exact Or.inr (Or.inr ⟨k :: keys, rfl, found⟩)

end Lookup

/-- How a graft makes the node of an address and rewrites the one it leads to, both under the
key that the address ends with. -/
structure Planting (key : α → κ) where
  fresh : List κ → α
  rewrite : α → α
  key_fresh : ∀ above k, key (fresh (above ++ [k])) = k
  key_rewrite : ∀ a, key (rewrite a) = key a

section Graft

variable {key : α → κ} (g : Planting key)

theorem key_rewrite_if {a : α} {last : Prop} [Decidable last] :
    key (if last then g.rewrite a else a) = key a := by
  split
  · exact g.key_rewrite a
  · rfl

/-- A branch of new nodes down to an address, the last one rewritten. -/
def branch (above : List κ) : List κ → Forest α
  | [] => nil
  | k :: below =>
    tree (if below = [] then g.rewrite (g.fresh (above ++ [k])) else g.fresh (above ++ [k]))
      (branch (above ++ [k]) below)

theorem keyed_branch {above address : List κ} : (branch g above address).Keyed key := by
  induction address generalizing above with
  | nil => trivial
  | cons k below ih => exact ⟨List.not_mem_nil, ih, trivial⟩

variable [DecidableEq κ]

/-- Rewrite the node at an address, with the nodes on the way there put in where they are
missing, each after its siblings. -/
def graft (above : List κ) : Forest α → List κ → Forest α
  | f, [] => f
  | nil, k :: below => branch g above (k :: below)
  | cons a children rest, k :: below =>
    if key a = k then
      cons (if below = [] then g.rewrite a else a) (children.graft (above ++ [k]) below) rest
    else cons a children (rest.graft above (k :: below))

variable {g} {above address other : List κ} {f : Forest α}

@[simp] theorem graft_nil : f.graft g above [] = f := by
  cases f <;> rfl

theorem roots_graft_subset {k : κ} {below : List κ} :
    (f.graft g above (k :: below)).roots.map key ⊆ k :: f.roots.map key := by
  induction f with
  | nil =>
    simp only [graft, branch, tree, roots, List.map_cons, List.map_nil, key_rewrite_if g,
      g.key_fresh]
    exact List.Subset.refl _
  | cons a children rest _ after =>
    rw [graft]
    split
    · rw [roots, roots, List.map_cons, List.map_cons, key_rewrite_if g]
      exact List.subset_cons_self _ _
    · rw [roots, roots, List.map_cons, List.map_cons]
      intro other mem
      rw [List.mem_cons, List.mem_cons]
      obtain first | later := List.mem_cons.mp mem
      · exact Or.inr (Or.inl first)
      · exact (List.mem_cons.mp (after later)).imp_right Or.inr

variable (g above address) in
theorem Keyed.graft (keyed : f.Keyed key) : (f.graft g above address).Keyed key := by
  induction f generalizing above address with
  | nil =>
    cases address with
    | nil => exact keyed
    | cons k below => exact keyed_branch g
  | cons a children rest below after =>
    obtain ⟨new, inside, others⟩ := keyed
    cases address with
    | nil => exact ⟨new, inside, others⟩
    | cons k keys =>
      rw [Forest.graft]
      split
      · exact ⟨by rwa [key_rewrite_if g], below _ _ inside, others⟩
      · next differs =>
        refine ⟨fun mem => ?_, inside, after _ _ others⟩
        obtain same | listed := List.mem_cons.mp (roots_graft_subset mem)
        · exact differs same
        · exact new listed

/-- The node a graft leaves at an address: the one rewritten, one above it that it found or put
in, or any other as it was. -/
def grafted (g : Planting key) (above address : List κ) (f : Forest α) (other : List κ) :
    Option α :=
  if other = [] ∨ ¬other <+: address then f.get? key other
  else
    let found := (f.get? key other).getD (g.fresh (above ++ other))
    some (if other = address then g.rewrite found else found)

theorem get?_branch : (branch g above address).get? key other =
    grafted g above address nil other := by
  induction address generalizing above other with
  | nil =>
    rw [grafted, if_pos]
    · rfl
    · rw [List.prefix_nil]
      exact Decidable.em _
  | cons k below ih =>
    cases other with
    | nil => rfl
    | cons k' keys =>
      rw [branch, tree, get?, key_rewrite_if g, g.key_fresh]
      by_cases same : k = k'
      · obtain rfl := same
        rw [if_pos rfl]
        cases keys with
        | nil =>
          cases below <;> simp [grafted, get?]
        | cons k' keys =>
          rw [if_neg (List.cons_ne_nil _ _), ih, grafted, grafted]
          simp [get?]
      · rw [if_neg same, get?, grafted, if_pos]
        · rfl
        · exact Or.inr fun begins => same (List.cons_prefix_cons.mp begins).1.symm

/-- **What a graft changes.** -/
theorem get?_graft : (f.graft g above address).get? key other =
    grafted g above address f other := by
  induction f generalizing above address other with
  | nil =>
    cases address with
    | nil =>
      rw [graft_nil, grafted, if_pos]
      rw [List.prefix_nil]
      exact Decidable.em _
    | cons k below => exact get?_branch
  | cons a children rest inner after =>
    cases address with
    | nil =>
      rw [graft_nil, grafted, if_pos]
      rw [List.prefix_nil]
      exact Decidable.em _
    | cons k below =>
      cases other with
      | nil =>
        rw [get?_nil_right, grafted, if_pos (Or.inl rfl), get?_nil_right]
      | cons k' keys =>
        rw [graft]
        split
        · next here =>
          obtain rfl := here
          rw [get?, key_rewrite_if g]
          by_cases same : key a = k'
          · obtain rfl := same
            rw [if_pos rfl]
            cases keys with
            | nil => cases below <;> simp [grafted, get?]
            | cons k' keys =>
              rw [if_neg (List.cons_ne_nil _ _), inner, grafted, grafted]
              simp [get?]
          · rw [if_neg same, grafted, if_pos, get?, if_neg same]
            exact Or.inr fun begins => same (List.cons_prefix_cons.mp begins).1.symm
        · next elsewhere =>
          rw [get?]
          by_cases same : key a = k'
          · obtain rfl := same
            have other : ¬key a :: keys <+: k :: below :=
              fun begins => elsewhere (List.cons_prefix_cons.mp begins).1
            rw [if_pos rfl, grafted, if_pos (Or.inr other), get?, if_pos rfl]
          · rw [if_neg same, after, grafted, grafted, get?, if_neg same]

end Graft

end Forest
