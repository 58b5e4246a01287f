import Mathlib.Data.List.Basic
import Mathlib.Data.List.Nodup

/-!
# Tables with a primary key

A `Table` lists its rows and carries the proof that no two share a key, so an
insertion has to show that its key is new and an update that it keeps keys.
Rows keep their insertion order, which is what an unordered query returns.
The lemmas say what a lookup by key finds after each operation. A `Dict` is a
table of values by key.
-/

universe u v

theorem nodup_map_append_singleton {κ : Type u} {ρ : Type v} {key : ρ → κ} {rows : List ρ}
    {r : ρ} (nodup : (rows.map key).Nodup) (fresh : ∀ q ∈ rows, key q ≠ key r) :
    ((rows ++ [r]).map key).Nodup := by
  rw [List.map_append, List.map_singleton, List.nodup_append]
  refine ⟨nodup, List.pairwise_singleton _ _, ?_⟩
  intro k old _ new same
  obtain ⟨q, hq, rfl⟩ := List.mem_map.mp old
  rw [List.mem_singleton] at new
  exact fresh q hq (same.trans new)

theorem filter_eq_singleton {κ : Type u} {ρ : Type v} {key : ρ → κ} {rows : List ρ} {r : ρ}
    {p : ρ → Bool} (nodup : (rows.map key).Nodup) (mem : r ∈ rows) (passes : p r = true)
    (only : ∀ q ∈ rows, p q = true → key q = key r) : rows.filter p = [r] := by
  obtain ⟨before, after, rfl⟩ := List.append_of_mem mem
  rw [List.map_append, List.map_cons, List.nodup_append, List.nodup_cons] at nodup
  have first : before.filter p = [] := by
    refine List.filter_eq_nil_iff.mpr fun q listed hit => ?_
    have same := only q (List.mem_append_left _ listed) hit
    exact nodup.2.2 _ (List.mem_map_of_mem listed) _ List.mem_cons_self same
  have last : after.filter p = [] := by
    refine List.filter_eq_nil_iff.mpr fun q listed hit => ?_
    have same := only q (List.mem_append_right _ (List.mem_cons_of_mem _ listed)) hit
    exact nodup.2.1.1 (same ▸ List.mem_map_of_mem listed)
  rw [List.filter_append, List.filter_cons_of_pos passes, first, last, List.nil_append]

/-- Rows, no two of them with the same key. -/
structure Table (κ : Type u) {ρ : Type v} (key : ρ → κ) where
  rows : List ρ
  keys_nodup : (rows.map key).Nodup

namespace Table

variable {κ : Type u} {ρ : Type v} {key : ρ → κ}

instance [DecidableEq ρ] : DecidableEq (Table κ key) := fun t u =>
  decidable_of_iff (t.rows = u.rows) (by cases t; cases u; simp)

def empty : Table κ key := ⟨[], List.nodup_nil⟩

@[simp] theorem rows_empty : (empty : Table κ key).rows = [] := rfl

section Update

/-- `UPDATE`: rewrite the rows the condition selects. The new row keeps its key. -/
def update (t : Table κ key) (p : ρ → Bool) (f : ρ → ρ) (keep : ∀ r, key (f r) = key r) :
    Table κ key where
  rows := t.rows.map fun r => if p r then f r else r
  keys_nodup := by
    have same : (key ∘ fun r => if p r then f r else r) = key := by
      funext r
      simp only [Function.comp_apply]
      split
      · exact keep r
      · rfl
    rw [List.map_map, same]
    exact t.keys_nodup

/-- `DELETE`: drop the rows the condition selects. -/
def delete (t : Table κ key) (p : ρ → Bool) : Table κ key where
  rows := t.rows.filter fun r => !p r
  keys_nodup := t.keys_nodup.sublist (List.filter_sublist.map key)

variable {t : Table κ key} {p : ρ → Bool} {f : ρ → ρ} {keep : ∀ r, key (f r) = key r}

theorem mem_update {r : ρ} :
    r ∈ (t.update p f keep).rows ↔ ∃ q ∈ t.rows, (if p q then f q else q) = r :=
  List.mem_map

theorem mem_delete {r : ρ} : r ∈ (t.delete p).rows ↔ r ∈ t.rows ∧ p r = false := by
  simp [delete]

theorem delete_of_absent (absent : ∀ r ∈ t.rows, p r = false) : t.delete p = t := by
  cases t with
  | mk rows keys_nodup =>
    have same : (rows.filter fun r => !p r) = rows :=
      List.filter_eq_self.mpr fun r listed => by rw [absent r listed, Bool.not_false]
    simp only [delete, same]

end Update

section Keys

variable [DecidableEq κ]

/-- The row with this key. -/
def find? (t : Table κ key) (k : κ) : Option ρ := t.rows.find? fun r => key r = k

/-- `INSERT`: the row is added last, and refused when its key is taken. -/
def insert? (t : Table κ key) (r : ρ) : Option (Table κ key) :=
  if fresh : key r ∉ t.rows.map key then
    some ⟨t.rows ++ [r], nodup_map_append_singleton t.keys_nodup fun q hq same =>
      fresh (List.mem_map.mpr ⟨q, hq, same⟩)⟩
  else none

/-- Put a row in the place of the one with its key, or add it. -/
def put (t : Table κ key) (r : ρ) : Table κ key where
  rows := (t.delete fun q => key q = key r).rows ++ [r]
  keys_nodup := nodup_map_append_singleton (t.delete _).keys_nodup fun q hq same => by
    simpa [same] using (mem_delete.mp hq).2

variable {t u : Table κ key} {p : ρ → Bool} {f : ρ → ρ} {keep : ∀ r, key (f r) = key r}
variable {r q : ρ} {k : κ}

theorem find?_eq_some : t.find? k = some r ↔ r ∈ t.rows ∧ key r = k := by
  constructor
  · intro h
    exact ⟨List.mem_of_find?_eq_some h, by simpa using List.find?_some h⟩
  · rintro ⟨mem, rfl⟩
    obtain ⟨q, hq⟩ : ∃ q, t.find? (key r) = some q :=
      Option.isSome_iff_exists.mp (List.find?_isSome.mpr ⟨r, mem, by simp⟩)
    have hkey : key q = key r := by simpa using List.find?_some hq
    rw [List.inj_on_of_nodup_map t.keys_nodup (List.mem_of_find?_eq_some hq) mem hkey] at hq
    exact hq

theorem find?_key (mem : r ∈ t.rows) : t.find? (key r) = some r :=
  find?_eq_some.mpr ⟨mem, rfl⟩

theorem find?_eq_none : t.find? k = none ↔ ∀ r ∈ t.rows, key r ≠ k := by
  simp [find?]

@[simp] theorem find?_empty : (empty : Table κ key).find? k = none := rfl

theorem find?_update :
    (t.update p f keep).find? k = (t.find? k).map fun r => if p r then f r else r := by
  have same : ∀ r, key (if p r then f r else r) = key r := by
    intro r
    split
    · exact keep r
    · rfl
  cases h : t.find? k with
  | none =>
    rw [find?_eq_none] at h
    rw [Option.map_none, find?_eq_none]
    intro r hr
    obtain ⟨q, hq, rfl⟩ := mem_update.mp hr
    rw [same]
    exact h q hq
  | some r =>
    obtain ⟨mem, rfl⟩ := find?_eq_some.mp h
    exact find?_eq_some.mpr ⟨mem_update.mpr ⟨r, mem, rfl⟩, same r⟩

theorem insert?_eq_some : t.insert? r = some u ↔
    t.find? (key r) = none ∧ u.rows = t.rows ++ [r] := by
  unfold insert?
  rw [find?_eq_none]
  split
  · next fresh =>
    constructor
    · intro h
      cases h
      exact ⟨fun q hq same => fresh (List.mem_map.mpr ⟨q, hq, same⟩), rfl⟩
    · rintro ⟨-, hrows⟩
      cases u
      cases hrows
      rfl
  · next taken =>
    constructor
    · intro h
      cases h
    · rintro ⟨fresh, -⟩
      obtain ⟨q, hq, same⟩ := List.mem_map.mp (not_not.mp taken)
      exact absurd same (fresh q hq)

theorem insert?_eq_none : t.insert? r = none ↔ (t.find? (key r)).isSome := by
  unfold insert?
  rw [Option.isSome_iff_ne_none, Ne, find?_eq_none]
  split
  · next fresh =>
    refine ⟨nofun, fun taken => absurd ?_ taken⟩
    exact fun q hq same => fresh (List.mem_map.mpr ⟨q, hq, same⟩)
  · next taken =>
    refine ⟨fun _ fresh => taken fun mem => ?_, fun _ => rfl⟩
    obtain ⟨q, hq, same⟩ := List.mem_map.mp mem
    exact fresh q hq same

theorem find?_insert? (h : t.insert? r = some u) :
    u.find? k = if key r = k then some r else t.find? k := by
  obtain ⟨fresh, hrows⟩ := insert?_eq_some.mp h
  split
  · next hk =>
    rw [find?_eq_some, hrows]
    exact ⟨List.mem_append_right _ (List.mem_singleton_self r), hk⟩
  · next hk => simp [find?, hrows, List.find?_append, hk]

theorem find?_insert?_of_some (h : t.insert? r = some u) (found : t.find? k = some q) :
    u.find? k = some q := by
  rw [find?_insert? h, if_neg, found]
  rintro rfl
  rw [(insert?_eq_some.mp h).1] at found
  cases found

theorem isSome_find?_insert? (h : t.insert? r = some u) (found : (t.find? k).isSome) :
    (u.find? k).isSome := by
  rw [find?_insert? h]
  split
  · rfl
  · exact found

theorem isSome_find?_self (h : t.insert? r = some u) : (u.find? (key r)).isSome := by
  rw [find?_insert? h, if_pos rfl]
  rfl

@[simp] theorem isSome_find?_update :
    ((t.update p f keep).find? k).isSome = (t.find? k).isSome := by
  rw [find?_update, Option.isSome_map]

theorem find?_delete : (t.delete p).find? k = (t.find? k).filter fun r => !p r := by
  cases h : t.find? k with
  | none =>
    rw [find?_eq_none] at h
    rw [Option.filter_none, find?_eq_none]
    exact fun r hr => h r (mem_delete.mp hr).1
  | some r =>
    obtain ⟨mem, rfl⟩ := find?_eq_some.mp h
    cases hp : p r with
    | false =>
      simp only [Option.filter_some, hp, Bool.not_false, if_true]
      exact find?_key (mem_delete.mpr ⟨mem, hp⟩)
    | true =>
      simp only [Option.filter_some, hp, Bool.not_true, Bool.false_eq_true, if_false]
      refine find?_eq_none.mpr fun q hq same => ?_
      obtain ⟨hq, hpq⟩ := mem_delete.mp hq
      rw [List.inj_on_of_nodup_map t.keys_nodup hq mem same, hp] at hpq
      cases hpq

theorem find?_delete_of_ne {k' : κ} (other : k' ≠ k) :
    (t.delete fun r => key r = k).find? k' = t.find? k' := by
  rw [find?_delete]
  cases h : t.find? k' with
  | none => rfl
  | some r =>
    obtain ⟨-, rfl⟩ := find?_eq_some.mp h
    simp [Option.filter_some, other]

theorem find?_delete_self : (t.delete fun r => key r = k).find? k = none := by
  refine find?_eq_none.mpr fun r hr same => ?_
  simpa [same] using (mem_delete.mp hr).2

theorem length_delete_key (t : Table κ key) (mem : r ∈ t.rows) :
    (t.delete fun q => key q = key r).rows.length + 1 = t.rows.length := by
  obtain ⟨before, after, split⟩ := List.append_of_mem mem
  have nodup := t.keys_nodup
  rw [split, List.map_append, List.map_cons, List.nodup_append] at nodup
  obtain ⟨-, nodup, apart⟩ := nodup
  have stays : ∀ q ∈ before, (!decide (key q = key r)) = true := by
    intro q hq
    simpa using apart (key q) (List.mem_map_of_mem hq) (key r) List.mem_cons_self
  have follows : ∀ q ∈ after, (!decide (key q = key r)) = true := by
    intro q hq
    have other : key q ≠ key r := by
      intro same
      exact (List.nodup_cons.mp nodup).1 (same ▸ List.mem_map_of_mem hq)
    simpa using other
  show (t.rows.filter _).length + 1 = _
  rw [split, List.filter_append, List.filter_cons, List.filter_eq_self.mpr stays,
    List.filter_eq_self.mpr follows]
  simp
  omega

theorem mem_put : q ∈ (t.put r).rows ↔ q ∈ t.rows ∧ key q ≠ key r ∨ q = r := by
  show q ∈ (t.delete _).rows ++ [r] ↔ _
  rw [List.mem_append, mem_delete, List.mem_singleton, decide_eq_false_iff_not]

theorem find?_put : (t.put r).find? k = if key r = k then some r else t.find? k := by
  split
  · next same =>
    exact find?_eq_some.mpr ⟨List.mem_append_right _ (List.mem_singleton_self r), same⟩
  · next other =>
    have kept : (t.delete fun q => key q = key r).find? k = t.find? k := by
      rw [find?_delete]
      cases h : t.find? k with
      | none => rfl
      | some q =>
        obtain ⟨-, rfl⟩ := find?_eq_some.mp h
        simp [Option.filter_some, Ne.symm other]
    rw [← kept]
    simp [find?, put, List.find?_append, other]

end Keys

end Table

/-- Values by key, in the order the keys came. -/
abbrev Dict (κ : Type u) (ν : Type v) : Type (max u v) := Table κ (Prod.fst : κ × ν → κ)

namespace Dict

variable {κ : Type u} {ν : Type v} [DecidableEq κ]

def get (d : Dict κ ν) (k : κ) : Option ν := (d.find? k).map Prod.snd

/-- Change the value of a key, which is `default` where there is none yet. -/
def alter (d : Dict κ ν) (k : κ) (default : ν) (f : ν → ν) : Dict κ ν :=
  match d.insert? (k, f default) with
  | some d => d
  | none => d.update (fun r => r.1 = k) (fun r => (r.1, f r.2)) fun _ => rfl

/-- The same keys, with other values. -/
def mapValues {ν' : Type*} (d : Dict κ ν) (f : κ → ν → ν') : Dict κ ν' where
  rows := d.rows.map fun r => (r.1, f r.1 r.2)
  keys_nodup := by
    rw [List.map_map]
    exact d.keys_nodup

variable {d : Dict κ ν} {k k' : κ} {default : ν} {f : ν → ν} {value : ν}

@[simp] theorem get_empty : get (Table.empty : Dict κ ν) k = none := rfl

theorem get_alter : (d.alter k default f).get k' =
    if k' = k then some (f ((d.get k).getD default)) else d.get k' := by
  rw [alter]
  split
  · next e inserted =>
    obtain ⟨fresh, -⟩ := Table.insert?_eq_some.mp inserted
    have absent : d.get k = none := by rw [get, fresh, Option.map_none]
    rw [get, Table.find?_insert? inserted, absent]
    by_cases same : k = k'
    · rw [if_pos same, if_pos same.symm]
      rfl
    · rw [if_neg same, if_neg (Ne.symm same)]
      rfl
  · next taken =>
    obtain ⟨⟨key, value⟩, found⟩ := Option.isSome_iff_exists.mp (Table.insert?_eq_none.mp taken)
    obtain ⟨mem, rfl⟩ := Table.find?_eq_some.mp found
    rw [get, Table.find?_update, get, found]
    by_cases same : k' = key
    · subst same
      rw [found, if_pos rfl]
      simp
    · rw [if_neg same, get]
      cases other : d.find? k' with
      | none => rfl
      | some r =>
        obtain ⟨-, rfl⟩ := Table.find?_eq_some.mp other
        simp [same]

theorem rows_alter_of_isSome (h : (d.get k).isSome) :
    (d.alter k default f).rows = d.rows.map fun r => if r.1 = k then (r.1, f r.2) else r := by
  have taken : d.insert? (k, f default) = none := by
    rw [Table.insert?_eq_none]
    rwa [get, Option.isSome_map] at h
  rw [alter, taken]
  simp [Table.update]

theorem rows_alter_of_eq_none (h : d.get k = none) :
    (d.alter k default f).rows = d.rows ++ [(k, f default)] := by
  rw [get, Option.map_eq_none_iff] at h
  cases inserted : d.insert? (k, f default) with
  | none =>
    rw [Table.insert?_eq_none, h] at inserted
    cases inserted
  | some e =>
    rw [alter, inserted]
    exact (Table.insert?_eq_some.mp inserted).2

theorem exists_rows_alter_cons {rest : List (κ × ν)} (h : d.rows = (k', value) :: rest) :
    ∃ value' rest', (d.alter k default f).rows = (k', value') :: rest' := by
  by_cases known : (d.get k).isSome
  · rw [rows_alter_of_isSome known, h, List.map_cons]
    split
    · exact ⟨_, _, rfl⟩
    · exact ⟨_, _, rfl⟩
  · cases inserted : d.insert? (k, f default) with
    | none =>
      rw [get, Option.isSome_map] at known
      exact absurd (Table.insert?_eq_none.mp inserted) known
    | some e =>
      obtain ⟨-, rows⟩ := Table.insert?_eq_some.mp inserted
      rw [alter, inserted]
      exact ⟨value, rest ++ [(k, f default)], by simp [rows, h]⟩

theorem get_mapValues {ν' : Type*} {g : κ → ν → ν'} :
    (d.mapValues g).get k = (d.get k).map (g k) := by
  cases h : d.find? k with
  | none =>
    rw [get, get, h, Option.map_none, Option.map_none, Option.map_eq_none_iff, Table.find?_eq_none]
    intro r mem
    obtain ⟨q, hq, rfl⟩ := List.mem_map.mp mem
    exact Table.find?_eq_none.mp h q hq
  | some r =>
    obtain ⟨mem, rfl⟩ := Table.find?_eq_some.mp h
    have kept : (d.mapValues g).find? r.1 = some (r.1, g r.1 r.2) :=
      Table.find?_eq_some.mpr ⟨List.mem_map_of_mem mem, rfl⟩
    rw [get, get, h, kept]
    rfl

theorem get_eq_some : d.get k = some value ↔ (k, value) ∈ d.rows := by
  rw [get, Option.map_eq_some_iff]
  constructor
  · rintro ⟨⟨key, v⟩, found, rfl⟩
    obtain ⟨mem, rfl⟩ := Table.find?_eq_some.mp found
    exact mem
  · intro mem
    exact ⟨(k, value), Table.find?_key mem, rfl⟩

theorem get_put :
    Dict.get (Table.put d (k, value)) k' = if k = k' then some value else d.get k' := by
  rw [get, Table.find?_put]
  split
  · rfl
  · rfl

theorem get_delete_key :
    Dict.get (Table.delete d fun r => r.1 = k) k' = if k = k' then none else d.get k' := by
  split
  · next same =>
    cases same
    rw [get, Table.find?_delete_self, Option.map_none]
  · next other => rw [get, Table.find?_delete_of_ne (Ne.symm other), ← get]

end Dict
