import Mathlib.Data.List.DropRight
import Mathlib.Data.List.TakeWhile
import Rankuno.Python.Text

/-!
# What `partition` and `strip` leave

The parts of a text before and after a separator, and a text without the
characters at its ends. The lemmas say which characters a part can have, when a
text is its own part, and how a text is put together again.
-/

namespace Rankuno.Python.Text

section Partition

variable {sep c : Char} {s t u : Text}

theorem partition_of_notMem (h : sep ∉ s) : partition sep s = (s, none) := by
  induction s with
  | nil => rfl
  | cons c s ih =>
    rw [List.mem_cons, not_or] at h
    rw [partition, if_neg (Ne.symm h.1), ih h.2]

theorem partition_append_cons (h : sep ∉ s) (t : Text) :
    partition sep (s ++ sep :: t) = (s, some t) := by
  induction s with
  | nil => rw [List.nil_append, partition, if_pos rfl]
  | cons c s ih =>
    rw [List.mem_cons, not_or] at h
    rw [List.cons_append, partition, if_neg (Ne.symm h.1), ih h.2]

theorem exists_partition (h : sep ∈ s) :
    ∃ a b, sep ∉ a ∧ s = a ++ sep :: b ∧ partition sep s = (a, some b) := by
  obtain ⟨a, b, rfl, first⟩ := List.eq_append_cons_of_mem h
  exact ⟨a, b, first, rfl, partition_append_cons first b⟩

theorem notMem_partition_fst (sep : Char) (s : Text) : sep ∉ (partition sep s).1 := by
  induction s with
  | nil => exact List.not_mem_nil
  | cons c s ih =>
    rw [partition]
    split
    · exact List.not_mem_nil
    · next other =>
      rw [List.mem_cons, not_or]
      exact ⟨Ne.symm other, ih⟩

theorem mem_of_mem_partition_fst (h : c ∈ (partition sep s).1) : c ∈ s := by
  induction s with
  | nil => exact h
  | cons d s ih =>
    rw [partition] at h
    split at h
    · cases h
    · rw [List.mem_cons] at h ⊢
      exact h.imp_right ih

theorem partition_fst_prefix : (partition sep s).1 <+: s := by
  by_cases found : sep ∈ s
  · obtain ⟨a, b, -, rfl, cut⟩ := exists_partition found
    rw [cut]
    exact List.prefix_append a _
  · simp only [partition_of_notMem found, List.prefix_refl]

theorem partition_snd_eq_none : (partition sep s).2 = none ↔ sep ∉ s := by
  induction s with
  | nil => simp [partition]
  | cons d s ih =>
    rw [partition, List.mem_cons, not_or]
    split
    · next same => simp [same]
    · next other => rw [ih, and_iff_right (Ne.symm other)]

theorem mem_of_mem_partition_snd (h : (partition sep s).2 = some t) (mem : c ∈ t) : c ∈ s := by
  by_cases found : sep ∈ s
  · obtain ⟨a, b, -, rfl, parts⟩ := exists_partition found
    rw [parts] at h
    cases h
    exact List.mem_append_right _ (List.mem_cons_of_mem _ mem)
  · rw [partition_snd_eq_none.mpr found] at h
    cases h

theorem rpartition_of_notMem (h : sep ∉ s) : rpartition sep s = (none, s) := by
  rw [rpartition, partition_of_notMem fun mem => h (List.mem_reverse.mp mem)]

theorem notMem_of_rpartition_fst (h : (rpartition sep s).1 = none) : sep ∉ s := by
  intro mem
  obtain ⟨a, b, -, -, parts⟩ := exists_partition (List.mem_reverse.mpr mem)
  rw [rpartition, parts] at h
  cases h

theorem rpartition_append_cons (h : sep ∉ t) (s : Text) :
    rpartition sep (s ++ sep :: t) = (some s, t) := by
  have reversed : partition sep (s ++ sep :: t).reverse = (t.reverse, some s.reverse) := by
    rw [List.reverse_append, List.reverse_cons, List.append_assoc]
    exact partition_append_cons (fun mem => h (List.mem_reverse.mp mem)) _
  simp only [rpartition, reversed, List.reverse_reverse]

theorem eq_of_rpartition (h : rpartition sep s = (some t, u)) : s = t ++ sep :: u := by
  by_cases found : sep ∈ s
  · obtain ⟨a, b, first, whole, parts⟩ := exists_partition (List.mem_reverse.mpr found)
    rw [rpartition, parts] at h
    cases h
    rw [← List.reverse_reverse s, whole, List.reverse_append, List.reverse_cons, List.append_assoc]
    rfl
  · rw [rpartition_of_notMem found] at h
    cases h

theorem rpartition_append_snd (h : sep ∈ s) (t : Text) :
    (rpartition sep (t ++ s)).2 = (rpartition sep s).2 := by
  obtain ⟨a, b, first, whole, parts⟩ := exists_partition (List.mem_reverse.mpr h)
  have longer : partition sep (t ++ s).reverse = (a, some (b ++ t.reverse)) := by
    rw [List.reverse_append, whole, List.append_assoc, List.cons_append]
    exact partition_append_cons first _
  simp only [rpartition, parts, longer]

theorem partition_append_fst (h : sep ∉ s) (t : Text) :
    (partition sep (s ++ t)).1 = s ++ (partition sep t).1 := by
  by_cases found : sep ∈ t
  · obtain ⟨a, b, first, rfl, parts⟩ := exists_partition found
    have apart : sep ∉ s ++ a := by
      rw [List.mem_append, not_or]
      exact ⟨h, first⟩
    rw [parts, ← List.append_assoc, partition_append_cons apart]
  · have apart : sep ∉ s ++ t := by
      rw [List.mem_append, not_or]
      exact ⟨h, found⟩
    rw [partition_of_notMem found, partition_of_notMem apart]

end Partition

section Split

variable {sep c : Char} {s : Text}

theorem split_append_of_notMem (apart : sep ∉ s) (t : Text) :
    ∃ part parts, split sep t = part :: parts ∧ split sep (s ++ t) = (s ++ part) :: parts := by
  induction s with
  | nil =>
    cases cut : split sep t with
    | nil => exact absurd cut (split_ne_nil sep t)
    | cons part parts => exact ⟨part, parts, rfl, cut⟩
  | cons c s ih =>
    rw [List.mem_cons, not_or] at apart
    obtain ⟨part, parts, cut, whole⟩ := ih apart.2
    refine ⟨part, parts, cut, ?_⟩
    rw [List.cons_append, split, whole]
    exact if_neg (Ne.symm apart.1)

theorem split_append_sep (s t : Text) : split sep (s ++ sep :: t) = split sep s ++ split sep t := by
  induction s with
  | nil => exact split_append_cons List.not_mem_nil t
  | cons c s ih =>
    rw [List.cons_append, split, split, ih]
    cases cut : split sep s with
    | nil => exact absurd cut (split_ne_nil sep s)
    | cons part parts =>
      dsimp only [List.cons_append]
      split
      · rfl
      · rfl

theorem mem_of_mem_split {part : Text} (mem : part ∈ split sep s) (inside : c ∈ part) : c ∈ s := by
  induction s generalizing part with
  | nil =>
    rw [split, List.mem_singleton] at mem
    exact mem ▸ inside
  | cons d s ih =>
    rw [split] at mem
    cases cut : split sep s with
    | nil => exact absurd cut (split_ne_nil sep s)
    | cons first parts =>
      simp only [cut] at mem
      have later : ∀ {other : Text}, other ∈ parts → c ∈ other → c ∈ d :: s := fun listed held =>
        List.mem_cons_of_mem _ (ih (cut ▸ List.mem_cons_of_mem _ listed) held)
      have front : c ∈ first → c ∈ d :: s := fun held =>
        List.mem_cons_of_mem _ (ih (cut ▸ List.mem_cons_self) held)
      split at mem
      · rcases List.mem_cons.mp mem with rfl | mem
        · cases inside
        · rcases List.mem_cons.mp mem with rfl | mem
          · exact front inside
          · exact later mem inside
      · rcases List.mem_cons.mp mem with rfl | mem
        · rcases List.mem_cons.mp inside with rfl | inside
          · exact List.mem_cons_self
          · exact front inside
        · exact later mem inside

theorem split_head_prefix {part : Text} {parts : List Text} (cut : split sep s = part :: parts) :
    part <+: s := by
  by_cases found : sep ∈ s
  · obtain ⟨a, b, rfl, first⟩ := List.eq_append_cons_of_mem found
    rw [split_append_cons first] at cut
    cases cut
    exact List.prefix_append _ _
  · rw [split_of_notMem found] at cut
    cases cut
    exact List.prefix_refl _

theorem join_append_cons {texts : List Text} (filled : texts ≠ []) (text : Text)
    (more : List Text) :
    join [sep] (texts ++ text :: more) = join [sep] texts ++ sep :: join [sep] (text :: more) := by
  induction texts with
  | nil => exact absurd rfl filled
  | cons first texts ih =>
    cases texts with
    | nil =>
      have alone : join [sep] [first] = first := List.intercalate_singleton
      rw [alone, List.singleton_append, join, List.intercalate_cons_cons, List.append_assoc]
      rfl
    | cons next texts =>
      have front : join [sep] (first :: next :: texts) =
          first ++ [sep] ++ join [sep] (next :: texts) := List.intercalate_cons_cons
      have whole : join [sep] (first :: (next :: texts ++ text :: more)) =
          first ++ [sep] ++ join [sep] (next :: texts ++ text :: more) :=
        List.intercalate_cons_cons
      rw [List.cons_append, whole, ih (List.cons_ne_nil _ _), front, List.append_assoc,
        List.append_assoc, List.append_assoc]

theorem join_split (sep : Char) (s : Text) : join [sep] (split sep s) = s := by
  induction s with
  | nil => exact List.intercalate_singleton
  | cons c s ih =>
    rw [split]
    cases cut : split sep s with
    | nil => exact absurd cut (split_ne_nil sep s)
    | cons part parts =>
      rw [cut] at ih
      dsimp only
      split
      · next same =>
        have front : join [sep] ([] :: part :: parts) =
            [] ++ [sep] ++ join [sep] (part :: parts) := List.intercalate_cons_cons
        rw [front, ih, same]
        rfl
      · cases parts with
        | nil =>
          have alone (text : Text) : join [sep] [text] = text := List.intercalate_singleton
          rw [alone] at ih ⊢
          rw [ih]
        | cons next parts =>
          have front (text : Text) : join [sep] (text :: next :: parts) =
              text ++ sep :: join [sep] (next :: parts) := by
            rw [join, List.intercalate_cons_cons, List.append_assoc]
            rfl
          rw [front] at ih ⊢
          rw [List.cons_append, ih]

theorem split_prefix_split {s t : Text} : split sep s <+: split sep t ↔
    s = t ∨ s ++ [sep] <+: t := by
  constructor
  · rintro ⟨more, whole⟩
    cases more with
    | nil =>
      rw [List.append_nil] at whole
      exact Or.inl (by rw [← join_split sep s, whole, join_split])
    | cons text more =>
      refine Or.inr ⟨join [sep] (text :: more), ?_⟩
      rw [← join_split sep t, ← whole, join_append_cons (split_ne_nil sep s), join_split,
        List.append_assoc]
      rfl
  · rintro (rfl | ⟨rest, rfl⟩)
    · exact List.prefix_refl _
    · rw [List.append_assoc, List.singleton_append, split_append_sep]
      exact List.prefix_append _ _

theorem mem_join {texts : List Text} (mem : c ∈ join [sep] texts) :
    c = sep ∨ ∃ text ∈ texts, c ∈ text := by
  induction texts with
  | nil => cases mem
  | cons text texts ih =>
    cases texts with
    | nil =>
      have alone : join [sep] [text] = text := List.intercalate_singleton
      rw [alone] at mem
      exact Or.inr ⟨text, List.mem_cons_self, mem⟩
    | cons next more =>
      have longer : join [sep] (text :: next :: more) =
          text ++ [sep] ++ join [sep] (next :: more) := List.intercalate_cons_cons
      rw [longer, List.mem_append, List.mem_append, List.mem_singleton] at mem
      obtain (mem | same) | mem := mem
      · exact Or.inr ⟨text, List.mem_cons_self, mem⟩
      · exact Or.inl same
      · exact (ih mem).imp_right fun ⟨other, found, inside⟩ =>
          ⟨other, List.mem_cons_of_mem text found, inside⟩

end Split

section Strip

variable {p : Char → Bool} {c : Char} {s t : Text}

theorem rstrip_eq_rdropWhile : rstrip p s = s.rdropWhile p := rfl

theorem getLast?_rstrip (h : (rstrip p s).getLast? = some c) : p c = false := by
  rw [rstrip_eq_rdropWhile] at h
  have some : s.rdropWhile p ≠ [] := by
    intro empty
    rw [empty] at h
    cases h
  rw [List.getLast?_eq_some_getLast some, Option.some.injEq] at h
  rw [← h]
  exact Bool.eq_false_iff.mpr (List.rdropWhile_last_not p s some)

theorem rstrip_eq_self (h : ∀ c, s.getLast? = some c → p c = false) : rstrip p s = s := by
  rw [rstrip_eq_rdropWhile, List.rdropWhile_eq_self_iff]
  intro some
  rw [h _ (List.getLast?_eq_some_getLast some)]
  exact Bool.false_ne_true

theorem mem_of_mem_rstrip (h : c ∈ rstrip p s) : c ∈ s :=
  (List.rdropWhile_prefix p s).subset h

theorem rstrip_append_cons (stays : p c = false) (s t : Text) :
    rstrip p (s ++ c :: t) = s ++ c :: rstrip p t := by
  simp only [rstrip_eq_rdropWhile]
  induction t using List.reverseRecOn with
  | nil => rw [List.rdropWhile_concat_neg p s c (Bool.eq_false_iff.mp stays), List.rdropWhile_nil]
  | append_singleton t d ih =>
    rw [← List.cons_append, ← List.append_assoc]
    cases hd : p d with
    | true => rw [List.rdropWhile_concat_pos p _ d hd, ih, List.rdropWhile_concat_pos p t d hd]
    | false =>
      rw [List.rdropWhile_concat_neg p _ d (Bool.eq_false_iff.mp hd),
        List.rdropWhile_concat_neg p t d (Bool.eq_false_iff.mp hd), List.append_assoc,
        List.cons_append]

theorem mem_strip (mem : c ∈ s) (stays : p c = false) : c ∈ strip p s := by
  obtain ⟨a, b, rfl⟩ := List.append_of_mem mem
  have left : c ∈ lstrip p (a ++ c :: b) := by
    rw [lstrip, List.dropWhile_append]
    split
    · rw [List.dropWhile_cons_of_neg (Bool.eq_false_iff.mp stays)]
      exact List.mem_cons_self
    · exact List.mem_append_right _ List.mem_cons_self
  obtain ⟨a', b', whole⟩ := List.append_of_mem left
  rw [strip, whole, rstrip_append_cons stays]
  exact List.mem_append_right _ List.mem_cons_self

theorem first_strip {rest : Text} (h : strip p s = c :: rest) : p c = false ∧ c ∈ s := by
  obtain ⟨lost, whole⟩ : c :: rest <+: lstrip p s := h ▸ List.rdropWhile_prefix p _
  have some : s.dropWhile p ≠ [] := by
    intro empty
    rw [lstrip, empty] at whole
    cases whole
  have first := List.head_dropWhile_not p some
  have same : (s.dropWhile p).head some = c := by
    rw [← Option.some.injEq, ← List.head?_eq_some_head, ← lstrip, ← whole]
    rfl
  rw [same] at first
  refine ⟨by simpa using first, (List.dropWhile_sublist p).subset ?_⟩
  rw [← lstrip, ← whole]
  exact List.mem_cons_self

theorem last_strip (h : (strip p s).getLast? = some c) : p c = false := getLast?_rstrip h

theorem strip_eq_self (first : ∀ c, s.head? = some c → p c = false)
    (last : ∀ c, s.getLast? = some c → p c = false) : strip p s = s := by
  have kept : lstrip p s = s := by
    cases s with
    | nil => rfl
    | cons c s => exact List.dropWhile_cons_of_neg (Bool.eq_false_iff.mp (first c rfl))
  rw [strip, kept, rstrip_eq_self last]

theorem strip_strip (p : Char → Bool) (s : Text) : strip p (strip p s) = strip p s := by
  refine strip_eq_self (fun c h => ?_) fun c h => last_strip h
  obtain ⟨rest, whole⟩ := List.head?_eq_some_iff.mp h
  exact (first_strip whole).1

theorem mem_of_mem_strip (mem : c ∈ strip p s) : c ∈ s :=
  List.dropWhile_subset _ (mem_of_mem_rstrip mem)

theorem exists_of_head?_strip (first : (strip p s).head? = some c) :
    ∃ blanks rest, s = blanks ++ c :: rest ∧ ∀ d ∈ blanks, p d = true := by
  obtain ⟨left, whole⟩ := List.head?_eq_some_iff.mp first
  obtain ⟨lost, kept⟩ : c :: left <+: lstrip p s := whole ▸ List.rdropWhile_prefix p _
  refine ⟨s.takeWhile p, left ++ lost, ?_, fun d mem => List.mem_takeWhile_imp mem⟩
  rw [← List.cons_append, kept, lstrip, List.takeWhile_append_dropWhile]

end Strip

end Rankuno.Python.Text
