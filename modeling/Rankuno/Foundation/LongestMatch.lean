import Mathlib.Data.List.MinMax

/-!
# The longest rule that applies

A list of rules that allow or disallow decides by the longest one that applies, an
allowing one before a disallowing one of the same length. The decision does not depend
on the order of the rules. What a further list changes of it is said by one rule: the
longest on its side that no rule of the other side keeps back.
-/

universe u

namespace LongestMatch

variable {ρ : Type u} (applies : ρ → Prop) (length : ρ → Nat) (allow : ρ → Bool)

/-- No rule applies, or the longest one that does, an allowing one first, allows. -/
def Permits (rules : List ρ) : Prop :=
  (∀ rule ∈ rules, ¬applies rule) ∨ ∃ rule ∈ rules, applies rule ∧ allow rule = true ∧
      ∀ other ∈ rules, applies other → length other ≤ length rule

/-- The first rule goes before the second, which decides otherwise. -/
def KeepsBack (rule other : ρ) : Prop :=
  if allow rule then length other ≤ length rule else length other < length rule

/-- Among the further rules is one that applies, decides otherwise than the first rules
do, and goes before every rule that applies and decides otherwise than it does. -/
def Overrules (rules more : List ρ) : Prop :=
  ∃ rule ∈ more, applies rule ∧ ¬(Permits applies length allow rules ↔ allow rule = true) ∧
    ∀ other ∈ rules ++ more, applies other → allow other ≠ allow rule →
      KeepsBack length allow rule other

/-- The winner of a list, rule by rule. -/
def better (winner : Option ρ) (rule : ρ) : Option ρ :=
  match winner with
  | none => some rule
  | some best =>
    if length best < length rule then some rule
    else if length rule = length best && allow rule then some rule
    else some best

variable {applies length allow} {rules more : List ρ}

theorem permits_iff : Permits applies length allow rules ↔
    ∀ rule ∈ rules, applies rule → allow rule = false →
      ∃ other ∈ rules, applies other ∧ allow other = true ∧ length rule ≤ length other := by
  constructor
  · rintro (free | ⟨winner, listed, hit, allows, longest⟩) rule mem applied denies
    · exact absurd applied (free rule mem)
    · exact ⟨winner, listed, hit, allows, longest rule mem applied⟩
  · intro matched
    classical
    cases longest : (rules.filter fun rule => applies rule ∧ allow rule = true).argmax length with
    | none =>
      rw [List.argmax_eq_none, List.filter_eq_nil_iff] at longest
      refine Or.inl fun rule mem applied => ?_
      have denying : ∀ other ∈ rules, applies other → allow other = false := by
        intro other listed hit
        have := longest other listed
        simpa [hit] using this
      obtain ⟨other, listed, hit, allows, -⟩ :=
        matched rule mem applied (denying rule mem applied)
      rw [denying other listed hit] at allows
      cases allows
    | some winner =>
      have mem := List.argmax_mem longest
      rw [List.mem_filter, decide_eq_true_iff] at mem
      refine Or.inr ⟨winner, mem.1, mem.2.1, mem.2.2, fun other listed hit => ?_⟩
      have ahead : ∀ other ∈ rules, applies other → allow other = true →
          length other ≤ length winner := by
        intro other listed hit allows
        refine List.le_of_mem_argmax (List.mem_filter.mpr ⟨listed, ?_⟩) longest
        exact decide_eq_true ⟨hit, allows⟩
      cases allows : allow other with
      | true => exact ahead other listed hit allows
      | false =>
        obtain ⟨third, listed, hit, allows, as_long⟩ := matched other listed hit allows
        exact as_long.trans (ahead third listed hit allows)

theorem not_permits_iff : ¬Permits applies length allow rules ↔
    ∃ rule ∈ rules, applies rule ∧ allow rule = false ∧
      ∀ other ∈ rules, applies other → allow other = true → length other < length rule := by
  rw [permits_iff]
  push Not
  rfl

/-- **What further rules change.** They leave the decision as it is exactly if they do
not overrule it. -/
theorem permits_append_iff :
    (Permits applies length allow rules ↔ Permits applies length allow (rules ++ more)) ↔
      ¬Overrules applies length allow rules more := by
  constructor
  · rintro same ⟨rule, listed, hit, otherwise, first⟩
    cases allows : allow rule with
    | true =>
      refine otherwise (iff_of_true (same.mpr (permits_iff.mpr ?_)) allows)
      intro other mem applied denies
      have kept := first other mem applied (by simp [denies, allows])
      rw [KeepsBack, if_pos allows] at kept
      exact ⟨rule, List.mem_append_right rules listed, hit, allows, kept⟩
    | false =>
      refine otherwise (iff_of_false (same.not.mpr (not_permits_iff.mpr ?_)) (by simp [allows]))
      refine ⟨rule, List.mem_append_right rules listed, hit, allows, ?_⟩
      intro other mem applied other_allows
      have kept := first other mem applied (by simp [other_allows, allows])
      rwa [KeepsBack, if_neg (by simp [allows])] at kept
  · intro kept
    by_contra differ
    refine kept ?_
    by_cases permits : Permits applies length allow rules
    · have denied : ¬Permits applies length allow (rules ++ more) := fun all =>
        differ (iff_of_true permits all)
      obtain ⟨rule, mem, hit, denies, first⟩ := not_permits_iff.mp denied
      have more : rule ∈ more := by
        refine (List.mem_append.mp mem).resolve_left fun own => ?_
        obtain ⟨other, listed, applied, allows, longer⟩ :=
          permits_iff.mp permits rule own hit denies
        have := first other (List.mem_append_left _ listed) applied allows
        omega
      refine ⟨rule, more, hit, fun same => ?_, fun other mem applied opposite => ?_⟩
      · rw [denies] at same
        cases same.mp permits
      · rw [KeepsBack, if_neg (by simp [denies])]
        rw [denies, ne_eq, Bool.not_eq_false] at opposite
        exact first other mem applied opposite
    · have permitted : Permits applies length allow (rules ++ more) := by
        by_contra denied
        exact differ (iff_of_false permits denied)
      obtain ⟨denying, own, denier_hit, denies, first⟩ := not_permits_iff.mp permits
      obtain free | ⟨winner, mem, hit, allows, longest⟩ := permitted
      · exact absurd denier_hit (free denying (List.mem_append_left _ own))
      · have more : winner ∈ more := by
          refine (List.mem_append.mp mem).resolve_left fun listed => ?_
          have shorter := first winner listed hit allows
          have := longest denying (List.mem_append_left _ own) denier_hit
          omega
        refine ⟨winner, more, hit, fun same => permits (same.mpr allows), ?_⟩
        intro other mem applied _
        rw [KeepsBack, if_pos allows]
        exact longest other mem applied

variable (length allow) in
theorem foldl_better_spec (rules : List ρ) :
    (rules.foldl (better length allow) none = none ∧ rules = []) ∨
      ∃ winner, rules.foldl (better length allow) none = some winner ∧ winner ∈ rules ∧
        ∀ other ∈ rules, length other ≤ length winner ∧
          (length other = length winner → allow other = true → allow winner = true) := by
  induction rules using List.reverseRecOn with
  | nil => exact Or.inl ⟨rfl, rfl⟩
  | append_singleton rules rule ih =>
    refine Or.inr ?_
    rw [List.foldl_append, List.foldl_cons, List.foldl_nil]
    rcases ih with ⟨empty, rfl⟩ | ⟨best, won, listed, ahead⟩
    · rw [empty]
      refine ⟨rule, rfl, List.mem_append_right _ (List.mem_singleton_self _), ?_⟩
      intro other mem
      obtain rfl := List.mem_singleton.mp mem
      exact ⟨Nat.le_refl _, fun _ allows => allows⟩
    · rw [won, better]
      split
      · next longer =>
        refine ⟨rule, rfl, List.mem_append_right _ (List.mem_singleton_self _), ?_⟩
        intro other mem
        rcases List.mem_append.mp mem with mem | mem
        · have := (ahead other mem).1
          exact ⟨by omega, fun same => by omega⟩
        · obtain rfl := List.mem_singleton.mp mem
          exact ⟨Nat.le_refl _, fun _ allows => allows⟩
      · next shorter =>
        split
        · next tie =>
          rw [Bool.and_eq_true, decide_eq_true_iff] at tie
          refine ⟨rule, rfl, List.mem_append_right _ (List.mem_singleton_self _), ?_⟩
          intro other mem
          rcases List.mem_append.mp mem with mem | mem
          · exact ⟨tie.1 ▸ (ahead other mem).1, fun _ _ => tie.2⟩
          · obtain rfl := List.mem_singleton.mp mem
            exact ⟨Nat.le_refl _, fun _ allows => allows⟩
        · next loses =>
          refine ⟨best, rfl, List.mem_append_left _ listed, ?_⟩
          intro other mem
          rcases List.mem_append.mp mem with mem | mem
          · exact ahead other mem
          · obtain rfl := List.mem_singleton.mp mem
            refine ⟨by omega, fun same allows => absurd ?_ loses⟩
            rw [Bool.and_eq_true, decide_eq_true_iff]
            exact ⟨same, allows⟩

theorem permits_iff_winner {p : ρ → Bool} :
    ((rules.filter p).foldl (better length allow) none).all allow = true ↔
      Permits (fun rule => p rule = true) length allow rules := by
  rcases foldl_better_spec length allow (rules.filter p) with
    ⟨unwon, empty⟩ | ⟨winner, won, listed, ahead⟩
  · rw [unwon]
    rw [List.filter_eq_nil_iff] at empty
    exact iff_of_true rfl (Or.inl empty)
  · rw [won, Option.all_some]
    rw [List.mem_filter] at listed
    constructor
    · intro allows
      refine Or.inr ⟨winner, listed.1, listed.2, allows, fun other mem hit => ?_⟩
      exact (ahead other (List.mem_filter.mpr ⟨mem, hit⟩)).1
    · rintro (free | ⟨rule, mem, hit, allows, longest⟩)
      · exact absurd listed.2 (free winner listed.1)
      · have behind := ahead rule (List.mem_filter.mpr ⟨mem, hit⟩)
        have := longest winner listed.1 listed.2
        exact behind.2 (by omega) allows

end LongestMatch
