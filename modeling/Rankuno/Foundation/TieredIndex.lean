import Mathlib.Data.List.Induction

/-!
# Keys claimed tier by tier

Owners claim keys, in tiers of falling authority. An index over one tier keeps
the first claim of each key and the keys claimed again; merging the tiers gives
each key to the strongest tier that has a claim of it, and refuses it where that
tier has more than one. What the merged index answers is read off the claims
alone, in `verdictOf`.
-/

universe u v w

namespace TieredIndex

variable {κ : Type u} {ο : Type v} {τ : Type w} [DecidableEq κ]

/-- What an index says of a key. -/
inductive Verdict (ο : Type v) (τ : Type w) where
  | unknown
  | ambiguous
  | owned (owner : ο) (tier : τ)
  deriving DecidableEq

/-- A verdict, or what a weaker source says where it has none. -/
def Verdict.orElse : Verdict ο τ → Verdict ο τ → Verdict ο τ
  | .unknown, weaker => weaker
  | verdict, _ => verdict

/-- The claims of one tier, the first one of each key, and the keys with more. -/
structure Tier (κ : Type u) (ο : Type v) (τ : Type w) where
  owners : List (κ × ο) := []
  clashed : List κ := []
  label : τ

structure Index (κ : Type u) (ο : Type v) (τ : Type w) where
  owners : List (κ × ο × τ) := []
  ambiguous : List κ := []

def Tier.claim (tier : Tier κ ο τ) (claim : κ × ο) : Tier κ ο τ :=
  if (tier.owners.lookup claim.1).isSome then { tier with clashed := claim.1 :: tier.clashed }
  else { tier with owners := tier.owners ++ [claim] }

def Tier.ofClaims (claims : List (κ × ο)) (label : τ) : Tier κ ο τ :=
  claims.foldl Tier.claim { label }

/-- What the tier makes of a key it has an owner of. -/
def Tier.award (tier : Tier κ ο τ) (key : κ) (owner : ο) : Verdict ο τ :=
  if key ∈ tier.clashed then .ambiguous else .owned owner tier.label

def Tier.verdict (tier : Tier κ ο τ) (key : κ) : Verdict ο τ :=
  match tier.owners.lookup key with
  | none => .unknown
  | some owner => tier.award key owner

namespace Index

/-- A key already decided stays as it is. -/
def absorb (tier : Tier κ ο τ) (index : Index κ ο τ) (claim : κ × ο) : Index κ ο τ :=
  if (index.owners.lookup claim.1).isSome ∨ claim.1 ∈ index.ambiguous then index
  else if claim.1 ∈ tier.clashed then { index with ambiguous := claim.1 :: index.ambiguous }
  else { index with owners := index.owners ++ [(claim.1, claim.2, tier.label)] }

def addTier (index : Index κ ο τ) (tier : Tier κ ο τ) : Index κ ο τ :=
  tier.owners.foldl (absorb tier) index

def merge (tiers : List (Tier κ ο τ)) : Index κ ο τ := tiers.foldl addTier {}

def verdict (index : Index κ ο τ) (key : κ) : Verdict ο τ :=
  if key ∈ index.ambiguous then .ambiguous
  else
    match index.owners.lookup key with
    | none => .unknown
    | some (owner, label) => .owned owner label

end Index

/-- Who claims a key, in order. -/
def claimants (claims : List (κ × ο)) (key : κ) : List ο :=
  (claims.filter fun claim => claim.1 = key).map Prod.snd

/-- The verdict of a tier with these claimants. -/
def verdictIn (label : τ) : List ο → Verdict ο τ
  | [] => .unknown
  | [owner] => .owned owner label
  | _ :: _ :: _ => .ambiguous

/-- The strongest tier with a claim of the key decides. -/
def verdictOf (key : κ) : List (List (κ × ο) × τ) → Verdict ο τ
  | [] => .unknown
  | (claims, label) :: tiers =>
    (verdictIn label (claimants claims key)).orElse (verdictOf key tiers)

section Verdicts

variable {a b c : Verdict ο τ}

@[simp] theorem unknown_orElse : Verdict.orElse .unknown a = a := rfl

@[simp] theorem orElse_unknown : a.orElse .unknown = a := by
  cases a with
  | unknown => rfl
  | ambiguous => rfl
  | owned owner tier => rfl

theorem orElse_of_ne (h : a ≠ .unknown) : a.orElse b = a := by
  cases a with
  | unknown => exact absurd rfl h
  | ambiguous => rfl
  | owned owner tier => rfl

theorem orElse_assoc : (a.orElse b).orElse c = a.orElse (b.orElse c) := by
  cases a with
  | unknown => rfl
  | ambiguous => rfl
  | owned owner tier => rfl

end Verdicts

section Tiers

variable {claims : List (κ × ο)} {label : τ} {key : κ}

theorem lookup_append_singleton {α : Type v} {entries : List (κ × α)} {entry : κ × α} :
    (entries ++ [entry]).lookup key =
      (entries.lookup key).or (if key = entry.1 then some entry.2 else none) := by
  rw [List.lookup_append, List.lookup_cons, List.lookup_nil]
  by_cases same : key = entry.1
  · rw [beq_iff_eq.mpr same, if_pos same]
  · rw [beq_eq_false_iff_ne.mpr same, if_neg same]

theorem mem_claimants {owner : ο} : owner ∈ claimants claims key ↔ (key, owner) ∈ claims := by
  rw [claimants, List.mem_map]
  constructor
  · rintro ⟨claim, mem, rfl⟩
    obtain ⟨mem, same⟩ := List.mem_filter.mp mem
    exact of_decide_eq_true same ▸ mem
  · intro mem
    exact ⟨(key, owner), List.mem_filter.mpr ⟨mem, decide_eq_true rfl⟩, rfl⟩

theorem claimants_append_singleton (claim : κ × ο) : claimants (claims ++ [claim]) key =
    claimants claims key ++ if key = claim.1 then [claim.2] else [] := by
  rw [claimants, List.filter_append, List.map_append, ← claimants]
  by_cases same : key = claim.1
  · simp [same]
  · simp [same, Ne.symm same]

section Claim

variable {tier : Tier κ ο τ} {claim : κ × ο}

@[simp] theorem claim_label : (tier.claim claim).label = tier.label := by
  rw [Tier.claim]
  split
  · rfl
  · rfl

theorem lookup_claim : (tier.claim claim).owners.lookup key =
    (tier.owners.lookup key).or (if key = claim.1 then some claim.2 else none) := by
  rw [Tier.claim]
  split
  · next known =>
    by_cases same : key = claim.1
    · subst same
      rw [Option.or_of_isSome known]
    · rw [if_neg same, Option.or_none]
  · exact lookup_append_singleton

theorem mem_clashed_claim : key ∈ (tier.claim claim).clashed ↔
    key ∈ tier.clashed ∨ key = claim.1 ∧ (tier.owners.lookup key).isSome := by
  rw [Tier.claim]
  split
  · next known =>
    rw [List.mem_cons, or_comm]
    constructor
    · rintro (clash | rfl)
      · exact Or.inl clash
      · exact Or.inr ⟨rfl, known⟩
    · rintro (clash | ⟨same, -⟩)
      · exact Or.inl clash
      · exact Or.inr same
  · next fresh =>
    constructor
    · exact Or.inl
    · rintro (clash | ⟨rfl, known⟩)
      · exact clash
      · exact absurd known fresh

end Claim

theorem ofClaims_spec (claims : List (κ × ο)) (label : τ) (key : κ) :
    (Tier.ofClaims claims label).label = label ∧
      (Tier.ofClaims claims label).owners.lookup key = (claimants claims key).head? ∧
      (key ∈ (Tier.ofClaims claims label).clashed ↔ 1 < (claimants claims key).length) := by
  induction claims using List.reverseRecOn with
  | nil => exact ⟨rfl, rfl, by simp [Tier.ofClaims, claimants]⟩
  | append_singleton claims claim ih =>
    obtain ⟨hlabel, hfirst, hclashed⟩ := ih
    rw [Tier.ofClaims, List.foldl_append, List.foldl_cons, List.foldl_nil, ← Tier.ofClaims]
    refine ⟨claim_label.trans hlabel, ?_, ?_⟩
    · rw [lookup_claim, hfirst, claimants_append_singleton, List.head?_append]
      by_cases same : key = claim.1
      · simp [same]
      · simp [same]
    · rw [mem_clashed_claim, hclashed, hfirst, claimants_append_singleton]
      by_cases same : key = claim.1
      · cases claimants claims key with
        | nil => simp [same]
        | cons owner owners => simp [same]
      · simp [same]

theorem verdict_ofClaims :
    (Tier.ofClaims claims label).verdict key = verdictIn label (claimants claims key) := by
  obtain ⟨hlabel, hfirst, hclashed⟩ := ofClaims_spec claims label key
  rw [Tier.verdict, hfirst]
  match h : claimants claims key with
  | [] => rfl
  | [owner] =>
    have single : key ∉ (Tier.ofClaims claims label).clashed := by simp [hclashed, h]
    rw [List.head?_cons]
    simp only [Tier.award, if_neg single, hlabel, verdictIn]
  | _ :: _ :: _ =>
    have clash : key ∈ (Tier.ofClaims claims label).clashed := by simp [hclashed, h]
    rw [List.head?_cons]
    simp only [Tier.award, if_pos clash, verdictIn]

end Tiers

namespace Index

variable {index : Index κ ο τ} {tier : Tier κ ο τ} {claim : κ × ο} {key : κ}

theorem verdict_eq_unknown : index.verdict key = .unknown ↔
    ¬((index.owners.lookup key).isSome ∨ key ∈ index.ambiguous) := by
  rw [verdict]
  split
  · next refused => simp [refused]
  · next undecided =>
    cases index.owners.lookup key with
    | none => simp [undecided]
    | some owner => simp

theorem verdict_absorb : (index.absorb tier claim).verdict key =
    (index.verdict key).orElse (if key = claim.1 then tier.award key claim.2 else .unknown) := by
  by_cases same : key = claim.1
  · subst same
    rw [if_pos rfl]
    by_cases unknown : index.verdict claim.1 = .unknown
    · have undecided := verdict_eq_unknown.mp unknown
      obtain ⟨unlisted, unrefused⟩ := not_or.mp undecided
      rw [unknown, unknown_orElse, absorb, if_neg undecided, Tier.award]
      split
      · rw [verdict, if_pos List.mem_cons_self]
      · rw [verdict, if_neg unrefused, lookup_append_singleton, if_pos rfl,
          Option.not_isSome_iff_eq_none.mp unlisted]
        rfl
    · rw [orElse_of_ne unknown, absorb, if_pos]
      by_contra undecided
      exact unknown (verdict_eq_unknown.mpr undecided)
  · rw [if_neg same, orElse_unknown, absorb]
    split
    · rfl
    · split
      · simp [verdict, same]
      · rw [verdict, verdict, lookup_append_singleton, if_neg same, Option.or_none]

theorem verdict_addTier :
    (index.addTier tier).verdict key = (index.verdict key).orElse (tier.verdict key) := by
  have folded : ∀ (claims : List (κ × ο)) (index : Index κ ο τ),
      (claims.foldl (absorb tier) index).verdict key =
        (index.verdict key).orElse ((claims.lookup key).elim .unknown (tier.award key)) := by
    intro claims
    induction claims with
    | nil =>
      intro index
      exact orElse_unknown.symm
    | cons claim claims ih =>
      intro index
      rw [List.foldl_cons, ih, verdict_absorb, List.lookup_cons, orElse_assoc]
      congr 1
      by_cases same : key = claim.1
      · rw [if_pos same, beq_iff_eq.mpr same, orElse_of_ne]
        · rfl
        · rw [Tier.award]
          split
          · rintro ⟨⟩
          · rintro ⟨⟩
      · rw [if_neg same, beq_eq_false_iff_ne.mpr same, unknown_orElse]
  rw [addTier, folded, Tier.verdict]
  congr 1
  cases tier.owners.lookup key with
  | none => rfl
  | some owner => rfl

/-- **The merged index says of a key what the claims of it say.** -/
theorem verdict_merge (tiers : List (List (κ × ο) × τ)) :
    (merge (tiers.map fun tier => Tier.ofClaims tier.1 tier.2)).verdict key =
      verdictOf key tiers := by
  have folded : ∀ (tiers : List (List (κ × ο) × τ)) (index : Index κ ο τ),
      ((tiers.map fun tier => Tier.ofClaims tier.1 tier.2).foldl addTier index).verdict key =
        (index.verdict key).orElse (verdictOf key tiers) := by
    intro tiers
    induction tiers with
    | nil =>
      intro index
      exact orElse_unknown.symm
    | cons tier tiers ih =>
      intro index
      rw [List.map_cons, List.foldl_cons, ih, verdict_addTier, verdict_ofClaims, orElse_assoc]
      rfl
  exact folded tiers {}

end Index

section Verdicts

variable {key : κ} {tiers : List (List (κ × ο) × τ)} {owner : ο} {label : τ}

theorem verdictOf_eq_unknown :
    verdictOf key tiers = .unknown ↔ ∀ tier ∈ tiers, claimants tier.1 key = [] := by
  induction tiers with
  | nil => simp [verdictOf]
  | cons tier tiers ih =>
    rw [List.forall_mem_cons, ← ih, verdictOf]
    match claimants tier.1 key with
    | [] => simp [verdictIn]
    | [owner] => simp [verdictIn, Verdict.orElse]
    | _ :: _ :: _ => simp [verdictIn, Verdict.orElse]

/-- The owner is the only claimant of the key in the strongest tier with any. -/
def SoleClaimant (key : κ) (owner : ο) (label : τ) (tiers : List (List (κ × ο) × τ)) : Prop :=
  ∃ stronger claims weaker, tiers = stronger ++ (claims, label) :: weaker ∧
    (∀ tier ∈ stronger, claimants tier.1 key = []) ∧ claimants claims key = [owner]

theorem soleClaimant_cons {claims : List (κ × ο)} {tier : τ} :
    SoleClaimant key owner label ((claims, tier) :: tiers) ↔
      claimants claims key = [owner] ∧ tier = label ∨
        claimants claims key = [] ∧ SoleClaimant key owner label tiers := by
  constructor
  · rintro ⟨stronger, claims', weaker, split, unclaimed, sole⟩
    cases stronger with
    | nil =>
      cases split
      exact Or.inl ⟨sole, rfl⟩
    | cons first stronger =>
      cases split
      obtain ⟨none, unclaimed⟩ := List.forall_mem_cons.mp unclaimed
      exact Or.inr ⟨none, stronger, claims', weaker, rfl, unclaimed, sole⟩
  · rintro (⟨sole, rfl⟩ | ⟨none, stronger, claims', weaker, rfl, unclaimed, sole⟩)
    · exact ⟨[], claims, tiers, rfl, List.forall_mem_nil _, sole⟩
    · exact ⟨(claims, tier) :: stronger, claims', weaker, rfl,
        List.forall_mem_cons.mpr ⟨none, unclaimed⟩, sole⟩

theorem verdictOf_eq_owned :
    verdictOf key tiers = .owned owner label ↔ SoleClaimant key owner label tiers := by
  induction tiers with
  | nil => simp [verdictOf, SoleClaimant]
  | cons tier tiers ih =>
    obtain ⟨claims, tier⟩ := tier
    rw [soleClaimant_cons, ← ih, verdictOf]
    match claimants claims key with
    | [] => simp [verdictIn]
    | [_] => simp [verdictIn, Verdict.orElse]
    | _ :: _ :: _ => simp [verdictIn, Verdict.orElse]

/-- Of several verdicts the first that is not unknown decides, and names an owner
or none. -/
def firstOwner : List (Verdict ο τ) → Option ο
  | [] => none
  | .unknown :: verdicts => firstOwner verdicts
  | .ambiguous :: _ => none
  | .owned owner _ :: _ => some owner

theorem firstOwner_eq_some {verdicts : List (Verdict ο τ)} : firstOwner verdicts = some owner ↔
    ∃ before label after, verdicts = before ++ .owned owner label :: after ∧
      ∀ verdict ∈ before, verdict = .unknown := by
  constructor
  · intro h
    induction verdicts with
    | nil => cases h
    | cons verdict verdicts ih =>
      cases verdict with
      | unknown =>
        obtain ⟨before, label, after, rfl, unknown⟩ := ih h
        exact ⟨.unknown :: before, label, after, rfl, List.forall_mem_cons.mpr ⟨rfl, unknown⟩⟩
      | ambiguous => cases h
      | owned first label =>
        cases h
        exact ⟨[], label, verdicts, rfl, List.forall_mem_nil _⟩
  · rintro ⟨before, label, after, rfl, unknown⟩
    induction before with
    | nil => rfl
    | cons verdict before ih =>
      obtain ⟨rfl, rest⟩ := List.forall_mem_cons.mp unknown
      exact ih rest

theorem SoleClaimant.mem (h : SoleClaimant key owner label tiers) :
    ∃ claims, (claims, label) ∈ tiers ∧ (key, owner) ∈ claims := by
  obtain ⟨stronger, claims, weaker, rfl, -, sole⟩ := h
  refine ⟨claims, by simp, mem_claimants.mp ?_⟩
  rw [sole]
  exact List.mem_singleton_self owner

end Verdicts

end TieredIndex
