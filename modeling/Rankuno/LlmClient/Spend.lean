import Mathlib.Tactic.Linarith
import Mathlib.Tactic.Positivity
import Rankuno.LlmClient.Completion

/-!
# What the ledger of completions promises

The budget is read before a call and charged after it, so the ceiling holds for the
reported costs of calls whose worst cases fit in it together. A completion reserves its
worst case from the time it has passed its check to its charge; the runs in which what is
reserved always fits are those in which nothing paid for is refused.
-/

namespace Rankuno

theorem usdPerMtok_nonneg : 0 ≤ usdPerMtok := by
  norm_num [usdPerMtok]

namespace LLMUsage

theorem costUsd_nonneg (usage : LLMUsage) (pricing : TokenPricing) (batch : Bool) :
    0 ≤ usage.costUsd pricing batch := by
  have := pricing.input_nonneg
  have := pricing.output_nonneg
  have := pricing.cacheRead_nonneg
  have discount : 0 ≤ if batch then pricing.batchDiscount else 1 := by
    split
    · exact pricing.discount_nonneg
    · exact zero_le_one
  have := usdPerMtok_nonneg
  unfold costUsd
  positivity

end LLMUsage

theorem CostLedger.charge_eq_ok {ledger : CostLedger} {amount : ℚ} (nonneg : 0 ≤ amount)
    (fits : ledger.spentUsd + amount ≤ ledger.ceilingUsd) :
    ledger.charge amount = .ok { ledger with spentUsd := ledger.spentUsd + amount } := by
  rw [charge, if_neg (not_lt.mpr nonneg), if_neg (not_lt.mpr fits)]

namespace Completion

variable {call call' : Completion} {s s' : SpendState} {action : CompletionAction}
  {maxAttempts : Nat}

/-- What a call that has passed its check may still be charged. -/
def reservedUsd (call : Completion) : ℚ :=
  match call.stage with
  | .attempt _ | .awaiting _ | .charge _ => call.worstCaseUsd
  | _ => 0

/-- What the provider may bill for the attempt that is out. -/
def awaitedUsd (call : Completion) : ℚ :=
  match call.stage with
  | .awaiting _ => call.worstCaseUsd
  | _ => 0

/-- What a response has cost that is not charged yet. -/
def owedUsd (call : Completion) : ℚ :=
  match call.stage with
  | .charge usage => call.costUsd usage
  | _ => 0

/-- What a call was charged. -/
def chargedUsd (call : Completion) : ℚ :=
  match call.stage with
  | .ended (.returned _ costUsd) => costUsd
  | _ => 0

/-- A reported usage is about to be charged or was, and costs what it was charged. -/
def Accounted (call : Completion) : Prop :=
  match call.stage with
  | .charge usage => call.reported = some usage ∧ call.costUsd usage ≤ call.worstCaseUsd
  | .ended (.returned usage costUsd) =>
    call.reported = some usage ∧ costUsd = call.costUsd usage
  | _ => call.reported = none

theorem worstCaseUsd_nonneg (call : Completion) : 0 ≤ call.worstCaseUsd :=
  LLMUsage.costUsd_nonneg _ _ _

theorem costUsd_nonneg (call : Completion) (usage : LLMUsage) : 0 ≤ call.costUsd usage :=
  LLMUsage.costUsd_nonneg _ _ _

theorem reservedUsd_nonneg (call : Completion) : 0 ≤ call.reservedUsd := by
  have nonneg := call.worstCaseUsd_nonneg
  unfold reservedUsd
  split <;> first | exact nonneg | exact le_refl 0

theorem awaitedUsd_add_owedUsd_le (accounted : call.Accounted) :
    call.awaitedUsd + call.owedUsd ≤ call.reservedUsd := by
  have nonneg := call.worstCaseUsd_nonneg
  unfold awaitedUsd owedUsd reservedUsd
  unfold Accounted at accounted
  cases stage : call.stage with
  | attempt made => simpa only [add_zero] using nonneg
  | awaiting number => simp only [add_zero, le_refl]
  | charge usage =>
    rw [stage] at accounted
    simpa only [zero_add] using accounted.2
  | estimate | refused _ | ended _ => simp only [add_zero, le_refl]

/-- What the check of the budget reserves, where it lets the call through. -/
def admittedUsd (s : SpendState) (call : Completion) : CompletionAction → ℚ
  | .readBudget => if s.ledger.remainingUsd < call.worstCaseUsd then 0 else call.worstCaseUsd
  | _ => 0

/-- An attempt that fails costs nothing. -/
def Unbilled : CompletionAction → Prop
  | .failed _ billedUsd => billedUsd = 0
  | _ => True

/-- What a step does to the sums that the ledger is compared with. -/
structure Balanced (s : SpendState) (call : Completion) (action : CompletionAction)
    (s' : SpendState) (call' : Completion) : Prop where
  ceiling : s'.ledger.ceilingUsd = s.ledger.ceilingUsd
  charged : s'.ledger.spentUsd + call.chargedUsd = s.ledger.spentUsd + call'.chargedUsd
  billed : s'.billedUsd + (s.ledger.spentUsd + call.owedUsd) =
    s.billedUsd + (s'.ledger.spentUsd + call'.owedUsd)
  reserved : s'.ledger.spentUsd + call'.reservedUsd ≤
    s.ledger.spentUsd + call.reservedUsd + admittedUsd s call action
  accounted : call'.Accounted

theorem Balanced.of_same (charged : call'.chargedUsd = call.chargedUsd)
    (owed : call'.owedUsd = call.owedUsd)
    (reserved : call'.reservedUsd ≤ call.reservedUsd + admittedUsd s call action)
    (accounted : call'.Accounted) : Balanced s call action s call' where
  ceiling := rfl
  charged := by rw [charged]
  billed := by rw [owed]
  reserved := by linarith
  accounted := accounted

theorem afterFailure_balanced {number : Nat} {error : ProviderError}
    (stage : (∃ made, call.stage = .attempt made) ∨ ∃ number, call.stage = .awaiting number)
    (failure : admittedUsd s call action = 0) (accounted : call.Accounted) :
    Balanced s call action s (call.afterFailure maxAttempts number error) := by
  have nonneg := call.worstCaseUsd_nonneg
  obtain ⟨reserved, charged, owed, unreported⟩ : call.reservedUsd = call.worstCaseUsd ∧
      call.chargedUsd = 0 ∧ call.owedUsd = 0 ∧ call.reported = none := by
    unfold Accounted at accounted
    unfold reservedUsd chargedUsd owedUsd
    rcases stage with ⟨made, stage⟩ | ⟨number, stage⟩ <;> rw [stage] at accounted ⊢ <;>
      exact ⟨rfl, rfl, rfl, accounted⟩
  rw [afterFailure]
  split
  · refine .of_same charged.symm owed.symm ?_ unreported
    rw [reserved, failure, add_zero]
    exact le_refl _
  · refine .of_same charged.symm owed.symm ?_ unreported
    rw [reserved, failure, add_zero]
    exact nonneg

theorem settle_balanced {usage : LLMUsage} (stage : call.stage = .charge usage)
    (accounted : call.Accounted)
    (room : s.ledger.spentUsd + call.reservedUsd ≤ s.ledger.ceilingUsd) :
    Balanced s call .charge (call.settle s usage).1 (call.settle s usage).2 := by
  have nonneg := call.costUsd_nonneg usage
  have reserved : call.reservedUsd = call.worstCaseUsd := by rw [reservedUsd, stage]
  have charged : call.chargedUsd = 0 := by rw [chargedUsd, stage]
  have owed : call.owedUsd = call.costUsd usage := by rw [owedUsd, stage]
  rw [Accounted, stage] at accounted
  obtain ⟨reported, within⟩ := accounted
  rw [reserved] at room
  rw [settle, CostLedger.charge_eq_ok nonneg (by linarith)]
  refine ⟨rfl, ?_, ?_, ?_, reported, rfl⟩
  · rw [charged]
    exact add_zero _
  · rw [owed]
    exact congrArg _ (add_zero _).symm
  · rw [reserved]
    change s.ledger.spentUsd + call.costUsd usage + 0 ≤ s.ledger.spentUsd + call.worstCaseUsd + 0
    linarith

theorem move_balanced (accounted : call.Accounted)
    (room : s.ledger.spentUsd + call.reservedUsd ≤ s.ledger.ceilingUsd)
    (unbilled : Unbilled action)
    (h : call.move maxAttempts action s = some (s', call')) :
    Balanced s call action s' call' := by
  unfold move at h
  split at h
  · -- The check of the budget.
    next stage =>
    obtain ⟨reserved, charged, owed⟩ : call.reservedUsd = 0 ∧ call.chargedUsd = 0 ∧
        call.owedUsd = 0 := by
      simp only [reservedUsd, chargedUsd, owedUsd, stage, and_self]
    rw [Accounted, stage] at accounted
    split at h
    · next exceeds =>
      cases h
      refine .of_same charged.symm owed.symm ?_ accounted
      rw [reserved, admittedUsd, if_pos exceeds, add_zero]
      exact le_refl (0 : ℚ)
    · next fits =>
      cases h
      refine .of_same charged.symm owed.symm ?_ accounted
      rw [reserved, admittedUsd, if_neg fits, zero_add]
      exact le_refl _
  · next remaining stage =>
    cases h
    obtain ⟨reserved, charged, owed⟩ : call.reservedUsd = 0 ∧ call.chargedUsd = 0 ∧
        call.owedUsd = 0 := by
      simp only [reservedUsd, chargedUsd, owedUsd, stage, and_self]
    rw [Accounted, stage] at accounted
    refine .of_same charged.symm owed.symm ?_ accounted
    rw [reserved]
    exact le_of_eq (add_zero (0 : ℚ)).symm
  · next made stage =>
    cases h
    obtain ⟨reserved, charged, owed⟩ : call.reservedUsd = call.worstCaseUsd ∧
        call.chargedUsd = 0 ∧ call.owedUsd = 0 := by
      simp only [reservedUsd, chargedUsd, owedUsd, stage, and_self]
    rw [Accounted, stage] at accounted
    refine .of_same charged.symm owed.symm ?_ accounted
    rw [reserved]
    exact le_of_eq (add_zero _).symm
  · next made stage =>
    cases h
    exact afterFailure_balanced (.inl ⟨made, stage⟩) rfl accounted
  · next usage number stage =>
    split at h
    · next within =>
      cases h
      obtain ⟨reserved, charged, owed⟩ : call.reservedUsd = call.worstCaseUsd ∧
          call.chargedUsd = 0 ∧ call.owedUsd = 0 := by
        simp only [reservedUsd, chargedUsd, owedUsd, stage, and_self]
      refine ⟨rfl, by rw [charged]; rfl, ?_, ?_, rfl, within⟩
      · rw [owed]
        change s.billedUsd + call.costUsd usage + (s.ledger.spentUsd + 0) =
          s.billedUsd + (s.ledger.spentUsd + call.costUsd usage)
        linarith
      · rw [reserved]
        exact le_of_eq (add_zero _).symm
    · cases h
  · next error billed number stage =>
    split at h
    · obtain rfl : billed = 0 := unbilled
      rw [add_zero] at h
      cases h
      exact afterFailure_balanced (.inr ⟨number, stage⟩) rfl accounted
    · cases h
  · next usage stage =>
    have settled : call.settle s usage = (s', call') := Option.some.inj h
    have balanced := settle_balanced stage accounted room
    rwa [settled] at balanced
  · cases h

end Completion

open Completion

/-- The runs in which each call that passes its check has room left for its worst case
beside those of the calls that passed before it and are not charged, and in which no failed
attempt is billed. -/
def SpendsWithin (s : PoolState SpendState Completion) :
    PoolEvent (TokenPricing × LLMRequest) CompletionAction → Prop
  | .act i .readBudget => ∀ call ∈ s.threads[i]?, s.shared.ledger.remainingUsd < call.worstCaseUsd ∨
        s.shared.ledger.spentUsd + s.total reservedUsd + call.worstCaseUsd ≤
          s.shared.ledger.ceilingUsd
  | .act _ (.failed _ billedUsd) => billedUsd = 0
  | _ => True

instance (s : PoolState SpendState Completion) : DecidablePred (SpendsWithin s)
  | .act i .readBudget => inferInstanceAs (Decidable (∀ call ∈ s.threads[i]?, _))
  | .act _ (.failed _ billedUsd) => inferInstanceAs (Decidable (billedUsd = 0))
  | .call _ | .act _ .readSpent | .act _ .acquired | .act _ .limited | .act _ (.answered _)
  | .act _ .charge => isTrue trivial

/-- The ledger is within its ceiling, its total is what the calls that ended were charged,
the attempts that are out fit in what the provider has not billed of the ceiling, and a call
with a response returns it. -/
structure SpendSound (s : PoolState SpendState Completion) : Prop where
  bounded : s.shared.ledger.spentUsd ≤ s.shared.ledger.ceilingUsd
  recorded : s.shared.ledger.spentUsd = s.total chargedUsd
  affordable : s.shared.billedUsd + s.total awaitedUsd ≤ s.shared.ledger.ceilingUsd
  answered : ∀ call ∈ s.threads, ∀ usage, call.reported = some usage →
    ∀ outcome, call.stage = .ended outcome → outcome = .returned usage (call.costUsd usage)

/-- What the runs keep: the provider has billed what was charged and what is owed, and the
reservations fit. -/
structure Solvent (s : PoolState SpendState Completion) : Prop where
  recorded : s.shared.ledger.spentUsd = s.total chargedUsd
  billed : s.shared.billedUsd = s.shared.ledger.spentUsd + s.total owedUsd
  reserved : s.shared.ledger.spentUsd + s.total reservedUsd ≤ s.shared.ledger.ceilingUsd
  accounted : ∀ call ∈ s.threads, call.Accounted

variable {s s' : PoolState SpendState Completion} {maxAttempts : Nat}
  {event : PoolEvent (TokenPricing × LLMRequest) CompletionAction}

theorem Solvent.sound (solvent : Solvent s) : SpendSound s where
  bounded := by
    have nonneg : 0 ≤ s.total reservedUsd :=
      List.sum_nonneg (List.forall_mem_map.mpr fun call _ => call.reservedUsd_nonneg)
    have := solvent.reserved
    linarith
  recorded := solvent.recorded
  affordable := by
    have awaited : s.total (fun call => call.awaitedUsd + call.owedUsd) ≤ s.total reservedUsd :=
      PoolState.total_le_total fun call listed =>
        awaitedUsd_add_owedUsd_le (solvent.accounted call listed)
    rw [PoolState.total_add] at awaited
    have := solvent.reserved
    have := solvent.billed
    linarith
  answered call listed usage reported outcome ended := by
    have accounted := solvent.accounted call listed
    rw [Accounted, ended] at accounted
    cases outcome with
    | returned charged cost =>
      obtain ⟨known, rfl⟩ := accounted
      obtain rfl := Option.some.inj (reported.symm.trans known)
      rfl
    | budgetExceeded _ | valueError | raised _ =>
      rw [reported] at accounted
      cases accounted

theorem Solvent.call (solvent : Solvent s) (program : TokenPricing × LLMRequest) :
    Solvent ⟨s.shared, s.threads ++ [(completions maxAttempts).spawn program]⟩ where
  recorded := by
    rw [PoolState.total_append, ← solvent.recorded]
    exact (add_zero _).symm
  billed := by
    rw [PoolState.total_append, solvent.billed]
    exact congrArg _ (add_zero _).symm
  reserved := by
    rw [PoolState.total_append]
    exact le_of_eq_of_le (congrArg _ (add_zero _)) solvent.reserved
  accounted call listed := by
    rcases List.mem_append.mp listed with old | new
    · exact solvent.accounted call old
    · rw [List.mem_singleton.mp new]
      rfl

theorem Solvent.act (solvent : Solvent s) {i : Nat} {call call' : Completion}
    {action : CompletionAction} {shared : SpendState} (known : s.threads[i]? = some call)
    (room : s.shared.ledger.spentUsd + s.total reservedUsd + admittedUsd s.shared call action ≤
      s.shared.ledger.ceilingUsd)
    (balanced : Balanced s.shared call action shared call') :
    Solvent ⟨shared, s.threads.set i call'⟩ := by
  have charged := PoolState.total_set chargedUsd shared call' known
  have owed := PoolState.total_set owedUsd shared call' known
  have reserved := PoolState.total_set reservedUsd shared call' known
  obtain ⟨ceiling, chargedStep, billedStep, reservedStep, accounted⟩ := balanced
  obtain ⟨recorded, billed, _, accountedOthers⟩ := solvent
  refine ⟨?_, ?_, ?_, fun other listed => ?_⟩
  · change shared.ledger.spentUsd = _
    linarith
  · change shared.billedUsd = shared.ledger.spentUsd + _
    linarith
  · change shared.ledger.spentUsd + _ ≤ shared.ledger.ceilingUsd
    linarith
  · rcases List.mem_or_eq_of_mem_set listed with old | rfl
    · exact accountedOthers other old
    · exact accounted

theorem Solvent.step (solvent : Solvent s) (within : SpendsWithin s event)
    (h : (completions maxAttempts).machine.step s event = some s') : Solvent s' := by
  obtain ⟨program, -, rfl⟩ | ⟨i, action, call, shared, call', rfl, known, moved, rfl⟩ :=
    ThreadPool.step_cases h
  · exact solvent.call program
  · have own : call.reservedUsd ≤ s.total reservedUsd :=
      PoolState.weight_le_total reservedUsd_nonneg known
    have reserved := solvent.reserved
    have unbilled : Unbilled action := by
      cases action with
      | failed error billedUsd => exact within
      | readBudget | readSpent | acquired | limited | answered _ | charge => trivial
    refine solvent.act known ?_ (move_balanced
      (solvent.accounted call (List.mem_of_getElem? known)) (by linarith) unbilled moved)
    cases action with
    | readBudget =>
      change _ + (if _ then (0 : ℚ) else _) ≤ _
      split
      · rwa [add_zero]
      · next fits => exact (within call known).resolve_left fits
    | readSpent | acquired | limited | answered _ | failed _ _ | charge =>
      exact le_of_eq_of_le (add_zero _) reserved

theorem Solvent.start {ceilingUsd : ℚ} (nonneg : 0 ≤ ceilingUsd) :
    Solvent (ThreadPool.start ⟨⟨ceilingUsd, 0⟩, 0⟩) where
  recorded := rfl
  billed := (add_zero 0).symm
  reserved := le_of_eq_of_le (add_zero 0) nonneg
  accounted call listed := by cases listed

/-- A model that bills a dollar for each token it writes. -/
def dollarModel : TokenPricing where
  inputUsdPerMtok := 0
  outputUsdPerMtok := usdPerMtok
  input_nonneg := le_refl 0
  output_nonneg := usdPerMtok_nonneg
  cacheRead_nonneg := le_refl 0
  discount_nonneg := zero_le_one

/-- A request for one token. -/
def dollarRequest : LLMRequest := ⟨["hi".toList], 1, false⟩

end Rankuno
