import Rankuno.Governance.ToolRun
import Rankuno.Python.Text

/-!
# Completions under a spend ceiling

`LLMClient.complete` with `BaseAPIClient.call` and `with_retries` around the provider, and
the `CostLedger` that all clients of a session share. A call reads the remaining budget,
tries the provider until an attempt succeeds or is the last, and charges what the provider
reports. Each read of the ledger and the charge hold its lock, so they are steps; an attempt
is two, the token of the rate limiter with the request and the provider's answer.

What the provider bills is kept beside the ledger, which the code does not see. A response
costs what its usage says. An attempt that fails reports no usage, and may have been billed
all the same. Dollars are rational numbers.
-/

namespace Rankuno

open Python

/-- `TokenPricing`, with the ranges its fields are checked for. -/
structure TokenPricing where
  inputUsdPerMtok : ℚ
  outputUsdPerMtok : ℚ
  cacheReadUsdPerMtok : ℚ := 0
  batchDiscount : ℚ := 1
  input_nonneg : 0 ≤ inputUsdPerMtok
  output_nonneg : 0 ≤ outputUsdPerMtok
  cacheRead_nonneg : 0 ≤ cacheReadUsdPerMtok
  discount_nonneg : 0 ≤ batchDiscount

/-- `LLMUsage`. -/
structure LLMUsage where
  inputTokens : Nat := 0
  outputTokens : Nat := 0
  cachedInputTokens : Nat := 0
  deriving DecidableEq

/-- `_USD_PER_MTOK`. -/
def usdPerMtok : ℚ := 1000000

/-- `cost_usd`. -/
def LLMUsage.costUsd (usage : LLMUsage) (pricing : TokenPricing) (batch : Bool) : ℚ :=
  let total := (usage.inputTokens * pricing.inputUsdPerMtok +
    usage.outputTokens * pricing.outputUsdPerMtok +
    usage.cachedInputTokens * pricing.cacheReadUsdPerMtok) / usdPerMtok
  total * if batch then pricing.batchDiscount else 1

/-- What `complete` reads of an `LLMRequest`: the contents of its messages, the cap on the
output and whether it goes through the batch endpoint. -/
structure LLMRequest where
  messages : List Text
  maxOutputTokens : Nat
  batch : Bool := false

/-- `estimate_tokens`, at 3.5 characters a token. -/
def estimateTokens (text : Text) : Nat :=
  if text = [] then 0 else max 1 (2 * text.length / 7 + 1)

def LLMRequest.estimatedInputTokens (request : LLMRequest) : Nat :=
  (request.messages.map estimateTokens).sum

/-- `estimate_worst_case_usd`. -/
def estimateWorstCaseUsd (pricing : TokenPricing) (request : LLMRequest) : ℚ :=
  LLMUsage.costUsd ⟨request.estimatedInputTokens, request.maxOutputTokens, 0⟩ pricing request.batch

/-- `CostLedger`. -/
structure CostLedger where
  ceilingUsd : ℚ
  spentUsd : ℚ := 0
  deriving DecidableEq

/-- How `charge` refuses. -/
inductive ChargeError where
  | valueError
  | budgetExceeded (error : BudgetExceededError)
  deriving DecidableEq

namespace CostLedger

variable (ledger : CostLedger)

def remainingUsd : ℚ := max 0 (ledger.ceilingUsd - ledger.spentUsd)

def charge (amountUsd : ℚ) : Except ChargeError CostLedger :=
  if amountUsd < 0 then .error .valueError
  else if ledger.ceilingUsd < ledger.spentUsd + amountUsd then
    .error (.budgetExceeded ⟨amountUsd, ledger.spentUsd, ledger.ceilingUsd⟩)
  else .ok { ledger with spentUsd := ledger.spentUsd + amountUsd }

end CostLedger

/-- What an attempt raises, as far as `with_retries` and `call` tell it apart. The second
stands for `ConnectionError` and `TimeoutError`, the last for what is no `Exception`. -/
inductive ProviderError where
  | integration
  | connection
  | rateLimitExceeded
  | guardrailViolation
  | exception
  | baseException
  deriving DecidableEq

namespace ProviderError

/-- `TRANSIENT_ERRORS`. -/
def isTransient : ProviderError → Bool
  | integration | connection | rateLimitExceeded => true
  | guardrailViolation | exception | baseException => false

/-- What `call` raises in its place. -/
def escaping : ProviderError → ProviderError
  | integration | connection | rateLimitExceeded | exception => integration
  | guardrailViolation => guardrailViolation
  | baseException => baseException

end ProviderError

/-- How a call of `complete` ends. -/
inductive CompletionOutcome where
  | returned (usage : LLMUsage) (costUsd : ℚ)
  | budgetExceeded (error : BudgetExceededError)
  | valueError
  | raised (error : ProviderError)
  deriving DecidableEq

/-- Where a call of `complete` stands. A refused call reads the ledger once more for the
text of its error. Attempts are counted from one, and `attempt` tells how many were made. -/
inductive CompletionStage where
  | estimate
  | refused (remainingUsd : ℚ)
  | attempt (made : Nat)
  | awaiting (number : Nat)
  | charge (usage : LLMUsage)
  | ended (outcome : CompletionOutcome)
  deriving DecidableEq

/-- A call of `complete`, with the usage its provider has reported. -/
structure Completion where
  pricing : TokenPricing
  request : LLMRequest
  stage : CompletionStage := .estimate
  reported : Option LLMUsage := none

inductive CompletionAction where
  | readBudget
  | readSpent
  | acquired
  | limited
  | answered (usage : LLMUsage)
  | failed (error : ProviderError) (billedUsd : ℚ)
  | charge
  deriving DecidableEq

/-- What the calls share, and what the provider has billed for them. -/
structure SpendState where
  ledger : CostLedger
  billedUsd : ℚ := 0
  deriving DecidableEq

namespace Completion

variable (call : Completion)

def worstCaseUsd : ℚ := estimateWorstCaseUsd call.pricing call.request

def costUsd (usage : LLMUsage) : ℚ := usage.costUsd call.pricing call.request.batch

def goto (stage : CompletionStage) : Completion := { call with stage }

/-- Another attempt, or the end of the call. -/
def afterFailure (maxAttempts number : Nat) (error : ProviderError) : Completion :=
  if error.isTransient ∧ number < maxAttempts then call.goto (.attempt number)
  else call.goto (.ended (.raised error.escaping))

/-- The last step, with what becomes of the ledger. -/
def settle (s : SpendState) (usage : LLMUsage) : SpendState × Completion :=
  match s.ledger.charge (call.costUsd usage) with
  | .ok ledger => ({ s with ledger }, call.goto (.ended (.returned usage (call.costUsd usage))))
  | .error (.budgetExceeded e) => (s, call.goto (.ended (.budgetExceeded e)))
  | .error .valueError => (s, call.goto (.ended .valueError))

/-- One step of a call. No attempt costs more than the worst case. -/
def move (maxAttempts : Nat) (action : CompletionAction) (s : SpendState) :
    Option (SpendState × Completion) :=
  match action, call.stage with
  | .readBudget, .estimate =>
    if s.ledger.remainingUsd < call.worstCaseUsd then
      some (s, call.goto (.refused s.ledger.remainingUsd))
    else some (s, call.goto (.attempt 0))
  | .readSpent, .refused remaining =>
    some (s, call.goto (.ended (.budgetExceeded
      ⟨call.worstCaseUsd, s.ledger.spentUsd, s.ledger.spentUsd + remaining⟩)))
  | .acquired, .attempt made => some (s, call.goto (.awaiting (made + 1)))
  | .limited, .attempt made =>
    some (s, call.afterFailure maxAttempts (made + 1) .rateLimitExceeded)
  | .answered usage, .awaiting _ =>
    if call.costUsd usage ≤ call.worstCaseUsd then
      some ({ s with billedUsd := s.billedUsd + call.costUsd usage },
        { call with stage := .charge usage, reported := some usage })
    else none
  | .failed error billed, .awaiting number =>
    if 0 ≤ billed ∧ billed ≤ call.worstCaseUsd then
      some ({ s with billedUsd := s.billedUsd + billed },
        call.afterFailure maxAttempts number error)
    else none
  | .charge, .charge usage => some (call.settle s usage)
  | _, _ => none

end Completion

/-- The calls of one session. A call names the prices of its client and its request. -/
def completions (maxAttempts : Nat) :
    ThreadPool SpendState Completion (TokenPricing × LLMRequest) CompletionAction where
  spawn program := { pricing := program.1, request := program.2 }
  move _ action s call := call.move maxAttempts action s

end Rankuno
