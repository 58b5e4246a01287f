import Rankuno.Foundation.ThreadPool
import Rankuno.Governance.Guardrails
import Rankuno.RateLimiter.TokenBucket

/-!
# Runs of governed tools

`BaseTool.run` of `core/base_tool.py`, with the cost ledger of
`core/rate_limiter.py`. A run is a thread that passes the gates in the source's
order; the registry of buckets and the ledger are what all runs share. The
ledger's lock is held over several steps, so that a run can be seen between its
check of the ceiling and its charge.

What tools and operators decide is an action: the description, the operator's
answer, what `execute` returns, and an exception out of any of them, or out of
nowhere, at any point of the run. The shared state keeps a record of the gates
each run has passed.
-/

namespace Rankuno

inductive ExecutionStatus where
  | success
  | failed
  | blockedPendingApproval
  | rateLimited
  | budgetExceeded
  deriving DecidableEq

/-- What the wrapper reads of a `ToolMetadata`, with the rules its model checks. -/
structure ToolDeclaration extends ToolMetadata where
  rateLimitKey : Option String
  estimatedCostUsd : ℚ
  cost_nonneg : 0 ≤ estimatedCostUsd
  cost_implies_financial : 0 < estimatedCostUsd → riskClass = .financial

structure BudgetExceededError where
  attemptedUsd : ℚ
  spentUsd : ℚ
  ceilingUsd : ℚ
  deriving DecidableEq

def BudgetExceededError.message (e : BudgetExceededError) : String :=
  "Spend of $" ++ fixed 4 e.attemptedUsd ++ " refused: $" ++ fixed 4 e.spentUsd ++
    " already spent against a $" ++ fixed 2 e.ceilingUsd ++ " ceiling."

/-- What can be raised. An exception of another type has the text its `__str__`
returns, or none when that raises in turn. The last are not `Exception`s, as
`KeyboardInterrupt` and `SystemExit`. -/
inductive Raised where
  | approvalRequired (error : ApprovalRequiredError)
  | rateLimitExceeded (error : RateLimitExceededError)
  | budgetExceeded (error : BudgetExceededError)
  | exception (text : Option String)
  | baseException (name : String)
  deriving DecidableEq

namespace Raised

/-- What an `except Exception` catches. -/
def isException : Raised → Bool
  | baseException _ => false
  | _ => true

/-- `str(exc)`. -/
def text : Raised → Option String
  | approvalRequired e => some e.message
  | rateLimitExceeded e => some e.message
  | budgetExceeded e => some e.message
  | exception text => text
  | baseException name => some name

def status : Raised → ExecutionStatus
  | approvalRequired _ => .blockedPendingApproval
  | rateLimitExceeded _ => .rateLimited
  | budgetExceeded _ => .budgetExceeded
  | exception _ | baseException _ => .failed

end Raised

structure ToolResult (ω : Type) where
  status : ExecutionStatus
  tool : String
  data : Option ω := none
  error : Option String := none
  approvalMode : ApprovalMode := .automatic
  requiresHumanReview : Bool := false
  costUsd : ℚ := 0
  deriving DecidableEq

/-- How a call of `run` ends. -/
inductive RunOutcome (ω : Type) where
  | returned (result : ToolResult ω)
  | raised (error : Raised)
  deriving DecidableEq

/-- The `except` clause and `_failure`, which takes the text of what it caught. -/
def RunOutcome.ofRaised {ω : Type} (tool : String) (e : Raised) : RunOutcome ω :=
  if e.isException then
    match e.text with
    | some text => .returned { status := e.status, tool := tool, error := some text }
    | none => .raised e
  else .raised e

/-- A tool with the engine it was built with. -/
structure Tool where
  metadata : ToolDeclaration
  environment : Environment
  guardrailsEnabled : Bool
  inputModel : String
  outputModel : String

/-- What a caller passes: an instance of the input model, one of another model,
or fields, with what `model_validate` makes of them. -/
inductive RawInput (π : Type) where
  | payload (payload : π)
  | otherModel (typeName : String)
  | fields (validated : Except Raised π)

/-- What `execute` returns: an instance of the output model or something else. -/
inductive ToolOutput (ω : Type) where
  | model (data : ω)
  | other (typeName : String)

/-- The gates a run passes, and the one refusal that is recorded. -/
inductive AuditEvent (π : Type) where
  | validated (payload : π)
  | asked (approved : Bool)
  | token (key : String)
  | charged (amountUsd : ℚ)
  | entered (payload : π)
  deriving DecidableEq

structure AuditEntry (π : Type) where
  run : Nat
  event : AuditEvent π
  deriving DecidableEq

def AuditEntry.payment {π : Type} (entry : AuditEntry π) : Option (Nat × ℚ) :=
  match entry.event with
  | .charged amount => some (entry.run, amount)
  | _ => none

/-- The ledger's ceiling, and what the rate limit reads of the settings. -/
structure GovernanceSettings where
  ceilingUsd : ℚ
  defaultRequestsPerMinute : Nat
  defaultTimeoutS : ℚ
  requestsPerMinute_pos : 0 < defaultRequestsPerMinute

/-- The registry, the ledger and the run that holds its lock, and the latest
reading of the clock. -/
structure GovernanceState (π : Type) where
  buckets : Buckets
  spent : ℚ
  holder : Option Nat
  clock : ℚ
  log : List (AuditEntry π)

/-- Where a run stands from the rate limit on. The five stages after `charge`
are inside `CostLedger.charge`: the lock is taken, the ceiling is checked, the
total is read and written, and the lock is released. -/
inductive GateStage (ω : Type) where
  | rateLimit
  | acquire (key : String) (stage : AcquireStage)
  | charge
  | locked
  | affordable
  | loaded (spent : ℚ)
  | stored
  | execute
  | executing
  | output (output : ToolOutput ω)
  | finish (data : ω)

inductive RunPhase (π ω : Type) where
  | validate
  | describe (payload : π)
  | authorize (payload : π) (context : String)
  | governed (payload : π) (decision : GuardrailDecision) (stage : GateStage ω)
  | ended (outcome : RunOutcome ω)

structure ToolRun (π ω : Type) where
  tool : Tool
  raw : RawInput π
  phase : RunPhase π ω

inductive RunAction (ω : Type) where
  | validate
  | describe (context : String)
  | authorize (approved : Bool)
  | proceed (now : ℚ)
  | returned (output : ToolOutput ω)
  | raised (error : Raised)

namespace GovernanceState

variable {π : Type}

def start (buckets : Buckets) (clock : ℚ) : GovernanceState π := ⟨buckets, 0, none, clock, []⟩

/-- Note gates that a run has passed. -/
def recordAll (s : GovernanceState π) (i : Nat) (events : List (AuditEvent π)) :
    GovernanceState π :=
  { s with log := s.log ++ events.map (AuditEntry.mk i) }

def record (s : GovernanceState π) (i : Nat) (event : AuditEvent π) : GovernanceState π :=
  s.recordAll i [event]

/-- Give the ledger's lock back, if the run holds it. -/
def release (s : GovernanceState π) (i : Nat) : GovernanceState π :=
  { s with holder := if s.holder = some i then none else s.holder }

/-- The gates one run has passed. -/
def history (s : GovernanceState π) (i : Nat) : List (AuditEvent π) :=
  s.log.filterMap fun entry => if entry.run = i then some entry.event else none

/-- The charges, each with the run that made it. -/
def payments (s : GovernanceState π) : List (Nat × ℚ) :=
  s.log.filterMap AuditEntry.payment

/-- The runs that passed the charge. -/
def charged (s : GovernanceState π) : List Nat := s.payments.map Prod.fst

end GovernanceState

namespace Tool

variable {π : Type} (tool : Tool)

/-- The tool's engine, whose provider has answered. -/
def engine (i : Nat) (approved : Bool) : GuardrailEngine (GovernanceState π) where
  environment := tool.environment
  guardrailsEnabled := tool.guardrailsEnabled
  requestApproval _ _ s := (approved, s.record i (.asked approved))

/-- `_validate_input`. -/
def validateInput : RawInput π → Except Raised π
  | .payload payload => .ok payload
  | .otherModel typeName =>
    .error (.exception (some (tool.metadata.name ++ " expects " ++ tool.inputModel ++ ", got " ++
      typeName ++ ".")))
  | .fields validated => validated

/-- The `TypeError` of `_validate_output`. -/
def outputError (typeName : String) : Raised :=
  .exception (some (tool.metadata.name ++ ".execute() must return " ++ tool.outputModel ++
    ", got " ++ typeName ++ "."))

end Tool

namespace ToolRun

variable {π ω : Type} (settings : GovernanceSettings)

def goto (r : ToolRun π ω) (phase : RunPhase π ω) : ToolRun π ω := { r with phase }

def fail (r : ToolRun π ω) (e : Raised) : ToolRun π ω :=
  r.goto (.ended (.ofRaised r.tool.metadata.name e))

/-- An exception leaves the ledger's `with` block on its way, if the run is in it. -/
def throw (i : Nat) (s : GovernanceState π) (r : ToolRun π ω) (e : Raised) :
    GovernanceState π × ToolRun π ω :=
  (s.release i, r.fail e)

/-- The result of a run that passed everything. -/
def success (r : ToolRun π ω) (decision : GuardrailDecision) (data : ω) : ToolResult ω where
  status := .success
  tool := r.tool.metadata.name
  data := some data
  approvalMode := decision.mode
  requiresHumanReview := decision.requiresHumanReview
  costUsd := r.tool.metadata.estimatedCostUsd

/-- What the wrapper does next by itself, from the rate limit on. -/
def proceed (i : Nat) (s : GovernanceState π) (r : ToolRun π ω) (payload : π)
    (decision : GuardrailDecision) : GateStage ω → Option (GovernanceState π × ToolRun π ω)
  | .rateLimit =>
    match r.tool.metadata.rateLimitKey with
    | none => some (s, r.goto (.governed payload decision .charge))
    | some key =>
      let buckets := s.buckets.getOrCreate key settings.defaultRequestsPerMinute
        settings.requestsPerMinute_pos s.clock
      some ({ s with buckets }, r.goto (.governed payload decision (.acquire key .started)))
  | .acquire key stage =>
    (s.buckets.find? key).bind fun bucket =>
      (bucket.acquireStep 1 settings.defaultTimeoutS s.clock stage).map fun (after, move) =>
        let s := { s with buckets := s.buckets.put after }
        match move with
        | .next stage => (s, r.goto (.governed payload decision (.acquire key stage)))
        | .granted => (s.record i (.token key), r.goto (.governed payload decision .charge))
        | .invalid e => throw i s r (.exception (some e.message))
        | .exceeded e => throw i s r (.rateLimitExceeded e)
  | .charge =>
    if r.tool.metadata.estimatedCostUsd < 0 then
      some (throw i s r (.exception (some "Cost must not be negative.")))
    else
      match s.holder with
      | none => some ({ s with holder := some i }, r.goto (.governed payload decision .locked))
      | some _ => none
  | .locked =>
    let amount := r.tool.metadata.estimatedCostUsd
    if settings.ceilingUsd < s.spent + amount then
      some (throw i s r (.budgetExceeded ⟨amount, s.spent, settings.ceilingUsd⟩))
    else some (s, r.goto (.governed payload decision .affordable))
  | .affordable => some (s, r.goto (.governed payload decision (.loaded s.spent)))
  | .loaded spent =>
    let amount := r.tool.metadata.estimatedCostUsd
    some ({ s with spent := spent + amount }.record i (.charged amount),
      r.goto (.governed payload decision .stored))
  | .stored => some (s.release i, r.goto (.governed payload decision .execute))
  | .execute =>
    some (s.record i (.entered payload), r.goto (.governed payload decision .executing))
  | .executing => none
  | .output (.model data) => some (s, r.goto (.governed payload decision (.finish data)))
  | .output (.other typeName) => some (throw i s r (r.tool.outputError typeName))
  | .finish data => some (s, r.goto (.ended (.returned (r.success decision data))))

/-- An action of a run that has the number `i`. -/
def move (i : Nat) (action : RunAction ω) (s : GovernanceState π) (r : ToolRun π ω) :
    Option (GovernanceState π × ToolRun π ω) :=
  match action, r.phase with
  | .raised _, .ended _ => none
  | .raised e, _ => some (throw i s r e)
  | .validate, .validate =>
    match r.tool.validateInput r.raw with
    | .ok payload => some (s.record i (.validated payload), r.goto (.describe payload))
    | .error e => some (throw i s r e)
  | .describe context, .describe payload => some (s, r.goto (.authorize payload context))
  | .authorize approved, .authorize payload context =>
    match (r.tool.engine i approved).enforce r.tool.metadata.toToolMetadata context s with
    | (.ok decision, s) => some (s, r.goto (.governed payload decision .rateLimit))
    | (.error e, s) => some (throw i s r (.approvalRequired e))
  | .proceed now, .governed payload decision stage =>
    if s.clock ≤ now then proceed settings i { s with clock := now } r payload decision stage
    else none
  | .returned output, .governed payload decision .executing =>
    some (s, r.goto (.governed payload decision (.output output)))
  | _, _ => none

end ToolRun

/-- The tools of one process. A call names a tool and its input. -/
def GovernanceSettings.tools (settings : GovernanceSettings) (π ω : Type) :
    ThreadPool (GovernanceState π) (ToolRun π ω) (Tool × RawInput π) (RunAction ω) where
  spawn call := ⟨call.1, call.2, .validate⟩
  move := ToolRun.move settings

end Rankuno
