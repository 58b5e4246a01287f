/-!
# The guardrail engine

`core/guardrails.py`: what a tool may do without asking, and whom it asks
otherwise. An approval provider may change the world while it decides, so the
engine runs over a state `σ` that only the provider touches.
-/

namespace Rankuno

inductive Environment where
  | development
  | staging
  | production
  deriving DecidableEq

/-- What a capability is allowed to touch. -/
inductive RiskClass where
  | read
  | draft
  | write
  | financial
  deriving DecidableEq

inductive ApprovalMode where
  | automatic
  | operatorReview
  | mandatoryHitl
  deriving DecidableEq

namespace RiskClass

/-- The value of the enumeration member, as messages print it. -/
def value : RiskClass → String
  | read => "read"
  | draft => "draft"
  | write => "write"
  | financial => "financial"

/-- `_BASE_POLICY`. -/
def basePolicy : RiskClass → ApprovalMode
  | read => .automatic
  | draft => .operatorReview
  | write | financial => .mandatoryHitl

end RiskClass

structure ToolMetadata where
  name : String
  riskClass : RiskClass
  deriving DecidableEq

structure GuardrailDecision where
  allowed : Bool
  mode : ApprovalMode
  reason : String
  requiresHumanReview : Bool := false
  deriving DecidableEq

structure ApprovalRequiredError where
  tool : String
  reason : String
  deriving DecidableEq

namespace ApprovalRequiredError

/-- `str` of the error. -/
def message (e : ApprovalRequiredError) : String :=
  "Human approval required for '" ++ e.tool ++ "': " ++ e.reason

end ApprovalRequiredError

/-- An engine, its settings and the provider it asks. -/
structure GuardrailEngine (σ : Type) where
  environment : Environment
  guardrailsEnabled : Bool
  requestApproval : ToolMetadata → String → σ → Bool × σ

namespace GuardrailEngine

variable {σ : Type} (engine : GuardrailEngine σ)

/-- `policy_for`. Outside production an override could only tighten the policy,
and there is none. -/
def policyFor (riskClass : RiskClass) : ApprovalMode :=
  match engine.environment with
  | .production => riskClass.basePolicy
  | .development | .staging => riskClass.basePolicy

theorem policyFor_eq (riskClass : RiskClass) :
    engine.policyFor riskClass = riskClass.basePolicy := by
  unfold policyFor
  split <;> rfl

/-- The reason an approval that was not given leaves behind. -/
def denialReason (riskClass : RiskClass) : String :=
  "Operator approval required for a '" ++ riskClass.value ++ "' action and was not granted."

/-- `authorize`. -/
def authorize (metadata : ToolMetadata) (context : String) (s : σ) : GuardrailDecision × σ :=
  if !engine.guardrailsEnabled then
    (⟨true, .automatic, "Guardrails disabled by configuration.", false⟩, s)
  else
    match engine.policyFor metadata.riskClass with
    | .automatic => (⟨true, .automatic, "Read-only action.", false⟩, s)
    | .operatorReview =>
      (⟨true, .operatorReview, "Output is advisory and must be reviewed before use.", true⟩, s)
    | .mandatoryHitl =>
      let (approved, t) := engine.requestApproval metadata context s
      (⟨approved, .mandatoryHitl,
        if approved then "Operator approved." else denialReason metadata.riskClass, true⟩, t)

/-- `enforce`. -/
def enforce (metadata : ToolMetadata) (context : String) (s : σ) :
    Except ApprovalRequiredError GuardrailDecision × σ :=
  let (decision, t) := engine.authorize metadata context s
  if decision.allowed then (.ok decision, t)
  else (.error ⟨metadata.name, decision.reason⟩, t)

variable {metadata : ToolMetadata}

theorem authorize_mandatory (context : String) (s : σ)
    (enabled : engine.guardrailsEnabled = true)
    (mandatory : metadata.riskClass.basePolicy = .mandatoryHitl) :
    (engine.authorize metadata context s).1.allowed =
        (engine.requestApproval metadata context s).1 ∧
      (engine.authorize metadata context s).2 = (engine.requestApproval metadata context s).2 := by
  unfold authorize
  rw [enabled, policyFor_eq, mandatory]
  exact ⟨rfl, rfl⟩

theorem enforce_eq_ok {context : String} {s : σ}
    {decision : GuardrailDecision}
    (h : (engine.enforce metadata context s).1 = .ok decision) :
    (engine.authorize metadata context s).1.allowed = true := by
  unfold enforce at h
  cases allowed : (engine.authorize metadata context s).1.allowed with
  | true => rfl
  | false =>
    simp only [allowed] at h
    cases h

theorem enforce_of_allowed {context : String} {s : σ}
    (allowed : (engine.authorize metadata context s).1.allowed = true) :
    engine.enforce metadata context s =
      (.ok (engine.authorize metadata context s).1, (engine.authorize metadata context s).2) := by
  unfold enforce
  simp only [allowed]
  rfl

theorem enforce_state (metadata : ToolMetadata) (context : String) (s : σ) :
    (engine.enforce metadata context s).2 = (engine.authorize metadata context s).2 := by
  unfold enforce
  dsimp only
  split <;> rfl

theorem authorize_disabled (metadata : ToolMetadata) (context : String) (s : σ)
    (disabled : engine.guardrailsEnabled = false) :
    (engine.authorize metadata context s).1.allowed = true ∧
      (engine.authorize metadata context s).2 = s := by
  unfold authorize
  rw [disabled]
  exact ⟨rfl, rfl⟩

end GuardrailEngine

end Rankuno
