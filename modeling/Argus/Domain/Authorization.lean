import Argus.Domain.Capability

/-!
# The authorization boundary

What crosses it: a `CapabilityRequest` is proposed, an `AuthorizationRequest` is
evaluated, a `PolicyDecision` comes back, and only an `AuthorizedAction` reaches an
executor. The last type carries the proof that its decision is `allow`, so an
executor cannot be handed anything else.

Timestamps that only label a record (`requested_at`, `decided_at`) are left out.
-/

namespace Argus

/-- The identity of a client, verified out of band; an unattributed one has neither id. -/
structure Principal where
  uid : Option UInt32
  gid : Option UInt32
  deriving DecidableEq

/-- The principal of a request that arrived over the cloud channel. -/
def Principal.cloud : Principal := ⟨none, none⟩

/-- A stable resource identifier of the form `kind:identifier`. -/
structure ResourceId where
  asStr : String
  deriving DecidableEq

/-- The context attached to every request. -/
structure RequestContext where
  correlationId : Uuid
  principal : Principal
  deriving DecidableEq

/-- A typed request to invoke a capability. -/
structure CapabilityRequest where
  capability : CapabilityId
  principal : Principal
  resource : Option ResourceId
  arguments : Value
  context : RequestContext
  deriving DecidableEq

/-- A request to authorize a capability invocation. -/
structure AuthorizationRequest where
  capabilityRequest : CapabilityRequest
  riskClass : RiskClass
  blastRadius : BlastRadius
  requiresApproval : Bool
  deriving DecidableEq

namespace AuthorizationRequest

/-- A request that asks for no approval yet. -/
def new (request : CapabilityRequest) (risk : RiskClass) (radius : BlastRadius) :
    AuthorizationRequest := ⟨request, risk, radius, false⟩

/-- Derive the approval requirement from the capability's own declaration. -/
def requiringApproval (authz : AuthorizationRequest) (required : Bool) : AuthorizationRequest :=
  { authz with requiresApproval := required }

end AuthorizationRequest

/-- The outcome of a policy evaluation. -/
inductive PolicyOutcome
  | allow
  | deny
  | requireApproval
  deriving DecidableEq, Repr

/-- The outcome's name as the source prints it. -/
def PolicyOutcome.debug : PolicyOutcome → String
  | allow => "Allow"
  | deny => "Deny"
  | requireApproval => "RequireApproval"

/-- A deterministic, auditable policy decision. -/
structure PolicyDecision where
  outcome : PolicyOutcome
  reason : String
  policyId : String
  deriving DecidableEq

namespace PolicyDecision

def allow (policyId reason : String) : PolicyDecision := ⟨.allow, reason, policyId⟩
def deny (policyId reason : String) : PolicyDecision := ⟨.deny, reason, policyId⟩
def requireApproval (policyId reason : String) : PolicyDecision :=
  ⟨.requireApproval, reason, policyId⟩

def isAllowed (d : PolicyDecision) : Bool := d.outcome == .allow

end PolicyDecision

/-! ### The executor boundary -/

/-- Whether an operation that failed after taking effect was undone. -/
inductive ReversalStatus
  | notAttempted
  | reversed
  | reversalFailed
  | notPossible
  deriving DecidableEq

/-- The status's name as the source prints it. -/
def ReversalStatus.debug : ReversalStatus → String
  | notAttempted => "NotAttempted"
  | reversed => "Reversed"
  | reversalFailed => "ReversalFailed"
  | notPossible => "NotPossible"

/-- Errors from the executor boundary. -/
inductive ExecutionError
  | notAuthorized (outcome : PolicyOutcome)
  | unsupported (capability : CapabilityId)
  | failed (reason : String)
  /-- A guardrail refused the action before the effect ran. -/
  | guardrailViolation (capability : CapabilityId) (reason : String)
  /-- The operation failed after it had already changed the host. -/
  | failedAfterEffect (reason : String) (reversal : ReversalStatus)
  deriving DecidableEq

/-- The error's text. -/
def ExecutionError.display : ExecutionError → String
  | notAuthorized outcome => "action is not authorized (outcome: " ++ outcome.debug ++ ")"
  | unsupported capability =>
      "capability '" ++ capability.asStr ++ "' is not supported by this executor"
  | failed reason => "execution failed: " ++ reason
  | guardrailViolation capability reason =>
      "guardrail refused '" ++ capability.asStr ++ "': " ++ reason
  | failedAfterEffect reason reversal =>
      "the operation failed after taking effect (" ++ reversal.debug ++ "): " ++ reason

/-- An action that has been authorized by policy. -/
structure AuthorizedAction where
  request : CapabilityRequest
  decision : PolicyDecision
  allowed : decision.outcome = .allow
  deriving DecidableEq

namespace AuthorizedAction

/-- The only way to an authorized action: the decision must be `allow`. -/
def new (request : CapabilityRequest) (decision : PolicyDecision) :
    Except ExecutionError AuthorizedAction :=
  if h : decision.outcome = .allow then .ok ⟨request, decision, h⟩
  else .error (.notAuthorized decision.outcome)

def capability (action : AuthorizedAction) : CapabilityId := action.request.capability

theorem new_of_allow {request : CapabilityRequest} {decision : PolicyDecision}
    (h : decision.outcome = .allow) : new request decision = .ok ⟨request, decision, h⟩ := by
  simp [new, h]

end AuthorizedAction

/-- Errors from service control. -/
inductive ServiceError
  | unavailable (reason : String)
  | failed (reason : String)
  deriving DecidableEq

def ServiceError.display : ServiceError → String
  | unavailable reason => "service control unavailable: " ++ reason
  | failed reason => "service operation failed: " ++ reason

/-- Errors from the remediation controllers. -/
inductive RemediationError
  | unavailable (reason : String)
  | failed (reason : String)
  deriving DecidableEq

def RemediationError.display : RemediationError → String
  | unavailable reason => "remediation target is unavailable: " ++ reason
  | failed reason => "remediation operation failed: " ++ reason

end Argus
