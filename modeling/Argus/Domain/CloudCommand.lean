import Argus.Domain.Authorization

/-!
# Cloud-issued commands

The record an installation keeps of one capability invocation requested by the cloud,
and the messages the request and its result travel in. The command's id is also its
idempotency key. Timestamps that only label a record are left out.
-/

namespace Argus

/-- The lifecycle of a command. -/
inductive CloudCommandStatus
  | received
  | refused
  | executing
  | acknowledged
  | failed
  deriving DecidableEq

/-- A terminal command is never executed again. -/
def CloudCommandStatus.isTerminal : CloudCommandStatus → Bool
  | refused | acknowledged | failed => true
  | received | executing => false

/-- Why an invocation was refused. -/
inductive RefusalReason
  | unknownCapability
  | invalidInput
  | executionDisabled
  | policyDenied
  | approvalRequired
  deriving DecidableEq

/-- The operator-facing explanation. -/
def RefusalReason.describe : RefusalReason → String
  | unknownCapability => "the capability is not published by this installation"
  | invalidInput => "the input does not match the capability's declared schema"
  | executionDisabled => "cloud-issued privileged execution is disabled locally"
  | policyDenied => "local policy denied the invocation"
  | approvalRequired => "local approval is required and has not been granted"

/-- A capability invocation requested by the cloud. -/
structure CloudCommand where
  commandId : Uuid
  environmentId : Uuid
  capabilityId : CapabilityId
  input : Value
  correlationId : Option String
  status : CloudCommandStatus
  refusalReason : Option RefusalReason
  result : Option Value
  attemptCount : Nat
  deriving DecidableEq

namespace CloudCommand

/-- A newly received invocation. -/
def new (commandId environmentId : Uuid) (capabilityId : CapabilityId) (input : Value)
    (correlationId : Option String) : CloudCommand :=
  { commandId, environmentId, capabilityId, input, correlationId
    status := .received
    refusalReason := none
    result := none
    attemptCount := 1 }

/-- Marks the command refused and records why. -/
def refuse (command : CloudCommand) (reason : RefusalReason) : CloudCommand :=
  { command with status := .refused, refusalReason := some reason }

end CloudCommand

/-- The authorization outcome of an invocation. -/
inductive DecisionOutcome
  | permitted
  | denied
  | requireApproval
  deriving DecidableEq

/-- The installation's own authorization verdict for an invocation. -/
structure ExecutionDecision where
  commandId : Uuid
  outcome : DecisionOutcome
  riskClass : RiskClass
  blastRadius : BlastRadius
  policyId : String
  reason : String
  deriving DecidableEq

/-! ### Messages -/

/-- `command.invoke`, decoded. -/
structure CommandInvokePayload where
  commandId : Uuid
  capabilityId : String
  input : List (String × Value)
  correlationId : Option String

/-- An inbound frame. Its payload is what deserialization made of it. -/
structure CommandFrame where
  messageId : Uuid
  correlationId : Option Uuid
  payload : Option CommandInvokePayload

/-- The outcome of a capability invocation. -/
inductive CommandResultStatus
  | acknowledged
  | failed
  | refused
  deriving DecidableEq

/-- `command.result`. -/
structure CommandResultPayload where
  commandId : Uuid
  status : CommandResultStatus
  result : Option (List (String × Value))
  reason : Option String
  deriving DecidableEq

/-- The audit record of a command's outcome. -/
structure CommandAudit where
  commandId : Uuid
  capability : String
  outcome : String
  detail : Option String
  evidence : Option Value
  deriving DecidableEq

/-- Errors of the repository. -/
inductive RepositoryError
  | unavailable (reason : String)
  | failed (reason : String)
  | corrupt (reason : String)
  deriving DecidableEq

end Argus
