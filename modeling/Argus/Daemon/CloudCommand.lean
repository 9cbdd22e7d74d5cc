import Argus.Domain.CloudCommand
import Argus.Lib.Interaction

/-!
# Handling a cloud-issued command

One delivery goes through a fixed ladder of checks: is the command on record already; is
its capability published; does its input match the declared schema; is host-changing
execution enabled here; does local policy permit it; is a required approval there to be
consumed. A command that fails a check is refused on record; one that passes is recorded as
executing, run under the privileged limiter, and recorded again with its outcome.

Every answer the ladder depends on comes from a port, the store's among them, so a run of
`handleCommandInvoke` is a run against any store, working or not. The limiter's `run` is
two requests: the wait for a slot, and the operation under its timeout.
-/

namespace Argus

open Interaction

/-- What the supervisor is configured with, as far as commands read it. -/
structure CommandDeps where
  environmentId : Uuid
  requestTimeoutSeconds : Nat

/-- How an operation under the limiter ended. -/
inductive OperationReply
  | finished (result : Except ExecutionError Value)
  | timedOut
  deriving DecidableEq

/-- One operation of one port of the supervisor. -/
inductive CloudPort
  | getCloudCommand (commandId : Uuid)
  | putCloudCommand (command : CloudCommand)
  | listUnfinishedCloudCommands
  | putExecutionDecision (decision : ExecutionDecision)
  | putAuditEvent (audit : CommandAudit)
  /-- The published capability surface. -/
  | capabilities
  /-- The local kill switch. -/
  | privilegedExecution
  | policyEvaluate (authz : AuthorizationRequest)
  /-- `Utc::now`. -/
  | now
  | approvalsConsume (token : Uuid) (contextHash : String) (now : DateTime)
  /-- The limiter's wait for a slot. -/
  | acquire (queueBudget : Nat)
  /-- The executor, under the resource's lock and the operation's timeout. -/
  | execute (resource : String) (timeoutBudget : Nat) (action : AuthorizedAction)
  | send (result : CommandResultPayload) (correlation : Option Uuid)
  deriving DecidableEq

/-- What each operation answers. -/
@[reducible] def CloudPort.Reply : CloudPort → Type
  | getCloudCommand _ => Except RepositoryError (Option CloudCommand)
  | putCloudCommand _ => Except RepositoryError Unit
  | listUnfinishedCloudCommands => Except RepositoryError (List CloudCommand)
  | putExecutionDecision _ => Except RepositoryError Unit
  | putAuditEvent _ => Except RepositoryError Unit
  | capabilities => List CapabilityDescriptor
  | privilegedExecution => Bool
  | policyEvaluate _ => PolicyDecision
  | now => DateTime
  | approvalsConsume _ _ _ => Bool
  | acquire _ => Bool
  | execute _ _ _ => OperationReply
  | send _ _ => Unit

/-- A program of the supervisor. -/
abbrev CloudM := Prog CloudPort.Reply

/-- One request of the supervisor with its answer. -/
abbrev CloudEvent := Event CloudPort.Reply

abbrev CloudTrace := List CloudEvent

namespace CloudCommand

/-- Ask a port. -/
def ask (port : CloudPort) : CloudM port.Reply := Prog.call port

/-- The event of a port answering `reply`. -/
abbrev ev (port : CloudPort) (reply : port.Reply) : CloudEvent := ⟨port, reply⟩

/-! ### Reporting -/

def sendCommandResult (commandId : Uuid) (status : CommandResultStatus) (result : Option Value)
    (reason : Option String) (correlation : Option Uuid) : CloudM Unit :=
  ask (.send ⟨commandId, status, result.bind Value.asObject, reason⟩ correlation)

/-- The wire status of a stored one; a command still under way has none. -/
def resultStatus : CloudCommandStatus → Option CommandResultStatus
  | .acknowledged => some .acknowledged
  | .refused => some .refused
  | .failed => some .failed
  | .received | .executing => none

/-- Re-reports the stored result of a command that reached a terminal state. -/
def reportStoredResult (command : CloudCommand) (correlation : Option Uuid) : CloudM Unit :=
  match resultStatus command.status with
  | none => pure ()
  | some status =>
      sendCommandResult command.commandId status command.result
        (command.refusalReason.map RefusalReason.describe) correlation

/-- Persists the authorization verdict for an invocation. -/
def recordExecutionDecision (commandId : Uuid) (descriptor : CapabilityDescriptor)
    (decision : PolicyDecision) : CloudM (Except RepositoryError Unit) :=
  ask (.putExecutionDecision
    { commandId
      outcome := match decision.outcome with
        | .allow => .permitted
        | .deny => .denied
        | .requireApproval => .requireApproval
      riskClass := descriptor.riskClass
      blastRadius := descriptor.effectiveBlastRadius
      policyId := decision.policyId
      reason := decision.reason })

/-- Records a refusal and reports it. A capability id that is not one leaves no record. -/
def refuseCommand (deps : CommandDeps) (payload : CommandInvokePayload)
    (correlation : Option Uuid) (reason : RefusalReason) : CloudM Unit :=
  match CapabilityId.new payload.capabilityId with
  | none =>
      sendCommandResult payload.commandId .refused none
        (some RefusalReason.unknownCapability.describe) correlation
  | some capability => do
      let command := CloudCommand.new payload.commandId deps.environmentId capability
        (.object payload.input) payload.correlationId
      let _ ← ask (.putCloudCommand (command.refuse reason))
      let _ ← ask (.putAuditEvent ⟨payload.commandId, payload.capabilityId, "refused",
        some reason.describe, none⟩)
      sendCommandResult payload.commandId .refused none (some reason.describe) correlation

/-! ### The ladder -/

/-- The authorization request of an invocation: its descriptor's own risk, radius and
approval flag, and the unattributed cloud principal. -/
def authorizationFor (payload : CommandInvokePayload) (descriptor : CapabilityDescriptor) :
    AuthorizationRequest :=
  (AuthorizationRequest.new
    { capability := descriptor.id
      principal := .cloud
      resource := none
      arguments := .object payload.input
      context := ⟨payload.commandId, .cloud⟩ }
    descriptor.riskClass descriptor.effectiveBlastRadius).requiringApproval
      descriptor.requiresApproval

/-- The verdict once a required approval was consumed. -/
def approved (decision : PolicyDecision) : PolicyDecision :=
  .allow decision.policyId (decision.reason ++ " (approved locally)")

/-- The structural gate in front of the executor. -/
def authorized (authz : AuthorizationRequest) (decision : PolicyDecision) :
    Except RefusalReason AuthorizedAction :=
  match AuthorizedAction.new authz.capabilityRequest decision with
  | .ok action => .ok action
  | .error _ => .error .policyDenied

/-- Checks 5 and 6: local policy, and the approval it may ask for. -/
def authorizeCommand (payload : CommandInvokePayload) (descriptor : CapabilityDescriptor) :
    CloudM (Except RefusalReason AuthorizedAction) := do
  let authz := authorizationFor payload descriptor
  let decision ← ask (.policyEvaluate authz)
  match decision.outcome with
  | .deny =>
      let _ ← recordExecutionDecision payload.commandId descriptor decision
      pure (.error .policyDenied)
  | .requireApproval =>
      let now ← ask .now
      let consumed ← ask (.approvalsConsume payload.commandId "" now)
      let _ ← recordExecutionDecision payload.commandId descriptor
        (if consumed then approved decision else decision)
      pure (if consumed then authorized authz (approved decision) else .error .approvalRequired)
  | .allow =>
      let _ ← recordExecutionDecision payload.commandId descriptor decision
      pure (authorized authz decision)

/-- Check 4: the kill switch, which is read for host-changing capabilities only. -/
def executionEnabled (descriptor : CapabilityDescriptor) : CloudM Bool :=
  if descriptor.changesTheHost then ask .privilegedExecution else pure true

/-- Checks 2 to 6, for a command not on record. -/
def checkCommand (payload : CommandInvokePayload) :
    CloudM (Except RefusalReason (CapabilityDescriptor × AuthorizedAction)) := do
  let surface ← ask .capabilities
  match surface.find? fun candidate => candidate.id.asStr == payload.capabilityId with
  | none => pure (.error .unknownCapability)
  | some descriptor =>
      if !inputMatches descriptor.inputSchema (.object payload.input) then
        pure (.error .invalidInput)
      else
        let enabled ← executionEnabled descriptor
        if !enabled then pure (.error .executionDisabled)
        else
          let verdict ← authorizeCommand payload descriptor
          pure (verdict.map fun action => (descriptor, action))

/-! ### Execution -/

/-- The resource an operation is serialized on. -/
def resourceOf (descriptor : CapabilityDescriptor) (action : AuthorizedAction) : String :=
  match action.request.resource with
  | some resource => resource.asStr
  | none => (action.request.arguments.getStr "unit").getD descriptor.id.asStr

/-- Runs the action under the limiter: its status, result and reason. -/
def runLimited (deps : CommandDeps) (descriptor : CapabilityDescriptor)
    (action : AuthorizedAction) :
    CloudM (CommandResultStatus × Option Value × Option String) := do
  if !(← ask (.acquire deps.requestTimeoutSeconds)) then
    pure (.failed, none, some "the operation waited past its queue budget and never ran")
  else
    match ← ask (.execute (resourceOf descriptor action)
        (descriptor.timeoutSeconds.getD deps.requestTimeoutSeconds) action) with
    | .finished (.ok evidence) => pure (.acknowledged, some evidence, none)
    | .finished (.error error) => pure (.failed, none, some error.display)
    | .timedOut => pure (.failed, none, some ("the operation exceeded its timeout and its " ++
        "outcome is unknown; verify it manually"))

/-- The stored status of a reported one. -/
def storedStatus : CommandResultStatus → CloudCommandStatus
  | .acknowledged => .acknowledged
  | .refused => .refused
  | .failed => .failed

/-- The audit's word for a status. -/
def auditOutcome : CommandResultStatus → String
  | .acknowledged => "acknowledged"
  | .refused => "refused"
  | .failed => "failed"

/-- The record of a command about to run. -/
def executingRow (deps : CommandDeps) (payload : CommandInvokePayload)
    (descriptor : CapabilityDescriptor) : CloudCommand :=
  { CloudCommand.new payload.commandId deps.environmentId descriptor.id (.object payload.input)
      payload.correlationId with status := .executing }

/-- Check 7: record the command as executing, run it, record and report its outcome. -/
def executeCommand (deps : CommandDeps) (payload : CommandInvokePayload)
    (correlation : Option Uuid) (descriptor : CapabilityDescriptor) (action : AuthorizedAction) :
    CloudM Unit := do
  let command := executingRow deps payload descriptor
  let _ ← ask (.putCloudCommand command)
  let (status, result, reason) ← runLimited deps descriptor action
  let _ ← ask (.putCloudCommand { command with status := storedStatus status, result })
  let _ ← ask (.putAuditEvent ⟨payload.commandId, descriptor.id.asStr, auditOutcome status, reason,
    result⟩)
  sendCommandResult payload.commandId status result reason correlation

end CloudCommand

open CloudCommand

/-- One cloud-issued invocation, from validation to reporting. A lookup that fails is
treated like one that finds nothing. -/
def handleCommandInvoke (deps : CommandDeps) (frame : CommandFrame) : CloudM Unit :=
  let correlation := frame.correlationId.or (some frame.messageId)
  match frame.payload with
  | none => pure ()
  | some payload => do
      match ← ask (.getCloudCommand payload.commandId) with
      | .ok (some existing) =>
          if existing.status.isTerminal then reportStoredResult existing correlation else pure ()
      | _ =>
          match ← checkCommand payload with
          | .error reason => refuseCommand deps payload correlation reason
          | .ok (descriptor, action) => executeCommand deps payload correlation descriptor action

/-- The reason reported for a command a restart found unfinished. -/
def interruptedReason : CloudCommandStatus → String
  | .executing => "the daemon restarted while this operation was executing; its outcome is " ++
      "unknown and must be verified manually"
  | _ => "the daemon restarted before this operation was executed"

namespace CloudCommand

/-- Settles unfinished commands as failed, and reports each. -/
def settleCommands : List CloudCommand → CloudM Unit
  | [] => pure ()
  | command :: rest => do
      let _ ← ask (.putCloudCommand { command with status := .failed })
      sendCommandResult command.commandId .failed none (some (interruptedReason command.status))
        none
      settleCommands rest

end CloudCommand

/-- Settles commands left unfinished by a previous run; does nothing when the store cannot
list them. -/
def resolveInterruptedCommands : CloudM Unit := do
  match ← ask .listUnfinishedCloudCommands with
  | .error _ => pure ()
  | .ok unfinished => settleCommands unfinished

/-! ### Fixed answers -/

/-- What the ports other than the store answer, for one delivery. -/
structure CommandInputs where
  surface : List CapabilityDescriptor
  /-- The kill switch. -/
  enabled : Bool
  policy : AuthorizationRequest → PolicyDecision
  /-- An approval for the command is there to be consumed. -/
  approved : Bool
  /-- The limiter has a slot within the queue budget. -/
  slot : Bool
  operation : OperationReply
  now : DateTime

/-- How the store answers one delivery: the lookup of the command's row, and the write that
marks it executing. What the other writes answer is ignored. -/
structure StoreAnswers where
  lookup : Except RepositoryError (Option CloudCommand)
  recording : Except RepositoryError Unit

/-- The answers to a delivery. -/
def CommandInputs.answer (inputs : CommandInputs) (store : StoreAnswers) :
    (port : CloudPort) → port.Reply
  | .getCloudCommand _ => store.lookup
  | .putCloudCommand command => if command.status = .executing then store.recording else .ok ()
  | .listUnfinishedCloudCommands => .ok []
  | .putExecutionDecision _ | .putAuditEvent _ => .ok ()
  | .capabilities => inputs.surface
  | .privilegedExecution => inputs.enabled
  | .policyEvaluate authz => inputs.policy authz
  | .now => inputs.now
  | .approvalsConsume _ _ _ => inputs.approved
  | .acquire _ => inputs.slot
  | .execute _ _ _ => inputs.operation
  | .send _ _ => ()

/-! ### A restart -/

/-- A capability without a declared schema. -/
def restartDescriptor : CapabilityDescriptor :=
  { id := ⟨CapabilityId.hostServiceRestart, CapabilityId.hostServiceRestart_valid⟩
    riskClass := .lowRisk
    inputSchema := .null
    blastRadius := some .host
    requiresApproval := false
    timeoutSeconds := none }

/-- Inputs under which a restart passes every check. -/
def CommandInputs.permitting : CommandInputs :=
  { surface := [restartDescriptor]
    enabled := true
    policy := fun _ => .allow "bootstrap.read-only" "permitted"
    approved := false
    slot := true
    operation := .finished (.ok (.object []))
    now := ⟨0⟩ }

/-- The delivery of a restart. -/
def restartFrame : CommandFrame :=
  ⟨1, none, some ⟨2, CapabilityId.hostServiceRestart, [("unit", .string "nginx")], none⟩⟩

end Argus
