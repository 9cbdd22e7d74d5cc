import Argus.Daemon.Ports
import Argus.Policy.Approval

/-!
# The control loop

Routes a proposed plan through governance, policy, the budget, the autonomy matrix,
the escalation decision and execution, one step after another (`control.rs`).

* `runStep` is one turn of the step loop: the skip of an already executed step, the
  governor, policy, and — in the `Allow` branch — budget, matrix and escalation.
* `executeAllowedStep` is what a step that passed its gates does: the desired-state
  check, the effect, validation, and on failure the rollback of what was executed.
* `runSteps` and `runPlan` are the loop; `runPlan` serves the first run
  (`resume = none`) and the resumed one (`resume = some executed`) alike.

The indices a run remembers as executed are positions of its plan, so the source's
`plan.steps[index]` never panics. Log lines are left out; the requests the loop makes of
its ports are all here, in the source's order.
-/

namespace Argus

open Interaction

/-! ### Classification of capabilities -/

namespace Control

open CapabilityId

/-- Risk class of an executable capability; anything unknown is `controlled`. -/
def riskFor (capability : CapabilityId) : RiskClass :=
  let id := capability.asStr
  if id ∈ [hostServiceRestart, hostServiceStop, hostServiceStart, hostCgroupFreeze,
      hostCgroupThaw] then .lowRisk
  else if id ∈ [hostProcessSignal, k8sPodDelete] then .highRisk
  else if id ∈ [containerRestart, k8sPodRestart, k8sDeploymentRestart, k8sDeploymentRollback,
      k8sWorkloadScale, k8sNodeCordon, k8sNodeUncordon, k8sJobCleanup, hostMemoryReclaim,
      hostJournalVacuum] then .controlled
  else if id ∈ [k8sNodeDrain, k8sWorkloadReschedule] then .highRisk
  else if capability.startsWith "mcp." then .highRisk
  else .controlled

/-- The risk class the loop governs a step by: the static table, except for the external
MCP tools, whose registered descriptors are the operator's own trust decisions. -/
def governedRisk (capability : CapabilityId) (registry : CapabilityRegistry) : RiskClass :=
  if capability.isMcpCapability then
    ((registry.get capability).map CapabilityDescriptor.riskClass).getD (riskFor capability)
  else riskFor capability

/-- Whether the Kubernetes executor performs the capability. -/
def isKubernetesAction (capability : CapabilityId) : Bool :=
  capability.asStr ∈ [k8sPodRestart, k8sPodDelete, k8sDeploymentRestart, k8sDeploymentRollback,
    k8sWorkloadScale, k8sNodeCordon, k8sNodeUncordon, k8sJobCleanup, k8sClusterRead, k8sNodeRead,
    k8sPodRead, k8sDeploymentRead]

/-- Whether the loop executes the capability through its service controller. -/
def isServiceAction (capability : CapabilityId) : Bool :=
  capability.asStr ∈ [hostServiceRestart, hostServiceStop, hostServiceStart]

/-- Whether the remediation executor performs the capability. -/
def remediationHandles (capability : CapabilityId) : Bool :=
  capability.asStr ∈ [hostProcessSignal, containerRestart, hostCgroupFreeze, hostCgroupThaw,
    hostMemoryReclaim, hostJournalVacuum] || capability.isMcpCapability

/-- The machine-checkable state a capability moves its target toward, when one exists. -/
def desiredState (capability : CapabilityId) : Option Bool :=
  let id := capability.asStr
  if id ∈ [hostServiceStart, hostServiceRestart] then some true
  else if id = hostServiceStop then some false
  else if id = containerRestart then some true
  else if id = hostCgroupFreeze then some true
  else if id = hostCgroupThaw then some false
  else if id = k8sPodRestart then some true
  else if id = k8sPodDelete then some false
  else if id ∈ [k8sDeploymentRestart, k8sDeploymentRollback] then some true
  else if id = k8sNodeCordon then some false
  else if id = k8sNodeUncordon then some true
  else none

/-- The subject a governance decision and a live-state read name, per family. -/
def actionTarget (action : Action) : Option String :=
  if isKubernetesAction action.capability then
    (action.arguments.getStr "name").map fun name =>
      (action.arguments.getStr "namespace").getD "default" ++ "/" ++ name
  else ["path", "container", "unit"].findSome? fun key => action.arguments.getStr key

/-- Whether the capability belongs to a family the governor gates. -/
def governed (capability : CapabilityId) (prefixes : List String) : Bool :=
  prefixes.any fun family => capability.startsWith family

/-- Whether the level is one where the escalation decision applies. -/
def escalationBounded (autonomy : AutonomyMode) : Bool :=
  autonomy == .l4Autonomous || autonomy == .l5Adaptive

/-- Whether the escalation decision returns an automatic fix for this step. -/
def escalationPermits (plan : Plan) (registry : CapabilityRegistry) (index : StepIndex plan)
    (capability : CapabilityId) (autonomy : AutonomyMode) (risk : RiskClass) : Bool :=
  let reversible :=
    ((plan.step index).rollback.any fun r => r.capability.asStr != capability.asStr) ||
      risk == .read
  let declared := (registry.get capability).bind fun d => d.blastRadius.map (d.riskClass, ·)
  let (risk, blastRadius) := declared.getD (risk, plan.blastRadius)
  decideEscalation
    { evidenceQuality := .adequate
      confidence := (plan.confidence.clamp 0 1).asF32
      reversible
      blastRadius
      risk
      criticality := .standard
      environment := .production
      historicalSuccess := none
      autonomy
      policy := .allow } == .autoFix

end Control

/-! ### Outcomes of a run -/

/-- The result of routing a plan through the safety boundary. -/
structure ExecutionOutcome where
  executions : List Execution
  denied : List CapabilityId
  requiresApproval : List CapabilityId
  status : PlanStatus
  planId : Uuid
  deriving DecidableEq

/-- A plan paused at a step, bound to a single-use token and its context hash, with the
steps that already executed. -/
structure PendingPlan where
  plan : Plan
  token : Uuid
  contextHash : String
  executed : List (StepIndex plan)
  dedupKey : Option String

/-- The outcome of the shared step loop. -/
inductive PlanRun
  | finished (outcome : ExecutionOutcome)
  | paused (pending : PendingPlan)

namespace Control

/-- What one run of the loop is given and does not change. -/
structure RunEnv where
  plan : Plan
  registry : CapabilityRegistry
  autonomy : AutonomyMode
  /-- The families the governor port gates. -/
  governedPrefixes : List String
  resumed : Bool
  correlation : Uuid
  contextHash : String

/-- What the loop carries from step to step: the outcome so far, and the steps that took
effect, in the order they did. -/
structure LoopState (plan : Plan) where
  outcome : ExecutionOutcome
  executed : List (StepIndex plan)

/-- One turn of the loop either goes on to the next step or ends the run. -/
inductive Turn (plan : Plan)
  | next (state : LoopState plan)
  | stop (run : PlanRun)

/-! ### Executing one action -/

/-- One ledger record for an execution attempt. -/
def actionEvent (action : Action) (correlation : Uuid) (verdict : String)
    (policyId : Option String) (outcome : String) (validation : Option Value) :
    ActionEventRecord :=
  { correlationId := correlation
    planId := some correlation
    kind := action.capability.asStr
    target := actionTarget action
    args := action.arguments
    verdict
    policyId
    outcome
    validation }

/-- The request an action crosses the policy and executor boundaries as. -/
def requestFor (action : Action) (correlation : Uuid) : CapabilityRequest :=
  { capability := action.capability
    principal := ⟨none, none⟩
    resource := action.resource
    arguments := action.arguments
    context := ⟨correlation, ⟨none, none⟩⟩ }

/-- Executes one service action through the service controller. -/
def executeService (site : Site) (action : Action) : LoopM (Except String Value) :=
  match action.arguments.getStr "unit" with
  | none => pure (.error "action missing 'unit' argument")
  | some unit =>
      let id := action.capability.asStr
      if id = CapabilityId.hostServiceRestart then do
        pure (serviceEvidence id unit (← ask site (.serviceRestart unit)))
      else if id = CapabilityId.hostServiceStop then do
        pure (serviceEvidence id unit (← ask site (.serviceStop unit)))
      else if id = CapabilityId.hostServiceStart then do
        pure (serviceEvidence id unit (← ask site (.serviceStart unit)))
      else pure (.error ("unsupported executable capability '" ++ id ++ "'"))

/-- Executes one action through an executor, as an `AuthorizedAction`. -/
def executeThrough (executor : AuthorizedAction → LoopM (Except ExecutionError Value))
    (action : Action) (decision : PolicyDecision) (correlation : Uuid) :
    LoopM (Except String Value) :=
  match AuthorizedAction.new (requestFor action correlation) decision with
  | .error e => pure (.error ("action could not be authorized for execution: " ++ e.display))
  | .ok authorized => do pure (evidenceOf (← executor authorized))

/-- Executes one action through its family's boundary. -/
def executeAction (site : Site) (action : Action) (decision : PolicyDecision)
    (correlation : Uuid) : LoopM (Except String Value) :=
  if isServiceAction action.capability then executeService site action
  else if isKubernetesAction action.capability then
    executeThrough (fun a => ask site (.kubernetesExecute a)) action decision correlation
  else if remediationHandles action.capability then
    executeThrough (fun a => ask site (.remediationExecute a)) action decision correlation
  else
    pure (.error ("unsupported executable capability '" ++ action.capability.asStr ++ "'"))

/-! ### Reading live state -/

/-- A read whose target is a string argument of the action. -/
def readArgument (action : Action) (key : String) (read : String → LoopM (Except String Bool)) :
    LoopM (Except String Bool) :=
  match action.arguments.getStr key with
  | none => pure (.error ("action missing '" ++ key ++ "' argument"))
  | some target => read target

/-- A read whose target is the `(namespace, name)` of a Kubernetes action. -/
def readObject (action : Action) (read : String → String → LoopM (Except String Bool)) :
    LoopM (Except String Bool) :=
  readArgument action "name" (read ((action.arguments.getStr "namespace").getD "default"))

/-- Reads the live state a desired-state check or a validation compares against. -/
def observeTarget (site : Site) (action : Action) : LoopM (Except String Bool) :=
  let id := action.capability.asStr
  if isServiceAction action.capability then
    readArgument action "unit" fun unit => do
      match ← ask site (.serviceIsActive unit) with
      | .ok b => pure (.ok b)
      | .error e => pure (.error e.display)
  else if id = CapabilityId.containerRestart then
    readArgument action "container" fun c => do
      pure (readingOf (← ask site (.containerIsRunning c)))
  else if id ∈ [CapabilityId.hostCgroupFreeze, CapabilityId.hostCgroupThaw] then
    readArgument action "path" fun path => do
      pure (readingOf (← ask site (.cgroupIsFrozen path)))
  else if id ∈ [CapabilityId.k8sPodRestart, CapabilityId.k8sPodDelete] then
    readObject action fun ns name => do pure (readingOf (← ask site (.podRunning ns name)))
  else if id ∈ [CapabilityId.k8sDeploymentRestart, CapabilityId.k8sDeploymentRollback] then
    readObject action fun ns name => do
      pure (readingOf (← ask site (.deploymentAvailable ns name)))
  else if id ∈ [CapabilityId.k8sNodeCordon, CapabilityId.k8sNodeUncordon] then
    readArgument action "name" fun name => do
      pure (readingOf (← ask site (.nodeSchedulable name)))
  else pure (.error ("no live-state read for capability '" ++ id ++ "'"))

/-- Whether the target is already in the action's desired state. `ok false` means the
effect should run; a capability without a desired state is never already there. -/
def desiredStateHolds (site : Site) (action : Action) : LoopM (Except String Bool) :=
  match desiredState action.capability with
  | none => pure (.ok false)
  | some desired => do
      match ← observeTarget site action with
      | .ok observed => pure (.ok (observed == desired))
      | .error e => pure (.error e)

/-- The event type and payload of a re-observed step's validation outcome. -/
def validationEvent (capability : CapabilityId) (unit : String) (expected observed : Bool)
    (contextHash : String) : String × Value :=
  if expected = observed then
    ("validation.passed", .object [("capability", .string capability.asStr),
      ("evidence", .object [("desired", .bool expected), ("observed", .bool observed),
        ("unit", .string unit)]),
      ("plan_id", .string contextHash)])
  else
    ("validation.failed", .object [("capability", .string capability.asStr),
      ("plan_id", .string contextHash),
      ("reason", .string ("observed " ++ toString observed ++ ", desired " ++
        toString expected))])

/-- Re-observes a just-executed step's target and publishes the validation outcome. A
failed read publishes the failure and validates nothing. -/
def validateStep (env : RunEnv) (site : Site) (action : Action) : LoopM (Option Value) :=
  match desiredState action.capability, actionTarget action with
  | some expected, some target => do
      match ← observeTarget site action with
      | .error reason =>
          ask site (.publish "brain.validation.read.failed"
            (.object [("capability", .string action.capability.asStr),
              ("plan_id", .string env.contextHash), ("reason", .string reason),
              ("unit", .string target)]))
          pure none
      | .ok observed =>
          let (eventType, payload) :=
            validationEvent action.capability target expected observed env.contextHash
          ask site (.publish eventType payload)
          pure (some payload)
  | _, _ => pure none

/-! ### Rollback -/

/-- Walks the executed steps, newest first, and undoes each through its declarative
rollback. The walk stops at the first step without one, or whose rollback fails. -/
def rollbackSteps (env : RunEnv) : List (StepIndex env.plan) → LoopM PlanStatus
  | [] => do
      ask .run (.publish "plan.rolled.back" (.object []))
      pure .rolledBack
  | index :: rest =>
      let site := Site.rollback index
      match (env.plan.step index).rollback with
      | none => do
          ask site (.publish "plan.needs.manual" (.object []))
          pure .needsManual
      | some rollback => do
          -- A declared rollback is its own permission: no gate is asked again.
          let decision := PolicyDecision.allow "plan.rollback" "declarative plan rollback"
          match ← executeAction site rollback decision env.correlation with
          | .ok evidence =>
              ask site (.publish "action.rolled.back" evidence)
              ask site (.recordAction (actionEvent rollback env.correlation verdictAllow
                (some decision.policyId) outcomeRolledBack none))
              rollbackSteps env rest
          | .error err =>
              ask site (.publish "action.rollback.failed" (.object [("error", .string err)]))
              ask site (.recordAction (actionEvent rollback env.correlation verdictAllow
                (some decision.policyId) outcomeFailed none))
              ask site (.publish "plan.needs.manual" (.object []))
              pure .needsManual

/-- Undoes the executed steps in reverse order; nothing executed leaves the status as it
is. -/
def rollbackExecuted (env : RunEnv) (state : LoopState env.plan) : LoopM ExecutionOutcome :=
  if state.executed.isEmpty then pure state.outcome
  else do
    ask .run (.publish "plan.rolling.back" (.object []))
    let status ← rollbackSteps env state.executed.reverse
    pure { state.outcome with status }

/-! ### Executing one permitted step -/

/-- Records a failed step. -/
def recordFailure (site : Site) (outcome : ExecutionOutcome) (action : Action)
    (error : String) : LoopM ExecutionOutcome := do
  ask site (.publish "action.failed" (.object [("error", .string error)]))
  let outcome :=
    { outcome with
      executions := outcome.executions ++
        [⟨action, .failed, .object [("error", .string error)]⟩]
      status := .failed }
  ask site (.publish "plan.failed" (.object []))
  pure outcome

/-- The failure exit of a step: record it and roll back what had been executed. -/
def failStep (env : RunEnv) (state : LoopState env.plan) (site : Site) (action : Action)
    (decision : PolicyDecision) (error : String) : LoopM (Turn env.plan) := do
  let outcome ← recordFailure site state.outcome action error
  ask site (.recordAction (actionEvent action env.correlation verdictAllow
    (some decision.policyId) outcomeFailed none))
  let outcome ← rollbackExecuted env { state with outcome }
  pure (.stop (.finished outcome))

/-- Executes one policy-approved step: the desired-state check, then the effect, with
fail-stop rollback on failure. -/
def executeAllowedStep (env : RunEnv) (state : LoopState env.plan) (index : StepIndex env.plan)
    (action : Action) (decision : PolicyDecision) : LoopM (Turn env.plan) := do
  let site := Site.step index
  match ← desiredStateHolds site action with
  | .ok true =>
      -- Not pushed to `executed`: there is nothing to roll back.
      let evidence := Value.object [("already_desired", .bool true)]
      ask site (.publish "action.already.desired" evidence)
      ask site (.recordAction (actionEvent action env.correlation verdictAllow
        (some decision.policyId) outcomeOk (some evidence)))
      pure (.next { state with outcome := { state.outcome with
        executions := state.outcome.executions ++ [⟨action, .completed, evidence⟩] } })
  | .ok false =>
      match ← executeAction site action decision env.correlation with
      | .ok evidence =>
          ask site (.publish "action.executed" evidence)
          let validation ← validateStep env (.validation index) action
          ask site (.recordAction (actionEvent action env.correlation verdictAllow
            (some decision.policyId) outcomeOk validation))
          pure (.next
            { outcome := { state.outcome with
                executions := state.outcome.executions ++ [⟨action, .completed, evidence⟩] }
              executed := state.executed ++ [index] })
      | .error err => failStep env state site action decision err
  | .error err => failStep env state site action decision err

/-! ### The gates -/

/-- Records a denied step and goes on. -/
def denyStep (env : RunEnv) (state : LoopState env.plan) (site : Site) (action : Action)
    (payload : List (String × Value)) (policyId : String) : LoopM (Turn env.plan) := do
  let outcome := { state.outcome with
    denied := state.outcome.denied ++ [action.capability] }
  ask site (.publish "plan.denied" (.object (("capability", .string action.capability.asStr) ::
    payload)))
  ask site (.recordAction (actionEvent action env.correlation verdictDeny (some policyId)
    outcomeDenied none))
  pure (.next { state with outcome })

/-- Records the pause of a step and parks the plan on a fresh single-use token. -/
def pauseStep (env : RunEnv) (toPause : LoopState env.plan) (site : Site) (action : Action)
    (policyId : String) : LoopM (Turn env.plan) := do
  ask site (.recordAction (actionEvent action env.correlation verdictRequiresApproval
    (some policyId) outcomeAwaitingApproval none))
  let token ← ask site .newUuid
  pure (.stop (.paused
    { plan := { env.plan with status := .awaitingApproval }
      token
      contextHash := env.contextHash
      executed := toPause.executed
      dedupKey := none }))

/-- Whether the last execution is an already-desired no-op. -/
def lastIsNoOp (outcome : ExecutionOutcome) : Bool :=
  match outcome.executions.getLast? with
  | some execution =>
      execution.status == .completed &&
        execution.evidence.get "already_desired" == some (.bool true)
  | none => false

/-- The outcome a turn leaves behind; a pause leaves none. -/
def Turn.outcome? {plan : Plan} : Turn plan → Option ExecutionOutcome
  | .next state => some state.outcome
  | .stop (.finished outcome) => some outcome
  | .stop (.paused _) => none

/-- Whether the budget does not ration a permission: an operator's grant stands behind it. -/
def grantBacked (env : RunEnv) (decision : PolicyDecision) : Bool :=
  env.resumed || decision.policyId == "plan.approval"

/-- The verdict a consumed grant is recorded as. -/
def granted : PolicyDecision :=
  .allow "plan.approval" "resumed under a consumed single-use operator grant"

/-- Whether the escalation decision takes a step to a human. -/
def escalates (env : RunEnv) (index : StepIndex env.plan) (action : Action)
    (risk : RiskClass) : Bool :=
  escalationBounded env.autonomy &&
    !escalationPermits env.plan env.registry index action.capability env.autonomy risk

/-- Takes a unit of the budget for a step the budget rations. -/
def reserveUnit (env : RunEnv) (index : StepIndex env.plan) (risk : RiskClass)
    (decision : PolicyDecision) (now : DateTime) : LoopM Bool :=
  if grantBacked env decision then pure true
  else ask (.step index) (.budgetReserve risk env.plan.blastRadius now)

/-- Gives the unit back when the step turned out not to use it. -/
def refundUnit (env : RunEnv) (index : StepIndex env.plan) (risk : RiskClass)
    (decision : PolicyDecision) (now : DateTime) (unused : Bool) : LoopM Unit :=
  if !grantBacked env decision && unused then
    ask (.step index) (.budgetRefund risk env.plan.blastRadius now)
  else pure ()

/-- The `Allow` branch: budget, matrix, escalation, execution, and the refund of a
reservation that turned out to buy nothing. -/
def runAllowed (env : RunEnv) (state : LoopState env.plan) (index : StepIndex env.plan)
    (action : Action) (risk : RiskClass) (decision : PolicyDecision) :
    LoopM (Turn env.plan) := do
  let site := Site.step index
  -- One reading of the clock serves the reservation and its refund.
  let now ← ask site .now
  let reserved ← reserveUnit env index risk decision now
  if !reserved then pauseStep env state site action "budget.exhausted"
  else if !mayExecuteWithoutApproval env.autonomy risk then do
    refundUnit env index risk decision now true
    denyStep env state site action [] "autonomy.matrix"
  else if escalates env index action risk then do
    -- Unlike the approval pause, this one does not look at `resumed`.
    refundUnit env index risk decision now true
    pauseStep env state site action decision.policyId
  else do
    let turn ← executeAllowedStep env state index action decision
    refundUnit env index risk decision now (turn.outcome?.any lastIsNoOp)
    pure turn

/-- The request policy is asked about a step. An unregistered capability asks for
approval. -/
def authorizationFor (env : RunEnv) (action : Action) : AuthorizationRequest :=
  (AuthorizationRequest.new (requestFor action env.correlation)
    (governedRisk action.capability env.registry) env.plan.blastRadius).requiringApproval
      (((env.registry.get action.capability).map
        CapabilityDescriptor.requiresApproval).getD true)

/-- The adjustment the governor is asked about a step. -/
def adjustmentFor (env : RunEnv) (index : StepIndex env.plan) (action : Action) :
    ResourceAdjustment :=
  { subject := (actionTarget action).getD ""
    capability := action.capability.asStr
    reason := "plan step " ++ toString index.val ++ " of '" ++ env.plan.objective ++ "'" }

/-- Policy and what follows from its verdict. -/
def runPolicy (env : RunEnv) (state : LoopState env.plan) (index : StepIndex env.plan)
    (action : Action) : LoopM (Turn env.plan) := do
  let site := Site.step index
  let decision ← ask site (.policyEvaluate (authorizationFor env action))
  match decision.outcome with
  | .deny => denyStep env state site action [] decision.policyId
  | .requireApproval =>
      if !env.resumed then pauseStep env state site action decision.policyId
      else
        -- The consumed grant is what lets the step proceed; the boundary needs an
        -- `Allow` verdict and the grant is recorded as one.
        executeAllowedStep env state index action granted
  | .allow =>
      runAllowed env state index action (governedRisk action.capability env.registry) decision

/-- One turn of the step loop. -/
def runStep (env : RunEnv) (state : LoopState env.plan) (index : StepIndex env.plan) :
    LoopM (Turn env.plan) :=
  if env.resumed && state.executed.contains index then pure (.next state)
  else
    let action := (env.plan.step index).action
    let site := Site.step index
    if governed action.capability env.governedPrefixes then do
      match ← ask site (.governorEvaluate (adjustmentFor env index action)) with
      | .allowed _ => runPolicy env state index action
      | .refused why =>
          denyStep env state site action [("governance", .string why.wire)] "governor"
    else runPolicy env state index action

/-! ### The loop -/

/-- The remaining steps, and the final status once none is left. -/
def runSteps (env : RunEnv) : List (StepIndex env.plan) → LoopState env.plan → LoopM PlanRun
  | [], state =>
      pure (.finished { state.outcome with
        status := if state.outcome.executions.isEmpty then .denied else .completed })
  | index :: rest, state => do
      match ← runStep env state index with
      | .next state => runSteps env rest state
      | .stop run => pure run

end Control

/-- What a caller gives the loop besides the plan and the resume state: the registry
snapshot, the level, the families the governor gates, and the JSON writer the context hash
goes through. -/
structure LoopInputs where
  registry : CapabilityRegistry
  autonomy : AutonomyMode
  governedPrefixes : List String
  toJson : Value → String

namespace Control

/-- The environment of one run. -/
def runEnv (inputs : LoopInputs) (plan : Plan) (resumed : Bool) (correlation : Uuid) : RunEnv :=
  { plan
    registry := inputs.registry
    autonomy := inputs.autonomy
    governedPrefixes := inputs.governedPrefixes
    resumed
    correlation
    contextHash := planContextHash inputs.toJson plan }

/-- The state a run starts from. -/
def initialState (plan : Plan) (resume : Option (List (StepIndex plan))) (correlation : Uuid) :
    LoopState plan :=
  { outcome := ⟨[], [], [], .executing, correlation⟩
    executed := resume.getD [] }

end Control

/-- The shared step loop behind a first run and a resumed one. -/
def runPlan (inputs : LoopInputs) (plan : Plan) (resume : Option (List (StepIndex plan))) :
    LoopM PlanRun := do
  let correlation ← ask .run .newUuid
  ask .run (.publish "plan.proposed" (.object [("objective", .string plan.objective),
    ("steps", .number (.posInt plan.steps.length))]))
  Control.runSteps (Control.runEnv inputs plan resume.isSome correlation)
    (List.finRange plan.steps.length) (Control.initialState plan resume correlation)

/-! ### Running and resuming -/

/-- The result of routing a plan through the safety boundary. -/
inductive RunOutcome
  | finished (outcome : ExecutionOutcome)
  | pending (pending : PendingPlan)

/-- Routes a plan through the loop for the first time. -/
def authorizeAndRunWithPorts (inputs : LoopInputs) (plan : Plan) : LoopM RunOutcome := do
  match ← runPlan inputs plan none with
  | .finished outcome => pure (.finished outcome)
  | .paused pending => pure (.pending pending)

/-- Why a resume was refused. -/
inductive ResumeRefusal
  | stale
  | noGrant
  deriving DecidableEq

/-- The result of resuming a paused plan. -/
inductive ResumeOutcome
  | finished (outcome : ExecutionOutcome)
  | refused (why : ResumeRefusal)
  /-- The `unreachable!` arm: the daemon panics. -/
  | panicked
  deriving DecidableEq

/-- Resumes a paused plan with a previously granted approval, consumed before the plan is
entered again. -/
def resumeAndRunWithPorts (inputs : LoopInputs) (pending : PendingPlan)
    (approvals : ApprovalStore) : LoopM (ResumeOutcome × ApprovalStore) := do
  let now ← ask .run .now
  match approvals.consume pending.token pending.contextHash now with
  | (none, approvals) =>
      let stale := (approvals.get pending.token).any fun approval =>
        approval.contextHash != pending.contextHash
      pure (.refused (if stale then .stale else .noGrant), approvals)
  | (some _, approvals) =>
      match ← runPlan inputs pending.plan (some pending.executed) with
      | .finished outcome => pure (.finished outcome, approvals)
      -- The grant is consumed by now.
      | .paused _ => pure (.panicked, approvals)

/-! ### Small runs -/

/-- `host.service.restart` of a unit. -/
def restartUnit (unit : String) : Action :=
  ⟨⟨CapabilityId.hostServiceRestart, CapabilityId.hostServiceRestart_valid⟩, none,
    .object [("unit", .string unit)]⟩

/-- `host.memory.reclaim` of a cgroup. -/
def reclaimMemory (path : String) : Action :=
  ⟨⟨CapabilityId.hostMemoryReclaim, CapabilityId.hostMemoryReclaim_valid⟩, none,
    .object [("path", .string path)]⟩

/-- A fully confident plan of the given steps. -/
def Plan.ofSteps (steps : List PlanStep) : Plan :=
  ⟨"restore the host", steps, [], [], .host, .finite 1, .proposed, none⟩

/-- One restart, with no declarative rollback. -/
def restartPlan : Plan := .ofSteps [⟨restartUnit "nginx", none⟩]

/-- An empty registry at a level, the autopilot's families, and a constant JSON writer. -/
def LoopInputs.atLevel (autonomy : AutonomyMode) : LoopInputs :=
  ⟨.empty, autonomy, Argus.governedPrefixes, fun _ => ""⟩

end Argus
