import Argus.Daemon.CloudCommandClosed
import Argus.Daemon.ControlAuthorization
import Argus.Policy.Bootstrap

/-!
# Three ways to an effect

A capability can be executed by the plan loop, by the cloud command ladder, and by the
dispatch boundary of this module. Each builds its own authorization request. The first two
carry the descriptor's approval flag into it (`planLoopGated`, `cloudLadderGated`); the
third does not, so it executes an approval-gated capability whenever a policy would allow
it without the flag (`approval_gated_iff`).
-/

namespace Argus

open Interaction Prog

/-- Errors from the capability dispatch boundary. -/
inductive DispatchError
  | denied (outcome : PolicyOutcome)
  | invalidInput (capability : CapabilityId)
  | execution (error : ExecutionError)
  deriving DecidableEq

/-- A program whose only port is an executor. -/
abbrev DispatchM := Prog fun _ : AuthorizedAction => Except ExecutionError Value

/-- The authorization request of a dispatch. -/
def dispatchRequest (request : CapabilityRequest) (descriptor : CapabilityDescriptor) :
    AuthorizationRequest :=
  .new request descriptor.riskClass descriptor.effectiveBlastRadius

/-- Routes a capability request through a registry, a policy and an executor: the input is
checked against the declared schema before the policy is asked. -/
def authorizeAndExecuteWith (registry : CapabilityRegistry)
    (policy : AuthorizationRequest → PolicyDecision) (request : CapabilityRequest) :
    DispatchM (Except DispatchError Value) :=
  match registry.get request.capability with
  | none => pure (.error (.denied .deny))
  | some descriptor =>
      if !inputMatches descriptor.inputSchema request.arguments then
        pure (.error (.invalidInput request.capability))
      else
        let authz := dispatchRequest request descriptor
        let decision := policy authz
        if !decision.isAllowed then pure (.error (.denied decision.outcome))
        else
          match AuthorizedAction.new authz.capabilityRequest decision with
          | .error error => pure (.error (.execution error))
          | .ok action => do
              match ← Prog.call action with
              | .ok evidence => pure (.ok evidence)
              | .error error => pure (.error (.execution error))

variable {registry : CapabilityRegistry} {policy : AuthorizationRequest → PolicyDecision}
variable {request : CapabilityRequest} {descriptor : CapabilityDescriptor}

/-- When a dispatch invokes the executor. -/
theorem authorizeAndExecuteWith_invokes_iff
    {t : List (Event fun _ : AuthorizedAction => Except ExecutionError Value)}
    {result : Except DispatchError Value}
    (hdescriptor : registry.get request.capability = some descriptor)
    (h : Runs (authorizeAndExecuteWith registry policy request) t result) :
    t ≠ [] ↔ inputMatches descriptor.inputSchema request.arguments = true ∧
      (policy (dispatchRequest request descriptor)).outcome = .allow := by
  unfold authorizeAndExecuteWith at h
  rw [hdescriptor] at h
  dsimp only at h
  split_ifs at h with hschema hallowed
  · obtain ⟨rfl, -⟩ := h
    simp only [Bool.not_eq_true'] at hschema
    simp [hschema]
  · obtain ⟨rfl, -⟩ := h
    simp only [PolicyDecision.isAllowed, Bool.not_eq_true', beq_eq_false_iff_ne, ne_eq]
      at hallowed
    simp [hallowed]
  · simp only [PolicyDecision.isAllowed, Bool.not_eq_true', beq_eq_false_iff_ne, ne_eq,
      Bool.not_eq_false, not_not] at hschema hallowed
    rw [AuthorizedAction.new_of_allow hallowed] at h
    obtain ⟨reply, t', -, rfl⟩ := runs_call_bind.mp h
    simp [hschema, hallowed]

/-- A dispatch invokes the executor for an approval-gated capability only when policy,
asked with the approval requirement, allows it. -/
def DispatchGated (registry : CapabilityRegistry) (policy : AuthorizationRequest → PolicyDecision)
    (request : CapabilityRequest) : Prop :=
  ∀ t result descriptor, Runs (authorizeAndExecuteWith registry policy request) t result →
    registry.get request.capability = some descriptor → descriptor.requiresApproval = true →
    t ≠ [] →
      (policy ((dispatchRequest request descriptor).requiringApproval true)).outcome = .allow

theorem dispatchGated_iff : DispatchGated registry policy request ↔
    ∀ descriptor, registry.get request.capability = some descriptor →
      descriptor.requiresApproval = true →
      inputMatches descriptor.inputSchema request.arguments = true →
      (policy (dispatchRequest request descriptor)).outcome = .allow →
        (policy ((dispatchRequest request descriptor).requiringApproval true)).outcome =
          .allow := by
  constructor
  · -- any executor will do: it is invoked once the input and the verdict are as they should
    intro hgated descriptor hdescriptor happroval hschema hallow
    have hrun := play_runs (fun _ u => (.ok .null, u))
      (authorizeAndExecuteWith registry policy request) ()
    refine hgated _ _ descriptor hrun hdescriptor happroval ?_
    exact (authorizeAndExecuteWith_invokes_iff hdescriptor hrun).mpr ⟨hschema, hallow⟩
  · intro hcondition t result descriptor hrun hdescriptor happroval hinvoked
    obtain ⟨hschema, hallow⟩ := (authorizeAndExecuteWith_invokes_iff hdescriptor hrun).mp hinvoked
    exact hcondition descriptor hdescriptor happroval hschema hallow

/-! ### The plan loop and the cloud ladder -/

/-- The plan loop invokes an effect of an approval-gated step only after policy, asked with
the approval requirement, allowed it, or asked for the approval that the resumed run
consumed. -/
def PlanLoopGated (inputs : LoopInputs) (plan : Plan) (resume : Option (List (StepIndex plan))) :
    Prop :=
  ∀ t run, Runs (runPlan inputs plan resume) t run → ∀ (i : StepIndex plan) descriptor,
    inputs.registry.get (plan.step i).action.capability = some descriptor →
    descriptor.requiresApproval = true →
    ∀ (before after : LoopTrace) (e : LoopEvent), t = before ++ e :: after →
      e.IsEffectAt (.step i) →
        ∃ authz decision, ev (.step i) (.policyEvaluate authz) decision ∈ before ∧
          authz.capabilityRequest.capability = (plan.step i).action.capability ∧
          authz.requiresApproval = true ∧
          (decision.outcome = .allow ∨
            decision.outcome = .requireApproval ∧ resume.isSome = true)

open Control in
theorem planLoopGated {inputs : LoopInputs} {plan : Plan}
    {resume : Option (List (StepIndex plan))} : PlanLoopGated inputs plan resume := by
  intro t run h i descriptor hdescriptor happroval before after e ht heffect
  obtain ⟨correlation, -, hcleared⟩ := runPlan_cleared h
  obtain ⟨decision, hmem, -, hverdict⟩ := (hcleared i before e after ht heffect).verdict
  refine ⟨_, decision, List.mem_of_mem_filter hmem, rfl, ?_, ?_⟩
  · simp [authorizationFor, AuthorizationRequest.requiringApproval, runEnv, stepAction,
      hdescriptor, happroval]
  · rcases hverdict with ⟨hallow, -⟩ | hgrant
    · exact .inl hallow
    · exact .inr hgrant

/-- The cloud ladder invokes the executor for an approval-gated capability only when policy,
asked with the approval requirement, allows it, or asks for the approval that was there to
be consumed. -/
def CloudLadderGated (deps : CommandDeps) (frame : CommandFrame) (inputs : CommandInputs)
    (store : StoreAnswers) : Prop :=
  ∀ payload t, frame.payload = some payload → Runs (handleCommandInvoke deps frame) t () →
    (∀ e ∈ t, inputs.Agrees store e) → CloudCommand.invokes t = true →
      ∃ descriptor ∈ inputs.surface, descriptor.id.asStr = payload.capabilityId ∧
        (descriptor.requiresApproval = true →
          (CloudCommand.authorizationFor payload descriptor).requiresApproval = true ∧
          ((inputs.policy (CloudCommand.authorizationFor payload descriptor)).outcome = .allow ∨
            (inputs.policy (CloudCommand.authorizationFor payload descriptor)).outcome =
              .requireApproval ∧ inputs.approved = true))

theorem cloudLadderGated {deps : CommandDeps} {frame : CommandFrame} {inputs : CommandInputs}
    {store : StoreAnswers} : CloudLadderGated deps frame inputs store := by
  intro payload t hpayload h hagrees hinvokes
  rw [invokes_handleCommandInvoke hpayload h hagrees] at hinvokes
  -- invoked, so no check refused: walk the checks to the verdict
  have hrefusal : inputs.refusal payload = none := by simp_all
  unfold CommandInputs.refusal at hrefusal
  split at hrefusal
  · cases hrefusal
  case h_2 descriptor hfind =>
    split_ifs at hrefusal
    refine ⟨descriptor, List.mem_of_find?_eq_some hfind, ?_, fun happroval => ⟨happroval, ?_⟩⟩
    · simpa using List.find?_some hfind
    · unfold CommandInputs.authorizationRefusal at hrefusal
      split at hrefusal
      · cases hrefusal
      case h_2 houtcome =>
        refine .inr ⟨houtcome, ?_⟩
        by_contra hnot
        simp [hnot] at hrefusal
      case h_3 houtcome => exact .inl houtcome

/-- **Approval gating on the three paths.** They all gate a capability that requires
approval exactly when the dispatch does: the capability is not registered or does not
require approval, its input violates the schema, policy does not allow it without the
requirement, or allows it with it. -/
theorem approval_gated_iff (registry : CapabilityRegistry)
    (policy : AuthorizationRequest → PolicyDecision) (request : CapabilityRequest) :
    (DispatchGated registry policy request ∧
      (∀ inputs plan resume, PlanLoopGated inputs plan resume) ∧
      ∀ deps frame inputs store, CloudLadderGated deps frame inputs store) ↔
    ∀ descriptor, registry.get request.capability = some descriptor →
      descriptor.requiresApproval = true →
      inputMatches descriptor.inputSchema request.arguments = true →
      (policy (dispatchRequest request descriptor)).outcome = .allow →
        (policy ((dispatchRequest request descriptor).requiringApproval true)).outcome =
          .allow := by
  rw [← dispatchGated_iff]
  exact and_iff_left ⟨fun _ _ _ => planLoopGated, fun _ _ _ _ => cloudLadderGated⟩

/-- The restart, registered as one that needs an approval each time. -/
def gatedRegistry : CapabilityRegistry :=
  ⟨[{ restartDescriptor with requiresApproval := true }], by simp⟩

/-- A request for it. -/
def restartRequest : CapabilityRequest :=
  { capability := ⟨CapabilityId.hostServiceRestart, CapabilityId.hostServiceRestart_valid⟩
    principal := .cloud
    resource := none
    arguments := .object [("unit", .string "nginx")]
    context := ⟨0, .cloud⟩ }

/-- The daemon's own policy asks for an approval when told that the capability needs one,
is not told so, and the restart is executed. -/
theorem gated_restart_dispatched :
    (BootstrapPolicyEvaluator.new.evaluate ((dispatchRequest restartRequest
        { restartDescriptor with requiresApproval := true }).requiringApproval true)).outcome =
      .requireApproval ∧
    (∃ t result, Runs (authorizeAndExecuteWith gatedRegistry BootstrapPolicyEvaluator.new.evaluate
      restartRequest) t result ∧ t ≠ []) ∧
    ¬ DispatchGated gatedRegistry BootstrapPolicyEvaluator.new.evaluate restartRequest := by
  have hverdict : (BootstrapPolicyEvaluator.new.evaluate ((dispatchRequest restartRequest
      { restartDescriptor with requiresApproval := true }).requiringApproval true)).outcome =
        .requireApproval := by decide
  have hrun := play_runs (fun _ u => (.ok .null, u))
    (authorizeAndExecuteWith gatedRegistry BootstrapPolicyEvaluator.new.evaluate restartRequest) ()
  have hget : gatedRegistry.get restartRequest.capability =
      some { restartDescriptor with requiresApproval := true } := rfl
  have hinvoked := (authorizeAndExecuteWith_invokes_iff hget hrun).mpr
    ⟨inputMatches_of_asObject_none rfl _, by decide⟩
  refine ⟨hverdict, ⟨_, _, hrun, hinvoked⟩, ?_⟩
  intro hgated
  have hallow := hgated _ _ _ hrun hget rfl hinvoked
  rw [hverdict] at hallow
  cases hallow

end Argus
