import Argus.Domain.Authorization

/-!
# The bootstrap policy

The daemon's own policy permits a fixed set of capabilities, denies every other one, and
asks for approval where the request says the capability needs it. The local remediation
loop uses a wider set, and the prefix under which external tools register.
-/

namespace Argus

open CapabilityId

/-- The default policy for the runtime. -/
structure BootstrapPolicyEvaluator where
  allowed : List String
  allowedPrefixes : List String

namespace BootstrapPolicyEvaluator

/-- The read-only capabilities and the service actions. -/
def new : BootstrapPolicyEvaluator where
  allowed := [hostStatusRead, argusHealthRead, argusConfigRead, argusPluginsList,
    hostServiceRestart, hostServiceStop, hostServiceStart]
  allowedPrefixes := []

/-- A policy that also permits the remediation capabilities and the external tools. -/
def withLocalRemediation : BootstrapPolicyEvaluator where
  allowed := new.allowed ++ [hostProcessSignal, containerRestart, hostCgroupFreeze,
    hostCgroupThaw, hostMemoryReclaim, hostJournalVacuum, k8sClusterRead, k8sNodeRead, k8sPodRead,
    k8sDeploymentRead, k8sPodRestart, k8sDeploymentRestart, k8sDeploymentRollback,
    k8sWorkloadScale, k8sNodeCordon, k8sNodeUncordon, k8sJobCleanup]
  allowedPrefixes := new.allowedPrefixes ++ ["mcp."]

/-- `locally_permitted`. -/
def permits (policy : BootstrapPolicyEvaluator) (capability : CapabilityId) : Bool :=
  policy.allowed.contains capability.asStr ||
    policy.allowedPrefixes.any fun start => capability.startsWith start

/-- The verdict on a request. -/
def evaluate (policy : BootstrapPolicyEvaluator) (request : AuthorizationRequest) :
    PolicyDecision :=
  let capability := request.capabilityRequest.capability
  if !policy.permits capability then
    .deny "bootstrap.read-only"
      ("capability '" ++ capability.asStr ++ "' is not permitted in bootstrap")
  else if request.requiresApproval then
    .requireApproval "bootstrap.approval-required"
      ("capability '" ++ capability.asStr ++ "' requires a local approval for each invocation")
  else
    .allow "bootstrap.read-only"
      ("read-only capability '" ++ capability.asStr ++ "' is permitted")

/-- The outcome: permitted or not, and with or without approval. -/
theorem evaluate_outcome (policy : BootstrapPolicyEvaluator) (request : AuthorizationRequest) :
    (policy.evaluate request).outcome =
      if policy.permits request.capabilityRequest.capability then
        if request.requiresApproval then .requireApproval else .allow
      else .deny := by
  unfold evaluate
  dsimp only
  cases policy.permits request.capabilityRequest.capability <;>
    cases request.requiresApproval <;> rfl

end BootstrapPolicyEvaluator
end Argus
