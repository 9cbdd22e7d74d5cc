import Argus.Domain.Plan
import Argus.Policy.Autopilot

/-!
# The autonomy matrix and the escalation decision

Two gates a step crosses after policy. The matrix says which risk classes a level may
execute without an operator; the escalation decision, which binds at L4 and L5 only,
weighs the typed inputs of one step and says whether it may be fixed automatically.
Both can only narrow what policy allowed.
-/

namespace Argus

open Ieee (Datum)

/-- Whether an action of the given risk may execute without explicit approval. -/
def mayExecuteWithoutApproval (mode : AutonomyMode) (risk : RiskClass) : Bool :=
  match mode with
  | .l0Observe | .l1Explain | .l2Recommend => false
  | .l3Assisted =>
      match risk with
      | .read | .lowRisk => true
      | _ => false
  | .l4Autonomous | .l5Adaptive =>
      match risk with
      | .read | .lowRisk | .controlled => true
      | _ => false

/-- How much evidence backs the situation. -/
inductive EvidenceQuality
  | sparse
  | adequate
  | strong
  deriving DecidableEq

/-- The environment the runtime operates in. -/
inductive Environment
  | production
  | staging
  | development
  deriving DecidableEq

/-- The escalation decision for one situation. -/
inductive Escalation
  | observe
  | explain
  | recommend
  | askHuman
  | autoFix
  deriving DecidableEq

/-- Everything the escalation decision weighs. -/
structure EscalationInput where
  evidenceQuality : EvidenceQuality
  confidence : Datum
  reversible : Bool
  blastRadius : BlastRadius
  risk : RiskClass
  criticality : Criticality
  environment : Environment
  historicalSuccess : Option Datum
  autonomy : AutonomyMode
  policy : PolicyOutcome

/-- Minimum confidence for an automatic fix. The staging threshold is the single-precision
number nearest to 0.6; the other two are exact. -/
def confidenceThreshold : Environment → Datum
  | .production => .finite (3 / 4)
  | .staging => .finite (10066330 / 16777216)
  | .development => .finite (1 / 2)

/-- Minimum historical success rate: the single-precision number nearest to 0.7. -/
def soundRate : Datum := .finite (11744051 / 16777216)

/-- Whether the candidate action may run automatically at L3 and above. -/
def safeToFix (input : EscalationInput) : Bool :=
  let bounded := input.blastRadius == .none || input.blastRadius == .host
  let nonCritical := !(input.criticality == .«protected» || input.criticality == .critical)
  let boundedRisk :=
    input.risk == .read || input.risk == .lowRisk || input.risk == .controlled
  let confident := input.confidence.ge (confidenceThreshold input.environment)
  let historicallySound := input.historicalSuccess.all fun rate => rate.ge soundRate
  input.reversible && bounded && nonCritical && boundedRisk && confident &&
    historicallySound && input.evidenceQuality != .sparse

/-- Decide the escalation for one situation; the first match wins. -/
def decideEscalation (input : EscalationInput) : Escalation :=
  match input.policy with
  | .deny => .observe
  | .requireApproval => .askHuman
  | .allow =>
      match input.autonomy with
      | .l0Observe => .observe
      | .l1Explain => .explain
      | .l2Recommend => .recommend
      | .l3Assisted | .l4Autonomous | .l5Adaptive =>
          if safeToFix input then .autoFix
          else if input.evidenceQuality == .sparse then .recommend
          else .askHuman

end Argus
