import Argus.Domain.Authorization

/-!
# Plans

A plan is a sequence of typed actions, each with the declarative action that undoes
it, when one exists. Its context hash binds an approval to the content the operator
reviewed; the lifecycle status is not part of it.
-/

namespace Argus

open Ieee (Datum)

/-- The configured level of autonomous authority, L0 to L5. -/
inductive AutonomyMode
  | l0Observe
  | l1Explain
  | l2Recommend
  | l3Assisted
  | l4Autonomous
  | l5Adaptive
  deriving DecidableEq, Repr

/-- A typed, capability-backed operation. -/
structure Action where
  capability : CapabilityId
  resource : Option ResourceId
  arguments : Value
  deriving DecidableEq

/-- Lifecycle status of a plan. -/
inductive PlanStatus
  | proposed
  | approved
  | denied
  | superseded
  | executing
  | completed
  | failed
  | rollingBack
  | rolledBack
  | needsManual
  | awaitingApproval
  deriving DecidableEq, Repr

/-- One step of a plan: the action to perform and its declarative rollback. -/
structure PlanStep where
  action : Action
  rollback : Option Action
  deriving DecidableEq

/-- A proposed sequence of typed actions. -/
structure Plan where
  objective : String
  steps : List PlanStep
  preconditions : List String
  expectedOutcomes : List String
  blastRadius : BlastRadius
  confidence : Datum
  status : PlanStatus
  /-- The promoted runbook the plan is the procedure of, if any. -/
  runbook : Option String
  deriving DecidableEq

/-- A position in a plan's step list. -/
abbrev StepIndex (plan : Plan) := Fin plan.steps.length

/-- The step at a position: `plan.steps[index]`. -/
def Plan.step (plan : Plan) (index : StepIndex plan) : PlanStep := plan.steps.get index

/-- Result of executing a single action. -/
inductive ExecutionStatus
  | completed
  | failed
  deriving DecidableEq, Repr

/-- One attempted action and its outcome. -/
structure Execution where
  action : Action
  status : ExecutionStatus
  evidence : Value
  deriving DecidableEq

/-! ### The context hash -/

section
open Value

/-- The derived serialization of an action. -/
def Action.toValue (a : Action) : Value :=
  object [("arguments", a.arguments), ("capability", string a.capability.asStr),
    ("resource", (a.resource.map fun r => string r.asStr).getD null)]

/-- The derived serialization of a step. -/
def PlanStep.toValue (s : PlanStep) : Value :=
  object [("action", s.action.toValue), ("rollback", (s.rollback.map Action.toValue).getD null)]

/-- The snake-case wire name of a radius. -/
def BlastRadius.wire : BlastRadius → String
  | none => "none"
  | host => "host"
  | environment => "environment"
  | fleet => "fleet"

/-- The snake-case wire name of a status. -/
def PlanStatus.wire : PlanStatus → String
  | proposed => "proposed"
  | approved => "approved"
  | denied => "denied"
  | superseded => "superseded"
  | executing => "executing"
  | completed => "completed"
  | failed => "failed"
  | rollingBack => "rolling_back"
  | rolledBack => "rolled_back"
  | needsManual => "needs_manual"
  | awaitingApproval => "awaiting_approval"

/-- A double as a JSON number: the non-finite ones have none. -/
def floatToValue : Datum → Value
  | .finite q => number (.float (.finite q))
  | _ => null

/-- The derived serialization of a plan, keys in the map's order; an absent runbook is
absent on the wire. -/
def Plan.toValue (p : Plan) : Value :=
  object ([("blast_radius", string p.blastRadius.wire),
    ("confidence", floatToValue p.confidence),
    ("expected_outcomes", array (p.expectedOutcomes.map string)),
    ("objective", string p.objective),
    ("preconditions", array (p.preconditions.map string))] ++
    (p.runbook.map fun name => ("runbook", string name)).toList ++
    [("status", string p.status.wire), ("steps", array (p.steps.map PlanStep.toValue))])

/-- `map.remove(key)` on an object; any other document stays as it is. -/
def Value.removeKey (key : String) : Value → Value
  | object fields => object (fields.filter fun field => field.1 != key)
  | v => v

end

/-- The FNV-1a (64-bit) hash of a byte string. -/
def fnv1a (bytes : List UInt8) : UInt64 :=
  bytes.foldl (fun hash byte => (hash ^^^ byte.toUInt64) * 0x00000100000001b3)
    0xcbf29ce484222325

/-- The hash as sixteen hexadecimal digits. -/
def fnv1aHex (input : String) : String :=
  let digits := Nat.toDigits 16 (fnv1a input.toUTF8.toList).toNat
  String.ofList (List.replicate (16 - digits.length) '0' ++ digits)

/-- The context binding hash of a plan: its content without its status. `toJson` is the
JSON writer of the serialization library. -/
def planContextHash (toJson : Value → String) (plan : Plan) : String :=
  fnv1aHex (toJson (plan.toValue.removeKey "status"))

end Argus
