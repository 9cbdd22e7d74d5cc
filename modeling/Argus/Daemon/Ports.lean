import Argus.Lib.Interaction
import Argus.Policy.Escalation

/-!
# The ports of the control loop

Everything the plan loop asks of the world: the governor, the policy engine, the
budget gate, the live-state readers, the effect boundaries, the event bus and the
ledger. Each port operation is a request of an interaction program, so a statement
about every run of the loop holds for every behaviour of every port, answer by
answer: a policy that changes its mind between two steps is one of them.

A request carries the **site** it is made for. The source's calls do not; the site is
the bookkeeping that lets a trace say which step a permission or an effect belongs to.
-/

namespace Argus

open Interaction

/-! ### The action ledger -/

def verdictAllow : String := "allow"
def verdictDeny : String := "deny"
def verdictRequiresApproval : String := "requires_approval"

def outcomeOk : String := "ok"
def outcomeFailed : String := "failed"
def outcomeRolledBack : String := "rolled_back"
def outcomeDenied : String := "denied"
def outcomeAwaitingApproval : String := "awaiting_approval"

/-- One execution attempt at the policy/executor boundary, whatever its verdict. The
record's own id, its clock readings and the links the ledger stamps later are left
out. -/
structure ActionEventRecord where
  correlationId : Uuid
  planId : Option Uuid
  kind : String
  target : Option String
  args : Value
  verdict : String
  policyId : Option String
  outcome : String
  validation : Option Value
  deriving DecidableEq

/-! ### Operations -/

/-- What a port operation is made for. -/
inductive Site
  | run
  /-- The gates and the effect of a step. -/
  | step (index : Nat)
  /-- The re-observation of a step that took effect. -/
  | validation (index : Nat)
  | rollback (index : Nat)
  deriving DecidableEq

def Site.isRollback : Site → Bool
  | rollback _ => true
  | _ => false

/-- One operation of one port of the loop. -/
inductive Port
  /-- `Uuid::new_v4`. -/
  | newUuid
  /-- `Utc::now`. -/
  | now
  | publish (eventType : String) (payload : Value)
  | recordAction (record : ActionEventRecord)
  | governorEvaluate (adjustment : ResourceAdjustment)
  | policyEvaluate (authz : AuthorizationRequest)
  | budgetReserve (risk : RiskClass) (scope : BlastRadius) (now : DateTime)
  | budgetRefund (risk : RiskClass) (scope : BlastRadius) (now : DateTime)
  | serviceRestart (unit : String)
  | serviceStop (unit : String)
  | serviceStart (unit : String)
  | serviceIsActive (unit : String)
  | containerIsRunning (id : String)
  | cgroupIsFrozen (path : String)
  | podRunning (namespace_ name : String)
  | deploymentAvailable (namespace_ name : String)
  | nodeSchedulable (name : String)
  | remediationExecute (action : AuthorizedAction)
  | kubernetesExecute (action : AuthorizedAction)
  deriving DecidableEq

/-- What each operation answers. An executor's answer is the evidence of its result. -/
@[reducible] def Port.Reply : Port → Type
  | newUuid => Uuid
  | now => DateTime
  | publish _ _ => Unit
  | recordAction _ => Unit
  | governorEvaluate _ => GovernanceDecision
  | policyEvaluate _ => PolicyDecision
  | budgetReserve _ _ _ => Bool
  | budgetRefund _ _ _ => Unit
  | serviceRestart _ => Except ServiceError Unit
  | serviceStop _ => Except ServiceError Unit
  | serviceStart _ => Except ServiceError Unit
  | serviceIsActive _ => Except ServiceError Bool
  | containerIsRunning _ => Except RemediationError Bool
  | cgroupIsFrozen _ => Except RemediationError Bool
  | podRunning _ _ => Except RemediationError Bool
  | deploymentAvailable _ _ => Except RemediationError Bool
  | nodeSchedulable _ => Except RemediationError Bool
  | remediationExecute _ => Except ExecutionError Value
  | kubernetesExecute _ => Except ExecutionError Value

/-- The operations that ask for permission to act. -/
def Port.isGate : Port → Bool
  | governorEvaluate _ | policyEvaluate _ | budgetReserve _ _ _ | budgetRefund _ _ _ => true
  | _ => false

/-- What a request of the loop answers: what its port does. -/
@[reducible] def LoopReply (op : Site × Port) : Type := op.2.Reply

/-- A program of the control loop. -/
abbrev LoopM := Prog LoopReply

/-- One request of the loop with its answer. -/
abbrev LoopEvent := Event LoopReply

/-- The requests of a run, in order. -/
abbrev LoopTrace := List LoopEvent

/-- A controller's answer to a live-state read, as the loop reads it. -/
def readingOf : Except RemediationError Bool → Except String Bool
  | .ok b => .ok b
  | .error e => .error e.display

/-- An executor's answer as the loop reads it. -/
def evidenceOf : Except ExecutionError Value → Except String Value
  | .ok evidence => .ok evidence
  | .error e => .error e.display

/-- The service controller's answer to the service action `id` on `unit`. -/
def serviceEvidence (id unit : String) : Except ServiceError Unit → Except String Value
  | .ok () => .ok (.object [("capability", .string id), ("unit", .string unit)])
  | .error e => .error e.display

/-- Ask a port on behalf of a site. -/
def ask (site : Site) (port : Port) : LoopM port.Reply := Prog.call (site, port)

/-- The event of a port answering `reply` at `site`. -/
abbrev ev (site : Site) (port : Port) (reply : port.Reply) : LoopEvent := ⟨(site, port), reply⟩

/-! ### Reading a trace -/

namespace LoopEvent

/-- The live state an event read, when the event is a read. -/
def reading? : LoopEvent → Option (Except String Bool)
  | ⟨(_, .serviceIsActive _), .ok b⟩ => some (.ok b)
  | ⟨(_, .serviceIsActive _), .error e⟩ => some (.error e.display)
  | ⟨(_, .containerIsRunning _), r⟩ | ⟨(_, .cgroupIsFrozen _), r⟩ | ⟨(_, .podRunning _ _), r⟩
  | ⟨(_, .deploymentAvailable _ _), r⟩ | ⟨(_, .nodeSchedulable _), r⟩ => some (readingOf r)
  | _ => none

/-- What came of an effect, when the event is one: a request that can change the host or
the cluster. -/
def effect? : LoopEvent → Option (Except String Value)
  | ⟨(_, .serviceRestart unit), r⟩ =>
      some (serviceEvidence CapabilityId.hostServiceRestart unit r)
  | ⟨(_, .serviceStop unit), r⟩ => some (serviceEvidence CapabilityId.hostServiceStop unit r)
  | ⟨(_, .serviceStart unit), r⟩ => some (serviceEvidence CapabilityId.hostServiceStart unit r)
  | ⟨(_, .remediationExecute _), r⟩ | ⟨(_, .kubernetesExecute _), r⟩ => some (evidenceOf r)
  | _ => none

/-- The budget units an event takes, a successful reservation, or gives back, a refund. -/
def units : LoopEvent → Int
  | ⟨(_, .budgetReserve _ _ _), true⟩ => 1
  | ⟨(_, .budgetRefund _ _ _), _⟩ => -1
  | _ => 0

/-- The event is an effect requested for `site`. -/
def IsEffectAt (site : Site) (e : LoopEvent) : Prop := e.op.1 = site ∧ e.effect?.isSome

instance (site : Site) (e : LoopEvent) : Decidable (IsEffectAt site e) :=
  inferInstanceAs (Decidable (_ ∧ _))

end LoopEvent

/-! ### A fixed environment -/

/-- Ports that answer the same way each time they are asked for a site. -/
structure FixedPorts where
  uuid : Uuid
  now : DateTime
  governor : Site → GovernanceDecision
  policy : Site → PolicyDecision
  reserve : Bool
  /-- Every live-state read. -/
  live : Site → Bool
  service : Site → Except ServiceError Unit
  executor : Site → Except ExecutionError Value

/-- Ports that permit everything by `decision`, find no target in its desired state, and
perform every effect. -/
def FixedPorts.willing (decision : PolicyDecision) : FixedPorts :=
  { uuid := 0
    now := ⟨0⟩
    governor := fun _ => .allowed "within budget and cooldown"
    policy := fun _ => decision
    reserve := true
    live := fun _ => false
    service := fun _ => .ok ()
    executor := fun _ => .ok (.object []) }

/-- The answers as an environment of the loop, which keeps no state. -/
def FixedPorts.answer (ports : FixedPorts) : (op : Site × Port) → Unit → LoopReply op × Unit
  | (_, .newUuid), u => (ports.uuid, u)
  | (_, .now), u => (ports.now, u)
  | (_, .publish _ _), u | (_, .recordAction _), u | (_, .budgetRefund _ _ _), u => ((), u)
  | (site, .governorEvaluate _), u => (ports.governor site, u)
  | (site, .policyEvaluate _), u => (ports.policy site, u)
  | (_, .budgetReserve _ _ _), u => (ports.reserve, u)
  | (site, .serviceRestart _), u | (site, .serviceStop _), u | (site, .serviceStart _), u =>
      (ports.service site, u)
  | (site, .serviceIsActive _), u => (.ok (ports.live site), u)
  | (site, .containerIsRunning _), u | (site, .cgroupIsFrozen _), u | (site, .podRunning _ _), u
  | (site, .deploymentAvailable _ _), u | (site, .nodeSchedulable _), u =>
      (.ok (ports.live site), u)
  | (site, .remediationExecute _), u | (site, .kubernetesExecute _), u =>
      (ports.executor site, u)

end Argus
