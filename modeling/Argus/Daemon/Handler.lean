import Argus.Daemon.Control
import Argus.Daemon.Enrollment
import Argus.Daemon.Runbooks
import Argus.Ipc.Connection
import Argus.Lib.Keyed
import Argus.Lib.Rfc3339

/-!
# The daemon's side of the local socket

`handle` answers a decoded request: it authorizes the peer by its uid, resolves the operation, and
asks the daemon for what the operation is about. Everything it asks is a port, so its runs are its
runs over every daemon.

* Whatever the daemon says, the response carries the request's correlation id and is either a
  result or an error (`handle_answer`).
* A peer that is not authorized asks the daemon nothing (`handle_unauthorized`), and an authorized
  one only what the operation and the payload of its request name (`handle_asks`).
-/

namespace Argus.Ipc

open Interaction
open Prog hiding request
open Value (asStr getStr)

/-! ### What the handler asks of the daemon -/

/-- The seven report kinds. -/
inductive ReportKind
  | realTime
  | daily
  | weekly
  | security
  | capacity
  | rootCause
  | postmortem
  deriving DecidableEq

def ReportKind.fromVariant : String → Option ReportKind
  | "real_time" => some realTime
  | "daily" => some daily
  | "weekly" => some weekly
  | "security" => some security
  | "capacity" => some capacity
  | "root_cause" => some rootCause
  | "postmortem" => some postmortem
  | _ => none

/-- The derived deserialization of a kind: its name, or an object with nothing under its name. -/
def ReportKind.fromValue : Value → Option ReportKind
  | .string variant => fromVariant variant
  | .object [(variant, .null)] => fromVariant variant
  | _ => none

/-- A resume that came to its end. -/
inductive Resumed
  | finished (status : PlanStatus)
  | refused (why : ResumeRefusal)

/-- An entry of the audit trail, as the list shows it. -/
structure AuditEvent where
  id : Uuid
  eventType : String
  timestamp : DateTime
  source : String
  subject : String
  severity : String
  correlationId : Option Uuid
  payload : Value

/-- A runbook, as the list shows it. -/
structure RunbookEntry where
  name : String
  status : Value
  gates : Value
  attempts : Nat
  successRate : Value

/-- The record of a brain cycle, as the diagnosis shows it. -/
structure CycleEntry where
  evidence : Value
  providerAvailable : Bool
  decision : Value
  planObjective : Value
  outcome : Value

/-- The daemon, as the handler uses it. -/
inductive DaemonPort
  | health
  | status
  | config
  | plugins
  | capabilities
  | cloudStatus
  | privilegedExecutionEnabled
  | setPrivilegedExecution (enabled : Bool)
  | listPendingApprovals
  | grantApproval (token : Uuid) (grantedBy : String)
  | resumeRemediation (pending : PendingPlan)
  | denyApproval (token : Uuid) (grantedBy : String)
  | listPlans
  | listAuditEvents
  | forgetEnrollment
  | connect (endpoint : String)
  | enrollInstallation (code : String)
  | wakeCloud
  | sentinelSnapshot
  | listExecutions
  | generateReport (kind : ReportKind) (executed validated pendingApprovals : Nat)
  | provider
  | cycle
  | listRunbooks
  | provenance (name : String)
  | decide (name : String) (decision : Decision) (by_ : String)

/-- The answers. A serialization that may fail answers with the document or its error. -/
abbrev DaemonPort.Reply : DaemonPort → Type
  | health | status | config | plugins | capabilities | cloudStatus => Value
  | privilegedExecutionEnabled | provider => Bool
  | setPrivilegedExecution _ | wakeCloud => Unit
  | listPendingApprovals => List PendingPlan
  | grantApproval _ _ => Except String PendingPlan
  | resumeRemediation _ => Resumed
  | denyApproval _ _ | forgetEnrollment | connect _ => Except String Unit
  | listPlans => Except String (List (Uuid × Plan))
  | listAuditEvents => Except String (List AuditEvent)
  | enrollInstallation _ => Except EnrollmentError Value
  | sentinelSnapshot | generateReport _ _ _ _ => Except String Value
  | listExecutions => Except String (List ExecutionStatus)
  | cycle => CycleEntry
  | listRunbooks => List RunbookEntry
  | provenance _ => Option Provenance
  | decide _ _ _ => Except String Value

/-- A program of the daemon. -/
abbrev DaemonM := Prog DaemonPort.Reply

/-- Ask the daemon. -/
def ask (port : DaemonPort) : DaemonM port.Reply := Prog.call port

/-- What the handler reads of the configuration. -/
structure HandlerConfig where
  authorizedUids : Option (List UInt32)
  endpoint : Option String

/-! ### Texts -/

/-- A count, as a document. -/
def count (n : Nat) : Value := .number (.posInt n)

/-- `as u32`. -/
def asU32 (n : Nat) : Nat := n % 2 ^ 32

/-- `map.insert`: the field of a key is replaced, or a new one. -/
def insertField (key : String) (value : Value) (fields : List (String × Value)) :
    List (String × Value) :=
  Keyed.upsert Prod.fst (key, value) fields

/-- The debug text of a status. -/
def statusDebug : PlanStatus → String
  | .proposed => "Proposed"
  | .approved => "Approved"
  | .denied => "Denied"
  | .superseded => "Superseded"
  | .executing => "Executing"
  | .completed => "Completed"
  | .failed => "Failed"
  | .rollingBack => "RollingBack"
  | .rolledBack => "RolledBack"
  | .needsManual => "NeedsManual"
  | .awaitingApproval => "AwaitingApproval"

/-- What the operator is told of a resume. -/
def Resumed.text : Resumed → String
  | finished status => statusDebug status
  | refused .stale => "refused: Stale"
  | refused .noGrant => "refused: NoGrant"

/-- The code of a denial. -/
def denialText : PairingDenialCode → String
  | .invalid => "INVALID"
  | .used => "USED"
  | .expired => "EXPIRED"
  | .cancelled => "CANCELLED"
  | .keyChanged => "KEY_CHANGED"
  | .rateLimited => "RATE_LIMITED"

/-- The error body of a failed enrollment. -/
def enrollmentFailure : EnrollmentError → ErrorCode × String
  | .alreadyEnrolled =>
      (.denied, "this installation is already enrolled; forget the current enrollment first")
  | .notConfigured => (.notReady, "cloud connectivity is not configured")
  | .denied code remediation => (.denied, s!"{denialText code}: {remediation}")
  | .cloud error => (.internal, s!"cloud request failed: {error}")
  | .persistence error => (.internal, s!"could not persist the enrollment: {error}")
  | .secret error => (.internal, s!"could not store the session credential: {error}")
  | .identity error => (.internal, s!"could not persist the installation key: {error}")

/-- The operator identity recorded on a grant. -/
def grantedBy (principal : Principal) : String :=
  match principal.uid with
  | some uid => s!"uid={uid.toNat}"
  | none => "local"

section
variable (texts : Texts)

/-- The single-use token of an approval request. -/
def parseToken (request : Request) : Option Uuid :=
  (getStr "token" request.payload).bind texts.readUuid

/-- A document that may be missing. -/
def orNull (value : Option Value) : Value := value.getD .null

def pendingValue (pending : PendingPlan) : Value :=
  .object [("context_hash", .string pending.contextHash),
    ("objective", .string pending.plan.objective),
    ("step_count", count pending.plan.steps.length),
    ("token", .string (texts.writeUuid pending.token))]

def planStepValue (step : PlanStep) : Value :=
  .object [("capability", .string step.action.capability.asStr),
    ("rollback", orNull (step.rollback.map fun r => .string r.capability.asStr))]

/-- The entry of a plan; the runbook it is the procedure of rides along when there is one. -/
def planValue (id : Uuid) (plan : Plan) : Value :=
  let fields := [("confidence", floatToValue plan.confidence),
    ("correlation_id", .string (texts.writeUuid id)),
    ("objective", .string plan.objective),
    ("status", .string plan.status.wire),
    ("step_count", count plan.steps.length),
    ("steps", .array (plan.steps.map planStepValue))]
  .object (match plan.runbook with
    | some runbook => insertField "runbook" (.string runbook) fields
    | none => fields)

def auditValue (event : AuditEvent) : Value :=
  .object [("correlation_id",
      orNull (event.correlationId.map fun id => .string (texts.writeUuid id))),
    ("event_type", .string event.eventType),
    ("id", .string (texts.writeUuid event.id)),
    ("payload", event.payload),
    ("severity", .string event.severity),
    ("source", .string event.source),
    ("subject", .string event.subject),
    ("timestamp", .string (Rfc3339.write event.timestamp.nanos))]

def provenanceValue (provenance : Provenance) : Value :=
  .object [("configuration_id", .string (texts.writeUuid provenance.configurationId)),
    ("delivered_at", .string (Rfc3339.write provenance.deliveredAt.nanos)),
    ("version_id", .string (texts.writeUuid provenance.versionId)),
    ("version_number", .number (if 0 ≤ provenance.versionNumber
      then .posInt provenance.versionNumber.toNat else .negInt provenance.versionNumber))]

def runbookValue (entry : RunbookEntry) (provenance : Option Provenance) : Value :=
  let fields := [("attempts", count entry.attempts), ("gates", entry.gates),
    ("name", .string entry.name), ("status", entry.status),
    ("success_rate", entry.successRate)]
  .object (match provenance with
    | some provenance => insertField "provenance" (provenanceValue texts provenance) fields
    | none => fields)

/-! ### The operations -/

variable (config : HandlerConfig) (principal : Principal) (request : Request)

/-- The response of a document, or of the failure to make one. -/
def okOr (correlationId : Uuid) (failure : String → String) : Except String Value → Response
  | .ok result => .ok_ correlationId result
  | .error error => .err correlationId .internal (failure error)

/-- Reports what this installation knows about its cloud relationship, with the live kill switch. -/
def cloudStatus : DaemonM Response := do
  let status ← ask .cloudStatus
  match status with
  | .object fields => do
      let enabled ← ask .privilegedExecutionEnabled
      pure (.ok_ request.correlationId
        (.object (insertField "privileged_execution_enabled" (.bool enabled) fields)))
  | other => pure (.ok_ request.correlationId other)

/-- Flips the local kill switch. -/
def setPrivilegedExecution : DaemonM Response :=
  match (request.payload.get "enabled").bind asBool with
  | none => pure (.err request.correlationId .malformed
      "cloud.set-privileged-execution requires a boolean 'enabled' in the payload")
  | some enabled => do
      let _ ← ask (.setPrivilegedExecution enabled)
      pure (.ok_ request.correlationId
        (.object [("privileged_execution_enabled", .bool enabled)]))

def approvalList : DaemonM Response := do
  let pending ← ask .listPendingApprovals
  pure (.ok_ request.correlationId (.array (pending.map (pendingValue texts))))

/-- Grants approval for a pending plan's token, and resumes the plan it releases. -/
def approvalGrant : DaemonM Response :=
  match parseToken texts request with
  | none => pure (.err request.correlationId .malformed
      "approval.grant requires a 'token' in the payload")
  | some token => do
      match ← ask (.grantApproval token (grantedBy principal)) with
      | .error error => pure (.err request.correlationId .denied error)
      | .ok pending => do
          let outcome ← ask (.resumeRemediation pending)
          pure (.ok_ request.correlationId (.object [("outcome", .string outcome.text),
            ("state", .string "granted"), ("token", .string (texts.writeUuid token))]))

/-- Denies a pending plan's token. -/
def approvalDeny : DaemonM Response :=
  match parseToken texts request with
  | none => pure (.err request.correlationId .malformed
      "approval.deny requires a 'token' in the payload")
  | some token => do
      match ← ask (.denyApproval token (grantedBy principal)) with
      | .error error => pure (.err request.correlationId .denied error)
      | .ok _ => pure (.ok_ request.correlationId
          (.object [("state", .string "denied"), ("token", .string (texts.writeUuid token))]))

def planList : DaemonM Response := do
  let plans ← ask .listPlans
  pure (okOr request.correlationId id
    (plans.map fun plans => .array (plans.map fun entry => planValue texts entry.1 entry.2)))

def auditList : DaemonM Response := do
  let events ← ask .listAuditEvents
  pure (okOr request.correlationId id
    (events.map fun events => .array (events.map (auditValue texts))))

/-- Removes the enrollment, leaving the installation running locally. -/
def cloudForget : DaemonM Response := do
  match ← ask .forgetEnrollment with
  | .error error => pure (.err request.correlationId .internal error)
  | .ok _ => do
      let _ ← ask .wakeCloud
      pure (.ok_ request.correlationId (.object [("state", .string "not_configured")]))

/-- Enrolls this installation. -/
def enroll : DaemonM Response :=
  match getStr "code" request.payload with
  | none => pure (.err request.correlationId .malformed
      "cloud.enroll requires a 'code' in the payload")
  | some code =>
      match config.endpoint with
      | none => pure (.err request.correlationId .notReady "no cloud endpoint is configured")
      | some endpoint => do
          match ← ask (.connect endpoint) with
          | .error error =>
              pure (.err request.correlationId .internal s!"cannot reach the cloud: {error}")
          | .ok _ => do
              match ← ask (.enrollInstallation code) with
              | .ok report => do
                  let _ ← ask .wakeCloud
                  pure (.ok_ request.correlationId report)
              | .error error => pure (.err request.correlationId (enrollmentFailure error).1
                  (enrollmentFailure error).2)

def sentinelGet : DaemonM Response := do
  let view ← ask .sentinelSnapshot
  pure (okOr request.correlationId (fun e => s!"serialize sentinel view: {e}") view)

/-- Renders one report kind from the daemon's tables. -/
def reportGenerate : DaemonM Response :=
  match ReportKind.fromValue (orNull (request.payload.get "kind")) with
  | none => pure (.err request.correlationId .malformed
      "payload must carry a known report kind")
  | some kind => do
      let executions ← ask .listExecutions
      let executions := executions.toOption.getD []
      let approvals ← ask .listPendingApprovals
      let report ← ask (.generateReport kind (asU32 executions.length)
        (asU32 (executions.countP (· = .completed))) (asU32 approvals.length))
      pure (okOr request.correlationId (fun e => s!"serialize report: {e}") report)

/-- Runs one brain cycle on demand. -/
def diagnose : DaemonM Response := do
  let present ← ask .provider
  if present then do
    let record ← ask .cycle
    pure (.ok_ request.correlationId (.object [("decision", record.decision),
      ("evidence", record.evidence), ("outcome", record.outcome), ("plan", record.planObjective),
      ("provider_available", .bool record.providerAvailable)]))
  else
    pure (.err request.correlationId .notReady
      "no decision provider configured; the brain runs observe-only")

/-- The entries of the runbook list, each with its provenance. -/
def runbookEntries : List RunbookEntry → DaemonM (List Value)
  | [] => pure []
  | entry :: entries => do
      let provenance ← ask (.provenance entry.name)
      let rest ← runbookEntries entries
      pure (runbookValue texts entry provenance :: rest)

def runbooksList : DaemonM Response := do
  let entries ← ask .listRunbooks
  let runbooks ← runbookEntries texts entries
  pure (.ok_ request.correlationId (.object [("runbooks", .array runbooks)]))

/-- The operator's decision about a runbook. -/
def runbookDecision (decision : Decision) : DaemonM Response :=
  match getStr "name" request.payload with
  | none => pure (.err request.correlationId .malformed
      "runbooks.approve/promote require a 'name' in the payload")
  | some name => do
      match ← ask (.decide name decision (grantedBy principal)) with
      | .ok status => pure (.ok_ request.correlationId
          (.object [("name", .string name), ("state", status)]))
      | .error error => pure (.err request.correlationId .denied error)

/-- An operation whose result is a document of the daemon. -/
def reading (document : DaemonM Value) : DaemonM Response := do
  let result ← document
  pure (.ok_ request.correlationId result)

/-- The operation of an authorized request. -/
def dispatch : Operation → DaemonM Response
  | .healthGet => reading request (ask .health)
  | .statusGet => reading request (ask .status)
  | .configGet => reading request (ask .config)
  | .pluginsList => reading request (ask .plugins)
  | .capabilitiesList => reading request (ask .capabilities)
  | .cloudEnroll => enroll config request
  | .cloudStatus => cloudStatus request
  | .cloudForget => cloudForget request
  | .cloudSetPrivilegedExecution => setPrivilegedExecution request
  | .approvalList => approvalList texts request
  | .approvalGrant => approvalGrant texts principal request
  | .approvalDeny => approvalDeny texts principal request
  | .planList => planList texts request
  | .auditList => auditList texts request
  | .sentinelGet => sentinelGet request
  | .reportGenerate => reportGenerate request
  | .brainDiagnose => diagnose request
  | .runbooksList => runbooksList texts request
  | .runbooksApprove => runbookDecision principal request .approve
  | .runbooksPromote => runbookDecision principal request .promote

/-- The peer is on the list of authorized uids, where there is one. -/
def authorized : Bool :=
  match config.authorizedUids with
  | none => true
  | some allowed => principal.uid.any allowed.contains

/-- Handles a decoded request, enforcing authorization and dispatch. -/
def handle (request : Request) (principal : Principal) : DaemonM Response :=
  if !authorized config principal then
    pure (.err request.correlationId .unauthorized "peer not authorized")
  else
    match Operation.fromStr request.operation with
    | none => pure (.err request.correlationId .unknownOperation
        s!"unknown operation '{request.operation}'")
    | some operation => dispatch texts config principal request operation

end

/-! ### What it answers -/

variable {texts : Texts} {config : HandlerConfig} {principal : Principal} {request : Request}

/-- A result or an error, under the correlation id. -/
inductive Answering (correlationId : Uuid) : Response → Prop
  | ok (result : Value) : Answering correlationId (.ok_ correlationId result)
  | err (code : ErrorCode) (message : String) :
      Answering correlationId (.err correlationId code message)

/-- The request names the operation. -/
def Names (request : Request) (operation : Operation) : Prop :=
  request.operation = operation.asStr

/-- The operation of a decision. -/
def decisionOperation : Decision → Operation
  | .approve => .runbooksApprove
  | .promote => .runbooksPromote

theorem Answering.okOr {id : Uuid} {failure : String → String} (result : Except String Value) :
    Answering id (okOr id failure result) := by
  cases result with
  | ok result => exact .ok result
  | error error => exact .err _ _

theorem Answering.correlationId {id : Uuid} {response : Response} (h : Answering id response) :
    response.correlationId = id := by
  cases h <;> rfl

theorem Answering.version {id : Uuid} {response : Response} (h : Answering id response) :
    response.protocolVersion = Ipc.protocolVersion := by
  cases h <;> rfl

variable (texts config principal request) in
/-- What a request allows its handler to ask: what its operation is about, with the arguments of its
payload, in the name of its peer. -/
def DaemonPort.AskedBy : DaemonPort → Prop
  | health => Names request .healthGet
  | status => Names request .statusGet
  | DaemonPort.config => Names request .configGet
  | plugins => Names request .pluginsList
  | capabilities => Names request .capabilitiesList
  | cloudStatus | privilegedExecutionEnabled => Names request .cloudStatus
  | setPrivilegedExecution enabled => Names request .cloudSetPrivilegedExecution ∧
      (request.payload.get "enabled").bind asBool = some enabled
  | listPendingApprovals => Names request .approvalList ∨ Names request .reportGenerate
  | grantApproval token by_ => Names request .approvalGrant ∧
      parseToken texts request = some token ∧ by_ = grantedBy principal
  | resumeRemediation _ => Names request .approvalGrant
  | denyApproval token by_ => Names request .approvalDeny ∧
      parseToken texts request = some token ∧ by_ = grantedBy principal
  | listPlans => Names request .planList
  | listAuditEvents => Names request .auditList
  | forgetEnrollment => Names request .cloudForget
  | connect endpoint => Names request .cloudEnroll ∧ config.endpoint = some endpoint
  | enrollInstallation code => Names request .cloudEnroll ∧
      getStr "code" request.payload = some code
  | wakeCloud => Names request .cloudForget ∨ Names request .cloudEnroll
  | sentinelSnapshot => Names request .sentinelGet
  | listExecutions => Names request .reportGenerate
  | generateReport kind _ _ _ => Names request .reportGenerate ∧
      ReportKind.fromValue (orNull (request.payload.get "kind")) = some kind
  | provider | cycle => Names request .brainDiagnose
  | listRunbooks | provenance _ => Names request .runbooksList
  | decide name decision by_ => Names request (decisionOperation decision) ∧
      getStr "name" request.payload = some name ∧ by_ = grantedBy principal

/-- Within what the request names, whatever the daemon says, to an answer of it. -/
abbrev Proper (texts : Texts) (config : HandlerConfig) (principal : Principal) (request : Request)
    (p : DaemonM Response) : Prop :=
  p.Within (DaemonPort.AskedBy texts config principal request) (Answering request.correlationId)

theorem enroll_proper (h : Names request .cloudEnroll) :
    Proper texts config principal request (enroll config request) := by
  unfold enroll
  split
  · exact .err _ _
  · rename_i code hcode
    split
    · exact .err _ _
    · rename_i endpoint hendpoint
      refine ⟨⟨h, hendpoint⟩, fun connected => ?_⟩
      cases connected with
      | error error => exact .err _ _
      | ok _ =>
          refine ⟨⟨h, hcode⟩, fun enrolled => ?_⟩
          cases enrolled with
          | error error => exact .err _ _
          | ok report => exact ⟨.inr h, fun _ => .ok _⟩

theorem cloudStatus_proper (h : Names request .cloudStatus) :
    Proper texts config principal request (cloudStatus request) := by
  refine ⟨h, fun status => ?_⟩
  cases status with
  | object fields => exact ⟨h, fun _ => .ok _⟩
  | _ => exact .ok _

theorem cloudForget_proper (h : Names request .cloudForget) :
    Proper texts config principal request (cloudForget request) := by
  refine ⟨h, fun forgotten => ?_⟩
  cases forgotten with
  | error error => exact .err _ _
  | ok _ => exact ⟨.inl h, fun _ => .ok _⟩

theorem setPrivilegedExecution_proper (h : Names request .cloudSetPrivilegedExecution) :
    Proper texts config principal request (setPrivilegedExecution request) := by
  unfold setPrivilegedExecution
  split
  · exact .err _ _
  · rename_i enabled henabled
    exact ⟨⟨h, henabled⟩, fun _ => .ok _⟩

theorem approvalGrant_proper (h : Names request .approvalGrant) :
    Proper texts config principal request (approvalGrant texts principal request) := by
  unfold approvalGrant
  split
  · exact .err _ _
  · rename_i token htoken
    refine ⟨⟨h, htoken, rfl⟩, fun granted => ?_⟩
    cases granted with
    | error error => exact .err _ _
    | ok pending => exact ⟨h, fun _ => .ok _⟩

theorem approvalDeny_proper (h : Names request .approvalDeny) :
    Proper texts config principal request (approvalDeny texts principal request) := by
  unfold approvalDeny
  split
  · exact .err _ _
  · rename_i token htoken
    refine ⟨⟨h, htoken, rfl⟩, fun denied => ?_⟩
    cases denied with
    | error error => exact .err _ _
    | ok _ => exact .ok _

theorem reportGenerate_proper (h : Names request .reportGenerate) :
    Proper texts config principal request (reportGenerate request) := by
  unfold reportGenerate
  split
  · exact .err _ _
  · rename_i kind hkind
    exact ⟨h, fun _ => ⟨.inr h, fun _ => ⟨⟨h, hkind⟩, fun report => .okOr report⟩⟩⟩

theorem diagnose_proper (h : Names request .brainDiagnose) :
    Proper texts config principal request (diagnose request) := by
  refine ⟨h, fun present => ?_⟩
  cases present with
  | true => exact ⟨h, fun _ => .ok _⟩
  | false => exact .err _ _

theorem runbookEntries_within (h : Names request .runbooksList) (entries : List RunbookEntry) :
    (runbookEntries texts entries).Within (DaemonPort.AskedBy texts config principal request)
      fun _ => True := by
  induction entries with
  | nil => trivial
  | cons entry entries ih => exact ⟨h, fun _ => ih.bind fun _ _ => trivial⟩

theorem runbooksList_proper (h : Names request .runbooksList) :
    Proper texts config principal request (runbooksList texts request) :=
  ⟨h, fun entries => (runbookEntries_within h entries).bind fun _ _ => .ok _⟩

theorem runbookDecision_proper {decision : Decision}
    (h : Names request (decisionOperation decision)) :
    Proper texts config principal request (runbookDecision principal request decision) := by
  unfold runbookDecision
  split
  · exact .err _ _
  · rename_i name hname
    refine ⟨⟨h, hname, rfl⟩, fun decided => ?_⟩
    cases decided with
    | error error => exact .err _ _
    | ok _ => exact .ok _

/-- Every operation is about what its name says. -/
theorem dispatch_proper {operation : Operation} (h : Names request operation) :
    Proper texts config principal request (dispatch texts config principal request operation) := by
  cases operation with
  | healthGet | statusGet | configGet | pluginsList | capabilitiesList =>
      exact ⟨h, fun _ => .ok _⟩
  | cloudEnroll => exact enroll_proper h
  | cloudStatus => exact cloudStatus_proper h
  | cloudForget => exact cloudForget_proper h
  | cloudSetPrivilegedExecution => exact setPrivilegedExecution_proper h
  | approvalList => exact ⟨.inl h, fun _ => .ok _⟩
  | approvalGrant => exact approvalGrant_proper h
  | approvalDeny => exact approvalDeny_proper h
  | planList | auditList | sentinelGet => exact ⟨h, fun _ => .okOr _⟩
  | reportGenerate => exact reportGenerate_proper h
  | brainDiagnose => exact diagnose_proper h
  | runbooksList => exact runbooksList_proper h
  | runbooksApprove | runbooksPromote => exact runbookDecision_proper h

/-- A peer that is not authorized asks the daemon nothing. -/
theorem handle_unauthorized (h : authorized config principal = false) :
    handle texts config request principal =
      pure (.err request.correlationId .unauthorized "peer not authorized") := by
  simp [handle, h]

theorem handle_proper :
    Proper texts config principal request (handle texts config request principal) := by
  unfold handle
  split
  · exact .err _ _
  · split
    · exact .err _ _
    · rename_i operation hoperation
      exact dispatch_proper (Operation.fromStr_eq_some_iff.mp hoperation)

end Argus.Ipc
