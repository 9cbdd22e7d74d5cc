import Argus.Daemon.Control

/-!
# The privileged executor

The executor the cloud path hands its authorized actions to. A service capability goes to
the service controller, and the unit it names is checked against the guardrails registered
for the capability right before; every other capability is read-only, or not routed here.

`cloudExecutor_guarded` is what the guardrails buy: whatever the action, no call reaches
the controller with a unit they refuse, the inverse call after a failure included.
-/

namespace Argus

open Interaction Prog

/-! ### Characters -/

/-- `char::is_whitespace`: the Unicode property `White_Space`. -/
def isWhitespace (c : Char) : Bool :=
  let n := c.toNat
  (0x09 ≤ n && n ≤ 0x0d) || n == 0x20 || n == 0x85 || n == 0xa0 || n == 0x1680 ||
    (0x2000 ≤ n && n ≤ 0x200a) || n == 0x2028 || n == 0x2029 || n == 0x202f || n == 0x205f ||
    n == 0x3000

/-- `char::is_control`: the Unicode category `Cc`. -/
def isControl (c : Char) : Bool := c.toNat ≤ 0x1f || (0x7f ≤ c.toNat && c.toNat ≤ 0x9f)

/-- `str::trim`. -/
def trim (s : String) : String :=
  .ofList ((s.toList.dropWhile isWhitespace).reverse.dropWhile isWhitespace).reverse

/-! ### Guardrails -/

/-- A predicate on a target: nothing, or the reason it must be refused. -/
abbrev Guardrail := String → Except String Unit

/-- The predicates registered for each capability, in the order of registration. -/
structure GuardrailRegistry where
  registered : List (CapabilityId × Guardrail)

namespace GuardrailRegistry

def register (registry : GuardrailRegistry) (capability : CapabilityId) (guardrail : Guardrail) :
    GuardrailRegistry :=
  ⟨registry.registered ++ [(capability, guardrail)]⟩

/-- The predicates registered for a capability. -/
def predicates (registry : GuardrailRegistry) (capability : CapabilityId) : List Guardrail :=
  (registry.registered.filter fun entry => entry.1 = capability).map Prod.snd

/-- Runs the predicates; the first refusal wins. -/
def checkEach (capability : CapabilityId) (target : String) :
    List Guardrail → Except ExecutionError Unit
  | [] => .ok ()
  | predicate :: rest =>
      match predicate target with
      | .ok () => checkEach capability target rest
      | .error reason => .error (.guardrailViolation capability reason)

/-- A capability with no predicates is safe. -/
def check (registry : GuardrailRegistry) (capability : CapabilityId) (target : String) :
    Except ExecutionError Unit :=
  checkEach capability target (registry.predicates capability)

end GuardrailRegistry

/-- Refuses the daemon's own unit, under its bare name and its `.service` form. -/
def neverTargetArgusd (own : String) : Guardrail := fun target =>
  let unit := trim target
  if unit = own ∨ unit = own ++ ".service" then
    .error ("refusing to target the daemon's own unit '" ++ unit ++ "'")
  else .ok ()

/-- A unit name is not empty, has no control character and no whitespace, and is no path
segment and no option. -/
def isValidUnitName (unit : String) : Bool :=
  !unit.toList.isEmpty && unit != ".." && unit.toList.head? != some '-' &&
    !unit.toList.contains '/' && !unit.toList.contains '\\' && !unit.toList.any isControl &&
    !unit.toList.any isWhitespace

def validServiceUnit : Guardrail := fun target =>
  if isValidUnitName target then .ok ()
  else .error ("'" ++ target ++ "' is not a valid service unit name")

/-- The three service capabilities. -/
def serviceCapabilities : List CapabilityId :=
  [⟨CapabilityId.hostServiceRestart, CapabilityId.hostServiceRestart_valid⟩,
    ⟨CapabilityId.hostServiceStop, CapabilityId.hostServiceStop_valid⟩,
    ⟨CapabilityId.hostServiceStart, CapabilityId.hostServiceStart_valid⟩]

/-- The guardrails wired for the service capabilities. -/
def serviceGuardrails (daemonUnit : String) : GuardrailRegistry :=
  serviceCapabilities.foldl
    (fun registry id =>
      (registry.register id (neverTargetArgusd daemonUnit)).register id validServiceUnit)
    ⟨[]⟩

/-- The daemon's own systemd unit. -/
def daemonUnit : String := "argusd"

/-- The unit is not the daemon's own, and its name cannot be read as an option or a path. -/
def PassesGuardrails (unit : String) : Prop :=
  trim unit ≠ daemonUnit ∧ trim unit ≠ daemonUnit ++ ".service" ∧ isValidUnitName unit = true

instance (unit : String) : Decidable (PassesGuardrails unit) :=
  inferInstanceAs (Decidable (_ ∧ _ ∧ _))

/-! ### The executors -/

/-- A host-service operation. -/
inductive ServiceOp
  | restart
  | stop
  | start
  deriving DecidableEq

namespace ServiceOp

/-- The operation a capability names, if it names one. -/
def of (capability : CapabilityId) : Option ServiceOp :=
  if capability.asStr = CapabilityId.hostServiceRestart then some restart
  else if capability.asStr = CapabilityId.hostServiceStop then some stop
  else if capability.asStr = CapabilityId.hostServiceStart then some start
  else none

def verb : ServiceOp → String
  | restart => "restart"
  | stop => "stop"
  | start => "start"

/-- The operation that undoes this one. A restart has no inverse. -/
def inverse : ServiceOp → Option ServiceOp
  | stop => some start
  | start => some stop
  | restart => none

end ServiceOp

/-- One call of the service controller. -/
structure ServiceCall where
  op : ServiceOp
  unit : String
  deriving DecidableEq

/-- What the controller answers. -/
@[reducible] def ServiceReply (_ : ServiceCall) : Type := Except ServiceError Unit

/-- A program over the service controller. -/
abbrev ServiceM := Prog ServiceReply

/-- Attempts the inverse operation, or reports that none is possible. -/
def attemptReversal (op : ServiceOp) (unit : String) : ServiceM ReversalStatus :=
  match op.inverse with
  | none => pure .notPossible
  | some inverse => do
      match ← Prog.call ⟨inverse, unit⟩ with
      | .ok () => pure .reversed
      | .error _ => pure .reversalFailed

/-- Executes a service capability through the controller. The guardrails run on the unit the
action names, immediately before the effect. -/
def privilegedExecute (guardrails : GuardrailRegistry) (action : AuthorizedAction) :
    ServiceM (Except ExecutionError Value) :=
  match ServiceOp.of action.capability with
  | none => pure (.error (.unsupported action.capability))
  | some op =>
      match (action.request.arguments.getStr "unit").filter fun unit => trim unit != "" with
      | none => pure (.error (.failed "the request does not name a service unit"))
      | some unit =>
          match guardrails.check action.capability unit with
          | .error violation => pure (.error violation)
          | .ok () => do
              match ← Prog.call ⟨op, unit⟩ with
              | .ok () =>
                  pure (.ok (.object [("operation", .string op.verb),
                    ("reversal", .string "not_attempted"), ("unit", .string unit)]))
              | .error error => do
                  let reversal ← attemptReversal op unit
                  pure (.error (.failedAfterEffect error.display reversal))

/-- What the daemon reads for the read-only capabilities. -/
structure CapabilityProvider where
  hostStatus : Value
  health : Value
  config : Value
  plugins : Value

/-- Executes the read-only bootstrap capabilities. -/
def bootstrapExecute (provider : CapabilityProvider) (action : AuthorizedAction) :
    Except ExecutionError Value :=
  match action.capability.asStr with
  | "host.status.read" => .ok provider.hostStatus
  | "argus.health.read" => .ok (.object [("health", provider.health)])
  | "argus.config.read" => .ok provider.config
  | "argus.plugins.list" => .ok provider.plugins
  | _ => .error (.unsupported action.capability)

/-- The executor of the cloud path. Remediation and Kubernetes capabilities are not routed:
they are refused, and do not fall through to the read-only executor. -/
def cloudExecutor (provider : CapabilityProvider) (action : AuthorizedAction) :
    ServiceM (Except ExecutionError Value) :=
  if (ServiceOp.of action.capability).isSome then
    privilegedExecute (serviceGuardrails daemonUnit) action
  else if Control.remediationHandles action.capability ||
      Control.isKubernetesAction action.capability then
    pure (.error (.unsupported action.capability))
  else pure (bootstrapExecute provider action)

/-! ### What reaches the controller -/

theorem GuardrailRegistry.checkEach_eq_ok {capability : CapabilityId} {target : String}
    {predicates : List Guardrail} (h : checkEach capability target predicates = .ok ()) :
    ∀ predicate ∈ predicates, predicate target = .ok () := by
  induction predicates with
  | nil => simp
  | cons predicate rest ih =>
      unfold checkEach at h
      split at h
      · exact List.forall_mem_cons.mpr ⟨‹_›, ih h⟩
      · cases h

theorem ServiceOp.of_isSome {capability : CapabilityId} {op : ServiceOp}
    (h : ServiceOp.of capability = some op) : capability ∈ serviceCapabilities := by
  obtain ⟨id, valid⟩ := capability
  simp only [ServiceOp.of] at h
  split_ifs at h with hrestart hstop hstart
  · simp [serviceCapabilities, hrestart]
  · simp [serviceCapabilities, hstop]
  · simp [serviceCapabilities, hstart]

theorem predicates_serviceGuardrails {capability : CapabilityId}
    (h : capability ∈ serviceCapabilities) (own : String) :
    (serviceGuardrails own).predicates capability =
      [neverTargetArgusd own, validServiceUnit] := by
  have hregistered : (serviceGuardrails own).registered = serviceCapabilities.flatMap fun id =>
      [(id, neverTargetArgusd own), (id, validServiceUnit)] := rfl
  simp only [GuardrailRegistry.predicates, hregistered]
  simp only [serviceCapabilities, List.mem_cons, List.not_mem_nil, or_false] at h
  rcases h with rfl | rfl | rfl <;>
    simp [serviceCapabilities, CapabilityId.hostServiceRestart, CapabilityId.hostServiceStop,
      CapabilityId.hostServiceStart]

theorem passesGuardrails_of_check {capability : CapabilityId} {unit : String}
    (hservice : capability ∈ serviceCapabilities)
    (h : (serviceGuardrails daemonUnit).check capability unit = .ok ()) :
    PassesGuardrails unit := by
  have hall := GuardrailRegistry.checkEach_eq_ok h
  rw [predicates_serviceGuardrails hservice] at hall
  have hown := hall (neverTargetArgusd daemonUnit) (by simp)
  have hvalid := hall validServiceUnit (by simp)
  simp only [neverTargetArgusd] at hown
  simp only [validServiceUnit] at hvalid
  split_ifs at hown with hname
  split_ifs at hvalid with hgrammar
  exact ⟨fun heq => hname (.inl heq), fun heq => hname (.inr heq), hgrammar⟩

theorem attemptReversal_unit {op : ServiceOp} {unit : String} {t : List (Event ServiceReply)}
    {status : ReversalStatus} (h : Runs (attemptReversal op unit) t status) :
    ∀ e ∈ t, e.op.unit = unit := by
  unfold attemptReversal at h
  split at h
  · obtain ⟨rfl, -⟩ := h
    simp
  · obtain ⟨reply, t', hend, rfl⟩ := runs_call_bind.mp h
    cases reply <;> obtain ⟨rfl, -⟩ := hend <;> simp

/-- Every call an execution makes is on a unit that passed the guardrails. -/
theorem privilegedExecute_guarded {action : AuthorizedAction} {t : List (Event ServiceReply)}
    {r : Except ExecutionError Value}
    (h : Runs (privilegedExecute (serviceGuardrails daemonUnit) action) t r) :
    ∀ e ∈ t, PassesGuardrails e.op.unit := by
  unfold privilegedExecute at h
  split at h
  case h_1 =>
    obtain ⟨rfl, -⟩ := h
    simp
  case h_2 op hop =>
    split at h
    case h_1 =>
      obtain ⟨rfl, -⟩ := h
      simp
    case h_2 unit hunit =>
      split at h
      case h_1 =>
        obtain ⟨rfl, -⟩ := h
        simp
      case h_2 hcheck =>
        have hpasses := passesGuardrails_of_check (ServiceOp.of_isSome hop) hcheck
        obtain ⟨reply, t', hend, rfl⟩ := runs_call_bind.mp h
        refine List.forall_mem_cons.mpr ⟨hpasses, ?_⟩
        cases reply with
        | ok _ =>
            obtain ⟨rfl, -⟩ := hend
            simp
        | error error =>
            obtain ⟨status, hreversal, -⟩ := runs_bind_pure.mp hend
            intro e he
            rw [attemptReversal_unit hreversal e he]
            exact hpasses

theorem cloudExecutor_guarded {provider : CapabilityProvider} {action : AuthorizedAction}
    {t : List (Event ServiceReply)} {r : Except ExecutionError Value}
    (h : Runs (cloudExecutor provider action) t r) : ∀ e ∈ t, PassesGuardrails e.op.unit := by
  unfold cloudExecutor at h
  split_ifs at h
  · exact privilegedExecute_guarded h
  · obtain ⟨rfl, -⟩ := h
    simp
  · obtain ⟨rfl, -⟩ := h
    simp

end Argus
