import Argus.Domain.Value

/-!
# Capabilities

The typed operations the daemon may perform, their descriptors, and the registry
authorization reads them from.

A `CapabilityId` carries the proof that its path passed the dotted-path grammar:
every constructor of the source goes through the same check, the deserializer
included, so a malformed identifier does not exist.
-/

namespace Argus

/-- Risk classification of a capability. -/
inductive RiskClass
  | read
  | lowRisk
  | controlled
  | highRisk
  | destructive
  deriving DecidableEq, Repr

/-- The scope of impact of an action. -/
inductive BlastRadius
  | none
  | host
  | environment
  | fleet
  deriving DecidableEq, Repr

/-! ### Identifiers -/

/-- A segment starts with a lowercase ASCII letter and continues with lowercase
letters, digits, `-` or `_`. -/
def isSegment : List Char → Bool
  | [] => false
  | c :: cs => c.isLower && cs.all fun c => c.isLower || c.isDigit || c == '-' || c == '_'

/-- A dotted path has at least two segments, all of them well formed. -/
def isDottedPath (path : String) : Bool :=
  let segments := path.toList.splitOn '.'
  decide (2 ≤ segments.length) && segments.all isSegment

/-- A typed, policy-checkable operation identifier, e.g. `host.status.read`. -/
structure CapabilityId where
  asStr : String
  valid : isDottedPath asStr = true
  deriving DecidableEq

namespace CapabilityId

/-- Validated construction. -/
def new (path : String) : Option CapabilityId :=
  if h : isDottedPath path = true then some ⟨path, h⟩ else none

/-- `id.as_str().starts_with(start)`. -/
def startsWith (id : CapabilityId) (start : String) : Bool :=
  start.toList.isPrefixOf id.asStr.toList

def hostStatusRead : String := "host.status.read"
def argusHealthRead : String := "argus.health.read"
def argusConfigRead : String := "argus.config.read"
def argusPluginsList : String := "argus.plugins.list"
def hostServiceRestart : String := "host.service.restart"
def hostServiceStop : String := "host.service.stop"
def hostServiceStart : String := "host.service.start"
def hostProcessSignal : String := "host.process.signal"
def containerRestart : String := "container.restart"
def hostCgroupFreeze : String := "host.cgroup.freeze"
def hostCgroupThaw : String := "host.cgroup.thaw"
def hostMemoryReclaim : String := "host.memory.reclaim"
def hostJournalVacuum : String := "host.journal.vacuum"
def k8sClusterRead : String := "k8s.cluster.read"
def k8sNodeRead : String := "k8s.node.read"
def k8sPodRead : String := "k8s.pod.read"
def k8sDeploymentRead : String := "k8s.deployment.read"
def k8sPodRestart : String := "k8s.pod.restart"
def k8sPodDelete : String := "k8s.pod.delete"
def k8sDeploymentRestart : String := "k8s.deployment.restart"
def k8sDeploymentRollback : String := "k8s.deployment.rollback"
def k8sWorkloadScale : String := "k8s.workload.scale"
def k8sNodeCordon : String := "k8s.node.cordon"
def k8sNodeUncordon : String := "k8s.node.uncordon"
def k8sJobCleanup : String := "k8s.job.cleanup"
def k8sNodeDrain : String := "k8s.node.drain"
def k8sWorkloadReschedule : String := "k8s.workload.reschedule"

theorem hostServiceRestart_valid : isDottedPath hostServiceRestart = true := by decide

theorem hostServiceStop_valid : isDottedPath hostServiceStop = true := by decide

theorem hostServiceStart_valid : isDottedPath hostServiceStart = true := by decide

theorem hostMemoryReclaim_valid : isDottedPath hostMemoryReclaim = true := by decide

theorem hostCgroupFreeze_valid : isDottedPath hostCgroupFreeze = true := by decide

/-- Whether the identifier names an external MCP tool. -/
def isMcpCapability (id : CapabilityId) : Bool := id.startsWith "mcp."

end CapabilityId

/-! ### Descriptors and the registry -/

/-- The declarative description of a capability, as far as authorization reads it. -/
structure CapabilityDescriptor where
  id : CapabilityId
  riskClass : RiskClass
  inputSchema : Value
  /-- `none`: the capability declared no radius, which is not a declared `none`. -/
  blastRadius : Option BlastRadius
  requiresApproval : Bool
  timeoutSeconds : Option Nat

namespace CapabilityDescriptor

/-- The radius authorization must use: an undeclared one counts as the host. -/
def effectiveBlastRadius (d : CapabilityDescriptor) : BlastRadius := d.blastRadius.getD .host

/-- Whether the capability can change the host, which is what the kill switch governs. -/
def changesTheHost (d : CapabilityDescriptor) : Bool := d.effectiveBlastRadius != .none

end CapabilityDescriptor

/-- A registry of capabilities, each identifier registered once. -/
structure CapabilityRegistry where
  descriptors : List CapabilityDescriptor
  keyed : (descriptors.map CapabilityDescriptor.id).Nodup

namespace CapabilityRegistry

/-- `registry.get(id)`. -/
def get (registry : CapabilityRegistry) (id : CapabilityId) : Option CapabilityDescriptor :=
  registry.descriptors.find? fun d => d.id == id

/-- A registry with nothing registered. -/
def empty : CapabilityRegistry := ⟨[], List.nodup_nil⟩

end CapabilityRegistry

/-! ### Input validation -/

/-- Whether `input` has the JSON type named by `kind`; an unknown kind constrains
nothing. -/
def matchesKind (kind : String) (input : Value) : Bool :=
  match kind, input with
  | "object", .object _ => true
  | "object", _ => false
  | "array", .array _ => true
  | "array", _ => false
  | "string", .string _ => true
  | "string", _ => false
  | "integer", .number (.posInt _) => true
  | "integer", .number (.negInt _) => true
  | "integer", _ => false
  | "number", .number _ => true
  | "number", _ => false
  | "boolean", .bool _ => true
  | "boolean", _ => false
  | "null", .null => true
  | "null", _ => false
  | _, _ => true

/-- Whether the object `input` has every key the schema requires. -/
def requiredPresent (schema : Value) (input : List (String × Value)) : Bool :=
  match schema.get "required" with
  | some (.array required) =>
      (required.filterMap Value.asStr).all fun key => (input.lookup key).isSome
  | _ => true

/-- Whether `additionalProperties: false`, when it stands, admits every key of `input`. -/
def noAdditional (schema : Value) (input : List (String × Value)) : Bool :=
  match schema.get "additionalProperties" with
  | some (.bool false) =>
      input.all fun field =>
        match (schema.get "properties").bind Value.asObject with
        | some declared => (declared.lookup field.1).isSome
        | none => false
  | _ => true

/-- Whether `input` satisfies the subset of JSON Schema the capability declarations
use. A schema that is not an object constrains nothing. -/
def inputMatches (schema input : Value) : Bool :=
  match schema.asObject with
  | none => true
  | some _ =>
      (match schema.getStr "type" with
        | some kind => matchesKind kind input
        | none => true) &&
      match input with
      | .object fields =>
          requiredPresent schema fields && noAdditional schema fields &&
          match _hp : schema.get "properties" with
          | some (.object properties) =>
              properties.attach.all fun ⟨(key, propertySchema), _⟩ =>
                match fields.lookup key with
                | some value => inputMatches propertySchema value
                | none => true
          | _ => true
      | .array items =>
          match _hi : schema.get "items" with
          | some itemSchema => items.all fun item => inputMatches itemSchema item
          | none => true
      | _ => true
termination_by sizeOf schema
decreasing_by
  · have hlt := Value.sizeOf_get_lt _hp
    have hmem := List.sizeOf_lt_of_mem ‹(key, propertySchema) ∈ properties›
    simp only [Prod.mk.sizeOf_spec, Value.object.sizeOf_spec] at hlt hmem
    omega
  · exact Value.sizeOf_get_lt _hi

/-- A schema that is not an object accepts every input. -/
theorem inputMatches_of_asObject_none {schema : Value} (h : schema.asObject = none)
    (input : Value) : inputMatches schema input = true := by
  unfold inputMatches
  rw [h]

end Argus
