import Argus.Daemon.McpConfig
import Argus.Domain.Registry

/-!
# The MCP wiring

The desired topology is a list of servers with their owners. The startup lays the persisted
delivery over the file's servers, and `applyServers` reconciles a delivery live: removals first,
then the connections of what was added or changed, each of which registers the tools it
discovers. The lifecycle's passes register what they discover in between.

A connection is outside: what it answers, and in what order the connections of one pass end, is
an argument of the step. Sessions, probes and retry delays are left out; no list or registry
depends on them.
-/

namespace Argus

/-! ### The topology -/

/-- One server in the desired topology, and who declared it. -/
structure DesiredServer where
  server : McpServerConfig
  /-- A delivery declared the name, and the next one may take it away. -/
  fromCloud : Bool
  deriving DecidableEq

namespace DesiredServer

def name (held : DesiredServer) : String := held.server.name

/-- A server of the operator's file: it survives a delivery that does not declare its name. -/
abbrev file (server : McpServerConfig) : DesiredServer := ⟨server, false⟩

/-- A server of a delivery. -/
abbrev cloud (server : McpServerConfig) : DesiredServer := ⟨server, true⟩

end DesiredServer

/-- What a delivery means for one held server. -/
structure HeldPlan where
  connect : Option McpServerConfig
  remove : Option McpServerConfig
  keep : Option DesiredServer

def reconcileHeld (delivered : List McpServerConfig) (held : DesiredServer) : HeldPlan :=
  match delivered.find? fun server => server.name == held.name with
  | some server =>
      -- The cloud re-declares the name, and owns the server from here on.
      if server ≠ held.server then ⟨some server, some held.server, some (.cloud server)⟩
      else ⟨none, none, some (.cloud server)⟩
  | none =>
      -- Only a cloud-declared server is removed by omitting its name.
      if held.fromCloud then ⟨none, some held.server, none⟩ else ⟨none, none, some held⟩

/-- Changed, unchanged, removed or left to the file. -/
theorem reconcileHeld_cases (delivered : List McpServerConfig) (held : DesiredServer) :
    (∃ server, Keyed.lookup McpServerConfig.name delivered held.name = some server ∧
      reconcileHeld delivered held = ⟨some server, some held.server, some (.cloud server)⟩) ∨
    (Keyed.lookup McpServerConfig.name delivered held.name = some held.server ∧
      reconcileHeld delivered held = ⟨none, none, some (.cloud held.server)⟩) ∨
    (Keyed.lookup McpServerConfig.name delivered held.name = none ∧ held.fromCloud = true ∧
      reconcileHeld delivered held = ⟨none, some held.server, none⟩) ∨
    (Keyed.lookup McpServerConfig.name delivered held.name = none ∧ held.fromCloud = false ∧
      reconcileHeld delivered held = ⟨none, none, some held⟩) := by
  unfold reconcileHeld Keyed.lookup
  cases delivered.find? fun server => server.name == held.name with
  | none => cases held.fromCloud <;> simp
  | some server => by_cases hs : server = held.server <;> simp [hs]

structure ReconcilePlan where
  toConnect : List McpServerConfig
  toRemove : List McpServerConfig
  desired : List DesiredServer

/-- `reconcile_plan`. -/
def reconcilePlan (current : List DesiredServer) (delivered : List McpServerConfig) :
    ReconcilePlan :=
  let plans := current.map (reconcileHeld delivered)
  let added := delivered.filter fun server => !current.any fun held => held.name == server.name
  { toConnect := plans.filterMap HeldPlan.connect ++ added
    toRemove := plans.filterMap HeldPlan.remove
    desired := plans.filterMap HeldPlan.keep ++ added.map DesiredServer.cloud }

/-- The topology a wiring starts with: a name in both lists takes the cloud's configuration. -/
def injected (file cloud : List McpServerConfig) : List DesiredServer :=
  Keyed.overlay DesiredServer.name (file.map DesiredServer.file)
    (cloud.map DesiredServer.cloud)

/-- The startup's topology: the persisted document counts where it can be merged over the
file's section. -/
def startupTopology (file : McpConfig) (persisted : Option McpConfig) : List DesiredServer :=
  let delivered := persisted.filter fun document =>
    match (file.mergedOver document).validate with
    | .ok () => true
    | .error _ => false
  injected (enabledServers file.servers)
    ((delivered.map fun document => enabledServers document.servers).getD [])

/-! ### Discovery -/

/-- A tool as a server advertises it. -/
structure Tool where
  name : String
  inputSchema : List (String × Value)

structure ServerSpec where
  name : String
  timeoutSecs : Nat

namespace McpServerConfig

def spec (server : McpServerConfig) : ServerSpec := ⟨server.name, server.timeoutSeconds⟩

/-- `risk_overrides`, as the runtime reads them. -/
def riskOverrides (server : McpServerConfig) : List McpToolConfig := server.overrides

end McpServerConfig

/-- The risk of a tool, and whether each invocation needs an approval: only the operator's
override lowers them. -/
def toolTrust (overrides : List McpToolConfig) (tool : String) : RiskClass × Bool :=
  match overrides.find? fun override_ => override_.name == tool with
  | some override_ => (override_.risk, false)
  | none => (.highRisk, true)

/-- The descriptor of a discovered tool: its own schema, the operator's trust, the server's
timeout. -/
def toolDescriptor (spec : ServerSpec) (overrides : List McpToolConfig) (name : String)
    (inputSchema : List (String × Value)) (id : CapabilityId) : CapabilityDescriptor where
  id := id
  riskClass := (toolTrust overrides name).1
  inputSchema := .object inputSchema
  blastRadius := some .host
  requiresApproval := (toolTrust overrides name).2
  timeoutSeconds := some (max spec.timeoutSecs 1)

/-- A tool whose name cannot be represented, or that is not on the allowlist, has no
descriptor. -/
def adoptTool (spec : ServerSpec) (overrides : List McpToolConfig) (allow : Option (List String))
    (tool : Tool) : Option CapabilityDescriptor :=
  let name := trim tool.name
  if name.isEmpty || name.toList.contains '.' then none
  else if !allow.all fun allow => allow.contains name then none
  else
    (CapabilityId.new (mcpNamespace spec.name ++ name)).map
      (toolDescriptor spec overrides name tool.inputSchema)

/-- `adopt_tools`. -/
def adoptTools (spec : ServerSpec) (tools : List Tool) (overrides : List McpToolConfig)
    (allow : Option (List String)) : List CapabilityDescriptor :=
  tools.filterMap (adoptTool spec overrides allow)

/-- What the servers of one pass answer, and in what order their tasks end. -/
structure Connections where
  answer : McpServerConfig → Except String (List Tool)
  joined : List McpServerConfig → List McpServerConfig
  joined_perm : ∀ servers, (joined servers).Perm servers

/-- Each server answers what `answer` says, in the order of the list. -/
def Connections.inOrder (answer : McpServerConfig → Except String (List Tool)) : Connections :=
  ⟨answer, id, fun _ => .refl _⟩

/-- The descriptors a connection discovers. -/
def Connections.connect (connections : Connections) (server : McpServerConfig) :
    Except String (List CapabilityDescriptor) :=
  (connections.answer server).map fun tools =>
    adoptTools server.spec tools server.riskOverrides server.tools

/-! ### Reconciling -/

/-- The wiring's topology, and the registry its tools are in. -/
structure McpState where
  servers : List DesiredServer
  registry : CapabilityRegistry

/-- The per-server result of one reconcile. -/
structure McpReconcileReport where
  connected : List String
  removed : List String
  failed : List (String × String)

namespace McpState

/-- Registers what the connections to `servers` discover, as their tasks end. -/
def register (connections : Connections) (servers : List McpServerConfig)
    (registry : CapabilityRegistry) : CapabilityRegistry :=
  (connections.joined servers).foldl (fun registry server =>
    match connections.connect server with
    | .ok descriptors => registry.adopt descriptors
    | .error _ => registry) registry

/-- `apply_servers`. -/
def applyServers (state : McpState) (delivered : List McpServerConfig)
    (connections : Connections) : McpReconcileReport × McpState :=
  let plan := reconcilePlan state.servers (enabledServers delivered)
  let removed := plan.toRemove.foldl
    (fun registry server => (registry.unregisterServer server.name).2) state.registry
  let joined := connections.joined plan.toConnect
  ({ connected := joined.filterMap fun server =>
        match connections.connect server with
        | .ok _ => some server.name
        | .error _ => none
     removed := plan.toRemove.map McpServerConfig.name
     failed := joined.filterMap fun server =>
        match connections.connect server with
        | .ok _ => none
        | .error error => some (server.name, error) },
   ⟨plan.desired, register connections plan.toConnect removed⟩)

/-- `lifecycle_pass`: a server that is waiting, unreachable or down answers with an error. -/
def lifecyclePass (state : McpState) (connections : Connections) : McpState :=
  { state with
    registry := register connections (state.servers.map DesiredServer.server) state.registry }

/-- `connect_startup` over the startup's topology. -/
def start (bootstrap : CapabilityRegistry) (file : McpConfig) (persisted : Option McpConfig)
    (connections : Connections) : McpState :=
  lifecyclePass ⟨startupTopology file persisted, bootstrap⟩ connections

end McpState

/-- What happens to the wiring while the daemon runs. -/
inductive McpEvent
  | delivery (document : ValidServers) (connections : Connections)
  | pass (connections : Connections)

def McpState.step (state : McpState) : McpEvent → McpState
  | .delivery document connections => (state.applyServers document.servers connections).2
  | .pass connections => state.lifecyclePass connections

end Argus
