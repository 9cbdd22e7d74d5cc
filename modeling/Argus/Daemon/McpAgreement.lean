import Argus.Daemon.McpClient

/-!
# The authorization registry and the runtime's table

The registry authorization reads and the table the runtime enforces are fed by the same
connections. The registry keeps the first descriptor of an id, so that a re-advertised tool keeps
its ladder and audit state; the runtime refreshes its own in place. Both lose a server's namespace
when a delivery removes or changes the server.

A delivery works on a copy of the registry. It makes the copy when it arrives, before it waits for
the lifecycle's pass, and puts it in the registry's place when its connections have ended. What a
task of a pass registers in between is lost with the old registry, until a probe finds it again;
the runtime has it all along. Deliveries come one at a time, for the session handles them in turn.

A server's task touches its own slot and its own namespace alone, so the tasks of a pass are taken
here one by one, in the order in which they end.
-/

namespace Argus

open Keyed (lookup)

/-- A descriptor that a connection discovered. It is late where a delivery was in flight, for the
copy the delivery works on is not told. -/
structure Discovered where
  descriptor : CapabilityDescriptor
  late : Bool

/-- The wiring with the runtime behind it, the copy of the registry that a delivery in flight works
on, and what was discovered, in order, without the namespaces that were cleared since. -/
structure McpDaemon where
  wiring : McpState
  staged : Option CapabilityRegistry
  client : McpClientRuntime
  discovered : List Discovered

/-- What happens to the daemon's tables while it runs. -/
inductive McpStep
  /-- A delivery arrives and copies the registry. -/
  | copy
  /-- The delivery has the wiring to itself, and reconciles it on the copy. -/
  | reconcile (document : ValidServers) (connections : Connections)
  /-- The copy takes the registry's place. -/
  | swap
  /-- The task of a server ends, in a pass of the lifecycle. -/
  | visit (server : McpServerConfig) (connections : Connections)

namespace McpDaemon

/-- Registers what a connection discovered; an id that is there is left untouched. -/
def registerDescriptors (daemon : McpDaemon) (client : McpClientRuntime)
    (descriptors : List CapabilityDescriptor) : McpDaemon :=
  { daemon with
    wiring := { daemon.wiring with registry := daemon.wiring.registry.adopt descriptors }
    client := client
    discovered := daemon.discovered ++ descriptors.map (⟨·, daemon.staged.isSome⟩) }

/-- What a server answers to a listing, as the runtime reads it. -/
def listed (connections : Connections) (server : McpServerConfig) :
    Except McpError (List Tool) := (connections.answer server).mapError McpError.transport

/-- A connect of `connect_startup` or `apply_servers`. -/
def connect (connections : Connections) (daemon : McpDaemon) (server : McpServerConfig) :
    McpDaemon :=
  match daemon.client.connect server.spec server.riskOverrides server.tools
      (listed connections server) with
  | (.ok descriptors, client) => daemon.registerDescriptors client descriptors
  | (.error _, client) => { daemon with client := client }

/-- A server's task of `lifecycle_pass`: a live slot is probed, and a dead one connected. -/
def visit (connections : Connections) (daemon : McpDaemon) (server : McpServerConfig) :
    McpDaemon :=
  if daemon.client.hasConnection server.name then
    match daemon.client.refresh server.name server.riskOverrides server.tools
        (listed connections server) with
    | (.ok descriptors, client) => daemon.registerDescriptors client descriptors
    | (.error _, client) => { daemon with client := client.disconnect server.name }
  else daemon.connect connections server

/-- A removal of `apply_servers`. -/
def forget (daemon : McpDaemon) (server : McpServerConfig) : McpDaemon :=
  { daemon with
    wiring := { daemon.wiring with
      registry := (daemon.wiring.registry.unregisterServer server.name).2 }
    client := ((daemon.client.disconnect server.name).unregisterServer server.name).2
    discovered := daemon.discovered.filter fun found =>
      !found.descriptor.id.startsWith (mcpNamespace server.name) }

/-- `apply_servers` of the wiring, on the registry of the state. -/
def applyServers (daemon : McpDaemon) (delivered : List McpServerConfig)
    (connections : Connections) : McpDaemon :=
  let plan := reconcilePlan daemon.wiring.servers (enabledServers delivered)
  let connected := (connections.joined plan.toConnect).foldl (connect connections)
    (plan.toRemove.foldl forget daemon)
  { connected with wiring := { connected.wiring with servers := plan.desired } }

/-- The state with the copy in the registry's place. -/
def swap (daemon : McpDaemon) : McpDaemon :=
  match daemon.staged with
  | none => daemon
  | some copy => { daemon with wiring := { daemon.wiring with registry := copy }, staged := none }

/-- `apply_servers` of the wiring, on the copy. -/
def reconcile (daemon : McpDaemon) (delivered : List McpServerConfig)
    (connections : Connections) : McpDaemon :=
  let reconciled := daemon.swap.applyServers delivered connections
  { reconciled with
    wiring := { reconciled.wiring with registry := daemon.wiring.registry }
    staged := some reconciled.wiring.registry }

/-- A step that the state does not allow changes nothing: deliveries come one at a time, and a pass
visits servers of the topology. -/
def step (daemon : McpDaemon) : McpStep → McpDaemon
  | .copy =>
      if daemon.staged.isSome then daemon
      else { daemon with staged := some daemon.wiring.registry }
  | .reconcile document connections =>
      if daemon.staged.isSome then daemon.reconcile document.servers connections else daemon
  | .swap => daemon.swap
  | .visit server connections =>
      if server ∈ daemon.wiring.servers.map DesiredServer.server then
        daemon.visit connections server
      else daemon

/-- `connect_startup` over the startup's topology. -/
def start (bootstrap : CapabilityRegistry) (file : McpConfig) (persisted : Option McpConfig)
    (connections : Connections) : McpDaemon :=
  (connections.joined ((startupTopology file persisted).map DesiredServer.server)).foldl
    (connect connections) ⟨⟨startupTopology file persisted, bootstrap⟩, none, .new, []⟩

/-- The daemon after a start and a run. -/
def after (bootstrap : CapabilityRegistry) (file : ValidServers)
    (persisted : Option ValidServers) (connections : Connections) (steps : List McpStep) :
    McpDaemon :=
  Machine.run step
    (start bootstrap file.toMcpConfig (persisted.map ValidServers.toMcpConfig) connections) steps

/-! ### What was discovered -/

/-- The registry that authorization reads once the delivery in flight is through. -/
def settled (daemon : McpDaemon) : CapabilityRegistry :=
  daemon.staged.getD daemon.wiring.registry

/-- The descriptors discovered while no delivery was in flight. -/
def onTime (daemon : McpDaemon) : List CapabilityDescriptor :=
  (daemon.discovered.filter fun found => !found.late).map Discovered.descriptor

/-- All discovered descriptors. -/
def found (daemon : McpDaemon) : List CapabilityDescriptor :=
  daemon.discovered.map Discovered.descriptor

end McpDaemon

/-! ### One server -/

/-- What one connection or probe leaves. -/
structure Visited (connections : Connections) (server : McpServerConfig)
    (before after : McpDaemon) : Prop where
  wiring : after.wiring = { before.wiring with
    registry := before.wiring.registry.adopt (connections.found server) }
  staged : after.staged = before.staged
  discovered : after.discovered =
    before.discovered ++ (connections.found server).map (⟨·, before.staged.isSome⟩)
  get : ∀ id, after.client.get id =
    (lookup CapabilityDescriptor.id (connections.found server).reverse id).or
      (before.client.get id)
  connection : ∀ name connection, after.client.connection name = some connection →
    name = server.name ∧ connection.timeout = server.timeoutSeconds ∨
      before.client.connection name = some connection

namespace McpDaemon

variable {connections : Connections} {server : McpServerConfig} {daemon : McpDaemon}

theorem found_of_error {error : String} (h : connections.answer server = .error error) :
    connections.found server = [] := by
  rw [Connections.found, Connections.connect, h]
  rfl

theorem found_of_ok {tools : List Tool} (h : connections.answer server = .ok tools) :
    connections.found server =
      adoptTools server.spec tools server.riskOverrides server.tools := by
  rw [Connections.found, Connections.connect, h]
  rfl

/-- Nothing is discovered, and at most a connection is dropped. -/
theorem visited_of_error {error : String} (h : connections.answer server = .error error)
    {client : McpClientRuntime} (hget : ∀ id, client.get id = daemon.client.get id)
    (hconn : ∀ name connection, client.connection name = some connection →
      daemon.client.connection name = some connection) :
    Visited connections server daemon { daemon with client := client } where
  wiring := by rw [found_of_error h]; rfl
  staged := rfl
  discovered := by rw [found_of_error h, List.map_nil, List.append_nil]
  get := fun id => by rw [found_of_error h]; exact hget id
  connection := fun name connection hc => .inr (hconn name connection hc)

theorem visited_of_ok {tools : List Tool} (h : connections.answer server = .ok tools)
    {client : McpClientRuntime}
    (hget : ∀ id, client.get id =
      (daemon.client.register
        (adoptTools server.spec tools server.riskOverrides server.tools)).get id)
    {names : List String}
    (hconn : ∀ name, client.connection name =
      if server.name = name then some ⟨names, server.timeoutSeconds⟩
      else daemon.client.connection name) :
    Visited connections server daemon (daemon.registerDescriptors client
      (adoptTools server.spec tools server.riskOverrides server.tools)) where
  wiring := by rw [found_of_ok h]; rfl
  staged := rfl
  discovered := by rw [found_of_ok h]; rfl
  get := fun id => by
    rw [found_of_ok h]
    exact (hget id).trans (McpClientRuntime.get_register _ _ _)
  connection := fun name connection hc => by
    rw [registerDescriptors, hconn name] at hc
    by_cases hname : server.name = name
    · rw [if_pos hname] at hc
      exact .inl ⟨hname.symm, (congrArg ServerConnection.timeout (Option.some.inj hc)).symm⟩
    · rw [if_neg hname] at hc
      exact .inr hc

theorem connect_visited (connections : Connections) (daemon : McpDaemon)
    (server : McpServerConfig) :
    Visited connections server daemon (daemon.connect connections server) := by
  unfold connect listed McpClientRuntime.connect
  cases hanswer : connections.answer server with
  | error error => exact visited_of_error hanswer (fun _ => rfl) fun _ _ hc => hc
  | ok tools => exact visited_of_ok hanswer (fun _ => rfl) fun name => by simp; rfl

/-- A probe builds its descriptors with the connection's timeout, which is the server's. -/
theorem visit_visited (connections : Connections)
    (htimeout : ∀ connection, daemon.client.connection server.name = some connection →
      connection.timeout = server.timeoutSeconds) :
    Visited connections server daemon (daemon.visit connections server) := by
  unfold visit
  by_cases hlive : daemon.client.hasConnection server.name = true
  · rw [if_pos hlive]
    obtain ⟨connection, hconn⟩ := Option.isSome_iff_exists.mp hlive
    have hspec : (⟨server.name, connection.timeout⟩ : ServerSpec) = server.spec := by
      rw [htimeout connection hconn]
      rfl
    unfold listed McpClientRuntime.refresh
    cases hanswer : connections.answer server with
    | error error =>
        rw [hconn]
        refine visited_of_error hanswer (fun _ => McpClientRuntime.get_disconnect _ _ _) ?_
        intro name other hc
        rw [McpClientRuntime.connection_disconnect] at hc
        exact (Option.ite_none_left_eq_some.mp hc).2
    | ok tools =>
        simp only [hconn, hspec, Except.mapError]
        exact visited_of_ok hanswer (fun _ => rfl) fun name => by
          rw [McpClientRuntime.connection_register, McpClientRuntime.connection_setSlot,
            htimeout connection hconn]
  · rw [if_neg hlive]
    exact connect_visited connections daemon server

/-! ### Servers that are removed -/

theorem found_forget (daemon : McpDaemon) (server : McpServerConfig) :
    (daemon.forget server).found =
      daemon.found.filter fun d => !d.id.startsWith (mcpNamespace server.name) := by
  rw [found, found, List.filter_map]
  rfl

theorem onTime_forget (daemon : McpDaemon) (server : McpServerConfig) :
    (daemon.forget server).onTime =
      daemon.onTime.filter fun d => !d.id.startsWith (mcpNamespace server.name) := by
  rw [onTime, onTime, List.filter_map, forget, List.filter_comm]
  rfl

theorem forget_all (removed : List McpServerConfig) (daemon : McpDaemon) :
    (removed.foldl forget daemon).wiring =
        { daemon.wiring with registry := cleared daemon.wiring.registry removed } ∧
      (removed.foldl forget daemon).staged = daemon.staged ∧
      (∀ name connection, (removed.foldl forget daemon).client.connection name = some connection →
        daemon.client.connection name = some connection ∧
          ∀ server ∈ removed, server.name ≠ name) ∧
      ∀ d ∈ (removed.foldl forget daemon).found, d ∈ daemon.found ∧
        ∀ server ∈ removed, ¬ d.id.startsWith (mcpNamespace server.name) = true := by
  induction removed generalizing daemon with
  | nil => simp [cleared]
  | cons server removed ih =>
      obtain ⟨hwiring, hstaged, hconn, hfound⟩ := ih (daemon.forget server)
      rw [List.foldl_cons]
      refine ⟨hwiring, hstaged, fun name connection hc => ?_, fun d hd => ?_⟩
      · obtain ⟨hbefore, hother⟩ := hconn name connection hc
        rw [forget, McpClientRuntime.connection_unregisterServer,
          McpClientRuntime.connection_disconnect] at hbefore
        obtain ⟨hne, hbefore⟩ := Option.ite_none_left_eq_some.mp hbefore
        exact ⟨hbefore, List.forall_mem_cons.mpr ⟨hne, hother⟩⟩
      · obtain ⟨hbefore, hother⟩ := hfound d hd
        rw [found_forget] at hbefore
        obtain ⟨hbefore, hnot⟩ := List.mem_filter.mp hbefore
        exact ⟨hbefore, List.forall_mem_cons.mpr ⟨by simpa using hnot, hother⟩⟩

end McpDaemon

/-! ### The invariant -/

/-- The registry has the first descriptor of each id that was discovered on time, and the runtime
the last of all. -/
structure McpDaemon.Tables (daemon : McpDaemon) : Prop where
  first : ∀ id, id.isMcpCapability = true →
    daemon.settled.get id = lookup CapabilityDescriptor.id daemon.onTime id
  last : ∀ id,
    daemon.client.get id = lookup CapabilityDescriptor.id daemon.found.reverse id

/-- Every connection and every discovered tool is of a server of the topology as it stands. -/
structure McpDaemon.Current (servers : List DesiredServer) (daemon : McpDaemon) : Prop where
  slots : ∀ name connection, daemon.client.connection name = some connection →
    ∃ held ∈ servers, held.name = name ∧ connection.timeout = held.server.timeoutSeconds
  found : ∀ d ∈ daemon.found, ∃ held ∈ servers, ∃ tool,
    adoptTool held.server.spec held.server.riskOverrides held.server.tools tool = some d

namespace McpDaemon

variable {connections : Connections} {servers : List DesiredServer} {daemon daemon' : McpDaemon}
  {held : DesiredServer}

/-- A removal reaches the registry of the state, and no copy of it. -/
theorem Tables.forget (h : daemon.Tables) (hstaged : daemon.staged = none)
    (server : McpServerConfig) : (daemon.forget server).Tables where
  first := fun id hid => by
    have hfirst := h.first id hid
    rw [settled, hstaged, Option.getD_none] at hfirst
    rw [onTime_forget, settled]
    show ((daemon.staged.getD (daemon.wiring.registry.unregisterServer server.name).2).get id) = _
    rw [hstaged, Option.getD_none, CapabilityRegistry.get_unregisterServer, hfirst]
    exact (Keyed.lookup_filter_not (CapabilityId.startsWith · (mcpNamespace server.name)) id).symm
  last := fun id => by
    rw [McpDaemon.forget, McpClientRuntime.get_unregisterServer, McpClientRuntime.get_disconnect,
      h.last id]
    refine (Keyed.lookup_filter_not (CapabilityId.startsWith · (mcpNamespace server.name))
      id).symm.trans ?_
    rw [List.filter_reverse, ← found_forget]
    rfl

theorem Tables.forget_all (h : daemon.Tables) (hstaged : daemon.staged = none)
    (removed : List McpServerConfig) : (removed.foldl McpDaemon.forget daemon).Tables := by
  induction removed generalizing daemon with
  | nil => exact h
  | cons server removed ih => exact ih (h.forget hstaged server) hstaged

theorem found_visited {server : McpServerConfig} (hv : Visited connections server daemon daemon') :
    daemon'.found = daemon.found ++ connections.found server := by
  rw [found, hv.discovered, List.map_append, List.map_map]
  simp [Function.comp_def, found]

theorem onTime_visited {server : McpServerConfig}
    (hv : Visited connections server daemon daemon') : daemon'.onTime = daemon.onTime ++
      if daemon.staged.isSome then [] else connections.found server := by
  rw [onTime, hv.discovered, List.filter_append, List.map_append, List.filter_map]
  cases daemon.staged.isSome <;> simp [Function.comp_def, onTime]

theorem Tables.visited {server : McpServerConfig} (h : daemon.Tables)
    (hv : Visited connections server daemon daemon') : daemon'.Tables where
  first := fun id hid => by
    have hfirst := h.first id hid
    rw [onTime_visited hv, Keyed.lookup_append, ← hfirst, settled, settled, hv.wiring, hv.staged]
    cases daemon.staged with
    | none =>
        rw [Option.getD_none, Option.getD_none, CapabilityRegistry.get_adopt]
        rfl
    | some copy => exact Option.or_none.symm
  last := fun id => by
    rw [hv.get, found_visited hv, List.reverse_append, Keyed.lookup_append, h.last id]

theorem found_adopted {server : McpServerConfig} {d : CapabilityDescriptor}
    (h : d ∈ connections.found server) :
    ∃ tool, adoptTool server.spec server.riskOverrides server.tools tool = some d := by
  cases hanswer : connections.answer server with
  | error error =>
      rw [found_of_error hanswer] at h
      cases h
  | ok tools =>
      rw [found_of_ok hanswer] at h
      obtain ⟨tool, -, htool⟩ := List.mem_filterMap.mp h
      exact ⟨tool, htool⟩

theorem Current.visited (h : daemon.Current servers) (hheld : held ∈ servers)
    (hv : Visited connections held.server daemon daemon') : daemon'.Current servers where
  slots := fun name connection hc => by
    rcases hv.connection name connection hc with ⟨rfl, htimeout⟩ | hold
    · exact ⟨held, hheld, rfl, htimeout⟩
    · exact h.slots name connection hold
  found := fun d hd => by
    rw [found_visited hv, List.mem_append] at hd
    exact hd.elim (h.found d) fun hnew => ⟨held, hheld, found_adopted hnew⟩

/-- What a delivery removes is gone, and what it leaves is in the new topology unchanged. -/
theorem Current.forget_all (h : daemon.Current servers) (delivered : List McpServerConfig) :
    ((reconcilePlan servers delivered).toRemove.foldl McpDaemon.forget daemon).Current
      (reconcilePlan servers delivered).desired := by
  obtain ⟨-, -, hconn, hfound⟩ :=
    McpDaemon.forget_all (reconcilePlan servers delivered).toRemove daemon
  constructor
  · intro name connection hc
    obtain ⟨hbefore, hnot⟩ := hconn name connection hc
    obtain ⟨held, hheld, hname, htimeout⟩ := h.slots name connection hbefore
    rcases @removed_or_kept _ delivered _ hheld with hremoved | ⟨kept, hkept, hsame⟩
    · exact absurd hname (hnot held.server hremoved)
    · refine ⟨kept, hkept, ?_, ?_⟩
      · rw [DesiredServer.name, hsame]
        exact hname
      · rw [hsame]
        exact htimeout
  · intro d hd
    obtain ⟨hbefore, hnot⟩ := hfound d hd
    obtain ⟨held, hheld, tool, htool⟩ := h.found d hbefore
    rcases @removed_or_kept _ delivered _ hheld with hremoved | ⟨kept, hkept, hsame⟩
    · have hstart : d.id.startsWith (mcpNamespace held.server.name) = true :=
        @startsWith_of_mem_adoptTools held.server.spec [tool] _ _ d
          (List.mem_filterMap.mpr ⟨tool, List.mem_singleton_self tool, htool⟩)
      exact absurd hstart (hnot held.server hremoved)
    · exact ⟨kept, hkept, tool, by rw [hsame]; exact htool⟩

/-- Servers of the topology that are connected or probed one after the other. -/
theorem visited_all {f : McpDaemon → McpServerConfig → McpDaemon}
    (hf : ∀ held ∈ servers, ∀ daemon : McpDaemon, daemon.Current servers →
      Visited connections held.server daemon (f daemon held.server))
    (visited : List McpServerConfig) (hvisited : ∀ server ∈ visited, ∃ held ∈ servers,
      held.server = server) (daemon : McpDaemon) (ht : daemon.Tables)
    (hc : daemon.Current servers) :
    (visited.foldl f daemon).Tables ∧ (visited.foldl f daemon).Current servers ∧
      (visited.foldl f daemon).staged = daemon.staged ∧
      (visited.foldl f daemon).wiring = { daemon.wiring with
        registry := daemon.wiring.registry.adopt (visited.flatMap connections.found) } := by
  induction visited generalizing daemon with
  | nil => exact ⟨ht, hc, rfl, rfl⟩
  | cons server visited ih =>
      obtain ⟨⟨held, hheld, rfl⟩, hrest⟩ := List.forall_mem_cons.mp hvisited
      have hv := hf held hheld daemon hc
      obtain ⟨ht', hc', hstaged, hwiring⟩ := ih hrest _ (ht.visited hv) (hc.visited hheld hv)
      refine ⟨ht', hc', hstaged.trans hv.staged, hwiring.trans ?_⟩
      rw [hv.wiring, List.flatMap_cons, CapabilityRegistry.adopt_append]

/-! ### Steps and runs -/

/-- What the tables and the topology are after every step. -/
structure Coherent (daemon : McpDaemon) : Prop where
  tables : daemon.Tables
  current : daemon.Current daemon.wiring.servers
  nodup : (daemon.wiring.servers.map DesiredServer.name).Nodup
  segments : ∀ held ∈ daemon.wiring.servers, isCapabilitySegment held.name = true

/-- The connection of a server of the topology has that server's timeout. -/
theorem timeout_of_slot (hnodup : (servers.map DesiredServer.name).Nodup)
    (hc : daemon.Current servers) (hheld : held ∈ servers) {connection : ServerConnection}
    (hconn : daemon.client.connection held.server.name = some connection) :
    connection.timeout = held.server.timeoutSeconds := by
  obtain ⟨other, hother, hname, htimeout⟩ := hc.slots _ _ hconn
  obtain rfl := List.inj_on_of_nodup_map hnodup hother hheld hname
  exact htimeout

namespace Coherent

variable (h : daemon.Coherent) (connections : Connections)

include h

/-- What one task of a pass leaves, for a server of the topology. -/
theorem visited (hheld : held ∈ daemon.wiring.servers) :
    Visited connections held.server daemon (daemon.visit connections held.server) :=
  visit_visited connections fun _ hconn => timeout_of_slot h.nodup h.current hheld hconn

theorem visit (hheld : held ∈ daemon.wiring.servers) :
    (daemon.visit connections held.server).Coherent := by
  have hv := h.visited connections hheld
  have hservers : (daemon.visit connections held.server).wiring.servers =
      daemon.wiring.servers := by
    rw [hv.wiring]
  exact ⟨h.tables.visited hv, hservers ▸ h.current.visited hheld hv, hservers ▸ h.nodup,
    hservers ▸ h.segments⟩

/-- A reconcile on the registry of the state: the wiring goes as it does without the runtime
behind it. -/
theorem applyServers (hstaged : daemon.staged = none) (document : ValidServers) :
    (daemon.applyServers document.servers connections).Coherent ∧
      (daemon.applyServers document.servers connections).staged = none ∧
      (daemon.applyServers document.servers connections).wiring =
        (daemon.wiring.applyServers document.servers connections).2 := by
  set plan := reconcilePlan daemon.wiring.servers (enabledServers document.servers) with hplan
  obtain ⟨ht, hc, hnone, hwiring⟩ := visited_all
    (fun held _ other _ => connect_visited connections other held.server)
    (connections.joined plan.toConnect)
    (fun server hserver => ⟨.cloud server,
      (desired_of_toConnect ((connections.joined_perm _).mem_iff.mp hserver)).2, rfl⟩)
    _ (h.tables.forget_all hstaged plan.toRemove)
    (h.current.forget_all (enabledServers document.servers))
  have hregistry : ((connections.joined plan.toConnect).foldl (connect connections)
      (plan.toRemove.foldl forget daemon)).wiring.registry =
        McpState.register connections plan.toConnect
          (cleared daemon.wiring.registry plan.toRemove) := by
    rw [hwiring, (forget_all plan.toRemove daemon).1, register_eq_adopt]
  refine ⟨⟨⟨ht.first, ht.last⟩, ⟨hc.slots, hc.found⟩, ?_, ?_⟩, ?_, ?_⟩
  · exact nodup_desired h.nodup document.nodup_enabledServers
  · exact fun held hheld => segment_of_desired h.segments
      (fun server hserver => (document.wellFormed (List.mem_of_mem_filter hserver)).1) hheld
  · exact hnone.trans ((forget_all plan.toRemove daemon).2.1.trans hstaged)
  · exact congrArg (McpState.mk plan.desired) hregistry

omit connections in
theorem swap : daemon.swap.Coherent ∧ daemon.swap.staged = none ∧
    daemon.swap.wiring = ⟨daemon.wiring.servers, daemon.settled⟩ := by
  unfold McpDaemon.swap
  cases hstaged : daemon.staged with
  | none =>
      refine ⟨h, hstaged, ?_⟩
      rw [settled, hstaged]
      rfl
  | some copy =>
      have hsettled : daemon.settled = copy := by
        rw [settled, hstaged]
        rfl
      refine ⟨⟨⟨fun id hid => ?_, h.tables.last⟩, ⟨h.current.slots, h.current.found⟩, h.nodup,
        h.segments⟩, rfl, by rw [hsettled]⟩
      rw [← hsettled]
      exact h.tables.first id hid

/-- The reconcile of a delivery goes by what is settled, and leaves the registry that is read. -/
theorem reconcile (document : ValidServers) :
    (daemon.reconcile document.servers connections).Coherent ∧
      (⟨(daemon.reconcile document.servers connections).wiring.servers,
        (daemon.reconcile document.servers connections).settled⟩ : McpState) =
        (McpState.applyServers ⟨daemon.wiring.servers, daemon.settled⟩ document.servers
          connections).2 := by
  obtain ⟨hswap, hstaged, hwiring⟩ := h.swap
  obtain ⟨happlied, -, heq⟩ := hswap.applyServers connections hstaged document
  rw [hwiring] at heq
  refine ⟨⟨⟨?_, happlied.tables.last⟩, ⟨happlied.current.slots, happlied.current.found⟩,
    happlied.nodup, happlied.segments⟩, heq⟩
  intro id hid
  have hfirst := happlied.tables.first id hid
  rw [settled, (hswap.applyServers connections hstaged document).2.1] at hfirst
  exact hfirst

omit connections in
theorem step (step : McpStep) : (daemon.step step).Coherent := by
  cases step with
  | copy =>
      simp only [McpDaemon.step]
      split_ifs with hstaged
      · exact h
      · have hnone := Option.not_isSome_iff_eq_none.mp hstaged
        refine ⟨⟨fun id hid => ?_, h.tables.last⟩, ⟨h.current.slots, h.current.found⟩, h.nodup,
          h.segments⟩
        have hfirst := h.tables.first id hid
        rw [settled, hnone] at hfirst
        exact hfirst
  | reconcile document connections =>
      simp only [McpDaemon.step]
      split_ifs
      · exact (h.reconcile connections document).1
      · exact h
  | swap => exact h.swap.1
  | visit server connections =>
      simp only [McpDaemon.step]
      split_ifs with hmem
      · obtain ⟨held, hheld, rfl⟩ := List.mem_map.mp hmem
        exact h.visit connections hheld
      · exact h

end Coherent

end McpDaemon

namespace McpDaemon

variable {daemon : McpDaemon}

/-- Nothing is discovered and no slot is open before the startup connects. -/
theorem coherent_start (bootstrap : BootstrapRegistry) (file : ValidServers)
    (persisted : Option ValidServers) (connections : Connections) :
    let daemon := start bootstrap.toCapabilityRegistry file.toMcpConfig
      (persisted.map ValidServers.toMcpConfig) connections
    daemon.Coherent ∧ daemon.staged = none ∧
      daemon.wiring = McpState.start bootstrap.toCapabilityRegistry
        file.toMcpConfig (persisted.map ValidServers.toMcpConfig) connections := by
  intro daemon
  have hempty (id : CapabilityId) (hid : id.isMcpCapability = true) :
      bootstrap.toCapabilityRegistry.get id = none := by
    refine Option.eq_none_iff_forall_ne_some.mpr fun d hd => ?_
    obtain ⟨hmem, rfl⟩ := CapabilityRegistry.get_eq_some_iff.mp hd
    exact bootstrap.not_mcp hmem hid
  obtain ⟨ht, hc, hstaged, hwiring⟩ := visited_all
    (fun held _ other _ => connect_visited connections other held.server)
    (connections.joined ((startupTopology file.toMcpConfig
      (persisted.map ValidServers.toMcpConfig)).map DesiredServer.server))
    (fun server hserver => List.mem_map.mp ((connections.joined_perm _).mem_iff.mp hserver))
    ⟨⟨_, bootstrap.toCapabilityRegistry⟩, none, .new, []⟩
    ⟨fun id hid => hempty id hid, fun _ => rfl⟩
    ⟨fun _ _ hconn => (by cases hconn), fun d hd => absurd hd List.not_mem_nil⟩
  have heq : daemon.wiring = McpState.start bootstrap.toCapabilityRegistry file.toMcpConfig
      (persisted.map ValidServers.toMcpConfig) connections := by
    rw [McpState.start, McpState.lifecyclePass, register_eq_adopt]
    exact hwiring
  have hservers : daemon.wiring.servers = startupTopology file.toMcpConfig
      (persisted.map ValidServers.toMcpConfig) := by
    rw [heq]
    rfl
  have hmatched := matched_after bootstrap file persisted connections []
  exact ⟨⟨ht, hservers ▸ hc, heq ▸ hmatched.nodup, heq ▸ hmatched.segments⟩, hstaged, heq⟩

theorem coherent_after (bootstrap : BootstrapRegistry) (file : ValidServers)
    (persisted : Option ValidServers) (startup : Connections) (steps : List McpStep) :
    (after bootstrap.toCapabilityRegistry file persisted startup steps).Coherent :=
  Machine.invariant (coherent_start bootstrap file persisted startup).1
    (fun _ step h => h.step step) steps

/-! ### Runs in which deliveries and passes do not meet -/

/-- The steps of a delivery or a pass that nothing comes between. -/
def steps (state : McpState) : McpEvent → List McpStep
  | .delivery document connections => [.copy, .reconcile document connections, .swap]
  | .pass connections =>
      (connections.joined (state.servers.map DesiredServer.server)).map (.visit · connections)

def apart (state : McpState) : List McpEvent → List McpStep
  | [] => []
  | event :: events => steps state event ++ apart (state.step event) events

/-- Nothing was discovered while a delivery was in flight. -/
def Punctual (daemon : McpDaemon) : Prop := ∀ found ∈ daemon.discovered, found.late = false

theorem Punctual.visited {connections : Connections} {server : McpServerConfig}
    {daemon' : McpDaemon} (h : daemon.Punctual) (hstaged : daemon.staged = none)
    (hv : Visited connections server daemon daemon') : daemon'.Punctual := by
  intro found hfound
  rw [hv.discovered, List.mem_append, hstaged] at hfound
  rcases hfound with hold | hnew
  · exact h found hold
  · obtain ⟨d, -, rfl⟩ := List.mem_map.mp hnew
    rfl

theorem Punctual.connected (connections : Connections) (servers : List McpServerConfig)
    (h : daemon.Punctual) (hstaged : daemon.staged = none) :
    (servers.foldl (connect connections) daemon).Punctual := by
  induction servers generalizing daemon with
  | nil => exact h
  | cons server servers ih =>
      have hv := connect_visited connections daemon server
      exact ih (h.visited hstaged hv) (hv.staged.trans hstaged)

theorem Punctual.applyServers {delivered : List McpServerConfig} {connections : Connections}
    (h : daemon.Punctual) (hstaged : daemon.staged = none) :
    (daemon.applyServers delivered connections).Punctual := by
  have hforgot (removed : List McpServerConfig) : (removed.foldl forget daemon).Punctual ∧
      (removed.foldl forget daemon).staged = none := by
    induction removed generalizing daemon with
    | nil => exact ⟨h, hstaged⟩
    | cons server removed ih =>
        exact ih (fun found hfound => h found (List.mem_of_mem_filter hfound)) hstaged
  exact (hforgot _).1.connected connections _ (hforgot _).2

/-- A pass that no delivery meets. -/
theorem pass_apart (h : daemon.Coherent) (hstaged : daemon.staged = none)
    (hpunctual : daemon.Punctual) (connections : Connections) (servers : List McpServerConfig)
    (hservers : ∀ server ∈ servers, ∃ held ∈ daemon.wiring.servers, held.server = server) :
    let daemon' := Machine.run step daemon (servers.map (.visit · connections))
    daemon'.Coherent ∧ daemon'.staged = none ∧ daemon'.Punctual ∧
      daemon'.wiring = { daemon.wiring with
        registry := daemon.wiring.registry.adopt (servers.flatMap connections.found) } := by
  induction servers generalizing daemon with
  | nil => exact ⟨h, hstaged, hpunctual, rfl⟩
  | cons server servers ih =>
      obtain ⟨⟨held, hheld, rfl⟩, hrest⟩ := List.forall_mem_cons.mp hservers
      have hv := h.visited connections hheld
      have hstep : daemon.step (.visit held.server connections) =
          daemon.visit connections held.server := if_pos (List.mem_map_of_mem hheld)
      obtain ⟨hcoherent, hnone, hlate, hwiring⟩ := ih (h.visit connections hheld)
        (hv.staged.trans hstaged) (hpunctual.visited hstaged hv) (by rw [hv.wiring]; exact hrest)
      rw [List.map_cons, Machine.run_cons, hstep]
      refine ⟨hcoherent, hnone, hlate, hwiring.trans ?_⟩
      rw [hv.wiring, List.flatMap_cons, CapabilityRegistry.adopt_append]

/-- A delivery or a pass alone does what the wiring does without the runtime behind it. -/
theorem steps_apart (h : daemon.Coherent) (hstaged : daemon.staged = none)
    (hpunctual : daemon.Punctual) (event : McpEvent) :
    let daemon' := Machine.run step daemon (steps daemon.wiring event)
    daemon'.Coherent ∧ daemon'.staged = none ∧ daemon'.Punctual ∧
      daemon'.wiring = daemon.wiring.step event := by
  cases event with
  | pass connections =>
      obtain ⟨hcoherent, hnone, hlate, hwiring⟩ := pass_apart h hstaged hpunctual connections
        (connections.joined (daemon.wiring.servers.map DesiredServer.server))
        (fun server hserver => List.mem_map.mp ((connections.joined_perm _).mem_iff.mp hserver))
      refine ⟨hcoherent, hnone, hlate, hwiring.trans ?_⟩
      rw [McpState.step, McpState.lifecyclePass, register_eq_adopt]
  | delivery document connections =>
      have hcopied : daemon.step .copy =
          { daemon with staged := some daemon.wiring.registry } := by
        rw [step, hstaged]
        rfl
      have hswapped : ({ daemon with staged := some daemon.wiring.registry } : McpDaemon).swap =
          daemon := by
        rw [swap]
        exact congrArg (fun staged => { daemon with staged }) hstaged.symm
      have hreconciled : (step { daemon with staged := some daemon.wiring.registry }
          (.reconcile document connections)).swap =
          daemon.applyServers document.servers connections := by
        obtain ⟨-, hnone, -⟩ := h.applyServers connections hstaged document
        have hsteps : step { daemon with staged := some daemon.wiring.registry }
            (.reconcile document connections) =
            reconcile { daemon with staged := some daemon.wiring.registry }
              document.servers connections := rfl
        rw [hsteps, reconcile, hswapped, swap]
        exact congrArg (fun staged => { daemon.applyServers document.servers connections with
          staged }) hnone.symm
      have hrun : Machine.run step daemon (steps daemon.wiring (.delivery document connections)) =
          daemon.applyServers document.servers connections := by
        rw [steps, Machine.run_cons, hcopied, Machine.run_cons, Machine.run_cons]
        exact hreconciled
      obtain ⟨hcoherent, hnone, hwiring⟩ := h.applyServers connections hstaged document
      rw [hrun]
      exact ⟨hcoherent, hnone, hpunctual.applyServers hstaged, hwiring⟩

/-- Where deliveries and passes do not meet, the daemon's wiring runs as it does without the
runtime behind it, and nothing is discovered late. -/
theorem wiring_after (bootstrap : BootstrapRegistry) (file : ValidServers)
    (persisted : Option ValidServers) (startup : Connections) (events : List McpEvent) :
    let state := McpState.start bootstrap.toCapabilityRegistry file.toMcpConfig
      (persisted.map ValidServers.toMcpConfig) startup
    let daemon := after bootstrap.toCapabilityRegistry file persisted startup (apart state events)
    daemon.staged = none ∧ daemon.Punctual ∧
      daemon.wiring =
        McpState.after bootstrap.toCapabilityRegistry file persisted startup events := by
  intro state daemon
  obtain ⟨hcoherent, hstaged, hwiring⟩ := coherent_start bootstrap file persisted startup
  have hpunctual : (start bootstrap.toCapabilityRegistry file.toMcpConfig
      (persisted.map ValidServers.toMcpConfig) startup).Punctual :=
    Punctual.connected startup _ (fun found hfound => absurd hfound List.not_mem_nil) rfl
  have hruns (events : List McpEvent) : ∀ daemon : McpDaemon, daemon.Coherent →
      daemon.staged = none → daemon.Punctual →
      let daemon' := Machine.run step daemon (apart daemon.wiring events)
      daemon'.staged = none ∧ daemon'.Punctual ∧
        daemon'.wiring = Machine.run McpState.step daemon.wiring events := by
    induction events with
    | nil => exact fun daemon _ hstaged hpunctual => ⟨hstaged, hpunctual, rfl⟩
    | cons event events ih =>
        intro daemon hcoherent hstaged hpunctual
        obtain ⟨hcoherent, hstaged, hpunctual, hwiring⟩ :=
          steps_apart hcoherent hstaged hpunctual event
        simp only [apart, Machine.run_append, Machine.run_cons]
        rw [← hwiring]
        exact ih _ hcoherent hstaged hpunctual
  have hrun := hruns events _ hcoherent hstaged hpunctual
  rw [hwiring] at hrun
  exact hrun

/-! ### Agreement -/

/-- A capability of both tables has one descriptor. -/
def Agree (daemon : McpDaemon) : Prop :=
  ∀ id authorized enforced, id.isMcpCapability = true →
    daemon.wiring.registry.get id = some authorized → daemon.client.get id = some enforced →
    authorized = enforced

/-- Two discovered descriptors of one id are of one server, and differ at most in the schema. -/
theorem Coherent.eq_of_discovered (h : daemon.Coherent) {d d' : CapabilityDescriptor}
    (hd : d ∈ daemon.found) (hd' : d' ∈ daemon.found) (hid : d.id = d'.id) :
    d = { d' with inputSchema := d.inputSchema } := by
  obtain ⟨held, hheld, tool, htool⟩ := h.current.found d hd
  obtain ⟨held', hheld', tool', htool'⟩ := h.current.found d' hd'
  have hmem : d ∈ adoptTools held.server.spec [tool, tool'] held.server.riskOverrides
      held.server.tools := List.mem_filterMap.mpr ⟨tool, by simp, htool⟩
  have hmem' : d' ∈ adoptTools held'.server.spec [tool, tool'] held'.server.riskOverrides
      held'.server.tools := List.mem_filterMap.mpr ⟨tool', by simp, htool'⟩
  have hstart : d.id.startsWith (mcpNamespace held.name) = true :=
    @startsWith_of_mem_adoptTools held.server.spec _ _ _ d hmem
  have hstart' : d.id.startsWith (mcpNamespace held'.name) = true := by
    rw [hid]
    exact @startsWith_of_mem_adoptTools held'.server.spec _ _ _ d' hmem'
  have hname : held.name = held'.name := server_unique (h.segments held hheld)
    (h.segments held' hheld') hstart hstart'
  obtain rfl := List.inj_on_of_nodup_map h.nodup hheld hheld' hname
  exact eq_of_adoptTools_id hmem hmem' hid

theorem mem_found_of_onTime {d : CapabilityDescriptor} (h : d ∈ daemon.onTime) :
    d ∈ daemon.found := by
  obtain ⟨found, hfound, rfl⟩ := List.mem_map.mp h
  exact List.mem_map_of_mem (List.mem_of_mem_filter hfound)

end McpDaemon

/-- What the tables have of an external tool, once no delivery is in flight. -/
structure Agreement (daemon : McpDaemon) (id : CapabilityId) : Prop where
  /-- The registry has the first descriptor discovered on time since its server's namespace was
  last cleared, and the runtime the last one of all. -/
  first : daemon.wiring.registry.get id = lookup CapabilityDescriptor.id daemon.onTime id
  last : daemon.client.get id = lookup CapabilityDescriptor.id daemon.found.reverse id
  /-- A tool of the registry is one of the runtime. They agree in everything but the schema, and
  in that too where all discovered descriptors do. -/
  agree : ∀ authorized, daemon.wiring.registry.get id = some authorized →
    ∃ enforced, daemon.client.get id = some enforced ∧
      authorized = { enforced with inputSchema := authorized.inputSchema } ∧
      ((∀ d ∈ daemon.found, d.id = id → d.inputSchema = enforced.inputSchema) →
        authorized = enforced)
  /-- A tool that the registry lacks was discovered while a delivery was in flight. -/
  missing : daemon.wiring.registry.get id = none →
    ∀ found ∈ daemon.discovered, found.descriptor.id = id → found.late = true

namespace McpDaemon

/-- Where the two tables are coherent and no delivery is in flight, they agree on every external
tool. -/
theorem Coherent.agreement (h : daemon.Coherent) (hstaged : daemon.staged = none)
    {id : CapabilityId} (hid : id.isMcpCapability = true) : Agreement daemon id := by
  have hfirst :
      daemon.wiring.registry.get id = lookup CapabilityDescriptor.id daemon.onTime id := by
    have hfirst := h.tables.first id hid
    rw [settled, hstaged] at hfirst
    exact hfirst
  refine ⟨hfirst, h.tables.last id, ?_, ?_⟩
  · intro authorized hauthorized
    rw [hfirst] at hauthorized
    have hmem := mem_found_of_onTime (Keyed.mem_of_lookup hauthorized)
    have hkey : authorized.id = id := Keyed.key_of_lookup hauthorized
    cases hlast : daemon.client.get id with
    | none =>
        rw [h.tables.last id, Keyed.lookup_eq_none_iff] at hlast
        exact absurd hkey (hlast authorized (List.mem_reverse.mpr hmem))
    | some enforced =>
        rw [h.tables.last id] at hlast
        have hmem' : enforced ∈ daemon.found := List.mem_reverse.mp (Keyed.mem_of_lookup hlast)
        have hsame := h.eq_of_discovered hmem hmem'
          (hkey.trans (Keyed.key_of_lookup hlast).symm)
        refine ⟨enforced, rfl, hsame, fun hschemas => ?_⟩
        rw [hsame, hschemas authorized hmem hkey]
  · intro hnone found hfound hkey
    rw [hfirst, Keyed.lookup_eq_none_iff] at hnone
    by_contra hlate
    refine hnone found.descriptor (List.mem_map_of_mem (List.mem_filter.mpr ⟨hfound, ?_⟩)) hkey
    simpa using hlate

end McpDaemon

/-- Both tables have what a server's task found. -/
theorem Visited.isSome {connections : Connections} {server : McpServerConfig}
    {daemon probed : McpDaemon} {d : CapabilityDescriptor}
    (h : Visited connections server daemon probed) (hd : d ∈ connections.found server) :
    (probed.wiring.registry.get d.id).isSome ∧ (probed.client.get d.id).isSome := by
  constructor
  · rw [h.wiring, CapabilityRegistry.get_adopt, Option.isSome_or, Bool.or_eq_true]
    exact .inr (Option.isSome_iff_ne_none.mpr fun hnone =>
      Keyed.lookup_eq_none_iff.mp hnone d hd rfl)
  · rw [h.get, Option.isSome_or, Bool.or_eq_true]
    exact .inl (Option.isSome_iff_ne_none.mpr fun hnone =>
      Keyed.lookup_eq_none_iff.mp hnone d (List.mem_reverse.mpr hd) rfl)

/-- After any run with no delivery in flight, every external tool of the registry is one of the
runtime, with the descriptor the runtime enforces but for the schema; what the registry lacks was
discovered during a delivery, and the next task of the server that lists it puts it in. -/
theorem registry_agrees_with_runtime (bootstrap : BootstrapRegistry) (file : ValidServers)
    (persisted : Option ValidServers) (startup : Connections) (steps : List McpStep)
    (hstaged : (McpDaemon.after bootstrap.toCapabilityRegistry file persisted startup
      steps).staged = none) :
    let daemon := McpDaemon.after bootstrap.toCapabilityRegistry file persisted startup steps
    (∀ id, id.isMcpCapability = true → Agreement daemon id) ∧
      ∀ held ∈ daemon.wiring.servers, ∀ connections : Connections,
        let probed := daemon.step (.visit held.server connections)
        ∀ d ∈ connections.found held.server,
          (probed.wiring.registry.get d.id).isSome ∧ (probed.client.get d.id).isSome := by
  intro daemon
  have h : daemon.Coherent := McpDaemon.coherent_after bootstrap file persisted startup steps
  refine ⟨fun id hid => h.agreement hstaged hid, ?_⟩
  intro held hheld connections probed d hd
  have hvisited : Visited connections held.server daemon probed := by
    have hstep : probed = daemon.visit connections held.server :=
      if_pos (List.mem_map_of_mem hheld)
    rw [hstep]
    exact h.visited connections hheld
  exact hvisited.isSome hd

/-! ### A schema that changes -/

/-- The server's tool with a schema that does not constrain its input, and with one that does. -/
def advertisedBefore : Connections := .inOrder fun _ => .ok [⟨"query", []⟩]

def advertisedAfter : Connections :=
  .inOrder fun _ => .ok [⟨"query", [("type", .string "object")]⟩]

/-- A tool that a probe finds during a delivery is missing in the registry when the delivery is
through, and a probe finds it again. -/
theorem registry_agrees_with_runtime_delivery :
    let server := metricsServer "/bin/file" true
    let daemon := McpDaemon.after .empty fileSection none unreachable
      [.copy, .visit server advertisedBefore, .reconcile .empty unreachable, .swap]
    let probed := daemon.step (.visit server advertisedBefore)
    (daemon.wiring.registry.get ⟨"mcp.metrics.query", by decide⟩).isSome = false ∧
      (daemon.client.get ⟨"mcp.metrics.query", by decide⟩).isSome = true ∧
      (∀ id, id.isMcpCapability = true → Agreement daemon id) ∧
      (probed.wiring.registry.get ⟨"mcp.metrics.query", by decide⟩).isSome = true := by
  intro server daemon probed
  have h := registry_agrees_with_runtime ⟨.empty, by decide⟩ fileSection none unreachable
    [.copy, .visit server advertisedBefore, .reconcile .empty unreachable, .swap] (by decide)
  exact ⟨by decide, by decide, h.1, by decide⟩

/-- Probed once after the tool's schema changed. -/
def reprobed : McpDaemon :=
  McpDaemon.after .empty fileSection none advertisedBefore
    [.visit (metricsServer "/bin/file" true) advertisedAfter]

/-- After a probe that finds another schema, a call is authorized against the old one. -/
theorem schemas_diverge : ¬ reprobed.Agree := by
  intro hagree
  let constrained (d : CapabilityDescriptor) : Bool := (d.inputSchema.get "type").isSome
  have hregistry : (reprobed.wiring.registry.get ⟨"mcp.metrics.query", by decide⟩).map
      constrained = some false := by decide
  have hclient : (reprobed.client.get ⟨"mcp.metrics.query", by decide⟩).map
      constrained = some true := by decide
  obtain ⟨authorized, hget, hauthorized⟩ := Option.map_eq_some_iff.mp hregistry
  obtain ⟨enforced, hget', henforced⟩ := Option.map_eq_some_iff.mp hclient
  obtain rfl := hagree _ authorized enforced (by decide) hget hget'
  exact absurd (hauthorized.symm.trans henforced) (by decide)

end Argus
