import Argus.Daemon.McpTopology

/-!
# The tools of the live topology

Every registered tool is in the namespace of a desired server: a server leaves the topology only
together with its namespace, and a connection registers into its own. Server names have no dots,
so the namespaces are disjoint, and a server that is connected by a delivery finds its own empty.
-/

namespace Argus

open Keyed (lookup)

/-! ### Namespaces -/

theorem startsWith_iff {id : CapabilityId} {start : String} :
    id.startsWith start = true ↔ start.toList <+: id.asStr.toList := List.isPrefixOf_iff_prefix

theorem toList_mcpNamespace (server : String) :
    (mcpNamespace server).toList = "mcp.".toList ++ (server.toList ++ ['.']) := by
  simp [mcpNamespace, String.toList_append]

/-- A tool of some server is an external tool. -/
theorem isMcpCapability_of_startsWith {id : CapabilityId} {server : String}
    (h : id.startsWith (mcpNamespace server) = true) : id.isMcpCapability = true := by
  rw [startsWith_iff, toList_mcpNamespace] at h
  exact startsWith_iff.mpr ((List.prefix_append _ _).trans h)

/-- What stands before the first dot. -/
theorem takeWhile_dot {cs : List Char} (h : '.' ∉ cs) (rest : List Char) :
    (cs ++ ['.'] ++ rest).takeWhile (· ≠ '.') = cs := by
  have hcs : ∀ c ∈ cs, decide (c ≠ '.') = true := fun c hc => by
    simpa using fun heq : c = '.' => h (heq ▸ hc)
  rw [List.append_assoc, List.takeWhile_append_of_pos hcs]
  simp

theorem dotless_of_segment {name : String} (h : isCapabilitySegment name = true) :
    '.' ∉ name.toList := by
  simp only [isCapabilitySegment, Bool.and_eq_true, Bool.not_eq_true', List.contains_eq_mem,
    decide_eq_false_iff_not] at h
  exact h.1

/-- The namespaces of two servers are disjoint, for their names have no dots. -/
theorem server_unique {id : CapabilityId} {a b : String} (ha : isCapabilitySegment a = true)
    (hb : isCapabilitySegment b = true) (hia : id.startsWith (mcpNamespace a) = true)
    (hib : id.startsWith (mcpNamespace b) = true) : a = b := by
  rw [startsWith_iff, toList_mcpNamespace] at hia hib
  obtain ⟨restA, hA⟩ := hia
  obtain ⟨restB, hB⟩ := hib
  rw [List.append_assoc] at hA hB
  have heq := List.append_cancel_left (hA.trans hB.symm)
  have hlist : a.toList = b.toList := by
    rw [← takeWhile_dot (dotless_of_segment ha) restA, heq,
      takeWhile_dot (dotless_of_segment hb) restB]
  exact String.toList_inj.mp hlist

/-! ### Discovery -/

theorem eq_of_adoptTool {spec : ServerSpec} {overrides : List McpToolConfig}
    {allow : Option (List String)} {tool : Tool} {d : CapabilityDescriptor}
    (h : adoptTool spec overrides allow tool = some d) :
    d.id.asStr = mcpNamespace spec.name ++ trim tool.name ∧
      d = toolDescriptor spec overrides (trim tool.name) tool.inputSchema d.id := by
  unfold adoptTool at h
  by_cases hname : ((trim tool.name).isEmpty || (trim tool.name).toList.contains '.') = true
  · rw [if_pos hname] at h
    cases h
  rw [if_neg hname] at h
  by_cases hallow : (!allow.all fun allow => allow.contains (trim tool.name)) = true
  · rw [if_pos hallow] at h
    cases h
  rw [if_neg hallow] at h
  obtain ⟨id, hid, rfl⟩ := Option.map_eq_some_iff.mp h
  unfold CapabilityId.new at hid
  by_cases hpath : isDottedPath (mcpNamespace spec.name ++ trim tool.name) = true
  · rw [dif_pos hpath] at hid
    obtain rfl := Option.some.inj hid
    exact ⟨rfl, rfl⟩
  · rw [dif_neg hpath] at hid
    cases hid

variable {spec : ServerSpec} {tools : List Tool} {overrides : List McpToolConfig}
  {allow : Option (List String)} {d d' : CapabilityDescriptor}

/-- What a server advertises comes into its own namespace. -/
theorem startsWith_of_mem_adoptTools (h : d ∈ adoptTools spec tools overrides allow) :
    d.id.startsWith (mcpNamespace spec.name) = true := by
  obtain ⟨tool, -, htool⟩ := List.mem_filterMap.mp h
  rw [startsWith_iff, (eq_of_adoptTool htool).1, String.toList_append]
  exact List.prefix_append _ _

/-- Descriptors of one id differ at most in the schema: risk and approval go by the name. -/
theorem eq_of_adoptTools_id (h : d ∈ adoptTools spec tools overrides allow)
    (h' : d' ∈ adoptTools spec tools overrides allow) (hid : d.id = d'.id) :
    d = { d' with inputSchema := d.inputSchema } := by
  obtain ⟨tool, -, htool⟩ := List.mem_filterMap.mp h
  obtain ⟨tool', -, htool'⟩ := List.mem_filterMap.mp h'
  obtain ⟨hpath, hd⟩ := eq_of_adoptTool htool
  obtain ⟨hpath', hd'⟩ := eq_of_adoptTool htool'
  have hname : trim tool.name = trim tool'.name := by
    rw [hid, hpath', String.append_right_inj] at hpath
    exact hpath.symm
  rw [hd, hd', hname, hid]
  rfl

/-- The descriptors a server contributes when its connection ends. -/
def Connections.found (connections : Connections) (server : McpServerConfig) :
    List CapabilityDescriptor :=
  match connections.connect server with
  | .ok descriptors => descriptors
  | .error _ => []

theorem startsWith_of_found {connections : Connections} {server : McpServerConfig}
    (h : d ∈ connections.found server) : d.id.startsWith (mcpNamespace server.name) = true := by
  unfold Connections.found Connections.connect at h
  cases hanswer : connections.answer server with
  | error error =>
      rw [hanswer] at h
      cases h
  | ok tools =>
      rw [hanswer] at h
      exact @startsWith_of_mem_adoptTools server.spec _ _ _ _ h

/-! ### What one reconcile does to the registry -/

section Reconcile

variable {connections : Connections} {servers : List McpServerConfig}
  {registry : CapabilityRegistry}

theorem register_eq_adopt : McpState.register connections servers registry =
    registry.adopt ((connections.joined servers).flatMap connections.found) := by
  unfold McpState.register
  induction connections.joined servers generalizing registry with
  | nil => rfl
  | cons server servers ih =>
      rw [List.foldl_cons, ih, List.flatMap_cons, CapabilityRegistry.adopt_append]
      unfold Connections.found
      cases connections.connect server <;> rfl

theorem get_register (id : CapabilityId) :
    (McpState.register connections servers registry).get id = (registry.get id).or
      (lookup CapabilityDescriptor.id ((connections.joined servers).flatMap connections.found)
        id) := by
  rw [register_eq_adopt, CapabilityRegistry.get_adopt]

/-- What is registered was there, or is in the namespace of a server of the pass. -/
theorem mem_register (h : d ∈ (McpState.register connections servers registry).descriptors) :
    d ∈ registry.descriptors ∨
      ∃ server ∈ servers, d.id.startsWith (mcpNamespace server.name) = true := by
  have hget := CapabilityRegistry.get_eq_some_iff.mpr ⟨h, rfl⟩
  rw [get_register, Option.or_eq_some_iff] at hget
  rcases hget with hold | ⟨-, hnew⟩
  · exact .inl (CapabilityRegistry.get_eq_some_iff.mp hold).1
  · obtain ⟨server, hserver, hd⟩ := List.mem_flatMap.mp (Keyed.mem_of_lookup hnew)
    exact .inr ⟨server, (connections.joined_perm servers).mem_iff.mp hserver,
      startsWith_of_found hd⟩

/-- The registry without the namespaces of `servers`. -/
def cleared (registry : CapabilityRegistry) (servers : List McpServerConfig) :
    CapabilityRegistry :=
  servers.foldl (fun registry server => (registry.unregisterServer server.name).2) registry

theorem get_cleared (id : CapabilityId) : (cleared registry servers).get id =
    if ∃ server ∈ servers, id.startsWith (mcpNamespace server.name) = true then none
    else registry.get id := by
  induction servers generalizing registry with
  | nil => simp [cleared]
  | cons server servers ih =>
      rw [cleared, List.foldl_cons]
      refine (ih).trans ?_
      rw [CapabilityRegistry.get_unregisterServer]
      by_cases hs : id.startsWith (mcpNamespace server.name) = true <;> simp [hs]

theorem mem_cleared (h : d ∈ (cleared registry servers).descriptors) :
    d ∈ registry.descriptors ∧
      ∀ server ∈ servers, ¬ d.id.startsWith (mcpNamespace server.name) = true := by
  have hget := CapabilityRegistry.get_eq_some_iff.mpr ⟨h, rfl⟩
  rw [get_cleared] at hget
  by_cases hremoved : ∃ server ∈ servers, d.id.startsWith (mcpNamespace server.name) = true
  · rw [if_pos hremoved] at hget
    cases hget
  · rw [if_neg hremoved] at hget
    exact ⟨(CapabilityRegistry.get_eq_some_iff.mp hget).1,
      fun server hserver hstart => hremoved ⟨server, hserver, hstart⟩⟩

end Reconcile

/-! ### The plan -/

section Plan

variable {current : List DesiredServer} {delivered : List McpServerConfig}
  {server : McpServerConfig} {held : DesiredServer}

theorem mem_toRemove : server ∈ (reconcilePlan current delivered).toRemove ↔
    ∃ held ∈ current, (reconcileHeld delivered held).remove = some server := by
  simp [reconcilePlan]

theorem mem_toConnect : server ∈ (reconcilePlan current delivered).toConnect ↔
    (∃ held ∈ current, (reconcileHeld delivered held).connect = some server) ∨
      server ∈ delivered ∧ ∀ held ∈ current, held.name ≠ server.name := by
  simp [reconcilePlan]

theorem mem_desired : held ∈ (reconcilePlan current delivered).desired ↔
    (∃ before ∈ current, (reconcileHeld delivered before).keep = some held) ∨
      ∃ server ∈ delivered, (∀ before ∈ current, before.name ≠ server.name) ∧
        held = .cloud server := by
  rw [desired_reconcilePlan, List.mem_append, List.mem_filterMap, List.mem_map]
  refine or_congr Iff.rfl (exists_congr fun server => ?_)
  rw [List.mem_filter, and_assoc, @eq_comm _ held]
  simp

/-- A held server is removed, or stays in the topology as it is. -/
theorem removed_or_kept (h : held ∈ current) :
    held.server ∈ (reconcilePlan current delivered).toRemove ∨
      ∃ kept ∈ (reconcilePlan current delivered).desired, kept.server = held.server := by
  rw [mem_toRemove]
  rcases reconcileHeld_cases delivered held with ⟨server, hl, hplan⟩ | ⟨hl, hplan⟩ |
    ⟨hl, hcloud, hplan⟩ | ⟨hl, hcloud, hplan⟩
  · exact .inl ⟨held, h, by rw [hplan]⟩
  · exact .inr ⟨.cloud held.server, mem_desired.mpr (.inl ⟨held, h, by rw [hplan]⟩), rfl⟩
  · exact .inl ⟨held, h, by rw [hplan]⟩
  · exact .inr ⟨held, mem_desired.mpr (.inl ⟨held, h, by rw [hplan]⟩), rfl⟩

/-- What is connected was delivered, and is in the topology. -/
theorem desired_of_toConnect (h : server ∈ (reconcilePlan current delivered).toConnect) :
    server ∈ delivered ∧ .cloud server ∈ (reconcilePlan current delivered).desired := by
  rcases mem_toConnect.mp h with ⟨held, hheld, hconnect⟩ | ⟨hdelivered, hnew⟩
  · rcases reconcileHeld_cases delivered held with ⟨server', hl, hplan⟩ | ⟨hl, hplan⟩ |
      ⟨hl, hcloud, hplan⟩ | ⟨hl, hcloud, hplan⟩
    · obtain rfl : server' = server := by simpa [hplan] using hconnect
      exact ⟨Keyed.mem_of_lookup hl, mem_desired.mpr (.inl ⟨held, hheld, by rw [hplan]⟩)⟩
    all_goals simp [hplan] at hconnect
  · exact ⟨hdelivered, mem_desired.mpr (.inr ⟨server, hdelivered, hnew, rfl⟩)⟩

/-- The old server of a name that is connected is removed first. -/
theorem removed_of_toConnect (hcurrent : (current.map DesiredServer.name).Nodup)
    (h : server ∈ (reconcilePlan current delivered).toConnect) (hheld : held ∈ current)
    (hname : held.name = server.name) :
    held.server ∈ (reconcilePlan current delivered).toRemove := by
  rcases mem_toConnect.mp h with ⟨before, hbefore, hconnect⟩ | ⟨-, hnew⟩
  · rcases reconcileHeld_cases delivered before with ⟨server', hl, hplan⟩ | ⟨hl, hplan⟩ |
      ⟨hl, hcloud, hplan⟩ | ⟨hl, hcloud, hplan⟩
    · obtain rfl : server' = server := by simpa [hplan] using hconnect
      have hsame : before.name = held.name := (Keyed.key_of_lookup hl).symm.trans hname.symm
      obtain rfl := List.inj_on_of_nodup_map hcurrent hbefore hheld hsame
      exact mem_toRemove.mpr ⟨before, hbefore, by rw [hplan]⟩
    all_goals simp [hplan] at hconnect
  · exact absurd hname (hnew held hheld)

theorem segment_of_desired
    (hcurrent : ∀ held ∈ current, isCapabilitySegment held.name = true)
    (hdelivered : ∀ server ∈ delivered, isCapabilitySegment server.name = true)
    (h : held ∈ (reconcilePlan current delivered).desired) :
    isCapabilitySegment held.name = true := by
  rcases mem_desired.mp h with ⟨before, hbefore, hkeep⟩ | ⟨server, hserver, -, rfl⟩
  · rw [name_of_keep hkeep]
    exact hcurrent before hbefore
  · exact hdelivered server hserver

end Plan

/-! ### The invariant -/

/-- The names of the topology are distinct segments, and every external tool is in the namespace
of one of them. -/
structure McpState.Matched (state : McpState) : Prop where
  nodup : (state.servers.map DesiredServer.name).Nodup
  segments : ∀ held ∈ state.servers, isCapabilitySegment held.name = true
  owned : ∀ d ∈ state.registry.descriptors, d.id.isMcpCapability = true →
    ∃ held ∈ state.servers, d.id.startsWith (mcpNamespace held.name) = true

namespace McpState.Matched

variable {state : McpState} (hs : state.Matched) (document : ValidServers)
  (connections : Connections)

include hs

theorem pass : (state.lifecyclePass connections).Matched where
  nodup := hs.nodup
  segments := hs.segments
  owned := fun d hd hmcp => by
    rcases mem_register hd with hold | ⟨server, hserver, hstart⟩
    · exact hs.owned d hold hmcp
    · obtain ⟨held, hheld, rfl⟩ := List.mem_map.mp hserver
      exact ⟨held, hheld, hstart⟩

theorem deliver : (state.applyServers document.servers connections).2.Matched where
  nodup := nodup_desired hs.nodup document.nodup_enabledServers
  segments := fun held hheld => segment_of_desired hs.segments
    (fun server hserver => (document.wellFormed (List.mem_of_mem_filter hserver)).1) hheld
  owned := fun d hd hmcp => by
    rcases mem_register hd with hold | ⟨server, hserver, hstart⟩
    · obtain ⟨hbefore, hnot⟩ := mem_cleared hold
      obtain ⟨held, hheld, hstart⟩ := hs.owned d hbefore hmcp
      rcases removed_or_kept hheld with hremoved | ⟨kept, hkept, hsame⟩
      · exact absurd hstart (hnot held.server hremoved)
      · refine ⟨kept, hkept, ?_⟩
        rw [DesiredServer.name, hsame]
        exact hstart
    · exact ⟨.cloud server, (desired_of_toConnect hserver).2, hstart⟩

/-- A server that is connected finds its namespace empty, and fills it with what it discovers. -/
theorem get_deliver {server : McpServerConfig} {id : CapabilityId}
    (hserver : server ∈
      (reconcilePlan state.servers (enabledServers document.servers)).toConnect)
    (hid : id.startsWith (mcpNamespace server.name) = true) :
    (state.applyServers document.servers connections).2.registry.get id =
      lookup CapabilityDescriptor.id (connections.found server) id := by
  set plan := reconcilePlan state.servers (enabledServers document.servers) with hplan
  have hsegment {other : McpServerConfig} (h : other ∈ plan.toConnect) :
      isCapabilitySegment other.name = true :=
    (document.wellFormed (List.mem_of_mem_filter (desired_of_toConnect h).1)).1
  have hempty : (cleared state.registry plan.toRemove).get id = none := by
    refine Option.eq_none_iff_forall_ne_some.mpr fun d hd => ?_
    obtain ⟨hmem, rfl⟩ := CapabilityRegistry.get_eq_some_iff.mp hd
    obtain ⟨hbefore, hnot⟩ := mem_cleared hmem
    obtain ⟨held, hheld, hstart⟩ := hs.owned d hbefore (isMcpCapability_of_startsWith hid)
    have hname : held.name = server.name :=
      server_unique (hs.segments held hheld) (hsegment hserver) hstart hid
    exact hnot held.server (removed_of_toConnect hs.nodup hserver hheld hname) hstart
  have hother : ∀ other ∈ connections.joined plan.toConnect, other ≠ server →
      lookup CapabilityDescriptor.id (connections.found other) id = none := by
    refine fun other hother hne => Keyed.lookup_eq_none_iff.mpr fun d hd heq => hne ?_
    have hconnect := (connections.joined_perm plan.toConnect).mem_iff.mp hother
    have hname : other.name = server.name := by
      refine server_unique (hsegment hconnect) (hsegment hserver) ?_ hid
      exact heq ▸ startsWith_of_found hd
    exact List.inj_on_of_nodup_map document.nodup_enabledServers
      (desired_of_toConnect hconnect).1 (desired_of_toConnect hserver).1 hname
  have hjoined := (connections.joined_perm plan.toConnect).mem_iff.mpr hserver
  calc (state.applyServers document.servers connections).2.registry.get id
      = ((cleared state.registry plan.toRemove).get id).or
          (lookup CapabilityDescriptor.id
            ((connections.joined plan.toConnect).flatMap connections.found) id) := get_register id
    _ = lookup CapabilityDescriptor.id (connections.found server) id := by
        rw [hempty, Option.none_or, Keyed.lookup_flatMap hjoined hother]

end McpState.Matched

/-! ### Runs -/

open CapabilityId in
/-- `bootstrap_capabilities`. -/
def bootstrapCapabilities : List String :=
  [hostStatusRead, argusHealthRead, argusConfigRead, argusPluginsList,
    hostServiceRestart, hostServiceStop, hostServiceStart, hostProcessSignal,
    containerRestart, hostCgroupFreeze, hostCgroupThaw, hostMemoryReclaim,
    hostJournalVacuum, k8sClusterRead, k8sNodeRead, k8sPodRead,
    k8sDeploymentRead, k8sPodRestart, k8sPodDelete, k8sDeploymentRestart,
    k8sDeploymentRollback, k8sWorkloadScale, k8sNodeCordon, k8sNodeUncordon,
    k8sJobCleanup]

/-- The registry before any server is connected. -/
structure BootstrapRegistry extends CapabilityRegistry where
  bootstrap : ∀ d ∈ descriptors, d.id.asStr ∈ bootstrapCapabilities

theorem BootstrapRegistry.not_mcp (registry : BootstrapRegistry) {d : CapabilityDescriptor}
    (h : d ∈ registry.descriptors) : ¬ d.id.isMcpCapability = true := by
  have hall : ∀ path ∈ bootstrapCapabilities, ¬ "mcp.".toList.isPrefixOf path.toList = true := by
    decide
  exact hall _ (registry.bootstrap d h)

theorem segment_of_startup {file : ValidServers} {persisted : Option ValidServers}
    {held : DesiredServer}
    (h : held ∈ startupTopology file.toMcpConfig (persisted.map ValidServers.toMcpConfig)) :
    isCapabilitySegment held.name = true := by
  have hlookup := Keyed.lookup_of_mem (nodup_startupTopology file persisted) h
  rw [lookup_startupTopology, Option.or_eq_some_iff] at hlookup
  rcases hlookup with hcloud | ⟨-, hfile⟩
  · obtain ⟨server, hkept, rfl⟩ := Option.map_eq_some_iff.mp hcloud
    obtain ⟨document, -, henabled⟩ := keptServer_eq_some_iff.mp hkept
    exact (document.wellFormed (document.mem_of_enabled henabled)).1
  · obtain ⟨server, henabled, rfl⟩ := Option.map_eq_some_iff.mp hfile
    exact (file.wellFormed (file.mem_of_enabled henabled)).1

theorem matched_after (bootstrap : BootstrapRegistry) (file : ValidServers)
    (persisted : Option ValidServers) (connections : Connections) (events : List McpEvent) :
    (McpState.after bootstrap.toCapabilityRegistry file persisted connections events).Matched := by
  refine Machine.invariant (McpState.Matched.pass ⟨?_, ?_, ?_⟩ connections)
    (fun s e hs => ?_) events
  · exact nodup_startupTopology file persisted
  · exact fun held hheld => segment_of_startup hheld
  · exact fun d hd hmcp => absurd hmcp (bootstrap.not_mcp hd)
  · cases e with
    | delivery document connections => exact hs.deliver document connections
    | pass connections => exact hs.pass connections

/-- After every delivery the external tools are those of desired servers, and a server that the
delivery connected has the descriptors it discovered: the first of each id, and what another one
of that id says about risk, approval and timeout is the same. -/
theorem tools_match_topology (bootstrap : BootstrapRegistry) (file : ValidServers)
    (persisted : Option ValidServers) (startup : Connections) (events : List McpEvent)
    (document : ValidServers) (connections : Connections) :
    let before := McpState.after bootstrap.toCapabilityRegistry file persisted startup events
    let after := (before.applyServers document.servers connections).2
    (∀ d ∈ after.registry.descriptors, d.id.isMcpCapability = true →
        ∃ held ∈ after.servers, d.id.startsWith (mcpNamespace held.name) = true) ∧
      ∀ server ∈ (reconcilePlan before.servers (enabledServers document.servers)).toConnect,
        ∀ tools, connections.answer server = .ok tools →
          let discovered := adoptTools server.spec tools server.riskOverrides server.tools
          (∀ id, id.startsWith (mcpNamespace server.name) = true →
            after.registry.get id = discovered.find? fun d => d.id == id) ∧
          ∀ d ∈ discovered, ∃ registered, after.registry.get d.id = some registered ∧
            d = { registered with inputSchema := d.inputSchema } := by
  intro before after
  have hs : before.Matched := matched_after bootstrap file persisted startup events
  refine ⟨(hs.deliver document connections).owned, fun server hserver tools hanswer => ?_⟩
  intro discovered
  have hfound : connections.found server = discovered := by
    rw [Connections.found, Connections.connect, hanswer]
    rfl
  have hget (id : CapabilityId) (hid : id.startsWith (mcpNamespace server.name) = true) :
      after.registry.get id = lookup CapabilityDescriptor.id discovered id := by
    rw [← hfound]
    exact hs.get_deliver document connections hserver hid
  refine ⟨hget, fun d hd => ?_⟩
  have hid : d.id.startsWith (mcpNamespace server.name) = true :=
    @startsWith_of_mem_adoptTools server.spec _ _ _ _ hd
  rw [hget d.id hid]
  cases hl : lookup CapabilityDescriptor.id discovered d.id with
  | none => exact absurd rfl (Keyed.lookup_eq_none_iff.mp hl d hd)
  | some registered =>
      exact ⟨registered, rfl,
        eq_of_adoptTools_id hd (Keyed.mem_of_lookup hl) (Keyed.key_of_lookup hl).symm⟩

/-! ### A tool that is advertised twice -/

/-- The registry has exactly what was discovered in a server's namespace. -/
def ExactlyDiscovered (registry : CapabilityRegistry) (server : McpServerConfig)
    (discovered : List CapabilityDescriptor) : Prop :=
  ∀ d, d ∈ registry.descriptors ∧ d.id.startsWith (mcpNamespace server.name) = true ↔
    d ∈ discovered

/-- The same name with two schemas. -/
def advertisedTwice : List Tool := [⟨"query", []⟩, ⟨"query", [("type", .string "object")]⟩]

def discoveredTwice : List CapabilityDescriptor :=
  adoptTools (metricsServer "/bin/cloud" true).spec advertisedTwice [] none

/-- The first delivery after a start without servers. -/
def firstDelivery : McpState :=
  ((McpState.after .empty .empty none unreachable []).applyServers redeclaration.servers
    (.inOrder fun _ => .ok advertisedTwice)).2

/-- Of a tool that is advertised twice the registry keeps the first descriptor alone. -/
theorem second_descriptor_dropped : ¬ ExactlyDiscovered firstDelivery.registry
    (metricsServer "/bin/cloud" true) discoveredTwice := by
  intro hexact
  let constrained (d : CapabilityDescriptor) : Bool := (d.inputSchema.get "type").isSome
  have hdiscovered : ∃ d ∈ discoveredTwice, constrained d = true := by
    have hany : discoveredTwice.any constrained = true := by decide
    simpa using hany
  obtain ⟨d, hd, hconstrained⟩ := hdiscovered
  have hregistered : firstDelivery.registry.descriptors.all (fun d => !constrained d) = true := by
    decide
  have hnot := List.all_eq_true.mp hregistered d ((hexact d).mpr hd).1
  simp [hconstrained] at hnot

end Argus
