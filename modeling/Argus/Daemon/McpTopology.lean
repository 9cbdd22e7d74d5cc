import Argus.Daemon.McpWiring
import Argus.Lib.Machine

/-!
# The topology live and after a restart

What a name reads in the live topology depends on the last delivery and on whether an earlier
one declared the name: the file's server shows only where none did. The startup path and the
merge look at the last delivery alone, and the merge also at what that delivery disables.
-/

namespace Argus

open Keyed (lookup)

/-! ### What a name reads after one reconcile -/

section Reconcile

variable {current : List DesiredServer} {delivered : List McpServerConfig}

theorem lookup_map_cloud (servers : List McpServerConfig) (name : String) :
    lookup DesiredServer.name (servers.map .cloud) name =
      (lookup McpServerConfig.name servers name).map .cloud :=
  Keyed.lookup_map fun _ => rfl

theorem lookup_map_file (servers : List McpServerConfig) (name : String) :
    lookup DesiredServer.name (servers.map .file) name =
      (lookup McpServerConfig.name servers name).map .file :=
  Keyed.lookup_map fun _ => rfl

/-- The held servers that a delivery leaves to the file. -/
def stays (held : DesiredServer) : Bool := !held.fromCloud

theorem reconcileHeld_keep (delivered : List McpServerConfig) (held : DesiredServer) :
    (reconcileHeld delivered held).keep =
      ((lookup McpServerConfig.name delivered held.name).map .cloud).or
        (if stays held then some held else none) := by
  rcases reconcileHeld_cases delivered held with ⟨server, hl, hplan⟩ | ⟨hl, hplan⟩ |
    ⟨hl, hcloud, hplan⟩ | ⟨hl, hcloud, hplan⟩
  · simp [hl, hplan]
  · simp [hl, hplan]
  · simp [hl, hplan, stays, hcloud]
  · simp [hl, hplan, stays, hcloud]

theorem name_of_keep {held kept : DesiredServer}
    (h : (reconcileHeld delivered held).keep = some kept) : kept.name = held.name := by
  rw [reconcileHeld_keep] at h
  cases hl : lookup McpServerConfig.name delivered held.name with
  | none =>
      rw [hl] at h
      cases hs : stays held <;> simp_all
  | some server =>
      rw [hl] at h
      obtain rfl : DesiredServer.cloud server = kept := by simpa using h
      have hname : server.name = held.name := Keyed.key_of_lookup hl
      exact hname

theorem desired_reconcilePlan (current : List DesiredServer)
    (delivered : List McpServerConfig) : (reconcilePlan current delivered).desired =
      current.filterMap (fun held => (reconcileHeld delivered held).keep) ++
        (delivered.filter fun server => !current.any fun held => held.name == server.name).map
          DesiredServer.cloud := by
  simp only [reconcilePlan, List.filterMap_map]
  rfl

/-- A name reads the delivered server; where none is delivered, the file's server stays and the
cloud's goes. -/
theorem lookup_desired (hcurrent : (current.map DesiredServer.name).Nodup)
    (hdelivered : (delivered.map McpServerConfig.name).Nodup) (name : String) :
    lookup DesiredServer.name (reconcilePlan current delivered).desired name =
      ((lookup McpServerConfig.name delivered name).map .cloud).or
        ((lookup DesiredServer.name current name).filter stays) := by
  have hkept : lookup DesiredServer.name
      (current.filterMap fun held => (reconcileHeld delivered held).keep) name =
        (lookup DesiredServer.name current name).bind fun held =>
          (reconcileHeld delivered held).keep :=
    Keyed.lookup_filterMap (fun _ _ h => name_of_keep h) hcurrent name
  rw [desired_reconcilePlan, Keyed.lookup_append, hkept, lookup_map_cloud,
    Keyed.lookup_filter hdelivered]
  cases hc : lookup DesiredServer.name current name with
  | some held =>
      obtain rfl : held.name = name := Keyed.key_of_lookup hc
      rw [Option.bind_some, reconcileHeld_keep]
      cases hd : lookup McpServerConfig.name delivered held.name with
      | some server => simp
      | none => cases hs : stays held <;> simp [Option.filter, hs]
  | none =>
      cases hd : lookup McpServerConfig.name delivered name with
      | none => simp
      | some server =>
          obtain rfl : server.name = name := Keyed.key_of_lookup hd
          have hnew : (current.any fun held => held.name == server.name) = false := by
            rw [Bool.eq_false_iff]
            exact fun h => Keyed.any_key_iff.mp h hc
          simp [Option.filter, hnew]

theorem nodup_desired (hcurrent : (current.map DesiredServer.name).Nodup)
    (hdelivered : (delivered.map McpServerConfig.name).Nodup) :
    ((reconcilePlan current delivered).desired.map DesiredServer.name).Nodup := by
  rw [desired_reconcilePlan, List.map_append, List.nodup_append]
  refine ⟨Keyed.nodup_filterMap (fun _ _ h => name_of_keep h) hcurrent, ?_, ?_⟩
  · rw [List.map_map]
    exact hdelivered.sublist (List.filter_sublist.map _)
  · intro a ha b hb
    obtain ⟨kept, hkept, rfl⟩ := List.mem_map.mp ha
    obtain ⟨held, hheld, hk⟩ := List.mem_filterMap.mp hkept
    rw [List.map_map] at hb
    obtain ⟨server, hserver, rfl⟩ := List.mem_map.mp hb
    have hnew : ∀ held ∈ current, held.name ≠ server.name := by
      simpa using (List.mem_filter.mp hserver).2
    exact fun heq => hnew held hheld ((name_of_keep hk).symm.trans heq)

end Reconcile

/-! ### The startup path -/

/-- The last delivery, which is the one the daemon keeps. -/
theorem startupTopology_eq (file : ValidServers) (persisted : Option ValidServers) :
    startupTopology file.toMcpConfig (persisted.map ValidServers.toMcpConfig) =
      injected (enabledServers file.servers)
        ((persisted.map fun document => enabledServers document.servers).getD []) := by
  cases persisted with
  | none => rfl
  | some document =>
      simp only [startupTopology, Option.map_some, Option.filter,
        ValidServers.validate_mergedOver, if_true, Option.getD_some]

/-- The server of a name in the document the daemon keeps, enabled or not. -/
def lastNamed (last : Option ValidServers) (name : String) : Option McpServerConfig :=
  last.bind fun document => document.named name

/-- The enabled server of a name in the document the daemon keeps. -/
def keptServer (last : Option ValidServers) (name : String) : Option McpServerConfig :=
  (lastNamed last name).filter McpServerConfig.enabled

@[simp] theorem keptServer_none (name : String) : keptServer none name = none := rfl

@[simp] theorem keptServer_some (document : ValidServers) (name : String) :
    keptServer (some document) name = document.enabled name := rfl

theorem keptServer_eq_some_iff {last : Option ValidServers} {name : String}
    {server : McpServerConfig} : keptServer last name = some server ↔
      ∃ document, last = some document ∧ document.enabled name = some server := by
  cases last <;> simp

theorem lookup_startupTopology (file : ValidServers) (persisted : Option ValidServers)
    (name : String) :
    lookup DesiredServer.name
        (startupTopology file.toMcpConfig (persisted.map ValidServers.toMcpConfig)) name =
      ((keptServer persisted name).map .cloud).or ((file.enabled name).map .file) := by
  rw [startupTopology_eq, injected, Keyed.lookup_overlay, lookup_map_cloud, lookup_map_file,
    file.lookup_enabledServers]
  · cases persisted with
    | none => rfl
    | some document =>
        rw [Option.map_some, Option.getD_some, document.lookup_enabledServers]
        rfl
  · cases persisted with
    | none => exact List.nodup_nil
    | some document =>
        simpa [Function.comp_def, DesiredServer.name] using document.nodup_enabledServers

theorem nodup_startupTopology (file : ValidServers) (persisted : Option ValidServers) :
    ((startupTopology file.toMcpConfig (persisted.map ValidServers.toMcpConfig)).map
      DesiredServer.name).Nodup := by
  rw [startupTopology_eq]
  refine Keyed.nodup_overlay ?_
  simpa [Function.comp_def, DesiredServer.name] using file.nodup_enabledServers

/-- The enabled servers of the file's section merged with the document the daemon keeps. -/
def mergedTopology (file : ValidServers) (persisted : Option ValidServers) :
    List McpServerConfig :=
  match persisted with
  | some document => enabledServers (file.mergedOver document.toMcpConfig).servers
  | none => enabledServers file.servers

theorem lookup_mergedTopology (file : ValidServers) (persisted : Option ValidServers)
    (name : String) : lookup McpServerConfig.name (mergedTopology file persisted) name =
      ((lastNamed persisted name).or (file.named name)).filter McpServerConfig.enabled := by
  cases persisted with
  | none => exact file.lookup_enabledServers name
  | some document =>
      have hnodup := McpConfig.nodup_mergedOver file.nodup document.toMcpConfig
      exact (Keyed.lookup_filter hnodup name).trans
        (congrArg _ (McpConfig.lookup_mergedOver file.toMcpConfig document.toMcpConfig name))

theorem nodup_mergedTopology (file : ValidServers) (persisted : Option ValidServers) :
    ((mergedTopology file persisted).map McpServerConfig.name).Nodup := by
  cases persisted with
  | none => exact file.nodup_enabledServers
  | some document =>
      exact (McpConfig.nodup_mergedOver file.nodup document.toMcpConfig).sublist
        (List.filter_sublist.map _)

/-! ### Runs -/

def McpEvent.document : McpEvent → Option ValidServers
  | .delivery document _ => some document
  | .pass _ => none

/-- The documents in effect so far: the one the daemon started with, and the deliveries. -/
def documents (persisted : Option ValidServers) (events : List McpEvent) : List ValidServers :=
  persisted.toList ++ events.filterMap McpEvent.document

/-- The file's server of a name, where no document has declared the name. -/
def fileShows (file : ValidServers) (documents : List ValidServers) (name : String) :
    Option DesiredServer :=
  if ∀ document ∈ documents, document.enabled name = none then (file.enabled name).map .file
  else none

/-- What a live topology reads after `documents`. -/
structure Live (file : ValidServers) (documents : List ValidServers)
    (servers : List DesiredServer) : Prop where
  nodup : (servers.map DesiredServer.name).Nodup
  reads : ∀ name, lookup DesiredServer.name servers name =
    ((keptServer documents.getLast? name).map .cloud).or (fileShows file documents name)

theorem fileShows_append (file : ValidServers) (documents : List ValidServers)
    (document : ValidServers) (name : String) (h : document.enabled name = none) :
    fileShows file (documents ++ [document]) name = fileShows file documents name := by
  simp [fileShows, or_imp, forall_and, h]

/-- Behind the last document only the file's own servers stay. -/
theorem Live.filter_stays {file : ValidServers} {documents : List ValidServers}
    {servers : List DesiredServer} (h : Live file documents servers) (name : String) :
    (lookup DesiredServer.name servers name).filter stays = fileShows file documents name := by
  rw [h.reads]
  cases hk : keptServer documents.getLast? name with
  | some server =>
      obtain ⟨document, hlast, henabled⟩ := keptServer_eq_some_iff.mp hk
      have hshadow : ¬ ∀ document ∈ documents, document.enabled name = none := fun hall => by
        rw [hall document (List.mem_of_getLast? hlast)] at henabled
        cases henabled
      rw [fileShows, if_neg hshadow]
      rfl
  | none =>
      unfold fileShows
      split
      · cases file.enabled name <;> rfl
      · rfl

theorem Live.deliver {file : ValidServers} {documents : List ValidServers}
    {servers : List DesiredServer} (h : Live file documents servers) (document : ValidServers) :
    Live file (documents ++ [document])
      (reconcilePlan servers (enabledServers document.servers)).desired where
  nodup := nodup_desired h.nodup document.nodup_enabledServers
  reads := fun name => by
    rw [lookup_desired h.nodup document.nodup_enabledServers, h.filter_stays,
      document.lookup_enabledServers, List.getLast?_concat]
    rw [keptServer_some]
    cases hd : document.enabled name with
    | some server => rfl
    | none => rw [fileShows_append file documents document name hd]

theorem Live.start (bootstrap : CapabilityRegistry) (file : ValidServers)
    (persisted : Option ValidServers) (connections : Connections) :
    Live file persisted.toList (McpState.start bootstrap file.toMcpConfig
      (persisted.map ValidServers.toMcpConfig) connections).servers where
  nodup := nodup_startupTopology file persisted
  reads := fun name => by
    refine (lookup_startupTopology file persisted name).trans ?_
    cases persisted with
    | none => simp [fileShows]
    | some document => cases hd : document.enabled name <;> simp [fileShows, hd]

/-- The state after a start and a run. -/
def McpState.after (bootstrap : CapabilityRegistry) (file : ValidServers)
    (persisted : Option ValidServers) (connections : Connections) (events : List McpEvent) :
    McpState :=
  Machine.run McpState.step
    (McpState.start bootstrap file.toMcpConfig (persisted.map ValidServers.toMcpConfig) connections)
    events

section After

variable (bootstrap : CapabilityRegistry) (file : ValidServers)
  (persisted : Option ValidServers) (connections : Connections) (events : List McpEvent)

theorem after_concat (event : McpEvent) :
    McpState.after bootstrap file persisted connections (events ++ [event]) =
      (McpState.after bootstrap file persisted connections events).step event :=
  Machine.run_append

theorem documents_delivery (document : ValidServers) :
    documents persisted (events ++ [.delivery document connections]) =
      documents persisted events ++ [document] := by
  simp [documents, McpEvent.document]

theorem documents_pass :
    documents persisted (events ++ [.pass connections]) = documents persisted events := by
  simp [documents, McpEvent.document]

theorem live_after : Live file (documents persisted events)
    (McpState.after bootstrap file persisted connections events).servers := by
  induction events using List.reverseRecOn with
  | nil =>
      have hdocuments : documents persisted [] = persisted.toList := List.append_nil _
      rw [hdocuments]
      exact Live.start bootstrap file persisted connections
  | append_singleton events event ih =>
      rw [after_concat]
      cases event with
      | delivery document answers =>
          rw [documents_delivery]
          exact ih.deliver document
      | pass answers =>
          rw [documents_pass]
          exact ih

end After

/-! ### The three topologies -/

/-- The live topology is the merge of the file's section and the last document, and so is what a
restart makes of them. -/
structure TopologyAgrees (file : ValidServers) (last : Option ValidServers)
    (live : List DesiredServer) : Prop where
  merged : (live.map DesiredServer.server).Perm (mergedTopology file last)
  restarted : ((startupTopology file.toMcpConfig (last.map ValidServers.toMcpConfig)).map
    DesiredServer.server).Perm (mergedTopology file last)

/-- Every enabled server of the file is enabled by the last document; or the last document does
not name it, and no document has enabled it before. -/
def FileServersStay (file : ValidServers) (documents : List ValidServers) : Prop :=
  ∀ server ∈ enabledServers file.servers,
    (keptServer documents.getLast? server.name).isSome ∨
      lastNamed documents.getLast? server.name = none ∧
        ∀ document ∈ documents, document.enabled server.name = none

theorem lookup_map_server (held : List DesiredServer) (name : String) :
    lookup McpServerConfig.name (held.map DesiredServer.server) name =
      (lookup DesiredServer.name held name).map DesiredServer.server :=
  Keyed.lookup_map fun _ => rfl

theorem nodup_map_server {held : List DesiredServer}
    (h : (held.map DesiredServer.name).Nodup) :
    ((held.map DesiredServer.server).map McpServerConfig.name).Nodup := by
  rwa [List.map_map]

/-- What the three topologies read under one name. -/
def Agree (file : ValidServers) (documents : List ValidServers) (name : String) : Prop :=
  let kept := keptServer documents.getLast? name
  let merged := ((lastNamed documents.getLast? name).or (file.named name)).filter
    McpServerConfig.enabled
  kept.or ((fileShows file documents name).map DesiredServer.server) = merged ∧
    kept.or (file.enabled name) = merged

theorem topologyAgrees_iff_agree {file : ValidServers} {documents : List ValidServers}
    {live : List DesiredServer} (h : Live file documents live) :
    TopologyAgrees file documents.getLast? live ↔ ∀ name, Agree file documents name := by
  have hmerged := nodup_mergedTopology file documents.getLast?
  have hstart := nodup_startupTopology file documents.getLast?
  have hlive (name : String) : lookup McpServerConfig.name (live.map DesiredServer.server) name =
      (keptServer documents.getLast? name).or
        ((fileShows file documents name).map DesiredServer.server) := by
    rw [lookup_map_server, h.reads, Option.map_or, Option.map_map]
    simp [Function.comp_def]
  have hrestarted (name : String) : lookup McpServerConfig.name
      ((startupTopology file.toMcpConfig (documents.getLast?.map ValidServers.toMcpConfig)).map
        DesiredServer.server) name =
        (keptServer documents.getLast? name).or (file.enabled name) := by
    rw [lookup_map_server, lookup_startupTopology, Option.map_or, Option.map_map, Option.map_map]
    simp [Function.comp_def]
  constructor
  · intro hagrees name
    have hm := Keyed.lookup_of_perm (nodup_map_server h.nodup) hagrees.merged (k := name)
    have hr := Keyed.lookup_of_perm (nodup_map_server hstart) hagrees.restarted (k := name)
    rw [hlive, lookup_mergedTopology] at hm
    rw [hrestarted, lookup_mergedTopology] at hr
    exact ⟨hm, hr⟩
  · intro hagree
    refine ⟨Keyed.perm_of_lookup (nodup_map_server h.nodup) hmerged fun name => ?_,
      Keyed.perm_of_lookup (nodup_map_server hstart) hmerged fun name => ?_⟩
    · rw [hlive, lookup_mergedTopology]
      exact (hagree name).1
    · rw [hrestarted, lookup_mergedTopology]
      exact (hagree name).2

theorem enabled_eq_some_iff (file : ValidServers) (server : McpServerConfig) :
    file.enabled server.name = some server ↔ server ∈ enabledServers file.servers := by
  rw [← file.lookup_enabledServers, Keyed.lookup_eq_some_iff file.nodup_enabledServers]
  simp

theorem agree_iff (file : ValidServers) (documents : List ValidServers) :
    (∀ name, Agree file documents name) ↔ FileServersStay file documents := by
  unfold Agree FileServersStay keptServer
  constructor
  · intro hagree server hserver
    obtain ⟨hlive, hrestarted⟩ := hagree server.name
    rw [(enabled_eq_some_iff file server).mpr hserver] at hrestarted
    cases hn : lastNamed documents.getLast? server.name with
    | some named =>
        -- The last document names the server: the merge shows nothing else.
        rw [hn] at hrestarted
        cases hon : named.enabled with
        | true => exact .inl (by simp [Option.filter, hon])
        | false => simp [Option.filter, hon] at hrestarted
    | none =>
        refine .inr ⟨rfl, ?_⟩
        by_contra hshadow
        rw [hn] at hlive hrestarted
        rw [fileShows, if_neg hshadow, ← hrestarted] at hlive
        cases hlive
  · intro hstay name
    have hfile (server : McpServerConfig) (h : file.enabled name = some server) :
        server ∈ enabledServers file.servers ∧ server.name = name := by
      rw [← file.lookup_enabledServers, Keyed.lookup_eq_some_iff file.nodup_enabledServers] at h
      exact h
    cases hn : lastNamed documents.getLast? name with
    | some named =>
        cases hon : named.enabled with
        | true => simp [Option.filter, hon]
        | false =>
            -- A disabled declaration hides the name from the merge, so the file must not have it.
            have hnone : file.enabled name = none := by
              refine Option.eq_none_iff_forall_ne_some.mpr fun server hserver => ?_
              obtain ⟨hmem, rfl⟩ := hfile server hserver
              rcases hstay server hmem with hkept | ⟨hunnamed, -⟩
              · simp [hn, Option.filter, hon] at hkept
              · rw [hn] at hunnamed
                cases hunnamed
            simp [fileShows, hnone, Option.filter, hon]
    | none =>
        suffices hshows : (fileShows file documents name).map DesiredServer.server =
            file.enabled name by
          exact ⟨hshows, rfl⟩
        unfold fileShows
        cases hf : file.enabled name with
        | none => simp
        | some server =>
            obtain ⟨hmem, rfl⟩ := hfile server hf
            rcases hstay server hmem with hkept | ⟨-, hall⟩
            · simp [hn] at hkept
            · simp [if_pos hall]

/-- The topology is the same live and after a restart exactly where the last document leaves the
file's servers as they are, or enables them. -/
theorem topology_agrees_iff (bootstrap : CapabilityRegistry) (file : ValidServers)
    (persisted : Option ValidServers) (connections : Connections) (events : List McpEvent) :
    TopologyAgrees file (documents persisted events).getLast?
        (McpState.after bootstrap file persisted connections events).servers ↔
      FileServersStay file (documents persisted events) :=
  (topologyAgrees_iff_agree (live_after bootstrap file persisted connections events)).trans
    (agree_iff file (documents persisted events))

/-! ### Where they differ -/

def metricsServer (command : String) (enabled : Bool) : McpServerConfig where
  name := "metrics"
  transport := .stdio command []
  enabled := enabled
  timeoutSeconds := 30
  tools := none
  overrides := []

/-- The operator's file declares one server. -/
def fileSection : ValidServers := ⟨⟨[metricsServer "/bin/file" true]⟩, by decide⟩

/-- A delivery takes the name over. -/
def redeclaration : ValidServers := ⟨⟨[metricsServer "/bin/cloud" true]⟩, by decide⟩

/-- A delivery declares the name disabled. -/
def disablement : ValidServers := ⟨⟨[metricsServer "/bin/cloud" false]⟩, by decide⟩

/-- No server answers. -/
def unreachable : Connections := .inOrder fun _ => .error "unreachable"

def liveAfter (deliveries : List ValidServers) : List DesiredServer :=
  (McpState.after .empty fileSection none unreachable
    (deliveries.map fun document => .delivery document unreachable)).servers

/-- The file's server that a delivery took over and the next one omits is gone live, and back
after a restart; one that a delivery disables runs on, although the merge has it disabled. -/
theorem topology_flips :
    ¬ TopologyAgrees fileSection (some .empty) (liveAfter [redeclaration, .empty]) ∧
      ¬ TopologyAgrees fileSection (some disablement) (liveAfter [disablement]) := by
  refine ⟨fun h => ?_, fun h => ?_⟩
  · exact absurd h.merged.length_eq (by decide)
  · exact absurd h.merged.length_eq (by decide)

end Argus
