import Argus.Domain.Capability
import Argus.Executor.Privileged
import Argus.Lib.Keyed

/-!
# The MCP server declarations

The servers an operator declares in the file and the servers a delivery declares are written in
one grammar. `validate` refuses a declaration the runtime could not honour, and `mergedOver` lays
a delivered document over the file's section, name by name.
-/

namespace Argus

/-- How the daemon reaches one MCP server. -/
inductive McpTransportConfig
  | stdio (command : String) (args : List String)
  | http (url : String)
  deriving DecidableEq

/-- One per-tool trust override. -/
structure McpToolConfig where
  name : String
  risk : RiskClass
  deriving DecidableEq

/-- One configured MCP server. -/
structure McpServerConfig where
  name : String
  transport : McpTransportConfig
  enabled : Bool
  timeoutSeconds : Nat
  /-- The tool allowlist; absent means every tool the server advertises. -/
  tools : Option (List String)
  overrides : List McpToolConfig
  deriving DecidableEq

/-- The `[mcp]` section, and the content of a delivered servers document. -/
structure McpConfig where
  servers : List McpServerConfig

/-- The servers of a list that are enabled: any other contributes nothing. -/
def enabledServers (servers : List McpServerConfig) : List McpServerConfig :=
  servers.filter McpServerConfig.enabled

/-! ### Validation -/

/-- Whether `name` can stand as one segment of `mcp.<server>.<tool>`. -/
def isCapabilitySegment (name : String) : Bool :=
  !name.toList.contains '.' && (CapabilityId.new ("mcp." ++ name ++ ".probe")).isSome

/-- `url.starts_with(start)`. -/
def urlStartsWith (url start : String) : Bool := start.toList.isPrefixOf url.toList

namespace McpServerConfig

def checkTransport (server : McpServerConfig) : Except String Unit :=
  match server.transport with
  | .stdio command _ =>
      if trim command = "" then
        throw ("server '" ++ server.name ++ "' declares an empty stdio command")
      else pure ()
  | .http url =>
      if !urlStartsWith url "http://" && !urlStartsWith url "https://" then
        throw ("server '" ++ server.name ++ "' http url must start with http:// or https://")
      else pure ()

/-- The first of `names` that is no tool segment is refused; `verb` is what the declaration
does with it. -/
def checkTools (server : McpServerConfig) (verb : String) (names : List String) :
    Except String Unit :=
  match names.find? fun name => !isCapabilitySegment name with
  | some name =>
      throw ("server '" ++ server.name ++ "' " ++ verb ++ " '" ++ name ++
        "', which is not a valid tool segment")
  | none => pure ()

/-- The checks on one server behind its name. -/
def checkEndpoint (server : McpServerConfig) : Except String Unit := do
  server.checkTransport
  server.checkTools "allowlists" (server.tools.getD [])
  server.checkTools "overrides" (server.overrides.map McpToolConfig.name)

end McpServerConfig

/-- The loop of `validate`; `seen` are the names before. -/
def validateServers (seen : List String) : List McpServerConfig → Except String Unit
  | [] => .ok ()
  | server :: servers =>
      if !isCapabilitySegment server.name then
        .error ("server name '" ++ server.name ++
          "' must be a lowercase capability-id segment without dots")
      else if seen.contains server.name then
        .error ("duplicate mcp server name '" ++ server.name ++ "'")
      else
        match server.checkEndpoint with
        | .error reason => .error reason
        | .ok () => validateServers (server.name :: seen) servers

/-- Fails closed on a declaration the runtime could not honour. -/
def McpConfig.validate (config : McpConfig) : Except String Unit :=
  validateServers [] config.servers

/-- A server that passes every check on itself. -/
def McpServerConfig.WellFormed (server : McpServerConfig) : Prop :=
  isCapabilitySegment server.name = true ∧ server.checkEndpoint = .ok ()

theorem validateServers_eq_ok_iff (servers : List McpServerConfig) (seen : List String) :
    validateServers seen servers = .ok () ↔
      (∀ server ∈ servers, server.WellFormed ∧ server.name ∉ seen) ∧
        (servers.map McpServerConfig.name).Nodup := by
  induction servers generalizing seen with
  | nil => simp [validateServers]
  | cons server servers ih =>
      rw [List.forall_mem_cons, List.map_cons, List.nodup_cons]
      unfold validateServers
      by_cases hname : isCapabilitySegment server.name = true
      · by_cases hseen : server.name ∈ seen
        · simp [hname, hseen]
        · cases hend : server.checkEndpoint with
          | error reason => simp [hname, hseen, hend, McpServerConfig.WellFormed]
          | ok u =>
              have hwell : server.WellFormed := ⟨hname, hend⟩
              simp only [hname, Bool.not_true, Bool.false_eq_true, if_false, List.contains_eq_mem,
                hseen, decide_false, ih, List.mem_cons, not_or]
              constructor
              · intro h
                obtain ⟨hall, hnodup⟩ := h
                refine ⟨⟨⟨hwell, not_false⟩, fun other ho =>
                  ⟨(hall other ho).1, (hall other ho).2.2⟩⟩, fun hmem => ?_, hnodup⟩
                obtain ⟨other, ho, heq⟩ := List.mem_map.mp hmem
                exact (hall other ho).2.1 heq
              · intro h
                obtain ⟨⟨-, hall⟩, hfresh, hnodup⟩ := h
                refine ⟨fun other ho =>
                  ⟨(hall other ho).1, fun heq => ?_, (hall other ho).2⟩, hnodup⟩
                exact hfresh (heq ▸ List.mem_map_of_mem ho)
      · simp [hname, McpServerConfig.WellFormed]

theorem McpConfig.validate_eq_ok_iff (config : McpConfig) :
    config.validate = .ok () ↔ (∀ server ∈ config.servers, server.WellFormed) ∧
      (config.servers.map McpServerConfig.name).Nodup := by
  simp [McpConfig.validate, validateServers_eq_ok_iff]

/-! ### Merging -/

/-- The delivered server of the file server's name, or the file server. -/
def McpConfig.supersede (delivered : McpConfig) (fileServer : McpServerConfig) :
    McpServerConfig :=
  (delivered.servers.find? fun server => server.name == fileServer.name).getD fileServer

/-- Lays a delivered document over the file's section: a delivered server replaces the file's
of the same name, and the other delivered servers are appended. -/
def McpConfig.mergedOver (file delivered : McpConfig) : McpConfig where
  servers := Keyed.adopt McpServerConfig.name (file.servers.map delivered.supersede)
    delivered.servers

@[simp] theorem McpConfig.name_supersede (delivered : McpConfig) (fileServer : McpServerConfig) :
    (delivered.supersede fileServer).name = fileServer.name := by
  unfold McpConfig.supersede
  cases hf : delivered.servers.find? fun server => server.name == fileServer.name with
  | none => rfl
  | some server => exact Keyed.key_of_lookup hf

/-- A name reads the delivered server, and the file's where none is delivered. -/
theorem McpConfig.lookup_mergedOver (file delivered : McpConfig) (name : String) :
    Keyed.lookup McpServerConfig.name (file.mergedOver delivered).servers name =
      (Keyed.lookup McpServerConfig.name delivered.servers name).or
        (Keyed.lookup McpServerConfig.name file.servers name) := by
  rw [McpConfig.mergedOver, Keyed.lookup_adopt, Keyed.lookup_map delivered.name_supersede]
  cases hf : Keyed.lookup McpServerConfig.name file.servers name with
  | none => simp
  | some fileServer =>
      obtain rfl := Keyed.key_of_lookup hf
      show (some ((Keyed.lookup McpServerConfig.name delivered.servers fileServer.name).getD
        fileServer)).or _ = _
      cases Keyed.lookup McpServerConfig.name delivered.servers fileServer.name <;> rfl

theorem McpConfig.nodup_mergedOver {file : McpConfig}
    (h : (file.servers.map McpServerConfig.name).Nodup) (delivered : McpConfig) :
    ((file.mergedOver delivered).servers.map McpServerConfig.name).Nodup := by
  refine Keyed.nodup_adopt ?_
  simpa [Function.comp_def] using h

/-- A section or a document that passed `validate`. -/
structure ValidServers extends McpConfig where
  valid : toMcpConfig.validate = .ok ()

namespace ValidServers

/-- A section that declares nothing. -/
def empty : ValidServers := ⟨⟨[]⟩, rfl⟩

theorem wellFormed (config : ValidServers) {server : McpServerConfig}
    (h : server ∈ config.servers) : server.WellFormed :=
  (config.validate_eq_ok_iff.mp config.valid).1 server h

theorem nodup (config : ValidServers) : (config.servers.map McpServerConfig.name).Nodup :=
  (config.validate_eq_ok_iff.mp config.valid).2

/-- The server of a name. -/
def named (config : ValidServers) (name : String) : Option McpServerConfig :=
  Keyed.lookup McpServerConfig.name config.servers name

/-- The enabled server of a name. -/
def enabled (config : ValidServers) (name : String) : Option McpServerConfig :=
  (config.named name).filter McpServerConfig.enabled

theorem lookup_enabledServers (config : ValidServers) (name : String) :
    Keyed.lookup McpServerConfig.name (enabledServers config.servers) name = config.enabled name :=
  Keyed.lookup_filter config.nodup name

theorem mem_of_enabled (config : ValidServers) {name : String} {server : McpServerConfig}
    (h : config.enabled name = some server) : server ∈ config.servers :=
  Keyed.mem_of_lookup (Option.filter_eq_some_iff.mp h).1

theorem nodup_enabledServers (config : ValidServers) :
    ((enabledServers config.servers).map McpServerConfig.name).Nodup :=
  config.nodup.sublist (List.filter_sublist.map _)

/-- A valid document over a valid section is valid: the startup path always takes it. -/
theorem validate_mergedOver (file delivered : ValidServers) :
    (file.mergedOver delivered.toMcpConfig).validate = .ok () := by
  have hnodup := McpConfig.nodup_mergedOver file.nodup delivered.toMcpConfig
  refine (McpConfig.validate_eq_ok_iff _).mpr ⟨fun server hserver => ?_, hnodup⟩
  have hl := Keyed.lookup_of_mem hnodup hserver
  rw [McpConfig.lookup_mergedOver, Option.or_eq_some_iff] at hl
  rcases hl with hd | ⟨-, hf⟩
  · exact delivered.wellFormed (Keyed.mem_of_lookup hd)
  · exact file.wellFormed (Keyed.mem_of_lookup hf)

end ValidServers

end Argus
