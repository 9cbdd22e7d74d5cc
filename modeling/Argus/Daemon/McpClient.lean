import Argus.Daemon.McpRegistry

/-!
# The MCP client runtime

One runtime holds a slot for each server, with the connection and the tools of its last
discovery, and one table of adopted descriptors. A disconnected server keeps its slot and its
descriptors: its tools fail typed until it returns. `invoke` asks the table, the schema, the slot
and the connection's own tools, in that order.

What a server answers to a listing is an argument of the step that asks it. The evidence made of
a tool's answer is left out.
-/

namespace Argus

/-- Errors from the MCP client runtime. -/
inductive McpError
  | notConnected (server : String)
  | unknownTool (server tool : String)
  | timeout (server tool : String) (timeoutSecs : Nat)
  | connectTimeout (server : String) (timeoutSecs : Nat)
  | transport (message : String)
  | tool (server tool message : String)
  | invalidArguments (id : String)
  | invalidCapabilityId (id : String)

/-! ### Capability ids -/

/-- Splits `mcp.<server>.<tool>`, where server and tool are both single segments. -/
def splitCapability (id : String) : Option (String × String) :=
  if "mcp.".toList.isPrefixOf id.toList then
    let rest := id.toList.drop "mcp.".toList.length
    match rest.dropWhile (· ≠ '.') with
    | [] => none
    | _ :: tool =>
        let server := rest.takeWhile (· ≠ '.')
        if tool.contains '.' || tool.isEmpty || server.isEmpty then none
        else some (String.ofList server, String.ofList tool)
  else none

def toolOf (id : CapabilityId) : String := ((splitCapability id.asStr).map Prod.snd).getD ""

/-- An id splits back to the segments it was built from. -/
theorem splitCapability_mcpNamespace {server tool : String} (hserver : server ≠ "")
    (hdot : '.' ∉ server.toList) (htool : tool ≠ "") (hdot' : '.' ∉ tool.toList) :
    splitCapability (mcpNamespace server ++ tool) = some (server, tool) := by
  have hlist : (mcpNamespace server ++ tool).toList =
      "mcp.".toList ++ (server.toList ++ ['.'] ++ tool.toList) := by
    rw [String.toList_append, toList_mcpNamespace]
    simp only [List.append_assoc]
  have hdrop : (server.toList ++ ['.'] ++ tool.toList).dropWhile (· ≠ '.') =
      '.' :: tool.toList := by
    rw [List.append_assoc, List.dropWhile_append_of_pos]
    · simp
    · exact fun c hc => by simpa using fun heq : c = '.' => hdot (heq ▸ hc)
  unfold splitCapability
  rw [hlist, if_pos (List.isPrefixOf_iff_prefix.mpr (List.prefix_append _ _)), List.drop_left]
  simp only [hdrop, takeWhile_dot hdot]
  simp [hdot', String.toList_eq_nil_iff, hserver, htool]

/-- A server's name, as the configuration validates it. -/
theorem ne_empty_of_segment {name : String} (h : isCapabilitySegment name = true) :
    name ≠ "" := by
  rintro rfl
  revert h
  decide

/-! ### The runtime -/

/-- A live connection to one server: the tools of its last successful discovery, and its
timeout. -/
structure ServerConnection where
  tools : List String
  timeout : Nat

/-- One server's slot: the connection, or its absence. -/
structure ServerSlot where
  server : String
  connection : Option ServerConnection

/-- `McpClientRuntime`: the slots, and every adopted descriptor. -/
structure McpClientRuntime where
  servers : List ServerSlot
  registered : List CapabilityDescriptor
  keyed : (registered.map CapabilityDescriptor.id).Nodup

/-- A call of a tool, as it goes over the wire. -/
structure ToolCall where
  server : String
  tool : String
  arguments : List (String × Value)
  timeout : Nat

namespace McpClientRuntime

def new : McpClientRuntime := ⟨[], [], List.nodup_nil⟩

/-- The connection of a server's slot, where there is a slot and it has one. -/
def connection (runtime : McpClientRuntime) (server : String) : Option ServerConnection :=
  (Keyed.lookup ServerSlot.server runtime.servers server).bind ServerSlot.connection

def hasConnection (runtime : McpClientRuntime) (server : String) : Bool :=
  (runtime.connection server).isSome

/-- `registered.get(id)`. -/
def get (runtime : McpClientRuntime) (id : CapabilityId) : Option CapabilityDescriptor :=
  Keyed.lookup CapabilityDescriptor.id runtime.registered id

/-- `register` of one descriptor after another: one that is known is refreshed in place. -/
def register (runtime : McpClientRuntime) (descriptors : List CapabilityDescriptor) :
    McpClientRuntime :=
  { runtime with
    registered := Keyed.overlay CapabilityDescriptor.id runtime.registered descriptors
    keyed := Keyed.nodup_overlay runtime.keyed }

/-- Puts a connection, or its absence, into a server's slot. -/
def setSlot (runtime : McpClientRuntime) (server : String)
    (connection : Option ServerConnection) : McpClientRuntime :=
  { runtime with servers := Keyed.upsert ServerSlot.server ⟨server, connection⟩ runtime.servers }

/-- `connect`: what is discovered is adopted, and the connection replaces the one before. -/
def connect (runtime : McpClientRuntime) (spec : ServerSpec) (overrides : List McpToolConfig)
    (allow : Option (List String)) (listed : Except McpError (List Tool)) :
    Except McpError (List CapabilityDescriptor) × McpClientRuntime :=
  match listed with
  | .error error => (.error error, runtime)
  | .ok tools =>
      let descriptors := adoptTools spec tools overrides allow
      (.ok descriptors, (runtime.register descriptors).setSlot spec.name
        (some ⟨descriptors.map fun d => toolOf d.id, spec.timeoutSecs⟩))

/-- `refresh`: the lifecycle's probe of a connected server. -/
def refresh (runtime : McpClientRuntime) (server : String) (overrides : List McpToolConfig)
    (allow : Option (List String)) (listed : Except McpError (List Tool)) :
    Except McpError (List CapabilityDescriptor) × McpClientRuntime :=
  match runtime.connection server with
  | none => (.error (.notConnected server), runtime)
  | some connection =>
      match listed with
      | .error error => (.error error, runtime)
      | .ok tools =>
          let spec : ServerSpec := ⟨server, connection.timeout⟩
          let descriptors := adoptTools spec tools overrides allow
          (.ok descriptors, (runtime.setSlot server
            (some { connection with tools := descriptors.map fun d => toolOf d.id })).register
              descriptors)

/-- Drops a server's connection; its slot and its descriptors stay. -/
def disconnect (runtime : McpClientRuntime) (server : String) : McpClientRuntime :=
  if (Keyed.lookup ServerSlot.server runtime.servers server).isSome then
    runtime.setSlot server none
  else runtime

/-- Forgets every capability of the named server, and returns the removed ids. -/
def unregisterServer (runtime : McpClientRuntime) (server : String) :
    List CapabilityId × McpClientRuntime :=
  let ofServer (d : CapabilityDescriptor) := d.id.startsWith (mcpNamespace server)
  ((runtime.registered.filter ofServer).map CapabilityDescriptor.id,
    { runtime with
      registered := runtime.registered.filter fun d => !ofServer d
      keyed := runtime.keyed.sublist (List.filter_sublist.map _) })

/-- The checks of `invoke`, and the call that passes them. -/
def gate (runtime : McpClientRuntime) (capability : CapabilityId) (arguments : Value) :
    Except McpError ToolCall :=
  match splitCapability capability.asStr with
  | none => .error (.invalidCapabilityId capability.asStr)
  | some (server, tool) =>
      match runtime.get capability with
      | none => .error (.unknownTool server tool)
      | some descriptor =>
          match arguments.asObject with
          | none => .error (.invalidArguments capability.asStr)
          | some argumentMap =>
              if !inputMatches descriptor.inputSchema arguments then
                .error (.invalidArguments capability.asStr)
              else
                match runtime.connection server with
                | none => .error (.notConnected server)
                | some connection =>
                    if !connection.tools.contains tool then .error (.unknownTool server tool)
                    else .ok ⟨server, tool, argumentMap, connection.timeout⟩

/-- `invoke`, with the call it sends, if it sends one. -/
def invoke (runtime : McpClientRuntime) (answer : ToolCall → Except McpError Value)
    (capability : CapabilityId) (arguments : Value) :
    Option ToolCall × Except McpError Value :=
  match runtime.gate capability arguments with
  | .error error => (none, .error error)
  | .ok call => (some call, answer call)

/-! ### What the calls read and write -/

section Tables

variable (runtime : McpClientRuntime) (server other : String)

@[simp] theorem connection_register (descriptors : List CapabilityDescriptor) :
    (runtime.register descriptors).connection server = runtime.connection server := rfl

@[simp] theorem connection_unregisterServer :
    (runtime.unregisterServer other).2.connection server = runtime.connection server := rfl

@[simp] theorem connection_setSlot (connection : Option ServerConnection) :
    (runtime.setSlot other connection).connection server =
      if other = server then connection else runtime.connection server := by
  unfold McpClientRuntime.connection setSlot
  rw [Keyed.lookup_upsert]
  split <;> rfl

@[simp] theorem connection_disconnect : (runtime.disconnect other).connection server =
    if other = server then none else runtime.connection server := by
  unfold disconnect
  by_cases hslot : (Keyed.lookup ServerSlot.server runtime.servers other).isSome = true
  · rw [if_pos hslot, connection_setSlot]
  · rw [if_neg hslot]
    by_cases hs : other = server
    · subst hs
      rw [if_pos rfl, connection, Option.not_isSome_iff_eq_none.mp hslot]
      rfl
    · rw [if_neg hs]

theorem get_eq_some_iff {id : CapabilityId} {d : CapabilityDescriptor} :
    runtime.get id = some d ↔ d ∈ runtime.registered ∧ d.id = id :=
  Keyed.lookup_eq_some_iff runtime.keyed

@[simp] theorem get_setSlot (connection : Option ServerConnection) (id : CapabilityId) :
    (runtime.setSlot server connection).get id = runtime.get id := rfl

@[simp] theorem get_disconnect (id : CapabilityId) :
    (runtime.disconnect server).get id = runtime.get id := by
  unfold disconnect
  split <;> rfl

/-- The newest descriptor of an id is the one that counts. -/
@[simp] theorem get_register (descriptors : List CapabilityDescriptor) (id : CapabilityId) :
    (runtime.register descriptors).get id =
      (Keyed.lookup CapabilityDescriptor.id descriptors.reverse id).or (runtime.get id) :=
  Keyed.lookup_overlay_last

@[simp] theorem get_unregisterServer (id : CapabilityId) :
    (runtime.unregisterServer server).2.get id =
      if id.startsWith (mcpNamespace server) then none else runtime.get id :=
  Keyed.lookup_filter_not (CapabilityId.startsWith · (mcpNamespace server)) id

end Tables

end McpClientRuntime

/-! ### Discoveries -/

/-- What a listed tool must satisfy to be adopted. -/
theorem fits_of_adoptTool {spec : ServerSpec} {overrides : List McpToolConfig}
    {allow : Option (List String)} {tool : Tool} {d : CapabilityDescriptor}
    (h : adoptTool spec overrides allow tool = some d) :
    trim tool.name ≠ "" ∧ '.' ∉ (trim tool.name).toList ∧
      allow.all (fun allow => allow.contains (trim tool.name)) = true := by
  unfold adoptTool at h
  by_cases hname : ((trim tool.name).isEmpty || (trim tool.name).toList.contains '.') = true
  · rw [if_pos hname] at h
    cases h
  rw [if_neg hname] at h
  by_cases hallow : allow.all (fun allow => allow.contains (trim tool.name)) = true
  · simp only [Bool.or_eq_true, not_or, List.contains_iff_mem, String.isEmpty_iff] at hname
    exact ⟨hname.1, hname.2, hallow⟩
  · rw [if_pos (by simpa using hallow)] at h
    cases h

/-- A discovery that succeeded: what was asked for, and what the server advertised. -/
structure Discovery where
  spec : ServerSpec
  overrides : List McpToolConfig
  allow : Option (List String)
  tools : List Tool

namespace Discovery

def descriptors (discovery : Discovery) : List CapabilityDescriptor :=
  adoptTools discovery.spec discovery.tools discovery.overrides discovery.allow

/-- The connection as the discovery leaves it. -/
def connection (discovery : Discovery) : ServerConnection :=
  ⟨discovery.descriptors.map fun d => toolOf d.id, discovery.spec.timeoutSecs⟩

/-- What is adopted splits back into the server and a listed, allowed tool, and is the
operator's word on that tool. -/
theorem of_mem_descriptors {discovery : Discovery} {d : CapabilityDescriptor}
    (hname : isCapabilitySegment discovery.spec.name = true) (h : d ∈ discovery.descriptors) :
    ∃ tool ∈ discovery.tools,
      splitCapability d.id.asStr = some (discovery.spec.name, trim tool.name) ∧
        discovery.allow.all (fun allow => allow.contains (trim tool.name)) = true ∧
        d = toolDescriptor discovery.spec discovery.overrides (trim tool.name) tool.inputSchema
          d.id := by
  obtain ⟨tool, htool, hadopt⟩ := List.mem_filterMap.mp h
  obtain ⟨hpath, hd⟩ := eq_of_adoptTool hadopt
  obtain ⟨hne, hdot, hallow⟩ := fits_of_adoptTool hadopt
  refine ⟨tool, htool, ?_, hallow, hd⟩
  rw [hpath]
  exact splitCapability_mcpNamespace (ne_empty_of_segment hname) (dotless_of_segment hname)
    hne hdot

/-- The connection's tools are listed and allowed. -/
theorem of_mem_tools {discovery : Discovery} {name : String}
    (hname : isCapabilitySegment discovery.spec.name = true)
    (h : name ∈ discovery.connection.tools) :
    (∃ tool ∈ discovery.tools, trim tool.name = name) ∧
      discovery.allow.all (fun allow => allow.contains name) = true := by
  obtain ⟨d, hd, rfl⟩ := List.mem_map.mp h
  obtain ⟨tool, htool, hsplit, hallow, -⟩ := of_mem_descriptors hname hd
  have hof : toolOf d.id = trim tool.name := by rw [toolOf, hsplit]; rfl
  rw [hof]
  exact ⟨⟨tool, htool, rfl⟩, hallow⟩

end Discovery

/-- Only an override of the tool's very name lowers its risk or lifts the approval. -/
theorem toolTrust_cases (overrides : List McpToolConfig) (tool : String) :
    (∃ override_ ∈ overrides, override_.name = tool ∧
      toolTrust overrides tool = (override_.risk, false)) ∨
      toolTrust overrides tool = (.highRisk, true) := by
  unfold toolTrust
  cases hfind : overrides.find? fun override_ => override_.name == tool with
  | none => exact .inr rfl
  | some override_ =>
      have hname := List.find?_some hfind
      exact .inl ⟨override_, List.mem_of_find?_eq_some hfind, by simpa using hname, rfl⟩

/-! ### Histories -/

/-- A spec whose name the configuration accepts. -/
structure NamedSpec extends ServerSpec where
  segment : isCapabilitySegment name = true

/-- A call on the runtime, with what the server answers where one is asked. -/
inductive McpClientCall
  | connect (spec : NamedSpec) (overrides : List McpToolConfig) (allow : Option (List String))
      (listed : Except McpError (List Tool))
  | refresh (server : String) (overrides : List McpToolConfig) (allow : Option (List String))
      (listed : Except McpError (List Tool))
  | disconnect (server : String)
  | unregisterServer (server : String)

def McpClientRuntime.call (runtime : McpClientRuntime) : McpClientCall → McpClientRuntime
  | .connect spec overrides allow listed =>
      (runtime.connect spec.toServerSpec overrides allow listed).2
  | .refresh server overrides allow listed => (runtime.refresh server overrides allow listed).2
  | .disconnect server => runtime.disconnect server
  | .unregisterServer server => (runtime.unregisterServer server).2

/-- The discovery a call makes, if it makes one. -/
def McpClientRuntime.discovers (runtime : McpClientRuntime) : McpClientCall → Option Discovery
  | .connect spec overrides allow (.ok tools) =>
      some ⟨spec.toServerSpec, overrides, allow, tools⟩
  | .refresh server overrides allow (.ok tools) =>
      (runtime.connection server).map fun connection =>
        ⟨⟨server, connection.timeout⟩, overrides, allow, tools⟩
  | _ => none

/-- What becomes of a server's connection. -/
inductive McpNote
  | discovered (discovery : Discovery)
  | disconnected (server : String)

namespace McpNote

def server : McpNote → String
  | discovered discovery => discovery.spec.name
  | disconnected server => server

/-- The discovery of a note, if it adopts the id. -/
def adopts (id : CapabilityId) : McpNote → Option Discovery
  | discovered discovery =>
      if (Keyed.lookup CapabilityDescriptor.id discovery.descriptors.reverse id).isSome then
        some discovery
      else none
  | disconnected _ => none

end McpNote

/-- A runtime, and the notes of its connections, the newest first. -/
structure McpHistory where
  runtime : McpClientRuntime
  notes : List McpNote

namespace McpHistory

/-- The note a call leaves. -/
def noted (history : McpHistory) (call : McpClientCall) : List McpNote :=
  match history.runtime.discovers call with
  | some discovery => [.discovered discovery]
  | none =>
      match call with
      | .disconnect server => [.disconnected server]
      | _ => []

def step (history : McpHistory) (call : McpClientCall) : McpHistory :=
  ⟨history.runtime.call call, history.noted call ++ history.notes⟩

/-- The runtime after a list of calls, with its notes. -/
def after (calls : List McpClientCall) : McpHistory := Machine.run step ⟨.new, []⟩ calls

/-- What last became of a server's connection. -/
def latest (history : McpHistory) (server : String) : Option McpNote :=
  Keyed.lookup McpNote.server history.notes server

/-- The last discovery that adopted an id. -/
def lastAdopted (history : McpHistory) (id : CapabilityId) : Option Discovery :=
  history.notes.findSome? (McpNote.adopts id)

/-- A discovery, a disconnect, a server forgotten, or nothing. -/
theorem step_cases (history : McpHistory) (call : McpClientCall) :
    (∃ discovery : Discovery,
      (isCapabilitySegment discovery.spec.name = true ∨
        ∃ connection, history.runtime.connection discovery.spec.name = some connection) ∧
      history.step call =
        ⟨(history.runtime.register discovery.descriptors).setSlot discovery.spec.name
          (some discovery.connection), .discovered discovery :: history.notes⟩) ∨
    (∃ server, history.step call =
      ⟨history.runtime.disconnect server, .disconnected server :: history.notes⟩) ∨
    (∃ server, history.step call =
      ⟨(history.runtime.unregisterServer server).2, history.notes⟩) ∨
    history.step call = history := by
  cases call with
  | connect spec overrides allow listed =>
      cases listed with
      | error error => exact .inr (.inr (.inr rfl))
      | ok tools => exact .inl ⟨⟨_, overrides, allow, tools⟩, .inl spec.segment, rfl⟩
  | refresh server overrides allow listed =>
      cases hconn : history.runtime.connection server with
      | none =>
          refine .inr (.inr (.inr ?_))
          cases listed <;>
            simp [step, noted, McpClientRuntime.discovers, McpClientRuntime.call,
              McpClientRuntime.refresh, hconn]
      | some connection =>
          cases listed with
          | error error =>
              refine .inr (.inr (.inr ?_))
              simp [step, noted, McpClientRuntime.discovers, McpClientRuntime.call,
                McpClientRuntime.refresh, hconn]
          | ok tools =>
              refine .inl ⟨⟨⟨server, connection.timeout⟩, overrides, allow, tools⟩,
                .inr ⟨connection, hconn⟩, ?_⟩
              simp only [step, noted, McpClientRuntime.discovers, McpClientRuntime.call,
                McpClientRuntime.refresh, hconn]
              rfl
  | disconnect server => exact .inr (.inl ⟨server, rfl⟩)
  | unregisterServer server => exact .inr (.inr (.inl ⟨server, rfl⟩))

/-- A connection is as its server's last note has it, and a descriptor as the last discovery of
its id. -/
structure Faithful (history : McpHistory) : Prop where
  segments : ∀ discovery, McpNote.discovered discovery ∈ history.notes →
    isCapabilitySegment discovery.spec.name = true
  slots : ∀ server connection, history.runtime.connection server = some connection →
    ∃ discovery, history.latest server = some (.discovered discovery) ∧
      connection = discovery.connection
  adopted : ∀ id d, history.runtime.get id = some d →
    ∃ discovery, history.lastAdopted id = some discovery ∧ d ∈ discovery.descriptors

namespace Faithful

variable {history : McpHistory}

theorem segment_of_latest (h : history.Faithful) {server : String} {discovery : Discovery}
    (hl : history.latest server = some (.discovered discovery)) :
    discovery.spec.name = server ∧ isCapabilitySegment server = true := by
  have hname := Keyed.key_of_lookup hl
  exact ⟨hname, hname ▸ h.segments discovery (Keyed.mem_of_lookup hl)⟩

theorem segment_of_lastAdopted (h : history.Faithful) {id : CapabilityId}
    {discovery : Discovery} (hlast : history.lastAdopted id = some discovery) :
    isCapabilitySegment discovery.spec.name = true := by
  obtain ⟨note, hnote, hadopts⟩ := List.exists_of_findSome?_eq_some hlast
  cases note with
  | disconnected server => cases hadopts
  | discovered other =>
      obtain ⟨-, hsome⟩ := Option.ite_none_right_eq_some.mp hadopts
      cases hsome
      exact h.segments discovery hnote

theorem discovered (h : history.Faithful) {discovery : Discovery}
    (hname : isCapabilitySegment discovery.spec.name = true) :
    Faithful ⟨(history.runtime.register discovery.descriptors).setSlot discovery.spec.name
      (some discovery.connection), .discovered discovery :: history.notes⟩ where
  segments := fun other hother => by
    rcases List.mem_cons.mp hother with heq | hold
    · cases heq
      exact hname
    · exact h.segments other hold
  slots := fun server connection hconn => by
    rw [latest, Keyed.lookup_cons]
    by_cases hs : discovery.spec.name = server
    · have hnew : some discovery.connection = some connection := by simpa [hs] using hconn
      exact ⟨discovery, if_pos hs, (Option.some.inj hnew).symm⟩
    · rw [if_neg (by exact hs)]
      exact h.slots server connection (by simpa [hs] using hconn)
  adopted := fun id d hget => by
    rw [lastAdopted, List.findSome?_cons, McpNote.adopts]
    rw [McpClientRuntime.get_setSlot, McpClientRuntime.get_register] at hget
    cases hnew : Keyed.lookup CapabilityDescriptor.id discovery.descriptors.reverse id with
    | some d' =>
        obtain rfl : d' = d := by simpa [hnew] using hget
        exact ⟨discovery, rfl, List.mem_reverse.mp (Keyed.mem_of_lookup hnew)⟩
    | none => exact h.adopted id d (by simpa [hnew] using hget)

theorem disconnected (h : history.Faithful) (server : String) :
    Faithful ⟨history.runtime.disconnect server, .disconnected server :: history.notes⟩ where
  segments := fun discovery hd => h.segments discovery (by simpa using hd)
  slots := fun other connection hconn => by
    rw [McpClientRuntime.connection_disconnect] at hconn
    by_cases hs : server = other
    · simp [hs] at hconn
    · rw [if_neg hs] at hconn
      rw [latest, Keyed.lookup_cons, if_neg (by exact hs)]
      exact h.slots other connection hconn
  adopted := fun id d hget => h.adopted id d (by simpa using hget)

theorem unregistered (h : history.Faithful) (server : String) :
    Faithful ⟨(history.runtime.unregisterServer server).2, history.notes⟩ where
  segments := h.segments
  slots := h.slots
  adopted := fun id d hget => by
    rw [McpClientRuntime.get_unregisterServer] at hget
    by_cases hid : id.startsWith (mcpNamespace server) = true
    · simp [hid] at hget
    · exact h.adopted id d (by simpa [hid] using hget)

theorem called (h : history.Faithful) (call : McpClientCall) :
    Faithful (history.step call) := by
  rcases step_cases history call with ⟨discovery, hname, hstep⟩ | ⟨server, hstep⟩ |
    ⟨server, hstep⟩ | hstep
  · rw [hstep]
    refine h.discovered (hname.elim id ?_)
    rintro ⟨connection, hconn⟩
    obtain ⟨before, hl, -⟩ := h.slots _ _ hconn
    exact (h.segment_of_latest hl).2
  · exact hstep ▸ h.disconnected server
  · exact hstep ▸ h.unregistered server
  · rw [hstep]
    exact h

end Faithful

theorem faithful_after (calls : List McpClientCall) : (after calls).Faithful := by
  refine Machine.invariant ⟨?_, ?_, ?_⟩ (fun history call h => h.called call) calls
  · exact fun discovery hd => absurd hd List.not_mem_nil
  · exact fun server connection hconn => by cases hconn
  · exact fun id d hget => by cases hget

end McpHistory

theorem McpClientRuntime.gate_of_invoke {runtime : McpClientRuntime}
    {answer : ToolCall → Except McpError Value} {capability : CapabilityId} {arguments : Value}
    {call : ToolCall} (h : (runtime.invoke answer capability arguments).1 = some call) :
    runtime.gate capability arguments = .ok call := by
  unfold invoke at h
  cases hgate : runtime.gate capability arguments with
  | error error => simp [hgate] at h
  | ok sent => simpa [hgate] using h

/-- What `invoke` sends passed every check. -/
theorem McpClientRuntime.of_gate {runtime : McpClientRuntime} {capability : CapabilityId}
    {arguments : Value} {call : ToolCall} (h : runtime.gate capability arguments = .ok call) :
    splitCapability capability.asStr = some (call.server, call.tool) ∧
      arguments = .object call.arguments ∧
      (∃ descriptor, runtime.get capability = some descriptor ∧
        inputMatches descriptor.inputSchema arguments = true) ∧
      ∃ connection, runtime.connection call.server = some connection ∧
        call.tool ∈ connection.tools ∧ call.timeout = connection.timeout := by
  unfold gate at h
  cases hsplit : splitCapability capability.asStr with
  | none => simp [hsplit] at h
  | some path =>
      obtain ⟨server, tool⟩ := path
      cases hget : runtime.get capability with
      | none => simp [hsplit, hget] at h
      | some descriptor =>
          cases arguments with
          | object fields =>
              cases hmatch : inputMatches descriptor.inputSchema (.object fields) with
              | false => simp [hsplit, hget, Value.asObject, hmatch] at h
              | true =>
                  cases hconn : runtime.connection server with
                  | none => simp [hsplit, hget, Value.asObject, hmatch, hconn] at h
                  | some connection =>
                      by_cases htool : tool ∈ connection.tools
                      · have hcall : ⟨server, tool, fields, connection.timeout⟩ = call := by
                          simpa [hsplit, hget, Value.asObject, hmatch, hconn, htool] using h
                        subst hcall
                        exact ⟨rfl, rfl, ⟨descriptor, rfl, hmatch⟩, connection, hconn, htool, rfl⟩
                      · simp [hsplit, hget, Value.asObject, hmatch, hconn, htool] at h
          | _ => simp [hsplit, hget, Value.asObject] at h

/-- After any calls, `invoke` sends only what an adopted descriptor admits, over a connection
whose last discovery listed the tool and whose allowlist then named it. A descriptor is that of
the last discovery of its id: its id splits back into that server and a listed tool, and it is a
high risk behind an approval where no override names the tool. -/
theorem calls_are_trusted (calls : List McpClientCall) :
    let history := McpHistory.after calls
    (∀ answer capability arguments call,
      (history.runtime.invoke answer capability arguments).1 = some call →
        splitCapability capability.asStr = some (call.server, call.tool) ∧
        arguments = .object call.arguments ∧
        (∃ descriptor ∈ history.runtime.registered, descriptor.id = capability ∧
          inputMatches descriptor.inputSchema arguments = true) ∧
        history.runtime.hasConnection call.server = true ∧
        ∃ discovery, history.latest call.server = some (.discovered discovery) ∧
          (∃ tool ∈ discovery.tools, trim tool.name = call.tool) ∧
          discovery.allow.all (fun allow => allow.contains call.tool) = true) ∧
      ∀ descriptor ∈ history.runtime.registered, ∃ discovery,
        history.lastAdopted descriptor.id = some discovery ∧ ∃ tool ∈ discovery.tools,
          splitCapability descriptor.id.asStr = some (discovery.spec.name, trim tool.name) ∧
          ((∃ override_ ∈ discovery.overrides, override_.name = trim tool.name ∧
              descriptor.riskClass = override_.risk) ∨
            descriptor.riskClass = .highRisk ∧ descriptor.requiresApproval = true) := by
  intro history
  have hf : history.Faithful := McpHistory.faithful_after calls
  constructor
  · intro answer capability arguments call hsent
    obtain ⟨hsplit, hargs, ⟨descriptor, hget, hmatch⟩, connection, hconn, htool, -⟩ :=
      McpClientRuntime.of_gate (McpClientRuntime.gate_of_invoke hsent)
    obtain ⟨hmem, hid⟩ := (McpClientRuntime.get_eq_some_iff _).mp hget
    obtain ⟨discovery, hlatest, rfl⟩ := hf.slots call.server connection hconn
    obtain ⟨hname, hsegment⟩ := hf.segment_of_latest hlatest
    have hlisted := Discovery.of_mem_tools (hname ▸ hsegment) htool
    have hconnected : history.runtime.hasConnection call.server = true := by
      rw [McpClientRuntime.hasConnection, hconn]
      rfl
    exact ⟨hsplit, hargs, ⟨descriptor, hmem, hid, hmatch⟩, hconnected, discovery, hlatest,
      hlisted⟩
  · intro descriptor hmem
    obtain ⟨discovery, hlast, hd⟩ :=
      hf.adopted descriptor.id descriptor ((McpClientRuntime.get_eq_some_iff _).mpr ⟨hmem, rfl⟩)
    obtain ⟨tool, htool, hsplit, -, heq⟩ :=
      Discovery.of_mem_descriptors (hf.segment_of_lastAdopted hlast) hd
    refine ⟨discovery, hlast, tool, htool, hsplit, ?_⟩
    rw [heq]
    rcases toolTrust_cases discovery.overrides (trim tool.name) with ⟨o, ho, hname, htrust⟩ |
      htrust
    · exact .inl ⟨o, ho, hname, congrArg Prod.fst htrust⟩
    · exact .inr ⟨congrArg Prod.fst htrust, congrArg Prod.snd htrust⟩

end Argus
