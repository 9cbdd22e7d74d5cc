import Argus.Daemon.McpRegistry
import Argus.Executor.Privileged
import Argus.Policy.Bootstrap

/-!
# The surface published to the cloud, and what the cloud path performs of it

The daemon publishes every capability it has registered: its own, and the tools of the
connected MCP servers. The executor behind the cloud channel routes the reads and the service
actions only, which are those the channel's policy permits.

`permitted_performed` says which published capabilities that executor performs, and with which
arguments.
-/

namespace Argus

open CapabilityId Interaction Prog

/-! ### The daemon's own descriptors -/

def isServiceCapability (id : CapabilityId) : Bool :=
  id.asStr ∈ [hostServiceRestart, hostServiceStop, hostServiceStart]

def isRemediationCapability (id : CapabilityId) : Bool :=
  id.asStr ∈ [hostProcessSignal, containerRestart, hostCgroupFreeze, hostCgroupThaw]

def isPressureCapability (id : CapabilityId) : Bool :=
  id.asStr ∈ [hostMemoryReclaim, hostJournalVacuum]

def isKubernetesCapability (id : CapabilityId) : Bool := id.startsWith "k8s."

/-- `id.as_str().ends_with(".read")`. -/
def isReadCapability (id : CapabilityId) : Bool := ".read".toList.isSuffixOf id.asStr.toList

/-- A schema for objects with the given properties and no others. -/
def closedSchema (required : List String) (properties : List (String × Value)) : Value :=
  .object ([("additionalProperties", .bool false), ("properties", .object properties)] ++
    (if required = [] then [] else [("required", .array (required.map .string))]) ++
    [("type", .string "object")])

def ofType (kind : String) : Value := .object [("type", .string kind)]

/-- The input schema of a bootstrap capability. -/
def bootstrapSchema (id : CapabilityId) : Value :=
  if isServiceCapability id then closedSchema ["unit"] [("unit", ofType "string")]
  else if id.asStr = hostProcessSignal then
    closedSchema ["pid", "signal"] [("pid", ofType "integer"),
      ("signal", .object [("enum", .array [.string "term", .string "kill", .string "stop",
        .string "cont"]), ("type", .string "string")])]
  else if id.asStr = containerRestart then
    closedSchema ["container"] [("container", ofType "string")]
  else if isRemediationCapability id then closedSchema ["path"] [("path", ofType "string")]
  else if isPressureCapability id then closedSchema [] [("subject", ofType "string")]
  else if isKubernetesCapability id then
    if isReadCapability id then
      closedSchema [] [("name", ofType "string"), ("namespace", ofType "string")]
    else if id.asStr = k8sWorkloadScale then
      closedSchema ["name", "replicas"] [("name", ofType "string"),
        ("namespace", ofType "string"),
        ("replicas", .object [("minimum", .number (.posInt 0)), ("type", .string "integer")])]
    else
      closedSchema ["name"] [("name", ofType "string"), ("namespace", ofType "string"),
        ("revision", ofType "integer")]
  else .object [("additionalProperties", .bool false), ("type", .string "object")]

/-- The risk, the blast radius and the approval flag of a bootstrap capability. -/
def bootstrapGates (id : CapabilityId) : RiskClass × BlastRadius × Bool :=
  if isServiceCapability id then (.lowRisk, .host, true)
  else if id.asStr = hostProcessSignal then (.highRisk, .host, true)
  else if id.asStr = containerRestart then (.controlled, .host, true)
  else if isRemediationCapability id then (.lowRisk, .host, false)
  else if id.asStr = hostMemoryReclaim then (.controlled, .host, true)
  else if id.asStr = hostJournalVacuum then (.controlled, .host, true)
  else if isKubernetesCapability id then
    if id.asStr = k8sPodDelete then (.highRisk, .environment, true)
    else if isReadCapability id then (.read, .none, false)
    else (.controlled, .environment, true)
  else (.read, .none, false)

def bootstrapDescriptor (id : CapabilityId) : CapabilityDescriptor where
  id := id
  riskClass := (bootstrapGates id).1
  inputSchema := bootstrapSchema id
  blastRadius := some (bootstrapGates id).2.1
  requiresApproval := (bootstrapGates id).2.2
  timeoutSeconds := none

theorem bootstrapCapabilities_valid : ∀ path ∈ bootstrapCapabilities,
    isDottedPath path = true := by
  decide

/-- `bootstrap_descriptors`. -/
def bootstrapDescriptors : List CapabilityDescriptor :=
  (bootstrapCapabilities.pmap CapabilityId.mk bootstrapCapabilities_valid).map
    bootstrapDescriptor

theorem ids_bootstrapDescriptors : bootstrapDescriptors.map CapabilityDescriptor.id =
    bootstrapCapabilities.pmap CapabilityId.mk bootstrapCapabilities_valid := by
  rw [bootstrapDescriptors, List.map_map]
  exact List.map_id _

theorem eq_bootstrapDescriptor {d : CapabilityDescriptor} (h : d ∈ bootstrapDescriptors) :
    d.id.asStr ∈ bootstrapCapabilities ∧ d = bootstrapDescriptor d.id := by
  obtain ⟨id, hid, rfl⟩ := List.mem_map.mp h
  obtain ⟨path, hpath, rfl⟩ := List.mem_pmap.mp hid
  exact ⟨hpath, rfl⟩

/-- The registry as `bootstrap` leaves it, before any server is connected. -/
def bootstrapRegistry : BootstrapRegistry where
  descriptors := bootstrapDescriptors
  keyed := by
    rw [ids_bootstrapDescriptors]
    exact List.Nodup.pmap (fun _ _ _ _ h => congrArg CapabilityId.asStr h) (by decide)
  bootstrap := fun _ h => (eq_bootstrapDescriptor h).1

/-! ### The published surface -/

/-- The surface after a run of the wiring: a snapshot of the registry. -/
def publishedSurface (file : ValidServers) (persisted : Option ValidServers)
    (startup : Connections) (events : List McpEvent) : List CapabilityDescriptor :=
  (McpState.after bootstrapRegistry.toCapabilityRegistry file persisted startup
    events).registry.descriptors

/-- What is registered is the daemon's own or an external tool. -/
def Originates (registry : CapabilityRegistry) : Prop :=
  ∀ d ∈ registry.descriptors, d ∈ bootstrapDescriptors ∨ d.id.isMcpCapability = true

theorem Originates.register {registry : CapabilityRegistry} (h : Originates registry)
    (connections : Connections) (servers : List McpServerConfig) :
    Originates (McpState.register connections servers registry) := by
  intro d hd
  rcases mem_register hd with hold | ⟨server, -, hstart⟩
  · exact h d hold
  · exact .inr (isMcpCapability_of_startsWith hstart)

theorem Originates.step {state : McpState} (h : Originates state.registry) (event : McpEvent) :
    Originates (state.step event).registry := by
  cases event with
  | pass connections => exact h.register connections _
  | delivery document connections =>
      refine Originates.register (fun d hd => h d ?_) connections _
      exact (mem_cleared hd).1

/-- A published capability is the daemon's own, with its own descriptor, or an external tool. -/
theorem origin_of_published {file : ValidServers} {persisted : Option ValidServers}
    {startup : Connections} {events : List McpEvent} {d : CapabilityDescriptor}
    (hd : d ∈ publishedSurface file persisted startup events) :
    d ∈ bootstrapDescriptors ∨ d.id.isMcpCapability = true := by
  have hstart : Originates bootstrapRegistry.toCapabilityRegistry := fun d hd => .inl hd
  have hafter : Originates (McpState.after bootstrapRegistry.toCapabilityRegistry file persisted
      startup events).registry :=
    Machine.invariant (I := fun state : McpState => Originates state.registry)
      (hstart.register startup _) (fun s e hs => hs.step e) events
  exact hafter d hd

/-! ### What the executor performs -/

/-- The execution ended short of its effect: the capability is not routed, or its arguments are
refused for their shape, before any call. What a guardrail refuses is a target, not a shape. -/
def NotPerformed (t : List (Event ServiceReply)) : Except ExecutionError Value → Prop
  | .error (.unsupported _) => True
  | .error (.failed _) => t = []
  | _ => False

/-- The arguments name a unit, and a blank one. -/
def NamesBlank (arguments : Value) : Prop :=
  ∃ unit, arguments.getStr "unit" = some unit ∧ trim unit = ""

theorem permits_iff (id : CapabilityId) : BootstrapPolicyEvaluator.new.permits id = true ↔
    id.asStr ∈ [hostStatusRead, argusHealthRead, argusConfigRead, argusPluginsList,
      hostServiceRestart, hostServiceStop, hostServiceStart] := by
  simp [BootstrapPolicyEvaluator.permits, BootstrapPolicyEvaluator.new]

/-- What the channel's policy does not permit, its executor does not route. -/
theorem cloudExecutor_unsupported {provider : CapabilityProvider} {action : AuthorizedAction}
    (h : BootstrapPolicyEvaluator.new.permits action.capability = false) :
    cloudExecutor provider action = pure (.error (.unsupported action.capability)) := by
  rw [← Bool.not_eq_true, permits_iff] at h
  simp only [List.mem_cons, List.not_mem_nil, or_false, not_or] at h
  obtain ⟨hstatus, hhealth, hconfig, hplugins, hrestart, hstop, hstart⟩ := h
  have hservice : ServiceOp.of action.capability = none := by
    rw [ServiceOp.of, if_neg hrestart, if_neg hstop, if_neg hstart]
  unfold cloudExecutor
  rw [hservice]
  simp only [Option.isSome_none, Bool.false_eq_true, if_false, ite_eq_left_iff]
  intro _
  unfold bootstrapExecute
  split
  · exact absurd ‹_› hstatus
  · exact absurd ‹_› hhealth
  · exact absurd ‹_› hconfig
  · exact absurd ‹_› hplugins
  · rfl

/-- What a closed schema accepts: an object with the required keys and no others, each value of
its own schema. -/
theorem of_closedSchema {required : List String} {properties : List (String × Value)}
    {input : Value} (h : inputMatches (closedSchema required properties) input = true) :
    ∃ fields, input = .object fields ∧ (∀ key ∈ required, (fields.lookup key).isSome = true) ∧
      (∀ field ∈ fields, (properties.lookup field.1).isSome = true) ∧
      ∀ property ∈ properties, ∀ value, fields.lookup property.1 = some value →
        inputMatches property.2 value = true := by
  have htype : (closedSchema required properties).getStr "type" = some "object" := by
    by_cases hnone : required = [] <;>
      simp [closedSchema, Value.getStr, Value.get, Value.asStr, List.lookup_cons, hnone]
  have hproperties : (closedSchema required properties).get "properties" =
      some (.object properties) := by
    simp [closedSchema, Value.get, List.lookup_cons]
  have hclosed : (closedSchema required properties).get "additionalProperties" =
      some (.bool false) := by
    simp [closedSchema, Value.get]
  have hrequired : required ≠ [] → (closedSchema required properties).get "required" =
      some (.array (required.map .string)) := fun hsome => by
    simp [closedSchema, Value.get, List.lookup_cons, hsome]
  have hobject : (closedSchema required properties).asObject.isSome = true := rfl
  unfold inputMatches at h
  rw [htype] at h
  split at h
  · rename_i hnone
    rw [hnone] at hobject
    cases hobject
  obtain ⟨hkind, hfields⟩ := Bool.and_eq_true_iff.mp h
  cases input with
  | object fields =>
      simp only [Bool.and_eq_true, requiredPresent, noAdditional, hclosed, hproperties] at hfields
      obtain ⟨⟨hpresent, hdeclared⟩, heach⟩ := hfields
      refine ⟨fields, rfl, fun key hkey => ?_, fun field hfield => ?_, fun property hproperty
        value hvalue => ?_⟩
      · rw [hrequired (List.ne_nil_of_mem hkey)] at hpresent
        refine List.all_eq_true.mp hpresent key ?_
        exact List.mem_filterMap.mpr ⟨.string key, List.mem_map_of_mem hkey, rfl⟩
      · exact List.all_eq_true.mp hdeclared field hfield
      · split at heach
        · rename_i declared hdeclares
          obtain rfl : declared = properties := by
            simpa using hdeclares.symm.trans hproperties
          have haccepted := List.all_eq_true.mp heach ⟨property, hproperty⟩ (List.mem_attach _ _)
          dsimp only at haccepted
          rw [hvalue] at haccepted
          exact haccepted
        · rename_i hother
          exact absurd hproperties (hother _)
  | _ => cases hkind

/-- What the schema of a service action accepts names a unit. -/
theorem unit_of_service {id : CapabilityId} {input : Value}
    (hservice : isServiceCapability id = true)
    (h : inputMatches (bootstrapSchema id) input = true) :
    ∃ unit, input.getStr "unit" = some unit := by
  rw [bootstrapSchema, if_pos hservice] at h
  obtain ⟨fields, rfl, hrequired, -, heach⟩ := of_closedSchema h
  obtain ⟨value, hvalue⟩ := Option.isSome_iff_exists.mp (hrequired "unit" (by simp))
  have hstring := heach ("unit", ofType "string") (by simp) value hvalue
  cases value with
  | string unit => exact ⟨unit, by simp [Value.getStr, Value.get, hvalue, Value.asStr]⟩
  | _ => simp [inputMatches, ofType, Value.asObject, Value.getStr, Value.get, Value.asStr,
      matchesKind] at hstring

/-- A refusal of the guardrails is a violation. -/
theorem violation_of_checkEach {capability : CapabilityId} {target : String}
    {predicates : List Guardrail} {error : ExecutionError}
    (h : GuardrailRegistry.checkEach capability target predicates = .error error) :
    ∃ reason, error = .guardrailViolation capability reason := by
  induction predicates with
  | nil => cases h
  | cons predicate rest ih =>
      unfold GuardrailRegistry.checkEach at h
      split at h
      · exact ih h
      · exact ⟨_, (Except.error.inj h).symm⟩

/-- A service action that names a unit is performed, unless the unit is blank. -/
theorem privilegedExecute_performed {guardrails : GuardrailRegistry} {action : AuthorizedAction}
    {op : ServiceOp} (hop : ServiceOp.of action.capability = some op) {unit : String}
    (hunit : action.request.arguments.getStr "unit" = some unit)
    {t : List (Event ServiceReply)} {r : Except ExecutionError Value}
    (h : Runs (privilegedExecute guardrails action) t r) :
    NotPerformed t r ↔ NamesBlank action.request.arguments := by
  have hblank : NamesBlank action.request.arguments ↔ trim unit = "" :=
    ⟨fun ⟨other, hother, hnone⟩ => Option.some.inj (hunit.symm.trans hother) ▸ hnone,
      fun hnone => ⟨unit, hunit, hnone⟩⟩
  rw [hblank]
  unfold privilegedExecute at h
  rw [hop, hunit] at h
  dsimp only [Option.filter] at h
  by_cases hnone : trim unit = ""
  · rw [if_neg (by simp [hnone])] at h
    obtain ⟨rfl, rfl⟩ := h
    exact iff_of_true rfl hnone
  · rw [if_pos (by simpa using hnone)] at h
    dsimp only at h
    refine iff_of_false ?_ hnone
    cases hcheck : guardrails.check action.capability unit with
    | error violation =>
        rw [hcheck] at h
        obtain ⟨rfl, rfl⟩ := h
        obtain ⟨reason, rfl⟩ := violation_of_checkEach hcheck
        exact id
    | ok _ =>
        rw [hcheck] at h
        obtain ⟨reply, t', hend, rfl⟩ := runs_call_bind.mp h
        cases reply with
        | ok _ =>
            obtain ⟨-, rfl⟩ := hend
            exact id
        | error error =>
            obtain ⟨t₁, status, t₂, -, ⟨-, rfl⟩, -⟩ := runs_bind.mp hend
            exact id

/-- The reads are left to the read-only executor. -/
theorem unrouted_of_read {id : CapabilityId}
    (h : id.asStr ∈ [hostStatusRead, argusHealthRead, argusConfigRead, argusPluginsList]) :
    ServiceOp.of id = none ∧ Control.remediationHandles id = false ∧
      Control.isKubernetesAction id = false := by
  obtain ⟨path, valid⟩ := id
  simp only [List.mem_cons, List.not_mem_nil, or_false] at h
  rcases h with rfl | rfl | rfl | rfl <;>
    exact ⟨rfl, by simp +decide [Control.remediationHandles, isMcpCapability, startsWith],
      by simp +decide [Control.isKubernetesAction]⟩

/-- A read is answered, whatever its arguments. -/
theorem cloudExecutor_read {provider : CapabilityProvider} {action : AuthorizedAction}
    (h : action.capability.asStr ∈
      [hostStatusRead, argusHealthRead, argusConfigRead, argusPluginsList]) :
    ∃ value, cloudExecutor provider action = pure (.ok value) := by
  obtain ⟨hservice, hremediation, hkubernetes⟩ := unrouted_of_read h
  have hrouted : cloudExecutor provider action = pure (bootstrapExecute provider action) := by
    simp [cloudExecutor, hservice, hremediation, hkubernetes]
  rw [hrouted]
  simp only [List.mem_cons, List.not_mem_nil, or_false] at h
  unfold bootstrapExecute
  rcases h with hpath | hpath | hpath | hpath <;> rw [hpath] <;> exact ⟨_, rfl⟩

theorem serviceOp_of_service {id : CapabilityId} (h : isServiceCapability id = true) :
    ∃ op, ServiceOp.of id = some op := by
  simp only [isServiceCapability, List.mem_cons, List.not_mem_nil, or_false,
    decide_eq_true_eq] at h
  unfold ServiceOp.of
  split_ifs with hrestart hstop hstart
  · exact ⟨_, rfl⟩
  · exact ⟨_, rfl⟩
  · exact ⟨_, rfl⟩
  · exact absurd h (by simp [hrestart, hstop, hstart])

/-- A descriptor of a service capability is the daemon's own. -/
theorem schema_of_service {file : ValidServers} {persisted : Option ValidServers}
    {startup : Connections} {events : List McpEvent} {d : CapabilityDescriptor}
    (hd : d ∈ publishedSurface file persisted startup events)
    (hservice : isServiceCapability d.id = true) : d.inputSchema = bootstrapSchema d.id := by
  rcases origin_of_published hd with hown | hmcp
  · exact congrArg CapabilityDescriptor.inputSchema (eq_bootstrapDescriptor hown).2
  · simp only [isServiceCapability, List.mem_cons, List.not_mem_nil, or_false,
      decide_eq_true_eq] at hservice
    rw [isMcpCapability, startsWith] at hmcp
    rcases hservice with hpath | hpath | hpath <;> rw [hpath] at hmcp <;> cases hmcp

section Published

variable {file : ValidServers} {persisted : Option ValidServers} {startup : Connections}
  {events : List McpEvent} {d : CapabilityDescriptor} {provider : CapabilityProvider}
  {action : AuthorizedAction} {t : List (Event ServiceReply)} {r : Except ExecutionError Value}

/-- What the channel's policy permits of the surface is performed on every input its schema
accepts, except that a service action is refused a blank unit. Every other published capability
is refused as unsupported, with no call. -/
theorem permitted_performed (hd : d ∈ publishedSurface file persisted startup events)
    (hcapability : action.capability = d.id)
    (hinput : inputMatches d.inputSchema action.request.arguments = true)
    (hr : Runs (cloudExecutor provider action) t r) :
    if BootstrapPolicyEvaluator.new.permits d.id then
      NotPerformed t r ↔
        isServiceCapability d.id = true ∧ NamesBlank action.request.arguments
    else t = [] ∧ r = .error (.unsupported d.id) := by
  split_ifs with hpermits
  · cases hservice : isServiceCapability d.id with
    | true =>
        obtain ⟨op, hop⟩ := serviceOp_of_service (hcapability ▸ hservice)
        rw [schema_of_service hd hservice] at hinput
        obtain ⟨unit, hunit⟩ := unit_of_service hservice hinput
        rw [cloudExecutor, hop, Option.isSome_some, if_pos rfl] at hr
        simpa using privilegedExecute_performed hop hunit hr
    | false =>
        have hread : action.capability.asStr ∈
            [hostStatusRead, argusHealthRead, argusConfigRead, argusPluginsList] := by
          rw [permits_iff, ← hcapability] at hpermits
          rw [← hcapability] at hservice
          simp only [isServiceCapability, decide_eq_false_iff_not] at hservice
          simp only [List.mem_cons, List.not_mem_nil, or_false] at hpermits hservice ⊢
          tauto
        have hperformed : ∃ value, cloudExecutor provider action = pure (.ok value) :=
          cloudExecutor_read hread
        obtain ⟨value, hvalue⟩ := hperformed
        rw [hvalue] at hr
        obtain ⟨rfl, rfl⟩ := hr
        exact iff_of_false id (fun hservice => nomatch hservice.1)
  · rw [cloudExecutor_unsupported (by simpa [hcapability] using hpermits)] at hr
    obtain ⟨rfl, rfl⟩ := hr
    exact ⟨rfl, by rw [hcapability]⟩

end Published

/-! ### A read that is published and not performed -/

/-- No server is configured, and none answers. -/
def unconnected : Connections := .inOrder fun _ => .error "not connected"

/-- A capability on the given arguments, as the policy authorized it. -/
def authorizedOn (id : CapabilityId) (arguments : Value) : AuthorizedAction :=
  ⟨⟨id, .cloud, none, arguments, ⟨0, .cloud⟩⟩, .allow "bootstrap.read-only" "permitted", rfl⟩

def podRead : CapabilityId := ⟨k8sPodRead, by decide⟩

def serviceRestart : CapabilityId := ⟨hostServiceRestart, hostServiceRestart_valid⟩

def emptyProvider : CapabilityProvider := ⟨.null, .null, .null, .null⟩

/-- With no server the surface is the daemon's own. -/
theorem surface_unconnected :
    publishedSurface .empty none unconnected [] = bootstrapDescriptors := rfl

theorem mem_bootstrapDescriptors {id : CapabilityId} (h : id.asStr ∈ bootstrapCapabilities) :
    bootstrapDescriptor id ∈ bootstrapDescriptors :=
  List.mem_map_of_mem (List.mem_pmap.mpr ⟨id.asStr, h, rfl⟩)

def restartNginx : AuthorizedAction :=
  authorizedOn serviceRestart (.object [("unit", .string "nginx.service")])

/-- A restart the controller fails is performed all the same: it came to the call. -/
theorem restart_performed :
    let reply : ServiceReply ⟨.restart, "nginx.service"⟩ := .error (.failed "masked")
    let error : ExecutionError := .failedAfterEffect (ServiceError.failed "masked").display
      .notPossible
    Runs (cloudExecutor emptyProvider restartNginx) [⟨_, reply⟩] (.error error) ∧
      (NotPerformed [⟨_, reply⟩] (.error error) ↔
        isServiceCapability serviceRestart = true ∧ NamesBlank restartNginx.request.arguments) := by
  intro reply error
  have hruns : Runs (cloudExecutor emptyProvider restartNginx) [⟨_, reply⟩] (.error error) :=
    ⟨reply, [], ⟨rfl, rfl⟩, rfl⟩
  have hpublished : bootstrapDescriptor serviceRestart ∈
      publishedSurface .empty none unconnected [] :=
    surface_unconnected ▸ mem_bootstrapDescriptors (by decide)
  exact ⟨hruns, permitted_performed hpublished rfl (by decide +kernel) hruns⟩

/-- The surface has the read of the pods, whose schema accepts an empty object; the executor of
the cloud path does not route it. -/
theorem podRead_not_performed :
    bootstrapDescriptor podRead ∈ publishedSurface .empty none unconnected [] ∧
      inputMatches (bootstrapDescriptor podRead).inputSchema (.object []) = true ∧
      Runs (cloudExecutor emptyProvider (authorizedOn podRead (.object []))) []
        (.error (.unsupported podRead)) := by
  refine ⟨surface_unconnected ▸ mem_bootstrapDescriptors (by decide),
    by decide +kernel, ?_⟩
  exact ⟨rfl, rfl⟩

end Argus
