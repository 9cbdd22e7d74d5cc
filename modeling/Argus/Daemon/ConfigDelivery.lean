import Argus.Cloud.Buffer
import Argus.Daemon.BrainControl
import Argus.Daemon.McpWiring

/-!
# Configuration delivery

The cloud delivers versions of configurations. The kind, the version and the content of a
delivery are decided first; then the provider credential is stored, the managed settings file is
replaced, and the levers are committed. Runbooks and server documents ride the same version guard
and have effects of their own. What was applied is recorded in two rows of the repository, and
nothing depends on whether the rows could be saved.

What the outside answers to one delivery is an argument: which reads and writes fail, the verdict
of the runbook manager, and what the servers document parses to. A table of settings is the list
of its entries, sorted by key, and a TOML value is kept as the JSON value it reads back as.
-/

namespace Argus

/-! ### Kinds and versions -/

def kindProvider : String := "provider"
def kindBrain : String := "brain"
def kindRunbook : String := "runbook"
def kindMcp : String := "mcp"
def kindAgentTeam : String := "agent_team"
def kindOrchestration : String := "orchestration"

inductive ConfigDisposition
  | apply
  /-- Recognised, but no local runtime consumes it yet. -/
  | deferred
  | unknown
  deriving DecidableEq

/-- Why a kind will not be applied. -/
def ConfigDisposition.refusalReason : ConfigDisposition → Option String
  | apply => none
  | deferred => some ("this configuration kind is recognised but has no local runtime in this " ++
      "release, so it was not applied")
  | unknown => some "this configuration kind is not recognised by this installation"

def disposition (kind : String) : ConfigDisposition :=
  if kind = kindProvider ∨ kind = kindBrain ∨ kind = kindRunbook ∨ kind = kindMcp then .apply
  else if kind = kindAgentTeam ∨ kind = kindOrchestration then .deferred
  else .unknown

inductive ConfigApplyMode
  | apply
  | rollback
  deriving DecidableEq

/-- What to do with a delivered version. -/
inductive DeliveryDecision
  | advance
  | ignoreStale
  | rollback
  deriving DecidableEq

def DeliveryDecision.changesHeldVersion (decision : DeliveryDecision) : Bool :=
  decision != .ignoreStale

/-- A rollback is honoured whatever the versions; an ordinary delivery only advances. -/
def classifyDelivery (held incoming : Int) : ConfigApplyMode → DeliveryDecision
  | .rollback => .rollback
  | .apply => if held < incoming then .advance else .ignoreStale

/-- The payload of `config.apply`. -/
structure ConfigApplyPayload where
  configurationId : Uuid
  versionId : Uuid
  versionNumber : Int
  contentHash : String
  content : List (String × Value)
  mode : ConfigApplyMode

def ConfigApplyPayload.kind (payload : ConfigApplyPayload) : Option String :=
  (payload.content.lookup "kind").bind Value.asStr

/-- The document of a runbook delivery. -/
def ConfigApplyPayload.toml (payload : ConfigApplyPayload) : Option String :=
  (payload.content.lookup "toml").bind Value.asStr

/-! ### Settings -/

abbrev Settings := List (String × Value)

/-- An integer beyond the signed 64-bit range becomes a float. -/
def Number.toToml : Number → Number
  | posInt n => if n < 2 ^ 63 then posInt n else float (posInt n).asF64
  | number => number

mutual

def jsonToToml : Value → Except String Value
  | .string text => .ok (.string text)
  | .bool flag => .ok (.bool flag)
  | .number number => .ok (.number number.toToml)
  | .array items => (jsonItemsToToml items).map .array
  | .null => .error "null is not a valid setting value"
  | .object _ => .error "nested tables are not supported for provider settings"

def jsonItemsToToml : List Value → Except String (List Value)
  | [] => .ok []
  | item :: items => do
      let item ← jsonToToml item
      let items ← jsonItemsToToml items
      .ok (item :: items)

end

def managedProviderSettings : List String := ["provider", "model", "fallback_models", "base_url"]

/-- The key of the provider credential, which is a secret and no setting. -/
def managedProviderSecret : String := "api_token"

/-- Inserts one setting. -/
def insertSetting (settings : Settings) (entry : String × Value) : Except String Settings := do
  let value ← jsonToToml entry.2
  .ok (insertKey entry.1 value settings)

/-- One field of a provider configuration: metadata, the credential, a setting, or an object whose
leaves are settings. -/
def splitField (parts : Settings × Option String) (field : String × Value) :
    Except String (Settings × Option String) :=
  if field.1 = "kind" then .ok parts
  else if field.1 = managedProviderSecret then
    match field.2.asStr with
    | none => .error ("'" ++ field.1 ++ "' must be a string")
    | some text => .ok (parts.1, some text)
  else if managedProviderSettings.contains field.1 then do
    let settings ← match field.2 with
      | .object leaves => leaves.foldlM insertSetting parts.1
      | value => insertSetting parts.1 (field.1, value)
    .ok (settings, parts.2)
  else if BrainControl.isLever field.1 then do
    let settings ← insertSetting parts.1 field
    .ok (settings, parts.2)
  else .error ("unrecognised configuration field '" ++ field.1 ++ "'")

/-- `split_provider_content`. -/
def splitProviderContent (content : List (String × Value)) :
    Except String (Settings × Option String) :=
  content.foldlM splitField ([], none)

/-! ### The host -/

/-- The row of the version that is held. -/
structure ManagedConfiguration where
  configurationId : Uuid
  kind : String
  currentVersionId : Uuid
  currentVersionNumber : Int
  contentHash : String
  appliedAt : DateTime

/-- The row of the version that is reported as applied. -/
structure AppliedConfigurationState where
  configurationId : Uuid
  appliedVersionId : Uuid
  appliedVersionNumber : Int
  contentHash : String
  updatedAt : DateTime

/-- Where a delivered runbook came from. -/
structure RunbookProvenance where
  name : String
  configurationId : Uuid
  versionId : Uuid
  versionNumber : Int
  deliveredAt : DateTime

/-- A delivery that took effect: it changed the settings and the levers, the runbooks, or the MCP
topology. -/
structure Effective where
  configurationId : Uuid
  versionId : Uuid
  versionNumber : Int
  /-- The settings that were written; a document carries none. -/
  settings : Settings

/-- What deliveries change. -/
structure ConfigHost where
  /-- The content of the provider credential's file. -/
  credential : Option String
  /-- The managed settings file. -/
  settings : Option Settings
  control : BrainControl
  managed : List ManagedConfiguration
  applied : List AppliedConfigurationState
  runbooks : List RunbookProvenance
  mcp : Option McpState
  mcpDelivery : Option McpConfig
  /-- The deliveries that took effect, oldest first, for the statements. -/
  effective : List Effective

/-- What the outside answers to one delivery. An answer that is an error carries its text. -/
structure ConfigAnswers where
  readFails : Bool
  storeSecret : Except String Unit
  writeSettings : Except String Unit
  managedSaved : Bool
  appliedSaved : Bool
  /-- The runbook manager's verdict on the document, with the runbook's name. -/
  deliverRunbook : Except String String
  /-- What the content parses to as a servers document. -/
  parseServers : Except String McpConfig
  putMcpDelivery : Except String Unit
  /-- A refusal of the applier, which holds no wiring. -/
  applyServers : Except String Unit
  connections : Connections
  now : DateTime

inductive ConfigResultStatus
  | applied
  | rejected
  | failed
  deriving DecidableEq

/-- The reason of a result: a text, or what is wrong with a lever. -/
inductive ConfigReason
  | text (reason : String)
  | setting (error : SettingError)
  deriving DecidableEq

/-- The payload of `config.result`. -/
structure ConfigResult where
  versionId : Uuid
  status : ConfigResultStatus
  reason : Option ConfigReason
  appliedAt : Option DateTime

namespace ConfigHost

/-- The version held of a configuration. A read that fails counts as nothing held. -/
def heldVersion (host : ConfigHost) (answers : ConfigAnswers) (id : Uuid) : Int :=
  let held := if answers.readFails then none
    else Keyed.lookup ManagedConfiguration.configurationId host.managed id
  (held.map ManagedConfiguration.currentVersionNumber).getD (-1)

def rejected (host : ConfigHost) (versionId : Uuid) (reason : ConfigReason) :
    ConfigResult × ConfigHost := (⟨versionId, .rejected, some reason, none⟩, host)

def failed (host : ConfigHost) (versionId : Uuid) (reason : String) :
    ConfigResult × ConfigHost := (⟨versionId, .failed, some (.text reason), none⟩, host)

/-- Saves both rows, as far as they can be saved, and answers that the delivery is applied. -/
def recordApplied (host : ConfigHost) (payload : ConfigApplyPayload) (kind : String)
    (answers : ConfigAnswers) : ConfigResult × ConfigHost :=
  (⟨payload.versionId, .applied, none, some answers.now⟩,
    { host with
      managed :=
        if answers.managedSaved then
          Keyed.upsert ManagedConfiguration.configurationId
            ⟨payload.configurationId, kind, payload.versionId, payload.versionNumber,
              payload.contentHash, answers.now⟩ host.managed
        else host.managed
      applied :=
        if answers.appliedSaved then
          Keyed.upsert AppliedConfigurationState.configurationId
            ⟨payload.configurationId, payload.versionId, payload.versionNumber,
              payload.contentHash, answers.now⟩ host.applied
        else host.applied })

/-- `store_provider_credential`; the file is replaced whole, or left as it is. -/
def storeProviderCredential (host : ConfigHost) (credential : String)
    (answers : ConfigAnswers) : Except String ConfigHost :=
  if credential = "" then
    .error "secret store operation failed: refusing to store an empty secret"
  else
    match answers.storeSecret with
    | .error error => .error error
    | .ok () => .ok { host with credential := some credential }

/-- Stores the credential of a delivery, if it carries one. -/
def storeDelivered (host : ConfigHost) (credential : Option String) (answers : ConfigAnswers) :
    Except String ConfigHost :=
  match credential with
  | none => .ok host
  | some credential => host.storeProviderCredential credential answers

/-- Writes the managed settings file, which replaces what it held, and commits the levers. -/
def writeSettings (host : ConfigHost) (payload : ConfigApplyPayload) (kind : String)
    (settings levers : Settings) (answers : ConfigAnswers) : ConfigResult × ConfigHost :=
  match answers.writeSettings with
  | .error error =>
      host.failed payload.versionId ("could not write the managed settings: " ++ error)
  | .ok () =>
      recordApplied
        { host with
          settings := some settings
          control := host.control.commitAll levers
          effective := host.effective ++
            [⟨payload.configurationId, payload.versionId, payload.versionNumber, settings⟩] }
        payload kind answers

/-- The settings path: everything is validated, then the credential is stored, then the settings
are written. -/
def applySettings (host : ConfigHost) (payload : ConfigApplyPayload) (kind : String)
    (answers : ConfigAnswers) : ConfigResult × ConfigHost :=
  match splitProviderContent payload.content with
  | .error reason => host.rejected payload.versionId (.text reason)
  | .ok (settings, credential) =>
      match host.control.validateAll settings with
      | .error error => host.rejected payload.versionId (.setting error)
      | .ok levers =>
          match host.storeDelivered credential answers with
          | .error error =>
              host.failed payload.versionId ("could not store the provider credential: " ++ error)
          | .ok host => host.writeSettings payload kind settings levers answers

/-- `apply_runbook_delivery`. -/
def applyRunbookDelivery (host : ConfigHost) (payload : ConfigApplyPayload)
    (answers : ConfigAnswers) : ConfigResult × ConfigHost :=
  match payload.toml with
  | none =>
      host.failed payload.versionId
        "a runbook configuration carries its document as the string member 'toml'"
  | some _ =>
      match answers.deliverRunbook with
      | .error reason => host.failed payload.versionId reason
      | .ok name =>
          recordApplied
            { host with
              runbooks := Keyed.upsert RunbookProvenance.name
                ⟨name, payload.configurationId, payload.versionId, payload.versionNumber,
                  answers.now⟩ host.runbooks
              effective := host.effective ++
                [⟨payload.configurationId, payload.versionId, payload.versionNumber, []⟩] }
            payload kindRunbook answers

/-- `apply_mcp_delivery`. -/
def applyMcpDelivery (host : ConfigHost) (payload : ConfigApplyPayload)
    (answers : ConfigAnswers) : ConfigResult × ConfigHost :=
  match answers.parseServers with
  | .error error =>
      host.failed payload.versionId ("the servers document is malformed: " ++ error)
  | .ok document =>
      match document.validate with
      | .error error => host.failed payload.versionId error
      | .ok () =>
          match host.mcp with
          | none => host.failed payload.versionId "no MCP runtime is running"
          | some mcp =>
              match answers.putMcpDelivery with
              | .error error =>
                  host.failed payload.versionId
                    ("could not persist the delivered servers document: " ++ error)
              | .ok () =>
                  match answers.applyServers with
                  | .error reason =>
                      failed { host with mcpDelivery := some document } payload.versionId reason
                  | .ok () =>
                      recordApplied
                        { host with
                          mcp := some (mcp.applyServers document.servers answers.connections).2
                          mcpDelivery := some document
                          effective := host.effective ++
                            [⟨payload.configurationId, payload.versionId, payload.versionNumber,
                              []⟩] }
                        payload kindMcp answers

/-- `apply_configuration`; a frame whose payload does not decode is `none`. -/
def applyConfiguration (host : ConfigHost) (frame : Option ConfigApplyPayload)
    (answers : ConfigAnswers) : ConfigResult × ConfigHost :=
  match frame with
  | none => host.failed 0 "the delivered configuration was malformed"
  | some payload =>
      match payload.kind with
      | none =>
          host.rejected payload.versionId (.text "the configuration does not declare its kind")
      | some kind =>
          match (disposition kind).refusalReason with
          | some reason => host.rejected payload.versionId (.text reason)
          | none =>
              let held := host.heldVersion answers payload.configurationId
              if !(classifyDelivery held payload.versionNumber payload.mode).changesHeldVersion then
                host.rejected payload.versionId
                  (.text ("version " ++ toString payload.versionNumber ++
                    " is not newer than the version held (" ++ toString held ++ ")"))
              else if kind = kindRunbook then host.applyRunbookDelivery payload answers
              else if kind = kindMcp then host.applyMcpDelivery payload answers
              else host.applySettings payload kind answers

/-! ### What one delivery does -/

/-- The delivery is of a kind this release applies, and its version is not held back. -/
def Honoured (host : ConfigHost) (payload : ConfigApplyPayload) (answers : ConfigAnswers)
    (kind : String) : Prop :=
  payload.kind = some kind ∧ (disposition kind).refusalReason = none ∧
    (classifyDelivery (host.heldVersion answers payload.configurationId) payload.versionNumber
      payload.mode).changesHeldVersion = true

/-- The delivery is of a settings kind, and its content passes every check. -/
structure Passes (host : ConfigHost) (payload : ConfigApplyPayload) (answers : ConfigAnswers)
    (kind : String) (settings : Settings) (credential : Option String) (levers : Settings) :
    Prop where
  honoured : host.Honoured payload answers kind
  not_runbook : kind ≠ kindRunbook
  not_mcp : kind ≠ kindMcp
  split : splitProviderContent payload.content = .ok (settings, credential)
  validated : host.control.validateAll settings = .ok levers

variable {host stored : ConfigHost} {payload : ConfigApplyPayload} {answers : ConfigAnswers}
  {kind : String} {settings levers : Settings} {credential : Option String}

theorem storeProviderCredential_eq_ok_iff {credential : String} :
    host.storeProviderCredential credential answers = .ok stored ↔
      credential ≠ "" ∧ answers.storeSecret = .ok () ∧
        stored = { host with credential := some credential } := by
  unfold storeProviderCredential
  by_cases hempty : credential = ""
  · simp [hempty]
  · cases answers.storeSecret <;> simp [hempty, eq_comm]

/-- What is stored of a delivery is its credential. -/
theorem storeDelivered_eq_ok {credential : Option String}
    (h : host.storeDelivered credential answers = .ok stored) :
    stored = { host with credential := credential.or host.credential } := by
  cases credential with
  | none => exact (Except.ok.inj h).symm
  | some credential => exact (storeProviderCredential_eq_ok_iff.mp h).2.2

theorem applyConfiguration_of_honoured (h : host.Honoured payload answers kind) :
    host.applyConfiguration (some payload) answers =
      if kind = kindRunbook then host.applyRunbookDelivery payload answers
      else if kind = kindMcp then host.applyMcpDelivery payload answers
      else host.applySettings payload kind answers := by
  obtain ⟨hkind, hrefusal, hversion⟩ := h
  simp [applyConfiguration, hkind, hrefusal, hversion]

/-- A delivery that passes every check gets to the stores. -/
theorem Passes.applyConfiguration
    (h : host.Passes payload answers kind settings credential levers) :
    host.applyConfiguration (some payload) answers =
      match host.storeDelivered credential answers with
      | .error error =>
          host.failed payload.versionId ("could not store the provider credential: " ++ error)
      | .ok host => host.writeSettings payload kind settings levers answers := by
  rw [applyConfiguration_of_honoured h.honoured, if_neg h.not_runbook, if_neg h.not_mcp,
    applySettings, h.split]
  simp only [h.validated]

/-- A delivery is not applied and leaves the host as it is, but for a servers document that the
applier refuses after it is persisted; or it is a document that takes effect; or it is settings
that get to the settings store. -/
inductive Outcome (host : ConfigHost) (answers : ConfigAnswers) :
    Option ConfigApplyPayload → ConfigResult × ConfigHost → Prop
  | refused {frame : Option ConfigApplyPayload} (result : ConfigResult)
      (h : result.status ≠ .applied) : Outcome host answers frame (result, host)
  | persisted {payload : ConfigApplyPayload} (document : McpConfig) (reason : String) :
      Outcome host answers (some payload)
        (failed { host with mcpDelivery := some document } payload.versionId reason)
  | runbook {payload : ConfigApplyPayload} (name text : String)
      (h : host.Honoured payload answers kindRunbook) (htext : payload.toml = some text)
      (hverdict : answers.deliverRunbook = .ok name) :
      Outcome host answers (some payload) (recordApplied
        { host with
          runbooks := Keyed.upsert RunbookProvenance.name
            ⟨name, payload.configurationId, payload.versionId, payload.versionNumber,
              answers.now⟩ host.runbooks
          effective := host.effective ++
            [⟨payload.configurationId, payload.versionId, payload.versionNumber, []⟩] }
        payload kindRunbook answers)
  | servers {payload : ConfigApplyPayload} (mcp : McpState) (document : McpConfig)
      (h : host.Honoured payload answers kindMcp) (hmcp : host.mcp = some mcp)
      (hparse : answers.parseServers = .ok document) (hvalid : document.validate = .ok ())
      (hput : answers.putMcpDelivery = .ok ()) (happly : answers.applyServers = .ok ()) :
      Outcome host answers (some payload) (recordApplied
        { host with
          mcp := some (mcp.applyServers document.servers answers.connections).2
          mcpDelivery := some document
          effective := host.effective ++
            [⟨payload.configurationId, payload.versionId, payload.versionNumber, []⟩] }
        payload kindMcp answers)
  | settings {payload : ConfigApplyPayload} {kind : String} {settings levers : Settings}
      {credential : Option String} (stored : ConfigHost)
      (h : host.Passes payload answers kind settings credential levers)
      (hstored : host.storeDelivered credential answers = .ok stored) :
      Outcome host answers (some payload)
        (stored.writeSettings payload kind settings levers answers)

namespace Outcome

theorem rejected (frame : Option ConfigApplyPayload) (versionId : Uuid) (reason : ConfigReason) :
    host.Outcome answers frame (host.rejected versionId reason) :=
  .refused _ fun h => nomatch h

theorem failed (frame : Option ConfigApplyPayload) (versionId : Uuid) (reason : String) :
    host.Outcome answers frame (host.failed versionId reason) :=
  .refused _ fun h => nomatch h

theorem applyRunbookDelivery (h : host.Honoured payload answers kindRunbook) :
    host.Outcome answers (some payload) (host.applyRunbookDelivery payload answers) := by
  unfold ConfigHost.applyRunbookDelivery
  cases htext : payload.toml with
  | none => exact failed _ _ _
  | some text =>
      cases hverdict : answers.deliverRunbook with
      | error reason => exact failed _ _ _
      | ok name => exact .runbook name text h htext hverdict

theorem applyMcpDelivery (h : host.Honoured payload answers kindMcp) :
    host.Outcome answers (some payload) (host.applyMcpDelivery payload answers) := by
  unfold ConfigHost.applyMcpDelivery
  cases hparse : answers.parseServers with
  | error reason => exact failed _ _ _
  | ok document =>
      cases hvalid : document.validate with
      | error reason => simpa only [hvalid] using failed _ _ _
      | ok u =>
          cases hmcp : host.mcp with
          | none => simpa only [hvalid] using failed _ _ _
          | some mcp =>
              cases hput : answers.putMcpDelivery with
              | error reason => simpa only [hvalid] using failed _ _ _
              | ok v =>
                  cases happly : answers.applyServers with
                  | error reason =>
                      simpa only [hvalid, hmcp] using
                        @Outcome.persisted host answers payload document reason
                  | ok w =>
                      simpa only [hvalid] using
                        .servers mcp document h hmcp hparse hvalid hput happly

theorem applySettings (h : host.Honoured payload answers kind) (hrunbook : kind ≠ kindRunbook)
    (hmcp : kind ≠ kindMcp) :
    host.Outcome answers (some payload) (host.applySettings payload kind answers) := by
  unfold ConfigHost.applySettings
  cases hsplit : splitProviderContent payload.content with
  | error reason => exact rejected _ _ _
  | ok parts =>
      obtain ⟨settings, credential⟩ := parts
      cases hvalidated : host.control.validateAll settings with
      | error reason => simpa only [hvalidated] using rejected _ _ _
      | ok levers =>
          cases hstored : host.storeDelivered credential answers with
          | error reason => simpa only [hvalidated, hstored] using failed _ _ _
          | ok stored =>
              simpa only [hvalidated, hstored] using
                .settings stored ⟨h, hrunbook, hmcp, hsplit, hvalidated⟩ hstored

end Outcome

theorem applyConfiguration_outcome (host : ConfigHost) (frame : Option ConfigApplyPayload)
    (answers : ConfigAnswers) :
    host.Outcome answers frame (host.applyConfiguration frame answers) := by
  cases frame with
  | none => exact .failed _ _ _
  | some payload =>
      cases hkind : payload.kind with
      | none =>
          simp only [applyConfiguration, hkind]
          exact .rejected _ _ _
      | some kind =>
          cases hrefusal : (disposition kind).refusalReason with
          | some reason =>
              simp only [applyConfiguration, hkind, hrefusal]
              exact .rejected _ _ _
          | none =>
              by_cases hversion : (classifyDelivery (host.heldVersion answers
                  payload.configurationId) payload.versionNumber payload.mode).changesHeldVersion =
                    true
              · have honoured : host.Honoured payload answers kind := ⟨hkind, hrefusal, hversion⟩
                rw [applyConfiguration_of_honoured honoured]
                by_cases hrunbook : kind = kindRunbook
                · rw [if_pos hrunbook]
                  exact .applyRunbookDelivery (hrunbook ▸ honoured)
                · rw [if_neg hrunbook]
                  by_cases hmcp : kind = kindMcp
                  · rw [if_pos hmcp]
                    exact .applyMcpDelivery (hmcp ▸ honoured)
                  · rw [if_neg hmcp]
                    exact .applySettings honoured hrunbook hmcp
              · simp only [applyConfiguration, hkind, hrefusal, hversion, Bool.not_false, if_true]
                exact .rejected _ _ _

/-- What the settings path does to the levers is what the brain is told of a delivery. -/
theorem applySettings_control
    (hsplit : splitProviderContent payload.content = .ok (settings, credential)) :
    (host.applySettings payload kind answers).2.control =
      host.control.applyConfiguration settings (host.storeDelivered credential answers).isOk
        answers.writeSettings.isOk := by
  unfold applySettings BrainControl.applyConfiguration
  rw [hsplit]
  cases hvalidated : host.control.validateAll settings with
  | error error => simp only [hvalidated, rejected]
  | ok levers =>
      cases hstored : host.storeDelivered credential answers with
      | error error => simp [hvalidated, hstored, failed, Except.isOk, Except.toBool]
      | ok stored =>
          obtain rfl := storeDelivered_eq_ok hstored
          cases hwritten : answers.writeSettings with
          | error error =>
              simp [hvalidated, hstored, hwritten, writeSettings, failed, Except.isOk,
                Except.toBool]
          | ok u =>
              -- without levers there is nothing to commit
              cases levers <;>
                simp [hvalidated, hstored, hwritten, writeSettings, recordApplied, Except.isOk,
                  Except.toBool, BrainControl.commitAll]

/-- A host to which nothing was delivered. -/
def fresh : ConfigHost where
  credential := none
  settings := none
  control := .seed .default []
  managed := []
  applied := []
  runbooks := []
  mcp := none
  mcpDelivery := none
  effective := []

end ConfigHost

/-- Everything can be read, written and saved. -/
def ConfigAnswers.willing : ConfigAnswers where
  readFails := false
  storeSecret := .ok ()
  writeSettings := .ok ()
  managedSaved := true
  appliedSaved := true
  deliverRunbook := .ok "runbook"
  parseServers := .error "missing field"
  putMcpDelivery := .ok ()
  applyServers := .ok ()
  connections := .inOrder fun _ => .error "unreachable"
  now := ⟨0⟩

/-- An ordinary delivery of settings. -/
def ordinaryDelivery (id : Uuid) (version : Int) (content : List (String × Value)) :
    ConfigApplyPayload where
  configurationId := id
  versionId := version.toNat
  versionNumber := version
  contentHash := ""
  content := content
  mode := .apply

end Argus
