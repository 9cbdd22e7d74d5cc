import Argus.Domain.Authorization
import Argus.Lib.Semver

/-!
# The local protocol

One JSON object a line, a request from the client and a response from the daemon. The wire types
are kept apart from the documents they travel as, and those from their texts: the texts are the
serialization libraries', and enter as `Texts`.

* `Operation` and its wire name determine each other (`Operation.fromStr_eq_some_iff`).
* A request or a response whose document is read back is read back itself
  (`decodeRequest_written`, `Response.decode_written`). A response that carries `null` comes back
  without a result: on the wire an absent result and a null one are the same to its reader.
-/

namespace Argus.Ipc

open Value (asStr)

/-- `Value::as_bool`. -/
def asBool : Value → Option Bool
  | .bool b => some b
  | _ => none

/-- The texts of the serialization libraries: documents, and identifiers. -/
structure Texts where
  /-- `serde_json::to_string`. -/
  writeJson : Value → String
  /-- `serde_json::from_str`. -/
  readJson : String → Option Value
  /-- `Uuid`'s serialization. -/
  writeUuid : Uuid → String
  /-- `Uuid::parse_str`. -/
  readUuid : String → Option Uuid

/-- The protocol version spoken by this implementation. -/
def protocolVersion : Version := ⟨0, 8, 0, [], []⟩

/-- The text of a version. -/
def versionText (v : Version) : String :=
  s!"{v.major}.{v.minor}.{v.patch}" ++
    (if v.pre.isEmpty then "" else "-" ++ String.ofList v.pre) ++
    (if v.build.isEmpty then "" else "+" ++ String.ofList v.build)

/-- A typed operation id. -/
inductive Operation
  | healthGet
  | statusGet
  | configGet
  | pluginsList
  | capabilitiesList
  | cloudEnroll
  | cloudStatus
  | cloudForget
  | cloudSetPrivilegedExecution
  | approvalList
  | approvalGrant
  | approvalDeny
  | planList
  | auditList
  | sentinelGet
  | reportGenerate
  | brainDiagnose
  | runbooksList
  | runbooksApprove
  | runbooksPromote
  deriving DecidableEq

namespace Operation

def asStr : Operation → String
  | healthGet => "health.get"
  | statusGet => "status.get"
  | configGet => "config.get"
  | pluginsList => "plugins.list"
  | capabilitiesList => "capabilities.list"
  | cloudEnroll => "cloud.enroll"
  | cloudStatus => "cloud.status"
  | cloudForget => "cloud.forget"
  | cloudSetPrivilegedExecution => "cloud.set-privileged-execution"
  | approvalList => "approval.list"
  | approvalGrant => "approval.grant"
  | approvalDeny => "approval.deny"
  | planList => "plan.list"
  | auditList => "audit.list"
  | sentinelGet => "sentinel.get"
  | reportGenerate => "report.generate"
  | brainDiagnose => "brain.diagnose"
  | runbooksList => "runbooks.list"
  | runbooksApprove => "runbooks.approve"
  | runbooksPromote => "runbooks.promote"

/-- The operation of a wire name; any other text is an unknown operation. -/
def fromStr : String → Option Operation
  | "health.get" => some healthGet
  | "status.get" => some statusGet
  | "config.get" => some configGet
  | "plugins.list" => some pluginsList
  | "capabilities.list" => some capabilitiesList
  | "cloud.enroll" => some cloudEnroll
  | "cloud.status" => some cloudStatus
  | "cloud.forget" => some cloudForget
  | "cloud.set-privileged-execution" => some cloudSetPrivilegedExecution
  | "approval.list" => some approvalList
  | "approval.grant" => some approvalGrant
  | "approval.deny" => some approvalDeny
  | "plan.list" => some planList
  | "audit.list" => some auditList
  | "sentinel.get" => some sentinelGet
  | "report.generate" => some reportGenerate
  | "brain.diagnose" => some brainDiagnose
  | "runbooks.list" => some runbooksList
  | "runbooks.approve" => some runbooksApprove
  | "runbooks.promote" => some runbooksPromote
  | _ => none

theorem fromStr_asStr (op : Operation) : fromStr op.asStr = some op := by cases op <;> rfl

theorem fromStr_eq_some_iff {s : String} {op : Operation} :
    fromStr s = some op ↔ s = op.asStr := by
  constructor
  · intro h
    unfold fromStr at h
    split at h <;> simp only [Option.some.injEq, reduceCtorEq] at h <;> subst h <;> rfl
  · intro h
    rw [h, fromStr_asStr]

end Operation

/-- A request frame. -/
structure Request where
  protocolVersion : Version
  correlationId : Uuid
  operation : String
  payload : Value

/-- Machine-readable error codes. -/
inductive ErrorCode
  | malformed
  | unsupportedVersion
  | unknownOperation
  | unauthorized
  | denied
  | notReady
  | internal
  deriving DecidableEq

/-- The serialized name of a code. -/
def ErrorCode.wire : ErrorCode → String
  | malformed => "MALFORMED"
  | unsupportedVersion => "UNSUPPORTED_VERSION"
  | unknownOperation => "UNKNOWN_OPERATION"
  | unauthorized => "UNAUTHORIZED"
  | denied => "DENIED"
  | notReady => "NOT_READY"
  | internal => "INTERNAL"

def ErrorCode.ofWire : String → Option ErrorCode
  | "MALFORMED" => some malformed
  | "UNSUPPORTED_VERSION" => some unsupportedVersion
  | "UNKNOWN_OPERATION" => some unknownOperation
  | "UNAUTHORIZED" => some unauthorized
  | "DENIED" => some denied
  | "NOT_READY" => some notReady
  | "INTERNAL" => some internal
  | _ => none

theorem ErrorCode.ofWire_wire (code : ErrorCode) : ofWire code.wire = some code := by
  cases code <;> rfl

/-- The body of an error response. -/
structure ErrorBody where
  code : ErrorCode
  message : String
  deriving DecidableEq

/-- The derived serialization of an error body. -/
def ErrorBody.toValue (error : ErrorBody) : Value :=
  .object [("code", .string error.code.wire), ("message", .string error.message)]

/-- The derived deserialization of an error body. -/
def ErrorBody.fromValue (value : Value) : Option ErrorBody := do
  let code ← ((value.get "code").bind asStr).bind ErrorCode.ofWire
  let message ← (value.get "message").bind asStr
  some ⟨code, message⟩

/-- An error that may be absent: a `null` in its place is its absence. -/
def ErrorBody.fromField (field : Option Value) : Option (Option ErrorBody) :=
  match field with
  | none | some .null => some none
  | some value => (fromValue value).map some

theorem ErrorBody.fromField_toValue (error : Option ErrorBody) :
    fromField (error.map toValue) = some error := by
  cases error with
  | none => rfl
  | some error =>
      show ((ErrorCode.ofWire error.code.wire).bind
        fun code => some (⟨code, error.message⟩ : ErrorBody)).map some = _
      rw [ErrorCode.ofWire_wire]
      rfl

/-- A response frame. -/
structure Response where
  protocolVersion : Version
  correlationId : Uuid
  ok : Bool
  result : Option Value
  error : Option ErrorBody
  deriving DecidableEq

/-- Errors of decoding one request frame. -/
inductive DecodeError
  | malformed
  | unsupportedVersion (correlationId : Uuid)
  deriving DecidableEq

variable (texts : Texts)

/-! ### Requests -/

namespace Request

def new (operation : Operation) (correlationId : Uuid) (payload : Value) : Request where
  protocolVersion := Ipc.protocolVersion
  correlationId := correlationId
  operation := operation.asStr
  payload := payload

/-- The fields of a request, in the order they are serialized. -/
def fields (request : Request) : List (String × Value) :=
  [("protocol_version", .string (versionText request.protocolVersion)),
    ("correlation_id", .string (texts.writeUuid request.correlationId)),
    ("operation", .string request.operation),
    ("payload", request.payload)]

/-- A request of its parts, the payload `null` when there is none. -/
def ofParts (version correlationId operation payload : Option Value) : Option Request := do
  let version ← (version.bind asStr).bind Version.parse
  let correlationId ← (correlationId.bind asStr).bind texts.readUuid
  let operation ← operation.bind asStr
  some ⟨version, correlationId, operation, payload.getD .null⟩

/-- The derived deserialization: from an object, whose other fields are ignored, or from the
values in their order. -/
def fromValue : Value → Option Request
  | .object fields =>
      ofParts texts (fields.lookup "protocol_version") (fields.lookup "correlation_id")
        (fields.lookup "operation") (fields.lookup "payload")
  | .array [version, correlationId, operation] =>
      ofParts texts (some version) (some correlationId) (some operation) none
  | .array [version, correlationId, operation, payload] =>
      ofParts texts (some version) (some correlationId) (some operation) (some payload)
  | _ => none

end Request

/-- Parses a raw frame into a request, enforcing the major version. -/
def decodeRequest (line : String) : Except DecodeError Request :=
  match (texts.readJson line).bind (Request.fromValue texts) with
  | none => .error .malformed
  | some request =>
      if request.protocolVersion.major ≠ protocolVersion.major then
        .error (.unsupportedVersion request.correlationId)
      else .ok request

/-! ### Responses -/

namespace Response

def ok_ (correlationId : Uuid) (result : Value) : Response where
  protocolVersion := Ipc.protocolVersion
  correlationId := correlationId
  ok := true
  result := some result
  error := none

def err (correlationId : Uuid) (code : ErrorCode) (message : String) : Response where
  protocolVersion := Ipc.protocolVersion
  correlationId := correlationId
  ok := false
  result := none
  error := some ⟨code, message⟩

def errorCode (response : Response) : Option ErrorCode := response.error.map ErrorBody.code

@[simp] theorem ok_correlationId {id : Uuid} {result : Value} :
    (ok_ id result).correlationId = id := rfl

@[simp] theorem err_correlationId {id : Uuid} {code : ErrorCode} {message : String} :
    (err id code message).correlationId = id := rfl

/-- The fields of a response, in the order they are serialized; an absent result or error is left
out. -/
def fields (response : Response) : List (String × Value) :=
  [("protocol_version", .string (versionText response.protocolVersion)),
    ("correlation_id", .string (texts.writeUuid response.correlationId)),
    ("ok", .bool response.ok)] ++
  (response.result.map fun result => ("result", result)).toList ++
  (response.error.map fun error => ("error", error.toValue)).toList

section

variable {texts} {response : Response}

theorem lookup_version : (response.fields texts).lookup "protocol_version" =
    some (.string (versionText response.protocolVersion)) := by
  simp [fields]

theorem lookup_id : (response.fields texts).lookup "correlation_id" =
    some (.string (texts.writeUuid response.correlationId)) := by
  simp [fields, List.lookup_cons]

theorem lookup_ok : (response.fields texts).lookup "ok" = some (.bool response.ok) := by
  simp [fields, List.lookup_cons]

theorem lookup_result : (response.fields texts).lookup "result" = response.result := by
  obtain ⟨version, id, ok, result, error⟩ := response
  cases result <;> cases error <;> simp [fields, List.lookup_cons]

theorem lookup_error :
    (response.fields texts).lookup "error" = response.error.map ErrorBody.toValue := by
  obtain ⟨version, id, ok, result, error⟩ := response
  cases result <;> cases error <;> simp [fields, List.lookup_cons]

end

/-- The derived deserialization of a response: a `null` in the place of an optional field is its
absence. -/
def fromFields (fields : List (String × Value)) : Option Response := do
  let version ← ((fields.lookup "protocol_version").bind asStr).bind Version.parse
  let correlationId ← ((fields.lookup "correlation_id").bind asStr).bind texts.readUuid
  let ok ← (fields.lookup "ok").bind asBool
  let error ← ErrorBody.fromField (fields.lookup "error")
  some ⟨version, correlationId, ok, (fields.lookup "result").filter (· ≠ .null), error⟩

/-- What a client makes of a line. -/
def decode (line : String) : Option Response :=
  match texts.readJson line with
  | some (.object fields) => fromFields texts fields
  | _ => none

end Response

/-! ### What is written is read -/

variable {texts}

/-- The library reads the object it wrote, behind which the frame is closed: the same document at
each key. -/
def Texts.ReadsBack (texts : Texts) (fields : List (String × Value)) : Prop :=
  ∃ fields', texts.readJson (texts.writeJson (.object fields) ++ "\n") = some (.object fields') ∧
    ∀ key, fields'.lookup key = fields.lookup key

/-- The library reads the identifier it wrote. -/
def Texts.ReadsUuid (texts : Texts) (id : Uuid) : Prop :=
  texts.readUuid (texts.writeUuid id) = some id

theorem parse_protocolVersion : Version.parse (versionText protocolVersion) =
    some protocolVersion := by decide

/-- The line of a request. -/
def Request.line (texts : Texts) (request : Request) : String :=
  texts.writeJson (.object (request.fields texts))

/-- The line of a response. -/
def Response.line (texts : Texts) (response : Response) : String :=
  texts.writeJson (.object (response.fields texts))

/-- A request of this implementation is decoded from its line. -/
theorem decodeRequest_written {request : Request}
    (hversion : request.protocolVersion = protocolVersion)
    (hid : texts.ReadsUuid request.correlationId)
    (hfields : texts.ReadsBack (request.fields texts)) :
    decodeRequest texts (request.line texts ++ "\n") = .ok request := by
  obtain ⟨fields', hread, hlookup⟩ := hfields
  have hfrom : Request.fromValue texts (.object fields') = some request := by
    have hparse := parse_protocolVersion
    rw [← hversion] at hparse
    rw [Request.fromValue, hlookup, hlookup, hlookup, hlookup]
    simp only [Request.fields, List.lookup_cons]
    show Request.ofParts texts (some (.string (versionText request.protocolVersion)))
      (some (.string (texts.writeUuid request.correlationId)))
      (some (.string request.operation)) (some request.payload) = some request
    simp only [Request.ofParts, Option.bind_some, asStr, hparse, show texts.readUuid _ = _ from hid,
      Option.getD_some, Option.bind_eq_bind]
  unfold decodeRequest Request.line
  rw [hread, Option.bind_some, hfrom]
  simp [hversion]

/-- What the reader of a response holds: a null result is none. -/
def Response.received (response : Response) : Response :=
  { response with result := response.result.filter (· ≠ .null) }

/-- A response of this implementation is decoded from its line. -/
theorem Response.decode_written {response : Response}
    (hversion : response.protocolVersion = Ipc.protocolVersion)
    (hid : texts.ReadsUuid response.correlationId)
    (hfields : texts.ReadsBack (response.fields texts)) :
    Response.decode texts (response.line texts ++ "\n") = some response.received := by
  obtain ⟨fields', hread, hlookup⟩ := hfields
  have hparse := parse_protocolVersion
  rw [← hversion] at hparse
  have hid : texts.readUuid (texts.writeUuid response.correlationId) =
      some response.correlationId := hid
  unfold Response.decode Response.line
  rw [hread]
  dsimp only
  rw [fromFields, hlookup, hlookup, hlookup, hlookup, hlookup, lookup_version, lookup_id, lookup_ok,
    lookup_error, lookup_result, ErrorBody.fromField_toValue]
  simp only [Option.bind_some, asStr, asBool, hparse, hid, Option.bind_eq_bind]
  rfl

end Argus.Ipc
