import Argus.Daemon.CloudSession
import Argus.Daemon.Enrollment
import Argus.Lib.Semver

/-!
# The handshake

The cloud welcomes with `handshake.hello`, the installation answers with
`handshake.authenticate`, and the cloud replies with `handshake.ready` or `handshake.reject`.

A frame carries what its payload decodes to as each of the three, or why it does not.
-/

namespace Argus

open Interaction

/-- Routing of a message type, by its name. -/
def MessageType.fromStr : String → Option MessageType
  | "handshake.hello" => some .handshakeHello
  | "handshake.authenticate" => some .handshakeAuthenticate
  | "handshake.ready" => some .handshakeReady
  | "handshake.reject" => some .handshakeReject
  | "pairing.redeem" => some .pairingRedeem
  | "pairing.granted" => some .pairingGranted
  | "pairing.denied" => some .pairingDenied
  | "telemetry.report" => some .telemetryReport
  | "health.report" => some .healthReport
  | "events.report" => some .eventsReport
  | "activities.report" => some .activitiesReport
  | "capabilities.publish" => some .capabilitiesPublish
  | "action.event" => some .actionEvent
  | "brain.trace" => some .brainTrace
  | "token.usage" => some .tokenUsage
  | "telemetry.ack" => some .telemetryAck
  | "health.ack" => some .healthAck
  | "events.ack" => some .eventsAck
  | "activities.ack" => some .activitiesAck
  | "capabilities.ack" => some .capabilitiesAck
  | "ingest.ack" => some .ingestAck
  | "action.event.ack" => some .actionEventAck
  | "brain.trace.ack" => some .brainTraceAck
  | "token.usage.ack" => some .tokenUsageAck
  | "config.result" => some .configResult
  | "command.result" => some .commandResult
  | "config.state" => some .configState
  | "config.apply" => some .configApply
  | "command.invoke" => some .commandInvoke
  | "config.pull.request" => some .configPullRequest
  | "sentinel.report" => some .sentinelReport
  | "sentinel.ack" => some .sentinelAck
  | "approval.decision" => some .approvalDecision
  | "approval.result" => some .approvalResult
  | "runbook.decision" => some .runbookDecision
  | "runbook.result" => some .runbookResult
  | "ping" => some .ping
  | "pong" => some .pong
  | "stream.throttle" => some .streamThrottle
  | "session.rotate" => some .sessionRotate
  | _ => none

/-- `HandshakeHelloPayload`, the server's name and clock apart. -/
structure HandshakeHello where
  cloudId : String
  supportedProtocolVersions : List String
  /-- Nonce the installation signs to prove identity. -/
  challenge : String
  heartbeatIntervalSeconds : Nat
  deriving DecidableEq

/-- `HandshakeReadyPayload`. -/
structure HandshakeReady where
  negotiatedProtocolVersion : String
  instanceId : Uuid
  tenantId : Uuid
  configPullRequired : Bool
  deriving DecidableEq

/-- `HandshakeRejectPayload`. -/
structure HandshakeReject where
  code : String
  message : String
  deriving DecidableEq

/-- `HandshakeAuthenticatePayload`. -/
structure HandshakeAuthenticate where
  instanceId : Uuid
  protocolVersion : String
  agentVersion : String
  hostname : String
  challengeSignature : String
  sessionProof : Option String
  capabilitySchemaVersion : Option String
  deriving DecidableEq

structure Frame where
  messageType : String
  hello : Except String HandshakeHello
  ready : Except String HandshakeReady
  reject : Except String HandshakeReject

def Frame.kind (frame : Frame) : Option MessageType := MessageType.fromStr frame.messageType

inductive TransportError
  | connect (detail : String)
  | send (detail : String)
  | receive (detail : String)
  | closed
  | malformed (detail : String)
  | cloudIdentityMismatch (expected actual : String)
  | secureTransport (detail : String)
  | io (detail : String)
  deriving DecidableEq

def TransportError.describe : TransportError → String
  | .connect detail => s!"connect failed: {detail}"
  | .send detail => s!"send failed: {detail}"
  | .receive detail => s!"receive failed: {detail}"
  | .closed => "connection is closed"
  | .malformed detail => s!"frame is not a valid envelope: {detail}"
  | .cloudIdentityMismatch expected actual =>
      s!"cloud identity mismatch: expected '{expected}', got '{actual}'"
  | .secureTransport detail => s!"secure transport failure: {detail}"
  | .io detail => s!"i/o failure: {detail}"

/-- Verifies the cloud's announced identity against what we expect. -/
def verifyCloudIdentity (expected : String) : Option String → Except TransportError Unit
  | some actual =>
      if actual = expected then .ok () else .error (.cloudIdentityMismatch expected actual)
  | none => .error (.malformed "handshake.hello did not announce a cloud_id")

/-! ### Protocol versions -/

/-- `PROTOCOL_VERSION`. -/
def protocolVersion : String := "1.2.0"

/-- `SUPPORTED_PROTOCOL_VERSIONS`, newest first. -/
def supportedProtocolVersions : List String := ["1.2.0", "1.1.0", "1.0.0"]

/-- The supported versions that the peer offers as well. -/
def sharedVersions (peerVersions : List String) : List Version :=
  (supportedProtocolVersions.filterMap Version.parse).filter fun version =>
    (peerVersions.filterMap Version.parse).any (· == version)

/-- Selects the highest mutually supported version. -/
def negotiate (peerVersions : List String) : Option Version :=
  ((sharedVersions peerVersions).insertionSort fun a b => a.release ≤ b.release).getLast?

theorem mem_sharedVersions {peerVersions : List String} {version : Version} :
    version ∈ sharedVersions peerVersions ↔
      (∃ supported ∈ supportedProtocolVersions, Version.parse supported = some version) ∧
        ∃ offered ∈ peerVersions, Version.parse offered = some version := by
  simp only [sharedVersions, List.mem_filter, List.mem_filterMap, List.any_eq_true, beq_iff_eq,
    exists_eq_right]

/-- Versions are agreed on exactly when the peer offers a supported one. -/
theorem negotiate_isSome {peerVersions : List String} :
    (negotiate peerVersions).isSome = true ↔ ∃ version, version ∈ sharedVersions peerVersions := by
  rw [negotiate, List.getLast?_isSome]
  constructor
  · intro hsome
    obtain ⟨version, hversion⟩ := List.exists_mem_of_ne_nil _ hsome
    exact ⟨version, (List.mem_insertionSort _).mp hversion⟩
  · intro h
    obtain ⟨version, hversion⟩ := h
    exact List.ne_nil_of_mem ((List.mem_insertionSort _).mpr hversion)

/-- The version agreed on is shared, and no shared one is higher. -/
theorem negotiate_spec {peerVersions : List String} {version : Version}
    (h : negotiate peerVersions = some version) :
    version ∈ sharedVersions peerVersions ∧
      ∀ other ∈ sharedVersions peerVersions, other.release ≤ version.release := by
  obtain ⟨lower, hsorted⟩ := List.getLast?_eq_some_iff.mp h
  have hmem : ∀ other, other ∈ lower ++ [version] ↔ other ∈ sharedVersions peerVersions := by
    intro other
    rw [← hsorted, List.mem_insertionSort]
  have hpairs := List.pairwise_insertionSort (fun a b : Version => a.release ≤ b.release)
    (sharedVersions peerVersions)
  rw [hsorted, List.pairwise_append] at hpairs
  refine ⟨(hmem version).mp (by simp), fun other hother => ?_⟩
  rcases List.mem_append.mp ((hmem other).mpr hother) with hlower | hlast
  · exact hpairs.2.2 other hlower version (List.mem_singleton_self _)
  · rw [List.mem_singleton.mp hlast]

/-! ### Authentication -/

/-- An authenticated session, agreed terms included. -/
structure AuthenticatedSession where
  negotiatedProtocolVersion : String
  instanceId : Uuid
  tenantId : Uuid
  heartbeatIntervalSeconds : Nat
  configPullRequired : Bool
  deriving DecidableEq

/-- Why an authentication attempt produced no session. -/
inductive HandshakeFailure
  | rejected (code message : String)
  | cloudIdentityMismatch (expected actual : String)
  | cloudClosed
  | unexpected (received : String)
  | unsupportedVersion (offered : List String)
  | malformed (detail : String)
  deriving DecidableEq

def classifyTransport : TransportError → HandshakeFailure
  | .cloudIdentityMismatch expected actual => .cloudIdentityMismatch expected actual
  | other => .malformed other.describe

/-- One use of the transport. -/
inductive TransportRequest
  | recv
  | send (messageType : MessageType) (payload : HandshakeAuthenticate)

@[reducible] def TransportRequest.Reply : TransportRequest → Type
  | recv => Except TransportError (Option Frame)
  | send .. => Except TransportError Unit

abbrev HandshakeM := Prog TransportRequest.Reply

/-- The frames of a handshake, in order. -/
abbrev Transcript := List (Event TransportRequest.Reply)

def TransportRequest.ask (request : TransportRequest) : HandshakeM request.Reply :=
  Prog.call request

namespace Handshake

open TransportRequest

def awaitHello (expectedCloudId : String) :
    HandshakeM (Except HandshakeFailure HandshakeHello) := do
  match ← ask recv with
  | .error error => pure (.error (classifyTransport error))
  | .ok none => pure (.error .cloudClosed)
  | .ok (some frame) =>
      if frame.kind ≠ some .handshakeHello then pure (.error (.unexpected frame.messageType))
      else
        match frame.hello with
        | .error error => pure (.error (.malformed s!"handshake.hello: {error}"))
        | .ok hello =>
            match verifyCloudIdentity expectedCloudId (some hello.cloudId) with
            | .error error => pure (.error (classifyTransport error))
            | .ok () => pure (.ok hello)

-- the signature of a challenge under a key
variable (signChallenge : Nat → String → String)

/-- What the installation answers a welcome with. -/
def answer (identity : EnrolledIdentity) (key : Nat) (sessionProof : Option String)
    (hostname agentVersion : String) (capabilitySchemaVersion : Option String)
    (hello : HandshakeHello) : HandshakeAuthenticate where
  instanceId := identity.installationId
  protocolVersion
  agentVersion
  hostname
  challengeSignature := signChallenge key hello.challenge
  sessionProof
  capabilitySchemaVersion

/-- The cloud's reply to it. -/
def awaitReady (hello : HandshakeHello) :
    HandshakeM (Except HandshakeFailure AuthenticatedSession) := do
  match ← ask recv with
  | .error error => pure (.error (classifyTransport error))
  | .ok none => pure (.error .cloudClosed)
  | .ok (some reply) =>
      match reply.kind with
      | some .handshakeReady =>
          match reply.ready with
          | .error error => pure (.error (.malformed s!"handshake.ready: {error}"))
          | .ok ready => pure (.ok {
              negotiatedProtocolVersion := ready.negotiatedProtocolVersion
              instanceId := ready.instanceId
              tenantId := ready.tenantId
              heartbeatIntervalSeconds := hello.heartbeatIntervalSeconds
              configPullRequired := ready.configPullRequired })
      | some .handshakeReject =>
          match reply.reject with
          | .error error => pure (.error (.malformed s!"handshake.reject: {error}"))
          | .ok rejected => pure (.error (.rejected rejected.code rejected.message))
      | _ => pure (.error (.unexpected reply.messageType))

/-- Authenticates an already-enrolled installation. -/
def authenticate (expectedCloudId : String) (identity : EnrolledIdentity) (key : Nat)
    (sessionProof : Option String) (hostname agentVersion : String)
    (capabilitySchemaVersion : Option String) :
    HandshakeM (Except HandshakeFailure AuthenticatedSession) := do
  match ← awaitHello expectedCloudId with
  | .error failure => pure (.error failure)
  | .ok hello =>
      match negotiate hello.supportedProtocolVersions with
      | none => pure (.error (.unsupportedVersion hello.supportedProtocolVersions))
      | some _ =>
          let payload := answer signChallenge identity key sessionProof hostname agentVersion
            capabilitySchemaVersion hello
          match ← ask (send .handshakeAuthenticate payload) with
          | .error error => pure (.error (classifyTransport error))
          | .ok () => awaitReady hello

variable {signChallenge : Nat → String → String} {expectedCloudId : String}
  {identity : EnrolledIdentity} {key : Nat} {sessionProof : Option String}
  {hostname agentVersion : String} {capabilitySchemaVersion : Option String}
  {t : Transcript} {hello : HandshakeHello} {session : AuthenticatedSession}

/-- The welcome, as a frame of the transcript. -/
def Welcomed (expectedCloudId : String) (hello : HandshakeHello) (frame : Frame) : Prop :=
  frame.kind = some .handshakeHello ∧ frame.hello = .ok hello ∧ hello.cloudId = expectedCloudId

theorem runs_awaitHello (h : (awaitHello expectedCloudId).Runs t (.ok hello)) :
    ∃ frame, t = [⟨recv, .ok (some frame)⟩] ∧ Welcomed expectedCloudId hello frame := by
  simp only [awaitHello, ask, Prog.runs_call_bind] at h
  obtain ⟨reply, t', hrest, rfl⟩ := h
  rcases reply with error | _ | frame
  · cases hrest.2
  · cases hrest.2
  · dsimp only at hrest
    split_ifs at hrest with hkind
    · cases hrest.2
    · cases hhello : frame.hello with
      | error error =>
          rw [hhello] at hrest
          cases hrest.2
      | ok decoded =>
          rw [hhello] at hrest
          dsimp only [verifyCloudIdentity] at hrest
          split_ifs at hrest with hcloud
          · obtain ⟨rfl, hok⟩ := hrest
            cases hok
            exact ⟨frame, rfl, not_not.mp hkind, hhello, hcloud⟩
          · cases hrest.2

/-- The cloud's acceptance, as a frame of the transcript. -/
def Accepted (ready : HandshakeReady) (frame : Frame) : Prop :=
  frame.kind = some .handshakeReady ∧ frame.ready = .ok ready

theorem runs_awaitReady (h : (awaitReady hello).Runs t (.ok session)) :
    ∃ frame ready, t = [⟨recv, .ok (some frame)⟩] ∧ Accepted ready frame ∧
      session = ⟨ready.negotiatedProtocolVersion, ready.instanceId, ready.tenantId,
        hello.heartbeatIntervalSeconds, ready.configPullRequired⟩ := by
  simp only [awaitReady, ask, Prog.runs_call_bind] at h
  obtain ⟨reply, t', hrest, rfl⟩ := h
  rcases reply with error | _ | frame
  · cases hrest.2
  · cases hrest.2
  · dsimp only at hrest
    split at hrest
    next hkind =>
      cases hready : frame.ready with
      | error error =>
          rw [hready] at hrest
          cases hrest.2
      | ok ready =>
          rw [hready] at hrest
          obtain ⟨rfl, hok⟩ := hrest
          cases hok
          exact ⟨frame, ready, rfl, ⟨hkind, hready⟩, rfl⟩
    next =>
      cases hreject : frame.reject with
      | error error =>
          rw [hreject] at hrest
          cases hrest.2
      | ok rejected =>
          rw [hreject] at hrest
          cases hrest.2
    next => cases hrest.2

/-- The transcripts that end in a session. -/
theorem runs_authenticate
    (h : (authenticate signChallenge expectedCloudId identity key sessionProof hostname
      agentVersion capabilitySchemaVersion).Runs t (.ok session)) :
    ∃ welcome hello reply ready,
      t = [⟨recv, .ok (some welcome)⟩,
        ⟨send .handshakeAuthenticate (answer signChallenge identity key sessionProof hostname
          agentVersion capabilitySchemaVersion hello), .ok ()⟩,
        ⟨recv, .ok (some reply)⟩] ∧
      Welcomed expectedCloudId hello welcome ∧
      (negotiate hello.supportedProtocolVersions).isSome = true ∧ Accepted ready reply ∧
      session = ⟨ready.negotiatedProtocolVersion, ready.instanceId, ready.tenantId,
        hello.heartbeatIntervalSeconds, ready.configPullRequired⟩ := by
  obtain ⟨t₁, welcomed, t₂, hhello, hrest, rfl⟩ := Prog.runs_bind.mp h
  rcases welcomed with failure | hello
  · cases hrest.2
  · obtain ⟨welcome, rfl, hwelcome⟩ := runs_awaitHello hhello
    dsimp only at hrest
    cases hagreed : negotiate hello.supportedProtocolVersions with
    | none =>
        rw [hagreed] at hrest
        cases hrest.2
    | some version =>
        rw [hagreed] at hrest
        simp only [ask, Prog.runs_call_bind] at hrest
        obtain ⟨sent, t', hreply, rfl⟩ := hrest
        rcases sent with error | _
        · cases hreply.2
        · obtain ⟨reply, ready, rfl, hready, rfl⟩ := runs_awaitReady hreply
          exact ⟨welcome, hello, reply, ready, rfl, hwelcome, by rw [hagreed]; rfl, hready, rfl⟩

/-- The terms of a session, by its transcript: a welcome of the expected cloud that offers a version
the installation supports, an answer that names the stored installation and signs the challenge of
the welcome, and an acceptance, whose version, instance and tenant are the session's. -/
def CloudTerms (signChallenge : Nat → String → String) (expectedCloudId : String)
    (identity : EnrolledIdentity) (key : Nat) (t : Transcript)
    (session : AuthenticatedSession) : Prop :=
  ∃ welcome hello payload reply ready,
    t = [⟨recv, .ok (some welcome)⟩, ⟨send .handshakeAuthenticate payload, .ok ()⟩,
      ⟨recv, .ok (some reply)⟩] ∧
    Welcomed expectedCloudId hello welcome ∧
    (∃ offered ∈ hello.supportedProtocolVersions, ∃ supported ∈ supportedProtocolVersions,
      ∃ version, Version.parse offered = some version ∧ Version.parse supported = some version) ∧
    payload.instanceId = identity.installationId ∧
    payload.challengeSignature = signChallenge key hello.challenge ∧
    Accepted ready reply ∧
    session.negotiatedProtocolVersion = ready.negotiatedProtocolVersion ∧
    session.instanceId = ready.instanceId ∧ session.tenantId = ready.tenantId

/-- **A session is on the cloud's terms.** -/
theorem session_on_cloud_terms
    (h : (authenticate signChallenge expectedCloudId identity key sessionProof hostname
      agentVersion capabilitySchemaVersion).Runs t (.ok session)) :
    CloudTerms signChallenge expectedCloudId identity key t session := by
  obtain ⟨welcome, hello, reply, ready, rfl, hwelcome, hagreed, hready, rfl⟩ := runs_authenticate h
  obtain ⟨version, hshared⟩ := negotiate_isSome.mp hagreed
  obtain ⟨⟨supported, hsupported, hparsed⟩, offered, hoffered, hparsed'⟩ :=
    mem_sharedVersions.mp hshared
  exact ⟨welcome, hello, _, reply, ready, rfl, hwelcome,
    ⟨offered, hoffered, supported, hsupported, version, hparsed', hparsed⟩, rfl, rfl, hready, rfl,
    rfl, rfl⟩

/-! #### A session on other terms -/

/-- A transport on which nothing fails, and the cloud sends the frames. -/
def scripted : (request : TransportRequest) → List Frame → request.Reply × List Frame
  | .recv, [] => (.ok none, [])
  | .recv, frame :: frames => (.ok (some frame), frames)
  | .send .., frames => (.ok (), frames)

def welcome : Frame where
  messageType := "handshake.hello"
  hello := .ok ⟨"argus-cloud", ["1.0.0"], "nonce", 20⟩
  ready := .error "missing field"
  reject := .error "missing field"

/-- An acceptance for another tenant's instance, in a version that nobody named before. -/
def acceptance : Frame where
  messageType := "handshake.ready"
  hello := .error "missing field"
  ready := .ok ⟨"9.9.9", 2, 8, false⟩
  reject := .error "missing field"

def enrolled : EnrolledIdentity := ⟨1, 7, "host", 0, "unnegotiated", ⟨0⟩⟩

def attempt : HandshakeM (Except HandshakeFailure AuthenticatedSession) :=
  authenticate (fun _ challenge => challenge) "argus-cloud" enrolled 0 none "host" "1.0.0" none

def accepted : AuthenticatedSession := ⟨"9.9.9", 2, 8, 20, false⟩

/-- The transcript of the attempt. -/
def transcript : Transcript := (attempt.play scripted [welcome, acceptance]).1

theorem attempt_runs : attempt.Runs transcript (.ok accepted) := by
  have hruns := Prog.play_runs scripted attempt [welcome, acceptance]
  have hresult : (attempt.play scripted [welcome, acceptance]).2.1 = .ok accepted := by rfl
  rw [hresult] at hruns
  exact hruns

theorem attempt_on_cloud_terms : attempt.Runs transcript (.ok accepted) ∧
    CloudTerms (fun _ challenge => challenge) "argus-cloud" enrolled 0 transcript accepted :=
  ⟨attempt_runs, session_on_cloud_terms attempt_runs⟩

/-- What the installation declared. -/
def declared (t : Transcript) : List String :=
  t.filterMap fun event =>
    match event with
    | ⟨.send _ payload, _⟩ => some payload.protocolVersion
    | _ => none

/-- What the cloud welcomed with. -/
def welcomes (t : Transcript) : List HandshakeHello :=
  t.filterMap fun event =>
    match event with
    | ⟨.recv, .ok (some frame)⟩ => frame.hello.toOption
    | _ => none

/-- The terms are those of the welcome and of the enrollment. -/
structure AgreedTerms (expectedCloudId : String) (identity : EnrolledIdentity) (t : Transcript)
    (session : AuthenticatedSession) : Prop where
  cloud : ∃ hello ∈ welcomes t, hello.cloudId = expectedCloudId ∧
    ∀ version ∈ declared t, version ∈ hello.supportedProtocolVersions
  version : session.negotiatedProtocolVersion ∈ supportedProtocolVersions
  instanceId : session.instanceId = identity.installationId
  tenantId : session.tenantId = identity.tenantId

/-- **The cloud sets the terms**: here an unoffered version is declared, and the session is in a
version the installation does not support, for another tenant. -/
theorem cloud_sets_terms :
    ¬ ∀ signChallenge expectedCloudId identity key sessionProof hostname agentVersion
        capabilitySchemaVersion t session,
      (authenticate signChallenge expectedCloudId identity key sessionProof hostname agentVersion
          capabilitySchemaVersion).Runs t (.ok session) →
        AgreedTerms expectedCloudId identity t session := by
  intro h
  have hterms := h _ _ _ _ _ _ _ _ _ _ attempt_runs
  exact absurd hterms.tenantId (by decide)

end Handshake
end Argus
