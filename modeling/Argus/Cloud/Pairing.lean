import Argus.Cloud.Handshake
import Argus.Executor.Privileged

/-!
# Pairing

An installation redeems an operator's code: the cloud welcomes, the installation redeems, and the
cloud grants or denies.

The cloud may send a heartbeat at any time. A wait of the pairing exchange answers heartbeats and
skips them; a wait of the handshake takes the next frame as it comes. `heartbeats_harmless_iff`
says when the difference shows.
-/

namespace Argus

open Interaction

/-- `PairingRedeemPayload`, with the key whose public half it carries. -/
structure PairingRedeem where
  code : String
  protocolVersion : String
  agentVersion : String
  hostname : String
  publicKey : Nat
  challengeSignature : String
  capabilitySchemaVersion : Option String
  deriving DecidableEq

/-- A frame, with what its payload decodes to as an answer to a redemption. -/
structure PairingFrame extends Frame where
  messageId : Uuid
  correlationId : Option Uuid
  granted : Except String PairingGranted
  denied : Except String PairingDenialCode

inductive CloudError
  | transport (error : TransportError)
  | protocol (detail : String)
  deriving DecidableEq

/-- What an installation sends while it pairs. -/
inductive PairingMessage
  | redeem (payload : PairingRedeem)
  | pong (correlationId : Option Uuid)
  deriving DecidableEq

/-- What the transport delivers. -/
abbrev Received := Except TransportError PairingFrame

/-- The channel of one exchange: what is still to be delivered before the cloud closes, and what was
sent. -/
structure Channel where
  inbound : List Received
  outbound : List PairingMessage

abbrev PairingM := ExceptT CloudError (StateM Channel)

/-- A heartbeat of the cloud. -/
def IsPing : Received → Prop
  | .ok frame => frame.kind = some .ping
  | .error _ => False

namespace Pairing

def minPairingCodeLen : Nat := 8

def maxPairingCodeLen : Nat := 64

def maxHostnameLen : Nat := 255

def maxAgentVersionLen : Nat := 50

/-- Rejects a code that cannot possibly be valid, before spending a connection. -/
def validateCode (code : String) : Except CloudError Unit :=
  let len := code.utf8ByteSize
  if ¬ (minPairingCodeLen ≤ len ∧ len ≤ maxPairingCodeLen) then
    .error (.protocol
      (s!"pairing code must be {minPairingCodeLen}–{maxPairingCodeLen} characters, " ++
        s!"got {len}"))
  else if trim code ≠ code ∨ code.isEmpty then
    .error (.protocol "pairing code must not be empty or padded with whitespace")
  else .ok ()

def validateIdentityFields (hostname agentVersion : String) : Except CloudError Unit :=
  if hostname.isEmpty ∨ maxHostnameLen < hostname.utf8ByteSize then
    .error (.protocol s!"hostname must be 1–{maxHostnameLen} characters")
  else if agentVersion.isEmpty ∨ maxAgentVersionLen < agentVersion.utf8ByteSize then
    .error (.protocol s!"agent version must be 1–{maxAgentVersionLen} characters")
  else .ok ()

-- whether the transport takes a message, and the signature of a challenge under a key
variable (accept : PairingMessage → Except TransportError Unit)
  (signChallenge : Nat → String → String)

/-- The acknowledgement of a heartbeat. -/
def pong (frame : PairingFrame) : PairingMessage :=
  .pong (frame.correlationId.or (some frame.messageId))

/-- Delivers until a frame that is not a heartbeat, answering the heartbeats on the way. -/
def deliver (outbound : List PairingMessage) :
    List Received → Except CloudError PairingFrame × Channel
  | [] => (.error (.transport .closed), ⟨[], outbound⟩)
  | .error error :: inbound => (.error (.transport error), ⟨inbound, outbound⟩)
  | .ok frame :: inbound =>
      if frame.kind = some .ping then
        match accept (pong frame) with
        | .error error => (.error (.transport error), ⟨inbound, outbound⟩)
        | .ok () => deliver (outbound ++ [pong frame]) inbound
      else (.ok frame, ⟨inbound, outbound⟩)

/-- Receives one protocol frame, answering the cloud's heartbeat on the way. -/
def recvHeartbeatAware : PairingM PairingFrame :=
  fun channel => deliver accept channel.outbound channel.inbound

def sendJson (message : PairingMessage) : PairingM Unit := fun channel =>
  match accept message with
  | .error error => (.error (.transport error), channel)
  | .ok () => (.ok (), { channel with outbound := channel.outbound ++ [message] })

def decode {α : Type} (frame : PairingFrame) (payload : Except String α) : Except CloudError α :=
  payload.mapError fun error =>
    .protocol s!"malformed '{frame.messageType}' payload: {error}"

/-- The welcome of the expected cloud. -/
def readHello (expectedCloudId : String) (frame : PairingFrame) :
    Except CloudError HandshakeHello := do
  if frame.kind ≠ some .handshakeHello then
    throw (.protocol s!"expected handshake.hello, received '{frame.messageType}'")
  let hello ← decode frame frame.hello
  (verifyCloudIdentity expectedCloudId (some hello.cloudId)).mapError CloudError.transport
  return hello

def awaitHello (expectedCloudId : String) : PairingM HandshakeHello := do
  let frame ← recvHeartbeatAware accept
  readHello expectedCloudId frame

/-- The cloud's answer to a redemption. -/
def readReply (reply : PairingFrame) : Except CloudError EnrollmentOutcome :=
  match reply.kind with
  | some .pairingGranted => do
      let granted ← decode reply reply.granted
      return .granted granted
  | some .pairingDenied => do
      let denied ← decode reply reply.denied
      return .denied denied
  | some _ => throw (.protocol
      s!"expected pairing.granted or pairing.denied, received '{reply.messageType}'")
  | none => throw (.protocol
      s!"expected pairing.granted or pairing.denied, received unknown type '{reply.messageType}'")

/-- Sends `pairing.redeem` and interprets the cloud's reply. -/
def enroll (code hostname agentVersion expectedCloudId : String) (key : Nat) :
    PairingM EnrollmentOutcome := do
  validateCode code
  validateIdentityFields hostname agentVersion
  let hello ← awaitHello accept expectedCloudId
  sendJson accept (.redeem {
    code
    protocolVersion
    agentVersion
    hostname
    publicKey := key
    challengeSignature := signChallenge key hello.challenge
    capabilitySchemaVersion := none })
  let reply ← recvHeartbeatAware accept
  readReply reply

/-! ### Heartbeats -/

/-- A transport delivers the frames of another, and heartbeats between them. -/
inductive Inserted : List Received → List Received → Prop
  | nil : Inserted [] []
  | keep (entry : Received) {inbound inbound' : List Received} :
      Inserted inbound inbound' → Inserted (entry :: inbound) (entry :: inbound')
  | ping (entry : Received) {inbound inbound' : List Received} :
      IsPing entry → Inserted inbound inbound' → Inserted inbound (entry :: inbound')

variable {accept : PairingMessage → Except TransportError Unit} {α β : Type}

/-- A wait answers the heartbeats before the frame it takes, in order. -/
theorem deliver_pings (hpong : ∀ id, accept (.pong id) = .ok ()) (pings : List PairingFrame)
    (hpings : ∀ frame ∈ pings, frame.kind = some .ping) (outbound : List PairingMessage)
    (inbound : List Received) :
    deliver accept outbound (pings.map .ok ++ inbound) =
      deliver accept (outbound ++ pings.map pong) inbound := by
  induction pings generalizing outbound with
  | nil => simp
  | cons frame pings ih =>
      obtain ⟨hframe, hrest⟩ := List.forall_mem_cons.mp hpings
      simp only [List.map_cons, List.cons_append, deliver, hframe, if_true, pong, hpong]
      rw [ih hrest]
      simp

theorem run_bind (m : PairingM α) (next : α → PairingM β) (channel : Channel) :
    (m >>= next).run channel =
      match m.run channel with
      | (.ok a, left) => (next a).run left
      | (.error error, left) => (.error error, left) := by
  rw [ExceptT.run_bind]
  show StateT.bind m.run _ channel = _
  rcases hm : m.run channel with ⟨error | a, left⟩
  · simp only [StateT.bind, hm]
    rfl
  · simp only [StateT.bind, hm]
    rfl

/-- Heartbeats do not show in the result of a step, nor in what it leaves to be delivered. -/
def HeartbeatBlind (m : PairingM α) : Prop :=
  ∀ channel channel' : Channel, Inserted channel.inbound channel'.inbound →
    (m.run channel').1 = (m.run channel).1 ∧
      Inserted (m.run channel).2.inbound (m.run channel').2.inbound

namespace HeartbeatBlind

theorem lift (result : Except CloudError α) : HeartbeatBlind (liftM result : PairingM α) := by
  intro channel channel' h
  cases result <;> exact ⟨rfl, h⟩

theorem bind {m : PairingM α} {next : α → PairingM β} (hm : HeartbeatBlind m)
    (hnext : ∀ a, HeartbeatBlind (next a)) : HeartbeatBlind (m >>= next) := by
  intro channel channel' h
  obtain ⟨hresult, hleft⟩ := hm channel channel' h
  rw [run_bind, run_bind]
  rcases hm' : m.run channel' with ⟨result', left'⟩
  rcases hm₀ : m.run channel with ⟨result, left⟩
  rw [hm', hm₀] at hresult hleft
  dsimp only at hresult hleft
  subst hresult
  cases result' with
  | error error => exact ⟨rfl, hleft⟩
  | ok a => exact hnext a _ _ hleft

end HeartbeatBlind

theorem recvHeartbeatAware_blind (hpong : ∀ id, accept (.pong id) = .ok ()) :
    HeartbeatBlind (recvHeartbeatAware accept) := by
  rintro ⟨inbound, outbound⟩ ⟨inbound', outbound'⟩ h
  change Inserted inbound inbound' at h
  show (deliver accept outbound' inbound').1 = (deliver accept outbound inbound).1 ∧
    Inserted (deliver accept outbound inbound).2.inbound
      (deliver accept outbound' inbound').2.inbound
  induction h generalizing outbound outbound' with
  | nil => exact ⟨rfl, .nil⟩
  | keep entry h ih =>
      cases entry with
      | error error => exact ⟨rfl, h⟩
      | ok frame =>
          by_cases hkind : frame.kind = some .ping
          · simpa only [deliver, if_pos hkind, pong, hpong] using ih _ _
          · simpa only [deliver, if_neg hkind, true_and] using h
  | ping entry hping h ih =>
      cases entry with
      | error error => exact hping.elim
      | ok frame =>
          have hkind : frame.kind = some .ping := hping
          simpa only [deliver, if_pos hkind, pong, hpong] using ih _ _

theorem sendJson_blind (message : PairingMessage) : HeartbeatBlind (sendJson accept message) := by
  intro channel channel' h
  show (sendJson accept message channel').1 = (sendJson accept message channel).1 ∧ _
  unfold sendJson
  cases accept message <;> exact ⟨rfl, h⟩

variable {signChallenge : Nat → String → String} {code hostname agentVersion : String}
  {expectedCloudId : String} {key : Nat}

/-- **Pairing skips heartbeats.** -/
theorem enroll_blind (hpong : ∀ id, accept (.pong id) = .ok ()) :
    HeartbeatBlind
      (enroll accept signChallenge code hostname agentVersion expectedCloudId key) := by
  have hrecv := recvHeartbeatAware_blind hpong
  refine (HeartbeatBlind.lift _).bind fun _ => (HeartbeatBlind.lift _).bind fun _ => ?_
  refine (hrecv.bind fun frame => .lift _).bind fun hello => ?_
  exact (sendJson_blind _).bind fun _ => hrecv.bind fun reply => .lift _

end Pairing

/-! ### The waits of the handshake -/

theorem MessageType.fromStr_eq_ping {name : String} :
    MessageType.fromStr name = some .ping ↔ name = "ping" := by
  constructor
  · intro h
    unfold MessageType.fromStr at h
    split at h <;> first | rfl | cases h
  · rintro rfl
    rfl

namespace Handshake

open TransportRequest Pairing

/-- A transport that delivers what it has. -/
def attend (accept : HandshakeAuthenticate → Except TransportError Unit) :
    (request : TransportRequest) → List Received → request.Reply × List Received
  | .recv, [] => (.ok none, [])
  | .recv, .ok frame :: inbound => (.ok (some frame.toFrame), inbound)
  | .recv, .error error :: inbound => (.error error, inbound)
  | .send _ payload, inbound => (accept payload, inbound)

theorem classifyTransport_ne_unexpected (error : TransportError) (received : String) :
    classifyTransport error ≠ .unexpected received := by
  cases error <;> simp [classifyTransport]

theorem unexpected_eq_ping (frame : PairingFrame) :
    HandshakeFailure.unexpected frame.messageType = .unexpected "ping" ↔ IsPing (.ok frame) := by
  rw [HandshakeFailure.unexpected.injEq, ← MessageType.fromStr_eq_ping]
  rfl

theorem not_isPing {frame : PairingFrame} {type : MessageType} (hkind : frame.kind = some type)
    (hne : type ≠ .ping) : ¬ IsPing (.ok frame) :=
  fun hping => hne (Option.some.inj (hkind.symm.trans hping))

variable {accept : HandshakeAuthenticate → Except TransportError Unit} {expectedCloudId : String}
  {frame : PairingFrame}

theorem exec_awaitHello_welcomed {hello : HandshakeHello}
    (h : Welcomed expectedCloudId hello frame.toFrame) (inbound : List Received) :
    Prog.exec (attend accept) (awaitHello expectedCloudId) (.ok frame :: inbound) =
      (.ok hello, inbound) := by
  obtain ⟨hkind, hhello, hcloud⟩ := h
  simp only [awaitHello, TransportRequest.ask, Prog.exec_call_bind, attend, hkind, hhello,
    verifyCloudIdentity, hcloud, ne_eq, not_true_eq_false, if_false, if_true]
  rfl

variable (accept) in
/-- A frame that is no welcome ends the wait, and only a heartbeat ends it as a heartbeat. -/
theorem exec_awaitHello_unwelcome
    (h : ∀ hello, ¬ Welcomed expectedCloudId hello frame.toFrame) :
    ∃ failure, (failure = .unexpected "ping" ↔ IsPing (.ok frame)) ∧ ∀ inbound,
      Prog.exec (attend accept) (awaitHello expectedCloudId) (.ok frame :: inbound) =
        (.error failure, inbound) := by
  simp only [awaitHello, TransportRequest.ask, Prog.exec_call_bind, attend]
  by_cases hkind : frame.kind = some .handshakeHello
  · have hping := not_isPing hkind (by decide)
    simp only [hping, iff_false, hkind, ne_eq, not_true_eq_false, if_false]
    cases hhello : frame.hello with
    | error error => exact ⟨_, by simp, fun _ => rfl⟩
    | ok hello =>
        have hcloud : hello.cloudId ≠ expectedCloudId := fun hcloud =>
          h hello ⟨hkind, hhello, hcloud⟩
        simp only [verifyCloudIdentity, hcloud, if_false]
        exact ⟨_, classifyTransport_ne_unexpected _ _, fun _ => rfl⟩
  · simp only [hkind, ne_eq, not_false_eq_true, if_true]
    exact ⟨_, unexpected_eq_ping frame, fun _ => rfl⟩

/-- The second wait takes one frame. -/
theorem exec_awaitReady_take (hello : HandshakeHello) (inbound : List Received) :
    (Prog.exec (attend accept) (awaitReady hello) inbound).1 =
      (Prog.exec (attend accept) (awaitReady hello) (inbound.take 1)).1 := by
  rcases inbound with _ | ⟨error | frame, inbound⟩
  · rfl
  · rfl
  · simp only [awaitReady, TransportRequest.ask, Prog.exec_call_bind, List.take_succ_cons,
      List.take_zero, attend]
    split
    next => cases frame.ready <;> rfl
    next => cases frame.reject <;> rfl
    next => rfl

/-- Only a heartbeat ends the second wait as a heartbeat. -/
theorem exec_awaitReady_ping (hello : HandshakeHello) (inbound : List Received) :
    (Prog.exec (attend accept) (awaitReady hello) inbound).1 = .error (.unexpected "ping") ↔
      ∃ entry ∈ inbound.take 1, IsPing entry := by
  rcases inbound with _ | ⟨error | frame, inbound⟩
  · constructor
    · intro h
      cases h
    · rintro ⟨entry, hentry, -⟩
      cases hentry
  · constructor
    · intro h
      exact absurd (Except.error.inj h) (classifyTransport_ne_unexpected error _)
    · rintro ⟨entry, hentry, hping⟩
      cases List.mem_singleton.mp hentry
      exact hping.elim
  · simp only [awaitReady, TransportRequest.ask, Prog.exec_call_bind, attend, List.take_succ_cons,
      List.take_zero, List.mem_singleton, exists_eq_left]
    split
    next hkind =>
      refine iff_of_false ?_ (not_isPing hkind (by decide))
      cases frame.ready <;> exact fun h => by cases h
    next hkind =>
      refine iff_of_false ?_ (not_isPing hkind (by decide))
      cases frame.reject <;> exact fun h => by cases h
    next =>
      rw [← unexpected_eq_ping]
      exact ⟨Except.error.inj, congrArg _⟩

/-- One authentication: its arguments, and whether the transport takes the answer to a welcome. -/
structure Authentication where
  signChallenge : Nat → String → String
  expectedCloudId : String
  identity : EnrolledIdentity
  key : Nat
  sessionProof : Option String
  hostname : String
  agentVersion : String
  capabilitySchemaVersion : Option String
  accept : HandshakeAuthenticate → Except TransportError Unit

namespace Authentication

variable (a : Authentication)

def answer (hello : HandshakeHello) : HandshakeAuthenticate :=
  Handshake.answer a.signChallenge a.identity a.key a.sessionProof a.hostname a.agentVersion
    a.capabilitySchemaVersion hello

/-- What it comes to over a transport. -/
def outcome (inbound : List Received) : Except HandshakeFailure AuthenticatedSession :=
  (Prog.exec (attend a.accept) (authenticate a.signChallenge a.expectedCloudId a.identity a.key
    a.sessionProof a.hostname a.agentVersion a.capabilitySchemaVersion) inbound).1

/-- The frame is a welcome that the installation gets to answer. -/
def Answered (frame : Frame) (hello : HandshakeHello) : Prop :=
  Welcomed a.expectedCloudId hello frame ∧
    (negotiate hello.supportedProtocolVersions).isSome = true ∧ a.accept (a.answer hello) = .ok ()

/-- The frames it takes: one, and another after a welcome that it answers. -/
def taken : List Received → List Received
  | .ok frame :: inbound =>
      match frame.hello with
      | .ok hello =>
          if frame.kind = some .handshakeHello ∧ hello.cloudId = a.expectedCloudId ∧
              (negotiate hello.supportedProtocolVersions).isSome ∧
              (a.accept (a.answer hello)).isOk
          then .ok frame :: inbound.take 1
          else [.ok frame]
      | .error _ => [.ok frame]
  | inbound => inbound.take 1

variable {a} {hello : HandshakeHello} {inbound inbound' : List Received}

theorem taken_answered (h : a.Answered frame.toFrame hello) :
    a.taken (.ok frame :: inbound) = .ok frame :: inbound.take 1 := by
  obtain ⟨⟨hkind, hhello, hcloud⟩, hagreed, haccept⟩ := h
  simp only [taken, hhello, haccept]
  exact if_pos ⟨hkind, hcloud, hagreed, rfl⟩

theorem taken_unanswered (h : ∀ hello, ¬ a.Answered frame.toFrame hello) :
    a.taken (.ok frame :: inbound) = [.ok frame] := by
  cases hhello : frame.hello with
  | error error => simp only [taken, hhello]
  | ok hello =>
      simp only [taken, hhello]
      refine if_neg ?_
      rintro ⟨hkind, hcloud, hagreed, haccept⟩
      refine h hello ⟨⟨hkind, hhello, hcloud⟩, hagreed, ?_⟩
      cases hresult : a.accept (a.answer hello) with
      | error error =>
          rw [hresult] at haccept
          cases haccept
      | ok => rfl

theorem outcome_answered (h : a.Answered frame.toFrame hello) :
    a.outcome (.ok frame :: inbound) =
      (Prog.exec (attend a.accept) (awaitReady hello) inbound).1 := by
  obtain ⟨hwelcome, hagreed, haccept⟩ := h
  obtain ⟨version, hversion⟩ := Option.isSome_iff_exists.mp hagreed
  rw [answer] at haccept
  rw [outcome, authenticate, Prog.exec_bind, exec_awaitHello_welcomed hwelcome]
  simp only [hversion, TransportRequest.ask, Prog.exec_call_bind, attend, haccept]

/-- A welcome that the installation does not get to answer ends the authentication. -/
theorem outcome_unanswered (h : ∀ hello, ¬ a.Answered frame.toFrame hello) :
    ∃ failure, (failure = .unexpected "ping" ↔ IsPing (.ok frame)) ∧
      ∀ inbound, a.outcome (.ok frame :: inbound) = .error failure := by
  simp only [outcome, authenticate, Prog.exec_bind]
  by_cases hwelcome : ∃ hello, Welcomed a.expectedCloudId hello frame.toFrame
  · obtain ⟨hello, hwelcome⟩ := hwelcome
    have hping := not_isPing hwelcome.1 (by decide)
    simp only [exec_awaitHello_welcomed hwelcome, hping, iff_false]
    cases hagreed : negotiate hello.supportedProtocolVersions with
    | none => exact ⟨_, by simp, fun _ => rfl⟩
    | some version =>
        cases haccept : a.accept (a.answer hello) with
        | error error =>
            rw [answer] at haccept
            simp only [TransportRequest.ask, Prog.exec_call_bind, attend, haccept]
            exact ⟨_, classifyTransport_ne_unexpected error _, fun _ => rfl⟩
        | ok => exact absurd ⟨hwelcome, by rw [hagreed]; rfl, haccept⟩ (h hello)
  · obtain ⟨failure, hfailure, hexec⟩ :=
      exec_awaitHello_unwelcome a.accept (not_exists.mp hwelcome)
    refine ⟨failure, hfailure, fun inbound => ?_⟩
    rw [hexec]
    rfl

/-- An authentication comes to what the frames it takes come to. -/
theorem outcome_taken (inbound : List Received) :
    a.outcome inbound = a.outcome (a.taken inbound) := by
  rcases inbound with _ | ⟨error | frame, inbound⟩
  · rfl
  · rfl
  · by_cases h : ∃ hello, a.Answered frame.toFrame hello
    · obtain ⟨hello, h⟩ := h
      rw [taken_answered h, outcome_answered h, outcome_answered h, exec_awaitReady_take]
    · obtain ⟨failure, -, hfailure⟩ := outcome_unanswered (not_exists.mp h)
      rw [taken_unanswered (not_exists.mp h), hfailure, hfailure]

/-- An authentication fails on a heartbeat exactly when it takes one. -/
theorem outcome_ping (inbound : List Received) :
    a.outcome inbound = .error (.unexpected "ping") ↔ ∃ entry ∈ a.taken inbound, IsPing entry := by
  rcases inbound with _ | ⟨error | frame, inbound⟩
  · constructor
    · intro h
      cases h
    · rintro ⟨entry, hentry, -⟩
      cases hentry
  · constructor
    · intro h
      exact absurd (Except.error.inj h) (classifyTransport_ne_unexpected error _)
    · rintro ⟨entry, hentry, hping⟩
      cases List.mem_singleton.mp hentry
      exact hping.elim
  · by_cases h : ∃ hello, a.Answered frame.toFrame hello
    · obtain ⟨hello, h⟩ := h
      have hping := not_isPing h.1.1 (by decide)
      rw [taken_answered h, outcome_answered h, exec_awaitReady_ping]
      simp only [List.mem_cons, exists_eq_or_imp, hping, false_or]
    · obtain ⟨failure, hping, hfailure⟩ := outcome_unanswered (not_exists.mp h)
      rw [taken_unanswered (not_exists.mp h), hfailure, Except.error.injEq, hping]
      simp only [List.mem_singleton, exists_eq_left]

/-- Heartbeats leave alone what an authentication takes, or it takes one of them. -/
theorem taken_inserted (h : Inserted inbound inbound') :
    a.taken inbound' = a.taken inbound ∨ ∃ entry ∈ a.taken inbound', IsPing entry := by
  cases h with
  | nil => exact .inl rfl
  | ping entry hping h =>
      rcases entry with error | frame
      · exact hping.elim
      · have hne : ∀ hello, ¬ a.Answered frame.toFrame hello := fun hello h =>
          not_isPing h.1.1 (by decide) hping
        exact .inr ⟨_, by rw [taken_unanswered hne]; exact List.mem_singleton_self _, hping⟩
  | keep entry h =>
      rcases entry with error | frame
      · exact .inl rfl
      · by_cases hanswered : ∃ hello, a.Answered frame.toFrame hello
        · obtain ⟨hello, hanswered⟩ := hanswered
          rw [taken_answered hanswered, taken_answered hanswered]
          cases h with
          | nil => exact .inl rfl
          | keep entry h => exact .inl rfl
          | ping entry hping h =>
              exact .inr ⟨entry, List.mem_cons_of_mem _ (List.mem_singleton_self _), hping⟩
        · have hne := not_exists.mp hanswered
          exact .inl (by rw [taken_unanswered hne, taken_unanswered hne])

/-- **Authentication is exposed to heartbeats**: one before a frame that it takes changes what it
comes to, unless the cloud's own frames there hold one already. -/
theorem outcome_inserted_iff (h : Inserted inbound inbound') :
    a.outcome inbound' = a.outcome inbound ↔
      a.taken inbound' = a.taken inbound ∨ ∃ entry ∈ a.taken inbound, IsPing entry := by
  constructor
  · intro heq
    refine (taken_inserted h).imp_right fun hping => ?_
    exact (outcome_ping inbound).mp (heq ▸ (outcome_ping inbound').mpr hping)
  · rintro (htaken | hping)
    · rw [outcome_taken inbound', htaken, ← outcome_taken]
    · rcases taken_inserted (a := a) h with htaken | hping'
      · rw [outcome_taken inbound', htaken, ← outcome_taken]
      · rw [(outcome_ping inbound').mpr hping', (outcome_ping inbound).mpr hping]

end Authentication
end Handshake

/-! ### Both exchanges -/

namespace Pairing

/-- One pairing: its arguments, and whether the transport takes a message. -/
structure Redemption where
  signChallenge : Nat → String → String
  code : String
  hostname : String
  agentVersion : String
  expectedCloudId : String
  key : Nat
  accept : PairingMessage → Except TransportError Unit

/-- What it comes to over a transport. -/
def Redemption.outcome (redemption : Redemption) (inbound : List Received) :
    Except CloudError EnrollmentOutcome :=
  ((enroll redemption.accept redemption.signChallenge redemption.code redemption.hostname
    redemption.agentVersion redemption.expectedCloudId redemption.key).run ⟨inbound, []⟩).1

/-- Neither exchange shows that the cloud inserted heartbeats. -/
structure HeartbeatsHarmless (redemption : Redemption) (authentication : Handshake.Authentication)
    (inbound inbound' : List Received) : Prop where
  enroll : redemption.outcome inbound' = redemption.outcome inbound
  authenticate : authentication.outcome inbound' = authentication.outcome inbound

/-- **Heartbeats are harmless exactly as long as authentication takes none of those inserted**, or
took one before. -/
theorem heartbeats_harmless_iff (redemption : Redemption)
    (authentication : Handshake.Authentication) (inbound inbound' : List Received)
    (hpong : ∀ id, redemption.accept (.pong id) = .ok ()) (h : Inserted inbound inbound') :
    HeartbeatsHarmless redemption authentication inbound inbound' ↔
      authentication.taken inbound' = authentication.taken inbound ∨
        ∃ entry ∈ authentication.taken inbound, IsPing entry := by
  rw [← Handshake.Authentication.outcome_inserted_iff h]
  refine ⟨HeartbeatsHarmless.authenticate, fun hauthenticate => ⟨?_, hauthenticate⟩⟩
  exact (enroll_blind hpong ⟨inbound, []⟩ ⟨inbound', []⟩ h).1

/-! #### A heartbeat before the welcome -/

/-- A frame without answers to a redemption. -/
def plain (frame : Frame) (messageId : Uuid) : PairingFrame :=
  { frame with
    messageId
    correlationId := none
    granted := .error "missing field"
    denied := .error "missing field" }

def heartbeat : PairingFrame :=
  plain ⟨"ping", .error "missing field", .error "missing field", .error "missing field"⟩ 7

/-- The cloud welcomes the installation and accepts it. -/
def undisturbed : List Received :=
  [.ok (plain Handshake.welcome 1), .ok (plain Handshake.acceptance 2)]

def redemption : Redemption :=
  ⟨fun _ challenge => challenge, "ARGUS-7F3K", "host", "1.0.0", "argus-cloud", 0, fun _ => .ok ()⟩

def authentication : Handshake.Authentication :=
  ⟨fun _ challenge => challenge, "argus-cloud", Handshake.enrolled, 0, none, "host", "1.0.0", none,
    fun _ => .ok ()⟩

theorem undisturbed_inserted : Inserted undisturbed (.ok heartbeat :: undisturbed) :=
  .ping (.ok heartbeat) rfl (.keep _ (.keep _ .nil))

theorem heartbeat_after_acceptance :
    HeartbeatsHarmless redemption authentication undisturbed (undisturbed ++ [.ok heartbeat]) :=
  (heartbeats_harmless_iff redemption authentication _ _ (fun _ => rfl)
    (.keep _ (.keep _ (.ping (.ok heartbeat) rfl .nil)))).mpr (.inl (by rfl))

/-- **A heartbeat aborts an authentication** that would have been accepted. -/
theorem heartbeat_aborts :
    ¬ ∀ redemption authentication inbound inbound',
        (∀ id, redemption.accept (.pong id) = .ok ()) → Inserted inbound inbound' →
          HeartbeatsHarmless redemption authentication inbound inbound' := by
  intro h
  have hsame := (h redemption authentication _ _ (fun _ => rfl) undisturbed_inserted).authenticate
  have haccepted : authentication.outcome undisturbed = .ok Handshake.accepted := by rfl
  have hunexpected : authentication.outcome (.ok heartbeat :: undisturbed) =
      .error (.unexpected "ping") := by rfl
  cases haccepted.symm.trans (hsame.symm.trans hunexpected)

end Pairing
end Argus
