import Argus.Domain.Value
import Argus.Lib.Interaction
import Argus.Lib.Machine

/-!
# Enrolling and forgetting

`enroll_installation` and `forget_enrollment` are sequences of requests to the secret store, the
settings file, the repository and the cloud. No lock covers them: the requests of any number of
calls come in any order, and each may fail.

A call that enrolls generates a key, which is numbered like the call.
-/

namespace Argus

open Interaction

/-- What the repository keeps of an enrollment. -/
structure CloudEnrollment where
  installationId : Uuid
  tenantId : Uuid
  instanceName : String
  enrolledAt : DateTime
  enrolledBy : Option String
  deriving DecidableEq

structure CloudConfig where
  enabled : Bool
  endpoint : Option String
  expectedCloudId : String

/-- Whether the installation should attempt to connect at all. -/
def CloudConfig.isActive (config : CloudConfig) : Bool := config.enabled && config.endpoint.isSome

/-- `PairingGrantedPayload`, the expiry apart. -/
structure PairingGranted where
  instanceId : Uuid
  tenantId : Uuid
  instanceName : String
  sessionToken : String
  negotiatedProtocolVersion : String
  deriving DecidableEq

/-- Reasons a pairing attempt can be refused. -/
inductive PairingDenialCode
  | invalid
  | used
  | expired
  | cancelled
  | keyChanged
  | rateLimited
  deriving DecidableEq

def PairingDenialCode.remediation : PairingDenialCode → String
  | .invalid => "The pairing code is not valid. Check for typos and try again."
  | .used => "This pairing code has already been used. Generate a new one."
  | .expired => "This pairing code has expired. Generate a new one."
  | .cancelled => "This pairing code was cancelled. Generate a new one."
  | .keyChanged => "This installation is already enrolled with different credentials. " ++
      "Revoke it in the workspace, or forget the local enrollment first."
  | .rateLimited => "Too many pairing attempts. Wait before retrying; repeated attempts " ++
      "will extend the lockout."

inductive EnrollmentOutcome
  | granted (payload : PairingGranted)
  | denied (code : PairingDenialCode)
  deriving DecidableEq

/-- `EnrolledIdentity`, under the key whose public half it carries. -/
structure EnrolledIdentity where
  installationId : Uuid
  tenantId : Uuid
  instanceName : String
  publicKey : Nat
  protocolVersion : String
  enrolledAt : DateTime
  deriving DecidableEq

namespace EnrolledIdentity

def fromGranted (payload : PairingGranted) (at_ : DateTime) (publicKey : Nat) :
    EnrolledIdentity where
  installationId := payload.instanceId
  tenantId := payload.tenantId
  instanceName := payload.instanceName
  publicKey
  protocolVersion := payload.negotiatedProtocolVersion
  enrolledAt := at_

def fromEnrollment (enrollment : CloudEnrollment) (protocolVersion : String) (publicKey : Nat) :
    EnrolledIdentity where
  installationId := enrollment.installationId
  tenantId := enrollment.tenantId
  instanceName := enrollment.instanceName
  publicKey
  protocolVersion
  enrolledAt := enrollment.enrolledAt

def toEnrollment (identity : EnrolledIdentity) : CloudEnrollment where
  installationId := identity.installationId
  tenantId := identity.tenantId
  instanceName := identity.instanceName
  enrolledAt := identity.enrolledAt
  enrolledBy := none

end EnrolledIdentity

inductive EnrollmentError
  | alreadyEnrolled
  | notConfigured
  | denied (code : PairingDenialCode) (remediation : String)
  | cloud (error : String)
  | persistence (error : String)
  | secret (error : String)
  | identity (error : String)
  deriving DecidableEq

structure EnrollmentReport where
  installationId : Uuid
  tenantId : Uuid
  instanceName : String
  protocolVersion : String
  deriving DecidableEq

structure EnrollmentRequest where
  code : String
  hostname : String
  agentVersion : String
  now : DateTime

/-- `CLOUD_TABLES`. -/
inductive CloudTable
  | cloudEnrollment
  | cloudConnection
  | cloudCommands
  | cloudDecisions
  | cloudApprovals
  | cloudPublications
  | cloudManagedConfigurations
  | cloudAppliedConfigurations
  | cloudReportBuffer
  | mcpDelivery
  deriving DecidableEq

def cloudTables : List CloudTable :=
  [.cloudEnrollment, .cloudConnection, .cloudCommands, .cloudDecisions, .cloudApprovals,
    .cloudPublications, .cloudManagedConfigurations, .cloudAppliedConfigurations,
    .cloudReportBuffer, .mcpDelivery]

/-- What a forget erases. -/
inductive Erasure
  | sessionCredential
  | identitySeed
  | providerCredential
  | managedSettings
  | table (table : CloudTable)
  deriving DecidableEq

/-- One request of a call. -/
inductive CloudRequest
  | getCloudEnrollment
  | storeIdentitySeed (seed : Nat)
  /-- `enroll`: the code is redeemed with the public half of `key`. -/
  | enroll (request : EnrollmentRequest) (expectedCloudId : String) (key : Nat)
  | saveCloudEnrollment (enrollment : CloudEnrollment)
  | storeSessionCredential (credential : String)
  | erase (what : Erasure)

/-- What each request answers, unless it fails. -/
@[reducible] def CloudRequest.Answer : CloudRequest → Type
  | getCloudEnrollment => Option CloudEnrollment
  | enroll .. => EnrollmentOutcome
  | storeIdentitySeed _ | saveCloudEnrollment _ | storeSessionCredential _ | erase _ => Unit

@[reducible] def CloudRequest.Reply (request : CloudRequest) : Type :=
  Except String request.Answer

/-- A program of the two calls. -/
abbrev EnrollM := Prog CloudRequest.Reply

def CloudRequest.ask (request : CloudRequest) : EnrollM request.Reply := Prog.call request

/-! ### The calls -/

open CloudRequest in
/-- `enroll_installation`, with the key it generates. -/
def enrollInstallation (config : CloudConfig) (request : EnrollmentRequest) (key : Nat) :
    EnrollM (Except EnrollmentError EnrollmentReport) :=
  if !config.isActive then pure (.error .notConfigured)
  else do
    match ← ask getCloudEnrollment with
    | .error error => pure (.error (.persistence error))
    | .ok (some _) => pure (.error .alreadyEnrolled)
    | .ok none =>
        match ← ask (storeIdentitySeed key) with
        | .error error => pure (.error (.identity error))
        | .ok () =>
            match ← ask (enroll request config.expectedCloudId key) with
            | .error error => pure (.error (.cloud error))
            | .ok (.denied code) =>
                -- a refused enrollment leaves the fresh key backing no identity
                let _ ← ask (erase .identitySeed)
                pure (.error (.denied code code.remediation))
            | .ok (.granted payload) =>
                let identity := EnrolledIdentity.fromGranted payload request.now key
                match ← ask (saveCloudEnrollment identity.toEnrollment) with
                | .error error => pure (.error (.persistence error))
                | .ok () =>
                    match ← ask (storeSessionCredential payload.sessionToken) with
                    | .error error => pure (.error (.secret error))
                    | .ok () =>
                        pure (.ok ⟨identity.installationId, identity.tenantId,
                          identity.instanceName, identity.protocolVersion⟩)

/-- Erases one thing after the other, up to the first that fails. -/
def eraseAll : List Erasure → EnrollM (Except String Unit)
  | [] => pure (.ok ())
  | what :: rest => do
      match ← CloudRequest.ask (.erase what) with
      | .error error => pure (.error error)
      | .ok () => eraseAll rest

/-- What `forget_enrollment` erases, `clear_cloud_state` last. -/
def erasures : List Erasure :=
  [.sessionCredential, .identitySeed, .providerCredential, .managedSettings] ++
    cloudTables.map .table

def forgetEnrollment : EnrollM (Except String Unit) := eraseAll erasures

/-! ### Any number of calls -/

/-- What the calls share. The settings, the provider credential and the other tables are no part
of it: no call reads them. -/
structure CloudStore where
  seed : Option Nat
  credential : Option String
  enrollment : Option CloudEnrollment
  /-- The key whose public half was redeemed for the last enrollment. -/
  redeemed : Nat

namespace CloudStore

def erase (s : CloudStore) : Erasure → CloudStore
  | .sessionCredential => { s with credential := none }
  | .identitySeed => { s with seed := none }
  | .table .cloudEnrollment => { s with enrollment := none }
  | .providerCredential | .managedSettings | .table _ => s

/-- The request of call `id`, when nothing fails. -/
def serve (s : CloudStore) (id : Nat) (outcome : EnrollmentOutcome) :
    (request : CloudRequest) → request.Reply × CloudStore
  | .getCloudEnrollment => (.ok s.enrollment, s)
  | .storeIdentitySeed seed => (.ok (), { s with seed := some seed })
  | .enroll .. => (.ok outcome, s)
  | .saveCloudEnrollment enrollment =>
      (.ok (), { s with enrollment := some enrollment, redeemed := id })
  | .storeSessionCredential credential =>
      if credential.isEmpty then
        (.error "secret store operation failed: refusing to store an empty secret", s)
      else (.ok (), { s with credential := some credential })
  | .erase what => (.ok (), s.erase what)

/-- The reply to a request of call `id`. One that fails changes nothing. -/
def answer (s : CloudStore) (id : Nat) (fault : Option String) (outcome : EnrollmentOutcome)
    (request : CloudRequest) : request.Reply × CloudStore :=
  match fault with
  | some error => (.error error, s)
  | none => s.serve id outcome request

end CloudStore

/-- A call, with what is left of it. -/
inductive Call
  | idle
  | enrolling (rest : EnrollM (Except EnrollmentError EnrollmentReport))
  | forgetting (rest : EnrollM (Except String Unit))

namespace Call

def inProgress : Call → Bool
  | .enrolling (.request ..) | .forgetting (.request ..) => true
  | _ => false

/-- The request a call makes next. -/
def next : Call → Option CloudRequest
  | .enrolling (.request request _) | .forgetting (.request request _) => some request
  | _ => none

end Call

/-- The calls, each with a number, and what they share. -/
structure Enrollments where
  store : CloudStore
  calls : Nat → Call

inductive EnrollmentEvent
  | enroll (id : Nat) (request : EnrollmentRequest)
  | forget (id : Nat)
  /-- The next request of a call; `outcome` is the cloud's if it redeems a code. -/
  | turn (id : Nat) (fault : Option String) (outcome : EnrollmentOutcome)

namespace Enrollments

def start : Enrollments := ⟨⟨none, none, none, 0⟩, fun _ => .idle⟩

def setCall (s : Enrollments) (id : Nat) (call : Call) : Enrollments :=
  { s with calls := fun other => if other = id then call else s.calls other }

def step (config : CloudConfig) (s : Enrollments) : EnrollmentEvent → Enrollments
  | .enroll id request =>
      match s.calls id with
      | .idle => s.setCall id (.enrolling (enrollInstallation config request id))
      | _ => s
  | .forget id =>
      match s.calls id with
      | .idle => s.setCall id (.forgetting forgetEnrollment)
      | _ => s
  | .turn id fault outcome =>
      match s.calls id with
      | .enrolling (.request request next) =>
          let (reply, store) := s.store.answer id fault outcome request
          { s with store }.setCall id (.enrolling (next reply))
      | .forgetting (.request request next) =>
          let (reply, store) := s.store.answer id fault outcome request
          { s with store }.setCall id (.forgetting (next reply))
      | _ => s

@[simp] theorem setCall_store (s : Enrollments) (id : Nat) (call : Call) :
    (s.setCall id call).store = s.store := rfl

theorem setCall_same (s : Enrollments) (id : Nat) (call : Call) :
    (s.setCall id call).calls id = call := if_pos rfl

theorem setCall_other (s : Enrollments) {id other : Nat} (call : Call) (h : other ≠ id) :
    (s.setCall id call).calls other = s.calls other := if_neg h

/-- What a step does: nothing, or it begins a call or answers the next request of one. -/
inductive Stepped (config : CloudConfig) (s : Enrollments) : EnrollmentEvent → Enrollments → Prop
  | none {event} : Stepped config s event s
  | enroll {id request} (hcall : s.calls id = .idle) : Stepped config s (.enroll id request)
      (s.setCall id (.enrolling (enrollInstallation config request id)))
  | forget {id} (hcall : s.calls id = .idle) :
      Stepped config s (.forget id) (s.setCall id (.forgetting forgetEnrollment))
  | enrolling {id fault outcome request next}
      (hcall : s.calls id = .enrolling (.request request next)) :
      Stepped config s (.turn id fault outcome)
        ({ s with store := (s.store.answer id fault outcome request).2 }.setCall id
          (.enrolling (next (s.store.answer id fault outcome request).1)))
  | forgetting {id fault outcome request next}
      (hcall : s.calls id = .forgetting (.request request next)) :
      Stepped config s (.turn id fault outcome)
        ({ s with store := (s.store.answer id fault outcome request).2 }.setCall id
          (.forgetting (next (s.store.answer id fault outcome request).1)))

theorem stepped (config : CloudConfig) (s : Enrollments) (event : EnrollmentEvent) :
    Stepped config s event (s.step config event) := by
  cases event with
  | enroll id request =>
      cases hcall : s.calls id with
      | idle =>
          simp only [step, hcall]
          exact .enroll hcall
      | _ =>
          simp only [step, hcall]
          exact .none
  | forget id =>
      cases hcall : s.calls id with
      | idle =>
          simp only [step, hcall]
          exact .forget hcall
      | _ =>
          simp only [step, hcall]
          exact .none
  | turn id fault outcome =>
      cases hcall : s.calls id with
      | idle =>
          simp only [step, hcall]
          exact .none
      | enrolling rest =>
          cases rest with
          | ret result =>
              simp only [step, hcall]
              exact .none
          | request request next =>
              simp only [step, hcall]
              exact .enrolling hcall
      | forgetting rest =>
          cases rest with
          | ret result =>
              simp only [step, hcall]
              exact .none
          | request request next =>
              simp only [step, hcall]
              exact .forgetting hcall

end Enrollments
end Argus
