import Argus.Cloud.Pairing
import Argus.Daemon.EnrollmentKeys

/-!
# A call to enroll that fails

One call, with nothing beside it. The key is written before the code is redeemed, and the code is
checked by the redemption. Of the exits after the write only a refusal takes the key back, and
none takes back the enrollment: `unchanged_iff_spared` says which calls leave what they found.
-/

namespace Argus

open Interaction

/-- Which of the local requests of a call fail, and how. -/
structure EnrollmentFaults where
  read : Option String
  seed : Option String
  erase : Option String
  save : Option String
  credential : Option String

def EnrollmentFaults.of (faults : EnrollmentFaults) : CloudRequest → Option String
  | .getCloudEnrollment => faults.read
  | .storeIdentitySeed _ => faults.seed
  | .enroll .. => none
  | .saveCloudEnrollment _ => faults.save
  | .storeSessionCredential _ => faults.credential
  | .erase _ => faults.erase

/-- The cloud at the other end: what it delivers, what the transport takes, and the signatures. -/
structure PairingPeer where
  accept : PairingMessage → Except TransportError Unit
  signChallenge : Nat → String → String
  inbound : List Received

/-- The redemption of a code. -/
def PairingPeer.exchange (peer : PairingPeer) (request : EnrollmentRequest)
    (expectedCloudId : String) (key : Nat) : Except CloudError EnrollmentOutcome :=
  (Pairing.Redemption.mk peer.signChallenge request.code request.hostname request.agentVersion
    expectedCloudId key peer.accept).outcome peer.inbound

namespace FailedEnrollment

-- how an error of the cloud reads
variable (describe : CloudError → String)

/-- A request of the call, answered from the store or by the cloud. -/
def serve (faults : EnrollmentFaults) (peer : PairingPeer) :
    (request : CloudRequest) → CloudStore → request.Reply × CloudStore
  | .enroll request expectedCloudId key, s =>
      ((peer.exchange request expectedCloudId key).mapError describe, s)
  | request, s => s.answer 0 (faults.of request) (.denied .invalid) request

/-- The call, to its end. -/
def call (faults : EnrollmentFaults) (peer : PairingPeer) (config : CloudConfig)
    (request : EnrollmentRequest) (key : Nat) (s : CloudStore) :
    Except EnrollmentError EnrollmentReport × CloudStore :=
  Prog.exec (serve describe faults peer) (enrollInstallation config request key) s

/-- The enrollment record, the identity seed and the session credential are the same. -/
structure Unchanged (s s' : CloudStore) : Prop where
  enrollment : s'.enrollment = s.enrollment
  seed : s'.seed = s.seed
  credential : s'.credential = s.credential

theorem unchanged_refl (s : CloudStore) : Unchanged s s := ⟨rfl, rfl, rfl⟩

/-- The call stops before it writes the seed, or fails where that leaves the seed as it was, or
does not fail. -/
def Spared (faults : EnrollmentFaults) (peer : PairingPeer) (config : CloudConfig)
    (request : EnrollmentRequest) (key : Nat) (s : CloudStore) : Prop :=
  config.isActive = false ∨ faults.read.isSome ∨ faults.seed.isSome ∨
    match peer.exchange request config.expectedCloudId key with
    | .error _ => s.seed = some key
    | .ok (.denied _) => if faults.erase.isSome then s.seed = some key else s.seed = none
    | .ok (.granted payload) =>
        if faults.save.isSome then s.seed = some key
        else faults.credential = none ∧ payload.sessionToken.isEmpty = false

variable {describe} {faults : EnrollmentFaults} {peer : PairingPeer} {config : CloudConfig}
  {request : EnrollmentRequest} {key : Nat} {s : CloudStore}

/-! ### The exits -/

/-- What a call with an active configuration comes to once its seed is written. -/
theorem call_written (hactive : config.isActive = true) (hread : faults.read = none)
    (hseed : faults.seed = none) (hnone : s.enrollment = none) :
    call describe faults peer config request key s =
      match peer.exchange request config.expectedCloudId key with
      | .error error => (.error (.cloud (describe error)), { s with seed := some key })
      | .ok (.denied code) =>
          (.error (.denied code code.remediation),
            { s with seed := if faults.erase.isSome then some key else none })
      | .ok (.granted payload) =>
          let identity := EnrolledIdentity.fromGranted payload request.now key
          match faults.save with
          | some error => (.error (.persistence error), { s with seed := some key })
          | none =>
              let saved := { s with
                seed := some key, enrollment := some identity.toEnrollment, redeemed := 0 }
              match faults.credential with
              | some error => (.error (.secret error), saved)
              | none =>
                  if payload.sessionToken.isEmpty then
                    (.error (.secret
                      "secret store operation failed: refusing to store an empty secret"), saved)
                  else
                    (.ok ⟨identity.installationId, identity.tenantId, identity.instanceName,
                      identity.protocolVersion⟩,
                      { saved with credential := some payload.sessionToken }) := by
  obtain ⟨read, seed, erase, save, credential⟩ := faults
  obtain rfl : read = none := hread
  obtain rfl : seed = none := hseed
  simp only [call, enrollInstallation, hactive, Bool.not_true, Bool.false_eq_true, if_false,
    CloudRequest.ask, Prog.exec_call_bind, serve, CloudStore.answer, EnrollmentFaults.of,
    CloudStore.serve, hnone]
  cases hexchange : peer.exchange request config.expectedCloudId key with
  | error error => rfl
  | ok outcome =>
      cases outcome with
      | denied code => cases erase <;> rfl
      | granted payload =>
          cases save with
          | some error => rfl
          | none =>
              cases credential with
              | some error => rfl
              | none =>
                  simp only [Except.mapError, Prog.exec_call_bind, serve, CloudStore.answer,
                    EnrollmentFaults.of, CloudStore.serve]
                  cases payload.sessionToken.isEmpty <;> rfl

/-- A call that stops before it writes the seed. -/
theorem call_unwritten (hnone : s.enrollment = none)
    (hstop : config.isActive = false ∨ faults.read.isSome ∨ faults.seed.isSome) :
    (call describe faults peer config request key s).2 = s := by
  cases hactive : config.isActive with
  | false =>
      simp only [call, enrollInstallation, hactive, Bool.not_false, if_true]
      rfl
  | true =>
      simp only [call, enrollInstallation, hactive, Bool.not_true, Bool.false_eq_true, if_false,
        CloudRequest.ask, Prog.exec_call_bind, serve, CloudStore.answer, EnrollmentFaults.of]
      cases hread : faults.read with
      | some error => rfl
      | none =>
          obtain ⟨error, hseed⟩ : ∃ error, faults.seed = some error := by
            simpa [hactive, hread, Option.isSome_iff_exists] using hstop
          simp only [CloudStore.serve, hnone, Prog.exec_call_bind, serve, CloudStore.answer,
            EnrollmentFaults.of, hseed]
          rfl

/-- A call that fails over its own seed leaves what it found only if that seed was there. -/
theorem failed_iff {failure : EnrollmentError} :
    (∀ error, (Except.error failure : Except EnrollmentError EnrollmentReport) = .error error →
      Unchanged s { s with seed := some key }) ↔ s.seed = some key := by
  constructor
  · intro h
    exact (h failure rfl).seed.symm
  · intro hseed _ _
    exact ⟨rfl, hseed.symm, rfl⟩

/-- A call that fails over an enrollment it saved does not leave what it found. -/
theorem not_unchanged_saved {enrollment : CloudEnrollment} {redeemed : Nat}
    (hnone : s.enrollment = none) :
    ¬ Unchanged s { s with
      seed := some key, enrollment := some enrollment, redeemed := redeemed } := by
  intro h
  have henrollment : some enrollment = s.enrollment := h.enrollment
  rw [hnone] at henrollment
  cases henrollment

/-- A failed call leaves the enrollment, the seed and the credential as they were exactly when it
is spared. -/
theorem unchanged_iff_spared (describe : CloudError → String) (faults : EnrollmentFaults)
    (peer : PairingPeer) (config : CloudConfig) (request : EnrollmentRequest) (key : Nat)
    (s : CloudStore) (hnone : s.enrollment = none) :
    (∀ error, (call describe faults peer config request key s).1 = .error error →
      Unchanged s (call describe faults peer config request key s).2) ↔
    Spared faults peer config request key s := by
  by_cases hstop : config.isActive = false ∨ faults.read.isSome ∨ faults.seed.isSome
  · refine iff_of_true (fun error _ => ?_) ?_
    · rw [call_unwritten hnone hstop]
      exact unchanged_refl s
    · exact hstop.imp_right fun h => h.imp_right .inl
  · obtain ⟨hactive, hread, hseed⟩ := by simpa only [not_or] using hstop
    rw [Spared, or_iff_right hactive, or_iff_right hread, or_iff_right hseed,
      call_written (by simpa using hactive) (by simpa using hread) (by simpa using hseed) hnone]
    cases hexchange : peer.exchange request config.expectedCloudId key with
    | error error => exact failed_iff
    | ok outcome =>
        cases outcome with
        | denied code =>
            cases herase : faults.erase with
            | some error => exact failed_iff
            | none =>
                constructor
                · intro h
                  exact (h _ rfl).seed.symm
                · intro hseed _ _
                  exact ⟨rfl, hseed.symm, rfl⟩
        | granted payload =>
            cases hsave : faults.save with
            | some error => exact failed_iff
            | none =>
                cases hcredential : faults.credential with
                | some error =>
                    refine iff_of_false (fun h => ?_) (fun h => by cases h.1)
                    exact not_unchanged_saved hnone (h _ rfl)
                | none =>
                    by_cases hempty : payload.sessionToken.isEmpty = true
                    · simp only [hempty, if_true]
                      exact iff_of_false (fun h => not_unchanged_saved hnone (h _ rfl)) (by simp)
                    · simp [hempty]

/-! ### A refusal, and a code that cannot be valid -/

/-- Nothing fails here. -/
def noFaults : EnrollmentFaults := ⟨none, none, none, none, none⟩

/-- A cloud that welcomes the installation and refuses its code. -/
def refusingPeer : PairingPeer where
  accept := fun _ => .ok ()
  signChallenge := fun _ challenge => challenge
  inbound := [.ok (Pairing.plain Handshake.welcome 1),
    .ok { Pairing.plain ⟨"pairing.denied", .error "missing field", .error "missing field",
      .error "missing field"⟩ 2 with denied := .ok .used }]

def emptyStore : CloudStore := ⟨none, none, none, 0⟩

/-- A text for an error. -/
def describeError : CloudError → String
  | .transport error => error.describe
  | .protocol detail => "protocol rejected the message: " ++ detail

open Enrollments (enabledConfig)

/-- A first enrollment that is refused. -/
def refused : Except EnrollmentError EnrollmentReport × CloudStore :=
  call describeError noFaults refusingPeer enabledConfig Enrollments.request 3 emptyStore

/-- The refusal of a first enrollment takes its key back. -/
theorem unchanged_refused :
    refused.1 = .error (.denied .used PairingDenialCode.used.remediation) ∧
      ∀ error, refused.1 = .error error → Unchanged emptyStore refused.2 := by
  have hdenied : refusingPeer.exchange Enrollments.request enabledConfig.expectedCloudId 3 =
      .ok (.denied .used) := by rfl
  constructor
  · rw [refused, call_written rfl rfl rfl rfl, hdenied]
  · refine (unchanged_iff_spared describeError noFaults refusingPeer enabledConfig
      Enrollments.request 3 emptyStore rfl).mpr (.inr (.inr (.inr ?_)))
    rw [hdenied]
    rfl

/-- **A code that cannot be valid leaves a key behind.** -/
theorem invalid_code_keeps_key :
    ¬ ∀ (describe : CloudError → String) (faults : EnrollmentFaults) (peer : PairingPeer)
      (config : CloudConfig) (request : EnrollmentRequest) (key : Nat) (s : CloudStore),
      s.enrollment = none → ∀ error,
        (call describe faults peer config request key s).1 = .error error →
          Unchanged s (call describe faults peer config request key s).2 := by
  intro h
  let short : EnrollmentRequest := ⟨"ABC", "host", "1.0.0", ⟨0⟩⟩
  have hinvalid : ∃ error, refusingPeer.exchange short enabledConfig.expectedCloudId 3 =
      .error error := ⟨_, rfl⟩
  obtain ⟨error, hinvalid⟩ := hinvalid
  have hcall : call describeError noFaults refusingPeer enabledConfig short 3 emptyStore = _ :=
    call_written rfl rfl rfl rfl
  rw [hinvalid] at hcall
  have hseed := (h describeError noFaults refusingPeer enabledConfig short 3 emptyStore rfl _
    (congrArg Prod.fst hcall)).seed
  rw [hcall] at hseed
  cases hseed

end FailedEnrollment
end Argus
