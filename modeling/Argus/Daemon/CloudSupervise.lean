import Argus.Cloud.Handshake
import Argus.Daemon.EnrollmentKeys

/-!
# The supervision loop

The loop waits for an enrollment and a key, connects, runs the session, and asks the reconnect
policy what to do when that is over. Enrolling and forgetting go on beside it, and wake it.

The policy stops the loop for good on a revocation and on a version mismatch.
`reenrollment_served_iff` says when that leaves a later enrollment without a loop to use it.
-/

namespace Argus

/-! ### Backoff -/

/-- Exponential backoff with full jitter, in milliseconds. -/
structure Backoff where
  base : Nat
  max : Nat
  attempt : Nat
  /-- The state of the jitter source. -/
  state : UInt64

namespace Backoff

/-- `Backoff::with_seed`. A zero seed would leave the jitter source stuck at zero. -/
def withSeed (base max : Nat) (seed : UInt64) : Backoff where
  base
  max := Nat.max max base
  attempt := 0
  state := if seed = 0 then 0x9E3779B97F4A7C15 else seed

/-- The un-jittered ceiling for the current attempt. -/
def ceiling (b : Backoff) : Nat :=
  let shift := min b.attempt 63
  let factor := if shift < 32 then 1 <<< shift else 0xFFFFFFFF
  min (b.base * factor) b.max

/-- xorshift64*. -/
def nextU64 (b : Backoff) : UInt64 × Backoff :=
  let x := b.state
  let x := x ^^^ (x >>> 12)
  let x := x ^^^ (x <<< 25)
  let x := x ^^^ (x >>> 27)
  (x * 0x2545F4914F6CDD1D, { b with state := x })

/-- The next delay, uniformly distributed in `[0, ceiling]`. -/
def nextDelay (b : Backoff) : Nat × Backoff :=
  let ceiling := min b.ceiling 0xFFFFFFFFFFFFFFFF
  let (jittered, b) :=
    if ceiling = 0 then (0, b)
    else
      let (random, b) := b.nextU64
      (random.toNat % (ceiling + 1), b)
  (jittered, { b with attempt := min (b.attempt + 1) 0xFFFFFFFF })

def reset (b : Backoff) : Backoff := { b with attempt := 0 }

theorem ceiling_le_max (b : Backoff) : b.ceiling ≤ b.max := Nat.min_le_right ..

theorem nextDelay_le_max (b : Backoff) : b.nextDelay.1 ≤ b.max := by
  have hle : min b.ceiling 0xFFFFFFFFFFFFFFFF ≤ b.max := (Nat.min_le_left ..).trans b.ceiling_le_max
  unfold nextDelay
  dsimp only
  split_ifs with hzero
  · exact Nat.zero_le _
  · exact (Nat.lt_succ_iff.mp (Nat.mod_lt _ (Nat.succ_pos _))).trans hle

end Backoff

/-! ### The reconnect policy -/

/-- How a connection attempt ended. -/
inductive ConnectionOutcome
  | sessionEnded
  | handshakeFailed (failure : HandshakeFailure)
  | transportFailed (reason : String)
  | stopped

/-- Why supervision stopped for good. -/
inductive StopReason
  | revoked
  | unsupportedVersion
  | requested
  | notEnrolled
  deriving DecidableEq

/-- What supervision should do next. -/
inductive NextAction
  | reconnect (delay : Nat)
  | stop (reason : StopReason)
  deriving DecidableEq

namespace HandshakeFailure

/-- Revocation is the only outcome that must stop reconnection permanently. -/
def isTerminal : HandshakeFailure → Bool
  | .rejected code _ => code == "REVOKED"
  | _ => false

def isRateLimited : HandshakeFailure → Bool
  | .rejected code _ => code == "RATE_LIMITED"
  | _ => false

def isVersionMismatch : HandshakeFailure → Bool
  | .unsupportedVersion _ => true
  | .rejected code _ => code == "UNSUPPORTED_VERSION"
  | _ => false

/-- The failure ends supervision. -/
def ends (failure : HandshakeFailure) : Bool := failure.isTerminal || failure.isVersionMismatch

end HandshakeFailure

structure ReconnectPolicy where
  backoff : Backoff
  /-- Extra delay applied when the cloud asks us to slow down. -/
  rateLimitFloor : Nat

namespace ReconnectPolicy

def withSeed (base max : Nat) (seed : UInt64) : ReconnectPolicy := ⟨.withSeed base max seed, 60000⟩

def noteConnected (policy : ReconnectPolicy) : ReconnectPolicy :=
  { policy with backoff := policy.backoff.reset }

/-- The policy once the backoff has handed out its next delay. -/
def delayed (policy : ReconnectPolicy) : ReconnectPolicy :=
  { policy with backoff := policy.backoff.nextDelay.2 }

/-- Classifies an outcome into the next action. -/
def after (policy : ReconnectPolicy) : ConnectionOutcome → NextAction × ReconnectPolicy
  | .stopped => (.stop .requested, policy)
  | .sessionEnded => (.reconnect policy.backoff.nextDelay.1, policy.delayed)
  | .transportFailed _ => (.reconnect policy.backoff.nextDelay.1, policy.delayed)
  | .handshakeFailed failure =>
      if failure.isTerminal then (.stop .revoked, policy)
      else if failure.isVersionMismatch then (.stop .unsupportedVersion, policy)
      else
        let delay := policy.backoff.nextDelay.1
        if failure.isRateLimited then (.reconnect (max delay policy.rateLimitFloor), policy.delayed)
        else (.reconnect delay, policy.delayed)

/-- No delay is longer than the cap, or than what the cloud asks for. -/
theorem after_reconnect_le (policy : ReconnectPolicy) (outcome : ConnectionOutcome) (delay : Nat)
    (h : (policy.after outcome).1 = .reconnect delay) :
    delay ≤ max policy.backoff.max policy.rateLimitFloor := by
  have hle := policy.backoff.nextDelay_le_max
  generalize hnext : policy.backoff.nextDelay.1 = next at hle
  cases outcome with
  | stopped => cases h
  | sessionEnded | transportFailed reason =>
      rw [after, hnext, NextAction.reconnect.injEq] at h
      omega
  | handshakeFailed failure =>
      simp only [after, hnext] at h
      split_ifs at h
      all_goals
        rw [NextAction.reconnect.injEq] at h
        omega

/-- The handshake failures that stop supervision, and only these. -/
theorem after_handshakeFailed (policy : ReconnectPolicy) (failure : HandshakeFailure) :
    (∃ reason, (policy.after (.handshakeFailed failure)).1 = .stop reason) ↔
      failure.ends = true := by
  simp only [after, HandshakeFailure.ends]
  split_ifs with hterminal hmismatch <;> simp_all

end ReconnectPolicy

/-! ### What the calls do to the stored enrollment -/

namespace Enrollments

variable {config : CloudConfig} {s : Enrollments} {event : EnrollmentEvent}
  {enrollment : CloudEnrollment}

/-- The enrollment that an event stores. -/
def saves (s : Enrollments) : EnrollmentEvent → Option CloudEnrollment
  | .turn id none _ =>
      match (s.calls id).next with
      | some (.saveCloudEnrollment enrollment) => some enrollment
      | _ => none
  | _ => none

/-- A call has come to its end, and the handler wakes the supervisor. -/
def succeeded (s : Enrollments) (id : Nat) : Bool :=
  match s.calls id with
  | .enrolling (.ret (.ok _)) | .forgetting (.ret (.ok ())) => true
  | _ => false

/-- With the event, a call succeeds. -/
def wakes (config : CloudConfig) (s : Enrollments) : EnrollmentEvent → Bool
  | .turn id fault outcome =>
      (s.calls id).inProgress && (s.step config (.turn id fault outcome)).succeeded id
  | _ => false

theorem answer_enrollment {request : CloudRequest} {id : Nat} {fault : Option String}
    {outcome : EnrollmentOutcome} (hcall : (s.calls id).next = some request)
    (h : (s.store.answer id fault outcome request).2.enrollment = some enrollment) :
    s.store.enrollment = some enrollment ∨ s.saves (.turn id fault outcome) = some enrollment := by
  cases fault with
  | some error => exact .inl h
  | none =>
      cases request with
      | saveCloudEnrollment saved =>
          refine .inr ?_
          simp only [saves, hcall]
          exact h
      | storeSessionCredential credential =>
          simp only [CloudStore.answer, CloudStore.serve] at h
          split_ifs at h
          · exact .inl h
          · exact .inl h
      | erase what =>
          cases what with
          | table table =>
              cases table with
              | cloudEnrollment => cases h
              | _ => exact .inl h
          | _ => exact .inl h
      | _ => exact .inl h

/-- What is stored was stored before, or is stored by the event. -/
theorem enrollment_of_step (h : (s.step config event).store.enrollment = some enrollment) :
    s.store.enrollment = some enrollment ∨ s.saves event = some enrollment := by
  have hstepped := stepped config s event
  generalize s.step config event = s' at hstepped h
  cases hstepped with
  | none | enroll hcall | forget hcall => exact .inl h
  | enrolling hcall | forgetting hcall => exact answer_enrollment (by rw [hcall]; rfl) h

theorem saves_step (h : s.saves event = some enrollment) :
    (s.step config event).store.enrollment = some enrollment := by
  cases event with
  | enroll id request => cases h
  | forget id => cases h
  | turn id fault outcome =>
      cases fault with
      | some error => cases h
      | none =>
          simp only [saves] at h
          split at h
          next saved hnext =>
            cases h
            cases hcall : s.calls id with
            | idle => simp [hcall, Call.next] at hnext
            | enrolling rest =>
                cases rest with
                | ret result => simp [hcall, Call.next] at hnext
                | request request next =>
                    obtain rfl : request = .saveCloudEnrollment enrollment := by
                      simpa [hcall, Call.next] using hnext
                    simp only [step, hcall]
                    rfl
            | forgetting rest =>
                cases rest with
                | ret result => simp [hcall, Call.next] at hnext
                | request request next =>
                    obtain rfl : request = .saveCloudEnrollment enrollment := by
                      simpa [hcall, Call.next] using hnext
                    simp only [step, hcall]
                    rfl
          next => cases h

end Enrollments

/-! ### The loop -/

structure SuperviseConfig extends CloudConfig where
  reconnectBaseSeconds : Nat
  reconnectMaxSeconds : Nat

/-- A fresh policy; the jitter is seeded from the environment. -/
def SuperviseConfig.policy (config : SuperviseConfig) (seed : UInt64) : ReconnectPolicy :=
  .withSeed (1000 * max config.reconnectBaseSeconds 1) (1000 * max config.reconnectMaxSeconds 1)
    seed

/-- Where the loop is. -/
inductive LoopPoint
  | top
  | readingEnrollment
  | readingKey (enrollment : CloudEnrollment)
  | connecting (enrollment : CloudEnrollment)
  | inSession (enrollment : CloudEnrollment)
  /-- Waiting to check the prerequisites again. -/
  | rechecking
  | backingOff (delay : Nat)
  | returned (reason : StopReason)

/-- The loop, the calls beside it, and the signals between them. -/
structure Supervision where
  enrollments : Enrollments
  /-- A stop was requested. -/
  stop : Bool
  /-- The permit of `cloud_wake`. -/
  wake : Bool
  policy : ReconnectPolicy
  point : LoopPoint
  /-- The enrollment that the last refusal to end supervision was about. -/
  refused : Option CloudEnrollment

inductive SuperviseEvent
  | call (event : EnrollmentEvent)
  | requestStop
  | check
  | readEnrollment (fault : Bool)
  /-- A key that is there may be corrupt, or the secret store may fail. -/
  | readKey (fault : Bool)
  | connected
  | handshakeFailed (failure : HandshakeFailure)
  | transportFailed (reason : String)
  | sessionEnded
  /-- A wait, or the session, sees that a stop was requested. -/
  | stopped
  /-- A wait, or the session, is woken. -/
  | woken (seed : UInt64)
  | elapsed

namespace Supervision

def start (config : SuperviseConfig) (store : CloudStore) (seed : UInt64) : Supervision :=
  ⟨⟨store, fun _ => .idle⟩, false, false, config.policy seed, .top, none⟩

/-- The stored enrollment. -/
def stored (s : Supervision) : Option CloudEnrollment := s.enrollments.store.enrollment

def running (s : Supervision) : Bool :=
  match s.point with
  | .returned _ => false
  | _ => true

/-- What follows an attempt. -/
def conclude (s : Supervision) (outcome : ConnectionOutcome) : Supervision :=
  match s.policy.after outcome with
  | (.stop reason, policy) => { s with policy, point := .returned reason }
  | (.reconnect delay, policy) => { s with policy, point := .backingOff delay }

def step (config : SuperviseConfig) (s : Supervision) : SuperviseEvent → Supervision
  | .call event =>
      { s with
        enrollments := s.enrollments.step config.toCloudConfig event
        wake := s.wake || s.enrollments.wakes config.toCloudConfig event }
  | .requestStop => { s with stop := true }
  | .check =>
      match s.point with
      | .top =>
          if s.stop then { s with point := .returned .requested }
          else if config.isActive then { s with point := .readingEnrollment }
          else { s with point := .rechecking }
      | _ => s
  | .readEnrollment fault =>
      match s.point with
      | .readingEnrollment =>
          match s.stored with
          | some enrollment =>
              { s with point := if fault then .rechecking else .readingKey enrollment }
          | none => { s with point := .rechecking }
      | _ => s
  | .readKey fault =>
      match s.point with
      | .readingKey enrollment =>
          if fault || s.enrollments.store.seed.isNone then { s with point := .rechecking }
          else { s with point := .connecting enrollment }
      | _ => s
  | .connected =>
      match s.point with
      | .connecting enrollment =>
          { s with policy := s.policy.noteConnected, point := .inSession enrollment }
      | _ => s
  | .handshakeFailed failure =>
      match s.point with
      | .connecting enrollment =>
          let s := if failure.ends then { s with refused := some enrollment } else s
          s.conclude (.handshakeFailed failure)
      | _ => s
  | .transportFailed reason =>
      match s.point with
      | .connecting _ | .inSession _ => s.conclude (.transportFailed reason)
      | _ => s
  | .sessionEnded =>
      match s.point with
      | .inSession _ => s.conclude .sessionEnded
      | _ => s
  | .stopped =>
      match s.stop, s.point with
      | true, .inSession _ => s.conclude .stopped
      | true, .rechecking | true, .backingOff _ => { s with point := .returned .requested }
      | _, _ => s
  | .woken seed =>
      match s.wake, s.point with
      | true, .inSession _ | true, .backingOff _ =>
          -- a new enrollment must not inherit the previous delay
          { s with wake := false, policy := config.policy seed, point := .top }
      | true, .rechecking => { s with wake := false, point := .top }
      | _, _ => s
  | .elapsed =>
      match s.point with
      | .rechecking | .backingOff _ => { s with point := .top }
      | _ => s

variable {config : SuperviseConfig} {s : Supervision}

/-! ### Whom the loop still serves -/

theorem conclude_running (s : Supervision) (outcome : ConnectionOutcome) :
    (s.conclude outcome).running = false ↔ ∃ reason, (s.policy.after outcome).1 = .stop reason := by
  unfold conclude
  split
  next reason policy hafter => simp [running, hafter]
  next delay policy hafter => simp [running, hafter]

@[simp] theorem conclude_stored (s : Supervision) (outcome : ConnectionOutcome) :
    (s.conclude outcome).stored = s.stored := by
  unfold conclude
  split <;> rfl

@[simp] theorem conclude_stop (s : Supervision) (outcome : ConnectionOutcome) :
    (s.conclude outcome).stop = s.stop := by
  unfold conclude
  split <;> rfl

@[simp] theorem conclude_refused (s : Supervision) (outcome : ConnectionOutcome) :
    (s.conclude outcome).refused = s.refused := by
  unfold conclude
  split <;> rfl

/-- **Nothing restarts the loop.** -/
theorem returned_stays (h : s.running = false) (events : List SuperviseEvent) :
    (Machine.run (step config) s events).running = false := by
  refine Machine.invariant (I := fun s : Supervision => s.running = false) h
    (fun s event h => ?_) events
  cases hpoint : s.point with
  | returned reason => cases event <;> simp_all [step, running]
  | _ => simp [running, hpoint] at h

/-- As long as no stop was requested, the loop is there for an enrollment that was not refused. -/
def Served (s : Supervision) : Prop :=
  s.stop = false → ∀ enrollment, s.stored = some enrollment → s.refused ≠ some enrollment →
    s.running = true

/-- The loop is ended only by a refusal of the stored enrollment, or of the last one, and no other
is stored after that. -/
def serving (s : Supervision) : SuperviseEvent → Bool
  | .call event =>
      s.stop || s.running ||
        match s.enrollments.saves event with
        | some enrollment => s.refused == some enrollment
        | none => true
  | .handshakeFailed failure =>
      match s.point with
      | .connecting enrollment =>
          s.stop || !failure.ends || s.stored.all fun stored => stored == enrollment
      | _ => true
  | _ => true

theorem Served.of_running (h : s.running = true) : Served s := fun _ _ _ _ => h

/-- What an event does that is neither a call's nor a refusal: nothing ends the loop but a stop. -/
structure Quiet (s s' : Supervision) : Prop where
  stored : s'.stored = s.stored
  refused : s'.refused = s.refused
  running : s'.running = false → s.running = false ∨ s'.stop = true
  stop : s'.stop = false → s.stop = false

theorem Quiet.refl (s : Supervision) : Quiet s s := ⟨rfl, rfl, .inl, id⟩

/-- The loop goes on. -/
theorem Quiet.moves {s' : Supervision} (hstored : s'.stored = s.stored)
    (hrefused : s'.refused = s.refused) (hstop : s'.stop = s.stop) (hrunning : s'.running = true) :
    Quiet s s' :=
  ⟨hstored, hrefused, fun h => absurd (hrunning.symm.trans h) (by decide), fun h => hstop ▸ h⟩

theorem Quiet.conclude (s : Supervision) {outcome : ConnectionOutcome}
    (h : ¬ ∃ reason, (s.policy.after outcome).1 = .stop reason) : Quiet s (s.conclude outcome) :=
  .moves (conclude_stored s outcome) (conclude_refused s outcome) (conclude_stop s outcome)
    (Bool.of_not_eq_false fun hrunning => h ((conclude_running s outcome).mp hrunning))

/-- The loop ends as requested. -/
theorem Quiet.ends {s' : Supervision} (hstored : s'.stored = s.stored)
    (hrefused : s'.refused = s.refused) (hstop : s'.stop = true) : Quiet s s' :=
  ⟨hstored, hrefused, fun _ => .inr hstop, fun h => absurd (hstop.symm.trans h) (by decide)⟩

theorem quiet_step {event : SuperviseEvent} (hcall : ∀ call, event ≠ .call call)
    (hfailed : ∀ failure, event ≠ .handshakeFailed failure) :
    Quiet s (s.step config event) := by
  cases event with
  | call call => exact absurd rfl (hcall call)
  | handshakeFailed failure => exact absurd rfl (hfailed failure)
  | requestStop => exact .ends rfl rfl rfl
  | check =>
      cases hpoint : s.point with
      | top =>
          simp only [step, hpoint]
          split_ifs with hstop
          · exact .ends rfl rfl hstop
          · exact .moves rfl rfl rfl rfl
          · exact .moves rfl rfl rfl rfl
      | _ =>
          simp only [step, hpoint]
          exact .refl s
  | readEnrollment fault =>
      cases hpoint : s.point with
      | readingEnrollment =>
          cases hstored : s.stored with
          | none =>
              simp only [step, hpoint, hstored]
              exact .moves rfl rfl rfl rfl
          | some enrollment =>
              simp only [step, hpoint, hstored]
              exact .moves rfl rfl rfl (by cases fault <;> rfl)
      | _ =>
          simp only [step, hpoint]
          exact .refl s
  | readKey fault =>
      cases hpoint : s.point with
      | readingKey enrollment =>
          simp only [step, hpoint]
          split_ifs
          · exact .moves rfl rfl rfl rfl
          · exact .moves rfl rfl rfl rfl
      | _ =>
          simp only [step, hpoint]
          exact .refl s
  | connected =>
      cases hpoint : s.point with
      | connecting enrollment =>
          simp only [step, hpoint]
          exact .moves rfl rfl rfl rfl
      | _ =>
          simp only [step, hpoint]
          exact .refl s
  | transportFailed reason =>
      cases hpoint : s.point with
      | connecting enrollment | inSession enrollment =>
          simp only [step, hpoint]
          exact .conclude s (by rintro ⟨reason, hreason⟩; cases hreason)
      | _ =>
          simp only [step, hpoint]
          exact .refl s
  | sessionEnded =>
      cases hpoint : s.point with
      | inSession enrollment =>
          simp only [step, hpoint]
          exact .conclude s (by rintro ⟨reason, hreason⟩; cases hreason)
      | _ =>
          simp only [step, hpoint]
          exact .refl s
  | stopped =>
      cases hstop : s.stop with
      | false =>
          simp only [step, hstop]
          exact .refl s
      | true =>
          cases hpoint : s.point with
          | inSession enrollment =>
              simp only [step, hstop, hpoint]
              exact .ends (by simp) (by simp) (by simp [hstop])
          | rechecking | backingOff delay =>
              simp only [step, hstop, hpoint]
              exact .ends rfl rfl rfl
          | _ =>
              simp only [step, hstop, hpoint]
              exact .refl s
  | woken seed =>
      cases hwake : s.wake with
      | false =>
          simp only [step, hwake]
          exact .refl s
      | true =>
          cases hpoint : s.point with
          | inSession enrollment | backingOff delay | rechecking =>
              simp only [step, hwake, hpoint]
              exact .moves rfl rfl rfl rfl
          | _ =>
              simp only [step, hwake, hpoint]
              exact .refl s
  | elapsed =>
      cases hpoint : s.point with
      | rechecking | backingOff delay =>
          simp only [step, hpoint]
          exact .moves rfl rfl rfl rfl
      | _ =>
          simp only [step, hpoint]
          exact .refl s

theorem Quiet.served {s' : Supervision} (hquiet : Quiet s s') (h : Served s) : Served s' := by
  intro hstop enrollment hstored hrefused
  refine Bool.of_not_eq_false fun hended => ?_
  have hrunning := h (hquiet.stop hstop) enrollment (hquiet.stored ▸ hstored)
    (hquiet.refused ▸ hrefused)
  rcases hquiet.running hended with hbefore | hstopped
  · exact absurd (hrunning.symm.trans hbefore) (by decide)
  · exact absurd (hstop.symm.trans hstopped) (by decide)

variable (config) in
/-- A refusal ends the loop, or it goes on. -/
theorem handshakeFailed_step (failure : HandshakeFailure) {enrollment : CloudEnrollment}
    (hpoint : s.point = .connecting enrollment) :
    (failure.ends = true ∧ (s.step config (.handshakeFailed failure)).running = false ∧
        (s.step config (.handshakeFailed failure)).stored = s.stored ∧
        (s.step config (.handshakeFailed failure)).stop = s.stop ∧
        (s.step config (.handshakeFailed failure)).refused = some enrollment) ∨
      (failure.ends = false ∧ Quiet s (s.step config (.handshakeFailed failure))) := by
  simp only [step, hpoint]
  cases hends : failure.ends with
  | true =>
      refine .inl ⟨rfl, (conclude_running _ _).mpr ?_, conclude_stored _ _, conclude_stop _ _,
        conclude_refused _ _⟩
      exact (ReconnectPolicy.after_handshakeFailed _ failure).mpr hends
  | false =>
      refine .inr ⟨rfl, .conclude s fun hstop => ?_⟩
      have := (ReconnectPolicy.after_handshakeFailed _ failure).mp hstop
      exact absurd (hends.symm.trans this) (by decide)

theorem Served.step (h : Served s) {event : SuperviseEvent} (hserving : s.serving event = true) :
    Served (s.step config event) := by
  cases event with
  | call event =>
      intro hstop enrollment hstored hrefused
      change s.stop = false at hstop
      change s.refused ≠ some enrollment at hrefused
      show s.running = true
      rcases Enrollments.enrollment_of_step hstored with hbefore | hsaves
      · exact h hstop enrollment hbefore hrefused
      · simpa [serving, hstop, hsaves, hrefused] using hserving
  | handshakeFailed failure =>
      cases hpoint : s.point with
      | connecting enrollment =>
          rcases handshakeFailed_step config failure hpoint with
            ⟨hends, -, hsame, hstop', hrefused'⟩ | ⟨-, hquiet⟩
          · intro hstop stored hstored hrefused
            rw [hstop'] at hstop
            rw [hsame] at hstored
            rw [hrefused', ne_eq, Option.some.injEq] at hrefused
            simp [serving, hpoint, hstop, hends, hstored, Ne.symm hrefused] at hserving
          · exact hquiet.served h
      | _ => simpa only [Supervision.step, hpoint] using h
  | _ => exact (quiet_step (by simp) (by simp)).served h

theorem serving_of_served {event : SuperviseEvent}
    (hserved : Served (s.step config event)) : s.serving event = true := by
  cases event with
  | call event =>
      cases hsaves : s.enrollments.saves event with
      | none => simp [serving, hsaves]
      | some enrollment =>
          by_contra hnot
          simp only [serving, hsaves, Bool.or_eq_true, beq_iff_eq, not_or,
            Bool.not_eq_true] at hnot
          obtain ⟨⟨hstop, hended⟩, hrefused⟩ := hnot
          have hrunning : s.running = true :=
            hserved hstop enrollment (Enrollments.saves_step hsaves) hrefused
          exact absurd (hrunning.symm.trans hended) (by decide)
  | handshakeFailed failure =>
      cases hpoint : s.point with
      | connecting enrollment =>
          rcases handshakeFailed_step config failure hpoint with
            ⟨hends, hended, hsame, hstop', hrefused'⟩ | ⟨hends, -⟩
          · by_contra hnot
            simp only [serving, hpoint, hends, Bool.not_true, Bool.or_false, Bool.or_eq_true,
              not_or, Bool.not_eq_true] at hnot
            obtain ⟨hstop, hother⟩ := hnot
            cases hstored : s.stored with
            | none => simp [hstored] at hother
            | some stored =>
                have hne : stored ≠ enrollment := by simpa [hstored] using hother
                have hrunning := hserved (hstop'.trans hstop) stored (hsame.trans hstored) (by
                  rw [hrefused', ne_eq, Option.some.injEq]
                  exact hne.symm)
                exact absurd (hrunning.symm.trans hended) (by decide)
          · simp [serving, hpoint, hends]
      | _ => simp only [serving, hpoint]
  | _ => rfl

/-- **A later enrollment finds a loop to use it** in every state of a run exactly when each event
of the run leaves it one. -/
theorem reenrollment_served_iff (config : SuperviseConfig) (store : CloudStore) (seed : UInt64)
    (events : List SuperviseEvent) :
    (∀ n, Served (Machine.run (step config) (start config store seed) (events.take n))) ↔
      Machine.Every (step config) (fun s event => s.serving event = true)
        (start config store seed) events :=
  Machine.forall_take_iff_every (I := Served) (.of_running rfl) (fun _ h => h)
    (fun _ _ h hserving => h.step hserving) fun _ _ _ hserved => serving_of_served hserved

/-! #### A revocation -/

def loopConfig : SuperviseConfig := ⟨Enrollments.enabledConfig, 1, 300⟩

/-- The installation as enrolled with a tenant. -/
def enrolledWith (tenant : Uuid) : CloudStore :=
  ⟨some 0, some "token", some ⟨1, tenant, "host", ⟨0⟩, none⟩, 0⟩

/-- The cloud revokes the installation as it connects. -/
def revocation : List SuperviseEvent :=
  [.check, .readEnrollment false, .readKey false,
    .handshakeFailed (.rejected "REVOKED" "instance revoked")]

/-- The operator forgets the enrollment, and enrolls with another tenant. -/
def reenrollment : List SuperviseEvent :=
  ((EnrollmentEvent.forget 1 :: Enrollments.turns 1 14 Enrollments.granted) ++
    (.enroll 2 Enrollments.request :: Enrollments.turns 2 5
      (.granted ⟨1, 8, "host", "token", "1.2.0"⟩))).map .call

/-- **A revoked installation that enrolls again is not connected**: the loop has returned. -/
theorem reenrollment_not_served :
    ¬ ∀ config store seed events,
        Served (Machine.run (step config) (start config store seed) events) := by
  intro h
  have hserved := h loopConfig (enrolledWith 7) 1 (revocation ++ reenrollment) (by decide)
    ⟨1, 8, "host", ⟨0⟩, none⟩ (by decide) (by decide)
  exact absurd hserved (by decide)

end Supervision
end Argus
