import Argus.Daemon.CloudSupervise
import Argus.Lib.Checked
import Mathlib.Data.Nat.ModEq

/-!
# The arithmetic of reconnecting

The modulus of the jitter is the ceiling in milliseconds and one, in 64 bits. Where the ceiling is
the greatest 64-bit number that sum overflows: checked arithmetic panics there, and wrapping
arithmetic divides by zero. Everything else is safe, and within its bounds.

`reconnect_safe_iff` says for which runs, and for which validated settings, that never happens.
-/

namespace Argus

open Checked (maxU64)

/-! ### The settings -/

/-- The cloud settings that are validated. -/
structure CloudSettings extends SuperviseConfig where
  telemetryIntervalSeconds : Nat
  reportBufferMaxRecords : Nat
  requestTimeoutSeconds : Nat
  maxConcurrentPrivileged : Nat

/-- Why a cloud configuration was rejected. -/
inductive CloudConfigError
  | missingEndpoint
  | belowMinimum (field : String) (min actual : Nat)
  | reconnectRangeInverted (base max : Nat)
  | insecureEndpoint (endpoint : String)
  deriving DecidableEq

def checkMin (field : String) (actual min : Nat) : Except CloudConfigError Unit :=
  if actual < min then .error (.belowMinimum field min actual) else .ok ()

namespace CloudSettings

/-- The endpoint of an enabled connection is there, and a WebSocket URL. -/
def checkEndpoint (settings : CloudSettings) : Except CloudConfigError Unit :=
  if settings.enabled then
    match settings.endpoint with
    | none => .error .missingEndpoint
    | some endpoint =>
        if "wss://".toList.isPrefixOf endpoint.toList || "ws://".toList.isPrefixOf endpoint.toList
        then .ok ()
        else .error (.insecureEndpoint endpoint)
  else .ok ()

def validate (settings : CloudSettings) : Except CloudConfigError Unit := do
  settings.checkEndpoint
  checkMin "telemetry_interval_seconds" settings.telemetryIntervalSeconds 10
  checkMin "report_buffer_max_records" settings.reportBufferMaxRecords 100
  checkMin "request_timeout_seconds" settings.requestTimeoutSeconds 1
  checkMin "max_concurrent_privileged" settings.maxConcurrentPrivileged 1
  checkMin "reconnect_base_seconds" settings.reconnectBaseSeconds 1
  if settings.reconnectMaxSeconds < settings.reconnectBaseSeconds then
    .error (.reconnectRangeInverted settings.reconnectBaseSeconds settings.reconnectMaxSeconds)
  else .ok ()

/-- A check that is followed by others has passed. -/
theorem bind_eq_ok {check : Except CloudConfigError Unit}
    {rest : Unit → Except CloudConfigError Unit} (h : (check >>= rest) = .ok ()) :
    check = .ok () ∧ rest () = .ok () := by
  cases check with
  | error error => cases h
  | ok => exact ⟨rfl, h⟩

theorem checkMin_eq_ok {field : String} {actual min : Nat}
    (h : checkMin field actual min = .ok ()) : min ≤ actual := by
  unfold checkMin at h
  split_ifs at h with hbelow
  exact Nat.le_of_not_lt hbelow

/-- What the reconnection relies on. -/
theorem reconnect_of_validate {settings : CloudSettings} (h : settings.validate = .ok ()) :
    1 ≤ settings.reconnectBaseSeconds ∧
      settings.reconnectBaseSeconds ≤ settings.reconnectMaxSeconds := by
  obtain ⟨-, h⟩ := bind_eq_ok h
  obtain ⟨-, h⟩ := bind_eq_ok h
  obtain ⟨-, h⟩ := bind_eq_ok h
  obtain ⟨-, h⟩ := bind_eq_ok h
  obtain ⟨-, h⟩ := bind_eq_ok h
  obtain ⟨hbase, h⟩ := bind_eq_ok h
  refine ⟨checkMin_eq_ok hbase, ?_⟩
  split_ifs at h with hinverted
  exact Nat.le_of_not_lt hinverted

end CloudSettings

/-! ### The backoff, with its overflow -/

/-- The ceiling after so many delays. -/
def ceilingAt (base max attempt : Nat) : Nat :=
  let shift := min attempt 63
  let factor := if shift < 32 then 1 <<< shift else 0xFFFFFFFF
  min (base * factor) max

namespace Backoff

variable {b : Backoff}

/-- `nextDelay`, where the modulus may overflow. -/
def tryNextDelay (b : Backoff) : Option (Nat × Backoff) :=
  let ceiling := min b.ceiling maxU64
  if ceiling = 0 then some (0, { b with attempt := min (b.attempt + 1) 0xFFFFFFFF })
  else
    -- the only sum of the schedule that does not saturate
    let (random, b) := b.nextU64
    (Checked.add ceiling 1).map fun modulus =>
      (random.toNat % modulus, { b with attempt := min (b.attempt + 1) 0xFFFFFFFF })

theorem tryNextDelay_eq :
    b.tryNextDelay = if b.ceiling < maxU64 then some b.nextDelay else none := by
  have hmax : (0xFFFFFFFFFFFFFFFF : Nat) = maxU64 := rfl
  unfold tryNextDelay nextDelay
  rw [hmax]
  dsimp only
  split_ifs with hzero hbelow hbelow
  · rfl
  · exact absurd (lt_of_le_of_lt (by omega : b.ceiling ≤ 0) (by decide : 0 < maxU64)) hbelow
  · rw [Nat.min_eq_left hbelow.le, Checked.add_of_le hbelow]
    rfl
  · rw [Nat.min_eq_right (Nat.le_of_not_lt hbelow), Checked.add, if_neg (by omega)]
    rfl

theorem ceiling_eq : b.ceiling = ceilingAt b.base b.max b.attempt := rfl

/-- What a delay leaves of the backoff. -/
theorem nextDelay_frame : b.nextDelay.2.base = b.base ∧ b.nextDelay.2.max = b.max ∧
    b.nextDelay.2.attempt = min (b.attempt + 1) 0xFFFFFFFF := by
  unfold nextDelay
  dsimp only
  split_ifs <;> exact ⟨rfl, rfl, rfl⟩

theorem nextDelay_le_ceiling (b : Backoff) : b.nextDelay.1 ≤ b.ceiling := by
  unfold nextDelay
  dsimp only
  split_ifs with hzero
  · exact Nat.zero_le _
  · exact (Nat.lt_succ_iff.mp (Nat.mod_lt _ (Nat.succ_pos _))).trans (Nat.min_le_left ..)

/-! #### The jitter source -/

theorem xor_shiftRight_ne_zero {x k : UInt64} (hx : x ≠ 0) (hk : 0 < k.toNat % 64) :
    x ^^^ (x >>> k) ≠ 0 := by
  intro h
  have heq := UInt64.xor_eq_zero_iff.mp h
  have hnat := congrArg UInt64.toNat heq
  rw [UInt64.toNat_shiftRight, Nat.shiftRight_eq_div_pow] at hnat
  have hpos : 0 < x.toNat := Nat.pos_of_ne_zero fun hzero => hx (UInt64.toNat_inj.mp hzero)
  exact absurd hnat (Nat.div_lt_self hpos (Nat.one_lt_two_pow (Nat.ne_of_gt hk))).ne'

/-- No number below `2 ^ 64` but zero is its own shift, since `2 ^ 25 - 1` is odd. -/
theorem eq_zero_of_shift {x : Nat} (hlt : x < 2 ^ 64) (hx : x = x * 2 ^ 25 % 2 ^ 64) : x = 0 := by
  have hmod : x * 2 ^ 25 ≡ x [MOD 2 ^ 64] := by
    unfold Nat.ModEq
    rw [← hx, Nat.mod_eq_of_lt hlt]
  have hdvd : 2 ^ 64 ∣ x * 2 ^ 25 - x :=
    (Nat.modEq_iff_dvd' (Nat.le_mul_of_pos_right x (by decide))).mp hmod.symm
  rw [← Nat.mul_sub_one] at hdvd
  have hcoprime : Nat.Coprime (2 ^ 64) (2 ^ 25 - 1) := Nat.Coprime.pow_left 64 (by decide)
  exact Nat.eq_zero_of_dvd_of_lt (hcoprime.dvd_of_dvd_mul_right hdvd) hlt

theorem xor_shiftLeft_ne_zero {x : UInt64} (hx : x ≠ 0) : x ^^^ (x <<< 25) ≠ 0 := by
  intro h
  have hnat := congrArg UInt64.toNat (UInt64.xor_eq_zero_iff.mp h)
  rw [UInt64.toNat_shiftLeft, Nat.shiftLeft_eq] at hnat
  exact hx (UInt64.toNat_inj.mp (eq_zero_of_shift x.toNat_lt hnat))

theorem nextU64_state_ne_zero (h : b.state ≠ 0) : b.nextU64.2.state ≠ 0 :=
  xor_shiftRight_ne_zero
    (xor_shiftLeft_ne_zero (xor_shiftRight_ne_zero h (by decide))) (by decide)

theorem nextDelay_state_ne_zero (h : b.state ≠ 0) : b.nextDelay.2.state ≠ 0 := by
  unfold nextDelay
  dsimp only
  split_ifs
  · exact h
  · exact nextU64_state_ne_zero h

theorem withSeed_state_ne_zero (base max : Nat) (seed : UInt64) :
    (withSeed base max seed).state ≠ 0 := by
  unfold withSeed
  dsimp only
  split_ifs with hzero
  · decide
  · exact hzero

end Backoff

/-! ### The ceilings -/

theorem ceilingAt_le_max (base max attempt : Nat) : ceilingAt base max attempt ≤ max :=
  Nat.min_le_right ..

theorem ceilingAt_mono {attempt later : Nat} (h : attempt ≤ later) (base max : Nat) :
    ceilingAt base max attempt ≤ ceilingAt base max later := by
  unfold ceilingAt
  refine min_le_min_right max (Nat.mul_le_mul_left base ?_)
  split_ifs with hattempt hlater
  · rw [Nat.one_shiftLeft, Nat.one_shiftLeft]
    exact Nat.pow_le_pow_right (by decide) (by omega)
  · rw [Nat.one_shiftLeft]
    exact (Nat.pow_le_pow_right (by decide) (by omega : min attempt 63 ≤ 31)).trans (by decide)
  · omega
  · exact Nat.le_refl _

/-- From the 32nd delay on the factor is the greatest 32-bit number. -/
theorem ceilingAt_of_le {attempt : Nat} (h : 32 ≤ attempt) (base max : Nat) :
    ceilingAt base max attempt = min (base * 0xFFFFFFFF) max := by
  unfold ceilingAt
  dsimp only
  rw [if_neg (by omega)]

/-! ### The policy -/

/-- The outcome makes the policy hand out a delay. -/
def ConnectionOutcome.handsOut : ConnectionOutcome → Bool
  | .sessionEnded | .transportFailed _ => true
  | .handshakeFailed failure => !failure.ends
  | .stopped => false

def ConnectionOutcome.isRateLimited : ConnectionOutcome → Bool
  | .handshakeFailed failure => failure.isRateLimited
  | _ => false

/-- What happens to the policy: a session is established, or a connection attempt is over. -/
inductive PolicyEvent
  | connected
  | ended (outcome : ConnectionOutcome)

namespace ReconnectPolicy

variable {policy : ReconnectPolicy} {outcome : ConnectionOutcome}

/-- The next delay, where the modulus may overflow. -/
def tryDelay (policy : ReconnectPolicy) : Option (Nat × ReconnectPolicy) :=
  policy.backoff.tryNextDelay.map fun (delay, backoff) => (delay, { policy with backoff })

/-- `after`, where the modulus may overflow. -/
def tryAfter (policy : ReconnectPolicy) :
    ConnectionOutcome → Option (NextAction × ReconnectPolicy)
  | .stopped => some (.stop .requested, policy)
  | .sessionEnded => policy.tryDelay.map fun (delay, policy) => (.reconnect delay, policy)
  | .transportFailed _ => policy.tryDelay.map fun (delay, policy) => (.reconnect delay, policy)
  | .handshakeFailed failure =>
      if failure.isTerminal then some (.stop .revoked, policy)
      else if failure.isVersionMismatch then some (.stop .unsupportedVersion, policy)
      else
        policy.tryDelay.map fun (delay, policy) =>
          if failure.isRateLimited then (.reconnect (max delay policy.rateLimitFloor), policy)
          else (.reconnect delay, policy)

theorem tryDelay_eq : policy.tryDelay = if maxU64 ≤ policy.backoff.ceiling then none
    else some (policy.backoff.nextDelay.1, policy.delayed) := by
  rw [tryDelay, Backoff.tryNextDelay_eq]
  by_cases hceiling : policy.backoff.ceiling < maxU64
  · rw [if_pos hceiling, if_neg (Nat.not_le_of_lt hceiling), Option.map_some, delayed]
  · rw [if_neg hceiling, if_pos (Nat.le_of_not_lt hceiling), Option.map_none]

/-- `tryAfter` is `after`, unless a delay is due and the ceiling is the greatest 64-bit number. -/
theorem tryAfter_eq : policy.tryAfter outcome =
    if outcome.handsOut = true ∧ maxU64 ≤ policy.backoff.ceiling then none
    else some (policy.after outcome) := by
  cases outcome with
  | stopped => rfl
  | sessionEnded | transportFailed reason =>
      simp only [tryAfter, after, tryDelay_eq, ConnectionOutcome.handsOut, true_and]
      -- the delay is kept closed, or unification computes it
      generalize policy.backoff.nextDelay.1 = delay
      split_ifs <;> rfl
  | handshakeFailed failure =>
      simp only [tryAfter, after, tryDelay_eq, ConnectionOutcome.handsOut, HandshakeFailure.ends]
      by_cases hterminal : failure.isTerminal = true <;>
        by_cases hversion : failure.isVersionMismatch = true <;>
        by_cases hlimited : failure.isRateLimited = true <;>
        by_cases hceiling : maxU64 ≤ policy.backoff.ceiling <;>
        simp [hterminal, hversion, hlimited, hceiling, delayed]

/-- One event. `none` is an overflow, and only an outcome has a next action. -/
def step (policy : ReconnectPolicy) : PolicyEvent → Option (Option NextAction × ReconnectPolicy)
  | .connected => some (none, policy.noteConnected)
  | .ended outcome => (policy.tryAfter outcome).map fun (action, policy) => (some action, policy)

/-- What the claims on one event come to. `cap` is the configured maximum. -/
structure Within (cap : Nat) (policy : ReconnectPolicy) (event : PolicyEvent)
    (action : Option NextAction) (next : ReconnectPolicy) : Prop where
  ordinary : ∀ outcome delay, event = .ended outcome → outcome.isRateLimited = false →
    action = some (.reconnect delay) → delay ≤ policy.backoff.ceiling
  rateLimited : ∀ outcome delay, event = .ended outcome → outcome.isRateLimited = true →
    action = some (.reconnect delay) → 60000 ≤ delay
  climbs : event ≠ .connected → policy.backoff.ceiling ≤ next.backoff.ceiling
  capped : policy.backoff.ceiling ≤ cap ∧ next.backoff.ceiling ≤ cap
  seeded : policy.backoff.state ≠ 0 ∧ next.backoff.state ≠ 0

/-- Every event of the run is computed, within its bounds. -/
def Safe (cap : Nat) : ReconnectPolicy → List PolicyEvent → Prop
  | _, [] => True
  | policy, event :: events => ∃ action next, policy.step event = some (action, next) ∧
      Within cap policy event action next ∧ Safe cap next events

end ReconnectPolicy

/-- At every delay that is handed out the ceiling is below the greatest 64-bit number. `attempt` is
the number of delays since the last session. -/
def CeilingsFit (base max : Nat) : Nat → List PolicyEvent → Prop
  | _, [] => True
  | _, .connected :: events => CeilingsFit base max 0 events
  | attempt, .ended outcome :: events =>
      if outcome.handsOut then
        ceilingAt base max attempt < maxU64 ∧
          CeilingsFit base max (min (attempt + 1) 0xFFFFFFFF) events
      else CeilingsFit base max attempt events

namespace ReconnectPolicy

/-- The policy of a base and a cap, with a living jitter source. -/
structure Tuned (base cap : Nat) (policy : ReconnectPolicy) : Prop where
  base_eq : policy.backoff.base = base
  max_eq : policy.backoff.max = cap
  floor_eq : policy.rateLimitFloor = 60000
  attempt_le : policy.backoff.attempt ≤ 0xFFFFFFFF
  seeded : policy.backoff.state ≠ 0

variable {policy next : ReconnectPolicy} {outcome : ConnectionOutcome} {event : PolicyEvent}
  {base cap : Nat}

theorem Tuned.ceiling_eq (h : policy.Tuned base cap) :
    policy.backoff.ceiling = ceilingAt base cap policy.backoff.attempt := by
  rw [Backoff.ceiling_eq, h.base_eq, h.max_eq]

theorem Tuned.ceiling_le (h : policy.Tuned base cap) : policy.backoff.ceiling ≤ cap := by
  rw [h.ceiling_eq]
  exact ceilingAt_le_max base cap _

theorem Tuned.noteConnected (h : policy.Tuned base cap) : policy.noteConnected.Tuned base cap :=
  ⟨h.base_eq, h.max_eq, h.floor_eq, Nat.zero_le _, h.seeded⟩

theorem Tuned.delayed (h : policy.Tuned base cap) : policy.delayed.Tuned base cap := by
  obtain ⟨hbase, hmax, hattempt⟩ := policy.backoff.nextDelay_frame
  have hseeded := Backoff.nextDelay_state_ne_zero h.seeded
  rw [ReconnectPolicy.delayed]
  generalize policy.backoff.nextDelay = next at hbase hmax hattempt hseeded ⊢
  exact ⟨hbase.trans h.base_eq, hmax.trans h.max_eq, h.floor_eq,
    hattempt.trans_le (Nat.min_le_right ..), hseeded⟩

/-- What an outcome leaves of the policy. -/
theorem after_snd (policy : ReconnectPolicy) (outcome : ConnectionOutcome) :
    (policy.after outcome).2 = if outcome.handsOut then policy.delayed else policy := by
  cases outcome with
  | stopped => rfl
  | sessionEnded | transportFailed reason => rfl
  | handshakeFailed failure =>
      simp only [after, ConnectionOutcome.handsOut, HandshakeFailure.ends]
      by_cases hterminal : failure.isTerminal = true <;>
        by_cases hversion : failure.isVersionMismatch = true <;>
        by_cases hlimited : failure.isRateLimited = true <;>
        simp [hterminal, hversion, hlimited]

/-- A delay that is asked for is the backoff's, or the floor where that is more. -/
theorem after_fst {delay : Nat} (h : (policy.after outcome).1 = .reconnect delay) :
    delay = if outcome.isRateLimited then max policy.backoff.nextDelay.1 policy.rateLimitFloor
      else policy.backoff.nextDelay.1 := by
  cases outcome with
  | stopped => cases h
  | sessionEnded | transportFailed reason =>
      rw [after] at h
      generalize policy.backoff.nextDelay.1 = computed at h ⊢
      cases h
      rfl
  | handshakeFailed failure =>
      simp only [after] at h
      simp only [ConnectionOutcome.isRateLimited]
      generalize policy.backoff.nextDelay.1 = computed at h ⊢
      split_ifs at h with hterminal hversion hlimited
      · cases h
        exact (if_pos hlimited).symm
      · cases h
        exact (if_neg hlimited).symm

theorem Tuned.after (h : policy.Tuned base cap) (outcome : ConnectionOutcome) :
    (policy.after outcome).2.Tuned base cap := by
  rw [after_snd]
  split_ifs
  · exact h.delayed
  · exact h

theorem delayed_attempt :
    policy.delayed.backoff.attempt = min (policy.backoff.attempt + 1) 0xFFFFFFFF :=
  policy.backoff.nextDelay_frame.2.2

theorem Tuned.ceiling_le_after (h : policy.Tuned base cap) (outcome : ConnectionOutcome) :
    policy.backoff.ceiling ≤ (policy.after outcome).2.backoff.ceiling := by
  rw [h.ceiling_eq, (h.after outcome).ceiling_eq, after_snd]
  refine ceilingAt_mono ?_ base cap
  have hle := h.attempt_le
  split_ifs
  · rw [delayed_attempt]
    omega
  · exact Nat.le_refl _

/-- What is computed is within its bounds. -/
theorem Tuned.within_after (h : policy.Tuned base cap) (outcome : ConnectionOutcome) :
    Within cap policy (.ended outcome) (some (policy.after outcome).1)
      (policy.after outcome).2 where
  ordinary := by
    rintro _ delay ⟨⟩ hlimited haction
    rw [after_fst (Option.some.inj haction), if_neg (by simp [hlimited])]
    exact policy.backoff.nextDelay_le_ceiling
  rateLimited := by
    rintro _ delay ⟨⟩ hlimited haction
    rw [after_fst (Option.some.inj haction), if_pos hlimited, h.floor_eq]
    exact Nat.le_max_right ..
  climbs := fun _ => h.ceiling_le_after outcome
  capped := ⟨h.ceiling_le, (h.after outcome).ceiling_le⟩
  seeded := ⟨h.seeded, (h.after outcome).seeded⟩

theorem Tuned.within_connected (h : policy.Tuned base cap) :
    Within cap policy .connected none policy.noteConnected where
  ordinary := nofun
  rateLimited := nofun
  climbs := fun hne => absurd rfl hne
  capped := ⟨h.ceiling_le, h.noteConnected.ceiling_le⟩
  seeded := ⟨h.seeded, h.noteConnected.seeded⟩

/-- A run is safe exactly if the ceilings fit. The induction is on the events, and what every policy
of the run keeps is that it is tuned. -/
theorem Tuned.safe_iff (h : policy.Tuned base cap) (events : List PolicyEvent) :
    Safe cap policy events ↔ CeilingsFit base cap policy.backoff.attempt events := by
  induction events generalizing policy with
  | nil => exact Iff.rfl
  | cons event events ih =>
      cases event with
      | connected =>
          -- the delays are counted from here again
          rw [CeilingsFit, ← show policy.noteConnected.backoff.attempt = 0 from rfl,
            ← ih h.noteConnected]
          constructor
          · rintro ⟨action, next, hstep, -, hsafe⟩
            cases hstep
            exact hsafe
          · exact fun hsafe => ⟨none, _, rfl, h.within_connected, hsafe⟩
      | ended outcome =>
          have hafter := ih (h.after outcome)
          rw [after_snd] at hafter
          have hstep : policy.step (.ended outcome) =
              if outcome.handsOut = true ∧ maxU64 ≤ policy.backoff.ceiling then none
              else some (some (policy.after outcome).1, (policy.after outcome).2) := by
            rw [step, tryAfter_eq]
            split_ifs <;> rfl
          rw [h.ceiling_eq] at hstep
          rw [CeilingsFit]
          by_cases hhands : outcome.handsOut = true
          · -- a delay is due: its ceiling has to fit, and it counts
            rw [if_pos hhands]
            rw [if_pos hhands, delayed_attempt] at hafter
            rw [← hafter]
            constructor
            · rintro ⟨action, next, hnext, -, hsafe⟩
              rw [hstep] at hnext
              split_ifs at hnext with hover
              cases hnext
              rw [after_snd, if_pos hhands] at hsafe
              exact ⟨Nat.lt_of_not_le fun hle => hover ⟨hhands, hle⟩, hsafe⟩
            · rintro ⟨hfits, hsafe⟩
              refine ⟨_, _, hstep.trans (if_neg fun hover => ?_), h.within_after outcome, ?_⟩
              · exact absurd hfits (Nat.not_lt.mpr hover.2)
              · rwa [after_snd, if_pos hhands]
          · -- no delay is due, and the backoff stays
            rw [if_neg hhands]
            rw [if_neg hhands] at hafter
            rw [← hafter]
            constructor
            · rintro ⟨action, next, hnext, -, hsafe⟩
              rw [hstep, if_neg fun hover => hhands hover.1] at hnext
              cases hnext
              rwa [after_snd, if_neg hhands] at hsafe
            · intro hsafe
              refine ⟨_, _, hstep.trans (if_neg fun hover => hhands hover.1),
                h.within_after outcome, ?_⟩
              rwa [after_snd, if_neg hhands]

end ReconnectPolicy

/-! ### The settings that are safe -/

section Fits

variable {base max attempt : Nat} {events : List PolicyEvent}

/-- No ceiling is above that of the greatest factor. -/
theorem ceilingAt_le_last (base max attempt : Nat) :
    ceilingAt base max attempt ≤ min (base * 0xFFFFFFFF) max := by
  rw [← ceilingAt_of_le (Nat.le_max_right attempt 32)]
  exact ceilingAt_mono (Nat.le_max_left attempt 32) base max

theorem ceilingsFit_of_last (h : min (base * 0xFFFFFFFF) max < maxU64) :
    CeilingsFit base max attempt events := by
  induction events generalizing attempt with
  | nil => trivial
  | cons event events ih =>
      cases event with
      | connected => exact ih
      | ended outcome =>
          rw [CeilingsFit]
          split_ifs
          · exact ⟨(ceilingAt_le_last base max attempt).trans_lt h, ih⟩
          · exact ih

/-- A failure after so many others. -/
theorem ceilingAt_of_failures {n : Nat} (hattempt : attempt + n ≤ 0xFFFFFFFF)
    (h : CeilingsFit base max attempt
      (List.replicate (n + 1) (.ended (.transportFailed "refused")))) :
    ceilingAt base max (attempt + n) < maxU64 := by
  induction n generalizing attempt with
  | zero => exact h.1
  | succ n ih =>
      have hrest := h.2
      rw [Nat.min_eq_left (by omega)] at hrest
      have hlast := ih (by omega) hrest
      rwa [Nat.add_right_comm, Nat.add_assoc] at hlast

end Fits

namespace CloudSettings

theorem tuned_policy {settings : CloudSettings} (h : settings.validate = .ok ()) (seed : UInt64) :
    (settings.policy seed).Tuned (1000 * settings.reconnectBaseSeconds)
      (1000 * settings.reconnectMaxSeconds) := by
  obtain ⟨hbase, hmax⟩ := reconnect_of_validate h
  refine ⟨?_, ?_, rfl, Nat.zero_le _, Backoff.withSeed_state_ne_zero _ _ seed⟩
  · show 1000 * max settings.reconnectBaseSeconds 1 = 1000 * settings.reconnectBaseSeconds
    rw [Nat.max_eq_left hbase]
  · show max (1000 * max settings.reconnectMaxSeconds 1)
      (1000 * max settings.reconnectBaseSeconds 1) = 1000 * settings.reconnectMaxSeconds
    omega

/-- A run of the reconnect policy is safe exactly if the ceiling is below the greatest 64-bit number
of milliseconds whenever a delay is due; and all runs are safe exactly if the last ceiling is. -/
theorem reconnect_safe_iff {settings : CloudSettings} (h : settings.validate = .ok ()) :
    (∀ seed events, (settings.policy seed).Safe (1000 * settings.reconnectMaxSeconds) events ↔
      CeilingsFit (1000 * settings.reconnectBaseSeconds) (1000 * settings.reconnectMaxSeconds) 0
        events) ∧
    ((∀ seed events, (settings.policy seed).Safe (1000 * settings.reconnectMaxSeconds) events) ↔
      min (1000 * settings.reconnectBaseSeconds * 0xFFFFFFFF)
        (1000 * settings.reconnectMaxSeconds) < maxU64) := by
  have hsafe (seed : UInt64) := (tuned_policy h seed).safe_iff
  refine ⟨hsafe, fun hall => ?_, fun hlast seed events => ?_⟩
  · -- after so many failures in a row the factor is the greatest
    have hfits : CeilingsFit _ _ 0 _ :=
      (hsafe 1 _).mp (hall 1 (List.replicate 33 (.ended (.transportFailed "refused"))))
    have hceiling := ceilingAt_of_failures (n := 32) (by decide) hfits
    rwa [ceilingAt_of_le (by decide)] at hceiling
  · exact (hsafe seed events).mpr (ceilingsFit_of_last hlast)

/-- Settings as they are by default, the reconnection apart. -/
def reconnecting (base max : Nat) : CloudSettings where
  enabled := true
  endpoint := some "wss://cloud.example"
  expectedCloudId := "argus-cloud"
  reconnectBaseSeconds := base
  reconnectMaxSeconds := max
  telemetryIntervalSeconds := 60
  reportBufferMaxRecords := 5000
  requestTimeoutSeconds := 120
  maxConcurrentPrivileged := 2

theorem reconnect_safe_default :
    ((reconnecting 1 300).policy 1).Safe 300000 [.ended (.transportFailed "refused")] :=
  (@reconnect_safe_iff (reconnecting 1 300) (by decide)).2.mpr (by decide) 1 _

/-- The settings are accepted, and the first failure overflows. -/
theorem reconnect_overflows :
    (reconnecting (2 ^ 63) (2 ^ 63)).validate = .ok () ∧
      ((reconnecting (2 ^ 63) (2 ^ 63)).policy 1).step (.ended (.transportFailed "refused")) =
        none := by
  refine ⟨by decide, ?_⟩
  rw [ReconnectPolicy.step, ReconnectPolicy.tryAfter_eq, if_pos (by decide)]
  rfl

end CloudSettings

end Argus
