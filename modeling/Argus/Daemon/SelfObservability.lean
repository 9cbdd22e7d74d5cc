import Argus.Daemon.AutonomyRestart
import Argus.Daemon.Control

/-!
# Self-observability

The daemon watches itself through a few counters and one watermark, all of them written
where a run ends (`recordRunOutcome`), and reads them at every tick of the brain loop, where
a safe mode drops the earned rung to the floor.

`Watch` is the daemon as far as this is concerned, together with what happened to it: when
its cycles consulted live state, and how the executions of its finished runs ended. The
watermark stands for finished runs and not for cycles, and the error counter never goes
down, so a safe mode is about the present only at the ticks of `PresentTick`
(`safe_mode_reflects`); `idle_host_loses_its_rung` is a healthy host at one that is not.
-/

namespace Argus

open AutonomyMode

/-- The counters and watermarks; times are in milliseconds, zero for none. -/
structure SelfObservability where
  lastDecisionAt : Nat
  lastProcessedEventMs : Nat
  executorErrors : Nat
  failedValidations : Nat
  policyDenials : Nat
  autonomousActions : Nat
  autonomousSuccesses : Nat
  remediationAttempts : Nat
  remediationSuccesses : Nat

/-- The thresholds at which the runtime degrades. -/
structure DegradationThresholds where
  maxEventLagMs : Nat
  maxExecutorErrors : Nat
  maxFailedValidations : Nat

def DegradationThresholds.default : DegradationThresholds := ⟨300000, 5, 3⟩

inductive SafeMode
  | none
  | staleInputs
  | executionSuspended
  deriving DecidableEq

/-- The part of a health snapshot the degradation rule reads. -/
structure SelfHealth where
  executorErrors : Nat
  failedValidations : Nat
  eventLagMs : Option Nat

/-- `fetch_add(1)` on a 64-bit counter. -/
def fetchAdd (counter : Nat) : Nat := (counter + 1) % 2 ^ 64

namespace SelfObservability

def new : SelfObservability := ⟨0, 0, 0, 0, 0, 0, 0, 0, 0⟩

def recordExecutorError (self : SelfObservability) : SelfObservability :=
  { self with executorErrors := fetchAdd self.executorErrors }

def recordFailedValidation (self : SelfObservability) : SelfObservability :=
  { self with failedValidations := fetchAdd self.failedValidations }

def recordPolicyDenial (self : SelfObservability) : SelfObservability :=
  { self with policyDenials := fetchAdd self.policyDenials }

def recordAutonomousAction (self : SelfObservability) (success : Bool) : SelfObservability :=
  { self with
    autonomousActions := fetchAdd self.autonomousActions
    autonomousSuccesses :=
      if success then fetchAdd self.autonomousSuccesses else self.autonomousSuccesses }

def recordRemediation (self : SelfObservability) (success : Bool) : SelfObservability :=
  { self with
    remediationAttempts := fetchAdd self.remediationAttempts
    remediationSuccesses :=
      if success then fetchAdd self.remediationSuccesses else self.remediationSuccesses }

def recordEventProcessed (self : SelfObservability) (now : Nat) : SelfObservability :=
  { self with lastProcessedEventMs := now }

def recordDecisionCompleted (self : SelfObservability) (now : Nat) : SelfObservability :=
  { self with lastDecisionAt := now }

/-- A clock behind the watermark reads no lag. -/
def snapshot (self : SelfObservability) (now : Nat) : SelfHealth where
  executorErrors := self.executorErrors
  failedValidations := self.failedValidations
  eventLagMs :=
    if self.lastProcessedEventMs = 0 then none else some (now - self.lastProcessedEventMs)

end SelfObservability

/-- The safe mode of a health snapshot. -/
def safeModeFrom (health : SelfHealth) (thresholds : DegradationThresholds) : SafeMode :=
  if thresholds.maxExecutorErrors < health.executorErrors ∨
      thresholds.maxFailedValidations < health.failedValidations then .executionSuspended
  else if health.eventLagMs.any fun lag => decide (thresholds.maxEventLagMs < lag) then .staleInputs
  else .none

/-! ### The end of a run -/

/-- What the end of a run writes: the counters and the autonomy machine. -/
structure Vitals where
  selfobs : SelfObservability
  autonomy : AutonomyManager

/-- The executions of a report that completed. -/
def ExecutionOutcome.completed (report : ExecutionOutcome) : Nat :=
  report.executions.countP fun execution => execution.status == .completed

/-- What a finished run leaves in the counters. A run that failed with no failed execution
failed after it executed, which is a failed validation. -/
def SelfObservability.recordRun (self : SelfObservability) (now : Nat)
    (report : ExecutionOutcome) : SelfObservability :=
  let self := (self.recordDecisionCompleted now).recordEventProcessed now
  let self := report.denied.foldl (fun self _ => self.recordPolicyDenial) self
  let self := report.executions.foldl
    (fun self execution =>
      if execution.status = .failed then self.recordExecutorError else self) self
  let succeeded := report.status == .completed
  let self :=
    if !succeeded && report.status == .failed &&
        report.executions.all (fun execution => execution.status != .failed) then
      self.recordFailedValidation
    else self
  (self.recordRemediation succeeded).recordAutonomousAction succeeded

/-- Records one finished run: a validation failure costs a rung, and any other end of the
run counts its completed executions as validated ones. -/
def Vitals.recordRunOutcome (vitals : Vitals) (now : Nat) (wrote : Bool)
    (report : ExecutionOutcome) : Vitals where
  selfobs := vitals.selfobs.recordRun now report
  autonomy :=
    if isValidationFailure report.status then vitals.autonomy.onValidationFailed wrote
    else vitals.autonomy.recordValidatedExecutions (report.completed % 2 ^ 32) wrote

/-! ### The autonomy tick -/

/-- What the brain loop knows of its cycle when it ticks the autonomy machine. -/
structure TickInputs where
  ceiling : AutonomyMode
  providerReady : Bool
  cloudPaired : Bool
  consultedLive : Bool
  validationFailed : Bool

/-- The safe mode at a time, under the default thresholds. -/
def Vitals.safeMode (vitals : Vitals) (now : Nat) : SafeMode :=
  safeModeFrom (vitals.selfobs.snapshot now) .default

/-- The gate signals of the tick; no incident source is wired. -/
def Vitals.signals (vitals : Vitals) (now : Nat) (inputs : TickInputs) : CycleSignals where
  ceiling := inputs.ceiling
  providerReady := inputs.providerReady
  cloudPaired := inputs.cloudPaired
  safeModeActive := vitals.safeMode now != .none
  openCriticalIncidents := 0
  liveEnvironment := inputs.consultedLive
  failedValidation := inputs.validationFailed

def Vitals.tick (vitals : Vitals) (now : Nat) (wrote : Bool) (inputs : TickInputs) : Vitals :=
  { vitals with autonomy := vitals.autonomy.onCycle (vitals.signals now inputs) wrote }

/-! ### What happened -/

/-- The daemon's vitals, with the times its cycles consulted live state at and the ends of
the executions of its finished runs, in order. -/
structure Watch where
  vitals : Vitals
  live : List Nat
  executions : List ExecutionStatus

/-- A brain cycle, periodic or on demand; the end of a run; a tick of the periodic loop. -/
inductive WatchEvent
  | cycle (now : Nat) (consultedLive : Bool)
  | finished (now : Nat) (wrote : Bool) (report : ExecutionOutcome)
  | tick (now : Nat) (wrote : Bool) (inputs : TickInputs)

namespace Watch

def handle (watch : Watch) : WatchEvent → Watch
  | .cycle now consultedLive =>
      { watch with live := if consultedLive then watch.live ++ [now] else watch.live }
  | .finished now wrote report =>
      { watch with
        vitals := watch.vitals.recordRunOutcome now wrote report
        executions := watch.executions ++ report.executions.map Execution.status }
  | .tick now wrote inputs => { watch with vitals := watch.vitals.tick now wrote inputs }

def run (watch : Watch) (events : List WatchEvent) : Watch := events.foldl handle watch

/-- A daemon at its start. -/
def start (environmentId : EnvironmentId) (config : AutonomyConfig)
    (stored : Option AutonomyState) : Watch :=
  ⟨⟨.new, .fresh environmentId config stored⟩, [], []⟩

end Watch

/-- The executor errors since the last execution that succeeded. -/
def trailingErrors (executions : List ExecutionStatus) : Nat :=
  (executions.reverse.takeWhile fun status => status == .failed).length

/-- An execution succeeded after another had failed. -/
def SuccessAfterError (executions : List ExecutionStatus) : Prop :=
  ∃ before after, executions = before ++ after ∧ ExecutionStatus.failed ∈ before ∧
    ExecutionStatus.completed ∈ after

/-- The ticks at which the watermark and the counter stand for the present: no run finished
yet, or one did within the lag, or no cycle consulted live state after it; and the error
counter is within its bound, or no execution succeeded after an error. -/
def Watch.PresentTick (watch : Watch) (now : Nat) : Prop :=
  let thresholds := DegradationThresholds.default
  (watch.vitals.selfobs.lastProcessedEventMs = 0 ∨
    now - watch.vitals.selfobs.lastProcessedEventMs ≤ thresholds.maxEventLagMs ∨
    ∀ at_ ∈ watch.live, at_ ≤ watch.vitals.selfobs.lastProcessedEventMs) ∧
  (watch.vitals.selfobs.executorErrors ≤ thresholds.maxExecutorErrors ∨
    ¬ SuccessAfterError watch.executions)

/-- The safe mode of a tick is about the present: inputs are stale only if no cycle consulted
live state within the lag, and execution is suspended for executor errors only if more than
the bound came in a row; a host that consults live state and has no such row is in no safe
mode, and keeps its rung while its provider is ready. -/
structure Watch.Reflects (watch : Watch) (now : Nat) (wrote : Bool) (inputs : TickInputs) :
    Prop where
  stale : watch.vitals.safeMode now = .staleInputs →
    ∀ at_ ∈ watch.live, DegradationThresholds.default.maxEventLagMs < now - at_
  suspended : watch.vitals.safeMode now = .executionSuspended →
    DegradationThresholds.default.maxExecutorErrors < watch.vitals.selfobs.executorErrors →
    DegradationThresholds.default.maxExecutorErrors < trailingErrors watch.executions
  healthy : (∃ at_ ∈ watch.live, now - at_ ≤ DegradationThresholds.default.maxEventLagMs) →
    trailingErrors watch.executions ≤ DegradationThresholds.default.maxExecutorErrors →
    watch.vitals.selfobs.failedValidations ≤
      DegradationThresholds.default.maxFailedValidations →
    watch.vitals.safeMode now = .none ∧
      (inputs.providerReady = true → watch.vitals.autonomy.state.earned.rank ≤
        (watch.handle (.tick now wrote inputs)).vitals.autonomy.state.earned.rank)

/-! ### The error counter -/

theorem fetchAdd_le (counter : Nat) : fetchAdd counter ≤ counter + 1 := Nat.mod_le _ _

namespace SelfObservability

theorem foldl_recordPolicyDenial (self : SelfObservability) (denied : List CapabilityId) :
    (denied.foldl (fun self _ => recordPolicyDenial self) self).executorErrors =
      self.executorErrors := by
  induction denied generalizing self with
  | nil => rfl
  | cons id denied ih =>
      rw [List.foldl_cons, ih]
      rfl

theorem foldl_recordExecutorError (self : SelfObservability) (executions : List Execution) :
    (executions.foldl
      (fun self execution =>
        if execution.status = .failed then recordExecutorError self else self)
      self).executorErrors ≤
      self.executorErrors + (executions.map Execution.status).count .failed := by
  induction executions generalizing self with
  | nil => exact Nat.le_refl _
  | cons execution executions ih =>
      rw [List.foldl_cons, List.map_cons]
      refine (ih _).trans ?_
      by_cases h : execution.status = .failed
      · have hone : (recordExecutorError self).executorErrors ≤ self.executorErrors + 1 :=
          fetchAdd_le _
        rw [if_pos h, h, List.count_cons_self]
        omega
      · rw [if_neg h, List.count_cons_of_ne h]

/-- A run counts at most its failed executions. -/
theorem recordRun_executorErrors (self : SelfObservability) (now : Nat)
    (report : ExecutionOutcome) :
    (self.recordRun now report).executorErrors ≤
      self.executorErrors + (report.executions.map Execution.status).count .failed := by
  have hdenied := foldl_recordPolicyDenial
    ((self.recordDecisionCompleted now).recordEventProcessed now) report.denied
  have hcounted := foldl_recordExecutorError
    (report.denied.foldl (fun self _ => recordPolicyDenial self)
      ((self.recordDecisionCompleted now).recordEventProcessed now)) report.executions
  rw [hdenied] at hcounted
  refine Nat.le_trans (Nat.le_of_eq ?_) hcounted
  unfold recordRun
  dsimp only [recordRemediation, recordAutonomousAction]
  split_ifs <;> rfl

end SelfObservability

namespace Watch

variable {watch : Watch} {now : Nat} {wrote : Bool} {inputs : TickInputs}

/-- The error counter is at most the errors there were. -/
def Counted (watch : Watch) : Prop :=
  watch.vitals.selfobs.executorErrors ≤ watch.executions.count .failed

theorem Counted.handle (h : watch.Counted) (event : WatchEvent) :
    (watch.handle event).Counted := by
  cases event with
  | cycle now consultedLive => exact h
  | finished now wrote report =>
      show (watch.vitals.selfobs.recordRun now report).executorErrors ≤
        (watch.executions ++ report.executions.map Execution.status).count .failed
      rw [List.count_append]
      have hrun := SelfObservability.recordRun_executorErrors watch.vitals.selfobs now report
      unfold Counted at h
      omega
  | tick now wrote inputs => exact h

theorem Counted.run (h : watch.Counted) (events : List WatchEvent) :
    (watch.run events).Counted := by
  induction events generalizing watch with
  | nil => exact h
  | cons event events ih => exact ih (h.handle event)

end Watch

/-- If no execution succeeded after an error, all errors are trailing ones. -/
theorem count_failed_le_trailingErrors {executions : List ExecutionStatus}
    (h : ¬ SuccessAfterError executions) :
    executions.count .failed ≤ trailingErrors executions := by
  induction executions using List.reverseRecOn with
  | nil => exact Nat.le_refl _
  | append_singleton executions status ih =>
      cases status with
      | completed =>
          have hnone : ExecutionStatus.failed ∉ executions := by
            intro hmem
            exact h ⟨executions, [.completed], rfl, hmem, List.mem_singleton_self _⟩
          have hzero : (executions ++ [ExecutionStatus.completed]).count .failed = 0 := by
            rw [List.count_eq_zero]
            simpa using hnone
          rw [hzero]
          exact Nat.zero_le _
      | failed =>
          have hprior : ¬ SuccessAfterError executions := by
            intro hsuccess
            obtain ⟨before, after, hsplit, hfailed, hcompleted⟩ := hsuccess
            refine h ⟨before, after ++ [.failed], ?_, hfailed, List.mem_append_left _ hcompleted⟩
            rw [hsplit, List.append_assoc]
          have hone : trailingErrors (executions ++ [.failed]) = trailingErrors executions + 1 := by
            simp [trailingErrors]
          rw [List.count_append, List.count_singleton_self, hone]
          exact Nat.succ_le_succ (ih hprior)

/-! ### The safe mode at a tick -/

namespace Watch

open AutonomyState (Sound step_rank_le)

variable {watch : Watch} {now : Nat} {wrote : Bool} {inputs : TickInputs}

/-- Stale inputs are a watermark older than the lag. -/
theorem lag_of_stale (h : watch.vitals.safeMode now = .staleInputs) :
    watch.vitals.selfobs.lastProcessedEventMs ≠ 0 ∧
      DegradationThresholds.default.maxEventLagMs <
        now - watch.vitals.selfobs.lastProcessedEventMs := by
  unfold Vitals.safeMode safeModeFrom SelfObservability.snapshot at h
  by_cases hzero : watch.vitals.selfobs.lastProcessedEventMs = 0
  · rw [if_pos hzero] at h
    split_ifs at h
    simp at *
  · rw [if_neg hzero] at h
    split_ifs at h with hbreach hlag
    exact ⟨hzero, by simpa using hlag⟩

/-- Suspended execution is a breached counter. -/
theorem breach_of_suspended (h : watch.vitals.safeMode now = .executionSuspended) :
    DegradationThresholds.default.maxExecutorErrors < watch.vitals.selfobs.executorErrors ∨
      DegradationThresholds.default.maxFailedValidations <
        watch.vitals.selfobs.failedValidations := by
  unfold Vitals.safeMode safeModeFrom at h
  split_ifs at h with hbreach
  exact hbreach

theorem sound_handle (h : watch.vitals.autonomy.state.Sound) (event : WatchEvent) :
    (watch.handle event).vitals.autonomy.state.Sound := by
  cases event with
  | cycle now consultedLive => exact h
  | finished now wrote report =>
      simp only [handle, Vitals.recordRunOutcome]
      split_ifs
      · exact AutonomyManager.after_sound h [(.onValidationFailed, wrote)]
      · exact AutonomyManager.after_sound h
          [(.recordValidatedExecutions (report.completed % 2 ^ 32), wrote)]
  | tick now wrote inputs =>
      exact AutonomyManager.after_sound h [(.onCycle (watch.vitals.signals now inputs), wrote)]

theorem sound_run (h : watch.vitals.autonomy.state.Sound) (events : List WatchEvent) :
    (watch.run events).vitals.autonomy.state.Sound := by
  induction events generalizing watch with
  | nil => exact h
  | cons event events ih => exact ih (sound_handle h event)

/-- Out of safe mode and with its provider ready, a tick does not lower the rung. -/
theorem tick_rank_le (hsound : watch.vitals.autonomy.state.Sound)
    (hmode : watch.vitals.safeMode now = .none) (hready : inputs.providerReady = true) :
    watch.vitals.autonomy.state.earned.rank ≤
      (watch.handle (.tick now wrote inputs)).vitals.autonomy.state.earned.rank := by
  have hfree : ¬ Binding watch.vitals.autonomy.config watch.vitals.autonomy.state
      (.onCycle (watch.vitals.signals now inputs)) := by
    intro hbinding
    rcases hbinding.2 with hsafe | hdegraded
    · simp [Vitals.signals, hmode] at hsafe
    · simp [Vitals.signals, hready] at hdegraded
  have hstate : (watch.handle (.tick now wrote inputs)).vitals.autonomy.state = _ :=
    AutonomyManager.call_state (.onCycle (watch.vitals.signals now inputs))
  rw [hstate]
  exact step_rank_le hsound hfree

/-- At the ticks of `PresentTick`, after whatever happened before, the safe mode is about
the present. -/
theorem safe_mode_reflects (environmentId : EnvironmentId) (config : AutonomyConfig)
    (stored : Option AutonomyState) (events : List WatchEvent) (now : Nat) (wrote : Bool)
    (inputs : TickInputs)
    (h : ((start environmentId config stored).run events).PresentTick now) :
    ((start environmentId config stored).run events).Reflects now wrote inputs := by
  have hstart : (start environmentId config stored).Counted := Nat.le_refl 0
  have hcounted := hstart.run events
  have hsound : ((start environmentId config stored).run events).vitals.autonomy.state.Sound :=
    sound_run (Sound.fresh environmentId) events
  generalize (start environmentId config stored).run events = watch at h hcounted hsound ⊢
  obtain ⟨hwatermark, herrors⟩ := h
  have hstale : watch.vitals.safeMode now = .staleInputs →
      ∀ at_ ∈ watch.live, DegradationThresholds.default.maxEventLagMs < now - at_ := by
    intro hmode at_ hat
    obtain ⟨hnonzero, hlag⟩ := lag_of_stale hmode
    rcases hwatermark with hzero | hrecent | hbefore
    · exact absurd hzero hnonzero
    · exact absurd hlag (Nat.not_lt.mpr hrecent)
    · have := hbefore at_ hat
      omega
  have hsuspended : DegradationThresholds.default.maxExecutorErrors <
        watch.vitals.selfobs.executorErrors →
      DegradationThresholds.default.maxExecutorErrors < trailingErrors watch.executions := by
    intro hbreach
    have hnone := herrors.resolve_left (Nat.not_le.mpr hbreach)
    exact (hbreach.trans_le hcounted).trans_le (count_failed_le_trailingErrors hnone)
  refine ⟨hstale, fun _ => hsuspended, ?_⟩
  intro hlive hcalm hvalid
  have hmode : watch.vitals.safeMode now = .none := by
    obtain ⟨at_, hat, hrecent⟩ := hlive
    cases hmode : watch.vitals.safeMode now with
    | none => rfl
    | staleInputs => exact absurd (hstale hmode at_ hat) (Nat.not_lt.mpr hrecent)
    | executionSuspended =>
        rcases breach_of_suspended hmode with hbreach | hbreach
        · exact absurd (hsuspended hbreach) (Nat.not_lt.mpr hcalm)
        · exact absurd hbreach (Nat.not_lt.mpr hvalid)
  exact ⟨hmode, tick_rank_le hsound hmode⟩

/-- The tick inputs of a healthy, paired host. -/
def healthyInputs : TickInputs := ⟨l4Autonomous, true, true, true, false⟩

/-- A report of one execution that completed. -/
def oneCompleted : ExecutionOutcome where
  executions := [⟨⟨⟨"host.service.restart", by decide⟩, none, .null⟩, .completed, .null⟩]
  denied := []
  requiresApproval := []
  status := .completed
  planId := 0

/-- The machine climbs to L2 by two ticks, and finishes a run; times are in milliseconds. -/
def climbed : List WatchEvent :=
  [.cycle 1000 true, .tick 1000 true healthyInputs, .cycle 2000 true, .tick 2000 true healthyInputs,
    .finished 3000 true oneCompleted]

/-- A tick two minutes after the run finished, its cycle live. -/
theorem safe_mode_reflects_after_a_run :
    let watch := (start 0 (.deserialize ⟨some 1, some 1, none⟩) none).run
      (climbed ++ [.cycle 123000 true])
    watch.PresentTick 123000 ∧ watch.Reflects 123000 true healthyInputs := by
  intro watch
  have h : watch.PresentTick 123000 := by
    refine ⟨.inr (.inl ?_), .inl ?_⟩
    · decide
    · decide
  exact ⟨h, safe_mode_reflects 0 _ none _ 123000 true healthyInputs h⟩

/-- Five minutes and a second after its last run, a healthy host whose cycles all consult
live state is in a safe mode, and the tick takes its rung. -/
theorem idle_host_loses_its_rung :
    let watch := (start 0 (.deserialize ⟨some 1, some 1, none⟩) none).run
      (climbed ++ [.cycle 123000 true, .cycle 304000 true])
    watch.vitals.autonomy.state.earned = l2Recommend ∧
    (watch.handle (.tick 304000 true healthyInputs)).vitals.autonomy.state.earned = l0Observe ∧
    ¬ watch.Reflects 304000 true healthyInputs := by
  refine ⟨by decide, by decide, ?_⟩
  intro h
  exact absurd (h.stale (by decide) 304000 (by decide)) (by decide)

end Watch
end Argus
