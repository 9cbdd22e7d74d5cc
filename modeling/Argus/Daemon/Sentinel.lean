import Argus.Policy.Escalation
import Argus.Daemon.SelfObservability

/-!
# The sentinel

One evaluation over the daemon's state gives the view that is surfaced and the escalation of the
situation that waits for one. A safe mode is meant to degrade the escalation. It does so by
putting `requireApproval` where the policy's outcome stood, so it takes the automatic fix away,
and it also asks a human where the policy, the autonomy level or the evidence said less than
that.
-/

namespace Argus

/-- `Severity` of a domain event. -/
inductive Severity
  | info
  | warning
  | error
  deriving DecidableEq

inductive EnvironmentHealth
  | healthy
  | degraded
  | critical
  deriving DecidableEq

/-- One resource-pressure signal in the view. -/
structure PressureSignal where
  subject : String
  severity : Severity
  deriving DecidableEq

/-- What the sentinel reads of an advisory risk. -/
structure Risk where
  subject : ResourceId
  severity : Severity

/-- The typed inputs of one evaluation. The level and the environment are the situation's own. -/
structure SentinelInputs where
  providerReady : Bool
  openIncidents : Nat
  risks : List Risk
  predictions : List String
  pendingApprovals : Nat
  recentActions : Nat
  selfHealth : SelfHealth
  /-- The situation that waits for a decision, if any. -/
  situation : Option EscalationInput
  autonomyView : Option (List (String × Value))
  runbooksView : Option (List (String × Value))
  pressure : List PressureSignal

/-- Everything the watch surfaces. -/
structure SentinelView where
  environmentHealth : EnvironmentHealth
  safeMode : SafeMode
  providerReady : Bool
  openIncidents : Nat
  activeRisks : Nat
  pendingApprovals : Nat
  predictions : List String
  recentActions : Nat
  pressure : List PressureSignal
  generatedAt : DateTime
  autonomy : Option (List (String × Value))
  runbooks : Option (List (String × Value))

/-- One evaluation's outcome. -/
structure SentinelDecision where
  view : SentinelView
  escalation : Option Escalation

namespace SentinelInputs

/-- The safe mode the evaluation is in. -/
def safeMode (inputs : SentinelInputs) : SafeMode :=
  safeModeFrom inputs.selfHealth .default

def environmentHealth (inputs : SentinelInputs) : EnvironmentHealth :=
  if inputs.safeMode = .executionSuspended ∨
      0 < inputs.openIncidents ∧ inputs.risks.any fun risk => risk.severity = .error then
    .critical
  else if !inputs.providerReady ∨ inputs.safeMode ≠ .none ∨ 0 < inputs.openIncidents ∨
      inputs.risks.any fun risk => risk.severity = .warning then
    .degraded
  else .healthy

/-- The view; the risks' signals stay before the collector's. -/
def view (inputs : SentinelInputs) (now : DateTime) : SentinelView where
  environmentHealth := inputs.environmentHealth
  safeMode := inputs.safeMode
  providerReady := inputs.providerReady
  openIncidents := inputs.openIncidents
  activeRisks := inputs.risks.length % 2 ^ 32
  pendingApprovals := inputs.pendingApprovals
  predictions := inputs.predictions
  recentActions := inputs.recentActions
  pressure := inputs.risks.map (fun risk => ⟨risk.subject.asStr, risk.severity⟩) ++ inputs.pressure
  generatedAt := now
  autonomy := inputs.autonomyView
  runbooks := inputs.runbooksView

end SentinelInputs

/-- Run one evaluation. -/
def sentinelEvaluate (inputs : SentinelInputs) (now : DateTime) : SentinelDecision where
  view := inputs.view now
  escalation := inputs.situation.map fun situation =>
    decideEscalation
      (if inputs.safeMode ≠ .none then { situation with policy := .requireApproval }
      else situation)

/-! ### What a safe mode may do -/

/-- The permissiveness of an escalation. -/
def Escalation.rank : Escalation → Nat
  | observe => 0
  | explain => 1
  | recommend => 2
  | askHuman => 3
  | autoFix => 4

/-- In a safe mode the escalation is no automatic fix and no more permissive than outside one, and
what the policy denies is only observed, in a safe mode or not. -/
structure OnlyRestricts (inputs : SentinelInputs) (now : DateTime) : Prop where
  bounded : inputs.safeMode ≠ .none → ∀ situation, inputs.situation = some situation →
    ∃ escalation, (sentinelEvaluate inputs now).escalation = some escalation ∧
      escalation ≠ .autoFix ∧ escalation.rank ≤ (decideEscalation situation).rank
  denied : ∀ situation, inputs.situation = some situation → situation.policy = .deny →
    (sentinelEvaluate inputs now).escalation = some .observe

/-- No counter is above its threshold and no lag beyond the bound. -/
def SelfHealth.WithinBounds (health : SelfHealth) : Prop :=
  health.executorErrors ≤ 5 ∧ health.failedValidations ≤ 3 ∧
    ∀ lag, health.eventLagMs = some lag → lag ≤ 300000

/-- Asking a human is no more than the situation calls for: the policy wants the approval, or it
allows the action at a level that may act and the evidence is not sparse. -/
def EscalationInput.CallsForHuman (situation : EscalationInput) : Prop :=
  situation.policy = .requireApproval ∨
    situation.policy = .allow ∧ situation.evidenceQuality ≠ .sparse ∧
      (situation.autonomy = .l3Assisted ∨ situation.autonomy = .l4Autonomous ∨
        situation.autonomy = .l5Adaptive)

variable {inputs : SentinelInputs} {now : DateTime} {situation : EscalationInput}

theorem safeModeFrom_eq_none {health : SelfHealth} {thresholds : DegradationThresholds} :
    safeModeFrom health thresholds = .none ↔
      health.executorErrors ≤ thresholds.maxExecutorErrors ∧
        health.failedValidations ≤ thresholds.maxFailedValidations ∧
        ∀ lag, health.eventLagMs = some lag → lag ≤ thresholds.maxEventLagMs := by
  have hlag : (health.eventLagMs.any fun lag => decide (thresholds.maxEventLagMs < lag)) = false ↔
      ∀ lag, health.eventLagMs = some lag → lag ≤ thresholds.maxEventLagMs := by
    cases health.eventLagMs <;> simp
  rw [← hlag, safeModeFrom]
  split_ifs with hexecutor hstale
  · simp only [false_iff]
    omega
  · simp [hstale]
  · exact iff_of_true rfl ⟨by omega, by omega, Bool.eq_false_iff.mpr hstale⟩

theorem safeMode_eq_none : inputs.safeMode = .none ↔ inputs.selfHealth.WithinBounds :=
  safeModeFrom_eq_none

/-- In a safe mode every situation is put before a human. -/
theorem escalation_of_safeMode (h : inputs.safeMode ≠ .none)
    (hs : inputs.situation = some situation) :
    (sentinelEvaluate inputs now).escalation = some .askHuman := by
  simp [sentinelEvaluate, hs, h, decideEscalation]

theorem escalation_of_not_safeMode (h : inputs.safeMode = .none)
    (hs : inputs.situation = some situation) :
    (sentinelEvaluate inputs now).escalation = some (decideEscalation situation) := by
  simp [sentinelEvaluate, hs, h]

theorem not_sparse_of_safeToFix (h : safeToFix situation = true) :
    situation.evidenceQuality ≠ .sparse := by
  simp only [safeToFix, Bool.and_eq_true, bne_iff_ne] at h
  exact h.2

/-- At a level that may act, only sparse evidence keeps an allowed action from a human. -/
theorem askHuman_le_of_acting (hpolicy : situation.policy = .allow)
    (hlevel : situation.autonomy = .l3Assisted ∨ situation.autonomy = .l4Autonomous ∨
      situation.autonomy = .l5Adaptive) :
    Escalation.askHuman.rank ≤ (decideEscalation situation).rank ↔
      situation.evidenceQuality ≠ .sparse := by
  have hdecide : decideEscalation situation = if safeToFix situation then .autoFix
      else if situation.evidenceQuality == .sparse then .recommend else .askHuman := by
    rcases hlevel with h | h | h <;> simp [decideEscalation, hpolicy, h]
  rw [hdecide]
  split_ifs with hfix hsparse
  · simpa [Escalation.rank] using not_sparse_of_safeToFix hfix
  · simpa [Escalation.rank] using hsparse
  · simpa [Escalation.rank] using hsparse

theorem askHuman_le_iff : Escalation.askHuman.rank ≤ (decideEscalation situation).rank ↔
    situation.CallsForHuman := by
  unfold EscalationInput.CallsForHuman
  cases hpolicy : situation.policy with
  | deny => simp [decideEscalation, hpolicy, Escalation.rank]
  | requireApproval => simp [decideEscalation, hpolicy]
  | allow =>
      by_cases hlevel : situation.autonomy = .l3Assisted ∨ situation.autonomy = .l4Autonomous ∨
          situation.autonomy = .l5Adaptive
      · simp [askHuman_le_of_acting hpolicy hlevel, hlevel]
      · cases hautonomy : situation.autonomy <;>
          simp_all [decideEscalation, Escalation.rank]

/-- The safe mode only restricts exactly where there is none, or the situation, if there is one,
calls for a human anyway. -/
theorem onlyRestricts_iff (inputs : SentinelInputs) (now : DateTime) :
    OnlyRestricts inputs now ↔ inputs.selfHealth.WithinBounds ∨
      ∀ situation, inputs.situation = some situation → situation.CallsForHuman := by
  rw [← safeMode_eq_none]
  constructor
  · intro h
    by_cases hsafe : inputs.safeMode = .none
    · exact .inl hsafe
    · refine .inr fun situation hs => askHuman_le_iff.mp ?_
      obtain ⟨escalation, hescalation, -, hle⟩ := h.bounded hsafe situation hs
      rw [escalation_of_safeMode hsafe hs] at hescalation
      exact Option.some.inj hescalation ▸ hle
  · intro h
    by_cases hsafe : inputs.safeMode = .none
    · refine ⟨fun hne => absurd hsafe hne, fun situation hs hdeny => ?_⟩
      rw [escalation_of_not_safeMode hsafe hs, decideEscalation, hdeny]
    · have hcalls := h.resolve_left hsafe
      refine ⟨fun _ situation hs => ?_, fun situation hs hdeny => ?_⟩
      · exact ⟨.askHuman, escalation_of_safeMode hsafe hs, by decide,
          askHuman_le_iff.mpr (hcalls situation hs)⟩
      · simpa [EscalationInput.CallsForHuman, hdeny] using hcalls situation hs

/-- Six executor errors, and a situation whose action the policy denies. -/
def deniedInSafeMode : SentinelInputs where
  providerReady := true
  openIncidents := 0
  risks := []
  predictions := []
  pendingApprovals := 0
  recentActions := 0
  selfHealth := ⟨6, 0, none⟩
  situation := some
    { evidenceQuality := .strong, confidence := .finite 1, reversible := true, blastRadius := .host
      risk := .lowRisk, criticality := .standard, environment := .production
      historicalSuccess := none, autonomy := .l4Autonomous, policy := .deny }
  autonomyView := none
  runbooksView := none
  pressure := []

/-- What the policy denies is put before a human. -/
theorem deniedInSafeMode_asks : ¬ OnlyRestricts deniedInSafeMode ⟨0⟩ := fun h => by
  have hdenied := h.denied _ rfl rfl
  rw [escalation_of_safeMode (by decide) rfl] at hdenied
  exact absurd hdenied (by decide)

end Argus
