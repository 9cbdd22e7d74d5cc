import Argus.Daemon.Autonomy
import Argus.Lib.Machine

/-!
# The brain's control levers

The level, the confidence gate and the interval of the brain are levers. They start from the
configuration file, with the persisted managed settings over it, and a delivered
configuration changes them while the daemon runs. The level is the operator's ceiling: a
cycle acts at the lower of it and the earned rung.

A cycle is started in two ways. The periodic loop reads the levers at its tick; a
`brain.diagnose` request runs the cycle with the start-up configuration instead. So the
ceiling holds for the periodic cycles, and for the on-demand ones only as long as the
start-up level or the earned rung keeps below it (`ceiling_holds_iff`);
`lowered_ceiling_missed` is a request after the operator has taken all authority back.
-/

namespace Argus

open AutonomyMode
open Ieee (Datum)

/-- The `[brain]` section of the configuration file. -/
structure BrainConfig where
  autonomy : AutonomyMode
  intervalSeconds : Nat
  confidenceThreshold : Datum
  runbooksDir : Option String

def BrainConfig.default : BrainConfig := ⟨l0Observe, 60, .finite (3 / 10), none⟩

/-! ### The levers -/

/-- The live levers. -/
structure BrainControl where
  autonomy : AutonomyMode
  confidenceThreshold : Datum
  intervalSeconds : Nat
  deriving DecidableEq

/-- Why a `brain.*` setting is rejected. -/
inductive SettingError
  | autonomyNotString
  | notALevel (raw : String)
  | thresholdNotNumber
  | thresholdOutside (raw : Datum)
  | intervalNotInteger
  | intervalBelowFloor (raw : Nat)
  deriving DecidableEq

/-- What a rejection says. `display` writes a double. -/
def SettingError.text (display : Datum → String) : SettingError → String
  | autonomyNotString => "brain.autonomy must be a string"
  | notALevel raw => "brain.autonomy '" ++ raw ++
      "' is not a level: l0_observe..l5_adaptive (or the legacy observe_only/propose/assisted)"
  | thresholdNotNumber => "brain.confidence_threshold must be a number"
  | thresholdOutside raw => "brain.confidence_threshold " ++ display raw ++ " outside [0, 1]"
  | intervalNotInteger => "brain.interval_seconds must be an integer"
  | intervalBelowFloor raw =>
      "brain.interval_seconds " ++ toString raw ++ " below the 5s floor"

namespace BrainControl

/-- The single place a `brain.*` setting is interpreted. Other keys belong to another
consumer. -/
def applyTo (control : BrainControl) (key : String) (value : Value) :
    Except SettingError BrainControl :=
  match key with
  | "brain.autonomy" =>
      match value.asStr with
      | none => .error .autonomyNotString
      | some raw =>
          match AutonomyMode.deserialize raw with
          | none => .error (.notALevel raw)
          | some autonomy => .ok { control with autonomy }
  | "brain.confidence_threshold" =>
      match value.asF64 with
      | none => .error .thresholdNotNumber
      | some raw =>
          if raw.ge (.finite 0) && (Datum.finite 1).ge raw then
            .ok { control with confidenceThreshold := raw }
          else .error (.thresholdOutside raw)
  | "brain.interval_seconds" =>
      match value.asU64 with
      | none => .error .intervalNotInteger
      | some raw =>
          if raw < 5 then .error (.intervalBelowFloor raw)
          else .ok { control with intervalSeconds := raw }
  | _ => .ok control

/-- Applies one setting, if it is valid. -/
def applySetting (control : BrainControl) (key : String) (value : Value) : BrainControl :=
  match control.applyTo key value with
  | .ok control => control
  | .error _ => control

/-- The key starts with `brain.`. -/
def isLever (key : String) : Bool := "brain.".toList.isPrefixOf key.toList

/-- Validates the `brain.*` settings of a delivery one after the other on a copy of the
levers, and returns them. -/
def validateAll (probe : BrainControl) :
    List (String × Value) → Except SettingError (List (String × Value))
  | [] => .ok []
  | (key, value) :: settings =>
      if isLever key then do
        let probe ← probe.applyTo key value
        let applied ← probe.validateAll settings
        .ok ((key, value) :: applied)
      else probe.validateAll settings

/-- Commits settings that were validated before. -/
def commitAll (control : BrainControl) (applied : List (String × Value)) : BrainControl :=
  applied.foldl (fun control setting => control.applySetting setting.1 setting.2) control

/-- The levers of a daemon at its start: the configuration file's, with the persisted managed
settings over them. -/
def seed (config : BrainConfig) (managed : List (String × Value)) : BrainControl :=
  (managed.filter fun setting => isLever setting.1).foldl
    (fun control setting => control.applySetting setting.1 setting.2)
    ⟨config.autonomy, config.confidenceThreshold, config.intervalSeconds⟩

/-- What a delivery of settings leaves of the levers. They change after the whole set is
validated, the credential is in the secret store and the settings are written. -/
def applyConfiguration (control : BrainControl) (settings : List (String × Value))
    (credentialStored settingsWritten : Bool) : BrainControl :=
  match control.validateAll settings with
  | .error _ => control
  | .ok applied =>
      if credentialStored && settingsWritten && !applied.isEmpty then control.commitAll applied
      else control

end BrainControl

/-! ### Cycles and their triggers -/

/-- A cycle that was started: the configuration it runs with, what triggered it, and the
managed ceiling that was in force then. -/
structure StartedCycle where
  brain : BrainConfig
  onDemand : Bool
  ceiling : AutonomyMode

/-- A plan routed through the boundary by a cycle: the level it was run at, the ceiling at the
start of the cycle, and the earned rung. -/
structure RoutedPlan where
  level : AutonomyMode
  ceiling : AutonomyMode
  earned : AutonomyMode
  deriving DecidableEq

/-- The daemon as far as the level of its cycles is concerned, with the cycles it started
and the plans they routed. -/
structure BrainHost where
  config : BrainConfig
  control : BrainControl
  autonomy : AutonomyManager
  started : List StartedCycle
  routed : List RoutedPlan

inductive BrainEvent
  /-- A configuration delivered by the cloud. -/
  | deliver (settings : List (String × Value)) (credentialStored settingsWritten : Bool)
  /-- The ticker of the periodic loop. -/
  | tick
  /-- A `brain.diagnose` request, with or without a provider configured. -/
  | diagnose (provider : Bool)
  /-- One of the started cycles acts on a plan. -/
  | act (cycle : Nat)
  /-- A call of the autonomy machine. -/
  | autonomy (call : AutonomyCall) (wrote : Bool)

namespace BrainHost

/-- The configuration of a periodic cycle: the levers at the tick. -/
def tickConfig (host : BrainHost) : BrainConfig where
  autonomy := host.control.autonomy
  intervalSeconds := host.control.intervalSeconds
  confidenceThreshold := host.control.confidenceThreshold
  runbooksDir := host.config.runbooksDir

def start (host : BrainHost) (brain : BrainConfig) (onDemand : Bool) : BrainHost :=
  { host with started := host.started ++ [⟨brain, onDemand, host.control.autonomy⟩] }

/-- `brain.diagnose` answers `NotReady` without a provider, and clones the start-up
configuration otherwise. -/
def brainDiagnose (host : BrainHost) (provider : Bool) : BrainHost :=
  if provider then host.start host.config true else host

/-- Acts at the effective level of the cycle's configuration. -/
def act (host : BrainHost) (cycle : StartedCycle) : BrainHost :=
  { host with
    routed := host.routed ++
      [⟨host.autonomy.effective cycle.brain.autonomy, cycle.ceiling, host.autonomy.state.earned⟩] }

def handle (host : BrainHost) : BrainEvent → BrainHost
  | .deliver settings credentialStored settingsWritten =>
      { host with
        control := host.control.applyConfiguration settings credentialStored settingsWritten }
  | .tick => host.start host.tickConfig false
  | .diagnose provider => host.brainDiagnose provider
  | .act cycle =>
      match host.started[cycle]? with
      | some cycle => host.act cycle
      | none => host
  | .autonomy call wrote => { host with autonomy := host.autonomy.call wrote call }

def run (host : BrainHost) (events : List BrainEvent) : BrainHost := Machine.run handle host events

/-- A daemon at its start. -/
def atStart (config : BrainConfig) (managed : List (String × Value))
    (autonomy : AutonomyManager) : BrainHost :=
  ⟨config, .seed config managed, autonomy, [], []⟩

end BrainHost

/-- The level is within the ceiling of its cycle and the earned rung. -/
def RoutedPlan.Within (plan : RoutedPlan) : Prop :=
  plan.level.rank ≤ plan.ceiling.rank ∧ plan.level.rank ≤ plan.earned.rank

/-- When an on-demand cycle acts, the start-up level or the earned rung is within the ceiling
that was in force when the cycle started. -/
def BrainHost.Bounded (host : BrainHost) : BrainEvent → Prop
  | .act cycle => ∀ started, host.started[cycle]? = some started → started.onDemand = true →
      host.config.autonomy.rank ≤ started.ceiling.rank ∨
        host.autonomy.state.earned.rank ≤ started.ceiling.rank
  | _ => True

namespace BrainHost

variable {host : BrainHost} {events : List BrainEvent}

/-- Every started cycle runs at the level its trigger gave it. -/
def Sourced (host : BrainHost) : Prop :=
  ∀ cycle ∈ host.started, cycle.brain.autonomy =
    if cycle.onDemand then host.config.autonomy else cycle.ceiling

theorem Sourced.start (h : host.Sourced) (brain : BrainConfig) (onDemand : Bool)
    (hlevel : brain.autonomy = if onDemand then host.config.autonomy else host.control.autonomy) :
    (host.start brain onDemand).Sourced := by
  intro cycle hmem
  rcases List.mem_append.mp hmem with hmem | hmem
  · exact h cycle hmem
  · rw [List.mem_singleton] at hmem
    subst hmem
    exact hlevel

theorem Sourced.handle (h : host.Sourced) (event : BrainEvent) : (host.handle event).Sourced := by
  cases event with
  | tick => exact h.start _ _ rfl
  | diagnose provider =>
      cases provider with
      | true => exact h.start _ _ rfl
      | false => exact h
  | act cycle =>
      simp only [Sourced, BrainHost.handle]
      split <;> exact h
  | _ => exact h

theorem Sourced.run (h : host.Sourced) : (host.run events).Sourced :=
  Machine.invariant h (fun _ event h => h.handle event) events

/-- The plan an on-demand cycle acts on is within its ceiling exactly when the event is
bounded; that of a periodic cycle always is. -/
theorem Sourced.act_within_iff (h : host.Sourced) {cycle : StartedCycle}
    (hmem : cycle ∈ host.started) :
    RoutedPlan.Within ⟨host.autonomy.effective cycle.brain.autonomy, cycle.ceiling,
        host.autonomy.state.earned⟩ ↔
      (cycle.onDemand = true → host.config.autonomy.rank ≤ cycle.ceiling.rank ∨
        host.autonomy.state.earned.rank ≤ cycle.ceiling.rank) := by
  have hlevel := h cycle hmem
  simp only [RoutedPlan.Within, AutonomyManager.effective, lowerOf_rank, hlevel]
  by_cases hdemand : cycle.onDemand = true
  · rw [if_pos hdemand]
    simp only [hdemand, forall_const]
    omega
  · rw [if_neg hdemand]
    simp only [hdemand, Bool.false_eq_true, false_implies, iff_true]
    omega

/-- One event routes nothing beyond a ceiling exactly when it is bounded. -/
theorem Sourced.handle_within_iff (h : host.Sourced) (event : BrainEvent) :
    (∀ plan ∈ (host.handle event).routed, plan.Within) ↔
      (∀ plan ∈ host.routed, plan.Within) ∧ host.Bounded event := by
  cases event with
  | act index =>
      simp only [BrainHost.handle, Bounded]
      cases hcycle : host.started[index]? with
      | none => simp
      | some cycle =>
          simp only [BrainHost.act, List.forall_mem_append, List.forall_mem_singleton,
            h.act_within_iff (List.mem_of_getElem? hcycle), Option.some.injEq, forall_eq']
  | diagnose provider =>
      cases provider <;> simp [BrainHost.handle, brainDiagnose, BrainHost.start, Bounded]
  | _ => simp [BrainHost.handle, BrainHost.start, Bounded]

/-- **The ceiling of a cycle.** Over any interleaving of deliveries, periodic and on-demand
cycles and calls of the autonomy machine, every plan is routed at a level within the managed
ceiling at the start of its cycle and within the earned rung, exactly when every on-demand
cycle acts while the start-up level or the earned rung is within that ceiling. -/
theorem ceiling_holds_iff (config : BrainConfig) (managed : List (String × Value))
    (autonomy : AutonomyManager) (events : List BrainEvent) :
    (∀ plan ∈ ((atStart config managed autonomy).run events).routed, plan.Within) ↔
      Machine.Every handle Bounded (atStart config managed autonomy) events := by
  induction events using List.reverseRecOn with
  | nil => simp [run, atStart, Machine.Every]
  | append_singleton events event ih =>
      have hsourced : ((atStart config managed autonomy).run events).Sourced :=
        Sourced.run (by simp [Sourced, atStart])
      rw [Machine.every_snoc, ← ih]
      simp only [run, Machine.run_append, Machine.run_singleton]
      exact hsourced.handle_within_iff event

/-- A machine of environment 0 that has earned L3 and holds its state in the store. -/
def earnedL3 : AutonomyManager :=
  let state : AutonomyState := { AutonomyState.fresh 0 with phase := .earned, earned := l3Assisted }
  { AutonomyManager.fresh 0 (.deserialize ⟨none, none, none⟩) (some state) with state }

/-- The operator lowers the ceiling of a host configured for L4 to L0. A periodic cycle then
acts at L0, and an on-demand one at the earned L3. -/
theorem lowered_ceiling_missed :
    let host := (atStart { BrainConfig.default with autonomy := l4Autonomous } [] earnedL3).run
      [.deliver [("brain.autonomy", .string "l0_observe")] true true, .tick, .diagnose true, .act 0,
        .act 1]
    host.control.autonomy = l0Observe ∧
      host.routed = [⟨l0Observe, l0Observe, l3Assisted⟩, ⟨l3Assisted, l0Observe, l3Assisted⟩] ∧
      ∃ plan ∈ host.routed, ¬ plan.Within := by
  intro host
  have hrouted : host.routed =
      [⟨l0Observe, l0Observe, l3Assisted⟩, ⟨l3Assisted, l0Observe, l3Assisted⟩] := by
    decide
  refine ⟨by decide, hrouted, ⟨l3Assisted, l0Observe, l3Assisted⟩, by simp [hrouted], ?_⟩
  intro hwithin
  exact absurd hwithin.1 (by decide)

end BrainHost
end Argus
