import Argus.Decision.HostHealth

/-!
# Situations

What a cycle of the brain perceives, and the keys it deduplicates on. A cycle collects at
most one failed unit, the memory pressure and the disk pressure. A situation is identified
by its signature and its subject; the detail is the reading that triggered it.

Three kinds of keys are derived from situations: the key of one situation for the procedure
path, the key of a whole set for the provider path, and the key of the evidence. A promoted
runbook whose trigger is the signature of a situation gives a procedure plan for it.
-/

namespace Argus

open Ieee (Datum)

/-! ### Perception -/

def hostHealth : String := "host-health"
def memoryPressure : String := "memory-pressure"
def diskPressure : String := "disk-pressure"

def defaultMount : String := "/"

/-- One situation the brain perceived. -/
structure Situation where
  signature : String
  subject : String
  detail : String
  deriving DecidableEq

namespace Situation

/-- The text of the stable identity. -/
def dedupKey (s : Situation) : String := s.signature ++ ":" ++ s.subject

/-- The same situation, whatever the reading. -/
def Same (s t : Situation) : Prop := s.signature = t.signature ∧ s.subject = t.subject

instance (s t : Situation) : Decidable (Same s t) := inferInstanceAs (Decidable (_ ∧ _))

end Situation

/-- The thresholds of the pressure situations: a number given by the operator and clamped,
or NaN. -/
structure SituationsConfig where
  memoryUsedPercent : Datum
  diskUsedPercent : Datum

def SituationsConfig.default : SituationsConfig := ⟨.finite 90, .finite 90⟩

/-- The usage of one mount. -/
structure DiskUsage where
  mount : String
  usedPercent : ℚ

/-- The readings the collector works on: the failed units by name, and the percentages in
use, absent when the read failed. -/
structure Readings where
  failedUnits : List (String × String)
  memory : Option ℚ
  disk : Option DiskUsage

/-- What the sensors gave a cycle: the failed units with their states, and the percentages
of the memory and of the root mount. Each is absent when its read failed. -/
structure Sensors where
  units : Option (List (String × String))
  memory : Option ℚ
  disk : Option ℚ

/-- The readings of a cycle: systemd that cannot be read names no failed unit. -/
def Sensors.readings (sensors : Sensors) : Readings :=
  ⟨sensors.units.getD [], sensors.memory, sensors.disk.map (⟨defaultMount, ·⟩)⟩

/-- The number with one digit after the point. -/
def oneDecimal (q : ℚ) : String :=
  let tenths := Ieee.roundHalfEven (q * 10)
  (if tenths < 0 then "-" else "") ++
    toString (tenths.natAbs / 10) ++ "." ++ toString (tenths.natAbs % 10)

/-- Readings in, situations out: the first failed unit, then memory, then disk. -/
def situationsFrom (readings : Readings) (config : SituationsConfig) : List Situation :=
  (match readings.failedUnits.head? with
    | some (unit, state) => [⟨hostHealth, unit, state⟩]
    | none => []) ++
  (match readings.memory with
    | some used =>
        if (Datum.finite used).ge config.memoryUsedPercent then
          [⟨memoryPressure, "mem", "mem at " ++ oneDecimal used ++ "%"⟩]
        else []
    | none => []) ++
  (match readings.disk with
    | some disk =>
        if (Datum.finite disk.usedPercent).ge config.diskUsedPercent then
          [⟨diskPressure, disk.mount,
            disk.mount ++ " at " ++ oneDecimal disk.usedPercent ++ "%"⟩]
        else []
    | none => [])

/-- The keys of the pressures whose reading is there and below the threshold. -/
def resolvedPressureKeys (readings : Readings) (config : SituationsConfig) : List String :=
  (match readings.memory with
    | some used =>
        if (Datum.finite used).lt config.memoryUsedPercent then [memoryPressure ++ ":mem"] else []
    | none => []) ++
  (match readings.disk with
    | some disk =>
        if (Datum.finite disk.usedPercent).lt config.diskUsedPercent then
          [diskPressure ++ ":" ++ disk.mount]
        else []
    | none => [])

/-! ### Keys -/

/-- The resource every piece of evidence is about. -/
def hostResource : String := "host:local"

def addSituationEvidence (evidence : ContextBuilder) (s : Situation) : ContextBuilder :=
  if s.signature = hostHealth then
    (evidence.evidence hostResource "unit" (.string s.subject)).evidence
      hostResource "service.state" (.string s.detail)
  else
    (evidence.evidence hostResource "situation" (.string s.signature)).evidence
      hostResource "pressure" (.string s.detail)

/-- The evidence of all situations in one context. -/
def mergedEvidence (situations : List Situation) : ContextBuilder :=
  situations.foldl addSituationEvidence .new

/-- The key of a situation on the procedure path: a failed unit has the key of its evidence,
a pressure that of its identity. -/
def situationDedupKey (toJson : Value → String) (s : Situation) : String :=
  if s.signature = hostHealth then observationDedupKey toJson (addSituationEvidence .new s)
  else s.dedupKey

/-- The key of a set of situations: their identities, sorted and joined. -/
def situationSetKey (situations : List Situation) : String :=
  "|".intercalate ((situations.map Situation.dedupKey).insertionSort (· ≤ ·))

/-! ### Procedure plans -/

inductive RunbookStatus
  | candidate
  | approved
  | promoted
  deriving DecidableEq

inductive RunbookTrigger
  | symptom (signature : String)
  | signal (name : String)
  | manual
  deriving DecidableEq

/-- A declarative procedure: what it applies to, its candidate actions with the capability
that undoes each, how far it was promoted, and how often it was run. -/
structure Runbook where
  name : String
  trigger : RunbookTrigger
  allowedActions : List CapabilityId
  rollback : List CapabilityId
  status : RunbookStatus
  attempts : Nat
  successes : Nat

/-- The success rate in single precision, unknown before the first attempt. -/
def Runbook.historicalSuccessRate (r : Runbook) : Option Datum :=
  if r.attempts = 0 then none
  else
    match (Datum.finite r.successes).asF32, (Datum.finite r.attempts).asF32 with
    | .finite successes, .finite attempts => some (Datum.finite (successes / attempts)).asF32
    | _, _ => none

/-- The first promoted runbook of the list whose trigger is the signature. -/
def promotedRunbook (runbooks : List Runbook) (signature : String) : Option Runbook :=
  runbooks.find? fun runbook =>
    runbook.status == .promoted && runbook.trigger == .symptom signature

def worstBlastRadius : BlastRadius → BlastRadius → BlastRadius
  | .fleet, _ => .fleet
  | _, .fleet => .fleet
  | .environment, _ => .environment
  | _, .environment => .environment
  | .host, _ => .host
  | _, .host => .host
  | .none, .none => .none

/-- The arguments every step of a procedure gets. -/
def procedureArguments (s : Situation) : Value :=
  if s.signature = hostHealth then .object [("unit", .string s.subject)]
  else .object [("subject", .string s.subject)]

/-- The registered capability, if its schema takes the arguments. -/
def conforming (descriptors : List CapabilityDescriptor) (arguments : Value)
    (capability : CapabilityId) : Option CapabilityDescriptor :=
  (descriptors.find? fun d => d.id == capability).filter fun d =>
    inputMatches d.inputSchema arguments

/-- The procedure of a runbook on a situation: one step for each action that can take the
subject, paired with the declared rollback when that can take it too. -/
def procedurePlan (runbook : Runbook) (s : Situation) (descriptors : List CapabilityDescriptor) :
    Option Plan :=
  let arguments := procedureArguments s
  let action (capability : CapabilityId) : Action := ⟨capability, none, arguments⟩
  let steps := runbook.allowedActions.zipIdx.filterMap fun (capability, index) =>
    (conforming descriptors arguments capability).map fun descriptor =>
      let rollback := (runbook.rollback[index]?).filter fun rollback =>
        (conforming descriptors arguments rollback).isSome
      (PlanStep.mk (action capability) (rollback.map action), descriptor.effectiveBlastRadius)
  if steps.isEmpty then none
  else
    some
      { objective := "procedure: " ++ runbook.name
        steps := steps.map Prod.fst
        preconditions := []
        expectedOutcomes := []
        blastRadius := (steps.map Prod.snd).foldl worstBlastRadius .none
        confidence := runbook.historicalSuccessRate.getD (.finite (1 / 2))
        status := .proposed
        runbook := some runbook.name }

/-! ### What a cycle collects -/

/-- The situations a cycle can collect. A pressure is collected only where its threshold is a
number. -/
inductive Collected (config : SituationsConfig) : Situation → Prop
  | unit (unit state : String) : Collected config ⟨hostHealth, unit, state⟩
  | memory (detail : String) (h : config.memoryUsedPercent ≠ .nan) :
      Collected config ⟨memoryPressure, "mem", detail⟩
  | disk (detail : String) (h : config.diskUsedPercent ≠ .nan) :
      Collected config ⟨diskPressure, defaultMount, detail⟩

variable {sensors : Sensors} {config : SituationsConfig} {s t : Situation}

theorem ne_nan_of_ge {q : ℚ} {d : Datum} (h : (Datum.finite q).ge d = true) : d ≠ .nan := by
  intro hd
  rw [hd] at h
  cases h

theorem collected_of_mem (h : s ∈ situationsFrom sensors.readings config) :
    Collected config s := by
  unfold situationsFrom at h
  rw [List.mem_append, List.mem_append] at h
  rcases h with (h | h) | h
  · split at h
    · rw [List.mem_singleton.mp h]
      exact .unit _ _
    · cases h
  · split at h
    · split at h
      · rw [List.mem_singleton.mp h]
        exact .memory _ (ne_nan_of_ge ‹_›)
      · cases h
    · cases h
  · cases hd : sensors.disk with
    | none =>
        rw [Sensors.readings, hd] at h
        cases h
    | some used =>
        rw [Sensors.readings, hd] at h
        simp only [Option.map_some] at h
        split at h
        · rw [List.mem_singleton.mp h]
          exact .disk _ (ne_nan_of_ge ‹_›)
        · cases h

/-- The source of the situation was read. -/
def Sensors.Read (sensors : Sensors) (s : Situation) : Prop :=
  (s.signature = hostHealth → sensors.units.isSome) ∧
  (s.signature = memoryPressure → sensors.memory.isSome) ∧
  (s.signature = diskPressure → sensors.disk.isSome)

/-- The source of the situation was read and it was not there. -/
def Sensors.Absent (sensors : Sensors) (config : SituationsConfig) (s : Situation) : Prop :=
  sensors.Read s ∧ ∀ t ∈ situationsFrom sensors.readings config, ¬ t.Same s

theorem lt_of_not_ge {q : ℚ} {d : Datum} (hd : d ≠ .nan) (h : ¬ (Datum.finite q).ge d = true) :
    (Datum.finite q).lt d = true := by
  cases d with
  | nan => exact absurd rfl hd
  | negInf => exact absurd rfl h
  | posInf => rfl
  | finite r =>
      simp only [Datum.ge, decide_eq_true_eq, not_le] at h
      simp [Datum.lt, Datum.ge, h, le_of_lt h]

/-- The resolution step releases the key of a pressure that was read and found absent. -/
theorem resolved_of_absent (hs : Collected config s) (hp : s.signature ≠ hostHealth)
    (h : sensors.Absent config s) :
    s.dedupKey ∈ resolvedPressureKeys sensors.readings config := by
  obtain ⟨⟨-, hmemory, hdisk⟩, habsent⟩ := h
  unfold resolvedPressureKeys
  rw [List.mem_append]
  cases hs with
  | unit => exact absurd rfl hp
  | memory detail hnan =>
      obtain ⟨used, hused⟩ := Option.isSome_iff_exists.mp (hmemory rfl)
      have hread : sensors.readings.memory = some used := hused
      have hbelow : ¬ (Datum.finite used).ge config.memoryUsedPercent = true := by
        intro hge
        refine habsent ⟨memoryPressure, "mem", "mem at " ++ oneDecimal used ++ "%"⟩ ?_ ⟨rfl, rfl⟩
        unfold situationsFrom
        rw [hread]
        simp [hge]
      left
      rw [hread]
      show _ ∈ if (Datum.finite used).lt config.memoryUsedPercent then _ else _
      rw [if_pos (lt_of_not_ge hnan hbelow)]
      exact List.mem_singleton.mpr rfl
  | disk detail hnan =>
      obtain ⟨used, hused⟩ := Option.isSome_iff_exists.mp (hdisk rfl)
      have hread : sensors.readings.disk = some ⟨defaultMount, used⟩ := by
        simp [Sensors.readings, hused]
      have hbelow : ¬ (Datum.finite used).ge config.diskUsedPercent = true := by
        intro hge
        refine habsent ⟨diskPressure, defaultMount,
          defaultMount ++ " at " ++ oneDecimal used ++ "%"⟩ ?_ ⟨rfl, rfl⟩
        unfold situationsFrom
        rw [hread]
        simp [hge]
      right
      rw [hread]
      show _ ∈ if (Datum.finite used).lt config.diskUsedPercent then _ else _
      rw [if_pos (lt_of_not_ge hnan hbelow)]
      exact List.mem_singleton.mpr rfl

end Argus
