import Argus.Daemon.Situation
import Argus.Lib.Pointwise
import Mathlib.Order.Bounds.Basic

/-!
# The steps of a procedure plan

A procedure plan takes up the allowed actions of its runbook that can take the situation. An
action that is skipped shifts nothing: a rollback is that of the position its action has in the
runbook. The radius of the plan is that of its actions. A rollback does not count towards it, so
that a plan may undo a step with more reach than it declares.
-/

namespace Argus

/-- How far a radius reaches. -/
def BlastRadius.reach : BlastRadius → Nat
  | .none => 0
  | .host => 1
  | .environment => 2
  | .fleet => 3

theorem reach_worstBlastRadius (a b : BlastRadius) :
    (worstBlastRadius a b).reach = max a.reach b.reach := by
  cases a <;> cases b <;> rfl

namespace Procedure

/-- The capability is registered as `d`, which is the first of its identifier. -/
def Registered (descriptors : List CapabilityDescriptor) (capability : CapabilityId)
    (d : CapabilityDescriptor) : Prop :=
  (descriptors.find? fun d => d.id == capability) = some d

/-- The capability is registered, and its schema takes the arguments of the situation. -/
def Qualifies (descriptors : List CapabilityDescriptor) (s : Situation)
    (capability : CapabilityId) : Prop :=
  ∃ d, Registered descriptors capability d ∧
    inputMatches d.inputSchema (procedureArguments s) = true

/-- The capability, on the situation. -/
def actionOn (s : Situation) (capability : CapabilityId) : Action :=
  ⟨capability, none, procedureArguments s⟩

/-- A step is that of a position of the runbook, rollback included. -/
structure StepAt (runbook : Runbook) (s : Situation) (descriptors : List CapabilityDescriptor)
    (index : Nat) (step : PlanStep) : Prop where
  action : ∃ capability, runbook.allowedActions[index]? = some capability ∧
    step.action = actionOn s capability
  rollback : ∀ rollback, step.rollback = some rollback ↔
    ∃ capability, runbook.rollback[index]? = some capability ∧
      Qualifies descriptors s capability ∧ rollback = actionOn s capability

/-- The steps are those of the positions whose action qualifies, in order. -/
def StepsOf (runbook : Runbook) (s : Situation) (descriptors : List CapabilityDescriptor)
    (steps : List PlanStep) : Prop :=
  ∃ positions : List Nat, positions.Pairwise (· < ·) ∧
    (∀ index, index ∈ positions ↔ ∃ capability, runbook.allowedActions[index]? = some capability ∧
      Qualifies descriptors s capability) ∧
    List.Forall₂ (StepAt runbook s descriptors) positions steps

/-- How far the actions of the steps reach. -/
def actionReaches (descriptors : List CapabilityDescriptor) (steps : List PlanStep) : Set Nat :=
  {reach | ∃ step ∈ steps, ∃ d, Registered descriptors step.action.capability d ∧
    d.effectiveBlastRadius.reach = reach}

/-- How far the rollbacks of the steps reach. -/
def rollbackReaches (descriptors : List CapabilityDescriptor) (steps : List PlanStep) : Set Nat :=
  {reach | ∃ step ∈ steps, ∃ rollback ∈ step.rollback, ∃ d,
    Registered descriptors rollback.capability d ∧ d.effectiveBlastRadius.reach = reach}

variable {runbook : Runbook} {s : Situation} {descriptors : List CapabilityDescriptor}

/-! ### What qualifies -/

theorem conforming_eq_some {capability : CapabilityId} {d : CapabilityDescriptor} :
    conforming descriptors (procedureArguments s) capability = some d ↔
      Registered descriptors capability d ∧
        inputMatches d.inputSchema (procedureArguments s) = true := by
  rw [conforming, Option.filter_eq_some_iff]
  rfl

theorem conforming_isSome {capability : CapabilityId} :
    (conforming descriptors (procedureArguments s) capability).isSome = true ↔
      Qualifies descriptors s capability := by
  simp only [Option.isSome_iff_exists, conforming_eq_some, Qualifies]

/-! ### The steps -/

/-- What a position of the runbook makes: a step, with the radius of its action. -/
def stepOf (runbook : Runbook) (s : Situation) (descriptors : List CapabilityDescriptor)
    (entry : CapabilityId × Nat) : Option (PlanStep × BlastRadius) :=
  (conforming descriptors (procedureArguments s) entry.1).map fun descriptor =>
    let rollback := (runbook.rollback[entry.2]?).filter fun rollback =>
      (conforming descriptors (procedureArguments s) rollback).isSome
    (⟨actionOn s entry.1, rollback.map (actionOn s)⟩, descriptor.effectiveBlastRadius)

/-- The steps of a runbook, each with the radius of its action. -/
def steps (runbook : Runbook) (s : Situation) (descriptors : List CapabilityDescriptor) :
    List (PlanStep × BlastRadius) :=
  runbook.allowedActions.zipIdx.filterMap (stepOf runbook s descriptors)

theorem procedurePlan_eq_none :
    procedurePlan runbook s descriptors = none ↔ steps runbook s descriptors = [] := by
  show (if (steps runbook s descriptors).isEmpty then none else some _) = none ↔ _
  split_ifs with h <;> simpa using h

theorem of_procedurePlan {plan : Plan} (h : procedurePlan runbook s descriptors = some plan) :
    steps runbook s descriptors ≠ [] ∧ plan.steps = (steps runbook s descriptors).map Prod.fst ∧
      plan.blastRadius =
        ((steps runbook s descriptors).map Prod.snd).foldl worstBlastRadius .none := by
  have hne : steps runbook s descriptors ≠ [] := by
    intro hnil
    rw [procedurePlan_eq_none.mpr hnil] at h
    cases h
  have hsome : procedurePlan runbook s descriptors = some _ :=
    if_neg (mt List.isEmpty_iff.mp hne)
  obtain rfl := Option.some.inj (hsome.symm.trans h)
  exact ⟨hne, rfl, rfl⟩

theorem stepOf_eq_some {entry : CapabilityId × Nat} {step : PlanStep} {radius : BlastRadius} :
    stepOf runbook s descriptors entry = some (step, radius) ↔
      ∃ d, Registered descriptors entry.1 d ∧
        inputMatches d.inputSchema (procedureArguments s) = true ∧
        d.effectiveBlastRadius = radius ∧ step.action = actionOn s entry.1 ∧
        step.rollback = ((runbook.rollback[entry.2]?).filter fun rollback =>
          (conforming descriptors (procedureArguments s) rollback).isSome).map (actionOn s) := by
  simp only [stepOf, Option.map_eq_some_iff, conforming_eq_some, Prod.mk.injEq]
  constructor
  · intro h
    obtain ⟨d, ⟨hd, hmatches⟩, rfl, hradius⟩ := h
    exact ⟨d, hd, hmatches, hradius, rfl, rfl⟩
  · intro h
    obtain ⟨d, hd, hmatches, hradius, haction, hrollback⟩ := h
    refine ⟨d, ⟨hd, hmatches⟩, ?_, hradius⟩
    rw [← haction, ← hrollback]

theorem stepOf_isSome {entry : CapabilityId × Nat} :
    (stepOf runbook s descriptors entry).isSome = true ↔ Qualifies descriptors s entry.1 := by
  rw [stepOf, Option.isSome_map, conforming_isSome]

/-- The rollback of a step is the one declared at its position, if that qualifies. -/
theorem rollback_eq_some {index : Nat} {rollback : Action} :
    ((runbook.rollback[index]?).filter fun rollback =>
        (conforming descriptors (procedureArguments s) rollback).isSome).map (actionOn s) =
      some rollback ↔
    ∃ capability, runbook.rollback[index]? = some capability ∧
      Qualifies descriptors s capability ∧ rollback = actionOn s capability := by
  simp only [Option.map_eq_some_iff, Option.filter_eq_some_iff, conforming_isSome]
  constructor
  · intro h
    obtain ⟨capability, ⟨hdeclared, hqualifies⟩, rfl⟩ := h
    exact ⟨capability, hdeclared, hqualifies, rfl⟩
  · intro h
    obtain ⟨capability, hdeclared, hqualifies, rfl⟩ := h
    exact ⟨capability, ⟨hdeclared, hqualifies⟩, rfl⟩

theorem stepAt_of_stepOf {entry : CapabilityId × Nat} {step : PlanStep} {radius : BlastRadius}
    (hentry : entry ∈ runbook.allowedActions.zipIdx)
    (h : stepOf runbook s descriptors entry = some (step, radius)) :
    StepAt runbook s descriptors entry.2 step := by
  obtain ⟨d, -, -, -, haction, hrollback⟩ := stepOf_eq_some.mp h
  refine ⟨⟨entry.1, List.mem_zipIdx_iff_getElem?.mp hentry, haction⟩, fun rollback => ?_⟩
  rw [hrollback]
  exact rollback_eq_some

theorem stepsOf_steps :
    StepsOf runbook s descriptors ((steps runbook s descriptors).map Prod.fst) := by
  let kept := runbook.allowedActions.zipIdx.filter fun entry =>
    (stepOf runbook s descriptors entry).isSome
  refine ⟨kept.map Prod.snd, ?_, fun index => ?_, ?_⟩
  · -- the positions are a part of all of them
    have hsub : (kept.map Prod.snd).Sublist (runbook.allowedActions.zipIdx.map Prod.snd) :=
      List.filter_sublist.map Prod.snd
    rw [List.zipIdx_map_snd] at hsub
    exact List.Pairwise.sublist hsub List.pairwise_lt_range'
  · constructor
    · intro h
      obtain ⟨⟨capability, index⟩, hentry, rfl⟩ := List.mem_map.mp h
      obtain ⟨hmem, hsome⟩ := List.mem_filter.mp hentry
      exact ⟨capability, List.mem_zipIdx_iff_getElem?.mp hmem, stepOf_isSome.mp hsome⟩
    · rintro ⟨capability, hallowed, hqualifies⟩
      refine List.mem_map.mpr ⟨(capability, index), List.mem_filter.mpr ⟨?_, ?_⟩, rfl⟩
      · exact List.mem_zipIdx_iff_getElem?.mpr hallowed
      · exact stepOf_isSome.mpr hqualifies
  · rw [List.forall₂_map_left_iff, List.forall₂_map_right_iff]
    exact Pointwise.forall₂_filterMap_iff.mpr fun entry hentry step => stepAt_of_stepOf hentry

/-! ### The radius -/

theorem foldl_worstBlastRadius (radii : List BlastRadius) (radius : BlastRadius) :
    (radii.foldl worstBlastRadius radius).reach =
      (radii.map BlastRadius.reach).foldl max radius.reach := by
  induction radii generalizing radius with
  | nil => rfl
  | cons a radii ih =>
      rw [List.foldl_cons, ih, reach_worstBlastRadius, List.map_cons, List.foldl_cons]

theorem mem_actionReaches {reach : Nat} :
    reach ∈ actionReaches descriptors ((steps runbook s descriptors).map Prod.fst) ↔
      ∃ entry ∈ steps runbook s descriptors, entry.2.reach = reach := by
  have hradius {step : PlanStep} {radius : BlastRadius}
      (hmem : (step, radius) ∈ steps runbook s descriptors) :
      ∃ d, Registered descriptors step.action.capability d ∧ d.effectiveBlastRadius = radius := by
    obtain ⟨entry, -, hentry⟩ := List.mem_filterMap.mp hmem
    obtain ⟨d, hd, -, hradius, haction, -⟩ := stepOf_eq_some.mp hentry
    exact ⟨d, by rw [haction]; exact hd, hradius⟩
  constructor
  · intro h
    obtain ⟨step, hstep, d, hd, rfl⟩ := h
    obtain ⟨⟨step, radius⟩, hmem, rfl⟩ := List.mem_map.mp hstep
    obtain ⟨d', hd', rfl⟩ := hradius hmem
    obtain rfl : d = d' := Option.some.inj (hd.symm.trans hd')
    exact ⟨_, hmem, rfl⟩
  · intro h
    obtain ⟨⟨step, radius⟩, hmem, rfl⟩ := h
    obtain ⟨d, hd, rfl⟩ := hradius hmem
    exact ⟨step, List.mem_map_of_mem hmem, d, hd, rfl⟩

/-- The radius of the steps, folded, is the widest of their actions. -/
theorem isGreatest_reach (hne : steps runbook s descriptors ≠ []) :
    IsGreatest (actionReaches descriptors ((steps runbook s descriptors).map Prod.fst))
      (((steps runbook s descriptors).map Prod.snd).foldl worstBlastRadius .none).reach := by
  let reaches := ((steps runbook s descriptors).map Prod.snd).map BlastRadius.reach
  have hreaches : reaches ≠ [] := by simpa [reaches] using hne
  have hmem (reach : Nat) : reach ∈ reaches ↔
      reach ∈ actionReaches descriptors ((steps runbook s descriptors).map Prod.fst) := by
    simp [mem_actionReaches, reaches]
  have hfold : (((steps runbook s descriptors).map Prod.snd).foldl worstBlastRadius .none).reach =
      reaches.max hreaches := by
    rw [foldl_worstBlastRadius, List.foldl_max_eq_max hreaches]
    exact Nat.zero_max _
  rw [hfold]
  exact ⟨(hmem _).mp (List.max_mem hreaches),
    fun reach hreach => List.le_max_of_mem ((hmem reach).mpr hreach)⟩

/-! ### The plan -/

/-- The steps of a procedure are those of the allowed actions that qualify, each with the rollback
of its own position, and the radius is the widest of the actions. There is no plan exactly when no
action qualifies. -/
theorem procedurePlan_widens_nothing (runbook : Runbook) (s : Situation)
    (descriptors : List CapabilityDescriptor) :
    (procedurePlan runbook s descriptors = none ↔
      ∀ capability ∈ runbook.allowedActions, ¬ Qualifies descriptors s capability) ∧
    ∀ plan, procedurePlan runbook s descriptors = some plan →
      StepsOf runbook s descriptors plan.steps ∧
        IsGreatest (actionReaches descriptors plan.steps) plan.blastRadius.reach := by
  constructor
  · rw [procedurePlan_eq_none, steps, List.filterMap_eq_nil_iff]
    constructor
    · intro h capability hallowed hqualifies
      obtain ⟨index, hindex⟩ := List.mem_iff_getElem?.mp hallowed
      have hnone := h (capability, index) (List.mem_zipIdx_iff_getElem?.mpr hindex)
      have hsome : (stepOf runbook s descriptors (capability, index)).isSome = true :=
        stepOf_isSome.mpr hqualifies
      simp [hnone] at hsome
    · intro h entry hentry
      rw [← Option.not_isSome_iff_eq_none, stepOf_isSome]
      exact h entry.1 (List.mem_of_getElem? (List.mem_zipIdx_iff_getElem?.mp hentry))
  · intro plan h
    obtain ⟨hne, hsteps, hradius⟩ := of_procedurePlan h
    rw [hsteps, hradius]
    exact ⟨stepsOf_steps, isGreatest_reach hne⟩

/-! ### A rollback that reaches further -/

/-- A capability that takes any arguments. -/
def anyArguments (capability : CapabilityId) (radius : BlastRadius) : CapabilityDescriptor where
  id := capability
  riskClass := .controlled
  inputSchema := .null
  blastRadius := some radius
  requiresApproval := true
  timeoutSeconds := none

theorem k8sNodeUncordon_valid : isDottedPath CapabilityId.k8sNodeUncordon = true := by decide

def reclaim : CapabilityId := ⟨CapabilityId.hostMemoryReclaim, CapabilityId.hostMemoryReclaim_valid⟩

def uncordon : CapabilityId := ⟨CapabilityId.k8sNodeUncordon, k8sNodeUncordon_valid⟩

/-- Memory is reclaimed, and a node is uncordoned when that fails. -/
def reclaimOrUncordon : Runbook where
  name := "reclaim"
  trigger := .symptom memoryPressure
  allowedActions := [reclaim]
  rollback := [uncordon]
  status := .promoted
  attempts := 0
  successes := 0

/-- A rollback whose capability reaches the whole fleet, under a plan that declares the host. -/
theorem rollback_reaches_further :
    ¬ ∀ (runbook : Runbook) (s : Situation) (descriptors : List CapabilityDescriptor)
      (plan : Plan), procedurePlan runbook s descriptors = some plan →
        ∀ reach ∈ rollbackReaches descriptors plan.steps, reach ≤ plan.blastRadius.reach := by
  intro h
  let s : Situation := ⟨memoryPressure, "mem", "mem at 95.0%"⟩
  let descriptors := [anyArguments reclaim .host, anyArguments uncordon .fleet]
  have hread : (procedurePlan reclaimOrUncordon s descriptors).map (fun plan =>
      (plan.blastRadius, plan.steps)) =
        some (.host, [⟨actionOn s reclaim, some (actionOn s uncordon)⟩]) := by decide +kernel
  obtain ⟨plan, hplan, hfields⟩ := Option.map_eq_some_iff.mp hread
  obtain ⟨hradius, hsteps⟩ := Prod.mk.inj hfields
  have hregistered : Registered descriptors uncordon (anyArguments uncordon .fleet) := rfl
  have hreach : BlastRadius.fleet.reach ∈ rollbackReaches descriptors plan.steps := by
    rw [hsteps]
    exact ⟨_, List.mem_singleton_self _, _, rfl, _, hregistered, rfl⟩
  have hle := h reclaimOrUncordon s descriptors plan hplan _ hreach
  rw [hradius] at hle
  exact absurd hle (by decide)

end Procedure
end Argus
