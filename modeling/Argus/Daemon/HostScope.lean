import Argus.Daemon.CloudSurface
import Argus.Daemon.SharedBudget

/-!
# The host-scope budget of a plan

A step's unit is reserved under the radius of its plan, which is the widest of its steps'
radii, and not under the step's own. `HostScopeCounted` is what the host-scope limit is for:
each step that touches the host, and is executed without a grant, costs a unit of it.
`host_scope_counted_iff` says for which plans that is so.
-/

namespace Argus

open Interaction Prog

/-! ### Units under one limit -/

/-- What an event does to the number of units out under a limit. -/
def LoopEvent.unitsUnder (cap : Cap) (e : LoopEvent) : Int :=
  (if e.taken?.any fun unit => cap.applies unit.risk unit.scope then 1 else 0) -
    if e.given?.any fun unit => cap.applies unit.risk unit.scope then 1 else 0

namespace Control

variable {env : RunEnv} {state : LoopState env.plan} {index : StepIndex env.plan}
  {action : Action} {decision : PolicyDecision} {t : LoopTrace} {turn : Turn env.plan}

/-- The units a trace consumed under a limit. -/
def consumed (cap : Cap) (t : LoopTrace) : Int := (t.map (LoopEvent.unitsUnder cap)).sum

@[simp] theorem consumed_nil {cap : Cap} : consumed cap [] = 0 := rfl

@[simp] theorem consumed_cons {cap : Cap} {e : LoopEvent} :
    consumed cap (e :: t) = e.unitsUnder cap + consumed cap t := by
  simp [consumed]

/-- Every unit of `t` is taken and given back under `scope`. -/
def Scoped (scope : BlastRadius) (t : LoopTrace) : Prop :=
  ∀ e : LoopEvent, e ∈ t → ∀ unit, e.taken? = some unit ∨ e.given? = some unit →
    unit.scope = scope

theorem scoped_cons {scope : BlastRadius} {e : LoopEvent} : Scoped scope (e :: t) ↔
    (∀ unit, e.taken? = some unit ∨ e.given? = some unit → unit.scope = scope) ∧
      Scoped scope t := by
  simp [Scoped]

theorem unitsUnder_of_scoped {scope : BlastRadius} {e : LoopEvent}
    (h : ∀ unit, e.taken? = some unit ∨ e.given? = some unit → unit.scope = scope) :
    e.unitsUnder .hostScopeDay = if scope = .host then e.units else 0 := by
  obtain ⟨⟨site, port⟩, reply⟩ := e
  cases port with
  | budgetReserve risk radius now =>
      cases reply with
      | true =>
          obtain rfl : radius = scope := h _ (.inl rfl)
          simp [LoopEvent.unitsUnder, LoopEvent.taken?, LoopEvent.given?, LoopEvent.units,
            Cap.applies]
      | false => exact (ite_self 0).symm
  | budgetRefund risk radius now =>
      obtain rfl : radius = scope := h _ (.inr rfl)
      by_cases hhost : radius = .host <;>
        simp [LoopEvent.unitsUnder, LoopEvent.taken?, LoopEvent.given?, LoopEvent.units,
          Cap.applies, hhost]
  | _ => exact (ite_self 0).symm

/-- Under one scope, the host-scope limit sees every unit or none. -/
theorem Scoped.consumed {scope : BlastRadius} (h : Scoped scope t) :
    Control.consumed .hostScopeDay t = if scope = .host then net t else 0 := by
  induction t with
  | nil => simp
  | cons e t ih =>
      obtain ⟨he, ht⟩ := scoped_cons.mp h
      rw [consumed_cons, unitsUnder_of_scoped he, ih ht, net_cons]
      split_ifs <;> simp

/-- A turn takes its unit, and gives it back, under the radius of the plan. -/
theorem StepRun.scoped (h : StepRun env state index t turn) :
    Scoped env.plan.blastRadius t := by
  intro e he unit hunit
  have hpriced : (e.units != 0) = true := by
    by_contra hfree
    have hzero : e.units = 0 := by simpa using hfree
    rcases hunit with htaken | hgiven
    · rw [taken?_eq_none hzero] at htaken
      cases htaken
    · rw [given?_eq_none hzero] at hgiven
      cases hgiven
  have hmem : e ∈ charges t := List.mem_filter.mpr ⟨he, hpriced⟩
  have hcharged : ∀ now, e = reserveEvent env index now true ∨ e = refundEvent env index now →
      unit.scope = env.plan.blastRadius := by
    rintro now (rfl | rfl)
    · rcases hunit with hunit | hunit <;> cases hunit
      rfl
    · rcases hunit with hunit | hunit <;> cases hunit
      rfl
  generalize hcharges : charges t = charged at hmem
  have hturn := h.charged
  rw [hcharges] at hturn
  cases hturn with
  | nothing => cases hmem
  | @taken now => exact hcharged now (.inl (List.mem_singleton.mp hmem))
  | @returned now => exact hcharged now (by simpa using hmem)

theorem LoopRun.scoped {indices : List (StepIndex env.plan)} {run : PlanRun}
    (h : LoopRun env indices state t run) : Scoped env.plan.blastRadius t := by
  induction h with
  | done => intro e he; cases he
  | next hstep _ ih =>
      intro e he
      exact (List.mem_append.mp he).elim (hstep.scoped e) (ih e)
  | stop hstep => exact hstep.scoped

/-! ### What an executed step costs -/

/-- No executor called its own effect on the step a no-op. -/
def Unreported (t : LoopTrace) (i : Nat) : Prop :=
  ∀ v, .ok v ∈ effects i t → v.get "already_desired" ≠ some (.bool true)

theorem Effectless.attempted {i : Nat} (h : Effectless t) : Control.attempted t i = false := by
  simp [Control.attempted, h.effects]

/-- A step whose effect was asked for was ready for it, and its state could be read. -/
theorem ExecRun.ready_of_attempted (h : ExecRun env state index action decision t turn)
    (ha : attempted t index = true) :
    ready action = true ∧ ∀ msg, .error msg ∉ readings index t := by
  cases h with
  | noOp hread =>
      have hreads := hread.quiet.effectless.effects (i := index)
      simp [attempted, hreads] at ha
  | executed hread heffect hcheck =>
      obtain ⟨hreadings, htarget, -⟩ := hread.of_ok
      have hinvokes : invokes action = true := by cases heffect; assumption
      refine ⟨by simp [ready, htarget, hinvokes], ?_⟩
      simpa [heffect.readings, (validateStep_quiet hcheck).allAt.readings_eq_nil] using hreadings
  | effectFailed hread heffect hwalk =>
      obtain ⟨hreadings, htarget, -⟩ := hread.of_ok
      have hreads := hread.quiet.effectless.effects (i := index)
      have hinvokes : invokes action = true := by
        by_contra hnone
        simp [attempted, heffect.effects, hnone, hreads, hwalk.effects] at ha
      refine ⟨by simp [ready, htarget, hinvokes], ?_⟩
      simpa [heffect.readings, hwalk.readings] using hreadings
  | readFailed hread hwalk =>
      have hreads := hread.quiet.effectless.effects (i := index)
      simp [attempted, hreads, hwalk.effects] at ha

/-- A step the budget rations, and whose effect was asked for, took a unit and passed its other
gates; it was ready, and its state could be read. -/
theorem StepRun.spent_of_attempted (h : StepRun env state index t turn)
    (ha : attempted t index = true) (hr : rationed env.resumed t index = true) :
    spent env.plan env.registry env.autonomy t index = true ∧
      ready (stepAction env index) = true ∧ ∀ msg, .error msg ∉ readings index t := by
  have hidle {t' : LoopTrace} (heffectless : Effectless t')
      (hattempted : attempted t' index = true) : False := by
    rw [heffectless.attempted] at hattempted
    cases hattempted
  cases h with
  | skipped => exact (hidle (by simp) ha).elim
  | refused => exact (hidle (by simp) ha).elim
  | @passed gate _ _ _ hgate hpolicy =>
      have heffectless := hgate.effectless
      cases hpolicy with
      | denied => exact (hidle (by simp [heffectless]) ha).elim
      | approvalPaused => exact (hidle (by simp [heffectless]) ha).elim
      | budgetExhausted => exact (hidle (by simp [heffectless]) ha).elim
      | matrixDenied => exact (hidle (by simp [heffectless]) ha).elim
      | escalated => exact (hidle (by simp [heffectless]) ha).elim
      | approvalGranted _ hresumed => simp [rationed, hresumed] at hr
      | @permitted d now exec turn _ hmatrix hescalates hexec =>
          have hnone : verdicts
              (if turn.outcome?.any lastIsNoOp then surrender env index d now else []) = [] := by
            split_ifs <;> simp
          rw [permitted_eq] at ha hr ⊢
          rw [hgate.gates_reserved.attempted_around gates_refund] at ha
          rw [hgate.gates_reserved.rationed_around (d := d) gates_refund hexec
            (by simp [hgate.verdicts]) hnone] at hr
          have hgrant : grantBacked env d = false := by simpa using hr
          rw [hgate.gates_reserved.readings_around gates_refund]
          exact ⟨by simp [spent_eq, hmatrix, hescalates, takesUnit, reservation, hgrant, atStep],
            hexec.ready_of_attempted ha⟩

/-- Such a step costs its unit, unless its executor called the effect a no-op. -/
theorem StepRun.net_of_attempted (h : StepRun env state index t turn)
    (ha : attempted t index = true) (hr : rationed env.resumed t index = true) :
    net (atStep index t) = 1 ↔ Unreported t index := by
  obtain ⟨hspent, hready, hread⟩ := h.spent_of_attempted ha hr
  cases h.balance with
  | exact hnet hclean =>
      rw [ha, hr] at hnet
      exact iff_of_true hnet (hclean hspent).evidence
  | kept hidle =>
      rw [ha] at hidle
      cases hidle
  | returned _ _ hnet _ hunclean =>
      refine iff_of_false (by simp [hnet]) fun hunreported => hunclean ?_
      exact ⟨hready, hread, hunreported⟩

/-! ### The host-scope limit over a run -/

/-- The registered descriptor of the capability says that it touches the host. -/
def touchesHost (registry : CapabilityRegistry) (capability : CapabilityId) : Bool :=
  (registry.get capability).any fun d => d.effectiveBlastRadius == .host

/-- The step was executed without a grant, and touches the host. -/
structure HostExecuted (plan : Plan) (registry : CapabilityRegistry) (resumed : Bool)
    (t : LoopTrace) (i : StepIndex plan) : Prop where
  attempted : attempted t i = true
  rationed : rationed resumed t i = true
  touches : touchesHost registry (plan.step i).action.capability = true

/-- Each such step consumed a unit of the host-scope limit. -/
def HostScopeCounted (plan : Plan) (registry : CapabilityRegistry) (resumed : Bool)
    (t : LoopTrace) : Prop :=
  ∀ i : StepIndex plan, HostExecuted plan registry resumed t i →
    consumed .hostScopeDay (atStep i t) = 1

theorem attempted_congr {t' : LoopTrace} {i : Nat} (hsame : atStep i t = atStep i t') :
    attempted t i = attempted t' i := by
  simp only [attempted, effects, hsame]

theorem LoopRun.net_of_attempted {indices : List (StepIndex env.plan)} {run : PlanRun}
    (h : LoopRun env indices state t run) (hsorted : indices.Pairwise (· < ·))
    {i : StepIndex env.plan} (ha : attempted t i = true)
    (hr : rationed env.resumed t i = true) :
    net (Control.atStep i t) = 1 ↔ Unreported t i := by
  rcases h.atStep hsorted i with hnil | ⟨state', t', turn, hstep, hsame⟩
  · simp [attempted, effects, hnil] at ha
  · have ha' : attempted t' i = true := by rw [← attempted_congr hsame, ha]
    have hr' : rationed env.resumed t' i = true := by
      rw [← hr]
      simp only [rationed, hsame]
    rw [hsame, hstep.net_of_attempted ha' hr']
    simp only [Unreported, effects, hsame]

theorem Scoped.atStep {scope : BlastRadius} {i : Nat} (h : Scoped scope t) :
    Scoped scope (Control.atStep i t) := fun e he => h e (List.mem_of_mem_filter he)

variable {inputs : LoopInputs} {plan : Plan} {resume : Option (List (StepIndex plan))}
  {run : PlanRun}

/-- **The host-scope budget of a run.** Every step that touches the host and is executed without
a grant consumes a unit of the host-scope limit exactly when the plan's radius is the host
wherever there is such a step, and no executor calls its own effect on one a no-op. -/
theorem host_scope_counted_iff (h : Runs (runPlan inputs plan resume) t run) :
    HostScopeCounted plan inputs.registry resume.isSome t ↔
      ∀ i : StepIndex plan, HostExecuted plan inputs.registry resume.isSome t i →
        plan.blastRadius = .host ∧ Unreported t i := by
  obtain ⟨correlation, t', hloop, rfl⟩ := runPlan_inv h
  refine forall_congr' fun i => forall_congr' fun hexecuted => ?_
  have hsame : Control.atStep i (announcement plan correlation ++ t') = Control.atStep i t' :=
    atStep_announcement
  have ha : attempted t' i = true := by rw [← attempted_congr hsame, hexecuted.attempted]
  have hr : rationed resume.isSome t' i = true := by
    rw [← hexecuted.rationed]
    simp only [rationed, hsame]
  have hnet := hloop.net_of_attempted (List.pairwise_lt_finRange _) ha hr
  rw [hsame, hloop.scoped.atStep.consumed]
  simp only [Unreported, effects, hsame] at hnet ⊢
  split_ifs with hhost
  · rw [hnet]
    exact (and_iff_right hhost).symm
  · exact iff_of_false (by decide) fun hall => hhost hall.1

/-! ### A plan that mixes radii -/

/-- The daemon's own capabilities, at a level. -/
def bootstrapInputs (autonomy : AutonomyMode) : LoopInputs :=
  { LoopInputs.atLevel autonomy with registry := bootstrapRegistry.toCapabilityRegistry }

/-- `host.cgroup.freeze` of a cgroup. -/
def freezeCgroup (path : String) : Action :=
  ⟨⟨CapabilityId.hostCgroupFreeze, CapabilityId.hostCgroupFreeze_valid⟩, none,
    .object [("path", .string path)]⟩

/-- `k8s.deployment.restart` of a deployment. -/
def rolloutRestart (name : String) : Action :=
  ⟨⟨CapabilityId.k8sDeploymentRestart, by decide⟩, none, .object [("name", .string name)]⟩

/-- A freeze, alone. -/
def freezePlan : Plan := .ofSteps [⟨freezeCgroup "app.slice", none⟩]

/-- The same freeze before the restart of a deployment, which widens the radius of the plan. -/
def mixedPlan : Plan :=
  { Plan.ofSteps [⟨freezeCgroup "app.slice", none⟩, ⟨rolloutRestart "web", none⟩] with
    blastRadius := .environment }

/-- A freeze on its own costs its unit of the host-scope limit. -/
theorem freeze_counted : ∃ t run,
    Runs (runPlan (bootstrapInputs .l3Assisted) freezePlan none) t run ∧
      HostExecuted freezePlan (bootstrapInputs .l3Assisted).registry false t
        ⟨0, Nat.zero_lt_one⟩ ∧
      (HostScopeCounted freezePlan (bootstrapInputs .l3Assisted).registry false t ↔
        ∀ i : StepIndex freezePlan,
          HostExecuted freezePlan (bootstrapInputs .l3Assisted).registry false t i →
            freezePlan.blastRadius = .host ∧ Unreported t i) := by
  have hrun := play_runs (FixedPorts.willing (.allow "bootstrap" "permitted")).answer
    (runPlan (bootstrapInputs .l3Assisted) freezePlan none) ()
  refine ⟨_, _, hrun, ⟨?_, ?_, ?_⟩, host_scope_counted_iff hrun⟩
  · decide
  · decide
  · decide

/-- The freeze of the mixed plan is executed without a grant, and costs no unit of the
host-scope limit. -/
theorem freeze_uncounted : ∃ t run,
    Runs (runPlan (bootstrapInputs .l3Assisted) mixedPlan none) t run ∧
      HostExecuted mixedPlan (bootstrapInputs .l3Assisted).registry false t
        ⟨0, Nat.zero_lt_two⟩ ∧
      consumed .hostScopeDay (atStep 0 t) = 0 ∧
      ¬ HostScopeCounted mixedPlan (bootstrapInputs .l3Assisted).registry false t := by
  have hrun := play_runs
    (secondVerdict (.requireApproval "bootstrap.approval-required" "needs approval")).answer
    (runPlan (bootstrapInputs .l3Assisted) mixedPlan none) ()
  generalize ht : (play (secondVerdict _).answer _ ()).1 = t at hrun
  have hexecuted : HostExecuted mixedPlan (bootstrapInputs .l3Assisted).registry false t
      ⟨0, Nat.zero_lt_two⟩ := by
    rw [← ht]
    exact ⟨by decide, by decide, by decide⟩
  have hfree : consumed .hostScopeDay (atStep 0 t) = 0 := by
    rw [← ht]
    decide
  refine ⟨t, _, hrun, hexecuted, hfree, ?_⟩
  intro hcounted
  have hunit := hcounted _ hexecuted
  exact absurd (hfree.symm.trans hunit) (by decide)

end Control
end Argus
