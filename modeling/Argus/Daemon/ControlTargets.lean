import Argus.Daemon.Control

/-!
# The targets of effects and reads

Every effect the loop requests carries out the action its site stands for: the action of a
step, or the declared rollback of one. `runPlan_own` says so of the program itself, by the
tree of its requests, and so of every run of it, finished or not.

* `CarriesOut` ties a request to the action it performs, by verb, unit and arguments;
* `ReadsTarget` ties a live-state read to the action whose target it reads.
-/

namespace Argus

open Interaction Prog

/-- The unit a request asks the service controller to restart, stop or start. -/
def Port.serviceUnit? : Port → Option String
  | serviceRestart unit | serviceStop unit | serviceStart unit => some unit
  | _ => none

namespace Control

/-- A service action on the unit. -/
def NamesUnit (action : Action) (unit : String) : Prop :=
  isServiceAction action.capability = true ∧ action.arguments.getStr "unit" = some unit

/-- The service action `id` on the unit. -/
def IsVerb (action : Action) (id unit : String) : Prop :=
  action.capability.asStr = id ∧ action.arguments.getStr "unit" = some unit

/-- The executor is given the action itself: its capability, resource and arguments. -/
def Hands (action : Action) (authorized : AuthorizedAction) : Prop :=
  authorized.request = requestFor action authorized.request.context.correlationId

/-- The request performs the action: the verb of a service action on the unit it names, or
the executor of its family on the action itself. -/
def CarriesOut (action : Action) : Port → Prop
  | .serviceRestart unit => IsVerb action CapabilityId.hostServiceRestart unit
  | .serviceStop unit => IsVerb action CapabilityId.hostServiceStop unit
  | .serviceStart unit => IsVerb action CapabilityId.hostServiceStart unit
  | .kubernetesExecute authorized => isServiceAction action.capability = false ∧
      isKubernetesAction action.capability = true ∧ Hands action authorized
  | .remediationExecute authorized => isServiceAction action.capability = false ∧
      isKubernetesAction action.capability = false ∧
      remediationHandles action.capability = true ∧ Hands action authorized
  | _ => False

/-- The request reads the live state of the action's own target, by the reader of its
family. -/
def ReadsTarget (action : Action) : Port → Prop
  | .serviceIsActive unit => NamesUnit action unit
  | .containerIsRunning id => action.capability.asStr = CapabilityId.containerRestart ∧
      action.arguments.getStr "container" = some id
  | .cgroupIsFrozen path =>
      action.capability.asStr ∈ [CapabilityId.hostCgroupFreeze, CapabilityId.hostCgroupThaw] ∧
        action.arguments.getStr "path" = some path
  | .podRunning namespace_ name =>
      action.capability.asStr ∈ [CapabilityId.k8sPodRestart, CapabilityId.k8sPodDelete] ∧
        (action.arguments.getStr "namespace").getD "default" = namespace_ ∧
        action.arguments.getStr "name" = some name
  | .deploymentAvailable namespace_ name => action.capability.asStr ∈
        [CapabilityId.k8sDeploymentRestart, CapabilityId.k8sDeploymentRollback] ∧
      (action.arguments.getStr "namespace").getD "default" = namespace_ ∧
      action.arguments.getStr "name" = some name
  | .nodeSchedulable name =>
      action.capability.asStr ∈ [CapabilityId.k8sNodeCordon, CapabilityId.k8sNodeUncordon] ∧
        action.arguments.getStr "name" = some name
  | _ => False

theorem IsVerb.namesUnit {action : Action} {id unit : String} (h : IsVerb action id unit)
    (hid : id ∈ [CapabilityId.hostServiceRestart, CapabilityId.hostServiceStop,
      CapabilityId.hostServiceStart]) : NamesUnit action unit := by
  refine ⟨?_, h.2⟩
  unfold isServiceAction
  rw [h.1]
  exact decide_eq_true hid

/-- A service effect is that of a service action on its unit. -/
theorem CarriesOut.namesUnit {action : Action} {port : Port} {unit : String}
    (h : CarriesOut action port) (hunit : port.serviceUnit? = some unit) :
    NamesUnit action unit := by
  cases port with
  | serviceRestart => cases hunit; exact IsVerb.namesUnit h (by decide)
  | serviceStop => cases hunit; exact IsVerb.namesUnit h (by decide)
  | serviceStart => cases hunit; exact IsVerb.namesUnit h (by decide)
  | _ => cases hunit

/-- A service action is carried out by a service effect. -/
theorem CarriesOut.serviceUnit {action : Action} {port : Port} {unit : String}
    (h : CarriesOut action port) (hnames : NamesUnit action unit) :
    port.serviceUnit? = some unit := by
  cases port with
  | serviceRestart => exact h.2.symm.trans hnames.2
  | serviceStop => exact h.2.symm.trans hnames.2
  | serviceStart => exact h.2.symm.trans hnames.2
  | kubernetesExecute => exact absurd (h.1.symm.trans hnames.1) (by decide)
  | remediationExecute => exact absurd (h.1.symm.trans hnames.1) (by decide)
  | _ => cases h

variable {env : RunEnv} {state : LoopState env.plan} {index : StepIndex env.plan}
variable {action : Action} {decision : PolicyDecision} {site : Site}

/-- The action a site stands for. -/
def actionAt (plan : Plan) : Site → Option Action
  | .step i => plan.steps[i]?.map PlanStep.action
  | .rollback i => plan.steps[i]?.bind PlanStep.rollback
  | _ => none

/-- An effect is that of the action its site stands for. -/
def Own (plan : Plan) : Site × Port → Prop
  | (site, port@(.serviceRestart _)) | (site, port@(.serviceStop _))
  | (site, port@(.serviceStart _)) | (site, port@(.remediationExecute _))
  | (site, port@(.kubernetesExecute _)) =>
      ∃ action, actionAt plan site = some action ∧ CarriesOut action port
  | _ => True

theorem Own.carriesOut {plan : Plan} {e : LoopEvent} (h : Own plan e.op)
    (heffect : e.effect?.isSome = true) :
    ∃ action, actionAt plan e.op.1 = some action ∧ CarriesOut action e.op.2 := by
  obtain ⟨⟨site, port⟩, reply⟩ := e
  cases port <;> first | exact h | cases heffect

@[simp] theorem asks_ask_bind {α : Type} {P : Site × Port → Prop} {port : Port}
    {f : port.Reply → LoopM α} :
    Asks P (ask site port >>= f) ↔ P (site, port) ∧ ∀ r, Asks P (f r) := asks_call_bind

/-- An executor is handed the action itself, or nothing. -/
theorem executeThrough_own {correlation : Uuid}
    {executor : AuthorizedAction → LoopM (Except ExecutionError Value)}
    (hown : ∀ authorized, Hands action authorized → Asks (Own env.plan) (executor authorized)) :
    Asks (Own env.plan) (executeThrough executor action decision correlation) := by
  unfold executeThrough AuthorizedAction.new
  split_ifs with hallow
  · exact (hown ⟨requestFor action correlation, decision, hallow⟩ rfl).bind fun _ => asks_pure
  · exact asks_pure

theorem executeAction_own {correlation : Uuid} (hsite : actionAt env.plan site = some action) :
    Asks (Own env.plan) (executeAction site action decision correlation) := by
  unfold executeAction
  split_ifs with hservice hkube hremediation
  · unfold executeService
    split
    case h_1 => exact asks_pure
    case h_2 unit hunit =>
      dsimp only
      split_ifs with hrestart hstop hstart
      · exact ⟨⟨action, hsite, hrestart, hunit⟩, fun _ => asks_pure⟩
      · exact ⟨⟨action, hsite, hstop, hunit⟩, fun _ => asks_pure⟩
      · exact ⟨⟨action, hsite, hstart, hunit⟩, fun _ => asks_pure⟩
      · exact asks_pure
  · refine executeThrough_own fun authorized hhands => asks_call.mpr ⟨action, hsite, ?_⟩
    exact ⟨by simpa using hservice, hkube, hhands⟩
  · refine executeThrough_own fun authorized hhands => asks_call.mpr ⟨action, hsite, ?_⟩
    exact ⟨by simpa using hservice, by simpa using hkube, hremediation, hhands⟩
  · exact asks_pure

theorem observeTarget_own : Asks (Own env.plan) (observeTarget site action) := by
  unfold observeTarget readObject readArgument
  dsimp only
  split_ifs
  all_goals first
    | exact asks_pure
    | split
      · exact asks_pure
      · refine ⟨trivial, ?_⟩
        intro reply
        first
          | exact asks_pure
          | (cases reply <;> exact asks_pure)

theorem actionAt_step (plan : Plan) (i : StepIndex plan) :
    actionAt plan (.step i) = some (plan.step i).action := by
  simp [actionAt, Plan.step]

theorem actionAt_rollback (plan : Plan) (i : StepIndex plan) :
    actionAt plan (.rollback i) = (plan.step i).rollback := by
  simp [actionAt, Plan.step]

theorem desiredStateHolds_own : Asks (Own env.plan) (desiredStateHolds site action) := by
  unfold desiredStateHolds
  split
  · exact asks_pure
  · refine observeTarget_own.bind ?_
    intro reading
    cases reading <;> exact asks_pure

theorem validateStep_own : Asks (Own env.plan) (validateStep env site action) := by
  unfold validateStep
  split
  · refine observeTarget_own.bind ?_
    intro reading
    cases reading <;> exact ⟨trivial, fun _ => asks_pure⟩
  · exact asks_pure

theorem rollbackSteps_own (indices : List (StepIndex env.plan)) :
    Asks (Own env.plan) (rollbackSteps env indices) := by
  induction indices with
  | nil => exact ⟨trivial, fun _ => asks_pure⟩
  | cons index rest ih =>
      unfold rollbackSteps
      dsimp only
      split
      case h_1 => exact ⟨trivial, fun _ => asks_pure⟩
      case h_2 rollback hsome =>
        refine (executeAction_own ((actionAt_rollback env.plan index).trans hsome)).bind ?_
        intro result
        cases result with
        | ok evidence => exact ⟨trivial, fun _ => ⟨trivial, fun _ => ih⟩⟩
        | error err => exact ⟨trivial, fun _ => ⟨trivial, fun _ => ⟨trivial, fun _ => asks_pure⟩⟩⟩

theorem rollbackExecuted_own : Asks (Own env.plan) (rollbackExecuted env state) := by
  unfold rollbackExecuted
  split_ifs
  · exact asks_pure
  · exact ⟨trivial, fun _ => (rollbackSteps_own _).bind fun _ => asks_pure⟩

theorem recordFailure_own {outcome : ExecutionOutcome} {msg : String} :
    Asks (Own env.plan) (recordFailure site outcome action msg) :=
  ⟨trivial, fun _ => ⟨trivial, fun _ => asks_pure⟩⟩

theorem failStep_own {msg : String} :
    Asks (Own env.plan) (failStep env state site action decision msg) := by
  refine recordFailure_own.bind ?_
  intro outcome
  refine asks_ask_bind.mpr ⟨trivial, ?_⟩
  intro _
  exact rollbackExecuted_own.bind fun _ => asks_pure

theorem executeAllowedStep_own :
    Asks (Own env.plan)
      (executeAllowedStep env state index (env.plan.step index).action decision) := by
  refine desiredStateHolds_own.bind ?_
  intro reading
  match reading with
  | .ok true => exact ⟨trivial, fun _ => ⟨trivial, fun _ => asks_pure⟩⟩
  | .error _ => exact failStep_own
  | .ok false =>
      refine (executeAction_own (actionAt_step env.plan index)).bind ?_
      intro result
      cases result with
      | error err => exact failStep_own
      | ok evidence =>
          exact ⟨trivial, fun _ => validateStep_own.bind fun _ => ⟨trivial, fun _ => asks_pure⟩⟩

theorem denyStep_own {payload : List (String × Value)} {policyId : String} :
    Asks (Own env.plan) (denyStep env state site action payload policyId) :=
  ⟨trivial, fun _ => ⟨trivial, fun _ => asks_pure⟩⟩

theorem pauseStep_own {policyId : String} :
    Asks (Own env.plan) (pauseStep env state site action policyId) :=
  ⟨trivial, fun _ => ⟨trivial, fun _ => asks_pure⟩⟩

theorem reserveUnit_own {risk : RiskClass} {now : DateTime} :
    Asks (Own env.plan) (reserveUnit env index risk decision now) := by
  unfold reserveUnit
  split_ifs
  · exact asks_pure
  · exact asks_call.mpr trivial

theorem refundUnit_own {risk : RiskClass} {now : DateTime} {unused : Bool} :
    Asks (Own env.plan) (refundUnit env index risk decision now unused) := by
  unfold refundUnit
  split_ifs
  · exact asks_call.mpr trivial
  · exact asks_pure

theorem runAllowed_own {risk : RiskClass} :
    Asks (Own env.plan)
      (runAllowed env state index (env.plan.step index).action risk decision) := by
  refine ⟨trivial, fun now => reserveUnit_own.bind ?_⟩
  intro reserved
  split_ifs
  · exact pauseStep_own
  · exact refundUnit_own.bind fun _ => denyStep_own
  · exact refundUnit_own.bind fun _ => pauseStep_own
  · exact executeAllowedStep_own.bind fun _ => refundUnit_own.bind fun _ => asks_pure

theorem runPolicy_own :
    Asks (Own env.plan) (runPolicy env state index (env.plan.step index).action) := by
  refine asks_ask_bind.mpr ⟨trivial, ?_⟩
  intro decision
  split
  · exact denyStep_own
  · split_ifs
    · exact pauseStep_own
    · exact executeAllowedStep_own
  · exact runAllowed_own

theorem runStep_own : Asks (Own env.plan) (runStep env state index) := by
  unfold runStep
  dsimp only
  split_ifs
  · exact asks_pure
  · refine ⟨trivial, ?_⟩
    intro answer
    cases answer with
    | allowed reason => exact runPolicy_own
    | refused why => exact denyStep_own
  · exact runPolicy_own

theorem runSteps_own (indices : List (StepIndex env.plan)) :
    Asks (Own env.plan) (runSteps env indices state) := by
  induction indices generalizing state with
  | nil => exact asks_pure
  | cons index rest ih =>
      refine runStep_own.bind ?_
      intro turn
      cases turn with
      | next state' => exact ih
      | stop run => exact asks_pure

/-- Every effect of a run is that of a step or a rollback of its plan. -/
theorem runPlan_own (inputs : LoopInputs) (plan : Plan)
    (resume : Option (List (StepIndex plan))) :
    Asks (Own plan) (runPlan inputs plan resume) := by
  refine ⟨trivial, ?_⟩
  intro correlation
  refine ⟨trivial, ?_⟩
  intro _
  have hsteps (indices) (state) : Asks (Own plan)
      (runSteps (runEnv inputs plan resume.isSome correlation) indices state) :=
    runSteps_own indices
  exact hsteps _ _

end Control
end Argus
