import Argus.Daemon.ControlTargets

/-!
# What one turn of the control loop can do

The step loop has one inversion lemma per function, and everything proved about runs of
the loop is read off these rather than off the definitions:

* `ExecRun` lists the four ways `executeAllowedStep` can go — already desired, executed,
  failed in its effect, failed in its desired-state read (`executeAllowedStep_inv`);
* `StepRun` lists the ways `runStep` can go, one constructor for each exit of the gate
  cascade, with the requests made on the way (`runStep_inv`);
* `LoopRun` is the loop as a chain of such turns (`runSteps_inv`, `runPlan_inv`).
-/

namespace Argus.Control

open Interaction Prog

variable {env : RunEnv} {state : LoopState env.plan} {index : StepIndex env.plan}
variable {action : Action} {decision : PolicyDecision} {site : Site} {t : LoopTrace}

@[simp] theorem runs_ask {port : Port} {r : port.Reply} :
    Runs (ask site port) t r ↔ t = [ev site port r] := runs_call

@[simp] theorem runs_ask_bind {α : Type} {port : Port} {f : port.Reply → LoopM α} {a : α} :
    Runs (ask site port >>= f) t a ↔ ∃ r t', Runs (f r) t' a ∧ t = ev site port r :: t' :=
  runs_call_bind

/-! ### Effects -/

/-- Whether `executeAction` reaches a port: a service action that names its unit, or an
action of one of the two executors. -/
def invokes (action : Action) : Bool :=
  if isServiceAction action.capability then (action.arguments.getStr "unit").isSome
  else isKubernetesAction action.capability || remediationHandles action.capability

/-- The requests of `executeAction`: one effect, which carries out the action, or none and an
error. -/
inductive EffectRun (site : Site) (action : Action) : LoopTrace → Except String Value → Prop
  | invoked {e : LoopEvent} {r : Except String Value} (hinvokes : invokes action = true)
      (hsite : e.op.1 = site) (heffect : e.effect? = some r)
      (hcarries : CarriesOut action e.op.2) : EffectRun site action [e] r
  | rejected {msg : String} (hinvokes : invokes action = false) :
      EffectRun site action [] (.error msg)

theorem executeService_inv {r : Except String Value}
    (hservice : isServiceAction action.capability = true)
    (h : Runs (executeService site action) t r) : EffectRun site action t r := by
  unfold executeService at h
  split at h
  case h_1 hunit =>
    obtain ⟨rfl, rfl⟩ := h
    exact .rejected (by simp [invokes, hservice, hunit])
  case h_2 unit hunit =>
    have hinvokes : invokes action = true := by simp [invokes, hservice, hunit]
    dsimp only at h
    split_ifs at h with hrestart hstop hstart
    · obtain ⟨reply, t', ⟨rfl, rfl⟩, rfl⟩ := runs_ask_bind.mp h
      exact .invoked hinvokes rfl (by rw [hrestart]; rfl) ⟨hrestart, hunit⟩
    · obtain ⟨reply, t', ⟨rfl, rfl⟩, rfl⟩ := runs_ask_bind.mp h
      exact .invoked hinvokes rfl (by rw [hstop]; rfl) ⟨hstop, hunit⟩
    · obtain ⟨reply, t', ⟨rfl, rfl⟩, rfl⟩ := runs_ask_bind.mp h
      exact .invoked hinvokes rfl (by rw [hstart]; rfl) ⟨hstart, hunit⟩
    · -- the three verbs are all the service actions there are
      simp [isServiceAction, hrestart, hstop, hstart] at hservice

theorem executeThrough_inv {executor : AuthorizedAction → LoopM (Except ExecutionError Value)}
    {correlation : Uuid} {r : Except String Value} (hallow : decision.outcome = .allow)
    (h : Runs (executeThrough executor action decision correlation) t r) :
    ∃ authorized reply, Hands action authorized ∧ Runs (executor authorized) t reply ∧
      r = evidenceOf reply := by
  unfold executeThrough at h
  rw [AuthorizedAction.new_of_allow hallow] at h
  obtain ⟨reply, hexec, rfl⟩ := runs_bind_pure.mp h
  exact ⟨⟨requestFor action correlation, decision, hallow⟩, reply, rfl, hexec, rfl⟩

theorem executeAction_inv {correlation : Uuid} {r : Except String Value}
    (hallow : decision.outcome = .allow)
    (h : Runs (executeAction site action decision correlation) t r) :
    EffectRun site action t r := by
  unfold executeAction at h
  split_ifs at h with hservice hkube hremediation
  · exact executeService_inv hservice h
  · obtain ⟨a, reply, hhands, hexec, rfl⟩ := executeThrough_inv hallow h
    obtain rfl := runs_ask.mp hexec
    exact .invoked (by simp [invokes, hservice, hkube]) rfl rfl
      ⟨by simpa using hservice, hkube, hhands⟩
  · obtain ⟨a, reply, hhands, hexec, rfl⟩ := executeThrough_inv hallow h
    obtain rfl := runs_ask.mp hexec
    exact .invoked (by simp [invokes, hservice, hremediation]) rfl rfl
      ⟨by simpa using hservice, by simpa using hkube, hremediation, hhands⟩
  · obtain ⟨rfl, rfl⟩ := h
    exact .rejected (by simp [invokes, hservice, hkube, hremediation])

/-! ### Live-state reads -/

/-- The argument that names the target of a capability's live-state read. -/
def targetKey (capability : CapabilityId) : Option String :=
  let id := capability.asStr
  if isServiceAction capability then some "unit"
  else if id = CapabilityId.containerRestart then some "container"
  else if id ∈ [CapabilityId.hostCgroupFreeze, CapabilityId.hostCgroupThaw] then some "path"
  else if id ∈ [CapabilityId.k8sPodRestart, CapabilityId.k8sPodDelete] then some "name"
  else if id ∈ [CapabilityId.k8sDeploymentRestart, CapabilityId.k8sDeploymentRollback] then
    some "name"
  else if id ∈ [CapabilityId.k8sNodeCordon, CapabilityId.k8sNodeUncordon] then some "name"
  else none

/-- Whether `observeTarget` reaches a reader: the action names the target of its read. -/
def observes (action : Action) : Bool :=
  ((targetKey action.capability).bind action.arguments.getStr).isSome

/-- The requests of `observeTarget`: one read of the action's own target, or none and an
error. -/
inductive ReadRun (site : Site) (action : Action) : LoopTrace → Except String Bool → Prop
  | read {e : LoopEvent} {r : Except String Bool} (hobserves : observes action = true)
      (hsite : e.op.1 = site) (hreading : e.reading? = some r)
      (hreads : ReadsTarget action e.op.2) : ReadRun site action [e] r
  | unnamed {msg : String} (hobserves : observes action = false) :
      ReadRun site action [] (.error msg)

theorem readArgument_inv (key : String) {read : String → LoopM (Except String Bool)}
    {r : Except String Bool} (hkey : targetKey action.capability = some key)
    (hread : ∀ target t r, action.arguments.getStr key = some target → Runs (read target) t r →
      ∃ e : LoopEvent, t = [e] ∧ e.op.1 = site ∧ e.reading? = some r ∧
        ReadsTarget action e.op.2)
    (h : Runs (readArgument action key read) t r) : ReadRun site action t r := by
  unfold readArgument at h
  split at h
  case h_1 hnone =>
    obtain ⟨rfl, rfl⟩ := h
    exact .unnamed (by simp [observes, hkey, hnone])
  case h_2 target hsome =>
    obtain ⟨e, rfl, hsite, hreading, hreads⟩ := hread target t r hsome h
    exact .read (by simp [observes, hkey, hsome]) hsite hreading hreads

theorem observeTarget_inv {r : Except String Bool} (h : Runs (observeTarget site action) t r) :
    ReadRun site action t r := by
  unfold observeTarget at h
  dsimp only at h
  -- one case per family of capabilities, in the order `targetKey` tries them
  split_ifs at h with h₁ h₂ h₃ h₄ h₅ h₆
  · refine readArgument_inv "unit" (by simp [targetKey, h₁]) ?_ h
    intro unit t r hunit hrun
    obtain ⟨reply, t', hread, rfl⟩ := runs_ask_bind.mp hrun
    cases reply <;> (obtain ⟨rfl, rfl⟩ := hread; exact ⟨_, rfl, rfl, rfl, h₁, hunit⟩)
  · refine readArgument_inv "container" (by simp [targetKey, h₁, h₂]) ?_ h
    intro c t r hc hrun
    obtain ⟨reply, t', ⟨rfl, rfl⟩, rfl⟩ := hrun
    exact ⟨_, rfl, rfl, rfl, h₂, hc⟩
  · refine readArgument_inv "path" (by simp only [targetKey, h₁, h₂, h₃]; rfl) ?_ h
    intro path t r hpath hrun
    obtain ⟨reply, t', ⟨rfl, rfl⟩, rfl⟩ := hrun
    exact ⟨_, rfl, rfl, rfl, h₃, hpath⟩
  · refine readArgument_inv "name" (by simp only [targetKey, h₁, h₂, h₃, h₄]; rfl) ?_ h
    intro name t r hname hrun
    obtain ⟨reply, t', ⟨rfl, rfl⟩, rfl⟩ := hrun
    exact ⟨_, rfl, rfl, rfl, h₄, rfl, hname⟩
  · refine readArgument_inv "name" (by simp only [targetKey, h₁, h₂, h₃, h₄, h₅]; rfl) ?_ h
    intro name t r hname hrun
    obtain ⟨reply, t', ⟨rfl, rfl⟩, rfl⟩ := hrun
    exact ⟨_, rfl, rfl, rfl, h₅, rfl, hname⟩
  · refine readArgument_inv "name" (by simp only [targetKey, h₁, h₂, h₃, h₄, h₅, h₆]; rfl) ?_ h
    intro name t r hname hrun
    obtain ⟨reply, t', ⟨rfl, rfl⟩, rfl⟩ := hrun
    exact ⟨_, rfl, rfl, rfl, h₆, hname⟩
  · obtain ⟨rfl, rfl⟩ := h
    exact .unnamed (by simp only [observes, targetKey, h₁, h₂, h₃, h₄, h₅, h₆]; rfl)

/-- The requests of `desiredStateHolds`: none for a capability without a desired state,
else the read and its comparison with the desired state. -/
inductive DesiredRun (site : Site) (action : Action) : LoopTrace → Except String Bool → Prop
  | unchecked (hdesired : desiredState action.capability = none) :
      DesiredRun site action [] (.ok false)
  | compared {desired : Bool} {reads : LoopTrace} {observed : Bool}
      (hdesired : desiredState action.capability = some desired)
      (hread : ReadRun site action reads (.ok observed)) :
      DesiredRun site action reads (.ok (observed == desired))
  | unreadable {desired : Bool} {reads : LoopTrace} {msg : String}
      (hdesired : desiredState action.capability = some desired)
      (hread : ReadRun site action reads (.error msg)) :
      DesiredRun site action reads (.error msg)

theorem desiredStateHolds_inv {r : Except String Bool}
    (h : Runs (desiredStateHolds site action) t r) : DesiredRun site action t r := by
  unfold desiredStateHolds at h
  split at h
  case h_1 hnone =>
    obtain ⟨rfl, rfl⟩ := h
    exact .unchecked hnone
  case h_2 desired hsome =>
    obtain ⟨t₁, reading, t₂, hread, hcompare, rfl⟩ := runs_bind.mp h
    cases reading with
    | ok observed =>
        obtain ⟨rfl, rfl⟩ := hcompare
        simpa using DesiredRun.compared hsome (observeTarget_inv hread)
    | error msg =>
        obtain ⟨rfl, rfl⟩ := hcompare
        simpa using DesiredRun.unreadable hsome (observeTarget_inv hread)

/-! ### Quiet requests -/

/-- A request that neither asks for permission nor has an effect. -/
def Quiet (e : LoopEvent) : Prop := e.effect? = none ∧ e.op.2.isGate = false

theorem quiet_of_reading {e : LoopEvent} {r : Except String Bool} (h : e.reading? = some r) :
    Quiet e := by
  unfold LoopEvent.reading? at h
  split at h <;> first | exact ⟨rfl, rfl⟩ | cases h

theorem isGate_of_effect {e : LoopEvent} {r : Except String Value} (h : e.effect? = some r) :
    e.op.2.isGate = false := by
  unfold LoopEvent.effect? at h
  split at h <;> first | rfl | cases h

@[simp] theorem quiet_publish {eventType : String} {payload : Value} {u : Unit} :
    Quiet (ev site (.publish eventType payload) u) := ⟨rfl, rfl⟩

@[simp] theorem quiet_recordAction {record : ActionEventRecord} {u : Unit} :
    Quiet (ev site (.recordAction record) u) := ⟨rfl, rfl⟩

@[simp] theorem quiet_newUuid {token : Uuid} : Quiet (ev site .newUuid token) := ⟨rfl, rfl⟩

@[simp] theorem quiet_now {now : DateTime} : Quiet (ev site .now now) := ⟨rfl, rfl⟩

/-- Quiet requests, all made for `site`. -/
def QuietAt (site : Site) (t : LoopTrace) : Prop :=
  ∀ e : LoopEvent, e ∈ t → e.op.1 = site ∧ Quiet e

@[simp] theorem quietAt_nil : QuietAt site [] := by
  simp [QuietAt]

@[simp] theorem quietAt_cons {e : LoopEvent} :
    QuietAt site (e :: t) ↔ (e.op.1 = site ∧ Quiet e) ∧ QuietAt site t := by
  simp [QuietAt]

@[simp] theorem quietAt_append {t' : LoopTrace} :
    QuietAt site (t ++ t') ↔ QuietAt site t ∧ QuietAt site t' := by
  simp only [QuietAt, List.mem_append]
  grind

theorem ReadRun.quiet {r : Except String Bool} (h : ReadRun site action t r) :
    QuietAt site t := by
  cases h with
  | read _ hsite hreading => simp [hsite, quiet_of_reading hreading]
  | unnamed => simp

theorem DesiredRun.quiet {r : Except String Bool} (h : DesiredRun site action t r) :
    QuietAt site t := by
  cases h with
  | unchecked => simp
  | compared _ hread => exact hread.quiet
  | unreadable _ hread => exact hread.quiet

/-! ### Validation and rollback -/

theorem validateStep_quiet {validation : Option Value}
    (h : Runs (validateStep env site action) t validation) : QuietAt site t := by
  unfold validateStep at h
  split at h
  case h_1 =>
    obtain ⟨reads, reading, t₂, hread, hpublish, rfl⟩ := runs_bind.mp h
    have hreads := (observeTarget_inv hread).quiet
    cases reading with
    | error msg =>
        obtain ⟨⟨⟩, -, ⟨rfl, -⟩, rfl⟩ := hpublish
        simpa using hreads
    | ok observed =>
        obtain ⟨⟨⟩, -, ⟨rfl, -⟩, rfl⟩ := hpublish
        simpa using hreads
  case h_2 =>
    obtain ⟨rfl, -⟩ := h
    simp

/-- The ledger record of a rollback. -/
def rollbackRecord (env : RunEnv) (rollback : Action) (outcome : String) : ActionEventRecord :=
  actionEvent rollback env.correlation verdictAllow (some "plan.rollback") outcome none

/-- What the rollback walk can do. -/
inductive WalkRun (env : RunEnv) : List (StepIndex env.plan) → LoopTrace → PlanStatus → Prop
  | done : WalkRun env [] [ev .run (.publish "plan.rolled.back" (.object [])) ()] .rolledBack
  | noRollback {index : StepIndex env.plan} {rest : List (StepIndex env.plan)}
      (hnone : (env.plan.step index).rollback = none) :
      WalkRun env (index :: rest)
        [ev (.rollback index) (.publish "plan.needs.manual" (.object [])) ()] .needsManual
  | undone {index : StepIndex env.plan} {rest : List (StepIndex env.plan)} {rollback : Action}
      {effect t : LoopTrace} {evidence : Value} {status : PlanStatus}
      (hsome : (env.plan.step index).rollback = some rollback)
      (heffect : EffectRun (.rollback index) rollback effect (.ok evidence))
      (hrest : WalkRun env rest t status) :
      WalkRun env (index :: rest)
        (effect ++ ev (.rollback index) (.publish "action.rolled.back" evidence) () ::
          ev (.rollback index) (.recordAction (rollbackRecord env rollback outcomeRolledBack)) () ::
            t)
        status
  | stuck {index : StepIndex env.plan} {rest : List (StepIndex env.plan)} {rollback : Action}
      {effect : LoopTrace} {msg : String}
      (hsome : (env.plan.step index).rollback = some rollback)
      (heffect : EffectRun (.rollback index) rollback effect (.error msg)) :
      WalkRun env (index :: rest)
        (effect ++ [ev (.rollback index) (.publish "action.rollback.failed"
            (.object [("error", .string msg)])) (),
          ev (.rollback index) (.recordAction (rollbackRecord env rollback outcomeFailed)) (),
          ev (.rollback index) (.publish "plan.needs.manual" (.object [])) ()])
        .needsManual

theorem rollbackSteps_inv {indices : List (StepIndex env.plan)} {status : PlanStatus}
    (h : Runs (rollbackSteps env indices) t status) : WalkRun env indices t status := by
  induction indices generalizing t with
  | nil =>
      obtain ⟨⟨⟩, -, ⟨rfl, rfl⟩, rfl⟩ := h
      exact .done
  | cons index rest ih =>
      unfold rollbackSteps at h
      dsimp only at h
      split at h
      case h_1 hnone =>
        obtain ⟨⟨⟩, -, ⟨rfl, rfl⟩, rfl⟩ := h
        exact .noRollback hnone
      case h_2 rollback hsome =>
        obtain ⟨effect, result, t₂, heffect, hend, rfl⟩ := runs_bind.mp h
        -- the loop issues the permission of a rollback itself, so policy is not asked
        replace heffect := executeAction_inv rfl heffect
        cases result with
        | ok evidence =>
            obtain ⟨⟨⟩, t₃, hrecord, rfl⟩ := runs_ask_bind.mp hend
            obtain ⟨⟨⟩, t₄, hrest, rfl⟩ := runs_ask_bind.mp hrecord
            exact .undone hsome heffect (ih hrest)
        | error msg =>
            obtain ⟨⟨⟩, -, ⟨⟨⟩, -, ⟨⟨⟩, -, ⟨rfl, rfl⟩, rfl⟩, rfl⟩, rfl⟩ := hend
            exact .stuck hsome heffect

/-- What undoing the executed steps can do: nothing when there is none, else announce the
walk and walk them newest first. -/
inductive UndoRun (env : RunEnv) (state : LoopState env.plan) :
    LoopTrace → ExecutionOutcome → Prop
  | nothing (hempty : state.executed = []) : UndoRun env state [] state.outcome
  | walked {t : LoopTrace} {status : PlanStatus} (hsome : state.executed ≠ [])
      (hwalk : WalkRun env state.executed.reverse t status) :
      UndoRun env state (ev .run (.publish "plan.rolling.back" (.object [])) () :: t)
        { state.outcome with status }

theorem rollbackExecuted_inv {outcome : ExecutionOutcome}
    (h : Runs (rollbackExecuted env state) t outcome) : UndoRun env state t outcome := by
  unfold rollbackExecuted at h
  split_ifs at h with hempty
  · obtain ⟨rfl, rfl⟩ := h
    exact .nothing (by simpa using hempty)
  · obtain ⟨⟨⟩, t₁, hwalk, rfl⟩ := runs_ask_bind.mp h
    obtain ⟨status, hsteps, rfl⟩ := runs_bind_pure.mp hwalk
    exact .walked (by simpa using hempty) (rollbackSteps_inv hsteps)

/-! ### The exits of a gate -/

/-- The state after a denied step. -/
def LoopState.deny {plan : Plan} (state : LoopState plan) (action : Action) : LoopState plan :=
  { state with outcome := { state.outcome with
    denied := state.outcome.denied ++ [action.capability] } }

/-- The requests of a denial. -/
def denyTrace (env : RunEnv) (site : Site) (action : Action) (payload : List (String × Value))
    (policyId : String) : LoopTrace :=
  [ev site (.publish "plan.denied" (.object
      (("capability", .string action.capability.asStr) :: payload))) (),
    ev site (.recordAction (actionEvent action env.correlation verdictDeny (some policyId)
      outcomeDenied none)) ()]

theorem denyStep_inv {payload : List (String × Value)} {policyId : String} {turn : Turn env.plan}
    (h : Runs (denyStep env state site action payload policyId) t turn) :
    t = denyTrace env site action payload policyId ∧ turn = .next (state.deny action) := by
  obtain ⟨⟨⟩, -, ⟨⟨⟩, -, ⟨rfl, rfl⟩, rfl⟩, rfl⟩ := h
  exact ⟨rfl, rfl⟩

/-- The plan as it is parked on `token` after `executed`. -/
def parked (env : RunEnv) (executed : List (StepIndex env.plan)) (token : Uuid) : PendingPlan :=
  { plan := { env.plan with status := .awaitingApproval }
    token
    contextHash := env.contextHash
    executed
    dedupKey := none }

/-- The requests of a pause. -/
def pauseTrace (env : RunEnv) (site : Site) (action : Action) (policyId : String)
    (token : Uuid) : LoopTrace :=
  [ev site (.recordAction (actionEvent action env.correlation verdictRequiresApproval
      (some policyId) outcomeAwaitingApproval none)) (),
    ev site .newUuid token]

theorem pauseStep_inv {policyId : String} {turn : Turn env.plan}
    (h : Runs (pauseStep env state site action policyId) t turn) :
    ∃ token, t = pauseTrace env site action policyId token ∧
      turn = .stop (.paused (parked env state.executed token)) := by
  obtain ⟨⟨⟩, -, ⟨token, -, ⟨rfl, rfl⟩, rfl⟩, rfl⟩ := h
  exact ⟨token, rfl, rfl⟩

/-! ### A step that passed its gates -/

/-- The state after a step's execution was recorded as completed. -/
def LoopState.complete {plan : Plan} (state : LoopState plan) (action : Action)
    (evidence : Value) : LoopState plan :=
  { state with outcome := { state.outcome with
    executions := state.outcome.executions ++ [⟨action, .completed, evidence⟩] } }

/-- The state after a step's execution was recorded as failed. -/
def LoopState.fail {plan : Plan} (state : LoopState plan) (action : Action) (msg : String) :
    LoopState plan :=
  { state with outcome := { state.outcome with
      executions := state.outcome.executions ++
        [⟨action, .failed, .object [("error", .string msg)]⟩]
      status := .failed } }

/-- The requests of a failed step, up to the rollback. -/
def failTrace (env : RunEnv) (site : Site) (action : Action) (decision : PolicyDecision)
    (msg : String) : LoopTrace :=
  [ev site (.publish "action.failed" (.object [("error", .string msg)])) (),
    ev site (.publish "plan.failed" (.object [])) (),
    ev site (.recordAction (actionEvent action env.correlation verdictAllow
      (some decision.policyId) outcomeFailed none)) ()]

theorem failStep_inv {msg : String} {turn : Turn env.plan}
    (h : Runs (failStep env state site action decision msg) t turn) :
    ∃ walk outcome, UndoRun env (state.fail action msg) walk outcome ∧
      t = failTrace env site action decision msg ++ walk ∧ turn = .stop (.finished outcome) := by
  obtain ⟨t₁, failed, t₂, ⟨⟨⟩, -, ⟨⟨⟩, -, ⟨rfl, rfl⟩, rfl⟩, rfl⟩, hrecord, rfl⟩ :=
    runs_bind.mp h
  obtain ⟨⟨⟩, t₃, hrest, rfl⟩ := runs_ask_bind.mp hrecord
  obtain ⟨outcome, hwalk, rfl⟩ := runs_bind_pure.mp hrest
  exact ⟨_, outcome, rollbackExecuted_inv hwalk, by simp [failTrace], rfl⟩

/-- The evidence of a step found in its desired state. -/
def alreadyDesired : Value := .object [("already_desired", .bool true)]

/-- The ledger record of a step that succeeded. -/
def okRecord (env : RunEnv) (action : Action) (decision : PolicyDecision)
    (validation : Option Value) : ActionEventRecord :=
  actionEvent action env.correlation verdictAllow (some decision.policyId) outcomeOk validation

/-- What `executeAllowedStep` can do. -/
inductive ExecRun (env : RunEnv) (state : LoopState env.plan) (index : StepIndex env.plan)
    (action : Action) (decision : PolicyDecision) : LoopTrace → Turn env.plan → Prop
  | noOp {reads : LoopTrace} (hread : DesiredRun (.step index) action reads (.ok true)) :
      ExecRun env state index action decision
        (reads ++ [ev (.step index) (.publish "action.already.desired" alreadyDesired) (),
          ev (.step index) (.recordAction (okRecord env action decision (some alreadyDesired))) ()])
        (.next (state.complete action alreadyDesired))
  | executed {reads effect checks : LoopTrace} {evidence : Value} {validation : Option Value}
      (hread : DesiredRun (.step index) action reads (.ok false))
      (heffect : EffectRun (.step index) action effect (.ok evidence))
      (hcheck : Runs (validateStep env (.validation index) action) checks validation) :
      ExecRun env state index action decision
        (reads ++ effect ++ ev (.step index) (.publish "action.executed" evidence) () :: checks ++
          [ev (.step index) (.recordAction (okRecord env action decision validation)) ()])
        (.next { state.complete action evidence with executed := state.executed ++ [index] })
  | effectFailed {reads effect walk : LoopTrace} {msg : String} {outcome : ExecutionOutcome}
      (hread : DesiredRun (.step index) action reads (.ok false))
      (heffect : EffectRun (.step index) action effect (.error msg))
      (hwalk : UndoRun env (state.fail action msg) walk outcome) :
      ExecRun env state index action decision
        (reads ++ effect ++ failTrace env (.step index) action decision msg ++ walk)
        (.stop (.finished outcome))
  | readFailed {reads walk : LoopTrace} {msg : String} {outcome : ExecutionOutcome}
      (hread : DesiredRun (.step index) action reads (.error msg))
      (hwalk : UndoRun env (state.fail action msg) walk outcome) :
      ExecRun env state index action decision
        (reads ++ failTrace env (.step index) action decision msg ++ walk)
        (.stop (.finished outcome))

theorem executeAllowedStep_inv {turn : Turn env.plan} (hallow : decision.outcome = .allow)
    (h : Runs (executeAllowedStep env state index action decision) t turn) :
    ExecRun env state index action decision t turn := by
  obtain ⟨reads, reading, t₂, hread, hact, rfl⟩ := runs_bind.mp h
  replace hread := desiredStateHolds_inv hread
  match reading with
  | .ok true =>
      obtain ⟨⟨⟩, -, ⟨⟨⟩, -, ⟨rfl, rfl⟩, rfl⟩, rfl⟩ := hact
      exact .noOp hread
  | .ok false =>
      obtain ⟨effect, result, t₃, heffect, hend, rfl⟩ := runs_bind.mp hact
      replace heffect := executeAction_inv hallow heffect
      cases result with
      | ok evidence =>
          obtain ⟨⟨⟩, t₄, hvalidate, rfl⟩ := runs_ask_bind.mp hend
          obtain ⟨checks, validation, t₅, hcheck, ⟨⟨⟩, -, ⟨rfl, rfl⟩, rfl⟩, rfl⟩ :=
            runs_bind.mp hvalidate
          have hrun : ExecRun env state index action decision _ _ :=
            .executed hread heffect hcheck
          simpa [List.append_assoc, okRecord, LoopState.complete] using hrun
      | error msg =>
          -- the step that failed is not in `executed`, so the walk leaves it alone
          obtain ⟨walk, outcome, hwalk, rfl, rfl⟩ := failStep_inv hend
          have hrun : ExecRun env state index action decision _ _ :=
            .effectFailed hread heffect hwalk
          simpa [List.append_assoc] using hrun
  | .error msg =>
      obtain ⟨walk, outcome, hwalk, rfl, rfl⟩ := failStep_inv hact
      have hrun : ExecRun env state index action decision _ _ := .readFailed hread hwalk
      simpa [List.append_assoc] using hrun

/-! ### One turn of the loop -/

/-- The action of a step. -/
def stepAction (env : RunEnv) (index : StepIndex env.plan) : Action := (env.plan.step index).action

/-- The risk class a step is governed by. -/
def stepRisk (env : RunEnv) (index : StepIndex env.plan) : RiskClass :=
  governedRisk (stepAction env index).capability env.registry

/-- Policy answering `decision` about a step. -/
def policyEvent (env : RunEnv) (index : StepIndex env.plan) (decision : PolicyDecision) :
    LoopEvent :=
  ev (.step index) (.policyEvaluate (authorizationFor env (stepAction env index))) decision

/-- The governor answering `decision` about a step. -/
def governorEvent (env : RunEnv) (index : StepIndex env.plan) (decision : GovernanceDecision) :
    LoopEvent :=
  ev (.step index) (.governorEvaluate (adjustmentFor env index (stepAction env index))) decision

/-- The budget answering `reserved` for a step. -/
def reserveEvent (env : RunEnv) (index : StepIndex env.plan) (now : DateTime) (reserved : Bool) :
    LoopEvent :=
  ev (.step index) (.budgetReserve (stepRisk env index) env.plan.blastRadius now) reserved

/-- The requests of a reservation that succeeded; none for a grant-backed permission. -/
def reservation (env : RunEnv) (index : StepIndex env.plan) (decision : PolicyDecision)
    (now : DateTime) : LoopTrace :=
  if grantBacked env decision then [] else [reserveEvent env index now true]

/-- The requests that surrender it. -/
def surrender (env : RunEnv) (index : StepIndex env.plan) (decision : PolicyDecision)
    (now : DateTime) : LoopTrace :=
  if grantBacked env decision then []
  else [ev (.step index) (.budgetRefund (stepRisk env index) env.plan.blastRadius now) ()]

/-- The governor lets a step through: it allowed it, or does not gate its family. -/
inductive GovernorPass (env : RunEnv) (index : StepIndex env.plan) : LoopTrace → Prop
  | ungoverned (h : governed (stepAction env index).capability env.governedPrefixes = false) :
      GovernorPass env index []
  | allowed {reason : String}
      (h : governed (stepAction env index).capability env.governedPrefixes = true) :
      GovernorPass env index [governorEvent env index (.allowed reason)]

/-- What follows from policy's verdict on a step. -/
inductive PolicyRun (env : RunEnv) (state : LoopState env.plan) (index : StepIndex env.plan) :
    LoopTrace → Turn env.plan → Prop
  | denied {d : PolicyDecision} (hd : d.outcome = .deny) :
      PolicyRun env state index
        (policyEvent env index d ::
          denyTrace env (.step index) (stepAction env index) [] d.policyId)
        (.next (state.deny (stepAction env index)))
  | approvalPaused {d : PolicyDecision} {token : Uuid} (hd : d.outcome = .requireApproval)
      (hfresh : env.resumed = false) :
      PolicyRun env state index
        (policyEvent env index d ::
          pauseTrace env (.step index) (stepAction env index) d.policyId token)
        (.stop (.paused (parked env state.executed token)))
  | approvalGranted {d : PolicyDecision} {t : LoopTrace} {turn : Turn env.plan}
      (hd : d.outcome = .requireApproval) (hresumed : env.resumed = true)
      (hexec : ExecRun env state index (stepAction env index) granted t turn) :
      PolicyRun env state index (policyEvent env index d :: t) turn
  | budgetExhausted {d : PolicyDecision} {now : DateTime} {token : Uuid}
      (hd : d.outcome = .allow) (hrationed : grantBacked env d = false) :
      PolicyRun env state index
        (policyEvent env index d :: ev (.step index) .now now :: reserveEvent env index now false ::
          pauseTrace env (.step index) (stepAction env index) "budget.exhausted" token)
        (.stop (.paused (parked env state.executed token)))
  | matrixDenied {d : PolicyDecision} {now : DateTime} (hd : d.outcome = .allow)
      (hmatrix : mayExecuteWithoutApproval env.autonomy (stepRisk env index) = false) :
      PolicyRun env state index
        (policyEvent env index d :: ev (.step index) .now now ::
          (reservation env index d now ++ surrender env index d now ++
            denyTrace env (.step index) (stepAction env index) [] "autonomy.matrix"))
        (.next (state.deny (stepAction env index)))
  | escalated {d : PolicyDecision} {now : DateTime} {token : Uuid} (hd : d.outcome = .allow)
      (hmatrix : mayExecuteWithoutApproval env.autonomy (stepRisk env index) = true)
      (hescalates : escalates env index (stepAction env index) (stepRisk env index) = true) :
      PolicyRun env state index
        (policyEvent env index d :: ev (.step index) .now now ::
          (reservation env index d now ++ surrender env index d now ++
            pauseTrace env (.step index) (stepAction env index) d.policyId token))
        (.stop (.paused (parked env state.executed token)))
  | permitted {d : PolicyDecision} {now : DateTime} {t : LoopTrace} {turn : Turn env.plan}
      (hd : d.outcome = .allow)
      (hmatrix : mayExecuteWithoutApproval env.autonomy (stepRisk env index) = true)
      (hescalates : escalates env index (stepAction env index) (stepRisk env index) = false)
      (hexec : ExecRun env state index (stepAction env index) d t turn) :
      PolicyRun env state index
        (policyEvent env index d :: ev (.step index) .now now ::
          (reservation env index d now ++ t ++
            if turn.outcome?.any lastIsNoOp then surrender env index d now else []))
        turn

/-- The requests of a step that passed its gates, bracketed as gates, execution and refund. -/
theorem permitted_eq {now : DateTime} {gate exec refund : LoopTrace} :
    gate ++ policyEvent env index decision :: ev (.step index) .now now ::
        (reservation env index decision now ++ exec ++ refund) =
      (gate ++ policyEvent env index decision :: ev (.step index) .now now ::
        reservation env index decision now) ++ exec ++ refund := by
  simp [List.append_assoc]

theorem refundUnit_inv {now : DateTime} {unused : Bool} {u : Unit}
    (h : Runs (refundUnit env index (stepRisk env index) decision now unused) t u) :
    t = if unused then surrender env index decision now else [] := by
  unfold refundUnit at h
  split_ifs at h with hcond
  · obtain rfl := runs_ask.mp h
    simp_all [surrender]
  · obtain ⟨rfl, -⟩ := h
    cases unused <;> simp_all [surrender]

theorem reserveUnit_inv {now : DateTime} {reserved : Bool}
    (h : Runs (reserveUnit env index (stepRisk env index) decision now) t reserved) :
    if reserved then t = reservation env index decision now
    else grantBacked env decision = false ∧ t = [reserveEvent env index now false] := by
  unfold reserveUnit at h
  split_ifs at h with hgrant
  · obtain ⟨rfl, rfl⟩ := h
    simp [reservation, hgrant]
  · obtain rfl := runs_ask.mp h
    cases reserved <;> simp_all [reservation, reserveEvent]

theorem runAllowed_inv {turn : Turn env.plan} (hd : decision.outcome = .allow)
    (h : Runs (runAllowed env state index (stepAction env index) (stepRisk env index) decision)
      t turn) :
    PolicyRun env state index (policyEvent env index decision :: t) turn := by
  obtain ⟨now, t₁, hreserve, rfl⟩ := runs_ask_bind.mp h
  obtain ⟨t₂, reserved, t₃, hreserved, hgates, rfl⟩ := runs_bind.mp hreserve
  replace hreserved := reserveUnit_inv hreserved
  cases reserved with
  | false =>
      obtain ⟨hrationed, rfl⟩ := hreserved
      obtain ⟨token, rfl, rfl⟩ := pauseStep_inv hgates
      exact .budgetExhausted hd hrationed
  | true =>
      obtain rfl := hreserved
      simp only [Bool.not_true, Bool.false_eq_true, if_false] at hgates
      -- from here on a unit is out, and each exit but the last gives it back
      split_ifs at hgates with hmatrix hescalates
      · obtain ⟨t₄, ⟨⟩, t₅, hrefund, hdeny, rfl⟩ := runs_bind.mp hgates
        obtain rfl := refundUnit_inv hrefund
        obtain ⟨rfl, rfl⟩ := denyStep_inv hdeny
        have hrun : PolicyRun env state index (_ :: ev _ .now now :: _) _ :=
          .matrixDenied hd (by simpa using hmatrix)
        simpa [List.append_assoc] using hrun
      · obtain ⟨t₄, ⟨⟩, t₅, hrefund, hpause, rfl⟩ := runs_bind.mp hgates
        obtain rfl := refundUnit_inv hrefund
        obtain ⟨token, rfl, rfl⟩ := pauseStep_inv hpause
        have hrun : PolicyRun env state index (_ :: ev _ .now now :: _)
            (.stop (.paused (parked env state.executed token))) :=
          .escalated hd (by simpa using hmatrix) hescalates
        simpa [List.append_assoc] using hrun
      · -- the refund comes after the execution and looks at what it recorded last
        obtain ⟨t₄, turn', t₅, hexec, hend, rfl⟩ := runs_bind.mp hgates
        obtain ⟨t₆, ⟨⟩, t₇, hrefund, ⟨rfl, rfl⟩, rfl⟩ := runs_bind.mp hend
        obtain rfl := refundUnit_inv hrefund
        have hrun : PolicyRun env state index (_ :: ev _ .now now :: _) _ :=
          .permitted hd (by simpa using hmatrix) (by simpa using hescalates)
            (executeAllowedStep_inv hd hexec)
        simpa [List.append_assoc] using hrun

theorem runPolicy_inv {turn : Turn env.plan}
    (h : Runs (runPolicy env state index (stepAction env index)) t turn) :
    PolicyRun env state index t turn := by
  obtain ⟨d, t', hverdict, rfl⟩ := runs_ask_bind.mp h
  split at hverdict
  case h_1 hd =>
    obtain ⟨rfl, rfl⟩ := denyStep_inv hverdict
    exact .denied hd
  case h_2 hd =>
    split_ifs at hverdict with hresumed
    · obtain ⟨token, rfl, rfl⟩ := pauseStep_inv hverdict
      exact .approvalPaused hd (by simpa using hresumed)
    · exact .approvalGranted hd (by simpa using hresumed) (executeAllowedStep_inv rfl hverdict)
  case h_3 hd => exact runAllowed_inv hd hverdict

/-- What one turn of the loop can do. -/
inductive StepRun (env : RunEnv) (state : LoopState env.plan) (index : StepIndex env.plan) :
    LoopTrace → Turn env.plan → Prop
  | skipped (hresumed : env.resumed = true) (hmem : index ∈ state.executed) :
      StepRun env state index [] (.next state)
  | refused {why : Refusal} (hvisit : env.resumed = true → index ∉ state.executed)
      (hgoverned : governed (stepAction env index).capability env.governedPrefixes = true) :
      StepRun env state index
        (governorEvent env index (.refused why) :: denyTrace env (.step index)
          (stepAction env index) [("governance", .string why.wire)] "governor")
        (.next (state.deny (stepAction env index)))
  | passed {gate t : LoopTrace} {turn : Turn env.plan}
      (hvisit : env.resumed = true → index ∉ state.executed) (hgate : GovernorPass env index gate)
      (hpolicy : PolicyRun env state index t turn) : StepRun env state index (gate ++ t) turn

theorem runStep_inv {turn : Turn env.plan} (h : Runs (runStep env state index) t turn) :
    StepRun env state index t turn := by
  unfold runStep at h
  dsimp only at h
  split_ifs at h with hskip hgoverned
  · obtain ⟨rfl, rfl⟩ := h
    simp only [Bool.and_eq_true, List.contains_iff_mem] at hskip
    exact .skipped hskip.1 hskip.2
  · have hvisit : env.resumed = true → index ∉ state.executed := by simpa using hskip
    obtain ⟨answer, t', hanswer, rfl⟩ := runs_ask_bind.mp h
    cases answer with
    | allowed reason => exact .passed hvisit (.allowed hgoverned) (runPolicy_inv hanswer)
    | refused why =>
        obtain ⟨rfl, rfl⟩ := denyStep_inv hanswer
        exact .refused hvisit hgoverned
  · have hvisit : env.resumed = true → index ∉ state.executed := by simpa using hskip
    exact .passed hvisit (.ungoverned (Bool.eq_false_iff.mpr hgoverned)) (runPolicy_inv h)

/-! ### The loop -/

/-- The outcome of a loop that came to its last step. -/
def finalOutcome (outcome : ExecutionOutcome) : ExecutionOutcome :=
  { outcome with status := if outcome.executions.isEmpty then .denied else .completed }

/-- The loop as a chain of turns. -/
inductive LoopRun (env : RunEnv) :
    List (StepIndex env.plan) → LoopState env.plan → LoopTrace → PlanRun → Prop
  | done {state : LoopState env.plan} :
      LoopRun env [] state [] (.finished (finalOutcome state.outcome))
  | next {index : StepIndex env.plan} {rest : List (StepIndex env.plan)}
      {state state' : LoopState env.plan} {t t' : LoopTrace} {run : PlanRun}
      (hstep : StepRun env state index t (.next state')) (hrest : LoopRun env rest state' t' run) :
      LoopRun env (index :: rest) state (t ++ t') run
  | stop {index : StepIndex env.plan} {rest : List (StepIndex env.plan)}
      {state : LoopState env.plan} {t : LoopTrace} {run : PlanRun}
      (hstep : StepRun env state index t (.stop run)) : LoopRun env (index :: rest) state t run

theorem runSteps_inv {indices : List (StepIndex env.plan)} {run : PlanRun}
    (h : Runs (runSteps env indices state) t run) : LoopRun env indices state t run := by
  induction indices generalizing state t with
  | nil =>
      obtain ⟨rfl, rfl⟩ := h
      exact .done
  | cons index rest ih =>
      obtain ⟨t₁, turn, t₂, hstep, hrest, rfl⟩ := runs_bind.mp h
      cases turn with
      | next state' => exact .next (runStep_inv hstep) (ih hrest)
      | stop run' =>
          obtain ⟨rfl, rfl⟩ := hrest
          have hrun : LoopRun env (index :: rest) state _ _ := .stop (runStep_inv hstep)
          simpa using hrun

/-- The requests every run starts with. -/
def announcement (plan : Plan) (correlation : Uuid) : LoopTrace :=
  [ev .run .newUuid correlation,
    ev .run (.publish "plan.proposed" (.object [("objective", .string plan.objective),
      ("steps", .number (.posInt plan.steps.length))])) ()]

/-- A run of the whole loop: its announcement, and the turns over the plan's steps. -/
theorem runPlan_inv {inputs : LoopInputs} {plan : Plan}
    {resume : Option (List (StepIndex plan))} {run : PlanRun}
    (h : Runs (runPlan inputs plan resume) t run) :
    ∃ correlation t', LoopRun (runEnv inputs plan resume.isSome correlation)
        (List.finRange plan.steps.length) (initialState plan resume correlation) t' run ∧
      t = announcement plan correlation ++ t' := by
  obtain ⟨correlation, t₁, hpropose, rfl⟩ := runs_ask_bind.mp h
  obtain ⟨⟨⟩, t₂, hloop, rfl⟩ := runs_ask_bind.mp hpropose
  exact ⟨correlation, t₂, runSteps_inv hloop, rfl⟩

/-! ### Whose requests they are -/

/-- A request outside the gates, and made for no step but `index`. -/
def Ungated (index : Nat) (e : LoopEvent) : Prop :=
  e.op.2.isGate = false ∧ ∀ i, e.op.1 = .step i → i = index

theorem QuietAt.ungated {i : Nat} (h : QuietAt site t) (hsite : ∀ j, site = .step j → j = i) :
    ∀ e ∈ t, Ungated i e := by
  intro e he
  obtain ⟨rfl, hquiet⟩ := h e he
  exact ⟨hquiet.2, hsite⟩

theorem EffectRun.ungated {r : Except String Value} {i : Nat} (h : EffectRun site action t r)
    (hsite : ∀ j, site = .step j → j = i) : ∀ e ∈ t, Ungated i e := by
  cases h with
  | invoked _ he heffect =>
      subst he
      simpa [Ungated, isGate_of_effect heffect] using hsite
  | rejected => simp

theorem WalkRun.ungated {indices : List (StepIndex env.plan)} {status : PlanStatus} (i : Nat)
    (h : WalkRun env indices t status) : ∀ e ∈ t, Ungated i e := by
  have hrollback : ∀ index j, Site.rollback index = .step j → j = i := by simp
  induction h with
  | done => exact List.forall_mem_singleton.mpr ⟨rfl, by simp⟩
  | noRollback => exact List.forall_mem_singleton.mpr ⟨rfl, hrollback _⟩
  | undone _ heffect _ ih =>
      simp only [List.forall_mem_append, List.forall_mem_cons]
      exact ⟨heffect.ungated (hrollback _), ⟨rfl, hrollback _⟩, ⟨rfl, hrollback _⟩, ih⟩
  | @stuck index _ rollback effect msg _ heffect =>
      have hquiet : QuietAt (.rollback index)
        [ev (.rollback index) (.publish "action.rollback.failed"
            (.object [("error", .string msg)])) (),
          ev (.rollback index) (.recordAction (rollbackRecord env rollback outcomeFailed)) (),
          ev (.rollback index) (.publish "plan.needs.manual" (.object [])) ()] := by simp
      exact List.forall_mem_append.mpr ⟨heffect.ungated (hrollback _), hquiet.ungated (hrollback _)⟩

theorem UndoRun.ungated {outcome : ExecutionOutcome} (i : Nat) (h : UndoRun env state t outcome) :
    ∀ e ∈ t, Ungated i e := by
  cases h with
  | nothing => simp
  | walked _ hwalk => exact List.forall_mem_cons.mpr ⟨⟨rfl, by simp⟩, hwalk.ungated i⟩

/-- A request of the rollback is made for no step: it would be for two steps at once. -/
theorem UndoRun.site_ne {outcome : ExecutionOutcome} (h : UndoRun env state t outcome) :
    ∀ e ∈ t, ∀ i, e.op.1 ≠ .step i := by
  intro e he i hsite
  have := (h.ungated (i + 1) e he).2 i hsite
  omega

theorem quietAt_failTrace {msg : String} :
    QuietAt site (failTrace env site action decision msg) := by
  simp [failTrace]

theorem quietAt_denyTrace {payload : List (String × Value)} {policyId : String} :
    QuietAt site (denyTrace env site action payload policyId) := by
  simp [denyTrace]

theorem quietAt_pauseTrace {policyId : String} {token : Uuid} :
    QuietAt site (pauseTrace env site action policyId token) := by
  simp [pauseTrace]

/-- Executing a step asks for no permission, and makes no request for another step. -/
theorem ExecRun.ungated {turn : Turn env.plan}
    (h : ExecRun env state index action decision t turn) : ∀ e ∈ t, Ungated index e := by
  have hstep : ∀ j, Site.step index = .step j → j = index := by simp [eq_comm]
  have hvalidation : ∀ j, Site.validation index = .step j → j = index := by simp
  cases h with
  | noOp hread =>
      exact QuietAt.ungated (quietAt_append.mpr ⟨hread.quiet, by simp⟩) hstep
  | executed hread heffect hcheck =>
      simp only [List.forall_mem_append, List.forall_mem_cons]
      exact ⟨⟨⟨hread.quiet.ungated hstep, heffect.ungated hstep⟩, ⟨rfl, hstep⟩,
        (validateStep_quiet hcheck).ungated hvalidation⟩, ⟨rfl, hstep⟩, by simp⟩
  | effectFailed hread heffect hwalk =>
      simp only [List.forall_mem_append]
      exact ⟨⟨⟨hread.quiet.ungated hstep, heffect.ungated hstep⟩,
        quietAt_failTrace.ungated hstep⟩, hwalk.ungated index⟩
  | readFailed hread hwalk =>
      simp only [List.forall_mem_append]
      exact ⟨⟨hread.quiet.ungated hstep, quietAt_failTrace.ungated hstep⟩, hwalk.ungated index⟩

/-- The requests are all made for `site`. -/
def AllAt (site : Site) (t : LoopTrace) : Prop := ∀ e : LoopEvent, e ∈ t → e.op.1 = site

@[simp] theorem allAt_nil : AllAt site [] := by
  simp [AllAt]

@[simp] theorem allAt_cons {e : LoopEvent} :
    AllAt site (e :: t) ↔ e.op.1 = site ∧ AllAt site t := by
  simp [AllAt]

@[simp] theorem allAt_append {t' : LoopTrace} :
    AllAt site (t ++ t') ↔ AllAt site t ∧ AllAt site t' := by
  simp only [AllAt, List.mem_append]
  grind

theorem QuietAt.allAt (h : QuietAt site t) : AllAt site t := fun e he => (h e he).1

@[simp] theorem allAt_denyTrace {payload : List (String × Value)} {policyId : String} :
    AllAt site (denyTrace env site action payload policyId) := quietAt_denyTrace.allAt

@[simp] theorem allAt_pauseTrace {policyId : String} {token : Uuid} :
    AllAt site (pauseTrace env site action policyId token) := quietAt_pauseTrace.allAt

@[simp] theorem site_governorEvent {answer : GovernanceDecision} :
    (governorEvent env index answer).op.1 = .step index := rfl

@[simp] theorem site_policyEvent : (policyEvent env index decision).op.1 = .step index := rfl

@[simp] theorem site_reserveEvent {now : DateTime} {reserved : Bool} :
    (reserveEvent env index now reserved).op.1 = .step index := rfl

@[simp] theorem allAt_announcement {plan : Plan} {correlation : Uuid} :
    AllAt .run (announcement plan correlation) := by
  simp [announcement]

theorem GovernorPass.allAt (h : GovernorPass env index t) : AllAt (.step index) t := by
  cases h <;> simp

@[simp] theorem allAt_reservation {now : DateTime} :
    AllAt (.step index) (reservation env index decision now) := by
  unfold reservation
  split_ifs <;> simp

@[simp] theorem allAt_surrender {now : DateTime} :
    AllAt (.step index) (surrender env index decision now) := by
  unfold surrender
  split_ifs <;> simp

/-- No request is made for the gates or the effect of a step other than `index`. -/
def OnlyStep (index : Nat) (t : LoopTrace) : Prop :=
  ∀ e : LoopEvent, e ∈ t → ∀ i, e.op.1 = .step i → i = index

theorem AllAt.onlyStep {i : Nat} (h : AllAt (.step i) t) : OnlyStep i t := by
  intro e he j hj
  have hij := (h e he).symm.trans hj
  simpa [eq_comm] using hij

theorem OnlyStep.append {i : Nat} {t' : LoopTrace} (h : OnlyStep i t) (h' : OnlyStep i t') :
    OnlyStep i (t ++ t') := fun e he => (List.mem_append.mp he).elim (h e) (h' e)

theorem ExecRun.onlyStep {turn : Turn env.plan}
    (h : ExecRun env state index action decision t turn) : OnlyStep index t :=
  fun e he => (h.ungated e he).2

theorem PolicyRun.onlyStep {turn : Turn env.plan} (h : PolicyRun env state index t turn) :
    OnlyStep index t := by
  cases h with
  | denied => exact AllAt.onlyStep (by simp)
  | approvalPaused => exact AllAt.onlyStep (by simp)
  | @approvalGranted d _ _ _ _ hexec =>
      have hfront : AllAt (.step index) [policyEvent env index d] := by simp
      exact hfront.onlyStep.append hexec.onlyStep
  | budgetExhausted => exact AllAt.onlyStep (by simp)
  | matrixDenied => exact AllAt.onlyStep (by simp)
  | escalated => exact AllAt.onlyStep (by simp)
  | @permitted d now _ turn _ _ _ hexec =>
      have hfront : AllAt (.step index) (policyEvent env index d :: ev (.step index) .now now ::
        reservation env index d now) := by simp
      have htail : AllAt (.step index)
          (if turn.outcome?.any lastIsNoOp then surrender env index d now else []) := by
        split_ifs <;> simp
      simpa [List.append_assoc] using (hfront.onlyStep.append hexec.onlyStep).append htail.onlyStep

/-- One turn makes no request for another step. -/
theorem StepRun.onlyStep {turn : Turn env.plan} (h : StepRun env state index t turn) :
    OnlyStep index t := by
  cases h with
  | skipped => exact allAt_nil.onlyStep
  | refused => exact AllAt.onlyStep (by simp)
  | passed _ hgate hpolicy => exact hgate.allAt.onlyStep.append hpolicy.onlyStep

/-- The loop makes no request for a step it does not have before it. -/
theorem LoopRun.site_mem {indices : List (StepIndex env.plan)} {run : PlanRun}
    (h : LoopRun env indices state t run) :
    ∀ e ∈ t, ∀ i : StepIndex env.plan, e.op.1 = .step i → i ∈ indices := by
  induction h with
  | done => simp
  | next hstep _ ih =>
      intro e he i hi
      rcases List.mem_append.mp he with he | he
      · exact List.mem_cons.mpr (.inl (Fin.ext (hstep.onlyStep e he i hi)))
      · exact List.mem_cons_of_mem _ (ih e he i hi)
  | stop hstep =>
      intro e he i hi
      exact List.mem_cons.mpr (.inl (Fin.ext (hstep.onlyStep e he i hi)))

end Argus.Control
