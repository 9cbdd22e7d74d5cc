import Argus.Daemon.ControlAuthorization

/-!
# How a run ends

Two questions about the result of a run, answered by what policy answered in it.

* Can a *resumed* run pause again? Only through the escalation decision, which the
  consumed grant does not switch off (`resume_never_pauses_iff`).
* What does a final status of `denied` say about the host? The status is read off the
  executions of the call that ends the plan, so on a resumed run it says nothing about
  the steps that ran before the pause (`denied_nothing_in_place_iff`).

`StepRun.kind` sorts the turns by what they do to the result: a turn goes on with nothing
executed, pauses, or executes.
-/

namespace Argus

open Interaction Prog

/-- The step and the verdict of a policy answer. -/
def LoopEvent.verdict? : LoopEvent → Option (Nat × PolicyDecision)
  | ⟨(site, .policyEvaluate _), d⟩ =>
      match site with
      | .step i => some (i, d)
      | _ => none
  | _ => none

namespace Control

variable {env : RunEnv} {state : LoopState env.plan} {index : StepIndex env.plan}
variable {action : Action} {decision : PolicyDecision} {t : LoopTrace}

/-! ### Verdicts -/

/-- What policy answered in a run, and about which steps. -/
def verdicts (t : LoopTrace) : List (Nat × PolicyDecision) := t.filterMap LoopEvent.verdict?

@[simp] theorem verdicts_nil : verdicts [] = [] := rfl

@[simp] theorem verdicts_append {t' : LoopTrace} :
    verdicts (t ++ t') = verdicts t ++ verdicts t' := List.filterMap_append ..

@[simp] theorem verdicts_policyEvent :
    verdicts (policyEvent env index decision :: t) = (index.val, decision) :: verdicts t := rfl

theorem verdict?_eq_none {e : LoopEvent} (h : e.op.2.isGate = false) : e.verdict? = none := by
  obtain ⟨⟨site, port⟩, reply⟩ := e
  cases port <;> first | rfl | cases h

theorem QuietAt.verdicts {site : Site} (h : QuietAt site t) : Control.verdicts t = [] :=
  List.filterMap_eq_nil_iff.mpr fun e he => verdict?_eq_none (h e he).2.2

theorem ExecRun.verdicts {turn : Turn env.plan}
    (h : ExecRun env state index action decision t turn) : Control.verdicts t = [] :=
  List.filterMap_eq_nil_iff.mpr fun e he => verdict?_eq_none (h.ungated e he).1

theorem GovernorPass.verdicts (h : GovernorPass env index t) : Control.verdicts t = [] := by
  cases h <;> rfl

@[simp] theorem verdicts_denyTrace {site : Site} {payload : List (String × Value)}
    {policyId : String} : verdicts (denyTrace env site action payload policyId) = [] :=
  quietAt_denyTrace.verdicts

@[simp] theorem verdicts_pauseTrace {site : Site} {policyId : String} {token : Uuid} :
    verdicts (pauseTrace env site action policyId token) = [] := quietAt_pauseTrace.verdicts

@[simp] theorem verdicts_governorEvent {answer : GovernanceDecision} :
    verdicts (governorEvent env index answer :: t) = verdicts t := rfl

@[simp] theorem verdicts_reservation {now : DateTime} :
    Control.verdicts (reservation env index decision now) = [] := by
  unfold reservation
  split_ifs <;> rfl

@[simp] theorem verdicts_surrender {now : DateTime} :
    Control.verdicts (surrender env index decision now) = [] := by
  unfold surrender
  split_ifs <;> rfl

@[simp] theorem verdicts_now {site : Site} {now : DateTime} :
    Control.verdicts (ev site .now now :: t) = Control.verdicts t := rfl

@[simp] theorem verdicts_reserveEvent {now : DateTime} {reserved : Bool} :
    Control.verdicts (reserveEvent env index now reserved :: t) = Control.verdicts t := rfl

/-! ### Kinds of turns -/

/-- A verdict that does not end in a denial: policy did not deny, and what it allowed the
matrix permits. -/
def proceeds (autonomy : AutonomyMode) (risk : RiskClass) (decision : PolicyDecision) : Bool :=
  match decision.outcome with
  | .deny => false
  | .requireApproval => true
  | .allow => mayExecuteWithoutApproval autonomy risk

/-- Requests made for one step only, none of them an effect. -/
structure Idle (index : Nat) (t : LoopTrace) : Prop where
  site : AllAt (.step index) t
  effectless : Effectless t

/-- The kinds of turns, by what they do to the result of the run. -/
inductive TurnKind (env : RunEnv) (state : LoopState env.plan) (index : StepIndex env.plan)
    (t : LoopTrace) : Turn env.plan → Prop
  | passedOver {state' : LoopState env.plan} (hidle : Idle index t)
      (hexecutions : state'.outcome.executions = state.outcome.executions)
      (hexecuted : state'.executed = state.executed)
      (hverdicts : ∀ v ∈ verdicts t, proceeds env.autonomy (stepRisk env index) v.2 = false) :
      TurnKind env state index t (.next state')
  | paused {token : Uuid} {d : PolicyDecision} (hidle : Idle index t)
      (hverdicts : verdicts t = [(index.val, d)])
      (hescalates : env.resumed = true → d.outcome = .allow ∧
        mayExecuteWithoutApproval env.autonomy (stepRisk env index) = true ∧
        escalates env index (stepAction env index) (stepRisk env index) = true) :
      TurnKind env state index t (.stop (.paused (parked env state.executed token)))
  | executed {turn : Turn env.plan} {d d' : PolicyDecision} {front exec tail : LoopTrace}
      (hvisit : env.resumed = true → index ∉ state.executed)
      (hsplit : t = front ++ exec ++ tail) (hfront : Idle index front) (htail : Idle index tail)
      (hverdicts : verdicts t = [(index.val, d)])
      (hproceeds : proceeds env.autonomy (stepRisk env index) d = true)
      (hescalates : d.outcome = .allow →
        escalates env index (stepAction env index) (stepRisk env index) = false)
      (hexec : ExecRun env state index (stepAction env index) d' exec turn) :
      TurnKind env state index t turn

theorem StepRun.kind {turn : Turn env.plan} (h : StepRun env state index t turn) :
    TurnKind env state index t turn := by
  cases h with
  | skipped => exact .passedOver ⟨allAt_nil, effectless_nil⟩ rfl rfl (by simp)
  | refused => exact .passedOver ⟨by simp, by simp⟩ rfl rfl (by simp)
  | @passed gate _ _ hvisit hgate hpolicy =>
      have hgateVerdicts := hgate.verdicts
      have hsite := hgate.allAt
      have heffectless := hgate.effectless
      cases hpolicy with
      | denied hd =>
          exact .passedOver ⟨by simp [hsite], by simp [heffectless]⟩ rfl rfl
            (by simp [hgateVerdicts, proceeds, hd])
      | @approvalPaused d _ _ hfresh =>
          exact .paused (d := d) ⟨by simp [hsite], by simp [heffectless]⟩
            (by simp [hgateVerdicts]) (by simp [hfresh])
      | @approvalGranted d exec _ hd _ hexec =>
          have hsplit : gate ++ policyEvent env index d :: exec =
              gate ++ [policyEvent env index d] ++ exec ++ [] := by simp
          refine .executed (d := d) hvisit hsplit ?_ ⟨by simp, by simp⟩ ?_ ?_ ?_ hexec
          · exact ⟨by simp [hsite], by simp [heffectless]⟩
          · simp [hgateVerdicts, hexec.verdicts]
          · simp [proceeds, hd]
          · simp [hd]
      | @budgetExhausted d _ _ _ hrationed =>
          -- a resumed run is grant-backed, so its budget is never asked
          refine .paused (d := d) ⟨by simp [hsite], by simp [heffectless]⟩
            (by simp [hgateVerdicts]) fun hresumed => ?_
          simp [grantBacked, hresumed] at hrationed
      | matrixDenied hd hmatrix =>
          exact .passedOver ⟨by simp [hsite], by simp [heffectless]⟩ rfl rfl
            (by simp [hgateVerdicts, proceeds, hd, hmatrix])
      | @escalated d _ _ hd hmatrix hescalates =>
          exact .paused (d := d) ⟨by simp [hsite], by simp [heffectless]⟩
            (by simp [hgateVerdicts]) fun _ => ⟨hd, hmatrix, hescalates⟩
      | @permitted d now exec turn hd hmatrix hescalates hexec =>
          refine .executed (d := d) hvisit permitted_eq ?_ ?_ ?_ ?_ (fun _ => hescalates) hexec
          · exact ⟨by simp [hsite], by simp [heffectless]⟩
          · split_ifs <;> exact ⟨by simp, by simp⟩
          · split_ifs <;> simp [hgateVerdicts, hexec.verdicts]
          · simp [proceeds, hd, hmatrix]

/-! ### A resumed run that pauses again -/

/-- A step that an `Allow` verdict pauses even on a resumed run: the matrix permits it and
the escalation decision takes it to a human. -/
def pausesAgain (plan : Plan) (registry : CapabilityRegistry) (autonomy : AutonomyMode)
    (index : StepIndex plan) : Bool :=
  let capability := (plan.step index).action.capability
  let risk := governedRisk capability registry
  mayExecuteWithoutApproval autonomy risk && (escalationBounded autonomy &&
    !escalationPermits plan registry index capability autonomy risk)

theorem pausesAgain_iff : pausesAgain env.plan env.registry env.autonomy index = true ↔
    mayExecuteWithoutApproval env.autonomy (stepRisk env index) = true ∧
      escalates env index (stepAction env index) (stepRisk env index) = true :=
  Bool.and_eq_true_iff

theorem ExecRun.not_paused {turn : Turn env.plan}
    (h : ExecRun env state index action decision t turn) (pending : PendingPlan) :
    turn ≠ .stop (.paused pending) := by
  cases h <;> simp

/-- The step lemma: a turn of a resumed run pauses exactly when policy allowed a step that
pauses again. -/
theorem StepRun.paused_iff {turn : Turn env.plan} (hresumed : env.resumed = true)
    (h : StepRun env state index t turn) :
    (∃ pending, turn = .stop (.paused pending)) ↔
      ∃ d, (index.val, d) ∈ verdicts t ∧ d.outcome = .allow ∧
        pausesAgain env.plan env.registry env.autonomy index = true := by
  cases h.kind with
  | passedOver _ _ _ hverdicts =>
      -- an allowed step that is passed over was denied by the matrix
      refine iff_of_false (by simp) ?_
      intro hagain
      obtain ⟨d, hd, hallow, hpauses⟩ := hagain
      have hmatrix := (pausesAgain_iff.mp hpauses).1
      simpa [proceeds, hallow, hmatrix] using hverdicts _ hd
  | @paused _ d _ hverdicts hescalates =>
      obtain ⟨hallow, hmatrix, hescalates⟩ := hescalates hresumed
      exact iff_of_true ⟨_, rfl⟩ ⟨d, by simp [hverdicts], hallow,
        pausesAgain_iff.mpr ⟨hmatrix, hescalates⟩⟩
  | @executed _ d _ _ _ _ _ _ _ _ hverdicts _ hescalates hexec =>
      refine iff_of_false (fun ⟨pending, hpaused⟩ => hexec.not_paused pending hpaused) ?_
      intro hagain
      obtain ⟨d', hd', hallow, hpauses⟩ := hagain
      obtain rfl : d' = d := by simpa [hverdicts] using hd'
      simpa [hescalates hallow] using (pausesAgain_iff.mp hpauses).2

/-- A verdict in the requests of a turn is about its step. -/
theorem StepRun.verdict_index {turn : Turn env.plan} (h : StepRun env state index t turn)
    {v : Nat × PolicyDecision} (hv : v ∈ verdicts t) : v.1 = index := by
  obtain ⟨e, he, hverdict⟩ := List.mem_filterMap.mp hv
  obtain ⟨⟨site, port⟩, reply⟩ := e
  cases port <;> try cases hverdict
  cases site <;> cases hverdict
  exact h.onlyStep _ he _ rfl

theorem LoopRun.finished_iff {indices : List (StepIndex env.plan)} {run : PlanRun}
    (hresumed : env.resumed = true) (h : LoopRun env indices state t run) :
    (∃ outcome, run = .finished outcome) ↔ ∀ (i : StepIndex env.plan) (d : PolicyDecision),
      (i.val, d) ∈ verdicts t → d.outcome = .allow →
        pausesAgain env.plan env.registry env.autonomy i = false := by
  induction h with
  | done => exact iff_of_true ⟨_, rfl⟩ (by simp)
  | @next index _ _ _ t t' _ hstep hrest ih =>
      rw [ih]
      -- the turn went on, so none of its own verdicts pauses again
      have hturn := (hstep.paused_iff hresumed).not.mp (by simp)
      constructor
      · intro hsilent i d hd hallow
        rcases List.mem_append.mp (verdicts_append ▸ hd) with hd | hd
        · obtain rfl : i = index := Fin.ext (hstep.verdict_index hd)
          exact Bool.eq_false_iff.mpr fun hpauses => hturn ⟨d, hd, hallow, hpauses⟩
        · exact hsilent i d hd hallow
      · intro hsilent i d hd
        exact hsilent i d (by simp [hd])
  | @stop index _ _ t run hstep =>
      cases run with
      | finished outcome =>
          have hturn := (hstep.paused_iff hresumed).not.mp (by simp)
          refine iff_of_true ⟨_, rfl⟩ ?_
          intro i d hd hallow
          obtain rfl : i = index := Fin.ext (hstep.verdict_index hd)
          exact Bool.eq_false_iff.mpr fun hpauses => hturn ⟨d, hd, hallow, hpauses⟩
      | paused pending =>
          obtain ⟨d, hd, hallow, hpauses⟩ := (hstep.paused_iff hresumed).mp ⟨_, rfl⟩
          refine iff_of_false (by simp) ?_
          intro hsilent
          simp [hsilent index d hd hallow] at hpauses

/-- Policy allowed no step that pauses a resumed run again. -/
def EscalationSilent (inputs : LoopInputs) (plan : Plan) (t : LoopTrace) : Prop :=
  ∀ (i : StepIndex plan) (d : PolicyDecision), (i.val, d) ∈ verdicts t → d.outcome = .allow →
    pausesAgain plan inputs.registry inputs.autonomy i = false

theorem resumed_finished_iff {inputs : LoopInputs} {plan : Plan}
    {executed : List (StepIndex plan)} {run : PlanRun}
    (h : Runs (runPlan inputs plan (some executed)) t run) :
    (∃ outcome, run = .finished outcome) ↔ EscalationSilent inputs plan t := by
  obtain ⟨correlation, t', hloop, rfl⟩ := runPlan_inv h
  exact hloop.finished_iff rfl

/-- **A resumed run and the escalation gate.** A resumed run finishes, and the resume does
not reach its `unreachable!` arm, exactly when policy allowed no step that the matrix
permits and the escalation decision takes to a human. -/
theorem resume_never_pauses_iff (inputs : LoopInputs) :
    (∀ (plan : Plan) (executed : List (StepIndex plan)) (t : LoopTrace) (run : PlanRun),
      Runs (runPlan inputs plan (some executed)) t run →
        ((∃ outcome, run = .finished outcome) ↔ EscalationSilent inputs plan t)) ∧
    ∀ (pending : PendingPlan) (approvals approvals' : ApprovalStore) (t : LoopTrace)
      (outcome : ResumeOutcome),
      Runs (resumeAndRunWithPorts inputs pending approvals) t (outcome, approvals') →
        (outcome ≠ .panicked ↔ EscalationSilent inputs pending.plan t) := by
  refine ⟨fun plan executed t run h => resumed_finished_iff h, ?_⟩
  intro pending approvals approvals' t outcome h
  obtain ⟨now, t₁, hconsume, rfl⟩ := runs_ask_bind.mp h
  split at hconsume
  case h_1 =>
    -- refused before the plan is entered: policy is not asked at all
    obtain ⟨rfl, heq⟩ := hconsume
    obtain ⟨rfl, -⟩ := Prod.mk.inj heq
    exact iff_of_true (by simp) (by simp [EscalationSilent])
  case h_2 =>
    obtain ⟨t₂, run, t₃, hrun, hend, rfl⟩ := runs_bind.mp hconsume
    have hiff := resumed_finished_iff hrun
    cases run with
    | finished report =>
        obtain ⟨rfl, heq⟩ := hend
        obtain ⟨rfl, -⟩ := Prod.mk.inj heq
        have hsilent := hiff.mp ⟨_, rfl⟩
        exact iff_of_true (by simp) (by simpa [EscalationSilent] using hsilent)
    | paused pending' =>
        obtain ⟨rfl, heq⟩ := hend
        obtain ⟨rfl, -⟩ := Prod.mk.inj heq
        have hloud := hiff.not.mp (by simp)
        exact iff_of_false (by simp) (by simpa [EscalationSilent] using hloud)

/-- The restart of `restartPlan` as a fresh run at L4 parks it: policy allows the step and
the escalation decision, finding no rollback, asks for a human. -/
def parkedRestart : PendingPlan :=
  parked (runEnv (.atLevel .l4Autonomous) restartPlan false 0) [] 0

/-- The operator's grant for it. -/
def restartGrant : ApprovalStore :=
  ApprovalStore.empty.grantForAWhile 0 parkedRestart.contextHash "operator" ⟨0⟩ (minutes 15)

/-- The operator grants that plan, and the resume at the same level panics. -/
theorem escalated_resume_panics :
    (∃ t, Runs (runPlan (.atLevel .l4Autonomous) restartPlan none) t (.paused parkedRestart)) ∧
      ∃ t approvals, Runs (resumeAndRunWithPorts (.atLevel .l4Autonomous) parkedRestart
        restartGrant) t (.panicked, approvals) := by
  have hfirst := play_runs (FixedPorts.willing (.allow "bootstrap" "permitted")).answer
    (runPlan (.atLevel .l4Autonomous) restartPlan none) ()
  have hresume := play_runs (FixedPorts.willing (.allow "bootstrap" "permitted")).answer
    (resumeAndRunWithPorts (.atLevel .l4Autonomous) parkedRestart restartGrant) ()
  have hpanic : (play (FixedPorts.willing (.allow "bootstrap" "permitted")).answer
      (resumeAndRunWithPorts (.atLevel .l4Autonomous) parkedRestart restartGrant) ()).2.1.1 =
        .panicked := by decide +kernel
  rw [show (play _ _ ()).2.1 = (ResumeOutcome.panicked, _) from Prod.ext hpanic rfl] at hresume
  exact ⟨⟨_, hfirst⟩, _, _, hresume⟩

/-- At L3 the same grant lets the plan finish. -/
theorem resume_never_pauses_iff_assisted :
    ∃ (t t' : LoopTrace) (run : PlanRun) (outcome : ResumeOutcome),
      ((∃ report, run = .finished report) ↔
        EscalationSilent (.atLevel .l3Assisted) restartPlan t) ∧
      (outcome ≠ .panicked ↔ EscalationSilent (.atLevel .l3Assisted) parkedRestart.plan t') := by
  have hrun := play_runs (FixedPorts.willing (.allow "bootstrap" "permitted")).answer
    (runPlan (.atLevel .l3Assisted) restartPlan (some [])) ()
  have hresume := play_runs (FixedPorts.willing (.allow "bootstrap" "permitted")).answer
    (resumeAndRunWithPorts (.atLevel .l3Assisted) parkedRestart restartGrant) ()
  exact ⟨_, _, _, _, (resume_never_pauses_iff _).1 _ _ _ _ hrun,
    (resume_never_pauses_iff _).2 _ _ _ _ _ hresume⟩

/-! ### The meaning of `denied` -/

/-- The ledger holds a successful rollback of the step. -/
def RolledBack (t : LoopTrace) (i : Nat) : Prop :=
  ∃ record, ev (.rollback i) (.recordAction record) () ∈ t ∧ record.outcome = outcomeRolledBack

/-- The step ran, before the pause or in this run, and was not rolled back. -/
def InPlace {plan : Plan} (before : List (StepIndex plan)) (t : LoopTrace)
    (i : StepIndex plan) : Prop :=
  (i ∈ before ∨ ∃ e : LoopEvent, e ∈ t ∧ e.IsEffectAt (.step i)) ∧ ¬ RolledBack t i

theorem WalkRun.status_ne_denied {indices : List (StepIndex env.plan)} {status : PlanStatus}
    (h : WalkRun env indices t status) : status ≠ .denied := by
  induction h with
  | undone _ _ _ ih => exact ih
  | _ => simp

/-- A step that was executed and goes on has left an execution. -/
theorem ExecRun.executions_ne_nil {state' : LoopState env.plan}
    (h : ExecRun env state index action decision t (.next state')) :
    state'.outcome.executions ≠ [] := by
  cases h <;> simp [LoopState.complete]

/-- A step that was executed and ends the run has failed. -/
theorem ExecRun.status_ne_denied {outcome : ExecutionOutcome}
    (h : ExecRun env state index action decision t (.stop (.finished outcome))) :
    outcome.status ≠ .denied := by
  have hundo {msg : String} {walk : LoopTrace}
      (hwalk : UndoRun env (state.fail action msg) walk outcome) : outcome.status ≠ .denied := by
    cases hwalk with
    | nothing => simp [LoopState.fail]
    | walked _ hwalk => exact hwalk.status_ne_denied
  cases h with
  | effectFailed _ _ hwalk => exact hundo hwalk
  | readFailed _ hwalk => exact hundo hwalk

/-- The verdict policy gave a step lets it proceed. -/
def Proceeds (inputs : LoopInputs) (plan : Plan) (t : LoopTrace) : Prop :=
  ∃ (i : StepIndex plan) (d : PolicyDecision), (i.val, d) ∈ verdicts t ∧
    proceeds inputs.autonomy (governedRisk (plan.step i).action.capability inputs.registry) d = true

/-- A run ends `denied` only with no step executed in it: no effect, no rollback, and no
verdict that proceeds. -/
theorem LoopRun.denied_inv {indices : List (StepIndex env.plan)} {outcome : ExecutionOutcome}
    (h : LoopRun env indices state t (.finished outcome)) (hdenied : outcome.status = .denied) :
    state.outcome.executions = [] ∧ Effectless t ∧ (∀ e ∈ t, ∃ i, e.op.1 = .step i) ∧
      ∀ (i : StepIndex env.plan) (d : PolicyDecision), (i.val, d) ∈ verdicts t →
        proceeds env.autonomy (stepRisk env i) d = false := by
  generalize hrun : PlanRun.finished outcome = run at h
  induction h with
  | @done state =>
      obtain rfl := PlanRun.finished.inj hrun
      have hempty : state.outcome.executions = [] := by
        by_contra hne
        simp [finalOutcome, hne] at hdenied
      exact ⟨hempty, by simp, by simp, by simp⟩
  | @next index _ state state' t t' _ hstep _ ih =>
      obtain ⟨hempty, heffectless, hsites, hverdicts⟩ := ih hrun
      cases hstep.kind with
      | passedOver hidle hexecutions _ hstepVerdicts =>
          refine ⟨hexecutions ▸ hempty, by simp [hidle.effectless, heffectless], ?_, ?_⟩
          · intro e he
            rcases List.mem_append.mp he with he | he
            · exact ⟨index, hidle.site e he⟩
            · exact hsites e he
          · intro i d hd
            rcases List.mem_append.mp (verdicts_append ▸ hd) with hd | hd
            · obtain rfl : i = index := Fin.ext (hstep.verdict_index hd)
              exact hstepVerdicts _ hd
            · exact hverdicts i d hd
      | executed _ _ _ _ _ _ _ hexec => exact absurd hempty hexec.executions_ne_nil
  | stop hstep =>
      subst hrun
      cases hstep.kind with
      | executed _ _ _ _ _ _ _ hexec => exact absurd hdenied hexec.status_ne_denied

/-- A resumed run in which no verdict proceeds ends `denied`. -/
theorem LoopRun.denied_of_verdicts {indices : List (StepIndex env.plan)} {run : PlanRun}
    (h : LoopRun env indices state t run) (hresumed : env.resumed = true)
    (hempty : state.outcome.executions = [])
    (hverdicts : ∀ (i : StepIndex env.plan) (d : PolicyDecision), (i.val, d) ∈ verdicts t →
      proceeds env.autonomy (stepRisk env i) d = false) :
    ∃ outcome, run = .finished outcome ∧ outcome.status = .denied := by
  induction h with
  | done => exact ⟨_, rfl, by simp [finalOutcome, hempty]⟩
  | @next index _ _ state' t t' _ hstep _ ih =>
      refine ih ?_ fun i d hd => hverdicts i d (by simp [hd])
      cases hstep.kind with
      | passedOver _ hexecutions => exact hexecutions.trans hempty
      | @executed _ d _ _ _ _ _ _ _ _ hstepVerdicts hproceeds =>
          have hnot := hverdicts index d (by simp [hstepVerdicts])
          simp [hnot] at hproceeds
  | @stop index _ _ t run hstep =>
      cases hstep.kind with
      | @paused _ d _ hstepVerdicts hescalates =>
          obtain ⟨hallow, hmatrix, -⟩ := hescalates hresumed
          have hnot := hverdicts index d (by simp [hstepVerdicts])
          simp [proceeds, hallow, hmatrix] at hnot
      | @executed _ d _ _ _ _ _ _ _ _ hstepVerdicts hproceeds =>
          have hnot := hverdicts index d (by simp [hstepVerdicts])
          simp [hnot] at hproceeds

/-- **What `denied` says.** A final status of `denied` means that no effect of the plan is
in place exactly when no step had run before the pause, or some verdict of this run let a
step proceed (and the status is then another one). -/
theorem denied_nothing_in_place_iff {inputs : LoopInputs} {plan : Plan}
    {resume : Option (List (StepIndex plan))} {run : PlanRun}
    (h : Runs (runPlan inputs plan resume) t run) :
    (∀ outcome, run = .finished outcome → outcome.status = .denied →
        ∀ i, ¬ InPlace (resume.getD []) t i) ↔
      resume.getD [] = [] ∨ Proceeds inputs plan t := by
  obtain ⟨correlation, t', hloop, rfl⟩ := runPlan_inv h
  have hannounce : verdicts (announcement plan correlation ++ t') = verdicts t' := rfl
  constructor
  · -- no verdict proceeds: the run ends `denied` and rolls nothing back, so what ran
    -- before the pause is still there
    intro hclean
    by_contra hcon
    obtain ⟨hbefore, hsilent⟩ := not_or.mp hcon
    obtain ⟨i, hi⟩ := List.exists_mem_of_ne_nil _ hbefore
    have hresumed : resume.isSome = true := by
      cases resume with
      | none => simp at hbefore
      | some executed => rfl
    obtain ⟨outcome, rfl, hdenied⟩ := hloop.denied_of_verdicts hresumed rfl
      fun i d hd => Bool.eq_false_iff.mpr fun hproceeds => hsilent ⟨i, d, hannounce ▸ hd, hproceeds⟩
    obtain ⟨-, -, hsites, -⟩ := hloop.denied_inv hdenied
    refine hclean outcome rfl hdenied i ⟨.inl hi, ?_⟩
    intro hundone
    obtain ⟨record, hrecord, -⟩ := hundone
    rcases List.mem_append.mp hrecord with hrecord | hrecord
    · simp [announcement] at hrecord
    · obtain ⟨j, hj⟩ := hsites _ hrecord
      simp at hj
  · intro hcond outcome hrun hdenied i hplace
    subst hrun
    obtain ⟨hran, -⟩ := hplace
    obtain ⟨-, heffectless, -, hverdicts⟩ := hloop.denied_inv hdenied
    rcases hcond with hbefore | ⟨j, d, hd, hproceeds⟩
    · rcases hran with hi | ⟨e, he, hsite, heffect⟩
      · simp [hbefore] at hi
      · rcases List.mem_append.mp he with he | he
        · simp only [announcement, List.mem_cons, List.not_mem_nil, or_false] at he
          rcases he with rfl | rfl <;> simp at hsite
        · simp [heffectless e he] at heffect
    · have hnot := hverdicts j d (hannounce ▸ hd)
      exact absurd hproceeds (Bool.eq_false_iff.mp hnot)

/-- Two restarts. -/
def restartPair : Plan := .ofSteps [⟨restartUnit "nginx", none⟩, ⟨restartUnit "redis", none⟩]

/-- `restartPair` parked at its second step, the first one executed. -/
def parkedPair : PendingPlan :=
  parked (runEnv (.atLevel .l3Assisted) restartPair false 0) [⟨0, Nat.zero_lt_two⟩] 0

/-- Ports whose policy allows the first step and gives `second` for the second. -/
def secondVerdict (second : PolicyDecision) : FixedPorts :=
  { FixedPorts.willing (.allow "bootstrap" "permitted") with
    policy := fun site => if site = .step 1 then second else .allow "bootstrap" "permitted" }

/-- The first step restarts its unit and the second pauses for approval; by the resume
policy denies the second. The plan ends `denied` with its first effect in place. -/
theorem denied_with_effect_in_place :
    (∃ t, Runs (runPlan (.atLevel .l3Assisted) restartPair none) t (.paused parkedPair)) ∧
      ∃ t outcome, Runs (runPlan (.atLevel .l3Assisted) parkedPair.plan (some parkedPair.executed))
          t (.finished outcome) ∧ outcome.status = .denied ∧
        InPlace parkedPair.executed t ⟨0, Nat.zero_lt_two⟩ := by
  have hfirst := play_runs
    (secondVerdict (.requireApproval "bootstrap" "needs approval")).answer
    (runPlan (.atLevel .l3Assisted) restartPair none) ()
  have hresume := play_runs (secondVerdict (.deny "operator" "denied")).answer
    (runPlan (.atLevel .l3Assisted) parkedPair.plan (some parkedPair.executed)) ()
  have hquiet : ∀ e ∈ (play (secondVerdict (.deny "operator" "denied")).answer
      (runPlan (.atLevel .l3Assisted) parkedPair.plan (some parkedPair.executed)) ()).1,
      e.op.1 ≠ .rollback 0 := by decide
  refine ⟨⟨_, hfirst⟩, _, _, hresume, rfl, .inl (List.mem_singleton.mpr rfl), ?_⟩
  intro hundone
  obtain ⟨record, hrecord, -⟩ := hundone
  exact hquiet _ hrecord rfl

/-- A fresh run has nothing in place behind a `denied`. -/
theorem denied_nothing_in_place_iff_fresh :
    ∃ t run, Runs (runPlan (.atLevel .l3Assisted) restartPlan none) t run ∧
      ((∀ outcome, run = .finished outcome → outcome.status = .denied →
          ∀ i : StepIndex restartPlan, ¬ InPlace [] t i) ↔
        ([] : List (StepIndex restartPlan)) = [] ∨
          Proceeds (.atLevel .l3Assisted) restartPlan t) := by
  have hrun := play_runs (FixedPorts.willing (.deny "bootstrap" "denied")).answer
    (runPlan (.atLevel .l3Assisted) restartPlan none) ()
  exact ⟨_, _, hrun, denied_nothing_in_place_iff hrun⟩

end Control
end Argus
