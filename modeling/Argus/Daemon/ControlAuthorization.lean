import Argus.Daemon.ControlSteps

/-!
# No effect without its permission

Every effect the plan loop invokes for a step was cleared by the whole gate cascade, in
the same run and before the effect: the governor, policy asked with the descriptor's own
approval flag, the desired-state read, and then either the matrix, the escalation
decision and the budget, or the grant behind a resumed run.

* `Cleared` is the exact list of requests a step makes before its effect;
* `StepRun.guarded` is the step lemma, `LoopRun.guarded` its lift to whole runs;
* `Authorized` reads the permissions off that list.
-/

namespace Argus.Control

open Interaction Prog

variable {env : RunEnv} {state : LoopState env.plan} {index : StepIndex env.plan}
variable {action : Action} {decision : PolicyDecision} {t : LoopTrace}

/-! ### The requests of one step -/

/-- The requests made for the gates and the effect of a step. -/
def atStep (i : Nat) (t : LoopTrace) : LoopTrace := t.filter fun e => e.op.1 = .step i

@[simp] theorem atStep_append {i : Nat} {t' : LoopTrace} :
    atStep i (t ++ t') = atStep i t ++ atStep i t' := List.filter_append ..

theorem OnlyStep.atStep_eq_nil {i j : Nat} (h : OnlyStep i t) (hne : j ≠ i) :
    atStep j t = [] := by
  refine List.filter_eq_nil_iff.mpr fun e he hj => hne (h e he j ?_)
  simpa using hj

/-- A turn that goes on adds at most its own step to the executed ones. -/
theorem StepRun.executed_next {state' : LoopState env.plan}
    (h : StepRun env state index t (.next state')) :
    state'.executed = state.executed ∨ state'.executed = state.executed ++ [index] := by
  have hexec {action : Action} {d : PolicyDecision} {t : LoopTrace}
      (h : ExecRun env state index action d t (.next state')) :
      state'.executed = state.executed ∨ state'.executed = state.executed ++ [index] := by
    cases h with
    | noOp => exact .inl rfl
    | executed => exact .inr rfl
  cases h with
  | skipped => exact .inl rfl
  | refused => exact .inl rfl
  | passed _ _ hpolicy =>
      cases hpolicy with
      | denied => exact .inl rfl
      | approvalGranted _ _ h => exact hexec h
      | matrixDenied => exact .inl rfl
      | permitted _ _ _ h => exact hexec h

/-- The turn the loop took for step `j`, in a run with the requests `t`. -/
structure TurnAt (env : RunEnv) (t : LoopTrace) (run : PlanRun) (j : StepIndex env.plan)
    (before : LoopState env.plan) (requests : LoopTrace) (turn : Turn env.plan) : Prop where
  step : StepRun env before j requests turn
  same : atStep j t = atStep j requests
  /-- A turn that stops is the last one. -/
  last : ∀ run', turn = .stop run' → run' = run ∧ ∀ k : StepIndex env.plan, j < k → atStep k t = []

/-- A turn of an earlier step in front changes nothing about the turn of step `j`. -/
theorem TurnAt.cons {run : PlanRun} {i j : StepIndex env.plan} {before : LoopState env.plan}
    {requests front : LoopTrace} {turn : Turn env.plan}
    (h : TurnAt env t run j before requests turn) (hfront : OnlyStep i front) (hlt : i < j) :
    TurnAt env (front ++ t) run j before requests turn := by
  have hnil {k : StepIndex env.plan} (hk : i < k) : atStep k front = [] :=
    hfront.atStep_eq_nil (Fin.val_ne_of_ne hk.ne')
  refine ⟨h.step, by simp [hnil hlt, h.same], ?_⟩
  intro run' hstop
  obtain ⟨hrun, hlater⟩ := h.last run' hstop
  exact ⟨hrun, fun k hk => by simp [hnil (hlt.trans hk), hlater k hk]⟩

/-- The loop came to step `j`, which it had executed before exactly when the run started
from there, or the run ended at an earlier step. -/
theorem LoopRun.turnAt {indices : List (StepIndex env.plan)} {run : PlanRun}
    (h : LoopRun env indices state t run) (hsorted : indices.Pairwise (· < ·))
    {j : StepIndex env.plan} (hj : j ∈ indices) :
    (∃ before requests turn, TurnAt env t run j before requests turn ∧
      (j ∈ before.executed ↔ j ∈ state.executed)) ∨
    ∃ k ∈ indices, k < j ∧ ∃ before requests,
      TurnAt env t run k before requests (.stop run) := by
  induction h with
  | done => cases hj
  | @next index rest state state' t t' run hstep hrest ih =>
      obtain ⟨hahead, hsorted⟩ := List.pairwise_cons.mp hsorted
      rcases List.mem_cons.mp hj with rfl | hj
      · -- the step's own turn; the rest of the run has later steps before it
        have hnil : Control.atStep j t' = [] := by
          refine List.filter_eq_nil_iff.mpr fun e he hsite => lt_irrefl j (hahead j ?_)
          exact hrest.site_mem e he j (by simpa using hsite)
        exact .inl ⟨state, t, .next state', ⟨hstep, by simp [hnil], by simp⟩, .rfl⟩
      · have hlt := hahead j hj
        rcases ih hsorted hj with ⟨before, requests, turn, hturn, hexecuted⟩ |
          ⟨k, hk, hkj, before, requests, hturn⟩
        · refine .inl ⟨before, requests, turn, hturn.cons hstep.onlyStep hlt, hexecuted.trans ?_⟩
          rcases hstep.executed_next with hsame | hsame
          · rw [hsame]
          · simp [hsame, hlt.ne']
        · exact .inr ⟨k, List.mem_cons_of_mem _ hk, hkj, before, requests,
            hturn.cons hstep.onlyStep (hahead k hk)⟩
  | @stop index rest state t run hstep =>
      have hturn : TurnAt env t run index state t (.stop run) := by
        refine ⟨hstep, rfl, ?_⟩
        intro run' hstop
        obtain ⟨rfl⟩ := hstop
        exact ⟨rfl, fun k hk => hstep.onlyStep.atStep_eq_nil (Fin.val_ne_of_ne hk.ne')⟩
      rcases List.mem_cons.mp hj with rfl | hj
      · exact .inl ⟨state, t, _, hturn, .rfl⟩
      · exact .inr ⟨index, List.mem_cons_self, (List.pairwise_cons.mp hsorted).1 j hj, state, t,
          hturn⟩

/-- The requests a run makes for a step are those of one turn. -/
theorem LoopRun.atStep {indices : List (StepIndex env.plan)} {run : PlanRun}
    (h : LoopRun env indices state t run) (hsorted : indices.Pairwise (· < ·))
    (i : StepIndex env.plan) :
    Control.atStep i t = [] ∨ ∃ (state' : LoopState env.plan) (t' : LoopTrace)
      (turn : Turn env.plan), StepRun env state' i t' turn ∧
        Control.atStep i t = Control.atStep i t' := by
  by_cases hi : i ∈ indices
  case neg =>
    refine .inl (List.filter_eq_nil_iff.mpr fun e he hsite => hi ?_)
    exact h.site_mem e he i (by simpa using hsite)
  rcases h.turnAt hsorted hi with ⟨before, requests, turn, hturn, -⟩ |
    ⟨k, -, hk, before, requests, hturn⟩
  · exact .inr ⟨before, requests, turn, hturn.step, hturn.same⟩
  · exact .inl ((hturn.last _ rfl).2 i hk)

/-! ### What comes before an effect -/

/-- The requests a step makes before its effect. -/
inductive Cleared (env : RunEnv) (index : StepIndex env.plan) : LoopTrace → Prop
  | allowed {gate reads : LoopTrace} {d : PolicyDecision} {now : DateTime}
      (hgate : GovernorPass env index gate) (hd : d.outcome = .allow)
      (hmatrix : mayExecuteWithoutApproval env.autonomy (stepRisk env index) = true)
      (hescalates : escalates env index (stepAction env index) (stepRisk env index) = false)
      (hread : DesiredRun (.step index) (stepAction env index) reads (.ok false)) :
      Cleared env index (gate ++ policyEvent env index d :: ev (.step index) .now now ::
        (reservation env index d now ++ reads))
  | granted {gate reads : LoopTrace} {d : PolicyDecision}
      (hgate : GovernorPass env index gate) (hd : d.outcome = .requireApproval)
      (hresumed : env.resumed = true)
      (hread : DesiredRun (.step index) (stepAction env index) reads (.ok false)) :
      Cleared env index (gate ++ policyEvent env index d :: reads)

/-- No request of `t` is an effect. -/
def Effectless (t : LoopTrace) : Prop := ∀ e : LoopEvent, e ∈ t → e.effect? = none

@[simp] theorem effectless_nil : Effectless [] := by
  simp [Effectless]

@[simp] theorem effectless_cons {e : LoopEvent} :
    Effectless (e :: t) ↔ e.effect? = none ∧ Effectless t := by
  simp [Effectless]

@[simp] theorem effectless_append {t' : LoopTrace} :
    Effectless (t ++ t') ↔ Effectless t ∧ Effectless t' := by
  simp only [Effectless, List.mem_append]
  grind

theorem QuietAt.effectless {site : Site} (h : QuietAt site t) : Effectless t :=
  fun e he => (h e he).2.1

@[simp] theorem effectless_denyTrace {site : Site} {payload : List (String × Value)}
    {policyId : String} : Effectless (denyTrace env site action payload policyId) :=
  quietAt_denyTrace.effectless

@[simp] theorem effectless_pauseTrace {site : Site} {policyId : String} {token : Uuid} :
    Effectless (pauseTrace env site action policyId token) := quietAt_pauseTrace.effectless

theorem GovernorPass.effectless (h : GovernorPass env index t) : Effectless t := by
  cases h <;> simp [governorEvent, LoopEvent.effect?]

@[simp] theorem effect?_governorEvent {answer : GovernanceDecision} :
    (governorEvent env index answer).effect? = none := rfl

@[simp] theorem effect?_policyEvent : (policyEvent env index decision).effect? = none := rfl

@[simp] theorem effect?_reserveEvent {now : DateTime} {reserved : Bool} :
    (reserveEvent env index now reserved).effect? = none := rfl

@[simp] theorem effect?_publish {site : Site} {eventType : String} {payload : Value} {u : Unit} :
    LoopEvent.effect? (ev site (.publish eventType payload) u) = none := rfl

@[simp] theorem effect?_recordAction {site : Site} {record : ActionEventRecord} {u : Unit} :
    LoopEvent.effect? (ev site (.recordAction record) u) = none := rfl

@[simp] theorem effect?_now {site : Site} {now : DateTime} :
    LoopEvent.effect? (ev site .now now) = none := rfl

@[simp] theorem effectless_reservation {now : DateTime} :
    Effectless (reservation env index decision now) := by
  unfold reservation
  split_ifs <;> simp

@[simp] theorem effectless_surrender {now : DateTime} :
    Effectless (surrender env index decision now) := by
  unfold surrender
  split_ifs <;> simp [LoopEvent.effect?]

theorem Effectless.guarded {i : Nat} {Q : LoopTrace → Prop} (h : Effectless t) :
    Guarded (LoopEvent.IsEffectAt (.step i)) Q t := by
  refine .of_forall_not ?_
  intro e he hat
  obtain ⟨-, heffect⟩ := hat
  simp [h e he] at heffect

theorem UndoRun.guarded {outcome : ExecutionOutcome} {i : Nat} {Q : LoopTrace → Prop}
    (h : UndoRun env state t outcome) : Guarded (LoopEvent.IsEffectAt (.step i)) Q t := by
  refine .of_forall_not ?_
  intro e he hat
  obtain ⟨hsite, -⟩ := hat
  exact h.site_ne e he i hsite

theorem EffectRun.guarded {site : Site} {r : Except String Value} {P : LoopEvent → Prop}
    {Q : LoopTrace → Prop} (h : EffectRun site action t r) (hQ : Q []) : Guarded P Q t := by
  cases h with
  | invoked => exact .singleton hQ
  | rejected => exact .of_forall_not (by simp)

/-- A step's effect comes right after a desired-state check that did not find the desired
state. -/
theorem ExecRun.guarded {turn : Turn env.plan}
    (h : ExecRun env state index action decision t turn) :
    Guarded (LoopEvent.IsEffectAt (.step index))
      (fun pre => DesiredRun (.step index) action pre (.ok false)) t := by
  cases h with
  | noOp hread => exact Effectless.guarded (by simp [hread.quiet.effectless, LoopEvent.effect?])
  | executed hread heffect hcheck =>
      rw [List.append_assoc]
      refine .append (.append hread.quiet.effectless.guarded ?_) (Effectless.guarded ?_)
      · exact heffect.guarded (by simpa using hread)
      · simp [LoopEvent.effect?, (validateStep_quiet hcheck).effectless]
  | effectFailed hread heffect hwalk =>
      refine .append (.append (.append hread.quiet.effectless.guarded ?_) ?_) hwalk.guarded
      · exact heffect.guarded (by simpa using hread)
      · exact quietAt_failTrace.effectless.guarded
  | readFailed hread hwalk =>
      -- the walk has effects, but for rollback sites
      refine .append (.append hread.quiet.effectless.guarded ?_) hwalk.guarded
      exact quietAt_failTrace.effectless.guarded

/-- A turn whose branch never executes invokes no effect; one whose branch does was
cleared. -/
theorem StepRun.guarded {turn : Turn env.plan} (h : StepRun env state index t turn) :
    Guarded (LoopEvent.IsEffectAt (.step index)) (Cleared env index) t := by
  cases h with
  | skipped => exact effectless_nil.guarded
  | refused =>
      exact Effectless.guarded (by simp)
  | @passed gate _ _ _ hgate hpolicy =>
      cases hpolicy with
      | denied =>
          exact Effectless.guarded (by simp [hgate.effectless])
      | approvalPaused =>
          exact Effectless.guarded (by simp [hgate.effectless])
      | approvalGranted hd hresumed hexec =>
          -- the gates of the turn and what the execution asks first make the cleared prefix
          rw [List.append_cons]
          refine .append (Effectless.guarded (by simp [hgate.effectless])) ?_
          intro pre e post heq he
          simpa using Cleared.granted hgate hd hresumed (hexec.guarded pre e post heq he)
      | budgetExhausted =>
          exact Effectless.guarded (by simp [hgate.effectless])
      | matrixDenied =>
          exact Effectless.guarded (by simp [hgate.effectless])
      | escalated =>
          exact Effectless.guarded (by simp [hgate.effectless])
      | @permitted d now t turn hd hmatrix hescalates hexec =>
          rw [permitted_eq]
          refine .append (.append (Effectless.guarded (by simp [hgate.effectless])) ?_) ?_
          · intro pre e post heq he
            simpa using
              Cleared.allowed hgate hd hmatrix hescalates (hexec.guarded pre e post heq he)
          · split_ifs
            · exact effectless_surrender.guarded
            · exact effectless_nil.guarded

/-- Everything in a cleared prefix was asked for the step itself. -/
theorem Cleared.atStep_eq (h : Cleared env index t) : atStep index t = t := by
  suffices AllAt (.step index) t by simpa [atStep, AllAt] using this
  cases h with
  | allowed hgate _ _ _ hread => simp [hgate.allAt, hread.quiet.allAt]
  | granted hgate _ _ hread => simp [hgate.allAt, hread.quiet.allAt]

/-- In every run of the loop, the requests made for a step before its effect are exactly
the cleared ones. -/
theorem LoopRun.guarded {indices : List (StepIndex env.plan)} {run : PlanRun}
    (h : LoopRun env indices state t run) (hsorted : indices.Pairwise (· < ·))
    (i : StepIndex env.plan) :
    Guarded (LoopEvent.IsEffectAt (.step i))
      (fun pre => Cleared env i (Control.atStep i pre)) t := by
  have hkept : ∀ e : LoopEvent, e.IsEffectAt (.step i) → decide (e.op.1 = .step i) = true :=
    fun e he => by simpa using he.1
  suffices Guarded (LoopEvent.IsEffectAt (.step i)) (Cleared env i) (Control.atStep i t) from
    (guarded_filter hkept).mp this
  rcases h.atStep hsorted i with hnil | ⟨state', t', turn, hstep, heq⟩
  · rw [hnil]
    exact effectless_nil.guarded
  · rw [heq]
    refine (guarded_filter hkept).mpr ?_
    intro pre e post hpre he
    have hcleared := hstep.guarded pre e post hpre he
    show Cleared env i (Control.atStep i pre)
    rwa [hcleared.atStep_eq]

/-! ### The permissions behind an effect -/

/-- The permissions the requests `before` an effect of a step amount to. -/
structure Authorized (env : RunEnv) (index : StepIndex env.plan) (before : LoopTrace) : Prop where
  /-- The governor allowed the step, if it gates the capability's family. -/
  governor : governed (stepAction env index).capability env.governedPrefixes = true →
    ∃ reason, governorEvent env index (.allowed reason) ∈ before
  /-- The live state of the step's own target was read and is not the desired one, if there is
  one to compare with. -/
  absent : ∀ desired, desiredState (stepAction env index).capability = some desired →
    ∃ e : LoopEvent, e ∈ before ∧ e.op.1 = .step index ∧
      ReadsTarget (stepAction env index) e.op.2 ∧ e.reading? = some (.ok (!desired))
  /-- Policy was asked once. It allowed the step, which also passed the matrix, the
  escalation decision and the budget; or it asked for approval and the run is a resumed
  one. -/
  verdict : ∃ d, policyEvent env index d ∈ before ∧
    (∀ d', policyEvent env index d' ∈ before → d' = d) ∧
    ((d.outcome = .allow ∧ mayExecuteWithoutApproval env.autonomy (stepRisk env index) = true ∧
        (escalationBounded env.autonomy = true → escalationPermits env.plan env.registry index
          (stepAction env index).capability env.autonomy (stepRisk env index) = true) ∧
        (grantBacked env d = true ∨ ∃ now, reserveEvent env index now true ∈ before)) ∨
      (d.outcome = .requireApproval ∧ env.resumed = true))

theorem DesiredRun.absent {desired : Bool}
    (h : DesiredRun (.step index) action t (.ok false))
    (hdesired : desiredState action.capability = some desired) :
    ∃ e : LoopEvent, e ∈ t ∧ e.op.1 = .step index ∧ ReadsTarget action e.op.2 ∧
      e.reading? = some (.ok (!desired)) := by
  generalize hr : (Except.ok false : Except String Bool) = r at h
  cases h with
  | unchecked hnone => simp [hnone] at hdesired
  | @compared desired' reads observed hsome hread =>
      obtain rfl : desired' = desired := by simpa [hsome] using hdesired
      obtain rfl : observed = !desired' := by
        cases observed <;> cases desired' <;> simp_all
      cases hread with
      | @read e _ _ hsite hreading hreads => exact ⟨e, by simp, hsite, hreads, hreading⟩
  | unreadable => cases hr

/-- The verdict of a policy answer. -/
theorem policyEvent_inj {d d' : PolicyDecision} :
    policyEvent env index d = policyEvent env index d' ↔ d = d' := by
  simp [policyEvent]

theorem QuietAt.not_mem_policyEvent {site : Site} (h : QuietAt site t) :
    policyEvent env index decision ∉ t :=
  fun hmem => by simpa [policyEvent, Port.isGate] using (h _ hmem).2.2

/-- Policy answers once in a cleared prefix. -/
theorem Cleared.verdict (h : Cleared env index t) :
    ∃ d, policyEvent env index d ∈ t ∧ (∀ d', policyEvent env index d' ∈ t → d' = d) ∧
      ((d.outcome = .allow ∧ mayExecuteWithoutApproval env.autonomy (stepRisk env index) = true ∧
          escalates env index (stepAction env index) (stepRisk env index) = false ∧
          (grantBacked env d = true ∨ ∃ now, reserveEvent env index now true ∈ t)) ∨
        (d.outcome = .requireApproval ∧ env.resumed = true)) := by
  have hgates {gate : LoopTrace} {d : PolicyDecision} (hgate : GovernorPass env index gate) :
      policyEvent env index d ∉ gate := by
    cases hgate <;> simp [policyEvent, governorEvent]
  have hreserved {d d' : PolicyDecision} {now : DateTime} :
      policyEvent env index d ∉ reservation env index d' now := by
    unfold reservation
    split_ifs <;> simp [policyEvent, reserveEvent]
  cases h with
  | @allowed gate reads d now hgate hd hmatrix hescalates hread =>
      refine ⟨d, by simp, ?_, .inl ⟨hd, hmatrix, hescalates, ?_⟩⟩
      · -- another answer would have to be the clock reading
        intro d' hd'
        simp only [List.mem_append, List.mem_cons, hgates hgate, hreserved,
          hread.quiet.not_mem_policyEvent, false_or, or_false, policyEvent_inj] at hd'
        exact hd'.resolve_right (by simp [policyEvent])
      · cases hgrant : grantBacked env d with
        | true => exact .inl rfl
        | false => exact .inr ⟨now, by simp [reservation, hgrant]⟩
  | @granted gate reads d hgate hd hresumed hread =>
      refine ⟨d, by simp, fun d' hd' => ?_, .inr ⟨hd, hresumed⟩⟩
      simpa [hgates hgate, hread.quiet.not_mem_policyEvent, policyEvent_inj] using hd'

/-- The governor's pass and the desired-state read are part of a cleared prefix. -/
theorem Cleared.parts (h : Cleared env index t) :
    (∃ gate, (∀ e ∈ gate, e ∈ t) ∧ GovernorPass env index gate) ∧
      ∃ reads, (∀ e ∈ reads, e ∈ t) ∧
        DesiredRun (.step index) (stepAction env index) reads (.ok false) := by
  cases h with
  | allowed hgate _ _ _ hread =>
      exact ⟨⟨_, by simp +contextual, hgate⟩, _, by simp +contextual, hread⟩
  | granted hgate _ _ hread =>
      exact ⟨⟨_, by simp +contextual, hgate⟩, _, by simp +contextual, hread⟩

theorem Authorized.of_cleared (h : Cleared env index (Control.atStep index t)) :
    Authorized env index t := by
  have hmem {e : LoopEvent} (he : e ∈ Control.atStep index t) : e ∈ t := List.mem_of_mem_filter he
  obtain ⟨⟨gate, hgate, hpass⟩, reads, hreads, hrun⟩ := h.parts
  obtain ⟨d, hd, hunique, hverdict⟩ := h.verdict
  refine ⟨?_, ?_, d, hmem hd, ?_, ?_⟩
  · intro hgoverned
    cases hpass with
    | ungoverned hnot => simp [hnot] at hgoverned
    | @allowed reason _ => exact ⟨reason, hmem (hgate _ (by simp))⟩
  · intro desired hdesired
    obtain ⟨e, he, hread⟩ := hrun.absent hdesired
    exact ⟨e, hmem (hreads e he), hread⟩
  · intro d' hd'
    exact hunique d' (List.mem_filter.mpr ⟨hd', by simp [policyEvent]⟩)
  · rcases hverdict with ⟨hallow, hmatrix, hescalates, hbudget⟩ | hgrant
    · refine .inl ⟨hallow, hmatrix, ?_, ?_⟩
      · intro hbounded
        simpa [escalates, hbounded] using hescalates
      · exact hbudget.imp_right fun ⟨now, hnow⟩ => ⟨now, hmem hnow⟩
    · exact .inr hgrant

variable {inputs : LoopInputs} {plan : Plan} {resume : Option (List (StepIndex plan))}
variable {run : PlanRun}

/-- In every run, the requests made for a step before its effect are the cleared ones. The
run's environment is its inputs and the correlation id it drew first. -/
theorem runPlan_cleared (h : Runs (runPlan inputs plan resume) t run) :
    ∃ correlation, t.head? = some (ev .run .newUuid correlation) ∧ ∀ i : StepIndex plan,
      Guarded (LoopEvent.IsEffectAt (.step i)) (fun pre =>
        Cleared (runEnv inputs plan resume.isSome correlation) i (Control.atStep i pre)) t := by
  obtain ⟨correlation, t', hloop, rfl⟩ := runPlan_inv h
  refine ⟨correlation, rfl, ?_⟩
  intro i
  exact .append (Effectless.guarded (by simp [announcement, LoopEvent.effect?]))
    (hloop.guarded (List.pairwise_lt_finRange _) i)

/-- An effect for a step carries out the step's own action. -/
theorem runPlan_carriesOut (h : Runs (runPlan inputs plan resume) t run) (i : StepIndex plan)
    {e : LoopEvent} (he : e ∈ t) (heffect : e.IsEffectAt (.step i)) :
    CarriesOut (plan.step i).action e.op.2 := by
  obtain ⟨hsite, heffect⟩ := heffect
  obtain ⟨action, haction, hcarries⟩ :=
    ((runPlan_own inputs plan resume).of_runs h e he).carriesOut heffect
  rw [hsite, actionAt_step] at haction
  obtain rfl := Option.some.inj haction
  exact hcarries

/-- **Authorization soundness.** In every run of the loop, fresh or resumed and whatever
its ports answer, an effect invoked for a step carries out the step's own action and was
authorized by the requests before it. -/
theorem runPlan_effect_authorized (h : Runs (runPlan inputs plan resume) t run)
    (i : StepIndex plan) {before after : LoopTrace} {e : LoopEvent}
    (ht : t = before ++ e :: after) (heffect : e.IsEffectAt (.step i)) :
    CarriesOut (plan.step i).action e.op.2 ∧
      ∃ correlation, t.head? = some (ev .run .newUuid correlation) ∧
        Authorized (runEnv inputs plan resume.isSome correlation) i before := by
  obtain ⟨correlation, hhead, hcleared⟩ := runPlan_cleared h
  exact ⟨runPlan_carriesOut h i (by simp [ht]) heffect, correlation, hhead,
    .of_cleared (hcleared i before e after ht heffect)⟩

/-- A fresh run that executes its step along both ways the permission can differ from the
bare one: a verdict that names a grant reserves no unit, and a capability without a
desired state is not read. -/
theorem effect_without_reservation_or_read :
    (∃ t run, Runs (runPlan (.atLevel .l3Assisted) restartPlan none)
        t run ∧ (∃ e ∈ t, LoopEvent.IsEffectAt (.step 0) e) ∧ ∀ e ∈ t, LoopEvent.units e = 0) ∧
      ∃ t run, Runs (runPlan (.atLevel .l4Autonomous)
          (.ofSteps [⟨reclaimMemory "/sys/fs/cgroup/app", some (restartUnit "app")⟩]) none)
        t run ∧ (∃ e ∈ t, LoopEvent.IsEffectAt (.step 0) e) ∧
          ∀ e ∈ t, LoopEvent.reading? e = none := by
  refine ⟨⟨_, _, play_runs (FixedPorts.willing (.allow "plan.approval" "granted")).answer _ (),
    ?_, ?_⟩, ⟨_, _, play_runs (FixedPorts.willing (.allow "bootstrap" "permitted")).answer _ (),
    ?_, ?_⟩⟩
  all_goals decide +kernel

/-- A run whose step executes after a reservation. -/
theorem runPlan_effect_authorized_restart :
    ∃ (t : LoopTrace) (run : PlanRun) (before after : LoopTrace) (e : LoopEvent),
      Runs (runPlan (.atLevel .l3Assisted) restartPlan none) t run ∧
      t = before ++ e :: after ∧ e.IsEffectAt (.step 0) ∧
      CarriesOut (restartUnit "nginx") e.op.2 ∧
      ∃ correlation, t.head? = some (ev .run .newUuid correlation) ∧
        Authorized (runEnv (.atLevel .l3Assisted) restartPlan false correlation)
          ⟨0, Nat.zero_lt_one⟩ before := by
  have hrun := play_runs (FixedPorts.willing (.allow "bootstrap" "permitted")).answer
    (runPlan (.atLevel .l3Assisted) restartPlan none) ()
  have heffect : ∃ e ∈ (play (FixedPorts.willing (.allow "bootstrap" "permitted")).answer
      (runPlan (.atLevel .l3Assisted) restartPlan none) ()).1,
      LoopEvent.IsEffectAt (.step 0) e := by decide
  obtain ⟨e, hmem, heffect⟩ := heffect
  obtain ⟨before, after, ht⟩ := List.append_of_mem hmem
  exact ⟨_, _, before, after, e, hrun, ht, heffect,
    runPlan_effect_authorized hrun ⟨0, Nat.zero_lt_one⟩ ht heffect⟩

end Argus.Control
