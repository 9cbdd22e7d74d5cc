import Argus.Daemon.ControlTargets
import Argus.Daemon.Remediation
import Argus.Daemon.ValidatedEvidence
import Argus.Executor.Privileged

/-!
# Guardrails on the plan loop

The cloud path reaches the service controller through the guardrails of its executor
(`cloudExecutor_guarded`). The plan loop has a controller of its own, and hands it the unit
an action names as it is, for a step and for a rollback alike. So a run stays within the
guardrails as far as its plan does: `service_effects_guarded_iff` says of which steps and
which rollbacks that must hold.
-/

namespace Argus

open Interaction Prog

namespace Control

/-- Every unit the run took to the service controller passes the guardrails. -/
def ServiceGuarded (t : LoopTrace) : Prop :=
  ∀ e : LoopEvent, e ∈ t → ∀ unit, e.op.2.serviceUnit? = some unit → PassesGuardrails unit

/-! ### The effects of the steps -/

section Steps

variable {env : RunEnv} {state : LoopState env.plan} {index : StepIndex env.plan}
variable {action : Action} {decision : PolicyDecision} {t t' : LoopTrace} {unit : String}
variable {desired : Bool} {i : Nat}

theorem NamesUnit.invokes (h : NamesUnit action unit) : invokes action = true := by
  simp [Control.invokes, h.1, h.2]

theorem NamesUnit.observes (h : NamesUnit action unit) : observes action = true := by
  simp [Control.observes, targetKey, h.1, h.2]

/-- The desired-state check of a service action lets the effect run exactly when it read the
other state. -/
theorem DesiredRun.readings_iff {r : Except String Bool} (h : DesiredRun (.step index) action t r)
    (hnames : NamesUnit action unit) (hdesired : desiredState action.capability = some desired) :
    readings index t = [.ok !desired] ↔ r = .ok false := by
  cases h with
  | unchecked hnone => exact absurd (hnone.symm.trans hdesired) (by simp)
  | @compared desired' reads observed hsome hread =>
      obtain rfl : desired' = desired := Option.some.inj (hsome.symm.trans hdesired)
      rw [hread.readings, if_pos hnames.observes]
      cases observed <;> cases desired' <;> simp
  | unreadable _ hread =>
      rw [hread.readings, if_pos hnames.observes]
      simp

theorem ExecRun.effects_iff {turn : Turn env.plan}
    (h : ExecRun env state index action decision t turn) (hnames : NamesUnit action unit)
    (hdesired : desiredState action.capability = some desired) :
    effects index t ≠ [] ↔ readings index t = [.ok !desired] := by
  cases h with
  | noOp hread =>
      have hreadings := hread.readings_iff hnames hdesired
      simp only [Except.ok.injEq, Bool.true_eq_false, iff_false] at hreadings
      simp [hread.quiet.effectless.effects, hreadings]
  | executed hread heffect hcheck =>
      have hchecks := validateStep_quiet hcheck
      simp [heffect.effects, hnames.invokes, hread.quiet.effectless.effects,
        hchecks.effectless.effects, heffect.readings, hchecks.allAt.readings_eq_nil,
        (hread.readings_iff hnames hdesired).mpr rfl]
  | effectFailed hread heffect hwalk =>
      simp [heffect.effects, hnames.invokes, hread.quiet.effectless.effects, heffect.readings,
        hwalk.readings, (hread.readings_iff hnames hdesired).mpr rfl]
  | readFailed hread hwalk =>
      have hreadings := hread.readings_iff hnames hdesired
      simp only [reduceCtorEq, iff_false] at hreadings
      simp [hread.quiet.effectless.effects, hwalk.effects, hwalk.readings, hreadings]

/-- A unit of the budget was reserved for the step. -/
def Reserved (i : Nat) (t : LoopTrace) : Prop :=
  ∃ risk scope now, ev (.step i) (.budgetReserve risk scope now) true ∈ t

/-- The gates let the step through to its execution: policy's verdict is an approval that this
resumed run has, or an allowance that the matrix and the escalation decision bear and that
is granted or paid for. -/
def Admitted (plan : Plan) (registry : CapabilityRegistry) (autonomy : AutonomyMode)
    (resumed : Bool) (t : LoopTrace) (i : StepIndex plan) : Prop :=
  ∃ d, (i.val, d) ∈ verdicts t ∧
    (d.outcome = .requireApproval ∧ resumed = true ∨
      d.outcome = .allow ∧
        mayExecuteWithoutApproval autonomy
          (governedRisk (plan.step i).action.capability registry) = true ∧
        pausesAgain plan registry autonomy i = false ∧
        ((resumed || d.policyId == "plan.approval") = true ∨ Reserved i t))

theorem admitted_iff {d : PolicyDecision} (h : verdicts t = [(index.val, d)]) :
    Admitted env.plan env.registry env.autonomy env.resumed t index ↔
      d.outcome = .requireApproval ∧ env.resumed = true ∨
        d.outcome = .allow ∧ mayExecuteWithoutApproval env.autonomy (stepRisk env index) = true ∧
          escalates env index (stepAction env index) (stepRisk env index) = false ∧
          (grantBacked env d = true ∨ Reserved index t) := by
  have hescalates : mayExecuteWithoutApproval env.autonomy (stepRisk env index) = true →
      (pausesAgain env.plan env.registry env.autonomy index = false ↔
        escalates env index (stepAction env index) (stepRisk env index) = false) := by
    intro hmatrix
    simp only [Bool.eq_false_iff, ne_eq, pausesAgain_iff, hmatrix, true_and]
  simp only [Admitted, h, List.mem_singleton, Prod.mk.injEq, true_and, exists_eq_left]
  refine or_congr_right (and_congr_right fun _ => and_congr_right fun hmatrix => ?_)
  exact and_congr_left' (hescalates hmatrix)

theorem not_admitted_of_verdicts_nil (h : verdicts t = []) :
    ¬ Admitted env.plan env.registry env.autonomy env.resumed t index := by
  intro hadmitted
  obtain ⟨d, hd, -⟩ := hadmitted
  simp [h] at hd

theorem not_reserved_of_unpriced (h : Unpriced t) : ¬ Reserved i t := by
  intro hreserved
  obtain ⟨risk, scope, now, hmem⟩ := hreserved
  exact absurd (h _ hmem) (by simp [LoopEvent.units])

theorem gates_pauseTrace {policyId : String} {token : Uuid} :
    Gates index (pauseTrace env (.step index) action policyId token) :=
  ⟨⟨by simp, by simp⟩, by simp [pauseTrace, LoopEvent.reading?]⟩

/-- Gates after policy's verdict are gates of the turn. -/
theorem GovernorPass.gates_append {gate rest : LoopTrace} {d : PolicyDecision}
    (h : GovernorPass env index gate) (hrest : Gates index rest) :
    Gates index (gate ++ policyEvent env index d :: rest) := by
  have hfront : Gates index (gate ++ [policyEvent env index d]) := h.gates
  simpa using hfront.append hrest

/-- Gates after the reservation of a unit are gates of the turn. -/
theorem GovernorPass.gates_reserved_append {gate rest : LoopTrace} {d : PolicyDecision}
    {now : DateTime} (h : GovernorPass env index gate) (hrest : Gates index rest) :
    Gates index (gate ++ policyEvent env index d :: ev (.step index) .now now ::
      (reservation env index d now ++ rest)) := by
  have hfront : Gates index (gate ++ policyEvent env index d :: ev (.step index) .now now ::
    reservation env index d now) := h.gates_reserved
  simpa using hfront.append hrest

/-- A turn either stays at its gates, which then do not admit the step, or executes a step
they admit. -/
theorem StepRun.admitted {turn : Turn env.plan} (h : StepRun env state index t turn) :
    (Gates index t ∧ ¬ Admitted env.plan env.registry env.autonomy env.resumed t index ∧
      ∀ outcome, turn ≠ .stop (.finished outcome)) ∨
    ∃ front exec tail d, t = front ++ exec ++ tail ∧ Gates index front ∧ Gates index tail ∧
      Admitted env.plan env.registry env.autonomy env.resumed t index ∧
      ExecRun env state index (stepAction env index) d exec turn := by
  cases h with
  | skipped =>
      exact .inl ⟨⟨⟨allAt_nil, effectless_nil⟩, by simp⟩, not_admitted_of_verdicts_nil rfl, by simp⟩
  | refused =>
      refine .inl ⟨⟨⟨by simp, by simp⟩, ?_⟩, not_admitted_of_verdicts_nil (by simp), by simp⟩
      simp [governorEvent, denyTrace, LoopEvent.reading?]
  | @passed gate _ _ _ hgate hpolicy =>
      have hverdicts := hgate.verdicts
      cases hpolicy with
      | @denied d hd =>
          refine .inl ⟨hgate.gates_append gates_denyTrace, ?_, by simp⟩
          rw [admitted_iff (d := d) (by simp [hverdicts])]
          simp [hd]
      | @approvalPaused d token hd hfresh =>
          refine .inl ⟨hgate.gates_append gates_pauseTrace, ?_, by simp⟩
          rw [admitted_iff (d := d) (by simp [hverdicts])]
          simp [hd, hfresh]
      | @approvalGranted d exec _ hd hresumed hexec =>
          refine .inr ⟨gate ++ [policyEvent env index d], exec, [], _, by simp, hgate.gates,
            ⟨⟨by simp, by simp⟩, by simp⟩, ?_, hexec⟩
          rw [admitted_iff (d := d) (by simp [hverdicts, hexec.verdicts])]
          exact .inl ⟨hd, hresumed⟩
      | @budgetExhausted d now token hd hrationed =>
          refine .inl ⟨hgate.gates_append ⟨⟨by simp, by simp⟩, ?_⟩, ?_, by simp⟩
          · simp [pauseTrace, reserveEvent, LoopEvent.reading?]
          · -- the only reservation asked for was refused
            have hnone : ¬ Reserved index (gate ++ policyEvent env index d ::
                ev (.step index) .now now :: reserveEvent env index now false ::
                  pauseTrace env (.step index) (stepAction env index) "budget.exhausted"
                    token) := by
              have hunpriced := hgate.unpriced
              refine not_reserved_of_unpriced ?_
              simp [hunpriced]
            rw [admitted_iff (d := d) (by simp [hverdicts])]
            simp [hd, hrationed, hnone]
      | @matrixDenied d now hd hmatrix =>
          rw [List.append_assoc]
          refine .inl ⟨hgate.gates_reserved_append (gates_surrender.append gates_denyTrace), ?_,
            by simp⟩
          rw [admitted_iff (d := d) (by simp [hverdicts])]
          simp [hd, hmatrix]
      | @escalated d now token hd hmatrix hescalates =>
          rw [List.append_assoc]
          refine .inl ⟨hgate.gates_reserved_append (gates_surrender.append gates_pauseTrace), ?_,
            by simp⟩
          rw [admitted_iff (d := d) (by simp [hverdicts])]
          simp [hd, hescalates]
      | @permitted d now exec turn hd hmatrix hescalates hexec =>
          refine .inr ⟨_, _, _, _, permitted_eq, hgate.gates_reserved, gates_refund, ?_, hexec⟩
          rw [admitted_iff (d := d) (by split_ifs <;> simp [hverdicts, hexec.verdicts])]
          refine .inr ⟨hd, hmatrix, hescalates, ?_⟩
          by_cases hgrant : grantBacked env d = true
          · exact .inl hgrant
          · refine .inr ⟨stepRisk env index, env.plan.blastRadius, now, ?_⟩
            simp [reservation, hgrant, reserveEvent]

/-- A service step takes its unit to the controller exactly when it read the other state. -/
theorem StepRun.effects_iff {turn : Turn env.plan} (h : StepRun env state index t turn)
    (hnames : NamesUnit (stepAction env index) unit)
    (hdesired : desiredState (stepAction env index).capability = some desired) :
    effects index t ≠ [] ↔ readings index t = [.ok !desired] := by
  rcases h.admitted with ⟨hgates, -, -⟩ | ⟨front, exec, tail, d, hsplit, hfront, htail, -, hexec⟩
  · simp [hgates.effects_eq_nil, hgates.readings_eq_nil]
  · rw [hsplit, hfront.effects_around htail, hfront.readings_around htail]
    exact hexec.effects_iff hnames hdesired

theorem LoopRun.effects_iff {indices : List (StepIndex env.plan)} {run : PlanRun}
    (h : LoopRun env indices state t run) (hnodup : indices.Nodup) (k : StepIndex env.plan)
    (hnames : NamesUnit (stepAction env k) unit)
    (hdesired : desiredState (stepAction env k).capability = some desired) :
    effects k t ≠ [] ↔ readings k t = [.ok !desired] := by
  rcases h.visited hnodup k with ⟨before, requests, turn, hturn, hsame, -⟩ | hsame
  · rw [hsame.effects, hsame.readings]
    exact hturn.effects_iff hnames hdesired
  · simp [hsame.effects, hsame.readings]

/-- A turn ends a run with a failure exactly when its gates admit the step and something
stood in the way of its execution. -/
theorem StepRun.fails_iff {turn : Turn env.plan} (h : StepRun env state index t turn) :
    (∃ outcome, turn = .stop (.finished outcome)) ↔
      Admitted env.plan env.registry env.autonomy env.resumed t index ∧
        ¬ Smooth (stepAction env index) t index := by
  rcases h.admitted with
    ⟨-, hnot, hturn⟩ | ⟨front, exec, tail, d, hsplit, hfront, htail, hadmitted, hexec⟩
  · constructor
    · intro hfinished
      obtain ⟨outcome, hfinished⟩ := hfinished
      exact absurd hfinished (hturn outcome)
    · intro hfails
      exact absurd hfails.1 hnot
  · have hsmooth : Smooth (stepAction env index) t index ↔
        Smooth (stepAction env index) exec index := by
      have hreadings : readings index t = readings index exec := by
        rw [hsplit, hfront.readings_around htail]
      have heffects : effects index t = effects index exec := by
        rw [hsplit, hfront.effects_around htail]
      exact ⟨fun h => h.congr hreadings.symm heffects.symm, fun h => h.congr hreadings heffects⟩
    rw [and_iff_right hadmitted, hsmooth]
    rcases hexec.ledger with ⟨state', rfl, hsmooth, -⟩ | ⟨outcome, rfl, hrough, -⟩
    · simp [hsmooth]
    · simp [hrough]

end Steps

/-! ### The effects of the rollbacks -/

section Rollbacks

variable {env : RunEnv} {state : LoopState env.plan} {index : StepIndex env.plan}
variable {action : Action} {decision : PolicyDecision} {t t' : LoopTrace} {i j : Nat}

/-- What the rollback effects of a step answered. -/
def undoings (i : Nat) (t : LoopTrace) : List (Except String Value) :=
  (t.filter fun e => e.op.1 = .rollback i).filterMap LoopEvent.effect?

@[simp] theorem undoings_nil : undoings i [] = [] := rfl

@[simp] theorem undoings_append : undoings i (t ++ t') = undoings i t ++ undoings i t' := by
  simp [undoings]

theorem undoings_cons_of_quiet {e : LoopEvent} (h : e.effect? = none) :
    undoings i (e :: t) = undoings i t := by
  unfold undoings
  by_cases hsite : e.op.1 = .rollback i
  · rw [List.filter_cons_of_pos (by simpa using hsite), List.filterMap_cons_none h]
  · rw [List.filter_cons_of_neg (by simpa using hsite)]

theorem undoings_eq_nil (h : ∀ e : LoopEvent, e ∈ t → e.op.1 ≠ .rollback i) :
    undoings i t = [] := by
  have hnone : (t.filter fun e => e.op.1 = .rollback i) = [] := by
    refine List.filter_eq_nil_iff.mpr ?_
    intro e he hsite
    exact h e he (by simpa using hsite)
  rw [undoings, hnone]
  rfl

theorem AllAt.undoings {site : Site} (h : AllAt site t) (hsite : site ≠ .rollback i) :
    Control.undoings i t = [] := by
  refine undoings_eq_nil ?_
  intro e he
  rw [h e he]
  exact hsite

theorem Effectless.undoings (h : Effectless t) : Control.undoings i t = [] :=
  List.filterMap_eq_nil_iff.mpr fun e he => h e (List.mem_of_mem_filter he)

theorem EffectRun.undoings {r : Except String Value} (h : EffectRun (.rollback i) action t r) :
    Control.undoings i t = if invokes action then [r] else [] := by
  cases h with
  | invoked hinvokes hsite heffect => simp [Control.undoings, hsite, heffect, hinvokes]
  | rejected hinvokes => simp [hinvokes]

/-- One step of a walk is undone for itself alone. -/
theorem EffectRun.undoings_walk {rollback : Action} {effect : LoopTrace} {r : Except String Value}
    {outcome : String} {evidence : Value} (h : EffectRun (.rollback index) rollback effect r) :
    Control.undoings i (effect ++
        ev (.rollback index) (.publish "action.rolled.back" evidence) () ::
        ev (.rollback index) (.recordAction (rollbackRecord env rollback outcome)) () :: t) =
      (if index.val = i ∧ invokes rollback = true then [r] else []) ++ Control.undoings i t := by
  rw [undoings_append, undoings_cons_of_quiet rfl, undoings_cons_of_quiet rfl]
  congr 1
  by_cases hi : index.val = i
  · subst hi
    simp [h.undoings]
  · rw [h.allAt.undoings (by simpa using hi), if_neg fun hand => hi hand.1]

/-- The rollback of a step comes up in a walk over `order`: every step before it in the order
was undone. -/
def Due (plan : Plan) (order : List (StepIndex plan)) (t : LoopTrace) (i : StepIndex plan) :
    Prop :=
  ∃ undone rest, order = undone ++ i :: rest ∧
    ∀ j ∈ undone, ∃ evidence, undoings j t = [.ok evidence]

theorem due_head {plan : Plan} {order : List (StepIndex plan)} {i : StepIndex plan} :
    Due plan (i :: order) t i := ⟨[], order, rfl, by simp⟩

theorem due_cons_iff {plan : Plan} {order : List (StepIndex plan)} {i j : StepIndex plan}
    (hne : j ≠ i) :
    Due plan (i :: order) t j ↔ (∃ evidence, undoings i t = [.ok evidence]) ∧
      Due plan order t j := by
  constructor
  · intro hdue
    obtain ⟨undone, rest, horder, hundone⟩ := hdue
    cases undone with
    | nil => exact absurd (List.cons.inj horder).1.symm hne
    | cons first undone =>
        obtain ⟨rfl, rfl⟩ := List.cons.inj horder
        exact ⟨hundone i List.mem_cons_self, undone, rest, rfl,
          fun j hj => hundone j (List.mem_cons_of_mem _ hj)⟩
  · intro hdue
    obtain ⟨hfirst, undone, rest, rfl, hundone⟩ := hdue
    exact ⟨i :: undone, rest, rfl, List.forall_mem_cons.mpr ⟨hfirst, hundone⟩⟩

theorem not_due_nil {plan : Plan} {i : StepIndex plan} : ¬ Due plan [] t i := by
  intro hdue
  obtain ⟨undone, rest, horder, -⟩ := hdue
  simp at horder

theorem due_congr {plan : Plan} {order : List (StepIndex plan)} {i : StepIndex plan}
    (t t' : LoopTrace) (h : ∀ j ∈ order, undoings j t = undoings j t') :
    Due plan order t i ↔ Due plan order t' i := by
  refine exists_congr fun undone => exists_congr fun rest => and_congr_right fun horder => ?_
  refine forall_congr' fun j => imp_congr_right fun hj => ?_
  rw [h j (by simp [horder, hj])]

/-- A walk undoes nothing but what it has before it. -/
theorem WalkRun.undoings_eq_nil {order : List (StepIndex env.plan)} {status : PlanStatus}
    (h : WalkRun env order t status) (hi : ∀ j ∈ order, j.val ≠ i) :
    Control.undoings i t = [] := by
  induction h with
  | done => exact AllAt.undoings (show AllAt .run _ by simp) (by simp)
  | noRollback => exact Effectless.undoings (by simp)
  | @undone index _ rollback effect t evidence _ _ heffect _ ih =>
      obtain ⟨hindex, hrest⟩ := List.forall_mem_cons.mp hi
      rw [heffect.undoings_walk, ih hrest, if_neg fun hand => hindex hand.1]
      rfl
  | @stuck index _ rollback effect msg _ heffect =>
      have hindex := (List.forall_mem_cons.mp hi).1
      refine AllAt.undoings (show AllAt (.rollback index) _ from ?_) (by simpa using hindex)
      simp [heffect.allAt]

/-- A rollback with an executor is performed exactly when it comes up. -/
theorem WalkRun.undoings_iff {order : List (StepIndex env.plan)} {status : PlanStatus}
    (h : WalkRun env order t status) (hnodup : order.Nodup) {k : StepIndex env.plan}
    {rollback : Action} (hk : (env.plan.step k).rollback = some rollback)
    (hinvokes : invokes rollback = true) :
    Control.undoings k t ≠ [] ↔ Due env.plan order t k := by
  induction h with
  | done =>
      have hnil : Control.undoings k [ev .run (.publish "plan.rolled.back" (.object [])) ()] = [] :=
        AllAt.undoings (show AllAt .run _ by simp) (by simp)
      simp [hnil, not_due_nil]
  | @noRollback index rest hnone =>
      have hnil (i : Nat) : Control.undoings i
          [ev (.rollback index) (.publish "plan.needs.manual" (.object [])) ()] = [] :=
        Effectless.undoings (by simp)
      have hne : k ≠ index := by
        intro heq
        rw [heq, hnone] at hk
        cases hk
      simp [hnil, due_cons_iff hne]
  | @undone index rest action effect t evidence status hsome heffect hrest ih =>
      obtain ⟨hnot, hrestNodup⟩ := List.nodup_cons.mp hnodup
      by_cases hne : k = index
      · subst hne
        obtain rfl : action = rollback := Option.some.inj (hsome.symm.trans hk)
        rw [heffect.undoings_walk, if_pos ⟨rfl, hinvokes⟩]
        simp [due_head]
      · have hvals : index.val ≠ k.val := fun heq => hne (Fin.ext heq.symm)
        have hperformed : invokes action = true := by cases heffect; assumption
        have hown := hrest.undoings_eq_nil (i := index) (fun j hj heq => hnot (Fin.ext heq ▸ hj))
        rw [due_cons_iff hne, due_congr _ t ?_, ← ih hrestNodup]
        · rw [heffect.undoings_walk, if_neg fun hand => hvals hand.1, List.nil_append]
          rw [heffect.undoings_walk, if_pos ⟨rfl, hperformed⟩, hown]
          simp
        · intro j hj
          have hj : index.val ≠ j.val := fun heq => hnot (Fin.ext heq ▸ hj)
          rw [heffect.undoings_walk, if_neg fun hand => hj hand.1, List.nil_append]
  | @stuck index rest action effect msg hsome heffect =>
      have hwalk (i : Nat) : Control.undoings i (effect ++
          [ev (.rollback index) (.publish "action.rollback.failed"
              (.object [("error", .string msg)])) (),
            ev (.rollback index) (.recordAction (rollbackRecord env action outcomeFailed)) (),
            ev (.rollback index) (.publish "plan.needs.manual" (.object [])) ()]) =
          Control.undoings i effect := by
        rw [undoings_append, Effectless.undoings (t := [_, _, _]) (by simp), List.append_nil]
      by_cases hne : k = index
      · subst hne
        obtain rfl : action = rollback := Option.some.inj (hsome.symm.trans hk)
        simp [hwalk, heffect.undoings, hinvokes, due_head]
      · -- the walk stops at the rollback that failed
        have hother := heffect.allAt.undoings (i := k) (by simpa [Fin.val_inj] using Ne.symm hne)
        rw [hwalk, hother, due_cons_iff hne, hwalk, heffect.undoings]
        by_cases hperformed : invokes action = true <;> simp [hperformed]

section Walked

variable {k : StepIndex env.plan} {rollback : Action}
variable (hk : (env.plan.step k).rollback = some rollback) (hinvokes : invokes rollback = true)
include hk hinvokes

theorem UndoRun.undoings_iff {outcome : ExecutionOutcome} (h : UndoRun env state t outcome)
    (hnodup : state.executed.Nodup) :
    Control.undoings k t ≠ [] ↔ Due env.plan state.executed.reverse t k := by
  cases h with
  | nothing hempty => simp [hempty, not_due_nil]
  | @walked walk status _ hwalk =>
      have hquiet (i : Nat) : Control.undoings i
          (ev .run (.publish "plan.rolling.back" (.object [])) () :: walk) =
          Control.undoings i walk := undoings_cons_of_quiet rfl
      rw [hquiet, due_congr _ walk fun j _ => hquiet j]
      exact hwalk.undoings_iff (List.nodup_reverse.mpr hnodup) hk hinvokes

/-- In the turn that ends a run with a failure, a rollback is performed exactly when it comes
up in the walk over what was executed. -/
theorem StepRun.stop_undoings_iff {outcome : ExecutionOutcome}
    (h : StepRun env state index t (.stop (.finished outcome))) (hnodup : state.executed.Nodup) :
    Control.undoings k t ≠ [] ↔ Due env.plan state.executed.reverse t k := by
  have hstep {t : LoopTrace} (hsite : AllAt (.step index) t) (i : Nat) :
      Control.undoings i t = [] := hsite.undoings (by simp)
  have hwalked : ∃ walk msg, UndoRun env (state.fail (stepAction env index) msg) walk outcome ∧
      ∀ i, Control.undoings i t = Control.undoings i walk := by
    rcases h.admitted with ⟨-, -, hturn⟩ | ⟨front, exec, tail, d, hsplit, hfront, htail, -, hexec⟩
    · exact absurd rfl (hturn outcome)
    · cases hexec with
      | @effectFailed reads effect walk msg _ hread heffect hwalk =>
          refine ⟨walk, msg, hwalk, ?_⟩
          intro i
          rw [hsplit]
          simp [hstep hfront.site, hstep htail.site, hstep hread.quiet.allAt, hstep heffect.allAt,
            hstep quietAt_failTrace.allAt]
      | @readFailed reads walk msg _ hread hwalk =>
          refine ⟨walk, msg, hwalk, ?_⟩
          intro i
          rw [hsplit]
          simp [hstep hfront.site, hstep htail.site, hstep hread.quiet.allAt,
            hstep quietAt_failTrace.allAt]
  obtain ⟨walk, msg, hundo, hsame⟩ := hwalked
  rw [hsame, due_congr _ walk fun j _ => hsame j]
  have hiff := hundo.undoings_iff hk hinvokes hnodup
  exact hiff

end Walked

/-- A turn that goes on performs no rollback. -/
theorem StepRun.next_undoings {state' : LoopState env.plan}
    (h : StepRun env state index t (.next state')) : Control.undoings i t = [] := by
  have hstep {t : LoopTrace} (hsite : AllAt (.step index) t) : Control.undoings i t = [] :=
    hsite.undoings (by simp)
  rcases h.admitted with ⟨hgates, -, -⟩ | ⟨front, exec, tail, d, hsplit, hfront, htail, -, hexec⟩
  · exact hstep hgates.site
  · rw [hsplit, undoings_append, undoings_append, hstep hfront.site, hstep htail.site]
    cases hexec with
    | noOp hread =>
        rw [hstep ?_]
        · rfl
        · simp [hread.quiet.allAt]
    | @executed reads effect checks _ _ hread heffect hcheck =>
        have hchecks := (validateStep_quiet hcheck).allAt.undoings (i := i) (by simp)
        have hfirst := hstep (t := reads ++ effect) (by simp [hread.quiet.allAt, heffect.allAt])
        rw [undoings_append, undoings_append, undoings_cons_of_quiet rfl, hfirst, hchecks,
          hstep (by simp)]
        rfl

/-- A turn that pauses performs no rollback. -/
theorem StepRun.paused_undoings {pending : PendingPlan}
    (h : StepRun env state index t (.stop (.paused pending))) : Control.undoings i t = [] := by
  rcases h.admitted with ⟨hgates, -, -⟩ | ⟨front, exec, tail, d, -, -, -, -, hexec⟩
  · exact hgates.site.undoings (by simp)
  · cases hexec

theorem SameAt.admitted {plan : Plan} {registry : CapabilityRegistry} {autonomy : AutonomyMode}
    {resumed : Bool} {k : StepIndex plan} (h : SameAt k t t') :
    Admitted plan registry autonomy resumed t k ↔ Admitted plan registry autonomy resumed t' k := by
  have hreserved {t : LoopTrace} : Reserved k t ↔ Reserved k (atStep k t) := by
    simp [Reserved, atStep]
  unfold Admitted
  rw [hreserved, h.step, ← hreserved]
  simp only [h.mem_verdicts]

/-- A step of the run failed: its gates admitted it and something stood in the way. -/
def StepFailed (plan : Plan) (registry : CapabilityRegistry) (autonomy : AutonomyMode)
    (resumed : Bool) (t : LoopTrace) (i : StepIndex plan) : Prop :=
  Admitted plan registry autonomy resumed t i ∧ ¬ Smooth (plan.step i).action t i

theorem SameAt.stepFailed {plan : Plan} {registry : CapabilityRegistry} {autonomy : AutonomyMode}
    {resumed : Bool} {k : StepIndex plan} (h : SameAt k t t') :
    StepFailed plan registry autonomy resumed t k ↔
      StepFailed plan registry autonomy resumed t' k := by
  unfold StepFailed
  rw [h.admitted, h.smooth]

theorem not_stepFailed_nil {plan : Plan} {registry : CapabilityRegistry}
    {autonomy : AutonomyMode} {resumed : Bool} {k : StepIndex plan} :
    ¬ StepFailed plan registry autonomy resumed [] k := by
  intro hfailed
  obtain ⟨⟨d, hd, -⟩, -⟩ := hfailed
  simp at hd

/-- Only a step that the loop visits can fail. -/
theorem StepRun.failed_index {turn : Turn env.plan} (h : StepRun env state index t turn) :
    (∃ k, StepFailed env.plan env.registry env.autonomy env.resumed t k) ↔
      ∃ outcome, turn = .stop (.finished outcome) := by
  rw [h.fails_iff]
  constructor
  · intro hfailed
    obtain ⟨k, hfailed⟩ := hfailed
    by_cases hne : k = index
    · subst hne
      exact hfailed
    · have hsame := h.sameAt_append [] (Fin.val_ne_of_ne hne)
      rw [List.append_nil] at hsame
      exact absurd (hsame.stepFailed.mp hfailed) not_stepFailed_nil
  · exact fun hfailed => ⟨index, hfailed⟩

/-- A rollback with an executor is performed in a run exactly when a step of it failed and
the rollback comes up in the walk over everything executed so far. -/
theorem LoopRun.undoings_iff {indices : List (StepIndex env.plan)} {run : PlanRun}
    (h : LoopRun env indices state t run) (hvisiting : Visiting env indices state)
    {k : StepIndex env.plan} {rollback : Action}
    (hk : (env.plan.step k).rollback = some rollback) (hinvokes : invokes rollback = true) :
    Control.undoings k t ≠ [] ↔
      (∃ i, StepFailed env.plan env.registry env.autonomy env.resumed t i) ∧
        ∃ executed : List (StepIndex env.plan),
          executed.map Fin.val = state.executed.map Fin.val ++ executedSteps t ∧
            Due env.plan executed.reverse t k := by
  induction h with
  | done => simp [not_stepFailed_nil]
  | @next index rest state state' t t' run hstep hrest ih =>
      have hnot := (List.nodup_cons.mp hvisiting.ahead).1
      have hquiet (i : Nat) : Control.undoings i (t ++ t') = Control.undoings i t' := by
        rw [undoings_append, hstep.next_undoings, List.nil_append]
      have hfailed :
          (∃ i, StepFailed env.plan env.registry env.autonomy env.resumed (t ++ t') i) ↔
            ∃ i, StepFailed env.plan env.registry env.autonomy env.resumed t' i := by
        refine exists_congr fun i => ?_
        by_cases hi : i = index
        · subst hi
          -- the turn of the step went on, and the rest of the run does not come back to it
          have hbefore : ¬ StepFailed env.plan env.registry env.autonomy env.resumed t i := by
            intro hfailed
            obtain ⟨outcome, hturn⟩ := hstep.failed_index.mp ⟨i, hfailed⟩
            cases hturn
          have hafter := hrest.sameAt_append (t := []) hnot
          rw [List.nil_append] at hafter
          rw [(hrest.sameAt_append hnot).stepFailed, hafter.stepFailed]
          exact iff_of_false hbefore not_stepFailed_nil
        · exact (hstep.sameAt_append t' (Fin.val_ne_of_ne hi)).stepFailed
      rw [hquiet, ih (hvisiting.next hstep), hfailed]
      refine and_congr_right fun _ => exists_congr fun executed => and_congr ?_ ?_
      · rw [hstep.next_executed.1, executedSteps_append, List.append_assoc]
      · exact (due_congr _ t' fun j _ => hquiet j).symm
  | @stop index rest state t run hstep =>
      cases run with
      | paused pending =>
          have hnone : ¬ ∃ i, StepFailed env.plan env.registry env.autonomy env.resumed t i := by
            rw [hstep.failed_index]
            simp
          simp [hstep.paused_undoings, hnone]
      | finished outcome =>
          have hfailed := hstep.failed_index.mpr ⟨outcome, rfl⟩
          rw [and_iff_right hfailed, hstep.stop_undoings_iff hk hinvokes hvisiting.nodup,
            hstep.stop_executions.2.2.1, List.append_nil]
          constructor
          · exact fun hdue => ⟨state.executed, rfl, hdue⟩
          · intro hdue
            obtain ⟨executed, hmap, hdue⟩ := hdue
            rw [List.map_inj_right fun _ _ => Fin.ext] at hmap
            rw [← hmap]
            exact hdue

end Rollbacks

/-! ### The whole run -/

section Whole

variable {plan : Plan} {t : LoopTrace} {i : Nat} {unit : String}

theorem effect_of_serviceUnit {e : LoopEvent} (h : e.op.2.serviceUnit? = some unit) :
    e.effect?.isSome = true := by
  obtain ⟨⟨site, port⟩, reply⟩ := e
  cases port <;> first | rfl | cases h

/-- The effects of an own request at a site of a service action are on the unit it names. -/
theorem Own.serviceUnit {e : LoopEvent} {action : Action} (h : Own plan e.op)
    (heffect : e.effect?.isSome = true) (haction : actionAt plan e.op.1 = some action)
    (hnames : NamesUnit action unit) : e.op.2.serviceUnit? = some unit := by
  obtain ⟨a, ha, hcarries⟩ := h.carriesOut heffect
  obtain rfl : a = action := Option.some.inj (ha.symm.trans haction)
  exact hcarries.serviceUnit hnames

theorem mem_effects_iff : effects i t ≠ [] ↔ ∃ e ∈ t, e.IsEffectAt (.step i) := by
  simp [effects, atStep, LoopEvent.IsEffectAt, Option.isSome_iff_ne_none, List.filterMap_eq_nil_iff]

theorem mem_undoings_iff : undoings i t ≠ [] ↔ ∃ e ∈ t, e.IsEffectAt (.rollback i) := by
  simp [undoings, LoopEvent.IsEffectAt, Option.isSome_iff_ne_none, List.filterMap_eq_nil_iff]

/-- The step's read before its effect found the unit in the other state than the desired. -/
def FoundOtherwise (plan : Plan) (t : LoopTrace) (i : StepIndex plan) : Prop :=
  ∃ desired, desiredState (plan.step i).action.capability = some desired ∧
    readings i t = [.ok !desired]

/-- A step of the run failed, and the rollback of step `i` comes up in the walk over what was
executed before its pause and in it. -/
def RollbackDue (inputs : LoopInputs) (plan : Plan) (resume : Option (List (StepIndex plan)))
    (t : LoopTrace) (i : StepIndex plan) : Prop :=
  (∃ k, StepFailed plan inputs.registry inputs.autonomy resume.isSome t k) ∧
    ∃ executed : List (StepIndex plan),
      executed.map Fin.val = (resume.getD []).map Fin.val ++ executedSteps t ∧
        Due plan executed.reverse t i

theorem NamesUnit.desiredState {action : Action} (h : NamesUnit action unit) :
    ∃ desired, Control.desiredState action.capability = some desired := by
  have hservice := h.1
  simp only [isServiceAction, List.mem_cons, List.not_mem_nil, or_false, decide_eq_true_eq]
    at hservice
  rcases hservice with hid | hid | hid <;>
    simp [Control.desiredState, hid, CapabilityId.hostServiceRestart,
      CapabilityId.hostServiceStop, CapabilityId.hostServiceStart]

/-- An effect on a unit at a site of the plan, seen from the action the site stands for. -/
theorem serviceUnit_iff {site : Site} {action : Action} (h : ∀ e ∈ t, Own plan e.op)
    (haction : actionAt plan site = some action) :
    (∃ e ∈ t, e.op.1 = site ∧ e.op.2.serviceUnit? = some unit) ↔
      NamesUnit action unit ∧ ∃ e ∈ t, e.IsEffectAt site := by
  constructor
  · intro hunit
    obtain ⟨e, he, hsite, hunit⟩ := hunit
    refine ⟨?_, e, he, hsite, effect_of_serviceUnit hunit⟩
    obtain ⟨a, ha, hcarries⟩ := (h e he).carriesOut (effect_of_serviceUnit hunit)
    obtain rfl : a = action := Option.some.inj (ha.symm.trans (hsite ▸ haction))
    exact hcarries.namesUnit hunit
  · intro hunit
    obtain ⟨hnames, e, he, hsite, heffect⟩ := hunit
    exact ⟨e, he, hsite, (h e he).serviceUnit heffect (hsite ▸ haction) hnames⟩

/-- Only the steps and the declared rollbacks of a plan have effects. -/
theorem Own.site {e : LoopEvent} (h : Own plan e.op) (hunit : e.op.2.serviceUnit? = some unit) :
    (∃ i : StepIndex plan, e.op.1 = .step i) ∨
      ∃ (i : StepIndex plan) (rollback : Action), e.op.1 = .rollback i ∧
        (plan.step i).rollback = some rollback := by
  obtain ⟨action, haction, -⟩ := h.carriesOut (effect_of_serviceUnit hunit)
  obtain ⟨⟨site, port⟩, reply⟩ := e
  cases site with
  | step i =>
      obtain ⟨step, hstep, -⟩ := Option.map_eq_some_iff.mp haction
      exact .inl ⟨⟨i, (List.getElem?_eq_some_iff.mp hstep).1⟩, rfl⟩
  | rollback i =>
      obtain ⟨step, hstep, -⟩ := Option.bind_eq_some_iff.mp haction
      let index : StepIndex plan := ⟨i, (List.getElem?_eq_some_iff.mp hstep).1⟩
      exact .inr ⟨index, action, rfl, (actionAt_rollback plan index).symm.trans haction⟩
  | run => cases haction
  | validation i => cases haction

section Run

variable {inputs : LoopInputs} {resume : Option (List (StepIndex plan))} {run : PlanRun}
variable (h : Runs (runPlan inputs plan resume) t run) (k : StepIndex plan)
include h

/-- A service step of a run has its effect exactly when it read the other state. -/
theorem effect_iff_foundOtherwise (hnames : NamesUnit (plan.step k).action unit) :
    (∃ e ∈ t, e.IsEffectAt (.step k)) ↔ FoundOtherwise plan t k := by
  obtain ⟨correlation, t', hloop, rfl⟩ := runPlan_inv h
  have hsame : SameAt k (announcement plan correlation ++ t') t' := sameAt_announcement
  obtain ⟨desired, hdesired⟩ := hnames.desiredState
  have hiff : effects k t' ≠ [] ↔ readings k t' = [.ok !desired] :=
    hloop.effects_iff (List.nodup_finRange _) k hnames hdesired
  rw [← mem_effects_iff, hsame.effects, hiff]
  simp only [FoundOtherwise, hdesired, Option.some.injEq, exists_eq_left', hsame.readings]

/-- A service rollback of a run has its effect exactly when it comes up. -/
theorem effect_iff_rollbackDue {rollback : Action} (hcarried : Carried plan resume)
    (hsome : (plan.step k).rollback = some rollback) (hnames : NamesUnit rollback unit) :
    (∃ e ∈ t, e.IsEffectAt (.rollback k)) ↔ RollbackDue inputs plan resume t k := by
  obtain ⟨correlation, t', hloop, rfl⟩ := runPlan_inv h
  have hquiet (i : Nat) : undoings i (announcement plan correlation ++ t') = undoings i t' := by
    rw [undoings_append, allAt_announcement.undoings (by simp), List.nil_append]
  have hiff : undoings k t' ≠ [] ↔ RollbackDue inputs plan resume t' k :=
    hloop.undoings_iff (visiting_initialState hcarried.nodup) hsome hnames.invokes
  rw [← mem_undoings_iff, hquiet, hiff]
  unfold RollbackDue
  rw [executedSteps_announcement]
  refine and_congr (exists_congr fun i => ?_) (exists_congr fun executed => ?_)
  · exact (sameAt_announcement (t := t')).stepFailed.symm
  · exact and_congr_right fun _ => (due_congr _ t' fun j _ => hquiet j).symm

end Run

/-- **Guardrails on every path.** Whatever the cloud path executes, it takes only units that
pass the guardrails to the service controller. A run of the plan loop does exactly when
every service step that found its unit in the other state, and every service rollback that
came up, names such a unit. -/
theorem service_effects_guarded_iff {inputs : LoopInputs}
    {resume : Option (List (StepIndex plan))} {run : PlanRun} (hcarried : Carried plan resume)
    (h : Runs (runPlan inputs plan resume) t run) :
    (∀ provider action calls result, Runs (cloudExecutor provider action) calls result →
      ∀ call ∈ calls, PassesGuardrails call.op.unit) ∧
    (ServiceGuarded t ↔
      (∀ i unit, NamesUnit (plan.step i).action unit → FoundOtherwise plan t i →
        PassesGuardrails unit) ∧
      ∀ i rollback unit, (plan.step i).rollback = some rollback → NamesUnit rollback unit →
        RollbackDue inputs plan resume t i → PassesGuardrails unit) := by
  refine ⟨fun _ _ _ _ hcloud => cloudExecutor_guarded hcloud, ?_⟩
  have hown := (runPlan_own inputs plan resume).of_runs h
  constructor
  · intro hguarded
    refine ⟨?_, ?_⟩
    · intro i unit hnames hfound
      obtain ⟨e, he, -, hunit⟩ := (serviceUnit_iff hown (actionAt_step plan i)).mpr
        ⟨hnames, (effect_iff_foundOtherwise h i hnames).mpr hfound⟩
      exact hguarded e he unit hunit
    · intro i rollback unit hsome hnames hdue
      obtain ⟨e, he, -, hunit⟩ :=
        (serviceUnit_iff hown ((actionAt_rollback plan i).trans hsome)).mpr
          ⟨hnames, (effect_iff_rollbackDue h i hcarried hsome hnames).mpr hdue⟩
      exact hguarded e he unit hunit
  · intro hpasses e he unit hunit
    rcases (hown e he).site hunit with ⟨i, hsite⟩ | ⟨i, rollback, hsite, hsome⟩
    · obtain ⟨hnames, heffect⟩ := (serviceUnit_iff hown (actionAt_step plan i)).mp
        ⟨e, he, hsite, hunit⟩
      exact hpasses.1 i unit hnames ((effect_iff_foundOtherwise h i hnames).mp heffect)
    · obtain ⟨hnames, heffect⟩ :=
        (serviceUnit_iff hown ((actionAt_rollback plan i).trans hsome)).mp ⟨e, he, hsite, hunit⟩
      exact hpasses.2 i rollback unit hsome hnames
        ((effect_iff_rollbackDue h i hcarried hsome hnames).mp heffect)

end Whole

/-! ### Small runs -/

/-- What the daemon gives the loop for a plan at L3: a restart as it is registered, which needs
an approval. -/
def restartInputs : LoopInputs :=
  ⟨.single ⟨⟨CapabilityId.hostServiceRestart, CapabilityId.hostServiceRestart_valid⟩,
      .lowRisk, .null, some .host, true, none⟩,
    .l3Assisted, Argus.governedPrefixes, fun _ => ""⟩

/-- The restart of the daemon's own unit. -/
def restartArgusd : Plan := .ofSteps [⟨restartUnit daemonUnit, none⟩]

/-- What the first run of it leaves pending. -/
def parkedArgusd : PendingPlan := parked (runEnv restartInputs restartArgusd false 0) [] 0

/-- A governor with no protected subjects and no history. -/
def idleGovernor : AutopilotGovernor := ⟨fun _ => none, ⟨10, minutes 60, minutes 10⟩, []⟩

/-- The daemon's own policy pauses the restart of the daemon for an approval, and the granted
run takes the unit to the controller. -/
theorem own_unit_restarted :
    (∃ t, Runs (runPlan restartInputs restartArgusd none) t (.paused parkedArgusd)) ∧
    ∃ t run, Runs (runPlan restartInputs parkedArgusd.plan (some parkedArgusd.executed)) t run ∧
      (∃ e ∈ t, e.op = (.step 0, .serviceRestart "argusd")) ∧ ¬ ServiceGuarded t := by
  have hfirst := play_runs ((FixedPorts.willing (.allow "" "")).remediation ⟨0⟩)
    (runPlan restartInputs restartArgusd none) idleGovernor
  have hresume := play_runs ((FixedPorts.willing (.allow "" "")).remediation ⟨0⟩)
    (runPlan restartInputs parkedArgusd.plan (some parkedArgusd.executed)) idleGovernor
  have hreached : ∃ e ∈ (play ((FixedPorts.willing (.allow "" "")).remediation ⟨0⟩)
      (runPlan restartInputs parkedArgusd.plan (some parkedArgusd.executed)) idleGovernor).1,
      e.op = (.step 0, .serviceRestart "argusd") := by decide
  refine ⟨⟨_, hfirst⟩, _, _, hresume, hreached, ?_⟩
  intro hguarded
  obtain ⟨e, he, hop⟩ := hreached
  exact absurd (hguarded e he "argusd" (by rw [hop]; rfl)) (by decide)

/-- The restart of `nginx` stays within the guardrails. -/
theorem service_effects_guarded_iff_nginx :
    ∃ t run, Runs (runPlan (.atLevel .l3Assisted) restartPlan none) t run ∧
      FoundOtherwise restartPlan t ⟨0, Nat.zero_lt_one⟩ ∧
      ((∀ provider action calls result, Runs (cloudExecutor provider action) calls result →
        ∀ call ∈ calls, PassesGuardrails call.op.unit) ∧
      (ServiceGuarded t ↔
        (∀ i unit, NamesUnit (restartPlan.step i).action unit → FoundOtherwise restartPlan t i →
          PassesGuardrails unit) ∧
        ∀ i rollback unit, (restartPlan.step i).rollback = some rollback →
          NamesUnit rollback unit → RollbackDue (.atLevel .l3Assisted) restartPlan none t i →
            PassesGuardrails unit)) := by
  have hrun := play_runs (FixedPorts.willing (.allow "bootstrap" "permitted")).answer
    (runPlan (.atLevel .l3Assisted) restartPlan none) ()
  exact ⟨_, _, hrun, ⟨true, by decide, rfl⟩, service_effects_guarded_iff .fresh hrun⟩

end Control
end Argus
