import Argus.Daemon.ControlLedger
import Argus.Daemon.ControlRollback
import Argus.Daemon.SelfObservability

/-!
# Validated evidence

Where a run ends, its completed executions are counted as validated ones
(`Vitals.recordRunOutcome`). Validation itself happens inside the run: after its effect a
step is observed again, and what that observation says is published and recorded, but
changes nothing about the run. So the loop counts whatever it completed, a step that was
found in its desired state and a step whose re-observation contradicts it included.

`evidence_real_iff` says for which runs the counted executions are validated ones anyway:
those interrupted after something took effect, which count nothing, and those that complete
only steps with a desired state that was not there before the effect and was after it.
-/

namespace Argus

open Interaction Prog

namespace Control

variable {env : RunEnv} {state : LoopState env.plan} {index : StepIndex env.plan}
variable {action : Action} {decision : PolicyDecision} {t t' : LoopTrace} {i j : Nat}

/-! ### The re-observation of a step -/

/-- What the reads of the validation of a step answered. -/
def reobservations (i : Nat) (t : LoopTrace) : List (Except String Bool) :=
  (t.filter fun e => e.op.1 = .validation i).filterMap LoopEvent.reading?

@[simp] theorem reobservations_nil : reobservations i [] = [] := rfl

@[simp] theorem reobservations_append :
    reobservations i (t ++ t') = reobservations i t ++ reobservations i t' := by
  simp [reobservations]

theorem reobservations_eq_nil (h : ∀ e : LoopEvent, e ∈ t → e.op.1 ≠ .validation i) :
    reobservations i t = [] := by
  have hnone : (t.filter fun e => e.op.1 = .validation i) = [] := by
    refine List.filter_eq_nil_iff.mpr ?_
    intro e he hsite
    exact h e he (by simpa using hsite)
  rw [reobservations, hnone]
  rfl

theorem reobservations_cons {e : LoopEvent} (h : e.op.1 ≠ .validation i) :
    reobservations i (e :: t) = reobservations i t := by
  unfold reobservations
  rw [List.filter_cons_of_neg (by simpa using h)]

theorem AllAt.reobservations {site : Site} (h : AllAt site t) (hsite : site ≠ .validation i) :
    Control.reobservations i t = [] := by
  refine reobservations_eq_nil ?_
  intro e he
  rw [h e he]
  exact hsite

/-- A rollback walk re-observes nothing. -/
theorem WalkRun.reobservations {indices : List (StepIndex env.plan)} {status : PlanStatus}
    (h : WalkRun env indices t status) : Control.reobservations i t = [] := by
  induction h with
  | done => exact AllAt.reobservations (show AllAt .run _ by simp) (by simp)
  | @noRollback index =>
      exact AllAt.reobservations (show AllAt (.rollback index) _ by simp) (by simp)
  | @undone index _ rollback effect t evidence _ _ heffect _ ih =>
      rw [reobservations_append, heffect.allAt.reobservations (by simp),
        reobservations_cons (by simp), reobservations_cons (by simp), ih]
      rfl
  | @stuck index _ rollback effect msg _ heffect =>
      refine AllAt.reobservations (show AllAt (.rollback index) _ from ?_) (by simp)
      simp [heffect.allAt]

theorem UndoRun.reobservations {outcome : ExecutionOutcome} (h : UndoRun env state t outcome) :
    Control.reobservations i t = [] := by
  cases h with
  | nothing => rfl
  | walked _ hwalk => rw [reobservations_cons (by simp), hwalk.reobservations]

/-- A rollback walk ends in a validation failure. -/
theorem WalkRun.isValidationFailure {indices : List (StepIndex env.plan)} {status : PlanStatus}
    (h : WalkRun env indices t status) : Argus.isValidationFailure status = true := by
  induction h with
  | done => rfl
  | noRollback => rfl
  | undone _ _ _ ih => exact ih
  | stuck => rfl

/-! ### What counts as validated -/

/-- The effect of the step ran, and its re-observation read the state it should have. -/
def Validated (plan : Plan) (t : LoopTrace) (i : StepIndex plan) : Prop :=
  (∃ evidence, effects i t = [.ok evidence]) ∧
    ∃ desired, desiredState (plan.step i).action.capability = some desired ∧
      reobservations i t = [.ok desired]

/-- The re-observation of the step read another state than it should have. -/
def Contradicted (plan : Plan) (t : LoopTrace) (i : StepIndex plan) : Prop :=
  ∃ desired observed, desiredState (plan.step i).action.capability = some desired ∧
    .ok observed ∈ reobservations i t ∧ observed ≠ desired

/-- The step has a desired state, the read before its effect found the other one, and the
read after it found it. -/
def Observed (plan : Plan) (t : LoopTrace) (i : StepIndex plan) : Prop :=
  ∃ desired, desiredState (plan.step i).action.capability = some desired ∧
    readings i t = [.ok !desired] ∧ reobservations i t = [.ok desired]

/-- The gates let the step through, and nothing stood in the way of its execution. -/
def Completes (inputs : LoopInputs) (plan : Plan) (t : LoopTrace) (i : StepIndex plan) : Prop :=
  (∃ d, (i.val, d) ∈ verdicts t ∧ proceeds inputs.autonomy
      (governedRisk (plan.step i).action.capability inputs.registry) d = true) ∧
    Smooth (plan.step i).action t i

/-- The gates let the step through, and something stood in the way. -/
def Fails (inputs : LoopInputs) (plan : Plan) (t : LoopTrace) (i : StepIndex plan) : Prop :=
  (∃ d, (i.val, d) ∈ verdicts t ∧ proceeds inputs.autonomy
      (governedRisk (plan.step i).action.capability inputs.registry) d = true) ∧
    ¬ Smooth (plan.step i).action t i

/-- A step failed after another had taken effect, in this run or before its pause. -/
def Interrupted (inputs : LoopInputs) (plan : Plan) (resume : Option (List (StepIndex plan)))
    (t : LoopTrace) : Prop :=
  (∃ i, Fails inputs plan t i) ∧ (resume.getD [] ≠ [] ∨ executedSteps t ≠ [])

/-- The ledger records the step as `ok`. -/
def recordedOk (i : Nat) (t : LoopTrace) : Bool :=
  (ledger i t).any fun entry => entry.1 == outcomeOk

/-- The steps the ledger of a run records as `ok`. -/
def succeeded (plan : Plan) (t : LoopTrace) : List (StepIndex plan) :=
  (List.finRange plan.steps.length).filter fun i => recordedOk i.val t

/-- What the end of a run counts as validated is validated, and a re-observation that
contradicts its step makes the run a validation failure. -/
structure EvidenceReal (plan : Plan) (t : LoopTrace) (report : ExecutionOutcome) : Prop where
  counted : isValidationFailure report.status = false →
    ∀ i ∈ succeeded plan t, Validated plan t i
  contradicted : ∀ i, Contradicted plan t i → isValidationFailure report.status = true

/-! ### One turn -/

/-- A turn makes its requests for its step alone, or around the execution of it. -/
theorem StepRun.around {turn : Turn env.plan} (h : StepRun env state index t turn) :
    AllAt (.step index) t ∨ ∃ front exec tail d, t = front ++ exec ++ tail ∧
      Gates index front ∧ Gates index tail ∧
      ExecRun env state index (stepAction env index) d exec turn := by
  cases h with
  | skipped => exact .inl allAt_nil
  | refused => exact .inl (by simp)
  | @passed gate _ _ _ hgate hpolicy =>
      have hsite := hgate.allAt
      cases hpolicy with
      | denied => exact .inl (by simp [hsite])
      | approvalPaused => exact .inl (by simp [hsite])
      | @approvalGranted d exec _ _ _ hexec =>
          refine .inr ⟨gate ++ [policyEvent env index d], exec, [], _, by simp, hgate.gates, ?_,
            hexec⟩
          exact ⟨⟨by simp, by simp⟩, by simp⟩
      | budgetExhausted => exact .inl (by simp [hsite])
      | matrixDenied => exact .inl (by simp [hsite])
      | escalated => exact .inl (by simp [hsite])
      | permitted _ _ _ hexec =>
          exact .inr ⟨_, _, _, _, permitted_eq, hgate.gates_reserved, gates_refund, hexec⟩

/-- A desired-state check that lets the effect run found the other state. -/
theorem DesiredRun.of_false {desired : Bool}
    (h : DesiredRun (.step index) action t (.ok false))
    (hdesired : desiredState action.capability = some desired) :
    readings index t = [.ok !desired] := by
  generalize hr : (Except.ok false : Except String Bool) = r at h
  cases h with
  | unchecked hnone => exact absurd (hnone.symm.trans hdesired) (by simp)
  | @compared desired' reads observed hsome hread =>
      obtain rfl : desired' = desired := Option.some.inj (hsome.symm.trans hdesired)
      have hobserves : observes action = true := by cases hread; assumption
      have hother : (observed == desired') = false := (Except.ok.inj hr).symm
      rw [hread.readings, if_pos hobserves]
      cases observed <;> cases desired' <;> simp at hother ⊢
  | unreadable => cases hr

/-- Only a step that executed is observed again. -/
theorem ExecRun.reobserved {turn : Turn env.plan}
    (h : ExecRun env state index action decision t turn) (hseen : reobservations i t ≠ []) :
    i = index ∧ (∃ evidence, effects index t = [.ok evidence]) ∧
      (∀ desired, desiredState action.capability = some desired →
        readings index t = [.ok !desired]) ∧
      ∃ state', turn = .next state' := by
  have hstep {t : LoopTrace} (h : AllAt (.step index) t) : reobservations i t = [] :=
    h.reobservations (by simp)
  cases h with
  | noOp hread => exact absurd (hstep (by simp [hread.quiet.allAt])) hseen
  | @executed reads effect checks evidence validation hread heffect hcheck =>
      have hchecks := validateStep_quiet hcheck
      have hinvokes : invokes action = true := by cases heffect; assumption
      refine ⟨?_, ⟨evidence, ?_⟩, ?_, _, rfl⟩
      · by_contra hne
        refine hseen ?_
        have hnone : reobservations i checks = [] :=
          hchecks.allAt.reobservations (by simpa using Ne.symm hne)
        rw [reobservations_append, reobservations_append, hstep (t := reads ++ effect) ?_,
          reobservations_cons (by simp), hnone, hstep (by simp)]
        · rfl
        · simp [hread.quiet.allAt, heffect.allAt]
      · simp [heffect.effects, hinvokes, hread.quiet.effectless.effects, hchecks.effectless.effects]
      · intro desired hdesired
        simp [heffect.readings, hchecks.allAt.readings_eq_nil, hread.of_false hdesired]
  | effectFailed hread heffect hwalk =>
      refine absurd ?_ hseen
      rw [reobservations_append, hwalk.reobservations, List.append_nil]
      exact hstep (by simp [hread.quiet.allAt, heffect.allAt, quietAt_failTrace.allAt])
  | readFailed hread hwalk =>
      refine absurd ?_ hseen
      rw [reobservations_append, hwalk.reobservations, List.append_nil]
      exact hstep (by simp [hread.quiet.allAt, quietAt_failTrace.allAt])

/-- The verdict of a denied turn did not proceed. -/
theorem Denial.not_proceeds {policyId : String} (h : Denial env index t policyId)
    {v : Nat × PolicyDecision} (hv : v ∈ verdicts t) :
    proceeds env.autonomy (stepRisk env index) v.2 = false := by
  cases h with
  | governor _ _ hverdicts => simp [hverdicts] at hv
  | policy hverdicts hd =>
      rw [hverdicts, List.mem_singleton] at hv
      simp [hv, proceeds, hd]
  | matrix hverdicts hd hmatrix =>
      rw [hverdicts, List.mem_singleton] at hv
      simp [hv, proceeds, hd, hmatrix]

theorem StepRun.reobserved {turn : Turn env.plan} (h : StepRun env state index t turn)
    (hseen : reobservations i t ≠ []) :
    i = index ∧ (∃ evidence, effects index t = [.ok evidence]) ∧
      (∀ desired, desiredState (stepAction env index).capability = some desired →
        readings index t = [.ok !desired]) ∧
      ∃ policyId, (outcomeOk, policyId) ∈ ledger index t := by
  rcases h.around with hclosed | ⟨front, exec, tail, d, hsplit, hfront, htail, hexec⟩
  · exact absurd (hclosed.reobservations (by simp)) hseen
  · have hinner : reobservations i t = reobservations i exec := by
      rw [hsplit, reobservations_append, reobservations_append,
        hfront.site.reobservations (by simp), htail.site.reobservations (by simp)]
      simp
    rw [hinner] at hseen
    obtain ⟨hindex, ⟨evidence, heffects⟩, hreadings, state', hturn⟩ := hexec.reobserved hseen
    have heffects : effects index t = [.ok evidence] := by
      rw [hsplit, hfront.effects_around htail, heffects]
    refine ⟨hindex, ⟨evidence, heffects⟩, ?_, ?_⟩
    · intro desired hdesired
      rw [hsplit, hfront.readings_around htail, hreadings desired hdesired]
    · cases h.entry with
      | skipped _ hquiet => simp [hquiet] at heffects
      | denied _ _ _ hnone => simp [hnone] at heffects
      | paused => cases hturn
      | @done _ _ policyId _ _ hledger => exact ⟨some policyId, by simp [hledger]⟩
      | failed => cases hturn

/-! ### One step of a run -/

/-- Two traces make the same requests for a step and its validation. -/
structure SameAt (i : Nat) (t t' : LoopTrace) : Prop where
  step : atStep i t = atStep i t'
  validation : reobservations i t = reobservations i t'

theorem SameAt.readings (h : SameAt i t t') : readings i t = readings i t' := by
  simp [Control.readings, h.step]

theorem SameAt.effects (h : SameAt i t t') : effects i t = effects i t' := by
  simp [Control.effects, h.step]

theorem SameAt.ledger (h : SameAt i t t') : ledger i t = ledger i t' := by
  simp [Control.ledger, h.step]

theorem mem_verdicts_iff {d : PolicyDecision} :
    (i, d) ∈ verdicts t ↔ (i, d) ∈ verdicts (atStep i t) := by
  have hsite {e : LoopEvent} (h : e.verdict? = some (i, d)) : e.op.1 = .step i := by
    obtain ⟨⟨site, port⟩, reply⟩ := e
    cases site <;> cases port <;> simp_all [LoopEvent.verdict?]
  simp only [verdicts, List.mem_filterMap, atStep, List.mem_filter, decide_eq_true_eq]
  constructor
  · intro h
    obtain ⟨e, he, hv⟩ := h
    exact ⟨e, ⟨he, hsite hv⟩, hv⟩
  · intro h
    obtain ⟨e, ⟨he, -⟩, hv⟩ := h
    exact ⟨e, he, hv⟩

theorem SameAt.mem_verdicts (h : SameAt i t t') {d : PolicyDecision} :
    (i, d) ∈ verdicts t ↔ (i, d) ∈ verdicts t' := by
  rw [mem_verdicts_iff, h.step, ← mem_verdicts_iff]

theorem SameAt.smooth (h : SameAt i t t') : Smooth action t i ↔ Smooth action t' i :=
  ⟨fun hsmooth => hsmooth.congr h.readings.symm h.effects.symm,
    fun hsmooth => hsmooth.congr h.readings h.effects⟩

/-- A turn of another step in front makes no request for this one. -/
theorem StepRun.sameAt_append {turn : Turn env.plan} (h : StepRun env state index t turn)
    (t' : LoopTrace) (hne : i ≠ index) : SameAt i (t ++ t') t' := by
  refine ⟨?_, ?_⟩
  · rw [atStep_append, h.onlyStep.atStep_eq_nil hne, List.nil_append]
  · rw [reobservations_append]
    by_cases hseen : reobservations i t = []
    · rw [hseen, List.nil_append]
    · exact absurd (h.reobserved hseen).1 hne

/-- The loop re-observes no step it does not have before it. -/
theorem LoopRun.reobserved_mem {indices : List (StepIndex env.plan)} {run : PlanRun}
    (h : LoopRun env indices state t run) (hseen : reobservations i t ≠ []) :
    ∃ j ∈ indices, i = j.val := by
  induction h with
  | done => exact absurd rfl hseen
  | @next index rest state state' t t' run hstep _ ih =>
      rw [reobservations_append] at hseen
      by_cases hfirst : reobservations i t = []
      · rw [hfirst, List.nil_append] at hseen
        obtain ⟨j, hj, hij⟩ := ih hseen
        exact ⟨j, List.mem_cons_of_mem _ hj, hij⟩
      · exact ⟨index, List.mem_cons_self, (hstep.reobserved hfirst).1⟩
  | @stop index _ _ _ _ hstep =>
      exact ⟨index, List.mem_cons_self, (hstep.reobserved hseen).1⟩

/-- The rest of a run makes no request for a step behind it. -/
theorem LoopRun.sameAt_append {indices : List (StepIndex env.plan)} {run : PlanRun}
    (h : LoopRun env indices state t' run) (hnot : index ∉ indices) :
    SameAt index (t ++ t') t := by
  refine ⟨?_, ?_⟩
  · have hnil : Control.atStep index t' = [] := by
      refine List.filter_eq_nil_iff.mpr ?_
      intro e he hsite
      exact hnot (h.site_mem e he index (by simpa using hsite))
    rw [atStep_append, hnil, List.append_nil]
  · have hnil : reobservations index t' = [] := by
      by_contra hseen
      obtain ⟨j, hj, hij⟩ := h.reobserved_mem hseen
      exact hnot (Fin.ext hij ▸ hj)
    rw [reobservations_append, hnil, List.append_nil]

/-- What a run requests for a step is what one turn requested, or nothing. -/
theorem LoopRun.visited {indices : List (StepIndex env.plan)} {run : PlanRun}
    (h : LoopRun env indices state t run) (hnodup : indices.Nodup) (j : StepIndex env.plan) :
    (∃ before requests turn, StepRun env before j requests turn ∧ SameAt j t requests ∧
      ∀ run', turn = .stop run' → run' = run) ∨ SameAt j t [] := by
  induction h with
  | done => exact .inr ⟨rfl, rfl⟩
  | @next index rest state state' t t' run hstep hrest ih =>
      obtain ⟨hnot, hrestNodup⟩ := List.nodup_cons.mp hnodup
      by_cases hj : j = index
      · subst hj
        exact .inl ⟨state, t, .next state', hstep, hrest.sameAt_append hnot, by simp⟩
      · have hsame := hstep.sameAt_append t' (Fin.val_ne_of_ne hj)
        rcases ih hrestNodup with ⟨before, requests, turn, hturn, hsame', hlast⟩ | hsame'
        · exact .inl ⟨before, requests, turn, hturn,
            ⟨hsame.step.trans hsame'.step, hsame.validation.trans hsame'.validation⟩, hlast⟩
        · exact .inr ⟨hsame.step.trans hsame'.step, hsame.validation.trans hsame'.validation⟩
  | @stop index rest state t run hstep =>
      by_cases hj : j = index
      · subst hj
        exact .inl ⟨state, t, .stop run, hstep, ⟨rfl, rfl⟩, by simp⟩
      · have hsame := hstep.sameAt_append [] (Fin.val_ne_of_ne hj)
        rw [List.append_nil] at hsame
        exact .inr hsame

/-- The ledger records the step with the outcome. -/
def RecordedAs (outcome : String) (i : Nat) (t : LoopTrace) : Prop :=
  ∃ policyId, (outcome, policyId) ∈ ledger i t

theorem SameAt.recordedAs (h : SameAt i t t') {outcome : String} :
    RecordedAs outcome i t ↔ RecordedAs outcome i t' := by
  unfold RecordedAs
  rw [h.ledger]

/-- The verdict on the step let it proceed. -/
def Proceeded (env : RunEnv) (t : LoopTrace) (j : StepIndex env.plan) : Prop :=
  ∃ d, (j.val, d) ∈ verdicts t ∧ proceeds env.autonomy (stepRisk env j) d = true

theorem SameAt.proceeded {j : StepIndex env.plan} (h : SameAt j t t') :
    Proceeded env t j ↔ Proceeded env t' j := by
  unfold Proceeded
  simp only [h.mem_verdicts]

/-- A turn that does not pause records its step as `ok` or as `failed` when its verdict let
it proceed, by whether it was smooth. -/
theorem StepRun.recordedAs {turn : Turn env.plan} (h : StepRun env state index t turn)
    (hgoes : ∀ pending, turn ≠ .stop (.paused pending)) :
    (RecordedAs outcomeOk index t ↔
      Proceeded env t index ∧ Smooth (stepAction env index) t index) ∧
    (RecordedAs outcomeFailed index t ↔
      Proceeded env t index ∧ ¬ Smooth (stepAction env index) t index) := by
  cases h.entry with
  | skipped _ hquiet =>
      subst hquiet
      simp [RecordedAs, Proceeded]
  | denied hwhy hledger =>
      have hnot : ¬ Proceeded env t index := by
        intro hproceeded
        obtain ⟨d, hd, hproceeds⟩ := hproceeded
        rw [hwhy.not_proceeds hd] at hproceeds
        exact absurd hproceeds (by decide)
      simp [RecordedAs, hledger, hnot, outcomeOk, outcomeFailed, outcomeDenied]
  | paused => exact absurd rfl (hgoes _)
  | @done _ d policyId hpass hproceeds hledger hsmooth =>
      have hproceeded : Proceeded env t index := ⟨d, by simp [hpass.verdicts], hproceeds⟩
      simp [RecordedAs, hledger, hproceeded, hsmooth, outcomeOk, outcomeFailed]
  | @failed _ d policyId hpass hproceeds hledger hrough =>
      have hproceeded : Proceeded env t index := ⟨d, by simp [hpass.verdicts], hproceeds⟩
      simp [RecordedAs, hledger, hproceeded, hrough, outcomeOk, outcomeFailed]

section Finished

variable {indices : List (StepIndex env.plan)} {outcome : ExecutionOutcome}
variable (h : LoopRun env indices state t (.finished outcome)) (hnodup : indices.Nodup)
variable (k : StepIndex env.plan)
include h hnodup

/-- What a finished run records of a step. -/
theorem LoopRun.recordedAs :
    (RecordedAs outcomeOk k t ↔ Proceeded env t k ∧ Smooth (stepAction env k) t k) ∧
    (RecordedAs outcomeFailed k t ↔ Proceeded env t k ∧ ¬ Smooth (stepAction env k) t k) := by
  rcases h.visited hnodup k with ⟨before, requests, turn, hturn, hsame, hlast⟩ | hsame
  · rw [hsame.recordedAs, hsame.recordedAs, hsame.proceeded, hsame.smooth]
    refine hturn.recordedAs ?_
    intro pending hpaused
    exact absurd (hlast _ hpaused) (by simp)
  · rw [hsame.recordedAs, hsame.recordedAs, hsame.proceeded, hsame.smooth]
    simp [RecordedAs, Proceeded]

/-- A step that was observed again had its effect, was not found in its desired state before
it, and is recorded as `ok`. -/
theorem LoopRun.reobserved (hseen : reobservations k t ≠ []) :
    (∃ evidence, effects k t = [.ok evidence]) ∧
      (∀ desired, desiredState (stepAction env k).capability = some desired →
        readings k t = [.ok !desired]) ∧
      RecordedAs outcomeOk k t := by
  rcases h.visited hnodup k with ⟨before, requests, turn, hturn, hsame, -⟩ | hsame
  · rw [hsame.validation] at hseen
    obtain ⟨-, heffects, hreadings, hledger⟩ := hturn.reobserved hseen
    rw [hsame.effects, hsame.readings, hsame.recordedAs]
    exact ⟨heffects, hreadings, hledger⟩
  · exact absurd hsame.validation hseen

theorem LoopRun.validated_iff : Validated env.plan t k ↔ Observed env.plan t k := by
  constructor
  · intro hvalidated
    obtain ⟨-, desired, hdesired, hseen⟩ := hvalidated
    obtain ⟨-, hreadings, -⟩ := h.reobserved hnodup k (by simp [hseen])
    exact ⟨desired, hdesired, hreadings desired hdesired, hseen⟩
  · intro hobserved
    obtain ⟨desired, hdesired, -, hseen⟩ := hobserved
    obtain ⟨heffects, -, -⟩ := h.reobserved hnodup k (by simp [hseen])
    exact ⟨heffects, desired, hdesired, hseen⟩

/-- A contradicted step completed, and was not validated. -/
theorem LoopRun.contradicted (hcontradicted : Contradicted env.plan t k) :
    RecordedAs outcomeOk k t ∧ ¬ Validated env.plan t k := by
  obtain ⟨desired, observed, hdesired, hmem, hne⟩ := hcontradicted
  refine ⟨(h.reobserved hnodup k (List.ne_nil_of_mem hmem)).2.2, ?_⟩
  intro hvalidated
  obtain ⟨-, desired', hdesired', hseen⟩ := hvalidated
  obtain rfl : desired = desired' := Option.some.inj (hdesired.symm.trans hdesired')
  rw [hseen, List.mem_singleton] at hmem
  exact hne (Except.ok.inj hmem)

end Finished

/-! ### The report of a run -/

/-- A turn that goes on adds one completed execution when it records its step as `ok`, and
none otherwise. -/
theorem StepRun.next_executions {state' : LoopState env.plan}
    (h : StepRun env state index t (.next state')) :
    (RecordedAs outcomeOk index t ∧ ∃ evidence, state'.outcome.executions =
      state.outcome.executions ++ [⟨stepAction env index, .completed, evidence⟩]) ∨
    (¬ RecordedAs outcomeOk index t ∧
      state'.outcome.executions = state.outcome.executions) := by
  have hrecorded := (h.recordedAs (by simp)).1
  cases h.kind with
  | passedOver _ hexecutions _ hverdicts =>
      refine .inr ⟨?_, hexecutions⟩
      intro hok
      obtain ⟨⟨d, hd, hproceeds⟩, -⟩ := hrecorded.mp hok
      rw [hverdicts _ hd] at hproceeds
      exact absurd hproceeds (by decide)
  | @executed _ d _ _ _ _ _ _ _ _ hverdicts hproceeds _ hexec =>
      obtain ⟨-, -, -, evidence, hexecutions⟩ := hexec.next_executed
      refine .inl ⟨?_, evidence, hexecutions⟩
      have hproceeded : Proceeded env t index := ⟨d, by simp [hverdicts], hproceeds⟩
      cases h.entry with
      | skipped _ hquiet => simp [hquiet] at hverdicts
      | denied hwhy =>
          have hnot := hwhy.not_proceeds (v := (index.val, d)) (by simp [hverdicts])
          exact absurd (hnot.symm.trans hproceeds) (by decide)
      | done _ _ _ hsmooth => exact hrecorded.mpr ⟨hproceeded, hsmooth⟩

/-- A turn that ends the run adds one failed execution, and the run is a validation failure
when something had been executed before. -/
theorem StepRun.stop_executions {outcome : ExecutionOutcome}
    (h : StepRun env state index t (.stop (.finished outcome))) :
    ¬ RecordedAs outcomeOk index t ∧ RecordedAs outcomeFailed index t ∧
      executedSteps t = [] ∧
      (∃ evidence, outcome.executions =
        state.outcome.executions ++ [⟨stepAction env index, .failed, evidence⟩]) ∧
      (isValidationFailure outcome.status = true ↔ state.executed ≠ []) := by
  have hledger : ¬ RecordedAs outcomeOk index t ∧ RecordedAs outcomeFailed index t := by
    cases h.entry with
    | failed _ _ hledger => simp [RecordedAs, hledger, outcomeOk, outcomeFailed]
  refine ⟨hledger.1, hledger.2, ?_⟩
  cases h.kind with
  | executed _ hsplit hfront htail _ _ _ hexec =>
      obtain ⟨hsteps, msg, walk, hundo, -⟩ := hexec.stop_walk
      refine ⟨?_, ⟨_, hundo.executions⟩, ?_⟩
      · subst hsplit
        simp [hfront.effectless.executedSteps, htail.effectless.executedSteps, hsteps]
      · cases hundo with
        | nothing hempty =>
            have hempty : state.executed = [] := hempty
            simp [hempty, LoopState.fail, isValidationFailure]
        | walked hsome hwalk =>
            have hsome : state.executed ≠ [] := hsome
            have hstatus : isValidationFailure _ = true := hwalk.isValidationFailure
            simp [hsome, hstatus]

theorem recordedOk_iff : recordedOk i t = true ↔ RecordedAs outcomeOk i t := by
  simp [recordedOk, RecordedAs]

theorem SameAt.recordedOk (h : SameAt i t t') : recordedOk i t = recordedOk i t' := by
  simp [Control.recordedOk, h.ledger]

/-- The actions of the completed executions of a report. -/
def completedActions (outcome : ExecutionOutcome) : List Action :=
  (outcome.executions.filter fun execution => execution.status == .completed).map Execution.action

theorem length_completedActions {outcome : ExecutionOutcome} :
    (completedActions outcome).length = outcome.completed := by
  rw [completedActions, List.length_map, ExecutionOutcome.completed, List.countP_eq_length_filter]

theorem completedActions_append {outcome outcome' : ExecutionOutcome} {action : Action}
    {status : ExecutionStatus} {evidence : Value}
    (h : outcome'.executions = outcome.executions ++ [⟨action, status, evidence⟩]) :
    completedActions outcome' =
      completedActions outcome ++ if status = .completed then [action] else [] := by
  cases status <;> simp [completedActions, h, List.filter_append]

/-- The completed executions of a run are those of the steps the ledger records as `ok`. -/
theorem LoopRun.completedActions {indices : List (StepIndex env.plan)} {run : PlanRun}
    (h : LoopRun env indices state t run) (hnodup : indices.Nodup) :
    ∀ outcome, run = .finished outcome → Control.completedActions outcome =
      Control.completedActions state.outcome ++
        (indices.filter fun i => recordedOk i.val t).map (stepAction env) := by
  induction h with
  | done =>
      intro outcome hrun
      cases hrun
      simp [Control.completedActions, finalOutcome]
  | @next index rest state state' t t' run hstep hrest ih =>
      intro outcome hrun
      obtain ⟨hnot, hrestNodup⟩ := List.nodup_cons.mp hnodup
      have hown : recordedOk index.val (t ++ t') = recordedOk index.val t :=
        (hrest.sameAt_append hnot).recordedOk
      have hlater : (rest.filter fun i => recordedOk i.val (t ++ t')) =
          rest.filter fun i => recordedOk i.val t' := by
        refine List.filter_congr ?_
        intro i hi
        have hne : i ≠ index := fun heq => hnot (heq ▸ hi)
        exact (hstep.sameAt_append t' (Fin.val_ne_of_ne hne)).recordedOk
      rw [ih hrestNodup outcome hrun]
      rcases hstep.next_executions with ⟨hok, evidence, hexecutions⟩ | ⟨hok, hexecutions⟩
      · rw [completedActions_append hexecutions, if_pos rfl,
          List.filter_cons_of_pos (by simpa [hown] using recordedOk_iff.mpr hok), hlater,
          List.map_cons, List.append_assoc, List.singleton_append]
      · have hsame : Control.completedActions state'.outcome =
            Control.completedActions state.outcome := by
          simp [Control.completedActions, hexecutions]
        rw [hsame, List.filter_cons_of_neg ?_, hlater]
        rw [hown]
        exact fun htrue => hok (recordedOk_iff.mp htrue)
  | @stop index rest state t run hstep =>
      intro outcome hrun
      subst hrun
      obtain ⟨hok, -, -, ⟨evidence, hexecutions⟩, -⟩ := hstep.stop_executions
      have hrest : (rest.filter fun i => recordedOk i.val t) = [] := by
        refine List.filter_eq_nil_iff.mpr ?_
        intro i hi hrecorded
        have hne : i ≠ index := fun heq => (List.nodup_cons.mp hnodup).1 (heq ▸ hi)
        have hsame := hstep.sameAt_append [] (Fin.val_ne_of_ne hne)
        rw [List.append_nil] at hsame
        rw [hsame.recordedOk] at hrecorded
        exact absurd hrecorded (by simp [recordedOk])
      have hown : ¬ recordedOk index.val t = true := fun htrue => hok (recordedOk_iff.mp htrue)
      rw [completedActions_append hexecutions, if_neg (by simp), List.filter_cons, if_neg hown,
        hrest]
      rfl

/-- A run is a validation failure when a step of it is recorded as `failed` and something
had been executed before. -/
theorem LoopRun.isValidationFailure_iff {indices : List (StepIndex env.plan)} {run : PlanRun}
    (h : LoopRun env indices state t run) (hnodup : indices.Nodup) :
    ∀ outcome, run = .finished outcome → (isValidationFailure outcome.status = true ↔
      (∃ i ∈ indices, RecordedAs outcomeFailed i.val t) ∧
        (state.executed ≠ [] ∨ executedSteps t ≠ [])) := by
  induction h with
  | @done state =>
      intro outcome hrun
      cases hrun
      simp only [finalOutcome, List.not_mem_nil, false_and, exists_false, iff_false]
      split_ifs <;> simp [isValidationFailure]
  | @next index rest state state' t t' run hstep hrest ih =>
      intro outcome hrun
      obtain ⟨hnot, hrestNodup⟩ := List.nodup_cons.mp hnodup
      have hown : ¬ RecordedAs outcomeFailed index.val (t ++ t') := by
        rw [(hrest.sameAt_append hnot).recordedAs]
        cases hstep.entry with
        | skipped _ hquiet => simp [RecordedAs, hquiet]
        | denied _ hledger => simp [RecordedAs, hledger, outcomeDenied, outcomeFailed]
        | done _ _ hledger => simp [RecordedAs, hledger, outcomeOk, outcomeFailed]
      have hfailed : (∃ i ∈ index :: rest, RecordedAs outcomeFailed i.val (t ++ t')) ↔
          ∃ i ∈ rest, RecordedAs outcomeFailed i.val t' := by
        rw [List.exists_mem_cons_iff, or_iff_right hown]
        refine exists_congr fun i => and_congr_right fun hi => ?_
        have hne : i ≠ index := fun heq => hnot (heq ▸ hi)
        exact (hstep.sameAt_append t' (Fin.val_ne_of_ne hne)).recordedAs
      have hexecuted : state'.executed ≠ [] ∨ executedSteps t' ≠ [] ↔
          state.executed ≠ [] ∨ executedSteps (t ++ t') ≠ [] := by
        have hmap := hstep.next_executed.1
        have hnil : state'.executed = [] ↔ state.executed = [] ∧ executedSteps t = [] := by
          rw [← List.map_eq_nil_iff (f := Fin.val), hmap, List.append_eq_nil_iff,
            List.map_eq_nil_iff]
        simp only [ne_eq, hnil, executedSteps_append, List.append_eq_nil_iff, not_and_or,
          or_assoc]
      rw [ih hrestNodup outcome hrun, hfailed, hexecuted]
  | @stop index rest state t run hstep =>
      intro outcome hrun
      subst hrun
      obtain ⟨-, hfailed, hsteps, -, hstatus⟩ := hstep.stop_executions
      rw [hstatus, hsteps]
      simp only [ne_eq, not_true_eq_false, or_false]
      exact ⟨fun hne => ⟨⟨index, List.mem_cons_self, hfailed⟩, hne⟩, And.right⟩

/-! ### The whole run -/

theorem mem_succeeded_iff {plan : Plan} {k : StepIndex plan} :
    k ∈ succeeded plan t ↔ RecordedAs outcomeOk k t := by
  simp [succeeded, recordedOk_iff]

/-- The loop's evidence is real when the run is a validation failure, or when everything it
records as `ok` was observed to change as it should. -/
theorem LoopRun.evidenceReal_iff {indices : List (StepIndex env.plan)}
    {outcome : ExecutionOutcome} (h : LoopRun env indices state t (.finished outcome))
    (hnodup : indices.Nodup) :
    EvidenceReal env.plan t outcome ↔ isValidationFailure outcome.status = true ∨
      ∀ k, RecordedAs outcomeOk k.val t → Observed env.plan t k := by
  constructor
  · intro hreal
    by_cases hfailure : isValidationFailure outcome.status = true
    · exact .inl hfailure
    · refine .inr ?_
      intro k hok
      rw [← h.validated_iff hnodup k]
      exact hreal.counted (by simpa using hfailure) k (mem_succeeded_iff.mpr hok)
  · intro hwhen
    rcases hwhen with hfailure | hobserved
    · exact ⟨fun hnot => absurd (hnot.symm.trans hfailure) (by decide), fun _ _ => hfailure⟩
    · refine ⟨?_, ?_⟩
      · intro _ k hk
        exact (h.validated_iff hnodup k).mpr (hobserved k (mem_succeeded_iff.mp hk))
      · intro k hcontradicted
        obtain ⟨hok, hnot⟩ := h.contradicted hnodup k hcontradicted
        exact absurd ((h.validated_iff hnodup k).mpr (hobserved k hok)) hnot

section Congr

variable {plan : Plan} {inputs : LoopInputs} {resume : Option (List (StepIndex plan))}
variable {report : ExecutionOutcome} {k : StepIndex plan}

theorem SameAt.observed (h : SameAt k t t') : Observed plan t k ↔ Observed plan t' k := by
  simp only [Observed, h.readings, h.validation]

theorem SameAt.completes (h : SameAt k t t') :
    Completes inputs plan t k ↔ Completes inputs plan t' k := by
  simp only [Completes, h.mem_verdicts, h.smooth]

theorem SameAt.fails (h : SameAt k t t') :
    Fails inputs plan t k ↔ Fails inputs plan t' k := by
  simp only [Fails, h.mem_verdicts, h.smooth]

variable (h : ∀ i, SameAt i t t')
include h

theorem succeeded_congr : succeeded plan t = succeeded plan t' := by
  simp only [succeeded, (h _).recordedOk]

theorem evidenceReal_congr : EvidenceReal plan t report ↔ EvidenceReal plan t' report := by
  have hvalidated (k : StepIndex plan) : Validated plan t k ↔ Validated plan t' k := by
    simp only [Validated, (h _).effects, (h _).validation]
  have hcontradicted (k : StepIndex plan) : Contradicted plan t k ↔ Contradicted plan t' k := by
    simp only [Contradicted, (h _).validation]
  constructor
  · intro hreal
    exact ⟨by simpa only [succeeded_congr h, hvalidated] using hreal.counted,
      by simpa only [hcontradicted] using hreal.contradicted⟩
  · intro hreal
    exact ⟨by simpa only [succeeded_congr h, hvalidated] using hreal.counted,
      by simpa only [hcontradicted] using hreal.contradicted⟩

end Congr

theorem sameAt_announcement {plan : Plan} {correlation : Uuid} :
    SameAt i (announcement plan correlation ++ t) t := by
  refine ⟨atStep_announcement, ?_⟩
  rw [reobservations_append, allAt_announcement.reobservations (by simp), List.nil_append]

theorem executedSteps_announcement {plan : Plan} {correlation : Uuid} :
    executedSteps (announcement plan correlation ++ t) = executedSteps t := by
  rw [executedSteps_append, show executedSteps (announcement plan correlation) = [] from rfl,
    List.nil_append]

/-- The executions counted at the end of a run are those of the steps its ledger records as
`ok`. They are validated, and no contradicted one passes for a success, exactly when the run
was interrupted or everything it completed was observed to change as it should. -/
theorem evidence_real_iff (inputs : LoopInputs) (plan : Plan)
    (resume : Option (List (StepIndex plan))) (report : ExecutionOutcome)
    (h : Runs (runPlan inputs plan resume) t (.finished report)) :
    report.completed = (succeeded plan t).length ∧
      completedActions report = (succeeded plan t).map (fun i => (plan.step i).action) ∧
      (EvidenceReal plan t report ↔ Interrupted inputs plan resume t ∨
        ∀ i, Completes inputs plan t i → Observed plan t i) := by
  obtain ⟨correlation, t', hloop, rfl⟩ := runPlan_inv h
  have hnodup := List.nodup_finRange plan.steps.length
  have hsame (i : Nat) : SameAt i (announcement plan correlation ++ t') t' := sameAt_announcement
  have hactions : completedActions report =
      (succeeded plan (announcement plan correlation ++ t')).map fun i => (plan.step i).action := by
    rw [succeeded_congr hsame, hloop.completedActions hnodup report rfl]
    rfl
  refine ⟨?_, hactions, ?_⟩
  · rw [← length_completedActions, hactions, List.length_map]
  · have hfails (k : StepIndex plan) : RecordedAs outcomeFailed k.val t' ↔
        Fails inputs plan (announcement plan correlation ++ t') k := by
      rw [(hsame k).fails]
      exact (hloop.recordedAs hnodup k).2
    have hfailure : isValidationFailure report.status = true ↔
        Interrupted inputs plan resume (announcement plan correlation ++ t') := by
      rw [hloop.isValidationFailure_iff hnodup report rfl, Interrupted,
        executedSteps_announcement]
      refine and_congr_left' (exists_congr fun k => ?_)
      exact (and_iff_right (List.mem_finRange k)).trans (hfails k)
    have hcompleted : (∀ k : StepIndex plan, RecordedAs outcomeOk k.val t' →
          Observed plan t' k) ↔
        ∀ k, Completes inputs plan (announcement plan correlation ++ t') k →
          Observed plan (announcement plan correlation ++ t') k := by
      refine forall_congr' fun k => ?_
      rw [(hsame k).completes, (hsame k).observed]
      exact imp_congr_left (hloop.recordedAs hnodup k).1
    rw [evidenceReal_congr hsame, ← hfailure, ← hcompleted]
    exact hloop.evidenceReal_iff hnodup

/-- Willing ports whose live-state reads answer by the request they serve. -/
def observing (live : Site → Bool) : FixedPorts :=
  { FixedPorts.willing (.allow "bootstrap" "permitted") with live }

/-- Two restarts that end `completed` and are counted without being validated: that of a unit
that is still down when it is observed again, and that of a unit that was up before, which
nothing touched. -/
theorem unvalidated_evidence :
    (∃ t report, Runs (runPlan (.atLevel .l3Assisted) restartPlan none) t (.finished report) ∧
      report.status = .completed ∧ report.completed = 1 ∧
      Contradicted restartPlan t ⟨0, Nat.zero_lt_one⟩ ∧ ¬ EvidenceReal restartPlan t report) ∧
    ∃ t report, Runs (runPlan (.atLevel .l3Assisted) restartPlan none) t (.finished report) ∧
      report.status = .completed ∧ report.completed = 1 ∧
      effects 0 t = [] ∧ ¬ EvidenceReal restartPlan t report := by
  constructor
  · have hrun := play_runs (observing fun _ => false).answer
      (runPlan (.atLevel .l3Assisted) restartPlan none) ()
    have hcontradicted : Contradicted restartPlan (play (observing fun _ => false).answer
        (runPlan (.atLevel .l3Assisted) restartPlan none) ()).1 ⟨0, Nat.zero_lt_one⟩ := by
      refine ⟨true, false, by decide, ?_, by decide⟩
      rw [show reobservations _ _ = [.ok false] from rfl]
      exact List.mem_singleton_self _
    refine ⟨_, _, hrun, rfl, rfl, hcontradicted, ?_⟩
    intro hreal
    exact absurd (hreal.contradicted _ hcontradicted) (by decide)
  · have hrun := play_runs (observing fun _ => true).answer
      (runPlan (.atLevel .l3Assisted) restartPlan none) ()
    have hcounted : (⟨0, Nat.zero_lt_one⟩ : StepIndex restartPlan) ∈ succeeded restartPlan
        (play (observing fun _ => true).answer
          (runPlan (.atLevel .l3Assisted) restartPlan none) ()).1 := by decide
    refine ⟨_, _, hrun, rfl, rfl, rfl, ?_⟩
    intro hreal
    obtain ⟨⟨evidence, heffects⟩, -⟩ := hreal.counted (by decide) _ hcounted
    cases heffects

/-- A restart of a unit that was down before and is up after is validated evidence. -/
theorem evidence_real_iff_restart :
    ∃ t report, Runs (runPlan (.atLevel .l3Assisted) restartPlan none) t (.finished report) ∧
      (report.completed = (succeeded restartPlan t).length ∧
        completedActions report =
          (succeeded restartPlan t).map (fun i => (restartPlan.step i).action) ∧
        (EvidenceReal restartPlan t report ↔ Interrupted (.atLevel .l3Assisted) restartPlan none t ∨
          ∀ i, Completes (.atLevel .l3Assisted) restartPlan t i → Observed restartPlan t i)) ∧
      succeeded restartPlan t = [⟨0, Nat.zero_lt_one⟩] ∧
      Observed restartPlan t ⟨0, Nat.zero_lt_one⟩ := by
  have hrun := play_runs (observing fun site => site = .validation 0).answer
    (runPlan (.atLevel .l3Assisted) restartPlan none) ()
  refine ⟨_, _, hrun, evidence_real_iff _ _ _ _ hrun, by decide, true, by decide, rfl, rfl⟩

end Control
end Argus
