import Argus.Daemon.ControlOutcome

/-!
# Rollback

When a step fails, the loop undoes the steps that took effect, newest first. What it has
to undo is what its trace says took effect (`executedSteps`) after what had taken effect
before the pause; what it tried to undo is what the ledger says (`attempts`).

`ExactRollback` is the contract between the two lists and the final status, `Undoes` ties
each attempt to the effect of the declared rollback behind it, and `failed_run_rolls_back`
proves both for every run of the loop. The list carried over a pause names no step twice
(`Carried.nodup`), which is what makes each rollback happen at most once.
-/

namespace Argus

open Interaction Prog

/-- The step whose effect the event performed successfully. -/
def LoopEvent.tookEffect? (e : LoopEvent) : Option Nat :=
  match e.op.1, e.effect? with
  | .step i, some (.ok _) => some i
  | _, _ => none

/-- The rollback the event records, and whether it succeeded. -/
def LoopEvent.attempt? : LoopEvent → Option (Nat × Bool)
  | ⟨(site, .recordAction record), _⟩ =>
      match site with
      | .rollback i => some (i, record.outcome == outcomeRolledBack)
      | _ => none
  | _ => none

namespace Control

variable {env : RunEnv} {state : LoopState env.plan} {index : StepIndex env.plan}
variable {action : Action} {decision : PolicyDecision} {t : LoopTrace}

/-! ### What took effect -/

/-- The steps that took effect in a run, in order. -/
def executedSteps (t : LoopTrace) : List Nat := t.filterMap LoopEvent.tookEffect?

/-- The rollbacks attempted in a run, in order, and whether each succeeded. -/
def attempts (t : LoopTrace) : List (Nat × Bool) := t.filterMap LoopEvent.attempt?

@[simp] theorem executedSteps_append {t' : LoopTrace} :
    executedSteps (t ++ t') = executedSteps t ++ executedSteps t' := List.filterMap_append ..

@[simp] theorem attempts_append {t' : LoopTrace} :
    attempts (t ++ t') = attempts t ++ attempts t' := List.filterMap_append ..

@[simp] theorem executedSteps_nil : executedSteps [] = [] := rfl

@[simp] theorem attempts_nil : attempts [] = [] := rfl

@[simp] theorem executedSteps_publish {i : Nat} {eventType : String} {payload : Value} {u : Unit} :
    executedSteps (ev (.step i) (.publish eventType payload) u :: t) = executedSteps t := rfl

@[simp] theorem executedSteps_stepRecord {i : Nat} {record : ActionEventRecord} {u : Unit} :
    executedSteps (ev (.step i) (.recordAction record) u :: t) = executedSteps t := rfl

theorem Effectless.executedSteps (h : Effectless t) : Control.executedSteps t = [] := by
  refine List.filterMap_eq_nil_iff.mpr ?_
  intro e he
  simp [LoopEvent.tookEffect?, h e he]

/-- Rollbacks are recorded for their own sites only. -/
theorem attempts_eq_nil (h : ∀ e : LoopEvent, e ∈ t → ∀ i, e.op.1 ≠ .rollback i) :
    attempts t = [] := by
  refine List.filterMap_eq_nil_iff.mpr ?_
  intro e he
  obtain ⟨⟨site, port⟩, reply⟩ := e
  cases port with
  | recordAction record =>
      cases site with
      | rollback i => exact absurd rfl (h _ he i)
      | _ => rfl
  | _ => rfl

theorem AllAt.attempts {site : Site} (hsite : ∀ i, site ≠ .rollback i) (h : AllAt site t) :
    Control.attempts t = [] :=
  attempts_eq_nil fun e he i => h e he ▸ hsite i

theorem Idle.attempts {i : Nat} (h : Idle i t) : Control.attempts t = [] :=
  h.site.attempts (by simp)

theorem EffectRun.attempts {site : Site} {r : Except String Value}
    (h : EffectRun site action t r) : Control.attempts t = [] := by
  cases h with
  | @invoked e _ _ _ heffect =>
      obtain ⟨⟨site, port⟩, reply⟩ := e
      cases port <;> first | rfl | cases heffect
  | rejected => rfl

theorem EffectRun.allAt {site : Site} {r : Except String Value} (h : EffectRun site action t r) :
    AllAt site t := by
  cases h with
  | invoked _ hsite => simp [hsite]
  | rejected => simp

/-! ### The walk -/

variable {plan : Plan} {executed : List (StepIndex plan)}

/-- The attempts of a segment that was undone. -/
def undoneAttempts (undone : List (StepIndex plan)) : List (Nat × Bool) :=
  undone.map fun i => (i.val, true)

@[simp] theorem map_fst_undoneAttempts {undone : List (StepIndex plan)} :
    (undoneAttempts undone).map Prod.fst = undone.map Fin.val := by
  simp [undoneAttempts, Function.comp_def]

@[simp] theorem mem_undoneAttempts {undone : List (StepIndex plan)} {i : StepIndex plan} :
    (i.val, true) ∈ undoneAttempts undone ↔ i ∈ undone := by
  simp [undoneAttempts, Fin.val_inj]

@[simp] theorem length_undoneAttempts {undone : List (StepIndex plan)} :
    (undoneAttempts undone).length = undone.length := by
  simp [undoneAttempts]

theorem snd_of_mem_undoneAttempts {undone : List (StepIndex plan)} {a : Nat × Bool}
    (h : a ∈ undoneAttempts undone) : a.2 = true := by
  obtain ⟨j, -, rfl⟩ := List.mem_map.mp h
  rfl

theorem isSome_of_mem_map_val {undone : List (StepIndex plan)} {i : StepIndex plan}
    (hdeclared : ∀ j ∈ undone, (plan.step j).rollback.isSome = true)
    (h : i.val ∈ undone.map Fin.val) : (plan.step i).rollback.isSome = true := by
  obtain ⟨j, hj, hij⟩ := List.mem_map.mp h
  exact Fin.ext hij ▸ hdeclared j hj

/-- What a rollback walk over `order` did: it undid an initial segment, and stopped at the
end, at a step without a rollback, or at one whose rollback failed. -/
inductive Walked (plan : Plan) (order : List (StepIndex plan)) :
    List (Nat × Bool) → PlanStatus → Prop
  | complete (hdeclared : ∀ i ∈ order, (plan.step i).rollback.isSome = true) :
      Walked plan order (undoneAttempts order) .rolledBack
  | missing {undone rest : List (StepIndex plan)} {i : StepIndex plan}
      (horder : order = undone ++ i :: rest)
      (hdeclared : ∀ j ∈ undone, (plan.step j).rollback.isSome = true)
      (hnone : (plan.step i).rollback = none) :
      Walked plan order (undoneAttempts undone) .needsManual
  | failed {undone rest : List (StepIndex plan)} {i : StepIndex plan}
      (horder : order = undone ++ i :: rest)
      (hdeclared : ∀ j ∈ undone ++ [i], (plan.step j).rollback.isSome = true) :
      Walked plan order (undoneAttempts undone ++ [(i.val, false)]) .needsManual

/-- One more step undone before a walk. -/
theorem Walked.cons {plan : Plan} {order : List (StepIndex plan)} {i : StepIndex plan}
    {tried : List (Nat × Bool)} {status : PlanStatus} (h : Walked plan order tried status)
    (hdeclared : (plan.step i).rollback.isSome = true) :
    Walked plan (i :: order) ((i.val, true) :: tried) status := by
  cases h with
  | complete hall =>
      have hwalked : Walked plan (i :: order) (undoneAttempts (i :: order)) _ :=
        .complete (by simpa using ⟨hdeclared, hall⟩)
      exact hwalked
  | @missing undone rest j horder hall hnone =>
      have hwalked : Walked plan (i :: order) (undoneAttempts (i :: undone)) _ :=
        .missing (congrArg (i :: ·) horder) (by simpa using ⟨hdeclared, hall⟩) hnone
      exact hwalked
  | @failed undone rest j horder hall =>
      have hwalked : Walked plan (i :: order)
          (undoneAttempts (i :: undone) ++ [(j.val, false)]) _ :=
        .failed (congrArg (i :: ·) horder) (List.forall_mem_cons.mpr ⟨hdeclared, hall⟩)
      exact hwalked

@[simp] theorem attempts_publish {site : Site} {eventType : String} {payload : Value} {u : Unit} :
    attempts (ev site (.publish eventType payload) u :: t) = attempts t := rfl

@[simp] theorem attempts_stepRecord {i : Nat} {record : ActionEventRecord} {u : Unit} :
    attempts (ev (.step i) (.recordAction record) u :: t) = attempts t := rfl

@[simp] theorem attempts_rollbackRecord {i : Nat} {rollback : Action} {outcome : String}
    {u : Unit} :
    attempts (ev (.rollback i) (.recordAction (rollbackRecord env rollback outcome)) u :: t) =
      (i, outcome == outcomeRolledBack) :: attempts t := rfl

/-- The walk lemma, by induction on the steps before it. -/
theorem WalkRun.walked {order : List (StepIndex env.plan)} {status : PlanStatus}
    (h : WalkRun env order t status) : Walked env.plan order (attempts t) status := by
  induction h with
  | done => exact .complete (by simp)
  | @noRollback index rest hnone =>
      have hwalked : Walked env.plan (index :: rest) (undoneAttempts []) _ :=
        .missing rfl (by simp) hnone
      exact hwalked
  | @undone index rest rollback effect t evidence status hsome heffect _ ih =>
      have hcons := ih.cons (i := index) (by simp [hsome])
      simpa [heffect.attempts] using hcons
  | @stuck index rest rollback effect msg hsome heffect =>
      have hwalked :
          Walked env.plan (index :: rest) (undoneAttempts [] ++ [(index.val, false)]) _ :=
        .failed rfl (by simp [hsome])
      rw [attempts_append, heffect.attempts]
      exact hwalked

/-! ### The contract -/

/-- The rollback of `executed`, given the rollbacks `tried` and the final status. -/
structure ExactRollback (plan : Plan) (executed : List (StepIndex plan))
    (tried : List (Nat × Bool)) (status : PlanStatus) : Prop where
  /-- Newest first, and nothing but what was executed. -/
  reverse_order : tried.map Prod.fst <+: executed.reverse.map Fin.val
  once : (tried.map Prod.fst).Nodup
  declared : ∀ i : StepIndex plan, i.val ∈ tried.map Prod.fst →
    (plan.step i).rollback.isSome = true
  /-- Only the last attempt can have failed. -/
  stops_at_failure : ∀ a ∈ tried.dropLast, a.2 = true
  /-- A step is left untried only behind a failed rollback, or for want of one. -/
  goes_on : ∀ i, executed.reverse[tried.length]? = some i →
    (∃ a ∈ tried.getLast?, a.2 = false) ∨ (plan.step i).rollback = none
  rolledBack_iff : status = .rolledBack ↔ executed ≠ [] ∧ ∀ i ∈ executed, (i.val, true) ∈ tried
  needsManual_iff : status = .needsManual ↔ ∃ i ∈ executed, (i.val, true) ∉ tried
  failed_iff : status = .failed ↔ executed = []

theorem ExactRollback.nothing : ExactRollback plan [] [] .failed := by
  constructor <;> simp

theorem Walked.exactRollback {tried : List (Nat × Bool)} {status : PlanStatus}
    (h : Walked plan executed.reverse tried status) (hne : executed ≠ [])
    (hnodup : executed.Nodup) : ExactRollback plan executed tried status := by
  have hreverse := List.nodup_reverse.mpr hnodup
  have hvals : (executed.reverse.map Fin.val).Nodup := hreverse.map Fin.val_injective
  cases h with
  | complete hdeclared =>
      have hall : ∀ i ∈ executed, (i.val, true) ∈ undoneAttempts executed.reverse := by simp
      exact
        { reverse_order := by rw [map_fst_undoneAttempts]
          once := by rwa [map_fst_undoneAttempts]
          declared := fun i hi => isSome_of_mem_map_val hdeclared (by simpa using hi)
          stops_at_failure := fun a ha => snd_of_mem_undoneAttempts (List.mem_of_mem_dropLast ha)
          goes_on := by simp
          rolledBack_iff := iff_of_true rfl ⟨hne, hall⟩
          needsManual_iff := iff_of_false (by simp) fun ⟨i, hi, hnot⟩ => hnot (hall i hi)
          failed_iff := iff_of_false (by simp) hne }
  | @missing undone rest i horder hdeclared hnone =>
      have hi : i ∈ executed := by
        rw [← List.mem_reverse, horder]
        simp
      -- the step where the walk stops is not among those it undid: none comes twice
      have hnot : (i.val, true) ∉ undoneAttempts undone := by
        rw [horder] at hreverse
        simpa using fun hmem => (List.disjoint_of_nodup_append hreverse) hmem (by simp)
      exact
        { reverse_order := by simp [horder]
          once := hvals.sublist (by simp [horder])
          declared := fun i hi => isSome_of_mem_map_val hdeclared (by simpa using hi)
          stops_at_failure := fun a ha => snd_of_mem_undoneAttempts (List.mem_of_mem_dropLast ha)
          goes_on := fun j hj => .inr (by simp_all)
          rolledBack_iff := iff_of_false (by simp) fun ⟨_, hall⟩ => hnot (hall i hi)
          needsManual_iff := iff_of_true rfl ⟨i, hi, hnot⟩
          failed_iff := iff_of_false (by simp) hne }
  | @failed undone rest i horder hdeclared =>
      have hi : i ∈ executed := by
        rw [← List.mem_reverse, horder]
        simp
      have hnot : (i.val, true) ∉ undoneAttempts undone ++ [(i.val, false)] := by
        rw [horder] at hreverse
        simpa using fun hmem => (List.disjoint_of_nodup_append hreverse) hmem (by simp)
      exact
        { reverse_order := by simp [horder]
          once := hvals.sublist (by simp [horder])
          declared := fun i hi => isSome_of_mem_map_val hdeclared (by simpa using hi)
          stops_at_failure := fun a ha => snd_of_mem_undoneAttempts (by simpa using ha)
          goes_on := fun j hj => .inl ⟨(i.val, false), by simp, rfl⟩
          rolledBack_iff := iff_of_false (by simp) fun ⟨_, hall⟩ => hnot (hall i hi)
          needsManual_iff := iff_of_true rfl ⟨i, hi, hnot⟩
          failed_iff := iff_of_false (by simp) hne }

/-! ### One turn -/

theorem QuietAt.executedSteps {site : Site} (h : QuietAt site t) : Control.executedSteps t = [] :=
  h.effectless.executedSteps

theorem QuietAt.attempts {site : Site} (h : QuietAt site t) (hsite : ∀ i, site ≠ .rollback i) :
    Control.attempts t = [] := h.allAt.attempts hsite

theorem UndoRun.executedSteps {outcome : ExecutionOutcome} (h : UndoRun env state t outcome) :
    Control.executedSteps t = [] := by
  refine List.filterMap_eq_nil_iff.mpr ?_
  intro e he
  unfold LoopEvent.tookEffect?
  split
  case h_1 i _ hsite _ => exact absurd hsite (h.site_ne e he i)
  case h_2 => rfl

theorem EffectRun.executedSteps {i : Nat} {r : Except String Value}
    (h : EffectRun (.step i) action t r) :
    Control.executedSteps t = match r with | .ok _ => [i] | .error _ => [] := by
  cases h with
  | @invoked e _ _ hsite heffect =>
      cases r <;> simp [Control.executedSteps, LoopEvent.tookEffect?, hsite, heffect]
  | rejected => rfl

/-- A step that goes on either took effect or found nothing to do. -/
theorem ExecRun.next_executed {state' : LoopState env.plan}
    (h : ExecRun env state index action decision t (.next state')) :
    state'.executed.map Fin.val = state.executed.map Fin.val ++ executedSteps t ∧
      (state'.executed = state.executed ∨ state'.executed = state.executed ++ [index]) ∧
      attempts t = [] ∧
      ∃ evidence, state'.outcome.executions =
        state.outcome.executions ++ [⟨action, .completed, evidence⟩] := by
  cases h with
  | noOp hread =>
      refine ⟨?_, .inl rfl, ?_, _, rfl⟩
      · simp [LoopState.complete, hread.quiet.executedSteps]
      · simp [hread.quiet.attempts]
  | executed hread heffect hcheck =>
      have hcheck := validateStep_quiet hcheck
      refine ⟨?_, .inr rfl, ?_, _, rfl⟩
      · simp [hread.quiet.executedSteps, heffect.executedSteps, hcheck.executedSteps]
      · simp [hread.quiet.attempts, heffect.attempts, hcheck.attempts]

/-- A step that ends the run has taken no effect of its own; the walk undoes the steps
before it. -/
theorem ExecRun.stop_walk {outcome : ExecutionOutcome}
    (h : ExecRun env state index action decision t (.stop (.finished outcome))) :
    executedSteps t = [] ∧ ∃ msg walk, UndoRun env (state.fail action msg) walk outcome ∧
      attempts t = attempts walk := by
  have hfail {msg : String} :
      QuietAt (.step index) (failTrace env (.step index) action decision msg) := quietAt_failTrace
  cases h with
  | @effectFailed reads effect walk msg _ hread heffect hwalk =>
      refine ⟨?_, msg, walk, hwalk, ?_⟩
      · simp [hread.quiet.executedSteps, heffect.executedSteps, hfail.executedSteps,
          hwalk.executedSteps]
      · simp [hread.quiet.attempts, heffect.attempts, hfail.attempts]
  | @readFailed reads walk msg _ hread hwalk =>
      refine ⟨?_, msg, walk, hwalk, ?_⟩
      · simp [hread.quiet.executedSteps, hfail.executedSteps, hwalk.executedSteps]
      · simp [hread.quiet.attempts, hfail.attempts]

/-- What a turn that goes on does to the executed steps. -/
theorem StepRun.next_executed {state' : LoopState env.plan}
    (h : StepRun env state index t (.next state')) :
    state'.executed.map Fin.val = state.executed.map Fin.val ++ executedSteps t ∧
      (state'.executed = state.executed ∨ (state'.executed = state.executed ++ [index] ∧
        (env.resumed = true → index ∉ state.executed))) ∧
      attempts t = [] ∧
      ((∀ x ∈ state.outcome.executions, x.status = .completed) →
        ∀ x ∈ state'.outcome.executions, x.status = .completed) := by
  cases h.kind with
  | passedOver hidle hexecutions hexecuted =>
      exact ⟨by simp [hexecuted, hidle.effectless.executedSteps], .inl hexecuted, hidle.attempts,
        hexecutions ▸ id⟩
  | executed hvisit hsplit hfront htail _ _ _ hexec =>
      -- the gates around the execution neither take effect nor undo anything
      obtain ⟨hmap, hexecuted, hattempts, evidence, hexecutions⟩ := hexec.next_executed
      subst hsplit
      refine ⟨?_, hexecuted.imp_right (⟨·, hvisit⟩), ?_, ?_⟩
      · simpa [hfront.effectless.executedSteps, htail.effectless.executedSteps] using hmap
      · simp [hfront.attempts, htail.attempts, hattempts]
      · intro hcompleted x hx
        rw [hexecutions, List.mem_append, List.mem_singleton] at hx
        rcases hx with hx | rfl
        · exact hcompleted x hx
        · rfl

/-! ### Whole runs -/

/-- What holds between the steps ahead of the loop and those it has executed. -/
structure Visiting (env : RunEnv) (indices : List (StepIndex env.plan))
    (state : LoopState env.plan) : Prop where
  nodup : state.executed.Nodup
  ahead : indices.Nodup
  /-- A fresh run has executed none of the steps ahead. A resumed one skips those it has. -/
  fresh : env.resumed = false → ∀ i ∈ indices, i ∉ state.executed

theorem Visiting.next {rest : List (StepIndex env.plan)} {state' : LoopState env.plan}
    (h : Visiting env (index :: rest) state) (hstep : StepRun env state index t (.next state')) :
    Visiting env rest state' := by
  obtain ⟨hnotMem, hrest⟩ := List.nodup_cons.mp h.ahead
  obtain ⟨-, hexecuted | ⟨hexecuted, hvisit⟩, -, -⟩ := hstep.next_executed
  · exact ⟨hexecuted ▸ h.nodup, hrest,
      fun hfresh i hi => hexecuted ▸ h.fresh hfresh i (List.mem_cons_of_mem _ hi)⟩
  · have hnew : index ∉ state.executed := by
      cases hresumed : env.resumed with
      | true => exact hvisit hresumed
      | false => exact h.fresh hresumed index List.mem_cons_self
    refine ⟨?_, hrest, ?_⟩
    · rw [hexecuted]
      exact h.nodup.append (List.nodup_singleton _) (by simpa using hnew)
    · intro hfresh i hi
      rw [hexecuted, List.mem_append, List.mem_singleton, not_or]
      exact ⟨h.fresh hfresh i (List.mem_cons_of_mem _ hi), fun heq => hnotMem (heq ▸ hi)⟩

/-- A run that pauses carries a list that names no step twice. -/
theorem LoopRun.paused_nodup {indices : List (StepIndex env.plan)} {run : PlanRun}
    (h : LoopRun env indices state t run) (hvisiting : Visiting env indices state) :
    ∀ pending, run = .paused pending → pending.executed.Nodup := by
  induction h with
  | done => simp
  | next hstep _ ih => exact ih (hvisiting.next hstep)
  | stop hstep =>
      intro pending hrun
      subst hrun
      cases hstep.kind with
      | paused => exact hvisiting.nodup
      | executed _ _ _ _ _ _ _ hexec => exact absurd rfl (hexec.not_paused pending)

/-- A run with a failed step undoes what was executed before it. -/
theorem LoopRun.exactRollback {indices : List (StepIndex env.plan)} {run : PlanRun}
    (h : LoopRun env indices state t run) (hvisiting : Visiting env indices state)
    (hcompleted : ∀ x ∈ state.outcome.executions, x.status = .completed) :
    ∀ outcome, run = .finished outcome → (∃ x ∈ outcome.executions, x.status = .failed) →
      ∃ executed : List (StepIndex env.plan),
        executed.map Fin.val = state.executed.map Fin.val ++ executedSteps t ∧
          ExactRollback env.plan executed (attempts t) outcome.status := by
  induction h with
  | @done state =>
      -- every turn so far went on, and a turn that goes on records no failure
      intro _ hrun hfail
      obtain ⟨rfl⟩ := hrun
      obtain ⟨x, hx, hfailed⟩ := hfail
      simp [hcompleted x hx] at hfailed
  | next hstep _ ih =>
      intro outcome hrun hfailed
      obtain ⟨hmap, -, hattempts, hkeeps⟩ := hstep.next_executed
      obtain ⟨executed, hexecuted, hexact⟩ :=
        ih (hvisiting.next hstep) (hkeeps hcompleted) outcome hrun hfailed
      exact ⟨executed, by simp [hexecuted, hmap], by simpa [hattempts] using hexact⟩
  | @stop index _ state t run hstep =>
      intro outcome hrun _
      subst hrun
      cases hstep.kind with
      | executed _ hsplit hfront htail _ _ _ hexec =>
          obtain ⟨hsteps, msg, walk, hundo, hattempts⟩ := hexec.stop_walk
          subst hsplit
          refine ⟨state.executed, ?_, ?_⟩
          · simp [hfront.effectless.executedSteps, htail.effectless.executedSteps, hsteps]
          · simp only [attempts_append, hfront.attempts, htail.attempts, hattempts,
              List.nil_append, List.append_nil]
            cases hundo with
            | nothing hempty =>
                have hempty : state.executed = [] := hempty
                rw [hempty]
                exact .nothing
            | walked hne hwalk => exact hwalk.walked.exactRollback hne hvisiting.nodup

/-! ### Rollback effects -/

/-- The effects requested for rollbacks, in order. -/
def undoEffects (t : LoopTrace) : LoopTrace :=
  t.filter fun e => e.op.1.isRollback && e.effect?.isSome

@[simp] theorem undoEffects_nil : undoEffects [] = [] := rfl

@[simp] theorem undoEffects_append {t' : LoopTrace} :
    undoEffects (t ++ t') = undoEffects t ++ undoEffects t' := List.filter_append ..

@[simp] theorem undoEffects_cons {e : LoopEvent} :
    undoEffects (e :: t) =
      (if e.op.1.isRollback && e.effect?.isSome then [e] else []) ++ undoEffects t := by
  unfold undoEffects
  rw [List.filter_cons]
  split_ifs <;> rfl

theorem Effectless.undoEffects (h : Effectless t) : Control.undoEffects t = [] := by
  refine List.filter_eq_nil_iff.mpr fun e he => ?_
  simp [h e he]

/-- The attempts are what the rollback effects came to: the declared rollback of each step
was performed with the recorded result, or could not be carried out by any port. -/
inductive Undoes (plan : Plan) : List (Nat × Bool) → LoopTrace → Prop
  | nothing : Undoes plan [] []
  | performed {i : StepIndex plan} {rollback : Action} {e : LoopEvent}
      {r : Except String Value} {tried : List (Nat × Bool)} {effects : LoopTrace}
      (hdeclared : (plan.step i).rollback = some rollback) (hsite : e.op.1 = .rollback i)
      (hcarries : CarriesOut rollback e.op.2) (heffect : e.effect? = some r)
      (hrest : Undoes plan tried effects) : Undoes plan ((i.val, r.isOk) :: tried) (e :: effects)
  | impossible {i : StepIndex plan} {rollback : Action} {tried : List (Nat × Bool)}
      {effects : LoopTrace} (hdeclared : (plan.step i).rollback = some rollback)
      (hinvokes : invokes rollback = false) (hrest : Undoes plan tried effects) :
      Undoes plan ((i.val, false) :: tried) effects

theorem Undoes.append {tried tried' : List (Nat × Bool)} {effects effects' : LoopTrace}
    (h : Undoes plan tried effects) (h' : Undoes plan tried' effects') :
    Undoes plan (tried ++ tried') (effects ++ effects') := by
  induction h with
  | nothing => exact h'
  | performed hdeclared hsite hcarries heffect _ ih =>
      exact .performed hdeclared hsite hcarries heffect ih
  | impossible hdeclared hinvokes _ ih => exact .impossible hdeclared hinvokes ih

/-- The attempts and the rollback effects of a trace agree. -/
def UndoesAll (plan : Plan) (t : LoopTrace) : Prop := Undoes plan (attempts t) (undoEffects t)

theorem UndoesAll.append {t' : LoopTrace} (h : UndoesAll plan t) (h' : UndoesAll plan t') :
    UndoesAll plan (t ++ t') := by
  unfold UndoesAll
  rw [attempts_append, undoEffects_append]
  exact Undoes.append h h'

theorem AllAt.undoesAll {site : Site} (h : AllAt site t) (hsite : site.isRollback = false) :
    UndoesAll plan t := by
  have hnone : Control.undoEffects t = [] := by
    refine List.filter_eq_nil_iff.mpr fun e he => ?_
    simp [h e he, hsite]
  unfold UndoesAll
  rw [hnone, h.attempts (by rintro i rfl; cases hsite)]
  exact .nothing

/-- One attempt of the walk: its effect, if any, and the record of its result. -/
theorem EffectRun.undoes {i : StepIndex plan} {rollback : Action} {r : Except String Value}
    (h : EffectRun (.rollback i) rollback t r)
    (hdeclared : (plan.step i).rollback = some rollback) :
    Undoes plan [(i.val, r.isOk)] (Control.undoEffects t) := by
  cases h with
  | @invoked e _ _ hsite heffect hcarries =>
      have hone : Control.undoEffects [e] = [e] := by simp [hsite, heffect, Site.isRollback]
      rw [hone]
      exact .performed hdeclared hsite hcarries heffect .nothing
  | rejected hinvokes => exact .impossible hdeclared hinvokes .nothing

theorem WalkRun.undoesAll {order : List (StepIndex env.plan)} {status : PlanStatus}
    (h : WalkRun env order t status) : UndoesAll env.plan t := by
  have hsites {i : StepIndex env.plan} {rollback : Action} {effect rest : LoopTrace}
      {r : Except String Value} (heffect : EffectRun (.rollback i) rollback effect r)
      (hdeclared : (env.plan.step i).rollback = some rollback) (hrest : Effectless rest)
      (hrecord : attempts rest = [(i.val, r.isOk)]) : UndoesAll env.plan (effect ++ rest) := by
    unfold UndoesAll
    rw [attempts_append, heffect.attempts, undoEffects_append, hrest.undoEffects, hrecord,
      List.append_nil]
    exact heffect.undoes hdeclared
  induction h with
  | done => exact AllAt.undoesAll (show AllAt .run _ by simp) rfl
  | noRollback => exact .nothing
  | @undone index _ rollback effect t evidence _ hsome heffect _ ih =>
      -- the record of the attempt follows its effect within the same turn of the walk
      have hstep : UndoesAll env.plan (effect ++
          [ev (.rollback index) (.publish "action.rolled.back" evidence) (),
            ev (.rollback index)
              (.recordAction (rollbackRecord env rollback outcomeRolledBack)) ()]) :=
        hsites heffect hsome (by simp) rfl
      simpa [List.append_assoc] using hstep.append ih
  | stuck hsome heffect => exact hsites heffect hsome (by simp) rfl

theorem UndoRun.undoesAll {outcome : ExecutionOutcome} (h : UndoRun env state t outcome) :
    UndoesAll env.plan t := by
  cases h with
  | nothing => exact .nothing
  | walked _ hwalk =>
      have hannounce : AllAt .run [ev .run (.publish "plan.rolling.back" (.object [])) ()] := by
        simp
      exact (hannounce.undoesAll rfl).append hwalk.undoesAll

theorem ExecRun.undoesAll {turn : Turn env.plan}
    (h : ExecRun env state index action decision t turn) : UndoesAll env.plan t := by
  have hstep {rest : LoopTrace} (hrest : AllAt (.step index) rest) : UndoesAll env.plan rest :=
    hrest.undoesAll rfl
  cases h with
  | noOp hread => exact hstep (by simp [hread.quiet.allAt])
  | executed hread heffect hcheck =>
      have hchecks : UndoesAll env.plan _ := (validateStep_quiet hcheck).allAt.undoesAll rfl
      refine .append (.append (hstep (by simp [hread.quiet.allAt, heffect.allAt])) ?_)
        (hstep (by simp))
      exact UndoesAll.append (t := [_]) (hstep (by simp)) hchecks
  | effectFailed hread heffect hwalk =>
      refine .append (.append (hstep (by simp [hread.quiet.allAt, heffect.allAt])) ?_)
        hwalk.undoesAll
      exact hstep quietAt_failTrace.allAt
  | readFailed hread hwalk =>
      exact .append (.append (hstep hread.quiet.allAt) (hstep quietAt_failTrace.allAt))
        hwalk.undoesAll

theorem StepRun.undoesAll {turn : Turn env.plan} (h : StepRun env state index t turn) :
    UndoesAll env.plan t := by
  cases h.kind with
  | passedOver hidle => exact hidle.site.undoesAll rfl
  | paused hidle => exact hidle.site.undoesAll rfl
  | executed _ hsplit hfront htail _ _ _ hexec =>
      rw [hsplit]
      exact .append (.append (hfront.site.undoesAll rfl) hexec.undoesAll)
        (htail.site.undoesAll rfl)

theorem LoopRun.undoesAll {indices : List (StepIndex env.plan)} {run : PlanRun}
    (h : LoopRun env indices state t run) : UndoesAll env.plan t := by
  induction h with
  | done => exact .nothing
  | next hstep _ ih => exact hstep.undoesAll.append ih
  | stop hstep => exact hstep.undoesAll

/-! ### Resumed runs -/

/-- The resume states the loop hands on: none for a first run, and what a pause carried for
a run that resumes it. -/
inductive Carried : (plan : Plan) → Option (List (StepIndex plan)) → Prop
  | fresh {plan : Plan} : Carried plan none
  | resumed {inputs : LoopInputs} {plan : Plan} {resume : Option (List (StepIndex plan))}
      {t : LoopTrace} {pending : PendingPlan} (hcarried : Carried plan resume)
      (hrun : Runs (runPlan inputs plan resume) t (.paused pending)) :
      Carried pending.plan (some pending.executed)

theorem visiting_initialState {inputs : LoopInputs} {resume : Option (List (StepIndex plan))}
    {correlation : Uuid} (hnodup : (resume.getD []).Nodup) :
    Visiting (runEnv inputs plan resume.isSome correlation) (List.finRange plan.steps.length)
      (initialState plan resume correlation) := by
  refine ⟨hnodup, List.nodup_finRange _, ?_⟩
  intro hfresh i _
  cases resume with
  | none => exact List.not_mem_nil
  | some executed => simp [runEnv] at hfresh

theorem Carried.nodup {resume : Option (List (StepIndex plan))} (h : Carried plan resume) :
    (resume.getD []).Nodup := by
  induction h with
  | fresh => simp
  | resumed _ hrun ih =>
      obtain ⟨correlation, t', hloop, rfl⟩ := runPlan_inv hrun
      exact hloop.paused_nodup (visiting_initialState ih) _ rfl

/-- **Rollback is exact.** In every run of a plan, first or resumed, in which a step
failed, the steps to undo are those executed before the pause followed by those that took
effect in the run; the rollbacks attempted and the final status are exact for them, each
attempt is one performance of the declared rollback of its step with the result it is
recorded with, no rollback effect happens besides, and every effect is that of the step or
the rollback it was made for. -/
theorem failed_run_rolls_back {inputs : LoopInputs} {resume : Option (List (StepIndex plan))}
    {outcome : ExecutionOutcome} (hcarried : Carried plan resume)
    (h : Runs (runPlan inputs plan resume) t (.finished outcome))
    (hfailed : ∃ x ∈ outcome.executions, x.status = .failed) :
    (∃ executed : List (StepIndex plan),
      executed.map Fin.val = (resume.getD []).map Fin.val ++ executedSteps t ∧
        ExactRollback plan executed (attempts t) outcome.status) ∧
      Undoes plan (attempts t) (undoEffects t) ∧ ∀ e ∈ t, Own plan e.op := by
  have hown := (runPlan_own inputs plan resume).of_runs h
  obtain ⟨correlation, t', hloop, rfl⟩ := runPlan_inv h
  refine ⟨hloop.exactRollback (visiting_initialState hcarried.nodup) (by simp [initialState])
    outcome rfl hfailed, ?_, hown⟩
  exact UndoesAll.append (allAt_announcement.undoesAll rfl) hloop.undoesAll

/-- Two restarts, the first with a rollback. -/
def reversiblePair : Plan :=
  .ofSteps [⟨restartUnit "nginx", some (restartUnit "nginx")⟩, ⟨restartUnit "redis", none⟩]

/-- Ports whose service controller fails the second step. -/
def secondFails : FixedPorts :=
  { FixedPorts.willing (.allow "bootstrap" "permitted") with
    service := fun site => if site = .step 1 then .error (.failed "exit 1") else .ok () }

/-- The second restart fails and the first is undone. -/
theorem failed_run_rolls_back_pair :
    ∃ t outcome, Runs (runPlan (.atLevel .l3Assisted) reversiblePair none) t (.finished outcome) ∧
      (∃ x ∈ outcome.executions, x.status = .failed) ∧
      (∃ executed : List (StepIndex reversiblePair), executed.map Fin.val = [0] ∧
        ExactRollback reversiblePair executed (attempts t) outcome.status) ∧
      Undoes reversiblePair (attempts t) (undoEffects t) ∧ ∀ e ∈ t, Own reversiblePair e.op := by
  have hrun := play_runs secondFails.answer
    (runPlan (.atLevel .l3Assisted) reversiblePair none) ()
  have hfailed : ∃ outcome, (play secondFails.answer
      (runPlan (.atLevel .l3Assisted) reversiblePair none) ()).2.1 = .finished outcome ∧
      ∃ x ∈ outcome.executions, x.status = .failed := ⟨_, rfl, by decide⟩
  obtain ⟨outcome, heq, hfailed⟩ := hfailed
  rw [heq] at hrun
  exact ⟨_, outcome, hrun, hfailed, failed_run_rolls_back .fresh hrun hfailed⟩

end Control
end Argus
