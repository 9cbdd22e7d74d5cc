import Argus.Daemon.ControlOutcome
import Mathlib.Algebra.BigOperators.Fin
import Mathlib.Algebra.Order.BigOperators.Group.Finset

/-!
# Budget accounting of a run

A step that the budget rations takes one unit before its later gates, and gives it back on
the exits that do not use it. `BudgetExact` says what a run should cost: one unit for each
rationed step whose effect was attempted, and nothing for any other step.

The loop refunds on its gates' exits and on a recognised no-op. It does not refund when the
desired-state read fails or when no executor takes the action, and it takes an executor's
own `already_desired` evidence for a no-op after the effect ran. `Clean` is the absence of
the three, and `budget_exact_iff` says that nothing else can go wrong.
-/

namespace Argus.Control

open Interaction Prog

variable {env : RunEnv} {state : LoopState env.plan} {index : StepIndex env.plan}
variable {action : Action} {decision : PolicyDecision} {t : LoopTrace}

/-! ### Units -/

/-- The units a run consumed: reservations minus refunds. -/
def net (t : LoopTrace) : Int := (t.map LoopEvent.units).sum

@[simp] theorem net_nil : net [] = 0 := rfl

@[simp] theorem net_cons {e : LoopEvent} : net (e :: t) = e.units + net t := by
  simp [net]

@[simp] theorem net_append {t' : LoopTrace} : net (t ++ t') = net t + net t' := by
  simp [net]

theorem units_eq_zero {e : LoopEvent} (h : e.op.2.isGate = false) : e.units = 0 := by
  obtain ⟨⟨site, port⟩, reply⟩ := e
  cases port <;> first | rfl | cases h

/-! ### The view of one step -/

/-- What the live-state reads of a step answered. -/
def readings (i : Nat) (t : LoopTrace) : List (Except String Bool) :=
  (atStep i t).filterMap LoopEvent.reading?

/-- What came of the effects of a step. -/
def effects (i : Nat) (t : LoopTrace) : List (Except String Value) :=
  (atStep i t).filterMap LoopEvent.effect?

@[simp] theorem readings_append {i : Nat} {t' : LoopTrace} :
    readings i (t ++ t') = readings i t ++ readings i t' := by
  simp [readings]

@[simp] theorem effects_append {i : Nat} {t' : LoopTrace} :
    effects i (t ++ t') = effects i t ++ effects i t' := by
  simp [effects]

@[simp] theorem readings_nil {i : Nat} : readings i [] = [] := rfl

@[simp] theorem effects_nil {i : Nat} : effects i [] = [] := rfl

@[simp] theorem effects_publish {i : Nat} {eventType : String} {payload : Value} {u : Unit} :
    effects i (ev (.step i) (.publish eventType payload) u :: t) = effects i t := by
  unfold effects atStep
  rw [List.filter_cons_of_pos (by simp)]
  rfl

@[simp] theorem effects_recordAction {i : Nat} {record : ActionEventRecord} {u : Unit} :
    effects i (ev (.step i) (.recordAction record) u :: t) = effects i t := by
  unfold effects atStep
  rw [List.filter_cons_of_pos (by simp)]
  rfl

@[simp] theorem readings_publish {i : Nat} {eventType : String} {payload : Value} {u : Unit} :
    readings i (ev (.step i) (.publish eventType payload) u :: t) = readings i t := by
  unfold readings atStep
  rw [List.filter_cons_of_pos (by simp)]
  rfl

@[simp] theorem readings_recordAction {i : Nat} {record : ActionEventRecord} {u : Unit} :
    readings i (ev (.step i) (.recordAction record) u :: t) = readings i t := by
  unfold readings atStep
  rw [List.filter_cons_of_pos (by simp)]
  rfl

theorem Effectless.effects {i : Nat} (h : Effectless t) : Control.effects i t = [] :=
  List.filterMap_eq_nil_iff.mpr fun e he => h e (List.mem_of_mem_filter he)

theorem AllAt.atStep_eq_nil {site : Site} {i : Nat} (h : AllAt site t) (hsite : site ≠ .step i) :
    atStep i t = [] := List.filter_eq_nil_iff.mpr fun e he => by simpa [h e he] using hsite

theorem atStep_announcement {plan : Plan} {correlation : Uuid} {i : Nat} :
    atStep i (announcement plan correlation ++ t) = atStep i t := by
  rw [atStep_append, allAt_announcement.atStep_eq_nil (by simp), List.nil_append]

theorem AllAt.readings_eq_nil {site : Site} {i : Nat} (h : AllAt site t) (hsite : site ≠ .step i) :
    Control.readings i t = [] := by
  simp [Control.readings, h.atStep_eq_nil hsite]

theorem UndoRun.atStep_eq_nil {outcome : ExecutionOutcome} {i : Nat}
    (h : UndoRun env state t outcome) : atStep i t = [] := by
  refine List.filter_eq_nil_iff.mpr ?_
  intro e he hsite
  exact h.site_ne e he i (by simpa using hsite)

theorem UndoRun.effects {outcome : ExecutionOutcome} {i : Nat} (h : UndoRun env state t outcome) :
    Control.effects i t = [] := by
  simp [Control.effects, h.atStep_eq_nil]

theorem UndoRun.readings {outcome : ExecutionOutcome} {i : Nat} (h : UndoRun env state t outcome) :
    Control.readings i t = [] := by
  simp [Control.readings, h.atStep_eq_nil]

theorem EffectRun.effects {i : Nat} {r : Except String Value}
    (h : EffectRun (.step i) action t r) :
    Control.effects i t = if invokes action then [r] else [] := by
  cases h with
  | invoked hinvokes hsite heffect => simp [Control.effects, atStep, hsite, heffect, hinvokes]
  | rejected hinvokes => simp [hinvokes]

theorem EffectRun.readings {i : Nat} {site : Site} {r : Except String Value}
    (h : EffectRun site action t r) : Control.readings i t = [] := by
  cases h with
  | invoked _ _ heffect =>
      refine List.filterMap_eq_nil_iff.mpr ?_
      intro e he
      obtain rfl := List.mem_singleton.mp (List.mem_of_mem_filter he)
      cases hreading : e.reading? with
      | none => rfl
      | some r => simp [(quiet_of_reading hreading).1] at heffect
  | rejected => rfl

theorem ReadRun.readings {i : Nat} {r : Except String Bool} (h : ReadRun (.step i) action t r) :
    Control.readings i t = if observes action then [r] else [] := by
  cases h with
  | read hobserves hsite hreading => simp [Control.readings, atStep, hsite, hreading, hobserves]
  | unnamed hobserves => simp [hobserves]

@[simp] theorem effects_failTrace {i : Nat} {msg : String} :
    effects i (failTrace env (.step i) action decision msg) = [] := by
  simp [failTrace]

@[simp] theorem readings_failTrace {i : Nat} {msg : String} :
    readings i (failTrace env (.step i) action decision msg) = [] := by
  simp [failTrace]

/-! ### What a step should cost -/

/-- An effect was requested for the step. -/
def attempted (t : LoopTrace) (i : Nat) : Bool := !(effects i t).isEmpty

/-- The verdict on the step was one that the budget rations: no grant stands behind it. -/
def rationed (resumed : Bool) (t : LoopTrace) (i : Nat) : Bool :=
  !resumed && (verdicts (atStep i t)).any fun v => v.2.policyId != "plan.approval"

/-- A unit was taken for the step. -/
def takesUnit (t : LoopTrace) (i : Nat) : Bool := (atStep i t).any fun e => LoopEvent.units e == 1

/-- A unit was taken for the step, and the gates behind the budget let it through. -/
def spent (plan : Plan) (registry : CapabilityRegistry) (autonomy : AutonomyMode)
    (t : LoopTrace) (i : StepIndex plan) : Bool :=
  let capability := (plan.step i).action.capability
  let risk := governedRisk capability registry
  takesUnit t i && mayExecuteWithoutApproval autonomy risk &&
    !(escalationBounded autonomy && !escalationPermits plan registry i capability autonomy risk)

theorem spent_eq : spent env.plan env.registry env.autonomy t index =
    (takesUnit t index && mayExecuteWithoutApproval env.autonomy (stepRisk env index) &&
      !escalates env index (stepAction env index) (stepRisk env index)) := rfl

/-- An action the loop can carry out: it names the target of its desired-state read, if
there is a desired state, and some executor takes it. -/
def ready (action : Action) : Bool :=
  ((desiredState action.capability).isNone || observes action) && invokes action

/-- The step met none of the three cases that the loop does not account for. -/
structure Clean (action : Action) (t : LoopTrace) (i : Nat) : Prop where
  ready : ready action = true
  /-- No desired-state read failed. -/
  read : ∀ msg, .error msg ∉ readings i t
  /-- No executor called its own effect a no-op. -/
  evidence : ∀ v, .ok v ∈ effects i t → v.get "already_desired" ≠ some (.bool true)

/-- An action with a desired state that can be read is taken by an executor. -/
theorem invokes_of_observes {desired : Bool}
    (hdesired : desiredState action.capability = some desired)
    (hobserves : observes action = true) : invokes action = true := by
  by_cases hservice : isServiceAction action.capability = true
  · have hkey : targetKey action.capability = some "unit" := by simp [targetKey, hservice]
    simpa [invokes, hservice, observes, hkey] using hobserves
  · have hexecutor : isKubernetesAction action.capability = true ∨
        remediationHandles action.capability = true := by
      simp only [isServiceAction, List.mem_cons, List.not_mem_nil, or_false, not_or,
        decide_eq_true_eq] at hservice
      unfold desiredState at hdesired
      simp only [List.mem_cons, List.not_mem_nil, or_false, hservice, if_false, or_self]
        at hdesired
      simp only [isKubernetesAction, remediationHandles, List.mem_cons, List.not_mem_nil, or_false,
        Bool.or_eq_true, decide_eq_true_eq]
      grind
    simpa [invokes, hservice] using hexecutor

/-- The last execution of a turn is a no-op exactly when its evidence says so. -/
theorem lastIsNoOp_append {outcome : ExecutionOutcome} {executions : List Execution}
    {action : Action} {status : ExecutionStatus} {evidence : Value}
    (h : outcome.executions = executions ++ [⟨action, status, evidence⟩]) :
    lastIsNoOp outcome = (status == .completed &&
      evidence.get "already_desired" == some (.bool true)) := by
  simp [lastIsNoOp, h]

theorem UndoRun.executions {outcome : ExecutionOutcome} (h : UndoRun env state t outcome) :
    outcome.executions = state.outcome.executions := by
  cases h <;> rfl

/-- A desired-state check that answered read the state, if there is one to read. -/
theorem DesiredRun.of_ok {i : Nat} {b : Bool} (h : DesiredRun (.step i) action t (.ok b)) :
    (∀ msg, .error msg ∉ Control.readings i t) ∧
      ((desiredState action.capability).isNone || observes action) = true ∧
      (b = true → invokes action = true) := by
  generalize hr : (Except.ok b : Except String Bool) = r at h
  cases h with
  | unchecked hnone =>
      obtain rfl := Except.ok.inj hr
      simp [hnone]
  | compared hsome hread =>
      have hobserves : observes action = true := by cases hread; assumption
      refine ⟨?_, by simp [hobserves], fun _ => invokes_of_observes hsome hobserves⟩
      simp [hread.readings, hobserves]
  | unreadable => cases hr

/-- One that failed had no target to read, or a read that failed. -/
theorem DesiredRun.of_error {i : Nat} {msg : String}
    (h : DesiredRun (.step i) action t (.error msg)) :
    ((desiredState action.capability).isNone || observes action) = false ∨
      .error msg ∈ Control.readings i t := by
  generalize hr : (Except.error msg : Except String Bool) = r at h
  cases h with
  | unchecked => cases hr
  | compared => cases hr
  | unreadable hsome hread =>
      obtain rfl := Except.error.inj hr
      cases hobserves : observes action with
      | false => exact .inl (by simp [hsome])
      | true => exact .inr (by simp [hread.readings, hobserves])

/-- Executing a step is accounted for exactly when the step is clean: its effect was
attempted and the turn does not look like a no-op, or the other way round. -/
theorem ExecRun.clean_iff {turn : Turn env.plan}
    (h : ExecRun env state index action decision t turn) :
    Clean action t index ↔ (attempted t index = true ↔ turn.outcome?.any lastIsNoOp = false) := by
  have hfailed {msg : String} {walk : LoopTrace} {outcome : ExecutionOutcome}
      (hwalk : UndoRun env (state.fail action msg) walk outcome) : lastIsNoOp outcome = false := by
    simp [lastIsNoOp_append (hwalk.executions.trans rfl)]
  cases h with
  | noOp hread =>
      -- a step found as desired could be read, so an executor would have taken it
      obtain ⟨hreadings, htarget, hinvokes⟩ := hread.of_ok
      have heffects := hread.quiet.effectless.effects (i := index)
      have hnoOp : lastIsNoOp (state.complete action alreadyDesired).outcome = true := by
        rw [lastIsNoOp_append rfl]
        rfl
      refine iff_of_true ⟨by simp [ready, htarget, hinvokes rfl], by simpa using hreadings, ?_⟩ ?_
      · simp [heffects]
      · simp [attempted, heffects, Turn.outcome?, hnoOp]
  | @executed reads effect checks evidence _ hread heffect hcheck =>
      obtain ⟨hreadings, htarget, -⟩ := hread.of_ok
      have hchecks := validateStep_quiet hcheck
      have hinvokes : invokes action = true := by cases heffect; assumption
      -- what is left is the executor's word: its evidence is what the refund looks at
      rw [Turn.outcome?, Option.any_some, lastIsNoOp_append rfl]
      constructor
      · intro hclean
        have hevidence := hclean.evidence evidence (by simp [heffect.effects, hinvokes])
        simp [attempted, heffect.effects, hinvokes, hevidence]
      · intro hcounted
        have hevidence : evidence.get "already_desired" ≠ some (.bool true) := by
          simpa [attempted, heffect.effects, hinvokes] using hcounted
        refine ⟨by simp [ready, htarget, hinvokes], ?_, ?_⟩
        · simpa [heffect.readings, hchecks.allAt.readings_eq_nil] using hreadings
        · simpa [heffect.effects, hinvokes, hread.quiet.effectless.effects,
            hchecks.effectless.effects] using hevidence
  | effectFailed hread heffect hwalk =>
      obtain ⟨hreadings, htarget, -⟩ := hread.of_ok
      have hreads := hread.quiet.effectless.effects (i := index)
      rw [Turn.outcome?, Option.any_some, hfailed hwalk]
      cases hinvokes : invokes action with
      | true =>
          refine iff_of_true ⟨by simp [ready, htarget, hinvokes], ?_, ?_⟩ ?_
          · simpa [heffect.readings, hwalk.readings] using hreadings
          · simp [heffect.effects, hinvokes, hreads, hwalk.effects]
          · simp [attempted, heffect.effects, hinvokes]
      | false =>
          -- no executor: the loop failed the step by itself, and the unit stays taken
          refine iff_of_false ?_ ?_
          · intro hclean
            simpa [ready, hinvokes] using hclean.ready
          · simp [attempted, heffect.effects, hinvokes, hreads, hwalk.effects]
  | @readFailed _ _ msg _ hread hwalk =>
      rw [Turn.outcome?, Option.any_some, hfailed hwalk]
      refine iff_of_false ?_ ?_
      · intro hclean
        rcases hread.of_error with hunnamed | herror
        · simpa [ready, hunnamed] using hclean.ready
        · exact hclean.read msg (by simp [herror])
      · simp [attempted, hread.quiet.effectless.effects, hwalk.effects]

/-! ### One turn -/

theorem AllAt.atStep_eq {i : Nat} (h : AllAt (.step i) t) : atStep i t = t :=
  List.filter_eq_self.mpr fun e he => by simpa using h e he

/-- Requests outside the budget: no unit is taken or given back. -/
def Unpriced (t : LoopTrace) : Prop := ∀ e : LoopEvent, e ∈ t → e.units = 0

@[simp] theorem unpriced_nil : Unpriced [] := by
  simp [Unpriced]

@[simp] theorem unpriced_cons {e : LoopEvent} : Unpriced (e :: t) ↔ e.units = 0 ∧ Unpriced t := by
  simp [Unpriced]

@[simp] theorem unpriced_append {t' : LoopTrace} :
    Unpriced (t ++ t') ↔ Unpriced t ∧ Unpriced t' := by
  simp only [Unpriced, List.mem_append]
  grind

theorem Unpriced.net (h : Unpriced t) : Control.net t = 0 := by
  induction t with
  | nil => rfl
  | cons e t ih =>
      obtain ⟨he, ht⟩ := unpriced_cons.mp h
      simp [he, ih ht]

theorem Unpriced.takesUnit {i : Nat} (h : Unpriced t) : Control.takesUnit t i = false := by
  simp only [Control.takesUnit, List.any_eq_false]
  intro e he
  simp [h e (List.mem_of_mem_filter he)]

theorem QuietAt.unpriced {site : Site} (h : QuietAt site t) : Unpriced t :=
  fun e he => units_eq_zero (h e he).2.2

theorem ExecRun.unpriced {turn : Turn env.plan}
    (h : ExecRun env state index action decision t turn) : Unpriced t :=
  fun e he => units_eq_zero (h.ungated e he).1

@[simp] theorem unpriced_denyTrace {site : Site} {payload : List (String × Value)}
    {policyId : String} : Unpriced (denyTrace env site action payload policyId) :=
  quietAt_denyTrace.unpriced

@[simp] theorem unpriced_pauseTrace {site : Site} {policyId : String} {token : Uuid} :
    Unpriced (pauseTrace env site action policyId token) := quietAt_pauseTrace.unpriced

@[simp] theorem units_policyEvent : (policyEvent env index decision).units = 0 := rfl

@[simp] theorem units_governorEvent {answer : GovernanceDecision} :
    (governorEvent env index answer).units = 0 := rfl

@[simp] theorem units_now {site : Site} {now : DateTime} :
    LoopEvent.units (ev site .now now) = 0 := rfl

@[simp] theorem units_reserveEvent {now : DateTime} {reserved : Bool} :
    (reserveEvent env index now reserved).units = if reserved then 1 else 0 := by
  cases reserved <;> rfl

theorem GovernorPass.unpriced (h : GovernorPass env index t) : Unpriced t := by
  cases h <;> simp

@[simp] theorem net_reservation {now : DateTime} :
    net (reservation env index decision now) = if grantBacked env decision then 0 else 1 := by
  unfold reservation
  split_ifs <;> simp

@[simp] theorem net_surrender {now : DateTime} :
    net (surrender env index decision now) = if grantBacked env decision then 0 else -1 := by
  unfold surrender
  split_ifs <;> rfl

/-- How the cost of a step compares with what it should be. -/
inductive Balance (env : RunEnv) (t : LoopTrace) (i : StepIndex env.plan) : Prop
  | exact
      (hnet : net (atStep i t) = if attempted t i && rationed env.resumed t i then 1 else 0)
      (hclean : spent env.plan env.registry env.autonomy t i = true → Clean (stepAction env i) t i)
  /-- A unit kept for an effect that was not attempted. -/
  | kept (hattempted : attempted t i = false) (hnet : net (atStep i t) = 1)
      (hspent : spent env.plan env.registry env.autonomy t i = true)
      (hunclean : ¬ Clean (stepAction env i) t i)
  /-- A unit given back for an effect that was. -/
  | returned (hattempted : attempted t i = true) (hrationed : rationed env.resumed t i = true)
      (hnet : net (atStep i t) = 0) (hspent : spent env.plan env.registry env.autonomy t i = true)
      (hunclean : ¬ Clean (stepAction env i) t i)

/-- A turn that executes nothing costs nothing. -/
theorem Balance.of_idle (hidle : Idle index t) (hnet : net t = 0)
    (hspent : spent env.plan env.registry env.autonomy t index = false) : Balance env t index := by
  have hattempted : attempted t index = false := by simp [attempted, hidle.effectless.effects]
  exact .exact (by simp [hidle.site.atStep_eq, hnet, hattempted]) (by simp [hspent])

theorem Unpriced.atStep {i : Nat} (h : Unpriced t) : Unpriced (Control.atStep i t) :=
  fun e he => h e (List.mem_of_mem_filter he)

theorem Balance.of_unpriced (hidle : Idle index t) (hunpriced : Unpriced t) :
    Balance env t index :=
  .of_idle hidle hunpriced.net (by simp [spent_eq, hunpriced.takesUnit])

/-- The gates around the execution of a step: none of their requests is an effect or reads
live state. -/
structure Gates (index : Nat) (t : LoopTrace) : Prop extends Idle index t where
  readless : ∀ e : LoopEvent, e ∈ t → e.reading? = none

theorem Gates.effects_eq_nil {i : Nat} (h : Gates i t) : effects i t = [] := h.effectless.effects

theorem Gates.readings_eq_nil {i : Nat} (h : Gates i t) : readings i t = [] :=
  List.filterMap_eq_nil_iff.mpr fun e he => h.readless e (List.mem_of_mem_filter he)

theorem Gates.append {i : Nat} {t' : LoopTrace} (h : Gates i t) (h' : Gates i t') :
    Gates i (t ++ t') :=
  ⟨⟨allAt_append.mpr ⟨h.site, h'.site⟩, effectless_append.mpr ⟨h.effectless, h'.effectless⟩⟩,
    fun e he => (List.mem_append.mp he).elim (h.readless e) (h'.readless e)⟩

theorem gates_denyTrace {payload : List (String × Value)} {policyId : String} :
    Gates index (denyTrace env (.step index) action payload policyId) :=
  ⟨⟨by simp, by simp⟩, by simp [denyTrace, LoopEvent.reading?]⟩

theorem gates_surrender {now : DateTime} : Gates index (surrender env index decision now) := by
  refine ⟨⟨by simp, by simp⟩, ?_⟩
  unfold surrender
  split_ifs <;> simp [LoopEvent.reading?]

theorem gates_refund {now : DateTime} {unused : Bool} :
    Gates index (if unused then surrender env index decision now else []) := by
  split_ifs
  · exact gates_surrender
  · exact ⟨⟨by simp, by simp⟩, by simp⟩

theorem GovernorPass.gates (h : GovernorPass env index t) :
    Gates index (t ++ [policyEvent env index decision]) := by
  have hsite := h.allAt
  have heffectless := h.effectless
  refine ⟨⟨by simp [hsite], by simp [heffectless]⟩, ?_⟩
  cases h <;> simp [governorEvent, policyEvent, LoopEvent.reading?]

theorem GovernorPass.gates_reserved {now : DateTime} (h : GovernorPass env index t) :
    Gates index (t ++ policyEvent env index decision :: ev (.step index) .now now ::
      reservation env index decision now) := by
  have hsite := h.allAt
  have heffectless := h.effectless
  refine ⟨⟨by simp [hsite], by simp [heffectless]⟩, ?_⟩
  unfold reservation
  cases h <;> split_ifs <;>
    simp [governorEvent, policyEvent, reserveEvent, LoopEvent.reading?]

section Executed

variable {front exec tail : LoopTrace} {turn : Turn env.plan} {d d' : PolicyDecision}
variable (hfront : Gates index front) (htail : Gates index tail)
include hfront htail

theorem Gates.effects_around :
    effects index (front ++ exec ++ tail) = effects index exec := by
  simp [hfront.effects_eq_nil, htail.effects_eq_nil]

theorem Gates.readings_around :
    readings index (front ++ exec ++ tail) = readings index exec := by
  simp [hfront.readings_eq_nil, htail.readings_eq_nil]

theorem Gates.clean_around :
    Clean action (front ++ exec ++ tail) index ↔ Clean action exec index := by
  have heffects : effects index (front ++ exec ++ tail) = _ := hfront.effects_around htail
  have hreadings : readings index (front ++ exec ++ tail) = _ := hfront.readings_around htail
  constructor
  · intro hclean
    obtain ⟨hready, hread, hevidence⟩ := hclean
    exact ⟨hready, hreadings ▸ hread, heffects ▸ hevidence⟩
  · intro hclean
    obtain ⟨hready, hread, hevidence⟩ := hclean
    exact ⟨hready, hreadings.symm ▸ hread, heffects.symm ▸ hevidence⟩

theorem Gates.attempted_around :
    attempted (front ++ exec ++ tail) index = attempted exec index := by
  rw [attempted, hfront.effects_around htail, attempted]

/-- The cost of a turn that executes is the cost of its gates. -/
theorem Gates.net_around (hexec : ExecRun env state index action decision exec turn) :
    net (atStep index (front ++ exec ++ tail)) = net front + net tail := by
  have hnet : net (atStep index exec) = 0 := hexec.unpriced.atStep.net
  simp only [atStep_append, net_append, hfront.site.atStep_eq, htail.site.atStep_eq, hnet]
  omega

theorem Gates.rationed_around (hexec : ExecRun env state index action decision exec turn)
    (hverdict : verdicts front = [(index.val, d)]) (hnone : verdicts tail = []) :
    rationed env.resumed (front ++ exec ++ tail) index = !grantBacked env d := by
  have hatStep : verdicts (atStep index exec) = [] :=
    List.filterMap_eq_nil_iff.mpr fun e he =>
      verdict?_eq_none (hexec.ungated e (List.mem_of_mem_filter he)).1
  simp only [rationed, atStep_append, hfront.site.atStep_eq, htail.site.atStep_eq,
    verdicts_append, hverdict, hnone, hatStep]
  simp [grantBacked, Bool.not_or, bne]

/-- An execution behind a grant takes no unit and is charged none. -/
theorem Balance.of_granted (hexec : ExecRun env state index action decision exec turn)
    (hverdict : verdicts front = [(index.val, d)]) (hnone : verdicts tail = [])
    (hgrant : grantBacked env d = true) (hfree : Unpriced front) (hfree' : Unpriced tail) :
    Balance env (front ++ exec ++ tail) index := by
  have hrationed : rationed env.resumed (front ++ exec ++ tail) index = !grantBacked env d :=
    hfront.rationed_around htail hexec hverdict hnone
  have hunpriced : Unpriced (front ++ exec ++ tail) := by simp [hfree, hfree', hexec.unpriced]
  refine .exact ?_ ?_
  · rw [hunpriced.atStep.net, hrationed, hgrant, Bool.not_true, Bool.and_false]
    rfl
  · rw [spent_eq, hunpriced.takesUnit]
    simp

/-- An execution that took a unit and surrenders it as a no-op is accounted for exactly
when the step is clean. -/
theorem Balance.of_rationed
    (hexec : ExecRun env state index (stepAction env index) decision exec turn)
    (hverdict : verdicts front = [(index.val, d)]) (hnone : verdicts tail = [])
    (hgrant : grantBacked env d = false) (hnet : net front = 1)
    (hnet' : net tail = if turn.outcome?.any lastIsNoOp then -1 else 0)
    (hspent : spent env.plan env.registry env.autonomy (front ++ exec ++ tail) index = true) :
    Balance env (front ++ exec ++ tail) index := by
  have hrationed : rationed env.resumed (front ++ exec ++ tail) index = true := by
    simpa [hgrant] using hfront.rationed_around htail hexec hverdict hnone
  have hcost := hfront.net_around htail hexec
  have hattempted : attempted (front ++ exec ++ tail) index = _ := hfront.attempted_around htail
  have hclean := (hfront.clean_around htail).trans hexec.clean_iff
  rw [hnet, hnet'] at hcost
  rw [← hattempted] at hclean
  -- the refund follows the no-op, the claim on the unit follows the attempt; they agree
  -- exactly on a clean step
  by_cases hc : Clean (stepAction env index) (front ++ exec ++ tail) index
  · refine .exact ?_ fun _ => hc
    rw [hcost, hrationed, Bool.and_true]
    have hcounted := hclean.mp hc
    cases hnoOp : turn.outcome?.any lastIsNoOp <;> simp_all
  · have hcounted := hclean.not.mp hc
    cases hnoOp : turn.outcome?.any lastIsNoOp with
    | true =>
        have hattempted : attempted (front ++ exec ++ tail) index = true := by simp_all
        exact .returned hattempted hrationed (by rw [hcost, hnoOp]; rfl) hspent hc
    | false =>
        have hidle : attempted (front ++ exec ++ tail) index = false := by simp_all
        exact .kept hidle (by rw [hcost, hnoOp]; rfl) hspent hc

end Executed

/-- The step lemma of the accounting. -/
theorem StepRun.balance {turn : Turn env.plan} (h : StepRun env state index t turn) :
    Balance env t index := by
  cases h with
  | skipped => exact .of_unpriced ⟨by simp, by simp⟩ (by simp)
  | refused => exact .of_unpriced ⟨by simp, by simp⟩ (by simp)
  | @passed gate _ _ hvisit hgate hpolicy =>
      have hsite := hgate.allAt
      have heffectless := hgate.effectless
      have hunpriced := hgate.unpriced
      have hverdicts := hgate.verdicts
      cases hpolicy with
      | denied =>
          exact .of_unpriced ⟨by simp [hsite], by simp [heffectless]⟩ (by simp [hunpriced])
      | approvalPaused =>
          exact .of_unpriced ⟨by simp [hsite], by simp [heffectless]⟩ (by simp [hunpriced])
      | @approvalGranted d exec _ _ hresumed hexec =>
          have hbalance : Balance env (gate ++ [policyEvent env index d] ++ exec ++ []) index :=
            .of_granted (d := d) hgate.gates ⟨⟨by simp, by simp⟩, by simp⟩ hexec
              (by simp [hverdicts]) rfl (by simp [grantBacked, hresumed]) (by simp [hunpriced])
              (by simp)
          simpa using hbalance
      | budgetExhausted =>
          exact .of_unpriced ⟨by simp [hsite], by simp [heffectless]⟩ (by simp [hunpriced])
      | @matrixDenied d now _ hmatrix =>
          refine .of_idle ⟨by simp [hsite], by simp [heffectless]⟩ ?_ (by simp [spent_eq, hmatrix])
          -- what the budget gave on the way in, the matrix takes back
          simp only [net_append, net_cons, hunpriced.net, net_reservation, net_surrender,
            unpriced_denyTrace.net, units_policyEvent, units_now]
          split_ifs <;> rfl
      | @escalated d now _ _ _ hescalates =>
          refine .of_idle ⟨by simp [hsite], by simp [heffectless]⟩ ?_
            (by simp [spent_eq, hescalates])
          simp only [net_append, net_cons, hunpriced.net, net_reservation, net_surrender,
            unpriced_pauseTrace.net, units_policyEvent, units_now]
          split_ifs <;> rfl
      | @permitted d now exec turn hd hmatrix hescalates hexec =>
          have hnone : verdicts
              (if turn.outcome?.any lastIsNoOp then surrender env index d now else []) = [] := by
            split_ifs <;> simp
          rw [permitted_eq]
          cases hgrant : grantBacked env d with
          | true =>
              refine .of_granted (d := d) hgate.gates_reserved gates_refund hexec
                (by simp [hverdicts]) hnone hgrant (by simp [hunpriced, reservation, hgrant]) ?_
              split_ifs <;> simp [surrender, hgrant]
          | false =>
              refine .of_rationed (d := d) hgate.gates_reserved gates_refund hexec
                (by simp [hverdicts]) hnone hgrant (by simp [hunpriced.net, hgrant]) ?_ ?_
              · split_ifs <;> simp [hgrant]
              · simp [spent_eq, hmatrix, hescalates, takesUnit, reservation, hgrant, atStep]

/-! ### Whole runs -/

/-- The cost of a step is read off its own requests. -/
theorem Balance.congr {t' : LoopTrace} (hsame : atStep index t = atStep index t')
    (h : Balance env t' index) : Balance env t index := by
  have hattempted : attempted t index = attempted t' index := by
    simp only [attempted, effects, hsame]
  have hrationed : rationed env.resumed t index = rationed env.resumed t' index := by
    simp only [rationed, hsame]
  have hspent : spent env.plan env.registry env.autonomy t index =
      spent env.plan env.registry env.autonomy t' index := by
    simp only [spent_eq, takesUnit, hsame]
  have hclean : Clean (stepAction env index) t index ↔ Clean (stepAction env index) t' index := by
    constructor <;> rintro ⟨hready, hread, hevidence⟩
    · exact ⟨hready, by simpa only [readings, hsame] using hread,
        by simpa only [effects, hsame] using hevidence⟩
    · exact ⟨hready, by simpa only [readings, hsame] using hread,
        by simpa only [effects, hsame] using hevidence⟩
  cases h with
  | exact hnet hcleaned =>
      refine .exact ?_ fun hs => hclean.mpr (hcleaned (hspent ▸ hs))
      rw [hsame, hattempted, hrationed, hnet]
  | kept hidle hnet hs hunclean =>
      exact .kept (hattempted ▸ hidle) (hsame ▸ hnet) (hspent ▸ hs) (hclean.not.mpr hunclean)
  | returned heffect hr hnet hs hunclean =>
      exact .returned (hattempted ▸ heffect) (hrationed ▸ hr) (hsame ▸ hnet) (hspent ▸ hs)
        (hclean.not.mpr hunclean)

theorem LoopRun.balance {indices : List (StepIndex env.plan)} {run : PlanRun}
    (h : LoopRun env indices state t run) (hsorted : indices.Pairwise (· < ·))
    (i : StepIndex env.plan) : Balance env t i := by
  rcases h.atStep hsorted i with hnil | ⟨state', t', turn, hstep, hsame⟩
  · have hsame : Control.atStep i t = Control.atStep i [] := hnil
    exact .congr hsame (.of_unpriced ⟨by simp, by simp⟩ (by simp))
  · exact .congr hsame hstep.balance

/-- A turn asks the budget on behalf of its own step only. -/
theorem StepRun.priced {turn : Turn env.plan} (h : StepRun env state index t turn) :
    ∀ e : LoopEvent, e ∈ t → e.units ≠ 0 → e.op.1 = .step index := by
  intro e he hunits
  cases h.kind with
  | passedOver hidle => exact hidle.site e he
  | paused hidle => exact hidle.site e he
  | executed _ hsplit hfront htail _ _ _ hexec =>
      subst hsplit
      simp only [List.mem_append] at he
      rcases he with (he | he) | he
      · exact hfront.site e he
      · exact absurd (hexec.unpriced e he) hunits
      · exact htail.site e he

theorem LoopRun.priced {indices : List (StepIndex env.plan)} {run : PlanRun}
    (h : LoopRun env indices state t run) :
    ∀ e : LoopEvent, e ∈ t → e.units ≠ 0 → ∃ i : StepIndex env.plan, e.op.1 = .step i := by
  induction h with
  | done => simp
  | next hstep _ ih =>
      intro e he hunits
      rcases List.mem_append.mp he with he | he
      · exact ⟨_, hstep.priced e he hunits⟩
      · exact ih e he hunits
  | stop hstep => exact fun e he hunits => ⟨_, hstep.priced e he hunits⟩

theorem net_atStep_cons {e : LoopEvent} {i : Nat} :
    net (atStep i (e :: t)) = (if e.op.1 = .step i then e.units else 0) + net (atStep i t) := by
  unfold atStep
  rw [List.filter_cons]
  split_ifs <;> simp_all

/-- When units are taken and returned for steps only, the cost of a run is the sum of the
costs of its steps. -/
theorem net_eq_sum {n : Nat}
    (h : ∀ e : LoopEvent, e ∈ t → e.units ≠ 0 → ∃ i : Fin n, e.op.1 = .step i) :
    net t = ∑ i : Fin n, net (atStep i t) := by
  induction t with
  | nil => simp [atStep]
  | cons e t ih =>
      obtain ⟨he, ht⟩ := List.forall_mem_cons.mp h
      have hhead : e.units = ∑ i : Fin n, if e.op.1 = .step i then e.units else 0 := by
        by_cases hunits : e.units = 0
        · simp [hunits]
        · obtain ⟨k, hk⟩ := he hunits
          simp [hk, Fin.val_inj]
      simp only [net_cons, net_atStep_cons, Finset.sum_add_distrib, ← ih ht, ← hhead]

/-- What a run should cost: one unit for each rationed step whose effect was attempted,
and none for a step whose effect was not. -/
structure BudgetExact (plan : Plan) (resumed : Bool) (t : LoopTrace) : Prop where
  total : net t = (Finset.univ.filter fun i : StepIndex plan =>
    attempted t i = true ∧ rationed resumed t i = true).card
  idle : ∀ i : StepIndex plan, attempted t i = false → net (atStep i t) = 0

theorem BudgetExact.of_balance {plan : Plan} {resumed : Bool}
    (hpriced : ∀ e : LoopEvent, e ∈ t → e.units ≠ 0 → ∃ i : StepIndex plan, e.op.1 = .step i)
    (hexact : ∀ i : StepIndex plan,
      net (atStep i t) = if attempted t i && rationed resumed t i then 1 else 0) :
    BudgetExact plan resumed t := by
  refine ⟨?_, fun i hidle => by simp [hexact i, hidle]⟩
  rw [net_eq_sum hpriced, Finset.sum_congr rfl fun i _ => hexact i]
  simp

/-- A run whose steps each balance costs what it should exactly when every step that spent
a unit was clean. -/
theorem budgetExact_iff_clean (env : RunEnv)
    (hbalance : ∀ i : StepIndex env.plan, Balance env t i)
    (hpriced : ∀ e : LoopEvent, e ∈ t → e.units ≠ 0 → ∃ i : StepIndex env.plan, e.op.1 = .step i) :
    BudgetExact env.plan env.resumed t ↔ ∀ i : StepIndex env.plan,
      spent env.plan env.registry env.autonomy t i = true → Clean (stepAction env i) t i := by
  constructor
  · intro hexact i hspent
    obtain ⟨htotal, hidle⟩ := hexact
    by_contra hunclean
    -- no step costs more than it should, and this one costs less
    have hle : ∀ j : StepIndex env.plan,
        net (atStep j t) ≤ if attempted t j && rationed env.resumed t j then 1 else 0 := by
      intro j
      cases hbalance j with
      | exact hnet => exact hnet.le
      | kept hattempted hnet => rw [hidle j hattempted] at hnet; cases hnet
      | returned hattempted hrationed hnet => simp [hattempted, hrationed, hnet]
    have hlt : net (atStep i t) < if attempted t i && rationed env.resumed t i then 1 else 0 := by
      cases hbalance i with
      | exact _ hclean => exact absurd (hclean hspent) hunclean
      | kept hattempted hnet => rw [hidle i hattempted] at hnet; cases hnet
      | returned hattempted hrationed hnet => simp [hattempted, hrationed, hnet]
    have hsum := Finset.sum_lt_sum (fun j _ => hle j) ⟨i, Finset.mem_univ i, hlt⟩
    rw [← net_eq_sum hpriced, htotal] at hsum
    simp at hsum
  · intro hclean
    refine .of_balance hpriced ?_
    intro i
    cases hbalance i with
    | exact hnet => exact hnet
    | kept _ _ hspent hunclean => exact absurd (hclean i hspent) hunclean
    | returned _ _ _ hspent hunclean => exact absurd (hclean i hspent) hunclean

variable {inputs : LoopInputs} {plan : Plan} {resume : Option (List (StepIndex plan))}
variable {run : PlanRun}

/-- **The budget of a run.** A run consumes one unit for each step that was rationed and
attempted its effect, and none for any other, exactly when every step that spent a unit
named the target of its desired-state read and had an executor, its read succeeded, and
its executor did not report the effect as a no-op. -/
theorem budget_exact_iff (h : Runs (runPlan inputs plan resume) t run) :
    BudgetExact plan resume.isSome t ↔ ∀ i : StepIndex plan,
      spent plan inputs.registry inputs.autonomy t i = true →
        Clean (plan.step i).action t i := by
  obtain ⟨correlation, t', hloop, rfl⟩ := runPlan_inv h
  refine budgetExact_iff_clean (runEnv inputs plan resume.isSome correlation) ?_ ?_
  · exact fun i => .congr atStep_announcement (hloop.balance (List.pairwise_lt_finRange _) i)
  · intro e he hunits
    rcases List.mem_append.mp he with he | he
    · simp only [announcement, List.mem_cons, List.not_mem_nil, or_false] at he
      rcases he with rfl | rfl <;> exact absurd rfl hunits
    · exact hloop.priced e he hunits

/-- Willing ports whose live-state read of a service fails. -/
def unreadable : (op : Site × Port) → Unit → LoopReply op × Unit
  | (_, .serviceIsActive _), u => (.error (.unavailable "bus"), u)
  | op, u => (FixedPorts.willing (.allow "bootstrap" "permitted")).answer op u

/-- Willing ports whose executors report every effect as a no-op. -/
def modest : FixedPorts :=
  { FixedPorts.willing (.allow "bootstrap" "permitted") with
    executor := fun _ => .ok alreadyDesired }

/-- A reclaim that a restart would undo. -/
def reclaimPlan : Plan :=
  .ofSteps [⟨reclaimMemory "/sys/fs/cgroup/app", some (restartUnit "app")⟩]

/-- Both ways a run misses its budget: the unit of a restart whose desired-state read
failed stays taken although no effect was attempted, and the unit of a reclaim whose
executor says `already_desired` is given back although its effect ran. -/
theorem budget_missed :
    (∃ t run, Runs (runPlan (.atLevel .l3Assisted) restartPlan none) t run ∧
      attempted t 0 = false ∧ net (atStep 0 t) = 1 ∧ ¬ BudgetExact restartPlan false t) ∧
    ∃ t run, Runs (runPlan (.atLevel .l4Autonomous) reclaimPlan none) t run ∧
      attempted t 0 = true ∧ rationed false t 0 = true ∧ net t = 0 ∧
        ¬ BudgetExact reclaimPlan false t := by
  constructor
  · have hrun := play_runs unreadable (runPlan (.atLevel .l3Assisted) restartPlan none) ()
    generalize ht : (play unreadable _ ()).1 = t at hrun
    have hidle : attempted t 0 = false := by rw [← ht]; decide
    have hnet : net (atStep 0 t) = 1 := by rw [← ht]; decide
    refine ⟨t, _, hrun, hidle, hnet, ?_⟩
    intro hexact
    have hzero := hexact.idle ⟨0, Nat.zero_lt_one⟩ hidle
    exact absurd (hnet.symm.trans hzero) (by decide)
  · have hrun := play_runs modest.answer (runPlan (.atLevel .l4Autonomous) reclaimPlan none) ()
    generalize ht : (play modest.answer _ ()).1 = t at hrun
    have hattempted : attempted t 0 = true := by rw [← ht]; decide +kernel
    have hrationed : rationed false t 0 = true := by rw [← ht]; decide
    have hnet : net t = 0 := by rw [← ht]; decide +kernel
    refine ⟨t, _, hrun, hattempted, hrationed, hnet, ?_⟩
    intro hexact
    have hempty := hnet.symm.trans hexact.total
    rw [eq_comm, Nat.cast_eq_zero, Finset.card_eq_zero, Finset.filter_eq_empty_iff] at hempty
    exact hempty (Finset.mem_univ ⟨0, Nat.zero_lt_one⟩) ⟨hattempted, hrationed⟩

/-- A restart that goes through costs its one unit. -/
theorem budget_exact_iff_restart :
    ∃ t run, Runs (runPlan (.atLevel .l3Assisted) restartPlan none) t run ∧ net t = 1 ∧
      (BudgetExact restartPlan false t ↔ ∀ i : StepIndex restartPlan,
        spent restartPlan .empty .l3Assisted t i = true →
          Clean (restartPlan.step i).action t i) := by
  have hrun := play_runs (FixedPorts.willing (.allow "bootstrap" "permitted")).answer
    (runPlan (.atLevel .l3Assisted) restartPlan none) ()
  exact ⟨_, _, hrun, by decide, budget_exact_iff hrun⟩

end Argus.Control
