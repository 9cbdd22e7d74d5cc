import Argus.Daemon.ControlLedger
import Argus.Daemon.ControlRollback
import Argus.Lib.Pointwise

/-!
# What the ledger of a run tells

The loop records one event for every step it comes to and one for every rollback it tries, in
that order. `Told` and `UndoTold` say what each record tells, by what the ports answered;
`LedgerExact` is the whole trail: nothing else is recorded, nothing twice, and every effect that
was invoked is on record.

A step is recorded as executed when its outcome is `ok` and its evidence is not that of a no-op,
and a rollback when its outcome is `rolled_back`.
-/

namespace Argus

open Interaction Prog

namespace LoopEvent

/-- The record an event writes, and on whose behalf. -/
def recorded? : LoopEvent → Option (Site × ActionEventRecord)
  | ⟨(site, .recordAction record), _⟩ => some (site, record)
  | _ => none

/-- The rollback whose result an event announces, and whether it went through. -/
def undoResult? : LoopEvent → Option (Nat × Bool)
  | ⟨(site, .publish eventType _), _⟩ =>
      match site with
      | .rollback i =>
          if eventType = "action.rolled.back" then some (i, true)
          else if eventType = "action.rollback.failed" then some (i, false)
          else none
      | _ => none
  | _ => none

end LoopEvent

namespace Control

variable {env : RunEnv} {state : LoopState env.plan} {index : StepIndex env.plan}
  {action : Action} {decision : PolicyDecision} {t : LoopTrace} {site : Site}

/-! ### The trail -/

/-- The records of a run, in order. -/
def trail (t : LoopTrace) : List (Site × ActionEventRecord) := t.filterMap LoopEvent.recorded?

/-- The rollbacks a run tried, in order, and whether each went through. -/
def undoResults (t : LoopTrace) : List (Nat × Bool) := t.filterMap LoopEvent.undoResult?

/-- The steps a run came to, in the order of the plan. -/
def visited (plan : Plan) (t : LoopTrace) : List (StepIndex plan) :=
  (List.finRange plan.steps.length).filter fun i => !(atStep i t).isEmpty

@[simp] theorem trail_nil : trail [] = [] := rfl

@[simp] theorem trail_append {t' : LoopTrace} : trail (t ++ t') = trail t ++ trail t' :=
  List.filterMap_append ..

@[simp] theorem trail_recordAction {record : ActionEventRecord} {u : Unit} :
    trail (ev site (.recordAction record) u :: t) = (site, record) :: trail t := rfl

/-- Only `recordAction` writes a record. -/
theorem trail_cons_of_ne {e : LoopEvent} (h : e.recorded? = none) : trail (e :: t) = trail t :=
  List.filterMap_cons_none h

@[simp] theorem trail_publish {eventType : String} {payload : Value} {u : Unit} :
    trail (ev site (.publish eventType payload) u :: t) = trail t := rfl

@[simp] theorem trail_newUuid {token : Uuid} : trail (ev site .newUuid token :: t) = trail t := rfl

@[simp] theorem trail_now {now : DateTime} : trail (ev site .now now :: t) = trail t := rfl

@[simp] theorem trail_governorEvent {answer : GovernanceDecision} :
    trail (governorEvent env index answer :: t) = trail t := rfl

@[simp] theorem trail_policyEvent : trail (policyEvent env index decision :: t) = trail t := rfl

@[simp] theorem trail_reserveEvent {now : DateTime} {reserved : Bool} :
    trail (reserveEvent env index now reserved :: t) = trail t := rfl

@[simp] theorem trail_reservation {now : DateTime} :
    trail (reservation env index decision now) = [] := by
  unfold reservation
  split_ifs <;> rfl

@[simp] theorem trail_surrender {now : DateTime} :
    trail (surrender env index decision now) = [] := by
  unfold surrender
  split_ifs <;> rfl

@[simp] theorem undoResults_nil : undoResults [] = [] := rfl

@[simp] theorem undoResults_append {t' : LoopTrace} :
    undoResults (t ++ t') = undoResults t ++ undoResults t' := List.filterMap_append ..

@[simp] theorem undoResults_step {i : Nat} {port : Port} {reply : port.Reply} :
    undoResults (ev (.step i) port reply :: t) = undoResults t := by
  cases port <;> rfl

theorem undoResults_eq_nil (h : ∀ e : LoopEvent, e ∈ t → ∀ i, e.op.1 ≠ .rollback i) :
    undoResults t = [] := by
  refine List.filterMap_eq_nil_iff.mpr ?_
  rintro ⟨⟨site, port⟩, reply⟩ he
  cases site with
  | rollback i => exact absurd rfl (h _ he i)
  | _ => cases port <;> rfl

theorem AllAt.undoResults (h : AllAt site t) (hsite : ∀ i, site ≠ .rollback i) :
    Control.undoResults t = [] :=
  undoResults_eq_nil fun e he i hi => hsite i ((h e he).symm.trans hi)

theorem GovernorPass.trail (h : GovernorPass env index t) : Control.trail t = [] := by
  cases h <;> rfl

/-- A read records nothing. -/
theorem ReadRun.trail {r : Except String Bool} (h : ReadRun site action t r) :
    Control.trail t = [] := by
  cases h with
  | @read e _ _ _ hreading =>
      refine trail_cons_of_ne ?_
      unfold LoopEvent.reading? at hreading
      split at hreading <;> first | rfl | cases hreading
  | unnamed => rfl

theorem DesiredRun.trail {r : Except String Bool} (h : DesiredRun site action t r) :
    Control.trail t = [] := by
  cases h with
  | unchecked => rfl
  | compared _ hread => exact hread.trail
  | unreadable _ hread => exact hread.trail

theorem recorded?_of_effect {e : LoopEvent} {r : Except String Value} (h : e.effect? = some r) :
    e.recorded? = none := by
  unfold LoopEvent.effect? at h
  split at h <;> first | rfl | cases h

theorem EffectRun.trail {r : Except String Value} (h : EffectRun site action t r) :
    Control.trail t = [] := by
  cases h with
  | invoked _ _ heffect => exact trail_cons_of_ne (recorded?_of_effect heffect)
  | rejected => rfl

/-- The payload of a validation is not the evidence of a no-op. -/
theorem validationEvent_ne (capability : CapabilityId) (unit : String) (expected observed : Bool)
    (contextHash : String) :
    (validationEvent capability unit expected observed contextHash).2 ≠ alreadyDesired := by
  unfold validationEvent alreadyDesired
  split_ifs <;> simp

theorem trail_validateStep {validation : Option Value}
    (h : Runs (validateStep env site action) t validation) :
    trail t = [] ∧ validation ≠ some alreadyDesired := by
  unfold validateStep at h
  split at h
  case h_1 =>
    obtain ⟨reads, reading, t₂, hread, hpublish, rfl⟩ := runs_bind.mp h
    have hreads := (observeTarget_inv hread).trail
    cases reading with
    | error msg =>
        obtain ⟨⟨⟩, -, ⟨rfl, rfl⟩, rfl⟩ := hpublish
        simp [hreads]
    | ok observed =>
        obtain ⟨⟨⟩, -, ⟨rfl, rfl⟩, rfl⟩ := hpublish
        exact ⟨by simp [hreads], fun h => validationEvent_ne _ _ _ _ _ (Option.some.inj h)⟩
  case h_2 =>
    obtain ⟨rfl, rfl⟩ := h
    simp

/-! ### What a record tells -/

/-- The outcome an effect is recorded with. -/
def outcomeOf : Site → Except String Value → String
  | .rollback _, .ok _ => outcomeRolledBack
  | _, .ok _ => outcomeOk
  | _, .error _ => outcomeFailed

/-- Every effect of `t` has its record. -/
def Complete (t : LoopTrace) : Prop :=
  ∀ e : LoopEvent, e ∈ t → ∀ r, e.effect? = some r →
    ∃ record, (e.op.1, record) ∈ trail t ∧ record.outcome = outcomeOf e.op.1 r

theorem Complete.append {t' : LoopTrace} (h : Complete t) (h' : Complete t') :
    Complete (t ++ t') := by
  intro e he r hr
  rcases List.mem_append.mp he with he | he
  · obtain ⟨record, hrecord, houtcome⟩ := h e he r hr
    exact ⟨record, by simp [hrecord], houtcome⟩
  · obtain ⟨record, hrecord, houtcome⟩ := h' e he r hr
    exact ⟨record, by simp [hrecord], houtcome⟩

theorem Effectless.complete (h : Effectless t) : Complete t := by
  intro e he r hr
  rw [h e he] at hr
  cases hr

/-- The action the site stands for was performed. -/
def Performed (plan : Plan) (site : Site) (t : LoopTrace) : Prop :=
  ∃ e : LoopEvent, e ∈ t ∧ e.op.1 = site ∧
    (∃ action, actionAt plan site = some action ∧ CarriesOut action e.op.2) ∧
    ∃ evidence, e.effect? = some (.ok evidence)

theorem Performed.mono {plan : Plan} {t' : LoopTrace} (hsub : t ⊆ t')
    (h : Performed plan site t) : Performed plan site t' := by
  obtain ⟨e, he, hperformed⟩ := h
  exact ⟨e, hsub he, hperformed⟩

/-- What the record of a rollback tells. -/
structure UndoTold (env : RunEnv) (t : LoopTrace) (tried : Nat × Bool)
    (entry : Site × ActionEventRecord) : Prop where
  site : entry.1 = .rollback tried.1
  record : ∃ (index : StepIndex env.plan) (rollback : Action), index.val = tried.1 ∧
    (env.plan.step index).rollback = some rollback ∧
    entry.2 = rollbackRecord env rollback (if tried.2 then outcomeRolledBack else outcomeFailed)
  performed : tried.2 = true → Performed env.plan entry.1 t

theorem UndoTold.mono {t' : LoopTrace} (hsub : t ⊆ t') {tried : Nat × Bool}
    {entry : Site × ActionEventRecord} (h : UndoTold env t tried entry) :
    UndoTold env t' tried entry :=
  ⟨h.site, h.record, fun hdone => (h.performed hdone).mono hsub⟩

theorem EffectRun.undoResults {r : Except String Value} {i : Nat}
    (h : EffectRun (.rollback i) action t r) : Control.undoResults t = [] := by
  cases h with
  | @invoked e _ _ _ heffect =>
      refine List.filterMap_cons_none ?_
      unfold LoopEvent.effect? at heffect
      unfold LoopEvent.undoResult?
      split at heffect <;> first | rfl | cases heffect
  | rejected => rfl

/-- An effect that is followed by its record is on record. -/
theorem EffectRun.complete {effect rest : LoopTrace} {r : Except String Value}
    (h : EffectRun site action effect r) (hrest : Complete rest)
    (hrecorded : ∃ record, (site, record) ∈ Control.trail rest ∧
      record.outcome = outcomeOf site r) : Complete (effect ++ rest) := by
  obtain ⟨record, hrecord, houtcome⟩ := hrecorded
  intro e he r' hr'
  rcases List.mem_append.mp he with he | he
  · cases h with
    | invoked _ hsite heffect =>
        obtain rfl := List.mem_singleton.mp he
        obtain rfl : r' = r := Option.some.inj (hr'.symm.trans heffect)
        rw [hsite, trail_append]
        exact ⟨record, List.mem_append_right _ hrecord, houtcome⟩
    | rejected => cases he
  · obtain ⟨record', hrecord', houtcome'⟩ := hrest e he r' hr'
    exact ⟨record', by simp [hrecord'], houtcome'⟩

/-- The walk records each rollback it tries once, and the effect it made. -/
theorem WalkRun.told {order : List (StepIndex env.plan)} {status : PlanStatus}
    (h : WalkRun env order t status) :
    List.Forall₂ (UndoTold env t) (Control.undoResults t) (Control.trail t) ∧ Complete t := by
  induction h with
  | done => exact ⟨.nil, Effectless.complete (by simp)⟩
  | noRollback => exact ⟨.nil, Effectless.complete (by simp)⟩
  | @undone index rest rollback effect t evidence status hsome heffect _ ih =>
      obtain ⟨htold, hcomplete⟩ := ih
      have hresult : Control.undoResults (effect ++
          ev (.rollback index) (.publish "action.rolled.back" evidence) () ::
          ev (.rollback index) (.recordAction (rollbackRecord env rollback outcomeRolledBack)) () ::
            t) = (index.val, true) :: Control.undoResults t := by
        rw [undoResults_append, heffect.undoResults]
        rfl
      have hperformed : Performed env.plan (.rollback index) effect := by
        cases heffect with
        | invoked _ hsite heffect hcarries =>
            exact ⟨_, List.mem_singleton_self _, hsite,
              ⟨rollback, (actionAt_rollback env.plan index).trans hsome, hcarries⟩,
              evidence, heffect⟩
      rw [hresult, trail_append, heffect.trail]
      refine ⟨.cons ⟨rfl, ⟨index, rollback, rfl, hsome, rfl⟩, fun _ => ?_⟩ ?_, ?_⟩
      · exact hperformed.mono (List.subset_append_left _ _)
      · refine htold.imp fun tried entry => UndoTold.mono ?_
        intro e he
        simp [he]
      · have hrest : Complete (ev (.rollback index) (.publish "action.rolled.back" evidence) () ::
            ev (.rollback index) (.recordAction (rollbackRecord env rollback outcomeRolledBack))
              () :: t) :=
          Complete.append (t := [_, _]) (Effectless.complete (by simp)) hcomplete
        exact heffect.complete hrest ⟨_, List.mem_cons_self .., rfl⟩
  | @stuck index rest rollback effect msg hsome heffect =>
      rw [undoResults_append, trail_append, heffect.undoResults, heffect.trail]
      refine ⟨.cons ⟨rfl, ⟨index, rollback, rfl, hsome, rfl⟩, fun hdone => nomatch hdone⟩ .nil, ?_⟩
      exact heffect.complete (Effectless.complete (by simp)) ⟨_, List.mem_cons_self .., rfl⟩

theorem UndoRun.told {outcome : ExecutionOutcome} (h : UndoRun env state t outcome) :
    List.Forall₂ (UndoTold env t) (Control.undoResults t) (Control.trail t) ∧ Complete t := by
  cases h with
  | nothing => exact ⟨.nil, Effectless.complete (by simp)⟩
  | @walked t _ _ hwalk =>
      obtain ⟨htold, hcomplete⟩ := hwalk.told
      refine ⟨htold.imp fun tried entry => UndoTold.mono (List.subset_cons_self ..), ?_⟩
      exact Complete.append (t := [_]) (Effectless.complete (by simp)) hcomplete

/-! ### What the record of a step tells -/

/-- Why a step was parked, by the policy its record names. -/
inductive Parking (env : RunEnv) (index : StepIndex env.plan) (t : LoopTrace) : String → Prop
  | approval {d : PolicyDecision} (hverdicts : verdicts t = [(index.val, d)])
      (hd : d.outcome = .requireApproval) (hfresh : env.resumed = false) :
      Parking env index t d.policyId
  | exhausted {d : PolicyDecision} {now : DateTime} (hverdicts : verdicts t = [(index.val, d)])
      (hd : d.outcome = .allow) (hreserve : reserveEvent env index now false ∈ t) :
      Parking env index t "budget.exhausted"
  | escalated {d : PolicyDecision} (hverdicts : verdicts t = [(index.val, d)])
      (hd : d.outcome = .allow)
      (hescalates : escalates env index (stepAction env index) (stepRisk env index) = true) :
      Parking env index t d.policyId

/-- The verdict a step was executed under: policy's own, where the matrix and the escalation
decision let it pass, or the grant behind a resumed run. -/
inductive Authority (env : RunEnv) (index : StepIndex env.plan) (t : LoopTrace) :
    PolicyDecision → Prop
  | allowed {d : PolicyDecision} (hverdicts : verdicts t = [(index.val, d)])
      (hd : d.outcome = .allow)
      (hmatrix : mayExecuteWithoutApproval env.autonomy (stepRisk env index) = true)
      (hescalates : escalates env index (stepAction env index) (stepRisk env index) = false) :
      Authority env index t d
  | granted {d : PolicyDecision} (hverdicts : verdicts t = [(index.val, d)])
      (hd : d.outcome = .requireApproval) (hresumed : env.resumed = true) :
      Authority env index t granted

/-- What the record of a step tells about the requests `t` made for it. -/
inductive Told (env : RunEnv) (index : StepIndex env.plan) (t : LoopTrace) :
    ActionEventRecord → Prop
  | denied {policyId : String} (hwhy : Denial env index t policyId)
      (heffects : effects index t = []) :
      Told env index t (actionEvent (stepAction env index) env.correlation verdictDeny
        (some policyId) outcomeDenied none)
  | parked {policyId : String} (hwhy : Parking env index t policyId)
      (heffects : effects index t = []) :
      Told env index t (actionEvent (stepAction env index) env.correlation
        verdictRequiresApproval (some policyId) outcomeAwaitingApproval none)
  /-- The step was found in its desired state, and nothing was done. -/
  | noOp {d : PolicyDecision} (hauthority : Authority env index t d)
      (heffects : effects index t = []) :
      Told env index t (okRecord env (stepAction env index) d (some alreadyDesired))
  | executed {d : PolicyDecision} {evidence : Value} {validation : Option Value}
      (hauthority : Authority env index t d) (heffects : effects index t = [.ok evidence])
      (hvalidation : validation ≠ some alreadyDesired) :
      Told env index t (okRecord env (stepAction env index) d validation)
  /-- The effect failed, or a read before it, or nothing could carry it out. -/
  | failed {d : PolicyDecision} (hauthority : Authority env index t d)
      (heffects : ∀ evidence, .ok evidence ∉ effects index t)
      (hrough : ¬ Smooth (stepAction env index) t index) :
      Told env index t (actionEvent (stepAction env index) env.correlation verdictAllow
        (some d.policyId) outcomeFailed none)

/-- A turn as the trail tells it: the record of its step, and those of the rollbacks behind it. -/
inductive TurnTold (env : RunEnv) (index : StepIndex env.plan) (t : LoopTrace) :
    Turn env.plan → Prop
  | skipped {turn : Turn env.plan} (hquiet : t = []) : TurnTold env index t turn
  | recorded {turn : Turn env.plan} {record : ActionEventRecord}
      {undone : List (Site × ActionEventRecord)}
      (htrail : trail t = (.step index, record) :: undone) (htold : Told env index t record)
      (hundo : List.Forall₂ (UndoTold env t) (undoResults t) undone)
      (hgoes : ∀ state', turn = .next state' → undone = []) (hcomplete : Complete t) :
      TurnTold env index t turn

/-- A turn that goes no further than its gates. -/
theorem TurnTold.of_idle {turn : Turn env.plan} {record : ActionEventRecord}
    (hidle : Idle index t) (htrail : trail t = [(.step index, record)])
    (htold : Told env index t record) : TurnTold env index t turn := by
  refine .recorded htrail htold ?_ (fun _ _ => rfl) hidle.effectless.complete
  rw [hidle.site.undoResults (by simp)]
  exact .nil

@[simp] theorem trail_failTrace {msg : String} :
    trail (failTrace env site action decision msg) = [(site, actionEvent action env.correlation
      verdictAllow (some decision.policyId) outcomeFailed none)] := rfl

/-- A failed step records its failure, and then what was undone. -/
theorem UndoRun.told_behind {front walk : LoopTrace} {outcome : ExecutionOutcome} {msg : String}
    (hwalk : UndoRun env state walk outcome) (hfront : AllAt (.step index) front) :
    List.Forall₂
      (UndoTold env (front ++ failTrace env (.step index) action decision msg ++ walk))
      (Control.undoResults (front ++ failTrace env (.step index) action decision msg ++ walk))
      (Control.trail walk) := by
  have hall : AllAt (.step index) (front ++ failTrace env (.step index) action decision msg) := by
    simp [hfront, quietAt_failTrace.allAt]
  have hnone : Control.undoResults (front ++ failTrace env (.step index) action decision msg) =
      [] := hall.undoResults (by simp)
  rw [undoResults_append, hnone, List.nil_append]
  exact hwalk.told.1.imp fun tried entry => UndoTold.mono (List.subset_append_right _ _)

/-- A step that passed its gates records how it went, and then what was undone. -/
theorem ExecRun.told {exec : LoopTrace} {turn : Turn env.plan}
    (h : ExecRun env state index (stepAction env index) decision exec turn)
    (hauthority : Authority env index t decision)
    (heffects : Control.effects index t = Control.effects index exec)
    (hreadings : Control.readings index t = Control.readings index exec) :
    ∃ record undone, Control.trail exec = (.step index, record) :: undone ∧
      Told env index t record ∧
      List.Forall₂ (UndoTold env exec) (Control.undoResults exec) undone ∧
      (∀ state', turn = .next state' → undone = []) ∧ Complete exec := by
  have hrough (hledger : ¬ Smooth (stepAction env index) exec index) :
      ¬ Smooth (stepAction env index) t index :=
    fun hsmooth => hledger (hsmooth.congr hreadings.symm heffects.symm)
  have hnotSmooth (outcome : ExecutionOutcome) (hstop : turn = .stop (.finished outcome)) :
      ¬ Smooth (stepAction env index) exec index := by
    rcases h.ledger with ⟨state', rfl, -⟩ | ⟨_, -, hnot, -⟩
    · cases hstop
    · exact hnot
  cases h with
  | @noOp reads hread =>
      have hreads := hread.quiet
      refine ⟨_, [], by simp [hread.trail], .noOp hauthority ?_, ?_, fun _ _ => rfl, ?_⟩
      · simp [heffects, hreads.effectless.effects]
      · rw [undoResults_append, hreads.allAt.undoResults (by simp)]
        exact .nil
      · exact hreads.effectless.complete.append (Effectless.complete (by simp))
  | @executed reads effect checks evidence validation hread heffect hcheck =>
      have hreads := hread.quiet
      have hchecks := validateStep_quiet hcheck
      obtain ⟨hnone, hvalidation⟩ := trail_validateStep hcheck
      have hinvokes : invokes (stepAction env index) = true := by cases heffect; assumption
      have hone : Control.effects index t = [.ok evidence] := by
        simp [heffects, hreads.effectless.effects, hchecks.effectless.effects, heffect.effects,
          hinvokes]
      refine ⟨_, [], by simp [hread.trail, heffect.trail, hnone],
        .executed hauthority hone hvalidation, ?_, fun _ _ => rfl, ?_⟩
      · have hread' := hreads.allAt.undoResults (by simp)
        have heffect' := heffect.allAt.undoResults (by simp)
        have hchecks' := hchecks.allAt.undoResults (by simp)
        simp [hread', heffect', hchecks']
      · rw [List.append_assoc, List.append_assoc]
        refine hreads.effectless.complete.append (heffect.complete ?_ ?_)
        · exact Effectless.complete (by simp [hchecks.effectless])
        · exact ⟨okRecord env (stepAction env index) decision validation, by simp, rfl⟩
  | @effectFailed reads effect walk msg outcome hread heffect hwalk =>
      have hreads := hread.quiet
      have hfailed : ∀ evidence, .ok evidence ∉ Control.effects index t := by
        intro evidence hevidence
        rw [heffects] at hevidence
        simp only [effects_append, hreads.effectless.effects, heffect.effects,
          effects_failTrace, hwalk.effects, List.append_nil, List.nil_append] at hevidence
        split_ifs at hevidence <;> simp at hevidence
      refine ⟨_, Control.trail walk, by simp [hread.trail, heffect.trail],
        .failed hauthority hfailed (hrough ?_), ?_, by simp, ?_⟩
      · exact hnotSmooth _ rfl
      · exact hwalk.told_behind (by simp [hreads.allAt, heffect.allAt])
      · rw [List.append_assoc, List.append_assoc]
        refine hreads.effectless.complete.append
          (heffect.complete ?_ ⟨_, List.mem_cons_self .., rfl⟩)
        exact Complete.append (Effectless.complete (by simp [failTrace])) hwalk.told.2
  | @readFailed reads walk msg outcome hread hwalk =>
      have hreads := hread.quiet
      refine ⟨_, Control.trail walk, by simp [hread.trail],
        .failed hauthority ?_ (hrough ?_), ?_, by simp, ?_⟩
      · simp [heffects, hreads.effectless.effects, hwalk.effects]
      · exact hnotSmooth _ rfl
      · exact hwalk.told_behind hreads.allAt
      · refine Complete.append (Effectless.complete ?_) hwalk.told.2
        simp [hreads.effectless, failTrace]

/-- The gates around an execution record nothing, so the turn tells what the execution told. -/
theorem TurnTold.of_exec {front exec tail : LoopTrace} {turn : Turn env.plan}
    (hfront : Gates index front) (htail : Gates index tail) (hfrontTrail : trail front = [])
    (htailTrail : trail tail = [])
    (hauthority : Authority env index (front ++ exec ++ tail) decision)
    (hexec : ExecRun env state index (stepAction env index) decision exec turn) :
    TurnTold env index (front ++ exec ++ tail) turn := by
  obtain ⟨record, undone, htrail, htold, hundo, hgoes, hcomplete⟩ :=
    hexec.told hauthority (hfront.effects_around htail) (hfront.readings_around htail)
  refine .recorded (by simp [hfrontTrail, htailTrail, htrail]) htold ?_ hgoes ?_
  · rw [undoResults_append, undoResults_append, hfront.site.undoResults (by simp),
      htail.site.undoResults (by simp), List.nil_append, List.append_nil]
    refine hundo.imp fun tried entry => UndoTold.mono fun e he => ?_
    simp [he]
  · exact (hfront.effectless.complete.append hcomplete).append htail.effectless.complete

@[simp] theorem trail_denyTrace {payload : List (String × Value)} {policyId : String} :
    trail (denyTrace env site action payload policyId) = [(site, actionEvent action
      env.correlation verdictDeny (some policyId) outcomeDenied none)] := rfl

@[simp] theorem trail_pauseTrace {policyId : String} {token : Uuid} :
    trail (pauseTrace env site action policyId token) = [(site, actionEvent action
      env.correlation verdictRequiresApproval (some policyId) outcomeAwaitingApproval none)] := rfl

/-- The step lemma: a turn records its step once, and each rollback behind it. -/
theorem StepRun.told {turn : Turn env.plan} (h : StepRun env state index t turn) :
    TurnTold env index t turn := by
  have hdenied {t : LoopTrace} {turn : Turn env.plan} {policyId : String} (hidle : Idle index t)
      (hwhy : Denial env index t policyId)
      (htrail : Control.trail t = [(.step index, actionEvent (stepAction env index) env.correlation
        verdictDeny (some policyId) outcomeDenied none)]) : TurnTold env index t turn :=
    .of_idle hidle htrail (.denied hwhy hidle.effectless.effects)
  have hparked {t : LoopTrace} {turn : Turn env.plan} {policyId : String} (hidle : Idle index t)
      (hwhy : Parking env index t policyId)
      (htrail : Control.trail t = [(.step index, actionEvent (stepAction env index) env.correlation
        verdictRequiresApproval (some policyId) outcomeAwaitingApproval none)]) :
      TurnTold env index t turn :=
    .of_idle hidle htrail (.parked hwhy hidle.effectless.effects)
  cases h with
  | skipped => exact .skipped rfl
  | @refused why =>
      exact hdenied ⟨by simp, by simp⟩
        (.governor why (by simp [quietAt_denyTrace.rulings]) (by simp)) (by simp)
  | @passed gate t _ _ hgate hpolicy =>
      have hsite := hgate.allAt
      have heffectless := hgate.effectless
      have hverdicts := hgate.verdicts
      cases hpolicy with
      | denied hd =>
          exact hdenied ⟨by simp [hsite], by simp [heffectless]⟩
            (.policy (by simp [hverdicts]) hd) (by simp [hgate.trail])
      | approvalPaused hd hfresh =>
          exact hparked ⟨by simp [hsite], by simp [heffectless]⟩
            (.approval (by simp [hverdicts]) hd hfresh) (by simp [hgate.trail])
      | budgetExhausted hd =>
          exact hparked ⟨by simp [hsite], by simp [heffectless]⟩
            (.exhausted (by simp [hverdicts]) hd
              (List.mem_append_right _ (.tail _ (.tail _ (.head _))))) (by simp [hgate.trail])
      | matrixDenied hd hmatrix =>
          exact hdenied ⟨by simp [hsite], by simp [heffectless]⟩
            (.matrix (by simp [hverdicts]) hd hmatrix) (by simp [hgate.trail])
      | escalated hd _ hescalates =>
          exact hparked ⟨by simp [hsite], by simp [heffectless]⟩
            (.escalated (by simp [hverdicts]) hd hescalates) (by simp [hgate.trail])
      | @approvalGranted d exec _ hd hresumed hexec =>
          have htold : TurnTold env index (gate ++ [policyEvent env index d] ++ exec ++ []) _ :=
            .of_exec hgate.gates ⟨⟨by simp, by simp⟩, by simp⟩ (by simp [hgate.trail]) rfl
              (.granted (by simp [hverdicts, hexec.verdicts]) hd hresumed) hexec
          simpa using htold
      | @permitted d now exec turn hd hmatrix hescalates hexec =>
          rw [permitted_eq]
          refine .of_exec hgate.gates_reserved gates_refund (by simp [hgate.trail]) ?_
            (.allowed ?_ hd hmatrix hescalates) hexec
          · split_ifs <;> simp
          · split_ifs <;> simp [hverdicts, hexec.verdicts]

/-! ### The requests of one step -/

@[simp] theorem atStep_atStep {i : Nat} : atStep i (atStep i t) = atStep i t := by
  simp [atStep]

theorem effects_atStep {i : Nat} : effects i (atStep i t) = effects i t := by simp [effects]

/-- What is read off the requests of one step only is read off its view. -/
theorem filterMap_atStep {β : Type} {i : Nat} {f : LoopEvent → Option β}
    (h : ∀ e : LoopEvent, e ∈ t → f e ≠ none → e.op.1 = .step i) :
    (atStep i t).filterMap f = t.filterMap f := by
  induction t with
  | nil => rfl
  | cons e t ih =>
      obtain ⟨he, ht⟩ := List.forall_mem_cons.mp h
      unfold atStep at ih ⊢
      by_cases hsite : e.op.1 = .step i
      · rw [List.filter_cons_of_pos (by simpa using hsite), List.filterMap_cons,
          List.filterMap_cons, ih ht]
      · have hnone : f e = none := by_contra fun hsome => hsite (he hsome)
        rw [List.filter_cons_of_neg (by simpa using hsite), List.filterMap_cons_none hnone, ih ht]

theorem OnlyStep.verdicts {i : Nat} (h : OnlyStep i t) :
    Control.verdicts (atStep i t) = Control.verdicts t := by
  refine filterMap_atStep fun e he hsome => ?_
  obtain ⟨⟨site, port⟩, reply⟩ := e
  cases port <;> cases site <;> first | exact absurd rfl hsome | exact congrArg _ (h _ he _ rfl)

theorem OnlyStep.rulings {i : Nat} (h : OnlyStep i t) :
    Control.rulings (atStep i t) = Control.rulings t := by
  refine filterMap_atStep fun e he hsome => ?_
  obtain ⟨⟨site, port⟩, reply⟩ := e
  cases port <;> cases site <;> first | exact absurd rfl hsome | exact congrArg _ (h _ he _ rfl)

/-- A record tells of the requests of its step alone. -/
theorem Told.view {record : ActionEventRecord} (h : Told env index t record)
    (honly : OnlyStep index t) : Told env index (atStep index t) record := by
  have hverdicts : verdicts (atStep index t) = verdicts t := honly.verdicts
  have hrulings : rulings (atStep index t) = rulings t := honly.rulings
  have heffects : effects index (atStep index t) = effects index t := effects_atStep
  have hreadings : readings index (atStep index t) = readings index t := by simp [readings]
  have hauthority {d : PolicyDecision} (h : Authority env index t d) :
      Authority env index (atStep index t) d := by
    cases h with
    | allowed hv hd hmatrix hescalates => exact .allowed (hverdicts.trans hv) hd hmatrix hescalates
    | granted hv hd hresumed => exact .granted (hverdicts.trans hv) hd hresumed
  cases h with
  | denied hwhy hnone =>
      refine .denied ?_ (heffects.trans hnone)
      cases hwhy with
      | governor why hr hv => exact .governor why (hrulings.trans hr) (hverdicts.trans hv)
      | policy hv hd => exact .policy (hverdicts.trans hv) hd
      | matrix hv hd hmatrix => exact .matrix (hverdicts.trans hv) hd hmatrix
  | parked hwhy hnone =>
      refine .parked ?_ (heffects.trans hnone)
      cases hwhy with
      | approval hv hd hfresh => exact .approval (hverdicts.trans hv) hd hfresh
      | exhausted hv hd hreserve =>
          exact .exhausted (hverdicts.trans hv) hd (List.mem_filter.mpr ⟨hreserve, by simp⟩)
      | escalated hv hd hescalates => exact .escalated (hverdicts.trans hv) hd hescalates
  | noOp ha hnone => exact .noOp (hauthority ha) (heffects.trans hnone)
  | executed ha hone hvalidation =>
      exact .executed (hauthority ha) (heffects.trans hone) hvalidation
  | failed ha hnone hrough =>
      refine .failed (hauthority ha) (heffects ▸ hnone) fun hsmooth => hrough ?_
      exact hsmooth.congr hreadings.symm heffects.symm

/-! ### Whole runs -/

/-- What the trail says about a step the run came to. -/
structure StepTold (env : RunEnv) (t : LoopTrace) (index : StepIndex env.plan)
    (entry : Site × ActionEventRecord) : Prop where
  site : entry.1 = .step index
  told : Told env index (atStep index t) entry.2

/-- The record says that the effect was performed: `ok` without the evidence of a no-op, or
`rolled_back`. -/
def RecordedExecuted (record : ActionEventRecord) : Prop :=
  record.outcome = outcomeOk ∧ record.validation ≠ some alreadyDesired ∨
    record.outcome = outcomeRolledBack

/-- The trail of the steps `indices` of a run: a record for each of them that the run came to,
and then one for each rollback it tried. -/
def TrailOf (env : RunEnv) (indices : List (StepIndex env.plan)) (t : LoopTrace) : Prop :=
  ∃ steps undone, trail t = steps ++ undone ∧
    List.Forall₂ (StepTold env t) (indices.filter fun i => !(atStep i t).isEmpty) steps ∧
    List.Forall₂ (UndoTold env t) (undoResults t) undone

theorem mem_of_mem_trail {entry : Site × ActionEventRecord} (h : entry ∈ trail t) :
    ∃ e : LoopEvent, e ∈ t ∧ e.op.1 = entry.1 := by
  obtain ⟨e, he, hrecorded⟩ := List.mem_filterMap.mp h
  refine ⟨e, he, ?_⟩
  unfold LoopEvent.recorded? at hrecorded
  split at hrecorded <;> cases hrecorded
  rfl

/-- A turn that recorded its step made requests for it. -/
theorem atStep_ne_nil_of_trail {record : ActionEventRecord}
    {undone : List (Site × ActionEventRecord)}
    (h : trail t = (.step index, record) :: undone) : atStep index t ≠ [] := by
  obtain ⟨e, he, hsite⟩ := mem_of_mem_trail (h ▸ List.mem_cons_self ..)
  exact List.ne_nil_of_mem (List.mem_filter.mpr ⟨he, by simpa using hsite⟩)

/-- The records of the later steps tell the same in the longer run. -/
theorem StepTold.later {t' : LoopTrace} {rest : List (StepIndex env.plan)}
    {steps : List (Site × ActionEventRecord)}
    (hsame : ∀ i : StepIndex env.plan, i ∈ rest → Control.atStep i t' = Control.atStep i t)
    (h : List.Forall₂ (StepTold env t) (rest.filter fun i => !(Control.atStep i t).isEmpty)
      steps) :
    List.Forall₂ (StepTold env t') (rest.filter fun i => !(Control.atStep i t').isEmpty) steps := by
  have hfilter : (rest.filter fun i : StepIndex env.plan => !(Control.atStep i t').isEmpty) =
      rest.filter fun i : StepIndex env.plan => !(Control.atStep i t).isEmpty :=
    List.filter_congr fun i hi => by rw [hsame i hi]
  rw [hfilter]
  have hmem := (List.forall₂_and_left (p := (· ∈ rest)) _ _).mpr
    ⟨fun i hi => List.mem_of_mem_filter hi, h⟩
  refine hmem.imp fun i entry hentry => ?_
  obtain ⟨hi, hsite, htold⟩ := hentry
  exact ⟨hsite, by rw [hsame i hi]; exact htold⟩

theorem LoopRun.told {indices : List (StepIndex env.plan)} {run : PlanRun}
    (h : LoopRun env indices state t run) (hsorted : indices.Pairwise (· < ·)) :
    TrailOf env indices t ∧ Complete t := by
  induction h with
  | done => exact ⟨⟨[], [], rfl, .nil, .nil⟩, Effectless.complete (by simp)⟩
  | @next index rest state state' t t' run hstep hrest ih =>
      obtain ⟨hhead, hrestSorted⟩ := List.pairwise_cons.mp hsorted
      obtain ⟨⟨steps, undone, htrail, hsteps, hundone⟩, hcomplete⟩ := ih hrestSorted
      have hquiet : Control.atStep index t' = [] := by
        refine List.filter_eq_nil_iff.mpr fun e he hsite => ?_
        exact absurd (hhead index (hrest.site_mem e he index (by simpa using hsite))) (lt_irrefl _)
      have hother : ∀ i : StepIndex env.plan, i ∈ rest →
          Control.atStep i (t ++ t') = Control.atStep i t' := by
        intro i hi
        rw [atStep_append, hstep.onlyStep.atStep_eq_nil (Fin.val_ne_of_ne (hhead i hi).ne'),
          List.nil_append]
      have hlater := StepTold.later hother hsteps
      have hundo : List.Forall₂ (UndoTold env (t ++ t')) (Control.undoResults t') undone :=
        hundone.imp fun tried entry => UndoTold.mono (List.subset_append_right t t')
      cases hstep.told with
      | skipped hnil =>
          subst hnil
          refine ⟨⟨steps, undone, htrail, ?_, hundo⟩, hcomplete⟩
          rw [List.filter_cons_of_neg (by simp [hquiet])]
          exact hlater
      | @recorded record _ hrecord htold hresults hgoes hdone =>
          obtain rfl := hgoes state' rfl
          have hnone : Control.undoResults t = [] := List.forall₂_nil_right_iff.mp hresults
          refine ⟨⟨(.step index, record) :: steps, undone, ?_, ?_, ?_⟩, hdone.append hcomplete⟩
          · rw [trail_append, hrecord, htrail]
            rfl
          · have hview : Control.atStep index (t ++ t') = Control.atStep index t := by
              rw [atStep_append, hquiet, List.append_nil]
            rw [List.filter_cons_of_pos (by simp [hview, atStep_ne_nil_of_trail hrecord])]
            refine .cons ⟨rfl, ?_⟩ hlater
            rw [hview]
            exact htold.view hstep.onlyStep
          · rw [undoResults_append, hnone, List.nil_append]
            exact hundo
  | @stop index rest state t run hstep =>
      obtain ⟨hhead, -⟩ := List.pairwise_cons.mp hsorted
      have hnoLater :
          (rest.filter fun i : StepIndex env.plan => !(Control.atStep i t).isEmpty) = [] := by
        refine List.filter_eq_nil_iff.mpr fun i hi => ?_
        rw [hstep.onlyStep.atStep_eq_nil (Fin.val_ne_of_ne (hhead i hi).ne')]
        simp
      cases hstep.told with
      | skipped hnil =>
          subst hnil
          exact ⟨⟨[], [], rfl, by simp [Control.atStep], .nil⟩, Effectless.complete (by simp)⟩
      | @recorded record undone hrecord htold hresults _ hdone =>
          refine ⟨⟨[(.step index, record)], undone, hrecord, ?_, hresults⟩, hdone⟩
          rw [List.filter_cons_of_pos (by simp [atStep_ne_nil_of_trail hrecord]), hnoLater]
          exact .cons ⟨rfl, htold.view hstep.onlyStep⟩ .nil

theorem performed_of_effects {plan : Plan} {i : Nat} {evidence : Value}
    (hown : ∀ e ∈ t, Own plan e.op) (h : .ok evidence ∈ effects i t) :
    Performed plan (.step i) t := by
  obtain ⟨e, he, heffect⟩ := List.mem_filterMap.mp h
  obtain ⟨he, hsite⟩ := List.mem_filter.mp he
  have hsite : e.op.1 = .step i := by simpa using hsite
  have hcarries := (hown e he).carriesOut (by rw [heffect]; rfl)
  exact ⟨e, he, hsite, hsite ▸ hcarries, evidence, heffect⟩

/-- A step recorded as executed was. -/
theorem StepTold.performed {entry : Site × ActionEventRecord} (h : StepTold env t index entry)
    (hown : ∀ e ∈ t, Own env.plan e.op) (hexecuted : RecordedExecuted entry.2) :
    Performed env.plan entry.1 t := by
  obtain ⟨hsite, htold⟩ := h
  rw [hsite]
  generalize entry.2 = record at htold hexecuted
  unfold RecordedExecuted at hexecuted
  cases htold with
  | denied => simp [actionEvent, outcomeDenied, outcomeOk, outcomeRolledBack] at hexecuted
  | parked => simp [actionEvent, outcomeAwaitingApproval, outcomeOk, outcomeRolledBack] at hexecuted
  | noOp => simp [okRecord, actionEvent, outcomeOk, outcomeRolledBack] at hexecuted
  | @executed _ evidence _ _ heffects =>
      rw [effects_atStep] at heffects
      exact performed_of_effects hown (heffects ▸ List.mem_singleton_self (Except.ok evidence))
  | failed => simp [actionEvent, outcomeFailed, outcomeOk, outcomeRolledBack] at hexecuted

/-- A rollback recorded as executed was. -/
theorem UndoTold.performed_of_recorded {tried : Nat × Bool} {entry : Site × ActionEventRecord}
    (h : UndoTold env t tried entry) (hexecuted : RecordedExecuted entry.2) :
    Performed env.plan entry.1 t := by
  obtain ⟨index, rollback, -, -, hrecord⟩ := h.record
  rw [hrecord] at hexecuted
  cases hdone : tried.2 with
  | true => exact h.performed hdone
  | false =>
      simp [RecordedExecuted, hdone, rollbackRecord, actionEvent, outcomeFailed, outcomeOk,
        outcomeRolledBack] at hexecuted

theorem TrailOf.performed {indices : List (StepIndex env.plan)} (h : TrailOf env indices t)
    (hown : ∀ e ∈ t, Own env.plan e.op) {entry : Site × ActionEventRecord}
    (hentry : entry ∈ trail t) (hexecuted : RecordedExecuted entry.2) :
    Performed env.plan entry.1 t := by
  obtain ⟨steps, undone, htrail, hsteps, hundone⟩ := h
  rw [htrail] at hentry
  rcases List.mem_append.mp hentry with hentry | hentry
  · exact Pointwise.forall_of_forall₂ hsteps (fun _ _ htold => htold.performed hown) entry hentry
      hexecuted
  · exact Pointwise.forall_of_forall₂ hundone (fun _ _ htold => htold.performed_of_recorded)
      entry hentry hexecuted

/-- The ledger tells exactly what happened in the run `t`. -/
structure LedgerExact (env : RunEnv) (t : LoopTrace) : Prop where
  /-- One record for every step the run came to, in the order of the plan, and then one for
  every rollback it tried. -/
  told : ∃ steps undone, trail t = steps ++ undone ∧
    List.Forall₂ (StepTold env t) (visited env.plan t) steps ∧
    List.Forall₂ (UndoTold env t) (undoResults t) undone
  /-- No effect is missing. -/
  complete : Complete t
  /-- None is made up. -/
  performed : ∀ entry ∈ trail t, RecordedExecuted entry.2 → Performed env.plan entry.1 t
  /-- Every effect is that of the step or the rollback it is recorded for. -/
  own : ∀ e ∈ t, Own env.plan e.op

/-- In every run of a plan, first or resumed, the ledger tells exactly what happened. -/
theorem ledger_exact {inputs : LoopInputs} {plan : Plan} {resume : Option (List (StepIndex plan))}
    {run : PlanRun} (h : Runs (runPlan inputs plan resume) t run) :
    ∃ correlation, LedgerExact (runEnv inputs plan resume.isSome correlation) t := by
  have hown := (runPlan_own inputs plan resume).of_runs h
  obtain ⟨correlation, t', hloop, rfl⟩ := runPlan_inv h
  obtain ⟨hloopTrail, hloopComplete⟩ := hloop.told (List.pairwise_lt_finRange _)
  have htrail : TrailOf (runEnv inputs plan resume.isSome correlation)
      (List.finRange plan.steps.length) (announcement plan correlation ++ t') := by
    obtain ⟨steps, undone, htrail, hsteps, hundone⟩ := hloopTrail
    refine ⟨steps, undone, htrail, StepTold.later (fun _ _ => atStep_announcement) hsteps, ?_⟩
    exact hundone.imp fun tried entry =>
      UndoTold.mono (List.subset_append_right (announcement plan correlation) t')
  refine ⟨correlation, htrail, ?_, fun entry => htrail.performed hown, hown⟩
  exact Complete.append (Effectless.complete (by simp [announcement, LoopEvent.effect?]))
    hloopComplete

/-- A run whose second step fails leaves three records: two steps and a rollback. -/
theorem ledger_exact_reversiblePair :
    ∃ t run, Runs (runPlan (.atLevel .l3Assisted) reversiblePair none) t run ∧
      (trail t).map (fun entry => (entry.1, entry.2.outcome)) =
        [(.step 0, outcomeOk), (.step 1, outcomeFailed), (.rollback 0, outcomeRolledBack)] ∧
      ∃ correlation,
        LedgerExact (runEnv (.atLevel .l3Assisted) reversiblePair false correlation) t :=
  have hrun := play_runs secondFails.answer
    (runPlan (.atLevel .l3Assisted) reversiblePair none) ()
  ⟨_, _, hrun, by decide, ledger_exact hrun⟩

end Control
end Argus
