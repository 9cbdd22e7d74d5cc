import Argus.Daemon.ControlAccounting

/-!
# The ledger of a run

The loop writes at most one ledger record for each step it comes to, and the record says
how the step went. `Entry` lists the ways a turn can go as the ledger tells them, each with
what the ports answered on the way (`StepRun.entry`): a step the gates let through is
recorded as `ok` or as `failed`, and it fails exactly when it is not `Smooth`.
-/

namespace Argus

open Interaction Prog

namespace LoopEvent

/-- The step and the answer of a governance decision. -/
def ruling? : LoopEvent → Option (Nat × GovernanceDecision)
  | ⟨(.step i, .governorEvaluate _), answer⟩ => some (i, answer)
  | _ => none

/-- What an event records in the ledger: the outcome, and the policy it names. -/
def entry? : LoopEvent → Option (String × Option String)
  | ⟨(_, .recordAction record), _⟩ => some (record.outcome, record.policyId)
  | _ => none

end LoopEvent

namespace Control

variable {env : RunEnv} {state : LoopState env.plan} {index : StepIndex env.plan}
variable {action : Action} {decision : PolicyDecision} {t : LoopTrace}

/-! ### Rulings -/

/-- What the governor answered in a run, and about which steps. -/
def rulings (t : LoopTrace) : List (Nat × GovernanceDecision) := t.filterMap LoopEvent.ruling?

@[simp] theorem rulings_nil : rulings [] = [] := rfl

@[simp] theorem rulings_append {t' : LoopTrace} : rulings (t ++ t') = rulings t ++ rulings t' :=
  List.filterMap_append ..

@[simp] theorem rulings_governorEvent {answer : GovernanceDecision} :
    rulings (governorEvent env index answer :: t) = (index.val, answer) :: rulings t := rfl

theorem ruling?_eq_none {e : LoopEvent} (h : e.op.2.isGate = false) : e.ruling? = none := by
  obtain ⟨⟨site, port⟩, reply⟩ := e
  cases port <;> first | (cases site <;> rfl) | cases h

theorem rulings_eq_nil (h : ∀ e : LoopEvent, e ∈ t → e.op.2.isGate = false) : rulings t = [] :=
  List.filterMap_eq_nil_iff.mpr fun e he => ruling?_eq_none (h e he)

theorem QuietAt.rulings {site : Site} (h : QuietAt site t) : Control.rulings t = [] :=
  rulings_eq_nil fun e he => (h e he).2.2

/-- Past the governor policy is asked first, and after it neither is asked again. -/
theorem PolicyRun.front {turn : Turn env.plan} (h : PolicyRun env state index t turn) :
    ∃ d rest, t = policyEvent env index d :: rest ∧ verdicts rest = [] ∧ rulings rest = [] := by
  have hnow {now : DateTime} {t : LoopTrace} :
      rulings (ev (.step index) .now now :: t) = rulings t := rfl
  have hreserve {now : DateTime} {reserved : Bool} {t : LoopTrace} :
      rulings (reserveEvent env index now reserved :: t) = rulings t := rfl
  have hreservation {d : PolicyDecision} {now : DateTime} :
      rulings (reservation env index d now) = [] := by
    unfold reservation
    split_ifs <;> rfl
  have hsurrender {d : PolicyDecision} {now : DateTime} :
      rulings (surrender env index d now) = [] := by
    unfold surrender
    split_ifs <;> rfl
  have hexecRulings {action : Action} {d : PolicyDecision} {t : LoopTrace} {turn : Turn env.plan}
      (h : ExecRun env state index action d t turn) : rulings t = [] :=
    rulings_eq_nil fun e he => (h.ungated e he).1
  cases h with
  | denied => exact ⟨_, _, rfl, by simp, quietAt_denyTrace.rulings⟩
  | approvalPaused => exact ⟨_, _, rfl, by simp, quietAt_pauseTrace.rulings⟩
  | approvalGranted _ _ hexec => exact ⟨_, _, rfl, hexec.verdicts, hexecRulings hexec⟩
  | budgetExhausted =>
      exact ⟨_, _, rfl, by simp, by rw [hnow, hreserve, quietAt_pauseTrace.rulings]⟩
  | matrixDenied =>
      refine ⟨_, _, rfl, by simp, ?_⟩
      simp [hnow, hreservation, hsurrender, quietAt_denyTrace.rulings]
  | escalated =>
      refine ⟨_, _, rfl, by simp, ?_⟩
      simp [hnow, hreservation, hsurrender, quietAt_pauseTrace.rulings]
  | permitted _ _ _ hexec =>
      refine ⟨_, _, rfl, ?_, ?_⟩
      · split_ifs <;> simp [hexec.verdicts]
      · split_ifs <;> simp [hnow, hreservation, hsurrender, hexecRulings hexec]

theorem PolicyRun.rulings {turn : Turn env.plan} (h : PolicyRun env state index t turn) :
    Control.rulings t = [] := by
  obtain ⟨d, rest, rfl, -, hrest⟩ := h.front
  exact hrest

/-- What an event asks of the governor or of policy, if anything, is about step `index`. -/
structure AsksAbout (env : RunEnv) (index : StepIndex env.plan) (e : LoopEvent) : Prop where
  ruling : ∀ i answer, e.ruling? = some (i, answer) → e = governorEvent env index answer
  verdict : ∀ i d, e.verdict? = some (i, d) → e = policyEvent env index d

theorem asksAbout_governorEvent {answer : GovernanceDecision} :
    AsksAbout env index (governorEvent env index answer) := by
  constructor <;> simp [governorEvent, LoopEvent.ruling?, LoopEvent.verdict?]

theorem asksAbout_policyEvent : AsksAbout env index (policyEvent env index decision) := by
  constructor <;> simp [policyEvent, LoopEvent.ruling?, LoopEvent.verdict?]

/-- An event of a trace without rulings and verdicts is neither. -/
theorem asksAbout_of_mem {e : LoopEvent} (hrulings : rulings t = []) (hverdicts : verdicts t = [])
    (he : e ∈ t) : AsksAbout env index e := by
  have hruling := List.filterMap_eq_nil_iff.mp hrulings e he
  have hverdict := List.filterMap_eq_nil_iff.mp hverdicts e he
  constructor <;> simp [hruling, hverdict]

theorem StepRun.asksAbout {turn : Turn env.plan} (h : StepRun env state index t turn)
    {e : LoopEvent} (he : e ∈ t) : AsksAbout env index e := by
  cases h with
  | skipped => cases he
  | refused =>
      rcases List.mem_cons.mp he with rfl | he
      · exact asksAbout_governorEvent
      · exact asksAbout_of_mem quietAt_denyTrace.rulings (by simp) he
  | passed _ hgate hpolicy =>
      obtain ⟨d, rest, rfl, hverdicts, hrulings⟩ := hpolicy.front
      rcases List.mem_append.mp he with he | he
      · cases hgate with
        | ungoverned => cases he
        | allowed =>
            obtain rfl := List.mem_singleton.mp he
            exact asksAbout_governorEvent
      · rcases List.mem_cons.mp he with rfl | he
        · exact asksAbout_policyEvent
        · exact asksAbout_of_mem hrulings hverdicts he

/-- The governor is asked about its own families only. -/
theorem StepRun.governed_of_ruling {turn : Turn env.plan} (h : StepRun env state index t turn)
    {ruling : Nat × GovernanceDecision} (hruling : ruling ∈ rulings t) :
    governed (stepAction env index).capability env.governedPrefixes = true := by
  cases h with
  | skipped => cases hruling
  | refused _ hgoverned => exact hgoverned
  | passed _ hgate hpolicy =>
      rw [rulings_append, hpolicy.rulings, List.append_nil] at hruling
      cases hgate with
      | ungoverned => cases hruling
      | allowed hgoverned => exact hgoverned

/-! ### Ledger entries -/

/-- What the ledger of a run says about step `j`: outcomes, and the policies they name. -/
def ledger (j : Nat) (t : LoopTrace) : List (String × Option String) :=
  (atStep j t).filterMap LoopEvent.entry?

@[simp] theorem ledger_nil {j : Nat} : ledger j [] = [] := rfl

@[simp] theorem ledger_append {j : Nat} {t' : LoopTrace} :
    ledger j (t ++ t') = ledger j t ++ ledger j t' := by
  simp [ledger]

@[simp] theorem ledger_recordAction {j : Nat} {record : ActionEventRecord} {u : Unit} :
    ledger j (ev (.step j) (.recordAction record) u :: t) =
      (record.outcome, record.policyId) :: ledger j t := by
  simp [ledger, atStep, LoopEvent.entry?]

/-- Only `recordAction` writes to the ledger. -/
theorem ledger_cons_of_ne {j : Nat} {e : LoopEvent}
    (h : ∀ record, e.op.2 ≠ .recordAction record) : ledger j (e :: t) = ledger j t := by
  obtain ⟨⟨site, port⟩, reply⟩ := e
  have hentry : LoopEvent.entry? ⟨(site, port), reply⟩ = none := by
    cases port <;> first | rfl | exact absurd rfl (h _)
  unfold ledger atStep
  by_cases hsite : site = .step j
  · rw [List.filter_cons_of_pos (by simpa using hsite), List.filterMap_cons_none hentry]
  · rw [List.filter_cons_of_neg (by simpa using hsite)]

theorem ledger_eq_nil {j : Nat} (h : atStep j t = []) : ledger j t = [] := by
  simp [ledger, h]

theorem atStep_ne_nil_of_mem_ledger {j : Nat} {entry : String × Option String}
    (h : entry ∈ ledger j t) : atStep j t ≠ [] := by
  intro hnil
  simp [ledger_eq_nil hnil] at h

/-- The ledger entries of a step are those of its turn. -/
theorem TurnAt.ledger_eq {run : PlanRun} {j : StepIndex env.plan} {before : LoopState env.plan}
    {reqs : LoopTrace} {turn : Turn env.plan} (h : TurnAt env t run j before reqs turn) :
    ledger j t = ledger j reqs := by
  simp [ledger, h.same]

@[simp] theorem ledger_publish {j : Nat} {site : Site} {eventType : String} {payload : Value}
    {u : Unit} : ledger j (ev site (.publish eventType payload) u :: t) = ledger j t :=
  ledger_cons_of_ne (by simp)

@[simp] theorem ledger_newUuid {j : Nat} {site : Site} {token : Uuid} :
    ledger j (ev site .newUuid token :: t) = ledger j t := ledger_cons_of_ne (by simp)

@[simp] theorem ledger_now {j : Nat} {site : Site} {now : DateTime} :
    ledger j (ev site .now now :: t) = ledger j t := ledger_cons_of_ne (by simp)

@[simp] theorem ledger_governorEvent {j : Nat} {answer : GovernanceDecision} :
    ledger j (governorEvent env index answer :: t) = ledger j t :=
  ledger_cons_of_ne (by simp [governorEvent])

@[simp] theorem ledger_policyEvent {j : Nat} :
    ledger j (policyEvent env index decision :: t) = ledger j t :=
  ledger_cons_of_ne (by simp [policyEvent])

@[simp] theorem ledger_reserveEvent {j : Nat} {now : DateTime} {reserved : Bool} :
    ledger j (reserveEvent env index now reserved :: t) = ledger j t :=
  ledger_cons_of_ne (by simp [reserveEvent])

@[simp] theorem ledger_reservation {j : Nat} {now : DateTime} :
    ledger j (reservation env index decision now) = [] := by
  unfold reservation
  split_ifs <;> simp

@[simp] theorem ledger_surrender {j : Nat} {now : DateTime} :
    ledger j (surrender env index decision now) = [] := by
  unfold surrender
  split_ifs
  · rfl
  · exact ledger_cons_of_ne (by simp)

@[simp] theorem ledger_denyTrace {payload : List (String × Value)} {policyId : String} :
    ledger index (denyTrace env (.step index) action payload policyId) =
      [(outcomeDenied, some policyId)] := by
  simp [denyTrace, actionEvent]

@[simp] theorem ledger_pauseTrace {policyId : String} {token : Uuid} :
    ledger index (pauseTrace env (.step index) action policyId token) =
      [(outcomeAwaitingApproval, some policyId)] := by
  simp [pauseTrace, actionEvent]

@[simp] theorem ledger_failTrace {msg : String} :
    ledger index (failTrace env (.step index) action decision msg) =
      [(outcomeFailed, some decision.policyId)] := by
  simp [failTrace, actionEvent]

theorem DesiredRun.ledger {site : Site} {j : Nat} {r : Except String Bool}
    (h : DesiredRun site action t r) : Control.ledger j t = [] := by
  have hread {t : LoopTrace} {r : Except String Bool} (h : ReadRun site action t r) :
      Control.ledger j t = [] := by
    cases h with
    | @read e _ _ _ hreading =>
        refine ledger_cons_of_ne ?_
        intro record hop
        obtain ⟨⟨site, port⟩, reply⟩ := e
        obtain rfl : port = _ := hop
        cases hreading
    | unnamed => rfl
  cases h with
  | unchecked => rfl
  | compared _ h => exact hread h
  | unreadable _ h => exact hread h

theorem EffectRun.ledger {site : Site} {j : Nat} {r : Except String Value}
    (h : EffectRun site action t r) : Control.ledger j t = [] := by
  cases h with
  | @invoked e _ _ _ heffect =>
      refine ledger_cons_of_ne ?_
      intro record hop
      obtain ⟨⟨site, port⟩, reply⟩ := e
      obtain rfl : port = _ := hop
      cases heffect
  | rejected => rfl

/-! ### Steps that fail -/

/-- The execution of a step met no obstacle: the loop can carry it out, and no read and no
effect answered with an error. -/
structure Smooth (action : Action) (t : LoopTrace) (i : Nat) : Prop where
  ready : ready action = true
  read : ∀ msg, .error msg ∉ readings i t
  effect : ∀ msg, .error msg ∉ effects i t

theorem Smooth.congr {t' : LoopTrace} {i : Nat} (h : Smooth action t i)
    (hreadings : readings i t' = readings i t) (heffects : effects i t' = effects i t) :
    Smooth action t' i := ⟨h.ready, hreadings ▸ h.read, heffects ▸ h.effect⟩

/-- A step that passed its gates is recorded as `ok` when the run goes on, and as `failed`
when it ends there, and the latter happens when it was not smooth. -/
theorem ExecRun.ledger {turn : Turn env.plan}
    (h : ExecRun env state index action decision t turn) :
    (∃ state', turn = .next state' ∧ Smooth action t index ∧
      Control.ledger index t = [(outcomeOk, some decision.policyId)]) ∨
    ∃ outcome, turn = .stop (.finished outcome) ∧ ¬ Smooth action t index ∧
      Control.ledger index t = [(outcomeFailed, some decision.policyId)] := by
  cases h with
  | noOp hread =>
      obtain ⟨hreadings, htarget, hinvokes⟩ := hread.of_ok
      refine .inl ⟨_, rfl, ⟨?_, by simpa using hreadings, ?_⟩, ?_⟩
      · simp [ready, htarget, hinvokes rfl]
      · simp [hread.quiet.effectless.effects]
      · simp [hread.ledger, okRecord, actionEvent]
  | executed hread heffect hcheck =>
      obtain ⟨hreadings, htarget, -⟩ := hread.of_ok
      have hchecks := validateStep_quiet hcheck
      have hinvokes : invokes action = true := by cases heffect; assumption
      have hledger := ledger_eq_nil (hchecks.allAt.atStep_eq_nil (i := index) (by simp))
      refine .inl ⟨_, rfl, ⟨by simp [ready, htarget, hinvokes], ?_, ?_⟩, ?_⟩
      · simpa [heffect.readings, hchecks.allAt.readings_eq_nil] using hreadings
      · simp [heffect.effects, hinvokes, hread.quiet.effectless.effects, hchecks.effectless.effects]
      · simp [hread.ledger, heffect.ledger, hledger, okRecord, actionEvent]
  | @effectFailed _ _ _ msg _ hread heffect hwalk =>
      -- without an executor there is no effect to fail, but then the action is not ready
      refine .inr ⟨_, rfl, ?_, ?_⟩
      · intro hsmooth
        have hinvokes : invokes action = true := (Bool.and_eq_true_iff.mp hsmooth.ready).2
        exact hsmooth.effect msg (by simp [heffect.effects, hinvokes])
      · simp [hread.ledger, heffect.ledger, ledger_eq_nil hwalk.atStep_eq_nil]
  | @readFailed _ _ msg _ hread hwalk =>
      refine .inr ⟨_, rfl, ?_, ?_⟩
      · intro hsmooth
        rcases hread.of_error with hunnamed | herror
        · simpa [ready, hunnamed] using hsmooth.ready
        · exact hsmooth.read msg (by simp [herror])
      · simp [hread.ledger, ledger_eq_nil hwalk.atStep_eq_nil]

/-! ### How a turn went -/

/-- The gates let the step through with the verdict `decision`. -/
structure LetThrough (env : RunEnv) (index : StepIndex env.plan) (t : LoopTrace)
    (decision : PolicyDecision) : Prop where
  /-- The governor allowed the step, if it gates the capability's family. -/
  allowed : governed (stepAction env index).capability env.governedPrefixes = true →
    ∃ reason, (index.val, .allowed reason) ∈ rulings t
  unrefused : ∀ ruling ∈ rulings t, ruling.2.isAllowed = true
  verdicts : verdicts t = [(index.val, decision)]
  outcome : decision.outcome ≠ .deny

/-- Why a step was denied, by the policy its ledger record names. -/
inductive Denial (env : RunEnv) (index : StepIndex env.plan) (t : LoopTrace) : String → Prop
  | governor (why : Refusal) (hrulings : rulings t = [(index.val, .refused why)])
      (hverdicts : verdicts t = []) : Denial env index t "governor"
  | policy {d : PolicyDecision} (hverdicts : verdicts t = [(index.val, d)])
      (hd : d.outcome = .deny) : Denial env index t d.policyId
  | matrix {d : PolicyDecision} (hverdicts : verdicts t = [(index.val, d)])
      (hd : d.outcome = .allow)
      (hmatrix : mayExecuteWithoutApproval env.autonomy (stepRisk env index) = false) :
      Denial env index t "autonomy.matrix"

/-- A turn as the ledger tells it. -/
inductive Entry (env : RunEnv) (state : LoopState env.plan) (index : StepIndex env.plan)
    (t : LoopTrace) : Turn env.plan → Prop
  | skipped (hmem : index ∈ state.executed) (hquiet : t = []) :
      Entry env state index t (.next state)
  | denied {policyId : String} {state' : LoopState env.plan} (hwhy : Denial env index t policyId)
      (hledger : ledger index t = [(outcomeDenied, some policyId)])
      (hreadings : readings index t = []) (heffects : effects index t = []) :
      Entry env state index t (.next state')
  | paused {token : Uuid} {d : PolicyDecision} (policyId : String)
      (hpass : LetThrough env index t d)
      (hledger : ledger index t = [(outcomeAwaitingApproval, some policyId)])
      (hescalates : env.resumed = true → escalationBounded env.autonomy = true) :
      Entry env state index t (.stop (.paused (parked env state.executed token)))
  | done {state' : LoopState env.plan} {d : PolicyDecision} {policyId : String}
      (hpass : LetThrough env index t d)
      (hproceeds : proceeds env.autonomy (stepRisk env index) d = true)
      (hledger : ledger index t = [(outcomeOk, some policyId)])
      (hsmooth : Smooth (stepAction env index) t index) : Entry env state index t (.next state')
  | failed {outcome : ExecutionOutcome} {d : PolicyDecision} {policyId : String}
      (hpass : LetThrough env index t d)
      (hproceeds : proceeds env.autonomy (stepRisk env index) d = true)
      (hledger : ledger index t = [(outcomeFailed, some policyId)])
      (hrough : ¬ Smooth (stepAction env index) t index) :
      Entry env state index t (.stop (.finished outcome))

/-- The entry of a turn that executes its step with the requests `exec`. -/
theorem ExecRun.entry {exec : LoopTrace} {d : PolicyDecision} {turn : Turn env.plan}
    (h : ExecRun env state index (stepAction env index) decision exec turn)
    (hpass : LetThrough env index t d)
    (hproceeds : proceeds env.autonomy (stepRisk env index) d = true)
    (hledger : Control.ledger index t = Control.ledger index exec)
    (hreadings : Control.readings index t = Control.readings index exec)
    (heffects : Control.effects index t = Control.effects index exec) :
    Entry env state index t turn := by
  rcases h.ledger with ⟨state', rfl, hsmooth, hexec⟩ | ⟨outcome, rfl, hrough, hexec⟩
  · exact .done hpass hproceeds (hledger.trans hexec) (hsmooth.congr hreadings heffects)
  · refine .failed hpass hproceeds (hledger.trans hexec) fun hsmooth => hrough ?_
    exact hsmooth.congr hreadings.symm heffects.symm

theorem GovernorPass.ledger {j : Nat} (h : GovernorPass env index t) :
    Control.ledger j t = [] := by
  cases h <;> simp

theorem GovernorPass.rulings (h : GovernorPass env index t) :
    (governed (stepAction env index).capability env.governedPrefixes = true →
      ∃ reason, (index.val, .allowed reason) ∈ Control.rulings t) ∧
        ∀ ruling ∈ Control.rulings t, ruling.2.isAllowed = true := by
  cases h with
  | ungoverned h => simp [h]
  | @allowed reason _ => simp [GovernanceDecision.isAllowed]

/-- The step lemma: every turn leaves one of the entries. -/
theorem StepRun.entry {turn : Turn env.plan} (h : StepRun env state index t turn) :
    Entry env state index t turn := by
  cases h with
  | skipped _ hmem => exact .skipped hmem rfl
  | @refused why =>
      have hgates : Gates index [governorEvent env index (.refused why)] :=
        ⟨⟨by simp, by simp⟩, by simp [governorEvent, LoopEvent.reading?]⟩
      exact .denied (.governor why (by simp [quietAt_denyTrace.rulings]) (by simp)) (by simp)
        (hgates.append gates_denyTrace).readings_eq_nil
        (hgates.append gates_denyTrace).effects_eq_nil
  | @passed gate t _ _ hgate hpolicy =>
      have hverdicts := hgate.verdicts
      have hrulings : Control.rulings (gate ++ t) = Control.rulings gate := by
        simp [hpolicy.rulings]
      have hpass (d : PolicyDecision) (hv : verdicts t = [(index.val, d)])
          (hd : d.outcome ≠ .deny) : LetThrough env index (gate ++ t) d :=
        ⟨hrulings ▸ hgate.rulings.1, hrulings ▸ hgate.rulings.2, by simp [hverdicts, hv], hd⟩
      cases hpolicy with
      | @denied d hd =>
          have hgates : Gates index (gate ++ [policyEvent env index d] ++
              denyTrace env (.step index) (stepAction env index) [] d.policyId) :=
            hgate.gates.append gates_denyTrace
          exact .denied (.policy (by simp [hverdicts]) hd) (by simp [hgate.ledger])
            (by simpa using hgates.readings_eq_nil) (by simpa using hgates.effects_eq_nil)
      | @approvalPaused d _ hd hfresh =>
          exact .paused d.policyId (hpass d (by simp) (by simp [hd])) (by simp [hgate.ledger])
            (by simp [hfresh])
      | @approvalGranted d exec _ hd _ hexec =>
          have hfront : Gates index (gate ++ [policyEvent env index d]) := hgate.gates
          have hsplit : gate ++ policyEvent env index d :: exec =
              gate ++ [policyEvent env index d] ++ exec := by simp
          exact hexec.entry (hpass d (by simp [hexec.verdicts]) (by simp [hd]))
            (by simp [proceeds, hd]) (by simp [hgate.ledger])
            (by rw [hsplit, readings_append, hfront.readings_eq_nil, List.nil_append])
            (by rw [hsplit, effects_append, hfront.effects_eq_nil, List.nil_append])
      | @budgetExhausted d _ _ hd hrationed =>
          refine .paused "budget.exhausted" (hpass d (by simp) (by simp [hd]))
            (by simp [hgate.ledger]) ?_
          -- a resumed run is grant-backed and never comes here
          intro hresumed
          simp [grantBacked, hresumed] at hrationed
      | @matrixDenied d now hd hmatrix =>
          have hgates : Gates index (gate ++ policyEvent env index d :: ev (.step index) .now now ::
              reservation env index d now ++ surrender env index d now ++
              denyTrace env (.step index) (stepAction env index) [] "autonomy.matrix") :=
            (hgate.gates_reserved.append gates_surrender).append gates_denyTrace
          exact .denied (.matrix (by simp [hverdicts]) hd hmatrix) (by simp [hgate.ledger])
            (by simpa using hgates.readings_eq_nil) (by simpa using hgates.effects_eq_nil)
      | @escalated d _ _ hd _ hescalates =>
          refine .paused d.policyId (hpass d (by simp) (by simp [hd])) (by simp [hgate.ledger]) ?_
          intro _
          exact (Bool.and_eq_true_iff.mp hescalates).1
      | @permitted d now exec turn hd hmatrix _ hexec =>
          refine hexec.entry (hpass d ?_ (by simp [hd])) (by simp [proceeds, hd, hmatrix]) ?_ ?_ ?_
          · split_ifs <;> simp [hexec.verdicts]
          · split_ifs <;> simp [hgate.ledger]
          · rw [permitted_eq, hgate.gates_reserved.readings_around gates_refund]
          · rw [permitted_eq, hgate.gates_reserved.effects_around gates_refund]

/-- The gates let a step through whose ledger entry does not say `denied`. -/
theorem Entry.letThrough {turn : Turn env.plan} (h : Entry env state index t turn)
    {entry : String × Option String} (hentry : entry ∈ ledger index t)
    (houtcome : entry.1 ≠ outcomeDenied) : ∃ d, LetThrough env index t d := by
  cases h with
  | skipped _ hquiet => simp [hquiet] at hentry
  | denied _ hledger =>
      obtain rfl : entry = _ := by simpa [hledger] using hentry
      exact absurd rfl houtcome
  | paused _ hpass => exact ⟨_, hpass⟩
  | done hpass => exact ⟨_, hpass⟩
  | failed hpass => exact ⟨_, hpass⟩

/-- A step whose ledger entry says `awaiting_approval` is where the run paused. -/
theorem Entry.parked_of_mem {turn : Turn env.plan} (h : Entry env state index t turn)
    {entry : String × Option String} (hentry : entry ∈ ledger index t)
    (houtcome : entry.1 = outcomeAwaitingApproval) :
    ∃ token, turn = .stop (.paused (parked env state.executed token)) := by
  cases h with
  | skipped _ hquiet => simp [hquiet] at hentry
  | denied _ hledger =>
      obtain rfl : entry = _ := by simpa [hledger] using hentry
      simp [outcomeDenied, outcomeAwaitingApproval] at houtcome
  | @paused token => exact ⟨token, rfl⟩
  | done _ _ hledger =>
      obtain rfl : entry = _ := by simpa [hledger] using hentry
      simp [outcomeOk, outcomeAwaitingApproval] at houtcome
  | failed _ _ hledger =>
      obtain rfl : entry = _ := by simpa [hledger] using hentry
      simp [outcomeFailed, outcomeAwaitingApproval] at houtcome

end Control
end Argus
