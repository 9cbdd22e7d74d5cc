import Argus.Daemon.ControlLedger
import Argus.Policy.Bootstrap

/-!
# Running and resuming a remediation

The daemon runs a remediation plan at the level it has earned and resumes a paused one,
after a grant, at L3. Both pass the same gates: the autopilot's governor, which records an
adjustment when it is *asked*, the local remediation policy, and the autonomy matrix.

So the two runs of one plan meet the same governor twice, and the matrix at two levels.
`Timeline` is the governor's history through both runs, with the evaluations of any other
caller in between. `GrantedResume` is a plan that paused, was granted and is resumed before
the grant expires, and `granted_plan_honoured_iff` says exactly when the second run carries
out what the first one was paused at.
-/

namespace Argus

open Interaction Prog Control

/-- Runs a proposed remediation plan. Storing the paused plan and recording how the run
ended come after the loop and are left out. -/
def runRemediation (registry : CapabilityRegistry) (toJson : Value → String) (plan : Plan)
    (autonomy : AutonomyMode) : LoopM RunOutcome :=
  authorizeAndRunWithPorts ⟨registry, autonomy, governedPrefixes, toJson⟩ plan

/-- Resumes a paused remediation plan with a previously granted approval. -/
def resumeRemediation (registry : CapabilityRegistry) (toJson : Value → String)
    (pending : PendingPlan) (approvals : ApprovalStore) : LoopM (ResumeOutcome × ApprovalStore) :=
  resumeAndRunWithPorts ⟨registry, .l3Assisted, governedPrefixes, toJson⟩ pending approvals

/-! ### The governor through a run -/

/-- One request of a run with the governor it met, and the two clock readings of an
evaluation. -/
structure Tick where
  event : LoopEvent
  governor : AutopilotGovernor
  decidedAt : DateTime
  recordedAt : DateTime

namespace Tick

/-- The governor after the request. -/
def after (tick : Tick) : AutopilotGovernor :=
  match tick.event with
  | ⟨(_, .governorEvaluate adjustment), _⟩ =>
      (tick.governor.evaluate adjustment tick.decidedAt tick.recordedAt).2
  | _ => tick.governor

/-- The daemon's governor and its remediation policy answered the request; the other ports
answer as they like. -/
def Answered (tick : Tick) : Prop :=
  match tick.event with
  | ⟨(_, .governorEvaluate adjustment), answer⟩ =>
      answer = (tick.governor.evaluate adjustment tick.decidedAt tick.recordedAt).1
  | ⟨(_, .policyEvaluate authz), decision⟩ =>
      decision = BootstrapPolicyEvaluator.withLocalRemediation.evaluate authz
  | _ => True

/-- The history entry the request left with the governor. -/
def granted? (tick : Tick) : Option (DateTime × String) :=
  match tick.event with
  | ⟨(_, .governorEvaluate adjustment), .allowed _⟩ => some (tick.recordedAt, adjustment.subject)
  | _ => none

theorem after_sameRules (tick : Tick) : tick.governor.SameRules tick.after := by
  unfold after
  split
  · exact AutopilotGovernor.evaluate_sameRules
  · exact ⟨rfl, rfl⟩

end Tick

/-- The requests of a run. -/
def requests (ticks : List Tick) : LoopTrace := ticks.map Tick.event

/-- The governor moves by evaluations on behalf of anyone. -/
def Evaluations : AutopilotGovernor → AutopilotGovernor → Prop :=
  Relation.ReflTransGen fun g g' =>
    ∃ adjustment decidedAt recordedAt, g' = (g.evaluate adjustment decidedAt recordedAt).2

/-- The governor's history through a run: other callers may evaluate between any two
requests. -/
inductive Timeline : AutopilotGovernor → List Tick → AutopilotGovernor → Prop
  | done {g g' : AutopilotGovernor} (hothers : Evaluations g g') : Timeline g [] g'
  | tick {g g' : AutopilotGovernor} {tick : Tick} {ticks : List Tick}
      (hothers : Evaluations g tick.governor) (hanswered : tick.Answered)
      (hrest : Timeline tick.after ticks g') : Timeline g (tick :: ticks) g'

theorem Evaluations.sameRules {g g' : AutopilotGovernor} (h : Evaluations g g') :
    g.SameRules g' := by
  induction h with
  | refl => exact ⟨rfl, rfl⟩
  | tail _ hstep ih =>
      obtain ⟨adjustment, decidedAt, recordedAt, rfl⟩ := hstep
      exact ih.trans AutopilotGovernor.evaluate_sameRules

/-- The rules stay the same, and every request was answered under them. -/
theorem Timeline.sameRules {g g' : AutopilotGovernor} {ticks : List Tick}
    (h : Timeline g ticks g') :
    g.SameRules g' ∧ ∀ tick ∈ ticks, g.SameRules tick.governor ∧ tick.Answered := by
  induction h with
  | done hothers => exact ⟨hothers.sameRules, by simp⟩
  | @tick _ _ tick _ hothers hanswered _ ih =>
      have hafter := hothers.sameRules.trans tick.after_sameRules
      refine ⟨hafter.trans ih.1, List.forall_mem_cons.mpr ⟨⟨hothers.sameRules, hanswered⟩, ?_⟩⟩
      exact fun later hlater => ⟨hafter.trans (ih.2 later hlater).1, (ih.2 later hlater).2⟩

/-! ### What the gates answer about a step -/

namespace Control

variable {env : RunEnv} {ticks : List Tick} {run : PlanRun} {j : StepIndex env.plan}
variable {before : LoopState env.plan} {reqs : LoopTrace} {turn : Turn env.plan}

/-- The subject the governor is asked about. -/
def subjectOf (env : RunEnv) (j : StepIndex env.plan) : String :=
  (actionTarget (stepAction env j)).getD ""

theorem tick_isAllowed_iff (tick : Tick) {answer : GovernanceDecision}
    (hevent : tick.event = governorEvent env j answer) (hanswered : tick.Answered) :
    answer.isAllowed = true ↔ tick.governor.adjustable (subjectOf env j) = true ∧
      tick.governor.hasRoom (subjectOf env j) tick.decidedAt = true := by
  obtain ⟨event, governor, decidedAt, recordedAt⟩ := tick
  obtain rfl : event = _ := hevent
  have heq : answer = (governor.evaluate (adjustmentFor env j (stepAction env j)) decidedAt
    recordedAt).1 := hanswered
  rw [heq]
  exact AutopilotGovernor.evaluate_allowed_iff

theorem TurnAt.tick_of_mem (h : TurnAt env (requests ticks) run j before reqs turn)
    {e : LoopEvent} (he : e ∈ reqs) (hsite : e.op.1 = .step j) :
    ∃ tick ∈ ticks, tick.event = e := by
  have hmem : e ∈ atStep j (requests ticks) := by
    rw [h.same]
    exact List.mem_filter.mpr ⟨he, by simpa using hsite⟩
  exact List.mem_map.mp (List.mem_of_mem_filter hmem)

theorem TurnAt.mem_of_tick (h : TurnAt env (requests ticks) run j before reqs turn)
    {tick : Tick} (htick : tick ∈ ticks) (hsite : tick.event.op.1 = .step j) :
    tick.event ∈ reqs := by
  have hmem : tick.event ∈ atStep j (requests ticks) :=
    List.mem_filter.mpr ⟨List.mem_map_of_mem htick, by simpa using hsite⟩
  rw [h.same] at hmem
  exact List.mem_of_mem_filter hmem

/-- The verdict on a step is the remediation policy's. -/
theorem TurnAt.verdict (h : TurnAt env (requests ticks) run j before reqs turn)
    (hanswered : ∀ tick ∈ ticks, tick.Answered) {d : PolicyDecision}
    (hd : (j.val, d) ∈ verdicts reqs) :
    d = BootstrapPolicyEvaluator.withLocalRemediation.evaluate
      (authorizationFor env (stepAction env j)) := by
  obtain ⟨e, he, hverdict⟩ := List.mem_filterMap.mp hd
  obtain rfl := (h.step.asksAbout he).verdict _ _ hverdict
  obtain ⟨⟨event, governor, decidedAt, recordedAt⟩, htick, rfl⟩ := h.tick_of_mem he rfl
  exact hanswered _ htick

/-- A ruling on a step is the governor's. -/
theorem TurnAt.answer (h : TurnAt env (requests ticks) run j before reqs turn)
    (hanswered : ∀ tick ∈ ticks, tick.Answered) {answer : GovernanceDecision}
    (hruling : (j.val, answer) ∈ rulings reqs) :
    ∃ tick ∈ ticks, tick.event = governorEvent env j answer ∧
      (answer.isAllowed = true ↔ tick.governor.adjustable (subjectOf env j) = true ∧
        tick.governor.hasRoom (subjectOf env j) tick.decidedAt = true) := by
  obtain ⟨e, he, hruling⟩ := List.mem_filterMap.mp hruling
  obtain rfl := (h.step.asksAbout he).ruling _ _ hruling
  obtain ⟨tick, htick, hevent⟩ := h.tick_of_mem he rfl
  exact ⟨tick, htick, hevent, tick_isAllowed_iff tick hevent (hanswered tick htick)⟩

/-- The governor is asked about the step's own adjustment. -/
theorem TurnAt.ruling (h : TurnAt env (requests ticks) run j before reqs turn) {tick : Tick}
    {adjustment : ResourceAdjustment} (htick : tick ∈ ticks)
    (hop : tick.event.op = (.step j, .governorEvaluate adjustment)) :
    ∃ answer, tick.event = governorEvent env j answer ∧ (j.val, answer) ∈ rulings reqs ∧
      adjustment = adjustmentFor env j (stepAction env j) := by
  have hmem := h.mem_of_tick htick (by rw [hop])
  obtain ⟨⟨op, reply⟩, governor, decidedAt, recordedAt⟩ := tick
  obtain rfl : op = _ := hop
  have hevent := (h.step.asksAbout hmem).ruling j reply rfl
  refine ⟨reply, hevent, List.mem_filterMap.mpr ⟨_, hmem, rfl⟩, ?_⟩
  have hop := congrArg Event.op hevent
  simpa [governorEvent] using hop

/-- A policy answer about a step is a request made for it. -/
theorem site_of_verdict {e : LoopEvent} {i : Nat} {d : PolicyDecision}
    (h : e.verdict? = some (i, d)) : e.op.1 = .step i := by
  obtain ⟨⟨site, port⟩, reply⟩ := e
  cases port <;> cases site <;> cases h
  rfl

theorem TurnAt.mem_verdicts (h : TurnAt env (requests ticks) run j before reqs turn)
    {d : PolicyDecision} : (j.val, d) ∈ verdicts (requests ticks) ↔ (j.val, d) ∈ verdicts reqs := by
  have hstep {t : LoopTrace} : (j.val, d) ∈ verdicts t ↔ (j.val, d) ∈ verdicts (atStep j t) := by
    simp only [verdicts, List.mem_filterMap, atStep, List.mem_filter]
    constructor
    · intro hmem
      obtain ⟨e, he, hverdict⟩ := hmem
      exact ⟨e, ⟨he, by simpa using site_of_verdict hverdict⟩, hverdict⟩
    · intro hmem
      obtain ⟨e, ⟨he, -⟩, hverdict⟩ := hmem
      exact ⟨e, he, hverdict⟩
  rw [hstep, h.same, ← hstep]

end Control

/-! ### A granted plan -/

/-- A plan that paused, was granted, and is resumed before the grant expires. -/
structure GrantedResume where
  registry : CapabilityRegistry
  toJson : Value → String
  plan : Plan
  autonomy : AutonomyMode
  /-- The governor before the first run, between the two runs, and after the second. -/
  start : AutopilotGovernor
  between : AutopilotGovernor
  finish : AutopilotGovernor
  first : List Tick
  pending : PendingPlan
  paused : Runs (runRemediation registry toJson plan autonomy) (requests first) (.pending pending)
  firstTimeline : Timeline start first between
  /-- The key the brain attaches to the plan while it waits. -/
  dedupKey : Option String
  approvals : ApprovalStore
  approval : ExecutionApproval
  now : DateTime
  stored : approvals.get pending.token = some approval
  unexpired : approval.authorizes pending.token pending.contextHash now = true
  second : List Tick
  result : ResumeOutcome × ApprovalStore
  resumed : Runs (resumeRemediation registry toJson { pending with dedupKey } approvals)
    (ev .run .now now :: requests second) result
  secondTimeline : Timeline between second finish

namespace GrantedResume

/-- The gates of the first run let the step through: it went on, or the plan paused there. -/
def Reached (r : GrantedResume) (j : StepIndex r.plan) : Prop :=
  ∃ entry ∈ ledger j (requests r.first), entry.1 = outcomeOk ∨ entry.1 = outcomeAwaitingApproval

/-- The first run paused at the step. -/
def PausedAt (r : GrantedResume) (i : StepIndex r.plan) : Prop :=
  ∃ entry ∈ ledger i (requests r.first), entry.1 = outcomeAwaitingApproval

/-- The entries the first run left with the governor. -/
def own (r : GrantedResume) : List (DateTime × String) := r.first.filterMap Tick.granted?

/-- The grant is honoured: no step the first run let through is denied through an entry the
first run left with the governor, or by the matrix, and the step at which the plan paused is
carried out, found in its desired state, or fails. -/
structure Honoured (r : GrantedResume) (i : StepIndex r.plan) : Prop where
  governor : ∀ tick ∈ r.second, ∀ (j : StepIndex r.plan) (adjustment : ResourceAdjustment)
    (why : Refusal), r.Reached j →
      tick.event = ev (.step j) (.governorEvaluate adjustment) (.refused why) →
        ((tick.governor.forget r.own).evaluate adjustment tick.decidedAt
          tick.recordedAt).1.isAllowed = false
  matrix : ∀ j, r.Reached j →
    (outcomeDenied, some "autonomy.matrix") ∉ ledger j (requests r.second)
  carriedOut : ∃ entry ∈ ledger i (requests r.second),
    entry.1 = outcomeOk ∨ entry.1 = outcomeFailed

/-- Whether a permitted capability executes at L3 once an operator granted it: policy asks
for the approval that was given, or the matrix executes its risk class. -/
def executesOnGrant (registry : CapabilityRegistry) (capability : CapabilityId) : Bool :=
  ((registry.get capability).map CapabilityDescriptor.requiresApproval).getD true ||
    mayExecuteWithoutApproval .l3Assisted (governedRisk capability registry)

/-- What the second run finds is compatible with what the first one was let through. -/
structure Compatible (r : GrantedResume) (i : StepIndex r.plan) : Prop where
  /-- The first run's own entries take no room that the governor would have without them. -/
  governor : ∀ tick ∈ r.second, ∀ (j : StepIndex r.plan) (adjustment : ResourceAdjustment),
    r.Reached j → tick.event.op = (.step j, .governorEvaluate adjustment) →
      (tick.governor.forget r.own).hasRoom adjustment.subject tick.decidedAt = true →
        tick.governor.hasRoom adjustment.subject tick.decidedAt = true
  /-- There is room for the step at which the plan paused. -/
  room : ∀ tick ∈ r.second, ∀ adjustment : ResourceAdjustment,
    tick.event.op = (.step i, .governorEvaluate adjustment) →
      tick.governor.hasRoom adjustment.subject tick.decidedAt = true
  matrix : ∀ j, r.Reached j → (∃ d, (j.val, d) ∈ verdicts (requests r.second)) →
    executesOnGrant r.registry (r.plan.step j).action.capability = true
  /-- No step before that one meets an obstacle that ends the run. -/
  uncut : ∀ j < i, (∀ msg, .error msg ∉ readings j (requests r.second)) ∧
    (∀ msg, .error msg ∉ effects j (requests r.second)) ∧
    ∀ d, (j.val, d) ∈ verdicts (requests r.second) →
      proceeds .l3Assisted (governedRisk (r.plan.step j).action.capability r.registry) d = true →
        ready (r.plan.step j).action = true

/-! ### The two runs -/

variable {r : GrantedResume}

/-- The environment of the first run. -/
abbrev firstEnv (r : GrantedResume) (correlation : Uuid) : RunEnv :=
  runEnv ⟨r.registry, r.autonomy, governedPrefixes, r.toJson⟩ r.plan false correlation

/-- The environment of the second run. -/
abbrev secondEnv (r : GrantedResume) (correlation : Uuid) : RunEnv :=
  runEnv ⟨r.registry, .l3Assisted, governedPrefixes, r.toJson⟩
    { r.plan with status := .awaitingApproval } true correlation

/-- The first run is a run of the loop that pauses. -/
theorem first_loop (r : GrantedResume) : ∃ correlation t,
    LoopRun (firstEnv r correlation) (List.finRange r.plan.steps.length)
      (initialState r.plan none correlation) t (.paused r.pending) ∧
      requests r.first = announcement r.plan correlation ++ t := by
  obtain ⟨t₁, run, t₂, hrun, hend, heq⟩ := runs_bind.mp r.paused
  cases run with
  | finished outcome => obtain ⟨-, ⟨⟩⟩ := hend
  | paused pending =>
      obtain ⟨rfl, hpending⟩ := hend
      obtain rfl := RunOutcome.pending.inj hpending
      obtain ⟨correlation, t, hloop, rfl⟩ := runPlan_inv hrun
      exact ⟨correlation, t, hloop, by simpa using heq⟩

/-- A turn of the loop, seen from the whole run. -/
theorem turnAt_announced (plan : Plan) (correlation : Uuid) {env : RunEnv} {t : LoopTrace}
    {run : PlanRun} {j : StepIndex env.plan} {before : LoopState env.plan} {reqs : LoopTrace}
    {turn : Turn env.plan} (h : TurnAt env t run j before reqs turn) :
    TurnAt env (announcement plan correlation ++ t) run j before reqs turn := by
  refine ⟨h.step, by rw [atStep_announcement, h.same], ?_⟩
  intro run' hstop
  obtain ⟨hrun, hlater⟩ := h.last run' hstop
  exact ⟨hrun, fun k hk => by rw [atStep_announcement, hlater k hk]⟩

/-- A step with a ledger entry in the first run had a turn there, and was not executed
before it. -/
theorem first_turn {j : StepIndex r.plan} (hj : ledger j (requests r.first) ≠ []) :
    ∃ correlation before reqs turn,
      TurnAt (firstEnv r correlation) (requests r.first) (.paused r.pending) j before reqs turn ∧
        j ∉ before.executed ∧ ledger j reqs = ledger j (requests r.first) := by
  obtain ⟨correlation, t, hloop, heq⟩ := r.first_loop
  rw [heq] at hj ⊢
  rcases hloop.turnAt (List.pairwise_lt_finRange _) (List.mem_finRange j) with
    ⟨before, reqs, turn, hturn, hexecuted⟩ | ⟨k, -, hk, before, reqs, hturn⟩
  · have hturn := turnAt_announced r.plan correlation hturn
    exact ⟨correlation, before, reqs, turn, hturn, fun hmem => List.not_mem_nil (hexecuted.mp hmem),
      hturn.ledger_eq.symm⟩
  · refine absurd ?_ hj
    rw [ledger, atStep_announcement, (hturn.last _ rfl).2 j hk]
    rfl

/-- What the first run let through: policy permits the capability, and the governor may
adjust the subject if it gates the family. -/
theorem Reached.inv {j : StepIndex r.plan} (h : r.Reached j) :
    BootstrapPolicyEvaluator.withLocalRemediation.permits
        (r.plan.step j).action.capability = true ∧
      (governed (r.plan.step j).action.capability governedPrefixes = true →
        r.start.adjustable ((actionTarget (r.plan.step j).action).getD "") = true) := by
  obtain ⟨entry, hentry, houtcome⟩ := h
  obtain ⟨correlation, before, reqs, turn, hturn, -, hledger⟩ :=
    first_turn (List.ne_nil_of_mem hentry)
  obtain ⟨-, hticks⟩ := r.firstTimeline.sameRules
  have hundenied : entry.1 ≠ outcomeDenied := by
    rcases houtcome with hok | hawaiting
    · simp [hok, outcomeOk, outcomeDenied]
    · simp [hawaiting, outcomeAwaitingApproval, outcomeDenied]
  obtain ⟨d, hpass⟩ := hturn.step.entry.letThrough (hledger ▸ hentry) hundenied
  constructor
  · -- a policy that does not permit the capability denies it whatever the request
    have hd := hturn.verdict (fun tick htick => (hticks tick htick).2)
      (d := d) (by simp [hpass.verdicts])
    have houtcome := hpass.outcome
    rw [hd, BootstrapPolicyEvaluator.evaluate_outcome] at houtcome
    by_contra hforbidden
    exact houtcome (if_neg hforbidden)
  · intro hgoverned
    obtain ⟨reason, hruling⟩ := hpass.allowed hgoverned
    obtain ⟨tick, htick, -, hallowed⟩ :=
      hturn.answer (fun tick htick => (hticks tick htick).2) hruling
    -- adjustability is a matter of the rules, which no evaluation changes
    rw [← (hticks tick htick).1.adjustable_eq]
    exact (hallowed.mp rfl).1

/-- The second run is a run of the loop at L3 that starts from where the first one paused. -/
theorem second_loop (r : GrantedResume) : ∃ correlation t run,
    LoopRun (runEnv ⟨r.registry, .l3Assisted, governedPrefixes, r.toJson⟩ r.pending.plan true
      correlation) (List.finRange r.pending.plan.steps.length)
      (initialState r.pending.plan (some r.pending.executed) correlation) t run ∧
      requests r.second = announcement r.pending.plan correlation ++ t := by
  obtain ⟨now, t₁, hconsume, heq⟩ := runs_ask_bind.mp r.resumed
  obtain ⟨hnow, rfl⟩ := List.cons.inj heq
  obtain rfl : r.now = now := by simpa using hnow
  split at hconsume
  case h_1 hnone =>
    -- the grant is stored and has not expired, so it is consumed
    have hsome := ApprovalStore.consume_of_authorizes r.stored r.unexpired
    simp [hsome] at hnone
  case h_2 =>
    obtain ⟨t₂, run, t₃, hrun, hend, hsplit⟩ := runs_bind.mp hconsume
    obtain ⟨correlation, t, hloop, rfl⟩ := runPlan_inv hrun
    have hnil : t₃ = [] := by
      cases run <;> exact hend.1
    exact ⟨correlation, t, run, hloop, by simpa [hnil] using hsplit⟩

/-- The plan is parked as the first run left it, with the pausing step not executed. -/
theorem PausedAt.inv {i : StepIndex r.plan} (h : r.PausedAt i) :
    ∃ correlation token, ∃ executed : List (StepIndex r.plan),
      r.pending = parked (firstEnv r correlation) executed token ∧ i ∉ executed := by
  obtain ⟨entry, hentry, houtcome⟩ := h
  obtain ⟨correlation, before, reqs, turn, hturn, hnew, hledger⟩ :=
    first_turn (List.ne_nil_of_mem hentry)
  obtain ⟨token, rfl⟩ := hturn.step.entry.parked_of_mem (hledger ▸ hentry) houtcome
  obtain ⟨heq, -⟩ := hturn.last _ rfl
  exact ⟨correlation, token, before.executed, (PlanRun.paused.inj heq).symm, hnew⟩

/-- The turns of the second run: for each step, its own turn, or that of an earlier step at
which the run ended. -/
def SecondTurns (r : GrantedResume) (correlation : Uuid) (run : PlanRun)
    (executed : List (StepIndex r.plan)) : Prop :=
  ∀ j : StepIndex r.plan,
    (∃ before reqs turn,
      TurnAt (secondEnv r correlation) (requests r.second) run j before reqs turn ∧
        (j ∈ before.executed ↔ j ∈ executed)) ∨
    ∃ k < j, ∃ before reqs,
      TurnAt (secondEnv r correlation) (requests r.second) run k before reqs (.stop run)

theorem second_turns {i : StepIndex r.plan} (h : r.PausedAt i) :
    ∃ correlation run executed, i ∉ executed ∧ r.SecondTurns correlation run executed := by
  obtain ⟨correlation, token, executed, hpending, hnew⟩ := h.inv
  have hsecond := r.second_loop
  rw [hpending] at hsecond
  obtain ⟨correlation, t, run, hloop, heq⟩ := hsecond
  refine ⟨correlation, run, executed, hnew, ?_⟩
  intro j
  rw [heq]
  rcases hloop.turnAt (List.pairwise_lt_finRange _) (List.mem_finRange j) with
    ⟨before, reqs, turn, hturn, hexecuted⟩ | ⟨k, -, hk, before, reqs, hturn⟩
  · exact .inl ⟨before, reqs, turn, turnAt_announced _ _ hturn, hexecuted⟩
  · exact .inr ⟨k, hk, before, reqs, turnAt_announced _ _ hturn⟩

/-! ### Entries of the second run -/

section Second

variable {i j : StepIndex r.plan} {correlation : Uuid} {run : PlanRun}
variable {before : LoopState (secondEnv r correlation).plan} {reqs : LoopTrace}
variable {turn : Turn (secondEnv r correlation).plan}

theorem second_answered (r : GrantedResume) : ∀ tick ∈ r.second,
    r.start.SameRules tick.governor ∧ tick.Answered := by
  obtain ⟨hrules, -⟩ := r.firstTimeline.sameRules
  obtain ⟨-, hticks⟩ := r.secondTimeline.sameRules
  exact fun tick htick => ⟨hrules.trans (hticks tick htick).1, (hticks tick htick).2⟩

/-- Policy does not deny on the second run what the first one was let through, and its
verdict proceeds at L3 exactly when the capability executes on a grant. -/
theorem second_verdict
    (hturn : TurnAt (secondEnv r correlation) (requests r.second) run j before reqs turn)
    (hreached : r.Reached j) {d : PolicyDecision} (hd : (j.val, d) ∈ verdicts reqs) :
    d.outcome ≠ .deny ∧
      proceeds .l3Assisted (governedRisk (r.plan.step j).action.capability r.registry) d =
        executesOnGrant r.registry (r.plan.step j).action.capability := by
  have heq := hturn.verdict (fun tick htick => (r.second_answered tick htick).2) hd
  have houtcome := BootstrapPolicyEvaluator.evaluate_outcome .withLocalRemediation
    (authorizationFor (secondEnv r correlation) (stepAction (secondEnv r correlation) j))
  have hpermits : BootstrapPolicyEvaluator.withLocalRemediation.permits
      (authorizationFor (secondEnv r correlation)
        (stepAction (secondEnv r correlation) j)).capabilityRequest.capability = true :=
    hreached.inv.1
  have happroval : (authorizationFor (secondEnv r correlation)
      (stepAction (secondEnv r correlation) j)).requiresApproval =
        ((r.registry.get (r.plan.step j).action.capability).map
          CapabilityDescriptor.requiresApproval).getD true := rfl
  -- both sides now turn on the approval flag of the descriptor alone
  rw [← heq, if_pos hpermits, happroval] at houtcome
  unfold proceeds executesOnGrant
  cases hrequires : ((r.registry.get (r.plan.step j).action.capability).map
    CapabilityDescriptor.requiresApproval).getD true <;> simp_all

/-- The matrix denies a step that the first run let through exactly when policy was asked
about it and it does not execute on a grant. -/
theorem second_matrix_iff
    (hturn : TurnAt (secondEnv r correlation) (requests r.second) run j before reqs turn)
    (hreached : r.Reached j) :
    (outcomeDenied, some "autonomy.matrix") ∈ ledger j (requests r.second) ↔
      (∃ d, (j.val, d) ∈ verdicts (requests r.second)) ∧
        executesOnGrant r.registry (r.plan.step j).action.capability = false := by
  simp only [hturn.ledger_eq, hturn.mem_verdicts]
  cases hturn.step.entry with
  | skipped _ hquiet => simp [hquiet]
  | denied hwhy hledger =>
      cases hwhy with
      | governor _ _ hverdicts => simp [hledger, hverdicts]
      | policy hverdicts hd =>
          exact absurd hd (second_verdict hturn hreached (by simp [hverdicts])).1
      | @matrix d hverdicts hd hmatrix =>
          have hmem : (j.val, d) ∈ verdicts reqs := by simp [hverdicts]
          refine iff_of_true (by simp [hledger]) ⟨⟨d, hmem⟩, ?_⟩
          rw [← (second_verdict hturn hreached hmem).2, proceeds, hd]
          exact hmatrix
  | paused _ _ _ hescalates =>
      -- only the escalation decision pauses a resumed run, and L3 does not have it
      exact absurd (hescalates rfl) Bool.false_ne_true
  | @done _ d _ hpass hproceeds hledger =>
      have hmem : (j.val, d) ∈ verdicts reqs := by simp [hpass.verdicts]
      have hexecutes := (second_verdict hturn hreached hmem).2.symm.trans hproceeds
      simp [hledger, hexecutes, outcomeDenied, outcomeOk]
  | @failed _ d _ hpass hproceeds hledger =>
      have hmem : (j.val, d) ∈ verdicts reqs := by simp [hpass.verdicts]
      have hexecutes := (second_verdict hturn hreached hmem).2.symm.trans hproceeds
      simp [hledger, hexecutes, outcomeDenied, outcomeFailed]

/-- An evaluation of the second run about a step that the first one let through, of a
governed family, allows it exactly when the history leaves room. -/
theorem second_ruling
    (hturn : TurnAt (secondEnv r correlation) (requests r.second) run j before reqs turn)
    (hreached : r.Reached j) {tick : Tick} {adjustment : ResourceAdjustment}
    (htick : tick ∈ r.second) (hop : tick.event.op = (.step j, .governorEvaluate adjustment)) :
    tick.governor.adjustable adjustment.subject = true ∧
      ∃ answer, (j.val, answer) ∈ rulings reqs ∧
        tick.event = ev (.step j) (.governorEvaluate adjustment) answer ∧
          (answer.isAllowed = true ↔
            tick.governor.hasRoom adjustment.subject tick.decidedAt = true) := by
  obtain ⟨hrules, hanswered⟩ := r.second_answered tick htick
  obtain ⟨answer, hevent, hruling, rfl⟩ := hturn.ruling htick hop
  have hadjustable : tick.governor.adjustable (subjectOf (secondEnv r correlation) j) = true := by
    rw [hrules.adjustable_eq]
    exact hreached.inv.2 (hturn.step.governed_of_ruling hruling)
  have hallowed := tick_isAllowed_iff tick hevent hanswered
  exact ⟨hadjustable, answer, hruling, hevent, hallowed.trans (and_iff_right hadjustable)⟩

/-- A step with requests in the second run had a turn there. -/
theorem SecondTurns.came_to {executed : List (StepIndex r.plan)}
    (h : r.SecondTurns correlation run executed) (hne : atStep j (requests r.second) ≠ []) :
    ∃ before reqs turn,
      TurnAt (secondEnv r correlation) (requests r.second) run j before reqs turn := by
  rcases h j with ⟨before, reqs, turn, hturn, -⟩ | ⟨k, hk, before, reqs, hturn⟩
  · exact ⟨before, reqs, turn, hturn⟩
  · exact absurd ((hturn.last _ rfl).2 j hk) hne

/-- A step that was asked about in the second run had a turn there. -/
theorem SecondTurns.came_to_tick {executed : List (StepIndex r.plan)}
    (h : r.SecondTurns correlation run executed) {tick : Tick} (htick : tick ∈ r.second)
    (hsite : tick.event.op.1 = .step j) : ∃ before reqs turn,
      TurnAt (secondEnv r correlation) (requests r.second) run j before reqs turn :=
  h.came_to (List.ne_nil_of_mem
    (List.mem_filter.mpr ⟨List.mem_map_of_mem htick, by simpa using hsite⟩))

theorem SecondTurns.came_to_verdict {executed : List (StepIndex r.plan)}
    (h : r.SecondTurns correlation run executed) {d : PolicyDecision}
    (hd : (j.val, d) ∈ verdicts (requests r.second)) : ∃ before reqs turn,
      TurnAt (secondEnv r correlation) (requests r.second) run j before reqs turn := by
  obtain ⟨e, he, hverdict⟩ := List.mem_filterMap.mp hd
  obtain ⟨tick, htick, rfl⟩ := List.mem_map.mp he
  exact h.came_to_tick htick (site_of_verdict hverdict)

/-- A turn of the second run that went on met no obstacle. -/
theorem second_unobstructed {state' : LoopState (secondEnv r correlation).plan}
    (hturn : TurnAt (secondEnv r correlation) (requests r.second) run j before reqs
      (.next state')) :
    (∀ msg, .error msg ∉ readings j reqs) ∧ (∀ msg, .error msg ∉ effects j reqs) ∧
      ∀ d, (j.val, d) ∈ verdicts reqs →
        proceeds .l3Assisted (governedRisk (r.plan.step j).action.capability r.registry) d = true →
          ready (r.plan.step j).action = true := by
  cases hturn.step.entry with
  | skipped _ hquiet => simp [hquiet]
  | denied hwhy _ hreadings heffects =>
      refine ⟨by simp [hreadings], by simp [heffects], ?_⟩
      intro d hd hproceeds
      cases hwhy with
      | governor _ _ hverdicts => simp [hverdicts] at hd
      | @policy d' hverdicts hdeny =>
          obtain rfl : d = d' := by simpa [hverdicts] using hd
          simp [proceeds, hdeny] at hproceeds
      | @matrix d' hverdicts hallow hmatrix =>
          obtain rfl : d = d' := by simpa [hverdicts] using hd
          rw [proceeds, hallow] at hproceeds
          exact absurd (hproceeds.symm.trans hmatrix) Bool.false_ne_true.symm
  | done _ _ _ hsmooth => exact ⟨hsmooth.read, hsmooth.effect, fun _ _ _ => hsmooth.ready⟩

/-- A turn of the second run that ended it met one. -/
theorem second_obstructed {run' : PlanRun}
    (hturn : TurnAt (secondEnv r correlation) (requests r.second) run j before reqs
      (.stop run')) :
    ∃ d, (j.val, d) ∈ verdicts reqs ∧
      proceeds .l3Assisted (governedRisk (r.plan.step j).action.capability r.registry) d = true ∧
        ¬ Smooth (r.plan.step j).action reqs j := by
  cases hturn.step.entry with
  | paused _ _ _ hescalates => exact absurd (hescalates rfl) Bool.false_ne_true
  | @failed _ d _ hpass hproceeds _ hrough =>
      exact ⟨d, by simp [hpass.verdicts], hproceeds, hrough⟩

end Second

/-! ### When a grant is honoured -/

theorem PausedAt.reached {i : StepIndex r.plan} (h : r.PausedAt i) : r.Reached i := by
  obtain ⟨entry, hentry, houtcome⟩ := h
  exact ⟨entry, hentry, .inr houtcome⟩

theorem Honoured.compatible {i : StepIndex r.plan} (hpaused : r.PausedAt i) (h : r.Honoured i) :
    r.Compatible i := by
  obtain ⟨correlation, run, executed, -, hturns⟩ := second_turns hpaused
  obtain ⟨entry, hentry, houtcome⟩ := h.carriedOut
  have hvisited := atStep_ne_nil_of_mem_ledger hentry
  refine ⟨?_, ?_, ?_, ?_⟩
  · -- a refusal where forgetting leaves room would be one through the first run's entries
    intro tick htick j adjustment hreached hop hforgotten
    obtain ⟨before, reqs, turn, hturn⟩ := hturns.came_to_tick htick (j := j) (by rw [hop])
    obtain ⟨hadjustable, answer, -, hevent, hallowed⟩ := second_ruling hturn hreached htick hop
    cases answer with
    | allowed reason => exact hallowed.mp rfl
    | refused why =>
        have hrefused := h.governor tick htick j adjustment why hreached hevent
        have hevaluate : ((tick.governor.forget r.own).evaluate adjustment tick.decidedAt
            tick.recordedAt).1.isAllowed = true :=
          AutopilotGovernor.evaluate_allowed_iff.mpr ⟨by simpa using hadjustable, hforgotten⟩
        exact absurd (hrefused.symm.trans hevaluate) Bool.false_ne_true
  · -- the pausing step was carried out, so the governor did not refuse it
    intro tick htick adjustment hop
    obtain ⟨before, reqs, turn, hturn⟩ := hturns.came_to hvisited
    obtain ⟨-, answer, hruling, -, hallowed⟩ := second_ruling hturn hpaused.reached htick hop
    have hundenied : entry.1 ≠ outcomeDenied := by
      rcases houtcome with hok | hfailed
      · simp [hok, outcomeOk, outcomeDenied]
      · simp [hfailed, outcomeFailed, outcomeDenied]
    obtain ⟨d, hpass⟩ := hturn.step.entry.letThrough (hturn.ledger_eq ▸ hentry) hundenied
    exact hallowed.mp (hpass.unrefused _ hruling)
  · intro j hreached hasked
    obtain ⟨d, hd⟩ := hasked
    obtain ⟨before, reqs, turn, hturn⟩ := hturns.came_to_verdict hd
    by_contra hunexecuted
    exact h.matrix j hreached ((second_matrix_iff hturn hreached).mpr
      ⟨⟨d, hd⟩, Bool.eq_false_iff.mpr hunexecuted⟩)
  · -- a step that ended the run would have kept it from the pausing step
    intro j hlt
    rcases hturns j with ⟨before, reqs, turn, hturn, -⟩ | ⟨k, hk, before, reqs, hturn⟩
    · cases turn with
      | stop run' => exact absurd ((hturn.last _ rfl).2 i hlt) hvisited
      | next state' =>
          obtain ⟨hread, heffect, hready⟩ := second_unobstructed hturn
          simp only [readings, effects, hturn.same, hturn.mem_verdicts]
          exact ⟨hread, heffect, hready⟩
    · exact absurd ((hturn.last _ rfl).2 i (hk.trans hlt)) hvisited

/-- The turn of the pausing step carries it out. -/
theorem second_carriedOut {i : StepIndex r.plan} {correlation : Uuid} {run : PlanRun}
    {before : LoopState (secondEnv r correlation).plan} {reqs : LoopTrace}
    {turn : Turn (secondEnv r correlation).plan}
    (hturn : TurnAt (secondEnv r correlation) (requests r.second) run i before reqs turn)
    (hpaused : r.PausedAt i) (hnew : i ∉ before.executed) (h : r.Compatible i) :
    ∃ entry ∈ ledger i (requests r.second), entry.1 = outcomeOk ∨ entry.1 = outcomeFailed := by
  rw [hturn.ledger_eq]
  cases hturn.step.entry with
  | skipped hmem => exact absurd hmem hnew
  | denied hwhy =>
      cases hwhy with
      | governor why hrulings =>
          have hruling : (i.val, .refused why) ∈ rulings reqs := by simp [hrulings]
          obtain ⟨tick, htick, hevent, hallowed⟩ :=
            hturn.answer (fun tick htick => (r.second_answered tick htick).2) hruling
          have hop := congrArg Event.op hevent
          obtain ⟨hadjustable, -⟩ := second_ruling hturn hpaused.reached htick hop
          exact absurd (hallowed.mpr ⟨hadjustable, h.room tick htick _ hop⟩) Bool.false_ne_true
      | policy hverdicts hd =>
          exact absurd hd (second_verdict hturn hpaused.reached (by simp [hverdicts])).1
      | @matrix d hverdicts hd hmatrix =>
          have hmem : (i.val, d) ∈ verdicts reqs := by simp [hverdicts]
          have hproceeds := (second_verdict hturn hpaused.reached hmem).2
          have hexecutes := h.matrix i hpaused.reached ⟨d, hturn.mem_verdicts.mpr hmem⟩
          rw [hexecutes, proceeds, hd] at hproceeds
          exact absurd (hmatrix.symm.trans hproceeds) Bool.false_ne_true
  | paused _ _ _ hescalates => exact absurd (hescalates rfl) Bool.false_ne_true
  | done _ _ hledger => exact ⟨_, by rw [hledger]; exact List.mem_singleton_self _, .inl rfl⟩
  | failed _ _ hledger => exact ⟨_, by rw [hledger]; exact List.mem_singleton_self _, .inr rfl⟩

theorem Compatible.honoured {i : StepIndex r.plan} (hpaused : r.PausedAt i)
    (h : r.Compatible i) : r.Honoured i := by
  obtain ⟨correlation, run, executed, hnew, hturns⟩ := second_turns hpaused
  refine ⟨?_, ?_, ?_⟩
  · intro tick htick j adjustment why hreached hevent
    have hop : tick.event.op = (.step j.val, .governorEvaluate adjustment) := by rw [hevent]
    obtain ⟨before, reqs, turn, hturn⟩ := hturns.came_to_tick htick (j := j) (by rw [hop])
    obtain ⟨hadjustable, answer, -, hevent', hallowed⟩ := second_ruling hturn hreached htick hop
    obtain rfl : answer = .refused why := by
      rw [hevent] at hevent'
      simpa [eq_comm] using hevent'
    refine Bool.eq_false_iff.mpr ?_
    intro hforgotten
    have hroom := (AutopilotGovernor.evaluate_allowed_iff.mp hforgotten).2
    exact absurd (hallowed.mpr (h.governor tick htick j adjustment hreached hop hroom))
      Bool.false_ne_true
  · intro j hreached hdenied
    obtain ⟨before, reqs, turn, hturn⟩ := hturns.came_to (atStep_ne_nil_of_mem_ledger hdenied)
    obtain ⟨hasked, hunexecuted⟩ := (second_matrix_iff hturn hreached).mp hdenied
    exact absurd (hunexecuted.symm.trans (h.matrix j hreached hasked)) Bool.false_ne_true
  · rcases hturns i with ⟨before, reqs, turn, hturn, hexecuted⟩ | ⟨k, hk, before, reqs, hturn⟩
    · exact second_carriedOut hturn hpaused (fun hmem => hnew (hexecuted.mp hmem)) h
    · -- an earlier step would have ended the run
      obtain ⟨hread, heffect, hready⟩ := h.uncut k hk
      obtain ⟨d, hd, hproceeds, hrough⟩ := second_obstructed hturn
      refine absurd ⟨hready d (hturn.mem_verdicts.mpr hd) hproceeds, ?_, ?_⟩ hrough
      · simpa [readings, hturn.same] using hread
      · simpa [effects, hturn.same] using heffect

end GrantedResume

/-- **A granted plan and the daemon's own bookkeeping.** A plan that paused at step `i`,
was granted and is resumed in time is refused neither by the matrix nor through its own
first evaluations, and has step `i` carried out, exactly when the governor's history leaves
the room it would without the first run's entries, and room for step `i`, every step asked
about executes at L3 on a grant, and no step before `i` ends the resumed run. -/
theorem granted_plan_honoured_iff (r : GrantedResume) (i : StepIndex r.plan)
    (hpaused : r.PausedAt i) : r.Honoured i ↔ r.Compatible i :=
  ⟨fun h => h.compatible hpaused, fun h => h.honoured hpaused⟩

/-! ### Small runs -/

/-- The daemon's governor and remediation policy over fixed other ports, at one instant. -/
def FixedPorts.remediation (ports : FixedPorts) (at_ : DateTime) :
    (op : Site × Port) → AutopilotGovernor → LoopReply op × AutopilotGovernor
  | (_, .governorEvaluate adjustment), g => g.evaluate adjustment at_ at_
  | (_, .policyEvaluate authz), g =>
      (BootstrapPolicyEvaluator.withLocalRemediation.evaluate authz, g)
  | (_, .now), g => (at_, g)
  | op, g => ((ports.answer op ()).1, g)

/-- The requests of a run at one instant, with the governor each of them met. -/
def stamp (at_ : DateTime) : AutopilotGovernor → LoopTrace → List Tick
  | _, [] => []
  | g, e :: t =>
      let tick : Tick := ⟨e, g, at_, at_⟩
      tick :: stamp at_ tick.after t

@[simp] theorem requests_stamp {at_ : DateTime} {g : AutopilotGovernor} {t : LoopTrace} :
    requests (stamp at_ g t) = t := by
  induction t generalizing g with
  | nil => rfl
  | cons e t ih => exact congrArg (e :: ·) ih

theorem play_timeline {α : Type} (ports : FixedPorts) (at_ : DateTime) (p : LoopM α)
    (g : AutopilotGovernor) :
    Timeline g (stamp at_ g (play (ports.remediation at_) p g).1)
      (play (ports.remediation at_) p g).2.2 := by
  induction p generalizing g with
  | ret a => exact .done .refl
  | request op next ih =>
      obtain ⟨site, port⟩ := op
      refine .tick .refl ?_ ?_
      · cases port <;> trivial
      · cases port <;> exact ih _ _

/-- A plan, the fixed ports it runs against, and when it runs and is resumed. -/
structure Occasion where
  registry : CapabilityRegistry
  plan : Plan
  autonomy : AutonomyMode
  ports : FixedPorts
  governor : AutopilotGovernor
  runAt : DateTime
  resumeAt : DateTime
  inTime : resumeAt.before (runAt.add (minutes 15)) = true

namespace Occasion

/-- The first run. -/
def first (o : Occasion) : LoopTrace × RunOutcome × AutopilotGovernor :=
  play (o.ports.remediation o.runAt)
    (runRemediation o.registry (fun _ => "") o.plan o.autonomy) o.governor

/-- The second run, of what the first one left pending, under a grant given at once. -/
def second (o : Occasion) (pending : PendingPlan) :
    LoopTrace × (ResumeOutcome × ApprovalStore) × AutopilotGovernor :=
  play (o.ports.remediation o.resumeAt)
    (resumeRemediation o.registry (fun _ => "") pending
      (ApprovalStore.empty.grantForAWhile pending.token pending.contextHash "operator" o.runAt
        (minutes 15))) o.first.2.2

/-- The plan as it was granted and resumed, when the first run left it pending. -/
def grantedResume (o : Occasion) (pending : PendingPlan)
    (hpending : o.first.2.1 = .pending pending) : GrantedResume where
  registry := o.registry
  toJson := fun _ => ""
  plan := o.plan
  autonomy := o.autonomy
  start := o.governor
  between := o.first.2.2
  finish := (o.second pending).2.2
  first := stamp o.runAt o.governor o.first.1
  pending := pending
  paused := by
    rw [requests_stamp, ← hpending]
    exact play_runs _ _ _
  firstTimeline := play_timeline _ _ _ _
  dedupKey := pending.dedupKey
  approvals := ApprovalStore.empty.grantForAWhile pending.token pending.contextHash "operator"
    o.runAt (minutes 15)
  approval := ⟨pending.token, pending.contextHash, "operator", o.runAt, o.runAt.add (minutes 15),
    .granted⟩
  now := o.resumeAt
  stored := by simp [ApprovalStore.get, ApprovalStore.grantForAWhile, ApprovalStore.grant]
  unexpired := by simp [ExecutionApproval.authorizes, o.inTime]
  second := stamp o.resumeAt o.first.2.2 (o.second pending).1.tail
  result := (o.second pending).2.1
  resumed := by
    rw [requests_stamp]
    have hrun : Runs _ (o.second pending).1 (o.second pending).2.1 := play_runs _ _ _
    exact hrun
  secondTimeline := by
    have htimeline : Timeline o.first.2.2 (stamp o.resumeAt o.first.2.2 (o.second pending).1)
        (o.second pending).2.2 := play_timeline _ _ _ _
    cases htimeline with
    | tick _ _ hrest => exact hrest

variable {o : Occasion} {pending : PendingPlan} {hpending : o.first.2.1 = .pending pending}

@[simp] theorem requests_first : requests (o.grantedResume pending hpending).first = o.first.1 :=
  requests_stamp

@[simp] theorem requests_second :
    requests (o.grantedResume pending hpending).second = (o.second pending).1.tail := requests_stamp

/-- The plan paused where the first run's ledger says so. -/
theorem pausedAt {i : StepIndex o.plan}
    (h : ∃ entry ∈ ledger i o.first.1, entry.1 = outcomeAwaitingApproval) :
    (o.grantedResume pending hpending).PausedAt i := by
  obtain ⟨entry, hentry, houtcome⟩ := h
  exact ⟨entry, requests_first ▸ hentry, houtcome⟩

end Occasion

/-- A registry of one capability. -/
def CapabilityRegistry.single (d : CapabilityDescriptor) : CapabilityRegistry :=
  ⟨[d], List.nodup_singleton _⟩

/-- `k8s.cluster.read` at L4, as the daemon registers it: a read that needs no approval. The
risk table does not list it, so the loop governs it as `controlled`, which L4 executes and
L3 does not; without a rollback it is not reversible, and escalates. -/
def clusterRead : Occasion where
  registry := .single
    ⟨⟨CapabilityId.k8sClusterRead, by decide⟩, .read, .null, some .none, false, none⟩
  plan := .ofSteps [⟨⟨⟨CapabilityId.k8sClusterRead, by decide⟩, none, .object []⟩, none⟩]
  autonomy := .l4Autonomous
  ports := .willing (.allow "" "")
  governor := ⟨fun _ => none, ⟨10, minutes 60, minutes 10⟩, []⟩
  runAt := ⟨0⟩
  resumeAt := ⟨60000000000⟩
  inTime := by decide

/-- A best-effort cgroup's freeze, paused on an exhausted budget, and resumed a minute after
the governor was first asked. -/
def freezeAgain : Occasion where
  registry := .single
    ⟨⟨CapabilityId.hostCgroupFreeze, by decide⟩, .lowRisk, .null, some .host, false, none⟩
  plan := .ofSteps [⟨⟨⟨CapabilityId.hostCgroupFreeze, by decide⟩, none,
    .object [("path", .string "batch")]⟩, none⟩]
  autonomy := .l3Assisted
  ports := { FixedPorts.willing (.allow "" "") with reserve := false }
  governor := ⟨fun _ => some .bestEffort, ⟨10, minutes 60, minutes 10⟩, []⟩
  runAt := ⟨0⟩
  resumeAt := ⟨60000000000⟩
  inTime := by decide

/-- The restart of `restartPlan`, unregistered and so paused for approval. -/
def restartGranted : Occasion where
  registry := .empty
  plan := restartPlan
  autonomy := .l3Assisted
  ports := .willing (.allow "" "")
  governor := ⟨fun _ => none, ⟨10, minutes 60, minutes 10⟩, []⟩
  runAt := ⟨0⟩
  resumeAt := ⟨60000000000⟩
  inTime := by decide

/-- What a run left pending. -/
def RunOutcome.pending? : RunOutcome → Option PendingPlan
  | .pending p => some p
  | .finished _ => none

theorem RunOutcome.of_pending?_map {α : Type} {outcome : RunOutcome} {f : PendingPlan → α} {a : α}
    (h : outcome.pending?.map f = some a) : ∃ p, outcome = .pending p ∧ f p = a := by
  cases outcome with
  | finished _ => cases h
  | pending p => exact ⟨p, rfl, Option.some.inj h⟩

/-- A grant is not honoured when the second run's ledger says that the step was denied. -/
theorem GrantedResume.not_honoured {r : GrantedResume} {i : StepIndex r.plan}
    {policyId : Option String}
    (h : ledger i (requests r.second) = [(outcomeDenied, policyId)]) : ¬ r.Honoured i := by
  intro hhonoured
  obtain ⟨entry, hentry, houtcome⟩ := hhonoured.carriedOut
  obtain rfl : entry = _ := by simpa [h] using hentry
  simp [outcomeDenied, outcomeOk, outcomeFailed] at houtcome

/-- Two granted plans that the daemon's own bookkeeping refuses: the matrix, at the lower
level of the resume, and the governor, by the one entry of its history, which is the first
run's own. -/
theorem granted_plan_refused :
    (∃ (r : GrantedResume) (i : StepIndex r.plan), r.PausedAt i ∧
      ledger i (requests r.second) = [(outcomeDenied, some "autonomy.matrix")] ∧
        ¬ r.Honoured i) ∧
    ∃ (r : GrantedResume) (i : StepIndex r.plan), r.PausedAt i ∧ r.between.granted = r.own ∧
      ledger i (requests r.second) = [(outcomeDenied, some "governor")] ∧ ¬ r.Honoured i := by
  constructor
  · have hplay : (clusterRead.first.2.1.pending?.map fun p =>
        ledger 0 (clusterRead.second p).1.tail) =
          some [(outcomeDenied, some "autonomy.matrix")] := by decide +kernel
    obtain ⟨pending, hpending, hsecond⟩ := RunOutcome.of_pending?_map hplay
    let i : StepIndex clusterRead.plan := ⟨0, by decide⟩
    refine ⟨clusterRead.grantedResume pending hpending, i, Occasion.pausedAt (by decide),
      ?_, ?_⟩
    · simpa using hsecond
    · exact GrantedResume.not_honoured (by simpa using hsecond)
  · have hplay : (freezeAgain.first.2.1.pending?.map fun p =>
        ledger 0 (freezeAgain.second p).1.tail) =
          some [(outcomeDenied, some "governor")] := by decide +kernel
    obtain ⟨pending, hpending, hsecond⟩ := RunOutcome.of_pending?_map hplay
    have hgranted : freezeAgain.first.2.2.granted = (stamp freezeAgain.runAt freezeAgain.governor
      freezeAgain.first.1).filterMap Tick.granted? := by decide
    let i : StepIndex freezeAgain.plan := ⟨0, by decide⟩
    refine ⟨freezeAgain.grantedResume pending hpending, i, Occasion.pausedAt (by decide),
      hgranted, ?_, ?_⟩
    · simpa using hsecond
    · exact GrantedResume.not_honoured (by simpa using hsecond)

/-- The granted restart is carried out: policy asks for the approval that was given. -/
theorem granted_plan_honoured_iff_restart :
    ∃ (r : GrantedResume) (i : StepIndex r.plan), r.PausedAt i ∧ r.Honoured i ∧
      r.Compatible i := by
  have hplay : (restartGranted.first.2.1.pending?.map fun p =>
      (ledger 0 (restartGranted.second p).1.tail, rulings (restartGranted.second p).1.tail)) =
        some ([(outcomeOk, some "plan.approval")], []) := by decide +kernel
  obtain ⟨pending, hpending, hsecond⟩ := RunOutcome.of_pending?_map hplay
  obtain ⟨hledger, hrulings⟩ := Prod.mk.inj hsecond
  let i : StepIndex restartGranted.plan := ⟨0, by decide⟩
  have hpaused : (restartGranted.grantedResume pending hpending).PausedAt i :=
    Occasion.pausedAt (by decide)
  have hhonoured : (restartGranted.grantedResume pending hpending).Honoured i := by
    refine ⟨?_, ?_, ?_⟩
    · -- the governor is not asked
      intro tick htick j adjustment why _ hevent
      have hmem : (j.val, .refused why) ∈
          rulings (requests (restartGranted.grantedResume pending hpending).second) :=
        List.mem_filterMap.mpr ⟨tick.event, List.mem_map_of_mem htick, by rw [hevent]; rfl⟩
      simp [hrulings] at hmem
    · intro j _
      have hj : j.val < 1 := j.isLt
      have hj : j.val = 0 := by omega
      simp [hj, hledger, outcomeDenied, outcomeOk]
    · exact ⟨(outcomeOk, some "plan.approval"), by simp [i, hledger], .inl rfl⟩
  exact ⟨_, _, hpaused, hhonoured, (granted_plan_honoured_iff _ _ hpaused).mp hhonoured⟩

end Argus
