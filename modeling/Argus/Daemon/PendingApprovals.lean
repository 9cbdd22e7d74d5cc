import Argus.Daemon.ControlSteps
import Argus.Lib.Machine
import Argus.Policy.ApprovalUse

/-!
# Paused plans and the operator's decisions

A paused plan is stored under its token. The operator's calls come from the local socket and
from the cloud, and each is several critical sections: it takes the plan out of the pending
map, writes the decision to the approval store, and, when it granted, resumes the plan, which
consumes the grant. `resume_pending` takes the plan and resumes it at once. A procedure plan is
stored twice, the second time by `act` with its dedup key.

Taking a plan is what keeps it from being decided twice, and the pending map forgets it then,
whatever becomes of the call: a resume that is refused loses the plan, and so does
`resume_pending`, whose plan can have no grant. The second store does not look at what happened
since the first. `one_decision` is what holds when these three are avoided.
-/

namespace Argus

open Interaction Prog
open Control (runs_ask_bind parked runEnv)

/-- What an operator call does with the plan it took. -/
inductive Intent
  | grant
  | deny
  | resume
  deriving DecidableEq

/-- A call that has taken a plan. -/
structure OpenCall where
  plan : PendingPlan
  intent : Intent

def OpenCall.token (call : OpenCall) : Uuid := call.plan.token

/-- What became of a paused plan. -/
inductive Ending
  | executed (token : Uuid)
  | denied (token : Uuid)
  deriving DecidableEq

def Ending.token : Ending → Uuid
  | executed token | denied token => token

/-- The pending map and the approval store, the calls under way, and the plans that `act` has
still to store again. Every token that was paused and every ending is on record. -/
structure ApprovalDesk where
  pending : Uuid → Option PendingPlan
  approvals : ApprovalStore
  acting : List PendingPlan
  calls : List OpenCall
  paused : List Uuid
  endings : List Ending

inductive DeskEvent
  /-- A run pauses, and its plan is stored. -/
  | pause (plan : PendingPlan)
  /-- `act` stores a procedure plan again, with its dedup key. -/
  | attach (plan : Nat) (key : String)
  /-- A call looks for a token and takes its plan. -/
  | take (token : Uuid) (intent : Intent)
  /-- A call writes the decision about the plan it took. -/
  | decide (call : Nat) (grantedBy : String) (now : DateTime)
  /-- A call resumes the plan it took. -/
  | resume (call : Nat) (now : DateTime)

namespace ApprovalDesk

def start : ApprovalDesk := ⟨fun _ => none, .empty, [], [], [], []⟩

/-- `PendingApprovals::store`. -/
def store (s : ApprovalDesk) (plan : PendingPlan) : ApprovalDesk :=
  { s with pending := Function.update s.pending plan.token (some plan) }

/-- Looks for a token and takes its plan; an unknown token ends the call. -/
def take (s : ApprovalDesk) (token : Uuid) (intent : Intent) : ApprovalDesk :=
  match s.pending token with
  | none => s
  | some plan =>
      { s with
        pending := Function.update s.pending token none
        calls := s.calls ++ [⟨plan, intent⟩] }

/-- The second half of `grant_approval` and of `deny_approval`. A grant is good for fifteen
minutes, and its call goes on to resume the plan. -/
def decide (s : ApprovalDesk) (i : Nat) (grantedBy : String) (now : DateTime) : ApprovalDesk :=
  match s.calls[i]? with
  | some ⟨plan, .grant⟩ =>
      { s with
        approvals := s.approvals.grantForAWhile plan.token plan.contextHash grantedBy now
          (minutes 15)
        calls := s.calls.set i ⟨plan, .resume⟩ }
  | some ⟨plan, .deny⟩ =>
      { s with
        approvals := s.approvals.deny plan.token plan.contextHash grantedBy now
        calls := s.calls.eraseIdx i
        endings := s.endings ++ [.denied plan.token] }
  | _ => s

/-- The plan is entered if its grant can be consumed; the call ends either way. -/
def resume (s : ApprovalDesk) (i : Nat) (now : DateTime) : ApprovalDesk :=
  match s.calls[i]? with
  | some ⟨plan, .resume⟩ =>
      match s.approvals.consume plan.token plan.contextHash now with
      | (none, approvals) => { s with approvals, calls := s.calls.eraseIdx i }
      | (some _, approvals) =>
          { s with
            approvals
            calls := s.calls.eraseIdx i
            endings := s.endings ++ [.executed plan.token] }
  | _ => s

def step (s : ApprovalDesk) : DeskEvent → ApprovalDesk
  | .pause plan =>
      { s.store plan with
        acting := if plan.plan.runbook.isSome then s.acting ++ [plan] else s.acting
        paused := s.paused ++ [plan.token] }
  | .attach i key =>
      match s.acting[i]? with
      | none => s
      | some plan =>
          { s.store { plan with dedupKey := some key } with acting := s.acting.eraseIdx i }
  | .take token intent => s.take token intent
  | .decide i grantedBy now => s.decide i grantedBy now
  | .resume i now => s.resume i now

/-- What is promised of the paused plans. -/
structure OneDecision (s : ApprovalDesk) : Prop where
  /-- No plan is resumed into execution twice. -/
  once : ∀ token, s.endings.count (.executed token) ≤ 1
  /-- No plan is executed after it was denied. -/
  denied : ∀ token, ¬ [Ending.denied token, .executed token].Sublist s.endings
  /-- A plan that was neither executed nor denied is pending, or in the hands of a call. -/
  approvable : ∀ token ∈ s.paused, (s.pending token).isSome ∨
    (∃ call ∈ s.calls, call.token = token) ∨ ∃ ending ∈ s.endings, ending.token = token
  /-- A call about an unknown token changes nothing. -/
  unknown : ∀ token intent, s.pending token = none → s.step (.take token intent) = s

/-- The steps that keep it. A token is minted once; `act` stores a plan again while it is
pending; `resume_pending` is not used on a pending plan; a granted plan is resumed before its
grant expires. -/
def Orderly (s : ApprovalDesk) : DeskEvent → Prop
  | .pause plan => plan.token ∉ s.paused
  | .attach i _ => ∀ plan ∈ s.acting[i]?, (s.pending plan.token).isSome = true
  | .take token intent => intent = .resume → s.pending token = none
  | .decide _ _ _ => True
  | .resume i now => ∀ call ∈ s.calls[i]?, call.intent = .resume →
      ∀ approval ∈ s.approvals.get call.token, now.before approval.expiresAt = true

instance (s : ApprovalDesk) : (e : DeskEvent) → Decidable (s.Orderly e)
  | .pause _ => inferInstanceAs (Decidable (_ ∉ _))
  | .attach _ _ => inferInstanceAs (Decidable (∀ _ ∈ _, _))
  | .take _ _ => inferInstanceAs (Decidable (_ → _ = none))
  | .decide _ _ _ => isTrue trivial
  | .resume _ _ => inferInstanceAs (Decidable (∀ _ ∈ _, _ → ∀ _ ∈ _, _))

/-- The step of a resuming call does what the run of its resume does: the same is left in the
store, and the plan is entered unless the resume is refused. -/
theorem resume_agrees {s : ApprovalDesk} {i : Nat} {plan : PendingPlan}
    {approvals : ApprovalStore} {inputs : LoopInputs} {t : LoopTrace}
    {outcome : ResumeOutcome} (hcall : s.calls[i]? = some ⟨plan, .resume⟩)
    (hrun : Runs (resumeAndRunWithPorts inputs plan s.approvals) t (outcome, approvals)) :
    ∃ now t', t = ev .run .now now :: t' ∧ (s.resume i now).approvals = approvals ∧
      ((∃ why, outcome = .refused why) ∧ (s.resume i now).endings = s.endings ∨
        (∀ why, outcome ≠ .refused why) ∧
          (s.resume i now).endings = s.endings ++ [.executed plan.token]) := by
  obtain ⟨now, t', hconsume, rfl⟩ := runs_ask_bind.mp hrun
  refine ⟨now, t', rfl, ?_⟩
  rcases heq : s.approvals.consume plan.token plan.contextHash now with ⟨found, left⟩
  cases found with
  | none =>
      have hresume : s.resume i now =
          { s with approvals := left, calls := s.calls.eraseIdx i } := by
        simp only [resume, hcall, heq]
      simp only [heq] at hconsume
      rw [hresume]
      obtain ⟨-, hend⟩ := hconsume
      obtain ⟨rfl, rfl⟩ := Prod.mk.inj hend
      exact ⟨rfl, .inl ⟨⟨_, rfl⟩, rfl⟩⟩
  | some approval =>
      have hresume : s.resume i now =
          { s with
            approvals := left
            calls := s.calls.eraseIdx i
            endings := s.endings ++ [.executed plan.token] } := by
        simp only [resume, hcall, heq]
      simp only [heq] at hconsume
      rw [hresume]
      obtain ⟨t₁, run, t₂, -, hend, -⟩ := runs_bind.mp hconsume
      cases run with
      | finished report =>
          obtain ⟨rfl, rfl⟩ := Prod.mk.inj hend.2
          exact ⟨rfl, .inr ⟨by simp, rfl⟩⟩
      | paused again =>
          obtain ⟨rfl, rfl⟩ := Prod.mk.inj hend.2
          exact ⟨rfl, .inr ⟨by simp, rfl⟩⟩

/-! ### What the steps keep -/

/-- The tokens whose plans were taken, in the hands of a call or at their end. -/
def taken (s : ApprovalDesk) : List Uuid :=
  s.calls.map OpenCall.token ++ s.endings.map Ending.token

/-- The grant a call wrote still stands. -/
def Stands (approvals : ApprovalStore) (plan : PendingPlan) : Prop :=
  ∃ approval, approvals.get plan.token = some approval ∧ approval.state = .granted ∧
    approval.token = plan.token ∧ approval.contextHash = plan.contextHash

/-- A paused plan is pending or was taken, and was taken once. -/
structure Sound (s : ApprovalDesk) : Prop where
  keyed : ∀ token plan, s.pending token = some plan → plan.token = token
  untaken : ∀ token, (s.pending token).isSome = true → token ∈ s.paused ∧ token ∉ s.taken
  once : s.taken.Nodup
  held : ∀ token ∈ s.paused, (s.pending token).isSome = true ∨ token ∈ s.taken
  known : ∀ token ∈ s.taken, token ∈ s.paused
  granted : ∀ call ∈ s.calls, call.intent = .resume → Stands s.approvals call.plan

variable {s : ApprovalDesk} {i : Nat} {call : OpenCall} {approvals : ApprovalStore}

theorem sound_start : Sound start where
  keyed _ _ h := by cases h
  untaken _ h := by cases h
  once := List.nodup_nil
  held := by simp [start]
  known := by simp [start, taken]
  granted := by simp [start]

theorem Sound.oneDecision (h : Sound s) : OneDecision s where
  once token := by
    have hnodup : s.endings.Nodup := (List.Nodup.of_append_right h.once).of_map _
    exact List.nodup_iff_count_le_one.mp hnodup _
  denied token hsub := by
    have hnodup := (hsub.map Ending.token).nodup (List.Nodup.of_append_right h.once)
    simp [Ending.token] at hnodup
  approvable token hpaused := by
    rcases h.held token hpaused with hpending | htaken
    · exact .inl hpending
    · rcases List.mem_append.mp htaken with hmem | hmem
      · exact .inr (.inl (List.mem_map.mp hmem))
      · exact .inr (.inr (List.mem_map.mp hmem))
  unknown token intent hnone := by simp [step, take, hnone]

/-- A plan that was not taken is stored. -/
theorem Sound.store (h : Sound s) {plan : PendingPlan} {acting : List PendingPlan}
    {paused : List Uuid} (htaken : plan.token ∉ s.taken)
    (hpaused : ∀ token, token ∈ paused ↔ token ∈ s.paused ∨ token = plan.token) :
    Sound { s.store plan with acting, paused } where
  keyed token other hother := by
    simp only [ApprovalDesk.store, Function.update_apply] at hother
    split_ifs at hother with heq
    · cases hother
      exact heq.symm
    · exact h.keyed token other hother
  untaken token hpending := by
    simp only [ApprovalDesk.store, Function.update_apply] at hpending
    split_ifs at hpending with heq
    · subst heq
      exact ⟨(hpaused plan.token).mpr (.inr rfl), htaken⟩
    · obtain ⟨hmem, huntaken⟩ := h.untaken token hpending
      exact ⟨(hpaused token).mpr (.inl hmem), huntaken⟩
  once := h.once
  held token hmem := by
    simp only [ApprovalDesk.store, Function.update_apply]
    by_cases heq : token = plan.token
    · simp [heq]
    · rw [if_neg heq]
      exact h.held token (((hpaused token).mp hmem).resolve_right heq)
  known token hmem := (hpaused token).mpr (.inl (h.known token hmem))
  granted := h.granted

/-- What a call does with the plan in its hands leaves the plans taken the same. -/
theorem Sound.of_perm {s' : ApprovalDesk} (h : Sound s) (hpending : s'.pending = s.pending)
    (hpaused : s'.paused = s.paused) (hperm : s'.taken.Perm s.taken)
    (hgranted : ∀ call ∈ s'.calls, call.intent = .resume → Stands s'.approvals call.plan) :
    Sound s' where
  keyed := by
    rw [hpending]
    exact h.keyed
  untaken token hsome := by
    rw [hpending] at hsome
    obtain ⟨hmem, huntaken⟩ := h.untaken token hsome
    rw [hpaused]
    exact ⟨hmem, fun htaken => huntaken (hperm.subset htaken)⟩
  once := hperm.nodup_iff.mpr h.once
  held token hmem := by
    rw [hpaused] at hmem
    rw [hpending]
    exact (h.held token hmem).imp_right fun htaken => hperm.symm.subset htaken
  known token hmem := by
    rw [hpaused]
    exact h.known token (hperm.subset hmem)
  granted := hgranted

/-- A call that ends moves its token from the calls to the endings. -/
theorem taken_finished (hcall : s.calls[i]? = some call) {ending : Ending}
    (hending : ending.token = call.token) :
    ((s.calls.eraseIdx i).map OpenCall.token ++ (s.endings ++ [ending]).map Ending.token).Perm
      s.taken := by
  obtain ⟨hi, rfl⟩ := List.getElem?_eq_some_iff.mp hcall
  have hcalls := (List.getElem_cons_eraseIdx_perm hi).map OpenCall.token
  have hmoved := hcalls.append_right (s.endings.map Ending.token)
  refine List.Perm.trans ?_ hmoved
  rw [List.map_append, ← List.append_assoc, List.map_singleton, hending]
  exact List.perm_append_singleton _ _

/-- Another call with a plan of its own has another token. -/
theorem Sound.token_ne (h : Sound s) (hcall : s.calls[i]? = some call) {other : OpenCall}
    (hother : other ∈ s.calls) (hintent : other.intent ≠ call.intent) :
    other.token ≠ call.token := by
  intro heq
  have hcall := List.mem_of_getElem? hcall
  have hsame := List.inj_on_of_nodup_map (List.Nodup.of_append_left h.once) hother hcall heq
  exact hintent (by rw [hsame])

theorem other_of_mem_eraseIdx (h : Sound s) (hcall : s.calls[i]? = some call) {other : OpenCall}
    (hother : other ∈ s.calls.eraseIdx i) : other.token ≠ call.token := by
  obtain ⟨hi, rfl⟩ := List.getElem?_eq_some_iff.mp hcall
  have hperm := (List.getElem_cons_eraseIdx_perm hi).map OpenCall.token
  have hnodup := hperm.nodup_iff.mpr (List.Nodup.of_append_left h.once)
  rw [List.map_cons, List.nodup_cons] at hnodup
  intro heq
  exact hnodup.1 (heq ▸ List.mem_map_of_mem hother)

/-- A call ends: the other grants stand if the store keeps them. -/
theorem Sound.finish (h : Sound s) (hcall : s.calls[i]? = some call) {ending : Ending}
    (hending : ending.token = call.token)
    (happrovals : ∀ token, token ≠ call.token → approvals.get token = s.approvals.get token) :
    Sound { s with
      approvals, calls := s.calls.eraseIdx i, endings := s.endings ++ [ending] } := by
  refine h.of_perm rfl rfl (taken_finished hcall hending) ?_
  intro other hother hintent
  obtain ⟨approval, hget, hrest⟩ := h.granted other (List.mem_of_mem_eraseIdx hother) hintent
  have hne := other_of_mem_eraseIdx h hcall hother
  exact ⟨approval, (happrovals _ hne).trans hget, hrest⟩

theorem Sound.pause (h : Sound s) {plan : PendingPlan} (hfresh : plan.token ∉ s.paused) :
    Sound (s.step (.pause plan)) := by
  have huntaken : plan.token ∉ s.taken := fun hmem => hfresh (h.known _ hmem)
  exact h.store huntaken (by simp)

theorem Sound.attach (h : Sound s) {key : String}
    (hpending : ∀ plan ∈ s.acting[i]?, (s.pending plan.token).isSome = true) :
    Sound (s.step (.attach i key)) := by
  cases hplan : s.acting[i]? with
  | none =>
      simp only [step, hplan]
      exact h
  | some plan =>
      simp only [step, hplan]
      obtain ⟨hpaused, huntaken⟩ := h.untaken _ (hpending plan hplan)
      have hsame : ∀ token, token ∈ s.paused ↔ token ∈ s.paused ∨ token = plan.token := by
        intro token
        refine ⟨.inl, ?_⟩
        rintro (hmem | rfl)
        · exact hmem
        · exact hpaused
      refine h.store ?_ hsame
      exact huntaken

/-- A plan that is taken goes from the pending map into the hands of a call. -/
theorem Sound.take (h : Sound s) {token : Uuid} {intent : Intent}
    (hintent : intent = .resume → s.pending token = none) :
    Sound (s.step (.take token intent)) := by
  cases hpending : s.pending token with
  | none =>
      simp only [step, ApprovalDesk.take, hpending]
      exact h
  | some plan =>
      simp only [step, ApprovalDesk.take, hpending]
      obtain rfl := h.keyed token plan hpending
      obtain ⟨hpaused, htaken⟩ := h.untaken plan.token (by rw [hpending]; rfl)
      have hperm : (plan.token :: s.taken).Perm
          ((s.calls ++ [OpenCall.mk plan intent]).map OpenCall.token ++
            s.endings.map Ending.token) := by
        rw [List.map_append, List.append_assoc]
        exact List.perm_middle.symm
      constructor
      case keyed =>
        intro token other hother
        simp only [Function.update_apply] at hother
        split_ifs at hother
        exact h.keyed token other hother
      case untaken =>
        intro token htoken
        simp only [Function.update_apply] at htoken
        split_ifs at htoken with heq
        · cases htoken
        · obtain ⟨hmem, huntaken⟩ := h.untaken token htoken
          refine ⟨hmem, fun hnew => ?_⟩
          rcases List.mem_cons.mp (hperm.symm.subset hnew) with hsame | hold
          · exact heq hsame
          · exact huntaken hold
      case once => exact hperm.nodup (List.nodup_cons.mpr ⟨htaken, h.once⟩)
      case held =>
        intro token hmem
        simp only [Function.update_apply]
        split_ifs with heq
        · exact .inr (hperm.subset (List.mem_cons.mpr (.inl heq)))
        · rcases h.held token hmem with hstill | hold
          · exact .inl hstill
          · exact .inr (hperm.subset (List.mem_cons_of_mem _ hold))
      case known =>
        intro token hmem
        rcases List.mem_cons.mp (hperm.symm.subset hmem) with rfl | hold
        · exact hpaused
        · exact h.known token hold
      case granted =>
        intro call hcall hresume
        rcases List.mem_append.mp hcall with hold | hnew
        · exact h.granted call hold hresume
        · obtain rfl := List.mem_singleton.mp hnew
          rw [hintent hresume] at hpending
          cases hpending

/-- A grant is written for the plan in hand, and the other grants are kept. -/
theorem Sound.grant (h : Sound s) {plan : PendingPlan} (hcall : s.calls[i]? = some ⟨plan, .grant⟩)
    (grantedBy : String) (now : DateTime) :
    Sound { s with
      approvals := s.approvals.grantForAWhile plan.token plan.contextHash grantedBy now (minutes 15)
      calls := s.calls.set i ⟨plan, .resume⟩ } := by
  have htokens : (s.calls.set i ⟨plan, .resume⟩).map OpenCall.token =
      s.calls.map OpenCall.token := by
    obtain ⟨hi, hcall⟩ := List.getElem?_eq_some_iff.mp hcall
    have hlength : i < (s.calls.map OpenCall.token).length := by simpa using hi
    have hsame : OpenCall.token ⟨plan, .resume⟩ = (s.calls.map OpenCall.token)[i] := by
      rw [List.getElem_map, hcall]
      rfl
    rw [List.map_set, hsame, List.set_getElem_self]
  refine h.of_perm rfl rfl ?_ ?_
  · rw [taken, taken, htokens]
  · intro other hother hintent
    rcases List.mem_or_eq_of_mem_set hother with hold | rfl
    · obtain ⟨approval, hget, hrest⟩ := h.granted other hold hintent
      have hne : other.token ≠ plan.token := h.token_ne hcall hold (by rw [hintent]; simp)
      refine ⟨approval, ?_, hrest⟩
      exact (ApprovalStore.get_grant _ _).trans ((if_neg hne).trans hget)
    · exact ⟨_, (ApprovalStore.get_grant _ _).trans (if_pos rfl), rfl, rfl, rfl⟩

theorem Sound.decide (h : Sound s) {grantedBy : String} {now : DateTime} :
    Sound (s.step (.decide i grantedBy now)) := by
  cases hcall : s.calls[i]? with
  | none =>
      simp only [step, ApprovalDesk.decide, hcall]
      exact h
  | some call =>
      obtain ⟨plan, intent⟩ := call
      simp only [step, ApprovalDesk.decide, hcall]
      cases intent with
      | grant => exact h.grant hcall grantedBy now
      | deny =>
          refine h.finish hcall rfl ?_
          intro token hne
          exact (ApprovalStore.get_grant _ _).trans (if_neg hne)
      | resume => exact h

/-- A grant that has not expired is consumed, and its plan is executed. -/
theorem Sound.resume (h : Sound s) {now : DateTime}
    (hfresh : ∀ call ∈ s.calls[i]?, call.intent = .resume →
      ∀ approval ∈ s.approvals.get call.token, now.before approval.expiresAt = true) :
    Sound (s.step (.resume i now)) := by
  cases hcall : s.calls[i]? with
  | none =>
      simp only [step, ApprovalDesk.resume, hcall]
      exact h
  | some call =>
      obtain ⟨plan, intent⟩ := call
      simp only [step, ApprovalDesk.resume, hcall]
      cases intent with
      | grant => exact h
      | deny => exact h
      | resume =>
          obtain ⟨approval, hget, hstate, htoken, hhash⟩ :=
            h.granted _ (List.mem_of_getElem? hcall) rfl
          have hbefore := hfresh _ hcall rfl approval hget
          have hauthorizes : approval.authorizes plan.token plan.contextHash now = true := by
            simp only [ExecutionApproval.authorizes, hstate, htoken, hhash, hbefore,
              beq_self_eq_true, Bool.and_self]
          simp only [ApprovalStore.consume_of_authorizes hget hauthorizes]
          refine h.finish hcall rfl ?_
          intro token hne
          exact (ApprovalStore.get_revoke _ _).trans (if_neg hne)

theorem Sound.step (h : Sound s) {e : DeskEvent} (horderly : s.Orderly e) : Sound (s.step e) := by
  cases e with
  | pause plan => exact h.pause horderly
  | attach i key => exact h.attach horderly
  | take token intent => exact h.take horderly
  | decide i grantedBy now => exact h.decide
  | resume i now => exact h.resume horderly

/-- **One decision for each paused plan**, in every interleaving of the calls whose steps are
orderly. -/
theorem one_decision {events : List DeskEvent}
    (h : Machine.Every ApprovalDesk.step Orderly start events) :
    OneDecision (Machine.run ApprovalDesk.step start events) := by
  have hsound : Sound (Machine.run ApprovalDesk.step start events) :=
    h.invariant sound_start fun _ _ hs he => hs.step he
  exact hsound.oneDecision

/-- The restart of `nginx` as the procedure of a runbook, paused on token 0. -/
def pausedProcedure : PendingPlan :=
  parked (runEnv (.atLevel .l4Autonomous) { restartPlan with runbook := some "restart nginx" }
    false 0) [] 0

/-- The plan is paused and stored again, the operator grants it, and it is resumed. A denial comes
after that. -/
def grantedRun : List DeskEvent :=
  [.pause pausedProcedure, .attach 0 "nginx", .take 0 .grant, .decide 0 "operator" ⟨0⟩,
    .resume 0 ⟨0⟩, .take 0 .deny]

/-- After the grant was used, the denial finds nothing to decide. -/
theorem one_decision_granted :
    Machine.Every ApprovalDesk.step Orderly start grantedRun ∧
      OneDecision (Machine.run ApprovalDesk.step start grantedRun) ∧
      (Machine.run ApprovalDesk.step start grantedRun).endings = [.executed 0] :=
  ⟨by decide +kernel, one_decision (by decide +kernel), by decide +kernel⟩

/-- `resume_pending` is called on a plan that nobody granted. -/
def resumedUngranted : ApprovalDesk :=
  Machine.run ApprovalDesk.step start
    [.pause pausedProcedure, .attach 0 "nginx", .take 0 .resume, .resume 0 ⟨0⟩]

/-- A denial comes between the two stores of the plan, and a grant after them. -/
def deniedBetweenStores : ApprovalDesk :=
  Machine.run ApprovalDesk.step start
    [.pause pausedProcedure, .take 0 .deny, .decide 0 "operator" ⟨0⟩, .attach 0 "nginx",
      .take 0 .grant, .decide 0 "operator" ⟨1⟩, .resume 0 ⟨1⟩]

/-- A grant comes between the two stores of the plan, and another after them. -/
def grantedBetweenStores : ApprovalDesk :=
  Machine.run ApprovalDesk.step start
    [.pause pausedProcedure, .take 0 .grant, .decide 0 "operator" ⟨0⟩, .resume 0 ⟨0⟩,
      .attach 0 "nginx", .take 0 .grant, .decide 0 "operator" ⟨1⟩, .resume 0 ⟨1⟩]

/-- The refused resume leaves the plan nowhere; the denied plan is executed; the executed plan
is executed again. -/
theorem decisions_not_kept :
    ¬ OneDecision resumedUngranted ∧ ¬ OneDecision deniedBetweenStores ∧
      ¬ OneDecision grantedBetweenStores := by
  refine ⟨fun h => ?_, fun h => ?_, fun h => ?_⟩
  · have hlost : (resumedUngranted.pending 0).isSome = false ∧ resumedUngranted.calls.length = 0 ∧
        resumedUngranted.endings = [] ∧ 0 ∈ resumedUngranted.paused := by decide
    obtain ⟨hpending, hcalls, hendings, hpaused⟩ := hlost
    rw [List.length_eq_zero_iff] at hcalls
    rcases h.approvable 0 hpaused with hsome | ⟨call, hcall, -⟩ | ⟨ending, hending, -⟩
    · rw [hpending] at hsome
      cases hsome
    · rw [hcalls] at hcall
      cases hcall
    · rw [hendings] at hending
      cases hending
  · have hendings : deniedBetweenStores.endings = [.denied 0, .executed 0] := by decide +kernel
    refine h.denied 0 ?_
    rw [hendings]
  · have htwice : grantedBetweenStores.endings.count (.executed 0) = 2 := by decide +kernel
    have honce := h.once 0
    omega

end ApprovalDesk
end Argus
