import Argus.Daemon.CloudCommand

/-!
# What a delivery does when the store fails

The ladder reads the store before its checks and writes it before the executor. A lookup
that fails is treated as one that found nothing, and a write that fails is ignored, so the
executor is invoked in exactly the cases in which it would be over a store that works
(`invokes_handleCommandInvoke`). `fails_closed_iff` says when that is harmless.

`CommandInputs.refusal` is the ladder as a function of what its ports answer.
-/

namespace Argus

open Interaction Prog CloudCommand

/-- The action an event invoked the executor with. -/
def CloudEvent.action? : CloudEvent → Option AuthorizedAction
  | ⟨.execute _ _ action, _⟩ => some action
  | _ => none

namespace CommandInputs

/-- Why policy and approval refuse a command, if they do. -/
def authorizationRefusal (inputs : CommandInputs) (payload : CommandInvokePayload)
    (descriptor : CapabilityDescriptor) : Option RefusalReason :=
  match (inputs.policy (authorizationFor payload descriptor)).outcome with
  | .deny => some .policyDenied
  | .requireApproval => if inputs.approved then none else some .approvalRequired
  | .allow => none

/-- Why the ladder refuses a command that is not on record, if it does. -/
def refusal (inputs : CommandInputs) (payload : CommandInvokePayload) : Option RefusalReason :=
  match inputs.surface.find? fun candidate => candidate.id.asStr == payload.capabilityId with
  | none => some .unknownCapability
  | some descriptor =>
      if !inputMatches descriptor.inputSchema (.object payload.input) then some .invalidInput
      else if descriptor.changesTheHost && !inputs.enabled then some .executionDisabled
      else inputs.authorizationRefusal payload descriptor

end CommandInputs

/-- The event is answered by these inputs. -/
def CommandInputs.Agrees (inputs : CommandInputs) (store : StoreAnswers) : CloudEvent → Prop
  | ⟨.getCloudCommand _, reply⟩ => reply = store.lookup
  | ⟨.putCloudCommand command, reply⟩ => command.status = .executing → reply = store.recording
  | ⟨.capabilities, reply⟩ => reply = inputs.surface
  | ⟨.privilegedExecution, reply⟩ => reply = inputs.enabled
  | ⟨.policyEvaluate authz, reply⟩ => reply = inputs.policy authz
  | ⟨.approvalsConsume _ _ _, reply⟩ => reply = inputs.approved
  | ⟨.acquire _, reply⟩ => reply = inputs.slot
  | _ => True

/-- The refusal a check ended in. -/
def refusalOf {α : Type} : Except RefusalReason α → Option RefusalReason
  | .error reason => some reason
  | .ok _ => none

namespace CloudCommand

variable {t t' : CloudTrace} {payload : CommandInvokePayload} {deps : CommandDeps}
variable {correlation : Option Uuid} {descriptor : CapabilityDescriptor}
variable {action : AuthorizedAction} {inputs : CommandInputs} {store : StoreAnswers}

theorem runs_ask_bind {α : Type} {port : CloudPort} {f : port.Reply → CloudM α} {a : α} :
    Runs (ask port >>= f) t a ↔ ∃ r t', Runs (f r) t' a ∧ t = ev port r :: t' := runs_call_bind

/-- The executor was invoked. -/
def invokes (t : CloudTrace) : Bool := t.any fun e => (CloudEvent.action? e).isSome

@[simp] theorem invokes_nil : invokes [] = false := rfl

@[simp] theorem invokes_cons {e : CloudEvent} :
    invokes (e :: t) = (e.action?.isSome || invokes t) := rfl

@[simp] theorem invokes_append : invokes (t ++ t') = (invokes t || invokes t') :=
  List.any_append

/-! ### Programs that never reach the executor -/

theorem sendCommandResult_idle {commandId : Uuid} {status : CommandResultStatus}
    {result : Option Value} {reason : Option String} {u : Unit}
    (h : Runs (sendCommandResult commandId status result reason correlation) t u) :
    invokes t = false := by
  obtain rfl := runs_call.mp h
  rfl

theorem reportStoredResult_idle {command : CloudCommand} {u : Unit}
    (h : Runs (reportStoredResult command correlation) t u) : invokes t = false := by
  unfold reportStoredResult at h
  split at h
  · obtain ⟨rfl, -⟩ := h
    rfl
  · exact sendCommandResult_idle h

theorem refuseCommand_idle {reason : RefusalReason} {u : Unit}
    (h : Runs (refuseCommand deps payload correlation reason) t u) : invokes t = false := by
  unfold refuseCommand at h
  split at h
  · exact sendCommandResult_idle h
  · obtain ⟨-, t₁, haudit, rfl⟩ := runs_ask_bind.mp h
    obtain ⟨-, t₂, hsend, rfl⟩ := runs_ask_bind.mp haudit
    simpa [CloudEvent.action?] using sendCommandResult_idle hsend

/-! ### The checks -/

theorem outcome_approved {decision : PolicyDecision} : (approved decision).outcome = .allow := rfl

theorem refusalOf_authorized {authz : AuthorizationRequest} {decision : PolicyDecision}
    (h : decision.outcome = .allow) : refusalOf (authorized authz decision) = none := by
  simp [authorized, AuthorizedAction.new_of_allow h, refusalOf]

theorem authorizeCommand_inv {verdict : Except RefusalReason AuthorizedAction}
    (h : Runs (authorizeCommand payload descriptor) t verdict)
    (hagrees : ∀ e ∈ t, inputs.Agrees store e) :
    invokes t = false ∧ refusalOf verdict = inputs.authorizationRefusal payload descriptor := by
  obtain ⟨decision, t₁, hverdict, rfl⟩ := runs_ask_bind.mp h
  obtain ⟨hdecision, hrest⟩ := List.forall_mem_cons.mp hagrees
  obtain rfl : decision = inputs.policy (authorizationFor payload descriptor) := hdecision
  split at hverdict
  case h_1 hdeny =>
    obtain ⟨reply, -, ⟨rfl, rfl⟩, rfl⟩ := hverdict
    unfold CommandInputs.authorizationRefusal
    rw [hdeny]
    exact ⟨rfl, rfl⟩
  case h_2 happroval =>
    -- the record of the decision comes after the approval was consumed, and is ignored
    obtain ⟨now, t₂, hconsume, rfl⟩ := runs_ask_bind.mp hverdict
    obtain ⟨consumed, t₃, hrecord, rfl⟩ := runs_ask_bind.mp hconsume
    obtain ⟨reply, -, ⟨rfl, rfl⟩, rfl⟩ := hrecord
    have hconsumed := hrest (ev (.approvalsConsume payload.commandId "" now) consumed) (by simp)
    obtain rfl : consumed = inputs.approved := hconsumed
    unfold CommandInputs.authorizationRefusal
    rw [happroval]
    refine ⟨rfl, ?_⟩
    cases inputs.approved with
    | true => exact refusalOf_authorized outcome_approved
    | false => rfl
  case h_3 hallow =>
    obtain ⟨reply, -, ⟨rfl, rfl⟩, rfl⟩ := hverdict
    unfold CommandInputs.authorizationRefusal
    rw [hallow]
    exact ⟨rfl, refusalOf_authorized hallow⟩

theorem executionEnabled_inv {enabled : Bool} (h : Runs (executionEnabled descriptor) t enabled)
    (hagrees : ∀ e ∈ t, inputs.Agrees store e) :
    invokes t = false ∧ (!enabled) = (descriptor.changesTheHost && !inputs.enabled) := by
  unfold executionEnabled at h
  split_ifs at h with hchanges
  · obtain rfl := runs_call.mp h
    obtain rfl : enabled = inputs.enabled := hagrees _ (List.mem_singleton_self _)
    exact ⟨rfl, by simp [hchanges]⟩
  · obtain ⟨rfl, rfl⟩ := h
    exact ⟨rfl, by simp [hchanges]⟩

/-- The checks come out as `refusal` says, and reach no executor. -/
theorem checkCommand_inv
    {verdict : Except RefusalReason (CapabilityDescriptor × AuthorizedAction)}
    (h : Runs (checkCommand payload) t verdict) (hagrees : ∀ e ∈ t, inputs.Agrees store e) :
    invokes t = false ∧ refusalOf verdict = inputs.refusal payload := by
  obtain ⟨surface, t₁, hfind, rfl⟩ := runs_ask_bind.mp h
  obtain ⟨hsurface, hrest⟩ := List.forall_mem_cons.mp hagrees
  obtain rfl : surface = inputs.surface := hsurface
  split at hfind
  case h_1 hnone =>
    obtain ⟨rfl, rfl⟩ := hfind
    unfold CommandInputs.refusal
    rw [hnone]
    exact ⟨rfl, rfl⟩
  case h_2 descriptor hsome =>
    unfold CommandInputs.refusal
    rw [hsome]
    split_ifs at hfind with hschema
    · obtain ⟨rfl, rfl⟩ := hfind
      simp only [hschema, if_true]
      exact ⟨rfl, rfl⟩
    · obtain ⟨t₂, enabled, t₃, henabled, hauthorize, rfl⟩ := runs_bind.mp hfind
      obtain ⟨hagrees₂, hagrees₃⟩ := List.forall_mem_append.mp hrest
      obtain ⟨hidle, hswitch⟩ := executionEnabled_inv henabled hagrees₂
      -- a capability that leaves the host alone passes without the switch being read
      dsimp only
      rw [if_neg hschema, ← hswitch]
      split_ifs at hauthorize ⊢
      · obtain ⟨rfl, rfl⟩ := hauthorize
        exact ⟨by simp [CloudEvent.action?, hidle], rfl⟩
      · obtain ⟨result, hresult, rfl⟩ := runs_bind_pure.mp hauthorize
        obtain ⟨hidle', hrefusal⟩ := authorizeCommand_inv hresult hagrees₃
        refine ⟨by simp [CloudEvent.action?, hidle, hidle'], ?_⟩
        rw [← hrefusal]
        cases result <;> rfl

/-! ### Execution -/

theorem runLimited_inv {outcome : CommandResultStatus × Option Value × Option String}
    (h : Runs (runLimited deps descriptor action) t outcome)
    (hagrees : ∀ e ∈ t, inputs.Agrees store e) : invokes t = inputs.slot := by
  obtain ⟨slot, t₁, hrun, rfl⟩ := runs_ask_bind.mp h
  obtain ⟨hslot, -⟩ := List.forall_mem_cons.mp hagrees
  obtain rfl : slot = inputs.slot := hslot
  cases hslot : inputs.slot with
  | false =>
      simp only [hslot, Bool.not_false, if_true] at hrun
      obtain ⟨rfl, -⟩ := hrun
      rfl
  | true =>
      simp only [hslot, Bool.not_true, Bool.false_eq_true, if_false] at hrun
      obtain ⟨reply, t₂, -, rfl⟩ := runs_ask_bind.mp hrun
      rfl

theorem executeCommand_inv {u : Unit}
    (h : Runs (executeCommand deps payload correlation descriptor action) t u)
    (hagrees : ∀ e ∈ t, inputs.Agrees store e) : invokes t = inputs.slot := by
  -- nothing below depends on `recorded`, the reply to the write of the row
  obtain ⟨recorded, t₁, hlimited, rfl⟩ := runs_ask_bind.mp h
  obtain ⟨t₂, outcome, t₃, hrun, hreport, rfl⟩ := runs_bind.mp hlimited
  have hagrees₂ : ∀ e ∈ t₂, inputs.Agrees store e :=
    fun e he => hagrees e (by simp [he])
  obtain ⟨written, t₄, haudit, rfl⟩ := runs_ask_bind.mp hreport
  obtain ⟨audited, t₅, hsend, rfl⟩ := runs_ask_bind.mp haudit
  simp [CloudEvent.action?, runLimited_inv hrun hagrees₂, sendCommandResult_idle hsend]

end CloudCommand

variable {t : CloudTrace} {payload : CommandInvokePayload} {deps : CommandDeps}
variable {frame : CommandFrame} {inputs : CommandInputs} {store : StoreAnswers}

/-- The command is on record already. -/
def StoreAnswers.onRecord (store : StoreAnswers) : Bool :=
  match store.lookup with
  | .ok (some _) => true
  | _ => false

/-- When a delivery reaches the executor. -/
theorem invokes_handleCommandInvoke (hpayload : frame.payload = some payload)
    (h : Runs (handleCommandInvoke deps frame) t ()) (hagrees : ∀ e ∈ t, inputs.Agrees store e) :
    invokes t = (!store.onRecord && (inputs.refusal payload).isNone && inputs.slot) := by
  unfold handleCommandInvoke at h
  rw [hpayload] at h
  obtain ⟨reply, t₁, hladder, rfl⟩ := runs_ask_bind.mp h
  obtain ⟨hlookup, hrest⟩ := List.forall_mem_cons.mp hagrees
  obtain rfl : reply = store.lookup := hlookup
  split at hladder
  case h_1 existing hfound =>
    simp only [StoreAnswers.onRecord, hfound]
    split_ifs at hladder
    · simp [CloudEvent.action?, reportStoredResult_idle hladder]
    · obtain ⟨rfl, -⟩ := hladder
      rfl
  case h_2 hmissing =>
    -- a lookup that failed goes the way of one that found nothing
    have hrecord : store.onRecord = false := by
      unfold StoreAnswers.onRecord
      split
      · exact absurd ‹_› (hmissing _)
      · rfl
    obtain ⟨t₂, verdict, t₃, hverdict, hend, rfl⟩ := runs_bind.mp hladder
    obtain ⟨hagrees₂, hagrees₃⟩ := List.forall_mem_append.mp hrest
    obtain ⟨hidle, hrefusal⟩ := checkCommand_inv hverdict hagrees₂
    rw [hrecord, ← hrefusal]
    cases verdict with
    | error reason => simp [CloudEvent.action?, hidle, refuseCommand_idle hend, refusalOf]
    | ok admitted => simp [CloudEvent.action?, hidle, executeCommand_inv hend hagrees₃, refusalOf]

/-- The store failed a delivery: the lookup, or the write that marks it executing. -/
def StoreAnswers.failed (store : StoreAnswers) : Bool := !store.lookup.isOk || !store.recording.isOk

/-- **A delivery over a failing store.** It keeps away from the executor when the store
fails exactly when something else does: the store did not fail, the command is on record,
a check refuses it, or no slot is free. -/
theorem fails_closed_iff (hpayload : frame.payload = some payload)
    (h : Runs (handleCommandInvoke deps frame) t ()) (hagrees : ∀ e ∈ t, inputs.Agrees store e) :
    (store.failed = true → invokes t = false) ↔
      store.failed = false ∨ store.onRecord = true ∨ (inputs.refusal payload).isSome = true ∨
        inputs.slot = false := by
  rw [invokes_handleCommandInvoke hpayload h hagrees]
  cases store.failed <;> cases store.onRecord <;> cases inputs.slot <;>
    cases inputs.refusal payload <;> simp

/-! ### A restart over a failing store -/

theorem CommandInputs.answer_agrees {port : CloudPort} :
    inputs.Agrees store ⟨port, inputs.answer store port⟩ := by
  cases port with
  | putCloudCommand => exact fun hstatus => if_pos hstatus
  | _ => trivial

/-- The delivery of a restart over a store, with every check passed. -/
def restartOver (store : StoreAnswers) : CloudTrace :=
  (play (fun port u => (CommandInputs.permitting.answer store port, u))
    (handleCommandInvoke ⟨0, 30⟩ restartFrame) ()).1

theorem restartOver_runs : Runs (handleCommandInvoke ⟨0, 30⟩ restartFrame) (restartOver store) () :=
  play_runs _ _ ()

theorem restartOver_agrees :
    ∀ e ∈ restartOver store, CommandInputs.permitting.Agrees store e := by
  intro e he
  obtain ⟨port, reply⟩ := e
  obtain rfl : reply = CommandInputs.permitting.answer store port := play_reply he
  exact CommandInputs.answer_agrees

/-- The lookup of the command fails, and it is executed; its row cannot be written, and it
is executed as well. -/
theorem executes_over_failing_store :
    (Runs (handleCommandInvoke ⟨0, 30⟩ restartFrame)
        (restartOver ⟨.error (.unavailable "locked"), .ok ()⟩) () ∧
      (∀ e ∈ restartOver ⟨.error (.unavailable "locked"), .ok ()⟩, CommandInputs.permitting.Agrees
        ⟨.error (.unavailable "locked"), .ok ()⟩ e) ∧
      invokes (restartOver ⟨.error (.unavailable "locked"), .ok ()⟩) = true) ∧
    Runs (handleCommandInvoke ⟨0, 30⟩ restartFrame)
        (restartOver ⟨.ok none, .error (.failed "disk full")⟩) () ∧
      (∀ e ∈ restartOver ⟨.ok none, .error (.failed "disk full")⟩, CommandInputs.permitting.Agrees
        ⟨.ok none, .error (.failed "disk full")⟩ e) ∧
      invokes (restartOver ⟨.ok none, .error (.failed "disk full")⟩) = true :=
  ⟨⟨restartOver_runs, restartOver_agrees, by decide +kernel⟩,
    restartOver_runs, restartOver_agrees, by decide +kernel⟩

/-- A command found on record is not executed. -/
theorem fails_closed_iff_on_record :
    ∃ store : StoreAnswers, store.onRecord = true ∧ store.failed = true ∧
      ((store.failed = true → invokes (restartOver store) = false) ↔
        store.failed = false ∨ store.onRecord = true ∨
          (CommandInputs.permitting.refusal
            ⟨2, CapabilityId.hostServiceRestart, [("unit", .string "nginx")], none⟩).isSome = true ∨
          CommandInputs.permitting.slot = false) :=
  ⟨⟨.ok (some (CloudCommand.new 2 0
        ⟨CapabilityId.hostServiceRestart, CapabilityId.hostServiceRestart_valid⟩ .null
        none)), .error (.failed "disk full")⟩, rfl, rfl,
    fails_closed_iff rfl restartOver_runs restartOver_agrees⟩

end Argus
