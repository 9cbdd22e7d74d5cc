import Argus.Daemon.CloudCommandClosed
import Argus.Daemon.CloudCommandOnce
import Argus.Policy.Approval

/-!
# The ladder of checks

What one delivery of a command comes to, over a store that works and the approvals that were
granted here: `checks` are the conditions of the ladder in their order, and `firstFailing` is the
reason of the first that fails.

`command_ladder`: a command on record is not run again, and its result is reported again if it
has one. Any other that fails a check is recorded and reported as refused for the first that
fails, and leaves the approvals alone; a capability id that is not well formed is reported, and
leaves no record. The executor is reached past all checks only, with the approval consumed if
policy asked for one.
-/

namespace Argus

open Interaction Prog CloudCommand Installation

/-- What a delivery reads and writes: the rows of the store, the approvals, the actions the
executor was given, and the results reported. -/
structure CommandWorld where
  rows : List CloudCommand
  approvals : ApprovalStore
  executed : List AuthorizedAction
  reports : List CommandResultPayload

namespace CommandInputs

/-- The ports over a world. The approvals are those of the world. -/
def serve (inputs : CommandInputs) : (port : CloudPort) → CommandWorld → port.Reply × CommandWorld
  | .getCloudCommand id, w => (.ok (row w.rows id), w)
  | .putCloudCommand command, w =>
      (.ok (), { w with rows := stored w.rows (.putCloudCommand command) })
  | .listUnfinishedCloudCommands, w =>
      (.ok (w.rows.filter fun command => !command.status.isTerminal), w)
  | .approvalsConsume token contextHash now, w =>
      ((w.approvals.consume token contextHash now).1.isSome,
        { w with approvals := (w.approvals.consume token contextHash now).2 })
  | .execute _ _ action, w => (inputs.operation, { w with executed := w.executed ++ [action] })
  | .send result _, w => ((), { w with reports := w.reports ++ [result] })
  | port, w => (inputs.answer ⟨.ok none, .ok ()⟩ port, w)

/-- The published capability of a command. -/
def published (inputs : CommandInputs) (payload : CommandInvokePayload) :
    Option CapabilityDescriptor :=
  inputs.surface.find? fun candidate => candidate.id.asStr == payload.capabilityId

/-- What local policy says about a command. -/
def verdict (inputs : CommandInputs) (payload : CommandInvokePayload)
    (descriptor : CapabilityDescriptor) : PolicyOutcome :=
  (inputs.policy (authorizationFor payload descriptor)).outcome

/-- A granted approval authorizes the command now. -/
def approvable (inputs : CommandInputs) (approvals : ApprovalStore)
    (payload : CommandInvokePayload) : Bool :=
  (approvals.get payload.commandId).any fun approval =>
    approval.authorizes payload.commandId "" inputs.now

/-- The checks for a command that is not on record, in order, each with its reason. -/
def checks (inputs : CommandInputs) (approvals : ApprovalStore) (payload : CommandInvokePayload) :
    List (RefusalReason × Bool) :=
  let capability := inputs.published payload
  [(.unknownCapability, capability.isSome),
    (.invalidInput, capability.all fun descriptor =>
      inputMatches descriptor.inputSchema (.object payload.input)),
    (.executionDisabled, capability.all fun descriptor =>
      !descriptor.changesTheHost || inputs.enabled),
    (.policyDenied, capability.all fun descriptor =>
      inputs.verdict payload descriptor != .deny),
    (.approvalRequired, capability.all fun descriptor =>
      inputs.verdict payload descriptor != .requireApproval ||
        inputs.approvable approvals payload)]

/-- The reason of the first check that fails. -/
def firstFailing (inputs : CommandInputs) (approvals : ApprovalStore)
    (payload : CommandInvokePayload) : Option RefusalReason :=
  ((inputs.checks approvals payload).find? fun check => !check.2).map Prod.fst

/-- The world a delivery leaves. -/
def deliver (inputs : CommandInputs) (deps : CommandDeps) (frame : CommandFrame)
    (w : CommandWorld) : CommandWorld :=
  (exec inputs.serve (handleCommandInvoke deps frame) w).2

end CommandInputs

namespace CloudCommand

variable {inputs : CommandInputs} {w : CommandWorld} {payload : CommandInvokePayload}
  {deps : CommandDeps} {correlation : Option Uuid} {descriptor : CapabilityDescriptor}
  {action : AuthorizedAction}

theorem exec_ask_bind {α : Type} {port : CloudPort} {f : port.Reply → CloudM α} :
    exec inputs.serve (ask port >>= f) w =
      exec inputs.serve (f (inputs.serve port w).1) (inputs.serve port w).2 := rfl

/-- The approvals once the approval of a command was consumed, if policy asked for it. -/
def approvalsAfter (inputs : CommandInputs) (w : CommandWorld) (payload : CommandInvokePayload)
    (descriptor : CapabilityDescriptor) : ApprovalStore :=
  if inputs.verdict payload descriptor = .requireApproval then
    w.approvals.revoke payload.commandId
  else w.approvals

/-- The consumption of a command's approval: one that does not authorize stays. -/
theorem over_approvalsConsume (inputs : CommandInputs) (w : CommandWorld)
    (payload : CommandInvokePayload) :
    inputs.serve (.approvalsConsume payload.commandId "" inputs.now) w =
      (inputs.approvable w.approvals payload,
        if inputs.approvable w.approvals payload then
          { w with approvals := w.approvals.revoke payload.commandId }
        else w) := by
  have hover : inputs.serve (.approvalsConsume payload.commandId "" inputs.now) w =
      ((w.approvals.consume payload.commandId "" inputs.now).1.isSome,
        { w with approvals := (w.approvals.consume payload.commandId "" inputs.now).2 }) := rfl
  rw [hover, ApprovalStore.consume, CommandInputs.approvable]
  cases w.approvals.get payload.commandId with
  | none => rfl
  | some approval =>
      dsimp only
      rw [Option.any_some]
      cases approval.authorizes payload.commandId "" inputs.now with
      | true => rfl
      | false => rfl

theorem authorized_of_allow {decision : PolicyDecision} (authz : AuthorizationRequest)
    (h : decision.outcome = .allow) : ∃ action, authorized authz decision = .ok action := by
  simp [authorized, AuthorizedAction.new_of_allow h]

/-- Policy and approval refuse a command with the approvals as they were, or pass it with the
approval consumed that policy asked for. -/
theorem exec_authorizeCommand (inputs : CommandInputs) (w : CommandWorld)
    (payload : CommandInvokePayload) (descriptor : CapabilityDescriptor) :
    (inputs.verdict payload descriptor = .deny ∧
      exec inputs.serve (authorizeCommand payload descriptor) w = (.error .policyDenied, w)) ∨
    (inputs.verdict payload descriptor = .requireApproval ∧
      inputs.approvable w.approvals payload = false ∧
      exec inputs.serve (authorizeCommand payload descriptor) w = (.error .approvalRequired, w)) ∨
    (inputs.verdict payload descriptor ≠ .deny ∧
      (inputs.verdict payload descriptor = .requireApproval →
        inputs.approvable w.approvals payload = true) ∧
      ∃ action, exec inputs.serve (authorizeCommand payload descriptor) w =
        (.ok action, { w with approvals := approvalsAfter inputs w payload descriptor })) := by
  have hpolicy : inputs.serve (.policyEvaluate (authorizationFor payload descriptor)) w =
      (inputs.policy (authorizationFor payload descriptor), w) := rfl
  rw [authorizeCommand, exec_ask_bind, hpolicy]
  cases hverdict : inputs.verdict payload descriptor with
  | deny =>
      have houtcome : (inputs.policy (authorizationFor payload descriptor)).outcome = .deny :=
        hverdict
      simp only [houtcome]
      exact .inl ⟨trivial, rfl⟩
  | requireApproval =>
      have houtcome : (inputs.policy (authorizationFor payload descriptor)).outcome =
          .requireApproval := hverdict
      have hnow : inputs.serve .now w = (inputs.now, w) := rfl
      simp only [houtcome]
      rw [exec_ask_bind, hnow, exec_ask_bind, over_approvalsConsume]
      cases happroval : inputs.approvable w.approvals payload with
      | false => exact .inr (.inl ⟨trivial, rfl, rfl⟩)
      | true =>
          obtain ⟨action, haction⟩ := authorized_of_allow (authorizationFor payload descriptor)
            (@outcome_approved (inputs.policy (authorizationFor payload descriptor)))
          refine .inr (.inr ⟨by decide, fun _ => rfl, action, Prod.ext haction ?_⟩)
          simp only [approvalsAfter, hverdict, if_true]
          rfl
  | allow =>
      have houtcome : (inputs.policy (authorizationFor payload descriptor)).outcome = .allow :=
        hverdict
      obtain ⟨action, haction⟩ := authorized_of_allow (authorizationFor payload descriptor) houtcome
      simp only [houtcome]
      refine .inr (.inr ⟨by decide, fun h => (by cases h), action, Prod.ext haction ?_⟩)
      simp only [approvalsAfter, hverdict, reduceCtorEq, if_false]
      rfl

/-- The checks of a published capability, one after the other. -/
theorem firstFailing_of_published {approvals : ApprovalStore}
    (h : inputs.published payload = some descriptor) :
    inputs.firstFailing approvals payload =
      if !inputMatches descriptor.inputSchema (.object payload.input) then some .invalidInput
      else if !(!descriptor.changesTheHost || inputs.enabled) then some .executionDisabled
      else if inputs.verdict payload descriptor = .deny then some .policyDenied
      else if inputs.verdict payload descriptor = .requireApproval ∧
        inputs.approvable approvals payload = false then some .approvalRequired
      else none := by
  simp only [CommandInputs.firstFailing, CommandInputs.checks, h, Option.isSome_some,
    Option.all_some, List.find?_cons, Bool.not_true]
  cases inputMatches descriptor.inputSchema (.object payload.input) with
  | false => rfl
  | true =>
      cases !descriptor.changesTheHost || inputs.enabled with
      | false => rfl
      | true =>
          cases inputs.verdict payload descriptor with
          | deny => rfl
          | requireApproval => cases inputs.approvable approvals payload <;> rfl
          | allow => rfl

theorem exec_executionEnabled (inputs : CommandInputs) (w : CommandWorld)
    (descriptor : CapabilityDescriptor) :
    exec inputs.serve (executionEnabled descriptor) w =
      (!descriptor.changesTheHost || inputs.enabled, w) := by
  unfold executionEnabled
  cases descriptor.changesTheHost with
  | false => rfl
  | true => rfl

/-- The checks refuse a command for the first that fails, with the approvals as they were, or
pass it. -/
theorem exec_checkCommand (inputs : CommandInputs) (w : CommandWorld)
    (payload : CommandInvokePayload) :
    (∃ reason, inputs.firstFailing w.approvals payload = some reason ∧
      exec inputs.serve (checkCommand payload) w = (.error reason, w)) ∨
    (inputs.firstFailing w.approvals payload = none ∧
      ∃ descriptor action, inputs.published payload = some descriptor ∧
        exec inputs.serve (checkCommand payload) w =
          (.ok (descriptor, action),
            { w with approvals := approvalsAfter inputs w payload descriptor })) := by
  have hsurface : inputs.serve .capabilities w = (inputs.surface, w) := rfl
  rw [checkCommand, exec_ask_bind, hsurface]
  cases hpublished : inputs.published payload with
  | none =>
      have hfind : (inputs.surface.find? fun candidate =>
          candidate.id.asStr == payload.capabilityId) = none := hpublished
      refine .inl ⟨.unknownCapability, ?_, ?_⟩
      · simp [CommandInputs.firstFailing, CommandInputs.checks, hpublished]
      · simp only [hfind]
        rfl
  | some descriptor =>
      have hfind : (inputs.surface.find? fun candidate =>
          candidate.id.asStr == payload.capabilityId) = some descriptor := hpublished
      rw [firstFailing_of_published hpublished]
      simp only [hfind]
      cases inputMatches descriptor.inputSchema (.object payload.input) with
      | false => exact .inl ⟨.invalidInput, rfl, rfl⟩
      | true =>
          simp only [Bool.not_true, Bool.false_eq_true, if_false]
          rw [exec_bind, exec_executionEnabled]
          cases !descriptor.changesTheHost || inputs.enabled with
          | false => exact .inl ⟨.executionDisabled, rfl, rfl⟩
          | true =>
              simp only [Bool.not_true, Bool.false_eq_true, if_false]
              rw [exec_bind]
              rcases exec_authorizeCommand inputs w payload descriptor with
                ⟨hdeny, hexec⟩ | ⟨hasks, happroval, hexec⟩ | ⟨hdeny, happroval, action, hexec⟩
              · rw [hexec]
                exact .inl ⟨.policyDenied, if_pos hdeny, rfl⟩
              · rw [hexec]
                refine .inl ⟨.approvalRequired, ?_, rfl⟩
                rw [if_neg (by rw [hasks]; decide), if_pos ⟨hasks, happroval⟩]
              · rw [hexec]
                refine .inr ⟨?_, descriptor, action, rfl, rfl⟩
                rw [if_neg hdeny, if_neg]
                intro h
                obtain ⟨hasks, hmissing⟩ := h
                rw [happroval hasks] at hmissing
                cases hmissing

/-- What a refusal leaves. A capability id that is not one leaves no record. -/
def refusedWorld (deps : CommandDeps) (payload : CommandInvokePayload) (reason : RefusalReason)
    (w : CommandWorld) : CommandWorld :=
  match CapabilityId.new payload.capabilityId with
  | none => { w with reports := w.reports ++
      [⟨payload.commandId, .refused, none, some RefusalReason.unknownCapability.describe⟩] }
  | some capability => { w with
      rows := stored w.rows (.putCloudCommand ((CloudCommand.new payload.commandId
        deps.environmentId capability (.object payload.input) payload.correlationId).refuse reason))
      reports := w.reports ++ [⟨payload.commandId, .refused, none, some reason.describe⟩] }

theorem exec_refuseCommand (inputs : CommandInputs) (w : CommandWorld) (reason : RefusalReason) :
    (exec inputs.serve (refuseCommand deps payload correlation reason) w).2 =
      refusedWorld deps payload reason w := by
  unfold refuseCommand refusedWorld
  cases CapabilityId.new payload.capabilityId with
  | none => rfl
  | some capability => rfl

/-- How an execution can come out. -/
def IsOutcome : CommandResultStatus × Option Value × Option String → Prop
  | (.acknowledged, result, reason) => result.isSome ∧ reason = none
  | (.failed, result, reason) => result = none ∧ reason.isSome
  | (.refused, _, _) => False

theorem exec_runLimited (inputs : CommandInputs) (w : CommandWorld) :
    ∃ outcome executed, IsOutcome outcome ∧
      exec inputs.serve (runLimited deps descriptor action) w = (outcome, { w with executed }) := by
  obtain ⟨surface, enabled, policy, approved, slot, operation, now⟩ := inputs
  cases slot with
  | false =>
      refine ⟨_, _, ?_, rfl⟩
      exact ⟨rfl, rfl⟩
  | true =>
      cases operation with
      | finished result =>
          cases result with
          | ok evidence =>
              refine ⟨_, _, ?_, rfl⟩
              exact ⟨rfl, rfl⟩
          | error error =>
              refine ⟨_, _, ?_, rfl⟩
              exact ⟨rfl, rfl⟩
      | timedOut =>
          refine ⟨_, _, ?_, rfl⟩
          exact ⟨rfl, rfl⟩

/-- What an execution leaves: the row and the report of its outcome. -/
theorem exec_executeCommand (inputs : CommandInputs) (w : CommandWorld) :
    ∃ status result reason executed, IsOutcome (status, result, reason) ∧
      (exec inputs.serve (executeCommand deps payload correlation descriptor action) w).2 =
        { w with
          rows := stored (stored w.rows (.putCloudCommand (executingRow deps payload descriptor)))
            (.putCloudCommand { executingRow deps payload descriptor with
              status := storedStatus status, result })
          executed
          reports := w.reports ++
            [⟨payload.commandId, status, result.bind Value.asObject, reason⟩] } := by
  have hput : inputs.serve (.putCloudCommand (executingRow deps payload descriptor)) w =
      (.ok (), { w with
        rows := stored w.rows (.putCloudCommand (executingRow deps payload descriptor)) }) := rfl
  obtain ⟨⟨status, result, reason⟩, executed, houtcome, hexec⟩ :=
    @exec_runLimited deps descriptor action inputs { w with
      rows := stored w.rows (.putCloudCommand (executingRow deps payload descriptor)) }
  refine ⟨status, result, reason, executed, houtcome, ?_⟩
  rw [executeCommand, exec_ask_bind, hput, exec_bind, hexec]
  rfl

/-- What a command on record is answered with. -/
def storedResult (command : CloudCommand) : Option CommandResultPayload :=
  (resultStatus command.status).map fun status =>
    ⟨command.commandId, status, command.result.bind Value.asObject,
      command.refusalReason.map RefusalReason.describe⟩

theorem exec_reportStoredResult (inputs : CommandInputs) (w : CommandWorld)
    (command : CloudCommand) :
    (exec inputs.serve (if command.status.isTerminal then reportStoredResult command correlation
      else pure ()) w).2 = { w with reports := w.reports ++ command.storedResult.toList } := by
  have hnothing : w = { w with reports := w.reports ++ [] } := by rw [List.append_nil]
  unfold reportStoredResult CloudCommand.storedResult
  cases command.status with
  | received => exact hnothing
  | executing => exact hnothing
  | refused => rfl
  | acknowledged => rfl
  | failed => rfl

/-- What a delivery leaves: the answer from the record, a refusal, or an outcome. -/
theorem deliver_cases (inputs : CommandInputs) (deps : CommandDeps) (w : CommandWorld)
    {frame : CommandFrame} (h : frame.payload = some payload) :
    (∃ command, row w.rows payload.commandId = some command ∧
      inputs.deliver deps frame w =
        { w with reports := w.reports ++ command.storedResult.toList }) ∨
    (row w.rows payload.commandId = none ∧ ∃ reason,
      inputs.firstFailing w.approvals payload = some reason ∧
        inputs.deliver deps frame w = refusedWorld deps payload reason w) ∨
    (row w.rows payload.commandId = none ∧ inputs.firstFailing w.approvals payload = none ∧
      ∃ descriptor status result reason executed,
        inputs.published payload = some descriptor ∧ IsOutcome (status, result, reason) ∧
        inputs.deliver deps frame w =
          { rows := stored (stored w.rows
              (.putCloudCommand (executingRow deps payload descriptor)))
              (.putCloudCommand { executingRow deps payload descriptor with
                status := storedStatus status, result })
            approvals := approvalsAfter inputs w payload descriptor
            executed
            reports := w.reports ++
              [⟨payload.commandId, status, result.bind Value.asObject, reason⟩] }) := by
  have hlookup : inputs.serve (.getCloudCommand payload.commandId) w =
      (.ok (row w.rows payload.commandId), w) := rfl
  rw [CommandInputs.deliver, handleCommandInvoke, h]
  dsimp only
  rw [exec_ask_bind, hlookup]
  cases hrow : row w.rows payload.commandId with
  | some command => exact .inl ⟨command, rfl, exec_reportStoredResult inputs w command⟩
  | none =>
      dsimp only
      rw [exec_bind]
      rcases exec_checkCommand inputs w payload with
        ⟨reason, hfailing, hexec⟩ | ⟨hpassed, descriptor, action, hpublished, hexec⟩
      · rw [hexec]
        exact .inr (.inl ⟨rfl, reason, hfailing, exec_refuseCommand inputs w reason⟩)
      · obtain ⟨status, result, reason, executed, houtcome, hafter⟩ :=
          @exec_executeCommand payload deps (frame.correlationId.or (some frame.messageId))
            descriptor action inputs
            { w with approvals := approvalsAfter inputs w payload descriptor }
        rw [hexec]
        exact .inr (.inr ⟨rfl, hpassed, descriptor, status, result, reason, executed, hpublished,
          houtcome, hafter⟩)

end CloudCommand

/-- The command was refused on record, for this reason. -/
def RefusedFor (rows : List CloudCommand) (commandId : Uuid) (reason : RefusalReason) : Prop :=
  ∃ command, row rows commandId = some command ∧ command.status = .refused ∧
    command.refusalReason = some reason

/-- What a delivery comes to. -/
structure Laddered (inputs : CommandInputs) (payload : CommandInvokePayload)
    (w w' : CommandWorld) : Prop where
  /-- The executor is reached past all checks only. -/
  executor : w'.executed ≠ w.executed →
    row w.rows payload.commandId = none ∧ inputs.firstFailing w.approvals payload = none
  /-- The first check that fails is the one that is reported, and recorded if the capability
  id is one. -/
  refused : row w.rows payload.commandId = none → ∀ reason,
    inputs.firstFailing w.approvals payload = some reason →
      w'.reports = w.reports ++
        [⟨payload.commandId, .refused, none, some reason.describe⟩] ∧
      (RefusedFor w'.rows payload.commandId reason ∨
        CapabilityId.new payload.capabilityId = none ∧ w'.rows = w.rows)
  /-- A command on record is answered with its result. -/
  onRecord : ∀ command, row w.rows payload.commandId = some command →
    w' = { w with reports := w.reports ++ command.storedResult.toList }
  /-- An approval is consumed past all checks only. -/
  kept : row w.rows payload.commandId ≠ none ∨ inputs.firstFailing w.approvals payload ≠ none →
    w'.approvals = w.approvals
  /-- The approval that policy asked for is consumed. -/
  consumed : row w.rows payload.commandId = none →
    inputs.firstFailing w.approvals payload = none →
      ∃ descriptor, inputs.published payload = some descriptor ∧
        w'.approvals = approvalsAfter inputs w payload descriptor

section

variable {inputs : CommandInputs} {deps : CommandDeps} {frame : CommandFrame}
  {payload : CommandInvokePayload} {w : CommandWorld}

theorem row_stored (rows : List CloudCommand) (command : CloudCommand) :
    row (stored rows (.putCloudCommand command)) command.commandId = some command := by
  simp [row, stored]

/-- A capability id that is not one is not published. -/
theorem unknown_of_not_new (h : CapabilityId.new payload.capabilityId = none)
    (approvals : ApprovalStore) :
    inputs.firstFailing approvals payload = some .unknownCapability := by
  have hpublished : inputs.published payload = none := by
    refine List.find?_eq_none.mpr fun descriptor _ hid => ?_
    have hvalid := descriptor.id.valid
    rw [eq_of_beq hid] at hvalid
    simp [CapabilityId.new, hvalid] at h
  simp [CommandInputs.firstFailing, CommandInputs.checks, hpublished]

/-- **The ladder**, for every command, surface, kill switch, policy and approvals. -/
theorem command_ladder (h : frame.payload = some payload) :
    Laddered inputs payload w (inputs.deliver deps frame w) := by
  rcases deliver_cases inputs deps w h with
    ⟨command, hrow, hdeliver⟩ | ⟨hrow, reason, hfailing, hdeliver⟩ |
      ⟨hrow, hpassed, descriptor, status, result, reason, executed, hpublished, -, hdeliver⟩
  · rw [hdeliver]
    constructor
    case executor => exact fun hchanged => absurd rfl hchanged
    case refused => simp [hrow]
    case onRecord =>
      intro other hother
      rw [hrow] at hother
      obtain rfl := Option.some.inj hother
      rfl
    case kept => exact fun _ => rfl
    case consumed => simp [hrow]
  · rw [hdeliver, refusedWorld]
    cases hcapability : CapabilityId.new payload.capabilityId with
    | none =>
        constructor
        case executor => exact fun hchanged => absurd rfl hchanged
        case refused =>
          -- no capability of that id is published, so that is the check that fails
          intro _ first hfirst
          rw [unknown_of_not_new hcapability] at hfirst
          obtain rfl := Option.some.inj hfirst
          exact ⟨rfl, .inr ⟨hcapability, rfl⟩⟩
        case onRecord => simp [hrow]
        case kept => exact fun _ => rfl
        case consumed => simp [hfailing]
    | some capability =>
        constructor
        case executor => exact fun hchanged => absurd rfl hchanged
        case refused =>
          intro _ first hfirst
          rw [hfailing] at hfirst
          obtain rfl := Option.some.inj hfirst
          exact ⟨rfl, .inl ⟨_, row_stored w.rows _, rfl, rfl⟩⟩
        case onRecord => simp [hrow]
        case kept => exact fun _ => rfl
        case consumed => simp [hfailing]
  · rw [hdeliver]
    constructor
    case executor => exact fun _ => ⟨hrow, hpassed⟩
    case refused => simp [hpassed]
    case onRecord => simp [hrow]
    case kept => simp [hrow, hpassed]
    case consumed => exact fun _ _ => ⟨descriptor, hpublished, rfl⟩

end

/-- A daemon that has seen no command and has no approvals. -/
def CommandWorld.fresh : CommandWorld := ⟨[], .empty, [], []⟩

theorem command_ladder_restart :
    Laddered .permitting ⟨2, CapabilityId.hostServiceRestart, [("unit", .string "nginx")], none⟩
      .fresh (CommandInputs.permitting.deliver ⟨0, 30⟩ restartFrame .fresh) :=
  command_ladder rfl

/-- A command that is on record, or fails a check, is recorded and reported as refused, for the
first check that fails if it is not on record. -/
def AlwaysRefused (inputs : CommandInputs) (payload : CommandInvokePayload)
    (w w' : CommandWorld) : Prop :=
  row w.rows payload.commandId ≠ none ∨ inputs.firstFailing w.approvals payload ≠ none →
    ∃ reason, (row w.rows payload.commandId = none →
        inputs.firstFailing w.approvals payload = some reason) ∧
      w'.reports = w.reports ++ [⟨payload.commandId, .refused, none, some reason.describe⟩] ∧
      RefusedFor w'.rows payload.commandId reason

/-- The restart was executed, and is delivered again. -/
def restarted : CommandWorld := CommandInputs.permitting.deliver ⟨0, 30⟩ restartFrame .fresh

/-- An id that is no capability's. -/
def malformedPayload : CommandInvokePayload := ⟨2, "Host Service", [], none⟩

/-- A command on record is reported as it was; one with a malformed capability id is not
recorded. -/
theorem not_always_refused :
    ¬ AlwaysRefused .permitting
        ⟨2, CapabilityId.hostServiceRestart, [("unit", .string "nginx")], none⟩ restarted
        (CommandInputs.permitting.deliver ⟨0, 30⟩ restartFrame restarted) ∧
      ¬ AlwaysRefused .permitting malformedPayload .fresh
        (CommandInputs.permitting.deliver ⟨0, 30⟩ ⟨1, none, some malformedPayload⟩ .fresh) := by
  constructor
  · intro h
    obtain ⟨reason, -, hreports, -⟩ := h (.inl (by decide +kernel))
    have hlast : ((CommandInputs.permitting.deliver ⟨0, 30⟩ restartFrame restarted).reports.map
        CommandResultPayload.status).getLast? = some .acknowledged := by decide +kernel
    rw [hreports, List.map_append, List.map_singleton, List.getLast?_concat] at hlast
    cases hlast
  · intro h
    obtain ⟨reason, -, -, command, hrow, -⟩ := h (.inr (by decide))
    have hrows : (CommandInputs.permitting.deliver ⟨0, 30⟩ ⟨1, none, some malformedPayload⟩
        .fresh).rows = [] := by decide
    rw [hrows] at hrow
    cases hrow

end Argus
