import Argus.Daemon.CloudCommandLadder
import Argus.Policy.ApprovalUse

/-!
# A result that is reported again

The first report of a command is made from its outcome, and a later one from its row. The row
keeps the reason of a refusal, and no other: a command that failed, timed out, waited past its
queue budget or was settled by a restart is reported with a reason once, and without one from
then on.

The daemon carries out one activity after the other, deliveries and the settling of what a
previous run left unfinished, and can go down in the middle of one. `rereport_iff` says, for
every such run, when a delivery repeats the first report of its command.
-/

namespace Argus

open Interaction Prog CloudCommand Installation

inductive CommandActivity
  | delivery (deps : CommandDeps) (frame : CommandFrame)
  /-- A session starts. -/
  | recovery

def CommandActivity.program : CommandActivity → CloudM Unit
  | .delivery deps frame => handleCommandInvoke deps frame
  | .recovery => resolveInterruptedCommands

inductive CommandEvent
  /-- The daemon carries out an activity, and goes down if that takes more requests. -/
  | performs (inputs : CommandInputs) (activity : CommandActivity) (requests : Nat)
  | operator (op : ApprovalOp)

namespace CommandWorld

def step (w : CommandWorld) : CommandEvent → CommandWorld
  | .performs inputs activity requests => upTo inputs.serve requests activity.program w
  | .operator op => { w with approvals := w.approvals.apply op }

/-- The world after a run. -/
def after (events : List CommandEvent) : CommandWorld := Machine.run step fresh events

/-- What was reported first about a command. -/
def firstReport (w : CommandWorld) (commandId : Uuid) : Option CommandResultPayload :=
  w.reports.find? fun report => report.commandId == commandId

end CommandWorld

/-- The report about a capability that is not published. -/
def unknownReport (commandId : Uuid) : CommandResultPayload :=
  ⟨commandId, .refused, none, some RefusalReason.unknownCapability.describe⟩

/-- The row would be reported as `report` says, but for the reason of a failure. -/
def Stands (command : CloudCommand) (report : CommandResultPayload) : Prop :=
  ∃ again, command.storedResult = some again ∧ report.commandId = again.commandId ∧
    report.status = again.status ∧ report.result = again.result ∧
    (report.status ≠ .failed → report.reason = again.reason)

/-- What a row can hold. -/
def Shaped (command : CloudCommand) : Prop :=
  (command.status ≠ .acknowledged → command.result = none) ∧
    (command.status ≠ .refused → command.refusalReason = none)

/-- The first report of a command stands, or was made without a record. -/
structure Faithful (w : CommandWorld) : Prop where
  shaped : ∀ command ∈ w.rows, Shaped command
  distinct : (w.rows.map CloudCommand.commandId).Nodup
  first : ∀ id report, w.firstReport id = some report →
    report = unknownReport id ∨ ∃ command, row w.rows id = some command ∧ Stands command report

section

variable {inputs : CommandInputs} {w w' : CommandWorld} {command : CloudCommand} {id : Uuid}
  {report : CommandResultPayload} {payload : CommandInvokePayload} {deps : CommandDeps}
  {correlation : Option Uuid}

theorem row_mem (h : row w.rows id = some command) : command ∈ w.rows ∧ command.commandId = id :=
  ⟨List.mem_of_find?_eq_some h, by simpa using List.find?_some h⟩

theorem row_stored_of_ne {rows : List CloudCommand} (h : command.commandId ≠ id) :
    row (stored rows (.putCloudCommand command)) id = row rows id := by
  have hskip : row (stored rows (.putCloudCommand command)) id =
      row (rows.filter fun other => other.commandId != command.commandId) id := by
    simp [row, stored, h]
  rw [hskip, row, row, List.find?_filter]
  refine congrArg (fun p => rows.find? p) (funext fun other => ?_)
  by_cases hother : other.commandId = id
  · simp [hother, Ne.symm h]
  · simp [hother]

/-- A row that has no result yet is written. -/
theorem Faithful.put (h : Faithful w) (hshaped : Shaped command)
    (hfree : ∀ old, row w.rows command.commandId = some old → old.storedResult = none) :
    Faithful { w with rows := stored w.rows (.putCloudCommand command) } := by
  constructor
  case shaped =>
    intro other hother
    rcases List.mem_cons.mp hother with rfl | hold
    · exact hshaped
    · exact h.shaped other (List.mem_filter.mp hold).1
  case distinct =>
    refine List.nodup_cons.mpr ⟨fun hmem => ?_, ?_⟩
    · obtain ⟨other, hother, heq⟩ := List.mem_map.mp hmem
      have hne := (List.mem_filter.mp hother).2
      simp [heq] at hne
    · exact (List.filter_sublist.map CloudCommand.commandId).nodup h.distinct
  case first =>
    intro id report hreport
    rcases h.first id report hreport with hunknown | ⟨old, hrow, hstands⟩
    · exact .inl hunknown
    · by_cases hid : command.commandId = id
      · -- a row that stands for a report has a result
        obtain ⟨again, hagain, -⟩ := hstands
        rw [hfree old (hid ▸ hrow)] at hagain
        cases hagain
      · exact .inr ⟨old, (row_stored_of_ne hid).trans hrow, hstands⟩

/-- A report that stands is made. -/
theorem Faithful.send (h : Faithful w)
    (hreport : report = unknownReport report.commandId ∨
      ∃ command, row w.rows report.commandId = some command ∧ Stands command report) :
    Faithful { w with reports := w.reports ++ [report] } := by
  refine ⟨h.shaped, h.distinct, fun id first hfirst => ?_⟩
  rw [CommandWorld.firstReport, List.find?_append] at hfirst
  cases hold : w.firstReport id with
  | some earlier =>
      rw [CommandWorld.firstReport] at hold
      rw [hold] at hfirst
      obtain rfl := Option.some.inj hfirst
      exact h.first id earlier hold
  | none =>
      rw [CommandWorld.firstReport] at hold
      rw [hold, Option.none_or] at hfirst
      have hsame : first.commandId = id := by simpa using List.find?_some hfirst
      have hlast : first = report := List.mem_singleton.mp (List.mem_of_find?_eq_some hfirst)
      rw [hlast] at hsame ⊢
      exact hsame ▸ hreport

theorem Faithful.of_same (h : Faithful w) (hrows : w'.rows = w.rows)
    (hreports : w'.reports = w.reports) : Faithful w' := by
  refine ⟨hrows ▸ h.shaped, hrows ▸ h.distinct, fun id report hfirst => ?_⟩
  rw [CommandWorld.firstReport, hreports] at hfirst
  rw [hrows]
  exact h.first id report hfirst

/-! ### The activities -/

/-- The port neither writes a row nor reports. -/
def Quiet : CloudPort → Prop
  | .putCloudCommand _ | .send _ _ => False
  | _ => True

theorem Faithful.quiet (port : CloudPort) (w : CommandWorld) (hport : Quiet port)
    (h : Faithful w) : Faithful (inputs.serve port w).2 := by
  cases port with
  | putCloudCommand => cases hport
  | send => cases hport
  | _ => exact h.of_same rfl rfl

theorem asks_ask_bind {P : CloudPort → Prop} {α : Type} {port : CloudPort}
    {f : port.Reply → CloudM α} :
    Asks P (ask port >>= f) ↔ P port ∧ ∀ r, Asks P (f r) := asks_call_bind

theorem throughout_ask_bind {I : CommandWorld → Prop} {α : Type} {port : CloudPort}
    {f : port.Reply → CloudM α} :
    Throughout inputs.serve I (ask port >>= f) w ↔
      I w ∧ Throughout inputs.serve I (f (inputs.serve port w).1) (inputs.serve port w).2 :=
  throughout_call_bind

theorem authorizeCommand_quiet {descriptor : CapabilityDescriptor} :
    Asks Quiet (authorizeCommand payload descriptor) := by
  refine asks_ask_bind.mpr ⟨trivial, fun decision => ?_⟩
  cases decision.outcome with
  | deny => exact ⟨trivial, fun _ => trivial⟩
  | requireApproval =>
      exact ⟨trivial, fun _ => ⟨trivial, fun _ => ⟨trivial, fun _ => trivial⟩⟩⟩
  | allow => exact ⟨trivial, fun _ => trivial⟩

theorem checkCommand_quiet : Asks Quiet (checkCommand payload) := by
  refine asks_ask_bind.mpr ⟨trivial, fun surface => ?_⟩
  split
  · trivial
  · split_ifs
    · trivial
    · refine Asks.bind ?_ fun enabled => ?_
      · unfold executionEnabled
        split_ifs
        · exact ⟨trivial, fun _ => trivial⟩
        · trivial
      · split_ifs
        · trivial
        · exact authorizeCommand_quiet.bind fun _ => trivial

theorem runLimited_quiet {descriptor : CapabilityDescriptor} {action : AuthorizedAction} :
    Asks Quiet (runLimited deps descriptor action) := by
  refine ⟨trivial, fun slot => ?_⟩
  cases slot with
  | false => trivial
  | true =>
      refine ⟨trivial, fun reply => ?_⟩
      cases reply with
      | finished result => cases result <;> trivial
      | timedOut => trivial

theorem Faithful.sends (h : Faithful w) {status : CommandResultStatus} {result : Option Value}
    {reason : Option String}
    (hreport : (⟨id, status, result.bind Value.asObject, reason⟩ : CommandResultPayload) =
        unknownReport id ∨
      ∃ command, row w.rows id = some command ∧
        Stands command ⟨id, status, result.bind Value.asObject, reason⟩) :
    Throughout inputs.serve Faithful (sendCommandResult id status result reason correlation) w :=
  ⟨h, h.send hreport⟩

theorem Faithful.refuses (h : Faithful w) (hrow : row w.rows payload.commandId = none)
    (reason : RefusalReason) :
    Throughout inputs.serve Faithful (refuseCommand deps payload correlation reason) w := by
  unfold refuseCommand
  cases CapabilityId.new payload.capabilityId with
  | none => exact h.sends (.inl rfl)
  | some capability =>
      have hput : Faithful { w with rows := stored w.rows (.putCloudCommand
          ((CloudCommand.new payload.commandId deps.environmentId capability
            (.object payload.input) payload.correlationId).refuse reason)) } := by
        refine h.put ⟨fun _ => rfl, fun hstatus => absurd rfl hstatus⟩ fun old hold => ?_
        rw [show row w.rows payload.commandId = some old from hold] at hrow
        cases hrow
      refine ⟨h, hput, hput.sends (.inr ⟨_, row_stored w.rows _, _, rfl, rfl, rfl, rfl, ?_⟩)⟩
      exact fun _ => rfl

/-- The row of an outcome stands for its report. -/
theorem IsOutcome.stands {status : CommandResultStatus} {result : Option Value}
    {reason : Option String} (h : IsOutcome (status, result, reason))
    (hreason : command.refusalReason = none) :
    Shaped { command with status := storedStatus status, result } ∧
      Stands { command with status := storedStatus status, result }
        ⟨command.commandId, status, result.bind Value.asObject, reason⟩ := by
  cases status with
  | acknowledged =>
      refine ⟨⟨fun hstatus => absurd rfl hstatus, fun _ => hreason⟩, _, rfl, rfl, rfl, rfl, ?_⟩
      intro _
      have hnone : reason = none := h.2
      simp [hnone, hreason]
  | failed =>
      refine ⟨⟨fun _ => h.1, fun _ => hreason⟩, _, rfl, rfl, rfl, rfl, ?_⟩
      exact fun hstatus => absurd rfl hstatus
  | refused => exact h.elim

theorem Faithful.executes (h : Faithful w) (hrow : row w.rows payload.commandId = none)
    (descriptor : CapabilityDescriptor) (action : AuthorizedAction) :
    Throughout inputs.serve Faithful
      (executeCommand deps payload correlation descriptor action) w := by
  -- the row is written as executing, and has no result
  have hput : Faithful { w with
      rows := stored w.rows (.putCloudCommand (executingRow deps payload descriptor)) } := by
    refine h.put ⟨fun _ => rfl, fun _ => rfl⟩ fun old hold => ?_
    rw [show row w.rows payload.commandId = some old from hold] at hrow
    cases hrow
  obtain ⟨⟨status, result, reason⟩, executed, houtcome, hexec⟩ :=
    @exec_runLimited deps descriptor action inputs { w with
      rows := stored w.rows (.putCloudCommand (executingRow deps payload descriptor)) }
  refine throughout_ask_bind.mpr ⟨h, Throughout.bind ?_ ?_⟩
  · exact runLimited_quiet.throughout hput Faithful.quiet
  · rw [show exec inputs.serve (runLimited deps descriptor action)
      (inputs.serve (.putCloudCommand (executingRow deps payload descriptor)) w).2 = _ from hexec]
    obtain ⟨hshaped, hstands⟩ :=
      @IsOutcome.stands (executingRow deps payload descriptor) _ _ _ houtcome rfl
    have hran : Faithful { w with
        rows := stored w.rows (.putCloudCommand (executingRow deps payload descriptor))
        executed } := hput.of_same rfl rfl
    have hdone := hran.put hshaped fun old hold => by
      obtain rfl : executingRow deps payload descriptor = old :=
        Option.some.inj ((row_stored w.rows _).symm.trans hold)
      rfl
    exact ⟨hran, hdone, hdone, hdone.send (.inr ⟨_, row_stored _ _, hstands⟩)⟩

/-- What is on record is reported as it is stored. -/
theorem Faithful.reports (h : Faithful w) {commandId : Uuid} {command : CloudCommand}
    (hrow : row w.rows commandId = some command) (correlation : Option Uuid) :
    Throughout inputs.serve Faithful (reportStoredResult command correlation) w := by
  obtain ⟨-, hid⟩ := row_mem hrow
  unfold reportStoredResult
  cases hstatus : resultStatus command.status with
  | none => exact h
  | some status =>
      refine h.sends (.inr ⟨command, hid.symm ▸ hrow, _, ?_, rfl, rfl, rfl, fun _ => rfl⟩)
      rw [CloudCommand.storedResult, hstatus]
      rfl

theorem Faithful.delivers (h : Faithful w) (frame : CommandFrame) :
    Throughout inputs.serve Faithful (handleCommandInvoke deps frame) w := by
  unfold handleCommandInvoke
  cases frame.payload with
  | none => exact h
  | some payload =>
      have hlookup : inputs.serve (.getCloudCommand payload.commandId) w =
          (.ok (row w.rows payload.commandId), w) := rfl
      refine throughout_ask_bind.mpr ⟨h, ?_⟩
      rw [hlookup]
      cases hrow : row w.rows payload.commandId with
      | some command =>
          dsimp only
          split_ifs
          · exact h.reports hrow _
          · exact h
      | none =>
          refine Throughout.bind (checkCommand_quiet.throughout h Faithful.quiet) ?_
          rcases exec_checkCommand inputs w payload with
            ⟨reason, -, hexec⟩ | ⟨-, descriptor, action, -, hexec⟩
          · rw [hexec]
            exact h.refuses hrow reason
          · rw [hexec]
            have hchecked : Faithful
                { w with approvals := approvalsAfter inputs w payload descriptor } :=
              h.of_same rfl rfl
            exact hchecked.executes hrow descriptor action

/-- The commands that are settled are on record, each once, and have no result. -/
theorem Faithful.settles {commands : List CloudCommand} (h : Faithful w)
    (hdistinct : (commands.map CloudCommand.commandId).Nodup)
    (hunfinished : ∀ command ∈ commands, row w.rows command.commandId = some command ∧
      command.status.isTerminal = false) :
    Throughout inputs.serve Faithful (settleCommands commands) w := by
  induction commands generalizing w with
  | nil => exact h
  | cons command rest ih =>
      obtain ⟨hnew, hdistinct⟩ := List.nodup_cons.mp hdistinct
      obtain ⟨⟨hrow, hstatus⟩, hrest⟩ := List.forall_mem_cons.mp hunfinished
      obtain ⟨hresult, hreason⟩ := h.shaped command (row_mem hrow).1
      have hblank : command.result = none ∧ command.refusalReason = none ∧
          command.storedResult = none := by
        refine ⟨hresult ?_, hreason ?_, ?_⟩
        · rintro heq
          rw [heq] at hstatus
          cases hstatus
        · rintro heq
          rw [heq] at hstatus
          cases hstatus
        · unfold CloudCommand.storedResult
          cases hcase : command.status with
          | received => rfl
          | executing => rfl
          | _ =>
              rw [hcase] at hstatus
              cases hstatus
      obtain ⟨hnone, hunrefused, hunanswered⟩ := hblank
      have hput : Faithful { w with
          rows := stored w.rows (.putCloudCommand { command with status := .failed }) } := by
        refine h.put ⟨fun _ => hnone, fun _ => hunrefused⟩ fun old hold => ?_
        obtain rfl : command = old := Option.some.inj (hrow.symm.trans hold)
        exact hunanswered
      have hstands : Stands { command with status := .failed }
          ⟨command.commandId, .failed, none, some (interruptedReason command.status)⟩ :=
        ⟨_, rfl, rfl, rfl, by simp [hnone], fun hfailed => absurd rfl hfailed⟩
      have hsent := hput.send (.inr ⟨_, row_stored w.rows _, hstands⟩)
      refine ⟨h, hput, ih hsent hdistinct fun other hother => ?_⟩
      obtain ⟨hrow', hstatus'⟩ := hrest other hother
      refine ⟨(row_stored_of_ne fun heq => hnew ?_).trans hrow', hstatus'⟩
      exact List.mem_map.mpr ⟨other, hother, heq.symm⟩

theorem row_of_mem {rows : List CloudCommand} (hdistinct : (rows.map CloudCommand.commandId).Nodup)
    (hmem : command ∈ rows) : row rows command.commandId = some command := by
  cases hrow : row rows command.commandId with
  | none => exact absurd (List.find?_eq_none.mp hrow command hmem) (by simp)
  | some other =>
      have hid : other.commandId = command.commandId := by simpa using List.find?_some hrow
      exact congrArg some
        (List.inj_on_of_nodup_map hdistinct (List.mem_of_find?_eq_some hrow) hmem hid)

theorem Faithful.performs (h : Faithful w) (activity : CommandActivity) :
    Throughout inputs.serve Faithful activity.program w := by
  cases activity with
  | delivery deps frame => exact h.delivers frame
  | recovery =>
      refine ⟨h, h.settles ?_ fun command hcommand => ?_⟩
      · exact (List.filter_sublist.map CloudCommand.commandId).nodup h.distinct
      · obtain ⟨hmem, hstatus⟩ := List.mem_filter.mp hcommand
        exact ⟨row_of_mem h.distinct hmem, by simpa using hstatus⟩

end

theorem faithful_fresh : Faithful .fresh :=
  ⟨by simp [CommandWorld.fresh], List.nodup_nil, fun _ _ hfirst => by cases hfirst⟩

/-- In every run, with crashes anywhere, the first report of a command stands. -/
theorem faithful_after (events : List CommandEvent) : Faithful (CommandWorld.after events) := by
  refine Machine.invariant faithful_fresh (fun w e h => ?_) events
  cases e with
  | performs inputs activity requests => exact (h.performs activity).upTo requests
  | operator op => exact h.of_same rfl rfl

/-! ### Reporting again -/

/-- What a first report must be for a delivery to repeat it: not a failure with a reason; and if
the capability was unknown, the record says so, or there is none and it still is. -/
def Repeatable (inputs : CommandInputs) (w : CommandWorld) (payload : CommandInvokePayload)
    (report : CommandResultPayload) : Prop :=
  (report.status = .failed → report.reason = none) ∧
    (report.reason = some RefusalReason.unknownCapability.describe →
      match row w.rows payload.commandId with
      | some command => command.refusalReason = some .unknownCapability
      | none => inputs.published payload = none)

section

variable {inputs : CommandInputs} {w : CommandWorld} {deps : CommandDeps} {frame : CommandFrame}
  {payload : CommandInvokePayload} {report : CommandResultPayload} {command : CloudCommand}

theorem describe_injective : Function.Injective RefusalReason.describe := by
  intro a b h
  cases a <;> cases b <;> first | rfl | (revert h; decide)

/-- A reason that reads like the one for an unknown capability is that reason. -/
theorem reason_of_describe {reason : Option RefusalReason}
    (h : reason.map RefusalReason.describe = some RefusalReason.unknownCapability.describe) :
    reason = some .unknownCapability := by
  obtain ⟨other, rfl, hdescribe⟩ := Option.map_eq_some_iff.mp h
  rw [describe_injective hdescribe]

/-- A row repeats the report of an unknown capability if that is what it records. -/
theorem answers_unknown_iff (hshaped : Shaped command) :
    command.storedResult = some (unknownReport command.commandId) ↔
      command.refusalReason = some .unknownCapability := by
  constructor
  · intro hstored
    obtain ⟨status, -, heq⟩ := Option.map_eq_some_iff.mp hstored
    exact reason_of_describe (CommandResultPayload.mk.inj heq).2.2.2
  · intro hreason
    have hrefused : command.status = .refused := by
      by_contra hother
      rw [hshaped.2 hother] at hreason
      cases hreason
    have hresult : command.result = none := hshaped.1 (by simp [hrefused])
    rw [CloudCommand.storedResult, hrefused, hresult, hreason]
    rfl

/-- A row repeats a report it stands for, unless that is a failure with a reason. -/
theorem answers_stands_iff (hshaped : Shaped command) (hstands : Stands command report) :
    command.storedResult = some report ↔
      (report.status = .failed → report.reason = none) ∧
        (report.reason = some RefusalReason.unknownCapability.describe →
          command.refusalReason = some .unknownCapability) := by
  obtain ⟨again, hagain, hid, hstatus, hresult, hreason⟩ := hstands
  have hagree : some again = some report ↔ again.reason = report.reason := by
    constructor
    · intro h
      rw [Option.some.inj h]
    · intro h
      obtain ⟨_, _, _, _⟩ := again
      obtain ⟨_, _, _, _⟩ := report
      simp_all
  rw [hagain, hagree]
  obtain ⟨status, hrow, rfl⟩ := Option.map_eq_some_iff.mp hagain
  by_cases hfailed : report.status = .failed
  · -- the row of a failure has no reason
    have hnone : command.refusalReason = none := by
      refine hshaped.2 fun hrefused => ?_
      rw [hrefused] at hrow
      rw [hstatus, ← Option.some.inj hrow] at hfailed
      cases hfailed
    simp only [hnone, Option.map_none]
    constructor
    · intro h
      exact ⟨fun _ => h.symm, fun hunknown => by rw [← h] at hunknown; cases hunknown⟩
    · rintro ⟨h, -⟩
      exact (h hfailed).symm
  · have hsame := hreason hfailed
    constructor
    · intro _
      refine ⟨fun h => absurd h hfailed, fun hunknown => reason_of_describe ?_⟩
      exact hsame.symm.trans hunknown
    · exact fun _ => hsame.symm

/-- A refusal reports the check that failed. -/
theorem refusedWorld_reports {reason : RefusalReason}
    (hfailing : inputs.firstFailing w.approvals payload = some reason) :
    (refusedWorld deps payload reason w).reports =
      w.reports ++ [⟨payload.commandId, .refused, none, some reason.describe⟩] := by
  unfold refusedWorld
  cases hcapability : CapabilityId.new payload.capabilityId with
  | none =>
      rw [unknown_of_not_new hcapability] at hfailing
      obtain rfl := Option.some.inj hfailing
      rfl
  | some capability => rfl

theorem firstFailing_unknown_iff {approvals : ApprovalStore} :
    inputs.firstFailing approvals payload = some .unknownCapability ↔
      inputs.published payload = none := by
  cases hpublished : inputs.published payload with
  | none => simp [CommandInputs.firstFailing, CommandInputs.checks, hpublished]
  | some descriptor =>
      rw [firstFailing_of_published hpublished]
      split_ifs <;> simp

/-- Without a record, the checks refuse the command again as long as its capability is not
published. -/
theorem rechecked_iff (hrow : row w.rows payload.commandId = none)
    (h : frame.payload = some payload) :
    (inputs.deliver deps frame w).reports = w.reports ++ [unknownReport payload.commandId] ↔
      inputs.published payload = none := by
  rcases deliver_cases inputs deps w h with
    ⟨command, hrow', -⟩ | ⟨-, reason, hfailing, hdeliver⟩ |
      ⟨-, hpassed, descriptor, status, result, reason, executed, hpublished, houtcome, hdeliver⟩
  · rw [hrow] at hrow'
    cases hrow'
  · rw [hdeliver, refusedWorld_reports hfailing,
      ← @firstFailing_unknown_iff inputs payload w.approvals, hfailing]
    simp only [List.append_cancel_left_eq, List.cons.injEq, and_true, unknownReport,
      CommandResultPayload.mk.injEq, true_and, Option.some.injEq]
    exact describe_injective.eq_iff
  · rw [hdeliver, hpublished]
    simp only [List.append_cancel_left_eq, List.cons.injEq, and_true, reduceCtorEq, iff_false]
    intro heq
    obtain ⟨-, rfl, -⟩ := CommandResultPayload.mk.inj heq
    exact houtcome

/-- **When a delivery repeats the first report of its command**, in every run of deliveries,
settlements and crashes. -/
theorem rereport_iff {events : List CommandEvent} (h : frame.payload = some payload)
    (hfirst : (CommandWorld.after events).firstReport payload.commandId = some report) :
    (inputs.deliver deps frame (CommandWorld.after events)).reports =
        (CommandWorld.after events).reports ++ [report] ↔
      Repeatable inputs (CommandWorld.after events) payload report := by
  have hfaithful := faithful_after events
  cases hrow : row (CommandWorld.after events).rows payload.commandId with
  | none =>
      rcases hfaithful.first _ _ hfirst with rfl | ⟨command, hrow', -⟩
      · rw [rechecked_iff hrow h, Repeatable, hrow]
        simp [unknownReport]
      · rw [hrow] at hrow'
        cases hrow'
  | some command =>
      obtain ⟨hmem, hid⟩ := row_mem hrow
      have hshaped := hfaithful.shaped command hmem
      have hdeliver : (inputs.deliver deps frame (CommandWorld.after events)).reports =
          (CommandWorld.after events).reports ++ command.storedResult.toList := by
        rcases deliver_cases inputs deps (CommandWorld.after events) h with
          ⟨other, hrow', hdeliver⟩ | ⟨hrow', -⟩ | ⟨hrow', -⟩
        · rw [hrow] at hrow'
          obtain rfl := Option.some.inj hrow'
          rw [hdeliver]
        · rw [hrow] at hrow'
          cases hrow'
        · rw [hrow] at hrow'
          cases hrow'
      have hlist : command.storedResult.toList = [report] ↔ command.storedResult = some report := by
        cases command.storedResult <;> simp
      rw [hdeliver, List.append_cancel_left_eq, hlist, Repeatable, hrow]
      rcases hfaithful.first _ _ hfirst with rfl | ⟨other, hrow', hstands⟩
      · rw [← hid, answers_unknown_iff hshaped]
        simp [unknownReport]
      · rw [hrow] at hrow'
        obtain rfl := Option.some.inj hrow'
        exact answers_stands_iff hshaped hstands

end

/-- A delivery of the restart, carried out to its end. -/
def delivers (inputs : CommandInputs) : CommandEvent :=
  .performs inputs (.delivery ⟨0, 30⟩ restartFrame) 20

/-- The restart of a unit that the executor fails with. -/
def failing (operation : OperationReply) : CommandInputs :=
  { CommandInputs.permitting with operation }

/-- The restart succeeds, and is reported again. -/
theorem rereport_iff_acknowledged :
    ∃ report, (CommandWorld.after [delivers .permitting]).firstReport 2 = some report ∧
      report.status = .acknowledged ∧
      ((CommandInputs.permitting.deliver ⟨0, 30⟩ restartFrame
          (CommandWorld.after [delivers .permitting])).reports =
        (CommandWorld.after [delivers .permitting]).reports ++ [report] ↔
      Repeatable .permitting (CommandWorld.after [delivers .permitting])
        ⟨2, CapabilityId.hostServiceRestart, [("unit", .string "nginx")], none⟩ report) :=
  ⟨⟨2, .acknowledged, some [], none⟩, by decide +kernel, rfl,
    rereport_iff rfl (by decide +kernel)⟩

/-- The executor fails; the operation times out; the daemon goes down once the operation ran,
and settles the command when it is back. -/
def failures : List (List CommandEvent) :=
  [[delivers (failing (.finished (.error (.failed "unit not found"))))],
    [delivers (failing .timedOut)],
    [.performs .permitting (.delivery ⟨0, 30⟩ restartFrame) 8, .performs .permitting .recovery 20]]

/-- Each is reported with a reason, and without one when the restart is delivered again. -/
theorem not_rereported :
    (∀ events ∈ failures,
      (CommandInputs.permitting.deliver ⟨0, 30⟩ restartFrame
        (CommandWorld.after events)).reports.map
          (fun report => (report.commandId, report.status, report.reason.isSome)) =
        [(2, .failed, true), (2, .failed, false)]) ∧
    ∀ events ∈ failures, ∀ report ∈ (CommandWorld.after events).firstReport 2,
      (CommandInputs.permitting.deliver ⟨0, 30⟩ restartFrame (CommandWorld.after events)).reports ≠
        (CommandWorld.after events).reports ++ [report] :=
  ⟨by decide +kernel, by decide +kernel⟩

end Argus
