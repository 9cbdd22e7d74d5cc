import Argus.Daemon.CloudCommand
import Argus.Lib.Monitor
import Mathlib.Data.List.Count
import Mathlib.Logic.Function.Basic

/-!
# A command runs at most once

An `Installation` is what survives a crash, the rows of its store, with what does not: the
activity it is in the middle of. It handles one delivery after the other, settles the
commands of a previous run when a session starts, and can crash between any two requests;
whatever of the activity was left is then lost.

The argument is about the store only. A delivery asks for the command's row, writes it as
executing before the executor is invoked, and invokes it once. `onceMonitor` is that
protocol, `handleCommandInvoke_obeys` says the ladder keeps to it whatever its other ports
answer, and `Installation.Sound` is what every crash, restart and re-delivery preserves: a
command that was executed has a row.
-/

namespace Argus

open Interaction Prog CloudCommand

/-! ### The protocol of one delivery -/

/-- How far a delivery has come. -/
inductive Stage
  | start
  /-- The store has no row of the command. -/
  | cleared
  /-- It has one, and the executor was not invoked. -/
  | recorded
  /-- Nothing more may be executed. -/
  | spent
  deriving DecidableEq

/-- The executor is invoked for `id` only, after its row was found missing and then
written, and once; assuming that the store answers. -/
def onceMonitor (id : Uuid) : Monitor CloudPort.Reply Stage where
  allows
    | stage, .execute _ _ action =>
        stage = .recorded ∧ action.request.context.correlationId = id
    | _, _ => True
  answers
    | .getCloudCommand _, reply => reply.isOk
    | .putCloudCommand _, reply => reply.isOk
    | _, _ => True
  next
    | .start, .getCloudCommand id', .ok none => if id' = id then .cleared else .start
    | .start, .getCloudCommand _, _ => .spent
    | .cleared, .putCloudCommand command, _ =>
        if command.commandId = id then .recorded else .cleared
    | .recorded, .execute _ _ _, _ => .spent
    | stage, _, _ => stage

section Obeys

variable {id : Uuid} {stage : Stage} {payload : CommandInvokePayload} {deps : CommandDeps}
variable {correlation : Option Uuid}

theorem obeys_ask_bind {mon : Monitor CloudPort.Reply Stage} {α : Type} {port : CloudPort}
    {f : port.Reply → CloudM α} {post : Stage → α → Prop} :
    Obeys mon post (ask port >>= f) stage ↔ mon.allows stage port ∧
      ∀ r, mon.answers port r → Obeys mon post (f r) (mon.next stage port r) := Iff.rfl

theorem sendCommandResult_obeys {status : CommandResultStatus} {result : Option Value}
    {reason : Option String} {commandId : Uuid} :
    Obeys (onceMonitor id) (fun _ _ => True)
      (sendCommandResult commandId status result reason correlation) stage :=
  ⟨trivial, fun _ _ => trivial⟩

theorem reportStoredResult_obeys {command : CloudCommand} :
    Obeys (onceMonitor id) (fun _ _ => True) (reportStoredResult command correlation) stage := by
  unfold reportStoredResult
  split
  · trivial
  · exact sendCommandResult_obeys

theorem refuseCommand_obeys {reason : RefusalReason} :
    Obeys (onceMonitor id) (fun _ _ => True) (refuseCommand deps payload correlation reason)
      stage := by
  unfold refuseCommand
  split
  · exact sendCommandResult_obeys
  · exact ⟨trivial, fun _ _ => ⟨trivial, fun _ _ => sendCommandResult_obeys⟩⟩

theorem settleCommands_obeys (commands : List CloudCommand) :
    Obeys (onceMonitor id) (fun _ _ => True) (settleCommands commands) stage := by
  induction commands generalizing stage with
  | nil => trivial
  | cons command rest ih =>
      refine ⟨trivial, ?_⟩
      intro _ _
      exact sendCommandResult_obeys.seq fun _ _ _ => ih

theorem resolveInterruptedCommands_obeys :
    Obeys (onceMonitor id) (fun _ _ => True) resolveInterruptedCommands stage := by
  refine ⟨trivial, ?_⟩
  intro reply _
  cases reply with
  | error => trivial
  | ok unfinished => exact settleCommands_obeys unfinished

/-- What a check leaves: the stage, and an action of this command if it passed. -/
def Admits (payload : CommandInvokePayload) (stage : Stage)
    (verdict : Except RefusalReason AuthorizedAction) : Prop :=
  stage = .cleared ∧ ∀ action, verdict = .ok action →
    action.request.context.correlationId = payload.commandId

theorem authorized_request {authz : AuthorizationRequest} {decision : PolicyDecision}
    {action : AuthorizedAction} (h : authorized authz decision = .ok action) :
    action.request = authz.capabilityRequest := by
  unfold authorized AuthorizedAction.new at h
  split_ifs at h
  obtain rfl := Except.ok.inj h
  rfl

theorem authorizeCommand_obeys {descriptor : CapabilityDescriptor} :
    Obeys (onceMonitor id) (Admits payload) (authorizeCommand payload descriptor) .cleared := by
  refine obeys_ask_bind.mpr ⟨trivial, ?_⟩
  intro decision _
  have hauthorized (decision : PolicyDecision) :
      Admits payload .cleared (authorized (authorizationFor payload descriptor) decision) :=
    ⟨rfl, fun action h => by rw [authorized_request h]; rfl⟩
  split
  · exact ⟨trivial, fun _ _ => ⟨rfl, by simp⟩⟩
  · refine ⟨trivial, fun _ _ => ⟨trivial, fun consumed _ => ⟨trivial, ?_⟩⟩⟩
    intro _ _
    cases consumed with
    | true => exact hauthorized (approved decision)
    | false => exact ⟨rfl, by simp⟩
  · exact ⟨trivial, fun _ _ => hauthorized decision⟩

theorem executionEnabled_obeys {descriptor : CapabilityDescriptor} :
    Obeys (onceMonitor id) (fun m _ => m = stage) (executionEnabled descriptor) stage := by
  unfold executionEnabled
  split_ifs
  · refine ⟨trivial, ?_⟩
    intro _ _
    cases stage <;> rfl
  · rfl

theorem checkCommand_obeys :
    Obeys (onceMonitor id) (fun m r => Admits payload m (r.map Prod.snd)) (checkCommand payload)
      .cleared := by
  refine obeys_ask_bind.mpr ⟨trivial, ?_⟩
  intro surface _
  split
  · exact ⟨rfl, by simp [Except.map]⟩
  · split_ifs
    · exact ⟨rfl, by simp [Except.map]⟩
    · refine executionEnabled_obeys.seq ?_
      intro m enabled hm
      subst hm
      split_ifs
      · exact ⟨rfl, by simp [Except.map]⟩
      · refine authorizeCommand_obeys.seq ?_
        intro m verdict hverdict
        cases verdict with
        | error => exact ⟨hverdict.1, by simp [Except.map]⟩
        | ok action => exact hverdict

theorem runLimited_obeys {descriptor : CapabilityDescriptor} {action : AuthorizedAction}
    (h : action.request.context.correlationId = id) :
    Obeys (onceMonitor id) (fun _ _ => True) (runLimited deps descriptor action) .recorded := by
  refine obeys_ask_bind.mpr ⟨trivial, ?_⟩
  intro acquired _
  cases acquired with
  | false => trivial
  | true =>
      refine obeys_ask_bind.mpr ⟨⟨rfl, h⟩, ?_⟩
      intro reply _
      split <;> trivial

theorem executeCommand_obeys {descriptor : CapabilityDescriptor} {action : AuthorizedAction}
    (h : action.request.context.correlationId = payload.commandId) :
    Obeys (onceMonitor payload.commandId) (fun _ _ => True)
      (executeCommand deps payload correlation descriptor action) .cleared := by
  refine ⟨trivial, ?_⟩
  intro _ _
  have hrecorded : (onceMonitor payload.commandId).next .cleared
      (.putCloudCommand (executingRow deps payload descriptor)) ‹_› = .recorded := if_pos rfl
  rw [hrecorded]
  refine (runLimited_obeys h).seq ?_
  intro _ outcome _
  exact ⟨trivial, fun _ _ => ⟨trivial, fun _ _ => sendCommandResult_obeys⟩⟩

/-- **The ladder keeps to the protocol**, whatever it is answered by policy, the kill
switch, the approvals, the limiter and the executor. -/
theorem handleCommandInvoke_obeys (deps : CommandDeps) (frame : CommandFrame) :
    ∃ id, Obeys (onceMonitor id) (fun _ _ => True) (handleCommandInvoke deps frame) .start := by
  unfold handleCommandInvoke
  cases frame.payload with
  | none => exact ⟨0, trivial⟩
  | some payload =>
      refine ⟨payload.commandId, obeys_ask_bind.mpr ⟨trivial, ?_⟩⟩
      intro reply hreply
      match reply with
      | .error _ => cases hreply
      -- a row of any status ends the delivery before the checks
      | .ok (some existing) =>
          dsimp only
          split_ifs
          · exact reportStoredResult_obeys
          · trivial
      | .ok none =>
          have hcleared : (onceMonitor payload.commandId).next .start
              (.getCloudCommand payload.commandId) (.ok none) = .cleared := if_pos rfl
          rw [hcleared]
          refine checkCommand_obeys.seq ?_
          intro m verdict hverdict
          obtain ⟨rfl, haction⟩ := hverdict
          cases verdict with
          | error => exact refuseCommand_obeys
          | ok admitted => exact executeCommand_obeys (haction _ rfl)

end Obeys

/-! ### An installation that can crash -/

/-- The rows of the store, the commands the executor was invoked for, newest first, and
what is left of the current activity: nothing while the daemon is down. -/
structure Installation where
  rows : List CloudCommand
  invoked : List Uuid
  activity : Option (CloudM Unit)

namespace Installation

/-- The row of a command. -/
def row (rows : List CloudCommand) (id : Uuid) : Option CloudCommand :=
  rows.find? fun command => command.commandId == id

/-- The replies of a store that works. Every other port can answer anything. -/
def answers (rows : List CloudCommand) : (port : CloudPort) → port.Reply → Prop
  | .getCloudCommand id, reply => reply = .ok (row rows id)
  | .putCloudCommand _, reply => reply = .ok ()
  | .listUnfinishedCloudCommands, reply =>
      reply = .ok (rows.filter fun command => !command.status.isTerminal)
  | _, _ => True

/-- What a request leaves in the store. -/
def stored (rows : List CloudCommand) : CloudPort → List CloudCommand
  | .putCloudCommand command =>
      command :: rows.filter fun other => other.commandId != command.commandId
  | _ => rows

/-- The invocations after a request. The action carries its command's id. -/
def logged (invoked : List Uuid) : CloudPort → List Uuid
  | .execute _ _ action => action.request.context.correlationId :: invoked
  | _ => invoked

/-- What can happen to an installation. -/
inductive Step : Installation → Installation → Prop
  /-- The daemon comes up, and settles what the run before left unfinished. -/
  | restart {rows : List CloudCommand} {invoked : List Uuid} :
      Step ⟨rows, invoked, none⟩ ⟨rows, invoked, some resolveInterruptedCommands⟩
  /-- A new session of a daemon that is up does the same. -/
  | reconnect {rows : List CloudCommand} {invoked : List Uuid} :
      Step ⟨rows, invoked, some (pure ())⟩ ⟨rows, invoked, some resolveInterruptedCommands⟩
  /-- A frame is delivered, for the first time or again. -/
  | deliver {rows : List CloudCommand} {invoked : List Uuid} (deps : CommandDeps)
      (frame : CommandFrame) :
      Step ⟨rows, invoked, some (pure ())⟩ ⟨rows, invoked, some (handleCommandInvoke deps frame)⟩
  | request {rows : List CloudCommand} {invoked : List Uuid} {port : CloudPort}
      {next : port.Reply → CloudM Unit} {reply : port.Reply} (h : answers rows port reply) :
      Step ⟨rows, invoked, some (.request port next)⟩
        ⟨stored rows port, logged invoked port, some (next reply)⟩
  /-- The daemon goes down between two requests. -/
  | crash {rows : List CloudCommand} {invoked : List Uuid} {activity : CloudM Unit} :
      Step ⟨rows, invoked, some activity⟩ ⟨rows, invoked, none⟩

variable {rows : List CloudCommand} {invoked : List Uuid} {id : Uuid}

/-- What a stage says about the command under way. -/
def AtStage (rows : List CloudCommand) (invoked : List Uuid) (id : Uuid) : Stage → Prop
  | .cleared => id ∉ invoked
  | .recorded => id ∉ invoked ∧ (row rows id).isSome
  | .start | .spent => True

/-- The invariant: no command was executed twice, one that was has a row, and the activity
under way keeps to the protocol of its command. -/
structure Sound (s : Installation) : Prop where
  once : s.invoked.Nodup
  rowed : ∀ id ∈ s.invoked, (row s.rows id).isSome
  activity : ∀ p, s.activity = some p → ∃ id stage,
    Obeys (onceMonitor id) (fun _ _ => True) p stage ∧ AtStage s.rows s.invoked id stage

/-- A row stays. -/
theorem row_stored_isSome {port : CloudPort} (h : (row rows id).isSome) :
    (row (stored rows port) id).isSome := by
  cases port with
  | putCloudCommand command =>
      by_cases hid : command.commandId = id
      · simp [row, stored, hid]
      · obtain ⟨other, hmem, hother⟩ := List.find?_isSome.mp h
        refine List.find?_isSome.mpr ⟨other, ?_, hother⟩
        refine List.mem_cons_of_mem _ (List.mem_filter.mpr ⟨hmem, ?_⟩)
        have heq : other.commandId = id := by simpa using hother
        simp [heq, Ne.symm hid]
  | _ => exact h

theorem onceMonitor_answers {port : CloudPort} {reply : port.Reply} (h : answers rows port reply) :
    (onceMonitor id).answers port reply := by
  cases port with
  | getCloudCommand => obtain rfl := h; rfl
  | putCloudCommand => obtain rfl := h; rfl
  | _ => trivial

/-- A request other than the executor's leaves the invocations, and takes the stage where
the monitor says. -/
theorem AtStage.step {port : CloudPort} {reply : port.Reply} {stage : Stage}
    (hrowed : ∀ id ∈ invoked, (row rows id).isSome) (hanswers : answers rows port reply)
    (h : AtStage rows invoked id stage) (hquiet : logged invoked port = invoked) :
    AtStage (stored rows port) invoked id ((onceMonitor id).next stage port reply) := by
  cases port with
  | getCloudCommand id' =>
      obtain rfl := hanswers
      cases stage with
      | start =>
          cases hrow : row rows id' with
          | some row => trivial
          | none =>
              by_cases hid : id' = id
              · -- nothing was executed for a command without a row
                subst hid
                simp only [onceMonitor, if_true]
                exact fun hmem => by simpa [hrow] using hrowed id' hmem
              · simp only [onceMonitor, hid, if_false]
                trivial
      | cleared => exact h
      | recorded => exact h
      | spent => trivial
  | putCloudCommand command =>
      cases stage with
      | start => trivial
      | cleared =>
          by_cases hid : command.commandId = id
          · simp only [onceMonitor, hid, if_true]
            exact ⟨h, by simp [row, stored, hid]⟩
          · simp only [onceMonitor, hid, if_false]
            exact h
      -- the terminal write replaces the row, and a recovery writes other rows
      | recorded => exact ⟨h.1, row_stored_isSome h.2⟩
      | spent => trivial
  | execute => exact absurd hquiet (List.cons_ne_self _ _)
  | _ => cases stage <;> exact h

/-- Every step keeps the invariant. -/
theorem Sound.step {s s' : Installation} (h : s.Sound) (hstep : Step s s') : s'.Sound := by
  cases hstep with
  | restart =>
      refine ⟨h.once, h.rowed, ?_⟩
      intro p hp
      cases hp
      exact ⟨0, .spent, resolveInterruptedCommands_obeys, trivial⟩
  | reconnect =>
      refine ⟨h.once, h.rowed, ?_⟩
      intro p hp
      cases hp
      exact ⟨0, .spent, resolveInterruptedCommands_obeys, trivial⟩
  | deliver deps frame =>
      refine ⟨h.once, h.rowed, ?_⟩
      intro p hp
      cases hp
      -- a delivery starts knowing nothing about its command, so it starts anywhere
      obtain ⟨id, hobeys⟩ := handleCommandInvoke_obeys deps frame
      exact ⟨id, .start, hobeys, trivial⟩
  -- what is lost is the rest of the activity; the row written before the effect stays
  | crash => exact ⟨h.once, h.rowed, by simp⟩
  | @request rows invoked port next reply hanswers =>
      obtain ⟨id, stage, hobeys, hstage⟩ := h.activity _ rfl
      have hnext := hobeys.request (onceMonitor_answers hanswers)
      by_cases hexecute : logged invoked port = invoked
      · rw [hexecute]
        refine ⟨h.once, fun id hmem => row_stored_isSome (h.rowed id hmem), ?_⟩
        intro p hp
        cases hp
        exact ⟨id, _, hnext, hstage.step h.rowed hanswers hexecute⟩
      · -- the executor was invoked, so its command was recorded and had not run before
        cases port with
        | execute resource timeout action =>
            obtain ⟨rfl, hid⟩ := hobeys.1
            obtain ⟨hnew, hrow⟩ := hstage
            simp only [logged, stored, hid]
            refine ⟨List.nodup_cons.mpr ⟨hnew, h.once⟩, ?_, ?_⟩
            · exact List.forall_mem_cons.mpr ⟨hrow, h.rowed⟩
            · intro p hp
              cases hp
              exact ⟨id, .spent, hnext, trivial⟩
        | _ => exact absurd rfl hexecute

theorem sound_down : Sound ⟨rows, [], none⟩ := ⟨List.nodup_nil, by simp, by simp⟩

theorem Sound.reachable {s s' : Installation} (h : s.Sound)
    (hreach : Relation.ReflTransGen Step s s') : s'.Sound := by
  induction hreach with
  | refl => exact h
  | tail _ hstep ih => exact ih.step hstep

/-- **At most once.** From any store, and in every sequence of deliveries, re-deliveries,
crashes and restarts, the executor is invoked at most once for each command. -/
theorem executor_invoked_at_most_once {s : Installation}
    (h : Relation.ReflTransGen Step ⟨rows, [], none⟩ s) (id : Uuid) : s.invoked.count id ≤ 1 :=
  List.nodup_iff_count_le_one.mp (sound_down.reachable h).once id

/-! ### A run -/

/-- The store answering, with fixed answers of the other ports. -/
def working (inputs : CommandInputs) : (port : CloudPort) → List CloudCommand →
    port.Reply × List CloudCommand
  | .getCloudCommand id, rows => (.ok (row rows id), rows)
  | .putCloudCommand command, rows => (.ok (), stored rows (.putCloudCommand command))
  | .listUnfinishedCloudCommands, rows =>
      (.ok (rows.filter fun command => !command.status.isTerminal), rows)
  | port, rows => (inputs.answer ⟨.ok none, .ok ()⟩ port, rows)

theorem working_answers (inputs : CommandInputs) (rows : List CloudCommand) (port : CloudPort) :
    answers rows port (working inputs port rows).1 ∧
      (working inputs port rows).2 = stored rows port := by
  cases port <;> exact ⟨by trivial, rfl⟩

/-- An activity runs to its end. -/
theorem steps_play (inputs : CommandInputs) (p : CloudM Unit) :
    Relation.ReflTransGen Step ⟨rows, invoked, some p⟩
      ⟨(play (working inputs) p rows).2.2,
        (play (working inputs) p rows).1.foldl (fun log e => logged log e.op) invoked,
        some (pure ())⟩ := by
  induction p generalizing rows invoked with
  | ret u => exact .refl
  | request port next ih =>
      obtain ⟨hanswers, hstored⟩ := working_answers inputs rows port
      refine .head (.request hanswers) ?_
      rw [← hstored]
      exact ih _

/-- A restart is delivered and executed, the daemon crashes and comes back, and the restart
is delivered again. -/
theorem executor_invoked_at_most_once_redelivered :
    ∃ s : Installation, Relation.ReflTransGen Step ⟨[], [], none⟩ s ∧ s.invoked = [2] ∧
      s.invoked.count 2 ≤ 1 := by
  have hup : Relation.ReflTransGen Step ⟨[], [], none⟩ ⟨[], [], some (pure ())⟩ :=
    .head .restart (steps_play .permitting resolveInterruptedCommands)
  have hfirst := (hup.tail (.deliver ⟨0, 30⟩ restartFrame)).trans
    (steps_play .permitting (handleCommandInvoke ⟨0, 30⟩ restartFrame))
  have hback := ((hfirst.tail .crash).tail .restart).trans
    (steps_play .permitting resolveInterruptedCommands)
  have hsecond := (hback.tail (.deliver ⟨0, 30⟩ restartFrame)).trans
    (steps_play .permitting (handleCommandInvoke ⟨0, 30⟩ restartFrame))
  exact ⟨_, hsecond, by decide +kernel, executor_invoked_at_most_once hsecond 2⟩

end Installation
end Argus
