import Argus.Daemon.CloudCommandClosed
import Argus.Daemon.PendingApprovals
import Argus.Policy.Bootstrap

/-!
# The approvals of cloud commands

The daemon keeps the operator's decisions in its approval store, and the supervisor looks for the
approval of a command in a store of its own, which `main` makes for it. The operator's calls, and
the cloud's decisions, go to the daemon.

`command_not_approvable` is what follows: whatever the operator does, no delivery of a command that
needs approval reaches the executor.
-/

namespace Argus

open Interaction Prog CloudCommand

/-- The two approval stores, and the kill switch. -/
structure ApprovalWiring where
  /-- The daemon's paused plans and approvals. -/
  desk : ApprovalDesk
  /-- The supervisor's approvals. -/
  supervisor : ApprovalStore
  privilegedExecution : Bool

inductive WiringEvent
  /-- A run pauses, or a decision about a paused plan is made or carried out. -/
  | desk (event : DeskEvent)
  /-- `cloud.set-privileged-execution`. -/
  | setPrivilegedExecution (enabled : Bool)
  /-- The supervisor handles a command. -/
  | deliver (frame : CommandFrame) (inputs : CommandInputs) (store : StoreAnswers)

/-- `Daemon::cloud_policy`. -/
def cloudPolicy : BootstrapPolicyEvaluator := .new

namespace ApprovalWiring

/-- `main`, with the kill switch as configured. -/
def start (privilegedExecution : Bool) : ApprovalWiring := ⟨.start, .empty, privilegedExecution⟩

/-- What the wiring answers, with what is left of the supervisor's approvals. -/
def answer (enabled : Bool) (inputs : CommandInputs) (store : StoreAnswers) :
    (port : CloudPort) → ApprovalStore → port.Reply × ApprovalStore
  | .approvalsConsume token contextHash now, approvals =>
      let (found, approvals) := approvals.consume token contextHash now
      (found.isSome, approvals)
  | .privilegedExecution, approvals => (enabled, approvals)
  | .policyEvaluate authz, approvals => (cloudPolicy.evaluate authz, approvals)
  | port, approvals => (inputs.answer store port, approvals)

variable (deps : CommandDeps)

/-- The requests of a delivery. -/
def delivery (s : ApprovalWiring) (frame : CommandFrame) (inputs : CommandInputs)
    (store : StoreAnswers) : CloudTrace :=
  (play (answer s.privilegedExecution inputs store) (handleCommandInvoke deps frame)
    s.supervisor).1

def step (s : ApprovalWiring) : WiringEvent → ApprovalWiring
  | .desk event => { s with desk := s.desk.step event }
  | .setPrivilegedExecution enabled => { s with privilegedExecution := enabled }
  | .deliver frame inputs store =>
      { s with
        supervisor := (exec (answer s.privilegedExecution inputs store)
          (handleCommandInvoke deps frame) s.supervisor).2 }

/-- Some delivery of the command's capability and input can come to reach the executor. -/
def Approvable (s : ApprovalWiring) (descriptor : CapabilityDescriptor)
    (payload : CommandInvokePayload) : Prop :=
  ∃ actions frame delivered inputs store,
    frame.payload = some delivered ∧ delivered.capabilityId = payload.capabilityId ∧
      delivered.input = payload.input ∧
      (inputs.surface.find? fun candidate => candidate.id.asStr == delivered.capabilityId) =
        some descriptor ∧
      invokes ((Machine.run (step deps) s actions).delivery deps frame inputs store) = true

variable {deps} {s : ApprovalWiring}

/-- The supervisor has no approval to give. -/
def Bare (s : ApprovalWiring) : Prop := s.supervisor = .empty

/-- What the wiring answers while the supervisor's approvals are empty. -/
def bareInputs (enabled : Bool) (inputs : CommandInputs) : CommandInputs :=
  { inputs with
    policy := cloudPolicy.evaluate
    enabled
    approved := false }

theorem answer_bare {enabled : Bool} {inputs : CommandInputs} {store : StoreAnswers}
    (port : CloudPort) (approvals : ApprovalStore) (hbare : approvals = .empty) :
    (bareInputs enabled inputs).Agrees store
        ⟨port, (answer enabled inputs store port approvals).1⟩ ∧
      (answer enabled inputs store port approvals).2 = .empty := by
  subst hbare
  cases port with
  | putCloudCommand command => exact ⟨fun hstatus => if_pos hstatus, rfl⟩
  | _ => exact ⟨by trivial, rfl⟩

theorem Bare.delivery (hbare : Bare s) (frame : CommandFrame) (inputs : CommandInputs)
    (store : StoreAnswers) :
    (∀ e ∈ s.delivery deps frame inputs store,
        (bareInputs s.privilegedExecution inputs).Agrees store e) ∧
      Bare (s.step deps (.deliver frame inputs store)) :=
  play_forall (I := fun approvals : ApprovalStore => approvals = .empty)
    (Q := (bareInputs s.privilegedExecution inputs).Agrees store) answer_bare
    (handleCommandInvoke deps frame) hbare

theorem Bare.step (hbare : Bare s) (event : WiringEvent) : Bare (s.step deps event) := by
  cases event with
  | desk event => exact hbare
  | setPrivilegedExecution enabled => exact hbare
  | deliver frame inputs store => exact (hbare.delivery frame inputs store).2

/-- **No decision reaches the supervisor.** -/
theorem bare_run (privilegedExecution : Bool) (events : List WiringEvent) :
    Bare (Machine.run (ApprovalWiring.step deps) (start privilegedExecution) events) :=
  Machine.invariant (I := Bare) (show Bare (start privilegedExecution) from rfl)
    (fun _ event hbare => hbare.step event) events

/-- The verdict on a command is that on its capability. -/
theorem cloudPolicy_outcome (payload payload' : CommandInvokePayload)
    (descriptor : CapabilityDescriptor) :
    (cloudPolicy.evaluate (authorizationFor payload descriptor)).outcome =
      (cloudPolicy.evaluate (authorizationFor payload' descriptor)).outcome := by
  rw [BootstrapPolicyEvaluator.evaluate_outcome, BootstrapPolicyEvaluator.evaluate_outcome]
  rfl

/-- Without approvals the ladder refuses a command that needs one, if not for another reason. -/
theorem refusal_of_requireApproval {enabled : Bool} {inputs : CommandInputs}
    {payload : CommandInvokePayload} {descriptor : CapabilityDescriptor}
    (hsurface : (inputs.surface.find? fun candidate =>
      candidate.id.asStr == payload.capabilityId) = some descriptor)
    (hverdict : (cloudPolicy.evaluate (authorizationFor payload descriptor)).outcome =
      .requireApproval) :
    ((bareInputs enabled inputs).refusal payload).isNone = false := by
  have hrefused : (bareInputs enabled inputs).authorizationRefusal payload descriptor =
      some .approvalRequired := by
    simp only [CommandInputs.authorizationRefusal, bareInputs, hverdict]
    rfl
  have hfind : ((bareInputs enabled inputs).surface.find? fun candidate =>
      candidate.id.asStr == payload.capabilityId) = some descriptor := hsurface
  simp only [CommandInputs.refusal, hfind, hrefused]
  split_ifs <;> rfl

/-- A delivery of a command that needs approval ends before the executor. -/
theorem Bare.idle (hbare : Bare s) (deps : CommandDeps) (store : StoreAnswers)
    {frame : CommandFrame} {inputs : CommandInputs} {payload : CommandInvokePayload}
    {descriptor : CapabilityDescriptor}
    (hpayload : frame.payload = some payload)
    (hsurface : (inputs.surface.find? fun candidate =>
      candidate.id.asStr == payload.capabilityId) = some descriptor)
    (hverdict : (cloudPolicy.evaluate (authorizationFor payload descriptor)).outcome =
      .requireApproval) :
    invokes (s.delivery deps frame inputs store) = false := by
  have hruns : Runs (handleCommandInvoke deps frame) (s.delivery deps frame inputs store) () :=
    play_runs _ _ _
  rw [invokes_handleCommandInvoke hpayload hruns (hbare.delivery frame inputs store).1,
    refusal_of_requireApproval hsurface hverdict]
  simp

/-- **No command that needs approval can be approved**, after whatever has happened. -/
theorem command_not_approvable (deps : CommandDeps) (privilegedExecution : Bool)
    (events : List WiringEvent) (descriptor : CapabilityDescriptor)
    (payload : CommandInvokePayload)
    (hverdict : (cloudPolicy.evaluate (authorizationFor payload descriptor)).outcome =
      .requireApproval) :
    ¬ Approvable deps
      (Machine.run (ApprovalWiring.step deps) (start privilegedExecution) events) descriptor
      payload := by
  intro h
  obtain ⟨actions, frame, delivered, inputs, store, hpayload, -, -, hsurface, hinvokes⟩ := h
  rw [← Machine.run_append] at hinvokes
  have hgated := (cloudPolicy_outcome delivered payload descriptor).trans hverdict
  have hbare : Bare (Machine.run (ApprovalWiring.step deps) (start privilegedExecution)
      (events ++ actions)) := bare_run privilegedExecution (events ++ actions)
  have hidle := hbare.idle deps store hpayload hsurface hgated
  exact absurd (hinvokes.symm.trans hidle) (by decide)

/-! #### A restart that needs approval -/

/-- `host.service.restart`, with the approval it needs. -/
def gatedRestart : CapabilityDescriptor := { restartDescriptor with requiresApproval := true }

def restartPayload : CommandInvokePayload :=
  ⟨2, CapabilityId.hostServiceRestart, [("unit", .string "nginx")], none⟩

theorem gatedRestart_not_approvable :
    ¬ Approvable ⟨0, 30⟩ (Machine.run (ApprovalWiring.step ⟨0, 30⟩) (start true) []) gatedRestart
      restartPayload :=
  command_not_approvable _ _ _ _ _ (by decide)

/-- **An operator has no way to approve a restart** that the cloud asks for. -/
theorem restart_out_of_reach :
    ¬ ∀ deps privilegedExecution events descriptor payload,
        (cloudPolicy.evaluate (authorizationFor payload descriptor)).outcome = .requireApproval →
        inputMatches descriptor.inputSchema (.object payload.input) = true →
          Approvable deps
            (Machine.run (ApprovalWiring.step deps) (start privilegedExecution) events) descriptor
            payload := by
  intro h
  obtain ⟨actions, frame, delivered, inputs, store, hpayload, -, -, hsurface, hinvokes⟩ :=
    h ⟨0, 30⟩ true [] gatedRestart restartPayload (by decide +kernel) (by decide +kernel)
  have hverdict : (cloudPolicy.evaluate (authorizationFor delivered gatedRestart)).outcome =
      .requireApproval := by
    rw [cloudPolicy_outcome delivered restartPayload]
    decide
  have hbare : Bare (Machine.run (ApprovalWiring.step ⟨0, 30⟩) (start true) actions) :=
    bare_run true actions
  have hidle := hbare.idle ⟨0, 30⟩ store hpayload hsurface hverdict
  exact absurd (hinvokes.symm.trans hidle) (by decide)

end ApprovalWiring
end Argus
