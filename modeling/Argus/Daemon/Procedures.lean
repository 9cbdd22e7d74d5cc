import Argus.Daemon.BrainExclusion
import Argus.Daemon.RunbookLadder

/-!
# Attributed plans

The brain builds the procedure of a promoted runbook, and the plan carries the runbook's name. It
runs at once, or stays paused until the operator grants it; when its run ends, the outcome goes to
the runbook the name has then.
-/

namespace Argus

namespace RunbookManager

/-- The runbook behind `promoted_runbook`: the first promoted one of the list whose trigger is the
signature. -/
def promoted (m : RunbookManager) (signature : String) : Option LibraryRunbook :=
  m.library.list.find? fun runbook =>
    runbook.status == .promoted && runbook.trigger == .symptom signature

/-- Routes a terminal attributed-plan outcome to its runbook. A report without executions is no
attempt. -/
def noteRunbookOutcome (m : RunbookManager) (plan : Plan) (report : ExecutionOutcome)
    (review : PolicyReview) : RunbookManager :=
  match plan.runbook with
  | none => m
  | some name =>
      if report.executions.isEmpty then m
      else if report.status = .completed then m.call (.onAttributedPlanValidated name review)
      else m.call (.noteProcedureOutcome name false)

end RunbookManager

/-- The cycle reads the runbooks of the manager. -/
def CycleEvent.reading (m : RunbookManager) : CycleEvent → CycleEvent
  | .consider i _ descriptors =>
      .consider i (m.library.list.map LibraryRunbook.toRunbook) descriptors
  | event => event

/-- The plan whose run an event ends, directly or after a pause, with its report. -/
def Brain.reports (b : Brain) : CycleEvent → Option (Plan × ExecutionOutcome)
  | .ran id (.finished report) =>
      match (b.attempts[id]?).map Attempt.phase with
      | some (.running plan) => some (plan, report)
      | _ => none
  | .resumed id (.finished report) =>
      match (b.attempts[id]?).map Attempt.phase with
      | some (.resuming plan) => some (plan, report)
      | _ => none
  | _ => none

/-- The runbook a plan was built from, and whether one of its name was delivered since. -/
structure Origin where
  id : Nat
  name : String
  superseded : Bool

/-- A runbook of the name is delivered. -/
def Origin.supersede (o : Origin) (name : String) : Origin :=
  if o.name = name then { o with superseded := true } else o

/-- The brain and the manager, the origin of each attempt's plan, and for each attributed plan that
was attempted the identity it was built from and whether it completed. -/
structure ProcedureHost where
  brain : Brain
  manager : RunbookManager
  origins : List (Option Origin)
  runs : List (Nat × Bool)

inductive ProcedureEvent
  | deliver (delivery : Delivery)
  | decide (name : String) (decision : Decision)
  /-- An event of the brain, with what the policy gate is reviewed against then. -/
  | cycle (event : CycleEvent) (review : PolicyReview)
  | restart (files : List (Except String RunbookFile)) (readable : Bool)

namespace ProcedureHost

/-- A host after a first start over an empty store. -/
def start (files : List (Except String RunbookFile)) : ProcedureHost :=
  ⟨.start, RunbookManager.fresh.restart files true, [], []⟩

/-- The runbook that a cycle's event takes up. -/
def origin (s : ProcedureHost) : CycleEvent → Option Origin
  | .consider i _ _ => do
      let (_, situation) ← s.brain.considers i
      let runbook ← s.manager.promoted situation.signature
      some ⟨runbook.id, runbook.name, false⟩
  | _ => none

/-- An accepted delivery supersedes the runbook of its name. -/
def supersede (s : ProcedureHost) (delivery : Delivery) : List (Option Origin) :=
  match delivery.review s.manager.minted with
  | .error _ => s.origins
  | .ok reviewed => s.origins.map (Option.map fun o => o.supersede reviewed.runbook.name)

/-- The attributed plan that was attempted, and is reported by the event: its origin, and whether
it completed. -/
def attempted (s : ProcedureHost) (event : CycleEvent) : Option (Origin × Bool) := do
  let (plan, report) ← s.brain.reports event
  let _ ← plan.runbook
  let id ← event.attempt
  let origin ← s.origins[id]?.join
  if report.executions.isEmpty then none else some (origin, decide (report.status = .completed))

/-- The run an event ends, under the identity its plan was built from. -/
def ran (s : ProcedureHost) (event : CycleEvent) : List (Nat × Bool) :=
  match s.attempted event with
  | none => []
  | some (o, completed) => [(o.id, completed)]

/-- The manager after an event of the brain: the plan that ends with it, if any, is routed to its
runbook. -/
def routed (s : ProcedureHost) (event : CycleEvent) (review : PolicyReview) : RunbookManager :=
  match s.brain.reports event with
  | none => s.manager
  | some (plan, report) => s.manager.noteRunbookOutcome plan report review

variable (toJson : Value → String) (config : SituationsConfig)

def cycle (s : ProcedureHost) (event : CycleEvent) (review : PolicyReview) : ProcedureHost :=
  let brain := s.brain.step toJson config (event.reading s.manager)
  { brain := brain
    manager := s.routed event review
    origins := s.origins ++
      List.replicate (brain.attempts.length - s.brain.attempts.length) (s.origin event)
    runs := s.runs ++ s.ran event }

/-- A restart forgets the plans in progress, paused ones included. -/
def step (s : ProcedureHost) : ProcedureEvent → ProcedureHost
  | .deliver delivery =>
      { s with manager := s.manager.call (.deliver delivery), origins := s.supersede delivery }
  | .decide name decision => { s with manager := s.manager.call (.decide name decision) }
  | .cycle event review => s.cycle toJson config event review
  | .restart files readable =>
      { s with
        brain := .start
        manager := s.manager.restart files readable
        origins := [] }

/-- The host after a run. -/
def after (files : List (Except String RunbookFile)) (events : List ProcedureEvent) :
    ProcedureHost := Machine.run (step toJson config) (start files) events

end ProcedureHost

end Argus
