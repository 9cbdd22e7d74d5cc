import Argus.Daemon.BrainMemory
import Argus.Policy.Bootstrap
import Argus.Runbooks.Library

/-!
# Delivered runbooks

The cloud delivers, the host earns and the operator decides. A delivery is a candidate that earns
its first two gates from local evidence at the review; the next two come from a plan attributed to
it that ran and validated; approval and promotion are decisions. The manager keeps the library,
the record of each delivered name, and the persisted copy of that record.

A function is a program of lock sections: what it does between taking a lock and releasing it is
one step. Run alone a program runs to its end; the sections of several programs may also be
interleaved. The store's writes succeed here.
-/

namespace Argus

/-! ### Evidence -/

inductive Reversibility
  | none
  | reversible
  | partiallyReversible
  deriving DecidableEq

inductive RollbackFeasibility
  | feasible
  | partially
  | infeasible
  deriving DecidableEq

/-- A descriptor with what the simulation reads of it besides. -/
structure RatedDescriptor extends CapabilityDescriptor where
  reversibility : Reversibility

/-- The rollback of an action is as feasible as its reversibility, declared or not. -/
def rollbackFeasibility (reversibility : Reversibility) (declaredRollback : Option CapabilityId) :
    RollbackFeasibility :=
  match declaredRollback, reversibility with
  | Option.none, .reversible => .feasible
  | Option.none, .partiallyReversible => .partially
  | Option.none, .none => .infeasible
  | some _, .reversible => .feasible
  | some _, .partiallyReversible => .partially
  | some _, .none => .infeasible

/-- `to_ascii_lowercase`. -/
def toAsciiLowercase (text : String) : String := .ofList (text.toList.map Char.toLower)

/-- `eq_ignore_ascii_case`. -/
def eqIgnoreAsciiCase (a b : String) : Bool := toAsciiLowercase a == toAsciiLowercase b

/-- Whether an episode that ended resolved speaks for the procedure: by the trigger's signature, or
by a remediation that is exactly the procedure's own. -/
def corroborates (toLowercase : String → String) (signature procedureSignature : String)
    (episode : Episode) : Bool :=
  match episode.remediation with
  | Option.none => false
  | some remediation =>
      episode.outcome == .resolved &&
        (toLowercase (trim episode.symptom) == signature ||
          eqIgnoreAsciiCase (trim remediation) procedureSignature)

/-- The evaluation gate's evidence: the host's episodes corroborate the procedure. `toLowercase` is
the standard library's, by the tables of Unicode. -/
def evaluationEvidence (toLowercase : String → String) (runbook : LibraryRunbook)
    (episodes : List Episode) : Except String Unit :=
  if episodes.isEmpty then
    .error "this host has no recorded episodes; the evaluation gate needs local evidence"
  else
    let name := toLowercase (trim runbook.name)
    let against (signature : String) : Except String Unit :=
      if !episodes.any (corroborates toLowercase signature ("procedure: " ++ name)) then
        .error ("no recorded episode with symptom '" ++ signature ++ "' or remediation naming '" ++
          name ++ "' ended resolved with a remediation; the evaluation gate has no local evidence")
      else .ok ()
    match runbook.trigger with
    | .symptom symptom => against (toLowercase (trim symptom))
    | .signal signal => against (toLowercase (trim signal))
    | .manual =>
        .error "a manual runbook has no trigger signature to evaluate against recorded episodes"

/-- The check of one action of the simulation gate. -/
def simulateAction (runbook : LibraryRunbook) (descriptors : List RatedDescriptor)
    (action : CapabilityId) : Except String Unit :=
  match descriptors.find? fun d => d.id == action with
  | Option.none =>
      .error ("candidate action '" ++ action.asStr ++ "' is not in the capability registry; " ++
        "the simulation gate refuses what it cannot simulate")
  | some descriptor =>
      if descriptor.riskClass = .destructive then
        .error ("candidate action '" ++ action.asStr ++
          "' is Destructive; the simulation gate refuses it")
      else if rollbackFeasibility descriptor.reversibility runbook.rollback.head? = .infeasible then
        .error ("candidate action '" ++ action.asStr ++
          "' simulates with an Infeasible rollback; the simulation gate refuses it")
      else .ok ()

/-- The simulation gate's evidence: every allowed action simulates and is acceptable. -/
def simulationEvidence (runbook : LibraryRunbook) (descriptors : List RatedDescriptor) :
    Except String Unit := runbook.allowedActions.forM (simulateAction runbook descriptors)

/-- What the policy gate is reviewed against. -/
structure PolicyReview where
  descriptors : List CapabilityDescriptor
  evaluate : AuthorizationRequest → PolicyDecision
  correlationId : Uuid

/-- The check of one action of the policy gate. -/
def PolicyReview.permits (review : PolicyReview) (action : CapabilityId) : Except String Unit :=
  match review.descriptors.find? fun d => d.id == action with
  | Option.none =>
      .error ("candidate action '" ++ action.asStr ++ "' is not in the capability registry; " ++
        "the policy gate refuses what it cannot classify")
  | some descriptor =>
      let request : CapabilityRequest :=
        { capability := action
          principal := ⟨Option.none, Option.none⟩
          resource := some ⟨"host:local"⟩
          arguments := .null
          context := ⟨review.correlationId, ⟨Option.none, Option.none⟩⟩ }
      let decision := review.evaluate
        (.new request descriptor.riskClass descriptor.effectiveBlastRadius)
      if decision.outcome = .deny then
        .error ("candidate action '" ++ action.asStr ++ "' is denied by policy (" ++
          decision.policyId ++ "): " ++ decision.reason)
      else .ok ()

/-- The policy gate's evidence: nothing the evaluator denies outright. -/
def policyCompatible (runbook : LibraryRunbook) (review : PolicyReview) : Except String Unit :=
  runbook.allowedActions.forM review.permits

/-! ### Deliveries -/

/-- The configuration version that delivered a runbook. -/
structure Provenance where
  configurationId : Uuid
  versionId : Uuid
  versionNumber : Int
  deliveredAt : DateTime
  deriving DecidableEq

/-- A delivered candidate and its provenance. -/
structure DeliveredRunbook extends Provenance where
  runbook : LibraryRunbook
  deriving DecidableEq

def DeliveredRunbook.name (record : DeliveredRunbook) : String := record.runbook.name

/-- One runbook document, with the evidence the caller supplies. -/
structure Delivery where
  /-- The length of the text. -/
  bytes : Nat
  /-- What the text reads. -/
  toml : Except String RunbookFile
  provenance : Provenance
  episodes : List Episode
  descriptors : List RatedDescriptor
  /-- `str::to_lowercase`, with which the texts of the evidence are compared. -/
  toLowercase : String → String

/-- The result of one delivery review: the gates recorded, and why the rest were not. -/
structure DeliveryReport where
  name : String
  recorded : List Gate
  withheld : List (Gate × String)

def maxRunbookTomlBytes : Nat := 64 * 1024

/-- The reviewed candidate, and its report so far. -/
structure Reviewed where
  runbook : LibraryRunbook
  report : DeliveryReport

/-- One technical gate of the review; the ladder has the final word on the order. -/
def Reviewed.gate (reviewed : Reviewed) (gate : Gate) (evidence : Except String Unit) :
    Reviewed :=
  let withhold (reason : String) : Reviewed :=
    { reviewed with report := { reviewed.report with
        withheld := reviewed.report.withheld ++ [(gate, reason)] } }
  match evidence with
  | .error reason => withhold reason
  | .ok () =>
      match reviewed.runbook.recordGate gate with
      | .error error => withhold error.message
      | .ok runbook =>
          { runbook := runbook
            report := { reviewed.report with recorded := reviewed.report.recorded ++ [gate] } }

/-- What `deliver` does before it persists: bound, parse and review. -/
def Delivery.review (delivery : Delivery) (id : Nat) : Except String Reviewed :=
  if maxRunbookTomlBytes < delivery.bytes then
    .error ("the runbook document is " ++ toString delivery.bytes ++
      " bytes; the delivery bound is " ++ toString maxRunbookTomlBytes)
  else
    match parseRunbook id delivery.toml with
    | .error reason => .error reason
    | .ok runbook =>
        if !runbook.gates.isEmpty then
          .error "a delivered runbook cannot declare gates; it earns them here"
        else
          let evaluation := evaluationEvidence delivery.toLowercase runbook delivery.episodes
          let simulation := simulationEvidence runbook delivery.descriptors
          .ok (((⟨runbook, ⟨runbook.name, [], []⟩⟩ : Reviewed).gate .evaluation evaluation).gate
            .simulation simulation)

/-- An operator decision on a runbook candidate. -/
inductive Decision
  | approve
  | promote
  deriving DecidableEq

def Decision.apply (decision : Decision) (r : LibraryRunbook) :
    Except PromotionError LibraryRunbook :=
  match decision with
  | approve => r.approve
  | promote => r.promote

/-- The gate a decision records. -/
def Decision.gate : Decision → Gate
  | approve => .approval
  | promote => .promotion

/-! ### The manager -/

/-- A step of the ladder that succeeded, as the manager traces it. -/
inductive LadderNote
  | delivered (provenance : Provenance)
  | recorded (gate : Gate)
  | decided (decision : Decision)
  deriving DecidableEq

/-- The library, the delivery record of each delivered name, the persisted rows by name, and what
was traced, with the identity of the runbook. -/
structure RunbookManager where
  library : RunbookLibrary
  delivered : List DeliveredRunbook
  rows : List DeliveredRunbook
  /-- The next identity. -/
  minted : Nat
  trace : List (Nat × LadderNote)

/-- What a function holds between its sections. -/
structure Locals where
  record : Option DeliveredRunbook
  snapshot : Option LibraryRunbook

/-- A section ends with the function going on, or leaving with what it returns or logs. -/
inductive Flow
  | next (locals : Locals)
  | leave (reason : Option String)

/-- A step between taking a lock and releasing it, or a call of the store. -/
inductive LockSection
  /-- Waits for the ordering mutex. -/
  | lock
  | review (delivery : Delivery)
  | storeDelivery
  | supersede
  | insertRecord
  | requireDelivered (name : String)
  | decide (name : String) (decision : Decision)
  | recordOutcome (name : String) (success : Bool)
  | verdict (name : String) (review : PolicyReview)
  | recordGate (name : String) (gate : Gate)
  /-- The three of `persist_delivered`. -/
  | snapshot (name : String)
  | restamp (name : String)
  | storeRecord
  | unlock

namespace RunbookManager

def record (m : RunbookManager) (name : String) : Option DeliveredRunbook :=
  Keyed.lookup DeliveredRunbook.name m.delivered name

def row (m : RunbookManager) (name : String) : Option DeliveredRunbook :=
  Keyed.lookup DeliveredRunbook.name m.rows name

/-- `put_runbook`: the row of the name is replaced. -/
def putRow (m : RunbookManager) (record : DeliveredRunbook) : RunbookManager :=
  { m with rows := Keyed.upsert DeliveredRunbook.name record m.rows }

def putRecord (m : RunbookManager) (record : DeliveredRunbook) : RunbookManager :=
  { m with delivered := Keyed.upsert DeliveredRunbook.name record m.delivered }

/-- A runbook of the library moved, with the notes it leaves. -/
def move (m : RunbookManager) (r : LibraryRunbook) (notes : List LadderNote) : RunbookManager :=
  { m with
    library := m.library.replace r
    trace := m.trace ++ notes.map fun note => (r.id, note) }

/-- The notes of a delivery: that it was accepted, and the gates of its review. -/
def deliveryNotes (record : DeliveredRunbook) : List (Nat × LadderNote) :=
  (.delivered record.toProvenance :: record.runbook.gates.map .recorded).map
    fun note => (record.runbook.id, note)

def exec (m : RunbookManager) (locals : Locals) : LockSection → RunbookManager × Flow
  | .lock => (m, .next locals)
  | .unlock => (m, .next locals)
  | .review delivery =>
      let m' := { m with minted := m.minted + 1 }
      match delivery.review m.minted with
      | .error reason => (m', .leave reason)
      | .ok reviewed => (m', .next { locals with
          record := some ⟨delivery.provenance, reviewed.runbook⟩ })
  | .storeDelivery =>
      match locals.record with
      | none => (m, .leave none)
      | some record =>
          ({ m.putRow record with trace := m.trace ++ deliveryNotes record }, .next locals)
  | .supersede =>
      match locals.record with
      | none => (m, .leave none)
      | some record =>
          let removed := m.library.remove record.runbook.name
          match removed.register record.runbook with
          | .error reason =>
              ({ m with library := removed },
                .leave ("the delivered runbook was refused: " ++ reason))
          | .ok library => ({ m with library := library }, .next locals)
  | .insertRecord =>
      match locals.record with
      | none => (m, .leave none)
      | some record => (m.putRecord record, .next locals)
  | .requireDelivered name =>
      match m.record name with
      | none => (m, .leave
          "only delivered runbooks participate in the ladder; this one is file-owned")
      | some _ => (m, .next locals)
  | .decide name decision =>
      match m.library.byName name with
      | none => (m, .leave ("no runbook named '" ++ name ++ "' is loaded"))
      | some runbook =>
          match decision.apply runbook with
          | .error error => (m, .leave error.message)
          | .ok decided => (m.move decided [.decided decision], .next locals)
  | .recordOutcome name success =>
      match m.library.byName name with
      | none => (m, .leave none)
      | some runbook => (m.move (runbook.recordOutcome success) [], .next locals)
  | .verdict name review =>
      match m.library.byName name with
      | none => (m, .leave none)
      | some runbook =>
          if !runbook.hasReached .validation then (m, .leave none)
          else
            match policyCompatible runbook review with
            | .error reason => (m, .leave reason)
            | .ok () => (m, .next locals)
  | .recordGate name gate =>
      match m.library.byName name with
      | none => (m, .leave none)
      | some runbook =>
          match runbook.recordGate gate with
          | .error error => (m, .leave error.message)
          | .ok recorded => (m.move recorded [.recorded gate], .next locals)
  | .snapshot name =>
      match m.library.byName name with
      | none => (m, .leave none)
      | some runbook => (m, .next { locals with snapshot := some runbook })
  | .restamp name =>
      match locals.snapshot, m.record name with
      | some runbook, some record =>
          let record := { record with runbook := runbook }
          (m.putRecord record, .next { locals with record := some record })
      | _, _ => (m, .leave none)
  | .storeRecord =>
      match locals.record with
      | none => (m, .leave none)
      | some record => (m.putRow record, .next locals)

end RunbookManager

/-! ### Functions -/

def persistDelivered (name : String) : List LockSection :=
  [.snapshot name, .restamp name, .storeRecord]

/-- `record_outcome`; it does not take the ordering mutex. -/
def recordOutcome (name : String) (success : Bool) : List LockSection :=
  .recordOutcome name success :: persistDelivered name

def recordEarnedGate (name : String) (gate : Gate) : List LockSection :=
  .lock :: .recordGate name gate :: persistDelivered name ++ [.unlock]

/-- A call on the manager. -/
inductive RunbookCall
  | deliver (delivery : Delivery)
  | decide (name : String) (decision : Decision)
  | onAttributedPlanValidated (name : String) (review : PolicyReview)
  | noteProcedureOutcome (name : String) (success : Bool)

/-- The functions a call runs one after another; one that leaves early does not end the call. -/
def RunbookCall.program : RunbookCall → List (List LockSection)
  | .deliver delivery =>
      [[.lock, .review delivery, .storeDelivery, .supersede, .insertRecord, .unlock]]
  | .decide name decision =>
      [.lock :: .requireDelivered name :: .decide name decision :: persistDelivered name ++
        [.unlock]]
  | .onAttributedPlanValidated name review =>
      [recordOutcome name true, recordEarnedGate name .validation,
        .verdict name review :: recordEarnedGate name .policy]
  | .noteProcedureOutcome name success => [recordOutcome name success]

namespace RunbookManager

/-- A function that runs alone. -/
def runFunction (m : RunbookManager) (locals : Locals) : List LockSection → RunbookManager
  | [] => m
  | section_ :: later =>
      match m.exec locals section_ with
      | (m', .next locals') => m'.runFunction locals' later
      | (m', .leave _) => m'

/-- A call that runs to completion alone. -/
def call (m : RunbookManager) (call : RunbookCall) : RunbookManager :=
  call.program.foldl (fun m sections => m.runFunction ⟨none, none⟩ sections) m

/-- One persisted row of `load`: it supersedes the file's runbook of the name. -/
def restore (m : RunbookManager) (row : DeliveredRunbook) : RunbookManager :=
  let removed := m.library.remove row.name
  match removed.register row.runbook with
  | .error _ => { m with library := removed }
  | .ok library => { m with library := library }.putRecord row

/-- `load` over the store as it is: the files, then the rows in the order of their names, where the
store can be read. -/
def restart (m : RunbookManager) (files : List (Except String RunbookFile)) (readable : Bool) :
    RunbookManager :=
  let loaded : RunbookManager :=
    { m with
      library := loadRunbooks m.minted files
      delivered := []
      minted := m.minted + files.length }
  if readable then
    (m.rows.insertionSort fun a b => a.name ≤ b.name).foldl restore loaded
  else loaded

/-- A manager that was never started, over an empty store. -/
def fresh : RunbookManager := ⟨.empty, [], [], 0, []⟩

end RunbookManager

end Argus
