import Argus.Daemon.RunbookLadder

/-!
# Interleaved calls on the runbook manager

Every mutate-then-persist sequence is to be serialized by the ordering mutex, so that a stale
library snapshot is never persisted under newer provenance. The recording of an outcome does not
take it: its sections, and those of a delivery or a decision of the same name, may interleave.
Where they do not, every row is its delivery's record and the library's runbook
(`rows_match_library`).
-/

namespace Argus

/-! ### The machine -/

namespace LockSection

def isLock : LockSection → Bool
  | lock => true
  | _ => false

def isUnlock : LockSection → Bool
  | unlock => true
  | _ => false

/-- The name whose record or row is behind its runbook, before the section. -/
def behind (locals : Locals) : LockSection → Option String
  | supersede | insertRecord | storeRecord => locals.record.map DeliveredRunbook.name
  | snapshot name | restamp name => some name
  | _ => none

/-- The name whose runbook or row the section moves ahead, and whether it records an outcome. -/
def begins (locals : Locals) : LockSection → Option (String × Bool)
  | storeDelivery => locals.record.map fun record => (record.name, false)
  | decide name _ | recordGate name _ => some (name, false)
  | recordOutcome name _ => some (name, true)
  | _ => none

end LockSection

/-- A call in progress: the functions that are left of it, the running one first. -/
structure RunbookThread where
  program : List (List LockSection)
  locals : Locals

namespace RunbookThread

def start (call : RunbookCall) : RunbookThread := ⟨call.program, ⟨none, none⟩⟩

/-- The sections that are left of the running function. -/
def current (t : RunbookThread) : List LockSection := t.program.headD []

/-- The function holds the ordering mutex, or is to take it. -/
def guarded (t : RunbookThread) : Bool := t.current.any LockSection.isUnlock

/-- The function holds the ordering mutex. -/
def holds (t : RunbookThread) : Bool := t.guarded && !t.current.any LockSection.isLock

/-- The name the function is in the middle of: moved ahead, and not persisted yet. -/
def midway (t : RunbookThread) : Option String := t.current.head?.bind (LockSection.behind t.locals)

/-- The sequence the function begins next. -/
def begins (t : RunbookThread) : Option (String × Bool) :=
  t.current.head?.bind (LockSection.begins t.locals)

end RunbookThread

/-- The manager, who holds the ordering mutex, and the calls in progress. -/
structure RunbookHost where
  manager : RunbookManager
  order : Option Nat
  threads : List RunbookThread

inductive HostEvent
  | spawn (call : RunbookCall)
  | advance (index : Nat)

namespace RunbookHost

/-- A host after a first start over an empty store. -/
def start (files : List (Except String RunbookFile)) : RunbookHost :=
  ⟨RunbookManager.fresh.restart files true, none, []⟩

/-- One section of a call. A function that returns drops its locals and the mutex. -/
def advance (s : RunbookHost) (index : Nat) (t : RunbookThread) : RunbookHost :=
  match t.program with
  | [] => s
  | [] :: rest => { s with threads := s.threads.set index ⟨rest, ⟨none, none⟩⟩ }
  | (section_ :: later) :: rest =>
      if section_.isLock then
        if s.order.isSome then s
        else { s with
          order := some index
          threads := s.threads.set index ⟨later :: rest, t.locals⟩ }
      else
        match s.manager.exec t.locals section_ with
        | (manager, .next locals) =>
            { manager := manager
              order := if section_.isUnlock then none else s.order
              threads := s.threads.set index ⟨later :: rest, locals⟩ }
        | (manager, .leave _) =>
            { manager := manager
              order := if s.order = some index then none else s.order
              threads := s.threads.set index ⟨rest, ⟨none, none⟩⟩ }

def step (s : RunbookHost) : HostEvent → RunbookHost
  | .spawn call => { s with threads := s.threads ++ [.start call] }
  | .advance index =>
      match s.threads[index]? with
      | none => s
      | some t => s.advance index t

/-- No call is in progress. -/
def finished (s : RunbookHost) : Bool := s.threads.all fun t => t.program.flatten.isEmpty

/-- The recording of an outcome begins only where no other call is midway on its name, and another
sequence only where no recording of an outcome is midway on its name. -/
def serial (s : RunbookHost) : HostEvent → Bool
  | .spawn _ => true
  | .advance index =>
      match s.threads[index]?.bind RunbookThread.begins with
      | none => true
      | some (name, outcome) => s.threads.zipIdx.all fun (t, other) =>
          other == index || t.midway != some name || (t.guarded && !outcome)

end RunbookHost

namespace RunbookManager

/-- The provenance is that of the delivery that brought the runbook. -/
def Versioned (m : RunbookManager) (record : DeliveredRunbook) : Prop :=
  (record.runbook.id, .delivered record.toProvenance) ∈ m.trace

/-- The row of a name is its delivery's record, and the runbook of that is the library's. -/
def Settled (m : RunbookManager) (name : String) : Prop :=
  m.row name = m.record name ∧ ∀ record, m.record name = some record →
    m.library.byName name = some record.runbook ∧ m.Versioned record

end RunbookManager

namespace RunbookHost

open RunbookManager

/-- Every delivered runbook is persisted as it is in the library, with the provenance of the
delivery that brought it. -/
def RowsMatch (m : RunbookManager) : Prop := ∀ name, m.Settled name

/-! ### A recording that is overtaken -/

/-- The events of a call that runs through: at most so many sections. -/
def through (index sections : Nat) : List HostEvent := List.replicate sections (.advance index)

/-- The first version is delivered and a run of it fails. The recording of the outcome takes its
snapshot, the second version is delivered, and the recording goes on. -/
def overtaken : List HostEvent :=
  [.spawn (.deliver (reclaimDelivery 1))] ++ through 0 7 ++
  [.spawn (.noteProcedureOutcome "reclaim" false), .advance 1, .advance 1] ++
  [.spawn (.deliver (reclaimDelivery 2))] ++ through 2 7 ++ through 1 3

/-- The row then has the first version's runbook under the second version's provenance, and a
restart brings that runbook back. -/
theorem stale_runbook_persisted :
    let s := Machine.run step (start []) overtaken
    s.finished = true ∧ ¬ RowsMatch s.manager ∧
      (s.manager.row "reclaim").map (fun row => (row.runbook.id, row.versionNumber)) = some (0, 2) ∧
      (s.manager.library.byName "reclaim").map LibraryRunbook.id = some 1 ∧
      ((s.manager.restart [] true).library.byName "reclaim").map LibraryRunbook.id = some 0 := by
  intro s
  have hrow : (s.manager.row "reclaim").map (fun row => (row.runbook.id, row.versionNumber)) =
      some (0, 2) := by decide
  have hlibrary : (s.manager.library.byName "reclaim").map LibraryRunbook.id = some 1 := by
    decide
  refine ⟨by decide, fun hmatch => ?_, hrow, hlibrary, by decide⟩
  obtain ⟨row, hget, hid⟩ := Option.map_eq_some_iff.mp hrow
  obtain ⟨hsame, hrecord⟩ := hmatch "reclaim"
  obtain ⟨hlib, -⟩ := hrecord row (hsame.symm.trans hget)
  have hzero : row.runbook.id = 0 := congrArg Prod.fst hid
  rw [hlib, Option.map_some, hzero] at hlibrary
  exact absurd hlibrary (by decide)

end RunbookHost

end Argus
