import Argus.Domain.Value
import Argus.Lib.Keyed
import Argus.Lib.Machine

/-!
# The observation loop

A tick reads the sensors, takes the process inventory, and compares it with the one before. Then
it stores what it observed and publishes what changed. The inventory is the loop's from the moment
it is compared: what is not published in that tick is compared no more.

A process is a pid and its start time, since a pid is used again. `lifecycle_accounted` says when
the published events account for the processes that came and went since the first inventory.
-/

namespace Argus

/-! ### The inventory -/

/-- A single process as observed in one tick, less its metrics. -/
structure ProcessRecord where
  pid : Nat
  ppid : Nat
  name : String
  state : String
  /-- Start time in ticks since boot; distinguishes a reused pid. -/
  startTicks : Nat
  cmdline : List String
  cgroup : List String
  deriving DecidableEq

/-- The records are of one process. -/
def ProcessRecord.Same (rec other : ProcessRecord) : Prop :=
  rec.pid = other.pid ∧ rec.startTicks = other.startTicks

/-- A snapshot of every process, in the order of their pids. -/
structure ProcessInventory where
  processes : List ProcessRecord
  sorted : (processes.map ProcessRecord.pid).Pairwise (· < ·)

namespace ProcessInventory

theorem sorted_nil : (([] : List ProcessRecord).map ProcessRecord.pid).Pairwise (· < ·) := .nil

def empty : ProcessInventory := ⟨[], sorted_nil⟩

def get (inventory : ProcessInventory) (pid : Nat) : Option ProcessRecord :=
  Keyed.lookup ProcessRecord.pid inventory.processes pid

end ProcessInventory

/-- A field whose change is a meaningful lifecycle signal. -/
inductive ProcessField
  | ppid
  | state
  | cmdline
  | cgroup
  deriving DecidableEq

/-- The field's name as the source prints it. -/
def ProcessField.debug : ProcessField → String
  | ppid => "Ppid"
  | state => "State"
  | cmdline => "Cmdline"
  | cgroup => "Cgroup"

/-- A lifecycle change between two ticks. -/
inductive LifecycleChange
  | started (pid : Nat) (name : String) (ppid : Nat)
  | exited (pid : Nat) (name : String)
  | changed (pid : Nat) (name : String) (fields : List ProcessField)
  deriving DecidableEq

/-- The change is of which processes there are. -/
def LifecycleChange.isPresence : LifecycleChange → Bool
  | started .. | exited .. => true
  | changed .. => false

def changedFields (prev curr : ProcessRecord) : List ProcessField :=
  (if prev.ppid ≠ curr.ppid then [.ppid] else []) ++
    (if prev.state ≠ curr.state then [.state] else []) ++
    (if prev.cmdline ≠ curr.cmdline then [.cmdline] else []) ++
    (if prev.cgroup ≠ curr.cgroup then [.cgroup] else [])

/-- What a process of the current snapshot is compared to. -/
def startedOrChanged (prev : ProcessInventory) (rec : ProcessRecord) : Option LifecycleChange :=
  match prev.get rec.pid with
  | none => some (.started rec.pid rec.name rec.ppid)
  | some prevRec =>
      let fields := changedFields prevRec rec
      if fields.isEmpty then none else some (.changed rec.pid rec.name fields)

/-- What a process of the previous snapshot is compared to. -/
def exitedFrom (curr : ProcessInventory) (rec : ProcessRecord) : Option LifecycleChange :=
  match curr.get rec.pid with
  | none => some (.exited rec.pid rec.name)
  | some _ => none

/-- Diff two snapshots into lifecycle changes. -/
def diff (prev curr : ProcessInventory) : List LifecycleChange :=
  curr.processes.filterMap (startedOrChanged prev) ++ prev.processes.filterMap (exitedFrom curr)

/-- The changes of `diff`, each with its process, for the statements. -/
def diffOf (prev curr : ProcessInventory) : List (LifecycleChange × ProcessRecord) :=
  curr.processes.filterMap (fun rec => (startedOrChanged prev rec).map (·, rec)) ++
    prev.processes.filterMap fun rec => (exitedFrom curr rec).map (·, rec)

theorem diffOf_fst (prev curr : ProcessInventory) :
    (diffOf prev curr).map Prod.fst = diff prev curr := by
  simp [diffOf, diff, List.map_filterMap, Function.comp_def]

theorem mem_diffOf_of_started {prev curr : ProcessInventory} {rec : ProcessRecord}
    (hrec : rec ∈ curr.processes) (hnew : prev.get rec.pid = none) :
    (.started rec.pid rec.name rec.ppid, rec) ∈ diffOf prev curr := by
  refine List.mem_append_left _ (List.mem_filterMap.mpr ⟨rec, hrec, ?_⟩)
  simp [startedOrChanged, hnew]

theorem mem_diffOf_of_exited {prev curr : ProcessInventory} {rec : ProcessRecord}
    (hrec : rec ∈ prev.processes) (hgone : curr.get rec.pid = none) :
    (.exited rec.pid rec.name, rec) ∈ diffOf prev curr := by
  refine List.mem_append_right _ (List.mem_filterMap.mpr ⟨rec, hrec, ?_⟩)
  simp [exitedFrom, hgone]

/-! ### Events -/

inductive EventSeverity
  | info
  | warning

structure DomainEvent where
  eventType : String
  subject : String
  severity : EventSeverity
  payload : Value

/-- The lifecycle event of one change. -/
def lifecycleEvent : LifecycleChange → DomainEvent
  | .started pid name ppid =>
      ⟨"process.started", "process:" ++ toString pid, .info,
        .object [("name", .string name), ("ppid", .number (.posInt ppid))]⟩
  | .exited pid name =>
      ⟨"process.exited", "process:" ++ toString pid, .info, .object [("name", .string name)]⟩
  | .changed pid name fields =>
      ⟨"process.changed", "process:" ++ toString pid, .info,
        .object [("fields", .array (fields.map fun field => .string field.debug)),
          ("name", .string name)]⟩

/-- A published event, with the process it is about, for the statements. -/
structure Published where
  event : DomainEvent
  process : Option ProcessRecord

/-! ### The loop -/

/-- The running inventory. The first tick only establishes it. -/
structure Observer where
  inventory : ProcessInventory
  warmed : Bool

/-- One tick of the observer: the changes, each with its process. -/
def Observer.tick (observer : Observer) (current : ProcessInventory) :
    List (LifecycleChange × ProcessRecord) × Observer :=
  (if observer.warmed then diffOf observer.inventory current else [], ⟨current, true⟩)

/-- What the outside answers to one tick. -/
structure TickAnswers where
  sensors : Except String Unit
  inventory : Except String ProcessInventory
  /-- Whether every observation could be stored; the first that cannot ends the tick. -/
  stored : Except String Unit
  /-- How many events the bus takes before one fails. -/
  bus : Option (Nat × String)
  /-- The anomaly and baseline events, which follow the lifecycle events. -/
  others : List DomainEvent

structure ObservationLoop where
  observer : Observer
  /-- The first inventory. -/
  first : Option ProcessInventory
  published : List Published
  /-- How the last tick ended. -/
  result : Except String Unit

namespace ObservationLoop

def start : ObservationLoop := ⟨⟨.empty, false⟩, none, [], .ok ()⟩

/-- `persist_and_publish`: the events that are published, and how it ended. -/
def persistAndPublish (answers : TickAnswers) (events : List Published) :
    List Published × Except String Unit :=
  match answers.stored with
  | .error error => ([], .error error)
  | .ok () =>
      match answers.bus with
      | none => (events, .ok ())
      | some (taken, error) =>
          if taken < events.length then (events.take taken, .error error) else (events, .ok ())

def tick (loop : ObservationLoop) (answers : TickAnswers) : ObservationLoop :=
  match answers.sensors with
  | .error error => { loop with result := .error error }
  | .ok () =>
      match answers.inventory with
      | .error error => { loop with result := .error error }
      | .ok current =>
          let (changes, observer) := loop.observer.tick current
          let events := changes.map (fun change => ⟨lifecycleEvent change.1, some change.2⟩) ++
            answers.others.map fun event => ⟨event, none⟩
          let (published, result) := persistAndPublish answers events
          { observer, first := loop.first.or (some current),
            published := loop.published ++ published, result }

/-- An event of this type was published for the process. -/
def Announced (loop : ObservationLoop) (eventType : String) (rec : ProcessRecord) : Prop :=
  ∃ published ∈ loop.published, published.event.eventType = eventType ∧
    published.event.subject = "process:" ++ toString rec.pid ∧
    ∃ process, published.process = some process ∧ process.Same rec

/-- The inventory has the process. -/
def Has (inventory : ProcessInventory) (rec : ProcessRecord) : Prop :=
  ∃ other ∈ inventory.processes, other.Same rec

/-- The events account for the difference between two inventories. -/
structure Accounts (loop : ObservationLoop) (first current : ProcessInventory) : Prop where
  started : ∀ rec ∈ current.processes, ¬ Has first rec → loop.Announced "process.started" rec
  exited : ∀ rec ∈ first.processes, ¬ Has current rec → loop.Announced "process.exited" rec

/-- After a tick that succeeded the events account for what changed since the first inventory. -/
def Accounted (loop : ObservationLoop) : Prop :=
  loop.result = .ok () → ∀ first ∈ loop.first, loop.Accounts first loop.observer.inventory

/-- The changes that are not published. -/
def unpublished {α : Type} (answers : TickAnswers) (changes : List α) : List α :=
  match answers.stored with
  | .error _ => changes
  | .ok () =>
      match answers.bus with
      | none => []
      | some (taken, _) => changes.drop taken

/-- No start and no exit goes unpublished, and no pid went to another process since the last
inventory. -/
def Keeps (loop : ObservationLoop) (answers : TickAnswers) : Prop :=
  ∀ current, answers.sensors = .ok () → answers.inventory = .ok current →
    loop.observer.warmed = true →
      (∀ change ∈ unpublished answers (diff loop.observer.inventory current),
        change.isPresence = false) ∧
      ∀ old ∈ loop.observer.inventory.processes, ∀ rec ∈ current.processes,
        old.pid = rec.pid → old.startTicks = rec.startTicks

/-! ### What a tick publishes -/

variable {loop : ObservationLoop} {answers : TickAnswers} {current : ProcessInventory}
  {change : LifecycleChange} {rec : ProcessRecord}

/-- A change whose event is not among those left over was published. -/
theorem published_of_not_unpublished {changes : List (LifecycleChange × ProcessRecord)}
    (others : List Published) (hmem : (change, rec) ∈ changes)
    (hout : change ∉ unpublished answers (changes.map Prod.fst)) :
    ⟨lifecycleEvent change, some rec⟩ ∈ (persistAndPublish answers
      (changes.map (fun change => ⟨lifecycleEvent change.1, some change.2⟩) ++ others)).1 := by
  have hevent : (⟨lifecycleEvent change, some rec⟩ : Published) ∈
      changes.map fun change => ⟨lifecycleEvent change.1, some change.2⟩ :=
    List.mem_map.mpr ⟨(change, rec), hmem, rfl⟩
  unfold unpublished at hout
  unfold persistAndPublish
  cases hstored : answers.stored with
  | error error =>
      rw [hstored] at hout
      exact absurd (List.mem_map.mpr ⟨_, hmem, rfl⟩) hout
  | ok =>
      cases hbus : answers.bus with
      | none => exact List.mem_append_left _ hevent
      | some bus =>
          obtain ⟨taken, error⟩ := bus
          simp only [hstored, hbus] at hout
          dsimp only
          split_ifs
          · have htaken : (change, rec) ∈ changes.take taken := by
              rw [← List.take_append_drop taken changes] at hmem
              refine (List.mem_append.mp hmem).resolve_right fun hdrop => hout ?_
              rw [← List.map_drop]
              exact List.mem_map.mpr ⟨_, hdrop, rfl⟩
            rw [List.take_append, ← List.map_take]
            exact List.mem_append_left _ (List.mem_map.mpr ⟨_, htaken, rfl⟩)
          · exact List.mem_append_left _ hevent

/-- A tick that reads the sensors and the inventory makes the inventory its own. -/
theorem tick_eq (loop : ObservationLoop) (hsensors : answers.sensors = .ok ())
    (hinventory : answers.inventory = .ok current) :
    (loop.tick answers).observer = ⟨current, true⟩ ∧
      (loop.tick answers).first = loop.first.or (some current) ∧
      (loop.tick answers).published = loop.published ++ (persistAndPublish answers
        ((loop.observer.tick current).1.map (fun change =>
          ⟨lifecycleEvent change.1, some change.2⟩) ++
            answers.others.map fun event => ⟨event, none⟩)).1 := by
  simp [tick, hsensors, hinventory, Observer.tick]

/-- Any other tick leaves the loop, and fails. -/
theorem tick_of_unread (loop : ObservationLoop) (answers : TickAnswers)
    (h : ∀ current, answers.sensors = .ok () → answers.inventory ≠ .ok current) :
    ∃ error, loop.tick answers = { loop with result := .error error } := by
  unfold tick
  cases hsensors : answers.sensors with
  | error error => exact ⟨error, rfl⟩
  | ok =>
      cases hinventory : answers.inventory with
      | error error => exact ⟨error, rfl⟩
      | ok current => exact absurd hinventory (h current hsensors)

/-! ### Runs -/

/-- What the runs keep: what changed since the first inventory was announced. -/
structure Covered (loop : ObservationLoop) : Prop where
  warmed : loop.observer.warmed = loop.first.isSome
  accounts : ∀ first ∈ loop.first, loop.Accounts first loop.observer.inventory

theorem covered_start : Covered start := ⟨rfl, nofun⟩

/-- A presence change of a tick that keeps is announced for its process. -/
theorem announced_of_change {eventType : String} (hsensors : answers.sensors = .ok ())
    (hinventory : answers.inventory = .ok current) (hwarmed : loop.observer.warmed = true)
    (hkeeps : loop.Keeps answers) (hmem : (change, rec) ∈ diffOf loop.observer.inventory current)
    (hpresence : change.isPresence = true) (htype : (lifecycleEvent change).eventType = eventType)
    (hsubject : (lifecycleEvent change).subject = "process:" ++ toString rec.pid) :
    (loop.tick answers).Announced eventType rec := by
  obtain ⟨-, -, hpublished⟩ := tick_eq loop hsensors hinventory
  have hchanges : (loop.observer.tick current).1 = diffOf loop.observer.inventory current := by
    simp [Observer.tick, hwarmed]
  have hout : change ∉ unpublished answers
      ((diffOf loop.observer.inventory current).map Prod.fst) := by
    rw [diffOf_fst]
    intro hlost
    have hnot := (hkeeps current hsensors hinventory hwarmed).1 change hlost
    rw [hpresence] at hnot
    cases hnot
  refine ⟨⟨lifecycleEvent change, some rec⟩, ?_, htype, hsubject, rec, rfl, rfl, rfl⟩
  rw [hpublished, hchanges]
  exact List.mem_append_right _ (published_of_not_unpublished _ hmem hout)

theorem Announced.mono {loop' : ObservationLoop} {eventType : String}
    (h : loop.Announced eventType rec) (hsub : loop.published ⊆ loop'.published) :
    loop'.Announced eventType rec := by
  obtain ⟨published, hmem, hrest⟩ := h
  exact ⟨published, hsub hmem, hrest⟩

/-- What is announced for a process is announced for it under any of its records. -/
theorem Announced.of_same {eventType : String} {other : ProcessRecord}
    (h : loop.Announced eventType other) (hsame : other.Same rec) :
    loop.Announced eventType rec := by
  obtain ⟨published, hmem, htype, hsubject, process, hprocess, hpid, hstart⟩ := h
  rw [hsame.1] at hsubject hpid
  exact ⟨published, hmem, htype, hsubject, process, hprocess, hpid, hstart.trans hsame.2⟩

/-- The processes of the next inventory are accounted for. -/
theorem Accounts.tick {first : ProcessInventory}
    (h : loop.Accounts first loop.observer.inventory) (hwarmed : loop.observer.warmed = true)
    (hsensors : answers.sensors = .ok ()) (hinventory : answers.inventory = .ok current)
    (hkeeps : loop.Keeps answers) : (loop.tick answers).Accounts first current := by
  have hreuse := (hkeeps current hsensors hinventory hwarmed).2
  have hsub : loop.published ⊆ (loop.tick answers).published := by
    rw [(tick_eq loop hsensors hinventory).2.2]
    exact List.subset_append_left _ _
  constructor
  · intro rec hrec hnew
    cases hold : loop.observer.inventory.get rec.pid with
    | none =>
        exact announced_of_change hsensors hinventory hwarmed hkeeps
          (mem_diffOf_of_started hrec hold) rfl rfl rfl
    | some old =>
        -- it ran before this tick, so its start was announced before
        have hmem := Keyed.mem_of_lookup hold
        have hpid := Keyed.key_of_lookup hold
        have hsame : old.Same rec := ⟨hpid, hreuse old hmem rec hrec hpid⟩
        refine ((h.started old hmem ?_).of_same hsame).mono hsub
        rintro ⟨other, hother, hotherPid, hotherStart⟩
        exact hnew ⟨other, hother, hotherPid.trans hsame.1, hotherStart.trans hsame.2⟩
  · intro rec hrec hgone
    by_cases hran : Has loop.observer.inventory rec
    · -- it ran until this tick
      obtain ⟨old, hold, hsame⟩ := hran
      cases hget : current.get old.pid with
      | none =>
          exact (announced_of_change hsensors hinventory hwarmed hkeeps
            (mem_diffOf_of_exited hold hget) rfl rfl rfl).of_same hsame
      | some new =>
          have hmem := Keyed.mem_of_lookup hget
          have hpid := Keyed.key_of_lookup hget
          have hstart := hreuse old hold new hmem hpid.symm
          exact absurd ⟨new, hmem, hpid.trans hsame.1, hstart.symm.trans hsame.2⟩ hgone
    · exact (h.exited rec hrec hran).mono hsub

theorem Covered.tick (h : loop.Covered) (hkeeps : loop.Keeps answers) :
    (loop.tick answers).Covered := by
  by_cases hread : ∃ current, answers.sensors = .ok () ∧ answers.inventory = .ok current
  · obtain ⟨current, hsensors, hinventory⟩ := hread
    obtain ⟨hobserver, hfirst, hpublished⟩ := tick_eq loop hsensors hinventory
    refine ⟨?_, fun first hmem => ?_⟩
    · rw [hobserver, hfirst]
      cases loop.first <;> rfl
    · rw [hobserver]
      cases hbefore : loop.first with
      | none =>
          -- the first inventory: nothing has changed since
          rw [hfirst, hbefore] at hmem
          obtain rfl : current = first := by simpa using hmem
          exact ⟨fun rec hrec hnew => absurd ⟨rec, hrec, rfl, rfl⟩ hnew,
            fun rec hrec hgone => absurd ⟨rec, hrec, rfl, rfl⟩ hgone⟩
      | some earlier =>
          rw [hfirst, hbefore] at hmem
          obtain rfl : earlier = first := by simpa using hmem
          have hwarmed : loop.observer.warmed = true := by rw [h.warmed, hbefore]; rfl
          exact (h.accounts earlier hbefore).tick hwarmed hsensors hinventory hkeeps
  · obtain ⟨error, htick⟩ := tick_of_unread loop answers
      fun current hsensors hinventory => hread ⟨current, hsensors, hinventory⟩
    rw [htick]
    refine ⟨h.warmed, fun first hfirst => ?_⟩
    have haccounts := h.accounts first hfirst
    exact ⟨haccounts.started, haccounts.exited⟩

/-- **Lifecycle events.** As long as every start and every exit is published in the tick that
finds it, and no pid goes to another process between two inventories, the events account for what
changed since the first inventory. -/
theorem lifecycle_accounted (ticks : List TickAnswers)
    (h : Machine.Every tick Keeps start ticks) : (Machine.run tick start ticks).Accounted :=
  fun _ => (h.invariant covered_start fun _ _ hs hkeeps => hs.tick hkeeps).accounts

def initProcess : ProcessRecord := ⟨1, 0, "init", "S", 3, ["/sbin/init"], ["/init.scope"]⟩

def workerProcess : ProcessRecord := ⟨2, 1, "worker", "S", 9000, ["worker"], ["/worker.scope"]⟩

/-- A tick that reads these processes. -/
def reading (inventory : ProcessInventory) (stored : Except String Unit) : TickAnswers :=
  ⟨.ok (), .ok inventory, stored, none, []⟩

/-- A worker starts; in the tick before, nothing could be stored, but nothing had changed. -/
theorem lifecycle_accounted_start :
    (Machine.run tick start [reading ⟨[initProcess], by decide⟩ (.ok ()),
      reading ⟨[initProcess], by decide⟩ (.error "disk full"),
      reading ⟨[initProcess, workerProcess], by decide⟩ (.ok ())]).Accounted := by
  refine lifecycle_accounted _ ⟨?first, ?unchanged, ?started, trivial⟩
  case first => exact fun _ _ _ hwarmed => nomatch hwarmed
  case unchanged =>
    rintro current - hinventory -
    obtain rfl : (⟨[initProcess], by decide⟩ : ProcessInventory) = current := by
      injection hinventory
    exact ⟨nofun, by decide⟩
  case started =>
    rintro current - hinventory -
    obtain rfl : (⟨[initProcess, workerProcess], by decide⟩ : ProcessInventory) = current := by
      injection hinventory
    exact ⟨nofun, by decide⟩

/-- The worker starts in the tick in which nothing can be stored. -/
theorem lifecycle_unaccounted :
    ¬ (Machine.run tick start [reading ⟨[initProcess], by decide⟩ (.ok ()),
      reading ⟨[initProcess, workerProcess], by decide⟩ (.error "disk full"),
      reading ⟨[initProcess, workerProcess], by decide⟩ (.ok ())]).Accounted := by
  intro h
  obtain ⟨published, hpublished, -⟩ := (h rfl _ rfl).started workerProcess (by decide) (by
    rintro ⟨other, hother, hpid, -⟩
    obtain rfl : other = initProcess := by simpa using hother
    cases hpid)
  cases hpublished

end ObservationLoop

end Argus
