import Argus.Domain.Autonomy
import Argus.Domain.Value

/-!
# The report queue and the ledger buffer

Reports and ledger events wait in memory for the cloud. The report queue has a capacity and
discards from its front; the ledger buffer holds three streams with a policy each: actions are
refused when there is no room, traces coalesce, and usage is batched into rolling sums.

Entries are minted in order, and `serial` stands for their id and tells their age. A usage batch
keeps the list of the records that were summed into it. Both are for the statements: no
operation looks at them.
-/

namespace Argus

/-- `saturating_add` on 64-bit counters. -/
def saturatingAddU64 (a b : Nat) : Nat := min (a + b) (2 ^ 64 - 1)

/-- Counting one by one is counting together. -/
theorem saturatingAddU64_assoc (a b c : Nat) :
    saturatingAddU64 (saturatingAddU64 a b) c = saturatingAddU64 a (b + c) := by
  unfold saturatingAddU64
  omega

inductive ReportKind
  | telemetry
  | health
  | events
  | activities
  | sentinel
  | actionLedger
  | brainTrace
  | tokenUsage
  deriving DecidableEq

/-- Whether the kind belongs to the ledger's buffer. -/
def ReportKind.isLedger : ReportKind → Bool
  | actionLedger | brainTrace | tokenUsage => true
  | telemetry | health | events | activities | sentinel => false

theorem telemetry_isLedger : ReportKind.telemetry.isLedger = false := rfl

theorem sentinel_isLedger : ReportKind.sentinel.isLedger = false := rfl

/-- The rolling usage batch of one cycle and model. -/
structure UsageSum where
  usageId : Nat
  cycleId : Option Uuid
  model : Option String
  promptTokens : Option Nat
  completionTokens : Option Nat
  totalTokens : Option Nat
  calls : Nat
  unknownUsage : Nat
  durationMs : Nat
  /-- The records summed into the batch. -/
  records : List Nat
  deriving DecidableEq

/-- An unknown count is not added. -/
def sumOpt : Option Nat → Option Nat → Option Nat
  | some x, some y => some (saturatingAddU64 x y)
  | a, _ => a

namespace UsageSum

/-- Adds another batch. The identity is that of the first. -/
def merge (sum other : UsageSum) : UsageSum :=
  { sum with
    promptTokens := sumOpt sum.promptTokens other.promptTokens
    completionTokens := sumOpt sum.completionTokens other.completionTokens
    totalTokens := sumOpt sum.totalTokens other.totalTokens
    calls := saturatingAdd sum.calls other.calls
    unknownUsage := saturatingAdd sum.unknownUsage other.unknownUsage
    durationMs := saturatingAddU64 sum.durationMs other.durationMs
    records := sum.records ++ other.records }

/-- The batches are of one cycle and model. -/
def sameKey (sum other : UsageSum) : Bool :=
  sum.cycleId == other.cycleId && sum.model == other.model

end UsageSum

/-- The payload of an entry. That of a usage entry is the JSON of its batch, which serde reads
back as it was written; it stands for itself. -/
inductive Payload
  | value (document : Value)
  | usage (sum : UsageSum)
  deriving DecidableEq

structure BufferedReport where
  serial : Nat
  kind : ReportKind
  payload : Payload
  enqueuedAt : DateTime
  attempts : Nat
  deriving DecidableEq

namespace BufferedReport

/-- An entry as it enters a buffer. -/
def fresh (serial : Nat) (kind : ReportKind) (payload : Payload) (at_ : DateTime) :
    BufferedReport :=
  ⟨serial, kind, payload, at_, 0⟩

/-- One more delivery attempt. -/
def attempt (entry : BufferedReport) : BufferedReport :=
  { entry with attempts := saturatingAdd entry.attempts 1 }

@[simp] theorem attempt_serial (entry : BufferedReport) : entry.attempt.serial = entry.serial := rfl

@[simp] theorem serial_comp_attempt :
    BufferedReport.serial ∘ BufferedReport.attempt = BufferedReport.serial := rfl

@[simp] theorem attempt_kind (entry : BufferedReport) : entry.attempt.kind = entry.kind := rfl

@[simp] theorem attempt_payload (entry : BufferedReport) : entry.attempt.payload = entry.payload :=
  rfl

@[simp] theorem attempt_enqueuedAt (entry : BufferedReport) :
    entry.attempt.enqueuedAt = entry.enqueuedAt := rfl

end BufferedReport

/-! ### The report queue -/

/-- The queue of reports. A zero capacity is lifted to one. -/
structure ReportQueue where
  capacity : Nat
  entries : List BufferedReport
  droppedTotal : Nat
  lastDrainAt : Option DateTime
  capacity_pos : 0 < capacity

namespace ReportQueue

def new (capacity : Nat) : ReportQueue where
  capacity := max capacity 1
  entries := []
  droppedTotal := 0
  lastDrainAt := none
  capacity_pos := by omega

/-- Pops from the front while there is no room, with what was popped. -/
def shed (capacity : Nat) : List BufferedReport → Nat →
    List BufferedReport × List BufferedReport × Nat
  | [], dropped => ([], [], dropped)
  | entry :: rest, dropped =>
      if capacity < (entry :: rest).length then
        let (discarded, held, dropped) := shed capacity rest (saturatingAddU64 dropped 1)
        (entry :: discarded, held, dropped)
      else ([], entry :: rest, dropped)

/-- Adds a report; a full queue discards its front, which is returned. -/
def enqueue (queue : ReportQueue) (serial : Nat) (kind : ReportKind) (payload : Payload)
    (at_ : DateTime) : Option BufferedReport × ReportQueue :=
  let entry := BufferedReport.fresh serial kind payload at_
  if queue.capacity ≤ queue.entries.length then
    match queue.entries with
    | [] => (none, { queue with entries := [entry] })
    | discarded :: rest =>
        (some discarded, { queue with
          entries := rest ++ [entry]
          droppedTotal := saturatingAddU64 queue.droppedTotal 1 })
  else (none, { queue with entries := queue.entries ++ [entry] })

/-- Takes up to `limit` reports from the front. -/
def drain (queue : ReportQueue) (limit : Nat) (at_ : DateTime) :
    List BufferedReport × ReportQueue :=
  let take := min limit queue.entries.length
  let taken := (queue.entries.take take).map BufferedReport.attempt
  (taken, { queue with
    entries := queue.entries.drop take
    lastDrainAt := if taken.isEmpty then queue.lastDrainAt else some at_ })

/-- Puts reports back at the front, in their order, and discards from the front what is over
the capacity. The discarded ones are returned, for the statements. -/
def requeueFront (queue : ReportQueue) (entries : List BufferedReport) :
    List BufferedReport × ReportQueue :=
  let (discarded, held, droppedTotal) :=
    shed queue.capacity (entries ++ queue.entries) queue.droppedTotal
  (discarded, { queue with entries := held, droppedTotal })

/-! #### What the operations do -/

variable {queue : ReportQueue}

/-- What is shed comes from the front. -/
theorem shed_append (capacity : Nat) (entries : List BufferedReport) (dropped : Nat) :
    (shed capacity entries dropped).1 ++ (shed capacity entries dropped).2.1 = entries := by
  induction entries generalizing dropped with
  | nil => rfl
  | cons entry rest ih =>
      rw [shed]
      split_ifs
      · exact congrArg (entry :: ·) (ih _)
      · rfl

theorem shed_length (capacity : Nat) (entries : List BufferedReport) (dropped : Nat) :
    (shed capacity entries dropped).2.1.length ≤ capacity := by
  induction entries generalizing dropped with
  | nil => exact Nat.zero_le _
  | cons entry rest ih =>
      rw [shed]
      split_ifs with hfull
      · exact ih _
      · exact Nat.le_of_not_lt hfull

/-- Each pop is counted. -/
theorem shed_count (capacity : Nat) (entries : List BufferedReport) (a b : Nat) :
    (shed capacity entries (saturatingAddU64 a b)).2.2 =
      saturatingAddU64 a (b + (shed capacity entries (saturatingAddU64 a b)).1.length) := by
  induction entries generalizing b with
  | nil => rfl
  | cons entry rest ih =>
      rw [shed]
      split_ifs
      · rw [saturatingAddU64_assoc]
        simp only [List.length_cons]
        rw [ih (b + 1), Nat.add_assoc, Nat.add_comm 1]
      · rfl

/-- A report is added behind the others, and a discarded one was in front of them. -/
theorem enqueue_entries (queue : ReportQueue) (serial : Nat) (kind : ReportKind)
    (payload : Payload) (at_ : DateTime) :
    (queue.enqueue serial kind payload at_).1.toList ++
        (queue.enqueue serial kind payload at_).2.entries =
      queue.entries ++ [.fresh serial kind payload at_] := by
  unfold enqueue
  split_ifs
  · split
    next hnil => simp [hnil]
    next hcons => simp [hcons]
  · rfl

theorem enqueue_length (h : queue.entries.length ≤ queue.capacity) (serial : Nat)
    (kind : ReportKind) (payload : Payload) (at_ : DateTime) :
    (queue.enqueue serial kind payload at_).2.entries.length ≤ queue.capacity := by
  unfold enqueue
  have hpos := queue.capacity_pos
  split_ifs
  · split
    next => exact hpos
    next hcons =>
      rw [hcons] at h
      simpa using h
  · simp only [List.length_append, List.length_singleton]
    omega

theorem enqueue_count {a b : Nat} (h : queue.droppedTotal = saturatingAddU64 a b) (serial : Nat)
    (kind : ReportKind) (payload : Payload) (at_ : DateTime) :
    (queue.enqueue serial kind payload at_).2.droppedTotal =
      saturatingAddU64 a (b + (queue.enqueue serial kind payload at_).1.toList.length) := by
  unfold enqueue
  split_ifs
  · split
    · exact h
    · simp only [h, saturatingAddU64_assoc]
      rfl
  · exact h

theorem enqueue_capacity (queue : ReportQueue) (serial : Nat) (kind : ReportKind)
    (payload : Payload) (at_ : DateTime) :
    (queue.enqueue serial kind payload at_).2.capacity = queue.capacity := by
  unfold enqueue
  split_ifs
  · split <;> rfl
  · rfl

theorem shed_sublist (capacity : Nat) (entries : List BufferedReport) (dropped : Nat) :
    (shed capacity entries dropped).2.1.Sublist entries := by
  have hsuffix := List.sublist_append_right (shed capacity entries dropped).1
    (shed capacity entries dropped).2.1
  rwa [shed_append] at hsuffix

theorem enqueue_sublist (queue : ReportQueue) (serial : Nat) (kind : ReportKind)
    (payload : Payload) (at_ : DateTime) :
    (queue.enqueue serial kind payload at_).2.entries.Sublist
      (queue.entries ++ [.fresh serial kind payload at_]) := by
  rw [← enqueue_entries]
  exact List.sublist_append_right _ _

theorem requeueFront_sublist (queue : ReportQueue) (entries : List BufferedReport) :
    (queue.requeueFront entries).2.entries.Sublist (entries ++ queue.entries) :=
  shed_sublist _ _ _

end ReportQueue

/-! ### The ledger buffer -/

/-- `LEDGER_ACTION_CAPACITY`. -/
def ledgerActionCapacity : Nat := 8192

/-- `LEDGER_TRACE_CAPACITY`. -/
def ledgerTraceCapacity : Nat := 256

/-- `Map::insert`: the keys of a map are sorted. -/
def insertKey (key : String) (value : Value) : List (String × Value) → List (String × Value)
  | [] => [(key, value)]
  | (k, v) :: rest =>
      if key = k then (key, value) :: rest
      else if key < k then (key, value) :: (k, v) :: rest
      else (k, v) :: insertKey key value rest

theorem lookup_insertKey (key : String) (value : Value) (fields : List (String × Value)) :
    (insertKey key value fields).lookup key = some value := by
  induction fields with
  | nil => simp [insertKey]
  | cons field fields ih =>
      obtain ⟨k, v⟩ := field
      unfold insertKey
      split_ifs with hsame hless
      · simp
      · simp
      · have hne : (key == k) = false := by simpa using hsame
        rw [List.lookup_cons, hne]
        exact ih

theorem lookup_insertKey_of_ne {key other : String} (h : other ≠ key) (value : Value)
    (fields : List (String × Value)) :
    (insertKey key value fields).lookup other = fields.lookup other := by
  have hother : (other == key) = false := by simpa using h
  induction fields with
  | nil => simp [insertKey, List.lookup_cons, hother]
  | cons field fields ih =>
      obtain ⟨k, v⟩ := field
      unfold insertKey
      split_ifs with hsame hless
      · subst hsame
        simp [List.lookup_cons, hother]
      · simp [List.lookup_cons, hother]
      · simp only [List.lookup_cons, ih]

theorem mem_insertKey {key : String} {value : Value} {fields : List (String × Value)}
    {field : String × Value} (h : field ∈ insertKey key value fields) :
    field = (key, value) ∨ field ∈ fields := by
  induction fields with
  | nil => exact .inl (List.mem_singleton.mp h)
  | cons first fields ih =>
      obtain ⟨k, v⟩ := first
      unfold insertKey at h
      split_ifs at h with hsame hless
      · exact (List.mem_cons.mp h).imp_right (List.mem_cons_of_mem _)
      · exact List.mem_cons.mp h
      · rcases List.mem_cons.mp h with rfl | hrest
        · exact .inr List.mem_cons_self
        · exact (ih hrest).imp_right (List.mem_cons_of_mem _)

/-- The buffer of the action ledger. -/
structure LedgerBuffer where
  actions : List BufferedReport
  traces : List BufferedReport
  droppedTraces : Nat
  usage : List UsageSum

namespace LedgerBuffer

def new : LedgerBuffer := ⟨[], [], 0, []⟩

def isEmpty (buffer : LedgerBuffer) : Bool :=
  buffer.actions.isEmpty && buffer.traces.isEmpty && buffer.usage.isEmpty

/-- Admits an action if there is room. `none` is `PushBlocked`. -/
def tryPushAction (buffer : LedgerBuffer) (serial : Nat) (payload : Value) (at_ : DateTime) :
    Option LedgerBuffer :=
  if ledgerActionCapacity ≤ buffer.actions.length then none
  else some { buffer with
    actions := buffer.actions ++ [.fresh serial .actionLedger (.value payload) at_] }

theorem tryPushAction_inv {buffer buffer' : LedgerBuffer} {serial : Nat} {payload : Value}
    {at_ : DateTime} (h : buffer.tryPushAction serial payload at_ = some buffer') :
    buffer.actions.length < ledgerActionCapacity ∧ buffer' = { buffer with
      actions := buffer.actions ++ [.fresh serial .actionLedger (.value payload) at_] } := by
  unfold tryPushAction at h
  split_ifs at h with hfull
  exact ⟨Nat.lt_of_not_le hfull, (Option.some.inj h).symm⟩

/-- Makes room: the first `count` actions go. -/
def sacrificeActions (buffer : LedgerBuffer) (count : Nat) : List BufferedReport × LedgerBuffer :=
  (buffer.actions.take count, { buffer with actions := buffer.actions.drop count })

/-- Stamps the traces lost so far on a payload, if it can carry them. -/
def stampLoss (dropped : Nat) : Value → Value × Nat
  | .object fields =>
      if 0 < dropped then
        (.object (insertKey "coalesced_before" (.number (.posInt dropped)) fields), 0)
      else (.object fields, dropped)
  | payload => (payload, dropped)

/-- Adds a trace. The oldest ones coalesce while the stream is at its capacity; they are
returned, for the statements. -/
def pushTrace (buffer : LedgerBuffer) (serial : Nat) (payload : Value) (at_ : DateTime) :
    List BufferedReport × LedgerBuffer :=
  -- the loop goes on while the length is not below the capacity
  let (discarded, held, dropped) :=
    ReportQueue.shed (ledgerTraceCapacity - 1) buffer.traces buffer.droppedTraces
  let (payload, droppedTraces) := stampLoss dropped payload
  (discarded, { buffer with
    traces := held ++ [.fresh serial .brainTrace (.value payload) at_]
    droppedTraces })

/-- The traces after a push are those before, less some at the front, and the new one. -/
theorem pushTrace_traces (buffer : LedgerBuffer) (serial : Nat) (payload : Value)
    (at_ : DateTime) :
    ∃ payload', (buffer.pushTrace serial payload at_).2.traces.Sublist
      (buffer.traces ++ [.fresh serial .brainTrace payload' at_]) :=
  ⟨_, (ReportQueue.shed_sublist _ _ _).append_right _⟩

/-- Merges a batch into the first one of its cycle and model, or starts a new one. -/
def batch (entry : UsageSum) : List UsageSum → List UsageSum
  | [] => [entry]
  | sum :: rest => if sum.sameKey entry then sum.merge entry :: rest else sum :: batch entry rest

def pushUsage (buffer : LedgerBuffer) (entry : UsageSum) : LedgerBuffer :=
  { buffer with usage := batch entry buffer.usage }

/-- A usage batch as an entry. -/
def materialize (now : DateTime) (sum : UsageSum) : BufferedReport :=
  .fresh sum.usageId .tokenUsage (.usage sum) now

/-- Takes everything, stream by stream. -/
def drain (buffer : LedgerBuffer) (now : DateTime) : List BufferedReport × LedgerBuffer :=
  ((buffer.actions ++ buffer.traces ++ buffer.usage.map (materialize now)).map .attempt,
    { buffer with actions := [], traces := [], usage := [] })

/-- The batch an entry carries. -/
def usageOf (entry : BufferedReport) : Option UsageSum :=
  match entry.kind, entry.payload with
  | .tokenUsage, .usage sum => some sum
  | _, _ => none

/-- Puts entries back: actions and traces at the front, in their order, and usage into the
rolling sums. -/
def requeue (buffer : LedgerBuffer) (entries : List BufferedReport) : LedgerBuffer :=
  { buffer with
    actions := entries.filter (fun entry => entry.kind == .actionLedger) ++ buffer.actions
    traces := entries.filter (fun entry => entry.kind == .brainTrace) ++ buffer.traces
    usage := (entries.filterMap usageOf).foldl (fun usage sum => batch sum usage) buffer.usage }

end LedgerBuffer
end Argus
