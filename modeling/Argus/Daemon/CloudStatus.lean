import Argus.Daemon.CloudCustody
import Argus.Daemon.Enrollment

/-!
# What `cloud.status` says about the buffer

The supervisor gets a report queue that `main` makes for it, and everything that enqueues, drains
and requeues does so there. `cloud.status` reads the daemon's own queue, which is another one, and
which nothing else touches.

`status_truthful_iff` says when the two agree all along a run.
-/

namespace Argus

/-- The installation's own view of its cloud relationship. -/
inductive CloudConnectivityState
  | notConfigured
  | connecting
  | connected
  | degraded
  | disconnected
  | suspended
  | revoked
  deriving DecidableEq

structure ConnectivityTracker where
  state : CloudConnectivityState
  lastExchangeAt : Option DateTime
  lastError : Option String

/-- What the operator should do next. -/
def ConnectivityTracker.remediation (tracker : ConnectivityTracker) : Option String :=
  match tracker.state with
  | .notConfigured => some "run `argus cloud enroll` to connect this installation"
  | .revoked => some "this installation was revoked; re-enrollment is required"
  | .suspended => some "this installation is suspended; no action is needed until it is resumed"
  | .disconnected => some "check network reachability and the configured cloud endpoint"
  | _ => none

/-- `CloudConnection`, as far as the status reads it. -/
structure CloudConnection where
  negotiatedProtocolVersion : String
  lastExchangeAt : Option DateTime

structure ReportBufferStats where
  capacity : Nat
  count : Nat
  droppedTotal : Nat
  lastDrainAt : Option DateTime

/-- The occupancy snapshot an operator sees. -/
def ReportQueue.stats (queue : ReportQueue) : ReportBufferStats where
  capacity := queue.capacity
  count := queue.entries.length
  droppedTotal := queue.droppedTotal
  lastDrainAt := queue.lastDrainAt

structure CloudStatus where
  state : CloudConnectivityState
  enabled : Bool
  endpointConfigured : Bool
  tenantId : Option Uuid
  installationId : Option Uuid
  instanceName : Option String
  protocolVersion : Option String
  lastExchangeAt : Option DateTime
  lastError : Option String
  bufferedReports : Nat
  bufferCapacity : Nat
  droppedReports : Nat
  privilegedExecutionEnabled : Bool
  remediation : Option String

/-- What the status is made of beside the queue. The kill switch is the live flag, which the
handler puts in the place of the configured one. -/
structure StatusReadings where
  config : CloudConfig
  enrollment : Option CloudEnrollment
  connection : Option CloudConnection
  tracker : ConnectivityTracker
  privilegedExecution : Bool

def cloudStatus (readings : StatusReadings) (queue : ReportQueue) : CloudStatus :=
  let buffer := queue.stats
  { state := readings.tracker.state
    enabled := readings.config.enabled
    endpointConfigured := readings.config.endpoint.isSome
    tenantId := readings.enrollment.map CloudEnrollment.tenantId
    installationId := readings.enrollment.map CloudEnrollment.installationId
    instanceName := readings.enrollment.map CloudEnrollment.instanceName
    protocolVersion := readings.connection.map CloudConnection.negotiatedProtocolVersion
    lastExchangeAt := readings.tracker.lastExchangeAt.or
      (readings.connection.bind CloudConnection.lastExchangeAt)
    lastError := readings.tracker.lastError
    bufferedReports := buffer.count
    bufferCapacity := buffer.capacity
    droppedReports := buffer.droppedTotal
    privilegedExecutionEnabled := readings.privilegedExecution
    remediation := readings.tracker.remediation }

/-- The queues as `main` hands them out. -/
structure QueueWiring where
  /-- `Daemon::report_queue`, which the status reads. -/
  reportQueue : ReportQueue
  /-- The supervisor's queue, and what its session does with it. -/
  custody : Custody

namespace QueueWiring

/-- Both queues have the configured capacity. -/
def start (capacity : Nat) : QueueWiring := ⟨.new capacity, .start capacity⟩

/-- Every event of the buffers and the session is one of the supervisor's. -/
def step (s : QueueWiring) (event : CustodyEvent) : QueueWiring :=
  { s with custody := s.custody.step event }

/-- `cloud.status`. -/
def status (s : QueueWiring) (readings : StatusReadings) : CloudStatus :=
  cloudStatus readings s.reportQueue

/-- The status gives the occupancy of the session's queue. -/
def Truthful (s : QueueWiring) : Prop :=
  ∀ readings, (s.status readings).bufferedReports = s.custody.queue.entries.length ∧
    (s.status readings).droppedReports = s.custody.queue.droppedTotal

end QueueWiring

/-- The event enqueues a report. -/
def CustodyEvent.enqueues : CustodyEvent → Bool
  | .enqueue .. => true
  | _ => false

namespace Custody

variable {s s' : Custody} {entries : List BufferedReport}

/-- No report is in custody, and none was dropped. -/
structure Unreported (s : Custody) : Prop where
  queue : s.queue.entries = []
  dropped : s.queue.droppedTotal = 0
  sending : ∀ entry ∈ s.sending, entry.kind.isLedger = true
  inFlight : ∀ entry ∈ s.inFlight.map Prod.snd, entry.kind.isLedger = true

theorem unreported_start (capacity : Nat) : Unreported (start capacity) := by
  constructor <;> simp [start, ReportQueue.new]

/-- The queue stays as it is, and what is sent or in flight is of the ledger. -/
theorem Unreported.moves (h : Unreported s) (hqueue : s'.queue = s.queue)
    (hsending : ∀ entry ∈ s'.sending, entry.kind.isLedger = true)
    (hinFlight : ∀ entry ∈ s'.inFlight.map Prod.snd, entry.kind.isLedger = true) :
    Unreported s' :=
  ⟨hqueue ▸ h.queue, hqueue ▸ h.dropped, hsending, hinFlight⟩

theorem Unreported.same (h : Unreported s) (hqueue : s'.queue = s.queue)
    (hsending : s'.sending = s.sending) (hinFlight : s'.inFlight = s.inFlight) : Unreported s' :=
  h.moves hqueue (hsending ▸ h.sending) (hinFlight ▸ h.inFlight)

theorem requeueFront_nil {queue : ReportQueue} (h : queue.entries = []) :
    (queue.requeueFront []).2 = queue := by
  obtain ⟨capacity, entries, dropped, drained, hpos⟩ := queue
  subst h
  rfl

theorem filter_report_nil (h : ∀ entry ∈ entries, entry.kind.isLedger = true) :
    entries.filter (fun entry => !entry.kind.isLedger) = [] := by
  rw [List.filter_eq_nil_iff]
  intro entry hentry
  simp [h entry hentry]

theorem Unreported.requeueInFlight (h : Unreported s) (hash : Nat → Nat) :
    Unreported (s.requeueInFlight hash) := by
  unfold Custody.requeueInFlight
  split_ifs
  · exact h
  · have hreturning : ∀ entry ∈ returning hash s.inFlight, entry.kind.isLedger = true :=
      fun entry hentry => h.inFlight entry ((returning_perm hash s.inFlight).subset hentry)
    have hnone := filter_report_nil hreturning
    simp only [List.partition_eq_filter_filter, Function.comp_def, hnone]
    exact h.moves (requeueFront_nil h.queue) h.sending (by simp [requeueLedger, requeueReports])

theorem Unreported.settled (h : Unreported s) {id : Nat} {entry : BufferedReport}
    (hlookup : s.inFlight.lookup id = some entry) (accepted : Bool) :
    Unreported ((s.land id).settle entry accepted) := by
  have hland : Unreported (s.land id) :=
    h.moves rfl h.sending fun other hother =>
      h.inFlight other ((List.filter_sublist.map Prod.snd).subset hother)
  have hentry : entry.kind.isLedger = true := by
    obtain ⟨l₁, l₂, hsplit, -⟩ := List.lookup_eq_some_iff.mp hlookup
    exact h.inFlight entry (by simp [hsplit])
  unfold settle
  split_ifs
  · exact hland.same rfl rfl rfl
  · exact hland.same rfl rfl rfl
  · exact hland.same rfl rfl rfl

theorem Unreported.step (h : Unreported s) (hproper : Proper s) {e : CustodyEvent}
    (he : e.enqueues = false) : Unreported (s.step e) := by
  cases e with
  | enqueue kind report payload at_ => cases he
  | pushAction payload at_ =>
      simp only [Custody.step]
      split
      next => exact h
      next => exact h.same rfl rfl rfl
  | forceAction payload at_ =>
      simp only [Custody.step, forceAction]
      split
      next => exact h.same rfl rfl rfl
      next => exact h.same rfl rfl rfl
  | pushTrace payload at_ => exact h.same rfl rfl rfl
  | pushUsage usage => exact h.same rfl rfl rfl
  | flushReports at_ =>
      simp only [Custody.step]
      split_ifs
      · refine ⟨?_, h.dropped, ?_, h.inFlight⟩
        · simp [flush, ReportQueue.drain, h.queue]
        · simp [flush, ReportQueue.drain, h.queue]
      · exact h
  | flushLedger at_ =>
      simp only [Custody.step]
      split_ifs
      · refine h.moves rfl ?_ h.inFlight
        intro entry hentry
        obtain ⟨held, hheld, rfl⟩ := List.mem_map.mp hentry
        rw [BufferedReport.attempt_kind]
        rcases List.mem_append.mp hheld with hfirst | husage
        · rcases List.mem_append.mp hfirst with haction | htrace
          · rw [hproper.actions held haction]
            rfl
          · rw [hproper.traces held htrace]
            rfl
        · obtain ⟨sum, -, rfl⟩ := List.mem_map.mp husage
          rfl
      · exact h
  | send =>
      simp only [Custody.step]
      split
      next => exact h
      next entry rest hsending =>
        obtain ⟨hentry, hrest⟩ := List.forall_mem_cons.mp (hsending ▸ h.sending)
        refine h.moves rfl hrest ?_
        simp only [List.map_append, List.map_cons, List.map_nil]
        exact List.forall_mem_append.mpr ⟨h.inFlight, by simpa using hentry⟩
  | sendFails hash =>
      simp only [Custody.step]
      split
      next => exact h
      next entry rest hsending =>
        have habandoned : Unreported (s.abandon entry rest) :=
          h.moves rfl (by simp [abandon]) h.inFlight
        exact habandoned.requeueInFlight hash
  | inbound messageType ack =>
      simp only [Custody.step]
      split_ifs
      · rcases s.handleInbound_cases messageType ack with
          hsame | ⟨_, _, accepted, _, _, _, _, hlookup, heq⟩
        · rw [hsame]
          exact h
        · rw [heq]
          exact h.settled hlookup accepted
      · exact h
  | endSession hash =>
      simp only [Custody.step]
      split_ifs
      · exact h.requeueInFlight hash
      · exact h

/-- A queue that was empty is not after a report entered it. -/
theorem enqueue_nonempty {queue : ReportQueue} (h : queue.entries = []) (serial : Nat)
    (kind : ReportKind) (payload : Payload) (at_ : DateTime) :
    (queue.enqueue serial kind payload at_).2.entries ≠ [] := by
  have hpos := queue.capacity_pos
  have hroom : ¬ queue.capacity ≤ queue.entries.length := by
    rw [h, List.length_nil]
    omega
  simp [ReportQueue.enqueue, hroom]

end Custody

namespace QueueWiring

variable {s : QueueWiring}

/-- The daemon's queue is as it was made, and so is the supervisor's. -/
structure Idle (s : QueueWiring) : Prop where
  entries : s.reportQueue.entries = []
  dropped : s.reportQueue.droppedTotal = 0
  unreported : s.custody.Unreported
  proper : s.custody.Proper

theorem idle_start (capacity : Nat) : Idle (start capacity) :=
  ⟨rfl, rfl, Custody.unreported_start capacity, Custody.proper_start capacity⟩

theorem Idle.step (h : Idle s) {event : CustodyEvent} (hevent : event.enqueues = false) :
    Idle (s.step event) :=
  ⟨h.entries, h.dropped, h.unreported.step h.proper hevent, h.proper.step event⟩

theorem Idle.truthful (h : Idle s) : Truthful s := by
  intro readings
  show s.reportQueue.entries.length = s.custody.queue.entries.length ∧
    s.reportQueue.droppedTotal = s.custody.queue.droppedTotal
  rw [h.entries, h.dropped, h.unreported.queue, h.unreported.dropped]
  exact ⟨rfl, rfl⟩

/-- The readings of an installation that was never enrolled. -/
def freshReadings : StatusReadings :=
  ⟨⟨true, none, "argus-cloud"⟩, none, none, ⟨.notConfigured, none, none⟩, false⟩

/-- The first report is one too many. -/
theorem Idle.not_enqueues (h : Idle s) {event : CustodyEvent}
    (htruthful : Truthful (s.step event)) : event.enqueues = false := by
  cases event with
  | enqueue kind report payload at_ =>
      have hcount : s.reportQueue.entries.length =
          (s.custody.queue.enqueue s.custody.minted kind (.value payload) at_).2.entries.length :=
        (htruthful freshReadings).1
      rw [h.entries, List.length_nil] at hcount
      have hempty := List.length_eq_zero_iff.mp hcount.symm
      exact absurd hempty (Custody.enqueue_nonempty h.unreported.queue _ _ _ _)
  | _ => rfl

/-- **The status is true all along exactly as long as no report is enqueued.** -/
theorem status_truthful_iff (capacity : Nat) (events : List CustodyEvent) :
    (∀ n, Truthful (Machine.run step (start capacity) (events.take n))) ↔
      ∀ event ∈ events, event.enqueues = false := by
  have hevents : Machine.Every step (fun _ event => event.enqueues = false) (start capacity)
      events ↔ ∀ event ∈ events, event.enqueues = false := Machine.every_events
  rw [← hevents]
  exact Machine.every_true.forall_take_iff (I := Idle) (idle_start capacity)
    (fun _ h => h.truthful) (fun _ _ h _ hevent => h.step hevent)
    fun _ _ h _ htruthful => h.not_enqueues htruthful

/-- **A report waits, and the status says that none does.** -/
theorem status_misses_report :
    ¬ ∀ capacity events, Truthful (Machine.run step (start capacity) events) := by
  intro h
  have hcount := (h 8 [.enqueue .telemetry telemetry_isLedger .null ⟨0⟩] freshReadings).1
  exact absurd hcount (by decide)

end QueueWiring
end Argus
