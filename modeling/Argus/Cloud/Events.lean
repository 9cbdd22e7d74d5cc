import Argus.Daemon.Sentinel
import Argus.Cloud.Batches

/-!
# Events as the cloud is told of them

A local event is projected onto the cloud's vocabulary, and events are split into payloads that
respect the contract's item bound. Splitting loses and doubles none, and keeps their order.
-/

namespace Argus.EventReports

open Value (object array string null)

/-- The texts of identifiers and instants. -/
structure Texts where
  /-- `Uuid::to_string`. -/
  writeUuid : Uuid → String
  /-- The serialization of a `DateTime<Utc>`. -/
  writeTime : DateTime → String

/-- An immutable, transport-independent event. -/
structure DomainEvent where
  id : Uuid
  eventType : String
  timestamp : DateTime
  source : String
  subject : String
  severity : Severity
  correlationId : Option Uuid
  causationId : Option Uuid
  payload : Value

/-- The wire text of a severity. -/
def severity : Severity → String
  | .info => "info"
  | .warning => "warning"
  | .error => "error"

/-- A projected local event. -/
structure ReportedEvent where
  sourceEventId : String
  eventType : String
  severity : String
  subject : Option String
  correlationId : Option String
  causationId : Option String
  reportedAt : DateTime
  payload : Option (List (String × Value))

/-- Projects one local event onto the wire shape. -/
def event (texts : Texts) (event : DomainEvent) : ReportedEvent where
  sourceEventId := texts.writeUuid event.id
  eventType := event.eventType
  severity := severity event.severity
  subject := (some event.subject).filter fun subject => !subject.isEmpty
  correlationId := event.correlationId.map texts.writeUuid
  causationId := event.causationId.map texts.writeUuid
  reportedAt := event.timestamp
  payload := match event.payload with
    | .object fields => if fields.isEmpty then none else some fields
    | _ => none

/-- A field that is left out when there is nothing in it. -/
def optional (key : String) : Option Value → List (String × Value)
  | some value => [(key, value)]
  | none => []

/-- The document of a projected event. -/
def ReportedEvent.toValue (texts : Texts) (event : ReportedEvent) : Value :=
  object (optional "causation_id" (event.causationId.map string) ++
    optional "correlation_id" (event.correlationId.map string) ++
    optional "payload" (event.payload.map object) ++
    [("reported_at", string (texts.writeTime event.reportedAt)),
      ("severity", string event.severity),
      ("source_event_id", string event.sourceEventId)] ++
    optional "subject" (event.subject.map string) ++
    [("type", string event.eventType)])

/-- The document of an `EventsReportPayload`. -/
def payload (texts : Texts) (events : List DomainEvent) : Value :=
  object [("events", array (events.map fun e => (event texts e).toValue texts))]

/-- `slice::chunks`. -/
def chunks (size : Nat) (positive : 0 < size) : List DomainEvent → List (List DomainEvent)
  | [] => []
  | event :: events =>
      (event :: events).take size :: chunks size positive ((event :: events).drop size)
termination_by events => events.length
decreasing_by
  simp only [List.length_drop, List.length_cons]
  omega

/-- Splits events into report batches. -/
def batches (events : List DomainEvent) : List (List DomainEvent) :=
  chunks maxEventsPerReport (by decide) events

/-! ### What the batches are -/

/-- Batches keep the events, and their order. -/
theorem batches_flatten (events : List DomainEvent) : (batches events).flatten = events := by
  unfold batches
  induction events using chunks.induct maxEventsPerReport (by decide) with
  | case1 => rw [chunks]; rfl
  | case2 event events ih =>
      rw [chunks, List.flatten_cons, ih]
      exact List.take_append_drop _ _

/-- A batch is one that the contract accepts. -/
theorem batches_bounds {events batch : List DomainEvent} (h : batch ∈ batches events) :
    batch ≠ [] ∧ batch.length ≤ maxEventsPerReport := by
  unfold batches at h
  induction events using chunks.induct maxEventsPerReport (by decide) with
  | case1 =>
      rw [chunks] at h
      cases h
  | case2 event events ih =>
      rw [chunks, List.mem_cons] at h
      rcases h with rfl | h
      · refine ⟨?_, List.length_take_le _ _⟩
        rw [maxEventsPerReport, List.take_succ_cons]
        exact List.cons_ne_nil _ _
      · exact ih h

end Argus.EventReports
