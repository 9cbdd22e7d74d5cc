import Argus.Daemon.LedgerUpload
import Argus.Lib.Machine
import Argus.Lib.Pointwise
import Argus.Lib.Rfc3339
import Argus.State.Sqlite

/-!
# The ledger, in memory and in the database

The memory keeps the records and compares their instants. The database keeps their texts, and the
text of the instant in a column, which it compares byte by byte. Both list the newest first; of
records of one instant the memory lists the first put first, and the database the last.

`ledger_alike` says what the two agree on, and for which runs of puts and retentions.
-/

namespace Argus

/-- Token usage for one provider call. -/
structure TokenUsageRecord extends TokenUsage where
  occurredAt : DateTime
  deriving DecidableEq

/-- The read filter behind `list_action_events`. -/
structure ActionEventFilter where
  since : Option DateTime
  kind : Option String
  status : Option String
  limit : Nat

/-- `DEFAULT_ACTION_EVENT_LIMIT`. -/
def defaultActionEventLimit : Nat := 200

def liftLimit (limit : Nat) : Nat := if limit = 0 then defaultActionEventLimit else limit

/-- The first instant there is to chrono: `-262143-01-01`. -/
def minUtc : DateTime := ⟨(Rfc3339.daysBefore (-262143) - 719528) * 86400000000000⟩

/-- `Utc::now() - Duration::days(days.max(0))`. Before the first instant it panics. -/
def cutoff (now : DateTime) (days : Int) : Option DateTime :=
  let at_ := now.add (-(max days 0 * 86400000000000))
  if minUtc ≤ at_ then some at_ else none

/-! ### In memory -/

structure InMemoryLedger where
  actionEvents : List ActionEvent
  brainTraces : List BrainTraceRecord
  tokenUsage : List TokenUsageRecord

/-- `sort_by_key(Reverse(occurred_at))`, which is stable. -/
def sortNewest {α : Type} (time : α → DateTime) (rows : List α) : List α :=
  rows.mergeSort fun a b => decide (time b ≤ time a)

/-- What the filter asks for. -/
def ActionEventFilter.selects (filter : ActionEventFilter) (event : ActionEvent) : Bool :=
  (match filter.since with
    | some since => decide (since ≤ event.occurredAt)
    | none => true) &&
  (match filter.kind with
    | some kind => event.kind == kind
    | none => true) &&
  match filter.status with
    | some status => event.outcome == status
    | none => true

namespace InMemoryLedger

def new : InMemoryLedger := ⟨[], [], []⟩

def putActionEvent (memory : InMemoryLedger) (event : ActionEvent) : InMemoryLedger :=
  { memory with actionEvents := Keyed.insertNew ActionEvent.eventId memory.actionEvents event }

def listActionEvents (memory : InMemoryLedger) (filter : ActionEventFilter) : List ActionEvent :=
  (sortNewest ActionEvent.occurredAt (memory.actionEvents.filter filter.selects)).take
    (liftLimit filter.limit)

def putBrainTrace (memory : InMemoryLedger) (trace : BrainTraceRecord) : InMemoryLedger :=
  { memory with brainTraces := Keyed.insertNew BrainTraceRecord.traceId memory.brainTraces trace }

def listBrainTraces (memory : InMemoryLedger) (cycleId : Option Uuid) (limit : Nat) :
    List BrainTraceRecord :=
  (sortNewest BrainTraceRecord.occurredAt (memory.brainTraces.filter fun trace =>
    trace.cycleId == cycleId || cycleId.isNone)).take (liftLimit limit)

def putTokenUsage (memory : InMemoryLedger) (usage : TokenUsageRecord) : InMemoryLedger :=
  { memory with tokenUsage := memory.tokenUsage ++ [usage] }

def listTokenUsage (memory : InMemoryLedger) (limit : Nat) : List TokenUsageRecord :=
  (sortNewest TokenUsageRecord.occurredAt memory.tokenUsage).take (liftLimit limit)

/-- The records at or after an instant. -/
def since (memory : InMemoryLedger) (at_ : DateTime) : InMemoryLedger where
  actionEvents := memory.actionEvents.filter fun event => decide (at_ ≤ event.occurredAt)
  brainTraces := memory.brainTraces.filter fun trace => decide (at_ ≤ trace.occurredAt)
  tokenUsage := memory.tokenUsage.filter fun usage => decide (at_ ≤ usage.occurredAt)

def retainLedger (memory : InMemoryLedger) (now : DateTime) (days : Int) : InMemoryLedger :=
  match cutoff now days with
  | some at_ => memory.since at_
  | none => memory

end InMemoryLedger

/-! ### In the database -/

/-- `occurred_at`: the text of the column. -/
def occurredAtText (at_ : DateTime) : String := Rfc3339.write at_.nanos

structure ActionRow where
  id : Uuid
  kind : String
  status : String
  occurredAt : String
  data : String

structure TraceRow where
  id : Uuid
  cycleId : Option Uuid
  occurredAt : String
  data : String

structure UsageRow where
  occurredAt : String
  data : String

/-- How the records are written as JSON. -/
structure LedgerCodecs where
  action : Codec ActionEvent
  trace : Codec BrainTraceRecord
  usage : Codec TokenUsageRecord

/-- The largest integer of SQLite. -/
def maxSqlInteger : Nat := 2 ^ 63 - 1

/-- What SQLite refuses of a statement: its text ends at the first NUL, within a literal, and a
limit beyond its integers is none. -/
def prepare (texts : List String) (limit : Nat) : Except RepositoryError Unit :=
  if texts.any fun text => text.toList.contains (Char.ofNat 0) then
    .error (.failed "unrecognized token")
  else if maxSqlInteger < limit then .error (.failed "datatype mismatch")
  else .ok ()

/-- The clauses of the statement, on a row. -/
def ActionEventFilter.clauses (filter : ActionEventFilter) (row : ActionRow) : Bool :=
  (match filter.since with
    | some since => decide (occurredAtText since ≤ row.occurredAt)
    | none => true) &&
  (match filter.kind with
    | some kind => row.kind == kind
    | none => true) &&
  match filter.status with
    | some status => row.status == status
    | none => true

structure SqliteLedger where
  ledgerActions : Table ActionRow
  ledgerTraces : Table TraceRow
  ledgerUsage : Table UsageRow

namespace SqliteLedger

variable (codecs : LedgerCodecs)

def new : SqliteLedger := ⟨.empty, .empty, .empty⟩

def actionRow (event : ActionEvent) (data : String) : ActionRow :=
  ⟨event.eventId, event.kind, event.outcome, occurredAtText event.occurredAt, data⟩

def traceRow (trace : BrainTraceRecord) (data : String) : TraceRow :=
  ⟨trace.traceId, trace.cycleId, occurredAtText trace.occurredAt, data⟩

def usageRow (usage : TokenUsageRecord) (data : String) : UsageRow :=
  ⟨occurredAtText usage.occurredAt, data⟩

def putActionEvent (sqlite : SqliteLedger) (event : ActionEvent) :
    Except RepositoryError SqliteLedger := do
  let data ← encode codecs.action event
  return { sqlite with
    ledgerActions := sqlite.ledgerActions.insertOrIgnore ActionRow.id (actionRow event data) }

def listActionEvents (sqlite : SqliteLedger) (filter : ActionEventFilter) :
    Except RepositoryError (List ActionEvent) := do
  prepare (filter.kind.toList ++ filter.status.toList) (liftLimit filter.limit)
  let rows := sqlite.ledgerActions.selectDesc ActionRow.occurredAt filter.clauses
  (rows.take (liftLimit filter.limit)).mapM fun row => decode codecs.action row.data

def putBrainTrace (sqlite : SqliteLedger) (trace : BrainTraceRecord) :
    Except RepositoryError SqliteLedger := do
  let data ← encode codecs.trace trace
  return { sqlite with
    ledgerTraces := sqlite.ledgerTraces.insertOrIgnore TraceRow.id (traceRow trace data) }

def listBrainTraces (sqlite : SqliteLedger) (cycleId : Option Uuid) (limit : Nat) :
    Except RepositoryError (List BrainTraceRecord) := do
  prepare [] (liftLimit limit)
  let rows := sqlite.ledgerTraces.selectDesc TraceRow.occurredAt fun row =>
    match cycleId with
    | some id => row.cycleId == some id
    | none => true
  (rows.take (liftLimit limit)).mapM fun row => decode codecs.trace row.data

def putTokenUsage (sqlite : SqliteLedger) (usage : TokenUsageRecord) :
    Except RepositoryError SqliteLedger := do
  let data ← encode codecs.usage usage
  return { sqlite with ledgerUsage := sqlite.ledgerUsage.insert (usageRow usage data) }

def listTokenUsage (sqlite : SqliteLedger) (limit : Nat) :
    Except RepositoryError (List TokenUsageRecord) := do
  prepare [] (liftLimit limit)
  let rows := sqlite.ledgerUsage.selectDesc UsageRow.occurredAt fun _ => true
  (rows.take (liftLimit limit)).mapM fun row => decode codecs.usage row.data

def retainLedger (sqlite : SqliteLedger) (now : DateTime) (days : Int) : SqliteLedger :=
  match cutoff now days with
  | none => sqlite
  | some at_ =>
      let older (occurredAt : String) : Bool := decide (occurredAt < occurredAtText at_)
      { ledgerActions := sqlite.ledgerActions.delete fun row => older row.occurredAt
        ledgerTraces := sqlite.ledgerTraces.delete fun row => older row.occurredAt
        ledgerUsage := sqlite.ledgerUsage.delete fun row => older row.occurredAt }

end SqliteLedger

/-! ### Both -/

inductive LedgerOp
  | putActionEvent (event : ActionEvent)
  | putBrainTrace (trace : BrainTraceRecord)
  | putTokenUsage (usage : TokenUsageRecord)
  | retainLedger (now : DateTime) (days : Int)

structure LedgerStores where
  memory : InMemoryLedger
  sqlite : SqliteLedger

/-- The limited list of the newest of these records, newest first. -/
def Newest {α : Type} (time : α → DateTime) (records : List α) (limit : Nat) (answer : List α) :
    Prop :=
  ∃ sorted : List α, sorted.Perm records ∧ sorted.Pairwise (fun a b => time b ≤ time a) ∧
    answer = sorted.take limit

/-- The instant is of a year that four digits write. -/
def DateTime.FourDigits (at_ : DateTime) : Prop :=
  0 ≤ Rfc3339.year at_.nanos ∧ Rfc3339.year at_.nanos ≤ 9999

instance (at_ : DateTime) : Decidable at_.FourDigits := inferInstanceAs (Decidable (_ ∧ _))

/-- A filter that a statement can hold. -/
structure ActionEventFilter.Askable (filter : ActionEventFilter) : Prop where
  since : ∀ since ∈ filter.since, Rfc3339.year since.nanos ≤ 9999
  statement : prepare (filter.kind.toList ++ filter.status.toList) (liftLimit filter.limit) = .ok ()

namespace LedgerStores

variable (codecs : LedgerCodecs)

def start : LedgerStores := ⟨.new, .new⟩

def step (stores : LedgerStores) : LedgerOp → LedgerStores
  | .putActionEvent event =>
      ⟨stores.memory.putActionEvent event,
        kept stores.sqlite (stores.sqlite.putActionEvent codecs event)⟩
  | .putBrainTrace trace =>
      ⟨stores.memory.putBrainTrace trace,
        kept stores.sqlite (stores.sqlite.putBrainTrace codecs trace)⟩
  | .putTokenUsage usage =>
      ⟨stores.memory.putTokenUsage usage,
        kept stores.sqlite (stores.sqlite.putTokenUsage codecs usage)⟩
  | .retainLedger now days =>
      ⟨stores.memory.retainLedger now days, stores.sqlite.retainLedger now days⟩

/-- The table has the rows of these records. -/
def Holds {α ρ : Type} (codec : Codec α) (row : α → String → ρ) (records : List α)
    (table : Table ρ) : Prop :=
  table.values = records.map fun record => row record (codec.text record)

/-- Both stores answer every query alike, newest first, and with what they hold. -/
structure Alike (stores : LedgerStores) : Prop where
  heldActions : Holds codecs.action SqliteLedger.actionRow stores.memory.actionEvents
    stores.sqlite.ledgerActions
  heldTraces : Holds codecs.trace SqliteLedger.traceRow stores.memory.brainTraces
    stores.sqlite.ledgerTraces
  heldUsage : Holds codecs.usage SqliteLedger.usageRow stores.memory.tokenUsage
    stores.sqlite.ledgerUsage
  actions : ∀ filter : ActionEventFilter, filter.Askable →
    stores.sqlite.listActionEvents codecs filter = .ok (stores.memory.listActionEvents filter) ∧
      Newest ActionEvent.occurredAt (stores.memory.actionEvents.filter filter.selects)
        (liftLimit filter.limit) (stores.memory.listActionEvents filter)
  traces : ∀ (cycleId : Option Uuid) (limit : Nat), liftLimit limit ≤ maxSqlInteger →
    stores.sqlite.listBrainTraces codecs cycleId limit =
        .ok (stores.memory.listBrainTraces cycleId limit) ∧
      Newest BrainTraceRecord.occurredAt (stores.memory.brainTraces.filter fun trace =>
        trace.cycleId == cycleId || cycleId.isNone) (liftLimit limit)
        (stores.memory.listBrainTraces cycleId limit)
  usage : ∀ limit : Nat, liftLimit limit ≤ maxSqlInteger →
    stores.sqlite.listTokenUsage codecs limit = .ok (stores.memory.listTokenUsage limit) ∧
      Newest TokenUsageRecord.occurredAt stores.memory.tokenUsage (liftLimit limit)
        (stores.memory.listTokenUsage limit)

/-- What the step does is right: a retention leaves what is at or after its cutoff, and the stores
are alike. -/
structure Chronological (stores : LedgerStores) (op : LedgerOp) : Prop where
  alike : (stores.step codecs op).Alike codecs
  retained : ∀ now days at_, op = .retainLedger now days → cutoff now days = some at_ →
    (stores.step codecs op).memory = stores.memory.since at_

/-- The record is written in four digits of a year, reads back, and differs from no record of its
instant. -/
structure Sortable {α : Type} (codec : Codec α) (time : α → DateTime) (records : List α)
    (record : α) : Prop where
  readsBack : codec.ReadsBack record
  fourDigits : (time record).FourDigits
  untied : ∀ other ∈ records, time other = time record → other = record

/-- The condition on a step: every record that is taken in is sortable, and no clock is past
the year 9999. -/
def Orderly (stores : LedgerStores) : LedgerOp → Prop
  | .putActionEvent event => (∃ other ∈ stores.memory.actionEvents, other.eventId = event.eventId) ∨
      Sortable codecs.action ActionEvent.occurredAt stores.memory.actionEvents event
  | .putBrainTrace trace => (∃ other ∈ stores.memory.brainTraces, other.traceId = trace.traceId) ∨
      Sortable codecs.trace BrainTraceRecord.occurredAt stores.memory.brainTraces trace
  | .putTokenUsage usage =>
      Sortable codecs.usage TokenUsageRecord.occurredAt stores.memory.tokenUsage usage
  | .retainLedger now _ => Rfc3339.year now.nanos ≤ 9999

/-! ### One table -/

section OneTable

variable {α ρ : Type} {codec : Codec α} {time : α → DateTime} {row : α → String → ρ}
  {column data : ρ → String} {records : List α} {record : α} {table : Table ρ}

/-- A table and the records it holds, all of them sortable. -/
structure Mirrors (codec : Codec α) (time : α → DateTime) (row : α → String → ρ)
    (records : List α) (table : Table ρ) : Prop where
  holds : Holds codec row records table
  readsBack : ∀ record ∈ records, codec.ReadsBack record
  fourDigits : ∀ record ∈ records, (time record).FourDigits
  untied : ∀ record ∈ records, ∀ other ∈ records, time other = time record → other = record

theorem mirrors_empty : Mirrors codec time row [] .empty :=
  ⟨rfl, nofun, nofun, nofun⟩

theorem Mirrors.insert (h : Mirrors codec time row records table)
    (hrecord : Sortable codec time records record) :
    Mirrors codec time row (records ++ [record])
      (table.insert (row record (codec.text record))) := by
  refine ⟨?_, ?_, ?_, ?_⟩
  · unfold Holds
    rw [Table.values_insert, h.holds, List.map_append, List.map_singleton]
  · intro other hother
    rcases List.mem_append.mp hother with hother | hother
    · exact h.readsBack other hother
    · exact List.mem_singleton.mp hother ▸ hrecord.readsBack
  · intro other hother
    rcases List.mem_append.mp hother with hother | hother
    · exact h.fourDigits other hother
    · exact List.mem_singleton.mp hother ▸ hrecord.fourDigits
  · intro a ha b hb htime
    rcases List.mem_append.mp ha with hold | hnew
    · rcases List.mem_append.mp hb with hold' | hnew'
      · exact h.untied a hold b hold' htime
      · rw [List.mem_singleton.mp hnew'] at htime ⊢
        exact (hrecord.untied a hold htime.symm).symm
    · rw [List.mem_singleton.mp hnew] at htime ⊢
      rcases List.mem_append.mp hb with hold' | hnew'
      · exact hrecord.untied b hold' htime
      · exact List.mem_singleton.mp hnew'

/-- A put whose id is there, or that is sortable. -/
theorem Mirrors.insertNew (key : α → Uuid) (id : ρ → Uuid)
    (h : Mirrors codec time row records table)
    (hid : ∀ record data, id (row record data) = key record)
    (hrecord : (∃ other ∈ records, key other = key record) ∨ Sortable codec time records record) :
    Mirrors codec time row (Keyed.insertNew key records record)
      (match encode codec record with
        | .ok data => table.insertOrIgnore id (row record data)
        | .error _ => table) := by
  by_cases hpresent : ∃ other ∈ records, key other = key record
  · rw [Keyed.insertNew_of_present hpresent]
    cases encode codec record with
    | error error => exact h
    | ok text =>
        obtain ⟨other, hother, hkey⟩ := hpresent
        refine ⟨?_, h.readsBack, h.fourDigits, h.untied⟩
        unfold Holds
        rw [Table.values_insertOrIgnore, Keyed.insertNew_of_present, h.holds]
        rw [h.holds]
        exact ⟨_, List.mem_map.mpr ⟨other, hother, rfl⟩, by rw [hid, hid, hkey]⟩
  · have hsortable := hrecord.resolve_left hpresent
    have hnew : ∀ other ∈ records, key other ≠ key record := fun other hother hkey =>
      hpresent ⟨other, hother, hkey⟩
    rw [Keyed.insertNew_of_absent hnew, encode_eq hsortable.readsBack]
    have hinsert := h.insert hsortable
    refine ⟨?_, hinsert.readsBack, hinsert.fourDigits, hinsert.untied⟩
    unfold Holds
    rw [Table.values_insertOrIgnore, Keyed.insertNew_of_absent, ← Table.values_insert]
    · exact hinsert.holds
    · rw [h.holds]
      intro other hother
      obtain ⟨old, hold, rfl⟩ := List.mem_map.mp hother
      rw [hid, hid]
      exact hnew old hold

/-- The text of a cutoff compares with that of a record as the instants do. -/
theorem text_le_iff {at_ other : DateTime} (hat : Rfc3339.year at_.nanos ≤ 9999)
    (hother : other.FourDigits) : occurredAtText at_ ≤ occurredAtText other ↔ at_ ≤ other :=
  Rfc3339.write_le_iff hat hother.1 hother.2

theorem Mirrors.delete (h : Mirrors codec time row records table)
    (hcolumn : ∀ record data, column (row record data) = occurredAtText (time record))
    {at_ : DateTime} (hat : Rfc3339.year at_.nanos ≤ 9999) :
    Mirrors codec time row (records.filter fun record => decide (at_ ≤ time record))
      (table.delete fun other => decide (column other < occurredAtText at_)) := by
  refine ⟨?_, fun record hrecord => h.readsBack record (List.mem_of_mem_filter hrecord),
    fun record hrecord => h.fourDigits record (List.mem_of_mem_filter hrecord),
    fun a ha b hb => h.untied a (List.mem_of_mem_filter ha) b (List.mem_of_mem_filter hb)⟩
  unfold Holds
  rw [Table.values_delete, h.holds, List.filter_map]
  congr 1
  refine List.filter_congr fun record hrecord => ?_
  have hle := text_le_iff hat (h.fourDigits record hrecord)
  simp only [Function.comp_apply, hcolumn, ← decide_not, not_lt, hle]

theorem sortNewest_perm : (sortNewest time records).Perm records := List.mergeSort_perm _ _

theorem sortNewest_sorted :
    (sortNewest time records).Pairwise fun a b => time b ≤ time a := by
  refine (List.pairwise_mergeSort ?_ ?_ _).imp of_decide_eq_true
  · intro a b c hab hbc
    simp only [decide_eq_true_eq] at *
    exact hbc.trans hab
  · intro a b
    simp only [Bool.or_eq_true, decide_eq_true_eq]
    exact le_total _ _

/-- The rows that a statement selects are those of the records that the memory lists. -/
theorem Mirrors.select (h : Mirrors codec time row records table)
    (hcolumn : ∀ record data, column (row record data) = occurredAtText (time record))
    {p : ρ → Bool} {q : α → Bool} (hselects : ∀ record ∈ records, ∀ data,
      p (row record data) = q record) :
    table.selectDesc column p = (sortNewest time (records.filter q)).map fun record =>
      row record (codec.text record) := by
  have hfilter : (table.values.filter p) = (records.filter q).map fun record =>
      row record (codec.text record) := by
    rw [h.holds, List.filter_map]
    congr 1
    exact List.filter_congr fun record hrecord => hselects record hrecord _
  have hperm : (table.selectDesc column p).Perm (table.values.filter p) := Table.selectDesc_perm
  obtain ⟨listed, hlisted, hselect⟩ := Table.exists_of_perm_map (hfilter ▸ hperm)
  have hmem (record : α) (hrecord : record ∈ listed) : record ∈ records :=
    List.mem_of_mem_filter (hlisted.mem_iff.mp hrecord)
  have hsorted : listed.Pairwise fun a b => time b ≤ time a := by
    have htexts : (table.selectDesc column p).Pairwise fun a b => column b ≤ column a :=
      Table.selectDesc_sorted
    rw [hselect, List.pairwise_map] at htexts
    refine htexts.imp_of_mem fun {a b} ha hb hle => ?_
    rw [hcolumn, hcolumn] at hle
    exact (text_le_iff (h.fourDigits b (hmem b hb)).2 (h.fourDigits a (hmem a ha))).mp hle
  -- sorted alike, and no two records of one instant: the same list
  have hsame : listed = sortNewest time (records.filter q) :=
    List.Perm.eq_of_pairwise (fun a b ha hb hba hab =>
      h.untied b (List.mem_of_mem_filter (sortNewest_perm.mem_iff.mp hb)) a (hmem a ha)
        (le_antisymm hab hba)) hsorted sortNewest_sorted (hlisted.trans sortNewest_perm.symm)
  rw [hselect, hsame]

/-- What the database answers is what the memory does, the newest first. -/
theorem Mirrors.answer (column data : ρ → String) (h : Mirrors codec time row records table)
    (hcolumn : ∀ record data, column (row record data) = occurredAtText (time record))
    (hdata : ∀ record text, data (row record text) = text)
    {p : ρ → Bool} {q : α → Bool} (hselects : ∀ record ∈ records, ∀ data,
      p (row record data) = q record) (limit : Nat) :
    ((table.selectDesc column p).take limit).mapM (fun other => decode codec (data other)) =
        .ok ((sortNewest time (records.filter q)).take limit) ∧
      Newest time (records.filter q) limit ((sortNewest time (records.filter q)).take limit) := by
  refine ⟨?_, _, sortNewest_perm, sortNewest_sorted, rfl⟩
  rw [h.select hcolumn hselects, ← List.map_take]
  refine Pointwise.mapM_map_eq_ok fun record hrecord => ?_
  have hlisted := sortNewest_perm.mem_iff.mp (List.mem_of_mem_take hrecord)
  rw [hdata]
  exact decode_eq (h.readsBack record (List.mem_of_mem_filter hlisted))

end OneTable

/-! ### Runs -/

/-- The tables mirror the records. -/
structure Mirrored (stores : LedgerStores) : Prop where
  actions : Mirrors codecs.action ActionEvent.occurredAt SqliteLedger.actionRow
    stores.memory.actionEvents stores.sqlite.ledgerActions
  traces : Mirrors codecs.trace BrainTraceRecord.occurredAt SqliteLedger.traceRow
    stores.memory.brainTraces stores.sqlite.ledgerTraces
  usage : Mirrors codecs.usage TokenUsageRecord.occurredAt SqliteLedger.usageRow
    stores.memory.tokenUsage stores.sqlite.ledgerUsage

variable {codecs} {stores : LedgerStores} {op : LedgerOp}

theorem mirrored_start : Mirrored codecs start := ⟨mirrors_empty, mirrors_empty, mirrors_empty⟩

theorem cutoff_le {now at_ : DateTime} {days : Int} (h : cutoff now days = some at_) :
    at_ ≤ now := by
  unfold cutoff at h
  simp only at h
  split_ifs at h
  obtain rfl := Option.some.inj h
  rw [DateTime.le_def]
  have : 0 ≤ max days 0 := le_max_right _ _
  simp only [DateTime.add]
  omega

theorem putTokenUsage_eq {sqlite : SqliteLedger} {usage : TokenUsageRecord}
    (h : codecs.usage.ReadsBack usage) :
    sqlite.putTokenUsage codecs usage = .ok
      { sqlite with
        ledgerUsage :=
          sqlite.ledgerUsage.insert (SqliteLedger.usageRow usage (codecs.usage.text usage)) } := by
  rw [SqliteLedger.putTokenUsage, encode_eq h]
  rfl

theorem Mirrored.step (h : Mirrored codecs stores) (hop : stores.Orderly codecs op) :
    Mirrored codecs (stores.step codecs op) := by
  unfold LedgerStores.step
  cases op with
  | putActionEvent event =>
      have hput := h.actions.insertNew ActionEvent.eventId ActionRow.id (fun _ _ => rfl) hop
      simp only [SqliteLedger.putActionEvent]
      cases hencode : encode codecs.action event <;> rw [hencode] at hput
      all_goals exact ⟨hput, h.traces, h.usage⟩
  | putBrainTrace trace =>
      have hput := h.traces.insertNew BrainTraceRecord.traceId TraceRow.id (fun _ _ => rfl) hop
      simp only [SqliteLedger.putBrainTrace]
      cases hencode : encode codecs.trace trace <;> rw [hencode] at hput
      all_goals exact ⟨h.actions, hput, h.usage⟩
  | putTokenUsage usage =>
      simp only [putTokenUsage_eq hop.readsBack]
      exact ⟨h.actions, h.traces, h.usage.insert hop⟩
  | retainLedger now days =>
      simp only [InMemoryLedger.retainLedger, SqliteLedger.retainLedger]
      cases hcutoff : cutoff now days with
      | none => exact h
      | some at_ =>
          have hyear : Rfc3339.year at_.nanos ≤ 9999 :=
            (Rfc3339.year_mono (cutoff_le hcutoff)).trans hop
          exact ⟨h.actions.delete (fun _ _ => rfl) hyear, h.traces.delete (fun _ _ => rfl) hyear,
            h.usage.delete (fun _ _ => rfl) hyear⟩

/-- The clauses of an askable filter say what it selects. -/
theorem clauses_eq {filter : ActionEventFilter} (hfilter : filter.Askable) {event : ActionEvent}
    (hevent : event.occurredAt.FourDigits) (data : String) :
    filter.clauses (SqliteLedger.actionRow event data) = filter.selects event := by
  have hsince := hfilter.since
  unfold ActionEventFilter.clauses ActionEventFilter.selects SqliteLedger.actionRow
  cases hat : filter.since with
  | none => rfl
  | some since => simp only [text_le_iff (hsince since hat) hevent]

theorem Mirrored.alike (h : Mirrored codecs stores) : stores.Alike codecs where
  heldActions := h.actions.holds
  heldTraces := h.traces.holds
  heldUsage := h.usage.holds
  actions filter hfilter := by
    have hanswer := h.actions.answer ActionRow.occurredAt ActionRow.data (fun _ _ => rfl)
      (fun _ _ => rfl)
      (fun event hevent data => clauses_eq hfilter (h.actions.fourDigits event hevent) data)
      (liftLimit filter.limit)
    refine ⟨?_, hanswer.2⟩
    simp only [SqliteLedger.listActionEvents, hfilter.statement]
    exact hanswer.1
  traces cycleId limit hlimit := by
    have hprepare : prepare [] (liftLimit limit) = .ok () := by
      simp [prepare, Nat.not_lt.mpr hlimit]
    simp only [SqliteLedger.listBrainTraces, hprepare]
    refine h.traces.answer TraceRow.occurredAt TraceRow.data (fun _ _ => rfl) (fun _ _ => rfl)
      (fun trace _ data => ?_) _
    cases cycleId with
    | none => simp
    | some id => simp [SqliteLedger.traceRow]
  usage limit hlimit := by
    have hprepare : prepare [] (liftLimit limit) = .ok () := by
      simp [prepare, Nat.not_lt.mpr hlimit]
    have hanswer := h.usage.answer UsageRow.occurredAt UsageRow.data (fun _ _ => rfl)
      (fun _ _ => rfl) (p := fun _ => true) (q := fun _ => true) (fun _ _ _ => rfl)
      (liftLimit limit)
    rw [List.filter_true] at hanswer
    simp only [SqliteLedger.listTokenUsage, hprepare]
    exact hanswer

theorem Mirrored.chronological (h : Mirrored codecs stores) (hop : stores.Orderly codecs op) :
    stores.Chronological codecs op := by
  refine ⟨(h.step hop).alike, ?_⟩
  rintro now days at_ rfl hcutoff
  simp only [LedgerStores.step, InMemoryLedger.retainLedger, hcutoff]

/-- **Both stores** answer every query that a statement can hold alike, newest first and with
exactly the records it asks for, in every run that takes no two records of one instant in. -/
theorem ledger_alike (codecs : LedgerCodecs) (ops : List LedgerOp)
    (h : Machine.Every (step codecs) (Orderly codecs) start ops) :
    Machine.Every (step codecs) (Chronological codecs) start ops :=
  h.of_invariant mirrored_start (fun _ _ hs hop => hs.step hop)
    fun _ _ hs hop => hs.chronological hop

/-- Two records of one instant are listed in both orders. -/
theorem tied_listed {first last : TokenUsageRecord} (hfirst : codecs.usage.ReadsBack first)
    (hlast : codecs.usage.ReadsBack last) (htime : last.occurredAt = first.occurredAt) :
    let stores := Machine.run (step codecs) start [.putTokenUsage first, .putTokenUsage last]
    stores.memory.listTokenUsage 2 = [first, last] ∧
      stores.sqlite.listTokenUsage codecs 2 = .ok [last, first] := by
  refine ⟨?_, ?_⟩
  · show (sortNewest _ [first, last]).take 2 = _
    rw [sortNewest, Table.mergeSort_pair, if_pos (decide_eq_true htime.le)]
    rfl
  · simp only [Machine.run_cons, Machine.run_nil, step, putTokenUsage_eq hfirst,
      putTokenUsage_eq hlast, kept]
    have hselect (text text' : String) : (((Table.empty.insert
        (SqliteLedger.usageRow first text)).insert
        (SqliteLedger.usageRow last text')).selectDesc UsageRow.occurredAt fun _ => true) =
          [SqliteLedger.usageRow last text', SqliteLedger.usageRow first text] := by
      show ([(1, SqliteLedger.usageRow first text),
        (2, SqliteLedger.usageRow last text')].mergeSort _).map Prod.snd = _
      rw [Table.mergeSort_pair, if_neg]
      · rfl
      · simp [SqliteLedger.usageRow, htime]
    have hdecode : [last, first].mapM (fun usage =>
        decode codecs.usage (codecs.usage.text usage)) = .ok [last, first] := by
      rw [List.mapM_cons, List.mapM_cons, decode_eq hlast, decode_eq hfirst]
      rfl
    simp only [SqliteLedger.listTokenUsage, SqliteLedger.new, start, hselect]
    exact hdecode

/-- The usage of one call. -/
def usageAt (prompt : Nat) (nanos : Int) : TokenUsageRecord :=
  ⟨⟨none, some "llama3", some prompt, some 40, some (prompt + 40), some 1200⟩, ⟨nanos⟩⟩

def oneCall : TokenUsageRecord := usageAt 900 1790769600000000000

def nextCall : TokenUsageRecord := usageAt 910 1790769600250000000

def sameInstant : TokenUsageRecord := usageAt 920 1790769600000000000

/-- The records, and what `serde_json` writes for them. -/
def usageTexts : List (TokenUsageRecord × String) :=
  [(oneCall, "\x7b\"cycle_id\":null,\"model\":\"llama3\",\"prompt_tokens\":900," ++
      "\"completion_tokens\":40,\"total_tokens\":940,\"duration_ms\":1200," ++
      "\"occurred_at\":\"2026-09-30T12:00:00Z\"\x7d"),
    (nextCall, "\x7b\"cycle_id\":null,\"model\":\"llama3\",\"prompt_tokens\":910," ++
      "\"completion_tokens\":40,\"total_tokens\":950,\"duration_ms\":1200," ++
      "\"occurred_at\":\"2026-09-30T12:00:00.250Z\"\x7d"),
    (sameInstant, "\x7b\"cycle_id\":null,\"model\":\"llama3\",\"prompt_tokens\":920," ++
      "\"completion_tokens\":40,\"total_tokens\":960,\"duration_ms\":1200," ++
      "\"occurred_at\":\"2026-09-30T12:00:00Z\"\x7d")]

def sampleCodecs : LedgerCodecs := ⟨.ofTexts [], .ofTexts [], .ofTexts usageTexts⟩

theorem readsBack_sample : ∀ usage ∈ [oneCall, nextCall, sameInstant],
    sampleCodecs.usage.ReadsBack usage := by
  intro usage husage
  obtain ⟨entry, hentry, rfl⟩ := List.mem_map.mp (show usage ∈ usageTexts.map Prod.fst from husage)
  exact Codec.readsBack_ofTexts (by decide) (by decide) hentry

theorem ledger_alike_usage :
    Machine.Every (step sampleCodecs) (Chronological sampleCodecs) start
      [.putTokenUsage nextCall, .putTokenUsage oneCall, .putTokenUsage nextCall,
        .retainLedger ⟨1790769600300000000⟩ 0] := by
  refine ledger_alike _ _ ⟨?next, ?one, ?again, ?retain, trivial⟩
  case next => exact ⟨readsBack_sample _ (by decide), by decide, by decide⟩
  case one => exact ⟨readsBack_sample _ (by decide), by decide, by decide⟩
  case again => exact ⟨readsBack_sample _ (by decide), by decide, by decide⟩
  case retain => exact (by decide : Rfc3339.year 1790769600300000000 ≤ 9999)

/-- Two calls of one instant: the memory lists the first put first, the database the last. -/
theorem ledger_differs :
    let stores := Machine.run (step sampleCodecs) start
      [.putTokenUsage oneCall, .putTokenUsage sameInstant]
    stores.memory.listTokenUsage 2 = [oneCall, sameInstant] ∧
      stores.sqlite.listTokenUsage sampleCodecs 2 = .ok [sameInstant, oneCall] :=
  tied_listed (readsBack_sample _ (by decide)) (readsBack_sample _ (by decide)) rfl

end LedgerStores

end Argus
