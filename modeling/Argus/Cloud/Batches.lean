import Argus.Cloud.Buffer
import Mathlib.Data.List.Chain

/-!
# Batches of reports

The queue is drained into batches, one message each. A batch holds reports of one kind, no more than
a message of that kind may carry, and a batch is begun only when the last one is of another kind or
full. What is requeued goes back to the front, in its order.
-/

namespace Argus

/-- `MAX_EVENTS_PER_REPORT`. -/
def maxEventsPerReport : Nat := 500

/-- `MAX_ACTIVITIES_PER_REPORT`. -/
def maxActivitiesPerReport : Nat := 500

/-- How many reports of a kind may travel in one message. -/
def perMessageLimit : ReportKind → Nat
  | .telemetry | .health | .sentinel => 1
  | .events => maxEventsPerReport
  | .activities => maxActivitiesPerReport
  | .actionLedger | .brainTrace | .tokenUsage => 1

theorem perMessageLimit_pos (kind : ReportKind) : 0 < perMessageLimit kind := by
  cases kind <;> decide

/-- A group of reports of one kind. -/
structure ReportBatch where
  kind : ReportKind
  entries : List BufferedReport

/-- Adds a report to the last batch, or to a new one. -/
def place (batches : List ReportBatch) (entry : BufferedReport) : List ReportBatch :=
  let limit := perMessageLimit entry.kind
  match batches.getLast? with
  | some last =>
      if last.kind = entry.kind ∧ last.entries.length < limit then
        batches.dropLast ++ [{ last with entries := last.entries ++ [entry] }]
      else batches ++ [⟨entry.kind, [entry]⟩]
  | none => batches ++ [⟨entry.kind, [entry]⟩]

/-- Drains the queue into batches, oldest first. -/
def assembleBatches (queue : ReportQueue) (now : DateTime) : List ReportBatch × ReportQueue :=
  let (drained, queue) := queue.drain queue.entries.length now
  (drained.foldl place [], queue)

/-- Returns every batch to the front of the queue. -/
def requeueBatches (queue : ReportQueue) (batches : List ReportBatch) :
    List BufferedReport × ReportQueue :=
  queue.requeueFront (batches.flatMap ReportBatch.entries)

/-! ### What the batches are -/

namespace ReportBatch

/-- One message can carry the batch. -/
structure Sendable (batch : ReportBatch) : Prop where
  nonempty : batch.entries ≠ []
  oneKind : ∀ entry ∈ batch.entries, entry.kind = batch.kind
  bounded : batch.entries.length ≤ perMessageLimit batch.kind

/-- One message could carry both batches. -/
def Mergeable (batch next : ReportBatch) : Prop :=
  batch.kind = next.kind ∧
    batch.entries.length + next.entries.length ≤ perMessageLimit batch.kind

/-- A batch is followed by one of its kind only when it is full. -/
def ClosedBefore (batch next : ReportBatch) : Prop :=
  batch.kind = next.kind → batch.entries.length = perMessageLimit batch.kind

theorem ClosedBefore.not_mergeable {batch next : ReportBatch} (h : batch.ClosedBefore next)
    (hnext : next.Sendable) : ¬ batch.Mergeable next := by
  rintro ⟨hkind, hlength⟩
  have hfull := h hkind
  have hpos := List.length_pos_iff.mpr hnext.nonempty
  omega

end ReportBatch

/-- The batches hold the entries in their order, each batch can be sent, and each is closed before
the next. -/
structure Packed (batches : List ReportBatch) (entries : List BufferedReport) : Prop where
  whole : batches.flatMap ReportBatch.entries = entries
  sendable : ∀ batch ∈ batches, batch.Sendable
  closed : batches.IsChain ReportBatch.ClosedBefore

namespace Packed

variable {batches : List ReportBatch} {entries : List BufferedReport} {entry : BufferedReport}

theorem nil : Packed [] [] := ⟨rfl, nofun, .nil⟩

/-- A new batch, where the last one takes no more. -/
theorem start (h : Packed batches entries)
    (hlast : ∀ last ∈ batches.getLast?,
      ¬ (last.kind = entry.kind ∧ last.entries.length < perMessageLimit entry.kind)) :
    Packed (batches ++ [⟨entry.kind, [entry]⟩]) (entries ++ [entry]) where
  whole := by simp [h.whole]
  sendable := by
    intro batch hbatch
    rcases List.mem_append.mp hbatch with hbatch | hbatch
    · exact h.sendable batch hbatch
    · obtain rfl := List.mem_singleton.mp hbatch
      refine ⟨by simp, ?_, perMessageLimit_pos entry.kind⟩
      intro other hother
      rw [List.mem_singleton.mp hother]
  closed := by
    rw [List.isChain_append]
    refine ⟨h.closed, .singleton _, ?_⟩
    rintro last hmem _ ⟨⟩ hkind
    -- a neighbour of the same kind is full, or it would have taken the entry
    have hbounded := (h.sendable last (List.mem_of_mem_getLast? hmem)).bounded
    have hroom := hlast last hmem
    simp only [hkind, true_and] at hbounded hroom ⊢
    omega

/-- One more report in the last batch. -/
theorem extend {last : ReportBatch} (h : Packed (batches ++ [last]) entries)
    (hkind : last.kind = entry.kind) (hroom : last.entries.length < perMessageLimit entry.kind) :
    Packed (batches ++ [{ last with entries := last.entries ++ [entry] }])
      (entries ++ [entry]) where
  whole := by simp [← h.whole]
  sendable := by
    intro batch hbatch
    rcases List.mem_append.mp hbatch with hbatch | hbatch
    · exact h.sendable batch (List.mem_append_left _ hbatch)
    · obtain rfl := List.mem_singleton.mp hbatch
      have hlast := h.sendable last (List.mem_append_right _ List.mem_cons_self)
      refine ⟨by simp, ?_, ?_⟩
      · intro other hother
        rcases List.mem_append.mp hother with hother | hother
        · exact hlast.oneKind other hother
        · rw [List.mem_singleton.mp hother, hkind]
      · rw [← hkind] at hroom
        rw [List.length_append]
        exact hroom
  closed := by
    -- what comes before the last batch was closed with its kind in view, and that stays
    have hclosed := h.closed
    rw [List.isChain_append] at hclosed ⊢
    refine ⟨hclosed.1, .singleton _, ?_⟩
    rintro before hmem _ ⟨⟩
    exact hclosed.2.2 before hmem last rfl

theorem place (h : Packed batches entries) : Packed (place batches entry) (entries ++ [entry]) := by
  rcases List.eq_nil_or_concat batches with rfl | ⟨before, last, rfl⟩
  · exact h.start nofun
  · simp only [List.concat_eq_append] at h
    simp only [Argus.place, List.concat_eq_append, List.getLast?_append, List.getLast?_singleton,
      Option.some_or, List.dropLast_concat]
    split_ifs with hroom
    · exact h.extend hroom.1 hroom.2
    · refine h.start fun other hother => ?_
      rw [List.getLast?_concat, Option.mem_some_iff] at hother
      rwa [← hother]

/-- The fold over the reports, from batches that are packed. -/
theorem foldl_place {rest : List BufferedReport} (h : Packed batches entries) :
    Packed (rest.foldl Argus.place batches) (entries ++ rest) := by
  induction rest generalizing batches entries with
  | nil => rwa [List.append_nil]
  | cons entry rest ih =>
      rw [List.foldl_cons, List.append_cons]
      exact ih h.place

end Packed

/-! ### What goes back -/

namespace ReportQueue

theorem shed_of_length_le {capacity : Nat} {entries : List BufferedReport}
    (h : entries.length ≤ capacity) (dropped : Nat) :
    shed capacity entries dropped = ([], entries, dropped) := by
  cases entries with
  | nil => rfl
  | cons entry rest => rw [shed, if_neg (Nat.not_lt.mpr h)]

/-- Nothing is discarded where everything fits. -/
theorem requeueFront_of_fits {queue : ReportQueue} {entries : List BufferedReport}
    (h : entries.length + queue.entries.length ≤ queue.capacity) :
    queue.requeueFront entries = ([], { queue with entries := entries ++ queue.entries }) := by
  rw [← List.length_append] at h
  rw [requeueFront, shed_of_length_le h]

theorem drain_all (queue : ReportQueue) (now : DateTime) :
    (queue.drain queue.entries.length now).1 = queue.entries.map .attempt ∧
      (queue.drain queue.entries.length now).2.entries = [] := by
  constructor
  · rw [drain, Nat.min_self, List.take_length]
  · simp only [drain, Nat.min_self, List.drop_length]

end ReportQueue

theorem packed_assembleBatches (queue : ReportQueue) (now : DateTime) :
    Packed (assembleBatches queue now).1 (queue.entries.map .attempt) := by
  rw [← (queue.drain_all now).1]
  exact Packed.nil.foldl_place

/-- The batches are the whole queue in its order, each can be sent, and no two neighbours could be
one message. Those from any one on go back in front of whatever is queued by then, in their order,
where there is room. -/
theorem assembleBatches_spec (queue : ReportQueue) (now : DateTime) :
    (assembleBatches queue now).1.flatMap ReportBatch.entries = queue.entries.map .attempt ∧
    (assembleBatches queue now).2.entries = [] ∧
    (∀ batch ∈ (assembleBatches queue now).1, batch.Sendable) ∧
    (assembleBatches queue now).1.IsChain (fun batch next => ¬ batch.Mergeable next) ∧
    ∀ unsent, unsent <:+ (assembleBatches queue now).1 → ∀ later : ReportQueue,
      (unsent.flatMap ReportBatch.entries).length + later.entries.length ≤ later.capacity →
      requeueBatches later unsent = ([], { later with
        entries := unsent.flatMap ReportBatch.entries ++ later.entries }) := by
  have hpacked := packed_assembleBatches queue now
  refine ⟨hpacked.whole, (queue.drain_all now).2, hpacked.sendable, ?_, ?_⟩
  · exact hpacked.closed.imp_of_mem_imp fun batch next _ hnext hclosed =>
      hclosed.not_mergeable (hpacked.sendable next hnext)
  · exact fun unsent _ later hfits => ReportQueue.requeueFront_of_fits hfits

end Argus
