import Argus.Cloud.Buffer
import Mathlib.Algebra.Order.Group.Multiset
import Mathlib.Data.List.Sort
import Mathlib.Tactic.Abel

/-!
# The records in the buffers

An entry stands for one record, or, if it is a usage entry, for the records summed into its
batch. Each operation moves records between the buffer and the entries it takes or returns, and
loses and doubles none; these are the equations.
-/

namespace Argus

open LedgerBuffer (usageOf)

/-- The records an entry stands for. -/
def BufferedReport.records (entry : BufferedReport) : List Nat :=
  match entry.kind with
  | .tokenUsage => ((usageOf entry).map UsageSum.records).getD []
  | _ => [entry.serial]

/-- The records of a list of entries. -/
def recordsOf (entries : List BufferedReport) : Multiset Nat :=
  (entries.flatMap BufferedReport.records : List Nat)

/-- The records of a list of batches. -/
def sumsOf (usage : List UsageSum) : Multiset Nat := (usage.flatMap UsageSum.records : List Nat)

section

variable {entry : BufferedReport} {entries entries' : List BufferedReport}

@[simp] theorem recordsOf_nil : recordsOf [] = 0 := rfl

@[simp] theorem recordsOf_cons :
    recordsOf (entry :: entries) = entry.records + recordsOf entries := by
  simp [recordsOf]

@[simp] theorem recordsOf_append :
    recordsOf (entries ++ entries') = recordsOf entries + recordsOf entries' := by
  simp [recordsOf]

theorem recordsOf_perm (h : entries.Perm entries') : recordsOf entries = recordsOf entries' :=
  Multiset.coe_eq_coe.mpr (h.flatMap_right _)

@[simp] theorem sumsOf_nil : sumsOf [] = 0 := rfl

@[simp] theorem sumsOf_cons {sum : UsageSum} {usage : List UsageSum} :
    sumsOf (sum :: usage) = sum.records + sumsOf usage := by
  simp [sumsOf]

theorem records_of_ne (h : entry.kind ≠ .tokenUsage) : entry.records = [entry.serial] := by
  unfold BufferedReport.records
  split
  · contradiction
  · rfl

theorem records_of_not_ledger (h : entry.kind.isLedger = false) :
    entry.records = [entry.serial] := by
  refine records_of_ne ?_
  rintro heq
  rw [heq] at h
  cases h

theorem mem_recordsOf {record : Nat} :
    record ∈ recordsOf entries ↔ ∃ entry ∈ entries, record ∈ entry.records := by
  simp [recordsOf]

@[simp] theorem records_attempt (entry : BufferedReport) : entry.attempt.records = entry.records :=
  rfl

@[simp] theorem recordsOf_map_attempt (entries : List BufferedReport) :
    recordsOf (entries.map BufferedReport.attempt) = recordsOf entries := by
  simp [recordsOf, List.flatMap_map]

@[simp] theorem records_materialize (now : DateTime) (sum : UsageSum) :
    (LedgerBuffer.materialize now sum).records = sum.records := rfl

@[simp] theorem recordsOf_map_materialize (now : DateTime) (usage : List UsageSum) :
    recordsOf (usage.map (LedgerBuffer.materialize now)) = sumsOf usage := by
  simp [recordsOf, sumsOf, List.flatMap_map]

/-- The records of entries that are split in two. -/
theorem recordsOf_filter (p : BufferedReport → Bool) (entries : List BufferedReport) :
    recordsOf (entries.filter p) + recordsOf (entries.filter (not ∘ p)) = recordsOf entries := by
  rw [← recordsOf_append]
  exact recordsOf_perm (List.filter_append_perm p entries)

end

/-! ### The report queue -/

namespace ReportQueue

variable (queue : ReportQueue)

theorem enqueue_records (serial : Nat) {kind : ReportKind} (hkind : kind.isLedger = false)
    (payload : Payload) (at_ : DateTime) :
    recordsOf (queue.enqueue serial kind payload at_).1.toList +
        recordsOf (queue.enqueue serial kind payload at_).2.entries =
      recordsOf queue.entries + {serial} := by
  have hnew : (BufferedReport.fresh serial kind payload at_).records = [serial] :=
    records_of_not_ledger hkind
  rw [← recordsOf_append, enqueue_entries, recordsOf_append, recordsOf_cons, hnew]
  rfl

theorem requeueFront_records (entries : List BufferedReport) :
    recordsOf (queue.requeueFront entries).1 + recordsOf (queue.requeueFront entries).2.entries =
      recordsOf entries + recordsOf queue.entries := by
  rw [← recordsOf_append, ← recordsOf_append]
  exact congrArg recordsOf (shed_append _ _ _)

end ReportQueue

/-! ### The ledger buffer -/

namespace LedgerBuffer

variable {buffer buffer' : LedgerBuffer} {serial : Nat} {payload : Value} {at_ : DateTime}

/-- The records of the three streams. -/
def records (buffer : LedgerBuffer) : Multiset Nat :=
  recordsOf buffer.actions + recordsOf buffer.traces + sumsOf buffer.usage

theorem tryPushAction_records (h : buffer.tryPushAction serial payload at_ = some buffer') :
    buffer'.records = buffer.records + {serial} := by
  obtain ⟨-, rfl⟩ := tryPushAction_inv h
  have hnew : (BufferedReport.fresh serial .actionLedger (.value payload) at_).records = [serial] :=
    rfl
  simp only [records, recordsOf_append, recordsOf_cons, hnew, recordsOf_nil,
    Multiset.coe_singleton]
  abel

theorem sacrificeActions_records (buffer : LedgerBuffer) (count : Nat) :
    recordsOf (buffer.sacrificeActions count).1 + (buffer.sacrificeActions count).2.records =
      buffer.records := by
  have hsplit : recordsOf (buffer.actions.take count) + recordsOf (buffer.actions.drop count) =
      recordsOf buffer.actions := by
    rw [← recordsOf_append, List.take_append_drop]
  simp only [records, sacrificeActions, ← hsplit]
  abel

theorem pushTrace_records (buffer : LedgerBuffer) (serial : Nat) (payload : Value)
    (at_ : DateTime) :
    recordsOf (buffer.pushTrace serial payload at_).1 +
        (buffer.pushTrace serial payload at_).2.records = buffer.records + {serial} := by
  have hshed := congrArg recordsOf
    (ReportQueue.shed_append (ledgerTraceCapacity - 1) buffer.traces buffer.droppedTraces)
  rw [recordsOf_append] at hshed
  have hnew (payload : Value) :
      (BufferedReport.fresh serial .brainTrace (.value payload) at_).records = [serial] := rfl
  simp only [records, pushTrace, recordsOf_append, recordsOf_cons, hnew, recordsOf_nil,
    Multiset.coe_singleton, ← hshed]
  abel

theorem batch_records (entry : UsageSum) (usage : List UsageSum) :
    sumsOf (batch entry usage) = sumsOf usage + entry.records := by
  induction usage with
  | nil => simp [batch]
  | cons sum rest ih =>
      rw [batch]
      split_ifs
      · simp only [sumsOf_cons, UsageSum.merge, ← Multiset.coe_add]
        abel
      · simp only [sumsOf_cons, ih]
        abel

theorem pushUsage_records (buffer : LedgerBuffer) (entry : UsageSum) :
    (buffer.pushUsage entry).records = buffer.records + entry.records := by
  simp only [records, pushUsage, batch_records]
  abel

theorem drain_records (buffer : LedgerBuffer) (now : DateTime) :
    recordsOf (buffer.drain now).1 = buffer.records ∧ (buffer.drain now).2.records = 0 := by
  refine ⟨?_, rfl⟩
  simp only [drain, records, recordsOf_map_attempt, recordsOf_append, recordsOf_map_materialize]

theorem batches_records (sums usage : List UsageSum) :
    sumsOf (sums.foldl (fun usage sum => batch sum usage) usage) = sumsOf usage + sumsOf sums := by
  induction sums generalizing usage with
  | nil => simp
  | cons sum sums ih =>
      rw [List.foldl_cons, ih, batch_records, sumsOf_cons, add_assoc]

/-- Ledger entries are of one of the three kinds. -/
theorem streams_records {entries : List BufferedReport}
    (h : ∀ entry ∈ entries, entry.kind.isLedger = true) :
    recordsOf (entries.filter fun entry => entry.kind == .actionLedger) +
        recordsOf (entries.filter fun entry => entry.kind == .brainTrace) +
        sumsOf (entries.filterMap usageOf) = recordsOf entries := by
  induction entries with
  | nil => rfl
  | cons entry rest ih =>
      have hrest := ih fun entry hentry => h entry (List.mem_cons_of_mem _ hentry)
      have hentry := h entry List.mem_cons_self
      rw [recordsOf_cons, ← hrest]
      cases hkind : entry.kind with
      | actionLedger =>
          have hnone : usageOf entry = none := by simp [usageOf, hkind]
          simp only [List.filter_cons, List.filterMap_cons, hkind, hnone, beq_self_eq_true, if_true,
            recordsOf_cons, reduceCtorEq, beq_iff_eq, if_false]
          abel
      | brainTrace =>
          have hnone : usageOf entry = none := by simp [usageOf, hkind]
          simp only [List.filter_cons, List.filterMap_cons, hkind, hnone, beq_self_eq_true, if_true,
            recordsOf_cons, reduceCtorEq, beq_iff_eq, if_false]
          abel
      | tokenUsage =>
          have hrecords : entry.records = ((usageOf entry).map UsageSum.records).getD [] := by
            simp [BufferedReport.records, hkind]
          simp only [List.filter_cons, List.filterMap_cons, hkind, hrecords, reduceCtorEq,
            beq_iff_eq, if_false]
          cases usageOf entry with
          | none => simp
          | some sum =>
              simp only [sumsOf_cons, Option.map_some, Option.getD_some]
              abel
      | _ =>
          rw [hkind] at hentry
          cases hentry

theorem requeue_records {entries : List BufferedReport}
    (h : ∀ entry ∈ entries, entry.kind.isLedger = true) :
    (buffer.requeue entries).records = buffer.records + recordsOf entries := by
  rw [← streams_records h]
  simp only [records, requeue, recordsOf_append, batches_records]
  abel

end LedgerBuffer
end Argus
