import Argus.Cloud.Buffer
import Argus.Lib.Machine
import Mathlib.Algebra.BigOperators.Group.Multiset.Basic

/-!
# What the trace stream declares lost

A full stream drops its oldest trace, and the next trace carries the number of those that were
dropped before it. A dropped trace takes the number that it carries with it.

`traces_accounted_iff` says which sequences of pushes, drains and requeues account for every
trace.
-/

namespace Argus

/-- The losses a payload declares: its `coalesced_before`. -/
def coalescedBefore (payload : Value) : Nat :=
  match payload.get "coalesced_before" with
  | some (.number (.posInt count)) => count
  | _ => 0

/-- The losses an entry declares. -/
def BufferedReport.declared (entry : BufferedReport) : Nat :=
  match entry.payload with
  | .value payload => coalescedBefore payload
  | .usage _ => 0

/-- The losses a number of entries declare. -/
def declaredBy (entries : Multiset BufferedReport) : Nat :=
  (entries.map BufferedReport.declared).sum

/-- The ledger buffer, and the entries that were handed out and did not come back. -/
structure TraceStream where
  buffer : LedgerBuffer
  out : Multiset BufferedReport
  /-- The traces pushed so far. -/
  pushed : Nat

inductive TraceEvent
  | pushTrace (payload : Value) (at_ : DateTime)
  | drain (now : DateTime)
  /-- Entries come back. What was not handed out cannot. -/
  | requeue (entries : List BufferedReport)

namespace TraceStream

def start : TraceStream := ⟨.new, 0, 0⟩

def step (s : TraceStream) : TraceEvent → TraceStream
  | .pushTrace payload at_ => { s with
      buffer := (s.buffer.pushTrace s.pushed payload at_).2
      pushed := s.pushed + 1 }
  | .drain now =>
      let (drained, buffer) := s.buffer.drain now
      { s with buffer, out := s.out + drained }
  | .requeue entries =>
      if (entries : Multiset BufferedReport) ≤ s.out then
        { s with buffer := s.buffer.requeue entries, out := s.out - entries }
      else s

/-- The traces that are held or were handed out. -/
def traces (s : TraceStream) : Multiset BufferedReport := s.buffer.traces + s.out

/-- Every trace is held, was handed out, or is declared lost. -/
def Accounted (s : TraceStream) : Prop :=
  s.pushed = s.traces.card + (declaredBy s.traces + s.buffer.droppedTraces)

/-- The traces that the next one pushes out. -/
def popped (s : TraceStream) : List BufferedReport :=
  s.buffer.traces.take (s.buffer.traces.length - (ledgerTraceCapacity - 1))

/-- The losses to declare once these are out. -/
def toDeclare (s : TraceStream) : Nat := s.buffer.droppedTraces + s.popped.length

/-- What the dropped traces declared, and what the counter cannot hold, is what the new payload
declares on its own account: nothing, for a payload that declares nothing. -/
def Carries (s : TraceStream) : TraceEvent → Prop
  | .pushTrace payload _ =>
      declaredBy s.popped + (s.toDeclare - (2 ^ 64 - 1)) =
        if 0 < s.toDeclare ∧ payload.asObject.isSome then 0 else coalescedBefore payload
  | _ => True

end TraceStream

/-! ### What a push does -/

namespace ReportQueue

variable (capacity : Nat) (entries : List BufferedReport) (dropped : Nat)

theorem shed_discarded :
    (shed capacity entries dropped).1 = entries.take (entries.length - capacity) := by
  induction entries generalizing dropped with
  | nil => simp [shed]
  | cons entry rest ih =>
      rw [shed]
      split_ifs with hfull
      · have hlength : (entry :: rest).length - capacity = rest.length - capacity + 1 := by
          simp only [List.length_cons] at hfull ⊢
          omega
        rw [hlength, List.take_succ_cons]
        exact congrArg (entry :: ·) (ih _)
      · rw [Nat.sub_eq_zero_of_le (Nat.le_of_not_lt hfull), List.take_zero]

theorem shed_held :
    (shed capacity entries dropped).2.1 = entries.drop (entries.length - capacity) := by
  have happend := shed_append capacity entries dropped
  rw [shed_discarded] at happend
  exact List.append_cancel_left (happend.trans (List.take_append_drop _ _).symm)

theorem shed_dropped (h : dropped ≤ 2 ^ 64 - 1) : (shed capacity entries dropped).2.2 =
    saturatingAddU64 dropped (entries.length - capacity) := by
  have hcount := shed_count capacity entries dropped 0
  have hsame : saturatingAddU64 dropped 0 = dropped := Nat.min_eq_left h
  rw [hsame, shed_discarded, List.length_take, Nat.zero_add] at hcount
  rw [hcount, Nat.min_eq_left (Nat.sub_le _ _)]

end ReportQueue

/-- A stamp declares what was lost, in the place of what the payload declared itself. -/
theorem coalescedBefore_stampLoss (dropped : Nat) (payload : Value) :
    coalescedBefore (LedgerBuffer.stampLoss dropped payload).1 +
        (LedgerBuffer.stampLoss dropped payload).2 =
      dropped + if 0 < dropped ∧ payload.asObject.isSome then 0 else coalescedBefore payload := by
  cases payload with
  | object fields =>
      unfold LedgerBuffer.stampLoss
      by_cases hdropped : 0 < dropped
      · simp [hdropped, coalescedBefore, Value.get, lookup_insertKey, Value.asObject]
      · simp [hdropped, Nat.add_comm]
  | _ => simp [LedgerBuffer.stampLoss, coalescedBefore, Value.get]

theorem stampLoss_le (dropped : Nat) (payload : Value) :
    (LedgerBuffer.stampLoss dropped payload).2 ≤ dropped := by
  cases payload with
  | object fields =>
      unfold LedgerBuffer.stampLoss
      split_ifs
      · exact Nat.zero_le _
      · exact Nat.le_refl _
  | _ => exact Nat.le_refl _

/-- An object carries every loss there is. -/
theorem stampLoss_object (dropped : Nat) (payload : Value) (h : payload.asObject.isSome) :
    (LedgerBuffer.stampLoss dropped payload).2 = 0 := by
  cases payload with
  | object fields =>
      unfold LedgerBuffer.stampLoss
      split_ifs with hdropped
      · rfl
      · exact Nat.eq_zero_of_not_pos hdropped
  | _ => cases h

namespace TraceStream

variable {s : TraceStream} {payload : Value} {at_ : DateTime}

theorem declaredBy_add (a b : Multiset BufferedReport) :
    declaredBy (a + b) = declaredBy a + declaredBy b := by
  simp [declaredBy]

theorem declaredBy_attempt (entries : List BufferedReport) :
    declaredBy (entries.map .attempt : List BufferedReport) = declaredBy entries := by
  simp only [declaredBy, Multiset.map_coe, List.map_map]
  rfl

/-- What the runs keep besides the count. -/
structure Sound (s : TraceStream) : Prop where
  actions : s.buffer.actions = []
  usage : s.buffer.usage = []
  kinds : ∀ entry ∈ s.traces, entry.kind = .brainTrace
  dropped : s.buffer.droppedTraces ≤ 2 ^ 64 - 1

theorem sound_start : Sound start :=
  ⟨rfl, rfl, by simp [traces, start, LedgerBuffer.new], by decide⟩

/-- A push keeps the newest traces, and declares what it can of the others. -/
theorem step_pushTrace (h : s.Sound) (payload : Value) (at_ : DateTime) :
    ∃ entry dropped, s.step (.pushTrace payload at_) =
        { s with
          buffer := { s.buffer with
            traces := s.buffer.traces.drop (s.buffer.traces.length - (ledgerTraceCapacity - 1)) ++
              [entry]
            droppedTraces := dropped }
          pushed := s.pushed + 1 } ∧
      entry.kind = .brainTrace ∧ dropped ≤ 2 ^ 64 - 1 ∧
      (payload.asObject.isSome → dropped = 0) ∧
      entry.declared + dropped = min s.toDeclare (2 ^ 64 - 1) +
        if 0 < s.toDeclare ∧ payload.asObject.isSome then 0 else coalescedBefore payload := by
  obtain ⟨lost, hshed⟩ : ∃ lost, (ReportQueue.shed (ledgerTraceCapacity - 1) s.buffer.traces
      s.buffer.droppedTraces).2.2 = lost := ⟨_, rfl⟩
  have hpopped : s.popped.length = s.buffer.traces.length - (ledgerTraceCapacity - 1) := by
    rw [popped, List.length_take, Nat.min_eq_left (Nat.sub_le _ _)]
  have hlost : lost = min s.toDeclare (2 ^ 64 - 1) := by
    rw [← hshed, ReportQueue.shed_dropped _ _ _ h.dropped, saturatingAddU64, toDeclare, hpopped]
  have hpositive : 0 < lost ↔ 0 < s.toDeclare := by omega
  have hstamp := coalescedBefore_stampLoss lost payload
  simp only [hpositive] at hstamp
  refine ⟨.fresh s.pushed .brainTrace (.value (LedgerBuffer.stampLoss lost payload).1) at_,
    (LedgerBuffer.stampLoss lost payload).2, ?_, rfl, ?_, stampLoss_object lost payload, ?_⟩
  · simp only [step, LedgerBuffer.pushTrace, hshed, ReportQueue.shed_held]
  · have hle := stampLoss_le lost payload
    omega
  · rw [← hlost]
    exact hstamp

/-- The traces that are popped, those that stay, and those that are out. -/
theorem traces_eq (s : TraceStream) : s.traces = s.popped +
    s.buffer.traces.drop (s.buffer.traces.length - (ledgerTraceCapacity - 1)) + s.out := by
  rw [traces, popped, Multiset.coe_add, List.take_append_drop]

theorem accounted_pushTrace_iff (h : s.Sound) (haccounted : s.Accounted) :
    (s.step (.pushTrace payload at_)).Accounted ↔ s.Carries (.pushTrace payload at_) := by
  obtain ⟨entry, dropped, hstep, -, -, -, hdeclared⟩ := step_pushTrace h payload at_
  generalize hown : (if 0 < s.toDeclare ∧ payload.asObject.isSome then 0
    else coalescedBefore payload) = own at hdeclared
  have hcount := haccounted
  rw [Accounted, traces_eq] at hcount
  simp only [declaredBy_add, Multiset.card_add, Multiset.coe_card] at hcount
  rw [Accounted, Carries, hown, hstep, traces]
  simp only [← Multiset.coe_add, declaredBy_add, Multiset.card_add, Multiset.coe_card]
  have hsingle : declaredBy ↑[entry] = entry.declared := by simp [declaredBy]
  rw [hsingle, List.length_singleton]
  unfold toDeclare at hdeclared ⊢
  omega

theorem Sound.pushTrace (h : s.Sound) (payload : Value) (at_ : DateTime) :
    (s.step (.pushTrace payload at_)).Sound := by
  obtain ⟨entry, dropped, hstep, hkind, hdropped, -⟩ := step_pushTrace h payload at_
  rw [hstep]
  refine ⟨h.actions, h.usage, fun other hother => ?_, hdropped⟩
  simp only [traces, Multiset.mem_add, Multiset.mem_coe, List.mem_append,
    List.mem_singleton] at hother
  obtain (hheld | rfl) | hout := hother
  · exact h.kinds other (Multiset.mem_add.mpr (.inl (List.mem_of_mem_drop hheld)))
  · exact hkind
  · exact h.kinds other (Multiset.mem_add.mpr (.inr hout))

theorem drain_eq (h : s.Sound) (now : DateTime) : s.step (.drain now) =
    { s with
      buffer := ⟨[], [], s.buffer.droppedTraces, []⟩
      out := s.out + (s.buffer.traces.map .attempt : List BufferedReport) } := by
  simp [step, LedgerBuffer.drain, h.actions, h.usage]

theorem requeue_eq (h : s.Sound) {entries : List BufferedReport}
    (hout : (entries : Multiset BufferedReport) ≤ s.out) : s.step (.requeue entries) =
    { s with
      buffer := ⟨[], entries ++ s.buffer.traces, s.buffer.droppedTraces, []⟩
      out := s.out - entries } := by
  have hkind (entry : BufferedReport) (hentry : entry ∈ entries) : entry.kind = .brainTrace :=
    h.kinds entry (Multiset.mem_add.mpr (.inr (Multiset.mem_of_le hout hentry)))
  have hactions : entries.filter (fun entry => entry.kind == .actionLedger) = [] :=
    List.filter_eq_nil_iff.mpr fun entry hentry => by simp [hkind entry hentry]
  have htraces : entries.filter (fun entry => entry.kind == .brainTrace) = entries :=
    List.filter_eq_self.mpr fun entry hentry => by simp [hkind entry hentry]
  have husage : entries.filterMap LedgerBuffer.usageOf = [] :=
    List.filterMap_eq_nil_iff.mpr fun entry hentry => by
      simp [LedgerBuffer.usageOf, hkind entry hentry]
  simp [step, hout, LedgerBuffer.requeue, hactions, htraces, husage, h.actions, h.usage]

/-- Draining and requeueing move traces, and change no declaration. -/
theorem moved (h : s.Sound) {e : TraceEvent} (he : ∀ payload at_, e ≠ .pushTrace payload at_) :
    (s.step e).Sound ∧ ((s.step e).Accounted ↔ s.Accounted) := by
  cases e with
  | pushTrace payload at_ => exact absurd rfl (he payload at_)
  | drain now =>
      rw [drain_eq h]
      refine ⟨⟨rfl, rfl, fun entry hentry => ?_, h.dropped⟩, ?_⟩
      · simp only [traces, Multiset.mem_add, Multiset.mem_coe, List.not_mem_nil,
          List.mem_map, false_or] at hentry
        obtain hout | ⟨held, hheld, rfl⟩ := hentry
        · exact h.kinds entry (Multiset.mem_add.mpr (.inr hout))
        · exact h.kinds held (Multiset.mem_add.mpr (.inl hheld))
      · simp only [Accounted, traces, declaredBy_add, declaredBy_attempt, Multiset.card_add,
          Multiset.coe_card, List.length_map, List.length_nil]
        have hnone : declaredBy ↑([] : List BufferedReport) = 0 := rfl
        omega
  | requeue entries =>
      by_cases hout : (entries : Multiset BufferedReport) ≤ s.out
      · have htraces : (s.step (.requeue entries)).traces = s.traces := by
          rw [requeue_eq h hout, traces, traces, ← Multiset.coe_add, add_assoc,
            add_left_comm, add_tsub_cancel_of_le hout]
        have hdropped : (s.step (.requeue entries)).buffer.droppedTraces =
            s.buffer.droppedTraces := by rw [requeue_eq h hout]
        have hpushed : (s.step (.requeue entries)).pushed = s.pushed := by rw [requeue_eq h hout]
        refine ⟨⟨?_, ?_, htraces ▸ h.kinds, hdropped ▸ h.dropped⟩, ?_⟩
        · rw [requeue_eq h hout]
        · rw [requeue_eq h hout]
        · rw [Accounted, Accounted, htraces, hdropped, hpushed]
      · have hsame : s.step (.requeue entries) = s := if_neg hout
        rw [hsame]
        exact ⟨h, Iff.rfl⟩

theorem Sound.step (h : s.Sound) (e : TraceEvent) : (s.step e).Sound := by
  cases e with
  | pushTrace payload at_ => exact h.pushTrace payload at_
  | drain now => exact (moved h (by simp)).1
  | requeue entries => exact (moved h (by simp)).1

theorem accounted_step_iff (h : s.Sound) (haccounted : s.Accounted) (e : TraceEvent) :
    (s.step e).Accounted ↔ s.Carries e := by
  cases e with
  | pushTrace payload at_ => exact accounted_pushTrace_iff h haccounted
  | drain now => exact (moved h (by simp)).2.trans (iff_of_true haccounted trivial)
  | requeue entries => exact (moved h (by simp)).2.trans (iff_of_true haccounted trivial)

/-- Every trace is accounted for, all along a run, exactly as long as no push drops a trace that
carries a count. -/
theorem traces_accounted_iff (events : List TraceEvent) :
    (∀ n, (Machine.run TraceStream.step start (events.take n)).Accounted) ↔
      Machine.Every TraceStream.step Carries start events :=
  Machine.every_true.forall_take_iff (I := fun s => s.Sound ∧ s.Accounted)
    ⟨sound_start, rfl⟩ (fun _ h => h.2)
    (fun _ e h _ he => ⟨h.1.step e, (accounted_step_iff h.1 h.2 e).mpr he⟩)
    fun _ e h _ hnext => (accounted_step_iff h.1 h.2 e).mp hnext

/-! ### A stream that overflows twice -/

/-- A trace of the shape the daemon emits, which declares nothing itself. -/
def plainTrace : TraceEvent := .pushTrace (.object []) ⟨0⟩

/-- After `n` plain traces, what those that are held declare. -/
structure Declares (s : TraceStream) (n : Nat) (counts : List Nat) : Prop where
  sound : s.Sound
  pushed : s.pushed = n
  dropped : s.buffer.droppedTraces = 0
  out : s.out = 0
  counts : s.buffer.traces.map BufferedReport.declared = counts

theorem Declares.plain {n : Nat} {counts : List Nat} (h : s.Declares n counts)
    (hlength : counts.length ≤ ledgerTraceCapacity) :
    (s.step plainTrace).Declares (n + 1)
      (counts.drop (counts.length - (ledgerTraceCapacity - 1)) ++
        [counts.length - (ledgerTraceCapacity - 1)]) := by
  obtain ⟨entry, dropped, hstep, -, -, hobject, hdeclared⟩ :=
    step_pushTrace h.sound (.object []) ⟨0⟩
  have hsame : s.buffer.traces.length = counts.length := by rw [← h.counts, List.length_map]
  obtain rfl := hobject rfl
  have hentry : entry.declared = counts.length - (ledgerTraceCapacity - 1) := by
    have hown : coalescedBefore (.object []) = 0 := rfl
    rw [hown, ite_self, toDeclare, h.dropped, popped, List.length_take, hsame] at hdeclared
    unfold ledgerTraceCapacity at hlength hdeclared ⊢
    omega
  have hsound := h.sound.pushTrace (.object []) ⟨0⟩
  rw [plainTrace]
  refine ⟨hsound, ?_, ?_, ?_, ?_⟩
  · rw [hstep, h.pushed]
  · rw [hstep]
  · rw [hstep, h.out]
  · rw [hstep]
    simp only [List.map_append, List.map_drop, h.counts, hsame, List.map_cons, hentry, List.map_nil]

theorem declares_filling {n : Nat} (h : n ≤ 256) :
    (Machine.run TraceStream.step start (List.replicate n plainTrace)).Declares n
      (List.replicate n 0) := by
  induction n with
  | zero => exact ⟨sound_start, rfl, rfl, rfl, rfl⟩
  | succ n ih =>
      have hnext := (ih (Nat.le_of_succ_le h)).plain
        (List.length_replicate.trans_le (Nat.le_of_succ_le h))
      have hnone : n - (ledgerTraceCapacity - 1) = 0 :=
        Nat.sub_eq_zero_of_le (Nat.le_of_lt_succ h)
      rw [List.length_replicate, hnone, List.drop_zero, ← List.replicate_succ'] at hnext
      rw [List.replicate_succ', Machine.run_append]
      exact hnext

theorem declares_overflowing {m : Nat} (h : m ≤ 256) :
    (Machine.run TraceStream.step start (List.replicate (256 + m) plainTrace)).Declares (256 + m)
      (List.replicate (256 - m) 0 ++ List.replicate m 1) := by
  induction m with
  | zero =>
      simpa only [Nat.add_zero, Nat.sub_zero, List.replicate_zero, List.append_nil] using
        declares_filling (Nat.le_refl 256)
  | succ m ih =>
      have hlength : (List.replicate (256 - m) 0 ++ List.replicate m 1).length = 256 := by
        simp only [List.length_append, List.length_replicate]
        omega
      have hnext := (ih (Nat.le_of_succ_le h)).plain hlength.le
      have hone : 256 - (ledgerTraceCapacity - 1) = 1 := rfl
      have hsplit : 256 - m = 256 - (m + 1) + 1 := by omega
      rw [hlength, hone, hsplit, List.replicate_succ, List.cons_append, List.drop_succ_cons,
        List.drop_zero, List.append_assoc, ← List.replicate_succ'] at hnext
      rw [← Nat.add_assoc, List.replicate_succ', Machine.run_append]
      exact hnext

theorem Declares.accounted_iff {n : Nat} {counts : List Nat} (h : s.Declares n counts) :
    s.Accounted ↔ n = counts.length + counts.sum := by
  have htraces : s.traces = s.buffer.traces := by rw [traces, h.out, add_zero]
  have hsum : declaredBy s.buffer.traces = counts.sum := by
    rw [declaredBy, Multiset.map_coe, h.counts, Multiset.sum_coe]
  rw [Accounted, htraces, hsum, h.pushed, h.dropped, Multiset.coe_card, ← h.counts,
    List.length_map, Nat.add_zero]

/-- The stream fills, as many traces again push its first ones out, and the next one pushes out
a trace that stands for two. -/
theorem traces_unaccounted : ¬ (Machine.run TraceStream.step start
    (List.replicate 513 (.pushTrace (.object []) ⟨0⟩))).Accounted := by
  have hlast := (declares_overflowing (Nat.le_refl 256)).plain (by decide +kernel)
  have hsplit : List.replicate 513 plainTrace =
      List.replicate (256 + 256) plainTrace ++ [plainTrace] := List.replicate_succ'
  have hcounts := hlast.accounted_iff
  rw [← plainTrace, hsplit, Machine.run_append]
  exact hcounts.not.mpr (by decide +kernel)

end TraceStream
end Argus
