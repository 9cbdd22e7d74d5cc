import Argus.Cloud.Buffer
import Argus.Lib.Machine
import Mathlib.Data.List.Perm.Basic
import Mathlib.Data.List.Range

/-!
# The accounts of the report queue

Entries are enqueued, drained, and put back at the front. In every sequence of these, the queue
is within its capacity, an entry is held, outstanding or discarded, and the discarded ones are
counted, until the counter is at its end (`Accounted`). Entries are drained and discarded from
the front (`FromFront`). The front is the oldest entry as long as what is put back is older than
what is held (`InAge`); the queue does not see to that, and the caller may put back an old entry
before a younger one.
-/

namespace Argus

/-- The queue, the entries that were drained and not put back, and those it discarded. -/
structure QueueRun where
  queue : ReportQueue
  outstanding : List BufferedReport
  discarded : List BufferedReport
  minted : Nat

inductive QueueOp
  | enqueue (kind : ReportKind) (payload : Payload) (at_ : DateTime)
  | drain (limit : Nat) (at_ : DateTime)
  | requeueFront (entries : List BufferedReport)

namespace QueueRun

def start (capacity : Nat) : QueueRun := ⟨.new capacity, [], [], 0⟩

def step (s : QueueRun) : QueueOp → QueueRun
  | .enqueue kind payload at_ =>
      let (discarded, queue) := s.queue.enqueue s.minted kind payload at_
      { s with queue, discarded := s.discarded ++ discarded.toList, minted := s.minted + 1 }
  | .drain limit at_ =>
      let (taken, queue) := s.queue.drain limit at_
      { s with queue, outstanding := s.outstanding ++ taken }
  | .requeueFront entries =>
      let (discarded, queue) := s.queue.requeueFront entries
      { s with
        queue
        outstanding := s.outstanding.diff entries
        discarded := s.discarded ++ discarded }

/-- Only entries that were drained are put back. -/
def Returns (s : QueueRun) : QueueOp → Prop
  | .requeueFront entries => entries.Subperm s.outstanding
  | _ => True

instance (s : QueueRun) : (op : QueueOp) → Decidable (s.Returns op)
  | .enqueue _ _ _ | .drain _ _ => isTrue trivial
  | .requeueFront _ => inferInstanceAs (Decidable (List.Subperm _ _))

/-- What is put back is in order of age, and older than what is held. -/
def InAge (s : QueueRun) : QueueOp → Prop
  | .requeueFront entries => (entries.map BufferedReport.serial).Pairwise (· < ·) ∧
      ∀ entry ∈ entries, ∀ held ∈ s.queue.entries, entry.serial < held.serial
  | _ => True

/-- Where the entries are. -/
def places (s : QueueRun) : List Nat :=
  (s.queue.entries ++ s.outstanding ++ s.discarded).map BufferedReport.serial

/-- The accounts of a queue that was made with `capacity`. -/
structure Accounted (capacity : Nat) (s : QueueRun) : Prop where
  bounded : s.queue.entries.length ≤ max capacity 1
  /-- Every entry is in one place. -/
  placed : s.places.Perm (List.range s.minted)
  counted : s.queue.droppedTotal = min s.discarded.length (2 ^ 64 - 1)

/-- Entries leave from the front, in the order of the queue. -/
structure FromFront (s : QueueRun) : Prop where
  enqueue : ∀ kind payload at_, ∃ front,
    (s.step (.enqueue kind payload at_)).discarded = s.discarded ++ front ∧
    s.queue.entries ++ [.fresh s.minted kind payload at_] =
      front ++ (s.step (.enqueue kind payload at_)).queue.entries
  requeue : ∀ entries, ∃ front,
    (s.step (.requeueFront entries)).discarded = s.discarded ++ front ∧
    entries ++ s.queue.entries = front ++ (s.step (.requeueFront entries)).queue.entries
  drain : ∀ limit at_, ∃ front, front.length = min limit s.queue.entries.length ∧
    (s.step (.drain limit at_)).outstanding = s.outstanding ++ front.map .attempt ∧
    s.queue.entries = front ++ (s.step (.drain limit at_)).queue.entries

/-- What the next operation discards is older than all that is held then. -/
def DiscardsOldest (s : QueueRun) : Prop :=
  ∀ op, s.InAge op → ∃ front, (s.step op).discarded = s.discarded ++ front ∧
    ∀ old ∈ front, ∀ held ∈ (s.step op).queue.entries, old.serial < held.serial

variable {capacity : Nat} {s : QueueRun} {op : QueueOp} {ops : List QueueOp}

theorem fromFront (s : QueueRun) : FromFront s where
  enqueue kind payload at_ :=
    ⟨_, rfl, (ReportQueue.enqueue_entries s.queue s.minted kind payload at_).symm⟩
  requeue entries :=
    ⟨_, rfl, (ReportQueue.shed_append s.queue.capacity (entries ++ s.queue.entries)
      s.queue.droppedTotal).symm⟩
  drain limit at_ :=
    ⟨s.queue.entries.take (min limit s.queue.entries.length), by simp, rfl,
      (List.take_append_drop _ _).symm⟩

/-! ### Accounts -/

/-- What is discarded goes from the held entries to the discarded ones. -/
theorem perm_of_discard {held held' front : List BufferedReport}
    (outstanding discarded : List BufferedReport) (h : held = front ++ held') :
    (held' ++ outstanding ++ (discarded ++ front)).Perm (held ++ outstanding ++ discarded) := by
  subst h
  simp only [List.perm_iff_count, List.count_append]
  intro entry
  omega

theorem capacity_step (s : QueueRun) (op : QueueOp) :
    (s.step op).queue.capacity = s.queue.capacity := by
  cases op with
  | enqueue kind payload at_ => exact ReportQueue.enqueue_capacity _ _ _ _ _
  | drain limit at_ => rfl
  | requeueFront entries => rfl

theorem bounded_step (h : s.queue.entries.length ≤ s.queue.capacity) :
    (s.step op).queue.entries.length ≤ s.queue.capacity := by
  cases op with
  | enqueue kind payload at_ => exact ReportQueue.enqueue_length h _ _ _ _
  | drain limit at_ =>
      refine le_trans ?_ h
      simp [step, ReportQueue.drain]
  | requeueFront entries => exact ReportQueue.shed_length _ _ _

theorem placed_step (h : s.places.Perm (List.range s.minted)) (hreturns : s.Returns op) :
    (s.step op).places.Perm (List.range (s.step op).minted) := by
  cases op with
  | enqueue kind payload at_ =>
      obtain ⟨front, hdiscarded, hentries⟩ := s.fromFront.enqueue kind payload at_
      have hmoved := (perm_of_discard s.outstanding s.discarded hentries).map BufferedReport.serial
      have hnew : ((s.queue.entries ++ [BufferedReport.fresh s.minted kind payload at_] ++
          s.outstanding ++ s.discarded).map BufferedReport.serial).Perm (s.minted :: s.places) := by
        simp [places, BufferedReport.fresh, List.perm_middle]
      have hrange : (s.minted :: List.range s.minted).Perm (List.range (s.minted + 1)) := by
        rw [List.range_succ]
        exact (List.perm_append_singleton _ _).symm
      rw [places, hdiscarded]
      exact hmoved.trans (hnew.trans ((h.cons _).trans hrange))
  | drain limit at_ =>
      obtain ⟨front, -, houtstanding, hentries⟩ := s.fromFront.drain limit at_
      have hdiscarded : (s.step (.drain limit at_)).discarded = s.discarded := rfl
      refine List.Perm.trans ?_ h
      rw [places, houtstanding, hdiscarded, places, hentries]
      simp only [List.map_append, List.map_map, BufferedReport.serial_comp_attempt,
        List.perm_iff_count, List.count_append]
      intro serial
      omega
  | requeueFront entries =>
      obtain ⟨front, hdiscarded, hentries⟩ := s.fromFront.requeue entries
      have hmoved := (perm_of_discard (s.outstanding.diff entries) s.discarded hentries).map
        BufferedReport.serial
      have hback := List.subperm_append_diff_self_of_count_le (List.subperm_ext_iff.mp hreturns)
      refine List.Perm.trans ?_ h
      rw [places, hdiscarded]
      refine hmoved.trans (List.Perm.map _ ?_)
      simp only [List.perm_iff_count, List.count_append] at hback ⊢
      intro entry
      have := hback entry
      omega

theorem counted_step {n : Nat} (h : s.queue.droppedTotal = saturatingAddU64 n s.discarded.length) :
    (s.step op).queue.droppedTotal = saturatingAddU64 n (s.step op).discarded.length := by
  cases op with
  | enqueue kind payload at_ =>
      simp only [step, List.length_append]
      exact ReportQueue.enqueue_count h _ _ _ _
  | drain limit at_ => exact h
  | requeueFront entries =>
      simp only [step, ReportQueue.requeueFront, List.length_append, h]
      exact ReportQueue.shed_count _ _ _ _

/-- What the operations keep. -/
structure Kept (capacity : Nat) (s : QueueRun) : Prop where
  capacity : s.queue.capacity = max capacity 1
  bounded : s.queue.entries.length ≤ s.queue.capacity
  placed : s.places.Perm (List.range s.minted)
  counted : s.queue.droppedTotal = saturatingAddU64 0 s.discarded.length

theorem kept_start (capacity : Nat) : Kept capacity (start capacity) :=
  ⟨rfl, Nat.zero_le _, List.Perm.refl _, rfl⟩

theorem Kept.step (h : Kept capacity s) (hreturns : s.Returns op) : Kept capacity (s.step op) where
  capacity := (capacity_step s op).trans h.capacity
  bounded := (bounded_step h.bounded).trans (capacity_step s op).ge
  placed := placed_step h.placed hreturns
  counted := counted_step h.counted

theorem Kept.accounted (h : Kept capacity s) : Accounted capacity s where
  bounded := h.capacity ▸ h.bounded
  placed := h.placed
  counted := by
    rw [h.counted, saturatingAddU64, Nat.zero_add]

/-! ### Age -/

/-- The queue is in order of age. -/
def Aged (s : QueueRun) : Prop :=
  s.queue.entries.Pairwise fun a b => a.serial < b.serial

/-- What an operation leaves in the queue or discards, in order. -/
def offered (s : QueueRun) : QueueOp → List BufferedReport
  | .enqueue kind payload at_ => s.queue.entries ++ [.fresh s.minted kind payload at_]
  | .drain _ _ => s.queue.entries
  | .requeueFront entries => entries ++ s.queue.entries

theorem Kept.serial_lt (h : Kept capacity s) {entry : BufferedReport}
    (hentry : entry ∈ s.queue.entries) : entry.serial < s.minted := by
  have hmem : entry.serial ∈ s.places := List.mem_map_of_mem (by simp [hentry])
  exact List.mem_range.mp (h.placed.subset hmem)

theorem Aged.offered (h : Aged s) (hkept : Kept capacity s) (hage : s.InAge op) :
    (s.offered op).Pairwise fun a b => a.serial < b.serial := by
  cases op with
  | enqueue kind payload at_ =>
      refine List.pairwise_append.mpr ⟨h, List.pairwise_singleton _ _, ?_⟩
      intro held hheld new hnew
      obtain rfl := List.mem_singleton.mp hnew
      exact hkept.serial_lt hheld
  | drain limit at_ => exact h
  | requeueFront entries =>
      exact List.pairwise_append.mpr ⟨List.pairwise_map.mp hage.1, h, hage.2⟩

/-- In a queue in order of age, what leaves from the front is older than what stays. -/
theorem Aged.step (h : Aged s) (hkept : Kept capacity s) (hage : s.InAge op) :
    Aged (s.step op) ∧ ∃ front, (s.step op).discarded = s.discarded ++ front ∧
      ∀ old ∈ front, ∀ held ∈ (s.step op).queue.entries, old.serial < held.serial := by
  have hoffered := h.offered hkept hage
  cases op with
  | enqueue kind payload at_ =>
      obtain ⟨front, hdiscarded, hentries⟩ := s.fromFront.enqueue kind payload at_
      rw [QueueRun.offered, hentries] at hoffered
      obtain ⟨-, hheld, hold⟩ := List.pairwise_append.mp hoffered
      exact ⟨hheld, front, hdiscarded, hold⟩
  | drain limit at_ =>
      obtain ⟨front, -, -, hentries⟩ := s.fromFront.drain limit at_
      rw [QueueRun.offered, hentries] at hoffered
      obtain ⟨-, hheld, -⟩ := List.pairwise_append.mp hoffered
      exact ⟨hheld, [], (List.append_nil _).symm, by simp⟩
  | requeueFront entries =>
      obtain ⟨front, hdiscarded, hentries⟩ := s.fromFront.requeue entries
      rw [QueueRun.offered, hentries] at hoffered
      obtain ⟨-, hheld, hold⟩ := List.pairwise_append.mp hoffered
      exact ⟨hheld, front, hdiscarded, hold⟩

theorem kept_run (h : Machine.Every step Returns (start capacity) ops) :
    Kept capacity (Machine.run step (start capacity) ops) :=
  h.invariant (kept_start capacity) fun _ _ hs hop => hs.step hop

theorem aged_run (h : Machine.Every step Returns (start capacity) ops)
    (hage : Machine.Every step InAge (start capacity) ops) :
    Aged (Machine.run step (start capacity) ops) := by
  have hboth : Kept capacity (Machine.run step (start capacity) ops) ∧
      Aged (Machine.run step (start capacity) ops) := by
    apply (h.and hage).invariant (I := fun s => Kept capacity s ∧ Aged s)
    · exact ⟨kept_start capacity, List.Pairwise.nil⟩
    · intro s op hs hop
      exact ⟨hs.1.step hop.1, (hs.2.step hs.1 hop.2).1⟩
  exact hboth.2

/-- **The accounts of the queue**, in every sequence of operations. -/
theorem queue_accounted (capacity : Nat) (ops : List QueueOp)
    (h : Machine.Every step Returns (start capacity) ops) :
    Accounted capacity (Machine.run step (start capacity) ops) ∧
    FromFront (Machine.run step (start capacity) ops) ∧
    (Machine.Every step InAge (start capacity) ops →
      DiscardsOldest (Machine.run step (start capacity) ops)) := by
  refine ⟨(kept_run h).accounted, fromFront _, fun hage => ?_⟩
  intro op hop
  exact ((aged_run h hage).step (kept_run h) hop).2

/-- Two readings are enqueued and drained. -/
def readings : List QueueOp :=
  [.enqueue .telemetry (.value .null) ⟨0⟩, .enqueue .telemetry (.value .null) ⟨1⟩,
    .drain 2 ⟨2⟩]

/-- What the drain of `readings` took. -/
def reading (serial : Nat) : BufferedReport :=
  (BufferedReport.fresh serial .telemetry (.value .null) ⟨serial⟩).attempt

/-- Both readings are put back together, and the next one takes the place of the first. -/
def returnedTogether : List QueueOp :=
  readings ++ [.requeueFront [reading 0, reading 1], .enqueue .telemetry (.value .null) ⟨3⟩]

/-- The readings are put back one by one, the older first. -/
def returnedApart : List QueueOp :=
  readings ++ [.requeueFront [reading 0], .requeueFront [reading 1]]

theorem queue_accounted_together :
    Machine.Every step Returns (start 2) returnedTogether ∧
      (Machine.run step (start 2) returnedTogether).queue.entries.map BufferedReport.serial =
        [1, 2] ∧
      Accounted 2 (Machine.run step (start 2) returnedTogether) :=
  ⟨by decide, by decide, (queue_accounted 2 _ (by decide)).1⟩

/-- As many enqueues mint as many entries, and nothing is outstanding. -/
theorem run_enqueues (capacity n : Nat) (kind : ReportKind) (payload : Payload) (at_ : DateTime) :
    (Machine.run step (start capacity) (List.replicate n (.enqueue kind payload at_))).minted = n ∧
    (Machine.run step (start capacity)
      (List.replicate n (.enqueue kind payload at_))).outstanding = [] ∧
    Machine.Every step Returns (start capacity) (List.replicate n (.enqueue kind payload at_)) := by
  induction n with
  | zero => exact ⟨rfl, rfl, trivial⟩
  | succ n ih =>
      obtain ⟨hminted, houtstanding, hreturns⟩ := ih
      rw [List.replicate_succ', Machine.run_append, Machine.every_snoc]
      refine ⟨?_, houtstanding, hreturns, trivial⟩
      exact congrArg (· + 1) hminted

/-- A queue of one place that got more reports than its counter counts. -/
theorem counter_saturates (n : Nat) (hn : 2 ^ 64 < n) :
    (Machine.run step (start 1)
      (List.replicate n (.enqueue .telemetry (.value .null) ⟨0⟩))).queue.droppedTotal <
    (Machine.run step (start 1)
      (List.replicate n (.enqueue .telemetry (.value .null) ⟨0⟩))).discarded.length := by
  obtain ⟨hminted, houtstanding, hreturns⟩ :=
    run_enqueues 1 n .telemetry (.value .null) ⟨0⟩
  have hkept := (kept_run hreturns).accounted
  have hlength := hkept.placed.length_eq
  have hbounded := hkept.bounded
  rw [hkept.counted]
  simp only [places, List.length_map, List.length_append, List.length_range, hminted,
    houtstanding, List.length_nil] at hlength
  omega

/-- The counter does not count every discarded entry, and the one that is discarded may be
younger than one that is held. -/
theorem accounts_not_exact :
    (∃ ops, Machine.Every step Returns (start 1) ops ∧
      (Machine.run step (start 1) ops).queue.droppedTotal ≠
        (Machine.run step (start 1) ops).discarded.length) ∧
    ∃ ops, Machine.Every step Returns (start 2) ops ∧
      ∃ old ∈ (Machine.run step (start 2) ops).discarded,
        ∃ held ∈ (Machine.run step (start 2) ops).queue.entries,
          held.serial < old.serial ∧ held.enqueuedAt < old.enqueuedAt := by
  refine ⟨⟨_, (run_enqueues 1 (2 ^ 64 + 1) .telemetry (.value .null) ⟨0⟩).2.2,
    (counter_saturates (2 ^ 64 + 1) (by omega)).ne⟩, ?_⟩
  exact ⟨returnedApart ++ [.enqueue .telemetry (.value .null) ⟨3⟩], by decide, reading 1,
    by decide, reading 0, by decide⟩

end QueueRun
end Argus
