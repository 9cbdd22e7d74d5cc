import Argus.Daemon.CloudUsage
import Mathlib.Data.Multiset.Bind

/-!
# What the usage batches add up to

A batch carries the totals of its records, where an unknown count adds nothing and is not a
zero. `sum_opt` keeps its left side when it is unknown: an unknown count that came first takes
the known ones that come after it along.

`usage_summed_iff` says which sequences of pushes, drains and requeues end with batches that are
the totals of their records.
-/

namespace Argus

open LedgerBuffer (usageOf batch)
open Custody (join joined)

/-! ### Totals of counts that may be unknown -/

/-- The sum of the counts that are known; unknown, where none is. -/
def knownSum (counts : Multiset (Option Nat)) : Option Nat :=
  if counts.filterMap id = 0 then none else some (counts.filterMap id).sum

/-- Two totals together. -/
def addKnown : Option Nat → Option Nat → Option Nat
  | some x, some y => some (x + y)
  | none, b => b
  | a, none => a

theorem knownSum_singleton (count : Option Nat) : knownSum {count} = count := by
  cases count with
  | none => rfl
  | some x => simp [knownSum, ← Multiset.cons_zero]

theorem knownSum_add (counts counts' : Multiset (Option Nat)) :
    knownSum (counts + counts') = addKnown (knownSum counts) (knownSum counts') := by
  unfold knownSum
  rw [Multiset.filterMap_add]
  by_cases hleft : counts.filterMap id = 0
  · by_cases hright : counts'.filterMap id = 0 <;> simp [hleft, hright, addKnown]
  · have hsome : counts.filterMap id + counts'.filterMap id ≠ 0 := fun h =>
      hleft (Multiset.le_zero.mp (h ▸ Multiset.le_add_right _ _))
    by_cases hright : counts'.filterMap id = 0
    · simp [hleft, hright, addKnown]
    · simp [hleft, hright, hsome, addKnown]

/-- A sum of totals is the total. -/
theorem knownSum_bind {α : Type} (parts : Multiset α) (counts : α → Multiset (Option Nat)) :
    knownSum (parts.bind counts) = knownSum (parts.map fun part => knownSum (counts part)) := by
  induction parts using Multiset.induction with
  | empty => rfl
  | cons part parts ih =>
      rw [Multiset.cons_bind, knownSum_add, ih, Multiset.map_cons, ← Multiset.singleton_add,
        knownSum_add, knownSum_singleton]

namespace UsageField

/-- The last number that the field's type has. -/
def last : UsageField → Nat
  | calls | unknownUsage => 2 ^ 32 - 1
  | promptTokens | completionTokens | totalTokens | durationMs => 2 ^ 64 - 1

end UsageField

namespace UsageSum

/-- A count of the batch. -/
def count (sum : UsageSum) : UsageField → Option Nat
  | .promptTokens => sum.promptTokens
  | .completionTokens => sum.completionTokens
  | .totalTokens => sum.totalTokens
  | .calls => some sum.calls
  | .unknownUsage => some sum.unknownUsage
  | .durationMs => some sum.durationMs

/-- A count joins another, in a type that ends with `last`: not a known one an unknown one, and
not past the end. -/
def JoinsCount (last : Nat) : Option Nat → Option Nat → Prop
  | none, some _ => False
  | some x, some y => x + y ≤ last
  | _, none => True

/-- Each count of the other batch joins. -/
def Joins (sum other : UsageSum) : Prop :=
  ∀ field : UsageField, JoinsCount field.last (sum.count field) (other.count field)

/-- What a merge makes of a count. -/
def mergeCount (last : Nat) : Option Nat → Option Nat → Option Nat
  | some x, some y => some (min (x + y) last)
  | a, _ => a

theorem sumOpt_eq : (a b : Option Nat) → sumOpt a b = mergeCount (2 ^ 64 - 1) a b
  | some _, some _ => rfl
  | none, _ => rfl
  | some _, none => rfl

theorem count_merge (sum other : UsageSum) (field : UsageField) :
    (sum.merge other).count field =
      mergeCount field.last (sum.count field) (other.count field) := by
  cases field with
  | promptTokens | completionTokens | totalTokens => exact sumOpt_eq _ _
  | calls | unknownUsage | durationMs => rfl

section

variable {last : Nat} {a b total : Option Nat}

/-- A count that joins is added. -/
theorem mergeCount_of_joins (h : JoinsCount last a b) : mergeCount last a b = addKnown a b := by
  rcases a with _ | x <;> rcases b with _ | y
  · rfl
  · cases h
  · rfl
  · exact congrArg some (Nat.min_eq_left h)

/-- What does not join is lost, and so is what was lost before. -/
theorem mergeCount_lt_of_not_joins (h : ¬ JoinsCount last a b) :
    mergeCount last a b < addKnown a b := by
  rcases a with _ | x <;> rcases b with _ | y
  · exact absurd trivial h
  · exact Option.none_lt_some
  · exact absurd trivial h
  · have hover : last < x + y := Nat.lt_of_not_le h
    simpa [mergeCount, addKnown] using hover

theorem mergeCount_lt (h : a < total) : mergeCount last a b < addKnown total b := by
  rcases total with _ | z
  · exact absurd h Option.not_lt_none
  · rcases a with _ | x <;> rcases b with _ | y
    · exact Option.none_lt_some
    · exact Option.none_lt_some
    · exact h
    · have hless : x < z := by simpa using h
      simp only [mergeCount, addKnown, Option.some_lt_some]
      omega

end

end UsageSum

/-! ### Runs -/

/-- The ledger buffer, the entries that were handed out and did not come back, and the records
pushed so far. -/
structure UsageStream where
  buffer : LedgerBuffer
  out : Multiset BufferedReport
  log : List UsageSum

inductive UsageEvent
  | pushUsage (entry : UsageSum)
  | drain (now : DateTime)
  /-- Entries come back. What was not handed out cannot. -/
  | requeue (entries : List BufferedReport)

namespace UsageStream

def start : UsageStream := ⟨.new, 0, []⟩

/-- A record as it is pushed: the batch of itself. -/
def recorded (s : UsageStream) (entry : UsageSum) : UsageSum :=
  { entry with records := [s.log.length] }

def step (s : UsageStream) : UsageEvent → UsageStream
  | .pushUsage entry => { s with
      buffer := s.buffer.pushUsage (s.recorded entry)
      log := s.log ++ [entry] }
  | .drain now =>
      let (drained, buffer) := s.buffer.drain now
      { s with buffer, out := s.out + drained }
  | .requeue entries =>
      if (entries : Multiset BufferedReport) ≤ s.out then
        { s with buffer := s.buffer.requeue entries, out := s.out - entries }
      else s

/-- The batches that are held or were handed out. -/
def batches (s : UsageStream) : Multiset UsageSum := s.buffer.usage + s.out.filterMap usageOf

/-- The records of a number of batches. -/
def recordsOf (batches : Multiset UsageSum) : Multiset Nat :=
  batches.bind fun sum => (sum.records : Multiset Nat)

/-- A count of a record. -/
def countOf (log : List UsageSum) (field : UsageField) (id : Nat) : Option Nat :=
  (log[id]?).bind fun record => record.count field

/-- A batch is the total of its records, and each of them is of its cycle and model. -/
structure Totals (log : List UsageSum) (sum : UsageSum) : Prop where
  counts : ∀ field, sum.count field =
    knownSum ((sum.records : Multiset Nat).map (countOf log field))
  key : ∀ id ∈ sum.records, ∃ record, log[id]? = some record ∧ sum.sameKey record = true

/-- Each record is in one batch, and the batches are the totals of their records. -/
structure Summed (s : UsageStream) : Prop where
  once : recordsOf s.batches = Multiset.range s.log.length
  totals : ∀ sum ∈ s.batches, Totals s.log sum

/-- For every cycle and model, the batches together are the total of the records pushed. -/
def SameTotals (s : UsageStream) : Prop :=
  ∀ (record : UsageSum) (field : UsageField),
    knownSum ((s.batches.filter fun sum => sum.sameKey record = true).map fun sum =>
        sum.count field) =
      knownSum ((s.log.filter fun entry => entry.sameKey record).map fun entry =>
        entry.count field : List (Option Nat))

/-- The batch joins the one of its cycle and model, if there is one. -/
def JoinsHeld (usage : List UsageSum) (sum : UsageSum) : Prop :=
  ∀ held ∈ usage.find? fun held => held.sameKey sum, held.Joins sum

/-- Every batch that an event merges joins. -/
def Joins (s : UsageStream) : UsageEvent → Prop
  | .pushUsage entry => JoinsHeld s.buffer.usage entry
  | .drain _ => True
  | .requeue entries => (entries : Multiset BufferedReport) ≤ s.out →
      Machine.Every join JoinsHeld s.buffer.usage (entries.filterMap usageOf)

/-! ### One merge -/

variable {log : List UsageSum} {usage sums : List UsageSum} {sum held : UsageSum}

theorem sameKey_iff {other : UsageSum} :
    sum.sameKey other = true ↔ sum.cycleId = other.cycleId ∧ sum.model = other.model := by
  simp [UsageSum.sameKey]

/-- A count of the batch is short of its records'. -/
def Short (log : List UsageSum) (sum : UsageSum) : Prop :=
  ∃ field, sum.count field < knownSum ((sum.records : Multiset Nat).map (countOf log field))

theorem Short.not_totals (h : Short log sum) : ¬ Totals log sum := by
  obtain ⟨field, hless⟩ := h
  intro htotals
  rw [← htotals.counts field] at hless
  cases hcount : sum.count field with
  | none => simp [hcount] at hless
  | some x => simp [hcount] at hless

/-- What the records of two batches come to, once they are one. -/
theorem knownSum_merge (log : List UsageSum) (held sum : UsageSum) (field : UsageField) :
    knownSum (((held.merge sum).records : Multiset Nat).map (countOf log field)) =
      addKnown (knownSum ((held.records : Multiset Nat).map (countOf log field)))
        (knownSum ((sum.records : Multiset Nat).map (countOf log field))) := by
  rw [← knownSum_add, ← Multiset.map_add, Multiset.coe_add]
  rfl

theorem totals_merge (hheld : Totals log held) (hsum : Totals log sum)
    (hkey : held.sameKey sum = true) (h : held.Joins sum) : Totals log (held.merge sum) where
  counts := fun field => by
    rw [UsageSum.count_merge, UsageSum.mergeCount_of_joins (h field), knownSum_merge,
      ← hheld.counts field, ← hsum.counts field]
  key := fun id hid => by
    rcases List.mem_append.mp hid with hold | hnew
    · exact hheld.key id hold
    · obtain ⟨record, hrecord, hsame⟩ := hsum.key id hnew
      rw [sameKey_iff] at hkey hsame
      exact ⟨record, hrecord, sameKey_iff.mpr ⟨hkey.1.trans hsame.1, hkey.2.trans hsame.2⟩⟩

theorem short_merge (hheld : Totals log held) (hsum : Totals log sum) (h : ¬ held.Joins sum) :
    Short log (held.merge sum) := by
  obtain ⟨field, hfield⟩ := not_forall.mp h
  refine ⟨field, ?_⟩
  rw [UsageSum.count_merge, knownSum_merge, ← hheld.counts field, ← hsum.counts field]
  exact UsageSum.mergeCount_lt_of_not_joins hfield

theorem Short.merge (h : Short log held) (hsum : Totals log sum) : Short log (held.merge sum) := by
  obtain ⟨field, hless⟩ := h
  refine ⟨field, ?_⟩
  rw [UsageSum.count_merge, knownSum_merge, ← hsum.counts field]
  exact UsageSum.mergeCount_lt hless

/-! ### What joins the buffer -/

theorem joinsHeld_cons_of_key (hkey : held.sameKey sum = true) :
    JoinsHeld (held :: usage) sum ↔ held.Joins sum := by
  have hfind : (held :: usage).find? (fun held => held.sameKey sum) = some held :=
    List.find?_cons_of_pos hkey
  simp [JoinsHeld, hfind]

theorem joinsHeld_cons_of_not_key (hkey : ¬ held.sameKey sum = true) :
    JoinsHeld (held :: usage) sum ↔ JoinsHeld usage sum := by
  have hfind : (held :: usage).find? (fun held => held.sameKey sum) =
      usage.find? fun held => held.sameKey sum := List.find?_cons_of_neg hkey
  simp [JoinsHeld, hfind]

/-- Where the batches are the totals of their records, they stay so, or one falls short. -/
theorem totals_join (hsum : Totals log sum) (husage : ∀ held ∈ usage, Totals log held) :
    (JoinsHeld usage sum → ∀ held ∈ join usage sum, Totals log held) ∧
      (¬ JoinsHeld usage sum → ∃ held ∈ join usage sum, Short log held) := by
  induction usage with
  | nil =>
      have hjoins : JoinsHeld [] sum := nofun
      refine ⟨fun _ held hmem => ?_, fun h => absurd hjoins h⟩
      obtain rfl := List.mem_singleton.mp hmem
      exact hsum
  | cons held rest ih =>
      obtain ⟨hheld, hrest⟩ := List.forall_mem_cons.mp husage
      by_cases hkey : held.sameKey sum = true
      · rw [joinsHeld_cons_of_key hkey, join, batch, if_pos hkey]
        constructor
        · intro h
          exact List.forall_mem_cons.mpr ⟨totals_merge hheld hsum hkey h, hrest⟩
        · intro h
          exact ⟨_, List.mem_cons_self, short_merge hheld hsum h⟩
      · obtain ⟨hkeep, hlose⟩ := ih hrest
        rw [joinsHeld_cons_of_not_key hkey, join, batch, if_neg hkey]
        constructor
        · exact fun h => List.forall_mem_cons.mpr ⟨hheld, hkeep h⟩
        · intro h
          obtain ⟨short, hmem, hshort⟩ := hlose h
          exact ⟨short, List.mem_cons_of_mem _ hmem, hshort⟩

/-- A batch that falls short stays in the buffer, and short. -/
theorem short_join (hsum : Totals log sum) (h : ∃ held ∈ usage, Short log held) :
    ∃ held ∈ join usage sum, Short log held := by
  obtain ⟨short, hmem, hshort⟩ := h
  induction usage with
  | nil => cases hmem
  | cons held rest ih =>
      rw [join, batch]
      split_ifs with hkey
      · rcases List.mem_cons.mp hmem with rfl | hrest
        · exact ⟨_, List.mem_cons_self, hshort.merge hsum⟩
        · exact ⟨short, List.mem_cons_of_mem _ hrest, hshort⟩
      · rcases List.mem_cons.mp hmem with rfl | hrest
        · exact ⟨_, List.mem_cons_self, hshort⟩
        · obtain ⟨other, hother, hless⟩ := ih hrest
          exact ⟨other, List.mem_cons_of_mem _ hother, hless⟩

theorem short_joined (hsums : ∀ sum ∈ sums, Totals log sum)
    (h : ∃ held ∈ usage, Short log held) : ∃ held ∈ joined usage sums, Short log held := by
  induction sums generalizing usage with
  | nil => exact h
  | cons sum sums ih =>
      obtain ⟨hsum, hrest⟩ := List.forall_mem_cons.mp hsums
      exact ih hrest (short_join hsum h)

/-- The batches are the totals of their records afterwards exactly where each joins. -/
theorem totals_joined_iff (hsums : ∀ sum ∈ sums, Totals log sum)
    (husage : ∀ held ∈ usage, Totals log held) :
    (∀ held ∈ joined usage sums, Totals log held) ↔ Machine.Every join JoinsHeld usage sums := by
  induction sums generalizing usage with
  | nil => exact iff_of_true husage trivial
  | cons sum sums ih =>
      obtain ⟨hsum, hrest⟩ := List.forall_mem_cons.mp hsums
      obtain ⟨hkeep, hlose⟩ := totals_join hsum husage
      by_cases hjoins : JoinsHeld usage sum
      · exact (ih hrest (hkeep hjoins)).trans (and_iff_right hjoins).symm
      · refine iff_of_false (fun hall => ?_) fun h => hjoins h.1
        obtain ⟨short, hmem, hshort⟩ := short_joined hrest (hlose hjoins)
        exact hshort.not_totals (hall short hmem)

/-! ### The records -/

theorem recordsOf_add (batches batches' : Multiset UsageSum) :
    recordsOf (batches + batches') = recordsOf batches + recordsOf batches' :=
  Multiset.add_bind batches batches' _

theorem recordsOf_cons (sum : UsageSum) (usage : List UsageSum) :
    recordsOf (sum :: usage : List UsageSum) = (sum.records : Multiset Nat) + recordsOf usage :=
  Multiset.cons_bind sum usage _

theorem recordsOf_join (usage : List UsageSum) (sum : UsageSum) :
    recordsOf (join usage sum : List UsageSum) =
      recordsOf usage + (sum.records : Multiset Nat) := by
  induction usage with
  | nil => exact (recordsOf_cons sum []).trans (add_comm _ _)
  | cons held rest ih =>
      rw [join, batch]
      split_ifs
      · rw [recordsOf_cons, recordsOf_cons, add_right_comm, Multiset.coe_add]
        rfl
      · rw [join] at ih
        rw [recordsOf_cons, recordsOf_cons, ih, add_assoc]

theorem recordsOf_joined (usage sums : List UsageSum) :
    recordsOf (joined usage sums : List UsageSum) = recordsOf usage + recordsOf sums := by
  induction sums generalizing usage with
  | nil => exact (add_zero _).symm
  | cons sum sums ih =>
      have hjoined : recordsOf (joined (join usage sum) sums : List UsageSum) = _ := ih _
      rw [recordsOf_cons, ← add_assoc, ← recordsOf_join]
      exact hjoined

theorem countOf_append {id : Nat} (h : id < log.length) (entry : UsageSum) (field : UsageField) :
    countOf (log ++ [entry]) field id = countOf log field id := by
  rw [countOf, countOf, List.getElem?_append_left h]

/-- A batch stays the total of its records when another record is pushed. -/
theorem Totals.append (h : Totals log sum) (entry : UsageSum) : Totals (log ++ [entry]) sum where
  counts := fun field => by
    rw [h.counts field]
    refine congrArg knownSum (Multiset.map_congr rfl fun id hid => ?_)
    obtain ⟨record, hrecord, -⟩ := h.key id hid
    exact (countOf_append (List.getElem?_eq_some_iff.mp hrecord).1 entry field).symm
  key := fun id hid => by
    obtain ⟨record, hrecord, hsame⟩ := h.key id hid
    refine ⟨record, ?_, hsame⟩
    rw [List.getElem?_append_left (List.getElem?_eq_some_iff.mp hrecord).1, hrecord]

theorem totals_recorded (s : UsageStream) (entry : UsageSum) :
    Totals (s.log ++ [entry]) (s.recorded entry) where
  counts := fun field => by
    have hcount : countOf (s.log ++ [entry]) field s.log.length = entry.count field := by
      simp [countOf]
    have hrecords : ((s.recorded entry).records : Multiset Nat) = {s.log.length} := rfl
    rw [hrecords, Multiset.map_singleton, knownSum_singleton, hcount]
    cases field <;> rfl
  key := fun id hid => by
    obtain rfl := List.mem_singleton.mp hid
    exact ⟨entry, by simp, by simp [UsageSum.sameKey, recorded]⟩

/-! ### The steps -/

variable {s : UsageStream} {e : UsageEvent}

/-- What the runs keep besides the totals. -/
structure Sound (s : UsageStream) : Prop where
  actions : s.buffer.actions = []
  traces : s.buffer.traces = []
  kinds : ∀ entry ∈ s.out, entry.kind = .tokenUsage

theorem sound_start : Sound start := ⟨rfl, rfl, nofun⟩

theorem drain_eq (h : s.Sound) (now : DateTime) : s.step (.drain now) =
    { s with
      buffer := ⟨[], [], s.buffer.droppedTraces, []⟩
      out := s.out + ((s.buffer.usage.map (LedgerBuffer.materialize now)).map .attempt :
        List BufferedReport) } := by
  simp [step, LedgerBuffer.drain, h.actions, h.traces]

theorem batches_drain (h : s.Sound) (now : DateTime) :
    (s.step (.drain now)).batches = s.batches := by
  have husage : ((s.buffer.usage.map (LedgerBuffer.materialize now)).map
      BufferedReport.attempt).filterMap usageOf = s.buffer.usage := by
    rw [List.map_map, List.filterMap_map]
    exact List.filterMap_some
  rw [drain_eq h, batches, batches, Multiset.filterMap_add, Multiset.filterMap_coe, husage]
  exact (Multiset.zero_add _).trans (Multiset.add_comm _ _)

theorem requeue_eq (h : s.Sound) {entries : List BufferedReport}
    (hout : (entries : Multiset BufferedReport) ≤ s.out) : s.step (.requeue entries) =
    { s with
      buffer := ⟨[], [], s.buffer.droppedTraces, joined s.buffer.usage (entries.filterMap usageOf)⟩
      out := s.out - entries } := by
  have hkind (entry : BufferedReport) (hentry : entry ∈ entries) : entry.kind = .tokenUsage :=
    h.kinds entry (Multiset.mem_of_le hout hentry)
  have hactions : entries.filter (fun entry => entry.kind == .actionLedger) = [] :=
    List.filter_eq_nil_iff.mpr fun entry hentry => by simp [hkind entry hentry]
  have htraces : entries.filter (fun entry => entry.kind == .brainTrace) = [] :=
    List.filter_eq_nil_iff.mpr fun entry hentry => by simp [hkind entry hentry]
  have hjoined : (entries.filterMap usageOf).foldl (fun usage sum => batch sum usage)
      s.buffer.usage = joined s.buffer.usage (entries.filterMap usageOf) := rfl
  simp [step, hout, LedgerBuffer.requeue, hactions, htraces, hjoined, h.actions, h.traces]

theorem Sound.step (h : s.Sound) (e : UsageEvent) : (s.step e).Sound := by
  cases e with
  | pushUsage entry => exact ⟨h.actions, h.traces, h.kinds⟩
  | drain now =>
      rw [drain_eq h]
      refine ⟨rfl, rfl, fun entry hentry => ?_⟩
      rcases Multiset.mem_add.mp hentry with hold | hnew
      · exact h.kinds entry hold
      · obtain ⟨fresh, hfresh, rfl⟩ := List.mem_map.mp hnew
        obtain ⟨sum, -, rfl⟩ := List.mem_map.mp hfresh
        rfl
  | requeue entries =>
      by_cases hout : (entries : Multiset BufferedReport) ≤ s.out
      · rw [requeue_eq h hout]
        exact ⟨rfl, rfl, fun entry hentry =>
          h.kinds entry (Multiset.mem_of_le (Multiset.sub_le_self _ _) hentry)⟩
      · have hsame : s.step (.requeue entries) = s := if_neg hout
        rwa [hsame]

theorem summed_pushUsage_iff (h : s.Summed) (entry : UsageSum) :
    (s.step (.pushUsage entry)).Summed ↔ s.Joins (.pushUsage entry) := by
  have hbatches : (s.step (.pushUsage entry)).batches =
      (join s.buffer.usage (s.recorded entry) : List UsageSum) + s.out.filterMap usageOf := rfl
  have hold (sum : UsageSum) (hsum : sum ∈ s.batches) : Totals (s.log ++ [entry]) sum :=
    (h.totals sum hsum).append entry
  have husage (held : UsageSum) (hheld : held ∈ s.buffer.usage) : Totals (s.log ++ [entry]) held :=
    hold held (Multiset.mem_add.mpr (.inl hheld))
  obtain ⟨hkeep, hlose⟩ := totals_join (totals_recorded s entry) husage
  by_cases hjoins : JoinsHeld s.buffer.usage (s.recorded entry)
  · refine iff_of_true ⟨?_, fun sum hsum => ?_⟩ hjoins
    · have honce := h.once
      rw [batches, recordsOf_add] at honce
      have hlog : (s.step (.pushUsage entry)).log.length = s.log.length + 1 :=
        List.length_append
      have hnew : ((s.recorded entry).records : Multiset Nat) = {s.log.length} := rfl
      rw [hbatches, recordsOf_add, recordsOf_join, add_right_comm, honce, hnew, hlog,
        Multiset.range_succ, ← Multiset.singleton_add, add_comm]
    · rw [hbatches] at hsum
      rcases Multiset.mem_add.mp hsum with hheld | hout
      · exact hkeep hjoins sum hheld
      · exact hold sum (Multiset.mem_add.mpr (.inr hout))
  · refine iff_of_false (fun hsummed => ?_) hjoins
    obtain ⟨short, hmem, hshort⟩ := hlose hjoins
    refine hshort.not_totals (hsummed.totals short ?_)
    rw [hbatches]
    exact Multiset.mem_add.mpr (.inl hmem)

theorem summed_requeue_iff (hsound : s.Sound) (h : s.Summed) (entries : List BufferedReport) :
    (s.step (.requeue entries)).Summed ↔ s.Joins (.requeue entries) := by
  by_cases hout : (entries : Multiset BufferedReport) ≤ s.out
  · have hstep := requeue_eq hsound hout
    -- the entries that come back, and those that stay out
    have hsplit : s.out.filterMap usageOf =
        (entries.filterMap usageOf : List UsageSum) + (s.out - entries).filterMap usageOf := by
      rw [← Multiset.filterMap_coe, ← Multiset.filterMap_add, add_tsub_cancel_of_le hout]
    have hlog : (s.step (.requeue entries)).log = s.log := by rw [hstep]
    have hbatches : (s.step (.requeue entries)).batches =
        (joined s.buffer.usage (entries.filterMap usageOf) : List UsageSum) +
          (s.out - entries).filterMap usageOf := by rw [hstep, batches]
    have hback (sum : UsageSum) (hsum : sum ∈ entries.filterMap usageOf) : Totals s.log sum := by
      refine h.totals sum (Multiset.mem_add.mpr (.inr ?_))
      rw [hsplit]
      exact Multiset.mem_add.mpr (.inl hsum)
    have hiff := totals_joined_iff hback fun held hheld =>
      h.totals held (Multiset.mem_add.mpr (.inl hheld))
    have hjoins : s.Joins (.requeue entries) ↔
        Machine.Every join JoinsHeld s.buffer.usage (entries.filterMap usageOf) :=
      forall_prop_of_true hout
    rw [hjoins, ← hiff]
    constructor
    · intro hsummed held hheld
      have htotals := hsummed.totals held (hbatches ▸ Multiset.mem_add.mpr (.inl hheld))
      rwa [hlog] at htotals
    · intro hall
      refine ⟨?_, fun sum hsum => ?_⟩
      · have honce := h.once
        rw [batches, hsplit, recordsOf_add, recordsOf_add] at honce
        rw [hbatches, hlog, recordsOf_add, recordsOf_joined, ← honce, add_assoc]
      · rw [hbatches] at hsum
        rw [hlog]
        rcases Multiset.mem_add.mp hsum with hheld | hstays
        · exact hall sum hheld
        · refine h.totals sum (Multiset.mem_add.mpr (.inr ?_))
          rw [hsplit]
          exact Multiset.mem_add.mpr (.inr hstays)
  · have hsame : s.step (.requeue entries) = s := if_neg hout
    rw [hsame]
    exact iff_of_true h fun hle => absurd hle hout

theorem summed_step_iff (hsound : s.Sound) (h : s.Summed) (e : UsageEvent) :
    (s.step e).Summed ↔ s.Joins e := by
  cases e with
  | pushUsage entry => exact summed_pushUsage_iff h entry
  | requeue entries => exact summed_requeue_iff hsound h entries
  | drain now =>
      refine iff_of_true ?_ trivial
      have hbatches := batches_drain hsound now
      have hlog : (s.step (.drain now)).log = s.log := rfl
      exact ⟨by rw [hbatches, hlog, h.once], by rw [hbatches, hlog]; exact h.totals⟩

/-! ### All batches of a cycle and model -/

theorem map_getElem?_range (log : List UsageSum) :
    (List.range log.length).map (fun id => log[id]?) = log.map some := by
  refine List.ext_getElem (by simp) fun id hid _ => ?_
  have hlt : id < log.length := by simpa using hid
  simp [hlt]

/-- The records of the batches of a key are the records of that key. -/
theorem records_of_key {batches : Multiset UsageSum} (record : UsageSum)
    (h : ∀ sum ∈ batches, Totals log sum) :
    (recordsOf (batches.filter fun sum => sum.sameKey record = true)).map (fun id => log[id]?) =
      ((recordsOf batches).map fun id => log[id]?).filter fun entry =>
        entry.any (fun entry => entry.sameKey record) = true := by
  induction batches using Multiset.induction with
  | empty => rfl
  | cons sum batches ih =>
      obtain ⟨hsum, hrest⟩ := Multiset.forall_mem_cons.mp h
      have hentry (id : Nat) (hid : id ∈ sum.records) :
          log[id]?.any (fun entry => entry.sameKey record) = sum.sameKey record := by
        obtain ⟨entry, hlog, hsame⟩ := hsum.key id hid
        obtain ⟨hcycle, hmodel⟩ := sameKey_iff.mp hsame
        simp [hlog, UsageSum.sameKey, hcycle, hmodel]
      have hcons (batches : Multiset UsageSum) : recordsOf (sum ::ₘ batches) =
          (sum.records : Multiset Nat) + recordsOf batches := Multiset.cons_bind sum batches _
      rw [hcons, Multiset.map_add, Multiset.filter_add, ← ih hrest]
      by_cases hkey : sum.sameKey record = true
      · have hall : ((sum.records : Multiset Nat).map fun id => log[id]?).filter (fun entry =>
            entry.any (fun entry => entry.sameKey record) = true) =
            (sum.records : Multiset Nat).map fun id => log[id]? := by
          refine Multiset.filter_eq_self.mpr fun entry hmem => ?_
          obtain ⟨id, hid, rfl⟩ := Multiset.mem_map.mp hmem
          rw [hentry id hid, hkey]
        rw [hall, Multiset.filter_cons_of_pos (p := fun sum : UsageSum => sum.sameKey record = true)
          _ hkey, hcons, Multiset.map_add]
      · have hnone : ((sum.records : Multiset Nat).map fun id => log[id]?).filter (fun entry =>
            entry.any (fun entry => entry.sameKey record) = true) = 0 := by
          refine Multiset.filter_eq_nil.mpr fun entry hmem => ?_
          obtain ⟨id, hid, rfl⟩ := Multiset.mem_map.mp hmem
          rwa [hentry id hid]
        rw [hnone, Multiset.zero_add,
          Multiset.filter_cons_of_neg (p := fun sum : UsageSum => sum.sameKey record = true) _ hkey]

theorem Summed.sameTotals (h : s.Summed) : s.SameTotals := by
  intro record field
  have hcounts : (s.batches.filter fun sum => sum.sameKey record = true).map
      (fun sum => sum.count field) =
      (s.batches.filter fun sum => sum.sameKey record = true).map fun sum =>
        knownSum ((sum.records : Multiset Nat).map (countOf s.log field)) :=
    Multiset.map_congr rfl fun sum hsum =>
      (h.totals sum (Multiset.mem_filter.mp hsum).1).counts field
  have hrecords : ((recordsOf s.batches).map fun id => s.log[id]?) =
      (s.log.map some : List (Option UsageSum)) := by
    rw [h.once, ← map_getElem?_range]
    rfl
  have hkeys := records_of_key record h.totals
  rw [hrecords] at hkeys
  rw [hcounts, ← knownSum_bind, ← Multiset.map_bind]
  have hmap := congrArg (Multiset.map fun entry => entry.bind fun entry => entry.count field) hkeys
  rw [Multiset.map_map] at hmap
  refine congrArg knownSum (hmap.trans ?_)
  rw [Multiset.filter_coe, Multiset.map_coe, List.filter_map, List.map_map]
  simp only [Function.comp_def, Option.bind_some, Option.any_some, Bool.decide_eq_true]

/-- The batches are the totals of their records, all along a run, exactly as long as every batch
that is merged joins: no known count an unknown one, and none past the end of its type. -/
theorem usage_summed_iff (events : List UsageEvent) :
    (∀ n, (Machine.run step start (events.take n)).Summed ∧
        (Machine.run step start (events.take n)).SameTotals) ↔
      Machine.Every step Joins start events :=
  Machine.every_true.forall_take_iff (I := fun s : UsageStream => s.Sound ∧ s.Summed)
    (R := fun s : UsageStream => s.Summed ∧ s.SameTotals) ⟨sound_start, rfl, nofun⟩
    (fun _ h => ⟨h.2, h.2.sameTotals⟩)
    (fun _ e h _ he => ⟨h.1.step e, (summed_step_iff h.1 h.2 e).mpr he⟩)
    fun _ e h _ hnext => (summed_step_iff h.1 h.2 e).mp hnext.1

/-- A call of which nothing is known, and then one of seven tokens, in one cycle: of the seven
nothing is left. -/
theorem usage_not_summed : ¬ (Machine.run step start ([none, some 7].map fun tokens =>
    .pushUsage ⟨0, none, none, none, none, tokens, 1, 0, 0, []⟩)).SameTotals := by
  intro h
  have htotal := h ⟨0, none, none, none, none, none, 0, 0, 0, []⟩ .totalTokens
  revert htotal
  decide

end UsageStream

end Argus
