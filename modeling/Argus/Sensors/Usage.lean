import Argus.Daemon.LifecycleAnomalies
import Argus.Daemon.Situation
import Argus.Lib.Pointwise
import Argus.Sensors.Proc

/-!
# Usage figures and their range

The percentages and the runaway detection subtract and add what the kernel's files say, as it stands
there. `usage_in_range_iff` says for which files and inventories every sum and difference is a
64-bit number, the percentages are percentages, and nothing that is missing looks like a host whose
memory is full.
-/

namespace Argus

open Checked (maxU64)
open Ieee (Datum)

/-! ### Runaway processes -/

/-- A process with its CPU time. -/
structure ProcessSample extends ProcessRecord where
  /-- User-mode and kernel-mode ticks, cumulative. -/
  utime : Nat
  stime : Nat

/-- A snapshot of every process with its CPU time, in the order of their pids. -/
structure SampledInventory where
  processes : List ProcessSample
  sorted : (processes.map fun sample => sample.pid).Pairwise (· < ·)

namespace SampledInventory

def get (inventory : SampledInventory) (pid : Nat) : Option ProcessSample :=
  Keyed.lookup (fun sample => sample.pid) inventory.processes pid

end SampledInventory

/-- What one process of the current snapshot comes to. The outer `none` is an overflow. -/
def runawayOf (prev : SampledInventory) (cpuTicksThreshold : Nat) (rec : ProcessSample) :
    Option (Option ProcessAnomaly) :=
  match prev.get rec.pid with
  | none => some none
  | some prevRec =>
      if prevRec.startTicks ≠ rec.startTicks then some none
      else do
        let prevCpu ← Checked.add prevRec.utime prevRec.stime
        let currCpu ← Checked.add rec.utime rec.stime
        let delta := currCpu - prevCpu
        if cpuTicksThreshold < delta then
          some (some ⟨.runaway, some rec.pid, rec.name ++ " consumed " ++ toString delta ++
            " CPU ticks in one interval (threshold " ++ toString cpuTicksThreshold ++ ")"⟩)
        else some none

/-- Detect runaway processes. `none` is an overflow. -/
def detectRunaway (prev curr : SampledInventory) (cpuTicksThreshold : Nat) :
    Option (List ProcessAnomaly) :=
  (curr.processes.mapM (runawayOf prev cpuTicksThreshold)).map List.reduceOption

/-! ### Memory -/

/-- A figure that the percentage is made of is not in the file. -/
def MemInfo.Lacks (text : String) : Prop :=
  MemInfo.given text "MemTotal" = none ∨ MemInfo.given text "MemAvailable" = none

/-- The usage of the memory is computed, a percentage, and not that of a full memory where a figure
is missing; and then no situation comes of it. -/
def MemoryReads (text : String) : Prop :=
  ∀ m, MemInfo.parse text = .ok m → ∃ used, m.usedPercent = some used ∧ 0 ≤ used ∧ used ≤ 100 ∧
    (MemInfo.Lacks text → used ≠ 100 ∧
      ∀ (readings : Readings) (threshold disk : Datum), readings.memory = some used →
        ∀ s ∈ situationsFrom readings ⟨threshold.clamp 50 99, disk⟩, s.signature ≠ memoryPressure)

/-- The file gives no memory at all, or how much of it is available, which is no more than all. -/
def AvailableGiven (text : String) : Prop :=
  (MemInfo.given text "MemTotal").getD 0 = 0 ∨
    ∃ available, MemInfo.given text "MemAvailable" = some available ∧
      available ≤ (MemInfo.given text "MemTotal").getD 0

theorem percent_range {part whole : Nat} (h : part ≤ whole) :
    0 ≤ (part / whole * 100 : ℚ) ∧ (part / whole * 100 : ℚ) ≤ 100 := by
  have hpart : (0 : ℚ) ≤ part / whole := by positivity
  have hratio : (part / whole : ℚ) ≤ 1 := div_le_one_of_le₀ (by exact_mod_cast h) (by positivity)
  constructor <;> linarith

/-- A threshold of the operator is at least one half, or NaN. -/
theorem not_ge_threshold (threshold : Datum) :
    (Datum.finite 0).ge (threshold.clamp 50 99) = false := by
  cases threshold with
  | nan => rfl
  | negInf | posInf =>
      simp only [Datum.clamp, Datum.ge]
      norm_num
  | finite q =>
      simp only [Datum.clamp, Datum.ge, decide_eq_false_iff_not, not_le]
      split_ifs <;> linarith

theorem no_pressure_of_zero {readings : Readings} {threshold disk : Datum} {s : Situation}
    (hmemory : readings.memory = some 0)
    (hs : s ∈ situationsFrom readings ⟨threshold.clamp 50 99, disk⟩) :
    s.signature ≠ memoryPressure := by
  simp only [situationsFrom, hmemory, not_ge_threshold, Bool.false_eq_true, if_false,
    List.append_nil] at hs
  rcases List.mem_append.mp hs with hs | hs
  · split at hs
    · rw [List.mem_singleton.mp hs]
      exact (by decide : hostHealth ≠ memoryPressure)
    · cases hs
  · split at hs
    · split_ifs at hs
      · rw [List.mem_singleton.mp hs]
        exact (by decide : diskPressure ≠ memoryPressure)
      · cases hs
    · cases hs

theorem parse_memInfo {text : String} {m : MemInfo} (h : MemInfo.parse text = .ok m) :
    m.memTotal = (MemInfo.given text "MemTotal").getD 0 ∧
      m.memAvailable = (MemInfo.given text "MemAvailable").getD 0 := by
  unfold MemInfo.parse at h
  split_ifs at h
  cases h
  exact ⟨rfl, rfl⟩

theorem memoryReads_iff (text : String) : MemoryReads text ↔ AvailableGiven text := by
  constructor
  · intro h
    by_cases htotal : (MemInfo.given text "MemTotal").getD 0 = 0
    · exact .inl htotal
    have hfigures : MemInfo.figures text ≠ [] := by
      intro hnone
      rw [MemInfo.given, hnone] at htotal
      exact htotal rfl
    obtain ⟨used, hused, -, -, hmissing⟩ := h _ (if_neg hfigures)
    rw [MemInfo.usedPercent, if_neg htotal] at hused
    dsimp only at hused
    cases havailable : MemInfo.given text "MemAvailable" with
    | none =>
        -- what is missing reads as no memory available
        rw [havailable, Option.getD_none, Checked.sub_of_le (Nat.zero_le _)] at hused
        refine absurd ?_ (hmissing (.inr havailable)).1
        rw [← Option.some.inj hused, Nat.sub_zero]
        have hne : (((MemInfo.given text "MemTotal").getD 0 : Nat) : ℚ) ≠ 0 :=
          Nat.cast_ne_zero.mpr htotal
        field_simp
    | some available =>
        refine .inr ⟨available, havailable, ?_⟩
        rw [havailable, Option.getD_some, Checked.sub] at hused
        split_ifs at hused with hle
        · exact hle
        · cases hused
  · rintro h m hparse
    obtain ⟨htotal, havailable⟩ := parse_memInfo hparse
    rw [MemInfo.usedPercent]
    split_ifs with hzero
    · exact ⟨0, rfl, le_refl _, by norm_num, fun _ => ⟨by norm_num,
        fun readings threshold disk hmemory s hs => no_pressure_of_zero hmemory hs⟩⟩
    · obtain ⟨available, hgiven, hle⟩ := h.resolve_left fun hnone => hzero (htotal.trans hnone)
      have hle' : m.memAvailable ≤ m.memTotal := by
        rwa [htotal, havailable, hgiven, Option.getD_some]
      rw [Checked.sub_of_le hle']
      obtain ⟨hnonneg, hhundred⟩ := percent_range (Nat.sub_le m.memTotal m.memAvailable)
      refine ⟨_, rfl, hnonneg, hhundred, fun hlacks => ?_⟩
      rcases hlacks with hlacks | hlacks
      · rw [hlacks] at htotal
        exact absurd htotal hzero
      · rw [hlacks] at hgiven
        cases hgiven

/-! ### Processors -/

/-- The time of the processors, and that part of it that they were not idle. -/
def CpuTimes.ticks (times : CpuTimes) : Nat :=
  times.user + times.nice + times.system + times.idle + times.iowait + times.irq + times.softirq +
    times.steal

def CpuTimes.busyTicks (times : CpuTimes) : Nat :=
  times.user + times.nice + times.system + times.irq + times.softirq + times.steal

/-- The utilization between two files is computed, and a percentage. -/
def CpuReads (before after : String) : Prop :=
  ∀ prev curr, CpuTimes.parse before = .ok prev → CpuTimes.parse after = .ok curr →
    ∃ used, curr.utilizationSince prev = some used ∧ 0 ≤ used ∧ used ≤ 100

/-- The times are 64-bit numbers; and when time went by, with more of it idle, then the processors
were not less busy than before. -/
structure CountersFit (prev curr : CpuTimes) : Prop where
  prev_fits : prev.ticks ≤ maxU64
  curr_fits : curr.ticks ≤ maxU64
  forward : prev.ticks < curr.ticks → prev.idle + prev.iowait < curr.idle + curr.iowait →
    prev.busyTicks ≤ curr.busyTicks

theorem CpuTimes.total_eq (times : CpuTimes) :
    times.total = if times.ticks ≤ maxU64 then some times.ticks else none := by
  have hsum : [times.user, times.nice, times.system, times.idle, times.iowait, times.irq,
      times.softirq, times.steal].sum = times.ticks := by
    simp only [List.sum_cons, List.sum_nil, CpuTimes.ticks]
    omega
  rw [CpuTimes.total, Checked.sum_eq, hsum]

theorem CpuTimes.idleTicks_eq (times : CpuTimes) (h : times.ticks ≤ maxU64) :
    times.idleTicks = some (times.idle + times.iowait) := by
  have hfits : times.idle + times.iowait ≤ maxU64 := by
    unfold CpuTimes.ticks at h
    omega
  rw [CpuTimes.idleTicks, Checked.sum_eq]
  simp [hfits]

theorem CpuTimes.ticks_eq (times : CpuTimes) :
    times.ticks = times.busyTicks + (times.idle + times.iowait) := by
  unfold CpuTimes.ticks CpuTimes.busyTicks
  omega

theorem utilizationSince_iff (prev curr : CpuTimes) :
    (∃ used, curr.utilizationSince prev = some used ∧ 0 ≤ used ∧ used ≤ 100) ↔
      CountersFit prev curr := by
  have hprev := prev.ticks_eq
  have hcurr := curr.ticks_eq
  by_cases hcurrfits : curr.ticks ≤ maxU64
  swap
  · refine iff_of_false ?_ fun h => hcurrfits h.curr_fits
    rintro ⟨used, hused, -⟩
    rw [CpuTimes.utilizationSince, curr.total_eq, if_neg hcurrfits] at hused
    cases hused
  by_cases hprevfits : prev.ticks ≤ maxU64
  swap
  · refine iff_of_false ?_ fun h => hprevfits h.prev_fits
    rintro ⟨used, hused, -⟩
    rw [CpuTimes.utilizationSince, curr.total_eq, prev.total_eq, if_pos hcurrfits,
      if_neg hprevfits] at hused
    cases hused
  have hutilization : curr.utilizationSince prev =
      if curr.ticks - prev.ticks = 0 then some 0
      else (Checked.sub (curr.ticks - prev.ticks)
        (curr.idle + curr.iowait - (prev.idle + prev.iowait))).map fun busy : Nat =>
          (busy / (curr.ticks - prev.ticks : Nat) * 100 : ℚ) := by
    rw [CpuTimes.utilizationSince, curr.total_eq, prev.total_eq, if_pos hcurrfits,
      if_pos hprevfits, curr.idleTicks_eq hcurrfits, prev.idleTicks_eq hprevfits]
    simp only [Option.bind_eq_bind, Option.bind_some]
    split_ifs
    · rfl
    · cases Checked.sub (curr.ticks - prev.ticks)
        (curr.idle + curr.iowait - (prev.idle + prev.iowait)) <;> rfl
  rw [hutilization]
  split_ifs with hzero
  · exact iff_of_true ⟨0, rfl, le_refl _, by norm_num⟩
      ⟨hprevfits, hcurrfits, fun hlt _ => absurd hzero (by omega)⟩
  · rw [Checked.sub]
    split_ifs with hle
    · refine iff_of_true ⟨_, rfl, percent_range (Nat.sub_le _ _)⟩
        ⟨hprevfits, hcurrfits, fun _ _ => by omega⟩
    · refine iff_of_false ?_ fun h => hle ?_
      · rintro ⟨used, hused, -⟩
        cases hused
      · have hforward := h.forward (by omega) (by omega)
        omega

theorem cpuReads_iff (before after : String) : CpuReads before after ↔
    ∀ prev curr, CpuTimes.parse before = .ok prev → CpuTimes.parse after = .ok curr →
      CountersFit prev curr :=
  forall₄_congr fun prev curr _ _ => utilizationSince_iff prev curr

/-! ### The inventories -/

/-- The times of a process that is in both snapshots are 64-bit numbers. -/
def TicksFit (prev curr : SampledInventory) : Prop :=
  ∀ rec ∈ curr.processes, ∀ old ∈ prev.processes, old.Same rec.toProcessRecord →
    old.utime + old.stime ≤ maxU64 ∧ rec.utime + rec.stime ≤ maxU64

variable {prev curr : SampledInventory} {rec old : ProcessSample}

theorem SampledInventory.get_eq_some_iff {pid : Nat} :
    prev.get pid = some old ↔ old ∈ prev.processes ∧ old.pid = pid :=
  Keyed.lookup_eq_some_iff (prev.sorted.imp Nat.ne_of_lt)

theorem runawayOf_isSome_iff (threshold : Nat) :
    (runawayOf prev threshold rec).isSome ↔
      ∀ old ∈ prev.processes, old.Same rec.toProcessRecord →
        old.utime + old.stime ≤ maxU64 ∧ rec.utime + rec.stime ≤ maxU64 := by
  unfold runawayOf
  cases hget : prev.get rec.pid with
  | none =>
      refine iff_of_true rfl fun old hold hsame => ?_
      exact absurd hsame.1 (Keyed.lookup_eq_none_iff.mp hget old hold)
  | some found =>
      obtain ⟨hfound, hpid⟩ := SampledInventory.get_eq_some_iff.mp hget
      have hunique (old : ProcessSample) (hold : old ∈ prev.processes)
          (hsame : old.Same rec.toProcessRecord) : old = found := by
        have holdget := SampledInventory.get_eq_some_iff.mpr ⟨hold, hsame.1⟩
        exact Option.some.inj (holdget.symm.trans hget)
      dsimp only
      split_ifs with hstart
      · refine iff_of_true rfl fun old hold hsame => ?_
        obtain rfl := hunique old hold hsame
        exact absurd hsame.2 hstart
      · have hsame : found.Same rec.toProcessRecord := ⟨hpid, not_not.mp hstart⟩
        constructor
        · intro h old hold holdsame
          obtain rfl := hunique old hold holdsame
          by_contra hover
          simp only [Checked.add, Option.bind_eq_bind] at h
          split_ifs at h with hprevfits hcurrfits
          · exact hover ⟨hprevfits, hcurrfits⟩
          all_goals cases h
        · intro h
          obtain ⟨hprevfits, hcurrfits⟩ := h found hfound hsame
          simp only [Checked.add_of_le hprevfits, Checked.add_of_le hcurrfits,
            Option.bind_eq_bind, Option.bind_some]
          split_ifs <;> rfl

theorem detectRunaway_iff (prev curr : SampledInventory) (threshold : Nat) :
    (∃ anomalies, detectRunaway prev curr threshold = some anomalies) ↔ TicksFit prev curr := by
  -- the detection overflows where that of one process does
  rw [← Option.isSome_iff_exists, detectRunaway, Option.isSome_map, Pointwise.mapM_isSome_iff]
  exact forall₂_congr fun rec _ => runawayOf_isSome_iff threshold

/-- Which inputs the usage figures are in range for: each of the three on its own. -/
theorem usage_in_range_iff (meminfo before after : String) (prev curr : SampledInventory)
    (threshold : Nat) :
    (MemoryReads meminfo ↔ AvailableGiven meminfo) ∧
    (CpuReads before after ↔
      ∀ prev curr, CpuTimes.parse before = .ok prev → CpuTimes.parse after = .ok curr →
        CountersFit prev curr) ∧
    ((∃ anomalies, detectRunaway prev curr threshold = some anomalies) ↔ TicksFit prev curr) :=
  ⟨memoryReads_iff meminfo, cpuReads_iff before after, detectRunaway_iff prev curr threshold⟩

/-! An old kernel does not tell how much memory is available. -/

def oldKernel : String := "MemTotal: 1000 kB\n"

/-- What is available was read before the memory was taken away. -/
def shrunk : String := "MemTotal: 1000 kB\nMemAvailable: 2000 kB\n"

theorem memory_misread : ¬ MemoryReads oldKernel ∧ ¬ MemoryReads shrunk := by
  rw [memoryReads_iff, memoryReads_iff, AvailableGiven, AvailableGiven]
  have hold : MemInfo.figures oldKernel = [("MemTotal", 1000)] := by decide
  have hshrunk : MemInfo.figures shrunk = [("MemTotal", 1000), ("MemAvailable", 2000)] := by decide
  constructor
  · simp [MemInfo.given, hold, List.lookup_cons]
  · simp [MemInfo.given, hshrunk, List.lookup_cons]

end Argus
