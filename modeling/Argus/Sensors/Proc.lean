import Argus.Sensors.Text
import Mathlib.Data.Rat.Defs
import Mathlib.Tactic.FieldSimp
import Mathlib.Tactic.Linarith

/-!
# What the kernel's files say of memory and processors

The readers of `/proc/meminfo` and `/proc/stat` take the figures that are there. Of a figure that is
missing nothing remains but a zero. The percentages are exact here; that they are rounded to a
double changes nothing at the bounds.
-/

namespace Argus

/-- The kernel's files could be read, and not be understood. -/
structure SensorError where
  name : String
  message : String
  deriving DecidableEq

/-! ### Memory -/

structure MemInfo where
  memTotal : Nat
  memFree : Nat
  memAvailable : Nat
  buffers : Nat
  cached : Nat
  swapTotal : Nat
  swapFree : Nat

namespace MemInfo

/-- Percentage of memory in use. `none` is an underflow. -/
def usedPercent (m : MemInfo) : Option ℚ :=
  if m.memTotal = 0 then some 0
  else (Checked.sub m.memTotal m.memAvailable).map fun used : Nat => (used / m.memTotal * 100 : ℚ)

/-- The key and the value of a line. -/
def figure (line : List Char) : Option (String × Nat) :=
  match line.span (· ≠ ':') with
  | (_, []) => none
  | (key, _ :: rest) => do
      -- the unit behind the value is ignored
      let value ← (words rest).head?
      let kib ← parseU64 value
      some (trim (.ofList key), kib)

/-- The figures of the file, in its order. -/
def figures (text : String) : List (String × Nat) := (lines text.toList).filterMap figure

/-- The value of a key: the last one that is given. -/
def given (text key : String) : Option Nat := (figures text).reverse.lookup key

/-- Parser over `/proc/meminfo` contents. -/
def parse (text : String) : Except SensorError MemInfo :=
  if figures text = [] then .error ⟨"host.meminfo", "no key/value lines found"⟩
  else
    .ok
      { memTotal := (given text "MemTotal").getD 0
        memFree := (given text "MemFree").getD 0
        memAvailable := (given text "MemAvailable").getD 0
        buffers := (given text "Buffers").getD 0
        cached := (given text "Cached").getD 0
        swapTotal := (given text "SwapTotal").getD 0
        swapFree := (given text "SwapFree").getD 0 }

end MemInfo

/-! ### Processors -/

/-- Time of the processors, in ticks. -/
structure CpuTimes where
  user : Nat
  nice : Nat
  system : Nat
  idle : Nat
  iowait : Nat
  irq : Nat
  softirq : Nat
  steal : Nat

namespace CpuTimes

/-- Time spent idle. `none` is an overflow, here and in the total. -/
def idleTicks (times : CpuTimes) : Option Nat := Checked.sum [times.idle, times.iowait]

def total (times : CpuTimes) : Option Nat :=
  Checked.sum [times.user, times.nice, times.system, times.idle, times.iowait, times.irq,
    times.softirq, times.steal]

/-- Utilization percentage over the interval from `prev`. -/
def utilizationSince (times prev : CpuTimes) : Option ℚ := do
  let totalDelta := (← times.total) - (← prev.total)
  if totalDelta = 0 then some 0
  else
    let idleDelta := (← times.idleTicks) - (← prev.idleTicks)
    let busy ← Checked.sub totalDelta idleDelta
    some (busy / totalDelta * 100)

def requiredTick (fields : List (List Char)) (i : Nat) : Except SensorError Nat :=
  match fields[i]?.bind parseU64 with
  | some tick => .ok tick
  | none => .error ⟨"host.cpu", "invalid cpu tick at field " ++ toString i⟩

def optionalTick (fields : List (List Char)) (i : Nat) : Nat := (fields[i]?.bind parseU64).getD 0

/-- Parser over `/proc/stat` contents: the first aggregate line. -/
def parse (text : String) : Except SensorError CpuTimes :=
  match (lines text.toList).find? ("cpu ".toList.isPrefixOf ·) with
  | none => .error ⟨"host.cpu", "no aggregate `cpu` line found"⟩
  | some line => do
      let fields := words line
      if fields.length < 5 then
        .error ⟨"host.cpu", "expected at least 4 time fields, got " ++ toString (fields.length - 1)⟩
      else
        let user ← requiredTick fields 1
        let nice ← requiredTick fields 2
        let system ← requiredTick fields 3
        let idle ← requiredTick fields 4
        .ok
          { user, nice, system, idle
            iowait := optionalTick fields 5
            irq := optionalTick fields 6
            softirq := optionalTick fields 7
            steal := optionalTick fields 8 }

end CpuTimes

end Argus
