import Argus.Daemon.Observe
import Argus.Lib.CrashSafe
import Argus.Sensors.Process
import Argus.Sensors.Usage
import Mathlib.Data.List.Sort
import Mathlib.Data.Set.Insert

/-!
# The process inventory

The snapshotter lists `/proc` and reads the files of one process after another, while processes come
and go. So a snapshot is of no one moment: what is read of a process is what the kernel showed under
its pid when that file was read, and another process may have the pid by then. `Between` is what a
snapshot comes to nonetheless.

A process whose `status` cannot be read as text, for its name is no UTF-8, is in no inventory. It is
not `Readable`, in the words of this module, and the results are of those that are.

`reports_real` carries this to the observer: whatever comes and goes, replaying what it reported
over the first inventory gives the last, and what it reports is so.
-/

namespace Argus

open Interaction Prog Process

namespace ProcSnapshotter

/-! ### The snapshotter -/

/-- A single process as observed in one tick, with all its metrics. -/
structure Sample extends ProcessSample where
  uid : Nat
  threads : Nat
  vmRssKib : Nat
  /-- Effective capabilities bitmap. -/
  capEff : Nat

/-- A snapshot of every process, keyed by pid. -/
structure Processes where
  samples : List Sample
  sorted : (samples.map fun sample => sample.pid).Pairwise (· < ·)

namespace Processes

theorem sorted_nil : (([] : List Sample).map fun sample => sample.pid).Pairwise (· < ·) := .nil

def empty : Processes := ⟨[], sorted_nil⟩

theorem sorted_insert (processes : Processes) (sample : Sample) :
    ((processes.samples.filter (fun other => other.pid < sample.pid) ++
      sample :: processes.samples.filter fun other => sample.pid < other.pid).map
        fun sample => sample.pid).Pairwise (· < ·) := by
  have hkept (p : Sample → Bool) :
      ((processes.samples.filter p).map fun sample => sample.pid).Pairwise (· < ·) :=
    processes.sorted.sublist (List.filter_sublist.map _)
  rw [List.map_append, List.map_cons, List.pairwise_append, List.pairwise_cons]
  refine ⟨hkept _, ⟨fun pid hpid => ?_, hkept _⟩, fun pid hpid other hother => ?_⟩
  · obtain ⟨later, hlater, rfl⟩ := List.mem_map.mp hpid
    simpa using (List.mem_filter.mp hlater).2
  · obtain ⟨earlier, hearlier, rfl⟩ := List.mem_map.mp hpid
    have hlt : earlier.pid < sample.pid := by simpa using (List.mem_filter.mp hearlier).2
    rcases List.mem_cons.mp hother with rfl | hother
    · exact hlt
    · obtain ⟨later, hlater, rfl⟩ := List.mem_map.mp hother
      exact hlt.trans (by simpa using (List.mem_filter.mp hlater).2)

/-- `BTreeMap::insert`: a sample takes the place of one of the same pid. -/
def insert (processes : Processes) (sample : Sample) : Processes :=
  ⟨_, processes.sorted_insert sample⟩

/-- What the samples are compared by. -/
def inventory (processes : Processes) : ProcessInventory where
  processes := processes.samples.map fun sample => sample.toProcessRecord
  sorted := by simpa [Function.comp_def] using processes.sorted

end Processes

/-- A file of a process. -/
inductive File
  | status
  | stat
  | cmdline
  | cgroup

inductive Call
  | readDir
  | read (pid : Nat) (file : File)

/-- A directory is its names, and a file its text; there is none of a file that cannot be read, or
that is no UTF-8. -/
@[reducible] def Reply : Call → Type
  | .readDir => Except String (List String)
  | .read .. => Option (List Char)

abbrev SnapshotM := Prog Reply

def read (pid : Nat) (file : File) : SnapshotM (Option (List Char)) := call (Call.read pid file)

def readDir : SnapshotM (Except String (List String)) := call Call.readDir

/-- The numeric entries, sorted. -/
def pidsOf (names : List String) : List Nat :=
  (names.filterMap fun name => parseU32 name.toList).insertionSort (· ≤ ·)

/-- What was read of a process. -/
def sampleOf (st : ProcessStatus) (pst : ProcessStat) (cmdline cgroup : List String) :
    Sample where
  pid := st.pid
  ppid := st.ppid
  name := st.name
  state := st.state
  startTicks := pst.startTicks
  cmdline := cmdline
  cgroup := cgroup
  utime := pst.utime
  stime := pst.stime
  uid := st.uid
  threads := st.threads
  vmRssKib := st.vmRssKib
  capEff := st.capEff

/-- What a file that may be missing is read as. -/
def statOf (text : Option (List Char)) : ProcessStat :=
  match parseStat (text.getD []) with
  | .ok pst => pst
  | .error _ => {}

/-- The rest of a process whose status was read. -/
def sampled (pid : Nat) (st : ProcessStatus) : SnapshotM (Option Sample) := do
  let stat ← read pid .stat
  let cmdline ← read pid .cmdline
  let cgroup ← read pid .cgroup
  pure (some (sampleOf st (statOf stat) (parseCmdline (cmdline.getD []))
    (parseCgroup (cgroup.getD []))))

/-- Read one process. -/
def snapshot (pid : Nat) : SnapshotM (Option Sample) := do
  let status ← read pid .status
  match status.bind fun text => (parse text).toOption with
  | none => pure none
  | some st => sampled pid st

def collect : List Nat → Processes → SnapshotM Processes
  | [], processes => pure processes
  | pid :: pids, processes => do
      match ← snapshot pid with
      | some sample => collect pids (processes.insert sample)
      | none => collect pids processes

/-- Snapshot every process into an inventory. -/
def inventory : SnapshotM (Except String Processes) := do
  match ← readDir with
  | .error e => pure (.error e)
  | .ok names => do
      let processes ← collect (pidsOf names) .empty
      pure (.ok processes)

/-! ### What the kernel shows -/

/-- A process, and its files where they can be read as text. -/
structure Shown where
  task : Task
  fits : task.Fits
  status : Option (StatusOf task)
  stat : Option (StatOf task)
  cmdlineReadable : Bool
  cgroupReadable : Bool

def Shown.file (shown : Shown) : File → Option (List Char)
  | .status => shown.status.map fun status => status.text
  | .stat => shown.stat.map StatOf.text
  | .cmdline => if shown.cmdlineReadable then some shown.task.cmdlineText else none
  | .cgroup => if shown.cgroupReadable then some shown.task.cgroupText else none

/-- What the kernel shows under a pid, at each time. -/
structure Kernel where
  under : Nat → Nat → Option Shown
  pid : ∀ now pid shown, under now pid = some shown → shown.task.pid = pid

namespace Kernel

variable (kernel : Kernel)

def text (now pid : Nat) (file : File) : Option (List Char) :=
  (kernel.under now pid).bind fun shown => shown.file file

/-- The kernel makes a file up when it is read. A directory takes some time to list, and has the
pids that are there all the while. -/
def answers : Answers Reply Nat
  | .readDir, since, .ok names, now => since ≤ now ∧
      ∀ pid, (∀ at_, since ≤ at_ → at_ ≤ now → (kernel.under at_ pid).isSome = true) →
        toString pid ∈ names
  | .readDir, since, .error _, now => since ≤ now
  | .read pid file, since, reply, now => since ≤ now ∧ reply = kernel.text now pid file

/-- There is a process of the pid, and its `status` can be read as text. -/
def Readable (now pid : Nat) : Prop :=
  ∃ shown, kernel.under now pid = some shown ∧ shown.status.isSome = true

def ReadableThroughout (since now pid : Nat) : Prop :=
  ∀ at_, since ≤ at_ → at_ ≤ now → kernel.Readable at_ pid

/-- The pid was not there to be read, at some time. -/
def Missed (since now pid : Nat) : Prop :=
  ∃ at_, since ≤ at_ ∧ at_ ≤ now ∧ ¬ kernel.Readable at_ pid

/-- What a file says of whatever process has the pid, or what stands for a file that cannot be
read. -/
def readAt {β : Type} (file : File) (value : Task → β) (missing : β) (now pid : Nat) : β :=
  (((kernel.under now pid).filter fun shown => (shown.file file).isSome).map
    fun shown => value shown.task).getD missing

def statAt : Nat → Nat → ProcessStat := kernel.readAt .stat Task.stat {}

def cmdlineAt : Nat → Nat → List String := kernel.readAt .cmdline Task.cmdline []

def cgroupAt : Nat → Nat → List String := kernel.readAt .cgroup Task.cgroup []

/-- The sample is what the kernel showed of its pid, one file after another. -/
def Taken (since now : Nat) (sample : Sample) : Prop :=
  ∃ first second third fourth shown, since ≤ first ∧ first ≤ second ∧ second ≤ third ∧
    third ≤ fourth ∧ fourth ≤ now ∧ kernel.under first sample.pid = some shown ∧
    shown.status.isSome = true ∧
    sample = sampleOf shown.task.status (kernel.statAt second sample.pid)
      (kernel.cmdlineAt third sample.pid) (kernel.cgroupAt fourth sample.pid)

/-- What a snapshot comes to that was begun and ended at these times. -/
structure Between (since now : Nat) (processes : Processes) : Prop where
  taken : ∀ sample ∈ processes.samples, kernel.Taken since now sample
  complete : ∀ pid, kernel.ReadableThroughout since now pid →
    ∃ sample ∈ processes.samples, sample.pid = pid

end Kernel

/-! ### What a snapshot comes to -/

section Snapshot

variable {kernel : Kernel} {since now later pid : Nat} {sample : Sample}
  {processes : Processes}

theorem mem_insert {other : Sample} : other ∈ (processes.insert sample).samples ↔
    other = sample ∨ other ∈ processes.samples ∧ other.pid ≠ sample.pid := by
  simp only [Processes.insert, List.mem_append, List.mem_cons, List.mem_filter, decide_eq_true_eq]
  constructor
  · rintro (⟨hmem, hlt⟩ | rfl | ⟨hmem, hlt⟩)
    · exact .inr ⟨hmem, hlt.ne⟩
    · exact .inl rfl
    · exact .inr ⟨hmem, hlt.ne'⟩
  · rintro (rfl | ⟨hmem, hne⟩)
    · exact .inr (.inl rfl)
    · rcases Nat.lt_or_gt_of_ne hne with hlt | hlt
      · exact .inl ⟨hmem, hlt⟩
      · exact .inr (.inr ⟨hmem, hlt⟩)

theorem mem_pidsOf {names : List String} (h : toString pid ∈ names) (hfits : pid ≤ 4294967295) :
    pid ∈ pidsOf names := by
  have hparse : parseU32 (toString pid).toList = some pid := by
    have hdigits : (toString pid).toList = Nat.toDigits 10 pid := by
      rw [Nat.toString_eq_repr, Nat.repr, String.toList_ofList]
    rw [hdigits, parseU32_toDigits hfits]
  rw [pidsOf, List.mem_insertionSort]
  exact List.mem_filterMap.mpr ⟨_, h, hparse⟩

theorem Kernel.Missed.mono (h : kernel.Missed since now pid) (hle : now ≤ later) :
    kernel.Missed since later pid := by
  obtain ⟨at_, hsince, hnow, hread⟩ := h
  exact ⟨at_, hsince, hnow.trans hle, hread⟩

theorem Kernel.Taken.mono (h : kernel.Taken since now sample) (hle : now ≤ later) :
    kernel.Taken since later sample := by
  obtain ⟨t₁, t₂, t₃, t₄, shown, h₁, h₂, h₃, h₄, h₅, hrest⟩ := h
  exact ⟨t₁, t₂, t₃, t₄, shown, h₁, h₂, h₃, h₄, h₅.trans hle, hrest⟩

theorem Kernel.Taken.earlier {earlier : Nat} (h : kernel.Taken since now sample)
    (hle : earlier ≤ since) : kernel.Taken earlier now sample := by
  obtain ⟨t₁, t₂, t₃, t₄, shown, h₁, hrest⟩ := h
  exact ⟨t₁, t₂, t₃, t₄, shown, hle.trans h₁, hrest⟩

theorem of_text {β : Type} {file : File} {value : Task → β} {missing : β}
    {f : Option (List Char) → β} (hnone : f none = missing)
    (hsome : ∀ (shown : Shown) text, shown.file file = some text →
      f (some text) = value shown.task) :
    f (kernel.text now pid file) = kernel.readAt file value missing now pid := by
  unfold Kernel.text Kernel.readAt
  cases hunder : kernel.under now pid with
  | none => exact hnone
  | some shown =>
      rw [Option.bind_some]
      cases hfile : shown.file file with
      | none => simpa [Option.filter, hfile] using hnone
      | some text => simpa [Option.filter, hfile] using hsome shown text hfile

theorem statOf_text : statOf (kernel.text now pid .stat) = kernel.statAt now pid := by
  refine of_text rfl fun shown text htext => ?_
  obtain ⟨stat, -, rfl⟩ := Option.map_eq_some_iff.mp htext
  rw [statOf, Option.getD_some, parseStat_stat shown.fits stat]

theorem parseCmdline_text :
    parseCmdline ((kernel.text now pid .cmdline).getD []) = kernel.cmdlineAt now pid := by
  refine of_text (f := fun text => parseCmdline (text.getD [])) rfl fun shown text htext => ?_
  obtain ⟨-, htext⟩ := Option.ite_none_right_eq_some.mp htext
  obtain rfl := Option.some.inj htext
  exact parseCmdline_cmdlineText shown.fits

theorem parseCgroup_text :
    parseCgroup ((kernel.text now pid .cgroup).getD []) = kernel.cgroupAt now pid := by
  refine of_text (f := fun text => parseCgroup (text.getD [])) rfl fun shown text htext => ?_
  obtain ⟨-, htext⟩ := Option.ite_none_right_eq_some.mp htext
  obtain rfl := Option.some.inj htext
  exact parseCgroup_cgroupText shown.fits

/-- A status that can be read is the process's own, and is understood. -/
theorem parse_text_status : ((kernel.text now pid .status).bind fun text => (parse text).toOption) =
    ((kernel.under now pid).filter fun shown => shown.status.isSome).map
      fun shown => shown.task.status := by
  unfold Kernel.text
  cases hunder : kernel.under now pid with
  | none => rfl
  | some shown =>
      rw [Option.bind_some, Shown.file]
      cases hstatus : shown.status with
      | none => simp [Option.filter, hstatus]
      | some status =>
          rw [Option.map_some, Option.bind_some, parse_status shown.fits status]
          simp [Option.filter, hstatus, Except.toOption]

/-- What one process is read as. -/
structure Kernel.Sampled (kernel : Kernel) (since pid : Nat) (r : Option Sample)
    (now : Nat) : Prop where
  order : since ≤ now
  taken : ∀ sample ∈ r, sample.pid = pid ∧ kernel.Taken since now sample
  missed : r = none → kernel.Missed since now pid

theorem safe_sampled {shown : Shown} (hle : since ≤ now)
    (hunder : kernel.under now pid = some shown) (hstatus : shown.status.isSome = true) :
    Safe kernel.answers (fun _ => True) (kernel.Sampled since pid)
      (sampled pid shown.task.status) now := by
  refine safe_call_bind.mpr ⟨trivial, fun stat t₂ hstat => safe_call_bind.mpr
    ⟨trivial, fun cmdline t₃ hcmdline => safe_call_bind.mpr ⟨trivial, fun cgroup t₄ hcgroup =>
      safe_pure.mpr ⟨trivial, ?_⟩⟩⟩⟩
  obtain ⟨h₂, rfl⟩ := hstat
  obtain ⟨h₃, rfl⟩ := hcmdline
  obtain ⟨h₄, rfl⟩ := hcgroup
  rw [statOf_text, parseCmdline_text, parseCgroup_text]
  have hpid : shown.task.pid = pid := kernel.pid now pid shown hunder
  refine ⟨hle.trans (h₂.trans (h₃.trans h₄)), fun sample hsample => ?_, nofun⟩
  have hsample := Option.mem_some_iff.mp hsample
  have hsame : sample.pid = pid := hsample ▸ hpid
  refine ⟨hsame, now, t₂, t₃, t₄, shown, hle, h₂, h₃, h₄, le_rfl, ?_, hstatus, ?_⟩
  · rw [hsame]
    exact hunder
  · rw [hsame]
    exact hsample.symm

theorem safe_snapshot :
    Safe kernel.answers (fun _ => True) (kernel.Sampled since pid) (snapshot pid) since := by
  refine safe_call_bind.mpr ⟨trivial, fun status now hstatus => ?_⟩
  obtain ⟨hle, rfl⟩ := hstatus
  simp only [parse_text_status]
  cases hread : (kernel.under now pid).filter fun shown => shown.status.isSome with
  | none =>
      refine safe_pure.mpr ⟨trivial, hle, nofun, fun _ => ⟨now, hle, le_rfl, fun hreadable => ?_⟩⟩
      obtain ⟨shown, hunder, hstatus⟩ := hreadable
      simp [hunder, Option.filter, hstatus] at hread
  | some shown =>
      obtain ⟨hunder, hstatus⟩ := Option.filter_eq_some_iff.mp hread
      exact safe_sampled hle hunder hstatus

/-- What was read up to a point of a snapshot, and which pids were asked for. -/
structure Kernel.SoFar (kernel : Kernel) (since : Nat) (done : List Nat) (processes : Processes)
    (now : Nat) : Prop where
  order : since ≤ now
  taken : ∀ sample ∈ processes.samples, kernel.Taken since now sample
  asked : ∀ pid ∈ done, kernel.Missed since now pid ∨ ∃ sample ∈ processes.samples, sample.pid = pid

theorem Kernel.SoFar.sampled {done : List Nat} {r : Option Sample}
    (h : kernel.SoFar since done processes now) (hr : kernel.Sampled now pid r later) :
    kernel.SoFar since (done ++ [pid])
      (match r with | some sample => processes.insert sample | none => processes) later := by
  obtain ⟨hle, hsample, hmissed⟩ := hr
  have hasked (other : Nat) (hother : other ∈ done) : kernel.Missed since later other ∨
      ∃ sample ∈ processes.samples, sample.pid = other :=
    (h.asked other hother).imp_left fun hmissed => hmissed.mono hle
  cases r with
  | none =>
      refine ⟨h.order.trans hle, fun sample hmem => (h.taken sample hmem).mono hle,
        fun other hother => ?_⟩
      rcases List.mem_append.mp hother with hother | hother
      · exact hasked other hother
      · obtain rfl := List.mem_singleton.mp hother
        obtain ⟨at_, hnow, hread⟩ := hmissed rfl
        exact .inl ⟨at_, h.order.trans hnow, hread⟩
  | some sample =>
      obtain ⟨rfl, htaken⟩ := hsample sample rfl
      refine ⟨h.order.trans hle, fun other hmem => ?_, fun other hother => ?_⟩
      · rcases mem_insert.mp hmem with rfl | ⟨hmem, -⟩
        · exact htaken.earlier h.order
        · exact (h.taken other hmem).mono hle
      · by_cases heq : other = sample.pid
        · exact .inr ⟨sample, mem_insert.mpr (.inl rfl), heq.symm⟩
        · have hother : other ∈ done := by simpa [heq] using hother
          refine (hasked other hother).imp_right fun hkept => ?_
          obtain ⟨kept, hkept, rfl⟩ := hkept
          exact ⟨kept, mem_insert.mpr (.inr ⟨hkept, heq⟩), rfl⟩

theorem safe_collect {pids done : List Nat} (h : kernel.SoFar since done processes now) :
    Safe kernel.answers (fun _ => True) (kernel.SoFar since (done ++ pids))
      (collect pids processes) now := by
  induction pids generalizing done processes now with
  | nil => exact ⟨trivial, by rwa [List.append_nil]⟩
  | cons pid pids ih =>
      refine safe_snapshot.bind fun r later hr => ?_
      have hnext := ih (h.sampled hr)
      rw [List.append_assoc] at hnext
      cases r with
      | some sample => exact hnext
      | none => exact hnext

theorem safe_inventory : Safe kernel.answers (fun _ => True)
    (fun r now => since ≤ now ∧ ∀ processes, r = .ok processes →
      kernel.Between since now processes) inventory since := by
  refine ⟨trivial, fun listing t₁ hlisting => ?_⟩
  cases listing with
  | error e => exact ⟨trivial, hlisting, nofun⟩
  | ok names =>
      obtain ⟨h₁, hlisted⟩ := hlisting
      have hstart : kernel.SoFar t₁ [] .empty t₁ := ⟨le_rfl, nofun, nofun⟩
      refine (safe_collect hstart).bind fun processes now hfar => ?_
      refine ⟨trivial, h₁.trans hfar.order, fun other hother => ?_⟩
      obtain rfl := Except.ok.inj hother
      refine ⟨fun sample hsample => (hfar.taken sample hsample).earlier h₁, fun pid hread => ?_⟩
      -- the pid was there all the time that the directory took to list
      have hname : toString pid ∈ names := by
        refine hlisted pid fun at_ hsince hlater => ?_
        obtain ⟨shown, hunder, -⟩ := hread at_ hsince (hlater.trans hfar.order)
        rw [hunder]
        rfl
      obtain ⟨shown, hunder, -⟩ := hread t₁ h₁ hfar.order
      have hfits : pid ≤ 4294967295 := kernel.pid _ _ _ hunder ▸ shown.fits.pid
      refine (hfar.asked pid (mem_pidsOf hname hfits)).resolve_left fun hmissed => ?_
      obtain ⟨at_, hsince, hlater, hnot⟩ := hmissed
      exact hnot (hread at_ (h₁.trans hsince) hlater)

/-- Whatever comes and goes while a snapshot is taken. -/
theorem snapshot_between (h : Reaches kernel.answers inventory since (some (.ok processes)) now) :
    since ≤ now ∧ kernel.Between since now processes := by
  obtain ⟨hle, hbetween⟩ := (safe_inventory.reaches h).2 _ rfl
  exact ⟨hle, hbetween processes rfl⟩

/-- A process that shows the same all the while, in all its files, is recorded as it is. -/
theorem Kernel.Between.exact {shown : Shown} (h : kernel.Between since now processes)
    (hsame : ∀ at_, since ≤ at_ → at_ ≤ now → kernel.under at_ pid = some shown)
    (hfiles : ∀ file, (shown.file file).isSome = true) :
    sampleOf shown.task.status shown.task.stat shown.task.cmdline shown.task.cgroup ∈
      processes.samples := by
  have hstatus : shown.status.isSome = true := by
    simpa [Shown.file] using hfiles .status
  have hread {β : Type} {file : File} {value : Task → β} {missing : β} {at_ : Nat}
      (hsince : since ≤ at_) (hnow : at_ ≤ now) :
      kernel.readAt file value missing at_ pid = value shown.task := by
    simp [Kernel.readAt, hsame at_ hsince hnow, Option.filter, hfiles file]
  obtain ⟨sample, hmem, rfl⟩ := h.complete pid fun at_ hsince hnow =>
    ⟨shown, hsame at_ hsince hnow, hstatus⟩
  obtain ⟨t₁, t₂, t₃, t₄, other, h₁, h₂, h₃, h₄, h₅, hunder, -, htaken⟩ := h.taken sample hmem
  obtain rfl := Option.some.inj
    ((hsame t₁ h₁ (h₂.trans (h₃.trans (h₄.trans h₅)))).symm.trans hunder)
  rw [Kernel.statAt, Kernel.cmdlineAt, Kernel.cgroupAt,
    hread (h₁.trans h₂) (h₃.trans (h₄.trans h₅)), hread (h₁.trans (h₂.trans h₃)) (h₄.trans h₅),
    hread (h₁.trans (h₂.trans (h₃.trans h₄))) h₅] at htaken
  exact htaken ▸ hmem

/-- Where a pid is of one process, the sample is of that process, and has its start time unless its
`stat` could not be read. -/
theorem Kernel.Taken.startTicks (h : kernel.Taken since now sample) {start : Nat}
    (hone : ∀ at_, since ≤ at_ → at_ ≤ now → ∀ shown, kernel.under at_ sample.pid = some shown →
      shown.task.startTicks = start) : sample.startTicks = start ∨ sample.startTicks = 0 := by
  obtain ⟨t₁, t₂, t₃, t₄, shown, h₁, h₂, h₃, h₄, h₅, -, -, hsample⟩ := h
  have hstart : sample.startTicks = (kernel.statAt t₂ sample.pid).startTicks :=
    congrArg (fun sample => sample.startTicks) hsample
  rw [hstart, Kernel.statAt, Kernel.readAt]
  cases hunder : kernel.under t₂ sample.pid with
  | none => exact .inr rfl
  | some other =>
      have hother := hone t₂ (h₁.trans h₂) (h₃.trans (h₄.trans h₅)) other hunder
      by_cases hstat : (other.file .stat).isSome
      · left
        simpa [Option.filter, hstat, Task.stat] using hother
      · right
        simp [Option.filter, hstat]

/-- A snapshot has every process that could be read all the while, and what it has was shown. A
process that showed the same all the while, with all its files, is in it with the kernel's figures,
its name, its arguments and its cgroups. -/
theorem snapshot_truthful (h : Reaches kernel.answers inventory since (some (.ok processes)) now) :
    kernel.Between since now processes ∧
      ∀ pid shown, (∀ at_, since ≤ at_ → at_ ≤ now → kernel.under at_ pid = some shown) →
        (∀ file, (shown.file file).isSome = true) →
          sampleOf shown.task.status shown.task.stat shown.task.cmdline shown.task.cgroup ∈
            processes.samples := by
  have hbetween := (snapshot_between h).2
  exact ⟨hbetween, fun pid shown hsame hfiles => hbetween.exact hsame hfiles⟩

end Snapshot

/-! #### A worker that comes -/

/-- A kernel at which time stands still while a snapshot is taken. -/
def serve (kernel : Kernel) (names : List String) : (op : Call) → Nat → Reply op × Nat
  | .readDir, now => (.ok names, now)
  | .read pid file, now => (kernel.text now pid file, now)

/-- Its name has a parenthesis and a line feed, and one of its arguments is empty. -/
def worker : Task where
  pid := 7
  ppid := 1
  comm := "w) 1\n".toList
  state := 'S'
  uid := 0
  threads := 1
  vmRssKib := 0
  capEff := 0
  utime := 5
  stime := 2
  startTicks := 100
  args := ["worker".toList, [], "--fast".toList]
  memberships := ["0::/system.slice/worker.service".toList]

def workerStatus : StatusOf worker where
  fields := [("Name", "w) 1\\n".toList), ("State", "S (sleeping)".toList), ("Pid", ['7']),
    ("PPid", ['1']), ("Uid", "0 0 0 0".toList), ("Threads", ['1']), ("CapEff", ['0'])]
  nonempty := by simp
  keys := by decide
  values := by decide
  name := by decide +kernel
  state := by decide +kernel
  pid := by decide +kernel
  ppid := by decide +kernel
  uid := by decide +kernel
  threads := by decide +kernel
  vmRssKib := .inr (by decide +kernel)
  capEff := ⟨['0'], by decide +kernel⟩

def workerStat : StatOf worker where
  rest := " S 1 7 7 0 -1 4194304 0 0 0 0 5 2 0 0 20 0 1 0 100 0".toList
  kernels := by decide
  fields := by decide +kernel
  utime := by decide +kernel
  stime := by decide +kernel
  startTicks := by decide +kernel

def shownWorker : Shown where
  task := worker
  fits := by constructor <;> decide
  status := some workerStatus
  stat := some workerStat
  cmdlineReadable := true
  cgroupReadable := true

/-- There is a worker from time 2 on. -/
def workerKernel : Kernel where
  under now pid := if 2 ≤ now ∧ pid = 7 then some shownWorker else none
  pid := by
    intro now pid shown h
    obtain ⟨⟨-, hpid⟩, hsome⟩ := Option.ite_none_right_eq_some.mp h
    obtain rfl := Option.some.inj hsome
    exact hpid.symm

theorem workerKernel_under {now pid : Nat} {shown : Shown}
    (h : workerKernel.under now pid = some shown) : pid = 7 :=
  (workerKernel.pid now pid shown h).symm.trans (by
    obtain ⟨-, hsome⟩ := Option.ite_none_right_eq_some.mp h
    exact congrArg (fun shown => shown.task.pid) (Option.some.inj hsome).symm)

theorem serve_workerKernel (op : Call) (now : Nat) : workerKernel.answers op now
    (serve workerKernel ["7", "self"] op now).1 (serve workerKernel ["7", "self"] op now).2 := by
  cases op with
  | readDir =>
      refine ⟨le_rfl, fun pid halive => ?_⟩
      obtain ⟨shown, hunder⟩ := Option.isSome_iff_exists.mp (halive now le_rfl le_rfl)
      rw [workerKernel_under hunder]
      exact List.mem_cons_self
  | read pid file => exact ⟨le_rfl, rfl⟩

theorem exec_serve_time {α : Type} (kernel : Kernel) (names : List String) (p : SnapshotM α)
    (now : Nat) : (exec (serve kernel names) p now).2 = now := by
  induction p with
  | ret a => rfl
  | request op next ih =>
      cases op with
      | readDir => exact ih _
      | read pid file => exact ih _

theorem exec_inventory (kernel : Kernel) (names : List String) (now : Nat) :
    (exec (serve kernel names) inventory now).1 =
      .ok (exec (serve kernel names) (collect (pidsOf names) .empty) now).1 := by
  change (exec (serve kernel names) (collect (pidsOf names) .empty >>=
    fun processes => pure (Except.ok processes)) now).1 = _
  rw [exec_bind]
  rfl

/-- The processes at a time. -/
def workersAt (now : Nat) : Processes :=
  (exec (serve workerKernel ["7", "self"]) (collect (pidsOf ["7", "self"]) .empty) now).1

theorem reaches_workersAt (now : Nat) :
    Reaches workerKernel.answers inventory now (some (.ok (workersAt now))) now := by
  have h := reaches_exec serve_workerKernel inventory now
  rwa [exec_serve_time, exec_inventory] at h

theorem snapshot_truthful_worker : workerKernel.Between 2 2 (workersAt 2) ∧
    sampleOf worker.status worker.stat worker.cmdline worker.cgroup ∈ (workersAt 2).samples ∧
    worker.status.name = "w) 1\\n" ∧ worker.stat = ⟨5, 2, 100⟩ ∧
    worker.cmdline = ["worker", "--fast"] ∧
    worker.cgroup = ["0::/system.slice/worker.service"] := by
  obtain ⟨hbetween, hexact⟩ := snapshot_truthful (reaches_workersAt 2)
  have hsame : ∀ at_, 2 ≤ at_ → at_ ≤ 2 → workerKernel.under at_ 7 = some shownWorker :=
    fun at_ hsince _ => if_pos ⟨hsince, rfl⟩
  have hfiles : ∀ file, (shownWorker.file file).isSome = true := by
    intro file
    cases file <;> rfl
  exact ⟨hbetween, hexact 7 shownWorker hsame hfiles, by decide +kernel, rfl, by decide +kernel,
    by decide +kernel⟩

/-! ### What the observer reports -/

/-- The pids that are present after a change. -/
def present (pids : Set Nat) : LifecycleChange → Set Nat
  | .started pid .. => Insert.insert pid pids
  | .exited pid _ => pids \ {pid}
  | .changed .. => pids

def pids (inventory : ProcessInventory) : Set Nat :=
  {pid | ∃ rec ∈ inventory.processes, rec.pid = pid}

/-- A run of the observer: time passes, and a tick takes a snapshot, or fails to. -/
inductive Ticks (kernel : Kernel) : Nat → Observer → List LifecycleChange → Nat → Observer → Prop
  | nil {now : Nat} {observer : Observer} : Ticks kernel now observer [] now observer
  | tick {before since now later : Nat} {observer observer' : Observer} {processes : Processes}
      {changes : List LifecycleChange} : before ≤ since →
      Reaches kernel.answers inventory since (some (.ok processes)) now →
      Ticks kernel now (observer.tick processes.inventory).2 changes later observer' →
      Ticks kernel before observer
        ((observer.tick processes.inventory).1.map Prod.fst ++ changes) later observer'
  | failed {before since now later : Nat} {observer observer' : Observer} {e : String}
      {changes : List LifecycleChange} : before ≤ since →
      Reaches kernel.answers inventory since (some (.error e)) now →
      Ticks kernel now observer changes later observer' →
      Ticks kernel before observer changes later observer'

/-- What is reported of a pid is so: it was not there to be read, and then it was, or the other way
round. -/
def Real (kernel : Kernel) (since now : Nat) : LifecycleChange → Prop
  | .started pid name ppid => ∃ before after shown, since ≤ before ∧ before ≤ after ∧ after ≤ now ∧
      ¬ kernel.Readable before pid ∧ kernel.under after pid = some shown ∧
      shown.status.isSome = true ∧ shown.task.status.name = name ∧ shown.task.ppid = ppid
  | .exited pid name => ∃ before after shown, since ≤ before ∧ before ≤ after ∧ after ≤ now ∧
      kernel.under before pid = some shown ∧ shown.status.isSome = true ∧
      shown.task.status.name = name ∧ ¬ kernel.Readable after pid
  | .changed .. => True

section Reports

variable {kernel : Kernel} {start since now later : Nat} {prev curr : ProcessInventory}
  {processes : Processes} {observer observer' : Observer} {changes : List LifecycleChange}

theorem pids_iff {pid : Nat} : pid ∈ pids curr ↔ curr.get pid ≠ none := by
  rw [ne_eq, ProcessInventory.get, Keyed.lookup_eq_none_iff]
  simp [pids]

theorem present_started (rec : ProcessRecord) (s : Set Nat) :
    (startedOrChanged prev rec).elim s (present s) =
      if prev.get rec.pid = none then Insert.insert rec.pid s else s := by
  unfold startedOrChanged
  cases hget : prev.get rec.pid with
  | none => simp [present]
  | some old =>
      dsimp only
      cases (changedFields old rec).isEmpty <;> simp [present]

theorem present_exited (rec : ProcessRecord) (s : Set Nat) :
    (exitedFrom curr rec).elim s (present s) =
      if curr.get rec.pid = none then s \ {rec.pid} else s := by
  unfold exitedFrom
  cases hget : curr.get rec.pid <;> simp [present]

theorem foldl_filterMap_cons (f : ProcessRecord → Option LifecycleChange) (rec : ProcessRecord)
    (records : List ProcessRecord) (s : Set Nat) :
    ((rec :: records).filterMap f).foldl present s =
      (records.filterMap f).foldl present ((f rec).elim s (present s)) := by
  cases hrec : f rec with
  | none => rw [List.filterMap_cons_none hrec, Option.elim_none]
  | some change => rw [List.filterMap_cons_some hrec, List.foldl_cons, Option.elim_some]

/-- Of the records whose pids were not there before, the pids are added. -/
theorem foldl_started (records : List ProcessRecord) (s : Set Nat) :
    (records.filterMap (startedOrChanged prev)).foldl present s =
      s ∪ {pid | prev.get pid = none ∧ ∃ rec ∈ records, rec.pid = pid} := by
  induction records generalizing s with
  | nil => simp
  | cons rec records ih =>
      rw [foldl_filterMap_cons, present_started, ih]
      ext pid
      by_cases hget : prev.get rec.pid = none
      · by_cases heq : rec.pid = pid
        · subst heq
          simp [hget]
        · simp [hget, heq, Ne.symm heq]
      · by_cases heq : rec.pid = pid
        · subst heq
          simp [hget]
        · simp [hget, heq]

/-- Of the records whose pids are there no longer, the pids are taken away. -/
theorem foldl_exited (records : List ProcessRecord) (s : Set Nat) :
    (records.filterMap (exitedFrom curr)).foldl present s =
      s \ {pid | curr.get pid = none ∧ ∃ rec ∈ records, rec.pid = pid} := by
  induction records generalizing s with
  | nil => simp
  | cons rec records ih =>
      rw [foldl_filterMap_cons, present_exited, ih]
      ext pid
      by_cases hget : curr.get rec.pid = none
      · by_cases heq : rec.pid = pid
        · subst heq
          simp [hget]
        · simp [hget, heq, Ne.symm heq]
      · by_cases heq : rec.pid = pid
        · subst heq
          simp [hget]
        · simp [hget, heq]

/-- Replaying a diff gives the pids of the later inventory. -/
theorem foldl_diff : (diff prev curr).foldl present (pids prev) = pids curr := by
  rw [diff, List.foldl_append, foldl_started, foldl_exited]
  ext pid
  have hcurr : (∃ rec ∈ curr.processes, rec.pid = pid) ↔ curr.get pid ≠ none := pids_iff
  have hprev : (∃ rec ∈ prev.processes, rec.pid = pid) ↔ prev.get pid ≠ none := pids_iff
  simp only [Set.mem_sdiff, Set.mem_union, Set.mem_ofPred_eq, pids_iff, hcurr, hprev]
  tauto

/-- The inventory is of a snapshot that was begun at some time and has ended. -/
def Holding (kernel : Kernel) (start now : Nat) (inventory : ProcessInventory) : Prop :=
  ∃ since processes, start ≤ since ∧ since ≤ now ∧ kernel.Between since now processes ∧
    inventory = processes.inventory

theorem Holding.mono (h : Holding kernel start now prev) (hle : now ≤ later) :
    Holding kernel start later prev := by
  obtain ⟨since, processes, hstart, hsince, hbetween, rfl⟩ := h
  refine ⟨since, processes, hstart, hsince.trans hle,
    ⟨fun sample hsample => (hbetween.taken sample hsample).mono hle, fun pid hread => ?_⟩, rfl⟩
  exact hbetween.complete pid fun at_ hat hnow => hread at_ hat (hnow.trans hle)

/-- A pid that is in the inventory was there to be read. -/
theorem Holding.read {rec : ProcessRecord} (h : Holding kernel start now prev)
    (hrec : rec ∈ prev.processes) : ∃ at_ shown, start ≤ at_ ∧ at_ ≤ now ∧
      kernel.under at_ rec.pid = some shown ∧ shown.status.isSome = true ∧
      shown.task.status.name = rec.name ∧ shown.task.ppid = rec.ppid := by
  obtain ⟨since, processes, hstart, -, hbetween, rfl⟩ := h
  obtain ⟨sample, hsample, rfl⟩ := List.mem_map.mp hrec
  obtain ⟨t₁, t₂, t₃, t₄, shown, h₁, h₂, h₃, h₄, h₅, hunder, hstatus, htaken⟩ :=
    hbetween.taken sample hsample
  have hname := congrArg (fun sample => sample.name) htaken
  have hppid := congrArg (fun sample => sample.ppid) htaken
  exact ⟨t₁, shown, hstart.trans h₁, h₂.trans (h₃.trans (h₄.trans h₅)), hunder, hstatus,
    hname.symm, hppid.symm⟩

/-- A pid that is not in the inventory was not there all the time. -/
theorem Holding.missed {pid : Nat} (h : Holding kernel start now prev)
    (hget : prev.get pid = none) : kernel.Missed start now pid := by
  obtain ⟨since, processes, hstart, -, hbetween, rfl⟩ := h
  by_contra hnever
  have hread : kernel.ReadableThroughout since now pid := by
    intro at_ hsince hnow
    by_contra hnot
    exact hnever ⟨at_, hstart.trans hsince, hnow, hnot⟩
  obtain ⟨sample, hsample, rfl⟩ := hbetween.complete pid hread
  exact pids_iff.mp ⟨_, List.mem_map_of_mem hsample, rfl⟩ hget

theorem Real.mono {change : LifecycleChange} (h : Real kernel start now change)
    (hle : now ≤ later) : Real kernel start later change := by
  cases change with
  | started pid name ppid =>
      obtain ⟨before, after, shown, h₁, h₂, h₃, hrest⟩ := h
      exact ⟨before, after, shown, h₁, h₂, h₃.trans hle, hrest⟩
  | exited pid name =>
      obtain ⟨before, after, shown, h₁, h₂, h₃, hrest⟩ := h
      exact ⟨before, after, shown, h₁, h₂, h₃.trans hle, hrest⟩
  | changed => exact trivial

/-- The diff of two snapshots, the second begun after the first had ended. -/
theorem real_of_mem_diff {change : LifecycleChange} (hprev : Holding kernel start now prev)
    (hcurr : Holding kernel now later curr) (h : change ∈ diff prev curr) :
    Real kernel start later change := by
  rcases List.mem_append.mp h with h | h
  · obtain ⟨rec, hrec, hchange⟩ := List.mem_filterMap.mp h
    unfold startedOrChanged at hchange
    cases hget : prev.get rec.pid with
    | none =>
        rw [hget] at hchange
        obtain rfl := Option.some.inj hchange
        obtain ⟨before, hstart, hbefore, hnot⟩ := hprev.missed hget
        obtain ⟨after, shown, hnow, hafter, hshown⟩ := hcurr.read hrec
        exact ⟨before, after, shown, hstart, hbefore.trans hnow, hafter, hnot, hshown⟩
    | some old =>
        rw [hget] at hchange
        obtain ⟨-, hchange⟩ := Option.ite_none_left_eq_some.mp hchange
        obtain rfl := Option.some.inj hchange
        exact trivial
  · obtain ⟨rec, hrec, hchange⟩ := List.mem_filterMap.mp h
    unfold exitedFrom at hchange
    cases hget : curr.get rec.pid with
    | none =>
        rw [hget] at hchange
        obtain rfl := Option.some.inj hchange
        obtain ⟨before, shown, hstart, hbefore, hunder, hstatus, hname, -⟩ := hprev.read hrec
        obtain ⟨after, hnow, hafter, hnot⟩ := hcurr.missed hget
        exact ⟨before, after, shown, hstart, hbefore.trans hnow, hafter, hunder, hstatus, hname,
          hnot⟩
    | some other =>
        rw [hget] at hchange
        cases hchange

theorem Ticks.le (h : Ticks kernel now observer changes later observer') : now ≤ later := by
  induction h with
  | nil => exact le_rfl
  | tick hbefore hsnapshot _ ih => exact hbefore.trans ((snapshot_between hsnapshot).1.trans ih)
  | failed hbefore hsnapshot _ ih =>
      exact hbefore.trans (((safe_inventory.reaches hsnapshot).2 _ rfl).1.trans ih)

theorem Ticks.reports (h : Ticks kernel now observer changes later observer')
    (hwarmed : observer.warmed = true) (hholding : Holding kernel start now observer.inventory) :
    Holding kernel start later observer'.inventory ∧
      (∀ change ∈ changes, Real kernel start later change) ∧
      changes.foldl present (pids observer.inventory) = pids observer'.inventory := by
  induction h with
  | nil => exact ⟨hholding, nofun, rfl⟩
  | @tick before since now later observer observer' processes changes hbefore hsnapshot hticks ih =>
      obtain ⟨hle, hbetween⟩ := snapshot_between hsnapshot
      obtain ⟨first, held, hstart, hfirst, -, -⟩ := id hholding
      have hcurr : Holding kernel before now processes.inventory :=
        ⟨since, processes, hbefore, hle, hbetween, rfl⟩
      have hnext : Holding kernel start now processes.inventory :=
        ⟨since, processes, hstart.trans (hfirst.trans hbefore), hle, hbetween, rfl⟩
      have hchanges : (observer.tick processes.inventory).1.map Prod.fst =
          diff observer.inventory processes.inventory := by
        rw [Observer.tick, if_pos hwarmed, diffOf_fst]
      obtain ⟨hlast, hreal, hreplay⟩ := ih rfl hnext
      refine ⟨hlast, fun change hchange => ?_, ?_⟩
      · rw [hchanges] at hchange
        rcases List.mem_append.mp hchange with hchange | hchange
        · exact (real_of_mem_diff hholding hcurr hchange).mono hticks.le
        · exact hreal change hchange
      · rw [hchanges, List.foldl_append, foldl_diff]
        exact hreplay
  | failed hbefore hsnapshot hticks ih =>
      have hle := hbefore.trans ((safe_inventory.reaches hsnapshot).2 _ rfl).1
      exact ih hwarmed (hholding.mono hle)

/-- Whatever comes and goes, what the observer reports after its first snapshot is so, and replaying
it over the first inventory gives the last. -/
theorem reports_real (hfirst : Reaches kernel.answers inventory start (some (.ok processes)) now)
    (hticks : Ticks kernel now ⟨processes.inventory, true⟩ changes later observer') :
    (∀ change ∈ changes, Real kernel start later change) ∧
      changes.foldl present (pids processes.inventory) = pids observer'.inventory := by
  obtain ⟨hle, hbetween⟩ := snapshot_between hfirst
  exact (hticks.reports rfl ⟨start, processes, le_rfl, hle, hbetween, rfl⟩).2

theorem reports_real_worker :
    (∀ change ∈ diff (workersAt 0).inventory (workersAt 2).inventory ++ [],
      Real workerKernel 0 2 change) ∧
    (diff (workersAt 0).inventory (workersAt 2).inventory ++ []).foldl present
      (pids (workersAt 0).inventory) = pids (workersAt 2).inventory := by
  have hticks : Ticks workerKernel 0 ⟨(workersAt 0).inventory, true⟩ _ 2 _ :=
    .tick (Nat.zero_le 2) (reaches_workersAt 2) .nil
  rw [Observer.tick, if_pos rfl, diffOf_fst] at hticks
  exact reports_real (reaches_workersAt 0) hticks

end Reports

end ProcSnapshotter
end Argus
