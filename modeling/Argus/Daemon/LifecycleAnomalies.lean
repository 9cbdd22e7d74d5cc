import Argus.Daemon.Observe

/-!
# What the diff tells of starts and exits

The diff of two inventories goes by pids, and its starts and exits are counted: many starts are an
explosion, many starts and exits are churn. `diffAccounts_iff` says that these are the processes
that came and went exactly if no pid went from one process to another.
-/

namespace Argus

/-! ### Anomalies -/

/-- Detection thresholds. -/
structure AnomalyConfig where
  explosionThreshold : Nat
  churnThreshold : Nat
  cpuTicksThreshold : Nat

inductive ProcessAnomalyKind
  | explosion
  | churn
  | runaway
  deriving DecidableEq

structure ProcessAnomaly where
  kind : ProcessAnomalyKind
  /-- The offending process, where the anomaly is attributable to one. -/
  pid : Option Nat
  detail : String
  deriving DecidableEq

namespace LifecycleChange

def isStarted : LifecycleChange → Bool
  | started .. => true
  | exited .. | changed .. => false

def isExited : LifecycleChange → Bool
  | exited .. => true
  | started .. | changed .. => false

end LifecycleChange

/-- The anomalies of so many starts and exits. -/
def anomaliesOfTotals (config : AnomalyConfig) (started exited : Nat) : List ProcessAnomaly :=
  (if config.explosionThreshold ≤ started then
    [⟨.explosion, none, toString started ++ " processes started in one interval"⟩] else []) ++
  (if config.churnThreshold ≤ started + exited then
    [⟨.churn, none, toString started ++ " started, " ++ toString exited ++
      " exited in one interval"⟩] else [])

/-- Detect explosion and churn from a tick's changes. -/
def detectLifecycleAnomalies (config : AnomalyConfig) (changes : List LifecycleChange) :
    List ProcessAnomaly :=
  let started := (changes.filter LifecycleChange.isStarted).length
  let exited := (changes.filter LifecycleChange.isExited).length
  anomaliesOfTotals config started exited

/-! ### The processes that came and went -/

open ObservationLoop (Has)

instance (rec other : ProcessRecord) : Decidable (rec.Same other) :=
  inferInstanceAs (Decidable (_ ∧ _))

instance (inventory : ProcessInventory) (rec : ProcessRecord) : Decidable (Has inventory rec) :=
  inferInstanceAs (Decidable (∃ other ∈ inventory.processes, other.Same rec))

/-- The processes of an inventory that another one has not. -/
def onlyIn (inventory other : ProcessInventory) : List ProcessRecord :=
  inventory.processes.filter fun rec => ¬ Has other rec

def startOf (rec : ProcessRecord) : LifecycleChange := .started rec.pid rec.name rec.ppid

def exitOf (rec : ProcessRecord) : LifecycleChange := .exited rec.pid rec.name

/-- The diff has one start for each process that came, one exit for each that went, and changes of
none but those that stayed; and so many starts and exits are what the anomalies are about. -/
structure DiffAccounts (prev curr : ProcessInventory) : Prop where
  started : ((diff prev curr).filter LifecycleChange.isStarted).Perm
    ((onlyIn curr prev).map startOf)
  exited : ((diff prev curr).filter LifecycleChange.isExited).Perm ((onlyIn prev curr).map exitOf)
  changed : ∀ pid name fields, .changed pid name fields ∈ diff prev curr →
    ∃ rec ∈ curr.processes, rec.pid = pid ∧ Has prev rec
  totals : ∀ config, detectLifecycleAnomalies config (diff prev curr) =
    anomaliesOfTotals config (onlyIn curr prev).length (onlyIn prev curr).length

/-- No pid is that of one process before and of another after. -/
def NoReuse (prev curr : ProcessInventory) : Prop :=
  ∀ old ∈ prev.processes, ∀ rec ∈ curr.processes, old.pid = rec.pid →
    old.startTicks = rec.startTicks

variable {inventory prev curr : ProcessInventory} {rec old : ProcessRecord} {pid : Nat}

theorem get_eq_none_iff : inventory.get pid = none ↔ ∀ rec ∈ inventory.processes, rec.pid ≠ pid :=
  Keyed.lookup_eq_none_iff

/-- An inventory has one record of a pid. -/
theorem eq_of_pid (h : rec ∈ inventory.processes) (h' : old ∈ inventory.processes)
    (hpid : rec.pid = old.pid) : rec = old :=
  List.inj_on_of_nodup_map (inventory.sorted.imp Nat.ne_of_lt) h h' hpid

/-- The starts are those of the pids that are new. -/
theorem started_diff : (diff prev curr).filter LifecycleChange.isStarted =
    (curr.processes.filter fun rec => (prev.get rec.pid).isNone).map startOf := by
  have hexits : (prev.processes.filterMap (exitedFrom curr)).filter LifecycleChange.isStarted =
      [] := by
    rw [List.filter_eq_nil_iff]
    intro change hchange
    obtain ⟨rec, -, hrec⟩ := List.mem_filterMap.mp hchange
    unfold exitedFrom at hrec
    split at hrec <;> cases hrec
    simp [LifecycleChange.isStarted]
  rw [diff, List.filter_append, hexits, List.append_nil, List.filter_filterMap,
    ← List.filterMap_eq_map, List.filterMap_filter]
  -- record by record: a pid that was there gives a change or nothing
  refine List.filterMap_congr fun rec _ => ?_
  unfold startedOrChanged
  cases prev.get rec.pid with
  | none => rfl
  | some prevRec =>
      rw [Option.isNone_some, if_neg Bool.false_ne_true]
      dsimp only
      split_ifs <;> rfl

/-- The exits are those of the pids that are gone. -/
theorem exited_diff : (diff prev curr).filter LifecycleChange.isExited =
    (prev.processes.filter fun rec => (curr.get rec.pid).isNone).map exitOf := by
  have hstarts : (curr.processes.filterMap (startedOrChanged prev)).filter
      LifecycleChange.isExited = [] := by
    rw [List.filter_eq_nil_iff]
    intro change hchange
    obtain ⟨rec, -, hrec⟩ := List.mem_filterMap.mp hchange
    unfold startedOrChanged at hrec
    split at hrec
    · cases hrec
      simp [LifecycleChange.isExited]
    · dsimp only at hrec
      split_ifs at hrec
      cases hrec
      simp [LifecycleChange.isExited]
  rw [diff, List.filter_append, hstarts, List.nil_append, List.filter_filterMap,
    ← List.filterMap_eq_map, List.filterMap_filter]
  refine List.filterMap_congr fun rec _ => ?_
  unfold exitedFrom
  cases curr.get rec.pid <;> rfl

/-- Without reuse a process is gone when its pid is. -/
theorem onlyIn_eq (h : ∀ rec ∈ inventory.processes, ∀ old ∈ prev.processes, old.pid = rec.pid →
      old.startTicks = rec.startTicks) :
    onlyIn inventory prev =
      inventory.processes.filter fun rec => (prev.get rec.pid).isNone := by
  refine List.filter_congr fun rec hrec => ?_
  rw [Bool.eq_iff_iff, decide_eq_true_eq, Option.isNone_iff_eq_none, get_eq_none_iff]
  constructor
  · intro hnew old hold hpid
    exact hnew ⟨old, hold, hpid, h rec hrec old hold hpid⟩
  · rintro hnew ⟨old, hold, hsame⟩
    exact hnew old hold hsame.1

/-- A change is of a process whose pid was there before. -/
theorem changed_of_mem_diff {name : String} {fields : List ProcessField}
    (h : .changed pid name fields ∈ diff prev curr) :
    ∃ rec ∈ curr.processes, rec.pid = pid ∧ ∃ old ∈ prev.processes, old.pid = pid := by
  rcases List.mem_append.mp h with h | h
  · obtain ⟨rec, hrec, hchange⟩ := List.mem_filterMap.mp h
    unfold startedOrChanged at hchange
    cases hget : prev.get rec.pid with
    | none =>
        rw [hget] at hchange
        cases hchange
    | some old =>
        rw [hget] at hchange
        dsimp only at hchange
        split_ifs at hchange
        cases hchange
        exact ⟨rec, hrec, rfl, old, Keyed.mem_of_lookup hget, Keyed.key_of_lookup hget⟩
  · -- an exit is no change
    obtain ⟨rec, -, hchange⟩ := List.mem_filterMap.mp h
    unfold exitedFrom at hchange
    split at hchange <;> cases hchange

theorem DiffAccounts.of_noReuse (h : NoReuse prev curr) : DiffAccounts prev curr := by
  have hcame := onlyIn_eq fun rec hrec old hold hpid => h old hold rec hrec hpid
  have hwent := onlyIn_eq fun old hold rec hrec hpid => (h old hold rec hrec hpid.symm).symm
  refine ⟨?_, ?_, ?_, ?_⟩
  · rw [started_diff, hcame]
  · rw [exited_diff, hwent]
  · intro pid name fields hchange
    obtain ⟨rec, hrec, rfl, old, hold, hpid⟩ := changed_of_mem_diff hchange
    exact ⟨rec, hrec, rfl, old, hold, hpid, h old hold rec hrec hpid⟩
  · intro config
    rw [detectLifecycleAnomalies, started_diff, exited_diff, hcame, hwent, List.length_map,
      List.length_map]

/-- The diff accounts for the processes that came and went exactly if no pid was reused. -/
theorem diffAccounts_iff (prev curr : ProcessInventory) :
    DiffAccounts prev curr ↔ NoReuse prev curr := by
  refine ⟨fun h old hold rec hrec hpid => ?_, .of_noReuse⟩
  by_contra hticks
  have hnew : rec ∈ onlyIn curr prev := by
    refine List.mem_filter.mpr ⟨hrec, decide_eq_true ?_⟩
    rintro ⟨other, hother, hsame⟩
    obtain rfl := eq_of_pid hother hold (hsame.1.trans hpid.symm)
    exact hticks hsame.2
  -- its start would be in the diff, which has none of a pid that was there
  have hstart := h.started.symm.subset (List.mem_map_of_mem hnew)
  rw [started_diff] at hstart
  obtain ⟨rec', hrec', heq⟩ := List.mem_map.mp hstart
  have hnone := Option.isNone_iff_eq_none.mp (List.mem_filter.mp hrec').2
  have hpid' : rec'.pid = rec.pid := (LifecycleChange.started.inj heq).1
  rw [hpid'] at hnone
  exact get_eq_none_iff.mp hnone old hold hpid

/-- A worker that crashes, and its successor under the same pid. -/
def workerBefore : ProcessInventory where
  processes := [⟨7, 1, "worker", "R", 100, ["worker"], []⟩]
  sorted := by decide

def workerAfter : ProcessInventory where
  processes := [⟨7, 1, "worker", "R", 900, ["worker"], []⟩]
  sorted := by decide

theorem diff_unaccounted : diff workerBefore workerAfter = [] ∧
    (onlyIn workerAfter workerBefore).length = 1 ∧
    ¬ DiffAccounts workerBefore workerAfter := by
  refine ⟨by decide, by decide, fun h => ?_⟩
  exact absurd h.started (by decide)

end Argus
