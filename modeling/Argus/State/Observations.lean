import Argus.State.History

/-!
# The observations, in memory and in the database

Observations are put at every tick, and a cap on their number is enforced from time to time. In
memory an observation is pushed, and the first ones are drained. In the database it replaces the
row of its id, and the rows are deleted whose rowid is below the one that the cap is the offset of,
counted from the end. That one itself stays.

`observations_retained_iff` says in which runs both stores list the newest observations that the
cap allows.
-/

namespace Argus

open HistoryStores (Mirrors mirrors_empty)

/-- A call of either store. -/
inductive ObservationOp (O : Type)
  | putObservation (observation : O)
  | retainObservations (maxRows : Int)

/-- `max_rows.max(0)`. -/
def rowCap (maxRows : Int) : Nat := maxRows.toNat

-- the observations, how one is written, and its id
variable {O : Type} (codec : Codec O) (idOf : O → Uuid)

/-! ### The stores -/

structure InMemoryObservations (O : Type) where
  observations : List O

namespace InMemoryObservations

def new : InMemoryObservations O := ⟨[]⟩

def step (memory : InMemoryObservations O) : ObservationOp O → InMemoryObservations O
  | .putObservation observation => ⟨memory.observations ++ [observation]⟩
  | .retainObservations maxRows =>
      let max := rowCap maxRows
      if max < memory.observations.length then
        ⟨memory.observations.drop (memory.observations.length - max)⟩
      else memory

def listObservations (memory : InMemoryObservations O) : List O := memory.observations

end InMemoryObservations

/-- `list_json`, decoded: the statement names no order, and its scan is in that of the rowids. -/
def listJson (table : Table (KeyedRow Uuid)) : Except RepositoryError (List O) :=
  table.values.mapM fun row => decode codec row.data

structure SqliteObservations where
  observations : Table (KeyedRow Uuid)

namespace SqliteObservations

def new : SqliteObservations := ⟨.empty⟩

def step (sqlite : SqliteObservations) :
    ObservationOp O → Except RepositoryError SqliteObservations
  | .putObservation observation => do
      let table ← putJson codec sqlite.observations (idOf observation) observation
      return ⟨table⟩
  | .retainObservations maxRows =>
      .ok ⟨sqlite.observations.deleteBelow (sqlite.observations.rowidFromEnd (rowCap maxRows))⟩

def listObservations (sqlite : SqliteObservations) : Except RepositoryError (List O) :=
  listJson codec sqlite.observations

end SqliteObservations

/-! ### Both, and what they are for -/

/-- The newest observations: one that is put is the newest, and a cap keeps so many of them. -/
def newest (kept : List O) : ObservationOp O → List O
  | .putObservation observation => kept ++ [observation]
  | .retainObservations maxRows => kept.rtake (rowCap maxRows)

structure ObservationStores (O : Type) where
  memory : InMemoryObservations O
  sqlite : SqliteObservations

namespace ObservationStores

def start : ObservationStores O := ⟨.new, .new⟩

def step (stores : ObservationStores O) (op : ObservationOp O) : ObservationStores O :=
  ⟨stores.memory.step op, kept stores.sqlite (stores.sqlite.step codec idOf op)⟩

/-- Both stores list these observations, in this order. -/
structure Lists (stores : ObservationStores O) (observations : List O) : Prop where
  memory : stores.memory.listObservations = observations
  sqlite : stores.sqlite.listObservations codec = .ok observations

/-- An observation reads back, and has the id of none that is kept. A cap is no less than the
number of those that are. -/
def Uncapped (stores : ObservationStores O) : ObservationOp O → Prop
  | .putObservation observation =>
      codec.ReadsBack observation ∧
        ∀ other ∈ stores.memory.observations, idOf other ≠ idOf observation
  | .retainObservations maxRows => stores.memory.observations.length ≤ rowCap maxRows

variable {codec idOf} {stores : ObservationStores O} {op : ObservationOp O}

/-! ### The memory -/

/-- The memory keeps the newest. -/
theorem memory_step : (stores.step codec idOf op).memory.observations =
    newest stores.memory.observations op := by
  cases op with
  | putObservation observation => rfl
  | retainObservations maxRows =>
      simp only [step, InMemoryObservations.step, newest, List.rtake]
      split_ifs with h
      · rfl
      · rw [Nat.sub_eq_zero_of_le (Nat.le_of_not_lt h), List.drop_zero]

theorem memory_run (ops : List (ObservationOp O)) :
    (Machine.run (step codec idOf) start ops).memory.listObservations =
      Machine.run newest [] ops :=
  Machine.run_project (f := fun stores : ObservationStores O => stores.memory.observations)
    (I := fun _ => True) trivial (fun _ _ _ => ⟨trivial, memory_step⟩) ops

/-! ### The database -/

theorem listJson_eq {table : Table (KeyedRow Uuid)} :
    listJson codec table = (listJsonOrdered codec table).map (List.map Prod.snd) := by
  unfold listJson listJsonOrdered
  induction table.values with
  | nil => rfl
  | cons row rows ih =>
      rw [List.mapM_cons, List.mapM_cons, ih]
      cases decode codec row.data with
      | error error => rfl
      | ok value => cases rows.mapM fun row => return (row.id, ← decode codec row.data) <;> rfl

/-- The observations under their ids. -/
def keyed (idOf : O → Uuid) (observations : List O) : List (Uuid × O) :=
  observations.map fun observation => (idOf observation, observation)

theorem keyed_snd {observations : List O} :
    (keyed idOf observations).map Prod.snd = observations := by
  simp [keyed, Function.comp_def]

/-- The table has the rows of the observations in memory. -/
def Mirrored (codec : Codec O) (idOf : O → Uuid) (stores : ObservationStores O) : Prop :=
  Mirrors codec (keyed idOf stores.memory.observations) stores.sqlite.observations

theorem Mirrored.lists (h : Mirrored codec idOf stores) :
    stores.sqlite.listObservations codec = .ok stores.memory.observations := by
  rw [SqliteObservations.listObservations, listJson_eq, HistoryStores.Mirrors.list h]
  exact congrArg _ keyed_snd

/-- The database keeps one more than the cap. -/
theorem mirrors_retained {entries : List (Uuid × O)} {table : Table (KeyedRow Uuid)}
    (h : Mirrors codec entries table) (n : Nat) :
    Mirrors codec (entries.rtake (n + 1)) (table.deleteBelow (table.rowidFromEnd n)) where
  values := by
    rw [Table.values_deleteBelow, h.values, List.rtake, List.rtake, List.length_map, List.map_drop]
  readsBack := fun entry hentry => h.readsBack entry (List.mem_of_mem_drop hentry)

theorem rtake_of_length_le {α : Type*} {l : List α} {n : Nat} (h : l.length ≤ n) :
    l.rtake n = l := by
  rw [List.rtake, Nat.sub_eq_zero_of_le h, List.drop_zero]

theorem retainPush_keyed {observations : List O} {observation : O} :
    retainPush (keyed idOf observations) (idOf observation) observation =
      keyed idOf ((observations.filter fun other => idOf other != idOf observation) ++
        [observation]) := by
  rw [retainPush, keyed, List.filter_map, keyed, List.map_append]
  rfl

theorem Mirrored.step (h : Mirrored codec idOf stores) (hop : stores.Uncapped codec idOf op) :
    Mirrored codec idOf (stores.step codec idOf op) := by
  cases op with
  | putObservation observation =>
      obtain ⟨hput, hmirrors⟩ := h.put (idOf observation) hop.1
      rw [retainPush_keyed, List.filter_eq_self.mpr fun other hother => by
        simpa using hop.2 other hother] at hmirrors
      simp only [ObservationStores.step, SqliteObservations.step, hput]
      exact hmirrors
  | retainObservations maxRows =>
      have hall : stores.memory.observations.length ≤ rowCap maxRows := hop
      have hmirrors := mirrors_retained h (rowCap maxRows)
      rw [rtake_of_length_le (by simpa [keyed] using hall.trans (Nat.le_succ _))] at hmirrors
      rw [Mirrored, memory_step, newest, rtake_of_length_le hall]
      exact hmirrors

/-- Stores that list the same after a call got one that drops nothing. -/
theorem uncapped_of_lists (h : Mirrored codec idOf stores)
    (hlists : (stores.step codec idOf op).sqlite.listObservations codec =
      .ok (stores.step codec idOf op).memory.observations) : stores.Uncapped codec idOf op := by
  rw [memory_step, SqliteObservations.listObservations, listJson_eq] at hlists
  cases op with
  | putObservation observation =>
      cases hlist : listJsonOrdered codec
          (stores.step codec idOf (.putObservation observation)).sqlite.observations with
      | error error =>
          rw [hlist] at hlists
          cases hlists
      | ok listed =>
          rw [hlist] at hlists
          obtain ⟨hread, hothers⟩ := h.of_put SqliteObservations.observations
            SqliteObservations.mk (fun _ => rfl) hlist (Except.ok.inj hlists)
          refine ⟨hread, fun other hother => ?_⟩
          have hsame : (stores.memory.observations.filter fun other =>
              idOf other != idOf observation) = stores.memory.observations := by
            simpa [keyed, List.filter_map, Function.comp_def] using hothers.symm
          simpa using List.filter_eq_self.mp hsame other hother
  | retainObservations maxRows =>
      have hretained : listJsonOrdered codec
          (stores.step codec idOf (.retainObservations maxRows)).sqlite.observations = _ :=
        (mirrors_retained h (rowCap maxRows)).list
      rw [hretained] at hlists
      have hlength := congrArg List.length (Except.ok.inj hlists)
      simp only [keyed, newest, List.rtake, List.length_map, List.length_drop] at hlength
      show stores.memory.observations.length ≤ rowCap maxRows
      omega

/-! ### Runs -/

theorem mirrored_start : Mirrored codec idOf start := mirrors_empty

/-- **The observations.** All along both stores list the newest observations that the caps allow,
exactly when every observation put reads back, under an id that no observation kept has, and every
cap is no less than the number of those that are kept. -/
theorem observations_retained_iff (codec : Codec O) (idOf : O → Uuid)
    (ops : List (ObservationOp O)) :
    (∀ n, (Machine.run (step codec idOf) start (ops.take n)).Lists codec
      (Machine.run newest [] (ops.take n))) ↔
      Machine.Every (step codec idOf) (Uncapped codec idOf) start ops := by
  have hlists (n : Nat) : (Machine.run (step codec idOf) start (ops.take n)).Lists codec
      (Machine.run newest [] (ops.take n)) ↔
      (Machine.run (step codec idOf) start (ops.take n)).sqlite.listObservations codec =
        .ok (Machine.run (step codec idOf) start (ops.take n)).memory.observations := by
    have hmemory : (Machine.run (step codec idOf) start (ops.take n)).memory.listObservations =
        Machine.run newest [] (ops.take n) := memory_run (ops.take n)
    rw [InMemoryObservations.listObservations] at hmemory
    rw [hmemory]
    exact ⟨Lists.sqlite, fun hsqlite => ⟨hmemory, hsqlite⟩⟩
  rw [forall_congr' hlists]
  exact Machine.every_true.forall_take_iff mirrored_start (fun _ hs => hs.lists)
    (fun _ _ hs _ hop => hs.step hop) fun _ _ hs _ hlist => uncapped_of_lists hs hlist

/-! ### One observation too many -/

/-- A reading, with its id. -/
structure Reading where
  readingId : Uuid
  active : Bool
  deriving DecidableEq

def firstReading : Reading := ⟨1, true⟩

def secondReading : Reading := ⟨2, false⟩

def readingCodec : Codec Reading := .ofTexts
  [(firstReading, "\x7b\"id\":1,\"value\":true\x7d"),
    (secondReading, "\x7b\"id\":2,\"value\":false\x7d")]

/-- Two readings, of which one is to be kept. -/
def overCap : List (ObservationOp Reading) :=
  [.putObservation firstReading, .putObservation secondReading, .retainObservations 1]

/-- **The database keeps both.** -/
theorem observations_over_cap :
    (Machine.run (step readingCodec Reading.readingId) start overCap).sqlite.listObservations
        readingCodec = .ok [firstReading, secondReading] ∧
      Machine.run newest [] overCap = [secondReading] ∧
      ¬ (Machine.run (step readingCodec Reading.readingId) start overCap).Lists readingCodec
        (Machine.run newest [] overCap) := by
  have hlisted : (Machine.run (step readingCodec Reading.readingId) start
      overCap).sqlite.listObservations readingCodec = .ok [firstReading, secondReading] := by rfl
  have hnewest : Machine.run newest [] overCap = [secondReading] := by rfl
  refine ⟨hlisted, hnewest, fun h => ?_⟩
  have hsame := h.sqlite
  rw [hlisted, hnewest] at hsame
  cases hsame

end ObservationStores
end Argus
