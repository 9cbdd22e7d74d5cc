import Argus.Domain.Plan
import Argus.Lib.Machine
import Argus.Lib.Pointwise
import Argus.State.Sqlite

/-!
# The reasoning history and the memory, in memory and in the database

Six families of records have a put and a list each. In memory a hypothesis, a plan and an execution
are pushed, and the others take the place of what has their key. In the database every put
replaces, and a fact's key is the text of its subject and its attribute with a `#` between.

`history_alike_iff` says in which runs of puts the two list the same.
-/

namespace Argus

/-- The records that the stores keep without a look at them. -/
structure Artifacts where
  Hypothesis : Type
  Plan : Type
  Execution : Type
  Episode : Type
  Procedure : Type

/-- A fact of the semantic memory. -/
structure Fact where
  subject : ResourceId
  attributeName : String
  value : String
  source : String
  learnedAt : DateTime
  deriving DecidableEq

/-- The key that a fact has in the database. -/
def Fact.key (fact : Fact) : String := fact.subject.asStr ++ "#" ++ fact.attributeName

/-- The facts say the same of the same resource, at different times or with different values. -/
def Fact.supersedes (fact other : Fact) : Bool :=
  other.subject == fact.subject && other.attributeName == fact.attributeName

/-- How the records are written as JSON. -/
structure HistoryCodecs (A : Artifacts) where
  hypothesis : Codec A.Hypothesis
  plan : Codec A.Plan
  execution : Codec A.Execution
  episode : Codec A.Episode
  fact : Codec Fact
  procedure : Codec A.Procedure

/-- One put of one family. -/
inductive HistoryOp (A : Artifacts)
  | putHypothesis (id : Uuid) (hypothesis : A.Hypothesis)
  | putPlan (id : Uuid) (plan : A.Plan)
  | putExecution (id : Uuid) (execution : A.Execution)
  | putEpisode (id : Uuid) (episode : A.Episode)
  | putFact (fact : Fact)
  | putProcedure (id : Uuid) (procedure : A.Procedure)

variable {A : Artifacts}

/-! ### In memory -/

/-- `retain` of the other ids, then `push`. -/
def retainPush {κ α : Type} [DecidableEq κ] (entries : List (κ × α)) (id : κ) (value : α) :
    List (κ × α) :=
  (entries.filter fun entry => entry.1 != id) ++ [(id, value)]

structure InMemoryHistory (A : Artifacts) where
  hypotheses : List (Uuid × A.Hypothesis)
  plans : List (Uuid × A.Plan)
  executions : List (Uuid × A.Execution)
  episodes : List (Uuid × A.Episode)
  facts : List Fact
  procedures : List (Uuid × A.Procedure)

namespace InMemoryHistory

def new : InMemoryHistory A := ⟨[], [], [], [], [], []⟩

def put (memory : InMemoryHistory A) : HistoryOp A → InMemoryHistory A
  | .putHypothesis id hypothesis =>
      { memory with hypotheses := memory.hypotheses ++ [(id, hypothesis)] }
  | .putPlan id plan => { memory with plans := memory.plans ++ [(id, plan)] }
  | .putExecution id execution =>
      { memory with executions := memory.executions ++ [(id, execution)] }
  | .putEpisode id episode => { memory with episodes := retainPush memory.episodes id episode }
  | .putFact fact =>
      { memory with
        facts := (memory.facts.filter fun other => !fact.supersedes other) ++ [fact] }
  | .putProcedure id procedure =>
      { memory with procedures := retainPush memory.procedures id procedure }

end InMemoryHistory

/-! ### In the database -/

structure SqliteHistory where
  reasoningHypotheses : Table (KeyedRow Uuid)
  reasoningPlans : Table (KeyedRow Uuid)
  reasoningExecutions : Table (KeyedRow Uuid)
  memoryEpisodes : Table (KeyedRow Uuid)
  memoryFacts : Table (KeyedRow String)
  memoryProcedures : Table (KeyedRow Uuid)

namespace SqliteHistory

variable (codecs : HistoryCodecs A)

def new : SqliteHistory := ⟨.empty, .empty, .empty, .empty, .empty, .empty⟩

def put (sqlite : SqliteHistory) : HistoryOp A → Except RepositoryError SqliteHistory
  | .putHypothesis id hypothesis => do
      let table ← putJson codecs.hypothesis sqlite.reasoningHypotheses id hypothesis
      return { sqlite with reasoningHypotheses := table }
  | .putPlan id plan => do
      let table ← putJson codecs.plan sqlite.reasoningPlans id plan
      return { sqlite with reasoningPlans := table }
  | .putExecution id execution => do
      let table ← putJson codecs.execution sqlite.reasoningExecutions id execution
      return { sqlite with reasoningExecutions := table }
  | .putEpisode id episode => do
      let table ← putJson codecs.episode sqlite.memoryEpisodes id episode
      return { sqlite with memoryEpisodes := table }
  | .putFact fact => do
      let table ← putJson codecs.fact sqlite.memoryFacts fact.key fact
      return { sqlite with memoryFacts := table }
  | .putProcedure id procedure => do
      let table ← putJson codecs.procedure sqlite.memoryProcedures id procedure
      return { sqlite with memoryProcedures := table }

def listHypotheses (sqlite : SqliteHistory) : Except RepositoryError (List (Uuid × A.Hypothesis)) :=
  listJsonOrdered codecs.hypothesis sqlite.reasoningHypotheses

def listPlans (sqlite : SqliteHistory) : Except RepositoryError (List (Uuid × A.Plan)) :=
  listJsonOrdered codecs.plan sqlite.reasoningPlans

def listExecutions (sqlite : SqliteHistory) : Except RepositoryError (List (Uuid × A.Execution)) :=
  listJsonOrdered codecs.execution sqlite.reasoningExecutions

def listEpisodes (sqlite : SqliteHistory) : Except RepositoryError (List (Uuid × A.Episode)) :=
  listJsonOrdered codecs.episode sqlite.memoryEpisodes

def listFacts (sqlite : SqliteHistory) : Except RepositoryError (List Fact) :=
  return (← listJsonOrdered codecs.fact sqlite.memoryFacts).map Prod.snd

def listProcedures (sqlite : SqliteHistory) : Except RepositoryError (List (Uuid × A.Procedure)) :=
  listJsonOrdered codecs.procedure sqlite.memoryProcedures

end SqliteHistory

/-! ### Both -/

structure HistoryStores (A : Artifacts) where
  memory : InMemoryHistory A
  sqlite : SqliteHistory

namespace HistoryStores

variable (codecs : HistoryCodecs A)

def start : HistoryStores A := ⟨.new, .new⟩

def step (stores : HistoryStores A) (op : HistoryOp A) : HistoryStores A :=
  ⟨stores.memory.put op, kept stores.sqlite (stores.sqlite.put codecs op)⟩

/-- Both stores list the same. -/
structure Alike (stores : HistoryStores A) : Prop where
  hypotheses : stores.sqlite.listHypotheses codecs = .ok stores.memory.hypotheses
  plans : stores.sqlite.listPlans codecs = .ok stores.memory.plans
  executions : stores.sqlite.listExecutions codecs = .ok stores.memory.executions
  episodes : stores.sqlite.listEpisodes codecs = .ok stores.memory.episodes
  facts : stores.sqlite.listFacts codecs = .ok stores.memory.facts
  procedures : stores.sqlite.listProcedures codecs = .ok stores.memory.procedures

/-- No record has the id. -/
def Unused {α : Type} (entries : List (Uuid × α)) (id : Uuid) : Prop :=
  ∀ entry ∈ entries, entry.1 ≠ id

/-- The record reads back; what the memory pushes is put under an id of its own, and a fact has the
key of no other subject or attribute. -/
def Orderly (stores : HistoryStores A) : HistoryOp A → Prop
  | .putHypothesis id hypothesis =>
      codecs.hypothesis.ReadsBack hypothesis ∧ Unused stores.memory.hypotheses id
  | .putPlan id plan => codecs.plan.ReadsBack plan ∧ Unused stores.memory.plans id
  | .putExecution id execution =>
      codecs.execution.ReadsBack execution ∧ Unused stores.memory.executions id
  | .putEpisode _ episode => codecs.episode.ReadsBack episode
  | .putFact fact => codecs.fact.ReadsBack fact ∧
      ∀ other ∈ stores.memory.facts, other.key = fact.key → fact.supersedes other
  | .putProcedure _ procedure => codecs.procedure.ReadsBack procedure

/-! ### One table -/

section OneTable

variable {κ α : Type} {codec : Codec α} {entries : List (κ × α)} {id : κ} {value : α}
  {table : Table (KeyedRow κ)}

/-- The table has the rows of these entries, all of which read back. -/
structure Mirrors (codec : Codec α) (entries : List (κ × α)) (table : Table (KeyedRow κ)) :
    Prop where
  values : table.values = entries.map fun entry => ⟨entry.1, codec.text entry.2⟩
  readsBack : ∀ entry ∈ entries, codec.ReadsBack entry.2

theorem mirrors_empty : Mirrors codec ([] : List (κ × α)) .empty := ⟨rfl, nofun⟩

theorem Mirrors.list (h : Mirrors codec entries table) :
    listJsonOrdered codec table = .ok entries := by
  rw [listJsonOrdered, h.values]
  refine Pointwise.mapM_map_eq_ok fun entry hentry => ?_
  rw [decode_eq (h.readsBack entry hentry)]
  rfl

variable [DecidableEq κ]

/-- What a replacing put leaves of a table that mirrors. -/
theorem Mirrors.values_put (h : Mirrors codec entries table) (data : String) :
    (table.insertOrReplace KeyedRow.id ⟨id, data⟩).values =
      ((entries.filter fun entry => entry.1 != id).map fun entry =>
        ⟨entry.1, codec.text entry.2⟩) ++ [⟨id, data⟩] := by
  rw [Table.values_insertOrReplace, h.values, List.filter_map]
  rfl

theorem Mirrors.put (h : Mirrors codec entries table) (id : κ) (hvalue : codec.ReadsBack value) :
    putJson codec table id value =
        .ok (table.insertOrReplace KeyedRow.id ⟨id, codec.text value⟩) ∧
      Mirrors codec (retainPush entries id value)
        (table.insertOrReplace KeyedRow.id ⟨id, codec.text value⟩) := by
  refine ⟨by rw [putJson, encode_eq hvalue]; rfl, ?_, fun entry hentry => ?_⟩
  · rw [h.values_put, retainPush, List.map_append, List.map_singleton]
  · rcases List.mem_append.mp hentry with hold | hnew
    · exact h.readsBack entry (List.mem_of_mem_filter hold)
    · rw [List.mem_singleton.mp hnew]
      exact hvalue

/-- What is listed after a replacing put: the entries of the other ids, and what the text reads
as. -/
theorem Mirrors.list_put (h : Mirrors codec entries table) (id : κ) (data : String) :
    listJsonOrdered codec (table.insertOrReplace KeyedRow.id ⟨id, data⟩) =
      (decode codec data).map fun value =>
        (entries.filter fun entry => entry.1 != id) ++ [(id, value)] := by
  have hothers : ((entries.filter fun entry => entry.1 != id).map fun entry =>
      (⟨entry.1, codec.text entry.2⟩ : KeyedRow κ)).mapM
        (fun row => return (row.id, ← decode codec row.data)) =
      (.ok (entries.filter fun entry => entry.1 != id) : Except RepositoryError _) := by
    refine Pointwise.mapM_map_eq_ok fun entry hentry => ?_
    rw [decode_eq (h.readsBack entry (List.mem_of_mem_filter hentry))]
    rfl
  rw [listJsonOrdered, h.values_put, List.mapM_append, hothers, List.mapM_cons, List.mapM_nil]
  cases decode codec data <;> rfl

/-- A put after which the value is listed last was of a value that reads back, and left the
entries of the other ids. `f` is the table in the database, and `g` the database with another. -/
theorem Mirrors.of_put {σ : Type} {found : σ} (f : σ → Table (KeyedRow κ))
    (g : Table (KeyedRow κ) → σ) (hfg : ∀ table, f (g table) = table)
    (h : Mirrors codec entries (f found)) {listed : List (κ × α)} {before : List α}
    (hlist : listJsonOrdered codec (f (kept found
      ((putJson codec (f found) id value).bind fun table => .ok (g table)))) = .ok listed)
    (hlisted : listed.map Prod.snd = before ++ [value]) :
    codec.ReadsBack value ∧ before = (entries.filter fun entry => entry.1 != id).map Prod.snd := by
  rw [kept_bind f g hfg, putJson, encode] at hlist
  cases hencode : codec.encode value with
  | error error =>
      -- nothing was put, and the value is one of those that read back
      rw [hencode] at hlist
      obtain rfl : entries = listed := Except.ok.inj (h.list.symm.trans hlist)
      have hmem : value ∈ entries.map Prod.snd := by
        rw [hlisted]
        exact List.mem_append_right _ List.mem_cons_self
      obtain ⟨entry, hentry, hvalue⟩ := List.mem_map.mp hmem
      have hread := (h.readsBack entry hentry).encode
      rw [hvalue, hencode] at hread
      cases hread
  | ok data =>
      rw [hencode] at hlist
      replace hlist := (h.list_put id data).symm.trans hlist
      rw [decode] at hlist
      cases hdecode : codec.decode data with
      | error error =>
          rw [hdecode] at hlist
          cases hlist
      | ok read =>
          rw [hdecode] at hlist
          obtain rfl : (entries.filter fun entry => entry.1 != id) ++ [(id, read)] = listed :=
            Except.ok.inj hlist
          rw [List.map_append] at hlisted
          obtain ⟨hbefore, hlast⟩ := List.append_inj' hlisted rfl
          obtain rfl : read = value := by simpa using hlast
          exact ⟨⟨data, hencode, hdecode⟩, hbefore.symm⟩

/-- Where no entry has the id, a put pushes. -/
theorem retainPush_of_unused {entries : List (Uuid × α)} {id : Uuid} {value : α}
    (h : Unused entries id) : retainPush entries id value = entries ++ [(id, value)] := by
  rw [retainPush, List.filter_eq_self.mpr fun entry hentry => by simpa using h entry hentry]

/-- Where a put leaves every entry, none has the id. -/
theorem unused_of_filter {entries : List (Uuid × α)} {id : Uuid}
    (h : entries.map Prod.snd = (entries.filter fun entry => entry.1 != id).map Prod.snd) :
    Unused entries id := by
  have hlength := congrArg List.length h
  rw [List.length_map, List.length_map] at hlength
  intro entry hentry
  simpa using List.length_filter_eq_length_iff.mp hlength.symm entry hentry

end OneTable

/-! ### Runs -/

/-- The tables mirror the lists, the facts under their keys. -/
structure Mirrored (stores : HistoryStores A) : Prop where
  hypotheses : Mirrors codecs.hypothesis stores.memory.hypotheses
    stores.sqlite.reasoningHypotheses
  plans : Mirrors codecs.plan stores.memory.plans stores.sqlite.reasoningPlans
  executions : Mirrors codecs.execution stores.memory.executions
    stores.sqlite.reasoningExecutions
  episodes : Mirrors codecs.episode stores.memory.episodes stores.sqlite.memoryEpisodes
  facts : Mirrors codecs.fact (stores.memory.facts.map fun fact => (fact.key, fact))
    stores.sqlite.memoryFacts
  procedures : Mirrors codecs.procedure stores.memory.procedures stores.sqlite.memoryProcedures

variable {codecs} {stores : HistoryStores A} {op : HistoryOp A}

theorem mirrored_start : Mirrored codecs start :=
  ⟨mirrors_empty, mirrors_empty, mirrors_empty, mirrors_empty, mirrors_empty, mirrors_empty⟩

theorem Mirrored.alike (h : Mirrored codecs stores) : stores.Alike codecs where
  hypotheses := h.hypotheses.list
  plans := h.plans.list
  executions := h.executions.list
  episodes := h.episodes.list
  facts := by
    rw [SqliteHistory.listFacts, h.facts.list]
    simp [Function.comp_def]
  procedures := h.procedures.list

/-- The keys take away the facts that the new one supersedes. -/
theorem filter_key {facts : List Fact} {fact : Fact}
    (h : ∀ other ∈ facts, other.key = fact.key → fact.supersedes other) :
    (facts.filter fun other => !fact.supersedes other) =
      facts.filter fun other => other.key != fact.key := by
  refine List.filter_congr fun other hother => ?_
  cases hsupersedes : fact.supersedes other with
  | true =>
      obtain ⟨hsubject, hattribute⟩ : other.subject = fact.subject ∧
          other.attributeName = fact.attributeName := by
        simpa [Fact.supersedes] using hsupersedes
      have hkey : other.key = fact.key := by rw [Fact.key, Fact.key, hsubject, hattribute]
      simp [hkey]
  | false =>
      have hkey : other.key ≠ fact.key := fun hkey => by
        rw [h other hother hkey] at hsupersedes
        cases hsupersedes
      simp [hkey]

theorem retainPush_facts {facts : List Fact} {fact : Fact} :
    retainPush (facts.map fun fact => (fact.key, fact)) fact.key fact =
      ((facts.filter fun other => other.key != fact.key) ++ [fact]).map fun fact =>
        (fact.key, fact) := by
  rw [retainPush, List.filter_map, List.map_append]
  rfl

theorem Mirrored.step (h : Mirrored codecs stores) (hop : stores.Orderly codecs op) :
    Mirrored codecs (stores.step codecs op) := by
  unfold HistoryStores.step
  cases op with
  | putHypothesis id hypothesis =>
      obtain ⟨hput, hmirrors⟩ := h.hypotheses.put id hop.1
      rw [retainPush_of_unused hop.2] at hmirrors
      simp only [SqliteHistory.put, hput]
      exact ⟨hmirrors, h.plans, h.executions, h.episodes, h.facts, h.procedures⟩
  | putPlan id plan =>
      obtain ⟨hput, hmirrors⟩ := h.plans.put id hop.1
      rw [retainPush_of_unused hop.2] at hmirrors
      simp only [SqliteHistory.put, hput]
      exact ⟨h.hypotheses, hmirrors, h.executions, h.episodes, h.facts, h.procedures⟩
  | putExecution id execution =>
      obtain ⟨hput, hmirrors⟩ := h.executions.put id hop.1
      rw [retainPush_of_unused hop.2] at hmirrors
      simp only [SqliteHistory.put, hput]
      exact ⟨h.hypotheses, h.plans, hmirrors, h.episodes, h.facts, h.procedures⟩
  | putEpisode id episode =>
      obtain ⟨hput, hmirrors⟩ := h.episodes.put id hop
      simp only [SqliteHistory.put, hput]
      exact ⟨h.hypotheses, h.plans, h.executions, hmirrors, h.facts, h.procedures⟩
  | putFact fact =>
      obtain ⟨hput, hmirrors⟩ := h.facts.put fact.key hop.1
      rw [retainPush_facts, ← filter_key hop.2] at hmirrors
      simp only [SqliteHistory.put, hput]
      exact ⟨h.hypotheses, h.plans, h.executions, h.episodes, hmirrors, h.procedures⟩
  | putProcedure id procedure =>
      obtain ⟨hput, hmirrors⟩ := h.procedures.put id hop
      simp only [SqliteHistory.put, hput]
      exact ⟨h.hypotheses, h.plans, h.executions, h.episodes, h.facts, hmirrors⟩

/-- Stores that still list the same after a put got one that is orderly. -/
theorem orderly_of_alike (h : Mirrored codecs stores)
    (halike : (stores.step codecs op).Alike codecs) : stores.Orderly codecs op := by
  cases op with
  | putHypothesis id hypothesis =>
      obtain ⟨hread, hothers⟩ := h.hypotheses.of_put SqliteHistory.reasoningHypotheses
        (fun table => { stores.sqlite with reasoningHypotheses := table }) (fun _ => rfl)
        halike.hypotheses List.map_append
      exact ⟨hread, unused_of_filter hothers⟩
  | putPlan id plan =>
      obtain ⟨hread, hothers⟩ := h.plans.of_put SqliteHistory.reasoningPlans
        (fun table => { stores.sqlite with reasoningPlans := table }) (fun _ => rfl)
        halike.plans List.map_append
      exact ⟨hread, unused_of_filter hothers⟩
  | putExecution id execution =>
      obtain ⟨hread, hothers⟩ := h.executions.of_put SqliteHistory.reasoningExecutions
        (fun table => { stores.sqlite with reasoningExecutions := table }) (fun _ => rfl)
        halike.executions List.map_append
      exact ⟨hread, unused_of_filter hothers⟩
  | putEpisode id episode =>
      exact (h.episodes.of_put SqliteHistory.memoryEpisodes
        (fun table => { stores.sqlite with memoryEpisodes := table }) (fun _ => rfl)
        halike.episodes List.map_append).1
  | putFact fact =>
      have hfacts := halike.facts
      unfold SqliteHistory.listFacts at hfacts
      cases hlist : listJsonOrdered codecs.fact
          (stores.step codecs (.putFact fact)).sqlite.memoryFacts with
      | error error =>
          rw [hlist] at hfacts
          cases hfacts
      | ok listed =>
          rw [hlist] at hfacts
          obtain ⟨hread, hothers⟩ := h.facts.of_put SqliteHistory.memoryFacts
            (fun table => { stores.sqlite with memoryFacts := table }) (fun _ => rfl) hlist
            (Except.ok.inj hfacts)
          refine ⟨hread, fun other hother hkey => ?_⟩
          have hsnd : (Prod.snd ∘ fun fact : Fact => (fact.key, fact)) = id := rfl
          rw [List.filter_map, List.map_map, hsnd, List.map_id] at hothers
          -- a fact that is not superseded is kept, and so its key is another
          by_contra hkeeps
          have hmem : other ∈ stores.memory.facts.filter fun other => !fact.supersedes other :=
            List.mem_filter.mpr ⟨hother, by simpa using hkeeps⟩
          rw [hothers] at hmem
          exact absurd hkey (by simpa using (List.mem_filter.mp hmem).2)
  | putProcedure id procedure =>
      exact (h.procedures.of_put SqliteHistory.memoryProcedures
        (fun table => { stores.sqlite with memoryProcedures := table }) (fun _ => rfl)
        halike.procedures List.map_append).1

/-- **The history.** After every put both stores list the same, exactly when every record put reads
back, no hypothesis, plan or execution is put under an id that is used, and no fact has the key of
a fact of another subject or attribute. -/
theorem history_alike_iff (codecs : HistoryCodecs A) (ops : List (HistoryOp A)) :
    (∀ n, (Machine.run (step codecs) start (ops.take n)).Alike codecs) ↔
      Machine.Every (step codecs) (Orderly codecs) start ops :=
  Machine.every_true.forall_take_iff mirrored_start (fun _ hs => hs.alike)
    (fun _ _ hs _ hop => hs.step hop) fun _ _ hs _ halike => orderly_of_alike hs halike

theorem executions_step {id : Uuid} {execution : A.Execution} :
    (stores.step codecs (.putExecution id execution)).sqlite.reasoningExecutions =
      kept stores.sqlite.reasoningExecutions
        (putJson codecs.execution stores.sqlite.reasoningExecutions id execution) :=
  kept_bind SqliteHistory.reasoningExecutions
    (fun table => { stores.sqlite with reasoningExecutions := table }) fun _ => rfl

theorem facts_step {fact : Fact} :
    (stores.step codecs (.putFact fact)).sqlite.memoryFacts =
      kept stores.sqlite.memoryFacts
        (putJson codecs.fact stores.sqlite.memoryFacts fact.key fact) :=
  kept_bind SqliteHistory.memoryFacts
    (fun table => { stores.sqlite with memoryFacts := table }) fun _ => rfl

/-- Of two executions that are put under one id the memory lists both, and the database the
last. -/
theorem executions_listed {first last : A.Execution} (hfirst : codecs.execution.ReadsBack first)
    (hlast : codecs.execution.ReadsBack last) (id : Uuid) :
    let stores := Machine.run (step codecs) start [.putExecution id first, .putExecution id last]
    stores.memory.executions = [(id, first), (id, last)] ∧
      stores.sqlite.listExecutions codecs = .ok [(id, last)] := by
  refine ⟨rfl, ?_⟩
  obtain ⟨hput, hmirrors⟩ := mirrors_empty.put id hfirst
  obtain ⟨hput', hmirrors'⟩ := hmirrors.put id hlast
  rw [Machine.run_cons, Machine.run_singleton, SqliteHistory.listExecutions, executions_step,
    executions_step]
  simp only [start, SqliteHistory.new, hput, kept, hput', hmirrors'.list]
  simp [retainPush]

/-- Of two facts with one key the memory lists both, where they are of different subjects, and the
database the last. -/
theorem facts_listed {first last : Fact} (hfirst : codecs.fact.ReadsBack first)
    (hlast : codecs.fact.ReadsBack last) (hsubject : first.subject ≠ last.subject)
    (hkey : first.key = last.key) :
    let stores := Machine.run (step codecs) start [.putFact first, .putFact last]
    stores.memory.facts = [first, last] ∧ stores.sqlite.listFacts codecs = .ok [last] := by
  have hkeeps : last.supersedes first = false := by simp [Fact.supersedes, hsubject]
  refine ⟨by simp [Machine.run_cons, step, InMemoryHistory.put, start, InMemoryHistory.new,
    hkeeps], ?_⟩
  obtain ⟨hput, hmirrors⟩ := mirrors_empty.put first.key hfirst
  obtain ⟨hput', hmirrors'⟩ := hmirrors.put last.key hlast
  rw [Machine.run_cons, Machine.run_singleton, SqliteHistory.listFacts, facts_step, facts_step]
  simp only [start, SqliteHistory.new, hput, kept, hput', hmirrors'.list]
  simp [retainPush, hkey]

/-- Executions and facts. -/
def sampleArtifacts : Artifacts := ⟨Empty, Empty, Execution, Empty, Empty⟩

/-- The two steps of a plan. -/
def reclaimed : Execution :=
  ⟨⟨⟨CapabilityId.hostMemoryReclaim, CapabilityId.hostMemoryReclaim_valid⟩, none, .object []⟩,
    .completed, .null⟩

def restarted : Execution :=
  ⟨⟨⟨CapabilityId.hostServiceRestart, CapabilityId.hostServiceRestart_valid⟩, none,
    .object [("unit", .string "web.service")]⟩, .completed, .null⟩

/-- The `expiry` of `web#tls`, and the `tls#expiry` of `web`. -/
def portExpiry : Fact := ⟨⟨"service:web#tls"⟩, "expiry", "2026-12-01", "operator", ⟨0⟩⟩

def webExpiry : Fact := ⟨⟨"service:web"⟩, "tls#expiry", "2027-01-01", "operator", ⟨0⟩⟩

/-- The records, and what `serde_json` writes for them. -/
def executionTexts : List (Execution × String) :=
  [(reclaimed, "\x7b\"action\":\x7b\"capability\":\"host.memory.reclaim\"," ++
      "\"resource\":null,\"arguments\":\x7b\x7d\x7d,\"status\":\"completed\"," ++
      "\"evidence\":null\x7d"),
    (restarted, "\x7b\"action\":\x7b\"capability\":\"host.service.restart\"," ++
      "\"resource\":null,\"arguments\":\x7b\"unit\":\"web.service\"\x7d\x7d," ++
      "\"status\":\"completed\",\"evidence\":null\x7d")]

def factTexts : List (Fact × String) :=
  [(portExpiry, "\x7b\"subject\":\"service:web#tls\",\"attribute\":\"expiry\"," ++
      "\"value\":\"2026-12-01\",\"source\":\"operator\"," ++
      "\"learned_at\":\"1970-01-01T00:00:00Z\"\x7d"),
    (webExpiry, "\x7b\"subject\":\"service:web\",\"attribute\":\"tls#expiry\"," ++
      "\"value\":\"2027-01-01\",\"source\":\"operator\"," ++
      "\"learned_at\":\"1970-01-01T00:00:00Z\"\x7d")]

def executionCodec : Codec Execution := .ofTexts executionTexts

def factCodec : Codec Fact := .ofTexts factTexts

def sampleCodecs : HistoryCodecs sampleArtifacts where
  hypothesis := ⟨Empty.elim, fun _ => .error "unknown text"⟩
  plan := ⟨Empty.elim, fun _ => .error "unknown text"⟩
  execution := executionCodec
  episode := ⟨Empty.elim, fun _ => .error "unknown text"⟩
  fact := factCodec
  procedure := ⟨Empty.elim, fun _ => .error "unknown text"⟩

/-- The executions of a plan of two steps, and two facts whose keys are the same text. -/
theorem history_differs :
    ((Machine.run (step sampleCodecs) start
        [.putExecution 7 reclaimed, .putExecution 7 restarted]).memory.executions =
          [(7, reclaimed), (7, restarted)] ∧
      (Machine.run (step sampleCodecs) start
        [.putExecution 7 reclaimed, .putExecution 7 restarted]).sqlite.listExecutions
          sampleCodecs = .ok [(7, restarted)]) ∧
    (Machine.run (step sampleCodecs) start
        [.putFact portExpiry, .putFact webExpiry]).memory.facts = [portExpiry, webExpiry] ∧
      (Machine.run (step sampleCodecs) start
        [.putFact portExpiry, .putFact webExpiry]).sqlite.listFacts sampleCodecs =
          .ok [webExpiry] := by
  have hexecution (entry : Execution × String) (hentry : entry ∈ executionTexts) :
      executionCodec.ReadsBack entry.1 :=
    Codec.readsBack_ofTexts (by decide) (by decide) hentry
  have hfact (entry : Fact × String) (hentry : entry ∈ factTexts) :
      factCodec.ReadsBack entry.1 :=
    Codec.readsBack_ofTexts (by decide) (by decide) hentry
  constructor
  · exact executions_listed (hexecution _ List.mem_cons_self)
      (hexecution _ (List.mem_cons_of_mem _ List.mem_cons_self)) 7
  · exact facts_listed (hfact _ List.mem_cons_self)
      (hfact _ (List.mem_cons_of_mem _ List.mem_cons_self)) (by decide) (by decide)

end HistoryStores

end Argus
