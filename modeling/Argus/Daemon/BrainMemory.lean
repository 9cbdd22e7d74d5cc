import Argus.Daemon.BrainRecurrence

/-!
# What the brain remembers of its plans

The tail of `act` remembers an episode and the outcome of a procedure for each plan, in memory
that success rates are read from. It does so when the run ends and when it pauses, and the run
that is resumed after a pause remembers nothing. A run that was refused before anything ran is
remembered like one that failed, where the history of the runbook records nothing.

The history that happened is kept beside it: a plan is an attempt when it ends after at least
one execution. The two agree in every state of a run exactly when each run of a plan ends at
once, after an execution (`history_real_iff`). The repository is taken to keep what it is given,
and a procedure is read and written back in one step.
-/

namespace Argus

/-- The promotion status of a remembered procedure. -/
inductive ProcedureStatus
  | candidate
  | approved
  | promoted
  deriving DecidableEq

/-- A remembered procedure, with its outcomes. -/
structure ProcedureRecord where
  trigger : String
  name : String
  status : ProcedureStatus
  attempts : Nat
  successes : Nat
  firstSeen : DateTime
  lastSeen : DateTime
  deriving DecidableEq

namespace ProcedureRecord

def new (trigger name : String) (status : ProcedureStatus) (at_ : DateTime) : ProcedureRecord :=
  ⟨trigger, name, status, 0, 0, at_, at_⟩

/-- Records one outcome. The counters have 32 bits. -/
def recordOutcome (p : ProcedureRecord) (success : Bool) (at_ : DateTime) : ProcedureRecord :=
  { p with
    attempts := (p.attempts + 1) % 2 ^ 32
    successes := if success then (p.successes + 1) % 2 ^ 32 else p.successes
    lastSeen := at_ }

/-- The record is of the objective and the signature. -/
def isOf (p : ProcedureRecord) (name trigger : String) : Bool :=
  p.name == name && p.trigger == trigger

end ProcedureRecord

inductive EpisodeOutcome
  | resolved
  | recurred
  | unresolved
  deriving DecidableEq

/-- A remembered episode, and the attempt it is of. -/
structure Episode where
  symptom : String
  remediation : Option String
  outcome : EpisodeOutcome
  startedAt : DateTime
  resolvedAt : Option DateTime
  attempt : Nat
  deriving DecidableEq

/-- What the repository keeps of it. -/
structure Memory where
  episodes : List Episode
  procedures : List ProcedureRecord

namespace Memory

/-- Records an outcome with the first record of the objective and the signature, or with a new
one. -/
def note (name trigger : String) (resolved : Bool) (now : DateTime) :
    List ProcedureRecord → List ProcedureRecord
  | [] => [(ProcedureRecord.new trigger name .candidate now).recordOutcome resolved now]
  | p :: rest =>
      if p.isOf name trigger then p.recordOutcome resolved now :: rest
      else p :: note name trigger resolved now rest

def remember (memory : Memory) (attempt : Nat) (signature : String) (objective : Option String)
    (resolved : Bool) (now : DateTime) : Memory where
  episodes := memory.episodes ++ [
    { symptom := signature
      remediation := objective
      outcome := if resolved then .resolved else .unresolved
      startedAt := now
      resolvedAt := if resolved then some now else none
      attempt }]
  procedures := note (objective.getD signature) signature resolved now memory.procedures

/-- The attempts and the successes on record. -/
def tally (procedures : List ProcedureRecord) (name trigger : String) : Nat × Nat :=
  match procedures.find? fun p => p.isOf name trigger with
  | some p => (p.attempts, p.successes)
  | none => (0, 0)

/-- One more attempt. -/
def bump (success : Bool) (counts : Nat × Nat) : Nat × Nat :=
  ((counts.1 + 1) % 2 ^ 32, if success then (counts.2 + 1) % 2 ^ 32 else counts.2)

theorem bump_ne {success : Bool} {counts : Nat × Nat} : bump success counts ≠ counts := by
  intro heq
  have hfirst : (counts.1 + 1) % 2 ^ 32 = counts.1 := congrArg Prod.fst heq
  omega

/-- An outcome is added to the record of its objective and signature, and to no other. -/
theorem tally_note (procedures : List ProcedureRecord) (name trigger name' trigger' : String)
    (resolved : Bool) (now : DateTime) :
    tally (note name trigger resolved now procedures) name' trigger' =
      if name' = name ∧ trigger' = trigger then bump resolved (tally procedures name trigger)
      else tally procedures name' trigger' := by
  induction procedures with
  | nil =>
      by_cases hkey : name' = name ∧ trigger' = trigger
      · obtain ⟨rfl, rfl⟩ := hkey
        simp [note, tally, ProcedureRecord.new, ProcedureRecord.recordOutcome,
          ProcedureRecord.isOf, bump]
      · have hother : ¬ (name = name' ∧ trigger = trigger') :=
          fun h => hkey ⟨h.1.symm, h.2.symm⟩
        simp [note, tally, ProcedureRecord.new, ProcedureRecord.recordOutcome,
          ProcedureRecord.isOf, hkey, hother]
  | cons p rest ih =>
      rw [note]
      split_ifs with hof hkey hkey
      · -- the record is found, and it is the one asked for
        obtain ⟨rfl, rfl⟩ := hkey
        have hsame : (p.recordOutcome resolved now).isOf name' trigger' = true := hof
        simp only [tally, List.find?_cons, hof, hsame]
        rfl
      · have hother : p.isOf name' trigger' = false := by
          rw [← Bool.not_eq_true]
          rintro hp
          simp only [ProcedureRecord.isOf, Bool.and_eq_true, beq_iff_eq] at hof hp
          exact hkey ⟨hp.1.symm.trans hof.1, hp.2.symm.trans hof.2⟩
        have hrecorded : (p.recordOutcome resolved now).isOf name' trigger' = false := hother
        simp only [tally, List.find?_cons, hother, hrecorded]
      · obtain ⟨rfl, rfl⟩ := hkey
        rw [if_pos ⟨rfl, rfl⟩] at ih
        have hnot : p.isOf name' trigger' = false := by simpa using hof
        simpa only [tally, List.find?_cons, hnot] using ih
      · rw [if_neg hkey] at ih
        cases hp : p.isOf name' trigger' with
        | true => simp [tally, hp]
        | false => simpa only [tally, List.find?_cons, hp] using ih

end Memory

/-! ### Plans and what they came to -/

/-- The signature the plan of an attempt is remembered under: that of its situation on the
procedure path, and the host's on the provider's. -/
def Attempt.signature (a : Attempt) : String :=
  match a.evidenceKey, a.situations with
  | none, s :: _ => s.signature
  | _, _ => hostHealth

namespace RunOutcome

/-- What `act` remembers as resolved. -/
def resolved : RunOutcome → Bool
  | .finished report => report.status == .completed
  | .pending _ => false

/-- The run ended after an execution. -/
def attempted : RunOutcome → Bool
  | .finished report => !report.executions.isEmpty
  | .pending _ => false

end RunOutcome

/-- A plan that ended after an execution. -/
structure RealAttempt where
  objective : String
  signature : String
  completed : Bool
  deriving DecidableEq

/-- The attempts and successes of an objective and a signature. -/
def tallied (history : List RealAttempt) (objective signature : String) : Nat × Nat :=
  (history.countP (fun a => a.objective == objective && a.signature == signature) % 2 ^ 32,
    history.countP (fun a => a.objective == objective && a.signature == signature && a.completed) %
      2 ^ 32)

theorem tallied_snoc (history : List RealAttempt) (a : RealAttempt) (objective signature : String) :
    tallied (history ++ [a]) objective signature =
      if objective = a.objective ∧ signature = a.signature then
        Memory.bump a.completed (tallied history a.objective a.signature)
      else tallied history objective signature := by
  split_ifs with hkey
  · obtain ⟨rfl, rfl⟩ := hkey
    refine Prod.ext ?_ ?_
    · simp only [tallied, Memory.bump, List.countP_append, List.countP_singleton, beq_self_eq_true,
        Bool.and_self, if_true]
      omega
    · cases hcompleted : a.completed with
      | true =>
          simp only [tallied, Memory.bump, List.countP_append, List.countP_singleton, hcompleted,
            beq_self_eq_true, Bool.and_self, if_true]
          omega
      | false =>
          simp only [tallied, Memory.bump, List.countP_append, List.countP_singleton, hcompleted,
            Bool.and_false, Bool.false_eq_true, if_false, Nat.add_zero]
  · have hother : (a.objective == objective && a.signature == signature) = false := by
      rw [← Bool.not_eq_true]
      intro h
      simp only [Bool.and_eq_true, beq_iff_eq] at h
      exact hkey ⟨h.1.symm, h.2.symm⟩
    simp only [tallied, List.countP_append, List.countP_singleton, hother, Bool.false_and,
      Bool.false_eq_true, if_false, Nat.add_zero]

/-- A brain with its memory, and with the history that happened. -/
structure Remembering where
  brain : Brain
  memory : Memory
  /-- The attempts that executed a step before they paused. -/
  begun : List Nat
  history : List RealAttempt

namespace Remembering

variable (toJson : Value → String) (config : SituationsConfig)

def start : Remembering := ⟨.start, ⟨[], []⟩, [], []⟩

/-- The run of a plan that an event ends. -/
def runEnds (b : Brain) : CycleEvent → Option (Nat × Attempt × Plan × RunOutcome)
  | .ran id outcome =>
      match b.attempts[id]? with
      | some a =>
          match a.phase with
          | .running plan => some (id, a, plan, outcome)
          | _ => none
      | none => none
  | _ => none

/-- The resumed run that an event ends. -/
def resumeEnds (b : Brain) : CycleEvent → Option (Nat × Attempt × Plan × ExecutionOutcome)
  | .resumed id (.finished report) =>
      match b.attempts[id]? with
      | some a =>
          match a.phase with
          | .resuming plan => some (id, a, plan, report)
          | _ => none
      | none => none
  | _ => none

/-- What `act` remembers at the end of a run; a resume remembers nothing. -/
def remembered (s : Remembering) (e : CycleEvent) (now : DateTime) : Memory :=
  match runEnds s.brain e with
  | none => s.memory
  | some (id, a, plan, outcome) =>
      s.memory.remember id a.signature (some plan.objective) outcome.resolved now

/-- The plans that end after an execution, in this run or before they paused. -/
def ended (s : Remembering) (e : CycleEvent) : List RealAttempt :=
  match runEnds s.brain e, resumeEnds s.brain e with
  | some (_, a, plan, outcome), _ =>
      if outcome.attempted then [⟨plan.objective, a.signature, outcome.resolved⟩] else []
  | none, some (id, a, plan, report) =>
      if !report.executions.isEmpty || s.begun.contains id then
        [⟨plan.objective, a.signature, report.status == .completed⟩]
      else []
  | none, none => []

/-- The attempts that pause after an execution. -/
def pauses (b : Brain) (e : CycleEvent) : List Nat :=
  match runEnds b e with
  | some (id, _, _, .pending pending) => if pending.executed.isEmpty then [] else [id]
  | _ => []

def step (s : Remembering) (e : CycleEvent × DateTime) : Remembering where
  brain := s.brain.step toJson config e.1
  memory := s.remembered e.1 e.2
  begun := s.begun ++ pauses s.brain e.1
  history := s.history ++ s.ended e.1

/-- The plan of the attempt completed. -/
def Completed (b : Brain) (id : Nat) : Prop :=
  ∃ a, b.attempts[id]? = some a ∧ a.phase = .ended true

/-- What is remembered is what happened. -/
structure Real (s : Remembering) : Prop where
  /-- The attempts and the successes of each procedure. -/
  tally : ∀ objective signature, Memory.tally s.memory.procedures objective signature =
    tallied s.history objective signature
  episodes : ∀ episode ∈ s.memory.episodes,
    (episode.outcome = .resolved ↔ Completed s.brain episode.attempt)

/-- A run that ends, ends after an execution. -/
def Attempted (s : Remembering) (e : CycleEvent × DateTime) : Prop :=
  ∀ run ∈ runEnds s.brain e.1, run.2.2.2.attempted = true

instance (s : Remembering) (e : CycleEvent × DateTime) : Decidable (s.Attempted e) :=
  inferInstanceAs (Decidable (∀ _ ∈ _, _))

variable {toJson config} {s : Remembering} {e : CycleEvent} {now : DateTime}

/-! ### One event -/

/-- The run of an attempt that is running its plan. -/
theorem runEnds_eq {id : Nat} {a : Attempt} {plan : Plan} {outcome : RunOutcome}
    (h : runEnds s.brain e = some (id, a, plan, outcome)) :
    e = .ran id outcome ∧ s.brain.attempts[id]? = some a ∧ a.phase = .running plan := by
  unfold runEnds at h
  split at h
  next id outcome =>
    split at h
    next a ha =>
      split at h
      next plan hphase =>
        cases h
        exact ⟨rfl, ha, hphase⟩
      next => cases h
    next => cases h
  next => cases h

theorem resumeEnds_eq {id : Nat} {a : Attempt} {plan : Plan} {report : ExecutionOutcome}
    (h : resumeEnds s.brain e = some (id, a, plan, report)) :
    s.brain.attempts[id]? = some a ∧ a.phase = .resuming plan := by
  unfold resumeEnds at h
  split at h
  next id report =>
    split at h
    next a ha =>
      split at h
      next plan hphase =>
        cases h
        exact ⟨ha, hphase⟩
      next => cases h
    next => cases h
  next => cases h

/-- The end of a run is remembered whatever it came to, and happened if it was attempted. -/
theorem step_of_runEnds (toJson : Value → String) (config : SituationsConfig) (now : DateTime)
    {id : Nat} {a : Attempt} {plan : Plan} {outcome : RunOutcome}
    (h : runEnds s.brain e = some (id, a, plan, outcome)) :
    (s.step toJson config (e, now)).memory =
        s.memory.remember id a.signature (some plan.objective) outcome.resolved now ∧
      (s.step toJson config (e, now)).history = s.history ++
        if outcome.attempted then [⟨plan.objective, a.signature, outcome.resolved⟩] else [] := by
  simp only [step, remembered, ended, h]
  exact ⟨trivial, trivial⟩

/-- A run that was not attempted is remembered all the same. -/
theorem Real.attempted (h : Real s) (hstep : Real (s.step toJson config (e, now))) :
    s.Attempted (e, now) := by
  rintro ⟨id, a, plan, outcome⟩ hrun
  obtain ⟨hmemory, hhistory⟩ := step_of_runEnds toJson config now hrun
  by_contra hnot
  have htally := hstep.tally plan.objective a.signature
  rw [hmemory, hhistory, if_neg hnot, List.append_nil, ← h.tally] at htally
  have hbumped := Memory.tally_note s.memory.procedures plan.objective a.signature plan.objective
    a.signature outcome.resolved now
  rw [if_pos ⟨rfl, rfl⟩] at hbumped
  exact Memory.bump_ne (hbumped.symm.trans htally)

/-- The tallies agree after an event, if they did before and a run that ended was attempted. -/
theorem tally_step (h : Real s) (hattempted : s.Attempted (e, now))
    (hresumed : resumeEnds s.brain e = none) (objective signature : String) :
    Memory.tally (s.step toJson config (e, now)).memory.procedures objective signature =
      tallied (s.step toJson config (e, now)).history objective signature := by
  cases hrun : runEnds s.brain e with
  | none =>
      simp only [step, remembered, ended, hrun, hresumed, List.append_nil]
      exact h.tally objective signature
  | some run =>
      obtain ⟨id, a, plan, outcome⟩ := run
      obtain ⟨hmemory, hhistory⟩ := step_of_runEnds toJson config now hrun
      have hreal : outcome.attempted = true := hattempted _ hrun
      rw [hmemory, hhistory, if_pos hreal, tallied_snoc, ← h.tally, ← h.tally]
      exact Memory.tally_note s.memory.procedures plan.objective a.signature objective signature
        outcome.resolved now

/-! ### Runs without a pause -/

variable {b : Brain} {d : InMemoryDedup} {attempts : List Attempt}

/-- An attempt that ended stays as it is. -/
theorem ended_of_change {id : Nat} {a : Attempt} {completed : Bool}
    (h : Brain.Change toJson config b e d attempts) (ha : b.attempts[id]? = some a)
    (hended : a.phase = .ended completed) : attempts[id]? = some a := by
  have hlt : id < b.attempts.length := (List.getElem?_eq_some_iff.mp ha).1
  cases h with
  | same => exact ha
  | resolved he => exact ha
  | dropped hw hd => exact ha
  | procedure hw hs hp hd => rw [List.getElem?_append_left hlt, ha]
  | asked hw hd hd' => rw [List.getElem?_append_left hlt, ha]
  | @advanced id' a' phase keys hid ha' hm =>
      have hne : id' ≠ id := by
        rintro rfl
        obtain rfl : a' = a := by simpa [ha] using ha'.symm
        have hunfinished := (Brain.moved_of_after hm).unfinished
        rw [hended] at hunfinished
        cases hunfinished
      rw [List.getElem?_set_ne hne, ha]

/-- No plan waits for the operator. -/
def Unpaused (attempts : List Attempt) : Prop :=
  ∀ a ∈ attempts, ∀ plan, a.phase ≠ .paused plan ∧ a.phase ≠ .resuming plan

/-- Only a run that pauses makes a plan wait. -/
theorem unpaused_of_change (h : Brain.Change toJson config b e d attempts)
    (hunpaused : Unpaused b.attempts)
    (hruns : ∀ run ∈ runEnds b e, run.2.2.2.attempted = true) : Unpaused attempts := by
  cases h with
  | same => exact hunpaused
  | resolved he => exact hunpaused
  | dropped hw hd => exact hunpaused
  | procedure hw hs hp hd =>
      intro a ha plan
      rcases List.mem_append.mp ha with hold | hnew
      · exact hunpaused a hold plan
      · obtain rfl := List.mem_singleton.mp hnew
        simp
  | asked hw hd hd' =>
      intro a ha plan
      rcases List.mem_append.mp ha with hold | hnew
      · exact hunpaused a hold plan
      · obtain rfl := List.mem_singleton.mp hnew
        simp
  | @advanced id a phase keys hid ha hm =>
      have hbefore := hunpaused a (List.mem_of_getElem? ha)
      intro a' ha' plan
      rcases List.mem_or_eq_of_mem_set ha' with hold | rfl
      · exact hunpaused a' hold plan
      · cases Brain.moved_of_after hm with
        | granted hp => exact absurd hp (hbefore _).1
        | @paused id' pending running hp =>
            obtain rfl : id' = id := Option.some.inj hid
            have hattempted := hruns (id', a, running, .pending pending)
              (by simp [runEnds, ha, hp])
            cases hattempted
        | _ => simp

/-- What holds while no run pauses: the episodes are of plans that ended. -/
structure Settled (s : Remembering) : Prop where
  tally : ∀ objective signature, Memory.tally s.memory.procedures objective signature =
    tallied s.history objective signature
  unpaused : Unpaused s.brain.attempts
  episodes : ∀ episode ∈ s.memory.episodes, ∃ a completed,
    s.brain.attempts[episode.attempt]? = some a ∧ a.phase = .ended completed ∧
      (episode.outcome = .resolved ↔ completed = true)

theorem settled_start : Settled start := by
  refine ⟨fun _ _ => rfl, ?_, ?_⟩
  · intro a ha
    cases ha
  · intro episode hepisode
    cases hepisode

theorem Settled.real (h : Settled s) : Real s := by
  refine ⟨h.tally, ?_⟩
  intro episode hepisode
  obtain ⟨a, completed, ha, hended, houtcome⟩ := h.episodes episode hepisode
  rw [houtcome]
  constructor
  · rintro rfl
    exact ⟨a, ha, hended⟩
  · rintro ⟨a', ha', hended'⟩
    rw [ha] at ha'
    cases ha'
    rw [hended] at hended'
    cases hended'
    rfl

/-- A plan that was attempted is over when its run ends. -/
theorem ended_of_attempted {id : Nat} {a : Attempt} {plan : Plan} {outcome : RunOutcome}
    (h : runEnds s.brain e = some (id, a, plan, outcome)) (hattempted : outcome.attempted = true) :
    (s.brain.step toJson config e).attempts[id]? =
      some { a with phase := .ended outcome.resolved } := by
  obtain ⟨rfl, ha, hphase⟩ := runEnds_eq h
  have hlt : id < s.brain.attempts.length := (List.getElem?_eq_some_iff.mp ha).1
  have hafter : ∃ keys, Brain.after a (.ran id outcome) = some (.ended outcome.resolved, keys) := by
    cases outcome with
    | pending pending => cases hattempted
    | finished report =>
        simp only [Brain.after, hphase, Brain.afterRun, RunOutcome.resolved]
        split
        next hs => exact ⟨[], by rw [hs]; rfl⟩
        next hs => exact ⟨[a.dedupKey], by rw [beq_eq_false_iff_ne.mpr hs]⟩
  obtain ⟨keys, hafter⟩ := hafter
  simp only [Brain.step, Brain.advance, ha, hafter, Brain.settle, List.getElem?_set_self hlt]

theorem Settled.step (h : Settled s) (hattempted : s.Attempted (e, now)) :
    Settled (s.step toJson config (e, now)) where
  tally := by
    refine tally_step h.real hattempted ?_
    rw [Option.eq_none_iff_forall_not_mem]
    rintro ⟨id, a, plan, report⟩ hresumed
    obtain ⟨ha, hphase⟩ := resumeEnds_eq hresumed
    exact (h.unpaused a (List.mem_of_getElem? ha) plan).2 hphase
  unpaused := unpaused_of_change Brain.step_change h.unpaused hattempted
  episodes := by
    -- an episode that is there is of a plan that ended and stays so
    have hold : ∀ episode ∈ s.memory.episodes, ∃ a completed,
        (s.brain.step toJson config e).attempts[episode.attempt]? = some a ∧
          a.phase = .ended completed ∧ (episode.outcome = .resolved ↔ completed = true) := by
      intro episode hepisode
      obtain ⟨a, completed, ha, hended, houtcome⟩ := h.episodes episode hepisode
      exact ⟨a, completed, ended_of_change Brain.step_change ha hended, hended, houtcome⟩
    intro episode hepisode
    cases hrun : runEnds s.brain e with
    | none =>
        simp only [Remembering.step, remembered, hrun] at hepisode
        exact hold episode hepisode
    | some run =>
        obtain ⟨id, a, plan, outcome⟩ := run
        rw [(step_of_runEnds toJson config now hrun).1] at hepisode
        rcases List.mem_append.mp hepisode with hepisode | hnew
        · exact hold episode hepisode
        · obtain rfl := List.mem_singleton.mp hnew
          refine ⟨_, outcome.resolved, ended_of_attempted hrun (hattempted _ hrun), rfl, ?_⟩
          cases outcome.resolved <;> simp

/-- What is remembered is what happened, in every state of a run, exactly when each run of a plan
ends after an execution. -/
theorem history_real_iff (toJson : Value → String) (config : SituationsConfig)
    (events : List (CycleEvent × DateTime)) :
    (∀ n, Real (Machine.run (Remembering.step toJson config) start (events.take n))) ↔
      Machine.Every (Remembering.step toJson config) Attempted start events :=
  Machine.forall_take_iff_every settled_start (fun _ => Settled.real) (fun _ _ => Settled.step)
    (fun _ _ => Real.attempted)

/-! Three plans for a full memory: one waits for the operator, one is granted and completes, and
one is refused before it runs. -/

open Brain

def reclaimStarts : List (CycleEvent × DateTime) :=
  [(.collect (memoryHost 95) defaultThreshold, ⟨0⟩),
    (.consider 0 [reclaimRunbook] [reclaimDescriptor], ⟨0⟩)]

def reclaimWaits : List (CycleEvent × DateTime) :=
  reclaimStarts ++ [(.ran 0 (awaiting reclaimPlan), ⟨1⟩)]

def reclaimGranted : List (CycleEvent × DateTime) :=
  reclaimWaits ++ [(.grant 0, ⟨2⟩), (.resumed 0 (.finished (completedRun reclaimAction)), ⟨3⟩)]

def reclaimRefused : List (CycleEvent × DateTime) :=
  reclaimStarts ++ [(.ran 0 (.finished ⟨[], [memoryReclaim], [], .denied, 0⟩), ⟨1⟩)]

/-- What is on record for the reclaim, and what happened. -/
def reclaimTallies (events : List (CycleEvent × DateTime)) : (Nat × Nat) × (Nat × Nat) :=
  let s := Machine.run (Remembering.step evidenceJson .default) start events
  (Memory.tally s.memory.procedures reclaimPlan.objective memoryPressure,
    tallied s.history reclaimPlan.objective memoryPressure)

/-- Each is on record as one failed attempt: the pause and the refusal, where nothing ran, and the
success. -/
theorem remembered_not_real :
    reclaimTallies reclaimWaits = ((1, 0), (0, 0)) ∧
      reclaimTallies reclaimGranted = ((1, 0), (1, 1)) ∧
      reclaimTallies reclaimRefused = ((1, 0), (0, 0)) ∧
      ¬ ∀ events, Real (Machine.run (Remembering.step evidenceJson .default) start events) := by
  refine ⟨by decide +kernel, by decide +kernel, by decide +kernel, ?_⟩
  intro h
  have htallies : (reclaimTallies reclaimWaits).1 = (reclaimTallies reclaimWaits).2 :=
    (h reclaimWaits).tally reclaimPlan.objective memoryPressure
  revert htallies
  decide +kernel

end Remembering
end Argus
