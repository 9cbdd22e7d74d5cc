import Argus.Daemon.Situation
import Argus.Lib.Machine

/-!
# The brain's cycles

A cycle takes its situations one by one. A situation with a promoted runbook gets the
runbook's procedure; if no procedure was started, the provider is asked once about all of
them. Before a plan is built the cycle claims a key, and a key that is already claimed makes
it pass: one key for a procedure, two for the provider (the key of the set, then the key of
the evidence).

The machine interleaves any number of cycles with the runs they wait for and with the
operator's decisions. A cycle moves from one wait to the next in one event: the provider's
reply, the end of a run and the end of a resumed run are events of their own, so plans are
in flight while other cycles start. An *attempt* is what a granted key stands for, from the
claim to the end of the plan. The attempts that ended stay on record.
-/

namespace Argus

open Ieee (Datum)

/-! ### The dedup set -/

/-- A key of the set. The code keeps the text only: the attempt that claimed it is on record
for the statements, and no operation reads it. -/
structure ClaimedKey where
  key : String
  attempt : Nat
  deriving DecidableEq

/-- The keys claimed so far, each once. The set is cleared rather than grown over
`maxKeys`. -/
structure InMemoryDedup where
  seen : List ClaimedKey
  maxKeys : Nat
  keyed : (seen.map ClaimedKey.key).Nodup

namespace InMemoryDedup

def withCapacity (maxKeys : Nat) : InMemoryDedup := ⟨[], max maxKeys 1, List.nodup_nil⟩

def defaultMaxKeys : Nat := 1024

def new : InMemoryDedup := withCapacity defaultMaxKeys

/-- The claim a key was granted on. -/
def holder (d : InMemoryDedup) (key : String) : Option ClaimedKey :=
  d.seen.find? fun claimed => claimed.key == key

variable {d d' : InMemoryDedup} {key : String} {keys : List String} {attempt : Nat}
  {c c' : ClaimedKey}

theorem holder_eq_none : d.holder key = none ↔ ∀ c ∈ d.seen, c.key ≠ key := by
  simp [holder]

theorem mem_of_holder (h : d.holder key = some c) : c ∈ d.seen ∧ c.key = key :=
  ⟨List.mem_of_find?_eq_some h, by simpa using List.find?_some h⟩

theorem nodup_claimed (h : d.holder key = none) :
    ((⟨key, attempt⟩ :: if d.maxKeys ≤ d.seen.length then [] else d.seen :
      List ClaimedKey).map ClaimedKey.key).Nodup := by
  split
  · simp
  · rw [List.map_cons, List.nodup_cons]
    refine ⟨?_, d.keyed⟩
    intro hmem
    obtain ⟨c, hc, hkey⟩ := List.mem_map.mp hmem
    exact holder_eq_none.mp h c hc hkey

/-- Claims the key, unless it is already claimed. -/
def claim (d : InMemoryDedup) (key : String) (attempt : Nat) : Bool × InMemoryDedup :=
  match h : d.holder key with
  | some _ => (false, d)
  | none =>
      (true, ⟨⟨key, attempt⟩ :: if d.maxKeys ≤ d.seen.length then [] else d.seen,
        d.maxKeys, nodup_claimed h⟩)

def release (d : InMemoryDedup) (key : String) : InMemoryDedup :=
  { d with
    seen := d.seen.filter fun claimed => claimed.key != key
    keyed := (List.filter_sublist.map _).nodup d.keyed }

/-! What the operations do to the claims. -/

theorem eq_of_key_eq (hc : c ∈ d.seen) (hc' : c' ∈ d.seen) (h : c.key = c'.key) : c = c' :=
  List.inj_on_of_nodup_map d.keyed hc hc' h

@[simp] theorem mem_release : c ∈ (d.release key).seen ↔ c ∈ d.seen ∧ c.key ≠ key := by
  simp [release]

@[simp] theorem mem_releaseAll :
    c ∈ (keys.foldl release d).seen ↔ c ∈ d.seen ∧ c.key ∉ keys := by
  induction keys generalizing d with
  | nil => simp
  | cons key keys ih =>
      rw [List.foldl_cons, ih, mem_release, List.mem_cons, not_or, and_assoc]

theorem eq_of_refused (h : d.claim key attempt = (false, d')) : d' = d := by
  unfold claim at h
  split at h
  · cases h
    rfl
  · cases h

/-- A claim is granted only on a key that nobody holds. -/
theorem free_of_claim (h : d.claim key attempt = (true, d')) : ∀ c ∈ d.seen, c.key ≠ key := by
  unfold claim at h
  split at h
  · cases h
  · exact holder_eq_none.mp ‹_›

theorem holder_of_granted (h : d.claim key attempt = (true, d')) : d.holder key = none :=
  holder_eq_none.mpr (free_of_claim h)

theorem claim_of_free (attempt : Nat) (h : d.holder key = none) :
    ∃ d', d.claim key attempt = (true, d') := by
  unfold claim
  split
  · rename_i heq
    rw [h] at heq
    cases heq
  · exact ⟨_, rfl⟩

/-- A claim that finds the set full drops all other keys. -/
theorem seen_of_claim (h : d.claim key attempt = (true, d')) :
    d'.maxKeys = d.maxKeys ∧
      d'.seen = ⟨key, attempt⟩ :: if d.maxKeys ≤ d.seen.length then [] else d.seen := by
  unfold claim at h
  split at h
  · cases h
  · cases h
    exact ⟨rfl, rfl⟩

theorem mem_of_claim (h : d.claim key attempt = (true, d')) (hc : c ∈ d'.seen) :
    c = ⟨key, attempt⟩ ∨ c ∈ d.seen := by
  rw [(seen_of_claim h).2] at hc
  rcases List.mem_cons.mp hc with hc | hc
  · exact .inl hc
  · split at hc
    · cases hc
    · exact .inr hc

theorem claimed_mem (h : d.claim key attempt = (true, d')) : ⟨key, attempt⟩ ∈ d'.seen := by
  rw [(seen_of_claim h).2]
  exact List.mem_cons_self

theorem claim_keeps (h : d.claim key attempt = (true, d')) (hroom : d.seen.length < d.maxKeys)
    (hc : c ∈ d.seen) : c ∈ d'.seen := by
  rw [(seen_of_claim h).2, if_neg (Nat.not_le.mpr hroom)]
  exact List.mem_cons_of_mem _ hc

end InMemoryDedup

/-! ### Attempts and cycles -/

/-- How far an attempt is. -/
inductive Phase
  /-- The provider was asked. -/
  | deciding
  /-- The cycle waits for the run of the plan. -/
  | running (plan : Plan)
  /-- The plan waits for the operator. -/
  | paused (plan : Plan)
  /-- The plan was granted and its run resumed. -/
  | resuming (plan : Plan)
  | ended (completed : Bool)
  deriving DecidableEq

namespace Phase

/-- A plan is paused or in flight. -/
def IsOpen : Phase → Prop
  | running _ | paused _ | resuming _ => True
  | deciding | ended _ => False

def Unfinished : Phase → Prop
  | ended _ => False
  | _ => True

/-- The plan that is paused or in flight. -/
def plan : Phase → Option Plan
  | running plan | paused plan | resuming plan => some plan
  | deciding | ended _ => none

instance : (p : Phase) → Decidable p.IsOpen
  | running _ | paused _ | resuming _ => isTrue trivial
  | deciding | ended _ => isFalse id

instance : (p : Phase) → Decidable p.Unfinished
  | ended _ => isFalse id
  | deciding | running _ | paused _ | resuming _ => isTrue trivial

theorem IsOpen.unfinished {p : Phase} (h : p.IsOpen) : p.Unfinished := by
  cases p with
  | running | paused | resuming | deciding => trivial
  | ended => cases h

end Phase

/-- What a granted key stands for: the situations reasoned about, the key handed to `act`,
and on the provider path the key of the evidence. -/
structure Attempt where
  situations : List Situation
  dedupKey : String
  evidenceKey : Option String
  threshold : Datum
  phase : Phase

namespace Attempt

/-- The keys the attempt claimed. -/
def keys (a : Attempt) : List String := a.dedupKey :: a.evidenceKey.toList

/-- The attempt is about the situation. -/
def Covers (a : Attempt) (s : Situation) : Prop := ∃ t ∈ a.situations, t.Same s

instance (a : Attempt) (s : Situation) : Decidable (a.Covers s) :=
  inferInstanceAs (Decidable (∃ t ∈ a.situations, t.Same s))

/-- The shape of an attempt: its situations were collected; on the procedure path there is
one, with its own key, and the plan names its runbook; the provider is asked only on the
other path. -/
structure Formed (toJson : Value → String) (config : SituationsConfig) (a : Attempt) :
    Prop where
  collected : ∀ s ∈ a.situations, Collected config s
  single : a.evidenceKey = none →
    ∃ s, a.situations = [s] ∧ a.dedupKey = situationDedupKey toJson s
  attributed : a.evidenceKey = none → ∀ plan, a.phase.plan = some plan → plan.runbook.isSome
  asked : a.phase = .deciding → a.evidenceKey.isSome

/-- The key the stored approval of a paused plan carries: procedure plans carry theirs. -/
def pendingKey (a : Attempt) : Option String :=
  match a.phase with
  | .paused plan => if plan.runbook.isSome then some a.dedupKey else none
  | _ => none

end Attempt

/-- A cycle under way: the situations it has still to take up, whether a procedure was
started, and the attempt whose run it waits for. -/
structure CycleTask where
  situations : List Situation
  rest : List Situation
  procedureFired : Bool
  acting : Option Nat
  requested : Bool
  threshold : Datum

/-- The state the cycles share, and the cycles and attempts themselves. -/
structure Brain where
  dedup : InMemoryDedup
  cycles : List CycleTask
  attempts : List Attempt

/-- What happens to a brain. -/
inductive CycleEvent
  /-- A cycle starts: it reads the sensors and settles what resolved. -/
  | collect (sensors : Sensors) (threshold : Datum)
  /-- A cycle takes up its next situation, with the runbooks and capabilities of the moment. -/
  | consider (cycle : Nat) (runbooks : List Runbook) (descriptors : List CapabilityDescriptor)
  /-- A cycle that started no procedure goes to the provider, if one is configured. -/
  | request (cycle : Nat) (provider : Bool)
  /-- The provider replies. -/
  | reply (attempt : Nat) (reply : Except DecisionError DecisionResponse)
  /-- The run of a plan ends or pauses. -/
  | ran (attempt : Nat) (outcome : RunOutcome)
  /-- The operator grants a paused plan, and its run resumes. -/
  | grant (attempt : Nat)
  /-- The resumed run ends. -/
  | resumed (attempt : Nat) (outcome : ResumeOutcome)
  /-- The operator denies a paused plan. -/
  | deny (attempt : Nat)

namespace CycleEvent

/-- The attempt an event is about. -/
def attempt : CycleEvent → Option Nat
  | .reply id _ | .ran id _ | .grant id | .resumed id _ | .deny id => some id
  | _ => none

/-- What the sensors gave the cycle that starts. -/
def sensors : CycleEvent → Option Sensors
  | .collect sensors _ => some sensors
  | _ => none

end CycleEvent

namespace Brain

def start : Brain := ⟨.new, [], []⟩

variable (toJson : Value → String) (config : SituationsConfig)

/-! ### The steps of a cycle -/

/-- A paused plan carries the key. -/
def pendingHoldsDedup (b : Brain) (key : String) : Bool :=
  b.attempts.any fun a => a.pendingKey == some key

/-- Releases the key of each pressure that settled below its threshold, unless a paused plan
carries it. -/
def releaseResolvedPressure (b : Brain) (readings : Readings) : Brain :=
  let keys := (resolvedPressureKeys readings config).filter fun key => !b.pendingHoldsDedup key
  { b with dedup := keys.foldl InMemoryDedup.release b.dedup }

/-- A host without situations is done at once. -/
def collect (b : Brain) (sensors : Sensors) (threshold : Datum) : Brain :=
  let b := b.releaseResolvedPressure config sensors.readings
  let situations := situationsFrom sensors.readings config
  if situations.isEmpty then b
  else { b with cycles := b.cycles ++ [⟨situations, situations, false, none, false, threshold⟩] }

/-- The cycle waits for a run. -/
def waits (b : Brain) (cycle : CycleTask) : Bool :=
  match cycle.acting.bind fun id => b.attempts[id]? with
  | some ⟨_, _, _, _, .running _⟩ => true
  | _ => false

/-- The cycle, with the situation it takes up next. -/
def considers (b : Brain) (i : Nat) : Option (CycleTask × Situation) := do
  let cycle ← b.cycles[i]?
  let s ← cycle.rest.head?
  if b.waits cycle then none else some (cycle, s)

/-- The cycle, if it is through its situations without a procedure. -/
def requests (b : Brain) (i : Nat) : Option CycleTask := do
  let cycle ← b.cycles[i]?
  if b.waits cycle || !cycle.rest.isEmpty || cycle.procedureFired || cycle.requested then none
  else some cycle

/-- Claims the key and builds the procedure; without a step that can take the situation the
key is released. -/
def proposeProcedure (dedup : InMemoryDedup) (runbook : Runbook) (s : Situation)
    (descriptors : List CapabilityDescriptor) (key : String) (attempt : Nat) :
    Option Plan × InMemoryDedup :=
  match dedup.claim key attempt with
  | (false, dedup) => (none, dedup)
  | (true, dedup) =>
      match procedurePlan runbook s descriptors with
      | some plan => (some plan, dedup)
      | none => (none, dedup.release key)

def consider (b : Brain) (i : Nat) (runbooks : List Runbook)
    (descriptors : List CapabilityDescriptor) : Brain :=
  match b.considers i with
  | none => b
  | some (cycle, s) =>
      let next := { cycle with rest := cycle.rest.tail }
      match promotedRunbook runbooks s.signature with
      | none => { b with cycles := b.cycles.set i next }
      | some runbook =>
          let key := situationDedupKey toJson s
          let id := b.attempts.length
          match proposeProcedure b.dedup runbook s descriptors key id with
          | (none, dedup) => { b with dedup, cycles := b.cycles.set i next }
          | (some plan, dedup) =>
              { dedup
                cycles := b.cycles.set i { next with procedureFired := true, acting := some id }
                attempts := b.attempts ++ [⟨[s], key, none, cycle.threshold, .running plan⟩] }

/-- Claims the key of the set, then the key of the evidence. A claimed set key makes the cycle
pass; a claimed evidence key too, and the set key is released. -/
def request (b : Brain) (i : Nat) (provider : Bool) : Brain :=
  match b.requests i with
  | none => b
  | some cycle =>
      let b := { b with cycles := b.cycles.set i { cycle with requested := true } }
      if provider then
        let setKey := situationSetKey cycle.situations
        let evidenceKey := observationDedupKey toJson (mergedEvidence cycle.situations)
        let id := b.attempts.length
        match b.dedup.claim setKey id with
        | (false, dedup) => { b with dedup }
        | (true, dedup) =>
            match dedup.claim evidenceKey id with
            | (false, dedup) => { b with dedup := dedup.release setKey }
            | (true, dedup) =>
                { b with
                  dedup
                  attempts := b.attempts ++
                    [⟨cycle.situations, setKey, some evidenceKey, cycle.threshold, .deciding⟩] }
      else b

/-- Moves an attempt on, releasing some of its keys. -/
def settle (b : Brain) (id : Nat) (a : Attempt) (phase : Phase) (keys : List String) : Brain :=
  { b with
    dedup := keys.foldl InMemoryDedup.release b.dedup
    attempts := b.attempts.set id { a with phase } }

/-- What the provider's reply does to an attempt: the phase it goes to and the keys that are
released. An error releases nothing. -/
def afterReply (a : Attempt) (reply : Except DecisionError DecisionResponse) :
    Phase × List String :=
  match planFromReply (mergedEvidence a.situations) a.threshold reply with
  | .error _ => (.ended false, [])
  | .ok none => (.ended false, a.evidenceKey.toList ++ [a.dedupKey])
  | .ok (some plan) => (.running plan, [])

/-- The tail of `act`: a run that did not complete releases the key it was started with; a
paused plan keeps it. -/
def afterRun (a : Attempt) (plan : Plan) : RunOutcome → Phase × List String
  | .finished report =>
      if report.status = .completed then (.ended true, []) else (.ended false, [a.dedupKey])
  | .pending _ => (.paused plan, [])

/-- The tail of `resume_remediation`: the key is the one the stored approval carries. A
refused resume releases nothing. -/
def afterResume (a : Attempt) (plan : Plan) : ResumeOutcome → Phase × List String
  | .finished report =>
      if report.status = .completed then (.ended true, [])
      else (.ended false, if plan.runbook.isSome then [a.dedupKey] else [])
  | .refused _ => (.ended false, [])
  | .panicked => (.ended false, [])

/-- The phase an event moves an attempt to, and the keys it releases. -/
def after (a : Attempt) : CycleEvent → Option (Phase × List String)
  | .reply _ reply =>
      match a.phase with
      | .deciding => some (afterReply a reply)
      | _ => none
  | .ran _ outcome =>
      match a.phase with
      | .running plan => some (afterRun a plan outcome)
      | _ => none
  | .grant _ =>
      match a.phase with
      | .paused plan => some (.resuming plan, [])
      | _ => none
  | .resumed _ outcome =>
      match a.phase with
      | .resuming plan => some (afterResume a plan outcome)
      | _ => none
  | .deny _ =>
      match a.phase with
      | .paused _ => some (.ended false, [])
      | _ => none
  | _ => none

/-- An event of an attempt, if the attempt is where the event finds it. -/
def advance (b : Brain) (id : Nat) (e : CycleEvent) : Brain :=
  match b.attempts[id]? with
  | none => b
  | some a =>
      match after a e with
      | none => b
      | some (phase, keys) => b.settle id a phase keys

def step (b : Brain) : CycleEvent → Brain
  | .collect sensors threshold => b.collect config sensors threshold
  | .consider i runbooks descriptors => b.consider toJson i runbooks descriptors
  | .request i provider => b.request toJson i provider
  | .reply id reply => b.advance id (.reply id reply)
  | .ran id outcome => b.advance id (.ran id outcome)
  | .grant id => b.advance id (.grant id)
  | .resumed id outcome => b.advance id (.resumed id outcome)
  | .deny id => b.advance id (.deny id)

/-! ### Claims and refusals -/

/-- The situations an event claims keys for, and the keys in the order of the claims. -/
def wanted (b : Brain) : CycleEvent → Option (List Situation × List String)
  | .consider i runbooks _ => do
      let (_, s) ← b.considers i
      let _ ← promotedRunbook runbooks s.signature
      some ([s], [situationDedupKey toJson s])
  | .request i true => do
      let cycle ← b.requests i
      some (cycle.situations, [situationSetKey cycle.situations,
        observationDedupKey toJson (mergedEvidence cycle.situations)])
  | _ => none

/-- The situations an event makes an attempt on, if the keys it claims for them are granted: a
procedure that can be built, or a request to the provider. -/
def poses (b : Brain) : CycleEvent → Option (List Situation × List String)
  | .consider i runbooks descriptors => do
      let (_, s) ← b.considers i
      let runbook ← promotedRunbook runbooks s.signature
      let _ ← procedurePlan runbook s descriptors
      some ([s], [situationDedupKey toJson s])
  | e => b.wanted toJson e

/-- The claim that makes a cycle pass: the situations it passes, and the claimed key it found
in its way. -/
def refusal (b : Brain) (e : CycleEvent) : Option (List Situation × ClaimedKey) :=
  match b.wanted toJson e with
  | some (situations, [key]) => (b.dedup.holder key).map (situations, ·)
  | some (situations, [setKey, evidenceKey]) =>
      (match b.dedup.holder setKey with
        | some claimed => some claimed
        | none => (b.dedup.claim setKey b.attempts.length).2.holder evidenceKey).map
        (situations, ·)
  | _ => none

variable {toJson config} {b : Brain} {e : CycleEvent}

/-- What an event can do to the keys and the attempts. -/
inductive Change (toJson : Value → String) (config : SituationsConfig) (b : Brain)
    (e : CycleEvent) : InMemoryDedup → List Attempt → Prop
  | same : Change toJson config b e b.dedup b.attempts
  | resolved {sensors} (he : e.sensors = some sensors) :
      Change toJson config b e
        (b.releaseResolvedPressure config sensors.readings).dedup b.attempts
  /-- Nothing came of a granted key. -/
  | dropped {situations key keys d} (hw : b.wanted toJson e = some (situations, key :: keys))
      (hd : b.dedup.claim key b.attempts.length = (true, d)) :
      Change toJson config b e (d.release key) b.attempts
  | procedure {s runbook descriptors plan threshold d}
      (hw : b.wanted toJson e = some ([s], [situationDedupKey toJson s]))
      (hs : b.poses toJson e = some ([s], [situationDedupKey toJson s]))
      (hp : procedurePlan runbook s descriptors = some plan)
      (hd : b.dedup.claim (situationDedupKey toJson s) b.attempts.length = (true, d)) :
      Change toJson config b e d
        (b.attempts ++ [⟨[s], situationDedupKey toJson s, none, threshold, .running plan⟩])
  | asked {situations setKey evidenceKey threshold d d'}
      (hw : b.wanted toJson e = some (situations, [setKey, evidenceKey]))
      (hd : b.dedup.claim setKey b.attempts.length = (true, d))
      (hd' : d.claim evidenceKey b.attempts.length = (true, d')) :
      Change toJson config b e d'
        (b.attempts ++ [⟨situations, setKey, some evidenceKey, threshold, .deciding⟩])
  | advanced {id a phase keys} (hid : e.attempt = some id) (ha : b.attempts[id]? = some a)
      (hm : after a e = some (phase, keys)) :
      Change toJson config b e (keys.foldl InMemoryDedup.release b.dedup)
        (b.attempts.set id { a with phase })

/-- The ways an event moves an attempt on, with the keys each releases. -/
inductive Moved (a : Attempt) : CycleEvent → Phase → List String → Prop
  | failed {id reply error} (hp : a.phase = .deciding) (hr : reply = .error error)
      (herror : ∀ why, error ≠ .unavailable why) : Moved a (.reply id reply) (.ended false) []
  | nothing {id reply} (hp : a.phase = .deciding) :
      Moved a (.reply id reply) (.ended false) (a.evidenceKey.toList ++ [a.dedupKey])
  | planned {id reply plan} (hp : a.phase = .deciding)
      (hr : planFromReply (mergedEvidence a.situations) a.threshold reply = .ok (some plan)) :
      Moved a (.reply id reply) (.running plan) []
  | completed {id report plan} (hp : a.phase = .running plan) (hs : report.status = .completed) :
      Moved a (.ran id (.finished report)) (.ended true) []
  | unresolved {id report plan} (hp : a.phase = .running plan) (hs : report.status ≠ .completed) :
      Moved a (.ran id (.finished report)) (.ended false) [a.dedupKey]
  | paused {id pending plan} (hp : a.phase = .running plan) :
      Moved a (.ran id (.pending pending)) (.paused plan) []
  | granted {id plan} (hp : a.phase = .paused plan) : Moved a (.grant id) (.resuming plan) []
  | resumedCompleted {id report plan} (hp : a.phase = .resuming plan)
      (hs : report.status = .completed) :
      Moved a (.resumed id (.finished report)) (.ended true) []
  | resumedUnresolved {id report plan} (hp : a.phase = .resuming plan)
      (hs : report.status ≠ .completed) :
      Moved a (.resumed id (.finished report)) (.ended false)
        (if plan.runbook.isSome then [a.dedupKey] else [])
  | refused {id outcome plan} (hp : a.phase = .resuming plan)
      (ho : ∀ report, outcome ≠ .finished report) :
      Moved a (.resumed id outcome) (.ended false) []
  | denied {id plan} (hp : a.phase = .paused plan) : Moved a (.deny id) (.ended false) []

/-- A reply that ends in an error came as one, and not as an engine that cannot be
reached. -/
theorem error_of_planFromReply {evidence : ContextBuilder} {threshold : Datum}
    {reply : Except DecisionError DecisionResponse} {error : DecisionError}
    (h : planFromReply evidence threshold reply = .error error) :
    reply = .error error ∧ ∀ why, error ≠ .unavailable why := by
  unfold planFromReply decideOutcomeWith at h
  split at h
  · cases h
  · rename_i error' hne
    cases h
    exact ⟨rfl, fun why hw => hne why (by rw [hw])⟩
  · split at h
    · cases h
    · simp only [bind, Except.bind] at h
      split at h <;> cases h

theorem moved_of_after {a : Attempt} {phase : Phase} {keys : List String}
    (h : after a e = some (phase, keys)) : Moved a e phase keys := by
  unfold after at h
  split at h
  · split at h
    · rename_i hp
      unfold afterReply at h
      split at h
      · rename_i hr
        cases h
        obtain ⟨hreply, herror⟩ := error_of_planFromReply hr
        exact .failed hp hreply herror
      · cases h
        exact .nothing hp
      · cases h
        exact .planned hp ‹_›
    · cases h
  · rename_i id outcome
    split at h
    · rename_i plan hp
      cases outcome with
      | finished report =>
          by_cases hs : report.status = .completed
          · simp only [afterRun, if_pos hs] at h
            cases h
            exact .completed hp hs
          · simp only [afterRun, if_neg hs] at h
            cases h
            exact .unresolved hp hs
      | pending pending =>
          cases h
          exact .paused hp
    · cases h
  · split at h
    · cases h
      exact .granted ‹_›
    · cases h
  · rename_i id outcome
    split at h
    · rename_i plan hp
      cases outcome with
      | finished report =>
          by_cases hs : report.status = .completed
          · simp only [afterResume, if_pos hs] at h
            cases h
            exact .resumedCompleted hp hs
          · simp only [afterResume, if_neg hs] at h
            cases h
            exact .resumedUnresolved hp hs
      | refused why =>
          cases h
          exact .refused hp (fun _ hne => by cases hne)
      | panicked =>
          cases h
          exact .refused hp (fun _ hne => by cases hne)
    · cases h
  · split at h
    · cases h
      exact .denied ‹_›
    · cases h
  · cases h

/-- Only the provider's reply gives an attempt a plan it did not have. -/
theorem Moved.plan {a : Attempt} {phase : Phase} {keys : List String} {plan : Plan}
    (h : Moved a e phase keys) (hplan : phase.plan = some plan) :
    a.phase.plan = some plan ∨ a.phase = .deciding := by
  cases h with
  | planned hp hr => exact .inr hp
  | paused hp =>
      rw [hp]
      exact .inl hplan
  | granted hp =>
      rw [hp]
      exact .inl hplan
  | _ => cases hplan

theorem Moved.unfinished {a : Attempt} {phase : Phase} {keys : List String}
    (h : Moved a e phase keys) : a.phase.Unfinished := by
  cases h with
  | failed hp | nothing hp | planned hp | completed hp | unresolved hp | paused hp | granted hp
  | resumedCompleted hp | resumedUnresolved hp | refused hp | denied hp =>
      rw [hp]
      trivial

/-- An event releases only keys of the attempt it moves on. -/
theorem Moved.keys_subset {a : Attempt} {phase : Phase} {keys : List String}
    (h : Moved a e phase keys) : ∀ k ∈ keys, k ∈ a.keys := by
  intro k hk
  cases h with
  | nothing hp =>
      rcases List.mem_append.mp hk with hk | hk
      · exact List.mem_cons_of_mem _ hk
      · rw [List.mem_singleton.mp hk]
        exact List.mem_cons_self
  | unresolved hp hs =>
      rw [List.mem_singleton.mp hk]
      exact List.mem_cons_self
  | resumedUnresolved hp hs =>
      split at hk
      · rw [List.mem_singleton.mp hk]
        exact List.mem_cons_self
      · cases hk
  | _ => cases hk

/-- Keys are released only when an attempt ends. -/
theorem Moved.keys_eq_nil {a : Attempt} {phase : Phase} {keys : List String}
    (h : Moved a e phase keys) (hphase : phase.Unfinished) : keys = [] := by
  cases h with
  | planned | paused | granted => rfl
  | _ => cases hphase

theorem advance_change {id : Nat} (hid : e.attempt = some id) :
    Change toJson config b e (b.advance id e).dedup (b.advance id e).attempts := by
  unfold advance
  split
  · exact .same
  · split
    · exact .same
    · exact .advanced hid ‹_› ‹_›

theorem consider_change {i : Nat} {runbooks : List Runbook}
    {descriptors : List CapabilityDescriptor} :
    Change toJson config b (.consider i runbooks descriptors)
      (b.consider toJson i runbooks descriptors).dedup
      (b.consider toJson i runbooks descriptors).attempts := by
  unfold consider
  cases hc : b.considers i with
  | none => exact .same
  | some taken =>
      obtain ⟨cycle, s⟩ := taken
      cases hr : promotedRunbook runbooks s.signature with
      | none => simpa only [hr] using .same
      | some runbook =>
          have hw : b.wanted toJson (.consider i runbooks descriptors) =
              some ([s], [situationDedupKey toJson s]) := by
            simp [wanted, hc, hr]
          simp only [hr, proposeProcedure]
          cases hd : b.dedup.claim (situationDedupKey toJson s) b.attempts.length with
          | mk granted d =>
              cases granted with
              | false =>
                  rw [InMemoryDedup.eq_of_refused hd]
                  exact .same
              | true =>
                  cases hp : procedurePlan runbook s descriptors with
                  | none => exact .dropped hw hd
                  | some plan => exact .procedure hw (by simp [poses, hc, hr, hp]) hp hd

theorem request_change {i : Nat} {provider : Bool} :
    Change toJson config b (.request i provider)
      (b.request toJson i provider).dedup (b.request toJson i provider).attempts := by
  unfold request
  cases hc : b.requests i with
  | none => exact .same
  | some cycle =>
      cases provider with
      | false => exact .same
      | true =>
          have hw : b.wanted toJson (.request i true) =
              some (cycle.situations, [situationSetKey cycle.situations,
                observationDedupKey toJson (mergedEvidence cycle.situations)]) := by
            simp [wanted, hc]
          simp only [if_true]
          cases hd : b.dedup.claim (situationSetKey cycle.situations) b.attempts.length with
          | mk granted d =>
              cases granted with
              | false =>
                  rw [InMemoryDedup.eq_of_refused hd]
                  exact .same
              | true =>
                  cases hd' : d.claim (observationDedupKey toJson
                      (mergedEvidence cycle.situations)) b.attempts.length with
                  | mk granted' d' =>
                      cases granted' with
                      | false =>
                          simp only [hd', InMemoryDedup.eq_of_refused hd']
                          exact .dropped hw hd
                      | true =>
                          simp only [hd']
                          exact .asked hw hd hd'

@[simp] theorem collect_attempts {sensors : Sensors} {threshold : Datum} :
    (b.step toJson config (.collect sensors threshold)).attempts = b.attempts := by
  show (b.collect config sensors threshold).attempts = _
  unfold collect
  simp only
  split <;> rfl

@[simp] theorem collect_dedup {sensors : Sensors} {threshold : Datum} :
    (b.step toJson config (.collect sensors threshold)).dedup =
      (b.releaseResolvedPressure config sensors.readings).dedup := by
  show (b.collect config sensors threshold).dedup = _
  unfold collect
  simp only
  split <;> rfl

/-- The step lemma: every invariant below is a case analysis of it. -/
theorem step_change : Change toJson config b e (b.step toJson config e).dedup
    (b.step toJson config e).attempts := by
  cases e with
  | collect sensors threshold =>
      rw [collect_dedup, collect_attempts]
      exact .resolved rfl
  | consider i runbooks descriptors => exact consider_change
  | request i provider => exact request_change
  | reply id reply => exact advance_change rfl
  | ran id outcome => exact advance_change rfl
  | grant id => exact advance_change rfl
  | resumed id outcome => exact advance_change rfl
  | deny id => exact advance_change rfl

/-! ### What comes of a claim -/

/-- A refused claim leaves the attempts as they are. -/
theorem attempts_of_refusal {situations : List Situation} {c : ClaimedKey}
    (h : b.refusal toJson e = some (situations, c)) :
    (b.step toJson config e).attempts = b.attempts := by
  have hchange : Change toJson config b e _ _ := step_change
  generalize (b.step toJson config e).dedup = d', (b.step toJson config e).attempts = attempts'
    at hchange ⊢
  cases hchange with
  | same | resolved he | dropped hw hd => rfl
  | procedure hw hs hp hd =>
      simp [refusal, hw, InMemoryDedup.holder_of_granted hd] at h
  | asked hw hd hd' =>
      simp [refusal, hw, InMemoryDedup.holder_of_granted hd, hd,
        InMemoryDedup.holder_of_granted hd'] at h
  | advanced hid =>
      cases e with
      | collect | consider | request => cases hid
      | reply | ran | grant | resumed | deny => cases h

/-- A procedure is started where the key of its situation is free. -/
theorem attempts_of_consider {i : Nat} {runbooks : List Runbook}
    {descriptors : List CapabilityDescriptor} {cycle : CycleTask} {s : Situation}
    {runbook : Runbook} {plan : Plan} (hc : b.considers i = some (cycle, s))
    (hr : promotedRunbook runbooks s.signature = some runbook)
    (hp : procedurePlan runbook s descriptors = some plan)
    (hfree : b.dedup.holder (situationDedupKey toJson s) = none) :
    (b.consider toJson i runbooks descriptors).attempts = b.attempts ++
      [⟨[s], situationDedupKey toJson s, none, cycle.threshold, .running plan⟩] := by
  obtain ⟨d, hd⟩ := InMemoryDedup.claim_of_free b.attempts.length hfree
  simp [consider, hc, hr, proposeProcedure, hd, hp]

/-- The provider is asked where the key of the set is free, and then that of the evidence. -/
theorem attempts_of_request {i : Nat} {cycle : CycleTask} {d : InMemoryDedup}
    (hc : b.requests i = some cycle)
    (hset : b.dedup.claim (situationSetKey cycle.situations) b.attempts.length = (true, d))
    (hfree : d.holder (observationDedupKey toJson (mergedEvidence cycle.situations)) = none) :
    (b.request toJson i true).attempts = b.attempts ++
      [⟨cycle.situations, situationSetKey cycle.situations,
        some (observationDedupKey toJson (mergedEvidence cycle.situations)), cycle.threshold,
        .deciding⟩] := by
  obtain ⟨d', hd'⟩ := InMemoryDedup.claim_of_free b.attempts.length hfree
  simp [request, hc, hset, hd']

/-- A claim that is not refused makes an attempt with the claimed keys on the situations. -/
theorem attempts_of_poses {situations : List Situation} {keys : List String}
    (hposes : b.poses toJson e = some (situations, keys)) (h : b.refusal toJson e = none) :
    ∃ a : Attempt, (b.step toJson config e).attempts = b.attempts ++ [a] ∧
      a.situations = situations ∧ a.keys = keys := by
  cases e with
  | consider i runbooks descriptors =>
      simp only [poses, Option.bind_eq_bind, Option.bind_eq_some_iff] at hposes
      obtain ⟨⟨cycle, s⟩, hc, runbook, hr, plan, hp, hposed⟩ := hposes
      cases hposed
      have hfree : b.dedup.holder (situationDedupKey toJson s) = none := by
        simpa [refusal, wanted, hc, hr] using h
      exact ⟨_, attempts_of_consider hc hr hp hfree, rfl, rfl⟩
  | request i provider =>
      cases provider with
      | false => cases hposes
      | true =>
          simp only [poses, wanted, Option.bind_eq_bind, Option.bind_eq_some_iff] at hposes
          obtain ⟨cycle, hc, hposed⟩ := hposes
          cases hposed
          have hrefusal := h
          simp only [refusal, wanted, hc, Option.bind_eq_bind, Option.bind_some,
            Option.map_eq_none_iff] at hrefusal
          split at hrefusal
          · cases hrefusal
          · rename_i hset
            obtain ⟨d, hd⟩ := InMemoryDedup.claim_of_free b.attempts.length hset
            rw [hd] at hrefusal
            exact ⟨_, attempts_of_request hc hd hrefusal, rfl, rfl⟩
  | collect | reply | ran | grant | resumed | deny => cases hposes

/-- What a claim is refused for, and when: the step leaves the attempts as they are exactly if a
claimed key was in its way. -/
theorem refusal_isSome_iff {situations : List Situation} {keys : List String}
    (hposes : b.poses toJson e = some (situations, keys)) :
    (b.refusal toJson e).isSome ↔ (b.step toJson config e).attempts = b.attempts := by
  constructor
  · intro h
    obtain ⟨⟨situations', c⟩, hrefusal⟩ := Option.isSome_iff_exists.mp h
    exact attempts_of_refusal hrefusal
  · intro hsame
    by_contra hnone
    have hposed : ∃ a : Attempt, (b.step toJson config e).attempts = b.attempts ++ [a] ∧
        a.situations = situations ∧ a.keys = keys :=
      attempts_of_poses hposes (Option.not_isSome_iff_eq_none.mp hnone)
    obtain ⟨a, hattempts, -⟩ := hposed
    have hlength := congrArg List.length (hattempts.symm.trans hsame)
    simp at hlength

/-! ### The shape of cycles and attempts -/

section
variable {attempts : List Attempt} {a a' : Attempt} {i j : Nat}

theorem lookup_push (h : (attempts ++ [a])[i]? = some a') :
    attempts[i]? = some a' ∨ i = attempts.length ∧ a' = a := by
  by_cases hlt : i < attempts.length
  · rw [List.getElem?_append_left hlt] at h
    exact .inl h
  · rw [List.getElem?_append_right (Nat.not_lt.mp hlt), List.getElem?_singleton] at h
    split at h
    · cases h
      exact .inr ⟨by omega, rfl⟩
    · cases h

theorem lookup_set (h : (attempts.set i a)[j]? = some a') :
    j = i ∧ a' = a ∨ j ≠ i ∧ attempts[j]? = some a' := by
  by_cases heq : j = i
  · subst heq
    rw [List.getElem?_set] at h
    simp only [if_true] at h
    split at h
    · cases h
      exact .inl ⟨rfl, rfl⟩
    · cases h
  · rw [List.getElem?_set_ne (Ne.symm heq)] at h
    exact .inr ⟨heq, h⟩

end

theorem considers_eq {i : Nat} {cycle : CycleTask} {s : Situation}
    (h : b.considers i = some (cycle, s)) : b.cycles[i]? = some cycle ∧ s ∈ cycle.rest := by
  simp only [considers, Option.bind_eq_bind, Option.bind_eq_some_iff] at h
  obtain ⟨cycle', hcycle, s', hs, h⟩ := h
  split at h
  · cases h
  · cases h
    exact ⟨hcycle, List.mem_of_head? hs⟩

theorem requests_eq {i : Nat} {cycle : CycleTask} (h : b.requests i = some cycle) :
    b.cycles[i]? = some cycle := by
  simp only [requests, Option.bind_eq_bind, Option.bind_eq_some_iff] at h
  obtain ⟨cycle', hcycle, h⟩ := h
  split at h
  · cases h
  · cases h
    exact hcycle

@[simp] theorem advance_cycles {id : Nat} : (b.advance id e).cycles = b.cycles := by
  unfold advance
  split
  · rfl
  · split <;> rfl

/-- The cycle goes on from one of the state's cycles. -/
def Continues (b : Brain) (cycle : CycleTask) : Prop :=
  ∃ old ∈ b.cycles, cycle.situations = old.situations ∧ ∀ s ∈ cycle.rest, s ∈ old.rest

theorem continues_of_mem {cycle : CycleTask} (h : cycle ∈ b.cycles) : b.Continues cycle :=
  ⟨cycle, h, rfl, fun _ hs => hs⟩

theorem continues_of_mem_set {i : Nat} {cycle old next : CycleTask}
    (h : cycle ∈ b.cycles.set i next) (hold : b.cycles[i]? = some old)
    (hsituations : next.situations = old.situations) (hrest : ∀ s ∈ next.rest, s ∈ old.rest) :
    b.Continues cycle := by
  rcases List.mem_or_eq_of_mem_set h with hmem | rfl
  · exact continues_of_mem hmem
  · exact ⟨old, List.mem_of_getElem? hold, hsituations, hrest⟩

theorem consider_cycles {i : Nat} {runbooks : List Runbook}
    {descriptors : List CapabilityDescriptor} {cycle : CycleTask}
    (h : cycle ∈ (b.consider toJson i runbooks descriptors).cycles) : b.Continues cycle := by
  unfold consider at h
  split at h
  · exact continues_of_mem h
  · obtain ⟨hold, -⟩ := considers_eq ‹_›
    simp only at h
    split at h
    · exact continues_of_mem_set h hold rfl (fun _ => List.mem_of_mem_tail)
    · split at h
      · exact continues_of_mem_set h hold rfl (fun _ => List.mem_of_mem_tail)
      · exact continues_of_mem_set h hold rfl (fun _ => List.mem_of_mem_tail)

theorem request_cycles {i : Nat} {provider : Bool} {cycle : CycleTask}
    (h : cycle ∈ (b.request toJson i provider).cycles) : b.Continues cycle := by
  cases hc : b.requests i with
  | none =>
      simp only [request, hc] at h
      exact continues_of_mem h
  | some old =>
      have hcycles : (b.request toJson i provider).cycles =
          b.cycles.set i { old with requested := true } := by
        simp only [request, hc]
        split
        · split
          · rfl
          · split <;> rfl
        · rfl
      rw [hcycles] at h
      exact continues_of_mem_set h (requests_eq hc) rfl (fun _ hs => hs)

/-- A cycle of the next state is one of this state, further on, or has just read the
sensors. -/
theorem step_cycles {cycle : CycleTask} (h : cycle ∈ (b.step toJson config e).cycles) :
    b.Continues cycle ∨ ∃ sensors : Sensors,
      cycle.situations = situationsFrom sensors.readings config ∧
        cycle.rest = situationsFrom sensors.readings config := by
  cases e with
  | collect sensors threshold =>
      replace h : cycle ∈ (b.collect config sensors threshold).cycles := h
      unfold collect at h
      simp only at h
      split at h
      · exact .inl (continues_of_mem h)
      · rcases List.mem_append.mp h with h | h
        · exact .inl (continues_of_mem h)
        · rw [List.mem_singleton.mp h]
          exact .inr ⟨sensors, rfl, rfl⟩
  | consider i runbooks descriptors => exact .inl (consider_cycles h)
  | request i provider => exact .inl (request_cycles h)
  | reply id reply => exact .inl (continues_of_mem (by rw [← advance_cycles]; exact h))
  | ran id outcome => exact .inl (continues_of_mem (by rw [← advance_cycles]; exact h))
  | grant id => exact .inl (continues_of_mem (by rw [← advance_cycles]; exact h))
  | resumed id outcome => exact .inl (continues_of_mem (by rw [← advance_cycles]; exact h))
  | deny id => exact .inl (continues_of_mem (by rw [← advance_cycles]; exact h))

theorem runbook_of_procedurePlan {runbook : Runbook} {s : Situation}
    {descriptors : List CapabilityDescriptor} {plan : Plan}
    (h : procedurePlan runbook s descriptors = some plan) : plan.runbook.isSome := by
  unfold procedurePlan at h
  simp only at h
  split at h
  · cases h
  · cases h
    rfl

/-- Attempts have their shape, and cycles reason about collected situations. -/
structure Formed (toJson : Value → String) (config : SituationsConfig) (b : Brain) : Prop where
  attempts : ∀ a ∈ b.attempts, a.Formed toJson config
  cycles : ∀ cycle ∈ b.cycles, ∀ s, s ∈ cycle.situations ∨ s ∈ cycle.rest → Collected config s

theorem Formed.wanted {situations : List Situation} {keys : List String}
    (h : b.Formed toJson config) (hw : b.wanted toJson e = some (situations, keys)) :
    ∀ s ∈ situations, Collected config s := by
  intro s hs
  unfold Brain.wanted at hw
  split at hw
  · simp only [Option.bind_eq_bind, Option.bind_eq_some_iff] at hw
    obtain ⟨⟨cycle, s'⟩, hc, runbook, hr, hw⟩ := hw
    cases hw
    obtain ⟨hcycle, hrest⟩ := considers_eq hc
    rw [List.mem_singleton.mp hs]
    exact h.cycles cycle (List.mem_of_getElem? hcycle) s' (.inr hrest)
  · simp only [Option.bind_eq_bind, Option.bind_eq_some_iff] at hw
    obtain ⟨cycle, hc, hw⟩ := hw
    cases hw
    exact h.cycles cycle (List.mem_of_getElem? (requests_eq hc)) s (.inl hs)
  · cases hw

theorem formed_step (h : b.Formed toJson config) :
    (b.step toJson config e).Formed toJson config := by
  constructor
  · have hchange : Change toJson config b e _ _ := step_change
    generalize (b.step toJson config e).dedup = d', (b.step toJson config e).attempts = attempts'
      at hchange ⊢
    cases hchange with
    | same => exact h.attempts
    | resolved he => exact h.attempts
    | dropped hw hd => exact h.attempts
    | procedure hw hs hp hd =>
        intro a ha
        rcases List.mem_append.mp ha with ha | ha
        · exact h.attempts a ha
        · rw [List.mem_singleton.mp ha]
          refine ⟨h.wanted hw, fun _ => ⟨_, rfl, rfl⟩, ?_, fun hp => by cases hp⟩
          intro _ plan hplan
          cases hplan
          exact runbook_of_procedurePlan hp
    | asked hw hd hd' =>
        intro a ha
        rcases List.mem_append.mp ha with ha | ha
        · exact h.attempts a ha
        · rw [List.mem_singleton.mp ha]
          exact ⟨h.wanted hw, (fun hnone => by cases hnone), (fun hnone => by cases hnone),
            fun _ => rfl⟩
    | @advanced id a phase keys hid ha hm =>
        intro a' ha'
        rcases List.mem_or_eq_of_mem_set ha' with ha' | rfl
        · exact h.attempts a' ha'
        · have hformed := h.attempts a (List.mem_of_getElem? ha)
          refine ⟨hformed.collected, hformed.single, ?_, ?_⟩
          · intro hnone plan hplan
            rcases (moved_of_after hm).plan hplan with hplan | hp
            · exact hformed.attributed hnone plan hplan
            · have hsome := hformed.asked hp
              rw [hnone] at hsome
              cases hsome
          · intro hp
            cases hp
            cases moved_of_after hm
  · intro cycle hcycle s hs
    rcases step_cycles hcycle with ⟨old, hold, hsituations, hrest⟩ | ⟨sensors, hsituations, hrest⟩
    · rw [hsituations] at hs
      exact h.cycles old hold s (hs.imp_right (hrest s))
    · rw [hsituations, hrest, or_self] at hs
      exact collected_of_mem hs

theorem formed_run (events : List CycleEvent) :
    (Machine.run (step toJson config) start events).Formed toJson config := by
  refine Machine.invariant ?_ (fun _ _ h => formed_step h) events
  constructor
  · intro a ha
    cases ha
  · intro cycle hcycle
    cases hcycle

end Brain

end Argus
