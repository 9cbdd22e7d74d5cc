import Argus.Daemon.BrainDedup

/-!
# One plan for a situation

While a plan for a situation is paused or in flight no second plan for it should be started.
The dedup keys are what keeps the second one out, from the claim on: no second attempt on the
situation is made when its keys meet those of the first (`plans_exclusive`).

The keys are of different kinds, and they do not always meet. A procedure plan for a pressure
has the key of the identity, one for a failed unit the key of the evidence, a provider plan
the key of its set and the key of its evidence. So a second plan for a failed unit is started
as soon as a pressure joins it (`second_plan_beside_paused`).
-/

namespace Argus

theorem Situation.Same.symm {s t : Situation} (h : s.Same t) : t.Same s := ⟨h.1.symm, h.2.symm⟩

theorem Situation.Same.trans {s t u : Situation} (h : s.Same t) (h' : t.Same u) : s.Same u :=
  ⟨h.1.trans h'.1, h.2.trans h'.2⟩

theorem Attempt.Covers.same {a : Attempt} {s t : Situation} (h : a.Covers s) (hst : s.Same t) :
    a.Covers t := by
  obtain ⟨u, hu, hus⟩ := h
  exact ⟨u, hu, hus.trans hst⟩

namespace Brain

open Machine

variable {toJson : Value → String} {config : SituationsConfig} {b : Brain} {e : CycleEvent}
  {attempts : List Attempt}

/-- Two plans that are paused or in flight are not about the same situation. -/
def Exclusive (attempts : List Attempt) : Prop :=
  ∀ (i j : Nat) (a a' : Attempt) (s : Situation), attempts[i]? = some a →
    attempts[j]? = some a' → a.phase.IsOpen → a'.phase.IsOpen → a.Covers s → a'.Covers s →
      i = j

/-- Two attempts that are not finished are not about the same situation. -/
def Alone (attempts : List Attempt) : Prop :=
  ∀ (i j : Nat) (a a' : Attempt) (s : Situation), attempts[i]? = some a →
    attempts[j]? = some a' → a.phase.Unfinished → a'.phase.Unfinished → a.Covers s →
      a'.Covers s → i = j

theorem Alone.exclusive (h : Alone attempts) : Exclusive attempts :=
  fun i j a a' s hi hj ho ho' => h i j a a' s hi hj ho.unfinished ho'.unfinished

/-- The keys an event claims for a situation meet those of each unfinished attempt on it. -/
def SharesKey (toJson : Value → String) (b : Brain) (e : CycleEvent) : Prop :=
  ∀ posed ∈ b.poses toJson e, ∀ a ∈ b.attempts, a.phase.Unfinished →
    (∃ s ∈ posed.1, a.Covers s) → ∃ k ∈ posed.2, k ∈ a.keys

instance (b : Brain) (e : CycleEvent) : Decidable (b.SharesKey toJson e) :=
  inferInstanceAs (Decidable (∀ posed ∈ b.poses toJson e, ∀ a ∈ b.attempts,
    a.phase.Unfinished → (∃ s ∈ posed.1, a.Covers s) → ∃ k ∈ posed.2, k ∈ a.keys))

/-- Attempts that are pairwise apart stay so when one is added that is apart from all others. -/
theorem Alone.push {a : Attempt} (h : Alone attempts)
    (ha : ∀ (i : Nat) (a' : Attempt) (s : Situation), attempts[i]? = some a' →
      a'.phase.Unfinished → a'.Covers s → ¬ a.Covers s) : Alone (attempts ++ [a]) := by
  intro i j a₁ a₂ s h₁ h₂ ho₁ ho₂ hc₁ hc₂
  rcases lookup_push h₁ with hi | ⟨hi, rfl⟩
  · rcases lookup_push h₂ with hj | ⟨hj, rfl⟩
    · exact h i j a₁ a₂ s hi hj ho₁ ho₂ hc₁ hc₂
    · exact absurd hc₂ (ha i a₁ s hi ho₁ hc₁)
  · rcases lookup_push h₂ with hj | ⟨hj, rfl⟩
    · exact absurd hc₁ (ha j a₂ s hj ho₂ hc₂)
    · rw [hi, hj]

/-- An unfinished attempt may move on. -/
theorem Alone.set {a : Attempt} {id : Nat} {phase : Phase} (h : Alone attempts)
    (ha : attempts[id]? = some a) (hunfinished : a.phase.Unfinished) :
    Alone (attempts.set id { a with phase }) := by
  intro i j a₁ a₂ s h₁ h₂ ho₁ ho₂ hc₁ hc₂
  rcases lookup_set h₁ with ⟨hi, rfl⟩ | ⟨hni, hi⟩
  · rcases lookup_set h₂ with ⟨hj, rfl⟩ | ⟨hnj, hj⟩
    · rw [hi, hj]
    · rw [hi]
      exact h id j a a₂ s ha hj hunfinished ho₂ hc₁ hc₂
  · rcases lookup_set h₂ with ⟨hj, rfl⟩ | ⟨hnj, hj⟩
    · rw [hj]
      exact h i id a₁ a s hi ha ho₁ hunfinished hc₁ hc₂
    · exact h i j a₁ a₂ s hi hj ho₁ ho₂ hc₁ hc₂

/-- A request claims two keys, so it is posed. -/
theorem poses_of_wanted {situations : List Situation} {setKey evidenceKey : String}
    (h : b.wanted toJson e = some (situations, [setKey, evidenceKey])) :
    b.poses toJson e = some (situations, [setKey, evidenceKey]) := by
  cases e with
  | consider i runbooks descriptors =>
      simp [wanted, Option.bind_eq_some_iff] at h
  | request i provider => exact h
  | collect | reply | ran | grant | resumed | deny => cases h

theorem alone_step (hheld : Held b.dedup b.attempts) (h : Alone b.attempts)
    (hs : b.SharesKey toJson e) (hk : b.KeepsKeys toJson config e) :
    Alone (b.step toJson config e).attempts := by
  have hchange : Change toJson config b e _ _ := step_change
  generalize (b.step toJson config e).dedup = d', (b.step toJson config e).attempts = attempts'
    at hchange ⊢
  cases hchange with
  | same => exact h
  | resolved he => exact h
  | dropped hw hd => exact h
  | @procedure s runbook descriptors plan threshold d hw hposes hp hd =>
      refine h.push ?_
      intro i a' t hi ho hcovers hnew
      obtain ⟨u, hu, hut⟩ := hnew
      rw [List.mem_singleton.mp hu] at hut
      -- The unfinished attempt holds the key the event claims, so the claim was refused.
      obtain ⟨k, hk, hka⟩ := hs _ hposes a' (List.mem_of_getElem? hi) ho
        ⟨s, List.mem_singleton.mpr rfl, hcovers.same hut.symm⟩
      rw [List.mem_singleton.mp hk] at hka
      exact InMemoryDedup.free_of_claim hd _ (hheld i a' hi ho _ hka) rfl
  | @asked situations setKey evidenceKey threshold d _ hw hd hd' =>
      refine h.push ?_
      intro i a' t hi ho hcovers hnew
      obtain ⟨s, hs', hst⟩ := hnew
      obtain ⟨k, hk', hka⟩ := hs _ (poses_of_wanted hw) a' (List.mem_of_getElem? hi) ho
        ⟨s, hs', hcovers.same hst.symm⟩
      -- The first claim takes nothing from the attempt, so the second meets its keys too.
      have hroom := claim_room hk hw
      rcases List.mem_cons.mp hk' with rfl | hk'
      · exact InMemoryDedup.free_of_claim hd _ (hheld i a' hi ho _ hka) rfl
      · rw [List.mem_singleton.mp hk'] at hka
        exact InMemoryDedup.free_of_claim hd' _ (hheld.claim hd hroom i a' hi ho _ hka) rfl
  | advanced hid ha hm => exact h.set ha (moved_of_after hm).unfinished

/-- The event makes no attempt past the keys, and takes no key from an unfinished attempt. -/
def Guarded (toJson : Value → String) (config : SituationsConfig) (b : Brain) (e : CycleEvent) :
    Prop :=
  b.SharesKey toJson e ∧ b.KeepsKeys toJson config e

instance (b : Brain) (e : CycleEvent) : Decidable (b.Guarded toJson config e) :=
  inferInstanceAs (Decidable (_ ∧ _))

/-- In every run of such events, no two plans that are paused or in flight are about the same
situation. -/
theorem plans_exclusive {events : List CycleEvent}
    (h : Every (step toJson config) (Guarded toJson config) start events) :
    Exclusive (run (step toJson config) start events).attempts := by
  let Inv (b : Brain) : Prop := Held b.dedup b.attempts ∧ Alone b.attempts
  have hinv : Inv (run (step toJson config) start events) := by
    refine h.invariant ⟨held_start, ?_⟩ ?_
    · intro i j a a' s hi
      cases hi
    · intro b e hb hguarded
      exact ⟨held_step hb.1 hguarded.2, alone_step hb.1 hb.2 hguarded.1 hguarded.2⟩
  exact hinv.2.exclusive

/-! A plan that waits for the operator, and the cycles after it. -/

def awaiting (plan : Plan) : RunOutcome :=
  .pending ⟨plan, 0, planContextHash evidenceJson plan, [], none⟩

def memoryReclaim : CapabilityId :=
  ⟨CapabilityId.hostMemoryReclaim, CapabilityId.hostMemoryReclaim_valid⟩

/-- The reclaim of memory as the daemon registers it. -/
def reclaimDescriptor : CapabilityDescriptor where
  id := memoryReclaim
  riskClass := .controlled
  inputSchema := .object [("additionalProperties", .bool false),
    ("properties", .object [("subject", .object [("type", .string "string")])]),
    ("type", .string "object")]
  blastRadius := some .host
  requiresApproval := true
  timeoutSeconds := none

def reclaimRunbook : Runbook where
  name := "reclaim"
  trigger := .symptom memoryPressure
  allowedActions := [memoryReclaim]
  rollback := []
  status := .promoted
  attempts := 0
  successes := 0

/-- The sensors of a host without a failed unit. -/
def memoryHost (memory : ℚ) : Sensors := ⟨some [], some memory, some 40⟩

def reclaimPlan : Plan :=
  (procedurePlan reclaimRunbook ⟨memoryPressure, "mem", "mem at 95.0%"⟩
    [reclaimDescriptor]).getD (.ofSteps [])

/-- A paused procedure keeps the next cycle from starting a second one. -/
theorem plans_exclusive_beside_paused :
    let events : List CycleEvent :=
      [.collect (memoryHost 95) defaultThreshold, .consider 0 [reclaimRunbook] [reclaimDescriptor],
        .ran 0 (awaiting reclaimPlan),
        .collect (memoryHost 94) defaultThreshold, .consider 1 [reclaimRunbook] [reclaimDescriptor]]
    let b := run (step evidenceJson .default) start events
    Exclusive b.attempts ∧ b.attempts.map Attempt.phase = [.paused reclaimPlan] :=
  ⟨plans_exclusive (by decide +kernel), by decide +kernel⟩

def restartNginx : Plan := .ofSteps [⟨restartUnit "nginx.service", none⟩]

/-- The units of the open plan of an attempt. -/
def openUnits (a : Attempt) : Option (List (Option String)) :=
  a.phase.plan.map fun plan => plan.steps.map fun step => step.action.arguments.getStr "unit"

/-- The restart of a failed unit is paused, and the memory fills up: the next cycle asks about
the unit and the memory together. -/
def joinedByMemory : List CycleEvent :=
  cycleOf 0 (failedHost 50) ++ [.request 0 true, .reply 0 (answered "restart"),
    .ran 0 (awaiting restartNginx)] ++
  cycleOf 1 (failedHost 95) ++ [.consider 1 [] [], .request 1 true, .reply 1 (answered "restart")]

theorem joinedByMemory_attempts :
    (run (step evidenceJson .default) start joinedByMemory).attempts.map (fun a =>
      (decide (a.phase.IsOpen ∧ a.Covers nginxFailed), openUnits a)) =
      [(true, some [some "nginx.service"]), (true, some [some "nginx.service"])] := by
  decide +kernel

/-- There a second restart of the unit is in flight. -/
theorem second_plan_beside_paused :
    ¬ Exclusive (run (step evidenceJson .default) start joinedByMemory).attempts ∧
      (run (step evidenceJson .default) start joinedByMemory).attempts.map openUnits =
        [some [some "nginx.service"], some [some "nginx.service"]] := by
  have hstate := joinedByMemory_attempts
  generalize (run (step evidenceJson .default) start joinedByMemory).attempts = attempts at hstate ⊢
  obtain ⟨a, rest, rfl, ha, hrest⟩ := List.map_eq_cons_iff.mp hstate
  obtain ⟨a', rest', rfl, ha', hrest'⟩ := List.map_eq_cons_iff.mp hrest
  rw [List.map_eq_nil_iff.mp hrest']
  obtain ⟨ho, hc⟩ := of_decide_eq_true (congrArg Prod.fst ha)
  obtain ⟨ho', hc'⟩ := of_decide_eq_true (congrArg Prod.fst ha')
  have hunits : openUnits a = some [some "nginx.service"] := congrArg Prod.snd ha
  have hunits' : openUnits a' = some [some "nginx.service"] := congrArg Prod.snd ha'
  refine ⟨?_, by rw [List.map_cons, List.map_cons, hunits, hunits', List.map_nil]⟩
  intro h
  exact absurd (h 0 1 a a' nginxFailed rfl rfl ho ho' hc hc') (by decide)

end Brain

end Argus
