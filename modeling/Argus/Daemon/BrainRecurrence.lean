import Argus.Daemon.BrainExclusion

/-!
# Situations that come back

A situation that was handled, was then read and found absent, and is there again should be
reasoned about again. The keys of its attempts have to be gone by then.

What goes by itself is the key of a pressure: the cycle that reads it below its threshold
releases it. Nothing releases the key of a failed unit, of a set of situations or of an
evidence once a plan under it has completed, so the property holds as long as only procedures
on a pressure complete (`recurring_not_suppressed`). `suppressed_recurrence` is a unit and a
pressure that were handled together by the provider.
-/

namespace Argus

theorem Sensors.Absent.same {sensors : Sensors} {config : SituationsConfig} {s t : Situation}
    (h : sensors.Absent config s) (hst : s.Same t) : sensors.Absent config t := by
  obtain ⟨hread, habsent⟩ := h
  unfold Sensors.Read at hread
  rw [hst.1] at hread
  exact ⟨hread, fun u hu hut => habsent u hu (hut.trans hst.symm)⟩

namespace Brain

open Machine

variable {toJson : Value → String} {config : SituationsConfig} {b : Brain} {e : CycleEvent}
  {id : Nat} {a : Attempt} {s : Situation}

/-- A procedure for a pressure: it holds the key of the identity only. -/
def OnPressure (a : Attempt) : Prop :=
  a.evidenceKey = none ∧ ∀ s ∈ a.situations, s.signature ≠ hostHealth

instance (a : Attempt) : Decidable (OnPressure a) := inferInstanceAs (Decidable (_ ∧ _))

/-- The attempt ended in the run. -/
def EndedIn (toJson : Value → String) (config : SituationsConfig) (events : List CycleEvent)
    (id : Nat) : Prop :=
  ∃ a, (run (step toJson config) start events).attempts[id]? = some a ∧ ¬ a.phase.Unfinished

/-- The key is not left over: its attempt is not finished, or it is a procedure on a pressure
that completed and that no cycle has found absent since. -/
def Live (toJson : Value → String) (config : SituationsConfig) (events : List CycleEvent)
    (c : ClaimedKey) : Prop :=
  ∃ a, (run (step toJson config) start events).attempts[c.attempt]? = some a ∧ c.key ∈ a.keys ∧
    (a.phase.Unfinished ∨ a.phase = .ended true ∧ OnPressure a ∧
      ∀ before sensors threshold later,
        events = before ++ .collect sensors threshold :: later →
        EndedIn toJson config before c.attempt → ∀ s, a.Covers s → ¬ sensors.Absent config s)

/-- Whatever happened to it, a situation that was handled by an attempt, was then found absent
by a cycle that read its source, and for which no plan is open, is reasoned about again: a
claim for it makes an attempt on it, unless it is refused for the key of another attempt that
is live. -/
def ReasonsAgain (toJson : Value → String) (config : SituationsConfig)
    (events : List CycleEvent) : Prop :=
  ∀ before sensors threshold later, events = before ++ .collect sensors threshold :: later →
    ∀ (id : Nat) (a : Attempt) (s : Situation) (completed : Bool),
      (run (step toJson config) start before).attempts[id]? = some a →
      a.phase = .ended completed → a.Covers s → sensors.Absent config s →
      (∀ a' ∈ (run (step toJson config) start events).attempts,
        a'.Covers s → ¬ a'.phase.IsOpen) →
      ∀ e situations keys,
        (run (step toJson config) start events).poses toJson e = some (situations, keys) →
        (∃ t ∈ situations, t.Same s) →
        (∃ a' : Attempt, (run (step toJson config) start (events ++ [e])).attempts =
            (run (step toJson config) start events).attempts ++ [a'] ∧ a'.Covers s) ∨
          ∃ c, (run (step toJson config) start events).refusal toJson e = some (situations, c) ∧
            c.attempt ≠ id ∧ Live toJson config events c

/-! ### The condition -/

/-- The event completes the plan of the attempt. -/
def completes (a : Attempt) (e : CycleEvent) : Bool :=
  match a.phase, e with
  | .running _, .ran _ (.finished report) => report.status == .completed
  | .resuming _, .resumed _ (.finished report) => report.status == .completed
  | _, _ => false

/-- The event leaves no key behind that a resolution would not release: it releases the keys
of an attempt that ends without a completed plan, and a plan that completes is a procedure's
on a pressure. Unfinished attempts keep their keys. -/
def Frees (toJson : Value → String) (config : SituationsConfig) (b : Brain) (e : CycleEvent) :
    Prop :=
  b.Releases e ∧
  (∀ id ∈ e.attempt, ∀ a ∈ b.attempts[id]?, completes a e = true → OnPressure a) ∧
  b.KeepsKeys toJson config e

instance (b : Brain) (e : CycleEvent) : Decidable (b.Frees toJson config e) :=
  inferInstanceAs (Decidable (_ ∧ (∀ id ∈ e.attempt, ∀ a ∈ b.attempts[id]?,
    completes a e = true → OnPressure a) ∧ _))

/-- The attempt is not finished, or it is a procedure on a pressure that completed. -/
def Releasable (a : Attempt) : Prop :=
  a.phase.Unfinished ∨ a.phase = .ended true ∧ OnPressure a

theorem Moved.releasable {phase : Phase} {keys : List String} (hformed : a.Formed toJson config)
    (hr : leavesKey a e = false) (hc : completes a e = true → OnPressure a)
    (hm : Moved a e phase keys) :
    Releasable { a with phase } ∨ ∀ k ∈ a.keys, k ∈ keys := by
  rcases hm.releases hformed hr with hphase | hall
  · left
    cases hm with
    | planned | paused | granted => exact .inl trivial
    | completed hp hs =>
        exact .inr ⟨rfl, hc (by simp only [completes, hp, hs, beq_self_eq_true])⟩
    | resumedCompleted hp hs =>
        exact .inr ⟨rfl, hc (by simp only [completes, hp, hs, beq_self_eq_true])⟩
    | failed | nothing | unresolved | resumedUnresolved | refused | denied =>
        exact absurd rfl hphase
  · exact .inr hall

/-- The shape of the attempts, the keys of the unfinished ones, and the keys left over. -/
structure Freed (toJson : Value → String) (config : SituationsConfig) (b : Brain) : Prop where
  formed : b.Formed toJson config
  held : Held b.dedup b.attempts
  accounted : Accounted Releasable b.dedup b.attempts

theorem freed_step (h : b.Freed toJson config) (hf : b.Frees toJson config e) :
    (b.step toJson config e).Freed toJson config := by
  obtain ⟨hreleases, hcompletes, hkeeps⟩ := hf
  refine ⟨formed_step h.formed, held_step h.held hkeeps, accounted_step ?_ ?_ h.accounted⟩
  · intro a hunfinished
    exact .inl hunfinished
  · intro id a phase keys hid ha hm
    exact (moved_of_after hm).releasable (h.formed.attempts a (List.mem_of_getElem? ha))
      (hreleases id hid a ha) (hcompletes id hid a ha)

theorem freed_run {events : List CycleEvent}
    (h : Every (step toJson config) (Frees toJson config) start events) :
    (run (step toJson config) start events).Freed toJson config :=
  h.invariant ⟨formed_run [], held_start, accounted_start⟩ (fun _ _ => freed_step)

/-! ### Ended attempts lose their keys for good -/

theorem unfinished_of_pendingKey {key : String} (h : a.pendingKey = some key) :
    a.phase.Unfinished ∧ key ∈ a.keys := by
  unfold Attempt.pendingKey at h
  split at h
  · rename_i hp
    rw [hp]
    refine ⟨trivial, ?_⟩
    split at h
    · cases h
      exact List.mem_cons_self
    · cases h
  · cases h

/-- The attempt ended, and no key is claimed by it. -/
def Cleared (id : Nat) (b : Brain) : Prop :=
  (∃ a, b.attempts[id]? = some a ∧ ¬ a.phase.Unfinished) ∧ ∀ c ∈ b.dedup.seen, c.attempt ≠ id

theorem cleared_step (h : Cleared id b) : Cleared id (b.step toJson config e) := by
  obtain ⟨⟨a, ha, hended⟩, hfree⟩ := h
  have hlt : id < b.attempts.length := (List.getElem?_eq_some_iff.mp ha).1
  have hne : b.attempts.length ≠ id := by omega
  have hchange : Change toJson config b e _ _ := step_change
  unfold Cleared
  generalize (b.step toJson config e).dedup = d', (b.step toJson config e).attempts = attempts'
    at hchange ⊢
  cases hchange with
  | same => exact ⟨⟨a, ha, hended⟩, hfree⟩
  | resolved he =>
      refine ⟨⟨a, ha, hended⟩, ?_⟩
      intro c hc
      exact hfree c (InMemoryDedup.mem_releaseAll.mp hc).1
  | dropped hw hd =>
      refine ⟨⟨a, ha, hended⟩, ?_⟩
      intro c hc
      rcases InMemoryDedup.mem_of_claim hd (InMemoryDedup.mem_release.mp hc).1 with rfl | hc
      · exact hne
      · exact hfree c hc
  | procedure hw hs hp hd =>
      refine ⟨⟨a, by rw [List.getElem?_append_left hlt]; exact ha, hended⟩, ?_⟩
      intro c hc
      rcases InMemoryDedup.mem_of_claim hd hc with rfl | hc
      · exact hne
      · exact hfree c hc
  | asked hw hd hd' =>
      refine ⟨⟨a, by rw [List.getElem?_append_left hlt]; exact ha, hended⟩, ?_⟩
      intro c hc
      rcases InMemoryDedup.mem_of_claim hd' hc with rfl | hc
      · exact hne
      · rcases InMemoryDedup.mem_of_claim hd hc with rfl | hc
        · exact hne
        · exact hfree c hc
  | @advanced j a' phase keys hid ha' hm =>
      have hj : j ≠ id := by
        rintro rfl
        rw [ha] at ha'
        cases ha'
        exact hended (moved_of_after hm).unfinished
      refine ⟨⟨a, by rw [List.getElem?_set_ne hj]; exact ha, hended⟩, ?_⟩
      intro c hc
      exact hfree c (InMemoryDedup.mem_releaseAll.mp hc).1

/-- The only key an ended attempt can have left is that of a pressure it was about. -/
theorem Freed.key_eq {c : ClaimedKey} (h : b.Freed toJson config) (hc : c ∈ b.dedup.seen)
    (ha : b.attempts[c.attempt]? = some a) (hended : ¬ a.phase.Unfinished)
    (hcovers : a.Covers s) :
    ∃ t, Collected config t ∧ t.signature ≠ hostHealth ∧ t.Same s ∧ c.key = t.dedupKey := by
  obtain ⟨a', ha', hkey, hreleasable⟩ := h.accounted c hc
  rw [ha] at ha'
  cases ha'
  obtain ⟨-, hnone, hpressure⟩ := hreleasable.resolve_left hended
  have hformed := h.formed.attempts a (List.mem_of_getElem? ha)
  obtain ⟨t, hsituations, hdedup⟩ := hformed.single hnone
  have hmem : t ∈ a.situations := by
    rw [hsituations]
    exact List.mem_singleton.mpr rfl
  refine ⟨t, hformed.collected t hmem, hpressure t hmem, ?_, ?_⟩
  · obtain ⟨u, hu, hus⟩ := hcovers
    rw [hsituations] at hu
    rw [← List.mem_singleton.mp hu]
    exact hus
  · rw [keys_of_none hnone, hdedup, situationDedupKey, if_neg (hpressure t hmem)] at hkey
    exact List.mem_singleton.mp hkey

/-- A key claimed by an ended attempt is carried by no paused plan. -/
theorem Held.not_pending {c : ClaimedKey} (h : Held b.dedup b.attempts) (hc : c ∈ b.dedup.seen)
    (ha : b.attempts[c.attempt]? = some a) (hended : ¬ a.phase.Unfinished) :
    b.pendingHoldsDedup c.key = false := by
  rw [Bool.eq_false_iff]
  intro hholds
  obtain ⟨a', hmem, hpending⟩ := List.any_eq_true.mp hholds
  obtain ⟨j, ha'⟩ := List.mem_iff_getElem?.mp hmem
  obtain ⟨hunfinished, hkey⟩ := unfinished_of_pendingKey (beq_iff_eq.mp hpending)
  have heq := InMemoryDedup.eq_of_key_eq hc (h j a' ha' hunfinished c.key hkey) rfl
  rw [congrArg ClaimedKey.attempt heq, ha'] at ha
  cases ha
  exact hended hunfinished

/-- The cycle that finds a situation absent clears the attempts on it that ended. -/
theorem cleared_of_absent {sensors : Sensors} (threshold : Ieee.Datum) {completed : Bool}
    (h : b.Freed toJson config) (ha : b.attempts[id]? = some a)
    (hended : a.phase = .ended completed) (hcovers : a.Covers s)
    (habsent : sensors.Absent config s) :
    Cleared id (b.step toJson config (.collect sensors threshold)) := by
  have hfinished : ¬ a.phase.Unfinished := by
    rw [hended]
    exact fun hunfinished => hunfinished
  rw [Cleared, collect_attempts, collect_dedup]
  refine ⟨⟨a, ha, hfinished⟩, ?_⟩
  intro c hc hid
  subst hid
  obtain ⟨hc, hkept⟩ := InMemoryDedup.mem_releaseAll.mp hc
  obtain ⟨t, hcollected, hpressure, hsame, hkey⟩ := h.key_eq hc ha hfinished hcovers
  refine hkept (List.mem_filter.mpr ⟨?_, ?_⟩)
  · rw [hkey]
    exact resolved_of_absent hcollected hpressure (habsent.same hsame.symm)
  · rw [h.held.not_pending hc ha hfinished]
    rfl

/-- An attempt keeps its situations and its keys. -/
theorem kept_step (ha : b.attempts[id]? = some a) :
    ∃ phase, (b.step toJson config e).attempts[id]? = some { a with phase } := by
  have hlt : id < b.attempts.length := (List.getElem?_eq_some_iff.mp ha).1
  have hchange : Change toJson config b e _ _ := step_change
  generalize (b.step toJson config e).dedup = d', (b.step toJson config e).attempts = attempts'
    at hchange ⊢
  cases hchange with
  | same | resolved | dropped => exact ⟨a.phase, ha⟩
  | procedure | asked =>
      refine ⟨a.phase, ?_⟩
      rw [List.getElem?_append_left hlt]
      exact ha
  | @advanced j a' phase keys hid ha' hm =>
      by_cases hj : j = id
      · subst hj
        rw [ha] at ha'
        cases ha'
        exact ⟨phase, List.getElem?_set_self hlt⟩
      · refine ⟨a.phase, ?_⟩
        rw [List.getElem?_set_ne hj]
        exact ha

theorem kept_run (ha : b.attempts[id]? = some a) (events : List CycleEvent) :
    ∃ phase, (run (step toJson config) b events).attempts[id]? = some { a with phase } := by
  induction events generalizing b a with
  | nil => exact ⟨a.phase, ha⟩
  | cons e events ih =>
      have hnext : ∃ phase, (b.step toJson config e).attempts[id]? = some { a with phase } :=
        kept_step ha
      obtain ⟨phase, hnext⟩ := hnext
      exact ih (a := { a with phase }) hnext

/-- A claim of an ended attempt on a situation that was found absent since is gone. -/
theorem cleared_run {before later : List CycleEvent} {sensors : Sensors} {threshold : Ieee.Datum}
    (h : Every (step toJson config) (Frees toJson config) start before)
    (hended : EndedIn toJson config before id)
    (hcovers : ∀ a, (run (step toJson config) start before).attempts[id]? = some a → a.Covers s)
    (habsent : sensors.Absent config s) :
    Cleared id (run (step toJson config) start
      (before ++ .collect sensors threshold :: later)) := by
  obtain ⟨a, ha, hfinished⟩ := hended
  obtain ⟨completed, hphase⟩ : ∃ completed, a.phase = .ended completed := by
    cases hp : a.phase with
    | ended completed => exact ⟨completed, rfl⟩
    | deciding | running | paused | resuming =>
        rw [hp] at hfinished
        exact absurd trivial hfinished
  rw [run_append]
  exact invariant (cleared_of_absent threshold (freed_run h) ha hphase (hcovers a ha) habsent)
    (fun _ _ => cleared_step) later

/-- Every claimed key is live. -/
theorem live_of_mem {events : List CycleEvent} {c : ClaimedKey}
    (h : Every (step toJson config) (Frees toJson config) start events)
    (hc : c ∈ (run (step toJson config) start events).dedup.seen) :
    Live toJson config events c := by
  obtain ⟨a, ha, hkey, hreleasable⟩ := (freed_run h).accounted c hc
  refine ⟨a, ha, hkey, hreleasable.imp_right fun ⟨hphase, hpressure⟩ => ⟨hphase, hpressure, ?_⟩⟩
  intro before sensors threshold later hevents hended s hcovers habsent
  subst hevents
  have hsame : ∀ a₀, (run (step toJson config) start before).attempts[c.attempt]? = some a₀ →
      a₀.Covers s := by
    intro a₀ ha₀
    have hkept : ∃ phase, (run (step toJson config) start
        (before ++ .collect sensors threshold :: later)).attempts[c.attempt]? =
          some { a₀ with phase } := by
      rw [run_append]
      exact kept_run ha₀ _
    obtain ⟨phase, hkept⟩ := hkept
    rw [ha] at hkept
    cases hkept
    exact hcovers
  exact (cleared_run (every_append.mp h).1 hended hsame habsent).2 c hc rfl

/-- The writer puts an array between brackets. -/
def BracketsArrays (toJson : Value → String) : Prop :=
  ∀ items, ∃ rest, toJson (.array items) = "[" ++ rest

/-- The key of a set begins with the key of one of its situations. -/
theorem situationSetKey_eq {situations : List Situation} (hne : situations ≠ []) :
    ∃ t ∈ situations, ∃ rest, situationSetKey situations = t.dedupKey ++ rest := by
  unfold situationSetKey
  cases hsorted : (situations.map Situation.dedupKey).insertionSort (· ≤ ·) with
  | nil =>
      have hlength := congrArg List.length hsorted
      rw [List.length_insertionSort, List.length_map] at hlength
      exact absurd (List.length_eq_zero_iff.mp hlength) hne
  | cons key keys =>
      have hmem : key ∈ situations.map Situation.dedupKey :=
        (List.mem_insertionSort (· ≤ ·)).mp (hsorted ▸ List.mem_cons_self)
      obtain ⟨t, ht, rfl⟩ := List.mem_map.mp hmem
      refine ⟨t, ht, ?_⟩
      cases keys with
      | nil => exact ⟨"", by rw [String.intercalate_singleton, String.append_empty]⟩
      | cons => exact ⟨_, by rw [String.intercalate_cons_cons, String.append_assoc]⟩

theorem dedupKey_ne_bracket {t : Situation} (h : Collected config t) {rest rest' : String} :
    t.dedupKey ++ rest ≠ "[" ++ rest' := by
  intro heq
  have hchars := congrArg (fun text => text.toList.head?) heq
  cases h <;>
    simp [Situation.dedupKey, hostHealth, memoryPressure, diskPressure] at hchars

/-- The key of a set is not the key of an evidence: the one begins with a signature, the other
with a bracket. -/
theorem situationSetKey_ne {situations : List Situation} {evidence : ContextBuilder}
    (hwriter : BracketsArrays toJson) (hcollected : ∀ t ∈ situations, Collected config t) :
    situationSetKey situations ≠ observationDedupKey toJson evidence := by
  unfold observationDedupKey ContextBuilder.canonicalKey
  obtain ⟨rest, hkey⟩ := hwriter
    (((evidence.entries.map fun entry => toJson entry.written).insertionSort (· ≤ ·)).map .string)
  rw [hkey]
  by_cases hne : situations = []
  · subst hne
    intro heq
    have hchars := congrArg (fun text => text.toList.head?) heq
    simp [situationSetKey] at hchars
  · obtain ⟨t, ht, rest', hset⟩ := situationSetKey_eq hne
    rw [hset]
    exact dedupKey_ne_bracket (hcollected t ht)

theorem wanted_of_poses {posed : List Situation × List String}
    (h : b.poses toJson e = some posed) : b.wanted toJson e = some posed := by
  cases e with
  | consider i runbooks descriptors =>
      simp only [poses, Option.bind_eq_bind, Option.bind_eq_some_iff] at h
      obtain ⟨⟨cycle, s⟩, hc, runbook, hr, plan, hp, hposed⟩ := h
      simp [wanted, hc, hr, hposed]
  | request | collect | reply | ran | grant | resumed | deny => exact h

theorem wanted_of_refusal {situations : List Situation} {c : ClaimedKey}
    (h : b.refusal toJson e = some (situations, c)) :
    ∃ keys, b.wanted toJson e = some (situations, keys) := by
  unfold refusal at h
  split at h
  · obtain ⟨c', -, heq⟩ := Option.map_eq_some_iff.mp h
    cases heq
    exact ⟨_, ‹_›⟩
  · obtain ⟨c', -, heq⟩ := Option.map_eq_some_iff.mp h
    cases heq
    exact ⟨_, ‹_›⟩
  · cases h

/-- Two keys are those of a set and of its evidence. -/
theorem keys_of_wanted {situations : List Situation} {setKey evidenceKey : String}
    (h : b.wanted toJson e = some (situations, [setKey, evidenceKey])) :
    setKey = situationSetKey situations ∧
      evidenceKey = observationDedupKey toJson (mergedEvidence situations) := by
  unfold wanted at h
  split at h
  · simp [Option.bind_eq_some_iff] at h
  · simp only [Option.bind_eq_bind, Option.bind_eq_some_iff] at h
    obtain ⟨cycle, -, h⟩ := h
    cases h
    exact ⟨rfl, rfl⟩
  · cases h

/-- A refusing key was claimed before. -/
theorem mem_of_refusal_of_writer {situations : List Situation} {c : ClaimedKey}
    (hwriter : BracketsArrays toJson) (hformed : b.Formed toJson config)
    (h : b.refusal toJson e = some (situations, c)) : c ∈ b.dedup.seen := by
  unfold refusal at h
  split at h
  · obtain ⟨c', hc', heq⟩ := Option.map_eq_some_iff.mp h
    cases heq
    exact (InMemoryDedup.mem_of_holder hc').1
  · rename_i situations' setKey evidenceKey hw
    obtain ⟨c', hc', heq⟩ := Option.map_eq_some_iff.mp h
    cases heq
    split at hc'
    · cases hc'
      exact (InMemoryDedup.mem_of_holder ‹_›).1
    · rename_i hfree
      obtain ⟨d, hd⟩ := InMemoryDedup.claim_of_free b.attempts.length hfree
      rw [hd] at hc'
      obtain ⟨hmem, hkey⟩ := InMemoryDedup.mem_of_holder hc'
      rcases InMemoryDedup.mem_of_claim hd hmem with rfl | hmem
      · -- the key of the set, claimed just now, would be the key of the evidence
        obtain ⟨hset, hevidence⟩ := keys_of_wanted hw
        rw [hset, hevidence] at hkey
        exact absurd hkey (situationSetKey_ne hwriter (hformed.wanted hw))
      · exact hmem
  · cases h

/-- In every run of such events, a situation that comes back is reasoned about again. -/
theorem recurring_not_suppressed {events : List CycleEvent} (hwriter : BracketsArrays toJson)
    (h : Every (step toJson config) (Frees toJson config) start events) :
    ReasonsAgain toJson config events := by
  intro before sensors threshold later hevents id a s completed ha hphase hcovers habsent _
    e situations keys hposes hmem
  cases hrefusal : (run (step toJson config) start events).refusal toJson e with
  | none =>
      have hposed : ∃ a' : Attempt, (run (step toJson config) start (events ++ [e])).attempts =
          (run (step toJson config) start events).attempts ++ [a'] ∧
            a'.situations = situations ∧ a'.keys = keys := by
        rw [run_append]
        exact attempts_of_poses hposes hrefusal
      obtain ⟨a', hattempts, hsituations, -⟩ := hposed
      refine .inl ⟨a', hattempts, ?_⟩
      rw [Attempt.Covers, hsituations]
      exact hmem
  | some refused =>
      obtain ⟨situations', c⟩ := refused
      have hseen := mem_of_refusal_of_writer hwriter (freed_run h).formed hrefusal
      obtain ⟨keys', hwanted⟩ := wanted_of_refusal hrefusal
      rw [wanted_of_poses hposes] at hwanted
      cases hwanted
      refine .inr ⟨c, rfl, ?_, live_of_mem h hseen⟩
      subst hevents
      have hended : EndedIn toJson config before id :=
        ⟨a, ha, by rw [hphase]; exact fun hunfinished => hunfinished⟩
      have hsame : ∀ a₀, (run (step toJson config) start before).attempts[id]? = some a₀ →
          a₀.Covers s := by
        intro a₀ ha₀
        rw [ha] at ha₀
        cases ha₀
        exact hcovers
      exact (cleared_run (every_append.mp h).1 hended hsame habsent).2 c hseen

/-! A pressure that was handled and comes back. -/

/-- A run that completed, with the action it executed. -/
def completedRun (action : Action) : ExecutionOutcome :=
  ⟨[⟨action, .completed, .null⟩], [], [], .completed, 0⟩

def reclaimAction : Action := ⟨memoryReclaim, none, .object [("subject", .string "mem")]⟩

theorem evidenceJson_bracketsArrays : BracketsArrays evidenceJson :=
  fun _ => ⟨_, by rw [evidenceJson, String.append_assoc]⟩

/-- The procedure completed and the memory was freed: when it fills up again the procedure is
started again. -/
theorem recurring_not_suppressed_memory :
    let events : List CycleEvent :=
      [.collect (memoryHost 95) defaultThreshold, .consider 0 [reclaimRunbook] [reclaimDescriptor],
        .ran 0 (.finished (completedRun reclaimAction)),
        .collect (memoryHost 50) defaultThreshold, .collect (memoryHost 95) defaultThreshold]
    ReasonsAgain evidenceJson .default events ∧
      ((run (step evidenceJson .default) start events).step evidenceJson .default
        (.consider 1 [reclaimRunbook] [reclaimDescriptor])).attempts.map Attempt.phase =
        [.ended true, .running reclaimPlan] :=
  ⟨recurring_not_suppressed evidenceJson_bracketsArrays (by decide +kernel), by decide +kernel⟩

/-- A unit fails while the memory is full, and the restart that the provider advises
completes. -/
def handledTogether : List CycleEvent :=
  cycleOf 0 (failedHost 95) ++ [.consider 0 [] [], .request 0 true,
    .reply 0 (answered "restart"), .ran 0 (.finished (completedRun (restartUnit "nginx.service")))]

/-- Both are gone, and both come back. -/
def bothBack : List CycleEvent := cycleOf 1 (failedHost 95) ++ [.consider 1 [] []]

def memoryFull : Situation := ⟨memoryPressure, "mem", "mem at 95.0%"⟩

/-- The cycle passes both for the key of the set. -/
theorem suppressed_recurrence :
    ¬ ReasonsAgain evidenceJson .default
      (handledTogether ++ .collect (memoryHost 50) defaultThreshold :: bothBack) := by
  intro h
  have hhandled : ((run (step evidenceJson .default) start handledTogether).attempts[0]?).any
      fun a => a.phase = .ended true ∧ a.Covers memoryFull := by
    decide +kernel
  obtain ⟨a, ha, hstate⟩ := (Option.any_eq_true _ _).mp hhandled
  obtain ⟨hended, hcovers⟩ := of_decide_eq_true hstate
  have habsent : (memoryHost 50).Absent .default memoryFull := by
    unfold Sensors.Absent Sensors.Read
    decide
  have hrefusal : (run (step evidenceJson .default) start
      (handledTogether ++ .collect (memoryHost 50) defaultThreshold :: bothBack)).refusal
        evidenceJson (.request 1 true) = some ([nginxFailed, memoryFull],
          ⟨"host-health:nginx.service|memory-pressure:mem", 0⟩) := by
    decide +kernel
  obtain ⟨keys, hwanted⟩ := wanted_of_refusal hrefusal
  rcases h handledTogether (memoryHost 50) defaultThreshold bothBack rfl 0 a memoryFull true ha
    hended hcovers habsent (by decide +kernel) (.request 1 true) _ keys hwanted
    ⟨memoryFull, by decide, rfl, rfl⟩ with ⟨a', hattempts, -⟩ | ⟨c, hc, hne, -⟩
  · -- a refused claim makes no attempt
    rw [run_append, run_singleton, attempts_of_refusal hrefusal] at hattempts
    have hlength := congrArg List.length hattempts
    simp at hlength
  · rw [hrefusal] at hc
    cases hc
    exact hne rfl

end Brain

end Argus
