import Argus.Daemon.Brain

/-!
# What the dedup keys suppress

A claimed key makes a cycle pass, so the keys of an attempt have to go when it ends without a
completed plan. They do not always. An erroneous reply of the provider leaves the key of the
set and the key of the evidence; the run of a provider plan leaves the key of the evidence,
whatever its end; a denied plan and a refused resume leave every key (`unhandled_not_suppressed`
and `suppressed_after_error`).

A completed plan keeps its keys on purpose, and a pressure that is read below its threshold
releases the key of its identity. No other key is ever released by a resolution
(`recurring_not_suppressed` and `suppressed_recurrence`).
-/

namespace Argus

namespace Brain

open Machine
open Ieee (Datum)

variable {toJson : Value → String} {config : SituationsConfig} {b : Brain} {e : CycleEvent}

/-! ### Every claimed key belongs to an attempt -/

/-- Every key of the set is one of the keys of the attempt that claimed it, and the attempt
satisfies `P`. -/
def Accounted (P : Attempt → Prop) (d : InMemoryDedup) (attempts : List Attempt) : Prop :=
  ∀ c ∈ d.seen, ∃ a, attempts[c.attempt]? = some a ∧ c.key ∈ a.keys ∧ P a

variable {P : Attempt → Prop} {d : InMemoryDedup} {attempts : List Attempt}

theorem accounted_start : Accounted P start.dedup start.attempts := by
  intro c hc
  cases hc

theorem Accounted.subset {d' : InMemoryDedup} (h : Accounted P d attempts)
    (hsub : ∀ c ∈ d'.seen, c ∈ d.seen) : Accounted P d' attempts :=
  fun c hc => h c (hsub c hc)

/-- An attempt is added with the keys it claimed. -/
theorem Accounted.push {d' : InMemoryDedup} {a : Attempt} (h : Accounted P d attempts) (ha : P a)
    (hsub : ∀ c ∈ d'.seen, c ∈ d.seen ∨ c.attempt = attempts.length ∧ c.key ∈ a.keys) :
    Accounted P d' (attempts ++ [a]) := by
  intro c hc
  rcases hsub c hc with hold | ⟨hid, hkey⟩
  · obtain ⟨a', ha', hkey, hP⟩ := h c hold
    refine ⟨a', ?_, hkey, hP⟩
    rw [List.getElem?_append_left (List.getElem?_eq_some_iff.mp ha').1]
    exact ha'
  · refine ⟨a, ?_, hkey, ha⟩
    rw [hid]
    simp

/-- What one event does to the accounts. An attempt that an event moves on either still
satisfies `P`, or the event releases all its keys. -/
theorem accounted_step (hnew : ∀ a : Attempt, a.phase.Unfinished → P a)
    (hmove : ∀ id a phase keys, e.attempt = some id → b.attempts[id]? = some a →
      after a e = some (phase, keys) → P { a with phase } ∨ ∀ k ∈ a.keys, k ∈ keys)
    (h : Accounted P b.dedup b.attempts) :
    Accounted P (b.step toJson config e).dedup (b.step toJson config e).attempts := by
  have hchange : Change toJson config b e _ _ := step_change
  generalize (b.step toJson config e).dedup = d', (b.step toJson config e).attempts = attempts'
    at hchange ⊢
  cases hchange with
  | same => exact h
  | resolved he =>
      refine h.subset ?_
      intro c hc
      exact (InMemoryDedup.mem_releaseAll.mp hc).1
  | dropped hw hd =>
      refine h.subset ?_
      intro c hc
      obtain ⟨hc, hne⟩ := InMemoryDedup.mem_release.mp hc
      rcases InMemoryDedup.mem_of_claim hd hc with rfl | hc
      · exact absurd rfl hne
      · exact hc
  | procedure hw hs hp hd =>
      refine h.push (hnew _ trivial) ?_
      intro c hc
      rcases InMemoryDedup.mem_of_claim hd hc with rfl | hc
      · exact .inr ⟨rfl, List.mem_cons_self⟩
      · exact .inl hc
  | asked hw hd hd' =>
      refine h.push (hnew _ trivial) ?_
      intro c hc
      rcases InMemoryDedup.mem_of_claim hd' hc with rfl | hc
      · exact .inr ⟨rfl, by simp [Attempt.keys]⟩
      · rcases InMemoryDedup.mem_of_claim hd hc with rfl | hc
        · exact .inr ⟨rfl, List.mem_cons_self⟩
        · exact .inl hc
  | @advanced id a phase keys hid ha hm =>
      intro c hc
      obtain ⟨hc, hkept⟩ := InMemoryDedup.mem_releaseAll.mp hc
      obtain ⟨a', ha', hkey, hP⟩ := h c hc
      by_cases hsame : c.attempt = id
      · rw [hsame, ha] at ha'
        cases ha'
        rcases hmove id a phase keys hid ha hm with hP' | hall
        · refine ⟨{ a with phase }, ?_, hkey, hP'⟩
          rw [hsame, List.getElem?_set_self (List.getElem?_eq_some_iff.mp ha).1]
        · exact absurd (hall c.key hkey) hkept
      · refine ⟨a', ?_, hkey, hP⟩
        rw [List.getElem?_set_ne (Ne.symm hsame)]
        exact ha'

/-! ### Every unfinished attempt holds its keys -/

/-- The keys of an attempt are claimed by it for as long as it is not finished. -/
def Held (d : InMemoryDedup) (attempts : List Attempt) : Prop :=
  ∀ id a, attempts[id]? = some a → a.phase.Unfinished → ∀ k ∈ a.keys, ⟨k, id⟩ ∈ d.seen

/-- The event does not take a key from an unfinished attempt. A pressure that settles is not
one whose key such an attempt holds, a paused plan that carries the key apart; and the set has
room for the keys that are claimed, or it is cleared while no attempt is unfinished. -/
def KeepsKeys (toJson : Value → String) (config : SituationsConfig) (b : Brain)
    (e : CycleEvent) : Prop :=
  (∀ sensors ∈ e.sensors, ∀ key ∈ resolvedPressureKeys sensors.readings config,
    ∀ a ∈ b.attempts, a.phase.Unfinished → key ∈ a.keys → a.pendingKey = some key) ∧
  ∀ claims ∈ b.wanted toJson e,
    b.dedup.seen.length + claims.2.length ≤ b.dedup.maxKeys ∨
      b.dedup.maxKeys ≤ b.dedup.seen.length ∧ claims.2.length ≤ b.dedup.maxKeys ∧
        ∀ a ∈ b.attempts, ¬ a.phase.Unfinished

instance (b : Brain) (e : CycleEvent) : Decidable (b.KeepsKeys toJson config e) :=
  inferInstanceAs (Decidable (_ ∧ _))

theorem held_start : Held start.dedup start.attempts := by
  intro id a ha
  cases ha

/-- A granted claim keeps what the attempts hold. -/
theorem Held.claim {d' : InMemoryDedup} {key : String} {n : Nat} (h : Held d attempts)
    (hd : d.claim key n = (true, d'))
    (hroom : d.seen.length < d.maxKeys ∨ ∀ a ∈ attempts, ¬ a.phase.Unfinished) :
    Held d' attempts := by
  intro id a ha hunfinished k hk
  rcases hroom with hroom | hnone
  · exact InMemoryDedup.claim_keeps hd hroom (h id a ha hunfinished k hk)
  · exact absurd hunfinished (hnone a (List.mem_of_getElem? ha))

theorem Held.push {a : Attempt} (h : Held d attempts)
    (ha : ∀ k ∈ a.keys, ⟨k, attempts.length⟩ ∈ d.seen) : Held d (attempts ++ [a]) := by
  intro id a' ha' hunfinished k hk
  rcases lookup_push ha' with hold | ⟨rfl, rfl⟩
  · exact h id a' hold hunfinished k hk
  · exact ha k hk

/-- A claim that keeps the keys finds room, or nothing to keep. -/
theorem claim_room {situations : List Situation} {key : String} {keys : List String}
    (h : b.KeepsKeys toJson config e)
    (hw : b.wanted toJson e = some (situations, key :: keys)) :
    b.dedup.seen.length < b.dedup.maxKeys ∨ ∀ a ∈ b.attempts, ¬ a.phase.Unfinished := by
  rcases h.2 _ hw with hroom | ⟨-, -, hnone⟩
  · left
    simp only [List.length_cons] at hroom
    omega
  · exact .inr hnone

theorem held_step (h : Held b.dedup b.attempts) (hk : b.KeepsKeys toJson config e) :
    Held (b.step toJson config e).dedup (b.step toJson config e).attempts := by
  have hresolved := hk.1
  have hchange : Change toJson config b e _ _ := step_change
  generalize (b.step toJson config e).dedup = d', (b.step toJson config e).attempts = attempts'
    at hchange ⊢
  cases hchange with
  | same => exact h
  | @resolved sensors he =>
      intro id a ha hunfinished k hk
      refine InMemoryDedup.mem_releaseAll.mpr ⟨h id a ha hunfinished k hk, ?_⟩
      intro hmem
      obtain ⟨hmem, hfree⟩ := List.mem_filter.mp hmem
      have hmema := List.mem_of_getElem? ha
      have hpending := hresolved sensors he k hmem a hmema hunfinished hk
      have hholds : b.pendingHoldsDedup k = true :=
        List.any_eq_true.mpr ⟨a, hmema, by simp [hpending]⟩
      simp [hholds] at hfree
  | dropped hw hd =>
      intro id a ha hunfinished k hk'
      refine InMemoryDedup.mem_release.mpr ⟨?_, ?_⟩
      · exact h.claim hd (claim_room hk hw) id a ha hunfinished k hk'
      · exact InMemoryDedup.free_of_claim hd _ (h id a ha hunfinished k hk')
  | procedure hw hs hp hd =>
      refine (h.claim hd (claim_room hk hw)).push ?_
      intro k hk
      rw [List.mem_singleton.mp hk]
      exact InMemoryDedup.claimed_mem hd
  | @asked situations setKey evidenceKey threshold d _ hw hd hd' =>
      have hfirst := claim_room hk hw
      -- The first claim leaves room for the second, also when it clears the set.
      have hsecond : d.seen.length < d.maxKeys := by
        rw [(InMemoryDedup.seen_of_claim hd).1, (InMemoryDedup.seen_of_claim hd).2]
        rcases hk.2 _ hw with hroom | ⟨hfull, hmax, -⟩
        · simp only [List.length_cons, List.length_nil] at hroom
          rw [if_neg (by omega), List.length_cons]
          omega
        · simp only [List.length_cons, List.length_nil] at hmax
          rw [if_pos hfull, List.length_singleton]
          omega
      refine ((h.claim hd hfirst).claim hd' (.inl hsecond)).push ?_
      intro k hk
      rcases List.mem_cons.mp hk with rfl | hk
      · exact InMemoryDedup.claim_keeps hd' hsecond (InMemoryDedup.claimed_mem hd)
      · rw [List.mem_singleton.mp hk]
        exact InMemoryDedup.claimed_mem hd'
  | @advanced id a phase keys hid ha hm =>
      have hmoved := moved_of_after hm
      have hheld := h id a ha hmoved.unfinished
      intro j a' ha' hunfinished k hk
      rw [InMemoryDedup.mem_releaseAll]
      rcases lookup_set ha' with ⟨rfl, rfl⟩ | ⟨hne, hold⟩
      · rw [hmoved.keys_eq_nil hunfinished]
        exact ⟨hheld k hk, List.not_mem_nil⟩
      · have hother := h j a' hold hunfinished k hk
        refine ⟨hother, ?_⟩
        -- A released key is held by the attempt that moves on, so by no other.
        intro hmem
        have heq := InMemoryDedup.eq_of_key_eq hother (hheld k (hmoved.keys_subset k hmem)) rfl
        exact hne (congrArg ClaimedKey.attempt heq)

/-! ### Unhandled situations -/

/-- The last attempt on the situation. -/
def lastAttempt (b : Brain) (s : Situation) : Option Attempt :=
  b.attempts.reverse.find? fun a => a.Covers s

/-- No plan for the situation is paused or in flight, and the last attempt on it ended
without a completed plan. -/
def Unhandled (b : Brain) (s : Situation) : Prop :=
  (∀ a ∈ b.attempts, a.Covers s → ¬ a.phase.IsOpen) ∧
    (b.lastAttempt s).map Attempt.phase = some (.ended false)

/-- No cycle passes an unhandled situation for a key of an attempt that ended without a
completed plan. -/
def NeverSuppresses (toJson : Value → String) (b : Brain) : Prop :=
  ∀ e situations c, b.refusal toJson e = some (situations, c) →
    ∀ s ∈ situations, b.Unhandled s →
      ∀ a, b.attempts[c.attempt]? = some a → a.phase ≠ .ended false

/-- The event ends the attempt without a completed plan and leaves a key of it behind: the
reply is an error, the run of a provider plan does not complete, the resume is refused, or the
paused plan is denied. -/
def leavesKey (a : Attempt) (e : CycleEvent) : Bool :=
  match a.phase, e with
  | .deciding, .reply _ (.error (.unavailable _)) => false
  | .deciding, .reply _ (.error _) => true
  | .running _, .ran _ (.finished report) => report.status != .completed && a.evidenceKey.isSome
  | .resuming _, .resumed _ (.finished report) =>
      report.status != .completed && a.evidenceKey.isSome
  | .resuming _, .resumed _ _ => true
  | .paused _, .deny _ => true
  | _, _ => false

/-- No attempt is left behind with a key of it claimed. -/
def Releases (b : Brain) (e : CycleEvent) : Prop :=
  ∀ id ∈ e.attempt, ∀ a ∈ b.attempts[id]?, leavesKey a e = false

instance (b : Brain) (e : CycleEvent) : Decidable (b.Releases e) :=
  inferInstanceAs (Decidable (∀ id ∈ e.attempt, ∀ a ∈ b.attempts[id]?, leavesKey a e = false))

theorem keys_of_none {a : Attempt} (h : a.evidenceKey = none) : a.keys = [a.dedupKey] := by
  simp [Attempt.keys, h]

/-- An attempt that ends without a completed plan and leaves no key behind released all of
them. -/
theorem Moved.releases {a : Attempt} {phase : Phase} {keys : List String}
    (hformed : a.Formed toJson config) (hr : leavesKey a e = false) (hm : Moved a e phase keys) :
    phase ≠ .ended false ∨ ∀ k ∈ a.keys, k ∈ keys := by
  cases hm with
  | @failed _ _ error hp hreply herror =>
      subst hreply
      cases error with
      | unavailable why => exact absurd rfl (herror why)
      | invalid | validation =>
          simp only [leavesKey, hp, reduceCtorEq] at hr
  | nothing hp =>
      right
      intro k hk
      rcases List.mem_cons.mp hk with rfl | hk
      · exact List.mem_append_right _ (List.mem_singleton.mpr rfl)
      · exact List.mem_append_left _ hk
  | unresolved hp hs =>
      right
      simp only [leavesKey, hp] at hr
      have hnone : a.evidenceKey = none := by simpa [hs] using hr
      rw [keys_of_none hnone]
      exact fun k hk => hk
  | @resumedUnresolved _ report plan hp hs =>
      right
      simp only [leavesKey, hp] at hr
      have hnone : a.evidenceKey = none := by simpa [hs] using hr
      have hplan : plan.runbook.isSome := hformed.attributed hnone plan (by rw [hp]; rfl)
      rw [keys_of_none hnone, if_pos hplan]
      exact fun k hk => hk
  | @refused _ outcome plan hp ho =>
      cases outcome with
      | finished report => exact absurd rfl (ho report)
      | refused | panicked => simp only [leavesKey, hp, reduceCtorEq] at hr
  | denied hp => simp only [leavesKey, hp, reduceCtorEq] at hr
  | planned | completed | paused | granted | resumedCompleted =>
      left
      intro hne
      cases hne

/-- A refusing key is in the set, or was claimed by the refused request itself. -/
theorem mem_of_refusal {situations : List Situation} {c : ClaimedKey}
    (h : b.refusal toJson e = some (situations, c)) :
    c ∈ b.dedup.seen ∨ c.attempt = b.attempts.length := by
  unfold refusal at h
  split at h
  · obtain ⟨c', hc', heq⟩ := Option.map_eq_some_iff.mp h
    cases heq
    exact .inl (InMemoryDedup.mem_of_holder hc').1
  · obtain ⟨c', hc', heq⟩ := Option.map_eq_some_iff.mp h
    cases heq
    split at hc'
    · cases hc'
      exact .inl (InMemoryDedup.mem_of_holder ‹_›).1
    · rename_i setKey _ _ _ _
      cases hd : b.dedup.claim setKey b.attempts.length with
      | mk granted d =>
          rw [hd] at hc'
          have hmem := (InMemoryDedup.mem_of_holder hc').1
          cases granted with
          | false =>
              rw [InMemoryDedup.eq_of_refused hd] at hmem
              exact .inl hmem
          | true =>
              rcases InMemoryDedup.mem_of_claim hd hmem with rfl | hmem
              · exact .inr rfl
              · exact .inl hmem
  · cases h

/-- The attempts have their shape, and the keys belong to attempts that did not end without
a completed plan. -/
def Settled (toJson : Value → String) (config : SituationsConfig) (b : Brain) : Prop :=
  b.Formed toJson config ∧ Accounted (fun a => a.phase ≠ .ended false) b.dedup b.attempts

theorem settled_step (h : b.Settled toJson config) (hr : b.Releases e) :
    (b.step toJson config e).Settled toJson config := by
  obtain ⟨hformed, haccounted⟩ := h
  refine ⟨formed_step hformed, accounted_step ?_ ?_ haccounted⟩
  · intro a hunfinished hended
    rw [hended] at hunfinished
    exact hunfinished
  · intro id a phase keys hid ha hm
    exact (moved_of_after hm).releases (hformed.attempts a (List.mem_of_getElem? ha))
      (hr id hid a ha)

/-- In every run whose events leave no key behind, an unhandled situation is never passed for
a key of an attempt that ended without a completed plan. -/
theorem unhandled_not_suppressed {events : List CycleEvent}
    (h : Every (step toJson config) Releases start events) :
    NeverSuppresses toJson (run (step toJson config) start events) := by
  have hsettled : (run (step toJson config) start events).Settled toJson config :=
    h.invariant ⟨formed_run [], accounted_start⟩ (fun _ _ => settled_step)
  intro e situations c hrefusal s _ _ a ha
  rcases mem_of_refusal hrefusal with hmem | hlength
  · obtain ⟨a', ha', -, hphase⟩ := hsettled.2 c hmem
    rw [ha'] at ha
    cases ha
    exact hphase
  · rw [hlength, List.getElem?_eq_none (Nat.le_refl _)] at ha
    cases ha

/-! A failed unit, and a provider that replies. -/

/-- The text between quotes, for texts without control characters. -/
def quoted (text : String) : String :=
  text.toList.foldl (fun written c =>
    if c = '"' || c = '\\' then (written.push '\\').push c else written.push c) "\"" ++ "\""

/-- The JSON writer on the documents that evidence keys are made of. -/
def evidenceJson : Value → String
  | .object fields =>
      "\x7b" ++ ",".intercalate (fields.map fun field =>
        quoted field.1 ++ ":" ++ quoted (field.2.asStr.getD "")) ++ "\x7d"
  | .array items =>
      "[" ++ ",".intercalate (items.map fun item => quoted (item.asStr.getD "")) ++ "]"
  | _ => "null"

def nginxFailed : Situation := ⟨hostHealth, "nginx.service", "failed failed"⟩

/-- The sensors of a host with a failed unit and the given memory usage. -/
def failedHost (memory : ℚ) : Sensors :=
  ⟨some [("nginx.service", "failed failed")], some memory, some 40⟩

def defaultThreshold : Datum := .finite (3 / 10)

/-- A cycle up to its request: it is the `i`-th of the run and finds one situation without a
runbook. -/
def cycleOf (i : Nat) (sensors : Sensors) : List CycleEvent :=
  [.collect sensors defaultThreshold, .consider i [] []]

/-- The answers of a provider that is sure of the remediation. -/
def answered (remediation : String) : Except DecisionError DecisionResponse :=
  .ok ⟨[("degraded", .noul (.finite (9 / 10))),
    ("remediation", .choice remediation (.finite (8 / 10)))]⟩

/-- The provider advised nothing: the unit is unhandled, and the next cycle asks again. -/
theorem unhandled_not_suppressed_after_noop :
    let events := cycleOf 0 (failedHost 50) ++ [.request 0 true, .reply 0 (answered "noop")] ++
      cycleOf 1 (failedHost 50)
    let b := run (step evidenceJson .default) start events
    b.Unhandled nginxFailed ∧ NeverSuppresses evidenceJson b ∧
      ((b.step evidenceJson .default (.request 1 true)).attempts.map Attempt.phase) =
        [.ended false, .deciding] := by
  refine ⟨?_, unhandled_not_suppressed (by decide +kernel), by decide +kernel⟩
  unfold Unhandled
  decide +kernel

/-- A cycle whose request ended in an error, and the next one. -/
def afterError : List CycleEvent :=
  cycleOf 0 (failedHost 50) ++
    [.request 0 true, .reply 0 (.error (.validation "missing answer for 'remediation'"))] ++
    cycleOf 1 (failedHost 50)

/-- After a reply that is no answer the unit is unhandled, and the next cycle passes it for
the key of the set. -/
theorem suppressed_after_error :
    ¬ NeverSuppresses evidenceJson (run (step evidenceJson .default) start afterError) := by
  intro h
  have hunhandled : (run (step evidenceJson .default) start afterError).Unhandled nginxFailed := by
    unfold Unhandled
    decide
  have hended : ((run (step evidenceJson .default) start afterError).attempts[0]?).any
      fun a => a.phase = .ended false := by
    decide
  obtain ⟨a, ha, hphase⟩ := (Option.any_eq_true _ _).mp hended
  exact h (.request 1 true) [nginxFailed] ⟨"host-health:nginx.service", 0⟩ (by decide)
    nginxFailed List.mem_cons_self hunhandled a ha (of_decide_eq_true hphase)

end Brain

end Argus
