import Argus.Daemon.Autonomy
import Mathlib.Data.List.Induction

/-!
# Authority is earned

The counters of the autonomy machine stand for its history: `rungCleanCycles` for the clean
cycles since the last unclean one or the last change of rung, `validatedActionsSinceRung`
for the validated work since that change. `Evidence` says so of a history of calls, every
call keeps it, and `promotion_earned` reads it where a gate opens.
-/

namespace Argus

open AutonomyMode AutonomyState

/-- The signatures that cost a rung: safe mode, a degraded provider, a failed validation. -/
def AutonomyCall.DemotionSignature : AutonomyCall → Prop
  | .onCycle signals =>
      signals.safeModeActive = true ∨ signals.providerReady = false ∨
        signals.failedValidation = true
  | .onValidationFailed => True
  | _ => False

def AutonomyCall.isCycle : AutonomyCall → Bool
  | .onCycle _ => true
  | _ => false

/-- A call that does not break a streak: a tick is a clean one, and nothing is a signature. -/
structure AutonomyCall.Extends (c : AutonomyCall) : Prop where
  clean : ∀ signals, c = .onCycle signals → signals.clean = true
  calm : ¬ c.DemotionSignature

/-- Calls with their writes, oldest first. -/
abbrev AutonomyCalls := List (AutonomyCall × Bool)

/-- The ticks among the calls. -/
def AutonomyCalls.cycles (calls : AutonomyCalls) : Nat := calls.countP fun c => c.1.isCycle

/-- A streak no call of which breaks it. -/
def AutonomyCalls.Unbroken (calls : AutonomyCalls) : Prop := ∀ c ∈ calls, c.1.Extends

theorem AutonomyCalls.cycles_concat (calls : AutonomyCalls) (c : AutonomyCall × Bool) :
    AutonomyCalls.cycles (calls ++ [c]) = calls.cycles + if c.1.isCycle then 1 else 0 := by
  simp [AutonomyCalls.cycles, List.countP_append, List.countP_cons]

theorem AutonomyCalls.Unbroken.concat {calls : AutonomyCalls} {c : AutonomyCall × Bool}
    (h : calls.Unbroken) (hc : c.1.Extends) : AutonomyCalls.Unbroken (calls ++ [c]) := by
  intro c' hc'
  rcases List.mem_append.mp hc' with hold | hnew
  · exact h c' hold
  · rw [List.mem_singleton.mp hnew]
    exact hc

/-- Validated work among the calls. -/
def AutonomyCalls.Validated (calls : AutonomyCalls) : Prop :=
  ∃ count wrote, 0 < count ∧ (AutonomyCall.recordValidatedExecutions count, wrote) ∈ calls

/-! ### One call -/

namespace AutonomyState

variable {config : AutonomyConfig} {state : AutonomyState} {c : AutonomyCall}

theorem extends_of_clean {signals : CycleSignals} (h : signals.clean = true) :
    (AutonomyCall.onCycle signals).Extends := by
  constructor
  · intro signals' heq
    cases heq
    exact h
  · simp only [CycleSignals.clean, Bool.and_eq_true, Bool.not_eq_true'] at h
    obtain ⟨⟨⟨⟨hprovider, -⟩, hsafe⟩, -⟩, hvalid⟩ := h
    intro hsignature
    rcases hsignature with hactive | hdegraded | hfailed
    · exact absurd (hactive.symm.trans hsafe) (by decide)
    · exact absurd (hprovider.symm.trans hdegraded) (by decide)
    · exact absurd (hfailed.symm.trans hvalid) (by decide)

theorem extends_of_not_cycle (h : c.isCycle = false) (hcalm : ¬ c.DemotionSignature) :
    c.Extends := by
  refine ⟨?_, hcalm⟩
  intro signals heq
  rw [heq] at h
  exact Bool.noConfusion h

/-- A change of rung restarts both counters. -/
theorem step_changed (hsound : state.Sound) (h : (state.step config c).earned ≠ state.earned) :
    (state.step config c).validatedActionsSinceRung = 0 ∧
      (state.step config c).rungCleanCycles = 0 := by
  cases c with
  | onCycle signals =>
      have hrun : CycleRun config signals state _ := onCycle_inv
      simp only [step] at h ⊢
      generalize (state.onCycle config signals).state = state' at hrun h ⊢
      cases hrun with
      | safeMode _ _ => exact ⟨rfl, rfl⟩
      | degraded _ _ _ => exact ⟨rfl, rfl⟩
      | unclean _ _ => exact absurd rfl h
      | unmapped _ _ => exact absurd rfl h
      | mapped _ _ => exact absurd rfl h
      | shadowed _ _ => exact absurd rfl h
      | entered _ hphase =>
          rw [hsound.entered hphase]
          exact ⟨rfl, rfl⟩
      | counted _ _ => exact absurd rfl h
      | promoted _ _ _ _ => exact ⟨rfl, rfl⟩
  | onValidationFailed =>
      simp only [step] at h ⊢
      by_cases hrung : 0 < state.earned.rank
      · rw [onValidationFailed_of_pos hrung]
        exact ⟨rfl, rfl⟩
      · rw [onValidationFailed_of_floor (Nat.eq_zero_of_not_pos hrung)] at h
        exact absurd rfl h
  | recordValidatedExecutions count =>
      simp only [step, recordValidatedExecutions_state] at h
      exact absurd rfl h
  | reserve risk scope now => exact absurd rfl h
  | refund risk scope now => exact absurd rfl h

/-- Validated work of a rung is older work of the rung, or the call's own. -/
theorem step_validated (h : 1 ≤ (state.step config c).validatedActionsSinceRung) :
    1 ≤ state.validatedActionsSinceRung ∨
      ∃ count, 0 < count ∧ c = .recordValidatedExecutions count := by
  cases c with
  | onCycle signals =>
      have hrun : CycleRun config signals state _ := onCycle_inv
      simp only [step] at h
      generalize (state.onCycle config signals).state = state' at hrun h
      cases hrun with
      | safeMode _ _ => exact absurd h (Nat.not_succ_le_zero 0)
      | degraded _ _ _ => exact absurd h (Nat.not_succ_le_zero 0)
      | unclean _ _ => exact .inl h
      | unmapped _ _ => exact .inl h
      | mapped _ _ => exact .inl h
      | shadowed _ _ => exact .inl h
      | entered _ _ =>
          unfold transition at h
          split_ifs at h
          · exact .inl h
          · exact absurd h (Nat.not_succ_le_zero 0)
      | counted _ _ => exact .inl h
      | promoted _ _ _ _ => exact absurd h (Nat.not_succ_le_zero 0)
  | onValidationFailed =>
      simp only [step] at h
      by_cases hrung : 0 < state.earned.rank
      · rw [onValidationFailed_of_pos hrung] at h
        exact absurd h (Nat.not_succ_le_zero 0)
      · rw [onValidationFailed_of_floor (Nat.eq_zero_of_not_pos hrung)] at h
        exact .inl h
  | recordValidatedExecutions count =>
      simp only [step, recordValidatedExecutions_state] at h
      by_cases hcount : count = 0
      · rw [if_pos hcount] at h
        exact .inl h
      · exact .inr ⟨count, Nat.pos_of_ne_zero hcount, rfl⟩
  | reserve risk scope now => exact .inl h
  | refund risk scope now => exact .inl h

/-- Above the floor, a call that keeps the rung extends the streak and counts for one cycle
at most, or restarts the counter. -/
theorem step_streak (hpos : 0 < state.earned.rank)
    (h : (state.step config c).earned = state.earned) :
    c.Extends ∧
        (state.step config c).rungCleanCycles ≤
          state.rungCleanCycles + (if c.isCycle then 1 else 0) ∨
      (state.step config c).rungCleanCycles = 0 := by
  cases c with
  | onCycle signals =>
      have hrun : CycleRun config signals state _ := onCycle_inv
      simp only [step, AutonomyCall.isCycle, if_true]
      generalize (state.onCycle config signals).state = state' at hrun ⊢
      cases hrun with
      | safeMode _ _ => exact .inr rfl
      | degraded _ _ _ => exact .inr rfl
      | unclean _ _ => exact .inr rfl
      | unmapped hclean _ => exact .inl ⟨extends_of_clean hclean, Nat.le_succ _⟩
      | mapped hclean _ => exact .inl ⟨extends_of_clean hclean, Nat.le_succ _⟩
      | shadowed hclean _ => exact .inl ⟨extends_of_clean hclean, Nat.le_succ _⟩
      | entered _ _ =>
          unfold transition
          split_ifs <;> exact .inr rfl
      | counted hclean _ => exact .inl ⟨extends_of_clean hclean, saturatingAdd_le _ _⟩
      | promoted _ _ _ _ => exact .inr rfl
  | onValidationFailed =>
      -- above the floor a failed validation moves the rung
      simp only [step, onValidationFailed_of_pos hpos] at h
      have hlt := demoteRung_rank_lt hpos
      rw [h] at hlt
      exact absurd hlt (Nat.lt_irrefl _)
  | recordValidatedExecutions count =>
      refine .inl ⟨extends_of_not_cycle rfl id, ?_⟩
      simp only [step, recordValidatedExecutions_state]
      exact Nat.le_add_right _ _
  | reserve risk scope now => exact .inl ⟨extends_of_not_cycle rfl id, Nat.le_add_right _ _⟩
  | refund risk scope now => exact .inl ⟨extends_of_not_cycle rfl id, Nat.le_add_right _ _⟩

/-- A tick that climbs to a rung above L2 is a clean one that found the gate of the rung
open. -/
theorem promoted_inv {signals : CycleSignals} {state' : AutonomyState}
    (hsound : state.Sound) (hrun : CycleRun config signals state state')
    (hrung : l2Recommend.rank < state'.earned.rank)
    (hclimb : state.earned.rank < state'.earned.rank) :
    signals.clean = true ∧ state.earned.nextRung = some state'.earned ∧
      gateOpen config signals state (saturatingAdd state.rungCleanCycles 1) state'.earned =
        true := by
  cases hrun with
  | safeMode _ _ => exact absurd hclimb (Nat.not_lt_zero _)
  | degraded _ _ hpos => exact absurd hclimb (Nat.lt_asymm (demoteRung_rank_lt hpos))
  | unclean _ _ => exact absurd hclimb (Nat.lt_irrefl _)
  | unmapped _ _ => exact absurd hclimb (Nat.lt_irrefl _)
  | mapped _ _ => exact absurd hclimb (Nat.lt_irrefl _)
  | shadowed _ _ => exact absurd hclimb (Nat.lt_irrefl _)
  | entered _ hphase =>
      rw [hsound.entered hphase] at hrung
      exact absurd hrung (Nat.lt_irrefl _)
  | counted _ _ => exact absurd hclimb (Nat.lt_irrefl _)
  | promoted hclean _ hnext hgate => exact ⟨hclean, hnext, hgate⟩

end AutonomyState

/-! ### A history of calls -/

namespace AutonomyManager

variable {start : AutonomyManager} {calls before since : AutonomyCalls}
variable {c : AutonomyCall × Bool}

@[simp] theorem after_append (more : AutonomyCalls) :
    start.after (calls ++ more) = (start.after calls).after more := List.foldl_append

@[simp] theorem after_cons : start.after (c :: calls) = (start.call c.2 c.1).after calls := rfl

@[simp] theorem after_nil : start.after [] = start := rfl

@[simp] theorem after_config : (start.after calls).config = start.config := by
  induction calls generalizing start with
  | nil => rfl
  | cons c calls ih => rw [after_cons, ih, call_config]

/-- The last change of rung in a history: `c` made it, and `since` kept the rung. -/
structure SinceRung (start : AutonomyManager) (calls before : AutonomyCalls)
    (c : AutonomyCall × Bool) (since : AutonomyCalls) : Prop where
  split : calls = before ++ c :: since
  changed :
    (start.after (before ++ [c])).state.earned ≠ (start.after before).state.earned
  kept : ∀ calls', calls' <+: since →
    (start.after (before ++ c :: calls')).state.earned = (start.after calls).state.earned

/-- What the counters of a machine above the floor say of its history. -/
structure Evidence (start : AutonomyManager) (calls before : AutonomyCalls)
    (c : AutonomyCall × Bool) (since : AutonomyCalls) : Prop
    extends SinceRung start calls before c since where
  validated : 1 ≤ (start.after calls).state.validatedActionsSinceRung → since.Validated
  streak : ∃ idle streak : AutonomyCalls, since = idle ++ streak ∧ streak.Unbroken ∧
    (start.after calls).state.rungCleanCycles ≤ streak.cycles

/-- The calls up to and including a change of rung. -/
theorem Evidence.of_changed (hsound : (start.after calls).state.Sound)
    (h : (start.after (calls ++ [c])).state.earned ≠ (start.after calls).state.earned) :
    Evidence start (calls ++ [c]) calls c [] := by
  have hstep : (start.after (calls ++ [c])).state =
      (start.after calls).state.step (start.after calls).config c.1 := by
    rw [after_append, after_cons, after_nil, call_state]
  have hrestart := step_changed hsound (by rw [← hstep]; exact h)
  rw [← hstep] at hrestart
  refine ⟨⟨rfl, h, ?_⟩, ?_, ⟨[], [], rfl, ?_, ?_⟩⟩
  · intro calls' hcalls
    rw [List.prefix_nil.mp hcalls]
  · intro hvalidated
    rw [hrestart.1] at hvalidated
    exact absurd hvalidated (Nat.not_succ_le_zero 0)
  · intro c' hc'
    exact absurd hc' List.not_mem_nil
  · exact Nat.le_of_eq hrestart.2

/-- A call that keeps the rung adds to the calls since its change. -/
theorem Evidence.of_kept {d : AutonomyCall × Bool} (hev : Evidence start calls before c since)
    (hpos : 0 < (start.after calls).state.earned.rank)
    (h : (start.after (calls ++ [d])).state.earned = (start.after calls).state.earned) :
    Evidence start (calls ++ [d]) before c (since ++ [d]) := by
  have hstep : (start.after (calls ++ [d])).state =
      (start.after calls).state.step (start.after calls).config d.1 := by
    rw [after_append, after_cons, after_nil, call_state]
  have hsplit : calls ++ [d] = before ++ c :: (since ++ [d]) := by rw [hev.split]; simp
  refine ⟨⟨hsplit, hev.changed, ?_⟩, ?_, ?_⟩
  · intro calls' hcalls
    rw [h]
    rcases List.prefix_concat_iff.mp hcalls with hall | hcalls
    · rw [hall, ← List.cons_append, ← List.append_assoc, ← hev.split, h]
    · exact hev.kept calls' hcalls
  · intro hvalidated
    rw [hstep] at hvalidated
    rcases step_validated hvalidated with holder | ⟨count, hcount, hd⟩
    · obtain ⟨count, wrote, hcount, hmem⟩ := hev.validated holder
      exact ⟨count, wrote, hcount, List.mem_append_left _ hmem⟩
    · refine ⟨count, d.2, hcount, List.mem_append_right _ ?_⟩
      rw [← hd]
      exact List.mem_singleton_self d
  · rw [hstep]
    rw [hstep] at h
    rcases step_streak hpos h with ⟨hextends, hle⟩ | hrestart
    · obtain ⟨idle, streak, hsince, hunbroken, hcycles⟩ := hev.streak
      refine ⟨idle, streak ++ [d], by rw [hsince, List.append_assoc],
        hunbroken.concat hextends, ?_⟩
      rw [AutonomyCalls.cycles_concat]
      omega
    · refine ⟨since ++ [d], [], (List.append_nil _).symm, ?_, Nat.le_of_eq hrestart⟩
      intro c' hc'
      exact absurd hc' List.not_mem_nil

/-- Above the floor, every history has its evidence. -/
theorem evidence_of_pos (hsound : start.state.Sound) (hfloor : start.state.earned = l0Observe)
    (hpos : 0 < (start.after calls).state.earned.rank) :
    ∃ before c since, Evidence start calls before c since := by
  induction calls using List.reverseRecOn with
  | nil =>
      rw [after_nil, hfloor] at hpos
      exact absurd hpos (Nat.lt_irrefl 0)
  | append_singleton calls d ih =>
      by_cases hsame :
          (start.after (calls ++ [d])).state.earned = (start.after calls).state.earned
      · have hprior : 0 < (start.after calls).state.earned.rank := by rwa [hsame] at hpos
        obtain ⟨before, c, since, hev⟩ := ih hprior
        exact ⟨before, c, since ++ [d], hev.of_kept hprior hsame⟩
      · exact ⟨calls, d, [], .of_changed (after_sound hsound calls) hsame⟩

/-- Time alone promotes nothing. A tick of a machine that started fresh climbs to L3 or L4
only if, since the last change of rung, work was validated and an unbroken streak of clean
cycles ends at this tick, as long as the rung's gate asks, and only up to the ceiling the
tick supplies. -/
theorem promotion_earned (environmentId : EnvironmentId) (config : AutonomyConfig)
    (stored : Option AutonomyState) (calls : AutonomyCalls) (signals : CycleSignals)
    (wrote : Bool) (rung : AutonomyMode) (hrung : rung = l3Assisted ∨ rung = l4Autonomous)
    (hbelow : ((fresh environmentId config stored).after calls).state.earned.rank < rung.rank)
    (hreached :
      (((fresh environmentId config stored).after calls).onCycle signals wrote).state.earned =
        rung) :
    ∃ before c since, SinceRung (fresh environmentId config stored) calls before c since ∧
      since.Validated ∧
      (∃ idle streak : AutonomyCalls, since = idle ++ streak ∧
        AutonomyCalls.Unbroken (streak ++ [(.onCycle signals, wrote)]) ∧
        config.rungCleanCycles ≤ AutonomyCalls.cycles (streak ++ [(.onCycle signals, wrote)])) ∧
      rung.rank ≤ signals.ceiling.rank := by
  have hfresh : (fresh environmentId config stored).state.Sound := Sound.fresh environmentId
  have hconfig : ((fresh environmentId config stored).after calls).config = config := after_config
  have hsound := after_sound hfresh calls
  have habove : l2Recommend.rank < rung.rank := by
    rcases hrung with h | h <;> rw [h] <;> decide
  unfold onCycle at hreached
  rw [commit_state, hconfig] at hreached
  subst hreached
  obtain ⟨hclean, hnext, hgate⟩ := promoted_inv hsound onCycle_inv habove hbelow
  simp only [gateOpen, habove, decide_true, Bool.not_true, Bool.or_false, Bool.and_eq_true,
    decide_eq_true_eq] at hgate
  obtain ⟨⟨hcycles, hvalidated⟩, hceiling⟩ := hgate
  -- only L0 and L1 have L2 above them, so the machine was above the floor before the tick
  have hpos : 0 < ((fresh environmentId config stored).after calls).state.earned.rank := by
    by_contra hzero
    rw [rank_eq_zero.mp (Nat.eq_zero_of_not_pos hzero)] at hnext
    rw [← Option.some.inj hnext] at habove
    exact Nat.lt_irrefl _ habove
  obtain ⟨before, c, since, hev⟩ := evidence_of_pos hfresh rfl hpos
  obtain ⟨idle, streak, hsince, hunbroken, hstreak⟩ := hev.streak
  refine ⟨before, c, since, hev.toSinceRung, hev.validated hvalidated,
    ⟨idle, streak, hsince, hunbroken.concat (extends_of_clean hclean), ?_⟩, hceiling⟩
  have hone := saturatingAdd_le
    ((fresh environmentId config stored).after calls).state.rungCleanCycles 1
  rw [AutonomyCalls.cycles_concat]
  show config.rungCleanCycles ≤ streak.cycles + 1
  omega

/-- Mapping, one shadow cycle to L2, one validated execution, and a clean cycle to L3. -/
theorem promotion_earned_at_l3 :
    let config := AutonomyConfig.deserialize ⟨some 1, some 1, none⟩
    let tick := CycleSignals.healthy l4Autonomous
    let calls : AutonomyCalls :=
      [(.onCycle tick, true), (.onCycle tick, true), (.recordValidatedExecutions 1, true)]
    ∃ before c since, SinceRung (fresh 0 config none) calls before c since ∧
      since.Validated ∧
      (∃ idle streak : AutonomyCalls, since = idle ++ streak ∧
        AutonomyCalls.Unbroken (streak ++ [(.onCycle tick, true)]) ∧
        config.rungCleanCycles ≤ AutonomyCalls.cycles (streak ++ [(.onCycle tick, true)])) ∧
      l3Assisted.rank ≤ tick.ceiling.rank :=
  promotion_earned 0 (.deserialize ⟨some 1, some 1, none⟩) none
    [(.onCycle (CycleSignals.healthy l4Autonomous), true),
      (.onCycle (CycleSignals.healthy l4Autonomous), true),
      (.recordValidatedExecutions 1, true)]
    (CycleSignals.healthy l4Autonomous) true l3Assisted (.inl rfl) (by decide) (by decide)

end AutonomyManager
end Argus
