import Argus.Domain.Plan
import Argus.Policy.Budget

/-!
# Assimilation and graduated autonomy

The state the daemon keeps for its environment: the assimilation phase, the earned rung
of the ladder L0, L2, L3, L4, the counters behind its gates and the budget windows. The
managed level is the operator's ceiling; every consumer reads the lower of the two.
-/

namespace Argus

/-- `saturating_add` on 32-bit counters. -/
def saturatingAdd (a b : Nat) : Nat := min (a + b) (2 ^ 32 - 1)

theorem saturatingAdd_le (a b : Nat) : saturatingAdd a b ≤ a + b := Nat.min_le_left _ _

/-! ### Levels and rungs -/

namespace AutonomyMode

/-- The trust rank of a level. -/
def rank : AutonomyMode → Nat
  | l0Observe => 0
  | l1Explain => 1
  | l2Recommend => 2
  | l3Assisted => 3
  | l4Autonomous => 4
  | l5Adaptive => 5

/-- The three-mode names of earlier configurations. -/
def fromLegacyName : String → Option AutonomyMode
  | "observe_only" => some l0Observe
  | "propose" => some l2Recommend
  | "assisted" => some l3Assisted
  | _ => none

/-- The level of a name, canonical or legacy. -/
def deserialize (name : String) : Option AutonomyMode :=
  match fromLegacyName name with
  | some mode => some mode
  | none =>
      match name with
      | "l0_observe" => some l0Observe
      | "l1_explain" => some l1Explain
      | "l2_recommend" => some l2Recommend
      | "l3_assisted" => some l3Assisted
      | "l4_autonomous" => some l4Autonomous
      | "l5_adaptive" => some l5Adaptive
      | _ => none

/-- The lower of two levels. -/
def lowerOf (a b : AutonomyMode) : AutonomyMode := if a.rank ≤ b.rank then a else b

/-- The next rung up the ladder. L1 is no rung, and L5 is never earned. -/
def nextRung : AutonomyMode → Option AutonomyMode
  | l0Observe | l1Explain => some l2Recommend
  | l2Recommend => some l3Assisted
  | l3Assisted => some l4Autonomous
  | l4Autonomous | l5Adaptive => none

/-- One rung down the ladder; the floor stays the floor. -/
def demoteRung : AutonomyMode → AutonomyMode
  | l3Assisted => l2Recommend
  | l4Autonomous | l5Adaptive => l3Assisted
  | _ => l0Observe

/-- The levels that are rungs of the ladder. -/
def IsRung (level : AutonomyMode) : Prop := level ≠ l1Explain ∧ level ≠ l5Adaptive

instance (level : AutonomyMode) : Decidable level.IsRung := inferInstanceAs (Decidable (_ ∧ _))

theorem lowerOf_rank (a b : AutonomyMode) : (a.lowerOf b).rank = min a.rank b.rank := by
  unfold lowerOf
  by_cases h : a.rank ≤ b.rank
  · rw [if_pos h, Nat.min_eq_left h]
  · rw [if_neg h, Nat.min_eq_right (Nat.le_of_not_le h)]

@[simp] theorem rank_l0Observe : l0Observe.rank = 0 := rfl

theorem rank_eq_zero {level : AutonomyMode} : level.rank = 0 ↔ level = l0Observe := by
  cases level <;> decide

theorem isRung_iff_mem {level : AutonomyMode} :
    level.IsRung ↔ level ∈ [l0Observe, l2Recommend, l3Assisted, l4Autonomous] := by
  cases level <;> decide

theorem isRung_l0Observe : l0Observe.IsRung := by decide

theorem isRung_l2Recommend : l2Recommend.IsRung := by decide

theorem isRung_demoteRung (level : AutonomyMode) : level.demoteRung.IsRung := by
  cases level <;> decide

theorem isRung_nextRung {level next : AutonomyMode} (h : level.nextRung = some next) :
    next.IsRung ∧ level.rank < next.rank := by
  cases level <;> cases h <;> decide

theorem demoteRung_rank_lt {level : AutonomyMode} (h : 0 < level.rank) :
    level.demoteRung.rank < level.rank := by
  revert h
  cases level <;> decide

end AutonomyMode

/-! ### The persisted state -/

/-- The assimilation phase. -/
inductive AssimilationPhase
  | mapping
  | shadow
  | earned
  deriving DecidableEq, Repr

/-- The order the phases are passed in. -/
def AssimilationPhase.index : AssimilationPhase → Nat
  | mapping => 0
  | shadow => 1
  | earned => 2

/-- The environment a daemon runs in. -/
abbrev EnvironmentId := Uuid

/-- The autonomy state of one environment. -/
structure AutonomyState where
  environmentId : EnvironmentId
  phase : AssimilationPhase
  earned : AutonomyMode
  shadowCleanCycles : Nat
  rungCleanCycles : Nat
  validatedActionsSinceRung : Nat
  budget : BudgetWindows
  deriving DecidableEq

/-- The state of a new, or unreadable, environment. -/
def AutonomyState.fresh (environmentId : EnvironmentId) : AutonomyState where
  environmentId
  phase := .mapping
  earned := .l0Observe
  shadowCleanCycles := 0
  rungCleanCycles := 0
  validatedActionsSinceRung := 0
  budget := .empty

/-- Whether a terminal plan status is a validation failure: the run was undone, or could
not be. -/
def isValidationFailure : PlanStatus → Bool
  | .rolledBack | .needsManual => true
  | _ => false

end Argus
