import Argus.Domain.Authorization

/-!
# The resource autopilot's governor

The governor answers "may the autopilot adjust this resource, now?". It denies by
default: an unclassified subject is never adjusted, protected and critical ones never
are, and a permitted adjustment is bounded by a budget per rolling window and a
cooldown per subject. It keeps one history, of the adjustments it granted, oldest
first; asking it is what adds to that history, not performing the adjustment.
-/

namespace Argus

/-- How critical a resource is, from the operator's view. -/
inductive Criticality
  | «protected»
  | critical
  | standard
  | bestEffort
  deriving DecidableEq

/-- The classification's name as the source prints it. -/
def Criticality.debug : Criticality → String
  | .«protected» => "Protected"
  | critical => "Critical"
  | standard => "Standard"
  | bestEffort => "BestEffort"

/-- The adjustment the autopilot proposes to apply to a subject. -/
structure ResourceAdjustment where
  subject : String
  capability : String
  reason : String
  deriving DecidableEq

/-- Why the governor refused an adjustment. -/
inductive Refusal
  | unclassified
  | «protected»
  | budgetExhausted
  | cooldown
  deriving DecidableEq

/-- The refusal's wire name. -/
def Refusal.wire : Refusal → String
  | unclassified => "unclassified"
  | .«protected» => "protected"
  | budgetExhausted => "budget_exhausted"
  | cooldown => "cooldown"

/-- The governor's decision for one adjustment. -/
inductive GovernanceDecision
  | allowed (reason : String)
  | refused (why : Refusal)
  deriving DecidableEq

def GovernanceDecision.isAllowed : GovernanceDecision → Bool
  | allowed _ => true
  | refused _ => false

/-- The governance bounds an operator configures. -/
structure AutopilotLimits where
  budgetPerWindow : Nat
  window : Duration
  cooldownPerSubject : Duration

/-- The resource families the autopilot governs. -/
def governedPrefixes : List String := ["host.cgroup."]

/-- The governor: classifications, limits, and the adjustments granted, oldest first. -/
structure AutopilotGovernor where
  criticality : String → Option Criticality
  limits : AutopilotLimits
  granted : List (DateTime × String)

namespace AutopilotGovernor

/-- Whether some granted adjustment of `subject` is younger than the cooldown. -/
def inCooldown (g : AutopilotGovernor) (subject : String) (now : DateTime) : Bool :=
  g.granted.any fun entry =>
    entry.2 == subject && decide (now.since entry.1 < g.limits.cooldownPerSubject)

/-- The history once the entries at its front that left the window are dropped. -/
def pruned (g : AutopilotGovernor) (now : DateTime) : List (DateTime × String) :=
  g.granted.dropWhile fun entry => decide (g.limits.window ≤ now.since entry.1)

/-- The decision for `adjustment` at `now`. It records nothing, but a decision that
gets as far as the budget leaves the pruned history behind. -/
def decide (g : AutopilotGovernor) (adjustment : ResourceAdjustment) (now : DateTime) :
    GovernanceDecision × AutopilotGovernor :=
  match g.criticality adjustment.subject with
  | none => (.refused .unclassified, g)
  | some .«protected» => (.refused .«protected», g)
  | some .critical => (.refused .«protected», g)
  | some tier =>
      if g.inCooldown adjustment.subject now then (.refused .cooldown, g)
      else
        let g := { g with granted := g.pruned now }
        if g.limits.budgetPerWindow ≤ g.granted.length then (.refused .budgetExhausted, g)
        else (.allowed ("subject '" ++ adjustment.subject ++ "' is " ++ tier.debug ++
          " and within budget and cooldown"), g)

/-- Record an allowed decision, so budget and cooldown bind it. -/
def record (g : AutopilotGovernor) (adjustment : ResourceAdjustment) (now : DateTime) :
    AutopilotGovernor :=
  { g with granted := g.granted ++ [(now, adjustment.subject)] }

/-- One evaluation: decide at the first clock reading, record at the second. -/
def evaluate (g : AutopilotGovernor) (adjustment : ResourceAdjustment)
    (decidedAt recordedAt : DateTime) : GovernanceDecision × AutopilotGovernor :=
  let (decision, g) := g.decide adjustment decidedAt
  if decision.isAllowed then (decision, g.record adjustment recordedAt) else (decision, g)

/-! ### What an evaluation depends on -/

variable {g g' : AutopilotGovernor} {adjustment : ResourceAdjustment}
variable {decidedAt recordedAt : DateTime}

/-- Whether the subject is classified, and as one the autopilot may adjust. -/
def adjustable (g : AutopilotGovernor) (subject : String) : Bool :=
  match g.criticality subject with
  | some .standard | some .bestEffort => true
  | _ => false

/-- Whether the history leaves room for an adjustment of `subject` at `now`. -/
def hasRoom (g : AutopilotGovernor) (subject : String) (now : DateTime) : Bool :=
  !g.inCooldown subject now && Nat.blt (g.pruned now).length g.limits.budgetPerWindow

/-- The governor with its classifications and limits, and without the entries `own`. -/
def forget (g : AutopilotGovernor) (own : List (DateTime × String)) : AutopilotGovernor :=
  { g with granted := g.granted.diff own }

@[simp] theorem adjustable_forget {own : List (DateTime × String)} {subject : String} :
    (g.forget own).adjustable subject = g.adjustable subject := rfl

/-- The classifications and the limits of two governors are the same. -/
def SameRules (g g' : AutopilotGovernor) : Prop :=
  g'.criticality = g.criticality ∧ g'.limits = g.limits

theorem SameRules.trans {g'' : AutopilotGovernor} (h : SameRules g g') (h' : SameRules g' g'') :
    SameRules g g'' := ⟨h'.1.trans h.1, h'.2.trans h.2⟩

theorem SameRules.adjustable_eq (h : SameRules g g') (subject : String) :
    g'.adjustable subject = g.adjustable subject := by
  simp only [adjustable, h.1]

/-- The decision allows an adjustment exactly when its subject may be adjusted and the
history leaves room, and leaves classifications and limits as they are. -/
theorem decide_inv (g : AutopilotGovernor) (adjustment : ResourceAdjustment)
    (decidedAt : DateTime) :
    ((g.decide adjustment decidedAt).1.isAllowed = true ↔
      g.adjustable adjustment.subject = true ∧ g.hasRoom adjustment.subject decidedAt = true) ∧
        SameRules g (g.decide adjustment decidedAt).2 := by
  unfold decide adjustable hasRoom
  split
  case h_4 tier hprotected hcritical htier =>
    -- a tier that may be adjusted: the cooldown is looked at before the budget
    rw [htier]
    by_cases hcooldown : g.inCooldown adjustment.subject decidedAt = true
    · simp [hcooldown, GovernanceDecision.isAllowed, SameRules]
    · by_cases hbudget : g.limits.budgetPerWindow ≤ (g.pruned decidedAt).length
      · simp [hcooldown, hbudget, GovernanceDecision.isAllowed, SameRules]
      · have hroom := Nat.not_le.mp hbudget
        cases tier with
        | «protected» => exact absurd rfl hprotected
        | critical => exact absurd rfl hcritical
        | standard => simp [hcooldown, hbudget, hroom, GovernanceDecision.isAllowed, SameRules]
        | bestEffort => simp [hcooldown, hbudget, hroom, GovernanceDecision.isAllowed, SameRules]
  all_goals simp_all [GovernanceDecision.isAllowed, SameRules]

/-- The governor allows an adjustment exactly when its subject may be adjusted and its
history leaves room. -/
theorem evaluate_allowed_iff :
    (g.evaluate adjustment decidedAt recordedAt).1.isAllowed = true ↔
      g.adjustable adjustment.subject = true ∧ g.hasRoom adjustment.subject decidedAt = true := by
  have heq : (g.evaluate adjustment decidedAt recordedAt).1 =
      (g.decide adjustment decidedAt).1 := by
    unfold evaluate
    dsimp only
    split_ifs <;> rfl
  rw [heq, (decide_inv g adjustment decidedAt).1]

/-- An evaluation touches the history only. -/
theorem evaluate_sameRules : SameRules g (g.evaluate adjustment decidedAt recordedAt).2 := by
  obtain ⟨hcriticality, hlimits⟩ := (decide_inv g adjustment decidedAt).2
  unfold evaluate
  dsimp only
  split_ifs <;> exact ⟨hcriticality, hlimits⟩

end AutopilotGovernor
end Argus
