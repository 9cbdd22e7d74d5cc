import Argus.Lib.Machine
import Argus.Policy.Autopilot
import Mathlib.Data.List.Infix
import Mathlib.Data.List.TakeWhile
import Mathlib.Logic.Function.Basic

/-!
# The governor's limits over runs

An evaluation is two critical sections: the decision, which prunes the history, and the
record of a decision that was allowed. Any number of calls interleave their sections on one
governor. A call that was allowed and has not recorded yet *waits*, and the sections of other
calls do not see it.

The history serves two limits and is pruned by one of them: a decision about any subject
drops what left the window, and with it what the cooldown of a subject still needs. So calls
that run one after another keep the cooldown exactly under the limits of `KeepsCooldown`
(`cooldown_kept_iff`). Under these limits the sections of concurrent calls respect budget and
cooldown as long as each allowed decision leaves the waiting calls their room
(`sections_respect`).
-/

namespace Argus

/-- What the limits promise of the decisions that were allowed, each given by its time and
its subject, in the order they were taken. -/
structure AutopilotLimits.Respects (limits : AutopilotLimits)
    (allowed : List (DateTime × String)) : Prop where
  cooldown : allowed.Pairwise fun x y => x.2 = y.2 → limits.cooldownPerSubject ≤ y.1.since x.1
  budget : ∀ earlier x, earlier ++ [x] <+: allowed →
    ((earlier ++ [x]).filter fun y => decide (x.1.since y.1 < limits.window)).length ≤
      limits.budgetPerWindow

/-- The limits under which pruning by the window loses nothing the cooldown needs. With a
budget of one, the window of the decision that pruned has to pass as well. -/
def AutopilotLimits.KeepsCooldown (limits : AutopilotLimits) : Prop :=
  limits.budgetPerWindow = 0 ∨ limits.cooldownPerSubject ≤ 0 ∨
    limits.cooldownPerSubject ≤ limits.window ∨
    (limits.budgetPerWindow = 1 ∧ limits.cooldownPerSubject ≤ 2 * limits.window)

instance (limits : AutopilotLimits) : Decidable limits.KeepsCooldown :=
  inferInstanceAs (Decidable (_ ∨ _ ∨ _ ∨ _))

namespace AutopilotGovernor

def new (limits : AutopilotLimits) : AutopilotGovernor := ⟨fun _ => none, limits, []⟩

/-- Classifies a subject; the last classification wins. -/
def classify (g : AutopilotGovernor) (subject : String) (tier : Criticality) :
    AutopilotGovernor :=
  { g with criticality := Function.update g.criticality subject (some tier) }

variable {g : AutopilotGovernor} {adjustment : ResourceAdjustment} {now : DateTime}

/-- A decision either leaves the history alone and refuses, or passes the cooldown, prunes,
and allows when the budget has room. -/
theorem decide_cases (g : AutopilotGovernor) (adjustment : ResourceAdjustment) (now : DateTime) :
    ((g.decide adjustment now).1.isAllowed = false ∧ (g.decide adjustment now).2 = g) ∨
      (g.inCooldown adjustment.subject now = false ∧
        (g.decide adjustment now).2 = { g with granted := g.pruned now } ∧
        ((g.decide adjustment now).1.isAllowed = true ↔
          (g.pruned now).length < g.limits.budgetPerWindow)) := by
  unfold decide
  split
  case h_4 =>
    by_cases hcooldown : g.inCooldown adjustment.subject now = true
    · exact .inl (by simp [hcooldown, GovernanceDecision.isAllowed])
    · refine .inr ⟨by simpa using hcooldown, ?_⟩
      rw [if_neg hcooldown]
      by_cases hbudget : g.limits.budgetPerWindow ≤ (g.pruned now).length
      · simp [hbudget, GovernanceDecision.isAllowed]
      · simp [hbudget, GovernanceDecision.isAllowed, Nat.not_le.mp hbudget]
  all_goals exact .inl ⟨rfl, rfl⟩

theorem not_inCooldown_iff {subject : String} : g.inCooldown subject now = false ↔
    ∀ entry ∈ g.granted, entry.2 = subject →
      g.limits.cooldownPerSubject ≤ now.since entry.1 := by
  simp [inCooldown]

end AutopilotGovernor

/-! ### Sections -/

/-- A governor in use: the calls that were allowed and wait to record, and the decisions that
were allowed so far. -/
structure Autopilot where
  governor : AutopilotGovernor
  waiting : List (ResourceAdjustment × DateTime)
  allowed : List (DateTime × String)

inductive GovernorSection
  | classify (subject : String) (tier : Criticality)
  /-- A call decides, at the time it read before. -/
  | decide (adjustment : ResourceAdjustment) (now : DateTime)
  /-- One of the waiting calls records. -/
  | record (call : Nat) (now : DateTime)

namespace Autopilot

def start (limits : AutopilotLimits) : Autopilot := ⟨.new limits, [], []⟩

def step (s : Autopilot) : GovernorSection → Autopilot
  | .classify subject tier => { s with governor := s.governor.classify subject tier }
  | .decide adjustment now =>
      let (decision, governor) := s.governor.decide adjustment now
      if decision.isAllowed then
        { governor
          waiting := s.waiting ++ [(adjustment, now)]
          allowed := s.allowed ++ [(now, adjustment.subject)] }
      else { s with governor }
  | .record call now =>
      match s.waiting[call]? with
      | none => s
      | some (adjustment, _) =>
          { s with
            governor := s.governor.record adjustment now
            waiting := s.waiting.eraseIdx call }

/-- The times of the sections never go back. -/
def InOrder : DateTime → List GovernorSection → Prop
  | _, [] => True
  | t, .classify _ _ :: rest => InOrder t rest
  | t, .decide _ now :: rest => t ≤ now ∧ InOrder now rest
  | t, .record _ now :: rest => t ≤ now ∧ InOrder now rest

/-- The governor as if the waiting calls recorded now. -/
def settled (s : Autopilot) (now : DateTime) : AutopilotGovernor :=
  { s.governor with
    granted := s.governor.granted ++ s.waiting.map fun call => (now, call.1.subject) }

/-- An adjustment that the history has room for has room beside the waiting calls. -/
def Roomy (s : Autopilot) : GovernorSection → Prop
  | .decide adjustment now => s.governor.adjustable adjustment.subject = true →
      s.governor.hasRoom adjustment.subject now = true →
        (s.settled now).hasRoom adjustment.subject now = true
  | _ => True

instance (s : Autopilot) : (e : GovernorSection) → Decidable (s.Roomy e)
  | .decide _ _ => inferInstanceAs (Decidable (_ → _ → _))
  | .classify _ _ | .record _ _ => isTrue trivial

/-! ### What the history keeps -/

/-- An allowed decision with its record. -/
structure Grant where
  decidedAt : DateTime
  recordedAt : DateTime
  subject : String

def Grant.entry (g : Grant) : DateTime × String := (g.recordedAt, g.subject)

def Grant.decision (g : Grant) : DateTime × String := (g.decidedAt, g.subject)

/-- The decision a waiting call got. -/
def decisionOf (call : ResourceAdjustment × DateTime) : DateTime × String :=
  (call.2, call.1.subject)

/-- The allowed decisions at time `t`: those whose entry was pruned, which left the window,
those the history keeps, and those that wait. -/
structure Kept (limits : AutopilotLimits) (t : DateTime) (dropped kept : List Grant)
    (s : Autopilot) : Prop where
  rules : s.governor.limits = limits
  history : kept.map Grant.entry = s.governor.granted
  decisions : s.allowed.Perm
    ((dropped ++ kept).map Grant.decision ++ s.waiting.map decisionOf)
  recorded : ∀ g ∈ dropped ++ kept, g.decidedAt ≤ g.recordedAt ∧ g.recordedAt ≤ t
  waited : ∀ call ∈ s.waiting, call.2 ≤ t
  left : ∀ g ∈ dropped, limits.window ≤ t.since g.recordedAt

/-- With a budget of one there is one entry or one waiting call, and what pruned an entry was
allowed. -/
def OneAtATime (limits : AutopilotLimits) (dropped kept : List Grant) (s : Autopilot) : Prop :=
  limits.budgetPerWindow = 1 → 0 < limits.window →
    kept.length + s.waiting.length ≤ 1 ∧
      ∀ g ∈ dropped, ∃ x ∈ s.allowed, limits.window ≤ x.1.since g.recordedAt

variable {limits : AutopilotLimits} {t now : DateTime} {dropped kept : List Grant}
  {s : Autopilot} {adjustment : ResourceAdjustment}

theorem kept_start (limits : AutopilotLimits) (t : DateTime) :
    Kept limits t [] [] (start limits) where
  rules := rfl
  history := rfl
  decisions := .refl _
  recorded := by simp
  waited := by simp [start]
  left := by simp

theorem oneAtATime_start : OneAtATime limits [] [] (start limits) := by
  simp [OneAtATime, start]

/-- The entries of the window are not pruned. -/
theorem countP_le_length_dropWhile {α : Type*} (p : α → Bool) (l : List α) :
    l.countP p ≤ (l.dropWhile fun x => !p x).length := by
  induction l with
  | nil => simp
  | cons x l ih =>
      by_cases hx : p x = true
      · simpa [hx] using List.countP_le_length
      · simpa [hx] using ih

namespace Kept

/-- Every allowed decision was taken by now. -/
theorem decided_le (h : Kept limits t dropped kept s) {x : DateTime × String}
    (hx : x ∈ s.allowed) : x.1 ≤ t := by
  rcases List.mem_append.mp (h.decisions.subset hx) with hx | hx
  · obtain ⟨g, hg, rfl⟩ := List.mem_map.mp hx
    obtain ⟨hdecided, hrecorded⟩ := h.recorded g hg
    exact hdecided.trans hrecorded
  · obtain ⟨call, hcall, rfl⟩ := List.mem_map.mp hx
    exact h.waited call hcall

/-- The decisions of the window are in the history, or wait. -/
theorem count_le (h : Kept limits t dropped kept s) (hnow : t ≤ now) :
    s.allowed.countP (fun y => decide (now.since y.1 < limits.window)) ≤
      ((s.settled now).pruned now).length := by
  have hdropped : (dropped.map Grant.decision).countP
      (fun y => decide (now.since y.1 < limits.window)) = 0 := by
    refine List.countP_eq_zero.mpr ?_
    intro y hy
    obtain ⟨g, hg, rfl⟩ := List.mem_map.mp hy
    have hold := h.left g hg
    have hdecided := (h.recorded g (List.mem_append_left _ hg)).1
    have hsince := DateTime.since_le_since hdecided hnow
    rw [decide_eq_true_eq]
    exact not_lt.mpr (hold.trans hsince)
  have hkept : (kept.map Grant.decision).countP
      (fun y => decide (now.since y.1 < limits.window)) ≤
        s.governor.granted.countP (fun y => decide (now.since y.1 < limits.window)) := by
    rw [← h.history, List.countP_map, List.countP_map]
    refine List.countP_mono_left ?_
    intro g hg hin
    have hdecided := (h.recorded g (List.mem_append_right _ hg)).1
    have hsince := DateTime.since_le_since hdecided (le_refl now)
    exact decide_eq_true (hsince.trans_lt (of_decide_eq_true hin))
  have hwaiting : (s.waiting.map decisionOf).countP
      (fun y => decide (now.since y.1 < limits.window)) ≤
        (s.waiting.map fun call => (now, call.1.subject)).countP
          (fun y => decide (now.since y.1 < limits.window)) := by
    rw [List.countP_map, List.countP_map]
    refine List.countP_mono_left ?_
    intro call hcall hin
    have hsince := DateTime.since_le_since ((h.waited call hcall).trans hnow)
      (le_refl now)
    exact decide_eq_true (hsince.trans_lt (of_decide_eq_true hin))
  have hpruned := countP_le_length_dropWhile
    (fun y : DateTime × String => decide (now.since y.1 < limits.window)) (s.settled now).granted
  rw [h.decisions.countP_eq, List.countP_append, List.map_append, List.countP_append, hdropped]
  simp only [settled, List.countP_append] at hpruned
  simp only [AutopilotGovernor.pruned, settled, h.rules]
  refine le_trans ?_ (hpruned.trans_eq ?_)
  · omega
  · simp only [← decide_not, not_lt]

/-- A decision with room beside the waiting calls keeps the budget. -/
theorem budget_room (h : Kept limits t dropped kept s) (hnow : t ≤ now) {subject : String}
    (hroom : (s.settled now).hasRoom subject now = true) :
    s.allowed.countP (fun y => decide (now.since y.1 < limits.window)) <
      limits.budgetPerWindow := by
  simp only [AutopilotGovernor.hasRoom, Bool.and_eq_true, Nat.blt_eq] at hroom
  have hbudget : (s.settled now).limits.budgetPerWindow = limits.budgetPerWindow := by
    rw [← h.rules]
    rfl
  rw [hbudget] at hroom
  exact (h.count_le hnow).trans_lt hroom.2

/-- A decision with room beside the waiting calls keeps the cooldown, under limits that keep
it at all. -/
theorem cooldown_room (h : Kept limits t dropped kept s)
    (hsingle : OneAtATime limits dropped kept s) (hlimits : limits.KeepsCooldown) (hnow : t ≤ now)
    {subject : String} (hroom : (s.settled now).hasRoom subject now = true)
    {x : DateTime × String} (hx : x ∈ s.allowed) (hsubject : x.2 = subject) :
    limits.cooldownPerSubject ≤ now.since x.1 := by
  have hbudget := h.budget_room hnow hroom
  have hpast : 0 ≤ now.since x.1 := Int.sub_nonneg_of_le ((h.decided_le hx).trans hnow)
  simp only [AutopilotGovernor.hasRoom, Bool.and_eq_true, Bool.not_eq_true'] at hroom
  have hcool := AutopilotGovernor.not_inCooldown_iff.mp hroom.1
  have hcooldown : (s.settled now).limits.cooldownPerSubject = limits.cooldownPerSubject := by
    rw [← h.rules]
    rfl
  rw [hcooldown] at hcool
  rcases List.mem_append.mp (h.decisions.subset hx) with hx' | hx'
  · rw [List.map_append] at hx'
    rcases List.mem_append.mp hx' with hx' | hx'
    · obtain ⟨g, hg, rfl⟩ := List.mem_map.mp hx'
      have hleft := h.left g hg
      have hdecided := (h.recorded g (List.mem_append_left _ hg)).1
      have hsince := DateTime.since_le_since hdecided hnow
      rcases hlimits with hzero | hnone | hwindow | ⟨hone, htwice⟩
      · exact absurd hbudget (by simp [hzero])
      · exact hnone.trans hpast
      · exact hwindow.trans (hleft.trans hsince)
      · by_cases hpos : 0 < limits.window
        · -- another decision was allowed a window after the entry, and a window before now
          obtain ⟨y, hy, hyg⟩ := (hsingle hone hpos).2 g hg
          have hyout : limits.window ≤ now.since y.1 := by
            rw [hone, Nat.lt_one_iff, List.countP_eq_zero] at hbudget
            exact not_lt.mp fun hin => hbudget y hy (decide_eq_true hin)
          have htwo : limits.window + limits.window ≤ now.since g.recordedAt := by
            have hsum := Int.add_le_add hyout hyg
            simpa [DateTime.since] using hsum
          calc limits.cooldownPerSubject ≤ 2 * limits.window := htwice
            _ = limits.window + limits.window := two_mul _
            _ ≤ now.since g.recordedAt := htwo
            _ ≤ now.since g.decidedAt := DateTime.since_le_since hdecided (le_refl now)
        · have hnone : 2 * limits.window ≤ 0 :=
            Int.mul_nonpos_of_nonneg_of_nonpos (by decide) (not_lt.mp hpos)
          exact htwice.trans (hnone.trans hpast)
    · obtain ⟨g, hg, rfl⟩ := List.mem_map.mp hx'
      have hentry : g.entry ∈ (s.settled now).granted := by
        refine List.mem_append_left _ ?_
        rw [← h.history]
        exact List.mem_map_of_mem hg
      have hdecided := (h.recorded g (List.mem_append_right _ hg)).1
      exact (hcool _ hentry hsubject).trans (DateTime.since_le_since hdecided (le_refl now))
  · obtain ⟨call, hcall, rfl⟩ := List.mem_map.mp hx'
    have hentry : (now, call.1.subject) ∈ (s.settled now).granted :=
      List.mem_append_right _ (List.mem_map_of_mem hcall)
    have hnone : limits.cooldownPerSubject ≤ 0 := by
      simpa [DateTime.since] using hcool _ hentry hsubject
    exact hnone.trans hpast

/-! The sections keep it. -/

theorem later (h : Kept limits t dropped kept s) (hnow : t ≤ now) :
    Kept limits now dropped kept s where
  rules := h.rules
  history := h.history
  decisions := h.decisions
  recorded g hg := ⟨(h.recorded g hg).1, (h.recorded g hg).2.trans hnow⟩
  waited call hcall := (h.waited call hcall).trans hnow
  left g hg := (h.left g hg).trans (DateTime.since_le_since (le_refl _) hnow)

theorem prune (h : Kept limits now dropped kept s) :
    Kept limits now
      (dropped ++ kept.takeWhile fun g => decide (limits.window ≤ now.since g.recordedAt))
      (kept.dropWhile fun g => decide (limits.window ≤ now.since g.recordedAt))
      { s with governor := { s.governor with granted := s.governor.pruned now } } where
  rules := h.rules
  history := by
    simp only [AutopilotGovernor.pruned, ← h.history, h.rules, List.dropWhile_map]
    rfl
  decisions := by
    rw [List.append_assoc, List.takeWhile_append_dropWhile]
    exact h.decisions
  recorded g hg := by
    rw [List.append_assoc, List.takeWhile_append_dropWhile] at hg
    exact h.recorded g hg
  waited := h.waited
  left g hg := by
    rcases List.mem_append.mp hg with hg | hg
    · exact h.left g hg
    · have hout := List.mem_takeWhile_imp hg
      exact of_decide_eq_true hout

theorem allow (h : Kept limits now dropped kept s) (adjustment : ResourceAdjustment) :
    Kept limits now dropped kept
      ⟨s.governor, s.waiting ++ [(adjustment, now)], s.allowed ++ [(now, adjustment.subject)]⟩ where
  rules := h.rules
  history := h.history
  decisions := by
    have hallowed := h.decisions.append_right [(now, adjustment.subject)]
    rw [List.append_assoc] at hallowed
    simpa [decisionOf] using hallowed
  recorded := h.recorded
  waited call hcall := by
    rcases List.mem_append.mp hcall with hcall | hcall
    · exact h.waited call hcall
    · rw [List.mem_singleton.mp hcall]
  left := h.left

theorem record (h : Kept limits t dropped kept s) (hnow : t ≤ now) {i : Nat}
    {call : ResourceAdjustment × DateTime} (hcall : s.waiting[i]? = some call) :
    Kept limits now dropped (kept ++ [⟨call.2, now, call.1.subject⟩])
      { s with governor := s.governor.record call.1 now, waiting := s.waiting.eraseIdx i } where
  rules := h.rules
  history := by
    rw [List.map_append, h.history]
    rfl
  decisions := by
    have hperm : s.waiting.Perm (call :: s.waiting.eraseIdx i) := by
      obtain ⟨hi, rfl⟩ := List.getElem?_eq_some_iff.mp hcall
      exact (List.getElem_cons_eraseIdx_perm hi).symm
    refine h.decisions.trans (((hperm.map decisionOf).append_left _).trans (.of_eq ?_))
    simp [Grant.decision, decisionOf]
  recorded g hg := by
    rw [← List.append_assoc] at hg
    rcases List.mem_append.mp hg with hg | hg
    · exact ⟨(h.recorded g hg).1, (h.recorded g hg).2.trans hnow⟩
    · rw [List.mem_singleton.mp hg]
      exact ⟨(h.waited call (List.mem_of_getElem? hcall)).trans hnow, le_refl now⟩
  waited c hc := (h.waited c (List.mem_of_mem_eraseIdx hc)).trans hnow
  left := (h.later hnow).left

end Kept

theorem step_decide : s.step (.decide adjustment now) =
    if (s.governor.decide adjustment now).1.isAllowed then
      ⟨(s.governor.decide adjustment now).2, s.waiting ++ [(adjustment, now)],
        s.allowed ++ [(now, adjustment.subject)]⟩
    else { s with governor := (s.governor.decide adjustment now).2 } := rfl

/-- What the invariant says of the next section: an allowed decision has room. -/
structure Fits (limits : AutopilotLimits) (s : Autopilot) (now : DateTime) (subject : String) :
    Prop where
  budget : s.allowed.countP (fun y => decide (now.since y.1 < limits.window)) <
    limits.budgetPerWindow
  cooldown : ∀ x ∈ s.allowed, x.2 = subject → limits.cooldownPerSubject ≤ now.since x.1

theorem Kept.fits (h : Kept limits t dropped kept s) (hsingle : OneAtATime limits dropped kept s)
    (hlimits : limits.KeepsCooldown) (hnow : t ≤ now) {subject : String}
    (hroom : (s.settled now).hasRoom subject now = true) : Fits limits s now subject :=
  ⟨h.budget_room hnow hroom, fun _ hx => h.cooldown_room hsingle hlimits hnow hroom hx⟩

/-- With a budget of one, a decision that prunes without being allowed pruned nothing. -/
theorem OneAtATime.prune_refused (hsingle : OneAtATime limits dropped kept s)
    (out : Grant → Bool) (hfull : limits.budgetPerWindow ≤ (kept.dropWhile out).length)
    (g : AutopilotGovernor) :
    OneAtATime limits (dropped ++ kept.takeWhile out) (kept.dropWhile out)
      { s with governor := g } := by
  intro hone hpos
  obtain ⟨hlength, hdropped⟩ := hsingle hone hpos
  have hsplit := congrArg List.length (List.takeWhile_append_dropWhile (p := out) (l := kept))
  rw [List.length_append] at hsplit
  have hnothing : kept.takeWhile out = [] := List.eq_nil_of_length_eq_zero (by omega)
  rw [hnothing, List.append_nil]
  refine ⟨?_, hdropped⟩
  show (kept.dropWhile out).length + s.waiting.length ≤ 1
  omega

/-- With a budget of one, a decision that is allowed beside the waiting calls is alone. -/
theorem OneAtATime.prune_allowed (h : Kept limits now dropped kept s)
    (hsingle : OneAtATime limits dropped kept s)
    (hroom : (s.settled now).hasRoom adjustment.subject now = true) (g : AutopilotGovernor) :
    OneAtATime limits
      (dropped ++ kept.takeWhile fun g => decide (limits.window ≤ now.since g.recordedAt))
      (kept.dropWhile fun g => decide (limits.window ≤ now.since g.recordedAt))
      ⟨g, s.waiting ++ [(adjustment, now)], s.allowed ++ [(now, adjustment.subject)]⟩ := by
  intro hone hpos
  obtain ⟨-, hdropped⟩ := hsingle hone hpos
  have hempty : (s.settled now).pruned now = [] := by
    simp only [AutopilotGovernor.hasRoom, Bool.and_eq_true, Nat.blt_eq] at hroom
    have hbudget : (s.settled now).limits.budgetPerWindow = 1 := by
      rw [← hone, ← h.rules]
      rfl
    rw [hbudget, Nat.lt_one_iff] at hroom
    exact List.eq_nil_of_length_eq_zero hroom.2
  have hout : ∀ entry ∈ (s.settled now).granted, limits.window ≤ now.since entry.1 := by
    intro entry hentry
    have hall := List.dropWhile_eq_nil_iff.mp hempty entry hentry
    rw [← h.rules]
    exact of_decide_eq_true hall
  have hwaiting : s.waiting = [] := by
    refine List.eq_nil_iff_forall_not_mem.mpr ?_
    intro call hcall
    have hnow := hout (now, call.1.subject)
      (List.mem_append_right _ (List.mem_map_of_mem hcall))
    simp only [DateTime.since, sub_self] at hnow
    exact absurd hnow (not_le.mpr hpos)
  have hkept : ∀ g ∈ kept, limits.window ≤ now.since g.recordedAt := by
    intro g hg
    refine hout g.entry (List.mem_append_left _ ?_)
    rw [← h.history]
    exact List.mem_map_of_mem hg
  have hnone : (kept.dropWhile fun g => decide (limits.window ≤ now.since g.recordedAt)) = [] :=
    List.dropWhile_eq_nil_iff.mpr fun g hg => decide_eq_true (hkept g hg)
  refine ⟨by simp [hnone, hwaiting], ?_⟩
  intro g hg
  rcases List.mem_append.mp hg with hg | hg
  · obtain ⟨x, hx, hxg⟩ := hdropped g hg
    exact ⟨x, List.mem_append_left _ hx, hxg⟩
  · have hg := (List.takeWhile_sublist _).subset hg
    exact ⟨(now, adjustment.subject), by simp, hkept g hg⟩

/-- A decision that fits is respected beside the earlier ones. -/
theorem Fits.respects {subject : String} (hfits : Fits limits s now subject)
    (h : limits.Respects s.allowed) : limits.Respects (s.allowed ++ [(now, subject)]) where
  cooldown := by
    refine List.pairwise_append.mpr ⟨h.cooldown, List.pairwise_singleton _ _, ?_⟩
    intro x hx y hy
    rw [List.mem_singleton.mp hy]
    exact hfits.cooldown x hx
  budget earlier x hpre := by
    rcases List.prefix_concat_iff.mp hpre with heq | hpre
    · obtain ⟨rfl, hx⟩ := List.append_inj' heq rfl
      obtain rfl : x = (now, subject) := by simpa using hx
      dsimp only
      rw [List.filter_append, List.length_append, ← List.countP_eq_length_filter]
      have hlast := List.length_filter_le
        (fun y : DateTime × String => decide (now.since y.1 < limits.window)) [(now, subject)]
      have hroom := hfits.budget
      simp only [List.length_singleton] at hlast
      omega
    · exact h.budget earlier x hpre

/-- What holds of a governor in use at time `t`. -/
structure Sound (limits : AutopilotLimits) (t : DateTime) (s : Autopilot) : Prop where
  kept : ∃ dropped kept, Kept limits t dropped kept s ∧ OneAtATime limits dropped kept s
  respects : limits.Respects s.allowed

theorem sound_start (limits : AutopilotLimits) (t : DateTime) : Sound limits t (start limits) where
  kept := ⟨[], [], kept_start limits t, oneAtATime_start⟩
  respects := ⟨List.Pairwise.nil, by simp [start]⟩

theorem Sound.classify (h : Sound limits t s) (subject : String) (tier : Criticality) :
    Sound limits t (s.step (.classify subject tier)) := by
  obtain ⟨dropped, kept, hkept, hsingle⟩ := h.kept
  exact ⟨⟨dropped, kept, ⟨hkept.rules, hkept.history, hkept.decisions, hkept.recorded,
    hkept.waited, hkept.left⟩, hsingle⟩, h.respects⟩

theorem Sound.decide (h : Sound limits t s) (hlimits : limits.KeepsCooldown) (hnow : t ≤ now)
    (hroomy : s.Roomy (.decide adjustment now)) :
    Sound limits now (s.step (.decide adjustment now)) := by
  obtain ⟨dropped, kept, hkept, hsingle⟩ := h.kept
  rw [step_decide]
  obtain ⟨hrefused, hsame⟩ | ⟨-, hpruned, hallowed⟩ :=
    AutopilotGovernor.decide_cases s.governor adjustment now
  · rw [hrefused, hsame]
    exact ⟨⟨dropped, kept, hkept.later hnow, hsingle⟩, h.respects⟩
  · have hprune := (hkept.later hnow).prune
    rw [hpruned]
    split_ifs with hdecision
    · obtain ⟨hadjustable, hhistory⟩ :=
        (AutopilotGovernor.decide_inv s.governor adjustment now).1.mp hdecision
      have hroom := hroomy hadjustable hhistory
      exact ⟨⟨_, _, hprune.allow adjustment,
        OneAtATime.prune_allowed (hkept.later hnow) hsingle hroom _⟩,
        (hkept.fits hsingle hlimits hnow hroom).respects h.respects⟩
    · rw [hallowed, not_lt] at hdecision
      refine ⟨⟨_, _, hprune, hsingle.prune_refused _ ?_ _⟩, h.respects⟩
      rw [← hkept.rules]
      refine hdecision.trans_eq ?_
      have hhistory := congrArg List.length hprune.history
      rw [List.length_map] at hhistory
      rw [hkept.rules]
      exact hhistory.symm

theorem Sound.record (h : Sound limits t s) (hnow : t ≤ now) (call : Nat) :
    Sound limits now (s.step (.record call now)) := by
  obtain ⟨dropped, kept, hkept, hsingle⟩ := h.kept
  simp only [step]
  split
  · exact ⟨⟨dropped, kept, hkept.later hnow, hsingle⟩, h.respects⟩
  · rename_i adjustment decidedAt hcall
    refine ⟨⟨dropped, _, hkept.record hnow hcall, ?_⟩, h.respects⟩
    intro hone hpos
    obtain ⟨hlength, hdropped⟩ := hsingle hone hpos
    obtain ⟨hcall, -⟩ := List.getElem?_eq_some_iff.mp hcall
    refine ⟨?_, hdropped⟩
    simp only [List.length_append, List.length_singleton, List.length_eraseIdx_of_lt hcall]
    omega

theorem Sound.run (h : Sound limits t s) (hlimits : limits.KeepsCooldown)
    {sections : List GovernorSection} (hin : InOrder t sections)
    (hroomy : Machine.Every step Roomy s sections) :
    limits.Respects (Machine.run step s sections).allowed := by
  induction sections generalizing s t with
  | nil => exact h.respects
  | cons e sections ih =>
      cases e with
      | classify subject tier => exact ih (h.classify subject tier) hin hroomy.2
      | decide adjustment now => exact ih (h.decide hlimits hin.1 hroomy.1) hin.2 hroomy.2
      | record call now => exact ih (h.record hin.1 call) hin.2 hroomy.2

/-- **Concurrent calls.** Under limits that keep the cooldown at all, the allowed decisions
respect budget and cooldown in every interleaving of the sections whose times never go back
and in which an adjustment has room beside the calls that wait to record whenever the history
has room for it. -/
theorem sections_respect {sections : List GovernorSection} (hlimits : limits.KeepsCooldown)
    (hin : InOrder t sections) (hroomy : Machine.Every step Roomy (start limits) sections) :
    limits.Respects (Machine.run step (start limits) sections).allowed :=
  (sound_start limits t).run hlimits hin hroomy

/-- Two subjects that may be adjusted. -/
def twoSubjects : List GovernorSection :=
  [.classify "web" .standard, .classify "batch" .standard]

def adjusting (subject : String) : ResourceAdjustment := ⟨subject, "host.cgroup.freeze", "pressure"⟩

/-- Two calls decide before either of them records. -/
def overlappingCalls : List GovernorSection :=
  twoSubjects ++ [.decide (adjusting "web") ⟨0⟩, .decide (adjusting "batch") ⟨1⟩, .record 1 ⟨2⟩,
    .record 0 ⟨3⟩]

/-- On a budget for two. -/
theorem sections_respect_overlapping :
    Autopilot.InOrder ⟨0⟩ overlappingCalls ∧
      AutopilotLimits.Respects ⟨2, minutes 60, minutes 10⟩
        (Machine.run step (start ⟨2, minutes 60, minutes 10⟩) overlappingCalls).allowed := by
  have hin : Autopilot.InOrder ⟨0⟩ overlappingCalls := by
    simp [overlappingCalls, twoSubjects, Autopilot.InOrder, DateTime.le_def]
  exact ⟨hin, sections_respect (by decide) hin (by decide)⟩

/-- On a budget for one: neither call sees the other, and both are allowed. -/
theorem budget_overshot_by_overlap :
    ¬ AutopilotLimits.Respects ⟨1, minutes 60, minutes 10⟩
      (Machine.run step (start ⟨1, minutes 60, minutes 10⟩) overlappingCalls).allowed := by
  intro h
  have hallowed : (Machine.run step (start ⟨1, minutes 60, minutes 10⟩) overlappingCalls).allowed =
      [(⟨0⟩, "web")] ++ [(⟨1⟩, "batch")] := by
    decide
  have hbudget := h.budget [(⟨0⟩, "web")] (⟨1⟩, "batch") (by rw [hallowed])
  exact absurd hbudget (by decide)

/-! ### Calls one after another -/

end Autopilot

/-- A call of a governor that no other call overlaps. -/
inductive GovernorCall
  | classify (subject : String) (tier : Criticality)
  | evaluate (adjustment : ResourceAdjustment) (decidedAt recordedAt : DateTime)

/-- The sections of a call. A refused decision leaves nothing to record. -/
def GovernorCall.sections : GovernorCall → List GovernorSection
  | classify subject tier => [.classify subject tier]
  | evaluate adjustment decidedAt recordedAt =>
      [.decide adjustment decidedAt, .record 0 recordedAt]

/-- A governor with the decisions it allowed. -/
structure Evaluated where
  governor : AutopilotGovernor
  allowed : List (DateTime × String)

namespace Evaluated

open Autopilot (InOrder)

def start (limits : AutopilotLimits) : Evaluated := ⟨.new limits, []⟩

def call (s : Evaluated) : GovernorCall → Evaluated
  | .classify subject tier => { s with governor := s.governor.classify subject tier }
  | .evaluate adjustment decidedAt recordedAt =>
      let (decision, governor) := s.governor.evaluate adjustment decidedAt recordedAt
      ⟨governor, if decision.isAllowed then s.allowed ++ [(decidedAt, adjustment.subject)]
        else s.allowed⟩

/-- The state between two calls, as a state of the sections. -/
def idle (s : Evaluated) : Autopilot := ⟨s.governor, [], s.allowed⟩

variable {limits : AutopilotLimits} {s : Evaluated} {c : GovernorCall} {calls : List GovernorCall}

/-- A call is its sections, one after another. -/
theorem run_sections : Machine.run Autopilot.step s.idle c.sections = (s.call c).idle := by
  cases c with
  | classify subject tier => rfl
  | evaluate adjustment decidedAt recordedAt =>
      simp only [GovernorCall.sections, Machine.run, List.foldl_cons, List.foldl_nil,
        Autopilot.step_decide, call, AutopilotGovernor.evaluate, idle]
      split_ifs <;> rfl

theorem roomy_sections : Machine.Every Autopilot.step Autopilot.Roomy s.idle c.sections := by
  cases c with
  | classify subject tier => exact ⟨trivial, trivial⟩
  | evaluate adjustment decidedAt recordedAt =>
      refine ⟨?_, trivial, trivial⟩
      intro _ hroom
      simpa [Autopilot.settled, idle] using hroom

theorem run_flatMap : Machine.run Autopilot.step s.idle (calls.flatMap GovernorCall.sections) =
      (Machine.run call s calls).idle ∧
    Machine.Every Autopilot.step Autopilot.Roomy s.idle (calls.flatMap GovernorCall.sections) := by
  induction calls generalizing s with
  | nil => exact ⟨rfl, trivial⟩
  | cons c calls ih =>
      rw [List.flatMap_cons, Machine.run_append, Machine.every_append, run_sections]
      exact ⟨ih.1, roomy_sections, ih.2⟩

/-- An allowed call. -/
theorem call_of_room {adjustment : ResourceAdjustment} {now : DateTime}
    (hadjustable : s.governor.adjustable adjustment.subject = true)
    (hcooldown : s.governor.inCooldown adjustment.subject now = false)
    (hbudget : (s.governor.pruned now).length < s.governor.limits.budgetPerWindow) :
    s.call (.evaluate adjustment now now) =
      ⟨{ s.governor with granted := s.governor.pruned now ++ [(now, adjustment.subject)] },
        s.allowed ++ [(now, adjustment.subject)]⟩ := by
  have hroom : s.governor.hasRoom adjustment.subject now = true := by
    simp [AutopilotGovernor.hasRoom, hcooldown, hbudget]
  have hallowed := (AutopilotGovernor.decide_inv s.governor adjustment now).1.mpr
    ⟨hadjustable, hroom⟩
  obtain ⟨hrefused, -⟩ | ⟨-, hpruned, -⟩ :=
    AutopilotGovernor.decide_cases s.governor adjustment now
  · rw [hallowed] at hrefused
    cases hrefused
  · simp [call, AutopilotGovernor.evaluate, hallowed, hpruned, AutopilotGovernor.record]

/-- A governor that may adjust two subjects. -/
def twoClassified (limits : AutopilotLimits) : AutopilotGovernor :=
  ((AutopilotGovernor.new limits).classify "web" .standard).classify "batch" .standard

/-- One subject is adjusted twice, with an adjustment of another in between: the first entry
has left the window by then, and is gone when the subject is adjusted again. -/
theorem adjusted_twice {w later : Int} (hlimits : 0 < limits.budgetPerWindow)
    (hpast : limits.window ≤ w)
    (hroom : 1 < limits.budgetPerWindow ∨ limits.window ≤ later - w) :
    (Machine.run call (start limits)
      [.classify "web" .standard, .classify "batch" .standard,
        .evaluate (Autopilot.adjusting "web") ⟨0⟩ ⟨0⟩,
        .evaluate (Autopilot.adjusting "batch") ⟨w⟩ ⟨w⟩,
        .evaluate (Autopilot.adjusting "web") ⟨later⟩ ⟨later⟩]).allowed =
      [(⟨0⟩, "web"), (⟨w⟩, "batch"), (⟨later⟩, "web")] := by
  have hweb : (Evaluated.mk (twoClassified limits) []).call
      (.evaluate (Autopilot.adjusting "web") ⟨0⟩ ⟨0⟩) =
        ⟨{ twoClassified limits with granted := [(⟨0⟩, "web")] }, [(⟨0⟩, "web")]⟩ :=
    call_of_room rfl rfl hlimits
  have hbatch : (Evaluated.mk { twoClassified limits with granted := [(⟨0⟩, "web")] }
      [(⟨0⟩, "web")]).call (.evaluate (Autopilot.adjusting "batch") ⟨w⟩ ⟨w⟩) =
        ⟨{ twoClassified limits with granted := [(⟨w⟩, "batch")] },
          [(⟨0⟩, "web"), (⟨w⟩, "batch")]⟩ := by
    have hpruned : AutopilotGovernor.pruned
        { twoClassified limits with granted := [(⟨0⟩, "web")] } ⟨w⟩ = [] := by
      have hout : limits.window ≤ DateTime.since ⟨w⟩ ⟨0⟩ := by simpa [DateTime.since] using hpast
      refine List.dropWhile_eq_nil_iff.mpr ?_
      intro entry hentry
      rw [List.mem_singleton.mp hentry]
      exact decide_eq_true hout
    rw [call_of_room rfl rfl (by rw [hpruned]; exact hlimits), hpruned]
    rfl
  have hagain : (Evaluated.mk { twoClassified limits with granted := [(⟨w⟩, "batch")] }
      [(⟨0⟩, "web"), (⟨w⟩, "batch")]).call
        (.evaluate (Autopilot.adjusting "web") ⟨later⟩ ⟨later⟩) =
        ⟨{ twoClassified limits with
            granted := AutopilotGovernor.pruned
              { twoClassified limits with granted := [(⟨w⟩, "batch")] } ⟨later⟩ ++
                [(⟨later⟩, "web")] },
          [(⟨0⟩, "web"), (⟨w⟩, "batch"), (⟨later⟩, "web")]⟩ := by
    refine call_of_room rfl rfl ?_
    rcases hroom with hroom | hroom
    · exact (List.dropWhile_sublist _).length_le.trans_lt hroom
    · have hpruned : AutopilotGovernor.pruned
          { twoClassified limits with granted := [(⟨w⟩, "batch")] } ⟨later⟩ = [] := by
        refine List.dropWhile_eq_nil_iff.mpr ?_
        intro entry hentry
        rw [List.mem_singleton.mp hentry]
        exact decide_eq_true hroom
      rw [hpruned]
      exact hlimits
  have hclassified : ((start limits).call (.classify "web" .standard)).call
      (.classify "batch" .standard) = Evaluated.mk (twoClassified limits) [] := rfl
  rw [Machine.run_cons, Machine.run_cons, Machine.run_cons, Machine.run_cons, Machine.run_singleton,
    hclassified, hweb, hbatch, hagain]

/-- Limits that do not keep the cooldown leave time for a second adjustment: at the end of the
first window, or, if the one in between takes the whole budget, at the end of its window. -/
theorem second_adjustment {budget : Nat} {window cooldown : Int} (hbudget : budget ≠ 0)
    (hpos : 0 < cooldown) (hwindow : window < cooldown)
    (htwice : budget = 1 → 2 * window < cooldown) :
    ∃ w later : Int, 0 ≤ w ∧ window ≤ w ∧ w ≤ later ∧ (1 < budget ∨ window ≤ later - w) ∧
      later < cooldown := by
  by_cases hone : budget = 1
  · have htwice := htwice hone
    exact ⟨max window 0, 2 * max window 0, by omega, by omega, by omega, .inr (by omega),
      by omega⟩
  · exact ⟨max window 0, max window 0, by omega, by omega, by omega, .inl (by omega), by omega⟩

/-- **The cooldown of calls one after another.** Two adjustments of one subject are at least
the cooldown apart in every sequence of calls whose times never go back exactly under the
limits of `KeepsCooldown`: no adjustment is allowed at all, there is no cooldown, the cooldown
fits in the window, or the budget is one and the cooldown fits in two windows. -/
theorem cooldown_kept_iff (limits : AutopilotLimits) :
    (∀ t calls, InOrder t (calls.flatMap GovernorCall.sections) →
      (Machine.run call (start limits) calls).allowed.Pairwise fun x y =>
        x.2 = y.2 → limits.cooldownPerSubject ≤ y.1.since x.1) ↔ limits.KeepsCooldown := by
  constructor
  · intro h
    by_contra hlimits
    simp only [AutopilotLimits.KeepsCooldown, not_or, not_and, not_le] at hlimits
    obtain ⟨hbudget, hpos, hwindow, htwice⟩ := hlimits
    obtain ⟨w, later, hw, hpast, hlater, hroom, hshort⟩ :=
      second_adjustment hbudget hpos hwindow htwice
    have hspaced := h ⟨0⟩ [.classify "web" .standard, .classify "batch" .standard,
      .evaluate (Autopilot.adjusting "web") ⟨0⟩ ⟨0⟩,
      .evaluate (Autopilot.adjusting "batch") ⟨w⟩ ⟨w⟩,
      .evaluate (Autopilot.adjusting "web") ⟨later⟩ ⟨later⟩]
      (by simp [GovernorCall.sections, InOrder, DateTime.le_def, hw, hlater])
    rw [adjusted_twice (Nat.pos_of_ne_zero hbudget) hpast hroom] at hspaced
    have hcooldown := (List.pairwise_cons.mp hspaced).1 (⟨later⟩, "web") (by simp) rfl
    simp only [DateTime.since, sub_zero] at hcooldown
    exact absurd hcooldown (not_le.mpr hshort)
  · intro hlimits t calls hin
    obtain ⟨hrun, hroomy⟩ := @run_flatMap (start limits) calls
    have hsound : Autopilot.Sound limits t (start limits).idle := Autopilot.sound_start limits t
    have hrespects := hsound.run hlimits hin hroomy
    rw [hrun] at hrespects
    exact hrespects.cooldown

/-- With a cooldown of an hour and a window of ten minutes, one subject is adjusted twice
within ten minutes. -/
theorem cooldown_pruned :
    ∃ calls, InOrder ⟨0⟩ (calls.flatMap GovernorCall.sections) ∧
      ¬ (Machine.run call (start ⟨10, minutes 10, minutes 60⟩) calls).allowed.Pairwise
        fun x y => x.2 = y.2 → minutes 60 ≤ y.1.since x.1 := by
  refine ⟨[.classify "web" .standard, .classify "batch" .standard,
    .evaluate (Autopilot.adjusting "web") ⟨0⟩ ⟨0⟩,
    .evaluate (Autopilot.adjusting "batch") ⟨minutes 10⟩ ⟨minutes 10⟩,
    .evaluate (Autopilot.adjusting "web") ⟨minutes 10⟩ ⟨minutes 10⟩], ?_, ?_⟩
  · simp [GovernorCall.sections, InOrder, DateTime.le_def, minutes]
  · decide

end Evaluated
end Argus
