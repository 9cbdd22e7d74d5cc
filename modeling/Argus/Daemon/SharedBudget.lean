import Argus.Daemon.ControlAccounting
import Argus.Policy.Budget

/-!
# One budget under many plans

The daemon keeps one set of budget windows behind a lock, and the plans it runs at the
same time take their units from it. The lock makes each `reserve` and each `refund` one
step of the shared `Tracker`, in whatever order the plans come; a plan's refund carries
the time its own reserve was made at, so it can come after the hour or the day has gone by.

* `StepRun.charged` is what one turn of the control loop asks of the budget: nothing, a unit,
  or a unit and its refund;
* `SharedRun` is any interleaving of runs of the loop over one tracker;
* `shared_budget_bounded` bounds the units out in every hour and day, for interleavings in
  which no call is for a period before the ones its windows count. A window that goes back
  in time forgets the units of the later period, and `late_refund_overshoots` is a run
  that does.
-/

namespace Argus

open Interaction Prog
open Window (Reached Bounds)

/-- A unit as the control loop reserves it. -/
structure Reservation where
  risk : RiskClass
  scope : BlastRadius
  now : DateTime
  deriving DecidableEq

/-- Whether the unit is one of `period` under `cap`. -/
def Cap.counts (cap : Cap) (period : Int) (unit : Reservation) : Bool :=
  cap.applies unit.risk unit.scope && cap.anchor unit.now == period

/-- The unit an event takes. -/
def LoopEvent.taken? : LoopEvent → Option Reservation
  | ⟨(_, .budgetReserve risk scope now), true⟩ => some ⟨risk, scope, now⟩
  | _ => none

/-- The unit an event gives back. -/
def LoopEvent.given? : LoopEvent → Option Reservation
  | ⟨(_, .budgetRefund risk scope now), _⟩ => some ⟨risk, scope, now⟩
  | _ => none

/-- What an event does to the number of `unit`s its plan has out. -/
def LoopEvent.unitsOf (unit : Reservation) (e : LoopEvent) : Int :=
  (if e.taken? = some unit then 1 else 0) - if e.given? = some unit then 1 else 0

namespace Control

variable {env : RunEnv} {state : LoopState env.plan} {index : StepIndex env.plan}
variable {decision : PolicyDecision} {t : LoopTrace} {unit : Reservation}

/-! ### What a turn asks of the budget -/

/-- The requests that take a unit or give one back. -/
def charges (t : LoopTrace) : LoopTrace := t.filter fun e => LoopEvent.units e != 0

@[simp] theorem charges_append {t' : LoopTrace} : charges (t ++ t') = charges t ++ charges t' :=
  List.filter_append ..

@[simp] theorem charges_nil : charges [] = [] := rfl

theorem charges_cons_of_free {e : LoopEvent} (h : e.units = 0) :
    charges (e :: t) = charges t := by
  simp [charges, h]

theorem Unpriced.charges (h : Unpriced t) : Control.charges t = [] :=
  List.filter_eq_nil_iff.mpr fun e he => by simp [h e he]

/-- The refund of a step's unit. -/
def refundEvent (env : RunEnv) (index : StepIndex env.plan) (now : DateTime) : LoopEvent :=
  ev (.step index) (.budgetRefund (stepRisk env index) env.plan.blastRadius now) ()

/-- What a turn charges: nothing, a unit, or a unit it gives back. -/
inductive Charged (env : RunEnv) (index : StepIndex env.plan) : LoopTrace → Prop
  | nothing : Charged env index []
  | taken {now : DateTime} : Charged env index [reserveEvent env index now true]
  | returned {now : DateTime} :
      Charged env index [reserveEvent env index now true, refundEvent env index now]

theorem charges_reservation {now : DateTime} :
    charges (reservation env index decision now) = reservation env index decision now := by
  unfold reservation
  split_ifs <;> rfl

theorem charges_surrender {now : DateTime} :
    charges (surrender env index decision now) = surrender env index decision now := by
  unfold surrender
  split_ifs <;> rfl

theorem Charged.of_reservation {now : DateTime} :
    Charged env index (reservation env index decision now) := by
  unfold reservation
  split_ifs
  · exact .nothing
  · exact .taken

theorem Charged.of_surrendered {now : DateTime} :
    Charged env index (reservation env index decision now ++ surrender env index decision now) := by
  unfold reservation surrender
  split_ifs
  · exact .nothing
  · exact .returned

theorem StepRun.charged {turn : Turn env.plan} (h : StepRun env state index t turn) :
    Charged env index (charges t) := by
  cases h with
  | skipped => exact .nothing
  | refused => rw [Unpriced.charges (by simp)]; exact .nothing
  | passed _ hgate hpolicy =>
      rw [charges_append, hgate.unpriced.charges, List.nil_append]
      cases hpolicy with
      | denied => rw [Unpriced.charges (by simp)]; exact .nothing
      | approvalPaused => rw [Unpriced.charges (by simp)]; exact .nothing
      | approvalGranted _ _ hexec =>
          rw [Unpriced.charges (by simp [hexec.unpriced])]; exact .nothing
      | budgetExhausted => rw [Unpriced.charges (by simp)]; exact .nothing
      | matrixDenied =>
          rw [charges_cons_of_free rfl, charges_cons_of_free rfl, charges_append, charges_append,
            charges_reservation, charges_surrender, unpriced_denyTrace.charges, List.append_nil]
          exact .of_surrendered
      | escalated =>
          rw [charges_cons_of_free rfl, charges_cons_of_free rfl, charges_append, charges_append,
            charges_reservation, charges_surrender, unpriced_pauseTrace.charges, List.append_nil]
          exact .of_surrendered
      | permitted _ _ _ hexec =>
          -- the execution in between charges nothing, so the refund meets its reservation
          rw [charges_cons_of_free rfl, charges_cons_of_free rfl, charges_append, charges_append,
            charges_reservation, hexec.unpriced.charges, List.append_nil]
          split_ifs
          · rw [charges_surrender]
            exact .of_surrendered
          · simpa using Charged.of_reservation

/-! ### A plan refunds its own units -/

/-- The number of `unit`s a plan has out after `t`. -/
def unitsOut (unit : Reservation) (t : LoopTrace) : Int := (t.map (LoopEvent.unitsOf unit)).sum

@[simp] theorem unitsOut_nil : unitsOut unit [] = 0 := rfl

@[simp] theorem unitsOut_cons {e : LoopEvent} :
    unitsOut unit (e :: t) = e.unitsOf unit + unitsOut unit t := by
  simp [unitsOut]

@[simp] theorem unitsOut_append {t' : LoopTrace} :
    unitsOut unit (t ++ t') = unitsOut unit t + unitsOut unit t' := by
  simp [unitsOut]

theorem given?_eq_none {e : LoopEvent} (h : e.units = 0) : e.given? = none := by
  obtain ⟨⟨site, port⟩, reply⟩ := e
  cases port <;> first | rfl | cases h

theorem taken?_eq_none {e : LoopEvent} (h : e.units = 0) : e.taken? = none := by
  obtain ⟨⟨site, port⟩, reply⟩ := e
  cases port with
  | budgetReserve => cases reply <;> first | rfl | cases h
  | _ => rfl

theorem unitsOf_eq_zero {e : LoopEvent} (h : e.units = 0) : e.unitsOf unit = 0 := by
  simp [LoopEvent.unitsOf, given?_eq_none h, taken?_eq_none h]

@[simp] theorem unitsOut_charges : unitsOut unit (charges t) = unitsOut unit t := by
  induction t with
  | nil => rfl
  | cons e t ih =>
      by_cases he : e.units = 0
      · simp [charges_cons_of_free he, ih, unitsOf_eq_zero he]
      · have hcons : charges (e :: t) = e :: charges t := by simp [charges, he]
        simp [hcons, ih]

/-- Every refund of `unit` finds one of its own plan's still out. -/
def Owned (unit : Reservation) (t : LoopTrace) : Prop :=
  Guarded (fun e : LoopEvent => e.given? = some unit) (fun past => 1 ≤ unitsOut unit past) t

theorem Owned.append {t' : LoopTrace} (h : Owned unit t) (hout : 0 ≤ unitsOut unit t)
    (h' : Owned unit t') : Owned unit (t ++ t') := by
  refine Guarded.append h ?_
  intro past e post heq he
  have hpast : 1 ≤ unitsOut unit past := h' past e post heq he
  show 1 ≤ unitsOut unit (t ++ past)
  rw [unitsOut_append]
  omega

/-- A turn gives back at most the unit it took. -/
theorem Charged.owned (h : Charged env index t) : 0 ≤ unitsOut unit t ∧ Owned unit t := by
  have htaken {now : DateTime} : unitsOut unit [reserveEvent env index now true] =
      if unit = ⟨stepRisk env index, env.plan.blastRadius, now⟩ then 1 else 0 := by
    simp [LoopEvent.unitsOf, LoopEvent.taken?, LoopEvent.given?, reserveEvent, eq_comm]
  have hgiven {now : DateTime} : (refundEvent env index now).unitsOf unit =
      if unit = ⟨stepRisk env index, env.plan.blastRadius, now⟩ then -1 else 0 := by
    simp only [LoopEvent.unitsOf, LoopEvent.taken?, LoopEvent.given?, refundEvent, eq_comm]
    split_ifs <;> simp_all
  cases h with
  | nothing => exact ⟨le_rfl, Guarded.of_forall_not (by simp)⟩
  | taken =>
      refine ⟨by rw [htaken]; split_ifs <;> simp, Guarded.of_forall_not ?_⟩
      simp [LoopEvent.given?, reserveEvent]
  | @returned now =>
      constructor
      · rw [← List.singleton_append, unitsOut_append, htaken, unitsOut_cons, hgiven]
        split_ifs <;> simp
      · rw [← List.singleton_append]
        refine Guarded.append (Guarded.of_forall_not (by simp [LoopEvent.given?, reserveEvent])) ?_
        intro past e post heq he
        obtain ⟨rfl, rfl, rfl⟩ : past = [] ∧ e = refundEvent env index now ∧ post = [] := by
          simpa [List.singleton_eq_append_iff] using heq
        have hunit := (Option.some.inj he).symm
        -- the clock reading of the refund is the reservation's own
        rw [List.append_nil, htaken, if_pos hunit]

theorem StepRun.owned {turn : Turn env.plan} (h : StepRun env state index t turn) :
    0 ≤ unitsOut unit t ∧ Owned unit t := by
  have howned : 0 ≤ unitsOut unit (charges t) ∧ Owned unit (charges t) := h.charged.owned
  refine ⟨by simpa using howned.1, ?_⟩
  -- refunds are charges, so what holds before each of them in `charges t` holds in `t`
  have hkept : ∀ e : LoopEvent, e.given? = some unit → (e.units != 0) = true := by
    intro e he
    by_contra hfree
    rw [given?_eq_none (by simpa using hfree)] at he
    cases he
  intro past e post heq he
  have hpast : 1 ≤ unitsOut unit (charges past) :=
    (guarded_filter hkept).mp howned.2 past e post heq he
  simpa using hpast

theorem LoopRun.owned {indices : List (StepIndex env.plan)} {run : PlanRun}
    (h : LoopRun env indices state t run) : Owned unit t := by
  induction h with
  | done => exact Guarded.of_forall_not (by simp)
  | next hstep _ ih => exact hstep.owned.2.append hstep.owned.1 ih
  | stop hstep => exact hstep.owned.2

theorem runPlan_owned {inputs : LoopInputs} {plan : Plan} {resume : Option (List (StepIndex plan))}
    {run : PlanRun} (h : Runs (runPlan inputs plan resume) t run) : Owned unit t := by
  obtain ⟨correlation, t', hloop, rfl⟩ := runPlan_inv h
  have hfree : Unpriced (announcement plan correlation) := by simp [announcement, LoopEvent.units]
  refine Owned.append (Guarded.of_forall_not ?_) ?_ hloop.owned
  · intro e he
    simp [given?_eq_none (hfree e he)]
  · rw [← unitsOut_charges, hfree.charges, unitsOut_nil]

end Control

/-! ### The shared tracker -/

/-- The windows the daemon keeps, and the units its plans have out: reserved, and not
refunded by the plan that reserved them. -/
structure Tracker (ι : Type) where
  windows : BudgetWindows
  held : List (ι × Reservation)

namespace Tracker

variable {ι : Type} [DecidableEq ι] {limits : BudgetLimits} {tracker : Tracker ι}

/-- The number of units of `period` out under `cap`. -/
def outstanding (tracker : Tracker ι) (cap : Cap) (period : Int) : Nat :=
  tracker.held.countP fun unit => cap.counts period unit.2

/-- One request of one plan; only the budget's own requests reach the tracker. -/
def step (limits : BudgetLimits) (tracker : Tracker ι) : ι × LoopEvent → Tracker ι
  | (plan, ⟨(_, .budgetReserve risk scope now), _⟩) =>
      let (reserved, windows) := tracker.windows.reserve limits risk scope now
      { windows
        held := if reserved then (plan, ⟨risk, scope, now⟩) :: tracker.held else tracker.held }
  | (plan, ⟨(_, .budgetRefund risk scope now), _⟩) =>
      { windows := tracker.windows.refund risk scope now
        held := tracker.held.erase (plan, ⟨risk, scope, now⟩) }
  | _ => tracker

/-- The tracker answers a reservation by its windows. -/
def answers (limits : BudgetLimits) (tracker : Tracker ι) : LoopEvent → Bool
  | ⟨(_, .budgetReserve risk scope now), reply⟩ =>
      reply == (tracker.windows.reserve limits risk scope now).1
  | _ => true

/-- No window that counts a step of this shape counts a period after `now`. -/
def reaches (tracker : Tracker ι) (risk : RiskClass) (scope : BlastRadius)
    (now : DateTime) : Bool :=
  [Cap.lowRiskHour, .controlledDay, .hostScopeDay].all fun cap =>
    !cap.applies risk scope || decide (Reached (cap.window tracker.windows) (cap.anchor now))

/-- A call of the budget that is not for a period before the ones its windows count. -/
def timely (tracker : Tracker ι) : LoopEvent → Bool
  | ⟨(_, .budgetReserve risk scope now), _⟩ => tracker.reaches risk scope now
  | ⟨(_, .budgetRefund risk scope now), _⟩ => tracker.reaches risk scope now
  | _ => true

/-- The tracker after the calls `t`. -/
def after (limits : BudgetLimits) (tracker : Tracker ι) (t : List (ι × LoopEvent)) : Tracker ι :=
  t.foldl (step limits) tracker

/-- Every call of `t` passes `check` in the state it finds. -/
def checked (limits : BudgetLimits) (check : Tracker ι → LoopEvent → Bool)
    (tracker : Tracker ι) : List (ι × LoopEvent) → Bool
  | [] => true
  | call :: t => check tracker call.2 && checked limits check (tracker.step limits call) t

theorem after_snoc {t : List (ι × LoopEvent)} {call : ι × LoopEvent} :
    after limits tracker (t ++ [call]) = (after limits tracker t).step limits call := by
  simp [after]

theorem checked_append {check : Tracker ι → LoopEvent → Bool} {t t' : List (ι × LoopEvent)} :
    checked limits check tracker (t ++ t') =
      (checked limits check tracker t && checked limits check (after limits tracker t) t') := by
  induction t generalizing tracker with
  | nil => rfl
  | cons head t ih => simp [checked, after, ih, Bool.and_assoc]

theorem checked_snoc {check : Tracker ι → LoopEvent → Bool} {t : List (ι × LoopEvent)}
    {call : ι × LoopEvent} :
    checked limits check tracker (t ++ [call]) = true ↔
      checked limits check tracker t = true ∧ check (after limits tracker t) call.2 = true := by
  simp [checked_append, checked]

omit [DecidableEq ι] in
theorem reaches_iff {risk : RiskClass} {scope : BlastRadius} {now : DateTime} :
    tracker.reaches risk scope now = true ↔ ∀ cap : Cap, cap.applies risk scope = true →
      Reached (cap.window tracker.windows) (cap.anchor now) := by
  simp only [reaches, List.all_cons, List.all_nil, Bool.and_true, Bool.and_eq_true,
    Bool.or_eq_true, Bool.not_eq_true', decide_eq_true_eq, ← imp_iff_not_or,
    Bool.eq_false_iff, ne_eq]
  constructor
  · intro hall cap
    obtain ⟨hlow, hcontrolled, hhost⟩ := hall
    cases cap <;> assumption
  · exact fun h => ⟨h _, h _, h _⟩

/-- What a call of the budget can do to the tracker. -/
inductive StepCase (limits : BudgetLimits) (tracker : Tracker ι) (plan : ι) (e : LoopEvent) :
    Tracker ι → Prop
  | taken {unit : Reservation} {windows : BudgetWindows} (htaken : e.taken? = some unit)
      (hgiven : e.given? = none)
      (htimely : tracker.timely e = tracker.reaches unit.risk unit.scope unit.now)
      (hroom : ∀ cap : Cap, cap.applies unit.risk unit.scope = true →
        Window.rolled (cap.window tracker.windows) (cap.anchor unit.now) < cap.limit limits)
      (hwindow : ∀ cap : Cap, cap.window windows =
        if cap.applies unit.risk unit.scope then
          Window.take (cap.window tracker.windows) (cap.anchor unit.now)
        else cap.window tracker.windows) :
      StepCase limits tracker plan e ⟨windows, (plan, unit) :: tracker.held⟩
  | refused (unit : Reservation) {windows : BudgetWindows} (htaken : e.taken? = none)
      (hgiven : e.given? = none)
      (htimely : tracker.timely e = tracker.reaches unit.risk unit.scope unit.now)
      (hwindow : ∀ cap : Cap, cap.window windows = cap.window tracker.windows ∨
        cap.applies unit.risk unit.scope = true ∧ cap.window windows =
          Window.roll (cap.window tracker.windows) (cap.anchor unit.now)) :
      StepCase limits tracker plan e ⟨windows, tracker.held⟩
  | given {unit : Reservation} {windows : BudgetWindows} (htaken : e.taken? = none)
      (hgiven : e.given? = some unit)
      (htimely : tracker.timely e = tracker.reaches unit.risk unit.scope unit.now)
      (hwindow : ∀ cap : Cap, cap.window windows =
        if cap.applies unit.risk unit.scope then
          Window.give (cap.window tracker.windows) (cap.anchor unit.now)
        else cap.window tracker.windows) :
      StepCase limits tracker plan e ⟨windows, tracker.held.erase (plan, unit)⟩
  | other (htaken : e.taken? = none) (hgiven : e.given? = none) :
      StepCase limits tracker plan e tracker

theorem step_inv {plan : ι} {e : LoopEvent} (h : tracker.answers limits e = true) :
    StepCase limits tracker plan e (tracker.step limits (plan, e)) := by
  obtain ⟨⟨site, port⟩, reply⟩ := e
  cases port with
  | budgetReserve risk scope now =>
      have hreply : reply = (tracker.windows.reserve limits risk scope now).1 := by
        simpa [answers] using h
      cases reply with
      | true =>
          have hgranted := BudgetWindows.reserve_granted (h := hreply.symm)
          have hstep : tracker.step limits (plan, ⟨(site, .budgetReserve risk scope now), true⟩) =
              ⟨(tracker.windows.reserve limits risk scope now).2,
                (plan, ⟨risk, scope, now⟩) :: tracker.held⟩ := by
            simp [step, ← hreply]
          rw [hstep]
          exact .taken rfl rfl rfl (fun cap => (hgranted cap).1) fun cap => (hgranted cap).2
      | false =>
          have hstep : tracker.step limits (plan, ⟨(site, .budgetReserve risk scope now), false⟩) =
              ⟨(tracker.windows.reserve limits risk scope now).2, tracker.held⟩ := by
            simp [step, ← hreply]
          rw [hstep]
          exact .refused ⟨risk, scope, now⟩ rfl rfl rfl fun cap =>
            BudgetWindows.reserve_refused cap hreply.symm
  | budgetRefund risk scope now =>
      exact .given rfl rfl rfl fun cap => BudgetWindows.refund_window cap
  | _ => exact .other rfl rfl

end Tracker

/-! ### Interleaved plans -/

section Interleaved

variable {ι : Type} [DecidableEq ι]

/-- One plan the daemon runs. -/
structure PlanCall where
  inputs : LoopInputs
  plan : Plan
  resume : Option (List (StepIndex plan))

/-- The requests of one plan. -/
def ofPlan (plan : ι) (t : List (ι × LoopEvent)) : LoopTrace :=
  (t.filter fun call => call.1 = plan).map Prod.snd

/-- Any interleaving of runs of the control loop, finished or not, over one tracker. -/
structure SharedRun (limits : BudgetLimits) (windows : BudgetWindows) (calls : ι → PlanCall)
    (t : List (ι × LoopEvent)) : Prop where
  plans : ∀ plan, ∃ rest run,
    Runs (runPlan (calls plan).inputs (calls plan).plan (calls plan).resume)
      (ofPlan plan t ++ rest) run
  answered : Tracker.checked limits (Tracker.answers limits) ⟨windows, []⟩ t = true

variable {limits : BudgetLimits} {windows : BudgetWindows} {calls : ι → PlanCall}
variable {t : List (ι × LoopEvent)} {call : ι × LoopEvent} {plan : ι}

theorem ofPlan_append {t' : List (ι × LoopEvent)} :
    ofPlan plan (t ++ t') = ofPlan plan t ++ ofPlan plan t' := by
  simp [ofPlan]

theorem SharedRun.of_append {t' : List (ι × LoopEvent)}
    (h : SharedRun limits windows calls (t ++ t')) : SharedRun limits windows calls t := by
  have hanswered := h.answered
  rw [Tracker.checked_append, Bool.and_eq_true] at hanswered
  refine ⟨fun plan => ?_, hanswered.1⟩
  obtain ⟨rest, run, hrun⟩ := h.plans plan
  rw [ofPlan_append, List.append_assoc] at hrun
  exact ⟨_, run, hrun⟩

/-- What the last call of an interleaving did. -/
theorem SharedRun.last (h : SharedRun limits windows calls (t ++ [call])) :
    Tracker.StepCase limits (Tracker.after limits ⟨windows, []⟩ t) call.1 call.2
      (Tracker.after limits ⟨windows, []⟩ (t ++ [call])) := by
  rw [Tracker.after_snoc]
  exact Tracker.step_inv (Tracker.checked_snoc.mp h.answered).2

/-- A plan of the interleaving refunds only units it has out. -/
theorem SharedRun.owned {unit : Reservation} (h : SharedRun limits windows calls (t ++ [call]))
    (hgiven : call.2.given? = some unit) : 1 ≤ Control.unitsOut unit (ofPlan call.1 t) := by
  obtain ⟨rest, run, hrun⟩ := h.plans call.1
  refine Control.runPlan_owned hrun (ofPlan call.1 t) call.2 rest ?_ hgiven
  simp [ofPlan]

theorem unitsOut_ofPlan_singleton {caller : ι} {e : LoopEvent} {unit : Reservation} :
    Control.unitsOut unit (ofPlan plan [(caller, e)]) =
      if caller = plan then e.unitsOf unit else 0 := by
  unfold ofPlan
  split_ifs with hcaller <;> simp [hcaller]

/-- The units a plan has out are those its own requests say. -/
theorem SharedRun.held_count (h : SharedRun limits windows calls t) (plan : ι)
    (unit : Reservation) :
    ((Tracker.after limits ⟨windows, []⟩ t).held.count (plan, unit) : Int) =
      Control.unitsOut unit (ofPlan plan t) := by
  -- by the last call: the tracker and the plan's own requests move together
  induction t using List.reverseRecOn with
  | nil => rfl
  | append_singleton t call ih =>
      have hpast := ih h.of_append
      have hlast := h.last
      have howned : ∀ unit, call.2.given? = some unit →
          1 ≤ Control.unitsOut unit (ofPlan call.1 t) := fun _ => h.owned
      obtain ⟨caller, e⟩ := call
      rw [ofPlan_append, Control.unitsOut_append, ← hpast, unitsOut_ofPlan_singleton]
      generalize Tracker.after limits ⟨windows, []⟩ (t ++ [(caller, e)]) = next at hlast ⊢
      generalize Tracker.after limits ⟨windows, []⟩ t = past at hlast hpast ⊢
      cases hlast with
      | taken htaken hgiven =>
          simp only [List.count_cons, LoopEvent.unitsOf, htaken, hgiven]
          grind
      | refused _ htaken hgiven => simp [LoopEvent.unitsOf, htaken, hgiven]
      | @given unit' _ htaken hgiven =>
          -- the erased unit was there, or the count would stop at zero
          have hout := howned unit' hgiven
          simp only [List.count_erase, LoopEvent.unitsOf, htaken, hgiven]
          grind
      | other htaken hgiven => simp [LoopEvent.unitsOf, htaken, hgiven]

/-- So a refund finds its unit. -/
theorem SharedRun.given_mem {unit : Reservation} (h : SharedRun limits windows calls (t ++ [call]))
    (hgiven : call.2.given? = some unit) :
    (call.1, unit) ∈ (Tracker.after limits ⟨windows, []⟩ t).held := by
  have hout := h.owned hgiven
  rw [← h.of_append.held_count] at hout
  exact List.count_pos_iff.mp (by omega)

/-- The units of each period out under `cap`. -/
def heldUnits (cap : Cap) (held : List (ι × Reservation)) : Int → Int :=
  fun period => (held.countP fun unit => cap.counts period unit.2 : Nat)

omit [DecidableEq ι] in
theorem heldUnits_cons {held : List (ι × Reservation)} {unit : Reservation} {cap : Cap} :
    heldUnits cap ((plan, unit) :: held) =
      if cap.applies unit.risk unit.scope then
        heldUnits cap held + Pi.single (cap.anchor unit.now) 1
      else heldUnits cap held := by
  funext period
  cases happlies : cap.applies unit.risk unit.scope with
  | false => simp [heldUnits, Cap.counts, happlies]
  | true =>
      by_cases hperiod : cap.anchor unit.now = period
      · simp [heldUnits, Cap.counts, happlies, hperiod]
      · simp [heldUnits, Cap.counts, happlies, hperiod, Ne.symm hperiod]

theorem heldUnits_erase {held : List (ι × Reservation)} {unit : Reservation} {cap : Cap}
    (hmem : (plan, unit) ∈ held) :
    heldUnits cap (held.erase (plan, unit)) =
      if cap.applies unit.risk unit.scope then
        heldUnits cap held - Pi.single (cap.anchor unit.now) 1
      else heldUnits cap held := by
  have hperm : heldUnits cap held = heldUnits cap ((plan, unit) :: held.erase (plan, unit)) := by
    funext period
    exact congrArg Nat.cast ((List.perm_cons_erase hmem).countP_eq _)
  rw [hperm, heldUnits_cons]
  split_ifs
  · simp
  · rfl

/-- The invariant of a timely interleaving: every window covers the units out. -/
def Tracker.Covers (limits : BudgetLimits) (tracker : Tracker ι) : Prop :=
  ∀ cap : Cap, Bounds (cap.limit limits) (cap.window tracker.windows) (heldUnits cap tracker.held)

/-- The step lemma: a timely call keeps the windows covering the units out, when a refund
finds its unit. -/
theorem Tracker.Covers.step {tracker next : Tracker ι} {e : LoopEvent}
    (h : tracker.Covers limits) (hstep : StepCase limits tracker plan e next)
    (htimely : tracker.timely e = true)
    (hmem : ∀ unit, e.given? = some unit → (plan, unit) ∈ tracker.held) : next.Covers limits := by
  intro cap
  cases hstep with
  | taken _ _ hreaches hroom hwindow =>
      have hreached := reaches_iff.mp (hreaches ▸ htimely) cap
      rw [hwindow cap, heldUnits_cons]
      split_ifs with happlies
      · exact (h cap).take (hreached happlies) (hroom cap happlies)
      · exact h cap
  | refused _ _ _ hreaches hwindow =>
      -- a refusal may still have rolled the windows before the full one
      have hreached := reaches_iff.mp (hreaches ▸ htimely) cap
      rcases hwindow cap with hsame | ⟨happlies, hrolled⟩
      · simpa only [hsame] using h cap
      · simpa only [hrolled] using (h cap).roll (hreached happlies)
  | given _ hgiven hreaches hwindow =>
      have hreached := reaches_iff.mp (hreaches ▸ htimely) cap
      rw [hwindow cap, heldUnits_erase (hmem _ hgiven)]
      split_ifs with happlies
      · exact (h cap).give (hreached happlies)
      · exact h cap
  | other => exact h cap

theorem SharedRun.covers (h : SharedRun limits windows calls t)
    (htimely : Tracker.checked limits Tracker.timely ⟨windows, []⟩ t = true) :
    (Tracker.after limits ⟨windows, []⟩ t).Covers limits := by
  induction t using List.reverseRecOn with
  | nil => exact fun cap => Bounds.init _
  | append_singleton t call ih =>
      obtain ⟨hpast, hcall⟩ := Tracker.checked_snoc.mp htimely
      exact (ih h.of_append hpast).step h.last hcall fun _ => h.given_mem

/-- **The shared budget.** In every interleaving of runs of the control loop whose budget
calls are all timely, and at every point of it, no hour or day has more units reserved and
not refunded than the limit allows. -/
theorem shared_budget_bounded (h : SharedRun limits windows calls t)
    (htimely : Tracker.checked limits Tracker.timely ⟨windows, []⟩ t = true)
    {past : List (ι × LoopEvent)} (hpast : past <+: t) (cap : Cap) (period : Int) :
    (Tracker.after limits ⟨windows, []⟩ past).outstanding cap period ≤ cap.limit limits := by
  obtain ⟨rest, rfl⟩ := hpast
  rw [Tracker.checked_append, Bool.and_eq_true] at htimely
  have hcovers := h.of_append.covers htimely.1
  exact Int.ofNat_le.mp ((hcovers cap).capped period)

/-! ### Three restarts around the hour -/

/-- Ports that permit by policy, read the clock at `now` seconds, and find the service
running or not. -/
def portsAt (now : Int) (live : Bool) : FixedPorts :=
  { FixedPorts.willing (.allow "bootstrap" "permitted") with
    now := ⟨now * 1000000000⟩
    live := fun _ => live }

/-- The requests of a restart at L3 with these ports. -/
def restartAt (now : Int) (live : Bool) : LoopTrace :=
  (play (portsAt now live).answer (runPlan (.atLevel .l3Assisted) restartPlan none) ()).1

/-- The same restart as each of the plans of an interleaving. -/
def restarts : Fin 3 → PlanCall := fun _ => ⟨.atLevel .l3Assisted, restartPlan, none⟩

/-- The first restart takes its unit in the last second of an hour; the second takes one in
the next hour, the only one allowed; the first finds its service running and gives its unit
back; the third takes a unit in the same hour as the second. -/
def aroundTheHour : List (Fin 3 × LoopEvent) :=
  ((restartAt 3599 true).take 5).map (0, ·) ++ (restartAt 3600 false).map (1, ·) ++
    ((restartAt 3599 true).drop 5).map (0, ·) ++ (restartAt 3600 false).map (2, ·)

/-- The first two, one after the other. -/
def inTurn : List (Fin 3 × LoopEvent) :=
  (restartAt 3599 true).map (0, ·) ++ (restartAt 3600 false).map (1, ·)

theorem ofPlan_map {caller : ι} {t : LoopTrace} :
    ofPlan plan (t.map (caller, ·)) = if caller = plan then t else [] := by
  split_ifs with hcaller
  · simp [ofPlan, hcaller, List.filter_map, Function.comp_def]
  · simp [ofPlan, hcaller, List.filter_map, Function.comp_def]

theorem restartAt_runs (now : Int) (live : Bool) :
    ∃ rest run, Runs (runPlan (.atLevel .l3Assisted) restartPlan none)
      (restartAt now live ++ rest) run := by
  have hrun := play_runs (portsAt now live).answer
    (runPlan (.atLevel .l3Assisted) restartPlan none) ()
  exact ⟨[], _, by simpa [restartAt] using hrun⟩

/-- A late refund moves the hourly window back, and the hour it left starts again from
zero: two units out under a limit of one. -/
theorem late_refund_overshoots :
    SharedRun ⟨1, 5, 3⟩ .empty restarts aroundTheHour ∧
      (Tracker.after ⟨1, 5, 3⟩ ⟨.empty, []⟩ aroundTheHour).outstanding .lowRiskHour 1 = 2 := by
  refine ⟨⟨fun plan => ?_, by decide⟩, by decide⟩
  simp only [aroundTheHour, ofPlan_append, ofPlan_map, restarts]
  match plan with
  | 0 => simpa using restartAt_runs 3599 true
  | 1 => simpa using restartAt_runs 3600 false
  | 2 => simpa using restartAt_runs 3600 false

/-- Without the late refund the hour keeps its limit. -/
theorem shared_budget_bounded_inTurn :
    SharedRun ⟨1, 5, 3⟩ .empty restarts inTurn ∧
      (Tracker.after ⟨1, 5, 3⟩ ⟨.empty, []⟩ inTurn).outstanding .lowRiskHour 1 = 1 ∧
      (Tracker.after ⟨1, 5, 3⟩ ⟨.empty, []⟩ inTurn).outstanding .lowRiskHour 1 ≤
        Cap.lowRiskHour.limit ⟨1, 5, 3⟩ := by
  have hshared : SharedRun ⟨1, 5, 3⟩ .empty restarts inTurn := by
    refine ⟨fun plan => ?_, by decide⟩
    simp only [inTurn, ofPlan_append, ofPlan_map, restarts]
    match plan with
    | 0 => simpa using restartAt_runs 3599 true
    | 1 => simpa using restartAt_runs 3600 false
    | 2 => exact ⟨_, _, play_runs (portsAt 0 false).answer _ ()⟩
  exact ⟨hshared, by decide,
    shared_budget_bounded hshared (by decide) List.prefix_rfl .lowRiskHour 1⟩

end Interleaved
end Argus
