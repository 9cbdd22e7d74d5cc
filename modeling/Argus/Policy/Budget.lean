import Argus.Domain.Capability
import Argus.Lib.Window

/-!
# The blast-radius budget

Three limits, each kept by one anchored window: low-risk steps per UTC hour, controlled
steps per UTC day, and host-scope steps of any risk per UTC day. The evaluator is pure:
the caller brings the time. `reserve` consumes a unit of every limit the step's shape
applies to, or none of them; `refund` surrenders it.

`Cap` names the three limits, and the lemmas of this module say what the two operations
do to the window of each.
-/

namespace Argus

open Window (Counter Reached Bounds rolled roll take give)

/-- The configured budget limits. -/
structure BudgetLimits where
  lowRiskPerHour : Nat
  controlledPerDay : Nat
  hostScopePerDay : Nat

/-- The windows a daemon keeps, one for each limit. -/
structure BudgetWindows where
  lowRiskHour : Counter Int
  controlledDay : Counter Int
  hostScopeDay : Counter Int
  deriving DecidableEq

/-- Hours since the epoch, the anchor of the hourly window. -/
def hourIndex (now : DateTime) : Int := now.timestamp / 3600

/-- Days since the epoch, the anchor of the daily windows. -/
def dayIndex (now : DateTime) : Int := now.timestamp / 86400

namespace BudgetWindows

def empty : BudgetWindows := ⟨none, none, none⟩

/-- Rolls the window over when the step's shape applies to it, and says whether it has
room. -/
def enter (window : Counter Int) (anchor : Int) (limit : Nat) (applies : Bool) :
    Bool × Counter Int :=
  if applies then (decide (rolled window anchor < limit), roll window anchor)
  else (true, window)

/-- Consumes one unit in `window` when the step's shape applies to it. -/
def bump (window : Counter Int) (anchor : Int) (applies : Bool) : Counter Int :=
  if applies then take window anchor else window

/-- Whether a step of `risk` at `scope` may execute now under `limits`, consuming its unit
in every window that applies. An exhausted window ends the check where it is: it and the
windows before it are rolled over, and nothing is consumed. -/
def reserve (windows : BudgetWindows) (limits : BudgetLimits) (risk : RiskClass)
    (scope : BlastRadius) (now : DateTime) : Bool × BudgetWindows :=
  let hour := hourIndex now
  let day := dayIndex now
  let (room, lowRiskHour) :=
    enter windows.lowRiskHour hour limits.lowRiskPerHour (risk == .lowRisk)
  let windows := { windows with lowRiskHour }
  if !room then (false, windows)
  else
    let (room, controlledDay) :=
      enter windows.controlledDay day limits.controlledPerDay (risk == .controlled)
    let windows := { windows with controlledDay }
    if !room then (false, windows)
    else
      let (room, hostScopeDay) :=
        enter windows.hostScopeDay day limits.hostScopePerDay (scope == .host)
      let windows := { windows with hostScopeDay }
      if !room then (false, windows)
      else
        (true,
          { lowRiskHour := bump windows.lowRiskHour hour (risk == .lowRisk)
            controlledDay := bump windows.controlledDay day (risk == .controlled)
            hostScopeDay := bump windows.hostScopeDay day (scope == .host) })

/-- Surrenders a unit in `window` when the step's shape applies to it. -/
def surrender (window : Counter Int) (anchor : Int) (applies : Bool) : Counter Int :=
  if applies then give window anchor else window

/-- Surrenders one unit in every window the step's risk and scope apply to. -/
def refund (windows : BudgetWindows) (risk : RiskClass) (scope : BlastRadius) (now : DateTime) :
    BudgetWindows :=
  { lowRiskHour := surrender windows.lowRiskHour (hourIndex now) (risk == .lowRisk)
    controlledDay := surrender windows.controlledDay (dayIndex now) (risk == .controlled)
    hostScopeDay := surrender windows.hostScopeDay (dayIndex now) (scope == .host) }

/-- The remaining budget of every window, beside its limit. -/
def remaining (windows : BudgetWindows) (limits : BudgetLimits) (now : DateTime) :
    List (String × Nat × Nat) :=
  let low := rolled windows.lowRiskHour (hourIndex now)
  let controlled := rolled windows.controlledDay (dayIndex now)
  let host := rolled windows.hostScopeDay (dayIndex now)
  [("low_risk_per_hour", limits.lowRiskPerHour - low, limits.lowRiskPerHour),
    ("controlled_per_day", limits.controlledPerDay - controlled, limits.controlledPerDay),
    ("host_scope_per_day", limits.hostScopePerDay - host, limits.hostScopePerDay)]

end BudgetWindows

/-! ### The three limits -/

/-- The limits of the budget. -/
inductive Cap
  | lowRiskHour
  | controlledDay
  | hostScopeDay
  deriving DecidableEq

namespace Cap

/-- Whether a step of this shape counts against the limit. -/
def applies (cap : Cap) (risk : RiskClass) (scope : BlastRadius) : Bool :=
  match cap with
  | lowRiskHour => risk == .lowRisk
  | controlledDay => risk == .controlled
  | hostScopeDay => scope == .host

/-- The period of the limit that `now` falls into. -/
def anchor (cap : Cap) (now : DateTime) : Int :=
  match cap with
  | lowRiskHour => hourIndex now
  | controlledDay | hostScopeDay => dayIndex now

def limit (cap : Cap) (limits : BudgetLimits) : Nat :=
  match cap with
  | lowRiskHour => limits.lowRiskPerHour
  | controlledDay => limits.controlledPerDay
  | hostScopeDay => limits.hostScopePerDay

def window (cap : Cap) (windows : BudgetWindows) : Counter Int :=
  match cap with
  | lowRiskHour => windows.lowRiskHour
  | controlledDay => windows.controlledDay
  | hostScopeDay => windows.hostScopeDay

/-- The limit's key in the configuration. -/
def key : Cap → String
  | lowRiskHour => "low_risk_per_hour"
  | controlledDay => "controlled_per_day"
  | hostScopeDay => "host_scope_per_day"

/-- The units consumed in the period that `now` falls into. -/
def consumed (cap : Cap) (windows : BudgetWindows) (now : DateTime) : Nat :=
  rolled (cap.window windows) (cap.anchor now)

/-- The units left in that period. -/
def left (cap : Cap) (windows : BudgetWindows) (limits : BudgetLimits) (now : DateTime) : Nat :=
  cap.limit limits - cap.consumed windows now

end Cap

namespace BudgetWindows

variable {windows : BudgetWindows} {limits : BudgetLimits} {risk : RiskClass}
variable {scope : BlastRadius} {now : DateTime}

theorem bump_enter {window : Counter Int} {anchor : Int} {limit : Nat} {applies : Bool} :
    bump (enter window anchor limit applies).2 anchor applies =
      if applies then take window anchor else window := by
  unfold bump enter
  split_ifs <;> simp

theorem enter_room {window : Counter Int} {anchor : Int} {limit : Nat} {applies : Bool}
    (h : (enter window anchor limit applies).1 = true) (happlies : applies = true) :
    rolled window anchor < limit := by
  simpa [enter, happlies] using h

/-- A reservation that succeeds found room under every limit that applies, and takes a unit
of each. -/
theorem reserve_granted (cap : Cap)
    (h : (windows.reserve limits risk scope now).1 = true) :
    (cap.applies risk scope = true →
      rolled (cap.window windows) (cap.anchor now) < cap.limit limits) ∧
    cap.window (windows.reserve limits risk scope now).2 =
      if cap.applies risk scope then take (cap.window windows) (cap.anchor now)
      else cap.window windows := by
  unfold reserve at h ⊢
  dsimp only at h ⊢
  split_ifs at h with hlow hcontrolled hhost
  rw [if_neg hlow, if_neg hcontrolled, if_neg hhost]
  simp only [Bool.not_eq_true', Bool.not_eq_false] at hlow hcontrolled hhost
  cases cap with
  | lowRiskHour => exact ⟨enter_room hlow, bump_enter⟩
  | controlledDay => exact ⟨enter_room hcontrolled, bump_enter⟩
  | hostScopeDay => exact ⟨enter_room hhost, bump_enter⟩

/-- One that fails at most rolls windows over. -/
theorem reserve_refused (cap : Cap)
    (h : (windows.reserve limits risk scope now).1 = false) :
    cap.window (windows.reserve limits risk scope now).2 = cap.window windows ∨
      cap.applies risk scope = true ∧ cap.window (windows.reserve limits risk scope now).2 =
        roll (cap.window windows) (cap.anchor now) := by
  have hentered {window : Counter Int} {anchor : Int} {limit : Nat} (applies : Bool) :
      (enter window anchor limit applies).2 = window ∨
        applies = true ∧ (enter window anchor limit applies).2 = roll window anchor := by
    cases applies
    · exact .inl rfl
    · exact .inr ⟨rfl, rfl⟩
  unfold reserve at h ⊢
  dsimp only at h ⊢
  -- the refusing window is the last one rolled; those behind it are not looked at
  split_ifs at h ⊢ with hlow hcontrolled hhost
  · cases cap with
    | lowRiskHour => exact hentered _
    | controlledDay => exact .inl rfl
    | hostScopeDay => exact .inl rfl
  · cases cap with
    | lowRiskHour => exact hentered _
    | controlledDay => exact hentered _
    | hostScopeDay => exact .inl rfl
  · cases cap <;> exact hentered _

theorem refund_window (cap : Cap) :
    cap.window (windows.refund risk scope now) =
      if cap.applies risk scope then give (cap.window windows) (cap.anchor now)
      else cap.window windows := by
  cases cap <;> rfl

/-- `remaining` is about the three limits. -/
theorem remaining_eq : windows.remaining limits now =
    [Cap.lowRiskHour, .controlledDay, .hostScopeDay].map fun cap =>
      (cap.key, cap.left windows limits now, cap.limit limits) := rfl

/-- Room in every window that applies is enough. -/
theorem reserve_of_room (h : ∀ cap : Cap, cap.applies risk scope = true →
    rolled (cap.window windows) (cap.anchor now) < cap.limit limits) :
    (windows.reserve limits risk scope now).1 = true := by
  have hroom {window : Counter Int} {anchor : Int} {limit : Nat} {applies : Bool}
      (hleft : applies = true → rolled window anchor < limit) :
      (enter window anchor limit applies).1 = true := by
    cases applies
    · rfl
    · simpa [enter] using hleft rfl
  have hlow := hroom (h .lowRiskHour)
  have hcontrolled := hroom (h .controlledDay)
  have hhost := hroom (h .hostScopeDay)
  simp only [Cap.window, Cap.anchor, Cap.limit, Cap.applies] at hlow hcontrolled hhost
  simp [reserve, hlow, hcontrolled, hhost]

theorem reserve_iff : (windows.reserve limits risk scope now).1 = true ↔
    ∀ cap : Cap, cap.applies risk scope = true → 0 < cap.left windows limits now := by
  have hleft (cap : Cap) : 0 < cap.left windows limits now ↔
      rolled (cap.window windows) (cap.anchor now) < cap.limit limits := Nat.sub_pos_iff_lt
  constructor
  · exact fun h cap happlies => (hleft cap).mpr ((reserve_granted cap h).1 happlies)
  · exact fun h => reserve_of_room fun cap happlies => (hleft cap).mp (h cap happlies)

/-- A limit's period is that of the hour and the day. -/
theorem anchor_congr {later : DateTime} (hhour : hourIndex later = hourIndex now)
    (hday : dayIndex later = dayIndex now) (cap : Cap) : cap.anchor later = cap.anchor now := by
  cases cap with
  | lowRiskHour => exact hhour
  | controlledDay | hostScopeDay => exact hday

/-- What one reservation does, and the refund of it. -/
structure AllOrNothing (windows : BudgetWindows) (limits : BudgetLimits) (risk : RiskClass)
    (scope : BlastRadius) (now : DateTime) : Prop where
  granted : (windows.reserve limits risk scope now).1 = true ↔
    ∀ cap : Cap, cap.applies risk scope = true → 0 < cap.left windows limits now
  /-- Refused, it rolls windows over at most. -/
  refused : (windows.reserve limits risk scope now).1 = false → ∀ cap : Cap,
    cap.window (windows.reserve limits risk scope now).2 = cap.window windows ∨
      cap.window (windows.reserve limits risk scope now).2 =
        some (cap.anchor now, cap.consumed windows now)
  taken : (windows.reserve limits risk scope now).1 = true → ∀ cap : Cap,
    cap.window (windows.reserve limits risk scope now).2 =
      if cap.applies risk scope then some (cap.anchor now, cap.consumed windows now + 1)
      else cap.window windows
  returned : (windows.reserve limits risk scope now).1 = true → ∀ later : DateTime,
    hourIndex later = hourIndex now → dayIndex later = dayIndex now → ∀ cap : Cap,
      cap.consumed ((windows.reserve limits risk scope now).2.refund risk scope later) now =
        cap.consumed windows now
  /-- A refund takes a unit of every window that applies, as long as there is one. -/
  floored : ∀ cap : Cap, (cap.consumed (windows.refund risk scope now) now : Int) =
    if cap.applies risk scope then max 0 ((cap.consumed windows now : Int) - 1)
    else cap.consumed windows now

/-- **A reservation is all or nothing.** -/
theorem reserve_all_or_nothing (windows : BudgetWindows) (limits : BudgetLimits)
    (risk : RiskClass) (scope : BlastRadius) (now : DateTime) :
    AllOrNothing windows limits risk scope now where
  granted := reserve_iff
  refused := fun h cap => (reserve_refused cap h).imp_right And.right
  taken := fun h cap => (reserve_granted cap h).2
  returned := fun h later hhour hday cap => by
    rw [Cap.consumed, refund_window, (reserve_granted cap h).2, anchor_congr hhour hday]
    split_ifs with happlies
    · simp [Window.give, Window.take, Cap.consumed]
    · rfl
  floored := fun cap => by
    rw [Cap.consumed, refund_window]
    split_ifs with happlies
    · have hgive : rolled (give (cap.window windows) (cap.anchor now)) (cap.anchor now) =
          cap.consumed windows now - 1 := by
        simp [Window.give, Cap.consumed]
      rw [hgive]
      omega
    · rfl

end BudgetWindows
end Argus
