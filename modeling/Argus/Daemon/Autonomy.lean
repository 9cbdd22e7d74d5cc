import Argus.Domain.Autonomy

/-!
# The autonomy machine

One `AutonomyManager` per daemon. The brain loop ticks it (`onCycle`), the end of a plan
feeds it evidence (`recordValidatedExecutions`) or costs it a rung (`onValidationFailed`),
and the control loop takes its budget from it (`reserve`, `refund`). Every change is
written to the repository, and whether the write succeeds is the repository's: `wrote` says
so for the one write a call makes.

`CycleRun` lists what one tick can do to the state, guards included; the invariants of the
machine are read off it. `earned_autonomy_invariant` is what holds of every machine after
any sequence of calls.
-/

namespace Argus

open AutonomyMode

/-- The graduated-autonomy settings. -/
structure AutonomyConfig where
  shadowMinCycles : Nat
  rungCleanCycles : Nat
  budgets : BudgetLimits

/-- The settings as the configuration file has them, each key absent or not. -/
structure AutonomyWire where
  shadowMinCycles : Option Nat
  rungCleanCycles : Option Nat
  budgets : Option BudgetLimits

/-- The default budget limits. -/
def BudgetLimits.default : BudgetLimits := ⟨20, 5, 3⟩

/-- Every knob is clamped: an extreme degrades to the nearest valid bound. -/
def AutonomyConfig.deserialize (wire : AutonomyWire) : AutonomyConfig where
  shadowMinCycles := min (max (wire.shadowMinCycles.getD 10) 1) 1000
  rungCleanCycles := min (max (wire.rungCleanCycles.getD 20) 1) 10000
  budgets := wire.budgets.getD .default

/-- The gate signals of one tick. -/
structure CycleSignals where
  ceiling : AutonomyMode
  providerReady : Bool
  cloudPaired : Bool
  safeModeActive : Bool
  openCriticalIncidents : Nat
  liveEnvironment : Bool
  failedValidation : Bool
  deriving DecidableEq

/-- The gate evidence a clean cycle shows. -/
def CycleSignals.clean (signals : CycleSignals) : Bool :=
  signals.providerReady && signals.cloudPaired && !signals.safeModeActive &&
    signals.openCriticalIncidents == 0 && !signals.failedValidation

/-- The signals of a healthy, paired host. -/
def CycleSignals.healthy (ceiling : AutonomyMode) : CycleSignals where
  ceiling
  providerReady := true
  cloudPaired := true
  safeModeActive := false
  openCriticalIncidents := 0
  liveEnvironment := true
  failedValidation := false

/-- A change of the rung, as the ledger trace and the event record it. -/
structure RungRecord where
  source : AutonomyMode
  target : AutonomyMode
  reason : String
  phase : AssimilationPhase
  deriving DecidableEq

namespace AutonomyState

/-- Moves the earned rung and records it; the evidence restarts at every rung. -/
def transition (state : AutonomyState) (target : AutonomyMode) (reason : String) :
    AutonomyState × List RungRecord :=
  if state.earned = target then (state, [])
  else
    ({ state with earned := target, validatedActionsSinceRung := 0 },
      [⟨state.earned, target, reason, state.phase⟩])

/-- The state under the lock, whether the call changed it, and what it recorded. -/
structure Tick where
  state : AutonomyState
  changed : Bool
  records : List RungRecord

/-- The first half of a tick: safe mode drops the rung to L0, a degraded provider walks it
down one rung. -/
def revoke (state : AutonomyState) (signals : CycleSignals) : Tick :=
  if signals.safeModeActive && decide (l0Observe.rank < state.earned.rank) then
    let (state, records) := state.transition l0Observe "safe_mode"
    ⟨{ state with rungCleanCycles := 0 }, true, records⟩
  else if !signals.providerReady && decide (l0Observe.rank < state.earned.rank) then
    let (state, records) := state.transition state.earned.demoteRung "provider_degraded"
    ⟨{ state with rungCleanCycles := 0 }, true, records⟩
  else ⟨state, false, []⟩

/-- A clean cycle in the shadow window. -/
def shadowCycle (config : AutonomyConfig) (state : AutonomyState) : Tick :=
  let cycles := saturatingAdd state.shadowCleanCycles 1
  if config.shadowMinCycles ≤ cycles then
    let (state, records) :=
      { state with phase := .earned, shadowCleanCycles := 0, rungCleanCycles := 0 }.transition
        l2Recommend "shadow_window"
    ⟨state, true, records⟩
  else ⟨{ state with shadowCleanCycles := cycles }, true, []⟩

/-- Whether the gate of the rung `next` is open after `cycles` clean cycles. Only rungs
above L2 need validated work: at L2 nothing executes. -/
def gateOpen (config : AutonomyConfig) (signals : CycleSignals) (state : AutonomyState)
    (cycles : Nat) (next : AutonomyMode) : Bool :=
  let needsValidatedWork := decide (l2Recommend.rank < next.rank)
  decide (config.rungCleanCycles ≤ cycles) &&
    (decide (1 ≤ state.validatedActionsSinceRung) || !needsValidatedWork) &&
    decide (next.rank ≤ signals.ceiling.rank)

/-- A clean cycle at an earned rung. -/
def earnedCycle (config : AutonomyConfig) (signals : CycleSignals) (state : AutonomyState) : Tick :=
  let cycles := saturatingAdd state.rungCleanCycles 1
  match state.earned.nextRung with
  | some next =>
      if gateOpen config signals state cycles next then
        let (state, records) := { state with rungCleanCycles := 0 }.transition next "clean_cycles"
        ⟨state, true, records⟩
      else ⟨{ state with rungCleanCycles := cycles }, true, []⟩
  | none => ⟨{ state with rungCleanCycles := cycles }, true, []⟩

/-- The second half of a tick: a clean cycle counts towards the next gate, any other one
restarts the counters. -/
def earn (config : AutonomyConfig) (signals : CycleSignals) (state : AutonomyState) : Tick :=
  if signals.clean then
    match state.phase with
    | .mapping =>
        if signals.liveEnvironment then
          ⟨{ state with phase := .shadow, shadowCleanCycles := 0 }, true, []⟩
        else ⟨state, false, []⟩
    | .shadow => shadowCycle config state
    | .earned => earnedCycle config signals state
  else
    ⟨{ state with shadowCleanCycles := 0, rungCleanCycles := 0 },
      state.shadowCleanCycles != 0 || state.rungCleanCycles != 0, []⟩

/-- One brain tick. Revocation runs before earning. -/
def onCycle (config : AutonomyConfig) (signals : CycleSignals) (state : AutonomyState) : Tick :=
  let revoked := state.revoke signals
  let earned := revoked.state.earn config signals
  ⟨earned.state, revoked.changed || earned.changed, revoked.records ++ earned.records⟩

/-- A failed validation costs one rung. -/
def onValidationFailed (state : AutonomyState) : Tick :=
  if l0Observe.rank < state.earned.rank then
    let (state, records) := state.transition state.earned.demoteRung "failed_validation"
    ⟨{ state with rungCleanCycles := 0 }, true, records⟩
  else ⟨state, false, []⟩

/-- The evidence feed of a finished run. -/
def recordValidatedExecutions (count : Nat) (state : AutonomyState) : Tick :=
  if count = 0 then ⟨state, false, []⟩
  else
    ⟨{ state with
        validatedActionsSinceRung := saturatingAdd state.validatedActionsSinceRung count },
      true, []⟩

end AutonomyState

/-! ### The manager and its repository -/

/-- The machine of one daemon, and what the repository holds of it. -/
structure AutonomyManager where
  environmentId : EnvironmentId
  config : AutonomyConfig
  stored : Option AutonomyState
  state : AutonomyState
  ledger : List RungRecord

namespace AutonomyManager

/-- The effective level at a ceiling. -/
def effective (manager : AutonomyManager) (ceiling : AutonomyMode) : AutonomyMode :=
  ceiling.lowerOf manager.state.earned

/-- Writes the state; a failed write leaves the repository as it was. -/
def persist (manager : AutonomyManager) (wrote : Bool) : AutonomyManager :=
  if wrote then { manager with stored := some manager.state } else manager

/-- Ends a call: the new state and its records, persisted if the call changed anything. -/
def commit (manager : AutonomyManager) (tick : AutonomyState.Tick) (wrote : Bool) :
    AutonomyManager :=
  let manager := { manager with state := tick.state, ledger := manager.ledger ++ tick.records }
  if tick.changed then manager.persist wrote else manager

/-- A machine in the fresh state over a repository that holds `stored`. -/
def fresh (environmentId : EnvironmentId) (config : AutonomyConfig)
    (stored : Option AutonomyState) : AutonomyManager :=
  { environmentId, config, stored, state := .fresh environmentId, ledger := [] }

/-- The start of a daemon over a repository that holds `stored`: `read` says whether it
can be read. Nothing stored, a foreign environment and an unreadable store all start fresh,
and a fresh start is written at once. -/
def load (environmentId : EnvironmentId) (config : AutonomyConfig)
    (stored : Option AutonomyState) (read wrote : Bool) : AutonomyManager :=
  let fresh := fresh environmentId config stored
  match read, stored with
  | true, some persisted =>
      if persisted.environmentId = environmentId then { fresh with state := persisted }
      else fresh.persist wrote
  | _, _ => fresh.persist wrote

def onCycle (manager : AutonomyManager) (signals : CycleSignals) (wrote : Bool) :
    AutonomyManager :=
  manager.commit (manager.state.onCycle manager.config signals) wrote

def onValidationFailed (manager : AutonomyManager) (wrote : Bool) : AutonomyManager :=
  manager.commit manager.state.onValidationFailed wrote

def recordValidatedExecutions (manager : AutonomyManager) (count : Nat) (wrote : Bool) :
    AutonomyManager :=
  manager.commit (manager.state.recordValidatedExecutions count) wrote

/-- A refused reservation is not written, though it may have rolled windows over. -/
def reserve (manager : AutonomyManager) (risk : RiskClass) (scope : BlastRadius)
    (now : DateTime) (wrote : Bool) : Bool × AutonomyManager :=
  let (reserved, budget) := manager.state.budget.reserve manager.config.budgets risk scope now
  (reserved, manager.commit ⟨{ manager.state with budget }, reserved, []⟩ wrote)

def refund (manager : AutonomyManager) (risk : RiskClass) (scope : BlastRadius)
    (now : DateTime) (wrote : Bool) : AutonomyManager :=
  let budget := manager.state.budget.refund risk scope now
  manager.commit ⟨{ manager.state with budget }, true, []⟩ wrote

end AutonomyManager

/-- A call on the machine. -/
inductive AutonomyCall
  | onCycle (signals : CycleSignals)
  | onValidationFailed
  | recordValidatedExecutions (count : Nat)
  | reserve (risk : RiskClass) (scope : BlastRadius) (now : DateTime)
  | refund (risk : RiskClass) (scope : BlastRadius) (now : DateTime)
  deriving DecidableEq

namespace AutonomyManager

/-- One call; `wrote` is whether its write, if it makes one, succeeds. -/
def call (manager : AutonomyManager) (wrote : Bool) : AutonomyCall → AutonomyManager
  | .onCycle signals => manager.onCycle signals wrote
  | .onValidationFailed => manager.onValidationFailed wrote
  | .recordValidatedExecutions count => manager.recordValidatedExecutions count wrote
  | .reserve risk scope now => (manager.reserve risk scope now wrote).2
  | .refund risk scope now => manager.refund risk scope now wrote

/-- The machine after a sequence of calls. -/
def after (manager : AutonomyManager) (calls : List (AutonomyCall × Bool)) : AutonomyManager :=
  calls.foldl (fun manager c => manager.call c.2 c.1) manager

end AutonomyManager

/-! ### What a tick can do -/

namespace AutonomyState

/-- What one tick makes of a state. -/
inductive CycleRun (config : AutonomyConfig) (signals : CycleSignals) (state : AutonomyState) :
    AutonomyState → Prop
  | safeMode (hsafe : signals.safeModeActive = true) (hrung : 0 < state.earned.rank) :
      CycleRun config signals state
        { state with
          earned := l0Observe
          validatedActionsSinceRung := 0
          shadowCleanCycles := 0
          rungCleanCycles := 0 }
  | degraded (hsafe : signals.safeModeActive = false) (hprovider : signals.providerReady = false)
      (hrung : 0 < state.earned.rank) :
      CycleRun config signals state
        { state with
          earned := state.earned.demoteRung
          validatedActionsSinceRung := 0
          shadowCleanCycles := 0
          rungCleanCycles := 0 }
  | unclean (hclean : signals.clean = false)
      (hkept : state.earned.rank = 0 ∨
        signals.safeModeActive = false ∧ signals.providerReady = true) :
      CycleRun config signals state { state with shadowCleanCycles := 0, rungCleanCycles := 0 }
  | unmapped (hclean : signals.clean = true) (hphase : state.phase = .mapping) :
      CycleRun config signals state state
  | mapped (hclean : signals.clean = true) (hphase : state.phase = .mapping) :
      CycleRun config signals state { state with phase := .shadow, shadowCleanCycles := 0 }
  | shadowed (hclean : signals.clean = true) (hphase : state.phase = .shadow) :
      CycleRun config signals state
        { state with shadowCleanCycles := saturatingAdd state.shadowCleanCycles 1 }
  | entered (hclean : signals.clean = true) (hphase : state.phase = .shadow) :
      CycleRun config signals state
        ({ state with phase := .earned, shadowCleanCycles := 0, rungCleanCycles := 0 }.transition
          l2Recommend "shadow_window").1
  | counted (hclean : signals.clean = true) (hphase : state.phase = .earned) :
      CycleRun config signals state
        { state with rungCleanCycles := saturatingAdd state.rungCleanCycles 1 }
  | promoted {next : AutonomyMode} (hclean : signals.clean = true) (hphase : state.phase = .earned)
      (hnext : state.earned.nextRung = some next)
      (hgate : gateOpen config signals state (saturatingAdd state.rungCleanCycles 1) next = true) :
      CycleRun config signals state
        { state with earned := next, validatedActionsSinceRung := 0, rungCleanCycles := 0 }

variable {config : AutonomyConfig} {signals : CycleSignals} {state state' : AutonomyState}

theorem transition_of_ne {target : AutonomyMode} {reason : String} (h : state.earned ≠ target) :
    state.transition target reason =
      ({ state with earned := target, validatedActionsSinceRung := 0 },
        [⟨state.earned, target, reason, state.phase⟩]) := by
  unfold transition
  rw [if_neg h]

/-- A clean cycle revokes nothing. -/
theorem revoke_of_clean (h : signals.clean = true) : state.revoke signals = ⟨state, false, []⟩ := by
  simp only [CycleSignals.clean, Bool.and_eq_true, Bool.not_eq_true'] at h
  obtain ⟨⟨⟨⟨hprovider, -⟩, hsafe⟩, -⟩, -⟩ := h
  unfold revoke
  simp [hsafe, hprovider]

theorem earn_inv (h : signals.clean = true) :
    CycleRun config signals state (state.earn config signals).state := by
  unfold earn
  rw [if_pos h]
  cases hphase : state.phase with
  | mapping =>
      dsimp only
      by_cases hlive : signals.liveEnvironment = true
      · rw [if_pos hlive]
        exact .mapped h hphase
      · rw [if_neg hlive]
        exact .unmapped h hphase
  | shadow =>
      simp only [shadowCycle]
      by_cases hmin : config.shadowMinCycles ≤ saturatingAdd state.shadowCleanCycles 1
      · rw [if_pos hmin]
        exact .entered h hphase
      · rw [if_neg hmin]
        exact .shadowed h hphase
  | earned =>
      simp only [earnedCycle]
      cases hnext : state.earned.nextRung with
      | none => exact .counted h hphase
      | some next =>
          dsimp only
          by_cases hgate :
              gateOpen config signals state (saturatingAdd state.rungCleanCycles 1) next = true
          · rw [if_pos hgate]
            have hne : { state with rungCleanCycles := 0 }.earned ≠ next := by
              intro heq
              have hlt := (isRung_nextRung hnext).2
              rw [show state.earned = next from heq] at hlt
              exact Nat.lt_irrefl _ hlt
            rw [transition_of_ne hne]
            exact .promoted h hphase hnext hgate
          · rw [if_neg hgate]
            exact .counted h hphase

/-- Every tick is one of the listed kinds. -/
theorem onCycle_inv : CycleRun config signals state (state.onCycle config signals).state := by
  by_cases hclean : signals.clean = true
  · simp only [onCycle, revoke_of_clean hclean]
    exact earn_inv hclean
  · rw [Bool.not_eq_true] at hclean
    simp only [onCycle, earn, hclean, Bool.false_eq_true, if_false, revoke]
    by_cases hrung : 0 < state.earned.rank
    · have hne : state.earned ≠ l0Observe := by
        intro heq
        rw [heq] at hrung
        exact Nat.lt_irrefl _ hrung
      by_cases hsafe : signals.safeModeActive = true
      · rw [if_pos (by simp [hsafe, hrung]), transition_of_ne hne]
        exact .safeMode hsafe hrung
      · rw [if_neg (by simp [hsafe])]
        rw [Bool.not_eq_true] at hsafe
        by_cases hprovider : signals.providerReady = true
        · rw [if_neg (by simp [hprovider])]
          exact .unclean hclean (.inr ⟨hsafe, hprovider⟩)
        · rw [Bool.not_eq_true] at hprovider
          have hdown : state.earned ≠ state.earned.demoteRung := by
            intro heq
            have hlt := demoteRung_rank_lt hrung
            rw [← heq] at hlt
            exact Nat.lt_irrefl _ hlt
          rw [if_pos (by simp [hprovider, hrung]), transition_of_ne hdown]
          exact .degraded hsafe hprovider hrung
    · -- at the floor there is nothing to revoke
      rw [if_neg (by simp [hrung]), if_neg (by simp [hrung])]
      exact .unclean hclean (.inl (Nat.eq_zero_of_not_pos hrung))

/-! ### The invariant -/

/-- What holds of the state at all times: the earned level is a rung, and above the floor
the phase is the last one. -/
structure Sound (state : AutonomyState) : Prop where
  rung : state.earned.IsRung
  phase : 0 < state.earned.rank → state.phase = .earned

theorem Sound.fresh (environmentId : EnvironmentId) : Sound (.fresh environmentId) :=
  ⟨isRung_l0Observe, fun h => absurd h (Nat.lt_irrefl 0)⟩

/-- Before the last phase the rung is the floor. -/
theorem Sound.floor (h : state.Sound) (hphase : state.phase ≠ .earned) :
    state.earned = l0Observe := by
  apply rank_eq_zero.mp
  by_contra hrung
  exact hphase (h.phase (Nat.pos_of_ne_zero hrung))

/-- The step out of the shadow window goes from the floor to the first rung. -/
theorem Sound.entered (h : state.Sound) (hphase : state.phase = .shadow) :
    ({ state with phase := .earned, shadowCleanCycles := 0, rungCleanCycles := 0 }.transition
      l2Recommend "shadow_window").1 =
    { state with
      phase := .earned
      earned := l2Recommend
      shadowCleanCycles := 0
      rungCleanCycles := 0
      validatedActionsSinceRung := 0 } := by
  have hfloor : state.earned = l0Observe := h.floor (by rw [hphase]; decide)
  rw [transition_of_ne (by rw [hfloor]; decide)]

/-- How far one tick moves a state: the phase does not go back, the rung climbs one rung at
most, and falls to the floor or by one rung. -/
structure Ladder (state state' : AutonomyState) : Prop where
  phase : state.phase.index ≤ state'.phase.index
  up : state.earned.rank < state'.earned.rank → state.earned.nextRung = some state'.earned
  down : state'.earned.rank < state.earned.rank →
    state'.earned = l0Observe ∨ state'.earned = state.earned.demoteRung

theorem Ladder.of_earned_eq (hphase : state.phase.index ≤ state'.phase.index)
    (h : state'.earned = state.earned) : Ladder state state' := by
  refine ⟨hphase, ?_, ?_⟩
  · intro hup
    rw [h] at hup
    exact absurd hup (Nat.lt_irrefl _)
  · intro hdown
    rw [h] at hdown
    exact absurd hdown (Nat.lt_irrefl _)

theorem CycleRun.sound (hrun : CycleRun config signals state state') (h : state.Sound) :
    state'.Sound ∧ Ladder state state' := by
  cases hrun with
  | safeMode hsafe hrung =>
      refine ⟨⟨isRung_l0Observe, fun hpos => absurd hpos (Nat.lt_irrefl 0)⟩, Nat.le_refl _, ?_, ?_⟩
      · intro hup
        exact absurd hup (Nat.not_lt_zero _)
      · intro _
        exact .inl rfl
  | degraded hsafe hprovider hrung =>
      refine ⟨⟨isRung_demoteRung _, fun _ => h.phase hrung⟩, Nat.le_refl _, ?_, ?_⟩
      · intro hup
        exact absurd hup (Nat.lt_asymm (demoteRung_rank_lt hrung))
      · intro _
        exact .inr rfl
  | unclean hclean hkept => exact ⟨⟨h.rung, h.phase⟩, .of_earned_eq (Nat.le_refl _) rfl⟩
  | unmapped hclean hphase => exact ⟨h, .of_earned_eq (Nat.le_refl _) rfl⟩
  | mapped hclean hphase =>
      have hfloor : state.earned = l0Observe := h.floor (by rw [hphase]; decide)
      refine ⟨⟨h.rung, ?_⟩, .of_earned_eq ?_ rfl⟩
      · intro hpos
        rw [show state.earned = l0Observe from hfloor] at hpos
        exact absurd hpos (Nat.lt_irrefl 0)
      · rw [hphase]
        exact Nat.zero_le _
  | shadowed hclean hphase => exact ⟨⟨h.rung, h.phase⟩, .of_earned_eq (Nat.le_refl _) rfl⟩
  | entered hclean hphase =>
      have hfloor : state.earned = l0Observe := h.floor (by rw [hphase]; decide)
      rw [h.entered hphase]
      refine ⟨⟨isRung_l2Recommend, fun _ => rfl⟩, ?_, ?_, ?_⟩
      · rw [hphase]
        exact Nat.le_succ _
      · intro _
        rw [hfloor]
        rfl
      · intro hdown
        rw [hfloor] at hdown
        exact absurd hdown (Nat.not_lt_zero _)
  | counted hclean hphase => exact ⟨⟨h.rung, h.phase⟩, .of_earned_eq (Nat.le_refl _) rfl⟩
  | promoted hclean hphase hnext hgate =>
      obtain ⟨hrung, hlt⟩ := isRung_nextRung hnext
      exact ⟨⟨hrung, fun _ => hphase⟩, Nat.le_refl _, fun _ => hnext,
        fun hdown => absurd hdown (Nat.lt_asymm hlt)⟩

/-- Safe mode leaves the floor. -/
theorem CycleRun.safe (hrun : CycleRun config signals state state')
    (hsafe : signals.safeModeActive = true) : state'.earned = l0Observe := by
  have hunclean : signals.clean = false := by simp [CycleSignals.clean, hsafe]
  cases hrun with
  | safeMode _ _ => rfl
  | degraded hcalm _ _ => exact absurd (hsafe.symm.trans hcalm) (by decide)
  | unclean _ hkept =>
      rcases hkept with hfloor | hcalm
      · exact rank_eq_zero.mp hfloor
      · exact absurd (hsafe.symm.trans hcalm.1) (by decide)
  | unmapped hclean _ => exact absurd (hclean.symm.trans hunclean) (by decide)
  | mapped hclean _ => exact absurd (hclean.symm.trans hunclean) (by decide)
  | shadowed hclean _ => exact absurd (hclean.symm.trans hunclean) (by decide)
  | entered hclean _ => exact absurd (hclean.symm.trans hunclean) (by decide)
  | counted hclean _ => exact absurd (hclean.symm.trans hunclean) (by decide)
  | promoted hclean _ _ _ => exact absurd (hclean.symm.trans hunclean) (by decide)

/-- The state half of a call. -/
def step (config : AutonomyConfig) (state : AutonomyState) : AutonomyCall → AutonomyState
  | .onCycle signals => (state.onCycle config signals).state
  | .onValidationFailed => state.onValidationFailed.state
  | .recordValidatedExecutions count => (state.recordValidatedExecutions count).state
  | .reserve risk scope now =>
      { state with budget := (state.budget.reserve config.budgets risk scope now).2 }
  | .refund risk scope now => { state with budget := state.budget.refund risk scope now }

/-- A failed validation above the floor moves the rung down and restarts the evidence. -/
theorem onValidationFailed_of_pos (h : 0 < state.earned.rank) :
    state.onValidationFailed.state =
      { state with
        earned := state.earned.demoteRung
        validatedActionsSinceRung := 0
        rungCleanCycles := 0 } := by
  have hne : state.earned ≠ state.earned.demoteRung := by
    intro heq
    have hlt := demoteRung_rank_lt h
    rw [← heq] at hlt
    exact Nat.lt_irrefl _ hlt
  unfold onValidationFailed
  rw [if_pos (by simpa using h), transition_of_ne hne]

theorem onValidationFailed_of_floor (h : state.earned.rank = 0) :
    state.onValidationFailed.state = state := by
  unfold onValidationFailed
  rw [if_neg (by simp [h])]

theorem recordValidatedExecutions_state (count : Nat) :
    (state.recordValidatedExecutions count).state =
      { state with
        validatedActionsSinceRung :=
          if count = 0 then state.validatedActionsSinceRung
          else saturatingAdd state.validatedActionsSinceRung count } := by
  unfold recordValidatedExecutions
  by_cases h : count = 0
  · rw [if_pos h, if_pos h]
  · rw [if_neg h, if_neg h]

theorem Sound.step (h : state.Sound) (c : AutonomyCall) :
    (state.step config c).Sound ∧ state.phase.index ≤ (state.step config c).phase.index := by
  cases c with
  | onCycle signals =>
      obtain ⟨hsound, hladder⟩ := CycleRun.sound onCycle_inv h
      exact ⟨hsound, hladder.phase⟩
  | onValidationFailed =>
      show state.onValidationFailed.state.Sound ∧ _ ≤ state.onValidationFailed.state.phase.index
      by_cases hrung : 0 < state.earned.rank
      · rw [onValidationFailed_of_pos hrung]
        exact ⟨⟨isRung_demoteRung _, fun _ => h.phase hrung⟩, Nat.le_refl _⟩
      · rw [onValidationFailed_of_floor (Nat.eq_zero_of_not_pos hrung)]
        exact ⟨h, Nat.le_refl _⟩
  | recordValidatedExecutions count =>
      show (state.recordValidatedExecutions count).state.Sound ∧
        _ ≤ (state.recordValidatedExecutions count).state.phase.index
      rw [recordValidatedExecutions_state]
      exact ⟨⟨h.rung, h.phase⟩, Nat.le_refl _⟩
  | reserve risk scope now => exact ⟨⟨h.rung, h.phase⟩, Nat.le_refl _⟩
  | refund risk scope now => exact ⟨⟨h.rung, h.phase⟩, Nat.le_refl _⟩

end AutonomyState

namespace AutonomyManager

open AutonomyState (Sound Ladder CycleRun onCycle_inv)

variable {manager : AutonomyManager} {tick : AutonomyState.Tick} {wrote : Bool}

@[simp] theorem persist_state : (manager.persist wrote).state = manager.state := by
  unfold persist
  split_ifs <;> rfl

@[simp] theorem commit_state : (manager.commit tick wrote).state = tick.state := by
  unfold commit
  split_ifs
  · rw [persist_state]
  · rfl

@[simp] theorem commit_config : (manager.commit tick wrote).config = manager.config := by
  unfold commit persist
  split_ifs <;> rfl

@[simp] theorem commit_environmentId :
    (manager.commit tick wrote).environmentId = manager.environmentId := by
  unfold commit persist
  split_ifs <;> rfl

/-- Writes do not change what a call does in memory. -/
@[simp] theorem call_state (c : AutonomyCall) :
    (manager.call wrote c).state = manager.state.step manager.config c := by
  cases c <;> simp only [call, onCycle, onValidationFailed, recordValidatedExecutions, reserve,
    refund, commit_state, AutonomyState.step]

@[simp] theorem call_config (c : AutonomyCall) :
    (manager.call wrote c).config = manager.config := by
  cases c <;> simp only [call, onCycle, onValidationFailed, recordValidatedExecutions, reserve,
    refund, commit_config]

@[simp] theorem call_environmentId (c : AutonomyCall) :
    (manager.call wrote c).environmentId = manager.environmentId := by
  cases c <;> simp only [call, onCycle, onValidationFailed, recordValidatedExecutions, reserve,
    refund, commit_environmentId]

theorem after_sound (h : manager.state.Sound) (calls : List (AutonomyCall × Bool)) :
    (manager.after calls).state.Sound := by
  induction calls generalizing manager with
  | nil => exact h
  | cons c calls ih =>
      apply ih
      rw [call_state]
      exact (h.step c.1).1

/-- Whatever is called on a machine that started fresh, its earned level is a rung, is the
floor before the last phase, moves one rung at a tick or drops to the floor, is the floor
after a tick in safe mode, and bounds the effective level together with the ceiling; the
phase never goes back. -/
theorem earned_autonomy_invariant (environmentId : EnvironmentId) (config : AutonomyConfig)
    (stored : Option AutonomyState) (calls : List (AutonomyCall × Bool)) :
    let manager := (fresh environmentId config stored).after calls
    manager.state.earned ∈ [l0Observe, l2Recommend, l3Assisted, l4Autonomous] ∧
    (l0Observe.rank < manager.state.earned.rank → manager.state.phase = .earned) ∧
    (∀ c wrote, manager.state.phase.index ≤ (manager.call wrote c).state.phase.index) ∧
    (∀ signals wrote,
      let ticked := manager.onCycle signals wrote
      (manager.state.earned.rank < ticked.state.earned.rank →
        manager.state.earned.nextRung = some ticked.state.earned) ∧
      (ticked.state.earned.rank < manager.state.earned.rank →
        ticked.state.earned = l0Observe ∨
          ticked.state.earned = manager.state.earned.demoteRung) ∧
      (signals.safeModeActive = true → ticked.state.earned = l0Observe)) ∧
    ∀ ceiling,
      (manager.effective ceiling).rank ≤ ceiling.rank ∧
      (manager.effective ceiling).rank ≤ manager.state.earned.rank := by
  intro manager
  have hsound : manager.state.Sound := after_sound (Sound.fresh environmentId) calls
  refine ⟨isRung_iff_mem.mp hsound.rung, hsound.phase, ?_, ?_, ?_⟩
  · intro c wrote
    rw [call_state]
    exact (hsound.step c).2
  · intro signals wrote
    dsimp only [onCycle]
    rw [commit_state]
    have hrun : CycleRun manager.config signals manager.state _ := onCycle_inv
    obtain ⟨-, hladder⟩ := hrun.sound hsound
    exact ⟨hladder.up, hladder.down, hrun.safe⟩
  · intro ceiling
    rw [effective, lowerOf_rank]
    exact ⟨Nat.min_le_left _ _, Nat.min_le_right _ _⟩

end AutonomyManager
end Argus
