import Argus.Daemon.Autonomy

/-!
# Restarting the autonomy machine

A call writes the state to the repository when it changed something, and a failed write is
logged and forgotten. A restart loads what the repository holds. `AutonomyEvent` puts both
in one life of a daemon, with the outcome of every read and write.

The repository falls behind the memory when a write fails. That costs authority if the
write was of a promotion or a refund, and gives authority back if it was of a demotion or a
reservation (`Binding`). `restart_keeps_authority` is for the lives in which binding writes
succeed and an unreadable store is found with nothing counted and overwritten at once;
`demotion_undone_by_restart` is one in which they do not.
-/

namespace Argus

open AutonomyMode AutonomyState
open Window (rolled rolled_roll_le rolled_give_le)

/-- What happens to an autonomy machine, with the outcome of its reads and writes. -/
inductive AutonomyEvent
  | call (c : AutonomyCall) (wrote : Bool)
  | restart (now : DateTime) (read wrote : Bool)

namespace AutonomyManager

/-- A restart loads the machine over the repository the old one leaves. -/
def handle (manager : AutonomyManager) : AutonomyEvent → AutonomyManager
  | .call c wrote => manager.call wrote c
  | .restart _ read wrote =>
      load manager.environmentId manager.config manager.stored read wrote

def life (manager : AutonomyManager) (events : List AutonomyEvent) : AutonomyManager :=
  events.foldl handle manager

end AutonomyManager

/-- A restart from `before` to `after` gave no authority back: the rung is not above the one
held, and every unit counted in the windows of `now` is still counted. -/
def KeepsAuthority (before after : AutonomyState) (now : DateTime) : Prop :=
  after.earned.rank ≤ before.earned.rank ∧
    ∀ cap : Cap, rolled (cap.window before.budget) (cap.anchor now) ≤
      rolled (cap.window after.budget) (cap.anchor now)

/-- The calls that lower authority: a revocation or a failed validation above the floor, and
a reservation that takes a unit. -/
def Binding (config : AutonomyConfig) (state : AutonomyState) : AutonomyCall → Prop
  | .onCycle signals =>
      0 < state.earned.rank ∧ (signals.safeModeActive = true ∨ signals.providerReady = false)
  | .onValidationFailed => 0 < state.earned.rank
  | .reserve risk scope now =>
      (state.budget.reserve config.budgets risk scope now).1 = true ∧
        ∃ cap : Cap, cap.applies risk scope = true
  | _ => False

/-- The write of a binding call succeeds; a store that cannot be read at a restart is found
with nothing counted in the current windows, and the fresh state is written over it. -/
def Durable (manager : AutonomyManager) : AutonomyEvent → Prop
  | .call c wrote => Binding manager.config manager.state c → wrote = true
  | .restart now read wrote =>
      read = true ∨ wrote = true ∧
        ∀ cap : Cap, rolled (cap.window manager.state.budget) (cap.anchor now) = 0

/-- A life all events of which are durable. -/
def DurableLife (manager : AutonomyManager) : List AutonomyEvent → Prop
  | [] => True
  | event :: events => Durable manager event ∧ DurableLife (manager.handle event) events

/-! ### What a call that does not bind does -/

namespace AutonomyState

variable {config : AutonomyConfig} {signals : CycleSignals} {state state' : AutonomyState}
variable {c : AutonomyCall}

/-- A tick leaves the environment and the budget alone. -/
theorem CycleRun.frame (hrun : CycleRun config signals state state') :
    state'.environmentId = state.environmentId ∧ state'.budget = state.budget := by
  cases hrun with
  | entered _ _ =>
      unfold transition
      split_ifs <;> exact ⟨rfl, rfl⟩
  | _ => exact ⟨rfl, rfl⟩

theorem onValidationFailed_frame :
    state.onValidationFailed.state.environmentId = state.environmentId ∧
      state.onValidationFailed.state.budget = state.budget := by
  by_cases h : 0 < state.earned.rank
  · rw [onValidationFailed_of_pos h]
    exact ⟨rfl, rfl⟩
  · rw [onValidationFailed_of_floor (Nat.eq_zero_of_not_pos h)]
    exact ⟨rfl, rfl⟩

theorem step_environmentId : (state.step config c).environmentId = state.environmentId := by
  cases c with
  | onCycle signals => exact (CycleRun.frame onCycle_inv).1
  | onValidationFailed => exact onValidationFailed_frame.1
  | recordValidatedExecutions count => rw [step, recordValidatedExecutions_state]
  | reserve risk scope now => rfl
  | refund risk scope now => rfl

theorem step_rank_le (hsound : state.Sound) (h : ¬ Binding config state c) :
    state.earned.rank ≤ (state.step config c).earned.rank := by
  cases c with
  | onCycle signals =>
      have hrun : CycleRun config signals state _ := onCycle_inv
      simp only [step]
      generalize (state.onCycle config signals).state = state' at hrun ⊢
      cases hrun with
      | safeMode hsafe hrung => exact absurd ⟨hrung, .inl hsafe⟩ h
      | degraded _ hprovider hrung => exact absurd ⟨hrung, .inr hprovider⟩ h
      | entered _ hphase =>
          rw [hsound.entered hphase, hsound.floor (by rw [hphase]; decide)]
          exact Nat.zero_le _
      | promoted _ _ hnext _ => exact Nat.le_of_lt (isRung_nextRung hnext).2
      | _ => exact Nat.le_refl _
  | onValidationFailed =>
      rw [step, onValidationFailed_of_floor (Nat.eq_zero_of_not_pos h)]
  | recordValidatedExecutions count => rw [step, recordValidatedExecutions_state]
  | reserve risk scope now => exact Nat.le_refl _
  | refund risk scope now => exact Nat.le_refl _

theorem step_rolled_le (h : ¬ Binding config state c) (cap : Cap) (a : Int) :
    rolled (cap.window (state.step config c).budget) a ≤ rolled (cap.window state.budget) a := by
  cases c with
  | onCycle signals =>
      rw [step, (CycleRun.frame onCycle_inv).2]
  | onValidationFailed => rw [step, onValidationFailed_frame.2]
  | recordValidatedExecutions count => rw [step, recordValidatedExecutions_state]
  | reserve risk scope now =>
      simp only [step]
      cases hgrant : (state.budget.reserve config.budgets risk scope now).1 with
      | true =>
          -- a reservation that takes no unit applies to no window
          have happlies : cap.applies risk scope ≠ true := fun happlies =>
            h ⟨hgrant, cap, happlies⟩
          rw [(BudgetWindows.reserve_granted cap hgrant).2, if_neg happlies]
      | false =>
          rcases BudgetWindows.reserve_refused cap hgrant with hsame | ⟨-, hrolled⟩
          · rw [hsame]
          · rw [hrolled]
            exact rolled_roll_le _ _ _
  | refund risk scope now =>
      simp only [step, BudgetWindows.refund_window]
      by_cases happlies : cap.applies risk scope = true
      · rw [if_pos happlies]
        exact rolled_give_le _ _ _
      · rw [if_neg happlies]

/-- A revocation is a change, and so is a failed validation above the floor. -/
theorem onCycle_changed (hrung : 0 < state.earned.rank)
    (h : signals.safeModeActive = true ∨ signals.providerReady = false) :
    (state.onCycle config signals).changed = true := by
  have hrevoked : (state.revoke signals).changed = true := by
    unfold revoke
    by_cases hsafe : signals.safeModeActive = true
    · rw [if_pos (by simp [hsafe, hrung])]
    · have hprovider := h.resolve_left hsafe
      rw [if_neg (by simp [hsafe]), if_pos (by simp [hprovider, hrung])]
  simp [onCycle, hrevoked]

theorem onValidationFailed_changed (h : 0 < state.earned.rank) :
    state.onValidationFailed.changed = true := by
  unfold onValidationFailed
  rw [if_pos (by simpa using h)]

end AutonomyState

/-! ### The repository is never ahead -/

namespace AutonomyManager

variable {manager : AutonomyManager} {c : AutonomyCall} {wrote : Bool}

/-- The state a readable repository gives a restart. -/
def reload (manager : AutonomyManager) : AutonomyState :=
  match manager.stored with
  | some persisted =>
      if persisted.environmentId = manager.environmentId then persisted
      else .fresh manager.environmentId
  | none => .fresh manager.environmentId

theorem reload_of_stored (h : manager.stored = some manager.state)
    (hown : manager.state.environmentId = manager.environmentId) :
    manager.reload = manager.state := by
  unfold reload
  rw [h]
  exact if_pos hown

theorem reload_congr {manager' : AutonomyManager} (h : manager'.stored = manager.stored)
    (henv : manager'.environmentId = manager.environmentId) : manager'.reload = manager.reload := by
  unfold reload
  rw [h, henv]

/-- The repository holds no more authority than the memory. -/
structure Behind (manager : AutonomyManager) : Prop where
  own : manager.state.environmentId = manager.environmentId
  sound : manager.state.Sound
  storedOwn : manager.reload.environmentId = manager.environmentId
  storedSound : manager.reload.Sound
  rung : manager.reload.earned.rank ≤ manager.state.earned.rank
  budget : ∀ (cap : Cap) (a : Int),
    rolled (cap.window manager.state.budget) a ≤ rolled (cap.window manager.reload.budget) a

/-- A repository that holds the state in memory is not ahead of it. -/
theorem Behind.of_reload (h : manager.reload = manager.state)
    (hown : manager.state.environmentId = manager.environmentId)
    (hsound : manager.state.Sound) : manager.Behind := by
  refine ⟨hown, hsound, ?_, ?_, ?_, ?_⟩
  · rw [h, hown]
  · rw [h]
    exact hsound
  · rw [h]
  · intro cap a
    rw [h]

/-! #### Calls -/

theorem commit_stored (tick : AutonomyState.Tick) :
    (manager.commit tick wrote).stored = some (manager.commit tick wrote).state ∨
      (manager.commit tick wrote).stored = manager.stored ∧
        ¬ (tick.changed = true ∧ wrote = true) := by
  unfold commit persist
  cases hchanged : tick.changed with
  | false => exact .inr ⟨rfl, fun h => Bool.noConfusion h.1⟩
  | true =>
      cases wrote with
      | true => exact .inl rfl
      | false => exact .inr ⟨rfl, fun h => Bool.noConfusion h.2⟩

/-- A call that is not written binds nothing, when binding calls are. -/
theorem call_stored (h : Durable manager (.call c wrote)) :
    (manager.call wrote c).stored = some (manager.call wrote c).state ∨
      (manager.call wrote c).stored = manager.stored ∧
        ¬ Binding manager.config manager.state c := by
  have hlift {tick : AutonomyState.Tick}
      (hchanged : Binding manager.config manager.state c → tick.changed = true) :
      (manager.commit tick wrote).stored = some (manager.commit tick wrote).state ∨
        (manager.commit tick wrote).stored = manager.stored ∧
          ¬ Binding manager.config manager.state c := by
    rcases commit_stored tick with hwritten | ⟨hsame, hlost⟩
    · exact .inl hwritten
    · exact .inr ⟨hsame, fun hbinding => hlost ⟨hchanged hbinding, h hbinding⟩⟩
  cases c with
  | onCycle signals => exact hlift fun hbinding => onCycle_changed hbinding.1 hbinding.2
  | onValidationFailed => exact hlift onValidationFailed_changed
  | recordValidatedExecutions count => exact hlift False.elim
  | reserve risk scope now => exact hlift fun hbinding => hbinding.1
  | refund risk scope now => exact hlift False.elim

theorem Behind.call (h : manager.Behind) (hdurable : Durable manager (.call c wrote)) :
    (manager.call wrote c).Behind := by
  have hown : (manager.call wrote c).state.environmentId =
      (manager.call wrote c).environmentId := by
    rw [call_state, call_environmentId, step_environmentId, h.own]
  have hsound : (manager.call wrote c).state.Sound := by
    rw [call_state]
    exact (h.sound.step c).1
  rcases call_stored hdurable with hwritten | ⟨hsame, hfree⟩
  · exact .of_reload (reload_of_stored hwritten hown) hown hsound
  · have hreload : (manager.call wrote c).reload = manager.reload :=
      reload_congr hsame (call_environmentId c)
    refine ⟨hown, hsound, ?_, ?_, ?_, ?_⟩
    · rw [hreload, call_environmentId, h.storedOwn]
    · rw [hreload]
      exact h.storedSound
    · rw [hreload, call_state]
      exact h.rung.trans (step_rank_le h.sound hfree)
    · intro cap a
      rw [hreload, call_state]
      exact (step_rolled_le hfree cap a).trans (h.budget cap a)

/-! #### Restarts -/

/-- A readable repository gives its state back, and an unreadable one a fresh state. -/
theorem load_state (read : Bool) :
    (load manager.environmentId manager.config manager.stored read wrote).state =
      if read then manager.reload else .fresh manager.environmentId := by
  unfold load reload
  cases read with
  | false => exact persist_state
  | true =>
      cases hstored : manager.stored with
      | none => exact persist_state
      | some persisted =>
          by_cases hown : persisted.environmentId = manager.environmentId
          · simp [hown]
          · simp [hown, fresh]

/-- After a load the repository gives the loaded state back, unless it could not be read and
was not written. -/
theorem load_reload {read : Bool} (h : read = true ∨ wrote = true) :
    (load manager.environmentId manager.config manager.stored read wrote).reload =
      if read then manager.reload else .fresh manager.environmentId := by
  have hfresh : ((fresh manager.environmentId manager.config manager.stored).persist true).reload =
      .fresh manager.environmentId := if_pos rfl
  cases read with
  | false =>
      rcases h with h | h
      · exact Bool.noConfusion h
      · rw [h]
        exact hfresh
  | true =>
      simp only [load, reload, if_true]
      cases hstored : manager.stored with
      | none => cases wrote <;> simp [persist, fresh, AutonomyState.fresh]
      | some persisted =>
          by_cases hown : persisted.environmentId = manager.environmentId
          · simp [hown, fresh]
          · cases wrote <;> simp [hown, persist, fresh, AutonomyState.fresh]

theorem load_environmentId {environmentId : EnvironmentId} {config : AutonomyConfig}
    {stored : Option AutonomyState} {read : Bool} :
    (load environmentId config stored read wrote).environmentId = environmentId := by
  unfold load persist
  split <;> split_ifs <;> rfl

theorem Behind.restart {now : DateTime} {read : Bool} (h : manager.Behind)
    (hdurable : Durable manager (.restart now read wrote)) :
    (manager.handle (.restart now read wrote)).Behind := by
  have hkept : read = true ∨ wrote = true := hdurable.imp id And.left
  refine .of_reload ?_ ?_ ?_
  · rw [handle, load_reload hkept, load_state]
  · rw [handle, load_state, load_environmentId]
    cases read with
    | true => exact h.storedOwn
    | false => rfl
  · rw [handle, load_state]
    cases read with
    | true => exact h.storedSound
    | false => exact Sound.fresh _

theorem Behind.handle {event : AutonomyEvent} (h : manager.Behind)
    (hdurable : Durable manager event) : (manager.handle event).Behind := by
  cases event with
  | call c wrote => exact h.call hdurable
  | restart now read wrote => exact h.restart hdurable

theorem Behind.life {events : List AutonomyEvent} (h : manager.Behind)
    (hdurable : DurableLife manager events) : (manager.life events).Behind := by
  induction events generalizing manager with
  | nil => exact h
  | cons event events ih => exact ih (h.handle hdurable.1) hdurable.2

theorem DurableLife.append {events more : List AutonomyEvent}
    (h : DurableLife manager (events ++ more)) :
    DurableLife manager events ∧ DurableLife (manager.life events) more := by
  induction events generalizing manager with
  | nil => exact ⟨trivial, h⟩
  | cons event events ih =>
      obtain ⟨hlife, hmore⟩ := ih h.2
      exact ⟨⟨h.1, hlife⟩, hmore⟩

/-- The first start in an environment, over a repository with no state of it. -/
theorem Behind.load {environmentId : EnvironmentId} {config : AutonomyConfig}
    {stored : Option AutonomyState} (read : Bool)
    (hstored : ∀ persisted, stored = some persisted → persisted.environmentId ≠ environmentId) :
    (load environmentId config stored read wrote).Behind := by
  have hload : AutonomyManager.load environmentId config stored read wrote =
      (AutonomyManager.fresh environmentId config stored).persist wrote := by
    unfold AutonomyManager.load
    cases read with
    | false => rfl
    | true =>
        cases stored with
        | none => rfl
        | some persisted => simp [hstored persisted rfl]
  have hreload : (AutonomyManager.load environmentId config stored read wrote).reload =
      .fresh environmentId := by
    rw [hload]
    cases wrote with
    | true => exact if_pos rfl
    | false =>
        cases stored with
        | none => rfl
        | some persisted => exact if_neg (hstored persisted rfl)
  have hstate : (AutonomyManager.load environmentId config stored read wrote).state =
      .fresh environmentId := by
    rw [hload]
    exact persist_state
  refine .of_reload (hreload.trans hstate.symm) ?_ ?_
  · rw [hstate, load_environmentId]
    rfl
  · rw [hstate]
    exact Sound.fresh environmentId

/-- A durable restart of a machine whose repository is behind gives nothing back. -/
theorem Behind.keeps {now : DateTime} {read : Bool} (h : manager.Behind)
    (hdurable : Durable manager (.restart now read wrote)) :
    KeepsAuthority manager.state (manager.handle (.restart now read wrote)).state now := by
  rw [AutonomyManager.handle, load_state]
  cases read with
  | true => exact ⟨h.rung, fun cap => h.budget cap _⟩
  | false =>
      obtain ⟨-, hidle⟩ := hdurable.resolve_left (by decide)
      refine ⟨Nat.zero_le _, ?_⟩
      intro cap
      rw [hidle cap]
      exact Nat.zero_le _

/-- In a life whose binding writes succeed and whose unreadable stores are found idle and
overwritten, no restart raises the rung or forgets a unit of the current windows. -/
theorem restart_keeps_authority (environmentId : EnvironmentId) (config : AutonomyConfig)
    (stored : Option AutonomyState) (read wrote : Bool)
    (hstored : ∀ persisted, stored = some persisted → persisted.environmentId ≠ environmentId)
    (events : List AutonomyEvent) (now : DateTime) (reread rewrote : Bool)
    (hdurable : DurableLife (load environmentId config stored read wrote)
      (events ++ [.restart now reread rewrote])) :
    KeepsAuthority ((load environmentId config stored read wrote).life events).state
      ((load environmentId config stored read wrote).life
        (events ++ [.restart now reread rewrote])).state now := by
  obtain ⟨hlife, hrestart⟩ := DurableLife.append hdurable
  have hbehind := (Behind.load read hstored).life hlife
  unfold AutonomyManager.life
  rw [List.foldl_append]
  exact hbehind.keeps hrestart.1

/-- A machine climbs to L2 and takes a unit; the writes of both succeed and it restarts. -/
theorem restart_keeps_authority_at_l2 :
    let manager := load 0 (.deserialize ⟨some 1, some 1, none⟩) none true true
    let events : List AutonomyEvent :=
      [.call (.onCycle (.healthy l4Autonomous)) true, .call (.onCycle (.healthy l4Autonomous)) true,
        .call (.reserve .lowRisk .host ⟨0⟩) true]
    (manager.life events).state.earned = l2Recommend ∧
    rolled (manager.life events).state.budget.lowRiskHour 0 = 1 ∧
    KeepsAuthority (manager.life events).state
      (manager.life (events ++ [.restart ⟨0⟩ true true])).state ⟨0⟩ := by
  refine ⟨by decide, by decide, ?_⟩
  refine restart_keeps_authority 0 (.deserialize ⟨some 1, some 1, none⟩) none true true
    (by intro _ h; cases h) _ ⟨0⟩ true true ?_
  exact ⟨fun _ => rfl, fun _ => rfl, fun _ => rfl, .inl rfl, trivial⟩

/-- A failed validation costs the machine its rung, the write of that fails, and the restart
is back at L2. -/
theorem demotion_undone_by_restart :
    ¬ ∀ (events : List AutonomyEvent) (now : DateTime) (reread rewrote : Bool),
      let manager := load 0 (.deserialize ⟨some 1, some 1, none⟩) none true true
      KeepsAuthority (manager.life events).state
        (manager.life (events ++ [.restart now reread rewrote])).state now := by
  intro h
  have hkept := (h [.call (.onCycle (.healthy l4Autonomous)) true,
    .call (.onCycle (.healthy l4Autonomous)) true, .call .onValidationFailed false]
    ⟨0⟩ true true).1
  exact absurd hkept (by decide)

end AutonomyManager
end Argus
