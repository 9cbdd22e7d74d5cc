import Argus.Daemon.McpReconcile
import Argus.Lib.Machine
import Argus.Lib.Scattered

/-!
# When an MCP server is tried again

The lifecycle makes one pass after another over the desired servers: it probes a slot that is live,
and connects one that is not, unless that server's backoff has not elapsed. A failure puts the next
attempt off by a delay that doubles, up to a minute and four seconds; a success, and a delivery that
takes the server away, forget it. The servers of one pass are visited at the same time, and settled
as their tasks end.

Each server has a slot of its own, and what a pass or a delivery does to it does not depend on the
others (`slotOf_pass`, `slotOf_deliver`). So whatever the servers answer, and whenever, a server
that fails is not tried before its backoff has elapsed (`contacts_spaced`), and one that is down is
tried again soon after (`retried`).
-/

namespace Argus.McpRetry

open Keyed (lookup)
open Scattered (Local)

/-! ### The schedule -/

/-- An instant of the monotone clock, in nanoseconds. -/
abbrev Instant := Nat

def second : Nat := 1000000000

/-- How often a connected server is probed. -/
def probeInterval : Nat := 10 * second

/-- The delay before the next attempt: it doubles, up to a cap. -/
def backoffDelay (attempt : Nat) : Nat := second * 2 ^ min attempt 6

/-- A server's reconnect state: how often the outage has been retried, and when the next attempt
may run. -/
structure RetryState where
  attempt : Nat
  notBefore : Instant

/-- The lifecycle: the desired servers, the slots that are live, and the retry states by name. -/
structure Lifecycle where
  servers : List DesiredServer
  distinct : (servers.map DesiredServer.name).Nodup
  live : String → Bool
  retries : List (String × RetryState)

namespace Lifecycle

def retryState (state : Lifecycle) (name : String) : Option RetryState :=
  (lookup Prod.fst state.retries name).map Prod.snd

def bumpRetry (state : Lifecycle) (name : String) (now : Instant) : Lifecycle :=
  let attempt := ((state.retryState name).map RetryState.attempt).getD 0 + 1
  { state with
    retries := Keyed.upsert Prod.fst (name, ⟨attempt, now + backoffDelay attempt⟩) state.retries }

def clearRetry (state : Lifecycle) (name : String) : Lifecycle :=
  { state with retries := state.retries.filter fun entry => !(entry.1 == name) }

def setLive (state : Lifecycle) (name : String) (live : Bool) : Lifecycle :=
  { state with live := Function.update state.live name live }

/-- How long the loop may sleep before its next pass. -/
def passPause (state : Lifecycle) (now : Instant) : Nat :=
  match (state.retries.map fun entry => entry.2.notBefore).min? with
  | some due => if now < due then min (due - now) probeInterval else probeInterval
  | none => probeInterval

end Lifecycle

/-! ### Passes and deliveries -/

/-- What is outside in one pass, or in one delivery: when it starts, what each server answers, in
what order their tasks end, and when each is settled. -/
structure Round where
  start : Instant
  connections : Connections
  settledAt : String → Instant
  ordered : ∀ name, start ≤ settledAt name

/-- The server answers. -/
def Round.answers (round : Round) (server : McpServerConfig) : Bool :=
  (round.connections.answer server).isOk

inductive PassOutcome
  | descriptors
  | unreachable
  | wentDown
  | waiting

namespace Lifecycle

/-- The task of one server in a pass. -/
def visit (state : Lifecycle) (round : Round) (server : McpServerConfig) : PassOutcome :=
  if state.live server.name then
    if round.answers server then .descriptors else .wentDown
  else if (state.retryState server.name).any fun retry => round.start < retry.notBefore then
    .waiting
  else if round.answers server then .descriptors
  else .unreachable

/-- What the outcome of a task comes to. -/
def settle (before : Lifecycle) (round : Round) (state : Lifecycle) (server : McpServerConfig) :
    Lifecycle :=
  match before.visit round server with
  | .descriptors => (state.setLive server.name true).clearRetry server.name
  | .unreachable => state.bumpRetry server.name (round.settledAt server.name)
  | .wentDown =>
      (state.setLive server.name false).bumpRetry server.name (round.settledAt server.name)
  | .waiting => state

/-- `lifecycle_pass`. -/
def pass (state : Lifecycle) (round : Round) : Lifecycle :=
  (round.connections.joined (state.servers.map DesiredServer.server)).foldl
    (state.settle round) state

/-- A removal of `apply_servers`. -/
def remove (state : Lifecycle) (server : McpServerConfig) : Lifecycle :=
  (state.setLive server.name false).clearRetry server.name

/-- A connection of `apply_servers`. -/
def connect (round : Round) (state : Lifecycle) (server : McpServerConfig) : Lifecycle :=
  if round.answers server then (state.setLive server.name true).clearRetry server.name
  else state.bumpRetry server.name (round.settledAt server.name)

/-- `apply_servers`. -/
def deliver (state : Lifecycle) (document : ValidServers) (round : Round) : Lifecycle :=
  let plan := reconcilePlan state.servers (enabledServers document.servers)
  let removed := plan.toRemove.foldl remove state
  let connected := (round.connections.joined plan.toConnect).foldl (connect round) removed
  { connected with
    servers := plan.desired
    distinct := nodup_desired state.distinct
      (document.nodup.sublist (List.filter_sublist.map _)) }

end Lifecycle

inductive LifecycleEvent
  | pass (round : Round)
  | delivery (document : ValidServers) (round : Round)

def step (state : Lifecycle) : LifecycleEvent → Lifecycle
  | .pass round => state.pass round
  | .delivery document round => state.deliver document round

/-- What the startup does with the result of one server: a failure is left to the passes. -/
def connectFirst (round : Round) (state : Lifecycle) (server : McpServerConfig) : Lifecycle :=
  if round.answers server then state.setLive server.name true
  else state.bumpRetry server.name (round.settledAt server.name)

/-- `connect_startup`: the servers are awaited in their order. -/
def startup (servers : List DesiredServer) (distinct : (servers.map DesiredServer.name).Nodup)
    (round : Round) : Lifecycle :=
  (servers.map DesiredServer.server).foldl (connectFirst round)
    ⟨servers, distinct, fun _ => false, []⟩

/-! ### Slots -/

/-- One server's part of the lifecycle. -/
structure Slot where
  live : Bool
  retry : Option RetryState

namespace Slot

/-- A slot of a server that answers. -/
def up : Slot := ⟨true, none⟩

/-- A slot that nothing is known of. -/
def down : Slot := ⟨false, none⟩

/-- How often the outage has been retried. -/
def count (slot : Slot) : Nat := (slot.retry.map RetryState.attempt).getD 0

/-- The slot after one more failure. -/
def bump (slot : Slot) (now : Instant) : Slot :=
  { slot with retry := some ⟨slot.count + 1, now + backoffDelay (slot.count + 1)⟩ }

/-- The slot has to wait its backoff out. -/
def waits (slot : Slot) (start : Instant) : Bool :=
  !slot.live && slot.retry.any fun retry => start < retry.notBefore

/-- The slot after a pass. -/
def visit (slot : Slot) (start settled : Instant) (answers : Bool) : Slot :=
  if slot.waits start then slot
  else if answers then up
  else bump ⟨false, slot.retry⟩ settled

end Slot

def slotOf (state : Lifecycle) (name : String) : Slot := ⟨state.live name, state.retryState name⟩

section Slots

variable {state : Lifecycle} {round : Round} {name other : String} {now : Instant} {live : Bool}
  {document : ValidServers} {server : McpServerConfig}

theorem retryState_bumpRetry : (state.bumpRetry name now).retryState other =
    if name = other then ((slotOf state name).bump now).retry else state.retryState other := by
  rw [Lifecycle.retryState, Lifecycle.bumpRetry, Keyed.lookup_upsert]
  split_ifs <;> rfl

theorem retryState_clearRetry : (state.clearRetry name).retryState other =
    if other = name then none else state.retryState other := by
  rw [Lifecycle.retryState, Lifecycle.clearRetry, Keyed.lookup_filter_not (· == name)]
  by_cases h : other = name <;> simp [h, Lifecycle.retryState]

theorem slotOf_bumpRetry :
    slotOf (state.bumpRetry name now) name = (slotOf state name).bump now := by
  rw [slotOf, retryState_bumpRetry, if_pos rfl]
  rfl

theorem slotOf_bumpRetry_of_ne (h : other ≠ name) :
    slotOf (state.bumpRetry name now) other = slotOf state other := by
  rw [slotOf, retryState_bumpRetry, if_neg (Ne.symm h)]
  rfl

theorem slotOf_clearRetry :
    slotOf (state.clearRetry name) name = ⟨state.live name, none⟩ := by
  rw [slotOf, retryState_clearRetry, if_pos rfl]
  rfl

theorem slotOf_clearRetry_of_ne (h : other ≠ name) :
    slotOf (state.clearRetry name) other = slotOf state other := by
  rw [slotOf, retryState_clearRetry, if_neg h]
  rfl

theorem live_setLive : (state.setLive name live).live name = live := by
  simp [Lifecycle.setLive]

theorem slotOf_setLive : slotOf (state.setLive name live) name = ⟨live, state.retryState name⟩ :=
  congrArg (Slot.mk · (state.retryState name)) live_setLive

theorem slotOf_setLive_of_ne (h : other ≠ name) :
    slotOf (state.setLive name live) other = slotOf state other := by
  have hlive : (state.setLive name live).live other = state.live other := by
    simp [Lifecycle.setLive, h]
  exact congrArg (Slot.mk · (state.retryState other)) hlive

/-! #### A pass -/

/-- What a task's outcome makes of its server's slot. -/
def Slot.settle (slot : Slot) (settled : Instant) : PassOutcome → Slot
  | .descriptors => .up
  | .unreachable => slot.bump settled
  | .wentDown => bump ⟨false, slot.retry⟩ settled
  | .waiting => slot

theorem local_settle (before : Lifecycle) (round : Round) :
    Local slotOf McpServerConfig.name (before.settle round) fun server slot =>
      slot.settle (round.settledAt server.name) (before.visit round server) where
  own state server := by
    unfold Lifecycle.settle Slot.settle
    cases before.visit round server with
    | descriptors => rw [slotOf_clearRetry, live_setLive]; rfl
    | unreachable => exact slotOf_bumpRetry
    | wentDown => rw [slotOf_bumpRetry, slotOf_setLive]; rfl
    | waiting => rfl
  other state server name hne := by
    unfold Lifecycle.settle
    cases before.visit round server with
    | descriptors => rw [slotOf_clearRetry_of_ne hne, slotOf_setLive_of_ne hne]
    | unreachable => exact slotOf_bumpRetry_of_ne hne
    | wentDown => rw [slotOf_bumpRetry_of_ne hne, slotOf_setLive_of_ne hne]
    | waiting => rfl

theorem settle_visit : (slotOf state server.name).settle (round.settledAt server.name)
      (state.visit round server) =
    (slotOf state server.name).visit round.start (round.settledAt server.name)
      (round.answers server) := by
  unfold Lifecycle.visit Slot.visit Slot.waits slotOf
  dsimp only
  cases state.live server.name with
  | true => cases round.answers server <;> simp [Slot.settle]
  | false =>
      cases (state.retryState server.name).any fun retry => round.start < retry.notBefore <;>
        cases round.answers server <;> simp [Slot.settle]

/-- The desired server of a name. -/
def desired (servers : List DesiredServer) (name : String) : Option McpServerConfig :=
  lookup McpServerConfig.name (servers.map DesiredServer.server) name

/-- A pass visits each desired server once, whatever the order in which their tasks end. -/
theorem slotOf_pass : slotOf (state.pass round) name =
    (desired state.servers name).elim (slotOf state name) fun server =>
      (slotOf state name).visit round.start (round.settledAt name) (round.answers server) := by
  have hperm := round.connections.joined_perm (state.servers.map DesiredServer.server)
  have hdistinct : ((state.servers.map DesiredServer.server).map McpServerConfig.name).Nodup := by
    rw [List.map_map]
    exact state.distinct
  have hjoined := (hperm.map McpServerConfig.name).nodup_iff.mpr hdistinct
  rw [Lifecycle.pass, (local_settle state round).view_foldl hjoined,
    Keyed.lookup_of_perm hjoined hperm]
  change (desired state.servers name).elim _ _ = _
  cases hserver : desired state.servers name with
  | none => rfl
  | some server =>
      obtain rfl : server.name = name := Keyed.key_of_lookup hserver
      exact settle_visit

theorem servers_pass : (state.pass round).servers = state.servers := by
  have hsettle (servers : List McpServerConfig) (now : Lifecycle) :
      (servers.foldl (state.settle round) now).servers = now.servers := by
    induction servers generalizing now with
    | nil => rfl
    | cons server servers ih =>
        rw [List.foldl_cons, ih]
        unfold Lifecycle.settle
        cases state.visit round server <;> rfl
  exact hsettle _ state

/-! #### A delivery -/

theorem local_remove : Local slotOf McpServerConfig.name Lifecycle.remove fun _ _ => .down where
  own state server := by
    rw [Lifecycle.remove, slotOf_clearRetry, live_setLive]
    rfl
  other state server name hne := by
    rw [Lifecycle.remove, slotOf_clearRetry_of_ne hne, slotOf_setLive_of_ne hne]

theorem local_connect (round : Round) :
    Local slotOf McpServerConfig.name (Lifecycle.connect round) fun server slot =>
      if round.answers server then .up else slot.bump (round.settledAt server.name) where
  own state server := by
    unfold Lifecycle.connect
    split_ifs
    · rw [slotOf_clearRetry, live_setLive]
      rfl
    · exact slotOf_bumpRetry
  other state server name hne := by
    unfold Lifecycle.connect
    split_ifs
    · rw [slotOf_clearRetry_of_ne hne, slotOf_setLive_of_ne hne]
    · exact slotOf_bumpRetry_of_ne hne

/-- A name that is not desired has nothing known of it. -/
def Tidy (state : Lifecycle) : Prop :=
  ∀ name, desired state.servers name = none → slotOf state name = .down

theorem desired_eq_some_iff (hdistinct : (state.servers.map DesiredServer.name).Nodup) :
    desired state.servers name = some server ↔
      server ∈ state.servers.map DesiredServer.server ∧ server.name = name :=
  Keyed.lookup_eq_some_iff (by rwa [List.map_map])

section Delivery

variable {current : List DesiredServer} {delivered : List McpServerConfig}

theorem nodup_toConnect (hcurrent : (current.map DesiredServer.name).Nodup)
    (hdelivered : (delivered.map McpServerConfig.name).Nodup) :
    ((reconcilePlan current delivered).toConnect.map McpServerConfig.name).Nodup := by
  have hdesired := nodup_desired hcurrent hdelivered
  have hperm := ((@perm_desired current delivered hcurrent).map McpServerConfig.name).nodup_iff
  rw [List.map_map (l := (reconcilePlan current delivered).desired)] at hperm
  exact (hperm.mpr hdesired).sublist ((List.sublist_append_right _ _).map _)

theorem nodup_toRemove (hcurrent : (current.map DesiredServer.name).Nodup) :
    ((reconcilePlan current delivered).toRemove.map McpServerConfig.name).Nodup := by
  have hremove : (reconcilePlan current delivered).toRemove =
      current.filterMap fun held => (reconcileHeld delivered held).remove := by
    simp only [reconcilePlan, List.filterMap_map]
    rfl
  rw [hremove]
  refine Keyed.nodup_filterMap (fun held server h => ?_) hcurrent
  exact congrArg McpServerConfig.name (remove_eq_some h).1.symm

end Delivery

/-- The servers that a delivery connects, and the ones it removes. -/
def planOf (state : Lifecycle) (document : ValidServers) : ReconcilePlan :=
  reconcilePlan state.servers (enabledServers document.servers)

theorem nodup_enabled (document : ValidServers) :
    ((enabledServers document.servers).map McpServerConfig.name).Nodup :=
  document.nodup.sublist (List.filter_sublist.map _)

/-- The slot of a name after the removals of a delivery. -/
def removedSlot (state : Lifecycle) (document : ValidServers) (name : String) : Slot :=
  (lookup McpServerConfig.name (planOf state document).toRemove name).elim (slotOf state name)
    fun _ => .down

theorem slotOf_congr {state' : Lifecycle} (hlive : state.live = state'.live)
    (hretries : state.retries = state'.retries) : slotOf state name = slotOf state' name := by
  rw [slotOf, slotOf, Lifecycle.retryState, Lifecycle.retryState, hlive, hretries]

/-- A delivery connects each server once, after the removals. -/
theorem slotOf_deliver : slotOf (state.deliver document round) name =
    (lookup McpServerConfig.name (planOf state document).toConnect name).elim
      (removedSlot state document name) fun server =>
        if round.answers server then .up
        else (removedSlot state document name).bump (round.settledAt name) := by
  have hperm := round.connections.joined_perm (planOf state document).toConnect
  have hconnect : ((planOf state document).toConnect.map McpServerConfig.name).Nodup :=
    nodup_toConnect state.distinct (nodup_enabled document)
  have hjoined := (hperm.map McpServerConfig.name).nodup_iff.mpr hconnect
  have hremoved : slotOf ((planOf state document).toRemove.foldl Lifecycle.remove state) name =
      removedSlot state document name :=
    local_remove.view_foldl (nodup_toRemove state.distinct) state name
  have hfold := (local_connect round).view_foldl hjoined
    ((planOf state document).toRemove.foldl Lifecycle.remove state) name
  rw [hremoved, Keyed.lookup_of_perm hjoined hperm] at hfold
  refine (slotOf_congr rfl rfl).trans (hfold.trans ?_)
  cases hserver : lookup McpServerConfig.name (planOf state document).toConnect name with
  | none => rfl
  | some server =>
      obtain rfl : server.name = name := Keyed.key_of_lookup hserver
      rfl

theorem removedSlot_of_mem (h : server ∈ (planOf state document).toRemove) :
    removedSlot state document server.name = .down := by
  have hnames : ((planOf state document).toRemove.map McpServerConfig.name).Nodup :=
    nodup_toRemove state.distinct
  rw [removedSlot, Keyed.lookup_of_mem hnames h]
  rfl

/-- A held name that is not removed keeps its slot. -/
theorem removedSlot_of_not_mem {held : DesiredServer} (hheld : held ∈ state.servers)
    (h : held.server ∉ (planOf state document).toRemove) :
    removedSlot state document held.name = slotOf state held.name := by
  rw [removedSlot]
  cases hserver : lookup McpServerConfig.name (planOf state document).toRemove held.name with
  | none => rfl
  | some server =>
      obtain ⟨other, hother, hremove⟩ := mem_toRemove.mp (Keyed.mem_of_lookup hserver)
      obtain rfl := (remove_eq_some hremove).1
      have hkey := Keyed.key_of_lookup hserver
      have hname : other.name = held.name := hkey
      obtain rfl := List.inj_on_of_nodup_map state.distinct hother hheld hname
      exact absurd (Keyed.mem_of_lookup hserver) h

/-- What a delivery connects was down before. -/
theorem removedSlot_of_toConnect (htidy : Tidy state)
    (h : server ∈ (planOf state document).toConnect) :
    removedSlot state document server.name = .down := by
  cases hserver : desired state.servers server.name with
  | none =>
      rw [removedSlot]
      cases lookup McpServerConfig.name (planOf state document).toRemove server.name with
      | none => exact htidy _ hserver
      | some other => rfl
  | some other =>
      obtain ⟨hmem, hname⟩ := (desired_eq_some_iff state.distinct).mp hserver
      obtain ⟨held, hheld, rfl⟩ := List.mem_map.mp hmem
      rw [← hname]
      exact removedSlot_of_mem (removed_of_toConnect state.distinct h hheld hname)

/-- A name that stays desired, and is not connected anew, keeps its slot. -/
theorem kept_of_desired (h : desired (planOf state document).desired name = some server)
    (hconnect : lookup McpServerConfig.name (planOf state document).toConnect name = none) :
    desired state.servers name = some server ∧
      removedSlot state document name = slotOf state name := by
  have hnames : ((planOf state document).desired.map DesiredServer.name).Nodup :=
    nodup_desired state.distinct (nodup_enabled document)
  obtain ⟨hmem, rfl⟩ := (Keyed.lookup_eq_some_iff (by rwa [List.map_map])).mp h
  have hside := (perm_desired state.distinct).mem_iff.mpr hmem
  rcases List.mem_append.mp hside with hkept | hnew
  · obtain ⟨hcurrent, hstays⟩ := List.mem_filter.mp hkept
    obtain ⟨held, hheld, rfl⟩ := List.mem_map.mp hcurrent
    refine ⟨(desired_eq_some_iff state.distinct).mpr ⟨hcurrent, rfl⟩, ?_⟩
    exact removedSlot_of_not_mem hheld (of_decide_eq_true hstays)
  · exact absurd rfl (Keyed.lookup_eq_none_iff.mp hconnect server hnew)

theorem Tidy.pass (h : Tidy state) : Tidy (state.pass round) := by
  intro name hname
  rw [servers_pass] at hname
  rw [slotOf_pass, hname]
  exact h name hname

theorem Tidy.deliver (h : Tidy state) : Tidy (state.deliver document round) := by
  intro name hname
  change desired (planOf state document).desired name = none at hname
  have hnone := Keyed.lookup_eq_none_iff.mp hname
  have hconnect : lookup McpServerConfig.name (planOf state document).toConnect name = none := by
    refine Keyed.lookup_eq_none_iff.mpr fun server hserver => hnone server ?_
    exact List.mem_map.mpr ⟨_, (desired_of_toConnect hserver).2, rfl⟩
  rw [slotOf_deliver, hconnect]
  change removedSlot state document name = .down
  cases hbefore : desired state.servers name with
  | none =>
      rw [removedSlot]
      cases lookup McpServerConfig.name (planOf state document).toRemove name with
      | none => exact h _ hbefore
      | some server => rfl
  | some server =>
      obtain ⟨hmem, rfl⟩ := (desired_eq_some_iff state.distinct).mp hbefore
      obtain ⟨held, hheld, rfl⟩ := List.mem_map.mp hmem
      rcases @removed_or_kept _ (enabledServers document.servers) _ hheld with
        hremoved | ⟨kept, hkept, hserver⟩
      · exact removedSlot_of_mem hremoved
      · exact absurd (congrArg McpServerConfig.name hserver)
          (hnone kept.server (List.mem_map_of_mem hkept))

theorem Tidy.step {event : LifecycleEvent} (h : Tidy state) : Tidy (step state event) := by
  cases event with
  | pass round => exact h.pass
  | delivery document round => exact h.deliver

/-! ### Contacts -/

/-- One time that a server is connected or probed. -/
structure Contact where
  start : Instant
  settled : Instant
  ok : Bool
  /-- A pass makes it, and not the startup or a delivery. -/
  byPass : Bool
  /-- How often the outage has been retried, after it. -/
  count : Nat

/-- The contact of a name in one event. -/
def contact (name : String) (state : Lifecycle) : LifecycleEvent → Option Contact
  | .pass round =>
      (desired state.servers name).bind fun server =>
        if (slotOf state name).waits round.start then none
        else some ⟨round.start, round.settledAt name, round.answers server, true,
          (slotOf (state.pass round) name).count⟩
  | .delivery document round =>
      (lookup McpServerConfig.name (planOf state document).toConnect name).map fun server =>
        ⟨round.start, round.settledAt name, round.answers server, false,
          (slotOf (state.deliver document round) name).count⟩

/-- The contact of a name at the startup. -/
def startContact (name : String) (servers : List DesiredServer)
    (distinct : (servers.map DesiredServer.name).Nodup) (round : Round) : Option Contact :=
  (desired servers name).map fun server =>
    ⟨round.start, round.settledAt name, round.answers server, false,
      (slotOf (startup servers distinct round) name).count⟩

/-- The contacts of a name in a run. -/
def contacts (name : String) : Lifecycle → List LifecycleEvent → List Contact
  | _, [] => []
  | state, event :: events =>
      (contact name state event).toList ++ contacts name (step state event) events

/-- After a failure a pass waits the backoff out, and counts the next one. -/
def Spaced (x y : Contact) : Prop :=
  x.ok = false → y.byPass = true →
    x.settled + backoffDelay x.count ≤ y.start ∧ (y.ok = false → y.count = x.count + 1)

section Contacts

variable {state : Lifecycle} {round : Round} {name : String} {document : ValidServers}
  {last : Option Contact} {event : LifecycleEvent} {events : List LifecycleEvent}
  {servers : List DesiredServer} {distinct : (servers.map DesiredServer.name).Nodup}

/-- As long as a name is desired, its slot is what its last contact left, if that failed. -/
def Follows (last : Option Contact) (name : String) (state : Lifecycle) : Prop :=
  ∀ x ∈ last, x.ok = false → desired state.servers name ≠ none →
    slotOf state name = ⟨false, some ⟨x.count, x.settled + backoffDelay x.count⟩⟩

/-- A slot that is put off is as its contact says. -/
theorem eq_of_bump (slot : Slot) (now : Instant) (h : slot.live = false) :
    slot.bump now =
      ⟨false, some ⟨(slot.bump now).count, now + backoffDelay (slot.bump now).count⟩⟩ := by
  obtain ⟨live, retry⟩ := slot
  cases h
  rfl

/-- What one pass does to the slot of a name that it contacts. -/
theorem slotOf_pass_contact {server : McpServerConfig}
    (hserver : desired state.servers name = some server)
    (hwaits : (slotOf state name).waits round.start = false) :
    slotOf (state.pass round) name =
      if round.answers server then .up
      else Slot.bump ⟨false, (slotOf state name).retry⟩ (round.settledAt name) := by
  rw [slotOf_pass, hserver]
  change Slot.visit _ _ _ _ = _
  rw [Slot.visit, if_neg (by simp [hwaits])]

/-- What a delivery does to the slot of a name that it connects. -/
theorem slotOf_deliver_contact {server : McpServerConfig} (htidy : Tidy state)
    (hserver : lookup McpServerConfig.name (planOf state document).toConnect name = some server) :
    slotOf (state.deliver document round) name =
      if round.answers server then .up else Slot.bump .down (round.settledAt name) := by
  obtain rfl : server.name = name := Keyed.key_of_lookup hserver
  rw [slotOf_deliver, hserver, removedSlot_of_toConnect htidy (Keyed.mem_of_lookup hserver)]
  rfl

/-- One event keeps the distance from the contact before, and the slot follows. -/
theorem Follows.step (htidy : Tidy state) (h : Follows last name state) :
    (∀ x ∈ last, ∀ y ∈ contact name state event, Spaced x y) ∧
      Follows ((contact name state event).or last) name (step state event) := by
  cases event with
  | pass round =>
      cases hserver : desired state.servers name with
      | none =>
          simp only [contact, hserver, Option.bind_none, Option.none_or]
          refine ⟨nofun, fun x hx hfailed hdesired => absurd ?_ hdesired⟩
          change desired (state.pass round).servers name = none
          rw [servers_pass, hserver]
      | some server =>
          cases hwaits : (slotOf state name).waits round.start with
          | true =>
              simp only [contact, hserver, hwaits, Option.bind_some, if_true, Option.none_or]
              refine ⟨nofun, fun x hx hfailed _ => ?_⟩
              have hkeep : slotOf (state.pass round) name = slotOf state name := by
                rw [slotOf_pass, hserver]
                change Slot.visit _ _ _ _ = _
                rw [Slot.visit, if_pos hwaits]
              exact hkeep.trans (h x hx hfailed (by simp [hserver]))
          | false =>
              have hnext := slotOf_pass_contact hserver hwaits
              simp only [contact, hserver, hwaits, Option.bind_some, Bool.false_eq_true, if_false,
                Option.some_or]
              constructor
              · intro x hx y hy hfailed _
                obtain rfl := Option.mem_some_iff.mp hy
                rw [h x hx hfailed (by simp [hserver])] at hwaits hnext
                refine ⟨by simpa [Slot.waits] using hwaits, fun hagain => ?_⟩
                rw [hnext, if_neg (by simpa using hagain)]
                rfl
              · intro y hy hfailed _
                obtain rfl := Option.mem_some_iff.mp hy
                change slotOf (state.pass round) name = _
                dsimp only at hfailed ⊢
                rw [hfailed] at hnext
                rw [hnext]
                exact eq_of_bump _ _ rfl
  | delivery document round =>
      cases hserver : lookup McpServerConfig.name (planOf state document).toConnect name with
      | none =>
          simp only [contact, hserver, Option.map_none, Option.none_or]
          refine ⟨nofun, fun x hx hfailed hdesired => ?_⟩
          obtain ⟨server, hdesired⟩ := Option.ne_none_iff_exists'.mp hdesired
          obtain ⟨hbefore, hslot⟩ := kept_of_desired hdesired hserver
          change slotOf (state.deliver document round) name = _
          rw [slotOf_deliver, hserver]
          exact hslot.trans (h x hx hfailed (by simp [hbefore]))
      | some server =>
          simp only [contact, hserver, Option.map_some, Option.some_or]
          refine ⟨fun x hx y hy _ hpass => ?_, fun y hy hfailed _ => ?_⟩
          · obtain rfl := Option.mem_some_iff.mp hy
            cases hpass
          · obtain rfl := Option.mem_some_iff.mp hy
            have hnext := @slotOf_deliver_contact _ round _ _ _ htidy hserver
            change slotOf (state.deliver document round) name = _
            dsimp only at hfailed ⊢
            rw [hfailed] at hnext
            rw [hnext]
            exact eq_of_bump _ _ rfl

theorem contacts_of_follows (htidy : Tidy state) (h : Follows last name state) :
    (last.toList ++ contacts name state events).IsChain Spaced := by
  induction events generalizing state last with
  | nil => cases last <;> simp [contacts]
  | cons event events ih =>
      obtain ⟨hspaced, hnext⟩ := @Follows.step state name last event htidy h
      have hrest := ih htidy.step hnext
      rw [contacts]
      cases hcontact : contact name state event with
      | none =>
          rw [hcontact, Option.none_or] at hrest
          exact hrest
      | some y =>
          rw [hcontact, Option.some_or] at hrest
          cases last with
          | none => exact hrest
          | some x => exact hrest.cons_cons (hspaced x rfl y hcontact)

theorem local_connectFirst (round : Round) :
    Local slotOf McpServerConfig.name (connectFirst round) fun server slot =>
      if round.answers server then ⟨true, slot.retry⟩
      else slot.bump (round.settledAt server.name) where
  own state server := by
    unfold connectFirst
    split_ifs
    · exact slotOf_setLive
    · exact slotOf_bumpRetry
  other state server name hne := by
    unfold connectFirst
    split_ifs
    · exact slotOf_setLive_of_ne hne
    · exact slotOf_bumpRetry_of_ne hne

theorem slotOf_startup : slotOf (startup servers distinct round) name =
    (desired servers name).elim .down fun server =>
      if round.answers server then .up else Slot.bump .down (round.settledAt name) := by
  have hdistinct : ((servers.map DesiredServer.server).map McpServerConfig.name).Nodup := by
    rwa [List.map_map]
  refine ((local_connectFirst round).view_foldl hdistinct
    ⟨servers, distinct, fun _ => false, []⟩ name).trans ?_
  change (desired servers name).elim Slot.down _ = _
  cases hserver : desired servers name with
  | none => rw [Option.elim_none, Option.elim_none]
  | some server =>
      obtain rfl : server.name = name := Keyed.key_of_lookup hserver
      rw [Option.elim_some, Option.elim_some]
      rfl

theorem servers_foldl_connectFirst (list : List McpServerConfig) (now : Lifecycle) :
    (list.foldl (connectFirst round) now).servers = now.servers := by
  induction list generalizing now with
  | nil => rfl
  | cons server list ih =>
      rw [List.foldl_cons, ih]
      unfold connectFirst
      split_ifs <;> rfl

theorem servers_startup : (startup servers distinct round).servers = servers :=
  servers_foldl_connectFirst _ ⟨servers, distinct, fun _ => false, []⟩

theorem tidy_startup : Tidy (startup servers distinct round) := by
  intro name hname
  rw [servers_startup] at hname
  rw [slotOf_startup, hname]
  rfl

/-- From the startup on, and through any passes and deliveries: a server that failed is not tried
by a pass before its backoff has elapsed, and each failure counts one further. -/
theorem contacts_spaced (name : String) (servers : List DesiredServer)
    (distinct : (servers.map DesiredServer.name).Nodup) (round : Round)
    (events : List LifecycleEvent) :
    ((startContact name servers distinct round).toList ++
      contacts name (startup servers distinct round) events).IsChain Spaced := by
  refine contacts_of_follows tidy_startup fun x hx hfailed _ => ?_
  obtain ⟨server, hserver, rfl⟩ := Option.map_eq_some_iff.mp hx
  have hslot : slotOf (startup servers distinct round) name = _ := slotOf_startup
  rw [hserver] at hslot
  change _ = if round.answers server then _ else _ at hslot
  dsimp only at hfailed ⊢
  rw [hfailed] at hslot
  rw [hslot]
  exact eq_of_bump _ _ rfl

/-- A round in which no server answers. -/
def refusedRound (start settled : Instant) (ordered : start ≤ settled) : Round where
  start := start
  connections := .inOrder fun _ => .error "connection refused"
  settledAt := fun _ => settled
  ordered := fun _ => ordered

/-- One server, of the file. -/
def loneServer : List DesiredServer := [.file (metricsServer "/bin/file" true)]

/-- Refused at the startup, and once more when the first backoff is over. -/
theorem contacts_spaced_refused :
    ((startContact "metrics" loneServer (by decide) (refusedRound 0 1 (by decide))).toList ++
      contacts "metrics" (startup loneServer (by decide) (refusedRound 0 1 (by decide)))
        [.pass (refusedRound (2 * second + 1) (2 * second + 2) (by decide))]).IsChain Spaced :=
  contacts_spaced "metrics" loneServer (by decide) (refusedRound 0 1 (by decide))
    [.pass (refusedRound (2 * second + 1) (2 * second + 2) (by decide))]

end Contacts

/-! ### The loop -/

/-- A pass of the loop, and when the last of its tasks ended. -/
structure LoopPass extends Round where
  finish : Instant
  settled : ∀ name, settledAt name ≤ finish

def LoopPass.event (pass : LoopPass) : LifecycleEvent := .pass pass.toRound

/-- The passes of the loop while no delivery comes. A pass takes `most` at the longest, and starts
within `late` of the end of the sleep before it. -/
def Timely (most late : Nat) (state : Lifecycle) (wake : Instant) : List LoopPass → Prop
  | [] => True
  | pass :: passes =>
      (wake ≤ pass.start ∧ pass.start ≤ wake + late ∧ pass.finish ≤ pass.start + most) ∧
        Timely most late (state.pass pass.toRound)
          (pass.finish + (state.pass pass.toRound).passPause pass.finish) passes

theorem passPause_le (state : Lifecycle) (now : Instant) : state.passPause now ≤ probeInterval := by
  unfold Lifecycle.passPause
  split
  · split_ifs
    · exact Nat.min_le_right _ _
    · exact le_rfl
  · exact le_rfl

section Loop

variable {most late : Nat} {wake due : Instant} {attempt : Nat} {passes : List LoopPass}

/-- The sleep after a pass that starts before the backoff has elapsed. -/
theorem wake_le {pass : LoopPass} (hstart : pass.start ≤ due)
    (hfinish : pass.finish ≤ pass.start + most) :
    pass.finish + state.passPause pass.finish ≤ due + most + probeInterval :=
  Nat.add_le_add (hfinish.trans (Nat.add_le_add_right hstart most)) (passPause_le _ _)

/-- A slot that waits is contacted once its backoff has elapsed. -/
theorem contact_of_timely (hloop : Timely most late state wake passes)
    (hserver : desired state.servers name = some server)
    (hslot : slotOf state name = ⟨false, some ⟨attempt, due⟩⟩)
    (hwake : wake ≤ due + most + probeInterval)
    (hlong : ∃ pass ∈ passes, due ≤ pass.start) :
    ∃ y ∈ contacts name state (passes.map LoopPass.event),
      due ≤ y.start ∧ y.start ≤ due + most + probeInterval + late := by
  induction passes generalizing state wake with
  | nil => simp at hlong
  | cons pass passes ih =>
      obtain ⟨⟨-, hlate, hfinish⟩, hrest⟩ := hloop
      rw [List.map_cons, contacts]
      change ∃ y ∈ (contact name state (.pass pass.toRound)).toList ++
        contacts name (state.pass pass.toRound) (passes.map LoopPass.event), _
      by_cases hdue : due ≤ pass.start
      · have hwaits : (slotOf state name).waits pass.start = false := by
          rw [hslot]
          simpa [Slot.waits] using hdue
        refine ⟨⟨pass.start, pass.settledAt name, pass.answers server, true,
          (slotOf (state.pass pass.toRound) name).count⟩,
          List.mem_append_left _ (Option.mem_toList.mpr ?_), hdue,
          hlate.trans (Nat.add_le_add_right hwake late)⟩
        simp [contact, hserver, hwaits]
      · have hwaits : (slotOf state name).waits pass.start = true := by
          rw [hslot]
          simpa [Slot.waits] using hdue
        have hkeep : slotOf (state.pass pass.toRound) name = slotOf state name := by
          rw [slotOf_pass, hserver]
          change Slot.visit _ _ _ _ = _
          rw [Slot.visit, if_pos hwaits]
        have hlater : ∃ later ∈ passes, due ≤ later.start := by
          obtain ⟨later, hmem, hstart⟩ := hlong
          rcases List.mem_cons.mp hmem with rfl | hmem
          · exact absurd hstart hdue
          · exact ⟨later, hmem, hstart⟩
        obtain ⟨y, hy, hbounds⟩ := ih hrest (by rw [servers_pass, hserver]) (hkeep.trans hslot)
          (wake_le (Nat.le_of_not_le hdue) hfinish) hlater
        exact ⟨y, List.mem_append_right _ hy, hbounds⟩

/-- A server that failed in a pass of the loop is tried again once its backoff has elapsed, and
with a delay of one pass and one sleep at the most. -/
theorem retried (most late : Nat) (state : Lifecycle) (wake : Instant) (pass : LoopPass)
    (passes : List LoopPass) (name : String) (x : Contact)
    (hloop : Timely most late state wake (pass :: passes))
    (hcontact : contact name state pass.event = some x) (hfailed : x.ok = false)
    (hlong : ∃ later ∈ passes, x.settled + backoffDelay x.count ≤ later.start) :
    ∃ y ∈ contacts name (state.pass pass.toRound) (passes.map LoopPass.event),
      x.settled + backoffDelay x.count ≤ y.start ∧
        y.start ≤ x.settled + backoffDelay x.count + most + probeInterval + late := by
  change (desired state.servers name).bind _ = _ at hcontact
  obtain ⟨server, hserver, hx⟩ := Option.bind_eq_some_iff.mp hcontact
  obtain ⟨hwaits, hx⟩ := Option.ite_none_left_eq_some.mp hx
  obtain rfl := Option.some.inj hx
  obtain ⟨⟨-, -, hfinish⟩, hrest⟩ := hloop
  have hslot := slotOf_pass_contact hserver (Bool.eq_false_iff.mpr hwaits)
  dsimp only at hfailed hlong ⊢
  rw [hfailed] at hslot
  change _ = Slot.bump ⟨false, (slotOf state name).retry⟩ _ at hslot
  have hafter := eq_of_bump ⟨false, (slotOf state name).retry⟩ (pass.settledAt name) rfl
  rw [← hslot] at hafter
  have hstart := (pass.ordered name).trans (Nat.le_add_right _ (backoffDelay
    (slotOf (state.pass pass.toRound) name).count))
  exact contact_of_timely hrest (by rw [servers_pass, hserver]) hafter (wake_le hstart hfinish)
    hlong

/-- A pass in which no server answers. -/
def refusedPass (start finish : Instant) (ordered : start ≤ finish) : LoopPass where
  toRound := refusedRound start finish ordered
  finish := finish
  settled := fun _ => le_rfl

/-- A lifecycle with one server, of which nothing is known. -/
def loneLifecycle : Lifecycle := ⟨loneServer, by decide, fun _ => false, []⟩

/-- A first refusal puts the next attempt off by two seconds. -/
theorem retried_refused :
    ∃ y ∈ contacts "metrics" (loneLifecycle.pass (refusedPass 0 1 (by decide)).toRound)
        [.pass (refusedPass (2 * second + 1) (2 * second + 2) (by decide)).toRound],
      1 + backoffDelay 1 ≤ y.start ∧ y.start ≤ 1 + backoffDelay 1 + 1 + probeInterval + 0 :=
  retried 1 0 loneLifecycle 0 (refusedPass 0 1 (by decide))
    [refusedPass (2 * second + 1) (2 * second + 2) (by decide)] "metrics" ⟨0, 1, false, true, 1⟩
    (by simp [Timely]; decide) rfl rfl (by decide)

end Loop

end Slots

end Argus.McpRetry
