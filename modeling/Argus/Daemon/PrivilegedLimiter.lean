import Argus.Lib.Machine
import Mathlib.Data.List.Nodup
import Mathlib.Data.List.Perm.Subperm

/-!
# The limiter of privileged operations

A call takes one of the limiter's slots, then the lock of its resource, and holds both while its
operation runs. In which order the slots and the locks come to those who wait for them is left
open: any call may be the next, as long as there is a slot, or the lock is free.

Since the slot comes first, a call that waits for a lock holds a slot all the while, and calls for
resources that nobody uses may have to wait for it. `unblocked_of_apart` says in which runs this
does not happen.
-/

namespace Argus

/-- One call of `run`, with the resource it is for. -/
structure LimiterCall where
  id : Nat
  resource : String
  deriving DecidableEq

structure PrivilegedLimiter where
  cap : Nat
  /-- The calls that wait for a slot. -/
  queued : List LimiterCall
  /-- The calls that hold a slot, and not the lock of their resource. -/
  slotted : List LimiterCall
  /-- The calls that hold both: their operations run. -/
  executing : List LimiterCall

inductive LimiterEvent
  | arrive (call : LimiterCall)
  | acquire (call : LimiterCall)
  /-- The call has waited for a slot as long as it may. -/
  | queueBudgetExpired (call : LimiterCall)
  | lockResource (call : LimiterCall)
  /-- The caller drops the call while it waits for the lock. -/
  | abandon (call : LimiterCall)
  /-- The operation is done, or it timed out: the lock and the slot are given back. -/
  | finish (call : LimiterCall)

namespace PrivilegedLimiter

/-- `PrivilegedLimiter::new`: a limit of none is taken for one. -/
def new (maxConcurrent : Nat) : PrivilegedLimiter where
  cap := max maxConcurrent 1
  queued := []
  slotted := []
  executing := []

/-- The calls that hold a slot. -/
def holders (limiter : PrivilegedLimiter) : List LimiterCall :=
  limiter.slotted ++ limiter.executing

/-- No operation runs on the resource. -/
def Free (limiter : PrivilegedLimiter) (resource : String) : Prop :=
  ∀ e ∈ limiter.executing, e.resource ≠ resource

instance (limiter : PrivilegedLimiter) (resource : String) : Decidable (limiter.Free resource) :=
  inferInstanceAs (Decidable (∀ _ ∈ _, _))

def step (limiter : PrivilegedLimiter) : LimiterEvent → PrivilegedLimiter
  | .arrive call => { limiter with queued := limiter.queued ++ [call] }
  | .acquire call =>
      -- the slot comes first, before the call asks for the lock of its resource
      if call ∈ limiter.queued ∧ limiter.holders.length < limiter.cap then
        { limiter with queued := limiter.queued.erase call, slotted := call :: limiter.slotted }
      else limiter
  | .queueBudgetExpired call => { limiter with queued := limiter.queued.erase call }
  | .lockResource call =>
      if call ∈ limiter.slotted ∧ limiter.Free call.resource then
        { limiter with
          slotted := limiter.slotted.erase call, executing := call :: limiter.executing }
      else limiter
  | .abandon call => { limiter with slotted := limiter.slotted.erase call }
  | .finish call => { limiter with executing := limiter.executing.erase call }

section Step

variable {limiter : PrivilegedLimiter} {call : LimiterCall}

theorem step_acquire : limiter.step (.acquire call) =
    if call ∈ limiter.queued ∧ limiter.holders.length < limiter.cap then
      { limiter with queued := limiter.queued.erase call, slotted := call :: limiter.slotted }
    else limiter := rfl

theorem step_lockResource : limiter.step (.lockResource call) =
    if call ∈ limiter.slotted ∧ limiter.Free call.resource then
      { limiter with
        slotted := limiter.slotted.erase call, executing := call :: limiter.executing }
    else limiter := rfl

/-- The slots bound how many operations run at once, and the locks let one run on each
resource. -/
structure Bounded (limiter : PrivilegedLimiter) : Prop where
  slots : limiter.holders.length ≤ limiter.cap
  serialized : (limiter.executing.map LimiterCall.resource).Nodup

/-- A call keeps its slot when it takes the lock. -/
theorem holders_lockResource_perm (hcall : call ∈ limiter.slotted) :
    (limiter.slotted.erase call ++ call :: limiter.executing).Perm limiter.holders :=
  List.perm_middle.trans ((List.perm_cons_erase hcall).symm.append_right _)

theorem Bounded.step (h : limiter.Bounded) (event : LimiterEvent) :
    (limiter.step event).Bounded := by
  cases event with
  | arrive call => exact ⟨h.slots, h.serialized⟩
  | acquire call =>
      rw [step_acquire]
      split_ifs with hcan
      · exact ⟨Nat.succ_le_of_lt hcan.2, h.serialized⟩
      · exact h
  | queueBudgetExpired call => exact ⟨h.slots, h.serialized⟩
  | lockResource call =>
      rw [step_lockResource]
      split_ifs with hcan
      · have hslots := (holders_lockResource_perm hcan.1).length_eq
        refine ⟨Nat.le_trans (Nat.le_of_eq hslots) h.slots, ?_⟩
        rw [List.map_cons, List.nodup_cons]
        refine ⟨fun hmem => ?_, h.serialized⟩
        obtain ⟨e, he, hresource⟩ := List.mem_map.mp hmem
        exact hcan.2 e he hresource
      · exact h
  | abandon call =>
      have hsub : (limiter.slotted.erase call ++ limiter.executing).Sublist limiter.holders :=
        List.erase_sublist.append_right _
      exact ⟨Nat.le_trans hsub.length_le h.slots, h.serialized⟩
  | finish call =>
      have hsub : (limiter.slotted ++ limiter.executing.erase call).Sublist limiter.holders :=
        List.erase_sublist.append_left _
      exact ⟨Nat.le_trans hsub.length_le h.slots,
        h.serialized.sublist (List.erase_sublist.map _)⟩

end Step

/-- In every run, at most as many operations run as there are slots, and never two of them on one
resource. -/
theorem bounded_run (maxConcurrent : Nat) (events : List LimiterEvent) :
    (Machine.run step (new maxConcurrent) events).Bounded :=
  Machine.invariant ⟨Nat.zero_le _, List.nodup_nil⟩ (fun _ event h => h.step event) events

/-! ### What the limiter is for -/

/-- The call does nothing with its slot but wait for an operation on its resource. -/
def OnlyWaits (limiter : PrivilegedLimiter) (call : LimiterCall) : Prop :=
  call ∈ limiter.slotted ∧ ¬ limiter.Free call.resource

/-- The call wants a slot, there is none, and one is held by a call that only waits for another
resource. -/
def Prevented (limiter : PrivilegedLimiter) (call : LimiterCall) : Prop :=
  call ∈ limiter.queued ∧ limiter.cap ≤ limiter.holders.length ∧
    ∃ waiter, limiter.OnlyWaits waiter ∧ waiter.resource ≠ call.resource

/-- Unrelated work is not blocked: while fewer operations run than may, no call for a resource
without an operation is prevented from starting by calls that only wait for another resource. -/
def Unblocked (limiter : PrivilegedLimiter) : Prop :=
  limiter.executing.length < limiter.cap →
    ∀ call ∈ limiter.queued ++ limiter.slotted, limiter.Free call.resource →
      ¬ limiter.Prevented call

/-- The holders of the slots are for different resources, or all calls are for the same one. -/
def Apart (holders queued : List LimiterCall) : Prop :=
  (holders.map LimiterCall.resource).Nodup ∨
    ∀ a ∈ holders ++ queued, ∀ b ∈ holders ++ queued, a.resource = b.resource

instance (holders queued : List LimiterCall) : Decidable (Apart holders queued) :=
  inferInstanceAs (Decidable (_ ∨ _))

/-- When all slots are taken and a call is left to wait for one, the holders of the slots are for
different resources, or all calls are for the same one. -/
def KeepsApart (limiter : PrivilegedLimiter) : LimiterEvent → Prop
  | .arrive call =>
      limiter.cap ≤ limiter.holders.length → Apart limiter.holders (limiter.queued ++ [call])
  | .acquire call =>
      limiter.cap = limiter.holders.length + 1 → limiter.queued.erase call ≠ [] →
        Apart (call :: limiter.holders) (limiter.queued.erase call)
  | _ => True

instance (limiter : PrivilegedLimiter) : (event : LimiterEvent) →
    Decidable (limiter.KeepsApart event)
  | .arrive _ => inferInstanceAs (Decidable (_ → _))
  | .acquire _ => inferInstanceAs (Decidable (_ → _ → _))
  | .queueBudgetExpired _ | .lockResource _ | .abandon _ | .finish _ => isTrue trivial

/-! ### One step -/

variable {limiter : PrivilegedLimiter} {holders holders' queued queued' : List LimiterCall}
  {call : LimiterCall}

theorem Apart.mono (h : Apart holders queued) (hholders : holders'.Subperm holders)
    (hqueued : queued' ⊆ queued) : Apart holders' queued' := by
  have hsubset : holders' ++ queued' ⊆ holders ++ queued :=
    List.append_subset.mpr ⟨List.Subset.trans hholders.subset (List.subset_append_left _ _),
      List.Subset.trans hqueued (List.subset_append_right _ _)⟩
  rcases h with hdiff | hsame
  · obtain ⟨l, hperm, hsub⟩ := hholders
    exact .inl ((hperm.map _).nodup_iff.mp (hdiff.sublist (hsub.map _)))
  · exact .inr fun a ha b hb => hsame a (hsubset ha) b (hsubset hb)

/-- What the condition keeps. -/
def Separate (limiter : PrivilegedLimiter) : Prop :=
  limiter.cap ≤ limiter.holders.length → limiter.queued ≠ [] →
    Apart limiter.holders limiter.queued

/-- Giving back a slot, or waiting no longer, leaves the others apart. -/
theorem Separate.mono {limiter' : PrivilegedLimiter} (h : limiter.Separate)
    (hcap : limiter'.cap = limiter.cap) (hholders : limiter'.holders.Subperm limiter.holders)
    (hqueued : limiter'.queued ⊆ limiter.queued) : limiter'.Separate := by
  intro hfull hne
  have hfull' : limiter.cap ≤ limiter.holders.length := by
    rw [← hcap]
    exact Nat.le_trans hfull hholders.length_le
  have hqueue : limiter.queued ≠ [] := fun hnil =>
    hne (List.eq_nil_of_subset_nil (hnil ▸ hqueued))
  exact (h hfull' hqueue).mono hholders hqueued

theorem Separate.step (h : limiter.Separate) {event : LimiterEvent}
    (hevent : limiter.KeepsApart event) : (limiter.step event).Separate := by
  cases event with
  | arrive call => exact fun hfull _ => hevent hfull
  | acquire call =>
      rw [step_acquire]
      split_ifs with hcan
      · intro hfull hne
        exact hevent (Nat.le_antisymm hfull hcan.2) hne
      · exact h
  | queueBudgetExpired call => exact h.mono rfl (List.Subperm.refl _) (List.erase_subset)
  | lockResource call =>
      rw [step_lockResource]
      split_ifs with hcan
      · -- the holders of the slots stay the same
        exact h.mono rfl (holders_lockResource_perm hcan.1).subperm (List.Subset.refl _)
      · exact h
  | abandon call =>
      exact h.mono rfl ((List.erase_sublist).append_right _).subperm (List.Subset.refl _)
  | finish call =>
      exact h.mono rfl ((List.erase_sublist).append_left _).subperm (List.Subset.refl _)

theorem Separate.unblocked (h : limiter.Separate) : limiter.Unblocked := by
  rintro - call - - ⟨hqueued, hfull, waiter, ⟨hwaiter, hbusy⟩, hother⟩
  obtain ⟨e, he, hresource⟩ : ∃ e ∈ limiter.executing, e.resource = waiter.resource := by
    by_contra hnone
    exact hbusy fun e he hresource => hnone ⟨e, he, hresource⟩
  rcases h hfull (List.ne_nil_of_mem hqueued) with hdiff | hsame
  · -- the waiter and the operation it waits for both hold a slot
    rw [PrivilegedLimiter.holders, List.map_append] at hdiff
    exact (List.nodup_append.mp hdiff).2.2 _ (List.mem_map_of_mem hwaiter) _
      (List.mem_map_of_mem he) hresource.symm
  · refine hother (hsame _ ?_ _ (List.mem_append_right _ hqueued))
    exact List.mem_append_left _ (List.mem_append_left _ hwaiter)

/-- Where two holders of the slots are for one resource, all slots are taken, and an unrelated call
waits for one, that call is blocked, at the latest when the resource is locked. -/
theorem blocked_of_shared {a b : LimiterCall} (hbounded : limiter.Bounded)
    (hfull : limiter.cap ≤ limiter.holders.length) (ha : a ∈ limiter.slotted)
    (hb : b ∈ limiter.slotted.erase a ++ limiter.executing) (hshared : b.resource = a.resource)
    (hcall : call ∈ limiter.queued)
    (hunrelated : ∀ w ∈ limiter.holders, w.resource ≠ call.resource) :
    ¬ limiter.Unblocked ∨ ¬ (limiter.step (.lockResource a)).Unblocked := by
  have hother : a.resource ≠ call.resource := hunrelated a (List.mem_append_left _ ha)
  have hcount : limiter.holders.length = limiter.slotted.length + limiter.executing.length :=
    List.length_append
  by_cases hfree : limiter.Free a.resource
  · -- then the other is still to lock the resource, and it finds it locked
    have hb' : b ∈ limiter.slotted.erase a := by
      rcases List.mem_append.mp hb with hb | hb
      · exact hb
      · exact absurd hshared (hfree b hb)
    have herase := List.length_erase_of_mem ha
    have hpos : 0 < (limiter.slotted.erase a).length := List.length_pos_of_mem hb'
    have hslots := hbounded.slots
    refine .inr fun h => ?_
    rw [step_lockResource, if_pos ⟨ha, hfree⟩] at h
    refine h ?_ call (List.mem_append_left _ hcall) (fun e he => ?_)
      ⟨hcall, ?_, b, ⟨hb', fun hlocked => ?_⟩, hshared.trans_ne hother⟩
    · show limiter.executing.length + 1 < limiter.cap
      omega
    · rcases List.mem_cons.mp he with rfl | he
      · exact hother
      · exact hunrelated e (List.mem_append_right _ he)
    · exact Nat.le_trans hfull (Nat.le_of_eq (holders_lockResource_perm ha).length_eq.symm)
    · exact hlocked a List.mem_cons_self hshared.symm
  · have hpos : 0 < limiter.slotted.length := List.length_pos_of_mem ha
    have hslots := hbounded.slots
    refine .inl fun h => h (by omega) call (List.mem_append_left _ hcall) (fun e he => ?_)
      ⟨hcall, hfull, a, ⟨ha, hfree⟩, hother⟩
    exact hunrelated e (List.mem_append_right _ he)

/-! ### Runs -/

/-- In a run that keeps the holders of the slots apart, unrelated work is never blocked. -/
theorem unblocked_of_apart (maxConcurrent : Nat) (events : List LimiterEvent)
    (h : Machine.Every step KeepsApart (new maxConcurrent) events) (n : Nat) :
    (Machine.run step (new maxConcurrent) (events.take n)).Unblocked := by
  -- the events up to there are a run of their own
  have htake : Machine.Every step KeepsApart (new maxConcurrent) (events.take n) := by
    rw [← List.take_append_drop n events, Machine.every_append] at h
    exact h.1
  have hseparate := htake.invariant (I := Separate) (fun _ hne => absurd rfl hne)
    fun limiter event hinv hevent => hinv.step hevent
  exact hseparate.unblocked

/-- Two calls for one service, and one for another. -/
def restart1 : LimiterCall := ⟨1, "nginx.service"⟩
def restart2 : LimiterCall := ⟨2, "nginx.service"⟩
def restart3 : LimiterCall := ⟨3, "postgres.service"⟩

/-- The calls for different services take the slots, and the third call waits for one. -/
theorem unblocked_two_services : Unblocked (Machine.run step (new 2)
    ([.arrive restart1, .acquire restart1, .lockResource restart1, .arrive restart3,
      .acquire restart3, .arrive restart2].take 6)) :=
  unblocked_of_apart 2 _ (by decide) 6

/-- The calls for one service take the slots. One of them runs, the other waits for it, and the call
for the other service waits too. -/
theorem not_unblocked : ¬ Unblocked (Machine.run step (new 2)
    [.arrive restart1, .acquire restart1, .lockResource restart1, .arrive restart2,
      .acquire restart2, .arrive restart3]) := by
  intro h
  exact h (by decide) restart3 (by decide) (by decide)
    ⟨by decide, by decide, restart2, ⟨by decide, by decide⟩, by decide⟩

end PrivilegedLimiter
end Argus
