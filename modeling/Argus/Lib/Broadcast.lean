import Mathlib.Algebra.Ring.Nat
import Mathlib.Tactic.SplitIfs

/-!
# A broadcast channel that forgets

Sending never waits. The channel keeps the newest messages it has room for, and numbers all of
them. A receiver reads at a position of its own; when the channel has forgotten the message there,
the receiver is told how many it has missed, and goes on with the oldest that is left.

`Heard` relates what was sent to what a receiver was told, in order: every message was delivered, or
was in a gap that was reported with its length. `Subscription.Sound` says that what a receiver was
told accounts for everything sent before its position. Sends and receptions keep it, however they
alternate.
-/

namespace Broadcast

variable {α : Type*}

/-- The messages a channel still has, oldest first, and how many it has forgotten. -/
structure Channel (α : Type*) where
  room : Nat
  held : List α
  forgotten : Nat
  room_pos : 0 < room
  bounded : held.length ≤ room

namespace Channel

/-- The position of the next message. -/
def tail (channel : Channel α) : Nat := channel.forgotten + channel.held.length

/-- A channel nothing was sent on. -/
def new (room : Nat) (room_pos : 0 < room) : Channel α where
  room
  held := []
  forgotten := 0
  room_pos
  bounded := Nat.zero_le room

/-- A full channel forgets its oldest message. -/
def send (channel : Channel α) (message : α) : Channel α :=
  if h : channel.held.length < channel.room then
    { channel with
      held := channel.held ++ [message]
      bounded := by rw [List.length_append, List.length_singleton]; exact h }
  else
    { channel with
      held := channel.held.tail ++ [message]
      forgotten := channel.forgotten + 1
      bounded := by
        have := channel.room_pos
        have := channel.bounded
        simp only [List.length_append, List.length_tail, List.length_singleton]
        omega }

end Channel

/-- What a receiver is told. -/
inductive Received (α : Type*)
  | message (message : α)
  /-- So many messages were forgotten before they were read. -/
  | lagged (missed : Nat)
  | empty

/-- Reads at a position. -/
def tryRecv (channel : Channel α) (next : Nat) : Received α × Nat :=
  if next < channel.forgotten then
    (.lagged (channel.forgotten - next), channel.forgotten)
  else
    match channel.held[next - channel.forgotten]? with
    | some message => (.message message, next + 1)
    | none => (.empty, next)

/-- What was sent, and what of it a receiver was told. -/
inductive Heard : List α → List (Received α) → Prop
  | nil : Heard [] []
  | message {sent : List α} {told : List (Received α)} (h : Heard sent told) (message : α) :
      Heard (sent ++ [message]) (told ++ [.message message])
  | lagged {sent : List α} {told : List (Received α)} (h : Heard sent told) (gap : List α)
      (nonempty : gap ≠ []) : Heard (sent ++ gap) (told ++ [.lagged gap.length])
  | empty {sent : List α} {told : List (Received α)} (h : Heard sent told) :
      Heard sent (told ++ [.empty])

/-- The message of an answer. -/
def Received.content : Received α → Option α
  | .message sent => some sent
  | .lagged _ | .empty => none

/-- How many messages an answer reports as missed. -/
def Received.missed : Received α → Nat
  | .lagged missed => missed
  | .message _ | .empty => 0

/-- The messages that were delivered. -/
def delivered (told : List (Received α)) : List α := told.filterMap Received.content

/-- How many messages were reported as missed. -/
def missed (told : List (Received α)) : Nat := (told.map Received.missed).sum

section

variable {sent : List α} {told : List (Received α)}

@[simp] theorem delivered_nil : delivered ([] : List (Received α)) = [] := rfl

@[simp] theorem missed_nil : missed ([] : List (Received α)) = 0 := rfl

@[simp] theorem delivered_append (told told' : List (Received α)) :
    delivered (told ++ told') = delivered told ++ delivered told' :=
  List.filterMap_append

@[simp] theorem missed_append (told told' : List (Received α)) :
    missed (told ++ told') = missed told + missed told' := by
  simp [missed]

/-- Every message was delivered or reported as missed. -/
theorem Heard.length (h : Heard sent told) :
    sent.length = (delivered told).length + missed told := by
  induction h with
  | nil => rfl
  | message _ message ih =>
      rw [delivered_append, missed_append, List.length_append, List.length_append, ih]
      simp only [delivered, missed, List.filterMap_cons, Received.content, List.map_cons,
        Received.missed, List.filterMap_nil, List.map_nil, List.sum_cons, List.sum_nil,
        List.length_singleton]
      omega
  | lagged _ gap _ ih =>
      rw [delivered_append, missed_append, List.length_append, List.length_append, ih]
      simp only [delivered, missed, List.filterMap_cons, Received.content, List.map_cons,
        Received.missed, List.filterMap_nil, List.map_nil, List.sum_cons, List.sum_nil,
        List.length_nil]
      omega
  | empty _ ih =>
      rw [delivered_append, missed_append, List.length_append, ih]
      rfl

/-- What was delivered was sent, in that order and not twice. -/
theorem Heard.sublist (h : Heard sent told) : (delivered told).Sublist sent := by
  induction h with
  | nil => exact List.Sublist.refl _
  | message _ message ih =>
      rw [delivered_append]
      exact ih.append (List.Sublist.refl _)
  | lagged _ gap _ ih =>
      rw [delivered_append]
      exact ih.append (List.nil_sublist gap)
  | empty _ ih =>
      rw [delivered_append]
      exact (List.append_nil _).symm ▸ ih

/-- A receiver that missed nothing was told everything. -/
theorem Heard.eq_of_missed (h : Heard sent told) (hmissed : missed told = 0) :
    delivered told = sent :=
  h.sublist.eq_of_length (by have := h.length; omega)

end

/-! ### One receiver -/

/-- A channel with a receiver that subscribed to it. -/
structure Subscription (α : Type*) where
  channel : Channel α
  next : Nat
  /-- What was sent since. -/
  sent : List α
  /-- What the receiver was told. -/
  told : List (Received α)

namespace Subscription

/-- A receiver begins at the tail. -/
def subscribe (channel : Channel α) : Subscription α := ⟨channel, channel.tail, [], []⟩

def send (s : Subscription α) (message : α) : Subscription α :=
  { s with channel := s.channel.send message, sent := s.sent ++ [message] }

def receive (s : Subscription α) : Subscription α :=
  { s with
    next := (tryRecv s.channel s.next).2
    told := s.told ++ [(tryRecv s.channel s.next).1] }

/-- What the channel still has for the receiver. -/
def left (s : Subscription α) : List α := s.channel.held.drop (s.next - s.channel.forgotten)

/-- What the receiver was told accounts for what was sent before its position; `unread` was sent
after it, and the channel has the end of it. -/
structure Sound (s : Subscription α) (unread : List α) : Prop where
  heard : ∃ before, Heard before s.told ∧ s.sent = before ++ unread
  tail : s.channel.tail = s.next + unread.length
  held : unread.drop (s.channel.forgotten - s.next) = s.left

variable {s : Subscription α} {unread : List α}

theorem sound_subscribe (channel : Channel α) : Sound (subscribe channel) [] where
  heard := ⟨[], .nil, rfl⟩
  tail := rfl
  held := by simp [subscribe, left, Channel.tail]

theorem tail_send (channel : Channel α) (message : α) :
    (channel.send message).tail = channel.tail + 1 := by
  have hroom := channel.room_pos
  unfold Channel.send Channel.tail
  split_ifs with h
  · simp only [List.length_append, List.length_singleton]
    omega
  · simp only [List.length_append, List.length_tail, List.length_singleton]
    omega

theorem Sound.send (h : Sound s unread) (message : α) :
    Sound (s.send message) (unread ++ [message]) where
  heard := by
    obtain ⟨before, hheard, hsent⟩ := h.heard
    exact ⟨before, hheard, by simp [Subscription.send, hsent]⟩
  tail := by
    show (s.channel.send message).tail = s.next + (unread ++ [message]).length
    rw [tail_send, h.tail]
    simp [Nat.add_assoc]
  held := by
    have htail := h.tail
    have hheld := h.held
    rw [left] at hheld
    have hroom := s.channel.room_pos
    simp only [Channel.tail] at htail
    show (unread ++ [message]).drop ((s.channel.send message).forgotten - s.next) =
      (s.channel.send message).held.drop (s.next - (s.channel.send message).forgotten)
    unfold Channel.send
    split_ifs with hspace
    · dsimp only
      rw [List.drop_append_of_le_length (by omega), List.drop_append_of_le_length (by omega), hheld]
    · -- the oldest is forgotten: the receiver is past it, or has one more message to miss
      dsimp only
      have htailLength : s.channel.held.tail.length = s.channel.held.length - 1 :=
        List.length_tail
      rw [List.drop_append_of_le_length (by omega), List.drop_append_of_le_length (by omega),
        ← List.drop_one, List.drop_drop]
      by_cases hpast : s.channel.forgotten < s.next
      · have hsame : s.channel.forgotten + 1 - s.next = s.channel.forgotten - s.next := by omega
        have hone : s.next - (s.channel.forgotten + 1) + 1 = s.next - s.channel.forgotten := by
          omega
        rw [hsame, hheld, Nat.add_comm 1, hone]
      · have hmore : s.channel.forgotten + 1 - s.next = s.channel.forgotten - s.next + 1 := by
          omega
        have hzero : s.next - s.channel.forgotten = 0 := by omega
        rw [hmore, ← List.drop_drop, hheld, hzero]
        simp [show s.next - (s.channel.forgotten + 1) = 0 by omega]

/-- A reception reads off the front of what is unread. -/
theorem Sound.receive (h : Sound s unread) :
    ∃ read rest, unread = read ++ rest ∧ Sound s.receive rest := by
  obtain ⟨before, hheard, hsent⟩ := h.heard
  have htail := h.tail
  have hheld := h.held
  rw [left] at hheld
  simp only [Channel.tail] at htail
  by_cases hlag : s.next < s.channel.forgotten
  · -- the first unread messages are gone
    refine ⟨unread.take (s.channel.forgotten - s.next), unread.drop (s.channel.forgotten - s.next),
      (List.take_append_drop _ _).symm, ?_⟩
    have hanswer : tryRecv s.channel s.next =
        (.lagged (s.channel.forgotten - s.next), s.channel.forgotten) := by
      simp [tryRecv, hlag]
    have hlength : (unread.take (s.channel.forgotten - s.next)).length =
        s.channel.forgotten - s.next := by
      rw [List.length_take]
      omega
    refine ⟨⟨before ++ unread.take (s.channel.forgotten - s.next), ?_, ?_⟩, ?_, ?_⟩
    · simp only [Subscription.receive, hanswer]
      have hgap : unread.take (s.channel.forgotten - s.next) ≠ [] := by
        rw [← List.length_pos_iff, hlength]
        omega
      have := hheard.lagged _ hgap
      rwa [hlength] at this
    · show s.sent = _
      rw [List.append_assoc, List.take_append_drop, hsent]
    · simp only [Subscription.receive, hanswer, Channel.tail, List.length_drop]
      omega
    · simp only [Subscription.receive, left, hanswer, Nat.sub_self, List.drop_zero]
      rw [hheld]
      simp [show s.next - s.channel.forgotten = 0 by omega]
  · have hzero : s.channel.forgotten - s.next = 0 := by omega
    rw [hzero, List.drop_zero] at hheld
    cases hunread : unread with
    | nil =>
        have hanswer : tryRecv s.channel s.next = (.empty, s.next) := by
          have hnone : s.channel.held[s.next - s.channel.forgotten]? = none := by
            rw [List.getElem?_eq_none_iff]
            simp only [hunread, List.length_nil] at htail
            omega
          simp [tryRecv, hlag, hnone]
        refine ⟨[], [], rfl, ⟨before, ?_, ?_⟩, ?_, ?_⟩
        · simp only [Subscription.receive, hanswer]
          exact hheard.empty
        · rw [hunread] at hsent
          exact hsent
        · simp only [Subscription.receive, hanswer, Channel.tail]
          rw [hunread] at htail
          exact htail
        · simp only [Subscription.receive, left, hanswer, hzero]
          rw [← hheld, hunread]
          rfl
    | cons message rest =>
        have hanswer : tryRecv s.channel s.next = (.message message, s.next + 1) := by
          have hsome : s.channel.held[s.next - s.channel.forgotten]? = some message := by
            rw [← List.head?_drop, ← hheld, hunread]
            rfl
          simp [tryRecv, hlag, hsome]
        refine ⟨[message], rest, rfl, ⟨before ++ [message], ?_, ?_⟩, ?_, ?_⟩
        · simp only [Subscription.receive, hanswer]
          exact hheard.message message
        · show s.sent = _
          rw [hsent, hunread]
          simp
        · simp only [Subscription.receive, hanswer, Channel.tail]
          rw [hunread, List.length_cons] at htail
          omega
        · simp only [Subscription.receive, left, hanswer]
          have hmore : s.next + 1 - s.channel.forgotten = s.next - s.channel.forgotten + 1 := by
            omega
          rw [hmore, ← List.drop_drop, ← hheld, hunread]
          simp [show s.channel.forgotten - (s.next + 1) = 0 by omega]

/-! ### A receiver that keeps up -/

/-- The channel has everything that is unread, and nothing was missed. -/
structure Caught (s : Subscription α) : Prop where
  kept : s.channel.forgotten ≤ s.next
  missed : missed s.told = 0

theorem Caught.subscribe (channel : Channel α) : Caught (.subscribe channel) :=
  ⟨Nat.le_add_right _ _, rfl⟩

/-- A message that finds room for the unread ones pushes none of them out. -/
theorem Caught.send (h : Caught s) (message : α)
    (hroom : s.channel.tail < s.next + s.channel.room) : Caught (s.send message) where
  kept := by
    have hkept := h.kept
    simp only [Channel.tail] at hroom
    show (s.channel.send message).forgotten ≤ s.next
    unfold Channel.send
    split_ifs
    · exact hkept
    · dsimp only
      omega
  missed := h.missed

theorem Caught.receive (h : Caught s) : Caught s.receive := by
  have hlag : ¬ s.next < s.channel.forgotten := Nat.not_lt.mpr h.kept
  have hanswer : (tryRecv s.channel s.next).1.missed = 0 ∧
      s.next ≤ (tryRecv s.channel s.next).2 := by
    unfold tryRecv
    rw [if_neg hlag]
    split
    · exact ⟨rfl, Nat.le_succ _⟩
    · exact ⟨rfl, Nat.le_refl _⟩
  constructor
  · exact Nat.le_trans h.kept hanswer.2
  · rw [Subscription.receive, missed_append, h.missed]
    exact (Nat.zero_add _).trans hanswer.1

/-- What was not read yet is what the channel has. -/
theorem Caught.unread_eq (h : Caught s) (hsound : Sound s unread) : unread = s.left := by
  rw [← hsound.held, Nat.sub_eq_zero_of_le h.kept, List.drop_zero]

end Subscription

end Broadcast
