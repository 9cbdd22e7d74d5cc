import Argus.Daemon.CloudCustody

/-!
# The bounds of the ledger buffer

An action is pushed when there is room, and a trace after making room. What comes back from a
session is put back without looking at the capacities, while new events were accepted in its
place. The bounds hold, and a push that follows a sacrifice succeeds, as long as there is room
for what comes back (`HasRoom`, `ledger_bounded`). A full buffer that is flushed and refilled
while the entries are in flight holds more than its capacity after the session, and then a
sacrifice may not make room for one action (`ledger_overflows`).
-/

namespace Argus.Custody

/-- The capacities are kept, and a sacrifice makes room for an action. -/
structure Bounded (s : Custody) : Prop where
  actions : s.ledger.actions.length ≤ ledgerActionCapacity
  traces : s.ledger.traces.length ≤ ledgerTraceCapacity
  room : ∀ payload at_, ((s.ledger.sacrificeActions (ledgerActionCapacity / 4)).2.tryPushAction
    s.minted payload at_).isSome = true

/-- There is room for the actions and the traces that come back. -/
def HasRoom (s : Custody) (e : CustodyEvent) : Prop :=
  s.ledger.actions.length + (s.back e).countP (fun entry => entry.kind == .actionLedger) ≤
      ledgerActionCapacity ∧
    s.ledger.traces.length + (s.back e).countP (fun entry => entry.kind == .brainTrace) ≤
      ledgerTraceCapacity

instance (s : Custody) (e : CustodyEvent) : Decidable (s.HasRoom e) :=
  inferInstanceAs (Decidable (_ ∧ _))

/-- The two streams are within their capacities. -/
def Within (s : Custody) : Prop :=
  s.ledger.actions.length ≤ ledgerActionCapacity ∧ s.ledger.traces.length ≤ ledgerTraceCapacity

variable {s s' : Custody} {entries : List BufferedReport} {e : CustodyEvent}

/-- A sacrifice of a buffer within its capacity makes room. -/
theorem Within.bounded (h : Within s) : Bounded s where
  actions := h.1
  traces := h.2
  room payload at_ := by
    have hlength := h.1
    have hroom : ¬ ledgerActionCapacity ≤
        (s.ledger.sacrificeActions (ledgerActionCapacity / 4)).2.actions.length := by
      simp only [LedgerBuffer.sacrificeActions, List.length_drop, ledgerActionCapacity] at hlength ⊢
      omega
    simp only [LedgerBuffer.tryPushAction, if_neg hroom, Option.isSome_some]

/-! ### What comes back -/

/-- As many entries of a ledger kind are put back as there are. -/
theorem filter_length (kind : ReportKind) (hkind : kind.isLedger = true) :
    ((entries.filter fun entry => entry.kind.isLedger).filter
      fun entry => entry.kind == kind).length = entries.countP fun entry => entry.kind == kind := by
  rw [List.filter_filter, List.countP_eq_length_filter]
  congr 1
  refine List.filter_congr ?_
  intro entry _
  by_cases heq : entry.kind = kind
  · simp [heq, hkind]
  · simp [heq]

theorem putBack_lengths (h : PutBack s s' entries) :
    s'.ledger.actions.length = entries.countP (fun entry => entry.kind == .actionLedger) +
      s.ledger.actions.length ∧
    s'.ledger.traces.length = entries.countP (fun entry => entry.kind == .brainTrace) +
      s.ledger.traces.length := by
  rw [h.ledger, ← filter_length .actionLedger rfl, ← filter_length .brainTrace rfl]
  exact ⟨List.length_append, List.length_append⟩

theorem goesBack_lengths (h : GoesBack s e) :
    (s.step e).ledger.actions.length =
      (s.back e).countP (fun entry => entry.kind == .actionLedger) + s.ledger.actions.length ∧
    (s.step e).ledger.traces.length =
      (s.back e).countP (fun entry => entry.kind == .brainTrace) + s.ledger.traces.length := by
  obtain ⟨entries, hperm, -, hput⟩ := h
  have hlengths := putBack_lengths hput
  rwa [hperm.countP_eq, hperm.countP_eq] at hlengths

theorem Within.goesBack (hroom : s.HasRoom e) (h : GoesBack s e) : Within (s.step e) := by
  obtain ⟨hactions, htraces⟩ := goesBack_lengths h
  rw [Within, hactions, htraces, Nat.add_comm, Nat.add_comm _ s.ledger.traces.length]
  exact hroom

/-! ### The producers -/

theorem Within.pushed (h : Within s) {ledger : LedgerBuffer}
    {payload : Value} {at_ : DateTime} {minted : Nat}
    (hpush : s.ledger.tryPushAction s.minted payload at_ = some ledger) :
    Within { s with ledger, minted } := by
  obtain ⟨hroom, rfl⟩ := LedgerBuffer.tryPushAction_inv hpush
  refine ⟨?_, h.2⟩
  rw [List.length_append]
  exact hroom

theorem Within.pushAction (h : Within s) (payload : Value) (at_ : DateTime) :
    Within (s.step (.pushAction payload at_)) := by
  simp only [Custody.step]
  split
  next => exact h
  next ledger hpush => exact h.pushed hpush

theorem pushTrace_length (s : Custody) (payload : Value) (at_ : DateTime) :
    (s.ledger.pushTrace s.minted payload at_).2.traces.length ≤ ledgerTraceCapacity := by
  have hshed := ReportQueue.shed_length (ledgerTraceCapacity - 1) s.ledger.traces
    s.ledger.droppedTraces
  simp only [LedgerBuffer.pushTrace, List.length_append, List.length_singleton]
  exact Nat.succ_le_succ hshed

theorem Within.step (h : Within s) (hroom : s.HasRoom e) : Within (s.step e) := by
  cases e with
  | enqueue kind report payload at_ => exact h
  | pushAction payload at_ => exact h.pushAction payload at_
  | forceAction payload at_ =>
      have hsacrificed : Within s.makeRoom := ⟨(List.drop_sublist _ _).length_le.trans h.1, h.2⟩
      exact hsacrificed.pushAction payload at_
  | pushTrace payload at_ => exact ⟨h.1, s.pushTrace_length payload at_⟩
  | pushUsage usage => exact h
  | flushReports at_ =>
      simp only [Custody.step]
      split_ifs
      · exact h
      · exact h
  | flushLedger at_ =>
      simp only [Custody.step]
      split_ifs
      · exact ⟨Nat.zero_le _, Nat.zero_le _⟩
      · exact h
  | send =>
      simp only [Custody.step]
      split
      next => exact h
      next => exact h
  | sendFails hash => exact Within.goesBack hroom (s.goesBack_sendFails hash)
  | inbound messageType ack => exact Within.goesBack hroom (s.goesBack_inbound messageType ack)
  | endSession hash => exact Within.goesBack hroom (s.goesBack_endSession hash)

/-- **The ledger buffer is bounded, and has room after a sacrifice**, in every run in which there
is room for what comes back. -/
theorem ledger_bounded {capacity : Nat} {events : List CustodyEvent}
    (h : Machine.Every Custody.step HasRoom (start capacity) events) :
    Bounded (after capacity events) := by
  have hwithin : Within (after capacity events) :=
    h.invariant ⟨Nat.zero_le _, Nat.zero_le _⟩ fun _ _ hs hroom => hs.step hroom
  exact hwithin.bounded

/-- An action is recorded and sent, and comes back. -/
def oneAction : List CustodyEvent :=
  [.pushAction .null ⟨0⟩, .flushLedger ⟨0⟩, .send, .endSession fun _ => 0]

theorem ledger_bounded_one :
    Machine.Every Custody.step HasRoom (start 8) oneAction ∧ Bounded (after 8 oneAction) :=
  ⟨by decide, ledger_bounded (by decide)⟩

/-! ### A buffer that overflows -/

/-- Actions are recorded. -/
def records (n : Nat) : List CustodyEvent := List.replicate n (.pushAction .null ⟨0⟩)

/-- `n` actions are recorded and sent, `m` more are recorded, and the session ends. -/
def refilled (n m : Nat) : List CustodyEvent :=
  records n ++ .flushLedger ⟨0⟩ :: List.replicate n .send ++ records m ++ [.endSession fun _ => 0]

theorem pushAction_eq {payload : Value} {at_ : DateTime}
    (h : s.ledger.actions.length < ledgerActionCapacity) :
    s.step (.pushAction payload at_) =
      { s with
        ledger := { s.ledger with
          actions := s.ledger.actions ++ [.fresh s.minted .actionLedger (.value payload) at_] }
        minted := s.minted + 1 } := by
  simp only [Custody.step, LedgerBuffer.tryPushAction, if_neg (Nat.not_le.mpr h)]

/-- Actions that find room are added, and nothing else changes. -/
theorem run_records {n : Nat} (h : s.ledger.actions.length + n ≤ ledgerActionCapacity)
    (heq : s' = Machine.run Custody.step s (records n)) :
    s'.ledger.actions.length = s.ledger.actions.length + n ∧ s'.ledger.traces = s.ledger.traces ∧
      s'.ledger.usage = s.ledger.usage ∧ s'.sending = s.sending ∧ s'.inFlight = s.inFlight := by
  subst heq
  induction n with
  | zero => exact ⟨rfl, rfl, rfl, rfl, rfl⟩
  | succ n ih =>
      obtain ⟨hlength, htraces, husage, hsending, hinFlight⟩ := ih (by omega)
      rw [records, List.replicate_succ', Machine.run_append, Machine.run_singleton]
      rw [records] at hlength htraces husage hsending hinFlight
      rw [pushAction_eq (by omega)]
      refine ⟨?_, htraces, husage, hsending, hinFlight⟩
      simp only [List.length_append, List.length_singleton, hlength]
      omega

/-- Sends take what was drained into flight. -/
theorem run_sends {sending : List BufferedReport} (h : s.sending = sending)
    (heq : s' = Machine.run Custody.step s (List.replicate sending.length .send)) :
    s'.sending = [] ∧ s'.ledger = s.ledger ∧
      s'.inFlight.map Prod.snd = s.inFlight.map Prod.snd ++ sending := by
  subst heq
  induction sending generalizing s with
  | nil => exact ⟨h, rfl, by simp⟩
  | cons entry rest ih =>
      have hstep : s.step .send = { s.post entry with
          sending := rest
          inFlight := s.inFlight ++ [(s.messages, entry)] } := by
        simp only [Custody.step, h]
      obtain ⟨hsending, hledger, hinFlight⟩ := ih (s := s.step .send) (by rw [hstep])
      rw [List.length_cons, List.replicate_succ, Machine.run_cons]
      refine ⟨hsending, ?_, ?_⟩
      · rw [hledger, hstep]
        rfl
      · rw [hinFlight, hstep]
        simp

/-- A flush of the actions alone. -/
theorem flushLedger_eq (hidle : s.sending = []) (htraces : s.ledger.traces = [])
    (husage : s.ledger.usage = []) (at_ : DateTime) :
    (s.step (.flushLedger at_)).sending = s.ledger.actions.map BufferedReport.attempt ∧
      (s.step (.flushLedger at_)).ledger.actions = [] ∧
      (s.step (.flushLedger at_)).inFlight = s.inFlight := by
  simp [Custody.step, hidle, LedgerBuffer.drain, htraces, husage, flush]

/-- Both the actions that were sent and the later ones are held in the end. -/
theorem refilled_length {capacity n m : Nat} (hn : n ≤ ledgerActionCapacity)
    (hm : m ≤ ledgerActionCapacity) :
    (after capacity (refilled n m)).ledger.actions.length = n + m := by
  obtain ⟨recorded, hrecorded⟩ : ∃ s, s = after capacity (records n) := ⟨_, rfl⟩
  obtain ⟨hlength, htraces, husage, hidle, hinFlight⟩ :=
    run_records (s := start capacity) (by simpa [start, LedgerBuffer.new] using hn) hrecorded
  have hkinds := hrecorded ▸ (proper_after capacity (records n)).actions
  obtain ⟨hsending, hempty, hnone⟩ := flushLedger_eq hidle htraces husage ⟨0⟩
  obtain ⟨sent, hsent⟩ : ∃ s, s = Machine.run Custody.step (recorded.step (.flushLedger ⟨0⟩))
      (List.replicate n .send) := ⟨_, rfl⟩
  have hcount : (recorded.ledger.actions.map BufferedReport.attempt).length = n := by
    simpa [start, LedgerBuffer.new] using hlength
  obtain ⟨hdone, hledger, hflying⟩ := run_sends hsending (hcount ▸ hsent)
  obtain ⟨more, hmore⟩ : ∃ s, s = Machine.run Custody.step sent (records m) := ⟨_, rfl⟩
  have hsentEmpty : sent.ledger.actions = [] := by rw [hledger, hempty]
  obtain ⟨hmoreLength, -, -, hmoreIdle, hmoreFlying⟩ :=
    run_records (by simpa [hsentEmpty] using hm) hmore
  -- the session ends with the first actions in flight
  have hend : after capacity (refilled n m) = more.step (.endSession fun _ => 0) := by
    rw [after, refilled, Machine.run_append, Machine.run_append, Machine.run_append,
      Machine.run_cons, hmore, hsent, hrecorded]
    rfl
  have hback : more.back (.endSession fun _ => 0) =
      recorded.ledger.actions.map BufferedReport.attempt := by
    rw [back, hmoreIdle, hdone, hmoreFlying, hflying, hnone, hinFlight]
    rfl
  have hall : (recorded.ledger.actions.map BufferedReport.attempt).countP
      (fun entry => entry.kind == .actionLedger) = n := by
    rw [← hcount, List.countP_eq_length]
    intro entry hentry
    obtain ⟨action, haction, rfl⟩ := List.mem_map.mp hentry
    simpa using hkinds action haction
  obtain ⟨hactions, -⟩ := goesBack_lengths (more.goesBack_endSession fun _ => 0)
  rw [hend, hactions, hback, hall, hmoreLength, hsentEmpty]
  simp

/-- A full buffer is flushed, and a quarter of it is refilled before the session ends: there are
more actions than the capacity, and a sacrifice makes no room for another. -/
theorem ledger_overflows :
    ledgerActionCapacity < (after 8 (refilled 8192 2048)).ledger.actions.length ∧
      ¬ Bounded (after 8 (refilled 8192 2048)) ∧
      ∀ payload at_, ((after 8 (refilled 8192 2048)).ledger.sacrificeActions
        (ledgerActionCapacity / 4)).2.tryPushAction (after 8 (refilled 8192 2048)).minted payload
          at_ = none := by
  obtain ⟨s, hs⟩ : ∃ s, s = after 8 (refilled 8192 2048) := ⟨_, rfl⟩
  have hlength : s.ledger.actions.length = 8192 + 2048 := by
    rw [hs]
    exact refilled_length (by decide) (by decide)
  rw [← hs]
  have hover : ledgerActionCapacity < s.ledger.actions.length := by
    rw [hlength]
    decide
  refine ⟨hover, fun h => Nat.not_le.mpr hover h.actions, ?_⟩
  intro payload at_
  have hfull : ledgerActionCapacity ≤
      (s.ledger.sacrificeActions (ledgerActionCapacity / 4)).2.actions.length := by
    simp only [LedgerBuffer.sacrificeActions, List.length_drop, hlength]
    decide
  rw [LedgerBuffer.tryPushAction, if_pos hfull]

end Argus.Custody
