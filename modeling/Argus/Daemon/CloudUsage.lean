import Argus.Daemon.CloudOrder
import Mathlib.Algebra.BigOperators.Group.Multiset.Basic

/-!
# Token usage at the cloud

The cloud keeps the first payload that it accepts for a usage id, and ignores repeats. It may
accept a message at any time after the daemon gave it to the transport, whatever became of the
session since, and its ack may be lost.

A batch that comes back is merged with what was recorded in the meantime, under the id of
whichever was in the buffer first. If the cloud has that id, it ignores the calls that were
merged in; if it has the other id, it counts those calls twice. And `sum_opt` drops a known
count that is added to an unknown one.

`usage_counted_once`: as long as no merge joins a batch that the cloud has with one that it has
not, no count is dropped, and the cloud does not accept an outdated payload first, every recorded
call is in the totals of the cloud once.
-/

namespace Argus

open LedgerBuffer (usageOf batch)

/-- The counts of a batch. -/
inductive UsageField
  | promptTokens
  | completionTokens
  | totalTokens
  | calls
  | unknownUsage
  | durationMs
  deriving DecidableEq

/-- An option is added to another without loss. -/
def AddsOpt : Option Nat → Option Nat → Prop
  | some x, some y => x + y < 2 ^ 64
  | none, some y => y = 0
  | _, none => True

instance : (a b : Option Nat) → Decidable (AddsOpt a b)
  | some x, some y => inferInstanceAs (Decidable (x + y < 2 ^ 64))
  | none, some y => inferInstanceAs (Decidable (y = 0))
  | some _, none => isTrue trivial
  | none, none => isTrue trivial

theorem sumOpt_getD {a b : Option Nat} (h : AddsOpt a b) :
    (sumOpt a b).getD 0 = a.getD 0 + b.getD 0 := by
  rcases a with _ | x
  · rcases b with _ | y
    · rfl
    · obtain rfl : y = 0 := h
      rfl
  · rcases b with _ | y
    · rfl
    · have hfits : x + y < 2 ^ 64 := h
      simp only [sumOpt, saturatingAddU64, Option.getD_some]
      omega

namespace UsageSum

/-- What the batch adds to a total. An unknown count adds nothing. -/
def amount (sum : UsageSum) : UsageField → Nat
  | .promptTokens => sum.promptTokens.getD 0
  | .completionTokens => sum.completionTokens.getD 0
  | .totalTokens => sum.totalTokens.getD 0
  | .calls => sum.calls
  | .unknownUsage => sum.unknownUsage
  | .durationMs => sum.durationMs

/-- No count of the other batch is dropped or cut off. -/
def Adds (sum other : UsageSum) : Prop :=
  AddsOpt sum.promptTokens other.promptTokens ∧
    AddsOpt sum.completionTokens other.completionTokens ∧
    AddsOpt sum.totalTokens other.totalTokens ∧ sum.calls + other.calls < 2 ^ 32 ∧
    sum.unknownUsage + other.unknownUsage < 2 ^ 32 ∧ sum.durationMs + other.durationMs < 2 ^ 64
  deriving Decidable

theorem amount_merge {sum other : UsageSum} (h : sum.Adds other) (field : UsageField) :
    (sum.merge other).amount field = sum.amount field + other.amount field := by
  obtain ⟨hprompt, hcompletion, htotal, hcalls, hunknown, hduration⟩ := h
  cases field with
  | promptTokens => exact sumOpt_getD hprompt
  | completionTokens => exact sumOpt_getD hcompletion
  | totalTokens => exact sumOpt_getD htotal
  | calls =>
      simp only [merge, amount, saturatingAdd]
      omega
  | unknownUsage =>
      simp only [merge, amount, saturatingAdd]
      omega
  | durationMs =>
      simp only [merge, amount, saturatingAddU64]
      omega

end UsageSum

/-- What a recorded call adds to a total. -/
def TokenUsage.amount (usage : TokenUsage) (field : UsageField) : Nat :=
  (usage.sum 0).amount field

/-- The batches of a list of entries. -/
def usagesOf (entries : List BufferedReport) : Multiset UsageSum :=
  (entries.filterMap usageOf : List UsageSum)

section

variable {entry : BufferedReport} {entries entries' : List BufferedReport}

@[simp] theorem usagesOf_nil : usagesOf [] = 0 := rfl

@[simp] theorem usagesOf_append :
    usagesOf (entries ++ entries') = usagesOf entries + usagesOf entries' := by
  simp [usagesOf]

theorem usagesOf_cons : usagesOf (entry :: entries) = usagesOf [entry] + usagesOf entries :=
  @usagesOf_append [entry] entries

theorem usagesOf_perm (h : entries.Perm entries') : usagesOf entries = usagesOf entries' :=
  Multiset.coe_eq_coe.mpr (h.filterMap _)

theorem mem_usagesOf {sum : UsageSum} :
    sum ∈ usagesOf entries ↔ ∃ entry ∈ entries, usageOf entry = some sum := by
  simp [usagesOf]

theorem usageOf_of_not_ledger (h : entry.kind.isLedger = false) : usageOf entry = none := by
  cases hkind : entry.kind with
  | tokenUsage =>
      rw [hkind] at h
      cases h
  | _ => simp [usageOf, hkind]

/-- The batches are in the ledger's entries. -/
theorem filterMap_usageOf_ledger (entries : List BufferedReport) :
    (entries.filter fun entry => entry.kind.isLedger).filterMap usageOf =
      entries.filterMap usageOf := by
  induction entries with
  | nil => rfl
  | cons entry rest ih =>
      cases hkind : entry.kind.isLedger with
      | true => simp [hkind, List.filterMap_cons, ih]
      | false => simp [hkind, usageOf_of_not_ledger hkind, ih]

theorem usagesOf_of_kind {kind : ReportKind} (hkind : kind ≠ .tokenUsage)
    (h : ∀ entry ∈ entries, entry.kind = kind) : usagesOf entries = 0 := by
  refine Multiset.eq_zero_of_forall_notMem fun sum hsum => ?_
  obtain ⟨entry, hentry, husage⟩ := mem_usagesOf.mp hsum
  exact hkind ((h entry hentry).symm.trans (Custody.usageOf_eq husage).1)

end

namespace Custody

variable {s : Custody} {entry : BufferedReport} {entries : List BufferedReport}
  {e : CustodyEvent}

/-! ### The batches -/

/-- A batch joins those in the buffer. -/
def join (usage : List UsageSum) (sum : UsageSum) : List UsageSum := batch sum usage

/-- The batches in the buffer after others joined them. -/
def joined (usage sums : List UsageSum) : List UsageSum := Machine.run join usage sums

/-- The batches outside the buffer, wherever they are. -/
def outside (s : Custody) : Multiset UsageSum :=
  usagesOf s.sending + usagesOf (s.inFlight.map Prod.snd) + usagesOf s.accepted +
    usagesOf s.givenUp + usagesOf s.lost

/-- The batches wherever they are. -/
def batches (s : Custody) : Multiset UsageSum := s.ledger.usage + s.outside

/-- The batches an event adds to the buffer, in order. -/
def joining (s : Custody) : CustodyEvent → List UsageSum
  | .pushUsage usage => [usage.sum s.minted]
  | .sendFails hash =>
      if s.sending.isEmpty then [] else (returning hash s.inFlight).filterMap usageOf
  | .endSession hash =>
      if s.sending.isEmpty then (returning hash s.inFlight).filterMap usageOf else []
  | .inbound messageType ack => (s.back (.inbound messageType ack)).filterMap usageOf
  | _ => []

/-- The call an event records. -/
def recording : CustodyEvent → Option TokenUsage
  | .pushUsage usage => some usage
  | _ => none

/-- The batch of the call an event records. -/
def minting (s : Custody) (e : CustodyEvent) : Multiset UsageSum :=
  ((recording e).map fun usage => usage.sum s.minted).elim 0 ({·})

/-- What an event does to the batches: some of them join those in the buffer. -/
def Regroups (s : Custody) (e : CustodyEvent) : Prop :=
  ∃ rest : Multiset UsageSum,
    s.batches + s.minting e = s.ledger.usage + s.joining e + rest ∧
      (s.step e).batches = joined s.ledger.usage (s.joining e) + rest

theorem regroups_of_eq (hjoining : s.joining e = []) (hminting : s.minting e = 0)
    (h : (s.step e).batches = s.batches) : s.Regroups e := by
  refine ⟨s.outside, ?_, ?_⟩
  · simp [hjoining, hminting, batches]
  · rw [h, hjoining]
    rfl

/-- A session end puts the batches that were in flight back. -/
theorem batches_requeueInFlight (s : Custody) (hash : Nat → Nat) :
    ∃ rest : Multiset UsageSum,
      s.batches = s.ledger.usage + (returning hash s.inFlight).filterMap usageOf + rest ∧
        (s.requeueInFlight hash).batches =
          joined s.ledger.usage ((returning hash s.inFlight).filterMap usageOf) + rest := by
  have hledger := (s.putBack_requeueInFlight hash).ledger
  have hinFlight := usagesOf_perm (returning_perm hash s.inFlight)
  have hempty := s.requeueInFlight_inFlight hash
  obtain ⟨-, -, hsending, -, haccepted, hlost⟩ := s.requeueInFlight_same hash
  refine ⟨usagesOf s.sending + usagesOf s.accepted + usagesOf s.givenUp + usagesOf s.lost, ?_, ?_⟩
  · rw [batches, outside, ← hinFlight]
    simp only [usagesOf]
    abel
  · have hgivenUp : (s.requeueInFlight hash).givenUp = s.givenUp := by
      unfold requeueInFlight
      split_ifs <;> rfl
    rw [batches, outside, hledger, hempty, hsending, haccepted, hgivenUp, hlost]
    simp only [LedgerBuffer.requeue, filterMap_usageOf_ledger, List.map_nil, usagesOf_nil, add_zero]
    rfl

theorem regroups_endSession (s : Custody) (hash : Nat → Nat) : s.Regroups (.endSession hash) := by
  by_cases hidle : s.sending.isEmpty = true
  · obtain ⟨rest, hbefore, hafter⟩ := s.batches_requeueInFlight hash
    refine ⟨rest, ?_, ?_⟩
    · simpa only [joining, hidle, if_true, minting, recording, Option.map_none, Option.elim_none,
        add_zero] using hbefore
    · simpa only [step, joining, hidle, if_true] using hafter
  · refine regroups_of_eq ?_ rfl ?_
    · simp only [joining, hidle, if_false, Bool.false_eq_true]
    · simp only [step, hidle, if_false, Bool.false_eq_true]

theorem regroups_sendFails (s : Custody) (hash : Nat → Nat) : s.Regroups (.sendFails hash) := by
  cases hsending : s.sending with
  | nil =>
      refine regroups_of_eq ?_ rfl ?_
      · simp [joining, hsending]
      · simp only [step, hsending]
  | cons entry rest =>
      have habandoned : (s.abandon entry rest).batches = s.batches := by
        simp only [batches, outside, abandon, post, hsending, usagesOf_append, usagesOf_nil]
        abel
      obtain ⟨others, hbefore, hafter⟩ := (s.abandon entry rest).batches_requeueInFlight hash
      refine ⟨others, ?_, ?_⟩
      · rw [← habandoned, hbefore]
        simp [joining, hsending, minting, recording, abandon, post]
      · simpa [step, joining, hsending, abandon, post] using hafter

/-- What an acknowledged entry carries is accepted or given up, or joins the buffer. -/
theorem batches_settle (s : Custody) (entry : BufferedReport) (accepted : Bool) :
    (s.settle entry accepted).batches =
      if accepted = false ∧ entry.attempts < maxSendAttempts then
        joined s.ledger.usage (usageOf entry).toList + s.outside
      else s.batches + usagesOf [entry] := by
  unfold settle
  split_ifs with haccepted hagain hattempts hagain hledger hagain hagain
  · simp [haccepted] at hagain
  · simp only [batches, outside, usagesOf_append]
    abel
  · exact absurd hattempts (Nat.not_le.mpr hagain.2)
  · simp only [batches, outside, usagesOf_append]
    abel
  · rw [batches, requeueLedger, LedgerBuffer.requeue]
    simp only [List.filterMap_cons, List.filterMap_nil]
    cases usageOf entry <;> rfl
  · exact absurd ⟨by simpa using haccepted, Nat.lt_of_not_le hattempts⟩ hagain
  · rw [usageOf_of_not_ledger (by simpa using hledger)]
    rfl
  · exact absurd ⟨by simpa using haccepted, Nat.lt_of_not_le hattempts⟩ hagain

/-- An acknowledged batch is accepted or given up, or is back in the buffer. -/
theorem regroups_inbound (h : Sound s) (messageType : Option MessageType) (ack : Option IngestAck) :
    s.Regroups (.inbound messageType ack) := by
  rcases s.inbound_cases messageType ack with
    ⟨hstep, hback⟩ | ⟨id, entry, accepted, -, hlookup, hstep, hback⟩
  · refine regroups_of_eq ?_ rfl (by rw [hstep])
    rw [joining, hback]
    rfl
  · have hinFlight := usagesOf_perm ((perm_of_lookup h.keys hlookup).map Prod.snd)
    rw [List.map_cons, usagesOf_cons] at hinFlight
    have hland : s.batches = (s.land id).batches + usagesOf [entry] := by
      simp only [batches, outside, hinFlight, land]
      abel
    have hsum : [entry].filterMap usageOf = (usageOf entry).toList := by
      cases hone : usageOf entry <;> simp [hone]
    have hminting : s.minting (.inbound messageType ack) = 0 := rfl
    rw [Regroups, joining, hback, hstep, batches_settle, hminting, add_zero, hland]
    split_ifs with hagain
    · refine ⟨(s.land id).outside, ?_, ?_⟩
      · rw [hsum, batches, usagesOf, hsum]
        exact add_right_comm _ _ _
      · rw [hsum]
        rfl
    · refine ⟨(s.land id).outside + usagesOf [entry], ?_, ?_⟩
      · simp only [batches, List.filterMap_nil, Multiset.coe_nil, add_zero, add_assoc]
        rfl
      · simp only [batches, List.filterMap_nil, add_assoc]
        rfl

/-- What is drained is sent next. -/
theorem batches_flushLedger (hproper : Proper s) (at_ : DateTime) :
    (s.step (.flushLedger at_)).batches = s.batches := by
  simp only [step]
  split_ifs with hidle
  · have hactions := usagesOf_of_kind (by decide) hproper.actions
    have htraces := usagesOf_of_kind (by decide) hproper.traces
    have husage (usage : List UsageSum) :
        usagesOf (usage.map (LedgerBuffer.materialize at_)) = usage := by
      rw [usagesOf, List.filterMap_map]
      exact congrArg _ List.filterMap_some
    have hattempt (entries : List BufferedReport) :
        usagesOf (entries.map BufferedReport.attempt) = usagesOf entries := by
      rw [usagesOf, List.filterMap_map]
      rfl
    simp only [batches, outside, flush, LedgerBuffer.drain, List.isEmpty_iff.mp hidle, hattempt,
      usagesOf_append, hactions, htraces, husage, usagesOf_nil, Multiset.coe_nil]
    abel
  · rfl

theorem batches_flushReports (hproper : Proper s) (at_ : DateTime) :
    (s.step (.flushReports at_)).batches = s.batches := by
  simp only [step]
  split_ifs with hidle
  · have hdrained : usagesOf (s.queue.drain s.queue.entries.length at_).1 = 0 := by
      refine Multiset.eq_zero_of_forall_notMem fun sum hsum => ?_
      obtain ⟨entry, hentry, husage⟩ := mem_usagesOf.mp hsum
      obtain ⟨held, hheld, rfl⟩ := List.mem_map.mp hentry
      have hreport := hproper.queue held (List.mem_of_mem_take hheld)
      rw [@usageOf_of_not_ledger held.attempt hreport] at husage
      cases husage
    simp only [batches, outside, flush, hdrained, List.isEmpty_iff.mp hidle, usagesOf_nil]
  · rfl

theorem batches_pushAction (s : Custody) (payload : Value) (at_ : DateTime) :
    (s.step (.pushAction payload at_)).batches = s.batches := by
  simp only [step]
  split
  next => rfl
  next ledger hpush =>
    obtain ⟨-, rfl⟩ := LedgerBuffer.tryPushAction_inv hpush
    rfl

theorem regroups (h : Sound s) (hproper : Proper s) (e : CustodyEvent) : s.Regroups e := by
  cases e with
  | enqueue kind report payload at_ => exact regroups_of_eq rfl rfl rfl
  | pushAction payload at_ => exact regroups_of_eq rfl rfl (s.batches_pushAction payload at_)
  | forceAction payload at_ =>
      exact regroups_of_eq rfl rfl (s.makeRoom.batches_pushAction payload at_)
  | pushTrace payload at_ => exact regroups_of_eq rfl rfl rfl
  | pushUsage usage => exact ⟨s.outside, add_right_comm _ _ _, rfl⟩
  | flushReports at_ => exact regroups_of_eq rfl rfl (batches_flushReports hproper at_)
  | flushLedger at_ => exact regroups_of_eq rfl rfl (batches_flushLedger hproper at_)
  | send =>
      refine regroups_of_eq rfl rfl ?_
      simp only [step]
      split
      next => rfl
      next entry rest hsending =>
        simp only [batches, outside, post, hsending, List.map_append, usagesOf_append,
          List.map_cons, List.map_nil, @usagesOf_cons entry rest]
        abel
  | sendFails hash => exact s.regroups_sendFails hash
  | inbound messageType ack => exact regroups_inbound h messageType ack
  | endSession hash => exact s.regroups_endSession hash

/-! ### The ids of the batches -/

theorem minted_le_step (s : Custody) (e : CustodyEvent) : s.minted ≤ (s.step e).minted := by
  have hproduces {s' : Custody} (h : Produces s s') : s.minted ≤ s'.minted := by
    rcases h.placed with ⟨-, hminted⟩ | ⟨-, hminted⟩ <;> omega
  cases e with
  | enqueue kind report payload at_ => exact Nat.le_succ _
  | pushAction payload at_ => exact hproduces (s.pushAction_produces payload at_)
  | forceAction payload at_ => exact hproduces (s.forceAction_produces payload at_)
  | pushTrace payload at_ => exact Nat.le_succ _
  | pushUsage usage => exact Nat.le_succ _
  | flushReports at_ =>
      simp only [step]
      split_ifs
      · exact le_rfl
      · exact le_rfl
  | flushLedger at_ =>
      simp only [step]
      split_ifs
      · exact le_rfl
      · exact le_rfl
  | send =>
      simp only [step]
      split
      · exact le_rfl
      · exact le_rfl
  | sendFails hash =>
      obtain ⟨_, -, -, hput⟩ := s.goesBack_sendFails hash
      exact hput.minted.ge
  | inbound messageType ack =>
      obtain ⟨_, -, -, hput⟩ := s.goesBack_inbound messageType ack
      exact hput.minted.ge
  | endSession hash =>
      obtain ⟨_, -, -, hput⟩ := s.goesBack_endSession hash
      exact hput.minted.ge

/-- Batches that join others keep their ids, or lose them. -/
theorem joined_ids (sums usage : List UsageSum) :
    ((joined usage sums).map UsageSum.usageId).Subperm
      (usage.map UsageSum.usageId ++ sums.map UsageSum.usageId) := by
  induction sums generalizing usage with
  | nil => exact (List.sublist_append_left _ _).subperm
  | cons sum sums ih =>
      refine (ih (join usage sum)).trans ?_
      have hone := (batch_ids sum usage).append_right (sums.map UsageSum.usageId)
      rw [List.append_assoc] at hone
      exact hone.subperm

/-- The ids of the batches. -/
structure Identified (s : Custody) : Prop where
  sound : Sound s
  proper : Proper s
  distinct : (s.batches.map UsageSum.usageId).Nodup
  minted : ∀ sum ∈ s.batches, sum.usageId < s.minted
  sent : ∀ envelope ∈ s.sent, ∀ sum, usageOf envelope.entry = some sum → sum.usageId < s.minted

theorem Regroups.ids (h : s.Regroups e) : (s.step e).batches.map UsageSum.usageId ≤
    s.batches.map UsageSum.usageId + (s.minting e).map UsageSum.usageId := by
  obtain ⟨rest, hbefore, hafter⟩ := h
  have hids : ((joined s.ledger.usage (s.joining e) : Multiset UsageSum).map UsageSum.usageId) ≤
      (s.ledger.usage : Multiset UsageSum).map UsageSum.usageId +
        (s.joining e : Multiset UsageSum).map UsageSum.usageId :=
    joined_ids (s.joining e) s.ledger.usage
  rw [← Multiset.map_add, hbefore, hafter, Multiset.map_add, Multiset.map_add, Multiset.map_add]
  exact add_le_add_left hids _

theorem identified_start (capacity : Nat) : Identified (start capacity) :=
  ⟨sound_start capacity, proper_start capacity, Multiset.nodup_zero,
    fun sum hsum => absurd hsum (Multiset.notMem_zero sum), by simp [start]⟩

theorem Identified.step (h : Identified s) (e : CustodyEvent) : Identified (s.step e) := by
  have hids := (regroups h.sound h.proper e).ids
  have hmore := s.minted_le_step e
  have hnew : ∀ id ∈ (s.minting e).map UsageSum.usageId,
      id = s.minted ∧ s.minted < (s.step e).minted := by
    intro id hid
    cases e with
    | pushUsage usage => exact ⟨Multiset.mem_singleton.mp hid, Nat.lt_succ_self _⟩
    | _ => cases Multiset.notMem_zero id hid
  constructor
  case sound => exact h.sound.step e
  case proper => exact h.proper.step e
  case distinct =>
    refine Multiset.nodup_of_le hids (Multiset.nodup_add.mpr ⟨h.distinct, ?_, ?_⟩)
    · cases e with
      | pushUsage usage => exact Multiset.nodup_singleton _
      | _ => exact Multiset.nodup_zero
    · refine Multiset.disjoint_left.mpr fun {id} hold hnewid => ?_
      obtain ⟨sum, hsum, rfl⟩ := Multiset.mem_map.mp hold
      exact (h.minted sum hsum).ne (hnew _ hnewid).1
  case minted =>
    intro sum hsum
    rcases Multiset.mem_add.mp (Multiset.mem_of_le hids (Multiset.mem_map_of_mem _ hsum)) with
      hold | hnewid
    · obtain ⟨old, hmem, heq⟩ := Multiset.mem_map.mp hold
      exact heq ▸ (h.minted old hmem).trans_le hmore
    · obtain ⟨heq, hless⟩ := hnew _ hnewid
      exact heq ▸ hless
  case sent =>
    intro envelope henvelope sum hsum
    obtain ⟨more, hsent, hdrained, -⟩ := s.sent_step e
    rw [hsent] at henvelope
    rcases List.mem_append.mp henvelope with hold | hnow
    · exact (h.sent envelope hold sum hsum).trans_le hmore
    · -- what is sent now was a batch among the others
      have hmem : sum ∈ s.batches := by
        have husages := mem_usagesOf.mpr ⟨_, hdrained envelope hnow, hsum⟩
        simp [batches, outside, husages]
      exact (h.minted sum hmem).trans_le hmore

end Custody

/-! ### The totals -/

open Custody

/-- The daemon's side, and what the cloud has. -/
structure Metered where
  custody : Custody
  /-- The payload the cloud keeps for each usage id. -/
  stored : List UsageSum
  /-- The calls recorded so far. -/
  recorded : List TokenUsage

inductive MeterEvent
  | daemon (e : CustodyEvent)
  /-- The cloud accepts a message that was given to the transport. -/
  | receive (messageId : Nat)

/-- The ids the cloud has. -/
def storedIds (stored : List UsageSum) : List Nat := stored.map UsageSum.usageId

/-- What the batches add to a total of the cloud, once it has all of them. -/
def owed (stored : List UsageSum) (field : UsageField) (batches : Multiset UsageSum) : Nat :=
  ((batches.filter fun sum => sum.usageId ∉ storedIds stored).map fun sum => sum.amount field).sum

/-- A batch is new to the buffer, or the cloud has it and the one it is merged with, or it has
neither and the counts add up. -/
def Merges (stored usage : List UsageSum) (sum : UsageSum) : Prop :=
  ∀ held ∈ usage.find? fun held => held.sameKey sum,
    held.usageId ∈ storedIds stored ∧ sum.usageId ∈ storedIds stored ∨
      held.usageId ∉ storedIds stored ∧ sum.usageId ∉ storedIds stored ∧ held.Adds sum

instance (stored usage : List UsageSum) (sum : UsageSum) : Decidable (Merges stored usage sum) :=
  inferInstanceAs (Decidable (∀ held ∈ usage.find? _, _))

namespace Metered

/-- The batch that a message carries. -/
def carried (s : Metered) (messageId : Nat) : Option UsageSum :=
  (s.custody.sent.find? fun envelope => envelope.messageId == messageId).bind
    fun envelope => usageOf envelope.entry

def step (s : Metered) : MeterEvent → Metered
  | .daemon e => { s with
      custody := s.custody.step e
      recorded := s.recorded ++ (recording e).toList }
  | .receive messageId =>
      match s.carried messageId with
      | none => s
      | some sum =>
          if sum.usageId ∈ storedIds s.stored then s
          else { s with stored := s.stored ++ [sum] }

def start (capacity : Nat) : Metered := ⟨.start capacity, [], []⟩

/-- The total of the cloud. -/
def total (s : Metered) (field : UsageField) : Nat :=
  (s.stored.map fun sum => sum.amount field).sum

/-- Everything was accepted: the cloud has each batch, wherever it is. -/
def AllAccepted (s : Metered) : Prop :=
  ∀ sum ∈ s.custody.batches, sum.usageId ∈ storedIds s.stored

/-- Once everything was accepted, the totals are those of the recorded calls. -/
def CountedOnce (s : Metered) : Prop :=
  s.AllAccepted → ∀ field, s.total field = (s.recorded.map fun usage => usage.amount field).sum

/-- The batches an event merges are both at the cloud or both not, and what the cloud accepts
first is still a batch of the daemon. -/
def Apart (s : Metered) : MeterEvent → Prop
  | .daemon e => Machine.Every join (Merges s.stored) s.custody.ledger.usage (s.custody.joining e)
  | .receive messageId =>
      ∀ sum ∈ s.carried messageId, sum.usageId ∈ storedIds s.stored ∨ sum ∈ s.custody.batches

instance (s : Metered) : Decidable s.AllAccepted :=
  inferInstanceAs (Decidable (∀ sum ∈ s.custody.batches, _))

instance : (s : Metered) → (e : MeterEvent) → Decidable (Apart s e)
  | _, .daemon _ => inferInstanceAs (Decidable (Machine.Every join _ _ _))
  | s, .receive messageId => inferInstanceAs (Decidable (∀ sum ∈ s.carried messageId, _))

end Metered

section

variable {stored usage sums : List UsageSum} {field : UsageField} {sum : UsageSum}

theorem owed_add (a b : Multiset UsageSum) :
    owed stored field (a + b) = owed stored field a + owed stored field b := by
  simp [owed]

theorem owed_of_stored (h : sum.usageId ∈ storedIds stored) : owed stored field {sum} = 0 := by
  simp [owed, Multiset.filter_singleton, h]

theorem owed_of_not_stored (h : sum.usageId ∉ storedIds stored) :
    owed stored field {sum} = sum.amount field := by
  simp [owed, Multiset.filter_singleton, h]

theorem owed_cons (sum : UsageSum) (usage : List UsageSum) :
    owed stored field (sum :: usage : List UsageSum) =
      owed stored field {sum} + owed stored field usage :=
  owed_add {sum} usage

/-- A merge owes what its two batches owed. -/
theorem owed_merge {held : UsageSum}
    (h : held.usageId ∈ storedIds stored ∧ sum.usageId ∈ storedIds stored ∨
      held.usageId ∉ storedIds stored ∧ sum.usageId ∉ storedIds stored ∧ held.Adds sum) :
    owed stored field {held.merge sum} =
      owed stored field {held} + owed stored field {sum} := by
  rcases h with ⟨hheld, hsum⟩ | ⟨hheld, hsum, hadds⟩
  · have hmerged : (held.merge sum).usageId ∈ storedIds stored := hheld
    rw [owed_of_stored hmerged, owed_of_stored hheld, owed_of_stored hsum]
  · have hmerged : (held.merge sum).usageId ∉ storedIds stored := hheld
    rw [owed_of_not_stored hmerged, owed_of_not_stored hheld, owed_of_not_stored hsum,
      UsageSum.amount_merge hadds]

theorem owed_join (h : Merges stored usage sum) :
    owed stored field (join usage sum) = owed stored field usage + owed stored field {sum} := by
  induction usage with
  | nil => exact (zero_add _).symm
  | cons held rest ih =>
      rw [join, batch, owed_cons]
      split_ifs with hkey
      · have hmerge := h held (List.find?_cons_of_pos hkey)
        rw [owed_cons, owed_merge hmerge]
        exact add_right_comm _ _ _
      · have hrest : Merges stored rest sum := by
          intro found hfound
          have hskip : (held :: rest).find? (fun held => held.sameKey sum) =
              rest.find? fun held => held.sameKey sum := List.find?_cons_of_neg hkey
          exact h found (hskip.trans hfound)
        have hjoin := ih hrest
        rw [join] at hjoin
        rw [owed_cons, hjoin, add_assoc]

theorem owed_joined (h : Machine.Every join (Merges stored) usage sums) :
    owed stored field (joined usage sums) = owed stored field usage + owed stored field sums := by
  induction sums generalizing usage with
  | nil => rfl
  | cons sum sums ih =>
      have hsums : owed stored field (joined (join usage sum) sums) =
          owed stored field (join usage sum) + owed stored field sums := ih h.2
      rw [owed_cons, ← add_assoc, ← owed_join h.1]
      exact hsums

end

namespace Metered

variable {s : Metered} {e : MeterEvent} {events : List MeterEvent}

/-- What the steps keep: each call is at the cloud or in a batch that the cloud has not. -/
structure Counted (s : Metered) : Prop where
  identified : Identified s.custody
  stored : ∀ sum ∈ s.stored, sum.usageId < s.custody.minted
  total : ∀ field, s.total field + owed s.stored field s.custody.batches =
    (s.recorded.map fun usage => usage.amount field).sum

theorem counted_start (capacity : Nat) : Counted (start capacity) :=
  ⟨identified_start capacity, by simp [start], fun _ => rfl⟩

theorem Counted.daemon (h : Counted s) {e : CustodyEvent} (hapart : s.Apart (.daemon e)) :
    Counted (s.step (.daemon e)) := by
  constructor
  case identified => exact h.identified.step e
  case stored =>
    intro sum hsum
    exact (h.stored sum hsum).trans_le (s.custody.minted_le_step e)
  case total =>
    intro field
    obtain ⟨rest, hbefore, hafter⟩ := regroups h.identified.sound h.identified.proper e
    have htotal := h.total field
    -- the batch of a new call is under an id that the cloud cannot have
    have hminting : owed s.stored field (s.custody.minting e) =
        ((recording e).toList.map fun usage => usage.amount field).sum := by
      cases e with
      | pushUsage usage =>
          refine (owed_of_not_stored fun hold => ?_).trans (Nat.add_zero _).symm
          obtain ⟨sum, hsum, heq⟩ := List.mem_map.mp hold
          exact (h.stored sum hsum).ne heq
      | _ => rfl
    have hjoined : owed s.stored field (joined _ _) = _ := owed_joined hapart
    have hsame := congrArg (owed s.stored field) hbefore
    simp only [owed_add, hminting] at hsame
    simp only [Metered.total, Metered.step, hafter, owed_add, hjoined, List.map_append,
      List.sum_append] at htotal ⊢
    omega

theorem Counted.receive (h : Counted s) {messageId : Nat} (hapart : s.Apart (.receive messageId)) :
    Counted (s.step (.receive messageId)) := by
  simp only [Metered.step]
  split
  next => exact h
  next sum hcarried =>
    split_ifs with hknown
    · exact h
    · obtain hstored | hmem := hapart sum hcarried
      · exact absurd hstored hknown
      · refine ⟨h.identified, ?_, fun field => ?_⟩
        · intro other hother
          rcases List.mem_append.mp hother with hold | hnew
          · exact h.stored other hold
          · obtain rfl := List.mem_singleton.mp hnew
            exact h.identified.minted other hmem
        · -- no other batch has the id, so the others are owed as before
          obtain ⟨others, hothers⟩ := Multiset.exists_cons_of_mem hmem
          have hdistinct := h.identified.distinct
          rw [hothers, Multiset.map_cons, Multiset.nodup_cons] at hdistinct
          have hrest : owed (s.stored ++ [sum]) field others = owed s.stored field others := by
            refine congrArg _ (congrArg _ (Multiset.filter_congr fun other hother => ?_))
            have hne : other.usageId ≠ sum.usageId := fun heq =>
              hdistinct.1 (heq ▸ Multiset.mem_map_of_mem _ hother)
            simp [storedIds, hne]
          have htotal := h.total field
          rw [hothers, ← Multiset.singleton_add, owed_add, owed_of_not_stored hknown] at htotal
          have hnow : sum.usageId ∈ storedIds (s.stored ++ [sum]) := by simp [storedIds]
          rw [hothers, ← Multiset.singleton_add, owed_add, owed_of_stored hnow, hrest]
          simp only [Metered.total, List.map_append, List.sum_append, List.map_cons, List.map_nil,
            List.sum_cons, List.sum_nil] at htotal ⊢
          omega

theorem Counted.step (h : Counted s) (hapart : s.Apart e) : Counted (s.step e) := by
  cases e with
  | daemon e => exact h.daemon hapart
  | receive messageId => exact h.receive hapart

/-- Once the cloud has every batch, nothing is owed. -/
theorem Counted.countedOnce (h : Counted s) : s.CountedOnce := by
  intro haccepted field
  have hnothing : owed s.stored field s.custody.batches = 0 := by
    rw [owed, Multiset.filter_eq_nil.mpr fun sum hsum => not_not.mpr (haccepted sum hsum)]
    rfl
  have htotal := h.total field
  omega

/-- **Every recorded call is counted once**, in every run whose merges are of batches that the
cloud has, or of batches that it has not and whose counts add up. -/
theorem usage_counted_once {capacity : Nat} {events : List MeterEvent}
    (h : Machine.Every step Apart (start capacity) events) :
    CountedOnce (Machine.run step (start capacity) events) :=
  (Machine.Every.invariant h (counted_start capacity) fun _ _ hs he => hs.step he).countedOnce

/-- A call of which at most the total is known. -/
def call (totalTokens : Option Nat) : MeterEvent :=
  .daemon (.pushUsage ⟨none, none, none, none, totalTokens, none⟩)

/-- The buffer is drained, and its one entry is sent. -/
def uploads : List MeterEvent := [.daemon (.flushLedger ⟨0⟩), .daemon .send]

/-- The cloud accepts a message, and its ack arrives. -/
def accepts (messageId : Nat) : List MeterEvent :=
  [.receive messageId,
    .daemon (.inbound (some .tokenUsageAck) (some ⟨some messageId, true⟩))]

/-- The session ends, and with it the wait for an ack. -/
def ackLost : MeterEvent := .daemon (.endSession fun _ => 0)

/-- Two calls are batched. The ack is lost after the cloud accepted the batch, which is sent
again as it was. -/
def resent : List MeterEvent :=
  call (some 5) :: call (some 7) :: uploads ++ .receive 0 :: ackLost :: uploads ++ accepts 1

theorem usage_counted_once_resent :
    (Machine.run step (start 1) resent).AllAccepted ∧
      CountedOnce (Machine.run step (start 1) resent) :=
  ⟨by decide, usage_counted_once (by decide)⟩

/-- The ack is lost, and the next call is merged into the batch that the cloud has. -/
def mergedAfterwards : List MeterEvent :=
  call (some 5) :: uploads ++ .receive 0 :: ackLost :: call (some 7) :: uploads ++ accepts 1

/-- The next call is recorded before the ack is lost, and the batch that the cloud has is merged
into that call's. -/
def mergedInto : List MeterEvent :=
  call (some 5) :: uploads ++ .receive 0 :: call (some 7) :: ackLost :: uploads ++ accepts 1

/-- A call of which nothing is known comes first. -/
def unknownFirst : List MeterEvent := call none :: call (some 7) :: uploads ++ accepts 0

/-- Everything is drained and accepted, and of 12 tokens the cloud has 5, or 17; of 7 it has
none. -/
theorem usage_not_counted_once :
    (Machine.run step (start 1) mergedAfterwards).AllAccepted ∧
      (Machine.run step (start 1) mergedAfterwards).total .totalTokens = 5 ∧
      (Machine.run step (start 1) mergedInto).AllAccepted ∧
      (Machine.run step (start 1) mergedInto).total .totalTokens = 17 ∧
      (Machine.run step (start 1) unknownFirst).AllAccepted ∧
      (Machine.run step (start 1) unknownFirst).total .totalTokens = 0 ∧
      ¬ CountedOnce (Machine.run step (start 1) mergedAfterwards) ∧
      ¬ CountedOnce (Machine.run step (start 1) mergedInto) ∧
      ¬ CountedOnce (Machine.run step (start 1) unknownFirst) := by
  have hwrong {s : Metered} (tokens : Nat) (haccepted : s.AllAccepted)
      (htotal : s.total .totalTokens = tokens)
      (hrecorded : tokens ≠ (s.recorded.map fun usage => usage.amount .totalTokens).sum) :
      ¬ s.CountedOnce :=
    fun h => hrecorded (htotal.symm.trans (h haccepted .totalTokens))
  refine ⟨by decide, by decide, by decide, by decide,
    by decide, by decide, ?_, ?_, ?_⟩
  · exact hwrong 5 (by decide) (by decide) (by decide)
  · exact hwrong 17 (by decide) (by decide) (by decide)
  · exact hwrong 0 (by decide) (by decide) (by decide)

end Metered
end Argus
