import Argus.Daemon.CloudSession

/-!
# What becomes of the entries a session takes

A record is in one place at a time, so an entry that was accepted is not sent again, and what a
failed flush abandoned is in no buffer.

* `failed_flush_loses`: whenever a send fails, the entry being sent and those after it were
  drained, and are neither in their buffer nor evicted from it. `flush_reports` and
  `flush_ledger` return the error with `?` and drop the list they iterate over.
* `acknowledged_iff`: an accepting ack settles the entries of every kind but one. The ack of
  sentinel reports is missing from `is_report_ack`, so they stay in flight and are sent again.
-/

namespace Argus

open LedgerBuffer (usageOf batch)

/-- The payload of a usage entry is its batch, under the id of the batch. -/
def BufferedReport.Proper (entry : BufferedReport) : Prop :=
  entry.kind = .tokenUsage →
    ∃ sum, entry.payload = .usage sum ∧ sum.usageId = entry.serial ∧ sum.usageId ∈ sum.records

theorem BufferedReport.Proper.serial_mem {entry : BufferedReport} (h : entry.Proper) :
    entry.serial ∈ entry.records := by
  by_cases hkind : entry.kind = .tokenUsage
  · obtain ⟨sum, hpayload, hserial, hmem⟩ := h hkind
    simpa [records, usageOf, hkind, hpayload, ← hserial] using hmem
  · simp [records_of_ne hkind]

theorem BufferedReport.proper_of_ne {entry : BufferedReport} (h : entry.kind ≠ .tokenUsage) :
    entry.Proper := fun heq => absurd heq h

namespace Custody

/-- The entries are in the buffers of their kinds. -/
structure Proper (s : Custody) : Prop where
  queue : ∀ entry ∈ s.queue.entries, entry.kind.isLedger = false
  actions : ∀ entry ∈ s.ledger.actions, entry.kind = .actionLedger
  traces : ∀ entry ∈ s.ledger.traces, entry.kind = .brainTrace
  usage : ∀ sum ∈ s.ledger.usage, sum.usageId ∈ sum.records
  sending : ∀ entry ∈ s.sending, entry.Proper
  inFlight : ∀ entry ∈ s.inFlight.map Prod.snd, entry.Proper

variable {s : Custody} {entry : BufferedReport} {entries : List BufferedReport}
  {hash : Nat → Nat} {id : Nat} {events : List CustodyEvent}

theorem proper_start (capacity : Nat) : Proper (start capacity) := by
  constructor <;> simp [start, ReportQueue.new, LedgerBuffer.new]

theorem batch_mem {sum : UsageSum} {usage : List UsageSum} (hsum : sum.usageId ∈ sum.records)
    (h : ∀ held ∈ usage, held.usageId ∈ held.records) :
    ∀ held ∈ batch sum usage, held.usageId ∈ held.records := by
  induction usage with
  | nil => simpa [batch] using hsum
  | cons first rest ih =>
      obtain ⟨hfirst, hrest⟩ := List.forall_mem_cons.mp h
      rw [batch]
      split_ifs
      · refine List.forall_mem_cons.mpr ⟨?_, hrest⟩
        exact List.mem_append_left _ hfirst
      · exact List.forall_mem_cons.mpr ⟨hfirst, ih hrest⟩

theorem batches_mem {sums usage : List UsageSum} (hsums : ∀ sum ∈ sums, sum.usageId ∈ sum.records)
    (h : ∀ held ∈ usage, held.usageId ∈ held.records) :
    ∀ held ∈ sums.foldl (fun usage sum => batch sum usage) usage, held.usageId ∈ held.records := by
  induction sums generalizing usage with
  | nil => exact h
  | cons sum sums ih =>
      obtain ⟨hsum, hsums⟩ := List.forall_mem_cons.mp hsums
      exact ih hsums (batch_mem hsum h)

theorem usageOf_eq {sum : UsageSum} (h : usageOf entry = some sum) :
    entry.kind = .tokenUsage ∧ entry.payload = .usage sum := by
  unfold usageOf at h
  split at h
  next hkind hpayload =>
    cases h
    exact ⟨hkind, hpayload⟩
  next => cases h

theorem Proper.requeueReports (h : Proper s)
    (hentries : ∀ entry ∈ entries, entry.kind.isLedger = false) :
    Proper (s.requeueReports entries) := by
  refine ⟨?_, h.actions, h.traces, h.usage, h.sending, h.inFlight⟩
  intro entry hentry
  have hmem := (s.queue.requeueFront_sublist entries).subset hentry
  rcases List.mem_append.mp hmem with hback | hheld
  · exact hentries entry hback
  · exact h.queue entry hheld

theorem Proper.requeueLedger (h : Proper s) (hentries : ∀ entry ∈ entries, entry.Proper) :
    Proper (s.requeueLedger entries) := by
  refine ⟨h.queue, ?_, ?_, ?_, h.sending, h.inFlight⟩
  · intro entry hentry
    rcases List.mem_append.mp hentry with hback | hheld
    · simpa using (List.mem_filter.mp hback).2
    · exact h.actions entry hheld
  · intro entry hentry
    rcases List.mem_append.mp hentry with hback | hheld
    · simpa using (List.mem_filter.mp hback).2
    · exact h.traces entry hheld
  · refine batches_mem ?_ h.usage
    intro sum hsum
    obtain ⟨entry, hentry, husage⟩ := List.mem_filterMap.mp hsum
    obtain ⟨hkind, hpayload⟩ := usageOf_eq husage
    obtain ⟨sum', hsum', -, hmem⟩ := hentries entry hentry hkind
    rw [hpayload] at hsum'
    cases hsum'
    exact hmem

theorem Proper.requeueInFlight (h : Proper s) (hash : Nat → Nat) :
    Proper (s.requeueInFlight hash) := by
  unfold Custody.requeueInFlight
  split_ifs
  · exact h
  · simp only [List.partition_eq_filter_filter]
    have hempty : Proper { s with inFlight := [] } :=
      ⟨h.queue, h.actions, h.traces, h.usage, h.sending, by simp⟩
    refine (hempty.requeueReports ?_).requeueLedger ?_
    · intro entry hentry
      simpa using (List.mem_filter.mp hentry).2
    · intro entry hentry
      have hmem := (returning_perm hash s.inFlight).subset (List.mem_filter.mp hentry).1
      exact h.inFlight entry hmem

theorem Proper.settled (h : Proper s) (hlookup : s.inFlight.lookup id = some entry)
    (accepted : Bool) : Proper ((s.land id).settle entry accepted) := by
  have hland : Proper (s.land id) := by
    refine ⟨h.queue, h.actions, h.traces, h.usage, h.sending, ?_⟩
    intro entry hentry
    exact h.inFlight entry ((List.filter_sublist.map Prod.snd).subset hentry)
  have hentry : entry.Proper := by
    obtain ⟨l₁, l₂, hsplit, -⟩ := List.lookup_eq_some_iff.mp hlookup
    exact h.inFlight entry (by simp [hsplit])
  unfold settle
  split_ifs with _ _ hledger
  · exact ⟨hland.queue, hland.actions, hland.traces, hland.usage, hland.sending, hland.inFlight⟩
  · exact ⟨hland.queue, hland.actions, hland.traces, hland.usage, hland.sending, hland.inFlight⟩
  · exact hland.requeueLedger (by simpa using hentry)
  · exact hland.requeueReports (by simpa using hledger)

theorem Proper.pushed (h : Proper s) {ledger : LedgerBuffer} {payload : Value} {at_ : DateTime}
    {minted : Nat} (hpush : s.ledger.tryPushAction s.minted payload at_ = some ledger) :
    Proper { s with ledger, minted } := by
  obtain ⟨-, rfl⟩ := LedgerBuffer.tryPushAction_inv hpush
  refine ⟨h.queue, ?_, h.traces, h.usage, h.sending, h.inFlight⟩
  intro entry hentry
  rcases List.mem_append.mp hentry with hheld | hnew
  · exact h.actions entry hheld
  · obtain rfl := List.mem_singleton.mp hnew
    rfl

theorem Proper.enqueue (h : Proper s) {kind : ReportKind} (report : kind.isLedger = false)
    (payload : Value) (at_ : DateTime) : Proper (s.step (.enqueue kind report payload at_)) := by
  refine ⟨?_, h.actions, h.traces, h.usage, h.sending, h.inFlight⟩
  intro entry hentry
  have hmem := (s.queue.enqueue_sublist s.minted kind (.value payload) at_).subset hentry
  rcases List.mem_append.mp hmem with hheld | hnew
  · exact h.queue entry hheld
  · obtain rfl := List.mem_singleton.mp hnew
    exact report

theorem Proper.pushAction (h : Proper s) (payload : Value) (at_ : DateTime) :
    Proper (s.step (.pushAction payload at_)) := by
  simp only [step]
  split
  next => exact h
  next ledger hpush => exact h.pushed hpush

theorem Proper.forceAction (h : Proper s) (payload : Value) (at_ : DateTime) :
    Proper (s.step (.forceAction payload at_)) := by
  have hroom : Proper s.makeRoom :=
    ⟨h.queue, fun entry hentry => h.actions entry (List.mem_of_mem_drop hentry), h.traces,
      h.usage, h.sending, h.inFlight⟩
  exact hroom.pushAction payload at_

theorem Proper.pushTrace (h : Proper s) (payload : Value) (at_ : DateTime) :
    Proper (s.step (.pushTrace payload at_)) := by
  refine ⟨h.queue, h.actions, ?_, h.usage, h.sending, h.inFlight⟩
  intro entry hentry
  obtain ⟨payload', hsublist⟩ := s.ledger.pushTrace_traces s.minted payload at_
  rcases List.mem_append.mp (hsublist.subset hentry) with hheld | hnew
  · exact h.traces entry hheld
  · obtain rfl := List.mem_singleton.mp hnew
    rfl

theorem Proper.pushUsage (h : Proper s) (usage : TokenUsage) :
    Proper (s.step (.pushUsage usage)) := by
  refine ⟨h.queue, h.actions, h.traces, ?_, h.sending, h.inFlight⟩
  exact batch_mem (List.mem_singleton.mpr rfl) h.usage

theorem Proper.flushReports (h : Proper s) (at_ : DateTime) :
    Proper (s.step (.flushReports at_)) := by
  simp only [step]
  split_ifs
  · refine ⟨?_, h.actions, h.traces, h.usage, ?_, h.inFlight⟩
    · intro entry hentry
      exact h.queue entry (List.mem_of_mem_drop hentry)
    · intro entry hentry
      obtain ⟨held, hheld, rfl⟩ := List.mem_map.mp hentry
      have hkind := h.queue held (List.mem_of_mem_take hheld)
      refine BufferedReport.proper_of_ne ?_
      rintro heq
      rw [← BufferedReport.attempt_kind, heq] at hkind
      cases hkind
  · exact h

theorem Proper.flushLedger (h : Proper s) (at_ : DateTime) :
    Proper (s.step (.flushLedger at_)) := by
  simp only [step]
  split_ifs
  · refine ⟨h.queue, by simp [flush, LedgerBuffer.drain], by simp [flush, LedgerBuffer.drain],
      by simp [flush, LedgerBuffer.drain], ?_, h.inFlight⟩
    intro entry hentry
    obtain ⟨held, hheld, rfl⟩ := List.mem_map.mp hentry
    rcases List.mem_append.mp hheld with hfirst | husage
    · refine BufferedReport.proper_of_ne ?_
      rw [BufferedReport.attempt_kind]
      rcases List.mem_append.mp hfirst with haction | htrace
      · rw [h.actions held haction]
        simp
      · rw [h.traces held htrace]
        simp
    · obtain ⟨sum, hsum, rfl⟩ := List.mem_map.mp husage
      exact fun _ => ⟨sum, rfl, rfl, h.usage sum hsum⟩
  · exact h

theorem Proper.step (h : Proper s) (e : CustodyEvent) : Proper (s.step e) := by
  cases e with
  | enqueue kind report payload at_ => exact h.enqueue report payload at_
  | pushAction payload at_ => exact h.pushAction payload at_
  | forceAction payload at_ => exact h.forceAction payload at_
  | pushTrace payload at_ => exact h.pushTrace payload at_
  | pushUsage usage => exact h.pushUsage usage
  | flushReports at_ => exact h.flushReports at_
  | flushLedger at_ => exact h.flushLedger at_
  | send =>
      simp only [Custody.step]
      split
      next => exact h
      next entry rest hsending =>
        obtain ⟨hentry, hrest⟩ := List.forall_mem_cons.mp (hsending ▸ h.sending)
        refine ⟨h.queue, h.actions, h.traces, h.usage, hrest, ?_⟩
        intro other hother
        simp only [List.map_append, List.mem_append, List.map_cons, List.map_nil,
          List.mem_singleton] at hother
        rcases hother with hother | rfl
        · exact h.inFlight other hother
        · exact hentry
  | sendFails hash =>
      simp only [Custody.step]
      split
      next => exact h
      next entry rest hsending =>
        have habandoned : Proper (s.abandon entry rest) :=
          ⟨h.queue, h.actions, h.traces, h.usage, by simp [abandon], h.inFlight⟩
        exact habandoned.requeueInFlight hash
  | inbound messageType ack =>
      simp only [Custody.step]
      split_ifs
      · rcases s.handleInbound_cases messageType ack with
          hsame | ⟨_, _, accepted, _, _, _, _, hlookup, heq⟩
        · rw [hsame]
          exact h
        · rw [heq]
          exact h.settled hlookup accepted
      · exact h
  | endSession hash =>
      simp only [Custody.step]
      split_ifs
      · exact h.requeueInFlight hash
      · exact h

/-- The state after a run. -/
def after (capacity : Nat) (events : List CustodyEvent) : Custody :=
  Machine.run step (start capacity) events

theorem sound_after (capacity : Nat) (events : List CustodyEvent) : Sound (after capacity events) :=
  Machine.invariant (sound_start capacity) (fun _ e hs => hs.step e) events

theorem proper_after (capacity : Nat) (events : List CustodyEvent) :
    Proper (after capacity events) :=
  Machine.invariant (proper_start capacity) (fun _ e hs => hs.step e) events

/-! ### A send that fails -/

/-- What a flush drained is in the buffers, or was evicted from them. -/
def Returned (s : Custody) : Prop :=
  ∀ entry ∈ s.drained, ∀ record ∈ entry.records, record ∈ s.held ∨ record ∈ recordsOf s.evicted

/-- What is lost is nowhere else. -/
theorem Sound.lost_disjoint (h : Sound s) {record : Nat} (hlost : record ∈ recordsOf s.lost) :
    record ∉ s.held ∧ record ∉ recordsOf s.evicted := by
  have hnodup : s.places.Nodup := h.placed ▸ Multiset.nodup_range _
  have hdisjoint := Multiset.disjoint_right.mp (Multiset.nodup_add.mp hnodup).2.2 hlost
  simp only [Multiset.mem_add, not_or] at hdisjoint
  exact ⟨hdisjoint.1.1.1.1.1, hdisjoint.1.2⟩

/-- **A send that fails loses what was not sent**, in every run and wherever it fails. -/
theorem failed_flush_loses (capacity : Nat) (events : List CustodyEvent) (hash : Nat → Nat)
    (h : (after capacity events).sending ≠ []) :
    ¬ Returned ((after capacity events).step (.sendFails hash)) := by
  have hsound := sound_after capacity events
  obtain ⟨entry, rest, hsending⟩ := List.exists_cons_of_ne_nil h
  have hserial : entry.serial ∈ entry.records :=
    ((proper_after capacity events).sending entry (by simp [hsending])).serial_mem
  have hstep : (after capacity events).step (.sendFails hash) =
      ((after capacity events).abandon entry rest).requeueInFlight hash := by
    simp only [step, hsending]
  obtain ⟨-, hdrained, -, -, -, hlost⟩ :=
    ((after capacity events).abandon entry rest).requeueInFlight_same hash
  have hfails := hsound.step (.sendFails hash)
  rw [hstep] at hfails ⊢
  -- the entry being sent was drained, and is lost
  have hmem : entry ∈
      (((after capacity events).abandon entry rest).requeueInFlight hash).drained := by
    rw [hdrained]
    exact hsound.suffix.subset (by simp [hsending])
  have hgone : entry.serial ∈
      recordsOf (((after capacity events).abandon entry rest).requeueInFlight hash).lost := by
    rw [hlost]
    exact mem_recordsOf.mpr ⟨entry, by simp [abandon], hserial⟩
  obtain ⟨hheld, hevicted⟩ := hfails.lost_disjoint hgone
  intro hreturned
  rcases hreturned entry hmem entry.serial hserial with hback | hback
  · exact hheld hback
  · exact hevicted hback

/-- Three reports are drained. The first is sent, and the send of the second fails. -/
def secondSend : List CustodyEvent :=
  [.enqueue .telemetry rfl .null ⟨0⟩, .enqueue .health rfl .null ⟨1⟩,
    .enqueue .events rfl .null ⟨2⟩, .flushReports ⟨3⟩, .send]

theorem failed_flush_loses_second :
    (after 8 secondSend).sending ≠ [] ∧
      ¬ Returned ((after 8 secondSend).step (.sendFails fun _ => 0)) :=
  ⟨by decide, failed_flush_loses 8 secondSend _ (by decide)⟩

/-- What that failure leaves: the report that was sent. -/
def afterSecondSend : Custody := (after 8 secondSend).step (.sendFails fun _ => 0)

/-- The second and the third report are in no buffer, and nothing was evicted. -/
theorem unsent_reports_lost :
    afterSecondSend.drained.map BufferedReport.serial = [0, 1, 2] ∧
      afterSecondSend.queue.entries.map BufferedReport.serial = [0] ∧
      afterSecondSend.evicted = [] ∧ ¬ Returned afterSecondSend := by
  refine ⟨by decide, by decide, by decide, fun h => ?_⟩
  have hback : ∀ entry ∈ afterSecondSend.drained, ∀ record ∈ entry.records,
      record ∈ afterSecondSend.held ∨ record ∈ recordsOf afterSecondSend.evicted := h
  revert hback
  decide

/-! ### Acknowledged reports -/

/-- The ack type the protocol has for a kind. -/
def ackType : ReportKind → MessageType
  | .telemetry => .telemetryAck
  | .health => .healthAck
  | .events => .eventsAck
  | .activities => .activitiesAck
  | .sentinel => .sentinelAck
  | .actionLedger => .actionEventAck
  | .brainTrace => .brainTraceAck
  | .tokenUsage => .tokenUsageAck

/-- An accepting ack of the kind's type takes the entry out of the map, and nothing else. From
then on, none of its records is sent. -/
def Acknowledged (kind : ReportKind) : Prop :=
  ∀ capacity events id entry, (after capacity events).sending = [] →
    (id, entry) ∈ (after capacity events).inFlight → entry.kind = kind →
    ∃ s, s = (after capacity events).step
        (.inbound (some (ackType kind)) (some ⟨some id, true⟩)) ∧
      (after capacity events).inFlight.Perm ((id, entry) :: s.inFlight) ∧
      s.queue = (after capacity events).queue ∧ s.ledger = (after capacity events).ledger ∧
      ∀ later, ∃ more, (Machine.run step s later).sent = s.sent ++ more ∧
        ∀ envelope ∈ more, ∀ record ∈ entry.records, record ∉ envelope.entry.records

theorem accepted_settle (s : Custody) (entry : BufferedReport) (accepted : Bool) :
    s.accepted ⊆ (s.settle entry accepted).accepted := by
  unfold settle
  split_ifs
  · exact List.subset_append_left _ _
  · exact List.Subset.refl _
  · exact List.Subset.refl _
  · exact List.Subset.refl _

/-- What a step sends was drained before, and what was accepted stays so. -/
theorem sent_step (s : Custody) (e : CustodyEvent) :
    ∃ more, (s.step e).sent = s.sent ++ more ∧ (∀ envelope ∈ more, envelope.entry ∈ s.sending) ∧
      s.accepted ⊆ (s.step e).accepted := by
  have hquiet : ∀ s' : Custody, s'.sent = s.sent → s.accepted ⊆ s'.accepted →
      ∃ more, s'.sent = s.sent ++ more ∧ (∀ envelope ∈ more, envelope.entry ∈ s.sending) ∧
        s.accepted ⊆ s'.accepted :=
    fun s' hsent haccepted => ⟨[], by simpa using hsent, by simp, haccepted⟩
  have hsame := hquiet s rfl (List.Subset.refl _)
  cases e with
  | enqueue kind report payload at_ => exact hquiet _ rfl (List.Subset.refl _)
  | pushAction payload at_ =>
      have hproduces := s.pushAction_produces payload at_
      exact hquiet _ hproduces.sent (hproduces.accepted ▸ List.Subset.refl _)
  | forceAction payload at_ =>
      have hproduces := s.forceAction_produces payload at_
      exact hquiet _ hproduces.sent (hproduces.accepted ▸ List.Subset.refl _)
  | pushTrace payload at_ => exact hquiet _ rfl (List.Subset.refl _)
  | pushUsage usage => exact hquiet _ rfl (List.Subset.refl _)
  | flushReports at_ =>
      simp only [step]
      split_ifs
      · exact hquiet _ rfl (List.Subset.refl _)
      · exact hsame
  | flushLedger at_ =>
      simp only [step]
      split_ifs
      · exact hquiet _ rfl (List.Subset.refl _)
      · exact hsame
  | send =>
      simp only [step]
      split
      next => exact hsame
      next entry rest hsending =>
        exact ⟨_, rfl, by simp [Envelope.new, hsending], List.Subset.refl _⟩
  | sendFails hash =>
      simp only [step]
      split
      next => exact hsame
      next entry rest hsending =>
        obtain ⟨-, -, -, hsent, haccepted, -⟩ := (s.abandon entry rest).requeueInFlight_same hash
        exact ⟨[.new s.messages entry], hsent, by simp [Envelope.new, hsending],
          (haccepted ▸ List.Subset.refl _)⟩
  | inbound messageType ack =>
      simp only [step]
      split_ifs
      · rcases s.handleInbound_cases messageType ack with
          hnothing | ⟨_, id, accepted, entry, _, _, _, _, heq⟩
        · rw [hnothing]
          exact hsame
        · rw [heq]
          obtain ⟨-, -, -, -, -, hsent⟩ := (s.land id).settle_same entry accepted
          exact hquiet _ hsent (accepted_settle (s.land id) entry accepted)
      · exact hsame
  | endSession hash =>
      simp only [step]
      split_ifs
      · obtain ⟨-, -, -, hsent, haccepted, -⟩ := s.requeueInFlight_same hash
        exact hquiet _ hsent (haccepted ▸ List.Subset.refl _)
      · exact hsame

/-- What is accepted is not among what is still to send. -/
theorem Sound.accepted_disjoint (h : Sound s) {other : BufferedReport}
    (haccepted : entry ∈ s.accepted) (hsending : other ∈ s.sending) {record : Nat}
    (hrecord : record ∈ entry.records) : record ∉ other.records := by
  intro hother
  have hnodup : s.places.Nodup := h.placed ▸ Multiset.nodup_range _
  have hfirst := (Multiset.nodup_add.mp (Multiset.nodup_add.mp
    (Multiset.nodup_add.mp hnodup).1).1).1
  have hdisjoint := Multiset.disjoint_right.mp (Multiset.nodup_add.mp hfirst).2.2
    (mem_recordsOf.mpr ⟨entry, haccepted, hrecord⟩)
  simp only [Multiset.mem_add, not_or] at hdisjoint
  exact hdisjoint.1.2 (mem_recordsOf.mpr ⟨other, hsending, hother⟩)

/-- An accepted entry is not sent again. -/
theorem Sound.never_again (h : Sound s) (haccepted : entry ∈ s.accepted)
    (later : List CustodyEvent) :
    ∃ more, (Machine.run Custody.step s later).sent = s.sent ++ more ∧
      ∀ envelope ∈ more, ∀ record ∈ entry.records, record ∉ envelope.entry.records := by
  induction later generalizing s with
  | nil => exact ⟨[], by simp, by simp⟩
  | cons e later ih =>
      obtain ⟨first, hfirst, hdrained, hstays⟩ := s.sent_step e
      obtain ⟨rest, hrest, hothers⟩ := ih (h.step e) (hstays haccepted)
      refine ⟨first ++ rest, ?_, ?_⟩
      · rw [← List.append_assoc, ← hfirst]
        exact hrest
      · intro envelope henvelope record hrecord
        rcases List.mem_append.mp henvelope with hnow | hlater
        · exact h.accepted_disjoint haccepted (hdrained envelope hnow) hrecord
        · exact hothers envelope hlater record hrecord

/-- The ids are distinct, so an entry is found under its own. -/
theorem lookup_of_mem {inFlight : List (Nat × BufferedReport)}
    (hkeys : (inFlight.map Prod.fst).Nodup) (hmem : (id, entry) ∈ inFlight) :
    inFlight.lookup id = some entry := by
  obtain ⟨l₁, l₂, rfl⟩ := List.append_of_mem hmem
  refine List.lookup_eq_some_iff.mpr ⟨l₁, l₂, rfl, ?_⟩
  intro other hother
  have hbefore := List.disjoint_of_nodup_append (List.map_append ▸ hkeys)
  have hne : id ≠ other.1 := by
    rintro rfl
    exact hbefore (List.mem_map_of_mem hother) (by simp)
  simpa using hne

theorem acknowledged_of_recognised {kind : ReportKind} (h : isReportAck (ackType kind) = true) :
    Acknowledged kind := by
  intro capacity events id entry hidle hmem hkind
  have hsound := sound_after capacity events
  have hlookup := lookup_of_mem hsound.keys hmem
  have hstep : (after capacity events).step
      (.inbound (some (ackType kind)) (some ⟨some id, true⟩)) =
        ((after capacity events).land id).settle entry true := by
    simp [step, hidle, handleInbound, h, hlookup]
  refine ⟨_, rfl, ?_⟩
  rw [hstep]
  refine ⟨perm_of_lookup hsound.keys hlookup, rfl, rfl, ?_⟩
  exact (hsound.settled hlookup true).never_again (by simp [settle])

/-- A sentinel report is in flight. -/
def sentinelSent : List CustodyEvent :=
  [.enqueue .sentinel rfl .null ⟨0⟩, .flushReports ⟨0⟩, .send]

theorem sentinel_not_acknowledged : ¬ Acknowledged .sentinel := by
  intro h
  have hidle : (after 1 sentinelSent).sending = [] := by decide
  obtain ⟨sent, hsent⟩ : ∃ sent, (after 1 sentinelSent).inFlight = [(0, sent)] := by
    exact ⟨_, rfl⟩
  have hkind : sent.kind = .sentinel := by
    obtain rfl : sent = _ := (Prod.mk.inj (List.head_eq_of_cons_eq hsent)).2.symm
    rfl
  obtain ⟨s, hs, hperm, -⟩ := h 1 sentinelSent 0 sent hidle (by simp [hsent]) hkind
  have hstays : s.inFlight = (after 1 sentinelSent).inFlight := by
    rw [hs]
    simp [step, hidle, handleInbound, ackType, isReportAck]
  have hlength := hperm.length_eq
  rw [hstays, List.length_cons] at hlength
  omega

/-- **Every kind but the sentinel reports is acknowledged.** -/
theorem acknowledged_iff (kind : ReportKind) : Acknowledged kind ↔ kind ≠ .sentinel := by
  constructor
  · rintro h rfl
    exact sentinel_not_acknowledged h
  · intro hne
    refine acknowledged_of_recognised ?_
    cases kind with
    | sentinel => exact absurd rfl hne
    | _ => rfl

/-- The cloud accepts the sentinel report with the ack of its kind, the session ends, and the
next session sends it again. -/
theorem accepted_sentinel_sent_again :
    (after 1 (sentinelSent ++ [.inbound (some (ackType .sentinel)) (some ⟨some 0, true⟩),
      .endSession fun _ => 0, .flushReports ⟨1⟩, .send])).sent.map
        (fun envelope => (envelope.messageType, envelope.entry.serial)) =
      [(.sentinelReport, 0), (.sentinelReport, 0)] ∧ ¬ Acknowledged .sentinel :=
  ⟨by decide, sentinel_not_acknowledged⟩

end Custody
end Argus
