import Argus.Daemon.CloudCustody

/-!
# How often an entry is sent

An entry counts its attempts, and a rejection after the eighth is the last. Two paths go round
the count. A session that ends puts everything in flight back without looking at it. And a
usage batch is an entry only from a drain to its ack: each drain makes a new one, with a new
count, so a batch that the cloud rejects is never given up. The rejections of sentinel reports
are not recognised, so that the end of the session is all they meet.

`given_up_in_time`: as long as no session end finds an entry that was sent eight times, and no
usage batch is rejected that was, nothing is sent more than eight times, and what was is in no
buffer.
-/

namespace Argus

open LedgerBuffer (usageOf batch)

/-- The count of an entry in a buffer, where `counts` tells how often a record was sent. -/
def BufferedReport.Waiting (counts : Nat → Nat) (entry : BufferedReport) : Prop :=
  (∀ record ∈ entry.records, counts record < maxSendAttempts) ∧
    (entry.kind ≠ .tokenUsage → counts entry.serial ≤ entry.attempts)

/-- The count of an entry that is sent next. -/
def BufferedReport.Ready (counts : Nat → Nat) (entry : BufferedReport) : Prop :=
  (∀ record ∈ entry.records, counts record < maxSendAttempts) ∧
    (entry.kind ≠ .tokenUsage → counts entry.serial < entry.attempts)

theorem BufferedReport.Waiting.attempt {counts : Nat → Nat} {entry : BufferedReport}
    (h : entry.Waiting counts) : entry.attempt.Ready counts := by
  refine ⟨h.1, fun (hkind : entry.kind ≠ .tokenUsage) => ?_⟩
  have hle := h.2 hkind
  have hless : counts entry.serial < maxSendAttempts :=
    h.1 entry.serial (by simp [records_of_ne hkind])
  have hattempts : entry.attempt.attempts = saturatingAdd entry.attempts 1 := rfl
  rw [BufferedReport.attempt_serial, hattempts, saturatingAdd]
  rw [maxSendAttempts] at hless
  omega

namespace Custody

variable {s s' : Custody} {entry : BufferedReport} {entries : List BufferedReport}
  {counts : Nat → Nat} {e : CustodyEvent}

/-- How often a record was sent. -/
def sends (s : Custody) (record : Nat) : Nat :=
  (recordsOf (s.sent.map Envelope.entry)).count record

/-- The entries in the buffers, without the usage batches. -/
def waiting (s : Custody) : List BufferedReport :=
  s.queue.entries ++ s.ledger.actions ++ s.ledger.traces

/-- Nothing was sent more than eight times, and what was sent eight times is neither in a
buffer nor about to be sent. -/
def GivesUp (s : Custody) : Prop :=
  ∀ record, s.sends record ≤ maxSendAttempts ∧
    (s.sends record = maxSendAttempts → record ∉ s.held ∧ record ∉ recordsOf s.sending)

/-- Some record of the entry was sent eight times. -/
def Spent (s : Custody) (entry : BufferedReport) : Prop :=
  ∃ record ∈ entry.records, maxSendAttempts ≤ s.sends record

instance : Decidable (Spent s entry) :=
  inferInstanceAs (Decidable (∃ record ∈ entry.records, _))

/-- The session does not end with an entry in flight that was sent eight times, and no usage
batch is rejected that was. -/
def InTime (s : Custody) : CustodyEvent → Prop
  | .sendFails _ => s.sending ≠ [] → ∀ entry ∈ s.inFlight.map Prod.snd, ¬ s.Spent entry
  | .endSession _ => s.sending = [] → ∀ entry ∈ s.inFlight.map Prod.snd, ¬ s.Spent entry
  | .inbound messageType ack =>
      ∀ entry ∈ s.back (.inbound messageType ack), entry.kind = .tokenUsage → ¬ s.Spent entry
  | _ => True

instance : (e : CustodyEvent) → Decidable (InTime s e)
  | .sendFails _ => inferInstanceAs (Decidable (s.sending ≠ [] → _))
  | .endSession _ => inferInstanceAs (Decidable (s.sending = [] → _))
  | .inbound messageType ack =>
      inferInstanceAs (Decidable (∀ entry ∈ s.back (.inbound messageType ack), _))
  | .enqueue .. | .pushAction .. | .forceAction .. | .pushTrace .. | .pushUsage _
  | .flushReports _ | .flushLedger _ | .send => isTrue trivial

/-- The counts of the entries, against how often they were sent. -/
structure Paced (counts : Nat → Nat) (s : Custody) : Prop where
  all : ∀ record, counts record ≤ maxSendAttempts
  new : ∀ record, s.minted ≤ record → counts record = 0
  waiting : ∀ entry ∈ s.waiting, entry.Waiting counts
  usage : ∀ record ∈ sumsOf s.ledger.usage, counts record < maxSendAttempts
  sending : ∀ entry ∈ s.sending, entry.Ready counts
  inFlight : ∀ entry ∈ s.inFlight.map Prod.snd,
    entry.kind ≠ .tokenUsage → counts entry.serial ≤ entry.attempts

theorem waiting_of_new (hkind : entry.kind ≠ .tokenUsage) (hnew : counts entry.serial = 0) :
    entry.Waiting counts := by
  refine ⟨fun record hrecord => ?_, fun _ => hnew ▸ Nat.zero_le _⟩
  rw [records_of_ne hkind, List.mem_singleton] at hrecord
  rw [hrecord, hnew]
  decide

/-! ### The producers -/

/-- What a producer adds was never sent. -/
theorem Paced.produced (h : Paced counts s) (hminted : s.minted ≤ s'.minted)
    (hwaiting : ∀ entry ∈ s'.waiting,
      entry ∈ s.waiting ∨ entry.kind ≠ .tokenUsage ∧ entry.serial = s.minted)
    (husage : ∀ record ∈ sumsOf s'.ledger.usage,
      record ∈ sumsOf s.ledger.usage ∨ record = s.minted)
    (hsending : s'.sending = s.sending) (hinFlight : s'.inFlight = s.inFlight) :
    Paced counts s' := by
  have hfirst : counts s.minted = 0 := h.new s.minted le_rfl
  constructor
  case all => exact h.all
  case new => exact fun record hrecord => h.new record (hminted.trans hrecord)
  case waiting =>
    intro entry hentry
    rcases hwaiting entry hentry with hold | ⟨hkind, hserial⟩
    · exact h.waiting entry hold
    · exact waiting_of_new hkind (hserial ▸ hfirst)
  case usage =>
    intro record hrecord
    rcases husage record hrecord with hold | rfl
    · exact h.usage record hold
    · rw [hfirst]
      decide
  case sending => exact hsending ▸ h.sending
  case inFlight => exact hinFlight ▸ h.inFlight

theorem Paced.pushAction (h : Paced counts s) (payload : Value) (at_ : DateTime) :
    Paced counts (s.step (.pushAction payload at_)) := by
  simp only [step]
  split
  next => exact h
  next ledger hpush =>
    obtain ⟨-, rfl⟩ := LedgerBuffer.tryPushAction_inv hpush
    refine h.produced (Nat.le_succ _) (fun entry hentry => ?_) (fun _ => .inl) rfl rfl
    simp only [Custody.waiting, List.mem_append, List.mem_singleton] at hentry ⊢
    rcases hentry with (hqueue | haction | rfl) | htrace
    · exact .inl (.inl (.inl hqueue))
    · exact .inl (.inl (.inr haction))
    · exact .inr ⟨by simp [BufferedReport.fresh], rfl⟩
    · exact .inl (.inr htrace)

theorem Paced.forceAction (h : Paced counts s) (payload : Value) (at_ : DateTime) :
    Paced counts (s.step (.forceAction payload at_)) := by
  have hroom : Paced counts s.makeRoom := by
    refine h.produced le_rfl (fun entry hentry => .inl ?_) (fun _ => .inl) rfl rfl
    have hactions : (s.ledger.actions.drop (ledgerActionCapacity / 4)).Sublist s.ledger.actions :=
      List.drop_sublist _ _
    exact ((hactions.append_left s.queue.entries).append_right s.ledger.traces).subset hentry
  exact hroom.pushAction payload at_

theorem Paced.enqueue (h : Paced counts s) {kind : ReportKind} (report : kind.isLedger = false)
    (payload : Value) (at_ : DateTime) :
    Paced counts (s.step (.enqueue kind report payload at_)) := by
  refine h.produced (Nat.le_succ _) (fun entry hentry => ?_) (fun _ => .inl) rfl rfl
  have hqueue := s.queue.enqueue_sublist s.minted kind (.value payload) at_
  have hmem := ((hqueue.append_right s.ledger.actions).append_right s.ledger.traces).subset hentry
  simp only [List.mem_append, List.mem_singleton] at hmem
  simp only [Custody.waiting, List.mem_append]
  rcases hmem with ((hold | rfl) | haction) | htrace
  · exact .inl (.inl (.inl hold))
  · refine .inr ⟨?_, rfl⟩
    rintro rfl
    cases report
  · exact .inl (.inl (.inr haction))
  · exact .inl (.inr htrace)

theorem Paced.pushTrace (h : Paced counts s) (payload : Value) (at_ : DateTime) :
    Paced counts (s.step (.pushTrace payload at_)) := by
  refine h.produced (Nat.le_succ _) (fun entry hentry => ?_) (fun _ => .inl) rfl rfl
  obtain ⟨payload', htraces⟩ := s.ledger.pushTrace_traces s.minted payload at_
  have hmem := (htraces.append_left (s.queue.entries ++ s.ledger.actions)).subset hentry
  simp only [List.mem_append, List.mem_singleton] at hmem
  simp only [Custody.waiting, List.mem_append]
  rcases hmem with hold | htrace | rfl
  · exact .inl (.inl hold)
  · exact .inl (.inr htrace)
  · exact .inr ⟨by simp [BufferedReport.fresh], rfl⟩

theorem Paced.pushUsage (h : Paced counts s) (usage : TokenUsage) :
    Paced counts (s.step (.pushUsage usage)) := by
  refine h.produced (Nat.le_succ _) (fun _ => .inl) (fun record hrecord => ?_) rfl rfl
  have hbatch : sumsOf (batch (usage.sum s.minted) s.ledger.usage) =
      sumsOf s.ledger.usage + {s.minted} := LedgerBuffer.batch_records _ _
  simp only [step, LedgerBuffer.pushUsage, hbatch, Multiset.mem_add,
    Multiset.mem_singleton] at hrecord
  exact hrecord

/-! ### The session -/

theorem Paced.flushReports (h : Paced counts s) (at_ : DateTime) :
    Paced counts (s.step (.flushReports at_)) := by
  simp only [step]
  split_ifs
  · refine ⟨h.all, h.new, fun entry hentry => h.waiting entry ?_, h.usage, ?_, h.inFlight⟩
    · have hleft := List.drop_sublist (min s.queue.entries.length s.queue.entries.length)
        s.queue.entries
      exact ((hleft.append_right s.ledger.actions).append_right s.ledger.traces).subset hentry
    · intro entry hentry
      obtain ⟨held, hheld, rfl⟩ := List.mem_map.mp hentry
      refine (h.waiting held ?_).attempt
      simp [Custody.waiting, List.mem_of_mem_take hheld]
  · exact h

theorem Paced.flushLedger (h : Paced counts s) (at_ : DateTime) :
    Paced counts (s.step (.flushLedger at_)) := by
  simp only [step]
  split_ifs
  · refine ⟨h.all, h.new, fun entry hentry => h.waiting entry ?_, ?_, ?_, h.inFlight⟩
    · have hqueue : entry ∈ s.queue.entries := by
        simpa [Custody.waiting, flush, LedgerBuffer.drain] using hentry
      simp [Custody.waiting, hqueue]
    · intro record hrecord
      exact absurd hrecord (Multiset.notMem_zero record)
    · intro entry hentry
      obtain ⟨held, hheld, rfl⟩ := List.mem_map.mp hentry
      refine BufferedReport.Waiting.attempt ?_
      rcases List.mem_append.mp hheld with hfirst | husage
      · refine h.waiting held ?_
        simp only [Custody.waiting, List.append_assoc]
        exact List.mem_append_right _ hfirst
      · -- a batch becomes an entry with a count of its own
        obtain ⟨sum, hsum, rfl⟩ := List.mem_map.mp husage
        refine ⟨fun record hrecord => h.usage record ?_, fun hkind => absurd rfl hkind⟩
        exact List.mem_flatMap.mpr ⟨sum, hsum, hrecord⟩
  · exact h

/-- What goes back to the buffers was sent less than eight times. -/
theorem Paced.putBack (h : Paced counts s) (hput : PutBack s s' entries)
    (hinFlight : ∀ entry ∈ s'.inFlight, entry ∈ s.inFlight)
    (hentries : ∀ entry ∈ entries, entry.Waiting counts) : Paced counts s' := by
  have hledger := hput.ledger
  constructor
  case all => exact h.all
  case new => exact hput.minted ▸ h.new
  case waiting =>
    intro entry hentry
    simp only [Custody.waiting, hledger, LedgerBuffer.requeue, List.mem_append] at hentry
    have hold (hmem : entry ∈ s.queue.entries ∨ entry ∈ s.ledger.actions ∨
        entry ∈ s.ledger.traces) : entry.Waiting counts :=
      h.waiting entry (by simpa [Custody.waiting, or_assoc] using hmem)
    rcases hentry with (hqueue | hback | haction) | hback | htrace
    · rcases List.mem_append.mp (hput.queue.subset hqueue) with hback | hmem
      · exact hentries entry (List.mem_filter.mp hback).1
      · exact hold (.inl hmem)
    · exact hentries entry (List.mem_filter.mp (List.mem_filter.mp hback).1).1
    · exact hold (.inr (.inl haction))
    · exact hentries entry (List.mem_filter.mp (List.mem_filter.mp hback).1).1
    · exact hold (.inr (.inr htrace))
  case usage =>
    intro record hrecord
    simp only [hledger, LedgerBuffer.requeue, LedgerBuffer.batches_records,
      Multiset.mem_add] at hrecord
    rcases hrecord with hold | hback
    · exact h.usage record hold
    · obtain ⟨sum, hsum, hmem⟩ := List.mem_flatMap.mp hback
      obtain ⟨entry, hentry, husage⟩ := List.mem_filterMap.mp hsum
      refine (hentries entry (List.mem_filter.mp hentry).1).1 record ?_
      simpa [BufferedReport.records, (usageOf_eq husage).1, husage] using hmem
  case sending => exact fun entry hentry => h.sending entry (hput.sending.subset hentry)
  case inFlight =>
    intro entry hentry
    obtain ⟨sent, hsent, rfl⟩ := List.mem_map.mp hentry
    exact h.inFlight sent.2 (List.mem_map_of_mem (hinFlight sent hsent))

/-- A session end puts everything in flight back. -/
theorem Paced.ends (h : Paced counts s)
    (hinFlight : ∀ entry ∈ s.inFlight.map Prod.snd, ∀ record ∈ entry.records,
      counts record < maxSendAttempts) (hash : Nat → Nat) :
    Paced counts (s.requeueInFlight hash) := by
  refine h.putBack (s.putBack_requeueInFlight hash) ?_ fun entry hentry => ?_
  · rw [requeueInFlight_inFlight]
    simp
  · have hmem := (returning_perm hash s.inFlight).subset hentry
    exact ⟨hinFlight entry hmem, h.inFlight entry hmem⟩

theorem Paced.settled (h : Paced counts s) {id : Nat} {accepted : Bool}
    (hagain : accepted = false → entry.attempts < maxSendAttempts → entry.Waiting counts) :
    Paced counts ((s.land id).settle entry accepted) := by
  have hland : Paced counts (s.land id) := by
    refine ⟨h.all, h.new, h.waiting, h.usage, h.sending, fun other hother => h.inFlight other ?_⟩
    exact (List.filter_sublist.map Prod.snd).subset hother
  have hsame : ((s.land id).settle entry accepted).inFlight = (s.land id).inFlight :=
    ((s.land id).settle_same entry accepted).1
  by_cases hback : accepted = false ∧ entry.attempts < maxSendAttempts
  · obtain ⟨rfl, hattempts⟩ := hback
    refine hland.putBack ((s.land id).putBack_rejected hattempts) (by simp [hsame]) ?_
    exact List.forall_mem_singleton.mpr (hagain rfl hattempts)
  · have hdone : accepted = true ∨ maxSendAttempts ≤ entry.attempts := by
      cases accepted with
      | true => exact .inl rfl
      | false => exact .inr (Nat.le_of_not_lt fun hless => hback ⟨rfl, hless⟩)
    exact hland.putBack ((s.land id).putBack_settled entry accepted hdone) (by simp [hsame])
      (List.forall_mem_nil _)

/-! ### A send -/

/-- The counts once an entry is posted. -/
def posted (counts : Nat → Nat) (entry : BufferedReport) (record : Nat) : Nat :=
  counts record + entry.records.count record

/-- The records of the entry that is sent are nowhere else. -/
theorem Sound.next_apart (h : Sound s) {rest : List BufferedReport}
    (hsending : s.sending = entry :: rest) :
    entry.records.Nodup ∧ ∀ record ∈ entry.records, record ∉ s.held ∧ record ∉ recordsOf rest ∧
      record ∉ recordsOf (s.inFlight.map Prod.snd) := by
  have hnodup : s.places.Nodup := h.placed ▸ Multiset.nodup_range _
  simp only [places, hsending, recordsOf_cons, Multiset.nodup_add] at hnodup
  obtain ⟨⟨⟨⟨⟨⟨-, ⟨hentry, -, hrest⟩, hheld⟩, -, hinFlight⟩, -⟩, -⟩, -⟩, -⟩ := hnodup
  refine ⟨Multiset.coe_nodup.mp hentry, fun record hrecord => ?_⟩
  have hmem : record ∈ (entry.records : Multiset Nat) := hrecord
  refine ⟨fun hother => ?_, fun hother => ?_, fun hother => ?_⟩
  · exact Multiset.disjoint_left.mp hheld hother (Multiset.mem_add.mpr (.inl hmem))
  · exact Multiset.disjoint_left.mp hrest hmem hother
  · refine Multiset.disjoint_left.mp hinFlight ?_ hother
    exact Multiset.mem_add.mpr (.inr (Multiset.mem_add.mpr (.inl hmem)))

theorem posted_of_not_mem {record : Nat} (h : record ∉ entry.records) :
    posted counts entry record = counts record := by
  rw [posted, List.count_eq_zero.mpr h, Nat.add_zero]

theorem mem_held {record : Nat} : record ∈ s.held ↔
    record ∈ recordsOf s.waiting ∨ record ∈ sumsOf s.ledger.usage := by
  simp only [held, LedgerBuffer.records, Custody.waiting, recordsOf_append, Multiset.mem_add]
  tauto

/-- The post of the next entry counts for its records, and for no others. -/
theorem Paced.posted (h : Paced counts s) (hsound : Sound s) (hproper : Proper s)
    {rest : List BufferedReport} (hsending : s.sending = entry :: rest) :
    Paced (Custody.posted counts entry) { s with sending := rest } := by
  obtain ⟨hnodup, hapart⟩ := hsound.next_apart hsending
  obtain ⟨⟨hready, -⟩, hrest⟩ := List.forall_mem_cons.mp (hsending ▸ h.sending)
  obtain ⟨-, hproperRest⟩ := List.forall_mem_cons.mp (hsending ▸ hproper.sending)
  have hsame {record : Nat} (hother : record ∈ s.held ∨ record ∈ recordsOf rest ∨
      record ∈ recordsOf (s.inFlight.map Prod.snd)) :
      Custody.posted counts entry record = counts record := by
    refine posted_of_not_mem fun hmem => ?_
    obtain ⟨hheld, hlater, hinFlight⟩ := hapart record hmem
    exact hother.elim hheld (Or.rec hlater hinFlight)
  constructor
  case all =>
    intro record
    have hle := h.all record
    by_cases hmem : record ∈ entry.records
    · have honce : entry.records.count record ≤ 1 := List.nodup_iff_count_le_one.mp hnodup record
      have hless := hready record hmem
      rw [Custody.posted]
      omega
    · rwa [posted_of_not_mem hmem]
  case new =>
    intro record hrecord
    refine (posted_of_not_mem fun hmem => ?_).trans (h.new record hrecord)
    -- every record was minted
    have hplaced : record ∈ s.places := by
      simp [places, hsending, hmem]
    rw [hsound.placed, Multiset.mem_range] at hplaced
    exact absurd hrecord (Nat.not_le.mpr hplaced)
  case waiting =>
    intro other hother
    have hheld {record : Nat} (hmem : record ∈ other.records) :
        Custody.posted counts entry record = counts record :=
      hsame (.inl (mem_held.mpr (.inl (mem_recordsOf.mpr ⟨other, hother, hmem⟩))))
    refine ⟨fun record hmem => ?_, fun hkind => ?_⟩
    · rw [hheld hmem]
      exact (h.waiting other hother).1 record hmem
    · rw [hheld (by simp [records_of_ne hkind])]
      exact (h.waiting other hother).2 hkind
  case usage =>
    intro record hrecord
    rw [hsame (.inl (mem_held.mpr (.inr hrecord)))]
    exact h.usage record hrecord
  case sending =>
    intro other hother
    have hlater {record : Nat} (hmem : record ∈ other.records) :
        Custody.posted counts entry record = counts record :=
      hsame (.inr (.inl (mem_recordsOf.mpr ⟨other, hother, hmem⟩)))
    refine ⟨fun record hmem => ?_, fun hkind => ?_⟩
    · rw [hlater hmem]
      exact (hrest other hother).1 record hmem
    · rw [hlater (by simp [records_of_ne hkind])]
      exact (hrest other hother).2 hkind
  case inFlight =>
    intro other hother hkind
    have hmem : other.serial ∈ other.records := by simp [records_of_ne hkind]
    rw [hsame (.inr (.inr (mem_recordsOf.mpr ⟨other, hother, hmem⟩)))]
    exact h.inFlight other hother hkind

/-! ### A run -/

/-- What a run in time keeps. -/
structure Kept (s : Custody) : Prop where
  sound : Sound s
  proper : Proper s
  paced : Paced s.sends s

theorem kept_start (capacity : Nat) : Kept (start capacity) := by
  refine ⟨sound_start capacity, proper_start capacity, ?_⟩
  constructor
  case all => exact fun _ => Nat.zero_le _
  case new => exact fun _ _ => rfl
  case usage => exact fun record hrecord => absurd hrecord (Multiset.notMem_zero record)
  all_goals simp [start, Custody.waiting, ReportQueue.new, LedgerBuffer.new]

theorem sends_of_sent (h : s'.sent = s.sent) : s'.sends = s.sends := by
  funext record
  rw [sends, sends, h]

theorem sends_of_post (h : s'.sent = s.sent ++ [.new s.messages entry]) :
    s'.sends = posted s.sends entry := by
  funext record
  simp [sends, posted, h, Envelope.new]

theorem Kept.send (h : Kept s) : Paced (s.step .send).sends (s.step .send) := by
  simp only [step]
  split
  next => exact h.paced
  next entry rest hsending =>
    have hposted := h.paced.posted h.sound h.proper hsending
    rw [@sends_of_post s _ entry rfl]
    refine ⟨hposted.all, hposted.new, hposted.waiting, hposted.usage, hposted.sending, ?_⟩
    intro other hother hkind
    simp only [List.map_append, List.mem_append, List.map_cons, List.map_nil,
      List.mem_singleton] at hother
    rcases hother with hother | rfl
    · exact hposted.inFlight other hother hkind
    · have hready := (h.paced.sending other (by simp [hsending])).2 hkind
      simp only [Custody.posted, records_of_ne hkind, List.count_singleton_self]
      omega

theorem Kept.sendFails (h : Kept s) {hash : Nat → Nat} (hintime : s.InTime (.sendFails hash)) :
    Paced (s.step (.sendFails hash)).sends (s.step (.sendFails hash)) := by
  simp only [step]
  split
  next => exact h.paced
  next entry rest hsending =>
    have hposted := h.paced.posted h.sound h.proper hsending
    obtain ⟨-, -, -, hsent, -⟩ := (s.abandon entry rest).requeueInFlight_same hash
    have hsends : ((s.abandon entry rest).requeueInFlight hash).sends = posted s.sends entry :=
      sends_of_post hsent
    have habandoned : Paced (Custody.posted s.sends entry) (s.abandon entry rest) :=
      ⟨hposted.all, hposted.new, hposted.waiting, hposted.usage, List.forall_mem_nil _,
        hposted.inFlight⟩
    rw [hsends]
    refine habandoned.ends (fun other hother record hrecord => ?_) hash
    have hapart : record ∉ entry.records := fun hmem =>
      ((h.sound.next_apart hsending).2 record hmem).2.2
        (mem_recordsOf.mpr ⟨other, hother, hrecord⟩)
    rw [posted_of_not_mem hapart]
    have hspent := hintime (by simp [hsending]) other hother
    exact Nat.lt_of_not_le fun hle => hspent ⟨record, hrecord, hle⟩

theorem Kept.inbound (h : Kept s) {messageType : Option MessageType} {ack : Option IngestAck}
    (hintime : s.InTime (.inbound messageType ack)) :
    Paced (s.step (.inbound messageType ack)).sends (s.step (.inbound messageType ack)) := by
  rcases s.inbound_cases messageType ack with
    ⟨hstep, -⟩ | ⟨id, entry, accepted, -, hlookup, hstep, hback⟩
  · rw [hstep]
    exact h.paced
  · have hsent : ((s.land id).settle entry accepted).sent = s.sent :=
      ((s.land id).settle_same entry accepted).2.2.2.2.2
    rw [hstep, sends_of_sent hsent]
    have hentry : entry ∈ s.inFlight.map Prod.snd := by
      obtain ⟨l₁, l₂, hsplit, -⟩ := List.lookup_eq_some_iff.mp hlookup
      simp [hsplit]
    refine h.paced.settled fun haccepted hattempts => ?_
    have hcount := h.paced.inFlight entry hentry
    refine ⟨fun record hrecord => ?_, hcount⟩
    by_cases hkind : entry.kind = .tokenUsage
    · have hspent := hintime entry (by simp [hback, haccepted, hattempts]) hkind
      exact Nat.lt_of_not_le fun hle => hspent ⟨record, hrecord, hle⟩
    · rw [records_of_ne hkind, List.mem_singleton] at hrecord
      exact hrecord ▸ (hcount hkind).trans_lt hattempts

theorem Kept.endSession (h : Kept s) {hash : Nat → Nat} (hintime : s.InTime (.endSession hash)) :
    Paced (s.step (.endSession hash)).sends (s.step (.endSession hash)) := by
  simp only [step]
  split_ifs with hidle
  · obtain ⟨-, -, -, hsent, -⟩ := s.requeueInFlight_same hash
    rw [sends_of_sent hsent]
    refine h.paced.ends (fun other hother record hrecord => ?_) hash
    have hspent := hintime (List.isEmpty_iff.mp hidle) other hother
    exact Nat.lt_of_not_le fun hle => hspent ⟨record, hrecord, hle⟩
  · exact h.paced

theorem Kept.step (h : Kept s) (hintime : s.InTime e) : Kept (s.step e) := by
  refine ⟨h.sound.step e, h.proper.step e, ?_⟩
  have hquiet (hsent : (s.step e).sent = s.sent) (hpaced : Paced s.sends (s.step e)) :
      Paced (s.step e).sends (s.step e) := by
    rw [sends_of_sent hsent]
    exact hpaced
  cases e with
  | enqueue kind report payload at_ => exact hquiet rfl (h.paced.enqueue report payload at_)
  | pushAction payload at_ =>
      exact hquiet (s.pushAction_produces payload at_).sent (h.paced.pushAction payload at_)
  | forceAction payload at_ =>
      exact hquiet (s.forceAction_produces payload at_).sent (h.paced.forceAction payload at_)
  | pushTrace payload at_ => exact hquiet rfl (h.paced.pushTrace payload at_)
  | pushUsage usage => exact hquiet rfl (h.paced.pushUsage usage)
  | flushReports at_ =>
      refine hquiet ?_ (h.paced.flushReports at_)
      simp only [Custody.step]
      split_ifs <;> rfl
  | flushLedger at_ =>
      refine hquiet ?_ (h.paced.flushLedger at_)
      simp only [Custody.step]
      split_ifs <;> rfl
  | send => exact h.send
  | sendFails hash => exact h.sendFails hintime
  | inbound messageType ack => exact h.inbound hintime
  | endSession hash => exact h.endSession hintime

theorem Kept.givesUp (h : Kept s) : s.GivesUp := by
  intro record
  refine ⟨h.paced.all record, fun hlast => ⟨fun hheld => ?_, fun hsending => ?_⟩⟩
  · rcases mem_held.mp hheld with hwaiting | husage
    · obtain ⟨entry, hentry, hmem⟩ := mem_recordsOf.mp hwaiting
      exact ((h.paced.waiting entry hentry).1 record hmem).ne hlast
    · exact (h.paced.usage record husage).ne hlast
  · obtain ⟨entry, hentry, hmem⟩ := mem_recordsOf.mp hsending
    exact ((h.paced.sending entry hentry).1 record hmem).ne hlast

/-- **An entry is given up after eight deliveries**, in every run in which no session ends with
an entry in flight that had its eight, and no usage batch is rejected that had. -/
theorem given_up_in_time {capacity : Nat} {events : List CustodyEvent}
    (h : Machine.Every step InTime (start capacity) events) : (after capacity events).GivesUp :=
  (Machine.Every.invariant h (kept_start capacity) fun _ _ hs he => hs.step he).givesUp

/-- The cloud rejects each of the deliveries of an entry: the first message ids are its. -/
def rejections (flush : CustodyEvent) (deliveries : Nat) : List CustodyEvent :=
  (List.range deliveries).flatMap fun id =>
    [flush, .send, .inbound (some .ingestAck) (some ⟨some id, false⟩)]

/-- A report that is rejected eight times. -/
def reportRejected : List CustodyEvent :=
  .enqueue .telemetry telemetry_isLedger .null ⟨0⟩ :: rejections (.flushReports ⟨0⟩) 8

theorem given_up_in_time_report :
    (after 1 reportRejected).sends 0 = 8 ∧ (after 1 reportRejected).GivesUp :=
  ⟨by decide, given_up_in_time (by decide)⟩

/-- One call is recorded, and its batch is rejected nine times. -/
def usageRejected : Custody :=
  after 1 (.pushUsage ⟨none, none, none, none, some 7, none⟩ :: rejections (.flushLedger ⟨0⟩) 9)

/-- The session ends after each delivery of a report, nine times. -/
def sessionsEnded : Custody :=
  after 1 (.enqueue .telemetry telemetry_isLedger .null ⟨0⟩ :: (List.replicate 9
    [.flushReports ⟨0⟩, .send, .endSession fun _ => 0]).flatten)

/-- A sentinel report is rejected nine times, in sessions that then end. -/
def sentinelRejected : Custody :=
  after 1 (.enqueue .sentinel sentinel_isLedger .null ⟨0⟩ :: (List.range 9).flatMap fun id =>
    [.flushReports ⟨0⟩, .send, .inbound (some .sentinelAck) (some ⟨some id, false⟩),
      .endSession fun _ => 0])

/-- Nothing was accepted. The batch, the report and the sentinel report were sent nine times, and
are in their buffers. -/
theorem not_given_up :
    usageRejected.accepted = [] ∧ usageRejected.sends 0 = 9 ∧ 0 ∈ usageRejected.held ∧
      sessionsEnded.accepted = [] ∧ sessionsEnded.sends 0 = 9 ∧ 0 ∈ sessionsEnded.held ∧
      sentinelRejected.accepted = [] ∧ sentinelRejected.sends 0 = 9 ∧
      0 ∈ sentinelRejected.held ∧ ¬ usageRejected.GivesUp ∧ ¬ sessionsEnded.GivesUp ∧
      ¬ sentinelRejected.GivesUp := by
  have hnine {s : Custody} (hsends : s.sends 0 = 9) : ¬ s.GivesUp := fun h => by
    have hle := (h 0).1
    rw [hsends] at hle
    exact absurd hle (by decide)
  refine ⟨by decide, by decide, by decide, by decide,
    by decide, by decide, by decide, by decide,
    by decide, hnine ?_, hnine ?_, hnine ?_⟩
  · decide
  · decide
  · decide

end Custody
end Argus
