import Argus.Cloud.Records
import Argus.Lib.Machine

/-!
# Reports in the custody of a cloud session

Producers put reports in the queue and events in the ledger buffer. The session drains a buffer,
sends the entries one at a time, and holds each in flight until the cloud acknowledges it. A
rejected entry goes back to its buffer, up to eight attempts. When the session ends, whatever is
in flight goes back.

The producers are other tasks, and run between any two steps of the session. The session itself
does one thing at a time: while it sends what a flush drained, it handles no frame and does not
end, except by a send that fails. What the flush had not sent by then was drained, is in no
buffer and not in flight.

Message ids are minted in order. The state also keeps what became of every entry.
-/

namespace Argus

/-- The message types of the agent protocol. -/
inductive MessageType
  | handshakeHello
  | handshakeAuthenticate
  | handshakeReady
  | handshakeReject
  | pairingRedeem
  | pairingGranted
  | pairingDenied
  | telemetryReport
  | healthReport
  | eventsReport
  | activitiesReport
  | capabilitiesPublish
  | sentinelReport
  | actionEvent
  | brainTrace
  | tokenUsage
  | telemetryAck
  | healthAck
  | eventsAck
  | activitiesAck
  | capabilitiesAck
  | ingestAck
  | actionEventAck
  | brainTraceAck
  | tokenUsageAck
  | sentinelAck
  | approvalDecision
  | approvalResult
  | runbookDecision
  | runbookResult
  | configResult
  | commandResult
  | configState
  | configApply
  | commandInvoke
  | configPullRequest
  | ping
  | pong
  | streamThrottle
  | sessionRotate
  deriving DecidableEq

/-- Whether a message type acknowledges one of our reports. -/
def isReportAck : MessageType → Bool
  | .telemetryAck | .healthAck | .eventsAck | .activitiesAck | .capabilitiesAck | .ingestAck
  | .actionEventAck | .brainTraceAck | .tokenUsageAck => true
  | _ => false

def messageTypeFor : ReportKind → MessageType
  | .telemetry => .telemetryReport
  | .health => .healthReport
  | .events => .eventsReport
  | .activities => .activitiesReport
  | .sentinel => .sentinelReport
  | .actionLedger => .actionEvent
  | .brainTrace => .brainTrace
  | .tokenUsage => .tokenUsage

/-- A message on its way: the payload is that of its entry. -/
structure Envelope where
  messageId : Nat
  messageType : MessageType
  entry : BufferedReport
  deriving DecidableEq

def Envelope.new (messageId : Nat) (entry : BufferedReport) : Envelope :=
  ⟨messageId, messageTypeFor entry.kind, entry⟩

/-- `IngestAckPayload`, with its message id as it parses. -/
structure IngestAck where
  messageId : Option Nat
  accepted : Bool
  deriving DecidableEq

/-- `MAX_SEND_ATTEMPTS`. -/
def maxSendAttempts : Nat := 8

/-- A usage reading, as the ledger gets it. -/
structure TokenUsage where
  cycleId : Option Uuid
  model : Option String
  promptTokens : Option Nat
  completionTokens : Option Nat
  totalTokens : Option Nat
  durationMs : Option Nat
  deriving DecidableEq

/-- The batch of one reading. -/
def TokenUsage.sum (usage : TokenUsage) (usageId : Nat) : UsageSum where
  usageId
  cycleId := usage.cycleId
  model := usage.model
  promptTokens := usage.promptTokens
  completionTokens := usage.completionTokens
  totalTokens := usage.totalTokens
  calls := 1
  unknownUsage :=
    if usage.promptTokens.isSome || usage.completionTokens.isSome || usage.totalTokens.isSome
    then 0 else 1
  durationMs := usage.durationMs.getD 0
  records := [usageId]

/-- The buffers and the session. -/
structure Custody where
  queue : ReportQueue
  ledger : LedgerBuffer
  /-- What a flush drained and has still to send. -/
  sending : List BufferedReport
  inFlight : List (Nat × BufferedReport)
  /-- Entries and batches minted so far. -/
  minted : Nat
  /-- Message ids minted so far. -/
  messages : Nat
  /-- What the last flush drained. -/
  drained : List BufferedReport
  /-- What was given to the transport. -/
  sent : List Envelope
  accepted : List BufferedReport
  /-- What a buffer discarded to make room. -/
  evicted : List BufferedReport
  /-- What was rejected too often. -/
  givenUp : List BufferedReport
  /-- What a failed flush had drained and not sent. -/
  lost : List BufferedReport

inductive CustodyEvent
  | enqueue (kind : ReportKind) (report : kind.isLedger = false) (payload : Value) (at_ : DateTime)
  /-- `record_action` tries to push. -/
  | pushAction (payload : Value) (at_ : DateTime)
  /-- `record_action` makes room after its wait, and pushes. -/
  | forceAction (payload : Value) (at_ : DateTime)
  | pushTrace (payload : Value) (at_ : DateTime)
  | pushUsage (usage : TokenUsage)
  /-- `flush_reports` and `flush_ledger` drain. -/
  | flushReports (at_ : DateTime)
  | flushLedger (at_ : DateTime)
  /-- The next entry is sent. -/
  | send
  /-- The send of the next entry fails, and the session ends. -/
  | sendFails (hash : Nat → Nat)
  | inbound (messageType : Option MessageType) (ack : Option IngestAck)
  | endSession (hash : Nat → Nat)

namespace Custody

def start (capacity : Nat) : Custody :=
  ⟨.new capacity, .new, [], [], 0, 0, [], [], [], [], [], []⟩

/-- The in-flight entries in the order of the map, which is any order, sorted by time. -/
def returning (hash : Nat → Nat) (inFlight : List (Nat × BufferedReport)) : List BufferedReport :=
  ((inFlight.insertionSort fun a b => hash a.1 ≤ hash b.1).map Prod.snd).insertionSort
    fun a b => a.enqueuedAt ≤ b.enqueuedAt

/-- Puts entries back into the queue. -/
def requeueReports (s : Custody) (entries : List BufferedReport) : Custody :=
  let (discarded, queue) := s.queue.requeueFront entries
  { s with queue, evicted := s.evicted ++ discarded }

/-- Puts entries back into the ledger buffer. -/
def requeueLedger (s : Custody) (entries : List BufferedReport) : Custody :=
  { s with ledger := s.ledger.requeue entries }

def requeueInFlight (s : Custody) (hash : Nat → Nat) : Custody :=
  if s.inFlight.isEmpty then s
  else
    let (ledgerEntries, queueEntries) :=
      (returning hash s.inFlight).partition fun entry => entry.kind.isLedger
    ({ s with inFlight := [] }.requeueReports queueEntries).requeueLedger ledgerEntries

/-- A drain, of which the entries are sent next. -/
def flush (s : Custody) (entries : List BufferedReport) : Custody :=
  { s with sending := entries, drained := entries }

/-- `transport.send`, whether it fails or not. -/
def post (s : Custody) (entry : BufferedReport) : Custody :=
  { s with messages := s.messages + 1, sent := s.sent ++ [.new s.messages entry] }

/-- A send fails: the error leaves the loop, and with it the list that was drained. -/
def abandon (s : Custody) (entry : BufferedReport) (rest : List BufferedReport) : Custody :=
  { s.post entry with sending := [], lost := s.lost ++ entry :: rest }

/-- What becomes of an entry that is acknowledged. -/
def settle (s : Custody) (entry : BufferedReport) (accepted : Bool) : Custody :=
  if accepted then { s with accepted := s.accepted ++ [entry] }
  else if maxSendAttempts ≤ entry.attempts then { s with givenUp := s.givenUp ++ [entry] }
  else if entry.kind.isLedger then s.requeueLedger [entry]
  else s.requeueReports [entry]

/-- `in_flight.remove`. -/
def land (s : Custody) (id : Nat) : Custody :=
  { s with inFlight := s.inFlight.filter fun sent => sent.1 != id }

/-- The part of `handle_inbound` that is about acks. -/
def handleInbound (s : Custody) : Option MessageType → Option IngestAck → Custody
  | some messageType, some ⟨some id, accepted⟩ =>
      if isReportAck messageType then
        match s.inFlight.lookup id with
        | none => s
        | some entry => (s.land id).settle entry accepted
      else s
  | _, _ => s

/-- `record_action` after its wait: a quarter of the capacity gives way. -/
def forceAction (s : Custody) (payload : Value) (at_ : DateTime) : Custody :=
  let (dropped, ledger) := s.ledger.sacrificeActions (ledgerActionCapacity / 4)
  let s := { s with ledger, evicted := s.evicted ++ dropped }
  match ledger.tryPushAction s.minted payload at_ with
  | none => s
  | some ledger => { s with ledger, minted := s.minted + 1 }

def step (s : Custody) : CustodyEvent → Custody
  | .enqueue kind _ payload at_ =>
      let (discarded, queue) := s.queue.enqueue s.minted kind (.value payload) at_
      { s with queue, evicted := s.evicted ++ discarded.toList, minted := s.minted + 1 }
  | .pushAction payload at_ =>
      match s.ledger.tryPushAction s.minted payload at_ with
      | none => s
      | some ledger => { s with ledger, minted := s.minted + 1 }
  | .forceAction payload at_ => s.forceAction payload at_
  | .pushTrace payload at_ =>
      let (discarded, ledger) := s.ledger.pushTrace s.minted payload at_
      { s with ledger, evicted := s.evicted ++ discarded, minted := s.minted + 1 }
  | .pushUsage usage =>
      { s with ledger := s.ledger.pushUsage (usage.sum s.minted), minted := s.minted + 1 }
  | .flushReports at_ =>
      if s.sending.isEmpty then
        let (entries, queue) := s.queue.drain s.queue.entries.length at_
        { s with queue }.flush entries
      else s
  | .flushLedger at_ =>
      if s.sending.isEmpty then
        let (entries, ledger) := s.ledger.drain at_
        { s with ledger }.flush entries
      else s
  | .send =>
      match s.sending with
      | [] => s
      | entry :: rest =>
          { s.post entry with
            sending := rest
            inFlight := s.inFlight ++ [(s.messages, entry)] }
  | .sendFails hash =>
      match s.sending with
      | [] => s
      | entry :: rest => (s.abandon entry rest).requeueInFlight hash
  | .inbound messageType ack =>
      if s.sending.isEmpty then s.handleInbound messageType ack else s
  | .endSession hash => if s.sending.isEmpty then s.requeueInFlight hash else s

/-! ### Where the records are -/

/-- The records in the two buffers. -/
def held (s : Custody) : Multiset Nat := recordsOf s.queue.entries + s.ledger.records

/-- The records wherever they are. -/
def places (s : Custody) : Multiset Nat :=
  s.held + recordsOf s.sending + recordsOf (s.inFlight.map Prod.snd) + recordsOf s.accepted +
    recordsOf s.evicted + recordsOf s.givenUp + recordsOf s.lost

variable {s : Custody} {entry : BufferedReport} {entries : List BufferedReport}
  {hash : Nat → Nat} {id : Nat}

theorem returning_perm (hash : Nat → Nat) (inFlight : List (Nat × BufferedReport)) :
    (returning hash inFlight).Perm (inFlight.map Prod.snd) :=
  (List.perm_insertionSort _ _).trans ((List.perm_insertionSort _ _).map _)

theorem places_requeueReports (s : Custody) (entries : List BufferedReport) :
    (s.requeueReports entries).places = s.places + recordsOf entries := by
  ext record
  have hrecords := congrArg (Multiset.count record) (s.queue.requeueFront_records entries)
  simp only [places, held, requeueReports, recordsOf_append, Multiset.count_add] at hrecords ⊢
  omega

theorem places_requeueLedger (s : Custody) (h : ∀ entry ∈ entries, entry.kind.isLedger = true) :
    (s.requeueLedger entries).places = s.places + recordsOf entries := by
  simp only [places, held, requeueLedger, LedgerBuffer.requeue_records h]
  abel

/-- What was in flight is back in the buffers, or evicted from the queue. -/
theorem places_requeueInFlight (s : Custody) (hash : Nat → Nat) :
    (s.requeueInFlight hash).places = s.places := by
  unfold requeueInFlight
  split_ifs with hempty
  · rfl
  · simp only [List.partition_eq_filter_filter]
    rw [places_requeueLedger _ fun entry hentry => (List.mem_filter.mp hentry).2,
      places_requeueReports, add_assoc, add_comm (recordsOf _), recordsOf_filter,
      recordsOf_perm (returning_perm hash s.inFlight)]
    simp only [places, held, List.map_nil, recordsOf_nil]
    abel

/-- An entry that is looked up under its id leaves, and no other. -/
theorem perm_of_lookup {inFlight : List (Nat × BufferedReport)}
    (hkeys : (inFlight.map Prod.fst).Nodup) (h : inFlight.lookup id = some entry) :
    inFlight.Perm ((id, entry) :: inFlight.filter fun sent => sent.1 != id) := by
  induction inFlight with
  | nil => cases h
  | cons sent rest ih =>
      obtain ⟨key, first⟩ := sent
      rw [List.map_cons, List.nodup_cons] at hkeys
      by_cases heq : id = key
      · subst heq
        obtain rfl : first = entry := by simpa using h
        have hothers : rest.filter (fun sent => sent.1 != id) = rest := by
          refine List.filter_eq_self.mpr ?_
          intro sent hsent
          have hmem : sent.1 ∈ rest.map Prod.fst := List.mem_map_of_mem hsent
          have hne : sent.1 ≠ id := fun hsame => hkeys.1 (hsame ▸ hmem)
          simpa using hne
        simp [hothers]
      · have hlookup : rest.lookup id = some entry := by
          rw [List.lookup_cons, beq_false_of_ne heq] at h
          exact h
        rw [List.filter_cons_of_pos (by simpa using Ne.symm heq)]
        exact ((ih hkeys.2 hlookup).cons _).trans (List.Perm.swap _ _ _)

theorem places_settle (s : Custody) (entry : BufferedReport) (accepted : Bool) :
    (s.settle entry accepted).places = s.places + entry.records := by
  unfold settle
  split_ifs with haccepted hattempts hledger
  · simp only [places, held, recordsOf_append, recordsOf_cons, recordsOf_nil]
    abel
  · simp only [places, held, recordsOf_append, recordsOf_cons, recordsOf_nil]
    abel
  · rw [places_requeueLedger _ (by simpa using hledger)]
    simp
  · rw [places_requeueReports]
    simp

/-- What the steps keep. -/
structure Sound (s : Custody) : Prop where
  /-- Every record is in one place. -/
  placed : s.places = Multiset.range s.minted
  keys : (s.inFlight.map Prod.fst).Nodup
  minted : ∀ id ∈ s.inFlight.map Prod.fst, id < s.messages
  /-- What is still to send was drained. -/
  suffix : s.sending.IsSuffix s.drained

theorem sound_start (capacity : Nat) : Sound (start capacity) :=
  ⟨rfl, List.nodup_nil, by simp [start], List.suffix_refl _⟩

/-! #### The producers -/

theorem places_enqueue (s : Custody) {kind : ReportKind} (report : kind.isLedger = false)
    (payload : Value) (at_ : DateTime) :
    (s.step (.enqueue kind report payload at_)).places = s.places + {s.minted} := by
  ext record
  have hrecords := congrArg (Multiset.count record)
    (s.queue.enqueue_records s.minted report (.value payload) at_)
  simp only [step, places, held, recordsOf_append, Multiset.count_add] at hrecords ⊢
  omega

theorem places_pushed {ledger : LedgerBuffer} {payload : Value} {at_ : DateTime}
    (h : s.ledger.tryPushAction s.minted payload at_ = some ledger) :
    { s with ledger, minted := s.minted + 1 }.places = s.places + {s.minted} := by
  simp only [places, held, LedgerBuffer.tryPushAction_records h]
  abel

/-- The first half of `forceAction`: the oldest quarter of the capacity is gone. -/
def makeRoom (s : Custody) : Custody :=
  { s with
    ledger := (s.ledger.sacrificeActions (ledgerActionCapacity / 4)).2
    evicted := s.evicted ++ (s.ledger.sacrificeActions (ledgerActionCapacity / 4)).1 }

theorem forceAction_eq (s : Custody) (payload : Value) (at_ : DateTime) :
    s.forceAction payload at_ = s.makeRoom.step (.pushAction payload at_) := rfl

theorem places_makeRoom (s : Custody) : s.makeRoom.places = s.places := by
  simp only [makeRoom, places, held, recordsOf_append,
    ← s.ledger.sacrificeActions_records (ledgerActionCapacity / 4)]
  abel

theorem places_pushTrace (s : Custody) (payload : Value) (at_ : DateTime) :
    (s.step (.pushTrace payload at_)).places = s.places + {s.minted} := by
  ext record
  have hrecords := congrArg (Multiset.count record)
    (s.ledger.pushTrace_records s.minted payload at_)
  simp only [step, places, held, recordsOf_append, Multiset.count_add] at hrecords ⊢
  omega

theorem places_pushUsage (s : Custody) (usage : TokenUsage) :
    (s.step (.pushUsage usage)).places = s.places + {s.minted} := by
  have hone : (usage.sum s.minted).records = [s.minted] := rfl
  simp only [step, places, held, LedgerBuffer.pushUsage_records, hone, Multiset.coe_singleton]
  abel

/-- A producer leaves the session as it is. -/
structure Produces (s s' : Custody) : Prop where
  sending : s'.sending = s.sending
  drained : s'.drained = s.drained
  inFlight : s'.inFlight = s.inFlight
  messages : s'.messages = s.messages
  sent : s'.sent = s.sent
  accepted : s'.accepted = s.accepted
  placed : s'.places = s.places ∧ s'.minted = s.minted ∨
    s'.places = s.places + {s.minted} ∧ s'.minted = s.minted + 1

theorem Sound.produces {s' : Custody} (h : Sound s) (hproduces : Produces s s') : Sound s' where
  placed := by
    rcases hproduces.placed with ⟨hplaces, hminted⟩ | ⟨hplaces, hminted⟩
    · rw [hplaces, hminted, h.placed]
    · rw [hplaces, hminted, h.placed, Multiset.range_succ, add_comm]
      rfl
  keys := hproduces.inFlight ▸ h.keys
  minted := by
    rw [hproduces.inFlight, hproduces.messages]
    exact h.minted
  suffix := by
    rw [hproduces.sending, hproduces.drained]
    exact h.suffix

theorem pushAction_produces (s : Custody) (payload : Value) (at_ : DateTime) :
    Produces s (s.step (.pushAction payload at_)) := by
  simp only [step]
  split
  next => exact ⟨rfl, rfl, rfl, rfl, rfl, rfl, .inl ⟨rfl, rfl⟩⟩
  next ledger hpushed => exact ⟨rfl, rfl, rfl, rfl, rfl, rfl, .inr ⟨places_pushed hpushed, rfl⟩⟩

theorem forceAction_produces (s : Custody) (payload : Value) (at_ : DateTime) :
    Produces s (s.forceAction payload at_) := by
  have hpushed := s.makeRoom.pushAction_produces payload at_
  rw [← forceAction_eq] at hpushed
  refine ⟨hpushed.sending, hpushed.drained, hpushed.inFlight, hpushed.messages, hpushed.sent,
    hpushed.accepted, ?_⟩
  rw [← s.places_makeRoom]
  exact hpushed.placed

/-! #### The session -/

theorem Sound.flushReports (h : Sound s) (at_ : DateTime) : Sound (s.step (.flushReports at_)) := by
  simp only [step]
  split_ifs with hidle
  · rw [List.isEmpty_iff] at hidle
    refine ⟨Eq.trans ?_ h.placed, h.keys, h.minted, List.suffix_refl _⟩
    simp only [places, held, flush, ReportQueue.drain, hidle, min_self, List.take_length,
      List.drop_length, recordsOf_map_attempt, recordsOf_nil]
    abel
  · exact h

theorem Sound.flushLedger (h : Sound s) (at_ : DateTime) : Sound (s.step (.flushLedger at_)) := by
  simp only [step]
  split_ifs with hidle
  · rw [List.isEmpty_iff] at hidle
    refine ⟨Eq.trans ?_ h.placed, h.keys, h.minted, List.suffix_refl _⟩
    obtain ⟨htaken, hleft⟩ := s.ledger.drain_records at_
    simp only [places, held, flush, htaken, hleft, hidle, recordsOf_nil]
    abel
  · exact h

theorem Sound.send (h : Sound s) : Sound (s.step .send) := by
  simp only [step]
  split
  next => exact h
  next entry rest hsending =>
    constructor
    case placed =>
      refine Eq.trans ?_ h.placed
      simp only [places, held, post, hsending, List.map_append, List.map_cons, List.map_nil,
        recordsOf_append, recordsOf_cons, recordsOf_nil]
      abel
    case keys =>
      simp only [List.map_append, List.map_cons, List.map_nil]
      refine List.nodup_append.mpr ⟨h.keys, List.nodup_singleton _, ?_⟩
      intro id hid other hother
      obtain rfl := List.mem_singleton.mp hother
      exact (h.minted id hid).ne
    case minted =>
      intro id hid
      simp only [List.map_append, List.mem_append, List.map_cons, List.map_nil,
        List.mem_singleton] at hid
      rcases hid with hid | rfl
      · exact Nat.lt_succ_of_lt (h.minted id hid)
      · exact Nat.lt_succ_self _
    case suffix => exact (List.suffix_cons _ _).trans (hsending ▸ h.suffix)

/-- The entries that go back leave nothing in flight. -/
theorem requeueInFlight_inFlight (s : Custody) (hash : Nat → Nat) :
    (s.requeueInFlight hash).inFlight = [] := by
  unfold requeueInFlight
  split_ifs with hempty
  · exact List.isEmpty_iff.mp hempty
  · rfl

theorem requeueInFlight_same (s : Custody) (hash : Nat → Nat) :
    (s.requeueInFlight hash).minted = s.minted ∧ (s.requeueInFlight hash).drained = s.drained ∧
      (s.requeueInFlight hash).sending = s.sending ∧ (s.requeueInFlight hash).sent = s.sent ∧
      (s.requeueInFlight hash).accepted = s.accepted ∧ (s.requeueInFlight hash).lost = s.lost := by
  unfold requeueInFlight
  split_ifs
  · exact ⟨rfl, rfl, rfl, rfl, rfl, rfl⟩
  · exact ⟨rfl, rfl, rfl, rfl, rfl, rfl⟩

/-- The session ends, with nothing in flight any more. -/
theorem Sound.ends (hplaced : s.places = Multiset.range s.minted)
    (hsuffix : s.sending.IsSuffix s.drained) (hash : Nat → Nat) :
    Sound (s.requeueInFlight hash) := by
  obtain ⟨hminted, hdrained, hsending, -⟩ := s.requeueInFlight_same hash
  constructor
  case placed => rw [places_requeueInFlight, hminted, hplaced]
  case keys => rw [requeueInFlight_inFlight]; exact List.nodup_nil
  case minted => rw [requeueInFlight_inFlight]; simp
  case suffix => rw [hdrained, hsending]; exact hsuffix

theorem places_abandon {rest : List BufferedReport} (h : s.sending = entry :: rest) :
    (s.abandon entry rest).places = s.places := by
  simp only [abandon, places, held, post, h, recordsOf_append, recordsOf_cons, recordsOf_nil]
  abel

theorem Sound.sendFails (h : Sound s) (hash : Nat → Nat) : Sound (s.step (.sendFails hash)) := by
  simp only [step]
  split
  next => exact h
  next entry rest hsending =>
    refine Sound.ends (s := s.abandon entry rest) ?_ List.nil_suffix hash
    exact (places_abandon hsending).trans h.placed

/-- A frame settles an entry that is in flight, or does nothing. -/
theorem handleInbound_cases (s : Custody) (messageType : Option MessageType)
    (ack : Option IngestAck) :
    s.handleInbound messageType ack = s ∨ ∃ ty id accepted entry, messageType = some ty ∧
      isReportAck ty = true ∧ ack = some ⟨some id, accepted⟩ ∧
      s.inFlight.lookup id = some entry ∧
      s.handleInbound messageType ack = (s.land id).settle entry accepted := by
  unfold handleInbound
  split
  next ty id accepted =>
    split_ifs with hack
    · split
      next => exact .inl rfl
      next entry hlookup => exact .inr ⟨ty, id, accepted, entry, rfl, hack, rfl, hlookup, rfl⟩
    · exact .inl rfl
  next => exact .inl rfl

theorem settle_same (s : Custody) (entry : BufferedReport) (accepted : Bool) :
    (s.settle entry accepted).inFlight = s.inFlight ∧
      (s.settle entry accepted).messages = s.messages ∧
      (s.settle entry accepted).minted = s.minted ∧
      (s.settle entry accepted).drained = s.drained ∧
      (s.settle entry accepted).sending = s.sending ∧
      (s.settle entry accepted).sent = s.sent := by
  unfold settle
  split_ifs
  · exact ⟨rfl, rfl, rfl, rfl, rfl, rfl⟩
  · exact ⟨rfl, rfl, rfl, rfl, rfl, rfl⟩
  · exact ⟨rfl, rfl, rfl, rfl, rfl, rfl⟩
  · exact ⟨rfl, rfl, rfl, rfl, rfl, rfl⟩

theorem Sound.settled (h : Sound s) (hlookup : s.inFlight.lookup id = some entry)
    (accepted : Bool) : Sound ((s.land id).settle entry accepted) := by
  obtain ⟨hinFlight, hmessages, hminted, hdrained, hsending, -⟩ :=
    (s.land id).settle_same entry accepted
  have hkept : ((s.land id).inFlight.map Prod.fst).Sublist (s.inFlight.map Prod.fst) :=
    List.filter_sublist.map Prod.fst
  constructor
  case placed =>
    have hperm := recordsOf_perm ((perm_of_lookup h.keys hlookup).map Prod.snd)
    rw [List.map_cons, recordsOf_cons] at hperm
    rw [places_settle, hminted]
    refine Eq.trans ?_ h.placed
    simp only [places, held, land, hperm]
    abel
  case keys =>
    rw [hinFlight]
    exact hkept.nodup h.keys
  case minted =>
    rw [hinFlight, hmessages]
    exact fun id hid => h.minted id (hkept.subset hid)
  case suffix =>
    rw [hsending, hdrained]
    exact h.suffix

theorem Sound.inbound (h : Sound s) (messageType : Option MessageType) (ack : Option IngestAck) :
    Sound (s.step (.inbound messageType ack)) := by
  simp only [Custody.step]
  split_ifs
  · rcases s.handleInbound_cases messageType ack with
      hsame | ⟨_, _, accepted, _, _, _, _, hlookup, heq⟩
    · rw [hsame]
      exact h
    · rw [heq]
      exact h.settled hlookup accepted
  · exact h

theorem Sound.step (h : Sound s) (e : CustodyEvent) : Sound (s.step e) := by
  cases e with
  | enqueue kind report payload at_ =>
      exact h.produces
        ⟨rfl, rfl, rfl, rfl, rfl, rfl, .inr ⟨s.places_enqueue report payload at_, rfl⟩⟩
  | pushAction payload at_ => exact h.produces (s.pushAction_produces payload at_)
  | forceAction payload at_ => exact h.produces (s.forceAction_produces payload at_)
  | pushTrace payload at_ =>
      exact h.produces ⟨rfl, rfl, rfl, rfl, rfl, rfl, .inr ⟨s.places_pushTrace payload at_, rfl⟩⟩
  | pushUsage usage =>
      exact h.produces ⟨rfl, rfl, rfl, rfl, rfl, rfl, .inr ⟨s.places_pushUsage usage, rfl⟩⟩
  | flushReports at_ => exact h.flushReports at_
  | flushLedger at_ => exact h.flushLedger at_
  | send => exact h.send
  | sendFails hash => exact h.sendFails hash
  | inbound messageType ack => exact h.inbound messageType ack
  | endSession hash =>
      simp only [Custody.step]
      split_ifs
      · exact Sound.ends h.placed h.suffix hash
      · exact h

/-! ### What goes back to the buffers -/

/-- The entry that a frame sends back, if it is a rejection and there is another attempt. -/
def rejected (s : Custody) : Option MessageType → Option IngestAck → List BufferedReport
  | some messageType, some ⟨some id, false⟩ =>
      if isReportAck messageType then
        match s.inFlight.lookup id with
        | none => []
        | some entry => if entry.attempts < maxSendAttempts then [entry] else []
      else []
  | _, _ => []

/-- The entries that an event sends back. -/
def back (s : Custody) : CustodyEvent → List BufferedReport
  | .sendFails _ => if s.sending.isEmpty then [] else s.inFlight.map Prod.snd
  | .endSession _ => if s.sending.isEmpty then s.inFlight.map Prod.snd else []
  | .inbound messageType ack => if s.sending.isEmpty then s.rejected messageType ack else []
  | _ => []

/-- The buffers after `entries` went back. -/
structure PutBack (s s' : Custody) (entries : List BufferedReport) : Prop where
  queue : s'.queue.entries.Sublist
    (entries.filter (fun entry => !entry.kind.isLedger) ++ s.queue.entries)
  ledger : s'.ledger = s.ledger.requeue (entries.filter fun entry => entry.kind.isLedger)
  sending : s'.sending.Sublist s.sending
  minted : s'.minted = s.minted

/-- What goes back does so in order of time. -/
def GoesBack (s : Custody) (e : CustodyEvent) : Prop :=
  ∃ entries, entries.Perm (s.back e) ∧
    (entries.Pairwise fun a b => a.enqueuedAt ≤ b.enqueuedAt) ∧ PutBack s (s.step e) entries

theorem putBack_nil {s' : Custody} (hqueue : s'.queue = s.queue) (hledger : s'.ledger = s.ledger)
    (hsending : s'.sending = s.sending) (hminted : s'.minted = s.minted) : PutBack s s' [] where
  queue := by
    rw [hqueue]
    exact List.Sublist.refl _
  ledger := hledger
  sending := hsending ▸ List.Sublist.refl _
  minted := hminted

theorem putBack_requeueInFlight (s : Custody) (hash : Nat → Nat) :
    PutBack s (s.requeueInFlight hash) (returning hash s.inFlight) := by
  obtain ⟨hminted, -, hsending, -⟩ := s.requeueInFlight_same hash
  refine ⟨?_, ?_, hsending ▸ List.Sublist.refl _, hminted⟩
  · unfold requeueInFlight
    split_ifs
    · exact List.sublist_append_right _ _
    · simp only [List.partition_eq_filter_filter]
      exact s.queue.requeueFront_sublist _
  · unfold requeueInFlight
    split_ifs with hempty
    · rw [List.isEmpty_iff.mp hempty]
      rfl
    · simp only [List.partition_eq_filter_filter]
      rfl

theorem goesBack_ends (s : Custody) (hash : Nat → Nat) :
    (returning hash s.inFlight).Perm (s.inFlight.map Prod.snd) ∧
      (returning hash s.inFlight).Pairwise fun a b => a.enqueuedAt ≤ b.enqueuedAt :=
  ⟨returning_perm hash s.inFlight, List.pairwise_insertionSort _ _⟩

theorem goesBack_sendFails (s : Custody) (hash : Nat → Nat) : GoesBack s (.sendFails hash) := by
  cases hsending : s.sending with
  | nil =>
      refine ⟨[], ?_, List.Pairwise.nil, ?_⟩
      · simp [back, hsending]
      · simp only [step, hsending]
        exact putBack_nil rfl rfl rfl rfl
  | cons entry rest =>
      have hback := putBack_requeueInFlight (s.abandon entry rest) hash
      obtain ⟨hperm, hsorted⟩ := s.goesBack_ends hash
      refine ⟨returning hash s.inFlight, ?_, hsorted, ?_⟩
      · simpa [back, hsending] using hperm
      · simp only [step, hsending]
        refine ⟨hback.queue, hback.ledger, ?_, hback.minted⟩
        exact hback.sending.trans (List.nil_sublist _)

theorem goesBack_endSession (s : Custody) (hash : Nat → Nat) : GoesBack s (.endSession hash) := by
  by_cases hidle : s.sending.isEmpty = true
  · obtain ⟨hperm, hsorted⟩ := s.goesBack_ends hash
    refine ⟨returning hash s.inFlight, ?_, hsorted, ?_⟩
    · simpa only [back, if_pos hidle] using hperm
    · simpa only [step, if_pos hidle] using s.putBack_requeueInFlight hash
  · refine ⟨[], ?_, List.Pairwise.nil, ?_⟩
    · simp [back, hidle]
    · simp only [step, if_neg hidle]
      exact putBack_nil rfl rfl rfl rfl

theorem putBack_rejected (s : Custody) {entry : BufferedReport}
    (hattempts : entry.attempts < maxSendAttempts) :
    PutBack s (s.settle entry false) [entry] := by
  have hmore : ¬ maxSendAttempts ≤ entry.attempts := Nat.not_le.mpr hattempts
  cases hledger : entry.kind.isLedger with
  | true =>
      simp only [settle, hmore, hledger, Bool.false_eq_true, if_false, if_true]
      refine ⟨List.sublist_append_right _ _, ?_, List.Sublist.refl _, rfl⟩
      rw [List.filter_singleton, hledger]
      rfl
  | false =>
      simp only [settle, hmore, hledger, Bool.false_eq_true, if_false]
      refine ⟨?_, ?_, List.Sublist.refl _, rfl⟩
      · rw [List.filter_singleton, hledger]
        exact s.queue.requeueFront_sublist [entry]
      · rw [List.filter_singleton, hledger]
        rfl

theorem putBack_settled (s : Custody) (entry : BufferedReport) (accepted : Bool)
    (h : accepted = true ∨ maxSendAttempts ≤ entry.attempts) :
    PutBack s (s.settle entry accepted) [] := by
  unfold settle
  split_ifs with haccepted hattempts
  · exact putBack_nil rfl rfl rfl rfl
  · exact putBack_nil rfl rfl rfl rfl
  all_goals exact absurd h (by simp [haccepted, hattempts])

/-- A frame does nothing, or settles an entry in flight and puts it back if it is rejected and
there is another attempt. -/
theorem inbound_cases (s : Custody) (messageType : Option MessageType) (ack : Option IngestAck) :
    s.step (.inbound messageType ack) = s ∧ s.back (.inbound messageType ack) = [] ∨
      ∃ id entry accepted, s.sending = [] ∧ s.inFlight.lookup id = some entry ∧
        s.step (.inbound messageType ack) = (s.land id).settle entry accepted ∧
        s.back (.inbound messageType ack) =
          if accepted = false ∧ entry.attempts < maxSendAttempts then [entry] else [] := by
  by_cases hidle : s.sending.isEmpty = true
  · have hsending := List.isEmpty_iff.mp hidle
    rcases messageType with _ | messageType
    · exact .inl ⟨by simp [step, handleInbound], by simp [back, rejected]⟩
    · rcases ack with _ | ⟨_ | id, accepted⟩
      · exact .inl ⟨by simp [step, handleInbound], by simp [back, rejected]⟩
      · exact .inl ⟨by simp [step, handleInbound], by simp [back, rejected]⟩
      · by_cases hack : isReportAck messageType = true
        · cases hlookup : s.inFlight.lookup id with
          | none =>
              refine .inl ⟨by simp [step, handleInbound, hlookup], ?_⟩
              cases accepted with
              | true => simp [back, rejected]
              | false => simp [back, rejected, hlookup]
          | some entry =>
              refine .inr ⟨id, entry, accepted, hsending, hlookup, ?_, ?_⟩
              · simp [step, hidle, handleInbound, hack, hlookup]
              · cases accepted with
                | true => simp [back, rejected]
                | false => simp [back, rejected, hidle, hack, hlookup]
        · refine .inl ⟨by simp [step, handleInbound, hack], ?_⟩
          cases accepted with
          | true => simp [back, rejected]
          | false => simp [back, rejected, hack]
  · exact .inl ⟨by simp [step, hidle], by simp [back, hidle]⟩

/-- A frame puts back the entry it rejects. -/
theorem goesBack_inbound (s : Custody) (messageType : Option MessageType)
    (ack : Option IngestAck) : GoesBack s (.inbound messageType ack) := by
  rcases s.inbound_cases messageType ack with
    ⟨hstep, hback⟩ | ⟨id, entry, accepted, -, -, hstep, hback⟩
  · refine ⟨[], by rw [hback], List.Pairwise.nil, ?_⟩
    rw [hstep]
    exact putBack_nil rfl rfl rfl rfl
  · rw [GoesBack, hstep, hback]
    split_ifs with hagain
    · obtain ⟨rfl, hattempts⟩ := hagain
      have hput := (s.land id).putBack_rejected hattempts
      exact ⟨[entry], List.Perm.refl _, List.pairwise_singleton _ _, hput.queue, hput.ledger,
        hput.sending, hput.minted⟩
    · have hdone : accepted = true ∨ maxSendAttempts ≤ entry.attempts := by
        cases accepted with
        | true => exact .inl rfl
        | false => exact .inr (Nat.le_of_not_lt fun hless => hagain ⟨rfl, hless⟩)
      have hput := (s.land id).putBack_settled entry accepted hdone
      exact ⟨[], List.Perm.refl _, List.Pairwise.nil, hput.queue, hput.ledger, hput.sending,
        hput.minted⟩

end Custody
end Argus
