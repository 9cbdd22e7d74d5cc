import Argus.Cloud.Events
import Argus.Daemon.CloudUsage
import Argus.Lib.Broadcast

/-!
# Local events on their way to the cloud

Any task publishes events on the local bus, and never waits. On its tick the cloud session drains
its receiver: `collect_events` takes what the bus still has, and enqueues it in payloads of at most
500 events. Publishers run between any two of its reads. What the bus has forgotten by then is
counted, and the count is enqueued first, as an event of its own. From there on the payloads are
reports in the custody of the session.

* `events_accounted`: in every run, each event that was published is unread, in the hands of the
  collection that is going on, in the payload of exactly one report, in order, or counted in a
  notice; and each report is in exactly one place of the custody, with its payload intact.
* `kept_up_delivers`: where no event is published on a bus full of unread ones, all of them are
  read.
-/

namespace Argus

theorem events_isLedger : ReportKind.events.isLedger = false := rfl

namespace Custody

/-! ### The reports of events in custody -/

/-- The events reports among some entries, each with its payload. -/
def tagged (entries : List BufferedReport) : Multiset (Nat × Payload) :=
  ((entries.filter fun entry => entry.kind == .events).map fun entry =>
    (entry.serial, entry.payload) : List (Nat × Payload))

/-- The events reports wherever they are. -/
def contents (s : Custody) : Multiset (Nat × Payload) :=
  tagged s.queue.entries + tagged s.sending + tagged (s.inFlight.map Prod.snd) +
    tagged s.accepted + tagged s.evicted + tagged s.givenUp + tagged s.lost

section

variable {s : Custody} {entries entries' : List BufferedReport} {entry : BufferedReport}

@[simp] theorem tagged_nil : tagged [] = 0 := rfl

@[simp] theorem tagged_append :
    tagged (entries ++ entries') = tagged entries + tagged entries' := by
  simp [tagged]

theorem tagged_cons : tagged (entry :: entries) = tagged [entry] + tagged entries := by
  rw [← tagged_append, List.singleton_append]

theorem tagged_perm (h : entries.Perm entries') : tagged entries = tagged entries' :=
  Multiset.coe_eq_coe.mpr ((h.filter _).map _)

@[simp] theorem tagged_map_attempt (entries : List BufferedReport) :
    tagged (entries.map BufferedReport.attempt) = tagged entries := by
  simp [tagged, List.filter_map, Function.comp_def]

theorem tagged_of_ne (h : ∀ entry ∈ entries, entry.kind ≠ .events) : tagged entries = 0 := by
  have hnone : entries.filter (fun entry => entry.kind == .events) = [] := by
    simpa [List.filter_eq_nil_iff] using h
  simp [tagged, hnone]

theorem ne_events_of_ledger {kind : ReportKind} (h : kind.isLedger = true) : kind ≠ .events := by
  intro hkind
  rw [hkind] at h
  cases h

/-- The ledger's entries are no events reports. -/
theorem tagged_filter_report (entries : List BufferedReport) :
    tagged (entries.filter fun entry => !entry.kind.isLedger) = tagged entries := by
  unfold tagged
  rw [List.filter_filter]
  congr 3
  funext entry
  cases entry.kind <;> rfl

theorem contents_requeueReports (s : Custody) (entries : List BufferedReport) :
    (s.requeueReports entries).contents = s.contents + tagged entries := by
  have hshed : tagged (s.queue.requeueFront entries).1 +
      tagged (s.queue.requeueFront entries).2.entries =
        tagged entries + tagged s.queue.entries := by
    rw [← tagged_append, ← tagged_append]
    exact congrArg tagged (ReportQueue.shed_append _ _ _)
  ext tag
  have hcount := congrArg (Multiset.count tag) hshed
  simp only [contents, requeueReports, tagged_append, Multiset.count_add] at hcount ⊢
  omega

theorem contents_requeueInFlight (s : Custody) (hash : Nat → Nat) :
    (s.requeueInFlight hash).contents = s.contents := by
  unfold requeueInFlight
  split_ifs with hempty
  · rfl
  · simp only [List.partition_eq_filter_filter]
    show (({ s with inFlight := [] } : Custody).requeueReports
      ((returning hash s.inFlight).filter fun entry => !entry.kind.isLedger)).contents = s.contents
    rw [contents_requeueReports, tagged_filter_report, tagged_perm (returning_perm hash s.inFlight)]
    simp only [contents, List.map_nil, tagged_nil]
    abel

theorem contents_settle (s : Custody) (entry : BufferedReport) (accepted : Bool) :
    (s.settle entry accepted).contents = s.contents + tagged [entry] := by
  unfold settle
  split_ifs with haccepted hattempts hledger
  · simp only [contents, tagged_append]
    abel
  · simp only [contents, tagged_append]
    abel
  · have hnone : tagged [entry] = 0 := by
      refine tagged_of_ne fun other hother => ?_
      rw [List.mem_singleton.mp hother]
      exact ne_events_of_ledger hledger
    rw [hnone, add_zero]
    rfl
  · exact contents_requeueReports s [entry]

theorem contents_land {id : Nat} (hkeys : (s.inFlight.map Prod.fst).Nodup)
    (hlookup : s.inFlight.lookup id = some entry) :
    (s.land id).contents + tagged [entry] = s.contents := by
  have hperm := tagged_perm ((perm_of_lookup hkeys hlookup).map Prod.snd)
  rw [List.map_cons, tagged_cons] at hperm
  simp only [contents, land, hperm]
  abel

/-- The entry is a report of the kind, which is not of the ledger. -/
theorem contents_enqueue (s : Custody) {kind : ReportKind} (report : kind.isLedger = false)
    (payload : Value) (at_ : DateTime) :
    (s.step (.enqueue kind report payload at_)).contents =
      s.contents + tagged [.fresh s.minted kind (.value payload) at_] := by
  have hqueue := congrArg tagged (s.queue.enqueue_entries s.minted kind (.value payload) at_)
  rw [tagged_append, tagged_append] at hqueue
  ext tag
  have hcount := congrArg (Multiset.count tag) hqueue
  simp only [contents, step, tagged_append, Multiset.count_add] at hcount ⊢
  omega

/-- What an event puts into custody. -/
def brings (s : Custody) : CustodyEvent → Multiset (Nat × Payload)
  | .enqueue .events _ payload _ => {(s.minted, .value payload)}
  | _ => 0

/-- **No step but an enqueue makes an events report, and none loses or alters one.** -/
theorem contents_step (hsound : Sound s) (hproper : Proper s) (e : CustodyEvent) :
    (s.step e).contents = s.contents + s.brings e := by
  cases e with
  | enqueue kind report payload at_ =>
      rw [contents_enqueue]
      cases kind <;> rfl
  | pushAction payload at_ =>
      simp only [step]
      split <;> exact (add_zero _).symm
  | forceAction payload at_ =>
      have hdropped : tagged (s.ledger.sacrificeActions (ledgerActionCapacity / 4)).1 = 0 := by
        refine tagged_of_ne fun entry hentry => ?_
        rw [hproper.actions entry (List.mem_of_mem_take hentry)]
        decide
      have hroom : s.makeRoom.contents = s.contents := by
        simp [contents, makeRoom, hdropped]
      have hpush : (s.makeRoom.step (.pushAction payload at_)).contents = s.makeRoom.contents := by
        simp only [step]
        split <;> rfl
      show (s.makeRoom.step (.pushAction payload at_)).contents = _
      rw [hpush, hroom]
      exact (add_zero _).symm
  | pushTrace payload at_ =>
      have hdiscarded : tagged (s.ledger.pushTrace s.minted payload at_).1 = 0 := by
        refine tagged_of_ne fun entry hentry => ?_
        have hmem : entry ∈ s.ledger.traces := by
          rw [← ReportQueue.shed_append (ledgerTraceCapacity - 1) s.ledger.traces
            s.ledger.droppedTraces]
          exact List.mem_append_left _ hentry
        rw [hproper.traces entry hmem]
        decide
      simp [contents, step, brings, hdiscarded]
  | pushUsage usage => exact (add_zero _).symm
  | flushReports at_ =>
      simp only [step, brings, add_zero]
      split_ifs with hidle
      · rw [List.isEmpty_iff] at hidle
        simp only [contents, flush, ReportQueue.drain, hidle, min_self, List.take_length,
          List.drop_length, tagged_map_attempt, tagged_nil]
        abel
      · rfl
  | flushLedger at_ =>
      simp only [step, brings, add_zero]
      split_ifs with hidle
      · rw [List.isEmpty_iff] at hidle
        have hdrained : tagged (s.ledger.drain at_).1 = 0 := by
          rw [LedgerBuffer.drain, tagged_map_attempt, tagged_append, tagged_append]
          rw [tagged_of_ne fun entry h => by rw [hproper.actions entry h]; decide,
            tagged_of_ne fun entry h => by rw [hproper.traces entry h]; decide]
          rw [tagged_of_ne fun entry h => ?_]
          · rfl
          · obtain ⟨sum, -, rfl⟩ := List.mem_map.mp h
            exact (by decide : ReportKind.tokenUsage ≠ .events)
        simp only [contents, flush, hidle, hdrained, tagged_nil]
      · rfl
  | send =>
      simp only [step, brings, add_zero]
      split
      next => rfl
      next entry rest hsending =>
        simp only [contents, post, hsending, List.map_append, List.map_cons, List.map_nil,
          tagged_append, @tagged_cons rest]
        abel
  | sendFails hash =>
      simp only [step, brings, add_zero]
      split
      next => rfl
      next entry rest hsending =>
        rw [contents_requeueInFlight]
        simp only [contents, abandon, post, hsending, tagged_append, tagged_nil]
        abel
  | inbound messageType ack =>
      simp only [step, brings, add_zero]
      split_ifs
      · rcases s.handleInbound_cases messageType ack with
          hsame | ⟨_, _, accepted, _, _, _, _, hlookup, heq⟩
        · rw [hsame]
        · rw [heq, contents_settle, contents_land hsound.keys hlookup]
      · rfl
  | endSession hash =>
      simp only [step, brings, add_zero]
      split_ifs
      · exact contents_requeueInFlight s hash
      · rfl

end

end Custody

/-- The event is no report of events being enqueued. -/
def CustodyEvent.elsewhere : CustodyEvent → Bool
  | .enqueue .events .. => false
  | _ => true

/-- The event leaves the queue and the session alone. -/
def CustodyEvent.ofLedger : CustodyEvent → Bool
  | .pushAction .. | .forceAction .. | .pushTrace .. | .pushUsage .. => true
  | _ => false

namespace EventCollection

open Broadcast (Subscription Heard delivered missed)
open EventReports (Texts payload batches batches_flatten batches_bounds)
open Machine (Every run)

/-! ### The collection -/

/-- A call of `collect_events`, and what its loop has read. -/
structure Collecting where
  collected : List EventReports.DomainEvent
  lagged : Nat
  now : DateTime

/-- A report of events as it was enqueued, for the statements. -/
structure Report where
  serial : Nat
  /-- The events in its payload. -/
  events : List EventReports.DomainEvent
  /-- How many events it gives notice of as lost, if that is what it does. -/
  notice : Option Nat

structure Uplink where
  bus : Subscription EventReports.DomainEvent
  collecting : Option Collecting
  custody : Custody
  reports : List Report

/-- The loss notice rides the events contract itself. -/
def lagNotice (id : Uuid) (now : DateTime) (lagged : Nat) : EventReports.DomainEvent where
  id
  eventType := "bus.lagged"
  timestamp := now
  source := "argusd"
  subject := "argusd"
  severity := .warning
  correlationId := none
  causationId := none
  payload := .object [("events_lagged", .number (.posInt lagged))]

example : isDottedPath (lagNotice 0 ⟨0⟩ 0).eventType = true := by decide

inductive UplinkEvent
  /-- Some task publishes an event. -/
  | publish (event : EventReports.DomainEvent)
  /-- The session's tick calls `collect_events`. -/
  | collect (now : DateTime)
  /-- One round of its loop. The id is for the notice. -/
  | round (noticeId : Uuid)
  /-- Anything else that happens to the buffers. -/
  | other (event : CustodyEvent) (elsewhere : event.elsewhere = true)

namespace Uplink

/-- The receiver is subscribed before the first session. -/
def start (channel : Broadcast.Channel EventReports.DomainEvent) (capacity : Nat) : Uplink :=
  ⟨.subscribe channel, none, .start capacity, []⟩

/-- One payload is enqueued. -/
def enqueue (texts : Texts) (notice : Option Nat) (now : DateTime) (s : Uplink)
    (events : List EventReports.DomainEvent) : Uplink :=
  { s with
    custody := s.custody.step (.enqueue .events events_isLedger (payload texts events) now)
    reports := s.reports ++ [⟨s.custody.minted, events, notice⟩] }

/-- What `collect_events` does after its loop: the notice goes first. The number of events it
returns comes along. -/
def finish (texts : Texts) (s : Uplink) (c : Collecting) (noticeId : Uuid) : Nat × Uplink :=
  let s := { s with collecting := none }
  let s :=
    if 0 < c.lagged then
      (batches [lagNotice noticeId c.now c.lagged]).foldl
        (enqueue texts (some c.lagged) c.now) s
    else s
  if c.collected.isEmpty then (0, s)
  else (c.collected.length, (batches c.collected).foldl (enqueue texts none c.now) s)

/-- One round of the loop. A lagged receiver goes on reading. -/
def round (texts : Texts) (s : Uplink) (c : Collecting) (noticeId : Uuid) : Uplink :=
  match (Broadcast.tryRecv s.bus.channel s.bus.next).1 with
  | .message event =>
      { s with
        bus := s.bus.receive
        collecting := some { c with collected := c.collected ++ [event] } }
  | .lagged skipped =>
      { s with
        bus := s.bus.receive
        collecting := some { c with lagged := saturatingAddU64 c.lagged skipped } }
  | .empty => ({ s with bus := s.bus.receive }.finish texts c noticeId).2

/-- The collection holds the lock of the queue. The session makes it, so while it lasts the session
does nothing else, and the producers of reports wait. -/
def step (texts : Texts) (s : Uplink) : UplinkEvent → Uplink
  | .publish event => { s with bus := s.bus.send event }
  | .collect now =>
      if s.collecting.isNone && s.custody.sending.isEmpty then
        { s with collecting := some ⟨[], 0, now⟩ }
      else s
  | .round noticeId =>
      match s.collecting with
      | some c => s.round texts c noticeId
      | none => s
  | .other event _ =>
      if s.collecting.isNone || event.ofLedger then
        { s with custody := s.custody.step event }
      else s

/-! ### Where the events are -/

/-- The events that were reported, in the order of the reports. -/
def reported (s : Uplink) : List EventReports.DomainEvent :=
  s.reports.flatMap fun report => if report.notice.isNone then report.events else []

/-- How many events the notices give as lost. -/
def noticed (s : Uplink) : Nat := (s.reports.map fun report => report.notice.getD 0).sum

/-- The events the collection holds. -/
def hand (s : Uplink) : List EventReports.DomainEvent :=
  (s.collecting.map Collecting.collected).getD []

/-- The loss the collection has counted. -/
def lag (s : Uplink) : Nat := (s.collecting.map Collecting.lagged).getD 0

end Uplink

/-- The id and the payload of a report. -/
def Report.tag (texts : Texts) (report : Report) : Nat × Payload :=
  (report.serial, .value (payload texts report.events))

/-- The event that is published, if any is. -/
def UplinkEvent.published : UplinkEvent → Option EventReports.DomainEvent
  | .publish event => some event
  | _ => none

/-- What a run keeps, where `unread` is what the receiver has still to read, `hand` what the
collection has still to report, and `lag` the loss it has still to give notice of. -/
structure Accounts (texts : Texts) (s : Uplink) (unread hand : List EventReports.DomainEvent)
    (lag : Nat) : Prop where
  bus : s.bus.Sound unread
  delivered : delivered s.bus.told = s.reported ++ hand
  missed : missed s.bus.told < 2 ^ 64 → missed s.bus.told = s.noticed + lag
  contents : s.custody.contents = (s.reports.map (Report.tag texts) : List (Nat × Payload))
  serials : (s.reports.map Report.serial).Pairwise (· < ·)
  minted : ∀ report ∈ s.reports, report.serial < s.custody.minted
  bounds : ∀ report ∈ s.reports, report.events ≠ [] ∧ report.events.length ≤ maxEventsPerReport
  sound : s.custody.Sound
  proper : s.custody.Proper

section

variable {texts : Texts} {s : Uplink} {unread hand : List EventReports.DomainEvent} {lag : Nat}

theorem accounts_start (texts : Texts) (channel : Broadcast.Channel EventReports.DomainEvent)
    (capacity : Nat) :
    Accounts texts (.start channel capacity) [] [] 0 where
  bus := Subscription.sound_subscribe channel
  delivered := rfl
  missed _ := rfl
  contents := rfl
  serials := .nil
  minted := nofun
  bounds := nofun
  sound := Custody.sound_start capacity
  proper := Custody.proper_start capacity

/-- A payload that is enqueued is a new report. -/
theorem Accounts.enqueue (h : Accounts texts s unread hand lag) (now : DateTime)
    {batch hand' : List EventReports.DomainEvent} {notice : Option Nat} {lag' : Nat}
    (hbatch : batch ≠ [] ∧ batch.length ≤ maxEventsPerReport)
    (hhand : hand = (if notice.isNone then batch else []) ++ hand')
    (hlag : lag = notice.getD 0 + lag') :
    Accounts texts (s.enqueue texts notice now batch) unread hand' lag' where
  bus := h.bus
  delivered := by
    show Broadcast.delivered s.bus.told = _
    rw [h.delivered, hhand]
    simp [Uplink.reported, Uplink.enqueue]
  missed := by
    intro hfew
    rw [show (s.enqueue texts notice now batch).bus = s.bus from rfl, h.missed hfew, hlag]
    simp only [Uplink.noticed, Uplink.enqueue, List.map_append, List.map_cons, List.map_nil,
      List.sum_append, List.sum_cons, List.sum_nil]
    omega
  contents := by
    show (s.custody.step _).contents = _
    rw [Custody.contents_step h.sound h.proper, h.contents]
    rw [Uplink.enqueue, List.map_append, ← Multiset.coe_add]
    rfl
  serials := by
    show ((s.reports ++ [_]).map Report.serial).Pairwise (· < ·)
    rw [List.map_append, List.pairwise_append]
    refine ⟨h.serials, List.pairwise_singleton _ _, ?_⟩
    intro serial hserial new hnew
    obtain ⟨report, hreport, rfl⟩ := List.mem_map.mp hserial
    rw [List.map_singleton, List.mem_singleton] at hnew
    rw [hnew]
    exact h.minted report hreport
  minted := by
    intro report hreport
    show report.serial < s.custody.minted + 1
    rcases List.mem_append.mp hreport with hreport | hreport
    · exact Nat.lt_succ_of_lt (h.minted report hreport)
    · rw [List.mem_singleton.mp hreport]
      exact Nat.lt_succ_self _
  bounds := by
    intro report hreport
    rcases List.mem_append.mp hreport with hreport | hreport
    · exact h.bounds report hreport
    · rw [List.mem_singleton.mp hreport]
      exact hbatch
  sound := h.sound.step (.enqueue .events rfl _ now)
  proper := h.proper.step (.enqueue .events rfl _ now)

/-- Batches that are enqueued one after the other report what is in them. -/
theorem Accounts.enqueueAll (now : DateTime) (parts : List (List EventReports.DomainEvent))
    (s : Uplink) (h : Accounts texts s unread parts.flatten lag)
    (hparts : ∀ part ∈ parts, part ≠ [] ∧ part.length ≤ maxEventsPerReport) :
    Accounts texts (parts.foldl (Uplink.enqueue texts none now) s) unread [] lag := by
  induction parts generalizing s with
  | nil => exact h
  | cons part parts ih =>
      obtain ⟨hpart, hparts⟩ := List.forall_mem_cons.mp hparts
      exact ih _ (h.enqueue now hpart rfl (Nat.zero_add _).symm) hparts

theorem foldl_enqueue_collecting (texts : Texts) (notice : Option Nat) (now : DateTime)
    (parts : List (List EventReports.DomainEvent)) (s : Uplink) :
    (parts.foldl (Uplink.enqueue texts notice now) s).collecting = s.collecting := by
  induction parts generalizing s with
  | nil => rfl
  | cons part parts ih => exact ih _

theorem batches_singleton (event : EventReports.DomainEvent) : batches [event] = [[event]] := by
  have hshort : [event].length ≤ maxEventsPerReport := by
    rw [List.length_singleton, maxEventsPerReport]
    decide
  rw [EventReports.batches, EventReports.chunks, List.take_of_length_le hshort,
    List.drop_eq_nil_of_le hshort, EventReports.chunks]

/-- Nothing but the collection itself changes. -/
theorem Accounts.recollect (h : Accounts texts s unread hand lag)
    (collecting : Option Collecting) :
    Accounts texts { s with collecting } unread hand lag :=
  ⟨h.bus, h.delivered, h.missed, h.contents, h.serials, h.minted, h.bounds, h.sound, h.proper⟩

/-- At its end the collection reports what it holds, and gives notice of what it has missed. -/
theorem Accounts.finish {c : Collecting} (h : Accounts texts s unread c.collected c.lagged)
    (noticeId : Uuid) :
    Accounts texts (s.finish texts c noticeId).2 unread [] 0 ∧
      (s.finish texts c noticeId).2.collecting = none := by
  -- the notice first
  obtain ⟨s', hs', hnoticed, hnone⟩ : ∃ s', s' =
      (if 0 < c.lagged then (batches [lagNotice noticeId c.now c.lagged]).foldl
        (Uplink.enqueue texts (some c.lagged) c.now) { s with collecting := none }
      else { s with collecting := none }) ∧
      Accounts texts s' unread c.collected 0 ∧ s'.collecting = none := by
    refine ⟨_, rfl, ?_⟩
    split_ifs with hlagged
    · refine ⟨?_, foldl_enqueue_collecting _ _ _ _ _⟩
      have hmem : [lagNotice noticeId c.now c.lagged] ∈
          batches [lagNotice noticeId c.now c.lagged] := by
        rw [batches_singleton]
        exact List.mem_singleton_self _
      rw [batches_singleton]
      exact (h.recollect none).enqueue c.now (batches_bounds hmem) rfl rfl
    · rw [Nat.eq_zero_of_not_pos hlagged] at h
      exact ⟨h.recollect none, rfl⟩
  unfold Uplink.finish
  dsimp only
  rw [← hs']
  split_ifs with hempty
  · rw [List.isEmpty_iff.mp hempty] at hnoticed
    exact ⟨hnoticed, hnone⟩
  · refine ⟨Accounts.enqueueAll c.now _ s' ?_ fun _ => batches_bounds, ?_⟩
    · rw [batches_flatten]
      exact hnoticed
    · rw [foldl_enqueue_collecting]
      exact hnone

/-- A round reads off what is unread. -/
theorem Accounts.round {c : Collecting} (h : Accounts texts s unread c.collected c.lagged)
    (noticeId : Uuid) :
    ∃ rest, Accounts texts (s.round texts c noticeId) rest (s.round texts c noticeId).hand
      (s.round texts c noticeId).lag := by
  obtain ⟨read, rest, -, hbus⟩ := h.bus.receive
  have htold : s.bus.receive.told =
      s.bus.told ++ [(Broadcast.tryRecv s.bus.channel s.bus.next).1] := rfl
  refine ⟨rest, ?_⟩
  unfold Uplink.round
  cases hanswer : (Broadcast.tryRecv s.bus.channel s.bus.next).1 with
  | message event =>
      rw [hanswer] at htold
      refine ⟨hbus, ?_, ?_, h.contents, h.serials, h.minted, h.bounds, h.sound, h.proper⟩
      · rw [htold, Broadcast.delivered_append, h.delivered, List.append_assoc]
        rfl
      · rw [htold, Broadcast.missed_append]
        exact h.missed
  | lagged skipped =>
      rw [hanswer] at htold
      refine ⟨hbus, ?_, ?_, h.contents, h.serials, h.minted, h.bounds, h.sound, h.proper⟩
      · rw [htold, Broadcast.delivered_append, h.delivered, List.append_assoc]
        exact congrArg _ (List.append_nil _)
      · have hskipped :
            Broadcast.missed [(.lagged skipped : Broadcast.Received EventReports.DomainEvent)] =
            skipped := Nat.add_zero _
        rw [htold, Broadcast.missed_append, hskipped]
        intro hfew
        have hmissed := h.missed (by omega)
        show _ = s.noticed + saturatingAddU64 c.lagged skipped
        unfold saturatingAddU64
        omega
  | empty =>
      rw [hanswer] at htold
      have hread : Accounts texts { s with bus := s.bus.receive } rest c.collected c.lagged := by
        refine ⟨hbus, ?_, ?_, h.contents, h.serials, h.minted, h.bounds, h.sound, h.proper⟩
        · rw [htold, Broadcast.delivered_append]
          exact (List.append_nil _).trans h.delivered
        · rw [htold, Broadcast.missed_append]
          exact h.missed
      obtain ⟨hfinished, hnone⟩ := hread.finish noticeId
      simpa [Uplink.hand, Uplink.lag, hnone] using hfinished

theorem brings_elsewhere (s : Custody) {e : CustodyEvent} (h : e.elsewhere = true) :
    s.brings e = 0 := by
  unfold CustodyEvent.elsewhere at h
  unfold Custody.brings
  split at h
  · cases h
  · rfl

theorem Accounts.step (h : Accounts texts s unread s.hand s.lag) (e : UplinkEvent) :
    ∃ rest, Accounts texts (s.step texts e) rest (s.step texts e).hand (s.step texts e).lag := by
  cases e with
  | publish event =>
      exact ⟨_, h.bus.send event, h.delivered, h.missed, h.contents, h.serials, h.minted, h.bounds,
        h.sound, h.proper⟩
  | collect now =>
      refine ⟨unread, ?_⟩
      simp only [Uplink.step]
      split_ifs with hidle
      · have hnone : s.collecting = none := by
          rw [Bool.and_eq_true, Option.isNone_iff_eq_none] at hidle
          exact hidle.1
        have hhand : s.hand = [] := by rw [Uplink.hand, hnone]; rfl
        have hlag : s.lag = 0 := by rw [Uplink.lag, hnone]; rfl
        rw [hhand, hlag] at h
        exact h.recollect _
      · exact h
  | round noticeId =>
      simp only [Uplink.step]
      split
      next c hcollecting =>
        have hhand : s.hand = c.collected := by rw [Uplink.hand, hcollecting]; rfl
        have hlag : s.lag = c.lagged := by rw [Uplink.lag, hcollecting]; rfl
        rw [hhand, hlag] at h
        exact h.round noticeId
      next => exact ⟨unread, h⟩
  | other event elsewhere =>
      refine ⟨unread, ?_⟩
      simp only [Uplink.step]
      split_ifs
      · refine ⟨h.bus, h.delivered, h.missed, ?_, h.serials, ?_, h.bounds, h.sound.step event,
          h.proper.step event⟩
        · show (s.custody.step event).contents = _
          rw [Custody.contents_step h.sound h.proper, brings_elsewhere _ elsewhere, add_zero,
            h.contents]
        · intro report hreport
          exact (h.minted report hreport).trans_le (s.custody.minted_le_step event)
      · exact h

end

/-! ### What becomes of the events -/

theorem finish_bus (texts : Texts) (s : Uplink) (c : Collecting) (noticeId : Uuid) :
    (s.finish texts c noticeId).2.bus = s.bus := by
  have hfold (notice : Option Nat) (parts : List (List EventReports.DomainEvent)) (s : Uplink) :
      (parts.foldl (Uplink.enqueue texts notice c.now) s).bus = s.bus := by
    induction parts generalizing s with
    | nil => rfl
    | cons part parts ih => exact ih _
  unfold Uplink.finish
  dsimp only
  split_ifs
  · rw [hfold]
  · rfl
  · rw [hfold, hfold]
  · rw [hfold]

/-- What a step does to the bus: only publishing sends on it, and only the collection reads. -/
theorem bus_step (texts : Texts) (s : Uplink) (e : UplinkEvent) :
    (∃ event, e = .publish event ∧ (s.step texts e).bus = s.bus.send event) ∨
      e.published = none ∧
        ((s.step texts e).bus = s.bus ∨ (s.step texts e).bus = s.bus.receive) := by
  cases e with
  | publish event => exact .inl ⟨event, rfl, rfl⟩
  | collect now =>
      refine .inr ⟨rfl, .inl ?_⟩
      simp only [Uplink.step]
      split_ifs <;> rfl
  | round noticeId =>
      refine .inr ⟨rfl, ?_⟩
      simp only [Uplink.step, Uplink.round]
      split
      · right
        split
        · rfl
        · rfl
        · exact finish_bus _ _ _ _
      · exact .inl rfl
  | other event elsewhere =>
      refine .inr ⟨rfl, .inl ?_⟩
      simp only [Uplink.step]
      split_ifs <;> rfl

theorem sent_step (texts : Texts) (s : Uplink) (e : UplinkEvent) :
    (s.step texts e).bus.sent = s.bus.sent ++ e.published.toList := by
  rcases bus_step texts s e with ⟨event, rfl, hbus⟩ | ⟨hnone, hbus | hbus⟩
  · rw [hbus]
    rfl
  · rw [hbus, hnone]
    exact (List.append_nil _).symm
  · rw [hbus, hnone]
    exact (List.append_nil _).symm

theorem sent_run (texts : Texts) (s : Uplink) (events : List UplinkEvent) :
    (run (Uplink.step texts) s events).bus.sent =
      s.bus.sent ++ events.filterMap UplinkEvent.published := by
  induction events generalizing s with
  | nil => exact (List.append_nil _).symm
  | cons e events ih =>
      rw [Machine.run_cons, ih, sent_step, List.append_assoc]
      congr 1
      cases h : e.published <;> simp [h]

theorem accounts_run (texts : Texts) (channel : Broadcast.Channel EventReports.DomainEvent)
    (capacity : Nat) (events : List UplinkEvent) :
    ∃ unread, Accounts texts (run (Uplink.step texts) (.start channel capacity) events) unread
      (run (Uplink.step texts) (.start channel capacity) events).hand
      (run (Uplink.step texts) (.start channel capacity) events).lag :=
  Machine.invariant (I := fun s => ∃ unread, Accounts texts s unread s.hand s.lag)
    ⟨[], accounts_start texts channel capacity⟩ (fun _ e h => h.elim fun _ h => h.step e) events

/-- **No event is lost without notice**: what was published is read or unread; what was read was
told of in order, event by event or as missed; what was told of is reported, in order, or about to
be; and the reports are in custody, each in one place with its payload. -/
theorem events_accounted (texts : Texts) (channel : Broadcast.Channel EventReports.DomainEvent)
    (capacity : Nat) (events : List UplinkEvent) (hfew : events.length < 2 ^ 64) :
    let s := run (Uplink.step texts) (.start channel capacity) events
    ∃ read unread,
      events.filterMap UplinkEvent.published = read ++ unread ∧
      Heard read s.bus.told ∧
      delivered s.bus.told = s.reported ++ s.hand ∧
      missed s.bus.told = s.noticed + s.lag ∧
      s.custody.contents = (s.reports.map (Report.tag texts) : List (Nat × Payload)) ∧
      (s.reports.map Report.serial).Nodup ∧
      ∀ report ∈ s.reports, report.events ≠ [] ∧ report.events.length ≤ maxEventsPerReport := by
  intro s
  obtain ⟨unread, h⟩ := accounts_run texts channel capacity events
  obtain ⟨read, hheard, hsent⟩ := h.bus.heard
  have hpublished : s.bus.sent = events.filterMap UplinkEvent.published :=
    sent_run texts (.start channel capacity) events
  have hmissed : missed s.bus.told < 2 ^ 64 := by
    have hlength : read.length = (delivered s.bus.told).length + missed s.bus.told :=
      hheard.length
    have hread : read.length ≤ s.bus.sent.length := by
      rw [hsent, List.length_append]
      exact Nat.le_add_right _ _
    have hevents : s.bus.sent.length ≤ events.length := by
      rw [hpublished]
      exact List.length_filterMap_le _ _
    omega
  exact ⟨read, unread, hpublished ▸ hsent, hheard, h.delivered, h.missed hmissed, h.contents,
    h.serials.imp Nat.ne_of_lt, h.bounds⟩

/-- The texts of small identifiers, and of the first nanoseconds of 1970. -/
def smallTexts : Texts where
  writeUuid id := "00000000-0000-0000-0000-00000000000" ++ toString id.toNat
  writeTime at_ :=
    if at_.nanos = 0 then "1970-01-01T00:00:00Z"
    else "1970-01-01T00:00:00.00000000" ++ toString at_.nanos ++ "Z"

/-- A publisher outruns the collection: of two events on a bus with room for one, the first is
missed. -/
def outrunning : List UplinkEvent :=
  let event := lagNotice 1 ⟨0⟩ 0
  [.publish event, .publish event, .collect ⟨5⟩, .round 7, .round 7, .round 7]

theorem events_accounted_outrunning :
    outrunning.length < 2 ^ 64 ∧
      let s := run (Uplink.step smallTexts) (.start (.new 1 Nat.one_pos) 8) outrunning
      ∃ read unread,
        outrunning.filterMap UplinkEvent.published = read ++ unread ∧
        Heard read s.bus.told ∧
        delivered s.bus.told = s.reported ++ s.hand ∧
        missed s.bus.told = s.noticed + s.lag ∧
        s.custody.contents = (s.reports.map (Report.tag smallTexts) : List (Nat × Payload)) ∧
        (s.reports.map Report.serial).Nodup ∧
        ∀ report ∈ s.reports, report.events ≠ [] ∧ report.events.length ≤ maxEventsPerReport :=
  ⟨by decide, events_accounted smallTexts (.new 1 Nat.one_pos) 8 outrunning (by decide)⟩

/-! ### A collection that keeps up -/

/-- No event is published on a bus full of unread ones. -/
def Uplink.Roomy (s : Uplink) : UplinkEvent → Prop
  | .publish _ => s.bus.channel.tail < s.bus.next + s.bus.channel.room
  | _ => True

instance (s : Uplink) (e : UplinkEvent) : Decidable (s.Roomy e) :=
  match e with
  | .publish _ => inferInstanceAs (Decidable (_ < _))
  | .collect _ | .round _ | .other _ _ => inferInstanceAs (Decidable True)

theorem caught_step {texts : Texts} {s : Uplink} (h : s.bus.Caught) {e : UplinkEvent}
    (hroomy : s.Roomy e) : (s.step texts e).bus.Caught := by
  rcases bus_step texts s e with ⟨event, rfl, hbus⟩ | ⟨-, hbus | hbus⟩
  · rw [hbus]
    exact h.send event hroomy
  · rw [hbus]
    exact h
  · rw [hbus]
    exact h.receive

/-- **A collection that keeps up reports everything**, once and in the order of publishing; what it
has not read yet, the bus still has for it. -/
theorem kept_up_delivers (texts : Texts) (channel : Broadcast.Channel EventReports.DomainEvent)
    (capacity : Nat) (events : List UplinkEvent)
    (hroomy : Every (Uplink.step texts) Uplink.Roomy (.start channel capacity) events) :
    let s := run (Uplink.step texts) (.start channel capacity) events
    events.filterMap UplinkEvent.published = s.reported ++ s.hand ++ s.bus.left ∧
      s.noticed = 0 := by
  intro s
  obtain ⟨unread, h⟩ := accounts_run texts channel capacity events
  obtain ⟨read, hheard, hsent⟩ := h.bus.heard
  have hcaught : s.bus.Caught :=
    hroomy.invariant (I := fun s => s.bus.Caught) (.subscribe channel) fun _ _ h he =>
      caught_step h he
  have hpublished : s.bus.sent = events.filterMap UplinkEvent.published :=
    sent_run texts (.start channel capacity) events
  have hread : s.reported ++ s.hand = read :=
    h.delivered.symm.trans (hheard.eq_of_missed hcaught.missed)
  have hnone : 0 = s.noticed + s.lag :=
    hcaught.missed.symm.trans (h.missed (hcaught.missed.symm ▸ Nat.two_pow_pos 64))
  refine ⟨?_, by omega⟩
  rw [← hpublished, hread, ← hcaught.unread_eq h.bus]
  exact hsent

/-- The same events, with a collection in between. -/
def pacing : List UplinkEvent :=
  let event := lagNotice 1 ⟨0⟩ 0
  [.publish event, .collect ⟨5⟩, .round 7, .publish event, .round 7, .round 7]

theorem kept_up_delivers_pacing :
    let s := run (Uplink.step smallTexts) (.start (.new 1 Nat.one_pos) 8) pacing
    Every (Uplink.step smallTexts) Uplink.Roomy (.start (.new 1 Nat.one_pos) 8) pacing ∧
      pacing.filterMap UplinkEvent.published = s.reported ++ s.hand ++ s.bus.left ∧
        s.noticed = 0 := by
  have hroomy : Every (Uplink.step smallTexts) Uplink.Roomy (.start (.new 1 Nat.one_pos) 8)
      pacing := by
    decide
  exact ⟨hroomy, kept_up_delivers smallTexts (.new 1 Nat.one_pos) 8 pacing hroomy⟩

end EventCollection

end Argus
