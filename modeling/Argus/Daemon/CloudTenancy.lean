import Argus.Daemon.CloudCustody
import Argus.Daemon.EnrollmentKeys

/-!
# The tenant a report is sent to

The supervisor reads the enrollment and the key, connects with them, and flushes the buffers in
the session it gets. Enrolling and forgetting go on beside it. They wake the session, which then
ends; the buffers stay as they are, in memory, and what was in flight goes back into them.

A report is produced when it enters its buffer. A session that is woken may flush before it ends,
and one that is connecting is not woken at all.
-/

namespace Argus

namespace Custody

variable {s s' : Custody} {record : Nat}

/-! ### What is in custody -/

/-- The records that may still be sent. -/
def live (s : Custody) : Multiset Nat :=
  s.held + recordsOf s.sending + recordsOf (s.inFlight.map Prod.snd)

/-- Nothing is held. -/
def vacant (s : Custody) : Bool :=
  s.queue.entries.isEmpty && s.ledger.isEmpty && s.sending.isEmpty && s.inFlight.isEmpty

theorem live_of_vacant (h : s.vacant = true) : s.live = 0 := by
  simp only [vacant, LedgerBuffer.isEmpty, Bool.and_eq_true, List.isEmpty_iff] at h
  obtain ⟨⟨⟨hqueue, ⟨hactions, htraces⟩, husage⟩, hsending⟩, hinFlight⟩ := h
  simp [live, held, LedgerBuffer.records, hqueue, hactions, htraces, husage, hsending, hinFlight]

/-- What left custody stays out of it. -/
structure Grows (s s' : Custody) : Prop where
  accepted : s.accepted ⊆ s'.accepted
  evicted : s.evicted ⊆ s'.evicted
  givenUp : s.givenUp ⊆ s'.givenUp
  lost : s.lost ⊆ s'.lost
  minted : s.minted ≤ s'.minted

/-- Nothing leaves custody but by an eviction. -/
theorem Grows.evicts (haccepted : s'.accepted = s.accepted) (hevicted : s.evicted ⊆ s'.evicted)
    (hgivenUp : s'.givenUp = s.givenUp) (hlost : s'.lost = s.lost)
    (hminted : s.minted ≤ s'.minted) : Grows s s' :=
  ⟨haccepted ▸ List.Subset.refl _, hevicted, hgivenUp ▸ List.Subset.refl _,
    hlost ▸ List.Subset.refl _, hminted⟩

/-- Nothing leaves custody. -/
theorem Grows.stays (haccepted : s'.accepted = s.accepted) (hevicted : s'.evicted = s.evicted)
    (hgivenUp : s'.givenUp = s.givenUp) (hlost : s'.lost = s.lost)
    (hminted : s.minted ≤ s'.minted) : Grows s s' :=
  .evicts haccepted (hevicted ▸ List.Subset.refl _) hgivenUp hlost hminted

theorem Grows.refl (s : Custody) : Grows s s := .stays rfl rfl rfl rfl le_rfl

theorem grows_requeueReports (s : Custody) (entries : List BufferedReport) :
    Grows s (s.requeueReports entries) :=
  .evicts rfl (List.subset_append_left _ _) rfl rfl le_rfl

theorem grows_requeueInFlight (s : Custody) (hash : Nat → Nat) :
    Grows s (s.requeueInFlight hash) := by
  unfold requeueInFlight
  split_ifs
  · exact .refl s
  · exact .evicts rfl (List.subset_append_left _ _) rfl rfl le_rfl

theorem grows_settle (s : Custody) (entry : BufferedReport) (accepted : Bool) :
    Grows s (s.settle entry accepted) := by
  unfold settle
  split_ifs
  · exact ⟨List.subset_append_left _ _, List.Subset.refl _, List.Subset.refl _,
      List.Subset.refl _, le_rfl⟩
  · exact ⟨List.Subset.refl _, List.Subset.refl _, List.subset_append_left _ _,
      List.Subset.refl _, le_rfl⟩
  · exact .stays rfl rfl rfl rfl le_rfl
  · exact grows_requeueReports _ _

theorem grows_pushAction (s : Custody) (payload : Value) (at_ : DateTime) :
    Grows s (s.step (.pushAction payload at_)) := by
  simp only [step]
  split
  next => exact .refl s
  next ledger hpush =>
    exact .stays rfl rfl rfl rfl (Nat.le_succ _)

theorem grows_abandon (s : Custody) (entry : BufferedReport) (rest : List BufferedReport)
    (hash : Nat → Nat) : Grows s ((s.abandon entry rest).requeueInFlight hash) := by
  have hgrows := (s.abandon entry rest).grows_requeueInFlight hash
  exact ⟨hgrows.accepted, hgrows.evicted, hgrows.givenUp,
    List.Subset.trans (List.subset_append_left _ _) hgrows.lost, hgrows.minted⟩

theorem grows_step (s : Custody) (e : CustodyEvent) : Grows s (s.step e) := by
  cases e with
  | enqueue kind report payload at_ =>
      exact .evicts rfl (List.subset_append_left _ _) rfl rfl (Nat.le_succ _)
  | pushAction payload at_ => exact s.grows_pushAction payload at_
  | forceAction payload at_ =>
      have hgrows := s.makeRoom.grows_pushAction payload at_
      exact ⟨hgrows.accepted, List.Subset.trans (List.subset_append_left _ _) hgrows.evicted,
        hgrows.givenUp, hgrows.lost, hgrows.minted⟩
  | pushTrace payload at_ =>
      exact .evicts rfl (List.subset_append_left _ _) rfl rfl (Nat.le_succ _)
  | pushUsage usage =>
      exact .stays rfl rfl rfl rfl (Nat.le_succ _)
  | flushReports at_ =>
      simp only [step]
      split_ifs
      · exact .stays rfl rfl rfl rfl le_rfl
      · exact .refl s
  | flushLedger at_ =>
      simp only [step]
      split_ifs
      · exact .stays rfl rfl rfl rfl le_rfl
      · exact .refl s
  | send =>
      simp only [step]
      split
      next => exact .refl s
      next entry rest hsending =>
        exact .stays rfl rfl rfl rfl le_rfl
  | sendFails hash =>
      simp only [step]
      split
      next => exact .refl s
      next entry rest hsending => exact s.grows_abandon entry rest hash
  | inbound messageType ack =>
      simp only [step]
      split_ifs
      · rcases s.handleInbound_cases messageType ack with
          hnothing | ⟨_, id, accepted, entry, _, _, _, _, heq⟩
        · rw [hnothing]
          exact .refl s
        · rw [heq]
          have hgrows := (s.land id).grows_settle entry accepted
          exact ⟨hgrows.accepted, hgrows.evicted, hgrows.givenUp, hgrows.lost, hgrows.minted⟩
      · exact .refl s
  | endSession hash =>
      simp only [step]
      split_ifs
      · exact s.grows_requeueInFlight hash
      · exact .refl s

theorem recordsOf_mono {entries entries' : List BufferedReport} (h : entries ⊆ entries')
    (hrecord : record ∈ recordsOf entries) : record ∈ recordsOf entries' := by
  obtain ⟨entry, hentry, hmem⟩ := mem_recordsOf.mp hrecord
  exact mem_recordsOf.mpr ⟨entry, h hentry, hmem⟩

/-- The records that will not be sent any more. -/
def settled (s : Custody) : Multiset Nat :=
  recordsOf s.accepted + recordsOf s.evicted + recordsOf s.givenUp + recordsOf s.lost

theorem places_eq (s : Custody) : s.places = s.live + s.settled := by
  simp only [places, live, settled]
  abel

theorem Grows.settled (h : Grows s s') (hrecord : record ∈ s.settled) : record ∈ s'.settled := by
  simp only [Custody.settled, Multiset.mem_add] at hrecord ⊢
  rcases hrecord with ((hmem | hmem) | hmem) | hmem
  · exact .inl (.inl (.inl (recordsOf_mono h.accepted hmem)))
  · exact .inl (.inl (.inr (recordsOf_mono h.evicted hmem)))
  · exact .inl (.inr (recordsOf_mono h.givenUp hmem))
  · exact .inr (recordsOf_mono h.lost hmem)

theorem live_of_sending {more : List Envelope} {envelope : Envelope}
    (hsending : ∀ envelope ∈ more, envelope.entry ∈ s.sending) (henvelope : envelope ∈ more)
    (hrecord : record ∈ envelope.entry.records) : record ∈ s.live := by
  have hmem := mem_recordsOf.mpr ⟨envelope.entry, hsending envelope henvelope, hrecord⟩
  simp only [live, Multiset.mem_add]
  exact .inl (.inr hmem)

/-- Only the next entry's turn sends anything. -/
theorem sent_of_quiet {e : CustodyEvent} (hsend : e ≠ .send)
    (hfails : ∀ hash, e ≠ .sendFails hash) :
    (s.step e).sent = s.sent := by
  cases e with
  | enqueue kind report payload at_ => rfl
  | pushAction payload at_ => exact (s.pushAction_produces payload at_).sent
  | forceAction payload at_ => exact (s.forceAction_produces payload at_).sent
  | pushTrace payload at_ => rfl
  | pushUsage usage => rfl
  | flushReports at_ =>
      simp only [step]
      split_ifs
      · rfl
      · rfl
  | flushLedger at_ =>
      simp only [step]
      split_ifs
      · rfl
      · rfl
  | send => exact absurd rfl hsend
  | sendFails hash => exact absurd rfl (hfails hash)
  | inbound messageType ack =>
      simp only [step]
      split_ifs
      · rcases s.handleInbound_cases messageType ack with
          hnothing | ⟨_, id, accepted, entry, _, _, _, _, heq⟩
        · rw [hnothing]
        · obtain ⟨-, -, -, -, -, hsent⟩ := (s.land id).settle_same entry accepted
          rw [heq, hsent]
          rfl
      · rfl
  | endSession hash =>
      simp only [step]
      split_ifs
      · obtain ⟨-, -, -, hsent, -⟩ := s.requeueInFlight_same hash
        exact hsent
      · rfl

theorem Sound.live_lt (h : Sound s) (hlive : record ∈ s.live) : record < s.minted := by
  have hplaced : record ∈ s.places := by
    rw [places_eq]
    exact Multiset.mem_add.mpr (.inl hlive)
  rw [h.placed] at hplaced
  exact Multiset.mem_range.mp hplaced

/-- What is in custody was there before, or is new. -/
theorem Sound.live_step (h : Sound s) (e : CustodyEvent) (hlive : record ∈ (s.step e).live) :
    record ∈ s.live ∨ s.minted ≤ record := by
  rcases Nat.lt_or_ge record s.minted with hold | hnew
  · left
    have hplaced : record ∈ s.places := h.placed ▸ Multiset.mem_range.mpr hold
    rw [places_eq] at hplaced
    rcases Multiset.mem_add.mp hplaced with hmem | hsettled
    · exact hmem
    · have hnodup : (s.step e).places.Nodup := (h.step e).placed ▸ Multiset.nodup_range _
      rw [places_eq] at hnodup
      have hout := (s.grows_step e).settled hsettled
      exact absurd hout (Multiset.disjoint_left.mp (Multiset.nodup_add.mp hnodup).2.2 hlive)
  · exact .inr hnew

/-- The session ends with the event. -/
def ends (s : Custody) : CustodyEvent → Bool
  | .sendFails _ => !s.sending.isEmpty
  | .endSession _ => s.sending.isEmpty
  | _ => false

end Custody

/-- The event is one of the session, and not of a producer. -/
def CustodyEvent.ofSession : CustodyEvent → Bool
  | .enqueue .. | .pushAction .. | .forceAction .. | .pushTrace .. | .pushUsage .. => false
  | _ => true

namespace Enrollments

variable {config : CloudConfig} {s : Enrollments} {event : EnrollmentEvent}

/-- The event writes the stored enrollment. -/
def writes (s : Enrollments) : EnrollmentEvent → Bool
  | .turn id none _ =>
      match (s.calls id).next with
      | some (.saveCloudEnrollment _) | some (.erase (.table .cloudEnrollment)) => true
      | _ => false
  | _ => false

theorem enrollment_answer {request : CloudRequest} {id : Nat} {fault : Option String}
    {outcome : EnrollmentOutcome} (hcall : (s.calls id).next = some request)
    (h : s.writes (.turn id fault outcome) = false) :
    (s.store.answer id fault outcome request).2.enrollment = s.store.enrollment := by
  cases fault with
  | some error => rfl
  | none =>
      cases request with
      | saveCloudEnrollment enrollment => simp [writes, hcall] at h
      | storeSessionCredential credential =>
          simp only [CloudStore.answer, CloudStore.serve]
          split_ifs
          · rfl
          · rfl
      | erase what =>
          cases what with
          | table table =>
              cases table with
              | cloudEnrollment => simp [writes, hcall] at h
              | _ => rfl
          | _ => rfl
      | _ => rfl

theorem enrollment_step (h : s.writes event = false) :
    (s.step config event).store.enrollment = s.store.enrollment := by
  have hstepped := stepped config s event
  generalize s.step config event = s' at hstepped ⊢
  cases hstepped with
  | none | enroll hcall | forget hcall => rfl
  | enrolling hcall | forgetting hcall => exact enrollment_answer (by rw [hcall]; rfl) h

end Enrollments

/-! ### The supervisor -/

/-- The supervisor beside the calls, with what was produced and sent so far. -/
structure Supervisor where
  enrollments : Enrollments
  /-- The enrollment it has read, to connect with. -/
  reading : Option CloudEnrollment
  /-- It has read the key as well. -/
  keyed : Bool
  /-- The enrollment the session authenticates. -/
  session : Option CloudEnrollment
  custody : Custody
  /-- The enrollment that was stored as each record was produced. -/
  produced : List (Option CloudEnrollment)
  /-- What was sent, with the enrollment its session authenticates. -/
  delivered : List (Envelope × CloudEnrollment)

inductive SupervisorEvent
  | call (event : EnrollmentEvent)
  | readEnrollment
  | readKey
  | connect
  | custody (event : CustodyEvent)

namespace Supervisor

def start (capacity : Nat) : Supervisor :=
  ⟨.start, none, false, none, .start capacity, [], []⟩

/-- The stored enrollment. -/
def stored (s : Supervisor) : Option CloudEnrollment := s.enrollments.store.enrollment

/-- An event in the buffers or the session. -/
def work (s : Supervisor) (event : CustodyEvent) : Supervisor :=
  let custody := s.custody.step event
  { s with
    custody
    session := if s.custody.ends event then none else s.session
    produced := s.produced ++ List.replicate (custody.minted - s.custody.minted) s.stored
    delivered := s.delivered ++ (custody.sent.drop s.custody.sent.length).filterMap fun envelope =>
      s.session.map (envelope, ·) }

def step (config : CloudConfig) (s : Supervisor) : SupervisorEvent → Supervisor
  | .call event => { s with enrollments := s.enrollments.step config event }
  | .readEnrollment =>
      if config.isActive && s.session.isNone then { s with reading := s.stored, keyed := false }
      else s
  | .readKey =>
      if s.session.isNone && s.reading.isSome then
        { s with keyed := s.enrollments.store.seed.isSome }
      else s
  | .connect =>
      if s.session.isNone && s.keyed then
        { s with session := s.reading, reading := none, keyed := false }
      else s
  | .custody event => if event.ofSession && s.session.isNone then s else s.work event

/-- Every record that a session sent was produced under the enrollment it authenticates. -/
def Isolated (s : Supervisor) : Prop :=
  ∀ sent ∈ s.delivered, ∀ record ∈ sent.1.entry.records,
    s.produced[record]? = some (some sent.2)

instance (s : Supervisor) : Decidable s.Isolated :=
  inferInstanceAs (Decidable (∀ sent ∈ s.delivered, ∀ record ∈ sent.1.entry.records,
    s.produced[record]? = some (some sent.2)))

/-- The stored enrollment is written only while nothing is held, and a session sends only while
the enrollment it authenticates is the stored one. -/
def isolating (s : Supervisor) : SupervisorEvent → Bool
  | .call event => !s.enrollments.writes event || s.custody.vacant
  | .custody .send | .custody (.sendFails _) => s.session.isNone || s.session == s.stored
  | _ => true

variable {config : CloudConfig} {s : Supervisor}

/-- What the steps keep. -/
structure Attributed (s : Supervisor) : Prop where
  sound : s.custody.Sound
  length : s.produced.length = s.custody.minted
  /-- What is held was produced under the stored enrollment. -/
  live : ∀ record ∈ s.custody.live, s.produced[record]? = some s.stored
  isolated : s.Isolated

theorem attributed_start (capacity : Nat) : Attributed (start capacity) where
  sound := Custody.sound_start capacity
  length := rfl
  live := by
    intro record hrecord
    have hnone : (start capacity).custody.live = 0 := Custody.live_of_vacant rfl
    rw [hnone] at hrecord
    exact absurd hrecord (Multiset.notMem_zero record)
  isolated := fun _ h => by cases h

/-- A write of the enrollment finds nothing in custody. -/
theorem Attributed.call (h : Attributed s) {event : EnrollmentEvent}
    (hcareful : s.isolating (.call event) = true) :
    Attributed { s with enrollments := s.enrollments.step config event } := by
  refine ⟨h.sound, h.length, fun record hrecord => ?_, h.isolated⟩
  cases hwrites : s.enrollments.writes event with
  | false =>
      have hsame : (s.enrollments.step config event).store.enrollment = s.stored :=
        Enrollments.enrollment_step hwrites
      exact (h.live record hrecord).trans (congrArg some hsame.symm)
  | true =>
      have hvacant : s.custody.vacant = true := by simpa [isolating, hwrites] using hcareful
      have hnone : record ∈ (0 : Multiset Nat) := Custody.live_of_vacant hvacant ▸ hrecord
      exact absurd hnone (Multiset.notMem_zero record)

/-- What was produced before keeps its enrollment, and what is new has the stored one. -/
theorem Attributed.produced_live (h : Attributed s) (event : CustodyEvent) {record : Nat}
    (hlive : record ∈ (s.custody.step event).live) :
    (s.work event).produced[record]? = some s.stored := by
  have hlt := (h.sound.step event).live_lt hlive
  simp only [work]
  rcases h.sound.live_step event hlive with hold | hnew
  · have hbefore : record < s.produced.length := h.length ▸ h.sound.live_lt hold
    rw [List.getElem?_append_left hbefore]
    exact h.live record hold
  · rw [List.getElem?_append_right (h.length ▸ hnew), h.length, List.getElem?_replicate]
    exact if_pos (by omega)

theorem Attributed.work (h : Attributed s) {event : CustodyEvent}
    (hcareful : s.isolating (.custody event) = true) : Attributed (s.work event) := by
  refine ⟨h.sound.step event, ?_, fun record hlive => h.produced_live event hlive, ?_⟩
  · have hgrows := (s.custody.grows_step event).minted
    simp only [Supervisor.work, List.length_append, List.length_replicate, h.length]
    omega
  · intro sent hsent record hrecord
    rcases List.mem_append.mp hsent with hbefore | hnow
    · have hread := h.isolated sent hbefore record hrecord
      obtain ⟨hlt, -⟩ := List.getElem?_eq_some_iff.mp hread
      simp only [Supervisor.work]
      rw [List.getElem?_append_left hlt]
      exact hread
    · obtain ⟨envelope, henvelope, hpaired⟩ := List.mem_filterMap.mp hnow
      obtain ⟨e, hsession, rfl⟩ := Option.map_eq_some_iff.mp hpaired
      obtain ⟨more, hmore, hsending, -⟩ := s.custody.sent_step event
      rw [hmore, List.drop_left] at henvelope
      have hlive := Custody.live_of_sending hsending henvelope hrecord
      have hstored : some e = s.stored := by
        have hsends : event = .send ∨ ∃ hash, event = .sendFails hash := by
          by_contra hquiet
          rw [not_or, not_exists] at hquiet
          have hsame := Custody.sent_of_quiet (s := s.custody) hquiet.1 hquiet.2
          obtain rfl : more = [] := List.append_right_eq_self.mp (hmore.symm.trans hsame)
          cases henvelope
        rcases hsends with rfl | ⟨hash, rfl⟩
        · simpa [isolating, hsession] using hcareful
        · simpa [isolating, hsession] using hcareful
      have hbefore : record < s.produced.length := h.length ▸ h.sound.live_lt hlive
      simp only [Supervisor.work]
      rw [List.getElem?_append_left hbefore, hstored]
      exact h.live record hlive

theorem Attributed.step (h : Attributed s) {event : SupervisorEvent}
    (hcareful : s.isolating event = true) : Attributed (s.step config event) := by
  cases event with
  | call event => exact h.call hcareful
  | readEnrollment =>
      simp only [Supervisor.step]
      split_ifs
      · exact ⟨h.sound, h.length, h.live, h.isolated⟩
      · exact h
  | readKey =>
      simp only [Supervisor.step]
      split_ifs
      · exact ⟨h.sound, h.length, h.live, h.isolated⟩
      · exact h
  | connect =>
      simp only [Supervisor.step]
      split_ifs
      · exact ⟨h.sound, h.length, h.live, h.isolated⟩
      · exact h
  | custody event =>
      simp only [Supervisor.step]
      split_ifs
      · exact h
      · exact h.work hcareful

/-- **Reports stay with their tenant**, in every state of every run in which the enrollment is
written only while nothing is held, and a session sends only under the stored enrollment. -/
theorem reports_stay_with_tenant (config : CloudConfig) (capacity : Nat)
    (events : List SupervisorEvent)
    (h : Machine.Every (step config) (fun s event => s.isolating event = true) (start capacity)
      events) :
    (Machine.run (step config) (start capacity) events).Isolated :=
  (h.invariant (attributed_start capacity) fun _ _ hs hcareful => hs.step hcareful).isolated

/-! #### Two runs -/

/-- The installation is enrolled with a tenant, and the supervisor connects. -/
def enrolling (id : Nat) (tenant : Uuid) : List SupervisorEvent :=
  (EnrollmentEvent.enroll id Enrollments.request :: Enrollments.turns id 5
    (.granted ⟨1, tenant, "host", "token", "1.2.0"⟩)).map .call ++
      [.readEnrollment, .readKey, .connect]

def forgetting (id : Nat) : List SupervisorEvent :=
  (EnrollmentEvent.forget id :: Enrollments.turns id 14 Enrollments.granted).map .call

/-- A report is produced in a session. -/
def reporting : List SupervisorEvent :=
  [.custody (.enqueue .telemetry telemetry_isLedger .null ⟨0⟩)]

/-- A session sends a report. -/
def flushing : List SupervisorEvent := [.custody (.flushReports ⟨0⟩), .custody .send]

/-- The report is acknowledged, and the session ends. -/
def ending : List SupervisorEvent :=
  [.custody (.inbound (some .telemetryAck) (some ⟨some 0, true⟩)), .custody (.endSession id)]

/-- Each tenant's reports are acknowledged before the enrollment is forgotten. -/
def orderly : List SupervisorEvent :=
  enrolling 0 7 ++ reporting ++ flushing ++ ending ++ forgetting 1 ++ enrolling 2 8 ++ reporting ++
    flushing

theorem orderly_reports_stay :
    (Machine.run (step Enrollments.enabledConfig) (start 10) orderly).delivered.map
        (fun sent => sent.2.tenantId) = [7, 8] ∧
      (Machine.run (step Enrollments.enabledConfig) (start 10) orderly).Isolated :=
  ⟨by decide,
    reports_stay_with_tenant Enrollments.enabledConfig 10 orderly (by decide)⟩

/-- A report is in flight as the enrollment is forgotten, and goes back to the queue. -/
def moved : List SupervisorEvent :=
  enrolling 0 7 ++ reporting ++ flushing ++ forgetting 1 ++ [.custody (.endSession id)] ++
    enrolling 2 8 ++ flushing

/-- **A report is sent to another tenant.** -/
theorem report_sent_to_other_tenant :
    ¬ ∀ capacity events,
      (Machine.run (step Enrollments.enabledConfig) (start capacity) events).Isolated := by
  intro h
  exact absurd (h 10 moved) (by decide)

end Supervisor
end Argus
