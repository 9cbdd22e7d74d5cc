import Argus.Daemon.CloudCustody

/-!
# The order of the entries in custody

Entries come back from a session one at a time, each put in front of what is there, and all
together at its end, sorted by the time they were enqueued. Usage batches are merged into the
held one of their cycle and model, or come back behind the held ones. The buffers stay in order
of age, and are sent in it, when what comes back is older than what is held (younger, for usage)
and its times tell its age apart (`InAge`). Neither is seen to: a younger entry that is rejected
after an older one is put in front of it, and the reports of one tick have one time.
-/

namespace Argus

open LedgerBuffer (usageOf batch)

/-- The streams that are kept in order. -/
inductive Stream
  | reports
  | actions
  | traces
  | usage
  deriving DecidableEq

def ReportKind.stream : ReportKind → Stream
  | .actionLedger => .actions
  | .brainTrace => .traces
  | .tokenUsage => .usage
  | .telemetry | .health | .events | .activities | .sentinel => .reports

theorem ReportKind.stream_of_report {kind : ReportKind} (h : kind.isLedger = false) :
    kind.stream = .reports := by
  cases kind <;> first | rfl | cases h

/-- One entry is older than another of its stream. -/
def BufferedReport.Before (a b : BufferedReport) : Prop :=
  a.kind.stream = b.kind.stream → a.serial < b.serial

theorem BufferedReport.before_of_lt {a b : BufferedReport} (h : a.serial < b.serial) :
    a.Before b := fun _ => h

/-- The batches of two usage entries become one. -/
def BufferedReport.sameBatch (a b : BufferedReport) : Bool :=
  match usageOf a, usageOf b with
  | some sum, some sum' => sum.sameKey sum'
  | _, _ => false

/-- The times of two entries tell their ages apart. -/
def BufferedReport.Timed (a b : BufferedReport) : Prop :=
  a.kind.stream = b.kind.stream → a.sameBatch b = true ∨
    a.serial < b.serial ∧ a.enqueuedAt < b.enqueuedAt ∨
    b.serial < a.serial ∧ b.enqueuedAt < a.enqueuedAt

/-- One entry is older than another of its stream, unless their batches become one. -/
def BufferedReport.Follows (a b : BufferedReport) : Prop :=
  a.kind.stream = b.kind.stream → a.sameBatch b = true ∨ a.serial < b.serial

namespace Custody

open BufferedReport (Before Timed Follows before_of_lt sameBatch)

/-- The buffers are in order of age, and so is what is being sent. -/
structure InOrder (s : Custody) : Prop where
  queue : s.queue.entries.Pairwise fun a b => a.serial < b.serial
  actions : s.ledger.actions.Pairwise fun a b => a.serial < b.serial
  traces : s.ledger.traces.Pairwise fun a b => a.serial < b.serial
  usage : s.ledger.usage.Pairwise fun a b => a.usageId < b.usageId
  sending : s.sending.Pairwise Before

/-- The entry is older than those held in its stream; a usage batch is younger, or is merged. -/
def Fits (s : Custody) (entry : BufferedReport) : Prop :=
  match entry.kind.stream with
  | .reports => ∀ held ∈ s.queue.entries, entry.serial < held.serial
  | .actions => ∀ held ∈ s.ledger.actions, entry.serial < held.serial
  | .traces => ∀ held ∈ s.ledger.traces, entry.serial < held.serial
  | .usage => (∃ held ∈ s.ledger.usage, ∃ sum ∈ usageOf entry, held.sameKey sum = true) ∨
      ∀ held ∈ s.ledger.usage, held.usageId < entry.serial

/-- What goes back fits, and its times tell its ages apart. -/
def InAge (s : Custody) (e : CustodyEvent) : Prop :=
  (s.back e).Pairwise Timed ∧ ∀ entry ∈ s.back e, s.Fits entry

instance (a b : BufferedReport) : Decidable (Timed a b) :=
  inferInstanceAs (Decidable (_ = _ → _ ∨ _ ∨ _))

instance (s : Custody) (entry : BufferedReport) : Decidable (s.Fits entry) :=
  match h : entry.kind.stream with
  | .reports => decidable_of_iff (∀ held ∈ s.queue.entries, entry.serial < held.serial)
      (by simp only [Fits, h])
  | .actions => decidable_of_iff (∀ held ∈ s.ledger.actions, entry.serial < held.serial)
      (by simp only [Fits, h])
  | .traces => decidable_of_iff (∀ held ∈ s.ledger.traces, entry.serial < held.serial)
      (by simp only [Fits, h])
  | .usage => decidable_of_iff
      ((∃ held ∈ s.ledger.usage, ∃ sum ∈ usageOf entry, held.sameKey sum = true) ∨
        ∀ held ∈ s.ledger.usage, held.usageId < entry.serial) (by simp only [Fits, h])

instance (s : Custody) (e : CustodyEvent) : Decidable (s.InAge e) :=
  inferInstanceAs (Decidable (_ ∧ _))

variable {s s' : Custody} {entries : List BufferedReport} {e : CustodyEvent}

/-! ### What goes back -/

theorem sameKey_iff {a b : UsageSum} :
    a.sameKey b = true ↔ a.cycleId = b.cycleId ∧ a.model = b.model := by
  simp [UsageSum.sameKey]

theorem sameKey_comm (a b : UsageSum) : a.sameKey b = b.sameKey a := by
  simp only [UsageSum.sameKey, Bool.beq_comm]

theorem sameBatch_comm (a b : BufferedReport) : a.sameBatch b = b.sameBatch a := by
  unfold BufferedReport.sameBatch
  cases usageOf a <;> cases usageOf b
  · rfl
  · rfl
  · rfl
  · exact sameKey_comm _ _

/-- Only usage entries have a batch. -/
theorem sameBatch_of_ne {a b : BufferedReport} (h : a.kind.stream ≠ .usage) :
    a.sameBatch b = false := by
  have hnone : usageOf a = none := by
    rw [Option.eq_none_iff_forall_not_mem]
    intro sum hsum
    refine h ?_
    rw [(usageOf_eq hsum).1]
    rfl
  simp [BufferedReport.sameBatch, hnone]

theorem timed_symm {a b : BufferedReport} (h : Timed a b) : Timed b a := by
  intro heq
  rw [sameBatch_comm]
  exact (h heq.symm).imp_right Or.symm

/-- Sorted by times that tell ages apart, entries are in order of age. -/
theorem follows_of_timed {back : List BufferedReport} (hperm : entries.Perm back)
    (htimed : back.Pairwise Timed)
    (hsorted : entries.Pairwise fun a b => a.enqueuedAt ≤ b.enqueuedAt) :
    entries.Pairwise Follows := by
  have hentries : entries.Pairwise Timed := hperm.symm.pairwise htimed timed_symm
  refine hentries.imp₂ ?_ hsorted
  intro a b htimed hle hstream
  rcases htimed hstream with hbatch | ⟨hserial, -⟩ | ⟨-, hlater⟩
  · exact .inl hbatch
  · exact .inr hserial
  · exact absurd hle (not_le.mpr hlater)

/-- The entries of one stream, put in front of younger ones. -/
theorem pairwise_front {held : List BufferedReport} (stream : Stream) (hstream : stream ≠ .usage)
    (p : BufferedReport → Bool) (hp : ∀ entry, p entry = true → entry.kind.stream = stream)
    (hfollows : entries.Pairwise Follows) (hheld : held.Pairwise fun a b => a.serial < b.serial)
    (hfits : ∀ entry ∈ entries, entry.kind.stream = stream → ∀ old ∈ held,
      entry.serial < old.serial) :
    (entries.filter p ++ held).Pairwise fun a b => a.serial < b.serial := by
  refine List.pairwise_append.mpr ⟨?_, hheld, ?_⟩
  · refine (hfollows.filter p).imp_of_mem ?_
    intro a b ha hb hab
    have ha := hp a (List.mem_filter.mp ha).2
    have hb := hp b (List.mem_filter.mp hb).2
    have hbatch : a.sameBatch b = false := sameBatch_of_ne (ha ▸ hstream)
    simpa [hbatch] using hab (ha.trans hb.symm)
  · intro entry hentry
    obtain ⟨hmem, hkept⟩ := List.mem_filter.mp hentry
    exact hfits entry hmem (hp entry hkept)

theorem batch_ids (sum : UsageSum) (usage : List UsageSum) :
    ((batch sum usage).map UsageSum.usageId).Sublist
      (usage.map UsageSum.usageId ++ [sum.usageId]) := by
  induction usage with
  | nil => exact List.Sublist.refl _
  | cons first rest ih =>
      rw [batch]
      split_ifs
      · exact List.sublist_append_left _ _
      · exact ih.cons_cons _

/-- A batch that finds its cycle and model leaves the ids as they are. -/
theorem batch_ids_of_mem {sum held : UsageSum} {usage : List UsageSum} (hmem : held ∈ usage)
    (hkey : held.sameKey sum = true) :
    (batch sum usage).map UsageSum.usageId = usage.map UsageSum.usageId := by
  induction usage with
  | nil => cases hmem
  | cons first rest ih =>
      rw [batch]
      split_ifs with hfirst
      · rfl
      · rcases List.mem_cons.mp hmem with rfl | hrest
        · exact absurd hkey hfirst
        · rw [List.map_cons, List.map_cons, ih hrest]

/-- The cycles and models that were there stay there, and that of the batch is added. -/
theorem batch_keys {sum other : UsageSum} {usage : List UsageSum}
    (h : sum.sameKey other = true ∨ ∃ held ∈ usage, held.sameKey other = true) :
    ∃ held ∈ batch sum usage, held.sameKey other = true := by
  induction usage with
  | nil =>
      rcases h with hsum | ⟨held, hmem, -⟩
      · exact ⟨sum, List.mem_cons_self, hsum⟩
      · cases hmem
  | cons first rest ih =>
      rw [batch]
      split_ifs with hfirst
      · -- the merged batch keeps its cycle and model
        rcases h with hsum | ⟨held, hmem, hkey⟩
        · refine ⟨_, List.mem_cons_self, ?_⟩
          rw [sameKey_iff] at hfirst hsum ⊢
          exact ⟨hfirst.1.trans hsum.1, hfirst.2.trans hsum.2⟩
        · rcases List.mem_cons.mp hmem with rfl | hrest
          · exact ⟨_, List.mem_cons_self, hkey⟩
          · exact ⟨held, List.mem_cons_of_mem _ hrest, hkey⟩
      · rcases h with hsum | ⟨held, hmem, hkey⟩
        · obtain ⟨found, hfound, hkey⟩ := ih (.inl hsum)
          exact ⟨found, List.mem_cons_of_mem _ hfound, hkey⟩
        · rcases List.mem_cons.mp hmem with rfl | hrest
          · exact ⟨_, List.mem_cons_self, hkey⟩
          · obtain ⟨found, hfound, hkey⟩ := ih (.inr ⟨held, hrest, hkey⟩)
            exact ⟨found, List.mem_cons_of_mem _ hfound, hkey⟩

/-- The batch may be added behind, or is merged. -/
def Joins (usage : List UsageSum) (sum : UsageSum) : Prop :=
  (∃ held ∈ usage, held.sameKey sum = true) ∨ ∀ held ∈ usage, held.usageId < sum.usageId

theorem batch_pairwise {sum : UsageSum} {usage : List UsageSum}
    (husage : usage.Pairwise fun a b => a.usageId < b.usageId) (hjoins : Joins usage sum) :
    (batch sum usage).Pairwise fun a b => a.usageId < b.usageId := by
  have hids := List.pairwise_map.mpr husage
  rcases hjoins with ⟨held, hmem, hkey⟩ | hyounger
  · refine List.pairwise_map.mp ?_
    rw [batch_ids_of_mem hmem hkey]
    exact hids
  · refine List.pairwise_map.mp (List.Pairwise.sublist (batch_ids sum usage) ?_)
    refine List.pairwise_append.mpr ⟨hids, List.pairwise_singleton _ _, ?_⟩
    intro id hid last hlast
    obtain ⟨held, hheld, rfl⟩ := List.mem_map.mp hid
    obtain rfl := List.mem_singleton.mp hlast
    exact hyounger held hheld

/-- What joins the batches, joins them after an older one or one it is merged with. -/
theorem Joins.batch {sum other : UsageSum} {usage : List UsageSum} (h : Joins usage other)
    (hsum : sum.sameKey other = true ∨ sum.usageId < other.usageId) :
    Joins (LedgerBuffer.batch sum usage) other := by
  rcases h with hheld | hyounger
  · exact .inl (batch_keys (.inr hheld))
  · rcases hsum with hkey | holder
    · exact .inl (batch_keys (.inl hkey))
    · refine .inr ?_
      intro held hheld
      have hmem := (batch_ids sum usage).subset (List.mem_map_of_mem hheld)
      rcases List.mem_append.mp hmem with hold | hnew
      · obtain ⟨before, hbefore, heq⟩ := List.mem_map.mp hold
        exact heq ▸ hyounger before hbefore
      · rw [List.mem_singleton.mp hnew]
        exact holder

theorem batches_pairwise {sums usage : List UsageSum}
    (husage : usage.Pairwise fun a b => a.usageId < b.usageId)
    (hsums : sums.Pairwise fun a b => a.sameKey b = true ∨ a.usageId < b.usageId)
    (hjoins : ∀ sum ∈ sums, Joins usage sum) :
    (sums.foldl (fun usage sum => batch sum usage) usage).Pairwise
      fun a b => a.usageId < b.usageId := by
  induction sums generalizing usage with
  | nil => exact husage
  | cons sum sums ih =>
      obtain ⟨hfirst, hrest⟩ := List.pairwise_cons.mp hsums
      obtain ⟨hjoin, hjoins⟩ := List.forall_mem_cons.mp hjoins
      refine ih (batch_pairwise husage hjoin) hrest ?_
      intro other hother
      exact (hjoins other hother).batch (hfirst other hother)

/-- The batch of a usage entry has the id of the entry. -/
theorem usageId_of_proper {entry : BufferedReport} {sum : UsageSum} (h : entry.Proper)
    (husage : usageOf entry = some sum) :
    entry.kind.stream = .usage ∧ sum.usageId = entry.serial := by
  obtain ⟨hkind, hpayload⟩ := usageOf_eq husage
  obtain ⟨sum', hsum', hserial, -⟩ := h hkind
  rw [hpayload] at hsum'
  cases hsum'
  exact ⟨by rw [hkind]; rfl, hserial⟩

/-- The batches of usage entries are in the order of the entries. -/
theorem sums_pairwise (hproper : ∀ entry ∈ entries, entry.Proper)
    (hfollows : entries.Pairwise Follows) :
    (entries.filterMap usageOf).Pairwise
      fun a b => a.sameKey b = true ∨ a.usageId < b.usageId := by
  refine List.Pairwise.filterMap usageOf ?_ (List.Pairwise.and_mem.mp hfollows)
  rintro a b ⟨ha, hb, hab⟩ sum hsum sum' hsum'
  obtain ⟨hstream, hid⟩ := usageId_of_proper (hproper a ha) hsum
  obtain ⟨hstream', hid'⟩ := usageId_of_proper (hproper b hb) hsum'
  have hab := hab (hstream.trans hstream'.symm)
  rw [hid, hid']
  simpa only [BufferedReport.sameBatch, hsum, hsum'] using hab

theorem InOrder.putBack (h : InOrder s) (hproper : ∀ entry ∈ entries, entry.Proper)
    (hfollows : entries.Pairwise Follows) (hfits : ∀ entry ∈ entries, s.Fits entry)
    (hput : PutBack s s' entries) : InOrder s' := by
  have hledger : ∀ entry ∈ entries.filter (fun entry => entry.kind.isLedger), s.Fits entry :=
    fun entry hentry => hfits entry (List.mem_of_mem_filter hentry)
  constructor
  case queue =>
    refine List.Pairwise.sublist hput.queue
      (pairwise_front .reports (by decide) _ ?_ hfollows h.queue ?_)
    · intro entry hentry
      exact ReportKind.stream_of_report (by simpa using hentry)
    · intro entry hentry hstream
      have hfit := hfits entry hentry
      rwa [Fits, hstream] at hfit
  case actions =>
    rw [hput.ledger]
    refine pairwise_front .actions (by decide) _ ?_ (hfollows.filter _) h.actions ?_
    · intro entry hentry
      rw [eq_of_beq hentry]
      rfl
    · intro entry hentry hstream
      have hfit := hledger entry hentry
      rwa [Fits, hstream] at hfit
  case traces =>
    rw [hput.ledger]
    refine pairwise_front .traces (by decide) _ ?_ (hfollows.filter _) h.traces ?_
    · intro entry hentry
      rw [eq_of_beq hentry]
      rfl
    · intro entry hentry hstream
      have hfit := hledger entry hentry
      rwa [Fits, hstream] at hfit
  case usage =>
    rw [hput.ledger]
    have hsums := sums_pairwise
      (fun entry hentry => hproper entry (List.mem_of_mem_filter hentry))
      (hfollows.filter fun entry => entry.kind.isLedger)
    refine batches_pairwise h.usage hsums ?_
    intro sum hsum
    obtain ⟨entry, hentry, husage⟩ := List.mem_filterMap.mp hsum
    obtain ⟨hstream, hserial⟩ :=
      usageId_of_proper (hproper entry (List.mem_of_mem_filter hentry)) husage
    have hfit := hledger entry hentry
    rw [Fits, hstream] at hfit
    rcases hfit with ⟨held, hheld, sum', hsum', hkey⟩ | hyounger
    · obtain rfl : sum = sum' := by simpa [husage] using hsum'
      exact .inl ⟨held, hheld, hkey⟩
    · exact .inr fun held hheld => hserial ▸ hyounger held hheld
  case sending => exact h.sending.sublist hput.sending

/-- Only what is in flight goes back. -/
theorem back_subset (s : Custody) (e : CustodyEvent) : s.back e ⊆ s.inFlight.map Prod.snd := by
  cases e with
  | sendFails hash =>
      simp only [back]
      split_ifs
      · exact List.nil_subset _
      · exact List.Subset.refl _
  | endSession hash =>
      simp only [back]
      split_ifs
      · exact List.Subset.refl _
      · exact List.nil_subset _
  | inbound messageType ack =>
      simp only [back]
      split_ifs
      · unfold rejected
        split
        next messageType id =>
          split_ifs
          · split
            next => exact List.nil_subset _
            next entry hlookup =>
              obtain ⟨l₁, l₂, hsplit, -⟩ := List.lookup_eq_some_iff.mp hlookup
              split_ifs
              · simp [hsplit]
              · exact List.nil_subset _
          · exact List.nil_subset _
        next => exact List.nil_subset _
      · exact List.nil_subset _
  | _ => exact List.nil_subset _

theorem InOrder.goesBack (h : InOrder s) (hproper : Proper s) (hage : s.InAge e)
    (hback : GoesBack s e) : InOrder (s.step e) := by
  obtain ⟨entries, hperm, hsorted, hput⟩ := hback
  refine h.putBack ?_ (follows_of_timed hperm hage.1 hsorted) ?_ hput
  · intro entry hentry
    exact hproper.inFlight entry (back_subset s e (hperm.subset hentry))
  · intro entry hentry
    exact hage.2 entry (hperm.subset hentry)

/-! ### What is new, and what is sent -/

theorem Sound.held_lt (h : Sound s) {record : Nat} (hrecord : record ∈ s.held) :
    record < s.minted := by
  have hmem : record ∈ s.places := by simp [places, hrecord]
  rw [h.placed] at hmem
  exact Multiset.mem_range.mp hmem

/-- Everything held is older than what comes next. -/
structure Old (s : Custody) : Prop where
  queue : ∀ entry ∈ s.queue.entries, entry.serial < s.minted
  actions : ∀ entry ∈ s.ledger.actions, entry.serial < s.minted
  traces : ∀ entry ∈ s.ledger.traces, entry.serial < s.minted
  usage : ∀ sum ∈ s.ledger.usage, sum.usageId < s.minted

theorem old (h : Sound s) (hproper : Proper s) : Old s := by
  have hserial {entry : BufferedReport} {entries : List BufferedReport} (hmem : entry ∈ entries)
      (hentry : entry.kind ≠ .tokenUsage) : entry.serial ∈ recordsOf entries :=
    mem_recordsOf.mpr ⟨entry, hmem, by simp [records_of_ne hentry]⟩
  constructor
  case queue =>
    intro entry hentry
    have hkind : entry.kind ≠ .tokenUsage := by
      intro heq
      have hreport := hproper.queue entry hentry
      rw [heq] at hreport
      cases hreport
    exact h.held_lt (by simp [held, hserial hentry hkind])
  case actions =>
    intro entry hentry
    have hmem := hserial hentry (by simp [hproper.actions entry hentry])
    exact h.held_lt (by simp [held, LedgerBuffer.records, hmem])
  case traces =>
    intro entry hentry
    have hmem := hserial hentry (by simp [hproper.traces entry hentry])
    exact h.held_lt (by simp [held, LedgerBuffer.records, hmem])
  case usage =>
    intro sum hsum
    have hmem : sum.usageId ∈ sumsOf s.ledger.usage := by
      simp only [sumsOf, Multiset.mem_coe, List.mem_flatMap]
      exact ⟨sum, hsum, hproper.usage sum hsum⟩
    exact h.held_lt (by simp [held, LedgerBuffer.records, hmem])

/-- A new entry behind older ones. -/
theorem pairwise_behind {held : List BufferedReport} {new : BufferedReport}
    (hheld : held.Pairwise fun a b => a.serial < b.serial)
    (hnew : ∀ entry ∈ held, entry.serial < new.serial) :
    (held ++ [new]).Pairwise fun a b => a.serial < b.serial := by
  refine List.pairwise_append.mpr ⟨hheld, List.pairwise_singleton _ _, ?_⟩
  intro entry hentry last hlast
  obtain rfl := List.mem_singleton.mp hlast
  exact hnew entry hentry

theorem InOrder.pushed (h : InOrder s) (hold : ∀ entry ∈ s.ledger.actions, entry.serial < s.minted)
    {ledger : LedgerBuffer} {payload : Value} {at_ : DateTime} {minted : Nat}
    (hpush : s.ledger.tryPushAction s.minted payload at_ = some ledger) :
    InOrder { s with ledger, minted } := by
  obtain ⟨-, rfl⟩ := LedgerBuffer.tryPushAction_inv hpush
  exact ⟨h.queue, pairwise_behind h.actions hold, h.traces, h.usage, h.sending⟩

theorem InOrder.pushAction (h : InOrder s)
    (hold : ∀ entry ∈ s.ledger.actions, entry.serial < s.minted) (payload : Value)
    (at_ : DateTime) : InOrder (s.step (.pushAction payload at_)) := by
  simp only [step]
  split
  next => exact h
  next ledger hpush => exact h.pushed hold hpush

theorem InOrder.flushReports (h : InOrder s) (at_ : DateTime) :
    InOrder (s.step (.flushReports at_)) := by
  simp only [step]
  split_ifs
  · refine ⟨h.queue.sublist (List.drop_sublist _ _), h.actions, h.traces, h.usage, ?_⟩
    have htaken := h.queue.sublist (List.take_sublist (min s.queue.entries.length
      s.queue.entries.length) s.queue.entries)
    exact List.pairwise_map.mpr (htaken.imp fun hab => before_of_lt hab)
  · exact h

/-- The streams of the ledger are sent one after the other, each in its order. -/
theorem InOrder.flushLedger (h : InOrder s) (hproper : Proper s) (at_ : DateTime) :
    InOrder (s.step (.flushLedger at_)) := by
  simp only [step]
  split_ifs
  · refine ⟨h.queue, List.Pairwise.nil, List.Pairwise.nil, List.Pairwise.nil, ?_⟩
    have hother {a b : BufferedReport} (hne : a.kind.stream ≠ b.kind.stream) : Before a b :=
      fun heq => absurd heq hne
    have hfirst : (s.ledger.actions ++ s.ledger.traces).Pairwise Before := by
      refine List.pairwise_append.mpr
        ⟨h.actions.imp before_of_lt, h.traces.imp before_of_lt, ?_⟩
      intro action haction trace htrace
      refine hother ?_
      rw [hproper.actions action haction, hproper.traces trace htrace]
      simp [ReportKind.stream]
    have husage : (s.ledger.usage.map (LedgerBuffer.materialize at_)).Pairwise Before :=
      List.pairwise_map.mpr (h.usage.imp fun hab => before_of_lt hab)
    refine List.pairwise_map.mpr (List.pairwise_append.mpr ⟨hfirst, husage, ?_⟩)
    intro entry hentry usage hmem
    obtain ⟨sum, -, rfl⟩ := List.mem_map.mp hmem
    refine hother ?_
    rcases List.mem_append.mp hentry with haction | htrace
    · rw [BufferedReport.attempt_kind, hproper.actions entry haction]
      simp [ReportKind.stream, LedgerBuffer.materialize, BufferedReport.fresh]
    · rw [BufferedReport.attempt_kind, hproper.traces entry htrace]
      simp [ReportKind.stream, LedgerBuffer.materialize, BufferedReport.fresh]
  · exact h

theorem InOrder.step (h : InOrder s) (hsound : Sound s) (hproper : Proper s) (hage : s.InAge e) :
    InOrder (s.step e) := by
  have hold := old hsound hproper
  cases e with
  | enqueue kind report payload at_ =>
      refine ⟨?_, h.actions, h.traces, h.usage, h.sending⟩
      exact (pairwise_behind h.queue hold.queue).sublist (s.queue.enqueue_sublist _ _ _ _)
  | pushAction payload at_ => exact h.pushAction hold.actions payload at_
  | forceAction payload at_ =>
      have hsacrificed : InOrder s.makeRoom :=
        ⟨h.queue, h.actions.sublist (List.drop_sublist _ _), h.traces, h.usage, h.sending⟩
      refine hsacrificed.pushAction ?_ payload at_
      exact fun entry hentry => hold.actions entry (List.mem_of_mem_drop hentry)
  | pushTrace payload at_ =>
      obtain ⟨payload', hsublist⟩ := s.ledger.pushTrace_traces s.minted payload at_
      refine ⟨h.queue, h.actions, ?_, h.usage, h.sending⟩
      exact (pairwise_behind h.traces hold.traces).sublist hsublist
  | pushUsage usage =>
      refine ⟨h.queue, h.actions, h.traces, ?_, h.sending⟩
      exact batch_pairwise h.usage (.inr hold.usage)
  | flushReports at_ => exact h.flushReports at_
  | flushLedger at_ => exact h.flushLedger hproper at_
  | send =>
      simp only [Custody.step]
      split
      next => exact h
      next entry rest hsending =>
        refine ⟨h.queue, h.actions, h.traces, h.usage, ?_⟩
        exact (List.pairwise_cons.mp (hsending ▸ h.sending)).2
  | sendFails hash => exact h.goesBack hproper hage (s.goesBack_sendFails hash)
  | inbound messageType ack => exact h.goesBack hproper hage (s.goesBack_inbound messageType ack)
  | endSession hash => exact h.goesBack hproper hage (s.goesBack_endSession hash)

/-- **The buffers are in order of age, and are sent in it**, in every run in which what goes back
is in age. -/
theorem custody_in_order {capacity : Nat} {events : List CustodyEvent}
    (h : Machine.Every Custody.step InAge (start capacity) events) :
    InOrder (after capacity events) := by
  have hall : Sound (after capacity events) ∧ Proper (after capacity events) ∧
      InOrder (after capacity events) := by
    apply h.invariant (I := fun s => Sound s ∧ Proper s ∧ InOrder s)
    · refine ⟨sound_start capacity, proper_start capacity, ?_⟩
      constructor <;> exact List.Pairwise.nil
    · rintro s e ⟨hsound, hproper, horder⟩ hage
      exact ⟨hsound.step e, hproper.step e, horder.step hsound hproper hage⟩
  exact hall.2.2

/-- Two reports are enqueued, a time apart, and sent. -/
def twoSent (apart : Int) : List CustodyEvent :=
  [.enqueue .activities rfl .null ⟨0⟩, .enqueue .activities rfl .null ⟨apart⟩, .flushReports ⟨1⟩,
    .send, .send]

/-- The session ends, and the map is in the other order. -/
def sessionLost : CustodyEvent := .endSession fun id => 1 - id

/-- The cloud rejects a message. -/
def rejects (id : Nat) : CustodyEvent := .inbound (some .ingestAck) (some ⟨some id, false⟩)

theorem custody_in_order_apart :
    Machine.Every Custody.step InAge (start 8) (twoSent 1 ++ [sessionLost]) ∧
      InOrder (after 8 (twoSent 1 ++ [sessionLost])) :=
  ⟨by decide, custody_in_order (by decide)⟩

theorem not_inOrder (h : s.queue.entries.map BufferedReport.serial = [1, 0]) : ¬ InOrder s := by
  intro horder
  have hserials := List.pairwise_map.mpr horder.queue
  rw [h] at hserials
  simp at hserials

/-- The reports come back in the wrong order when the older one is rejected first, and may when
they have the same time. -/
theorem order_not_kept :
    ¬ InOrder (after 8 (twoSent 1 ++ [rejects 0, rejects 1])) ∧
      ¬ InOrder (after 8 (twoSent 0 ++ [sessionLost])) :=
  ⟨not_inOrder (by decide), not_inOrder (by decide)⟩

end Custody
end Argus
