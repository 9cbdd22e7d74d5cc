import Argus.Domain.Authorization
import Argus.Lib.Keyed
import Argus.Lib.Machine
import Mathlib.Data.List.Perm.Basic

/-!
# Correlating events into situations

Events of one key that follow each other within the window are members of one situation. The
correlator compares an event with the last one it was given, whichever came first in time: an
event that arrives late joins however old it is, and takes the last event's place as the latest.
Where no event that joins is earlier than the latest of its situation, the situations are what
they say (`correlator_holds`).
-/

namespace Argus.Correlate

open Ieee (Datum)

/-- An event with enough metadata to correlate. -/
structure CorrelatedEvent where
  id : Uuid
  subject : ResourceId
  correlationKey : String
  timestamp : DateTime
  deriving DecidableEq

/-- A group of related events. -/
structure Situation where
  id : Uuid
  correlationKey : String
  members : List Uuid
  confidence : Datum
  firstSeen : DateTime
  lastSeen : DateTime
  deriving DecidableEq

/-- `open` holds each key once. -/
structure Correlator where
  opened : List Situation
  closed : List Situation
  window : Duration

namespace Correlator

/-- The nearest value in single precision. -/
def single (q : ℚ) : Datum := Ieee.round 24 (-149) 128 q

/-- An operation on a finite value; the others are passed through. -/
def onFinite (f : ℚ → Datum) : Datum → Datum
  | .finite q => f q
  | x => x

/-- `(1.0 - 1.0 / (member_count as f32 + 1.0)).clamp(0.0, 1.0)`. -/
def confidence (memberCount : ℕ) : Datum :=
  ((onFinite fun share => single (1 - share)) <| (onFinite fun n => single (1 / n)) <|
    (onFinite fun n => single (n + 1)) <| single memberCount).clamp 0 1

def new (window : Duration) : Correlator := ⟨[], [], window⟩

/-- The open situation of a key. -/
def openOf (c : Correlator) (key : String) : Option Situation :=
  Keyed.lookup Situation.correlationKey c.opened key

/-- The open situations without that of a key. -/
def without (c : Correlator) (key : String) : List Situation :=
  c.opened.filter fun s => s.correlationKey ≠ key

/-- What a situation is once the event has joined it. -/
def join (s : Situation) (event : CorrelatedEvent) : Situation :=
  { s with
    members := s.members ++ [event.id]
    lastSeen := event.timestamp
    confidence := confidence (s.members.length + 1) }

/-- The situation an event opens. -/
def opening (event : CorrelatedEvent) (id : Uuid) : Situation :=
  { id, correlationKey := event.correlationKey, members := [event.id], confidence := confidence 1
    firstSeen := event.timestamp, lastSeen := event.timestamp }

/-- Ingest one event: the id of the situation it joined or opened. `fresh` is the id that
`Uuid::new_v4` gives, if one is asked for. -/
def ingest (c : Correlator) (event : CorrelatedEvent) (fresh : Uuid) : Uuid × Correlator :=
  match c.openOf event.correlationKey with
  | some s =>
      if event.timestamp.since s.lastSeen ≤ c.window then
        (s.id, { c with
          opened := c.opened.map fun s' =>
            if s'.correlationKey = event.correlationKey then join s' event else s' })
      else
        (fresh, { c with
          opened := opening event fresh :: c.without event.correlationKey
          closed := c.closed ++ [s] })
  | none => (fresh, { c with opened := opening event fresh :: c.without event.correlationKey })

/-- Close a situation, moving it out of the open ones. -/
def close (c : Correlator) (id : Uuid) : Option Situation × Correlator :=
  match c.opened.find? fun s => s.id = id with
  | none => (none, c)
  | some found =>
      match c.openOf found.correlationKey with
      | none => (none, c)
      | some s =>
          (some s, { c with
            opened := c.without found.correlationKey
            closed := c.closed ++ [s] })

end Correlator

/-! ### Runs -/

/-- A call on the correlator. -/
inductive CorrelatorCall
  | ingest (event : CorrelatedEvent) (fresh : Uuid)
  | close (id : Uuid)

namespace Correlator

def step (c : Correlator) : CorrelatorCall → Correlator
  | .ingest event fresh => (c.ingest event fresh).2
  | .close id => (c.close id).2

/-- The events of a list of calls. -/
def ingested (calls : List CorrelatorCall) : List CorrelatedEvent :=
  calls.filterMap fun
    | .ingest event _ => some event
    | .close _ => none

/-- What a situation says of the events it stands for. -/
structure Describes (s : Situation) (events : List CorrelatedEvent) : Prop where
  members : s.members = events.map CorrelatedEvent.id
  key : ∀ event ∈ events, event.correlationKey = s.correlationKey
  least : ∃ event ∈ events, event.timestamp = s.firstSeen
  first_le : ∀ event ∈ events, s.firstSeen ≤ event.timestamp
  greatest : ∃ event ∈ events, event.timestamp = s.lastSeen
  le_last : ∀ event ∈ events, event.timestamp ≤ s.lastSeen

/-- One situation of a key is open at most, and the situations, open and closed, describe groups
that hold each event once. -/
structure SituationsHold (c : Correlator) (events : List CorrelatedEvent) : Prop where
  oneOpen : (c.opened.map Situation.correlationKey).Nodup
  grouped : ∃ groups : List (Situation × List CorrelatedEvent),
    (groups.map Prod.fst).Perm (c.opened ++ c.closed) ∧
    (∀ group ∈ groups, Describes group.1 group.2) ∧
    (groups.flatMap Prod.snd).Perm events

/-- The time is within the window of the situation's interval. -/
def InWindow (window : Duration) (s : Situation) (at_ : DateTime) : Prop :=
  s.firstSeen.since at_ ≤ window ∧ at_.since s.lastSeen ≤ window

/-- An event joins the open situation of its key exactly when it is within the window of it. -/
def JoinsInWindow (c : Correlator) : CorrelatorCall → Prop
  | .ingest event fresh => ∀ s, c.openOf event.correlationKey = some s →
      ((∃ s', (c.ingest event fresh).2.openOf event.correlationKey = some s' ∧
        s'.members = s.members ++ [event.id]) ↔ InWindow c.window s event.timestamp)
  | .close _ => True

/-- No event that passes the window test is earlier than the last of the open situation. -/
def InOrder (c : Correlator) : CorrelatorCall → Prop
  | .ingest event _ => ∀ s, c.openOf event.correlationKey = some s →
      event.timestamp.since s.lastSeen ≤ c.window → s.lastSeen ≤ event.timestamp
  | .close _ => True

variable {c : Correlator} {s : Situation} {event : CorrelatedEvent} {fresh : Uuid} {key : String}
  {events : List CorrelatedEvent}

/-! ### The open situations -/

theorem openOf_split (hnodup : (c.opened.map Situation.correlationKey).Nodup)
    (h : c.openOf key = some s) : ∃ before after, c.opened = before ++ s :: after ∧
      s.correlationKey = key ∧ ∀ s' ∈ before ++ after, s'.correlationKey ≠ key := by
  have hkey : s.correlationKey = key := Keyed.key_of_lookup h
  obtain ⟨before, after, hopened⟩ := List.append_of_mem (Keyed.mem_of_lookup h)
  refine ⟨before, after, hopened, hkey, fun s' hs' heq => ?_⟩
  rw [hopened, (List.perm_middle.map _).nodup_iff, List.map_cons, List.nodup_cons] at hnodup
  exact hnodup.1 (List.mem_map.mpr ⟨s', hs', heq.trans hkey.symm⟩)

theorem without_eq {before after : List Situation} (hopened : c.opened = before ++ s :: after)
    (hkey : s.correlationKey = key) (hothers : ∀ s' ∈ before ++ after, s'.correlationKey ≠ key) :
    c.without key = before ++ after := by
  rw [without, hopened, List.filter_append, List.filter_cons_of_neg (by simpa using hkey),
    ← List.filter_append]
  exact List.filter_eq_self.mpr fun s' hs' => by simpa using hothers s' hs'

theorem opened_perm (hnodup : (c.opened.map Situation.correlationKey).Nodup)
    (h : c.openOf key = some s) : c.opened.Perm (s :: c.without key) := by
  obtain ⟨before, after, hopened, hkey, hothers⟩ := openOf_split hnodup h
  rw [without_eq hopened hkey hothers, hopened]
  exact List.perm_middle

theorem joined_perm (hnodup : (c.opened.map Situation.correlationKey).Nodup)
    (h : c.openOf event.correlationKey = some s) :
    (c.opened.map fun s' =>
      if s'.correlationKey = event.correlationKey then join s' event else s').Perm
        (join s event :: c.without event.correlationKey) := by
  obtain ⟨before, after, hopened, hkey, hothers⟩ := openOf_split hnodup h
  have hsame : ∀ l : List Situation, (∀ s' ∈ l, s'.correlationKey ≠ event.correlationKey) →
      (l.map fun s' => if s'.correlationKey = event.correlationKey then join s' event else s')
        = l := fun l hl => by
    conv_rhs => rw [← List.map_id l]
    exact List.map_congr_left fun s' hs' => if_neg (hl s' hs')
  rw [without_eq hopened hkey hothers, hopened, List.map_append, List.map_cons, if_pos hkey,
    hsame before fun s' hs' => hothers s' (List.mem_append_left _ hs'),
    hsame after fun s' hs' => hothers s' (List.mem_append_right _ hs')]
  exact List.perm_middle

theorem without_of_none (h : c.openOf key = none) : c.without key = c.opened :=
  List.filter_eq_self.mpr fun s hs => by simpa using Keyed.lookup_eq_none_iff.mp h s hs

theorem nodup_cons_without (hnodup : (c.opened.map Situation.correlationKey).Nodup)
    (hkey : s.correlationKey = key) :
    ((s :: c.without key).map Situation.correlationKey).Nodup := by
  rw [List.map_cons, List.nodup_cons]
  refine ⟨fun hmem => ?_, hnodup.sublist (List.filter_sublist.map _)⟩
  obtain ⟨s', hs', heq⟩ := List.mem_map.mp hmem
  exact of_decide_eq_true (List.mem_filter.mp hs').2 (heq.trans hkey)

/-! ### What each call keeps -/

theorem Describes.first_le_last (h : Describes s events) : s.firstSeen ≤ s.lastSeen := by
  obtain ⟨event, hevent, hfirst⟩ := h.least
  exact hfirst ▸ h.le_last event hevent

theorem Describes.opening (event : CorrelatedEvent) (fresh : Uuid) :
    Describes (opening event fresh) [event] := by
  constructor <;> simp [Correlator.opening]

/-- An event that is not earlier than the last is the new last. -/
theorem Describes.join (h : Describes s events) (hkey : s.correlationKey = event.correlationKey)
    (horder : s.lastSeen ≤ event.timestamp) :
    Describes (Correlator.join s event) (events ++ [event]) where
  members := by simp [Correlator.join, h.members]
  key := by
    intro e he
    rcases List.mem_append.mp he with he | he
    · exact h.key e he
    · exact List.mem_singleton.mp he ▸ hkey.symm
  least := by
    obtain ⟨e, he, hfirst⟩ := h.least
    exact ⟨e, List.mem_append_left _ he, hfirst⟩
  first_le := by
    intro e he
    rcases List.mem_append.mp he with he | he
    · exact h.first_le e he
    · obtain rfl := List.mem_singleton.mp he
      exact h.first_le_last.trans horder
  greatest := ⟨event, by simp, rfl⟩
  le_last := by
    intro e he
    rcases List.mem_append.mp he with he | he
    · exact (h.le_last e he).trans horder
    · obtain rfl := List.mem_singleton.mp he
      exact le_rfl

/-- The group of a situation, and the others. -/
theorem exists_group {groups : List (Situation × List CorrelatedEvent)} {rest : List Situation}
    (h : (groups.map Prod.fst).Perm (s :: rest)) : ∃ group others,
      groups.Perm ((s, group) :: others) ∧ (others.map Prod.fst).Perm rest := by
  obtain ⟨⟨s', group⟩, hmem, rfl⟩ := List.mem_map.mp (h.mem_iff.mpr List.mem_cons_self)
  obtain ⟨before, after, rfl⟩ := List.append_of_mem hmem
  have hperm : (before ++ (s', group) :: after).Perm ((s', group) :: (before ++ after)) :=
    List.perm_middle
  exact ⟨group, before ++ after, hperm, ((hperm.map Prod.fst).symm.trans h).cons_inv⟩

/-- Moving a situation from the open to the closed ones changes no group. -/
theorem moved_perm (hnodup : (c.opened.map Situation.correlationKey).Nodup)
    (h : c.openOf key = some s) :
    (c.without key ++ (c.closed ++ [s])).Perm (c.opened ++ c.closed) := by
  refine List.Perm.trans ?_ ((opened_perm hnodup h).symm.append_right _)
  rw [← List.append_assoc, List.cons_append]
  exact List.perm_append_singleton _ _

theorem SituationsHold.openNew (h : SituationsHold c events) {closed : List Situation}
    (hperm : (c.without event.correlationKey ++ closed).Perm (c.opened ++ c.closed)) :
    SituationsHold ⟨opening event fresh :: c.without event.correlationKey, closed, c.window⟩
      (events ++ [event]) := by
  obtain ⟨groups, hgroups, hdescribes, hevents⟩ := h.grouped
  refine ⟨nodup_cons_without h.oneOpen rfl, (opening event fresh, [event]) :: groups, ?_, ?_, ?_⟩
  · exact (hgroups.trans hperm.symm).cons _
  · intro group hgroup
    rcases List.mem_cons.mp hgroup with rfl | hgroup
    · exact .opening event fresh
    · exact hdescribes group hgroup
  · rw [List.flatMap_cons]
    exact (hevents.cons event).trans (List.perm_append_singleton _ _).symm

theorem SituationsHold.joinOpen (h : SituationsHold c events)
    (hopen : c.openOf event.correlationKey = some s) (horder : s.lastSeen ≤ event.timestamp) :
    SituationsHold { c with
      opened := c.opened.map fun s' =>
        if s'.correlationKey = event.correlationKey then join s' event else s' }
      (events ++ [event]) := by
  obtain ⟨groups, hgroups, hdescribes, hevents⟩ := h.grouped
  have hkey : s.correlationKey = event.correlationKey := Keyed.key_of_lookup hopen
  have hjoined := joined_perm h.oneOpen hopen
  obtain ⟨group, others, hsplit, hothers⟩ :=
    exists_group (hgroups.trans ((opened_perm h.oneOpen hopen).append_right c.closed))
  have hgroup : Describes s group := hdescribes _ (hsplit.mem_iff.mpr List.mem_cons_self)
  refine ⟨?_, (join s event, group ++ [event]) :: others, ?_, ?_, ?_⟩
  · exact ((hjoined.map _).nodup_iff).mpr (nodup_cons_without h.oneOpen hkey)
  · exact (hothers.cons _).trans (hjoined.append_right c.closed).symm
  · intro group' hgroup'
    rcases List.mem_cons.mp hgroup' with rfl | hgroup'
    · exact hgroup.join hkey horder
    · exact hdescribes group' (hsplit.mem_iff.mpr (List.mem_cons_of_mem _ hgroup'))
  · have hold : (group ++ others.flatMap Prod.snd).Perm events :=
      (hsplit.flatMap_right Prod.snd).symm.trans hevents
    rw [List.flatMap_cons, List.append_assoc]
    refine List.Perm.trans ?_ (hold.append_right [event])
    rw [List.append_assoc]
    exact List.perm_append_comm.append_left group

theorem SituationsHold.new (window : Duration) : SituationsHold (new window) [] :=
  ⟨List.nodup_nil, [], by simp [Correlator.new], by simp, by simp⟩

theorem ingest_join (hopen : c.openOf event.correlationKey = some s)
    (hwindow : event.timestamp.since s.lastSeen ≤ c.window) :
    c.ingest event fresh = (s.id, { c with
      opened := c.opened.map fun s' =>
        if s'.correlationKey = event.correlationKey then join s' event else s' }) := by
  rw [ingest, hopen]
  exact if_pos hwindow

theorem ingest_elapsed (hopen : c.openOf event.correlationKey = some s)
    (hwindow : ¬ event.timestamp.since s.lastSeen ≤ c.window) :
    c.ingest event fresh = (fresh, { c with
      opened := opening event fresh :: c.without event.correlationKey
      closed := c.closed ++ [s] }) := by
  rw [ingest, hopen]
  exact if_neg hwindow

theorem ingest_first (hopen : c.openOf event.correlationKey = none) :
    c.ingest event fresh = (fresh, { c with
      opened := opening event fresh :: c.without event.correlationKey }) := by
  rw [ingest, hopen]

theorem SituationsHold.ingest (h : SituationsHold c events)
    (horder : c.InOrder (.ingest event fresh)) :
    SituationsHold (c.ingest event fresh).2 (events ++ [event]) := by
  cases hopen : c.openOf event.correlationKey with
  | none =>
      rw [ingest_first hopen]
      exact h.openNew (by rw [without_of_none hopen])
  | some s =>
      by_cases hwindow : event.timestamp.since s.lastSeen ≤ c.window
      · rw [ingest_join hopen hwindow]
        exact h.joinOpen hopen (horder s hopen hwindow)
      · rw [ingest_elapsed hopen hwindow]
        exact h.openNew (moved_perm h.oneOpen hopen)

theorem SituationsHold.close (h : SituationsHold c events) (id : Uuid) :
    SituationsHold (c.close id).2 events := by
  unfold Correlator.close
  split
  · exact h
  · split
    · exact h
    · rename_i found _ _ s hopen
      obtain ⟨groups, hgroups, hdescribes, hevents⟩ := h.grouped
      refine ⟨h.oneOpen.sublist (List.filter_sublist.map _), groups, ?_, hdescribes, hevents⟩
      exact hgroups.trans (moved_perm h.oneOpen hopen).symm

/-- An open situation describes a group of events. -/
theorem SituationsHold.describes (h : SituationsHold c events) (hopen : c.openOf key = some s) :
    ∃ group, Describes s group := by
  obtain ⟨groups, hgroups, hdescribes, -⟩ := h.grouped
  have hmem : s ∈ groups.map Prod.fst :=
    hgroups.mem_iff.mpr (List.mem_append_left _ (Keyed.mem_of_lookup hopen))
  obtain ⟨group, hgroup, rfl⟩ := List.mem_map.mp hmem
  exact ⟨group.2, hdescribes _ hgroup⟩

theorem Describes.members_ne_nil (h : Describes s events) : s.members ≠ [] := by
  obtain ⟨event, hevent, -⟩ := h.least
  rw [h.members, Ne, List.map_eq_nil_iff]
  exact List.ne_nil_of_mem hevent

theorem SituationsHold.openOf_ingest_join (h : SituationsHold c events)
    (hopen : c.openOf event.correlationKey = some s)
    (hwindow : event.timestamp.since s.lastSeen ≤ c.window) :
    (c.ingest event fresh).2.openOf event.correlationKey = some (join s event) := by
  have hkey : s.correlationKey = event.correlationKey := Keyed.key_of_lookup hopen
  have hjoined := joined_perm h.oneOpen hopen
  have hnodup := ((hjoined.map _).nodup_iff).mpr (nodup_cons_without h.oneOpen hkey)
  have hlookup := Keyed.lookup_of_mem hnodup (hjoined.mem_iff.mpr List.mem_cons_self)
  rw [show (join s event).correlationKey = event.correlationKey from hkey] at hlookup
  rw [ingest_join hopen hwindow]
  exact hlookup

theorem openOf_ingest_elapsed (hopen : c.openOf event.correlationKey = some s)
    (hwindow : ¬ event.timestamp.since s.lastSeen ≤ c.window) :
    (c.ingest event fresh).2.openOf event.correlationKey = some (opening event fresh) := by
  rw [ingest_elapsed hopen hwindow, openOf, Keyed.lookup_cons]
  exact if_pos rfl

theorem SituationsHold.joinsInWindow (h : SituationsHold c events) {call : CorrelatorCall}
    (horder : c.InOrder call) : c.JoinsInWindow call := by
  cases call with
  | close id => trivial
  | ingest event fresh =>
      intro s hopen
      obtain ⟨group, hgroup⟩ := h.describes hopen
      by_cases hwindow : event.timestamp.since s.lastSeen ≤ c.window
      · refine iff_of_true ⟨_, h.openOf_ingest_join hopen hwindow, rfl⟩ ⟨?_, hwindow⟩
        have hlast := DateTime.le_def.mp (horder s hopen hwindow)
        have hfirst := (DateTime.le_def.mp hgroup.first_le_last).trans hlast
        exact (Int.sub_nonpos_of_le hfirst).trans ((Int.sub_nonneg_of_le hlast).trans hwindow)
      · refine iff_of_false ?_ fun hin => hwindow hin.2
        rintro ⟨s', hopen', hmembers⟩
        obtain rfl := Option.some.inj ((openOf_ingest_elapsed hopen hwindow).symm.trans hopen')
        have hnil : s.members = [] := by simpa [opening] using hmembers
        exact hgroup.members_ne_nil hnil

/-! ### Runs in order -/

theorem SituationsHold.call (h : SituationsHold c events) {call : CorrelatorCall}
    (horder : c.InOrder call) : SituationsHold (c.step call) (events ++ ingested [call]) := by
  cases call with
  | ingest event fresh => exact h.ingest horder
  | close id => simpa [ingested, Correlator.step] using h.close id

/-- A run from situations that hold, in which no event that joins is out of order. -/
theorem SituationsHold.calls (h : SituationsHold c events) {calls : List CorrelatorCall}
    (horder : Machine.Every step InOrder c calls) :
    (∀ n, SituationsHold (Machine.run step c (calls.take n))
      (events ++ ingested (calls.take n))) ∧ Machine.Every step JoinsInWindow c calls := by
  induction calls generalizing c events with
  | nil => exact ⟨fun n => by simpa [ingested] using h, trivial⟩
  | cons call calls ih =>
      obtain ⟨hall, hjoins⟩ := ih (h.call horder.1) horder.2
      refine ⟨fun n => ?_, h.joinsInWindow horder.1, hjoins⟩
      cases n with
      | zero => simpa [ingested] using h
      | succ n =>
          have hn := hall n
          rw [List.append_assoc, ingested, ingested, ← List.filterMap_append] at hn
          exact hn

/-- In every run in which no event that joins is earlier than the last of its situation, each
event is in one situation, of its key and within its bounds, one situation of a key is open, and
an event joins it exactly when it is within the window. -/
theorem correlator_holds (window : Duration) (calls : List CorrelatorCall)
    (h : Machine.Every step InOrder (new window) calls) :
    (∀ n, SituationsHold (Machine.run step (new window) (calls.take n))
      (ingested (calls.take n))) ∧ Machine.Every step JoinsInWindow (new window) calls :=
  (SituationsHold.new window).calls h

/-- Two events in order, half a minute apart, with a window of a minute. -/
def promptCalls : List CorrelatorCall :=
  [.ingest ⟨1, ⟨"service:a"⟩, "app:a", ⟨0⟩⟩ 7,
    .ingest ⟨2, ⟨"service:a"⟩, "app:a", ⟨30000000000⟩⟩ 8]

theorem correlator_holds_prompt :
    (∀ n, SituationsHold (Machine.run step (new (minutes 1)) (promptCalls.take n))
      (ingested (promptCalls.take n))) ∧
    Machine.Every step JoinsInWindow (new (minutes 1)) promptCalls := by
  refine correlator_holds (minutes 1) promptCalls ⟨fun s hs => ?_, fun s hs _ => ?_, trivial⟩
  · cases hs
  · obtain rfl := Option.some.inj hs
    decide

/-- An event an hour older than the open situation. -/
def lateCalls : List CorrelatorCall :=
  [.ingest ⟨1, ⟨"service:a"⟩, "app:a", ⟨3600000000000⟩⟩ 7,
    .ingest ⟨2, ⟨"service:a"⟩, "app:a", ⟨0⟩⟩ 8]

/-- It joins although the window is a minute. -/
theorem late_joins : ¬ ((∀ n, SituationsHold (Machine.run step (new (minutes 1))
      (lateCalls.take n)) (ingested (lateCalls.take n))) ∧
    Machine.Every step JoinsInWindow (new (minutes 1)) lateCalls) := by
  intro h
  obtain ⟨-, -, hjoins, -⟩ := h
  have hin := (hjoins _ rfl).mp ⟨_, rfl, rfl⟩
  exact absurd hin.1 (by decide)

end Correlator
end Argus.Correlate
