import Argus.Daemon.Sentinel
import Argus.Lib.Keyed
import Argus.Lib.Machine

/-!
# Incidents

An incident goes from `open` to `closed`, and what is observed again under the key of one that is
not closed yet attaches to it.

What the manager is for is one slot for each key, which holds the incident that is under way: an
observation fills an empty slot, a transition moves the incident in it along, and closing empties
it. `slots_run` is the refinement: whatever the order in which the map hands its entries out, the
manager answers as the slots do. `lifecycle_run` says that an incident only climbs, and so has four
transitions in its life at most.
-/

namespace Argus.Incidents

open Machine (Every run)

/-! ### The manager -/

inductive IncidentStatus
  | open
  | investigating
  | mitigated
  | resolved
  | closed
  deriving DecidableEq

structure Incident where
  id : Uuid
  /-- What observations of one condition have in common. -/
  dedupKey : String
  severity : Severity
  status : IncidentStatus
  startedAt : DateTime
  affected : List ResourceId
  detectionSource : String
  rootCause : Option String
  resolution : Option String
  impact : Option String

inductive IncidentError
  | unknownId (id : Uuid)
  | invalidTransition (before after : IncidentStatus)
  deriving DecidableEq

/-- The transitions that neither skip nor reverse the order. -/
def validTransition : IncidentStatus → IncidentStatus → Bool
  | .open, .investigating | .open, .closed | .investigating, .mitigated
  | .investigating, .resolved | .mitigated, .resolved | .resolved, .closed => true
  | _, _ => false

/-- The incidents, in the order in which the map hands them out. -/
structure IncidentManager where
  incidents : List Incident
  distinct : (incidents.map Incident.id).Nodup

namespace IncidentManager

def new : IncidentManager := ⟨[], List.nodup_nil⟩

/-- The incident is one of the key that is not closed. -/
def isOpen (dedupKey : String) (incident : Incident) : Bool :=
  incident.dedupKey == dedupKey && incident.status != .closed

/-- The map's `insert`. -/
def insert (manager : IncidentManager) (incident : Incident) : IncidentManager where
  incidents := Keyed.upsert Incident.id incident manager.incidents
  distinct := Keyed.nodup_upsert manager.distinct

/-- Opens an incident, unless one with the key is open. `fresh` is the identifier that is drawn. -/
def «open» (manager : IncidentManager) (dedupKey : String) (severity : Severity)
    (affected : List ResourceId) (source : String) (now : DateTime) (fresh : Uuid) :
    (Uuid × Bool) × IncidentManager :=
  match manager.incidents.find? (isOpen dedupKey) with
  | some existing => ((existing.id, false), manager)
  | none =>
      ((fresh, true), manager.insert
        { id := fresh
          dedupKey
          severity
          status := .open
          startedAt := now
          affected
          detectionSource := source
          rootCause := none
          resolution := none
          impact := none })

def get (manager : IncidentManager) (id : Uuid) : Option Incident :=
  Keyed.lookup Incident.id manager.incidents id

/-- What a caller does to an incident through `get_mut`, if it leaves the identifier. -/
def edit (manager : IncidentManager) (id : Uuid) (f : Incident → Incident)
    (hf : ∀ incident, (f incident).id = incident.id) : IncidentManager where
  incidents := manager.incidents.map fun incident =>
    if incident.id = id then f incident else incident
  distinct := by
    rw [List.map_map]
    convert manager.distinct using 2
    funext incident
    dsimp only [Function.comp]
    split_ifs <;> simp [hf]

/-- Advances an incident. -/
def transition (manager : IncidentManager) (id : Uuid) (status : IncidentStatus) :
    Except IncidentError Unit × IncidentManager :=
  match manager.get id with
  | none => (.error (.unknownId id), manager)
  | some incident =>
      if validTransition incident.status status then
        (.ok (), manager.edit id (fun incident => { incident with status }) fun _ => rfl)
      else (.error (.invalidTransition incident.status status), manager)

def openIncidents (manager : IncidentManager) : List Incident :=
  manager.incidents.filter fun incident => incident.status != .closed

end IncidentManager

/-! ### Runs -/

/-- A call of the manager. -/
inductive Call
  | open (dedupKey : String) (severity : Severity) (affected : List ResourceId) (source : String)
    (now : DateTime) (fresh : Uuid)
  | transition (id : Uuid) (status : IncidentStatus)
  | edit (id : Uuid) (f : Incident → Incident)
    (hf : ∀ incident, (f incident).id = incident.id)

def step (manager : IncidentManager) : Call → IncidentManager
  | .open dedupKey severity affected source now fresh =>
      (manager.open dedupKey severity affected source now fresh).2
  | .transition id status => (manager.transition id status).2
  | .edit id f hf => manager.edit id f hf

/-- What is drawn is new, and what is edited keeps its key and its status. -/
def Admissible (manager : IncidentManager) : Call → Prop
  | .open _ _ _ _ _ fresh => ∀ incident ∈ manager.incidents, incident.id ≠ fresh
  | .transition _ _ => True
  | .edit _ f _ => ∀ incident,
      (f incident).dedupKey = incident.dedupKey ∧ (f incident).status = incident.status

/-! ### Slots -/

/-- For each key, the incident that is under way, and how far it is. -/
abbrev Slots := String → Option (Uuid × IncidentStatus)

namespace Slots

/-- What an observation is answered: the incident it attaches to, and whether that is new. -/
def answer (slots : Slots) (dedupKey : String) (fresh : Uuid) : Uuid × Bool :=
  match slots dedupKey with
  | some (id, _) => (id, false)
  | none => (fresh, true)

/-- The contents of a slot after a transition: closing empties it. -/
def advance (id : Uuid) (status : IncidentStatus) :
    Uuid × IncidentStatus → Option (Uuid × IncidentStatus)
  | (held, before) =>
      if held = id ∧ validTransition before status then
        if status = .closed then none else some (held, status)
      else some (held, before)

def step (slots : Slots) : Call → Slots
  | .open dedupKey _ _ _ _ fresh =>
      if (slots dedupKey).isSome then slots
      else Function.update slots dedupKey (some (fresh, .open))
  | .transition id status => fun dedupKey => (slots dedupKey).bind (advance id status)
  | .edit _ _ _ => slots

end Slots

/-- The incident under way for a key, as the manager has it. -/
def slotsOf (manager : IncidentManager) : Slots := fun dedupKey =>
  (manager.incidents.find? (IncidentManager.isOpen dedupKey)).map fun incident =>
    (incident.id, incident.status)

/-- No key has two incidents that are not closed. -/
def OnePerKey (manager : IncidentManager) : Prop :=
  ∀ a ∈ manager.incidents, ∀ b ∈ manager.incidents, a.status ≠ .closed → b.status ≠ .closed →
    a.dedupKey = b.dedupKey → a = b

section Refinement

variable {manager : IncidentManager} {dedupKey source : String} {id fresh : Uuid}
  {status : IncidentStatus} {severity : Severity} {affected : List ResourceId} {now : DateTime}
  {incident other : Incident} {call : Call} {calls : List Call}

theorem isOpen_iff : IncidentManager.isOpen dedupKey incident = true ↔
    incident.dedupKey = dedupKey ∧ incident.status ≠ .closed := by
  simp [IncidentManager.isOpen]

/-- A slot holds what the manager has there, whichever entry the map hands out first. -/
theorem slotsOf_eq_some_iff (h : OnePerKey manager) : slotsOf manager dedupKey = some (id, status) ↔
    ∃ incident ∈ manager.incidents, incident.dedupKey = dedupKey ∧ incident.status ≠ .closed ∧
      incident.id = id ∧ incident.status = status := by
  rw [slotsOf, Option.map_eq_some_iff]
  constructor
  · intro hfind
    obtain ⟨incident, hfind, heq⟩ := hfind
    have hopen := isOpen_iff.mp (List.find?_some hfind)
    cases heq
    exact ⟨incident, List.mem_of_find?_eq_some hfind, hopen.1, hopen.2, rfl, rfl⟩
  · intro hmem
    obtain ⟨incident, hmem, hkey, hstatus, rfl, rfl⟩ := hmem
    cases hfind : manager.incidents.find? (IncidentManager.isOpen dedupKey) with
    | none =>
        exact absurd (isOpen_iff.mpr ⟨hkey, hstatus⟩) (List.find?_eq_none.mp hfind incident hmem)
    | some first =>
        have hopen := isOpen_iff.mp (List.find?_some hfind)
        rw [h first (List.mem_of_find?_eq_some hfind) incident hmem hopen.2 hstatus
          (hopen.1.trans hkey.symm)]
        exact ⟨incident, rfl, rfl⟩

theorem get_eq_some_iff : manager.get id = some incident ↔
    incident ∈ manager.incidents ∧ incident.id = id := Keyed.lookup_eq_some_iff manager.distinct

/-- A new incident is beside those that are there. -/
theorem mem_insert (hfresh : ∀ other ∈ manager.incidents, other.id ≠ fresh)
    (hid : incident.id = fresh) :
    other ∈ (manager.insert incident).incidents ↔ other = incident ∨ other ∈ manager.incidents :=
  (Keyed.mem_upsert manager.distinct).trans
    (or_congr_right (and_iff_left_of_imp fun hmem => hid ▸ hfresh other hmem))

theorem mem_edit {f : Incident → Incident} {hf : ∀ incident, (f incident).id = incident.id} :
    other ∈ (manager.edit id f hf).incidents ↔
      ∃ incident ∈ manager.incidents, (if incident.id = id then f incident else incident) = other :=
  List.mem_map

/-- A transition is refused and changes nothing, or advances the incident that it names. -/
theorem transition_cases (manager : IncidentManager) (id : Uuid) (status : IncidentStatus) :
    ((manager.transition id status).2 = manager ∧ (manager.transition id status).1 ≠ .ok () ∧
        ∀ incident ∈ manager.incidents, incident.id = id →
          validTransition incident.status status = false) ∨
      ∃ incident ∈ manager.incidents, incident.id = id ∧
        validTransition incident.status status = true ∧ (manager.transition id status).1 = .ok () ∧
        (manager.transition id status).2 =
          manager.edit id (fun incident => { incident with status }) fun _ => rfl := by
  unfold IncidentManager.transition
  cases hget : manager.get id with
  | none =>
      refine .inl ⟨rfl, nofun, fun incident hmem hid => ?_⟩
      rw [get_eq_some_iff.mpr ⟨hmem, hid⟩] at hget
      cases hget
  | some incident =>
      obtain ⟨hmem, hid⟩ := get_eq_some_iff.mp hget
      by_cases hvalid : validTransition incident.status status = true
      · exact .inr ⟨incident, hmem, hid, hvalid, by simp [hvalid], by simp [hvalid]⟩
      · rw [Bool.not_eq_true] at hvalid
        refine .inl ⟨by simp [hvalid], by simp [hvalid], fun other hother hotherId => ?_⟩
        rw [get_eq_some_iff.mpr ⟨hother, hotherId⟩, Option.some.injEq] at hget
        rw [hget]
        exact hvalid

/-- An incident that may go on is not closed. -/
theorem ne_closed_of_valid {before : IncidentStatus} (h : validTransition before status = true) :
    before ≠ .closed := by
  rintro rfl
  cases status <;> cases h

/-! #### One incident for each key -/

/-- An edit that keeps the key, and brings no closed incident back, keeps the slots apart. -/
theorem OnePerKey.edit {f : Incident → Incident} {hf : ∀ incident, (f incident).id = incident.id}
    (h : OnePerKey manager)
    (hkey : ∀ incident ∈ manager.incidents, incident.id = id →
      (f incident).dedupKey = incident.dedupKey ∧
        ((f incident).status ≠ .closed → incident.status ≠ .closed)) :
    OnePerKey (manager.edit id f hf) := by
  have hback (incident : Incident) (hmem : incident ∈ manager.incidents) :
      (if incident.id = id then f incident else incident).dedupKey = incident.dedupKey ∧
        ((if incident.id = id then f incident else incident).status ≠ .closed →
          incident.status ≠ .closed) := by
    split_ifs with hid
    · exact hkey incident hmem hid
    · exact ⟨rfl, fun hopen => hopen⟩
  intro a ha b hb haopen hbopen hab
  obtain ⟨a', ha', rfl⟩ := mem_edit.mp ha
  obtain ⟨b', hb', rfl⟩ := mem_edit.mp hb
  obtain ⟨hakey, hastatus⟩ := hback a' ha'
  obtain ⟨hbkey, hbstatus⟩ := hback b' hb'
  rw [h a' ha' b' hb' (hastatus haopen) (hbstatus hbopen) (hakey.symm.trans (hab.trans hbkey))]

theorem OnePerKey.step (h : OnePerKey manager) (hcall : Admissible manager call) :
    OnePerKey (step manager call) := by
  cases call with
  | «open» dedupKey severity affected source now fresh =>
      unfold Incidents.step IncidentManager.open
      dsimp only
      cases hfind : manager.incidents.find? (IncidentManager.isOpen dedupKey) with
      | some existing => exact h
      | none =>
          -- nothing that is there is open under the key of what is new
          have hnone (incident : Incident) (hmem : incident ∈ manager.incidents)
              (hopen : incident.status ≠ .closed) : incident.dedupKey ≠ dedupKey := fun hkey =>
            List.find?_eq_none.mp hfind incident hmem (isOpen_iff.mpr ⟨hkey, hopen⟩)
          have hfresh : ∀ other ∈ manager.incidents, other.id ≠ fresh := hcall
          intro a ha b hb haopen hbopen hab
          rcases (mem_insert hfresh rfl).mp ha with rfl | ha
          · rcases (mem_insert hfresh rfl).mp hb with rfl | hb
            · rfl
            · exact absurd hab.symm (hnone b hb hbopen)
          · rcases (mem_insert hfresh rfl).mp hb with rfl | hb
            · exact absurd hab (hnone a ha haopen)
            · exact h a ha b hb haopen hbopen hab
  | transition id status =>
      change OnePerKey (manager.transition id status).2
      rcases transition_cases manager id status with
        ⟨hsame, -⟩ | ⟨incident, hmem, hid, hvalid, -, hnext⟩
      · rw [hsame]
        exact h
      · rw [hnext]
        refine h.edit fun other hother hotherId => ⟨rfl, fun _ => ?_⟩
        rw [List.inj_on_of_nodup_map manager.distinct hother hmem (hotherId.trans hid.symm)]
        exact ne_closed_of_valid hvalid
  | edit id f hf =>
      change OnePerKey (manager.edit id f hf)
      exact h.edit fun incident _ _ => ⟨(hcall incident).1, fun hopen => (hcall incident).2 ▸ hopen⟩

/-! #### The slots follow -/

theorem slotsOf_eq_none_iff : slotsOf manager dedupKey = none ↔
    ∀ incident ∈ manager.incidents, incident.dedupKey = dedupKey → incident.status = .closed := by
  simp [slotsOf, IncidentManager.isOpen]

/-- A slot that is filled has an incident of the manager. -/
theorem exists_of_slotsOf {slot : Uuid × IncidentStatus}
    (h : slotsOf manager dedupKey = some slot) :
    ∃ incident ∈ manager.incidents, incident.dedupKey = dedupKey ∧ incident.status ≠ .closed ∧
      slot = (incident.id, incident.status) := by
  obtain ⟨incident, hfind, rfl⟩ := Option.map_eq_some_iff.mp h
  have hopen := isOpen_iff.mp (List.find?_some hfind)
  exact ⟨incident, List.mem_of_find?_eq_some hfind, hopen.1, hopen.2, rfl⟩

/-- An observation fills the slot of its key, if that is empty. -/
theorem slotsOf_open (h : OnePerKey manager)
    (hfresh : ∀ incident ∈ manager.incidents, incident.id ≠ fresh) :
    slotsOf (manager.open dedupKey severity affected source now fresh).2 =
      (slotsOf manager).step (.open dedupKey severity affected source now fresh) := by
  have hnext : OnePerKey (step manager (.open dedupKey severity affected source now fresh)) :=
    h.step hfresh
  unfold step IncidentManager.open at hnext
  unfold IncidentManager.open Slots.step
  cases hfind : manager.incidents.find? (IncidentManager.isOpen dedupKey) with
  | some existing => simp [slotsOf, hfind]
  | none =>
      simp only [hfind] at hnext
      simp only [slotsOf, hfind, Option.map_none, Option.isSome_none, Bool.false_eq_true, if_false]
      funext key
      by_cases hkey : key = dedupKey
      · subst hkey
        rw [Function.update_self]
        exact (slotsOf_eq_some_iff hnext).mpr
          ⟨_, (mem_insert hfresh rfl).mpr (.inl rfl), rfl, by simp, rfl, rfl⟩
      · rw [Function.update_of_ne hkey]
        refine Option.ext fun slot => ?_
        obtain ⟨id, status⟩ := slot
        refine (slotsOf_eq_some_iff hnext).trans (Iff.trans ?_ (slotsOf_eq_some_iff h).symm)
        constructor
        · intro hmem
          obtain ⟨incident, hmem, hrest⟩ := hmem
          rcases (mem_insert hfresh rfl).mp hmem with rfl | hmem
          · exact absurd hrest.1.symm hkey
          · exact ⟨incident, hmem, hrest⟩
        · intro hmem
          obtain ⟨incident, hmem, hrest⟩ := hmem
          exact ⟨incident, (mem_insert hfresh rfl).mpr (.inr hmem), hrest⟩

/-- A transition moves what is in the slot of its incident. -/
theorem slotsOf_transition (h : OnePerKey manager) :
    slotsOf (manager.transition id status).2 = (slotsOf manager).step (.transition id status) := by
  have hnext : OnePerKey (step manager (.transition id status)) := h.step trivial
  change OnePerKey (manager.transition id status).2 at hnext
  funext key
  change _ = (slotsOf manager key).bind (Slots.advance id status)
  rcases transition_cases manager id status with
    ⟨hsame, -, hinvalid⟩ | ⟨incident, hmem, hid, hvalid, -, heq⟩
  · rw [hsame]
    cases hslot : slotsOf manager key with
    | none => rfl
    | some slot =>
        obtain ⟨other, hother, -, -, rfl⟩ := exists_of_slotsOf hslot
        rw [Option.bind_some, Slots.advance, if_neg fun hadvance => ?_]
        rw [hinvalid other hother hadvance.1] at hadvance
        cases hadvance.2
  · rw [heq] at hnext ⊢
    cases hslot : slotsOf manager key with
    | none =>
        -- a transition brings no incident back
        refine slotsOf_eq_none_iff.mpr fun other hother hkey => ?_
        obtain ⟨before, hbefore, rfl⟩ := mem_edit.mp hother
        split_ifs at hkey ⊢ with hbeforeId
        · rw [List.inj_on_of_nodup_map manager.distinct hbefore hmem (hbeforeId.trans hid.symm)]
            at hkey
          have hclosed := slotsOf_eq_none_iff.mp hslot incident hmem hkey
          exact absurd hclosed (ne_closed_of_valid hvalid)
        · exact slotsOf_eq_none_iff.mp hslot before hbefore hkey
    | some slot =>
        obtain ⟨other, hother, hkey, hopen, rfl⟩ := exists_of_slotsOf hslot
        rw [Option.bind_some, Slots.advance]
        by_cases hotherId : other.id = id
        · -- the slot is that of the incident which advances
          have hsame := List.inj_on_of_nodup_map manager.distinct hother hmem
            (hotherId.trans hid.symm)
          subst hsame
          rw [if_pos ⟨hotherId, hvalid⟩]
          split_ifs with hclosed
          · refine slotsOf_eq_none_iff.mpr fun after hafter hafterKey => ?_
            obtain ⟨before, hbefore, rfl⟩ := mem_edit.mp hafter
            split_ifs at hafterKey ⊢ with hbeforeId
            · exact hclosed
            · by_contra hstatus
              exact hbeforeId ((h before hbefore other hother hstatus hopen
                (hafterKey.trans hkey.symm)) ▸ hotherId)
          · exact (slotsOf_eq_some_iff hnext).mpr
              ⟨_, mem_edit.mpr ⟨other, hother, if_pos hotherId⟩, hkey, hclosed, rfl, rfl⟩
        · rw [if_neg fun hadvance => hotherId hadvance.1]
          exact (slotsOf_eq_some_iff hnext).mpr
            ⟨other, mem_edit.mpr ⟨other, hother, if_neg hotherId⟩, hkey, hopen, rfl, rfl⟩

/-- An edit leaves the slots as they are. -/
theorem slotsOf_edit {f : Incident → Incident} {hf : ∀ incident, (f incident).id = incident.id}
    (hkeep : ∀ incident,
      (f incident).dedupKey = incident.dedupKey ∧ (f incident).status = incident.status) :
    slotsOf (manager.edit id f hf) = slotsOf manager := by
  funext key
  rw [slotsOf, slotsOf, IncidentManager.edit, List.find?_map, Option.map_map]
  have hopen : IncidentManager.isOpen key ∘ (fun incident =>
      if incident.id = id then f incident else incident) = IncidentManager.isOpen key := by
    funext incident
    dsimp only [Function.comp, IncidentManager.isOpen]
    split_ifs <;> simp [hkeep incident]
  rw [hopen]
  refine congrArg (Option.map · _) (funext fun incident => ?_)
  dsimp only [Function.comp]
  split_ifs <;> simp [hkeep incident, hf incident]

theorem slotsOf_step (h : OnePerKey manager) (hcall : Admissible manager call) :
    slotsOf (step manager call) = (slotsOf manager).step call := by
  cases call with
  | «open» dedupKey severity affected source now fresh => exact slotsOf_open h hcall
  | transition id status => exact slotsOf_transition h
  | edit id f hf =>
      change slotsOf (manager.edit id f hf) = slotsOf manager
      exact slotsOf_edit hcall

theorem slotsOf_run (hone : OnePerKey manager) (h : Every step Admissible manager calls) :
    OnePerKey (run step manager calls) ∧
      slotsOf (run step manager calls) = run Slots.step (slotsOf manager) calls := by
  induction calls generalizing manager with
  | nil => exact ⟨hone, rfl⟩
  | cons call calls ih =>
      obtain ⟨hcall, hcalls⟩ := h
      obtain ⟨hend, hslots⟩ := ih (hone.step hcall) hcalls
      rw [slotsOf_step hone hcall] at hslots
      exact ⟨hend, hslots⟩

/-- In a run, a key has one incident that is not closed at most, and the manager answers as the
slots do. -/
theorem slots_run (h : Every step Admissible .new calls) :
    (∀ a ∈ (run step .new calls).openIncidents, ∀ b ∈ (run step .new calls).openIncidents,
        a.dedupKey = b.dedupKey → a = b) ∧
      slotsOf (run step .new calls) = run Slots.step (fun _ => none) calls ∧
      ∀ dedupKey severity affected source now fresh,
        ((run step .new calls).open dedupKey severity affected source now fresh).1 =
          (run Slots.step (fun _ => none) calls).answer dedupKey fresh := by
  obtain ⟨hend, hslots⟩ := slotsOf_run (fun a ha => absurd ha List.not_mem_nil) h
  refine ⟨fun a ha b hb hab => ?_, hslots, fun dedupKey severity affected source now fresh => ?_⟩
  · obtain ⟨ha, haopen⟩ := List.mem_filter.mp ha
    obtain ⟨hb, hbopen⟩ := List.mem_filter.mp hb
    exact hend a ha b hb (by simpa using haopen) (by simpa using hbopen) hab
  · have hanswer : run Slots.step (fun _ => none) calls = slotsOf (run step .new calls) :=
      hslots.symm
    rw [hanswer]
    unfold IncidentManager.open Slots.answer slotsOf
    cases (run step .new calls).incidents.find? (IncidentManager.isOpen dedupKey) <;> rfl

/-- An observation of one condition. -/
def observation (fresh : Uuid) : Call :=
  .open "service:checkout-api" .warning [] "sensor" ⟨0⟩ fresh

/-- The incident of an observation is closed, and the condition is observed again. -/
def closedAndObserved : List Call := [.transition 1 .closed, observation 2]

theorem admissible_observed : Every step Admissible .new (observation 1 :: closedAndObserved) := by
  refine ⟨fun incident hmem => absurd hmem List.not_mem_nil, trivial, ?_, trivial⟩
  change ∀ incident ∈ (step (step .new (observation 1)) (.transition 1 .closed)).incidents,
    incident.id ≠ 2
  decide

theorem slots_run_observed :
    (run Slots.step (fun _ => none) (observation 1 :: closedAndObserved)) "service:checkout-api" =
        some (2, .open) ∧
      slotsOf (run step .new (observation 1 :: closedAndObserved)) =
        run Slots.step (fun _ => none) (observation 1 :: closedAndObserved) :=
  ⟨by decide, (slots_run admissible_observed).2.1⟩

/-! ### A life -/

/-- How far an incident is. -/
def IncidentStatus.rank : IncidentStatus → Nat
  | .open => 0
  | .investigating => 1
  | .mitigated => 2
  | .resolved => 3
  | .closed => 4

/-- The transitions of an incident that a run accepts. -/
def accepted (id : Uuid) : IncidentManager → List Call → Nat
  | _, [] => 0
  | manager, call :: calls =>
      (match call with
        | .transition named status =>
            if named = id ∧ (manager.transition named status).1 = .ok () then 1 else 0
        | _ => 0) + accepted id (step manager call) calls

theorem rank_lt_of_valid {before : IncidentStatus} (h : validTransition before status = true) :
    before.rank < status.rank := by
  cases before <;> cases status <;> simp_all [validTransition, IncidentStatus.rank]

theorem eq_closed_of_rank (h : IncidentStatus.closed.rank ≤ status.rank) : status = .closed := by
  cases status <;> simp_all [IncidentStatus.rank]

/-- What a call leaves of an incident: the transitions that it accepts make it climb. -/
theorem exists_step (hcall : Admissible manager call) (hmem : incident ∈ manager.incidents) :
    ∃ next ∈ (step manager call).incidents, next.id = incident.id ∧
      next.dedupKey = incident.dedupKey ∧
      incident.status.rank + accepted incident.id manager [call] ≤ next.status.rank := by
  cases call with
  | «open» dedupKey severity affected source now fresh =>
      refine ⟨incident, ?_, rfl, rfl, le_rfl⟩
      unfold step IncidentManager.open
      dsimp only
      cases manager.incidents.find? (IncidentManager.isOpen dedupKey) with
      | some existing => exact hmem
      | none => exact (mem_insert hcall rfl).mpr (.inr hmem)
  | transition id status =>
      change ∃ next ∈ (manager.transition id status).2.incidents, _
      simp only [accepted]
      rcases transition_cases manager id status with
        ⟨hsame, hrefused, -⟩ | ⟨other, hother, hotherId, hvalid, -, hnext⟩
      · rw [hsame, if_neg fun haccepted => hrefused haccepted.2]
        exact ⟨incident, hmem, rfl, rfl, le_rfl⟩
      · rw [hnext]
        by_cases hid : incident.id = id
        · have hsame := List.inj_on_of_nodup_map manager.distinct hmem hother
            (hid.trans hotherId.symm)
          subst hsame
          refine ⟨_, mem_edit.mpr ⟨incident, hmem, if_pos hid⟩, rfl, rfl, ?_⟩
          have hrank := rank_lt_of_valid hvalid
          dsimp only
          split_ifs <;> omega
        · refine ⟨incident, mem_edit.mpr ⟨incident, hmem, if_neg hid⟩, rfl, rfl, ?_⟩
          rw [if_neg fun haccepted => hid haccepted.1.symm]
          exact le_rfl
  | edit id f hf =>
      change ∃ next ∈ (manager.edit id f hf).incidents, _
      by_cases hid : incident.id = id
      · refine ⟨f incident, mem_edit.mpr ⟨incident, hmem, if_pos hid⟩, hf incident,
          (hcall incident).1, ?_⟩
        rw [(hcall incident).2]
        exact le_rfl
      · exact ⟨incident, mem_edit.mpr ⟨incident, hmem, if_neg hid⟩, rfl, rfl, le_rfl⟩

theorem exists_run (h : Every step Admissible manager calls) (hmem : incident ∈ manager.incidents) :
    ∃ later ∈ (run step manager calls).incidents, later.id = incident.id ∧
      later.dedupKey = incident.dedupKey ∧
      incident.status.rank + accepted incident.id manager calls ≤ later.status.rank := by
  induction calls generalizing manager incident with
  | nil => exact ⟨incident, hmem, rfl, rfl, le_rfl⟩
  | cons call calls ih =>
      obtain ⟨next, hnext, hid, hkey, hrank⟩ := exists_step h.1 hmem
      obtain ⟨later, hlater, hlaterId, hlaterKey, hlaterRank⟩ := ih h.2 hnext
      refine ⟨later, hlater, hlaterId.trans hid, hlaterKey.trans hkey, ?_⟩
      rw [hid] at hlaterRank
      simp only [accepted] at hrank ⊢
      omega

/-- An incident stays, with its key; each transition that is accepted takes it further, so it has
four at most, and none once it is closed. -/
theorem lifecycle_run (h : Every step Admissible manager calls)
    (hmem : incident ∈ manager.incidents) :
    ∃ later ∈ (run step manager calls).incidents, later.id = incident.id ∧
      later.dedupKey = incident.dedupKey ∧ incident.status.rank ≤ later.status.rank ∧
      accepted incident.id manager calls ≤ 4 - incident.status.rank ∧
      (incident.status = .closed → later.status = .closed) := by
  obtain ⟨later, hlater, hid, hkey, hrank⟩ := exists_run h hmem
  have hlast : later.status.rank ≤ 4 := by cases later.status <;> decide
  refine ⟨later, hlater, hid, hkey, by omega, by omega, fun hclosed => ?_⟩
  rw [hclosed] at hrank
  exact eq_closed_of_rank (le_trans (Nat.le_add_right _ _) hrank)

/-- The incident of the first observation. -/
def firstIncident : Incident :=
  ⟨1, "service:checkout-api", .warning, .open, ⟨0⟩, [], "sensor", none, none, none⟩

theorem lifecycle_run_observed :
    accepted 1 (step .new (observation 1)) closedAndObserved = 1 ∧
      ∃ later ∈ (run step (step .new (observation 1)) closedAndObserved).incidents,
        later.id = firstIncident.id ∧ later.dedupKey = firstIncident.dedupKey ∧
          firstIncident.status.rank ≤ later.status.rank ∧
          accepted firstIncident.id (step .new (observation 1)) closedAndObserved ≤
            4 - firstIncident.status.rank ∧
          (firstIncident.status = .closed → later.status = .closed) :=
  ⟨by decide, lifecycle_run admissible_observed.2 List.mem_cons_self⟩

end Refinement

end Argus.Incidents
