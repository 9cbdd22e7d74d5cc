import Argus.Daemon.CloudSession
import Argus.Daemon.Ports
import Argus.Lib.Machine

/-!
# Whose cycle a ledger record names

The ledger keeps the open brain cycles in one list. A record is stamped with the last of them,
whoever made it: a second cycle, or a resumed plan outside any. And an action looks at the list
twice, once for the stamp and once for the plan it leaves with the cycle, so that a cycle entered
in between keeps the plan out.

`attributed_iff` says in which interleavings every stamp, and every list of plans a cycle leaves
with, is right.
-/

namespace Argus

/-- The whole record of an action, with what the loop leaves to the sink and the clock. -/
structure ActionEvent extends ActionEventRecord where
  eventId : Uuid
  causationId : Option Uuid
  cycleId : Option Uuid
  durationMs : Option Nat
  occurredAt : DateTime
  deriving DecidableEq

/-- One open brain cycle, with the plans it was seen to act for. -/
structure CycleFrame where
  cycleId : Uuid
  planIds : List Uuid
  deriving DecidableEq

/-- `last_mut` of a frame that is the one meant: a plan is left once. -/
def CycleFrame.observe (frame : CycleFrame) (cycleId planId : Uuid) : CycleFrame :=
  if frame.cycleId == cycleId && !frame.planIds.contains planId then
    { frame with planIds := frame.planIds ++ [planId] }
  else frame

/-- The open cycles, the one entered last at the end. -/
abbrev CycleContext := List CycleFrame

namespace CycleContext

def enterCycle (cycles : CycleContext) (cycleId : Uuid) : CycleContext := cycles ++ [⟨cycleId, []⟩]

/-- The plans of the cycle, and the others. -/
def exitCycle (cycles : CycleContext) (cycleId : Uuid) : List Uuid × CycleContext :=
  match cycles.find? (fun frame => frame.cycleId == cycleId) with
  | some frame => (frame.planIds, cycles.eraseP fun frame => frame.cycleId == cycleId)
  | none => ([], cycles)

def openCycle (cycles : CycleContext) : Option Uuid := cycles.getLast?.map CycleFrame.cycleId

def stampPlan (cycles : CycleContext) (cycleId planId : Uuid) : CycleContext :=
  match cycles.getLast? with
  | some frame => cycles.dropLast ++ [frame.observe cycleId planId]
  | none => cycles

end CycleContext

open CycleContext

/-- The first look of `record_action`. -/
def stampAction (cycles : CycleContext) (event : ActionEvent) : ActionEvent :=
  match openCycle cycles with
  | some cycleId => { event with cycleId := some cycleId }
  | none => event

/-- The stamp of `record_usage`, which leaves one that is there. -/
def stampUsage (cycles : CycleContext) (usage : TokenUsage) : TokenUsage :=
  match usage.cycleId, openCycle cycles with
  | none, some cycleId => { usage with cycleId := some cycleId }
  | _, _ => usage

/-- Who makes a record: a brain cycle, or a run that no cycle started. -/
inductive Producer
  | cycle (cycleId : Uuid)
  | outside
  deriving DecidableEq

/-- An action between its two looks at the open cycles. -/
structure Stamping where
  producer : Producer
  cycleId : Uuid
  planId : Uuid
  deriving DecidableEq

/-- What the second look is for: the cycle the first one found, and the plan. -/
def stampingOf (producer : Producer) (cycles : CycleContext) (event : ActionEvent) :
    List Stamping :=
  match openCycle cycles, event.planId with
  | some cycleId, some planId => [⟨producer, cycleId, planId⟩]
  | _, _ => []

/-- The cycle context of the ledger. What was recorded, for whom, and what each cycle left with
is on record. -/
structure CycleLedger where
  cycles : CycleContext
  /-- The cycles that were ever entered. -/
  entered : List Uuid
  stamping : List Stamping
  actions : List (Producer × ActionEvent)
  usage : List (Producer × TokenUsage)
  /-- The plans whose second look found the cycle of the first still the last. -/
  found : List (Uuid × Uuid)
  closed : List (Uuid × List Uuid)

/-- What the tasks of the daemon do to it. A cycle that dies does nothing more. -/
inductive LedgerEvent
  | enter (cycleId : Uuid)
  | exit (cycleId : Uuid)
  /-- The first look of an action. -/
  | action (producer : Producer) (event : ActionEvent)
  /-- The second look of one of the actions between the two. -/
  | stamp (position : Nat)
  | usage (producer : Producer) (usage : TokenUsage)

namespace CycleLedger

/-- The ledger of a daemon that just started. -/
def start : CycleLedger := ⟨[], [], [], [], [], [], []⟩

def step (s : CycleLedger) : LedgerEvent → CycleLedger
  | .enter cycleId =>
      { s with cycles := enterCycle s.cycles cycleId, entered := cycleId :: s.entered }
  | .exit cycleId =>
      { s with
        cycles := (exitCycle s.cycles cycleId).2
        closed := (cycleId, (exitCycle s.cycles cycleId).1) :: s.closed }
  | .action producer event =>
      { s with
        actions := (producer, stampAction s.cycles event) :: s.actions
        stamping := s.stamping ++ stampingOf producer s.cycles event }
  | .stamp position =>
      match s.stamping[position]? with
      | some p =>
          { s with
            stamping := s.stamping.eraseIdx position
            cycles := stampPlan s.cycles p.cycleId p.planId
            found :=
              if openCycle s.cycles = some p.cycleId then (p.cycleId, p.planId) :: s.found
              else s.found }
      | none => s
  | .usage producer usage =>
      { s with usage := (producer, stampUsage s.cycles usage) :: s.usage }

/-- A cycle works between its entry and its exit, and does one thing after the other. -/
def Working (s : CycleLedger) : Producer → Prop
  | .cycle cycleId => (∃ frame ∈ s.cycles, frame.cycleId = cycleId) ∧
      ∀ p ∈ s.stamping, p.producer ≠ .cycle cycleId
  | .outside => True

instance (s : CycleLedger) : (producer : Producer) → Decidable (s.Working producer)
  | .cycle _ => inferInstanceAs (Decidable (_ ∧ _))
  | .outside => inferInstanceAs (Decidable True)

/-- The order of the program: a cycle has a new id, records are made without a cycle id, and by
cycles that work. -/
def Admissible (s : CycleLedger) : LedgerEvent → Prop
  | .enter cycleId => cycleId ∉ s.entered
  | .exit cycleId => s.Working (.cycle cycleId)
  | .action producer event => event.cycleId = none ∧ s.Working producer
  | .stamp _ => True
  | .usage producer usage => usage.cycleId = none ∧ s.Working producer

instance (s : CycleLedger) : (e : LedgerEvent) → Decidable (s.Admissible e)
  | .enter _ => inferInstanceAs (Decidable (_ ∉ _))
  | .exit cycleId => inferInstanceAs (Decidable (s.Working (.cycle cycleId)))
  | .action _ _ => inferInstanceAs (Decidable (_ ∧ _))
  | .stamp _ => inferInstanceAs (Decidable True)
  | .usage _ _ => inferInstanceAs (Decidable (_ ∧ _))

/-- The cycle made an action for the plan. -/
def Made (s : CycleLedger) (cycleId planId : Uuid) : Prop :=
  ∃ event, (.cycle cycleId, event) ∈ s.actions ∧ event.planId = some planId

/-- A record names a cycle only if that cycle made it, and a cycle left with exactly the plans it
acted for. -/
structure Attributed (s : CycleLedger) : Prop where
  actions : ∀ entry ∈ s.actions, ∀ c ∈ entry.2.cycleId, entry.1 = .cycle c
  usage : ∀ entry ∈ s.usage, ∀ c ∈ entry.2.cycleId, entry.1 = .cycle c
  plans : ∀ entry ∈ s.closed, ∀ planId, planId ∈ entry.2 ↔ s.Made entry.1 planId

/-- A record made while cycles are open is made by the last of them, and a cycle exits after, for
each plan it acted for, one of the second looks found it still the last. -/
def InOrder (s : CycleLedger) : LedgerEvent → Prop
  | .action producer _ | .usage producer _ => ∀ c ∈ openCycle s.cycles, producer = .cycle c
  | .exit cycleId => ∀ entry ∈ s.actions, entry.1 = .cycle cycleId →
      ∀ planId ∈ entry.2.planId, (cycleId, planId) ∈ s.found
  | .enter _ | .stamp _ => True

-- The bounded instances, as an identifier ranges over a type that could be searched.
instance (s : CycleLedger) : (e : LedgerEvent) → Decidable (s.InOrder e)
  | .enter _ | .stamp _ => inferInstanceAs (Decidable True)
  | .exit cycleId =>
      haveI (entry : Producer × ActionEvent) :
          Decidable (∀ planId ∈ entry.2.planId, (cycleId, planId) ∈ s.found) :=
        Option.decidableForallMem _
      inferInstanceAs (Decidable (∀ entry ∈ s.actions, entry.1 = .cycle cycleId →
        ∀ planId ∈ entry.2.planId, (cycleId, planId) ∈ s.found))
  | .action producer _ | .usage producer _ =>
      Option.decidableForallMem (p := fun c => producer = .cycle c) _

/-! ### The open cycles -/

variable {s : CycleLedger} {cycles : CycleContext} {frame : CycleFrame} {c cycleId planId : Uuid}
  {producer : Producer} {event : ActionEvent} {e : LedgerEvent}

@[simp] theorem observe_cycleId : (frame.observe cycleId planId).cycleId = frame.cycleId := by
  unfold CycleFrame.observe
  split_ifs <;> rfl

theorem mem_observe {p : Uuid} : p ∈ (frame.observe cycleId planId).planIds ↔
    p ∈ frame.planIds ∨ frame.cycleId = cycleId ∧ p = planId := by
  unfold CycleFrame.observe
  split_ifs with h
  · simp only [Bool.and_eq_true, beq_iff_eq] at h
    simp [h.1]
  · simp only [Bool.and_eq_true, beq_iff_eq, Bool.not_eq_true', not_and, List.contains_eq_mem,
      decide_eq_false_iff_not, not_not] at h
    constructor
    · exact .inl
    · rintro (hp | ⟨hc, rfl⟩)
      · exact hp
      · exact h hc

@[simp] theorem openCycle_concat : openCycle (cycles ++ [frame]) = some frame.cycleId := by
  simp [openCycle]

@[simp] theorem stampPlan_concat :
    stampPlan (cycles ++ [frame]) cycleId planId = cycles ++ [frame.observe cycleId planId] := by
  simp [stampPlan]

/-- The second look changes no frame but in its plans. -/
theorem map_cycleId_stampPlan :
    (stampPlan cycles cycleId planId).map CycleFrame.cycleId = cycles.map CycleFrame.cycleId := by
  rcases List.eq_nil_or_concat' cycles with rfl | ⟨front, frame, rfl⟩
  · rfl
  · simp

/-- What the frames hold after a second look. -/
theorem mem_stampPlan (hnodup : (cycles.map CycleFrame.cycleId).Nodup)
    (hframe : frame ∈ stampPlan cycles cycleId planId) {p : Uuid} :
    ∃ before ∈ cycles, before.cycleId = frame.cycleId ∧ (p ∈ frame.planIds ↔
      p ∈ before.planIds ∨
        openCycle cycles = some cycleId ∧ frame.cycleId = cycleId ∧ p = planId) := by
  rcases List.eq_nil_or_concat' cycles with rfl | ⟨front, last, rfl⟩
  · simp [stampPlan] at hframe
  rw [stampPlan_concat] at hframe
  rcases List.mem_append.mp hframe with hfront | hlast
  · -- A frame below the last one is as it was, and is not the one meant.
    refine ⟨frame, List.mem_append_left _ hfront, rfl, ?_⟩
    have hother : frame.cycleId ≠ last.cycleId := by
      simp only [List.map_append, List.map_cons, List.map_nil, List.nodup_append] at hnodup
      exact hnodup.2.2 _ (List.mem_map_of_mem hfront) _ (List.mem_singleton_self _)
    rw [openCycle_concat]
    constructor
    · exact .inl
    · rintro (hp | ⟨hopen, hc, -⟩)
      · exact hp
      · exact absurd (hc.trans (Option.some.inj hopen).symm) hother
  · obtain rfl := List.mem_singleton.mp hlast
    refine ⟨last, by simp, by simp, ?_⟩
    rw [mem_observe, openCycle_concat, observe_cycleId, Option.some.injEq]
    tauto

theorem exitCycle_of_mem (h : ∃ frame ∈ cycles, frame.cycleId = cycleId) :
    ∃ frame ∈ cycles, frame.cycleId = cycleId ∧ exitCycle cycles cycleId =
      (frame.planIds, cycles.eraseP fun frame => frame.cycleId == cycleId) := by
  obtain ⟨frame, hframe, hc⟩ := h
  have hsome : (cycles.find? fun frame => frame.cycleId == cycleId).isSome := by
    rw [List.find?_isSome]
    exact ⟨frame, hframe, by simpa using hc⟩
  obtain ⟨found, hfound⟩ := Option.isSome_iff_exists.mp hsome
  refine ⟨found, List.mem_of_find?_eq_some hfound, ?_, ?_⟩
  · simpa using List.find?_some hfound
  · simp only [exitCycle, hfound]

/-- The frames that stay when a cycle exits, which are those of the other cycles. -/
theorem mem_exitCycle (hnodup : (cycles.map CycleFrame.cycleId).Nodup)
    (h : ∃ frame ∈ cycles, frame.cycleId = cycleId)
    (hframe : frame ∈ (exitCycle cycles cycleId).2) :
    frame ∈ cycles ∧ frame.cycleId ≠ cycleId := by
  obtain ⟨exiting, hexiting, hc, heq⟩ := exitCycle_of_mem h
  rw [heq] at hframe
  refine ⟨List.mem_of_mem_eraseP hframe, ?_⟩
  obtain ⟨a, front, back, -, ha, hcycles, herased⟩ :=
    List.exists_of_eraseP (p := fun frame => frame.cycleId == cycleId) hexiting (by simpa using hc)
  simp only [beq_iff_eq] at ha
  dsimp only at hframe
  rw [herased] at hframe
  rw [hcycles, List.map_append, List.map_cons] at hnodup
  have hnotMem : a.cycleId ∉ (front ++ back).map CycleFrame.cycleId := by
    rw [List.map_append]
    exact (List.nodup_middle.mp hnodup).notMem
  rintro hsame
  rw [ha, ← hsame] at hnotMem
  exact hnotMem (List.mem_map_of_mem hframe)

theorem nodup_exitCycle (hnodup : (cycles.map CycleFrame.cycleId).Nodup) :
    ((exitCycle cycles cycleId).2.map CycleFrame.cycleId).Nodup := by
  unfold exitCycle
  split
  · exact hnodup.sublist (List.eraseP_sublist.map _)
  · exact hnodup

/-! ### The stamps -/

theorem stampAction_cycleId (h : event.cycleId = none) :
    (stampAction cycles event).cycleId = openCycle cycles := by
  unfold stampAction
  split <;> simp [*]

@[simp] theorem stampAction_planId : (stampAction cycles event).planId = event.planId := by
  unfold stampAction
  split <;> rfl

theorem stampUsage_cycleId {usage : TokenUsage} (h : usage.cycleId = none) :
    (stampUsage cycles usage).cycleId = openCycle cycles := by
  unfold stampUsage
  rw [h]
  cases hopen : openCycle cycles with
  | some cycleId => rfl
  | none => exact h

theorem mem_stampingOf {p : Stamping} (h : p ∈ stampingOf producer cycles event) :
    p.producer = producer ∧ openCycle cycles = some p.cycleId ∧ event.planId = some p.planId := by
  unfold stampingOf at h
  split at h
  · obtain rfl := List.mem_singleton.mp h
    exact ⟨rfl, by assumption, by assumption⟩
  · cases h

/-- An action for the plan was stamped with the cycle. -/
def Stamped (s : CycleLedger) (cycleId planId : Uuid) : Prop :=
  ∃ entry ∈ s.actions, entry.2.cycleId = some cycleId ∧ entry.2.planId = some planId

/-- What every order of the tasks keeps. -/
structure Sound (s : CycleLedger) : Prop where
  nodup : (s.cycles.map CycleFrame.cycleId).Nodup
  live : ∀ frame ∈ s.cycles, frame.cycleId ∈ s.entered
  left : ∀ entry ∈ s.closed, entry.1 ∈ s.entered ∧ ∀ frame ∈ s.cycles, frame.cycleId ≠ entry.1
  stamped : ∀ entry ∈ s.actions, ∀ c ∈ entry.2.cycleId, c ∈ s.entered
  stamping : ∀ p ∈ s.stamping, s.Stamped p.cycleId p.planId
  found : ∀ pair ∈ s.found, s.Stamped pair.1 pair.2
  frames : ∀ frame ∈ s.cycles, ∀ planId,
    planId ∈ frame.planIds ↔ (frame.cycleId, planId) ∈ s.found

theorem sound_start : Sound start := by
  constructor <;> simp [start]

theorem Stamped.entered (hs : s.Sound) (h : s.Stamped cycleId planId) : cycleId ∈ s.entered := by
  obtain ⟨entry, hentry, hc, -⟩ := h
  exact hs.stamped entry hentry cycleId hc

theorem Sound.enter (hs : s.Sound) (hnew : cycleId ∉ s.entered) :
    (s.step (.enter cycleId)).Sound where
  nodup := by
    simp only [step, enterCycle, List.map_append, List.map_cons, List.map_nil]
    refine List.nodup_append.mpr ⟨hs.nodup, List.nodup_singleton _, ?_⟩
    rintro c hc _ hnew' rfl
    obtain ⟨frame, hframe, rfl⟩ := List.mem_map.mp hc
    exact hnew (List.mem_singleton.mp hnew' ▸ hs.live frame hframe)
  live := by
    intro frame hframe
    rcases List.mem_append.mp hframe with hframe | hframe
    · exact List.mem_cons_of_mem _ (hs.live frame hframe)
    · obtain rfl := List.mem_singleton.mp hframe
      exact List.mem_cons_self ..
  left := by
    intro entry hentry
    obtain ⟨hentered, hother⟩ := hs.left entry hentry
    refine ⟨List.mem_cons_of_mem _ hentered, fun frame hframe => ?_⟩
    rcases List.mem_append.mp hframe with hframe | hframe
    · exact hother frame hframe
    · obtain rfl := List.mem_singleton.mp hframe
      rintro rfl
      exact hnew hentered
  stamped entry hentry c hc := List.mem_cons_of_mem _ (hs.stamped entry hentry c hc)
  stamping := hs.stamping
  found := hs.found
  frames := by
    intro frame hframe planId
    rcases List.mem_append.mp hframe with hframe | hframe
    · exact hs.frames frame hframe planId
    · obtain rfl := List.mem_singleton.mp hframe
      simp only [List.not_mem_nil, false_iff]
      exact fun hfound => hnew ((hs.found _ hfound).entered hs)

theorem Sound.exit (hs : s.Sound) (hopen : ∃ frame ∈ s.cycles, frame.cycleId = cycleId) :
    (s.step (.exit cycleId)).Sound where
  nodup := nodup_exitCycle hs.nodup
  live frame hframe := hs.live frame (mem_exitCycle hs.nodup hopen hframe).1
  left := by
    intro entry hentry
    rcases List.mem_cons.mp hentry with rfl | hentry
    · obtain ⟨frame, hframe, rfl⟩ := hopen
      exact ⟨hs.live frame hframe,
        fun other hother => (mem_exitCycle hs.nodup ⟨frame, hframe, rfl⟩ hother).2⟩
    · obtain ⟨hentered, hother⟩ := hs.left entry hentry
      exact ⟨hentered, fun frame hframe =>
        hother frame (mem_exitCycle hs.nodup hopen hframe).1⟩
  stamped := hs.stamped
  stamping := hs.stamping
  found := hs.found
  frames frame hframe := hs.frames frame (mem_exitCycle hs.nodup hopen hframe).1

theorem Stamped.later (h : s.Stamped cycleId planId) :
    (s.step (.action producer event)).Stamped cycleId planId := by
  obtain ⟨entry, hentry, hstamped⟩ := h
  exact ⟨entry, List.mem_cons_of_mem _ hentry, hstamped⟩

theorem openCycle_mem (h : openCycle cycles = some c) : ∃ frame ∈ cycles, frame.cycleId = c := by
  obtain ⟨frame, hlast, hc⟩ := Option.map_eq_some_iff.mp h
  exact ⟨frame, List.mem_of_getLast? hlast, hc⟩

theorem Sound.action (hs : s.Sound) (hnone : event.cycleId = none) :
    (s.step (.action producer event)).Sound where
  nodup := hs.nodup
  live := hs.live
  left := hs.left
  stamped := by
    intro entry hentry c hc
    rcases List.mem_cons.mp hentry with rfl | hentry
    · rw [stampAction_cycleId hnone] at hc
      obtain ⟨frame, hframe, rfl⟩ := openCycle_mem hc
      exact hs.live frame hframe
    · exact hs.stamped entry hentry c hc
  stamping := by
    intro p hp
    rcases List.mem_append.mp hp with hp | hp
    · exact (hs.stamping p hp).later
    · obtain ⟨-, hopen, hplan⟩ := mem_stampingOf hp
      exact ⟨_, List.mem_cons_self .., (stampAction_cycleId hnone).trans hopen,
        stampAction_planId.trans hplan⟩
  found pair hpair := (hs.found pair hpair).later
  frames := hs.frames

theorem Sound.stamp {position : Nat} (hs : s.Sound) : (s.step (.stamp position)).Sound := by
  simp only [step]
  split
  case h_2 => exact hs
  case h_1 p hp =>
    have hstamped := hs.stamping p (List.mem_of_getElem? hp)
    have hmap : (stampPlan s.cycles p.cycleId p.planId).map CycleFrame.cycleId =
        s.cycles.map CycleFrame.cycleId := map_cycleId_stampPlan
    have hmem {frame : CycleFrame} (hframe : frame ∈ stampPlan s.cycles p.cycleId p.planId) :
        ∃ before ∈ s.cycles, before.cycleId = frame.cycleId :=
      List.mem_map.mp (hmap ▸ List.mem_map_of_mem hframe)
    constructor
    · simpa only [hmap] using hs.nodup
    · intro frame hframe
      obtain ⟨before, hbefore, hc⟩ := hmem hframe
      exact hc ▸ hs.live before hbefore
    · intro entry hentry
      obtain ⟨hentered, hother⟩ := hs.left entry hentry
      refine ⟨hentered, fun frame hframe => ?_⟩
      obtain ⟨before, hbefore, hc⟩ := hmem hframe
      exact hc ▸ hother before hbefore
    · exact hs.stamped
    · exact fun p' hp' => hs.stamping p' (List.mem_of_mem_eraseIdx hp')
    · intro pair hpair
      dsimp only at hpair
      split_ifs at hpair
      · rcases List.mem_cons.mp hpair with rfl | hpair
        · exact hstamped
        · exact hs.found pair hpair
      · exact hs.found pair hpair
    · intro frame hframe planId
      obtain ⟨before, hbefore, hc, hplans⟩ := mem_stampPlan hs.nodup (p := planId) hframe
      rw [hplans, hs.frames before hbefore planId, hc]
      dsimp only
      split_ifs with hopen
      · simp only [hopen, true_and, List.mem_cons, Prod.mk.injEq]
        tauto
      · simp [hopen]

theorem Sound.step (hs : s.Sound) (h : s.Admissible e) : (s.step e).Sound := by
  cases e with
  | enter cycleId => exact hs.enter h
  | exit cycleId => exact hs.exit h.1
  | action producer event => exact hs.action h.1
  | stamp position => exact hs.stamp
  | usage producer usage => exact ⟨hs.nodup, hs.live, hs.left, hs.stamped, hs.stamping, hs.found,
      hs.frames⟩

/-! ### What is attributed to a cycle -/

/-- A plan that a cycle would leave with is one it acted for. -/
theorem Attributed.made_of_found (h : s.Attributed) (hs : s.Sound)
    (hfound : (cycleId, planId) ∈ s.found) : s.Made cycleId planId := by
  obtain ⟨⟨by_, event⟩, hentry, hc, hplan⟩ := hs.found _ hfound
  obtain rfl : by_ = .cycle cycleId := h.actions _ hentry cycleId hc
  exact ⟨event, hentry, hplan⟩

/-- A cycle leaves with the plans that a second look found it the last for. -/
theorem mem_exitCycle_plans (hs : s.Sound) (hopen : ∃ frame ∈ s.cycles, frame.cycleId = cycleId) :
    planId ∈ (exitCycle s.cycles cycleId).1 ↔ (cycleId, planId) ∈ s.found := by
  obtain ⟨frame, hframe, rfl, heq⟩ := exitCycle_of_mem hopen
  rw [heq]
  exact hs.frames frame hframe planId

theorem Attributed.action (h : s.Attributed) (hs : s.Sound)
    (hadmissible : s.Admissible (.action producer event))
    (horder : s.InOrder (.action producer event)) :
    (s.step (.action producer event)).Attributed where
  actions := by
    intro entry hentry c hc
    rcases List.mem_cons.mp hentry with rfl | hentry
    · rw [stampAction_cycleId hadmissible.1] at hc
      exact horder c hc
    · exact h.actions entry hentry c hc
  usage := h.usage
  plans := by
    intro entry hentry planId
    rw [h.plans entry hentry planId]
    -- The cycle has exited, so that the new action is not its own.
    have hother : producer ≠ .cycle entry.1 := by
      rintro rfl
      obtain ⟨frame, hframe, hc⟩ := hadmissible.2.1
      exact (hs.left entry hentry).2 frame hframe hc
    simp only [Made, step, List.mem_cons, Prod.mk.injEq]
    constructor
    · rintro ⟨event, hmem, hplan⟩
      exact ⟨event, .inr hmem, hplan⟩
    · rintro ⟨event, ⟨hsame, -⟩ | hmem, hplan⟩
      · exact absurd hsame.symm hother
      · exact ⟨event, hmem, hplan⟩

theorem Attributed.exit (h : s.Attributed) (hs : s.Sound)
    (hopen : ∃ frame ∈ s.cycles, frame.cycleId = cycleId) (horder : s.InOrder (.exit cycleId)) :
    (s.step (.exit cycleId)).Attributed where
  actions := h.actions
  usage := h.usage
  plans := by
    intro entry hentry planId
    rcases List.mem_cons.mp hentry with rfl | hentry
    · rw [mem_exitCycle_plans hs hopen]
      constructor
      · exact h.made_of_found hs
      · rintro ⟨event, hmem, hplan⟩
        exact horder _ hmem rfl planId hplan
    · exact h.plans entry hentry planId

/-- What is in order keeps the records right. -/
theorem Attributed.step (h : s.Attributed) (hs : s.Sound) (hadmissible : s.Admissible e)
    (horder : s.InOrder e) : (s.step e).Attributed := by
  cases e with
  | enter cycleId => exact ⟨h.actions, h.usage, h.plans⟩
  | exit cycleId => exact h.exit hs hadmissible.1 horder
  | action producer event => exact h.action hs hadmissible horder
  | stamp position =>
      simp only [CycleLedger.step]
      split
      · exact ⟨h.actions, h.usage, h.plans⟩
      · exact h
  | usage producer usage =>
      refine ⟨h.actions, ?_, h.plans⟩
      intro entry hentry c hc
      rcases List.mem_cons.mp hentry with rfl | hentry
      · rw [stampUsage_cycleId hadmissible.1] at hc
        exact horder c hc
      · exact h.usage entry hentry c hc

/-- And nothing else does. -/
theorem inOrder_of_attributed (hs : s.Sound) (hadmissible : s.Admissible e)
    (hnext : (s.step e).Attributed) : s.InOrder e := by
  cases e with
  | enter cycleId => trivial
  | stamp position => trivial
  | action producer event =>
      intro c hc
      refine hnext.actions _ (List.mem_cons_self ..) c ?_
      rw [stampAction_cycleId hadmissible.1]
      exact hc
  | usage producer usage =>
      intro c hc
      refine hnext.usage _ (List.mem_cons_self ..) c ?_
      rw [stampUsage_cycleId hadmissible.1]
      exact hc
  | exit cycleId =>
      rintro ⟨by_, event⟩ hentry rfl planId hplan
      have hmade : (s.step (.exit cycleId)).Made cycleId planId := ⟨event, hentry, hplan⟩
      rw [← mem_exitCycle_plans hs hadmissible.1]
      exact (hnext.plans _ (List.mem_cons_self ..) planId).mpr hmade

theorem attributed_start : start.Attributed := by
  constructor <;> simp [start]

open Machine

/-- In every order of the tasks, all that is ever stamped and left with is right exactly when each
record made while cycles are open is made by the last of them, and each cycle exits after, for
each plan it acted for, one of the second looks found it still the last. -/
theorem attributed_iff {events : List LedgerEvent} (h : Every step Admissible start events) :
    (∀ n, (run step start (events.take n)).Attributed) ↔ Every step InOrder start events :=
  h.forall_take_iff (I := fun s => s.Sound ∧ s.Attributed) ⟨sound_start, attributed_start⟩
    (fun _ hs => hs.2)
    (fun _ _ hs hadmissible horder =>
      ⟨hs.1.step hadmissible, hs.2.step hs.1 hadmissible horder⟩)
    fun _ _ hs hadmissible hnext => inOrder_of_attributed hs.1 hadmissible hnext

/-- A restart of a plan. -/
def restartOf (planId : Uuid) : ActionEvent where
  correlationId := planId
  planId := some planId
  kind := "host.service.restart"
  target := some "web.service"
  args := .object [("unit", .string "web.service")]
  verdict := verdictAllow
  policyId := none
  outcome := outcomeOk
  validation := none
  eventId := 0
  causationId := none
  cycleId := none
  durationMs := none
  occurredAt := ⟨0⟩

/-- A cycle that acts, then a plan that is resumed outside it. -/
def oneAfterAnother : List LedgerEvent :=
  [.enter 1, .action (.cycle 1) (restartOf 7), .stamp 0, .exit 1, .action .outside (restartOf 8)]

theorem oneAfterAnother_attributed :
    Every step Admissible start oneAfterAnother ∧
      ∀ n, (run step start (oneAfterAnother.take n)).Attributed :=
  ⟨by decide, (attributed_iff (by decide)).mpr (by decide)⟩

/-- A plan that is resumed while a cycle waits for its provider. -/
def resumedMeanwhile : List LedgerEvent :=
  [.enter 1, .action .outside (restartOf 8), .stamp 0, .exit 1]

/-- The resumed plan's action is stamped with the cycle, and the cycle leaves with the plan. -/
theorem resumed_taken_for_cycle :
    Every step Admissible start resumedMeanwhile ∧
      ¬ (run step start resumedMeanwhile).Attributed ∧
      (run step start resumedMeanwhile).actions.map (fun entry => (entry.1, entry.2.cycleId)) =
        [(.outside, some 1)] ∧
      (run step start resumedMeanwhile).closed = [(1, [8])] := by
  refine ⟨by decide, fun h => ?_, by decide, by decide⟩
  have hactions : (run step start resumedMeanwhile).actions =
      [(.outside, { restartOf 8 with cycleId := some 1 })] := rfl
  have hstamp := h.actions (.outside, { restartOf 8 with cycleId := some 1 })
    (hactions ▸ List.mem_singleton_self _) 1 rfl
  cases hstamp

end CycleLedger
end Argus
