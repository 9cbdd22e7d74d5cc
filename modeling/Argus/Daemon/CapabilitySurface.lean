import Argus.Domain.Capability
import Argus.Domain.Plan
import Argus.Lib.Machine
import Mathlib.Logic.Function.Basic

/-!
# The published capability surface

The registry holds what the daemon can do, and the surface is the copy of it that the cloud is told
about. Two tasks change the registry: the MCP lifecycle registers what it discovers, and a delivery
swaps in what its reconcile has staged. Each then refreshes the surface: it reads the registry,
stores the copy, and marks the surface dirty. On its tick the session takes the mark, reads the
surface, and sends it unless the publication on record has the same hash.

No lock is held between these steps, so those of the three tasks come in any order. The mark is set
after the copy is stored, and taken before it is read: the session misses no change of the surface
(`published_follows`). The surface itself can fall behind the registry, when two refreshes cross:
`current_iff_uncrossed` says exactly when.
-/

namespace Argus.CapabilitySurface

open Machine

abbrev Descriptors := List CapabilityDescriptor

def maxCapabilitiesPerPublication : Nat := 1000

/-- `CapabilityPublication::hash`. `canonical` is the JSON writer of the serialization library. -/
def contentHash (canonical : Descriptors → String) (capabilities : Descriptors) : String :=
  fnv1aHex (canonical capabilities)

/-- The tasks that change the registry. -/
inductive Refresher
  | lifecycle
  | delivery
  deriving DecidableEq

/-- How far a task is with a refresh. -/
inductive Refresh
  | idle
  /-- It has changed the registry. -/
  | due
  /-- It holds the copy that it has read. -/
  | holding (descriptors : Descriptors)
  | stored

/-- Where the session is. -/
inductive Session
  | closed
  /-- It has begun, and publishes whatever the record says. -/
  | starting
  | ticking
  /-- It has taken the mark. -/
  | taken
  /-- It compares what it has read to the publication on record. -/
  | checking (descriptors : Descriptors)
  | sending (descriptors : Descriptors)
  | saving (descriptors : Descriptors)

structure Surface where
  registry : Descriptors
  /-- `current` of the surface. -/
  current : Descriptors
  dirty : Bool
  refreshes : Refresher → Refresh
  session : Session
  /-- The content hash of the publication on record. -/
  publication : Option String
  /-- What the session has told the cloud last. -/
  told : Option Descriptors

/-- `CapabilitySurface::new`: the registrations of the startup are not a change. -/
def Surface.new (registry : Descriptors) (publication : Option String) : Surface :=
  ⟨registry, registry, false, fun _ => .idle, .closed, publication, none⟩

/-- What the tasks do next, and what they meet with. -/
inductive Event
  | change (task : Refresher) (registry : Descriptors)
  | read (task : Refresher)
  | store (task : Refresher)
  | mark (task : Refresher)
  | connect
  | tick
  | get
  | check (readable : Bool)
  | send (accepted : Bool)
  | save (accepted : Bool)
  | close
  /-- The enrollment is forgotten, and the record with it. -/
  | forget

section Steps

variable (canonical : Descriptors → String)

def Surface.refresh (s : Surface) (task : Refresher) (refresh : Refresh) : Surface :=
  { s with refreshes := Function.update s.refreshes task refresh }

/-- One step; where its task is not there, nothing happens. -/
def step (s : Surface) : Event → Surface
  | .change task registry =>
      match s.refreshes task with
      | .idle => { s.refresh task .due with registry }
      | _ => s
  | .read task =>
      match s.refreshes task with
      | .due => s.refresh task (.holding s.registry)
      | _ => s
  | .store task =>
      match s.refreshes task with
      | .holding descriptors => { s.refresh task .stored with current := descriptors }
      | _ => s
  | .mark task =>
      match s.refreshes task with
      | .stored => { s.refresh task .idle with dirty := true }
      | _ => s
  | .connect =>
      match s.session with
      | .closed => { s with session := .starting, told := none }
      | _ => s
  | .tick =>
      match s.session with
      | .ticking => if s.dirty then { s with dirty := false, session := .taken } else s
      | _ => s
  | .get =>
      match s.session with
      | .starting => { s with session := .sending s.current }
      | .taken => { s with session := .checking s.current }
      | _ => s
  | .check readable =>
      match s.session with
      | .checking descriptors =>
          if readable ∧ s.publication = some (contentHash canonical descriptors) then
            { s with session := .ticking }
          else { s with session := .sending descriptors }
      | _ => s
  | .send accepted =>
      match s.session with
      | .sending descriptors =>
          -- a surface over the bound ends the session as a failed send does
          if descriptors.length ≤ maxCapabilitiesPerPublication ∧ accepted then
            { s with session := .saving descriptors, told := some descriptors }
          else { s with session := .closed }
      | _ => s
  | .save accepted =>
      match s.session with
      | .saving descriptors =>
          { s with
            session := .ticking
            publication :=
              if accepted then some (contentHash canonical descriptors) else s.publication }
      | _ => s
  | .close => { s with session := .closed }
  | .forget => { s with publication := none }

/-! ### From the surface to the cloud -/

/-- The session still has to take a mark: the surface is marked, or is about to be. -/
def Surface.Marked (s : Surface) : Prop := s.dirty = true ∨ ∃ task, s.refreshes task = .stored

/-- The record is of what the cloud was told, if there is one. -/
def Surface.OnRecord (s : Surface) : Prop :=
  ∀ hash ∈ s.publication, s.told.map (contentHash canonical) = some hash

/-- What the session has in hand is the surface, unless it is marked. -/
def Surface.Fresh (s : Surface) (descriptors : Descriptors) : Prop :=
  s.Marked ∨ descriptors = s.current

/-- What holds of the session where it is. -/
def Surface.Sound (s : Surface) : Prop :=
  match s.session with
  | .closed | .starting => True
  | .ticking =>
      s.OnRecord canonical ∧
        (s.Marked ∨ s.told.map (contentHash canonical) = some (contentHash canonical s.current))
  | .taken => s.OnRecord canonical
  | .checking descriptors => s.OnRecord canonical ∧ s.Fresh descriptors
  | .sending descriptors => s.Fresh descriptors
  | .saving descriptors => s.told = some descriptors ∧ s.Fresh descriptors

variable {canonical} {s s' : Surface} {e : Event} {descriptors : Descriptors} {task : Refresher}

/-- What a step of a refresher may do to the session: nothing, and it drops no mark. -/
structure Surface.Leaves (s s' : Surface) : Prop where
  session : s'.session = s.session
  publication : s'.publication = s.publication
  told : s'.told = s.told
  marked : s.Marked → s'.Marked
  current : s'.Marked ∨ s'.current = s.current

theorem Surface.Leaves.fresh (h : s.Leaves s') (hfresh : s.Fresh descriptors) :
    s'.Fresh descriptors := by
  rcases hfresh with hmarked | heq
  · exact .inl (h.marked hmarked)
  · exact h.current.imp_right fun hcurrent => heq.trans hcurrent.symm

theorem Surface.Leaves.onRecord (h : s.Leaves s') (hrecord : s.OnRecord canonical) :
    s'.OnRecord canonical := by
  unfold Surface.OnRecord
  rw [h.publication, h.told]
  exact hrecord

theorem Surface.Leaves.sound (h : s.Leaves s') (hsound : s.Sound canonical) :
    s'.Sound canonical := by
  unfold Surface.Sound at hsound ⊢
  rw [h.session]
  cases hsession : s.session with
  | closed | starting => trivial
  | ticking =>
      rw [hsession] at hsound
      refine ⟨h.onRecord hsound.1, ?_⟩
      rcases hsound.2 with hmarked | htold
      · exact .inl (h.marked hmarked)
      · rcases h.current with hmarked | hcurrent
        · exact .inl hmarked
        · exact .inr (by rw [h.told, hcurrent, htold])
  | taken =>
      rw [hsession] at hsound
      exact h.onRecord hsound
  | checking descriptors =>
      rw [hsession] at hsound
      exact ⟨h.onRecord hsound.1, h.fresh hsound.2⟩
  | sending descriptors =>
      rw [hsession] at hsound
      exact h.fresh hsound
  | saving descriptors =>
      rw [hsession] at hsound
      exact ⟨h.told.trans hsound.1, h.fresh hsound.2⟩

/-- A task that moves on, and had not stored its copy, takes no mark away. -/
theorem Surface.Marked.refresh {refresh : Refresh} (h : s.Marked)
    (htask : s.refreshes task ≠ .stored) : (s.refresh task refresh).Marked := by
  rcases h with hdirty | ⟨other, hother⟩
  · exact .inl hdirty
  · have hne : other ≠ task := fun heq => htask (heq ▸ hother)
    exact .inr ⟨other, (Function.update_of_ne hne _ _).trans hother⟩

theorem leaves_change (registry : Descriptors) :
    s.Leaves (step canonical s (.change task registry)) := by
  rw [step]
  split
  case h_1 hidle =>
    exact ⟨rfl, rfl, rfl, fun h => h.refresh (by simp [hidle]), .inr rfl⟩
  case h_2 => exact ⟨rfl, rfl, rfl, id, .inr rfl⟩

theorem leaves_read : s.Leaves (step canonical s (.read task)) := by
  rw [step]
  split
  case h_1 hdue => exact ⟨rfl, rfl, rfl, fun h => h.refresh (by simp [hdue]), .inr rfl⟩
  case h_2 => exact ⟨rfl, rfl, rfl, id, .inr rfl⟩

theorem leaves_store : s.Leaves (step canonical s (.store task)) := by
  rw [step]
  split
  case h_1 descriptors hholding =>
    have hmarked : ({ s.refresh task .stored with current := descriptors } : Surface).Marked :=
      .inr ⟨task, Function.update_self _ _ _⟩
    exact ⟨rfl, rfl, rfl, fun _ => hmarked, .inl hmarked⟩
  case h_2 => exact ⟨rfl, rfl, rfl, id, .inr rfl⟩

theorem leaves_mark : s.Leaves (step canonical s (.mark task)) := by
  rw [step]
  split
  case h_1 => exact ⟨rfl, rfl, rfl, fun _ => .inl rfl, .inl (.inl rfl)⟩
  case h_2 => exact ⟨rfl, rfl, rfl, id, .inr rfl⟩

/-- One step keeps what holds of the session, but for a record that is not saved. -/
theorem Surface.Sound.step (h : s.Sound canonical) (he : e ≠ .save false) :
    (step canonical s e).Sound canonical := by
  cases e with
  | change task registry => exact (leaves_change registry).sound h
  | read task => exact leaves_read.sound h
  | store task => exact leaves_store.sound h
  | mark task => exact leaves_mark.sound h
  | connect =>
      rw [CapabilitySurface.step]
      split
      · trivial
      · exact h
  | tick =>
      rw [CapabilitySurface.step]
      split
      case h_1 hsession =>
        split_ifs with hdirty
        · rw [Surface.Sound, hsession] at h
          exact h.1
        · exact h
      case h_2 => exact h
  | get =>
      rw [CapabilitySurface.step]
      split
      case h_1 => exact .inr rfl
      case h_2 hsession =>
        rw [Surface.Sound, hsession] at h
        exact ⟨h, .inr rfl⟩
      case h_3 => exact h
  | check readable =>
      rw [CapabilitySurface.step]
      split
      case h_1 descriptors hsession =>
        rw [Surface.Sound, hsession] at h
        split_ifs with hsame
        · -- the record is of what the cloud was told, and the copy in hand has its hash
          have htold := h.1 _ hsame.2
          refine ⟨h.1, h.2.imp_right fun heq => ?_⟩
          rw [← heq]
          exact htold
        · exact h.2
      case h_2 => exact h
  | send accepted =>
      rw [CapabilitySurface.step]
      split
      case h_1 descriptors hsession =>
        rw [Surface.Sound, hsession] at h
        split_ifs
        · exact ⟨rfl, h⟩
        · trivial
      case h_2 => exact h
  | save accepted =>
      rw [CapabilitySurface.step]
      split
      case h_1 descriptors hsession =>
        rw [Surface.Sound, hsession] at h
        obtain rfl : accepted = true := by simpa using he
        obtain ⟨htold, hfresh⟩ := h
        refine ⟨fun hash hhash => ?_, hfresh.imp_right fun heq => ?_⟩
        · change s.told.map _ = _
          rw [htold]
          exact hhash
        · rw [← heq]
          exact congrArg (Option.map (contentHash canonical)) htold
      case h_2 => exact h
  | close => trivial
  | forget =>
      unfold CapabilitySurface.step Surface.Sound at *
      dsimp only
      cases hsession : s.session with
      | closed | starting => trivial
      | ticking =>
          rw [hsession] at h
          exact ⟨nofun, h.2⟩
      | taken => exact nofun
      | checking descriptors =>
          rw [hsession] at h
          exact ⟨nofun, h.2⟩
      | sending descriptors =>
          rw [hsession] at h
          exact h
      | saving descriptors =>
          rw [hsession] at h
          exact h

theorem Surface.Sound.told (h : s.Sound canonical) (hsession : s.session = .ticking)
    (hmarked : ¬ s.Marked) : ∃ told, s.told = some told ∧
      contentHash canonical told = contentHash canonical s.current := by
  rw [Surface.Sound, hsession] at h
  exact Option.map_eq_some_iff.mp (h.2.resolve_left hmarked)

section Runs

variable {registry : Descriptors} {publication : Option String} {events : List Event}

theorem sound_run (hsaves : ∀ e ∈ events, e ≠ .save false) :
    (run (step canonical) (.new registry publication) events).Sound canonical :=
  (every_events.mpr hsaves).invariant (I := Surface.Sound canonical) trivial
    fun _ _ h he => h.step he

end Runs

/-- As long as every publication gets on record: wherever the session ticks and no mark is left,
the cloud was told what the surface is, as far as the hash tells. -/
theorem published_follows (canonical : Descriptors → String) (registry : Descriptors)
    (publication : Option String) (events : List Event) (hsaves : ∀ e ∈ events, e ≠ .save false) :
    let s := run (step canonical) (.new registry publication) events
    s.session = .ticking → ¬ s.Marked →
      ∃ told, s.told = some told ∧ contentHash canonical told = contentHash canonical s.current :=
  (sound_run hsaves).told

/-- A tool that only reads. -/
def probeTool : CapabilityDescriptor :=
  ⟨⟨"mcp.metrics.probe", by decide +kernel⟩, .read, .null, some .none, false, none⟩

/-- A session begins, a tool is registered, and the next tick publishes it. -/
def probeRegistered : List Event :=
  [.connect, .get, .send true, .save true, .change .lifecycle [probeTool], .read .lifecycle,
    .store .lifecycle, .mark .lifecycle, .tick, .get, .check false, .send true, .save true]

/-- A writer of surfaces by their capabilities. -/
def writeIds (capabilities : Descriptors) : String :=
  "[" ++ ", ".intercalate (capabilities.map fun d => d.id.asStr) ++ "]"

theorem published_follows_probe :
    let s := run (step writeIds) (.new [] none) probeRegistered
    contentHash writeIds s.current ≠ contentHash writeIds [] ∧
      ∃ told, s.told = some told ∧ contentHash writeIds told = contentHash writeIds s.current := by
  refine ⟨by decide +kernel, published_follows writeIds [] none probeRegistered
    (by simp [probeRegistered]) rfl fun hmarked => ?_⟩
  rcases hmarked with hdirty | ⟨task, htask⟩
  · change false = true at hdirty
    cases hdirty
  · cases task <;> (change Refresh.idle = Refresh.stored at htask; cases htask)

/-! ### From the registry to the surface -/

/-- The task is to store the registry as it is. -/
def Surface.Due (s : Surface) (task : Refresher) : Prop :=
  s.refreshes task = .due ∨ s.refreshes task = .holding s.registry

/-- The surface is what the registry holds, or a refresh is under way that makes it so. -/
def Surface.Current (s : Surface) : Prop := s.current = s.registry ∨ ∃ task, s.Due task

/-- A copy that is stored is of the registry as it is, or another refresh is to replace it. -/
def Surface.Uncrossed (s : Surface) : Event → Prop
  | .store task => ∀ descriptors, s.refreshes task = .holding descriptors →
      descriptors = s.registry ∨ ∃ other, other ≠ task ∧ s.Due other
  | _ => True

theorem Surface.Current.at_rest (h : s.Current) (hrest : ∀ task, s.refreshes task = .idle) :
    s.current = s.registry := by
  rcases h with hcurrent | ⟨task, hdue | hholding⟩
  · exact hcurrent
  · rw [hrest] at hdue
    cases hdue
  · rw [hrest] at hholding
    cases hholding

/-- What the session does leaves the registry, the surface and the refreshes. -/
structure Surface.Aside (s s' : Surface) : Prop where
  registry : s'.registry = s.registry
  current : s'.current = s.current
  refreshes : s'.refreshes = s.refreshes

theorem Surface.Aside.current_iff (h : s.Aside s') : s'.Current ↔ s.Current := by
  unfold Surface.Current Surface.Due
  rw [h.registry, h.current, h.refreshes]

/-- The events of the session. -/
def Event.ofSession : Event → Bool
  | .change .. | .read _ | .store _ | .mark _ => false
  | _ => true

theorem aside_step (h : e.ofSession = true) : s.Aside (step canonical s e) := by
  cases e with
  | change | read | store | mark => cases h
  | connect | get | save =>
      rw [step]
      split <;> exact ⟨rfl, rfl, rfl⟩
  | tick | check | send =>
      rw [step]
      split
      · split_ifs <;> exact ⟨rfl, rfl, rfl⟩
      · exact ⟨rfl, rfl, rfl⟩
  | close | forget => exact ⟨rfl, rfl, rfl⟩

/-- A task whose refresh moves on leaves the others what they are. -/
theorem Surface.Due.refresh {other : Refresher} {refresh : Refresh} (h : s.Due other)
    (hne : other ≠ task) : (s.refresh task refresh).Due other := by
  unfold Surface.Due
  rw [show (s.refresh task refresh).refreshes other = s.refreshes other from
    Function.update_of_ne hne _ _]
  exact h

/-- A task with a refresh that is neither due nor holds the registry is not the one to come. -/
theorem Surface.Current.refresh {refresh : Refresh} (h : s.Current) (htask : ¬ s.Due task) :
    (s.refresh task refresh).Current := by
  rcases h with hcurrent | ⟨other, hdue⟩
  · exact .inl hcurrent
  · exact .inr ⟨other, hdue.refresh fun heq => htask (heq ▸ hdue)⟩

theorem Surface.Current.step (h : s.Current) (he : s.Uncrossed e) :
    (step canonical s e).Current := by
  cases hsession : e.ofSession with
  | true => exact (aside_step hsession).current_iff.mpr h
  | false =>
      cases e with
      | change task registry =>
          rw [CapabilitySurface.step]
          split
          · exact .inr ⟨task, .inl (Function.update_self _ _ _)⟩
          · exact h
      | read task =>
          rw [CapabilitySurface.step]
          split
          · exact .inr ⟨task, .inr (Function.update_self _ _ _)⟩
          · exact h
      | store task =>
          rw [CapabilitySurface.step]
          split
          case h_1 descriptors hholding =>
            rcases he descriptors hholding with rfl | ⟨other, hne, hdue⟩
            · exact .inl rfl
            · exact .inr ⟨other, hdue.refresh hne⟩
          case h_2 => exact h
      | mark task =>
          rw [CapabilitySurface.step]
          split
          case h_1 hstored =>
            exact h.refresh (by simp [Surface.Due, hstored])
          case h_2 => exact h
      | _ => cases hsession

theorem Surface.Uncrossed.of_step (h : (step canonical s e).Current) : s.Uncrossed e := by
  cases e with
  | store task =>
      intro descriptors hholding
      rw [step, hholding] at h
      rcases h with hcurrent | ⟨other, hdue⟩
      · exact .inl hcurrent
      · have hne : other ≠ task := by
          rintro rfl
          have hstored : (s.refresh other .stored).refreshes other = .stored :=
            Function.update_self _ _ _
          rcases hdue with hdue | hdue
          · exact absurd (hstored.symm.trans hdue) nofun
          · exact absurd (hstored.symm.trans hdue) nofun
        have hsame : (s.refresh task .stored).refreshes other = s.refreshes other :=
          Function.update_of_ne hne _ _
        refine .inr ⟨other, hne, hdue.imp (fun h => ?_) fun h => ?_⟩
        · exact hsame.symm.trans h
        · exact hsame.symm.trans h
  | _ => trivial

/-- In a run, the surface is all along what the registry holds, or about to be, exactly when no
task stores a copy that has been overtaken with no other refresh to follow. -/
theorem current_iff_uncrossed (canonical : Descriptors → String) (registry : Descriptors)
    (publication : Option String) (events : List Event) :
    (∀ n, (run (step canonical) (.new registry publication) (events.take n)).Current) ↔
      Every (step canonical) Surface.Uncrossed (.new registry publication) events :=
  forall_take_iff_every (.inl rfl) (fun _ h => h) (fun _ _ h he => h.step he)
    fun _ _ _ h => .of_step h

/-- What the registry holds has reached the cloud wherever all three tasks have come to rest. -/
theorem told_registry (canonical : Descriptors → String) (registry : Descriptors)
    (publication : Option String) (events : List Event) (hsaves : ∀ e ∈ events, e ≠ .save false)
    (huncrossed : Every (step canonical) Surface.Uncrossed (.new registry publication) events) :
    let s := run (step canonical) (.new registry publication) events
    s.session = .ticking → s.dirty = false → (∀ task, s.refreshes task = .idle) →
      ∃ told, s.told = some told ∧
        contentHash canonical told = contentHash canonical s.registry := by
  intro s hsession hdirty hrest
  have hcurrent : s.Current :=
    huncrossed.invariant (I := Surface.Current) (.inl rfl) fun _ _ h he => h.step he
  rw [← hcurrent.at_rest hrest]
  refine (sound_run hsaves).told hsession fun hmarked => ?_
  rcases hmarked with h | ⟨task, hstored⟩
  · exact absurd (hdirty.symm.trans h) nofun
  · exact absurd ((hrest task).symm.trans hstored) nofun

/-- A store of what the registry no longer holds is crossed where the other task has stored. -/
theorem Surface.Uncrossed.not_store {other : Refresher} (h : s.Uncrossed (.store task))
    (hne : other ≠ task) (hholding : s.refreshes task = .holding descriptors)
    (hstored : s.refreshes other = .stored) : descriptors = s.registry := by
  rcases h descriptors hholding with hcurrent | ⟨third, hthird, hdue⟩
  · exact hcurrent
  · have hsame : third = other := by
      cases third <;> cases other <;> cases task <;> first | rfl | contradiction
    subst hsame
    rcases hdue with hdue | hdue <;> cases hstored.symm.trans hdue

/-- **Two refreshes that cross.** A task reads its copy; another one changes the registry, and reads
and stores its own; then the first stores what it has read. -/
theorem crossed {other : Refresher} {newer : Descriptors} (hne : other ≠ task)
    (hdue : s.refreshes task = .due) (hidle : s.refreshes other = .idle)
    (hnewer : newer ≠ s.registry) : ¬ Every (step canonical) Surface.Uncrossed s
      [.read task, .change other newer, .read other, .store other, .store task] := by
  intro h
  obtain ⟨-, -, -, -, hstore, -⟩ := h
  let s₁ := s.refresh task (.holding s.registry)
  let s₂ : Surface := { s₁.refresh other .due with registry := newer }
  let s₃ := s₂.refresh other (.holding newer)
  let s₄ : Surface := { s₃.refresh other .stored with current := newer }
  have hread : step canonical s (.read task) = s₁ := by rw [step, hdue]
  have hchange : step canonical s₁ (.change other newer) = s₂ := by
    rw [step, show s₁.refreshes other = .idle from (Function.update_of_ne hne _ _).trans hidle]
  have hcopy : step canonical s₂ (.read other) = s₃ := by
    rw [step, show s₂.refreshes other = .due from Function.update_self _ _ _]
  have hnew : step canonical s₃ (.store other) = s₄ := by
    rw [step, show s₃.refreshes other = .holding newer from Function.update_self _ _ _]
  rw [hread, hchange, hcopy, hnew] at hstore
  have hholding : s₄.refreshes task = .holding s.registry := by
    simp [s₄, s₃, s₂, s₁, Surface.refresh, Function.update_of_ne hne.symm]
  exact hnewer (hstore.not_store hne hholding (Function.update_self _ _ _)).symm

/-- What the lifecycle has registered in between is not published. -/
example :
    let s := run (step fun _ => "[]") (.new [] none)
      [.change .delivery [], .read .delivery, .change .lifecycle [probeTool], .read .lifecycle,
        .store .lifecycle, .mark .lifecycle, .store .delivery, .mark .delivery]
    (∀ task, s.refreshes task = .idle) ∧ s.registry = [probeTool] ∧ s.current = [] :=
  ⟨fun task => by cases task <;> rfl, rfl, rfl⟩

end Steps

end Argus.CapabilitySurface
