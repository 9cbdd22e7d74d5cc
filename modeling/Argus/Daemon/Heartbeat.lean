import Argus.Daemon.CloudSupervise
import Argus.Lib.Machine

/-!
# Heartbeats and silence

A session ticks once a second. A tick ends the session where the peer was last seen too long ago,
and pings it where it was last seen an interval ago. A ping that was sent counts as the peer being
seen.

`silence_ends_iff` says in which runs a silent peer loses its session in time. The clock is not
the program's: the runs are those where a tick comes on time.
-/

namespace Argus

/-- The largest `Duration`, in nanoseconds. -/
def durationMax : Nat := 2 ^ 64 * 1000000000 - 1

/-- `SESSION_TICK`. -/
def sessionTick : Nat := 1000000000

/-- Sends liveness pings and detects when the peer has gone quiet. Instants and durations are in
nanoseconds. -/
structure Heartbeat where
  interval : Nat
  grace : Nat
  lastSeen : Nat

namespace Heartbeat

/-- A heartbeat for the negotiated interval. -/
def new (intervalSeconds now : Nat) : Heartbeat :=
  let interval := max intervalSeconds 1 * 1000000000
  { interval, grace := interval / 2, lastSeen := now }

/-- How long without a reply before the peer is considered gone. The sum may not fit a
`Duration`: then the code panics. -/
def timeout (heartbeat : Heartbeat) : Option Nat :=
  if heartbeat.interval + heartbeat.grace ≤ durationMax then
    some (heartbeat.interval + heartbeat.grace)
  else none

/-- Records a reply, restarting the schedule. -/
def noteSeen (heartbeat : Heartbeat) (now : Nat) : Heartbeat := { heartbeat with lastSeen := now }

/-- Whether a ping should be sent now. An instant is no time since a later one. -/
def pingDue (heartbeat : Heartbeat) (now : Nat) : Bool :=
  decide (heartbeat.interval ≤ now - heartbeat.lastSeen)

/-- Whether the peer has been silent past the timeout. -/
def isOverdue (heartbeat : Heartbeat) (now : Nat) : Option Bool :=
  heartbeat.timeout.map fun timeout => decide (timeout ≤ now - heartbeat.lastSeen)

end Heartbeat

/-- How a session ended. -/
inductive SessionEnd
  | outcome (outcome : ConnectionOutcome)
  | panicked

/-- What silence ends a session with. -/
def heartbeatsUnanswered : SessionEnd :=
  .outcome (.transportFailed "the cloud stopped answering heartbeats")

/-- The heartbeat of a session, and the times the statements are about. -/
structure SessionClock where
  heartbeat : Heartbeat
  ended : Option SessionEnd
  /-- When the last frame was received; the session's start, where none was. -/
  lastFrame : Nat
  lastTick : Nat
  now : Nat

inductive SessionEvent
  /-- The ticker's arm, with what its uploads and its ping come to. -/
  | tick (now : Nat) (uploads ping : Except String Unit)
  | frame (now : Nat)
  /-- Time passes. -/
  | wait (now : Nat)
  /-- Another arm ends the session. -/
  | ends (outcome : ConnectionOutcome)

namespace SessionClock

def start (intervalSeconds now : Nat) : SessionClock :=
  ⟨.new intervalSeconds now, none, now, now, now⟩

/-- One tick of a session that runs. -/
def tick (s : SessionClock) (now : Nat) (uploads ping : Except String Unit) : SessionClock :=
  let s := { s with lastTick := now, now }
  match s.heartbeat.isOverdue now with
  | none => { s with ended := some .panicked }
  | some true => { s with ended := some heartbeatsUnanswered }
  | some false =>
      match uploads with
      | .error reason => { s with ended := some (.outcome (.transportFailed reason)) }
      | .ok () =>
          if s.heartbeat.pingDue now then
            match ping with
            | .error reason => { s with ended := some (.outcome (.transportFailed reason)) }
            | .ok () => { s with heartbeat := s.heartbeat.noteSeen now }
          else s

/-- One arm of the loop. -/
def arm (s : SessionClock) : SessionEvent → SessionClock
  | .tick now uploads ping => s.tick now uploads ping
  | .frame now => { s with heartbeat := s.heartbeat.noteSeen now, lastFrame := now, now }
  | .wait now => { s with now }
  | .ends outcome => { s with ended := some (.outcome outcome) }

def step (s : SessionClock) (e : SessionEvent) : SessionClock :=
  if s.ended.isSome then s else s.arm e

/-- The time of an event. -/
def timeOf : SessionEvent → Option Nat
  | .tick now _ _ | .frame now | .wait now => some now
  | .ends _ => none

/-- Time goes on, and the next tick comes within a tick of the last. -/
def Timely (s : SessionClock) (e : SessionEvent) : Prop :=
  s.ended = none → ∀ now ∈ timeOf e, s.now ≤ now ∧ now ≤ s.lastTick + sessionTick

/-- A session that runs was not silent for longer than the timeout and one tick. -/
def Bounded (s : SessionClock) : Prop :=
  s.ended = none → ∀ timeout ∈ s.heartbeat.timeout, s.now ≤ s.lastFrame + timeout + sessionTick

/-- At this time no ping was sent since the last frame, or the silence is within its bound. -/
def Heard (s : SessionClock) (now : Nat) : Prop :=
  s.heartbeat.lastSeen = s.lastFrame ∨
    ∀ timeout ∈ s.heartbeat.timeout, now ≤ s.lastFrame + timeout + sessionTick

/-- The session is heard, or the tick finds the last ping unanswered for a timeout, or cannot
upload or ping. -/
def Answered (s : SessionClock) : SessionEvent → Prop
  | .tick now uploads ping => s.ended = none → s.Heard now ∨ s.heartbeat.isOverdue now = some true ∨
      (∃ reason, uploads = .error reason) ∨
      s.heartbeat.pingDue now = true ∧ ∃ reason, ping = .error reason
  | .wait now => s.ended = none → s.Heard now
  | .frame _ | .ends _ => True

instance (s : SessionClock) (e : SessionEvent) : Decidable (s.Timely e) :=
  inferInstanceAs (Decidable (s.ended = none → ∀ now ∈ timeOf e, _))

instance (s : SessionClock) : Decidable s.Bounded :=
  inferInstanceAs (Decidable (s.ended = none → ∀ timeout ∈ s.heartbeat.timeout, _))

/-! ### What a tick leaves -/

variable {s : SessionClock} {e : SessionEvent} {now : Nat} {uploads ping : Except String Unit}

/-- A session that outlives a tick was not overdue, and is as it was, or has sent a ping. -/
theorem tick_running (h : (s.tick now uploads ping).ended = none) :
    s.heartbeat.isOverdue now = some false ∧ uploads = .ok () ∧
      (s.heartbeat.pingDue now = false ∧ s.tick now uploads ping = { s with lastTick := now, now } ∨
        ping = .ok () ∧ s.tick now uploads ping =
          { s with heartbeat := s.heartbeat.noteSeen now, lastTick := now, now }) := by
  unfold tick at h ⊢
  cases hoverdue : s.heartbeat.isOverdue now with
  | none => simp [hoverdue] at h
  | some overdue =>
      cases overdue with
      | true => simp [hoverdue] at h
      | false =>
          cases uploads with
          | error reason => simp [hoverdue] at h
          | ok =>
              cases hdue : s.heartbeat.pingDue now with
              | false => simp [hoverdue, hdue]
              | true =>
                  cases ping with
                  | error reason => simp [hoverdue, hdue] at h
                  | ok => simp [hoverdue, hdue]

/-- What is not overdue was seen within the timeout. -/
theorem lt_of_not_overdue (h : s.heartbeat.isOverdue now = some false) :
    ∀ timeout ∈ s.heartbeat.timeout, now < s.heartbeat.lastSeen + timeout := by
  intro timeout htimeout
  rw [Option.mem_def] at htimeout
  rw [Heartbeat.isOverdue, htimeout, Option.map_some, Option.some.injEq,
    decide_eq_false_iff_not] at h
  omega

/-- A peer that is overdue loses its session, as a transport failure. -/
theorem tick_of_overdue (h : s.heartbeat.isOverdue now = some true) :
    (s.tick now uploads ping).ended = some heartbeatsUnanswered := by
  simp [tick, h]

/-! ### Runs -/

/-- What the runs keep besides the bound. A session that sent no ping since the last frame was
within the timeout at its last tick. -/
structure Ticking (s : SessionClock) : Prop where
  interval : 0 < s.heartbeat.interval
  lastTick : s.lastTick ≤ s.now
  seen : s.heartbeat.lastSeen = s.lastFrame → ∀ timeout ∈ s.heartbeat.timeout,
    s.lastTick < s.lastFrame + timeout

theorem timeout_pos {heartbeat : Heartbeat} (h : 0 < heartbeat.interval) :
    ∀ timeout ∈ heartbeat.timeout, 0 < timeout := by
  intro timeout htimeout
  unfold Heartbeat.timeout at htimeout
  split at htimeout
  · obtain rfl : heartbeat.interval + heartbeat.grace = timeout := by simpa using htimeout
    omega
  · cases htimeout

theorem ticking_start (intervalSeconds now : Nat) : (start intervalSeconds now).Ticking := by
  have hinterval : 0 < (start intervalSeconds now).heartbeat.interval := by
    simp only [start, Heartbeat.new]
    omega
  exact ⟨hinterval, Nat.le_refl _, fun _ timeout htimeout =>
    Nat.lt_add_of_pos_right (timeout_pos hinterval timeout htimeout)⟩

/-- What holds of a session while it runs. -/
def Held (s : SessionClock) : Prop := s.ended = none → s.Ticking

theorem running_of_step (h : (s.step e).ended = none) : s.ended = none := by
  unfold step at h
  cases hs : s.ended with
  | none => rfl
  | some ending => simp [hs] at h

theorem step_of_running (hs : s.ended = none) : s.step e = s.arm e := by
  simp [step, hs]

theorem Held.step (h : s.Held) (htimely : s.Timely e) : (s.step e).Held := by
  intro hrun
  have hs := running_of_step hrun
  have hticking := h hs
  rw [step_of_running hs] at hrun ⊢
  cases e with
  | tick now uploads ping =>
      obtain ⟨hoverdue, -, ⟨-, hstep⟩ | ⟨-, hstep⟩⟩ := tick_running hrun
      · rw [arm, hstep]
        refine ⟨hticking.interval, Nat.le_refl _, fun hseen timeout htimeout => ?_⟩
        have hlt := lt_of_not_overdue hoverdue timeout htimeout
        exact hseen ▸ hlt
      · rw [arm, hstep]
        refine ⟨hticking.interval, Nat.le_refl _, fun hseen timeout htimeout => ?_⟩
        have hpos := timeout_pos hticking.interval timeout htimeout
        have hnow : now = s.lastFrame := hseen
        exact hnow ▸ Nat.lt_add_of_pos_right hpos
  | frame now =>
      obtain ⟨hlater, -⟩ := htimely hs now rfl
      refine ⟨hticking.interval, hticking.lastTick.trans hlater, fun _ timeout htimeout => ?_⟩
      have hpos := timeout_pos hticking.interval timeout htimeout
      exact (hticking.lastTick.trans hlater).trans_lt (Nat.lt_add_of_pos_right hpos)
  | wait now =>
      obtain ⟨hlater, -⟩ := htimely hs now rfl
      exact ⟨hticking.interval, hticking.lastTick.trans hlater, hticking.seen⟩
  | ends outcome => cases hrun

/-- A session that is heard is within its bound, since its last tick was within the timeout. -/
theorem bounded_of_heard (hticking : s.Ticking) {now : Nat} (hnow : now ≤ s.lastTick + sessionTick)
    (h : s.Heard now) :
    ∀ timeout ∈ s.heartbeat.timeout, now ≤ s.lastFrame + timeout + sessionTick := by
  intro timeout htimeout
  rcases h with hseen | hbound
  · have hlt := hticking.seen hseen timeout htimeout
    omega
  · exact hbound timeout htimeout

theorem Bounded.step (h : s.Held) (htimely : s.Timely e) (hanswered : s.Answered e) :
    (s.step e).Bounded := by
  intro hrun
  have hs := running_of_step hrun
  rw [step_of_running hs] at hrun ⊢
  cases e with
  | tick now uploads ping =>
      obtain ⟨hoverdue, huploads, hend⟩ := tick_running hrun
      have hheard : s.Heard now := by
        rcases hanswered hs with hheard | hover | ⟨reason, hfailed⟩ | ⟨hdue, reason, hfailed⟩
        · exact hheard
        · rw [hoverdue] at hover
          cases hover
        · rw [huploads] at hfailed
          cases hfailed
        · rcases hend with ⟨hnot, -⟩ | ⟨hsent, -⟩
          · rw [hdue] at hnot
            cases hnot
          · rw [hsent] at hfailed
            cases hfailed
      have hbound := bounded_of_heard (h hs) (htimely hs now rfl).2 hheard
      rcases hend with ⟨-, hstep⟩ | ⟨-, hstep⟩
      · rw [arm, hstep]
        exact hbound
      · rw [arm, hstep]
        exact hbound
  | frame now =>
      intro timeout _
      exact (Nat.le_add_right now timeout).trans (Nat.le_add_right _ _)
  | wait now => exact bounded_of_heard (h hs) (htimely hs now rfl).2 (hanswered hs)
  | ends outcome => cases hrun

/-- A tick after which the session runs, or that ends it, finds it heard or has its reason. -/
theorem answered_of_bounded (h : (s.step e).Bounded) : s.Answered e := by
  cases e with
  | frame now => trivial
  | ends outcome => trivial
  | wait now =>
      intro hs
      rw [step_of_running hs] at h
      exact .inr (h hs)
  | tick now uploads ping =>
      intro hs
      rw [step_of_running hs, arm] at h
      unfold tick at h
      cases hoverdue : s.heartbeat.isOverdue now with
      | none =>
          -- the timeout does not fit, and bounds nothing
          refine .inl (.inr fun timeout htimeout => ?_)
          rw [Heartbeat.isOverdue, htimeout] at hoverdue
          cases hoverdue
      | some overdue =>
          cases overdue with
          | true => exact .inr (.inl rfl)
          | false =>
              simp only [hoverdue] at h
              cases uploads with
              | error reason => exact .inr (.inr (.inl ⟨reason, rfl⟩))
              | ok =>
                  cases hdue : s.heartbeat.pingDue now with
                  | false =>
                      simp only [hdue] at h
                      exact .inl (.inr (h hs))
                  | true =>
                      simp only [hdue, if_true] at h
                      cases ping with
                      | error reason => exact .inr (.inr (.inr ⟨rfl, reason, rfl⟩))
                      | ok => exact .inl (.inr (h hs))

/-- A silent peer loses its session within the timeout and one tick, all along a run whose ticks
come on time, exactly as long as no ping keeps the session from seeing the silence. What a tick
ends for silence, it ends as a transport failure. -/
theorem silence_ends_iff (intervalSeconds begins : Nat) (events : List SessionEvent)
    (h : Machine.Every step Timely (start intervalSeconds begins) events) :
    ((∀ n, (Machine.run step (start intervalSeconds begins) (events.take n)).Bounded) ↔
        Machine.Every step Answered (start intervalSeconds begins) events) ∧
      ∀ (s : SessionClock) (now : Nat) (uploads ping : Except String Unit),
        s.heartbeat.isOverdue now = some true →
          (s.tick now uploads ping).ended = some heartbeatsUnanswered := by
  refine ⟨?_, fun _ _ _ _ => tick_of_overdue⟩
  refine h.forall_take_iff (I := fun s : SessionClock => s.Held ∧ s.Bounded) ⟨?_, ?_⟩
    (fun _ hs => hs.2) ?_ fun _ _ _ _ => answered_of_bounded
  · exact fun _ => ticking_start intervalSeconds begins
  · exact fun _ timeout _ => (Nat.le_add_right _ timeout).trans (Nat.le_add_right _ _)
  · exact fun s e hs htimely hanswered => ⟨hs.1.step htimely, .step hs.1 htimely hanswered⟩

/-- A frame after the first tick, and another tick. -/
def heardOnce : List SessionEvent :=
  [.tick 1000000000 (.ok ()) (.ok ()), .frame 1500000000, .tick 2000000000 (.ok ()) (.ok ())]

theorem silence_ends_frame : Machine.Every step Timely (start 20 0) heardOnce ∧
    ∀ n, (Machine.run step (start 20 0) (heardOnce.take n)).Bounded :=
  ⟨by decide, (silence_ends_iff 20 0 heardOnce (by decide)).1.mpr
    ⟨fun _ => .inl (.inl rfl), trivial, fun _ => .inl (.inl rfl), trivial⟩⟩

/-- An interval of 20 seconds, and a minute without a frame: a ping goes out every 20 seconds,
and the session runs on. -/
def silentMinute : List SessionEvent :=
  (List.range 60).map fun second => .tick ((second + 1) * sessionTick) (.ok ()) (.ok ())

theorem silence_goes_on : Machine.Every step Timely (start 20 0) silentMinute ∧
    ¬ (Machine.run step (start 20 0) silentMinute).Bounded := by
  decide

end SessionClock

end Argus
