import Mathlib.Init

/-!
# Event machines

A machine is a step function on its states, and a run of it is a list of events folded over
a state. `Every` says that each event of a run meets a condition at the state it finds;
`Every.invariant` is the rule for what such runs keep.
-/

namespace Machine

variable {σ ε : Type*} (step : σ → ε → σ) (P : σ → ε → Prop)

/-- The state after a list of events. -/
def run (s : σ) (events : List ε) : σ := events.foldl step s

/-- Each event meets `P` at the state it finds. -/
def Every : σ → List ε → Prop
  | _, [] => True
  | s, e :: events => P s e ∧ Every (step s e) events

instance decidableEvery [∀ s e, Decidable (P s e)] :
    (s : σ) → (events : List ε) → Decidable (Every step P s events)
  | _, [] => isTrue trivial
  | s, e :: events =>
      haveI := decidableEvery (step s e) events
      inferInstanceAs (Decidable (P s e ∧ Every step P (step s e) events))

variable {step P} {s : σ} {e : ε} {events events' : List ε}

@[simp] theorem run_nil : run step s [] = s := rfl

theorem run_cons : run step s (e :: events) = run step (step s e) events := rfl

@[simp] theorem run_singleton : run step s [e] = step s e := rfl

@[simp] theorem run_append :
    run step s (events ++ events') = run step (run step s events) events' :=
  List.foldl_append

theorem every_append : Every step P s (events ++ events') ↔
    Every step P s events ∧ Every step P (run step s events) events' := by
  induction events generalizing s with
  | nil => simp [Every]
  | cons e events ih =>
      simp only [List.cons_append, Every, ih, and_assoc]
      rfl

theorem every_snoc : Every step P s (events ++ [e]) ↔
    Every step P s events ∧ P (run step s events) e := by
  simp [every_append, Every]

theorem Every.and {Q : σ → ε → Prop} (h : Every step P s events) (h' : Every step Q s events) :
    Every step (fun s e => P s e ∧ Q s e) s events := by
  induction events generalizing s with
  | nil => trivial
  | cons e events ih => exact ⟨⟨h.1, h'.1⟩, ih h.2 h'.2⟩

/-- What every step that meets `P` keeps, a run whose events meet `P` keeps. -/
theorem Every.invariant {I : σ → Prop} (h : Every step P s events) (hs : I s)
    (hstep : ∀ s e, I s → P s e → I (step s e)) : I (run step s events) := by
  induction events generalizing s with
  | nil => exact hs
  | cons e events ih => exact ih h.2 (hstep s e hs h.1)

/-- What the steps that meet `P` do wherever such a run can be. -/
theorem Every.of_invariant {Q : σ → ε → Prop} {I : σ → Prop} (h : Every step P s events)
    (hs : I s) (hstep : ∀ s e, I s → P s e → I (step s e)) (hQ : ∀ s e, I s → P s e → Q s e) :
    Every step Q s events := by
  induction events generalizing s with
  | nil => trivial
  | cons e events ih => exact ⟨hQ s e hs h.1, ih h.2 (hstep s e hs h.1)⟩

/-- What every step keeps, every run keeps. -/
theorem invariant {I : σ → Prop} (hs : I s) (hstep : ∀ s e, I s → I (step s e))
    (events : List ε) : I (run step s events) := by
  induction events generalizing s with
  | nil => exact hs
  | cons e events ih => exact ih (hstep s e hs)

/-- Where `f` carries every step over to another machine, it carries every run over. -/
theorem run_project {τ : Type*} {step' : τ → ε → τ} {f : σ → τ} {I : σ → Prop} (hs : I s)
    (hstep : ∀ s e, I s → I (step s e) ∧ f (step s e) = step' (f s) e) (events : List ε) :
    f (run step s events) = run step' (f s) events := by
  induction events generalizing s with
  | nil => rfl
  | cons e events ih =>
      obtain ⟨hnext, hf⟩ := hstep s e hs
      rw [run_cons, run_cons, ih hnext, hf]

/-- Where, of the steps that meet `A`, those that meet `P` are the only ones to keep `R`, a run of
such steps is in `R` all along exactly when its events meet `P`. `I` is what carries `R` through
the run. -/
theorem Every.forall_take_iff {A : σ → ε → Prop} {I R : σ → Prop} (h : Every step A s events)
    (hs : I s) (hR : ∀ s, I s → R s)
    (hstep : ∀ s e, I s → A s e → P s e → I (step s e))
    (honly : ∀ s e, I s → A s e → R (step s e) → P s e) :
    (∀ n, R (run step s (events.take n))) ↔ Every step P s events := by
  induction events generalizing s with
  | nil => simpa [Every] using hR s hs
  | cons e events ih =>
      constructor
      · intro hall
        have he : P s e := honly s e hs h.1 (hall 1)
        exact ⟨he, (ih h.2 (hstep s e hs h.1 he)).mp fun n => hall (n + 1)⟩
      · rintro ⟨he, hevents⟩ n
        cases n with
        | zero => exact hR s hs
        | succ n => exact (ih h.2 (hstep s e hs h.1 he)).mpr hevents n

/-- A condition on the events alone. -/
theorem every_events {Q : ε → Prop} :
    Every step (fun _ e => Q e) s events ↔ ∀ e ∈ events, Q e := by
  induction events generalizing s with
  | nil => simp [Every]
  | cons e events ih => simp only [Every, ih, List.forall_mem_cons]

/-- Conditions that come to the same wherever a run can be. -/
theorem every_congr {Q : σ → ε → Prop} {I : σ → Prop} (hs : I s)
    (hstep : ∀ s e, I s → I (step s e)) (hiff : ∀ s e, I s → (P s e ↔ Q s e)) :
    Every step P s events ↔ Every step Q s events := by
  induction events generalizing s with
  | nil => exact Iff.rfl
  | cons e events ih => exact and_congr (hiff s e hs) (ih (hstep s e hs))

theorem every_true : Every step (fun _ _ => True) s events := by
  induction events generalizing s with
  | nil => trivial
  | cons e events ih => exact ⟨trivial, ih⟩

/-- Where the steps that meet `P` are the only ones to keep `R`, a run is in `R` all along exactly
when its events meet `P`. `I` is what carries `R` through the run. -/
theorem forall_take_iff_every {I R : σ → Prop} (hs : I s) (hR : ∀ s, I s → R s)
    (hstep : ∀ s e, I s → P s e → I (step s e)) (honly : ∀ s e, R s → R (step s e) → P s e) :
    (∀ n, R (run step s (events.take n))) ↔ Every step P s events :=
  every_true.forall_take_iff hs hR (fun s e hI _ hP => hstep s e hI hP)
    fun s e hI _ hnext => honly s e (hR s hI) hnext

end Machine
