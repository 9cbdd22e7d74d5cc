import Mathlib.Algebra.Order.Group.Int
import Mathlib.Algebra.Order.Pi
import Mathlib.Algebra.Ring.Int.Defs
import Mathlib.Order.Basic

/-!
# Anchored windows

A rate limiter that keeps **one** counter per limit: the anchor of the period it counts
(an hour, a day) and the units taken in it. A window whose anchor is not the period asked
about counts as empty, and every operation re-anchors the window at the period it is for.

The windows know nothing of the units still out. `Bounds limit w out` ties them to a
ledger `out` of the units out per period: the counter covers the period it is anchored at
and every later one, and no period has more units out than the limit. Rolling, taking and
giving keep it as long as the period they are for is not *before* the window's anchor
(`Reached`); an operation for an earlier period loses the count of the later one.
-/

namespace Window

/-- The anchor of the counted period and the units taken in it. -/
abbrev Counter (α : Type) := Option (α × Nat)

section Operations

variable {α : Type} [DecidableEq α]

/-- The units taken in the period `a`: none when the window counts another one. -/
def rolled (w : Counter α) (a : α) : Nat :=
  match w with
  | some (b, used) => if b = a then used else 0
  | none => 0

/-- Re-anchors the window at `a`. -/
def roll (w : Counter α) (a : α) : Counter α := some (a, rolled w a)

/-- Takes a unit in the period `a`. -/
def take (w : Counter α) (a : α) : Counter α := some (a, rolled w a + 1)

/-- Gives a unit of the period `a` back, floored at zero. -/
def give (w : Counter α) (a : α) : Counter α := some (a, rolled w a - 1)

@[simp] theorem rolled_some {a b : α} {used : Nat} :
    rolled (some (b, used)) a = if b = a then used else 0 := rfl

@[simp] theorem rolled_roll {w : Counter α} {a : α} : rolled (roll w a) a = rolled w a := by
  simp [roll]

@[simp] theorem take_roll {w : Counter α} {a : α} : take (roll w a) a = take w a := by
  simp [take]

/-- Re-anchoring counts nothing new. -/
theorem rolled_roll_le (w : Counter α) (a c : α) : rolled (roll w a) c ≤ rolled w c := by
  by_cases h : a = c
  · rw [h, rolled_roll]
  · simp [roll, h]

theorem rolled_give_le (w : Counter α) (a c : α) : rolled (give w a) c ≤ rolled w c := by
  by_cases h : a = c
  · simp [give, h]
  · simp [give, h]

end Operations

variable {α : Type} [LinearOrder α] {w : Counter α} {a c : α} {limit : Nat} {out : α → Int}

/-- The window does not count a period after `a`. -/
def Reached (w : Counter α) (a : α) : Prop := ∀ b used, w = some (b, used) → b ≤ a

instance : Decidable (Reached w a) :=
  match w with
  | none => isTrue (by simp [Reached])
  | some (b, _) => decidable_of_iff (b ≤ a) (by simp [Reached])

theorem Reached.trans (h : Reached w a) (hac : a ≤ c) : Reached w c :=
  fun b used hw => (h b used hw).trans hac

theorem reached_some {b : α} {used : Nat} : Reached (some (b, used)) a ↔ b ≤ a := by
  simp [Reached]

/-- Periods after the ones a window reached are empty to it. -/
theorem Reached.rolled_eq_zero (h : Reached w a) (hac : a < c) : rolled w c = 0 := by
  cases w with
  | none => rfl
  | some counter =>
      obtain ⟨b, used⟩ := counter
      have hb : b < c := (h b used rfl).trans_lt hac
      simp [hb.ne]

/-- The window covers the units out in the periods it reached, and none has more than
the limit. -/
structure Bounds (limit : Nat) (w : Counter α) (out : α → Int) : Prop where
  covered : ∀ a, Reached w a → out a ≤ rolled w a
  capped : ∀ a, out a ≤ limit

theorem Bounds.init (w : Counter α) : Bounds limit w 0 :=
  ⟨fun _ _ => Int.natCast_nonneg _, fun _ => Int.natCast_nonneg _⟩

/-- The rule behind the three operations: re-anchoring at a period the window reached
keeps the bounds when the new count covers that period. -/
theorem Bounds.reanchor {out' : α → Int} {used : Nat} (h : Bounds limit w out)
    (hreached : Reached w a) (hcovered : out' a ≤ used) (hcapped : out' a ≤ limit)
    (hframe : ∀ c, c ≠ a → out' c = out c) : Bounds limit (some (a, used)) out' := by
  constructor
  · intro c hc
    rcases (reached_some.mp hc).eq_or_lt with rfl | hac
    · simpa using hcovered
    · have hempty := h.covered c (hreached.trans hac.le)
      rw [hreached.rolled_eq_zero hac] at hempty
      simpa [hframe c hac.ne', hac.ne] using hempty
  · intro c
    by_cases hc : c = a
    · exact hc ▸ hcapped
    · exact hframe c hc ▸ h.capped c

theorem Bounds.roll (h : Bounds limit w out) (hreached : Reached w a) :
    Bounds limit (Window.roll w a) out :=
  h.reanchor hreached (h.covered a hreached) (h.capped a) fun _ _ => rfl

theorem Bounds.take (h : Bounds limit w out) (hreached : Reached w a)
    (hroom : rolled w a < limit) : Bounds limit (Window.take w a) (out + Pi.single a 1) := by
  have hcovered := h.covered a hreached
  refine h.reanchor hreached ?_ ?_ fun c hc => by simp [hc]
  · simp only [Pi.add_apply, Pi.single_eq_same]
    omega
  · simp only [Pi.add_apply, Pi.single_eq_same]
    omega

theorem Bounds.give (h : Bounds limit w out) (hreached : Reached w a) :
    Bounds limit (Window.give w a) (out - Pi.single a 1) := by
  have hcovered := h.covered a hreached
  have hcapped := h.capped a
  refine h.reanchor hreached ?_ ?_ fun c hc => by simp [hc]
  · simp only [Pi.sub_apply, Pi.single_eq_same]
    omega
  · simp only [Pi.sub_apply, Pi.single_eq_same]
    omega

end Window
