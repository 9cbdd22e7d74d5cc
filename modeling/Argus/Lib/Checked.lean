import Mathlib.Algebra.BigOperators.Group.List.Basic
import Mathlib.Algebra.Ring.Nat

/-!
# Checked 64-bit arithmetic

Sums and differences of 64-bit numbers, with `none` where the machine's result would not be the
number: a build with checks panics there, and one without goes on with the wrapped number.
-/

namespace Checked

/-- `u64::MAX`. -/
def maxU64 : Nat := 2 ^ 64 - 1

def add (a b : Nat) : Option Nat := if a + b ≤ maxU64 then some (a + b) else none

def sub (a b : Nat) : Option Nat := if b ≤ a then some (a - b) else none

/-- A sum of several numbers, from left to right. -/
def sum (numbers : List Nat) : Option Nat := numbers.foldlM add 0

variable {a b : Nat} {numbers : List Nat}

theorem add_of_le (h : a + b ≤ maxU64) : add a b = some (a + b) := if_pos h

theorem sub_of_le (h : b ≤ a) : sub a b = some (a - b) := if_pos h

theorem foldlM_add : numbers.foldlM add a =
    if a + numbers.sum ≤ maxU64 ∨ numbers = [] then some (a + numbers.sum) else none := by
  induction numbers generalizing a with
  | nil => simp
  | cons number numbers ih =>
      rw [List.foldlM_cons, List.sum_cons, ← Nat.add_assoc]
      by_cases hfirst : a + number ≤ maxU64
      · rw [add_of_le hfirst]
        show numbers.foldlM add (a + number) = _
        rw [ih]
        by_cases hnil : numbers = []
        · simp [hnil, hfirst]
        · simp [hnil]
      · have hover : ¬ a + number + numbers.sum ≤ maxU64 := by omega
        rw [add, if_neg hfirst, if_neg (by simp [hover])]
        rfl

/-- The sum is computed exactly if it fits: the partial sums only grow. -/
theorem sum_eq : sum numbers = if numbers.sum ≤ maxU64 then some numbers.sum else none := by
  rw [sum, foldlM_add, Nat.zero_add]
  by_cases hnil : numbers = [] <;> simp [hnil]

end Checked
