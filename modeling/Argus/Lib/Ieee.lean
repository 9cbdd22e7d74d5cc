import Mathlib.Data.Int.Log
import Mathlib.Data.Rat.Floor

/-!
# IEEE 754 binary values

The values of a binary floating-point format, with the operations whose result does
not depend on how a value is encoded: comparison, clamping, and the conversion from
one format to a narrower one. A finite value is the rational number it denotes, so a
value of the wider format is any rational; `round` is where a format's precision
enters.

A comparison with NaN is false, and `clamp` passes NaN through, as IEEE 754 asks.
-/

namespace Ieee

/-- A floating-point value. The two zeros are one value here: no operation of this
module tells them apart. -/
inductive Datum
  | nan
  | negInf
  | posInf
  | finite (q : ℚ)
  deriving DecidableEq

namespace Datum

/-- `x >= y`: false as soon as one side is NaN. -/
def ge : Datum → Datum → Bool
  | nan, _ => false
  | _, nan => false
  | posInf, _ => true
  | _, negInf => true
  | negInf, _ => false
  | _, posInf => false
  | finite q, finite r => decide (r ≤ q)

/-- `x < y`: false as soon as one side is NaN. -/
def lt (x y : Datum) : Bool := y.ge x && !x.ge y

/-- The smaller value; NaN only if both are. -/
def min : Datum → Datum → Datum
  | nan, y => y
  | x, nan => x
  | x, y => if x.lt y then x else y

/-- `x.clamp(low, high)` with finite bounds. -/
def clamp (low high : ℚ) : Datum → Datum
  | nan => nan
  | negInf => finite low
  | posInf => finite high
  | finite q => finite (if q < low then low else if high < q then high else q)

/-- Two numbers are always comparable. -/
theorem ge_total {x y : Datum} (hx : x ≠ nan) (hy : y ≠ nan) : x.ge y ∨ y.ge x := by
  cases x <;> cases y <;> simp_all [ge, le_total]

theorem ge_trans {x y z : Datum} (hxy : x.ge y) (hyz : y.ge z) : x.ge z := by
  cases x <;> cases y <;> cases z <;> simp_all only [ge, decide_eq_true_eq, reduceCtorEq]
  exact le_trans hyz hxy

/-- What is compared with success is a number. -/
theorem ne_nan_of_ge {x y : Datum} (h : x.ge y) : x ≠ nan ∧ y ≠ nan := by
  cases x <;> cases y <;> simp_all [ge]

theorem lt_trans {x y z : Datum} (hxy : x.lt y) (hyz : y.lt z) : x.lt z := by
  simp only [lt, Bool.and_eq_true, Bool.not_eq_true'] at hxy hyz ⊢
  refine ⟨ge_trans hyz.1 hxy.1, ?_⟩
  by_contra hxz
  have hxz' : x.ge z := by simpa using hxz
  exact absurd (ge_trans hxz' hyz.1) (by simp [hxy.2])

/-- Of two numbers, one is not less than the other exactly if it is greater or equal. -/
theorem lt_eq_false_iff {x y : Datum} (hx : x ≠ nan) (hy : y ≠ nan) :
    x.lt y = false ↔ x.ge y := by
  have htotal := ge_total hx hy
  cases hxy : x.ge y <;> cases hyx : y.ge x <;> simp_all [lt]

end Datum

/-- The integer nearest to `q`, the even one when two are equally near. -/
def roundHalfEven (q : ℚ) : ℤ :=
  let d := q - ⌊q⌋
  if d < 1 / 2 then ⌊q⌋
  else if 1 / 2 < d then ⌊q⌋ + 1
  else if ⌊q⌋ % 2 = 0 then ⌊q⌋ else ⌊q⌋ + 1

/-- The exponent of the last place of `q` in a format of `precision` significant bits
whose smallest positive value is `2 ^ minExponent`. -/
def lastPlace (precision : ℕ) (minExponent : ℤ) (q : ℚ) : ℤ :=
  max (Int.log 2 |q| + 1 - precision) minExponent

/-- Round `q` to a format of `precision` bits, exponents from `minExponent`, and all
values below `2 ^ maxExponent` in absolute value. -/
def round (precision : ℕ) (minExponent maxExponent : ℤ) (q : ℚ) : Datum :=
  let ulp : ℚ := 2 ^ lastPlace precision minExponent q
  let r := roundHalfEven (q / ulp) * ulp
  if 2 ^ maxExponent ≤ r then .posInf
  else if r ≤ -2 ^ maxExponent then .negInf
  else .finite r

/-- `x as f32` for a value of any wider format. -/
def Datum.asF32 : Datum → Datum
  | finite q => round 24 (-149) 128 q
  | x => x

end Ieee
