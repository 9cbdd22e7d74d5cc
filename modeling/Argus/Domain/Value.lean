import Argus.Lib.Ieee
import Mathlib.Data.BitVec

/-!
# Values shared by every layer

Identifiers, instants, and the JSON document type the daemon passes arguments,
schemas and evidence around in (`serde_json::Value`).

An object is the list of its fields. The source's map holds each key once, so the
first entry of a key is the entry of that key.
-/

namespace Argus

open Ieee (Datum)

/-- A 128-bit identifier. -/
abbrev Uuid := BitVec 128

/-- An instant of UTC time, in nanoseconds since the epoch. -/
structure DateTime where
  nanos : Int
  deriving DecidableEq, Repr

/-- A length of time, in nanoseconds. -/
abbrev Duration := Int

namespace DateTime

/-- Whole seconds since the epoch; the source's accessor rounds towards the past. -/
def timestamp (at_ : DateTime) : Int := at_.nanos / 1000000000

/-- The time elapsed from `earlier` to `later`. -/
def since (later earlier : DateTime) : Duration := later.nanos - earlier.nanos

/-- The instant `d` after `at_`. -/
def add (at_ : DateTime) (d : Duration) : DateTime := ⟨at_.nanos + d⟩

/-- `at_` is strictly before `other`. -/
def before (at_ other : DateTime) : Bool := decide (at_.nanos < other.nanos)

instance : LinearOrder DateTime :=
  LinearOrder.lift' nanos fun a b h => by
    cases a
    cases b
    simpa using h

theorem le_def {a b : DateTime} : a ≤ b ↔ a.nanos ≤ b.nanos := Iff.rfl

/-- More time has passed at a later instant, and since an earlier one. -/
theorem since_le_since {a b c d : DateTime} (hab : a ≤ b) (hcd : c ≤ d) :
    c.since b ≤ d.since a := Int.sub_le_sub hcd hab

end DateTime

/-- `Duration::minutes`. -/
def minutes (n : Int) : Duration := n * 60000000000

/-- A JSON number, as `serde_json` keeps it: an unsigned or a negative integer, or a
double. The double `-0.0` stands apart, for `Datum` has one zero. -/
inductive Number
  | posInt (n : Nat)
  | negInt (n : Int)
  | float (x : Datum)
  | negZero
  deriving DecidableEq

/-- `Number::as_f64`: an integer is rounded to the nearest double. -/
def Number.asF64 : Number → Datum
  | posInt n => Ieee.round 53 (-1074) 1024 n
  | negInt n => Ieee.round 53 (-1074) 1024 n
  | float x => x
  | negZero => .finite 0

/-- The number without the sign of a zero. -/
def Number.unsigned : Number → Number
  | negZero => float (.finite 0)
  | number => number

/-- A JSON document. -/
inductive Value
  | null
  | bool (b : Bool)
  | number (n : Number)
  | string (s : String)
  | array (items : List Value)
  | object (fields : List (String × Value))

namespace Value

mutual
/-- Equality of documents is decidable. The nested lists keep the deriving handler
from producing this. -/
def decEq : (a b : Value) → Decidable (a = b)
  | null, null => isTrue rfl
  | bool a, bool b => decidable_of_iff (a = b) (by simp)
  | number a, number b => decidable_of_iff (a = b) (by simp)
  | string a, string b => decidable_of_iff (a = b) (by simp)
  | array a, array b => have := decEqItems a b; decidable_of_iff (a = b) (by simp)
  | object a, object b => have := decEqFields a b; decidable_of_iff (a = b) (by simp)
  | null, bool _ | null, number _ | null, string _ | null, array _ | null, object _
  | bool _, null | bool _, number _ | bool _, string _ | bool _, array _ | bool _, object _
  | number _, null | number _, bool _ | number _, string _ | number _, array _
  | number _, object _ | string _, null | string _, bool _ | string _, number _
  | string _, array _ | string _, object _ | array _, null | array _, bool _
  | array _, number _ | array _, string _ | array _, object _ | object _, null
  | object _, bool _ | object _, number _ | object _, string _ | object _, array _ =>
      isFalse (by simp)
def decEqItems : (a b : List Value) → Decidable (a = b)
  | [], [] => isTrue rfl
  | a :: as, b :: bs =>
      have := decEq a b
      have := decEqItems as bs
      decidable_of_iff (a = b ∧ as = bs) (by simp)
  | [], _ :: _ | _ :: _, [] => isFalse (by simp)
def decEqFields : (a b : List (String × Value)) → Decidable (a = b)
  | [], [] => isTrue rfl
  | (k, a) :: as, (l, b) :: bs =>
      have := decEq a b
      have := decEqFields as bs
      decidable_of_iff ((k = l ∧ a = b) ∧ as = bs) (by simp)
  | [], _ :: _ | _ :: _, [] => isFalse (by simp)
end

instance : DecidableEq Value := decEq

mutual

/-- The document without the signs of its zeros. -/
def unsigned : Value → Value
  | number n => number n.unsigned
  | array items => array (unsignedItems items)
  | object fields => object (unsignedFields fields)
  | value => value

def unsignedItems : List Value → List Value
  | [] => []
  | item :: items => item.unsigned :: unsignedItems items

def unsignedFields : List (String × Value) → List (String × Value)
  | [] => []
  | (key, value) :: fields => (key, value.unsigned) :: unsignedFields fields

end

/-- `a == b`. Doubles are compared as numbers, so that `-0.0` is the same as `0.0`. -/
def same (a b : Value) : Bool := a.unsigned == b.unsigned

/-- `value.get(key)`: the field of an object, nothing for any other document. -/
def get (key : String) : Value → Option Value
  | object fields => fields.lookup key
  | _ => none

/-- `Value::as_str`. -/
def asStr : Value → Option String
  | string s => some s
  | _ => none

/-- `Value::as_object`. -/
def asObject : Value → Option (List (String × Value))
  | object fields => some fields
  | _ => none

/-- `Value::as_f64`. -/
def asF64 : Value → Option Datum
  | number n => some n.asF64
  | _ => none

/-- `Value::as_u64`. -/
def asU64 : Value → Option Nat
  | number (.posInt n) => some n
  | _ => none

/-- The string held by the field `key`: `value.get(key).and_then(Value::as_str)`. -/
def getStr (key : String) (value : Value) : Option String := (value.get key).bind asStr

/-- A field's document is smaller than the document. -/
theorem sizeOf_get_lt {key : String} {v field : Value} (h : v.get key = some field) :
    sizeOf field < sizeOf v := by
  cases v with
  | object fields =>
      obtain ⟨l₁, l₂, hfields, -⟩ := List.lookup_eq_some_iff.mp h
      have hmem : (key, field) ∈ fields := by simp [hfields]
      have hlt := List.sizeOf_lt_of_mem hmem
      simp only [Prod.mk.sizeOf_spec, object.sizeOf_spec] at hlt ⊢
      omega
  | _ => simp [get] at h

end Value
end Argus
