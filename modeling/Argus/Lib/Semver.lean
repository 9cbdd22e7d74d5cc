import Mathlib.Algebra.Group.Nat.Defs
import Mathlib.Data.Prod.Lex
import Mathlib.Data.List.Sort

/-!
# Semantic versions

`Version.parse` reads a version as its grammar has it: three numbers without leading zeros, an
optional pre-release after `-`, and optional build metadata after `+`. Releases, the versions
without either, are ordered by their numbers.
-/

structure Version where
  major : Nat
  minor : Nat
  patch : Nat
  pre : List Char
  build : List Char
  deriving DecidableEq

namespace Version

/-- A number of at most 64 bits, without leading zeros. -/
def number (digits : List Char) : Option Nat :=
  let value := digits.foldl (fun value digit => value * 10 + (digit.toNat - 48)) 0
  if digits.isEmpty || !digits.all Char.isDigit then none
  else if digits.head? = some '0' && digits != ['0'] then none
  else if value < 2 ^ 64 then some value
  else none

/-- One of the dotted identifiers of a pre-release or of build metadata. -/
def identifier (leadingZeros : Bool) (text : List Char) : Bool :=
  !text.isEmpty && text.all (fun c => c.isAlphanum || c == '-') &&
    (leadingZeros || !text.all Char.isDigit || text.head? != some '0' || text == ['0'])

/-- What follows the mark, if the mark is there: identifiers between dots. -/
def identifiers (leadingZeros : Bool) : List Char → Option (List Char)
  | [] => some []
  | _ :: text =>
      if (text.splitOn '.').all (identifier leadingZeros) then some text else none

def parse (text : String) : Option Version := do
  let (versioned, build) := text.toList.span (· != '+')
  let (core, pre) := versioned.span (· != '-')
  let build ← identifiers true build
  let pre ← identifiers false pre
  match core.splitOn '.' with
  | [major, minor, patch] =>
      let major ← number major
      let minor ← number minor
      let patch ← number patch
      some ⟨major, minor, patch, pre, build⟩
  | _ => none

example : parse "1.02.0" = none := by decide

example : parse "1.2.0-rc.1+b-7" = some ⟨1, 2, 0, "rc.1".toList, "b-7".toList⟩ := by decide

/-- The numbers of a version, by which releases are ordered. -/
def release (v : Version) : Nat ×ₗ Nat ×ₗ Nat := toLex (v.major, toLex (v.minor, v.patch))

end Version
