import Argus.Executor.Privileged
import Argus.Lib.Checked

/-!
# The readers' text functions

The functions of the standard library that the readers take texts apart with.
-/

namespace Argus

/-- A line less the carriage return before its line feed. -/
def stripCr (line : List Char) : List Char :=
  if line.getLast? = some '\r' then line.dropLast else line

/-- `str::lines`. -/
def lines (text : List Char) : List (List Char) :=
  let pieces := text.splitOn '\n'
  pieces.dropLast.map stripCr ++ match pieces.getLast? with
    | some last => if last = [] then [] else [last]
    | none => []

/-- `str::split_whitespace`. -/
def words (text : List Char) : List (List Char) :=
  (text.splitOnP isWhitespace).filter (· ≠ [])

/-- `str::parse::<u64>`. -/
def parseU64 (text : List Char) : Option Nat :=
  let digits := match text with
    | '+' :: digits => digits
    | _ => text
  if digits = [] ∨ digits.any (fun c => !c.isDigit) then none
  else
    let n := digits.foldl (fun n c => 10 * n + (c.toNat - '0'.toNat)) 0
    if n ≤ Checked.maxU64 then some n else none

end Argus
