import Argus.Lib.Utf8
import Argus.Sensors.Text

/-!
# The HTTP responses of the container daemon

A response is split at its first blank line. Its head is text; its body is what follows, or the
chunks that it is made of where the head says so. The decoder takes one chunk after the other, from
a size line to the next, and every step leaves less of the input.
-/

namespace Argus

open Utf8 (fromUtf8 fromUtf8Lossy)

/-- The errors of the adapter. -/
inductive ContainerError
  | unavailable (reason : String)
  | other (reason : String)
  | parse (reason : String)
  deriving DecidableEq

def ContainerError.display : ContainerError → String
  | unavailable reason => "docker is unavailable: " ++ reason
  | other reason => "docker error: " ++ reason
  | parse reason => "failed to parse docker response: " ++ reason

/-! ### Bytes -/

/-- The position of the first window of the bytes that is the needle. -/
def position (needle : List UInt8) : List UInt8 → Option Nat
  | [] => none
  | b :: rest =>
      if needle.isPrefixOf (b :: rest) then some 0 else (position needle rest).map (· + 1)

def crlf : List UInt8 := [0x0D, 0x0A]

def blankLine : List UInt8 := crlf ++ crlf

/-! ### Chunks -/

def hexDigit (c : Char) : Option Nat :=
  if '0' ≤ c ∧ c ≤ '9' then some (c.toNat - '0'.toNat)
  else if 'a' ≤ c ∧ c ≤ 'f' then some (c.toNat - 'a'.toNat + 10)
  else if 'A' ≤ c ∧ c ≤ 'F' then some (c.toNat - 'A'.toNat + 10)
  else none

/-- The number that hexadecimal digits stand for. -/
def hexValue (digits : List Char) : Option Nat :=
  (digits.mapM hexDigit).map fun values => values.foldl (fun n value => 16 * n + value) 0

/-- The number behind an optional plus. -/
def dropPlus : List Char → List Char
  | '+' :: digits => digits
  | text => text

/-- `usize::from_str_radix(text, 16)`. -/
def parseHex (text : List Char) : Option Nat :=
  let digits := dropPlus text
  if digits = [] then none else (hexValue digits).filter (· ≤ Checked.maxU64)

/-- One pass of the decoder: the data of a chunk and the input behind it, or `none` at the zero
chunk. -/
def chunkStep (input : List UInt8) : Except ContainerError (Option (List UInt8 × List UInt8)) :=
  match position crlf input with
  | none => .error (.parse "truncated chunk header")
  | some lineEnd =>
      match fromUtf8 (input.take lineEnd) with
      | none => .error (.parse "non-UTF-8 chunk size")
      | some line =>
          let token := trim (.ofList (line.takeWhile (· ≠ ';')))
          match parseHex token.toList with
          | none => .error (.parse ("invalid chunk size '" ++ token ++ "'"))
          | some size =>
              let input := input.drop (lineEnd + 2)
              if size = 0 then .ok none
              else if input.length < size then .error (.parse "truncated chunk data")
              else
                let rest := input.drop size
                -- each data chunk is followed by CRLF
                .ok (some (input.take size, if crlf.isPrefixOf rest then rest.drop 2 else rest))

theorem position_lt {needle bytes : List UInt8} {i : Nat} (h : position needle bytes = some i) :
    i < bytes.length := by
  induction bytes generalizing i with
  | nil => cases h
  | cons b rest ih =>
      rw [position] at h
      split_ifs at h with hstarts
      · cases h
        exact Nat.succ_pos _
      · obtain ⟨j, hj, rfl⟩ := Option.map_eq_some_iff.mp h
        exact Nat.succ_lt_succ (ih hj)

/-- Every pass leaves less. -/
theorem chunkStep_lt {input data rest : List UInt8}
    (h : chunkStep input = .ok (some (data, rest))) : rest.length < input.length := by
  unfold chunkStep at h
  split at h
  · cases h
  · rename_i lineEnd hline
    have hlt := position_lt hline
    split at h
    · cases h
    · dsimp only at h
      split at h
      · cases h
      · split_ifs at h <;> cases h <;> simp only [List.length_drop] <;> omega

/-- Decode a chunked body. -/
def decodeChunks (input out : List UInt8) : Except ContainerError (List UInt8) :=
  match _h : chunkStep input with
  | .error error => .error error
  | .ok none => .ok out
  | .ok (some (data, rest)) => decodeChunks rest (out ++ data)
termination_by input.length
decreasing_by exact chunkStep_lt _h

/-! ### Responses -/

/-- Whether the head declares chunked transfer encoding. -/
def isChunked (head : List Char) : Bool :=
  (lines head).any fun line =>
    let lower := line.map Char.toLower
    "transfer-encoding:".toList.isPrefixOf lower && decide ("chunked".toList <:+: lower)

/-- The status code and the decoded body. -/
def parseResponse (raw : List UInt8) : Except ContainerError (String × String) :=
  match position blankLine raw with
  | none => .error (.parse "malformed HTTP response")
  | some split =>
      match fromUtf8 (raw.take split) with
      | none => .error (.parse "non-UTF-8 response head")
      | some head =>
          -- the second word of the head, whatever the first line is
          match (words head)[1]? with
          | none => .error (.parse "malformed HTTP status line")
          | some status => do
              let body := raw.drop (split + 4)
              let decoded ← if isChunked head then decodeChunks body [] else pure body
              pure (.ofList status, .ofList (fromUtf8Lossy decoded))

/-! ### Where the windows are -/

variable {needle bytes head tail : List UInt8} {n : Nat}

theorem position_eq_none_iff :
    position needle bytes = none ↔ ∀ i < bytes.length, ¬ needle <+: bytes.drop i := by
  induction bytes with
  | nil => simp [position]
  | cons b rest ih =>
      rw [position]
      split_ifs with hstarts
      · refine iff_of_false nofun fun hnone => ?_
        exact hnone 0 (Nat.succ_pos _) (List.isPrefixOf_iff_prefix.mp hstarts)
      · rw [Option.map_eq_none_iff, ih]
        constructor
        · -- the windows of what is left are those one byte later
          intro hrest i hi
          cases i with
          | zero => exact fun hstart => hstarts (List.isPrefixOf_iff_prefix.mpr hstart)
          | succ i => exact hrest i (Nat.lt_of_succ_lt_succ hi)
        · exact fun hall i hi => hall (i + 1) (Nat.succ_lt_succ hi)

/-- The first window is where the needle is, and nowhere before. -/
theorem position_append (hat : needle <+: tail) (hne : tail ≠ [])
    (hbefore : ∀ i < head.length, ¬ needle <+: (head ++ tail).drop i) :
    position needle (head ++ tail) = some head.length := by
  induction head with
  | nil =>
      cases tail with
      | nil => exact absurd rfl hne
      | cons b rest =>
          rw [List.nil_append, position, if_pos (List.isPrefixOf_iff_prefix.mpr hat)]
          rfl
  | cons b head ih =>
      have hstart : ¬ needle.isPrefixOf (b :: (head ++ tail)) = true := fun hstarts =>
        hbefore 0 (Nat.succ_pos _) (List.isPrefixOf_iff_prefix.mp hstarts)
      rw [List.cons_append, position, if_neg hstart,
        ih fun i hi => hbefore (i + 1) (Nat.succ_lt_succ hi)]
      rfl

theorem not_crlf_of_not_mem (h : 0x0D ∉ head) {i : Nat} (hi : i < head.length) :
    ¬ crlf <+: (head ++ tail).drop i := by
  rintro ⟨rest, hrest⟩
  rw [List.drop_append_of_le_length hi.le, List.drop_eq_getElem_cons hi] at hrest
  exact h (List.mem_of_getElem (List.cons.inj hrest).1.symm)

theorem position_crlf (h : 0x0D ∉ head) :
    position crlf (head ++ crlf ++ tail) = some head.length := by
  rw [List.append_assoc]
  exact position_append (List.prefix_append _ _) (by simp [crlf])
    fun i hi => not_crlf_of_not_mem h hi

/-- A line that is cut off before its end has no window. -/
theorem position_crlf_cut (h : 0x0D ∉ head) (hn : n < head.length + 2) :
    position crlf ((head ++ crlf ++ tail).take n) = none := by
  rw [position_eq_none_iff]
  rintro i hi ⟨rest, hrest⟩
  rw [List.length_take] at hi
  by_cases hbefore : i < head.length
  · suffices hwindow : crlf <+: (head ++ (crlf ++ tail)).drop i from
      not_crlf_of_not_mem h hbefore hwindow
    rw [← List.append_assoc]
    have hstarts := List.prefix_append crlf rest
    rw [hrest] at hstarts
    exact hstarts.trans ((List.take_prefix n _).drop i)
  · -- only the carriage return is left of the line end
    have hlength := congrArg List.length hrest
    simp only [List.length_append, List.length_drop, List.length_take, crlf, List.length_cons,
      List.length_nil] at hlength
    omega

end Argus
