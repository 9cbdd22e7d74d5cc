import Argus.Domain.Plan
import Argus.Policy.Approval
import Mathlib.Logic.Basic
import Mathlib.Data.List.Basic

/-!
# What the approval digest notices

A round of FNV-1a mixes a byte into the hash by an exclusive or and multiplies by an odd
constant. For a fixed byte it can be undone, so two hashes that differ once differ after every
further round; for a fixed hash it tells two bytes apart. A grant is bound to the digest of a
plan's canonical form, which leaves the plan's status out.
-/

namespace Argus

/-- One round of the hash. -/
def absorb (hash : UInt64) (byte : UInt8) : UInt64 := (hash ^^^ byte.toUInt64) * 0x00000100000001b3

/-- `format!("{hash:016x}")`. -/
def hexDigest (hash : UInt64) : String :=
  let digits := Nat.toDigits 16 hash.toNat
  String.ofList (List.replicate (16 - digits.length) '0' ++ digits)

/-- The text a plan's context hash is taken of. -/
def canonicalForm (toJson : Value → String) (plan : Plan) : String :=
  toJson (plan.toValue.removeKey "status")

/-- Two byte strings of equal length differ at one place and no other. -/
def DifferInOneByte (bytes bytes' : List UInt8) : Prop :=
  bytes.length = bytes'.length ∧ ∃! i : ℕ, bytes[i]? ≠ bytes'[i]?

variable {hash hash' : UInt64} {byte byte' : UInt8} {bytes bytes' : List UInt8}

/-! ### The rounds -/

/-- The constant of the rounds is odd, so it has an inverse. -/
theorem mul_prime_injective (h : hash * 0x00000100000001b3 = hash' * 0x00000100000001b3) :
    hash = hash' := by
  have hinverse : (0x00000100000001b3 : UInt64) * 0xce965057aff6957b = 1 := by decide
  calc hash = hash * 0x00000100000001b3 * 0xce965057aff6957b := by
        rw [UInt64.mul_assoc, hinverse, UInt64.mul_one]
    _ = hash' * 0x00000100000001b3 * 0xce965057aff6957b := by rw [h]
    _ = hash' := by rw [UInt64.mul_assoc, hinverse, UInt64.mul_one]

theorem absorb_injective (h : absorb hash byte = absorb hash' byte) : hash = hash' :=
  (UInt64.xor_left_inj _).mp (mul_prime_injective h)

theorem absorb_byte_injective (h : absorb hash byte = absorb hash byte') : byte = byte' :=
  UInt8.toUInt64_inj.mp ((UInt64.xor_right_inj _).mp (mul_prime_injective h))

/-- Hashes that differ stay apart over any further bytes. -/
theorem foldl_absorb_injective (h : bytes.foldl absorb hash = bytes.foldl absorb hash') :
    hash = hash' := by
  induction bytes generalizing hash hash' with
  | nil => exact h
  | cons byte bytes ih => exact absorb_injective (ih h)

theorem fnv1a_eq : fnv1a bytes = bytes.foldl absorb 0xcbf29ce484222325 := rfl

theorem DifferInOneByte.exists_split (h : DifferInOneByte bytes bytes') :
    ∃ before byte byte' after, byte ≠ byte' ∧ bytes = before ++ byte :: after ∧
      bytes' = before ++ byte' :: after := by
  obtain ⟨hlength, i, hi, hunique⟩ := h
  have hsame : ∀ j, j ≠ i → bytes[j]? = bytes'[j]? := fun j hj => by
    by_contra hne
    exact hj (hunique j hne)
  have hlt : i < bytes.length := by
    by_contra hge
    refine hi ?_
    rw [List.getElem?_eq_none (by omega), List.getElem?_eq_none (by omega)]
  have hlt' : i < bytes'.length := hlength ▸ hlt
  have hbefore : bytes.take i = bytes'.take i := List.ext_getElem? fun j => by
    simp only [List.getElem?_take]
    split_ifs with hj
    · exact hsame j hj.ne
    · rfl
  have hafter : bytes.drop (i + 1) = bytes'.drop (i + 1) := List.ext_getElem? fun j => by
    simpa only [List.getElem?_drop] using hsame (i + 1 + j) (by omega)
  refine ⟨bytes.take i, bytes[i], bytes'[i], bytes.drop (i + 1), ?_, ?_, ?_⟩
  · simpa [List.getElem?_eq_getElem hlt, List.getElem?_eq_getElem hlt'] using hi
  · rw [← List.drop_eq_getElem_cons hlt, List.take_append_drop]
  · rw [hbefore, hafter, ← List.drop_eq_getElem_cons hlt', List.take_append_drop]

/-- Byte strings that differ in one byte have different hashes. -/
theorem fnv1a_ne (h : DifferInOneByte bytes bytes') : fnv1a bytes ≠ fnv1a bytes' := by
  obtain ⟨before, byte, byte', after, hne, rfl, rfl⟩ := h.exists_split
  intro heq
  simp only [fnv1a_eq, List.foldl_append, List.foldl_cons] at heq
  exact hne (absorb_byte_injective (foldl_absorb_injective heq))

/-! ### The digits -/

/-- The value of a hexadecimal digit. -/
def hexDigitValue (c : Char) : ℕ := if c.isDigit then c.toNat - 48 else c.toNat - 87

/-- Hexadecimal digits read back as a number. -/
def readHex (digits : List Char) : ℕ := digits.foldl (fun n c => n * 16 + hexDigitValue c) 0

theorem hexDigitValue_digitChar : ∀ d < 16, hexDigitValue (Nat.digitChar d) = d := by decide

theorem readHex_zeros (n : ℕ) (digits : List Char) :
    readHex (List.replicate n '0' ++ digits) = readHex digits := by
  induction n with
  | zero => rfl
  | succ n ih => exact ih

theorem readHex_toDigits (n : ℕ) : readHex (Nat.toDigits 16 n) = n := by
  induction n using Nat.strongRecOn with
  | ind n ih =>
      by_cases hlt : n < 16
      · rw [Nat.toDigits_of_lt_base hlt]
        simpa [readHex] using hexDigitValue_digitChar n hlt
      · have hle : 16 ≤ n := Nat.le_of_not_lt hlt
        have hrec := ih (n / 16) (by omega)
        rw [Nat.toDigits_of_base_le (by decide) hle, readHex, List.foldl_append]
        rw [readHex] at hrec
        rw [hrec, List.foldl_cons, List.foldl_nil,
          hexDigitValue_digitChar _ (Nat.mod_lt n (by decide))]
        omega

theorem hexDigest_injective (h : hexDigest hash = hexDigest hash') : hash = hash' := by
  have hread : ∀ hash : UInt64, readHex (hexDigest hash).toList = hash.toNat := fun hash => by
    rw [hexDigest, String.toList_ofList, readHex_zeros, readHex_toDigits]
  exact UInt64.toNat_inj.mp (hread hash ▸ hread hash' ▸ h ▸ rfl)

/-! ### What a grant is bound to -/

theorem planContextHash_eq (toJson : Value → String) (plan : Plan) :
    planContextHash toJson plan
      = hexDigest (fnv1a (canonicalForm toJson plan).toUTF8.toList) := rfl

theorem canonicalForm_status (toJson : Value → String) (plan : Plan) (status : PlanStatus) :
    canonicalForm toJson { plan with status := status } = canonicalForm toJson plan := by
  have hdrop : ∀ (text steps : Value), [("status", text), ("steps", steps)].filter
      (fun field => field.1 != "status") = [("steps", steps)].filter fun field =>
        field.1 != "status" := fun _ _ => List.filter_cons_of_neg (by simp)
  simp only [canonicalForm, Plan.toValue, Value.removeKey, List.filter_append, hdrop]

/-- The digest tells any two byte strings apart that differ in one byte, does not depend on a
plan's status, and so keeps a grant from being used for a plan whose canonical form differs from
the reviewed one in one byte. -/
theorem digest_notices (toJson : Value → String) :
    (∀ bytes bytes', DifferInOneByte bytes bytes' →
      hexDigest (fnv1a bytes) ≠ hexDigest (fnv1a bytes')) ∧
    (∀ plan status, planContextHash toJson { plan with status := status }
      = planContextHash toJson plan) ∧
    ∀ plan plan', DifferInOneByte (canonicalForm toJson plan).toUTF8.toList
        (canonicalForm toJson plan').toUTF8.toList →
      ∀ (store : ApprovalStore) token approval now, store.get token = some approval →
        approval.contextHash = planContextHash toJson plan →
        store.consume token (planContextHash toJson plan') now = (none, store) := by
  refine ⟨fun bytes bytes' h heq => fnv1a_ne h (hexDigest_injective heq), fun plan status => ?_, ?_⟩
  · simp only [planContextHash_eq, canonicalForm_status]
  · intro plan plan' h store token approval now hstored hbound
    have hne : approval.contextHash ≠ planContextHash toJson plan' := by
      rw [hbound, planContextHash_eq, planContextHash_eq]
      exact fun heq => fnv1a_ne h (hexDigest_injective heq)
    simp [ApprovalStore.consume, hstored, ExecutionApproval.authorizes, hne]

end Argus
