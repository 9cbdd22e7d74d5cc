import Argus.Domain.Value
import Argus.Executor.Privileged
import Mathlib.Data.List.TakeWhile

/-!
# The redaction of what goes up

Text is redacted by three passes: authorization headers, environment assignments whose key names a
secret, and runs of credential characters with much entropy. Only the last looks at lengths: a
run that is too short is left alone. A document is redacted field by field.

Text is a list of characters here. The runs are ASCII, so that a byte of one is a character.
-/

namespace Argus.Redact

/-- `REDACTED`. -/
def placeholder : List Char := "[redacted]".toList

/-- Key substrings that mark a field as secret-shaped. -/
def secretKeyMarkers : List String :=
  ["token", "secret", "password", "passwd", "authorization", "credential", "api_key", "apikey",
    "private_key", "privatekey", "cookie", "session_key", "bearer"]

def entropyRunMin : Nat := 24

/-- In bits a character. -/
def entropyFloor : ℚ := 17 / 4

/-- `str::find`, at the first occurrence. -/
def find? (fragment : List Char) : List Char → Option Nat
  | [] => if fragment.isEmpty then some 0 else none
  | c :: rest =>
      if fragment.isPrefixOf (c :: rest) then some 0 else (find? fragment rest).map (· + 1)

/-- `str::trim`, of characters. -/
def trimChars (text : List Char) : List Char :=
  ((text.dropWhile isWhitespace).reverse.dropWhile isWhitespace).reverse

def isSecretKey (key : List Char) : Bool :=
  secretKeyMarkers.any fun marker => (find? marker.toList (key.map Char.toLower)).isSome

/-! ### Authorization headers -/

/-- The text after the first `c`, if there is one. -/
def afterFirst (c : Char) (text : List Char) : Option (List Char) :=
  match text.dropWhile (· != c) with
  | [] => none
  | _ :: rest => some rest

theorem afterFirst_lt {c : Char} {text rest : List Char} (h : afterFirst c text = some rest) :
    rest.length < text.length := by
  unfold afterFirst at h
  split at h
  · cases h
  · rename_i first _ hdrop
    cases h
    have hle := (List.dropWhile_sublist (l := text) (· != c)).length_le
    rw [hdrop, List.length_cons] at hle
    omega

/-- Replaces an authorization header up to the end of its line, and goes on behind it. -/
def redactAuthorizationHeaders (text : List Char) : List Char :=
  match find? "authorization".toList (text.map Char.toLower) with
  | none => text
  | some at_ =>
      match _hvalue : afterFirst ':' (text.drop at_) with
      | none => text
      | some value =>
          if value.all isWhitespace then text
          else
            let header := text.take at_ ++ (text.drop at_).takeWhile (· != ':') ++
              ':' :: ' ' :: placeholder
            match _hline : afterFirst '\n' value with
            | none => header
            | some rest => header ++ '\n' :: redactAuthorizationHeaders rest
  termination_by text.length
  decreasing_by
    have hvalue := afterFirst_lt _hvalue
    have hline := afterFirst_lt _hline
    rw [List.length_drop] at hvalue
    omega

/-! ### Environment assignments -/

/-- One line of `redact_env_assignments`. -/
def redactAssignment (line : List Char) : List Char :=
  let trimmed := line.dropWhile isWhitespace
  match trimmed.dropWhile fun c => c != '=' && c != ':' with
  | [] => line
  | separator :: rest =>
      let key := trimChars (trimmed.takeWhile fun c => c != '=' && c != ':')
      let value := trimChars rest
      if !key.isEmpty && !key.contains ' ' && isSecretKey key && !value.isEmpty then
        -- The header pass was here.
        if placeholder.isPrefixOf value then line
        else line.takeWhile isWhitespace ++ key ++ separator :: placeholder
      else line

def redactEnvAssignments (text : List Char) : List Char :=
  ['\n'].intercalate ((text.splitOn '\n').map redactAssignment)

/-! ### High-entropy runs -/

/-- A float, as it is stored. Nothing here is as large as to overflow. -/
def storeF64 (q : ℚ) : ℚ :=
  let ulp : ℚ := 2 ^ Ieee.lastPlace 53 (-1074) q
  Ieee.roundHalfEven (q / ulp) * ulp

variable (log2 : ℚ → ℚ)

/-- In bits a character. `log2` is that of the standard library, which leaves its precision
open. -/
def shannonEntropy (run : List Char) : ℚ :=
  let counts := (List.range 256).map fun byte => run.countP fun c => c.toNat == byte
  (counts.filter (0 < ·)).foldl (fun (sum : ℚ) count =>
    let p := storeF64 (count / run.length)
    storeF64 (sum + storeF64 (-p * log2 p))) 0

def flushRun (run : List Char) : List Char :=
  if entropyRunMin ≤ run.length ∧ entropyFloor ≤ shannonEntropy log2 run then placeholder else run

def isCredentialChar (c : Char) : Bool :=
  c.isAlphanum || c == '+' || c == '/' || c == '=' || c == '_' || c == '-' || c == '.'

/-- `redact_high_entropy_runs`, with the run so far. -/
def redactRuns (run : List Char) : List Char → List Char
  | [] => flushRun log2 run
  | c :: rest =>
      if isCredentialChar c then redactRuns (run ++ [c]) rest
      else flushRun log2 run ++ c :: redactRuns [] rest

/-! ### Texts and documents -/

def redactChars (text : List Char) : List Char :=
  redactRuns log2 [] (redactEnvAssignments (redactAuthorizationHeaders text))

def redactText (text : String) : String := .ofList (redactChars log2 text.toList)

mutual

/-- Secret-named fields and secret-shaped strings collapse; the structure is kept. -/
def redactValue : Value → Value
  | .object fields => .object (redactFields fields)
  | .array items => .array (redactItems items)
  | .string text => .string (redactText log2 text)
  | value => value

def redactItems : List Value → List Value
  | [] => []
  | item :: items => redactValue item :: redactItems items

def redactFields : List (String × Value) → List (String × Value)
  | [] => []
  | (key, inner) :: fields =>
      if isSecretKey key.toList then
        (key, .string (.ofList placeholder)) :: redactFields fields
      else (key, redactValue inner) :: redactFields fields

end

variable {log2}

/-- A document keeps its fields. -/
theorem redactFields_eq_nil {fields : List (String × Value)} :
    redactFields log2 fields = [] ↔ fields = [] := by
  cases fields with
  | nil => simp [redactFields]
  | cons field fields =>
      obtain ⟨key, inner⟩ := field
      simp only [redactFields, reduceCtorEq, iff_false]
      split <;> simp

/-! ### What passes through -/

theorem find?_isSome {fragment text : List Char} :
    (find? fragment text).isSome = true ↔ fragment <:+: text := by
  induction text with
  | nil =>
      rw [find?, List.infix_nil]
      split_ifs with h
      · simpa using h
      · simpa using h
  | cons c rest ih =>
      rw [List.infix_cons_iff, ← List.isPrefixOf_iff_prefix, ← ih, find?]
      split_ifs with h
      · simp [h]
      · rw [Option.isSome_map]
        simp [h]

/-- A fragment that does not start with a space is not in the spaces before a text. -/
theorem infix_of_padded (first : Char) {fragment text : List Char} {n : Nat}
    (hfirst : fragment.head? = some first) (hspace : first ≠ ' ')
    (h : fragment <:+: List.replicate n ' ' ++ text) : fragment <:+: text := by
  induction n with
  | zero => exact h
  | succ n ih =>
      rw [List.replicate_succ, List.cons_append, List.infix_cons_iff] at h
      rcases h with hprefix | hinfix
      · obtain ⟨rest, hrest⟩ := hprefix
        cases fragment with
        | nil => cases hfirst
        | cons c fragment =>
            cases hfirst
            exact absurd (List.cons.inj hrest).1 hspace
      · exact ih hinfix

/-- The text names no authorization header. -/
def Headless (text : List Char) : Prop := ¬ "authorization".toList <:+: text.map Char.toLower

instance (text : List Char) : Decidable (Headless text) := inferInstanceAs (Decidable (¬ _))

theorem Headless.padded {text : List Char} {n : Nat} (h : Headless text) :
    Headless (List.replicate n ' ' ++ text) := by
  intro hinfix
  rw [List.map_append, List.map_replicate] at hinfix
  exact h (infix_of_padded 'a' (by decide) (by decide) hinfix)

theorem Headless.take {text : List Char} {n : Nat} (h : Headless text) : Headless (text.take n) :=
  fun hfound => h (List.IsInfix.trans hfound ((List.take_prefix n text).map Char.toLower).isInfix)

theorem redactAuthorizationHeaders_of_headless {text : List Char} (h : Headless text) :
    redactAuthorizationHeaders text = text := by
  have hnone : find? "authorization".toList (text.map Char.toLower) = none := by
    rw [← Option.not_isSome_iff_eq_none, find?_isSome]
    exact h
  rw [redactAuthorizationHeaders, hnone]

/-- A line without a separator assigns nothing. -/
theorem redactAssignment_of_no_separator {line : List Char}
    (h : ∀ c ∈ line, c ≠ '=' ∧ c ≠ ':') : redactAssignment line = line := by
  have hnone : (line.dropWhile isWhitespace).dropWhile (fun c => c != '=' && c != ':') = [] := by
    rw [List.dropWhile_eq_nil_iff]
    intro c hc
    simpa using h c ((List.dropWhile_sublist _).subset hc)
  simp only [redactAssignment, hnone]

theorem redactEnvAssignments_of_plain {text : List Char} (hline : '\n' ∉ text)
    (h : ∀ c ∈ text, c ≠ '=' ∧ c ≠ ':') : redactEnvAssignments text = text := by
  rw [redactEnvAssignments, List.splitOn_eq_singleton hline, List.map_singleton,
    redactAssignment_of_no_separator h, List.intercalate_singleton]

theorem redactRuns_padded {text : List Char} {n : Nat} :
    redactRuns log2 [] (List.replicate n ' ' ++ text) =
      List.replicate n ' ' ++ redactRuns log2 [] text := by
  induction n with
  | zero => rfl
  | succ n ih =>
      have hspace : isCredentialChar ' ' = false := by decide
      simp [List.replicate_succ, redactRuns, hspace, ih, flushRun, entropyRunMin]

theorem redactRuns_credential {run text : List Char}
    (h : ∀ c ∈ text, isCredentialChar c = true) :
    redactRuns log2 run text = flushRun log2 (run ++ text) := by
  induction text generalizing run with
  | nil => simp [redactRuns]
  | cons c rest ih =>
      obtain ⟨hc, hrest⟩ := List.forall_mem_cons.mp h
      simp [redactRuns, hc, ih hrest]

/-- A run of credential characters that is no assignment, and names no header. -/
structure Plain (run : List Char) : Prop where
  credential : ∀ c ∈ run, isCredentialChar c = true ∧ c ≠ '='
  headless : Headless run

theorem plain_of_all {run : List Char}
    (hrun : (run.all fun c => isCredentialChar c && c != '=') = true) (h : Headless run) :
    Plain run where
  credential := fun c hc => by simpa using List.all_eq_true.mp hrun c hc
  headless := h

theorem Plain.take {run : List Char} {n : Nat} (h : Plain run) : Plain (run.take n) :=
  ⟨fun c hc => h.credential c (List.mem_of_mem_take hc), h.headless.take⟩

/-- Behind spaces, all that matters of such a run is its length and its entropy. -/
theorem redactChars_padded {run : List Char} {n : Nat} (h : Plain run) :
    redactChars log2 (List.replicate n ' ' ++ run) =
      List.replicate n ' ' ++ flushRun log2 run := by
  have hseparate : ∀ c ∈ List.replicate n ' ' ++ run, c ≠ '=' ∧ c ≠ ':' ∧ c ≠ '\n' := by
    intro c hc
    rcases List.mem_append.mp hc with hc | hc
    · rw [List.eq_of_mem_replicate hc]
      decide
    · obtain ⟨hcredential, hassign⟩ := h.credential c hc
      refine ⟨hassign, ?_, ?_⟩ <;> rintro rfl <;> revert hcredential <;> decide
  rw [redactChars, redactAuthorizationHeaders_of_headless h.headless.padded,
    redactEnvAssignments_of_plain (fun hc => (hseparate _ hc).2.2 rfl)
      (fun c hc => ⟨(hseparate c hc).1, (hseparate c hc).2.1⟩),
    redactRuns_padded, redactRuns_credential (fun c hc => (h.credential c hc).1), List.nil_append]

end Argus.Redact
