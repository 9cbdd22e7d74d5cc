import Argus.Cloud.RedactLines
import Mathlib.Data.List.DropRight

/-!
# Assignments and runs, line by line

The assignment pass looks at the first separator of a line, and the runs pass never crosses a break:
a text is redacted line by line, once its headers are cut.

The runs pass is stated for any test of what passes for a secret. `isHighEntropy` is that of the
code.
-/

namespace Argus.Redact

variable {log2 : ℚ → ℚ}

/-! ### The assignments -/

def isSeparator (c : Char) : Bool := c == '=' || c == ':'

/-- Whether a line assigns a secret at its first separator, by what is before it and behind it. -/
def assignsSecret (before rest : List Char) : Bool :=
  !(trimChars before).contains ' ' && isSecretKey (trimChars before) && !isBlank rest &&
    !placeholder.isPrefixOf (rest.dropWhile isWhitespace)

theorem not_isWhitespace_of_isSeparator {c : Char} (h : isSeparator c = true) :
    isWhitespace c = false := by
  simp only [isSeparator, Bool.or_eq_true, beq_iff_eq] at h
  rcases h with rfl | rfl <;> decide

theorem trimChars_eq (text : List Char) :
    trimChars text = (text.dropWhile isWhitespace).rdropWhile isWhitespace := rfl

theorem trimChars_eq_nil {text : List Char} : trimChars text = [] ↔ isBlank text = true := by
  rw [trimChars_eq, List.rdropWhile_eq_nil_iff, isBlank, List.all_eq_true]
  constructor
  · intro h
    by_contra hsome
    have hne : text.dropWhile isWhitespace ≠ [] := fun hnil =>
      hsome (List.dropWhile_eq_nil_iff.mp hnil)
    have hhead := List.head_dropWhile_not isWhitespace hne
    rw [h _ (List.head_mem hne)] at hhead
    cases hhead
  · intro h c hc
    exact h c ((List.dropWhile_sublist _).subset hc)

/-- A word at the start of a text stays there when the text is trimmed behind. -/
theorem prefix_rdropWhile {word text : List Char} (hne : word ≠ [])
    (hlast : isWhitespace (word.getLast hne) = false) :
    word <+: text.rdropWhile isWhitespace ↔ word <+: text := by
  constructor
  · exact fun h => h.trans (List.rdropWhile_prefix _ _)
  · rintro ⟨rest, rfl⟩
    induction rest using List.reverseRecOn with
    | nil =>
        rw [List.append_nil, List.rdropWhile_eq_self_iff.mpr]
        intro _
        simp [hlast]
    | append_singleton rest c ih =>
        rw [← List.append_assoc, List.rdropWhile_concat]
        split_ifs
        · exact ih
        · rw [List.append_assoc]
          exact List.prefix_append _ _

theorem placeholder_prefix_trimChars {text : List Char} :
    placeholder.isPrefixOf (trimChars text) =
      placeholder.isPrefixOf (text.dropWhile isWhitespace) := by
  rw [Bool.eq_iff_iff, List.isPrefixOf_iff_prefix, List.isPrefixOf_iff_prefix, trimChars_eq]
  exact prefix_rdropWhile (by decide) (by decide)

/-- A key names a secret, and so there is one. -/
theorem ne_nil_of_isSecretKey {key : List Char} (h : isSecretKey key = true) : key ≠ [] := by
  rintro rfl
  exact absurd h (by decide)

theorem length_placeholder : placeholder.length = 10 := by decide

theorem not_isSeparator_placeholder : ∀ c ∈ placeholder, isSeparator c = false := by
  have hall : placeholder.all (!isSeparator ·) = true := by decide
  intro c hc
  simpa using List.all_eq_true.mp hall c hc

/-- The first separator of a text that starts without one. -/
theorem takeWhile_separator {before rest : List Char} {sep : Char}
    (hbefore : ∀ c ∈ before, isSeparator c = false) (hsep : isSeparator sep = true) :
    (before ++ sep :: rest).takeWhile (!isSeparator ·) = before := by
  have hpass : ∀ c ∈ before, (!isSeparator c) = true := fun c hc => by simp [hbefore c hc]
  rw [List.takeWhile_append_of_pos hpass, List.takeWhile_cons, hsep]
  simp

theorem dropWhile_separator {before rest : List Char} {sep : Char}
    (hbefore : ∀ c ∈ before, isSeparator c = false) (hsep : isSeparator sep = true) :
    (before ++ sep :: rest).dropWhile (!isSeparator ·) = sep :: rest := by
  have hpass : ∀ c ∈ before, (!isSeparator c) = true := fun c hc => by simp [hbefore c hc]
  rw [List.dropWhile_append_of_pos hpass, List.dropWhile_cons, hsep]
  rfl

/-- The blanks before the key are all before the separator. -/
theorem dropWhile_isWhitespace_append {before rest : List Char} {sep : Char}
    (hsep : isSeparator sep = true) :
    (before ++ sep :: rest).dropWhile isWhitespace =
      before.dropWhile isWhitespace ++ sep :: rest := by
  rw [List.dropWhile_append]
  split_ifs with hblank
  · rw [List.dropWhile_cons, not_isWhitespace_of_isSeparator hsep, List.isEmpty_iff.mp hblank]
    rfl
  · rfl

theorem takeWhile_isWhitespace_append {before rest : List Char} {sep : Char}
    (hsep : isSeparator sep = true) :
    (before ++ sep :: rest).takeWhile isWhitespace = before.takeWhile isWhitespace := by
  rw [List.takeWhile_append]
  split_ifs with hall
  · rw [List.takeWhile_cons, not_isWhitespace_of_isSeparator hsep]
    simp [(List.takeWhile_prefix isWhitespace).eq_of_length hall]
  · rfl

/-- What the assignment pass makes of a line, at its first separator. -/
theorem redactAssignment_at {before rest : List Char} {sep : Char}
    (hbefore : ∀ c ∈ before, isSeparator c = false) (hsep : isSeparator sep = true) :
    redactAssignment (before ++ sep :: rest) =
      if assignsSecret before rest then
        before.takeWhile isWhitespace ++ trimChars before ++ sep :: placeholder
      else before ++ sep :: rest := by
  have htrimmed : ∀ c ∈ before.dropWhile isWhitespace, isSeparator c = false := fun c hc =>
    hbefore c ((List.dropWhile_sublist _).subset hc)
  have hkey : trimChars (before.dropWhile isWhitespace) = trimChars before := by
    rw [trimChars_eq, trimChars_eq, List.dropWhile_idempotent]
  have hvalue : (trimChars rest).isEmpty = isBlank rest := by
    rw [Bool.eq_iff_iff, List.isEmpty_iff, trimChars_eq_nil]
  -- the code writes the test for a separator out
  have hpass : (fun c : Char => c != '=' && c != ':') = (!isSeparator ·) := by
    funext c
    simp [isSeparator, bne]
  simp only [redactAssignment, hpass, dropWhile_isWhitespace_append hsep,
    takeWhile_isWhitespace_append hsep, dropWhile_separator htrimmed hsep,
    takeWhile_separator htrimmed hsep, hkey, hvalue, placeholder_prefix_trimChars, assignsSecret]
  by_cases hsecret : isSecretKey (trimChars before) = true
  · have hne : (trimChars before).isEmpty = false := by
      rw [List.isEmpty_eq_false_iff]
      exact ne_nil_of_isSecretKey hsecret
    by_cases hfresh : placeholder.isPrefixOf (rest.dropWhile isWhitespace) = true
    · simp only [hfresh, if_true, ite_self, Bool.not_true, Bool.and_false, Bool.false_eq_true,
        if_false]
    · rw [Bool.not_eq_true] at hfresh
      simp only [hfresh, hne, hsecret, Bool.not_false, Bool.true_and, Bool.and_true,
        Bool.false_eq_true, if_false]
  · simp [hsecret]

/-- A line has a first separator or none. -/
theorem separator_cases (line : Line) :
    (∀ c ∈ line, isSeparator c = false) ∨
      ∃ before sep rest, line = before ++ sep :: rest ∧
        (∀ c ∈ before, isSeparator c = false) ∧ isSeparator sep = true := by
  have hspan : line.takeWhile (!isSeparator ·) ++ line.dropWhile (!isSeparator ·) = line :=
    List.takeWhile_append_dropWhile
  have hbefore : ∀ c ∈ line.takeWhile (!isSeparator ·), isSeparator c = false := fun c hc => by
    simpa using List.mem_takeWhile_imp hc
  cases hdrop : line.dropWhile (!isSeparator ·) with
  | nil =>
      rw [hdrop, List.append_nil] at hspan
      rw [hspan] at hbefore
      exact .inl hbefore
  | cons sep rest =>
      have hsep : isSeparator sep = true := by
        have hhead := List.head_dropWhile_not (!isSeparator ·) (hdrop ▸ List.cons_ne_nil sep rest)
        simpa [hdrop] using hhead
      rw [hdrop] at hspan
      exact .inr ⟨_, sep, rest, hspan.symm, hbefore, hsep⟩

theorem redactAssignment_of_not_mem {line : Line} (h : ∀ c ∈ line, isSeparator c = false) :
    redactAssignment line = line :=
  redactAssignment_of_no_separator fun c hc => by simpa [isSeparator] using h c hc

/-- Whether a line assigns a secret at its first separator. -/
def assigns (line : Line) : Bool :=
  match line.dropWhile (!isSeparator ·) with
  | [] => false
  | _ :: rest => assignsSecret (line.takeWhile (!isSeparator ·)) rest

theorem assigns_at {before rest : List Char} {sep : Char}
    (hbefore : ∀ c ∈ before, isSeparator c = false) (hsep : isSeparator sep = true) :
    assigns (before ++ sep :: rest) = assignsSecret before rest := by
  rw [assigns, dropWhile_separator hbefore hsep]
  simp only [takeWhile_separator hbefore hsep]

theorem assigns_of_not_mem {line : Line} (h : ∀ c ∈ line, isSeparator c = false) :
    assigns line = false := by
  have hdrop : line.dropWhile (!isSeparator ·) = [] := by
    rw [List.dropWhile_eq_nil_iff]
    intro c hc
    simp [h c hc]
  rw [assigns, hdrop]

theorem mem_redactAssignment {line : Line} {c : Char} (h : c ∈ redactAssignment line) :
    c ∈ line ∨ c ∈ placeholder := by
  rcases separator_cases line with hnone | ⟨before, sep, rest, rfl, hbefore, hsep⟩
  · rw [redactAssignment_of_not_mem hnone] at h
    exact .inl h
  · rw [redactAssignment_at hbefore hsep] at h
    split_ifs at h
    · simp only [List.mem_append, List.mem_cons] at h
      rcases h with (h | h) | h | h
      · exact .inl (by simp [(List.takeWhile_prefix _).subset h])
      · have hmem : c ∈ before := by
          rw [trimChars_eq] at h
          exact (List.dropWhile_sublist _).subset ((List.rdropWhile_prefix _ _).subset h)
        exact .inl (by simp [hmem])
      · exact .inl (by simp [h])
      · exact .inr h
    · exact .inl h

theorem newline_not_mem_redactAssignment {line : Line} (h : '\n' ∉ line) :
    '\n' ∉ redactAssignment line := fun hmem =>
  (mem_redactAssignment hmem).elim h newline_not_mem_placeholder

/-! ### The runs -/

/-- A letter or a digit is in one of three ranges of code points. -/
theorem isAlphanum_iff {c : Char} :
    c.isAlphanum = true ↔
      ((0x41 ≤ c.val.toNat ∧ c.val.toNat ≤ 0x5a) ∨ (0x61 ≤ c.val.toNat ∧ c.val.toNat ≤ 0x7a)) ∨
        (0x30 ≤ c.val.toNat ∧ c.val.toNat ≤ 0x39) := by
  have halpha : c.isAlphanum = ((c.isUpper || c.isLower) || c.isDigit) := rfl
  have hupper : c.isUpper = true ↔ 0x41 ≤ c.val.toNat ∧ c.val.toNat ≤ 0x5a := decide_eq_true_iff
  have hlower : c.isLower = true ↔ 0x61 ≤ c.val.toNat ∧ c.val.toNat ≤ 0x7a :=
    Bool.and_eq_true_iff.trans (and_congr decide_eq_true_iff decide_eq_true_iff)
  have hdigit : c.isDigit = true ↔ 0x30 ≤ c.val.toNat ∧ c.val.toNat ≤ 0x39 :=
    Bool.and_eq_true_iff.trans (and_congr decide_eq_true_iff decide_eq_true_iff)
  rw [halpha, Bool.or_eq_true, Bool.or_eq_true, hupper, hlower, hdigit]

theorem not_isCredentialChar_of_isWhitespace {c : Char} (h : isWhitespace c = true) :
    isCredentialChar c = false := by
  by_contra hcredential
  simp only [Bool.not_eq_false, isCredentialChar, Bool.or_eq_true, beq_iff_eq,
    isAlphanum_iff] at hcredential
  simp only [isWhitespace, Bool.or_eq_true, Bool.and_eq_true, decide_eq_true_eq,
    beq_iff_eq] at h
  have hnat : c.toNat = c.val.toNat := rfl
  rcases hcredential with (((((((hupper | hlower) | hdigit) | rfl) | rfl) | rfl) | rfl) | rfl) | rfl
  · omega
  · omega
  · omega
  all_goals
    revert h
    decide

theorem not_isCredentialChar_colon : isCredentialChar ':' = false := by decide

theorem not_isCredentialChar_space : isCredentialChar ' ' = false := by decide

section Runs

variable (isSecret : List Char → Bool)

/-- A run gives way if it passes for a secret. -/
def flushRunBy (run : List Char) : List Char := if isSecret run then placeholder else run

/-- The runs pass, with any test for a secret. -/
def redactRunsBy (run : List Char) : List Char → List Char
  | [] => flushRunBy isSecret run
  | c :: rest =>
      if isCredentialChar c then redactRunsBy (run ++ [c]) rest
      else flushRunBy isSecret run ++ c :: redactRunsBy [] rest

def redactCharsBy (text : List Char) : List Char :=
  redactRunsBy isSecret [] (redactEnvAssignments (redactAuthorizationHeaders text))

/-- What the last two passes make of a line. -/
def redactLine (line : Line) : Line := redactRunsBy isSecret [] (redactAssignment line)

variable {isSecret}

theorem redactRunsBy_append {run before after : List Char} {c : Char}
    (hc : isCredentialChar c = false) :
    redactRunsBy isSecret run (before ++ c :: after) =
      redactRunsBy isSecret run before ++ c :: redactRunsBy isSecret [] after := by
  induction before generalizing run with
  | nil => simp [redactRunsBy, hc]
  | cons x before ih =>
      rw [List.cons_append, redactRunsBy, redactRunsBy]
      split_ifs
      · exact ih
      · rw [ih, List.append_assoc, List.cons_append]

theorem redactRunsBy_joinLines {line : Line} {lines : List Line} :
    redactRunsBy isSecret [] (joinLines (line :: lines)) =
      joinLines ((line :: lines).map (redactRunsBy isSecret [])) := by
  induction lines generalizing line with
  | nil => rw [joinLines_cons, List.map_singleton, joinLines_cons]; simp
  | cons next lines ih =>
      have hbreak : isCredentialChar '\n' = false := by decide
      rw [joinLines_cons_cons, redactRunsBy_append hbreak, ih, List.map_cons, List.map_cons,
        List.map_cons, joinLines_cons_cons]

/-- A text is redacted line by line, once its headers are cut. -/
theorem redactCharsBy_eq_lines (text : List Char) :
    redactCharsBy isSecret text =
      joinLines ((headerLines false (linesOf text)).map (redactLine isSecret)) := by
  have hne : headerLines false (linesOf text) ≠ [] :=
    headerLines_ne_nil (List.splitOn_ne_nil _ _)
  have hbreaks : ∀ line ∈ headerLines false (linesOf text), '\n' ∉ line :=
    newline_not_mem_headerLines fun _ => not_mem_of_mem_linesOf
  have hsplit := linesOf_joinLines hbreaks hne
  rw [redactCharsBy, redactAuthorizationHeaders_eq_lines, redactEnvAssignments, ← linesOf, hsplit,
    ← joinLines]
  cases hlines : headerLines false (linesOf text) with
  | nil => exact absurd hlines hne
  | cons line lines =>
      rw [List.map_cons, redactRunsBy_joinLines, List.map_cons, List.map_cons, List.map_map]
      rfl

theorem redactRunsBy_isNewlineFree {run line : List Char} (hrun : '\n' ∉ run) (h : '\n' ∉ line) :
    '\n' ∉ redactRunsBy isSecret run line := by
  have hflush {run : List Char} (hrun : '\n' ∉ run) : '\n' ∉ flushRunBy isSecret run := by
    rw [flushRunBy]
    split_ifs
    · exact newline_not_mem_placeholder
    · exact hrun
  induction line generalizing run with
  | nil => exact hflush hrun
  | cons c line ih =>
      rw [List.mem_cons, not_or] at h
      rw [redactRunsBy]
      split_ifs
      · exact ih (by simp [hrun, h.1]) h.2
      · simp [hflush hrun, h.1, ih List.not_mem_nil h.2]

theorem newline_not_mem_redactLine {line : Line} (h : '\n' ∉ line) :
    '\n' ∉ redactLine isSecret line :=
  redactRunsBy_isNewlineFree List.not_mem_nil (newline_not_mem_redactAssignment h)

/-- The lines of a redacted text. -/
theorem linesOf_redactCharsBy (text : List Char) :
    linesOf (redactCharsBy isSecret text) =
      (headerLines false (linesOf text)).map (redactLine isSecret) := by
  rw [redactCharsBy_eq_lines]
  refine linesOf_joinLines ?_ ?_
  · have hbreaks : ∀ line ∈ headerLines false (linesOf text), '\n' ∉ line :=
      newline_not_mem_headerLines fun _ => not_mem_of_mem_linesOf
    intro line hline
    obtain ⟨cut, hcut, rfl⟩ := List.mem_map.mp hline
    exact newline_not_mem_redactLine (hbreaks cut hcut)
  · rw [Ne, List.map_eq_nil_iff]
    exact headerLines_ne_nil (List.splitOn_ne_nil _ _)

end Runs

variable (log2) in
/-- The test of the code. -/
def isHighEntropy (run : List Char) : Bool :=
  decide (entropyRunMin ≤ run.length ∧ entropyFloor ≤ shannonEntropy log2 run)

theorem redactRuns_eq_by {run text : List Char} :
    redactRuns log2 run text = redactRunsBy (isHighEntropy log2) run text := by
  have hflush (run : List Char) : flushRun log2 run = flushRunBy (isHighEntropy log2) run := by
    simp [flushRun, flushRunBy, isHighEntropy]
  induction text generalizing run with
  | nil => exact hflush run
  | cons c rest ih => rw [redactRuns, redactRunsBy, ih, ih, hflush]

theorem redactChars_eq_by (text : List Char) :
    redactChars log2 text = redactCharsBy (isHighEntropy log2) text := redactRuns_eq_by

end Argus.Redact
