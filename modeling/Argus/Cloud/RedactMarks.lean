import Argus.Cloud.RedactPasses
import Mathlib.Data.Int.Log

/-!
# Whether a secret that is assigned is redacted

A text may hold the letters of a value that was redacted, in another place or in the placeholder.
So the passes are run on characters that carry a mark: `text_redactMarked` says that without the
marks they are those of the code, and a value has gone if no marked character is left.
-/

namespace Argus.Redact

/-- Characters, and whether each is of the value in question. -/
abbrev Marked := List (Char × Bool)

namespace Marked

def text (line : Marked) : Line := line.map Prod.fst

def mark (flag : Bool) (text : List Char) : Marked := text.map (·, flag)

@[simp] theorem text_nil : text [] = [] := rfl

@[simp] theorem text_cons {c : Char × Bool} {line : Marked} :
    text (c :: line) = c.1 :: line.text := rfl

@[simp] theorem text_append {a b : Marked} : text (a ++ b) = a.text ++ b.text := List.map_append

@[simp] theorem text_mark {flag : Bool} {line : Line} : (mark flag line).text = line := by
  simp [text, mark, Function.comp_def]

@[simp] theorem mark_nil {flag : Bool} : mark flag [] = [] := rfl

@[simp] theorem mark_append {flag : Bool} {a b : List Char} :
    mark flag (a ++ b) = mark flag a ++ mark flag b := List.map_append

@[simp] theorem mark_cons {flag : Bool} {c : Char} {line : Line} :
    mark flag (c :: line) = (c, flag) :: mark flag line := rfl

/-- None of the value is left. -/
def Clean (line : Marked) : Prop := ∀ c ∈ line, c.2 = false

@[simp] theorem clean_append {a b : Marked} : Clean (a ++ b) ↔ Clean a ∧ Clean b :=
  List.forall_mem_append

@[simp] theorem clean_cons {c : Char × Bool} {line : Marked} :
    Clean (c :: line) ↔ c.2 = false ∧ Clean line := List.forall_mem_cons

theorem clean_nil : Clean [] := fun _ h => absurd h List.not_mem_nil

theorem clean_mark (line : Line) : Clean (mark false line) := by
  intro c hc
  obtain ⟨_, _, rfl⟩ := List.mem_map.mp hc
  rfl

theorem clean_mark_true {line : Line} : Clean (mark true line) ↔ line = [] := by
  cases line with
  | nil => simp [mark, clean_nil]
  | cons c line => simp

end Marked

open Marked (text mark Clean)

/-! ### The passes, on marked characters -/

def cutMarked (cut : Option Nat) (line : Marked) : Marked :=
  match cut with
  | none => line
  | some colon => line.take colon ++ mark false (':' :: ' ' :: placeholder)

def headersMarked : Bool → List Marked → List Marked
  | _, [] => []
  | isOpen, line :: lines =>
      cutMarked (headerCut isOpen line.text (lines.map text)) line ::
        headersMarked (leavesOpen isOpen line.text) lines

def assignmentMarked (line : Marked) : Marked :=
  match line.dropWhile fun c => !isSeparator c.1 with
  | [] => line
  | separator :: rest =>
      let before := line.takeWhile fun c => !isSeparator c.1
      if assignsSecret (text before) (text rest) then
        before.takeWhile (fun c => isWhitespace c.1) ++
          (before.dropWhile fun c => isWhitespace c.1).rdropWhile (fun c => isWhitespace c.1) ++
            separator :: mark false placeholder
      else line

variable (isSecret : List Char → Bool)

def flushMarked (run : Marked) : Marked :=
  if isSecret run.text then mark false placeholder else run

def runsMarked (run : Marked) : Marked → Marked
  | [] => flushMarked isSecret run
  | c :: rest =>
      if isCredentialChar c.1 then runsMarked (run ++ [c]) rest
      else flushMarked isSecret run ++ c :: runsMarked [] rest

def redactMarked (lines : List Marked) : List Marked :=
  (headersMarked false lines).map fun line => runsMarked isSecret [] (assignmentMarked line)

/-! ### Without the marks -/

variable {isSecret}

theorem text_cutMarked {cut : Option Nat} {line : Marked} :
    (cutMarked cut line).text = cutHeader cut line.text := by
  cases cut with
  | none => rfl
  | some colon =>
      rw [cutMarked, cutHeader, Marked.text_append, Marked.text_mark, text, List.map_take]
      rfl

theorem map_text_headersMarked {isOpen : Bool} {lines : List Marked} :
    (headersMarked isOpen lines).map text = headerLines isOpen (lines.map text) := by
  induction lines generalizing isOpen with
  | nil => rfl
  | cons line lines ih =>
      rw [headersMarked, List.map_cons, ih, text_cutMarked, List.map_cons, headerLines]

theorem text_takeWhile {p : Char → Bool} {line : Marked} :
    text (line.takeWhile fun c => p c.1) = line.text.takeWhile p := by
  rw [text, text, List.takeWhile_map]
  rfl

theorem text_dropWhile {p : Char → Bool} {line : Marked} :
    text (line.dropWhile fun c => p c.1) = line.text.dropWhile p := by
  rw [text, text, List.dropWhile_map]
  rfl

theorem text_rdropWhile {p : Char → Bool} {line : Marked} :
    text (line.rdropWhile fun c => p c.1) = line.text.rdropWhile p := by
  rw [List.rdropWhile, List.rdropWhile, text, List.map_reverse, ← text, text_dropWhile, text, text,
    List.map_reverse]

theorem text_assignmentMarked {line : Marked} :
    (assignmentMarked line).text = redactAssignment line.text := by
  have hspan : line.takeWhile (fun c => !isSeparator c.1) ++
      line.dropWhile (fun c => !isSeparator c.1) = line := List.takeWhile_append_dropWhile
  have hbefore : ∀ c ∈ text (line.takeWhile fun c => !isSeparator c.1),
      isSeparator c = false := by
    rw [text_takeWhile (p := (!isSeparator ·))]
    intro c hc
    simpa using List.mem_takeWhile_imp hc
  unfold assignmentMarked
  cases hdrop : line.dropWhile (fun c => !isSeparator c.1) with
  | nil =>
      rw [hdrop, List.append_nil] at hspan
      rw [hspan] at hbefore
      exact (redactAssignment_of_not_mem hbefore).symm
  | cons separator rest =>
      have hsep : isSeparator separator.1 = true := by
        have hhead := List.head_dropWhile_not (fun c : Char × Bool => !isSeparator c.1)
          (hdrop ▸ List.cons_ne_nil separator rest)
        simpa [hdrop] using hhead
      rw [hdrop] at hspan
      have hline : line.text = text (line.takeWhile fun c => !isSeparator c.1) ++
          separator.1 :: text rest := by
        conv_lhs => rw [← hspan]
        rw [Marked.text_append, Marked.text_cons]
      rw [hline, redactAssignment_at hbefore hsep]
      simp only
      split_ifs
      · rw [Marked.text_append, Marked.text_append, Marked.text_cons, Marked.text_mark,
          text_takeWhile (p := isWhitespace), text_rdropWhile (p := isWhitespace),
          text_dropWhile (p := isWhitespace), trimChars_eq]
      · exact hline

theorem text_runsMarked {run line : Marked} :
    (runsMarked isSecret run line).text = redactRunsBy isSecret run.text line.text := by
  have hflush (run : Marked) : (flushMarked isSecret run).text = flushRunBy isSecret run.text := by
    rw [flushMarked, flushRunBy]
    split_ifs
    · exact Marked.text_mark
    · rfl
  induction line generalizing run with
  | nil => exact hflush run
  | cons c line ih =>
      rw [runsMarked, Marked.text_cons, redactRunsBy]
      split_ifs
      · rw [ih, Marked.text_append]
        rfl
      · rw [Marked.text_append, Marked.text_cons, ih, hflush]
        rfl

theorem map_text_redactMarked {lines : List Marked} :
    (redactMarked isSecret lines).map text =
      (headerLines false (lines.map text)).map (redactLine isSecret) := by
  rw [redactMarked, ← map_text_headersMarked, List.map_map, List.map_map]
  refine List.map_congr_left fun line _ => ?_
  rw [Function.comp_apply, text_runsMarked, text_assignmentMarked]
  rfl

/-! ### An assignment in a line -/

/-- An assignment of a secret, wherever it stands in its line: the word before the separator names
one, and the value is the word behind it. -/
structure SecretAssignment where
  before : List Char
  key : List Char
  separator : Char
  gap : List Char
  value : List Char
  after : List Char
  key_word : ∀ c ∈ key, isWhitespace c = false ∧ isSeparator c = false
  key_whole : ∀ c ∈ before.getLast?, isWhitespace c = true ∨ isSeparator c = true
  key_secret : isSecretKey key = true
  separates : isSeparator separator = true
  gap_blank : isBlank gap = true
  value_ne_nil : value ≠ []
  value_word : ∀ c ∈ value, isWhitespace c = false
  value_whole : ∀ c ∈ after.head?, isWhitespace c = true

namespace SecretAssignment

variable (a : SecretAssignment)

def upToValue : List Char := a.before ++ a.key ++ a.separator :: a.gap

def line : Line := a.upToValue ++ (a.value ++ a.after)

def marked : Marked := mark false a.upToValue ++ (mark true a.value ++ mark false a.after)

/-- What is left of the value where its line is cut at a colon. -/
def valueBefore : Option Nat → List Char
  | none => a.value
  | some colon => a.value.take (colon - a.upToValue.length)

end SecretAssignment

/-- The lines of a text, with the value of an assignment in one of them marked. -/
def markedLines (above : List Line) (a : SecretAssignment) (below : List Line) : List Marked :=
  above.map (mark false) ++ a.marked :: below.map (mark false)

variable (isSecret) in
/-- Something of the value is left when the text is redacted. -/
def Survives (above : List Line) (a : SecretAssignment) (below : List Line) : Prop :=
  ∃ line ∈ redactMarked isSecret (markedLines above a below), ¬ Clean line

variable (isSecret) in
/-- Some characters end a run that passes for a secret. -/
def endsSecretRun (before tail : List Char) : Bool :=
  tail.all isCredentialChar && isSecret (before.rtakeWhile isCredentialChar ++ tail)

variable (isSecret) in
/-- The line assigns a secret at its first separator; or its header is cut before the value, or so
that what is left of it ends a run that passes for a secret. -/
def GivesWay (above : List Line) (a : SecretAssignment) (below : List Line) : Prop :=
  assigns a.line = true ∨
    a.valueBefore (headerCut (openAfter false above) a.line below) = [] ∨
      endsSecretRun isSecret a.upToValue
        (a.valueBefore (headerCut (openAfter false above) a.line below)) = true

/-! ### Where nothing is marked -/

theorem clean_cutMarked {cut : Option Nat} {line : Marked} (h : Clean line) :
    Clean (cutMarked cut line) := by
  cases cut with
  | none => exact h
  | some colon =>
      rw [cutMarked, Marked.clean_append]
      exact ⟨fun c hc => h c (List.mem_of_mem_take hc), Marked.clean_mark _⟩

theorem clean_assignmentMarked {line : Marked} (h : Clean line) :
    Clean (assignmentMarked line) := by
  have hsub {part : Marked} (hpart : ∀ c ∈ part, c ∈ line) : Clean part := fun c hc =>
    h c (hpart c hc)
  unfold assignmentMarked
  split
  · exact h
  · rename_i separator rest hdrop
    have hbefore : Clean (line.takeWhile fun c => !isSeparator c.1) :=
      hsub fun c hc => (List.takeWhile_prefix _).subset hc
    have hseparator : separator.2 = false :=
      h separator ((List.dropWhile_sublist _).subset (hdrop ▸ List.mem_cons_self))
    simp only
    split_ifs
    · rw [Marked.clean_append, Marked.clean_append, Marked.clean_cons]
      refine ⟨⟨fun c hc => ?_, fun c hc => ?_⟩, hseparator, Marked.clean_mark _⟩
      · exact hbefore c ((List.takeWhile_prefix _).subset hc)
      · exact hbefore c
          ((List.dropWhile_sublist _).subset ((List.rdropWhile_prefix _ _).subset hc))
    · exact h

theorem clean_flushMarked {run : Marked} (h : Clean run) : Clean (flushMarked isSecret run) := by
  rw [flushMarked]
  split_ifs
  · exact Marked.clean_mark _
  · exact h

theorem clean_runsMarked {run line : Marked} (hrun : Clean run) (h : Clean line) :
    Clean (runsMarked isSecret run line) := by
  induction line generalizing run with
  | nil => exact clean_flushMarked hrun
  | cons c line ih =>
      obtain ⟨hc, hline⟩ := Marked.clean_cons.mp h
      rw [runsMarked]
      split_ifs
      · refine ih (Marked.clean_append.mpr ⟨hrun, ?_⟩) hline
        exact Marked.clean_cons.mpr ⟨hc, Marked.clean_nil⟩
      · exact Marked.clean_append.mpr ⟨clean_flushMarked hrun,
          Marked.clean_cons.mpr ⟨hc, ih Marked.clean_nil hline⟩⟩

/-- Nothing comes up in a line that was not in it. -/
theorem clean_lines (isSecret : List Char → Bool) (isOpen : Bool) (lines : List Line) :
    ∀ line ∈ headersMarked isOpen (lines.map (mark false)),
      Clean (runsMarked isSecret [] (assignmentMarked line)) := by
  induction lines generalizing isOpen with
  | nil => exact fun _ h => absurd h List.not_mem_nil
  | cons line lines ih =>
      rw [List.map_cons, headersMarked, List.forall_mem_cons]
      exact ⟨clean_runsMarked Marked.clean_nil
        (clean_assignmentMarked (clean_cutMarked (Marked.clean_mark line))), ih _⟩

theorem map_text_map_mark {lines : List Line} : (lines.map (mark false)).map text = lines := by
  rw [List.map_map]
  conv_rhs => rw [← List.map_id lines]
  exact List.map_congr_left fun line _ => Marked.text_mark

namespace SecretAssignment

theorem text_marked (a : SecretAssignment) : a.marked.text = a.line := by
  rw [marked, Marked.text_append, Marked.text_append, Marked.text_mark, Marked.text_mark,
    Marked.text_mark, line]

/-- The line of the assignment, once its header is cut. -/
def cutLine (a : SecretAssignment) (isOpen : Bool) (below : List Line) : Marked :=
  cutMarked (headerCut isOpen a.line below) a.marked

end SecretAssignment

theorem map_text_markedLines {above below : List Line} {a : SecretAssignment} :
    (markedLines above a below).map text = above ++ a.line :: below := by
  rw [markedLines, List.map_append, List.map_cons, map_text_map_mark, map_text_map_mark,
    a.text_marked]

/-- What is left of the value is left in its own line. -/
theorem survives_iff_line {above below : List Line} {a : SecretAssignment} :
    Survives isSecret above a below ↔
      ¬ Clean (runsMarked isSecret []
        (assignmentMarked (a.cutLine (openAfter false above) below))) := by
  suffices h : ∀ isOpen, (∃ line ∈ headersMarked isOpen (markedLines above a below),
      ¬ Clean (runsMarked isSecret [] (assignmentMarked line))) ↔
      ¬ Clean (runsMarked isSecret []
        (assignmentMarked (a.cutLine (openAfter isOpen above) below))) by
    simpa [Survives, redactMarked] using h false
  induction above with
  | nil =>
      intro isOpen
      have hbelow := clean_lines isSecret (leavesOpen isOpen a.line) below
      rw [markedLines, List.map_nil, List.nil_append, headersMarked, map_text_map_mark,
        a.text_marked, List.exists_mem_cons_iff]
      constructor
      · rintro (h | ⟨line, hline, hmarked⟩)
        · exact h
        · exact absurd (hbelow line hline) hmarked
      · exact .inl
  | cons line above ih =>
      intro isOpen
      have hline : Clean (runsMarked isSecret [] (assignmentMarked
          (cutMarked (headerCut isOpen line ((markedLines above a below).map text))
            (mark false line)))) :=
        clean_runsMarked Marked.clean_nil
          (clean_assignmentMarked (clean_cutMarked (Marked.clean_mark line)))
      have hsplit : markedLines (line :: above) a below =
          mark false line :: markedLines above a below := rfl
      rw [hsplit, headersMarked, Marked.text_mark, List.exists_mem_cons_iff, ih]
      constructor
      · rintro (h | h)
        · exact absurd hline h
        · exact h
      · exact .inr

/-! ### The assignment pass -/

/-- What is behind a colon makes no difference to whether a line assigns a secret before it. -/
theorem assignsSecret_colon {before rest x y : List Char} :
    assignsSecret before (rest ++ ':' :: x) = assignsSecret before (rest ++ ':' :: y) := by
  have hcolon : isSeparator ':' = true := by decide
  have hblank (tail : List Char) : isBlank (rest ++ ':' :: tail) = false := by
    have hspace : isWhitespace ':' = false := by decide
    rw [isBlank_append, isBlank, isBlank, List.all_cons, hspace, Bool.false_and, Bool.and_false]
  have hprefix (tail : List Char) :
      placeholder.isPrefixOf ((rest ++ ':' :: tail).dropWhile isWhitespace) =
        placeholder.isPrefixOf (rest.dropWhile isWhitespace) := by
    rw [Bool.eq_iff_iff, List.isPrefixOf_iff_prefix, List.isPrefixOf_iff_prefix,
      dropWhile_isWhitespace_append hcolon]
    constructor
    · intro h
      rcases List.prefix_or_prefix_of_prefix h (List.prefix_append _ _) with hin | ⟨tail', hout⟩
      · exact hin
      · rw [← hout, List.prefix_append_right_inj] at h
        cases tail' with
        | nil => rw [← hout, List.append_nil]
        | cons c tail' =>
            have hmem : ':' ∈ placeholder := by
              rw [← hout, ← (List.cons_prefix_cons.mp h).1]
              exact List.mem_append_right _ List.mem_cons_self
            exact absurd hmem (by decide)
    · exact fun h => h.trans (List.prefix_append _ _)
  rw [assignsSecret, assignsSecret, hblank, hblank, hprefix, hprefix]

theorem assigns_colon {line x y : List Char} (h : ∃ c ∈ line, isSeparator c = true) :
    assigns (line ++ ':' :: x) = assigns (line ++ ':' :: y) := by
  rcases separator_cases line with hnone | ⟨before, sep, rest, rfl, hbefore, hsep⟩
  · obtain ⟨c, hc, hsep⟩ := h
    exact absurd hsep (by simp [hnone c hc])
  · rw [List.append_assoc, List.append_assoc, List.cons_append, List.cons_append,
      assigns_at hbefore hsep, assigns_at hbefore hsep, assignsSecret_colon]

/-- A line without marks up to a separator has none any more if it assigns a secret, and else stays
as it is. -/
theorem assignmentMarked_upTo {before : List Char} (rest : Marked)
    (h : ∃ c ∈ before, isSeparator c = true) :
    if assigns (text (mark false before ++ rest)) then
      Clean (assignmentMarked (mark false before ++ rest))
    else assignmentMarked (mark false before ++ rest) = mark false before ++ rest := by
  rcases separator_cases before with hnone | ⟨key, sep, tail, rfl, hkey, hsep⟩
  · obtain ⟨c, hc, hsep⟩ := h
    exact absurd hsep (by simp [hnone c hc])
  · have hpass : ∀ c ∈ mark false key, (!isSeparator c.1) = true := by
      intro c hc
      obtain ⟨x, hx, rfl⟩ := List.mem_map.mp hc
      simp [hkey x hx]
    have hline : mark false (key ++ sep :: tail) ++ rest =
        mark false key ++ (sep, false) :: (mark false tail ++ rest) := by simp
    have hdrop : (mark false key ++ (sep, false) :: (mark false tail ++ rest)).dropWhile
        (fun c => !isSeparator c.1) = (sep, false) :: (mark false tail ++ rest) := by
      rw [List.dropWhile_append_of_pos hpass, List.dropWhile_cons]
      simp [hsep]
    have htake : (mark false key ++ (sep, false) :: (mark false tail ++ rest)).takeWhile
        (fun c => !isSeparator c.1) = mark false key := by
      rw [List.takeWhile_append_of_pos hpass, List.takeWhile_cons]
      simp [hsep]
    rw [hline, Marked.text_append, Marked.text_cons, Marked.text_mark, assigns_at hkey hsep]
    unfold assignmentMarked
    rw [hdrop]
    simp only [htake, Marked.text_mark]
    split_ifs
    · rw [Marked.clean_append, Marked.clean_append, Marked.clean_cons]
      refine ⟨⟨fun c hc => ?_, fun c hc => ?_⟩, rfl, Marked.clean_mark _⟩
      · exact Marked.clean_mark key c ((List.takeWhile_prefix _).subset hc)
      · exact Marked.clean_mark key c
          ((List.dropWhile_sublist _).subset ((List.rdropWhile_prefix _ _).subset hc))
    · rfl

/-! ### The runs pass -/

theorem runsMarked_append {run before after : Marked} {c : Char × Bool}
    (hc : isCredentialChar c.1 = false) :
    runsMarked isSecret run (before ++ c :: after) =
      runsMarked isSecret run before ++ c :: runsMarked isSecret [] after := by
  induction before generalizing run with
  | nil => simp [runsMarked, hc]
  | cons x before ih =>
      rw [List.cons_append, runsMarked, runsMarked]
      split_ifs
      · exact ih
      · rw [ih, List.append_assoc, List.cons_append]

theorem runsMarked_credential {run before after : Marked}
    (h : ∀ c ∈ before, isCredentialChar c.1 = true) :
    runsMarked isSecret run (before ++ after) = runsMarked isSecret (run ++ before) after := by
  induction before generalizing run with
  | nil => rw [List.nil_append, List.append_nil]
  | cons c before ih =>
      obtain ⟨hc, hbefore⟩ := List.forall_mem_cons.mp h
      rw [List.cons_append, runsMarked, if_pos hc, ih hbefore, List.append_assoc,
        List.singleton_append]

/-- Of a text without marks, only the run it ends in matters to what is behind it. -/
theorem clean_runsMarked_upTo {before : List Char} {rest : Marked} :
    Clean (runsMarked isSecret [] (mark false before ++ rest)) ↔
      Clean (runsMarked isSecret (mark false (before.rtakeWhile isCredentialChar)) rest) := by
  have hrun : ∀ c ∈ mark false (before.rtakeWhile isCredentialChar),
      isCredentialChar c.1 = true := by
    intro c hc
    obtain ⟨x, hx, rfl⟩ := List.mem_map.mp hc
    exact List.mem_rtakeWhile_imp hx
  have hsplit : before.rdropWhile isCredentialChar ++ before.rtakeWhile isCredentialChar = before :=
    List.rdropWhile_append_rtakeWhile
  conv_lhs => rw [← hsplit, Marked.mark_append, List.append_assoc]
  rcases List.eq_nil_or_concat (before.rdropWhile isCredentialChar) with hnil | ⟨init, c, hlast⟩
  · rw [hnil]
    show Clean (runsMarked isSecret [] (_ ++ rest)) ↔ _
    rw [runsMarked_credential hrun, List.nil_append]
  · have hc : isCredentialChar c = false := by
      have hnot := List.rdropWhile_last_not isCredentialChar before (by rw [hlast]; simp)
      simpa [hlast] using hnot
    have hstop : mark false (init ++ [c]) ++
        (mark false (before.rtakeWhile isCredentialChar) ++ rest) =
        mark false init ++ (c, false) ::
          (mark false (before.rtakeWhile isCredentialChar) ++ rest) := by simp
    rw [hlast, List.concat_eq_append, hstop, runsMarked_append (c := (c, false)) hc,
      runsMarked_credential hrun, List.nil_append, Marked.clean_append, Marked.clean_cons]
    have hinit : Clean (runsMarked isSecret [] (mark false init)) :=
      clean_runsMarked Marked.clean_nil (Marked.clean_mark init)
    exact ⟨fun h => h.2.2, fun h => ⟨hinit, rfl, h⟩⟩

/-- Some characters that are followed by none of a credential give way if they end a run that passes
for a secret, and only then. -/
theorem clean_runsMarked_iff {before value after : List Char} (hvalue : value ≠ [])
    (hafter : ∀ c ∈ after.head?, isCredentialChar c = false) :
    Clean (runsMarked isSecret [] (mark false before ++ (mark true value ++ mark false after))) ↔
      endsSecretRun isSecret before value = true := by
  rw [clean_runsMarked_upTo, endsSecretRun, Bool.and_eq_true, List.all_eq_true]
  by_cases hcredential : ∀ c ∈ value, isCredentialChar c = true
  · have hmarked : ∀ c ∈ mark true value, isCredentialChar c.1 = true := by
      intro c hc
      obtain ⟨x, hx, rfl⟩ := List.mem_map.mp hc
      exact hcredential x hx
    have hflush (run : List Char) :
        Clean (flushMarked isSecret (mark false run ++ mark true value)) ↔
          isSecret (run ++ value) = true := by
      rw [flushMarked, Marked.text_append, Marked.text_mark, Marked.text_mark]
      split_ifs with hsecret
      · exact iff_of_true (Marked.clean_mark _) hsecret
      · refine iff_of_false (fun h => ?_) hsecret
        exact hvalue (Marked.clean_mark_true.mp (Marked.clean_append.mp h).2)
    rw [runsMarked_credential hmarked, iff_true_intro hcredential, true_and, ← hflush]
    cases after with
    | nil => rfl
    | cons c after =>
        have hc : isCredentialChar c = false := hafter c rfl
        have hrest : Clean (runsMarked isSecret [] (mark false after)) :=
          clean_runsMarked Marked.clean_nil (Marked.clean_mark after)
        rw [Marked.mark_cons, runsMarked, hc]
        simp only [Bool.false_eq_true, if_false, Marked.clean_append, Marked.clean_cons]
        exact ⟨fun h => h.1, fun h => ⟨h, trivial, hrest⟩⟩
  · refine iff_of_false (fun h => ?_) fun h => hcredential h.1
    have hsome : ∃ c ∈ value, isCredentialChar c = false := by simpa using hcredential
    obtain ⟨c, hc, hplain⟩ := hsome
    obtain ⟨init, tail, rfl⟩ := List.append_of_mem hc
    have hsplit : mark true (init ++ c :: tail) ++ mark false after =
        mark true init ++ (c, true) :: (mark true tail ++ mark false after) := by simp
    rw [hsplit, runsMarked_append (c := (c, true)) hplain, Marked.clean_append,
      Marked.clean_cons] at h
    cases h.2.1

/-! ### The assignment and its line -/

namespace SecretAssignment

variable {a : SecretAssignment}

theorem separator_mem : ∃ c ∈ a.upToValue, isSeparator c = true :=
  ⟨a.separator, by simp [upToValue], a.separates⟩

theorem credential_after {kept : List Char} (h : kept <+: a.after) (tail : List Char) :
    ∀ c ∈ (kept ++ ':' :: tail).head?, isCredentialChar c = false := by
  intro c hc
  cases kept with
  | nil =>
      cases hc
      decide
  | cons x kept =>
      cases hc
      obtain ⟨rest, hrest⟩ := h
      exact not_isCredentialChar_of_isWhitespace (a.value_whole _ (by rw [← hrest]; rfl))

theorem drop_upToValue {isOpen : Bool} {below : List Line} {colon : Nat}
    (h : headerCut isOpen a.line below = some colon) :
    a.line = a.line.take colon ++ ':' :: a.line.drop (colon + 1) :=
  colon_of_headerColon (Option.filter_eq_some_iff.mp h).1

/-- The value is gone from its line, or stands in it up to where the line is cut, with nothing of a
credential behind it; and the line still assigns a secret, if it did. -/
theorem cutLine_cases (isOpen : Bool) (below : List Line) :
    (a.valueBefore (headerCut isOpen a.line below) = [] ∧ Clean (a.cutLine isOpen below)) ∨
      a.valueBefore (headerCut isOpen a.line below) ≠ [] ∧
        assigns (text (a.cutLine isOpen below)) = assigns a.line ∧
        ∃ after, a.cutLine isOpen below = mark false a.upToValue ++
            (mark true (a.valueBefore (headerCut isOpen a.line below)) ++ mark false after) ∧
          ∀ c ∈ after.head?, isCredentialChar c = false := by
  rw [cutLine]
  cases hcut : headerCut isOpen a.line below with
  | none =>
      right
      refine ⟨a.value_ne_nil, by rw [cutMarked, text_marked], a.after, rfl, fun c hc => ?_⟩
      exact not_isCredentialChar_of_isWhitespace (a.value_whole c hc)
  | some colon =>
      have htake : a.marked.take colon = mark false (a.upToValue.take colon) ++
          (mark true (a.value.take (colon - a.upToValue.length)) ++
            mark false (a.after.take (colon - a.upToValue.length - a.value.length))) := by
        simp only [marked, mark, List.take_append, List.map_take, List.length_map]
      by_cases hleft : a.value.take (colon - a.upToValue.length) = []
      · left
        refine ⟨hleft, ?_⟩
        rw [cutMarked, htake, hleft, Marked.clean_append, Marked.clean_append,
          Marked.clean_append]
        exact ⟨⟨Marked.clean_mark _, Marked.clean_nil, Marked.clean_mark _⟩, Marked.clean_mark _⟩
      · right
        have hbehind : a.upToValue.length < colon := by
          by_contra hle
          exact hleft (by rw [Nat.sub_eq_zero_of_le (by omega), List.take_zero])
        refine ⟨hleft, ?_, a.after.take (colon - a.upToValue.length - a.value.length) ++
          ':' :: ' ' :: placeholder, ?_, ?_⟩
        · have hseparator : ∃ c ∈ a.line.take colon, isSeparator c = true := by
            obtain ⟨c, hc, hsep⟩ := a.separator_mem
            refine ⟨c, ?_, hsep⟩
            rw [line, List.take_append, List.take_of_length_le hbehind.le]
            exact List.mem_append_left _ hc
          rw [text_cutMarked, a.text_marked, cutHeader]
          conv_rhs => rw [drop_upToValue hcut]
          exact assigns_colon hseparator
        · rw [cutMarked, htake, List.take_of_length_le hbehind.le]
          simp [valueBefore]
        · exact credential_after (List.take_prefix _ _) _

end SecretAssignment

theorem survives_iff {above below : List Line} {a : SecretAssignment} :
    Survives isSecret above a below ↔ ¬ GivesWay isSecret above a below := by
  rw [survives_iff_line, not_iff_not, GivesWay]
  rcases a.cutLine_cases (openAfter false above) below with
    ⟨hgone, hclean⟩ | ⟨hleft, hassigns, after, hline, hafter⟩
  · exact iff_of_true (clean_runsMarked Marked.clean_nil (clean_assignmentMarked hclean))
      (.inr (.inl hgone))
  · have hpass := assignmentMarked_upTo
      (mark true (a.valueBefore (headerCut (openAfter false above) a.line below)) ++
        mark false after) a.separator_mem
    rw [← hline, hassigns] at hpass
    split_ifs at hpass with hsecret
    · exact iff_of_true (clean_runsMarked Marked.clean_nil hpass) (.inl hsecret)
    · rw [hpass, hline, clean_runsMarked_iff hleft hafter]
      simp [hsecret, hleft]

variable {log2 : ℚ → ℚ}

/-- Without the marks, the marked lines are those of the redacted text; and nothing of a value that
is assigned to a secret-shaped key is left in them exactly when it gives way. -/
theorem assignment_redacted_iff {content : List Char} {above below : List Line}
    {a : SecretAssignment} (h : linesOf content = above ++ a.line :: below) :
    joinLines ((redactMarked (isHighEntropy log2) (markedLines above a below)).map text) =
        redactChars log2 content ∧
      (¬ Survives (isHighEntropy log2) above a below ↔
        GivesWay (isHighEntropy log2) above a below) := by
  refine ⟨?_, by rw [survives_iff, not_not]⟩
  rw [map_text_redactMarked, map_text_markedLines, ← h, redactChars_eq_by, redactCharsBy_eq_lines]

/-! ### Values that stay -/

theorem token_word : ∀ c ∈ "TOKEN".toList, isWhitespace c = false ∧ isSeparator c = false := by
  have hall : "TOKEN".toList.all (fun c => !isWhitespace c && !isSeparator c) = true := by
    decide
  intro c hc
  simpa using List.all_eq_true.mp hall c hc

/-- A text ends in a blank. -/
theorem whole_of_blank {before : List Char} (h : before.getLast? = some ' ') :
    ∀ c ∈ before.getLast?, isWhitespace c = true ∨ isSeparator c = true := by
  rw [h]
  rintro _ ⟨⟩
  exact .inl (by decide)

theorem word_of_all {value : List Char} (h : value.all (!isWhitespace ·) = true) :
    ∀ c ∈ value, isWhitespace c = false := by
  intro c hc
  simpa using List.all_eq_true.mp h c hc

theorem isSecretKey_token : isSecretKey "TOKEN".toList = true := by decide

/-- `TOKEN=value`, behind some text and at the end of its line. -/
def tokenAssignment (before value : List Char)
    (hbefore : ∀ c ∈ before.getLast?, isWhitespace c = true ∨ isSeparator c = true)
    (hne : value ≠ []) (hvalue : ∀ c ∈ value, isWhitespace c = false) : SecretAssignment where
  before := before
  key := "TOKEN".toList
  separator := '='
  gap := []
  value := value
  after := []
  key_word := token_word
  key_whole := hbefore
  key_secret := isSecretKey_token
  separates := rfl
  gap_blank := rfl
  value_ne_nil := hne
  value_word := hvalue
  value_whole := fun _ h => absurd h (Option.not_mem_none _)

/-- `export TOKEN=x`. -/
def exportedToken : SecretAssignment :=
  tokenAssignment "export ".toList ['x'] (whole_of_blank (by decide)) (by decide)
    (word_of_all (by decide))

/-- `A=1 TOKEN=x`. -/
def secondToken : SecretAssignment :=
  tokenAssignment "A=1 ".toList ['x'] (whole_of_blank (by decide)) (by decide)
    (word_of_all (by decide))

/-- `TOKEN=[redacted]x`. -/
def prefixedToken : SecretAssignment :=
  tokenAssignment [] (placeholder ++ ['x']) (fun _ h => absurd h (Option.not_mem_none _))
    (by decide) (word_of_all (by decide))

instance {above below : List Line} {a : SecretAssignment} :
    Decidable (GivesWay isSecret above a below) := inferInstanceAs (Decidable (_ ∨ _ ∨ _))

/-- A short value does not give way behind a word with a blank, nor behind another assignment, nor
if it begins as the placeholder does. -/
theorem assignments_survive :
    Survives (isHighEntropy fun q => Int.log 2 q) [] exportedToken [] ∧
      Survives (isHighEntropy fun q => Int.log 2 q) [] secondToken [] ∧
        Survives (isHighEntropy fun q => Int.log 2 q) [] prefixedToken [] :=
  ⟨survives_iff.mpr (by decide), survives_iff.mpr (by decide),
    survives_iff.mpr (by decide)⟩

theorem assignment_redacted_exported :
    joinLines ((redactMarked (isHighEntropy fun q => Int.log 2 q)
        (markedLines [] exportedToken [])).map text) =
          redactChars (fun q => Int.log 2 q) "export TOKEN=x".toList ∧
      (¬ Survives (isHighEntropy fun q => Int.log 2 q) [] exportedToken [] ↔
        GivesWay (isHighEntropy fun q => Int.log 2 q) [] exportedToken []) :=
  assignment_redacted_iff (by decide)

end Argus.Redact
