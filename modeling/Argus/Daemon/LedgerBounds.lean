import Argus.Cloud.RedactPasses
import Argus.Daemon.LedgerUpload

/-!
# Whether the payloads keep within the bounds of the ledger

Counts and most lengths are cut to their bounds. The target of an action is cut to the bound of a
free text, which is not its own; and the texts of a trace are cut before they are redacted, so that
what a redaction adds may take them over.
-/

namespace Argus

def maxLedgerTargetLen : Nat := 500

namespace Redact

/-! ### What a redaction adds and takes away -/

variable (isSecret : List Char → Bool)

/-- The runs of a text that pass for secrets, with the run so far. -/
def secretRuns (run : List Char) : List Char → List (List Char)
  | [] => if isSecret run then [run] else []
  | c :: rest =>
      if isCredentialChar c then secretRuns (run ++ [c]) rest
      else (if isSecret run then [run] else []) ++ secretRuns [] rest

/-- How much of a line an assignment keeps before its separator. -/
def assignmentKeeps (line : Line) : Nat :=
  ((line.takeWhile (!isSeparator ·)).takeWhile isWhitespace).length +
    (trimChars (line.takeWhile (!isSeparator ·))).length

/-- A header that is cut has twelve characters more, an assignment eleven, and a run ten. -/
def lineAdds (cut : Option Nat) (line : Line) : Nat :=
  (if cut.isSome then 12 else 0) + (if assigns (cutHeader cut line) then 11 else 0) +
    10 * (secretRuns isSecret [] (redactAssignment (cutHeader cut line))).length

/-- How much of a line a cut takes. -/
def headerRemoves : Option Nat → Line → Nat
  | none, _ => 0
  | some colon, line => line.length - colon

/-- A header that is cut has none of its line from the colon on, an assignment none from the
separator on, and a run nothing. -/
def lineRemoves (cut : Option Nat) (line : Line) : Nat :=
  headerRemoves cut line +
    (if assigns (cutHeader cut line) then
      (cutHeader cut line).length - assignmentKeeps (cutHeader cut line) else 0) +
    ((secretRuns isSecret [] (redactAssignment (cutHeader cut line))).map List.length).sum

/-- What a line measures, summed up over lines. -/
def sumLines (measure : Option Nat → Line → Nat) : Bool → List Line → Nat
  | _, [] => 0
  | isOpen, line :: lines =>
      measure (headerCut isOpen line lines) line + sumLines measure (leavesOpen isOpen line) lines

def textAdds (text : List Char) : Nat := sumLines (lineAdds isSecret) false (linesOf text)

def textRemoves (text : List Char) : Nat := sumLines (lineRemoves isSecret) false (linesOf text)

theorem length_redactRunsBy (run text : List Char) :
    (redactRunsBy isSecret run text).length + ((secretRuns isSecret run text).map List.length).sum =
      run.length + text.length + 10 * (secretRuns isSecret run text).length := by
  have hflush (run : List Char) : (flushRunBy isSecret run).length +
      ((if isSecret run then [run] else []).map List.length).sum =
        run.length + 10 * (if isSecret run then [run] else []).length := by
    rw [flushRunBy]
    split_ifs
    · simp [length_placeholder, Nat.add_comm]
    · simp
  induction text generalizing run with
  | nil => simpa [redactRunsBy, secretRuns] using hflush run
  | cons c text ih =>
      rw [redactRunsBy, secretRuns]
      by_cases hc : isCredentialChar c = true
      · rw [if_pos hc, if_pos hc]
        have hrest := ih (run ++ [c])
        rw [List.length_append, List.length_singleton] at hrest
        rw [hrest, List.length_cons]
        omega
      · rw [if_neg hc, if_neg hc]
        have hrun := hflush run
        have hrest := ih []
        rw [List.length_nil] at hrest
        rw [List.length_append, List.length_cons, List.map_append, List.sum_append,
          List.length_append, List.length_cons]
        omega

theorem length_redactAssignment (line : Line) :
    (redactAssignment line).length +
        (if assigns line then line.length - assignmentKeeps line else 0) =
      line.length + if assigns line then 11 else 0 := by
  rcases separator_cases line with hnone | ⟨before, sep, rest, rfl, hbefore, hsep⟩
  · rw [redactAssignment_of_not_mem hnone, assigns_of_not_mem hnone]
    rfl
  · have hkeeps : (before.takeWhile isWhitespace).length + (trimChars before).length ≤
        before.length := by
      have hsplit := congrArg List.length (List.takeWhile_append_dropWhile (p := isWhitespace)
        (l := before))
      have htrim := (List.rdropWhile_prefix isWhitespace (before.dropWhile isWhitespace)).length_le
      rw [List.length_append] at hsplit
      rw [trimChars_eq]
      omega
    rw [redactAssignment_at hbefore hsep, assigns_at hbefore hsep, assignmentKeeps,
      takeWhile_separator hbefore hsep]
    split_ifs
    · simp only [List.length_append, List.length_cons, length_placeholder]
      omega
    · rfl

theorem length_cutHeader (isOpen : Bool) (line : Line) (later : List Line) :
    (cutHeader (headerCut isOpen line later) line).length +
        headerRemoves (headerCut isOpen line later) line =
      line.length + if (headerCut isOpen line later).isSome then 12 else 0 := by
  cases hcut : headerCut isOpen line later with
  | none => rfl
  | some colon =>
      have hline := congrArg List.length
        (colon_of_headerColon (Option.filter_eq_some_iff.mp hcut).1)
      rw [List.length_append, List.length_cons, List.length_take, List.length_drop] at hline
      simp only [cutHeader, headerRemoves, List.length_append, List.length_take, List.length_cons,
        length_placeholder, Option.isSome_some, if_true]
      omega

theorem length_redactLine (isOpen : Bool) (line : Line) (later : List Line) :
    (redactLine isSecret (cutHeader (headerCut isOpen line later) line)).length +
        lineRemoves isSecret (headerCut isOpen line later) line =
      line.length + lineAdds isSecret (headerCut isOpen line later) line := by
  have hcut := length_cutHeader isOpen line later
  have hassignment := length_redactAssignment (cutHeader (headerCut isOpen line later) line)
  have hruns := length_redactRunsBy isSecret []
    (redactAssignment (cutHeader (headerCut isOpen line later) line))
  rw [List.length_nil, Nat.zero_add] at hruns
  rw [redactLine, lineRemoves, lineAdds]
  omega

theorem length_headerLines (isOpen : Bool) (lines : List Line) :
    (followed ((headerLines isOpen lines).map (redactLine isSecret))).length +
        sumLines (lineRemoves isSecret) isOpen lines =
      (followed lines).length + sumLines (lineAdds isSecret) isOpen lines := by
  induction lines generalizing isOpen with
  | nil => rfl
  | cons line lines ih =>
      have hline := length_redactLine isSecret isOpen line lines
      have hlines := ih (leavesOpen isOpen line)
      rw [headerLines, List.map_cons, followed_cons, followed_cons, joinLines_cons, joinLines_cons,
        sumLines, sumLines, List.length_cons, List.length_cons, List.length_append,
        List.length_append]
      omega

/-- The length of a redacted text. -/
theorem length_redactCharsBy (text : List Char) :
    (redactCharsBy isSecret text).length + textRemoves isSecret text =
      text.length + textAdds isSecret text := by
  have hlines := length_headerLines isSecret false (linesOf text)
  have hfollowed (lines : List Line) (hne : lines ≠ []) :
      (followed lines).length = (joinLines lines).length + 1 := by
    cases lines with
    | nil => exact absurd rfl hne
    | cons line lines => rw [followed_cons, List.length_cons]
  have hne : (headerLines false (linesOf text)).map (redactLine isSecret) ≠ [] := by
    rw [Ne, List.map_eq_nil_iff]
    exact headerLines_ne_nil (List.splitOn_ne_nil _ _)
  rw [hfollowed _ hne, hfollowed (linesOf text) (List.splitOn_ne_nil _ _), joinLines_linesOf,
    ← redactCharsBy_eq_lines] at hlines
  rw [textRemoves, textAdds]
  omega

end Redact

/-! ### The payloads -/

/-- A text of the wire that is within the bound of a free text. -/
def WithinText (text : String) : Prop := text.length ≤ maxLedgerTextLen

/-- An action payload that the cloud does not reject. The verdict and the outcome are words of a
vocabulary, which go up as they are. -/
structure ActionEventPayload.WithinBounds (payload : ActionEventPayload) : Prop where
  kind : payload.kind.length ≤ maxLedgerKindLen
  target : ∀ target ∈ payload.target, target.length ≤ maxLedgerTargetLen
  verdict : WithinText payload.verdict
  policyId : ∀ id ∈ payload.policyId, WithinText id
  outcome : WithinText payload.outcome

/-- A trace payload that the cloud does not reject. -/
structure BrainTracePayload.WithinBounds (payload : BrainTracePayload) : Prop where
  evidence : payload.evidence.length ≤ maxLedgerEvidence
  steps : payload.steps.length ≤ maxLedgerSteps
  evidenceText : ∀ line ∈ payload.evidence, WithinText line
  stepText : ∀ step ∈ payload.steps, WithinText step
  decision : ∀ text ∈ payload.decision, WithinText text
  objective : ∀ text ∈ payload.objective, WithinText text
  outcome : ∀ text ∈ payload.outcome, WithinText text

/-- The texts of a trace that go up. -/
def BrainTraceRecord.sentTexts (trace : BrainTraceRecord) : List String :=
  trace.evidence.take maxLedgerEvidence ++ trace.steps.take maxLedgerSteps ++
    (trace.decision.toList ++ trace.objective.toList ++ trace.outcome.toList)

section

variable (log2 : ℚ → ℚ)

/-- What the redaction of a text adds, once it is clipped, fits in what it takes away and in the
room up to the bound. -/
def Fits (text : String) : Prop :=
  let clipped := (boundText text maxLedgerTextLen).toList
  clipped.length + Redact.textAdds (Redact.isHighEntropy log2) clipped ≤
    maxLedgerTextLen + Redact.textRemoves (Redact.isHighEntropy log2) clipped

instance {text : String} : Decidable (Fits log2 text) := inferInstanceAs (Decidable (_ ≤ _))

end

variable {log2 : ℚ → ℚ}

theorem length_boundText {text : String} {max : Nat} :
    (boundText text max).length = min max text.length := by
  rw [boundText, String.length_ofList, List.length_take, String.length_toList]

theorem withinText_clipRedact_iff {text : String} :
    WithinText (clipRedact log2 text) ↔ Fits log2 text := by
  have hlength := Redact.length_redactCharsBy (Redact.isHighEntropy log2)
    (boundText text maxLedgerTextLen).toList
  rw [WithinText, clipRedact, Redact.redactText, String.length_ofList, Redact.redactChars_eq_by]
  simp only [Fits]
  omega

theorem actionPayload_withinBounds_iff {event : ActionEvent} {cycleId : Option Uuid} :
    (∀ payload ∈ actionPayload log2 event cycleId, payload.WithinBounds) ↔
      (∀ target ∈ event.target, target.length ≤ maxLedgerTargetLen) ∧
        WithinText event.verdict ∧ WithinText event.outcome := by
  have hclip (max : Nat) (text : String) (hmax : max ≤ maxLedgerTextLen) :
      WithinText (boundText text max) := by
    rw [WithinText, length_boundText]
    omega
  constructor
  · intro h
    have hbounds := h _ rfl
    refine ⟨fun target htarget => ?_, hbounds.verdict, hbounds.outcome⟩
    have hbound := hbounds.target (boundText target maxLedgerTextLen)
      (Option.mem_map_of_mem _ htarget)
    rw [length_boundText] at hbound
    unfold maxLedgerTextLen maxLedgerTargetLen at *
    omega
  · rintro ⟨htarget, hverdict, houtcome⟩ payload hpayload
    cases hpayload
    refine ⟨?_, ?_, hverdict, ?_, houtcome⟩
    · rw [length_boundText]
      exact Nat.min_le_left _ _
    · intro clipped hclipped
      obtain ⟨target, hmem, rfl⟩ := Option.mem_map.mp hclipped
      rw [length_boundText]
      exact (Nat.min_le_right _ _).trans (htarget target hmem)
    · intro clipped hclipped
      obtain ⟨id, -, rfl⟩ := Option.mem_map.mp hclipped
      exact hclip _ _ (by decide)

theorem tracePayload_withinBounds_iff {trace : BrainTraceRecord} :
    (∀ payload ∈ tracePayload log2 trace, payload.WithinBounds) ↔
      ∀ text ∈ trace.sentTexts, Fits log2 text := by
  constructor
  · intro h text htext
    have hbounds := h _ rfl
    rw [← withinText_clipRedact_iff]
    simp only [BrainTraceRecord.sentTexts, List.mem_append, Option.mem_toList] at htext
    rcases htext with (hevidence | hstep) | (hdecision | hobjective) | houtcome
    · exact hbounds.evidenceText _ (List.mem_map_of_mem hevidence)
    · exact hbounds.stepText _ (List.mem_map_of_mem hstep)
    · exact hbounds.decision _ (Option.mem_map_of_mem _ hdecision)
    · exact hbounds.objective _ (Option.mem_map_of_mem _ hobjective)
    · exact hbounds.outcome _ (Option.mem_map_of_mem _ houtcome)
  · intro h payload hpayload
    cases hpayload
    have hfits (text : String) (htext : text ∈ trace.sentTexts) :
        WithinText (clipRedact log2 text) := withinText_clipRedact_iff.mpr (h text htext)
    have hoption {field : Option String} (hfield : ∀ text ∈ field, text ∈ trace.sentTexts) :
        ∀ text ∈ field.map (clipRedact log2), WithinText text := by
      intro text htext
      obtain ⟨raw, hraw, rfl⟩ := Option.mem_map.mp htext
      exact hfits raw (hfield raw hraw)
    refine ⟨?_, ?_, ?_, ?_, hoption ?_, hoption ?_, hoption ?_⟩
    · rw [List.length_map]
      exact List.length_take_le _ _
    · rw [List.length_map]
      exact List.length_take_le _ _
    · intro text htext
      obtain ⟨raw, hraw, rfl⟩ := List.mem_map.mp htext
      exact hfits raw (by simp [BrainTraceRecord.sentTexts, hraw])
    · intro text htext
      obtain ⟨raw, hraw, rfl⟩ := List.mem_map.mp htext
      exact hfits raw (by simp [BrainTraceRecord.sentTexts, hraw])
    all_goals
      intro text htext
      rw [Option.mem_def] at htext
      simp [BrainTraceRecord.sentTexts, htext]

variable (log2) in
/-- An action goes up within the bounds if its target is within its own, and its words are within
that of a text; a trace does if every text of it that goes up has room for its redaction. -/
theorem uploads_bounded_iff (event : ActionEvent) (cycleId : Option Uuid)
    (trace : BrainTraceRecord) :
    ((∀ payload ∈ actionPayload log2 event cycleId, payload.WithinBounds) ↔
      (∀ target ∈ event.target, target.length ≤ maxLedgerTargetLen) ∧
        WithinText event.verdict ∧ WithinText event.outcome) ∧
    ((∀ payload ∈ tracePayload log2 trace, payload.WithinBounds) ↔
      ∀ text ∈ trace.sentTexts, Fits log2 text) :=
  ⟨actionPayload_withinBounds_iff, tracePayload_withinBounds_iff⟩

/-- A restart whose target is a name of `n` characters. -/
def restartNamed (n : Nat) : ActionEvent :=
  { CycleLedger.restartOf 7 with target := some (.ofList (List.replicate n 'x')) }

/-- A short assignment behind blanks. -/
def indented (n : Nat) : List Char := List.replicate n ' ' ++ "TOKEN=x".toList

/-- It is nine characters longer once it is redacted. -/
theorem redactChars_indented {n : Nat} :
    Redact.redactChars floorLog2 (indented n) =
      List.replicate n ' ' ++ "TOKEN=[redacted]".toList := by
  have hblank : ∀ c ∈ List.replicate n ' ', isWhitespace c = true := fun c hc => by
    rw [List.eq_of_mem_replicate hc]
    decide
  have hheadless : Redact.Headless (indented n) := Redact.Headless.padded (by decide)
  have hline : '\n' ∉ indented n := by
    rw [indented, List.mem_append, not_or]
    exact ⟨fun h => absurd (List.eq_of_mem_replicate h) (by decide), by decide⟩
  have hbefore : ∀ c ∈ List.replicate n ' ' ++ "TOKEN".toList, Redact.isSeparator c = false := by
    have htoken : "TOKEN".toList.all (!Redact.isSeparator ·) = true := by decide
    intro c hc
    rcases List.mem_append.mp hc with hc | hc
    · rw [List.eq_of_mem_replicate hc]
      decide
    · simpa using List.all_eq_true.mp htoken c hc
  have hkey : Redact.trimChars (List.replicate n ' ' ++ "TOKEN".toList) = "TOKEN".toList := by
    rw [Redact.trimChars_eq, List.dropWhile_append_of_pos hblank]
    decide
  have hindent : (List.replicate n ' ' ++ "TOKEN".toList).takeWhile isWhitespace =
      List.replicate n ' ' := by
    rw [List.takeWhile_append_of_pos hblank]
    have hstop : "TOKEN".toList.takeWhile isWhitespace = [] := by decide
    rw [hstop, List.append_nil]
  have hassigns : Redact.assignsSecret (List.replicate n ' ' ++ "TOKEN".toList) ['x'] = true := by
    rw [Redact.assignsSecret, hkey]
    decide
  have hsplit : indented n = List.replicate n ' ' ++ "TOKEN".toList ++ '=' :: ['x'] := by
    rw [indented, List.append_assoc]
    rfl
  have hassignment : Redact.redactAssignment (indented n) =
      List.replicate n ' ' ++ "TOKEN=[redacted]".toList := by
    rw [hsplit, Redact.redactAssignment_at hbefore (by decide), if_pos hassigns, hkey, hindent,
      List.append_assoc]
    rfl
  rw [Redact.redactChars, Redact.redactAuthorizationHeaders_of_headless hheadless,
    Redact.redactEnvAssignments, List.splitOn_eq_singleton hline, List.map_singleton,
    List.intercalate_singleton, hassignment, Redact.redactRuns_padded]
  exact congrArg _ (by decide)

/-- A target may be too long by one, and a text that is no longer than it may be can become so. -/
theorem uploads_over_bound :
    (∃ payload ∈ actionPayload floorLog2 (restartNamed 501) none, ¬ payload.WithinBounds) ∧
      (String.ofList (indented 1993)).length = maxLedgerTextLen ∧
        ∃ payload ∈ tracePayload floorLog2 (traceOf (indented 1993)), ¬ payload.WithinBounds := by
  have hfull : (indented 1993).length = maxLedgerTextLen := by
    rw [indented, List.length_append, List.length_replicate]
    decide
  refine ⟨⟨_, rfl, fun h => ?_⟩, by rw [String.length_ofList, hfull], _, rfl, fun h => ?_⟩
  · have htarget := h.target _ rfl
    rw [length_boundText, String.length_ofList, List.length_replicate] at htarget
    exact absurd htarget (by decide)
  · have hline := h.evidenceText (clipRedact floorLog2 (.ofList (indented 1993)))
      (by simp [traceOf, maxLedgerEvidence])
    rw [WithinText, clipRedact, boundText_of_le (by rw [String.length_ofList, hfull]),
      Redact.redactText, String.toList_ofList, redactChars_indented, String.length_ofList,
      List.length_append, List.length_replicate] at hline
    exact absurd hline (by decide)

end Argus
