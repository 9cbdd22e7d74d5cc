import Argus.Cloud.RedactResidue
import Argus.Cloud.RedactStructure

/-!
# When redacting twice is redacting once

The passes go over a text one after the other, and each may bring up what an earlier one was to
find. A run that gives way may have hidden a separator, so that the line assigns a secret at its
next one; and an assignment that gives way may have held the colon of a header, which then is open
for the colon of a later line. `calm` goes through the lines of a text and looks for both.
-/

namespace Argus.Redact

open Value (ShownText)

variable (test : EntropyTest)

/-- The run stays, and has the word of a header. -/
def keepsWord (run : List Char) : Bool :=
  !test.isSecret run && (find? "authorization".toList (run.map Char.toLower)).isSome

/-- Whether a header is open behind a text once its secret runs give way, with the run so far. -/
def staysOpen (isOpen : Bool) (run : List Char) : List Char → Bool
  | [] => isOpen || keepsWord test run
  | c :: rest =>
      if isCredentialChar c then staysOpen isOpen (run ++ [c]) rest
      else if c == ':' && (isOpen || keepsWord test run) then false
      else staysOpen (isOpen || keepsWord test run) [] rest

/-- A blank, and the placeholder or a secret run. -/
def isGone : List Char → Bool
  | ' ' :: value => value == placeholder || (value.all isCredentialChar && test.isSecret value)
  | _ => false

/-- A line has no colon, or no header could have a value behind its first. -/
def isQuiet (line : Line) (later : List Line) : Bool :=
  match afterFirst ':' line with
  | none => true
  | some value => isGone test value || (isBlank value && later.all isBlank)

/-- No line assigns a secret once its secret runs give way, if it did not before; and none that is
below a header whose colon went with an assignment has a colon with a value. `isOpen` is for the
headers that the first pass finds open, and `left` for those that it leaves open. -/
def calm : Bool → Bool → List Line → Bool
  | _, _, [] => true
  | isOpen, left, line :: lines =>
      let cut := cutHeader (headerCut isOpen line lines) line
      (assigns cut || !assigns (redactRunsBy test.isSecret [] cut)) &&
        (!left || isOpen || isQuiet test (redactAssignment cut) lines) &&
          calm (leavesOpen isOpen line) (staysOpen test left [] (redactAssignment cut)) lines

variable {test}

/-! ### The word and the runs -/

section Headers

variable {isOpen : Bool} {line : Line} {later : List Line}

theorem toLower_not_mem_word {c : Char} (hc : isCredentialChar c = false) :
    c.toLower ∉ "authorization".toList := by
  intro hmem
  by_cases hupper : c.val ≥ 'A'.val ∧ c.val ≤ 'Z'.val
  · have hletter : c.isAlphanum = true := isAlphanum_iff.mpr (.inl (.inl hupper))
    have hcredential : isCredentialChar c = true := by simp [isCredentialChar, hletter]
    rw [hc] at hcredential
    cases hcredential
  · have hlower : c.toLower = c := by
      unfold Char.toLower
      rw [dif_neg hupper]
    have hword : ∀ c ∈ "authorization".toList, isCredentialChar c = true :=
      List.all_eq_true.mp (by decide)
    rw [hlower] at hmem
    rw [hword c hmem] at hc
    cases hc

/-- The word does not go across a character that it has not. -/
theorem headless_append {before after : List Char} {c : Char} (hc : isCredentialChar c = false) :
    Headless (before ++ c :: after) ↔ Headless before ∧ Headless after := by
  have hfound (text : List Char) : Headless text ↔
      find? "authorization".toList (text.map Char.toLower) = none := by
    rw [Headless, ← find?_isSome, Bool.not_eq_true, Option.isSome_eq_false_iff,
      Option.isNone_iff_eq_none]
  rw [hfound, hfound, hfound, List.map_append, List.map_cons]
  cases hbefore : find? "authorization".toList (before.map Char.toLower) with
  | none => rw [find?_skip hbefore (toLower_not_mem_word hc), Option.map_eq_none_iff]; simp
  | some at_ => rw [find?_append hbefore]; simp

theorem headless_placeholder : Headless placeholder := by decide

theorem headless_flushRunBy {run : List Char} (h : Headless run) :
    Headless (flushRunBy test.isSecret run) := by
  rw [flushRunBy]
  split_ifs
  · exact headless_placeholder
  · exact h

theorem headless_redactRunsBy {run text : List Char} (h : Headless (run ++ text)) :
    Headless (redactRunsBy test.isSecret run text) := by
  induction text generalizing run with
  | nil =>
      rw [List.append_nil] at h
      exact headless_flushRunBy h
  | cons c text ih =>
      rw [redactRunsBy]
      split_ifs with hc
      · rw [← List.singleton_append, ← List.append_assoc] at h
        exact ih h
      · rw [Bool.not_eq_true] at hc
        obtain ⟨hrun, htext⟩ := (headless_append hc).mp h
        exact (headless_append hc).mpr ⟨headless_flushRunBy hrun, ih htext⟩

theorem redactRunsBy_colon {text before value : List Char}
    (h : redactRunsBy test.isSecret [] text = before ++ ':' :: value) :
    ∃ a b, text = a ++ ':' :: b ∧ redactRunsBy test.isSecret [] a = before ∧
      redactRunsBy test.isSecret [] b = value :=
  redactRunsBy_split isRun_nil not_isCredentialChar_colon (by decide) h

theorem headerColon_redactRunsBy (h : headerColon isOpen line = none) :
    headerColon isOpen (redactRunsBy test.isSecret [] line) = none := by
  rw [headerColon_eq_none_iff] at h ⊢
  intro before value hline
  obtain ⟨a, b, rfl, rfl, -⟩ := redactRunsBy_colon hline
  obtain ⟨hclosed, hheadless⟩ := h a b rfl
  exact ⟨hclosed, headless_redactRunsBy hheadless⟩

theorem redactRunsBy_gone :
    redactRunsBy test.isSecret [] (' ' :: placeholder) = ' ' :: placeholder := by
  have hplaceholder : redactRunsBy test.isSecret [] ([' '] ++ placeholder) =
      redactRunsBy test.isSecret [] [' '] ++ placeholder := redactRunsBy_placeholder
  have hblank : redactRunsBy test.isSecret [] [' '] = [' '] := by
    rw [redactRunsBy, not_isCredentialChar_space, if_neg Bool.false_ne_true, flushRunBy_nil,
      redactRunsBy_nil]
    rfl
  rwa [hblank] at hplaceholder

theorem redactRunsBy_of_isBlank {text : List Char} (h : isBlank text = true) :
    redactRunsBy test.isSecret [] text = text := by
  induction text with
  | nil => exact redactRunsBy_nil
  | cons c text ih =>
      rw [isBlank, List.all_cons, Bool.and_eq_true] at h
      rw [redactRunsBy, not_isCredentialChar_of_isWhitespace h.1, if_neg Bool.false_ne_true,
        flushRunBy_nil, ih h.2]
      rfl

/-- Neither do the runs. -/
theorem Cut.redactRunsBy (test : EntropyTest) {later' : List Line} (h : Cut isOpen line later)
    (hlater : later'.all isBlank = later.all isBlank) :
    Cut isOpen (redactRunsBy test.isSecret [] line) later' := by
  rcases h with hnone | ⟨before, value, rfl, hbefore, hvalue⟩
  · exact .inl (headerColon_redactRunsBy hnone)
  · right
    refine ⟨_, _, redactRunsBy_append not_isCredentialChar_colon,
      headerColon_redactRunsBy hbefore, ?_⟩
    rcases hvalue with rfl | ⟨hblank, hall⟩
    · exact .inl redactRunsBy_gone
    · rw [redactRunsBy_of_isBlank hblank, hlater]
      exact .inr ⟨hblank, hall⟩

/-! ### Whether a header is left open -/

theorem leavesOpen_iff :
    leavesOpen isOpen line = true ↔
      (isOpen = true ∨ ¬ Headless line) ∧ headerColon isOpen line = none := by
  have hstart : (headerStart isOpen line).isSome = true ↔ isOpen = true ∨ ¬ Headless line := by
    cases isOpen with
    | true => exact iff_of_true rfl (.inl rfl)
    | false =>
        rw [headerStart, if_neg Bool.false_ne_true, find?_isSome, Headless, not_not]
        simp
  rw [leavesOpen, Bool.and_eq_true, hstart, Option.isNone_iff_eq_none]

/-- The text has the word of a header. -/
def namesHeader (text : List Char) : Bool :=
  (find? "authorization".toList (text.map Char.toLower)).isSome

theorem namesHeader_iff {text : List Char} : namesHeader text = true ↔ ¬ Headless text := by
  rw [namesHeader, find?_isSome, Headless, not_not]

theorem leavesOpen_of_no_colon (h : ':' ∉ line) :
    leavesOpen isOpen line = (isOpen || namesHeader line) := by
  rw [Bool.eq_iff_iff, leavesOpen_iff, Bool.or_eq_true, namesHeader_iff,
    and_iff_left (headerColon_of_not_mem h)]

/-- What is before a character that no word has is all that it takes to go on behind it. -/
theorem leavesOpen_append {before after : List Char} {c : Char} (hcolon : ':' ∉ before)
    (hc : isCredentialChar c = false) :
    leavesOpen isOpen (before ++ c :: after) =
      if c == ':' && (isOpen || namesHeader before) then false
      else leavesOpen (isOpen || namesHeader before) after := by
  rw [Bool.eq_iff_iff, leavesOpen_iff, headless_append hc, headerColon_eq_none_iff]
  cases hopen : (isOpen || namesHeader before) with
  | true =>
      have hword : isOpen = true ∨ ¬ Headless before := by
        rwa [Bool.or_eq_true, namesHeader_iff] at hopen
      by_cases hx : c = ':'
      · subst hx
        refine iff_of_false (fun h => ?_) (by simp)
        obtain ⟨hclosed, hheadless⟩ := h.2 _ _ rfl
        rcases hword with hisOpen | hnames
        · rw [hisOpen] at hclosed
          cases hclosed
        · exact hnames hheadless
      · have hne : (c == ':') = false := by simpa using hx
        rw [hne, Bool.false_and, if_neg Bool.false_ne_true, leavesOpen_iff,
          headerColon_eq_none_iff]
        constructor
        · rintro ⟨-, hall⟩
          refine ⟨.inl rfl, fun start value hafter => ?_⟩
          obtain ⟨hclosed, hheadless⟩ := hall (before ++ c :: start) value (by simp [hafter])
          rcases hword with hisOpen | hnames
          · rw [hisOpen] at hclosed
            cases hclosed
          · exact absurd ((headless_append hc).mp hheadless).1 hnames
        · rintro ⟨-, hall⟩
          refine ⟨?_, fun start value hline => ?_⟩
          · rcases hword with hisOpen | hnames
            · exact .inl hisOpen
            · exact .inr fun h => hnames h.1
          · rcases split_first hcolon hline with ⟨-, rfl, -⟩ | ⟨middle, -, hafter⟩
            · exact absurd rfl hx
            · cases (hall middle value hafter).1
  | false =>
      rw [Bool.or_eq_false_iff] at hopen
      obtain ⟨rfl, hnames⟩ := hopen
      have hheadless : Headless before := by
        by_contra h
        rw [namesHeader_iff.mpr h] at hnames
        cases hnames
      rw [Bool.and_false, if_neg Bool.false_ne_true, leavesOpen_iff, headerColon_eq_none_iff]
      constructor
      · rintro ⟨hword, hall⟩
        refine ⟨hword.imp_right fun h hafter => h ⟨hheadless, hafter⟩,
          fun start value hafter => ⟨rfl, ?_⟩⟩
        exact ((headless_append hc).mp (hall (before ++ c :: start) value (by simp [hafter])).2).2
      · rintro ⟨hword, hall⟩
        refine ⟨hword.imp_right fun h hboth => h hboth.2, fun start value hline => ⟨rfl, ?_⟩⟩
        rcases split_first hcolon hline with ⟨rfl, -, -⟩ | ⟨middle, rfl, hafter⟩
        · exact hheadless
        · exact (headless_append hc).mpr ⟨hheadless, (hall middle value hafter).2⟩

/-- `staysOpen` says what the header pass finds once the secret runs gave way. -/
theorem leavesOpen_redactRunsBy {run : List Char} (hrun : IsRun run) :
    leavesOpen isOpen (redactRunsBy test.isSecret run line) = staysOpen test isOpen run line := by
  have hcolon {run : List Char} (hrun : IsRun run) : ':' ∉ flushRunBy test.isSecret run :=
    fun hmem => (mem_flushRunBy hmem).elim (hrun.not_mem not_isCredentialChar_colon) (by decide)
  have hnames (run : List Char) :
      namesHeader (flushRunBy test.isSecret run) = keepsWord test run := by
    rw [flushRunBy, keepsWord]
    cases hsecret : test.isSecret run with
    | true =>
        have hplaceholder : namesHeader placeholder = false := by decide
        rw [if_pos rfl, hplaceholder, Bool.not_true, Bool.false_and]
    | false => rfl
  induction line generalizing isOpen run with
  | nil => rw [redactRunsBy, staysOpen, leavesOpen_of_no_colon (hcolon hrun), hnames]
  | cons c line ih =>
      rw [redactRunsBy, staysOpen]
      by_cases hc : isCredentialChar c = true
      · rw [if_pos hc, if_pos hc, ih (hrun.snoc hc)]
      · rw [if_neg hc, if_neg hc, leavesOpen_append (hcolon hrun) (by simpa using hc), hnames,
          ih isRun_nil]

/-! ### Where a header is left open that was none -/

/-- Only the placeholder and a secret run come to the placeholder. -/
theorem redactRunsBy_eq_placeholder {text : List Char}
    (h : redactRunsBy test.isSecret [] text = placeholder) :
    text = placeholder ∨ IsRun text ∧ test.isSecret text = true := by
  rcases redactRunsBy_cases test text isRun_nil with
    hkept | ⟨u, secret, v, u', v', hsecret, hrun, htext, hout, hu, hv⟩
  · left
    rw [← h, hkept, List.nil_append]
  · right
    have hlength := congrArg List.length (hout.symm.trans h)
    simp only [List.length_append] at hlength
    obtain rfl := hu (List.eq_nil_of_length_eq_zero (by omega))
    obtain rfl := hv (List.eq_nil_of_length_eq_zero (by omega))
    rw [List.nil_append, List.nil_append, List.append_nil] at htext
    rw [htext]
    exact ⟨hrun, hsecret⟩

theorem redactRunsBy_eq_nil {text : List Char} (h : redactRunsBy test.isSecret [] text = []) :
    text = [] := by
  rcases redactRunsBy_cases test text isRun_nil with
    hkept | ⟨_, _, _, _, _, -, -, -, hout, -, -⟩
  · rw [← h, hkept, List.nil_append]
  · have hlength := congrArg List.length (h.symm.trans hout)
    simp only [List.length_append, List.length_nil, length_placeholder] at hlength
    omega

theorem isGone_iff {value : List Char} :
    isGone test value = true ↔
      redactRunsBy test.isSecret [] value = ' ' :: placeholder := by
  constructor
  · intro h
    unfold isGone at h
    split at h
    · rename_i rest
      rw [Bool.or_eq_true, Bool.and_eq_true, beq_iff_eq, List.all_eq_true] at h
      rcases h with rfl | ⟨hrun, hsecret⟩
      · exact redactRunsBy_gone
      · rw [redactRunsBy, not_isCredentialChar_space, if_neg Bool.false_ne_true, flushRunBy_nil,
          redactRunsBy_run hrun, List.nil_append, List.nil_append, flushRunBy, if_pos hsecret]
    · cases h
  · intro h
    obtain ⟨a, rest, rfl, ha, hrest⟩ :=
      redactRunsBy_split isRun_nil not_isCredentialChar_space (by decide)
        (show redactRunsBy test.isSecret [] value = [] ++ ' ' :: placeholder from h)
    obtain rfl := redactRunsBy_eq_nil ha
    rw [List.nil_append, isGone, Bool.or_eq_true, Bool.and_eq_true, beq_iff_eq, List.all_eq_true]
    exact redactRunsBy_eq_placeholder hrest

theorem colon_not_mem_redactRunsBy {text : List Char} (h : ':' ∉ text) :
    ':' ∉ redactRunsBy test.isSecret [] text := fun hmem => by
  rcases mem_redactRunsBy hmem with hnil | htext | hplaceholder
  · exact absurd hnil List.not_mem_nil
  · exact h htext
  · exact absurd hplaceholder (by decide)

theorem isQuiet_iff {later' : List Line} (hlater : later'.all isBlank = later.all isBlank) :
    isQuiet test line later = true ↔ Cut true (redactRunsBy test.isSecret [] line) later' := by
  by_cases hmem : ':' ∈ line
  · obtain ⟨before, value, rfl, hbefore⟩ := List.eq_append_cons_of_mem hmem
    have hplain : ':' ∉ redactRunsBy test.isSecret [] before :=
      colon_not_mem_redactRunsBy hbefore
    have hblank : isBlank (redactRunsBy test.isSecret [] value) = isBlank value := by
      rw [isBlank_redactRunsBy isRun_nil]
      rfl
    rw [isQuiet, afterFirst_append hbefore, redactRunsBy_append not_isCredentialChar_colon]
    simp only [Bool.or_eq_true, Bool.and_eq_true]
    constructor
    · intro h
      refine .inr ⟨_, _, rfl, headerColon_of_not_mem hplain, ?_⟩
      rcases h with hgone | ⟨hvalue, hall⟩
      · exact .inl (isGone_iff.mp hgone)
      · rw [hblank, hlater]
        exact .inr ⟨hvalue, hall⟩
    · rintro (hnone | ⟨start, rest, hline, hstart, hrest⟩)
      · rw [headerColon_at hplain] at hnone
        cases hnone
      · rcases split_first hplain hline with ⟨-, -, rfl⟩ | ⟨middle, rfl, -⟩
        · rw [hblank, hlater] at hrest
          exact hrest.imp_left isGone_iff.mpr
        · rw [headerColon_at hplain] at hstart
          cases hstart
  · rw [isQuiet, afterFirst_of_not_mem hmem]
    exact iff_of_true rfl (.inl (headerColon_of_not_mem (colon_not_mem_redactRunsBy hmem)))

/-! ### Blank lines -/

theorem isBlank_of_isSeparator {text : List Char} {c : Char} (hc : c ∈ text)
    (hsep : isSeparator c = true) : isBlank text = false := by
  rw [isBlank, List.all_eq_false]
  exact ⟨c, hc, by simp [not_isWhitespace_of_isSeparator hsep]⟩

theorem isBlank_redactLine :
    isBlank (redactLine test.isSecret (cutHeader (headerCut isOpen line later) line)) =
      isBlank line := by
  rw [redactLine, isBlank_redactRunsBy isRun_nil]
  have hassignment (line : Line) : isBlank (redactAssignment line) = isBlank line := by
    cases h : assigns line with
    | false => rw [redactAssignment_of_not_assigns h]
    | true =>
        obtain ⟨key, sep, before, rest, rfl, hkept, -, -, hsep, -⟩ :=
          redactAssignment_of_assigns h
        rw [hkept, isBlank_of_isSeparator (c := sep) (by simp) hsep,
          isBlank_of_isSeparator (c := sep) (by simp) hsep]
  rw [hassignment]
  cases hcut : headerCut isOpen line later with
  | none => rfl
  | some colon =>
      have hline := colon_of_headerColon (Option.filter_eq_some_iff.mp hcut).1
      have hmem : ':' ∈ line := by
        rw [hline]
        exact List.mem_append_right _ List.mem_cons_self
      have hkept : ':' ∈ line.take colon ++ ':' :: ' ' :: placeholder :=
        List.mem_append_right _ List.mem_cons_self
      rw [isBlank_of_isSeparator hmem (by decide), cutHeader,
        isBlank_of_isSeparator hkept (by decide)]
      rfl

theorem all_isBlank_redactLine (test : EntropyTest) (isOpen : Bool) (lines : List Line) :
    ((headerLines isOpen lines).map (redactLine test.isSecret)).all isBlank =
      lines.all isBlank := by
  induction lines generalizing isOpen with
  | nil => rfl
  | cons line lines ih =>
      rw [headerLines, List.map_cons, List.all_cons, List.all_cons, ih, isBlank_redactLine]

/-! ### A text, line by line -/

/-- The second pass finds no header, and no assignment: line by line, that is what `calm` says. -/
theorem calm_iff {left : Bool} {lines : List Line} :
    (headerLines left ((headerLines isOpen lines).map (redactLine test.isSecret)) =
        (headerLines isOpen lines).map (redactLine test.isSecret) ∧
      ∀ line ∈ (headerLines isOpen lines).map (redactLine test.isSecret), assigns line = false) ↔
      calm test isOpen left lines = true := by
  induction lines generalizing isOpen left with
  | nil => simp [headerLines, calm]
  | cons line lines ih =>
      have hblank := all_isBlank_redactLine test (leavesOpen isOpen line) lines
      have hcut : Cut isOpen (redactAssignment (cutHeader (headerCut isOpen line lines) line))
          lines := cut_cutHeader.redactAssignment
      have hheader : Cut left
          (redactLine test.isSecret (cutHeader (headerCut isOpen line lines) line))
          ((headerLines (leavesOpen isOpen line) lines).map (redactLine test.isSecret)) ↔
          (!left || isOpen || isQuiet test
            (redactAssignment (cutHeader (headerCut isOpen line lines) line)) lines) = true := by
        have hdone := hcut.redactRunsBy test hblank
        cases left with
        | false =>
            cases isOpen with
            | false => exact iff_of_true hdone rfl
            | true => exact iff_of_true hdone.closed rfl
        | true =>
            cases isOpen with
            | false => exact (isQuiet_iff hblank).symm
            | true => exact iff_of_true hdone rfl
      have hopen : leavesOpen left
          (redactLine test.isSecret (cutHeader (headerCut isOpen line lines) line)) =
          staysOpen test left []
            (redactAssignment (cutHeader (headerCut isOpen line lines) line)) :=
        leavesOpen_redactRunsBy isRun_nil
      rw [headerLines, List.map_cons, headerLines, List.cons.injEq, cutHeader_eq_iff, hheader,
        hopen, List.forall_mem_cons, assigns_redactLine, calm, Bool.and_eq_true,
        Bool.and_eq_true, ← ih]
      tauto

/-- A header that is cut in a line that comes out as it was had the placeholder for its value. -/
theorem cutHeader_of_fixed (hfixed : redactRunsBy test.isSecret [] line = line)
    (h : redactLine test.isSecret (cutHeader (headerCut isOpen line later) line) = line) :
    cutHeader (headerCut isOpen line later) line = line := by
  cases hcut : headerCut isOpen line later with
  | none => rfl
  | some colon =>
      rw [hcut, cutHeader] at h
      rw [cutHeader]
      have hline := colon_of_headerColon (Option.filter_eq_some_iff.mp hcut).1
      cases hassigns : assigns (line.take colon ++ ':' :: ' ' :: placeholder) with
      | false =>
          have hbefore : redactRunsBy test.isSecret [] (line.take colon) = line.take colon := by
            rw [hline] at hfixed
            exact (redactRunsBy_parts not_isCredentialChar_colon hfixed).1
          rw [redactLine, redactAssignment_of_not_assigns hassigns,
            redactRunsBy_append not_isCredentialChar_colon, redactRunsBy_gone, hbefore] at h
          exact h
      | true =>
          rcases redactLine_of_assigns test hassigns with
            hnone | ⟨left, sep, hleft, hplain, -⟩
          · have hmem : ':' ∈ line := by
              rw [hline]
              exact List.mem_append_right _ List.mem_cons_self
            rw [h] at hnone
            exact absurd (hnone ':' hmem) (by decide)
          · rcases separator_cases (line.take colon) with
              hnone | ⟨before, first, rest, hbefore, hkey, hfirst⟩
            · rw [assigns_at hnone (by decide), assignsSecret_of_cut (.inl rfl)] at hassigns
              cases hassigns
            · rw [h] at hleft
              have hsplit : left ++ sep :: placeholder =
                  before ++ first :: (rest ++ ':' :: line.drop (colon + 1)) := by
                rw [← hleft]
                conv_lhs => rw [hline, hbefore]
                simp
              have hfresh : first ∉ left := fun hmem => by
                rw [hplain first hmem] at hfirst
                cases hfirst
              rcases split_first hfresh hsplit with ⟨-, -, htail⟩ | ⟨middle, -, htail⟩
              · exact absurd (not_isSeparator_placeholder ':' (htail ▸ by simp)) (by decide)
              · rw [not_isSeparator_placeholder first (htail ▸ by simp)] at hfirst
                cases hfirst

theorem lines_of_fixed {lines : List Line}
    (hfixed : ∀ line ∈ lines, redactRunsBy test.isSecret [] line = line)
    (h : (headerLines isOpen lines).map (redactLine test.isSecret) = lines) :
    headerLines isOpen lines = lines ∧ ∀ line ∈ lines, assigns line = false := by
  induction lines generalizing isOpen with
  | nil => exact ⟨rfl, fun _ h => absurd h List.not_mem_nil⟩
  | cons line lines ih =>
      obtain ⟨hline, hlines⟩ := List.forall_mem_cons.mp hfixed
      rw [headerLines, List.map_cons] at h
      obtain ⟨hhead, htail⟩ := List.cons.inj h
      have hcut := cutHeader_of_fixed hline hhead
      obtain ⟨hheaders, hassigns⟩ := ih hlines htail
      rw [hcut] at hhead
      refine ⟨by rw [headerLines, hcut, hheaders], List.forall_mem_cons.mpr ⟨?_, hassigns⟩⟩
      by_contra hsecret
      rw [Bool.not_eq_false] at hsecret
      have hgone := assigns_redactLine_of_assigns test hsecret
      rw [hhead, hsecret] at hgone
      cases hgone

end Headers

/-! ### Texts and documents -/

/-- A text is redacted for good if its lines are calm, and only then. -/
theorem redactCharsBy_twice_iff {text : List Char} :
    redactCharsBy test.isSecret (redactCharsBy test.isSecret text) =
        redactCharsBy test.isSecret text ↔
      calm test false false (linesOf text) = true := by
  have hfixed : ∀ line ∈ (headerLines false (linesOf text)).map (redactLine test.isSecret),
      redactRunsBy test.isSecret [] line = line := by
    intro line hline
    obtain ⟨cut, -, rfl⟩ := List.mem_map.mp hline
    exact redactRunsBy_twice isRun_nil
  have hlines : redactCharsBy test.isSecret (redactCharsBy test.isSecret text) =
      redactCharsBy test.isSecret text ↔
        (headerLines false ((headerLines false (linesOf text)).map
          (redactLine test.isSecret))).map (redactLine test.isSecret) =
            (headerLines false (linesOf text)).map (redactLine test.isSecret) := by
    constructor
    · intro h
      have hsplit := congrArg linesOf h
      rwa [linesOf_redactCharsBy, linesOf_redactCharsBy] at hsplit
    · intro h
      rw [redactCharsBy_eq_lines, linesOf_redactCharsBy, h, redactCharsBy_eq_lines]
  rw [hlines, ← calm_iff]
  constructor
  · exact lines_of_fixed hfixed
  · rintro ⟨hheaders, hassigns⟩
    rw [hheaders]
    conv_rhs => rw [← List.map_id ((headerLines false (linesOf text)).map _)]
    refine List.map_congr_left fun line hline => ?_
    rw [redactLine, redactAssignment_of_not_assigns (hassigns line hline), hfixed line hline]
    rfl

variable (test)

def redactTextBy (text : String) : String :=
  .ofList (redactCharsBy test.isSecret text.toList)

/-- The redaction of a document, with any test for a secret. -/
def redactValueBy (value : Value) : Value :=
  Value.mask isSecretField covered (redactTextBy test) value

theorem redactValue_eq_by {log2 : ℚ → ℚ} (v : Value) :
    redactValue log2 v = redactValueBy (entropyTest log2) v := by
  have htext : redactText log2 = redactTextBy (entropyTest log2) := by
    funext text
    rw [redactText, redactChars_eq_by]
    rfl
  rw [redactValue_eq_mask, htext]
  rfl

/-- A document is redacted for good if each text of it that no secret-named field holds has calm
lines, and only then. -/
theorem redactValue_twice_iff (v : Value) :
    redactValueBy test (redactValueBy test v) = redactValueBy test v ↔
      ∀ text, ShownText isSecretField text v →
        calm test false false (linesOf text.toList) = true := by
  have htext (text : String) : redactTextBy test (redactTextBy test text) =
      redactTextBy test text ↔ calm test false false (linesOf text.toList) = true := by
    rw [← redactCharsBy_twice_iff, redactTextBy, redactTextBy, String.toList_ofList]
    constructor
    · intro h
      simpa using congrArg String.toList h
    · intro h
      rw [h]
  rw [redactValueBy, redactValueBy, Value.mask_mask_iff]
  simp only [htext]

/-- A run that gives way, with the separator that was the first of its line. -/
def hidingRun : String := "abcdefghijklmnopqrstuvwxyzABCDE=,token: x"

/-- A header whose colon goes with an assignment, and a line with another colon below. -/
def strayHeader : String := "authorization=foo: bar\nunit: nginx"

/-- Twice is not once. -/
theorem redactValue_not_twice :
    (redactValue (fun q => Int.log 2 q) (redactValue (fun q => Int.log 2 q) (.string hidingRun)) ≠
        redactValue (fun q => Int.log 2 q) (.string hidingRun)) ∧
      redactValue (fun q => Int.log 2 q)
          (redactValue (fun q => Int.log 2 q) (.string strayHeader)) ≠
        redactValue (fun q => Int.log 2 q) (.string strayHeader) := by
  have hcalm (text : String) (h : redactValue (fun q => Int.log 2 q)
      (redactValue (fun q => Int.log 2 q) (.string text)) =
        redactValue (fun q => Int.log 2 q) (.string text)) :
      calm (entropyTest fun q => Int.log 2 q) false false (linesOf text.toList) = true := by
    have htext : redactChars (fun q => Int.log 2 q)
        (redactChars (fun q => Int.log 2 q) text.toList) =
          redactChars (fun q => Int.log 2 q) text.toList := by
      simp only [redactValue, redactText, String.toList_ofList, Value.string.injEq] at h
      simpa using congrArg String.toList h
    rw [redactChars_eq_by, redactChars_eq_by] at htext
    exact redactCharsBy_twice_iff.mp htext
  exact ⟨fun h => absurd (hcalm hidingRun h) (by decide +kernel),
    fun h => absurd (hcalm strayHeader h) (by decide)⟩

end Argus.Redact
