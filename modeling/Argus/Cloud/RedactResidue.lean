import Argus.Cloud.RedactHeaders
import Argus.Cloud.RedactRuns

/-!
# What the passes find in what they leave

An assignment that gave way is none any more, and a header that is cut is left as it is. Both still
hold of a line after the passes behind them: the assignment pass takes away no separator but those
of the value, and the runs pass no colon.
-/

namespace Argus.Redact

variable {test : EntropyTest}

/-! ### Assignments -/

/-- An assignment that gave way is none any more. -/
theorem assigns_placeholder {before : List Char} {sep : Char}
    (hbefore : ∀ c ∈ before, isSeparator c = false) (hsep : isSeparator sep = true) :
    assigns (before ++ sep :: placeholder) = false := by
  have hfresh : placeholder.isPrefixOf (placeholder.dropWhile isWhitespace) = true := by
    decide
  rw [assigns_at hbefore hsep, assignsSecret, hfresh, Bool.not_true, Bool.and_false]

/-- What an assignment leaves: no separator but its own, and the placeholder behind it. -/
theorem redactAssignment_of_assigns {line : Line} (h : assigns line = true) :
    ∃ key sep before rest, line = before ++ sep :: rest ∧
      redactAssignment line = key ++ sep :: placeholder ∧ key <+: before ∧
        (∀ c ∈ before, isSeparator c = false) ∧ isSeparator sep = true ∧
          assignsSecret before rest = true := by
  rcases separator_cases line with hnone | ⟨before, sep, rest, rfl, hbefore, hsep⟩
  · rw [assigns_of_not_mem hnone] at h
    cases h
  · rw [assigns_at hbefore hsep] at h
    refine ⟨before.takeWhile isWhitespace ++ trimChars before, sep, before, rest, rfl, ?_, ?_,
      hbefore, hsep, h⟩
    · rw [redactAssignment_at hbefore hsep, if_pos h]
    · conv_rhs => rw [← List.takeWhile_append_dropWhile (p := isWhitespace) (l := before)]
      rw [List.prefix_append_right_inj, trimChars_eq]
      exact List.rdropWhile_prefix _ _

theorem redactAssignment_of_not_assigns {line : Line} (h : assigns line = false) :
    redactAssignment line = line := by
  rcases separator_cases line with hnone | ⟨before, sep, rest, rfl, hbefore, hsep⟩
  · exact redactAssignment_of_not_mem hnone
  · rw [assigns_at hbefore hsep] at h
    rw [redactAssignment_at hbefore hsep, h]
    rfl

/-- The separator an assignment keeps is the last character of what the runs pass leaves before the
placeholder, or goes with its run. -/
theorem redactRunsBy_separator (test : EntropyTest) {run before : List Char} (sep : Char)
    (hrun : ∀ c ∈ run, isSeparator c = false) (hbefore : ∀ c ∈ before, isSeparator c = false) :
    (∀ c ∈ redactRunsBy test.isSecret run (before ++ [sep]), isSeparator c = false) ∨
      ∃ left, redactRunsBy test.isSecret run (before ++ [sep]) = left ++ [sep] ∧
        ∀ c ∈ left, isSeparator c = false := by
  have hflush {run : List Char} (hrun : ∀ c ∈ run, isSeparator c = false) :
      ∀ c ∈ flushRunBy test.isSecret run, isSeparator c = false := fun c hc =>
    (mem_flushRunBy hc).elim (hrun c) (not_isSeparator_placeholder c)
  induction before generalizing run with
  | nil =>
      rw [List.nil_append, redactRunsBy]
      split_ifs
      · rw [redactRunsBy, flushRunBy]
        split_ifs
        · exact .inl not_isSeparator_placeholder
        · exact .inr ⟨run, rfl, hrun⟩
      · rw [redactRunsBy_nil]
        exact .inr ⟨_, rfl, hflush hrun⟩
  | cons x before ih =>
      obtain ⟨hx, hbefore⟩ := List.forall_mem_cons.mp hbefore
      rw [List.cons_append, redactRunsBy]
      split_ifs
      · refine ih ?_ hbefore
        intro c hc
        rcases List.mem_append.mp hc with hc | hc
        · exact hrun c hc
        · rw [List.mem_singleton.mp hc]
          exact hx
      · rcases ih (fun _ h => absurd h List.not_mem_nil) hbefore with hnone | ⟨left, hleft, hplain⟩
        · left
          intro c hc
          rcases List.mem_append.mp hc with hc | hc
          · exact hflush hrun c hc
          · rcases List.mem_cons.mp hc with rfl | hc
            · exact hx
            · exact hnone c hc
        · right
          refine ⟨flushRunBy test.isSecret run ++ x :: left, by rw [hleft]; simp, ?_⟩
          intro c hc
          rcases List.mem_append.mp hc with hc | hc
          · exact hflush hrun c hc
          · rcases List.mem_cons.mp hc with rfl | hc
            · exact hx
            · exact hplain c hc

/-- A line that assigned a secret has one separator at most once it is redacted, and the
placeholder right behind it. -/
theorem redactLine_of_assigns (test : EntropyTest) {line : Line} (h : assigns line = true) :
    (∀ c ∈ redactLine test.isSecret line, isSeparator c = false) ∨
      ∃ left sep, redactLine test.isSecret line = left ++ sep :: placeholder ∧
        (∀ c ∈ left, isSeparator c = false) ∧ isSeparator sep = true := by
  obtain ⟨key, sep, before, rest, -, hline, hkey, hbefore, hsep, -⟩ :=
    redactAssignment_of_assigns h
  have hplain : ∀ c ∈ key, isSeparator c = false := fun c hc => hbefore c (hkey.subset hc)
  have hsplit : key ++ sep :: placeholder = key ++ [sep] ++ placeholder := by simp
  rw [redactLine, hline, hsplit, redactRunsBy_placeholder]
  rcases redactRunsBy_separator test sep (fun _ h => absurd h List.not_mem_nil) hplain with
    hnone | ⟨left, hleft, hplain⟩
  · left
    intro c hc
    rcases List.mem_append.mp hc with hc | hc
    · exact hnone c hc
    · exact not_isSeparator_placeholder c hc
  · right
    exact ⟨left, sep, by rw [hleft]; simp, hplain, hsep⟩

theorem assigns_redactLine_of_assigns (test : EntropyTest) {line : Line}
    (h : assigns line = true) :
    assigns (redactLine test.isSecret line) = false := by
  rcases redactLine_of_assigns test h with hnone | ⟨left, sep, hline, hleft, hsep⟩
  · exact assigns_of_not_mem hnone
  · rw [hline]
    exact assigns_placeholder hleft hsep

/-- Whether a redacted line assigns a secret. -/
theorem assigns_redactLine (line : Line) :
    assigns (redactLine test.isSecret line) = false ↔
      (assigns line || !assigns (redactRunsBy test.isSecret [] line)) = true := by
  cases h : assigns line with
  | true => simp [assigns_redactLine_of_assigns test h]
  | false => simp [redactLine, redactAssignment_of_not_assigns h]

/-! ### Headers -/

section Headers

variable {isOpen : Bool} {line : Line} {later : List Line}

theorem find?_prefix {fragment text : List Char} {at_ : Nat} (h : find? fragment text = some at_) :
    fragment <+: text.drop at_ := by
  induction text generalizing at_ with
  | nil =>
      rw [find?] at h
      split_ifs at h with hempty
      cases h
      rw [List.isEmpty_iff.mp hempty]
      exact List.nil_prefix
  | cons c text ih =>
      rw [find?] at h
      split_ifs at h with hhere
      · cases h
        exact List.isPrefixOf_iff_prefix.mp hhere
      · obtain ⟨later, hlater, rfl⟩ := Option.map_eq_some_iff.mp h
        exact ih hlater

/-- The word of the header is before the colon that is found, unless it is in an earlier line. -/
theorem word_before_colon {colon : Nat} (h : headerColon isOpen line = some colon) :
    isOpen = true ∨ ¬ Headless (line.take colon) := by
  cases isOpen with
  | true => exact .inl rfl
  | false =>
      right
      obtain ⟨start, hstart, hfound⟩ := Option.bind_eq_some_iff.mp h
      obtain ⟨offset, hoffset, rfl⟩ := Option.map_eq_some_iff.mp hfound
      rw [headerStart, if_neg Bool.false_ne_true] at hstart
      have hword := find?_prefix hstart
      rw [← List.map_drop] at hword
      obtain ⟨word, hstarts, hlower⟩ : ∃ word, word <+: line.drop start ∧
          word.map Char.toLower = "authorization".toList := by
        refine ⟨(line.drop start).take "authorization".toList.length, List.take_prefix _ _, ?_⟩
        rw [List.map_take]
        exact (List.prefix_iff_eq_take.mp hword).symm
      obtain ⟨hlt, hcolon, -⟩ := List.findIdx?_eq_some_iff_getElem.mp hoffset
      have hpast : word.length ≤ offset := by
        by_contra hin
        have hmem : (line.drop start)[offset] ∈ word := by
          rw [← hstarts.getElem (by omega)]
          exact List.getElem_mem _
        rw [show (line.drop start)[offset] = ':' by simpa using hcolon] at hmem
        have hlowered : Char.toLower ':' ∈ word.map Char.toLower := List.mem_map_of_mem hmem
        rw [hlower] at hlowered
        exact absurd hlowered (by decide)
      rw [Headless, not_not, List.take_add, List.map_append]
      refine List.IsInfix.trans ?_ (List.suffix_append _ _).isInfix
      rw [← hlower]
      have hkept : word <+: (line.drop start).take offset :=
        List.prefix_take_iff.mpr ⟨hstarts, hpast⟩
      exact (hkept.map Char.toLower).isInfix

/-- No colon is found if the word is behind all of them, and no header is open. -/
theorem headerColon_eq_none_iff :
    headerColon isOpen line = none ↔
      ∀ before value, line = before ++ ':' :: value → isOpen = false ∧ Headless before := by
  constructor
  · intro h before value hline
    by_contra hword
    rw [not_and_or, Bool.not_eq_false] at hword
    obtain ⟨colon, -, hcolon⟩ := headerColon_le value hword
    rw [← hline, h] at hcolon
    cases hcolon
  · intro h
    cases hcolon : headerColon isOpen line with
    | none => rfl
    | some colon =>
        obtain ⟨hclosed, hheadless⟩ := h _ _ (colon_of_headerColon hcolon)
        rcases word_before_colon hcolon with hopen | hword
        · rw [hopen] at hclosed
          cases hclosed
        · exact absurd hheadless hword

theorem headerColon_take {colon : Nat} (h : headerColon isOpen line = some colon) :
    headerColon isOpen (line.take colon) = none := by
  rw [headerColon_eq_none_iff]
  intro before value hbefore
  by_contra hword
  rw [not_and_or, Bool.not_eq_false] at hword
  have hline : line = before ++ ':' :: (value ++ line.drop colon) := by
    conv_lhs => rw [← List.take_append_drop colon line, hbefore]
    simp
  obtain ⟨earlier, hle, hearlier⟩ := headerColon_le (value ++ line.drop colon) hword
  rw [← hline, h, Option.some.injEq] at hearlier
  have hlength := congrArg List.length hbefore
  rw [List.length_take, List.length_append, List.length_cons] at hlength
  omega

theorem headerColon_closed (h : headerColon true line = none) : headerColon isOpen line = none := by
  rw [headerColon_eq_none_iff] at h ⊢
  intro before value hline
  cases (h before value hline).1

/-- The pass leaves a line as it is: it finds no colon in it, or only what it puts behind one, or
nothing at all behind it. -/
def Cut (isOpen : Bool) (line : Line) (later : List Line) : Prop :=
  headerColon isOpen line = none ∨
    ∃ before value, line = before ++ ':' :: value ∧ headerColon isOpen before = none ∧
      (value = ' ' :: placeholder ∨ isBlank value = true ∧ later.all isBlank = true)

theorem colon_not_mem_of_isBlank {text : List Char} (h : isBlank text = true) : ':' ∉ text :=
  fun hmem => absurd (List.all_eq_true.mp h _ hmem) (by decide)

/-- A character that is not before a place is at it or behind it. -/
theorem split_first {before after a b : List Char} {x c : Char} (hc : c ∉ before)
    (h : before ++ x :: after = a ++ c :: b) :
    (before = a ∧ x = c ∧ after = b) ∨ ∃ middle, a = before ++ x :: middle ∧
      after = middle ++ c :: b := by
  rcases List.append_eq_append_iff.mp h with ⟨middle, ha, hrest⟩ | ⟨middle, hbefore, hrest⟩
  · cases middle with
    | nil =>
        obtain ⟨hx, hafter⟩ := List.cons.inj hrest
        exact .inl ⟨by rw [ha, List.append_nil], hx, hafter⟩
    | cons y middle =>
        obtain ⟨rfl, hafter⟩ := List.cons.inj hrest
        exact .inr ⟨middle, ha, hafter⟩
  · cases middle with
    | nil =>
        obtain ⟨hx, hafter⟩ := List.cons.inj hrest
        exact .inl ⟨by rw [hbefore, List.append_nil], hx.symm, hafter.symm⟩
    | cons y middle =>
        obtain ⟨rfl, -⟩ := List.cons.inj hrest
        exact absurd (hbefore ▸ List.mem_append_right _ List.mem_cons_self) hc

/-- The only colon there is to find. -/
theorem headerColon_last {before value : List Char} (hbefore : headerColon isOpen before = none)
    (hvalue : ':' ∉ value) {colon : Nat}
    (h : headerColon isOpen (before ++ ':' :: value) = some colon) : colon = before.length := by
  have hline := colon_of_headerColon h
  have hlength := congrArg List.length hline
  by_contra hne
  rcases List.append_eq_append_iff.mp hline with ⟨middle, hkept, hrest⟩ | ⟨middle, hkept, hrest⟩
  · cases middle with
    | nil =>
        have hsame := congrArg List.length hkept
        simp only [List.length_append, List.length_cons, List.length_take, List.length_drop,
          List.length_nil] at hsame hlength
        omega
    | cons c middle =>
        obtain ⟨-, hmem⟩ := List.cons.inj hrest
        exact hvalue (hmem ▸ List.mem_append_right _ List.mem_cons_self)
  · cases middle with
    | nil =>
        have hsame := congrArg List.length hkept
        simp only [List.length_append, List.length_cons, List.length_take, List.length_drop,
          List.length_nil] at hsame hlength
        omega
    | cons c middle =>
        obtain ⟨rfl, -⟩ := List.cons.inj hrest
        obtain ⟨hclosed, hheadless⟩ := headerColon_eq_none_iff.mp hbefore _ _ hkept
        rcases word_before_colon h with hopen | hword
        · rw [hopen] at hclosed
          cases hclosed
        · exact hword hheadless

theorem cutHeader_eq_iff :
    cutHeader (headerCut isOpen line later) line = line ↔ Cut isOpen line later := by
  constructor
  · intro h
    cases hcolon : headerColon isOpen line with
    | none => exact .inl hcolon
    | some colon =>
        refine .inr ⟨_, _, colon_of_headerColon hcolon, headerColon_take hcolon, ?_⟩
        rw [headerCut, hcolon, Option.filter_some] at h
        by_cases hblank : (isBlank (line.drop (colon + 1)) && later.all isBlank) = true
        · exact .inr (Bool.and_eq_true_iff.mp hblank)
        · left
          rw [Bool.not_eq_true] at hblank
          rw [hblank] at h
          have hline : line.take colon ++ ':' :: ' ' :: placeholder =
              line.take colon ++ ':' :: line.drop (colon + 1) :=
            h.trans (colon_of_headerColon hcolon)
          exact (List.cons.inj (List.append_cancel_left hline)).2.symm
  · rintro (hnone | ⟨before, value, rfl, hbefore, hvalue⟩)
    · rw [headerCut, hnone]
      rfl
    · cases hcolon : headerColon isOpen (before ++ ':' :: value) with
      | none =>
          rw [headerCut, hcolon]
          rfl
      | some colon =>
          have hplain : ':' ∉ value := by
            rcases hvalue with rfl | ⟨hblank, -⟩
            · decide
            · exact colon_not_mem_of_isBlank hblank
          obtain rfl := headerColon_last hbefore hplain hcolon
          have hdrop : (before ++ ':' :: value).drop (before.length + 1) = value := by
            rw [List.drop_length_add_append, List.drop_succ_cons, List.drop_zero]
          rw [headerCut, hcolon, Option.filter_some, hdrop]
          rcases hvalue with rfl | ⟨hblank, hlater⟩
          · split_ifs
            · rw [cutHeader, List.take_left']
              rfl
            · rfl
          · rw [hblank, hlater]
            rfl

theorem cut_cutHeader : Cut isOpen (cutHeader (headerCut isOpen line later) line) later := by
  cases hcolon : headerColon isOpen line with
  | none =>
      left
      rw [headerCut, hcolon]
      exact hcolon
  | some colon =>
      right
      rw [headerCut, hcolon, Option.filter_some]
      by_cases hblank : (isBlank (line.drop (colon + 1)) && later.all isBlank) = true
      · rw [hblank]
        exact ⟨_, _, colon_of_headerColon hcolon, headerColon_take hcolon,
          .inr (Bool.and_eq_true_iff.mp hblank)⟩
      · rw [Bool.not_eq_true] at hblank
        rw [hblank]
        exact ⟨_, _, rfl, headerColon_take hcolon, .inl rfl⟩

theorem Cut.closed (h : Cut true line later) : Cut isOpen line later := by
  rcases h with hnone | ⟨before, value, hline, hbefore, hvalue⟩
  · exact .inl (headerColon_closed hnone)
  · exact .inr ⟨before, value, hline, headerColon_closed hbefore, hvalue⟩

theorem assignsSecret_of_cut {before value : List Char}
    (h : value = ' ' :: placeholder ∨ isBlank value = true) :
    assignsSecret before value = false := by
  rcases h with rfl | hblank
  · have hfresh : placeholder.isPrefixOf ((' ' :: placeholder).dropWhile isWhitespace) = true := by
      decide
    rw [assignsSecret, hfresh, Bool.not_true, Bool.and_false]
  · rw [assignsSecret, hblank, Bool.not_true, Bool.and_false, Bool.false_and]

/-- An assignment keeps no more headers than there were. -/
theorem Cut.redactAssignment (h : Cut isOpen line later) :
    Cut isOpen (redactAssignment line) later := by
  cases hassigns : assigns line with
  | false =>
      rw [redactAssignment_of_not_assigns hassigns]
      exact h
  | true =>
      left
      obtain ⟨key, sep, before, rest, hline, hkept, hkey, hbefore, hsep, hsecret⟩ :=
        redactAssignment_of_assigns hassigns
      have hplaceholder : ':' ∉ placeholder := by decide
      have hplain : ':' ∉ before := fun hmem => absurd (hbefore _ hmem) (by decide)
      -- The separator of the assignment is before the colon of the header.
      have hearlier : sep = ':' → isOpen = false ∧ Headless before := by
        rintro rfl
        rcases h with hnone | ⟨start, tail, hcut, hstart, htail⟩
        · exact headerColon_eq_none_iff.mp hnone _ _ hline
        · rcases split_first hplain (hline.symm.trans hcut) with
            ⟨rfl, -, rfl⟩ | ⟨middle, hmiddle, -⟩
          · rw [assignsSecret_of_cut (htail.imp_right And.left)] at hsecret
            cases hsecret
          · exact headerColon_eq_none_iff.mp hstart _ _ hmiddle
      rw [hkept, headerColon_eq_none_iff]
      intro start value hcolon
      rcases split_first (fun hmem => hplain (hkey.subset hmem)) hcolon with
        ⟨rfl, hsep, -⟩ | ⟨middle, -, hmiddle⟩
      · obtain ⟨hclosed, hheadless⟩ := hearlier hsep
        exact ⟨hclosed, fun hword => hheadless (hword.trans (hkey.map Char.toLower).isInfix)⟩
      · exact absurd (hmiddle ▸ List.mem_append_right _ List.mem_cons_self) hplaceholder

end Headers

end Argus.Redact
