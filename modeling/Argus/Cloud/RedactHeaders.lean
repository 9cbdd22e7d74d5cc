import Argus.Cloud.RedactLines

/-!
# What the header pass leaves of a text

The pass keeps the number of lines. A line is as it was, or ends in the placeholder behind one of
its colons; and no header with a value keeps any of it.
-/

namespace Argus.Redact

/-- The line ends in the placeholder, from one of its colons on. -/
def CutAtColon (line out : Line) : Prop :=
  ∃ kept rest, line = kept ++ ':' :: rest ∧ out = kept ++ ':' :: ' ' :: placeholder

variable {isOpen : Bool} {line : Line} {lines : List Line}

theorem headerLines_length : (headerLines isOpen lines).length = lines.length := by
  induction lines generalizing isOpen with
  | nil => rfl
  | cons line lines ih => rw [headerLines, List.length_cons, ih, List.length_cons]

/-- Each line is cut by itself, once it is known whether a header is open before it. -/
theorem headerLines_getElem? {i : Nat} :
    (headerLines isOpen lines)[i]? = lines[i]?.map fun line =>
      cutHeader (headerCut (openAfter isOpen (lines.take i)) line (lines.drop (i + 1))) line := by
  induction lines generalizing isOpen i with
  | nil => rfl
  | cons line lines ih =>
      cases i with
      | zero => rfl
      | succ i =>
          rw [headerLines, List.getElem?_cons_succ, ih, List.getElem?_cons_succ]
          rfl

theorem cutAtColon_of_headerColon {colon : Nat} (h : headerColon isOpen line = some colon) :
    CutAtColon line (line.take colon ++ ':' :: ' ' :: placeholder) :=
  ⟨_, _, colon_of_headerColon h, rfl⟩

/-- The colon behind the word is found, or one before it. -/
theorem headerColon_le {before : List Char} (rest : List Char)
    (h : isOpen = true ∨ ¬ Headless before) :
    ∃ colon ≤ before.length, headerColon isOpen (before ++ ':' :: rest) = some colon := by
  have hfirst (skip : Nat) (hskip : skip ≤ before.length) :
      ∃ offset, skip + offset ≤ before.length ∧
        ((before ++ ':' :: rest).drop skip).findIdx? (· == ':') = some offset := by
    rw [List.drop_append_of_le_length hskip, List.findIdx?_append]
    cases hcolon : (before.drop skip).findIdx? (· == ':') with
    | none =>
        refine ⟨(before.drop skip).length, ?_, by simp [List.findIdx?_cons]⟩
        rw [List.length_drop]
        omega
    | some offset =>
        obtain ⟨hlt, -⟩ := List.findIdx?_eq_some_iff_getElem.mp hcolon
        rw [List.length_drop] at hlt
        exact ⟨offset, by omega, rfl⟩
  have hstart : ∃ start ≤ before.length,
      headerStart isOpen (before ++ ':' :: rest) = some start := by
    cases isOpen with
    | true => exact ⟨0, Nat.zero_le _, rfl⟩
    | false =>
        have hword := h.resolve_left Bool.false_ne_true
        rw [Headless, not_not, ← find?_isSome, Option.isSome_iff_exists] at hword
        obtain ⟨start, hfound⟩ := hword
        have hle := find?_le hfound
        rw [List.length_map] at hle
        refine ⟨start, hle, ?_⟩
        rw [headerStart, if_neg Bool.false_ne_true, List.map_append, find?_append hfound]
  obtain ⟨start, hle, hstart⟩ := hstart
  obtain ⟨offset, hbound, hoffset⟩ := hfirst start hle
  exact ⟨start + offset, hbound, by rw [headerColon, hstart, Option.bind_some, hoffset]; rfl⟩

/-- A header with a value is cut, at its colon or at an earlier one. -/
theorem headerCut_of_value (isOpen : Bool) {before rest : List Char} (later : List Line)
    (h : ¬ Headless before) (hrest : isBlank rest = false) :
    ∃ kept, kept ++ [':'] <+: before ++ [':'] ∧
      cutHeader (headerCut isOpen (before ++ ':' :: rest) later) (before ++ ':' :: rest) =
        kept ++ ':' :: ' ' :: placeholder := by
  obtain ⟨colon, hle, hcolon⟩ :
      ∃ colon ≤ before.length, headerColon isOpen (before ++ ':' :: rest) = some colon :=
    headerColon_le rest (.inr h)
  have hline := colon_of_headerColon hcolon
  have hvalue : isBlank ((before ++ ':' :: rest).drop (colon + 1)) = false := by
    have hsuffix : rest <:+ (before ++ ':' :: rest).drop (colon + 1) := by
      refine ⟨(before ++ [':']).drop (colon + 1), ?_⟩
      rw [← List.drop_append_of_le_length (by simp; omega), List.append_assoc,
        List.singleton_append]
    by_contra hblank
    rw [Bool.not_eq_false, isBlank, List.all_eq_true] at hblank
    rw [isBlank, List.all_eq_false] at hrest
    obtain ⟨c, hc, hspace⟩ := hrest
    exact hspace (hblank c (hsuffix.subset hc))
  refine ⟨(before ++ ':' :: rest).take colon, ?_, ?_⟩
  · have hprefix : (before ++ ':' :: rest).take colon ++ [':'] <+: before ++ ':' :: rest := by
      refine ⟨(before ++ ':' :: rest).drop (colon + 1), ?_⟩
      rw [List.append_assoc, List.singleton_append, ← hline]
    have hshort : before ++ [':'] <+: before ++ ':' :: rest := ⟨rest, by simp⟩
    exact List.prefix_of_prefix_length_le hprefix hshort (by simp; omega)
  · rw [headerCut, hcolon, Option.filter_some, hvalue]
    rfl

theorem cutHeader_cases {later : List Line} :
    cutHeader (headerCut isOpen line later) line = line ∨
      CutAtColon line (cutHeader (headerCut isOpen line later) line) := by
  cases hcut : headerCut isOpen line later with
  | none => exact .inl rfl
  | some colon =>
      have hcolon : headerColon isOpen line = some colon :=
        (Option.filter_eq_some_iff.mp hcut).1
      exact .inr (cutAtColon_of_headerColon hcolon)

/-- Before the word comes up, no line changes. -/
theorem headerLines_take {n : Nat} (h : ∀ line ∈ lines.take n, Headless line) :
    (headerLines false lines).take n = lines.take n := by
  induction lines generalizing n with
  | nil => rfl
  | cons line lines ih =>
      cases n with
      | zero => rfl
      | succ n =>
          rw [List.take_succ_cons, List.forall_mem_cons] at h
          have hstart := headerStart_of_headless h.1
          have hopen : leavesOpen false line = false := by
            rw [leavesOpen, hstart]
            rfl
          rw [headerLines, headerCut, headerColon, hstart, hopen, List.take_succ_cons,
            List.take_succ_cons, ih h.2]
          rfl

/-- The header pass, which comes to an end on every text, keeps the lines. Each is as it was, or
ends in the placeholder behind a colon; one that has the word and then a colon with a value does so
behind that colon or an earlier one. Nothing changes before the word first comes up, nor after the
last line that is cut. -/
theorem headers_redacted (text : List Char) :
    (linesOf (redactAuthorizationHeaders text)).length = (linesOf text).length ∧
      (∀ (i : Nat) (line out : Line), (linesOf text)[i]? = some line →
        (linesOf (redactAuthorizationHeaders text))[i]? = some out →
          out = line ∨ CutAtColon line out) ∧
      (∀ (i : Nat) (before rest : List Char), (linesOf text)[i]? = some (before ++ ':' :: rest) →
        ¬ Headless before → isBlank rest = false →
          ∃ kept, kept ++ [':'] <+: before ++ [':'] ∧
            (linesOf (redactAuthorizationHeaders text))[i]? =
              some (kept ++ ':' :: ' ' :: placeholder)) ∧
      (∀ n : Nat, (∀ line ∈ (linesOf text).take n, Headless line) →
        (linesOf (redactAuthorizationHeaders text)).take n = (linesOf text).take n) ∧
      ∀ n : Nat, (∀ (i : Nat) (line out : Line), n ≤ i → (linesOf text)[i]? = some line →
        (linesOf (redactAuthorizationHeaders text))[i]? = some out → ¬ CutAtColon line out) →
          (linesOf (redactAuthorizationHeaders text)).drop n = (linesOf text).drop n := by
  have hlines : linesOf (redactAuthorizationHeaders text) = headerLines false (linesOf text) := by
    rw [redactAuthorizationHeaders_eq_lines]
    exact linesOf_joinLines (newline_not_mem_headerLines fun _ => not_mem_of_mem_linesOf)
      (headerLines_ne_nil (List.splitOn_ne_nil _ _))
  have hcases (i : Nat) (line out : Line) (hline : (linesOf text)[i]? = some line)
      (hout : (linesOf (redactAuthorizationHeaders text))[i]? = some out) :
      out = line ∨ CutAtColon line out := by
    rw [hlines, headerLines_getElem?, hline] at hout
    cases hout
    exact cutHeader_cases
  refine ⟨by rw [hlines, headerLines_length], hcases, ?_, ?_, ?_⟩
  · intro i before rest hline hword hrest
    obtain ⟨kept, hkept, hcut⟩ := headerCut_of_value (openAfter false ((linesOf text).take i))
      ((linesOf text).drop (i + 1)) hword hrest
    exact ⟨kept, hkept, by rw [hlines, headerLines_getElem?, hline, Option.map_some, hcut]⟩
  · intro n hheadless
    rw [hlines]
    exact headerLines_take hheadless
  · intro n hlast
    apply List.ext_getElem?
    intro i
    rw [List.getElem?_drop, List.getElem?_drop]
    cases hline : (linesOf text)[n + i]? with
    | none => rw [hlines, headerLines_getElem?, hline]; rfl
    | some line =>
        have hsome : ∃ out, (linesOf (redactAuthorizationHeaders text))[n + i]? = some out := by
          rw [hlines, headerLines_getElem?, hline]
          exact ⟨_, rfl⟩
        obtain ⟨out, hout⟩ := hsome
        rcases hcases (n + i) line out hline hout with rfl | hcut
        · exact hout
        · exact absurd hcut (hlast (n + i) line out (Nat.le_add_right n i) hline hout)

end Argus.Redact
