import Argus.Cloud.Redact

/-!
# Authorization headers, line by line

The header pass goes over a text as a whole, and the colon it looks for may be in a later line than
the word. Still, what it does to a line depends on little of the others: whether a header of an
earlier line has no colon yet, and whether all that follows is blank.
-/

namespace Argus.Redact

abbrev Line := List Char

def isBlank (text : List Char) : Bool := text.all isWhitespace

def linesOf (text : List Char) : List Line := text.splitOn '\n'

def joinLines (lines : List Line) : List Char := ['\n'].intercalate lines

/-- Where the header pass looks for a colon from: the start of the line if a header of an earlier
line is open, or else the word. -/
def headerStart (isOpen : Bool) (line : Line) : Option Nat :=
  if isOpen then some 0 else find? "authorization".toList (line.map Char.toLower)

/-- That colon. -/
def headerColon (isOpen : Bool) (line : Line) : Option Nat :=
  (headerStart isOpen line).bind fun start =>
    ((line.drop start).findIdx? (· == ':')).map (start + ·)

/-- The colon a line is cut at. One with nothing but blanks behind it, in this line and in the
later ones, ends the pass. -/
def headerCut (isOpen : Bool) (line : Line) (later : List Line) : Option Nat :=
  (headerColon isOpen line).filter fun colon =>
    !(isBlank (line.drop (colon + 1)) && later.all isBlank)

/-- A header without a colon is open in the next line. -/
def leavesOpen (isOpen : Bool) (line : Line) : Bool :=
  (headerStart isOpen line).isSome && (headerColon isOpen line).isNone

def cutHeader (cut : Option Nat) (line : Line) : Line :=
  match cut with
  | none => line
  | some colon => line.take colon ++ ':' :: ' ' :: placeholder

/-- The header pass, on lines. -/
def headerLines : Bool → List Line → List Line
  | _, [] => []
  | isOpen, line :: lines =>
      cutHeader (headerCut isOpen line lines) line :: headerLines (leavesOpen isOpen line) lines

/-- Whether a header is open behind some lines. -/
def openAfter (isOpen : Bool) (lines : List Line) : Bool := lines.foldl leavesOpen isOpen

/-! ### Lines -/

/-- The lines behind the first, each with the break before it. -/
def followed (lines : List Line) : List Char := lines.flatMap ('\n' :: ·)

@[simp] theorem followed_nil : followed [] = [] := rfl

theorem joinLines_cons {line : Line} {lines : List Line} :
    joinLines (line :: lines) = line ++ followed lines := by
  induction lines generalizing line with
  | nil => simp [joinLines]
  | cons next lines ih =>
      rw [joinLines, List.intercalate_cons_cons, ← joinLines, ih]
      simp [followed]

theorem followed_cons {line : Line} {lines : List Line} :
    followed (line :: lines) = '\n' :: joinLines (line :: lines) := by
  rw [joinLines_cons]
  rfl

theorem joinLines_cons_cons {line next : Line} {lines : List Line} :
    joinLines (line :: next :: lines) = line ++ '\n' :: joinLines (next :: lines) := by
  rw [joinLines_cons, followed_cons]

theorem joinLines_linesOf (text : List Char) : joinLines (linesOf text) = text :=
  List.intercalate_splitOn '\n'

theorem linesOf_joinLines {lines : List Line} (hlines : ∀ line ∈ lines, '\n' ∉ line)
    (hne : lines ≠ []) : linesOf (joinLines lines) = lines :=
  List.splitOn_intercalate '\n' hlines hne

/-! ### The first of a character, and of a word -/

theorem afterFirst_append {c : Char} {before after : List Char} (h : c ∉ before) :
    afterFirst c (before ++ c :: after) = some after := by
  have hbefore : ∀ x ∈ before, (x != c) = true := fun x hx => by
    simpa using ne_of_mem_of_not_mem hx h
  simp [afterFirst, List.dropWhile_append_of_pos hbefore]

theorem afterFirst_skip {c : Char} {before after : List Char} (h : c ∉ before) :
    afterFirst c (before ++ after) = afterFirst c after := by
  have hbefore : ∀ x ∈ before, (x != c) = true := fun x hx => by
    simpa using ne_of_mem_of_not_mem hx h
  rw [afterFirst, afterFirst, List.dropWhile_append_of_pos hbefore]

theorem afterFirst_of_not_mem {c : Char} {text : List Char} (h : c ∉ text) :
    afterFirst c text = none := by
  have hskip : afterFirst c (text ++ []) = afterFirst c [] := afterFirst_skip h
  rw [List.append_nil] at hskip
  exact hskip

/-- What is found stays where it is when text follows. -/
theorem find?_append {fragment before after : List Char} {at_ : Nat}
    (h : find? fragment before = some at_) : find? fragment (before ++ after) = some at_ := by
  induction before generalizing at_ with
  | nil =>
      rw [find?] at h
      split_ifs at h with hempty
      cases h
      rw [List.isEmpty_iff] at hempty
      subst hempty
      cases after <;> rfl
  | cons c before ih =>
      rw [find?] at h
      rw [List.cons_append, find?]
      split_ifs at h with hhere
      · cases h
        rw [List.isPrefixOf_iff_prefix] at hhere
        have hprefix : fragment <+: c :: (before ++ after) :=
          hhere.trans (List.prefix_append (c :: before) after)
        rw [if_pos (List.isPrefixOf_iff_prefix.mpr hprefix)]
      · obtain ⟨later, hlater, rfl⟩ := Option.map_eq_some_iff.mp h
        have hfits : fragment.length ≤ (c :: before).length := by
          have hinfix : fragment <:+: before := find?_isSome.mp (by rw [hlater]; rfl)
          exact hinfix.length_le.trans (Nat.le_succ _)
        rw [if_neg, ih hlater, Option.map_some]
        rw [List.isPrefixOf_iff_prefix]
        intro hprefix
        rw [← List.cons_append] at hprefix
        exact hhere (List.isPrefixOf_iff_prefix.mpr
          (List.prefix_of_prefix_length_le hprefix (List.prefix_append _ _) hfits))

/-- A word that is not before a break, and has no break, is behind it if anywhere. -/
theorem find?_skip {fragment before after : List Char} {c : Char}
    (h : find? fragment before = none) (hc : c ∉ fragment) :
    find? fragment (before ++ c :: after) =
      (find? fragment after).map (· + (before.length + 1)) := by
  induction before with
  | nil =>
      rw [find?] at h
      split_ifs at h with hempty
      rw [List.nil_append, find?, if_neg]
      · rfl
      · rw [List.isPrefixOf_iff_prefix]
        cases fragment with
        | nil => simp at hempty
        | cons first fragment =>
            intro hprefix
            have hfirst : first = c := (List.cons_prefix_cons.mp hprefix).1
            exact hc (hfirst ▸ List.mem_cons_self)
  | cons x before ih =>
      rw [find?] at h
      split_ifs at h with hhere
      rw [Option.map_eq_none_iff] at h
      rw [List.cons_append, find?, if_neg, ih h, Option.map_map]
      · rfl
      · rw [List.isPrefixOf_iff_prefix] at hhere ⊢
        intro hprefix
        rw [← List.cons_append] at hprefix
        rcases List.prefix_or_prefix_of_prefix hprefix
          (List.prefix_append (x :: before) (c :: after)) with hshort | ⟨rest, hlong⟩
        · exact hhere hshort
        · subst hlong
          rw [List.prefix_append_right_inj] at hprefix
          cases rest with
          | nil => exact hhere (by simp)
          | cons first rest =>
              have hfirst : first = c := (List.cons_prefix_cons.mp hprefix).1
              exact hc (by simp [hfirst])

theorem not_mem_of_mem_linesOf {text line : List Char} (h : line ∈ linesOf text) :
    '\n' ∉ line := by
  induction text generalizing line with
  | nil =>
      rw [linesOf, List.splitOn_nil, List.mem_singleton] at h
      simp [h]
  | cons c text ih =>
      rw [linesOf, List.splitOn_cons_eq_if_modifyHead] at h
      split_ifs at h with hbreak
      · rcases List.mem_cons.mp h with rfl | h
        · exact List.not_mem_nil
        · exact ih h
      · have hc : '\n' ≠ c := fun heq => hbreak (by simp [heq.symm])
        rcases hlines : linesOf text with _ | ⟨first, lines⟩
        · exact absurd hlines (List.splitOn_ne_nil _ _)
        · rw [linesOf] at hlines
          rw [hlines, List.modifyHead_cons] at h
          rcases List.mem_cons.mp h with rfl | h
          · have hfirst : '\n' ∉ first := ih (by rw [linesOf, hlines]; exact List.mem_cons_self)
            simp [hc, hfirst]
          · exact ih (by rw [linesOf, hlines]; exact List.mem_cons_of_mem _ h)

/-! ### The header pass -/

/-- What the pass does from the word on, or from the start of a line in which a header is open. -/
def redactOpen (text : List Char) : List Char :=
  match afterFirst ':' text with
  | none => text
  | some value =>
      if isBlank value then text
      else text.takeWhile (· != ':') ++ ':' :: ' ' :: placeholder ++
        match afterFirst '\n' value with
        | none => []
        | some rest => '\n' :: redactAuthorizationHeaders rest

theorem redactAuthorizationHeaders_eq (text : List Char) :
    redactAuthorizationHeaders text =
      match find? "authorization".toList (text.map Char.toLower) with
      | none => text
      | some at_ => text.take at_ ++ redactOpen (text.drop at_) := by
  rw [redactAuthorizationHeaders]
  cases hfound : find? "authorization".toList (text.map Char.toLower) with
  | none => rfl
  | some at_ =>
      simp only
      unfold redactOpen
      split
      · rename_i hvalue
        rw [hvalue]
        exact (List.take_append_drop at_ text).symm
      · rename_i value hvalue
        rw [hvalue]
        simp only
        by_cases hblank : isBlank value = true
        · refine (if_pos hblank).trans ?_
          rw [if_pos hblank]
          exact (List.take_append_drop at_ text).symm
        · refine (if_neg hblank).trans ?_
          rw [if_neg hblank]
          split
          · rename_i hline
            rw [hline]
            simp
          · rename_i rest hline
            rw [hline]
            simp

theorem redactOpen_skip {before after : List Char} (h : ':' ∉ before) :
    redactOpen (before ++ after) = before ++ redactOpen after := by
  have hbefore : ∀ c ∈ before, (c != ':') = true := fun c hc => by
    simpa using ne_of_mem_of_not_mem hc h
  unfold redactOpen
  rw [afterFirst_skip h, List.takeWhile_append_of_pos hbefore]
  cases hvalue : afterFirst ':' after with
  | none => rfl
  | some value =>
      simp only
      split_ifs <;> simp

theorem redactAuthorizationHeaders_skip {line text : List Char} (h : Headless line) :
    redactAuthorizationHeaders (line ++ '\n' :: text) =
      line ++ '\n' :: redactAuthorizationHeaders text := by
  have hnone : find? "authorization".toList (line.map Char.toLower) = none := by
    rw [← Option.not_isSome_iff_eq_none, find?_isSome]
    exact h
  have hbreak : Char.toLower '\n' = '\n' := by decide
  rw [redactAuthorizationHeaders_eq, redactAuthorizationHeaders_eq text, List.map_append,
    List.map_cons, hbreak, find?_skip hnone (by decide), List.length_map]
  cases find? "authorization".toList (text.map Char.toLower) with
  | none => rfl
  | some at_ =>
      have htake : at_ + (line.length + 1) = line.length + (at_ + 1) := by omega
      simp only [Option.map_some, htake, List.take_length_add_append, List.drop_length_add_append,
        List.take_succ_cons, List.drop_succ_cons, List.append_assoc, List.cons_append]

theorem toLower_of_isWhitespace {c : Char} (h : isWhitespace c = true) : c.toLower = c := by
  unfold Char.toLower
  rw [dif_neg]
  rintro ⟨hfrom, hto⟩
  have hlow : 0x41 ≤ c.toNat := hfrom
  have hhigh : c.toNat ≤ 0x5a := hto
  simp [isWhitespace] at h
  omega

theorem headless_of_isBlank {line : Line} (h : isBlank line = true) : Headless line := by
  intro hfound
  have hmem : 'a' ∈ line.map Char.toLower := hfound.subset (by decide)
  obtain ⟨c, hc, hlower⟩ := List.mem_map.mp hmem
  have hspace : isWhitespace c = true := List.all_eq_true.mp h c hc
  rw [toLower_of_isWhitespace hspace] at hlower
  rw [hlower] at hspace
  exact absurd hspace (by decide)

theorem isBlank_append {before after : List Char} :
    isBlank (before ++ after) = (isBlank before && isBlank after) := List.all_append

theorem isBlank_followed {lines : List Line} : isBlank (followed lines) = lines.all isBlank := by
  induction lines with
  | nil => rfl
  | cons line lines ih =>
      have hbreak : isWhitespace '\n' = true := by decide
      rw [followed_cons, joinLines_cons, List.all_cons, ← ih, ← isBlank_append, isBlank,
        List.all_cons, hbreak, Bool.true_and]
      rfl

theorem headerStart_of_headless {line : Line} (h : Headless line) :
    headerStart false line = none := by
  rw [headerStart, if_neg Bool.false_ne_true, ← Option.not_isSome_iff_eq_none, find?_isSome]
  exact h

theorem headerLines_of_isBlank {lines : List Line} (h : lines.all isBlank = true) :
    headerLines false lines = lines := by
  induction lines with
  | nil => rfl
  | cons line lines ih =>
      rw [List.all_cons, Bool.and_eq_true] at h
      have hstart := headerStart_of_headless (headless_of_isBlank h.1)
      have hcut : headerCut false line lines = none := by
        rw [headerCut, headerColon, hstart]
        rfl
      have hopen : leavesOpen false line = false := by
        rw [leavesOpen, hstart]
        rfl
      rw [headerLines, hcut, hopen, ih h.2]
      rfl

theorem headerColon_open {line : Line} : headerColon true line = line.findIdx? (· == ':') := by
  simp [headerColon, headerStart]

theorem headerColon_at {before value : List Char} (h : ':' ∉ before) :
    headerColon true (before ++ ':' :: value) = some before.length := by
  have hnone : before.findIdx? (· == ':') = none := by
    rw [List.findIdx?_eq_none_iff]
    intro c hc
    simpa using ne_of_mem_of_not_mem hc h
  rw [headerColon_open, List.findIdx?_append, hnone]
  simp [List.findIdx?_cons]

theorem headerColon_of_not_mem {isOpen : Bool} {line : Line} (h : ':' ∉ line) :
    headerColon isOpen line = none := by
  rw [headerColon, Option.bind_eq_none_iff]
  intro start _
  rw [Option.map_eq_none_iff, List.findIdx?_eq_none_iff]
  intro c hc
  simpa using ne_of_mem_of_not_mem (List.mem_of_mem_drop hc) h

/-- What is found is a colon. -/
theorem colon_of_headerColon {isOpen : Bool} {line : Line} {colon : Nat}
    (h : headerColon isOpen line = some colon) :
    line = line.take colon ++ ':' :: line.drop (colon + 1) := by
  obtain ⟨start, _, hfound⟩ := Option.bind_eq_some_iff.mp h
  obtain ⟨offset, hoffset, rfl⟩ := Option.map_eq_some_iff.mp hfound
  obtain ⟨hlt, hcolon, _⟩ := List.findIdx?_eq_some_iff_getElem.mp hoffset
  rw [List.length_drop] at hlt
  have hbound : start + offset < line.length := by omega
  have hhere : line.get ⟨start + offset, hbound⟩ = ':' := by simpa using hcolon
  rw [← hhere, List.get_eq_getElem, List.cons_getElem_drop_succ, List.take_append_drop]

/-- A header that starts within a line is one that is open in the rest of it. -/
theorem headerColon_drop {line : Line} {start : Nat} (h : headerStart false line = some start) :
    headerColon false line = (headerColon true (line.drop start)).map (start + ·) := by
  rw [headerColon, h, headerColon_open]
  rfl

theorem headerCut_drop {line : Line} {later : List Line} {start : Nat}
    (h : headerStart false line = some start) :
    headerCut false line later = (headerCut true (line.drop start) later).map (start + ·) := by
  rw [headerCut, headerCut, headerColon_drop h]
  cases headerColon true (line.drop start) with
  | none => rfl
  | some colon =>
      rw [Option.map_some, Option.filter_some, Option.filter_some, List.drop_drop, Nat.add_assoc]
      split_ifs <;> rfl

theorem leavesOpen_drop {line : Line} {start : Nat} (h : headerStart false line = some start) :
    leavesOpen false line = leavesOpen true (line.drop start) := by
  rw [leavesOpen, leavesOpen, headerColon_drop h, h, Option.isNone_map]
  rfl

theorem cutHeader_map {line : Line} {cut : Option Nat} {start : Nat} :
    cutHeader (cut.map (start + ·)) line = line.take start ++ cutHeader cut (line.drop start) := by
  cases cut with
  | none => exact (List.take_append_drop start line).symm
  | some colon =>
      simp only [Option.map_some, cutHeader]
      rw [List.take_add, List.append_assoc]

theorem find?_le {fragment text : List Char} {at_ : Nat} (h : find? fragment text = some at_) :
    at_ ≤ text.length := by
  induction text generalizing at_ with
  | nil =>
      rw [find?] at h
      split_ifs at h
      cases h
      exact Nat.le_refl _
  | cons c text ih =>
      rw [find?] at h
      split_ifs at h
      · cases h
        exact Nat.zero_le _
      · obtain ⟨later, hlater, rfl⟩ := Option.map_eq_some_iff.mp h
        exact Nat.succ_le_succ (ih hlater)

/-- A text cut at a colon, and what comes of the lines behind it. -/
theorem redactOpen_at {before value : List Char} {lines : List Line} (hcolon : ':' ∉ before)
    (hvalue : '\n' ∉ value) :
    redactOpen (before ++ ':' :: value ++ followed lines) =
      if isBlank value && lines.all isBlank then before ++ ':' :: value ++ followed lines
      else before ++ ':' :: ' ' :: placeholder ++
        match lines with
        | [] => []
        | line :: lines => '\n' :: redactAuthorizationHeaders (joinLines (line :: lines)) := by
  rw [List.append_assoc, List.cons_append, redactOpen, afterFirst_append hcolon]
  simp only [isBlank_append, isBlank_followed]
  congr 1
  have hbefore : ∀ c ∈ before, (c != ':') = true := fun c hc => by
    simpa using ne_of_mem_of_not_mem hc hcolon
  have hstop : (':' :: (value ++ followed lines)).takeWhile (· != ':') = [] := rfl
  rw [List.takeWhile_append_of_pos hbefore, hstop, List.append_nil]
  cases lines with
  | nil => rw [followed_nil, List.append_nil, afterFirst_of_not_mem hvalue]
  | cons line lines => rw [followed_cons, afterFirst_append hvalue]

/-- What the header pass makes of the later lines, whether a header is open or not. -/
structure LaterLines (lines : List Line) : Prop where
  opened : redactOpen (joinLines lines) = joinLines (headerLines true lines)
  closed : redactAuthorizationHeaders (joinLines lines) = joinLines (headerLines false lines)

theorem followed_headerLines {isOpen : Bool} {line : Line} {lines : List Line} :
    followed (headerLines isOpen (line :: lines)) =
      '\n' :: joinLines (headerLines isOpen (line :: lines)) := by
  rw [headerLines, followed_cons]

theorem redactOpen_joinLines {line : Line} {lines : List Line} (hline : '\n' ∉ line)
    (hlater : lines ≠ [] → LaterLines lines) :
    redactOpen (joinLines (line :: lines)) = joinLines (headerLines true (line :: lines)) := by
  rw [headerLines, joinLines_cons, joinLines_cons]
  by_cases hmem : ':' ∈ line
  · obtain ⟨before, value, rfl, hcolon⟩ := List.eq_append_cons_of_mem hmem
    have hvalue : '\n' ∉ value := fun h => hline (by simp [h])
    have hat : headerColon true (before ++ ':' :: value) = some before.length :=
      headerColon_at hcolon
    have hopen : leavesOpen true (before ++ ':' :: value) = false := by
      rw [leavesOpen, hat, Option.isNone_some, Bool.and_false]
    have hdrop : (before ++ ':' :: value).drop (before.length + 1) = value := by
      rw [List.drop_length_add_append, List.drop_succ_cons, List.drop_zero]
    rw [redactOpen_at hcolon hvalue, hopen, headerCut, hat, Option.filter_some, hdrop]
    by_cases hblank : (isBlank value && lines.all isBlank) = true
    · have hlines : headerLines false lines = lines :=
        headerLines_of_isBlank (Bool.and_eq_true_iff.mp hblank).2
      simp only [hblank, if_true, Bool.not_true, Bool.false_eq_true, if_false, cutHeader, hlines]
    · rw [Bool.not_eq_true] at hblank
      simp only [hblank, Bool.false_eq_true, if_false, Bool.not_false, if_true, cutHeader,
        List.take_left']
      congr 1
      cases lines with
      | nil => rfl
      | cons next lines =>
          rw [followed_headerLines, ← (hlater (List.cons_ne_nil _ _)).closed]
  · have hopen : leavesOpen true line = true := by
      rw [leavesOpen, headerColon_of_not_mem hmem]
      rfl
    rw [hopen, headerCut, headerColon_of_not_mem hmem, redactOpen_skip hmem]
    refine congrArg (line ++ ·) ?_
    cases lines with
    | nil => rfl
    | cons next lines =>
        have hbreak : ':' ∉ ['\n'] := by decide
        rw [followed_headerLines, followed_cons, ← List.singleton_append, redactOpen_skip hbreak,
          (hlater (List.cons_ne_nil _ _)).opened, List.singleton_append]

theorem headerLines_drop {line : Line} {lines : List Line} {start : Nat}
    (h : headerStart false line = some start) :
    joinLines (headerLines false (line :: lines)) =
      line.take start ++ joinLines (headerLines true (line.drop start :: lines)) := by
  rw [headerLines, headerLines, headerCut_drop h, leavesOpen_drop h, cutHeader_map,
    joinLines_cons, joinLines_cons, List.append_assoc]

theorem redactAuthorizationHeaders_lines {line : Line} {lines : List Line} (hline : '\n' ∉ line)
    (hlater : lines ≠ [] → LaterLines lines) :
    redactAuthorizationHeaders (joinLines (line :: lines)) =
      joinLines (headerLines false (line :: lines)) := by
  cases hstart : headerStart false line with
  | none =>
      have hheadless : Headless line := by
        rw [headerStart, if_neg Bool.false_ne_true, ← Option.not_isSome_iff_eq_none,
          find?_isSome] at hstart
        exact hstart
      have hopen : leavesOpen false line = false := by
        rw [leavesOpen, hstart]
        rfl
      rw [headerLines, headerCut, headerColon, hstart, hopen]
      cases lines with
      | nil =>
          rw [joinLines_cons, followed_nil, List.append_nil,
            redactAuthorizationHeaders_of_headless hheadless, headerLines, joinLines_cons,
            followed_nil, List.append_nil]
          rfl
      | cons next lines =>
          rw [joinLines_cons_cons, redactAuthorizationHeaders_skip hheadless,
            (hlater (List.cons_ne_nil _ _)).closed, joinLines_cons, followed_headerLines]
          rfl
  | some start =>
      have hfound : find? "authorization".toList (line.map Char.toLower) = some start := hstart
      have hle : start ≤ line.length := by
        have hbound := find?_le hfound
        rwa [List.length_map] at hbound
      have hrest : '\n' ∉ line.drop start := fun h => hline (List.mem_of_mem_drop h)
      rw [headerLines_drop hstart, ← redactOpen_joinLines hrest hlater,
        redactAuthorizationHeaders_eq, joinLines_cons, List.map_append, find?_append hfound]
      simp only
      rw [List.take_append_of_le_length hle, List.drop_append_of_le_length hle, joinLines_cons]

/-- The header pass takes a text as `headerLines` takes its lines. -/
theorem headers_joinLines {lines : List Line} (hlines : ∀ line ∈ lines, '\n' ∉ line)
    (hne : lines ≠ []) : LaterLines lines := by
  induction lines with
  | nil => exact absurd rfl hne
  | cons line lines ih =>
      obtain ⟨hline, hlines⟩ := List.forall_mem_cons.mp hlines
      have hlater : lines ≠ [] → LaterLines lines := ih hlines
      exact ⟨redactOpen_joinLines hline hlater, redactAuthorizationHeaders_lines hline hlater⟩

theorem redactAuthorizationHeaders_eq_lines (text : List Char) :
    redactAuthorizationHeaders text = joinLines (headerLines false (linesOf text)) := by
  have hlater : LaterLines (linesOf text) :=
    headers_joinLines (fun _ => not_mem_of_mem_linesOf) (List.splitOn_ne_nil _ _)
  rw [← hlater.closed, joinLines_linesOf]

theorem newline_not_mem_placeholder : '\n' ∉ placeholder := by decide

theorem newline_not_mem_headerLines {isOpen : Bool} {lines : List Line}
    (h : ∀ line ∈ lines, '\n' ∉ line) : ∀ line ∈ headerLines isOpen lines, '\n' ∉ line := by
  induction lines generalizing isOpen with
  | nil => simp [headerLines]
  | cons line lines ih =>
      obtain ⟨hline, hlines⟩ := List.forall_mem_cons.mp h
      rw [headerLines, List.forall_mem_cons]
      refine ⟨?_, ih hlines⟩
      cases headerCut isOpen line lines with
      | none => exact hline
      | some colon =>
          have hkept : '\n' ∉ line.take colon := fun hmem => hline (List.mem_of_mem_take hmem)
          simp [cutHeader, hkept, newline_not_mem_placeholder]

theorem headerLines_ne_nil {isOpen : Bool} {lines : List Line} (h : lines ≠ []) :
    headerLines isOpen lines ≠ [] := by
  cases lines with
  | nil => exact absurd rfl h
  | cons line lines => simp [headerLines]

end Argus.Redact
