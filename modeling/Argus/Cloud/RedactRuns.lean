import Argus.Cloud.RedactPasses

/-!
# What the runs pass keeps

All that is known of the test for a secret is that a short run is none. Then the pass comes to rest
after one time, and nothing but runs is lost by it: a character that no run has stays where it is
between what comes of the text before it and of the text behind it.
-/

namespace Argus.Redact

/-- A test for a run that passes for a secret, which no short run does. -/
structure EntropyTest where
  isSecret : List Char → Bool
  long : ∀ run, isSecret run = true → entropyRunMin ≤ run.length

/-- That of the code. -/
def entropyTest (log2 : ℚ → ℚ) : EntropyTest where
  isSecret := isHighEntropy log2
  long := fun _ h => (of_decide_eq_true h).1

/-- All of a credential. -/
def IsRun (run : List Char) : Prop := ∀ c ∈ run, isCredentialChar c = true

theorem isRun_nil : IsRun [] := fun _ h => absurd h List.not_mem_nil

theorem IsRun.snoc {run : List Char} {c : Char} (h : IsRun run) (hc : isCredentialChar c = true) :
    IsRun (run ++ [c]) := by
  intro x hx
  rcases List.mem_append.mp hx with hx | hx
  · exact h x hx
  · rw [List.mem_singleton.mp hx]
    exact hc

theorem IsRun.not_mem {run : List Char} {c : Char} (h : IsRun run)
    (hc : isCredentialChar c = false) : c ∉ run := fun hmem => by
  rw [h c hmem] at hc
  cases hc

variable {test : EntropyTest} {run text before after : List Char} {c : Char}

theorem isSecret_of_short (h : run.length < entropyRunMin) : test.isSecret run = false := by
  by_contra hsecret
  have hlong := test.long run (by simpa using hsecret)
  omega

theorem flushRunBy_of_short (h : run.length < entropyRunMin) :
    flushRunBy test.isSecret run = run := by
  rw [flushRunBy, isSecret_of_short h]
  rfl

theorem flushRunBy_nil : flushRunBy test.isSecret [] = [] := flushRunBy_of_short (by decide)

theorem mem_flushRunBy (h : c ∈ flushRunBy test.isSecret run) : c ∈ run ∨ c ∈ placeholder := by
  rw [flushRunBy] at h
  split_ifs at h
  · exact .inr h
  · exact .inl h

theorem redactRunsBy_run (h : IsRun text) :
    redactRunsBy test.isSecret run text = flushRunBy test.isSecret (run ++ text) := by
  induction text generalizing run with
  | nil => rw [redactRunsBy, List.append_nil]
  | cons c text ih =>
      obtain ⟨hc, htext⟩ := List.forall_mem_cons.mp h
      rw [redactRunsBy, if_pos hc, ih htext, List.append_assoc, List.singleton_append]

theorem redactRunsBy_nil : redactRunsBy test.isSecret [] [] = [] := flushRunBy_nil

/-- The placeholder has short runs only. -/
theorem redactRunsBy_placeholder :
    redactRunsBy test.isSecret run (before ++ placeholder) =
      redactRunsBy test.isSecret run before ++ placeholder := by
  have hsplit : placeholder = '[' :: ("redacted".toList ++ ']' :: []) := by decide
  have hopen : isCredentialChar '[' = false := by decide
  have hclose : isCredentialChar ']' = false := by decide
  have hword : IsRun "redacted".toList := List.all_eq_true.mp (by decide)
  rw [hsplit, redactRunsBy_append hopen, redactRunsBy_append hclose, redactRunsBy_run hword,
    redactRunsBy_nil, List.nil_append, flushRunBy_of_short (by decide)]

theorem mem_redactRunsBy (h : c ∈ redactRunsBy test.isSecret run text) :
    c ∈ run ∨ c ∈ text ∨ c ∈ placeholder := by
  induction text generalizing run with
  | nil =>
      rcases mem_flushRunBy h with h | h
      · exact .inl h
      · exact .inr (.inr h)
  | cons x text ih =>
      rw [redactRunsBy] at h
      split_ifs at h
      · rcases ih h with h | h | h
        · rcases List.mem_append.mp h with h | h
          · exact .inl h
          · exact .inr (.inl (by rw [List.mem_singleton.mp h]; exact List.mem_cons_self))
        · exact .inr (.inl (List.mem_cons_of_mem _ h))
        · exact .inr (.inr h)
      · rcases List.mem_append.mp h with h | h
        · rcases mem_flushRunBy h with h | h
          · exact .inl h
          · exact .inr (.inr h)
        · rcases List.mem_cons.mp h with rfl | h
          · exact .inr (.inl List.mem_cons_self)
          · rcases ih h with h | h | h
            · exact absurd h List.not_mem_nil
            · exact .inr (.inl (List.mem_cons_of_mem _ h))
            · exact .inr (.inr h)

/-- A character that is of no run, and not of the placeholder, was between the same texts before. -/
theorem redactRunsBy_split (hrun : IsRun run) (hc : isCredentialChar c = false)
    (hplain : c ∉ placeholder)
    (h : redactRunsBy test.isSecret run text = before ++ c :: after) :
    ∃ a b, text = a ++ c :: b ∧ redactRunsBy test.isSecret run a = before ∧
      redactRunsBy test.isSecret [] b = after := by
  have hflush {run : List Char} (hrun : IsRun run) : c ∉ flushRunBy test.isSecret run := fun hmem =>
    (mem_flushRunBy hmem).elim (hrun.not_mem hc) hplain
  induction text generalizing run before with
  | nil =>
      have hmem : c ∈ flushRunBy test.isSecret run := by
        rw [redactRunsBy] at h
        rw [h]
        exact List.mem_append_right _ List.mem_cons_self
      exact absurd hmem (hflush hrun)
  | cons x text ih =>
      rw [redactRunsBy] at h
      split_ifs at h with hx
      · obtain ⟨a, b, rfl, ha, hb⟩ := ih (hrun.snoc hx) h
        exact ⟨x :: a, b, rfl, by rw [redactRunsBy, if_pos hx, ha], hb⟩
      · rcases List.append_eq_append_iff.mp h with ⟨middle, hbefore, hrest⟩ | ⟨middle, hrun', _⟩
        · cases middle with
          | nil =>
              obtain ⟨rfl, hafter⟩ := List.cons.inj hrest
              rw [List.append_nil] at hbefore
              exact ⟨[], text, rfl, hbefore.symm, hafter⟩
          | cons y middle =>
              obtain ⟨rfl, htext⟩ := List.cons.inj hrest
              obtain ⟨a, b, rfl, ha, hb⟩ := ih isRun_nil htext
              refine ⟨x :: a, b, rfl, ?_, hb⟩
              rw [redactRunsBy, if_neg hx, ha, hbefore]
        · cases middle with
          | nil =>
              rename_i hrest
              obtain ⟨rfl, hafter⟩ := List.cons.inj hrest.symm
              rw [List.append_nil] at hrun'
              exact ⟨[], text, rfl, hrun', hafter⟩
          | cons y middle =>
              rename_i hrest
              obtain ⟨rfl, -⟩ := List.cons.inj hrest
              exact absurd (hrun' ▸ List.mem_append_right _ List.mem_cons_self) (hflush hrun)

theorem length_redactRunsBy_le (test : EntropyTest) (run text : List Char) :
    (redactRunsBy test.isSecret run text).length ≤ run.length + text.length := by
  have hflush (run : List Char) : (flushRunBy test.isSecret run).length ≤ run.length := by
    rw [flushRunBy]
    split_ifs with hsecret
    · have hten : placeholder.length ≤ entropyRunMin := by decide
      exact hten.trans (test.long run hsecret)
    · exact Nat.le_refl _
  induction text generalizing run with
  | nil => exact hflush run
  | cons x text ih =>
      rw [redactRunsBy]
      split_ifs
      · have hrest := ih (run ++ [x])
        rw [List.length_append, List.length_singleton] at hrest
        rw [List.length_cons]
        omega
      · have hrest := ih []
        have hrun := hflush run
        rw [List.length_nil] at hrest
        rw [List.length_append, List.length_cons, List.length_cons]
        omega

/-- What stays as it is does so in its parts. -/
theorem redactRunsBy_parts (hc : isCredentialChar c = false)
    (h : redactRunsBy test.isSecret [] (before ++ c :: after) = before ++ c :: after) :
    redactRunsBy test.isSecret [] before = before ∧
      redactRunsBy test.isSecret [] after = after := by
  rw [redactRunsBy_append hc] at h
  have hbefore := length_redactRunsBy_le test [] before
  have hafter := length_redactRunsBy_le test [] after
  have htotal := congrArg List.length h
  simp only [List.length_append, List.length_cons, List.length_nil] at htotal hbefore hafter
  obtain ⟨hfirst, hsecond⟩ := List.append_inj h (by omega)
  exact ⟨hfirst, (List.cons.inj hsecond).2⟩

/-- A second time, the pass changes nothing. -/
theorem redactRunsBy_twice (hrun : IsRun run) :
    redactRunsBy test.isSecret [] (redactRunsBy test.isSecret run text) =
      redactRunsBy test.isSecret run text := by
  have hflush {run : List Char} (hrun : IsRun run) :
      redactRunsBy test.isSecret [] (flushRunBy test.isSecret run) =
        flushRunBy test.isSecret run := by
    rw [flushRunBy]
    split_ifs with hsecret
    · have hplaceholder : redactRunsBy test.isSecret [] ([] ++ placeholder) =
          redactRunsBy test.isSecret [] [] ++ placeholder := redactRunsBy_placeholder
      rwa [redactRunsBy_nil, List.nil_append] at hplaceholder
    · rw [redactRunsBy_run hrun, List.nil_append, flushRunBy, if_neg hsecret]
  induction text generalizing run with
  | nil => exact hflush hrun
  | cons x text ih =>
      rw [redactRunsBy]
      split_ifs with hx
      · exact ih (hrun.snoc hx)
      · rw [redactRunsBy_append (by simpa using hx), hflush hrun, ih isRun_nil]

theorem not_isWhitespace_of_isCredentialChar (h : isCredentialChar c = true) :
    isWhitespace c = false := by
  by_contra hspace
  rw [not_isCredentialChar_of_isWhitespace (by simpa using hspace)] at h
  cases h

/-- The pass leaves a text blank that was, and no other. -/
theorem isBlank_redactRunsBy (hrun : IsRun run) :
    isBlank (redactRunsBy test.isSecret run text) = (isBlank run && isBlank text) := by
  have hflush {run : List Char} (hrun : IsRun run) :
      isBlank (flushRunBy test.isSecret run) = isBlank run := by
    rw [flushRunBy]
    split_ifs with hsecret
    · have hplaceholder : isBlank placeholder = false := by decide
      have hlong := test.long run hsecret
      cases run with
      | nil => exact absurd hlong (by decide)
      | cons x run =>
          rw [hplaceholder, isBlank, List.all_cons,
            not_isWhitespace_of_isCredentialChar (hrun x List.mem_cons_self), Bool.false_and]
    · rfl
  induction text generalizing run with
  | nil => rw [redactRunsBy, hflush hrun, isBlank, isBlank, List.all_nil, Bool.and_true]
  | cons x text ih =>
      rw [redactRunsBy]
      split_ifs with hx
      · rw [ih (hrun.snoc hx), isBlank_append]
        simp [isBlank, Bool.and_assoc]
      · rw [isBlank_append, hflush hrun]
        have hrest := ih isRun_nil
        simp only [isBlank, List.all_cons, List.all_nil, Bool.true_and] at hrest ⊢
        rw [hrest]

/-- Nothing gives way, or a run does that is not the whole text unless the placeholder is. -/
theorem redactRunsBy_cases (test : EntropyTest) (text : List Char) (hrun : IsRun run) :
    redactRunsBy test.isSecret run text = run ++ text ∨
      ∃ u secret v u' v', test.isSecret secret = true ∧ IsRun secret ∧
        run ++ text = u ++ secret ++ v ∧
        redactRunsBy test.isSecret run text = u' ++ placeholder ++ v' ∧
        (u' = [] → u = []) ∧ (v' = [] → v = []) := by
  induction text generalizing run with
  | nil =>
      rw [redactRunsBy, flushRunBy]
      split_ifs with hsecret
      · exact .inr ⟨[], run, [], [], [], hsecret, hrun, rfl, by simp, fun _ => rfl, fun _ => rfl⟩
      · exact .inl (List.append_nil run).symm
  | cons x text ih =>
      rw [redactRunsBy]
      split_ifs with hx
      · have hsplit : run ++ x :: text = run ++ [x] ++ text := by simp
        rw [hsplit]
        exact ih (hrun.snoc hx)
      · by_cases hsecret : test.isSecret run = true
        · right
          refine ⟨[], run, x :: text, [], x :: redactRunsBy test.isSecret [] text, hsecret, hrun,
            rfl, ?_, fun _ => rfl, fun h => absurd h (List.cons_ne_nil _ _)⟩
          rw [flushRunBy, if_pos hsecret, List.nil_append]
        · rw [flushRunBy, if_neg hsecret]
          rcases ih isRun_nil with
            hkept | ⟨u, secret, v, u', v', hsecret', hall, htext, hout, hu, hv⟩
          · left
            rw [hkept, List.nil_append]
          · right
            rw [List.nil_append] at htext
            refine ⟨run ++ x :: u, secret, v, run ++ x :: u', v', hsecret', hall, ?_, ?_, ?_, hv⟩
            · rw [htext]
              simp
            · rw [hout]
              simp
            · intro h
              simp at h

end Argus.Redact
