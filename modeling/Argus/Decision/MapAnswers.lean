import Argus.Decision.Validate
import Argus.Lib.Pointwise
import Mathlib.Data.List.Dedup

/-!
# From the model's answers to typed ones

The adapter checks the JSON a model answered against the questions: an answer that is missing, of
another kind, not among the labels, or out of the range of a noul is an error. A probability that
is missing becomes zero, though, and a probability or a score out of its range is moved to the
nearest end of it, before the checks of a response see them.
-/

namespace Argus

open Ieee (Datum)

/-- `f64::max`: the greater value; NaN only if both are. -/
def maxF64 : Datum → Datum → Datum
  | .nan, y => y
  | x, .nan => x
  | x, y => if x.lt y then y else x

/-- An answer as the adapter makes it. Only a score has a legend. -/
structure MappedAnswer where
  engine : EngineAnswer
  legend : List (String × String)

/-- The object under `probabilities`, or an empty one. -/
def givenProbabilities (answer : Value) : List (String × Value) :=
  ((answer.get "probabilities").bind Value.asObject).getD []

/-- The number the model gave for a label. -/
def givenProbability (answer : Value) (label : String) : Option Datum :=
  ((givenProbabilities answer).lookup label).bind Value.asF64

/-- The probability map, restricted to the offered labels; extra labels are rejected. A label
offered twice is one key of the map. -/
def probabilitiesOf (answer : Value) (labels : List String) :
    Except DecisionError (List (String × Datum)) :=
  match (givenProbabilities answer).find? fun entry => !labels.contains entry.1 with
  | some (key, _) => .error (.validation s!"probabilities carry unoffered label '{key}'")
  | none =>
      .ok (labels.dedup.map fun label =>
        (label, ((givenProbability answer label).getD (.finite 0)).clamp 0 1))

/-- The texts of the object under `legend`. -/
def legendOf (answer : Value) : List (String × String) :=
  (((answer.get "legend").bind Value.asObject).getD []).filterMap fun entry =>
    entry.2.asStr.map fun text => (entry.1, text)

variable (showF64 : Datum → String)

/-- The body of the loop over the questions. `showF64` is how the standard library writes a
float. -/
def mapAnswer (id : String) (question : DecisionQuestion) (answer : Value) :
    Except DecisionError MappedAnswer :=
  match question with
  | .choice criteria =>
      match answer.getStr "choice" with
      | none => .error (.validation s!"'{id}' lacks a string choice")
      | some choice =>
          if criteria.contains choice then do
            let probabilities ← probabilitiesOf answer criteria
            let confidence := (probabilities.lookup choice).getD (.finite 0)
            .ok ⟨⟨.choice choice confidence, probabilities⟩, []⟩
          else
            .error (.validation
              s!"'{id}' chose '{choice}', which is not among the offered labels")
  | .score criteria =>
      match (answer.get "score").bind Value.asF64 with
      | none => .error (.validation s!"'{id}' lacks a numeric score")
      | some score => do
          let levels : Nat := max criteria.length 1
          let probabilities ← probabilitiesOf answer criteria
          let confidence := (probabilities.map Prod.snd).foldl maxF64 (.finite 0)
          .ok ⟨⟨.score (score.clamp 0 (levels - 1)) confidence, probabilities⟩, legendOf answer⟩
  | .noul =>
      match (answer.get "noul").bind Value.asF64 with
      | none => .error (.validation s!"'{id}' lacks a numeric noul")
      | some noul =>
          if inRange minNoul maxNoul noul then .ok ⟨⟨.noul noul, []⟩, []⟩
          else .error (.validation s!"'{id}' noul {showF64 noul} outside [0.01, 0.99]")

/-- Validate the model's answers against the questions. -/
def mapAnswers (answers : Value) (questions : List (String × DecisionQuestion)) :
    Except DecisionError (List (String × MappedAnswer)) :=
  match answers.asObject with
  | none => .error (.invalid "answers must be a JSON object")
  | some object =>
      questions.mapM fun entry =>
        match object.lookup entry.1 with
        | none => .error (.validation s!"no answer for question '{entry.1}'")
        | some answer => do
            let mapped ← mapAnswer showF64 entry.1 entry.2 answer
            .ok (entry.1, mapped)

/-- The response the adapter makes of the answers. -/
def mappedResponse (mapped : List (String × MappedAnswer)) : EngineResponse :=
  ⟨mapped.map fun entry => (entry.1, entry.2.engine)⟩

/-! ### What a mapped answer is to state -/

/-- Each probability is the one given for an offered label, and a probability. -/
def StatesProbabilities (answer : Value) (labels : List String)
    (probabilities : List (String × Datum)) : Prop :=
  ∀ entry ∈ probabilities, entry.1 ∈ labels ∧
    givenProbability answer entry.1 = some entry.2 ∧ inRange 0 1 entry.2

/-- The mapped answer states what the model stated, within what was offered. -/
def StatesGiven : DecisionQuestion → Value → MappedAnswer → Prop
  | .choice criteria, answer, ⟨⟨.choice choice confidence, probabilities⟩, _⟩ =>
      choice ∈ criteria ∧ answer.getStr "choice" = some choice ∧
        StatesProbabilities answer criteria probabilities ∧
        ∃ label ∈ criteria, givenProbability answer label = some confidence
  | .score criteria, answer, ⟨⟨.score score confidence, probabilities⟩, _⟩ =>
      (answer.get "score").bind Value.asF64 = some score ∧
        inRange 0 (criteria.length - 1) score ∧
        StatesProbabilities answer criteria probabilities ∧
        ∃ label ∈ criteria, givenProbability answer label = some confidence
  | .noul, answer, ⟨⟨.noul noul, _⟩, _⟩ =>
      (answer.get "noul").bind Value.asF64 = some noul ∧ inRange minNoul maxNoul noul
  | _, _, _ => False

/-- If the answers are taken, each mapped answer is faithful to the given one, and the confidence
at the gate is that of one of them. -/
def TakenAsGiven (answers : Value) (questions : List (String × DecisionQuestion)) : Prop :=
  ∀ mapped, mapAnswers showF64 answers questions = .ok mapped →
    List.Forall₂ (fun question entry => entry.1 = question.1 ∧
      ∃ answer, answers.get question.1 = some answer ∧ StatesGiven question.2 answer entry.2)
      questions mapped ∧
    (questions ≠ [] → ∃ entry ∈ mapped,
      aggregateConfidence (mappedResponse mapped).toResponse = entry.2.engine.answer.confidence)

/-- What the adapter asks of an answer before it takes it. -/
def Accepts : DecisionQuestion → Value → Prop
  | .choice criteria, answer =>
      (∃ choice ∈ criteria, answer.getStr "choice" = some choice) ∧
        ∀ entry ∈ givenProbabilities answer, entry.1 ∈ criteria
  | .score criteria, answer =>
      ((answer.get "score").bind Value.asF64).isSome ∧
        ∀ entry ∈ givenProbabilities answer, entry.1 ∈ criteria
  | .noul, answer =>
      ∃ noul, (answer.get "noul").bind Value.asF64 = some noul ∧ inRange minNoul maxNoul noul

/-- Every label has a number in `[0, 1]`, and a score lies within the levels. -/
def InRanges : DecisionQuestion → Value → Prop
  | .choice criteria, answer =>
      ∀ label ∈ criteria, ∃ p, givenProbability answer label = some p ∧ inRange 0 1 p
  | .score criteria, answer =>
      (∃ score, (answer.get "score").bind Value.asF64 = some score ∧
        inRange 0 (criteria.length - 1) score) ∧
      ∀ label ∈ criteria, ∃ p, givenProbability answer label = some p ∧ inRange 0 1 p
  | .noul, _ => True

/-- Of the answers that would be taken, each is complete and in its ranges. -/
def NothingToRepair (answers : Value) (questions : List (String × DecisionQuestion)) : Prop :=
  (∀ question ∈ questions, ∃ answer, answers.get question.1 = some answer ∧
    Accepts question.2 answer) →
  ∀ question ∈ questions, ∀ answer, answers.get question.1 = some answer →
    InRanges question.2 answer

variable {showF64} {answer : Value} {labels : List String} {low high : ℚ} {x y : Datum}

/-! ### Ranges -/

theorem inRange_iff : inRange low high x = true ↔ ∃ q, x = .finite q ∧ low ≤ q ∧ q ≤ high := by
  cases x <;> simp [inRange, Datum.ge]

theorem clamp_of_inRange (h : inRange low high x = true) : x.clamp low high = x := by
  obtain ⟨q, rfl, hlow, hhigh⟩ := inRange_iff.mp h
  simp [Datum.clamp, not_lt.mpr hlow, not_lt.mpr hhigh]

/-- A fold that keeps the further of two numbers ends with the furthest. -/
theorem foldl_pick {pick : Datum → Datum → Datum} {R : ℚ → ℚ → Prop}
    (hpick : ∀ a b, ∃ c, pick (.finite a) (.finite b) = .finite c ∧ (c = a ∨ c = b) ∧
      R a c ∧ R b c) (hrefl : ∀ a, R a a) (htrans : ∀ a b c, R a b → R b c → R a c)
    {values : List Datum} (hvalues : ∀ x ∈ values, ∃ q, x = .finite q) (a : ℚ) :
    ∃ r, values.foldl pick (.finite a) = .finite r ∧ R a r ∧ (∀ q, .finite q ∈ values → R q r) ∧
      (r = a ∨ .finite r ∈ values) := by
  induction values generalizing a with
  | nil => exact ⟨a, rfl, hrefl a, by simp, .inl rfl⟩
  | cons x values ih =>
      obtain ⟨⟨q, rfl⟩, hrest⟩ := List.forall_mem_cons.mp hvalues
      obtain ⟨c, hc, hor, hac, hqc⟩ := hpick a q
      obtain ⟨r, hr, hcr, hall, hmem⟩ := ih hrest c
      refine ⟨r, by rw [List.foldl_cons, hc, hr], htrans _ _ _ hac hcr, ?_, ?_⟩
      · intro q' hq'
        rcases List.mem_cons.mp hq' with h | h
        · obtain rfl := Datum.finite.inj h
          exact htrans _ _ _ hqc hcr
        · exact hall q' h
      · rcases hmem with rfl | hmem
        · exact hor.imp_right fun h => by simp [h]
        · exact .inr (List.mem_cons_of_mem _ hmem)

theorem finite_of_inRange {values : List Datum} (h : ∀ x ∈ values, inRange low high x = true) :
    ∀ x ∈ values, ∃ q, x = .finite q := fun x hx =>
  let ⟨q, hq, _⟩ := inRange_iff.mp (h x hx)
  ⟨q, hq⟩

/-- The greatest of some numbers, none of them below zero, is one of them. -/
theorem maxF64_foldl_mem (values : List Datum) (hne : values ≠ [])
    (hrange : ∀ x ∈ values, inRange 0 1 x = true) :
    values.foldl maxF64 (.finite 0) ∈ values := by
  have hpick : ∀ a b : ℚ, ∃ c, maxF64 (.finite a) (.finite b) = .finite c ∧ (c = a ∨ c = b) ∧
      a ≤ c ∧ b ≤ c := by
    intro a b
    by_cases h : a < b
    · exact ⟨b, by simp [maxF64, Datum.lt, Datum.ge, h, h.le], .inr rfl, h.le, le_rfl⟩
    · exact ⟨a, by simp [maxF64, Datum.lt, Datum.ge, not_lt.mp h], .inl rfl, le_rfl, not_lt.mp h⟩
  obtain ⟨r, hr, -, hall, hmem⟩ := foldl_pick hpick le_refl (fun _ _ _ => le_trans)
    (finite_of_inRange hrange) 0
  rw [hr]
  refine hmem.elim (fun hzero => ?_) id
  obtain ⟨x, hx⟩ := List.exists_mem_of_ne_nil _ hne
  obtain ⟨q, rfl, hq, -⟩ := inRange_iff.mp (hrange x hx)
  exact le_antisymm (hall q hx) (hzero ▸ hq) ▸ hx

/-- The least of some numbers, none of them above one, is one of them. -/
theorem min_foldl_mem (values : List Datum) (hne : values ≠ [])
    (hrange : ∀ x ∈ values, inRange 0 1 x = true) :
    values.foldl Datum.min (.finite 1) ∈ values := by
  have hpick : ∀ a b : ℚ, ∃ c, Datum.min (.finite a) (.finite b) = .finite c ∧ (c = a ∨ c = b) ∧
      c ≤ a ∧ c ≤ b := by
    intro a b
    by_cases h : a < b
    · exact ⟨a, by simp [Datum.min, Datum.lt, Datum.ge, h, h.le], .inl rfl, le_rfl, h.le⟩
    · exact ⟨b, by simp [Datum.min, Datum.lt, Datum.ge, not_lt.mp h], .inr rfl, not_lt.mp h, le_rfl⟩
  obtain ⟨r, hr, -, hall, hmem⟩ := foldl_pick (R := fun a b => b ≤ a) hpick le_refl
    (fun _ _ _ h h' => le_trans h' h) (finite_of_inRange hrange) 1
  rw [hr]
  refine hmem.elim (fun hone => ?_) id
  obtain ⟨x, hx⟩ := List.exists_mem_of_ne_nil _ hne
  obtain ⟨q, rfl, -, hq⟩ := inRange_iff.mp (hrange x hx)
  exact le_antisymm (hone ▸ hq) (hall q hx) ▸ hx

/-! ### One answer -/

theorem probabilitiesOf_eq_ok {probabilities : List (String × Datum)} :
    probabilitiesOf answer labels = .ok probabilities ↔
      (∀ entry ∈ givenProbabilities answer, entry.1 ∈ labels) ∧
        labels.dedup.map (fun label =>
          (label, ((givenProbability answer label).getD (.finite 0)).clamp 0 1))
          = probabilities := by
  unfold probabilitiesOf
  cases hfind : (givenProbabilities answer).find? fun entry => !labels.contains entry.1 with
  | some entry =>
      have hentry := List.find?_some hfind
      have hmem := List.mem_of_find?_eq_some hfind
      simp only [reduceCtorEq, false_iff, not_and]
      intro hall
      simp [hall entry hmem] at hentry
  | none =>
      have hall : ∀ entry ∈ givenProbabilities answer, entry.1 ∈ labels := by
        simpa using List.find?_eq_none.mp hfind
      rw [Except.ok.injEq]
      exact ⟨fun h => ⟨hall, h⟩, fun h => h.2⟩

theorem lookup_map_pair {l : List String} (f : String → Datum) {label : String} (h : label ∈ l) :
    (l.map fun label => (label, f label)).lookup label = some (f label) := by
  induction l with
  | nil => cases h
  | cons a l ih =>
      rw [List.map_cons, List.lookup_cons]
      by_cases ha : label = a
      · simp [ha]
      · rw [beq_eq_false_iff_ne.mpr ha]
        exact ih ((List.mem_cons.mp h).resolve_left ha)

theorem statesProbabilities_iff :
    StatesProbabilities answer labels (labels.dedup.map fun label =>
        (label, ((givenProbability answer label).getD (.finite 0)).clamp 0 1)) ↔
      ∀ label ∈ labels, ∃ p, givenProbability answer label = some p ∧ inRange 0 1 p := by
  simp only [StatesProbabilities, List.forall_mem_map, List.mem_dedup]
  refine forall₂_congr fun label hlabel => ⟨?_, ?_⟩
  · intro h
    obtain ⟨-, hgiven, hrange⟩ := h
    exact ⟨_, hgiven, hrange⟩
  · intro h
    obtain ⟨p, hgiven, hrange⟩ := h
    rw [hgiven, Option.getD_some, clamp_of_inRange hrange]
    exact ⟨hlabel, rfl, hrange⟩

variable {id : String} {criteria : List String} {mapped : MappedAnswer}

theorem mapAnswer_choice_eq_ok : mapAnswer showF64 id (.choice criteria) answer = .ok mapped ↔
    ∃ choice ∈ criteria, answer.getStr "choice" = some choice ∧
      ∃ probabilities, probabilitiesOf answer criteria = .ok probabilities ∧
        ⟨⟨.choice choice ((probabilities.lookup choice).getD (.finite 0)), probabilities⟩, []⟩
          = mapped := by
  unfold mapAnswer
  cases hchoice : answer.getStr "choice" with
  | none => simp
  | some choice =>
      by_cases hmem : choice ∈ criteria
      · simp only [List.contains_iff_mem, hmem, if_true, Option.some.injEq]
        cases hprobabilities : probabilitiesOf answer criteria with
        | error error => simp [bind, Except.bind]
        | ok probabilities => simp [bind, Except.bind, hmem]
      · simp only [List.contains_iff_mem, hmem, if_false, reduceCtorEq, Option.some.injEq,
          false_iff, not_exists, not_and]
        rintro _ hmem' rfl
        exact absurd hmem' hmem

theorem mapAnswer_score_eq_ok : mapAnswer showF64 id (.score criteria) answer = .ok mapped ↔
    ∃ score, (answer.get "score").bind Value.asF64 = some score ∧
      ∃ probabilities, probabilitiesOf answer criteria = .ok probabilities ∧
        ⟨⟨.score (score.clamp 0 ((max criteria.length 1 : ℕ) - 1))
          ((probabilities.map Prod.snd).foldl maxF64 (.finite 0)), probabilities⟩, legendOf answer⟩
          = mapped := by
  unfold mapAnswer
  cases hscore : (answer.get "score").bind Value.asF64 with
  | none => simp
  | some score =>
      cases hprobabilities : probabilitiesOf answer criteria with
      | error error => simp [bind, Except.bind, hprobabilities]
      | ok probabilities => simp [bind, Except.bind, hprobabilities]

theorem mapAnswer_noul_eq_ok : mapAnswer showF64 id .noul answer = .ok mapped ↔
    ∃ noul, (answer.get "noul").bind Value.asF64 = some noul ∧ inRange minNoul maxNoul noul ∧
      ⟨⟨.noul noul, []⟩, []⟩ = mapped := by
  unfold mapAnswer
  cases hnoul : (answer.get "noul").bind Value.asF64 with
  | none => simp
  | some noul =>
      by_cases hrange : inRange minNoul maxNoul noul = true
      · simp [hrange]
      · simp [hrange]

/-- The adapter takes an answer exactly when it accepts it. -/
theorem mapAnswer_isOk_iff {question : DecisionQuestion} :
    (∃ mapped, mapAnswer showF64 id question answer = .ok mapped) ↔ Accepts question answer := by
  cases question with
  | choice criteria =>
      simp only [mapAnswer_choice_eq_ok, probabilitiesOf_eq_ok, Accepts]
      constructor
      · intro h
        obtain ⟨_, choice, hmem, hchoice, _, ⟨hall, -⟩, -⟩ := h
        exact ⟨⟨choice, hmem, hchoice⟩, hall⟩
      · intro h
        obtain ⟨⟨choice, hmem, hchoice⟩, hall⟩ := h
        exact ⟨_, choice, hmem, hchoice, _, ⟨hall, rfl⟩, rfl⟩
  | score criteria =>
      simp only [mapAnswer_score_eq_ok, probabilitiesOf_eq_ok, Accepts, Option.isSome_iff_exists]
      constructor
      · intro h
        obtain ⟨_, score, hscore, _, ⟨hall, -⟩, -⟩ := h
        exact ⟨⟨score, hscore⟩, hall⟩
      · intro h
        obtain ⟨⟨score, hscore⟩, hall⟩ := h
        exact ⟨_, score, hscore, _, ⟨hall, rfl⟩, rfl⟩
  | noul =>
      simp only [mapAnswer_noul_eq_ok, Accepts]
      constructor
      · intro h
        obtain ⟨_, noul, hnoul, hrange, -⟩ := h
        exact ⟨noul, hnoul, hrange⟩
      · intro h
        obtain ⟨noul, hnoul, hrange⟩ := h
        exact ⟨_, noul, hnoul, hrange, rfl⟩

/-- A score is within the levels only where there are some. -/
theorem levels_of_inRange (h : inRange 0 (criteria.length - 1) x = true) :
    1 ≤ criteria.length := by
  obtain ⟨q, -, hlow, hhigh⟩ := inRange_iff.mp h
  have hle : (0 : ℚ) ≤ criteria.length - 1 := hlow.trans hhigh
  exact_mod_cast sub_nonneg.mp hle

/-- The confidence of a score is the probability given for a level. -/
theorem score_confidence (hne : criteria ≠ [])
    (hgiven : ∀ label ∈ criteria, ∃ p, givenProbability answer label = some p ∧ inRange 0 1 p) :
    ∃ label ∈ criteria, givenProbability answer label = some
      (((criteria.dedup.map fun label => (label,
        ((givenProbability answer label).getD (.finite 0)).clamp 0 1)).map Prod.snd).foldl
          maxF64 (.finite 0)) := by
  have hvalue : ∀ label ∈ criteria, ∃ p, givenProbability answer label = some p ∧
      inRange 0 1 p ∧ ((givenProbability answer label).getD (.finite 0)).clamp 0 1 = p := by
    intro label hlabel
    obtain ⟨p, hp, hrange⟩ := hgiven label hlabel
    exact ⟨p, hp, hrange, by rw [hp, Option.getD_some, clamp_of_inRange hrange]⟩
  rw [List.map_map]
  have hmem := maxF64_foldl_mem (criteria.dedup.map fun label =>
      ((givenProbability answer label).getD (.finite 0)).clamp 0 1)
    (by simpa using hne) (by
      rintro x hx
      obtain ⟨label, hlabel, rfl⟩ := List.mem_map.mp hx
      obtain ⟨p, -, hrange, hclamp⟩ := hvalue label (List.mem_dedup.mp hlabel)
      exact hclamp.symm ▸ hrange)
  obtain ⟨label, hlabel, hfold⟩ := List.mem_map.mp hmem
  have hlabel := List.mem_dedup.mp hlabel
  obtain ⟨p, hp, -, hclamp⟩ := hvalue label hlabel
  exact ⟨label, hlabel, hp.trans (congrArg some (hclamp.symm.trans hfold))⟩

/-- What is taken is faithful exactly when it is complete and in its ranges. -/
theorem statesGiven_iff {question : DecisionQuestion}
    (h : mapAnswer showF64 id question answer = .ok mapped) :
    StatesGiven question answer mapped ↔ InRanges question answer := by
  cases question with
  | choice criteria =>
      obtain ⟨choice, hmem, hchoice, _, hprobabilities, rfl⟩ := mapAnswer_choice_eq_ok.mp h
      obtain ⟨-, rfl⟩ := probabilitiesOf_eq_ok.mp hprobabilities
      simp only [StatesGiven, InRanges, statesProbabilities_iff]
      refine ⟨fun h => h.2.2.1, fun hgiven => ⟨hmem, hchoice, hgiven, choice, hmem, ?_⟩⟩
      obtain ⟨p, hp, hrange⟩ := hgiven choice hmem
      rw [lookup_map_pair _ (List.mem_dedup.mpr hmem), hp]
      simp [clamp_of_inRange hrange]
  | score criteria =>
      obtain ⟨score, hscore, _, hprobabilities, rfl⟩ := mapAnswer_score_eq_ok.mp h
      obtain ⟨-, rfl⟩ := probabilitiesOf_eq_ok.mp hprobabilities
      simp only [StatesGiven, InRanges, statesProbabilities_iff, hscore, Option.some.injEq]
      constructor
      · rintro ⟨hclamp, hrange, hgiven, -⟩
        exact ⟨⟨score, rfl, hclamp ▸ hrange⟩, hgiven⟩
      · rintro ⟨⟨_, rfl, hrange⟩, hgiven⟩
        have hlevels := levels_of_inRange hrange
        have hclamp : score.clamp 0 ((max criteria.length 1 : ℕ) - 1) = score := by
          rw [Nat.max_eq_left hlevels]
          exact clamp_of_inRange hrange
        exact ⟨hclamp.symm, hclamp.symm ▸ hrange, hgiven,
          score_confidence (List.ne_nil_of_length_pos hlevels) hgiven⟩
  | noul =>
      obtain ⟨noul, hnoul, hrange, rfl⟩ := mapAnswer_noul_eq_ok.mp h
      simp [StatesGiven, InRanges, hnoul, hrange]

/-- The confidence of a faithful answer is in the range of one. -/
theorem confidence_inRange {question : DecisionQuestion} (h : StatesGiven question answer mapped)
    (hrange : InRanges question answer) :
    inRange 0 1 mapped.engine.answer.confidence = true := by
  obtain ⟨⟨given, probabilities⟩, legend⟩ := mapped
  have hlabel : ∀ {criteria : List String} {confidence : Datum},
      (∀ label ∈ criteria, ∃ p, givenProbability answer label = some p ∧ inRange 0 1 p) →
      (∃ label ∈ criteria, givenProbability answer label = some confidence) →
      inRange 0 1 confidence = true := by
    rintro criteria confidence hall ⟨label, hmem, hconfidence⟩
    obtain ⟨p, hp, hprange⟩ := hall label hmem
    exact Option.some.inj (hp.symm.trans hconfidence) ▸ hprange
  cases question with
  | choice criteria =>
      cases given with
      | choice choice confidence => exact hlabel hrange h.2.2.2
      | _ => exact h.elim
  | score criteria =>
      cases given with
      | score score confidence => exact hlabel hrange.2 h.2.2.2
      | _ => exact h.elim
  | noul =>
      cases given with
      | noul noul =>
          obtain ⟨q, rfl, hlow, hhigh⟩ := inRange_iff.mp h.2
          exact inRange_iff.mpr ⟨q, rfl, le_trans (by norm_num [minNoul]) hlow,
            le_trans hhigh (by norm_num [maxNoul])⟩
      | _ => exact h.elim

/-! ### All answers -/

variable {answers : Value} {questions : List (String × DecisionQuestion)}
  {entries : List (String × MappedAnswer)}

/-- The adapter succeeds with one mapped answer for each question, in their order. -/
theorem mapAnswers_eq_ok : mapAnswers showF64 answers questions = .ok entries ↔
    answers.asObject.isSome ∧ List.Forall₂ (fun question entry => entry.1 = question.1 ∧
      ∃ answer, answers.get question.1 = some answer ∧
        mapAnswer showF64 question.1 question.2 answer = .ok entry.2) questions entries := by
  cases answers with
  | object fields =>
      simp only [mapAnswers, Value.asObject, Option.isSome_some, true_and,
        Pointwise.mapM_eq_ok_iff, Value.get]
      refine ⟨fun h => h.imp fun question entry h => ?_, fun h => h.imp fun question entry h => ?_⟩
      · cases hlookup : fields.lookup question.1 with
        | none => simp [hlookup] at h
        | some answer =>
            cases hmap : mapAnswer showF64 question.1 question.2 answer with
            | error error => simp [hlookup, hmap, bind, Except.bind] at h
            | ok mapped =>
                simp only [hlookup, hmap, bind, Except.bind, Except.ok.injEq] at h
                exact h ▸ ⟨rfl, answer, rfl, hmap⟩
      · obtain ⟨id, mapped⟩ := entry
        obtain ⟨rfl, answer, hlookup, hmap⟩ := h
        simp [hlookup, hmap, bind, Except.bind]
  | _ => simp [mapAnswers, Value.asObject]

theorem aggregateConfidence_mapped :
    aggregateConfidence (mappedResponse entries).toResponse =
      (entries.map fun entry => entry.2.engine.answer.confidence).foldl Datum.min (.finite 1) := by
  simp [aggregateConfidence, mappedResponse, EngineResponse.toResponse, List.foldl_map]

theorem exists_mapAnswers (showF64 : Datum → String) (hobject : answers.asObject.isSome)
    (haccepts : ∀ question ∈ questions, ∃ answer, answers.get question.1 = some answer ∧
      Accepts question.2 answer) :
    ∃ entries, mapAnswers showF64 answers questions = .ok entries := by
  simp only [mapAnswers_eq_ok, hobject, true_and]
  refine Pointwise.exists_forall₂ fun question hquestion => ?_
  obtain ⟨answer, hget, haccept⟩ := haccepts question hquestion
  obtain ⟨mapped, hmapped⟩ := mapAnswer_isOk_iff.mpr haccept
  exact ⟨(question.1, mapped), rfl, answer, hget, hmapped⟩

/-- Model answers are taken as given exactly where there is nothing to repair in them. -/
theorem takenAsGiven_iff (showF64 : Datum → String) (answers : Value)
    (questions : List (String × DecisionQuestion)) :
    TakenAsGiven showF64 answers questions ↔ NothingToRepair answers questions := by
  constructor
  · intro htaken haccepts question hquestion answer hanswer
    have hobject : answers.asObject.isSome := by
      cases answers with
      | object fields => rfl
      | _ => cases hanswer
    obtain ⟨entries, hentries⟩ := exists_mapAnswers showF64 hobject haccepts
    obtain ⟨hlength, hmapped⟩ := List.forall₂_iff_zip.mp (mapAnswers_eq_ok.mp hentries).2
    obtain ⟨-, hfaithful⟩ := List.forall₂_iff_zip.mp (htaken entries hentries).1
    obtain ⟨entry, hentry⟩ := Pointwise.exists_mem_zip hquestion hlength
    obtain ⟨-, answer', hanswer', hmap⟩ := hmapped hentry
    obtain ⟨-, answer'', hanswer'', hfaith⟩ := hfaithful hentry
    obtain rfl := Option.some.inj (hanswer.symm.trans hanswer')
    obtain rfl := Option.some.inj (hanswer.symm.trans hanswer'')
    exact (statesGiven_iff hmap).mp hfaith
  · intro hrepair entries hentries
    obtain ⟨hlength, hmapped⟩ := List.forall₂_iff_zip.mp (mapAnswers_eq_ok.mp hentries).2
    have haccepts : ∀ question ∈ questions, ∃ answer, answers.get question.1 = some answer ∧
        Accepts question.2 answer := by
      intro question hquestion
      obtain ⟨entry, hentry⟩ := Pointwise.exists_mem_zip hquestion hlength
      obtain ⟨-, answer, hanswer, hmap⟩ := hmapped hentry
      exact ⟨answer, hanswer, mapAnswer_isOk_iff.mp ⟨_, hmap⟩⟩
    have hranges := hrepair haccepts
    have hfaithful : ∀ {question entry}, (question, entry) ∈ questions.zip entries →
        ∃ answer, answers.get question.1 = some answer ∧ InRanges question.2 answer ∧
          StatesGiven question.2 answer entry.2 := by
      intro question entry hentry
      obtain ⟨-, answer, hanswer, hmap⟩ := hmapped hentry
      have hrange := hranges question (List.of_mem_zip hentry).1 answer hanswer
      exact ⟨answer, hanswer, hrange, (statesGiven_iff hmap).mpr hrange⟩
    refine ⟨List.forall₂_iff_zip.mpr ⟨hlength, fun {question entry} hentry => ?_⟩, fun hne => ?_⟩
    · obtain ⟨answer, hanswer, -, hfaith⟩ := hfaithful hentry
      exact ⟨(hmapped hentry).1, answer, hanswer, hfaith⟩
    · have hentries : entries ≠ [] := fun hnil =>
        hne (List.length_eq_zero_iff.mp (hlength.trans (List.length_eq_zero_iff.mpr hnil)))
      have hmem := min_foldl_mem (entries.map fun entry => entry.2.engine.answer.confidence)
        (by simpa using hentries) (by
          intro x hx
          obtain ⟨entry, hentry, rfl⟩ := List.mem_map.mp hx
          obtain ⟨question, hpair⟩ := Pointwise.exists_mem_zip_right hentry hlength
          obtain ⟨answer, -, hrange, hfaith⟩ := hfaithful hpair
          exact confidence_inRange hfaith hrange)
      rw [aggregateConfidence_mapped]
      obtain ⟨entry, hentry, hconfidence⟩ := List.mem_map.mp hmem
      exact ⟨entry, hentry, hconfidence.symm⟩

/-- A choice with a probability out of range, and none for the other label. -/
def overconfident : Value :=
  .object [("remediation", .object [("choice", .string "restart"),
    ("probabilities", .object [("restart", .number (.float (.finite (171 / 2))))])])]

/-- A probability of 85.5 is taken for certainty, and a missing one for zero. -/
theorem overconfident_repaired :
    ¬ TakenAsGiven (fun _ => "") overconfident [("remediation", .choice ["noop", "restart"])] := by
  intro htaken
  have haccepts : ∀ question ∈ [("remediation", DecisionQuestion.choice ["noop", "restart"])],
      ∃ answer, overconfident.get question.1 = some answer ∧ Accepts question.2 answer := by
    intro question hquestion
    obtain rfl := List.mem_singleton.mp hquestion
    refine ⟨_, rfl, ⟨"restart", by simp, rfl⟩, fun entry hentry => ?_⟩
    obtain rfl := List.mem_singleton.mp hentry
    simp
  obtain ⟨entries, hentries⟩ := exists_mapAnswers (fun _ => "") rfl haccepts
  cases (htaken entries hentries).1 with
  | cons hfaithful _ =>
      cases (mapAnswers_eq_ok.mp hentries).2 with
      | cons hmapped _ =>
          obtain ⟨-, answer, hanswer, hfaith⟩ := hfaithful
          obtain ⟨-, answer', hanswer', hmap⟩ := hmapped
          obtain rfl := Option.some.inj (hanswer.symm.trans hanswer')
          obtain ⟨p, hgiven, -⟩ := (statesGiven_iff hmap).mp hfaith "noop" (by simp)
          obtain rfl := Option.some.inj hanswer
          cases hgiven

end Argus
