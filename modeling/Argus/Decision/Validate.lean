import Argus.Decision.HostHealth

/-!
# The shape of an answer

What the decision engine answers is checked against the questions before anything is made of it:
every question has an answer of its kind, a choice is among its labels, and every number is in
its range. NaN is in no range, except that of a score, which is checked by two comparisons that
both fail.
-/

namespace Argus

open Ieee (Datum)

/-- A question, as far as an answer is checked against it. -/
inductive DecisionQuestion
  | choice (criteria : List String)
  | score (criteria : List String)
  | noul

/-- An answer with the probabilities of its labels, of which a noul has none. -/
structure EngineAnswer where
  answer : DecisionAnswer
  probabilities : List (String × Datum)

/-- The response of the engine, as it parses. -/
structure EngineResponse where
  answers : List (String × EngineAnswer)

/-- What is read of a response once it is checked. -/
def EngineResponse.toResponse (response : EngineResponse) : DecisionResponse :=
  ⟨response.answers.map fun entry => (entry.1, entry.2.answer)⟩

def DecisionQuestion.kind : DecisionQuestion → String
  | .choice _ => "choice"
  | .score _ => "score"
  | .noul => "noul"

def DecisionAnswer.kind : DecisionAnswer → String
  | .choice .. => "choice"
  | .score .. => "score"
  | .noul _ => "noul"

/-- `host_health_questions`, in the order of the map. -/
def hostHealthQuestions : List (String × DecisionQuestion) :=
  [("degraded", .noul), ("remediation", .choice ["noop", "restart"])]

/-- `(low..=high).contains(x)`. -/
def inRange (low high : ℚ) (x : Datum) : Bool := x.ge (.finite low) && (Datum.finite high).ge x

/-- `0.01` and `0.99`, as they are stored. -/
def minNoul : ℚ := 5764607523034235 / 2 ^ 59
def maxNoul : ℚ := 4458563631096791 / 2 ^ 52

variable (showF64 : Datum → String)

/-! ### The checks

`showF64` is how the standard library writes a float. -/

def validateConfidence (confidence : Datum) (id : String) : Except DecisionError Unit :=
  if inRange 0 1 confidence then .ok ()
  else .error (.validation s!"confidence {showF64 confidence} out of range [0, 1] for '{id}'")

def validateDistribution (probabilities : List (String × Datum)) (id : String) :
    Except DecisionError Unit :=
  match probabilities.find? fun entry => !inRange 0 1 entry.2 with
  | some (label, p) =>
      .error (.validation
        s!"probability {showF64 p} for label '{label}' out of range for '{id}'")
  | none => .ok ()

def validateNoul (noul : Datum) (id : String) : Except DecisionError Unit :=
  if inRange minNoul maxNoul noul then .ok ()
  else .error (.validation s!"noul {showF64 noul} out of range [0.01, 0.99] for '{id}'")

/-- `max` is the level of the last of the criteria. -/
def validateScore (score : Datum) (max : Datum) (id : String) : Except DecisionError Unit :=
  if score.lt (.finite 0) || max.lt score then
    .error (.validation
      s!"score {showF64 score} out of range [0, {showF64 max}] for '{id}'")
  else .ok ()

/-- The body of the loop over the questions. -/
def validateAnswer (id : String) (question : DecisionQuestion) (given : Option EngineAnswer) :
    Except DecisionError Unit :=
  match given with
  | none => .error (.validation s!"missing answer for '{id}'")
  | some given =>
      match question, given.answer with
      | .choice criteria, .choice choice confidence =>
          if criteria.contains choice then do
            validateConfidence showF64 confidence id
            validateDistribution showF64 given.probabilities id
          else .error (.validation s!"choice '{choice}' not among criteria for '{id}'")
      | .score criteria, .score score confidence => do
          validateScore showF64 score (.finite (criteria.length - 1)) id
          validateConfidence showF64 confidence id
          validateDistribution showF64 given.probabilities id
      | .noul, .noul noul => validateNoul showF64 noul id
      | question, answer =>
          .error (.validation
            (s!"answer kind '{answer.kind}' does not match question kind '{question.kind}' " ++
              s!"for '{id}'"))

def validateResponse (questions : List (String × DecisionQuestion)) (response : EngineResponse) :
    Except DecisionError Unit :=
  questions.forM fun entry =>
    validateAnswer showF64 entry.1 entry.2 (response.answers.lookup entry.1)

/-- What the provider answers once it is checked: its response, or the error of either. -/
def validated (questions : List (String × DecisionQuestion))
    (answer : Except DecisionError EngineResponse) : Except DecisionError DecisionResponse := do
  let response ← answer
  validateResponse showF64 questions response
  .ok response.toResponse

/-! ### What a check that fails says -/

variable {showF64}

/-- The check fails with an error of its own. -/
def Rejects (check : Except DecisionError Unit) : Prop :=
  ∀ error, check = .error error → ∃ why, error = .validation why

theorem Rejects.ok : Rejects (.ok ()) := by
  intro error h
  cases h

theorem Rejects.error {why : String} : Rejects (.error (.validation why)) := by
  intro error h
  cases h
  exact ⟨why, rfl⟩

theorem Rejects.bind {check next : Except DecisionError Unit} (h : Rejects check)
    (hnext : Rejects next) : Rejects (check >>= fun _ => next) := by
  cases check with
  | error error => exact h
  | ok _ => exact hnext

theorem rejects_validateConfidence {confidence : Datum} {id : String} :
    Rejects (validateConfidence showF64 confidence id) := by
  unfold validateConfidence
  split
  · exact .ok
  · exact .error

theorem rejects_validateDistribution {probabilities : List (String × Datum)} {id : String} :
    Rejects (validateDistribution showF64 probabilities id) := by
  unfold validateDistribution
  split
  · exact .error
  · exact .ok

theorem rejects_validateAnswer {id : String} {question : DecisionQuestion}
    {given : Option EngineAnswer} : Rejects (validateAnswer showF64 id question given) := by
  unfold validateAnswer
  split
  · exact .error
  · split
    · split
      · exact rejects_validateConfidence.bind rejects_validateDistribution
      · exact .error
    · refine Rejects.bind ?_ (rejects_validateConfidence.bind rejects_validateDistribution)
      unfold validateScore
      split
      · exact .error
      · exact .ok
    · unfold validateNoul
      split
      · exact .ok
      · exact .error
    · exact .error

/-- A response is rejected as such, and never as an engine that cannot be reached. -/
theorem rejects_validateResponse {questions : List (String × DecisionQuestion)}
    {response : EngineResponse} : Rejects (validateResponse showF64 questions response) := by
  unfold validateResponse
  induction questions with
  | nil => exact .ok
  | cons entry questions ih => exact rejects_validateAnswer.bind ih

theorem validated_eq_ok {questions : List (String × DecisionQuestion)}
    {answer : Except DecisionError EngineResponse} :
    (∃ response, validated showF64 questions answer = .ok response) ↔
      ∃ response, answer = .ok response ∧ validateResponse showF64 questions response = .ok () := by
  cases answer with
  | error error => simp [validated, bind, Except.bind]
  | ok response =>
      cases hcheck : validateResponse showF64 questions response with
      | error error => simp [validated, bind, Except.bind, hcheck]
      | ok _ => simp [validated, bind, Except.bind, hcheck]

/-- Only the provider says that the engine cannot be reached. -/
theorem validated_unavailable {questions : List (String × DecisionQuestion)}
    {answer : Except DecisionError EngineResponse} {why : String}
    (h : validated showF64 questions answer = .error (.unavailable why)) :
    answer = .error (.unavailable why) := by
  cases answer with
  | error error => simpa [validated, bind, Except.bind] using h
  | ok response =>
      cases hcheck : validateResponse showF64 questions response with
      | ok _ => simp [validated, bind, Except.bind, hcheck] at h
      | error error =>
          obtain ⟨_, rfl⟩ := rejects_validateResponse error hcheck
          simp [validated, bind, Except.bind, hcheck] at h

end Argus
