import Argus.Domain.Plan
import Argus.Executor.Privileged
import Mathlib.Data.List.Sort

/-!
# The host-health decision

The evidence a decision is asked over, and the plan an answer implies. Evidence is
deduplicated, redacted and bounded; its canonical key is the text of its entries in sorted
order, so that the same evidence has one key however it was assembled.

The skill knows one remediation, the restart of the unit the evidence names. An answer that
names no single unit, that is unsure, or that asks for nothing gives no plan.
-/

namespace Argus

open Ieee (Datum)

/-! ### Evidence -/

def maxContextEntries : Nat := 64

def sensitiveMarkers : List String := ["password", "secret", "token", "api_key", "credential"]

def secretValuePrefixes : List String := ["sk-", "ghp_", "AKIA", "-----BEGIN"]

/-- The placeholder a redacted value is replaced with. -/
def redacted : String := "[REDACTED]"

/-- `text.contains(fragment)`. -/
def contains (text fragment : String) : Bool := decide (fragment.toList <:+: text.toList)

def isSensitiveAttribute (attr : String) : Bool :=
  sensitiveMarkers.any (contains (attr.map Char.toLower))

mutual

/-- Masks any string that looks like a secret, at any depth. -/
def redactValue : Value → Value
  | .string text =>
      if secretValuePrefixes.any (contains text) then .string redacted else .string text
  | .array items => .array (redactItems items)
  | .object fields => .object (redactFields fields)
  | value => value

def redactItems : List Value → List Value
  | [] => []
  | item :: items => redactValue item :: redactItems items

def redactFields : List (String × Value) → List (String × Value)
  | [] => []
  | (key, value) :: fields => (key, redactValue value) :: redactFields fields

end

/-- One piece of evidence. -/
structure EvidenceEntry where
  subject : String
  attr : String
  value : Value
  deriving DecidableEq

namespace EvidenceEntry

/-- The entry as a document, keys in the map's order. -/
def toValue (e : EvidenceEntry) : Value :=
  .object [("attribute", .string e.attr), ("subject", .string e.subject), ("value", e.value)]

/-- The entry as it is written out directly: the fields in the order of their declaration. -/
def written (e : EvidenceEntry) : Value :=
  .object [("subject", .string e.subject), ("attribute", .string e.attr), ("value", e.value)]

/-- The entries are equal part by part, as the source compares them. -/
def same (a b : EvidenceEntry) : Bool :=
  a.subject == b.subject && a.attr == b.attr && a.value.same b.value

/-- The entry without the signs of the zeros in its value. -/
def unsigned (e : EvidenceEntry) : EvidenceEntry := { e with value := e.value.unsigned }

theorem same_iff {a b : EvidenceEntry} : a.same b = true ↔ a.unsigned = b.unsigned := by
  simp [same, Value.same, unsigned, and_assoc]

theorem same_self (e : EvidenceEntry) : e.same e = true := same_iff.mpr rfl

end EvidenceEntry

/-- Builds the context of a decision. `seen` holds the entries as they came, before
redaction. -/
structure ContextBuilder where
  entries : List EvidenceEntry
  seen : List EvidenceEntry
  allowlist : Option (List String)
  dropped : Nat

namespace ContextBuilder

/-- A builder that accepts any attribute. -/
def new : ContextBuilder := ⟨[], [], none, 0⟩

/-- Adds an entry: one outside the allowlist is dropped and counted, an exact duplicate is
ignored, and a secret is masked. -/
def evidence (ctx : ContextBuilder) (subject attr : String) (value : Value) :
    ContextBuilder :=
  if ctx.allowlist.any fun allowed => !allowed.contains attr then
    { ctx with dropped := ctx.dropped + 1 }
  else if ctx.seen.any (EvidenceEntry.same · ⟨subject, attr, value⟩) then ctx
  else
    let masked :=
      if isSensitiveAttribute attr then .string redacted else redactValue value
    { ctx with
      seen := ctx.seen ++ [⟨subject, attr, value⟩],
      entries := ctx.entries ++ [⟨subject, attr, masked⟩] }

/-- The evidence as a document; over the cap the oldest entries are trimmed. -/
def intoState (ctx : ContextBuilder) : Value :=
  .object [("evidence", .array
    ((ctx.entries.drop (ctx.entries.length - maxContextEntries)).map EvidenceEntry.toValue))]

/-- The key of the evidence, in whatever order it was added. `toJson` is the JSON writer of
the serialization library. -/
def canonicalKey (toJson : Value → String) (ctx : ContextBuilder) : String :=
  let entries := (ctx.entries.map fun entry => toJson entry.written).insertionSort (· ≤ ·)
  toJson (.array (entries.map .string))

end ContextBuilder

/-- The key an observation is deduplicated on. -/
def observationDedupKey (toJson : Value → String) (evidence : ContextBuilder) : String :=
  evidence.canonicalKey toJson

/-! ### Answers -/

/-- A scored answer to a question. -/
inductive DecisionAnswer
  | choice (choice : String) (confidence : Datum)
  | score (score confidence : Datum)
  | noul (noul : Datum)

def DecisionAnswer.confidence : DecisionAnswer → Datum
  | .choice _ confidence => confidence
  | .score _ confidence => confidence
  | .noul confidence => confidence

/-- The answers of the decision engine, by question. -/
structure DecisionResponse where
  answers : List (String × DecisionAnswer)

inductive DecisionError
  | unavailable (why : String)
  | invalid (why : String)
  | validation (why : String)
  deriving DecidableEq

inductive NoDecisionReason
  | lowConfidence
  | engineUnavailable
  deriving DecidableEq

/-- A validated decision, or a typed no-decision. -/
inductive Decision.Outcome
  | decided (response : DecisionResponse)
  | noDecision (why : NoDecisionReason)

/-- The least confidence of all answers. -/
def aggregateConfidence (response : DecisionResponse) : Datum :=
  response.answers.foldl (fun least answer => least.min answer.2.confidence) (.finite 1)

/-- The fail-closed rule: an engine that cannot be reached and an unsure answer are no
decision. `reply` is what the provider answered, or the error its validation gave. -/
def decideOutcomeWith (reply : Except DecisionError DecisionResponse) (threshold : Datum) :
    Except DecisionError Decision.Outcome :=
  match reply with
  | .error (.unavailable _) => .ok (.noDecision .engineUnavailable)
  | .error error => .error error
  | .ok response =>
      if (aggregateConfidence response).lt threshold then .ok (.noDecision .lowConfidence)
      else .ok (.decided response)

/-- A plan, if the response clears the confidence gate. -/
def proposePlan (response : DecisionResponse) (threshold : Datum) (objective : String)
    (steps : List PlanStep) : Option Plan :=
  let confidence := aggregateConfidence response
  if confidence.lt threshold then none
  else
    some
      { objective, steps, preconditions := [], expectedOutcomes := [], blastRadius := .host,
        confidence, status := .proposed, runbook := none }

/-! ### The remediation -/

/-- The unit the evidence names: one distinct value, not blank and not redacted. -/
def unitFromEvidence (state : Value) : Option String :=
  match state.get "evidence" with
  | some (.array entries) =>
      let named := entries.filter fun entry => entry.getStr "attribute" == some "unit"
      let units := ((named.filterMap (Value.getStr "value")).map trim).filter (· != "")
      match units.dedup with
      | [unit] => if unit ≠ redacted then some unit else none
      | _ => none
  | _ => none

/-- The action a response implies. -/
def remediationAction (response : DecisionResponse) (state : Value) : Option Action :=
  match response.answers.lookup "remediation" with
  | some (.choice "restart" _) => do
      let unit ← unitFromEvidence state
      let capability ← CapabilityId.new CapabilityId.hostServiceRestart
      some ⟨capability, none, .object [("unit", .string unit)]⟩
  | _ => none

/-- A stop is undone by a start and the other way round; a restart has no inverse. -/
def rollbackFor (action : Action) : Option Action :=
  let inverse :=
    if action.capability.asStr = CapabilityId.hostServiceStop then
      CapabilityId.new CapabilityId.hostServiceStart
    else if action.capability.asStr = CapabilityId.hostServiceStart then
      CapabilityId.new CapabilityId.hostServiceStop
    else none
  inverse.map fun capability => { action with capability }

/-- What `plan_from_evidence` makes of the provider's reply once its key is claimed: an
error, nothing actionable, or a plan. -/
def planFromReply (evidence : ContextBuilder) (threshold : Datum)
    (reply : Except DecisionError DecisionResponse) : Except DecisionError (Option Plan) := do
  match ← decideOutcomeWith reply threshold with
  | .noDecision _ => .ok none
  | .decided response =>
      match remediationAction response evidence.intoState with
      | none => .ok none
      | some action =>
          .ok (proposePlan response threshold "restore the host service"
            [⟨action, rollbackFor action⟩])

end Argus
