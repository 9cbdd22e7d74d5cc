import Argus.Daemon.BrainDedup
import Argus.Decision.Validate

/-!
# What the provider's health says

`propose_once` sets the health by whether `plan_from_evidence` came back with an error. An engine
that cannot be reached is no error by then, and a call that was deduplicated never asked it, so both
make the provider ready.

`provider_health_iff` says in which runs the health, and the signal the autonomy tick makes of it,
is that of the provider.
-/

namespace Argus

open Ieee (Datum)

/-- The text of an error. -/
def DecisionError.toString : DecisionError → String
  | .unavailable why => s!"decision engine unavailable: {why}"
  | .invalid why => s!"invalid decision response: {why}"
  | .validation why => s!"decision validation failed: {why}"

/-- The availability of the decision provider. -/
inductive ProviderStatus
  | ready
  | degraded
  deriving DecidableEq

structure ProviderHealth where
  status : ProviderStatus
  /-- Why the provider is degraded; cleared on recovery. -/
  lastError : Option String
  updatedAt : DateTime
  deriving DecidableEq

namespace ProviderHealth

def ready (now : DateTime) : ProviderHealth := ⟨.ready, none, now⟩

def degraded (error : String) (now : DateTime) : ProviderHealth := ⟨.degraded, some error, now⟩

end ProviderHealth

/-- The decide-only outcome for one evidence set. -/
inductive EvidenceDecision
  | plan (plan : Plan) (key : String)
  | deduplicated (key : String)
  | nothing

/-- What `propose_once` is called with, and what the provider does when it is asked. -/
structure Proposal where
  evidence : ContextBuilder
  threshold : Datum
  answer : Except DecisionError EngineResponse
  now : DateTime

/-- The dedup keys and the provider's health. The transitions that were published and the number
of the next attempt are on record. -/
structure ProviderWatch where
  dedup : InMemoryDedup
  health : ProviderHealth
  published : List String
  attempts : Nat

/-- A call of `propose_once`, or what else is done to the dedup keys. -/
inductive ProviderEvent
  | propose (proposal : Proposal)
  | claim (key : String)
  | release (key : String)

/-- The `provider_ready` signal of the autonomy tick. -/
def providerReady (providerAvailable : Bool) (health : ProviderHealth) : Bool :=
  providerAvailable && health.status == .ready

variable (toJson : Value → String) (showF64 : Datum → String)

def planFromEvidence (dedup : InMemoryDedup) (attempt : Nat) (proposal : Proposal) :
    Except DecisionError EvidenceDecision × InMemoryDedup :=
  let key := observationDedupKey toJson proposal.evidence
  match dedup.claim key attempt with
  | (false, dedup) => (.ok (.deduplicated key), dedup)
  | (true, dedup) =>
      match planFromReply proposal.evidence proposal.threshold
          (validated showF64 hostHealthQuestions proposal.answer) with
      | .error error => (.error error, dedup)
      | .ok none => (.ok .nothing, dedup.release key)
      | .ok (some plan) => (.ok (.plan plan key), dedup)

namespace ProviderWatch

/-- The watch of a daemon that just started. -/
def start (now : DateTime) : ProviderWatch := ⟨.new, .ready now, [], 0⟩

def markProviderReady (s : ProviderWatch) (now : DateTime) : ProviderWatch :=
  { s with health := .ready now }

/-- A transition is published, and a repeated failure is not. -/
def markProviderDegraded (s : ProviderWatch) (error : String) (now : DateTime) : ProviderWatch :=
  { s with
    health := .degraded error now
    published :=
      if s.health.status = .degraded then s.published else s.published ++ [error] }

def proposeOnce (s : ProviderWatch) (proposal : Proposal) :
    Except DecisionError (Option (Plan × String)) × ProviderWatch :=
  let (result, dedup) := planFromEvidence toJson showF64 s.dedup s.attempts proposal
  let s := { s with dedup, attempts := s.attempts + 1 }
  match result with
  | .ok (.plan plan key) => (.ok (some (plan, key)), s.markProviderReady proposal.now)
  | .ok (.deduplicated _) | .ok .nothing => (.ok none, s.markProviderReady proposal.now)
  | .error error => (.error error, s.markProviderDegraded error.toString proposal.now)

def step (s : ProviderWatch) : ProviderEvent → ProviderWatch
  | .propose proposal => (s.proposeOnce toJson showF64 proposal).2
  | .claim key =>
      { s with dedup := (s.dedup.claim key s.attempts).2, attempts := s.attempts + 1 }
  | .release key => { s with dedup := s.dedup.release key }

/-- The provider is asked, as nobody holds the key of the evidence. -/
def Reaches (s : ProviderWatch) (proposal : Proposal) : Prop :=
  s.dedup.holder (observationDedupKey toJson proposal.evidence) = none

/-- The provider answered with a valid response. -/
def Answered (proposal : Proposal) : Prop :=
  ∃ response, proposal.answer = .ok response ∧
    validateResponse showF64 hostHealthQuestions response = .ok ()

/-- The health after a call is that of the provider it asked, and that of before where it asked
none; and an engine that could not be reached is not ready for the tick. -/
def Truthful (s : ProviderWatch) : ProviderEvent → Prop
  | .propose proposal =>
      let health := (s.step toJson showF64 (.propose proposal)).health
      (s.Reaches toJson proposal → (health.status = .ready ↔ Answered showF64 proposal) ∧
        ∀ error, proposal.answer = .error error → ∀ available,
          providerReady available health = false) ∧
      (¬ s.Reaches toJson proposal →
        health.status = s.health.status ∧ health.lastError = s.health.lastError)
  | _ => True

/-- A call that asks the provider can reach it, and one that is deduplicated finds it ready. -/
def Reflects (s : ProviderWatch) : ProviderEvent → Prop
  | .propose proposal =>
      (s.Reaches toJson proposal → ∀ why, proposal.answer ≠ .error (.unavailable why)) ∧
      (¬ s.Reaches toJson proposal → s.health.status = .ready)
  | _ => True

/-! ### One call -/

variable {toJson showF64} {s : ProviderWatch} {proposal : Proposal} {e : ProviderEvent}

theorem claim_granted (attempt : Nat) {dedup : InMemoryDedup} {key : String} :
    (dedup.claim key attempt).1 = true ↔ dedup.holder key = none := by
  unfold InMemoryDedup.claim
  split <;> simp [*]

/-- A key that somebody holds: the provider is not asked. -/
theorem planFromEvidence_refused (h : ¬ s.Reaches toJson proposal) :
    (planFromEvidence toJson showF64 s.dedup s.attempts proposal).1 =
      .ok (.deduplicated (observationDedupKey toJson proposal.evidence)) := by
  rw [Reaches, ← claim_granted s.attempts] at h
  unfold planFromEvidence
  dsimp only
  cases hclaim : s.dedup.claim (observationDedupKey toJson proposal.evidence) s.attempts with
  | mk granted dedup =>
      cases granted with
      | false => rfl
      | true => exact absurd (congrArg Prod.fst hclaim) h

/-- A reply that is a response is no error, whatever comes of it. -/
theorem planFromReply_ok {evidence : ContextBuilder} {threshold : Datum}
    {response : DecisionResponse} :
    ∃ plan, planFromReply evidence threshold (.ok response) = .ok plan := by
  cases h : planFromReply evidence threshold (.ok response) with
  | ok plan => exact ⟨plan, rfl⟩
  | error error => cases (Brain.error_of_planFromReply h).1

/-- What the reply comes to is an error if it is one, and not an engine that cannot be reached. -/
theorem planFromReply_isOk (evidence : ContextBuilder) (threshold : Datum)
    (reply : Except DecisionError DecisionResponse) :
    (∃ plan, planFromReply evidence threshold reply = .ok plan) ↔
      (∃ response, reply = .ok response) ∨ ∃ why, reply = .error (.unavailable why) := by
  constructor
  · rintro ⟨plan, h⟩
    match reply with
    | .ok response => exact .inl ⟨response, rfl⟩
    | .error (.unavailable why) => exact .inr ⟨why, rfl⟩
    | .error (.invalid _) => cases h
    | .error (.validation _) => cases h
  · rintro (⟨response, rfl⟩ | ⟨why, rfl⟩)
    · exact planFromReply_ok
    · exact ⟨none, rfl⟩

/-- A call that asks the provider comes back without an error if the response is valid, or the
engine cannot be reached. -/
theorem planFromEvidence_reached (h : s.Reaches toJson proposal) :
    (∃ decision, (planFromEvidence toJson showF64 s.dedup s.attempts proposal).1 = .ok decision) ↔
      Answered showF64 proposal ∨ ∃ why, proposal.answer = .error (.unavailable why) := by
  have hplan := planFromReply_isOk proposal.evidence proposal.threshold
    (validated showF64 hostHealthQuestions proposal.answer)
  have hanswer : (∃ why, validated showF64 hostHealthQuestions proposal.answer =
      .error (.unavailable why)) ↔ ∃ why, proposal.answer = .error (.unavailable why) := by
    constructor
    · rintro ⟨why, hwhy⟩
      exact ⟨why, validated_unavailable hwhy⟩
    · rintro ⟨why, hwhy⟩
      exact ⟨why, by rw [hwhy]; rfl⟩
  rw [validated_eq_ok, hanswer] at hplan
  rw [Answered, ← hplan]
  rw [Reaches, ← claim_granted s.attempts] at h
  unfold planFromEvidence
  dsimp only
  cases hclaim : s.dedup.claim (observationDedupKey toJson proposal.evidence) s.attempts with
  | mk granted dedup =>
      obtain rfl : granted = true := (congrArg Prod.fst hclaim).symm.trans h
      dsimp only
      cases planFromReply proposal.evidence proposal.threshold
          (validated showF64 hostHealthQuestions proposal.answer) with
      | error error => simp
      | ok plan => cases plan <;> simp

/-- The health after a call, by whether it came back with an error. -/
theorem health_propose :
    (s.step toJson showF64 (.propose proposal)).health =
      match (planFromEvidence toJson showF64 s.dedup s.attempts proposal).1 with
      | .ok _ => .ready proposal.now
      | .error error => .degraded error.toString proposal.now := by
  dsimp only [step, proposeOnce]
  generalize planFromEvidence toJson showF64 s.dedup s.attempts proposal = outcome
  obtain ⟨result, dedup⟩ := outcome
  match result with
  | .ok (.plan _ _) | .ok (.deduplicated _) | .ok .nothing | .error _ => rfl

theorem status_propose : (s.step toJson showF64 (.propose proposal)).health.status = .ready ↔
    ∃ decision, (planFromEvidence toJson showF64 s.dedup s.attempts proposal).1 = .ok decision := by
  rw [health_propose]
  cases (planFromEvidence toJson showF64 s.dedup s.attempts proposal).1 with
  | error error => simp [ProviderHealth.degraded]
  | ok decision => simp [ProviderHealth.ready]

theorem providerReady_eq_false {health : ProviderHealth} :
    (∀ available, providerReady available health = false) ↔ health.status ≠ .ready := by
  simp [providerReady]

/-! ### Whole runs -/

/-- A provider that is ready has no error. -/
def Settled (s : ProviderWatch) : Prop := s.health.status = .ready → s.health.lastError = none

theorem Settled.step (h : s.Settled) : (s.step toJson showF64 e).Settled := by
  cases e with
  | claim key => exact h
  | release key => exact h
  | propose proposal =>
      unfold Settled
      rw [health_propose]
      split
      · exact fun _ => rfl
      · exact fun hready => nomatch hready

/-- The step lemma: one call leaves the health as it should be exactly when the provider it asks
can be reached, and when one that asks none finds it ready. -/
theorem truthful_iff (h : s.Settled) : s.Truthful toJson showF64 e ↔ s.Reflects toJson e := by
  cases e with
  | claim key => exact Iff.rfl
  | release key => exact Iff.rfl
  | propose proposal =>
      refine and_congr (forall_congr' fun hreaches => ?_) (forall_congr' fun hrefused => ?_)
      · simp only [providerReady_eq_false]
        rw [Ne, status_propose, planFromEvidence_reached hreaches]
        constructor
        · rintro ⟨-, herror⟩ why hwhy
          exact herror _ hwhy (.inr ⟨why, hwhy⟩)
        · intro hreachable
          refine ⟨⟨?_, .inl⟩, ?_⟩
          · rintro (hanswered | ⟨why, hwhy⟩)
            · exact hanswered
            · exact absurd hwhy (hreachable why)
          · rintro error herror (⟨response, hresponse, -⟩ | ⟨why, hwhy⟩)
            · cases hresponse.symm.trans herror
            · exact hreachable why hwhy
      · rw [health_propose, planFromEvidence_refused hrefused]
        constructor
        · exact fun hsame => hsame.1.symm
        · exact fun hready => ⟨hready.symm, (h hready).symm⟩

open Machine

/-- In every run of calls, whatever else is done to the dedup keys, the health is that of the
provider after every call exactly when every call that asks the provider can reach it, and every
one that is deduplicated finds it ready. -/
theorem provider_health_iff {now : DateTime} {events : List ProviderEvent} :
    Every (step toJson showF64) (Truthful toJson showF64) (start now) events ↔
      Every (step toJson showF64) (Reflects toJson) (start now) events :=
  every_congr (I := Settled) (fun _ => rfl) (fun _ _ h => h.step) fun _ _ h => truthful_iff h

/-- A call about one failed unit, to an engine that cannot be reached. -/
def unreachable : Proposal where
  evidence := ContextBuilder.new.evidence "host:local" "unit" (.string "nginx.service")
  threshold := .finite (7 / 10)
  answer := .error (.unavailable "engine down")
  now := ⟨1⟩

/-- The engine cannot be reached, and the provider is ready for the tick. No float is written. -/
theorem unreachable_ready :
    ¬ Every (step Brain.evidenceJson fun _ => "") (Truthful Brain.evidenceJson fun _ => "")
        (start ⟨0⟩) [.propose unreachable] ∧
      providerReady true
        ((start ⟨0⟩).step Brain.evidenceJson (fun _ => "") (.propose unreachable)).health =
          true := by
  have hreaches : (start ⟨0⟩).Reaches Brain.evidenceJson unreachable := rfl
  have hready : ((start ⟨0⟩).step Brain.evidenceJson (fun _ => "")
      (.propose unreachable)).health.status = .ready :=
    status_propose.mpr ((planFromEvidence_reached hreaches).mpr (.inr ⟨_, rfl⟩))
  refine ⟨fun h => ?_, by simp [providerReady, hready]⟩
  have hnot := (h.1.1 hreaches).2 _ rfl true
  simp [providerReady, hready] at hnot

end ProviderWatch
end Argus
