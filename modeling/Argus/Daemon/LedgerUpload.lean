import Argus.Cloud.Redact
import Argus.Daemon.LedgerCycles

/-!
# What of a ledger record goes up

Two builders make the payloads. That of an action redacts the arguments and the validation, and
clips the other texts as they are. That of a trace redacts every text, after it clipped it.

`uploads_redacted` says what that comes to for two records that are the same once they are
redacted in full: their payloads are the same, as far as the texts that are not redacted are, and
where no text had to be clipped before its redaction.
-/

namespace Argus

open Redact (redactText)

def maxLedgerKindLen : Nat := 200
def maxLedgerTextLen : Nat := 2000
def maxLedgerEvidence : Nat := 50
def maxLedgerSteps : Nat := 50

/-- One bounded brain-cycle trace. -/
structure BrainTraceRecord where
  traceId : Uuid
  cycleId : Option Uuid
  planId : Option Uuid
  evidence : List String
  decision : Option String
  objective : Option String
  steps : List String
  outcome : Option String
  occurredAt : DateTime
  deriving DecidableEq

/-- `action.event`, as it goes up. -/
structure ActionEventPayload where
  eventId : Uuid
  correlationId : Uuid
  causationId : Option Uuid
  cycleId : Option Uuid
  planId : Option Uuid
  kind : String
  target : Option String
  args : Option (List (String × Value))
  verdict : String
  policyId : Option String
  outcome : String
  durationMs : Option Nat
  validation : Option Value
  occurredAt : DateTime
  deriving DecidableEq

/-- `brain.trace`, as it goes up. -/
structure BrainTracePayload where
  traceId : Uuid
  cycleId : Option Uuid
  planId : Option Uuid
  evidence : List String
  decision : Option String
  objective : Option String
  steps : List String
  outcome : Option String
  coalescedBefore : Nat
  occurredAt : DateTime
  deriving DecidableEq

/-- Clips a text to `max` characters. -/
def boundText (text : String) (max : Nat) : String := .ofList (text.toList.take max)

variable (log2 : ℚ → ℚ)

/-- The arguments that go up: those of an object that has any. -/
def uploadArgs (args : Value) : Option (List (String × Value)) :=
  match args with
  | .object fields =>
      if fields.isEmpty then none else (Redact.redactValue log2 (.object fields)).asObject
  | _ => none

/-- What an action uploads. None of its fields fails to serialize. -/
def actionPayload (event : ActionEvent) (cycleId : Option Uuid) : Option ActionEventPayload :=
  some
    { eventId := event.eventId
      correlationId := event.correlationId
      causationId := event.causationId
      cycleId := cycleId.or event.cycleId
      planId := event.planId
      kind := boundText event.kind maxLedgerKindLen
      target := event.target.map fun target => boundText target maxLedgerTextLen
      args := uploadArgs log2 event.args
      verdict := event.verdict
      policyId := event.policyId.map fun id => boundText id maxLedgerKindLen
      outcome := event.outcome
      durationMs := event.durationMs
      validation := event.validation.map (Redact.redactValue log2)
      occurredAt := event.occurredAt }

/-- `redact` of `trace_payload`: clipped first. -/
def clipRedact (text : String) : String := redactText log2 (boundText text maxLedgerTextLen)

/-- What a trace uploads. -/
def tracePayload (trace : BrainTraceRecord) : Option BrainTracePayload :=
  some
    { traceId := trace.traceId
      cycleId := trace.cycleId
      planId := trace.planId
      evidence := (trace.evidence.take maxLedgerEvidence).map (clipRedact log2)
      decision := trace.decision.map (clipRedact log2)
      objective := trace.objective.map (clipRedact log2)
      steps := (trace.steps.take maxLedgerSteps).map (clipRedact log2)
      outcome := trace.outcome.map (clipRedact log2)
      coalescedBefore := 0
      occurredAt := trace.occurredAt }

/-- The payload `record_action` pushes, once the record has its stamp. -/
def uploadedAction (event : ActionEvent) : Option ActionEventPayload :=
  actionPayload log2 event event.cycleId

/-! ### Redacted in full -/

/-- The record with every text and every argument redacted, and nothing clipped. -/
def ActionEvent.redactAll (event : ActionEvent) : ActionEvent :=
  { event with
    kind := redactText log2 event.kind
    target := event.target.map (redactText log2)
    args := Redact.redactValue log2 event.args
    verdict := redactText log2 event.verdict
    policyId := event.policyId.map (redactText log2)
    outcome := redactText log2 event.outcome
    validation := event.validation.map (Redact.redactValue log2) }

def BrainTraceRecord.redactAll (trace : BrainTraceRecord) : BrainTraceRecord :=
  { trace with
    evidence := trace.evidence.map (redactText log2)
    decision := trace.decision.map (redactText log2)
    objective := trace.objective.map (redactText log2)
    steps := trace.steps.map (redactText log2)
    outcome := trace.outcome.map (redactText log2) }

/-- The first characters of two texts are the same. -/
def AgreeUpTo (max : Nat) (a b : String) : Prop := a.toList.take max = b.toList.take max

/-- So are those of two texts that may be there. -/
def OptionAgree (max : Nat) : Option String → Option String → Prop
  | some a, some b => AgreeUpTo max a b
  | none, none => True
  | _, _ => False

/-- The texts of two actions that go up as they are agree within their bounds. -/
structure OpenAgree (a b : ActionEvent) : Prop where
  kind : AgreeUpTo maxLedgerKindLen a.kind b.kind
  target : OptionAgree maxLedgerTextLen a.target b.target
  verdict : a.verdict = b.verdict
  policyId : OptionAgree maxLedgerKindLen a.policyId b.policyId
  outcome : a.outcome = b.outcome

/-- Two texts that are within the bound, or agree up to it. -/
def Uncut (a b : String) : Prop :=
  a.length ≤ maxLedgerTextLen ∧ b.length ≤ maxLedgerTextLen ∨ AgreeUpTo maxLedgerTextLen a b

/-- So are the texts of two traces that go up, one by one. -/
structure TextsUncut (a b : BrainTraceRecord) : Prop where
  evidence : ∀ pair ∈ (a.evidence.zip b.evidence).take maxLedgerEvidence, Uncut pair.1 pair.2
  decision : ∀ x ∈ a.decision, ∀ y ∈ b.decision, Uncut x y
  objective : ∀ x ∈ a.objective, ∀ y ∈ b.objective, Uncut x y
  steps : ∀ pair ∈ (a.steps.zip b.steps).take maxLedgerSteps, Uncut pair.1 pair.2
  outcome : ∀ x ∈ a.outcome, ∀ y ∈ b.outcome, Uncut x y

/-! ### The texts -/

variable {log2} {a b : String} {n : Nat}

theorem boundText_eq_iff : boundText a n = boundText b n ↔ AgreeUpTo n a b := by
  unfold boundText AgreeUpTo
  constructor
  · intro h
    simpa using congrArg String.toList h
  · intro h
    rw [h]

theorem boundText_of_le (h : a.length ≤ n) : boundText a n = a := by
  unfold boundText
  rw [List.take_of_length_le (String.length_toList.trans_le h), String.ofList_toList]

theorem map_boundText_eq_iff {a b : Option String} :
    (a.map fun text => boundText text n) = (b.map fun text => boundText text n) ↔
      OptionAgree n a b := by
  cases a <;> cases b <;> simp [OptionAgree, boundText_eq_iff]

/-- Two texts that are the same once redacted go up the same, if neither had to be clipped, or
both come to the same by it. -/
theorem clipRedact_congr (hsame : redactText log2 a = redactText log2 b) (huncut : Uncut a b) :
    clipRedact log2 a = clipRedact log2 b := by
  unfold clipRedact
  rcases huncut with ⟨ha, hb⟩ | hagree
  · rw [boundText_of_le ha, boundText_of_le hb, hsame]
  · rw [boundText_eq_iff.mpr hagree]

theorem map_clipRedact_congr {a b : Option String}
    (hsame : a.map (redactText log2) = b.map (redactText log2))
    (huncut : ∀ x ∈ a, ∀ y ∈ b, Uncut x y) :
    a.map (clipRedact log2) = b.map (clipRedact log2) := by
  cases a with
  | none => cases b <;> simp_all
  | some a =>
      cases b with
      | none => simp at hsame
      | some b =>
          have hclip := clipRedact_congr (Option.some.inj hsame) (huncut a rfl b rfl)
          simp [hclip]

theorem take_clipRedact_congr {a b : List String}
    (hsame : a.map (redactText log2) = b.map (redactText log2))
    (huncut : ∀ pair ∈ (a.zip b).take n, Uncut pair.1 pair.2) :
    (a.take n).map (clipRedact log2) = (b.take n).map (clipRedact log2) := by
  induction a generalizing b n with
  | nil =>
      obtain rfl : b = [] := by simpa using hsame.symm
      rfl
  | cons x a ih =>
      cases b with
      | nil => simp at hsame
      | cons y b =>
          cases n with
          | zero => rfl
          | succ n =>
              obtain ⟨hhead, htail⟩ := List.cons.inj hsame
              simp only [List.zip_cons_cons, List.take_succ_cons, List.forall_mem_cons] at huncut
              obtain ⟨hcut, hcuts⟩ := huncut
              simp only [List.take_succ_cons, List.map_cons]
              rw [clipRedact_congr hhead hcut, ih htail hcuts]

/-- The arguments that go up are read off the redacted ones. -/
theorem uploadArgs_congr {x y : Value}
    (hsame : Redact.redactValue log2 x = Redact.redactValue log2 y) :
    uploadArgs log2 x = uploadArgs log2 y := by
  have hread (v : Value) : uploadArgs log2 v = match Redact.redactValue log2 v with
      | .object fields => if fields.isEmpty then none else some fields
      | _ => none := by
    cases v with
    | object fields =>
        cases fields with
        | nil => rfl
        | cons field fields =>
            have hne : (Redact.redactFields log2 (field :: fields)).isEmpty = false := by
              simp [Redact.redactFields_eq_nil]
            simp [uploadArgs, Redact.redactValue, Value.asObject, hne]
    | _ => simp [uploadArgs, Redact.redactValue]
  rw [hread x, hread y, hsame]

/-! ### The records -/

/-- Two actions that are the same once redacted upload the same exactly when their open texts
agree. -/
theorem uploadedAction_eq_iff {a b : ActionEvent} (hsame : a.redactAll log2 = b.redactAll log2) :
    uploadedAction log2 a = uploadedAction log2 b ↔ OpenAgree a b := by
  have hevent : a.eventId = b.eventId := congrArg (fun event => event.eventId) hsame
  have hcorrelation : a.correlationId = b.correlationId :=
    congrArg (fun event => event.correlationId) hsame
  have hcausation : a.causationId = b.causationId := congrArg (fun event => event.causationId) hsame
  have hcycle : a.cycleId = b.cycleId := congrArg (fun event => event.cycleId) hsame
  have hplan : a.planId = b.planId := congrArg (fun event => event.planId) hsame
  have hargs : uploadArgs log2 a.args = uploadArgs log2 b.args :=
    uploadArgs_congr (congrArg (fun event => event.args) hsame)
  have hduration : a.durationMs = b.durationMs := congrArg (fun event => event.durationMs) hsame
  have hvalidation : a.validation.map (Redact.redactValue log2) =
      b.validation.map (Redact.redactValue log2) := congrArg (fun event => event.validation) hsame
  have hoccurred : a.occurredAt = b.occurredAt := congrArg (fun event => event.occurredAt) hsame
  simp only [uploadedAction, actionPayload, Option.some.injEq, ActionEventPayload.mk.injEq, hevent,
    hcorrelation, hcausation, hcycle, hplan, hargs, hduration, hvalidation, hoccurred,
    boundText_eq_iff, map_boundText_eq_iff, true_and, and_true]
  constructor
  · intro h
    obtain ⟨hkind, htarget, hverdict, hpolicy, houtcome⟩ := h
    exact ⟨hkind, htarget, hverdict, hpolicy, houtcome⟩
  · intro h
    obtain ⟨hkind, htarget, hverdict, hpolicy, houtcome⟩ := h
    exact ⟨hkind, htarget, hverdict, hpolicy, houtcome⟩

/-- Two traces that are the same once redacted upload the same if no text had to be clipped. -/
theorem tracePayload_congr {a b : BrainTraceRecord} (hsame : a.redactAll log2 = b.redactAll log2)
    (huncut : TextsUncut a b) : tracePayload log2 a = tracePayload log2 b := by
  have htrace : a.traceId = b.traceId := congrArg (fun trace => trace.traceId) hsame
  have hcycle : a.cycleId = b.cycleId := congrArg (fun trace => trace.cycleId) hsame
  have hplan : a.planId = b.planId := congrArg (fun trace => trace.planId) hsame
  have hoccurred : a.occurredAt = b.occurredAt := congrArg (fun trace => trace.occurredAt) hsame
  have hevidence := take_clipRedact_congr (congrArg BrainTraceRecord.evidence hsame)
    huncut.evidence
  have hdecision := map_clipRedact_congr (congrArg BrainTraceRecord.decision hsame)
    huncut.decision
  have hobjective := map_clipRedact_congr (congrArg BrainTraceRecord.objective hsame)
    huncut.objective
  have hsteps := take_clipRedact_congr (congrArg BrainTraceRecord.steps hsame) huncut.steps
  have houtcome := map_clipRedact_congr (congrArg BrainTraceRecord.outcome hsame) huncut.outcome
  simp only [tracePayload, htrace, hcycle, hplan, hoccurred, hevidence, hdecision, hobjective,
    hsteps, houtcome]

variable (log2) in
/-- Of two records that are the same once redacted in full, the actions upload the same exactly
when the texts that go up as they are agree, and the traces do if no text had to be clipped. -/
theorem uploads_redacted :
    (∀ a b : ActionEvent, a.redactAll log2 = b.redactAll log2 →
      (uploadedAction log2 a = uploadedAction log2 b ↔ OpenAgree a b)) ∧
    ∀ a b : BrainTraceRecord, a.redactAll log2 = b.redactAll log2 → TextsUncut a b →
      tracePayload log2 a = tracePayload log2 b :=
  ⟨fun _ _ => uploadedAction_eq_iff, fun _ _ => tracePayload_congr⟩

/-! ### Two secrets -/

/-- A logarithm that is exact at the powers of two, which are all it is asked for here. -/
def floorLog2 (q : ℚ) : ℚ := Int.log 2 q

/-- A restart whose arguments hold a secret. -/
def restartWith (secret : String) : ActionEvent :=
  { CycleLedger.restartOf 7 with
    args := .object [("unit", .string "web.service"), ("DEPLOY_TOKEN", .string secret)] }

/-- A restart whose target holds a secret. -/
def restartTargeting (secret : List Char) : ActionEvent :=
  { CycleLedger.restartOf 7 with target := some (.ofList ("TOKEN=".toList ++ secret)) }

/-- A trace with one line of evidence. -/
def traceOf (line : List Char) : BrainTraceRecord where
  traceId := 1
  cycleId := none
  planId := none
  evidence := [.ofList line]
  decision := none
  objective := none
  steps := []
  outcome := none
  occurredAt := ⟨0⟩

theorem redactText_ofList {x y : List Char}
    (h : Redact.redactChars log2 x = Redact.redactChars log2 y) :
    redactText log2 (.ofList x) = redactText log2 (.ofList y) := by
  simp only [redactText, String.toList_ofList, h]

theorem redactAll_traceOf {x y : List Char}
    (h : Redact.redactChars log2 x = Redact.redactChars log2 y) :
    (traceOf x).redactAll log2 = (traceOf y).redactAll log2 := by
  simp only [traceOf, BrainTraceRecord.redactAll, List.map_cons, redactText_ofList h]

/-- A short credential, which only the assignment it stands in gives away. -/
theorem redactChars_assignment :
    Redact.redactChars floorLog2 ("TOKEN=".toList ++ "abc".toList) =
      Redact.redactChars floorLog2 ("TOKEN=".toList ++ "xyz".toList) := by
  rw [Redact.redactChars, Redact.redactAuthorizationHeaders_of_headless (by decide),
    Redact.redactChars, Redact.redactAuthorizationHeaders_of_headless (by decide)]
  decide

/-- Secrets in the arguments, and in a short line, stay below. -/
theorem uploads_redacted_pair :
    uploadedAction floorLog2 (restartWith "one") = uploadedAction floorLog2 (restartWith "two") ∧
      tracePayload floorLog2 (traceOf ("TOKEN=".toList ++ "abc".toList)) =
        tracePayload floorLog2 (traceOf ("TOKEN=".toList ++ "xyz".toList)) := by
  have hsecret : Redact.isSecretKey "DEPLOY_TOKEN".toList = true := by decide
  have hactions : (restartWith "one").redactAll floorLog2 =
      (restartWith "two").redactAll floorLog2 := by
    simp only [restartWith, ActionEvent.redactAll, Redact.redactValue, Redact.redactFields, hsecret,
      if_true]
  have huncut : TextsUncut (traceOf ("TOKEN=".toList ++ "abc".toList))
      (traceOf ("TOKEN=".toList ++ "xyz".toList)) := by
    refine ⟨?_, ?_, ?_, ?_, ?_⟩
    · rintro _ (_ | ⟨_, _, ⟨⟩⟩)
      exact .inl (by decide)
    all_goals
      intro _ h
      cases h
  exact ⟨((uploads_redacted floorLog2).1 _ _ hactions).mpr ⟨rfl, rfl, rfl, trivial, rfl⟩,
    (uploads_redacted floorLog2).2 _ _ (redactAll_traceOf redactChars_assignment) huncut⟩

/-- A line whose secret lies across the bound, with `k` characters before it. -/
def crossing (k : Nat) (secret : List Char) : List Char :=
  List.replicate (maxLedgerTextLen - k) ' ' ++ secret

/-- Fewer characters than a run has are no run, whatever they are of: two credentials that are
redacted in full go up with what lies before the bound. -/
theorem tracePayload_crossing {k : Nat} {s t : List Char} (hk : k < Redact.entropyRunMin)
    (hs : Redact.Plain s) (ht : Redact.Plain t)
    (hsecret : Redact.flushRun log2 s = Redact.flushRun log2 t) (hdiffer : s.take k ≠ t.take k) :
    (traceOf (crossing k s)).redactAll log2 = (traceOf (crossing k t)).redactAll log2 ∧
      tracePayload log2 (traceOf (crossing k s)) ≠ tracePayload log2 (traceOf (crossing k t)) := by
  have hclip (secret : List Char) : (crossing k secret).take maxLedgerTextLen =
      List.replicate (maxLedgerTextLen - k) ' ' ++ secret.take k := by
    have hbound : maxLedgerTextLen - (maxLedgerTextLen - k) = k := by
      simp only [maxLedgerTextLen, Redact.entropyRunMin] at hk ⊢
      omega
    rw [crossing, List.take_append, List.length_replicate, hbound, List.take_of_length_le (by simp)]
  have hshort (secret : List Char) : Redact.flushRun log2 (secret.take k) = secret.take k := by
    refine if_neg fun hrun => ?_
    have hlength := hrun.1
    rw [List.length_take] at hlength
    omega
  constructor
  · exact redactAll_traceOf (by rw [crossing, crossing, Redact.redactChars_padded hs,
      Redact.redactChars_padded ht, hsecret])
  · intro h
    have hevidence := congrArg BrainTracePayload.evidence (Option.some.inj h)
    have hline : clipRedact log2 (.ofList (crossing k s)) =
        clipRedact log2 (.ofList (crossing k t)) := (List.cons.inj hevidence).1
    have hchars : Redact.redactChars log2 ((crossing k s).take maxLedgerTextLen) =
        Redact.redactChars log2 ((crossing k t).take maxLedgerTextLen) := by
      simpa [clipRedact, redactText, boundText] using congrArg String.toList hline
    rw [hclip, hclip, Redact.redactChars_padded hs.take, Redact.redactChars_padded ht.take,
      hshort, hshort] at hchars
    exact hdiffer (List.append_cancel_left hchars)

/-- A credential of 32 characters, all different. -/
def credential : List Char := "abcdefghijklmnopqrstuvwxyzABCDEF".toList

theorem plain_credential : Redact.Plain credential :=
  Redact.plain_of_all (by decide) (by decide)

theorem plain_reverse : Redact.Plain credential.reverse :=
  Redact.plain_of_all (by decide) (by decide)

/-- A target goes up as it is, and so do the first characters of a credential that is clipped. -/
theorem uploads_not_redacted :
    (∃ a b : ActionEvent, a.redactAll floorLog2 = b.redactAll floorLog2 ∧
      uploadedAction floorLog2 a ≠ uploadedAction floorLog2 b) ∧
    ∃ a b : BrainTraceRecord, a.redactAll floorLog2 = b.redactAll floorLog2 ∧
      tracePayload floorLog2 a ≠ tracePayload floorLog2 b := by
  constructor
  · have hsame : (restartTargeting "abc".toList).redactAll floorLog2 =
        (restartTargeting "xyz".toList).redactAll floorLog2 := by
      simp only [restartTargeting, ActionEvent.redactAll, Option.map_some,
        redactText_ofList redactChars_assignment]
    refine ⟨_, _, hsame, fun h => ?_⟩
    have htarget : AgreeUpTo maxLedgerTextLen (.ofList ("TOKEN=".toList ++ "abc".toList))
        (.ofList ("TOKEN=".toList ++ "xyz".toList)) := ((uploadedAction_eq_iff hsame).mp h).target
    rw [AgreeUpTo, String.toList_ofList, String.toList_ofList] at htarget
    exact absurd htarget (by decide)
  · exact ⟨_, _, tracePayload_crossing (k := 10) (by decide) plain_credential plain_reverse
      (by decide +kernel) (by decide +kernel)⟩

end Argus
