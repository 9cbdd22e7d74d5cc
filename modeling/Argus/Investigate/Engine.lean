import Argus.Domain.Value
import Argus.Lib.Selection

/-!
# The investigation engine

A generator proposes hypotheses; the engine sets against each one the evidence that names its
statement, drops those that some evidence contradicts, and takes the strongest of the others as
the root cause. Whether any evidence speaks for it is recorded, but plays no part in the choice.
-/

namespace Argus.Investigate

open Ieee (Datum)
open Selection (maxBy Leads)

inductive HypothesisStatus
  | proposed
  | supported
  | contradicted
  | eliminated
  | confirmed
  deriving DecidableEq

/-- A candidate explanation, with the evidence for and against it. -/
structure Hypothesis where
  id : Uuid
  statement : String
  confidence : Datum
  status : HypothesisStatus
  supporting : List String
  contradicting : List String

/-- A piece of evidence, with the statements it supports or contradicts. -/
structure Evidence where
  description : String
  supports : List String
  contradicts : List String

structure Investigation where
  incidentId : Uuid
  hypotheses : List Hypothesis
  rootCause : Option String
  uncertainty : List String
  remediation : List String

/-- The generator is the one step that is not deterministic: any function of the evidence. -/
structure InvestigationEngine where
  generator : List Evidence → List Hypothesis
  minConfidence : Datum

/-- Step 2 for one hypothesis: what it came with is overwritten. -/
def annotate (evidence : List Evidence) (hypothesis : Hypothesis) : Hypothesis :=
  let supporting := (evidence.filter fun item =>
    item.supports.any fun s => s == hypothesis.statement).map Evidence.description
  let contradicting := (evidence.filter fun item =>
    item.contradicts.any fun s => s == hypothesis.statement).map Evidence.description
  { hypothesis with
    supporting := supporting
    contradicting := contradicting
    status :=
      if !contradicting.isEmpty then .eliminated
      else if !supporting.isEmpty then .supported
      else .proposed }

/-- `Ordering::Greater` of the comparison: confidences that cannot be compared count as equal. -/
def stronger (a b : Hypothesis) : Bool := b.confidence.lt a.confidence

/-- The strongest non-eliminated hypothesis. -/
def best (hypotheses : List Hypothesis) : Option Hypothesis :=
  maxBy stronger (hypotheses.filter fun h => h.status != .eliminated)

/-- Step 3: the root cause and the uncertainty. `show2` writes a confidence with two decimals. -/
def conclude (show2 : Datum → String) (minConfidence : Datum) :
    Option Hypothesis → Option String × List String
  | some best =>
      if best.confidence.ge minConfidence then (some best.statement, [])
      else (none,
        [s!"best hypothesis '{best.statement}' has confidence {show2 best.confidence} " ++
          s!"below threshold {show2 minConfidence}"])
  | none => (none, ["all hypotheses were eliminated by the evidence"])

def InvestigationEngine.investigate (show2 : Datum → String) (engine : InvestigationEngine)
    (incidentId : Uuid) (evidence : List Evidence) : Investigation :=
  let hypotheses := (engine.generator evidence).map (annotate evidence)
  let conclusion := conclude show2 engine.minConfidence (best hypotheses)
  { incidentId
    hypotheses
    rootCause := conclusion.1
    uncertainty := conclusion.2
    remediation := if conclusion.1.isSome then ["host.service.restart"] else [] }

/-- Some evidence supports the statement. -/
def Supported (evidence : List Evidence) (statement : String) : Prop :=
  ∃ item ∈ evidence, statement ∈ item.supports

/-- Some evidence contradicts the statement. -/
def Contradicted (evidence : List Evidence) (statement : String) : Prop :=
  ∃ item ∈ evidence, statement ∈ item.contradicts

instance (evidence : List Evidence) (statement : String) :
    Decidable (Contradicted evidence statement) :=
  inferInstanceAs (Decidable (∃ item ∈ evidence, statement ∈ item.contradicts))

/-- A generated hypothesis that could be named: evidence supports it, none contradicts it, and
its confidence reaches the threshold. -/
structure Backed (engine : InvestigationEngine) (evidence : List Evidence) (h : Hypothesis) :
    Prop where
  generated : h ∈ engine.generator evidence
  supported : Supported evidence h.statement
  uncontradicted : ¬ Contradicted evidence h.statement
  confident : h.confidence.ge engine.minConfidence

/-- A root cause is backed by evidence, and without one there is no remediation, but a word on
what is uncertain. -/
structure BackedByEvidence (engine : InvestigationEngine) (evidence : List Evidence)
    (result : Investigation) : Prop where
  named : ∀ cause, result.rootCause = some cause →
    ∃ h, Backed engine evidence h ∧ h.statement = cause ∧
      ∀ h', Backed engine evidence h' → h.confidence.lt h'.confidence = false
  unnamed : result.rootCause = none → result.remediation = [] ∧ result.uncertainty ≠ []

/-- The generated hypotheses that no evidence contradicts. -/
def uncontradicted (engine : InvestigationEngine) (evidence : List Evidence) : List Hypothesis :=
  (engine.generator evidence).filter fun h => !decide (Contradicted evidence h.statement)

/-- The strongest hypothesis that nothing contradicts, if it reaches the threshold, has evidence
for it, and its statement is not behind that of another one with evidence. Only a confidence
that is not a number can put it behind. -/
def StrongestSupported (engine : InvestigationEngine) (evidence : List Evidence) : Prop :=
  ∀ h, Leads stronger (uncontradicted engine evidence) h →
    h.confidence.ge engine.minConfidence →
      Supported evidence h.statement ∧
        ∃ h' ∈ engine.generator evidence, h'.statement = h.statement ∧
          ∀ g, Backed engine evidence g → h'.confidence.ge g.confidence

variable {show2 : Datum → String} {engine : InvestigationEngine} {incidentId : Uuid}
  {evidence : List Evidence} {h g : Hypothesis} {cause : String}

/-! ### Testing the hypotheses -/

/-- A status after the test says which evidence there is. -/
theorem annotate_eliminated_iff :
    (annotate evidence h).status = .eliminated ↔ Contradicted evidence h.statement := by
  have hcontra : (evidence.filter fun item => item.contradicts.any fun s => s == h.statement)
      ≠ [] ↔ Contradicted evidence h.statement := by
    simp [Contradicted, List.filter_eq_nil_iff]
  rw [← hcontra]
  simp only [annotate, List.isEmpty_map, Bool.not_eq_true', List.isEmpty_eq_false_iff]
  split_ifs <;> simp_all

theorem annotate_supported_iff : (annotate evidence h).status = .supported ↔
    Supported evidence h.statement ∧ ¬ Contradicted evidence h.statement := by
  have hsupp : (evidence.filter fun item => item.supports.any fun s => s == h.statement)
      ≠ [] ↔ Supported evidence h.statement := by
    simp [Supported, List.filter_eq_nil_iff]
  rw [← hsupp, ← annotate_eliminated_iff]
  simp only [annotate, List.isEmpty_map, Bool.not_eq_true', List.isEmpty_eq_false_iff]
  split_ifs <;> simp_all

/-! ### Choosing the strongest -/

theorem stronger_trans (a b c : Hypothesis) (hab : stronger a b) (hbc : stronger b c) :
    stronger a c :=
  Datum.lt_trans hbc hab

theorem stronger_asymm (a b : Hypothesis) (hab : stronger a b) : stronger b a = false := by
  simp only [stronger, Datum.lt, Bool.and_eq_true, Bool.not_eq_true'] at hab ⊢
  simp [hab.2]

/-- The test changes nothing that the comparison reads. -/
theorem best_map_annotate :
    best ((engine.generator evidence).map (annotate evidence)) =
      (maxBy stronger (uncontradicted engine evidence)).map (annotate evidence) := by
  have hfilter : ((engine.generator evidence).map (annotate evidence)).filter
      (fun h => h.status != .eliminated) =
        (uncontradicted engine evidence).map (annotate evidence) := by
    rw [List.filter_map]
    congr 1
    refine List.filter_congr fun h _ => ?_
    simp only [← annotate_eliminated_iff]
    rfl
  rw [best, hfilter, Selection.maxBy_map]
  rfl

theorem conclude_named_iff {minConfidence : Datum} {choice : Option Hypothesis} :
    (conclude show2 minConfidence choice).1 = some cause ↔
      ∃ h, choice = some h ∧ h.confidence.ge minConfidence ∧ h.statement = cause := by
  cases choice with
  | none => simp [conclude]
  | some h => by_cases hge : h.confidence.ge minConfidence = true <;> simp [conclude, hge]

theorem conclude_uncertain {minConfidence : Datum} {choice : Option Hypothesis}
    (hnone : (conclude show2 minConfidence choice).1 = none) :
    (conclude show2 minConfidence choice).2 ≠ [] := by
  cases choice with
  | none => exact List.cons_ne_nil _ _
  | some h =>
      by_cases hge : h.confidence.ge minConfidence = true
      · simp [conclude, hge] at hnone
      · simp only [conclude, if_neg hge]
        exact List.cons_ne_nil _ _

/-- The root cause is the statement of the hypothesis that leads, if that reaches the
threshold. -/
theorem rootCause_eq_some_iff :
    (engine.investigate show2 incidentId evidence).rootCause = some cause ↔
      ∃ h, Leads stronger (uncontradicted engine evidence) h ∧
        h.confidence.ge engine.minConfidence ∧ h.statement = cause := by
  show (conclude show2 engine.minConfidence (best _)).1 = some cause ↔ _
  rw [conclude_named_iff, best_map_annotate]
  simp only [Option.map_eq_some_iff, Selection.maxBy_eq_some_iff stronger_trans]
  constructor
  · rintro ⟨_, ⟨h, hleads, rfl⟩, hge, hcause⟩
    exact ⟨h, hleads, hge, hcause⟩
  · rintro ⟨h, hleads, hge, hcause⟩
    exact ⟨annotate evidence h, ⟨h, hleads, rfl⟩, hge, hcause⟩

theorem remediation_eq : (engine.investigate show2 incidentId evidence).remediation =
    if (engine.investigate show2 incidentId evidence).rootCause.isSome
    then ["host.service.restart"] else [] := rfl

theorem uncertain_of_unnamed
    (hnone : (engine.investigate show2 incidentId evidence).rootCause = none) :
    (engine.investigate show2 incidentId evidence).remediation = [] ∧
      (engine.investigate show2 incidentId evidence).uncertainty ≠ [] := by
  refine ⟨?_, conclude_uncertain hnone⟩
  rw [remediation_eq, hnone]
  rfl

theorem mem_uncontradicted : h ∈ uncontradicted engine evidence ↔
    h ∈ engine.generator evidence ∧ ¬ Contradicted evidence h.statement := by
  simp [uncontradicted]

/-! ### When the root cause is backed -/

/-- Where every confidence is a number, the hypothesis that leads is as strong as any. -/
theorem ge_of_leads (hnan : ∀ h ∈ engine.generator evidence, h.confidence ≠ .nan)
    (hleads : Leads stronger (uncontradicted engine evidence) h)
    (hg : g ∈ uncontradicted engine evidence) : h.confidence.ge g.confidence := by
  have hnum : ∀ x ∈ uncontradicted engine evidence, x.confidence ≠ .nan :=
    fun x hx => hnan x (mem_uncontradicted.mp hx).1
  have hties : ∀ a ∈ uncontradicted engine evidence, ∀ b ∈ uncontradicted engine evidence,
      ∀ c ∈ uncontradicted engine evidence, stronger a c → stronger a b ∨ stronger b c := by
    intro a ha b hb c hc hac
    by_contra hneither
    simp only [stronger, not_or, Bool.not_eq_true] at hneither
    have hba := (Datum.lt_eq_false_iff (hnum b hb) (hnum a ha)).mp hneither.1
    have hcb := (Datum.lt_eq_false_iff (hnum c hc) (hnum b hb)).mp hneither.2
    have hca := (Datum.lt_eq_false_iff (hnum c hc) (hnum a ha)).mpr (Datum.ge_trans hcb hba)
    simp [stronger, hca] at hac
  have hnot := hleads.not_gt stronger_asymm hties hg
  exact (Datum.lt_eq_false_iff (hnum h hleads.mem) (hnum g hg)).mp hnot

/-- Where every confidence is a number, it comes down to evidence for the hypothesis that
leads. -/
theorem strongestSupported_iff (hnan : ∀ h ∈ engine.generator evidence, h.confidence ≠ .nan) :
    StrongestSupported engine evidence ↔
      ∀ h, Leads stronger (uncontradicted engine evidence) h →
        h.confidence.ge engine.minConfidence → Supported evidence h.statement := by
  refine ⟨fun hstrongest h hleads hge => (hstrongest h hleads hge).1, fun hsupp h hleads hge => ?_⟩
  refine ⟨hsupp h hleads hge, h, (mem_uncontradicted.mp hleads.mem).1, rfl, fun g hg => ?_⟩
  exact ge_of_leads hnan hleads (mem_uncontradicted.mpr ⟨hg.generated, hg.uncontradicted⟩)

/-- The engine names a root cause that is not backed by evidence exactly where the strongest
hypothesis that nothing contradicts has none. -/
theorem investigate_backed_iff (show2 : Datum → String) (engine : InvestigationEngine)
    (incidentId : Uuid) (evidence : List Evidence) :
    BackedByEvidence engine evidence (engine.investigate show2 incidentId evidence) ↔
      StrongestSupported engine evidence := by
  constructor
  · intro hbacked h hleads hge
    obtain ⟨h', hh', hstatement, hmax⟩ :=
      hbacked.named h.statement (rootCause_eq_some_iff.mpr ⟨h, hleads, hge, rfl⟩)
    refine ⟨hstatement ▸ hh'.supported, h', hh'.generated, hstatement, fun g hg => ?_⟩
    have hnum := (Datum.ne_nan_of_ge hh'.confident).1
    exact (Datum.lt_eq_false_iff hnum (Datum.ne_nan_of_ge hg.confident).1).mp (hmax g hg)
  · intro hstrongest
    refine ⟨fun cause hcause => ?_, uncertain_of_unnamed⟩
    obtain ⟨h, hleads, hge, rfl⟩ := rootCause_eq_some_iff.mp hcause
    obtain ⟨hsupp, h', hmem, hstatement, hmax⟩ := hstrongest h hleads hge
    have hgen := mem_uncontradicted.mp hleads.mem
    have hh := hmax h ⟨hgen.1, hsupp, hgen.2, hge⟩
    refine ⟨h', ⟨hmem, hstatement ▸ hsupp, hstatement ▸ hgen.2, Datum.ge_trans hh hge⟩,
      hstatement, fun g hg => ?_⟩
    have hnum := (Datum.ne_nan_of_ge hh).1
    exact (Datum.lt_eq_false_iff hnum (Datum.ne_nan_of_ge hg.confident).1).mpr (hmax g hg)

/-- One hypothesis at 0.9, and no evidence at all. -/
def untested : InvestigationEngine where
  generator _ := [⟨1, "bad cable", .finite (9 / 10), .proposed, [], []⟩]
  minConfidence := .finite (1 / 2)

/-- A guess that nothing speaks for is the root cause, and a restart is proposed. -/
theorem untested_named :
    (untested.investigate (fun _ => "") 0 []).rootCause = some "bad cable" ∧
      (untested.investigate (fun _ => "") 0 []).remediation = ["host.service.restart"] ∧
      ¬ BackedByEvidence untested [] (untested.investigate (fun _ => "") 0 []) := by
  have hnamed : (untested.investigate (fun _ => "") 0 []).rootCause = some "bad cable" :=
    rootCause_eq_some_iff.mpr
      ⟨_, ⟨[], [], rfl, by simp, by simp⟩, by norm_num [untested, Datum.ge], rfl⟩
  refine ⟨hnamed, by rw [remediation_eq, hnamed]; rfl, fun hbacked => ?_⟩
  obtain ⟨h, hh, -⟩ := hbacked.named _ hnamed
  obtain ⟨item, hitem, -⟩ := hh.supported
  cases hitem

end Argus.Investigate
