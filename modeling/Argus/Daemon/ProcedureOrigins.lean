import Argus.Daemon.Procedures

/-!
# The origin of a plan

What an event of the brain can do to the plans in progress, what a call on the manager can do to
the runbook of a name, and from both: a plan in progress carries the name of its origin, and the
library's runbook of that name is the origin until a delivery supersedes it.
-/

namespace Argus

open Ieee

/-! ### The plans of the brain -/

theorem runbook_of_planFromReply {evidence : ContextBuilder} {threshold : Datum}
    {reply : Except DecisionError DecisionResponse} {plan : Plan}
    (h : planFromReply evidence threshold reply = .ok (some plan)) : plan.runbook = none := by
  unfold planFromReply at h
  cases houtcome : decideOutcomeWith reply threshold with
  | error e =>
      rw [houtcome] at h
      cases h
  | ok outcome =>
      rw [houtcome] at h
      cases outcome with
      | noDecision why => cases h
      | decided response =>
          simp only [bind, Except.bind] at h
          cases haction : remediationAction response evidence.intoState with
          | none =>
              simp only [haction] at h
              cases h
          | some action =>
              simp only [haction] at h
              have hplan := Except.ok.inj h
              unfold proposePlan at hplan
              dsimp only at hplan
              by_cases hlow : (aggregateConfidence response).lt threshold = true
              · rw [if_pos hlow] at hplan
                cases hplan
              · rw [if_neg hlow] at hplan
                obtain rfl := Option.some.inj hplan
                rfl

theorem name_of_procedurePlan {runbook : Runbook} {s : Situation}
    {descriptors : List CapabilityDescriptor} {plan : Plan}
    (h : procedurePlan runbook s descriptors = some plan) : plan.runbook = some runbook.name := by
  unfold procedurePlan at h
  dsimp only at h
  split at h
  · cases h
  · cases h
    rfl

namespace Brain

variable {toJson : Value → String} {config : SituationsConfig} {b : Brain}

/-- An event moves an attempt on with its plan, or to a plan of the provider. -/
theorem Moved.plan_or {a : Attempt} {e : CycleEvent} {phase : Phase} {keys : List String}
    {plan : Plan} (h : Moved a e phase keys) (hplan : phase.plan = some plan) :
    a.phase.plan = some plan ∨ plan.runbook = none := by
  cases h with
  | planned hp hr =>
      obtain rfl := Option.some.inj hplan
      exact .inr (runbook_of_planFromReply hr)
  | paused hp =>
      rw [hp]
      exact .inl hplan
  | granted hp =>
      rw [hp]
      exact .inl hplan
  | _ => cases hplan

/-- What an event can do to the attempts. -/
inductive Acted (b : Brain) (e : CycleEvent) : List Attempt → Prop
  | same : Acted b e b.attempts
  | procedure {i runbooks descriptors cycle s runbook plan a}
      (he : e = .consider i runbooks descriptors) (hc : b.considers i = some (cycle, s))
      (hr : promotedRunbook runbooks s.signature = some runbook)
      (hp : procedurePlan runbook s descriptors = some plan) (ha : a.phase = .running plan) :
      Acted b e (b.attempts ++ [a])
  | asked {i provider a} (he : e = .request i provider) (ha : a.phase = .deciding) :
      Acted b e (b.attempts ++ [a])
  | advanced {id a phase keys} (hid : e.attempt = some id) (ha : b.attempts[id]? = some a)
      (hm : Moved a e phase keys) : Acted b e (b.attempts.set id { a with phase })

theorem consider_acted {i : Nat} {runbooks : List Runbook}
    {descriptors : List CapabilityDescriptor} :
    Acted b (.consider i runbooks descriptors)
      (b.consider toJson i runbooks descriptors).attempts := by
  unfold consider
  cases hc : b.considers i with
  | none => exact .same
  | some taken =>
      obtain ⟨cycle, s⟩ := taken
      dsimp only
      cases hr : promotedRunbook runbooks s.signature with
      | none => exact .same
      | some runbook =>
          unfold proposeProcedure
          dsimp only
          rcases hd : b.dedup.claim (situationDedupKey toJson s) b.attempts.length with ⟨granted, d⟩
          cases granted with
          | false => exact .same
          | true =>
              dsimp only
              cases hp : procedurePlan runbook s descriptors with
              | none => exact .same
              | some plan => exact .procedure rfl hc hr hp rfl

theorem request_acted {i : Nat} {provider : Bool} :
    Acted b (.request i provider) (b.request toJson i provider).attempts := by
  unfold request
  cases hc : b.requests i with
  | none => exact .same
  | some cycle =>
      cases provider with
      | false => exact .same
      | true =>
          dsimp only
          rw [if_pos rfl]
          rcases b.dedup.claim (situationSetKey cycle.situations) b.attempts.length with
            ⟨granted, d⟩
          cases granted with
          | false => exact .same
          | true =>
              dsimp only
              rcases d.claim (observationDedupKey toJson (mergedEvidence cycle.situations))
                b.attempts.length with ⟨granted', d'⟩
              cases granted' with
              | false => exact .same
              | true => exact .asked rfl rfl

theorem advance_acted {id : Nat} {e : CycleEvent} (hid : e.attempt = some id) :
    Acted b e (b.advance id e).attempts := by
  unfold advance
  cases ha : b.attempts[id]? with
  | none => exact .same
  | some a =>
      dsimp only
      cases hm : after a e with
      | none => exact .same
      | some moved => exact .advanced hid ha (moved_of_after hm)

theorem step_acted {e : CycleEvent} : Acted b e (b.step toJson config e).attempts := by
  cases e with
  | collect sensors threshold =>
      rw [collect_attempts]
      exact .same
  | consider i runbooks descriptors => exact consider_acted
  | request i provider => exact request_acted
  | reply id reply => exact advance_acted rfl
  | ran id outcome => exact advance_acted rfl
  | grant id => exact advance_acted rfl
  | resumed id outcome => exact advance_acted rfl
  | deny id => exact advance_acted rfl

/-- The plan an event reports is the one of its attempt. -/
theorem attempt_of_reports {e : CycleEvent} {plan : Plan} {report : ExecutionOutcome}
    (h : b.reports e = some (plan, report)) :
    ∃ id a, e.attempt = some id ∧ b.attempts[id]? = some a ∧ a.phase.plan = some plan := by
  have hphase {id : Nat} {phase : Phase} (h : (b.attempts[id]?).map Attempt.phase = some phase)
      (hplan : phase.plan = some plan) :
      ∃ a, b.attempts[id]? = some a ∧ a.phase.plan = some plan := by
    obtain ⟨a, ha, rfl⟩ := Option.map_eq_some_iff.mp h
    exact ⟨a, ha, hplan⟩
  cases e with
  | ran id run | resumed id run =>
      cases run with
      | finished outcome =>
          simp only [reports] at h
          split at h
          next plan' hreported =>
            obtain rfl : plan' = plan := congrArg Prod.fst (Option.some.inj h)
            exact ⟨id, (hphase hreported rfl).imp fun _ ha => ⟨rfl, ha⟩⟩
          next => cases h
      | _ => cases h
  | _ => cases h

end Brain

/-! ### The runbooks of the manager -/

namespace RunbookManager

variable {m m' m'' : RunbookManager} {name : String}

/-- What the calls other than deliveries keep. -/
structure Carried (m m' : RunbookManager) : Prop where
  minted : m'.minted = m.minted
  trace : ∀ entry ∈ m.trace, entry ∈ m'.trace
  onward : ∀ name r, m.library.byName name = some r →
    ∃ r', m'.library.byName name = some r' ∧ r'.id = r.id
  back : ∀ r' ∈ m'.library.runbooks, ∃ r ∈ m.library.runbooks,
    r.id = r'.id ∧ (r.status = .promoted → r'.status = .promoted)

theorem Carried.refl (m : RunbookManager) : Carried m m :=
  ⟨rfl, fun _ h => h, fun _ r h => ⟨r, h, rfl⟩, fun r h => ⟨r, h, rfl, fun hp => hp⟩⟩

theorem Carried.trans (h : Carried m m') (h' : Carried m' m'') : Carried m m'' where
  minted := h'.minted.trans h.minted
  trace := fun entry he => h'.trace entry (h.trace entry he)
  onward := fun name r hr => by
    obtain ⟨r', hr', hid⟩ := h.onward name r hr
    obtain ⟨r'', hr'', hid'⟩ := h'.onward name r' hr'
    exact ⟨r'', hr'', hid'.trans hid⟩
  back := fun r'' hr'' => by
    obtain ⟨r', hr', hid', hstatus'⟩ := h'.back r'' hr''
    obtain ⟨r, hr, hid, hstatus⟩ := h.back r' hr'
    exact ⟨r, hr, hid.trans hid', fun hp => hstatus' (hstatus hp)⟩

theorem persist_library (m : RunbookManager) (name : String) :
    (m.persist name).library = m.library ∧ (m.persist name).trace = m.trace ∧
      (m.persist name).minted = m.minted := by
  unfold persist
  cases m.library.byName name with
  | none => exact ⟨rfl, rfl, rfl⟩
  | some r => cases m.record name <;> exact ⟨rfl, rfl, rfl⟩

/-- A runbook moves under its identity and its name, and is not demoted. -/
def Advances (r r' : LibraryRunbook) : Prop :=
  r'.id = r.id ∧ r'.name = r.name ∧ (r.status = .promoted → r'.status = .promoted)

variable {R : LibraryRunbook → LibraryRunbook → List LadderNote → Prop}

/-- What the library has of each name after the runbook of one moved. -/
theorem Works.byName (h : m.Works name R m') (hR : ∀ r r' notes, R r r' notes → Advances r r') :
    m' = m ∨ ∃ r r' notes, m.library.byName name = some r ∧ R r r' notes ∧
      m' = (m.move r' notes).persist name ∧
      ∀ other, m'.library.byName other =
        if name = other then some r' else m.library.byName other := by
  cases h with
  | idle => exact .inl rfl
  | moved r r' notes hr hr' =>
      obtain ⟨hid, hname, -⟩ := hR r r' notes hr'
      refine .inr ⟨r, r', notes, hr, hr', rfl, fun other => ?_⟩
      rw [(persist_library _ _).1]
      exact byName_move hr hid hname

theorem Works.carried (h : m.Works name R m') (hR : ∀ r r' notes, R r r' notes → Advances r r') :
    Carried m m' := by
  rcases h.byName hR with rfl | ⟨r, r', notes, hr, hr', rfl, hread⟩
  · exact .refl _
  obtain ⟨hid, hname, hstatus⟩ := hR r r' notes hr'
  obtain ⟨-, htrace, hminted⟩ := (m.move r' notes).persist_library name
  refine ⟨hminted, fun entry he => htrace ▸ List.mem_append_left _ he, fun other x hx => ?_,
    fun x hx => ?_⟩
  · rw [hread]
    by_cases heq : name = other
    · subst heq
      obtain rfl : r = x := Option.some.inj (hr.symm.trans hx)
      exact ⟨r', if_pos rfl, hid⟩
    · exact ⟨x, (if_neg heq).trans hx, rfl⟩
  · have hnamed := RunbookLibrary.byName_name hx
    rw [hread] at hnamed
    by_cases heq : name = x.name
    · rw [if_pos heq] at hnamed
      obtain rfl := Option.some.inj hnamed
      exact ⟨r, RunbookLibrary.mem_of_byName hr, hid.symm, hstatus⟩
    · rw [if_neg heq] at hnamed
      exact ⟨x, RunbookLibrary.mem_of_byName hnamed, rfl, fun hp => hp⟩

theorem advances_of_recordGate {r r' : LibraryRunbook} {gate : Gate}
    (h : r.recordGate gate = .ok r') : Advances r r' := by
  obtain ⟨-, rfl⟩ := LibraryRunbook.recordGate_eq_ok_iff.mp h
  exact ⟨rfl, rfl, fun hp => hp⟩

theorem advances_of_apply {r r' : LibraryRunbook} {decision : Decision}
    (h : decision.apply r = .ok r') : Advances r r' := by
  have hclimbs := Decision.climbs h
  refine ⟨hclimbs.id, hclimbs.name, fun hp => ?_⟩
  cases decision with
  | approve => simp [Decision.apply, LibraryRunbook.approve, hp] at h
  | promote => simp [Decision.apply, LibraryRunbook.promote, hp] at h

theorem works_recordOutcome (m : RunbookManager) (name : String) (success : Bool)
    (locals : Locals) :
    m.Works name (fun r r' notes => r' = r.recordOutcome success ∧ notes = [])
      (m.runFunction locals (recordOutcome name success)) := by
  rw [runFunction_recordOutcome]
  cases hr : m.library.byName name with
  | none => exact .idle
  | some r => exact .moved r _ [] hr ⟨rfl, rfl⟩

theorem carried_decide (m : RunbookManager) (name : String) (decision : Decision) :
    Carried m (m.call (.decide name decision)) :=
  (m.works_decide name decision ⟨none, none⟩).carried fun _ _ _ h => advances_of_apply h.1

theorem carried_noteProcedureOutcome (m : RunbookManager) (name : String) (success : Bool) :
    Carried m (m.call (.noteProcedureOutcome name success)) :=
  (m.works_recordOutcome name success ⟨none, none⟩).carried fun _ _ _ h => by
    rw [h.1]
    exact ⟨rfl, rfl, fun hp => hp⟩

theorem carried_onAttributedPlanValidated (m : RunbookManager) (name : String)
    (review : PolicyReview) : Carried m (m.call (.onAttributedPlanValidated name review)) := by
  have hrecorded := m.carried_noteProcedureOutcome name true
  have hvalidated := (works_recordEarnedGate (m.call (.noteProcedureOutcome name true)) name
    .validation ⟨none, none⟩).carried fun _ _ _ h => advances_of_recordGate h.1
  exact hrecorded.trans (hvalidated.trans
    ((works_verdict _ name review ⟨none, none⟩).carried fun _ _ _ h => advances_of_recordGate h.1))

theorem carried_noteRunbookOutcome (m : RunbookManager) (plan : Plan) (report : ExecutionOutcome)
    (review : PolicyReview) : Carried m (m.noteRunbookOutcome plan report review) := by
  unfold noteRunbookOutcome
  cases plan.runbook with
  | none => exact .refl m
  | some name =>
      dsimp only
      by_cases hempty : report.executions.isEmpty = true
      · rw [if_pos hempty]
        exact .refl m
      rw [if_neg hempty]
      by_cases hcompleted : report.status = .completed
      · rw [if_pos hcompleted]
        exact m.carried_onAttributedPlanValidated name review
      · rw [if_neg hcompleted]
        exact m.carried_noteProcedureOutcome name false

/-- What an accepted delivery does. -/
structure Accepted (m : RunbookManager) (delivery : Delivery) (reviewed : Reviewed)
    (m' : RunbookManager) : Prop where
  id : reviewed.runbook.id = m.minted
  minted : m'.minted = m.minted + 1
  trace : ∀ entry ∈ m.trace, entry ∈ m'.trace
  told : m'.WasDelivered reviewed.runbook.id
  rows : m'.rows = Keyed.upsert DeliveredRunbook.name ⟨delivery.provenance, reviewed.runbook⟩ m.rows
  byName : ∀ other, m'.library.byName other =
    if reviewed.runbook.name = other then some reviewed.runbook else m.library.byName other

theorem Faithful.call_deliver (h : m.Faithful) (delivery : Delivery) :
    (∃ reason, delivery.review m.minted = .error reason ∧
      m.call (.deliver delivery) = { m with minted := m.minted + 1 }) ∨
    ∃ reviewed, delivery.review m.minted = .ok reviewed ∧
      Accepted m delivery reviewed (m.call (.deliver delivery)) := by
  rcases m.runFunction_deliver delivery ⟨none, none⟩ with
    ⟨reason, hreview, heq⟩ | ⟨reviewed, library, hreview, hlibrary, heq⟩
  · exact .inl ⟨reason, hreview, heq⟩
  replace heq : m.call (.deliver delivery) =
      m.accept ⟨delivery.provenance, reviewed.runbook⟩ library := heq
  obtain ⟨-, -, hid, -⟩ := Delivery.review_spec hreview
  refine .inr ⟨reviewed, hreview, ?_⟩
  rw [heq]
  refine ⟨hid, rfl, fun entry he => List.mem_append_left _ he, ⟨delivery.provenance, ?_⟩, rfl,
    fun other => ?_⟩
  · exact List.mem_append_right _ List.mem_cons_self
  · exact @byName_supersede m ⟨delivery.provenance, reviewed.runbook⟩ library other hlibrary
      fun r hr hsame => absurd (h.minted r hr) (by rw [hsame, hid]; exact Nat.lt_irrefl _)

theorem Faithful.noteRunbookOutcome (h : m.Faithful) (plan : Plan) (report : ExecutionOutcome)
    (review : PolicyReview) : (m.noteRunbookOutcome plan report review).Faithful := by
  unfold RunbookManager.noteRunbookOutcome
  cases plan.runbook with
  | none => exact h
  | some name =>
      dsimp only
      by_cases hempty : report.executions.isEmpty = true
      · rw [if_pos hempty]
        exact h
      rw [if_neg hempty]
      by_cases hcompleted : report.status = .completed
      · rw [if_pos hcompleted]
        exact h.event (.call (.onAttributedPlanValidated name review))
      · rw [if_neg hcompleted]
        exact h.event (.call (.noteProcedureOutcome name false))

/-- A restart keeps the rows and what was traced, and mints on. -/
theorem restart_frame (m : RunbookManager) (files : List (Except String RunbookFile))
    (readable : Bool) :
    (m.restart files readable).rows = m.rows ∧ (m.restart files readable).trace = m.trace ∧
      (m.restart files readable).minted = m.minted + files.length := by
  have hrestore (m : RunbookManager) (row : DeliveredRunbook) :
      (m.restore row).rows = m.rows ∧ (m.restore row).trace = m.trace ∧
        (m.restore row).minted = m.minted := by
    unfold restore
    dsimp only
    cases (m.library.remove row.name).register row.runbook <;> exact ⟨rfl, rfl, rfl⟩
  have hfold (rows : List DeliveredRunbook) (m : RunbookManager) :
      (rows.foldl restore m).rows = m.rows ∧ (rows.foldl restore m).trace = m.trace ∧
        (rows.foldl restore m).minted = m.minted := by
    induction rows generalizing m with
    | nil => exact ⟨rfl, rfl, rfl⟩
    | cons row rows ih =>
        obtain ⟨hrows, htrace, hminted⟩ := hrestore m row
        obtain ⟨hrows', htrace', hminted'⟩ := ih (m.restore row)
        exact ⟨hrows'.trans hrows, htrace'.trans htrace, hminted'.trans hminted⟩
  cases readable with
  | false => exact ⟨rfl, rfl, rfl⟩
  | true => exact hfold _ _

theorem promotedRunbook_list (m : RunbookManager) (signature : String) :
    promotedRunbook (m.library.list.map LibraryRunbook.toRunbook) signature =
      (m.promoted signature).map LibraryRunbook.toRunbook := List.find?_map ..

end RunbookManager

/-! ### Origins -/

namespace ProcedureHost

variable {toJson : Value → String} {config : SituationsConfig} {s : ProcedureHost}

structure Tracked (s : ProcedureHost) : Prop where
  faithful : s.manager.Faithful
  lengths : s.origins.length = s.brain.attempts.length
  /-- A plan in progress has the name of its origin. -/
  plans : ∀ (k : Nat) a plan name, s.brain.attempts[k]? = some a → a.phase.plan = some plan →
    plan.runbook = some name → ∃ o, s.origins[k]? = some (some o) ∧ o.name = name
  /-- The library has the origin, or the delivery that superseded it. -/
  known : ∀ o, some o ∈ s.origins → o.id < s.manager.minted ∧
    ∃ r, s.manager.library.byName o.name = some r ∧ (o.superseded = false → r.id = o.id) ∧
      (o.superseded = true → s.manager.WasDelivered r.id ∧ r.id ≠ o.id)
  driven : ∀ o, some o ∈ s.origins → ∀ r ∈ s.manager.library.runbooks, r.id = o.id →
    r.status = .promoted
  ran : ∀ run ∈ s.runs, run.1 < s.manager.minted

namespace Tracked

theorem start (files : List (Except String RunbookFile)) : (start files).Tracked where
  faithful := RunbookManager.Faithful.fresh.restarted files true
  lengths := rfl
  plans := fun _ _ _ _ ha => by cases ha
  known := fun _ ho => by cases ho
  driven := fun _ ho => by cases ho
  ran := fun _ hrun => by cases hrun

theorem carried (h : s.Tracked) {m : RunbookManager} (hf : m.Faithful)
    (hc : RunbookManager.Carried s.manager m) : Tracked { s with manager := m } where
  faithful := hf
  lengths := h.lengths
  plans := h.plans
  known := fun o ho => by
    obtain ⟨hlt, r, hr, hcurrent, hsuperseded⟩ := h.known o ho
    obtain ⟨r', hr', hid⟩ := hc.onward o.name r hr
    refine ⟨hc.minted ▸ hlt, r', hr', fun hs => hid.trans (hcurrent hs), fun hs => ?_⟩
    obtain ⟨⟨provenance, hentry⟩, hne⟩ := hsuperseded hs
    exact ⟨⟨provenance, hid ▸ hc.trace _ hentry⟩, hid ▸ hne⟩
  driven := fun o ho r' hr' hid => by
    obtain ⟨r, hr, hsame, hstatus⟩ := hc.back r' hr'
    exact hstatus (h.driven o ho r hr (hsame.trans hid))
  ran := fun run hrun => hc.minted ▸ h.ran run hrun

theorem restarted (h : s.Tracked) (files : List (Except String RunbookFile)) (readable : Bool) :
    (s.step toJson config (.restart files readable)).Tracked where
  faithful := h.faithful.restarted files readable
  lengths := rfl
  plans := fun _ _ _ _ ha => by cases ha
  known := fun _ ho => by cases ho
  driven := fun _ ho => by cases ho
  ran := fun run hrun => by
    have hlt := h.ran run hrun
    have hminted := (s.manager.restart_frame files readable).2.2
    show run.1 < (s.manager.restart files readable).minted
    omega

theorem delivered (h : s.Tracked) (delivery : Delivery) :
    (s.step toJson config (.deliver delivery)).Tracked := by
  have hfaithful : (s.manager.call (.deliver delivery)).Faithful :=
    h.faithful.event (.call (.deliver delivery))
  show Tracked { s with
    manager := s.manager.call (.deliver delivery), origins := s.supersede delivery }
  unfold supersede
  rcases h.faithful.call_deliver delivery with ⟨reason, hreview, heq⟩ | ⟨reviewed, hreview, hnew⟩
  · rw [hreview]
    rw [heq] at hfaithful ⊢
    exact ⟨hfaithful, h.lengths, h.plans,
      fun o ho => ⟨Nat.lt_succ_of_lt (h.known o ho).1, (h.known o ho).2⟩, h.driven,
      fun run hrun => Nat.lt_succ_of_lt (h.ran run hrun)⟩
  rw [hreview]
  have hmem {o : Origin}
      (ho : some o ∈ s.origins.map (Option.map fun o => o.supersede reviewed.runbook.name)) :
      ∃ old, some old ∈ s.origins ∧ o = old.supersede reviewed.runbook.name := by
    obtain ⟨entry, hentry, heq⟩ := List.mem_map.mp ho
    obtain ⟨old, rfl, rfl⟩ := Option.map_eq_some_iff.mp heq
    exact ⟨old, hentry, rfl⟩
  have hsupersede (o : Origin) : (o.supersede reviewed.runbook.name).id = o.id ∧
      (o.supersede reviewed.runbook.name).name = o.name := by
    unfold Origin.supersede
    split <;> exact ⟨rfl, rfl⟩
  refine ⟨hfaithful, ?_, fun k a plan name ha hplan hname => ?_, fun o ho => ?_,
    fun o ho r hr hid => ?_, fun run hrun => ?_⟩
  · rw [List.length_map]
    exact h.lengths
  · obtain ⟨o, ho, rfl⟩ := h.plans k a plan name ha hplan hname
    exact ⟨o.supersede reviewed.runbook.name, by simp [ho], (hsupersede o).2⟩
  · obtain ⟨old, hold, rfl⟩ := hmem ho
    obtain ⟨hlt, r, hr, hcurrent, hsuperseded⟩ := h.known old hold
    rw [(hsupersede old).1, (hsupersede old).2, hnew.minted, hnew.byName]
    refine ⟨Nat.lt_succ_of_lt hlt, ?_⟩
    by_cases hname : reviewed.runbook.name = old.name
    · have hflag : (old.supersede reviewed.runbook.name).superseded = true := by
        rw [Origin.supersede, if_pos hname.symm]
      refine ⟨reviewed.runbook, if_pos hname, fun hs => ?_, fun _ => ⟨hnew.told, ?_⟩⟩
      · rw [hflag] at hs
        cases hs
      · rw [hnew.id]
        exact Nat.ne_of_gt hlt
    · have hflag : (old.supersede reviewed.runbook.name).superseded = old.superseded := by
        rw [Origin.supersede, if_neg (Ne.symm hname)]
      rw [hflag]
      refine ⟨r, (if_neg hname).trans hr, hcurrent, fun hs => ?_⟩
      obtain ⟨⟨provenance, hentry⟩, hne⟩ := hsuperseded hs
      exact ⟨⟨provenance, hnew.trace _ hentry⟩, hne⟩
  · obtain ⟨old, hold, rfl⟩ := hmem ho
    have hlt := (h.known old hold).1
    have hnamed := RunbookLibrary.byName_name hr
    rw [hnew.byName] at hnamed
    rw [(hsupersede old).1] at hid
    by_cases hname : reviewed.runbook.name = r.name
    · rw [if_pos hname] at hnamed
      obtain rfl := Option.some.inj hnamed
      have hminted := hnew.id
      omega
    · rw [if_neg hname] at hnamed
      exact h.driven old hold r (RunbookLibrary.mem_of_byName hnamed) hid
  · rw [hnew.minted]
    exact Nat.lt_succ_of_lt (h.ran run hrun)

/-- A cycle takes up a promoted runbook. -/
theorem origin_spec {event : CycleEvent} {o : Origin} (ho : s.origin event = some o) :
    ∃ r ∈ s.manager.library.runbooks, r.id = o.id ∧ r.name = o.name ∧ o.superseded = false ∧
      r.status = .promoted := by
  cases event with
  | consider index given descriptors =>
      simp only [origin, Option.bind_eq_bind, Option.bind_eq_some_iff] at ho
      obtain ⟨⟨cycle, situation⟩, -, r, hr, ho⟩ := ho
      obtain rfl := Option.some.inj ho
      have htest := List.find?_some hr
      rw [Bool.and_eq_true, beq_iff_eq] at htest
      exact ⟨r, RunbookLibrary.mem_list.mp (List.mem_of_find?_eq_some hr), rfl, rfl, rfl, htest.1⟩
  | _ => cases ho

/-- No attempt begins: the origins are those there were. -/
theorem replanned (h : s.Tracked) {brain : Brain}
    (hlength : brain.attempts.length = s.brain.attempts.length)
    (hplans : ∀ (k : Nat) a plan name, brain.attempts[k]? = some a → a.phase.plan = some plan →
      plan.runbook = some name → ∃ o, s.origins[k]? = some (some o) ∧ o.name = name) :
    Tracked { s with brain } :=
  ⟨h.faithful, h.lengths.trans hlength.symm, hplans, h.known, h.driven, h.ran⟩

/-- An attempt begins, of the event's origin if it has a plan from a runbook. -/
theorem begun (h : s.Tracked) {brain : Brain} {a : Attempt} {event : CycleEvent}
    (hattempts : brain.attempts = s.brain.attempts ++ [a])
    (hplan : ∀ plan name, a.phase.plan = some plan → plan.runbook = some name →
      ∃ o, s.origin event = some o ∧ o.name = name) :
    Tracked { s with brain, origins := s.origins ++ [s.origin event] } := by
  have hlast {a' : Attempt} {k : Nat} (hk : brain.attempts[k]? = some a') :
      s.brain.attempts[k]? = some a' ∨ k = s.origins.length ∧ a' = a := by
    rw [hattempts] at hk
    rw [h.lengths]
    exact Brain.lookup_push hk
  have hold {k : Nat} {o : Option Origin} (ho : s.origins[k]? = some o) :
      (s.origins ++ [s.origin event])[k]? = some o :=
    (List.getElem?_append_left (List.getElem?_eq_some_iff.mp ho).1).trans ho
  refine ⟨h.faithful, ?_, fun k a' plan name ha hp hname => ?_, fun o ho => ?_,
    fun o ho r hr hid => ?_, h.ran⟩
  · show (s.origins ++ [_]).length = brain.attempts.length
    rw [hattempts, List.length_append, List.length_append, h.lengths]
    rfl
  · rcases hlast ha with hk | ⟨rfl, rfl⟩
    · obtain ⟨o, ho, heq⟩ := h.plans k a' plan name hk hp hname
      exact ⟨o, hold ho, heq⟩
    · obtain ⟨o, ho, heq⟩ := hplan plan name hp hname
      refine ⟨o, ?_, heq⟩
      rw [List.getElem?_concat_length, ho]
  · rcases List.mem_append.mp ho with ho | ho
    · exact h.known o ho
    · obtain ⟨r, hr, hid, hname, hflag, -⟩ := origin_spec (List.mem_singleton.mp ho).symm
      refine ⟨hid ▸ h.faithful.minted r hr, r, hname ▸ RunbookLibrary.byName_name hr,
        fun _ => hid, fun hs => ?_⟩
      rw [hflag] at hs
      cases hs
  · rcases List.mem_append.mp ho with ho | ho
    · exact h.driven o ho r hr hid
    · obtain ⟨r', hr', hid', -, -, hstatus⟩ := origin_spec (List.mem_singleton.mp ho).symm
      obtain rfl : r = r' :=
        List.inj_on_of_nodup_map s.manager.library.ids hr hr' (hid.trans hid'.symm)
      exact hstatus

/-- An event of the brain, with the plans it starts. -/
theorem acted (h : s.Tracked) (toJson : Value → String) (config : SituationsConfig)
    (event : CycleEvent) :
    let brain := s.brain.step toJson config (event.reading s.manager)
    Tracked { s with
      brain := brain
      origins := s.origins ++
        List.replicate (brain.attempts.length - s.brain.attempts.length) (s.origin event) } := by
  intro brain
  have hkept (hlength : brain.attempts.length = s.brain.attempts.length) : s.origins ++
      List.replicate (brain.attempts.length - s.brain.attempts.length) (s.origin event) =
        s.origins := by
    rw [hlength, Nat.sub_self, List.replicate_zero, List.append_nil]
  have hone {a : Attempt} (hattempts : brain.attempts = s.brain.attempts ++ [a]) : s.origins ++
      List.replicate (brain.attempts.length - s.brain.attempts.length) (s.origin event) =
        s.origins ++ [s.origin event] := by
    rw [hattempts, List.length_append, List.length_singleton, Nat.add_sub_cancel_left,
      List.replicate_one]
  have hacted : Brain.Acted s.brain (event.reading s.manager) brain.attempts := Brain.step_acted
  obtain ⟨attempts, hattempts⟩ : ∃ attempts, brain.attempts = attempts := ⟨_, rfl⟩
  rw [hattempts] at hacted
  cases hacted with
  | same =>
      have hlength := congrArg List.length hattempts
      rw [hkept hlength]
      exact h.replanned hlength (hattempts ▸ h.plans)
  | advanced hid ha hm =>
      have hlength : brain.attempts.length = s.brain.attempts.length := by
        rw [hattempts, List.length_set]
      rw [hkept hlength]
      refine h.replanned hlength fun k a' plan name hk hplan hname => ?_
      rw [hattempts] at hk
      rcases Brain.lookup_set hk with ⟨rfl, rfl⟩ | ⟨-, hk⟩
      · rcases hm.plan_or hplan with hsame | hnone
        · exact h.plans _ _ plan name ha hsame hname
        · rw [hname] at hnone
          cases hnone
      · exact h.plans k a' plan name hk hplan hname
  | asked he ha =>
      rw [hone hattempts]
      refine h.begun hattempts fun plan name hplan _ => ?_
      rw [ha] at hplan
      cases hplan
  | @procedure i runbooks descriptors cycle situation runbook plan a he hc hr hp ha =>
      rw [hone hattempts]
      cases event with
      | consider index given descriptors' =>
          obtain ⟨rfl, rfl, rfl⟩ := CycleEvent.consider.inj he
          rw [RunbookManager.promotedRunbook_list] at hr
          obtain ⟨r, hpromoted, rfl⟩ := Option.map_eq_some_iff.mp hr
          refine h.begun hattempts fun plan' name hplan hname => ?_
          rw [ha] at hplan
          obtain rfl := Option.some.inj hplan
          rw [name_of_procedurePlan hp] at hname
          refine ⟨⟨r.id, r.name, false⟩, ?_, Option.some.inj hname⟩
          simp only [origin, hc, Option.bind_eq_bind, Option.bind_some, hpromoted]
      | _ => cases he

/-- The origin of what is attempted is one of the host's. -/
theorem origin_of_attempted {event : CycleEvent} {o : Origin} {completed : Bool}
    (ho : s.attempted event = some (o, completed)) : some o ∈ s.origins := by
  unfold attempted at ho
  simp only [Option.bind_eq_bind, Option.bind_eq_some_iff] at ho
  obtain ⟨⟨plan, report⟩, -, name, -, id, -, origin, horigin, ho⟩ := ho
  split at ho
  · cases ho
  · obtain rfl : origin = o := congrArg Prod.fst (Option.some.inj ho)
    exact List.mem_of_getElem? (Option.join_eq_some_iff.mp horigin)

/-- What an event of the brain does to the manager: nothing, or the call for the attempted plan's
outcome, under the name of its origin. -/
theorem routed_eq (h : s.Tracked) (event : CycleEvent) (review : PolicyReview) :
    s.routed event review =
      match s.attempted event with
      | none => s.manager
      | some (o, true) => s.manager.call (.onAttributedPlanValidated o.name review)
      | some (o, false) => s.manager.call (.noteProcedureOutcome o.name false) := by
  unfold ProcedureHost.routed ProcedureHost.attempted
  cases hreports : s.brain.reports event with
  | none => rfl
  | some reported =>
      obtain ⟨plan, report⟩ := reported
      dsimp only [Option.bind_eq_bind, Option.bind_some]
      unfold RunbookManager.noteRunbookOutcome
      cases hname : plan.runbook with
      | none => rfl
      | some name =>
          obtain ⟨id, a, hid, ha, hplan⟩ := Brain.attempt_of_reports hreports
          obtain ⟨o, ho, rfl⟩ := h.plans id a plan name ha hplan hname
          rw [hid]
          dsimp only [Option.bind_some]
          rw [ho]
          dsimp only [Option.join_some, Option.bind_some]
          by_cases hempty : report.executions.isEmpty = true
          · rw [if_pos hempty, if_pos hempty]
          rw [if_neg hempty, if_neg hempty]
          by_cases hcompleted : report.status = .completed
          · rw [if_pos hcompleted, decide_eq_true hcompleted]
          · rw [if_neg hcompleted, decide_eq_false hcompleted]

theorem routed (h : s.Tracked) (event : CycleEvent) (review : PolicyReview) :
    (s.routed event review).Faithful ∧
      RunbookManager.Carried s.manager (s.routed event review) := by
  unfold ProcedureHost.routed
  cases s.brain.reports event with
  | none => exact ⟨h.faithful, .refl _⟩
  | some reported =>
      exact ⟨h.faithful.noteRunbookOutcome reported.1 reported.2 review,
        s.manager.carried_noteRunbookOutcome reported.1 reported.2 review⟩

theorem step (h : s.Tracked) (event : ProcedureEvent) : (s.step toJson config event).Tracked := by
  cases event with
  | deliver delivery => exact h.delivered delivery
  | decide name decision =>
      exact h.carried (h.faithful.event (.call (.decide name decision)))
        (s.manager.carried_decide name decision)
  | restart files readable => exact h.restarted files readable
  | cycle event review =>
      obtain ⟨hfaithful, hlengths, hplans, hknown, hdriven, hran⟩ :=
        (h.acted toJson config event).carried (h.routed event review).1 (h.routed event review).2
      refine ⟨hfaithful, hlengths, hplans, hknown, hdriven, fun run hrun => ?_⟩
      rcases List.mem_append.mp hrun with hold | hnew
      · exact hran run hold
      · unfold ProcedureHost.ran at hnew
        cases ho : s.attempted event with
        | none =>
            rw [ho] at hnew
            cases hnew
        | some attempted =>
            rw [ho] at hnew
            obtain rfl := List.mem_singleton.mp hnew
            have hlt := (h.known attempted.1 (origin_of_attempted ho)).1
            rw [← (h.routed event review).2.minted] at hlt
            exact hlt

theorem after (files : List (Except String RunbookFile)) (events : List ProcedureEvent) :
    (after toJson config files events).Tracked :=
  Machine.invariant (.start files) (fun _ event h => h.step event) events

end Tracked

end ProcedureHost

end Argus
