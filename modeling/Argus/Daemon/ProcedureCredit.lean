import Argus.Daemon.ProcedureOrigins

/-!
# Credit for a run

A plan is attributed by name, so its outcome goes to the runbook the name has when the plan ends.
That is the runbook the plan was built from as long as no other of its name was delivered since;
after a delivery it is the new candidate, which gets the validation gate and the attempt of a plan
it had no part in.
-/

namespace Argus

open RunbookManager

/-- The history of a runbook is that of the plans built from it: it counts the ones that were
attempted, and has the validation gate only where one of them completed. -/
structure Credited (runs : List (Nat × Bool)) (r : LibraryRunbook) : Prop where
  attempts : r.attempts = (runs.countP fun run => run.1 == r.id) % 2 ^ 32
  successes : r.successes = (runs.countP fun run => run.1 == r.id && run.2) % 2 ^ 32
  validated : .validation ∈ r.gates → (r.id, true) ∈ runs

namespace ProcedureHost

/-- Every delivered runbook has the credit of its own plans. -/
def CreditsOwn (s : ProcedureHost) : Prop :=
  ∀ r ∈ s.manager.library.runbooks, s.manager.WasDelivered r.id → Credited s.runs r

/-- No plan that was attempted ends after a runbook of its name was delivered. -/
def timely (s : ProcedureHost) : ProcedureEvent → Bool
  | .cycle event _ => (s.attempted event).all fun (o, _) => !o.superseded
  | _ => true

end ProcedureHost

/-! ### Credit -/

namespace Credited

variable {runs : List (Nat × Bool)} {r r' : LibraryRunbook} {id : Nat} {completed : Bool}

/-- A runbook whose plans were never attempted. -/
theorem untried (hruns : ∀ run ∈ runs, run.1 ≠ r.id) (hattempts : r.attempts = 0)
    (hsuccesses : r.successes = 0) (hgates : .validation ∉ r.gates) : Credited runs r := by
  have hnone (p : Nat × Bool → Bool) (hp : ∀ run, p run = true → run.1 = r.id) :
      runs.countP p = 0 :=
    List.countP_eq_zero.mpr fun run hrun htrue => hruns run hrun (hp run htrue)
  refine ⟨?_, ?_, fun hmem => absurd hmem hgates⟩
  · rw [hattempts, hnone _ fun run hrun => eq_of_beq hrun, Nat.zero_mod]
  · rw [hsuccesses, hnone _ fun run hrun => eq_of_beq (Bool.and_eq_true_iff.mp hrun).1,
      Nat.zero_mod]

theorem climbs {gate : Gate} (h : Credited runs r) (hclimbs : r.Climbs gate r')
    (hgate : gate = .validation → (r.id, true) ∈ runs) : Credited runs r' := by
  refine ⟨?_, ?_, fun hmem => ?_⟩
  · rw [hclimbs.attempts, hclimbs.id]
    exact h.attempts
  · rw [hclimbs.successes, hclimbs.id]
    exact h.successes
  · rw [hclimbs.gates] at hmem
    rw [hclimbs.id]
    rcases List.mem_append.mp hmem with hold | hnew
    · exact h.validated hold
    · exact hgate (List.mem_singleton.mp hnew).symm

/-- A run of another runbook's plan. -/
theorem others (h : Credited runs r) (hid : r.id ≠ id) :
    Credited (runs ++ [(id, completed)]) r := by
  have hne : (id == r.id) = false := beq_false_of_ne (Ne.symm hid)
  refine ⟨?_, ?_, fun hmem => List.mem_append_left _ (h.validated hmem)⟩
  · rw [List.countP_append, List.countP_singleton, hne, if_neg Bool.false_ne_true, Nat.add_zero]
    exact h.attempts
  · rw [List.countP_append, List.countP_singleton, hne, Bool.false_and,
      if_neg Bool.false_ne_true, Nat.add_zero]
    exact h.successes

/-- A run of the runbook's own plan. -/
theorem counted (h : Credited runs r) (completed : Bool) :
    Credited (runs ++ [(r.id, completed)]) (r.recordOutcome completed) := by
  have hself : (r.id == r.id) = true := beq_self_eq_true r.id
  refine ⟨?_, ?_, fun hmem => List.mem_append_left _ (h.validated hmem)⟩
  · show (r.attempts + 1) % 2 ^ 32 = _
    rw [List.countP_append, List.countP_singleton]
    show _ = (_ + if (r.id == r.id) = true then 1 else 0) % 2 ^ 32
    rw [if_pos hself, h.attempts, Nat.mod_add_mod]
    rfl
  · show (if completed then (r.successes + 1) % 2 ^ 32 else r.successes) = _
    rw [List.countP_append, List.countP_singleton]
    show _ = (_ + if (r.id == r.id && completed) = true then 1 else 0) % 2 ^ 32
    rw [hself, Bool.true_and, h.successes]
    cases completed with
    | true => exact Nat.mod_add_mod ..
    | false => rfl

end Credited

namespace RunbookManager

variable {m m' : RunbookManager} {name : String} {r r' : LibraryRunbook}
  {runs runs' : List (Nat × Bool)}

/-- A row after the runbook of a name moved: another runbook's as it was, or the moved one's. -/
theorem Faithful.mem_rows_persist (h : m.Faithful) {notes : List LadderNote}
    (hr : m.library.byName name = some r) (hid : r'.id = r.id) (hname : r'.name = r.name)
    {row : DeliveredRunbook} (hrow : row ∈ ((m.move r' notes).persist name).rows) :
    row ∈ m.rows ∧ row.runbook.id ≠ r.id ∨
      row.runbook = r' ∧ ∃ old ∈ m.rows, old.runbook = r := by
  have hmem := RunbookLibrary.mem_of_byName hr
  have hnamed := RunbookLibrary.name_of_byName hr
  have hread : (m.move r' notes).library.byName name = some r' :=
    (byName_move hr hid hname).trans (if_pos rfl)
  cases hrecord : m.record name with
  | none =>
      have hkept : (m.move r' notes).record name = none := hrecord
      rw [persist, hread, hkept] at hrow
      refine .inl ⟨hrow, fun heq => ?_⟩
      obtain ⟨record, hheld, rfl⟩ :=
        h.tagged r hmem (heq ▸ (h.rows row hrow).2.wasDelivered)
      rw [h.record_eq_some_iff.mpr ⟨hheld, hnamed⟩] at hrecord
      cases hrecord
  | some record =>
      have hkept : (m.move r' notes).record name = some record := hrecord
      obtain ⟨hheld, hrname⟩ := h.record_eq_some_iff.mp hrecord
      obtain ⟨hold, hlib⟩ := h.held record hheld
      have hsame : record.runbook = r :=
        List.inj_on_of_nodup_map m.library.names hlib hmem (hrname.trans hnamed.symm)
      rw [persist, hread, hkept] at hrow
      rcases (Keyed.mem_upsert h.rowNames).mp hrow with rfl | ⟨hkeep, hne⟩
      · exact .inr ⟨rfl, record, hold, hsame⟩
      · refine .inl ⟨hkeep, fun heq => hne ?_⟩
        rw [h.rowIds row hkeep record hold (heq.trans (congrArg LibraryRunbook.id hsame.symm))]
        exact hrname.trans (hnamed.symm.trans hname.symm)

theorem Faithful.credited_persist (h : m.Faithful) {notes : List LadderNote}
    (hr : m.library.byName name = some r) (hid : r'.id = r.id) (hname : r'.name = r.name)
    (hrows : ∀ row ∈ m.rows, Credited runs row.runbook)
    (hother : ∀ x, x.id ≠ r.id → Credited runs x → Credited runs' x)
    (hself : Credited runs r → Credited runs' r') :
    ∀ row ∈ ((m.move r' notes).persist name).rows, Credited runs' row.runbook := by
  intro row hrow
  rcases h.mem_rows_persist hr hid hname hrow with ⟨hold, hne⟩ | ⟨rfl, old, hold, rfl⟩
  · exact hother _ hne (hrows row hold)
  · exact hself (hrows old hold)

theorem Faithful.credited_works (h : m.Faithful)
    {R : LibraryRunbook → LibraryRunbook → List LadderNote → Prop} (hw : m.Works name R m')
    (hR : ∀ r r' notes, m.library.byName name = some r → R r r' notes →
      ∃ gate, r.Climbs gate r' ∧ (gate = .validation → (r.id, true) ∈ runs))
    (hrows : ∀ row ∈ m.rows, Credited runs row.runbook) :
    ∀ row ∈ m'.rows, Credited runs row.runbook := by
  cases hw with
  | idle => exact hrows
  | moved r r' notes hr hr' =>
      obtain ⟨gate, hclimbs, hgate⟩ := hR r r' notes hr hr'
      exact h.credited_persist hr hclimbs.id hclimbs.name hrows (fun _ _ hc => hc)
        fun hc => hc.climbs hclimbs hgate

/-- The first function of a call that records an outcome. -/
theorem call_noteProcedureOutcome (hr : m.library.byName name = some r) (completed : Bool) :
    m.call (.noteProcedureOutcome name completed) =
      (m.move (r.recordOutcome completed) []).persist name := by
  show m.runFunction ⟨none, none⟩ (recordOutcome name completed) = _
  rw [runFunction_recordOutcome, hr]

theorem byName_recorded (hr : m.library.byName name = some r) (completed : Bool) :
    (m.call (.noteProcedureOutcome name completed)).library.byName name =
      some (r.recordOutcome completed) := by
  rw [call_noteProcedureOutcome hr, (persist_library _ _).1]
  have hread := @byName_move m name r (r.recordOutcome completed) [] name hr rfl rfl
  rwa [if_pos rfl] at hread

theorem Faithful.credited_recorded (h : m.Faithful) (hr : m.library.byName name = some r)
    (completed : Bool) (hrows : ∀ row ∈ m.rows, Credited runs row.runbook) :
    ∀ row ∈ (m.call (.noteProcedureOutcome name completed)).rows,
      Credited (runs ++ [(r.id, completed)]) row.runbook := by
  rw [call_noteProcedureOutcome hr]
  exact h.credited_persist hr rfl rfl hrows (fun _ hne hc => hc.others hne)
    fun hc => hc.counted completed

/-- The two gates that follow a completed run. -/
theorem Faithful.credited_earned (h : m.Faithful) (review : PolicyReview)
    (hran : ∀ r, m.library.byName name = some r → (r.id, true) ∈ runs)
    (hrows : ∀ row ∈ m.rows, Credited runs row.runbook) :
    ∀ row ∈ ((m.runFunction ⟨none, none⟩ (recordEarnedGate name .validation)).runFunction
      ⟨none, none⟩ (.verdict name review :: recordEarnedGate name .policy)).rows,
      Credited runs row.runbook := by
  have hvalidated := m.works_recordEarnedGate name .validation ⟨none, none⟩
  refine Faithful.credited_works ?_ (works_verdict _ name review ⟨none, none⟩) ?_
    (h.credited_works hvalidated ?_ hrows)
  · exact h.step (moved_recordEarnedGate name (by decide) (by decide) ⟨none, none⟩)
  · rintro r r' notes - ⟨hrecord, -⟩
    exact ⟨.policy, LibraryRunbook.climbs_of_recordGate (by decide) (by decide) hrecord, nofun⟩
  · rintro r r' notes hr ⟨hrecord, -⟩
    exact ⟨.validation, LibraryRunbook.climbs_of_recordGate (by decide) (by decide) hrecord,
      fun _ => hran r hr⟩

end RunbookManager

/-! ### Runs -/

namespace ProcedureHost

variable {toJson : Value → String} {config : SituationsConfig} {s : ProcedureHost}

/-- The rows have the credit of their own plans. -/
structure Crediting (s : ProcedureHost) : Prop where
  tracked : s.Tracked
  rows : ∀ row ∈ s.manager.rows, Credited s.runs row.runbook

theorem Crediting.creditsOwn (h : s.Crediting) : s.CreditsOwn := by
  intro r hr hd
  obtain ⟨record, hheld, rfl⟩ := h.tracked.faithful.tagged r hr hd
  exact h.rows record (h.tracked.faithful.held record hheld).1

theorem Crediting.step (h : s.Crediting) {event : ProcedureEvent}
    (htimely : s.timely event = true) : (s.step toJson config event).Crediting := by
  refine ⟨h.tracked.step event, ?_⟩
  have hfaithful := h.tracked.faithful
  cases event with
  | restart files readable =>
      show ∀ row ∈ (s.manager.restart files readable).rows, Credited s.runs row.runbook
      rw [(s.manager.restart_frame files readable).1]
      exact h.rows
  | decide name decision =>
      refine hfaithful.credited_works (s.manager.works_decide name decision ⟨none, none⟩) ?_ h.rows
      rintro r r' notes - ⟨happly, -⟩
      exact ⟨decision.gate, Decision.climbs happly, by cases decision <;> nofun⟩
  | deliver delivery =>
      show ∀ row ∈ (s.manager.call (.deliver delivery)).rows, Credited s.runs row.runbook
      rcases hfaithful.call_deliver delivery with ⟨reason, -, heq⟩ | ⟨reviewed, hreview, hnew⟩
      · rw [heq]
        exact h.rows
      · intro row hrow
        rw [hnew.rows] at hrow
        rcases (Keyed.mem_upsert hfaithful.rowNames).mp hrow with rfl | ⟨hold, -⟩
        · obtain ⟨-, -, -, hattempts, hsuccesses, hgates⟩ := Delivery.review_spec hreview
          refine Credited.untried (fun run hrun => ?_) hattempts hsuccesses fun hmem => ?_
          · have hlt : run.1 < s.manager.minted := h.tracked.ran run hrun
            exact hlt.ne.trans_eq hnew.id.symm
          · rcases hgates _ hmem with hgate | hgate <;> cases hgate
        · exact h.rows row hold
  | cycle event review =>
      show ∀ row ∈ (s.routed event review).rows, Credited (s.runs ++ s.ran event) row.runbook
      rw [h.tracked.routed_eq event review, ran]
      rw [timely] at htimely
      cases hattempted : s.attempted event with
      | none =>
          rw [List.append_nil]
          exact h.rows
      | some attempted =>
          obtain ⟨o, completed⟩ := attempted
          rw [hattempted, Option.all_some, Bool.not_eq_true'] at htimely
          obtain ⟨-, r, hr, hcurrent, -⟩ :=
            h.tracked.known o (Tracked.origin_of_attempted hattempted)
          have hid : r.id = o.id := hcurrent htimely
          have hrecorded := hfaithful.credited_recorded hr completed h.rows
          dsimp only
          rw [← hid]
          cases completed with
          | false => exact hrecorded
          | true =>
              refine Faithful.credited_earned
                (hfaithful.event (.call (.noteProcedureOutcome o.name true))) review ?_ hrecorded
              intro x hx
              obtain rfl := Option.some.inj ((byName_recorded hr true).symm.trans hx)
              exact List.mem_append_right _ List.mem_cons_self

/-- The runbook that gets the outcome of an attempted plan counts one attempt more. -/
theorem Tracked.counted (h : s.Tracked) {event : CycleEvent} {o : Origin} {completed : Bool}
    (hattempted : s.attempted event = some (o, completed)) (review : PolicyReview)
    {r : LibraryRunbook} (hr : s.manager.library.byName o.name = some r) :
    ∃ r' ∈ (s.routed event review).library.runbooks,
      r'.id = r.id ∧ r'.attempts = (r.attempts + 1) % 2 ^ 32 := by
  have hrecorded := byName_recorded hr completed
  rw [h.routed_eq event review, hattempted]
  cases completed with
  | false => exact ⟨_, RunbookLibrary.mem_of_byName hrecorded, rfl, rfl⟩
  | true =>
      have hkept {m m' : RunbookManager} {gate : Gate} {x : LibraryRunbook}
          (hw : m.Works o.name
            (fun r r' notes => r.recordGate gate = .ok r' ∧ notes = [.recorded gate]) m')
          (hx : m.library.byName o.name = some x) :
          ∃ y, m'.library.byName o.name = some y ∧ y.id = x.id ∧ y.attempts = x.attempts := by
        rcases hw.byName fun _ _ _ hg => advances_of_recordGate hg.1 with
          rfl | ⟨x', y, notes, hx', ⟨hgate, -⟩, -, hread⟩
        · exact ⟨x, hx, rfl, rfl⟩
        · obtain rfl := Option.some.inj (hx.symm.trans hx')
          obtain ⟨-, rfl⟩ := LibraryRunbook.recordGate_eq_ok_iff.mp hgate
          exact ⟨_, (hread o.name).trans (if_pos rfl), rfl, rfl⟩
      obtain ⟨x, hx, hid, hattempts⟩ :=
        hkept (works_recordEarnedGate _ o.name .validation ⟨none, none⟩) hrecorded
      obtain ⟨y, hy, hid', hattempts'⟩ := hkept (works_verdict _ o.name review ⟨none, none⟩) hx
      exact ⟨y, RunbookLibrary.mem_of_byName hy, hid'.trans hid, hattempts'.trans hattempts⟩

/-- A plan that ends after a delivery of its name leaves its attempt with the new candidate. -/
theorem Crediting.timely (h : s.Crediting) {event : ProcedureEvent}
    (howns : (s.step toJson config event).CreditsOwn) : s.timely event = true := by
  cases event with
  | cycle event review =>
      rw [ProcedureHost.timely]
      cases hattempted : s.attempted event with
      | none => rfl
      | some attempted =>
          obtain ⟨o, completed⟩ := attempted
          by_contra hlate
          have hflag : o.superseded = true := by simpa using hlate
          obtain ⟨-, r, hr, -, hsuperseded⟩ :=
            h.tracked.known o (Tracked.origin_of_attempted hattempted)
          obtain ⟨⟨provenance, hdelivered⟩, hne⟩ := hsuperseded hflag
          obtain ⟨r', hr', hid, hcount⟩ := h.tracked.counted hattempted review hr
          have hbefore := (h.creditsOwn r (RunbookLibrary.mem_of_byName hr)
            ⟨provenance, hdelivered⟩).attempts
          have hafter := (howns r' hr' ⟨provenance, hid ▸
            (h.tracked.routed event review).2.trace _ hdelivered⟩).attempts
          replace hafter : r'.attempts =
              ((s.runs ++ s.ran event).countP fun run => run.1 == r'.id) % 2 ^ 32 := hafter
          have hother : (o.id == r'.id) = false := beq_false_of_ne (hid ▸ Ne.symm hne)
          rw [ran, hattempted, List.countP_append, List.countP_singleton, hother,
            if_neg Bool.false_ne_true, Nat.add_zero, hid, ← hbefore, hcount] at hafter
          have hlt : r.attempts < 2 ^ 32 := hbefore ▸ Nat.mod_lt _ (by decide)
          omega
  | _ => rfl

/-- In a run every delivered runbook has the credit of its own plans, all along, exactly where no
attempted plan ends after a runbook of its name was delivered. -/
theorem credit_to_version_that_ran (toJson : Value → String) (config : SituationsConfig)
    (files : List (Except String RunbookFile)) (events : List ProcedureEvent) :
    (∀ n, (after toJson config files (events.take n)).CreditsOwn) ↔
      Machine.Every (step toJson config) (fun s event => s.timely event = true) (start files)
        events := by
  have hstart : (start files).Crediting :=
    ⟨.start files, fun row hrow => absurd hrow List.not_mem_nil⟩
  exact Machine.every_true.forall_take_iff hstart (fun _ h => h.creditsOwn)
    (fun _ _ h _ htimely => h.step htimely) fun _ _ h _ howns => h.timely howns

/-! ### A plan that is resumed after a delivery -/

/-- The reclaim ran. -/
def reclaimed : ExecutionOutcome :=
  ⟨[⟨⟨Brain.memoryReclaim, none, .object [("subject", .string "mem")]⟩, .completed, .null⟩], [],
    [], .completed, 0⟩

/-- The plan of a promoted procedure is paused, a new candidate of its name is delivered, and the
operator grants the plan, which runs and completes. -/
def resumedLate : List ProcedureEvent :=
  [.cycle (.collect (Brain.memoryHost 95) Brain.defaultThreshold) localReview,
    .cycle (.consider 0 [] [Brain.reclaimDescriptor]) localReview,
    .cycle (.ran 0 (Brain.awaiting Brain.reclaimPlan)) localReview,
    .deliver (reclaimDelivery 1),
    .cycle (.grant 0) localReview,
    .cycle (.resumed 0 (.finished reclaimed)) localReview]

def resumedHost : ProcedureHost :=
  after Brain.evidenceJson .default [.ok (reclaimFile ladder)] resumedLate

/-- The candidate has the validation gate, and the policy gate after it, from a plan built from the
runbook it replaced. -/
theorem late_resume_validates_candidate :
    resumedHost.runs = [(0, true)] ∧
      resumedHost.manager.library.runbooks.map (fun r => (r.id, r.status, r.attempts, r.gates)) =
        [(1, .candidate, 1, [.evaluation, .simulation, .validation, .policy])] ∧
      ¬ resumedHost.CreditsOwn := by
  have hruns : resumedHost.runs = [(0, true)] := by decide +kernel
  have hlibrary : resumedHost.manager.library.runbooks.map
      (fun r => (r.id, r.status, r.attempts, r.gates)) =
      [(1, .candidate, 1, [.evaluation, .simulation, .validation, .policy])] := by decide +kernel
  have hdelivered : resumedHost.manager.WasDelivered 1 := ⟨⟨7, 8, 1, ⟨0⟩⟩, by decide +kernel⟩
  refine ⟨hruns, hlibrary, fun howns => ?_⟩
  obtain ⟨r, rest, hr, hfields, -⟩ := List.map_eq_cons_iff.mp hlibrary
  obtain ⟨hid, -, hattempts, -⟩ : r.id = 1 ∧ r.status = .candidate ∧ r.attempts = 1 ∧ _ := by
    simpa only [Prod.mk.injEq] using hfields
  have hcredited := (howns r (hr ▸ List.mem_cons_self) (hid.symm ▸ hdelivered)).attempts
  rw [hruns, hid, hattempts] at hcredited
  exact absurd hcredited (by decide)

end ProcedureHost

end Argus
