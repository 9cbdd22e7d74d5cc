import Argus.Daemon.ProcedureOrigins

/-!
# Climbing the ladder

The validation gate comes from a completed plan attributed to the runbook, such a plan is built
only from a promoted runbook, and promotion takes the validation gate. A delivered candidate with
its first two gates therefore stays where it is, whatever the daemon does, as long as no other
runbook of its name is used.
-/

namespace Argus

open RunbookManager

namespace RunbookManager

variable {m m' : RunbookManager} {name other : String} {r : LibraryRunbook}

theorem row_persist (hne : other ≠ name) : (m.persist other).row name = m.row name := by
  unfold persist
  cases hfound : m.library.byName other with
  | none => rfl
  | some found =>
      cases m.record other with
      | none => rfl
      | some record =>
          have hnamed : found.name ≠ name := by rwa [RunbookLibrary.name_of_byName hfound]
          exact (row_putRow _).trans (if_neg hnamed)

/-- The runbook of another name moves. -/
theorem Works.apart {R : LibraryRunbook → LibraryRunbook → List LadderNote → Prop}
    (hw : m.Works other R m') (hR : ∀ r r' notes, R r r' notes → Advances r r')
    (hne : other ≠ name) :
    m'.library.byName name = m.library.byName name ∧ m'.row name = m.row name := by
  rcases hw.byName hR with rfl | ⟨x, x', notes, hx, hx', rfl, hread⟩
  · exact ⟨rfl, rfl⟩
  · exact ⟨(hread name).trans (if_neg hne), row_persist hne⟩

/-- The operator can decide nothing about a candidate with its first two gates. -/
theorem not_decided {r' : LibraryRunbook} {decision : Decision}
    (hgates : r.gates = [.evaluation, .simulation]) (hstatus : r.status = .candidate) :
    decision.apply r ≠ .ok r' := by
  cases decision with
  | approve =>
      have hreached : r.hasReached .policy = false := by
        rw [LibraryRunbook.hasReached, hgates]
        rfl
      simp [Decision.apply, LibraryRunbook.approve, hstatus, hreached]
  | promote => simp [Decision.apply, LibraryRunbook.promote, hstatus]

theorem noteProcedureOutcome_apart (m : RunbookManager) (completed : Bool) (hne : other ≠ name) :
    (m.call (.noteProcedureOutcome other completed)).library.byName name =
        m.library.byName name ∧
      (m.call (.noteProcedureOutcome other completed)).row name = m.row name := by
  refine (m.works_recordOutcome other completed ⟨none, none⟩).apart (fun r r' notes h => ?_) hne
  rw [h.1]
  exact ⟨rfl, rfl, fun hp => hp⟩

theorem onAttributedPlanValidated_apart (m : RunbookManager) (review : PolicyReview)
    (hne : other ≠ name) :
    (m.call (.onAttributedPlanValidated other review)).library.byName name =
        m.library.byName name ∧
      (m.call (.onAttributedPlanValidated other review)).row name = m.row name := by
  obtain ⟨hlibrary, hrow⟩ := m.noteProcedureOutcome_apart true hne
  obtain ⟨hlibrary', hrow'⟩ := (works_recordEarnedGate (m.call (.noteProcedureOutcome other true))
    other .validation ⟨none, none⟩).apart (fun _ _ _ h => advances_of_recordGate h.1) hne
  obtain ⟨hlibrary'', hrow''⟩ := (works_verdict _ other review ⟨none, none⟩).apart
    (fun _ _ _ h => advances_of_recordGate h.1) hne
  exact ⟨hlibrary''.trans (hlibrary'.trans hlibrary), hrow''.trans (hrow'.trans hrow)⟩

end RunbookManager

namespace ProcedureHost

variable {toJson : Value → String} {config : SituationsConfig} {s : ProcedureHost}

/-- The event uses no runbook of the name but the one of the identity: it delivers no other, loads
no other from a file, and ends no attempted plan of another. -/
def spares (name : String) (id : Nat) (s : ProcedureHost) : ProcedureEvent → Bool
  | .deliver delivery =>
      match delivery.review s.manager.minted with
      | .error _ => true
      | .ok reviewed => reviewed.runbook.name != name
  | .decide _ _ => true
  | .cycle event _ => (s.attempted event).all fun (o, _) => o.name != name || o.id == id
  | .restart files _ => ((loadRunbooks s.manager.minted files).byName name).isNone

/-- Some continuation that uses no other runbook of the name promotes it. -/
def Climbable (toJson : Value → String) (config : SituationsConfig) (s : ProcedureHost)
    (name : String) (id : Nat) : Prop :=
  ∃ events, Machine.Every (step toJson config) (fun s event => s.spares name id event = true) s
      events ∧
    ∃ r, (Machine.run (step toJson config) s events).manager.library.byName name = some r ∧
      r.status = .promoted

/-- The candidate of the name has its first two gates, it is the runbook of the name's row, and no
plan was built from it. -/
structure Waiting (name : String) (r : LibraryRunbook) (s : ProcedureHost) : Prop where
  tracked : s.Tracked
  gates : r.gates = [.evaluation, .simulation]
  status : r.status = .candidate
  alone : ∀ x, s.manager.library.byName name = some x → x = r
  row : (s.manager.row name).map DeliveredRunbook.runbook = some r
  undriven : ∀ o, some o ∈ s.origins → o.id ≠ r.id

namespace Waiting

variable {name : String} {r : LibraryRunbook}

/-- The library has the candidate's identity only for the candidate. -/
theorem eq_of_id (h : Waiting name r s) {x : LibraryRunbook}
    (hx : x ∈ s.manager.library.runbooks) (hid : x.id = r.id) : x = r := by
  have hfaithful := h.tracked.faithful
  obtain ⟨row, hrow, rfl⟩ := Option.map_eq_some_iff.mp h.row
  have hmem := Keyed.mem_of_lookup hrow
  obtain ⟨record, hheld, rfl⟩ :=
    hfaithful.tagged x hx (hid ▸ (hfaithful.rows row hmem).2.wasDelivered)
  rw [hfaithful.rowIds record (hfaithful.held record hheld).1 row hmem hid]

/-- What leaves the name as it is in the library and in its row. -/
theorem kept (h : Waiting name r s) {s' : ProcedureHost} (htracked : s'.Tracked)
    (hlibrary : s'.manager.library.byName name = s.manager.library.byName name)
    (hrow : s'.manager.row name = s.manager.row name)
    (hundriven : ∀ o, some o ∈ s'.origins → o.id ≠ r.id) : Waiting name r s' :=
  ⟨htracked, h.gates, h.status, fun x hx => h.alone x (hlibrary.symm.trans hx),
    (congrArg (Option.map _) hrow).trans h.row, hundriven⟩

theorem decided (h : Waiting name r s) (other : String) (decision : Decision) :
    Waiting name r (s.step toJson config (.decide other decision)) := by
  have hworks := s.manager.works_decide other decision ⟨none, none⟩
  by_cases hname : other = name
  · subst hname
    have hsame : s.manager.call (.decide other decision) = s.manager := by
      rcases hworks.byName fun _ _ _ hd => advances_of_apply hd.1 with
        heq | ⟨x, x', notes, hx, ⟨happly, -⟩, -, -⟩
      · exact heq
      · rw [h.alone x hx] at happly
        exact absurd happly (not_decided h.gates h.status)
    refine h.kept (h.tracked.step _) ?_ ?_ h.undriven
    · exact congrArg (fun m => m.library.byName other) hsame
    · exact congrArg (fun m => m.row other) hsame
  · obtain ⟨hlibrary, hrow⟩ := hworks.apart (fun _ _ _ hd => advances_of_apply hd.1) hname
    exact h.kept (h.tracked.step _) hlibrary hrow h.undriven

theorem delivered (h : Waiting name r s) {delivery : Delivery}
    (hspares : s.spares name r.id (.deliver delivery) = true) :
    Waiting name r (s.step toJson config (.deliver delivery)) := by
  have hmem {o : Origin} (ho : some o ∈ s.supersede delivery) :
      ∃ old, some old ∈ s.origins ∧ o.id = old.id := by
    unfold supersede at ho
    cases hreview : delivery.review s.manager.minted with
    | error reason =>
        rw [hreview] at ho
        exact ⟨o, ho, rfl⟩
    | ok reviewed =>
        rw [hreview] at ho
        obtain ⟨entry, hentry, heq⟩ := List.mem_map.mp ho
        obtain ⟨old, rfl, rfl⟩ := Option.map_eq_some_iff.mp heq
        refine ⟨old, hentry, ?_⟩
        unfold Origin.supersede
        split <;> rfl
  have hundriven : ∀ o, some o ∈ s.supersede delivery → o.id ≠ r.id := by
    intro o ho
    obtain ⟨old, hold, hid⟩ := hmem ho
    exact hid ▸ h.undriven old hold
  rcases h.tracked.faithful.call_deliver delivery with
    ⟨reason, hreview, heq⟩ | ⟨reviewed, hreview, hnew⟩
  · refine h.kept (h.tracked.step _) ?_ ?_ hundriven
    · exact congrArg (fun m => m.library.byName name) heq
    · exact congrArg (fun m => m.row name) heq
  · rw [spares, hreview, bne_iff_ne] at hspares
    refine h.kept (h.tracked.step _) ((hnew.byName name).trans (if_neg hspares)) ?_ hundriven
    show Keyed.lookup DeliveredRunbook.name (s.manager.call (.deliver delivery)).rows name = _
    rw [hnew.rows, Keyed.lookup_upsert]
    exact if_neg hspares

theorem restarted (h : Waiting name r s) {files : List (Except String RunbookFile)}
    {readable : Bool} (hspares : s.spares name r.id (.restart files readable) = true) :
    Waiting name r (s.step toJson config (.restart files readable)) := by
  have hfaithful := h.tracked.faithful
  have hnone : (loadRunbooks s.manager.minted files).byName name = none := by
    rwa [spares, Option.isNone_iff_eq_none] at hspares
  refine ⟨h.tracked.step _, h.gates, h.status, fun x hx => ?_, ?_, fun _ ho => by cases ho⟩
  · replace hx : (s.manager.restart files readable).library.byName name = some x := hx
    cases readable with
    | false =>
        rw [show (s.manager.restart files false).library.byName name = none from hnone] at hx
        cases hx
    | true =>
        have hids : (s.manager.rows.map fun row => row.runbook.id).Nodup :=
          (List.nodup_map_iff_inj_on hfaithful.rowNames.of_map).mpr hfaithful.rowIds
        rw [byName_restart hfaithful.rowNames hids
          (fun row hrow => hfaithful.lt_minted (hfaithful.rows row hrow).2.wasDelivered),
          h.row] at hx
        exact (Option.some.inj hx).symm
  · show ((s.manager.restart files readable).row name).map _ = _
    rw [RunbookManager.row, (s.manager.restart_frame files readable).1]
    exact h.row

theorem cycled (h : Waiting name r s) {event : CycleEvent} {review : PolicyReview}
    (hspares : s.spares name r.id (.cycle event review) = true) :
    Waiting name r (s.step toJson config (.cycle event review)) := by
  have hundriven : ∀ o, some o ∈ (s.step toJson config (.cycle event review)).origins →
      o.id ≠ r.id := by
    intro o ho hid
    rcases List.mem_append.mp ho with hold | hnew
    · exact h.undriven o hold hid
    · obtain ⟨x, hx, hsame, -, -, hpromoted⟩ :=
        Tracked.origin_spec (List.eq_of_mem_replicate hnew).symm
      rw [h.eq_of_id hx (hsame.trans hid), h.status] at hpromoted
      cases hpromoted
  have hapart : (s.routed event review).library.byName name = s.manager.library.byName name ∧
      (s.routed event review).row name = s.manager.row name := by
    rw [h.tracked.routed_eq event review]
    rw [spares] at hspares
    cases hattempted : s.attempted event with
    | none => exact ⟨rfl, rfl⟩
    | some attempted =>
        obtain ⟨o, completed⟩ := attempted
        have hne : o.name ≠ name := by
          have hother := h.undriven o (Tracked.origin_of_attempted hattempted)
          rw [hattempted, Option.all_some, Bool.or_eq_true, bne_iff_ne, beq_iff_eq] at hspares
          exact hspares.resolve_right hother
        cases completed with
        | false => exact s.manager.noteProcedureOutcome_apart false hne
        | true => exact s.manager.onAttributedPlanValidated_apart review hne
  exact h.kept (h.tracked.step _) hapart.1 hapart.2 hundriven

theorem step (h : Waiting name r s) {event : ProcedureEvent}
    (hspares : s.spares name r.id event = true) : Waiting name r (s.step toJson config event) := by
  cases event with
  | deliver delivery => exact h.delivered hspares
  | decide other decision => exact h.decided other decision
  | cycle event review => exact h.cycled hspares
  | restart files readable => exact h.restarted hspares

theorem not_climbable (h : Waiting name r s) : ¬ Climbable toJson config s name r.id := by
  rintro ⟨events, hspares, x, hx, hpromoted⟩
  have hwaiting := hspares.invariant h fun _ _ hs he => hs.step he
  rw [hwaiting.alone x hx, hwaiting.status] at hpromoted
  cases hpromoted

end Waiting

/-- A delivered candidate with its first two gates waits. -/
theorem Tracked.waiting (h : s.Tracked) {name : String} {r : LibraryRunbook}
    (hr : s.manager.library.byName name = some r) (hdelivered : s.manager.WasDelivered r.id)
    (hgates : r.gates = [.evaluation, .simulation]) : Waiting name r s := by
  have hmem := RunbookLibrary.mem_of_byName hr
  have hstatus : r.status = .candidate := by
    obtain ⟨n, htake, hn⟩ := h.faithful.laddered r hmem
    have htwo : ∀ n : Fin 7, [.evaluation, .simulation] = ladder.take n →
        statusAfter n = .candidate := by decide
    exact hn.trans (htwo n (hgates.symm.trans htake))
  refine ⟨h, hgates, hstatus, fun x hx => Option.some.inj (hx.symm.trans hr), ?_,
    fun o ho hid => ?_⟩
  · obtain ⟨record, hheld, rfl⟩ := h.faithful.tagged r hmem hdelivered
    have hrow := Keyed.lookup_of_mem h.faithful.rowNames (h.faithful.held record hheld).1
    have hname : record.name = name := RunbookLibrary.name_of_byName hr
    rw [RunbookManager.row, ← hname, hrow]
    rfl
  · have hpromoted := h.driven o ho r hmem hid.symm
    rw [hstatus] at hpromoted
    cases hpromoted

/-- In every run, no continuation promotes a delivered candidate that has its first two gates. -/
theorem candidate_not_climbable (toJson : Value → String) (config : SituationsConfig)
    (files : List (Except String RunbookFile)) (events : List ProcedureEvent) {name : String}
    {r : LibraryRunbook}
    (hr : (after toJson config files events).manager.library.byName name = some r)
    (hdelivered : (after toJson config files events).manager.WasDelivered r.id)
    (hgates : r.gates = [.evaluation, .simulation]) :
    ¬ Climbable toJson config (after toJson config files events) name r.id :=
  ((Tracked.after files events).waiting hr hdelivered hgates).not_climbable

/-! ### A candidate that waits -/

/-- The reclaim as it is after its delivery. -/
def reclaimCandidate : LibraryRunbook where
  name := "reclaim"
  trigger := .symptom memoryPressure
  allowedActions := [Brain.memoryReclaim]
  rollback := []
  status := .candidate
  attempts := 0
  successes := 0
  id := 0
  gates := [.evaluation, .simulation]

theorem reclaim_not_climbable :
    ¬ Climbable Brain.evidenceJson .default
      (after Brain.evidenceJson .default [] [.deliver (reclaimDelivery 1)]) "reclaim" 0 :=
  candidate_not_climbable Brain.evidenceJson .default [] [.deliver (reclaimDelivery 1)]
    (show _ = some reclaimCandidate by decide) ⟨⟨7, 8, 1, ⟨0⟩⟩, by decide⟩ rfl

/-- Not every delivered candidate with its first two gates can be promoted. -/
theorem ladder_not_climbable :
    ¬ ∀ (events : List ProcedureEvent) (name : String) (r : LibraryRunbook),
      let s := after Brain.evidenceJson .default [] events
      s.manager.library.byName name = some r → s.manager.WasDelivered r.id →
        r.gates = [.evaluation, .simulation] →
          Climbable Brain.evidenceJson .default s name r.id := by
  intro hall
  have hr : (after Brain.evidenceJson .default []
      [.deliver (reclaimDelivery 1)]).manager.library.byName "reclaim" =
        some reclaimCandidate := by decide
  have hdelivered : (after Brain.evidenceJson .default []
      [.deliver (reclaimDelivery 1)]).manager.WasDelivered 0 := ⟨⟨7, 8, 1, ⟨0⟩⟩, by decide⟩
  have htracked : (after Brain.evidenceJson .default [] [.deliver (reclaimDelivery 1)]).Tracked :=
    .after [] _
  exact (htracked.waiting hr hdelivered rfl).not_climbable
    (hall [.deliver (reclaimDelivery 1)] "reclaim" reclaimCandidate hr hdelivered rfl)

end ProcedureHost

end Argus
