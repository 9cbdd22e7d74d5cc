import Argus.Daemon.Runbooks
import Argus.Lib.Machine

/-!
# The history of a promoted runbook

A function of the manager that runs alone does nothing, accepts a delivery, or moves the runbook
of one name and persists it. What is traced under an identity is therefore the delivery and then
the gates the runbook has, in the library and in its row alike, and a promoted runbook has all
six. Identities are minted, so the history of a name starts over with each delivery.
-/

namespace Argus

/-- The note a gate leaves: the last two are the operator's decisions. -/
def Gate.note : Gate → LadderNote
  | .approval => .decided .approve
  | .promotion => .decided .promote
  | gate => .recorded gate

/-! ### The review -/

/-- A gate of the review: the next one, or none. -/
theorem Reviewed.gate_spec {reviewed : Reviewed} (gate : Gate) (evidence : Except String Unit)
    (hgate : gate = .evaluation ∨ gate = .simulation) (h : reviewed.runbook.Laddered) :
    let after := reviewed.gate gate evidence
    after.runbook.Laddered ∧ ∃ gates,
      after.runbook = { reviewed.runbook with gates := reviewed.runbook.gates ++ gates } ∧
      ∀ g ∈ gates, g = .evaluation ∨ g = .simulation := by
  have hnone : ∃ gates : List Gate,
      reviewed.runbook = { reviewed.runbook with gates := reviewed.runbook.gates ++ gates } ∧
      ∀ g ∈ gates, g = .evaluation ∨ g = .simulation :=
    ⟨[], by rw [List.append_nil], fun _ hg => absurd hg List.not_mem_nil⟩
  unfold Reviewed.gate
  cases evidence with
  | error reason => exact ⟨h, hnone⟩
  | ok u =>
      cases hrecord : reviewed.runbook.recordGate gate with
      | error error => exact ⟨h, hnone⟩
      | ok runbook =>
          have hclimbs := LibraryRunbook.climbs_of_recordGate
            (by rcases hgate with rfl | rfl <;> decide) (by rcases hgate with rfl | rfl <;> decide)
            hrecord
          obtain ⟨-, rfl⟩ := LibraryRunbook.recordGate_eq_ok_iff.mp hrecord
          exact ⟨hclimbs.laddered h, [gate], rfl, fun g hg => List.mem_singleton.mp hg ▸ hgate⟩

/-- A delivery that passes the review is a candidate with the minted identity and no history, on
the ladder, and its gates are those of the review. -/
theorem Delivery.review_spec {delivery : Delivery} {id : Nat} {reviewed : Reviewed}
    (h : delivery.review id = .ok reviewed) :
    reviewed.runbook.Laddered ∧ reviewed.runbook.status = .candidate ∧
      reviewed.runbook.id = id ∧ reviewed.runbook.attempts = 0 ∧ reviewed.runbook.successes = 0 ∧
      ∀ g ∈ reviewed.runbook.gates, g = .evaluation ∨ g = .simulation := by
  unfold Delivery.review at h
  by_cases hbytes : maxRunbookTomlBytes < delivery.bytes
  · rw [if_pos hbytes] at h
    cases h
  rw [if_neg hbytes] at h
  cases hparse : parseRunbook id delivery.toml with
  | error reason =>
      rw [hparse] at h
      cases h
  | ok runbook =>
      rw [hparse] at h
      dsimp only at h
      by_cases hgates : runbook.gates.isEmpty = true
      · rw [hgates] at h
        obtain rfl := Except.ok.inj h
        have hnil : runbook.gates = [] := List.isEmpty_iff.mp hgates
        obtain ⟨hid, hattempts, hsuccesses, hladdered⟩ := laddered_of_parse hparse
        have hstatus : runbook.status = .candidate := by
          obtain ⟨n, htake, hn⟩ := hladdered
          have hzero : ∀ n : Fin 7, [] = ladder.take n → statusAfter n = .candidate := by decide
          exact hn.trans (hzero n (hnil.symm.trans htake))
        obtain ⟨h1, gates, heq, hreviewed⟩ :=
          @Reviewed.gate_spec ⟨runbook, ⟨runbook.name, [], []⟩⟩ .evaluation
            (evaluationEvidence delivery.toLowercase runbook delivery.episodes) (.inl rfl) hladdered
        obtain ⟨h1', gates', heq', hreviewed'⟩ := Reviewed.gate_spec .simulation
          (simulationEvidence runbook delivery.descriptors) (.inr rfl) h1
        refine ⟨h1', ?_⟩
        rw [heq', heq]
        refine ⟨hstatus, hid, hattempts, hsuccesses, fun g hg => ?_⟩
        rw [hnil, List.nil_append] at hg
        exact (List.mem_append.mp hg).elim (hreviewed g) (hreviewed' g)
      · rw [Bool.not_eq_true] at hgates
        rw [hgates] at h
        cases h

theorem Decision.climbs {decision : Decision} {r r' : LibraryRunbook}
    (h : decision.apply r = .ok r') : r.Climbs decision.gate r' := by
  cases decision with
  | approve => exact LibraryRunbook.climbs_of_approve h
  | promote => exact LibraryRunbook.climbs_of_promote h

namespace RunbookManager

variable {m m' : RunbookManager} {name : String} {r r' : LibraryRunbook}

/-! ### What a name reads -/

@[simp] theorem row_putRow (record : DeliveredRunbook) :
    (m.putRow record).row name = if record.name = name then some record else m.row name :=
  Keyed.lookup_upsert

@[simp] theorem record_putRecord (record : DeliveredRunbook) :
    (m.putRecord record).record name =
      if record.name = name then some record else m.record name := Keyed.lookup_upsert

@[simp] theorem record_putRow (record : DeliveredRunbook) :
    (m.putRow record).record name = m.record name := rfl

@[simp] theorem row_putRecord (record : DeliveredRunbook) :
    (m.putRecord record).row name = m.row name := rfl

theorem byName_move {notes : List LadderNote} {other : String}
    (hr : m.library.byName name = some r) (hid : r'.id = r.id) (hname : r'.name = r.name) :
    (m.move r' notes).library.byName other =
      if name = other then some r' else m.library.byName other := by
  have hnamed := RunbookLibrary.name_of_byName hr
  have hmem (x : LibraryRunbook) := @RunbookLibrary.mem_replace _ _ r' _ hr hid hname x
  refine Option.ext fun x => ?_
  show (m.library.replace r').byName other = some x ↔ _
  rw [RunbookLibrary.byName_eq_some_iff, hmem]
  by_cases ho : name = other
  · subst ho
    rw [if_pos rfl, Option.some.injEq]
    constructor
    · rintro ⟨rfl | ⟨-, hne⟩, heq⟩
      · rfl
      · exact absurd heq hne
    · rintro rfl
      exact ⟨.inl rfl, hname.trans hnamed⟩
  · rw [if_neg ho, RunbookLibrary.byName_eq_some_iff]
    constructor
    · rintro ⟨rfl | ⟨hold, -⟩, heq⟩
      · exact absurd (hnamed.symm.trans (hname.symm.trans heq)) ho
      · exact ⟨hold, heq⟩
    · rintro ⟨hold, heq⟩
      exact ⟨.inr ⟨hold, fun h => ho (h.symm.trans heq)⟩, heq⟩

theorem byName_supersede {record : DeliveredRunbook} {library : RunbookLibrary} {other : String}
    (hlibrary : (m.library.remove record.runbook.name).register record.runbook = .ok library)
    (hnew : ∀ r ∈ m.library.runbooks, r.id ≠ record.runbook.id) :
    library.byName other =
      if record.name = other then some record.runbook else m.library.byName other := by
  refine Option.ext fun x => ?_
  rw [RunbookLibrary.byName_eq_some_iff, RunbookLibrary.mem_register hlibrary,
    RunbookLibrary.mem_remove]
  by_cases ho : record.name = other
  · subst ho
    rw [if_pos rfl, Option.some.injEq]
    constructor
    · rintro ⟨rfl | ⟨⟨-, hne⟩, -⟩, heq⟩
      · rfl
      · exact absurd heq hne
    · rintro rfl
      exact ⟨.inl rfl, rfl⟩
  · rw [if_neg ho, RunbookLibrary.byName_eq_some_iff]
    constructor
    · rintro ⟨rfl | ⟨⟨hold, -⟩, -⟩, heq⟩
      · exact absurd heq ho
      · exact ⟨hold, heq⟩
    · rintro ⟨hold, heq⟩
      exact ⟨.inr ⟨⟨hold, fun h => ho (h.symm.trans heq)⟩, hnew x hold⟩, heq⟩

/-- The rows of a restart supersede what was loaded, each by its name. -/
theorem byName_restore {rows : List DeliveredRunbook}
    (hnames : (rows.map DeliveredRunbook.name).Nodup)
    (hids : (rows.map fun row => row.runbook.id).Nodup)
    (hnew : ∀ r ∈ m.library.runbooks, ∀ row ∈ rows, r.id ≠ row.runbook.id) (name : String) :
    (rows.foldl restore m).library.byName name =
      ((Keyed.lookup DeliveredRunbook.name rows name).map DeliveredRunbook.runbook).or
        (m.library.byName name) := by
  induction rows generalizing m with
  | nil => rfl
  | cons row rows ih =>
      rw [List.map_cons, List.nodup_cons] at hnames hids
      obtain ⟨library, hlibrary⟩ := m.library.register_remove row.runbook
      have hrestore : m.restore row = { m with library := library }.putRecord row := by
        unfold restore DeliveredRunbook.name
        dsimp only
        rw [hlibrary]
      have hread : library.byName name =
          if row.name = name then some row.runbook else m.library.byName name :=
        byName_supersede hlibrary fun r hr => hnew r hr row List.mem_cons_self
      rw [List.foldl_cons, ih hnames.2 hids.2]
      · rw [hrestore]
        show (Option.map _ _).or (library.byName name) = _
        rw [hread, Keyed.lookup_cons]
        by_cases hname : row.name = name
        · have hnone : Keyed.lookup DeliveredRunbook.name rows name = none :=
            Keyed.lookup_eq_none_iff.mpr fun x hx heq =>
              hnames.1 (hname.trans heq.symm ▸ List.mem_map_of_mem hx)
          rw [if_pos hname, if_pos hname, hnone]
          rfl
        · rw [if_neg hname, if_neg hname]
      · intro r hr x hx heq
        rw [hrestore] at hr
        rcases (RunbookLibrary.mem_register hlibrary).mp hr with rfl | ⟨hold, -⟩
        · exact hids.1 (heq ▸ List.mem_map_of_mem (f := fun row => row.runbook.id) hx)
        · exact hnew r (RunbookLibrary.mem_remove.mp hold).1 x (List.mem_cons_of_mem _ hx) heq

/-- What a restart has of each name: its row's runbook, or what a file declares. -/
theorem byName_restart (hnames : (m.rows.map DeliveredRunbook.name).Nodup)
    (hids : (m.rows.map fun row => row.runbook.id).Nodup)
    (hold : ∀ row ∈ m.rows, row.runbook.id < m.minted) (files : List (Except String RunbookFile))
    (name : String) :
    (m.restart files true).library.byName name =
      ((m.row name).map DeliveredRunbook.runbook).or
        ((loadRunbooks m.minted files).byName name) := by
  have hperm := List.perm_insertionSort (fun a b : DeliveredRunbook => a.name ≤ b.name) m.rows
  have hsorted := (hperm.map DeliveredRunbook.name).nodup_iff.mpr hnames
  rw [restart, if_pos rfl, byName_restore hsorted, Keyed.lookup_of_perm hsorted hperm]
  · rfl
  · exact (hperm.map _).nodup_iff.mpr hids
  · intro r hr row hrow heq
    have hlt := hold row (hperm.mem_iff.mp hrow)
    have hnew := (loaded_of_load r hr).2.1
    omega

/-! ### What a function does -/

/-- `persist_delivered` when it runs alone. -/
def persist (m : RunbookManager) (name : String) : RunbookManager :=
  match m.library.byName name, m.record name with
  | some runbook, some record =>
      let record := { record with runbook := runbook }
      (m.putRecord record).putRow record
  | _, _ => m

/-- A delivery as it is accepted. -/
def accept (m : RunbookManager) (record : DeliveredRunbook) (library : RunbookLibrary) :
    RunbookManager :=
  { ({ m with library := library, minted := m.minted + 1 }.putRow record).putRecord record with
    trace := m.trace ++ deliveryNotes record }

/-- What a function that runs alone may do. -/
inductive Moved (m : RunbookManager) : RunbookManager → Prop
  | kept (count : Nat) : Moved m { m with minted := m.minted + count }
  | accepted (record : DeliveredRunbook) (library : RunbookLibrary)
      (hid : record.runbook.id = m.minted) (hladdered : record.runbook.Laddered)
      (hnotes : ∀ g ∈ record.runbook.gates, g.note = .recorded g)
      (hlibrary : (m.library.remove record.runbook.name).register record.runbook = .ok library) :
      Moved m (m.accept record library)
  | moved (name : String) (r r' : LibraryRunbook) (gates : List Gate)
      (hr : m.library.byName name = some r) (hid : r'.id = r.id) (hname : r'.name = r.name)
      (hgates : r'.gates = r.gates ++ gates) (hladdered : r.Laddered → r'.Laddered) :
      Moved m ((m.move r' (gates.map Gate.note)).persist name)

theorem Moved.refl (m : RunbookManager) : Moved m m := .kept 0

theorem runFunction_persist (m : RunbookManager) (locals : Locals) (name : String)
    (rest : List LockSection) (hrest : rest = [] ∨ rest = [.unlock]) :
    m.runFunction locals (persistDelivered name ++ rest) = m.persist name := by
  unfold persistDelivered persist
  simp only [List.cons_append, List.nil_append, runFunction, exec]
  cases hlib : m.library.byName name with
  | none => rfl
  | some runbook =>
      cases hrec : m.record name with
      | none => simp [hrec]
      | some record =>
          rcases hrest with rfl | rfl <;> simp [hrec, runFunction, exec]

/-- A delivery that runs alone: refused by the review, or accepted. -/
theorem runFunction_deliver (m : RunbookManager) (delivery : Delivery) (locals : Locals) :
    let m' := m.runFunction locals
      [.lock, .review delivery, .storeDelivery, .supersede, .insertRecord, .unlock]
    (∃ reason, delivery.review m.minted = .error reason ∧
      m' = { m with minted := m.minted + 1 }) ∨
    ∃ reviewed library, delivery.review m.minted = .ok reviewed ∧
      (m.library.remove reviewed.runbook.name).register reviewed.runbook = .ok library ∧
      m' = m.accept ⟨delivery.provenance, reviewed.runbook⟩ library := by
  simp only [runFunction, exec]
  cases hreview : delivery.review m.minted with
  | error reason => exact .inl ⟨reason, rfl, rfl⟩
  | ok reviewed =>
      obtain ⟨library, hlibrary⟩ := m.library.register_remove reviewed.runbook
      have hregister : ((({ m with minted := m.minted + 1 } : RunbookManager).putRow
          ⟨delivery.provenance, reviewed.runbook⟩).library.remove reviewed.runbook.name).register
            reviewed.runbook = .ok library := hlibrary
      simp only [hregister]
      exact .inr ⟨reviewed, library, rfl, hlibrary, rfl⟩

theorem moved_deliver (delivery : Delivery) (locals : Locals) :
    Moved m (m.runFunction locals
      [.lock, .review delivery, .storeDelivery, .supersede, .insertRecord, .unlock]) := by
  rcases m.runFunction_deliver delivery locals with
    ⟨reason, -, heq⟩ | ⟨reviewed, library, hreview, hlibrary, heq⟩
  · rw [heq]
    exact .kept 1
  · obtain ⟨hladdered, -, hid, -, -, hgates⟩ := Delivery.review_spec hreview
    have hnotes : ∀ g ∈ reviewed.runbook.gates, g.note = .recorded g := fun g hg => by
      rcases hgates g hg with rfl | rfl <;> rfl
    rw [heq]
    exact .accepted ⟨delivery.provenance, reviewed.runbook⟩ library hid hladdered hnotes hlibrary

/-- The runbook of the name moves as `R` says and is persisted, or nothing happens. -/
inductive Works (m : RunbookManager) (name : String)
    (R : LibraryRunbook → LibraryRunbook → List LadderNote → Prop) : RunbookManager → Prop
  | idle : Works m name R m
  | moved (r r' : LibraryRunbook) (notes : List LadderNote)
      (hr : m.library.byName name = some r) (hR : R r r' notes) :
      Works m name R ((m.move r' notes).persist name)

theorem Works.climbed {R : LibraryRunbook → LibraryRunbook → List LadderNote → Prop}
    (h : m.Works name R m') (gate : Gate)
    (hR : ∀ r r' notes, R r r' notes → r.Climbs gate r' ∧ notes = [gate.note]) : Moved m m' := by
  cases h with
  | idle => exact .refl m
  | moved r r' notes hr hr' =>
      obtain ⟨hclimbs, rfl⟩ := hR r r' notes hr'
      exact .moved name r r' [gate] hr hclimbs.id hclimbs.name hclimbs.gates hclimbs.laddered

/-- The recording of an outcome that runs alone. -/
theorem runFunction_recordOutcome (m : RunbookManager) (name : String) (success : Bool)
    (locals : Locals) :
    m.runFunction locals (recordOutcome name success) =
      match m.library.byName name with
      | none => m
      | some r => (m.move (r.recordOutcome success) []).persist name := by
  rw [recordOutcome, runFunction, exec]
  cases m.library.byName name with
  | none => rfl
  | some r =>
      dsimp only
      have hpersist := (m.move (r.recordOutcome success) []).runFunction_persist locals name []
        (.inl rfl)
      rw [List.append_nil] at hpersist
      exact hpersist

theorem moved_recordOutcome (name : String) (success : Bool) (locals : Locals) :
    Moved m (m.runFunction locals (recordOutcome name success)) := by
  rw [runFunction_recordOutcome]
  cases hr : m.library.byName name with
  | none => exact .refl m
  | some r =>
      exact .moved name r (r.recordOutcome success) [] hr rfl rfl (List.append_nil _).symm
        fun h => h

theorem works_recordEarnedGate (m : RunbookManager) (name : String) (gate : Gate)
    (locals : Locals) :
    m.Works name (fun r r' notes => r.recordGate gate = .ok r' ∧ notes = [.recorded gate])
      (m.runFunction locals (recordEarnedGate name gate)) := by
  rw [recordEarnedGate, List.cons_append, List.cons_append, runFunction, exec]
  dsimp only
  rw [runFunction, exec]
  cases hr : m.library.byName name with
  | none => exact .idle
  | some r =>
      dsimp only
      cases hrecord : r.recordGate gate with
      | error error => exact .idle
      | ok r' =>
          dsimp only
          rw [runFunction_persist _ locals name [.unlock] (.inr rfl)]
          exact .moved r r' [.recorded gate] hr ⟨hrecord, rfl⟩

theorem moved_recordEarnedGate (name : String) {gate : Gate} (hap : gate ≠ .approval)
    (hpr : gate ≠ .promotion) (locals : Locals) :
    Moved m (m.runFunction locals (recordEarnedGate name gate)) := by
  have hnote : gate.note = .recorded gate := by cases gate <;> first | rfl | contradiction
  refine (m.works_recordEarnedGate name gate locals).climbed gate fun r r' notes h => ?_
  exact ⟨LibraryRunbook.climbs_of_recordGate hap hpr h.1, by rw [hnote, h.2]⟩

theorem works_decide (m : RunbookManager) (name : String) (decision : Decision)
    (locals : Locals) :
    m.Works name (fun r r' notes => decision.apply r = .ok r' ∧ notes = [.decided decision])
      (m.runFunction locals (.lock :: .requireDelivered name :: .decide name decision ::
        persistDelivered name ++ [.unlock])) := by
  rw [List.cons_append, List.cons_append, List.cons_append, runFunction, exec]
  dsimp only
  rw [runFunction, exec]
  cases m.record name with
  | none => exact .idle
  | some record =>
      dsimp only
      rw [runFunction, exec]
      cases hr : m.library.byName name with
      | none => exact .idle
      | some r =>
          dsimp only
          cases happly : decision.apply r with
          | error error => exact .idle
          | ok r' =>
              dsimp only
              rw [runFunction_persist _ locals name [.unlock] (.inr rfl)]
              exact .moved r r' [.decided decision] hr ⟨happly, rfl⟩

theorem moved_decide (name : String) (decision : Decision) (locals : Locals) :
    Moved m (m.runFunction locals (.lock :: .requireDelivered name :: .decide name decision ::
      persistDelivered name ++ [.unlock])) := by
  have hnote : decision.gate.note = .decided decision := by cases decision <;> rfl
  refine (m.works_decide name decision locals).climbed decision.gate fun r r' notes h => ?_
  exact ⟨Decision.climbs h.1, by rw [hnote, h.2]⟩

theorem works_verdict (m : RunbookManager) (name : String) (review : PolicyReview)
    (locals : Locals) :
    m.Works name (fun r r' notes => r.recordGate .policy = .ok r' ∧ notes = [.recorded .policy])
      (m.runFunction locals (.verdict name review :: recordEarnedGate name .policy)) := by
  rw [runFunction, exec]
  cases m.library.byName name with
  | none => exact .idle
  | some r =>
      dsimp only
      cases r.hasReached .validation with
      | false => exact .idle
      | true =>
          cases policyCompatible r review with
          | error reason => exact .idle
          | ok u => exact m.works_recordEarnedGate name .policy locals

theorem moved_verdict (name : String) (review : PolicyReview) (locals : Locals) :
    Moved m (m.runFunction locals (.verdict name review :: recordEarnedGate name .policy)) := by
  refine (m.works_verdict name review locals).climbed .policy fun r r' notes h => ?_
  exact ⟨LibraryRunbook.climbs_of_recordGate (by decide) (by decide) h.1, h.2⟩

/-- Every function of every call. -/
theorem moved_of_mem_program {call : RunbookCall} {sections : List LockSection}
    (h : sections ∈ call.program) (m : RunbookManager) (locals : Locals) :
    Moved m (m.runFunction locals sections) := by
  cases call with
  | deliver delivery =>
      obtain rfl := List.mem_singleton.mp h
      exact moved_deliver delivery locals
  | decide name decision =>
      obtain rfl := List.mem_singleton.mp h
      exact moved_decide name decision locals
  | onAttributedPlanValidated name review =>
      simp only [RunbookCall.program, List.mem_cons, List.not_mem_nil, or_false] at h
      rcases h with rfl | rfl | rfl
      · exact moved_recordOutcome name true locals
      · exact moved_recordEarnedGate name (by decide) (by decide) locals
      · exact moved_verdict name review locals
  | noteProcedureOutcome name success =>
      obtain rfl := List.mem_singleton.mp h
      exact moved_recordOutcome name success locals

/-- What every function keeps, every call keeps. -/
theorem call_invariant {I : RunbookManager → Prop} (hI : ∀ m m', I m → Moved m m' → I m')
    (h : I m) (call : RunbookCall) : I (m.call call) := by
  have hfold (program : List (List LockSection))
      (hprogram : ∀ sections ∈ program, sections ∈ call.program) (m : RunbookManager) (h : I m) :
      I (program.foldl (fun m sections => m.runFunction ⟨none, none⟩ sections) m) := by
    induction program generalizing m with
    | nil => exact h
    | cons sections program ih =>
        obtain ⟨hmem, hrest⟩ := List.forall_mem_cons.mp hprogram
        exact ih hrest _ (hI _ _ h (moved_of_mem_program hmem m ⟨none, none⟩))
  exact hfold call.program (fun _ h => h) m h

/-! ### The history -/

/-- What was traced under an identity, in order. -/
def notesOf (m : RunbookManager) (id : Nat) : List LadderNote :=
  (m.trace.filter fun entry => entry.1 == id).map Prod.snd

theorem notesOf_append {id : Nat} {notes : List (Nat × LadderNote)}
    (h : m'.trace = m.trace ++ notes) :
    m'.notesOf id = m.notesOf id ++ (notes.filter fun entry => entry.1 == id).map Prod.snd := by
  rw [notesOf, h, List.filter_append, List.map_append]
  rfl

theorem filter_tagged (id other : Nat) (notes : List LadderNote) :
    ((notes.map fun note => (id, note)).filter fun entry => entry.1 == other).map Prod.snd =
      if id = other then notes else [] := by
  by_cases h : id = other <;> simp [h, List.filter_map, Function.comp_def]

/-- A runbook that was delivered. -/
def WasDelivered (m : RunbookManager) (id : Nat) : Prop :=
  ∃ provenance, (id, LadderNote.delivered provenance) ∈ m.trace

/-- The history under its identity is the delivery and then its gates. -/
def Told (m : RunbookManager) (record : DeliveredRunbook) : Prop :=
  m.notesOf record.runbook.id =
    .delivered record.toProvenance :: record.runbook.gates.map Gate.note

theorem Told.wasDelivered {record : DeliveredRunbook} (h : m.Told record) :
    m.WasDelivered record.runbook.id := by
  have hmem : LadderNote.delivered record.toProvenance ∈ m.notesOf record.runbook.id := by
    rw [h]
    exact List.mem_cons_self
  obtain ⟨⟨id, note⟩, hentry, rfl⟩ := List.mem_map.mp hmem
  obtain ⟨hentry, hid⟩ := List.mem_filter.mp hentry
  obtain rfl : id = record.runbook.id := by simpa using hid
  exact ⟨_, hentry⟩

/-- Every delivered runbook of the library is in the delivered map and in its row as it is, and
every row tells its own history. -/
structure Faithful (m : RunbookManager) : Prop where
  laddered : ∀ r ∈ m.library.runbooks, r.Laddered
  minted : ∀ r ∈ m.library.runbooks, r.id < m.minted
  noted : ∀ entry ∈ m.trace, entry.1 < m.minted
  rows : ∀ row ∈ m.rows, row.runbook.Laddered ∧ m.Told row
  rowNames : (m.rows.map DeliveredRunbook.name).Nodup
  rowIds : ∀ row ∈ m.rows, ∀ row' ∈ m.rows, row.runbook.id = row'.runbook.id → row = row'
  heldNames : (m.delivered.map DeliveredRunbook.name).Nodup
  held : ∀ record ∈ m.delivered, record ∈ m.rows ∧ record.runbook ∈ m.library.runbooks
  tagged : ∀ r ∈ m.library.runbooks, m.WasDelivered r.id →
    ∃ record ∈ m.delivered, record.runbook = r

namespace Faithful

theorem lt_minted (h : m.Faithful) {id : Nat} (hid : m.WasDelivered id) : id < m.minted := by
  obtain ⟨provenance, hentry⟩ := hid
  exact h.noted _ hentry

theorem notesOf_minted (h : m.Faithful) : m.notesOf m.minted = [] := by
  rw [notesOf, List.map_eq_nil_iff, List.filter_eq_nil_iff]
  intro entry hentry heq
  exact absurd (h.noted entry hentry) (by simp at heq; omega)

theorem record_eq_some_iff (h : m.Faithful) {record : DeliveredRunbook} :
    m.record name = some record ↔ record ∈ m.delivered ∧ record.name = name :=
  Keyed.lookup_eq_some_iff h.heldNames

theorem kept (h : m.Faithful) (count : Nat) :
    Faithful { m with minted := m.minted + count } where
  laddered := h.laddered
  minted := fun r hr => (h.minted r hr).trans_le (Nat.le_add_right _ _)
  noted := fun entry hentry => (h.noted entry hentry).trans_le (Nat.le_add_right _ _)
  rows := h.rows
  rowNames := h.rowNames
  rowIds := h.rowIds
  heldNames := h.heldNames
  held := h.held
  tagged := h.tagged

/-- A record that is put in the place of what its name had, in the library, the map and the rows
alike, where its identity is that name's own. -/
theorem put (h : m.Faithful) (record : DeliveredRunbook) (notes : List LadderNote)
    {library : RunbookLibrary} {minted : Nat}
    (hlibrary : ∀ r, r ∈ library.runbooks ↔
      r = record.runbook ∨ r ∈ m.library.runbooks ∧ r.name ≠ record.name)
    (hown : ∀ row ∈ m.rows, row.runbook.id = record.runbook.id → row.name = record.name)
    (hfree : ∀ r ∈ m.library.runbooks, r.id = record.runbook.id → r.name = record.name)
    (hladdered : record.runbook.Laddered) (hminted : m.minted ≤ minted)
    (hid : record.runbook.id < minted)
    (htold : m.notesOf record.runbook.id ++ notes =
      .delivered record.toProvenance :: record.runbook.gates.map Gate.note) :
    Faithful
      { library := library
        delivered := Keyed.upsert DeliveredRunbook.name record m.delivered
        rows := Keyed.upsert DeliveredRunbook.name record m.rows
        minted := minted
        trace := m.trace ++ notes.map fun note => (record.runbook.id, note) } := by
  have hrows := @Keyed.mem_upsert _ _ _ DeliveredRunbook.name m.rows
  have hdelivered := @Keyed.mem_upsert _ _ _ DeliveredRunbook.name m.delivered
  -- What another name has is of another identity, and its history stays.
  have hother {row : DeliveredRunbook} (hrow : row ∈ m.rows) (hname : row.name ≠ record.name) :
      record.runbook.id ≠ row.runbook.id := fun heq => hname (hown row hrow heq.symm)
  constructor
  · intro r hr
    rcases (hlibrary r).mp hr with rfl | ⟨hold, -⟩
    · exact hladdered
    · exact h.laddered r hold
  · intro r hr
    rcases (hlibrary r).mp hr with rfl | ⟨hold, -⟩
    · exact hid
    · exact (h.minted r hold).trans_le hminted
  · intro entry hentry
    rcases List.mem_append.mp hentry with hold | hnew
    · exact (h.noted entry hold).trans_le hminted
    · obtain ⟨note, -, rfl⟩ := List.mem_map.mp hnew
      exact hid
  · intro row hrow
    rcases (hrows h.rowNames).mp hrow with rfl | ⟨hold, hname⟩
    · refine ⟨hladdered, ?_⟩
      rw [Told, notesOf_append rfl, filter_tagged, if_pos rfl]
      exact htold
    · refine ⟨(h.rows row hold).1, ?_⟩
      rw [Told, notesOf_append rfl, filter_tagged, if_neg (hother hold hname), List.append_nil]
      exact (h.rows row hold).2
  · exact Keyed.nodup_upsert h.rowNames
  · intro row hrow row' hrow' heq
    rcases (hrows h.rowNames).mp hrow with rfl | ⟨hold, hname⟩ <;>
      rcases (hrows h.rowNames).mp hrow' with rfl | ⟨hold', hname'⟩
    · rfl
    · exact absurd heq (hother hold' hname')
    · exact absurd heq.symm (hother hold hname)
    · exact h.rowIds row hold row' hold' heq
  · exact Keyed.nodup_upsert h.heldNames
  · intro other hmem
    rcases (hdelivered h.heldNames).mp hmem with rfl | ⟨hold, hname⟩
    · exact ⟨(hrows h.rowNames).mpr (.inl rfl), (hlibrary _).mpr (.inl rfl)⟩
    · obtain ⟨hrow, hlib⟩ := h.held other hold
      exact ⟨(hrows h.rowNames).mpr (.inr ⟨hrow, hname⟩), (hlibrary _).mpr (.inr ⟨hlib, hname⟩)⟩
  · rintro r hr ⟨provenance, hentry⟩
    rcases (hlibrary r).mp hr with rfl | ⟨hold, hname⟩
    · exact ⟨record, (hdelivered h.heldNames).mpr (.inl rfl), rfl⟩
    · rcases List.mem_append.mp hentry with hbefore | hnew
      · obtain ⟨other, hmem, rfl⟩ := h.tagged r hold ⟨provenance, hbefore⟩
        exact ⟨other, (hdelivered h.heldNames).mpr (.inr ⟨hmem, hname⟩), rfl⟩
      · obtain ⟨note, -, hnote⟩ := List.mem_map.mp hnew
        exact absurd (hfree r hold (congrArg Prod.fst hnote).symm) hname

theorem accepted (h : m.Faithful) {record : DeliveredRunbook} {library : RunbookLibrary}
    (hid : record.runbook.id = m.minted) (hladdered : record.runbook.Laddered)
    (hnotes : ∀ g ∈ record.runbook.gates, g.note = .recorded g)
    (hlibrary : (m.library.remove record.runbook.name).register record.runbook = .ok library) :
    (m.accept record library).Faithful := by
  have hnote : record.runbook.gates.map LadderNote.recorded =
      record.runbook.gates.map Gate.note := List.map_congr_left fun g hg => (hnotes g hg).symm
  refine h.put record (.delivered record.toProvenance :: record.runbook.gates.map .recorded)
    (fun r => ?_) (fun row hrow heq => ?_) (fun r hr heq => ?_) hladdered (Nat.le_succ _) ?_ ?_
  · show r ∈ library.runbooks ↔ _
    rw [RunbookLibrary.mem_register hlibrary, RunbookLibrary.mem_remove]
    refine or_congr_right ⟨fun hr => hr.1, fun hr => ⟨hr, ?_⟩⟩
    have hlt := h.minted r hr.1
    omega
  · have hlt := h.lt_minted (h.rows row hrow).2.wasDelivered
    omega
  · have hlt := h.minted r hr
    omega
  · exact hid ▸ Nat.lt_succ_self _
  · rw [hid, h.notesOf_minted, hnote]
    rfl

/-- A runbook of a file moved: no row has its identity. -/
theorem movedFile (h : m.Faithful) {gates : List Gate} (hr : m.library.byName name = some r)
    (hid : r'.id = r.id) (hname : r'.name = r.name) (hladdered : r.Laddered → r'.Laddered)
    (hfile : m.record name = none) : (m.move r' (gates.map Gate.note)).Faithful := by
  have hmem := RunbookLibrary.mem_of_byName hr
  have hnamed := RunbookLibrary.name_of_byName hr
  have hnot : ¬ m.WasDelivered r.id := by
    intro hdelivered
    obtain ⟨record, hrecord, rfl⟩ := h.tagged r hmem hdelivered
    rw [h.record_eq_some_iff.mpr ⟨hrecord, hnamed⟩] at hfile
    cases hfile
  have htrace : (m.move r' (gates.map Gate.note)).trace =
      m.trace ++ (gates.map Gate.note).map fun note => (r'.id, note) := rfl
  have hnew {id : Nat} (hd : (m.move r' (gates.map Gate.note)).WasDelivered id) :
      m.WasDelivered id := by
    obtain ⟨provenance, hentry⟩ := hd
    rcases List.mem_append.mp hentry with hold | hadded
    · exact ⟨provenance, hold⟩
    · obtain ⟨note, hnote, heq⟩ := List.mem_map.mp hadded
      obtain ⟨gate, -, rfl⟩ := List.mem_map.mp hnote
      cases gate <;> cases heq
  have hlibrary (other : LibraryRunbook) := @RunbookLibrary.mem_replace _ _ r' _ hr hid hname other
  constructor
  · intro other hother
    rcases (hlibrary other).mp hother with rfl | ⟨hold, -⟩
    · exact hladdered (h.laddered r hmem)
    · exact h.laddered other hold
  · intro other hother
    rcases (hlibrary other).mp hother with rfl | ⟨hold, -⟩
    · exact hid ▸ h.minted r hmem
    · exact h.minted other hold
  · intro entry hentry
    rcases List.mem_append.mp hentry with hold | hadded
    · exact h.noted entry hold
    · obtain ⟨note, -, rfl⟩ := List.mem_map.mp hadded
      exact hid ▸ h.minted r hmem
  · intro row hrow
    have hne : r'.id ≠ row.runbook.id := fun heq =>
      hnot (hid ▸ heq ▸ (h.rows row hrow).2.wasDelivered)
    refine ⟨(h.rows row hrow).1, ?_⟩
    rw [Told, notesOf_append htrace, filter_tagged, if_neg hne, List.append_nil]
    exact (h.rows row hrow).2
  · exact h.rowNames
  · exact h.rowIds
  · exact h.heldNames
  · intro record hrecord
    obtain ⟨hrow, hlib⟩ := h.held record hrecord
    refine ⟨hrow, (hlibrary _).mpr (.inr ⟨hlib, fun heq => ?_⟩)⟩
    rw [h.record_eq_some_iff.mpr ⟨hrecord, heq⟩] at hfile
    cases hfile
  · intro other hother hd
    rcases (hlibrary other).mp hother with rfl | ⟨hold, -⟩
    · exact absurd (hid ▸ hnew hd) hnot
    · exact h.tagged other hold (hnew hd)

/-- A runbook moved and is persisted where it was delivered. -/
theorem moved (h : m.Faithful) {gates : List Gate} (hr : m.library.byName name = some r)
    (hid : r'.id = r.id) (hname : r'.name = r.name) (hgates : r'.gates = r.gates ++ gates)
    (hladdered : r.Laddered → r'.Laddered) :
    ((m.move r' (gates.map Gate.note)).persist name).Faithful := by
  obtain ⟨hmem, rfl⟩ := RunbookLibrary.byName_eq_some_iff.mp hr
  have hafter : (m.library.replace r').byName r.name = some r' :=
    RunbookLibrary.byName_eq_some_iff.mpr
      ⟨(RunbookLibrary.mem_replace hr hid hname).mpr (.inl rfl), hname⟩
  cases hrecord : m.record r.name with
  | none =>
      have hpersist : (m.move r' (gates.map Gate.note)).persist r.name =
          m.move r' (gates.map Gate.note) := by
        have hkept : (m.move r' (gates.map Gate.note)).record r.name = none := hrecord
        rw [persist, hkept]
        cases (m.move r' (gates.map Gate.note)).library.byName r.name <;> rfl
      rw [hpersist]
      exact h.movedFile hr hid hname hladdered hrecord
  | some record =>
      obtain ⟨hheld, hrname⟩ := h.record_eq_some_iff.mp hrecord
      obtain ⟨hrow, hlib⟩ := h.held record hheld
      obtain rfl : record.runbook = r := List.inj_on_of_nodup_map m.library.names hlib hmem hrname
      have hpersist : (m.move r' (gates.map Gate.note)).persist record.runbook.name =
          { library := m.library.replace r'
            delivered := Keyed.upsert DeliveredRunbook.name { record with runbook := r' }
              m.delivered
            rows := Keyed.upsert DeliveredRunbook.name { record with runbook := r' } m.rows
            minted := m.minted
            trace := m.trace ++ (gates.map Gate.note).map fun note => (r'.id, note) } := by
        have hkept : (m.move r' (gates.map Gate.note)).record record.runbook.name = some record :=
          hrecord
        have hread : (m.move r' (gates.map Gate.note)).library.byName record.runbook.name =
          some r' := hafter
        rw [persist, hkept, hread]
        rfl
      rw [hpersist]
      have hsame {other : LibraryRunbook} (ho : other ∈ m.library.runbooks)
          (heq : other.id = r'.id) : other.name = r'.name := by
        rw [List.inj_on_of_nodup_map m.library.ids ho hmem (heq.trans hid), hname]
      refine h.put { record with runbook := r' } (gates.map Gate.note) (fun other => ?_)
        (fun row hr' heq => ?_) (fun other ho heq => hsame ho heq) (hladdered (h.laddered _ hmem))
        (le_refl _) (hid ▸ h.minted _ hmem) ?_
      · rw [RunbookLibrary.mem_replace hr hid hname]
        exact or_congr_right (and_congr_right fun _ => by rw [← hname]; rfl)
      · rw [h.rowIds row hr' record hrow (heq.trans hid)]
        exact hname.symm
      · have htold := (h.rows record hrow).2
        rw [Told] at htold
        show m.notesOf r'.id ++ _ = _
        rw [hid, htold, hgates, List.map_append]
        rfl

theorem step (h : m.Faithful) (hm : Moved m m') : m'.Faithful := by
  cases hm with
  | kept count => exact h.kept count
  | accepted record library hid hladdered hnotes hlibrary =>
      exact h.accepted hid hladdered hnotes hlibrary
  | moved name r r' gates hr hid hname hgates hladdered =>
      exact h.moved hr hid hname hgates hladdered

/-! ### Restarts -/

/-- The files alone: their identities are new, and nothing of them was delivered. -/
theorem loaded (h : m.Faithful) (files : List (Except String RunbookFile)) :
    Faithful
      { m with
        library := loadRunbooks m.minted files
        delivered := []
        minted := m.minted + files.length } where
  laddered := fun r hr => (loaded_of_load r hr).1
  minted := fun r hr => (loaded_of_load r hr).2.2
  noted := fun entry hentry => (h.noted entry hentry).trans_le (Nat.le_add_right _ _)
  rows := h.rows
  rowNames := h.rowNames
  rowIds := h.rowIds
  heldNames := List.nodup_nil
  held := fun record hrecord => absurd hrecord List.not_mem_nil
  tagged := fun r hr hd => by
    have hlt := h.lt_minted hd
    have hle := (loaded_of_load r hr).2.1
    omega

/-- A row comes back as it was. -/
theorem restored (h : m.Faithful) {row : DeliveredRunbook} (hrow : row ∈ m.rows) :
    (m.restore row).Faithful ∧ (m.restore row).rows = m.rows := by
  obtain ⟨library, hlibrary⟩ := m.library.register_remove row.runbook
  have hrestore : m.restore row = { m with library := library }.putRecord row := by
    unfold restore DeliveredRunbook.name
    dsimp only
    rw [hlibrary]
  have hmem (r : LibraryRunbook) : r ∈ library.runbooks ↔
      r = row.runbook ∨ r ∈ m.library.runbooks ∧ r.name ≠ row.name := by
    rw [RunbookLibrary.mem_register hlibrary, RunbookLibrary.mem_remove]
    refine or_congr_right ⟨fun hr => hr.1, fun hr => ⟨hr, fun heq => ?_⟩⟩
    obtain ⟨record, hrecord, rfl⟩ := h.tagged r hr.1 (heq ▸ (h.rows row hrow).2.wasDelivered)
    exact hr.2 (congrArg DeliveredRunbook.name
      (h.rowIds record (h.held record hrecord).1 row hrow heq))
  have hdelivered := @Keyed.mem_upsert _ _ _ DeliveredRunbook.name m.delivered
  rw [hrestore]
  refine ⟨⟨fun r hr => ?_, fun r hr => ?_, h.noted, h.rows, h.rowNames, h.rowIds,
    Keyed.nodup_upsert h.heldNames, fun record hrecord => ?_, fun r hr hd => ?_⟩, rfl⟩
  · rcases (hmem r).mp hr with rfl | ⟨hold, -⟩
    · exact (h.rows row hrow).1
    · exact h.laddered r hold
  · rcases (hmem r).mp hr with rfl | ⟨hold, -⟩
    · exact h.lt_minted (h.rows row hrow).2.wasDelivered
    · exact h.minted r hold
  · rcases (hdelivered h.heldNames).mp hrecord with rfl | ⟨hold, hname⟩
    · exact ⟨hrow, (hmem _).mpr (.inl rfl)⟩
    · obtain ⟨hrow', hlib⟩ := h.held record hold
      exact ⟨hrow', (hmem _).mpr (.inr ⟨hlib, hname⟩)⟩
  · rcases (hmem r).mp hr with rfl | ⟨hold, hname⟩
    · exact ⟨row, (hdelivered h.heldNames).mpr (.inl rfl), rfl⟩
    · obtain ⟨record, hrecord, rfl⟩ := h.tagged r hold hd
      exact ⟨record, (hdelivered h.heldNames).mpr (.inr ⟨hrecord, hname⟩), rfl⟩

theorem restarted (h : m.Faithful) (files : List (Except String RunbookFile)) (readable : Bool) :
    (m.restart files readable).Faithful := by
  have hfold (rows : List DeliveredRunbook) (m : RunbookManager) (h : m.Faithful)
      (hrows : ∀ row ∈ rows, row ∈ m.rows) : (rows.foldl restore m).Faithful := by
    induction rows generalizing m with
    | nil => exact h
    | cons row rows ih =>
        obtain ⟨hrow, hrest⟩ := List.forall_mem_cons.mp hrows
        obtain ⟨hnext, hsame⟩ := h.restored hrow
        exact ih _ hnext fun other hother => hsame ▸ hrest other hother
  unfold restart
  cases readable with
  | false => exact h.loaded files
  | true =>
      exact hfold _ _ (h.loaded files) fun row hrow =>
        (List.perm_insertionSort _ _).mem_iff.mp hrow

theorem fresh : Faithful .fresh := by
  constructor <;> simp [RunbookManager.fresh, RunbookLibrary.empty]

end Faithful

end RunbookManager

/-! ### Runs -/

/-- What happens to the manager: a call that runs to completion, or a restart over the files as
they are then. -/
inductive RunbookEvent
  | call (call : RunbookCall)
  | restart (files : List (Except String RunbookFile)) (readable : Bool)

namespace RunbookManager

def step (m : RunbookManager) : RunbookEvent → RunbookManager
  | .call call => m.call call
  | .restart files readable => m.restart files readable

/-- The manager after a first start over an empty store and a run. -/
def after (files : List (Except String RunbookFile)) (events : List RunbookEvent) :
    RunbookManager := Machine.run step (fresh.restart files true) events

theorem Faithful.event {m : RunbookManager} (h : m.Faithful) (event : RunbookEvent) :
    (m.step event).Faithful := by
  cases event with
  | call call => exact call_invariant (fun _ _ hm hmoved => hm.step hmoved) h call
  | restart files readable => exact h.restarted files readable

theorem faithful_after (files : List (Except String RunbookFile)) (events : List RunbookEvent) :
    (after files events).Faithful :=
  Machine.invariant (Faithful.fresh.restarted files true) (fun _ event h => h.event event) events

end RunbookManager

open RunbookManager in
/-- In every run a delivered runbook that is promoted was delivered, passed the four technical
gates in their order, and was then approved and promoted, all under the one identity of its
delivery. The delivered runbook of a name is the one in the library, and a delivery that passes
its review puts a candidate there. -/
theorem promoted_after_whole_ladder (files : List (Except String RunbookFile))
    (events : List RunbookEvent) :
    let m := after files events
    (∀ r ∈ m.library.runbooks, m.WasDelivered r.id → r.status = .promoted →
      ∃ provenance, m.notesOf r.id = [.delivered provenance, .recorded .evaluation,
        .recorded .simulation, .recorded .validation, .recorded .policy, .decided .approve,
        .decided .promote]) ∧
    (∀ name record, m.record name = some record →
      ∃ r, m.library.byName name = some r ∧ m.WasDelivered r.id) ∧
    ∀ delivery reviewed, delivery.review m.minted = .ok reviewed →
      ∃ r, (m.call (.deliver delivery)).library.byName reviewed.runbook.name = some r ∧
        r.id = m.minted ∧ r.status = .candidate := by
  intro m
  have h : m.Faithful := RunbookManager.faithful_after files events
  refine ⟨fun r hr hd hstatus => ?_, fun name record hrecord => ?_,
    fun delivery reviewed hreview => ?_⟩
  · obtain ⟨record, hrecord, rfl⟩ := h.tagged r hr hd
    have htold := (h.rows record (h.held record hrecord).1).2
    rw [Told, (h.laddered _ hr).gates_of_promoted hstatus] at htold
    exact ⟨record.toProvenance, htold⟩
  · obtain ⟨hmem, hname⟩ := h.record_eq_some_iff.mp hrecord
    obtain ⟨hrow, hlib⟩ := h.held record hmem
    exact ⟨record.runbook, RunbookLibrary.byName_eq_some_iff.mpr ⟨hlib, hname⟩,
      (h.rows record hrow).2.wasDelivered⟩
  · obtain ⟨-, hstatus, hid, -⟩ := Delivery.review_spec hreview
    rcases m.runFunction_deliver delivery ⟨none, none⟩ with
      ⟨reason, herror, -⟩ | ⟨accepted, library, hok, hlibrary, heq⟩
    · rw [hreview] at herror
      cases herror
    · obtain rfl := Except.ok.inj (hreview.symm.trans hok)
      have hcall : m.call (.deliver delivery) =
          m.accept ⟨delivery.provenance, reviewed.runbook⟩ library := heq
      refine ⟨reviewed.runbook, ?_, hid, hstatus⟩
      rw [hcall]
      exact RunbookLibrary.byName_eq_some_iff.mpr
        ⟨(RunbookLibrary.mem_register hlibrary).mpr (.inl rfl), rfl⟩

/-! ### One procedure -/

/-- A procedure that reclaims memory, as a document declares it. -/
def reclaimFile (gates : List Gate) : RunbookFile where
  name := "reclaim"
  trigger := .symptom memoryPressure
  allowedActions := [CapabilityId.hostMemoryReclaim]
  rollback := []
  gates := gates

def reclaimRated : RatedDescriptor where
  id := ⟨CapabilityId.hostMemoryReclaim, CapabilityId.hostMemoryReclaim_valid⟩
  riskClass := .controlled
  inputSchema := .null
  blastRadius := some .host
  requiresApproval := true
  timeoutSeconds := none
  reversibility := .reversible

/-- A delivery of it to a host that resolved a memory pressure before. -/
def reclaimDelivery (version : Int) : Delivery where
  bytes := 200
  toml := .ok (reclaimFile [])
  provenance := ⟨7, 8, version, ⟨0⟩⟩
  episodes := [⟨memoryPressure, some "reclaim memory", .resolved, ⟨0⟩, some ⟨0⟩, 0⟩]
  descriptors := [reclaimRated]
  toLowercase := toAsciiLowercase

def localReview : PolicyReview where
  descriptors := [reclaimRated.toCapabilityDescriptor]
  evaluate := BootstrapPolicyEvaluator.withLocalRemediation.evaluate
  correlationId := 0

/-- Credited with a validated run, and then approved and promoted. -/
example : ((RunbookManager.after [] [.call (.deliver (reclaimDelivery 1)),
    .call (.onAttributedPlanValidated "reclaim" localReview), .call (.decide "reclaim" .approve),
    .call (.decide "reclaim" .promote), .restart [] true]).library.runbooks.map
      fun r => (r.status, r.gates)) = [(.promoted, ladder)] := by decide

end Argus
