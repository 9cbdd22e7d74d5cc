import Argus.Daemon.ConfigLevers
import Argus.Daemon.Enrollment
import Argus.Daemon.RunbookLadder

/-!
# What a forget leaves

What the cloud leaves on the host is in the secret store, in the settings file, in the cloud's
tables, and in the table of delivered runbooks. A forget erases one after the other, and a restart
builds the daemon from what is there then. The table of delivered runbooks is not among what is
erased.
-/

namespace Argus

open Interaction

/-- What a start reads of the configuration file, and the files of its runbook directory. -/
structure StartConfig where
  brain : BrainConfig
  mcp : McpConfig
  bootstrap : CapabilityRegistry
  files : List (Except String RunbookFile)

/-- The host: what is stored of the enrollment, what deliveries changed, the runbooks, and the rows
of the tables that the others do not keep. -/
structure InstalledHost where
  store : CloudStore
  config : ConfigHost
  runbooks : RunbookManager
  records : List (CloudTable × Value)

namespace InstalledHost

/-- A host that was never enrolled. Identities are drawn at random; the runbooks of its files get
those from `minted` on. -/
def neverEnrolled (minted : Nat) : InstalledHost :=
  ⟨⟨none, none, none, 0⟩, .fresh, { RunbookManager.fresh with minted }, []⟩

def erase (s : InstalledHost) : Erasure → InstalledHost
  | .sessionCredential => { s with store := s.store.erase .sessionCredential }
  | .identitySeed => { s with store := s.store.erase .identitySeed }
  | .providerCredential => { s with config := { s.config with credential := none } }
  | .managedSettings => { s with config := { s.config with settings := none } }
  | .table table =>
      let s := { s with records := s.records.filter fun record => record.1 != table }
      match table with
      | .cloudEnrollment => { s with store := s.store.erase (.table .cloudEnrollment) }
      | .cloudManagedConfigurations => { s with config := { s.config with managed := [] } }
      | .cloudAppliedConfigurations => { s with config := { s.config with applied := [] } }
      | .mcpDelivery => { s with config := { s.config with mcpDelivery := none } }
      | _ => s

/-- The reply to a request of call `key`. One that fails changes nothing. -/
def answer (fault : CloudRequest → Option String) (key : Nat) (outcome : EnrollmentOutcome)
    (request : CloudRequest) (s : InstalledHost) : request.Reply × InstalledHost :=
  match fault request, request with
  | some error, _ => (.error error, s)
  | none, .erase what => (.ok (), s.erase what)
  | none, request =>
      let (reply, store) := s.store.serve key outcome request
      (reply, { s with store })

def enroll (s : InstalledHost) (config : CloudConfig) (request : EnrollmentRequest) (key : Nat)
    (outcome : EnrollmentOutcome) (fault : CloudRequest → Option String) :
    Except EnrollmentError EnrollmentReport × InstalledHost :=
  (enrollInstallation config request key).exec (answer fault key outcome) s

def forget (s : InstalledHost) (fault : CloudRequest → Option String) :
    Except String Unit × InstalledHost :=
  forgetEnrollment.exec (answer fault 0 (.denied .invalid)) s

end InstalledHost

/-- The delivery comes to the runbook manager. -/
def ConfigHost.delivers (host : ConfigHost) (event : ConfigEvent) : Bool :=
  match event.frame with
  | none => false
  | some payload =>
      payload.kind == some kindRunbook && payload.toml.isSome &&
        (classifyDelivery (host.heldVersion event.answers payload.configurationId)
          payload.versionNumber payload.mode).changesHeldVersion

/-- What the manager answers to a delivery: the name of the runbook. -/
def RunbookManager.verdict (m : RunbookManager) (delivery : Delivery) : Except String String :=
  (delivery.review m.minted).map fun reviewed => reviewed.runbook.name

inductive InstalledHostEvent
  | enroll (config : CloudConfig) (request : EnrollmentRequest) (key : Nat)
      (outcome : EnrollmentOutcome) (fault : CloudRequest → Option String)
  /-- `config.apply`, of any kind; `delivery` is what its document reads as a runbook's. -/
  | configure (event : ConfigEvent) (delivery : Delivery)
  /-- A decision on a runbook, or the outcome of a run of its procedure. -/
  | runbook (call : RunbookCall)
  /-- A row of the cloud's commands, decisions, approvals and the like is written. -/
  | record (table : CloudTable) (row : Value)
  | forget (fault : CloudRequest → Option String)
  | restart (start : StartConfig) (connections : Connections) (readable : Bool)

namespace InstalledHost

/-- `Daemon::new` over what is stored. -/
def restart (s : InstalledHost) (start : StartConfig) (connections : Connections)
    (readable : Bool) : InstalledHost :=
  { s with
    config := { s.config with
      control := .seed start.brain (s.config.settings.getD [])
      mcp := some (.start start.bootstrap start.mcp s.config.mcpDelivery connections) }
    runbooks := s.runbooks.restart start.files readable }

/-- A delivery, which the runbook manager gets if it is one of a runbook. -/
def configure (s : InstalledHost) (event : ConfigEvent) (delivery : Delivery) : InstalledHost :=
  let answers := { event.answers with deliverRunbook := s.runbooks.verdict delivery }
  { s with
    config := s.config.step ⟨event.frame, answers⟩
    runbooks :=
      if s.config.delivers event then s.runbooks.call (.deliver delivery) else s.runbooks }

def step (s : InstalledHost) : InstalledHostEvent → InstalledHost
  | .enroll config request key outcome fault => (s.enroll config request key outcome fault).2
  | .configure event delivery => s.configure event delivery
  | .runbook call => { s with runbooks := s.runbooks.call call }
  | .record table row => { s with records := s.records ++ [(table, row)] }
  | .forget fault => (s.forget fault).2
  | .restart start connections readable => s.restart start connections readable

/-- What may come from the cloud, as it is seen. -/
structure CloudView where
  /-- The runbooks by name, with where each was delivered from. -/
  library : List (LibraryRunbook × Option Provenance)
  topology : Option (List DesiredServer)
  levers : BrainControl
  settings : Option Settings
  providerCredential : Option String
  sessionCredential : Option String
  seed : Option Nat
  enrollment : Option CloudEnrollment
  managed : List ManagedConfiguration
  applied : List AppliedConfigurationState
  mcpDelivery : Option McpConfig
  /-- The rows of the table of delivered runbooks. -/
  runbookRows : List DeliveredRunbook
  records : List (CloudTable × Value)

def view (s : InstalledHost) : CloudView where
  library := s.runbooks.library.list.map fun r =>
    (r, (s.runbooks.record r.name).map DeliveredRunbook.toProvenance)
  topology := s.config.mcp.map McpState.servers
  levers := s.config.control
  settings := s.config.settings
  providerCredential := s.config.credential
  sessionCredential := s.store.credential
  seed := s.store.seed
  enrollment := s.store.enrollment
  managed := s.config.managed
  applied := s.config.applied
  mcpDelivery := s.config.mcpDelivery
  runbookRows := s.runbooks.rows
  records := s.records

variable {s : InstalledHost} {fault : CloudRequest → Option String}

/-! ### The forget -/

/-- A list whose erasure succeeds is erased. -/
theorem exec_eraseAll {left : List Erasure} {key : Nat} {outcome : EnrollmentOutcome}
    (h : ((eraseAll left).exec (answer fault key outcome) s).1 = .ok ()) :
    ((eraseAll left).exec (answer fault key outcome) s).2 = left.foldl erase s := by
  induction left generalizing s with
  | nil => rfl
  | cons what left ih =>
      simp only [eraseAll, CloudRequest.ask, Prog.exec_call_bind] at h ⊢
      cases hfault : fault (.erase what) with
      | some error =>
          simp only [answer, hfault] at h
          cases h
      | none =>
          simp only [answer, hfault] at h ⊢
          exact ih h

theorem records_erase (s : InstalledHost) (what : Erasure) :
    (s.erase what).records = s.records.filter fun record => what != .table record.1 := by
  have hall : s.records = s.records.filter fun _ => true := by simp
  cases what with
  | table table =>
      have htable : (fun record : CloudTable × Value => Erasure.table table != .table record.1) =
          fun record => record.1 != table := by
        funext record
        simp [bne, beq_eq_decide, eq_comm]
      rw [htable]
      cases table <;> rfl
  | _ => exact hall

theorem records_eraseAll (s : InstalledHost) (left : List Erasure) :
    (left.foldl erase s).records = s.records.filter fun record => .table record.1 ∉ left := by
  induction left generalizing s with
  | nil => simp
  | cons what left ih =>
      rw [List.foldl_cons, ih, records_erase, List.filter_filter]
      refine List.filter_congr fun record _ => ?_
      have hflip : (what != Erasure.table record.1) = decide (Erasure.table record.1 ≠ what) := by
        rw [bne, beq_eq_decide, decide_not, decide_eq_decide.mpr eq_comm]
      rw [hflip, ← Bool.decide_and]
      simp only [List.mem_cons, not_or, and_comm]

/-- Everything on the list of a forget, erased. -/
theorem erased (s : InstalledHost) : erasures.foldl erase s =
    { s with
      store := { s.store with seed := none, credential := none, enrollment := none }
      config := { s.config with
        credential := none
        settings := none
        managed := []
        applied := []
        mcpDelivery := none }
      records := [] } := by
  have hrecords : (erasures.foldl erase s).records = [] := by
    rw [records_eraseAll, List.filter_eq_nil_iff]
    intro record _
    have hlisted : ∀ table : CloudTable, Erasure.table table ∈ erasures := by
      intro table
      cases table <;> decide
    simp [hlisted]
  rw [← hrecords]
  rfl

end InstalledHost

/-! ### The library -/

namespace RunbookManager

variable {m : RunbookManager}

/-- A row that is restored is in the library, as delivered. -/
theorem restore_row (m : RunbookManager) (row : DeliveredRunbook) :
    row.runbook ∈ (m.restore row).library.runbooks ∧
      (m.restore row).record row.runbook.name = some row := by
  obtain ⟨library, hregister⟩ := m.library.register_remove row.runbook
  have hrestore : m.restore row = { m with library := library }.putRecord row := by
    simp only [restore, DeliveredRunbook.name, hregister]
  rw [hrestore]
  refine ⟨(RunbookLibrary.mem_register hregister).mpr (.inl rfl), ?_⟩
  exact (record_putRecord row).trans (if_pos rfl)

theorem rows_restore (m : RunbookManager) (row : DeliveredRunbook) :
    (m.restore row).rows = m.rows := by
  obtain ⟨library, hregister⟩ := m.library.register_remove row.runbook
  simp only [restore, DeliveredRunbook.name, hregister]
  rfl

/-- A start reads the table of delivered runbooks and leaves it as it is. -/
theorem rows_restart (m : RunbookManager) (files : List (Except String RunbookFile))
    (readable : Bool) : (m.restart files readable).rows = m.rows := by
  have hfold (rows : List DeliveredRunbook) (m : RunbookManager) :
      (rows.foldl restore m).rows = m.rows := by
    induction rows generalizing m with
    | nil => rfl
    | cons row rows ih => exact (ih (m.restore row)).trans (rows_restore m row)
  unfold restart
  cases readable with
  | true => exact hfold _ _
  | false => rfl

/-- A restart finds a delivered runbook wherever a row is stored. -/
theorem restart_row (h : m.rows ≠ []) (files : List (Except String RunbookFile)) : ∃ row,
    row.runbook ∈ (m.restart files true).library.runbooks ∧
      (m.restart files true).record row.runbook.name = some row := by
  have hsorted : m.rows.insertionSort (fun a b => a.name ≤ b.name) ≠ [] := by
    rwa [Ne, ← List.length_eq_zero_iff, List.length_insertionSort, List.length_eq_zero_iff]
  obtain ⟨init, row, hrows⟩ := (List.eq_nil_or_concat' _).resolve_left hsorted
  refine ⟨row, ?_⟩
  simp only [restart, if_true, hrows, List.foldl_append, List.foldl_cons, List.foldl_nil]
  exact restore_row _ row

/-- Where no row can be read, a restart has the files alone. -/
theorem restart_files (files : List (Except String RunbookFile)) {readable : Bool}
    (h : m.rows = [] ∨ readable = false) :
    m.restart files readable =
      { m with
        library := loadRunbooks m.minted files
        delivered := []
        minted := m.minted + files.length } := by
  unfold restart
  rcases h with hrows | hunread
  · rw [hrows]
    cases readable <;> rfl
  · rw [hunread]
    rfl

end RunbookManager

namespace InstalledHost

variable {s : InstalledHost} {fault : CloudRequest → Option String}

/-- The library after a restart is that of the files, exactly where no row can be read. -/
theorem library_iff (s : InstalledHost) (start : StartConfig) (connections : Connections)
    (readable : Bool) : (s.restart start connections readable).view.library =
      ((neverEnrolled s.runbooks.minted).restart start connections readable).view.library ↔
    s.runbooks.rows = [] ∨ readable = false := by
  have hnever : (neverEnrolled s.runbooks.minted).runbooks.rows = [] := rfl
  constructor
  · intro heq
    by_contra hrows
    rw [not_or, Bool.not_eq_false] at hrows
    obtain ⟨hrows, rfl⟩ := hrows
    obtain ⟨row, hrow, hrecord⟩ := RunbookManager.restart_row hrows start.files
    have hmem : (row.runbook, some row.toProvenance) ∈
        (s.restart start connections true).view.library := by
      refine List.mem_map.mpr ⟨row.runbook, RunbookLibrary.mem_list.mpr hrow, ?_⟩
      exact congrArg (fun found => (row.runbook, Option.map DeliveredRunbook.toProvenance found))
        hrecord
    rw [heq] at hmem
    obtain ⟨r, -, hr⟩ := List.mem_map.mp hmem
    have hnone : ((neverEnrolled s.runbooks.minted).restart start connections true).runbooks.record
        r.name = none := by
      show ((neverEnrolled s.runbooks.minted).runbooks.restart start.files true).record r.name =
        none
      rw [RunbookManager.restart_files start.files (.inl hnever)]
      rfl
    rw [hnone] at hr
    cases hr
  · intro hrows
    simp only [view, restart, RunbookManager.restart_files start.files hrows,
      RunbookManager.restart_files start.files (.inl hnever)]
    rfl

/-- What a restart after a forget comes to: all but the delivered runbooks is as on a host that was
never enrolled. -/
theorem restart_forget {start : StartConfig} {connections : Connections} {readable : Bool}
    (h : (s.forget fault).1 = .ok ()) :
    ((s.forget fault).2.restart start connections readable).view =
      { ((neverEnrolled s.runbooks.minted).restart start connections readable).view with
        library := (s.restart start connections readable).view.library
        runbookRows := s.runbooks.rows } := by
  have hforget : (s.forget fault).2 = erasures.foldl erase s := exec_eraseAll h
  rw [hforget, erased, ← RunbookManager.rows_restart s.runbooks start.files readable]
  rfl

/-- **A forget leaves nothing of the cloud** for the next start, whatever came before it, exactly
where no row of a delivered runbook is stored. A row that is left comes back with the library as
soon as a start can read the table. -/
theorem forget_leaves_nothing_iff (events : List InstalledHostEvent)
    (fault : CloudRequest → Option String) (start : StartConfig) (connections : Connections)
    (readable : Bool)
    (h : ((Machine.run step (neverEnrolled 0) events).forget fault).1 = .ok ()) :
    let before := Machine.run step (neverEnrolled 0) events
    let left := ((before.forget fault).2.restart start connections readable).view
    let never := ((neverEnrolled before.runbooks.minted).restart start connections readable).view
    (left = never ↔ before.runbooks.rows = []) ∧
      (left.library = never.library ↔ before.runbooks.rows = [] ∨ readable = false) := by
  intro before left never
  have hleft : left = { never with
      library := (before.restart start connections readable).view.library
      runbookRows := before.runbooks.rows } := restart_forget h
  have hlibrary : left.library = never.library ↔ before.runbooks.rows = [] ∨ readable = false := by
    rw [hleft]
    exact library_iff before start connections readable
  refine ⟨⟨fun heq => ?_, fun hrows => ?_⟩, hlibrary⟩
  · have hrows := congrArg CloudView.runbookRows heq
    rw [hleft] at hrows
    exact hrows.trans (RunbookManager.rows_restart _ start.files readable)
  · have hsame := hlibrary.mpr (.inl hrows)
    have hnone : never.runbookRows = [] := RunbookManager.rows_restart _ start.files readable
    rw [hleft] at hsame ⊢
    rw [hsame, hrows, ← hnone]

/-! #### Two forgets -/

/-- An enrollment that the cloud grants. -/
def enrolledOnce : InstalledHostEvent :=
  .enroll ⟨true, some "wss://cloud", "argus-cloud"⟩ ⟨"ABCD-1234", "host", "1.0.0", ⟨0⟩⟩ 1
    (.granted ⟨1, 7, "host", "token", "1.2.0"⟩) fun _ => none

/-- A delivery; what it carries as a runbook is read as `reclaimDelivery`. -/
def delivered (content : List (String × Value)) : InstalledHostEvent :=
  .configure ⟨some (ordinaryDelivery 1 1 content), .willing⟩ (reclaimDelivery 1)

/-- An enrollment with a delivery of a model and its credential, and a command on record. -/
def configured : List InstalledHostEvent :=
  [enrolledOnce,
    delivered [("kind", .string "provider"), ("model", .string "large"),
      ("api_token", .string "key")],
    .record .cloudCommands .null]

/-- A start without runbook files, from the defaults. -/
def bareStart : StartConfig := ⟨.default, ⟨[]⟩, ⟨[], .nil⟩, []⟩

theorem forget_leaves_nothing_configured :
    (((Machine.run step (neverEnrolled 0) configured).forget fun _ => none).2.restart bareStart
        (.inOrder fun _ => .error "unreachable") true).view =
      ((neverEnrolled (Machine.run step (neverEnrolled 0) configured).runbooks.minted).restart
        bareStart (.inOrder fun _ => .error "unreachable") true).view :=
  (forget_leaves_nothing_iff configured (fun _ => none) bareStart
    (.inOrder fun _ => .error "unreachable") true (by decide)).1.mpr (by decide)

/-- **A delivered runbook outlives the enrollment**: the daemon that forgot has it back at its next
start. -/
theorem runbook_outlives_forget :
    ¬ ∀ (events : List InstalledHostEvent) (fault : CloudRequest → Option String)
        (start : StartConfig) (connections : Connections) (readable : Bool),
      ((Machine.run step (neverEnrolled 0) events).forget fault).1 = .ok () → ∃ minted,
        (((Machine.run step (neverEnrolled 0) events).forget fault).2.restart start connections
            readable).view =
          ((neverEnrolled minted).restart start connections readable).view := by
  intro hall
  obtain ⟨minted, heq⟩ := hall
    [enrolledOnce, delivered [("kind", .string "runbook"), ("toml", .string "name = 'reclaim'")]]
    (fun _ => none) bareStart (.inOrder fun _ => .error "unreachable") true (by decide)
  have hlength := congrArg (fun v : CloudView => v.library.length) heq
  have hone : (((Machine.run step (neverEnrolled 0) [enrolledOnce,
      delivered [("kind", .string "runbook"), ("toml", .string "name = 'reclaim'")]]).forget
        fun _ => none).2.restart bareStart (.inOrder fun _ => .error "unreachable")
          true).view.library.length = 1 := by decide
  have hzero : ((neverEnrolled minted).restart bareStart (.inOrder fun _ => .error "unreachable")
      true).view.library.length = 0 := rfl
  exact absurd (hone.symm.trans (hlength.trans hzero)) one_ne_zero

end InstalledHost
end Argus
