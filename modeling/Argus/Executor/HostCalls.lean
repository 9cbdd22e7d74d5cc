import Argus.Container.SyncClient
import Argus.Executor.Remediation
import Argus.Lib.Layered

/-!
# The remediation executor on the host

Under the ports of the executor are the controllers that the daemon wires, which make calls of the
host: a signal, a write of a file, a request to Docker's socket, a call over the bus. Both layers
are programs, and an execution on the host is the executor's program, carried out by theirs.

`hostCalls_permitted`: whatever the host answers, what an action does to it is what the action
names, within limits that hold for every action.
-/

namespace Argus.Remediation

open Interaction
open Prog hiding request

/-! ### The controllers -/

/-- A call of the host. -/
inductive HostCall
  | now
  | kill (pid : Int) (signal : ProcessSignal)
  | sync
  | write (file content : String)
  | docker (request : String)
  | connectBus
  | vacuumJournal (sinceUsec : Nat)
  | callTool (capability : CapabilityId) (arguments : Value)

/-- What the host answers; an error is its text. -/
@[reducible] def HostReply : HostCall → Type
  | .now => DateTime
  | .kill _ _ | .write _ _ | .connectBus | .vacuumJournal _ => Except String Unit
  | .sync => Unit
  | .docker request => DockerReply request
  | .callTool _ _ => Except RemediationError Value

/-- A program over the host. -/
abbrev HostM := Prog HostReply

@[reducible] def host (call : HostCall) : HostM (HostReply call) := Prog.call call

/-- The answer of an effect that has no value. -/
def unit (reply : Except RemediationError Unit) : Except RemediationError Value :=
  reply.map fun _ => .null

/-- The `kill` of the process controller. -/
def signalProcess (pid : Int) (signal : ProcessSignal) :
    HostM (Except RemediationError Unit) := do
  match ← host (.kill pid signal) with
  | .ok () => pure (.ok ())
  | .error e =>
      pure (.error (.failed ("kill(" ++ toString pid ++ ", " ++ signal.name ++ ") failed: " ++ e)))

/-- The write of the cgroup controller. -/
def writeFreeze (cgroups : CgroupV2Controller) (path : String) (frozen : Bool) :
    HostM (Except RemediationError Unit) :=
  match cgroups.freezeFile path with
  | .error error => pure (.error error)
  | .ok file => do
      match ← host (.write file (if frozen then "1" else "0")) with
      | .ok () => pure (.ok ())
      | .error e => pure (.error (.failed ("cgroup.freeze write failed: " ++ e)))

/-- Cached data is flushed first, and then the page cache is dropped. -/
def dropCaches (path : String) : HostM (Except RemediationError Unit) := do
  let () ← host .sync
  match ← host (.write path RemediationExecutor.pageCacheOnly) with
  | .ok () => pure (.ok ())
  | .error e =>
      pure (.error (.failed ("drop_caches write to '" ++ path ++ "' failed: " ++ e)))

/-- The bus is connected for each vacuum. -/
def vacuumOverBus (sinceUsec : Nat) : HostM (Except RemediationError Unit) := do
  match ← host .connectBus with
  | .error e => pure (.error (.unavailable e))
  | .ok () =>
      match ← host (.vacuumJournal sinceUsec) with
      | .ok () => pure (.ok ())
      | .error e => pure (.error (.failed ("journal1 Vacuum failed: " ++ e)))

/-- What the controllers are given. -/
structure Controllers where
  cgroups : CgroupV2Controller
  dropCachesPath : String

/-- A call of a port, carried out by its controller. -/
def Controllers.carryOut (controllers : Controllers) : (call : PortCall) → HostM (PortReply call)
  | .now => host .now
  | .effect (.signal pid signal) => do return unit (← signalProcess pid signal)
  | .effect (.restart id) => do
      return unit (← (DockerContainerController.restart id).through fun request =>
        host (.docker request))
  | .effect (.setFreeze path frozen) => do
      return unit (← writeFreeze controllers.cgroups path frozen)
  | .effect .reclaimPageCache => do return unit (← dropCaches controllers.dropCachesPath)
  | .effect (.vacuum sinceUsec) => do return unit (← vacuumOverBus sinceUsec)
  | .effect (.callTool capability arguments) => host (.callTool capability arguments)

/-- An execution on the host. -/
def executeOnHost (controllers : Controllers) (executor : RemediationExecutor)
    (action : AuthorizedAction) : HostM (Except ExecutionError ExecutionResult) :=
  (executor.execute action).through controllers.carryOut

/-! ### What reaches the host -/

open Paths (resolve)
open CgroupV2Controller (mountRoot freezeName)

/-- Wherever the daemon runs, the file is the freeze file of a cgroup of the hierarchy. -/
def InHierarchy (cgroups : CgroupV2Controller) (file : String) : Prop :=
  ∀ cwd, ∃ names, resolve cwd file.toList = mountRoot cwd cgroups ++ names ++ [freezeName]

/-- The request that restarts a container. -/
def restartRequest (id : String) : String :=
  "POST" ++ " " ++ ("/containers/" ++ id ++ "/" ++ "restart") ++
    " HTTP/1.1\r\nHost: localhost\r\nConnection: close\r\nContent-Length: 0\r\n\r\n"

/-- An identifier that leaves the path it is put into as it is. -/
structure PlainId (id : String) : Prop where
  nonempty : id ≠ ""
  plain : ∀ c ∈ id.toList, c.isAlphanum = true ∨ c = '-' ∨ c = '_'

/-- What the executor is configured with: the daemon's own pid, what is protected, and for how many
days the journal is kept. -/
structure HostConfig where
  own : Int
  protectedContainers : List String
  protectedCgroups : List String
  journalKeepDays : UInt32

/-- The executor with its guardrails. -/
def HostConfig.executor (config : HostConfig) : RemediationExecutor :=
  .new config.journalKeepDays
    (remediationGuardrails config.own config.protectedContainers config.protectedCgroups)

/-- The configured days are taken as one at least, and as 365 at most. -/
def HostConfig.keepDays (config : HostConfig) : Nat :=
  max 1 (min config.journalKeepDays.toNat 365)

/-- What an action may do to the host: what it names, in its capability's family, and within the
limits that hold for every action. -/
inductive Permitted (config : HostConfig) (controllers : Controllers) (action : AuthorizedAction)
    (readAt : DateTime → Prop) : HostCall → Prop
  | now : Permitted config controllers action readAt .now
  | kill {pid : Int} {signal : ProcessSignal} :
      action.capability = hostProcessSignal →
      RemediationExecutor.pidOf action.request.arguments = some pid →
      RemediationExecutor.signalOf action.request.arguments = some signal →
      1 < pid → pid ≠ config.own →
      Permitted config controllers action readAt
        (.kill pid signal)
  | restart {id : String} :
      action.capability = containerRestart →
      RemediationExecutor.named "container" action.request.arguments = some id →
      PlainId id → id ∉ config.protectedContainers →
      Permitted config controllers action readAt
        (.docker (restartRequest id))
  | freeze {path file : String} (frozen : Bool) :
      action.capability.asStr =
        (if frozen then CapabilityId.hostCgroupFreeze else CapabilityId.hostCgroupThaw) →
      RemediationExecutor.named "path" action.request.arguments = some path →
      path ∉ config.protectedCgroups → controllers.cgroups.freezeFile path = .ok file →
      InHierarchy controllers.cgroups file →
      Permitted config controllers action readAt
        (.write file (if frozen then "1" else "0"))
  | sync :
      action.capability.asStr = CapabilityId.hostMemoryReclaim →
      Permitted config controllers action readAt .sync
  | dropCaches :
      action.capability.asStr = CapabilityId.hostMemoryReclaim →
      Permitted config controllers action readAt
        (.write controllers.dropCachesPath "1")
  | connectBus :
      action.capability.asStr = CapabilityId.hostJournalVacuum →
      Permitted config controllers action readAt .connectBus
  /-- What is removed is older than the days for which the journal is kept. -/
  | vacuum {now : DateTime} {sinceUsec : Nat} :
      action.capability.asStr = CapabilityId.hostJournalVacuum → readAt now →
      (sinceUsec : Int) = max 0 (RemediationExecutor.timestampMicros now -
        config.keepDays * RemediationExecutor.dayUsec) →
      Permitted config controllers action readAt
        (.vacuumJournal sinceUsec)
  | callTool :
      action.capability.isMcpCapability = true →
      Permitted config controllers action readAt
        (.callTool action.capability action.request.arguments)

section Host

variable {config : HostConfig} {controllers : Controllers} {executor : RemediationExecutor}
  {action : AuthorizedAction}
  {readAt : DateTime → Prop} {times : List DateTime} {effect : Effect} {id path : String}
  {t : List (Event PortReply)} {r : Except ExecutionError ExecutionResult}

/-- The client sends one request at most, and only for an identifier that it has checked. -/
theorem asks_restart :
    Asks (fun text => PlainId id ∧ text = restartRequest id)
      (DockerContainerController.restart id) := by
  refine Asks.bind ?_ fun _ => asks_pure
  unfold SyncDockerClient.restartContainer SyncDockerClient.containerResourcePath
  split
  · exact asks_pure
  · rename_i path hpath
    split_ifs at hpath with hbad
    cases hpath
    simp only [Bool.or_eq_true, Bool.not_eq_true', not_or, Bool.not_eq_true, Bool.not_eq_false,
      List.all_eq_true, beq_iff_eq, or_assoc] at hbad
    refine Asks.bind ⟨⟨⟨fun hempty => ?_, hbad.2⟩, rfl⟩, fun _ => trivial⟩ fun _ => asks_pure
    simp [hempty] at hbad

/-- A path that the guardrails pass has its freeze file in the hierarchy. -/
theorem inHierarchy_freezeFile {file : String} {cgroups : CgroupV2Controller}
    (hvalid : validateCgroupPath path = .ok ()) (hfile : cgroups.freezeFile path = .ok file) :
    InHierarchy cgroups file := by
  rw [freezeFile_eq hvalid, Except.ok.injEq] at hfile
  subst hfile
  exact fun cwd => ⟨namesOf path, resolve_freezeFile hvalid⟩

/-- The cutoff is the days of the configuration before the clock's reading. -/
theorem sinceUsec_executor (config : HostConfig) (now : DateTime) :
    (config.executor.sinceUsec now : Int) = max 0 (RemediationExecutor.timestampMicros now -
      config.keepDays * RemediationExecutor.dayUsec) := by
  rw [RemediationExecutor.sinceUsec, Int.toNat_eq_max, max_comm]
  rfl

/-- The controllers make of a granted effect what is permitted. -/
theorem asks_carryOut (hgranted : Granted config.executor action times effect)
    (htimes : ∀ now ∈ times, readAt now) :
    Asks (Permitted config controllers action readAt) (controllers.carryOut (.effect effect)) := by
  have hguardrails : config.executor.guardrails = remediationGuardrails config.own
      config.protectedContainers config.protectedCgroups := rfl
  cases hgranted with
  | signal hcapability hpid hsignal hcheck =>
      rw [hguardrails, hcapability] at hcheck
      have hrange := of_decide_eq_true (Option.filter_eq_some_iff.mp hpid).2
      obtain ⟨habove, hother⟩ := check_signal hrange hcheck
      refine Asks.bind ⟨.kill hcapability hpid hsignal habove hother, fun reply => ?_⟩
        fun _ => asks_pure
      cases reply <;> trivial
  | restart hcapability hnamed hcheck =>
      rw [hguardrails, hcapability] at hcheck
      refine Asks.bind (asks_restart.through fun text htext => ?_) fun _ => asks_pure
      obtain ⟨hplain, rfl⟩ := htext
      exact asks_call.mpr (.restart hcapability hnamed hplain (check_restart hcheck))
  | @setFreeze path frozen hcapability hnamed hcheck =>
      have hmem : action.capability ∈ cgroupCapabilities := mem_cgroupCapabilities hcapability
      rw [hguardrails] at hcheck
      obtain ⟨hvalid, hunprotected⟩ := check_cgroup hmem hcheck
      refine Asks.bind ?_ fun _ => asks_pure
      unfold writeFreeze
      rw [freezeFile_eq hvalid]
      refine ⟨.freeze frozen hcapability hnamed hunprotected (freezeFile_eq hvalid)
        (inHierarchy_freezeFile hvalid (freezeFile_eq hvalid)), fun reply => ?_⟩
      cases reply <;> trivial
  | reclaimPageCache hcapability =>
      refine Asks.bind ⟨.sync hcapability, fun _ => ⟨.dropCaches hcapability, fun reply => ?_⟩⟩
        fun _ => asks_pure
      cases reply <;> trivial
  | vacuum hcapability hnow =>
      refine Asks.bind ⟨.connectBus hcapability, fun connected => ?_⟩ fun _ => asks_pure
      cases connected with
      | error e => trivial
      | ok _ =>
          refine ⟨.vacuum hcapability (htimes _ hnow) (sinceUsec_executor _ _),
            fun reply => ?_⟩
          cases reply <;> trivial
  | callTool hcapability => exact asks_call.mpr (.callTool hcapability)

/-- The effects of an account were granted, at times that the clock gave. -/
theorem Account.granted {reply : Except RemediationError Value} (h : Account executor action t r)
    (hmem : acted effect reply ∈ t) :
    ∃ times, Granted executor action times effect ∧ ∀ now ∈ times, reading now ∈ t := by
  have hreading {times : List DateTime} : acted effect reply ∉ times.map reading := by
    intro hmem
    obtain ⟨now, -, hnow⟩ := List.mem_map.mp hmem
    cases hnow
  cases h with
  | declined => cases hmem
  | @failed times effect' error hgranted =>
      rcases List.mem_append.mp hmem with hmem | hmem
      · exact absurd hmem hreading
      · cases List.mem_singleton.mp hmem
        exact ⟨times, hgranted, fun now hnow =>
          List.mem_append_left _ (List.mem_map_of_mem hnow)⟩
  | @done times effect' answer result hgranted =>
      rcases List.mem_append.mp hmem with hmem | hmem
      · exact absurd hmem hreading
      · rcases List.mem_cons.mp hmem with heq | hmem
        · cases heq
          exact ⟨times, hgranted, fun now hnow =>
            List.mem_append_left _ (List.mem_map_of_mem hnow)⟩
        · cases List.mem_singleton.mp hmem

/-- Whatever the host answers, an execution makes no call of it that is not permitted. -/
theorem hostCalls_permitted {s : List (Event HostReply)}
    (h : Runs (executeOnHost controllers config.executor action) s r) :
    ∀ e ∈ s, Permitted config controllers action
      (fun now => ⟨.now, now⟩ ∈ s) e.op := by
  obtain ⟨t, hruns, hcarried⟩ := runs_through.mp h
  have hread {now : DateTime} (hnow : reading now ∈ t) : (⟨.now, now⟩ : Event HostReply) ∈ s := by
    obtain ⟨part, hpart, hmem⟩ := hcarried.exists_part _ hnow
    have hone : part = [⟨.now, now⟩] := runs_call.mp hpart
    exact hmem _ (by rw [hone]; exact List.mem_singleton_self _)
  intro e' he'
  obtain ⟨⟨op, reply⟩, he, part, hpart, hmem⟩ := hcarried.exists_mem e' he'
  cases op with
  | now =>
      have hone : part = [⟨.now, reply⟩] := runs_call.mp hpart
      rw [hone, List.mem_singleton] at hmem
      subst hmem
      exact .now
  | effect effect =>
      obtain ⟨times, hgranted, htimes⟩ := (account_execute hruns).granted he
      exact (asks_carryOut hgranted fun now hnow => hread (htimes now hnow)).of_runs hpart _
        hmem

/-- A host on which every call succeeds. -/
def quietHost : (call : HostCall) → HostReply call
  | .now => ⟨0⟩
  | .kill _ _ | .write _ _ | .connectBus | .vacuumJournal _ => .ok ()
  | .sync => ()
  | .docker _ => .ok []
  | .callTool _ _ => .ok .null

/-- A daemon of pid 1000 that protects nothing and keeps a week of the journal. -/
def daemonConfig : HostConfig := ⟨1000, [], [], 7⟩

/-- The controllers as the daemon has them. -/
def daemonControllers : Controllers := ⟨unifiedHierarchy, "/proc/sys/vm/drop_caches"⟩

/-- The trace of the termination. -/
def terminateTrace : List (Event HostReply) :=
  (play (fun call u => (quietHost call, u))
    (executeOnHost daemonControllers daemonConfig.executor terminate) ()).1

theorem hostCalls_permitted_terminate :
    terminateTrace = [⟨.now, ⟨0⟩⟩, ⟨.kill 4242 .term, .ok ()⟩, ⟨.now, ⟨0⟩⟩] ∧
      ∀ e ∈ terminateTrace, Permitted daemonConfig daemonControllers terminate
        (fun now => ⟨.now, now⟩ ∈ terminateTrace) e.op :=
  ⟨rfl, hostCalls_permitted (play_runs _ _ _)⟩

end Host

end Argus.Remediation
