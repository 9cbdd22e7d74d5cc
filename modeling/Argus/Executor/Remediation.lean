import Argus.Executor.Cluster
import Argus.Executor.CgroupPaths
import Argus.Kubernetes.Rollback

/-!
# The remediation executor

The capabilities that act on the host: signalling a process, restarting a container, freezing and
thawing a cgroup, reclaiming the page cache, vacuuming the journal, and calling an external tool.
The executor reads the arguments, runs the guardrails on the target, and makes one call of the port
of the capability's family.

An `Account` says all that an execution does: it is refused, or has one effect, which the arguments
name and the guardrails have passed. `executed_as_reported` is what its caller learns of it.
-/

namespace Argus.Remediation

open Interaction
open Prog hiding request
open Kubernetes (readDigits parseI64)

/-! ### Signals -/

/-- The signals that an action may deliver. -/
inductive ProcessSignal
  | term
  | kill
  | stop
  | cont
  deriving DecidableEq

namespace ProcessSignal

def name : ProcessSignal → String
  | term => "term"
  | kill => "kill"
  | stop => "stop"
  | cont => "cont"

/-- Reads the value of an action's `signal` argument. -/
def parse (value : String) : Option ProcessSignal :=
  if value = "term" then some term
  else if value = "kill" then some kill
  else if value = "stop" then some stop
  else if value = "cont" then some cont
  else none

end ProcessSignal

/-! ### The ports -/

/-- A call of one of the executor's ports that acts. -/
inductive Effect
  | signal (pid : Int) (signal : ProcessSignal)
  | restart (id : String)
  | setFreeze (path : String) (frozen : Bool)
  | reclaimPageCache
  | vacuum (sinceUsec : Nat)
  | callTool (capability : CapabilityId) (arguments : Value)

inductive PortCall
  | now
  | effect (effect : Effect)

/-- What a port answers. The value of an effect other than a tool's is `null`. -/
@[reducible] def PortReply : PortCall → Type
  | .now => DateTime
  | .effect _ => Except RemediationError Value

/-- A program over the executor's ports. -/
abbrev PortM := Prog PortReply

/-- The time, as the executor's clock gives it. -/
@[reducible] def clock : PortM DateTime := Prog.call PortCall.now

@[reducible] def act (effect : Effect) : PortM (Except RemediationError Value) :=
  Prog.call (PortCall.effect effect)

/-! ### The executor -/

structure ExecutionResult where
  capability : CapabilityId
  evidence : Value
  startedAt : DateTime
  finishedAt : DateTime

def minKeepDays : Nat := 1

def maxKeepDays : Nat := 365

/-- The executor. How long the journal is kept stays within its bounds. -/
structure RemediationExecutor where
  journalKeepDays : Nat
  guardrails : GuardrailRegistry
  bounded : minKeepDays ≤ journalKeepDays ∧ journalKeepDays ≤ maxKeepDays

namespace RemediationExecutor

def new (journalKeepDays : UInt32) (guardrails : GuardrailRegistry) : RemediationExecutor where
  journalKeepDays := max minKeepDays (min journalKeepDays.toNat maxKeepDays)
  guardrails := guardrails
  bounded := ⟨le_max_left _ _, max_le (by decide) (min_le_right _ _)⟩

/-- Whether the executor performs the capability. -/
def handles (capability : CapabilityId) : Bool := Control.remediationHandles capability

/-- Makes one effect, and reports it with its evidence. -/
def perform (capability : CapabilityId) (effect : Effect) (evidence : Value → Value) :
    PortM (Except ExecutionError ExecutionResult) := do
  let startedAt ← clock
  match ← act effect with
  | .error error => pure (.error (.failed error.display))
  | .ok answer => do
      let finishedAt ← clock
      pure (.ok ⟨capability, evidence answer, startedAt, finishedAt⟩)

variable (executor : RemediationExecutor) (action : AuthorizedAction)

/-- The process of an action: a number that fits 32 bits. -/
def pidOf (arguments : Value) : Option Int :=
  ((arguments.get "pid").bind Value.asI64).filter fun pid => decide (-2 ^ 31 ≤ pid ∧ pid < 2 ^ 31)

def signalOf (arguments : Value) : Option ProcessSignal :=
  (arguments.getStr "signal").bind ProcessSignal.parse

/-- A string argument that is not blank. -/
def named (key : String) (arguments : Value) : Option String :=
  (arguments.getStr key).filter fun text => trim text != ""

def signalPid : PortM (Except ExecutionError ExecutionResult) :=
  match pidOf action.request.arguments with
  | none => pure (.error (.failed "the request does not name a valid numeric 'pid'"))
  | some pid =>
      match signalOf action.request.arguments with
      | none =>
          pure (.error (.failed
            "the request does not name a signal in \x7bterm,kill,stop,cont\x7d"))
      | some signal =>
          match executor.guardrails.check action.capability (toString pid) with
          | .error violation => pure (.error violation)
          | .ok () =>
              perform action.capability (.signal pid signal) fun _ =>
                .object [("pid", .ofI64 pid), ("signal", .string signal.name)]

def restartContainer : PortM (Except ExecutionError ExecutionResult) :=
  match named "container" action.request.arguments with
  | none => pure (.error (.failed "the request does not name a 'container'"))
  | some id =>
      match executor.guardrails.check action.capability id with
      | .error violation => pure (.error violation)
      | .ok () =>
          perform action.capability (.restart id) fun _ =>
            .object [("container", .string id), ("operation", .string "restart")]

def setCgroupFreeze (frozen : Bool) : PortM (Except ExecutionError ExecutionResult) :=
  match named "path" action.request.arguments with
  | none => pure (.error (.failed "the request does not name a cgroup 'path'"))
  | some path =>
      match executor.guardrails.check action.capability path with
      | .error violation => pure (.error violation)
      | .ok () =>
          perform action.capability (.setFreeze path frozen) fun _ =>
            .object [("frozen", .bool frozen), ("path", .string path)]

/-- What the action was about, as far as it says. -/
def pressureSubject (action : AuthorizedAction) : Option String :=
  action.request.arguments.getStr "subject"

/-- The field of the evidence that names the subject. -/
def subjectField (action : AuthorizedAction) : List (String × Value) :=
  (pressureSubject action).toList.map fun subject => ("subject", .string subject)

/-- What is written to reclaim the page cache, and nothing else. -/
def pageCacheOnly : String := "1"

def reclaimPageCache : PortM (Except ExecutionError ExecutionResult) :=
  perform action.capability .reclaimPageCache fun _ =>
    .object (("operation", .string "page-cache-reclaim") :: subjectField action ++
      [("value", .string pageCacheOnly)])

/-- `timestamp_micros`. -/
def timestampMicros (at_ : DateTime) : Int := at_.nanos / 1000

def dayUsec : Int := 24 * 60 * 60 * 1000000

/-- The entries of the journal before it are removed. -/
def sinceUsec (now : DateTime) : Nat :=
  (timestampMicros now - executor.journalKeepDays * dayUsec).toNat

def vacuumJournal : PortM (Except ExecutionError ExecutionResult) := do
  let now ← clock
  let since := executor.sinceUsec now
  perform action.capability (.vacuum since) fun _ =>
    .object ([("keep_days", .ofI64 executor.journalKeepDays),
      ("operation", .string "journal-vacuum"), ("since_usec", .ofI64 since)] ++
      subjectField action)

def callMcpTool : PortM (Except ExecutionError ExecutionResult) :=
  perform action.capability (.callTool action.capability action.request.arguments) id

def execute : PortM (Except ExecutionError ExecutionResult) :=
  let path := action.capability.asStr
  if path = CapabilityId.hostProcessSignal then executor.signalPid action
  else if path = CapabilityId.containerRestart then executor.restartContainer action
  else if path = CapabilityId.hostCgroupFreeze then executor.setCgroupFreeze action true
  else if path = CapabilityId.hostCgroupThaw then executor.setCgroupFreeze action false
  else if path = CapabilityId.hostMemoryReclaim then reclaimPageCache action
  else if path = CapabilityId.hostJournalVacuum then executor.vacuumJournal action
  else if action.capability.startsWith "mcp." then callMcpTool action
  else pure (.error (.unsupported action.capability))

end RemediationExecutor

/-! ### The guardrails -/

/-- `str::parse::<i32>`: as for a wider number, in its range. -/
def parseI32 (text : String) : Option Int :=
  (parseI64 text).filter fun n => decide (-2 ^ 31 ≤ n ∧ n < 2 ^ 31)

/-- Refuses the process itself. -/
def neverSignalSelf (own : Int) : Guardrail := fun target =>
  match parseI32 target with
  | none => .error ("target '" ++ target ++ "' is not a pid")
  | some pid =>
      if pid = own then .error "refusing to signal this daemon's own process" else .ok ()

/-- Refuses init, and what is no process. -/
def pidAboveOne : Guardrail := fun target =>
  match parseI32 target with
  | none => .error ("target '" ++ target ++ "' is not a pid")
  | some pid =>
      if pid ≤ 1 then
        .error ("refusing to signal PID " ++ toString pid ++ ": PID must be greater than 1")
      else .ok ()

def hostProcessSignal : CapabilityId := ⟨CapabilityId.hostProcessSignal, by decide⟩

def containerRestart : CapabilityId := ⟨CapabilityId.containerRestart, by decide⟩

/-- The guardrails wired for the remediation capabilities. There are none for the reclaim and for
the vacuum, which have no target. -/
def remediationGuardrails (own : Int) (protectedContainers protectedCgroups : List String) :
    GuardrailRegistry :=
  let registry : GuardrailRegistry := ⟨[]⟩
  let registry := registry.register hostProcessSignal (neverSignalSelf own)
  let registry := registry.register hostProcessSignal pidAboveOne
  let registry := registry.register containerRestart (neverTarget protectedContainers)
  cgroupCapabilities.foldl
    (fun registry id =>
      (registry.register id validCgroupPath).register id (neverTarget protectedCgroups))
    registry

section Guardrails

variable {own pid : Int} {protectedContainers protectedCgroups : List String}
  {capability : CapabilityId} {target : String}

/-! #### A number and its text -/

theorem digit_digitChar {d : Nat} (h : d < 10) :
    d.digitChar.isDigit = true ∧ d.digitChar.toNat - 48 = d := by
  have hall : ∀ d : Fin 10, d.val.digitChar.isDigit = true ∧ d.val.digitChar.toNat - 48 = d.val :=
    by decide
  exact hall ⟨d, h⟩

theorem readDigits_of_ne_nil {digits : List Char} (h : digits ≠ []) : readDigits digits =
    digits.foldlM (fun n c => if c.isDigit then some (n * 10 + (c.toNat - 48)) else none) 0 := by
  cases digits with
  | nil => exact absurd rfl h
  | cons c digits => rfl

/-- The digits of a number are read as that number. -/
theorem readDigits_toDigits (n : Nat) : readDigits (Nat.toDigits 10 n) = some n := by
  induction n using Nat.strong_induction_on with
  | _ n ih =>
      rcases lt_or_ge n 10 with hlt | hge
      · rw [Nat.toDigits_of_lt_base hlt]
        simp [readDigits, digit_digitChar hlt]
      · -- the last digit follows those of a tenth of the number
        have hinit := ih (n / 10) (by omega)
        rw [readDigits_of_ne_nil Nat.toDigits_ne_nil] at hinit ⊢
        rw [Nat.toDigits_of_base_le (by decide) hge, List.foldlM_append, hinit]
        have hlast := digit_digitChar (d := n % 10) (by omega)
        simp [hlast]
        omega

/-- The first character of a number is a digit, which is no sign. -/
theorem toList_repr_sign {n : Nat} {c : Char} {rest : List Char}
    (h : n.repr.toList = c :: rest) : c ≠ '-' ∧ c ≠ '+' := by
  have hmem : c ∈ Nat.toDigits 10 n := by
    rw [Nat.repr, String.toList_ofList] at h
    simp [h]
  have hdigit := Nat.isDigit_of_mem_toDigits (by decide) (by decide) hmem
  constructor <;> rintro rfl <;> exact absurd hdigit (by decide)

theorem parseI64_toString (h : -2 ^ 63 ≤ pid ∧ pid < 2 ^ 63) :
    parseI64 (toString pid) = some pid := by
  have hrepr (n : Nat) : n.repr.toList = Nat.toDigits 10 n := by
    rw [Nat.repr, String.toList_ofList]
  cases pid with
  | ofNat n =>
      change parseI64 n.repr = _
      unfold parseI64
      split
      · exact absurd rfl (toList_repr_sign ‹_›).1
      · exact absurd rfl (toList_repr_sign ‹_›).2
      · rw [hrepr, readDigits_toDigits]
        exact Option.filter_eq_some_iff.mpr ⟨rfl, by simpa using h⟩
  | negSucc n =>
      change parseI64 ("-" ++ n.succ.repr) = _
      have hlist : ("-" ++ n.succ.repr).toList = '-' :: Nat.toDigits 10 n.succ := by
        rw [String.toList_append, hrepr]
        rfl
      unfold parseI64
      rw [hlist]
      simp only [readDigits_toDigits]
      exact Option.filter_eq_some_iff.mpr ⟨rfl, by simpa using h⟩

/-- The guardrails read the process that the signal goes to. -/
theorem parseI32_toString (h : -2 ^ 31 ≤ pid ∧ pid < 2 ^ 31) :
    parseI32 (toString pid) = some pid := by
  rw [parseI32, parseI64_toString ⟨by omega, by omega⟩]
  exact Option.filter_eq_some_iff.mpr ⟨rfl, by simpa using h⟩

/-! #### What passes -/

theorem eq_of_asStr {id : CapabilityId} (h : capability.asStr = id.asStr) : capability = id := by
  obtain ⟨path, valid⟩ := capability
  obtain ⟨path', valid'⟩ := id
  simpa using h

theorem registered_remediationGuardrails :
    (remediationGuardrails own protectedContainers protectedCgroups).registered =
      [(hostProcessSignal, neverSignalSelf own), (hostProcessSignal, pidAboveOne),
        (containerRestart, neverTarget protectedContainers)] ++
        (cgroupGuardrails protectedCgroups).registered := rfl

theorem check_signal (h : -2 ^ 31 ≤ pid ∧ pid < 2 ^ 31)
    (hcheck : (remediationGuardrails own protectedContainers protectedCgroups).check
      hostProcessSignal (toString pid) = .ok ()) : 1 < pid ∧ pid ≠ own := by
  have hall := GuardrailRegistry.checkEach_eq_ok hcheck
  have hself := hall (neverSignalSelf own) (by
    simp [GuardrailRegistry.predicates, registered_remediationGuardrails])
  have habove := hall pidAboveOne (by
    simp [GuardrailRegistry.predicates, registered_remediationGuardrails])
  simp only [neverSignalSelf, parseI32_toString h] at hself
  simp only [pidAboveOne, parseI32_toString h] at habove
  split_ifs at hself with howner
  split_ifs at habove with hone
  exact ⟨not_le.mp hone, howner⟩

theorem check_restart
    (hcheck : (remediationGuardrails own protectedContainers protectedCgroups).check
      containerRestart target = .ok ()) : target ∉ protectedContainers := by
  have hdenied := GuardrailRegistry.checkEach_eq_ok hcheck (neverTarget protectedContainers) (by
    simp [GuardrailRegistry.predicates, registered_remediationGuardrails])
  simp only [neverTarget] at hdenied
  split_ifs at hdenied with hmem
  exact hmem

theorem check_cgroup (h : capability ∈ cgroupCapabilities)
    (hcheck : (remediationGuardrails own protectedContainers protectedCgroups).check
      capability target = .ok ()) :
    validateCgroupPath target = .ok () ∧ target ∉ protectedCgroups := by
  refine (check_cgroupGuardrails_iff h).mp (.trans ?_ hcheck)
  have hother : capability ≠ hostProcessSignal ∧ capability ≠ containerRestart := by
    simp only [cgroupCapabilities, List.mem_cons, List.not_mem_nil, or_false] at h
    rcases h with rfl | rfl <;> decide
  -- the other families' entries are for other capabilities
  simp [GuardrailRegistry.check, GuardrailRegistry.predicates, registered_remediationGuardrails,
    hother.1.symm, hother.2.symm]

end Guardrails

/-! ### What an execution does -/

/-- The effects that an action may have, when the clock gave `times`: the one that its arguments
name, once the guardrails have passed its target. -/
inductive Granted (executor : RemediationExecutor) (action : AuthorizedAction)
    (times : List DateTime) : Effect → Prop
  | signal {pid : Int} {signal : ProcessSignal} :
      action.capability = hostProcessSignal →
      RemediationExecutor.pidOf action.request.arguments = some pid →
      RemediationExecutor.signalOf action.request.arguments = some signal →
      executor.guardrails.check action.capability (toString pid) = .ok () →
      Granted executor action times (.signal pid signal)
  | restart {id : String} :
      action.capability = containerRestart →
      RemediationExecutor.named "container" action.request.arguments = some id →
      executor.guardrails.check action.capability id = .ok () →
      Granted executor action times (.restart id)
  | setFreeze {path : String} (frozen : Bool) :
      action.capability.asStr =
        (if frozen then CapabilityId.hostCgroupFreeze else CapabilityId.hostCgroupThaw) →
      RemediationExecutor.named "path" action.request.arguments = some path →
      executor.guardrails.check action.capability path = .ok () →
      Granted executor action times (.setFreeze path frozen)
  | reclaimPageCache :
      action.capability.asStr = CapabilityId.hostMemoryReclaim →
      Granted executor action times .reclaimPageCache
  | vacuum {now : DateTime} :
      action.capability.asStr = CapabilityId.hostJournalVacuum → now ∈ times →
      Granted executor action times (.vacuum (executor.sinceUsec now))
  | callTool :
      action.capability.isMcpCapability = true →
      Granted executor action times (.callTool action.capability action.request.arguments)

/-- The action does not name what its capability acts on, or how. -/
inductive Malformed (action : AuthorizedAction) : String → Prop
  | pid :
      action.capability = hostProcessSignal →
      RemediationExecutor.pidOf action.request.arguments = none →
      Malformed action "the request does not name a valid numeric 'pid'"
  | signal :
      action.capability = hostProcessSignal →
      RemediationExecutor.signalOf action.request.arguments = none →
      Malformed action "the request does not name a signal in \x7bterm,kill,stop,cont\x7d"
  | container :
      action.capability = containerRestart →
      RemediationExecutor.named "container" action.request.arguments = none →
      Malformed action "the request does not name a 'container'"
  | path :
      action.capability ∈ cgroupCapabilities →
      RemediationExecutor.named "path" action.request.arguments = none →
      Malformed action "the request does not name a cgroup 'path'"

/-- What the action names for the guardrails to check. -/
inductive Target (action : AuthorizedAction) : String → Prop
  | pid {pid : Int} :
      action.capability = hostProcessSignal →
      RemediationExecutor.pidOf action.request.arguments = some pid → Target action (toString pid)
  | container {id : String} :
      action.capability = containerRestart →
      RemediationExecutor.named "container" action.request.arguments = some id → Target action id
  | path {path : String} :
      action.capability ∈ cgroupCapabilities →
      RemediationExecutor.named "path" action.request.arguments = some path → Target action path

/-- Why an execution makes no effect. -/
inductive Declined (executor : RemediationExecutor) (action : AuthorizedAction) :
    ExecutionError → Prop
  | unsupported :
      RemediationExecutor.handles action.capability = false →
      Declined executor action (.unsupported action.capability)
  | malformed {reason : String} :
      Malformed action reason → Declined executor action (.failed reason)
  | refused {target reason : String} :
      Target action target →
      executor.guardrails.check action.capability target =
        .error (.guardrailViolation action.capability reason) →
      Declined executor action (.guardrailViolation action.capability reason)

/-- A reading of the clock. -/
def reading (time : DateTime) : Event PortReply := ⟨.now, time⟩

/-- One call that acts, with its answer. -/
def acted (effect : Effect) (reply : Except RemediationError Value) : Event PortReply :=
  ⟨.effect effect, reply⟩

/-- The account of an execution: no effect, and the reason for that; or a single effect that was
granted, whose failure is reported in its own words, and which is reported as done when it
succeeded. -/
inductive Account (executor : RemediationExecutor) (action : AuthorizedAction) :
    List (Event PortReply) → Except ExecutionError ExecutionResult → Prop
  | declined {error : ExecutionError} :
      Declined executor action error → Account executor action [] (.error error)
  | failed {times : List DateTime} {effect : Effect} {error : RemediationError} :
      Granted executor action times effect →
      Account executor action (times.map reading ++ [acted effect (.error error)])
        (.error (.failed error.display))
  | done {times : List DateTime} {effect : Effect} {answer : Value} {result : ExecutionResult} :
      Granted executor action times effect → result.capability = action.capability →
      result.startedAt ∈ times →
      Account executor action
        (times.map reading ++ [acted effect (.ok answer), reading result.finishedAt]) (.ok result)

section Account

variable {executor : RemediationExecutor} {action : AuthorizedAction} {times : List DateTime}
  {effect : Effect} {evidence : Value → Value} {t : List (Event PortReply)}
  {r : Except ExecutionError ExecutionResult} {target : String} {error : ExecutionError}

/-- A guardrail's refusal names the capability. -/
theorem checkEach_eq_error {capability : CapabilityId} {predicates : List Guardrail}
    (h : GuardrailRegistry.checkEach capability target predicates = .error error) :
    ∃ reason, error = .guardrailViolation capability reason := by
  induction predicates with
  | nil => cases h
  | cons predicate rest ih =>
      unfold GuardrailRegistry.checkEach at h
      split at h
      · exact ih h
      · cases h
        exact ⟨_, rfl⟩

/-- A granted effect, made after the clock has given `times`, and its account. -/
theorem Account.perform (times : List DateTime)
    (hgranted : ∀ startedAt, Granted executor action (times ++ [startedAt]) effect)
    (h : Runs (RemediationExecutor.perform action.capability effect evidence) t r) :
    Account executor action (times.map reading ++ t) r := by
  obtain ⟨startedAt, _, hact, rfl⟩ := runs_call_bind.mp h
  obtain ⟨reply, t₂, hend, rfl⟩ := runs_call_bind.mp hact
  have hread : times.map reading ++ reading startedAt :: acted effect reply :: t₂ =
      (times ++ [startedAt]).map reading ++ acted effect reply :: t₂ := by simp
  change Account executor action
    (times.map reading ++ reading startedAt :: acted effect reply :: t₂) r
  rw [hread]
  cases reply with
  | error error =>
      obtain ⟨rfl, rfl⟩ := hend
      exact .failed (hgranted startedAt)
  | ok answer =>
      obtain ⟨finishedAt, _, ⟨rfl, rfl⟩, rfl⟩ := runs_call_bind.mp hend
      exact @Account.done executor action _ effect answer ⟨_, _, startedAt, finishedAt⟩
        (hgranted startedAt) rfl (List.mem_append_right _ (List.mem_singleton_self _))

/-- An effect on a target that is checked first. -/
theorem Account.checked (htarget : Target action target)
    (hgranted : executor.guardrails.check action.capability target = .ok () →
      ∀ times, Granted executor action times effect)
    (h : Runs (match executor.guardrails.check action.capability target with
      | .error violation => pure (.error violation)
      | .ok () => RemediationExecutor.perform action.capability effect evidence) t r) :
    Account executor action t r := by
  split at h
  · obtain ⟨rfl, rfl⟩ := h
    rename_i hcheck
    obtain ⟨reason, rfl⟩ := checkEach_eq_error hcheck
    exact .declined (.refused htarget hcheck)
  · exact Account.perform [] (fun _ => hgranted ‹_› _) h

theorem mem_cgroupCapabilities {frozen : Bool} (h : action.capability.asStr =
    (if frozen then CapabilityId.hostCgroupFreeze else CapabilityId.hostCgroupThaw)) :
    action.capability ∈ cgroupCapabilities := by
  rw [mem_iff_asStr, h]
  cases frozen <;> decide

theorem account_setCgroupFreeze (frozen : Bool)
    (hcapability : action.capability.asStr =
      (if frozen then CapabilityId.hostCgroupFreeze else CapabilityId.hostCgroupThaw))
    (h : Runs (executor.setCgroupFreeze action frozen) t r) : Account executor action t r := by
  have hmem := mem_cgroupCapabilities hcapability
  unfold RemediationExecutor.setCgroupFreeze at h
  split at h
  · obtain ⟨rfl, rfl⟩ := h
    exact .declined (.malformed (.path hmem ‹_›))
  · exact .checked (.path hmem ‹_›) (fun hcheck _ => .setFreeze frozen hcapability ‹_› hcheck) h

/-- Every execution has such an account. -/
theorem account_execute (h : Runs (executor.execute action) t r) : Account executor action t r := by
  unfold RemediationExecutor.execute at h
  dsimp only at h
  split_ifs at h with hsignal hrestart hfreeze hthaw hreclaim hvacuum htool
  · have hcapability : action.capability = hostProcessSignal := eq_of_asStr hsignal
    unfold RemediationExecutor.signalPid at h
    split at h
    · obtain ⟨rfl, rfl⟩ := h
      exact .declined (.malformed (.pid hcapability ‹_›))
    · split at h
      · obtain ⟨rfl, rfl⟩ := h
        exact .declined (.malformed (.signal hcapability ‹_›))
      · exact .checked (.pid hcapability ‹_›)
          (fun hcheck _ => .signal hcapability ‹_› ‹_› hcheck) h
  · have hcapability : action.capability = containerRestart := eq_of_asStr hrestart
    unfold RemediationExecutor.restartContainer at h
    split at h
    · obtain ⟨rfl, rfl⟩ := h
      exact .declined (.malformed (.container hcapability ‹_›))
    · exact .checked (.container hcapability ‹_›)
        (fun hcheck _ => .restart hcapability ‹_› hcheck) h
  · exact account_setCgroupFreeze true hfreeze h
  · exact account_setCgroupFreeze false hthaw h
  · exact Account.perform [] (fun _ => .reclaimPageCache hreclaim) h
  · -- the clock is read once for the cutoff, and again at the start
    obtain ⟨now, _, hperform, rfl⟩ := runs_call_bind.mp h
    exact Account.perform [now] (fun _ => .vacuum hvacuum List.mem_cons_self) hperform
  · exact Account.perform [] (fun _ => .callTool htool) h
  · obtain ⟨rfl, rfl⟩ := h
    refine .declined (.unsupported ?_)
    simp only [RemediationExecutor.handles, Control.remediationHandles,
      CapabilityId.isMcpCapability, Bool.or_eq_false_iff, decide_eq_false_iff_not, List.mem_cons,
      List.not_mem_nil, or_false]
    exact ⟨by tauto, by simpa using htool⟩

end Account

/-! ### The report of an execution -/

/-- The effects of a run, with what the ports answered. -/
def effects (t : List (Event PortReply)) : List (Effect × Except RemediationError Value) :=
  t.filterMap fun
    | ⟨.now, _⟩ => none
    | ⟨.effect effect, reply⟩ => some (effect, reply)

/-- A report that tells what was done. -/
structure Reported (executor : RemediationExecutor) (action : AuthorizedAction)
    (effects : List (Effect × Except RemediationError Value))
    (report : Except ExecutionError ExecutionResult) : Prop where
  once : effects.length ≤ 1
  done : report.isOk = true ↔ ∃ effect answer, effects = [(effect, .ok answer)]
  failed : ∀ effect error, (effect, .error error) ∈ effects →
    report = .error (.failed error.display)
  /-- A report of no effect says why there is none. -/
  declined : effects = [] → ∃ error, report = .error error ∧ Declined executor action error
  refused : ∀ capability reason, report = .error (.guardrailViolation capability reason) →
    capability = action.capability ∧ effects = []
  unsupported : report = .error (.unsupported action.capability) ↔
    RemediationExecutor.handles action.capability = false

section Reported

variable {executor : RemediationExecutor} {action : AuthorizedAction} {t : List (Event PortReply)}
  {r : Except ExecutionError ExecutionResult} {times : List DateTime} {effect : Effect}

@[simp] theorem effects_nil : effects [] = [] := rfl

@[simp] theorem effects_append (t t' : List (Event PortReply)) :
    effects (t ++ t') = effects t ++ effects t' := List.filterMap_append

@[simp] theorem effects_reading : effects (times.map reading) = [] := by
  rw [effects, List.filterMap_map]
  exact List.filterMap_eq_nil_iff.mpr fun _ _ => rfl

theorem handles_iff : RemediationExecutor.handles action.capability = true ↔
    action.capability.asStr ∈ [CapabilityId.hostProcessSignal, CapabilityId.containerRestart,
      CapabilityId.hostCgroupFreeze, CapabilityId.hostCgroupThaw, CapabilityId.hostMemoryReclaim,
      CapabilityId.hostJournalVacuum] ∨ action.capability.isMcpCapability = true := by
  rw [RemediationExecutor.handles, Control.remediationHandles, Bool.or_eq_true, decide_eq_true_iff]

theorem Granted.handles (h : Granted executor action times effect) :
    RemediationExecutor.handles action.capability = true := by
  rw [handles_iff]
  cases h with
  | signal h => simp [h, hostProcessSignal]
  | restart h => simp [h, containerRestart]
  | setFreeze frozen h => cases frozen <;> simp [h]
  | reclaimPageCache h => simp [h]
  | vacuum h => simp [h]
  | callTool h => exact .inr h

theorem handles_of_signal (h : action.capability = hostProcessSignal) :
    RemediationExecutor.handles action.capability = true := by
  rw [handles_iff, h]
  simp [hostProcessSignal]

theorem handles_of_restart (h : action.capability = containerRestart) :
    RemediationExecutor.handles action.capability = true := by
  rw [handles_iff, h]
  simp [containerRestart]

theorem handles_of_cgroup (h : action.capability ∈ cgroupCapabilities) :
    RemediationExecutor.handles action.capability = true := by
  rw [mem_iff_asStr] at h
  rw [handles_iff]
  simp only [cgroupCapabilities, List.map_cons, List.map_nil, List.mem_cons, List.not_mem_nil,
    or_false] at h
  rcases h with h | h <;> simp [h]

/-- Only a capability of none of the families is unsupported. -/
theorem Declined.unsupported_iff {error : ExecutionError} (h : Declined executor action error) :
    error = .unsupported action.capability ↔
      RemediationExecutor.handles action.capability = false := by
  cases h with
  | unsupported hhandles => simp [hhandles]
  | malformed hmalformed =>
      have hhandles : RemediationExecutor.handles action.capability = true := by
        cases hmalformed with
        | pid h | signal h => exact handles_of_signal h
        | container h => exact handles_of_restart h
        | path h => exact handles_of_cgroup h
      simp [hhandles]
  | refused htarget =>
      have hhandles : RemediationExecutor.handles action.capability = true := by
        cases htarget with
        | pid h => exact handles_of_signal h
        | container h => exact handles_of_restart h
        | path h => exact handles_of_cgroup h
      simp [hhandles]

/-- What is declined has no effect to report. -/
theorem Reported.of_declined {error : ExecutionError} (h : Declined executor action error) :
    Reported executor action [] (.error error) where
  once := Nat.zero_le 1
  done := by simp [Except.isOk, Except.toBool]
  failed := by simp
  declined := fun _ => ⟨error, rfl, h⟩
  refused := by
    intro capability reason herror
    obtain rfl := Except.error.inj herror
    cases h
    exact ⟨rfl, rfl⟩
  unsupported := by simpa using h.unsupported_iff

/-- An execution makes at most one effect, and its report is the answer to it. -/
theorem executed_as_reported (h : Runs (executor.execute action) t r) :
    Reported executor action (effects t) r := by
  cases account_execute h with
  | declined hdeclined => exact .of_declined hdeclined
  | @failed times effect error hgranted =>
      have heffects : effects (times.map reading ++ [acted effect (.error error)]) =
          [(effect, .error error)] := by
        rw [effects_append, effects_reading]
        rfl
      rw [heffects]
      exact ⟨le_rfl, by simp [Except.isOk, Except.toBool], by simp, by simp, by simp,
        by simp [hgranted.handles]⟩
  | @done times effect answer result hgranted =>
      have heffects : effects (times.map reading ++
          [acted effect (.ok answer), reading result.finishedAt]) = [(effect, .ok answer)] := by
        rw [effects_append, effects_reading]
        rfl
      rw [heffects]
      exact ⟨le_rfl, by simp [Except.isOk, Except.toBool], by simp, by simp, by simp,
        by simp [hgranted.handles]⟩

/-- An authorized action that terminates a process. -/
def terminate : AuthorizedAction where
  request :=
    { capability := hostProcessSignal
      principal := ⟨none, none⟩
      resource := none
      arguments := .object [("pid", .number (.posInt 4242)), ("signal", .string "term")]
      context := ⟨0, ⟨none, none⟩⟩ }
  decision := PolicyDecision.allow "policy.bootstrap" "allowed"
  allowed := rfl

/-- Ports that fail. -/
def failingPorts : (call : PortCall) → PortReply call
  | .now => ⟨0⟩
  | .effect _ => .error (.failed "no such process")

/-- The run of the termination on them. -/
def failedRun : List (Event PortReply) × Except ExecutionError ExecutionResult × Unit :=
  play (fun call u => (failingPorts call, u))
    (RemediationExecutor.execute (.new 7 (remediationGuardrails 1000 [] [])) terminate) ()

theorem executed_as_reported_terminate :
    effects failedRun.1 = [(.signal 4242 .term, .error (.failed "no such process"))] ∧
      Reported (.new 7 (remediationGuardrails 1000 [] [])) terminate (effects failedRun.1)
        failedRun.2.1 :=
  ⟨rfl, executed_as_reported (play_runs _ _ _)⟩

end Reported

end Argus.Remediation
