import Argus.Container.HttpParse
import Argus.Executor.Privileged

/-!
# Restarting a container, and asking whether it runs

The blocking client writes one request to the daemon's socket and reads the answer to its end. What
the controller and the executor report is what the client makes of those bytes, and the client does
not look at the status among them. `reports_truthful_iff` says for which answers the reports are
true.
-/

namespace Argus

open Interaction Prog
open Utf8 (fromUtf8 fromUtf8Lossy)

/-- What comes back for the text of a request: all the bytes up to the end, or why there are
none. -/
@[reducible] def DockerReply (_ : String) : Type := Except ContainerError (List UInt8)

/-- A program over the daemon's socket. -/
abbrev DockerM := Prog DockerReply

/-! ### The client -/

namespace SyncDockerClient

/-- One blocking request: the status and the body. -/
def request (verb path : String) : DockerM (Except ContainerError (String × String)) := do
  let reply ← Prog.call (verb ++ " " ++ path ++
    " HTTP/1.1\r\nHost: localhost\r\nConnection: close\r\nContent-Length: 0\r\n\r\n")
  pure (reply >>= parseResponse)

/-- The path of an endpoint. An identifier that would alter it is refused. -/
def containerResourcePath (id resource : String) : Except ContainerError String :=
  if id.toList.isEmpty || !id.toList.all (fun c => c.isAlphanum || c == '-' || c == '_') then
    .error (.other ("container id '" ++ id ++ "' contains characters outside [A-Za-z0-9_-]"))
  else .ok ("/containers/" ++ id ++ "/" ++ resource)

def restartContainer (id : String) : DockerM (Except ContainerError Unit) :=
  match containerResourcePath id "restart" with
  | .error error => pure (.error error)
  | .ok path => do
      let answer ← request "POST" path
      -- the status is dropped with the body
      pure (answer.map fun _ => ())

/-- `State.Running` of an inspected container. -/
def runningOf (state : Value) : Option Bool :=
  ((state.get "State").bind fun state => state.get "Running").bind fun
    | .bool b => some b
    | _ => none

/-- `fromStr` is the JSON reader, with the text of its error. -/
def stateRunning (fromStr : String → Except String Value) (body : String) :
    Except ContainerError Bool :=
  match fromStr (trim body) with
  | .error text => .error (.parse text)
  | .ok state =>
      match runningOf state with
      | some b => .ok b
      | none => .error (.parse "inspect response lacks State.Running")

def containerRunning (fromStr : String → Except String Value) (id : String) :
    DockerM (Except ContainerError Bool) :=
  match containerResourcePath id "json" with
  | .error error => pure (.error error)
  | .ok path => do
      let answer ← request "GET" path
      -- the body is read under any status
      pure (answer >>= fun (_, body) => stateRunning fromStr body)

end SyncDockerClient

/-! ### The controller and the executor -/

namespace DockerContainerController

def restart (id : String) : DockerM (Except RemediationError Unit) := do
  let result ← SyncDockerClient.restartContainer id
  pure (result.mapError fun error => .failed error.display)

def isRunning (fromStr : String → Except String Value) (id : String) :
    DockerM (Except RemediationError Bool) := do
  let result ← SyncDockerClient.containerRunning fromStr id
  pure (result.mapError fun error => match error with
    | .unavailable _ => .unavailable error.display
    | _ => .failed error.display)

end DockerContainerController

/-- A `container.restart` step: the identifier the action names is checked against the guardrails
right before the restart. -/
def RemediationExecutor.restartContainer (guardrails : GuardrailRegistry)
    (action : AuthorizedAction) : DockerM (Except ExecutionError Value) :=
  match (action.request.arguments.getStr "container").filter fun id => trim id != "" with
  | none => pure (.error (.failed "the request does not name a 'container'"))
  | some id =>
      match guardrails.check action.capability id with
      | .error violation => pure (.error violation)
      | .ok () => do
          match ← DockerContainerController.restart id with
          | .error error => pure (.error (.failed error.display))
          | .ok () =>
              pure (.ok (.object [("container", .string id), ("operation", .string "restart")]))

/-! ### What an answer says -/

/-- The parts of an answer: the text in front of its first blank line, the second word of that, and
what follows, less the framing that the head declares. -/
structure Reads (raw : List UInt8) (head status : List Char) (body : List UInt8) : Prop where
  parts : ∃ split, position blankLine raw = some split ∧ fromUtf8 (raw.take split) = some head ∧
    (if isChunked head then decodeChunks (raw.drop (split + 4)) []
      else .ok (raw.drop (split + 4))) = .ok body
  hasStatus : (words head)[1]? = some status

/-- A status line: the version, the code, and perhaps a reason. -/
def IsStatusLine (line code : List Char) : Prop :=
  ∃ major minor reason, line = "HTTP/".toList ++ [major, '.', minor, ' '] ++ code ++ reason ∧
    major.isDigit ∧ minor.isDigit ∧ code.length = 3 ∧ (∀ c ∈ code, c.isDigit) ∧
    (reason = [] ∨ reason.head? = some ' ')

def isTokenChar (c : Char) : Bool := c.isAlphanum || "!#$%&'*+-.^_`|~".toList.contains c

/-- A field of a head: a name, a colon, and a value. -/
def IsField (line : List Char) : Prop :=
  ∃ name value, line = name ++ ':' :: value ∧ name ≠ [] ∧ ∀ c ∈ name, isTokenChar c

/-- A head that HTTP allows, with its status code. -/
def WellFormed (head code : List Char) : Prop :=
  ∃ line fields, lines head = line :: fields ∧ IsStatusLine line code ∧
    ∀ field ∈ fields, IsField field

/-- The answer is a response of HTTP that reports success. -/
def ReportsSuccess (raw : List UInt8) : Prop :=
  ∃ head status body code, Reads raw head status body ∧ WellFormed head code ∧
    code.head? = some '2'

/-- The answer has the status 200, and a body that says whether the container runs. -/
def ReportsRunning (fromStr : String → Except String Value) (raw : List UInt8) (b : Bool) : Prop :=
  ∃ head body state, Reads raw head "200".toList body ∧
    fromStr (trim (.ofList (fromUtf8Lossy body))) = .ok state ∧
    SyncDockerClient.runningOf state = some b

/-- Every request was answered with these bytes. -/
def AnsweredWith (raw : List UInt8) (t : List (Event DockerReply)) : Prop :=
  ∀ e ∈ t, e.reply = .ok raw

/-- Whatever is asked, success is reported only where the answer reports it. -/
structure Truthful (fromStr : String → Except String Value) (raw : List UInt8) : Prop where
  restart : ∀ id t, Runs (DockerContainerController.restart id) t (.ok ()) → AnsweredWith raw t →
    ReportsSuccess raw
  step : ∀ guardrails action t evidence,
    Runs (RemediationExecutor.restartContainer guardrails action) t (.ok evidence) →
    AnsweredWith raw t → ReportsSuccess raw
  running : ∀ id t b, Runs (DockerContainerController.isRunning fromStr id) t (.ok b) →
    AnsweredWith raw t → ReportsRunning fromStr raw b

/-- If the answer can be read at all, it is a response that reports success; and if its body says
whether the container runs, its status is 200. -/
structure Honest (fromStr : String → Except String Value) (raw : List UInt8) : Prop where
  success : ∀ head status body, Reads raw head status body →
    ∃ code, WellFormed head code ∧ code.head? = some '2'
  status : ∀ head status body state b, Reads raw head status body →
    fromStr (trim (.ofList (fromUtf8Lossy body))) = .ok state →
    SyncDockerClient.runningOf state = some b → status = "200".toList

/-! ### What the client makes of it -/

section Client

variable {raw : List UInt8} {head status : List Char} {body : List UInt8} {id : String}
  {t : List (Event DockerReply)} {fromStr : String → Except String Value} {b : Bool}

/-- The client's parser reads these parts. -/
theorem parseResponse_eq_ok {answer : String × String} : parseResponse raw = .ok answer ↔
    ∃ head status body, Reads raw head status body ∧
      answer = (.ofList status, .ofList (fromUtf8Lossy body)) := by
  constructor
  · intro h
    unfold parseResponse at h
    split at h
    · cases h
    · rename_i split hsplit
      split at h
      · cases h
      · rename_i head hhead
        split at h
        · cases h
        · rename_i status hstatus
          -- the body is decoded where the head declares chunks, and copied elsewhere
          by_cases hchunked : isChunked head
          · simp only [hchunked, if_true] at h
            cases hbody : decodeChunks (raw.drop (split + 4)) [] with
            | error error =>
                rw [hbody] at h
                cases h
            | ok body =>
                rw [hbody] at h
                refine ⟨head, status, body, ⟨⟨split, hsplit, hhead, ?_⟩, hstatus⟩, ?_⟩
                · rw [if_pos hchunked, hbody]
                · cases h
                  rfl
          · refine ⟨head, status, raw.drop (split + 4), ⟨⟨split, hsplit, hhead, ?_⟩, hstatus⟩, ?_⟩
            · rw [if_neg hchunked]
            · simp only [hchunked] at h
              cases h
              rfl
  · rintro ⟨head, status, body, ⟨⟨split, hsplit, hhead, hbody⟩, hstatus⟩, rfl⟩
    unfold parseResponse
    rw [hsplit]
    dsimp only
    rw [hhead]
    dsimp only
    rw [hstatus]
    by_cases hchunked : isChunked head
    · rw [if_pos hchunked] at hbody
      simp only [hchunked, if_true, hbody]
      rfl
    · rw [if_neg hchunked] at hbody
      cases hbody
      simp only [hchunked]
      rfl

/-- A request is one call, and its result is what is read from the answer. -/
theorem runs_request {verb path : String} {r : Except ContainerError (String × String)}
    (h : Runs (SyncDockerClient.request verb path) t r) (hraw : AnsweredWith raw t) :
    r = parseResponse raw := by
  obtain ⟨reply, t', ⟨rfl, rfl⟩, rfl⟩ := runs_call_bind.mp h
  have hreply := hraw _ List.mem_cons_self
  dsimp only at hreply
  rw [hreply]
  rfl

/-- A client that reports a restart has read an answer. -/
theorem restartContainer_ok (h : Runs (SyncDockerClient.restartContainer id) t (.ok ()))
    (hraw : AnsweredWith raw t) : ∃ answer, parseResponse raw = .ok answer := by
  unfold SyncDockerClient.restartContainer at h
  split at h
  · cases h.2
  · obtain ⟨answer, hrequest, hmap⟩ := runs_bind_pure.mp h
    rw [runs_request hrequest hraw] at hmap
    cases hparse : parseResponse raw with
    | ok answer => exact ⟨answer, rfl⟩
    | error error =>
        rw [hparse] at hmap
        cases hmap

theorem restart_ok (h : Runs (DockerContainerController.restart id) t (.ok ()))
    (hraw : AnsweredWith raw t) : ∃ answer, parseResponse raw = .ok answer := by
  obtain ⟨result, hrestart, hmap⟩ := runs_bind_pure.mp h
  cases result with
  | ok => exact restartContainer_ok hrestart hraw
  | error error => cases hmap

/-- A step that is completed has made a restart that the controller reports. -/
theorem step_ok {guardrails : GuardrailRegistry} {action : AuthorizedAction} {evidence : Value}
    (h : Runs (RemediationExecutor.restartContainer guardrails action) t (.ok evidence))
    (hraw : AnsweredWith raw t) : ∃ answer, parseResponse raw = .ok answer := by
  unfold RemediationExecutor.restartContainer at h
  split at h
  · cases h.2
  · split at h
    · cases h.2
    · -- the guardrails passed, and the evidence is that of a restart
      obtain ⟨t₁, result, t₂, hrestart, hend, rfl⟩ := runs_bind.mp h
      cases result with
      | ok =>
          obtain ⟨rfl, -⟩ := hend
          rw [List.append_nil] at hraw
          exact restart_ok hrestart hraw
      | error error => cases hend.2

theorem stateRunning_eq_ok {text : String} :
    SyncDockerClient.stateRunning fromStr text = .ok b ↔
      ∃ state, fromStr (trim text) = .ok state ∧ SyncDockerClient.runningOf state = some b := by
  unfold SyncDockerClient.stateRunning
  cases fromStr (trim text) with
  | error error => exact iff_of_false nofun fun ⟨_, h, _⟩ => nomatch h
  | ok state =>
      cases hrunning : SyncDockerClient.runningOf state with
      | none => simp [hrunning]
      | some running => simp [hrunning]

/-- A controller that says whether a container runs has read an answer that says so. -/
theorem isRunning_ok (h : Runs (DockerContainerController.isRunning fromStr id) t (.ok b))
    (hraw : AnsweredWith raw t) : ∃ head status body state, Reads raw head status body ∧
      fromStr (trim (.ofList (fromUtf8Lossy body))) = .ok state ∧
      SyncDockerClient.runningOf state = some b := by
  obtain ⟨result, hrunning, hmap⟩ := runs_bind_pure.mp h
  cases result with
  | error error => cases hmap
  | ok running =>
      cases hmap
      unfold SyncDockerClient.containerRunning at hrunning
      split at hrunning
      · cases hrunning.2
      · obtain ⟨answer, hrequest, hstate⟩ := runs_bind_pure.mp hrunning
        rw [runs_request hrequest hraw] at hstate
        cases hparse : parseResponse raw with
        | error error =>
            rw [hparse] at hstate
            cases hstate
        | ok answer =>
            rw [hparse] at hstate
            obtain ⟨head, status, body, hreads, rfl⟩ := parseResponse_eq_ok.mp hparse
            obtain ⟨state, hdoc, hb⟩ := stateRunning_eq_ok.mp hstate
            exact ⟨head, status, body, state, hreads, hdoc, hb⟩

/-! ### Runs that report -/

/-- The run of a request against one answer. -/
def answered (verb path : String) (raw : List UInt8) : List (Event DockerReply) :=
  [⟨verb ++ " " ++ path ++
    " HTTP/1.1\r\nHost: localhost\r\nConnection: close\r\nContent-Length: 0\r\n\r\n", .ok raw⟩]

theorem answeredWith_answered {verb path : String} : AnsweredWith raw (answered verb path raw) := by
  intro e he
  rw [List.mem_singleton.mp he]

theorem runs_answered {verb path : String} :
    Runs (SyncDockerClient.request verb path) (answered verb path raw) (parseResponse raw) :=
  runs_call_bind.mpr ⟨.ok raw, [], ⟨rfl, rfl⟩, rfl⟩

/-- Whatever can be read makes a restart. -/
theorem restart_of_reads (h : Reads raw head status body) :
    Runs (DockerContainerController.restart "web") (answered "POST" "/containers/web/restart" raw)
      (.ok ()) := by
  have hparse := parseResponse_eq_ok.mpr ⟨head, status, body, h, rfl⟩
  have hclient : Runs (SyncDockerClient.restartContainer "web")
      (answered "POST" "/containers/web/restart" raw) (.ok ()) := by
    refine runs_bind_pure.mpr ⟨_, runs_answered, ?_⟩
    rw [hparse]
    rfl
  exact runs_bind_pure.mpr ⟨_, hclient, rfl⟩

/-- Whatever can be read says whether the container runs, if its body does. -/
theorem isRunning_of_reads {state : Value} (h : Reads raw head status body)
    (hdoc : fromStr (trim (.ofList (fromUtf8Lossy body))) = .ok state)
    (hb : SyncDockerClient.runningOf state = some b) :
    Runs (DockerContainerController.isRunning fromStr "web")
      (answered "GET" "/containers/web/json" raw) (.ok b) := by
  have hparse := parseResponse_eq_ok.mpr ⟨head, status, body, h, rfl⟩
  have hclient : Runs (SyncDockerClient.containerRunning fromStr "web")
      (answered "GET" "/containers/web/json" raw) (.ok b) := by
    refine runs_bind_pure.mpr ⟨_, runs_answered, ?_⟩
    rw [hparse]
    exact stateRunning_eq_ok.mpr ⟨state, hdoc, hb⟩
  exact runs_bind_pure.mpr ⟨_, hclient, rfl⟩

/-- The parts of an answer are determined. -/
theorem Reads.unique {head' status' : List Char} {body' : List UInt8}
    (h : Reads raw head status body) (h' : Reads raw head' status' body') :
    head = head' ∧ status = status' ∧ body = body' := by
  obtain ⟨⟨split, hsplit, hhead, hbody⟩, hstatus⟩ := h
  obtain ⟨⟨split', hsplit', hhead', hbody'⟩, hstatus'⟩ := h'
  obtain rfl : split = split' := Option.some.inj (hsplit.symm.trans hsplit')
  obtain rfl : head = head' := Option.some.inj (hhead.symm.trans hhead')
  exact ⟨rfl, Option.some.inj (hstatus.symm.trans hstatus'),
    Except.ok.inj (hbody.symm.trans hbody')⟩

end Client

/-- The reports are true exactly for the answers that are honest themselves: the client reads the
status of an answer, and drops it. -/
theorem reports_truthful_iff (fromStr : String → Except String Value) (raw : List UInt8) :
    Truthful fromStr raw ↔ Honest fromStr raw := by
  constructor
  · intro h
    -- what can be read is reported, and the report is true of these parts and no others
    refine ⟨fun head status body hreads => ?_, fun head status body state b hreads hdoc hb => ?_⟩
    · obtain ⟨head', status', body', code, hreads', hwell, hcode⟩ :=
        h.restart _ _ (restart_of_reads hreads) answeredWith_answered
      obtain ⟨rfl, -, -⟩ := hreads.unique hreads'
      exact ⟨code, hwell, hcode⟩
    · obtain ⟨head', body', state', hreads', -, -⟩ :=
        h.running _ _ _ (isRunning_of_reads hreads hdoc hb) answeredWith_answered
      exact (hreads.unique hreads').2.1
  · intro h
    have hsuccess : ∀ answer, parseResponse raw = .ok answer → ReportsSuccess raw := by
      intro answer hparse
      obtain ⟨head, status, body, hreads, -⟩ := parseResponse_eq_ok.mp hparse
      obtain ⟨code, hwell, hcode⟩ := h.success head status body hreads
      exact ⟨head, status, body, code, hreads, hwell, hcode⟩
    refine ⟨fun id t hrun hraw => ?_, fun guardrails action t evidence hrun hraw => ?_,
      fun id t b hrun hraw => ?_⟩
    · obtain ⟨answer, hparse⟩ := restart_ok hrun hraw
      exact hsuccess answer hparse
    · obtain ⟨answer, hparse⟩ := step_ok hrun hraw
      exact hsuccess answer hparse
    · obtain ⟨head, status, body, state, hreads, hdoc, hb⟩ := isRunning_ok hrun hraw
      have h200 := h.status head status body state b hreads hdoc hb
      exact ⟨head, body, state, h200 ▸ hreads, hdoc, hb⟩

/-- An answer without a body, and with a status that is no success. -/
def notFound : List UInt8 := Utf8.ascii "HTTP/1.1 404 Not Found\r\n\r\n".toList

/-- A restart that the daemon refuses is reported as done. -/
theorem not_truthful : ¬ Truthful (fun _ => .error "EOF while parsing a value") notFound := by
  intro h
  have hreads : Reads notFound "HTTP/1.1 404 Not Found".toList "404".toList [] :=
    ⟨⟨22, by decide, by decide, by rw [if_neg (by decide)]; rfl⟩, by decide⟩
  obtain ⟨head, status, body, code, hreads', ⟨line, fields, hlines, hline, -⟩, hcode⟩ :=
    h.restart _ _ (restart_of_reads hreads) answeredWith_answered
  obtain ⟨rfl, -, -⟩ := hreads.unique hreads'
  obtain ⟨major, minor, reason, hsplit, -, -, hlength, -⟩ := hline
  have hfirst : line = "HTTP/1.1 404 Not Found".toList := (List.cons.inj hlines).1.symm
  rw [hfirst] at hsplit
  obtain ⟨a, b, c, rfl⟩ := List.length_eq_three.mp hlength
  obtain rfl : a = '2' := Option.some.inj hcode
  -- the code begins behind nine characters
  have hninth : some '4' = some '2' := congrArg (fun text : List Char => text[9]?) hsplit
  cases hninth

end Argus
