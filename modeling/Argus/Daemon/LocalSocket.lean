import Argus.Daemon.Handler

/-!
# The local socket

The connections of the daemon, with `handle` for a handler, over every byte stream a peer may send,
however it ends, and every answer the daemon may give. Each line that could be read is answered by
one line, in order, under its own correlation id (`every_line_answered`), and what a connection
makes the daemon do is what its lines name, in the name of an authorized peer
(`asks_what_is_named`). The kill switch follows the requests that set it
(`switch_follows_requests`), and a client's calls return the answers to their own requests
(`calls_return_answers`).
-/

namespace Argus.Ipc

open Interaction
open Prog hiding request

variable {texts : Texts} {config : HandlerConfig} {principal : Principal} {line : List UInt8}
  {incoming : Incoming} {t : List (Event (ConnReply DaemonPort.Reply))}
  {result : Except IoError Unit} {turn : Turn DaemonPort.Reply}

/-- The connection of a peer, over what it sends. -/
abbrev connection (texts : Texts) (config : HandlerConfig) (principal : Principal)
    (incoming : Incoming) : Prog (ConnReply DaemonPort.Reply) (Except IoError Unit) :=
  handleConnection texts (handle texts config) principal incoming.ending incoming.lines

/-- What the text of a line decodes to, when it has one. -/
def decoded (texts : Texts) (line : List UInt8) : Option (Except DecodeError Request) :=
  (Utf8.fromUtf8 line).map fun text => decodeRequest texts (String.ofList text)

theorem Answers.decoded {handler : Request → Principal → DaemonM Response}
    (h : Answers texts handler principal line turn) :
    (∃ request, decoded texts line = some (.ok request) ∧
      Runs (handler request principal) turn.events turn.answer) ∨
    ∃ error, decoded texts line = some (.error error) ∧ turn.events = [] ∧
      turn.answer = refusal error := by
  obtain ⟨text, htext, hruns⟩ := h.runs
  unfold respond at hruns
  unfold Ipc.decoded
  rw [htext, Option.map_some]
  cases hdecode : decodeRequest texts (String.ofList text) with
  | ok request =>
      rw [hdecode] at hruns
      exact .inl ⟨request, rfl, hruns⟩
  | error error =>
      rw [hdecode] at hruns
      obtain ⟨hevents, hanswer⟩ := hruns
      exact .inr ⟨error, rfl, hevents, hanswer.symm⟩

/-! ### One exchange

The peer `uid 1000` turns privileged execution off. -/

def exchangeId : String := "00000000-0000-0000-0000-000000000001"

def requestText : String :=
  "\x7b\"protocol_version\":\"0.8.0\",\"correlation_id\":" ++
    "\"00000000-0000-0000-0000-000000000001\"," ++
    "\"operation\":\"cloud.set-privileged-execution\",\"payload\":\x7b\"enabled\":false\x7d\x7d"

def requestFields : List (String × Value) :=
  [("protocol_version", .string "0.8.0"), ("correlation_id", .string exchangeId),
    ("operation", .string "cloud.set-privileged-execution"),
    ("payload", .object [("enabled", .bool false)])]

def responseText : String :=
  "\x7b\"protocol_version\":\"0.8.0\",\"correlation_id\":" ++
    "\"00000000-0000-0000-0000-000000000001\",\"ok\":true," ++
    "\"result\":\x7b\"privileged_execution_enabled\":false\x7d\x7d"

def responseFields : List (String × Value) :=
  [("protocol_version", .string "0.8.0"), ("correlation_id", .string exchangeId),
    ("ok", .bool true), ("result", .object [("privileged_execution_enabled", .bool false)])]

/-- The libraries' texts of the exchange. -/
@[irreducible] def exchangeTexts : Texts where
  writeJson v := if v = .object requestFields then requestText else responseText
  readJson line :=
    if line = requestText ++ "\n" then some (.object requestFields)
    else if line = responseText ++ "\n" then some (.object responseFields)
    else none
  writeUuid _ := exchangeId
  readUuid text := if text = exchangeId then some 1 else none

def switchOff : Request :=
  .new .cloudSetPrivilegedExecution 1 (.object [("enabled", .bool false)])

def switchedOff : Response :=
  .ok_ 1 (.object [("privileged_execution_enabled", .bool false)])

theorem switchOff_carried : ∀ request ∈ [switchOff], request.Carried exchangeTexts := by
  intro request hrequest
  obtain rfl := List.mem_singleton.mp hrequest
  have hfields : switchOff.fields exchangeTexts = requestFields := by decide +kernel
  have htext : exchangeTexts.writeJson (.object requestFields) = requestText := by
    simp [exchangeTexts]
  refine ⟨rfl, ?_⟩
  rw [hfields]
  refine ⟨?_, ?_, requestFields, ?_, fun _ => rfl⟩
  · rw [htext]
    decide +kernel
  · simp [Texts.ReadsUuid, exchangeTexts, switchOff, Request.new]
  · simp [exchangeTexts]

def switchTurn : Turn DaemonPort.Reply :=
  ⟨[⟨.setPrivilegedExecution false, ()⟩], switchedOff, .ok ()⟩

/-- The peer sends the exchange's request. -/
abbrev switchStream : Incoming := .ofRequests exchangeTexts [switchOff]

theorem switchOff_runs : Runs (handle exchangeTexts ⟨none, none⟩ switchOff
    ⟨some 1000, some 1000⟩) switchTurn.events switchTurn.answer := ⟨(), [], ⟨rfl, rfl⟩, rfl⟩

theorem switch_runs : Runs (connection exchangeTexts ⟨none, none⟩ ⟨some 1000, some 1000⟩
    switchStream) (switchTurn.trace exchangeTexts) (.ok ()) := by
  have hserved : Served exchangeTexts (handle exchangeTexts ⟨none, none⟩)
      ⟨some 1000, some 1000⟩ (.ok ()) switchStream.lines [switchTurn] (.ok ()) :=
    served_requests switchOff_carried (.cons ⟨switchOff_runs, rfl⟩ .nil)
  exact runs_handleConnection.mpr ⟨[switchTurn], hserved, (List.flatMap_singleton _ _).symm⟩

/-! ### One answer for each line -/

/-- What is asked over a connection is asked by its turns. -/
theorem Served.mem_asked {handler : Request → Principal → DaemonM Response}
    {lines : List (List UInt8)} {turns : List (Turn DaemonPort.Reply)}
    {ending : Except IoError Unit} (h : Served texts handler principal ending lines turns result)
    {e : Event DaemonPort.Reply}
    (he : e ∈ asked (turns.flatMap (Turn.trace texts))) :
    ∃ line ∈ lines, ∃ turn, Answers texts handler principal line turn ∧ e ∈ turn.events := by
  rw [asked_turns] at he
  obtain ⟨turn, hturn, he⟩ := List.mem_flatMap.mp he
  have hlength : (lines.take turns.length).length = turns.length := by
    simpa using h.length_le
  obtain ⟨line, hmem⟩ := Pointwise.exists_mem_zip_right hturn hlength
  exact ⟨line, List.mem_of_mem_take (List.of_mem_zip hmem).1, turn,
    (List.forall₂_iff_zip.mp h.answers).2 hmem, he⟩

theorem Operation.asStr_injective {a b : Operation} (h : a.asStr = b.asStr) : a = b :=
  Option.some.inj ((fromStr_asStr a).symm.trans ((congrArg fromStr h).trans (fromStr_asStr b)))

/-- A request names one operation. -/
theorem Names.unique {request : Request} {a b : Operation} (ha : Names request a)
    (hb : Names request b) : a = b := Operation.asStr_injective (ha.symm.trans hb)

/-- The three ways a request is handled. -/
theorem handle_cases {request : Request} :
    (authorized config principal = false ∧ handle texts config request principal =
      pure (.err request.correlationId .unauthorized "peer not authorized")) ∨
    (authorized config principal = true ∧ Operation.fromStr request.operation = none ∧
      handle texts config request principal = pure (.err request.correlationId .unknownOperation
        s!"unknown operation '{request.operation}'")) ∨
    ∃ operation, authorized config principal = true ∧ Names request operation ∧
      handle texts config request principal =
        dispatch texts config principal request operation := by
  unfold handle
  cases hauthorized : authorized config principal with
  | false => exact .inl ⟨rfl, rfl⟩
  | true =>
      right
      cases hoperation : Operation.fromStr request.operation with
      | none => exact .inl ⟨rfl, rfl, rfl⟩
      | some operation =>
          exact .inr ⟨operation, rfl, Operation.fromStr_eq_some_iff.mp hoperation, rfl⟩

theorem handle_asks {request : Request} {events : List (Event DaemonPort.Reply)}
    {answer : Response} (h : Runs (handle texts config request principal) events answer) :
    ∀ e ∈ events, authorized config principal = true ∧
      e.op.AskedBy texts config principal request := by
  have hcases := @handle_cases texts config principal request
  rcases hcases with ⟨-, heq⟩ | ⟨-, -, heq⟩ | ⟨operation, hauthorized, hnames, heq⟩
  all_goals rw [heq] at h
  · obtain ⟨rfl, -⟩ := h
    simp
  · obtain ⟨rfl, -⟩ := h
    simp
  · exact fun e he => ⟨hauthorized, ((dispatch_proper hnames).of_runs h).1 e he⟩

/-- The last thing asked was the grant that released the plan. -/
def JustGranted (pending : PendingPlan) (asked : List (Event DaemonPort.Reply)) : Prop :=
  ∃ token by_, asked.getLast? = some ⟨.grantApproval token by_, .ok pending⟩

/-- The plan is resumed right after the grant that released it. -/
def ResumesGranted (pending : PendingPlan) (t : List (Event DaemonPort.Reply)) : Prop :=
  Guarded (fun e => e.op = .resumeRemediation pending) (JustGranted pending) t

theorem ResumesGranted.flatMap {pending : PendingPlan} {turns : List (Turn DaemonPort.Reply)}
    (h : ∀ turn ∈ turns, ResumesGranted pending turn.events) :
    ResumesGranted pending (turns.flatMap Turn.events) := by
  induction turns with
  | nil => exact Guarded.of_forall_not (by simp)
  | cons turn turns ih =>
      obtain ⟨hturn, hturns⟩ := List.forall_mem_cons.mp h
      rw [List.flatMap_cons]
      refine Guarded.append hturn ?_
      intro pre e post heq he
      obtain ⟨token, by_, hlast⟩ := ih hturns pre e post heq he
      refine ⟨token, by_, ?_⟩
      rw [List.getLast?_append, hlast]
      rfl

theorem approvalGrant_resumes {request : Request} {pending : PendingPlan}
    {events : List (Event DaemonPort.Reply)} {answer : Response}
    (h : Runs (approvalGrant texts principal request) events answer) :
    ResumesGranted pending events := by
  unfold approvalGrant at h
  split at h
  · obtain ⟨rfl, -⟩ := h
    exact Guarded.of_forall_not (by simp)
  · obtain ⟨granted, rest, h, rfl⟩ := h
    cases granted with
    | error error =>
        obtain ⟨rfl, -⟩ := h
        exact Guarded.of_forall_not (by simp)
    | ok released =>
        obtain ⟨outcome, last, h, rfl⟩ := h
        obtain ⟨rfl, -⟩ := h
        intro pre e post heq he
        -- the resume is the second of the two events
        rcases pre with _ | ⟨first, _ | ⟨second, pre⟩⟩
        · obtain ⟨rfl, -⟩ := List.cons.inj heq
          cases he
        · obtain ⟨rfl, hrest⟩ := List.cons.inj heq
          obtain ⟨rfl, -⟩ := List.cons.inj hrest
          cases he
          exact ⟨_, _, rfl⟩
        · simp at heq

theorem handle_resumes {request : Request} {pending : PendingPlan}
    {events : List (Event DaemonPort.Reply)} {answer : Response}
    (h : Runs (handle texts config request principal) events answer) :
    ResumesGranted pending events := by
  have hcases := @handle_cases texts config principal request
  rcases hcases with ⟨-, heq⟩ | ⟨-, -, heq⟩ | ⟨operation, -, hnames, heq⟩
  all_goals rw [heq] at h
  · obtain ⟨rfl, -⟩ := h
    exact Guarded.of_forall_not (by simp)
  · obtain ⟨rfl, -⟩ := h
    exact Guarded.of_forall_not (by simp)
  · by_cases hgrant : operation = .approvalGrant
    · subst hgrant
      exact approvalGrant_resumes h
    · refine Guarded.of_forall_not fun e he hop => ?_
      have hasked := ((dispatch_proper hnames).of_runs h).1 e he
      rw [hop] at hasked
      exact hgrant (hnames.unique hasked)

/-- A connection makes the daemon do what its lines name, with their arguments and in the name of
its peer, and nothing when the peer is not authorized. A plan is resumed right after the grant that
released it. -/
theorem asks_what_is_named (hrun : Runs (connection texts config principal incoming) t result) :
    (∀ e ∈ asked t, authorized config principal = true ∧
      ∃ line ∈ incoming.lines, ∃ request,
        decoded texts line = some (.ok request) ∧
          e.op.AskedBy texts config principal request) ∧
    ∀ pending, ResumesGranted pending (asked t) := by
  obtain ⟨turns, hserved, rfl⟩ := runs_handleConnection.mp hrun
  constructor
  · intro e he
    obtain ⟨line, hline, turn, hanswers, he⟩ := hserved.mem_asked he
    rcases hanswers.decoded with ⟨request, hdecoded, hruns⟩ | ⟨error, -, hevents, -⟩
    · obtain ⟨hauthorized, hasked⟩ := handle_asks hruns e he
      exact ⟨hauthorized, line, hline, request, hdecoded, hasked⟩
    · rw [hevents] at he
      cases he
  · intro pending
    rw [asked_turns]
    refine ResumesGranted.flatMap fun turn hturn => ?_
    have hlength : (incoming.lines.take turns.length).length =
        turns.length := by
      simpa using hserved.length_le
    obtain ⟨line, hmem⟩ := Pointwise.exists_mem_zip_right hturn hlength
    have hanswers := (List.forall₂_iff_zip.mp hserved.answers).2 hmem
    rcases hanswers.decoded with ⟨request, -, hruns⟩ | ⟨error, -, hevents, -⟩
    · exact handle_resumes hruns
    · rw [hevents]
      exact Guarded.of_forall_not (by simp)

theorem asks_what_is_named_switch :
    (∀ e ∈ asked (switchTurn.trace exchangeTexts),
      authorized ⟨none, none⟩ ⟨some 1000, some 1000⟩ = true ∧
      ∃ line ∈ switchStream.lines, ∃ request,
        decoded exchangeTexts line = some (.ok request) ∧
          e.op.AskedBy exchangeTexts ⟨none, none⟩ ⟨some 1000, some 1000⟩ request) ∧
    ∀ pending, ResumesGranted pending (asked (switchTurn.trace exchangeTexts)) :=
  asks_what_is_named switch_runs

/-! ### The kill switch -/

/-- The position the switch is set to. -/
def switched? : Event DaemonPort.Reply → Option Bool
  | ⟨.setPrivilegedExecution enabled, _⟩ => some enabled
  | _ => none

/-- The position a request asks for, when it is the switch's. -/
def Request.switch (request : Request) : Option Bool :=
  if request.operation = Operation.cloudSetPrivilegedExecution.asStr then
    (request.payload.get "enabled").bind asBool
  else none

/-- The position an authorized peer's line asks for. -/
def requestedSwitch (texts : Texts) (config : HandlerConfig) (principal : Principal)
    (line : List UInt8) : Option Bool :=
  match decoded texts line with
  | some (.ok request) => if authorized config principal then request.switch else none
  | _ => none

theorem switched?_eq_some {e : Event DaemonPort.Reply} {enabled : Bool}
    (h : switched? e = some enabled) : e.op = .setPrivilegedExecution enabled := by
  unfold switched? at h
  split at h
  · cases h
    rfl
  · cases h

theorem handle_switches {request : Request} {events : List (Event DaemonPort.Reply)}
    {answer : Response} (h : Runs (handle texts config request principal) events answer) :
    events.filterMap switched? =
      (if authorized config principal then request.switch else none).toList := by
  have hcases := @handle_cases texts config principal request
  rcases hcases with ⟨hunauthorized, heq⟩ | ⟨-, hunknown, heq⟩ |
    ⟨operation, hauthorized, hnames, heq⟩
  all_goals rw [heq] at h
  · obtain ⟨rfl, -⟩ := h
    rw [hunauthorized]
    rfl
  · obtain ⟨rfl, -⟩ := h
    have hother : request.operation ≠ Operation.cloudSetPrivilegedExecution.asStr := by
      intro hswitch
      rw [hswitch, Operation.fromStr_asStr] at hunknown
      cases hunknown
    simp [Request.switch, hother]
  · rw [if_pos hauthorized]
    by_cases hswitch : operation = .cloudSetPrivilegedExecution
    · subst hswitch
      have hnamed : request.operation = Operation.cloudSetPrivilegedExecution.asStr := hnames
      rw [Request.switch, if_pos hnamed]
      change Runs (setPrivilegedExecution request) events answer at h
      unfold setPrivilegedExecution at h
      cases henabled : (request.payload.get "enabled").bind asBool with
      | none =>
          rw [henabled] at h
          obtain ⟨rfl, -⟩ := h
          rfl
      | some enabled =>
          rw [henabled] at h
          obtain ⟨_, rest, ⟨rfl, -⟩, rfl⟩ := h
          rfl
    · have hother : request.operation ≠ Operation.cloudSetPrivilegedExecution.asStr :=
        fun hnamed => hswitch (hnames.unique hnamed)
      rw [Request.switch, if_neg hother]
      refine List.filterMap_eq_nil_iff.mpr fun e he => ?_
      refine Option.eq_none_iff_forall_ne_some.mpr fun enabled hset => ?_
      have hasked := ((dispatch_proper hnames).of_runs h).1 e he
      rw [switched?_eq_some hset] at hasked
      exact hswitch (hnames.unique hasked.1)

theorem Answers.switches (h : Answers texts (handle texts config) principal line turn) :
    turn.events.filterMap switched? = (requestedSwitch texts config principal line).toList := by
  unfold requestedSwitch
  rcases h.decoded with ⟨request, hdecoded, hruns⟩ | ⟨error, hdecoded, hevents, -⟩
  · rw [hdecoded]
    exact handle_switches hruns
  · rw [hdecoded, hevents]
    rfl

/-- The positions a connection puts the kill switch to are those its answered lines ask for, in
their order, and no others. -/
theorem switch_follows_requests
    (hrun : Runs (connection texts config principal incoming) t result) :
    (asked t).filterMap switched? =
      (incoming.lines.take (written t).length).filterMap
        (requestedSwitch texts config principal) := by
  obtain ⟨turns, hserved, rfl⟩ := runs_handleConnection.mp hrun
  rw [asked_turns, written_turns, List.length_map]
  have hanswers := hserved.answers
  generalize incoming.lines.take turns.length = lines at hanswers
  clear hrun hserved
  induction hanswers with
  | nil => rfl
  | @cons line turn lines turns hturn _ ih =>
      rw [List.flatMap_cons, List.filterMap_append, hturn.switches, ih]
      cases hline : requestedSwitch texts config principal line with
      | none => rw [List.filterMap_cons_none hline]; rfl
      | some enabled => rw [List.filterMap_cons_some hline]; rfl

theorem switch_follows_requests_switch :
    (asked (switchTurn.trace exchangeTexts)).filterMap switched? =
      (switchStream.lines.take
        (written (switchTurn.trace exchangeTexts)).length).filterMap
        (requestedSwitch exchangeTexts ⟨none, none⟩ ⟨some 1000, some 1000⟩) :=
  switch_follows_requests switch_runs

/-! ### Calls -/

/-- Requests that were sent one behind the other over a connection that took them all: the handler
was given each, and each call returns what it answered, under the call's correlation id, wherever
the libraries carry the answers over. -/
theorem calls_return_answers {requests : List Request}
    (hrequests : ∀ request ∈ requests, request.Carried texts)
    (hrun : Runs (connection texts config principal (.ofRequests texts requests)) t (.ok ())) :
    ∃ answers : List Response,
      List.Forall₂ (fun request answer => Answering request.correlationId answer ∧
        ∃ events, Runs (handle texts config request principal) events answer)
        requests answers ∧
      ((∀ answer ∈ answers, answer.Carried texts) →
        Client.replies texts requests.length (written t).flatten =
          answers.map fun answer => .ok answer.received) := by
  obtain ⟨turns, hserved, rfl⟩ := runs_handleConnection.mp hrun
  have hturns := hserved.requests hrequests
  refine ⟨turns.map Turn.answer, ?_, ?_⟩
  · rw [List.forall₂_map_right_iff]
    exact hturns.imp fun request turn hruns =>
      ⟨(handle_proper.of_runs hruns).2, turn.events, hruns⟩
  · intro hcarried
    have hreplies := Client.replies_frames hcarried
    rw [List.length_map, ← hturns.length_eq, List.flatMap_map] at hreplies
    rw [written_turns, ← List.flatMap_def]
    exact hreplies

theorem calls_return_answers_switch :
    ∃ answers : List Response,
      List.Forall₂ (fun request answer => Answering request.correlationId answer ∧
        ∃ events, Runs (handle exchangeTexts ⟨none, none⟩ request ⟨some 1000, some 1000⟩)
          events answer) [switchOff] answers ∧
      ((∀ answer ∈ answers, answer.Carried exchangeTexts) →
        Client.replies exchangeTexts [switchOff].length
            (written (switchTurn.trace exchangeTexts)).flatten =
          answers.map fun answer => .ok answer.received) :=
  calls_return_answers switchOff_carried switch_runs

end Argus.Ipc
