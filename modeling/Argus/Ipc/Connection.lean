import Argus.Ipc.Protocol
import Argus.Lib.Framing
import Argus.Lib.Interaction
import Argus.Lib.Pointwise
import Argus.Lib.Utf8

/-!
# A connection

The server reads a line, has the handler answer it if it is a request, writes the answer, and reads
the next one. The handler is any program over the daemon's ports: a connection asks them through it
and not otherwise.

`Served` takes a run apart into its turns, one for each line that was answered
(`runs_handleConnection`); whatever every turn does, a whole connection does. A line that is no
text, and a read or a write that fails, end the connection.

On the other side, `Client.replies` is what one call after another returns. Requests that were
written one behind the other come back as the handler's answers, each to its own call
(`Served.requests`, `Client.replies_frames`).
-/

namespace Argus.Ipc

open Interaction
open Prog hiding request

/-- The newline that closes a frame. -/
def newline : UInt8 := 10

/-- Why a connection ends before its stream does. -/
inductive IoError
  /-- The line is not valid UTF-8, or the document does not fit. -/
  | invalidData
  | unexpectedEof
  | hungUp
  deriving DecidableEq

variable {Op : Type} {Reply : Op → Type}

/-- What a connection asks: what its handler asks, and that bytes be written. -/
abbrev ConnReply (Reply : Op → Type) : Op ⊕ List UInt8 → Type :=
  Sum.elim Reply fun _ => Except IoError Unit

/-- What a peer sends: its bytes, and how their stream ends, in order or with a read that fails. -/
structure Incoming where
  bytes : List UInt8
  ending : Except IoError Unit

/-- The lines that are read. One that a failing read cuts off is lost. -/
def Incoming.lines (incoming : Incoming) : List (List UInt8) :=
  match incoming.ending with
  | .ok () => Framing.frames newline incoming.bytes
  | .error _ => (Framing.frames newline incoming.bytes).filter fun line =>
      line.getLast? = some newline

/-- The bytes of a frame. -/
def frameBytes (line : String) : List UInt8 := Framing.close newline (Utf8.encode line.toList)

variable (texts : Texts) (handler : Request → Principal → Prog Reply Response)
  (principal : Principal)

/-- The answer to a frame that is no request. -/
def refusal : DecodeError → Response
  | .malformed => .err 0 .malformed "invalid JSON frame"
  | .unsupportedVersion correlationId =>
      .err correlationId .unsupportedVersion "unsupported protocol version"

/-- The answer to one line. -/
def respond (line : String) : Prog Reply Response :=
  match decodeRequest texts line with
  | .ok request => handler request principal
  | .error error => pure (refusal error)

/-- Writes and flushes bytes. -/
def write (bytes : List UInt8) : Prog (ConnReply Reply) (Except IoError Unit) :=
  Prog.request (.inr bytes) Prog.ret

theorem runs_write_bind {α : Type} {bytes : List UInt8} {b : α}
    {f : Except IoError Unit → Prog (ConnReply Reply) α} {t : List (Event (ConnReply Reply))} :
    Runs (write bytes >>= f) t b ↔
      ∃ sent t', Runs (f sent) t' b ∧ t = ⟨.inr bytes, sent⟩ :: t' := Iff.rfl

variable (ending : Except IoError Unit)

/-- The loop of a connection, over the lines it reads and what comes behind them. -/
def handleConnection : List (List UInt8) → Prog (ConnReply Reply) (Except IoError Unit)
  | [] => pure ending
  | line :: lines =>
      match Utf8.fromUtf8 line with
      | none => pure (.error .invalidData)
      | some text => do
          let response ← (respond texts handler principal (String.ofList text)).left _
          match ← write (frameBytes (response.line texts)) with
          | .error error => pure (.error error)
          | .ok () => handleConnection lines

/-! ### Turns -/

/-- One line answered: what the handler asked for it, the answer, and what became of the write. -/
structure Turn (Reply : Op → Type) where
  events : List (Event Reply)
  answer : Response
  sent : Except IoError Unit

/-- What a turn contributes to the trace. -/
def Turn.trace (turn : Turn Reply) : List (Event (ConnReply Reply)) :=
  turn.events.map (Event.left _) ++ [⟨.inr (frameBytes (turn.answer.line texts)), turn.sent⟩]

/-- The turn is the answer to the line. -/
structure Answers (line : List UInt8) (turn : Turn Reply) : Prop where
  runs : ∃ text, Utf8.fromUtf8 line = some text ∧
    Runs (respond texts handler principal (String.ofList text)) turn.events turn.answer

/-- The turns of a connection, and how it ends. -/
inductive Served : List (List UInt8) → List (Turn Reply) → Except IoError Unit → Prop
  | ended : Served [] [] ending
  | unreadable {line lines} : Utf8.fromUtf8 line = none →
      Served (line :: lines) [] (.error .invalidData)
  | hungUp {line lines turn error} : Answers texts handler principal line turn →
      turn.sent = .error error → Served (line :: lines) [turn] (.error error)
  | turn {line lines turn turns result} : Answers texts handler principal line turn →
      turn.sent = .ok () → Served lines turns result →
      Served (line :: lines) (turn :: turns) result

variable {texts handler principal ending} {lines : List (List UInt8)} {turns : List (Turn Reply)}
  {turn : Turn Reply} {t : List (Event (ConnReply Reply))} {result : Except IoError Unit}

/-- What a connection goes on with once its answer was sent, or was not. -/
def afterWrite (texts : Texts) (handler : Request → Principal → Prog Reply Response)
    (principal : Principal) (ending : Except IoError Unit) (lines : List (List UInt8)) :
    Except IoError Unit → Prog (ConnReply Reply) (Except IoError Unit)
  | .error error => pure (.error error)
  | .ok () => handleConnection texts handler principal ending lines

theorem runs_handleConnection_cons {line : List UInt8} {text : List Char}
    (hline : Utf8.fromUtf8 line = some text) :
    Runs (handleConnection texts handler principal ending (line :: lines)) t result ↔
      ∃ turn t', Answers texts handler principal line turn ∧
        Runs (afterWrite texts handler principal ending lines turn.sent) t' result ∧
        t = turn.trace texts ++ t' := by
  have hprog : handleConnection texts handler principal ending (line :: lines) =
      (respond texts handler principal (String.ofList text)).left _ >>= fun response =>
        write (frameBytes (response.line texts)) >>=
          afterWrite texts handler principal ending lines := by
    rw [handleConnection, hline]
    rfl
  rw [hprog, runs_bind]
  constructor
  · intro h
    obtain ⟨t₁, answer, t₂, hanswer, hrest, rfl⟩ := h
    obtain ⟨events, hruns, rfl⟩ := runs_left.mp hanswer
    obtain ⟨sent, t', hafter, rfl⟩ := runs_write_bind.mp hrest
    exact ⟨⟨events, answer, sent⟩, t', ⟨text, hline, hruns⟩, hafter, by simp [Turn.trace]⟩
  · intro h
    obtain ⟨turn, t', ⟨text', hline', hruns⟩, hrest, rfl⟩ := h
    obtain rfl : text = text' := Option.some.inj (hline.symm.trans hline')
    exact ⟨_, turn.answer, ⟨.inr (frameBytes (turn.answer.line texts)), turn.sent⟩ :: t',
      runs_left.mpr ⟨_, hruns, rfl⟩, runs_write_bind.mpr ⟨turn.sent, t', hrest, rfl⟩,
      by simp [Turn.trace]⟩

/-- A run of a connection is a sequence of turns. -/
theorem served_of_runs (h : Runs (handleConnection texts handler principal ending lines) t result) :
    ∃ turns, Served texts handler principal ending lines turns result ∧
      t = turns.flatMap (Turn.trace texts) := by
  induction lines generalizing t with
  | nil =>
      obtain ⟨rfl, rfl⟩ := h
      exact ⟨[], .ended, rfl⟩
  | cons line lines ih =>
      cases hline : Utf8.fromUtf8 line with
      | none =>
          rw [handleConnection, hline] at h
          obtain ⟨rfl, rfl⟩ := h
          exact ⟨[], .unreadable hline, rfl⟩
      | some text =>
          obtain ⟨turn, t', hanswers, hrest, rfl⟩ := (runs_handleConnection_cons hline).mp h
          cases hsent : turn.sent with
          | error error =>
              rw [hsent] at hrest
              obtain ⟨rfl, rfl⟩ := hrest
              exact ⟨[turn], .hungUp hanswers hsent, by simp⟩
          | ok _ =>
              rw [hsent] at hrest
              obtain ⟨turns, hserved, rfl⟩ := ih hrest
              exact ⟨turn :: turns, .turn hanswers hsent hserved, rfl⟩

/-- A sequence of turns is a run of the connection. -/
theorem Served.runs (h : Served texts handler principal ending lines turns result) :
    Runs (handleConnection texts handler principal ending lines)
      (turns.flatMap (Turn.trace texts)) result := by
  induction h with
  | ended => exact ⟨rfl, rfl⟩
  | unreadable hline =>
      rw [handleConnection, hline]
      exact ⟨rfl, rfl⟩
  | @hungUp line lines turn error hanswers hsent =>
      obtain ⟨text, hline, -⟩ := hanswers.runs
      refine (runs_handleConnection_cons hline).mpr ⟨turn, [], hanswers, ?_, by simp⟩
      rw [hsent]
      exact ⟨rfl, rfl⟩
  | @turn line lines turn turns result hanswers hsent _ ih =>
      obtain ⟨text, hline, -⟩ := hanswers.runs
      refine (runs_handleConnection_cons hline).mpr ⟨turn, _, hanswers, ?_, rfl⟩
      rw [hsent]
      exact ih

theorem runs_handleConnection :
    Runs (handleConnection texts handler principal ending lines) t result ↔
      ∃ turns, Served texts handler principal ending lines turns result ∧
        t = turns.flatMap (Turn.trace texts) :=
  ⟨served_of_runs, fun ⟨_, hserved, htrace⟩ => htrace ▸ hserved.runs⟩

/-- What the handler asked over a connection. -/
def asked (t : List (Event (ConnReply Reply))) : List (Event Reply) := t.filterMap Event.left?

/-- What was written over a connection, the failing write included. -/
def written (t : List (Event (ConnReply Reply))) : List (List UInt8) :=
  (t.filterMap Event.right?).map Event.op

theorem asked_turns : asked (turns.flatMap (Turn.trace texts)) = turns.flatMap Turn.events := by
  induction turns with
  | nil => rfl
  | cons turn turns ih =>
      rw [List.flatMap_cons, List.flatMap_cons, asked, List.filterMap_append]
      have hturn : (Turn.trace texts turn).filterMap Event.left? = turn.events := by
        rw [Turn.trace, List.filterMap_append, Event.filterMap_left?_left]
        exact List.append_nil _
      rw [hturn]
      exact congrArg (turn.events ++ ·) ih

theorem written_turns : written (turns.flatMap (Turn.trace texts)) =
    turns.map fun turn => frameBytes (turn.answer.line texts) := by
  induction turns with
  | nil => rfl
  | cons turn turns ih =>
      rw [List.flatMap_cons, List.map_cons, written, List.filterMap_append, List.map_append]
      have hturn : ((Turn.trace texts turn).filterMap Event.right?).map Event.op =
          [frameBytes (turn.answer.line texts)] := by
        rw [Turn.trace, List.filterMap_append, Event.filterMap_right?_left]
        rfl
      rw [hturn]
      exact congrArg (_ :: ·) ih

namespace Served

theorem length_le (h : Served texts handler principal ending lines turns result) :
    turns.length ≤ lines.length := by
  induction h with
  | ended => exact Nat.le_refl _
  | unreadable => exact Nat.zero_le _
  | hungUp => exact Nat.succ_le_succ (Nat.zero_le _)
  | turn _ _ _ ih => exact Nat.succ_le_succ ih

/-- The lines are answered in their order. -/
theorem answers (h : Served texts handler principal ending lines turns result) :
    List.Forall₂ (Answers texts handler principal) (lines.take turns.length) turns := by
  induction h with
  | ended => exact .nil
  | unreadable => exact .nil
  | hungUp hanswers _ => exact .cons hanswers .nil
  | turn hanswers _ _ ih => exact .cons hanswers ih

/-- A connection that comes to the end of its stream answered every line. -/
theorem length_eq (h : Served texts handler principal ending lines turns (.ok ())) :
    ending = .ok () ∧ turns.length = lines.length := by
  generalize hresult : Except.ok () = result at h
  induction h with
  | ended => exact ⟨rfl, rfl⟩
  | unreadable => cases hresult
  | hungUp => cases hresult
  | turn _ _ _ ih => exact ⟨(ih hresult).1, congrArg Nat.succ (ih hresult).2⟩

/-- One that does not met a line that is no text, or a read or a write failed. -/
theorem error {error : IoError}
    (h : Served texts handler principal ending lines turns (.error error)) :
    (error = .invalidData ∧ ∃ line, lines[turns.length]? = some line ∧
      Utf8.fromUtf8 line = none) ∨
    (ending = .error error ∧ turns.length = lines.length) ∨
    ∃ turn, turns.getLast? = some turn ∧ turn.sent = .error error := by
  generalize hresult : Except.error error = result at h
  induction h with
  | ended => exact .inr (.inl ⟨rfl, rfl⟩)
  | @unreadable line _ hline =>
      cases hresult
      exact .inl ⟨rfl, line, rfl, hline⟩
  | hungUp _ hsent =>
      cases hresult
      exact .inr (.inr ⟨_, rfl, hsent⟩)
  | turn _ _ _ ih =>
      rcases ih hresult with ⟨herror, line, hget, hline⟩ | ⟨hending, hall⟩ | ⟨last, hlast, hsent⟩
      · exact .inl ⟨herror, line, by simpa using hget, hline⟩
      · exact .inr (.inl ⟨hending, congrArg Nat.succ hall⟩)
      · refine .inr (.inr ⟨last, ?_, hsent⟩)
        rw [List.getLast?_cons, hlast]
        rfl

end Served

/-! ### The client -/

/-- The libraries carry a frame over: one line, read back as it was written. -/
structure Texts.Carries (texts : Texts) (correlationId : Uuid) (fields : List (String × Value)) :
    Prop where
  oneLine : '\n' ∉ (texts.writeJson (.object fields)).toList
  readsUuid : texts.ReadsUuid correlationId
  readsBack : texts.ReadsBack fields

/-- A request of this implementation that the libraries carry over. -/
structure Request.Carried (texts : Texts) (request : Request) : Prop where
  version : request.protocolVersion = Ipc.protocolVersion
  texts : texts.Carries request.correlationId (request.fields texts)

/-- A response of this implementation that the libraries carry over. -/
structure Response.Carried (texts : Texts) (response : Response) : Prop where
  version : response.protocolVersion = Ipc.protocolVersion
  texts : texts.Carries response.correlationId (response.fields texts)

namespace Client

/-- What a call reads, and what it leaves for the next one. -/
def readReply (texts : Texts) (incoming : List UInt8) : Except IoError Response × List UInt8 :=
  let (line, rest) := Framing.readFrame newline incoming
  (match Utf8.fromUtf8 line with
    | none => .error .invalidData
    | some [] => .error .unexpectedEof
    | some text =>
        match Response.decode texts (String.ofList text) with
        | none => .error .invalidData
        | some response => .ok response,
    rest)

/-- What one call after another returns, of all that the connection brings. -/
def replies (texts : Texts) : Nat → List UInt8 → List (Except IoError Response)
  | 0, _ => []
  | calls + 1, incoming =>
      (readReply texts incoming).1 :: replies texts calls (readReply texts incoming).2

end Client

theorem newline_not_mem {line : String} (h : '\n' ∉ line.toList) :
    newline ∉ Utf8.encode line.toList := fun hmem =>
  h (Utf8.mem_of_mem_encode (by decide) hmem)

theorem frameBytes_eq {line : String} : frameBytes line = Utf8.encode (line ++ "\n").toList := by
  simp [frameBytes, Framing.close, Utf8.encode, newline, String.utf8EncodeChar]

theorem fromUtf8_frameBytes {line : String} :
    Utf8.fromUtf8 (frameBytes line) = some (line ++ "\n").toList := by
  rw [frameBytes_eq, Utf8.fromUtf8_encode]

theorem Client.readReply_frame {response : Response} {rest : List UInt8}
    (h : response.Carried texts) :
    readReply texts (frameBytes (response.line texts) ++ rest) =
      (.ok response.received, rest) := by
  have hread : Framing.readFrame newline (frameBytes (response.line texts) ++ rest) =
      (frameBytes (response.line texts), rest) :=
    Framing.readFrame_close (newline_not_mem h.texts.oneLine)
  have hdecode := Response.decode_written h.version h.texts.readsUuid h.texts.readsBack
  obtain ⟨c, text, hcons⟩ : ∃ c text, (response.line texts ++ "\n").toList = c :: text :=
    List.exists_cons_of_ne_nil (by simp)
  rw [readReply, hread]
  dsimp only
  rw [fromUtf8_frameBytes, hcons]
  dsimp only
  rw [← hcons, String.ofList_toList, hdecode]

theorem Client.replies_frames {responses : List Response}
    (h : ∀ response ∈ responses, response.Carried texts) :
    replies texts responses.length
        (responses.flatMap fun response => frameBytes (response.line texts)) =
      responses.map fun response => .ok response.received := by
  induction responses with
  | nil => rfl
  | cons response responses ih =>
      obtain ⟨hresponse, hresponses⟩ := List.forall_mem_cons.mp h
      rw [List.flatMap_cons, List.length_cons, replies, readReply_frame hresponse]
      exact congrArg (_ :: ·) (ih hresponses)

/-- The lines the server reads of requests written one behind the other. -/
theorem frames_requests {requests : List Request}
    (h : ∀ request ∈ requests, request.Carried texts) :
    Framing.frames newline (requests.flatMap fun request => frameBytes (request.line texts)) =
      requests.map fun request => frameBytes (request.line texts) := by
  have hlines : ∀ message ∈ requests.map fun request => Utf8.encode (request.line texts).toList,
      newline ∉ message := by
    intro message hmessage
    obtain ⟨request, hrequest, rfl⟩ := List.mem_map.mp hmessage
    exact newline_not_mem (h request hrequest).texts.oneLine
  have hframes := Framing.frames_flatMap hlines
  rw [List.flatMap_map, List.map_map] at hframes
  exact hframes

theorem answers_frame {request : Request} (h : request.Carried texts) :
    Answers texts handler principal (frameBytes (request.line texts)) turn ↔
      Runs (handler request principal) turn.events turn.answer := by
  have hdecode := decodeRequest_written h.version h.texts.readsUuid h.texts.readsBack
  have hrespond : respond texts handler principal
      (String.ofList (request.line texts ++ "\n").toList) = handler request principal := by
    rw [respond, String.ofList_toList, hdecode]
  constructor
  · intro hanswers
    obtain ⟨text, htext, hruns⟩ := hanswers.runs
    rw [fromUtf8_frameBytes] at htext
    obtain rfl := Option.some.inj htext
    rwa [hrespond] at hruns
  · intro hruns
    exact ⟨_, fromUtf8_frameBytes, by rwa [hrespond]⟩

/-- The peer sends the requests, and closes the stream. -/
def Incoming.ofRequests (texts : Texts) (requests : List Request) : Incoming :=
  ⟨requests.flatMap fun request => frameBytes (request.line texts), .ok ()⟩

theorem lines_ofRequests {requests : List Request}
    (h : ∀ request ∈ requests, request.Carried texts) :
    (Incoming.ofRequests texts requests).lines =
      requests.map fun request => frameBytes (request.line texts) := frames_requests h

/-- Over a connection that took all requests, each was given to the handler, in order. -/
theorem Served.requests {requests : List Request}
    (hrequests : ∀ request ∈ requests, request.Carried texts)
    (h : Served texts handler principal ending (Incoming.ofRequests texts requests).lines turns
      (.ok ())) :
    List.Forall₂ (fun request turn => Runs (handler request principal) turn.events turn.answer)
      requests turns := by
  rw [lines_ofRequests hrequests] at h
  have hlength : turns.length = requests.length := by simpa using h.length_eq.2
  have hserved := h.answers
  rw [List.take_of_length_le (by simp [hlength]), List.forall₂_map_left_iff] at hserved
  refine List.forall₂_iff_zip.mpr ⟨hlength.symm, fun {request turn} hmem => ?_⟩
  have hrequest := hrequests request (List.of_mem_zip hmem).1
  exact (answers_frame hrequest).mp ((List.forall₂_iff_zip.mp hserved).2 hmem)

/-- Requests that the handler answers, and whose answers are sent, are served to the end. -/
theorem served_requests {requests : List Request}
    (hrequests : ∀ request ∈ requests, request.Carried texts)
    (hturns : List.Forall₂ (fun request turn =>
      Runs (handler request principal) turn.events turn.answer ∧ turn.sent = .ok ())
      requests turns) :
    Served texts handler principal (.ok ()) (Incoming.ofRequests texts requests).lines turns
      (.ok ()) := by
  rw [lines_ofRequests hrequests]
  induction hturns with
  | nil => exact .ended
  | @cons request turn requests turns hturn _ ih =>
      obtain ⟨hrequest, hrest⟩ := List.forall_mem_cons.mp hrequests
      exact .turn ((answers_frame hrequest).mpr hturn.1) hturn.2 (ih hrest)

end Argus.Ipc
