import Spork.Ipc.Protocol
import Spork.Effects.Exchange

/-!
# The control socket

`core/ipc/server.py` and `core/ipc/client.py`: one connection for each request.

`_handle_client` waits for a line and then answers without being suspended, so answering is one step
of the event loop; the message loop and the signal handler move in between (`server`).  What the
socket is for is said by `service`: one command after another, on what the handlers read and set.

The checks on the socket's directory, its permissions and the client's timeout are left out.
-/

set_option autoImplicit false

namespace Spork

namespace Ipc

open Effects Exchange
open JsonWriter (Json)

/-! ## Reading a line -/

/-- The longest line `asyncio.StreamReader` takes. -/
def limit : Nat := 65536

/-- What stands before the first line feed. -/
def beforeLineFeed (bytes : List UInt8) : List UInt8 := bytes.takeWhile (· != lineFeed)

/-- `reader.readline()` comes back. -/
def Ready (buffer : List UInt8) (ended : Bool) : Prop :=
  lineFeed ∈ buffer ∨ ended = true ∨ limit < buffer.length

/-- What it comes back with: a line, or the message of a `ValueError`. -/
def readline (buffer : List UInt8) : Except String (List UInt8) :=
  if lineFeed ∈ buffer then
    if limit < (beforeLineFeed buffer).length then
      .error "Separator is found, but chunk is longer than limit"
    else .ok (beforeLineFeed buffer ++ [lineFeed])
  else if limit < buffer.length then .error "Separator is not found, and chunk exceed the limit"
  else .ok buffer

/-! ## Answering -/

/-- What a connection asks for. -/
inductive Asked where
  | malformed (reason : String)
  | request (r : IpcRequest)

/-- A number of rules that a computer can hold. -/
def Countable (rules : List Rule) : Prop := (Nat.toDigits 10 rules.length).length ≤ 4300

/-- `handlers.get(command)`.  What `load_rules` makes of the rules file is not known before. -/
inductive Finds : String → IpcRequest → Prop where
  | status : Finds "status" .status
  | pause : Finds "pause" .pause
  | resume : Finds "resume" .resume
  | reload {loaded : Except Exn (List Rule)} (h : ∀ rules, loaded = .ok rules → Countable rules) :
      Finds "reload" (.reload loaded)
  | unknown {command : String} (h : command ∉ ["status", "pause", "resume", "reload"]) :
      Finds command (.unknown command)

/-- `IpcRequest.model_validate_json(await reader.readline())`. -/
def understand (P : Pydantic) (buffer : List UInt8) : Except String Request :=
  match readline buffer with
  | .error message => .error message
  | .ok line =>
    match P.request line with
    | none => .error (P.explain line)
    | some r => .ok r

/-- What the bytes that have arrived ask for. -/
def Asks (P : Pydantic) (buffer : List UInt8) (q : Asked) : Prop :=
  match understand P buffer with
  | .error reason => q = .malformed reason
  | .ok r => ∃ request, q = .request request ∧ Finds r.command request

/-- `_handle_client` between the line and the answer. -/
def handle (s : SharedMemory) : Asked → IpcResponse × SharedMemory
  | .malformed reason => (.error ("invalid request: " ++ reason), s)
  | .request r => s.dispatch r

/-- The data of a response. -/
def data : IpcData → List (String × Json)
  | .status paused startedAt => [("paused", .bool paused), ("started_at", .string startedAt)]
  | .paused paused => [("paused", .bool paused)]
  | .ruleCount ruleCount => [("rule_count", .int ruleCount)]

/-- A response with all its fields. -/
def wire : IpcResponse → Response
  | .ok d => ⟨true, data d, none⟩
  | .error error => ⟨false, [], some error⟩

/-- The bytes of a response. -/
def reply (r : IpcResponse) : List UInt8 := encodeLine (wire r).json

/-- What is written is read again: the command of a request that is not nested too deep, and the
responses that the server gives. -/
structure Pydantic.ReadsBack (P : Pydantic) (maxDepth : Nat) : Prop where
  request : ∀ r : Request, r.json.Writable → depth r.json.toValue ≤ maxDepth →
    ∃ r', P.request (encodeLine r.json) = some r' ∧ r'.command = r.command
  response : ∀ r : IpcResponse, (wire r).json.Writable → P.response (reply r) = some (wire r)

/-! ## The service -/

/-- What the handlers read and set, the queue of events apart. -/
structure Control where
  paused : Bool
  startedAt : String
  rules : List Rule

/-- The part of the shared memory that counts. -/
def control (s : SharedMemory) : Control :=
  ⟨s.daemonState.paused, s.daemonState.startedAt, s.rules⟩

/-- One command after another. -/
def service : Exchange.Service Control Asked IpcResponse where
  serve k
    | .malformed reason => (.error ("invalid request: " ++ reason), k)
    | .request .status => (.ok (.status k.paused k.startedAt), k)
    | .request .pause => (.ok (.paused true), { k with paused := true })
    | .request .resume => (.ok (.paused false), { k with paused := false })
    | .request (.reload (.ok rules)) => (.ok (.ruleCount rules.length), { k with rules := rules })
    | .request (.reload (.error e)) => (.error e.message, k)
    | .request (.unknown command) => (.error ("unknown command: " ++ pyRepr command), k)

/-- The server among the other tasks, which leave alone what the handlers read and set. -/
def server (P : Pydantic) : Server SharedMemory UInt8 where
  ready := Ready
  answer s buffer _ bytes s' :=
    ∃ q, Asks P buffer q ∧ bytes = reply (handle s q).1 ∧ s' = (handle s q).2
  others s s' := control s' = control s

/-! ## The client -/

/-- `f.readline()` comes back. -/
def Returned (c : Conn UInt8) : Prop := lineFeed ∈ c.got ∨ c.closed = true

/-- How `send_request` fails. -/
inductive SendError where
  | connection
  | validation
  deriving DecidableEq, Repr

/-- `send_request`, once the line is read. -/
def sendRequest (P : Pydantic) (got : List UInt8) : Except SendError Response :=
  let line := if lineFeed ∈ got then beforeLineFeed got ++ [lineFeed] else got
  if line = [] then .error .connection
  else
    match P.response line with
    | none => .error .validation
    | some r => .ok r

/-! ## The handlers and the service -/

/-- **A handler does what the service says.** -/
theorem handle_eq (s : SharedMemory) (q : Asked) :
    (handle s q).1 = (service.serve (control s) q).1 ∧
      control (handle s q).2 = (service.serve (control s) q).2 := by
  cases q with
  | malformed reason => exact ⟨rfl, rfl⟩
  | request r =>
    cases r with
    | status | pause | resume | unknown => exact ⟨rfl, rfl⟩
    | reload loaded => cases loaded <;> exact ⟨rfl, rfl⟩

theorem serves (P : Pydantic) :
    Exchange.Serves (server P) service control (fun buffer _ => Asks P buffer) reply where
  answer := by
    rintro s buffer ended bytes s' ⟨q, hq, rfl, rfl⟩
    obtain ⟨hresponse, hcontrol⟩ := handle_eq s q
    exact ⟨q, hq, by rw [hresponse], hcontrol⟩
  others h := h

/-- A call of the message loop is one of the things that others may do. -/
theorem others_responds (P : Pydantic) {A : Allowed} {d d' : Daemon} {op : Op}
    {r : Except Exn op.Ret} (h : d.Responds A op r d') : (server P).others d.shared d'.shared := by
  show control d'.shared = control d.shared
  have hstarted : d'.shared.daemonState.startedAt = d.shared.daemonState.startedAt := by
    have hshared := h.shared
    cases op <;> first | rw [hshared] | rw [hshared.2]
  rw [control, control, h.paused, h.rules, hstarted]

/-! ## Lines -/

theorem beforeLineFeed_append {before : List UInt8} (h : lineFeed ∉ before) (rest : List UInt8) :
    beforeLineFeed (before ++ lineFeed :: rest) = before := by
  rw [beforeLineFeed, List.takeWhile_append_of_pos]
  · rw [List.takeWhile_cons_of_neg (by decide), List.append_nil]
  · intro b hb
    rw [bne_iff_ne]
    rintro rfl
    exact h hb

/-- A prefix that has got past the first line feed. -/
theorem prefix_eq {before buffer : List UInt8} (h : lineFeed ∉ before)
    (hbuf : buffer <+: before ++ [lineFeed]) (hmem : lineFeed ∈ buffer) :
    buffer = before ++ [lineFeed] := by
  rcases List.prefix_concat_iff.1 hbuf with he | hshort
  · exact he
  · exact absurd (hshort.subset hmem) h

/-- **A message that is not too long is read as it was sent**, in whatever pieces it arrives. -/
theorem readline_encodeLine {message : Json} (h : message.Writable)
    (hlen : (encodeLine message).length ≤ limit) {buffer : List UInt8} {ended : Bool}
    (hready : Ready buffer ended) (hbuf : buffer <+: encodeLine message)
    (hended : ended = true → buffer = encodeLine message) :
    readline buffer = .ok (encodeLine message) := by
  obtain ⟨before, hline, hbefore⟩ := encodeLine_eq h
  have hbuffer : buffer = encodeLine message := by
    rcases hready with hmem | hend | hlong
    · rw [hline] at hbuf ⊢
      exact prefix_eq hbefore hbuf hmem
    · exact hended hend
    · exact absurd (hbuf.length_le.trans hlen) (Nat.not_le.2 hlong)
  have htake : beforeLineFeed buffer = before := by
    rw [hbuffer, hline, beforeLineFeed_append hbefore]
  have hmem : lineFeed ∈ buffer := by
    rw [hbuffer, hline]
    exact List.mem_append_right _ (List.mem_singleton_self _)
  have hshort : before.length ≤ limit := by
    rw [hline, List.length_append] at hlen
    omega
  rw [readline, if_pos hmem, htake, if_neg (Nat.not_lt.2 hshort), ← hline]

theorem Finds.countable {command : String} {rules : List Rule}
    (h : Finds command (.reload (.ok rules))) : Countable rules := by
  cases h with
  | reload h => exact h rules rfl

theorem error_writable (error : String) : (wire (.error error)).json.Writable :=
  ⟨trivial, trivial, trivial, trivial⟩

theorem wire_depth (r : IpcResponse) : depth (wire r).json.toValue ≤ recursionLimit := by
  have htwo : depth (wire r).json.toValue = 2 := by
    cases r with
    | ok d => cases d <;> rfl
    | error error => rfl
  rw [htwo]
  decide

theorem readsBack_strictModels : strictModels.ReadsBack recursionLimit where
  request r h hdepth := by
    have hread := Request.ofLine_encodeLine h hdepth
    refine ⟨r, ?_, rfl⟩
    rw [strictModels_request]
    exact hread
  response r h := by
    have hread := Response.ofLine_encodeLine h (wire_depth r)
    rw [strictModels_response, reply]
    exact hread

/-- What the service answers can be written. -/
theorem wire_writable {P : Pydantic} {buffer : List UInt8} {q : Asked}
    (hq : Asks P buffer q) (k : Control) :
    (wire (service.serve k q).1).json.Writable := by
  cases q with
  | malformed reason => exact error_writable _
  | request r =>
    cases r with
    | status => exact ⟨trivial, ⟨trivial, trivial, trivial⟩, trivial, trivial⟩
    | pause | resume => exact ⟨trivial, ⟨trivial, trivial⟩, trivial, trivial⟩
    | unknown command => exact error_writable _
    | reload loaded =>
      cases loaded with
      | error e => exact error_writable _
      | ok rules =>
        have hcountable : Countable rules := by
          rw [Asks] at hq
          split at hq
          · cases hq
          · obtain ⟨request, he, hfinds⟩ := hq
            cases he
            exact hfinds.countable
        have hnumber := JsonWriter.isNumber_spellInt (n := rules.length) hcountable
        exact ⟨trivial, ⟨hnumber, trivial⟩, trivial, trivial⟩

end Ipc

end Spork
