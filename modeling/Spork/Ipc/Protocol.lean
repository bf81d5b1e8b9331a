import Spork.Daemon.Shared
import Spork.JsonText

/-!
# The control socket's wire format

`core/ipc/protocol.py`: one request and one response, each a line of JSON.  A line is bytes; what
`model_validate_json` makes of them is pydantic's, and a parameter (`Pydantic`).  `strictModels`
reads UTF-8, JSON, and then the fields of the model, with no others.
-/

set_option autoImplicit false

namespace Spork

namespace Ipc

open JsonReader (Value member points)
open JsonWriter (Json write)

/-! ## The models -/

/-- `IpcRequest`. -/
structure Request where
  command : String
  params : List (String × Json) := []

/-- `IpcResponse`. -/
structure Response where
  ok : Bool
  data : List (String × Json) := []
  error : Option String := none

/-- An optional text. -/
def optString : Option String → Json
  | none => .null
  | some s => .string s

/-- The fields of a request. -/
def Request.json (r : Request) : Json :=
  .object [("command", .string r.command), ("params", .object r.params)]

/-- The fields of a response. -/
def Response.json (r : Response) : Json :=
  .object [("ok", .bool r.ok), ("data", .object r.data), ("error", optString r.error)]

/-- The fields that a model has are these (`extra="forbid"`). -/
def onlyFields (fields : List String) (ms : List (List Nat × Value)) : Bool :=
  ms.all fun m => fields.any fun field => points field == m.1

/-- A field of type `dict[str, Any]`, with its default. -/
def dictField (ms : List (List Nat × Value)) (field : String) : Option (List (String × Json)) :=
  match member ms field with
  | none => some []
  | some (.object members) => JsonWriter.ofMembers members
  | some _ => none

/-- `IpcRequest.model_validate`. -/
def Request.validate : Value → Option Request
  | .object ms =>
    if onlyFields ["command", "params"] ms then
      match member ms "command" with
      | some (.string command) => do
        let command ← JsonWriter.textOf command
        let params ← dictField ms "params"
        some ⟨command, params⟩
      | _ => none
    else none
  | _ => none

/-- `IpcResponse.model_validate`. -/
def Response.validate : Value → Option Response
  | .object ms =>
    if onlyFields ["ok", "data", "error"] ms then
      match member ms "ok" with
      | some (.bool ok) => do
        let data ← dictField ms "data"
        match member ms "error" with
        | none | some .null => some ⟨ok, data, none⟩
        | some (.string error) => do
          let error ← JsonWriter.textOf error
          some ⟨ok, data, some error⟩
        | some _ => none
      | _ => none
    else none
  | _ => none

/-! ## Nesting -/

mutual

/-- How deep arrays and objects are nested. -/
def depth : Value → Nat
  | .array items => depthItems items + 1
  | .object members => depthMembers members + 1
  | _ => 0

/-- The deepest of some items. -/
def depthItems : List Value → Nat
  | [] => 0
  | v :: items => max (depth v) (depthItems items)

/-- The deepest of some members. -/
def depthMembers : List (List Nat × Value) → Nat
  | [] => 0
  | (_, v) :: members => max (depth v) (depthMembers members)

end

/-- How deep `strictModels` follows them. -/
def recursionLimit : Nat := 200

/-! ## Lines -/

/-- `text.encode("utf-8")` -/
def encodeUtf8 (cs : List Char) : List UInt8 := cs.flatMap String.utf8EncodeChar

/-- Bytes as the text they encode. -/
def decodeUtf8 (bytes : List UInt8) : Option (List Char) :=
  bytes.toByteArray.utf8Decode?.map Array.toList

/-- The line feed. -/
def lineFeed : UInt8 := 10

/-- `encode_line`. -/
def encodeLine (message : Json) : List UInt8 := encodeUtf8 (write dumpJson message ++ ['\n'])

/-- The JSON of a line. -/
def readLine (line : List UInt8) : Option Value := do
  let cs ← decodeUtf8 line
  let v ← JsonReader.loads cs
  if depth v ≤ recursionLimit then some v else none

/-- `model_validate_json` of the two models, and the text of its validation error. -/
structure Pydantic where
  request : List UInt8 → Option Request
  response : List UInt8 → Option Response
  explain : List UInt8 → String

/-- The request of a line. -/
def Request.ofLine (line : List UInt8) : Option Request := (readLine line).bind Request.validate

/-- The response of a line. -/
def Response.ofLine (line : List UInt8) : Option Response := (readLine line).bind Response.validate

/-- The models, where a `bool` is nothing but a `bool`. -/
def strictModels : Pydantic := ⟨Request.ofLine, Response.ofLine, fun _ => "not a request"⟩

@[simp]
theorem strictModels_request (line : List UInt8) :
    strictModels.request line = Request.ofLine line := rfl

@[simp]
theorem strictModels_response (line : List UInt8) :
    strictModels.response line = Response.ofLine line := rfl

/-! ## Bytes -/

theorem decodeUtf8_encodeUtf8 (cs : List Char) : decodeUtf8 (encodeUtf8 cs) = some cs := by
  have h : (encodeUtf8 cs).toByteArray.utf8Decode? = some cs.toArray := List.utf8Decode?_utf8Encode
  rw [decodeUtf8, h, Option.map_some, List.toList_toArray]

/-- The bytes of the characters beyond ASCII are all beyond ASCII. -/
theorem lineFeed_mem_utf8EncodeChar {c : Char} (h : lineFeed ∈ String.utf8EncodeChar c) :
    c = '\n' := by
  have hbyte : ∀ n : Nat, lineFeed = UInt8.ofNat n → n % 256 = 10 := fun n hn => by
    have htoNat := congrArg UInt8.toNat hn
    rw [UInt8.toNat_ofNat'] at htoNat
    exact htoNat.symm
  rw [String.utf8EncodeChar] at h
  split at h
  · have hvalue := hbyte _ (List.mem_singleton.1 h)
    refine Char.toNat_inj.1 (show c.val.toNat = 10 from ?_)
    omega
  split at h
  · simp only [List.mem_cons, List.not_mem_nil, or_false] at h
    rcases h with h | h <;> (have hvalue := hbyte _ h; omega)
  split at h
  · simp only [List.mem_cons, List.not_mem_nil, or_false] at h
    rcases h with h | h | h <;> (have hvalue := hbyte _ h; omega)
  · simp only [List.mem_cons, List.not_mem_nil, or_false] at h
    rcases h with h | h | h | h <;> (have hvalue := hbyte _ h; omega)

theorem lineFeed_mem_encodeUtf8 {cs : List Char} (h : lineFeed ∈ encodeUtf8 cs) : '\n' ∈ cs := by
  obtain ⟨c, hc, hmem⟩ := List.mem_flatMap.1 h
  rwa [lineFeed_mem_utf8EncodeChar hmem] at hc

/-! ## One line for each message -/

section Lines

variable {message : Json} (h : message.Writable)

include h

/-- A message is one line: its only line feed is at its end. -/
theorem encodeLine_eq :
    ∃ before, encodeLine message = before ++ [lineFeed] ∧ lineFeed ∉ before := by
  refine ⟨encodeUtf8 (write dumpJson message), ?_, fun hmem => ?_⟩
  · rw [encodeLine, encodeUtf8, List.flatMap_append]
    rfl
  · exact JsonWriter.not_mem_write dumpJson_oneLine h (lineFeed_mem_encodeUtf8 hmem)

theorem readLine_encodeLine (hdepth : depth message.toValue ≤ recursionLimit) :
    readLine (encodeLine message) = some message.toValue := by
  have hfeed : ∀ c ∈ ['\n'], JsonReader.isSpace c = true := List.forall_mem_singleton.mpr rfl
  have hread := JsonWriter.read_write_append dumpJson h hfeed
  rw [readLine, encodeLine, decodeUtf8_encodeUtf8]
  show (JsonReader.loads _).bind _ = _
  rw [JsonReader.loads, hread]
  exact if_pos hdepth

end Lines

/-- **A request arrives as it was sent.** -/
theorem Request.ofLine_encodeLine {r : Request} (h : r.json.Writable)
    (hdepth : depth r.json.toValue ≤ recursionLimit) :
    Request.ofLine (encodeLine r.json) = some r := by
  obtain ⟨command, params⟩ := r
  rw [ofLine, readLine_encodeLine h hdepth, Option.bind_some, Request.json]
  simp only [Json.toValue, JsonWriter.toMembers]
  rw [validate]
  refine (if_pos rfl).trans ?_
  have hcommand : member [(points "command", .string (points command)),
      (points "params", .object (JsonWriter.toMembers params))] "command"
        = some (.string (points command)) := rfl
  have hparams : member [(points "command", .string (points command)),
      (points "params", .object (JsonWriter.toMembers params))] "params"
        = some (.object (JsonWriter.toMembers params)) := rfl
  rw [hcommand, dictField, hparams]
  simp

/-- **A response arrives as it was sent.** -/
theorem Response.ofLine_encodeLine {r : Response} (h : r.json.Writable)
    (hdepth : depth r.json.toValue ≤ recursionLimit) :
    Response.ofLine (encodeLine r.json) = some r := by
  obtain ⟨ok, data, error⟩ := r
  rw [ofLine, readLine_encodeLine h hdepth, Option.bind_some, Response.json]
  simp only [Json.toValue, JsonWriter.toMembers]
  rw [validate]
  refine (if_pos rfl).trans ?_
  have hok : member [(points "ok", .bool ok),
      (points "data", .object (JsonWriter.toMembers data)),
      (points "error", (optString error).toValue)] "ok" = some (.bool ok) := rfl
  have hdata : member [(points "ok", .bool ok),
      (points "data", .object (JsonWriter.toMembers data)),
      (points "error", (optString error).toValue)] "data"
        = some (.object (JsonWriter.toMembers data)) := rfl
  have herror : member [(points "ok", .bool ok),
      (points "data", .object (JsonWriter.toMembers data)),
      (points "error", (optString error).toValue)] "error" = some (optString error).toValue := rfl
  rw [hok, dictField, hdata, herror]
  cases error with
  | none => simp [optString, Json.toValue]
  | some error => simp [optString, Json.toValue]

end Ipc

end Spork
