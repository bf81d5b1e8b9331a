import Spork.Effects.Footprint
import Spork.JsonLines
import Spork.Llm.Prompt

/-!
# Recording the calls of a model

`core/llm/recording.py`: `RecordingLLMClient` asks the client it decorates, and appends what was
asked and answered to a corpus, as one line of JSON.
-/

set_option autoImplicit false

namespace Spork

open Effects
open JsonReader (Value member points)
open JsonWriter

/-! ## An entry -/

/-- What pydantic, `hashlib` and `float.__repr__` contribute to an entry. -/
structure CorpusFormat where
  schema : List String → Json
  sha256 : String → String
  spellFloat : PyFloat → List Char

/-- `_prompt_payload`. -/
def promptPayload (prompt : CompletionPrompt) : Json :=
  .object [("messages", .array prompt.messages), ("tools", .array prompt.tools),
    ("tool_choice", prompt.toolChoice)]

/-- `prompt_sha256`. -/
def promptSha256 (F : CorpusFormat) (prompt : CompletionPrompt) : String :=
  F.sha256 (String.ofList (write dumpsCompact (promptPayload prompt).sortKeys))

/-- The literal of an urgency. -/
def Urgency.value : Urgency → String
  | .low => "low"
  | .medium => "medium"
  | .high => "high"

/-- `action.model_dump(mode="json")`. -/
def Action.members (action : Action) : List (String × Json) :=
  [("type", Codec.text.write action.type.value), ("mailbox", Codec.optText.write action.mailbox),
    ("reason", Codec.optText.write action.reason),
    ("alert_immediately", Codec.flag.write action.alertImmediately)]

/-- `verdict.model_dump(mode="json")`. -/
def Verdict.members (F : CorpusFormat) (verdict : Verdict) : List (String × Json) :=
  [("category", Codec.text.write verdict.category),
    ("urgency", Codec.text.write verdict.urgency.value),
    ("confidence", .number (F.spellFloat verdict.confidence)),
    ("suggested_action", .object verdict.suggestedAction.members),
    ("summary", Codec.text.write verdict.summary),
    ("draft_reply", Codec.optText.write verdict.draftReply),
    ("reasoning", Codec.text.write verdict.reasoning),
    ("metadata", .object (verdict.metadata.map fun m => (m.1, Codec.text.write m.2)))]

/-- What one line of the corpus is about. -/
structure CorpusEntry where
  request : VerdictRequest
  result : LLMResult
  recordedAt : String

/-- The members of an entry. -/
def CorpusEntry.members (F : CorpusFormat) (entry : CorpusEntry) : List (String × Json) :=
  [("subject", .string entry.request.subject),
    ("prompt", promptPayload (buildPrompt F.schema entry.request)),
    ("prompt_sha256", .string (promptSha256 F (buildPrompt F.schema entry.request))),
    ("verdict", .object (entry.result.verdict.members F)),
    ("usage", .object [("tokens_in", .int entry.result.usage.tokensIn),
      ("tokens_out", .int entry.result.usage.tokensOut)]),
    ("recorded_at", .string entry.recordedAt)]

/-- An entry as `json.dumps` sorts it. -/
def CorpusEntry.json (F : CorpusFormat) (entry : CorpusEntry) : Json :=
  (Json.object (entry.members F)).sortKeys

/-! ## The client -/

/-- `json.dumps(entry, sort_keys=True)`: the counts of tokens must not be too long for `str`. -/
def CorpusEntry.text (F : CorpusFormat) (entry : CorpusEntry) : Except Exn (List Char) :=
  if Spellable entry.result.usage.tokensIn ∧ Spellable entry.result.usage.tokensOut then
    .ok (write dumps (entry.json F))
  else .error ⟨.valueError, "Exceeds the limit (4300 digits) for integer string conversion"⟩

/-- An answer of the decorated client, or of the clock. -/
inductive CorpusEvent where
  | answered (request : VerdictRequest) (result : LLMResult)
  | told (time : String)

/-- The content of the corpus, and everything that the decorated client and the clock have
answered. -/
structure CorpusWorld where
  corpus : List Char
  events : List CorpusEvent

/-- The action type of a literal. -/
def ActionType.ofValue (value : String) : Option ActionType :=
  [ActionType.move, .tag, .escalate, .ignore, .archiveReceipt].find? fun t => t.value == value

/-- The urgency of a literal. -/
def Urgency.ofValue (value : String) : Option Urgency :=
  [Urgency.low, .medium, .high].find? fun u => u.value == value

/-- An action as it was dumped. -/
def Action.ofValue : Value → Option Action
  | .object ms => do
    let type ← field Codec.text ms "type"
    let type ← ActionType.ofValue type
    let mailbox ← field Codec.optText ms "mailbox"
    let reason ← field Codec.optText ms "reason"
    let alertImmediately ← field Codec.flag ms "alert_immediately"
    some { type, mailbox, reason, alertImmediately }
  | _ => none

/-- A dict of texts. -/
def textsOf : Value → Option (List (String × String))
  | .object ms => ms.mapM fun m => do
    let key ← textOf m.1
    let v ← Codec.text.read m.2
    some (key, v)
  | _ => none

/-- A verdict as it was dumped, where `parse` is `float`. -/
def Verdict.ofValue (parse : List Char → Option PyFloat) : Value → Option Verdict
  | .object ms => do
    let category ← field Codec.text ms "category"
    let urgency ← field Codec.text ms "urgency"
    let urgency ← Urgency.ofValue urgency
    let confidence ← match member ms "confidence" with
      | some (.number spelling) => parse spelling
      | _ => none
    let suggestedAction ← (member ms "suggested_action").bind Action.ofValue
    let summary ← field Codec.text ms "summary"
    let draftReply ← field Codec.optText ms "draft_reply"
    let reasoning ← field Codec.text ms "reasoning"
    let metadata ← (member ms "metadata").bind textsOf
    if h : ((PyFloat.fin 0).le confidence = true ∧ confidence.le (.fin 1) = true) ∧
        suggestedAction.type ≠ .escalate ∧ suggestedAction.type ≠ .archiveReceipt then
      some { category, urgency, confidence, suggestedAction, summary, draftReply, reasoning,
             metadata, confidence_nonneg := h.1.1, confidence_le_one := h.1.2,
             not_escalate := h.2.1, not_archive := h.2.2 }
    else none
  | _ => none

/-- Token counts as they were dumped. -/
def LLMCallUsage.ofValue : Value → Option LLMCallUsage
  | .object ms => do
    let tokensIn ← field Codec.int ms "tokens_in"
    let tokensOut ← field Codec.int ms "tokens_out"
    some ⟨tokensIn.1, tokensOut.1⟩
  | _ => none

/-- The request that the second message of a prompt carries. -/
def requestOfPrompt : Value → Option VerdictRequest
  | .object ms =>
    match member ms "messages" with
    | some (.array [_, .object user]) => do
      let content ← field Codec.text user "content"
      let v ← JsonReader.loads content.toList
      VerdictRequest.ofValue v
    | _ => none
  | _ => none

/-- An entry as it was written, and the hash in it. -/
def CorpusEntry.ofValue (parse : List Char → Option PyFloat) : Value → Option (CorpusEntry × String)
  | .object ms => do
    let request ← (member ms "prompt").bind requestOfPrompt
    let verdict ← (member ms "verdict").bind (Verdict.ofValue parse)
    let usage ← (member ms "usage").bind LLMCallUsage.ofValue
    let recordedAt ← field Codec.text ms "recorded_at"
    let sha256 ← field Codec.text ms "prompt_sha256"
    some (⟨request, ⟨verdict, usage⟩, recordedAt⟩, sha256)
  | _ => none

end Spork
