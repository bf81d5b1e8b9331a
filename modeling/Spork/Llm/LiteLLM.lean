import Spork.Collaborators

/-!
# The LiteLLM client

`core/llm/clients/litellm.py`: one forced tool call, and what is accepted as its answer.

The response is any object at all.  `CompletionResponse` describes it by what reading each of its
attributes gives, a value or an exception, so every way in which `_parse_response` can meet a bad
response is one value of that type.
-/

set_option autoImplicit false

namespace Spork

open Effects

/-- The classes that `_parse_response` translates, with the subclasses that matter here
(`JSONDecodeError` and `UnicodeError` are kinds of `ValueError`). -/
def ExnClass.invalidResponse : ExnClass → Bool
  | .valueError => true
  | .other name => decide (name ∈ ["AttributeError", "IndexError", "KeyError", "TypeError",
      "ValidationError", "JSONDecodeError", "UnicodeDecodeError"])
  | _ => false

/-- `int(x)` for a float: truncation towards zero. -/
def PyFloat.toInt : PyFloat → Except Exn Int
  | .nan => .error ⟨.valueError, "cannot convert float NaN to integer"⟩
  | .posInf => .error ⟨.overflowError, "cannot convert float infinity to integer"⟩
  | .negInf => .error ⟨.overflowError, "cannot convert float infinity to integer"⟩
  | .fin q => .ok (if 0 ≤ q then q.floor else q.ceil)

/-- `int(x)`. -/
def UsageValue.toInt : UsageValue → Except Exn Int
  | .int n => .ok n
  | .float x => x.toInt
  | .object r => r

/-- The one tool call of a response. -/
def soleToolCall : Option (List (Except Exn ToolFunction)) → Except Exn ToolFunction
  | none => .error ⟨.other "TypeError", "object of type 'NoneType' has no len()"⟩
  | some [function] => function
  | some calls => .error ⟨.valueError,
      "expected exactly one tool call, got " ++ toString calls.length⟩

/-- The body of the `try` in `_parse_response`, read in the order of the source. -/
def readResponse (response : CompletionResponse) : Except Exn LLMResult := do
  let toolCalls ← response.toolCalls
  let usage ← response.usage
  let function ← soleToolCall toolCalls
  let name ← function.name
  if name ≠ "deliver_verdict" then
    .error ⟨.valueError, "unexpected tool call " ++ pyRepr name⟩
  else
    let verdict ← function.arguments
    let prompt ← usage.promptTokens
    let tokensIn ← prompt.toInt
    let completion ← usage.completionTokens
    let tokensOut ← completion.toInt
    pure ⟨verdict, ⟨tokensIn, tokensOut⟩⟩

/-- `_parse_response`: the listed classes become a `LiteLLMClientError`, and any other one
escapes. -/
def parseResponse (response : CompletionResponse) : Except Exn LLMResult :=
  match readResponse response with
  | .ok result => .ok result
  | .error e =>
    if e.cls.invalidResponse then
      .error ⟨.liteLLMClientError, "invalid LiteLLM verdict response: " ++ e.message⟩
    else .error e

/-- `LiteLLMClient.get_verdict`: whatever the completion call raises is a `LiteLLMClientError`. -/
def LiteLLMClient.getVerdict (request : VerdictRequest) : Proc LLMResult := do
  let response ← (call (.completion request)).tryCatch fun e =>
    raise .liteLLMClientError ("LiteLLM completion failed: " ++ e.message)
  ofExcept (parseResponse response)

/-- The client as the pipeline sees it. -/
def liteLLMClient : LLMClient := ⟨LiteLLMClient.getVerdict⟩

end Spork
