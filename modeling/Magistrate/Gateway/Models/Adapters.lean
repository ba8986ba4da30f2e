import Magistrate.Gateway.Models.Contract

/-!
# The provider adapters

Each adapter decodes the response of its provider: a loop over its parts collects
text and calls, and what is returned depends on why the provider stopped.
-/

namespace Magistrate.Adapters

namespace OpenAIMagiModel

/-- The text of one part of a message. -/
def outputText (part : PyJson) : Except AdapterRaise PyText := do
  raiseIf (¬(part.get "type").isText "output_text") (modelError "provider_invalid_response")
  orRaise (part.get "text").text? (modelError "provider_invalid_response")

/-- One output item of `_response_text`: its texts, or itself when it is a call. -/
def outputItem (item : PyJson) : Except AdapterRaise (List PyText × List PyJson) := do
  let itemType ← orRaise (item.get "type").text? (modelError "provider_invalid_response")
  if itemType = PyText.of "function_call" then return ([], [item])
  -- reasoning is provider-private and never becomes prose
  else if itemType = PyText.of "reasoning" then return ([], [])
  else
    raiseIf (itemType ≠ PyText.of "message" ∨ ¬(item.get "role").isText "assistant")
      (modelError "provider_invalid_response")
    let content ← orRaise (item.get "content").list? (modelError "provider_invalid_response")
    return (← content.mapM outputText, [])

/-- The text of the parts, if there is one. -/
def joinedText (textParts : List PyText) : Option PyText :=
  if textParts = [] then none else some textParts.flatten

/-- What is checked of the text of a response, whether it comes with calls or not. -/
def checkText (text : PyText) : Except AdapterRaise Unit := do
  let length ← orRaise (PyText.utf8Length? text) (modelError "provider_invalid_unicode")
  raiseIf (maxResponseCharacters < text.length ∨ maxResponseBytes < length)
    (modelError "response_too_large")

/-- `_response_text` -/
def responseText (output : List PyJson) :
    Except AdapterRaise (Option PyText × List PyJson) := do
  let items ← output.mapM outputItem
  let text := joinedText (items.flatMap Prod.fst)
  text.forM checkText
  return (text, items.flatMap Prod.snd)

/-- The call id, the provider name and the arguments of a call. -/
def rawCall (raw : PyJson) : Option (PyText × PyText × PyText) := do
  guard ((raw.get "type").isText "function_call")
  return (← (raw.get "call_id").text?, ← (raw.get "name").text?, ← (raw.get "arguments").text?)

/-- One call of `_parse_response_tool_calls`. -/
def parseCall (offered : OfferedTools) (count : ℕ) (parsed : List MagiModelToolCall)
    (raw : PyJson) : Except AdapterRaise (List MagiModelToolCall) := do
  -- the id, the provider's name and the arguments
  let given ← orRaise (rawCall raw) (modelError "provider_invalid_tool_call" false count)
  let name ← orRaise (offered.providerNames.lookup given.2.1)
    (modelError "provider_unknown_tool_call" false count)
  let call : MagiModelToolCall := { id := given.1, name, argumentsJson := given.2.2 }
  validatedToolCall call
  raiseIf (call.id ∈ parsed.map (·.id)) (modelError "provider_invalid_tool_call" false count)
  return parsed ++ [call]

/-- `_parse_response_tool_calls` -/
def parseResponseToolCalls (offered : OfferedTools) (rawCalls : List PyJson) :
    Except AdapterRaise (List MagiModelToolCall) := do
  raiseIf (¬(1 ≤ rawCalls.length ∧ rawCalls.length ≤ maxToolCalls))
    (modelError "provider_invalid_tool_call" false rawCalls.length)
  rawCalls.foldlM (parseCall offered rawCalls.length) []

/-- `_openai_usage` -/
def openaiUsage (payload : PyJson) : Option MagiModelUsage :=
  let raw := payload.get "usage"
  let details := raw.get "input_tokens_details"
  usage (raw.get "input_tokens") (raw.get "output_tokens") (details.getD "cached_tokens" (.int 0))

/-- The status and the output of a response. -/
def opened (payload : PyJson) : Except PyRaise (PyText × List PyJson) := do
  let status ← payload.item "status"
  let output ← payload.item "output"
  return (← orRaise status.text? .typeError, ← orRaise output.list? .typeError)

/-- The error of a response that is not completed. -/
def incompleteError (status : PyText) (payload : PyJson) : AdapterRaise :=
  if status = PyText.of "incomplete" ∧
      ((payload.get "incomplete_details").get "reason").isText "max_output_tokens" then
    modelError "response_limit_reached"
  else modelError "provider_incomplete_response"

/-- `OpenAIMagiModel.complete`, of the decoded response. -/
def complete (rules : ModelRules) (tools : List MagiToolDefinition) (payload : PyJson) :
    Except AdapterRaise MagiModelResult := do
  let offered ← providerTools rules tools
  let (status, output) ←
    handling [.valueError, .typeError, .keyError] "provider_invalid_response" (opened payload)
  raiseIf (status ≠ PyText.of "completed") (incompleteError status payload)
  let (text, rawCalls) ← responseText output
  if rawCalls ≠ [] then
    raiseIf (offered.payloads = [])
      (modelError "provider_tool_call_unsupported" false rawCalls.length)
    let calls ← parseResponseToolCalls offered rawCalls
    return { text, finishReason := "tool_calls", toolCalls := calls, usage := openaiUsage payload }
  else
    let text ← orRaise (text.filter fun text => ¬PyText.isBlank text)
      (modelError "provider_empty_response")
    raiseIf (magiTextHasUnsafeControls text) (modelError "provider_unsafe_response")
    checkText text
    return { text := some text, finishReason := "stop", usage := openaiUsage payload }

end OpenAIMagiModel

/-- The texts and the calls that a loop over the parts of a response has collected. -/
structure Collected where
  texts : List PyText
  calls : List MagiModelToolCall
  deriving DecidableEq, Repr

/-- A call is appended unless there are too many. -/
def Collected.append (collected : Collected) (call : MagiModelToolCall) :
    Except AdapterRaise Collected := do
  validatedToolCall call
  let calls := collected.calls ++ [call]
  raiseIf (maxToolCalls < calls.length) (modelError "provider_invalid_tool_call" false calls.length)
  return { collected with calls }

/-- `"".join(texts) or None` -/
def Collected.text (collected : Collected) : Option PyText :=
  if collected.texts.flatten = [] then none else some collected.texts.flatten

/-- The call that a provider makes of a tool by its provider name. -/
def Collected.call (offered : OfferedTools) (collected : Collected) (id : PyText → PyText)
    (providerName : PyText) (arguments : Option PyText) : Except AdapterRaise Collected := do
  let name ← orRaise (offered.providerNames.lookup providerName)
    (modelError "provider_unknown_tool_call" false 1)
  let argumentsJson ← orRaise arguments (modelError "provider_invalid_tool_call" false 1)
  collected.append { id := id name, name, argumentsJson }

namespace AnthropicMagiModel

/-- One block of the content. -/
def block (rules : ModelRules) (offered : OfferedTools) (collected : Collected) (block : PyJson) :
    Except AdapterRaise Collected := do
  raiseIf (¬block.isDict) (modelError "provider_invalid_response")
  if (block.get "type").isText "thinking" then return collected
  else
    match (block.get "text").text?.filter fun _ => (block.get "type").isText "text" with
    | some text => return { collected with texts := collected.texts ++ [text] }
    | none =>
      raiseIf (¬(block.get "type").isText "tool_use") (modelError "provider_invalid_response")
      let id ← orRaise (block.get "id").text? (modelError "provider_invalid_tool_call" false 1)
      let providerName ← orRaise (block.get "name").text?
        (modelError "provider_invalid_tool_call" false 1)
      collected.call offered (fun _ => id) providerName (rules.dumps (block.get "input"))

/-- The content and the reason to stop of a response. -/
def opened (body : PyJson) : Except PyRaise (List PyJson × PyText) := do
  let content ← body.item "content"
  let stopReason ← body.item "stop_reason"
  return (← orRaise content.list? .typeError, ← orRaise stopReason.text? .typeError)

/-- `AnthropicMagiModel.complete`, of the decoded response. -/
def complete (rules : ModelRules) (tools : List MagiToolDefinition) (body : PyJson) :
    Except AdapterRaise MagiModelResult := do
  let offered ← providerTools rules tools
  -- the content and the reason to stop
  let given ←
    handling [.valueError, .keyError, .typeError] "provider_invalid_response" (opened body)
  let collected ← given.1.foldlM (block rules offered) ⟨[], []⟩
  let rawUsage := body.get "usage"
  let resultUsage := usage (rawUsage.get "input_tokens") (rawUsage.get "output_tokens")
    (rawUsage.getD "cache_read_input_tokens" (.int 0))
  if collected.calls ≠ [] then
    raiseIf (given.2 ≠ PyText.of "tool_use" ∨ offered.payloads = [])
      (modelError "provider_tool_call_unsupported" false collected.calls.length)
    return { text := collected.text, finishReason := "tool_calls", toolCalls := collected.calls
             usage := resultUsage }
  else
    raiseIf (given.2 = PyText.of "max_tokens") (modelError "response_limit_reached")
    raiseIf (given.2 ∉ [PyText.of "end_turn", PyText.of "stop_sequence"])
      (modelError "provider_incomplete_response")
    return { text := some (← safeText collected.text), usage := resultUsage }

end AnthropicMagiModel

namespace GoogleMagiModel

/-- The id of the call in a part. -/
def callId (rules : ModelRules) (requestId : PyText) (index : ℕ) (name : PyText) : PyText :=
  PyText.of "gcall_" ++ rules.callDigest requestId index name

/-- One part of the candidate, with its index. -/
def part (rules : ModelRules) (requestId : PyText) (offered : OfferedTools)
    (collected : Collected) (part : PyJson × ℕ) : Except AdapterRaise Collected := do
  raiseIf (¬part.1.isDict) (modelError "provider_invalid_response")
  -- text is taken whether or not the part is marked as a thought
  match (part.1.get "text").text? with
  | some text => return { collected with texts := collected.texts ++ [text] }
  | none =>
    let rawCall := part.1.get "functionCall"
    if rawCall.isNull then
      raiseIf (¬part.1.has "thoughtSignature") (modelError "provider_invalid_response")
      return collected
    else
      let providerName ← orRaise (rawCall.get "name").text?
        (modelError "provider_invalid_tool_call" false 1)
      collected.call offered (callId rules requestId part.2) providerName
        (rules.dumps (rawCall.getD "args" (.dict [])))

/-- The parts and the reason to finish of the only candidate. -/
def opened (body : PyJson) : Except PyRaise (List PyJson × PyText) := do
  let candidates ← body.item "candidates"
  let candidate ← candidates.first
  let finish ← candidate.item "finishReason"
  let content ← candidate.item "content"
  let parts ← content.item "parts"
  let count ← candidates.length
  raiseIf (count ≠ 1) .typeError
  return (← orRaise parts.list? .typeError, ← orRaise finish.text? .typeError)

/-- `GoogleMagiModel.complete`, of the decoded response. -/
def complete (rules : ModelRules) (requestId : PyText) (tools : List MagiToolDefinition)
    (body : PyJson) : Except AdapterRaise MagiModelResult := do
  let offered ← providerTools rules tools
  let (parts, finish) ← handling [.valueError, .keyError, .typeError, .indexError]
    "provider_invalid_response" (opened body)
  let collected ← parts.zipIdx.foldlM (part rules requestId offered) ⟨[], []⟩
  let rawUsage := body.get "usageMetadata"
  let resultUsage := usage (rawUsage.get "promptTokenCount") (rawUsage.get "candidatesTokenCount")
    (rawUsage.getD "cachedContentTokenCount" (.int 0))
  if collected.calls ≠ [] then
    raiseIf (offered.payloads = [])
      (modelError "provider_tool_call_unsupported" false collected.calls.length)
    return { text := collected.text, finishReason := "tool_calls", toolCalls := collected.calls
             usage := resultUsage }
  else
    raiseIf (finish = PyText.of "MAX_TOKENS") (modelError "response_limit_reached")
    raiseIf (finish ≠ PyText.of "STOP") (modelError "provider_incomplete_response")
    return { text := some (← safeText collected.text), usage := resultUsage }

end GoogleMagiModel

/-- The adapters of native chat. -/
inductive ModelAdapter where
  | openAI
  | anthropic
  | google
  deriving DecidableEq, Repr

/-- `complete` of an adapter, of the decoded response to a request. -/
def ModelAdapter.complete (rules : ModelRules) (requestId : PyText)
    (tools : List MagiToolDefinition) (response : PyJson) :
    ModelAdapter → Except AdapterRaise MagiModelResult
  | openAI => OpenAIMagiModel.complete rules tools response
  | anthropic => AnthropicMagiModel.complete rules tools response
  | google => GoogleMagiModel.complete rules requestId tools response

end Magistrate.Adapters
