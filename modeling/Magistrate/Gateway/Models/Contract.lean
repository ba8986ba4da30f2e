import Magistrate.Core.PyJson
import Magistrate.Core.Run

/-!
# The model boundary

What crosses between native chat and a model provider: tool definitions on the way
out, complete text or bounded function calls on the way back, with the checks that
every adapter makes of them.
-/

namespace Magistrate.Adapters

/-- `MagiModelError` -/
structure MagiModelError where
  code : String
  retryable : Bool := true
  toolCalls : ℕ := 0
  billingUncertain : Bool := false
  deriving DecidableEq, Repr

/-- What an adapter can raise: an error of the boundary, or one that no handler caught. -/
inductive AdapterRaise where
  | model (error : MagiModelError)
  | uncaught (raised : PyRaise)
  deriving DecidableEq, Repr

/-- `MagiModelToolCall` -/
structure MagiModelToolCall where
  id : PyText
  name : PyText
  argumentsJson : PyText
  deriving DecidableEq, Repr

/-- `MagiToolDefinition` -/
structure MagiToolDefinition where
  name : PyText
  description : PyText
  parameters : PyJson

/-- `MagiModelUsage` -/
structure MagiModelUsage where
  inputTokens : ℕ
  outputTokens : ℕ
  cachedInputTokens : ℕ
  deriving DecidableEq, Repr

/-- `MagiModelResult` -/
structure MagiModelResult where
  text : Option PyText
  finishReason : String := "stop"
  toolCalls : List MagiModelToolCall := []
  usage : Option MagiModelUsage
  deriving DecidableEq, Repr

/-- What the adapters take from the standard library: encoded JSON without NaN, unless it raises,
and the digest of a request, an index and a name that identifies a call. -/
structure ModelRules where
  dumps : PyJson → Option PyText
  dumpsSorted : PyJson → Option PyText
  callDigest : PyText → ℕ → PyText → PyText

/-- `MAGI_MAX_RESPONSE_CHARACTERS` -/
def maxResponseCharacters : ℕ := 200000

/-- `MAGI_MAX_RESPONSE_BYTES` -/
def maxResponseBytes : ℕ := 256 * 1024

/-- `MAGI_MAX_TOOL_CALLS` -/
def maxToolCalls : ℕ := 4

/-- `MAGI_MAX_TOOL_DEFINITIONS` -/
def maxToolDefinitions : ℕ := 5

/-- `MAGI_MAX_TOOL_ARGUMENT_BYTES` -/
def maxToolArgumentBytes : ℕ := 32 * 1024

/-- `MAGI_MAX_TOOL_DEFINITION_BYTES` -/
def maxToolDefinitionBytes : ℕ := 64 * 1024

/-- `raise MagiModelError` -/
def modelError (code : String) (retryable : Bool := true) (toolCalls : ℕ := 0) : AdapterRaise :=
  .model { code, retryable, toolCalls }

/-- `try: … except handled as exc: raise MagiModelError(code) from exc` -/
def handling {α : Type} (handled : List PyRaise) (code : String) :
    Except PyRaise α → Except AdapterRaise α
  | .ok value => .ok value
  | .error raised =>
    .error (if raised ∈ handled then modelError code else .uncaught raised)

/-- A control character other than a tab or a line break, or a surrogate. -/
def isUnsafeCode (code : ℕ) : Bool :=
  (decide (code < 32) && !([9, 10, 13].contains code)) || decide (127 ≤ code ∧ code ≤ 159) ||
    PyText.isSurrogate code

/-- `magi_text_has_unsafe_controls` -/
def magiTextHasUnsafeControls (value : PyText) : Bool := value.any isUnsafeCode

/-- `_validated_utf8` -/
def validatedUtf8 (value : PyText) (maximumBytes : ℕ) (code : String) :
    Except AdapterRaise Unit := do
  raiseIf (magiTextHasUnsafeControls value) (modelError code)
  let length ← orRaise (PyText.utf8Length? value) (modelError code)
  raiseIf (maximumBytes < length) (modelError code)

/-- `_TOOL_NAME` -/
def isToolName (name : PyText) : Bool := PyText.isIdentifier ['_', '.', '-'] 63 name

/-- `_OPENAI_TOOL_NAME` -/
def isOpenaiToolName (name : PyText) : Bool := PyText.isIdentifier ['_', '-'] 63 name

/-- `_TOOL_CALL_ID` -/
def isToolCallId (id : PyText) : Bool := PyText.isIdentifier ['_', '-'] 127 id

/-- `canonical_name.replace(".", "__")` -/
def replaceDots (name : PyText) : PyText :=
  name.flatMap fun code => if code = 46 then [95, 95] else [code]

/-- `_openai_tool_name` -/
def openaiToolName (canonicalName : PyText) : Except AdapterRaise PyText := do
  let providerName := replaceDots canonicalName
  raiseIf (¬isOpenaiToolName providerName) (modelError "provider_invalid_tool_definition" false)
  return providerName

/-- `_validated_tool_call`, whose encoding of the call no adapter reads of a response. -/
def validatedToolCall (call : MagiModelToolCall) : Except AdapterRaise Unit := do
  raiseIf (¬isToolCallId call.id ∨ ¬isToolName call.name ∨ PyText.isBlank call.argumentsJson)
    (modelError "provider_invalid_tool_call" false 1)
  validatedUtf8 call.argumentsJson maxToolArgumentBytes "provider_invalid_tool_call"
  let _ ← openaiToolName call.name

/-- What a provider is told of a tool. -/
structure ToolPayload where
  name : PyText
  description : PyText
  parameters : PyText
  deriving DecidableEq, Repr

/-- The tools that a request offers, with the canonical name of each provider name. -/
structure OfferedTools where
  payloads : List ToolPayload
  providerNames : List (PyText × PyText)
  deriving DecidableEq, Repr

/-- One definition of `_provider_tools`. -/
def providerTool (rules : ModelRules) (offered : OfferedTools) (tool : MagiToolDefinition) :
    Except AdapterRaise OfferedTools := do
  let invalid := modelError "provider_invalid_tool_definition" false
  raiseIf (¬isToolName tool.name ∨ tool.name ∈ offered.providerNames.map Prod.snd ∨
    PyText.isBlank tool.description ∨ 1024 < tool.description.length ∨
    magiTextHasUnsafeControls tool.description ∨ ¬tool.parameters.isDict ∨
    ¬(tool.parameters.get "type").isText "object") invalid
  let encoded ← orRaise (rules.dumpsSorted tool.parameters) invalid
  let length ← orRaise (PyText.utf8Length? encoded) invalid
  raiseIf (maxToolDefinitionBytes < length) invalid
  let providerName ← openaiToolName tool.name
  raiseIf (providerName ∈ offered.providerNames.map Prod.fst) invalid
  return { payloads := offered.payloads ++ [⟨providerName, tool.description, encoded⟩]
           providerNames := offered.providerNames ++ [(providerName, tool.name)] }

/-- `_provider_tools` -/
def providerTools (rules : ModelRules) (tools : List MagiToolDefinition) :
    Except AdapterRaise OfferedTools := do
  raiseIf (maxToolDefinitions < tools.length) (modelError "provider_invalid_tool_definition" false)
  tools.foldlM (providerTool rules) ⟨[], []⟩

/-- `_safe_text` -/
def safeText (text : Option PyText) : Except AdapterRaise PyText := do
  let text ← orRaise (text.filter fun text => ¬PyText.isBlank text)
    (modelError "provider_empty_response")
  raiseIf (magiTextHasUnsafeControls text) (modelError "provider_unsafe_response")
  validatedUtf8 text maxResponseBytes "response_too_large"
  raiseIf (maxResponseCharacters < text.length) (modelError "response_too_large")
  return text

/-- `_usage` -/
def usage (inputTokens outputTokens cachedTokens : PyJson) : Option MagiModelUsage := do
  return ⟨← inputTokens.count?, ← outputTokens.count?, ← cachedTokens.count?⟩

end Magistrate.Adapters
