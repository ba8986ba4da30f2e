import Magistrate.Gateway.Models.Adapters

/-!
# What an adapter raises

Every raise of an adapter is an error of the boundary: what reading a decoded value
raises is caught by the handler around it.
-/

namespace Magistrate.Adapters

/-- A raise is an error of the boundary. -/
def AdapterRaise.IsModel (raised : AdapterRaise) : Prop := ∃ error, raised = .model error

section Raising

theorem isModel_modelError (code : String) (retryable : Bool) (toolCalls : ℕ) :
    (modelError code retryable toolCalls).IsModel := ⟨_, rfl⟩

/-- A handler turns what it handles into an error of the boundary. -/
theorem raises_handling {α : Type} {handled : List PyRaise} {code : String} {x : Except PyRaise α}
    (hx : Raises (· ∈ handled) x) : Raises AdapterRaise.IsModel (handling handled code x) := by
  cases x with
  | ok a => exact .ok a
  | error raised =>
    rw [handling, if_pos (hx raised rfl)]
    exact .error (isModel_modelError ..)

theorem raises_validatedUtf8 (value : PyText) (maximumBytes : ℕ) (code : String) :
    Raises AdapterRaise.IsModel (validatedUtf8 value maximumBytes code) := by
  refine .bind (.raiseIf (isModel_modelError ..)) fun _ => ?_
  exact .bind (.orRaise _ (isModel_modelError ..)) fun _ => .raiseIf (isModel_modelError ..)

theorem raises_openaiToolName (name : PyText) :
    Raises AdapterRaise.IsModel (openaiToolName name) :=
  .bind (.raiseIf (isModel_modelError ..)) fun _ => .ok _

theorem raises_validatedToolCall (call : MagiModelToolCall) :
    Raises AdapterRaise.IsModel (validatedToolCall call) := by
  refine .bind (.raiseIf (isModel_modelError ..)) fun _ => ?_
  refine .bind (raises_validatedUtf8 _ _ _) fun _ => ?_
  exact .bind (raises_openaiToolName _) fun _ => .ok _

theorem raises_providerTool (rules : ModelRules) (offered : OfferedTools)
    (tool : MagiToolDefinition) :
    Raises AdapterRaise.IsModel (providerTool rules offered tool) := by
  refine .bind (.raiseIf (isModel_modelError ..)) fun _ => ?_
  refine .bind (.orRaise _ (isModel_modelError ..)) fun _ => ?_
  refine .bind (.orRaise _ (isModel_modelError ..)) fun _ => ?_
  refine .bind (.raiseIf (isModel_modelError ..)) fun _ => ?_
  refine .bind (raises_openaiToolName _) fun _ => ?_
  exact .bind (.raiseIf (isModel_modelError ..)) fun _ => .ok _

theorem raises_providerTools (rules : ModelRules) (tools : List MagiToolDefinition) :
    Raises AdapterRaise.IsModel (providerTools rules tools) :=
  .bind (.raiseIf (isModel_modelError ..)) fun _ => .foldlM (raises_providerTool rules) _ _

theorem raises_safeText (text : Option PyText) : Raises AdapterRaise.IsModel (safeText text) := by
  refine .bind (.orRaise _ (isModel_modelError ..)) fun _ => ?_
  refine .bind (.raiseIf (isModel_modelError ..)) fun _ => ?_
  refine .bind (raises_validatedUtf8 _ _ _) fun _ => ?_
  exact .bind (.raiseIf (isModel_modelError ..)) fun _ => .ok _

theorem raises_checkText (text : PyText) :
    Raises AdapterRaise.IsModel (OpenAIMagiModel.checkText text) :=
  .bind (.orRaise _ (isModel_modelError ..)) fun _ => .raiseIf (isModel_modelError ..)

theorem raises_outputItem (item : PyJson) :
    Raises AdapterRaise.IsModel (OpenAIMagiModel.outputItem item) := by
  refine .bind (.orRaise _ (isModel_modelError ..)) fun itemType => .ite (.ok _) (.ite (.ok _) ?_)
  refine .bind (.raiseIf (isModel_modelError ..)) fun _ => ?_
  refine .bind (.orRaise _ (isModel_modelError ..)) fun content => ?_
  refine .bind (.mapM (fun part => ?_) content) fun _ => .ok _
  exact .bind (.raiseIf (isModel_modelError ..)) fun _ => .orRaise _ (isModel_modelError ..)

theorem raises_responseText (output : List PyJson) :
    Raises AdapterRaise.IsModel (OpenAIMagiModel.responseText output) := by
  refine .bind (.mapM raises_outputItem output) fun items => .bind ?_ fun _ => .ok _
  cases OpenAIMagiModel.joinedText (items.flatMap Prod.fst) with
  | none => exact .ok ()
  | some text => exact raises_checkText text

theorem raises_parseCall (offered : OfferedTools) (count : ℕ) (parsed : List MagiModelToolCall)
    (raw : PyJson) :
    Raises AdapterRaise.IsModel (OpenAIMagiModel.parseCall offered count parsed raw) := by
  refine .bind (.orRaise _ (isModel_modelError ..)) fun call => ?_
  refine .bind (.orRaise _ (isModel_modelError ..)) fun name => ?_
  refine .bind (raises_validatedToolCall _) fun _ => ?_
  exact .bind (.raiseIf (isModel_modelError ..)) fun _ => .ok _

theorem Collected.raises_call (offered : OfferedTools) (collected : Collected)
    (id : PyText → PyText) (providerName : PyText) (arguments : Option PyText) :
    Raises AdapterRaise.IsModel (collected.call offered id providerName arguments) := by
  refine .bind (.orRaise _ (isModel_modelError ..)) fun name => ?_
  refine .bind (.orRaise _ (isModel_modelError ..)) fun argumentsJson => ?_
  refine .bind (raises_validatedToolCall _) fun _ => ?_
  exact .bind (.raiseIf (isModel_modelError ..)) fun _ => .ok _

theorem AnthropicMagiModel.raises_block (rules : ModelRules) (offered : OfferedTools)
    (collected : Collected) (value : PyJson) :
    Raises AdapterRaise.IsModel (AnthropicMagiModel.block rules offered collected value) := by
  refine .bind (.raiseIf (isModel_modelError ..)) fun _ => .ite (.ok _) ?_
  cases (value.get "text").text?.filter fun _ => (value.get "type").isText "text" with
  | some text => exact .ok _
  | none =>
    refine .bind (.raiseIf (isModel_modelError ..)) fun _ => ?_
    refine .bind (.orRaise _ (isModel_modelError ..)) fun id => ?_
    refine .bind (.orRaise _ (isModel_modelError ..)) fun providerName => ?_
    exact Collected.raises_call offered collected _ _ _

theorem GoogleMagiModel.raises_part (rules : ModelRules) (requestId : PyText)
    (offered : OfferedTools) (collected : Collected) (value : PyJson × ℕ) :
    Raises AdapterRaise.IsModel
      (GoogleMagiModel.part rules requestId offered collected value) := by
  refine .bind (.raiseIf (isModel_modelError ..)) fun _ => ?_
  cases (value.1.get "text").text? with
  | some text => exact .ok _
  | none =>
    refine .ite (.bind (.raiseIf (isModel_modelError ..)) fun _ => .ok _) ?_
    exact .bind (.orRaise _ (isModel_modelError ..)) fun _ =>
      Collected.raises_call offered collected _ _ _

variable {P : PyRaise → Prop}

theorem PyJson.raises_item (hkey : P .keyError) (htype : P .typeError) (value : PyJson)
    (name : String) : Raises P (value.item name) := by
  cases value with
  | dict fields =>
    cases h : fields.lookup (PyText.of name) with
    | none =>
      simp only [PyJson.item, h]
      exact .error hkey
    | some member =>
      simp only [PyJson.item, h]
      exact .ok member
  | null | bool | int | real | text | list => exact .error htype

theorem PyJson.raises_first (hindex : P .indexError) (hkey : P .keyError) (htype : P .typeError)
    (value : PyJson) : Raises P value.first := by
  cases value with
  | list items =>
    cases items with
    | nil => exact .error hindex
    | cons item items => exact .ok item
  | text value =>
    cases value with
    | nil => exact .error hindex
    | cons code value => exact .ok _
  | dict fields => exact .error hkey
  | null | bool | int | real => exact .error htype

theorem PyJson.raises_length (htype : P .typeError) (value : PyJson) :
    Raises P value.length := by
  cases value with
  | list | text | dict => exact .ok _
  | null | bool | int | real => exact .error htype

theorem OpenAIMagiModel.raises_opened (payload : PyJson) :
    Raises (· ∈ [.valueError, .typeError, .keyError]) (OpenAIMagiModel.opened payload) := by
  refine .bind (PyJson.raises_item (by decide) (by decide) _ _) fun status => ?_
  refine .bind (PyJson.raises_item (by decide) (by decide) _ _) fun output => ?_
  refine .bind (.orRaise _ (by decide)) fun _ => ?_
  exact .bind (.orRaise _ (by decide)) fun _ => .ok _

theorem AnthropicMagiModel.raises_opened (body : PyJson) :
    Raises (· ∈ [.valueError, .keyError, .typeError]) (AnthropicMagiModel.opened body) := by
  refine .bind (PyJson.raises_item (by decide) (by decide) _ _) fun content => ?_
  refine .bind (PyJson.raises_item (by decide) (by decide) _ _) fun stopReason => ?_
  refine .bind (.orRaise _ (by decide)) fun _ => ?_
  exact .bind (.orRaise _ (by decide)) fun _ => .ok _

theorem GoogleMagiModel.raises_opened (body : PyJson) :
    Raises (· ∈ [.valueError, .keyError, .typeError, .indexError])
      (GoogleMagiModel.opened body) := by
  have hitem (value : PyJson) (name : String) :
      Raises (· ∈ [.valueError, .keyError, .typeError, .indexError]) (value.item name) :=
    PyJson.raises_item (by decide) (by decide) _ _
  refine .bind (hitem _ _) fun candidates => ?_
  refine .bind (PyJson.raises_first (by decide) (by decide) (by decide) _) fun candidate => ?_
  refine .bind (hitem _ _) fun finish => .bind (hitem _ _) fun content => ?_
  refine .bind (hitem _ _) fun parts => .bind (PyJson.raises_length (by decide) _) fun count => ?_
  refine .bind (.raiseIf (by decide)) fun _ => .bind (.orRaise _ (by decide)) fun _ => ?_
  exact .bind (.orRaise _ (by decide)) fun _ => .ok _

theorem OpenAIMagiModel.raises_complete (rules : ModelRules) (tools : List MagiToolDefinition)
    (payload : PyJson) :
    Raises AdapterRaise.IsModel (OpenAIMagiModel.complete rules tools payload) := by
  refine .bind (raises_providerTools rules tools) fun offered => ?_
  refine .bind (raises_handling (OpenAIMagiModel.raises_opened payload)) fun opened => ?_
  obtain ⟨status, output⟩ := opened
  refine .bind (.raiseIf ?_) fun _ => .bind (raises_responseText output) fun response => ?_
  · unfold OpenAIMagiModel.incompleteError
    split <;> exact isModel_modelError ..
  · obtain ⟨text, rawCalls⟩ := response
    refine .ite ?_ ?_
    · refine .bind (.raiseIf (isModel_modelError ..)) fun _ => .bind ?_ fun _ => .ok _
      exact .bind (.raiseIf (isModel_modelError ..)) fun _ => .foldlM (raises_parseCall _ _) _ _
    · refine .bind (.orRaise _ (isModel_modelError ..)) fun _ => ?_
      refine .bind (.raiseIf (isModel_modelError ..)) fun _ => ?_
      exact .bind (raises_checkText _) fun _ => .ok _

theorem AnthropicMagiModel.raises_complete (rules : ModelRules) (tools : List MagiToolDefinition)
    (body : PyJson) :
    Raises AdapterRaise.IsModel (AnthropicMagiModel.complete rules tools body) := by
  refine .bind (raises_providerTools rules tools) fun offered => ?_
  refine .bind (raises_handling (AnthropicMagiModel.raises_opened body)) fun opened => ?_
  obtain ⟨content, stopReason⟩ := opened
  refine .bind (.foldlM (AnthropicMagiModel.raises_block rules offered) _ _) fun _ => .ite ?_ ?_
  · exact .bind (.raiseIf (isModel_modelError ..)) fun _ => .ok _
  · refine .bind (.raiseIf (isModel_modelError ..)) fun _ => ?_
    refine .bind (.raiseIf (isModel_modelError ..)) fun _ => ?_
    exact .bind (raises_safeText _) fun _ => .ok _

theorem GoogleMagiModel.raises_complete (rules : ModelRules) (requestId : PyText)
    (tools : List MagiToolDefinition) (body : PyJson) :
    Raises AdapterRaise.IsModel (GoogleMagiModel.complete rules requestId tools body) := by
  refine .bind (raises_providerTools rules tools) fun offered => ?_
  refine .bind (raises_handling (GoogleMagiModel.raises_opened body)) fun opened => ?_
  obtain ⟨parts, finish⟩ := opened
  refine .bind (.foldlM (GoogleMagiModel.raises_part rules requestId offered) _ _) fun _ =>
    .ite ?_ ?_
  · exact .bind (.raiseIf (isModel_modelError ..)) fun _ => .ok _
  · refine .bind (.raiseIf (isModel_modelError ..)) fun _ => ?_
    refine .bind (.raiseIf (isModel_modelError ..)) fun _ => ?_
    exact .bind (raises_safeText _) fun _ => .ok _

/-- No handler is missed: whatever an adapter raises is an error of the boundary. -/
theorem ModelAdapter.raises_complete (rules : ModelRules) (requestId : PyText)
    (tools : List MagiToolDefinition) (response : PyJson) (adapter : ModelAdapter) :
    Raises AdapterRaise.IsModel (adapter.complete rules requestId tools response) := by
  cases adapter with
  | openAI => exact OpenAIMagiModel.raises_complete rules tools response
  | anthropic => exact AnthropicMagiModel.raises_complete rules tools response
  | google => exact GoogleMagiModel.raises_complete rules requestId tools response

end Raising

end Magistrate.Adapters
