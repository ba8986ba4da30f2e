import Mathlib.Data.List.Flatten
import Mathlib.Data.List.Nodup
import Magistrate.Gateway.Models.Raises

/-!
# What an adapter returns

The contract that the tool loop relies on: bounded, distinct and offered calls, or
else safe text, none of it from a part that the provider marks as reasoning.
-/

namespace Magistrate.Adapters

/-- A text of a response, and whether the provider marks its part as reasoning. -/
structure ReplyPart where
  text : PyText
  marked : Bool
  deriving DecidableEq, Repr

/-- The texts in an array of parts. -/
def replyTexts (marked : Bool) (parts : PyJson) : List ReplyPart :=
  (parts.list?.getD []).filterMap fun part => (part.get "text").text?.map fun text => ⟨text, marked⟩

/-- The texts of a response: the content and the summary of each item. -/
def OpenAIMagiModel.itemParts (item : PyJson) : List ReplyPart :=
  let marked := (item.get "type").isText "reasoning"
  replyTexts marked (item.get "content") ++ replyTexts marked (item.get "summary")

/-- The texts of a block: its text, or what it thinks. -/
def AnthropicMagiModel.blockParts (block : PyJson) : List ReplyPart :=
  let marked := (block.get "type").isText "thinking" ||
    (block.get "type").isText "redacted_thinking"
  ["text", "thinking"].filterMap fun name => (block.get name).text?.map fun text => ⟨text, marked⟩

/-- The text of a part, which is marked as a thought or not. -/
def GoogleMagiModel.partParts (part : PyJson) : List ReplyPart :=
  (part.get "text").text?.toList.map fun text => ⟨text, (part.get "thought").isTrue⟩

/-- The parts of the only candidate. -/
def GoogleMagiModel.responseParts (response : PyJson) : List PyJson :=
  match GoogleMagiModel.opened response with
  | .ok (parts, _) => parts
  | .error _ => []

/-- The texts of a response. -/
def ModelAdapter.parts (response : PyJson) : ModelAdapter → List ReplyPart
  | openAI => ((response.get "output").list?.getD []).flatMap OpenAIMagiModel.itemParts
  | anthropic => ((response.get "content").list?.getD []).flatMap AnthropicMagiModel.blockParts
  | google => (GoogleMagiModel.responseParts response).flatMap GoogleMagiModel.partParts

/-- A text is made of parts that are not marked, in their order. -/
def Prose (parts : List ReplyPart) (text : PyText) : Prop :=
  ∃ kept : List ReplyPart, kept.Sublist parts ∧ (∀ part ∈ kept, part.marked = false) ∧
    text = (kept.map (·.text)).flatten

/-- A text that may be shown. -/
structure SafeText (text : PyText) : Prop where
  visible : PyText.isBlank text = false
  characters : text.length ≤ maxResponseCharacters
  bytes : ∃ length, PyText.utf8Length? text = some length ∧ length ≤ maxResponseBytes
  controls : magiTextHasUnsafeControls text = false

/-- What the tool loop relies on of a result. -/
structure ResultContract (tools : List MagiToolDefinition) (parts : List ReplyPart)
    (result : MagiModelResult) : Prop where
  bounded : result.toolCalls.length ≤ maxToolCalls
  distinct : (result.toolCalls.map (·.id)).Nodup
  offered : ∀ call ∈ result.toolCalls, ∃ tool ∈ tools, tool.name = call.name
  text : result.toolCalls = [] → ∃ text, result.text = some text ∧ SafeText text
  prose : Prose parts (result.text.getD [])

/-- What the tool loop relies on of an adapter: it raises an error of the boundary, or returns a
result that meets the contract. -/
def AdapterContract (tools : List MagiToolDefinition) (parts : List ReplyPart) :
    Except AdapterRaise MagiModelResult → Prop
  | .error raised => raised.IsModel
  | .ok result => ResultContract tools parts result

/-- The ids of the tool calls of a response. -/
def AnthropicMagiModel.toolUseIds (response : PyJson) : List PyText :=
  ((response.get "content").list?.getD []).filterMap fun block =>
    if (block.get "type").isText "tool_use" then (block.get "id").text? else none

/-- The canonical name of a tool that a provider calls. -/
def canonicalName (tools : List MagiToolDefinition) (providerName : PyText) : Option PyText :=
  (tools.find? fun tool => replaceDots tool.name = providerName).map (·.name)

/-- The id of the call in a part without text. -/
def GoogleMagiModel.partCallId (rules : ModelRules) (requestId : PyText)
    (tools : List MagiToolDefinition) (part : PyJson × ℕ) : Option PyText :=
  if (part.1.get "text").text?.isSome then none
  else (((part.1.get "functionCall").get "name").text?.bind (canonicalName tools)).map
    (GoogleMagiModel.callId rules requestId part.2)

/-- When the result of an adapter meets the contract: no two calls of Anthropic share an id; no
thought of Google has text, and the digests of its calls differ. -/
def ModelAdapter.Clean (rules : ModelRules) (requestId : PyText) (tools : List MagiToolDefinition)
    (response : PyJson) : ModelAdapter → Prop
  | openAI => True
  | anthropic => (AnthropicMagiModel.toolUseIds response).Nodup
  | google => (∀ part ∈ ModelAdapter.google.parts response, part.marked = true → part.text = []) ∧
    ((GoogleMagiModel.responseParts response).zipIdx.filterMap
      (GoogleMagiModel.partCallId rules requestId tools)).Nodup

section Prose

theorem Prose.nil (parts : List ReplyPart) : Prose parts [] :=
  ⟨[], List.nil_sublist parts, by simp, rfl⟩

theorem Prose.append {first second : List ReplyPart} {text rest : PyText} (h : Prose first text)
    (h' : Prose second rest) : Prose (first ++ second) (text ++ rest) := by
  obtain ⟨kept, hkept, hunmarked, rfl⟩ := h
  obtain ⟨kept', hkept', hunmarked', rfl⟩ := h'
  refine ⟨kept ++ kept', hkept.append hkept', ?_, by simp⟩
  simp only [List.mem_append]
  rintro part (hpart | hpart)
  · exact hunmarked part hpart
  · exact hunmarked' part hpart

/-- A response whose items give prose gives prose. -/
theorem Prose.flatMap {α : Type} {parts : α → List ReplyPart} {texts : α → List PyText}
    {items : List α} (h : ∀ item ∈ items, Prose (parts item) (texts item).flatten) :
    Prose (items.flatMap parts) (items.flatMap texts).flatten := by
  induction items with
  | nil => exact .nil _
  | cons item items ih =>
    rw [List.flatMap_cons, List.flatMap_cons, List.flatten_append]
    exact (h item List.mem_cons_self).append
      (ih fun item hitem => h item (List.mem_cons_of_mem _ hitem))

/-- The texts of the marked parts and of the others make up all texts. -/
theorem length_texts (parts : List ReplyPart) :
    (parts.map (·.text)).flatten.length =
      ((parts.filter (!·.marked)).map (·.text)).flatten.length +
        ((parts.filter (·.marked)).map (·.text)).flatten.length := by
  induction parts with
  | nil => rfl
  | cons part parts ih =>
    cases hmarked : part.marked <;> simp [hmarked] at ih ⊢ <;> omega

/-- All texts together are prose exactly when the marked ones are empty. -/
theorem prose_all {parts : List ReplyPart} :
    Prose parts (parts.map (·.text)).flatten ↔
      ∀ part ∈ parts, part.marked = true → part.text = [] := by
  constructor
  · rintro ⟨kept, hkept, hunmarked, htext⟩ part hpart hmarked
    have hself : kept.filter (!·.marked) = kept :=
      List.filter_eq_self.mpr (by simpa using hunmarked)
    have hsub : kept.Sublist (parts.filter (!·.marked)) := hself ▸ hkept.filter _
    have hle := (hsub.map (·.text)).flatten.length_le
    have hlength := length_texts parts
    rw [htext] at hlength
    have hempty : ((parts.filter (·.marked)).map (·.text)).flatten = [] :=
      List.eq_nil_of_length_eq_zero (by omega)
    simp only [List.flatten_eq_nil_iff, List.mem_map, List.mem_filter] at hempty
    exact hempty _ ⟨part, ⟨hpart, hmarked⟩, rfl⟩
  · intro hempty
    induction parts with
    | nil => exact .nil _
    | cons part parts ih =>
      have hrest := ih fun part hpart => hempty part (List.mem_cons_of_mem _ hpart)
      have hpart : Prose [part] part.text := by
        cases hmarked : part.marked with
        | false => exact ⟨[part], .refl _, by simpa using hmarked, by simp⟩
        | true => exact hempty part List.mem_cons_self hmarked ▸ .nil _
      exact hpart.append hrest

end Prose

section Offered

/-- What is offered is what is defined, under the names of the provider. -/
theorem providerTools_names {rules : ModelRules} {tools : List MagiToolDefinition}
    {offered : OfferedTools} (h : providerTools rules tools = .ok offered) :
    offered.providerNames = tools.map fun tool => (replaceDots tool.name, tool.name) := by
  simp only [providerTools, bind_eq_ok, raiseIf_eq_ok, exists_and_left] at h
  obtain ⟨-, u, h⟩ := h
  have happends := foldlM_appends OfferedTools.providerNames
    (fun tool => [(replaceDots tool.name, tool.name)]) (fun offered tool offered' h => ?_) h
  · rw [List.map_eq_flatMap]
    simpa using happends
  · simp only [providerTool, openaiToolName, bind_eq_ok, raiseIf_eq_ok, orRaise_eq_ok,
      pure_eq_ok] at h
    obtain ⟨-, -, -, -, -, -, -, -, -, ⟨-, -, rfl⟩, -, -, rfl⟩ := h
    rfl

theorem lookup_providerNames {rules : ModelRules} {tools : List MagiToolDefinition}
    {offered : OfferedTools} (h : providerTools rules tools = .ok offered) (providerName : PyText) :
    offered.providerNames.lookup providerName = canonicalName tools providerName := by
  rw [providerTools_names h]
  clear h
  induction tools with
  | nil => rfl
  | cons tool tools ih =>
    by_cases hname : replaceDots tool.name = providerName
    · simp [canonicalName, hname]
    · have hne : (providerName == replaceDots tool.name) = false :=
        beq_eq_false_iff_ne.mpr (Ne.symm hname)
      simp only [List.map_cons, List.lookup_cons, hne, ih]
      simp [canonicalName, hname]

theorem canonicalName_mem {tools : List MagiToolDefinition} {providerName name : PyText}
    (h : canonicalName tools providerName = some name) : ∃ tool ∈ tools, tool.name = name := by
  simp only [canonicalName, Option.map_eq_some_iff] at h
  obtain ⟨tool, hfind, rfl⟩ := h
  exact ⟨tool, List.mem_of_find?_eq_some hfind, rfl⟩

end Offered

theorem safeText_ok {text : Option PyText} {safe : PyText} (h : safeText text = .ok safe) :
    text = some safe ∧ SafeText safe := by
  simp only [safeText, validatedUtf8, bind_eq_ok, raiseIf_eq_ok, orRaise_eq_ok, pure_eq_ok,
    Option.filter_eq_some_iff, decide_eq_true_eq, Bool.not_eq_true, Nat.not_lt] at h
  obtain ⟨text, ⟨htext, hblank⟩, -, hcontrols, -, ⟨-, -, length, hlength, hbytes⟩, -, hcharacters,
    rfl⟩ := h
  exact ⟨htext, hblank, hcharacters, ⟨length, hlength, hbytes⟩, hcontrols⟩

/-- What is left of the contract where calls and text are checked. -/
theorem resultContract_iff {tools : List MagiToolDefinition} {parts : List ReplyPart}
    {result : MagiModelResult} (hbounded : result.toolCalls.length ≤ maxToolCalls)
    (hoffered : ∀ call ∈ result.toolCalls, ∃ tool ∈ tools, tool.name = call.name)
    (htext : result.toolCalls = [] → ∃ text, result.text = some text ∧ SafeText text) :
    ResultContract tools parts result ↔
      (result.toolCalls.map (·.id)).Nodup ∧ Prose parts (result.text.getD []) := by
  constructor
  · rintro ⟨-, hdistinct, -, -, hprose⟩
    exact ⟨hdistinct, hprose⟩
  · rintro ⟨hdistinct, hprose⟩
    exact ⟨hbounded, hdistinct, hoffered, htext, hprose⟩

namespace Collected

/-- The calls that are collected are few enough and offered. -/
structure Accepted (tools : List MagiToolDefinition) (collected : Collected) : Prop where
  bounded : collected.calls.length ≤ maxToolCalls
  offered : ∀ call ∈ collected.calls, ∃ tool ∈ tools, tool.name = call.name

/-- What a part of the response adds: its texts, and the id of its call. -/
structure Adds (tools : List MagiToolDefinition) (texts ids : List PyText)
    (collected collected' : Collected) : Prop where
  texts : collected'.texts = collected.texts ++ texts
  ids : collected'.calls.map (·.id) = collected.calls.map (·.id) ++ ids
  accepted : collected.Accepted tools → collected'.Accepted tools

variable {tools : List MagiToolDefinition} {offered : OfferedTools}
  {collected collected' : Collected}

theorem Adds.nothing : Adds tools [] [] collected collected := by
  constructor <;> simp

theorem Adds.text (text : PyText) :
    Adds tools [text] [] collected { collected with texts := collected.texts ++ [text] } := by
  constructor
  · rfl
  · simp
  · exact fun h => ⟨h.bounded, h.offered⟩

/-- A call adds its id, and is one of a tool that is offered. -/
theorem call_ok (hoffered : ∀ name, offered.providerNames.lookup name = canonicalName tools name)
    {id : PyText → PyText} {providerName : PyText} {arguments : Option PyText}
    (h : collected.call offered id providerName arguments = .ok collected') :
    ∃ name, canonicalName tools providerName = some name ∧
      Adds tools [] [id name] collected collected' := by
  simp only [Collected.call, Collected.append, bind_eq_ok, raiseIf_eq_ok, orRaise_eq_ok, pure_eq_ok,
    hoffered, Nat.not_lt] at h
  obtain ⟨name, hname, argumentsJson, -, -, -, -, hbounded, rfl⟩ := h
  refine ⟨name, hname, ?_, ?_, ?_⟩
  · simp
  · simp
  · intro haccepted
    refine ⟨hbounded, ?_⟩
    simp only [List.mem_append, List.mem_singleton]
    rintro call (hcall | rfl)
    · exact haccepted.offered call hcall
    · exact canonicalName_mem hname

/-- A loop over the parts adds what each of them adds. -/
theorem adds_of_foldlM {α : Type} {f : Collected → α → Except AdapterRaise Collected}
    {texts ids : α → List PyText} {parts : List α}
    (hf : ∀ collected part collected', f collected part = .ok collected' →
      Adds tools (texts part) (ids part) collected collected')
    (h : parts.foldlM f ⟨[], []⟩ = .ok collected') :
    collected'.texts = parts.flatMap texts ∧ collected'.calls.map (·.id) = parts.flatMap ids ∧
      collected'.Accepted tools := by
  refine ⟨?_, ?_, ?_⟩
  · exact foldlM_appends Collected.texts texts (fun s part s' h => (hf s part s' h).texts) h
  · exact foldlM_appends (fun c => c.calls.map (·.id)) ids
      (fun s part s' h => (hf s part s' h).ids) h
  · refine foldlM_invariant (fun s part s' hs h => (hf s part s' h).accepted hs) ⟨?_, ?_⟩ h
    · exact Nat.zero_le _
    · simp

theorem text_getD (collected : Collected) : collected.text.getD [] = collected.texts.flatten := by
  unfold Collected.text
  split
  next h => rw [h, Option.getD_none]
  next => rfl

end Collected

/-- A value is one literal only. -/
theorem PyJson.isText_ne {value : PyJson} {literal : String} (other : String)
    (h : value.isText literal = true) (hne : PyText.of literal ≠ PyText.of other) :
    value.isText other = false := by
  have hvalue : value.text? = some (PyText.of literal) := by simpa [PyJson.isText] using h
  simp [PyJson.isText, hvalue, hne]

/-- A member that is there is what `get` reads. -/
theorem PyJson.get_of_item {value member : PyJson} {name : String}
    (h : value.item name = .ok member) : value.get name = member := by
  cases value with
  | dict fields =>
    cases hlookup : fields.lookup (PyText.of name) with
    | none => simp [PyJson.item, hlookup] at h
    | some found =>
      obtain rfl : found = member := by simpa [PyJson.item, hlookup] using h
      simp [PyJson.get, PyJson.getD, hlookup]
  | null | bool | int | real | text | list => cases h

/-- What a handler lets through is what the block returned. -/
theorem handling_eq_ok {α : Type} {handled : List PyRaise} {code : String}
    {x : Except PyRaise α} {a : α} : handling handled code x = .ok a ↔ x = .ok a := by
  cases x <;> simp [handling]

namespace AnthropicMagiModel

variable {rules : ModelRules} {tools : List MagiToolDefinition} {offered : OfferedTools}

/-- The text of a text block. -/
def blockTexts (block : PyJson) : List PyText :=
  ((block.get "text").text?.filter fun _ => (block.get "type").isText "text").toList

/-- The id of a tool call. -/
def blockCallId (block : PyJson) : Option PyText :=
  if (block.get "type").isText "tool_use" then (block.get "id").text? else none

/-- The text of a text block is not marked. -/
theorem blockTexts_prose (block : PyJson) :
    Prose (blockParts block) (blockTexts block).flatten := by
  unfold blockTexts
  cases htext : (block.get "text").text?.filter fun _ => (block.get "type").isText "text" with
  | none => exact .nil _
  | some text =>
    obtain ⟨htext, htype⟩ := Option.filter_eq_some_iff.mp htext
    have hthinking := PyJson.isText_ne "thinking" htype (by decide)
    have hredacted := PyJson.isText_ne "redacted_thinking" htype (by decide)
    refine ⟨[⟨text, false⟩], ?_, by simp, by simp⟩
    simp [blockParts, htext, hthinking, hredacted]

theorem block_ok (hoffered : ∀ name, offered.providerNames.lookup name = canonicalName tools name)
    {collected collected' : Collected} {value : PyJson}
    (h : block rules offered collected value = .ok collected') :
    Collected.Adds tools (blockTexts value) (blockCallId value).toList collected collected' := by
  simp only [block, bind_eq_ok, raiseIf_eq_ok, exists_and_left] at h
  obtain ⟨-, -, h⟩ := h
  split at h
  next hthinking =>
    obtain rfl := pure_eq_ok.mp h
    have htext := PyJson.isText_ne "text" hthinking (by decide)
    have htool := PyJson.isText_ne "tool_use" hthinking (by decide)
    simpa [blockTexts, blockCallId, htext, htool] using Collected.Adds.nothing
  next hthinking =>
    split at h
    next text htext =>
      obtain rfl := pure_eq_ok.mp h
      have htool := PyJson.isText_ne "tool_use"
        (Option.filter_eq_some_iff.mp htext).2 (by decide)
      simpa [blockTexts, blockCallId, htext, htool] using Collected.Adds.text text
    next htext =>
      simp only [bind_eq_ok, raiseIf_eq_ok, orRaise_eq_ok, exists_and_left, not_not] at h
      obtain ⟨htool, -, id, hid, providerName, -, h⟩ := h
      obtain ⟨name, -, hadds⟩ := Collected.call_ok hoffered h
      simpa [blockTexts, blockCallId, htext, htool, hid] using hadds

theorem opened_ok {response : PyJson} {content : List PyJson} {stopReason : PyText}
    (h : opened response = .ok (content, stopReason)) :
    (response.get "content").list? = some content := by
  simp only [opened, bind_eq_ok, orRaise_eq_ok, pure_eq_ok, Prod.mk.injEq] at h
  obtain ⟨value, hvalue, -, -, content, hcontent, -, -, rfl, -⟩ := h
  rw [PyJson.get_of_item hvalue, hcontent]

/-- What comes of the blocks of a response. -/
theorem complete_result {response : PyJson} {result : MagiModelResult}
    (h : complete rules tools response = .ok result) : ∃ offered content collected,
    providerTools rules tools = .ok offered ∧ (response.get "content").list? = some content ∧
      content.foldlM (block rules offered) ⟨[], []⟩ = .ok collected ∧
      result.toolCalls = collected.calls ∧ result.text.getD [] = collected.texts.flatten ∧
      (result.toolCalls = [] → ∃ text, result.text = some text ∧ SafeText text) := by
  simp only [complete, bind_eq_ok, handling_eq_ok] at h
  obtain ⟨offered, htools, ⟨content, stopReason⟩, hopened, collected, hcollected, h⟩ := h
  refine ⟨offered, content, collected, htools, opened_ok hopened, hcollected, ?_⟩
  rw [← Collected.text_getD]
  split at h
  next hcalls =>
    simp only [bind_eq_ok, pure_eq_ok] at h
    obtain ⟨-, -, rfl⟩ := h
    exact ⟨rfl, rfl, fun hnone => absurd hnone hcalls⟩
  next hcalls =>
    simp only [bind_eq_ok, pure_eq_ok] at h
    obtain ⟨-, -, -, -, text, hsafe, rfl⟩ := h
    obtain ⟨htext, hsafe⟩ := safeText_ok hsafe
    exact ⟨(not_ne_iff.mp hcalls).symm, by rw [htext], fun _ => ⟨text, rfl, hsafe⟩⟩

/-- The contract holds of a result exactly when the ids of the response differ. -/
theorem complete_ok {response : PyJson} {result : MagiModelResult}
    (h : complete rules tools response = .ok result) :
    ResultContract tools (ModelAdapter.anthropic.parts response) result ↔
      (toolUseIds response).Nodup := by
  obtain ⟨offered, content, collected, htools, hcontent, hcollected, hcalls, htext, hsafe⟩ :=
    complete_result h
  obtain ⟨htexts, hids, haccepted⟩ := Collected.adds_of_foldlM
    (fun _ _ _ h => block_ok (lookup_providerNames htools) h) hcollected
  have hprose : Prose (ModelAdapter.anthropic.parts response) collected.texts.flatten := by
    rw [htexts]
    simp only [ModelAdapter.parts, hcontent, Option.getD_some]
    exact .flatMap fun block _ => blockTexts_prose block
  have htoolUseIds : collected.calls.map (·.id) = toolUseIds response := by
    rw [hids, ← List.filterMap_eq_flatMap_toList]
    simp only [toolUseIds, hcontent, Option.getD_some]
    rfl
  rw [resultContract_iff (hcalls ▸ haccepted.bounded) (hcalls ▸ haccepted.offered) hsafe,
    hcalls, htext, htoolUseIds]
  exact and_iff_left hprose

end AnthropicMagiModel

namespace GoogleMagiModel

variable {rules : ModelRules} {requestId : PyText} {tools : List MagiToolDefinition}
  {offered : OfferedTools}

/-- The text of a part, marked as a thought or not. -/
def partTexts (part : PyJson) : List PyText := (part.get "text").text?.toList

theorem get_of_isNull {value : PyJson} (h : value.isNull = true) (name : String) :
    value.get name = .null := by
  cases value with
  | null => rfl
  | bool | int | real | text | list | dict => cases h

theorem part_ok (hoffered : ∀ name, offered.providerNames.lookup name = canonicalName tools name)
    {collected collected' : Collected} {value : PyJson × ℕ}
    (h : part rules requestId offered collected value = .ok collected') :
    Collected.Adds tools (partTexts value.1) (partCallId rules requestId tools value).toList
      collected collected' := by
  simp only [part, bind_eq_ok, raiseIf_eq_ok, exists_and_left] at h
  obtain ⟨-, -, h⟩ := h
  split at h
  next text htext =>
    obtain rfl := pure_eq_ok.mp h
    simpa [partTexts, partCallId, htext] using Collected.Adds.text text
  next htext =>
    split at h
    next hnull =>
      simp only [bind_eq_ok, raiseIf_eq_ok, pure_eq_ok, exists_and_left] at h
      obtain ⟨-, -, rfl⟩ := h
      have hname : ((value.1.get "functionCall").get "name").text? = none := by
        rw [get_of_isNull hnull]
        rfl
      simpa [partTexts, partCallId, htext, hname] using Collected.Adds.nothing
    next hnull =>
      simp only [bind_eq_ok, orRaise_eq_ok] at h
      obtain ⟨providerName, hprovider, h⟩ := h
      obtain ⟨name, hname, hadds⟩ := Collected.call_ok hoffered h
      simpa [partTexts, partCallId, htext, hprovider, hname] using hadds

/-- What comes of the parts of a response. -/
theorem complete_result {response : PyJson} {result : MagiModelResult}
    (h : complete rules requestId tools response = .ok result) : ∃ offered collected,
    providerTools rules tools = .ok offered ∧
      (responseParts response).zipIdx.foldlM (part rules requestId offered) ⟨[], []⟩ =
        .ok collected ∧
      result.toolCalls = collected.calls ∧ result.text.getD [] = collected.texts.flatten ∧
      (result.toolCalls = [] → ∃ text, result.text = some text ∧ SafeText text) := by
  simp only [complete, bind_eq_ok, handling_eq_ok] at h
  obtain ⟨offered, htools, ⟨parts, finish⟩, hopened, collected, hcollected, h⟩ := h
  refine ⟨offered, collected, htools, by simpa only [responseParts, hopened] using hcollected, ?_⟩
  rw [← Collected.text_getD]
  split at h
  next hcalls =>
    simp only [bind_eq_ok, pure_eq_ok] at h
    obtain ⟨-, -, rfl⟩ := h
    exact ⟨rfl, rfl, fun hnone => absurd hnone hcalls⟩
  next hcalls =>
    simp only [bind_eq_ok, pure_eq_ok] at h
    obtain ⟨-, -, -, -, text, hsafe, rfl⟩ := h
    obtain ⟨htext, hsafe⟩ := safeText_ok hsafe
    exact ⟨(not_ne_iff.mp hcalls).symm, by rw [htext], fun _ => ⟨text, rfl, hsafe⟩⟩

/-- The texts of a response are those of its parts. -/
theorem partTexts_zipIdx (parts : List PyJson) :
    parts.zipIdx.flatMap (fun part => partTexts part.1) =
      (parts.flatMap partParts).map (·.text) := by
  calc parts.zipIdx.flatMap (fun part => partTexts part.1)
      = (parts.zipIdx.map Prod.fst).flatMap partTexts := (List.flatMap_map ..).symm
    _ = parts.flatMap partTexts := by rw [List.zipIdx_map_fst]
    _ = (parts.flatMap partParts).map (·.text) := by
      rw [List.map_flatMap]
      refine congrArg parts.flatMap (funext fun part => ?_)
      simp [partParts, partTexts, Function.comp_def]

/-- The contract holds of a result exactly when no thought has text and the calls differ. -/
theorem complete_ok {response : PyJson} {result : MagiModelResult}
    (h : complete rules requestId tools response = .ok result) :
    ResultContract tools (ModelAdapter.google.parts response) result ↔
      ModelAdapter.google.Clean rules requestId tools response := by
  obtain ⟨offered, collected, htools, hcollected, hcalls, htext, hsafe⟩ := complete_result h
  obtain ⟨htexts, hids, haccepted⟩ := Collected.adds_of_foldlM
    (fun _ _ _ h => part_ok (lookup_providerNames htools) h) hcollected
  rw [resultContract_iff (hcalls ▸ haccepted.bounded) (hcalls ▸ haccepted.offered) hsafe,
    hcalls, htext, htexts, hids, partTexts_zipIdx, ← List.filterMap_eq_flatMap_toList, and_comm]
  exact and_congr_left' prose_all

end GoogleMagiModel

namespace OpenAIMagiModel

variable {rules : ModelRules} {tools : List MagiToolDefinition} {offered : OfferedTools}

theorem outputText_ok {part : PyJson} {text : PyText} (h : outputText part = .ok text) :
    (part.get "text").text? = some text := by
  simp only [outputText, bind_eq_ok, orRaise_eq_ok] at h
  exact h.choose_spec.2

/-- The texts of the content of a message. -/
theorem replyTexts_of_mapM {parts : PyJson} {content : List PyJson} {texts : List PyText}
    (hparts : parts.list? = some content) (h : content.mapM outputText = .ok texts)
    (marked : Bool) : replyTexts marked parts = texts.map fun text => ⟨text, marked⟩ := by
  rw [replyTexts, hparts, Option.getD_some]
  have hall := mapM_forall₂ h
  clear h hparts
  induction hall with
  | nil => rfl
  | cons hpart _ ih => simpa [outputText_ok hpart] using ih

/-- Reasoning adds nothing to the text, and a message its parts. -/
theorem outputItem_prose {item : PyJson} {texts : List PyText} {calls : List PyJson}
    (h : outputItem item = .ok (texts, calls)) : Prose (itemParts item) texts.flatten := by
  simp only [outputItem, bind_eq_ok, orRaise_eq_ok] at h
  obtain ⟨itemType, htype, h⟩ := h
  split at h
  · cases h
    exact .nil _
  split at h
  · cases h
    exact .nil _
  next hreasoning =>
    simp only [bind_eq_ok, raiseIf_eq_ok, orRaise_eq_ok, pure_eq_ok, Prod.mk.injEq] at h
    obtain ⟨-, -, content, hcontent, texts, htexts, rfl, -⟩ := h
    have hmarked : (item.get "type").isText "reasoning" = false := by
      simpa [PyJson.isText, htype] using hreasoning
    refine ⟨texts.map fun text => ⟨text, false⟩, ?_, by simp, by simp [Function.comp_def]⟩
    simp [itemParts, hmarked, replyTexts_of_mapM hcontent htexts]

theorem joinedText_getD (texts : List PyText) : (joinedText texts).getD [] = texts.flatten := by
  unfold joinedText
  split
  next h => rw [h, Option.getD_none, List.flatten_nil]
  next => rfl

/-- The text of a response is prose. -/
theorem responseText_prose {output : List PyJson} {text : Option PyText} {rawCalls : List PyJson}
    (h : responseText output = .ok (text, rawCalls)) :
    Prose (output.flatMap itemParts) (text.getD []) := by
  simp only [responseText, bind_eq_ok, pure_eq_ok, Prod.mk.injEq] at h
  obtain ⟨items, hitems, -, -, rfl, -⟩ := h
  rw [joinedText_getD]
  have hall := mapM_forall₂ hitems
  clear hitems
  induction hall with
  | nil => exact .nil _
  | cons hitem _ ih =>
    rw [List.flatMap_cons, List.flatMap_cons, List.flatten_append]
    exact (outputItem_prose hitem).append ih

/-- One call has an id of its own. -/
theorem parseCall_ok (hoffered : ∀ name, offered.providerNames.lookup name =
    canonicalName tools name)
    {count : ℕ} {parsed parsed' : List MagiModelToolCall} {raw : PyJson}
    (h : parseCall offered count parsed raw = .ok parsed') : ∃ call, parsed' = parsed ++ [call] ∧
      call.id ∉ parsed.map (·.id) ∧ ∃ tool ∈ tools, tool.name = call.name := by
  simp only [parseCall, bind_eq_ok, raiseIf_eq_ok, orRaise_eq_ok, pure_eq_ok, hoffered] at h
  obtain ⟨⟨id, providerName, arguments⟩, -, name, hname, -, -, -, hfresh, rfl⟩ := h
  exact ⟨_, rfl, hfresh, canonicalName_mem hname⟩

/-- Calls with ids of their own, each of a tool that is offered. -/
structure DistinctCalls (tools : List MagiToolDefinition) (calls : List MagiModelToolCall) :
    Prop where
  distinct : (calls.map (·.id)).Nodup
  offered : ∀ call ∈ calls, ∃ tool ∈ tools, tool.name = call.name

theorem DistinctCalls.append {calls : List MagiModelToolCall} {call : MagiModelToolCall}
    (h : DistinctCalls tools calls) (hfresh : call.id ∉ calls.map (·.id))
    (htool : ∃ tool ∈ tools, tool.name = call.name) : DistinctCalls tools (calls ++ [call]) := by
  constructor
  · rw [List.map_append, List.map_singleton, ← List.concat_eq_append, List.nodup_concat]
    exact ⟨hfresh, h.distinct⟩
  · rw [List.forall_mem_append]
    exact ⟨h.offered, by simpa using htool⟩

/-- The calls of a response are few, distinct and offered. -/
theorem parseResponseToolCalls_ok
    (hoffered : ∀ name, offered.providerNames.lookup name = canonicalName tools name)
    {rawCalls : List PyJson} {calls : List MagiModelToolCall}
    (h : parseResponseToolCalls offered rawCalls = .ok calls) :
    calls.length = rawCalls.length ∧ 1 ≤ rawCalls.length ∧ rawCalls.length ≤ maxToolCalls ∧
      DistinctCalls tools calls := by
  simp only [parseResponseToolCalls, bind_eq_ok, raiseIf_eq_ok, not_not, exists_and_left] at h
  obtain ⟨hcount, -, hcalls⟩ := h
  refine ⟨?_, hcount.1, hcount.2, ?_⟩
  · have hone := foldlM_appends (List.map fun _ => ()) (fun _ => [()])
      (fun _ _ _ hcall => ?_) hcalls
    · rw [← List.map_eq_flatMap] at hone
      simpa using congrArg List.length hone
    · obtain ⟨call, rfl, -⟩ := parseCall_ok hoffered hcall
      rw [List.map_append, List.map_singleton]
  · refine foldlM_invariant (fun parsed raw parsed' hparsed hcall => ?_) ?_ hcalls
    · obtain ⟨call, rfl, hfresh, htool⟩ := parseCall_ok hoffered hcall
      exact hparsed.append hfresh htool
    · exact ⟨List.nodup_nil, by simp⟩

theorem opened_ok {response : PyJson} {output : List PyJson} {status : PyText}
    (h : opened response = .ok (status, output)) :
    (response.get "output").list? = some output := by
  simp only [opened, bind_eq_ok, orRaise_eq_ok, pure_eq_ok, Prod.mk.injEq] at h
  obtain ⟨-, -, value, hvalue, -, -, output, houtput, -, rfl⟩ := h
  rw [PyJson.get_of_item hvalue, houtput]

/-- The contract holds of every result. -/
theorem complete_ok {response : PyJson} {result : MagiModelResult}
    (h : complete rules tools response = .ok result) :
    ResultContract tools (ModelAdapter.openAI.parts response) result := by
  simp only [complete, bind_eq_ok, handling_eq_ok, raiseIf_eq_ok] at h
  obtain ⟨offered, htools, ⟨status, output⟩, hopened, -, -, ⟨text, rawCalls⟩, hresponse, h⟩ := h
  have hprose : Prose (ModelAdapter.openAI.parts response) (text.getD []) := by
    simp only [ModelAdapter.parts, opened_ok hopened, Option.getD_some]
    exact responseText_prose hresponse
  split at h
  · simp only [bind_eq_ok, pure_eq_ok, raiseIf_eq_ok] at h
    obtain ⟨-, -, calls, hcalls, rfl⟩ := h
    obtain ⟨hlength, hone, hfour, hdistinct⟩ :=
      parseResponseToolCalls_ok (lookup_providerNames htools) hcalls
    refine ⟨hlength ▸ hfour, hdistinct.distinct, hdistinct.offered, fun hnone => ?_, hprose⟩
    obtain rfl : calls = [] := hnone
    exact absurd hone (by simp [← hlength])
  · simp only [checkText, bind_eq_ok, pure_eq_ok, raiseIf_eq_ok, orRaise_eq_ok,
      Option.filter_eq_some_iff, decide_eq_true_eq, Bool.not_eq_true, not_or, Nat.not_lt] at h
    obtain ⟨text, ⟨rfl, hblank⟩, -, hcontrols, -, ⟨length, hbytes, hcharacters, hlength⟩, rfl⟩ := h
    refine ⟨Nat.zero_le _, List.nodup_nil, by simp, fun _ => ⟨text, rfl, ?_⟩, hprose⟩
    exact ⟨hblank, hcharacters, ⟨length, hbytes, hlength⟩, hcontrols⟩

end OpenAIMagiModel

/-- An adapter meets its contract exactly when it raises, or no thought of the response is taken for
prose and its calls have ids of their own. -/
theorem model_adapter_contract (rules : ModelRules) (requestId : PyText)
    (tools : List MagiToolDefinition) (response : PyJson) (adapter : ModelAdapter) :
    AdapterContract tools (adapter.parts response)
        (adapter.complete rules requestId tools response) ↔
      (∃ raised, adapter.complete rules requestId tools response = .error raised) ∨
        adapter.Clean rules requestId tools response := by
  cases h : adapter.complete rules requestId tools response with
  | error raised =>
    have hmodel : raised.IsModel := adapter.raises_complete rules requestId tools response raised h
    exact iff_of_true hmodel (.inl ⟨raised, rfl⟩)
  | ok result =>
    have hclean : ResultContract tools (adapter.parts response) result ↔
        adapter.Clean rules requestId tools response := by
      cases adapter with
      | openAI => exact iff_of_true (OpenAIMagiModel.complete_ok h) trivial
      | anthropic => exact AnthropicMagiModel.complete_ok h
      | google => exact GoogleMagiModel.complete_ok h
    exact hclean.trans (or_iff_right (by simp)).symm

section Responses

/-- The encodings of the objects below. -/
def responseRules : ModelRules where
  dumps
    | .dict [] => some (PyText.of "\x7b\x7d")
    | _ => none
  dumpsSorted
    | .dict [(_, .text _)] => some (PyText.of "\x7b\"type\":\"object\"\x7d")
    | _ => none
  callDigest _ _ _ := PyText.of "0123456789abcdef01234567"

/-- A tool without parameters. -/
def submitTool : MagiToolDefinition where
  name := PyText.of "firstmate.submit_objective"
  description := PyText.of "Submit exactly one actionable engineering objective."
  parameters := .dict [(PyText.of "type", .text (PyText.of "object"))]

/-- A call of the tool. -/
def submitBlock : PyJson :=
  .dict [(PyText.of "type", .text (PyText.of "tool_use")),
    (PyText.of "id", .text (PyText.of "toolu_1")),
    (PyText.of "name", .text (PyText.of "firstmate__submit_objective")),
    (PyText.of "input", .dict [])]

/-- A response with the call, as often as the blocks say. -/
def submitResponse (blocks : List PyJson) : PyJson :=
  .dict [(PyText.of "content", .list blocks),
    (PyText.of "stop_reason", .text (PyText.of "tool_use"))]

/-- A response whose only part is a thought. -/
def thoughtResponse : PyJson :=
  .dict [(PyText.of "candidates", .list [.dict [
    (PyText.of "finishReason", .text (PyText.of "STOP")),
    (PyText.of "content", .dict [(PyText.of "parts", .list [.dict [
      (PyText.of "text", .text (PyText.of "private")), (PyText.of "thought", .bool true)]])])]])]

/-- One call is returned under the contract. -/
theorem model_adapter_contract_one_call : ∃ result,
    ModelAdapter.anthropic.complete responseRules [] [submitTool] (submitResponse [submitBlock]) =
      .ok result ∧
    ResultContract [submitTool] (ModelAdapter.anthropic.parts (submitResponse [submitBlock]))
      result :=
  ⟨_, rfl, (model_adapter_contract responseRules [] [submitTool] (submitResponse [submitBlock])
    .anthropic).mpr (.inr (List.nodup_singleton (PyText.of "toolu_1")))⟩

/-- Two calls of one id are returned as two, and a thought as the answer. -/
theorem model_adapter_contract_broken :
    (∃ result, ModelAdapter.anthropic.complete responseRules [] [submitTool]
        (submitResponse [submitBlock, submitBlock]) = .ok result ∧
      ¬ResultContract [submitTool]
        (ModelAdapter.anthropic.parts (submitResponse [submitBlock, submitBlock])) result) ∧
    ∃ result, ModelAdapter.google.complete responseRules [] [] thoughtResponse = .ok result ∧
      ¬ResultContract [] (ModelAdapter.google.parts thoughtResponse) result := by
  refine ⟨⟨_, rfl, fun h => absurd h.distinct (by decide)⟩, ⟨_, rfl, fun h => ?_⟩⟩
  have hempty := prose_all.mp h.prose ⟨PyText.of "private", true⟩ List.mem_cons_self rfl
  exact absurd hempty (by decide)

end Responses

end Magistrate.Adapters
