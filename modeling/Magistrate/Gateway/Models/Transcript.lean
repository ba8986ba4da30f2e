import Magistrate.Core.Encodings
import Magistrate.Core.JsonDecoder
import Magistrate.Gateway.Models.Contract

/-!
# Transcripts for Anthropic

A transcript is encoded message by message. Every message becomes text or blocks of
the user or the assistant, and joins the message before it when that has its role.
-/

namespace Magistrate.Adapters

/-- The roles of messages; a message of another role is refused. -/
inductive MagiModelRole where
  | user
  | assistant
  | tool
  | other
  deriving DecidableEq, Repr

/-- `MagiModelAttachment` -/
structure MagiModelAttachment where
  filename : PyText
  mediaType : PyText
  content : List UInt8
  deriving DecidableEq, Repr

/-- `MagiModelMessage` -/
structure MagiModelMessage where
  role : MagiModelRole
  content : Option PyText
  toolCalls : List MagiModelToolCall := []
  toolCallId : Option PyText := none
  attachments : List MagiModelAttachment := []
  deriving DecidableEq, Repr

/-- A character of one half of a media type. -/
def isMediaTypeCode (code : ℕ) : Bool :=
  decide (97 ≤ code ∧ code ≤ 122) || decide (48 ≤ code ∧ code ≤ 57) ||
    [0x2E, 0x2B, 0x2D].contains code

/-- `[a-z0-9.+-]+/[a-z0-9.+-]+` -/
def isMediaType (mediaType : PyText) : Bool :=
  let kind := mediaType.takeWhile isMediaTypeCode
  match mediaType.dropWhile isMediaTypeCode with
  | 0x2F :: format => !kind.isEmpty && !format.isEmpty && format.all isMediaTypeCode
  | _ => false

/-- The most bytes of an attachment. -/
def maxAttachmentBytes : ℕ := 25 * 1024 * 1024

/-- The most attachments of a message. -/
def maxAttachments : ℕ := 10

/-- `_encoded_attachment` -/
def encodedAttachment (attachment : MagiModelAttachment) : Except AdapterRaise PyText := do
  raiseIf (attachment.filename = [] ∨ 160 < attachment.filename.length ∨
    attachment.content = [] ∨ maxAttachmentBytes < attachment.content.length ∨
    ¬isMediaType attachment.mediaType) (modelError "provider_invalid_attachment" false)
  return PyText.b64encode attachment.content

namespace AnthropicMagiModel

/-- A block of the content of a message. -/
inductive ContentBlock where
  | text (text : PyText)
  | image (mediaType data : PyText)
  | document (mediaType data title : PyText)
  | toolUse (id name : PyText) (input : PyJson)
  | toolResult (toolUseId content : PyText)

/-- The content of a message: a text by itself, or blocks. -/
inductive MessageContent where
  | text (text : PyText)
  | blocks (blocks : List ContentBlock)

/-- A message of the request. -/
structure Message where
  role : MagiModelRole
  content : MessageContent

/-- The content as blocks. -/
def MessageContent.toBlocks : MessageContent → List ContentBlock
  | text value => [.text value]
  | blocks values => values

/-- The text that stands for a file of text. -/
def fileText (filename text : PyText) : PyText :=
  PyText.of "<attachment name=" ++ filename.asciiQuoted ++ PyText.of ">" ++ text ++
    PyText.of "</attachment>"

/-- A media type of files that are sent as text. -/
def isTextual (mediaType : PyText) : Bool :=
  (PyText.of "text/").isPrefixOf mediaType ||
    ["application/json", "application/xml", "application/javascript"].any
      (PyText.of · == mediaType)

/-- The block of an attachment. -/
def attachmentBlock (attachment : MagiModelAttachment) : Except AdapterRaise ContentBlock := do
  let encoded ← encodedAttachment attachment
  let mediaType := attachment.mediaType
  if (PyText.of "image/").isPrefixOf mediaType ∧ mediaType ≠ PyText.of "image/bmp" then
    return .image mediaType encoded
  else if mediaType = PyText.of "application/pdf" then
    return .document mediaType encoded attachment.filename
  else
    raiseIf (¬isTextual mediaType) (modelError "provider_invalid_attachment" false)
    let text ← orRaise (PyText.decodeUtf8 attachment.content)
      (modelError "provider_invalid_attachment" false)
    return .text (fileText attachment.filename text)

/-- The block of a call, whose arguments are decoded. -/
def toolUse (call : MagiModelToolCall) : Except AdapterRaise ContentBlock := do
  validatedToolCall call
  let name ← openaiToolName call.name
  let input ← orRaise (PyJson.loads call.argumentsJson)
    (modelError "provider_invalid_request" false)
  return .toolUse call.id name input

/-- The role and the content of one message, after calls of the given ids. -/
def encodedMessage (calls : List PyText) (message : MagiModelMessage) :
    Except AdapterRaise Message := do
  let invalid := modelError "provider_invalid_request" false
  if message.role = .tool then
    let toolUseId ← orRaise (message.toolCallId.filter fun id => id ≠ [] ∧ id ∈ calls) invalid
    let content ← orRaise message.content invalid
    return ⟨.user, .blocks [.toolResult toolUseId content]⟩
  else if message.role = .assistant ∧ message.toolCalls ≠ [] then
    let text := (message.content.filter (· ≠ [])).toList.map .text
    let uses ← message.toolCalls.mapM toolUse
    return ⟨.assistant, .blocks (text ++ uses)⟩
  else
    raiseIf (message.role = .other) invalid
    let content ← orRaise message.content invalid
    validatedUtf8 content maxResponseBytes "provider_invalid_request"
    if message.attachments ≠ [] then
      raiseIf (message.role ≠ .user ∨ maxAttachments < message.attachments.length)
        (modelError "provider_invalid_attachment" false)
      let files ← message.attachments.mapM attachmentBlock
      return ⟨message.role, .blocks (.text content :: files)⟩
    else return ⟨message.role, .text content⟩

/-- The ids of the calls that a message adds. -/
def callIds (message : MagiModelMessage) : List PyText :=
  if message.role = .assistant then message.toolCalls.map (·.id) else []

/-- A message joins the last one when that has its role. -/
def join (result : List Message) (message : Message) : List Message :=
  match result.getLast? with
  | none => [message]
  | some last =>
    if last.role = message.role then
      result.dropLast ++
        [{ last with content := .blocks (last.content.toBlocks ++ message.content.toBlocks) }]
    else result ++ [message]

/-- One turn of the loop of `_messages`: what is encoded, and the ids of the calls so far. -/
def encodeNext (encoded : List Message × List PyText) (message : MagiModelMessage) :
    Except AdapterRaise (List Message × List PyText) := do
  let next ← encodedMessage encoded.2 message
  return (join encoded.1 next, encoded.2 ++ callIds message)

/-- `AnthropicMagiModel._messages` -/
def messages (transcript : List MagiModelMessage) : Except AdapterRaise (List Message) := do
  let encoded ← transcript.foldlM encodeNext ([], [])
  return encoded.1

end AnthropicMagiModel

end Magistrate.Adapters
