import Mathlib.Data.List.Chain
import Mathlib.Data.List.Flatten
import Magistrate.Gateway.Models.Transcript

/-!
# What Anthropic is sent of a transcript

The encoded messages alternate, and every result names a call before it. They carry
all parts of a transcript, in order, if no message has parts that its branch of the
encoder does not look at.
-/

namespace Magistrate.Adapters

/-- What a message of a transcript holds. -/
inductive TranscriptPart where
  | text (text : PyText)
  | attachment (attachment : MagiModelAttachment)
  | toolCall (call : MagiModelToolCall)
  | toolResult (toolCallId content : PyText)
  deriving DecidableEq, Repr

namespace MagiModelMessage

variable (message : MagiModelMessage)

/-- The role under which a message is sent: results are the user's. -/
def sentRole : MagiModelRole := if message.role = .tool then .user else message.role

/-- The result or the text of a message; an empty text beside calls is none. -/
def opening : List TranscriptPart :=
  if message.role = .tool then
    (message.toolCallId.bind fun id => message.content.map (.toolResult id)).toList
  else if message.role = .assistant ∧ message.toolCalls ≠ [] then
    (message.content.filter (· ≠ [])).toList.map .text
  else message.content.toList.map .text

/-- All that a message holds. -/
def parts : List TranscriptPart :=
  message.opening ++ (message.attachments.map .attachment ++ message.toolCalls.map .toolCall)

/-- What the encoder looks at. -/
def sentParts : List TranscriptPart :=
  message.opening ++
    (if message.role = .tool then []
    else if message.role = .assistant ∧ message.toolCalls ≠ [] then message.toolCalls.map .toolCall
    else message.attachments.map .attachment)

/-- Only the assistant calls tools, and attachments come neither with calls nor with results. -/
def Shaped : Prop :=
  (message.role ≠ .assistant → message.toolCalls = []) ∧
    (message.role = .tool ∨ message.toolCalls ≠ [] → message.attachments = [])

instance : Decidable message.Shaped := inferInstanceAs (Decidable (_ ∧ _))

theorem sentParts_sublist : message.sentParts.Sublist message.parts := by
  unfold sentParts parts
  refine List.Sublist.append_left ?_ _
  split_ifs
  · exact List.nil_sublist _
  · exact List.sublist_append_right _ _
  · exact List.sublist_append_left _ _

/-- A message is sent whole exactly when it has the shape of one. -/
theorem sentParts_eq_iff : message.sentParts = message.parts ↔ message.Shaped := by
  unfold sentParts parts Shaped
  rw [List.append_cancel_left_eq]
  by_cases htool : message.role = .tool
  · simp [htool, and_comm]
  · by_cases hcalls : message.toolCalls = []
    · simp [htool, hcalls]
    · by_cases hrole : message.role = .assistant
      · simp [hcalls, hrole]
      · simp [htool, hcalls, hrole]

/-- The parts of a message, each under the role of the message. -/
def underRole (parts : List TranscriptPart) : List (MagiModelRole × TranscriptPart) :=
  parts.map (message.sentRole, ·)

end MagiModelMessage

namespace AnthropicMagiModel

/-- The block carries the part: bytes can be decoded from it, and its name and its input are
those of the call. An image has no title. -/
inductive ContentBlock.Carries : ContentBlock → TranscriptPart → Prop where
  | text (value : PyText) : Carries (.text value) (.text value)
  | image {file : MagiModelAttachment} {data : PyText} (h : PyText.b64decode data = file.content) :
      Carries (.image file.mediaType data) (.attachment file)
  | document {file : MagiModelAttachment} {data : PyText}
      (h : PyText.b64decode data = file.content) :
      Carries (.document file.mediaType data file.filename) (.attachment file)
  | file {file : MagiModelAttachment} {text : PyText}
      (h : PyText.decodeUtf8 file.content = some text) :
      Carries (.text (fileText file.filename text)) (.attachment file)
  | toolUse {call : MagiModelToolCall} {input : PyJson}
      (h : PyJson.loads call.argumentsJson = some input) :
      Carries (.toolUse call.id (replaceDots call.name) input) (.toolCall call)
  | toolResult (id content : PyText) : Carries (.toolResult id content) (.toolResult id content)

/-- The block carries the part, under its role. -/
def Carried (block : MagiModelRole × ContentBlock) (part : MagiModelRole × TranscriptPart) : Prop :=
  block.1 = part.1 ∧ block.2.Carries part.2

/-- The blocks of a message, each under its role. -/
def Message.flattened (message : Message) : List (MagiModelRole × ContentBlock) :=
  message.content.toBlocks.map (message.role, ·)

/-- The blocks of the encoded messages, each under its role. -/
def flattened (encoded : List Message) : List (MagiModelRole × ContentBlock) :=
  encoded.flatMap Message.flattened

/-- The parts of a transcript, each under its role. -/
def transcriptParts (transcript : List MagiModelMessage) : List (MagiModelRole × TranscriptPart) :=
  transcript.flatMap fun message => message.underRole message.parts

/-- Messages of the user and the assistant take turns. -/
structure Alternates (encoded : List Message) : Prop where
  known : ∀ role ∈ encoded.map (·.role), role = .user ∨ role = .assistant
  turns : (encoded.map (·.role)).IsChain (· ≠ ·)

/-- A call of the id is among the blocks. -/
def Calls (blocks : List (MagiModelRole × ContentBlock)) (id : PyText) : Prop :=
  ∃ role name input, (role, ContentBlock.toolUse id name input) ∈ blocks

/-- Every result names a call before it. -/
def ResultsNamed (blocks : List (MagiModelRole × ContentBlock)) : Prop :=
  ∀ earlier role id content later,
    blocks = earlier ++ (role, .toolResult id content) :: later → Calls earlier id

/-- What is sent of a transcript is the whole transcript. -/
structure Lossless (transcript : List MagiModelMessage) (encoded : List Message) : Prop where
  alternates : Alternates encoded
  carried : List.Forall₂ Carried (flattened encoded) (transcriptParts transcript)
  named : ResultsNamed (flattened encoded)

section Join

theorem join_concat (result : List Message) (last message : Message) :
    join (result ++ [last]) message = result ++
      if last.role = message.role then
        [{ last with content := .blocks (last.content.toBlocks ++ message.content.toBlocks) }]
      else [last, message] := by
  unfold join
  split_ifs <;> simp_all

/-- Joining messages keeps their blocks. -/
theorem flattened_join (result : List Message) (message : Message) :
    flattened (join result message) = flattened result ++ message.flattened := by
  obtain rfl | ⟨result, last, rfl⟩ := result.eq_nil_or_concat'
  · simp [join, flattened]
  · rw [join_concat]
    split_ifs with hrole
    · simp [flattened, Message.flattened, MessageContent.toBlocks, hrole]
    · simp [flattened]

/-- A message that does not join the last one has another role. -/
theorem Alternates.join {result : List Message} {message : Message} (h : Alternates result)
    (hrole : message.role = .user ∨ message.role = .assistant) :
    Alternates (join result message) := by
  obtain rfl | ⟨result, last, rfl⟩ := result.eq_nil_or_concat'
  · exact ⟨by simpa [AnthropicMagiModel.join] using hrole, .singleton _⟩
  · obtain ⟨hknown, hturns⟩ := h
    rw [List.map_append] at hknown hturns
    rw [join_concat]
    split_ifs with hsame
    · exact ⟨by rwa [List.map_append], by rwa [List.map_append]⟩
    · constructor
      · intro role hmem
        rw [List.map_append, List.map_cons, List.append_cons, List.mem_append] at hmem
        rcases hmem with hmem | hmem
        · exact hknown role hmem
        · rwa [List.mem_singleton.mp hmem]
      · rw [List.map_append]
        exact List.isChain_append_cons_cons.mpr ⟨hturns, hsame, .singleton _⟩

/-- Calls stay when blocks are added. -/
theorem Calls.append {blocks : List (MagiModelRole × ContentBlock)} {id : PyText}
    (h : Calls blocks id) (more : List (MagiModelRole × ContentBlock)) :
    Calls (blocks ++ more) id := by
  obtain ⟨role, name, input, hcall⟩ := h
  exact ⟨role, name, input, List.mem_append_left _ hcall⟩

/-- Added results may name the calls of all blocks so far. -/
theorem ResultsNamed.append {blocks more : List (MagiModelRole × ContentBlock)}
    (h : ResultsNamed blocks)
    (hmore : ∀ role id content, (role, .toolResult id content) ∈ more → Calls blocks id) :
    ResultsNamed (blocks ++ more) := by
  intro earlier role id content later heq
  obtain ⟨between, rfl, hmid⟩ | ⟨between, hblocks, hmid⟩ := List.append_eq_append_iff.mp heq
  · have hmem : (role, ContentBlock.toolResult id content) ∈ more :=
      hmid ▸ List.mem_append_right _ List.mem_cons_self
    exact (hmore role id content hmem).append between
  · cases between with
    | nil =>
      have hmem : (role, ContentBlock.toolResult id content) ∈ [] ++ more :=
        hmid ▸ List.mem_cons_self
      have hcalls := hmore role id content hmem
      rwa [hblocks, List.append_nil] at hcalls
    | cons head between =>
      obtain ⟨rfl, -⟩ := List.cons_eq_cons.mp hmid
      exact h earlier role id content between hblocks

end Join

section Parts

/-- The block of an attachment carries it. -/
theorem carries_attachmentBlock {file : MagiModelAttachment} {block : ContentBlock}
    (h : attachmentBlock file = .ok block) : block.Carries (.attachment file) := by
  unfold attachmentBlock at h
  obtain ⟨encoded, hencoded, h⟩ := bind_eq_ok.mp h
  have hdata : PyText.b64decode encoded = file.content := by
    simp only [encodedAttachment, bind_eq_ok, pure_eq_ok] at hencoded
    obtain ⟨-, -, rfl⟩ := hencoded
    exact PyText.b64decode_b64encode file.content
  simp only at h
  split_ifs at h
  · exact pure_eq_ok.mp h ▸ .image hdata
  · exact pure_eq_ok.mp h ▸ .document hdata
  · obtain ⟨-, -, text, htext, h⟩ := by simpa only [bind_eq_ok] using h
    exact pure_eq_ok.mp h ▸ .file (orRaise_eq_ok.mp htext)

/-- The block of a call carries it. -/
theorem carries_toolUse {call : MagiModelToolCall} {block : ContentBlock}
    (h : toolUse call = .ok block) : block.Carries (.toolCall call) := by
  simp only [toolUse, openaiToolName, bind_eq_ok, raiseIf_eq_ok, orRaise_eq_ok, pure_eq_ok] at h
  obtain ⟨-, -, -, ⟨-, -, rfl⟩, input, hinput, rfl⟩ := h
  exact .toolUse hinput

/-- Blocks that carry parts carry them under a common role. -/
theorem carried_map {blocks : List ContentBlock} {parts : List TranscriptPart}
    (role : MagiModelRole) (h : List.Forall₂ ContentBlock.Carries blocks parts) :
    List.Forall₂ Carried (blocks.map (role, ·)) (parts.map (role, ·)) := by
  rw [List.forall₂_map_left_iff, List.forall₂_map_right_iff]
  exact h.imp fun _ _ hcarries => ⟨rfl, hcarries⟩

/-- What is encoded of a message: it is the user's or the assistant's and carries what the encoder
looks at, and a result is the result of one of the calls. -/
structure Encodes (calls : List PyText) (message : MagiModelMessage) (next : Message) : Prop where
  known : next.role = .user ∨ next.role = .assistant
  carried : List.Forall₂ Carried next.flattened (message.underRole message.sentParts)
  called : message.role = .tool → ∀ id ∈ message.toolCallId, id ∈ calls

/-- A result is sent as the user's. -/
theorem encodes_result {calls : List PyText} {message : MagiModelMessage} {id content : PyText}
    (hrole : message.role = .tool) (hid : message.toolCallId = some id) (hcalls : id ∈ calls)
    (hcontent : message.content = some content) :
    Encodes calls message ⟨.user, .blocks [.toolResult id content]⟩ := by
  have hparts : message.sentParts = [.toolResult id content] := by
    simp [MagiModelMessage.sentParts, MagiModelMessage.opening, hrole, hid, hcontent]
  have hsent : message.sentRole = .user := by simp [MagiModelMessage.sentRole, hrole]
  refine ⟨.inl rfl, ?_, fun _ other hother => ?_⟩
  · rw [MagiModelMessage.underRole, hparts, hsent]
    exact carried_map .user (.cons (.toolResult id content) .nil)
  · rwa [← Option.some.inj (hid.symm.trans hother)]

/-- A message with calls is sent as its text, if there is any, and its calls. -/
theorem encodes_calls {calls : List PyText} {message : MagiModelMessage} {uses : List ContentBlock}
    (hrole : message.role = .assistant) (hcalls : message.toolCalls ≠ [])
    (huses : message.toolCalls.mapM toolUse = .ok uses) :
    Encodes calls message ⟨.assistant,
      .blocks ((message.content.filter (· ≠ [])).toList.map .text ++ uses)⟩ := by
  have hparts : message.sentParts = (message.content.filter (· ≠ [])).toList.map .text ++
      message.toolCalls.map .toolCall := by
    simp [MagiModelMessage.sentParts, MagiModelMessage.opening, hrole, hcalls]
  have hsent : message.sentRole = .assistant := by simp [MagiModelMessage.sentRole, hrole]
  refine ⟨.inr rfl, ?_, fun htool => by simp [hrole] at htool⟩
  rw [MagiModelMessage.underRole, hparts, hsent]
  refine carried_map .assistant (List.rel_append ?_ ?_)
  · rw [List.forall₂_map_left_iff, List.forall₂_map_right_iff]
    exact List.forall₂_same.mpr fun text _ => .text text
  · rw [List.forall₂_map_right_iff]
    exact ((mapM_forall₂ huses).imp fun _ _ => carries_toolUse).flip

/-- Another message is sent as its text and its attachments. -/
theorem encodes_text {calls : List PyText} {message : MagiModelMessage} {content : PyText}
    {files : List ContentBlock} (hrole : message.role = .user ∨ message.role = .assistant)
    (hcalls : ¬(message.role = .assistant ∧ message.toolCalls ≠ []))
    (hcontent : message.content = some content)
    (hfiles : message.attachments.mapM attachmentBlock = .ok files) :
    Encodes calls message ⟨message.role, .blocks (.text content :: files)⟩ := by
  have htool : message.role ≠ .tool := by rcases hrole with hrole | hrole <;> simp [hrole]
  have hparts : message.sentParts = .text content :: message.attachments.map .attachment := by
    simp [MagiModelMessage.sentParts, MagiModelMessage.opening, htool, hcalls, hcontent]
  have hsent : message.sentRole = message.role := by simp [MagiModelMessage.sentRole, htool]
  refine ⟨hrole, ?_, fun h => absurd h htool⟩
  rw [MagiModelMessage.underRole, hparts, hsent]
  refine carried_map message.role (.cons (.text content) ?_)
  rw [List.forall₂_map_right_iff]
  exact ((mapM_forall₂ hfiles).imp fun _ _ => carries_attachmentBlock).flip

/-- A text by itself is the block of it. -/
theorem Encodes.text {calls : List PyText} {message : MagiModelMessage} {role : MagiModelRole}
    {content : PyText} (h : Encodes calls message ⟨role, .blocks [.text content]⟩) :
    Encodes calls message ⟨role, .text content⟩ := ⟨h.known, h.carried, h.called⟩

/-- What the encoder makes of a message. -/
theorem encodes_encodedMessage {calls : List PyText} {message : MagiModelMessage} {next : Message}
    (h : encodedMessage calls message = .ok next) : Encodes calls message next := by
  unfold encodedMessage at h
  simp only at h
  split_ifs at h with htool hcalls hfiles
  · simp only [bind_eq_ok, orRaise_eq_ok, pure_eq_ok] at h
    obtain ⟨id, hid, content, hcontent, rfl⟩ := h
    obtain ⟨hid, hmem⟩ := Option.filter_eq_some_iff.mp hid
    exact encodes_result htool hid (by simpa using (of_decide_eq_true hmem).2) hcontent
  · simp only [bind_eq_ok, pure_eq_ok] at h
    obtain ⟨uses, huses, rfl⟩ := h
    exact encodes_calls hcalls.1 hcalls.2 huses
  · simp only [bind_eq_ok, raiseIf_eq_ok, orRaise_eq_ok, pure_eq_ok] at h
    obtain ⟨-, hother, content, hcontent, -, -, -, -, files, hfiles, rfl⟩ := h
    refine encodes_text ?_ hcalls hcontent hfiles
    cases hrole : message.role <;> simp_all
  · simp only [bind_eq_ok, raiseIf_eq_ok, orRaise_eq_ok, pure_eq_ok] at h
    obtain ⟨-, hother, content, hcontent, -, -, rfl⟩ := h
    have hnone : message.attachments.mapM attachmentBlock = .ok [] := by
      rw [not_not.mp hfiles]
      rfl
    refine (encodes_text ?_ hcalls hcontent hnone).text
    cases hrole : message.role <;> simp_all

/-- A carried part is the part of some block, and a block that carries something some part's. -/
theorem exists_carried {blocks : List (MagiModelRole × ContentBlock)}
    {parts : List (MagiModelRole × TranscriptPart)} (h : List.Forall₂ Carried blocks parts) :
    (∀ block ∈ blocks, ∃ part ∈ parts, Carried block part) ∧
      ∀ part ∈ parts, ∃ block ∈ blocks, Carried block part := by
  induction h with
  | nil => simp
  | cons hfirst _ ih =>
    simp only [List.forall_mem_cons, List.exists_mem_cons_iff]
    exact ⟨⟨.inl hfirst, fun block hblock => .inr (ih.1 block hblock)⟩,
      .inl hfirst, fun part hpart => .inr (ih.2 part hpart)⟩

/-- Only a message of a tool has a result, which is that of its call. -/
theorem toolCallId_of_mem_sentParts {message : MagiModelMessage} {id content : PyText}
    (h : .toolResult id content ∈ message.sentParts) :
    message.role = .tool ∧ message.toolCallId = some id := by
  unfold MagiModelMessage.sentParts MagiModelMessage.opening at h
  split_ifs at h with htool hcalls
  · simp only [List.append_nil, Option.mem_toList, Option.bind_eq_some_iff,
      Option.map_eq_some_iff, TranscriptPart.toolResult.injEq] at h
    obtain ⟨_, hid, _, -, rfl, -⟩ := h
    exact ⟨htool, hid⟩
  · simp at h
  · simp at h

theorem Encodes.named {calls : List PyText} {message : MagiModelMessage} {next : Message}
    (h : Encodes calls message next) {role : MagiModelRole} {id content : PyText}
    (hmem : (role, .toolResult id content) ∈ next.flattened) : id ∈ calls := by
  obtain ⟨_, hpart, hcarried⟩ := (exists_carried h.carried).1 _ hmem
  obtain ⟨part, hsent, rfl⟩ := List.mem_map.mp hpart
  cases hcarried.2 with
  | toolResult =>
    obtain ⟨htool, hid⟩ := toolCallId_of_mem_sentParts hsent
    exact h.called htool id hid

theorem Encodes.calls {calls : List PyText} {message : MagiModelMessage} {next : Message}
    (h : Encodes calls message next) {id : PyText} (hid : id ∈ callIds message) :
    Calls next.flattened id := by
  unfold callIds at hid
  split_ifs at hid with hrole
  · obtain ⟨call, hcall, rfl⟩ := List.mem_map.mp hid
    have hcalls : message.toolCalls ≠ [] := List.ne_nil_of_mem hcall
    have hsent : .toolCall call ∈ message.sentParts := by
      simp [MagiModelMessage.sentParts, hrole, hcalls, hcall]
    obtain ⟨⟨role, block⟩, hblock, -, hcarries⟩ :=
      (exists_carried h.carried).2 _ (List.mem_map_of_mem hsent)
    cases hcarries with
    | toolUse hinput => exact ⟨role, _, _, hblock⟩
  · simp at hid

end Parts

section Run

/-- What has been encoded accounts for what was looked at: it alternates, carries all of it, and
its results name its calls, whose ids are known. -/
structure Accounts (encoded : List Message × List PyText)
    (sent : List (MagiModelRole × TranscriptPart)) : Prop where
  alternates : Alternates encoded.1
  carried : List.Forall₂ Carried (flattened encoded.1) sent
  named : ResultsNamed (flattened encoded.1)
  calls : ∀ id ∈ encoded.2, Calls (flattened encoded.1) id

theorem accounts_nil : Accounts ([], []) [] where
  alternates := ⟨by simp, .nil⟩
  carried := .nil
  named := by simp [ResultsNamed, flattened]
  calls := by simp

/-- The next message is accounted for with those before it. -/
theorem Accounts.next {encoded encoded' : List Message × List PyText}
    {sent : List (MagiModelRole × TranscriptPart)} {message : MagiModelMessage}
    (h : Accounts encoded sent) (hnext : encodeNext encoded message = .ok encoded') :
    Accounts encoded' (sent ++ message.underRole message.sentParts) := by
  simp only [encodeNext, bind_eq_ok, pure_eq_ok] at hnext
  obtain ⟨next, hencoded, rfl⟩ := hnext
  have hnew := encodes_encodedMessage hencoded
  constructor
  · exact h.alternates.join hnew.known
  · rw [flattened_join]
    exact List.rel_append h.carried hnew.carried
  · rw [flattened_join]
    exact h.named.append fun role id content hmem => h.calls id (hnew.named hmem)
  · intro id hid
    rw [flattened_join]
    rcases List.mem_append.mp hid with hid | hid
    · exact (h.calls id hid).append _
    · obtain ⟨role, name, input, hcall⟩ := hnew.calls hid
      exact ⟨role, name, input, List.mem_append_right _ hcall⟩

/-- The messages of a transcript are accounted for one after the other. -/
theorem Accounts.foldlM {transcript : List MagiModelMessage}
    {encoded encoded' : List Message × List PyText}
    {sent : List (MagiModelRole × TranscriptPart)} (h : Accounts encoded sent)
    (hrun : transcript.foldlM encodeNext encoded = .ok encoded') :
    Accounts encoded'
      (sent ++ transcript.flatMap fun message => message.underRole message.sentParts) := by
  induction transcript generalizing encoded sent with
  | nil => simpa [pure_eq_ok.mp hrun] using h
  | cons message transcript ih =>
    rw [List.foldlM_cons] at hrun
    obtain ⟨mid, hfirst, hrest⟩ := bind_eq_ok.mp hrun
    rw [List.flatMap_cons, ← List.append_assoc]
    exact ih (h.next hfirst) hrest

/-- What is sent of a transcript alternates, carries what the encoder looks at, and names calls. -/
theorem accounts_messages {transcript : List MagiModelMessage} {encoded : List Message}
    (h : messages transcript = .ok encoded) :
    ∃ calls, Accounts (encoded, calls)
      (transcript.flatMap fun message => message.underRole message.sentParts) := by
  simp only [messages, bind_eq_ok, pure_eq_ok] at h
  obtain ⟨⟨_, calls⟩, hrun, rfl⟩ := h
  exact ⟨calls, accounts_nil.foldlM hrun⟩

end Run

/-- Lists of which each is a part of another are those if they are as long. -/
theorem eq_of_length_flatMap {α β : Type*} {f g : α → List β} (hsub : ∀ a, (f a).Sublist (g a))
    {l : List α} (h : (l.flatMap f).length = (l.flatMap g).length) : ∀ a ∈ l, f a = g a := by
  induction l with
  | nil => simp
  | cons a l ih =>
    have hfirst := (hsub a).length_le
    have hrest := (List.Sublist.flatMap_right l fun b _ => hsub b).length_le
    simp only [List.flatMap_cons, List.length_append] at h
    refine List.forall_mem_cons.mpr ⟨(hsub a).eq_of_length (by omega), ih (by omega)⟩

/-- What is sent of a transcript is all of it exactly when every message has the shape of its
branch: only the assistant calls tools, and attachments come neither with calls nor with results. -/
theorem messages_lossless_iff {transcript : List MagiModelMessage} {encoded : List Message}
    (h : messages transcript = .ok encoded) :
    Lossless transcript encoded ↔ ∀ message ∈ transcript, message.Shaped := by
  obtain ⟨calls, haccounts⟩ := accounts_messages h
  constructor
  · intro hlossless message hmessage
    have hlength := haccounts.carried.length_eq.symm.trans hlossless.carried.length_eq
    have hsent : message.underRole message.sentParts = message.underRole message.parts :=
      eq_of_length_flatMap (fun message : MagiModelMessage => message.sentParts_sublist.map _)
        hlength message hmessage
    refine message.sentParts_eq_iff.mp (List.map_injective_iff.mpr ?_ hsent)
    exact fun part other hpair => (Prod.ext_iff.mp hpair).2
  · intro hshaped
    refine ⟨haccounts.alternates, ?_, haccounts.named⟩
    have hsent : transcriptParts transcript =
        transcript.flatMap fun message => message.underRole message.sentParts := by
      refine List.flatMap_congr fun message hmessage => ?_
      rw [message.sentParts_eq_iff.mpr (hshaped message hmessage)]
    rw [hsent]
    exact haccounts.carried

section Examples

/-- A file of text. -/
def note : MagiModelAttachment := ⟨PyText.of "note.txt", PyText.of "text/plain", [104, 105]⟩

/-- A call with an object of no members. -/
def lookup : MagiModelToolCall := ⟨PyText.of "call-1", PyText.of "files.read", PyText.of "\x7b\x7d"⟩

/-- A question with a file, a call, its result and two texts of the assistant. -/
def answered : List MagiModelMessage :=
  [⟨.user, some (PyText.of "Read this."), [], none, [note]⟩,
    ⟨.assistant, some [], [lookup], none, []⟩,
    ⟨.tool, some (PyText.of "hi"), [], some (PyText.of "call-1"), []⟩,
    ⟨.assistant, some (PyText.of "It says"), [], none, []⟩,
    ⟨.assistant, some (PyText.of "hi."), [], none, []⟩]

theorem messages_answered_lossless :
    ∃ encoded, messages answered = .ok encoded ∧ Lossless answered encoded := by
  have hlength : (messages answered).map (fun encoded => (flattened encoded).length) = .ok 6 := by
    decide
  cases h : messages answered with
  | error e => simp [h, Except.map] at hlength
  | ok encoded => exact ⟨encoded, rfl, (messages_lossless_iff h).mpr (by decide)⟩

/-- A message with a call and a file. -/
def attached : List MagiModelMessage :=
  [⟨.user, some (PyText.of "Read this."), [], none, []⟩,
    ⟨.assistant, none, [lookup], none, [note]⟩]

/-- The file beside a call is dropped. -/
theorem attachment_dropped :
    ∃ encoded, messages attached = .ok encoded ∧ ¬Lossless attached encoded := by
  have hlength : (messages attached).map (fun encoded => (flattened encoded).length) = .ok 2 := by
    decide
  have hparts : (transcriptParts attached).length = 3 := by decide
  cases h : messages attached with
  | error e => simp [h, Except.map] at hlength
  | ok encoded =>
    refine ⟨encoded, rfl, fun hlossless => ?_⟩
    have hsame := hlossless.carried.length_eq
    simp only [h, Except.map, Except.ok.injEq] at hlength
    omega

end Examples

end AnthropicMagiModel

end Magistrate.Adapters
