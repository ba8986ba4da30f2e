import Magistrate.Frontend.Chat.Wire
import Magistrate.Gateway.Chat.Conversations

/-!
# Replay pages in the client

The gateway encodes a page of changes with its conversation, and the client reads
it back. Each message is handed to the reader of message lists without being put
in a list, so that only pages without messages are taken in.
-/

namespace Magistrate

/-- `_public_conversation` -/
def MagiConversation.json (c : MagiConversation) : Json :=
  .obj [("id", .str c.id), ("created_at", .int c.createdAt), ("updated_at", .int c.updatedAt)]

namespace Json

/-- An object with one more member. -/
def withMember (value : Json) (name : String) (member : Json) : Json :=
  match value with
  | .obj fields => .obj (fields ++ [(name, member)])
  | value => value

/-- An object without a member. -/
def without (value : Json) (name : String) : Json :=
  match value with
  | .obj fields => .obj (fields.filter fun field => field.1 ≠ name)
  | value => value

end Json

/-- A page of changes as the gateway encodes it. -/
def ReplayPage.json (conversation : MagiConversation) (page : ReplayPage) : Json :=
  .obj [("schema_version", .str "magi.native-chat.v1"), ("conversation", conversation.json),
    ("conversation_id", .str page.conversationId),
    ("messages", .arr (page.messages.map fun m =>
      m.1.json.withMember "change_sequence" (.int m.2))),
    ("next_cursor", .int page.nextCursor), ("latest_change", .int page.latestChange),
    ("has_more", .bool page.hasMore)]

namespace Frontend

/-- A conversation as the client holds it. -/
structure ReplayConversation where
  id : String
  createdAt : ℤ
  updatedAt : ℤ
  deriving DecidableEq, Repr

/-- `MagiConversationReplayResult` -/
structure MagiConversationReplayResult where
  conversation : ReplayConversation
  messages : List (MagiMessageRecord × ℤ)
  nextCursor : ℤ
  latestChange : ℤ
  hasMore : Bool
  deriving DecidableEq, Repr

/-- `MAGI_REPLAY_KEYS` -/
def replayKeys : List String := messageKeys ++ ["change_sequence"]

/-- A page of changes whose messages are not read yet. -/
structure ReplayEnvelope where
  conversation : ReplayConversation
  messages : List Json
  nextCursor : ℤ
  latestChange : ℤ
  hasMore : Bool

/-- What `normalizeMagiReplayResult` demands of a page around its messages. -/
def replayEnvelope (value : Json) : Option ReplayEnvelope := do
  guard ((value.get "schema_version").str? = some "magi.native-chat.v1")
  let conversation := value.get "conversation"
  let id ← (conversation.get "id").str?.filter (boundedId "mgc_" 4 124)
  let createdAt ← safeInteger? (conversation.get "created_at")
  let updatedAt ← safeInteger? (conversation.get "updated_at")
  guard ((value.get "conversation_id").str? = some id)
  let messages ← (value.get "messages").arr?.filter fun messages => messages.length ≤ 200
  let nextCursor ← (safeInteger? (value.get "next_cursor")).filter (0 ≤ ·)
  let latestChange ← (safeInteger? (value.get "latest_change")).filter (nextCursor ≤ ·)
  let hasMore ← (value.get "has_more").bool?
  return { conversation := { id, createdAt, updatedAt }
           messages, nextCursor, latestChange, hasMore }

/-- One message of `normalizeMagiReplayResult`. -/
def normalizeReplayMessage (message : Json) : Option (MagiMessageRecord × ℤ) := do
  guard (message.namesAre replayKeys)
  let changeSequence ← (safeInteger? (message.get "change_sequence")).filter (1 ≤ ·)
  -- the reader of lists gets the message itself, not a list of it
  match normalizeMagiMessageRecords (message.without "change_sequence") with
  | [record] => some (record, changeSequence)
  | _ => none

/-- The messages are of the conversation, in the order of their changes. -/
def replayOrdered (conversationId : String) (records : List (MagiMessageRecord × ℤ)) : Bool :=
  records.all (fun message => decide (message.1.conversationId = conversationId)) &&
    (records.zip records.tail).all fun pair => decide (pair.1.2 < pair.2.2)

/-- `normalizeMagiReplayResult` -/
def normalizeMagiReplayResult (raw : Json) : Except String MagiConversationReplayResult :=
  match replayEnvelope raw with
  | none => .error "Gateway returned an invalid Native Magi replay."
  | some envelope =>
    match envelope.messages.mapM normalizeReplayMessage with
    | none => .error "Gateway returned an invalid Native Magi replay message."
    | some messages =>
      if replayOrdered envelope.conversation.id messages then
        .ok { conversation := envelope.conversation
              messages
              nextCursor := envelope.nextCursor
              latestChange := envelope.latestChange
              hasMore := envelope.hasMore }
      else .error "Gateway returned an invalid Native Magi replay cursor."

end Frontend

open Frontend MagiChatStore

/-- What a page of changes is for the client. -/
def ReplayPage.result (conversation : MagiConversation) (page : ReplayPage) :
    MagiConversationReplayResult where
  conversation :=
    { id := conversation.id, createdAt := conversation.createdAt,
      updatedAt := conversation.updatedAt }
  messages := page.messages.map fun m => (m.1.record, (m.2 : ℤ))
  nextCursor := page.nextCursor
  latestChange := page.latestChange
  hasMore := page.hasMore

section Reading

variable {conversation : MagiConversation} {page : ReplayPage}

/-- No message of a page is read. -/
theorem normalizeReplayMessage_eq_none (message : Json) :
    normalizeReplayMessage message = none := by
  cases message with
  | obj fields => simp [normalizeReplayMessage, Json.without, normalizeMagiMessageRecords]
  | _ => simp [normalizeReplayMessage, Json.namesAre]

/-- What the client demands of a page around its messages. -/
def ReplayPage.enveloped (conversation : MagiConversation) (page : ReplayPage) : Bool :=
  (boundedId "mgc_" 4 124 conversation.id && safeInteger conversation.createdAt &&
    safeInteger conversation.updatedAt && decide (page.conversationId = conversation.id)) &&
    decide (page.messages.length ≤ 200) &&
    (safeInteger page.nextCursor && decide (0 ≤ page.nextCursor) && safeInteger page.latestChange &&
      decide (page.nextCursor ≤ page.latestChange))

/-- The client reads a page around its messages exactly when it is as it demands. -/
theorem replayEnvelope_json : replayEnvelope (page.json conversation) =
    if page.enveloped conversation then
      some ⟨(page.result conversation).conversation,
        page.messages.map fun m => m.1.json.withMember "change_sequence" (.int m.2),
        page.nextCursor, page.latestChange, page.hasMore⟩
    else none := by
  have hschema : ((page.json conversation).get "schema_version").str? =
    some "magi.native-chat.v1" := rfl
  have hid : (((page.json conversation).get "conversation").get "id").str? =
    some conversation.id := rfl
  have hcreated : ((page.json conversation).get "conversation").get "created_at" =
    .int conversation.createdAt := rfl
  have hupdated : ((page.json conversation).get "conversation").get "updated_at" =
    .int conversation.updatedAt := rfl
  have hconversation : ((page.json conversation).get "conversation_id").str? =
    some page.conversationId := rfl
  have hmessages : ((page.json conversation).get "messages").arr? = some (page.messages.map fun m =>
    m.1.json.withMember "change_sequence" (.int m.2)) := rfl
  have hnext : (page.json conversation).get "next_cursor" = .int page.nextCursor := rfl
  have hlatest : (page.json conversation).get "latest_change" = .int page.latestChange := rfl
  have hmore : ((page.json conversation).get "has_more").bool? = some page.hasMore := rfl
  refine Option.ext fun envelope => ?_
  simp only [replayEnvelope, hschema, hid, hcreated, hupdated, hconversation, hmessages, hnext,
    hlatest, hmore, safeInteger?_int, Option.bind_eq_bind, Option.bind_eq_some_iff,
    Option.guard_eq_some', Option.filter_eq_some_iff, Option.ite_none_right_eq_some,
    Option.some.injEq, exists_const, true_and, and_assoc, exists_eq_left', Option.pure_def,
    List.length_map, ReplayPage.enveloped, ReplayPage.result, Bool.and_eq_true, decide_eq_true_eq]
  constructor
  · rintro ⟨hid, _, hcreated, rfl, _, hupdated, rfl, hsame, hlength, _, hnext, rfl, hcursor, _,
      hlatest, rfl, hle, rfl⟩
    exact ⟨hid, hcreated, hupdated, hsame, hlength, hnext, hcursor, hlatest, hle, rfl⟩
  · rintro ⟨hid, hcreated, hupdated, hsame, hlength, hnext, hcursor, hlatest, hle, rfl⟩
    exact ⟨hid, _, hcreated, rfl, _, hupdated, rfl, hsame, hlength, _, hnext, rfl, hcursor, _,
      hlatest, rfl, hle, rfl⟩

/-- The client takes a page in exactly when it has no message and is otherwise as it demands. -/
theorem normalizeMagiReplayResult_json :
    normalizeMagiReplayResult (page.json conversation) = .ok (page.result conversation) ↔
      page.messages = [] ∧ page.enveloped conversation = true := by
  unfold normalizeMagiReplayResult
  rw [replayEnvelope_json]
  by_cases hpage : page.enveloped conversation = true
  · rw [if_pos hpage]
    cases hmessages : page.messages with
    | nil => simp [hpage, hmessages, ReplayPage.result, replayOrdered]
    | cons m messages => simp [List.mapM_cons, normalizeReplayMessage_eq_none]
  · rw [if_neg hpage]
    simp [hpage]

end Reading

/-- A drawn id is one that the client reads. -/
theorem DrawnId.boundedId {kind id : String} (h : DrawnId kind id) (hkind : kind.length ≤ 100) :
    Frontend.boundedId (kind ++ "_") 4 124 id = true := by
  obtain ⟨token, hlength, hchars, rfl⟩ := h
  have hone : (kind ++ "_").length = kind.length + 1 := by rw [String.length_append]; rfl
  have hchars' : (kind ++ "_" ++ token).toList = (kind ++ "_").toList ++ token.toList :=
    String.toList_append
  have hprefix : (kind ++ "_").toList.isPrefixOf (kind ++ "_" ++ token).toList = true := by
    rw [hchars']
    exact List.isPrefixOf_iff_prefix.mpr (List.prefix_append _ _)
  have htail : (kind ++ "_" ++ token).toList.drop (kind ++ "_").length = token.toList := by
    rw [hchars', ← String.length_toList, List.drop_left]
  have hall : token.toList.all isIdChar = true := hchars
  rw [Frontend.boundedId, hprefix, htail, hall, String.length_append, hone]
  simp only [Bool.and_self, Bool.true_and, decide_eq_true_eq]
  omega

/-- A stamp is a safe integer. -/
theorem Stamp.safeInteger {now : ℤ} (h : Stamp now) : Magistrate.safeInteger now = true := by
  obtain ⟨hfrom, hto⟩ := h
  rw [Magistrate.safeInteger, decide_eq_true_eq]
  omega

section Pages

variable {chat : Chat} {owner conversationId : String} {after limit : ℤ} {page : ReplayPage}

/-- A conversation has no change after a cursor exactly when its last change is not after it. -/
theorem Numbered.changesAfter_eq_nil (h : Numbered chat) (hafter : 0 ≤ after) :
    changesAfter conversationId after chat = [] ↔
    (chat.latestChange conversationId : ℤ) ≤ after := by
  constructor
  · intro hnone
    by_contra hlater
    have hmem : chat.latestChange conversationId ∈ chat.sequences conversationId := by
      rw [h.latestChange_eq conversationId, List.mem_range'_1]
      omega
    obtain ⟨c, hc, hsequence⟩ := List.mem_map.mp hmem
    simp only [List.mem_filter, decide_eq_true_eq] at hc
    have hin : c ∈ changesAfter conversationId after chat :=
      mem_changesAfter.mpr ⟨hc.1, hc.2, by rw [hsequence]; omega⟩
    rw [hnone] at hin
    exact List.not_mem_nil hin
  · intro hlast
    refine List.eq_nil_iff_forall_not_mem.mpr fun c hc => ?_
    obtain ⟨hstored, rfl, hlater⟩ := mem_changesAfter.mp hc
    have hle : (c.changeSequence : ℤ) ≤ chat.latestChange c.conversationId := by
      exact_mod_cast (h.le_latestChange hstored).2
    omega

/-- A page has no message exactly when its conversation has no change after the cursor. -/
theorem replay_messages_eq_nil (h : replay owner conversationId after limit chat = .ok page) :
    page.messages = [] ↔ changesAfter conversationId after chat = [] := by
  obtain ⟨n, hn, hfrom, hto, -, -⟩ := replay_eq_ok h
  constructor
  · intro hnone
    have htake : (changesAfter conversationId after chat).take n = [] := by
      refine List.eq_nil_iff_forall_not_mem.mpr fun c hc => ?_
      obtain ⟨m, hm, -⟩ := hfrom c hc
      rw [hnone] at hm
      exact List.not_mem_nil hm
    exact (List.take_eq_nil_iff.mp htake).resolve_left hn.ne'
  · intro hnone
    refine List.eq_nil_iff_forall_not_mem.mpr fun m hm => ?_
    obtain ⟨c, hc, -⟩ := hto m hm
    rw [hnone, List.take_nil] at hc
    exact List.not_mem_nil hc

/-- What a page says of its conversation and its cursors. -/
theorem replay_page (h : replay owner conversationId after limit chat = .ok page) :
    0 ≤ after ∧ page.conversationId = conversationId ∧
      page.latestChange = chat.latestChange conversationId ∧
      (changesAfter conversationId after chat = [] → page.nextCursor = after) := by
  simp only [replay, bind_eq_ok, raiseIf_eq_ok, pure_eq_ok, exists_const, not_or, not_not,
    not_lt] at h
  obtain ⟨⟨hafter, -⟩, -, -, -, messages, -, rfl⟩ := h
  refine ⟨hafter, rfl, rfl, fun hnone => ?_⟩
  simp [hnone, pageEnd]

end Pages

/-- In every run of the store, the client takes a page of changes in, with what it carries, exactly
when it has no message: when the cursor is the last change of the conversation. -/
theorem chat_replay_page_accepted (steps : List StoreStep) (hsteps : ∀ step ∈ steps, step.Real)
    {owner conversationId : String} {after limit : ℤ} {conversation : MagiConversation}
    {page : ReplayPage}
    (hconversation : conversationRow owner conversationId (run storeStep .initial steps) =
      .ok conversation)
    (hpage : replay owner conversationId after limit (run storeStep .initial steps) = .ok page)
    (hafter : after ≤ (run storeStep .initial steps).latestChange conversationId) :
    normalizeMagiReplayResult (page.json conversation) = .ok (page.result conversation) ↔
      after = (run storeStep .initial steps).latestChange conversationId ∧
        after ≤ 9007199254740991 := by
  have hnumbered := Numbered.of_run steps
  obtain ⟨hstored, hid, -⟩ := of_conversationRow hconversation
  have hreal := ConversationsReal.of_run hsteps conversation hstored
  obtain ⟨hfirst, hpageId, hlatest, hnext⟩ := replay_page hpage
  have hbounded : Frontend.boundedId "mgc_" 4 124 conversation.id = true :=
    hreal.drawn.boundedId (by decide)
  rw [normalizeMagiReplayResult_json, replay_messages_eq_nil hpage,
    hnumbered.changesAfter_eq_nil hfirst]
  constructor
  · rintro ⟨hlast, hpage⟩
    simp only [ReplayPage.enveloped, Bool.and_eq_true, decide_eq_true_eq] at hpage
    obtain ⟨-, ⟨⟨-, -⟩, hsafe⟩, -⟩ := hpage
    rw [hlatest, safeInteger, decide_eq_true_eq] at hsafe
    exact ⟨by omega, by omega⟩
  · rintro ⟨hlast, hsafe⟩
    have hnone := (hnumbered.changesAfter_eq_nil hfirst).mpr hlast.ge
    have hempty := (replay_messages_eq_nil hpage).mpr hnone
    refine ⟨hlast.ge, ?_⟩
    have hcursor : safeInteger after = true := by
      rw [safeInteger, decide_eq_true_eq]
      omega
    rw [hid] at hbounded
    simp only [ReplayPage.enveloped, hbounded, hreal.created.safeInteger, hreal.updated.safeInteger,
      hpageId, hid, hempty, hnext hnone, hlatest, ← hlast, hcursor, hfirst, List.length_nil,
      Nat.zero_le, le_refl, decide_true, Bool.and_self]

/-- The ids of a first prompt. -/
def firstIds : FreshIds where
  conversationId := "mgc_AAAAAAAAAAAAAAAAAAAAAAAA"
  turnId := "mgt_AAAAAAAAAAAAAAAAAAAAAAAA"
  userMessageId := "mgm_AAAAAAAAAAAAAAAAAAAAAAAA"
  assistantMessageId := "mgm_BBBBBBBBBBBBBBBBBBBBBBBB"

/-- The submission of a first prompt. -/
def firstPrompt : StoreStep :=
  .write (.prepareSubmission "user" "client-0001" "Hello" none "text" (.ok []) false firstIds
    1700000000000)

theorem firstPrompt_real : ∀ step ∈ [firstPrompt], step.Real := by
  intro step hstep
  rw [List.mem_singleton.mp hstep]
  exact ⟨⟨⟨"AAAAAAAAAAAAAAAAAAAAAAAA", rfl, rfl, rfl⟩, ⟨"AAAAAAAAAAAAAAAAAAAAAAAA", rfl, rfl, rfl⟩,
    ⟨"AAAAAAAAAAAAAAAAAAAAAAAA", rfl, rfl, rfl⟩, ⟨"BBBBBBBBBBBBBBBBBBBBBBBB", rfl, rfl, rfl⟩⟩,
    by decide, by decide⟩

/-- The conversation of the first prompt. -/
def firstConversation : MagiConversation where
  id := firstIds.conversationId
  ownerUserId := "user"
  isDefault := true
  createdAt := 1700000000000
  updatedAt := 1700000000000

/-- The changes of the first prompt. -/
def firstPage : ReplayPage where
  conversationId := firstIds.conversationId
  messages :=
    [((newUserMessage "user" "client-0001" "Hello" "text" [] firstIds.conversationId 0 firstIds
        1700000000000).toPublic, 1),
      ((newAssistantMessage "user" firstIds.userMessageId firstIds.conversationId 1 firstIds
        1700000000000).toPublic, 2)]
  nextCursor := 2
  latestChange := 2
  hasMore := false

/-- The page after the changes of the first prompt. -/
def lastPage : ReplayPage := { firstPage with messages := [] }

/-- The page after the last change of the first prompt. -/
theorem chat_replay_last_page_accepted :
    normalizeMagiReplayResult (lastPage.json firstConversation) =
      .ok (lastPage.result firstConversation) :=
  (chat_replay_page_accepted [firstPrompt] firstPrompt_real
    (show conversationRow "user" firstIds.conversationId (run storeStep .initial [firstPrompt]) =
      .ok firstConversation by decide +kernel)
    (show replay "user" firstIds.conversationId 2 200 (run storeStep .initial [firstPrompt]) =
      .ok lastPage by decide +kernel)
    (by decide +kernel)).mpr (by decide +kernel)

theorem replay_firstPrompt : replay "user" firstIds.conversationId 0 200
    (run storeStep .initial [firstPrompt]) = .ok firstPage := by
  have hchanges : changesAfter firstIds.conversationId 0 (run storeStep .initial [firstPrompt]) =
      (run storeStep .initial [firstPrompt]).changes.rows := by
    rw [changesAfter, List.mergeSort_of_pairwise (by decide)]
    decide
  rw [replay, hchanges]
  decide

/-- The page of the first prompt: each of its messages is accepted on its own, and the client
rejects the page. -/
theorem chat_replay_first_page_rejected :
    conversationRow "user" firstIds.conversationId (run storeStep .initial [firstPrompt]) =
        .ok firstConversation ∧
      replay "user" firstIds.conversationId 0 200 (run storeStep .initial [firstPrompt]) =
        .ok firstPage ∧
      (∀ m ∈ firstPage.messages, normalizeMagiMessageRecord m.1.json = some m.1.record) ∧
      normalizeMagiReplayResult (firstPage.json firstConversation) =
        .error "Gateway returned an invalid Native Magi replay message." :=
  ⟨by decide +kernel, replay_firstPrompt, by decide +kernel, by decide +kernel⟩

end Magistrate
