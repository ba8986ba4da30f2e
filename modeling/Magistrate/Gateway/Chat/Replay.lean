import Magistrate.Gateway.Chat.Changes
import Magistrate.Gateway.Chat.Submission

/-!
# Replaying a conversation

A reader starts from the first page of a conversation, or from nothing, and
pages the changes after its cursor. Whatever is written between its calls, the
reader's messages are the stored ones once a page has no more changes.
-/

namespace Magistrate

open MagiChatStore

section Page

variable {α : Type*} {key : α → ℤ}

/-- The cursor after a page: the key of its last item. -/
def pageEnd (key : α → ℤ) (after : ℤ) (page : List α) : ℤ := (page.getLast?.map key).getD after

/-- No item of a sorted page is after the page's cursor. -/
theorem le_pageEnd {page : List α} (sorted : page.Pairwise fun a b => key a < key b) (after : ℤ)
    {a : α} (ha : a ∈ page) : key a ≤ pageEnd key after page := by
  obtain ⟨front, last, rfl⟩ : ∃ front last, page = front ++ [last] :=
    ⟨_, _, (List.dropLast_append_getLast (List.ne_nil_of_mem ha)).symm⟩
  simp only [pageEnd, List.getLast?_append, List.getLast?_singleton, Option.some_or,
    Option.map_some, Option.getD_some]
  rcases List.mem_append.mp ha with hfront | hlast
  · exact (List.pairwise_append.mp sorted).2.2 a hfront last (List.mem_singleton_self last) |>.le
  · rw [List.mem_singleton.mp hlast]

/-- The items of a sorted list that a page leaves out are after the page's cursor. -/
theorem pageEnd_lt {l : List α} (sorted : l.Pairwise fun a b => key a < key b) (after : ℤ) {n : ℕ}
    (hn : 0 < n) {a : α} (ha : a ∈ l) (hout : a ∉ l.take n) :
    pageEnd key after (l.take n) < key a := by
  have hne : l.take n ≠ [] := by
    rw [Ne, List.take_eq_nil_iff, not_or]
    exact ⟨hn.ne', List.ne_nil_of_mem ha⟩
  have hdrop : a ∈ l.drop n := by
    rw [← List.take_append_drop n l, List.mem_append] at ha
    exact ha.resolve_left hout
  rw [← List.take_append_drop n l] at sorted
  have hlast := (List.pairwise_append.mp sorted).2.2 _ (List.getLast_mem hne) a hdrop
  simpa [pageEnd, List.getLast?_eq_some_getLast hne] using hlast

end Page

/-- The message a reader sees. -/
structure PublicMessage where
  id : String
  conversationId : String
  turnId : String
  clientMessageId : Option String
  replyToMessageId : Option String
  role : Role
  content : String
  status : MessageStatus
  source : String
  sequenceIndex : ℕ
  revision : ℕ
  attachments : List AttachmentRecord
  createdAt : ℤ
  updatedAt : ℤ
  deriving DecidableEq, Repr

/-- `_public_message` -/
def MagiMessage.toPublic (row : MagiMessage) : PublicMessage where
  id := row.id
  conversationId := row.conversationId
  turnId := row.turnId
  clientMessageId := row.clientMessageId
  replyToMessageId := row.replyToMessageId
  role := row.role
  content := row.content
  status := row.status
  source := row.source
  sequenceIndex := row.sequenceIndex
  revision := row.revision
  attachments := row.attachments
  createdAt := row.createdAt
  updatedAt := row.updatedAt

/-- A page of a conversation's messages. -/
structure ConversationPage where
  conversationId : String
  messages : List PublicMessage
  hasMore : Bool
  nextBefore : Option ℕ
  latestChange : ℕ
  deriving DecidableEq, Repr

/-- A page of a conversation's changes, each with its message as it is stored now. -/
structure ReplayPage where
  conversationId : String
  messages : List (PublicMessage × ℕ)
  nextCursor : ℤ
  latestChange : ℕ
  hasMore : Bool
  deriving DecidableEq, Repr

namespace MagiChatStore

/-- `MAX_MAGI_HISTORY_MESSAGES` -/
def maxHistoryMessages : ℤ := 200

/-- `list_conversation`: the last messages of a conversation before a cursor, and its latest
change, read in one transaction. -/
def listConversation (owner : String) (conversationId : Option String) (before : Option ℤ)
    (limit : ℤ) (freshId : String) (now : ℤ) (chat : Chat) :
    Except ChatFailure (ConversationPage × Chat) := do
  raiseIf (¬(1 ≤ limit ∧ limit ≤ maxHistoryMessages))
    (.valueError "Native Magi history limit is invalid.")
  raiseIf (before.any (· < 1)) (.valueError "Native Magi history cursor is invalid.")
  let (conversation, chat) ← requestedConversation owner conversationId freshId now chat
  let rows := ((chat.messages.rows.filter fun m =>
    m.ownerUserId = owner ∧ m.conversationId = conversation.id ∧
      before.all ((m.sequenceIndex : ℤ) < ·)).mergeSort
    fun a b => b.sequenceIndex ≤ a.sequenceIndex).take (limit.toNat + 1)
  let hasMore := decide (limit < rows.length)
  let page := (rows.take limit.toNat).reverse
  return ({ conversationId := conversation.id
            messages := page.map MagiMessage.toPublic
            hasMore
            nextBefore := if hasMore then page.head?.map (·.sequenceIndex) else none
            latestChange := chat.latestChange conversation.id }, chat)

/-- The changes of a conversation after a cursor, oldest first. -/
def changesAfter (conversationId : String) (after : ℤ) (chat : Chat) : List MessageChange :=
  (chat.changes.rows.filter fun c =>
    c.conversationId = conversationId ∧ after < c.changeSequence).mergeSort
    fun a b => a.changeSequence ≤ b.changeSequence

/-- A change with its message as it is stored now. -/
def replayed (owner : String) (chat : Chat) (change : MessageChange) :
    Except ChatFailure (PublicMessage × ℕ) :=
  match (chat.messages.find? change.messageId).filter fun m => m.ownerUserId = owner with
  | none => .error (.conflict "Native Magi replay references a missing message.")
  | some m => .ok (m.toPublic, change.changeSequence)

/-- The largest cursor that a statement takes. -/
def maxReplayCursor : ℤ := 9223372036854775807

/-- `replay`: the changes of a conversation after a cursor. -/
def replay (owner conversationId : String) (after limit : ℤ) (chat : Chat) :
    Except ChatFailure ReplayPage := do
  raiseIf (after < 0 ∨ ¬(1 ≤ limit ∧ limit ≤ maxHistoryMessages))
    (.valueError "Native Magi replay cursor is invalid.")
  let _ ← conversationRow owner conversationId chat
  raiseIf (maxReplayCursor < after) .overflowError
  let changes := (changesAfter conversationId after chat).take (limit.toNat + 1)
  let selected := changes.take limit.toNat
  let messages ← selected.mapM (replayed owner chat)
  return { conversationId
           messages
           nextCursor := pageEnd (fun c => (c.changeSequence : ℤ)) after selected
           latestChange := chat.latestChange conversationId
           hasMore := decide (limit < changes.length) }

end MagiChatStore

/-- A client: the messages it has seen, by their ids, and its change cursor. -/
structure Reader where
  held : String → Option PublicMessage
  cursor : ℤ

/-- Keep the highest revision of a message. -/
def keepHighest (held : String → Option PublicMessage) (m : PublicMessage) :
    String → Option PublicMessage :=
  fun id => if id = m.id ∧ ∀ old ∈ held id, old.revision ≤ m.revision then some m else held id

/-- A reader takes in a page of changes. -/
def Reader.receive (reader : Reader) (page : ReplayPage) : Reader where
  held := (page.messages.map Prod.fst).foldl keepHighest reader.held
  cursor := page.nextCursor

/-- A transaction of any client: a write of the store, or a listing that may open a conversation. -/
inductive StoreStep where
  | write (op : ChatOp)
  | list (owner : String) (conversationId : Option String) (before : Option ℤ) (limit : ℤ)
      (freshId : String) (now : ℤ)

/-- The tables after a transaction of any client. -/
def storeStep (chat : Chat) : StoreStep → Chat
  | .write op => chatStep chat op
  | .list owner conversationId before limit freshId now => commit (stateOf
      (listConversation owner conversationId before limit freshId now chat)) chat

/-- The store and one reader of it. -/
structure ReaderSession where
  chat : Chat
  reader : Reader

/-- What happens in a session: somebody's transaction, or the reader's next call. -/
inductive SessionStep where
  | store (step : StoreStep)
  | replay (limit : ℤ)

/-- The session after a step; a call that raises leaves the reader where it is. -/
def sessionStep (owner conversationId : String) (s : ReaderSession) : SessionStep → ReaderSession
  | .store step => { s with chat := storeStep s.chat step }
  | .replay limit =>
    match MagiChatStore.replay owner conversationId s.reader.cursor limit s.chat with
    | .ok page => { s with reader := s.reader.receive page }
    | .error _ => s

/-- A reader starts from nothing at cursor 0, or from the first page of the conversation and the
latest change that came with it. -/
inductive Starts (owner conversationId : String) (chat : Chat) : ReaderSession → Prop where
  | nothing : Starts owner conversationId chat ⟨chat, ⟨fun _ => none, 0⟩⟩
  | firstPage {requested : Option String} {limit : ℤ} {freshId : String} {now : ℤ}
      {page : ConversationPage} {chat' : Chat}
      (listed : listConversation owner requested none limit freshId now chat = .ok (page, chat'))
      (conversation : page.conversationId = conversationId) :
      Starts owner conversationId chat
        ⟨chat', ⟨page.messages.foldl keepHighest fun _ => none, page.latestChange⟩⟩

/-- What a reader has seen is what is stored, and it has seen every message of the conversation
that was created or revised after its starting cursor. -/
structure UpToDate (chat : Chat) (conversationId : String) (start : ℤ) (reader : Reader) :
    Prop where
  current : ∀ id m, reader.held id = some m →
    ∃ row ∈ chat.messages.rows, row.id = id ∧ row.toPublic = m
  complete : ∀ c ∈ chat.changes.rows, c.conversationId = conversationId →
    start < c.changeSequence →
    ∃ row ∈ chat.messages.rows, row.id = c.messageId ∧ reader.held row.id = some row.toPublic

section Pages

variable {chat chat' : Chat} {owner conversationId : String} {after limit : ℤ} {page : ReplayPage}

/-- The message that is stored under an id, as readers see it. -/
def Chat.current (chat : Chat) (id : String) : Option PublicMessage :=
  (chat.messages.find? id).map MagiMessage.toPublic

/-- A replayed change comes with its stored message. -/
theorem of_replayed {change : MessageChange} {m : PublicMessage × ℕ}
    (h : replayed owner chat change = .ok m) :
    m.1.id = change.messageId ∧ chat.current change.messageId = some m.1 := by
  unfold replayed at h
  split at h
  · simp at h
  · next row found =>
    obtain ⟨hfind, -⟩ := Option.filter_eq_some_iff.mp found
    obtain rfl := Except.ok.inj h
    exact ⟨(Table.mem_of_find? hfind).2, by rw [Chat.current, hfind, Option.map_some]⟩

/-- The changes of a conversation are stored in the order of their numbers. -/
theorem Numbered.changesAfter_sorted (h : Numbered chat) (conversationId : String) (after : ℤ) :
    (changesAfter conversationId after chat).Pairwise
      fun a b => (a.changeSequence : ℤ) < b.changeSequence := by
  have hsequences := h.latestChange_eq conversationId
  have hsorted : (chat.changes.rows.filter fun c => c.conversationId = conversationId).Pairwise
      fun a b => a.changeSequence < b.changeSequence := by
    rw [← List.pairwise_map, ← Chat.sequences, hsequences]
    exact List.pairwise_lt_range' 1
  have hfilter : (chat.changes.rows.filter fun c =>
      c.conversationId = conversationId ∧ after < c.changeSequence) =
      (chat.changes.rows.filter fun c => c.conversationId = conversationId).filter
        fun c => after < c.changeSequence := by
    rw [List.filter_filter]
    exact List.filter_congr fun c _ => by simp [Bool.and_comm]
  have hless := hsorted.filter fun c : MessageChange => decide (after < c.changeSequence)
  rw [← hfilter] at hless
  rw [changesAfter, List.mergeSort_of_pairwise (hless.imp fun hab => decide_eq_true hab.le)]
  exact hless.imp fun hab => by exact_mod_cast hab

theorem mem_changesAfter {c : MessageChange} : c ∈ changesAfter conversationId after chat ↔
    c ∈ chat.changes.rows ∧ c.conversationId = conversationId ∧ after < c.changeSequence := by
  simp [changesAfter]

/-- A page takes the first changes after the cursor, each with its stored message. -/
theorem replay_eq_ok (h : replay owner conversationId after limit chat = .ok page) :
    ∃ n, 0 < n ∧
      (∀ c ∈ (changesAfter conversationId after chat).take n,
        ∃ m ∈ page.messages, replayed owner chat c = .ok m) ∧
      (∀ m ∈ page.messages, ∃ c ∈ (changesAfter conversationId after chat).take n,
        replayed owner chat c = .ok m) ∧
      page.nextCursor = pageEnd (fun c => (c.changeSequence : ℤ)) after
        ((changesAfter conversationId after chat).take n) ∧
      (page.hasMore = false →
        (changesAfter conversationId after chat).take n =
        changesAfter conversationId after chat) := by
  simp only [replay, bind_eq_ok, raiseIf_eq_ok, pure_eq_ok, exists_const, not_or, not_not] at h
  obtain ⟨⟨-, hlimit, -⟩, -, -, -, messages, hmessages, rfl⟩ := h
  have htake : ((changesAfter conversationId after chat).take (limit.toNat + 1)).take limit.toNat =
      (changesAfter conversationId after chat).take limit.toNat := by
    rw [List.take_take, Nat.min_eq_left (Nat.le_succ _)]
  rw [htake] at hmessages
  obtain ⟨hfrom, hto⟩ := mem_of_mapM hmessages
  refine ⟨limit.toNat, by omega, hfrom, hto, by simp only [htake], fun hmore => ?_⟩
  rw [decide_eq_false_iff_not, List.length_take] at hmore
  refine List.take_of_length_le ?_
  omega

/-- Taking in stored messages shows what is stored, unless it is not among them. -/
theorem foldl_keepHighest {ms : List PublicMessage} (held : String → Option PublicMessage)
    (hms : ∀ m ∈ ms, chat.current m.id = some m)
    (hheld : ∀ id old m, held id = some old → chat.current id = some m →
      old.revision ≤ m.revision) (id : String) :
    ms.foldl keepHighest held id = if id ∈ ms.map (·.id) then chat.current id else held id := by
  induction ms generalizing held with
  | nil => simp
  | cons m ms ih =>
    have hm := hms m List.mem_cons_self
    have hkept : ∀ id, keepHighest held m id = if id = m.id then chat.current id else held id := by
      intro id
      unfold keepHighest
      by_cases he : id = m.id
      · subst he
        have hle : ∀ old ∈ held m.id, old.revision ≤ m.revision := fun old ho =>
          hheld m.id old m ho hm
        rw [if_pos ⟨rfl, hle⟩, if_pos rfl, hm]
      · rw [if_neg fun hand => he hand.1, if_neg he]
    rw [List.foldl_cons, ih _ (fun x hx => hms x (List.mem_cons_of_mem m hx)) ?_, hkept]
    · rw [List.map_cons]
      by_cases hid : id ∈ ms.map (·.id)
      · rw [if_pos hid, if_pos (List.mem_cons_of_mem _ hid)]
      · by_cases he : id = m.id
        · rw [if_neg hid, if_pos he, if_pos (he ▸ List.mem_cons_self)]
        · rw [if_neg hid, if_neg he, if_neg fun hmem => (List.mem_cons.mp hmem).elim he hid]
    · intro other old x hold hx
      rw [hkept] at hold
      split at hold
      · rw [hold] at hx
        exact (Option.some.inj hx ▸ Nat.le_refl _)
      · exact hheld other old x hold hx

end Pages

/-- A reader follows a conversation: what it has seen is stored or will be replayed, and it has
seen every change between its starting cursor and its cursor. -/
structure Reader.Follows (reader : Reader) (chat : Chat) (conversationId : String) (start : ℤ) :
    Prop where
  bounded : 0 ≤ reader.cursor ∧ reader.cursor ≤ chat.latestChange conversationId
  held : ∀ id m, reader.held id = some m → ∃ row, chat.messages.find? id = some row ∧
    row.conversationId = conversationId ∧ m.revision ≤ row.revision ∧
      (m = row.toPublic ∨ ∃ c ∈ chat.changes.rows, c.conversationId = conversationId ∧
        c.messageId = id ∧ reader.cursor < c.changeSequence)
  covered : ∀ c ∈ chat.changes.rows, c.conversationId = conversationId →
    start < c.changeSequence → (c.changeSequence : ℤ) ≤ reader.cursor →
      reader.held c.messageId ≠ none

namespace Reader.Follows

variable {reader : Reader} {chat chat' : Chat} {owner conversationId : String} {start : ℤ}

/-- A numbered change is after every reader's cursor. -/
theorem append (h : reader.Follows chat conversationId start) (hnumbered : Numbered chat)
    (hnumbered' : Numbered chat') {changed messageId : String} {revision : ℕ} {now : ℤ}
    (changes : chat'.changes =
      chat.changes.insertOrIgnore (chat.nextChange changed messageId revision now)) :
    reader.cursor ≤ chat'.latestChange conversationId ∧
      ∀ c ∈ chat'.changes.rows, c ∈ chat.changes.rows ∨ c.messageId = messageId ∧
        c.conversationId = changed ∧ (changed = conversationId →
          reader.cursor < c.changeSequence) := by
  have hrows := hnumbered.rows_append changes
  refine ⟨h.bounded.2.trans ?_, fun c hc => ?_⟩
  · have hlength : ∀ {chat : Chat}, Numbered chat →
        chat.latestChange conversationId = (chat.sequences conversationId).length := by
      intro chat hchat
      rw [hchat.latestChange_eq, List.length_range']
    have hprefix : (chat.sequences conversationId).length ≤
        (chat'.sequences conversationId).length := by
      simp only [Chat.sequences, hrows, List.filter_append, List.map_append, List.length_append]
      omega
    rw [hlength hnumbered, hlength hnumbered']
    exact_mod_cast hprefix
  · rw [hrows, List.mem_append, List.mem_singleton] at hc
    rcases hc with hc | rfl
    · exact .inl hc
    · refine .inr ⟨rfl, rfl, fun hsame => ?_⟩
      have hbound := h.bounded.2
      subst hsame
      simp only [Chat.nextChange]
      push_cast
      omega

/-- A write of the store keeps every reader following. -/
theorem write (h : reader.Follows chat conversationId start) (hnumbered : Numbered chat)
    (hwrite : ChatWrite chat chat') : reader.Follows chat' conversationId start := by
  have hnumbered' := hnumbered.write hwrite
  cases hwrite with
  | other messages changes =>
    refine ⟨?_, ?_, ?_⟩
    · simpa only [Chat.latestChange, changes] using h.bounded
    · rw [messages, changes]
      exact h.held
    · rw [changes]
      exact h.covered
  | create m now free revision messages changes =>
    obtain ⟨hbound, hnew⟩ := h.append hnumbered hnumbered' changes
    have hkept : ∀ c ∈ chat.changes.rows, c ∈ chat'.changes.rows := fun c hc => by
      rw [changes]
      exact Table.mem_insertOrIgnore_of_mem hc
    refine ⟨⟨h.bounded.1, hbound⟩, fun id old hold => ?_, fun c hc hconv hstart hcursor => ?_⟩
    · obtain ⟨row, hfind, hconv, hle, hcase⟩ := h.held id old hold
      refine ⟨row, ?_, hconv, hle, ?_⟩
      · rw [messages, Table.find?_insertOrIgnore, hfind, Option.some_or]
      · rcases hcase with hsame | ⟨c, hc, hpending⟩
        · exact .inl hsame
        · exact .inr ⟨c, hkept c hc, hpending⟩
    · rcases hnew c hc with hold | ⟨-, hchanged, hafter⟩
      · exact h.covered c hold hconv hstart hcursor
      · exact absurd (hafter (hchanged.symm.trans hconv)) (by omega)
  | revise m m' now stored id conversation revision message others changes =>
    obtain ⟨hbound, hnew⟩ := h.append hnumbered hnumbered' changes
    have hrows := hnumbered.rows_append changes
    refine ⟨⟨h.bounded.1, hbound⟩, fun other old hold => ?_,
      fun c hc hconv hstart hcursor => ?_⟩
    · obtain ⟨row, hfind, hconv, hle, hcase⟩ := h.held other old hold
      by_cases he : other = m.id
      · subst he
        obtain rfl : m = row := Option.some.inj ((Table.find?_of_mem stored).symm.trans hfind)
        refine ⟨m', message, conversation.trans hconv, by omega, .inr ?_⟩
        have hlast : chat.nextChange m.conversationId m.id (m.revision + 1) now ∈
            chat'.changes.rows := by
          rw [hrows]
          exact List.mem_append_right _ (List.mem_singleton_self _)
        refine ⟨_, hlast, hconv, rfl, ?_⟩
        have hbounded := h.bounded.2
        simp only [Chat.nextChange, hconv]
        push_cast
        omega
      · refine ⟨row, by rw [others other he, hfind], hconv, hle, ?_⟩
        rcases hcase with hsame | ⟨c, hc, hpending⟩
        · exact .inl hsame
        · exact .inr ⟨c, by rw [hrows]; exact List.mem_append_left _ hc, hpending⟩
    · rcases hnew c hc with hold | ⟨-, hchanged, hafter⟩
      · exact h.covered c hold hconv hstart hcursor
      · exact absurd (hafter (hchanged.symm.trans hconv)) (by omega)

/-- The writes of a transaction keep every reader following. -/
theorem writes (h : reader.Follows chat conversationId start) (hnumbered : Numbered chat)
    (hwrites : ChatWrites chat chat') : reader.Follows chat' conversationId start := by
  induction hwrites with
  | refl => exact h
  | tail hbefore hwrite ih => exact ih.write (hnumbered.writes hbefore) hwrite

/-- A page of changes keeps its reader following. -/
theorem receive (h : reader.Follows chat conversationId start) (hnumbered : Numbered chat)
    {limit : ℤ} {page : ReplayPage}
    (hpage : replay owner conversationId reader.cursor limit chat = .ok page) :
    (reader.receive page).Follows chat conversationId start ∧
      (page.hasMore = false → ∀ c ∈ chat.changes.rows, c.conversationId = conversationId →
        (c.changeSequence : ℤ) ≤ (reader.receive page).cursor) := by
  obtain ⟨n, hn, hfrom, hto, hcursor, hend⟩ := replay_eq_ok hpage
  have hsorted := hnumbered.changesAfter_sorted conversationId reader.cursor
  have hselected := hsorted.sublist (List.take_sublist n _)
  -- a change is either on the page, or before the old cursor, or after the new one
  have hbefore : ∀ c ∈ chat.changes.rows, c.conversationId = conversationId →
      reader.cursor < c.changeSequence →
      (c ∈ (changesAfter conversationId reader.cursor chat).take n ∧
        (c.changeSequence : ℤ) ≤ page.nextCursor) ∨ page.nextCursor < c.changeSequence := by
    intro c hc hconv hafter
    have hmem := mem_changesAfter.mpr ⟨hc, hconv, hafter⟩
    rw [hcursor]
    by_cases hon : c ∈ (changesAfter conversationId reader.cursor chat).take n
    · exact .inl ⟨hon, le_pageEnd hselected reader.cursor hon⟩
    · exact .inr (pageEnd_lt hsorted reader.cursor hn hmem hon)
  have hlatest : reader.cursor ≤ page.nextCursor ∧
      page.nextCursor ≤ chat.latestChange conversationId := by
    rw [hcursor]
    rcases List.eq_nil_or_concat ((changesAfter conversationId reader.cursor chat).take n) with
      hnil | ⟨front, c, hconcat⟩
    · simp only [hnil, pageEnd, List.getLast?_nil, Option.map_none, Option.getD_none]
      exact ⟨le_refl _, h.bounded.2⟩
    · have hmem : c ∈ (changesAfter conversationId reader.cursor chat).take n := by
        rw [hconcat]
        simp
      obtain ⟨hc, hconv, hafter⟩ := mem_changesAfter.mp (List.mem_of_mem_take hmem)
      have hle := (hnumbered.le_latestChange hc).2
      rw [hconv] at hle
      simp only [hconcat, List.concat_eq_append, pageEnd, List.getLast?_append,
        List.getLast?_singleton, Option.some_or, Option.map_some, Option.getD_some]
      exact ⟨hafter.le, by exact_mod_cast hle⟩
  have hids : ∀ c ∈ (changesAfter conversationId reader.cursor chat).take n,
      c.messageId ∈ (page.messages.map Prod.fst).map (·.id) := by
    intro c hc
    obtain ⟨m, hm, hreplayed⟩ := hfrom c hc
    exact (of_replayed hreplayed).1 ▸ List.mem_map_of_mem (List.mem_map_of_mem hm)
  have hshown : ∀ id, (reader.receive page).held id =
      if id ∈ (page.messages.map Prod.fst).map (·.id) then chat.current id else reader.held id := by
    refine foldl_keepHighest reader.held (fun m hm => ?_) (fun id old m hold hm => ?_)
    · obtain ⟨⟨m, k⟩, hmem, rfl⟩ := List.mem_map.mp hm
      obtain ⟨c, -, hreplayed⟩ := hto _ hmem
      obtain ⟨hid, hcurrent⟩ := of_replayed hreplayed
      exact hid.symm ▸ hcurrent
    · obtain ⟨row, hfind, -, hle, -⟩ := h.held id old hold
      simp only [Chat.current, hfind, Option.map_some, Option.some.injEq] at hm
      exact hm ▸ hle
  have hstored : ∀ c ∈ chat.changes.rows, ∃ row, chat.messages.find? c.messageId = some row ∧
      row.conversationId = c.conversationId := by
    intro c hc
    obtain ⟨row, hrow, hid, hconv⟩ := hnumbered.known c hc
    exact ⟨row, hid ▸ Table.find?_of_mem hrow, hconv⟩
  refine ⟨⟨⟨h.bounded.1.trans hlatest.1, hlatest.2⟩, fun id m hm => ?_,
    fun c hc hconv hstart hle => ?_⟩, fun hmore c hc hconv => ?_⟩
  · rw [hshown] at hm
    split at hm
    · next hmem =>
      obtain ⟨x, hx, rfl⟩ := List.mem_map.mp hmem
      obtain ⟨⟨x, k⟩, hpair, rfl⟩ := List.mem_map.mp hx
      obtain ⟨c, hc, hreplayed⟩ := hto _ hpair
      obtain ⟨hchange, hconv, -⟩ := mem_changesAfter.mp (List.mem_of_mem_take hc)
      obtain ⟨row, hfind, hrow⟩ := hstored c hchange
      rw [(of_replayed hreplayed).1, Chat.current, hfind, Option.map_some] at hm
      obtain rfl := Option.some.inj hm
      exact ⟨row, (of_replayed hreplayed).1 ▸ hfind, hrow.trans hconv, le_refl _, .inl rfl⟩
    · next hmem =>
      obtain ⟨row, hfind, hconv, hle, hcase⟩ := h.held id m hm
      refine ⟨row, hfind, hconv, hle, hcase.imp_right ?_⟩
      rintro ⟨c, hc, hcconv, rfl, hafter⟩
      rcases hbefore c hc hcconv hafter with ⟨hon, -⟩ | hlater
      · exact absurd (hids c hon) hmem
      · exact ⟨c, hc, hcconv, rfl, hlater⟩
  · rw [hshown]
    split
    · obtain ⟨row, hfind, -⟩ := hstored c hc
      simp [Chat.current, hfind]
    · next hmem =>
      rcases le_or_gt (c.changeSequence : ℤ) reader.cursor with hold | hafter
      · exact h.covered c hc hconv hstart hold
      · rcases hbefore c hc hconv hafter with ⟨hon, -⟩ | hlater
        · exact absurd (hids c hon) hmem
        · exact absurd hlater (not_lt.mpr hle)
  · rcases le_or_gt (c.changeSequence : ℤ) reader.cursor with hold | hafter
    · exact hold.trans hlatest.1
    · have hmem := mem_changesAfter.mpr ⟨hc, hconv, hafter⟩
      rw [← hend hmore] at hmem
      exact (le_pageEnd hselected reader.cursor hmem).trans_eq hcursor.symm

/-- A reader that has seen the last change is up to date. -/
theorem upToDate (h : reader.Follows chat conversationId start)
    (hlast : ∀ c ∈ chat.changes.rows, c.conversationId = conversationId →
      (c.changeSequence : ℤ) ≤ reader.cursor) : UpToDate chat conversationId start reader := by
  have hcurrent : ∀ id m, reader.held id = some m →
      ∃ row ∈ chat.messages.rows, row.id = id ∧ row.toPublic = m := by
    intro id m hm
    obtain ⟨row, hfind, -, -, hcase⟩ := h.held id m hm
    obtain ⟨hrow, hid⟩ := Table.mem_of_find? hfind
    rcases hcase with hsame | ⟨c, hc, hconv, -, hafter⟩
    · exact ⟨row, hrow, hid, hsame.symm⟩
    · exact absurd (hlast c hc hconv) (not_le.mpr hafter)
  refine ⟨hcurrent, fun c hc hconv hstart => ?_⟩
  have hseen := h.covered c hc hconv hstart (hlast c hc hconv)
  obtain ⟨m, hm⟩ := Option.ne_none_iff_exists'.mp hseen
  obtain ⟨row, hrow, hid, hsame⟩ := hcurrent _ m hm
  exact ⟨row, hrow, hid, by rw [hid, hm, hsame]⟩

end Reader.Follows

/-- A listed page shows stored messages and the last change of its conversation. -/
theorem listConversation_cases {owner freshId : String} {requested : Option String}
    {before : Option ℤ} {limit now : ℤ} {chat chat' : Chat} {page : ConversationPage}
    (h : listConversation owner requested before limit freshId now chat = .ok (page, chat')) :
    (chat'.messages = chat.messages ∧ chat'.changes = chat.changes) ∧
      page.latestChange = chat'.latestChange page.conversationId ∧
      ∀ m ∈ page.messages, ∃ row, chat'.messages.find? m.id = some row ∧
        row.conversationId = page.conversationId ∧ row.toPublic = m := by
  simp only [listConversation, bind_eq_ok, raiseIf_eq_ok, pure_eq_ok, Prod.exists, exists_const,
    Prod.mk.injEq] at h
  obtain ⟨-, -, c, mid, hconversation, rfl, rfl⟩ := h
  refine ⟨requestedConversation_writes hconversation, rfl, fun m hm => ?_⟩
  obtain ⟨row, hrow, rfl⟩ := List.mem_map.mp hm
  have hmem := List.mem_of_mem_take (List.mem_of_mem_take (List.mem_reverse.mp hrow))
  simp only [List.mem_mergeSort, List.mem_filter, decide_eq_true_eq] at hmem
  exact ⟨row, Table.find?_of_mem hmem.1, hmem.2.2.1, rfl⟩

/-- A transaction of any client is a sequence of numbered writes. -/
theorem storeStep_writes (chat : Chat) (step : StoreStep) :
    ChatWrites chat (storeStep chat step) := by
  cases step with
  | write op => exact chatStep_numbered chat op
  | list owner conversationId before limit freshId now =>
    refine commit_of (P := fun chat' => ChatWrites chat chat') .refl fun chat' h => ?_
    obtain ⟨page, h⟩ := stateOf_eq_ok.mp h
    obtain ⟨⟨hmessages, hchanges⟩, -⟩ := listConversation_cases h
    exact ChatWrites.other hmessages hchanges

/-- Every run of the store keeps its changes numbered. -/
theorem Numbered.of_run (steps : List StoreStep) : Numbered (run storeStep .initial steps) :=
  run_invariant' (fun chat step h => h.writes (storeStep_writes chat step)) steps initial

/-- A reader that starts is following. -/
theorem Starts.follows {owner conversationId : String} {chat : Chat} {s : ReaderSession}
    (hnumbered : Numbered chat) (h : Starts owner conversationId chat s) :
    Numbered s.chat ∧ s.reader.Follows s.chat conversationId s.reader.cursor := by
  cases h with
  | nothing =>
    refine ⟨hnumbered, ⟨le_refl _, Int.natCast_nonneg _⟩, by simp, fun c _ _ hstart hle => ?_⟩
    exact absurd hstart (not_lt.mpr hle)
  | @firstPage requested limit freshId now page chat' listed conversation =>
    obtain ⟨⟨hmessages, hchanges⟩, hlatest, hrows⟩ := listConversation_cases listed
    subst conversation
    refine ⟨hnumbered.write (.other hmessages hchanges), ⟨Int.natCast_nonneg _, ?_⟩,
      fun id m hm => ?_, fun _ _ _ hstart hle => absurd hstart (not_lt.mpr hle)⟩
    · exact Int.ofNat_le.mpr hlatest.le
    · have hseen : ∀ m ∈ page.messages, chat'.current m.id = some m := by
        intro m hm
        obtain ⟨row, hfind, -, rfl⟩ := hrows m hm
        rw [Chat.current, hfind, Option.map_some]
      have hheld := foldl_keepHighest (fun _ => none) hseen (by simp) id
      simp only [hheld] at hm
      split at hm
      · next hmem =>
        obtain ⟨x, hx, rfl⟩ := List.mem_map.mp hmem
        obtain ⟨row, hfind, hconv, rfl⟩ := hrows x hx
        rw [Chat.current, hfind] at hm
        obtain rfl := Option.some.inj hm
        exact ⟨row, hfind, hconv, le_refl _, .inl rfl⟩
      · simp at hm

/-- Whatever happens in a session, its reader follows. -/
theorem sessionStep_follows {owner conversationId : String} {s : ReaderSession} {start : ℤ}
    (h : Numbered s.chat ∧ s.reader.Follows s.chat conversationId start) (step : SessionStep) :
    Numbered (sessionStep owner conversationId s step).chat ∧
      (sessionStep owner conversationId s step).reader.Follows
        (sessionStep owner conversationId s step).chat conversationId start := by
  cases step with
  | store step =>
    have hwrites := storeStep_writes s.chat step
    exact ⟨h.1.writes hwrites, h.2.writes h.1 hwrites⟩
  | replay limit =>
    simp only [sessionStep]
    split
    · next page hpage => exact ⟨h.1, (h.2.receive h.1 hpage).1⟩
    · exact h

/-- Every run of the store keeps its submissions. -/
theorem Submissions.of_store (steps : List StoreStep) :
    Submissions (run storeStep .initial steps) := by
  refine run_invariant' (fun chat step h => ?_) steps Submissions.initial
  cases step with
  | write op => exact h.moves (chatStep_moves chat op)
  | list owner conversationId before limit freshId now =>
    refine commit_of (P := Submissions) h fun chat' hlist => ?_
    simp only [stateOf_eq_ok, listConversation, bind_eq_ok, pure_eq_ok, Prod.exists,
      Prod.mk.injEq] at hlist
    obtain ⟨_, _, -, _, -, _, mid, hconversation, -, rfl⟩ := hlist
    exact h.moves (requestedConversation_moves hconversation).1

/-- Replaying one's own conversation from a valid cursor returns a page. -/
theorem replay_returns (steps : List StoreStep) {owner conversationId : String} {after limit : ℤ}
    {c : MagiConversation} (hafter : 0 ≤ after ∧ after ≤ maxReplayCursor)
    (hlimit : 1 ≤ limit ∧ limit ≤ maxHistoryMessages)
    (hc : conversationRow owner conversationId (run storeStep .initial steps) = .ok c) :
    ∃ page, replay owner conversationId after limit (run storeStep .initial steps) = .ok page := by
  obtain ⟨hstored, hid, howner⟩ := of_conversationRow hc
  have hitems : ∀ change ∈ ((changesAfter conversationId after
      (run storeStep .initial steps)).take (limit.toNat + 1)).take limit.toNat,
      ∃ m, replayed owner (run storeStep .initial steps) change = .ok m := by
    intro change hchange
    obtain ⟨hmem, hconv, -⟩ := mem_changesAfter.mp
      (List.mem_of_mem_take (List.mem_of_mem_take hchange))
    obtain ⟨m, hm, hmid, hmconv⟩ := (Numbered.of_run steps).known change hmem
    obtain ⟨d, hd, hdid, hdowner⟩ := (Submissions.of_store steps).hosted m hm
    have hsame : d = c := Table.eq_of_mem hd hstored
      (hdid.trans (hmconv.trans (hconv.trans hid.symm)))
    have hown : m.ownerUserId = owner := hdowner.symm.trans (hsame ▸ howner)
    have hfind : (run storeStep .initial steps).messages.find? change.messageId = some m :=
      hmid ▸ Table.find?_of_mem hm
    have hkept : (some m).filter (fun m => decide (m.ownerUserId = owner)) = some m :=
      Option.filter_eq_some_iff.mpr ⟨rfl, decide_eq_true hown⟩
    refine ⟨(m.toPublic, change.changeSequence), ?_⟩
    simp only [replayed, hfind, hkept]
  obtain ⟨messages, hmessages⟩ := mapM_returns hitems
  have hvalid : ¬(after < 0 ∨ ¬(1 ≤ limit ∧ limit ≤ maxHistoryMessages)) := by
    rw [not_or, not_not]
    exact ⟨not_lt.mpr hafter.1, hlimit⟩
  simp only [replay, raiseIf_ok hvalid, ok_bind, hc, raiseIf_ok (not_lt.mpr hafter.2), hmessages]
  exact ⟨_, rfl⟩

/-- A prompt is submitted and answered. -/
def answeredOnce : List StoreStep :=
  [.write (.prepareSubmission "user_1" "client_1" "Hello" none "text" (.ok []) false
      ⟨"chat_1", "turn_1", "prompt_1", "answer_1"⟩ 1),
    .write (.completeSubmission "user_1" "answer_1" 1 "Hi" 20 0 2)]

/-- The answer has two revisions, and is replayed after the first as after the second. -/
theorem replay_answered :
    (run storeStep .initial answeredOnce).changes.rows.map (·.messageId) =
        ["prompt_1", "answer_1", "answer_1"] ∧
      ∃ page, replay "user_1" "chat_1" 1 1 (run storeStep .initial answeredOnce) = .ok page :=
  ⟨by decide, replay_returns answeredOnce (by decide) (by decide)
    (c := { id := "chat_1", ownerUserId := "user_1", isDefault := true, createdAt := 1,
            updatedAt := 2 }) rfl⟩

/-- Chat replay is complete. In every run of the store, changes are numbered without gaps and each
message has one change for each of its revisions; and a reader that starts from nothing or from the
first page, and pages the changes after its cursor until there are no more, whatever is written
between its calls, has seen what is stored and every message that was written after its start. -/
theorem chat_replay_complete (steps : List StoreStep) :
    Numbered (run storeStep .initial steps) ∧
    ∀ owner conversationId opened,
      Starts owner conversationId (run storeStep .initial steps) opened →
      ∀ (between : List SessionStep) (limit : ℤ) (page : ReplayPage),
        let s := run (sessionStep owner conversationId) opened between
        replay owner conversationId s.reader.cursor limit s.chat = .ok page →
        page.hasMore = false →
        UpToDate s.chat conversationId opened.reader.cursor (s.reader.receive page) := by
  have hnumbered := Numbered.of_run steps
  refine ⟨hnumbered, fun owner conversationId opened hstarts between limit page => ?_⟩
  intro s hpage hmore
  have hs : Numbered s.chat ∧ s.reader.Follows s.chat conversationId opened.reader.cursor :=
    run_invariant' (I := fun s : ReaderSession => Numbered s.chat ∧
      s.reader.Follows s.chat conversationId opened.reader.cursor)
      (fun _ step h => sessionStep_follows h step) between (hstarts.follows hnumbered)
  obtain ⟨hfollows, hlast⟩ := hs.2.receive hs.1 hpage
  exact hfollows.upToDate (hlast hmore)

end Magistrate
