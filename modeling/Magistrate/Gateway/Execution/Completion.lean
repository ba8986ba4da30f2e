import Magistrate.Gateway.Chat.Generated
import Magistrate.Gateway.Execution.Ingest
import Magistrate.Core.Pool

/-!
# Completion messages

A verified completion wakes the generation of one assistant message. A worker
claims the event, prepares its message, stores what the model answers, and
finishes the event, each in a transaction of its own; a restart requeues the
events whose generation it interrupted.
-/

namespace Magistrate

/-- `MagiVerifiedOutcome` -/
structure VerifiedOutcome where
  title : String
  project : Option String
  completedAtMs : ℕ
  checks : List VerificationCheck
  artifacts : List CompletionArtifact
  deriving DecidableEq, Repr

/-- What a claim returns. -/
structure CompletionClaim where
  event : ExecutionEvent
  objective : ExecutionObjective
  evidence : CompletionEvidence
  attempt : ℕ
  deriving DecidableEq, Repr

/-- `_outcome_facts` -/
def CompletionClaim.outcomeFacts (claim : CompletionClaim) : VerifiedOutcome where
  title := claim.objective.title
  project := claim.objective.project
  completedAtMs := claim.event.occurredAt
  checks := claim.evidence.checks
  artifacts := claim.evidence.artifacts

/-- How a generation ends. -/
inductive GenerationEnd where
  | completed
  | failed
  deriving DecidableEq, Repr

/-- The state of an event whose generation ended. -/
def GenerationEnd.state : GenerationEnd → GenerationState
  | completed => .completed
  | failed => .failed

namespace ExecutionEvent

/-- An event whose generation is claimed. -/
def claimed (now : ℤ) (e : ExecutionEvent) : ExecutionEvent :=
  { e with
    generationState := some .generating
    generationAttemptCount := e.generationAttemptCount + 1
    errorCode := none
    updatedAt := now }

/-- An event whose generation ended. -/
def finished (ending : GenerationEnd) (assistantMessageId : Option String) (now : ℤ)
    (e : ExecutionEvent) : ExecutionEvent :=
  { e with
    generationState := some ending.state
    assistantMessageId
    errorCode := if ending = .completed then none else some "magi_generation_failed"
    updatedAt := now }

/-- An event whose generation was interrupted. -/
def requeued (now : ℤ) (e : ExecutionEvent) : ExecutionEvent :=
  { e with
    generationState := some .queued
    errorCode := none
    updatedAt := now }

theorem key_claimed (now : ℤ) (e : ExecutionEvent) : (e.claimed now).key = e.key := rfl

theorem key_finished (ending : GenerationEnd) (assistantMessageId : Option String) (now : ℤ)
    (e : ExecutionEvent) : (e.finished ending assistantMessageId now).key = e.key := rfl

theorem key_requeued (now : ℤ) (e : ExecutionEvent) : (e.requeued now).key = e.key := rfl

end ExecutionEvent

namespace FirstmateExecutionStore

/-- An event with its objective. -/
def claimable (owner eventId : String) (db : Execution) :
    Option (ExecutionEvent × ExecutionObjective) :=
  (db.events.find? (owner, eventId)).bind fun e =>
    (db.objectives.find? (e.ownerUserId, e.objectiveId)).map fun objective => (e, objective)

/-- `claim_completion` -/
def claimCompletion (owner eventId : String) (retryFailed : Bool) (now : ℤ) (db : Execution) :
    Except ExecutionFailure (Option CompletionClaim × Execution) :=
  match claimable owner eventId db with
  | none => .error (.notFound "Firstmate execution event not found.")
  | some (row, objective) =>
    match (if row.phase = .completed then row.evidence else none) with
    | none => .error (.conflict
        "Only a verified objective completion can wake a Magi completion message.")
    | some evidence =>
      if row.generationState = some .queued ∨
          row.generationState = some .failed ∧ retryFailed = true then
        let events := db.events.update (owner, eventId) (.claimed now)
          (ExecutionEvent.key_claimed now)
        .ok (some { event := row, objective, evidence, attempt := row.generationAttemptCount + 1 },
          { db with events })
      else .ok (none, db)

/-- The generated assistant message of an event is the named one. -/
def generatedMessage (owner eventId messageId : String) (chat : Chat) : Bool :=
  ((chat.generated.find? (owner, eventId)).any fun b => b.messageId = messageId) ∧
    (chat.assistantMessage owner messageId).isSome

/-- `finish_completion` -/
def finishCompletion (owner eventId : String) (ending : GenerationEnd)
    (assistantMessageId : Option String) (now : ℤ) (db : Execution) :
    Except ExecutionFailure Execution := do
  raiseIf (ending = .completed ∧ (assistantMessageId = none ∨ assistantMessageId = some ""))
    (.valueError "A completed generation requires its canonical assistant identity.")
  match db.events.find? (owner, eventId) with
  | none => .error (.notFound "Firstmate execution event not found.")
  | some row =>
    if row.generationState = some .completed then
      raiseIf (ending ≠ .completed ∨ row.assistantMessageId ≠ assistantMessageId)
        (.conflict "Completion-message state cannot regress.")
      return db
    else
      raiseIf (row.generationState ≠ some .generating)
        (.conflict "Completion-message generation was not claimed.")
      raiseIf ((assistantMessageId.all fun id => generatedMessage owner eventId id db.chat) = false)
        (.notFound "Generated native Magi assistant message not found.")
      let events := db.events.update (owner, eventId) (.finished ending assistantMessageId now)
        (ExecutionEvent.key_finished ending assistantMessageId now)
      return { db with events }

/-- `recover_interrupted`: requeue every claimed generation. -/
def recoverInterrupted (now : ℤ) (db : Execution) : Execution :=
  let events := db.events.updateWhere (fun e => e.generationState = some .generating)
    (.requeued now) (ExecutionEvent.key_requeued now)
  { db with events }

end FirstmateExecutionStore

/-- `generated_assistant`: the stored message of a generation key. -/
def MagiChatStore.generatedAssistant (owner generationKey : String) (chat : Chat) :
    Except ChatFailure MagiMessage := do
  match chat.generated.find? (owner, generationKey) with
  | none => .error (.notFound "Generated native Magi message not found.")
  | some binding =>
    match chat.assistantMessage owner binding.messageId with
    | none => .error (.conflict
        "Generated native Magi binding has no canonical assistant message.")
    | some assistant =>
      let _ ← MagiChatStore.conversationRow owner assistant.conversationId chat
      return assistant

/-- Where a worker that claimed an event is. -/
inductive GenerationTask where
  /-- The claim is made, and the message is not prepared yet. -/
  | prepare (claim : CompletionClaim)
  /-- The model is asked for the message of a claimed attempt. -/
  | answer (claim : CompletionClaim) (prepared : PreparedGeneratedMessage)
  /-- A failure of the model is to be stored. -/
  | fail (claim : CompletionClaim) (prepared : PreparedGeneratedMessage) (errorCode : String)
      (toolCalls : ℕ)
  /-- The message is to be read. -/
  | read (claim : CompletionClaim)
  /-- The event is to be finished. -/
  | finish (claim : CompletionClaim) (ending : GenerationEnd) (assistantMessageId : String)
  /-- An exception is handled. -/
  | giveUp (claim : CompletionClaim) (assistantMessageId : Option String)
  deriving DecidableEq, Repr

/-- What a worker draws in a transaction: random ids, the time, and what the model answers, a text
or the code of its failure. -/
structure GenerationDraw where
  fresh : FreshIds
  now : ℤ
  answer : Except String String
  latencyMs : ℕ
  toolCalls : ℕ

namespace GenerationTask

open FirstmateExecutionStore MagiChatStore

/-- The next transaction of `_generate_completion`. The digest of the facts of a claim is computed
from what they are; invalid facts raise. -/
def turn (factsSha256 : VerifiedOutcome → Except ChatFailure String) (draw : GenerationDraw)
    (task : GenerationTask) (db : Execution) : Execution × Option GenerationTask :=
  match task with
  | .prepare claim =>
    match (do
      let facts ← factsSha256 claim.outcomeFacts
      prepareGeneratedAssistant claim.event.ownerUserId claim.event.eventId facts
        claim.objective.conversationId claim.objective.originMessageId (1 < claim.attempt)
        draw.fresh draw.now db.chat) with
    | .error _ => (db, some (.giveUp claim none))
    | .ok (prepared, chat) => ({ db with chat },
        some (if prepared.claimed = true then .answer claim prepared else .read claim))
  | .answer claim prepared =>
    match draw.answer with
    | .error code => (db, some (.fail claim prepared code draw.toolCalls))
    | .ok content =>
      match completeSubmission claim.event.ownerUserId prepared.assistantMessageId prepared.attempt
          content draw.latencyMs 0 draw.now db.chat with
      | .error _ => (db, some (.fail claim prepared "provider_failure" 0))
      | .ok (_, chat) => ({ db with chat }, some (.read claim))
  | .fail claim prepared errorCode toolCalls =>
    match failSubmission claim.event.ownerUserId prepared.assistantMessageId prepared.attempt
        errorCode toolCalls draw.now db.chat with
    | .error _ => (db, some (.giveUp claim none))
    | .ok (_, chat) => ({ db with chat }, some (.read claim))
  | .read claim =>
    match generatedAssistant claim.event.ownerUserId claim.event.eventId db.chat with
    | .error _ => (db, some (.giveUp claim none))
    | .ok assistant =>
      let ending : GenerationEnd :=
        if assistant.status = .completed ∧ assistant.id ≠ "" then .completed else .failed
      (db, some (.finish claim ending assistant.id))
  | .finish claim ending id =>
    match finishCompletion claim.event.ownerUserId claim.event.eventId ending (some id) draw.now
        db with
    | .error _ => (db, some (.giveUp claim (some id)))
    | .ok db => (db, none)
  | .giveUp claim id =>
    (commit (finishCompletion claim.event.ownerUserId claim.event.eventId .failed id
      draw.now db) db, none)

end GenerationTask

/-- A step of the workers, a restart, or a transaction of others. A worker can stop at any point. -/
inductive CompletionStep where
  | ingest (owner : String) (event : FirstmateExecutionEvent) (now : ℤ) (projected : Bool)
  | wake (owner eventId : String) (retryFailed : Bool) (now : ℤ)
  | turn (task : ℕ) (draw : GenerationDraw)
  | stop (task : ℕ)
  | finish (owner eventId : String) (ending : GenerationEnd) (assistantMessageId : Option String)
      (now : ℤ)
  | recoverInterrupted (now : ℤ)
  | chat (op : ChatOp)

/-- What the stores and the workers compute from texts. -/
structure CompletionRules where
  activity : ActivityRules
  factsSha256 : VerifiedOutcome → Except ChatFailure String

open FirstmateExecutionStore

/-- The tables and the workers after a step. -/
def completionStep (rules : CompletionRules) (p : Pool Execution GenerationTask) :
    CompletionStep → Pool Execution GenerationTask
  | .ingest owner event now projected =>
    p.write (commit (stateOf (ingest rules.activity owner event now projected p.shared)) p.shared)
  | .wake owner eventId retryFailed now =>
    match claimCompletion owner eventId retryFailed now p.shared with
    | .error _ => p
    | .ok (none, db) => p.write db
    | .ok (some claim, db) => (p.write db).spawn (.prepare claim)
  | .turn task draw => p.turn task (GenerationTask.turn rules.factsSha256 draw)
  | .stop task => p.turn task fun _ db => (db, none)
  | .finish owner eventId ending assistantMessageId now =>
    p.write (commit (finishCompletion owner eventId ending assistantMessageId now
      p.shared) p.shared)
  | .recoverInterrupted now => p.write (recoverInterrupted now p.shared)
  | .chat op => p.write { p.shared with chat := chatStep p.shared.chat op }

namespace FirstmateExecutionStore

variable {owner eventId : String} {retryFailed : Bool} {now : ℤ} {db db' : Execution}

/-- A claim takes a queued or a failed event to its next attempt, or nothing. -/
theorem claimCompletion_cases {claim : Option CompletionClaim}
    (h : claimCompletion owner eventId retryFailed now db = .ok (claim, db')) :
    (claim = none ∧ db' = db) ∨ ∃ c e, claim = some c ∧
      db.events.find? (owner, eventId) = some e ∧
      (e.generationState = some .queued ∨ e.generationState = some .failed) ∧
      c.attempt = e.generationAttemptCount + 1 ∧
      let events := db.events.update (owner, eventId) (.claimed now)
        (ExecutionEvent.key_claimed now)
      db' = { db with events } := by
  unfold claimCompletion at h
  split at h
  · exact absurd h (by simp)
  · next row objective hrow =>
    obtain ⟨e, he, hobjective⟩ := Option.bind_eq_some_iff.mp hrow
    obtain ⟨o, -, hpair⟩ := Option.map_eq_some_iff.mp hobjective
    obtain ⟨rfl, -⟩ := Prod.mk.inj hpair
    split at h
    · exact absurd h (by simp)
    · split at h
      · next heligible =>
        obtain ⟨rfl, rfl⟩ := Prod.mk.inj (Except.ok.inj h)
        exact .inr ⟨_, e, rfl, he, heligible.imp id (·.1), rfl, rfl⟩
      · obtain ⟨rfl, rfl⟩ := Prod.mk.inj (Except.ok.inj h)
        exact .inl ⟨rfl, rfl⟩

/-- A generated message is the one of its binding. -/
theorem generatedMessage_eq_true {id : String} {chat : Chat}
    (h : generatedMessage owner eventId id chat = true) :
    ∃ b, chat.generated.find? (owner, eventId) = some b ∧ b.messageId = id := by
  obtain ⟨hbinding, -⟩ := of_decide_eq_true h
  obtain ⟨b, hb, hid⟩ := (Option.any_eq_true _ _).mp hbinding
  exact ⟨b, hb, of_decide_eq_true hid⟩

/-- A finish ends a claimed generation, with the message of the event if it names one. -/
theorem finishCompletion_cases {ending : GenerationEnd} {assistantMessageId : Option String}
    (h : finishCompletion owner eventId ending assistantMessageId now db = .ok db') :
    db' = db ∨ ∃ e, db.events.find? (owner, eventId) = some e ∧
      e.generationState = some .generating ∧
      (ending = .completed → ∃ b, db.chat.generated.find? (owner, eventId) = some b ∧
        assistantMessageId = some b.messageId) ∧
      let events := db.events.update (owner, eventId) (.finished ending assistantMessageId now)
        (ExecutionEvent.key_finished ending assistantMessageId now)
      db' = { db with events } := by
  simp only [finishCompletion, bind_eq_ok, raiseIf_eq_ok, exists_const, not_and, not_or] at h
  obtain ⟨hnamed, h⟩ := h
  split at h
  · exact absurd h (by simp)
  · next row hrow =>
    split at h
    · simp only [bind_eq_ok, raiseIf_eq_ok, pure_eq_ok, exists_const] at h
      exact .inl h.2.symm
    · simp only [bind_eq_ok, raiseIf_eq_ok, pure_eq_ok, exists_const, not_not,
        Bool.not_eq_false] at h
      obtain ⟨hgenerating, hmessage, rfl⟩ := h
      refine .inr ⟨row, hrow, hgenerating, fun hcompleted => ?_, rfl⟩
      obtain ⟨id, rfl⟩ := Option.ne_none_iff_exists'.mp (hnamed hcompleted).1
      obtain ⟨b, hb, hid⟩ := generatedMessage_eq_true hmessage
      exact ⟨b, hb, by rw [hid]⟩

end FirstmateExecutionStore

/-- What later tables keep: attempts only grow, a completed generation stays as it is, and so does
every binding. -/
structure GenerationLater (db db' : Execution) : Prop where
  events : ∀ key e, db.events.find? key = some e → ∃ e', db'.events.find? key = some e' ∧
    e.generationAttemptCount ≤ e'.generationAttemptCount ∧
    (e.generationState = some .completed → e' = e)
  bindings : ∀ key b, db.chat.generated.find? key = some b →
    db'.chat.generated.find? key = some b
  chat : db.chat.Grows db'.chat

namespace GenerationLater

variable {db db' db'' : Execution}

theorem refl (db : Execution) : GenerationLater db db :=
  ⟨fun _ e he => ⟨e, he, le_rfl, fun _ => rfl⟩, fun _ _ hb => hb, .refl _⟩

theorem trans (h : GenerationLater db db') (h' : GenerationLater db' db'') :
    GenerationLater db db'' := by
  refine ⟨fun key e he => ?_, fun key b hb => h'.bindings key b (h.bindings key b hb),
    h.chat.trans h'.chat⟩
  obtain ⟨e', he', hattempts, hfinal⟩ := h.events key e he
  obtain ⟨e'', he'', hattempts', hfinal'⟩ := h'.events key e' he'
  refine ⟨e'', he'', hattempts.trans hattempts', fun hcompleted => ?_⟩
  obtain rfl := hfinal hcompleted
  exact hfinal' hcompleted

end GenerationLater

/-- A completed event names the message of its binding. -/
structure CompletionsBound (db : Execution) : Prop where
  bindings : GeneratedBindings db.chat
  completed : ∀ e ∈ db.events.rows, e.generationState = some .completed →
    ∃ b, db.chat.generated.find? e.key = some b ∧ e.assistantMessageId = some b.messageId

namespace CompletionsBound

variable {db db' : Execution} {owner eventId : String} {now : ℤ}

theorem initial : CompletionsBound .initial :=
  ⟨.initial, fun _ he => by simp [Execution.initial] at he⟩

/-- Events that are changed one by one, completed ones not at all, and completed only with the
message of their binding. -/
theorem change (h : CompletionsBound db) {g : String × String → ExecutionEvent → ExecutionEvent}
    (hchat : db'.chat = db.chat)
    (hfind : ∀ key, db'.events.find? key = (db.events.find? key).map (g key))
    (hattempts : ∀ key e, e.generationAttemptCount ≤ (g key e).generationAttemptCount)
    (hfinal : ∀ key e, db.events.find? key = some e → e.generationState = some .completed →
      g key e = e)
    (hbound : ∀ key e, db.events.find? key = some e → (g key e).generationState = some .completed →
      ∃ b, db.chat.generated.find? key = some b ∧ (g key e).assistantMessageId = some b.messageId) :
    CompletionsBound db' ∧ GenerationLater db db' := by
  refine ⟨⟨hchat ▸ h.bindings, fun e' he' hcompleted => ?_⟩, fun key e he => ⟨g key e, ?_,
    hattempts key e, hfinal key e he⟩, fun _ _ hb => hchat ▸ hb, hchat ▸ .refl _⟩
  · have hfound := Table.find?_of_mem he'
    rw [hfind] at hfound
    obtain ⟨e, he, hchanged⟩ := Option.map_eq_some_iff.mp hfound
    rw [← hchanged] at hcompleted
    obtain ⟨b, hb, hid⟩ := hbound _ e he hcompleted
    rw [hchanged] at hid
    exact ⟨b, hchat ▸ hb, hid⟩
  · rw [hfind, he, Option.map_some]

/-- The event under a key is changed, if it is not completed. -/
theorem update (h : CompletionsBound db) {f : ExecutionEvent → ExecutionEvent}
    (hf : ∀ e, (f e).key = e.key)
    (hattempts : ∀ e : ExecutionEvent, e.generationAttemptCount ≤ (f e).generationAttemptCount)
    (hopen : ∀ e, db.events.find? (owner, eventId) = some e → e.generationState ≠ some .completed)
    (hbound : ∀ e, (f e).generationState = some .completed →
      ∃ b, db.chat.generated.find? (owner, eventId) = some b ∧
        (f e).assistantMessageId = some b.messageId) :
    CompletionsBound { db with events := db.events.update (owner, eventId) f hf } ∧
      GenerationLater db { db with events := db.events.update (owner, eventId) f hf } := by
  refine h.change (g := fun key e => if key = (owner, eventId) then f e else e) rfl
    (fun key => by rw [Table.find?_update]) (fun key e => ?_) (fun key e he hcompleted => ?_)
    fun key e he hcompleted => ?_
  · split
    · exact hattempts e
    · exact le_rfl
  · by_cases hkey : key = (owner, eventId)
    · exact absurd hcompleted (hopen e (hkey ▸ he))
    · rw [if_neg hkey]
  · split at hcompleted
    · next hkey =>
      rw [if_pos hkey, hkey]
      exact hbound e hcompleted
    · next hkey =>
      obtain ⟨hmem, hkey'⟩ := Table.mem_of_find? he
      rw [if_neg hkey, ← hkey']
      exact h.completed e hmem hcompleted

/-- A claim keeps the completed events. -/
theorem claim (h : CompletionsBound db) {retryFailed : Bool} {claim : Option CompletionClaim}
    (hclaim : claimCompletion owner eventId retryFailed now db = .ok (claim, db')) :
    CompletionsBound db' ∧ GenerationLater db db' := by
  rcases claimCompletion_cases hclaim with ⟨-, rfl⟩ | ⟨c, e, -, he, hstate, -, rfl⟩
  · exact ⟨h, .refl db'⟩
  · refine h.update (ExecutionEvent.key_claimed now) (fun e => Nat.le_succ _)
      (fun e' he' hcompleted => ?_) fun e' hcompleted => ?_
    · obtain rfl := Option.some.inj (he.symm.trans he')
      rcases hstate with hstate | hstate <;> simp [hstate] at hcompleted
    · simp [ExecutionEvent.claimed] at hcompleted

/-- A finish completes an event with the message of its binding. -/
theorem finish (h : CompletionsBound db) {ending : GenerationEnd} {id : Option String}
    (hfinish : finishCompletion owner eventId ending id now db = .ok db') :
    CompletionsBound db' ∧ GenerationLater db db' := by
  rcases finishCompletion_cases hfinish with rfl | ⟨e, he, hgenerating, hnamed, rfl⟩
  · exact ⟨h, .refl db'⟩
  · refine h.update (ExecutionEvent.key_finished ending id now) (fun e => le_rfl)
      (fun e' he' hcompleted => ?_) fun e' hcompleted => ?_
    · obtain rfl := Option.some.inj (he.symm.trans he')
      simp [hgenerating] at hcompleted
    · cases ending with
      | completed => exact hnamed rfl
      | failed => simp [ExecutionEvent.finished, GenerationEnd.state] at hcompleted

/-- A restart keeps the completed events. -/
theorem recoverInterrupted (h : CompletionsBound db) (now : ℤ) :
    CompletionsBound (recoverInterrupted now db) ∧
      GenerationLater db (FirstmateExecutionStore.recoverInterrupted now db) := by
  refine h.change (g := fun _ e => if e.generationState = some .generating
    then e.requeued now else e)
    rfl (fun key => ?_) (fun key e => ?_) (fun key e he hcompleted => ?_)
    fun key e he hcompleted => ?_
  · simp only [FirstmateExecutionStore.recoverInterrupted]
    rw [Table.find?_updateWhere]
    simp
  · split <;> exact le_rfl
  · rw [if_neg (by simp [hcompleted])]
  · split at hcompleted
    · simp [ExecutionEvent.requeued] at hcompleted
    · next hkept =>
      obtain ⟨hmem, hkey⟩ := Table.mem_of_find? he
      rw [if_neg hkept, ← hkey]
      exact h.completed e hmem hcompleted

/-- A chat transaction keeps the completed events and their messages. -/
theorem chat (h : CompletionsBound db) (op : ChatOp) :
    CompletionsBound { db with chat := chatStep db.chat op } ∧
      GenerationLater db { db with chat := chatStep db.chat op } := by
  refine ⟨⟨h.bindings.step op, fun e he hcompleted => ?_⟩, fun _ e he => ⟨e, he, le_rfl,
    fun _ => rfl⟩, fun key b hb => chatStep_generated hb op, (chatStep_moves db.chat op).grows⟩
  obtain ⟨b, hb, hid⟩ := h.completed e he hcompleted
  exact ⟨b, chatStep_generated hb op, hid⟩

/-- A chat transaction that returns keeps the completed events and their messages. -/
theorem chat_ok (h : CompletionsBound db) (op : ChatOp) {chat : Chat}
    (hop : op.apply db.chat = .ok chat) :
    CompletionsBound { db with chat } ∧ GenerationLater db { db with chat } := by
  have hstep := h.chat op
  rwa [chatStep, hop] at hstep

/-- An ingest adds an event without a message at most. -/
theorem ingest (h : CompletionsBound db) {rules : ActivityRules} {event : FirstmateExecutionEvent}
    {projected : Bool} {stored : ExecutionEvent} {duplicate : Bool}
    (hingest : FirstmateExecutionStore.ingest rules owner event now projected db =
      .ok ((stored, duplicate), db')) : CompletionsBound db' ∧ GenerationLater db db' := by
  rcases ingest_stored hingest with ⟨-, -, rfl⟩ | ⟨objective, objectives, hstored⟩
  · exact ⟨h, .refl db'⟩
  obtain ⟨recordId, hrow⟩ := hstored.row
  have hchat := hstored.others.2.2
  have hkeep : ∀ key e, db.events.find? key = some e → db'.events.find? key = some e := by
    intro key e he
    obtain ⟨hmem, rfl⟩ := Table.mem_of_find? he
    refine Table.find?_of_mem ?_
    rw [hstored.events]
    exact List.mem_append_left _ hmem
  refine ⟨⟨hchat ▸ h.bindings, fun e he hcompleted => ?_⟩, fun key e he => ⟨e, hkeep key e he,
    le_rfl, fun _ => rfl⟩, fun _ _ hb => hchat ▸ hb, hchat ▸ .refl _⟩
  rw [hstored.events] at he
  rcases List.mem_append.mp he with he | he
  · rw [hchat]
    exact h.completed e he hcompleted
  · rw [List.mem_singleton.mp he, hrow] at hcompleted
    simp only [eventRow] at hcompleted
    split at hcompleted <;> simp at hcompleted

/-- A transaction of a worker keeps the completed events and their messages. -/
theorem turn (h : CompletionsBound db)
    (factsSha256 : VerifiedOutcome → Except ChatFailure String) (draw : GenerationDraw)
    (task : GenerationTask) :
    CompletionsBound (task.turn factsSha256 draw db).1 ∧
      GenerationLater db (task.turn factsSha256 draw db).1 := by
  have hsame : CompletionsBound db ∧ GenerationLater db db := ⟨h, .refl db⟩
  cases task with
  | prepare claim =>
    simp only [GenerationTask.turn]
    split
    · exact hsame
    · next prepared chat hprepare =>
      simp only [bind_eq_ok] at hprepare
      obtain ⟨facts, -, hprepare⟩ := hprepare
      exact h.chat_ok (.prepareGeneratedAssistant _ _ _ _ _ _ _ _)
        (stateOf_eq_ok.mpr ⟨prepared, hprepare⟩)
  | answer claim prepared =>
    simp only [GenerationTask.turn]
    split
    · exact hsame
    · split
      · exact hsame
      · next took chat hcomplete =>
        exact h.chat_ok (.completeSubmission _ _ _ _ _ _ _)
          (stateOf_eq_ok.mpr ⟨took, hcomplete⟩)
  | fail claim prepared errorCode toolCalls =>
    simp only [GenerationTask.turn]
    split
    · exact hsame
    · next took chat hfail =>
      exact h.chat_ok (.failSubmission _ _ _ _ _ _) (stateOf_eq_ok.mpr ⟨took, hfail⟩)
  | read claim =>
    simp only [GenerationTask.turn]
    split <;> exact hsame
  | finish claim ending id =>
    simp only [GenerationTask.turn]
    split
    · exact hsame
    · next db' hfinish => exact h.finish hfinish
  | giveUp claim id =>
    exact commit_of (P := fun db' => CompletionsBound db' ∧ GenerationLater db db') hsame
      fun db' hfinish => h.finish hfinish

/-- A step keeps the completed events and their messages. -/
theorem step {p : Pool Execution GenerationTask} (h : CompletionsBound p.shared)
    (rules : CompletionRules) (op : CompletionStep) :
    CompletionsBound (completionStep rules p op).shared ∧
      GenerationLater p.shared (completionStep rules p op).shared := by
  have hsame : CompletionsBound p.shared ∧ GenerationLater p.shared p.shared := ⟨h, .refl _⟩
  cases op with
  | ingest owner event now projected =>
    refine commit_of (P := fun db => CompletionsBound db ∧ GenerationLater p.shared db) hsame
      fun db' hok => ?_
    obtain ⟨⟨stored, duplicate⟩, hingest⟩ := stateOf_eq_ok.mp hok
    exact h.ingest hingest
  | wake owner eventId retryFailed now =>
    simp only [completionStep]
    split
    · exact hsame
    · next hclaim => exact h.claim hclaim
    · next hclaim => exact h.claim hclaim
  | turn i draw =>
    rcases p.turn_cases i (GenerationTask.turn rules.factsSha256 draw) with
      hturn | ⟨_, task, _, -, -, hturn⟩
    · rw [completionStep, hturn]
      exact hsame
    · rw [completionStep, hturn]
      exact h.turn rules.factsSha256 draw task
  | stop i =>
    rcases p.turn_cases i fun _ db => (db, none) with hturn | ⟨_, _, _, -, -, hturn⟩ <;>
      rw [completionStep, hturn] <;> exact hsame
  | finish owner eventId ending id now =>
    exact commit_of (P := fun db => CompletionsBound db ∧ GenerationLater p.shared db) hsame
      fun db' hfinish => h.finish hfinish
  | recoverInterrupted now => exact h.recoverInterrupted now
  | chat op => exact h.chat op

/-- A run keeps the completed events and their messages. -/
theorem run {p : Pool Execution GenerationTask} (h : CompletionsBound p.shared)
    (rules : CompletionRules) (steps : List CompletionStep) :
    CompletionsBound (Magistrate.run (completionStep rules) p steps).shared ∧
      GenerationLater p.shared (Magistrate.run (completionStep rules) p steps).shared := by
  refine run_invariant' (I := fun q : Pool Execution GenerationTask =>
    CompletionsBound q.shared ∧ GenerationLater p.shared q.shared) (fun q op hq => ?_) steps
    ⟨h, .refl _⟩
  obtain ⟨hbound, hlater⟩ := hq.1.step rules op
  exact ⟨hbound, hq.2.trans hlater⟩

/-- An event is claimed at a later attempt than before. -/
theorem claim_attempt_lt {later later' : Execution} {retryFailed retryFailed' : Bool} {now' : ℤ}
    {first second : CompletionClaim}
    (hfirst : claimCompletion owner eventId retryFailed now db = .ok (some first, db'))
    (hlater : GenerationLater db' later)
    (hsecond : claimCompletion owner eventId retryFailed' now' later = .ok (some second, later')) :
    first.attempt < second.attempt := by
  obtain ⟨hnone, -⟩ | ⟨c, e, hc, he, -, hattempt, rfl⟩ := claimCompletion_cases hfirst
  · exact absurd hnone (by simp)
  obtain ⟨hnone, -⟩ | ⟨c', e', hc', he', -, hattempt', -⟩ := claimCompletion_cases hsecond
  · exact absurd hnone (by simp)
  obtain rfl := Option.some.inj hc
  obtain rfl := Option.some.inj hc'
  have hclaimed : (db.events.update (owner, eventId) (.claimed now)
      (ExecutionEvent.key_claimed now)).find? (owner, eventId) = some (e.claimed now) := by
    rw [Table.find?_update_self, he, Option.map_some]
  obtain ⟨l, hl, hle, -⟩ := hlater.events _ _ hclaimed
  obtain rfl := Option.some.inj (hl.symm.trans he')
  simp only [ExecutionEvent.claimed] at hle
  omega

end CompletionsBound

open MagiChatStore

/-- Generated completion is exactly once. In every run of ingests, workers, restarts and chat
transactions, an event has at most one binding, which names an assistant message of its owner that
no other binding names; a preparation returns the message of the binding, which stays the only one
of the event; with other facts it raises and changes nothing. The binding stays for ever, and so
does a completed event, with the message of its binding. Each attempt of an event and each attempt
of its message is claimed once. -/
theorem generated_completion_exactly_once (rules : CompletionRules) (before : List CompletionStep) :
    let p := run (completionStep rules) ⟨.initial, []⟩ before
    let db := p.shared
    (∀ owner eventId, db.chat.generated.rows.countP
      (fun b => b.ownerUserId = owner ∧ b.generationKey = eventId) ≤ 1) ∧
    (∀ b ∈ db.chat.generated.rows,
      (∃ m, db.chat.assistantMessage b.ownerUserId b.messageId = some m) ∧
        ∀ b' ∈ db.chat.generated.rows, b'.messageId = b.messageId → b' = b) ∧
    (∀ owner eventId facts conversationId replyTo wantsRetry fresh now,
      let prepare := prepareGeneratedAssistant owner eventId facts conversationId replyTo wantsRetry
        fresh now db.chat
      (∀ prepared chat, prepare = .ok (prepared, chat) →
        ∃ b, chat.generated.find? (owner, eventId) = some b ∧ b.factsSha256 = facts ∧
          b.messageId = prepared.assistantMessageId ∧
          chat.messages.rows.map (·.id) = db.chat.messages.rows.map (·.id) ++
            if db.chat.generated.find? (owner, eventId) = none then [b.messageId] else []) ∧
      ∀ b, db.chat.generated.find? (owner, eventId) = some b → b.factsSha256 ≠ facts →
        (∃ e, prepare = .error e) ∧
          completionStep rules p (.chat (.prepareGeneratedAssistant owner eventId facts
            conversationId replyTo wantsRetry fresh now)) = p) ∧
    (∀ after, let later := (run (completionStep rules) p after).shared
      (∀ key b, db.chat.generated.find? key = some b →
        later.chat.generated.find? key = some b) ∧
      ∀ key e, db.events.find? key = some e → e.generationState = some .completed →
        later.events.find? key = some e ∧ ∃ b, db.chat.generated.find? key = some b ∧
          e.assistantMessageId = some b.messageId) ∧
    (∀ owner eventId retryFailed now first db',
      claimCompletion owner eventId retryFailed now db = .ok (some first, db') →
      ∀ workers after retryFailed' now' second later',
        claimCompletion owner eventId retryFailed' now'
          (run (completionStep rules) ⟨db', workers⟩ after).shared = .ok (some second, later') →
        first.attempt < second.attempt) ∧
    ∀ owner eventId facts conversationId replyTo wantsRetry fresh now prepared chat,
      prepareGeneratedAssistant owner eventId facts conversationId replyTo wantsRetry fresh now
        db.chat = .ok (prepared, chat) → prepared.claimed = true →
      ∀ workers after facts' conversationId' replyTo' wantsRetry' fresh' now' prepared' chat',
        prepareGeneratedAssistant owner eventId facts' conversationId' replyTo' wantsRetry' fresh'
          now' (run (completionStep rules) ⟨{ db with chat }, workers⟩ after).shared.chat =
            .ok (prepared', chat') → prepared'.claimed = true →
        prepared.attempt < prepared'.attempt := by
  intro p db
  obtain ⟨hbound, -⟩ := CompletionsBound.initial.run (p := ⟨.initial, []⟩) rules before
  refine ⟨fun owner eventId => ?_, fun b hb => ⟨hbound.bindings.assistantMessage hb,
    hbound.bindings.distinct b hb⟩, fun owner eventId facts conversationId replyTo wantsRetry fresh
    now => ⟨fun prepared chat hprepare => ?_, fun b hb hfacts => ?_⟩, fun after => ?_,
    fun owner eventId retryFailed now first db' hfirst workers after retryFailed' now' second later'
      hsecond => ?_,
    fun owner eventId facts conversationId replyTo wantsRetry fresh now prepared chat hprepare
      hclaimed workers after facts' conversationId' replyTo' wantsRetry' fresh' now' prepared' chat'
      hprepare' hclaimed' => ?_⟩
  · refine Table.countP_key_le (k := (owner, eventId)) fun b hb => ?_
    obtain ⟨howner, hkey⟩ := of_decide_eq_true hb
    exact Prod.ext howner hkey
  · obtain ⟨b, hkey, hfacts, hid, hcase⟩ := prepareGeneratedAssistant_cases hprepare
    refine ⟨b, ?_, hfacts, hid, ?_⟩
    · rw [← hkey]
      rcases hcase with ⟨hfound, hgenerated, -⟩ | ⟨hnone, -, hgenerated, -⟩
      · rw [hgenerated, hfound]
      · rw [hgenerated]
        exact Table.find?_of_mem (Table.mem_insertOrIgnore_self hnone)
    · rw [← hkey]
      rcases hcase with ⟨hfound, -, -, m, -, -, hclaim⟩ |
        ⟨hnone, -, -, -, -, m, hfree, hmid, -, -, -, hmessages⟩
      · rw [if_neg (by simp [hfound]), List.append_nil]
        rcases hclaim with ⟨-, rfl⟩ | ⟨-, -, hmessages⟩
        · rfl
        · rw [hmessages, Table.rows_update, List.map_map]
          refine List.map_congr_left fun r _ => ?_
          simp only [Function.comp_apply]
          split <;> rfl
      · rw [if_pos hnone, hmessages, Table.rows_insertOrIgnore hfree, List.map_append,
          List.map_singleton, hmid]
  · have hrefused := prepareGeneratedAssistant_refused hb hfacts conversationId replyTo wantsRetry
      fresh now
    refine ⟨hrefused, ?_⟩
    obtain ⟨e, he⟩ := hrefused
    simp only [completionStep, chatStep, ChatOp.apply]
    rw [he]
    rfl
  · obtain ⟨-, hlater⟩ := hbound.run rules after
    refine ⟨hlater.bindings, fun key e he hcompleted => ?_⟩
    obtain ⟨e', he', -, hfinal⟩ := hlater.events key e he
    obtain ⟨hmem, rfl⟩ := Table.mem_of_find? he
    exact ⟨hfinal hcompleted ▸ he', hbound.completed e hmem hcompleted⟩
  · obtain ⟨hbound', -⟩ := hbound.claim hfirst
    obtain ⟨-, hlater⟩ := hbound'.run (p := ⟨db', workers⟩) rules after
    exact CompletionsBound.claim_attempt_lt hfirst hlater hsecond
  · have hop : (ChatOp.prepareGeneratedAssistant owner eventId facts conversationId replyTo
        wantsRetry fresh now).apply db.chat = .ok chat := stateOf_eq_ok.mpr ⟨prepared, hprepare⟩
    obtain ⟨hbound', -⟩ := hbound.chat_ok _ hop
    obtain ⟨-, hlater⟩ := hbound'.run (p := ⟨{ db with chat }, workers⟩) rules after
    exact generated_attempt_lt hprepare hclaimed hlater.chat hlater.bindings hprepare' hclaimed'

end Magistrate
