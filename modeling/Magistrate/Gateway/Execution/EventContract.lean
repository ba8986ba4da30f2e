import Mathlib.Data.Bool.AllAny
import Magistrate.Core.CanonicalJson
import Magistrate.Gateway.Activity.Sensitive
import Magistrate.Gateway.Execution.Projection

/-!
# The contract of execution events

An execution event is admitted by its contract, and stored when the publication of
its activity and the projection of its objective take it too. Publication searches
the ids of an event for credentials, which the contract does not.
-/

namespace Magistrate

/-- `MAX_FIRSTMATE_EXECUTION_EVENT_BYTES` -/
def maxFirstmateExecutionEventBytes : ℕ := 64 * 1024

/-- `MAX_COMPLETION_CHECKS` -/
def maxCompletionChecks : ℕ := 32

/-- `MAX_COMPLETION_ARTIFACTS` -/
def maxCompletionArtifacts : ℕ := 16

section Encoding

/-- The members of a check. -/
def VerificationCheck.modelDump (check : VerificationCheck) : PyJson :=
  .object [("check_id", .str check.checkId), ("kind", .str check.kind), ("label", .str check.label),
    ("status", .str "passed")]

/-- The members of an artifact. -/
def CompletionArtifact.modelDump : CompletionArtifact → PyJson
  | .pullRequest url => .object [("kind", .str "pull-request"), ("url", .str url)]
  | .report reportId => .object [("kind", .str "report"), ("report_id", .str reportId)]
  | .commit commitSha => .object [("kind", .str "commit"), ("commit_sha", .str commitSha)]

/-- The members of the evidence of a completion. -/
def CompletionEvidence.modelDump (evidence : CompletionEvidence) : PyJson :=
  .object [("schema_version", .str "firstmate.completion-evidence.v1"),
    ("result", .str "completed"), ("verification", .str "verified"),
    ("checks", .list (evidence.checks.map (·.modelDump))),
    ("artifacts", .list (evidence.artifacts.map (·.modelDump)))]

/-- The members of a measured usage. -/
def MeasuredUsage.modelDump (usage : MeasuredUsage) : PyJson :=
  .object [("provider", .str usage.provider), ("model", .str usage.model),
    ("input_tokens", .int usage.inputTokens), ("output_tokens", .int usage.outputTokens),
    ("compute_milliseconds", .int usage.computeMilliseconds),
    ("cost_micro_usd", (usage.costMicroUsd.map fun cost => PyJson.int cost).getD .null)]

/-- The members that a report has beside those of every event. -/
def EventReport.modelDump : EventReport → List (String × PyJson)
  | .accepted title project conversationId userMessageId =>
    [("objective", .object [("title", .str title), ("project", .optStr project)]),
      ("chat", .object [("conversation_id", .str conversationId),
        ("user_message_id", .str userMessageId)])]
  | .progress _ => []
  | .completed evidence usage =>
    [("evidence", evidence.modelDump), ("usage", (usage.map (·.modelDump)).getD .null)]
  | .failed usage | .cancelled usage => [("usage", (usage.map (·.modelDump)).getD .null)]

/-- The members of an event. An activity has the phase of its event for its kind. -/
def FirstmateExecutionEvent.modelDump (event : FirstmateExecutionEvent) : PyJson :=
  .object ([("schema_version", .str "firstmate.execution-event.v1"),
    ("event_id", .str event.eventId), ("objective_id", .str event.objectiveId),
    ("task_id", .str event.taskId), ("run_id", .str event.runId),
    ("occurred_at_ms", .int event.occurredAtMs), ("phase", .str event.phase.activity.1)] ++
      event.report.modelDump)

/-- The canonical text of a value is within the bytes of an event. -/
def withinEventBytes (value : PyJson) : Bool :=
  (PyText.utf8Length? value.canonicalJson).any (· ≤ maxFirstmateExecutionEventBytes)

end Encoding

section Contract

variable (unicode : UnicodeRules)

/-- `_validated_display_text` -/
def validatedDisplayText (maximum : ℕ) (text : String) : Bool :=
  text ≠ "" ∧ stripText text = text ∧ text.length ≤ maximum ∧ hasControls unicode text = false ∧
    containsSensitive unicode text = false

/-- `_TASK_PATTERN`, which is the pattern of report ids. -/
def isTaskId : String → Bool := safeReportId

/-- An id of the chat, with its mark. -/
def chatOriginId (mark id : String) : Bool :=
  8 ≤ id.length ∧ id.length ≤ 128 ∧ id.toList.take 4 = mark.toList ∧
    (id.toList.drop 4).all fun c => asciiAlphanumeric c ∨ c ∈ ['_', '-']

/-- `FirstmateVerificationCheck` -/
def VerificationCheck.valid (check : VerificationCheck) : Bool :=
  isObjectiveId check.checkId ∧ containsSensitive unicode check.checkId = false ∧
    check.kind ∈ ["acceptance", "test", "typecheck", "lint", "build", "review", "deployment"] ∧
    validatedDisplayText unicode 160 check.label

/-- `FirstmateCompletionArtifact` -/
def CompletionArtifact.valid : CompletionArtifact → Bool
  | .pullRequest url => safePullRequestUrl url ∧ containsSensitive unicode url = false
  | .report reportId => safeReportId reportId ∧ containsSensitive unicode reportId = false
  | .commit commitSha => 7 ≤ commitSha.length ∧ commitSha.length ≤ 64 ∧
      commitSha.toList.all fun c => c.isDigit ∨ 'a' ≤ c ∧ c ≤ 'f'

/-- `FirstmateCompletionEvidence` -/
def CompletionEvidence.valid (evidence : CompletionEvidence) : Bool :=
  0 < evidence.checks.length ∧ evidence.checks.length ≤ maxCompletionChecks ∧
    evidence.checks.all (·.valid unicode) ∧ evidence.artifacts.length ≤ maxCompletionArtifacts ∧
    evidence.artifacts.all (·.valid unicode) ∧ (evidence.checks.map (·.checkId)).Nodup ∧
    evidence.artifacts.Nodup ∧ (evidence.artifacts.filterMap CompletionArtifact.ref).length ≤ 8 ∧
    withinEventBytes evidence.modelDump

/-- `FirstmateMeasuredUsage` -/
def MeasuredUsage.valid (usage : MeasuredUsage) : Bool :=
  isPrincipalId usage.provider ∧ usage.provider.length ≤ 64 ∧ isObjectiveId usage.model ∧
    usage.inputTokens ≤ maxSafeInteger ∧ usage.outputTokens ≤ maxSafeInteger ∧
    usage.computeMilliseconds ≤ maxSafeInteger ∧ usage.costMicroUsd.all (· ≤ maxSafeInteger)

/-- What an event reports, within its contract. -/
def EventReport.valid : EventReport → Bool
  | .accepted title project conversationId userMessageId =>
    validatedDisplayText unicode 240 title ∧ project.all (validatedDisplayText unicode 160) ∧
      chatOriginId "mgc_" conversationId ∧ chatOriginId "mgm_" userMessageId
  | .progress _ => true
  | .completed evidence usage => evidence.valid unicode ∧ usage.all (·.valid)
  | .failed usage | .cancelled usage => usage.all (·.valid)

/-- `FirstmateExecutionEventContract` -/
def FirstmateExecutionEvent.valid (event : FirstmateExecutionEvent) : Bool :=
  isObjectiveId event.eventId ∧ isObjectiveId event.objectiveId ∧ isTaskId event.taskId ∧
    isObjectiveId event.runId ∧ event.occurredAtMs ≤ maxSafeInteger ∧ event.report.valid unicode ∧
    withinEventBytes event.modelDump

/-- No id of an event resembles a credential. -/
def FirstmateExecutionEvent.Inert (event : FirstmateExecutionEvent) : Prop :=
  ∀ id ∈ [event.eventId, event.objectiveId, event.taskId, event.runId],
    containsSensitive unicode id = false

instance FirstmateExecutionEvent.decidableInert (event : FirstmateExecutionEvent) :
    Decidable (event.Inert unicode) :=
  inferInstanceAs (Decidable (∀ id ∈ [event.eventId, event.objectiveId, event.taskId, event.runId],
    containsSensitive unicode id = false))

end Contract

/-- What ingests compute from texts, with the rules of publication: no character of ASCII is of a
category of its own, digests are in hexadecimal digits, and submissions draw objective ids. -/
structure EventRules where
  text : ActivityTextRules
  ascii : ∀ c : Char, c.toNat < 128 → text.unicode.isOther c = false
  payloadSha256 : FirstmateExecutionEvent → String
  payload_hash : ∀ event, isSafeHash (payloadSha256 event) = true
  intake : IntakeRules
  objective_ids : ∀ owner key, safeObjectiveId (intake.identities owner key).1 = true
  requestId : String → String → String
  decisions : DecisionRules

namespace EventRules

variable (rules : EventRules)

/-- The checks of publication on the activity of an event. -/
def publishable (fields : ActivityFields) : Bool :=
  match rules.text.publish.normalized firstmateExecutionSource fields with
  | .ok _ => true
  | .error _ => false

/-- What the stores of executions compute from texts. -/
def activity : ActivityRules where
  boundedPrincipal owner := rules.text.publish.bounded owner 128
  publishable := rules.publishable
  recordId := rules.text.publish.recordId
  payloadSha256 := rules.payloadSha256

/-- What the transactions on objectives compute from texts. -/
def objective : ObjectiveRules where
  intake := rules.intake
  activity := rules.activity
  requestId := rules.requestId
  decisions := rules.decisions

end EventRules

section Texts

variable {unicode : UnicodeRules} {text : String} {maximum : ℕ}

/-- Printable texts of ASCII have no controls. -/
theorem hasControls_ascii (hascii : ∀ c : Char, c.toNat < 128 → unicode.isOther c = false)
    (h : ∀ c ∈ text.toList, 32 ≤ c.toNat ∧ c.toNat < 127) : hasControls unicode text = false := by
  rw [hasControls, List.any_eq_false]
  intro c hc
  obtain ⟨hlow, hhigh⟩ := h c hc
  rw [hascii c (by omega)]
  simp only [Bool.or_eq_true, decide_eq_true_eq, Bool.false_eq_true, or_false]
  omega

/-- Texts of visible characters of ASCII have no blanks around them. -/
theorem stripText_visible (h : ∀ c ∈ text.toList, 33 ≤ c.toNat ∧ c.toNat < 127) :
    stripText text = text := by
  have hspace : ∀ n < 127, 33 ≤ n → PyText.isSpace n = false := by decide
  have hkept (l : List Char) (hl : ∀ c ∈ l, c ∈ text.toList) :
      l.dropWhile (fun c => PyText.isSpace c.toNat) = l := by
    cases l with
    | nil => rfl
    | cons c rest =>
      obtain ⟨hlow, hhigh⟩ := h c (hl c List.mem_cons_self)
      exact List.dropWhile_cons_of_neg (by rw [hspace _ hhigh hlow]; exact Bool.false_ne_true)
  simp only [stripText]
  rw [hkept text.toList fun _ hc => hc, hkept _ fun _ hc => List.mem_reverse.mp hc,
    List.reverse_reverse, String.ofList_toList]

/-- What a search finds in a text of ASCII does not depend on the character database. -/
theorem containsSensitive_ascii (other : UnicodeRules)
    (h : ∀ c ∈ text.toList, c.toNat < 128 ∧ c ≠ '%') :
    containsSensitive unicode text = hostSensitive other text.toList := by
  have halike : ∀ c ∈ text.toList, RegexFlavor.Alike (hostFlavor unicode) (hostFlavor other) c :=
    fun c hc => ⟨rfl, (if_pos (h c hc).1).trans (if_pos (h c hc).1).symm, rfl⟩
  rw [containsSensitive, searchExpanded_self (unquote_plain fun hmem => (h '%' hmem).2 rfl),
    hostSensitive, hostSensitive, RegexFlavor.search_congr halike, RegexFlavor.search_congr halike]

/-- The marks that a credential comes with; a signed token has none of them. -/
def credentialMarks : List RegexSet :=
  [⟨[.char ':', .char '='], false⟩, ⟨[.char ':'], false⟩, ⟨[.char '='], false⟩,
    ⟨[.char '-'], false⟩, ⟨[.char '_'], false⟩]

/-- The character database does not tell the characters of ASCII apart. -/
def asciiUnicode : UnicodeRules := ⟨fun _ => false, fun _ => false⟩

/-- A letter, a blank, a period or a semicolon. -/
def isProse (code : ℕ) : Bool :=
  decide (97 ≤ code ∧ code ≤ 122) || decide (65 ≤ code ∧ code ≤ 90) || [32, 46, 59].contains code

/-- A sentence, in which there is no signed token. -/
structure Prose (text : String) : Prop where
  letters : text.toList.all (fun c => isProse c.toNat) = true
  unsigned : (hostFlavor asciiUnicode).search signedToken text.toList = false

theorem isProse_ascii {n : ℕ} (h : isProse n = true) :
    32 ≤ n ∧ n < 127 ∧ n ∉ [37, 45, 58, 61, 95] := by
  simp only [isProse, Bool.or_eq_true, decide_eq_true_eq, List.contains_eq_mem, List.mem_cons,
    List.not_mem_nil, or_false] at h
  simp only [List.mem_cons, List.not_mem_nil, or_false]
  omega

/-- A sentence has no marks of credentials. -/
theorem isProse_unmarked {c : Char} (h : isProse c.toNat = true) :
    ∀ set ∈ credentialMarks, (hostFlavor asciiUnicode).has set c = false := by
  have hcodes : ∀ n < 127, isProse n = true → ∀ set ∈ credentialMarks,
      (hostFlavor asciiUnicode).has set (Char.ofNat n) = false := by
    decide +kernel
  have hc := hcodes c.toNat (isProse_ascii h).2.1 h
  rwa [Char.ofNat_toNat] at hc

/-- Sentences do not resemble credentials. -/
theorem Prose.insensitive (h : Prose text) : containsSensitive unicode text = false := by
  have hprose : ∀ c ∈ text.toList, isProse c.toNat = true := List.all_eq_true.mp h.letters
  have hascii : ∀ c ∈ text.toList, c.toNat < 128 ∧ c ≠ '%' := by
    intro c hc
    obtain ⟨-, hhigh, hmarks⟩ := isProse_ascii (hprose c hc)
    refine ⟨by omega, ?_⟩
    rintro rfl
    exact hmarks (by decide)
  have habsent (regex : Regex) (hdemands : regex.demands credentialMarks = true) :
      (hostFlavor asciiUnicode).search regex text.toList = false :=
    RegexFlavor.search_eq_false hdemands fun c hc => isProse_unmarked (hprose c hc)
  rw [containsSensitive_ascii asciiUnicode hascii, hostSensitive,
    habsent envAssignment (by decide)]
  simp only [sensitiveText, sensitivePattern, Regex.any, RegexFlavor.search_alt, h.unsigned,
    Bool.or_false, habsent authorizationHeader (by decide),
    habsent namedCredential (by decide), habsent assignedUrl (by decide),
    habsent userUrl (by decide), habsent verboseKeyHeader (by decide),
    habsent forgeToken (by decide), habsent providerKey (by decide)]

/-- The phases of the events. -/
def executionPhases : List ExecutionPhase :=
  [.accepted, .progress .workerStarted, .progress .implementationStarted,
    .progress .testsStarted, .progress .testsPassed, .progress .testsFailed,
    .progress .reviewStarted, .completed, .failed, .cancelled]

theorem mem_executionPhases (phase : ExecutionPhase) : phase ∈ executionPhases := by
  cases phase with
  | progress phase => cases phase <;> decide
  | accepted | completed | failed | cancelled => decide

/-- The summary of a phase is a sentence without blanks around it. -/
theorem summary_prose (phase : ExecutionPhase) :
    Prose phase.activity.2.2 ∧ stripText phase.activity.2.2 = phase.activity.2.2 ∧
      phase.activity.2.2.length ≤ maxActivitySummaryChars ∧ phase.activity.2.2 ≠ "" := by
  have hall : ∀ phase ∈ executionPhases,
      (phase.activity.2.2.toList.all (fun c => isProse c.toNat) = true ∧
        (hostFlavor asciiUnicode).search signedToken phase.activity.2.2.toList = false) ∧
      stripText phase.activity.2.2 = phase.activity.2.2 ∧
      phase.activity.2.2.length ≤ maxActivitySummaryChars ∧ phase.activity.2.2 ≠ "" := by
    decide +kernel
  obtain ⟨⟨hletters, hunsigned⟩, hrest⟩ := hall phase (mem_executionPhases phase)
  exact ⟨⟨hletters, hunsigned⟩, hrest⟩

end Texts

/-- A text that publication stores as it is. -/
structure PublishRules.Stores (rules : PublishRules) (maximum : ℕ) (text : String) : Prop where
  controls : rules.hasControls text = false
  strip : rules.strip text = text
  length : text.length ≤ maximum
  nonempty : text ≠ ""

namespace PublishRules.Stores

variable {rules : PublishRules} {maximum : ℕ} {text : String}

theorem boundedText (h : rules.Stores maximum text) :
    rules.boundedText text maximum = .ok text := by
  have hfits : ¬(rules.hasControls text = true ∨ maximum < text.length ∨
      maximum < (rules.strip text).length) := by
    rw [h.controls, h.strip]
    have hlength := h.length
    rintro (hfalse | hlong | hlong)
    · exact Bool.false_ne_true hfalse
    · omega
    · omega
  rw [PublishRules.boundedText, raiseIf_ok hfits, ok_bind, h.strip]
  rfl

theorem requiredText (h : rules.Stores maximum text) :
    rules.requiredText text maximum = .ok text := by
  rw [PublishRules.requiredText, h.boundedText, ok_bind, raiseIf_ok h.nonempty]
  rfl

theorem optionalText (h : rules.Stores maximum text) :
    rules.optionalText (some text) maximum = .ok (some text) := by
  simp only [PublishRules.optionalText, h.boundedText, ok_bind, if_neg h.nonempty]
  rfl

theorem givenText (h : rules.Stores maximum text) :
    rules.givenText (some text) maximum = .ok (some text) := by
  simp only [PublishRules.givenText, h.requiredText, ok_bind]
  rfl

end PublishRules.Stores

/-- The texts of an activity that are searched for credentials. -/
def ActivityFields.searched (source : String) (fields : ActivityFields) : List String :=
  [fields.title, fields.summary, fields.taskId.getD "", fields.decisionKey.getD "",
    fields.objectiveId.getD "", fields.runId.getD "", fields.project.getD "", source,
    fields.sourceEventId.getD ""]

/-- Fields that publication stores as they are, unless one resembles a credential. -/
structure PublishRules.Regular (rules : PublishRules) (fields : ActivityFields) : Prop where
  importance : fields.importance ∈ activityImportance
  state : (activityKindStates.lookup fields.kind).any (fields.state ∈ ·) = true
  title : rules.requiredText fields.title maxActivityTitleChars = .ok fields.title
  summary : rules.requiredText fields.summary maxActivitySummaryChars = .ok fields.summary
  taskId : rules.optionalText fields.taskId 200 = .ok fields.taskId
  decisionKey : rules.optionalText fields.decisionKey 128 = .ok fields.decisionKey
  objectiveId : rules.optionalText fields.objectiveId 128 = .ok fields.objectiveId
  runId : rules.optionalText fields.runId 128 = .ok fields.runId
  project : rules.optionalText fields.project 160 = .ok fields.project
  identified : fields.objectiveId ≠ none
  worker : fields.kind ∉ primaryKinds ∧ fields.taskId ≠ none
  undecided : fields.kind ∉ decisionKinds ∧ fields.decisionKey = none
  sourceEventId : rules.givenText fields.sourceEventId 200 = .ok fields.sourceEventId
  occurredAt : fields.occurredAt.any (maxSafeInteger < ·) = false
  payloadHash : isSafeHash fields.sourcePayloadSha256 = true
  refs : fields.refs.length ≤ 8 ∧ decodeRefs fields.refs = fields.refs

/-- Regular fields are refused for a credential only. -/
theorem PublishRules.Regular.normalized_eq {rules : PublishRules} {fields : ActivityFields}
    (h : rules.Regular fields) (source : String) :
    rules.normalized source fields =
      if ∃ text ∈ fields.searched source, rules.sensitive text = true then
        .error (.valueError "Activity public fields resemble credential material.")
      else .ok fields := by
  have hlisted : ¬(fields.importance ∉ activityImportance ∨
      ¬(activityKindStates.lookup fields.kind).any (fields.state ∈ ·)) := by
    rintro (hforeign | hunlisted)
    · exact hforeign h.importance
    · exact hunlisted h.state
  have hcausal : ¬(fields.objectiveId = none ∨
      fields.kind ∈ decisionKinds ∧ (fields.taskId = none ∨ fields.decisionKey = none) ∨
      fields.kind ∉ decisionKinds ∧ fields.decisionKey ≠ none ∨
      fields.kind ∈ primaryKinds ∧ fields.taskId ≠ none ∨
      fields.kind ∉ primaryKinds ∧ fields.taskId = none) := by
    have hidentified := h.identified
    have hworker := h.worker
    have hundecided := h.undecided
    tauto
  have hrefs : ¬(8 < fields.refs.length ∨ decodeRefs fields.refs ≠ fields.refs) := by
    rintro (hlong | hforeign)
    · exact absurd h.refs.1 (by omega)
    · exact hforeign h.refs.2
  have hoccurred : ¬(fields.occurredAt.any (maxSafeInteger < ·) = true) := by
    rw [h.occurredAt]
    exact Bool.false_ne_true
  have hhash : ¬(isSafeHash fields.sourcePayloadSha256 = false) := by
    rw [h.payloadHash]
    exact Bool.noConfusion
  simp only [PublishRules.normalized, raiseIf_ok hlisted, h.title, h.summary, h.taskId,
    h.decisionKey, h.objectiveId, h.runId, h.project, raiseIf_ok hcausal, h.sourceEventId, ok_bind,
    raiseIf_ok hoccurred, raiseIf_ok hhash, raiseIf_ok hrefs]
  show (raiseIf (∃ text ∈ fields.searched source, rules.sensitive text = true) _ >>=
    fun _ => .ok fields) = _
  by_cases hfound : ∃ text ∈ fields.searched source, rules.sensitive text = true
  · rw [if_pos hfound, raiseIf_error hfound]
    rfl
  · rw [if_neg hfound, raiseIf_ok hfound]
    rfl

section Publication

variable {rules : EventRules} {event : FirstmateExecutionEvent} {objective : ExecutionObjective}
  {text : String} {maximum : ℕ}

/-- A display text is stored as it is. -/
theorem stores_of_display (h : validatedDisplayText rules.text.unicode maximum text = true) :
    rules.text.publish.Stores maximum text := by
  obtain ⟨hnonempty, hstrip, hlength, hcontrols, -⟩ := of_decide_eq_true h
  exact ⟨hcontrols, hstrip, hlength, hnonempty⟩

/-- A text of letters, digits and some marks is stored as it is. -/
theorem stores_of_visible (hvisible : ∀ c ∈ text.toList, 33 ≤ c.toNat ∧ c.toNat < 127)
    (hlength : text.length ≤ maximum) (hnonempty : text ≠ "") :
    rules.text.publish.Stores maximum text := by
  refine ⟨hasControls_ascii rules.ascii fun c hc => ?_, stripText_visible hvisible, hlength,
    hnonempty⟩
  obtain ⟨hlow, hhigh⟩ := hvisible c hc
  exact ⟨by omega, hhigh⟩

/-- Letters, digits and the marks of ids are visible. -/
theorem visible_of_mark {c : Char} (h : asciiAlphanumeric c = true ∨ c ∈ ['.', '_', ':', '-']) :
    33 ≤ c.toNat ∧ c.toNat < 127 := by
  rcases h with h | h
  · rw [asciiAlphanumeric, decide_eq_true_eq, Char.isDigit] at h
    simp only [Bool.and_eq_true, decide_eq_true_eq, ge_iff_le, Char.le_def,
      UInt32.le_iff_toNat_le] at h
    have h0 : '0'.val.toNat = 48 := rfl
    have h9 : '9'.val.toNat = 57 := rfl
    have ha : 'a'.val.toNat = 97 := rfl
    have hz : 'z'.val.toNat = 122 := rfl
    have hA : 'A'.val.toNat = 65 := rfl
    have hZ : 'Z'.val.toNat = 90 := rfl
    simp only [Char.toNat]
    omega
  · have hmarks : ∀ d ∈ ['.', '_', ':', '-'], 33 ≤ d.toNat ∧ d.toNat < 127 :=
      List.all_iff_forall_prop.mp (by decide)
    exact hmarks c h

theorem asciiAlphanumeric_of_isAlphanum {c : Char} (h : c.isAlphanum = true) :
    asciiAlphanumeric c = true := by
  have hcases : (c.isUpper || c.isLower || c.isDigit) = true := h
  rw [Bool.or_eq_true, Bool.or_eq_true] at hcases
  refine decide_eq_true ?_
  rcases hcases with (hupper | hlower) | hdigit
  · exact .inr (.inr (of_decide_eq_true hupper))
  · exact .inr (.inl ((Bool.and_eq_true _ _).mp hlower |>.imp of_decide_eq_true of_decide_eq_true))
  · exact .inl hdigit

/-- A text that starts with a letter or a digit is not empty. -/
theorem nonempty_of_head {p : Char → Bool} (h : text.toList.head?.any p = true) : text ≠ "" := by
  rintro rfl
  cases h

/-- Ids of contracts are stored as they are. -/
theorem stores_of_contractId {further : List Char} (h : contractId further text = true)
    (hfurther : further ⊆ ['.', '_', ':', '-']) : rules.text.publish.Stores 128 text := by
  obtain ⟨hlength, hhead, hall⟩ := of_decide_eq_true h
  refine stores_of_visible (fun c hc => visible_of_mark ?_) hlength (nonempty_of_head hhead)
  exact (of_decide_eq_true (List.all_eq_true.mp hall c hc)).imp id fun hmark => hfurther hmark

/-- Ids of tasks are stored as they are. -/
theorem stores_of_taskId (h : isTaskId text = true) : rules.text.publish.Stores 200 text := by
  unfold isTaskId safeReportId at h
  split at h
  · cases h
  · next c cs htext =>
    obtain ⟨hhead, hlength, hall⟩ := of_decide_eq_true h
    refine stores_of_visible (fun d hd => visible_of_mark ?_) ?_ ?_
    · rw [htext] at hd
      rcases List.mem_cons.mp hd with rfl | hd
      · exact .inl (asciiAlphanumeric_of_isAlphanum hhead)
      · rcases of_decide_eq_true (List.all_eq_true.mp hall d hd) with halnum | hmark
        · exact .inl (asciiAlphanumeric_of_isAlphanum halnum)
        · exact .inr (by simpa using hmark)
    · rw [← String.length_toList, htext, List.length_cons]
      omega
    · rintro rfl
      cases htext

/-- A title and a project as an accepted event has them. -/
def ExecutionObjective.Displayed (unicode : UnicodeRules) (objective : ExecutionObjective) : Prop :=
  validatedDisplayText unicode 240 objective.title = true ∧
    ∀ project ∈ objective.project, validatedDisplayText unicode 160 project = true

/-- A report and a link of a valid artifact are of the allowlist. -/
theorem ref_safe {unicode : UnicodeRules} {artifact : CompletionArtifact} {ref : ActivityRef}
    (h : artifact.valid unicode = true) (href : artifact.ref = some ref) : ref.safe = true := by
  cases artifact with
  | pullRequest url =>
    obtain rfl := Option.some.inj href
    exact (of_decide_eq_true h).1
  | report reportId =>
    obtain rfl := Option.some.inj href
    exact (of_decide_eq_true h).1
  | commit commitSha => cases href

/-- The references of a valid event are of the allowlist. -/
theorem refs_of_valid {unicode : UnicodeRules} (h : event.valid unicode = true) :
    event.activityRefs.length ≤ 8 ∧ decodeRefs event.activityRefs = event.activityRefs := by
  have hsafe : ∀ ref ∈ event.activityRefs, ref.safe = true := by
    intro ref href
    unfold FirstmateExecutionEvent.activityRefs FirstmateExecutionEvent.evidence at href
    obtain ⟨-, -, -, -, -, hreport, -⟩ := of_decide_eq_true h
    cases hcase : event.report with
    | completed evidence usage =>
      rw [hcase] at href hreport
      obtain ⟨artifact, hartifact, href⟩ := List.mem_filterMap.mp (List.mem_of_mem_take href)
      obtain ⟨-, -, -, -, hartifacts, -⟩ := of_decide_eq_true (of_decide_eq_true hreport).1
      exact ref_safe (List.all_eq_true.mp hartifacts artifact hartifact) href
    | accepted | progress | failed | cancelled =>
      rw [hcase] at href
      cases href
  have hlength : event.activityRefs.length ≤ 8 := by
    unfold FirstmateExecutionEvent.activityRefs
    split
    · exact Nat.zero_le 8
    · exact List.length_take_le 8 _
  refine ⟨hlength, ?_⟩
  rw [decodeRefs, List.take_of_length_le hlength]
  exact List.filter_eq_self.mpr hsafe

/-- The kind of a phase has its state, and is that of neither a decision nor the primary. -/
theorem activity_kind (phase : ExecutionPhase) :
    (activityKindStates.lookup phase.activity.1).any (phase.activity.2.1 ∈ ·) = true ∧
      phase.activity.1 ∉ decisionKinds ∧ phase.activity.1 ∉ primaryKinds := by
  have hall : ∀ phase ∈ executionPhases,
      (activityKindStates.lookup phase.activity.1).any (phase.activity.2.1 ∈ ·) = true ∧
        phase.activity.1 ∉ decisionKinds ∧ phase.activity.1 ∉ primaryKinds := by
    decide
  exact hall phase (mem_executionPhases phase)

/-- The name of the source of executions resembles no credential. -/
theorem insensitive_source (unicode : UnicodeRules) :
    containsSensitive unicode firstmateExecutionSource = false := by
  rw [containsSensitive_ascii asciiUnicode (List.all_iff_forall_prop.mp (by decide +kernel))]
  decide +kernel

theorem insensitive_empty (unicode : UnicodeRules) : containsSensitive unicode "" = false := by
  rw [containsSensitive_ascii asciiUnicode (List.all_iff_forall_prop.mp (by decide))]
  decide

/-- The activity of a valid event, of an objective with display texts, is regular. -/
theorem regular_activity (h : event.valid rules.text.unicode = true)
    (hobjective : objective.Displayed rules.text.unicode) :
    rules.text.publish.Regular (event.activity rules.activity objective) := by
  obtain ⟨heventId, hobjectiveId, htaskId, hrunId, hoccurred, -, -⟩ := of_decide_eq_true h
  obtain ⟨htitle, hproject⟩ := hobjective
  obtain ⟨hkind, hdecision, hprimary⟩ := activity_kind event.phase
  obtain ⟨hprose, hstrip, hlength, hnonempty⟩ := summary_prose event.phase
  have hsummary : rules.text.publish.Stores maxActivitySummaryChars event.phase.activity.2.2 := by
    refine ⟨hasControls_ascii rules.ascii fun c hc => ?_, hstrip, hlength, hnonempty⟩
    obtain ⟨hlow, hhigh, -⟩ := isProse_ascii (List.all_eq_true.mp hprose.letters c hc)
    exact ⟨hlow, hhigh⟩
  have hnamed (id : String) (hid : isObjectiveId id = true) : rules.text.publish.Stores 128 id :=
    stores_of_contractId hid (List.Subset.refl _)
  have hevent : rules.text.publish.Stores 200 event.eventId :=
    { hnamed _ heventId with length := (hnamed _ heventId).length.trans (by decide) }
  exact
    { importance := List.mem_cons_self
      state := hkind
      title := (stores_of_display htitle).requiredText
      summary := hsummary.requiredText
      taskId := (stores_of_taskId htaskId).optionalText
      decisionKey := rfl
      objectiveId := (hnamed _ hobjectiveId).optionalText
      runId := (hnamed _ hrunId).optionalText
      project := by
        cases hcase : objective.project with
        | none => simp only [FirstmateExecutionEvent.activity, hcase]; rfl
        | some project =>
          simp only [FirstmateExecutionEvent.activity, hcase]
          exact (stores_of_display (hproject project hcase)).optionalText
      identified := Option.some_ne_none _
      worker := ⟨hprimary, Option.some_ne_none _⟩
      undecided := ⟨hdecision, rfl⟩
      sourceEventId := hevent.givenText
      occurredAt := decide_eq_false (by omega)
      payloadHash := rules.payload_hash event
      refs := refs_of_valid h }

/-- Of the texts of an activity only the ids of its event can resemble a credential. -/
theorem searched_activity (event : FirstmateExecutionEvent)
    (hobjective : objective.Displayed rules.text.unicode) :
    (∃ text ∈ (event.activity rules.activity objective).searched firstmateExecutionSource,
      containsSensitive rules.text.unicode text = true) ↔ ¬event.Inert rules.text.unicode := by
  obtain ⟨htitle, hproject⟩ := hobjective
  have hproject' : containsSensitive rules.text.unicode (objective.project.getD "") = false := by
    cases hcase : objective.project with
    | none => exact insensitive_empty _
    | some project => exact (of_decide_eq_true (hproject project hcase)).2.2.2.2
  constructor
  · rintro ⟨text, hmem, hfound⟩ hinert
    obtain ⟨hid, hobjective, htask, hrun, -⟩ := by
      simpa only [FirstmateExecutionEvent.Inert, List.forall_mem_cons] using hinert
    have hclear : ∀ text ∈ [objective.title, event.phase.activity.2.2, event.taskId, "",
        event.objectiveId, event.runId, objective.project.getD "", firstmateExecutionSource,
        event.eventId], containsSensitive rules.text.unicode text = false := by
      simp only [List.forall_mem_cons]
      exact ⟨(of_decide_eq_true htitle).2.2.2.2, (summary_prose event.phase).1.insensitive, htask,
        insensitive_empty _, hobjective, hrun, hproject', insensitive_source _, hid,
        List.forall_mem_nil _⟩
    exact absurd ((hclear text hmem).symm.trans hfound) Bool.false_ne_true
  · intro hnot
    by_contra hnone
    refine hnot fun id hid => Bool.eq_false_iff.mpr fun hfound => hnone ⟨id, ?_, hfound⟩
    show id ∈ [objective.title, event.phase.activity.2.2, event.taskId, "", event.objectiveId,
      event.runId, objective.project.getD "", firstmateExecutionSource, event.eventId]
    simp only [List.mem_cons, List.not_mem_nil, or_false] at hid ⊢
    rcases hid with rfl | rfl | rfl | rfl <;> simp only [true_or, or_true]

/-- The activity of a valid event, of an objective with display texts, is stored as it is, or
refused when an id of it resembles a credential. -/
theorem normalized_activity (h : event.valid rules.text.unicode = true)
    (hobjective : objective.Displayed rules.text.unicode) :
    rules.text.publish.normalized firstmateExecutionSource
        (event.activity rules.activity objective) =
      if event.Inert rules.text.unicode then .ok (event.activity rules.activity objective)
      else .error (.valueError "Activity public fields resemble credential material.") := by
  have hsearched := searched_activity event hobjective
  rw [(regular_activity h hobjective).normalized_eq]
  by_cases hinert : event.Inert rules.text.unicode
  · rw [if_pos hinert]
    exact if_neg fun hfound => hsearched.mp hfound hinert
  · rw [if_neg hinert]
    exact if_pos (hsearched.mpr hinert)

end Publication

end Magistrate
