import Magistrate.Frontend.Activity.Records
import Magistrate.Frontend.Chat.Wire
import Magistrate.Gateway.Activity.Current

/-!
# Activity on the wire

The gateway encodes a delivered record with all of its members, and so does the client
for its cache. The client reads a record back when each of them is as it demands, and
then with the same values.
-/

namespace Magistrate

/-- An integer or null. -/
def Json.nullableInt : Option ℕ → Json
  | none => .null
  | some value => .int value

/-- A time or null. -/
def Json.nullableTime : Option ℤ → Json
  | none => .null
  | some time => .int time

/-- A reference as it is encoded. -/
def ActivityRef.json : ActivityRef → Json
  | .pullRequest url => .obj [("kind", .str "pull-request"), ("url", .str url)]
  | .report id => .obj [("kind", .str "report"), ("id", .str id)]

/-- A delivered record as the gateway encodes it. -/
def DeliveredActivity.json (d : DeliveredActivity) : Json :=
  .obj [("id", .str d.activity.id), ("sequence", .int d.activity.sequence),
    ("revision", .int d.activity.revision), ("kind", .str d.activity.kind),
    ("state", .str d.activity.state), ("importance", .str d.activity.importance),
    ("title", .str d.activity.title), ("summary", .str d.activity.summary),
    ("summary_truncated", .bool d.activity.summaryTruncated),
    ("task_id", .nullable d.activity.taskId), ("decision_key", .nullable d.activity.decisionKey),
    ("objective_id", .nullable d.activity.objectiveId), ("run_id", .nullable d.activity.runId),
    ("project", .nullable d.activity.project),
    ("occurred_at", .nullableInt d.activity.occurredAt),
    ("observed_at", .int d.activity.observedAt),
    ("refs", .arr (d.activity.refs.map ActivityRef.json)),
    ("source", .obj [("instance_id", .str d.activity.sourceInstanceId),
      ("event_id", .nullable d.activity.sourceEventId)]),
    ("delivery_sequence", .int d.deliverySequence)]

open Frontend

/-- A delivered record as the client holds it. -/
def DeliveredActivity.record (d : DeliveredActivity) : CanonicalActivityRecord where
  id := d.activity.id
  sequence := d.activity.sequence
  deliverySequence := d.deliverySequence
  revision := d.activity.revision
  kind := d.activity.kind
  state := d.activity.state
  importance := d.activity.importance
  title := d.activity.title
  summary := d.activity.summary
  summaryTruncated := d.activity.summaryTruncated
  taskId := d.activity.taskId
  decisionKey := d.activity.decisionKey
  objectiveId := d.activity.objectiveId
  runId := d.activity.runId
  project := d.activity.project
  occurredAt := d.activity.occurredAt.map (Nat.cast : ℕ → ℤ)
  observedAt := d.activity.observedAt
  refs := d.activity.refs
  sourceInstanceId := d.activity.sourceInstanceId
  sourceEventId := d.activity.sourceEventId

/-- `toWireRecord` -/
def Frontend.CanonicalActivityRecord.toWireRecord (r : CanonicalActivityRecord) : Json :=
  .obj [("id", .str r.id), ("sequence", .int r.sequence),
    ("delivery_sequence", .int r.deliverySequence), ("revision", .int r.revision),
    ("kind", .str r.kind), ("state", .str r.state), ("importance", .str r.importance),
    ("title", .str r.title), ("summary", .str r.summary),
    ("summary_truncated", .bool r.summaryTruncated), ("task_id", .nullable r.taskId),
    ("decision_key", .nullable r.decisionKey), ("objective_id", .nullable r.objectiveId),
    ("run_id", .nullable r.runId), ("project", .nullable r.project),
    ("occurred_at", .nullableTime r.occurredAt), ("observed_at", .int r.observedAt),
    ("refs", .arr (r.refs.map ActivityRef.json)),
    ("source", .obj [("instance_id", .str r.sourceInstanceId),
      ("event_id", .nullable r.sourceEventId)])]

/-- What the client demands of a reference. -/
def ActivityRef.readable : ActivityRef → Bool
  | .pullRequest url => safeHttpsUrl url
  | .report id => bounded id 200 && safeReportId id

/-- A positive number that the client takes. -/
def safePositive (n : ℕ) : Bool := safeInteger n && decide ((1 : ℤ) ≤ n)

/-- A number that the client takes from a minimum on. -/
def safeFrom (minimum n : ℤ) : Bool := safeInteger n && decide (minimum ≤ n)

/-- What the client demands of a record. -/
def Frontend.CanonicalActivityRecord.readable (r : CanonicalActivityRecord) : Bool :=
  (bounded r.id 128 && safeFrom 1 r.sequence && safeFrom 1 r.deliverySequence &&
    safeFrom 1 r.revision) &&
    (decide (r.kind ∈ activityKinds) && decide (r.state ∈ activityStates) &&
      (kindStates.lookup r.kind).any (r.state ∈ ·) &&
      decide (r.importance ∈ ["routine", "attention"])) &&
    (bounded r.title 240 && bounded r.summary 600) &&
    (r.taskId.all (bounded · 200) && r.decisionKey.all (bounded · 128) &&
      r.objectiveId.all (bounded · 128) && r.runId.all (bounded · 128) &&
      r.project.all (bounded · 160)) &&
    (r.occurredAt.all (safeFrom 0) && safeFrom 0 r.observedAt) &&
    (bounded r.sourceInstanceId 128 && r.sourceEventId.all (bounded · 200)) &&
    (decide (r.refs.length ≤ 8) && r.refs.all ActivityRef.readable) &&
    r.validIdentity && r.texts.all fun text => !containsSensitiveText text

/-- What the client demands of a delivered record, but for what resembles credentials. -/
def DeliveredActivity.wellFormed (d : DeliveredActivity) : Bool :=
  (bounded d.activity.id 128 && safePositive d.activity.sequence &&
    safePositive d.deliverySequence && safePositive d.activity.revision) &&
    (decide (d.activity.kind ∈ activityKinds) && decide (d.activity.state ∈ activityStates) &&
      (kindStates.lookup d.activity.kind).any (d.activity.state ∈ ·) &&
      decide (d.activity.importance ∈ ["routine", "attention"])) &&
    (bounded d.activity.title 240 && bounded d.activity.summary 600) &&
    (d.activity.taskId.all (bounded · 200) && d.activity.decisionKey.all (bounded · 128) &&
      d.activity.objectiveId.all (bounded · 128) && d.activity.runId.all (bounded · 128) &&
      d.activity.project.all (bounded · 160)) &&
    (d.activity.occurredAt.all (fun time : ℕ => safeInteger (time : ℤ)) &&
      safeInteger d.activity.observedAt &&
      decide (0 ≤ d.activity.observedAt)) &&
    (bounded d.activity.sourceInstanceId 128 && d.activity.sourceEventId.all (bounded · 200)) &&
    (decide (d.activity.refs.length ≤ 8) && d.activity.refs.all ActivityRef.readable) &&
    d.record.validIdentity

/-- No text of the record resembles credentials, for the client. -/
def DeliveredActivity.clean (d : DeliveredActivity) : Bool :=
  d.record.texts.all fun text => !containsSensitiveText text

section Reading

theorem safeIntegerFrom_int (minimum n : ℤ) : safeIntegerFrom minimum (.int n) =
    if safeInteger n && decide (minimum ≤ n) then some n else none := by
  rw [safeIntegerFrom, safeInteger?_int]
  cases safeInteger n <;> simp [Option.filter]

theorem optionalBounded_nullable (maximum : ℕ) (value : Option String) :
    optionalBounded maximum (.nullable value) =
      if value.all (bounded · maximum) then some value else none := by
  cases value <;> rfl

theorem optionalTime_nullableTime (time : Option ℤ) : optionalTime (.nullableTime time) =
    if time.all (safeFrom 0) then some time else none := by
  cases time with
  | none => rfl
  | some time =>
    have hread : optionalTime (.nullableTime (some time)) =
      (safeIntegerFrom 0 (.int time)).map some := rfl
    rw [hread, safeIntegerFrom_int, Option.all_some, safeFrom]
    split <;> rfl

theorem normalizeRef_json (r : ActivityRef) :
    normalizeRef r.json = if r.readable then some r else none := by
  cases r with
  | pullRequest url =>
    have hread : normalizeRef (ActivityRef.pullRequest url).json =
      ((some url).filter safeHttpsUrl).map .pullRequest := rfl
    rw [hread, Option.filter_some, ActivityRef.readable]
    split <;> rfl
  | report id =>
    have hread : normalizeRef (ActivityRef.report id).json =
      ((some id).filter fun id => bounded id 200 && safeReportId id).map .report := rfl
    rw [hread, Option.filter_some, ActivityRef.readable]
    split <;> rfl

/-- A value that is read under a condition. -/
theorem ite_bind {α β : Type} {c : Prop} [Decidable c] (a : α) (f : α → Option β) :
    (if c then some a else none).bind f = if c then f a else none := by
  split <;> rfl

theorem guard_bind {β : Type} {c : Prop} [Decidable c] (f : Unit → Option β) :
    (guard c : Option Unit).bind f = if c then f () else none := by
  by_cases h : c <;> simp [h]

theorem ite_ite_none {β : Type} {c c' : Prop} [Decidable c] [Decidable c'] (b : Option β) :
    (if c then if c' then b else none else none) = if c ∧ c' then b else none := by
  by_cases h : c <;> simp [h]

/-- The client reads back exactly the records that are as it demands. -/
theorem normalize_toWireRecord (r : CanonicalActivityRecord) :
    normalizeCanonicalActivityRecord r.toWireRecord = if r.readable then some r else none := by
  have hnames : r.toWireRecord.namesAre recordKeys = true := rfl
  have hid : (r.toWireRecord.get "id").str? = some r.id := rfl
  have hsequence : r.toWireRecord.get "sequence" = .int r.sequence := rfl
  have hdelivery : r.toWireRecord.get "delivery_sequence" = .int r.deliverySequence := rfl
  have hrevision : r.toWireRecord.get "revision" = .int r.revision := rfl
  have hkind : (r.toWireRecord.get "kind").str? = some r.kind := rfl
  have hstate : (r.toWireRecord.get "state").str? = some r.state := rfl
  have himportance : (r.toWireRecord.get "importance").str? = some r.importance := rfl
  have htitle : (r.toWireRecord.get "title").str? = some r.title := rfl
  have hsummary : (r.toWireRecord.get "summary").str? = some r.summary := rfl
  have htruncated : (r.toWireRecord.get "summary_truncated").bool? = some r.summaryTruncated := rfl
  have htask : r.toWireRecord.get "task_id" = .nullable r.taskId := rfl
  have hdecision : r.toWireRecord.get "decision_key" = .nullable r.decisionKey := rfl
  have hobjective : r.toWireRecord.get "objective_id" = .nullable r.objectiveId := rfl
  have hrun : r.toWireRecord.get "run_id" = .nullable r.runId := rfl
  have hproject : r.toWireRecord.get "project" = .nullable r.project := rfl
  have hoccurred : r.toWireRecord.get "occurred_at" = .nullableTime r.occurredAt := rfl
  have hobserved : r.toWireRecord.get "observed_at" = .int r.observedAt := rfl
  have hsource : (r.toWireRecord.get "source").namesAre ["instance_id", "event_id"] = true := rfl
  have hinstance : ((r.toWireRecord.get "source").get "instance_id").str? =
    some r.sourceInstanceId := rfl
  have hevent : (r.toWireRecord.get "source").get "event_id" = .nullable r.sourceEventId := rfl
  have hrefs : (r.toWireRecord.get "refs").arr? = some (r.refs.map ActivityRef.json) := rfl
  have hmap : (r.refs.map ActivityRef.json).mapM normalizeRef =
      if r.refs.all ActivityRef.readable then some r.refs else none := by
    rw [mapM_read normalizeRef_json, List.map_id']
  simp only [normalizeCanonicalActivityRecord, hnames, hid, hsequence, hdelivery, hrevision, hkind,
    hstate, himportance, htitle, hsummary, htruncated, htask, hdecision, hobjective, hrun, hproject,
    hoccurred, hobserved, hsource, hinstance, hevent, hrefs, hmap, safeIntegerFrom_int,
    optionalBounded_nullable, optionalTime_nullableTime, Option.bind_eq_bind, Option.filter_some,
    List.length_map, Option.bind_some, ite_bind, guard_bind, ite_ite_none, Option.pure_def]
  refine if_congr ?_ rfl rfl
  simp only [CanonicalActivityRecord.readable, safeFrom, Bool.and_eq_true, decide_eq_true_eq,
    List.all_eq_true, Bool.not_eq_true', true_and, and_assoc]

/-- Reading a record looks at its members only, in any order. -/
theorem normalize_congr {raw raw' : Json}
    (hnames : raw.namesAre recordKeys = raw'.namesAre recordKeys)
    (hget : ∀ name ∈ recordKeys, raw.get name = raw'.get name) :
    normalizeCanonicalActivityRecord raw = normalizeCanonicalActivityRecord raw' := by
  simp only [recordKeys, List.forall_mem_cons] at hget
  obtain ⟨hid, hsequence, hdelivery, hrevision, hkind, hstate, himportance, htitle, hsummary,
    htruncated, htask, hdecision, hobjective, hrun, hproject, hoccurred, hobserved, hrefs, hsource,
    -⟩ := hget
  simp only [normalizeCanonicalActivityRecord, hnames, hid, hsequence, hdelivery, hrevision, hkind,
    hstate, himportance, htitle, hsummary, htruncated, htask, hdecision, hobjective, hrun, hproject,
    hoccurred, hobserved, hrefs, hsource]

/-- What the client demands of a delivered record is what it demands of the record that it holds. -/
theorem readable_record (d : DeliveredActivity) :
    d.record.readable = (d.wellFormed && d.clean) := by
  have hoccurred : (d.activity.occurredAt.map (Nat.cast : ℕ → ℤ)).all (safeFrom 0) =
      d.activity.occurredAt.all fun time : ℕ => safeInteger (time : ℤ) := by
    cases d.activity.occurredAt <;> simp [safeFrom]
  simp only [CanonicalActivityRecord.readable, DeliveredActivity.wellFormed,
    DeliveredActivity.clean, safePositive, safeFrom, ← hoccurred, Bool.and_assoc]
  rfl

/-- The client reads a record exactly when it is as it demands and resembles no credentials. -/
theorem normalizeCanonicalActivityRecord_json (d : DeliveredActivity) :
    normalizeCanonicalActivityRecord d.json =
      if d.wellFormed && d.clean then some d.record else none := by
  have hoccurred : Json.nullableInt d.activity.occurredAt =
      .nullableTime (d.activity.occurredAt.map (Nat.cast : ℕ → ℤ)) := by
    cases d.activity.occurredAt <;> rfl
  have hget : ∀ name ∈ recordKeys, d.json.get name = d.record.toWireRecord.get name := by
    simp only [recordKeys, List.forall_mem_cons]
    exact ⟨rfl, rfl, rfl, rfl, rfl, rfl, rfl, rfl, rfl, rfl, rfl, rfl, rfl, rfl, rfl, hoccurred,
      rfl, rfl, rfl, List.forall_mem_nil _⟩
  have hsame : normalizeCanonicalActivityRecord d.json =
      normalizeCanonicalActivityRecord d.record.toWireRecord := normalize_congr rfl hget
  rw [hsame, normalize_toWireRecord, readable_record]

theorem safeFrom_of_read {minimum n : ℤ} {value : Json}
    (h : safeIntegerFrom minimum value = some n) : safeFrom minimum n = true := by
  obtain ⟨hsafe, hminimum⟩ := Option.filter_eq_some_iff.mp h
  obtain ⟨-, hrange⟩ := Option.filter_eq_some_iff.mp hsafe
  rw [safeFrom, Bool.and_eq_true]
  exact ⟨hrange, hminimum⟩

theorem optionalBounded_of_read {maximum : ℕ} {value : Json} {text : Option String}
    (h : optionalBounded maximum value = some text) : text.all (bounded · maximum) = true := by
  unfold optionalBounded at h
  split at h
  · obtain rfl := Option.some.inj h
    rfl
  · split_ifs at h with hbounded
    obtain rfl := Option.some.inj h
    exact hbounded
  · cases h

theorem optionalTime_of_read {value : Json} {time : Option ℤ} (h : optionalTime value = some time) :
    time.all (safeFrom 0) = true := by
  unfold optionalTime at h
  split at h
  · obtain rfl := Option.some.inj h
    rfl
  · obtain ⟨n, hn, rfl⟩ := Option.map_eq_some_iff.mp h
    exact safeFrom_of_read hn

theorem readable_of_normalizeRef {reference : Json} {ref : ActivityRef}
    (h : normalizeRef reference = some ref) : ref.readable = true := by
  unfold normalizeRef at h
  split_ifs at h
  · obtain ⟨url, hurl, rfl⟩ := Option.map_eq_some_iff.mp h
    exact (Option.filter_eq_some_iff.mp hurl).2
  · obtain ⟨id, hid, rfl⟩ := Option.map_eq_some_iff.mp h
    exact (Option.filter_eq_some_iff.mp hid).2

/-- A listed reading reads each item. -/
theorem mapM_forall {α β : Type} {f : α → Option β} {P : β → Prop} (hf : ∀ a b, f a = some b → P b)
    {l : List α} {r : List β} (h : l.mapM f = some r) : r.length = l.length ∧ ∀ b ∈ r, P b := by
  induction l generalizing r with
  | nil =>
    obtain rfl : [] = r := by simpa using h
    simp
  | cons a l ih =>
    simp only [List.mapM_cons, Option.bind_eq_bind, Option.bind_eq_some_iff, Option.pure_def,
      Option.some.injEq] at h
    obtain ⟨b, hb, rest, hrest, rfl⟩ := h
    obtain ⟨hlength, hall⟩ := ih hrest
    exact ⟨congrArg (· + 1) hlength, List.forall_mem_cons.mpr ⟨hf a b hb, hall⟩⟩

/-- What the client demands of a record, one after the other. -/
theorem Frontend.CanonicalActivityRecord.readable_iff {r : CanonicalActivityRecord} :
    r.readable = true ↔
    (bounded r.id 128 = true ∧ safeFrom 1 r.sequence = true ∧
      safeFrom 1 r.deliverySequence = true ∧ safeFrom 1 r.revision = true) ∧
    (r.kind ∈ activityKinds ∧ r.state ∈ activityStates ∧
      (kindStates.lookup r.kind).any (r.state ∈ ·) = true ∧
      r.importance ∈ ["routine", "attention"]) ∧
    (bounded r.title 240 = true ∧ bounded r.summary 600 = true) ∧
    (r.taskId.all (bounded · 200) = true ∧ r.decisionKey.all (bounded · 128) = true ∧
      r.objectiveId.all (bounded · 128) = true ∧ r.runId.all (bounded · 128) = true ∧
      r.project.all (bounded · 160) = true) ∧
    (r.occurredAt.all (safeFrom 0) = true ∧ safeFrom 0 r.observedAt = true) ∧
    (bounded r.sourceInstanceId 128 = true ∧ r.sourceEventId.all (bounded · 200) = true) ∧
    (r.refs.length ≤ 8 ∧ ∀ ref ∈ r.refs, ref.readable = true) ∧
    r.validIdentity = true ∧ ∀ text ∈ r.texts, containsSensitiveText text = false := by
  simp only [CanonicalActivityRecord.readable, Bool.and_eq_true, decide_eq_true_eq,
    List.all_eq_true, Bool.not_eq_true', and_assoc]

/-- The client holds only records that are as it demands. -/
theorem readable_of_normalize {raw : Json} {r : CanonicalActivityRecord}
    (h : normalizeCanonicalActivityRecord raw = some r) : r.readable = true := by
  unfold normalizeCanonicalActivityRecord at h
  obtain ⟨-, -, h⟩ := Option.bind_eq_some_iff.mp h
  obtain ⟨id, hid, h⟩ := Option.bind_eq_some_iff.mp h
  obtain ⟨sequence, hsequence, h⟩ := Option.bind_eq_some_iff.mp h
  obtain ⟨delivery, hdelivery, h⟩ := Option.bind_eq_some_iff.mp h
  obtain ⟨revision, hrevision, h⟩ := Option.bind_eq_some_iff.mp h
  obtain ⟨kind, hkind, h⟩ := Option.bind_eq_some_iff.mp h
  obtain ⟨state, hstate, h⟩ := Option.bind_eq_some_iff.mp h
  obtain ⟨importance, himportance, h⟩ := Option.bind_eq_some_iff.mp h
  obtain ⟨title, htitle, h⟩ := Option.bind_eq_some_iff.mp h
  obtain ⟨summary, hsummary, h⟩ := Option.bind_eq_some_iff.mp h
  obtain ⟨truncated, -, h⟩ := Option.bind_eq_some_iff.mp h
  obtain ⟨task, htask, h⟩ := Option.bind_eq_some_iff.mp h
  obtain ⟨decision, hdecision, h⟩ := Option.bind_eq_some_iff.mp h
  obtain ⟨objective, hobjective, h⟩ := Option.bind_eq_some_iff.mp h
  obtain ⟨run, hrun, h⟩ := Option.bind_eq_some_iff.mp h
  obtain ⟨project, hproject, h⟩ := Option.bind_eq_some_iff.mp h
  obtain ⟨occurred, hoccurred, h⟩ := Option.bind_eq_some_iff.mp h
  obtain ⟨observed, hobserved, h⟩ := Option.bind_eq_some_iff.mp h
  obtain ⟨-, -, h⟩ := Option.bind_eq_some_iff.mp h
  obtain ⟨inst, hinst, h⟩ := Option.bind_eq_some_iff.mp h
  obtain ⟨event, hevent, h⟩ := Option.bind_eq_some_iff.mp h
  obtain ⟨references, hcount, h⟩ := Option.bind_eq_some_iff.mp h
  obtain ⟨refs, hrefs, h⟩ := Option.bind_eq_some_iff.mp h
  obtain ⟨_, hguard, h⟩ := Option.bind_eq_some_iff.mp h
  obtain ⟨hidentity, hclean⟩ := (Option.guard_eq_some' _).mp hguard
  obtain rfl := Option.some.inj h
  obtain ⟨hlength, hreadable⟩ := mapM_forall (fun _ _ => readable_of_normalizeRef) hrefs
  have hbounded {value : Option String} {p : String → Bool} {text : String}
      (h : value.filter p = some text) : p text = true := (Option.filter_eq_some_iff.mp h).2
  obtain ⟨hknown, hfits⟩ := of_decide_eq_true (hbounded hstate)
  refine CanonicalActivityRecord.readable_iff.mpr ⟨⟨hbounded hid, safeFrom_of_read hsequence,
    safeFrom_of_read hdelivery, safeFrom_of_read hrevision⟩,
    ⟨of_decide_eq_true (hbounded hkind), hknown, hfits,
    of_decide_eq_true (hbounded himportance)⟩, ⟨hbounded htitle, hbounded hsummary⟩,
    ⟨optionalBounded_of_read htask, optionalBounded_of_read hdecision,
      optionalBounded_of_read hobjective, optionalBounded_of_read hrun,
      optionalBounded_of_read hproject⟩,
    ⟨optionalTime_of_read hoccurred, safeFrom_of_read hobserved⟩,
    ⟨hbounded hinst, optionalBounded_of_read hevent⟩, ⟨?_, hreadable⟩, hidentity, hclean⟩
  exact hlength.le.trans (of_decide_eq_true (Option.filter_eq_some_iff.mp hcount).2)

end Reading

end Magistrate
